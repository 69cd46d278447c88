import InetHost.Proofs.Arp.Resolution
import InetHost.Proofs.Host.Acts

/-! What becomes of an answer that is read while the host waits for it. Every packet of address resolution
leaves a mapping of its sender in the cache, and the host looks at the cache again only when a poll is over;
so an answer is missed if the packets behind it fill the cache with others. -/

namespace InetHost

namespace Arp.Cache

variable {c : Cache} {ip : Ipv4.Address} {seen later : List Sighting}

def learn (c : Cache) (seen : List Sighting) : Cache :=
  seen.foldl (fun c s => c.add s.ip s.mac s.time) c

theorem learn_append (c : Cache) (seen later : List Sighting) :
    c.learn (seen ++ later) = (c.learn seen).learn later := List.foldl_append

theorem after_learn (history seen : List Sighting) :
    (after history).learn seen = after (history ++ seen) := (learn_append empty history seen).symm

/-- The mapping of `ip` gives way for none of what is seen. -/
def Keeps (ip : Ipv4.Address) : Cache → List Sighting → Prop
  | _, [] => True
  | c, s :: later => ¬ c.Evicts s ip ∧ Keeps ip (c.add s.ip s.mac s.time) later

theorem Distinct.learn (h : c.Distinct) (seen : List Sighting) : (c.learn seen).Distinct := by
  induction seen generalizing c with
  | nil => exact h
  | cons s seen ih => exact ih (h.add s.ip s.mac s.time)

theorem Distinct.lookup?_learn_of_keeps (h : c.Distinct) (hl : ∀ s ∈ later, s.ip ≠ ip)
    (hk : c.Keeps ip later) : (c.learn later).lookup? ip = c.lookup? ip := by
  induction later generalizing c with
  | nil => rfl
  | cons s later ih =>
    obtain ⟨hs, hrest⟩ := List.forall_mem_cons.1 hl
    have hadd := h.lookup?_add_of_ne hs hk.1
    exact (ih (h.add s.ip s.mac s.time) hrest hk.2).trans hadd

theorem Distinct.keeps_of_lookup?_eq_none (h : c.Distinct) (hl : ∀ s ∈ later, s.ip ≠ ip)
    (hn : c.lookup? ip = none) : c.Keeps ip later := by
  induction later generalizing c with
  | nil => trivial
  | cons s later ih =>
    obtain ⟨hs, hrest⟩ := List.forall_mem_cons.1 hl
    have he : ¬ c.Evicts s ip := by
      intro he
      have hsome := he.isSome_lookup?
      rw [hn] at hsome
      cases hsome
    have hadd := (h.lookup?_add_of_ne hs he).trans hn
    exact ⟨he, ih (h.add s.ip s.mac s.time) hrest hadd⟩

theorem Distinct.lookup?_learn_of_not_keeps (h : c.Distinct) (hl : ∀ s ∈ later, s.ip ≠ ip)
    (hk : ¬ c.Keeps ip later) : (c.learn later).lookup? ip = none := by
  induction later generalizing c with
  | nil => exact absurd trivial hk
  | cons s later ih =>
    obtain ⟨hs, hrest⟩ := List.forall_mem_cons.1 hl
    have hd := h.add s.ip s.mac s.time
    by_cases he : c.Evicts s ip
    · have hgone := h.lookup?_add_of_evicts he
      have hkeeps := hd.keeps_of_lookup?_eq_none hrest hgone
      exact (hd.lookup?_learn_of_keeps hrest hkeeps).trans hgone
    · exact ih hd hrest fun hrest => hk ⟨he, hrest⟩

end Arp.Cache

open Arp

variable {δ : Type} {w w₁ w' : World δ} {op : Operation δ}

section Histories

/-! The cache of a host at any time is that of a history. -/

/-- Some stations are seen between two worlds. -/
def World.Sees (w w' : World δ) : Prop := ∃ seen, w'.host.arp = w.host.arp.learn seen

namespace World.Sees

theorem of_arp_eq (h : w'.host.arp = w.host.arp) : w.Sees w' := ⟨[], h⟩

theorem refl (w : World δ) : w.Sees w := of_arp_eq rfl

theorem trans (h : w.Sees w₁) (h' : w₁.Sees w') : w.Sees w' := by
  obtain ⟨seen, h⟩ := h
  obtain ⟨later, h'⟩ := h'
  exact ⟨seen ++ later, by rw [h', h, Cache.learn_append]⟩

theorem congr (h : w.Sees w₁) (h' : w'.host.arp = w₁.host.arp) : w.Sees w' :=
  h.trans (of_arp_eq h')

theorem adjust (h : w.Sees w₁) (h' : w₁.Adjusts w') : w.Sees w' :=
  h.congr (by rw [h'.host])

end World.Sees

theorem Tcp.Reaction.adjusts {slot : Slot} {header : Header} {message : Bytes}
    {source : Ipv4.Address} (h : Reaction slot header message source w w') : w.Adjusts w' := by
  have hack : w.Adjusts (setAck slot (header.seq + 1) w) := .updateSocket _ w
  cases h with
  | reset _ => exact .handleReset source w
  | confirm | closeWait => exact hack.trans (.setState _)
  | complete | finAcked => exact .setState w
  | data => exact (World.Adjusts.record w rfl).trans (.keepData ..)
  | release => exact .release w

variable [Link.Device δ]

theorem Chore.sees (h : Chore w w') : w.Sees w' := by
  cases h with
  | learn ip mac => exact ⟨[⟨ip, mac, w.readClock.1⟩], rfl⟩
  | noteReply => exact .of_arp_eq (by rw [Icmp.host_noteReply])
  | _ => exact .of_arp_eq rfl

theorem Evolves.sees (h : Evolves w w') : w.Sees w' := by
  induction h with
  | refl w => exact .refl w
  | trans _ _ ih₁ ih₂ => exact ih₁.trans ih₂
  | chore h => exact h.sees
  | @react w _ _ _ _ _ _ h => exact (World.Sees.refl w).adjust h.adjusts
  | segment _ _ _ _ _ _ _ ih => exact ih.congr rfl
  | @accept w _ _ source header slot _ _ _ _ _ ih =>
    have hpromote : w.Adjusts (Tcp.promote slot header source w) :=
      (World.Adjusts.updateSocket _ w).trans (.setState _)
    exact (((World.Sees.refl w).adjust hpromote).trans ih).congr rfl
  | @finish w w₁ header slot _ _ _ _ ih =>
    have hack : w.Sees (Tcp.setAck slot (header.seq + 1) w) := .of_arp_eq rfl
    exact (hack.trans ih).adjust (.setState w₁)

theorem Deed.arp_eq (h : Deed op w w') : w'.host.arp = w.host.arp := by
  cases h with
  | closeUdp _ _ handle =>
    obtain ⟨t, ht⟩ := Udp.exists_host_close handle w
    rw [ht]
  | _ => rfl

theorem Errand.sees (h : Errand op w w') : w.Sees w' := by
  induction h with
  | evolves h => exact h.sees
  | deed h => exact .of_arp_eq h.arp_eq
  | trans _ _ ih₁ ih₂ => exact ih₁.trans ih₂

theorem Operation.Works.sees (h : op.Works w w') : w.Sees w' := by
  have hw : w.Sees w := .refl w
  have hdial {slot : Tcp.Slot} {ip : Ipv4.Address} {port : UInt16} {w₁ : World δ}
      (h : Evolves (Tcp.dial slot ip port w) w₁) : w.Sees w₁ :=
    (hw.adjust ((World.Adjusts.updateSocket _ w).trans (.setState _))).trans h.sees
  cases h with
  | errand _ h => exact h.sees
  | refused => exact hw
  | ipv4Send _ _ _ h _ => exact h.sees.congr rfl
  | tcpOpen _ => exact .of_arp_eq rfl
  | tcpBind _ _ => exact .of_arp_eq rfl
  | tcpListen _ => exact hw.adjust (.setState w)
  | connectUnsent _ _ _ _ h => exact (hdial h).adjust (.setState _)
  | connected _ _ _ _ h₁ h₂ _ => exact ((hdial h₁).congr rfl).trans h₂.sees
  | notConnected _ _ _ _ h₁ h₂ =>
    exact (((hdial h₁).congr rfl).trans h₂.sees).adjust (.setState _)
  | tcpSend _ _ _ h => exact h.sees.congr rfl
  | notSent _ _ h => exact h.sees
  | tcpReceive _ _ h _ _ => exact h.sees.congr rfl
  | notReceived _ _ h => exact h.sees
  | closeEstablished _ _ h =>
    exact ((h.sees.adjust (.updateSocket _ _)).adjust (.setState _)).adjust (.release _)
  | closeWaiting _ _ h => exact (h.sees.adjust (.updateSocket _ _)).adjust (.setState _)
  | closeOther _ _ _ => exact hw.adjust (.release w)
  | tcpShutdown _ _ h => exact (h.sees.adjust (.updateSocket _ _)).adjust (.setState _)

theorem Reachable.exists_arp_eq_after (h : Reachable w) :
    ∃ history, w.host.arp = Cache.after history := by
  induction h with
  | start => exact ⟨[], rfl⟩
  | step op hw hr ih =>
    obtain ⟨history, hc⟩ := ih
    obtain ⟨seen, hs⟩ := (hr.works hw.safe).sees
    exact ⟨history ++ seen, by rw [hs, hc, Cache.after_learn]⟩

theorem Reachable.arp_distinct (h : Reachable w) : w.host.arp.Distinct := by
  obtain ⟨history, hc⟩ := h.exists_arp_eq_after
  rw [hc]
  exact Cache.distinct_after history

end Histories

/-- What a packet shows that is read at a moment; the mapping is in the cache by then. -/
def Moment.sighting? (m : Moment) : Option Sighting :=
  match m.event with
  | .arpLearned ip mac =>
    (m.host.arp.find? ip).map fun i => ⟨ip, mac, (m.host.arp.entry i).lastSeen⟩
  | _ => none

def World.sightings (w : World δ) : List Sighting := w.journal.reverse.filterMap Moment.sighting?

theorem World.sightings_of_journal_eq_cons {m : Moment} (h : w'.journal = m :: w.journal) :
    w'.sightings = w.sightings ++ m.sighting?.toList := by
  rw [sightings, h, List.reverse_cons, List.filterMap_append, sightings]
  cases hs : m.sighting? with
  | none => rw [List.filterMap_cons_none hs]; rfl
  | some s => rw [List.filterMap_cons_some hs]; rfl

theorem Moment.sighting?_eq_none {m : Moment} (h : m.event.isNews = false) : m.sighting? = none := by
  obtain ⟨e, host⟩ := m
  cases e with
  | arpLearned => cases h
  | _ => rfl

theorem Arp.sighting?_note (packet : Packet) (w : World δ) :
    (⟨.arpLearned packet.senderIp packet.senderMac, (note packet w).host⟩ : Moment).sighting? =
      some ⟨packet.senderIp, packet.senderMac, w.clock.now⟩ := by
  have hfind : (note packet w).host.arp.find? packet.senderIp =
      some (w.host.arp.slotFor packet.senderIp) := Cache.find?_add_self ..
  have hentry : (note packet w).host.arp.entry (w.host.arp.slotFor packet.senderIp) =
      ⟨packet.senderIp, packet.senderMac, w.readClock.1, true⟩ :=
    (Cache.entry_add ..).trans (if_pos rfl)
  show ((note packet w).host.arp.find? packet.senderIp).map _ = _
  rw [hfind, Option.map_some, hentry]
  exact congrArg (fun time => some (Sighting.mk _ _ time)) (Clock.fst_read w.clock)

def World.Learns (w w' : World δ) : Prop :=
  ∃ seen, w'.host.arp = w.host.arp.learn seen ∧ w'.sightings = w.sightings ++ seen

namespace World.Learns

theorem of_journal_eq (ha : w'.host.arp = w.host.arp) (hj : w'.journal = w.journal) :
    w.Learns w' :=
  ⟨[], ha, by rw [sightings, hj, List.append_nil]; rfl⟩

theorem of_journal_eq_cons {m : Moment} (ha : w'.host.arp = w.host.arp)
    (hj : w'.journal = m :: w.journal) (hm : m.sighting? = none) : w.Learns w' :=
  ⟨[], ha, by rw [sightings_of_journal_eq_cons hj, hm]; rfl⟩

theorem refl (w : World δ) : w.Learns w := of_journal_eq rfl rfl

theorem trans (h : w.Learns w₁) (h' : w₁.Learns w') : w.Learns w' := by
  obtain ⟨seen, ha, hs⟩ := h
  obtain ⟨later, ha', hs'⟩ := h'
  refine ⟨seen ++ later, ?_, ?_⟩
  · rw [ha', ha, Cache.learn_append]
  · rw [hs', hs, List.append_assoc]

end World.Learns

variable [Link.Device δ]

theorem World.Act.learns (h : w.Act w') : w.Learns w' := by
  cases h with
  | note capacity packet =>
    have hj : (Arp.note packet (w.takeFrame capacity).2).journal =
      ⟨.arpLearned packet.senderIp packet.senderMac,
        (Arp.note packet (w.takeFrame capacity).2).host⟩ :: w.journal := rfl
    refine ⟨[⟨packet.senderIp, packet.senderMac, w.clock.now⟩], ?_, ?_⟩
    · rw [← Clock.fst_read w.clock]
      rfl
    · rw [sightings_of_journal_eq_cons hj, sighting?_note]
      rfl
  | noteReply header sent source =>
    have ha : (Icmp.noteReply header sent source w).host.arp = w.host.arp := by
      rw [Icmp.host_noteReply]
    exact .of_journal_eq_cons ha (Icmp.journal_noteReply header sent source w) rfl
  | record he => exact .of_journal_eq_cons rfl rfl (Moment.sighting?_eq_none he)
  | sendArp dest source packet =>
    obtain ⟨failure, hj⟩ := World.journal_handOver (Arp.wire dest source packet) w
    exact .of_journal_eq_cons rfl hj rfl
  | @answer mac dest protocol payload =>
    obtain ⟨failure, hj⟩ := World.journal_dispatch mac dest protocol payload w
    exact .of_journal_eq_cons rfl hj rfl
  | _ => exact .of_journal_eq rfl rfl

theorem World.Acts.learns (h : w.Acts w') : w.Learns w' := by
  induction h with
  | refl => exact .refl w
  | tail _ hact ih => exact ih.trans hact.learns

theorem Arp.sightings_asked (target : Ipv4.Address) (w : World δ) :
    (asked target w).2.sightings = w.sightings := by
  obtain ⟨failure, hj⟩ := World.journal_handOver (question w.host.interface target)
    (w.record (.arpRequested target w.host.interface.ip))
  rw [asked, World.sightings_of_journal_eq_cons hj,
    World.sightings_of_journal_eq_cons (World.journal_record _ w)]
  exact (List.append_nil _).trans (List.append_nil _)

omit [Link.Device δ] in
theorem Arp.Answered.iff_keeps {p : Poller δ} {target : Ipv4.Address} {timeout : UInt64}
    {result : Except NetError Mac} {c : Cache} {mac : Mac} {later : List Sighting}
    (h : Answered p target timeout w result w') (hd : c.Distinct)
    (hfound : c.lookup? target = some mac) (hlater : ∀ s ∈ later, s.ip ≠ target)
    (hend : w'.host.arp = c.learn later) :
    (result = .ok mac ↔ c.Keeps target later) ∧
      (result = .error .timeout ↔ ¬ c.Keeps target later) := by
  by_cases hk : c.Keeps target later
  · have hmac : w'.host.arp.lookup? target = some mac := by
      rw [hend, hd.lookup?_learn_of_keeps hlater hk, hfound]
    obtain rfl := (h.result_iff.1 mac).2 hmac
    simp [hk]
  · have hgone : w'.host.arp.lookup? target = none := by
      rw [hend, hd.lookup?_learn_of_not_keeps hlater hk]
    rcases h.result_cases with ⟨mac', rfl, -⟩ | rfl
    · cases hgone.symm.trans ((h.result_iff.1 mac').1 rfl)
    · simp [hk]

/-- An answer that comes during the wait is found exactly if the cache keeps its mapping to the end. -/
theorem answer_found_iff_kept (hw : Reachable w) (ip : Ipv4.Address) (timeout : UInt64)
    (hnone : w.host.arp.lookup? (w.host.interface.nextHop ip) = none) :
    let target := w.host.interface.nextHop ip
    (∀ fuel fault, (resolve (Poller.ofFuel fuel) ip timeout).run w ≠ .error (.fault fault)) ∧
    (∀ limit < 2 ^ 28, Link.DeliversAtMost limit w.device → w.clock.Steady (2 ^ 28) →
      w.clock.now.toNat ≤ 2 ^ 63 → timeout.toNat < 2 ^ 28 →
      ∃ least, ∀ fuel ≥ least, ∃ result w',
        (resolve (Poller.ofFuel fuel) ip timeout).run w = .ok (result, w')) ∧
    ∀ fuel result w', (resolve (Poller.ofFuel fuel) ip timeout).run w = .ok (result, w') →
      ∃ seen, w'.sightings = w.sightings ++ seen ∧
        ∀ (earlier later : List Sighting) (s : Sighting), seen = earlier ++ s :: later →
          s.ip = target → (∀ s' ∈ later, s'.ip ≠ target) →
          (result = .ok s.mac ↔ (w.host.arp.learn (earlier ++ [s])).Keeps target later) ∧
          (result = .error .timeout ↔ ¬ (w.host.arp.learn (earlier ++ [s])).Keeps target later) := by
  intro target
  refine ⟨fun fuel fault => ?_, fun limit hl hd hclock hn ht => ?_, fun fuel result w' hr => ?_⟩
  · exact (resolve_ensures (Poller.evolving_ofFuel fuel) ip timeout hw.valid).ne_fault fault
  · exact exists_run_resolve hw hl hd hclock hn ip ht
  cases hsent : (asked target w).1 with
  | error cause =>
    -- Nothing is read if the request does not go out.
    have hrun := (run_resolve_of_refused hnone hsent).symm.trans hr
    obtain ⟨-, rfl⟩ := Prod.mk.inj (Except.ok.inj hrun)
    refine ⟨[], (sightings_asked target w).trans (List.append_nil _).symm, ?_⟩
    intro earlier later s hs
    simp at hs
  | ok _ =>
    obtain ⟨seen, hlearnt, hseen⟩ :=
      (resolve_acting (Net.poll_acting fuel) ip timeout hr).learns
    have hanswered := Net.Ensures.of_ok
      (resolve_answered (Poller.evolving_ofFuel fuel) hw.valid hnone hsent) hr
    refine ⟨seen, hseen, fun earlier later s hs hip hlater => ?_⟩
    have hfound : (w.host.arp.learn (earlier ++ [s])).lookup? target = some s.mac := by
      rw [Cache.learn_append, ← hip]
      exact Cache.lookup?_add_self ..
    have hend : w'.host.arp = (w.host.arp.learn (earlier ++ [s])).learn later := by
      rw [hlearnt, hs, ← Cache.learn_append, List.append_assoc]
      rfl
    exact hanswered.iff_keeps (hw.arp_distinct.learn _) hfound hlater hend

namespace Arp

def strangers (n : Nat) : List (Ipv4.Address × Mac) :=
  (List.range n).map fun k => (UInt32.ofNat (0x0A000100 + k), Mac.zero)

def showing (station : Ipv4.Address × Mac) : Bytes :=
  wire Mac.broadcast station.2
    (Packet.request station.2 station.1 Interface.default.gateway)

def flooded (n : Nat) : World Link.Script :=
  .start ⟨[], 0, [], [(0, .frame peerAnswer :: (strangers n).map fun s => .frame (showing s))]⟩
    ⟨0, 500, []⟩ Interface.default

def told (n : Nat) : Except Halt (Except NetError Mac × List (Ipv4.Address × Mac)) :=
  ((resolve (Poller.ofFuel 4) Tcp.peer.ip 1000).run (flooded n)).map fun r =>
    (r.1, r.2.sightings.map fun s => (s.ip, s.mac))

theorem exists_run_of_told {n : Nat} {result : Except NetError Mac}
    (h : told n = .ok (result, (Tcp.peer.ip, Tcp.peer.mac) :: strangers n)) : ∃ w' s later,
      (resolve (Poller.ofFuel 4) Tcp.peer.ip 1000).run (flooded n) = .ok (result, w') ∧
      w'.sightings = s :: later ∧ s.ip = Tcp.peer.ip ∧ s.mac = Tcp.peer.mac ∧
      later.map Sighting.ip = (strangers n).map Prod.fst := by
  obtain ⟨_, w', hr, htold⟩ := Net.exists_of_map_eq_ok h
  obtain ⟨rfl, hstations⟩ := Prod.mk.inj htold
  obtain ⟨s, later, hs, hstation, hlater⟩ := List.map_eq_cons_iff.1 hstations
  obtain ⟨hip, hmac⟩ := Prod.mk.inj hstation
  refine ⟨w', s, later, hr, hs, hip, hmac, ?_⟩
  rw [← hlater, List.map_map]
  rfl

end Arp

theorem answer_found_iff_kept_flooded : Reachable (flooded 15) ∧
    (flooded 15).host.arp.lookup? Tcp.peer.ip = none ∧
    ∃ w' s later,
      (resolve (Poller.ofFuel 4) Tcp.peer.ip 1000).run (flooded 15) = .ok (.ok s.mac, w') ∧
      w'.sightings = s :: later ∧ s.ip = Tcp.peer.ip ∧
      ((flooded 15).host.arp.learn [s]).Keeps Tcp.peer.ip later := by
  have hw : Reachable (flooded 15) := .start ..
  have hnone : (flooded 15).host.arp.lookup? Tcp.peer.ip = none := by decide +kernel
  have htold : told 15 = .ok (.ok Tcp.peer.mac, (Tcp.peer.ip, Tcp.peer.mac) :: strangers 15) := by
    decide +kernel
  obtain ⟨w', s, later, hr, hsightings, hip, hmac, hstrangers⟩ := exists_run_of_told htold
  obtain ⟨seen, hseen, hiff⟩ :=
    (answer_found_iff_kept hw Tcp.peer.ip 1000 hnone).2.2 4 _ w' hr
  obtain rfl : s :: later = seen := hsightings.symm.trans hseen
  have hlater : ∀ s' ∈ later, s'.ip ≠ Tcp.peer.ip := by
    intro s' hs'
    have hmem : s'.ip ∈ (strangers 15).map Prod.fst := hstrangers ▸ List.mem_map_of_mem hs'
    have hnot : Tcp.peer.ip ∉ (strangers 15).map Prod.fst := by decide +kernel
    exact fun he => hnot (he ▸ hmem)
  have hkept := (hiff [] later s rfl hip hlater).1.1 (by rw [hmac])
  exact ⟨hw, hnone, w', s, later, by rw [hmac, hr], hsightings, hip, hkept⟩

/-- One stranger more, and the mapping of the peer is the oldest of a full cache. -/
theorem answer_crowded_out : Reachable (flooded 16) ∧
    (flooded 16).host.arp.lookup? Tcp.peer.ip = none ∧
    told 16 = .ok (.error .timeout, (Tcp.peer.ip, Tcp.peer.mac) :: strangers 16) := by
  refine ⟨.start .., ?_, ?_⟩
  · decide +kernel
  · decide +kernel

end InetHost
