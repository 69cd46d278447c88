import InetHost.Proofs.Host.Operation
import InetHost.Proofs.Udp.Delivery

/-! A datagram socket is a mailbox for one datagram. What a socket holds can be read off the journal: the
datagram of the last delivery, unless something else has happened to the socket since. So it does not
matter that an old datagram stays in the buffer when it is read, or when the socket is closed. -/

namespace InetHost

variable {δ : Type}

namespace Udp

/-- The last event about a socket is the `n`th, and it is a delivery. -/
structure Pending (events : List Event) (slot : Slot) (n : Nat) (d : Datagram) : Prop where
  delivered : events[n]? = some (.datagramDelivered slot d)
  last : ∀ m e, n < m → events[m]? = some e → e.udpSlot? ≠ some slot.val

section Pending

variable {events more : List Event} {e : Event} {slot : Slot} {n : Nat} {d : Datagram}

theorem pending_concat_self (he : e.udpSlot? = some slot.val) :
    Pending (events ++ [e]) slot n d ↔ n = events.length ∧ e = .datagramDelivered slot d := by
  constructor
  · rintro ⟨hd, hlast⟩
    obtain ⟨hn, -⟩ := List.getElem?_eq_some_iff.1 hd
    rw [List.length_append, List.length_singleton] at hn
    rcases Nat.lt_or_eq_of_le (Nat.le_of_lt_succ hn) with hlt | rfl
    · exact absurd he (hlast events.length e hlt List.getElem?_concat_length)
    · rw [List.getElem?_concat_length] at hd
      exact ⟨rfl, Option.some.inj hd⟩
  · rintro ⟨rfl, rfl⟩
    refine ⟨List.getElem?_concat_length, fun m e hm hget => ?_⟩
    obtain ⟨hlt, -⟩ := List.getElem?_eq_some_iff.1 hget
    rw [List.length_append, List.length_singleton] at hlt
    exact absurd hm (Nat.not_lt.2 (Nat.le_of_lt_succ hlt))

theorem pending_append_of_ne (hmore : ∀ e ∈ more, e.udpSlot? ≠ some slot.val) :
    Pending (events ++ more) slot n d ↔ Pending events slot n d := by
  have hbehind {m : Nat} {e : Event} (hm : events.length ≤ m)
      (hget : (events ++ more)[m]? = some e) : e.udpSlot? ≠ some slot.val := by
    rw [List.getElem?_append_right hm] at hget
    exact hmore e (List.mem_of_getElem? hget)
  constructor
  · rintro ⟨hd, hlast⟩
    rcases Nat.lt_or_ge n events.length with hn | hn
    · refine ⟨by rwa [List.getElem?_append_left hn] at hd, fun m e hm hget => hlast m e hm ?_⟩
      obtain ⟨hlt, -⟩ := List.getElem?_eq_some_iff.1 hget
      rwa [List.getElem?_append_left hlt]
    · exact absurd rfl (hbehind hn hd)
  · rintro ⟨hd, hlast⟩
    obtain ⟨hn, -⟩ := List.getElem?_eq_some_iff.1 hd
    refine ⟨by rwa [List.getElem?_append_left hn], fun m e hm hget => ?_⟩
    rcases Nat.lt_or_ge m events.length with hlt | hge
    · exact hlast m e hm (by rwa [List.getElem?_append_left hlt] at hget)
    · exact hbehind hge hget

theorem Pending.not_append (h : Pending events slot n d) (he : e.udpSlot? = some slot.val)
    (rest : List Event) (d' : Datagram) : ¬Pending (events ++ [e] ++ rest) slot n d' := by
  intro hlater
  obtain ⟨hn, -⟩ := List.getElem?_eq_some_iff.1 h.delivered
  refine hlater.last events.length e hn ?_ he
  rw [List.append_assoc, List.getElem?_append_right (Nat.le_refl _), Nat.sub_self]
  rfl

end Pending

def left? : Event → Option Datagram
  | .datagramDelivered _ d => some d.kept
  | _ => none

theorem exists_of_left? {e : Event} {d : Datagram} (h : left? e = some d) :
    ∃ slot full, e = .datagramDelivered slot full ∧ d = full.kept := by
  cases e with
  | datagramDelivered slot full => exact ⟨slot, full, rfl, (Option.some.inj h).symm⟩
  | _ => cases h

/-- A step has nothing to do with the sockets, or it notes what becomes of one of them. -/
inductive Notes (w w' : World δ) : Prop
  | silent : World.Grows (fun m => m.event.udpSlot? = none) w w' → w'.host.udp = w.host.udp →
      Notes w w'
  | about (slot : Slot) {m : Moment} : w'.journal = m :: w.journal →
      m.event.udpSlot? = some slot.val → (w'.host.udp.get slot).unread = left? m.event →
      (∀ j, slot ≠ j → (w'.host.udp.get j).unread = (w.host.udp.get j).unread) → Notes w w'

/-- Each socket holds what the journal says, as far as there is room for it. -/
def Agrees (w : World δ) : Prop :=
  ∀ slot d, (w.host.udp.get slot).unread = some d ↔
    ∃ n full, Pending w.events slot n full ∧ d = full.kept

section Agrees

variable {w w' : World δ}

theorem Notes.isPrefix (h : Notes w w') : w.events <+: w'.events := by
  cases h with
  | silent hg =>
    obtain ⟨new, hj, -⟩ := hg
    exact ⟨_, (World.events_eq_append hj).symm⟩
  | about _ hj => exact ⟨_, (World.events_eq_concat hj).symm⟩

theorem Notes.agrees (h : Notes w w') (ha : Agrees w) : Agrees w' := by
  intro slot d
  cases h with
  | silent hg hu =>
    obtain ⟨new, hj, hnew⟩ := hg
    have hmore : ∀ e ∈ (new.map Moment.event).reverse, e.udpSlot? ≠ some slot.val := by
      intro e he
      obtain ⟨m, hm, rfl⟩ := List.mem_map.1 (List.mem_reverse.1 he)
      rw [hnew m hm]
      exact nofun
    rw [hu, ha slot d, World.events_eq_append hj]
    simp only [pending_append_of_ne hmore]
  | @about i m hj hm hown hothers =>
    rw [World.events_eq_concat hj]
    by_cases hi : i = slot
    · subst hi
      simp only [hown, pending_concat_self hm]
      constructor
      · intro hd
        obtain ⟨j, full, hfull, hkept⟩ := exists_of_left? hd
        rw [hfull] at hm
        obtain rfl : j = i := Option.some.inj hm
        exact ⟨_, full, ⟨rfl, hfull⟩, hkept⟩
      · rintro ⟨n, full, ⟨-, hfull⟩, rfl⟩
        rw [hfull]
        rfl
    · have hne : ∀ e ∈ [m.event], e.udpSlot? ≠ some slot.val := by
        intro e he
        rw [List.mem_singleton.1 he, hm]
        exact fun hs => hi (Fin.ext (Option.some.inj hs))
      rw [hothers slot hi, ha slot d]
      simp only [pending_append_of_ne hne]

end Agrees

end Udp

variable [Link.Device δ] {w w' : World δ} {op : Operation δ}

open Udp in
theorem Operation.Step.notes (h : op.Step w w') : Udp.Notes w w' := by
  have hown {t : Sockets} {i : Slot} {f : Socket → Socket} :
      ((t.modify i f).get i).unread = (f (t.get i)).unread := by
    rw [Sockets.get_modify, if_pos rfl]
  have hother {t : Sockets} {i : Slot} {f : Socket → Socket} (j : Slot) (hj : i ≠ j) :
      ((t.modify i f).get j).unread = (t.get j).unread := by
    rw [Sockets.get_modify, if_neg hj]
  cases h with
  | update _ _ hu _ => exact .silent (.of_journal_eq rfl) hu
  | record _ _ _ he => exact .silent (.of_journal_eq_cons rfl he) rfl
  | sendArp | dispatch | probe => exact .silent (.of_journal_eq_cons rfl rfl) rfl
  | openUdp => exact .about _ rfl rfl hown hother
  | closeUdp _ _ slot =>
    rw [Udp.close_slot]
    exact .about slot rfl rfl hown hother
  | readDatagram => exact .about _ rfl rfl hown hother
  | deliver _ d =>
    exact .about _ rfl rfl (hown.trans (Socket.unread_put _ d.length_payload_kept)) hother
  | _ => exact .silent (.of_journal_eq rfl) rfl

theorem Operation.Steps.isPrefix (h : op.Steps w w') : w.events <+: w'.events := by
  induction h with
  | refl => exact List.prefix_rfl
  | tail _ hstep ih => exact ih.trans hstep.notes.isPrefix

theorem Operation.Steps.agrees (h : op.Steps w w') (ha : Udp.Agrees w) : Udp.Agrees w' := by
  induction h with
  | refl => exact ha
  | tail _ hstep ih => exact hstep.notes.agrees ih

theorem Reachable.agrees (h : Reachable w) : Udp.Agrees w := by
  induction h with
  | start device clock interface =>
    intro slot d
    rw [World.udp_get_start]
    refine iff_of_false nofun ?_
    rintro ⟨n, full, ⟨hd, -⟩, -⟩
    have hmem := List.mem_of_getElem? hd
    simp [World.events, World.start] at hmem
  | step op hw hr ih => exact (hr.works hw.safe).steps.agrees ih

namespace Udp

variable {p : Poller δ}

theorem handleFrame_of_brings {frame : Bytes} {port : UInt16} {d : Datagram} {slot : Slot}
    (h : Brings w.host frame port d) (hs : IsLeast (w.host.udp.openOn port) slot) :
    ∃ w', Net.handleFrame p frame w = .ok ((), w') ∧ Leaves w slot d w' := by
  obtain ⟨link, hlink, htype, packet, header, hadmits, hprotocol, hwhole, rfl, rfl⟩ := h
  refine ⟨_, ?_, leaves_deliver w slot _⟩
  rw [Net.handleFrame_ipv4 hlink htype, Ipv4.handle_of_admits hadmits,
    Ipv4.Protocol.ofNumber?_eq_some_iff.2 hprotocol]
  show handle _ _ w = _
  rw [handle_of_whole hwhole, Sockets.listener?_eq_some_iff.2 hs]

/-- What a receive returns was with its socket after the wait, and is taken out then. -/
theorem receive_takes (hp : p.Evolving) (handle capacity : Nat) (timeout : UInt64) (hw : w.Safe) :
    Attempt.Ensures (receive p handle capacity timeout) w fun r w' =>
      (∀ d, r = .ok d → ∃ (slot : Slot) (w₁ : World δ) (kept : Datagram),
        slot.val = handle ∧ Evolves w w₁ ∧ (w₁.host.udp.get slot).unread = some kept ∧
          w' = take slot w₁ ∧ d = { kept with payload := kept.payload.take capacity }) ∧
      (r = .error .timeout → ∃ slot : Slot,
        slot.val = handle ∧ Evolves w w' ∧ (w'.host.udp.get slot).hasData = false) := by
  rw [receive, Udp.slot]
  simp only [Attempt.ensures_bind, Attempt.ensures_get, Attempt.ensures_ofExcept]
  cases hs : w.host.udp.slot handle with
  | error e =>
    obtain rfl := Slots.eq_badHandle_of_ofHandle hs
    simp
  | ok _ =>
    simp only [Attempt.ensures_lift]
    refine (Net.waitUntil_ensures hp _ _ hw.valid).mono fun met w₁ h₁ => ?_
    obtain ⟨h₁, hmet⟩ := h₁
    cases met with
    | false =>
      -- The wait was in vain, so the socket is there and has nothing.
      refine ⟨by simp, fun _ => ?_⟩
      unfold ready at hmet
      cases hs₁ : w₁.host.udp.slot handle with
      | error e => simp [hs₁] at hmet
      | ok slot =>
        rw [hs₁] at hmet
        exact ⟨slot, (Slots.of_ofHandle_eq_ok hs₁).1, h₁, hmet.symm⟩
    | true =>
      simp only [if_true, Attempt.ensures_bind, Attempt.ensures_get, Attempt.ensures_ofExcept]
      cases hs₁ : w₁.host.udp.slot handle with
      | error e =>
        obtain rfl := Slots.eq_badHandle_of_ofHandle hs₁
        simp
      | ok slot =>
        have hdata := Sockets.hasData_of_ready hs₁ hmet.symm
        refine (read_ensures ((h₁.safe hw).tidy slot).length_le capacity).2
          ⟨fun d hd => ?_, by simp⟩
        obtain rfl := Except.ok.inj hd
        exact ⟨slot, w₁, _, (Slots.of_ofHandle_eq_ok hs₁).1, h₁,
          Socket.unread_eq_some_iff.2 ⟨hdata, rfl⟩, rfl, rfl⟩

end Udp

open Udp

/-- A socket holds the latest datagram that has come for it, unless that was taken out or given up. -/
theorem mailboxes_hold_latest (h : Reachable w) :
    (∀ (v : World δ) (p : Poller δ) (frame : Bytes) (port : UInt16) (d : Datagram) (slot : Slot),
      Brings v.host frame port d → IsLeast (v.host.udp.openOn port) slot →
        ∃ v', Net.handleFrame p frame v = .ok ((), v') ∧ Leaves v slot d v' ∧
          (v'.host.udp.get slot).unread = some ⟨d.source, d.sourcePort, d.payload.take 512⟩) ∧
      (∀ (op : Operation δ) (w' : World δ), op.Runs w w' → w.events <+: w'.events) ∧
      (∀ slot d, (w.host.udp.get slot).unread = some d ↔ ∃ n full,
        Pending w.events slot n full ∧
          d = ⟨full.source, full.sourcePort, full.payload.take 512⟩) ∧
      ∀ (fuel handle capacity : Nat) (timeout : UInt64) (r : Except NetError Datagram)
        (w' : World δ),
        (receive (Poller.ofFuel fuel) handle capacity timeout).run w = .ok (r, w') →
        (∀ d, r = .ok d → ∃ (slot : Slot) (before : List Event) (n : Nat) (full : Datagram),
          slot.val = handle ∧ w.events <+: before ∧ w'.events = before ++ [.datagramTaken slot] ∧
            Pending before slot n full ∧
            d = ⟨full.source, full.sourcePort, full.payload.take (min 512 capacity)⟩ ∧
            ∀ rest d', ¬Pending (w'.events ++ rest) slot n d') ∧
        (r = .error .timeout → ∃ slot : Slot, slot.val = handle ∧
          (w'.host.udp.get slot).hasData = false ∧ ∀ n d, ¬Pending w'.events slot n d) := by
  refine ⟨fun v p frame port d slot hb hs => ?_, fun op w' hr => ?_, h.agrees,
    fun fuel handle capacity timeout r w' hrun => ?_⟩
  · obtain ⟨v', hv, hleaves⟩ := handleFrame_of_brings hb hs
    exact ⟨v', hv, hleaves, hleaves.unread_eq⟩
  · exact (hr.works h.safe).steps.isPrefix
  have hsteps {w' : World δ} (he : Evolves w w') : (Operation.poll).Steps w w' := he.steps
  have htakes := receive_takes (Poller.evolving_ofFuel fuel) handle capacity timeout h.safe
  obtain ⟨hok, htimeout⟩ := htakes.of_ok hrun
  constructor
  · intro d hd
    obtain ⟨slot, w₁, kept, hslot, hevolves, hunread, rfl, rfl⟩ := hok d hd
    obtain ⟨n, full, hpending, rfl⟩ := ((hsteps hevolves).agrees h.agrees slot kept).1 hunread
    have hjournal : (take slot w₁).journal = ⟨.datagramTaken slot, w₁.host⟩ :: w₁.journal := rfl
    have hevents : (take slot w₁).events = w₁.events ++ [.datagramTaken slot] :=
      World.events_eq_concat hjournal
    refine ⟨slot, w₁.events, n, full, hslot, (hsteps hevolves).isPrefix, hevents, hpending, ?_,
      fun rest d' => ?_⟩
    · rw [Datagram.kept, List.take_take, Nat.min_comm]
      rfl
    · rw [hevents]
      exact hpending.not_append rfl rest d'
  · intro hr
    obtain ⟨slot, hslot, hevolves, hnone⟩ := htimeout hr
    refine ⟨slot, hslot, hnone, fun n d hpending => ?_⟩
    have hsome := ((hsteps hevolves).agrees h.agrees slot d.kept).2 ⟨n, d, hpending, rfl⟩
    rw [Socket.unread_eq_none_iff.2 hnone] at hsome
    cases hsome

def Udp.overwritten : World Link.Script :=
  listening.after 4 [.handleFrame (letter 7 [104, 105]), .handleFrame (letter 7 [106, 107])]

theorem mailboxes_hold_latest_overwritten : ∃ w' : World Link.Script,
    Reachable overwritten ∧
      (receive (Poller.ofFuel 1) 0 1 0).run overwritten =
        .ok (.ok ⟨Tcp.peer.ip, 5000, [106]⟩, w') ∧
      ∃ (slot : Slot) (before : List Event) (n : Nat) (full : Datagram),
        slot.val = 0 ∧ overwritten.events <+: before ∧
          w'.events = before ++ [.datagramTaken slot] ∧ Pending before slot n full ∧
          (⟨Tcp.peer.ip, 5000, [106]⟩ : Datagram) =
            ⟨full.source, full.sourcePort, full.payload.take (min 512 1)⟩ ∧
          ∀ rest d', ¬Pending (w'.events ++ rest) slot n d' := by
  have hw : Reachable overwritten := .after (.after (.start ..) 4 _) 4 _
  have hopen : (overwritten.host.udp.get 0).inUse = true := by decide +kernel
  have hunread : (overwritten.host.udp.get 0).unread =
      some ⟨Tcp.peer.ip, 5000, [106, 107]⟩ := by decide +kernel
  have hrun := receive_of_unread (p := Poller.ofFuel 1) Nat.one_pos hopen
    (hw.safe.tidy 0).length_le hunread 1 0
  exact ⟨_, hw, hrun, ((mailboxes_hold_latest hw).2.2.2 1 0 1 0 _ _ hrun).1 _ rfl⟩

end InetHost
