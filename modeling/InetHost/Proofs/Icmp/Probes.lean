import InetHost.Proofs.Host.Acts

/-! What becomes of the answer to an echo request. The host keeps the latest echo reply alone, and looks at
it again only when a poll is over; so an answer is missed if it is not the last reply that its poll reads. -/

namespace InetHost

open Net

def Event.echoed? : Event → Option UInt16
  | echoReplied _ sequence => some sequence
  | _ => none

theorem Event.echoed?_eq_none {e : Event} (h : e.isNews = false) : e.echoed? = none := by
  cases e with
  | echoReplied => cases h
  | _ => rfl

variable {δ : Type} {w w₁ w₂ w' : World δ}

namespace World

def echoes (w : World δ) : List UInt16 := w.events.filterMap Event.echoed?

def echo? (w : World δ) : Option UInt16 := w.host.lastReply.map Icmp.Reply.sequence

/-- Of the echo replies that are read between two worlds the host keeps the last one. -/
def Retains (w w' : World δ) : Prop :=
  ∃ heard, w'.echoes = w.echoes ++ heard ∧ w'.echo? = heard.getLast?.or w.echo?

namespace Retains

theorem of_journal_eq (hr : w'.host.lastReply = w.host.lastReply) (hj : w'.journal = w.journal) :
    w.Retains w' := by
  refine ⟨[], ?_, ?_⟩
  · rw [echoes, events, hj, List.append_nil]
    rfl
  · exact congrArg (Option.map _) hr

theorem of_journal_eq_cons {m : Moment} (hr : w'.host.lastReply = w.host.lastReply)
    (hj : w'.journal = m :: w.journal) (hm : m.event.echoed? = none) : w.Retains w' := by
  refine ⟨[], ?_, congrArg (Option.map _) hr⟩
  rw [echoes, filterMap_events_of_journal_eq_cons _ hj, hm]
  rfl

theorem refl (w : World δ) : w.Retains w := of_journal_eq rfl rfl

theorem trans (h : w.Retains w₁) (h' : w₁.Retains w') : w.Retains w' := by
  obtain ⟨heard, hs, hr⟩ := h
  obtain ⟨later, hs', hr'⟩ := h'
  refine ⟨heard ++ later, ?_, ?_⟩
  · rw [hs', hs, List.append_assoc]
  · rw [hr', hr, List.getLast?_append, Option.or_assoc]

end Retains

variable [Link.Device δ]

theorem Act.retains (h : w.Act w') : w.Retains w' := by
  cases h with
  | note capacity packet =>
    have hj : (Arp.note packet (w.takeFrame capacity).2).journal =
      ⟨.arpLearned packet.senderIp packet.senderMac,
        (Arp.note packet (w.takeFrame capacity).2).host⟩ :: w.journal := rfl
    exact .of_journal_eq_cons rfl hj rfl
  | noteReply header sent source =>
    refine ⟨[header.sequence], ?_, ?_⟩
    · exact filterMap_events_of_journal_eq_cons _ (Icmp.journal_noteReply header sent source w)
    · rw [echo?, Icmp.host_noteReply]
      rfl
  | record he => exact .of_journal_eq_cons rfl rfl (Event.echoed?_eq_none he)
  | sendArp dest source packet =>
    obtain ⟨failure, hj⟩ := journal_handOver (Arp.wire dest source packet) w
    exact .of_journal_eq_cons rfl hj rfl
  | @answer mac dest protocol payload =>
    obtain ⟨failure, hj⟩ := journal_dispatch mac dest protocol payload w
    exact .of_journal_eq_cons rfl hj rfl
  | _ => exact .of_journal_eq rfl rfl

theorem Acts.retains (h : w.Acts w') : w.Retains w' := by
  induction h with
  | refl => exact .refl w
  | tail _ hact ih => exact ih.trans hact.retains

end World

theorem Ipv4.nextHopMac_known [Link.Device δ] {p : Poller δ} {mac : Mac} {dest : Address}
    (h : w.hop? dest = some mac) : (nextHopMac p dest).run w = .ok (.ok mac, w) :=
  Attempt.run_eq_of_ensures fun _ => (Attempt.ensures_adapt _).trans (Arp.resolve_known h)

namespace Icmp

variable {poll : Net δ Nat} {deadline : UInt64} {sequence : UInt16} {polls : List (List UInt16)}

def answered (sequence : UInt16) (h : Host) : Bool := h.lastReply.any fun r => r.sequence = sequence

theorem answered_iff : answered sequence w.host = true ↔ w.echo? = some sequence := by
  simp [answered, World.echo?, Option.any_eq_true, Option.map_eq_some_iff]

/-- The turns of a wait, with the sequence numbers of the replies read in the poll of each. -/
inductive Polled (poll : Net δ Nat) (deadline : UInt64) (sequence : UInt16) (w : World δ) :
    List (List UInt16) → World δ → Prop
  | start : Polled poll deadline sequence w [] w
  | turn {polls : List (List UInt16)} {heard : List UInt16} {w₁ w₂ : World δ} :
      Polled poll deadline sequence w polls w₁ → Turn poll deadline (answered sequence) w₁ w₂ →
      w₂.echoes = w₁.echoes ++ heard → Polled poll deadline sequence w (polls ++ [heard]) w₂

def Answers (sequence : UInt16) (polls : List (List UInt16)) : Prop :=
  ∃ heard ∈ polls, heard.getLast? = some sequence

theorem answers_concat_iff {heard : List UInt16} (h : ¬ Answers sequence polls) :
    Answers sequence (polls ++ [heard]) ↔ heard.getLast? = some sequence := by
  rw [Answers]
  simp only [List.mem_append, List.mem_singleton, or_and_right, exists_or, exists_eq_left]
  exact or_iff_right h

variable [Link.Device δ]

theorem exists_polled_of_turns (hp : Acting poll)
    (h : Turns poll deadline (answered sequence) w w') :
    ∃ polls, Polled poll deadline sequence w polls w' := by
  induction h with
  | refl => exact ⟨[], .start⟩
  | tail _ hturn ih =>
    obtain ⟨polls, hpolled⟩ := ih
    obtain ⟨count, hpoll⟩ := hturn.polled
    obtain ⟨heard, hheard, -⟩ := (hp hpoll).retains
    exact ⟨polls ++ [heard], hpolled.turn hturn hheard⟩

theorem Polled.echo?_iff (hp : Acting poll) (h : Polled poll deadline sequence w polls w')
    (hn : w.echo? ≠ some sequence) : w'.echo? = some sequence ↔ Answers sequence polls := by
  induction h with
  | start => exact iff_of_false hn (by simp [Answers])
  | @turn polls heard w₁ w₂ _ hturn hheard ih =>
    obtain ⟨count, hpoll⟩ := hturn.polled
    obtain ⟨heard', hheard', hlast⟩ := (hp hpoll).retains
    obtain rfl : heard = heard' := List.append_cancel_left (hheard.symm.trans hheard')
    have hwaiting : w₁.echo? ≠ some sequence := fun hs => by
      simpa [hturn.waiting] using answered_iff.2 hs
    have hkept : w₁.readClock.2.echo? = w₁.echo? := rfl
    rw [answers_concat_iff (mt ih.2 hwaiting), hlast, hkept]
    cases heard.getLast? with
    | none => exact iff_of_false hwaiting nofun
    | some last => exact Iff.rfl

def asked (mac : Mac) (dest : Ipv4.Address) (sequence : UInt16) (w : World δ) :
    Except NetError Unit × World δ :=
  (w.readClock.2.update fun h => { h with lastReply := none }).handOver
    (Ipv4.wire w.host.interface mac dest .icmp (sequence % 256)
      (echoRequest sequence w.readClock.1.toUInt32))

def await (p : Poller δ) (sequence : UInt16) : Attempt δ UInt32 := do
  let _ ← waitUntil p Timeouts.ping (answered sequence)
  match (← get).host.lastReply.filter fun r => r.sequence = sequence with
  | some reply => return reply.rtt
  | none => throw .timeout

variable {p : Poller δ} {mac : Mac} {dest : Ipv4.Address}

theorem run_ping_of_found {result : Except NetError Unit}
    (hfound : (Ipv4.nextHopMac p dest).run w = .ok (.ok mac, w₁))
    (hsent : asked mac dest sequence w₁ = (result, w₂)) :
    (ping p dest sequence).run w =
      match result with
      | .ok _ => (await p sequence).run w₂
      | .error cause => .ok (.error cause, w₂) := by
  have htime : (modifyGet World.readClock : Attempt δ UInt64).run w₁ =
    .ok (.ok w₁.readClock.1, w₁.readClock.2) := rfl
  have hforget (w : World δ) :
      (modify (World.update fun h => { h with lastReply := none }) : Attempt δ PUnit).run w =
        .ok (.ok ⟨⟩, w.update fun h => { h with lastReply := none }) := rfl
  have htransmit : (Ipv4.transmit mac dest .icmp (sequence % 256)
      (echoRequest sequence w₁.readClock.1.toUInt32)).run
        (w₁.readClock.2.update fun h => { h with lastReply := none }) = .ok (result, w₂) := by
    rw [← hsent]
    exact Attempt.run_eq_of_ensures fun Q =>
      Ipv4.transmit_ensures mac dest .icmp _ (Nat.le_of_ble_eq_true rfl)
  rw [ping, Attempt.run_bind_of_eq_ok hfound, Attempt.run_bind_of_eq_ok htime,
    Attempt.run_bind_of_eq_ok (hforget _), ExceptT.run_bind, bind_of_eq_ok htransmit]
  cases result with
  | ok _ => rfl
  | error cause => rfl

theorem run_ping (hfound : (Ipv4.nextHopMac p dest).run w = .ok (.ok mac, w₁))
    (hsent : asked mac dest sequence w₁ = (.ok (), w₂)) :
    (ping p dest sequence).run w = (await p sequence).run w₂ :=
  run_ping_of_found hfound hsent

/-- How a probe ends by what was read while the host waited. -/
structure Outcome (sequence : UInt16) (polls : List (List UInt16)) (h : Host)
    (result : Except NetError UInt32) : Prop where
  ok_iff : (∃ rtt, result = .ok rtt) ↔ Answers sequence polls
  timeout_iff : result = .error .timeout ↔ ¬ Answers sequence polls
  lastReply_eq : ∀ rtt, result = .ok rtt → h.lastReply = some ⟨sequence, rtt⟩

theorem await_ensures (hp : p.Evolving) (ha : Acting p.poll) (hv : w.Valid)
    (hn : w.host.lastReply = none) :
    Attempt.Ensures (await p sequence) w fun result w' => ∃ polls w₁,
      Polled p.poll (Clock.deadline w.clock.now Timeouts.ping) sequence w.readClock.2 polls w₁ ∧
      w'.host = w₁.host ∧ Outcome sequence polls w'.host result := by
  have hfresh : w.readClock.2.echo? ≠ some sequence := by
    have hnone : w.readClock.2.echo? = none := congrArg (Option.map _) hn
    simp [hnone]
  simp only [await, Attempt.ensures_bind, Attempt.ensures_lift, Attempt.ensures_get]
  refine (waitUntil_ensures hp Timeouts.ping _ hv).and_run.mono fun met w₁ h => ?_
  obtain ⟨w₂, hturns, hends⟩ := exists_turns_of_waitUntil h.1
  obtain ⟨polls, hpolled⟩ := exists_polled_of_turns ha hturns
  have hsame : w₁.host = w₂.host := by cases hends <;> rfl
  have hanswers : w₁.host.lastReply.map Reply.sequence = some sequence ↔ Answers sequence polls := by
    rw [hsame]
    exact hpolled.echo?_iff ha hfresh
  cases hr : w₁.host.lastReply.filter fun r => r.sequence = sequence with
  | none =>
    have hnot : ¬ Answers sequence polls := by
      rw [← hanswers]
      simpa [Option.filter_eq_none_iff] using hr
    refine ⟨polls, w₂, hpolled, hsame, by simp [hnot], by simp [hnot], ?_⟩
    rintro rtt ⟨⟩
  | some reply =>
    obtain ⟨hlast, hsequence⟩ := Option.filter_eq_some_iff.1 hr
    have hsequence : reply.sequence = sequence := of_decide_eq_true hsequence
    have hyes : Answers sequence polls := hanswers.1 (by rw [hlast, Option.map_some, hsequence])
    refine ⟨polls, w₂, hpolled, hsame, by simp [hyes], by simp [hyes], ?_⟩
    rintro rtt ⟨⟩
    rw [hlast, ← hsequence]

def peerReply (sequence : UInt16) : Bytes :=
  let message (checksum : UInt16) : Bytes :=
    Header.encode ⟨MessageType.echoReply.number, 0, checksum, identifier, sequence⟩
  Ipv4.wire Tcp.peer Interface.default.mac Interface.default.ip .icmp 0
    (message (Checksum.ofBytes (message 0)))

def echoing (sequences : List UInt16) : World Link.Script :=
  (World.start ⟨[], 0, [], [(0, sequences.map fun s => .frame (peerReply s))]⟩ ⟨0, 500, []⟩
    Interface.default).after 4 [.arpLearn Tcp.peer.ip Tcp.peer.mac]

def probed (sequences : List UInt16) : Except Halt (Except NetError UInt32 × List UInt16) :=
  ((ping (Poller.ofFuel 9) Tcp.peer.ip 1).run (echoing sequences)).map fun r => (r.1, r.2.echoes)

end Icmp

open Icmp in
/-- A probe is answered exactly if after one of the polls of its wait the last echo reply is the answer. -/
theorem probe_answered_iff [Link.Device δ] (hw : Reachable w) (dest : Ipv4.Address)
    (sequence : UInt16) :
    (∀ fuel fault, (ping (Poller.ofFuel fuel) dest sequence).run w ≠ .error (.fault fault)) ∧
    (∀ limit < 2 ^ 28, Link.DeliversAtMost limit w.device → w.clock.Steady (2 ^ 28) →
      w.clock.now.toNat ≤ 2 ^ 63 → ∃ least, ∀ fuel ≥ least, ∃ result w',
        (ping (Poller.ofFuel fuel) dest sequence).run w = .ok (result, w')) ∧
    ∀ fuel mac w₁ w₂, (Ipv4.nextHopMac (Poller.ofFuel fuel) dest).run w = .ok (.ok mac, w₁) →
      asked mac dest sequence w₁ = (.ok (), w₂) →
      ∀ result w', (ping (Poller.ofFuel fuel) dest sequence).run w = .ok (result, w') →
        ∃ polls w₃, Polled (Poller.ofFuel fuel).poll
            (Clock.deadline w₂.clock.now Timeouts.ping) sequence w₂.readClock.2 polls w₃ ∧
          w'.host = w₃.host ∧ Outcome sequence polls w'.host result := by
  refine ⟨fun fuel fault => ?_, ?_, ?_⟩
  · have hprobing : (Operation.ping dest sequence : Operation δ).probing = true := rfl
    exact (ping_ensures (Poller.evolving_ofFuel fuel) hprobing dest sequence hw.valid).ne_fault fault
  · exact Attempt.ends_of_perform hw (.ping dest sequence) trivial fun _ => rfl
  · intro fuel mac w₁ w₂ hfound hsent result w' hr
    have hp : (Poller.ofFuel fuel : Poller δ).Evolving := Poller.evolving_ofFuel fuel
    have hv : w₁.Valid := by
      have hway : Attempt.Ensures (Ipv4.nextHopMac (Poller.ofFuel fuel) dest) w
          fun _ w₁ => Evolves w w₁ := Attempt.ensures_adapt _ |>.2 <|
        (Arp.resolve_ensures hp dest Timeouts.resolve hw.valid).mono fun _ _ h => h.1
      exact (Net.Ensures.of_ok hway hfound).valid hw.valid
    have hsame : w₂ = (asked mac dest sequence w₁).2 := (congrArg Prod.snd hsent).symm
    have hv₂ : w₂.Valid := hsame ▸ hv
    have hn : w₂.host.lastReply = none := by rw [hsame]; rfl
    rw [run_ping hfound hsent] at hr
    exact Net.Ensures.of_ok
      (await_ensures (p := Poller.ofFuel fuel) hp (poll_acting fuel) hv₂ hn) hr

open Icmp in
theorem probe_answered_iff_late_first : Reachable (echoing [2, 1]) ∧
    (Ipv4.nextHopMac (Poller.ofFuel 9) Tcp.peer.ip).run (echoing [2, 1]) =
      .ok (.ok Tcp.peer.mac, echoing [2, 1]) ∧
    ∃ w₂ w', asked Tcp.peer.mac Tcp.peer.ip 1 (echoing [2, 1]) = (.ok (), w₂) ∧
      (ping (Poller.ofFuel 9) Tcp.peer.ip 1).run (echoing [2, 1]) = .ok (.ok 0, w') ∧
      ∃ polls w₃, Polled (Poller.ofFuel 9).poll
          (Clock.deadline w₂.clock.now Timeouts.ping) 1 w₂.readClock.2 polls w₃ ∧
        Answers 1 polls ∧ w'.host.lastReply = some ⟨1, 0⟩ := by
  have hw : Reachable (echoing [2, 1]) := .after (.start ..) 4 _
  have hop : (echoing [2, 1]).hop? Tcp.peer.ip = some Tcp.peer.mac := by decide +kernel
  have hfound := Ipv4.nextHopMac_known (p := Poller.ofFuel 9) hop
  have hsent : (asked Tcp.peer.mac Tcp.peer.ip 1 (echoing [2, 1])).1 = .ok () := by decide +kernel
  have hprobed : probed [2, 1] = .ok (.ok 0, [2, 1]) := by decide +kernel
  obtain ⟨_, w', hr, htold⟩ := Net.exists_of_map_eq_ok hprobed
  obtain ⟨rfl, -⟩ := Prod.mk.inj htold
  obtain ⟨polls, w₃, hpolled, -, houtcome⟩ :=
    (probe_answered_iff hw Tcp.peer.ip 1).2.2 9 _ _ _ hfound (Prod.ext hsent rfl) _ w' hr
  exact ⟨hw, hfound, _, w', Prod.ext hsent rfl, hr, polls, w₃, hpolled,
    houtcome.ok_iff.1 ⟨0, rfl⟩, houtcome.lastReply_eq 0 rfl⟩

open Icmp in
/-- Behind the answer a late one takes its place before the host looks. -/
theorem answer_overwritten : Reachable (echoing [1, 2]) ∧
    (echoing [1, 2]).hop? Tcp.peer.ip = some Tcp.peer.mac ∧
    (asked Tcp.peer.mac Tcp.peer.ip 1 (echoing [1, 2])).1 = .ok () ∧
    (asked Tcp.peer.mac Tcp.peer.ip 1 (echoing [1, 2])).2.echoes = [] ∧
    probed [1, 2] = .ok (.error .timeout, [1, 2]) := by
  refine ⟨.after (.start ..) 4 _, ?_, ?_, ?_, ?_⟩
  · decide +kernel
  · decide +kernel
  · decide +kernel
  · decide +kernel

end InetHost
