import InetHost.Proofs.Host.Termination
import InetHost.Proofs.Tcp.Tuples

/-! How an attempt to connect ends. Frames may be read before the request goes out and while the host
waits for the answer, and whatever they are, the socket is in one of four states after them. Whether it
bears the mark of a reset then tells whether one was handled for it, since nothing but a reset sets the
mark and nothing but the next attempt takes it away. -/

namespace InetHost

open Tcp

variable {δ : Type} {w w' w₁ w₂ w₃ : World δ} {slot : Slot} {ip : Ipv4.Address} {port : UInt16}

abbrev Tcp.Spared (slot : Slot) (w w' : World δ) : Prop :=
  World.Grows (fun m => ∀ source, m.event ≠ .connectionReset slot source) w w'

/-- A reset is handled that finds the connection alive. -/
def Tcp.ResetBetween (slot : Slot) (w w' : World δ) : Prop :=
  ∃ new, w'.journal = new ++ w.journal ∧
    ∃ m ∈ new, ∃ source, m.event = .connectionReset slot source

def Tcp.Marked (slot : Slot) (w w' : World δ) : Prop :=
  ∃ new, w'.journal = new ++ w.journal ∧
    ((socketAt slot w').reset = true ↔ (socketAt slot w).reset = true ∨
      ∃ m ∈ new, ∃ source, m.event = .connectionReset slot source)

namespace Tcp.Marked

theorem of_spared (h : Spared slot w w') (hs : (socketAt slot w').reset = (socketAt slot w).reset) :
    Marked slot w w' := by
  obtain ⟨new, hj, hn⟩ := h
  refine ⟨new, hj, ?_⟩
  rw [hs]
  constructor
  · exact .inl
  · rintro (hr | ⟨m, hm, source, he⟩)
    · exact hr
    · exact absurd he (hn m hm source)

theorem refl (w : World δ) : Marked slot w w := of_spared (.refl w) rfl

theorem trans (h : Marked slot w₁ w₂) (h' : Marked slot w₂ w₃) : Marked slot w₁ w₃ := by
  obtain ⟨new, hj, hr⟩ := h
  obtain ⟨new', hj', hr'⟩ := h'
  refine ⟨new' ++ new, ?_, ?_⟩
  · rw [hj', hj, List.append_assoc]
  · rw [hr', hr]
    simp only [List.mem_append, or_and_right, exists_or, or_assoc]
    exact or_congr Iff.rfl or_comm

theorem update {i : Slot} {f : Socket → Socket}
    (hf : (f (socketAt i w)).reset = (socketAt i w).reset) : Marked slot w (updateSocket i f w) :=
  of_spared (World.Grows.refl w).update (updateSocket_congr Socket.reset hf slot)

theorem setState {i : Slot} {next : State} : Marked slot w (setState i next w) :=
  of_spared ((World.Grows.refl w).setState (by simp)) (setState_congr Socket.reset (by rfl) slot)

theorem handleReset (i : Slot) (source : Ipv4.Address) :
    Marked slot w (handleReset i (socketAt i w).state source w) := by
  by_cases h : (socketAt i w).state = .listen ∨ (socketAt i w).state = .closed
  · rw [handleReset_of_dead h]
    exact refl w
  · obtain ⟨hl, hc⟩ := not_or.1 h
    obtain ⟨host, hj⟩ := journal_handleReset_of_alive hl hc source
    refine ⟨[_, _], hj, ?_⟩
    rw [socketAt_handleReset_of_alive hl hc]
    by_cases hi : i = slot
    · subst hi
      simp
    · simp [hi, Fin.val_inj]

theorem reset_iff (h : Marked slot w₁ w') (hs : Spared slot w w₁)
    (hr : (socketAt slot w₁).reset = false) :
    (socketAt slot w').reset = true ↔ ResetBetween slot w w' := by
  obtain ⟨new, hj, hn⟩ := hs
  obtain ⟨new', hj', hm⟩ := h
  have hall : w'.journal = (new' ++ new) ++ w.journal := by rw [hj', hj, List.append_assoc]
  rw [hm, hr]
  constructor
  · rintro (hf | ⟨m, hm, hreset⟩)
    · cases hf
    · exact ⟨new' ++ new, hall, m, List.mem_append_left _ hm, hreset⟩
  · rintro ⟨between, hb, m, hm, source, he⟩
    obtain rfl := List.append_cancel_right (hall.symm.trans hb)
    rcases List.mem_append.1 hm with hm | hm
    · exact .inr ⟨m, hm, source, he⟩
    · exact absurd he (hn m hm source)

end Tcp.Marked

theorem Tcp.Reaction.marked {i : Slot} {header : Header} {message : Bytes} {source : Ipv4.Address}
    (h : Reaction i header message source w w') : Marked slot w w' := by
  have hack : Marked slot w (setAck i (header.seq + 1) w) := .update rfl
  cases h with
  | reset _ => exact .handleReset i source
  | confirm | closeWait => exact hack.trans .setState
  | complete | finAcked => exact .setState
  | data =>
    have hnoted {kept : Bytes} : Spared slot w (w.record (.dataKept i source message kept)) :=
      (World.Grows.refl w).record (by simp)
    refine .of_spared (hnoted.keepData (by simp)) ?_
    rw [socketAt_keepData]
    split
    · rename_i hi
      rw [hi]
      rfl
    · rfl
  | release => exact Marked.setState.trans (.update rfl)

section Evolving

variable [Link.Device δ]

theorem Chore.spared (h : Chore w w') : Spared slot w w' := by
  refine h.grows.mono fun m hm source he => ?_
  rw [he] at hm
  cases hm

theorem Evolves.marked (h : Evolves w w') : Marked slot w w' := by
  induction h with
  | refl w => exact .refl w
  | trans _ _ ih₁ ih₂ => exact ih₁.trans ih₂
  | chore h => exact .of_spared h.spared (by rw [h.socketAt_eq])
  | react _ h => exact h.marked
  | segment _ _ _ _ _ _ _ ih =>
    exact ih.trans (.of_spared (.of_journal_eq_cons rfl (by simp)) rfl)
  | @accept w w₁ message source header i _ _ _ _ _ ih =>
    have hpromote : Marked slot w (promote i header source w) := Marked.trans (.update rfl) .setState
    exact (hpromote.trans ih).trans (.update rfl)
  | @finish w w₁ header i _ _ _ _ ih =>
    have hack : Marked slot w (setAck i (header.seq + 1) w) := .update rfl
    exact (hack.trans ih).trans .setState

end Evolving

theorem Tcp.ephemeralPort_ne_zero (seq : UInt32) : ephemeralPort seq ≠ 0 := by
  intro h
  have hmod : seq.toNat % ephemeralRange < 16384 := Nat.mod_lt _ (by decide)
  have hnat := congrArg UInt16.toNat h
  have hbase : ephemeralBase.toNat = 49152 := rfl
  rw [ephemeralPort, UInt16.toNat_add, UInt16.toNat_ofNat', hbase] at hnat
  change _ = 0 at hnat
  omega

structure Tcp.Socket.LeadsTo (s : Socket) (ip : Ipv4.Address) (port : UInt16) : Prop where
  state : s.state = .established ∨ s.state = .closeWait
  remoteIp : s.remoteIp = ip
  remotePort : s.remotePort = port
  localPort_ne : s.localPort ≠ 0

/-- How an attempt to connect ends, by what has become of its request. -/
inductive Tcp.Concludes (slot : Slot) (ip : Ipv4.Address) (port : UInt16) (w : World δ) :
    (sent : Except NetError Unit) → (result : Except NetError Unit) → World δ → Prop
  | unsent {w' : World δ} {cause : NetError} :
      (socketAt slot w').state = .closed →
      (socketAt slot w').seq = (socketAt slot w).seq →
      Concludes slot ip port w (.error cause) (.error cause) w'
  | connected {w' : World δ} :
      (socketAt slot w').LeadsTo ip port → ¬ResetBetween slot w w' →
      (socketAt slot w').seq = (socketAt slot w).seq + 1 →
      Concludes slot ip port w (.ok ()) (.ok ()) w'
  | reset {w' : World δ} :
      (socketAt slot w').state = .closed → ResetBetween slot w w' →
      (socketAt slot w').seq = (socketAt slot w).seq + 1 →
      Concludes slot ip port w (.ok ()) (.error .connectionReset) w'
  | timedOut {w' : World δ} :
      (socketAt slot w').state = .closed → ¬ResetBetween slot w w' →
      (socketAt slot w').seq = (socketAt slot w).seq + 1 →
      Concludes slot ip port w (.ok ()) (.error .timeout) w'

variable [Link.Device δ] {p : Poller δ}

section Dialed

variable (h₁ : Evolves (dial slot ip port w) w₁)

include h₁

theorem Tcp.origin_of_dial :
    (socketAt slot w₁).origin = (socketAt slot (dial slot ip port w)).origin :=
  h₁.origin_eq (by simp [socketAt_dial])

theorem Tcp.seq_of_dial : (socketAt slot w₁).seq = (socketAt slot w).seq := by
  have hseq : (socketAt slot w₁).seq = (socketAt slot (dial slot ip port w)).seq :=
    congrArg Prod.snd (origin_of_dial h₁)
  rw [hseq, socketAt_dial, if_pos rfl]

variable (h₂ : Evolves (advanceSeq slot 1 w₁) w₂)

include h₂

theorem Tcp.seq_of_dial_of_advanceSeq : (socketAt slot w₂).seq = (socketAt slot w).seq + 1 := by
  have hn : (socketAt slot (advanceSeq slot 1 w₁)).state ≠ .listen := by
    rw [Socket.state_congr (standing_advanceSeq slot 1 w₁ slot)]
    exact h₁.not_listen (by simp [socketAt_dial])
  have hseq : (socketAt slot w₂).seq = (socketAt slot (advanceSeq slot 1 w₁)).seq :=
    congrArg Prod.snd (h₂.origin_eq hn)
  rw [hseq, socketAt_advanceSeq, if_pos rfl, seq_of_dial h₁]

theorem Tcp.Marked.of_dial : Marked slot (dial slot ip port w) w₂ :=
  (h₁.marked.trans (.update rfl)).trans h₂.marked

theorem Tcp.leadsTo_of_dial (hu : (socketAt slot w).inUse = true)
    (he : (socketAt slot w₂).state = .established ∨ (socketAt slot w₂).state = .closeWait) :
    (socketAt slot w₂).LeadsTo ip port := by
  have htuple := Operation.tuple_of_connected hu h₁ h₂
  rw [socketAt_dial, if_pos rfl] at htuple
  obtain ⟨hlocal, hremote⟩ := Prod.mk.inj htuple
  obtain ⟨hip, hport⟩ := Prod.mk.inj hremote
  refine ⟨he, hip, hport, ?_⟩
  rw [hlocal]
  dsimp only
  split
  · exact ephemeralPort_ne_zero _
  · assumption

end Dialed

omit [Link.Device δ] in
theorem Tcp.spared_dial : Spared slot w (dial slot ip port w) :=
  (World.Grows.refl w).update.setState (by simp)

theorem Tcp.Connects.concludes {result : Except NetError Unit}
    (h : Connects p slot ip port w result w') (hu : (socketAt slot w).inUse = true)
    (hc : (socketAt slot w).state = .closed) :
    ∃ sent, Requests p slot ip port w sent ∧ Concludes slot ip port w sent result w' := by
  have hfresh : (socketAt slot (dial slot ip port w)).reset = false := by
    rw [socketAt_dial, if_pos rfl]
  cases h with
  | @unsent cause w₁ hr h₁ =>
    refine ⟨_, hr, .unsent ?_ ?_⟩
    · rw [socketAt_setState_self]
    · rw [socketAt_setState_self]
      exact seq_of_dial h₁
  | @connected w₁ _ hr h₁ h₂ he =>
    refine ⟨_, hr, .connected (leadsTo_of_dial h₁ h₂ hu he) ?_ (seq_of_dial_of_advanceSeq h₁ h₂)⟩
    rintro ⟨new, hj, m, hm, source, hreset⟩
    have hevents : w'.journal.map Moment.event =
        new.map Moment.event ++ w.journal.map Moment.event := by rw [hj, List.map_append]
    have hmem : .connectionReset slot source ∈ new.map Moment.event :=
      hreset ▸ List.mem_map_of_mem hm
    exact Operation.Works.false_of_connected hc h₁ h₂ he hevents hmem
  | @notConnected w₁ w₂ hr h₁ h₂ =>
    have hseq := seq_of_dial_of_advanceSeq h₁ h₂
    have hreset : (socketAt slot w₂).reset = true ↔
        ResetBetween slot w (setState slot .closed w₂) := by
      have hset : Marked slot w₂ (setState slot .closed w₂) := .setState
      have hmarked := ((Marked.of_dial h₁ h₂).trans hset).reset_iff spared_dial hfresh
      rwa [socketAt_setState_self] at hmarked
    split
    · rename_i hset
      exact ⟨_, hr, .reset (by simp) (hreset.1 hset) (by simpa using hseq)⟩
    · rename_i hset
      exact ⟨_, hr, .timedOut (by simp) (mt hreset.2 hset) (by simpa using hseq)⟩

/-- An attempt to connect ends as its request, the state after the wait, and the resets meanwhile decide. -/
theorem connect_concludes (hw : Reachable w) (ip : Ipv4.Address) (port : UInt16) :
    (∀ handle fuel, (∀ slot : Slot, slot.val = handle → (socketAt slot w).inUse = false) →
      (connect (Poller.ofFuel fuel) handle ip port).run w = .ok (.error .badHandle, w)) ∧
    ∀ slot : Slot, (socketAt slot w).inUse = true →
      ((socketAt slot w).state ≠ .closed → ∀ fuel,
        (connect (Poller.ofFuel fuel) slot ip port).run w = .ok (.error .invalidState, w)) ∧
      ((socketAt slot w).state = .closed →
        (∀ fuel fault,
          (connect (Poller.ofFuel fuel) slot ip port).run w ≠ .error (.fault fault)) ∧
        (∀ limit < 2 ^ 28, Link.DeliversAtMost limit w.device → w.clock.Steady (2 ^ 28) →
          w.clock.now.toNat ≤ 2 ^ 63 → ∃ least, ∀ fuel ≥ least, ∃ result w',
            (connect (Poller.ofFuel fuel) slot ip port).run w = .ok (result, w')) ∧
        ∀ fuel result w', (connect (Poller.ofFuel fuel) slot ip port).run w = .ok (result, w') →
          ∃ sent, Requests (Poller.ofFuel fuel) slot ip port w sent ∧
            Concludes slot ip port w sent result w') := by
  refine ⟨fun handle fuel hu => ?_, fun slot hu => ⟨fun hs fuel => ?_, fun hc => ?_⟩⟩
  · exact Attempt.run_eq_of_ensures fun Q =>
      connect_ensures_of_error ip port (Sockets.slot_eq_error hu)
  · exact Attempt.run_eq_of_ensures fun Q => connect_ensures_of_not_closed ip port hu hs
  · have hconnects (fuel : Nat) :=
      connect_connects (Poller.evolving_ofFuel fuel) ip port hu hc hw.valid
    refine ⟨fun fuel fault => (hconnects fuel).ne_fault fault, ?_, fun fuel result w' hr => ?_⟩
    · exact Attempt.ends_of_perform hw (.tcpConnect slot ip port) trivial fun _ => rfl
    · exact Tcp.Connects.concludes (Net.Ensures.of_ok (hconnects fuel) hr) hu hc

namespace Tcp

def hurried : World Link.Script :=
  (World.start ⟨[], 0, [], [(0, [.frame (peerFrame 80 49153 100 1 { syn := true, ack := true }),
    .frame (peerFrame 80 49153 101 1 { fin := true, ack := true })])]⟩ ⟨0, 500, []⟩
      Interface.default).after 4 [.arpLearn peer.ip peer.mac, .tcpOpen]

end Tcp

theorem connect_concludes_hurried : Reachable hurried ∧ (socketAt 0 hurried).inUse = true ∧
    (socketAt 0 hurried).state = .closed ∧
    ∃ fuel w', (connect (Poller.ofFuel fuel) 0 peer.ip 80).run hurried = .ok (.ok (), w') ∧
      (socketAt 0 w').state = .closeWait ∧ Concludes 0 peer.ip 80 hurried (.ok ()) (.ok ()) w' := by
  have hw : Reachable hurried := .after (.start ..) 4 _
  have hu : (socketAt 0 hurried).inUse = true := by decide +kernel
  have hc : (socketAt 0 hurried).state = .closed := by decide +kernel
  have hs : (socketAt 0 (hurried.after 4 [.tcpConnect 0 peer.ip 80])).state = .closeWait := by
    decide +kernel
  have hruns : (Operation.tcpConnect 0 peer.ip 80).Runs hurried
    (hurried.after 4 [.tcpConnect 0 peer.ip 80]) := Operation.runs_after (by decide +kernel)
  obtain ⟨fuel, hperform⟩ := hruns
  obtain ⟨result, hr⟩ := Operation.exists_run_of_attempt hperform
  obtain ⟨sent, -, h⟩ := (((connect_concludes hw peer.ip 80).2 0 hu).2 hc).2.2 fuel result _ hr
  -- Of the four ends, only one leaves the socket in a state other than closed.
  cases h with
  | connected hl hn hseq => exact ⟨hw, hu, hc, fuel, _, hr, hs, .connected hl hn hseq⟩
  | unsent hclosed | reset hclosed | timedOut hclosed => simp [hs] at hclosed

end InetHost
