import InetHost.Proofs.Host.Operation
import InetHost.Proofs.Tcp.Trace

/-! What holds of the tables of sockets between operations. The states inside an operation are more
than those between operations: a connection that is being opened waits in a state of its own, and
frames are read meanwhile. So what the reading of frames keeps is shown first, for any world. -/

namespace InetHost

open Tcp

variable {δ : Type} {w w' : World δ}

def World.Vacant (w : World δ) : Prop :=
  ∀ i, (socketAt i w).inUse = false →
    (socketAt i w).state = .closed ∧ (socketAt i w).buffer.length = 0

theorem World.Vacant.of_slot (hw : w.Vacant) (slot : Slot)
    (hne : ∀ j, slot ≠ j → socketAt j w' = socketAt j w)
    (hs : (socketAt slot w').inUse = false →
      (socketAt slot w').state = .closed ∧ (socketAt slot w').buffer.length = 0) :
    w'.Vacant := by
  intro j
  by_cases hj : slot = j
  · exact hj ▸ hs
  · rw [hne j hj]
    exact hw j

theorem World.Vacant.of_inUse (hw : w.Vacant) (slot : Slot)
    (hne : ∀ j, slot ≠ j → socketAt j w' = socketAt j w)
    (hu : (socketAt slot w').inUse = true) : w'.Vacant :=
  hw.of_slot slot hne fun hi => absurd (hi.symm.trans hu) Bool.false_ne_true

theorem World.Vacant.advanceSeq {slot : Slot} {n : UInt32} (hw : w.Vacant) :
    (advanceSeq slot n w).Vacant := by
  refine hw.of_slot slot (fun j hj => ?_) fun hi => ?_
  · rw [socketAt_advanceSeq, if_neg hj]
  · rw [socketAt_advanceSeq, if_pos rfl] at hi ⊢
    exact hw slot hi

theorem World.Vacant.setState {slot : Slot} {next : State} (hw : w.Vacant)
    (hu : (socketAt slot w).inUse = true) : (setState slot next w).Vacant := by
  refine hw.of_inUse slot (fun j hj => ?_) ?_
  · rw [socketAt_setState, if_neg hj]
  · rwa [socketAt_setState_self]

theorem World.Vacant.release {slot : Slot} (hw : w.Vacant) : (release slot w).Vacant := by
  refine hw.of_slot slot (fun j hj => ?_) fun _ => ?_
  · rw [socketAt_release, if_neg hj]
  · rw [socketAt_release, if_pos rfl]
    exact ⟨rfl, rfl⟩

def Tcp.Socket.AtRest (s : Socket) : Prop := s.state ≠ .closing ∧ s.state ≠ .synSent

section Reading

variable {slot : Slot} {header : Header} {message : Bytes} {source : Ipv4.Address}

theorem Tcp.Reaction.inUse_or (h : Reaction slot header message source w w') :
    (socketAt slot w').inUse = (socketAt slot w).inUse ∨
      (socketAt slot w).state = .lastAck ∧ (socketAt slot w').state = .closed ∧
        (socketAt slot w').buffer.length = 0 := by
  cases h with
  | reset _ =>
    left
    by_cases hs : (socketAt slot w).state = .listen ∨ (socketAt slot w).state = .closed
    · rw [handleReset_of_dead hs]
    · obtain ⟨hl, hc⟩ := not_or.1 hs
      rw [socketAt_handleReset_of_alive hl hc, if_pos rfl]
  | confirm => simp [setAck]
  | complete => simp
  | closeWait => simp [setAck]
  | data => simp [socketAt_keepData]
  | finAcked => simp
  | release _ hs _ =>
    right
    rw [socketAt_release, if_pos rfl]
    exact ⟨hs, rfl, rfl⟩

variable [Link.Device δ]

theorem Evolves.socketAt_of_free (h : Evolves w w') {i : Slot}
    (hi : (socketAt i w).inUse = false) : socketAt i w' = socketAt i w := by
  induction h with
  | refl => rfl
  | trans _ _ ih₁ ih₂ =>
    have h₁ := ih₁ hi
    rw [ih₂ (h₁ ▸ hi), h₁]
  | chore h => exact h.socketAt_eq i
  | react ha h =>
    -- A segment is for a socket in use, and so is every later write of its handler.
    refine h.socketAt_of_ne fun hs => ?_
    have hu := Sockets.inUse_of_demux? ha.found
    rw [hs] at hu
    exact Bool.false_ne_true (hi.symm.trans hu)
  | segment _ _ _ _ _ _ _ ih => exact ih hi
  | @accept w w₁ message source header slot ha _ _ _ _ ih =>
    have hs : slot ≠ i := by
      rintro rfl
      exact Bool.false_ne_true (hi.symm.trans (Sockets.inUse_of_demux? ha.found))
    rw [socketAt_promote, if_neg hs] at ih
    rw [socketAt_advanceSeq, if_neg hs, ih hi]
  | @finish w w₁ header slot hu _ _ _ ih =>
    have hs : slot ≠ i := by
      rintro rfl
      exact Bool.false_ne_true (hi.symm.trans hu)
    rw [socketAt_setAck, if_neg hs] at ih
    rw [socketAt_setState, if_neg hs, ih hi]

/-- Only a connection that waits for its last acknowledgement can lose its slot. -/
theorem Evolves.inUse_of_ne_lastAck (h : Evolves w w') {i : Slot}
    (hi : (socketAt i w).inUse = true) (hs : (socketAt i w).state ≠ .lastAck) :
    (socketAt i w').inUse = true := by
  induction h with
  | refl => exact hi
  | trans h₁ _ ih₁ ih₂ =>
    -- No segment leads to `lastAck` from elsewhere, so the second part does not start there either.
    refine ih₂ (ih₁ hi hs) fun hl => hs ?_
    have hr := h₁.state_mem_reach i
    rw [hl] at hr
    cases ha : (socketAt i _).state <;> simp_all [State.reach]
  | chore h => rwa [h.socketAt_eq i]
  | @react _ _ _ _ _ slot _ h =>
    by_cases hj : slot = i
    · subst hj
      rcases h.inUse_or with he | ⟨hl, -⟩
      · rw [he, hi]
      · exact absurd hl hs
    · rwa [h.socketAt_of_ne hj]
  | segment _ _ _ _ _ _ _ ih => exact ih hi hs
  | @accept w w₁ message source header slot _ _ _ _ _ ih =>
    have hu : (socketAt i w₁).inUse = true := by
      rw [socketAt_promote] at ih
      by_cases hj : slot = i
      · subst hj
        exact ih (by rw [if_pos rfl]; exact hi) (by simp)
      · rw [if_neg hj] at ih
        exact ih hi hs
    rw [socketAt_advanceSeq]
    split
    · rename_i hj
      rwa [hj]
    · exact hu
  | @finish w w₁ header slot _ _ _ _ ih =>
    have hu : (socketAt i w₁).inUse = true := by
      rw [socketAt_setAck] at ih
      by_cases hj : slot = i
      · subst hj
        exact ih (by rw [if_pos rfl]; exact hi) (by rw [if_pos rfl]; exact hs)
      · rw [if_neg hj] at ih
        exact ih hi hs
    rw [socketAt_setState]
    split
    · rename_i hj
      rwa [hj]
    · exact hu

theorem Evolves.vacant (h : Evolves w w') (hw : w.Vacant) : w'.Vacant := by
  induction h with
  | refl => exact hw
  | trans _ _ ih₁ ih₂ => exact ih₂ (ih₁ hw)
  | chore h =>
    intro i
    rw [h.socketAt_eq]
    exact hw i
  | @react w w' _ _ _ slot ha h =>
    have hu : (socketAt slot w).inUse = true := Sockets.inUse_of_demux? ha.found
    refine hw.of_slot slot (fun j hj => h.socketAt_of_ne hj) fun hi => ?_
    rcases h.inUse_or with he | ⟨-, hs⟩
    · exact absurd (hi.symm.trans (he.trans hu)) Bool.false_ne_true
    · exact hs
  | segment _ _ _ _ _ _ _ ih => exact ih hw
  | @accept w w₁ message source header slot ha _ _ _ _ ih =>
    refine (ih (hw.of_inUse slot (fun j hj => ?_) ?_)).advanceSeq
    · rw [socketAt_promote, if_neg hj]
    · rw [socketAt_promote, if_pos rfl]
      exact Sockets.inUse_of_demux? ha.found
  | @finish w w₁ header slot hu hs _ h ih =>
    -- The slot is written after a wait, during which it could be freed only from `lastAck`.
    have hu₀ : (socketAt slot (setAck slot (header.seq + 1) w)).inUse = true := by
      rw [socketAt_setAck, if_pos rfl]
      exact hu
    refine (ih (hw.of_inUse slot (fun j hj => ?_) hu₀)).setState (h.inUse_of_ne_lastAck hu₀ ?_)
    · rw [socketAt_setAck, if_neg hj]
    · rw [socketAt_setAck, if_pos rfl]
      rcases hs with hs | hs <;> simp [hs]

theorem Evolves.atRest (h : Evolves w w') {i : Slot} (hi : (socketAt i w).AtRest) :
    (socketAt i w').AtRest := by
  have hr := h.state_mem_reach i
  obtain ⟨hc, hs⟩ := hi
  unfold Socket.AtRest
  cases ha : (socketAt i w).state <;> cases hb : (socketAt i w').state <;>
    simp_all [State.reach]

theorem Errand.vacant {op : Operation δ} (h : Errand op w w') (hw : w.Vacant) : w'.Vacant := by
  induction h with
  | evolves h => exact h.vacant hw
  | deed h =>
    intro i
    rw [h.socketAt_eq]
    exact hw i
  | trans _ _ ih₁ ih₂ => exact ih₂ (ih₁ hw)

theorem Errand.atRest {op : Operation δ} (h : Errand op w w') {i : Slot} (hi : (socketAt i w).AtRest) :
    (socketAt i w').AtRest := by
  induction h with
  | evolves h => exact h.atRest hi
  | deed h => rwa [h.socketAt_eq]
  | trans _ _ ih₁ ih₂ => exact ih₂ (ih₁ hi)

end Reading

section Operations

variable [Link.Device δ] {op : Operation δ}

theorem Evolves.inUse_of_dial {slot : Slot} {ip : Ipv4.Address} {port : UInt16} {w₁ : World δ}
    (hu : (socketAt slot w).inUse = true) (h : Evolves (dial slot ip port w) w₁) :
    (socketAt slot w₁).inUse = true := by
  refine h.inUse_of_ne_lastAck ?_ ?_ <;> simp [socketAt_dial, hu]

theorem Evolves.inUse_of_dial_of_advanceSeq {slot : Slot} {ip : Ipv4.Address} {port : UInt16}
    {n : UInt32} {w₁ w₂ : World δ} (hu : (socketAt slot w).inUse = true)
    (h : Evolves (dial slot ip port w) w₁) (h' : Evolves (advanceSeq slot n w₁) w₂) :
    (socketAt slot w₂).inUse = true := by
  have hr := h.state_mem_reach slot
  refine h'.inUse_of_ne_lastAck ?_ fun hl => ?_
  · simp [socketAt_advanceSeq, h.inUse_of_dial hu]
  · simp only [socketAt_advanceSeq, if_pos] at hl
    simp [socketAt_dial, hl, State.reach] at hr

theorem Operation.Works.vacant (h : op.Works w w') (hw : w.Vacant) : w'.Vacant := by
  have hd {slot : Slot} {ip : Ipv4.Address} {port : UInt16}
      (hu : (socketAt slot w).inUse = true) : (dial slot ip port w).Vacant := by
    refine hw.of_inUse slot (fun j hj => ?_) ?_
    · rw [socketAt_dial, if_neg hj]
    · rw [socketAt_dial, if_pos rfl]
      exact hu
  -- The slot that an operation writes after its wait is still the one that it started with.
  have hk {slot : Slot} {w₁ : World δ} (h : Evolves w w₁) (hu : (socketAt slot w).inUse = true)
      (hs : (socketAt slot w).state = .established ∨ (socketAt slot w).state = .closeWait) :
      (socketAt slot (advanceSeq slot 1 w₁)).inUse = true := by
    rw [socketAt_advanceSeq, if_pos rfl]
    exact h.inUse_of_ne_lastAck hu (by rcases hs with hs | hs <;> simp [hs])
  cases h with
  | errand _ h => exact h.vacant hw
  | refused => exact hw
  | notSent _ _ h => exact h.vacant hw
  | notReceived _ _ h => exact h.vacant hw
  | ipv4Send _ _ _ h _ => exact h.vacant hw
  | @tcpOpen _ slot _ =>
    refine hw.of_inUse slot (fun j hj => ?_) ?_
    · rw [socketAt_openAt, if_neg hj]
    · rw [socketAt_openAt, if_pos rfl]
  | @tcpBind _ slot _ hu =>
    refine hw.of_inUse slot (fun j hj => ?_) ?_
    · rw [socketAt_updateSocket, if_neg hj]
    · rwa [socketAt_updateSocket_self]
  | tcpListen hu => exact hw.setState hu
  | connectUnsent _ _ hu _ h => exact (h.vacant (hd hu)).setState (h.inUse_of_dial hu)
  | connected _ _ hu _ h₁ h₂ _ => exact h₂.vacant (h₁.vacant (hd hu)).advanceSeq
  | notConnected _ _ hu _ h₁ h₂ =>
    exact (h₂.vacant (h₁.vacant (hd hu)).advanceSeq).setState
      (h₁.inUse_of_dial_of_advanceSeq hu h₂)
  | tcpSend _ _ _ h => exact (h.vacant hw).advanceSeq
  | @tcpReceive _ w₁ slot _ _ _ _ h hu _ =>
    refine (h.vacant hw).of_inUse slot (fun j hj => ?_) ?_
    · rw [socketAt_updateSocket, if_neg hj]
    · rwa [socketAt_updateSocket_self]
  | closeEstablished hu hs h =>
    exact ((h.vacant hw).advanceSeq.setState (hk h hu (.inl hs))).release
  | closeWaiting hu hs h => exact (h.vacant hw).advanceSeq.setState (hk h hu (.inr hs))
  | closeOther _ _ _ => exact hw.release
  | tcpShutdown hu hs h => exact (h.vacant hw).advanceSeq.setState (hk h hu (.inl hs))

theorem Operation.Works.atRest (h : op.Works w w') (hw : ∀ i, (socketAt i w).AtRest) (i : Slot) :
    (socketAt i w').AtRest := by
  have hset {slot : Slot} {next : State} {w₁ : World δ} (hn : next ≠ .closing ∧ next ≠ .synSent)
      (h₁ : slot ≠ i → (socketAt i w₁).AtRest) : (socketAt i (setState slot next w₁)).AtRest := by
    rw [socketAt_setState]
    split
    · exact hn
    · exact h₁ ‹_›
  have hadv {slot : Slot} {n : UInt32} {w₁ : World δ} (h₁ : (socketAt i w₁).AtRest) :
      (socketAt i (advanceSeq slot n w₁)).AtRest := by
    rw [socketAt_advanceSeq]
    split
    · rename_i hi
      subst hi
      exact h₁
    · exact h₁
  have hdial {slot : Slot} {ip : Ipv4.Address} {port : UInt16} {w₁ : World δ} (hi : slot ≠ i)
      (h₁ : Evolves (dial slot ip port w) w₁) : (socketAt i w₁).AtRest := by
    refine h₁.atRest ?_
    rw [socketAt_dial, if_neg hi]
    exact hw i
  cases h with
  | errand _ h => exact h.atRest (hw i)
  | refused => exact hw i
  | notSent _ _ h => exact h.atRest (hw i)
  | notReceived _ _ h => exact h.atRest (hw i)
  | ipv4Send _ _ _ h _ => exact h.atRest (hw i)
  | tcpOpen _ =>
    rw [socketAt_openAt]
    split
    · exact ⟨nofun, nofun⟩
    · exact hw i
  | @tcpBind _ slot _ _ =>
    rw [socketAt_updateSocket]
    split
    · exact hw slot
    · exact hw i
  | tcpListen _ => exact hset (by decide) fun _ => hw i
  | connectUnsent _ _ _ _ h => exact hset (by decide) fun hi => hdial hi h
  | @connected _ _ _ slot _ _ _ _ h₁ h₂ he =>
    -- The slot itself was in `synSent`, and only the outcome tells that it is there no more.
    by_cases hi : slot = i
    · subst hi
      unfold Socket.AtRest
      rcases he with he | he <;> simp [he]
    · exact h₂.atRest (hadv (hdial hi h₁))
  | notConnected _ _ _ _ h₁ h₂ =>
    exact hset (by decide) fun hi => h₂.atRest (hadv (hdial hi h₁))
  | tcpSend _ _ _ h => exact hadv (h.atRest (hw i))
  | @tcpReceive _ w₁ slot _ _ _ _ h _ _ =>
    rw [socketAt_updateSocket]
    split
    · exact h.atRest (hw slot)
    · exact h.atRest (hw i)
  | @closeEstablished _ w₁ slot _ _ h =>
    rw [socketAt_release]
    split
    · exact ⟨nofun, nofun⟩
    · exact hset (by decide) fun _ => hadv (h.atRest (hw i))
  | closeWaiting _ _ h => exact hset (by decide) fun _ => hadv (h.atRest (hw i))
  | closeOther _ _ _ =>
    rw [socketAt_release]
    split
    · exact ⟨nofun, nofun⟩
    · exact hw i
  | tcpShutdown _ _ h => exact hset (by decide) fun _ => hadv (h.atRest (hw i))

/-- What holds of both tables between operations. -/
structure World.Orderly (w : World δ) : Prop where
  vacant : ∀ i, (socketAt i w).inUse = false →
    (socketAt i w).state = .closed ∧ (socketAt i w).buffer.toList = []
  ne_closing : ∀ i, (socketAt i w).state ≠ .closing
  ne_synSent : ∀ i, (socketAt i w).state ≠ .synSent
  length_le : ∀ i, (socketAt i w).buffer.toList.length ≤ bufferSize
  udp_length_le : ∀ i, (w.host.udp.get i).length ≤ Udp.bufferSize
  inUse_of_hasData : ∀ i, (w.host.udp.get i).hasData = true → (w.host.udp.get i).inUse = true

/-- Frames open no slot, and free only one that waits for its last acknowledgement. -/
structure World.KeepsSlots (w w' : World δ) : Prop where
  free : ∀ i, (socketAt i w).inUse = false → (socketAt i w').inUse = false
  lastAck : ∀ i, (socketAt i w).inUse = true → (socketAt i w').inUse = false →
    (socketAt i w).state = .lastAck

theorem Evolves.keepsSlots (h : Evolves w w') : w.KeepsSlots w' where
  free i hi := by rw [h.socketAt_of_free hi, hi]
  lastAck i hi hf := by
    refine Decidable.byContradiction fun hs => ?_
    exact absurd (hf.symm.trans (h.inUse_of_ne_lastAck hi hs)) Bool.false_ne_true

theorem Net.handleFrame_keepsSlots {p : Poller δ} (hp : p.Evolving) (frame : Bytes)
    (hv : w.Valid) : Ensures (handleFrame p frame) w fun _ w' => w.KeepsSlots w' := by
  refine (handleFrame_ensures hp frame hv).mono fun _ w' h => ?_
  rcases h with h | ⟨port, d, slot, -, -, rfl⟩
  · exact h.keepsSlots
  · exact ⟨fun _ hi => hi, fun _ hi hf => absurd (hf.symm.trans hi) Bool.false_ne_true⟩

theorem Reachable.vacant (h : Reachable w) : w.Vacant := by
  induction h with
  | start device clock interface => intro i; simp [Socket.unused, Ring.empty]
  | step op hw hr ih => exact (hr.works hw.safe).vacant ih

theorem Reachable.atRest (h : Reachable w) (i : Slot) : (socketAt i w).AtRest := by
  induction h generalizing i with
  | start device clock interface => simp [Socket.unused, Socket.AtRest]
  | step op hw hr ih => exact (hr.works hw.safe).atRest ih i

theorem Reachable.orderly (h : Reachable w) : w.Orderly where
  vacant i hi := by
    obtain ⟨hs, hl⟩ := h.vacant i hi
    exact ⟨hs, List.eq_nil_of_length_eq_zero (by rw [Ring.length_toList, hl])⟩
  ne_closing i := (h.atRest i).1
  ne_synSent i := (h.atRest i).2
  length_le i := by
    rw [Ring.length_toList]
    exact (h.valid i).length_le
  udp_length_le i := (h.safe.tidy i).length_le
  inUse_of_hasData i := (h.safe.tidy i).inUse_of_hasData

/-- Between operations both tables are in order, and frames alone open no connection. -/
theorem tables_between_operations (h : Reachable w) :
    w.Orderly ∧ w.Valid ∧ ∀ (w₁ : World δ), w₁.Valid → ∀ fuel,
      (∀ frame w', Net.handleFrame (Poller.ofFuel fuel) frame w₁ = .ok ((), w') →
        w'.Valid ∧ w₁.KeepsSlots w') ∧
      ∀ count w', Net.poll fuel w₁ = .ok (count, w') → w'.Valid ∧ w₁.KeepsSlots w' := by
  refine ⟨h.orderly, h.valid, fun w₁ hv fuel => ⟨fun frame w' hr => ?_, fun count w' hr => ?_⟩⟩
  · have hp : (Poller.ofFuel fuel : Poller δ).Evolving := Poller.evolving_ofFuel fuel
    exact ⟨(Net.handleFrame_valid hp frame hv).of_ok hr,
      (Net.handleFrame_keepsSlots hp frame hv).of_ok hr⟩
  · have he := (Net.poll_ensures fuel hv).of_ok hr
    exact ⟨he.valid hv, he.keepsSlots⟩

theorem tables_between_operations_listening : ∃ w : World Link.Script,
    (Reachable w ∧ (socketAt 0 w).state = .listen) ∧ w.Orderly ∧ ∀ fuel,
      (∀ frame w', Net.handleFrame (Poller.ofFuel fuel) frame w = .ok ((), w') →
        w.KeepsSlots w') ∧
      ∀ count w', Net.poll fuel w = .ok (count, w') → w.KeepsSlots w' := by
  have h : Reachable (World.start (⟨[], 0, [], []⟩ : Link.Script) ⟨0, 1, []⟩ Interface.default) :=
    .start ..
  have h₁ := h.step .tcpOpen ⟨0, rfl⟩
  have h₂ := h₁.step (.tcpListen 0) ⟨0, rfl⟩
  obtain ⟨ho, hv, hk⟩ := tables_between_operations h₂
  refine ⟨_, ⟨h₂, rfl⟩, ho, fun fuel => ⟨fun frame w' hr => ?_, fun count w' hr => ?_⟩⟩
  · exact ((hk _ hv fuel).1 frame w' hr).2
  · exact ((hk _ hv fuel).2 count w' hr).2

end Operations

end InetHost
