import InetHost.Proofs.Host.Preservation

/-! The states that a connection goes through while the host reads frames. Every change of state has
its line in the journal, and so the journal is a path from the state before to the state after. -/

namespace InetHost

def Event.concerns (slot : Nat) : Event → Bool
  | stateChanged i .. | connectionReset i _ => i = slot
  | _ => false

theorem Event.concerns_of_isTurn {e : Event} (h : e.isTurn = false) (slot : Nat) :
    e.concerns slot = false := by
  cases e with
  | stateChanged | connectionReset => cases h
  | _ => rfl

namespace Tcp

def State.moves : State → State → Bool
  | .listen, .synReceived | .synSent, .established | .synReceived, .established
  | .established, .closeWait | .finWait1, .finWait2 | .finWait1, .timeWait
  | .finWait2, .timeWait | .lastAck, .closed => true
  | _, _ => false

def State.reach : State → List State
  | .closed => [.closed]
  | .listen => [.listen, .synReceived, .established, .closeWait, .closed]
  | .synSent => [.synSent, .established, .closeWait, .closed]
  | .synReceived => [.synReceived, .established, .closeWait, .closed]
  | .established => [.established, .closeWait, .closed]
  | .finWait1 => [.finWait1, .finWait2, .timeWait, .closed]
  | .finWait2 => [.finWait2, .timeWait, .closed]
  | .closeWait => [.closeWait, .closed]
  | .closing => [.closing, .closed]
  | .lastAck => [.lastAck, .closed]
  | .timeWait => [.timeWait, .closed]

theorem State.self_mem_reach (s : State) : s ∈ s.reach := by cases s <;> decide

theorem State.closed_mem_reach (s : State) : .closed ∈ s.reach := by cases s <;> decide

theorem State.mem_reach_of_moves {s a b : State} (ha : a ∈ s.reach) (hm : moves a b = true) :
    b ∈ s.reach := by
  -- There are eleven states, so all moves can be tried.
  have hall : ∀ s ∈ all, ∀ a ∈ s.reach, ∀ b ∈ all, moves a b = true → b ∈ s.reach := by decide
  exact hall s s.mem_all a ha b b.mem_all hm

/-- A path from the state `s`, as the journal tells it, the latest event first. -/
inductive Trace (slot : Slot) (s : State) : List Event → State → Prop
  | nil : Trace slot s [] s
  | skip {es : List Event} {a : State} {e : Event} :
      e.concerns slot = false → Trace slot s es a → Trace slot s (e :: es) a
  | move {es : List Event} {a b : State} :
      State.moves a b = true → Trace slot s es a → Trace slot s (.stateChanged slot a b :: es) b
  | reset {es : List Event} {a : State} (source : Ipv4.Address) :
      a ≠ .listen → a ≠ .closed → Trace slot s es a →
      Trace slot s (.stateChanged slot a .closed :: .connectionReset slot source :: es) .closed
  | revive {es : List Event} :
      s = .finWait1 ∨ s = .finWait2 → Trace slot s es .closed →
      Trace slot s (.stateChanged slot .closed .timeWait :: es) .timeWait

namespace Trace

variable {slot : Slot} {s a b : State} {es es' : List Event}

theorem of_concerns (h : ∀ e ∈ es, e.concerns slot = false) : Trace slot s es s := by
  induction es with
  | nil => exact .nil
  | cons e es ih =>
    obtain ⟨he, hes⟩ := List.forall_mem_cons.1 h
    exact .skip he (ih hes)

theorem mem_reach (h : Trace slot s es a) : a ∈ s.reach := by
  induction h with
  | nil => exact s.self_mem_reach
  | skip _ _ ih => exact ih
  | move hm _ ih => exact State.mem_reach_of_moves ih hm
  | reset => exact s.closed_mem_reach
  | revive hs _ _ => rcases hs with rfl | rfl <;> decide

theorem finWait_of_finWait (h : Trace slot s es a) (ha : a = .finWait1 ∨ a = .finWait2) :
    s = .finWait1 ∨ s = .finWait2 := by
  have hr := h.mem_reach
  rcases ha with rfl | rfl <;> cases s <;> simp_all [State.reach]

theorem append (h : Trace slot s es a) (h' : Trace slot a es' b) :
    Trace slot s (es' ++ es) b := by
  induction h' with
  | nil => exact h
  | skip he _ ih => exact .skip he ih
  | move hm _ ih => exact .move hm ih
  | reset source hl hc _ ih => exact .reset source hl hc ih
  | revive ha _ ih => exact .revive (h.finWait_of_finWait ha) ih

end Trace

variable {δ : Type} {w w' w₁ w₂ w₃ : World δ}

def Traced (slot : Slot) (w w' : World δ) : Prop :=
  ∃ new, w'.journal = new ++ w.journal ∧
    Trace slot (socketAt slot w).state (new.map Moment.event) (socketAt slot w').state

namespace Traced

variable {slot : Slot}

theorem refl (w : World δ) : Traced slot w w := ⟨[], rfl, .nil⟩

theorem trans (h : Traced slot w₁ w₂) (h' : Traced slot w₂ w₃) : Traced slot w₁ w₃ := by
  obtain ⟨new, hj, ht⟩ := h
  obtain ⟨new', hj', ht'⟩ := h'
  refine ⟨new' ++ new, ?_, ?_⟩
  · rw [hj', hj, List.append_assoc]
  · rw [List.map_append]
    exact ht.append ht'

theorem of_grows (hs : (socketAt slot w').state = (socketAt slot w).state)
    (hg : World.Grows (fun m => m.event.concerns slot = false) w w') : Traced slot w w' := by
  obtain ⟨new, hj, hnew⟩ := hg
  refine ⟨new, hj, ?_⟩
  rw [hs]
  exact .of_concerns (List.forall_mem_map.2 hnew)

theorem of_journal_eq (hs : (socketAt slot w').state = (socketAt slot w).state)
    (hj : w'.journal = w.journal) : Traced slot w w' :=
  of_grows hs (.of_journal_eq hj)

theorem of_journal_eq_cons {m : Moment}
    (hs : (socketAt slot w').state = (socketAt slot w).state)
    (hj : w'.journal = m :: w.journal) (hm : m.event.concerns slot = false) :
    Traced slot w w' :=
  of_grows hs (.of_journal_eq_cons hj hm)

theorem update {i : Slot} {f : Socket → Socket}
    (hf : (f (socketAt i w)).state = (socketAt i w).state) :
    Traced slot w (updateSocket i f w) :=
  of_journal_eq (updateSocket_congr Socket.state hf slot) rfl

theorem setState_of_ne {i : Slot} {next : State} (h : i ≠ slot) :
    Traced slot w (setState i next w) := by
  have hs : (socketAt slot (setState i next w)).state = (socketAt slot w).state := by
    rw [socketAt_setState, if_neg h]
  by_cases hi : (socketAt i w).state = next
  · rw [setState_of_eq hi]
    exact refl w
  · refine of_journal_eq_cons (m := ⟨.stateChanged i (socketAt i w).state next, w.host⟩) hs ?_ ?_
    · rw [Tcp.setState_of_ne hi]
      rfl
    · simpa [Event.concerns, Fin.ext_iff] using h

theorem setState_of_moves {i : Slot} {next : State}
    (h : State.moves (socketAt i w).state next = true) : Traced slot w (setState i next w) := by
  by_cases hi : i = slot
  · subst hi
    by_cases hs : (socketAt i w).state = next
    · rw [setState_of_eq hs]
      exact refl w
    · refine ⟨[⟨.stateChanged i (socketAt i w).state next, w.host⟩], ?_, ?_⟩
      · rw [Tcp.setState_of_ne hs]
        rfl
      · rw [socketAt_setState_self]
        exact .move h .nil
  · exact setState_of_ne hi

theorem handleReset (i : Slot) (source : Ipv4.Address) :
    Traced slot w (handleReset i (socketAt i w).state source w) := by
  by_cases h : (socketAt i w).state = .listen ∨ (socketAt i w).state = .closed
  · rw [handleReset_of_dead h]
    exact refl w
  · obtain ⟨hl, hc⟩ := not_or.1 h
    obtain ⟨host, hj⟩ := journal_handleReset_of_alive hl hc source
    refine ⟨[_, _], hj, ?_⟩
    rw [socketAt_handleReset_of_alive hl hc]
    by_cases hi : i = slot
    · subst hi
      rw [if_pos rfl]
      exact .reset source hl hc .nil
    · rw [if_neg hi]
      -- Both lines are about another connection.
      have hn : ¬i.val = slot.val := fun h => hi (Fin.ext h)
      exact .skip (by simpa [Event.concerns] using hn)
        (.skip (by simpa [Event.concerns] using hn) .nil)

theorem keepData (i : Slot) (buffer : Ring bufferSize) (count lost : Nat) (w : World δ) :
    Traced slot w (keepData i buffer count lost w) := by
  have hs : (socketAt slot (Tcp.keepData i buffer count lost w)).state =
      (socketAt slot w).state := by
    rw [socketAt_keepData]
    split
    · rename_i hij
      rw [hij]
    · rfl
  exact .of_grows hs ((World.Grows.refl w).keepData fun _ => rfl)

theorem finish {i : Slot} (h : Traced slot w w₁)
    (hs : (socketAt i w).state = .finWait1 ∨ (socketAt i w).state = .finWait2) :
    Traced slot w (setState i .timeWait w₁) := by
  by_cases hi : i = slot
  · subst hi
    by_cases he : (socketAt i w₁).state = .timeWait
    · rwa [setState_of_eq he]
    · obtain ⟨new, hj, ht⟩ := h
      refine ⟨⟨.stateChanged i (socketAt i w₁).state .timeWait, w₁.host⟩ :: new, ?_, ?_⟩
      · rw [Tcp.setState_of_ne he, journal_updateSocket, World.journal_record, hj,
          List.cons_append]
      · rw [socketAt_setState_self]
        -- Meanwhile the connection has gone on in this closing, or a reset has closed it.
        have hr := ht.mem_reach
        cases ha : (socketAt i w₁).state with
        | finWait1 => exact .move rfl (ha ▸ ht)
        | finWait2 => exact .move rfl (ha ▸ ht)
        | closed => exact .revive hs (ha ▸ ht)
        | _ => rcases hs with hs | hs <;> simp_all [State.reach]
  · exact h.trans (setState_of_ne hi)

end Traced

theorem Reaction.traced {slot i : Slot} {header : Header} {message : Bytes}
    {source : Ipv4.Address} (h : Reaction i header message source w w') : Traced slot w w' := by
  cases h with
  | reset _ => exact .handleReset i source
  | confirm _ hs _ _ =>
    refine (Traced.update (i := i) (f := fun s => { s with ack := header.seq + 1 }) rfl).trans
      (.setState_of_moves ?_)
    rw [socketAt_updateSocket_self, hs]
    rfl
  | complete _ hs _ =>
    refine .setState_of_moves ?_
    rw [hs]
    rfl
  | closeWait _ hs _ =>
    refine (Traced.update (i := i) (f := fun s => { s with ack := header.seq + 1 }) rfl).trans
      (.setState_of_moves ?_)
    rw [socketAt_updateSocket_self, hs]
    rfl
  | @data _ stored _ _ _ _ _ =>
    have hnoted : Traced slot w (w.record (.dataKept i source message
        ((message.drop header.dataOffset).take stored))) :=
      .of_journal_eq_cons rfl rfl rfl
    exact hnoted.trans (.keepData i _ _ _ _)
  | finAcked _ hs _ =>
    refine .setState_of_moves ?_
    rw [hs]
    rfl
  | release _ hs _ =>
    have hc : Traced slot w (setState i .closed w) := by
      refine .setState_of_moves ?_
      rw [hs]
      rfl
    exact hc.trans (.update rfl)

end Tcp

open Tcp

variable {δ : Type} [Link.Device δ] {w w' : World δ}

theorem Chore.traced (h : Chore w w') (slot : Slot) : Traced slot w w' := by
  have hs : (socketAt slot w').state = (socketAt slot w).state := by rw [h.socketAt_eq]
  exact .of_grows hs (h.grows.mono fun m hm => Event.concerns_of_isTurn hm slot)

/-- While the host reads frames, every connection goes a path that the journal tells. -/
theorem Evolves.traced (h : Evolves w w') (slot : Slot) : Traced slot w w' := by
  induction h with
  | refl w => exact .refl w
  | trans _ _ ih₁ ih₂ => exact ih₁.trans ih₂
  | chore h => exact h.traced slot
  | react _ h => exact h.traced
  | segment _ _ _ _ _ _ _ ih => exact ih.trans (.of_journal_eq_cons rfl rfl rfl)
  | @accept w w₁ message source header i _ _ hl _ _ ih =>
    let w₀ := updateSocket i (fun s =>
      { s with remoteIp := source, remotePort := header.source, ack := header.seq + 1 }) w
    have h₀ : Traced slot w w₀ := .update rfl
    have hm : Traced slot w₀ (promote i header source w) := by
      refine .setState_of_moves ?_
      rw [socketAt_updateSocket_self, hl]
      rfl
    exact ((h₀.trans hm).trans ih).trans (.update rfl)
  | @finish w w₁ header i _ hs _ _ ih =>
    have h₀ : Traced slot w (setAck i (header.seq + 1) w) := .update rfl
    exact (h₀.trans ih).finish hs

theorem Evolves.state_mem_reach (h : Evolves w w') (slot : Slot) :
    (socketAt slot w').state ∈ (socketAt slot w).state.reach := by
  obtain ⟨new, -, ht⟩ := h.traced slot
  exact ht.mem_reach

end InetHost
