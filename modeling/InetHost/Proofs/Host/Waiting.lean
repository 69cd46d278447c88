import Mathlib.Logic.Relation
import Mathlib.Tactic.SplitIfs
import InetHost.Proofs.Clock
import InetHost.Proofs.Host.Finishes

/-! A wait, turn by turn. In every turn the host looks whether its condition holds, reads the clock, and
polls; and so a wait that ends has ended after some turns, by the one or by the other. -/

namespace InetHost.Net

variable {δ : Type} {poll : Net δ Nat} {deadline : UInt64} {done : Host → Bool} {met : Bool}
  {w w' : World δ}

/-- The condition does not hold, the deadline has not come, and the host polls. -/
structure Turn (poll : Net δ Nat) (deadline : UInt64) (done : Host → Bool) (w w' : World δ) :
    Prop where
  waiting : done w.host = false
  early : w.readClock.1 < deadline
  polled : ∃ count, poll w.readClock.2 = .ok (count, w')

abbrev Turns (poll : Net δ Nat) (deadline : UInt64) (done : Host → Bool) :
    World δ → World δ → Prop :=
  Relation.ReflTransGen (Turn poll deadline done)

/-- The condition has come to hold, or else the time has reached the deadline. -/
inductive Ends (deadline : UInt64) (done : Host → Bool) (w : World δ) : Bool → World δ → Prop
  | met : done w.host = true → Ends deadline done w true w
  | late : done w.host = false → deadline ≤ w.readClock.1 →
      Ends deadline done w false w.readClock.2

theorem Ends.eq_done (h : Ends deadline done w met w') : met = done w'.host := by
  cases h with
  | met hdone => exact hdone.symm
  | late hdone => exact hdone.symm

theorem waitRounds_succ (poll : Net δ Nat) (deadline : UInt64) (done : Host → Bool) (rounds : Nat)
    (w : World δ) : waitRounds poll deadline done (rounds + 1) w =
      if done w.host = true then .ok (true, w)
      else if deadline ≤ w.readClock.1 then .ok (false, w.readClock.2)
      else (do
        let _ ← poll
        waitRounds poll deadline done rounds : Net δ Bool) w.readClock.2 := by
  have hunfold : waitRounds poll deadline done (rounds + 1) w =
      (if done w.host = true then pure true
        else do
          let time ← modifyGet World.readClock
          if deadline ≤ time then return false
          else do
            let _ ← poll
            waitRounds poll deadline done rounds : Net δ Bool) w := rfl
  rw [hunfold]
  split_ifs with hdone hlate
  · rfl
  · show (if deadline ≤ w.readClock.1 then pure false else _ : Net δ Bool) w.readClock.2 = _
    rw [if_pos hlate]
    rfl
  · show (if deadline ≤ w.readClock.1 then pure false else _ : Net δ Bool) w.readClock.2 = _
    rw [if_neg hlate]

theorem waitUntil_of_poll {p : Poller δ} {timeout : UInt64} {count : Nat} (hr : 2 ≤ p.rounds)
    (ht : 500 ≤ timeout.toNat) (ha : w.clock.Ample 2) (hd : done w.host = false)
    (hpoll : p.poll w.readClock.2.readClock.2 = .ok (count, w')) (hd' : done w'.host = true) :
    waitUntil p timeout done w = .ok (true, w') := by
  obtain ⟨rounds, hrounds⟩ := Nat.exists_eq_add_of_le' hr
  have hstart : (modifyGet World.readClock : Net δ UInt64) w =
    .ok (w.readClock.1, w.readClock.2) := rfl
  have hwaiting : ¬done w.readClock.2.host = true := ne_true_of_eq_false hd
  have hopen : ¬Clock.deadline w.readClock.1 timeout ≤ w.readClock.2.readClock.1 :=
    ha.not_deadline_le ht
  rw [waitUntil, bind_of_eq_ok hstart, hrounds, waitRounds_succ, if_neg hwaiting, if_neg hopen,
    bind_of_eq_ok hpoll, waitRounds_succ, if_pos hd']

theorem exists_turns_of_waitRounds {rounds : Nat}
    (h : waitRounds poll deadline done rounds w = .ok (met, w')) :
    ∃ w₁, Turns poll deadline done w w₁ ∧ Ends deadline done w₁ met w' := by
  induction rounds generalizing w with
  | zero => cases h
  | succ rounds ih =>
    rw [waitRounds_succ] at h
    split_ifs at h with hdone hlate
    · cases h
      exact ⟨_, .refl, .met hdone⟩
    · cases h
      exact ⟨_, .refl, .late (eq_false_of_ne_true hdone) hlate⟩
    · obtain ⟨count, w₁, hpoll, hrest⟩ := exists_of_bind_eq_ok h
      obtain ⟨w₂, hturns, hends⟩ := ih hrest
      have hturn : Turn poll deadline done w w₁ :=
        ⟨eq_false_of_ne_true hdone, UInt64.not_le.1 hlate, count, hpoll⟩
      exact ⟨w₂, .head hturn hturns, hends⟩

theorem exists_turns_of_waitUntil {p : Poller δ} {timeout : UInt64}
    (h : waitUntil p timeout done w = .ok (met, w')) : ∃ w₁,
      Turns p.poll (Clock.deadline w.clock.now timeout) done w.readClock.2 w₁ ∧
      Ends (Clock.deadline w.clock.now timeout) done w₁ met w' := by
  rw [← Clock.fst_read w.clock]
  exact exists_turns_of_waitRounds h

end InetHost.Net
