import Mathlib.Algebra.Ring.Nat
import InetHost.Clock

/-! Clocks whose every reading moves them on by a bounded amount, and the readings that do not go
past the last representable time. -/

namespace InetHost.Clock

def pace (c : Clock) : UInt64 := c.paces.headD c.step

theorem fst_read (c : Clock) : c.read.1 = c.now := by
  cases h : c.paces with
  | nil => simp [read, h]
  | cons pace paces => simp [read, h]

theorem now_read (c : Clock) : c.read.2.now = c.now + c.pace := by
  cases h : c.paces with
  | nil => simp [read, pace, h]
  | cons pace paces => simp [read, Clock.pace, h]

theorem step_read (c : Clock) : c.read.2.step = c.step := by
  cases h : c.paces with
  | nil => simp [read, h]
  | cons pace paces => simp [read, h]

theorem paces_read (c : Clock) : c.read.2.paces = c.paces.tail := by
  cases h : c.paces with
  | nil => simp [read, h]
  | cons pace paces => simp [read, h]

def Steady (limit : Nat) (c : Clock) : Prop :=
  ∀ pace ∈ c.step :: c.paces, 1 ≤ pace.toNat ∧ pace.toNat < limit

variable {limit : Nat} {c c' c'' : Clock}

theorem pace_mem (c : Clock) : c.pace ∈ c.step :: c.paces := by
  unfold pace
  cases h : c.paces with
  | nil => simp
  | cons pace paces => simp

theorem Steady.read (h : c.Steady limit) : c.read.2.Steady limit := by
  intro pace hp
  rw [step_read, paces_read] at hp
  apply h pace
  rcases List.mem_cons.1 hp with rfl | ht
  · exact List.mem_cons_self
  · exact List.mem_cons_of_mem _ (List.mem_of_mem_tail ht)

theorem Steady.of_step {now step : UInt64} (h : 1 ≤ step.toNat) (h' : step.toNat < limit) :
    Steady limit ⟨now, step, []⟩ := by
  intro pace hp
  obtain rfl : pace = step := by simpa using hp
  exact ⟨h, h'⟩

inductive Ticks (c : Clock) : Clock → Prop
  | refl : Ticks c c
  | read {c' : Clock} :
      Ticks c c' → c'.now.toNat + c'.pace.toNat < 2 ^ 64 → Ticks c c'.read.2

theorem toNat_now_read (h : c.now.toNat + c.pace.toNat < 2 ^ 64) :
    c.read.2.now.toNat = c.now.toNat + c.pace.toNat := by
  rw [now_read, UInt64.toNat_add, Nat.mod_eq_of_lt h]

namespace Ticks

theorem le (h : Ticks c c') : c.now.toNat ≤ c'.now.toNat := by
  induction h with
  | refl => exact Nat.le_refl _
  | read _ hw ih =>
    rw [toNat_now_read hw]
    exact Nat.le_trans ih (Nat.le_add_right _ _)

end Ticks

/-- So many readings, and a wait after them, do not come near the last representable time. -/
structure Ample (n : Nat) (c : Clock) : Prop where
  steady : c.Steady 500
  early : c.now.toNat + 500 * n + 10000 < 2 ^ 64

namespace Ample

variable {n : Nat}

theorem mono {m : Nat} (h : c.Ample n) (hm : m ≤ n) : c.Ample m := by
  have hearly := h.early
  exact ⟨h.steady, by omega⟩

theorem now_read (h : c.Ample (n + 1)) :
    c.read.2.now.toNat = c.now.toNat + c.pace.toNat ∧ c.pace.toNat < 500 := by
  have hearly := h.early
  have hpace := (h.steady _ c.pace_mem).2
  exact ⟨toNat_now_read (by omega), hpace⟩

theorem read (h : c.Ample (n + 1)) :
    c.read.2.Ample n ∧ c.read.2.now.toNat < c.now.toNat + 500 := by
  have hearly := h.early
  obtain ⟨hnow, hpace⟩ := h.now_read
  exact ⟨⟨h.steady.read, by omega⟩, by omega⟩

theorem not_deadline_le (h : c.Ample 2) {timeout : UInt64} (ht : 500 ≤ timeout.toNat) :
    ¬deadline c.read.1 timeout ≤ c.read.2.read.1 := by
  have hlater := h.read.2
  have hearly := h.early
  rw [fst_read, fst_read, UInt64.le_iff_toNat_le, toNat_deadline]
  omega

end Ample

theorem toNat_toUInt32_sub {a b : UInt64} (h : a.toNat ≤ b.toNat)
    (h' : b.toNat < a.toNat + 2 ^ 32) : (b.toUInt32 - a.toUInt32).toNat + a.toNat = b.toNat := by
  rw [UInt32.toNat_sub, UInt64.toNat_toUInt32, UInt64.toNat_toUInt32]
  omega

structure Regular (step : UInt64) (c : Clock) : Prop where
  paces_eq : c.paces = []
  step_eq : c.step = step

namespace Regular

variable {step : UInt64}

theorem read (h : c.Regular step) : c.read.2.Regular step := by
  refine ⟨?_, c.step_read.trans h.step_eq⟩
  rw [paces_read, h.paces_eq]
  rfl

theorem pace_eq (h : c.Regular step) : c.pace = step := by
  rw [pace, h.paces_eq]
  exact h.step_eq

end Regular

/-- The time between a reading and the third one after it can be told from their low halves. -/
theorem Ample.elapsed {n : Nat} (h : c.Ample (n + 3)) :
    let later := c.read.2.read.2.read.2.now
    (later.toUInt32 - c.now.toUInt32).toNat + c.now.toNat = later.toNat ∧
      ∀ step, c.Regular step → (later.toUInt32 - c.now.toUInt32).toNat = 3 * step.toNat := by
  intro later
  obtain ⟨h₁, hp₁⟩ := h.now_read
  obtain ⟨h₂, hp₂⟩ := h.read.1.now_read
  obtain ⟨h₃, hp₃⟩ := h.read.1.read.1.now_read
  have hlater : later.toNat =
      c.now.toNat + c.pace.toNat + c.read.2.pace.toNat + c.read.2.read.2.pace.toNat := by
    rw [h₃, h₂, h₁]
  have hsub : (later.toUInt32 - c.now.toUInt32).toNat + c.now.toNat = later.toNat :=
    toNat_toUInt32_sub (by omega) (by omega)
  refine ⟨hsub, fun step hstep => ?_⟩
  rw [hstep.pace_eq, hstep.read.pace_eq, hstep.read.read.pace_eq] at hlater
  omega

end InetHost.Clock
