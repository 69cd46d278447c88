import Mathlib.Order.Bounds.Basic
import InetHost.Slots

/-! A table is searched from slot zero upwards, so of the slots that will do it is the lowest that is
found. -/

namespace InetHost.Slots

variable {n : Nat} {p : Fin n → Bool} {i : Fin n}

theorem first?_eq_some_iff : first? p = some i ↔ IsLeast {j | p j = true} i := by
  constructor
  · intro h
    refine ⟨of_first?_eq_some h, fun j hj => Fin.not_lt.1 fun hlt => ?_⟩
    exact Bool.false_ne_true ((not_of_lt_first? h hlt).symm.trans hj)
  · rintro ⟨hi, hleast⟩
    cases hf : first? p with
    | none => exact absurd ((first?_eq_none_iff.1 hf i).symm.trans hi) Bool.false_ne_true
    | some j =>
      have hji : j ≤ i := by
        refine Fin.not_lt.1 fun hlt => ?_
        exact Bool.false_ne_true ((not_of_lt_first? hf hlt).symm.trans hi)
      rw [Fin.le_antisymm hji (hleast (of_first?_eq_some hf))]

theorem foldl_best (f : Fin n → UInt64) (best : Fin n) (l : List (Fin n))
    (hl : (best :: l).Pairwise (· ≤ ·)) :
    let found := l.foldl (fun best i => if f i < f best then i else best) best
    ∀ j ∈ best :: l, f found ≤ f j ∧ (j < found → f found < f j) := by
  induction l generalizing best with
  | nil =>
    intro found j hj
    obtain rfl := List.mem_singleton.1 hj
    exact ⟨UInt64.le_refl _, fun h => absurd h (Fin.lt_irrefl j)⟩
  | cons i l ih =>
    obtain ⟨hbest, hi⟩ := List.pairwise_cons.1 hl
    have hbl : (best :: l).Pairwise (· ≤ ·) := by
      refine List.pairwise_cons.2 ⟨fun j hj => hbest j (List.mem_cons_of_mem _ hj), ?_⟩
      exact (List.pairwise_cons.1 hi).2
    intro found j hj
    by_cases hlt : f i < f best
    · have hfound : found = l.foldl (fun best i => if f i < f best then i else best) i := by
        simp only [found, List.foldl_cons, if_pos hlt]
      rw [hfound]
      rcases List.mem_cons.1 hj with rfl | hj
      · have hless := UInt64.lt_of_le_of_lt (ih i hi i List.mem_cons_self).1 hlt
        exact ⟨UInt64.le_of_lt hless, fun _ => hless⟩
      · exact ih i hi j hj
    · have hfound : found = l.foldl (fun best i => if f i < f best then i else best) best := by
        simp only [found, List.foldl_cons, if_neg hlt]
      rw [hfound]
      obtain ⟨hle, hless⟩ := ih best hbl best List.mem_cons_self
      rcases List.mem_cons.1 hj with rfl | hj
      · exact ⟨hle, hless⟩
      rcases List.mem_cons.1 hj with rfl | hj
      · refine ⟨UInt64.le_trans hle (UInt64.not_lt.1 hlt), fun h => ?_⟩
        have hbefore := hless (Fin.lt_of_le_of_lt (hbest j List.mem_cons_self) h)
        exact UInt64.lt_of_lt_of_le hbefore (UInt64.not_lt.1 hlt)
      · exact ih best hbl j (List.mem_cons_of_mem _ hj)

end InetHost.Slots
