import Mathlib.Data.List.Forall2

/-! Going through a list with a step that may fail. It is the first failure that is given out. -/

namespace InetHost.Sequence

theorem mapM_eq_some_iff {α β : Type} {f : α → Option β} {xs : List α} {ys : List β} :
    xs.mapM f = some ys ↔ List.Forall₂ (fun x y => f x = some y) xs ys := by
  induction xs generalizing ys with
  | nil =>
    rw [List.mapM_nil, List.forall₂_nil_left_iff]
    exact ⟨fun h => (Option.some.inj h).symm, fun h => congrArg some h.symm⟩
  | cons x xs ih =>
    simp only [List.mapM_cons, Option.bind_eq_bind, Option.bind_eq_some_iff,
      List.forall₂_cons_left_iff, ← ih]
    constructor
    · rintro ⟨y, hy, ys, hys, h⟩
      exact ⟨y, ys, hy, hys, (Option.some.inj h).symm⟩
    · rintro ⟨y, ys, hy, hys, rfl⟩
      exact ⟨y, hy, ys, hys, rfl⟩

section Except

variable {ε α β : Type} {f : α → Except ε β} {xs : List α} {ys : List β} {e : ε}

theorem map_eq_ok_iff {g : α → β} {x : Except ε α} {y : β} :
    x.map g = .ok y ↔ ∃ a, x = .ok a ∧ g a = y := by
  cases x with
  | error e => exact iff_of_false nofun nofun
  | ok a =>
    constructor
    · exact fun h => ⟨a, rfl, Except.ok.inj h⟩
    · rintro ⟨_, h, rfl⟩
      cases h
      rfl

theorem map_eq_error_iff {g : α → β} {x : Except ε α} : x.map g = .error e ↔ x = .error e := by
  cases x with
  | error e' => rw [Except.map, Except.error.injEq, Except.error.injEq]
  | ok a => exact iff_of_false nofun nofun

theorem mapM_cons_of_ok {x : α} {y : β} (hx : f x = .ok y) :
    (x :: xs).mapM f = (xs.mapM f).map fun ys => y :: ys := by
  rw [List.mapM_cons, hx]
  cases xs.mapM f <;> rfl

theorem mapM_cons_of_error {x : α} (hx : f x = .error e) : (x :: xs).mapM f = .error e := by
  rw [List.mapM_cons, hx]
  rfl

theorem mapM_eq_ok_iff : xs.mapM f = .ok ys ↔ List.Forall₂ (fun x y => f x = .ok y) xs ys := by
  induction xs generalizing ys with
  | nil =>
    rw [List.mapM_nil, List.forall₂_nil_left_iff]
    exact ⟨fun h => (Except.ok.inj h).symm, fun h => congrArg Except.ok h.symm⟩
  | cons x xs ih =>
    rw [List.forall₂_cons_left_iff]
    cases hx : f x with
    | error e =>
      rw [mapM_cons_of_error hx]
      exact iff_of_false nofun nofun
    | ok y =>
      rw [mapM_cons_of_ok hx, map_eq_ok_iff]
      simp only [← ih]
      constructor
      · rintro ⟨rest, hrest, rfl⟩
        exact ⟨y, rest, rfl, hrest, rfl⟩
      · rintro ⟨_, rest, hy, hrest, rfl⟩
        exact ⟨rest, hrest, congrArg (fun y => y :: rest) (Except.ok.inj hy)⟩

theorem mapM_eq_error_iff : xs.mapM f = .error e ↔ ∃ before x after, xs = before ++ x :: after ∧
    (∀ y ∈ before, ∃ v, f y = .ok v) ∧ f x = .error e := by
  induction xs with
  | nil =>
    refine iff_of_false nofun ?_
    rintro ⟨before, x, after, hxs, -⟩
    exact List.append_ne_nil_of_right_ne_nil before (List.cons_ne_nil x after) hxs.symm
  | cons x xs ih =>
    cases hx : f x with
    | error e' =>
      rw [mapM_cons_of_error hx]
      constructor
      · exact fun h => ⟨[], x, xs, rfl, nofun, hx.trans (congrArg Except.error (Except.error.inj h))⟩
      · rintro ⟨before, z, after, hxs, hbefore, hz⟩
        rcases List.cons_eq_append_iff.1 hxs with ⟨rfl, hcons⟩ | ⟨before, rfl, -⟩
        · rw [(List.cons.inj hcons).1, hx] at hz
          exact congrArg Except.error (Except.error.inj hz)
        · obtain ⟨v, hv⟩ := hbefore x List.mem_cons_self
          cases hx.symm.trans hv
    | ok y =>
      rw [mapM_cons_of_ok hx, map_eq_error_iff, ih]
      constructor
      · rintro ⟨before, z, after, rfl, hbefore, hz⟩
        exact ⟨x :: before, z, after, rfl, List.forall_mem_cons.2 ⟨⟨y, hx⟩, hbefore⟩, hz⟩
      · rintro ⟨before, z, after, hxs, hbefore, hz⟩
        rcases List.cons_eq_append_iff.1 hxs with ⟨rfl, hcons⟩ | ⟨before, rfl, hxs⟩
        · rw [(List.cons.inj hcons).1, hx] at hz
          cases hz
        · exact ⟨before, z, after, (List.cons.inj hxs).2, (List.forall_mem_cons.1 hbefore).2, hz⟩

end Except

end InetHost.Sequence
