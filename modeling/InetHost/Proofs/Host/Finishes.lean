import InetHost.Proofs.Host.Ensures

/-! What a run comes to that has fuel enough. A run that ends well satisfies the postcondition, and no
run wants fuel; a run with a fault may satisfy anything. Together with the absence of faults this says
that a run ends, and how. -/

namespace InetHost

variable {δ α β : Type}

namespace Net

def Finishes (m : Net δ α) (w : World δ) (Q : α → World δ → Prop) : Prop :=
  match m w with
  | .ok (a, w') => Q a w'
  | .error (.fault _) => True
  | .error .outOfFuel => False

variable {m : Net δ α} {w : World δ} {Q Q' : α → World δ → Prop}

theorem Finishes.mono (h : Finishes m w Q) (hQ : ∀ a w', Q a w' → Q' a w') : Finishes m w Q' := by
  unfold Finishes at h ⊢
  split at h
  · exact hQ _ _ h
  · trivial
  · exact h

theorem Finishes.congr {m' : Net δ α} {w' : World δ} (h : Finishes m' w' Q) (hm : m w = m' w') :
    Finishes m w Q := by
  rw [Finishes, hm]
  exact h

theorem Finishes.of_ok {a : α} {w' : World δ} (h : Finishes m w Q) (hm : m w = .ok (a, w')) :
    Q a w' := by
  simpa only [Finishes, hm] using h

theorem finishes_of_eq_ok {r : α × World δ} (hm : m w = .ok r) (h : Q r.1 r.2) :
    Finishes m w Q := by
  simpa only [Finishes, hm] using h

theorem Finishes.and (h : Finishes m w Q) (h' : Finishes m w Q') :
    Finishes m w fun a w' => Q a w' ∧ Q' a w' := by
  unfold Finishes at h h' ⊢
  generalize m w = result at h h' ⊢
  cases result with
  | ok r => exact ⟨h, h'⟩
  | error halt =>
    cases halt with
    | fault f => trivial
    | outOfFuel => exact h

theorem Finishes.exists_eq_ok (h : Finishes m w Q) (hf : ∀ f, m w ≠ .error (.fault f)) :
    ∃ a w', m w = .ok (a, w') ∧ Q a w' := by
  unfold Finishes at h
  split at h
  · rename_i a w' hm
    exact ⟨a, w', hm, h⟩
  · rename_i f hm
    exact absurd hm (hf f)
  · exact h.elim

@[simp] theorem finishes_pure (a : α) : Finishes (pure a : Net δ α) w Q ↔ Q a w := Iff.rfl

@[simp] theorem finishes_bind (f : α → Net δ β) (R : β → World δ → Prop) :
    Finishes (m >>= f) w R ↔ Finishes m w fun a w' => Finishes (f a) w' R := by
  have hb : (m >>= f) w = m w >>= fun r => f r.1 r.2 := rfl
  unfold Finishes
  rw [hb]
  cases m w with
  | ok r => rfl
  | error halt => cases halt <;> rfl

@[simp] theorem finishes_get (Q : World δ → World δ → Prop) :
    Finishes (get : Net δ (World δ)) w Q ↔ Q w w := Iff.rfl

@[simp] theorem finishes_modify (f : World δ → World δ) (Q : PUnit → World δ → Prop) :
    Finishes (modify f : Net δ PUnit) w Q ↔ Q ⟨⟩ (f w) := Iff.rfl

@[simp] theorem finishes_modifyGet (f : World δ → α × World δ) :
    Finishes (modifyGet f : Net δ α) w Q ↔ Q (f w).1 (f w).2 := Iff.rfl

@[simp] theorem finishes_check (r : Except Fault α) :
    Finishes (check r : Net δ α) w Q ↔ ∀ a, r = .ok a → Q a w := by
  cases r with
  | ok a =>
    constructor
    · intro h b hb
      exact Except.ok.inj hb ▸ h
    · intro h
      exact h a rfl
  | error f =>
    constructor
    · intro _ b hb
      cases hb
    · intro _
      trivial

theorem finishes_check_of_eq {r : Except Fault α} {a : α} (h : r = .ok a) :
    Finishes (check r : Net δ α) w Q ↔ Q a w := by
  subst h
  rfl

theorem bind_of_eq_ok {a : α} {w' : World δ} (h : m w = .ok (a, w')) (f : α → Net δ β) :
    (m >>= f) w = f a w' := by
  have hb : (m >>= f) w = m w >>= fun r => f r.1 r.2 := rfl
  rw [hb, h]
  rfl

theorem exists_of_bind_eq_ok {f : α → Net δ β} {b : β} {w' : World δ}
    (h : (m >>= f) w = .ok (b, w')) : ∃ a w₁, m w = .ok (a, w₁) ∧ f a w₁ = .ok (b, w') := by
  have hbind : (m >>= f) w = m w >>= fun r => f r.1 r.2 := rfl
  rw [hbind] at h
  cases hm : m w with
  | ok r =>
    rw [hm] at h
    exact ⟨r.1, r.2, rfl, h⟩
  | error halt =>
    rw [hm] at h
    cases h

theorem exists_of_map_eq_ok {f : α × World δ → β} {b : β} (h : (m w).map f = .ok b) :
    ∃ a w', m w = .ok (a, w') ∧ f (a, w') = b := by
  cases hm : m w with
  | ok r =>
    rw [hm] at h
    exact ⟨r.1, r.2, rfl, Except.ok.inj h⟩
  | error halt =>
    rw [hm] at h
    cases h

theorem check_bind {r : Except Fault α} {a : α} (h : r = .ok a) (f : α → Net δ β) :
    (check r >>= f : Net δ β) w = f a w :=
  bind_of_eq_ok (congrArg (fun r => (check r : Net δ α) w) h) f

end Net

namespace Attempt

/-- What an attempt comes to, whether it succeeds or fails. -/
def Finishes (a : Attempt δ α) (w : World δ) (Q : Except NetError α → World δ → Prop) : Prop :=
  Net.Finishes a.run w Q

variable {a : Attempt δ α} {w : World δ} {Q Q' : Except NetError α → World δ → Prop}

theorem Finishes.mono (h : Finishes a w Q) (hQ : ∀ r w', Q r w' → Q' r w') : Finishes a w Q' :=
  Net.Finishes.mono h hQ

/-- An attempt of which one outcome is ensured, and nothing else, does end. -/
theorem run_eq_of_ensures {r : Except NetError α} {w' : World δ}
    (h : ∀ Q, Ensures a w Q ↔ Q r w') : a.run w = .ok (r, w') := by
  have hsame : Ensures a w fun r₁ w₁ => r₁ = r ∧ w₁ = w' := (h _).2 ⟨rfl, rfl⟩
  have hends : ¬Ensures a w fun _ _ => False := fun hf => (h _).1 hf
  unfold Ensures Net.Ensures at hsame hends
  generalize a.run w = result at hsame hends
  cases result with
  | ok result =>
    obtain ⟨rfl, rfl⟩ := hsame
    rfl
  | error halt =>
    cases halt with
    | fault f => exact hsame.elim
    | outOfFuel => exact absurd trivial hends

theorem run_get (w : World δ) : (get : Attempt δ (World δ)).run w = .ok (.ok w, w) := rfl

theorem run_bind_of_eq_ok {x : α} {w' : World δ} (h : a.run w = .ok (.ok x, w'))
    (f : α → Attempt δ β) : (a >>= f).run w = (f x).run w' := by
  rw [ExceptT.run_bind]
  exact Net.bind_of_eq_ok h _

theorem run_lift_of_eq_ok {m : Net δ α} {x : α} {w' : World δ} (h : m w = .ok (x, w')) :
    (liftM m : Attempt δ α).run w = .ok (.ok x, w') := by
  show (m >>= fun x => pure (Except.ok x)) w = _
  rw [Net.bind_of_eq_ok h]
  rfl

theorem finishes_iff_of_ensures {r : Except NetError α} {w' : World δ}
    (h : ∀ Q, Ensures a w Q ↔ Q r w') : Finishes a w Q ↔ Q r w' := by
  unfold Finishes Net.Finishes
  rw [run_eq_of_ensures h]

@[simp] theorem finishes_run : Net.Finishes a.run w Q ↔ Finishes a w Q := Iff.rfl

theorem finishes_of_run_eq {r : Except NetError α} {w' : World δ} (h : a.run w = .ok (r, w')) :
    Finishes a w Q ↔ Q r w' := by
  rw [Finishes, Net.Finishes, h]

@[simp] theorem finishes_pure (x : α) : Finishes (pure x : Attempt δ α) w Q ↔ Q (.ok x) w := Iff.rfl

@[simp] theorem finishes_bind (f : α → Attempt δ β) (R : Except NetError β → World δ → Prop) :
    Finishes (a >>= f) w R ↔ Finishes a w fun r w' =>
      match r with
      | .ok x => Finishes (f x) w' R
      | .error e => R (.error e) w' := by
  unfold Finishes
  have hb : (a >>= f).run = a.run >>= fun r =>
      match r with
      | .ok x => (f x).run
      | .error e => pure (.error e) := by
    rw [ExceptT.run_bind]
    exact bind_congr fun r => by cases r <;> rfl
  rw [hb, Net.finishes_bind]
  constructor <;> intro h <;> refine h.mono fun r w' hr => ?_ <;> cases r <;> exact hr

@[simp] theorem finishes_lift (m : Net δ α) :
    Finishes (liftM m : Attempt δ α) w Q ↔ Net.Finishes m w fun x w' => Q (.ok x) w' := by
  change Net.Finishes (m >>= fun x => pure (Except.ok x)) w Q ↔ _
  simp only [Net.finishes_bind, Net.finishes_pure]

@[simp] theorem finishes_get (Q : Except NetError (World δ) → World δ → Prop) :
    Finishes (get : Attempt δ (World δ)) w Q ↔ Q (.ok w) w := Iff.rfl

@[simp] theorem finishes_modify (f : World δ → World δ)
    (Q : Except NetError PUnit → World δ → Prop) :
    Finishes (modify f : Attempt δ PUnit) w Q ↔ Q (.ok ⟨⟩) (f w) := Iff.rfl

@[simp] theorem finishes_modifyGet (f : World δ → α × World δ) :
    Finishes (modifyGet f : Attempt δ α) w Q ↔ Q (.ok (f w).1) (f w).2 := Iff.rfl

@[simp] theorem finishes_ofExcept (r : Except NetError α) :
    Finishes (ofExcept r) w Q ↔ Q r w := Iff.rfl

@[simp] theorem finishes_outcome (Q : Except NetError (Except NetError α) → World δ → Prop) :
    Finishes a.outcome w Q ↔ Finishes a w fun r w' => Q (.ok r) w' :=
  finishes_lift a.run

@[simp] theorem finishes_adapt (g : NetError → NetError) :
    Finishes (ExceptT.adapt g a) w Q ↔ Finishes a w fun r w' => Q (r.mapError g) w' := by
  change Net.Finishes (Except.mapError g <$> a.run) w Q ↔ _
  rw [← bind_pure_comp, Net.finishes_bind]
  rfl

@[simp] theorem finishes_check (r : Except Fault α) :
    Finishes (Net.check r : Attempt δ α) w Q ↔ ∀ x, r = .ok x → Q (.ok x) w := by
  cases r with
  | ok x =>
    constructor
    · intro h y hy
      exact Except.ok.inj hy ▸ h
    · intro h
      exact h x rfl
  | error f =>
    constructor
    · intro _ y hy
      cases hy
    · intro _
      trivial

end Attempt

end InetHost
