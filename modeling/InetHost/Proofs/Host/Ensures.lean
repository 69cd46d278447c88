import InetHost.Host.Waiting

/-! What a run is sure to come to. A run that ends well satisfies the postcondition, and no run
ends in a fault; a run that lacks fuel may satisfy anything. -/

namespace InetHost

variable {δ α β : Type}

namespace Net

def Ensures (m : Net δ α) (w : World δ) (Q : α → World δ → Prop) : Prop :=
  match m w with
  | .ok (a, w') => Q a w'
  | .error (.fault _) => False
  | .error .outOfFuel => True

variable {m : Net δ α} {w : World δ} {Q Q' : α → World δ → Prop}

theorem Ensures.mono (h : Ensures m w Q) (hQ : ∀ a w', Q a w' → Q' a w') : Ensures m w Q' := by
  unfold Ensures at h ⊢
  split at h
  · exact hQ _ _ h
  · exact h
  · trivial

theorem Ensures.and (h : Ensures m w Q) (h' : Ensures m w Q') :
    Ensures m w fun a w' => Q a w' ∧ Q' a w' := by
  unfold Ensures at h h' ⊢
  generalize m w = result at h h' ⊢
  cases result with
  | ok r => exact ⟨h, h'⟩
  | error halt =>
    cases halt with
    | fault f => exact h
    | outOfFuel => trivial

theorem Ensures.and_run (h : Ensures m w Q) : Ensures m w fun a w' => m w = .ok (a, w') ∧ Q a w' := by
  unfold Ensures at h ⊢
  generalize m w = result at h ⊢
  cases result with
  | ok r => exact ⟨rfl, h⟩
  | error halt =>
    cases halt with
    | fault f => exact h
    | outOfFuel => trivial

theorem Ensures.of_ok {a : α} {w' : World δ} (h : Ensures m w Q) (hm : m w = .ok (a, w')) :
    Q a w' := by
  simpa only [Ensures, hm] using h

theorem ensures_of_eq_ok {a : α} {w' : World δ} (h : m w = .ok (a, w')) :
    Ensures m w Q ↔ Q a w' := by
  rw [Ensures, h]

theorem Ensures.ne_fault (h : Ensures m w Q) (f : Fault) : m w ≠ .error (.fault f) := by
  intro hm
  simp only [Ensures, hm] at h

@[simp] theorem ensures_pure (a : α) : Ensures (pure a : Net δ α) w Q ↔ Q a w := Iff.rfl

@[simp] theorem ensures_bind (f : α → Net δ β) (R : β → World δ → Prop) :
    Ensures (m >>= f) w R ↔ Ensures m w fun a w' => Ensures (f a) w' R := by
  have hb : (m >>= f) w = m w >>= fun r => f r.1 r.2 := rfl
  unfold Ensures
  rw [hb]
  cases m w with
  | ok r => rfl
  | error halt => cases halt <;> rfl

@[simp] theorem ensures_get (Q : World δ → World δ → Prop) :
    Ensures (get : Net δ (World δ)) w Q ↔ Q w w := Iff.rfl

@[simp] theorem ensures_modify (f : World δ → World δ) (Q : PUnit → World δ → Prop) :
    Ensures (modify f : Net δ PUnit) w Q ↔ Q ⟨⟩ (f w) := Iff.rfl

@[simp] theorem ensures_modifyGet (f : World δ → α × World δ) :
    Ensures (modifyGet f : Net δ α) w Q ↔ Q (f w).1 (f w).2 := Iff.rfl

@[simp] theorem ensures_check_ok (a : α) :
    Ensures (check (.ok a) : Net δ α) w Q ↔ Q a w := Iff.rfl

theorem ensures_check {r : Except Fault α} {a : α} (h : r = .ok a) :
    Ensures (check r : Net δ α) w Q ↔ Q a w := by
  rw [h, ensures_check_ok]

end Net

namespace Attempt

/-- What an attempt is sure to come to, whether it succeeds or fails. -/
def Ensures (a : Attempt δ α) (w : World δ) (Q : Except NetError α → World δ → Prop) : Prop :=
  Net.Ensures a.run w Q

variable {a : Attempt δ α} {w : World δ} {Q Q' : Except NetError α → World δ → Prop}

theorem Ensures.mono (h : Ensures a w Q) (hQ : ∀ r w', Q r w' → Q' r w') : Ensures a w Q' :=
  Net.Ensures.mono h hQ

@[simp] theorem ensures_run : Net.Ensures a.run w Q ↔ Ensures a w Q := Iff.rfl

theorem ensures_of_run_eq {r : Except NetError α} {w' : World δ} (h : a.run w = .ok (r, w')) :
    Ensures a w Q ↔ Q r w' :=
  Net.ensures_of_eq_ok h

@[simp] theorem ensures_pure (x : α) : Ensures (pure x : Attempt δ α) w Q ↔ Q (.ok x) w := Iff.rfl

@[simp] theorem ensures_throw (e : NetError) :
    Ensures (throw e : Attempt δ α) w Q ↔ Q (.error e) w := Iff.rfl

@[simp] theorem ensures_bind (f : α → Attempt δ β) (R : Except NetError β → World δ → Prop) :
    Ensures (a >>= f) w R ↔ Ensures a w fun r w' =>
      match r with
      | .ok x => Ensures (f x) w' R
      | .error e => R (.error e) w' := by
  unfold Ensures
  have hb : (a >>= f).run = a.run >>= fun r =>
      match r with
      | .ok x => (f x).run
      | .error e => pure (.error e) := by
    rw [ExceptT.run_bind]
    exact bind_congr fun r => by cases r <;> rfl
  rw [hb, Net.ensures_bind]
  constructor <;> intro h <;> refine h.mono fun r w' hr => ?_ <;> cases r <;> exact hr

@[simp] theorem ensures_lift (m : Net δ α) :
    Ensures (liftM m : Attempt δ α) w Q ↔ Net.Ensures m w fun x w' => Q (.ok x) w' := by
  change Net.Ensures (m >>= fun x => pure (Except.ok x)) w Q ↔ _
  simp only [Net.ensures_bind, Net.ensures_pure]

@[simp] theorem ensures_get (Q : Except NetError (World δ) → World δ → Prop) :
    Ensures (get : Attempt δ (World δ)) w Q ↔ Q (.ok w) w := Iff.rfl

@[simp] theorem ensures_modify (f : World δ → World δ)
    (Q : Except NetError PUnit → World δ → Prop) :
    Ensures (modify f : Attempt δ PUnit) w Q ↔ Q (.ok ⟨⟩) (f w) := Iff.rfl

@[simp] theorem ensures_modifyGet (f : World δ → α × World δ) :
    Ensures (modifyGet f : Attempt δ α) w Q ↔ Q (.ok (f w).1) (f w).2 := Iff.rfl

@[simp] theorem ensures_mk (m : Net δ (Except NetError α)) :
    Ensures (ExceptT.mk m) w Q ↔ Net.Ensures m w Q := Iff.rfl

@[simp] theorem ensures_ofExcept (r : Except NetError α) :
    Ensures (ofExcept r) w Q ↔ Q r w := Iff.rfl

@[simp] theorem ensures_outcome (Q : Except NetError (Except NetError α) → World δ → Prop) :
    Ensures a.outcome w Q ↔ Ensures a w fun r w' => Q (.ok r) w' :=
  ensures_lift a.run

@[simp] theorem ensures_adapt (g : NetError → NetError) :
    Ensures (ExceptT.adapt g a) w Q ↔ Ensures a w fun r w' => Q (r.mapError g) w' := by
  change Net.Ensures (Except.mapError g <$> a.run) w Q ↔ _
  rw [← bind_pure_comp, Net.ensures_bind]
  rfl

theorem mapError_ok (g : NetError → NetError) (x : α) :
    (Except.ok x : Except NetError α).mapError g = .ok x := rfl

theorem ensures_check {r : Except Fault α} {x : α} (h : r = .ok x) :
    Ensures (Net.check r : Attempt δ α) w Q ↔ Q (.ok x) w := by
  subst h
  rfl

end Attempt

end InetHost
