import InetHost.Error

/-! Tables with a fixed number of slots are searched from slot zero upwards. A handle is the number of
a slot that is in use. -/

namespace InetHost.Slots

variable {n : Nat} {p : Fin n → Bool} {i : Fin n}

def first? (p : Fin n → Bool) : Option (Fin n) := (List.finRange n).find? p

def ofHandle (inUse : Fin n → Bool) (handle : Nat) : Except NetError (Fin n) :=
  if h : handle < n then
    if inUse ⟨handle, h⟩ then .ok ⟨handle, h⟩ else .error .badHandle
  else .error .badHandle

theorem first?_eq_none_iff : first? p = none ↔ ∀ i, p i = false := by
  simp [first?, List.find?_eq_none]

theorem of_first?_eq_some (h : first? p = some i) : p i = true := List.find?_some h

theorem not_of_lt_first? {j : Fin n} (h : first? p = some i) (hj : j < i) : p j = false := by
  obtain ⟨-, k, hk, rfl, hlt⟩ := List.find?_eq_some_iff_getElem.1 h
  simp only [List.getElem_finRange] at hj hlt
  simpa using hlt j.1 (by simpa [Fin.lt_def] using hj)

theorem ofHandle_eq_ok {inUse : Fin n → Bool} (h : inUse i = true) : ofHandle inUse i = .ok i := by
  rw [ofHandle, dif_pos i.isLt, if_pos h]

theorem of_ofHandle_eq_ok {inUse : Fin n → Bool} {handle : Nat} (h : ofHandle inUse handle = .ok i) :
    i.val = handle ∧ inUse i = true := by
  unfold ofHandle at h
  split at h
  · split at h
    · rename_i hu
      obtain rfl := Except.ok.inj h
      exact ⟨rfl, hu⟩
    · cases h
  · cases h

theorem eq_badHandle_of_ofHandle {inUse : Fin n → Bool} {handle : Nat} {e : NetError}
    (h : ofHandle inUse handle = .error e) : e = .badHandle := by
  unfold ofHandle at h
  split at h
  · split at h
    · cases h
    · exact (Except.error.inj h).symm
  · exact (Except.error.inj h).symm

theorem getElem_set {α : Type} (v : Vector α n) (i j : Fin n) (a : α) :
    (v.set i a)[j] = if i = j then a else v[j] := by
  simp only [Fin.getElem_fin, Vector.getElem_set, Fin.ext_iff]

end InetHost.Slots
