import InetHost.Proofs.Spelling

/-! Decimal numerals. A numeral is read as the value that its digits spell, and it is the one that is
written for this value if and only if it has no zero in front. -/

namespace InetHost.Numeral

def value (digits : List Char) : Nat := Nat.ofDigitChars 10 digits 0

def Padded (digits : List Char) : Prop := 1 < digits.length ∧ digits.head? = some '0'

variable {c : Char} {digits : List Char}

theorem digit_lt (h : c.isDigit = true) : c.toNat - 48 < 10 := by
  have hc := isDigit_iff.1 h
  omega

theorem toDigits_digit (h : c.isDigit = true) : Nat.toDigits 10 (c.toNat - 48) = [c] := by
  have hc := isDigit_iff.1 h
  have hchar : Nat.digitChar (c.toNat - 48) = c := by
    apply Char.toNat_inj.1
    rw [Nat.toNat_digitChar_of_lt_ten (digit_lt h)]
    omega
  rw [Nat.toDigits_of_lt_base (digit_lt h), hchar]

theorem digit?_ten_eq_some_iff {d : Nat} :
    digit? 10 c = some d ↔ c.isDigit = true ∧ c.toNat - 48 = d :=
  (digit?_eq_some_iff (by decide)).trans stands_ten_iff

theorem extend?_ten_eq_some_iff {n v : Nat} : extend? 10 n digits = some v ↔
    (∀ c ∈ digits, c.isDigit = true) ∧ Nat.ofDigitChars 10 digits n = v := by
  induction digits generalizing n with
  | nil =>
    rw [extend?, Option.some.injEq, Nat.ofDigitChars_nil]
    exact (and_iff_right (List.forall_mem_nil _)).symm
  | cons c digits ih =>
    simp only [extend?, Option.bind_eq_some_iff, digit?_ten_eq_some_iff, ih, List.forall_mem_cons,
      Nat.ofDigitChars_cons]
    constructor
    · rintro ⟨_, ⟨hc, rfl⟩, hd, hv⟩
      exact ⟨⟨hc, hd⟩, hv⟩
    · rintro ⟨⟨hc, hd⟩, hv⟩
      exact ⟨_, ⟨hc, rfl⟩, hd, hv⟩

theorem spells_ten_iff {v : Nat} : Spells 10 digits v ↔
    digits ≠ [] ∧ (∀ c ∈ digits, c.isDigit = true) ∧ value digits = v := by
  rw [← value?_eq_some_iff (by decide)]
  cases digits with
  | nil => exact iff_of_false (Option.some_ne_none v).symm fun h => h.1 rfl
  | cons c digits =>
    rw [value?]
    · exact extend?_ten_eq_some_iff.trans (and_iff_right (List.cons_ne_nil c digits)).symm
    · exact List.cons_ne_nil c digits

theorem octet?_ten_eq_some_iff {b : UInt8} : octet? 10 digits = some b ↔
    digits ≠ [] ∧ (∀ c ∈ digits, c.isDigit = true) ∧ value digits = b.toNat := by
  rw [octet?_eq_some_iff (by decide), spells_ten_iff]

theorem value_eq_ofDigitChars (c : Char) (digits : List Char) :
    value (c :: digits) = Nat.ofDigitChars 10 digits (c.toNat - 48) := by
  rw [value, Nat.ofDigitChars_cons, Nat.mul_zero, Nat.zero_add]
  rfl

theorem value_cons (c : Char) (digits : List Char) :
    value (c :: digits) = 10 ^ digits.length * (c.toNat - 48) + value digits := by
  rw [value_eq_ofDigitChars, Nat.ofDigitChars_eq_ofDigitChars_zero]
  rfl

theorem value_lt (hd : ∀ c ∈ digits, c.isDigit = true) : value digits < 10 ^ digits.length := by
  induction digits with
  | nil => exact Nat.one_pos
  | cons c digits ih =>
    obtain ⟨hc, hd⟩ := List.forall_mem_cons.1 hd
    have hle : c.toNat - 48 ≤ 9 := Nat.sub_le_of_le_add (isDigit_iff.1 hc).2
    have hlt := ih hd
    calc value (c :: digits) = 10 ^ digits.length * (c.toNat - 48) + value digits := value_cons c digits
      _ < 10 ^ digits.length * 9 + 10 ^ digits.length :=
        Nat.add_lt_add_of_le_of_lt (Nat.mul_le_mul_left _ hle) hlt
      _ = 10 ^ (c :: digits).length := by rw [List.length_cons, Nat.pow_succ, ← Nat.mul_succ]

theorem toDigits_append (hd : ∀ c ∈ digits, c.isDigit = true) {n : Nat} (hn : 0 < n) :
    Nat.toDigits 10 n ++ digits = Nat.toDigits 10 (Nat.ofDigitChars 10 digits n) := by
  induction digits generalizing n with
  | nil => rw [List.append_nil, Nat.ofDigitChars_nil]
  | cons c digits ih =>
    obtain ⟨hc, hd⟩ := List.forall_mem_cons.1 hd
    have hstep : Nat.toDigits 10 n ++ [c] = Nat.toDigits 10 (10 * n + (c.toNat - 48)) := by
      rw [← Nat.toDigits_append_toDigits (by decide) hn (digit_lt hc), toDigits_digit hc]
    rw [Nat.ofDigitChars_cons]
    change _ = Nat.toDigits 10 (Nat.ofDigitChars 10 digits (10 * n + (c.toNat - 48)))
    rw [← ih hd (by omega), ← hstep, List.append_assoc, List.singleton_append]

theorem value_toDigits (n : Nat) : value (Nat.toDigits 10 n) = n := Nat.ofDigitChars_ten_toDigits

theorem toDigits_value_ne (hd : ∀ c ∈ digits, c.isDigit = true) (hp : Padded digits) :
    Nat.toDigits 10 (value digits) ≠ digits := by
  intro h
  obtain ⟨hl, hz⟩ := hp
  obtain ⟨rest, rfl⟩ := List.head?_eq_some_iff.1 hz
  have hvalue : value ('0' :: rest) = value rest := by
    rw [value_cons]
    exact Nat.zero_add _
  have hle : (Nat.toDigits 10 (value rest)).length ≤ rest.length :=
    (Nat.length_toDigits_le_iff (by decide) (Nat.lt_of_succ_lt_succ hl)).2
      (value_lt (List.forall_mem_cons.1 hd).2)
  rw [← hvalue, h, List.length_cons] at hle
  exact absurd hle (Nat.not_succ_le_self _)

theorem toDigits_value_iff (hne : digits ≠ []) (hd : ∀ c ∈ digits, c.isDigit = true) :
    Nat.toDigits 10 (value digits) = digits ↔ ¬Padded digits := by
  refine ⟨fun h hp => toDigits_value_ne hd hp h, fun hp => ?_⟩
  obtain ⟨c, rest, rfl⟩ := List.exists_cons_of_ne_nil hne
  obtain ⟨hc, hrest⟩ := List.forall_mem_cons.1 hd
  have hdigit := toDigits_digit hc
  rw [value_eq_ofDigitChars]
  rcases Nat.eq_zero_or_pos (c.toNat - 48) with hz | hpos
  · -- Zero is the only digit of that value, and nothing may follow it.
    have hzero : c = '0' := by
      rw [hz] at hdigit
      exact (List.cons.inj hdigit).1.symm
    have hnil : rest = [] := by
      rw [← List.length_eq_zero_iff]
      refine Nat.eq_zero_of_not_pos fun hpos => hp ⟨Nat.succ_lt_succ hpos, ?_⟩
      rw [hzero, List.head?_cons]
    rw [hnil, Nat.ofDigitChars_nil, hdigit]
  · rw [← toDigits_append hrest hpos, hdigit, List.singleton_append]

end InetHost.Numeral
