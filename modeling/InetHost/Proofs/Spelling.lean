import Mathlib.Data.List.Forall2
import Mathlib.Data.Nat.Digits.Defs
import InetHost.Text.Numeral

/-! Numerals in bases up to sixteen, by the digits that their characters stand for. What is read from a
numeral is the number that it spells, and whatever is written for a number spells it, with zeros in front or
without. -/

namespace InetHost.Numeral

def Stands (base : Nat) (c : Char) (d : Nat) : Prop := d < base ∧ c.toLower = Nat.digitChar d

def extend (base n : Nat) (ds : List Nat) : Nat := ds.foldl (fun n d => base * n + d) n

/-- One or more digits, and the number that they spell. -/
def Spells (base : Nat) (digits : List Char) (n : Nat) : Prop :=
  digits ≠ [] ∧ ∃ ds, List.Forall₂ (Stands base) digits ds ∧ extend base 0 ds = n

variable {base n m d : Nat} {c : Char} {digits : List Char}

section Digit

theorem toNat_toLower (c : Char) :
    c.toLower.toNat = if 65 ≤ c.toNat ∧ c.toNat ≤ 90 then c.toNat + 32 else c.toNat := by
  have hupper : (c.val ≥ 'A'.val ∧ c.val ≤ 'Z'.val) ↔ 65 ≤ c.toNat ∧ c.toNat ≤ 90 := Iff.rfl
  unfold Char.toLower
  split
  · rename_i h
    rw [if_pos (hupper.1 h)]
    have hle : c.toNat ≤ 90 := (hupper.1 h).2
    change (c.val + 32).toNat = c.toNat + 32
    rw [UInt32.toNat_add]
    change (c.toNat + 32) % 2 ^ 32 = c.toNat + 32
    omega
  · rename_i h
    rw [if_neg (fun hc => h (hupper.2 hc))]

theorem toNat_digitChar (h : d < 16) :
    (Nat.digitChar d).toNat = if d < 10 then d + 48 else d + 87 := by
  decide +revert

theorem toLower_eq_digitChar_iff (h : d < 16) : c.toLower = Nat.digitChar d ↔
    d < 10 ∧ c.toNat = d + 48 ∨ 10 ≤ d ∧ (c.toNat = d + 87 ∨ c.toNat = d + 55) := by
  rw [← Char.toNat_inj, toNat_toLower, toNat_digitChar h]
  split_ifs <;> omega

theorem digit?_eq_some_iff (hb : base ≤ 16) : digit? base c = some d ↔ Stands base c d := by
  have hdigit : '0' ≤ c ∧ c ≤ '9' ↔ 48 ≤ c.toNat ∧ c.toNat ≤ 57 := Iff.rfl
  have hlower : 'a' ≤ c ∧ c ≤ 'z' ↔ 97 ≤ c.toNat ∧ c.toNat ≤ 122 := Iff.rfl
  have hupper : 'A' ≤ c ∧ c ≤ 'Z' ↔ 65 ≤ c.toNat ∧ c.toNat ≤ 90 := Iff.rfl
  rw [digit?, Option.filter_eq_some_iff, Stands, and_comm, decide_eq_true_iff]
  refine and_congr_right fun hd => ?_
  rw [toLower_eq_digitChar_iff (Nat.lt_of_lt_of_le hd hb)]
  simp only [hdigit, hlower, hupper]
  split_ifs with h₁ h₂ h₃
  · rw [Option.some.injEq]
    omega
  · rw [Option.some.injEq]
    omega
  · rw [Option.some.injEq]
    omega
  · exact iff_of_false nofun (by omega)

theorem stands_digitChar (hb : base ≤ 16) (hd : d < base) : Stands base (Nat.digitChar d) d := by
  have hlt := Nat.lt_of_lt_of_le hd hb
  refine ⟨hd, (toLower_eq_digitChar_iff hlt).2 ?_⟩
  rw [toNat_digitChar hlt]
  split_ifs <;> omega

theorem isAlphanum_iff : c.isAlphanum = true ↔ (65 ≤ c.toNat ∧ c.toNat ≤ 90 ∨
    97 ≤ c.toNat ∧ c.toNat ≤ 122) ∨ 48 ≤ c.toNat ∧ c.toNat ≤ 57 := by
  change ((decide (c.val ≥ 'A'.val ∧ c.val ≤ 'Z'.val) || (c.val ≥ 'a'.val && c.val ≤ 'z'.val)) ||
    (c.val ≥ '0'.val && c.val ≤ '9'.val)) = true ↔ _
  simp only [Bool.or_eq_true, Bool.and_eq_true, decide_eq_true_eq]
  exact Iff.rfl

theorem Stands.isAlphanum (hb : base ≤ 16) (h : Stands base c d) : c.isAlphanum = true := by
  have hc := (toLower_eq_digitChar_iff (Nat.lt_of_lt_of_le h.1 hb)).1 h.2
  have hd := h.1
  rw [isAlphanum_iff]
  omega

theorem isDigit_iff : c.isDigit = true ↔ 48 ≤ c.toNat ∧ c.toNat ≤ 57 := Char.isDigit_iff_toNat

theorem stands_ten_iff : Stands 10 c d ↔ c.isDigit = true ∧ c.toNat - 48 = d := by
  rw [Stands, isDigit_iff]
  constructor
  · rintro ⟨hd, hc⟩
    have hc := (toLower_eq_digitChar_iff (Nat.lt_trans hd (by decide))).1 hc
    omega
  · rintro ⟨hc, rfl⟩
    have hd : c.toNat - 48 < 10 := by omega
    refine ⟨hd, (toLower_eq_digitChar_iff (Nat.lt_trans hd (by decide))).2 ?_⟩
    omega

end Digit

theorem Spells.isAlphanum (hb : base ≤ 16) (h : Spells base digits n) :
    ∀ c ∈ digits, c.isAlphanum = true := by
  obtain ⟨-, ds, hds, -⟩ := h
  induction hds with
  | nil => exact nofun
  | cons hs _ ih => exact List.forall_mem_cons.2 ⟨hs.isAlphanum hb, ih⟩

theorem extend?_eq_some_iff (hb : base ≤ 16) : extend? base m digits = some n ↔
    ∃ ds, List.Forall₂ (Stands base) digits ds ∧ extend base m ds = n := by
  induction digits generalizing m with
  | nil =>
    simp only [extend?, Option.some.injEq, List.forall₂_nil_left_iff, exists_eq_left]
    exact Iff.rfl
  | cons c digits ih =>
    simp only [extend?, Option.bind_eq_some_iff, digit?_eq_some_iff hb, ih,
      List.forall₂_cons_left_iff]
    constructor
    · rintro ⟨d, hd, ds, hds, hn⟩
      exact ⟨d :: ds, ⟨d, ds, hd, hds, rfl⟩, hn⟩
    · rintro ⟨_, ⟨d, ds, hd, hds, rfl⟩, hn⟩
      exact ⟨d, hd, ds, hds, hn⟩

theorem value?_eq_some_iff (hb : base ≤ 16) : value? base digits = some n ↔ Spells base digits n := by
  cases digits with
  | nil => exact iff_of_false nofun fun h => h.1 rfl
  | cons c digits =>
    rw [value?]
    · exact (extend?_eq_some_iff hb).trans (and_iff_right (List.cons_ne_nil c digits)).symm
    · exact List.cons_ne_nil c digits

theorem Spells.unique (hb : base ≤ 16) (hn : Spells base digits n) (hm : Spells base digits m) : n = m :=
  Option.some.inj (((value?_eq_some_iff hb).2 hn).symm.trans ((value?_eq_some_iff hb).2 hm))

theorem octet?_eq_some_iff (hb : base ≤ 16) {b : UInt8} :
    octet? base digits = some b ↔ Spells base digits b.toNat := by
  simp only [octet?, Option.map_eq_some_iff, Option.filter_eq_some_iff, value?_eq_some_iff hb,
    decide_eq_true_iff]
  constructor
  · rintro ⟨n, ⟨hn, hlt⟩, rfl⟩
    rwa [UInt8.toNat_ofNat_of_lt' hlt]
  · intro h
    exact ⟨_, ⟨h, b.toNat_lt⟩, UInt8.ofNat_toNat⟩

theorem spells_zeros (h : Spells base digits n) (hb : 0 < base) (count : Nat) :
    Spells base (List.replicate count '0' ++ digits) n := by
  induction count with
  | zero => exact h
  | succ count ih =>
    obtain ⟨-, ds, hds, hn⟩ := ih
    refine ⟨List.cons_ne_nil _ _, 0 :: ds, .cons ⟨hb, rfl⟩ hds, ?_⟩
    rwa [extend, List.foldl_cons, Nat.mul_zero]

theorem spells_toDigits (hb : base ≤ 16) (h1 : 1 < base) (n : Nat) : Spells base (Nat.toDigits base n) n := by
  induction n using Nat.strongRecOn with
  | ind n ih =>
    by_cases hlt : n < base
    · rw [Nat.toDigits_of_lt_base hlt]
      refine ⟨List.cons_ne_nil _ _, [n], .cons (stands_digitChar hb hlt) .nil, ?_⟩
      rw [extend, List.foldl_cons, Nat.mul_zero, Nat.zero_add, List.foldl_nil]
    · have hpos : 0 < base := Nat.zero_lt_of_lt h1
      have hrest : n % base < base := Nat.mod_lt n hpos
      obtain ⟨-, ds, hds, hn⟩ := ih (n / base) (Nat.div_lt_self (by omega) h1)
      have hdigits : Nat.toDigits base n = Nat.toDigits base (n / base) ++ [Nat.digitChar (n % base)] := by
        rw [← Nat.toDigits_of_lt_base hrest, Nat.toDigits_append_toDigits h1
          (Nat.div_pos (Nat.le_of_not_lt hlt) hpos) hrest, Nat.div_add_mod]
      rw [hdigits]
      refine ⟨List.append_ne_nil_of_right_ne_nil _ (List.cons_ne_nil _ _), ds ++ [n % base],
        List.rel_append hds (.cons (stands_digitChar hb hrest) .nil), ?_⟩
      rw [extend, List.foldl_append]
      change base * extend base 0 ds + n % base = n
      rw [hn, Nat.div_add_mod]

theorem spells_decimal (n : Nat) : Spells 10 (decimal n).toList n := by
  rw [decimal, String.toList_ofList]
  exact spells_toDigits (by decide) (by decide) n

theorem spells_hex (width n : Nat) : Spells 16 (hex width n).toList n := by
  rw [hex, String.toList_ofList]
  exact spells_zeros (spells_toDigits (by decide) (by decide) n) (by decide) _

end InetHost.Numeral
