import InetHost.Ipv4.Address
import InetHost.Proofs.Numeral
import InetHost.Proofs.Sequence

/-! Dotted quads. The texts that are read as addresses are four parts of one to three decimal digits each,
none above 255; every address is read back from the text that is written for it, and that text is the one it
was read from unless a part had a zero in front. -/

namespace InetHost.Ipv4.Address

open Numeral Sequence

structure IsPart (part : List Char) : Prop where
  one_le : 1 ≤ part.length
  le : part.length ≤ 3
  digits : ∀ c ∈ part, c.isDigit = true
  value_le : value part ≤ 255

instance (part : List Char) : Decidable (IsPart part) :=
  decidable_of_iff
    (1 ≤ part.length ∧ part.length ≤ 3 ∧ part.all Char.isDigit = true ∧ value part ≤ 255)
    ⟨fun ⟨h₁, h₂, h₃, h₄⟩ => ⟨h₁, h₂, List.all_eq_true.1 h₃, h₄⟩,
      fun ⟨h₁, h₂, h₃, h₄⟩ => ⟨h₁, h₂, List.all_eq_true.2 h₃, h₄⟩⟩

section Part

variable {part : List Char} {b : UInt8}

theorem part?_eq_some_iff : part? part = some b ↔ IsPart part ∧ value part = b.toNat := by
  have hb := b.toNat_lt
  rw [part?, Option.ite_none_right_eq_some, octet?_ten_eq_some_iff]
  constructor
  · rintro ⟨hl, hne, hd, hv⟩
    exact ⟨⟨List.length_pos_iff.2 hne, hl, hd, by omega⟩, hv⟩
  · rintro ⟨h, hv⟩
    exact ⟨h.le, List.length_pos_iff.1 h.one_le, h.digits, hv⟩

theorem IsPart.dot_notMem (h : IsPart part) : '.' ∉ part :=
  fun hm => absurd (h.digits '.' hm) (by decide)

theorem IsPart.toDigits_iff (h : IsPart part) :
    Nat.toDigits 10 (value part) = part ↔ ¬Padded part :=
  toDigits_value_iff (List.length_pos_iff.1 h.one_le) h.digits

theorem isPart_toDigits (b : UInt8) : IsPart (Nat.toDigits 10 b.toNat) where
  one_le := Nat.length_toDigits_pos
  le := (Nat.length_toDigits_le_iff (by decide) (by decide)).2 (Nat.lt_trans b.toNat_lt (by decide))
  digits := fun _ hc => Nat.isDigit_of_mem_toDigits (by decide) (by decide) hc
  value_le := by
    rw [value_toDigits]
    exact Nat.le_of_lt_succ b.toNat_lt

end Part

theorem ofParts?_eq_some_iff {octets : List UInt8} {ip : Address} :
    ofParts? octets = some ip ↔ octets = Bytes.word32 ip := by
  constructor
  · intro h
    match octets, h with
    | [a, b, c, d], h =>
      obtain rfl := Option.some.inj h
      exact (Bytes.word32_join32 a b c d).symm
  · rintro rfl
    exact congrArg some (Bytes.join32_word32 ip)

section Quad

variable {text : String} {ip : Address}

theorem parse?_eq_some_iff : parse? text = some ip ↔
    List.Forall₂ (fun part b => IsPart part ∧ value part = b.toNat) (text.toList.splitOn '.')
      (Bytes.word32 ip) := by
  rw [parse?, Option.bind_eq_some_iff]
  simp only [ofParts?_eq_some_iff, mapM_eq_some_iff, exists_eq_right, part?_eq_some_iff]

def parts (ip : Address) : List (List Char) := (Bytes.word32 ip).map fun b => Nat.toDigits 10 b.toNat

theorem toList_text (ip : Address) : (Address.text ip).toList = ['.'].intercalate (parts ip) := by
  have hdigits (b : UInt8) : (decimal b.toNat).toList = Nat.toDigits 10 b.toNat := String.toList_ofList
  rw [Address.text, String.toList_intercalate, List.map_map]
  simp only [Function.comp_def, hdigits]
  rfl

theorem splitOn_text (ip : Address) : (Address.text ip).toList.splitOn '.' = parts ip := by
  rw [toList_text, List.splitOn_intercalate]
  · intro part hm
    obtain ⟨b, -, rfl⟩ := List.mem_map.1 hm
    exact (isPart_toDigits b).dot_notMem
  · exact List.cons_ne_nil _ _

theorem text_eq_iff : Address.text ip = text ↔ text.toList.splitOn '.' = parts ip := by
  constructor
  · rintro rfl
    exact splitOn_text ip
  · intro h
    apply String.toList_inj.1
    rw [toList_text, ← h, List.intercalate_splitOn]

theorem parse?_text (ip : Address) : parse? (Address.text ip) = some ip := by
  rw [parse?_eq_some_iff, splitOn_text, parts, List.forall₂_map_left_iff, List.forall₂_same]
  exact fun b _ => ⟨isPart_toDigits b, value_toDigits b.toNat⟩

theorem forall₂_word32_iff {parts : List (List Char)} :
    List.Forall₂ (fun part b => IsPart part ∧ value part = b.toNat) parts (Bytes.word32 ip) ↔
      ∃ a b c d, parts = [a, b, c, d] ∧ (IsPart a ∧ IsPart b ∧ IsPart c ∧ IsPart d) ∧
        ip.toNat = ((value a * 256 + value b) * 256 + value c) * 256 + value d := by
  have hip := ip.toNat_lt
  simp only [Bytes.word32, List.forall₂_cons_right_iff, List.forall₂_nil_right_iff, UInt8.toNat_ofNat']
  constructor
  · rintro ⟨a, _, ⟨ha, hva⟩, ⟨b, _, ⟨hb, hvb⟩, ⟨c, _, ⟨hc, hvc⟩, ⟨d, _, ⟨hd, hvd⟩, rfl, rfl⟩, rfl⟩,
      rfl⟩, rfl⟩
    exact ⟨a, b, c, d, rfl, ⟨ha, hb, hc, hd⟩, by omega⟩
  · rintro ⟨a, b, c, d, rfl, ⟨ha, hb, hc, hd⟩, hv⟩
    have hla := ha.value_le
    have hlb := hb.value_le
    have hlc := hc.value_le
    have hld := hd.value_le
    exact ⟨a, _, ⟨ha, by omega⟩, ⟨b, _, ⟨hb, by omega⟩, ⟨c, _, ⟨hc, by omega⟩,
      ⟨d, _, ⟨hd, by omega⟩, rfl, rfl⟩, rfl⟩, rfl⟩, rfl⟩

theorem splitOn_eq_iff {a b c d : List Char} (ha : IsPart a) (hb : IsPart b) (hc : IsPart c)
    (hd : IsPart d) : text.toList.splitOn '.' = [a, b, c, d] ↔
      text.toList = a ++ '.' :: (b ++ '.' :: (c ++ '.' :: d)) := by
  constructor
  · intro h
    have hjoin : ['.'].intercalate (text.toList.splitOn '.') = text.toList :=
      List.intercalate_splitOn '.'
    rw [← hjoin, h]
    simp only [List.intercalate_cons_cons, List.intercalate_singleton, List.append_assoc,
      List.singleton_append]
  · intro h
    rw [h, List.splitOn_append_cons_self_of_not_mem ha.dot_notMem,
      List.splitOn_append_cons_self_of_not_mem hb.dot_notMem,
      List.splitOn_append_cons_self_of_not_mem hc.dot_notMem, List.splitOn_eq_singleton hd.dot_notMem]

theorem eq_map_toDigits_iff {parts : List (List Char)} {octets : List UInt8}
    (h : List.Forall₂ (fun part b => IsPart part ∧ value part = b.toNat) parts octets) :
    (parts = octets.map fun b => Nat.toDigits 10 b.toNat) ↔ ∀ part ∈ parts, ¬Padded part := by
  induction h with
  | nil => exact ⟨fun _ => nofun, fun _ => rfl⟩
  | @cons part b parts octets hp _ ih =>
    obtain ⟨hp, hv⟩ := hp
    rw [List.map_cons, List.cons.injEq, List.forall_mem_cons, ← ih, ← hp.toDigits_iff, hv]
    exact and_congr_left fun _ => eq_comm

end Quad

/-- Exactly the dotted quads are read, and every address is read back from its own text. -/
theorem quads_read_exactly (text : String) (ip : Address) :
    (parse? text = some ip ↔ ∃ a b c d, text.toList = a ++ '.' :: (b ++ '.' :: (c ++ '.' :: d)) ∧
      (IsPart a ∧ IsPart b ∧ IsPart c ∧ IsPart d) ∧
      ip.toNat = ((value a * 256 + value b) * 256 + value c) * 256 + value d) ∧
    parse? (Address.text ip) = some ip ∧
    (parse? text = some ip →
      (Address.text ip = text ↔ ∀ part ∈ text.toList.splitOn '.', ¬Padded part)) := by
  refine ⟨?_, parse?_text ip, fun h => ?_⟩
  · rw [parse?_eq_some_iff, forall₂_word32_iff]
    constructor
    · rintro ⟨a, b, c, d, hs, hp, hv⟩
      exact ⟨a, b, c, d, (splitOn_eq_iff hp.1 hp.2.1 hp.2.2.1 hp.2.2.2).1 hs, hp, hv⟩
    · rintro ⟨a, b, c, d, ht, hp, hv⟩
      exact ⟨a, b, c, d, (splitOn_eq_iff hp.1 hp.2.1 hp.2.2.1 hp.2.2.2).2 ht, hp, hv⟩
  · rw [text_eq_iff]
    exact eq_map_toDigits_iff (parse?_eq_some_iff.1 h)

theorem quads_read_exactly_padded : parse? "10.0.0.07" = some 0x0A000007 ∧
    Address.text 0x0A000007 ≠ "10.0.0.07" := by
  obtain ⟨hread, -, htext⟩ := quads_read_exactly "10.0.0.07" 0x0A000007
  have h : parse? "10.0.0.07" = some 0x0A000007 :=
    hread.2 ⟨['1', '0'], ['0'], ['0'], ['0', '7'], by decide, by decide, by decide⟩
  refine ⟨h, fun he => (htext h).1 he ['0', '7'] ?_ ⟨by decide, by decide⟩⟩
  decide

end InetHost.Ipv4.Address
