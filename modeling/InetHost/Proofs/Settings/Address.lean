import Mathlib.Data.List.DropRight
import InetHost.Proofs.Ipv4.Quad
import InetHost.Settings.Resolved

/-! Addresses as the settings give them. A part of one is a numeral with white space around it, which may have
a plus sign and any number of zeros in front. Without the white space it is a part of a dotted quad as a host
reads it unless it has a sign or more than three characters. -/

namespace InetHost.Blank

variable {c : Char} {cs before core after : List Char}

theorem trim_eq (cs : List Char) : trim cs = (cs.dropWhile isBlank).rdropWhile isBlank := rfl

theorem trim_infix (cs : List Char) : trim cs <:+: cs :=
  (List.rdropWhile_prefix isBlank _).isInfix.trans (List.dropWhile_suffix isBlank).isInfix

theorem exists_eq_append_trim (cs : List Char) : ∃ before after, cs = before ++ trim cs ++ after ∧
    (∀ c ∈ before, isBlank c = true) ∧ ∀ c ∈ after, isBlank c = true := by
  refine ⟨cs.takeWhile isBlank, (cs.dropWhile isBlank).rtakeWhile isBlank, ?_, ?_, ?_⟩
  · rw [List.append_assoc, trim_eq, List.rdropWhile_append_rtakeWhile, List.takeWhile_append_dropWhile]
  · exact fun c hc => List.mem_takeWhile_imp hc
  · exact fun c hc => List.mem_rtakeWhile_imp hc

theorem not_isBlank_of_isAlphanum (h : c.isAlphanum = true) : isBlank c = false := by
  have hc := Numeral.isAlphanum_iff.1 h
  simp only [isBlank, ranges, List.any_cons, List.any_nil, Bool.or_false, Bool.or_eq_false_iff,
    Bool.and_eq_false_iff, decide_eq_false_iff_not]
  omega

theorem dropWhile_of_forall (hc : ∀ c ∈ core, isBlank c = false) : core.dropWhile isBlank = core := by
  cases core with
  | nil => rfl
  | cons c core => rw [List.dropWhile_cons, hc c List.mem_cons_self, if_neg Bool.false_ne_true]

theorem trim_append (hb : ∀ c ∈ before, isBlank c = true) (ha : ∀ c ∈ after, isBlank c = true)
    (hc : ∀ c ∈ core, isBlank c = false) : trim (before ++ core ++ after) = core := by
  have hend : (core ++ after).rdropWhile isBlank = core := by
    have ha' : ∀ c ∈ after.reverse, isBlank c = true := fun c hm => ha c (List.mem_reverse.1 hm)
    have hc' : ∀ c ∈ core.reverse, isBlank c = false := fun c hm => hc c (List.mem_reverse.1 hm)
    rw [List.rdropWhile, List.reverse_append, List.dropWhile_append_of_pos ha',
      dropWhile_of_forall hc', List.reverse_reverse]
  rw [trim_eq, List.append_assoc, List.dropWhile_append_of_pos hb]
  cases core with
  | nil =>
    rw [List.nil_append, ← List.append_nil after, List.dropWhile_append_of_pos ha]
    rfl
  | cons c core =>
    rw [List.cons_append, List.dropWhile_cons, hc c List.mem_cons_self, if_neg Bool.false_ne_true]
    exact hend

end InetHost.Blank

namespace InetHost.Settings

open Numeral Ipv4.Address Sequence

def IsOctet (base : Nat) (part : List Char) (b : UInt8) : Prop :=
  ∃ before sign digits after, part = before ++ (sign ++ digits) ++ after ∧
    (∀ c ∈ before, Blank.isBlank c = true) ∧ (∀ c ∈ after, Blank.isBlank c = true) ∧
    (sign = [] ∨ sign = ['+']) ∧ Spells base digits b.toNat

variable {base : Nat} {part : List Char} {b : UInt8} {text : String}

theorem head?_ne_plus {digits : List Char} (h : ∀ c ∈ digits, c.isAlphanum = true) :
    digits.head? ≠ some '+' := by
  intro he
  obtain ⟨rest, rfl⟩ := List.head?_eq_some_iff.1 he
  exact absurd (h '+' List.mem_cons_self) (by decide)

theorem octet?_of_head?_ne (h : (Blank.trim part).head? ≠ some '+') :
    octet? base part = Numeral.octet? base (Blank.trim part) := by
  unfold octet?
  split
  · rename_i digits ht
    rw [ht] at h
    exact absurd rfl h
  · rfl

theorem octet?_of_head?_eq {digits : List Char} (h : Blank.trim part = '+' :: digits) :
    octet? base part = Numeral.octet? base digits := by
  unfold octet?
  rw [h]
  rfl

theorem octet?_eq_some_iff (hb : base ≤ 16) : octet? base part = some b ↔ IsOctet base part b := by
  constructor
  · intro h
    obtain ⟨before, after, hpart, hbefore, hafter⟩ := Blank.exists_eq_append_trim part
    by_cases hsign : (Blank.trim part).head? = some '+'
    · obtain ⟨digits, ht⟩ := List.head?_eq_some_iff.1 hsign
      rw [octet?_of_head?_eq ht, Numeral.octet?_eq_some_iff hb] at h
      rw [ht] at hpart
      exact ⟨before, ['+'], digits, after, hpart, hbefore, hafter, .inr rfl, h⟩
    · rw [octet?_of_head?_ne hsign, Numeral.octet?_eq_some_iff hb] at h
      exact ⟨before, [], Blank.trim part, after, hpart, hbefore, hafter, .inl rfl, h⟩
  · rintro ⟨before, sign, digits, after, rfl, hbefore, hafter, hsign, hspells⟩
    have halphanum := hspells.isAlphanum hb
    have hdigits : ∀ c ∈ digits, Blank.isBlank c = false := fun c hc =>
      Blank.not_isBlank_of_isAlphanum (halphanum c hc)
    have hplus : ∀ c ∈ sign, Blank.isBlank c = false := by
      rcases hsign with rfl | rfl
      · exact nofun
      · exact List.forall_mem_singleton.2 (by decide)
    have htrim := Blank.trim_append hbefore hafter (List.forall_mem_append.2 ⟨hplus, hdigits⟩)
    rw [← Numeral.octet?_eq_some_iff hb] at hspells
    rcases hsign with rfl | rfl
    · rwa [octet?_of_head?_ne (by rw [htrim]; exact head?_ne_plus halphanum), htrim]
    · rwa [octet?_of_head?_eq htrim]

theorem octets?_eq_some_iff (hb : base ≤ 16) {separator : Char} {octets : List UInt8} :
    octets? base separator text = some octets ↔
      List.Forall₂ (IsOctet base) (text.toList.splitOn separator) octets := by
  simp only [octets?, mapM_eq_some_iff, octet?_eq_some_iff hb]

theorem ipv4?_eq_some_iff {ip : Ipv4.Address} : ipv4? text = some ip ↔
    List.Forall₂ (IsOctet 10) (text.toList.splitOn '.') (Bytes.word32 ip) := by
  simp only [ipv4?, Option.bind_eq_some_iff, ofParts?_eq_some_iff, exists_eq_right,
    octets?_eq_some_iff (show 10 ≤ 16 by decide)]

theorem mac?_eq_some_iff {mac : Mac} : mac? text = some mac ↔
    List.Forall₂ (IsOctet 16) (text.toList.splitOn ':') mac.bytes := by
  rw [mac?, Option.bind_eq_some_iff]
  simp only [octets?_eq_some_iff (show 16 ≤ 16 by decide)]
  constructor
  · rintro ⟨octets, hoctets, h⟩
    match octets, h with
    | [_, _, _, _, _, _], h =>
      obtain rfl := Option.some.inj h
      exact hoctets
  · exact fun h => ⟨mac.bytes, h, rfl⟩

def tidy (text : String) : String :=
  String.ofList (['.'].intercalate ((text.toList.splitOn '.').map Blank.trim))

/-- Without a sign, and of at most three characters. -/
structure Plain (part : List Char) : Prop where
  unsigned : part.head? ≠ some '+'
  length_le : part.length ≤ 3

theorem notMem_of_mem_splitOn {separator : Char} {cs : List Char} (h : part ∈ cs.splitOn separator) :
    separator ∉ part := by
  induction cs generalizing part with
  | nil =>
    obtain rfl := List.mem_singleton.1 h
    exact List.not_mem_nil
  | cons c cs ih =>
    rw [List.splitOn_cons_eq_if_modifyHead] at h
    split at h
    · rcases List.mem_cons.1 h with rfl | h
      · exact List.not_mem_nil
      · exact ih h
    · rename_i hc
      obtain ⟨first, rest, hs⟩ := List.exists_cons_of_ne_nil (List.splitOn_ne_nil separator cs)
      rw [hs] at h ih
      rcases List.mem_cons.1 h with rfl | h
      · intro hm
        rcases List.mem_cons.1 hm with rfl | hm
        · exact hc (beq_self_eq_true _)
        · exact ih List.mem_cons_self hm
      · exact ih (List.mem_cons_of_mem _ h)

theorem splitOn_tidy (text : String) :
    (tidy text).toList.splitOn '.' = (text.toList.splitOn '.').map Blank.trim := by
  rw [tidy, String.toList_ofList, List.splitOn_intercalate]
  · intro part hm hdot
    obtain ⟨part, hpart, rfl⟩ := List.mem_map.1 hm
    exact notMem_of_mem_splitOn hpart ((Blank.trim_infix part).subset hdot)
  · exact List.map_eq_nil_iff.not.2 (List.splitOn_ne_nil '.' _)

theorem part?_trim_eq_some_iff :
    part? (Blank.trim part) = some b ↔ Plain (Blank.trim part) ∧ octet? 10 part = some b := by
  rw [part?, Option.ite_none_right_eq_some]
  by_cases hsign : (Blank.trim part).head? = some '+'
  · refine iff_of_false (fun h => ?_) fun h => h.1.unsigned hsign
    exact head?_ne_plus (((Numeral.octet?_eq_some_iff (by decide)).1 h.2).isAlphanum (by decide)) hsign
  · rw [octet?_of_head?_ne hsign]
    exact and_congr_left fun _ => ⟨fun hl => ⟨hsign, hl⟩, fun hp => hp.length_le⟩

/-- The settings read more texts as addresses than a host; both agree exactly on the plain ones. -/
theorem quads_read_alike_iff_plain (text : String) (ip : Ipv4.Address) :
    (ipv4? text = some ip ↔
      List.Forall₂ (IsOctet 10) (text.toList.splitOn '.') (Bytes.word32 ip)) ∧
    (parse? (tidy text) = some ip ↔
      (∀ part ∈ text.toList.splitOn '.', Plain (Blank.trim part)) ∧ ipv4? text = some ip) := by
  refine ⟨ipv4?_eq_some_iff, ?_⟩
  rw [parse?, splitOn_tidy]
  simp only [Option.bind_eq_some_iff, ofParts?_eq_some_iff, exists_eq_right, mapM_eq_some_iff,
    List.forall₂_map_left_iff, part?_trim_eq_some_iff, List.forall₂_and_left, ipv4?, octets?]

/-- The settings take a sign that a host does not. -/
theorem signed_quad_only_in_settings :
    ipv4? "+1.0.0.1" = some 0x01000001 ∧ parse? (tidy "+1.0.0.1") = none := by
  decide

end InetHost.Settings
