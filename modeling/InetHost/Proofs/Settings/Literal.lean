import InetHost.Proofs.Settings.Address
import InetHost.Settings.Listing

/-! Literals of the language that the listing is in. Each stands for one value, and what is written for a value
stands for it: integers are decimal with a minus sign in front if they are negative, and words and the bytes of
a hardware address are hexadecimal. -/

namespace InetHost.Settings

open Numeral

def IsItem (item : List Char) (b : UInt8) : Prop :=
  ∃ digits, Blank.trim item = '0' :: 'x' :: digits ∧ Spells 16 digits b.toNat

/-- What a literal of the language stands for. -/
inductive Denotes : List Char → Literal → Prop
  | natural {digits : List Char} {n : Nat} : Spells 10 digits n → Denotes digits (.integer n)
  | negative {digits : List Char} {n : Nat} : Spells 10 digits n → Denotes ('-' :: digits) (.integer (-n))
  | word {digits : List Char} {w : UInt32} :
      Spells 16 digits w.toNat → Denotes ('0' :: 'x' :: digits) (.word w)
  | octets {items : List Char} {mac : Mac} :
      List.Forall₂ IsItem (items.splitOn ',') mac.bytes → Denotes ('[' :: (items ++ [']'])) (.octets mac)

section Literals

variable {literal digits : List Char} {v w : Literal} {n : Nat}

theorem Denotes.eq_of_spells (h : Denotes literal v) (hs : Spells 10 literal n) : v = .integer n := by
  have hdigits := (spells_ten_iff.1 hs).2.1
  cases h with
  | natural h => rw [h.unique (by decide) hs]
  | negative _ => exact absurd (hdigits '-' List.mem_cons_self) (by decide)
  | word _ => exact absurd (hdigits 'x' (List.mem_cons_of_mem _ List.mem_cons_self)) (by decide)
  | octets _ => exact absurd (hdigits '[' List.mem_cons_self) (by decide)

theorem isItem_unique : Relator.RightUnique IsItem := by
  rintro part b c ⟨digits, hb, hsb⟩ ⟨digits', hc, hsc⟩
  obtain rfl : digits = digits' := (List.cons.inj (List.cons.inj (hb.symm.trans hc)).2).2
  exact UInt8.toNat_inj.1 (hsb.unique (by decide) hsc)

theorem bytes_injective {mac mac' : Mac} (h : mac.bytes = mac'.bytes) : mac = mac' := by
  cases mac
  cases mac'
  cases h
  rfl

theorem Denotes.unique (hv : Denotes literal v) (hw : Denotes literal w) : v = w := by
  cases hv with
  | natural h => exact (hw.eq_of_spells h).symm
  | negative h =>
    cases hw with
    | natural h' => exact Denotes.eq_of_spells (.negative h) h'
    | negative h' => rw [h.unique (by decide) h']
  | word h =>
    cases hw with
    | natural h' => exact Denotes.eq_of_spells (.word h) h'
    | word h' => rw [UInt32.toNat_inj.1 (h.unique (by decide) h')]
  | octets h =>
    generalize hl : '[' :: (_ ++ [']']) = literal at hw
    cases hw with
    | natural h' =>
      subst hl
      exact Denotes.eq_of_spells (.octets h) h'
    | octets h' =>
      obtain rfl := List.append_cancel_right (List.cons.inj hl).2
      rw [bytes_injective (List.right_unique_forall₂' isItem_unique h h')]
    | negative _ => cases hl
    | word _ => cases hl

end Literals

def item (b : UInt8) : List Char := '0' :: 'x' :: (hex 2 b.toNat).toList

theorem isAlphanum_item (b : UInt8) : ∀ c ∈ item b, c.isAlphanum = true :=
  List.forall_mem_cons.2 ⟨by decide, List.forall_mem_cons.2 ⟨by decide,
    (spells_hex 2 b.toNat).isAlphanum (by decide)⟩⟩

theorem notMem_of_isAlphanum {cs : List Char} (h : ∀ c ∈ cs, c.isAlphanum = true) {c : Char}
    (hc : c.isAlphanum = false) : c ∉ cs := by
  intro hm
  rw [h c hm] at hc
  cases hc

theorem toList_text_integer (value : Int) : (Literal.integer value).text.toList =
    if value < 0 then '-' :: (decimal value.natAbs).toList else (decimal value.natAbs).toList := by
  change (if value < 0 then "-" ++ decimal value.natAbs else decimal value.natAbs).toList = _
  split
  · rw [String.toList_append]
    rfl
  · rfl

theorem toList_text_word (value : UInt32) :
    (Literal.word value).text.toList = '0' :: 'x' :: (hex 8 value.toNat).toList := by
  change ("0x" ++ hex 8 value.toNat).toList = _
  rw [String.toList_append]
  rfl

theorem toList_text_octets (mac : Mac) : (Literal.octets mac).text.toList =
    '[' :: ([',', ' '].intercalate (mac.bytes.map item) ++ [']']) := by
  have hopen : "[".toList = ['['] := rfl
  have hclose : "]".toList = [']'] := rfl
  have hcomma : ", ".toList = [',', ' '] := rfl
  have hitem : (String.toList ∘ fun b : UInt8 => "0x" ++ hex 2 b.toNat) = item := by
    funext b
    rw [Function.comp, String.toList_append]
    rfl
  unfold Literal.text
  simp only [String.toList_append, String.toList_intercalate, List.map_map, hitem, hopen, hclose, hcomma,
    List.cons_append, List.nil_append]

theorem intercalate_cons {α : Type} (separator first : List α) (rest : List (List α)) :
    separator.intercalate (first :: rest) = first ++ rest.flatMap fun l => separator ++ l := by
  induction rest generalizing first with
  | nil => rw [List.intercalate_singleton, List.flatMap_nil, List.append_nil]
  | cons second rest ih =>
    rw [List.intercalate_cons_cons, ih, List.flatMap_cons, List.append_assoc, List.append_assoc]

theorem notMem_intercalate {α : Type} {x : α} {separator : List α} {ls : List (List α)}
    (hs : x ∉ separator) (h : ∀ l ∈ ls, x ∉ l) : x ∉ separator.intercalate ls := by
  cases ls with
  | nil => exact List.not_mem_nil
  | cons first rest =>
    obtain ⟨hfirst, hrest⟩ := List.forall_mem_cons.1 h
    rw [intercalate_cons, List.mem_append, List.mem_flatMap]
    rintro (hm | ⟨l, hl, hm⟩)
    · exact hfirst hm
    · exact (List.mem_append.1 hm).elim hs (hrest l hl)

theorem intercalate_comma (first : List Char) (rest : List (List Char)) :
    [',', ' '].intercalate (first :: rest) = [','].intercalate (first :: rest.map (List.cons ' ')) := by
  rw [intercalate_cons, intercalate_cons, List.flatMap_map]
  rfl

theorem trim_item (before : List Char) (hb : ∀ c ∈ before, Blank.isBlank c = true) (b : UInt8) :
    Blank.trim (before ++ item b) = item b := by
  have hitem : ∀ c ∈ item b, Blank.isBlank c = false := fun c hc =>
    Blank.not_isBlank_of_isAlphanum (isAlphanum_item b c hc)
  have htrim : Blank.trim (before ++ item b ++ []) = item b := Blank.trim_append hb nofun hitem
  rwa [List.append_nil] at htrim

theorem newline_notMem_text (v : Literal) : '\n' ∉ v.text.toList := by
  cases v with
  | integer value =>
    have hdigits : '\n' ∉ (decimal value.natAbs).toList :=
      notMem_of_isAlphanum ((spells_decimal value.natAbs).isAlphanum (by decide)) (by decide)
    rw [toList_text_integer]
    split
    · exact List.not_mem_cons_of_ne_of_not_mem (by decide) hdigits
    · exact hdigits
  | word value =>
    have hdigits : '\n' ∉ (hex 8 value.toNat).toList :=
      notMem_of_isAlphanum ((spells_hex 8 value.toNat).isAlphanum (by decide)) (by decide)
    rw [toList_text_word]
    exact List.not_mem_cons_of_ne_of_not_mem (by decide)
      (List.not_mem_cons_of_ne_of_not_mem (by decide) hdigits)
  | octets mac =>
    have hitems : ∀ l ∈ mac.bytes.map item, '\n' ∉ l :=
      List.forall_mem_map.2 fun b _ => notMem_of_isAlphanum (isAlphanum_item b) (by decide)
    rw [toList_text_octets, List.mem_cons, List.mem_append]
    exact not_or.2 ⟨by decide, not_or.2 ⟨notMem_intercalate (by decide) hitems, by decide⟩⟩

theorem denotes_text (v : Literal) : Denotes v.text.toList v := by
  cases v with
  | integer value =>
    rw [toList_text_integer]
    split
    · have hvalue : -(value.natAbs : Int) = value := by omega
      have hd := Denotes.negative (spells_decimal value.natAbs)
      rwa [hvalue] at hd
    · have hvalue : (value.natAbs : Int) = value := by omega
      have hd := Denotes.natural (spells_decimal value.natAbs)
      rwa [hvalue] at hd
  | word value =>
    rw [toList_text_word]
    exact .word (spells_hex 8 value.toNat)
  | octets mac =>
    have hcomma (b : UInt8) : ',' ∉ item b := notMem_of_isAlphanum (isAlphanum_item b) (by decide)
    rw [toList_text_octets]
    refine .octets ?_
    change List.Forall₂ _ (([',', ' '].intercalate (item mac.b0 :: _)).splitOn ',') (mac.b0 :: _)
    rw [intercalate_comma, List.splitOn_intercalate]
    · refine .cons ⟨_, trim_item [] nofun _, spells_hex 2 _⟩ ?_
      rw [List.map_map, List.forall₂_map_left_iff, List.forall₂_same]
      have hspace : ∀ c ∈ [' '], Blank.isBlank c = true := List.forall_mem_singleton.2 (by decide)
      exact fun b _ => ⟨_, trim_item [' '] hspace b, spells_hex 2 _⟩
    · refine List.forall_mem_cons.2 ⟨hcomma mac.b0, ?_⟩
      rw [List.map_map, List.forall_mem_map]
      exact fun b _ => List.not_mem_cons_of_ne_of_not_mem (by decide) (hcomma b)
    · exact List.cons_ne_nil _ _

end InetHost.Settings
