import Mathlib.Tactic.SplitIfs
import InetHost.Arp.Cache
import InetHost.Proofs.Slots

/-! The cache as a map of bounded size. An address has one mapping at most, which is that of its latest
sighting; it is lost only when an unknown address comes to a full cache and no mapping is older. -/

namespace InetHost.Arp

structure Sighting where
  ip : Ipv4.Address
  mac : Mac
  time : UInt64

namespace Cache

def after (history : List Sighting) : Cache :=
  history.foldl (fun c s => c.add s.ip s.mac s.time) empty

def entry (c : Cache) (i : Fin capacity) : Entry := c.entries.get i

def Holds (c : Cache) (ip : Ipv4.Address) (i : Fin capacity) : Prop :=
  (c.entry i).valid = true ∧ (c.entry i).ip = ip

def Distinct (c : Cache) : Prop :=
  ∀ ip i j, c.Holds ip i → c.Holds ip j → i = j

def Full (c : Cache) : Prop := c.length = capacity

/-- Of the slots that were refreshed the longest ago, the lowest. -/
def Oldest (c : Cache) (i : Fin capacity) : Prop :=
  IsLeast {i | ∀ j : Fin capacity, (c.entry i).lastSeen ≤ (c.entry j).lastSeen} i

/-- A sighting for which the mapping of `ip` gives way. -/
def Evicts (c : Cache) (s : Sighting) (ip : Ipv4.Address) : Prop :=
  c.lookup? s.ip = none ∧ c.Full ∧ ∃ i, c.Oldest i ∧ (c.entry i).ip = ip

variable {c : Cache} {ip ip' : Ipv4.Address} {mac : Mac} {now : UInt64} {i j : Fin capacity}
  {history : List Sighting} {s : Sighting}

theorem find?_eq (c : Cache) (ip : Ipv4.Address) :
    c.find? ip = Slots.first? fun i => (c.entry i).valid && (c.entry i).ip = ip := rfl

theorem find?_eq_some_iff : c.find? ip = some i ↔ IsLeast {j | c.Holds ip j} i := by
  rw [find?_eq, Slots.first?_eq_some_iff]
  simp [Holds]

theorem find?_eq_none_iff : c.find? ip = none ↔ ∀ i, ¬ c.Holds ip i := by
  rw [find?_eq, Slots.first?_eq_none_iff]
  simp [Holds]

theorem lookup?_eq_none_iff : c.lookup? ip = none ↔ ∀ i, ¬ c.Holds ip i := by
  rw [lookup?, Option.map_eq_none_iff, find?_eq_none_iff]

theorem Distinct.find?_eq_some (h : c.Distinct) (hi : c.Holds ip i) : c.find? ip = some i :=
  find?_eq_some_iff.2 ⟨hi, fun j hj => Fin.le_of_eq (h ip i j hi hj)⟩

theorem Distinct.lookup?_eq (h : c.Distinct) (hi : c.Holds ip i) :
    c.lookup? ip = some (c.entry i).mac := by
  rw [lookup?, h.find?_eq_some hi]
  rfl

theorem Distinct.lookup?_congr {c' : Cache} (h : c.Distinct) (h' : c'.Distinct)
    (hh : ∀ i, c'.Holds ip i ↔ c.Holds ip i)
    (hm : ∀ i, c.Holds ip i → (c'.entry i).mac = (c.entry i).mac) :
    c'.lookup? ip = c.lookup? ip := by
  by_cases hex : ∃ i, c.Holds ip i
  · obtain ⟨i, hi⟩ := hex
    rw [h'.lookup?_eq ((hh i).2 hi), h.lookup?_eq hi, hm i hi]
  · have hnone : ∀ i, ¬ c.Holds ip i := fun i hi => hex ⟨i, hi⟩
    rw [lookup?_eq_none_iff.2 hnone, lookup?_eq_none_iff.2 fun i hi => hnone i ((hh i).1 hi)]

theorem not_holds_empty (ip : Ipv4.Address) (i : Fin capacity) : ¬ empty.Holds ip i := by
  have hunused : empty.entry i = Entry.unused := by
    show (Vector.replicate capacity Entry.unused)[i.val] = Entry.unused
    rw [Vector.getElem_replicate]
  rintro ⟨hvalid, -⟩
  rw [hunused] at hvalid
  exact Bool.false_ne_true hvalid

theorem entry_add (c : Cache) (ip : Ipv4.Address) (mac : Mac) (now : UInt64) :
    (c.add ip mac now).entry i =
      if c.slotFor ip = i then ⟨ip, mac, now, true⟩ else c.entry i := by
  show (c.entries.set (c.slotFor ip) ⟨ip, mac, now, true⟩)[i.val] = _
  rw [Vector.getElem_set]
  simp only [Fin.ext_iff]
  rfl

theorem holds_add : (c.add ip mac now).Holds ip' i ↔
    c.slotFor ip = i ∧ ip = ip' ∨ c.slotFor ip ≠ i ∧ c.Holds ip' i := by
  unfold Holds
  rw [entry_add]
  split_ifs with h
  · simp [h]
  · simp [h]

theorem oldest_spec (c : Cache) : c.Oldest c.oldest := by
  have hpairwise : ((0 : Fin capacity) :: List.finRange capacity).Pairwise (· ≤ ·) := by
    refine List.pairwise_cons.2 ⟨fun j _ => Fin.zero_le j, ?_⟩
    exact (List.pairwise_lt_finRange capacity).imp Fin.le_of_lt
  have hbest (j : Fin capacity) := Slots.foldl_best (fun i => (c.entry i).lastSeen) 0 _ hpairwise j
    (List.mem_cons_of_mem _ (List.mem_finRange j))
  refine ⟨fun j => (hbest j).1, fun j hj => Fin.not_lt.1 fun hlt => ?_⟩
  exact UInt64.not_le.2 ((hbest j).2 hlt) (hj c.oldest)

theorem Oldest.eq_oldest (h : c.Oldest i) : i = c.oldest :=
  Fin.le_antisymm (h.2 c.oldest_spec.1) (c.oldest_spec.2 h.1)

theorem length_eq_countP (c : Cache) : c.length = c.entries.toList.countP Entry.valid :=
  List.countP_eq_length_filter.symm

theorem length_le (c : Cache) : c.length ≤ capacity := by
  rw [length_eq_countP]
  exact List.countP_le_length.trans_eq c.entries.length_toList

theorem full_iff : c.Full ↔ ∀ i : Fin capacity, (c.entry i).valid = true := by
  have hall : c.Full ↔ ∀ e ∈ c.entries.toList, e.valid = true := by
    rw [← List.countP_eq_length, ← length_eq_countP, Vector.length_toList]
    rfl
  rw [hall]
  constructor
  · intro h i
    exact h _ (Vector.mem_toList_iff.2 (Vector.getElem_mem i.isLt))
  · intro h e he
    obtain ⟨n, hn, rfl⟩ := List.getElem_of_mem he
    rw [Vector.length_toList] at hn
    exact h ⟨n, hn⟩

theorem slotFor_cases (c : Cache) (ip : Ipv4.Address) :
    c.Holds ip (c.slotFor ip) ∨
      c.lookup? ip = none ∧ (c.entry (c.slotFor ip)).valid = false ∧ ¬ c.Full ∨
      c.lookup? ip = none ∧ c.Full ∧ c.slotFor ip = c.oldest := by
  have hslot : c.slotFor ip =
      (c.find? ip).getD ((Slots.first? fun i => !(c.entry i).valid).getD c.oldest) := by
    rw [slotFor]
    cases c.find? ip <;> rfl
  rw [hslot]
  cases hf : c.find? ip with
  | some i => exact .inl (find?_eq_some_iff.1 hf).1
  | none =>
    have habsent : c.lookup? ip = none := lookup?_eq_none_iff.2 (find?_eq_none_iff.1 hf)
    cases hfree : Slots.first? fun i => !(c.entry i).valid with
    | some i =>
      have hi : (c.entry i).valid = false := by
        simpa using Slots.of_first?_eq_some hfree
      refine .inr (.inl ⟨habsent, hi, fun hfull => ?_⟩)
      exact Bool.false_ne_true (hi.symm.trans (full_iff.1 hfull i))
    | none =>
      refine .inr (.inr ⟨habsent, full_iff.2 fun i => ?_, rfl⟩)
      simpa using Slots.first?_eq_none_iff.1 hfree i

theorem Distinct.add (h : c.Distinct) (ip : Ipv4.Address) (mac : Mac) (now : UInt64) :
    (c.add ip mac now).Distinct := by
  -- In another slot than the one it is put in, the address is not found.
  have hother (j : Fin capacity) (hj : c.slotFor ip ≠ j) : ¬ c.Holds ip j := by
    intro hh
    rcases c.slotFor_cases ip with hs | ⟨habsent, -⟩ | ⟨habsent, -⟩
    · exact hj (h ip _ _ hs hh)
    · exact lookup?_eq_none_iff.1 habsent j hh
    · exact lookup?_eq_none_iff.1 habsent j hh
  intro ip' i j hi hj
  rcases holds_add.1 hi with ⟨rfl, rfl⟩ | ⟨hi, hh⟩ <;> rcases holds_add.1 hj with ⟨hj, he⟩ | ⟨hj, hh'⟩
  · exact hj
  · exact absurd hh' (hother j hj)
  · exact absurd (he ▸ hh) (hother i hi)
  · exact h ip' i j hh hh'

theorem distinct_after (history : List Sighting) : (after history).Distinct := by
  have hempty : empty.Distinct := fun ip i j hi _ => absurd hi (not_holds_empty ip i)
  have hfold (c : Cache) (hc : c.Distinct) :
      (history.foldl (fun c s => c.add s.ip s.mac s.time) c).Distinct := by
    induction history generalizing c with
    | nil => exact hc
    | cons s history ih => exact ih _ (hc.add s.ip s.mac s.time)
  exact hfold empty hempty

theorem find?_add_self (c : Cache) (ip : Ipv4.Address) (mac : Mac) (now : UInt64) :
    (c.add ip mac now).find? ip = some (c.slotFor ip) := by
  refine find?_eq_some_iff.2 ⟨holds_add.2 (.inl ⟨rfl, rfl⟩), fun i hi => ?_⟩
  rcases holds_add.1 hi with ⟨rfl, -⟩ | ⟨-, hi⟩
  · exact Fin.le_refl _
  · -- An address that is held is written to the lowest slot that holds it.
    cases hf : c.find? ip with
    | some j =>
      have hj : c.slotFor ip = j := by rw [slotFor, hf]
      exact hj ▸ (find?_eq_some_iff.1 hf).2 hi
    | none => exact absurd hi (find?_eq_none_iff.1 hf i)

theorem lookup?_add_self (c : Cache) (ip : Ipv4.Address) (mac : Mac) (now : UInt64) :
    (c.add ip mac now).lookup? ip = some mac := by
  rw [lookup?, find?_add_self]
  exact congrArg some (congrArg Entry.mac ((entry_add ..).trans (if_pos rfl)))

theorem Evicts.isSome_lookup? (h : c.Evicts s ip) : (c.lookup? ip).isSome = true := by
  obtain ⟨-, hfull, i, -, hi⟩ := h
  rw [Option.isSome_iff_ne_none]
  exact fun hn => lookup?_eq_none_iff.1 hn i ⟨full_iff.1 hfull i, hi⟩

theorem Evicts.ne (h : c.Evicts s ip) : ip ≠ s.ip := by
  rintro rfl
  have hsome := h.isSome_lookup?
  rw [h.1] at hsome
  exact Bool.false_ne_true hsome

theorem Distinct.lookup?_add_of_evicts (h : c.Distinct) (he : c.Evicts s ip) :
    (c.add s.ip s.mac s.time).lookup? ip = none := by
  obtain ⟨habsent, hfull, i, hi, hip⟩ := id he
  have hslot : c.slotFor s.ip = i := by
    rcases c.slotFor_cases s.ip with hs | ⟨-, -, hn⟩ | ⟨-, -, hs⟩
    · exact absurd hs (lookup?_eq_none_iff.1 habsent _)
    · exact absurd hfull hn
    · exact hs.trans hi.eq_oldest.symm
  refine lookup?_eq_none_iff.2 fun j hj => ?_
  rcases holds_add.1 hj with ⟨-, heq⟩ | ⟨hne, hh⟩
  · exact he.ne heq.symm
  · exact hne (hslot.trans (h ip i j ⟨full_iff.1 hfull i, hip⟩ hh))

theorem Distinct.lookup?_add_of_ne (h : c.Distinct) (hne : s.ip ≠ ip) (he : ¬ c.Evicts s ip) :
    (c.add s.ip s.mac s.time).lookup? ip = c.lookup? ip := by
  -- The slot that is written held no mapping of `ip`.
  have hslot : ¬ c.Holds ip (c.slotFor s.ip) := by
    intro hh
    rcases c.slotFor_cases s.ip with hs | ⟨-, hfree, -⟩ | ⟨habsent, hfull, hs⟩
    · exact hne (hs.2.symm.trans hh.2)
    · exact Bool.false_ne_true (hfree.symm.trans hh.1)
    · exact he ⟨habsent, hfull, c.oldest, c.oldest_spec, hs ▸ hh.2⟩
  have hold (i : Fin capacity) (hi : c.Holds ip i) : c.slotFor s.ip ≠ i := by
    rintro rfl
    exact hslot hi
  refine h.lookup?_congr (h.add s.ip s.mac s.time) (fun i => ?_) fun i hi => ?_
  · rw [holds_add]
    constructor
    · rintro (⟨-, heq⟩ | ⟨-, hi⟩)
      · exact absurd heq hne
      · exact hi
    · exact fun hi => .inr ⟨hold i hi, hi⟩
  · rw [entry_add, if_neg (hold i hi)]

end Cache

example : (Cache.after ((List.range 17).map fun n => ⟨.ofNat n, Mac.zero, 0⟩)).toList.map Entry.ip =
    16 :: (List.range' 1 15).map UInt32.ofNat := by
  decide +kernel

end InetHost.Arp
