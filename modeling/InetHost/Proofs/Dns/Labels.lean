import InetHost.Proofs.Dns.Response

/-! The labels of a name in a message. A name is delimited by its labels and its end, and its labels can be
read back from it. Names are skipped with labels of up to 191 bytes, since every length below the pointers is
taken for one; the names of RFC 1035, with labels of up to 63 bytes, are those among them that have no longer
label. -/

namespace InetHost.Dns.Name

def wire (labels : List Bytes) : Bytes :=
  labels.flatMap fun label => UInt8.ofNat label.length :: label

def Bounded (limit : Nat) (labels : List Bytes) : Prop :=
  ∀ label ∈ labels, 1 ≤ label.length ∧ label.length ≤ limit

instance (limit : Nat) (labels : List Bytes) : Decidable (Bounded limit labels) :=
  inferInstanceAs (Decidable (∀ label ∈ labels, 1 ≤ label.length ∧ label.length ≤ limit))

/-- A zero byte, or a pointer of two bytes. -/
inductive Ending : Bytes → Prop
  | root : Ending [0]
  | pointer {high : UInt8} (low : UInt8) : 0xC0 ≤ high → Ending [high, low]

def labels? : Bytes → Option (List Bytes)
  | [] => none
  | length :: rest =>
    if length = 0 ∨ 0xC0 ≤ length then some []
    else if rest.length < length.toNat then none
    else (labels? (rest.drop length.toNat)).map fun labels => rest.take length.toNat :: labels
  termination_by bs => bs.length
  decreasing_by simp only [List.length_drop, List.length_cons]; omega

/-- The bytes from `pos` up to `stop` are a name of these labels. -/
structure Delimits (limit : Nat) (message : Bytes) (pos stop : Nat) (labels : List Bytes) : Prop where
  stop_le : stop ≤ message.length
  bounded : Bounded limit labels
  spelled : ∃ ending, Ending ending ∧ (message.take stop).drop pos = wire labels ++ ending

section Labels

variable {label : Bytes} {labels labels' : List Bytes} {ending ending' : Bytes} {limit : Nat}

theorem wire_cons (label : Bytes) (labels : List Bytes) :
    wire (label :: labels) = UInt8.ofNat label.length :: (label ++ wire labels) :=
  List.flatMap_cons

theorem bounded_cons : Bounded limit (label :: labels) ↔
    (1 ≤ label.length ∧ label.length ≤ limit) ∧ Bounded limit labels :=
  List.forall_mem_cons

theorem Bounded.mono (h : Bounded limit labels) {limit' : Nat} (hl : limit ≤ limit') :
    Bounded limit' labels := fun label hm => ⟨(h label hm).1, Nat.le_trans (h label hm).2 hl⟩

theorem Ending.length_pos (h : Ending ending) : 0 < ending.length := by
  cases h <;> exact Nat.succ_pos _

theorem ofNat_length (h₁ : 1 ≤ label.length) (h₂ : label.length ≤ 191) :
    (UInt8.ofNat label.length).toNat = label.length ∧
      UInt8.ofNat label.length ≠ 0 ∧ UInt8.ofNat label.length < 0xC0 := by
  have hn : (UInt8.ofNat label.length).toNat = label.length :=
    UInt8.toNat_ofNat_of_lt' (Nat.lt_of_le_of_lt h₂ (by decide))
  refine ⟨hn, fun hz => ?_, ?_⟩
  · rw [hz] at hn
    exact absurd hn (Nat.ne_of_lt h₁)
  · rw [UInt8.lt_iff_toNat_lt, hn]
    exact Nat.lt_succ_of_le h₂

theorem labels?_wire (h : Bounded 191 labels) (he : Ending ending) (rest : Bytes) :
    labels? (wire labels ++ (ending ++ rest)) = some labels := by
  induction labels with
  | nil =>
    cases he with
    | root => rw [wire, List.flatMap_nil, List.nil_append, List.cons_append, labels?, if_pos (.inl rfl)]
    | pointer low hh =>
      rw [wire, List.flatMap_nil, List.nil_append, List.cons_append, labels?, if_pos (.inr hh)]
  | cons label labels ih =>
    obtain ⟨⟨h₁, h₂⟩, hb⟩ := bounded_cons.1 h
    obtain ⟨hn, hz, hp⟩ := ofNat_length h₁ h₂
    have hshort : ¬(label ++ (wire labels ++ (ending ++ rest))).length < label.length := by
      rw [List.length_append]
      omega
    rw [wire_cons, List.cons_append, List.append_assoc, labels?,
      if_neg (not_or.2 ⟨hz, UInt8.not_le.2 hp⟩), hn, if_neg hshort, List.drop_left, List.take_left,
      ih hb, Option.map_some]

theorem eq_of_wire_eq (h : Bounded 191 labels) (h' : Bounded 191 labels') (he : Ending ending)
    (he' : Ending ending') (hw : wire labels ++ ending = wire labels' ++ ending') :
    labels = labels' := by
  have hl := labels?_wire h he []
  have hl' := labels?_wire h' he' []
  rw [List.append_nil] at hl hl'
  rw [hw, hl'] at hl
  exact (Option.some.inj hl).symm

theorem written_iff {name : Bytes} : Written name ↔
    ∃ labels ending, Bounded 191 labels ∧ Ending ending ∧ name = wire labels ++ ending := by
  constructor
  · intro h
    induction h with
    | root => exact ⟨[], [0], nofun, .root, rfl⟩
    | pointer low hh => exact ⟨[], _, nofun, .pointer low hh, rfl⟩
    | @label length label name hz hp hn _ ih =>
      obtain ⟨labels, ending, hb, he, rfl⟩ := ih
      have hpos : length.toNat ≠ 0 := fun h => hz (UInt8.toNat_inj.1 h)
      have hlt : length.toNat < 192 := UInt8.lt_iff_toNat_lt.1 hp
      refine ⟨label :: labels, ending, bounded_cons.2 ⟨⟨by omega, by omega⟩, hb⟩, he, ?_⟩
      rw [wire_cons, hn, UInt8.ofNat_toNat, List.cons_append, List.append_assoc]
  · rintro ⟨labels, ending, hb, he, rfl⟩
    induction labels with
    | nil =>
      cases he with
      | root => exact .root
      | pointer low hh => exact .pointer low hh
    | cons label labels ih =>
      obtain ⟨⟨h₁, h₂⟩, hb⟩ := bounded_cons.1 hb
      obtain ⟨hn, hz, hp⟩ := ofNat_length h₁ h₂
      rw [wire_cons, List.cons_append, List.append_assoc]
      exact .label hz hp hn.symm (ih hb)

end Labels

section Skipping

variable {message : Bytes} {pos stop limit : Nat} {labels labels' : List Bytes}

theorem Delimits.mono (h : Delimits limit message pos stop labels) {limit' : Nat}
    (hl : limit ≤ limit') : Delimits limit' message pos stop labels :=
  ⟨h.stop_le, h.bounded.mono hl, h.spelled⟩

theorem Delimits.labels_eq (h : Delimits 191 message pos stop labels)
    (h' : Delimits 191 message pos stop labels') : labels = labels' := by
  obtain ⟨ending, he, hs⟩ := h.spelled
  obtain ⟨ending', he', hs'⟩ := h'.spelled
  exact eq_of_wire_eq h.bounded h'.bounded he he' (hs.symm.trans hs')

theorem skip?_iff_delimits : skip? message pos = some stop ↔
    ∃ labels, Delimits 191 message pos stop labels := by
  rw [skip?_eq_some_iff]
  constructor
  · rintro ⟨name, hw, ⟨rest, hr⟩, rfl⟩
    have hpos := hw.length_pos
    have hlength := congrArg List.length hr
    rw [List.length_append, List.length_drop] at hlength
    have hname : (message.take (pos + name.length)).drop pos = name := by
      rw [List.drop_take, Nat.add_sub_cancel_left, ← hr, List.take_left]
    obtain ⟨labels, ending, hb, he, rfl⟩ := written_iff.1 hw
    exact ⟨labels, by omega, hb, ending, he, hname⟩
  · rintro ⟨labels, hle, hb, ending, he, hs⟩
    have hlength := congrArg List.length hs
    have hpos := he.length_pos
    rw [List.length_drop, List.length_take, List.length_append] at hlength
    refine ⟨wire labels ++ ending, written_iff.2 ⟨labels, ending, hb, he, rfl⟩, ?_, ?_⟩
    · rw [← hs, List.drop_take]
      exact List.take_prefix ..
    · rw [List.length_append]
      omega

theorem exists_delimits_iff (h : Delimits 191 message pos stop labels) (hl : limit ≤ 191) :
    (∃ labels', Delimits limit message pos stop labels') ↔ ∀ label ∈ labels, label.length ≤ limit := by
  constructor
  · rintro ⟨labels', h'⟩ label hm
    rw [h.labels_eq (h'.mono hl)] at hm
    exact (h'.bounded label hm).2
  · intro hs
    exact ⟨labels, h.stop_le, fun label hm => ⟨(h.bounded label hm).1, hs label hm⟩, h.spelled⟩

end Skipping

/-- The reader skips exactly the names whose labels have at most 191 bytes; RFC 1035 allows 63. -/
theorem names_skipped_iff (message : Bytes) (pos stop : Nat) :
    (skip? message pos = some stop ↔ ∃ labels, Delimits 191 message pos stop labels) ∧
    ∀ labels, Delimits 191 message pos stop labels →
      ((∃ labels', Delimits 63 message pos stop labels') ↔ ∀ label ∈ labels, label.length ≤ 63) :=
  ⟨skip?_iff_delimits, fun _ h => exists_delimits_iff h (by decide)⟩

theorem names_skipped_iff_pointer :
    let message : Bytes := [3, 119, 119, 119, 0xC0, 12, 0]
    Delimits 191 message 0 6 [[119, 119, 119]] ∧ skip? message 0 = some 6 ∧
      ∃ labels, Delimits 63 message 0 6 labels := by
  intro message
  obtain ⟨hskip, hshort⟩ := names_skipped_iff message 0 6
  have h : Delimits 191 message 0 6 [[119, 119, 119]] :=
    ⟨by decide, by decide, [0xC0, 12], .pointer 12 (by decide), rfl⟩
  exact ⟨h, hskip.2 ⟨_, h⟩, (hshort _ h).2 (by decide)⟩

/-- A length of 64 is none of RFC 1035, and the label behind it is skipped all the same. -/
theorem reserved_length_skipped :
    let message : Bytes := 64 :: (List.replicate 64 97 ++ [0])
    skip? message 0 = some 66 ∧ ¬∃ labels, Delimits 63 message 0 66 labels := by
  intro message
  have h : Delimits 191 message 0 66 [List.replicate 64 97] :=
    ⟨by decide, by decide, [0], .root, rfl⟩
  refine ⟨skip?_iff_delimits.2 ⟨_, h⟩, fun hs => ?_⟩
  have hle := (exists_delimits_iff h (by decide)).1 hs _ List.mem_cons_self
  exact absurd hle (by decide)

end InetHost.Dns.Name
