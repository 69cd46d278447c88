import InetHost.Proofs.Dns.Labels

/-! Names written to a buffer. The writer takes exactly the names of at most 253 bytes whose labels have
between 1 and 63, writes their wire form to the start of a buffer that has room for it, and touches nothing
behind; the name can be read back, but for one final dot. -/

namespace InetHost.Dns.Name

/-- A text that has a wire form. -/
structure Lawful (text : Bytes) : Prop where
  one_le : 1 ≤ text.length
  le : text.length ≤ 253
  bounded : Bounded 63 (text.splitOn dot)

section Text

variable {a b : String} {text : Bytes}

theorem toList_loop (bs : ByteArray) (i : Nat) (r : Bytes) :
    ByteArray.toList.loop bs i r = r.reverse ++ bs.data.toList.drop i := by
  fun_induction ByteArray.toList.loop bs i r with
  | case1 i r h ih =>
    have hget : bs.get! i = bs.data.toList.get ⟨i, h⟩ := by
      obtain ⟨data⟩ := bs
      exact getElem!_pos data i h
    rw [ih, List.reverse_cons, List.append_assoc, hget, List.drop_eq_getElem_cons h]
    rfl
  | case2 i r h => rw [List.drop_eq_nil_of_le (Nat.le_of_not_lt h), List.append_nil]

theorem toList_eq (bs : ByteArray) : bs.toList = bs.data.toList := toList_loop bs 0 []

theorem toList_toUTF8_append (a b : String) :
    (a ++ b).toUTF8.toList = a.toUTF8.toList ++ b.toUTF8.toList := by
  rw [toList_eq, toList_eq, toList_eq, String.toUTF8_eq_toByteArray, String.toByteArray_append,
    ByteArray.data_append, Array.toList_append]
  rfl

theorem eq_of_toList_toUTF8_eq (h : a.toUTF8.toList = b.toUTF8.toList) : a = b := by
  rw [toList_eq, toList_eq, Array.toList_inj] at h
  exact String.toByteArray_inj.1 (ByteArray.ext h)

theorem toList_toUTF8_append_dot (a : String) :
    (a ++ ".").toUTF8.toList = a.toUTF8.toList ++ [dot] := by
  have hdot : ".".toUTF8.toList = [dot] := by
    rw [toList_eq]
    rfl
  rw [toList_toUTF8_append, hdot]

theorem text_cases (name : String) : name.toUTF8.toList = Name.text name ++ [dot] ∨
    name.toUTF8.toList = Name.text name ∧ (Name.text name).getLast? ≠ some dot := by
  by_cases h : name.toUTF8.toList.getLast? = some dot
  · left
    rw [Name.text, if_pos h]
    exact (List.dropLast_append_getLast? dot h).symm
  · right
    rw [Name.text, if_neg h]
    exact ⟨rfl, h⟩

theorem text_append_dot (a : String) : Name.text (a ++ ".") = a.toUTF8.toList := by
  rw [Name.text, toList_toUTF8_append_dot, if_pos List.getLast?_concat, List.dropLast_concat]

theorem Lawful.getLast?_ne (h : Lawful text) : text.getLast? ≠ some dot := by
  intro hlast
  have hempty : [] ∈ text.splitOn dot := by
    rw [← List.dropLast_append_getLast? dot hlast, List.splitOn_append_cons_self, List.splitOn_nil]
    exact List.mem_append_right _ List.mem_cons_self
  exact absurd (h.bounded [] hempty).1 (by decide)

theorem text_eq_iff (ha : Lawful (Name.text a)) (hb : Lawful (Name.text b)) :
    Name.text a = Name.text b ↔ a = b ∨ a = b ++ "." ∨ b = a ++ "." := by
  have hdotted {a b : String} (ha : Lawful (Name.text a)) (h : a = b ++ ".") :
      Name.text a = Name.text b := by
    rw [h, text_append_dot] at ha ⊢
    rcases text_cases b with hb | ⟨hb, -⟩
    · exact absurd (hb ▸ List.getLast?_concat) ha.getLast?_ne
    · exact hb
  constructor
  · intro h
    rcases text_cases a with hta | ⟨hta, -⟩ <;> rcases text_cases b with htb | ⟨htb, -⟩
    · exact .inl (eq_of_toList_toUTF8_eq (by rw [hta, htb, h]))
    · exact .inr (.inl (eq_of_toList_toUTF8_eq (by rw [hta, toList_toUTF8_append_dot, htb, h])))
    · exact .inr (.inr (eq_of_toList_toUTF8_eq (by rw [htb, toList_toUTF8_append_dot, hta, h])))
    · exact .inl (eq_of_toList_toUTF8_eq (by rw [hta, htb, h]))
  · rintro (rfl | h | h)
    · rfl
    · exact hdotted ha h
    · exact (hdotted hb h).symm

end Text

section Wire

variable {labels : List Bytes}

theorem length_wire_cons (label : Bytes) (labels : List Bytes) :
    (wire (label :: labels)).length = 1 + label.length + (wire labels).length := by
  rw [wire_cons, List.length_cons, List.length_append]
  omega

theorem length_wire (h : labels ≠ []) :
    (wire labels).length = ([dot].intercalate labels).length + 1 := by
  induction labels with
  | nil => exact absurd rfl h
  | cons label labels ih =>
    cases labels with
    | nil =>
      rw [length_wire_cons, List.intercalate_singleton]
      change 1 + label.length + 0 = _
      omega
    | cons next labels =>
      rw [length_wire_cons, List.intercalate_cons_cons, ih (List.cons_ne_nil _ _), List.length_append,
        List.length_append, List.length_singleton]
      omega

theorem length_wire_splitOn (text : Bytes) : (wire (text.splitOn dot)).length = text.length + 1 := by
  rw [length_wire (List.splitOn_ne_nil _ _), List.intercalate_splitOn]

end Wire

section Writing

theorem overwriteAt_append {front area bs : Bytes} (h : bs.length ≤ area.length) :
    (front ++ area).overwriteAt front.length bs = .ok (front ++ bs ++ area.drop bs.length) := by
  rw [Bytes.overwriteAt_eq_ok (by rw [List.length_append]; omega), List.take_left,
    List.drop_length_add_append]

theorem writeLabels_cons {front area label : Bytes} {labels : List Bytes}
    (hl : ¬(label = [] ∨ maxLabel < label.length))
    (hc : ¬front.length + area.length ≤ front.length + 1 + label.length) :
    writeLabels (front ++ area) front.length (label :: labels) =
      writeLabels (front ++ (UInt8.ofNat label.length :: label) ++ area.drop (1 + label.length))
        (front.length + 1 + label.length) labels := by
  let length := UInt8.ofNat label.length
  have hpos : front.length + 1 = (front ++ [length]).length := by
    rw [List.length_append, List.length_singleton]
  have hlength : (front ++ area).overwriteAt front.length [length] =
      .ok (front ++ [length] ++ area.drop 1) :=
    overwriteAt_append (by rw [List.length_singleton]; omega)
  have hlabel : (front ++ [length] ++ area.drop 1).overwriteAt (front.length + 1) label =
      .ok (front ++ (length :: label) ++ area.drop (1 + label.length)) := by
    rw [hpos, overwriteAt_append (by rw [List.length_drop]; omega), List.drop_drop,
      List.append_assoc front, List.singleton_append]
  rw [writeLabels, if_neg hl, List.length_append, if_neg hc, hlength]
  change (Bytes.overwriteAt _ _ label >>= _) = _
  rw [hlabel]
  rfl

/-- What becomes of bytes that are to be put at the start of an area. -/
inductive Stored (lawful : Prop) (bs area : Bytes) : Except NetError Nat → Bytes → Prop
  | whole : lawful → bs.length ≤ area.length →
      Stored lawful bs area (.ok bs.length) (bs ++ area.drop bs.length)
  | refused {after : Bytes} : ¬lawful → after.length = area.length →
      Stored lawful bs area (.error .invalidArgument) after
  | crowded {after : Bytes} : area.length < bs.length → after.length = area.length →
      Stored lawful bs area (.error .messageTooLong) after

namespace Stored

variable {lawful lawful' : Prop} {bs area after : Bytes} {outcome : Except NetError Nat}

theorem length_eq (h : Stored lawful bs area outcome after) : after.length = area.length := by
  cases h with
  | whole _ hfits =>
    rw [List.length_append, List.length_drop]
    omega
  | refused _ hafter => exact hafter
  | crowded _ hafter => exact hafter

theorem behind {block : Bytes} (hfits : block.length ≤ area.length) (hl : lawful' ↔ lawful)
    (h : Stored lawful bs (area.drop block.length) outcome after) :
    Stored lawful' (block ++ bs) area (outcome.map (block.length + ·)) (block ++ after) := by
  have hafter : (block ++ after).length = area.length := by
    rw [List.length_append, h.length_eq, List.length_drop]
    omega
  cases h with
  | whole hlawful hroom =>
    rw [List.length_drop] at hroom
    have hlength : block.length + bs.length = (block ++ bs).length := List.length_append.symm
    change Stored lawful' _ area (.ok (block.length + bs.length)) _
    rw [List.drop_drop, ← List.append_assoc, hlength]
    exact .whole (hl.2 hlawful) (by omega)
  | refused hunlawful _ => exact .refused (hunlawful ∘ hl.1) hafter
  | crowded hroom _ =>
    rw [List.length_drop] at hroom
    refine .crowded ?_ hafter
    rw [List.length_append]
    omega

end Stored

/-- The writer never leaves the area it writes to. -/
theorem exists_writeLabels (front area : Bytes) (labels : List Bytes) (h : labels ≠ [] ∨ area ≠ []) :
    ∃ outcome after, writeLabels (front ++ area) front.length labels =
        .ok (outcome.map (front.length + ·), front ++ after) ∧
      Stored (Bounded 63 labels) (wire labels ++ [0]) area outcome after := by
  induction labels generalizing front area with
  | nil =>
    have hpos : 1 ≤ area.length := List.length_pos_iff.2 (h.resolve_left (not_not.2 rfl))
    have hstore : (front ++ area).overwriteAt front.length [0] = .ok (front ++ [0] ++ area.drop 1) :=
      overwriteAt_append hpos
    refine ⟨.ok 1, [0] ++ area.drop 1, ?_, .whole nofun hpos⟩
    rw [writeLabels, hstore, List.append_assoc]
    rfl
  | cons label labels ih =>
    by_cases hl : label = [] ∨ maxLabel < label.length
    · refine ⟨.error .invalidArgument, area, ?_, .refused (fun hb => ?_) rfl⟩
      · rw [writeLabels, if_pos hl]
        rfl
      · obtain ⟨hpos, hle⟩ := (bounded_cons.1 hb).1
        rcases hl with rfl | hl
        · exact absurd hpos (by decide)
        · exact absurd hle (Nat.not_le.2 hl)
    by_cases hc : front.length + area.length ≤ front.length + 1 + label.length
    · refine ⟨.error .messageTooLong, area, ?_, .crowded ?_ rfl⟩
      · rw [writeLabels, if_neg hl, List.length_append, if_pos hc]
        rfl
      · rw [List.length_append, length_wire_cons, List.length_singleton]
        omega
    have hlabel : 1 ≤ label.length ∧ label.length ≤ 63 :=
      ⟨List.length_pos_iff.2 fun h => hl (.inl h), Nat.le_of_not_lt fun h => hl (.inr h)⟩
    rw [writeLabels_cons hl hc, wire_cons, ← List.cons_append]
    generalize hblock : UInt8.ofNat label.length :: label = block
    have hlength : 1 + label.length = block.length := by
      rw [← hblock, List.length_cons, Nat.add_comm]
    rw [Nat.add_assoc, hlength] at hc ⊢
    obtain ⟨outcome, after, hwrite, hstored⟩ := ih (front ++ block) (area.drop block.length)
      (.inr (List.ne_nil_of_length_pos (by rw [List.length_drop]; omega)))
    refine ⟨outcome.map (block.length + ·), block ++ after, ?_, ?_⟩
    · rw [← List.length_append, hwrite, List.append_assoc, List.length_append]
      cases outcome with
      | error cause => rfl
      | ok n => exact congrArg (fun n => Except.ok (Except.ok n, _)) (Nat.add_assoc ..)
    · rw [List.append_assoc]
      exact hstored.behind (by omega) (bounded_cons.trans (and_iff_right hlabel))

theorem exists_write (name : String) (buffer : Bytes) :
    ∃ outcome after, write name buffer = .ok (outcome, after) ∧
      Stored (Lawful (text name)) (wire ((text name).splitOn dot) ++ [0]) buffer outcome after := by
  by_cases ht : text name = [] ∨ maxName < (text name).length
  · refine ⟨.error .invalidArgument, buffer, if_pos ht, .refused (fun hl => ?_) rfl⟩
    rcases ht with ht | ht
    · exact absurd hl.one_le (by rw [ht]; decide)
    · exact absurd hl.le (Nat.not_le.2 ht)
  have hle : 1 ≤ (text name).length ∧ (text name).length ≤ 253 :=
    ⟨List.length_pos_iff.2 fun h => ht (.inl h), Nat.le_of_not_lt fun h => ht (.inr h)⟩
  have hlawful : Lawful (text name) ↔ Bounded 63 ((text name).splitOn dot) :=
    ⟨Lawful.bounded, fun hb => ⟨hle.1, hle.2, hb⟩⟩
  obtain ⟨outcome, after, hwrite, hstored⟩ := exists_writeLabels [] buffer
    ((text name).splitOn dot) (.inl (List.splitOn_ne_nil _ _))
  rw [← hlawful] at hstored
  refine ⟨outcome, after, (if_neg ht).trans (hwrite.trans ?_), hstored⟩
  cases outcome with
  | error cause => rfl
  | ok n => exact congrArg (fun n => Except.ok (Except.ok n, _)) (Nat.zero_add n)

end Writing

section Reading

variable {name other : String} {buffer buffer' after after' : Bytes} {n n' : Nat} {cause : NetError}

theorem length_wire_end (text : Bytes) :
    (wire (text.splitOn dot) ++ [0]).length = text.length + 2 := by
  rw [List.length_append, length_wire_splitOn, List.length_singleton]

theorem write_eq_ok_iff : write name buffer = .ok (.ok n, after) ↔
    (Lawful (text name) ∧ (text name).length + 2 ≤ buffer.length ∧ n = (text name).length + 2) ∧
      after = wire ((text name).splitOn dot) ++ [0] ++ buffer.drop n := by
  obtain ⟨outcome, written, hw, hstored⟩ := exists_write name buffer
  rw [hw, Except.ok.injEq, Prod.mk.injEq, ← length_wire_end]
  cases hstored with
  | whole hl hfits =>
    constructor
    · rintro ⟨hn, rfl⟩
      obtain rfl := Except.ok.inj hn
      exact ⟨⟨hl, hfits, rfl⟩, rfl⟩
    · rintro ⟨⟨-, -, rfl⟩, rfl⟩
      exact ⟨rfl, rfl⟩
  | refused hl _ => exact ⟨nofun, fun h => absurd h.1.1 hl⟩
  | crowded hfits _ => exact ⟨nofun, fun h => absurd h.1.2.1 (Nat.not_le.2 hfits)⟩

theorem of_write_eq_error (h : write name buffer = .ok (.error cause, after)) :
    cause = .invalidArgument ∧ ¬Lawful (text name) ∨
      cause = .messageTooLong ∧ buffer.length < (text name).length + 2 := by
  obtain ⟨outcome, written, hw, hstored⟩ := exists_write name buffer
  obtain ⟨rfl, rfl⟩ := Prod.mk.inj (Except.ok.inj (hw.symm.trans h))
  cases hstored with
  | refused hl _ => exact .inl ⟨rfl, hl⟩
  | crowded hfits _ => exact .inr ⟨rfl, by rwa [length_wire_end] at hfits⟩

theorem Lawful.reads_back {text : Bytes} (h : Lawful text) (rest : Bytes) :
    skip? (wire (text.splitOn dot) ++ [0] ++ rest) 0 = some (text.length + 2) ∧
      labels? (wire (text.splitOn dot) ++ [0] ++ rest) = some (text.splitOn dot) := by
  have hbounded : Bounded 191 (text.splitOn dot) := h.bounded.mono (by decide)
  constructor
  · refine skip?_eq_some_iff.2
      ⟨wire (text.splitOn dot) ++ [0], written_iff.2 ⟨_, _, hbounded, .root, rfl⟩, ⟨rest, rfl⟩, ?_⟩
    rw [length_wire_end, Nat.zero_add]
  · rw [List.append_assoc]
    exact labels?_wire hbounded .root rest

theorem take_eq_take_iff (h : write name buffer = .ok (.ok n, after))
    (h' : write other buffer' = .ok (.ok n', after')) :
    after.take n = after'.take n' ↔ name = other ∨ name = other ++ "." ∨ other = name ++ "." := by
  obtain ⟨⟨hl, -, rfl⟩, rfl⟩ := write_eq_ok_iff.1 h
  obtain ⟨⟨hl', -, rfl⟩, rfl⟩ := write_eq_ok_iff.1 h'
  rw [List.take_left' (length_wire_end _), List.take_left' (length_wire_end _), ← text_eq_iff hl hl']
  constructor
  · intro hw
    have hlabels : (text name).splitOn dot = (text other).splitOn dot :=
      eq_of_wire_eq (hl.bounded.mono (by decide)) (hl'.bounded.mono (by decide)) .root .root hw
    calc text name = [dot].intercalate ((text name).splitOn dot) := (List.intercalate_splitOn dot).symm
      _ = [dot].intercalate ((text other).splitOn dot) := by rw [hlabels]
      _ = text other := List.intercalate_splitOn dot
  · intro ht
    rw [ht]

end Reading

/-- Exactly the lawful names are written, if the buffer has room, and they can be read back. -/
theorem names_written_exactly (name : String) (buffer : Bytes) :
    ∃ outcome after, write name buffer = .ok (outcome, after) ∧ after.length = buffer.length ∧
      (∀ n, outcome = .ok n ↔ Lawful (text name) ∧ (text name).length + 2 ≤ buffer.length ∧
        n = (text name).length + 2) ∧
      (∀ n, outcome = .ok n → after.drop n = buffer.drop n ∧ skip? after 0 = some n ∧
        (∃ labels, labels? after = some labels ∧ [dot].intercalate labels = text name) ∧
        ∀ other buffer' n' after', write other buffer' = .ok (.ok n', after') →
          (after.take n = after'.take n' ↔
            name = other ∨ name = other ++ "." ∨ other = name ++ ".")) ∧
      ∀ cause, outcome = .error cause → cause = .invalidArgument ∧ ¬Lawful (text name) ∨
        cause = .messageTooLong ∧ buffer.length < (text name).length + 2 := by
  obtain ⟨outcome, after, hw, hstored⟩ := exists_write name buffer
  refine ⟨outcome, after, hw, hstored.length_eq, fun n => ⟨fun hn => ?_, fun hn => ?_⟩, fun n hn => ?_,
    fun cause hcause => ?_⟩
  · rw [hn] at hw
    exact (write_eq_ok_iff.1 hw).1
  · have hok := hw.symm.trans (write_eq_ok_iff.2 ⟨hn, rfl⟩)
    exact (Prod.mk.inj (Except.ok.inj hok)).1
  · rw [hn] at hw
    obtain ⟨⟨hl, -, rfl⟩, rfl⟩ := write_eq_ok_iff.1 hw
    obtain ⟨hskip, hlabels⟩ := hl.reads_back (buffer.drop ((text name).length + 2))
    refine ⟨List.drop_left' (length_wire_end _), hskip, ⟨_, hlabels, List.intercalate_splitOn dot⟩, ?_⟩
    exact fun other buffer' n' after' h' => take_eq_take_iff hw h'
  · rw [hcause] at hw
    exact of_write_eq_error hw

theorem names_written_exactly_dotted :
    let buffer : Bytes := List.replicate 7 0xEE
    Lawful (text "a.io.") ∧ (text "a.io.").length + 2 ≤ buffer.length ∧
      ∃ after, write "a.io." buffer = .ok (.ok 6, after) ∧ after.drop 6 = [0xEE] ∧
        skip? after 0 = some 6 ∧
        ∀ buffer' n' after', write "a.io" buffer' = .ok (.ok n', after') →
          after.take 6 = after'.take n' := by
  intro buffer
  have htext : text "a.io." = [97, 46, 105, 111] := by decide +kernel
  have hl : Lawful (text "a.io.") := by
    rw [htext]
    exact ⟨by decide, by decide, by decide +kernel⟩
  have hfits : (text "a.io.").length + 2 ≤ buffer.length := by
    rw [htext]
    decide
  obtain ⟨outcome, after, hw, -, hok, hread, -⟩ := names_written_exactly "a.io." buffer
  have houtcome : outcome = .ok 6 := (hok 6).2 ⟨hl, hfits, by rw [htext]; rfl⟩
  obtain ⟨hrest, hskip, -, hsame⟩ := hread 6 houtcome
  refine ⟨hl, hfits, after, houtcome ▸ hw, hrest, hskip, fun buffer' n' after' hw' => ?_⟩
  exact (hsame "a.io" buffer' n' after' hw').2 (.inr (.inl rfl))

end InetHost.Dns.Name

namespace InetHost.Dns

theorem exists_query (id : UInt16) (name : String) (capacity : Nat) :
    ∃ outcome, query id name capacity = .ok outcome := by
  unfold query
  split
  · exact ⟨_, rfl⟩
  · obtain ⟨outcome, area, hw, -⟩ := Name.exists_write name
      (List.replicate (capacity - headerLength) 0)
    rw [hw]
    cases outcome with
    | error cause => exact ⟨_, rfl⟩
    | ok length =>
      dsimp only [Bind.bind, Except.bind]
      split
      · exact ⟨_, rfl⟩
      · exact ⟨_, rfl⟩

end InetHost.Dns
