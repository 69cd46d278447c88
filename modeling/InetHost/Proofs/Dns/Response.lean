import Mathlib.Data.List.Basic
import InetHost.Dns.Message

/-! The grammar of name service responses. A response is put together from a header, questions, records
that give no address, and the first record that gives one; the reader of responses finds an address
exactly in the byte strings that are put together so, and otherwise says what is the first thing wrong. -/

namespace InetHost.Dns

open Bytes

namespace Name

/-- What is below the pointers counts as the length of a label. -/
inductive Written : Bytes → Prop
  | root : Written [0]
  | pointer {high : UInt8} (low : UInt8) : 0xC0 ≤ high → Written [high, low]
  | label {length : UInt8} {label name : Bytes} :
      length ≠ 0 → length < 0xC0 → label.length = length.toNat → Written name →
      Written (length :: (label ++ name))

theorem Written.length_pos {name : Bytes} (h : Written name) : 0 < name.length := by
  cases h <;> exact Nat.succ_pos _

theorem Written.length?_append {name : Bytes} (h : Written name) (rest : Bytes) :
    length? (name ++ rest) = some name.length := by
  induction h with
  | root =>
    rw [List.cons_append, length?, if_pos rfl]
    rfl
  | @pointer high low hh =>
    have hz : high ≠ 0 := by
      rintro rfl
      exact absurd hh (by decide)
    rw [List.cons_append, length?, if_neg hz, if_pos hh]
    rfl
  | @label length label name hz hl hn _ ih =>
    rw [List.cons_append, length?, if_neg hz, if_neg (UInt8.not_le.2 hl), List.append_assoc,
      List.drop_left' hn, ih, Option.map_some, List.length_cons, List.length_append, hn]
    congr 1
    omega

theorem exists_written_of_length? {bs : Bytes} {n : Nat} (h : length? bs = some n) :
    ∃ name rest, Written name ∧ name.length = n ∧ bs = name ++ rest := by
  fun_induction length? bs generalizing n with
  | case1 => cases h
  | case2 rest =>
    obtain rfl := Option.some.inj h
    exact ⟨[0], rest, .root, rfl, rfl⟩
  | case3 => cases h
  | case4 high rest _ hh hr =>
    obtain rfl := Option.some.inj h
    obtain ⟨low, rest, rfl⟩ := List.exists_cons_of_ne_nil hr
    exact ⟨[high, low], rest, .pointer low hh, rfl, rfl⟩
  | case5 length rest hz hl ih =>
    obtain ⟨m, hm, rfl⟩ := Option.map_eq_some_iff.1 h
    obtain ⟨name, tail, hw, rfl, ht⟩ := ih hm
    -- A label that is cut short would leave nothing for the name behind it.
    have hle : length.toNat ≤ rest.length := by
      have hsum := congrArg List.length ht
      have hpos := hw.length_pos
      rw [List.length_drop, List.length_append] at hsum
      omega
    have hn : (rest.take length.toNat).length = length.toNat := List.length_take_of_le hle
    refine ⟨length :: (rest.take length.toNat ++ name), tail,
      .label hz (UInt8.not_le.1 hl) hn hw, ?_, ?_⟩
    · rw [List.length_cons, List.length_append, hn]
      omega
    · rw [List.cons_append, List.append_assoc, ← ht, List.take_append_drop]

theorem rest?_eq_some_iff {bs rest : Bytes} :
    rest? bs = some rest ↔ ∃ name, Written name ∧ bs = name ++ rest := by
  rw [rest?, Option.map_eq_some_iff]
  constructor
  · rintro ⟨n, hn, rfl⟩
    obtain ⟨name, tail, hw, rfl, rfl⟩ := exists_written_of_length? hn
    exact ⟨name, hw, by rw [List.drop_left]⟩
  · rintro ⟨name, hw, rfl⟩
    exact ⟨name.length, hw.length?_append rest, List.drop_left⟩

theorem skip?_eq_some_iff {message : Bytes} {pos stop : Nat} : skip? message pos = some stop ↔
    ∃ name, Written name ∧ name <+: message.drop pos ∧ stop = pos + name.length := by
  rw [skip?, Option.map_eq_some_iff]
  constructor
  · rintro ⟨n, hn, rfl⟩
    obtain ⟨name, rest, hw, rfl, hb⟩ := exists_written_of_length? hn
    exact ⟨name, hw, ⟨rest, hb.symm⟩, rfl⟩
  · rintro ⟨name, hw, ⟨rest, hb⟩, rfl⟩
    exact ⟨name.length, hb ▸ hw.length?_append rest, rfl⟩

end Name

inductive Question : Bytes → Prop
  | mk {name fixed : Bytes} : Name.Written name → fixed.length = 4 → Question (name ++ fixed)

theorem skipQuestions?_eq_some_iff {count : Nat} {bs rest : Bytes} (hr : rest ≠ []) :
    skipQuestions? count bs = some rest ↔ ∃ questions : List Bytes, questions.length = count ∧
      (∀ q ∈ questions, Question q) ∧ bs = questions.flatten ++ rest := by
  induction count generalizing bs with
  | zero =>
    simp only [skipQuestions?, Option.some.injEq, List.length_eq_zero_iff]
    constructor
    · rintro rfl
      exact ⟨[], rfl, nofun, rfl⟩
    · rintro ⟨_, rfl, -, h⟩
      exact h
  | succ count ih =>
    simp only [skipQuestions?, Option.bind_eq_some_iff, Name.rest?_eq_some_iff, ih]
    constructor
    · rintro ⟨behind, ⟨name, hw, rfl⟩, questions, rfl, hq, hb⟩
      have hlong : 4 ≤ behind.length := by
        have hsum := congrArg List.length hb
        have hpos := List.length_pos_iff.2 hr
        rw [List.length_drop, List.length_append] at hsum
        omega
      have hfirst : Question (name ++ behind.take 4) :=
        .mk hw (List.length_take_of_le hlong)
      refine ⟨(name ++ behind.take 4) :: questions, rfl, List.forall_mem_cons.2 ⟨hfirst, hq⟩, ?_⟩
      rw [List.flatten_cons, List.append_assoc, List.append_assoc, ← hb, List.take_append_drop]
    · rintro ⟨questions, hl, hq, rfl⟩
      cases questions with
      | nil => cases hl
      | cons question questions =>
        have hrest : ∀ q ∈ questions, Question q := fun q h => hq q (List.mem_cons_of_mem _ h)
        obtain @⟨name, fixed, hw, hf⟩ := hq question List.mem_cons_self
        refine ⟨fixed ++ (questions.flatten ++ rest), ⟨name, hw, ?_⟩, questions,
          Nat.succ.inj hl, hrest, List.drop_left' hf⟩
        rw [List.flatten_cons, List.append_assoc, List.append_assoc]

namespace Record

/-- What is below the pointers counts as the length of a label. -/
inductive Written (r : Record) : Bytes → Prop
  | mk {name : Bytes} (recordClass : UInt16) (timeToLive : UInt32) {length : UInt16} :
      Name.Written name → r.data.length = length.toNat →
      Written r (name ++ (word16 r.recordType ++ (word16 recordClass ++ (word32 timeToLive ++
        (word16 length ++ r.data)))))

theorem read?_eq_some_iff {r : Record} {bs rest : Bytes} :
    read? bs = some (r, rest) ↔ ∃ front, r.Written front ∧ bs = front ++ rest := by
  simp only [read?, Option.bind_eq_bind, Option.bind_eq_some_iff, Prod.exists, read16?_eq_some_iff,
    read32?_eq_some_iff, skip?_eq_some_iff, Name.rest?_eq_some_iff]
  constructor
  · rintro ⟨_, ⟨name, hw, rfl⟩, recordType, _, rfl, recordClass, _, rfl, timeToLive, _, rfl, length,
      body, rfl, _, ⟨hl, rfl⟩, hr⟩
    obtain ⟨rfl, rfl⟩ := Prod.mk.inj (Option.some.inj hr)
    refine ⟨_, .mk recordClass timeToLive hw (List.length_take_of_le hl), ?_⟩
    simp only [List.append_assoc, List.take_append_drop]
  · rintro ⟨_, @⟨name, recordClass, timeToLive, length, hw, hd⟩, rfl⟩
    refine ⟨_, ⟨name, hw, List.append_assoc ..⟩, r.recordType, _, List.append_assoc ..,
      recordClass, _, List.append_assoc .., timeToLive, _, List.append_assoc .., length, _,
      List.append_assoc .., rest, ⟨?_, List.drop_left' hd⟩, ?_⟩
    · rw [List.length_append, hd]
      exact Nat.le_add_right _ _
    · rw [List.take_left' hd]

def IsAddress (r : Record) : Prop := r.recordType = typeAddress ∧ r.data.length = 4

theorem address?_eq_some_iff {r : Record} {ip : Ipv4.Address} :
    r.address? = some ip ↔ r = ⟨typeAddress, word32 ip⟩ := by
  constructor
  · intro h
    obtain ⟨recordType, data⟩ := r
    rw [address?, Option.ite_none_right_eq_some] at h
    obtain ⟨rfl, h⟩ := h
    match data, h with
    | [a, b, c, d], h =>
      obtain rfl := Option.some.inj h
      rw [word32_join32]
  · rintro rfl
    exact (if_pos rfl).trans (congrArg some (join32_word32 ip))

theorem address?_eq_none_iff {r : Record} : r.address? = none ↔ ¬r.IsAddress := by
  constructor
  · rintro h ⟨ht, hl⟩
    obtain ⟨a, b, c, d, hd⟩ := List.length_eq_four.1 hl
    rw [address?, if_pos ht, hd] at h
    cases h
  · intro h
    refine Option.eq_none_iff_forall_ne_some.2 fun ip hip => h ?_
    obtain rfl := address?_eq_some_iff.1 hip
    exact ⟨rfl, length_word32 ip⟩

/-- A complete record that gives no address. -/
inductive Passed : Bytes → Prop
  | mk {r : Record} {front : Bytes} : r.Written front → ¬r.IsAddress → Passed front

end Record

theorem firstAddress?_succ_eq_some_iff {count : Nat} {bs : Bytes} {ip : Ipv4.Address} :
    firstAddress? (count + 1) bs = some ip ↔ ∃ r rest, Record.read? bs = some (r, rest) ∧
      (r.address? = some ip ∨ r.address? = none ∧ firstAddress? count rest = some ip) := by
  rw [firstAddress?]
  cases Record.read? bs with
  | none => simp
  | some front =>
    obtain ⟨r, rest⟩ := front
    cases hr : r.address? with
    | none => simp [hr]
    | some ip' => simp [hr]

theorem firstAddress?_eq_some_iff {count : Nat} {bs : Bytes} {ip : Ipv4.Address} :
    firstAddress? count bs = some ip ↔ ∃ (passed : List Bytes) (record rest : Bytes),
      passed.length < count ∧ (∀ r ∈ passed, Record.Passed r) ∧
      Record.Written ⟨typeAddress, word32 ip⟩ record ∧ bs = passed.flatten ++ (record ++ rest) := by
  induction count generalizing bs with
  | zero =>
    constructor
    · intro h
      cases h
    · rintro ⟨passed, -, -, hl, -⟩
      cases hl
  | succ count ih =>
    simp only [firstAddress?_succ_eq_some_iff, Record.read?_eq_some_iff, ih]
    constructor
    · rintro ⟨r, rest, ⟨front, hw, rfl⟩, ha | ⟨hn, passed, record, rest, hl, hp, hr, rfl⟩⟩
      · obtain rfl := Record.address?_eq_some_iff.1 ha
        exact ⟨[], front, rest, Nat.succ_pos count, nofun, hw, rfl⟩
      · have hfront : Record.Passed front := .mk hw (Record.address?_eq_none_iff.1 hn)
        refine ⟨front :: passed, record, rest, Nat.succ_lt_succ hl,
          List.forall_mem_cons.2 ⟨hfront, hp⟩, hr, ?_⟩
        rw [List.flatten_cons, List.append_assoc]
    · rintro ⟨passed, record, rest, hl, hp, hr, rfl⟩
      cases passed with
      | nil => exact ⟨_, rest, ⟨record, hr, rfl⟩, .inl (Record.address?_eq_some_iff.2 rfl)⟩
      | cons front passed =>
        obtain @⟨r, _, hw, hn⟩ := hp front List.mem_cons_self
        have hpassed : ∀ r ∈ passed, Record.Passed r := fun r h => hp r (List.mem_cons_of_mem _ h)
        refine ⟨r, passed.flatten ++ (record ++ rest), ⟨front, hw, ?_⟩,
          .inr ⟨Record.address?_eq_none_iff.2 hn, passed, record, rest, Nat.lt_of_succ_lt_succ hl,
            hpassed, hr, rfl⟩⟩
        rw [List.flatten_cons, List.append_assoc]

namespace Header

theorem decode?_eq_some_iff {data : Bytes} {h : Header} :
    decode? data = some h ↔ ∃ body, data = h.encode ++ body := by
  constructor
  · intro hd
    simp only [decode?, Option.bind_eq_bind, Option.bind_eq_some_iff, Prod.exists,
      read16?_eq_some_iff] at hd
    obtain ⟨id, _, rfl, flags, _, rfl, questions, _, rfl, answers, _, rfl, authorities, _, rfl,
      additionals, body, rfl, hd⟩ := hd
    obtain rfl := Option.some.inj hd
    exact ⟨body, by simp only [encode, List.append_assoc]⟩
  · rintro ⟨body, rfl⟩
    exact decode?_encode h body

theorem decode?_eq_none_iff {data : Bytes} : decode? data = none ↔ data.length < headerLength := by
  constructor
  · intro h
    refine Nat.lt_of_not_le fun hl => ?_
    match data, hl, h with
    | _ :: _ :: _ :: _ :: _ :: _ :: _ :: _ :: _ :: _ :: _ :: _ :: _, _, h => cases h
  · intro h
    refine Option.eq_none_iff_forall_ne_some.2 fun header hd => ?_
    obtain ⟨body, rfl⟩ := decode?_eq_some_iff.1 hd
    rw [List.length_append, length_encode] at h
    omega

end Header

/-- A response to the query `id` whose first address is `ip`. -/
inductive Response (id : UInt16) (ip : Ipv4.Address) : Bytes → Prop
  | mk {header : Header} {questions passed : List Bytes} {record : Bytes} (rest : Bytes) :
      header.id = id → header.isResponse = true → header.answers ≠ 0 →
      questions.length = header.questions.toNat → (∀ q ∈ questions, Question q) →
      passed.length < header.answers.toNat → (∀ r ∈ passed, Record.Passed r) →
      Record.Written ⟨typeAddress, word32 ip⟩ record →
      Response id ip (header.encode ++ (questions.flatten ++ (passed.flatten ++ (record ++ rest))))

/-- What is the first thing wrong with a message as a response to the query `id`. -/
inductive Refused (id : UInt16) : Bytes → NetError → Prop
  | short {message : Bytes} : message.length < headerLength → Refused id message .dnsNoResponse
  | mismatched {header : Header} (body : Bytes) :
      header.id ≠ id → Refused id (header.encode ++ body) .dnsIdMismatch
  | query {header : Header} (body : Bytes) :
      header.id = id → header.isResponse = false →
      Refused id (header.encode ++ body) .dnsNotResponse
  | unanswered {header : Header} (body : Bytes) :
      header.id = id → header.isResponse = true → header.answers = 0 →
      Refused id (header.encode ++ body) .dnsNoAnswers
  | addressless {header : Header} {body : Bytes} :
      header.id = id → header.isResponse = true → header.answers ≠ 0 →
      (∀ ip, ¬Response id ip (header.encode ++ body)) →
      Refused id (header.encode ++ body) .dnsNoARecord

section Reading

variable {id : UInt16} {ip : Ipv4.Address} {header : Header} {body message : Bytes} {cause : NetError}

def Header.address? (header : Header) (body : Bytes) : Option Ipv4.Address :=
  (skipQuestions? header.questions.toNat body).bind (firstAddress? header.answers.toNat)

theorem Header.address?_eq_some_iff : header.address? body = some ip ↔
    ∃ (questions passed : List Bytes) (record rest : Bytes),
      (questions.length = header.questions.toNat ∧ ∀ q ∈ questions, Question q) ∧
      (passed.length < header.answers.toNat ∧ ∀ r ∈ passed, Record.Passed r) ∧
      Record.Written ⟨typeAddress, word32 ip⟩ record ∧
      body = questions.flatten ++ (passed.flatten ++ (record ++ rest)) := by
  -- The record of the address is what makes sure that the questions are whole.
  have hne {passed : List Bytes} {record rest : Bytes}
      (h : Record.Written ⟨typeAddress, word32 ip⟩ record) :
      passed.flatten ++ (record ++ rest) ≠ [] := by
    obtain @⟨name, _, _, _, hw, -⟩ := h
    have := hw.length_pos
    refine List.ne_nil_of_length_pos ?_
    simp only [List.length_append]
    omega
  rw [address?, Option.bind_eq_some_iff]
  constructor
  · rintro ⟨behind, hs, ha⟩
    obtain ⟨passed, record, rest, hl, hp, hr, rfl⟩ := firstAddress?_eq_some_iff.1 ha
    obtain ⟨questions, hc, hq, rfl⟩ := (skipQuestions?_eq_some_iff (hne hr)).1 hs
    exact ⟨questions, passed, record, rest, ⟨hc, hq⟩, ⟨hl, hp⟩, hr, rfl⟩
  · rintro ⟨questions, passed, record, rest, ⟨hc, hq⟩, ⟨hl, hp⟩, hr, rfl⟩
    refine ⟨passed.flatten ++ (record ++ rest), ?_, ?_⟩
    · exact (skipQuestions?_eq_some_iff (hne hr)).2 ⟨questions, hc, hq, rfl⟩
    · exact firstAddress?_eq_some_iff.2 ⟨passed, record, rest, hl, hp, hr, rfl⟩

theorem Response.encode_append_iff : Response id ip (header.encode ++ body) ↔ header.id = id ∧
    header.isResponse = true ∧ header.answers ≠ 0 ∧ header.address? body = some ip := by
  constructor
  · intro h
    generalize hm : header.encode ++ body = message at h
    obtain @⟨header', questions, passed, record, rest, hi, hr, ha, hc, hq, hl, hp, hw⟩ := h
    obtain rfl : header = header' := by
      have := congrArg Header.decode? hm
      rw [Header.decode?_encode, Header.decode?_encode] at this
      exact Option.some.inj this
    obtain rfl := List.append_cancel_left hm
    exact ⟨hi, hr, ha, Header.address?_eq_some_iff.2
      ⟨questions, passed, record, rest, ⟨hc, hq⟩, ⟨hl, hp⟩, hw, rfl⟩⟩
  · rintro ⟨hi, hr, ha, hb⟩
    obtain ⟨questions, passed, record, rest, ⟨hc, hq⟩, ⟨hl, hp⟩, hw, rfl⟩ :=
      Header.address?_eq_some_iff.1 hb
    exact .mk rest hi hr ha hc hq hl hp hw

theorem address_encode_append : address id (header.encode ++ body) =
    if header.id ≠ id then .error .dnsIdMismatch
    else if !header.isResponse then .error .dnsNotResponse
    else if header.answers = 0 then .error .dnsNoAnswers
    else match header.address? body with
      | some ip => .ok ip
      | none => .error .dnsNoARecord := by
  rw [address, Header.decode?_encode, List.drop_left' header.length_encode]
  rfl

theorem Response.address_eq_ok (h : Response id ip message) : address id message = .ok ip := by
  have hform : ∃ (header : Header) (body : Bytes), message = header.encode ++ body := by
    cases h
    exact ⟨_, _, rfl⟩
  obtain ⟨header, body, rfl⟩ := hform
  obtain ⟨hi, hr, ha, hb⟩ := Response.encode_append_iff.1 h
  rw [address_encode_append, if_neg (not_not.2 hi), hr, if_neg (by decide), if_neg ha, hb]

theorem Refused.address_eq_error (h : Refused id message cause) :
    address id message = .error cause := by
  cases h with
  | short hl => rw [address, Header.decode?_eq_none_iff.2 hl]
  | mismatched body hi => rw [address_encode_append, if_pos hi]
  | query body hi hr =>
    rw [address_encode_append, if_neg (not_not.2 hi), hr, if_pos (by decide)]
  | unanswered body hi hr ha =>
    rw [address_encode_append, if_neg (not_not.2 hi), hr, if_neg (by decide), if_pos ha]
  | @addressless header body hi hr ha hn =>
    have hb : header.address? body = none := Option.eq_none_iff_forall_ne_some.2 fun ip hip =>
      hn ip (Response.encode_append_iff.2 ⟨hi, hr, ha, hip⟩)
    rw [address_encode_append, if_neg (not_not.2 hi), hr, if_neg (by decide), if_neg ha, hb]

theorem exists_response_or_refused (id : UInt16) (message : Bytes) :
    (∃ ip, Response id ip message) ∨ ∃ cause, Refused id message cause := by
  cases hd : Header.decode? message with
  | none => exact .inr ⟨_, .short (Header.decode?_eq_none_iff.1 hd)⟩
  | some header =>
    obtain ⟨body, rfl⟩ := Header.decode?_eq_some_iff.1 hd
    by_cases hi : header.id = id
    · cases hr : header.isResponse with
      | false => exact .inr ⟨_, .query body hi hr⟩
      | true =>
        by_cases ha : header.answers = 0
        · exact .inr ⟨_, .unanswered body hi hr ha⟩
        · by_cases hn : ∃ ip, Response id ip (header.encode ++ body)
          · exact .inl hn
          · exact .inr ⟨_, .addressless hi hr ha (not_exists.1 hn)⟩
    · exact .inr ⟨_, .mismatched body hi⟩

end Reading

/-- An address is found exactly in the responses that give one; else the first flaw is named. -/
theorem address_follows_grammar (id : UInt16) (message : Bytes) :
    (∀ ip, address id message = .ok ip ↔ Response id ip message) ∧
      ∀ cause, address id message = .error cause ↔ Refused id message cause := by
  refine ⟨fun ip => ⟨fun h => ?_, Response.address_eq_ok⟩,
    fun cause => ⟨fun h => ?_, Refused.address_eq_error⟩⟩
  · obtain ⟨ip', hr⟩ | ⟨cause, hr⟩ := exists_response_or_refused id message
    · obtain rfl := Except.ok.inj (h.symm.trans hr.address_eq_ok)
      exact hr
    · cases h.symm.trans hr.address_eq_error
  · obtain ⟨ip, hr⟩ | ⟨cause', hr⟩ := exists_response_or_refused id message
    · cases h.symm.trans hr.address_eq_ok
    · obtain rfl := Except.error.inj (h.symm.trans hr.address_eq_error)
      exact hr

end InetHost.Dns
