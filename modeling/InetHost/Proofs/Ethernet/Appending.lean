import InetHost.Proofs.Ethernet.Assembly

/-! A frame buffer appends or refuses. Its content is what it has accepted, one area behind the other, and
no longer than a frame. An area is accepted if it fits, and is all zero until its owner writes to it; what
is refused changes nothing, and of a packet that does not fit, just the headers that do are left. This
holds until an area is asked for whose length, added to that of the content, does not fit a machine word. -/

namespace InetHost.Ethernet.FrameBuffer

/-- What the owner of an area writes to it. -/
structure Writing where
  onto : Bytes → Bytes
  length_onto (area : Bytes) : (onto area).length = area.length

def Writing.nothing : Writing := ⟨id, fun _ => rfl⟩

inductive Piece
  | data (bs : Bytes)
  | ethernet (dest source : Mac) (etherType : EtherType)
  | ipv4 (header : Ipv4.Header)

def Piece.bytes : Piece → Bytes
  | data bs => bs
  | ethernet dest source etherType => Header.encode ⟨dest, source, etherType.toWord⟩
  | ipv4 header => header.encode

def Piece.steps : Piece → Assembly Unit
  | data bs => Assembly.append bs
  | ethernet dest source etherType => Assembly.appendHeader dest source etherType
  | ipv4 header => Assembly.appendIpv4 header

inductive Call
  | reserve (n : UInt64) (writing : Writing)
  | append (piece : Piece)
  | packet (dest source : Mac) (header : Ipv4.Header) (payload : Bytes)

inductive Answer
  | area (bs : Bytes)
  | noArea
  | appended (outcome : Except NetError Unit)

def assemble (b : FrameBuffer) (steps : Assembly Unit) : FrameBuffer × Answer :=
  let (outcome, b') := steps.run.run b
  (b', .appended outcome)

def perform (b : FrameBuffer) : Call → Except Fault (FrameBuffer × Answer)
  | .reserve n writing => do
    match ← b.reserve? n.toNat 0 with
    | some b' =>
      let area := b'.data.drop b.length
      .ok (⟨b'.data.take b.length ++ writing.onto area⟩, .area area)
    | none => .ok (b, .noArea)
  | .append piece => .ok (b.assemble piece.steps)
  | .packet dest source header payload =>
    .ok (b.assemble (Assembly.appendPacket dest source header payload))

def performAll (b : FrameBuffer) : List Call → Except Fault (FrameBuffer × List Answer)
  | [] => .ok (b, [])
  | call :: calls => do
    let (b', answer) ← b.perform call
    let (b'', answers) ← b'.performAll calls
    .ok (b'', answer :: answers)

/-- What a call comes to where `data` is the content, and the areas that it appends. -/
inductive Grows (data : Bytes) : Call → Answer → List Bytes → Prop
  | area {n : UInt64} {writing : Writing} :
      data.length + n.toNat ≤ 1514 →
      Grows data (.reserve n writing) (.area (List.replicate n.toNat 0))
        [writing.onto (List.replicate n.toNat 0)]
  | noArea {n : UInt64} {writing : Writing} :
      1514 < data.length + n.toNat → Grows data (.reserve n writing) .noArea []
  | piece {piece : Piece} :
      data.length + piece.bytes.length ≤ 1514 →
      Grows data (.append piece) (.appended (.ok ())) [piece.bytes]
  | noPiece {piece : Piece} :
      1514 < data.length + piece.bytes.length →
      Grows data (.append piece) (.appended (.error .messageTooLong)) []
  | packet {dest source : Mac} {header : Ipv4.Header} {payload : Bytes} :
      data.length + (34 + payload.length) ≤ 1514 →
      Grows data (.packet dest source header payload) (.appended (.ok ()))
        [Header.encode ⟨dest, source, 0x0800⟩, header.encode, payload]
  | bothHeaders {dest source : Mac} {header : Ipv4.Header} {payload : Bytes} :
      data.length + 34 ≤ 1514 → 1514 < data.length + (34 + payload.length) →
      Grows data (.packet dest source header payload) (.appended (.error .messageTooLong))
        [Header.encode ⟨dest, source, 0x0800⟩, header.encode]
  | oneHeader {dest source : Mac} {header : Ipv4.Header} {payload : Bytes} :
      data.length + 14 ≤ 1514 → 1514 < data.length + 34 →
      Grows data (.packet dest source header payload) (.appended (.error .messageTooLong))
        [Header.encode ⟨dest, source, 0x0800⟩]
  | noHeader {dest source : Mac} {header : Ipv4.Header} {payload : Bytes} :
      1514 < data.length + 14 →
      Grows data (.packet dest source header payload) (.appended (.error .messageTooLong)) []

inductive GrowsAll : Bytes → List Call → List Answer → List Bytes → Prop
  | nil (data : Bytes) : GrowsAll data [] [] []
  | cons {data : Bytes} {call : Call} {answer : Answer} {calls : List Call} {answers : List Answer}
      {areas areas' : List Bytes} :
      Grows data call answer areas → GrowsAll (data ++ areas.flatten) calls answers areas' →
      GrowsAll data (call :: calls) (answer :: answers) (areas ++ areas')

/-- An area is asked for whose end is past what a machine word can count. -/
def Call.Overflows (data : Bytes) : Call → Prop
  | reserve n _ => lengthBound ≤ data.length + n.toNat
  | append _ | packet .. => False

inductive Overflow : Bytes → List Call → Prop
  | here {data : Bytes} {call : Call} {calls : List Call} :
      call.Overflows data → Overflow data (call :: calls)
  | later {data : Bytes} {call : Call} {answer : Answer} {areas : List Bytes} {calls : List Call} :
      Grows data call answer areas → Overflow (data ++ areas.flatten) calls →
      Overflow data (call :: calls)

section Step

variable {b : FrameBuffer} {call : Call} {answer : Answer} {areas : List Bytes}

theorem Piece.steps_eq (piece : Piece) : piece.steps = Assembly.append piece.bytes := by
  cases piece <;> rfl

theorem exists_grows (data : Bytes) (call : Call) : ∃ answer areas, Grows data call answer areas := by
  cases call with
  | reserve n writing =>
    rcases Nat.lt_or_ge 1514 (data.length + n.toNat) with h | h
    · exact ⟨_, _, .noArea h⟩
    · exact ⟨_, _, .area h⟩
  | append piece =>
    rcases Nat.lt_or_ge 1514 (data.length + piece.bytes.length) with h | h
    · exact ⟨_, _, .noPiece h⟩
    · exact ⟨_, _, .piece h⟩
  | packet dest source header payload =>
    rcases Nat.lt_or_ge 1514 (data.length + 14) with h₁ | h₁
    · exact ⟨_, _, .noHeader h₁⟩
    · rcases Nat.lt_or_ge 1514 (data.length + 34) with h₂ | h₂
      · exact ⟨_, _, .oneHeader h₁ h₂⟩
      · rcases Nat.lt_or_ge 1514 (data.length + (34 + payload.length)) with h₃ | h₃
        · exact ⟨_, _, .bothHeaders h₂ h₃⟩
        · exact ⟨_, _, .packet h₃⟩

theorem Grows.length_le {data : Bytes} (h : Grows data call answer areas) (hd : data.length ≤ 1514) :
    (data ++ areas.flatten).length ≤ 1514 := by
  cases h with
  | area h =>
    rw [List.flatten_singleton, List.length_append, Writing.length_onto, List.length_replicate]
    exact h
  | piece h =>
    rw [List.flatten_singleton, List.length_append]
    exact h
  | packet h | bothHeaders h =>
    simp only [List.flatten_cons, List.flatten_nil, List.append_nil, List.length_append,
      Header.length_encode, Ipv4.Header.length_encode, headerLength, Ipv4.minHeader]
    omega
  | oneHeader h =>
    rw [List.flatten_singleton, List.length_append]
    exact h
  | noArea | noPiece | noHeader =>
    rw [List.flatten_nil, List.append_nil]
    exact hd

theorem reserve?_of_le {n : Nat} (fill : UInt8) (h : b.length + n ≤ maxFrame) :
    b.reserve? n fill = .ok (some ⟨b.data ++ List.replicate n fill⟩) := by
  have hn : b.length + n < lengthBound := Nat.lt_of_le_of_lt h (by decide)
  rw [reserve?, addLengths_eq_ok hn]
  exact if_pos h

theorem reserve?_of_lt {n : Nat} (fill : UInt8) (h : maxFrame < b.length + n)
    (hn : b.length + n < lengthBound) : b.reserve? n fill = .ok none := by
  rw [reserve?, addLengths_eq_ok hn]
  exact if_neg (Nat.not_le.2 h)

theorem length_headers (data : Bytes) (dest source : Mac) (etherType : UInt16) (header : Ipv4.Header) :
    (⟨data ++ Header.encode ⟨dest, source, etherType⟩ ++ header.encode⟩ : FrameBuffer).length =
      data.length + 34 := by
  rw [FrameBuffer.length, List.length_append, List.length_append]
  rfl

theorem perform_of_overflows (h : call.Overflows b.data) : b.perform call = .error .overflow := by
  cases call with
  | reserve n writing =>
    have hn : addLengths b.length n.toNat = .error .overflow := if_neg (Nat.not_lt.2 h)
    rw [perform, reserve?, hn]
    rfl
  | append | packet => exact h.elim

theorem perform_of_grows (h : Grows b.data call answer areas) (ho : ¬call.Overflows b.data) :
    b.perform call = .ok (⟨b.data ++ areas.flatten⟩, answer) := by
  cases h with
  | @area n writing h =>
    -- The area is all that has come behind the former content.
    have hfront : (b.data ++ List.replicate n.toNat 0).take b.length = b.data := List.take_left
    have harea : (b.data ++ List.replicate n.toNat 0).drop b.length = List.replicate n.toNat 0 :=
      List.drop_left
    rw [perform, reserve?_of_le 0 h]
    dsimp only [bind, Except.bind]
    rw [hfront, harea, List.flatten_singleton]
  | noArea h =>
    rw [perform, reserve?_of_lt 0 h (Nat.not_le.1 ho), List.flatten_nil, List.append_nil]
    rfl
  | piece h =>
    rw [perform, assemble, Piece.steps_eq, Assembly.run_append h, List.flatten_singleton]
  | noPiece h =>
    rw [perform, assemble, Piece.steps_eq, Assembly.run_append_of_lt h, List.flatten_nil,
      List.append_nil]
  | @packet dest source header payload h =>
    have h₂ : b.length + 34 ≤ maxFrame := by
      change b.data.length + 34 ≤ 1514
      omega
    have h₃ : (⟨b.data ++ Header.encode ⟨dest, source, EtherType.ipv4.toWord⟩ ++
        header.encode⟩ : FrameBuffer).length + payload.length ≤ maxFrame := by
      rw [length_headers, Nat.add_assoc]
      exact h
    rw [perform, assemble, Assembly.run_appendPacket _ _ _ _ h₂, Assembly.run_append h₃,
      List.append_assoc, List.append_assoc]
    simp only [List.flatten_cons, List.flatten_nil, List.append_nil]
    rfl
  | @bothHeaders dest source header payload h₂ h =>
    have h₃ : maxFrame < (⟨b.data ++ Header.encode ⟨dest, source, EtherType.ipv4.toWord⟩ ++
        header.encode⟩ : FrameBuffer).length + payload.length := by
      rw [length_headers, Nat.add_assoc]
      exact h
    rw [perform, assemble, Assembly.run_appendPacket _ _ _ _ h₂, Assembly.run_append_of_lt h₃,
      List.append_assoc]
    rfl
  | @oneHeader dest source header payload h₁ h =>
    have h₂ : maxFrame < (⟨b.data ++ Header.encode ⟨dest, source, EtherType.ipv4.toWord⟩⟩ :
        FrameBuffer).length + header.encode.length := by
      rw [FrameBuffer.length, List.length_append]
      exact h
    rw [perform, assemble, Assembly.run_appendPacket_of_le _ _ _ _ h₁,
      Assembly.run_append_bind_of_lt _ h₂, List.flatten_singleton]
    rfl
  | noHeader h =>
    rw [perform, assemble, Assembly.run_appendPacket_of_lt _ _ _ _ h, List.flatten_nil, List.append_nil]

end Step

section Run

variable {data : Bytes} {calls : List Call} {answers : List Answer} {areas : List Bytes}

theorem exists_growsAll (data : Bytes) (calls : List Call) :
    ∃ answers areas, GrowsAll data calls answers areas := by
  induction calls generalizing data with
  | nil => exact ⟨[], [], .nil data⟩
  | cons call calls ih =>
    obtain ⟨answer, areas, hg⟩ := exists_grows data call
    obtain ⟨answers, areas', hgs⟩ := ih (data ++ areas.flatten)
    exact ⟨answer :: answers, areas ++ areas', .cons hg hgs⟩

theorem GrowsAll.length_le (h : GrowsAll data calls answers areas) (hd : data.length ≤ 1514) :
    (data ++ areas.flatten).length ≤ 1514 := by
  induction h with
  | nil =>
    rw [List.flatten_nil, List.append_nil]
    exact hd
  | cons hg _ ih =>
    rw [List.flatten_append, ← List.append_assoc]
    exact ih (hg.length_le hd)

theorem performAll_of_growsAll (h : GrowsAll data calls answers areas) (ho : ¬Overflow data calls) :
    (⟨data⟩ : FrameBuffer).performAll calls = .ok (⟨data ++ areas.flatten⟩, answers) := by
  induction h with
  | nil =>
    rw [List.flatten_nil, List.append_nil]
    rfl
  | @cons data call answer calls answers areas areas' hg _ ih =>
    have hfirst := perform_of_grows (b := ⟨data⟩) hg fun hc => ho (.here hc)
    have hrest := ih fun hc => ho (.later hg hc)
    rw [performAll, hfirst, List.flatten_append, ← List.append_assoc]
    change (performAll ⟨data ++ areas.flatten⟩ calls >>= _) = _
    rw [hrest]
    rfl

theorem performAll_of_overflow (h : Overflow data calls) :
    (⟨data⟩ : FrameBuffer).performAll calls = .error .overflow := by
  induction h with
  | here hc =>
    rw [performAll, perform_of_overflows hc]
    rfl
  | @later data call answer areas calls hg _ ih =>
    -- An earlier call may have ended in the fault already.
    by_cases hc : call.Overflows data
    · rw [performAll, perform_of_overflows hc]
      rfl
    · rw [performAll, perform_of_grows (b := ⟨data⟩) hg hc]
      change (performAll ⟨data ++ areas.flatten⟩ calls >>= _) = _
      rw [ih]
      rfl

end Run

/-- Areas are appended if they fit and refused if not, unless the lengths add up past a machine word. -/
theorem areas_appended_or_refused_iff (calls : List Call) : ∃ answers areas,
    GrowsAll [] calls answers areas ∧ areas.flatten.length ≤ 1514 ∧
      (empty.performAll calls = .ok (⟨areas.flatten⟩, answers) ↔ ¬Overflow [] calls) ∧
      (empty.performAll calls = .error .overflow ↔ Overflow [] calls) := by
  obtain ⟨answers, areas, h⟩ := exists_growsAll [] calls
  have hok (ho : ¬Overflow [] calls) : empty.performAll calls = .ok (⟨areas.flatten⟩, answers) :=
    performAll_of_growsAll h ho
  refine ⟨answers, areas, h, h.length_le (Nat.zero_le _), ⟨fun hp ho => ?_, hok⟩, ⟨fun hp => ?_, ?_⟩⟩
  · have hfault := (performAll_of_overflow ho).symm.trans hp
    nomatch hfault
  · refine Classical.byContradiction fun ho => ?_
    have hfault := hp.symm.trans (hok ho)
    nomatch hfault
  · exact performAll_of_overflow

def pastTheWord : List Call := [.append (.data [0]), .reserve 0xFFFFFFFFFFFFFFFF .nothing]

theorem area_past_the_word_faults :
    GrowsAll [] pastTheWord [.appended (.ok ()), .noArea] [[0]] ∧
      empty.performAll pastTheWord = .error .overflow := by
  have hfirst : Grows [] (.append (.data [0])) (.appended (.ok ())) [[0]] :=
    .piece (by decide)
  have hsecond : Grows [0] (.reserve 0xFFFFFFFFFFFFFFFF .nothing) .noArea [] := .noArea (by decide)
  exact ⟨.cons hfirst (.cons hsecond (.nil _)), rfl⟩

end InetHost.Ethernet.FrameBuffer
