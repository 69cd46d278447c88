import InetHost.Checksum

/-! Echo messages: the header of eight bytes, the request that the host sends, and the reply that
it makes of a request. A request carries the time at which it was sent. -/

namespace InetHost.Icmp

def headerLength : Nat := 8

def requestPayload : Nat := 32

def identifier : UInt16 := 0x1234

inductive MessageType
  | echoReply
  | echoRequest
  deriving DecidableEq, Repr

def MessageType.number : MessageType → UInt8
  | echoReply => 0
  | echoRequest => 8

structure Header where
  messageType : UInt8
  code : UInt8
  checksum : UInt16
  id : UInt16
  sequence : UInt16
  deriving DecidableEq, Repr

namespace Header

def encode (h : Header) : Bytes :=
  [h.messageType, h.code] ++ Bytes.word16 h.checksum ++ Bytes.word16 h.id ++
    Bytes.word16 h.sequence

def decode? (data : Bytes) : Option Header := do
  let (messageType, data) ← Bytes.read8? data
  let (code, data) ← Bytes.read8? data
  let (checksum, data) ← Bytes.read16? data
  let (id, data) ← Bytes.read16? data
  let (sequence, _) ← Bytes.read16? data
  some ⟨messageType, code, checksum, id, sequence⟩

def parse (data : Bytes) : Except Fault (Option Header) :=
  if data.length < headerLength then .ok none
  else do
    let messageType ← data.byteAt 0
    let code ← data.byteAt 1
    let checksum ← data.word16At 2
    let id ← data.word16At 4
    let sequence ← data.word16At 6
    .ok (some ⟨messageType, code, checksum, id, sequence⟩)

@[simp] theorem decode?_encode (h : Header) (rest : Bytes) : decode? (h.encode ++ rest) = some h := by
  simp [decode?, encode]

theorem decode?_of_lt {data : Bytes} (h : data.length < headerLength) : decode? data = none := by
  rw [Option.eq_none_iff_forall_ne_some]
  intro header hd
  simp only [decode?, Option.bind_eq_bind, Option.bind_eq_some_iff, Prod.exists] at hd
  obtain ⟨_, _, h₁, _, _, h₂, _, _, h₃, _, _, h₄, _, _, h₅, -⟩ := hd
  have := Bytes.length_of_read8? h₁
  have := Bytes.length_of_read8? h₂
  have := Bytes.length_of_read16? h₃
  have := Bytes.length_of_read16? h₄
  have := Bytes.length_of_read16? h₅
  simp only [headerLength] at h
  omega

theorem headerLength_le_of_decode? {data : Bytes} {header : Header}
    (h : decode? data = some header) : headerLength ≤ data.length := by
  refine Nat.le_of_not_lt fun hl => ?_
  simp [decode?_of_lt hl] at h

theorem parse_eq_ok (data : Bytes) : parse data = .ok (decode? data) := by
  by_cases h : data.length < headerLength
  · rw [parse, if_pos h, decode?_of_lt h]
  · have hl : 8 ≤ data.length := Nat.le_of_not_lt h
    have hd : decode? data = decode? (data.drop 0) := by rw [List.drop_zero]
    rw [parse, if_neg h, hd]
    simp (disch := omega) only [decode?, ↓Bytes.bind_read8?_drop, ↓Bytes.bind_read16?_drop,
      Bytes.byteAt_eq_ok, Bytes.word16At_eq_ok]
    rfl

end Header

/-- A reply to a request of the host, with the time that it took modulo 2 ^ 32 milliseconds. -/
structure Reply where
  sequence : UInt16
  rtt : UInt32
  deriving DecidableEq, Repr

def letters (start count : Nat) : Bytes :=
  (List.range' start count).map fun i => UInt8.ofNat (65 + i % 26)

def echoRequest (sequence : UInt16) (timestamp : UInt32) : Bytes :=
  let payload := Bytes.word32 timestamp ++ letters 4 (requestPayload - 4)
  let message (checksum : UInt16) : Bytes :=
    Header.encode ⟨MessageType.echoRequest.number, 0, checksum, identifier, sequence⟩ ++ payload
  message (Checksum.ofBytes (message 0))

def echoReply : Bytes → Except Fault Bytes
  | _ :: code :: _ :: _ :: rest =>
    let message (checksum : UInt16) : Bytes :=
      [MessageType.echoReply.number, code] ++ Bytes.word16 checksum ++ rest
    .ok (message (Checksum.ofBytes (message 0)))
  | _ => .error .outOfBounds

def timestamp? (message : Bytes) : Except Fault (Option UInt32) :=
  if message.length < headerLength + 4 then .ok none
  else (message.word32At headerLength).map some

theorem timestamp?_eq_ok (message : Bytes) : ∃ sent, timestamp? message = .ok sent := by
  by_cases h : message.length < headerLength + 4
  · exact ⟨none, if_pos h⟩
  · rw [timestamp?, if_neg h, Bytes.word32At_eq_ok (by omega)]
    exact ⟨_, rfl⟩

end InetHost.Icmp
