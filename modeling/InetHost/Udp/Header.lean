import InetHost.Ipv4.Header

/-! The header of eight bytes in front of a datagram. The host sends a checksum of zero, which
IPv4 allows. -/

namespace InetHost.Udp

def headerLength : Nat := 8

def maxPayload : Nat := Ipv4.maxPayload - headerLength

structure Header where
  source : UInt16
  dest : UInt16
  length : UInt16
  checksum : UInt16
  deriving DecidableEq, Repr

namespace Header

def encode (h : Header) : Bytes :=
  Bytes.word16 h.source ++ Bytes.word16 h.dest ++ Bytes.word16 h.length ++ Bytes.word16 h.checksum

def decode? (data : Bytes) : Option Header := do
  let (source, data) ← Bytes.read16? data
  let (dest, data) ← Bytes.read16? data
  let (length, data) ← Bytes.read16? data
  let (checksum, _) ← Bytes.read16? data
  some ⟨source, dest, length, checksum⟩

def parse (data : Bytes) : Except Fault (Option Header) :=
  if data.length < headerLength then .ok none
  else do
    let source ← data.word16At 0
    let dest ← data.word16At 2
    let length ← data.word16At 4
    let checksum ← data.word16At 6
    .ok (some ⟨source, dest, length, checksum⟩)

def payload (header : Header) (message : Bytes) : Bytes :=
  (message.take header.length.toNat).drop headerLength

@[simp] theorem length_encode (h : Header) : h.encode.length = headerLength := rfl

@[simp] theorem decode?_encode (h : Header) (rest : Bytes) : decode? (h.encode ++ rest) = some h := by
  simp [decode?, encode]

theorem decode?_of_lt {data : Bytes} (h : data.length < headerLength) : decode? data = none := by
  rw [Option.eq_none_iff_forall_ne_some]
  intro header hd
  simp only [decode?, Option.bind_eq_bind, Option.bind_eq_some_iff, Prod.exists] at hd
  obtain ⟨_, _, h₁, _, _, h₂, _, _, h₃, _, _, h₄, -⟩ := hd
  have := Bytes.length_of_read16? h₁
  have := Bytes.length_of_read16? h₂
  have := Bytes.length_of_read16? h₃
  have := Bytes.length_of_read16? h₄
  simp only [headerLength] at h
  omega

theorem parse_eq_ok (data : Bytes) : parse data = .ok (decode? data) := by
  by_cases h : data.length < headerLength
  · rw [parse, if_pos h, decode?_of_lt h]
  · have hl : 8 ≤ data.length := Nat.le_of_not_lt h
    have hd : decode? data = decode? (data.drop 0) := by rw [List.drop_zero]
    rw [parse, if_neg h, hd]
    simp (disch := omega) only [decode?, ↓Bytes.bind_read16?_drop, Bytes.word16At_eq_ok]
    rfl

end Header

/-- A message is as long as its header says, or longer. -/
structure Whole (message : Bytes) (header : Header) : Prop where
  decoded : Header.decode? message = some header
  headerLength_le : headerLength ≤ header.length.toNat
  length_le : header.length.toNat ≤ message.length

def encode (source dest : UInt16) (payload : Bytes) : Bytes :=
  Header.encode ⟨source, dest, UInt16.ofNat (headerLength + payload.length), 0⟩ ++ payload

end InetHost.Udp
