import InetHost.Mac

/-! Ethernet frames: the sizes that bound them, the payload types the host reads, and the header
of fourteen bytes in front of every payload. -/

namespace InetHost.Ethernet

def headerLength : Nat := 14

def maxPayload : Nat := 1500

def mtu : Nat := 1500

def minFrame : Nat := 60

def maxFrame : Nat := 1514

inductive EtherType
  | ipv4
  | arp
  deriving DecidableEq, Repr

namespace EtherType

def toWord : EtherType → UInt16
  | ipv4 => 0x0800
  | arp => 0x0806

def ofWord? (v : UInt16) : Option EtherType :=
  if v = 0x0800 then some ipv4 else if v = 0x0806 then some arp else none

theorem ofWord?_toWord (t : EtherType) : ofWord? t.toWord = some t := by cases t <;> rfl

end EtherType

structure Header where
  dest : Mac
  source : Mac
  etherType : UInt16
  deriving DecidableEq, Repr

namespace Header

def encode (h : Header) : Bytes := h.dest.bytes ++ h.source.bytes ++ Bytes.word16 h.etherType

def decode? (data : Bytes) : Option Header := do
  let (dest, data) ← Mac.read? data
  let (source, data) ← Mac.read? data
  let (etherType, _) ← Bytes.read16? data
  some ⟨dest, source, etherType⟩

def parse (data : Bytes) : Except Fault (Option Header) :=
  if data.length < headerLength then .ok none
  else do
    let dest ← Mac.ofBytesAt data 0
    let source ← Mac.ofBytesAt data 6
    let etherType ← data.word16At 12
    .ok (some ⟨dest, source, etherType⟩)

def payloadType? (h : Header) : Option EtherType := EtherType.ofWord? h.etherType

def isBroadcast (h : Header) : Bool := h.dest.isBroadcast

@[simp] theorem length_encode (h : Header) : h.encode.length = headerLength := rfl

@[simp] theorem decode?_encode (h : Header) (rest : Bytes) : decode? (h.encode ++ rest) = some h := by
  simp [decode?, encode]

theorem decode?_of_lt {data : Bytes} (h : data.length < headerLength) : decode? data = none := by
  rw [Option.eq_none_iff_forall_ne_some]
  intro header hd
  simp only [decode?, Option.bind_eq_bind, Option.bind_eq_some_iff, Prod.exists] at hd
  obtain ⟨_, _, h₁, _, _, h₂, _, _, h₃, -⟩ := hd
  have := Mac.length_of_read? h₁
  have := Mac.length_of_read? h₂
  have := Bytes.length_of_read16? h₃
  simp only [headerLength] at h
  omega

theorem parse_eq_ok (data : Bytes) : parse data = .ok (decode? data) := by
  by_cases h : data.length < headerLength
  · rw [parse, if_pos h, decode?_of_lt h]
  · have hl : 14 ≤ data.length := Nat.le_of_not_lt h
    have hd : decode? data = decode? (data.drop 0) := by rw [List.drop_zero]
    rw [parse, if_neg h, hd]
    simp (disch := omega) only [decode?, ↓Mac.bind_read?_drop, ↓Bytes.bind_read16?_drop,
      Mac.ofBytesAt_eq_ok, Bytes.word16At_eq_ok]
    rfl

end Header

end InetHost.Ethernet
