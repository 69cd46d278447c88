import InetHost.Checksum
import InetHost.Ethernet.FrameBuffer
import InetHost.Ipv4.Address

/-! IPv4 headers. The host writes headers of twenty bytes without options and never fragments;
it reads headers with options too. A written header carries its own checksum. -/

namespace InetHost.Ipv4

inductive Protocol
  | icmp
  | tcp
  | udp
  deriving DecidableEq, Repr

namespace Protocol

def number : Protocol → UInt8
  | icmp => 1
  | tcp => 6
  | udp => 17

def ofNumber? (n : UInt8) : Option Protocol :=
  if n = 1 then some icmp else if n = 6 then some tcp else if n = 17 then some udp else none

theorem ofNumber?_number (p : Protocol) : ofNumber? p.number = some p := by cases p <;> rfl

end Protocol

def minHeader : Nat := 20

def maxPayload : Nat := Ethernet.mtu - minHeader

def defaultTtl : UInt8 := 64

structure Header where
  headerLength : Nat
  totalLength : UInt16
  id : UInt16
  ttl : UInt8
  protocol : UInt8
  checksum : UInt16
  source : Address
  dest : Address
  deriving DecidableEq, Repr

namespace Header

def outgoing (source dest : Address) (protocol : Protocol) (id : UInt16) (payloadLength : Nat) :
    Except Fault Header := do
  let total ← addLengths minHeader payloadLength
  .ok
    { headerLength := minHeader, totalLength := UInt16.ofNat total, id, ttl := defaultTtl,
      protocol := protocol.number, checksum := 0, source, dest }

def plain (source dest : Address) (protocol : Protocol) (id : UInt16) (payloadLength : Nat) :
    Header :=
  { headerLength := minHeader, totalLength := UInt16.ofNat (minHeader + payloadLength), id,
    ttl := defaultTtl, protocol := protocol.number, checksum := 0, source, dest }

def payload (header : Header) (data : Bytes) : Bytes :=
  (data.take header.totalLength.toNat).drop header.headerLength

def fields (h : Header) (checksum : UInt16) : Bytes :=
  [0x45, 0] ++ Bytes.word16 h.totalLength ++ Bytes.word16 h.id ++ [0, 0, h.ttl, h.protocol] ++
    Bytes.word16 checksum ++ Bytes.word32 h.source ++ Bytes.word32 h.dest

def encode (h : Header) : Bytes := h.fields (Checksum.ofBytes (h.fields 0))

def decode? (data : Bytes) : Option Header := do
  let (first, rest) ← Bytes.read8? data
  let (_, rest) ← Bytes.read8? rest
  let (totalLength, rest) ← Bytes.read16? rest
  let (id, rest) ← Bytes.read16? rest
  let (_, rest) ← Bytes.read16? rest
  let (ttl, rest) ← Bytes.read8? rest
  let (protocol, rest) ← Bytes.read8? rest
  let (checksum, rest) ← Bytes.read16? rest
  let (source, rest) ← Bytes.read32? rest
  let (dest, _) ← Bytes.read32? rest
  let headerLength := (first % 16).toNat * 4
  if first / 16 = 4 ∧ minHeader ≤ headerLength ∧ headerLength ≤ data.length then
    some ⟨headerLength, totalLength, id, ttl, protocol, checksum, source, dest⟩
  else none

def parse (data : Bytes) : Except Fault (Option Header) :=
  if data.length < minHeader then .ok none
  else do
    let first ← data.byteAt 0
    let headerLength := (first % 16).toNat * 4
    if first / 16 ≠ 4 then .ok none
    else if headerLength < minHeader ∨ data.length < headerLength then .ok none
    else do
      let totalLength ← data.word16At 2
      let id ← data.word16At 4
      let ttl ← data.byteAt 8
      let protocol ← data.byteAt 9
      let checksum ← data.word16At 10
      let source ← data.word32At 12
      let dest ← data.word32At 16
      .ok (some ⟨headerLength, totalLength, id, ttl, protocol, checksum, source, dest⟩)

@[simp] theorem length_fields (h : Header) (checksum : UInt16) :
    (h.fields checksum).length = minHeader := rfl

@[simp] theorem length_encode (h : Header) : h.encode.length = minHeader := rfl

theorem decode?_fields (h : Header) (checksum : UInt16) (rest : Bytes) :
    decode? (h.fields checksum ++ rest) = some { h with headerLength := minHeader, checksum } := by
  have hl : minHeader ≤ (h.fields checksum ++ rest).length := by simp
  simp only [decode?, fields, List.append_assoc, List.cons_append, List.nil_append,
    Bytes.read8?_cons, Bytes.read16?_word16, Bytes.read16?_cons_cons, Bytes.read32?_word32,
    Option.bind_eq_bind, Option.bind_some]
  simp only [fields, List.append_assoc, List.cons_append, List.nil_append] at hl
  exact if_pos ⟨rfl, Nat.le_refl _, hl⟩

theorem decode?_of_lt {data : Bytes} (h : data.length < minHeader) : decode? data = none := by
  rw [Option.eq_none_iff_forall_ne_some]
  intro header hd
  simp only [decode?, Option.bind_eq_bind, Option.bind_eq_some_iff, Prod.exists] at hd
  obtain ⟨_, _, h₁, _, _, h₂, _, _, h₃, _, _, h₄, _, _, h₅, _, _, h₆, _, _, h₇, _, _, h₈, _, _, h₉,
    _, _, h₁₀, -⟩ := hd
  have := Bytes.length_of_read8? h₁
  have := Bytes.length_of_read8? h₂
  have := Bytes.length_of_read16? h₃
  have := Bytes.length_of_read16? h₄
  have := Bytes.length_of_read16? h₅
  have := Bytes.length_of_read8? h₆
  have := Bytes.length_of_read8? h₇
  have := Bytes.length_of_read16? h₈
  have := Bytes.length_of_read32? h₉
  have := Bytes.length_of_read32? h₁₀
  simp only [minHeader] at h
  omega

theorem parse_eq_ok (data : Bytes) : parse data = .ok (decode? data) := by
  by_cases h : data.length < minHeader
  · rw [parse, if_pos h, decode?_of_lt h]
  · have hl : 20 ≤ data.length := Nat.le_of_not_lt h
    have hd : decode? data = decode? (data.drop 0) := by rw [List.drop_zero]
    rw [parse, if_neg h, hd]
    simp (disch := omega) only [decode?, ↓Bytes.bind_read8?_drop, ↓Bytes.bind_read16?_drop,
      ↓Bytes.bind_read32?_drop, Bytes.byteAt_eq_ok, Bytes.word16At_eq_ok, Bytes.word32At_eq_ok]
    rw [List.drop_zero]
    by_cases hv : data[0] / 16 = 4
    · by_cases hh : (data[0] % 16).toNat * 4 < minHeader ∨ data.length < (data[0] % 16).toNat * 4
      · have hc : ¬(minHeader ≤ (data[0] % 16).toNat * 4 ∧
            (data[0] % 16).toNat * 4 ≤ data.length) := fun hc => by omega
        simp only [bind, Except.bind, hv, hh, ne_eq, not_true_eq_false, if_true, if_false,
          true_and, hc]
      · have hc : minHeader ≤ (data[0] % 16).toNat * 4 ∧
            (data[0] % 16).toNat * 4 ≤ data.length := ⟨by omega, by omega⟩
        simp only [bind, Except.bind, hv, hh, ne_eq, not_true_eq_false, if_false, hc, and_self,
          if_true]
    · simp only [bind, Except.bind, hv, ne_eq, not_false_eq_true, if_true, false_and, if_false]

theorem minHeader_le_of_decode? {data : Bytes} {header : Header} (h : decode? data = some header) :
    minHeader ≤ header.headerLength ∧ header.headerLength ≤ data.length := by
  simp only [decode?, Option.bind_eq_bind, Option.bind_eq_some_iff, Prod.exists] at h
  obtain ⟨_, _, -, _, _, -, _, _, -, _, _, -, _, _, -, _, _, -, _, _, -, _, _, -, _, _, -, _, _, -, h⟩ := h
  split at h
  · rename_i hc
    obtain rfl := Option.some.inj h
    exact hc.2
  · simp at h

end Header

end InetHost.Ipv4

namespace InetHost.Ethernet.Assembly

def appendIpv4 (h : Ipv4.Header) : Assembly Unit := append h.encode

def appendPacket (dest source : Mac) (h : Ipv4.Header) (payload : Bytes) : Assembly Unit := do
  appendHeader dest source .ipv4
  appendIpv4 h
  append payload

end InetHost.Ethernet.Assembly
