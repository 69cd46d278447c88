import InetHost.Ipv4.Header

/-! TCP segments: the flags, the header of twenty bytes that the host writes, the headers with
options that it also reads, and segments with their checksum. -/

namespace InetHost.Tcp

def minHeader : Nat := 20

def maxPayload : Nat := Ipv4.maxPayload - minHeader

structure Flags where
  fin : Bool := false
  syn : Bool := false
  rst : Bool := false
  psh : Bool := false
  ack : Bool := false
  urg : Bool := false
  deriving DecidableEq, Repr

namespace Flags

/-- The two high bits of the flag byte carry no flag. -/
def ofByte (b : UInt8) : Flags :=
  { fin := b % 2 = 1, syn := b / 2 % 2 = 1, rst := b / 4 % 2 = 1, psh := b / 8 % 2 = 1,
    ack := b / 16 % 2 = 1, urg := b / 32 % 2 = 1 }

def toByte (f : Flags) : UInt8 :=
  (if f.fin then 1 else 0) + (if f.syn then 2 else 0) + (if f.rst then 4 else 0) +
    (if f.psh then 8 else 0) + (if f.ack then 16 else 0) + (if f.urg then 32 else 0)

theorem ofByte_toByte (f : Flags) : ofByte f.toByte = f := by
  obtain ⟨a, b, c, d, e, g⟩ := f
  cases a <;> cases b <;> cases c <;> cases d <;> cases e <;> cases g <;> rfl

end Flags

structure Header where
  source : UInt16
  dest : UInt16
  seq : UInt32
  ack : UInt32
  dataOffset : Nat
  flags : Flags
  window : UInt16
  checksum : UInt16
  deriving DecidableEq, Repr

namespace Header

def fields (h : Header) (checksum : UInt16) : Bytes :=
  Bytes.word16 h.source ++ Bytes.word16 h.dest ++ Bytes.word32 h.seq ++ Bytes.word32 h.ack ++
    [0x50, h.flags.toByte] ++ Bytes.word16 h.window ++ Bytes.word16 checksum ++ [0, 0]

def encode (h : Header) : Bytes := h.fields 0

def decode? (data : Bytes) : Option Header := do
  let (source, rest) ← Bytes.read16? data
  let (dest, rest) ← Bytes.read16? rest
  let (seq, rest) ← Bytes.read32? rest
  let (ack, rest) ← Bytes.read32? rest
  let (offset, rest) ← Bytes.read8? rest
  let (flags, rest) ← Bytes.read8? rest
  let (window, rest) ← Bytes.read16? rest
  let (checksum, rest) ← Bytes.read16? rest
  let (_, _) ← Bytes.read16? rest
  let dataOffset := (offset / 16).toNat * 4
  if minHeader ≤ dataOffset ∧ dataOffset ≤ data.length then
    some ⟨source, dest, seq, ack, dataOffset, Flags.ofByte flags, window, checksum⟩
  else none

def parse (data : Bytes) : Except Fault (Option Header) :=
  if data.length < minHeader then .ok none
  else do
    let dataOffset := ((← data.byteAt 12) / 16).toNat * 4
    if dataOffset < minHeader ∨ data.length < dataOffset then .ok none
    else do
      let source ← data.word16At 0
      let dest ← data.word16At 2
      let seq ← data.word32At 4
      let ack ← data.word32At 8
      let flags ← data.byteAt 13
      let window ← data.word16At 14
      let checksum ← data.word16At 16
      .ok (some ⟨source, dest, seq, ack, dataOffset, Flags.ofByte flags, window, checksum⟩)

def segment (h : Header) (data : Bytes) (source dest : Ipv4.Address) : Bytes :=
  h.fields (Checksum.transport source dest Ipv4.Protocol.tcp.number (h.fields 0 ++ data)) ++ data

@[simp] theorem length_fields (h : Header) (checksum : UInt16) :
    (h.fields checksum).length = minHeader := rfl

@[simp] theorem length_segment (h : Header) (data : Bytes) (source dest : Ipv4.Address) :
    (h.segment data source dest).length = minHeader + data.length := by
  simp [segment]

theorem decode?_fields (h : Header) (checksum : UInt16) (rest : Bytes) :
    decode? (h.fields checksum ++ rest) = some { h with dataOffset := minHeader, checksum } := by
  have hl : minHeader ≤ (h.fields checksum ++ rest).length := by simp
  simp only [decode?, fields, List.append_assoc, List.cons_append, List.nil_append,
    Bytes.read8?_cons, Bytes.read16?_word16, Bytes.read32?_word32, Option.bind_eq_bind,
    Option.bind_some, Bytes.read16?_cons_cons, Flags.ofByte_toByte]
  simp only [fields, List.append_assoc, List.cons_append, List.nil_append] at hl
  exact if_pos ⟨Nat.le_refl _, hl⟩

theorem decode?_of_lt {data : Bytes} (h : data.length < minHeader) : decode? data = none := by
  rw [Option.eq_none_iff_forall_ne_some]
  intro header hd
  simp only [decode?, Option.bind_eq_bind, Option.bind_eq_some_iff, Prod.exists] at hd
  obtain ⟨_, _, h₁, _, _, h₂, _, _, h₃, _, _, h₄, _, _, h₅, _, _, h₆, _, _, h₇, _, _, h₈, _, _, h₉,
    -⟩ := hd
  have := Bytes.length_of_read16? h₁
  have := Bytes.length_of_read16? h₂
  have := Bytes.length_of_read32? h₃
  have := Bytes.length_of_read32? h₄
  have := Bytes.length_of_read8? h₅
  have := Bytes.length_of_read8? h₆
  have := Bytes.length_of_read16? h₇
  have := Bytes.length_of_read16? h₈
  have := Bytes.length_of_read16? h₉
  simp only [minHeader] at h
  omega

theorem parse_eq_ok (data : Bytes) : parse data = .ok (decode? data) := by
  by_cases h : data.length < minHeader
  · rw [parse, if_pos h, decode?_of_lt h]
  · have hl : 20 ≤ data.length := Nat.le_of_not_lt h
    have hd : decode? data = decode? (data.drop 0) := by rw [List.drop_zero]
    rw [parse, if_neg h, hd]
    simp (disch := omega) only [decode?, ↓Bytes.bind_read8?_drop, ↓Bytes.bind_read16?_drop,
      ↓Bytes.bind_read32?_drop, Bytes.byteAt_eq_ok, Bytes.word16At_eq_ok, Bytes.word32At_eq_ok]
    rw [List.drop_zero]
    by_cases hh : (data[12] / 16).toNat * 4 < minHeader ∨ data.length < (data[12] / 16).toNat * 4
    · have hc : ¬(minHeader ≤ (data[12] / 16).toNat * 4 ∧ (data[12] / 16).toNat * 4 ≤ data.length) :=
        fun hc => by omega
      simp only [bind, Except.bind, hh, if_true, hc, if_false]
    · have hc : minHeader ≤ (data[12] / 16).toNat * 4 ∧ (data[12] / 16).toNat * 4 ≤ data.length :=
        ⟨by omega, by omega⟩
      simp only [bind, Except.bind, hh, if_false, hc, and_self, if_true]

theorem dataOffset_le_of_decode? {data : Bytes} {header : Header}
    (h : decode? data = some header) : header.dataOffset ≤ data.length := by
  simp only [decode?, Option.bind_eq_bind, Option.bind_eq_some_iff, Prod.exists] at h
  obtain ⟨_, _, -, _, _, -, _, _, -, _, _, -, _, _, -, _, _, -, _, _, -, _, _, -, _, _, -, h⟩ := h
  split at h
  · rename_i hc
    obtain rfl := Option.some.inj h
    exact hc.2
  · simp at h

end Header

end InetHost.Tcp
