import InetHost.Ethernet.Header
import InetHost.Ipv4.Address

/-! Address resolution packets for IPv4 over Ethernet. Reading checks the length alone and keeps
whatever the hardware and protocol fields say. -/

namespace InetHost.Arp

def packetLength : Nat := 28

inductive Operation
  | request
  | reply
  deriving DecidableEq, Repr

def Operation.toWord : Operation → UInt16
  | request => 1
  | reply => 2

structure Packet where
  operation : UInt16
  senderMac : Mac
  senderIp : Ipv4.Address
  targetMac : Mac
  targetIp : Ipv4.Address
  deriving DecidableEq, Repr

namespace Packet

def encode (p : Packet) : Bytes :=
  Bytes.word16 1 ++ Bytes.word16 Ethernet.EtherType.ipv4.toWord ++ [6, 4] ++
    Bytes.word16 p.operation ++ p.senderMac.bytes ++ Bytes.word32 p.senderIp ++
    p.targetMac.bytes ++ Bytes.word32 p.targetIp

def decode? (data : Bytes) : Option Packet := do
  let (_, data) ← Bytes.read16? data
  let (_, data) ← Bytes.read16? data
  let (_, data) ← Bytes.read16? data
  let (operation, data) ← Bytes.read16? data
  let (senderMac, data) ← Mac.read? data
  let (senderIp, data) ← Bytes.read32? data
  let (targetMac, data) ← Mac.read? data
  let (targetIp, _) ← Bytes.read32? data
  some ⟨operation, senderMac, senderIp, targetMac, targetIp⟩

def parse (data : Bytes) : Except Fault (Option Packet) :=
  if data.length < packetLength then .ok none
  else do
    let operation ← data.word16At 6
    let senderMac ← Mac.ofBytesAt data 8
    let senderIp ← data.word32At 14
    let targetMac ← Mac.ofBytesAt data 18
    let targetIp ← data.word32At 24
    .ok (some ⟨operation, senderMac, senderIp, targetMac, targetIp⟩)

def isRequest (p : Packet) : Bool := p.operation = Operation.request.toWord

def isReply (p : Packet) : Bool := p.operation = Operation.reply.toWord

def request (mac : Mac) (ip target : Ipv4.Address) : Packet :=
  ⟨Operation.request.toWord, mac, ip, Mac.zero, target⟩

def reply (mac : Mac) (ip : Ipv4.Address) (asked : Packet) : Packet :=
  ⟨Operation.reply.toWord, mac, ip, asked.senderMac, asked.senderIp⟩

@[simp] theorem decode?_encode (p : Packet) (rest : Bytes) : decode? (p.encode ++ rest) = some p := by
  simp [decode?, encode]

theorem decode?_of_lt {data : Bytes} (h : data.length < packetLength) : decode? data = none := by
  rw [Option.eq_none_iff_forall_ne_some]
  intro packet hd
  simp only [decode?, Option.bind_eq_bind, Option.bind_eq_some_iff, Prod.exists] at hd
  obtain ⟨_, _, h₁, _, _, h₂, _, _, h₃, _, _, h₄, _, _, h₅, _, _, h₆, _, _, h₇, _, _, h₈, -⟩ := hd
  have := Bytes.length_of_read16? h₁
  have := Bytes.length_of_read16? h₂
  have := Bytes.length_of_read16? h₃
  have := Bytes.length_of_read16? h₄
  have := Mac.length_of_read? h₅
  have := Bytes.length_of_read32? h₆
  have := Mac.length_of_read? h₇
  have := Bytes.length_of_read32? h₈
  simp only [packetLength] at h
  omega

theorem parse_eq_ok (data : Bytes) : parse data = .ok (decode? data) := by
  by_cases h : data.length < packetLength
  · rw [parse, if_pos h, decode?_of_lt h]
  · have hl : 28 ≤ data.length := Nat.le_of_not_lt h
    have hd : decode? data = decode? (data.drop 0) := by rw [List.drop_zero]
    rw [parse, if_neg h, hd]
    simp (disch := omega) only [decode?, ↓Mac.bind_read?_drop, ↓Bytes.bind_read16?_drop,
      ↓Bytes.bind_read32?_drop, Mac.ofBytesAt_eq_ok, Bytes.word16At_eq_ok, Bytes.word32At_eq_ok]
    rfl

end Packet

def wire (dest source : Mac) (packet : Packet) : Bytes :=
  (Ethernet.Header.encode ⟨dest, source, Ethernet.EtherType.arp.toWord⟩ ++ packet.encode).padTo
    Ethernet.minFrame

end InetHost.Arp
