import InetHost.Proofs.Host.Frames

/-! What can come of a frame. A host that handles a frame may answer it, and before it answers it may
ask for a hardware address. The stake of a frame covers all the frames that are handed over for it,
each with its own stake; answers have less at stake than what they answer, but for the offer of a
connection, for which the listening socket is staked as well. -/

namespace InetHost

def Arp.stake (data : Bytes) : Nat :=
  match Packet.decode? data with
  | some packet => if packet.isRequest then 1 else 0
  | none => 0

def Icmp.stake (message : Bytes) : Nat :=
  match Header.decode? message with
  | some header => if header.messageType = MessageType.echoRequest.number then 3 else 0
  | none => 0

def Tcp.stake (message : Bytes) : Nat :=
  match Header.decode? message with
  | some header =>
    if header.flags.syn ∨ header.flags.fin ∨ header.dataOffset < message.length then 3 else 0
  | none => 0

namespace Ipv4

def Protocol.stake : Protocol → Bytes → Nat
  | icmp => Icmp.stake
  | tcp => Tcp.stake
  | udp => fun _ => 0

def stake (data : Bytes) : Nat :=
  match Header.decode? data with
  | some header =>
    match Protocol.ofNumber? header.protocol with
    | some protocol =>
      protocol.stake ((data.drop header.headerLength).take
        (header.totalLength.toNat - header.headerLength))
    | none => 0
  | none => 0

end Ipv4

/-- What can come of the handling of a frame. -/
def Ethernet.stake (frame : Bytes) : Nat :=
  match Header.decode? frame with
  | some header =>
    match header.payloadType? with
    | some .arp => Arp.stake (frame.drop headerLength)
    | some .ipv4 => Ipv4.stake (frame.drop headerLength)
    | none => 0
  | none => 0

theorem Arp.stake_le (data : Bytes) : stake data ≤ 1 := by
  unfold stake
  split
  · split <;> decide
  · decide

theorem Icmp.stake_le (message : Bytes) : stake message ≤ 3 := by
  unfold stake
  split
  · split <;> decide
  · decide

theorem Tcp.stake_le (message : Bytes) : stake message ≤ 3 := by
  unfold stake
  split
  · split <;> decide
  · decide

theorem Ipv4.Protocol.stake_le (protocol : Protocol) (message : Bytes) :
    protocol.stake message ≤ 3 := by
  cases protocol with
  | icmp => exact Icmp.stake_le message
  | tcp => exact Tcp.stake_le message
  | udp => exact Nat.zero_le 3

theorem Ipv4.stake_le (data : Bytes) : stake data ≤ 3 := by
  unfold stake
  split
  · split
    · exact Protocol.stake_le _ _
    · decide
  · decide

theorem Ethernet.stake_le (frame : Bytes) : stake frame ≤ 3 := by
  unfold stake
  split
  · split
    · exact Nat.le_trans (Arp.stake_le _) (by decide)
    · exact Ipv4.stake_le _
    · decide
  · decide

/-! What is at stake in the frames that a host hands over. -/

theorem Arp.wire_eq (dest source : Mac) (packet : Packet) : wire dest source packet =
    Ethernet.Header.encode ⟨dest, source, Ethernet.EtherType.arp.toWord⟩ ++
      (packet.encode ++ List.replicate 18 0) := by
  rw [wire, Bytes.padTo, List.append_assoc]
  rfl

theorem Arp.drop_wire (dest source : Mac) (packet : Packet) :
    (wire dest source packet).drop Ethernet.headerLength =
      packet.encode ++ List.replicate 18 0 := by
  rw [wire_eq]
  exact List.drop_left' (Ethernet.Header.length_encode _)

theorem Ethernet.decode?_arpWire (dest source : Mac) (packet : Arp.Packet) :
    Header.decode? (Arp.wire dest source packet) = some ⟨dest, source, EtherType.arp.toWord⟩ := by
  rw [Arp.wire_eq, Header.decode?_encode]

theorem Ethernet.stake_arpWire (dest source : Mac) (packet : Arp.Packet) :
    stake (Arp.wire dest source packet) = if packet.isRequest then 1 else 0 := by
  have htype : (⟨dest, source, EtherType.arp.toWord⟩ : Header).payloadType? = some .arp := rfl
  unfold stake
  rw [decode?_arpWire]
  dsimp only
  rw [htype]
  dsimp only
  rw [Arp.drop_wire, Arp.stake, Arp.Packet.decode?_encode]

theorem Ipv4.decode?_drop_wire (own : Interface) (mac : Mac) (dest : Address)
    (protocol : Protocol) (id : UInt16) (payload : Bytes) :
    Header.decode? ((wire own mac dest protocol id payload).drop Ethernet.headerLength) =
      some (.sent own.ip dest protocol id payload.length) := by
  rw [drop_wire]
  exact Header.decode?_fields _ _ _

theorem Ethernet.decode?_ipv4Wire (own : Interface) (mac : Mac) (dest : Ipv4.Address)
    (protocol : Ipv4.Protocol) (id : UInt16) (payload : Bytes) :
    Header.decode? (Ipv4.wire own mac dest protocol id payload) =
      some ⟨mac, own.mac, EtherType.ipv4.toWord⟩ := by
  rw [Ipv4.wire_eq, Header.decode?_encode]

theorem Ipv4.take_drop_wire (own : Interface) (mac : Mac) (dest : Address) (protocol : Protocol)
    (id : UInt16) {payload : Bytes} (hl : payload.length ≤ maxPayload) :
    let header := Header.sent own.ip dest protocol id payload.length
    (((wire own mac dest protocol id payload).drop Ethernet.headerLength).drop
      header.headerLength).take (header.totalLength.toNat - header.headerLength) = payload := by
  intro header
  rw [← List.drop_take]
  exact message_wire own mac dest protocol id hl

theorem Ethernet.stake_ipv4Wire (own : Interface) (mac : Mac) (dest : Ipv4.Address)
    (protocol : Ipv4.Protocol) (id : UInt16) {payload : Bytes}
    (hl : payload.length ≤ Ipv4.maxPayload) :
    stake (Ipv4.wire own mac dest protocol id payload) = protocol.stake payload := by
  have hnumber : Ipv4.Protocol.ofNumber?
      (Ipv4.Header.sent own.ip dest protocol id payload.length).protocol = some protocol :=
    Ipv4.Protocol.ofNumber?_number protocol
  have htype : (⟨mac, own.mac, EtherType.ipv4.toWord⟩ : Header).payloadType? = some .ipv4 := rfl
  unfold stake
  rw [decode?_ipv4Wire]
  dsimp only
  rw [htype]
  dsimp only
  unfold Ipv4.stake
  rw [Ipv4.decode?_drop_wire]
  dsimp only
  rw [hnumber]
  dsimp only
  rw [Ipv4.take_drop_wire _ _ _ _ _ hl]

theorem Tcp.stake_segment_ack (s : Socket) (own : Ipv4.Address) :
    stake (s.segment own { ack := true } []) = 0 := by
  have hl : (s.segment own { ack := true } []).length = minHeader := length_segment s own _ []
  unfold stake
  rw [hl, Socket.segment, Header.segment, Header.decode?_fields]
  rfl

theorem Icmp.stake_echoReply {message answer : Bytes} (h : echoReply message = .ok answer) :
    stake answer = 0 := by
  match message, h with
  | _ :: code :: _ :: _ :: rest, h =>
    obtain rfl := Except.ok.inj h
    unfold stake
    split
    · rename_i header hd
      have htype : header.messageType = MessageType.echoReply.number := by
        simp only [Header.decode?, List.cons_append, List.nil_append, Bytes.read8?_cons,
          Option.bind_eq_bind, Option.bind_some, Option.bind_eq_some_iff, Prod.exists] at hd
        obtain ⟨_, _, -, _, _, -, _, _, -, hd⟩ := hd
        rw [← Option.some.inj hd]
      rw [if_neg]
      rw [htype]
      decide
    · rfl

end InetHost
