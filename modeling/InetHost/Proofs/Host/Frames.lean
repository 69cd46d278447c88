import InetHost.Proofs.Checksum
import InetHost.Proofs.Host.Operation

/-! The frames that a host hands to its device. Each is an address resolution packet of its own or
carries an IPv4 packet to the station that the cache holds for the way to its destination; and the
messages that the host makes itself carry their checksums or their lengths. -/

namespace InetHost

open Tcp

def Arp.OwnFrame (own : Interface) (frame : Bytes) : Prop :=
  ∃ (dest : Mac) (packet : Packet), packet.senderMac = own.mac ∧ packet.senderIp = own.ip ∧
    frame = Ethernet.Header.encode ⟨dest, own.mac, Ethernet.EtherType.arp.toWord⟩ ++
      packet.encode ++ List.replicate 18 0

namespace Ipv4

structure OwnFrame (h : Host) (frame : Bytes) (link : Ethernet.Header) (header : Header) :
    Prop where
  link_eq : Ethernet.Header.decode? frame = some link
  type_eq : link.payloadType? = some .ipv4
  source_mac : link.source = h.interface.mac
  header_eq : Header.decode? (frame.drop Ethernet.headerLength) = some header
  verifies : Checksum.verifies
    ((frame.drop Ethernet.headerLength).take header.headerLength) = true
  source_ip : header.source = h.interface.ip
  totalLength_le : header.totalLength.toNat ≤ frame.length - Ethernet.headerLength
  padding : ∀ b ∈ frame.drop (Ethernet.headerLength + header.totalLength.toNat), b = 0
  dest_mac : h.arp.lookup? (h.interface.nextHop header.dest) = some link.dest

namespace Header

def message (header : Header) (frame : Bytes) : Bytes :=
  ((frame.drop Ethernet.headerLength).take header.totalLength.toNat).drop header.headerLength

def Carries (header : Header) (message : Bytes) : Prop :=
  match Protocol.ofNumber? header.protocol with
  | some .tcp => Checksum.transport header.source header.dest Protocol.tcp.number message = 0
  | some .icmp => Checksum.ofBytes message = 0
  | some .udp => ∃ u, Udp.Header.decode? message = some u ∧
      u.length.toNat = header.totalLength.toNat - minHeader
  | none => False

theorem verifies_encode (header : Header) : Checksum.verifies header.encode = true := by
  -- The checksum stands behind ten bytes.
  have h := Checksum.ofBytes_store ([0x45, 0] ++ Bytes.word16 header.totalLength ++
    Bytes.word16 header.id ++ [0, 0, header.ttl, header.protocol])
    (Bytes.word32 header.source ++ Bytes.word32 header.dest) (by simp) (by simp)
  exact decide_eq_true h

end Header

section Wire

variable {h : Host} {mac : Mac} {dest : Address} {protocol : Protocol} {id : UInt16}
  {payload : Bytes}

def Header.sent (source dest : Address) (protocol : Protocol) (id : UInt16)
    (payloadLength : Nat) : Header :=
  let header := plain source dest protocol id payloadLength
  { header with checksum := Checksum.ofBytes (header.fields 0) }

theorem Header.toNat_totalLength_sent (source dest : Address) (protocol : Protocol) (id : UInt16)
    {n : Nat} (hn : n ≤ maxPayload) :
    (sent source dest protocol id n).totalLength.toNat = minHeader + n := by
  simp only [sent, plain, UInt16.toNat_ofNat', maxPayload, Ethernet.mtu, minHeader] at hn ⊢
  omega

theorem wire_eq (own : Interface) (mac : Mac) (dest : Address) (protocol : Protocol)
    (id : UInt16) (payload : Bytes) : wire own mac dest protocol id payload =
      Ethernet.Header.encode ⟨mac, own.mac, Ethernet.EtherType.ipv4.toWord⟩ ++
        ((Header.plain own.ip dest protocol id payload.length).encode ++
          (payload ++ List.replicate (26 - payload.length) 0)) := by
  have hn : (Ethernet.Header.encode ⟨mac, own.mac, Ethernet.EtherType.ipv4.toWord⟩ ++
      (Header.plain own.ip dest protocol id payload.length).encode ++ payload).length =
        34 + payload.length := by
    simp only [List.length_append, Ethernet.Header.length_encode, Header.length_encode,
      Ethernet.headerLength, minHeader]
  rw [wire, Bytes.padTo, hn, Ethernet.minFrame]
  simp only [List.append_assoc]
  congr 4
  omega

theorem drop_wire (own : Interface) (mac : Mac) (dest : Address) (protocol : Protocol)
    (id : UInt16) (payload : Bytes) :
    (wire own mac dest protocol id payload).drop Ethernet.headerLength =
      (Header.plain own.ip dest protocol id payload.length).encode ++
        (payload ++ List.replicate (26 - payload.length) 0) := by
  rw [wire_eq]
  exact List.drop_left' (Ethernet.Header.length_encode _)

theorem length_wire (own : Interface) (mac : Mac) (dest : Address) (protocol : Protocol)
    (id : UInt16) (payload : Bytes) :
    (wire own mac dest protocol id payload).length = max 60 (34 + payload.length) := by
  rw [wire_eq]
  simp only [List.length_append, Ethernet.Header.length_encode, Header.length_encode,
    List.length_replicate, Ethernet.headerLength, minHeader]
  omega

theorem length_wire_le {own : Interface} {mac : Mac} {dest : Address} {protocol : Protocol}
    {id : UInt16} {payload : Bytes} (h : payload.length ≤ maxPayload) :
    (wire own mac dest protocol id payload).length ≤ Ethernet.maxFrame := by
  simp only [maxPayload, Ethernet.mtu, minHeader] at h
  rw [length_wire, Ethernet.maxFrame]
  omega

theorem wire_ne_nil {own : Interface} {mac : Mac} {dest : Address} {protocol : Protocol}
    {id : UInt16} {payload : Bytes} : wire own mac dest protocol id payload ≠ [] := by
  apply List.ne_nil_of_length_pos
  rw [length_wire]
  omega

theorem payload_sent (hl : payload.length ≤ maxPayload) (source dest : Address)
    (protocol : Protocol) (id : UInt16) (rest : Bytes) :
    (Header.sent source dest protocol id payload.length).payload
      ((Header.plain source dest protocol id payload.length).encode ++ (payload ++ rest)) =
        payload := by
  let written := (Header.plain source dest protocol id payload.length).encode
  have hw : written.length = minHeader := Header.length_encode _
  have hheader : (Header.sent source dest protocol id payload.length).headerLength = minHeader :=
    rfl
  have ht : (written ++ payload).length = minHeader + payload.length := by
    rw [List.length_append, hw]
  rw [Header.payload, Header.toNat_totalLength_sent _ _ _ _ hl, hheader, ← List.append_assoc,
    List.take_left' ht]
  exact List.drop_left' hw

theorem message_wire (own : Interface) (mac : Mac) (dest : Address) (protocol : Protocol)
    (id : UInt16) (hl : payload.length ≤ maxPayload) :
    (Header.sent own.ip dest protocol id payload.length).message
      (wire own mac dest protocol id payload) = payload := by
  rw [Header.message, drop_wire]
  exact payload_sent hl ..

theorem ownFrame_wire (hl : payload.length ≤ maxPayload)
    (hop : h.arp.lookup? (h.interface.nextHop dest) = some mac) :
    OwnFrame h (wire h.interface mac dest protocol id payload)
      ⟨mac, h.interface.mac, Ethernet.EtherType.ipv4.toWord⟩
      (.sent h.interface.ip dest protocol id payload.length) := by
  have ht := Header.toNat_totalLength_sent h.interface.ip dest protocol id hl
  let written := (Header.plain h.interface.ip dest protocol id payload.length).encode
  have hw : written.length = minHeader := Header.length_encode _
  constructor
  · rw [wire_eq, Ethernet.Header.decode?_encode]
  · rfl
  · rfl
  · rw [drop_wire]
    exact Header.decode?_fields _ _ _
  · rw [drop_wire]
    exact List.take_left' hw ▸ Header.verifies_encode _
  · rfl
  · rw [ht, length_wire]
    simp only [Ethernet.headerLength, minHeader]
    omega
  · have hp : (written ++ payload).length = minHeader + payload.length := by
      rw [List.length_append, hw]
    rw [ht, ← List.drop_drop, drop_wire, ← List.append_assoc, List.drop_left' hp]
    exact fun b hb => List.eq_of_mem_replicate hb
  · exact hop

end Wire

end Ipv4

section Messages

variable {source dest : Ipv4.Address} {id : UInt16}

theorem Tcp.carries_segment (s : Socket) (own : Ipv4.Address) (flags : Flags) {data : Bytes}
    (hd : data.length ≤ maxPayload) (n : Nat) :
    (Ipv4.Header.sent own s.remoteIp .tcp id n).Carries (s.segment own flags data) := by
  simp only [maxPayload, Ipv4.maxPayload, Ethernet.mtu, Ipv4.minHeader, minHeader] at hd
  exact (s.header flags).transport_segment (by omega) own s.remoteIp

theorem Icmp.carries_echoReply {message answer : Bytes} (hl : message.length ≤ maxReply)
    (ha : echoReply message = .ok answer) (n : Nat) :
    (Ipv4.Header.sent source dest .icmp id n).Carries answer := by
  match message, ha with
  | _ :: code :: _ :: _ :: rest, ha =>
    obtain rfl := Except.ok.inj ha
    refine Checksum.ofBytes_store [MessageType.echoReply.number, code] rest (by simp) ?_
    simp only [List.length_cons, maxReply, Ethernet.mtu, Ethernet.headerLength,
      Ipv4.minHeader] at hl ⊢
    simp only [List.length_nil]
    omega

theorem Icmp.carries_echoRequest (sequence : UInt16) (time : UInt32) (n : Nat) :
    (Ipv4.Header.sent source dest .icmp id n).Carries (echoRequest sequence time) := by
  let payload := Bytes.word32 time ++ letters 4 (requestPayload - 4)
  exact Checksum.ofBytes_store [MessageType.echoRequest.number, 0]
    (Bytes.word16 identifier ++ Bytes.word16 sequence ++ payload) (by simp)
    (Nat.le_of_ble_eq_true rfl)

theorem Udp.carries_encode (sourcePort port : UInt16) {payload : Bytes}
    (hl : payload.length ≤ maxPayload) :
    (Ipv4.Header.sent source dest .udp id (encode sourcePort port payload).length).Carries
      (encode sourcePort port payload) := by
  refine ⟨_, Header.decode?_encode _ _, ?_⟩
  rw [Ipv4.Header.toNat_totalLength_sent _ _ _ _ (length_encode_le sourcePort port hl),
    length_encode, Nat.add_sub_cancel_left, UInt16.toNat_ofNat', Nat.mod_eq_of_lt]
  simp only [maxPayload, Ipv4.maxPayload, Ethernet.mtu, Ipv4.minHeader, headerLength] at hl ⊢
  omega

end Messages

/-- A frame that a host may hand to its device, with a packet of a kind if it carries one. -/
def Host.MaySend (h : Host) (P : Ipv4.Header → Prop) (frame : Bytes) : Prop :=
  Ethernet.minFrame ≤ frame.length ∧ frame.length ≤ Ethernet.maxFrame ∧
    (Arp.OwnFrame h.interface frame ∨
      ∃ link header, Ipv4.OwnFrame h frame link header ∧ P header)

namespace Host.MaySend

variable {h : Host} {P : Ipv4.Header → Prop}

theorem arp_wire {dest : Mac} {packet : Arp.Packet} (hm : packet.senderMac = h.interface.mac)
    (hi : packet.senderIp = h.interface.ip) :
    h.MaySend P (Arp.wire dest h.interface.mac packet) := by
  have hl : (Arp.wire dest h.interface.mac packet).length = 60 := rfl
  exact ⟨Nat.le_of_eq hl.symm, Nat.le_trans (Nat.le_of_eq hl) (by decide),
    .inl ⟨dest, packet, hm, hi, rfl⟩⟩

theorem ipv4_wire {mac : Mac} {dest : Ipv4.Address} {protocol : Ipv4.Protocol} {id : UInt16}
    {payload : Bytes} (hl : payload.length ≤ Ipv4.maxPayload)
    (hop : h.arp.lookup? (h.interface.nextHop dest) = some mac)
    (hP : P (.sent h.interface.ip dest protocol id payload.length)) :
    h.MaySend P (Ipv4.wire h.interface mac dest protocol id payload) := by
  refine ⟨?_, ?_, .inr ⟨_, _, Ipv4.ownFrame_wire hl hop, hP⟩⟩
  · rw [Ipv4.length_wire]
    exact Nat.le_max_left _ _
  · simp only [Ipv4.maxPayload, Ethernet.mtu, Ipv4.minHeader] at hl
    rw [Ipv4.length_wire, Ethernet.maxFrame]
    omega

theorem mono {Q : Ipv4.Header → Prop} {frame : Bytes} (hf : h.MaySend P frame)
    (hq : ∀ header, P header → Q header) : h.MaySend Q frame := by
  obtain ⟨hmin, hmax, ha | ⟨link, header, hf, hp⟩⟩ := hf
  · exact ⟨hmin, hmax, .inl ha⟩
  · exact ⟨hmin, hmax, .inr ⟨link, header, hf, hq header hp⟩⟩

end Host.MaySend

def Bytes.Carries (frame : Bytes) (header : Ipv4.Header) : Prop :=
  header.Carries (header.message frame)

/-- If a frame is handed over, it is one that the host may send then, with a message of its own. -/
def Moment.Sound (m : Moment) : Prop :=
  ∀ frame failure, m.event = .transmitted frame failure → m.host.MaySend frame.Carries frame

theorem Moment.sound_of_frame?_eq_none (m : Moment) (h : m.event.frame? = none) : m.Sound := by
  intro frame failure he
  simp [he, Event.frame?] at h

theorem Moment.sound_wire {h : Host} {mac : Mac} {dest : Ipv4.Address} {protocol : Ipv4.Protocol}
    {id : UInt16} {payload : Bytes} {failure : Option NetError}
    (hop : h.arp.lookup? (h.interface.nextHop dest) = some mac)
    (hl : payload.length ≤ Ipv4.maxPayload)
    (hc : (Ipv4.Header.sent h.interface.ip dest protocol id payload.length).Carries payload) :
    Sound ⟨.transmitted (Ipv4.wire h.interface mac dest protocol id payload) failure, h⟩ := by
  intro frame failure' he
  obtain ⟨rfl, -⟩ := Event.transmitted.inj he
  refine Host.MaySend.ipv4_wire hl hop ?_
  rw [Bytes.Carries, Ipv4.message_wire _ _ _ _ _ hl]
  exact hc

variable {δ : Type} {w w' : World δ}

variable [Link.Device δ]

theorem World.grows_dispatch {mac : Mac} {dest : Ipv4.Address} {protocol : Ipv4.Protocol}
    {payload : Bytes} (hop : w.hop? dest = some mac) (hl : payload.length ≤ Ipv4.maxPayload)
    (hc : ∀ id, (Ipv4.Header.sent w.host.interface.ip dest protocol id payload.length).Carries
      payload) : World.Grows Moment.Sound w (w.dispatch mac dest protocol payload) := by
  obtain ⟨failure, hj⟩ := w.journal_dispatch mac dest protocol payload
  exact .of_journal_eq_cons hj (Moment.sound_wire (h := (Ipv4.takeId w).2.host) hop hl (hc _))

theorem Chore.sound (h : Chore w w') : World.Grows Moment.Sound w w' := by
  cases h with
  | remark he =>
    exact .of_journal_eq_cons rfl
      (Moment.sound_of_frame?_eq_none _ (Event.frame?_eq_none_of_isRemark he))
  | noteReply header sent source =>
    exact .of_journal_eq_cons (Icmp.journal_noteReply header sent source w)
      (Moment.sound_of_frame?_eq_none _ rfl)
  | ask target =>
    refine .of_journal_eq_cons rfl fun frame failure he => ?_
    obtain ⟨rfl, -⟩ := Event.transmitted.inj he
    exact Host.MaySend.arp_wire rfl rfl
  | answer asked =>
    refine .of_journal_eq_cons rfl fun frame failure he => ?_
    obtain ⟨rfl, -⟩ := Event.transmitted.inj he
    exact Host.MaySend.arp_wire rfl rfl
  | reply hop hl ha =>
    exact World.grows_dispatch hop (Icmp.length_of_echoReply hl ha) fun id =>
      Icmp.carries_echoReply hl ha _
  | receive => exact .of_journal_eq_cons rfl (Moment.sound_of_frame?_eq_none _ rfl)
  | readClock | takeFrame | learn => exact .of_journal_eq rfl

theorem Evolves.sound (h : Evolves w w') : World.Grows Moment.Sound w w' := by
  refine h.follows (World.Grows.frameOrder Moment.sound_of_frame?_eq_none) Chore.sound
    fun slot flags data hd _ h hf hg => hg.trans ?_
  refine World.grows_dispatch hf.hop?_eq (length_segment_le _ _ flags hd) fun id => ?_
  rw [h.interface_eq]
  exact carries_segment _ _ flags hd _

theorem Deed.sound {op : Operation δ} (h : Deed op w w') : World.Grows Moment.Sound w w' := by
  cases h with
  | probe sequence time _ hop =>
    obtain ⟨failure, hj⟩ := w.journal_handOver (Ipv4.wire w.host.interface _ _ .icmp
      (sequence % 256) (Icmp.echoRequest sequence time))
    exact .of_journal_eq_cons hj
      (Moment.sound_wire hop (Nat.le_of_ble_eq_true rfl) (Icmp.carries_echoRequest _ _ _))
  | datagram source port hl hop =>
    refine World.grows_dispatch hop ?_ fun id => Udp.carries_encode source port hl
    exact Udp.length_encode_le source port hl
  | closeUdp => exact Udp.grows_close (Moment.sound_of_frame?_eq_none _ rfl)
  | handIn | openUdp | readDatagram =>
    exact .of_journal_eq_cons rfl (Moment.sound_of_frame?_eq_none _ rfl)
  | _ => exact .of_journal_eq rfl

theorem Errand.sound {op : Operation δ} (h : Errand op w w') : World.Grows Moment.Sound w w' := by
  induction h with
  | evolves h => exact h.sound
  | deed h => exact h.sound
  | trans _ _ ih₁ ih₂ => exact ih₁.trans ih₂

/-- All that an operation hands over is sound, but for what `ipv4Send` is given. -/
theorem Operation.Works.sound {op : Operation δ} (h : op.Works w w') :
    World.Grows Moment.Sound w w' ∨ ∃ (w₁ : World δ) (mac : Mac) (dest : Ipv4.Address)
      (protocol : Ipv4.Protocol) (payload : Bytes), op = .ipv4Send dest protocol payload ∧
        payload.length ≤ Ipv4.maxPayload ∧ World.Grows Moment.Sound w w₁ ∧
        w₁.hop? dest = some mac ∧ w' = w₁.dispatch mac dest protocol payload :=
  h.follows (World.Grows.frameOrder Moment.sound_of_frame?_eq_none) Errand.sound

def Operation.Asked (op : Operation δ) (frame : Bytes) (header : Ipv4.Header) : Prop :=
  ∃ protocol, op = .ipv4Send header.dest protocol (header.message frame) ∧
    header.protocol = protocol.number

theorem transmitted_frames_sound {op : Operation δ} {later earlier : List Moment} {m : Moment}
    {frame : Bytes} {failure : Option NetError} (h : Reachable w) (hr : op.Runs w w')
    (hj : w'.journal = later ++ m :: (earlier ++ w.journal))
    (hm : m.event = .transmitted frame failure) :
    m.host.MaySend (fun header => frame.Carries header ∨ later = [] ∧ op.Asked frame header)
      frame := by
  have of_sound : m.Sound → m.host.MaySend
      (fun header => frame.Carries header ∨ later = [] ∧ op.Asked frame header) frame :=
    fun hs => (hs frame failure hm).mono fun _ => Or.inl
  rcases (hr.works h.safe).sound with
    hg | ⟨w₁, mac, dest, protocol, payload, rfl, hl, hg, hop, rfl⟩
  · have hj : w'.journal = (later ++ m :: earlier) ++ w.journal := by rw [hj]; simp
    exact of_sound (hg.of_mem hj (by simp))
  · obtain ⟨failure', hd⟩ := w₁.journal_dispatch mac dest protocol payload
    rw [hd] at hj
    -- The packet itself is the newest moment; whatever came before it is the host's own.
    cases later with
    | nil =>
      obtain ⟨rfl, -⟩ := List.cons.inj hj
      obtain ⟨rfl, -⟩ := Event.transmitted.inj hm
      have hp := Ipv4.message_wire w₁.host.interface mac dest protocol w₁.host.nextPacketId hl
      exact Host.MaySend.ipv4_wire hl hop
        (.inr ⟨rfl, protocol, congrArg (Operation.ipv4Send dest protocol) hp.symm, rfl⟩)
    | cons m' later =>
      have hj : w₁.journal = (later ++ m :: earlier) ++ w.journal := by
        rw [(List.cons.inj hj).2]; simp
      exact of_sound (hg.of_mem hj (by simp))

def Host.neighbourly : World Link.Script :=
  (World.start ⟨[], 0, [], []⟩ ⟨0, 2000, []⟩ Interface.default).after 4
    [.arpLearn 0x0A000009 ⟨2, 0, 0, 0, 0, 9⟩]

theorem transmitted_frames_sound_ping :
    let w' := Host.neighbourly.after 4 [.ping 0x0A000009 1]
    let frame := Ipv4.wire Interface.default ⟨2, 0, 0, 0, 0, 9⟩ 0x0A000009 .icmp 1
      (Icmp.echoRequest 1 4000)
    Reachable Host.neighbourly ∧ (Operation.ping 0x0A000009 1).Runs Host.neighbourly w' ∧
      ∃ m : Moment, w'.journal = m :: Host.neighbourly.journal ∧
        m.event = .transmitted frame none ∧ m.host.MaySend frame.Carries frame := by
  intro w' frame
  have hw : Reachable Host.neighbourly := .after (.start ..) 4 _
  have hr : (Operation.ping 0x0A000009 1).Runs Host.neighbourly w' :=
    Operation.runs_after (by decide +kernel)
  have he : w'.events = Host.neighbourly.events ++ [.transmitted frame none] := by decide +kernel
  obtain ⟨new, hj, -⟩ := (hr.works hw.safe).sound.resolve_right (by simp)
  have hn : new.map Moment.event = [.transmitted frame none] := by
    simpa [World.events, hj] using he
  obtain ⟨m, rfl, hm⟩ := List.map_eq_singleton_iff.1 hn
  have hj' : w'.journal = [] ++ m :: ([] ++ Host.neighbourly.journal) := hj
  refine ⟨hw, hr, m, hj, hm, (transmitted_frames_sound hw hr hj' hm).mono fun header hp => ?_⟩
  exact hp.resolve_right (by rintro ⟨-, _, ⟨⟩, -⟩)

end InetHost
