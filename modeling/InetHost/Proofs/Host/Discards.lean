import InetHost.Proofs.Host.Admission
import InetHost.Proofs.Host.Stakes
import InetHost.Proofs.Tcp.Transitions

/-! Frames that are not for the host, or that nobody can read. They are dropped, at whatever layer this is
found out, and nothing comes of them: a line in the log at most. -/

namespace InetHost

variable {δ : Type} {w w' : World δ}

inductive World.Remarks (w : World δ) : World δ → Prop
  | nothing : Remarks w w
  | line {e : Event} : e.isRemark = true → Remarks w (w.record e)

namespace World.Remarks

theorem host_eq (h : w.Remarks w') : w'.host = w.host := by cases h <;> rfl

theorem device_eq (h : w.Remarks w') : w'.device = w.device := by cases h <;> rfl

theorem clock_eq (h : w.Remarks w') : w'.clock = w.clock := by cases h <;> rfl

theorem frames_eq (h : w.Remarks w') : w'.frames = w.frames := by
  cases h with
  | nothing => rfl
  | line he => exact frames_record w (Event.frame?_eq_none_of_isRemark he)

end World.Remarks

namespace Net

def Overlooks (m : Net δ Unit) (w : World δ) : Prop := ∃ w', m w = .ok ((), w') ∧ w.Remarks w'

theorem overlooks_pure (w : World δ) : Overlooks (pure ()) w := ⟨w, rfl, .nothing⟩

theorem overlooks_record {e : Event} (w : World δ) (h : e.isRemark = true) :
    Overlooks (modify (World.record e)) w :=
  ⟨w.record e, rfl, .line h⟩

theorem overlooks_check_bind {α : Type} {r : Except Fault α} {a : α} (h : r = .ok a)
    (f : α → Net δ Unit) : Overlooks (check r >>= f) w ↔ Overlooks (f a) w := by
  rw [Overlooks, Overlooks, check_bind h]

theorem overlooks_get_bind (f : World δ → Net δ Unit) :
    Overlooks (get >>= f) w ↔ Overlooks (f w) w := Iff.rfl

end Net

inductive Icmp.Discards (message : Bytes) : Prop
  | short : message.length < headerLength → Discards message
  | code {header : Header} : Header.decode? message = some header → header.code ≠ 0 →
      Discards message
  | messageType {header : Header} : Header.decode? message = some header →
      (∀ t : MessageType, header.messageType ≠ t.number) → Discards message

theorem Icmp.handle_overlooks [Link.Device δ] {p : Poller δ} {message : Bytes}
    (source : Ipv4.Address) (h : Discards message) :
    Net.Overlooks (handle p message source) w := by
  rw [handle, Net.overlooks_check_bind (Header.parse_eq_ok message)]
  cases hd : Header.decode? message with
  | none => exact Net.overlooks_pure w
  | some header =>
    dsimp only
    split
    · exact Net.overlooks_pure w
    · rename_i hcode
      have htype (t : MessageType) : header.messageType ≠ t.number := by
        cases h with
        | short hs => simp [Header.decode?_of_lt hs] at hd
        | code hd' hc =>
          obtain rfl := Option.some.inj (hd.symm.trans hd')
          exact absurd hc hcode
        | messageType hd' ht =>
          obtain rfl := Option.some.inj (hd.symm.trans hd')
          exact ht t
      rw [if_neg (htype .echoReply), if_neg (htype .echoRequest)]
      exact Net.overlooks_pure w

namespace Udp

def Sockets.openOn (t : Sockets) (port : UInt16) : Set Slot :=
  {i | (t.get i).inUse = true ∧ (t.get i).port = port}

theorem Sockets.listener?_eq_some_iff {t : Sockets} {port : UInt16} {slot : Slot} :
    t.listener? port = some slot ↔ IsLeast (t.openOn port) slot := by
  rw [listener?, Slots.first?_eq_some_iff]
  simp [openOn]

theorem Sockets.listener?_eq_none_iff {t : Sockets} {port : UInt16} :
    t.listener? port = none ↔ t.openOn port = ∅ := by
  rw [listener?, Slots.first?_eq_none_iff, Set.eq_empty_iff_forall_notMem]
  simp [openOn]

inductive Discards (t : Sockets) (message : Bytes) : Prop
  | short : message.length < headerLength → Discards t message
  | length {header : Header} : Header.decode? message = some header →
      header.length.toNat < headerLength ∨ message.length < header.length.toNat →
      Discards t message
  | unmatched {header : Header} : Header.decode? message = some header →
      t.openOn header.dest = ∅ → Discards t message

theorem handle_overlooks {message : Bytes} (source : Ipv4.Address)
    (h : Discards w.host.udp message) : Net.Overlooks (handle message source) w := by
  rw [handle, Net.overlooks_check_bind (Header.parse_eq_ok message)]
  cases hd : Header.decode? message with
  | none => exact Net.overlooks_pure w
  | some header =>
    dsimp only
    split
    · exact Net.overlooks_pure w
    · rename_i hlength
      obtain ⟨hl, hl'⟩ := not_or.1 hlength
      have hnone : w.host.udp.listener? header.dest = none := by
        cases h with
        | short hs => simp [Header.decode?_of_lt hs] at hd
        | length hd' hl =>
          obtain rfl := Option.some.inj (hd.symm.trans hd')
          exact absurd hl hlength
        | unmatched hd' he =>
          obtain rfl := Option.some.inj (hd.symm.trans hd')
          exact Sockets.listener?_eq_none_iff.2 he
      rw [Net.overlooks_check_bind (Bytes.slice_eq_ok (Nat.le_of_not_lt hl) (Nat.le_of_not_lt hl')),
        Net.overlooks_get_bind, hnone]
      exact Net.overlooks_pure w

end Udp

namespace Tcp

theorem Header.dataOffset_of_decode? {data : Bytes} {header : Header}
    (h : decode? data = some header) :
    header.dataOffset = (data.getD 12 0 / 16).toNat * 4 ∧ minHeader ≤ header.dataOffset ∧
      header.dataOffset ≤ data.length := by
  simp only [decode?, Option.bind_eq_bind, Option.bind_eq_some_iff, Prod.exists,
    Bytes.read8?_eq_some_iff, Bytes.read16?_eq_some_iff, Bytes.read32?_eq_some_iff] at h
  obtain ⟨_, _, rfl, _, _, rfl, _, _, rfl, _, _, rfl, _, _, rfl, _, _, -, _, _, -, _, _, -, _, _, -,
    h⟩ := h
  split at h
  · rename_i hc
    obtain rfl := Option.some.inj h
    exact ⟨rfl, hc⟩
  · cases h

inductive Discards (t : Sockets) (source : Ipv4.Address) (message : Bytes) : Prop
  | short : message.length < minHeader → Discards t source message
  | dataOffset : (message.getD 12 0 / 16).toNat * 4 < minHeader ∨
      message.length < (message.getD 12 0 / 16).toNat * 4 → Discards t source message
  | unmatched {header : Header} : Header.decode? message = some header →
      t.connections header.dest source header.source = ∅ → t.listeners header.dest = ∅ →
      Discards t source message

theorem handle_overlooks [Link.Device δ] {p : Poller δ} {message : Bytes} {source : Ipv4.Address}
    (h : Discards w.host.tcp source message) :
    Net.Overlooks (handle p message source) w := by
  rw [handle, Net.overlooks_check_bind (Header.parse_eq_ok message)]
  cases hd : Header.decode? message with
  | none => exact Net.overlooks_pure w
  | some header =>
    have hnone : w.host.tcp.demux? header.dest source header.source = none := by
      cases h with
      | short hs => simp [Header.decode?_of_lt hs] at hd
      | dataOffset ho =>
        obtain ⟨heq, hmin, hmax⟩ := Header.dataOffset_of_decode? hd
        omega
      | unmatched hd' hc hl =>
        obtain rfl := Option.some.inj (hd.symm.trans hd')
        rw [Sockets.demux?, Sockets.connection?_eq_none_iff.2 hc,
          Sockets.listener?_eq_none_iff.2 hl]
        rfl
    dsimp only
    rw [Net.overlooks_get_bind, hnone]
    exact Net.overlooks_record w rfl

end Tcp

namespace Ipv4

theorem Header.headerLength_of_decode? {data : Bytes} {header : Header}
    (h : decode? data = some header) :
    data.headD 0 / 16 = 4 ∧ header.headerLength = (data.headD 0 % 16).toNat * 4 := by
  simp only [decode?, Option.bind_eq_bind, Option.bind_eq_some_iff, Prod.exists,
    Bytes.read8?_eq_some_iff] at h
  obtain ⟨_, _, rfl, _, _, -, _, _, -, _, _, -, _, _, -, _, _, -, _, _, -, _, _, -, _, _, -, _, _, -,
    h⟩ := h
  split at h
  · rename_i hc
    obtain rfl := Option.some.inj h
    exact ⟨hc.1, rfl⟩
  · cases h

inductive Discards (h : Host) (data : Bytes) : Prop
  | version : data.headD 0 / 16 ≠ 4 → Discards h data
  | headerLength : (data.headD 0 % 16).toNat * 4 < minHeader ∨
      data.length < (data.headD 0 % 16).toNat * 4 → Discards h data
  | checksum {header : Header} : Header.decode? data = some header →
      Checksum.verifies (data.take header.headerLength) = false → Discards h data
  | totalLength {header : Header} : Header.decode? data = some header →
      header.totalLength.toNat < header.headerLength ∨ data.length < header.totalLength.toNat →
      Discards h data
  | dest {header : Header} : Header.decode? data = some header →
      header.dest ≠ h.interface.ip → header.dest ≠ Address.broadcast → Discards h data
  | protocol {header : Header} : Header.decode? data = some header →
      (∀ protocol : Protocol, header.protocol ≠ protocol.number) → Discards h data
  | icmp {header : Header} : Header.decode? data = some header →
      header.protocol = Protocol.icmp.number → Icmp.Discards (header.payload data) →
      Discards h data
  | tcp {header : Header} : Header.decode? data = some header →
      header.protocol = Protocol.tcp.number →
      Tcp.Discards h.tcp header.source (header.payload data) → Discards h data
  | udp {header : Header} : Header.decode? data = some header →
      header.protocol = Protocol.udp.number → Udp.Discards h.udp (header.payload data) →
      Discards h data

variable [Link.Device δ] {p : Poller δ} {data : Bytes} {header : Header}

theorem overlooks_of_not_admits (h : ∀ header, ¬Admits w.host data header) :
    Net.Overlooks (handle p data) w := by
  rw [handle, Net.overlooks_check_bind (Header.parse_eq_ok data)]
  cases hd : Header.decode? data with
  | none => exact Net.overlooks_pure w
  | some header =>
    obtain ⟨-, hl⟩ := Header.minHeader_le_of_decode? hd
    dsimp only
    rw [Net.overlooks_check_bind (Bytes.slice_from_start hl)]
    split
    · exact Net.overlooks_record w rfl
    · rename_i hverifies
      split
      · exact Net.overlooks_pure w
      · rename_i htotal
        obtain ⟨hmin, hmax⟩ := not_or.1 htotal
        rw [Net.overlooks_get_bind, if_pos]
        · exact Net.overlooks_pure w
        · by_contra hdest
          refine h header ⟨hd, by simpa using hverifies, Nat.le_of_not_lt hmin,
            Nat.le_of_not_lt hmax, ?_⟩
          simpa [Address.isBroadcast, World.interface, or_iff_not_imp_left] using hdest

theorem handle_overlooks (h : Discards w.host data) : Net.Overlooks (handle p data) w := by
  by_cases ha : ∃ header, Admits w.host data header
  · obtain ⟨header, ha⟩ := ha
    have hsame {header' : Header} (hd : Header.decode? data = some header') : header' = header :=
      Option.some.inj (hd.symm.trans ha.decoded)
    obtain ⟨hversion, hlength⟩ := Header.headerLength_of_decode? ha.decoded
    obtain ⟨hmin, hmax⟩ := Header.minHeader_le_of_decode? ha.decoded
    have hdeliver {protocol : Protocol} (hp : header.protocol = protocol.number)
        (ho : Net.Overlooks (protocol.deliver p (header.payload data) header.source) w) :
        Net.Overlooks (handle p data) w := by
      rwa [Net.Overlooks, handle_of_admits ha, Protocol.ofNumber?_eq_some_iff.2 hp]
    cases h with
    | version hv => exact absurd hversion hv
    | headerLength hl => omega
    | checksum hd hc =>
      rw [hsame hd, ha.verified] at hc
      cases hc
    | totalLength hd ht =>
      rw [hsame hd] at ht
      have := ha.headerLength_le
      have := ha.totalLength_le
      omega
    | dest hd hown hall =>
      rw [hsame hd] at hown hall
      exact absurd ha.dest_eq (not_or.2 ⟨hown, hall⟩)
    | protocol hd hp =>
      rw [hsame hd] at hp
      have hnone : Protocol.ofNumber? header.protocol = none :=
        Option.eq_none_iff_forall_ne_some.2 fun q hq => hp q (Protocol.ofNumber?_eq_some_iff.1 hq)
      rw [Net.Overlooks, handle_of_admits ha, hnone]
      exact Net.overlooks_pure w
    | icmp hd hp hm =>
      rw [hsame hd] at hp hm
      exact hdeliver hp (Icmp.handle_overlooks _ hm)
    | tcp hd hp hm =>
      rw [hsame hd] at hp hm
      exact hdeliver hp (Tcp.handle_overlooks hm)
    | udp hd hp hm =>
      rw [hsame hd] at hp hm
      exact hdeliver hp (Udp.handle_overlooks _ hm)
  · exact overlooks_of_not_admits (not_exists.1 ha)

end Ipv4

theorem Ethernet.EtherType.ofWord?_eq_some_iff {v : UInt16} {t : EtherType} :
    ofWord? v = some t ↔ v = t.toWord := by
  constructor
  · unfold ofWord?
    split_ifs <;> rintro ⟨⟩ <;> assumption
  · rintro rfl
    exact ofWord?_toWord t

theorem Arp.handle_overlooks [Link.Device δ] {data : Bytes} (h : data.length < packetLength) :
    Net.Overlooks (handle data) w := by
  rw [handle, Net.overlooks_check_bind (Packet.parse_eq_ok data), Packet.decode?_of_lt h]
  exact Net.overlooks_pure w

namespace Net

open Ethernet

inductive Discards (h : Host) (frame : Bytes) : Prop
  | short : frame.length < headerLength → Discards h frame
  | etherType {header : Header} : Header.decode? frame = some header →
      (∀ t : EtherType, header.etherType ≠ t.toWord) → Discards h frame
  | arp {header : Header} : Header.decode? frame = some header →
      header.etherType = EtherType.arp.toWord →
      (frame.drop headerLength).length < Arp.packetLength → Discards h frame
  | ipv4 {header : Header} : Header.decode? frame = some header →
      header.etherType = EtherType.ipv4.toWord → Ipv4.Discards h (frame.drop headerLength) →
      Discards h frame

variable [Link.Device δ] {p : Poller δ} {frame : Bytes}

theorem handleFrame_overlooks (h : Discards w.host frame) : Overlooks (handleFrame p frame) w := by
  rw [handleFrame, overlooks_check_bind (Header.parse_eq_ok frame)]
  cases hd : Header.decode? frame with
  | none => exact overlooks_pure w
  | some header =>
    have hsame {header' : Header} (hd' : Header.decode? frame = some header') : header' = header :=
      Option.some.inj (hd'.symm.trans hd)
    have hl : headerLength ≤ frame.length :=
      Nat.le_of_not_lt fun hlt => by simp [Header.decode?_of_lt hlt] at hd
    dsimp only
    rw [overlooks_check_bind (Bytes.slice_to_end hl), Header.payloadType?]
    cases h with
    | short hs => exact absurd hs (Nat.not_lt.2 hl)
    | etherType hd' ht =>
      rw [hsame hd'] at ht
      have hnone : EtherType.ofWord? header.etherType = none :=
        Option.eq_none_iff_forall_ne_some.2 fun t he => ht t (EtherType.ofWord?_eq_some_iff.1 he)
      rw [hnone]
      exact overlooks_pure w
    | arp hd' ht hs =>
      rw [hsame hd'] at ht
      rw [EtherType.ofWord?_eq_some_iff.2 ht]
      exact Arp.handle_overlooks hs
    | ipv4 hd' ht hm =>
      rw [hsame hd'] at ht
      rw [EtherType.ofWord?_eq_some_iff.2 ht]
      exact Ipv4.handle_overlooks hm

end Net

/-- A frame that is dropped leaves no trace, whatever layer has found it wanting. -/
theorem discarded_frames_leave_no_trace [Link.Device δ] (p : Poller δ) {frame : Bytes}
    (h : Net.Discards w.host frame) : ∃ w', Net.handleFrame p frame w = .ok ((), w') ∧
      w'.host = w.host ∧ w'.device = w.device ∧ w'.clock = w.clock ∧ w'.frames = w.frames := by
  obtain ⟨w', hrun, hr⟩ := Net.handleFrame_overlooks (p := p) h
  exact ⟨w', hrun, hr.host_eq, hr.device_eq, hr.clock_eq, hr.frames_eq⟩

namespace Udp

def listening : World Link.Script :=
  (World.start ⟨[], 0, [], []⟩ ⟨0, 500, []⟩ Interface.default).after 4 [.udpOpen 7]

def letter (port : UInt16) (text : Bytes) : Bytes :=
  Ipv4.wire Tcp.peer Interface.default.mac Interface.default.ip .udp 0 (encode 5000 port text)

end Udp

theorem discarded_frames_leave_no_trace_closed_port : Reachable Udp.listening ∧
    Net.Discards Udp.listening.host (Udp.letter 9 [104, 105]) ∧
    ∃ w', Net.handleFrame (Poller.ofFuel 0) (Udp.letter 9 [104, 105]) Udp.listening =
        .ok ((), w') ∧
      w'.host = Udp.listening.host ∧ w'.device = Udp.listening.device ∧
      w'.clock = Udp.listening.clock ∧ w'.frames = Udp.listening.frames := by
  let header := Ipv4.Header.sent Tcp.peer.ip Interface.default.ip .udp 0 10
  let packet := (Udp.letter 9 [104, 105]).drop Ethernet.headerLength
  have hpacket : Ipv4.Header.decode? packet = some header := Ipv4.decode?_drop_wire ..
  have hdatagram : Udp.Header.decode? (header.payload packet) = some ⟨5000, 9, 10, 0⟩ := by
    decide +kernel
  have hclosed : Udp.listening.host.udp.openOn 9 = ∅ :=
    Udp.Sockets.listener?_eq_none_iff.1 (by decide +kernel)
  have hdiscards : Net.Discards Udp.listening.host (Udp.letter 9 [104, 105]) :=
    .ipv4 (Ethernet.decode?_ipv4Wire ..) rfl (.udp hpacket rfl (.unmatched hdatagram hclosed))
  exact ⟨.after (.start ..) 4 _, hdiscards, discarded_frames_leave_no_trace _ hdiscards⟩

end InetHost
