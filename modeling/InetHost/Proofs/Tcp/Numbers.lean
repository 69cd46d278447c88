import InetHost.Proofs.Host.Stakes
import InetHost.Proofs.Tcp.Tuples

/-! The numbers in the segments that a host hands over. A segment is put together before the way to its
destination is looked for, and while the host waits for that it reads further frames. Its sequence number
cannot grow old meanwhile; its acknowledgement can. -/

namespace InetHost

open Tcp

structure Bytes.IsSegment (frame : Bytes) (ip : Ipv4.Header) (header : Header) : Prop where
  link : ∃ link, Ethernet.Header.decode? frame = some link ∧ link.payloadType? = some .ipv4
  packet : Ipv4.Header.decode? (frame.drop Ethernet.headerLength) = some ip
  protocol : ip.protocol = Ipv4.Protocol.tcp.number
  segment : Header.decode? (ip.message frame) = some header

theorem Bytes.IsSegment.unique {frame : Bytes} {ip ip' : Ipv4.Header} {header header' : Header}
    (h : frame.IsSegment ip header) (h' : frame.IsSegment ip' header') :
    ip = ip' ∧ header = header' := by
  have hip : ip = ip' := Option.some.inj (h.packet.symm.trans h'.packet)
  subst hip
  exact ⟨rfl, Option.some.inj (h.segment.symm.trans h'.segment)⟩

def Tcp.Header.From (header : Header) (dest : Ipv4.Address) (s : Socket) : Prop :=
  ((header.source, dest, header.dest), header.seq) = s.origin

instance (header : Header) (dest : Ipv4.Address) (s : Socket) : Decidable (header.From dest s) :=
  inferInstanceAs (Decidable (_ = s.origin))

/-- A segment acknowledges what has come, or had when the host asked for the way. -/
def Moment.Numbered (earlier : List Moment) (m : Moment) : Prop :=
  ∀ frame failure ip header, m.event = .transmitted frame failure →
    frame.IsSegment ip header → ∃ slot : Slot, header.From ip.dest (m.host.tcp.get slot) ∧
      (header.ack = (m.host.tcp.get slot).ack ∨
        ∃ m₀ ∈ earlier, m₀.Asks ip.dest ∧ header.ack = (m₀.host.tcp.get slot).ack)

namespace Moment.Numbered

variable {m : Moment} {earlier : List Moment}

theorem of_frame?_eq_none (h : m.event.frame? = none) : m.Numbered earlier := by
  intro frame failure ip header he
  simp [he, Event.frame?] at h

theorem append (h : m.Numbered earlier) (before : List Moment) :
    m.Numbered (earlier ++ before) := by
  intro frame failure ip header he hs
  obtain ⟨slot, hf, hack⟩ := h frame failure ip header he hs
  refine ⟨slot, hf, hack.imp_right fun ⟨m₀, hm₀, ha⟩ => ?_⟩
  exact ⟨m₀, List.mem_append_left before hm₀, ha⟩

end Moment.Numbered

variable {δ : Type} {w w₁ w' : World δ}

def World.Numbers (w w' : World δ) : Prop :=
  ∃ new, w'.journal = new ++ w.journal ∧ ∀ m earlier, m :: earlier <:+ new → m.Numbered earlier

namespace World.Numbers

theorem cons {m : Moment} (h : w.Numbers w₁) (hj : w'.journal = m :: w₁.journal)
    (hm : ∀ new, w₁.journal = new ++ w.journal → m.Numbered new) : w.Numbers w' := by
  obtain ⟨new, hn, hnew⟩ := h
  refine ⟨m :: new, by rw [hj, hn]; rfl, fun m' earlier hs => ?_⟩
  rcases List.suffix_cons_iff.1 hs with he | hs
  · obtain ⟨rfl, rfl⟩ := List.cons.inj he
    exact hm _ hn
  · exact hnew m' earlier hs

theorem trans (h : w.Numbers w₁) (h' : w₁.Numbers w') : w.Numbers w' := by
  obtain ⟨new, hj, hn⟩ := h
  obtain ⟨new', hj', hn'⟩ := h'
  refine ⟨new' ++ new, by rw [hj', hj, List.append_assoc], fun m earlier hs => ?_⟩
  -- A moment of the second part comes after the rest of that part and the whole first part.
  obtain ⟨later, hl⟩ := hs
  rcases List.append_eq_append_iff.1 hl with ⟨rest, hrest, hnew⟩ | ⟨rest, hrest, hnew⟩
  · cases rest with
    | nil => exact hn m earlier ⟨[], hnew⟩
    | cons m' rest =>
      obtain ⟨rfl, rfl⟩ := List.cons.inj hnew
      exact (hn' m rest ⟨later, hrest.symm⟩).append new
  · exact hn m earlier ⟨rest, hnew.symm⟩

theorem of_mute (h : w.Mute w') : w.Numbers w' := by
  obtain ⟨new, hj, hn⟩ := h
  refine ⟨new, hj, fun m earlier hs => .of_frame?_eq_none (hn m ?_)⟩
  exact hs.subset List.mem_cons_self

theorem of_not_isSegment {frame : Bytes} {failure : Option NetError} {host : Host}
    (hj : w'.journal = ⟨.transmitted frame failure, host⟩ :: w.journal)
    (hf : ∀ ip header, ¬frame.IsSegment ip header) : w.Numbers w' := by
  refine (of_mute (.refl w)).cons hj fun _ _ frame' _ ip header he hs => ?_
  obtain ⟨rfl, -⟩ := Event.transmitted.inj he
  exact absurd hs (hf ip header)

theorem numbered {m : Moment} {later earlier : List Moment} (h : w.Numbers w')
    (hj : w'.journal = later ++ m :: (earlier ++ w.journal)) : m.Numbered earlier := by
  obtain ⟨new, hj', hn⟩ := h
  have hj : w'.journal = (later ++ m :: earlier) ++ w.journal := by rw [hj]; simp
  obtain rfl := List.append_cancel_right (hj'.symm.trans hj)
  exact hn m earlier ⟨later, rfl⟩

theorem frameOrder : World.FrameOrder (World.Numbers : World δ → World δ → Prop) where
  trans := trans
  of_mute := of_mute

end World.Numbers

section Wire

variable {own : Interface} {mac source : Mac} {dest : Ipv4.Address} {protocol : Ipv4.Protocol}
  {id : UInt16} {payload : Bytes} {ip : Ipv4.Header} {header : Header}

theorem Arp.not_isSegment_wire {packet : Packet} : ¬(wire mac source packet).IsSegment ip header := by
  intro h
  have htype : (⟨mac, source, Ethernet.EtherType.arp.toWord⟩ : Ethernet.Header).payloadType? =
      some .arp := rfl
  obtain ⟨link, hl, ht⟩ := h.link
  rw [Ethernet.decode?_arpWire] at hl
  rw [← Option.some.inj hl, htype] at ht
  cases ht

theorem Bytes.IsSegment.ip_eq (h : (Ipv4.wire own mac dest protocol id payload).IsSegment ip header) :
    ip = .sent own.ip dest protocol id payload.length := by
  have hp := h.packet
  rw [Ipv4.decode?_drop_wire] at hp
  exact (Option.some.inj hp).symm

theorem Bytes.IsSegment.protocol_eq
    (h : (Ipv4.wire own mac dest protocol id payload).IsSegment ip header) : protocol = .tcp := by
  have hnumber : protocol.number = Ipv4.Protocol.tcp.number := by
    have hp := h.protocol
    rwa [h.ip_eq] at hp
  have hsome := Ipv4.Protocol.ofNumber?_number protocol
  rw [hnumber, Ipv4.Protocol.ofNumber?_number] at hsome
  exact (Option.some.inj hsome).symm

theorem Bytes.isSegment_wire (header : Header) (data : Bytes) (source : Ipv4.Address)
    (hd : data.length ≤ Tcp.maxPayload) :
    let segment := header.segment data source dest
    (Ipv4.wire own mac dest .tcp id segment).IsSegment
      (.sent own.ip dest .tcp id segment.length)
      { header with
        dataOffset := minHeader
        checksum := Checksum.transport source dest Ipv4.Protocol.tcp.number
          (header.fields 0 ++ data) } := by
  intro segment
  have hl : segment.length ≤ Ipv4.maxPayload := by
    simp only [segment, Header.length_segment, Tcp.maxPayload, Ipv4.maxPayload, Ethernet.mtu,
      Ipv4.minHeader, minHeader] at hd ⊢
    omega
  constructor
  · exact ⟨_, Ethernet.decode?_ipv4Wire .., rfl⟩
  · exact Ipv4.decode?_drop_wire ..
  · rfl
  · rw [Ipv4.message_wire _ _ _ _ _ hl]
    exact Header.decode?_fields ..

theorem Bytes.IsSegment.header_eq {s : Socket} {flags : Flags} {data : Bytes}
    (hd : data.length ≤ Tcp.maxPayload)
    (h : (Ipv4.wire own mac s.remoteIp .tcp id (s.segment own.ip flags data)).IsSegment ip header) :
    header = { s.header flags with checksum := header.checksum } := by
  obtain ⟨-, rfl⟩ := h.unique (isSegment_wire (s.header flags) data own.ip hd)
  rfl

end Wire

variable [Link.Device δ]

theorem World.numbers_dispatch {mac : Mac} {dest : Ipv4.Address} {protocol : Ipv4.Protocol}
    {payload : Bytes} (hp : protocol ≠ .tcp) : w.Numbers (w.dispatch mac dest protocol payload) := by
  obtain ⟨failure, hj⟩ := w.journal_dispatch mac dest protocol payload
  exact .of_not_isSegment hj fun ip header hs => hp hs.protocol_eq

theorem Chore.numbers (h : Chore w w') : w.Numbers w' := by
  cases h with
  | remark he => exact .of_mute (.of_journal_eq_cons rfl (Event.frame?_eq_none_of_isRemark he))
  | noteReply header sent source =>
    exact .of_mute (.of_journal_eq_cons (Icmp.journal_noteReply header sent source w) rfl)
  | ask target =>
    exact .of_not_isSegment rfl fun ip header => Arp.not_isSegment_wire
  | answer asked =>
    exact .of_not_isSegment rfl fun ip header => Arp.not_isSegment_wire
  | reply => exact World.numbers_dispatch nofun
  | receive => exact .of_mute (.of_journal_eq_cons rfl rfl)
  | readClock | takeFrame | learn => exact .of_mute (.of_journal_eq rfl)

/-- A connection has one next number while frames are read. -/
theorem Evolves.numbered_segment {mac : Mac} {slot : Slot} {flags : Flags} {data : Bytes}
    {id : UInt16} {failure : Option NetError} {new : List Moment}
    (hd : data.length ≤ Tcp.maxPayload) (hn : (socketAt slot w).state ≠ .listen)
    (h : Evolves w w₁) (hf : w.Finds (socketAt slot w).remoteIp mac w₁)
    (hj : w₁.journal = new ++ w.journal) :
    Moment.Numbered new ⟨.transmitted (Ipv4.wire w₁.host.interface mac (socketAt slot w).remoteIp .tcp
      id ((socketAt slot w).segment w.host.interface.ip flags data)) failure,
        (Ipv4.takeId w₁).2.host⟩ := by
  intro frame _ ip header he hs
  obtain ⟨rfl, -⟩ := Event.transmitted.inj he
  rw [← h.interface_eq] at hs
  have hdest : ip.dest = (socketAt slot w).remoteIp := by
    rw [hs.ip_eq]
    rfl
  have hheader := hs.header_eq hd
  refine ⟨slot, ?_, ?_⟩
  · have horigin : (socketAt slot w₁).origin = (socketAt slot w).origin := h.origin_eq hn
    change header.From ip.dest (socketAt slot w₁)
    rw [Header.From, horigin, hheader, hdest]
    rfl
  · cases hf with
    | known =>
      rw [hheader]
      exact .inl rfl
    | @asked _ m₀ between hhost hasks hjournal =>
      have hnew : new = between ++ [m₀] := by
        rw [hjournal, List.append_cons] at hj
        exact (List.append_cancel_right hj).symm
      refine .inr ⟨m₀, by simp [hnew], hdest ▸ hasks, ?_⟩
      rw [hheader, hhost]
      rfl

theorem Evolves.numbers (h : Evolves w w') : w.Numbers w' := by
  refine h.follows World.Numbers.frameOrder Chore.numbers
    @fun _ w₁ mac slot flags data hd hn h hf hg => ?_
  obtain ⟨failure, hj⟩ := w₁.journal_dispatch mac _ .tcp _
  exact hg.cons hj fun new hnew => h.numbered_segment hd hn hf hnew

theorem Deed.numbers {op : Operation δ} (h : Deed op w w') : w.Numbers w' := by
  cases h with
  | probe sequence time _ _ =>
    obtain ⟨failure, hj⟩ := w.journal_handOver (Ipv4.wire w.host.interface _ _ .icmp
      (sequence % 256) (Icmp.echoRequest sequence time))
    exact .of_not_isSegment hj fun ip header hs => absurd hs.protocol_eq nofun
  | datagram => exact World.numbers_dispatch nofun
  | closeUdp => exact .of_mute (Udp.grows_close rfl)
  | handIn | openUdp | readDatagram => exact .of_mute (.of_journal_eq_cons rfl rfl)
  | _ => exact .of_mute (.of_journal_eq rfl)

theorem Errand.numbers {op : Operation δ} (h : Errand op w w') : w.Numbers w' := by
  induction h with
  | evolves h => exact h.numbers
  | deed h => exact h.numbers
  | trans _ _ ih₁ ih₂ => exact ih₁.trans ih₂

/-- Segments have the next number of their connection, and acknowledge what had come when they were made. -/
theorem segments_carry_numbers {op : Operation δ} {later earlier : List Moment} {m : Moment}
    {frame : Bytes} {failure : Option NetError} {ip : Ipv4.Header} {header : Header}
    (h : Reachable w) (hr : op.Runs w w')
    (hj : w'.journal = later ++ m :: (earlier ++ w.journal))
    (hm : m.event = .transmitted frame failure) (hs : frame.IsSegment ip header) :
    later = [] ∧ op.Asked frame ip ∨ ∃ slot : Slot, header.From ip.dest (m.host.tcp.get slot) ∧
      (header.ack = (m.host.tcp.get slot).ack ∨
        ∃ m₀ ∈ earlier, m₀.Asks ip.dest ∧ header.ack = (m₀.host.tcp.get slot).ack) := by
  rcases (hr.works h.safe).follows World.Numbers.frameOrder Errand.numbers with
    hg | ⟨w₁, mac, dest, protocol, payload, rfl, hl, hg, -, rfl⟩
  · exact .inr (hg.numbered hj frame failure ip header hm hs)
  · obtain ⟨failure', hd⟩ := w₁.journal_dispatch mac dest protocol payload
    rw [hd] at hj
    -- The packet itself is the newest moment; whatever came before it is the host's own.
    cases later with
    | nil =>
      obtain ⟨rfl, -⟩ := List.cons.inj hj
      obtain ⟨rfl, -⟩ := Event.transmitted.inj hm
      have hp := Ipv4.message_wire w₁.host.interface mac dest protocol w₁.host.nextPacketId hl
      rw [hs.ip_eq]
      exact .inl ⟨rfl, protocol, congrArg (Operation.ipv4Send dest protocol) hp.symm, rfl⟩
    | cons m' later =>
      exact .inr (hg.numbered (List.cons.inj hj).2 frame failure ip header hm hs)

namespace Tcp

def textFrame (seq : UInt32) (text : Bytes) : Bytes :=
  Ipv4.wire peer Interface.default.mac Interface.default.ip .tcp 0
    (Header.segment ⟨5000, 80, seq, 1, minHeader, { ack := true, psh := true }, window, 0⟩ text
      peer.ip Interface.default.ip)

def arpAnswer : Bytes :=
  let own := Interface.default
  Arp.wire own.mac peer.mac (.reply peer.mac peer.ip (.request own.mac own.ip peer.ip))

def receiving : World Link.Script :=
  (World.start ⟨[], 0, [], [(1, [.frame (textFrame 104 [100, 101, 102])]), (2, [.frame arpAnswer])]⟩
    ⟨0, 500, []⟩ Interface.default).after 5
      [.tcpOpen, .tcpBind 0 80, .tcpListen 0,
        .handleFrame (peerFrame 5000 80 100 0 { syn := true }),
        .handleFrame (peerFrame 5000 80 101 1 { ack := true })]

def firstText : Bytes := textFrame 101 [97, 98, 99]

def late : World Link.Script := receiving.after 5 [.handleFrame firstText]

def lateHeader : Header :=
  let header : Header := ⟨80, 5000, 1, 104, minHeader, { ack := true }, window, 0⟩
  { header with
    checksum := Checksum.transport Interface.default.ip peer.ip Ipv4.Protocol.tcp.number
      (header.fields 0 ++ []) }

def lateFrame : Bytes :=
  Ipv4.wire Interface.default peer.mac peer.ip .tcp 1
    (lateHeader.segment [] Interface.default.ip peer.ip)

theorem reachable_receiving : Reachable receiving := .after (.start ..) 5 _

theorem runs_late : (Operation.handleFrame firstText).Runs receiving late :=
  Operation.runs_after (by decide +kernel)

theorem isSegment_late :
    lateFrame.IsSegment (.sent Interface.default.ip peer.ip .tcp 1 minHeader) lateHeader :=
  Bytes.isSegment_wire lateHeader [] Interface.default.ip (Nat.zero_le _)

theorem journal_late : ∃ m earlier, late.journal = m :: (earlier ++ receiving.journal) ∧
    m.event = .transmitted lateFrame none ∧
    ∀ slot, lateHeader.From peer.ip (m.host.tcp.get slot) →
      slot = 0 ∧ (m.host.tcp.get slot).ack = 107 := by
  have hlength : late.journal.length = receiving.journal.length + 9 := by decide +kernel
  have hhead : late.journal.head?.any (fun m => m.event = .transmitted lateFrame none ∧
      ∀ slot, lateHeader.From peer.ip (m.host.tcp.get slot) →
        slot = 0 ∧ (m.host.tcp.get slot).ack = 107) = true := by decide +kernel
  obtain ⟨new, hj, -⟩ := ((runs_late.works reachable_receiving.safe).follows
    World.Numbers.frameOrder Errand.numbers).resolve_right (by simp)
  cases new with
  | nil => simp [hj] at hlength
  | cons m earlier =>
    rw [hj] at hhead
    have hm := of_decide_eq_true hhead
    exact ⟨m, earlier, hj, hm⟩

end Tcp

/-- The acknowledgement of the first text goes out as it was put together, though both are taken in. -/
theorem late_acknowledgement_outdated : Reachable receiving ∧
    (Operation.handleFrame firstText).Runs receiving late ∧
    lateFrame.IsSegment (.sent Interface.default.ip peer.ip .tcp 1 minHeader) lateHeader ∧
    ∃ m earlier, late.journal = m :: (earlier ++ receiving.journal) ∧
      m.event = .transmitted lateFrame none ∧
      ∀ slot, lateHeader.From peer.ip (m.host.tcp.get slot) →
        lateHeader.ack ≠ (m.host.tcp.get slot).ack := by
  obtain ⟨m, earlier, hj, hm, hslot⟩ := journal_late
  refine ⟨reachable_receiving, runs_late, isSegment_late, m, earlier, hj, hm, fun slot hf => ?_⟩
  rw [(hslot slot hf).2]
  decide

theorem segments_carry_numbers_late : Reachable receiving ∧
    (Operation.handleFrame firstText).Runs receiving late ∧
    lateFrame.IsSegment (.sent Interface.default.ip peer.ip .tcp 1 minHeader) lateHeader ∧
    ∃ m earlier, late.journal = m :: (earlier ++ receiving.journal) ∧
      m.event = .transmitted lateFrame none ∧ lateHeader.From peer.ip (m.host.tcp.get 0) ∧
      ∃ m₀ ∈ earlier, m₀.Asks peer.ip ∧ lateHeader.ack = (m₀.host.tcp.get 0).ack := by
  obtain ⟨m, earlier, hj, hm, hslot⟩ := journal_late
  have hj' : late.journal = [] ++ m :: (earlier ++ receiving.journal) := hj
  obtain ⟨slot, hf, hack⟩ := (segments_carry_numbers reachable_receiving runs_late hj' hm
    isSegment_late).resolve_left (by rintro ⟨-, _, hop, -⟩; cases hop)
  obtain ⟨rfl, hcurrent⟩ := hslot slot hf
  refine ⟨reachable_receiving, runs_late, isSegment_late, m, earlier, hj, hm, hf, ?_⟩
  refine hack.resolve_left fun ha => ?_
  rw [hcurrent] at ha
  exact absurd ha (by decide)

end InetHost
