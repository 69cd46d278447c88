import InetHost.Proofs.Host.Admission
import InetHost.Proofs.Host.Termination
import InetHost.Proofs.Tcp.Transitions
import InetHost.Proofs.Tcp.Unread

/-! The books of an open connection: what came, what was kept of it, what its owner has read, and what
was acknowledged. Data that do not fit the buffer are acknowledged all the same, so two of the sums
differ; the books hold however reading and hearing take turns. -/

namespace InetHost

open Tcp

variable {δ : Type} {w w₁ w₂ w₃ w' : World δ}

structure Ipv4.Delivers (own : Address) (frame : Bytes) (link : Ethernet.Header)
    (header : Header) : Prop where
  link_eq : Ethernet.Header.decode? frame = some link
  type_eq : link.payloadType? = some .ipv4
  header_eq : Header.decode? (frame.drop Ethernet.headerLength) = some header
  verifies : Checksum.verifies
    ((frame.drop Ethernet.headerLength).take header.headerLength) = true
  headerLength_le : header.headerLength ≤ header.totalLength.toNat
  totalLength_le : header.totalLength.toNat ≤ (frame.drop Ethernet.headerLength).length
  dest : header.dest = own ∨ header.dest.isBroadcast = true
  protocol_eq : Protocol.ofNumber? header.protocol = some .tcp

def Tcp.Bears (slot : Slot) (frame payload : Bytes) (w : World δ) : Prop :=
  ∃ link packet header, Ipv4.Delivers w.host.interface.ip frame link packet ∧
    Addressed w (packet.message frame) packet.source header slot ∧
    header.flags.ack = true ∧ header.flags.fin = false ∧ header.flags.rst = false ∧
    payload = (packet.message frame).drop header.dataOffset

theorem Ipv4.delivers_wire (own : Interface) (mac : Mac) (h : Host) (id : UInt16) {message : Bytes}
    (hl : message.length ≤ maxPayload) :
    Delivers h.interface.ip (wire own mac h.interface.ip .tcp id message)
      ⟨mac, own.mac, Ethernet.EtherType.ipv4.toWord⟩
      (.sent own.ip h.interface.ip .tcp id message.length) := by
  have ha := admits_sent hl h own.ip .tcp id (List.replicate (26 - message.length) 0)
  rw [← drop_wire own mac h.interface.ip .tcp id message] at ha
  exact ⟨Ethernet.decode?_ipv4Wire .., rfl, ha.decoded, ha.verified, ha.headerLength_le,
    ha.totalLength_le, .inl rfl, Protocol.ofNumber?_number .tcp⟩

theorem Tcp.exists_delivers_wire {header : Header} {data : Bytes} {slot : Slot} (own : Interface)
    (mac : Mac) (id : UInt16) (hl : data.length ≤ maxPayload) {dest : Ipv4.Address}
    (hd : dest = w.host.interface.ip)
    (hs : w.host.tcp.demux? header.dest own.ip header.source = some slot) :
    let frame := Ipv4.wire own mac dest .tcp id (header.segment data own.ip dest)
    ∃ link packet read, Ipv4.Delivers w.host.interface.ip frame link packet ∧
      Addressed w (packet.message frame) packet.source read slot ∧ read.flags = header.flags ∧
      read.seq = header.seq ∧ data = (packet.message frame).drop read.dataOffset := by
  subst hd
  have hm := header.length_segment_le hl own.ip w.host.interface.ip
  let read : Header := { header with
    dataOffset := minHeader
    checksum := Checksum.transport own.ip w.host.interface.ip Ipv4.Protocol.tcp.number
      (header.fields 0 ++ data) }
  refine ⟨_, _, read, Ipv4.delivers_wire own mac w.host id hm, ⟨?_, hs⟩, rfl, rfl, ?_⟩
  · rw [Ipv4.message_wire _ _ _ _ _ hm]
    exact Header.decode?_fields ..
  · rw [Ipv4.message_wire _ _ _ _ _ hm]
    exact (header.drop_segment data ..).symm

theorem Tcp.bears_wire {header : Header} {data : Bytes} {slot : Slot} (own : Interface) (mac : Mac)
    (id : UInt16) (hl : data.length ≤ maxPayload) {dest : Ipv4.Address}
    (hd : dest = w.host.interface.ip)
    (hs : w.host.tcp.demux? header.dest own.ip header.source = some slot)
    (hack : header.flags.ack = true) (hfin : header.flags.fin = false)
    (hrst : header.flags.rst = false) :
    Bears slot (Ipv4.wire own mac dest .tcp id (header.segment data own.ip dest)) data w := by
  obtain ⟨link, packet, read, hdelivers, ha, hflags, -, hdata⟩ :=
    exists_delivers_wire own mac id hl hd hs
  exact ⟨link, packet, read, hdelivers, ha, hflags ▸ hack, hflags ▸ hfin, hflags ▸ hrst, hdata⟩

def Tcp.room (slot : Slot) (w : World δ) : Nat := bufferSize - (unread slot w).length

inductive Tcp.Entry
  | segment (payload : Bytes) (room : Nat)
  | read (data : Bytes)

namespace Tcp

def Entry.heard : Entry → Bytes
  | segment payload _ => payload
  | read _ => []

def Entry.kept : Entry → Bytes
  | segment payload room => payload.take (min payload.length room)
  | read _ => []

def Entry.got : Entry → Bytes
  | segment _ _ => []
  | read data => data

def burdens (log : List Entry) : List Bytes := (log.map Entry.heard).filter (· ≠ [])

def ackFrame (own : Interface) (mac : Mac) (s : Socket) (id : UInt16) (ack : UInt32) : Bytes :=
  Ipv4.wire own mac s.remoteIp .tcp id ({ s with ack }.segment own.ip { ack := true } [])

def answers (frame : UInt16 → UInt32 → Bytes) (id : UInt16) (ack : UInt32) : List Bytes → List Bytes
  | [] => []
  | payload :: rest =>
    let ack := ack + UInt32.ofNat payload.length
    frame id ack :: answers frame (id + 1) ack rest

end Tcp

variable {slot : Slot} {mac : Mac} {log log' : List Entry}

namespace Tcp

theorem burdens_append : burdens (log ++ log') = burdens log ++ burdens log' := by
  rw [burdens, List.map_append, List.filter_append, burdens, burdens]

theorem flatten_burdens : (burdens log).flatten = log.flatMap Entry.heard := by
  induction log with
  | nil => rfl
  | cons e log ih =>
    rw [burdens, List.map_cons, List.filter_cons, List.flatMap_cons]
    split
    · rw [List.flatten_cons, ← burdens, ih]
    · rename_i he
      rw [← burdens, ih, show e.heard = [] by simpa using he]
      rfl

theorem answers_append (frame : UInt16 → UInt32 → Bytes) (id : UInt16) (ack : UInt32)
    (payloads rest : List Bytes) : answers frame id ack (payloads ++ rest) =
      answers frame id ack payloads ++ answers frame (id + UInt16.ofNat payloads.length)
        (ack + UInt32.ofNat payloads.flatten.length) rest := by
  induction payloads generalizing id ack with
  | nil => simp [answers]
  | cons payload payloads ih =>
    have hid : id + 1 + UInt16.ofNat payloads.length =
        id + UInt16.ofNat (payload :: payloads).length := by
      rw [List.length_cons, Nat.add_comm, UInt16.ofNat_add, UInt16.add_assoc]
      rfl
    have hack : ack + UInt32.ofNat payload.length + UInt32.ofNat payloads.flatten.length =
        ack + UInt32.ofNat (payload :: payloads).flatten.length := by
      rw [List.flatten_cons, List.length_append, UInt32.ofNat_add, UInt32.add_assoc]
    rw [List.cons_append, answers, answers, ih, hid, hack, List.cons_append]

end Tcp

/-- The books hold between two worlds. -/
structure Tcp.Balanced (slot : Slot) (mac : Mac) (w : World δ) (log : List Entry)
    (w' : World δ) : Prop where
  host : w'.host = { w.host with
    tcp := w'.host.tcp
    nextPacketId := w.host.nextPacketId + UInt16.ofNat (burdens log).length }
  socket : ∃ buffer, socketAt slot w' = { socketAt slot w with
    buffer, ack := (socketAt slot w).ack + UInt32.ofNat (log.flatMap Entry.heard).length }
  bytes : log.flatMap Entry.got ++ unread slot w' = unread slot w ++ log.flatMap Entry.kept
  frames : w'.frames = w.frames ++ answers (ackFrame w.host.interface mac (socketAt slot w))
    w.host.nextPacketId (socketAt slot w).ack (burdens log)

namespace Tcp.Balanced

theorem still (hh : w'.host = w.host) (hf : w'.frames = w.frames) :
    Balanced slot mac w [] w' := by
  have hs : socketAt slot w' = socketAt slot w := by rw [socketAt, socketAt, hh]
  refine ⟨?_, ⟨(socketAt slot w).buffer, ?_⟩, ?_, ?_⟩
  · simp [hh, burdens]
  · simp [hs]
  · simp [unread, hs]
  · simp [hf, burdens, answers]

theorem hollow (room : Nat) : Balanced slot mac w [.segment [] room] w := by
  refine ⟨?_, ⟨(socketAt slot w).buffer, ?_⟩, ?_, ?_⟩
  · simp [burdens, Entry.heard]
  · simp [Entry.heard]
  · simp [Entry.got, Entry.kept]
  · simp [burdens, Entry.heard, answers]

theorem segment {payload : Bytes} {buffer : Ring bufferSize} {stored : Nat}
    (hp : payload ≠ []) (hv : (socketAt slot w).buffer.Valid)
    (hb : (socketAt slot w).buffer.push payload = .ok (buffer, stored))
    (ha : w.Adjusts w₁)
    (hs : socketAt slot w₁ = { socketAt slot w with
      buffer, ack := (socketAt slot w).ack + UInt32.ofNat payload.length })
    (h : w₁.HandsOver (w₁.frameOf mac (socketAt slot w₁) { ack := true } []) w') :
    Balanced slot mac w [.segment payload (room slot w)] w' := by
  have hburdens : burdens [.segment payload (room slot w)] = [payload] := by
    simp [burdens, Entry.heard, hp]
  have hframe : w₁.frameOf mac (socketAt slot w₁) { ack := true } [] =
      ackFrame w.host.interface mac (socketAt slot w) w.host.nextPacketId
        ((socketAt slot w).ack + UInt32.ofNat payload.length) := by
    rw [ha.frameOf_eq, hs]
    rfl
  obtain ⟨hstored, htoList⟩ := hv.toList_push hb
  refine ⟨?_, ⟨buffer, ?_⟩, ?_, ?_⟩
  · have hhost : w'.host = { w₁.host with nextPacketId := w₁.host.nextPacketId + 1 } := h.host
    rw [hburdens, hhost, ha.host]
    rfl
  · rw [h.socketAt_eq, hs]
    simp [Entry.heard]
  · have hroom : room slot w = bufferSize - (socketAt slot w).buffer.length := by
      rw [room, unread, Ring.length_toList]
    simp only [List.flatMap_cons, List.flatMap_nil, Entry.got, Entry.kept, List.nil_append,
      List.append_nil]
    rw [unread, h.socketAt_eq, hs, htoList, hstored, hroom, unread]
  · rw [h.frames, ha.frames, hframe, hburdens]
    rfl

theorem read {buffer : Ring bufferSize} {data : Bytes} {capacity : Nat}
    (hv : (socketAt slot w).buffer.Valid)
    (hb : (socketAt slot w).buffer.pop capacity = .ok (buffer, data)) :
    Balanced slot mac w [.read data] (updateSocket slot (fun s => { s with buffer }) w) := by
  refine ⟨?_, ⟨buffer, ?_⟩, ?_, ?_⟩
  · simp [burdens, Entry.heard, updateSocket, World.update]
  · simp [Entry.heard]
  · simp [Entry.got, Entry.kept, unread, hv.toList_pop hb]
  · simp [burdens, Entry.heard, answers, (World.Adjusts.updateSocket _ w).frames]

theorem append (h : Balanced slot mac w log w₁) (h' : Balanced slot mac w₁ log' w₂) :
    Balanced slot mac w (log ++ log') w₂ := by
  obtain ⟨buffer, hs⟩ := h.socket
  obtain ⟨buffer', hs'⟩ := h'.socket
  have hframe : ackFrame w₁.host.interface mac (socketAt slot w₁) =
      ackFrame w.host.interface mac (socketAt slot w) := by
    rw [h.host, hs]
    rfl
  refine ⟨?_, ⟨buffer', ?_⟩, ?_, ?_⟩
  · rw [h'.host, h.host, burdens_append, List.length_append, UInt16.ofNat_add, UInt16.add_assoc]
  · rw [hs', hs, List.flatMap_append, List.length_append, UInt32.ofNat_add, UInt32.add_assoc]
  · calc (log ++ log').flatMap Entry.got ++ unread slot w₂
        = log.flatMap Entry.got ++ (log'.flatMap Entry.got ++ unread slot w₂) := by
          rw [List.flatMap_append, List.append_assoc]
      _ = (log.flatMap Entry.got ++ unread slot w₁) ++ log'.flatMap Entry.kept := by
          rw [h'.bytes, List.append_assoc]
      _ = unread slot w ++ (log ++ log').flatMap Entry.kept := by
          rw [h.bytes, List.append_assoc, List.flatMap_append]
  · rw [h'.frames, h.frames, hframe, h.host, hs, burdens_append, answers_append, flatten_burdens,
      List.append_assoc]

end Tcp.Balanced

variable [Link.Device δ]

inductive Tcp.Drains (p : Poller δ) (slot : Slot) : Nat → World δ → List Entry → World δ → Prop
  | spent (w : World δ) : Drains p slot 0 w [] w
  | idle {w : World δ} (budget : Nat) :
      (w.takeFrame Ethernet.maxFrame).1 = .ok [] →
      Drains p slot (budget + 1) w [] (w.takeFrame Ethernet.maxFrame).2
  | failed {w : World δ} {cause : NetError} (budget : Nat) :
      (w.takeFrame Ethernet.maxFrame).1 = .error cause →
      Drains p slot (budget + 1) w []
        ((w.takeFrame Ethernet.maxFrame).2.record (.receiveFailed
          (Link.Device.name (w.takeFrame Ethernet.maxFrame).2.device) cause))
  | frame {budget : Nat} {w w₁ w₂ : World δ} {frame payload : Bytes} {log : List Entry} :
      (w.takeFrame Ethernet.maxFrame).1 = .ok frame → frame ≠ [] →
      Bears slot frame payload (w.takeFrame Ethernet.maxFrame).2 →
      Net.handleFrame p frame (w.takeFrame Ethernet.maxFrame).2 = .ok ((), w₁) →
      Drains p slot budget w₁ log w₂ →
      Drains p slot (budget + 1) w (.segment payload (room slot w) :: log) w₂

/-- A run in which a connection gets data and its owner reads, in any order. -/
inductive Tcp.Session (slot : Slot) : World δ → List Entry → World δ → Prop
  | done (w : World δ) : Session slot w [] w
  | hear {w w₁ w₂ : World δ} {frame payload : Bytes} {log : List Entry} {fuel : Nat} :
      Bears slot frame payload w →
      Net.handleFrame (Poller.ofFuel fuel) frame w = .ok ((), w₁) →
      Session slot w₁ log w₂ → Session slot w (.segment payload (room slot w) :: log) w₂
  | receive {w w₁ w₂ w₃ : World δ} {heard log : List Entry} {data : Bytes} {fuel capacity : Nat} :
      Drains (Poller.ofFuel fuel) slot Net.pollBudget w heard w₁ →
      (Tcp.receive (Poller.ofFuel (fuel + 1)) slot capacity).run w = .ok (.ok data, w₂) →
      Session slot w₂ log w₃ → Session slot w (heard ++ .read data :: log) w₃

/-- An open connection whose peer can be answered at once. -/
structure Tcp.Engaged (slot : Slot) (mac : Mac) (w : World δ) : Prop where
  valid : w.Valid
  inUse : (socketAt slot w).inUse = true
  established : (socketAt slot w).state = .established
  hop : w.hop? (socketAt slot w).remoteIp = some mac

omit [Link.Device δ] in
theorem Tcp.Balanced.engaged (h : Balanced slot mac w log w') (he : Engaged slot mac w)
    (hv : w'.Valid) : Engaged slot mac w' := by
  obtain ⟨buffer, hs⟩ := h.socket
  refine ⟨hv, ?_, ?_, ?_⟩
  · rw [hs, he.inUse]
  · rw [hs, he.established]
  · rw [World.hop?, h.host, hs]
    exact he.hop

variable {p : Poller δ} {frame payload : Bytes}

theorem Net.handleFrame_of_delivers {link : Ethernet.Header} {packet : Ipv4.Header}
    {Q : Unit → World δ → Prop} (h : Ipv4.Delivers w.host.interface.ip frame link packet)
    (hh : Finishes (Tcp.handle p (packet.message frame) packet.source) w Q) :
    Finishes (handleFrame p frame) w Q := by
  have hdest : packet.dest = w.host.interface.ip ∨ packet.dest = Ipv4.Address.broadcast :=
    h.dest.imp_right of_decide_eq_true
  have hadmits : Ipv4.Admits w.host (frame.drop Ethernet.headerLength) packet :=
    ⟨h.header_eq, h.verifies, h.headerLength_le, h.totalLength_le, hdest⟩
  rw [Finishes, handleFrame_ipv4 h.link_eq h.type_eq, Ipv4.handle_of_admits hadmits, h.protocol_eq]
  exact hh

theorem Tcp.Engaged.hear (h : Engaged slot mac w) (hb : Bears slot frame payload w) :
    Net.Finishes (Net.handleFrame p frame) w
      fun _ w' => Balanced slot mac w [.segment payload (room slot w)] w' := by
  obtain ⟨link, packet, header, hd, ha, hack, hfin, hrst, rfl⟩ := hb
  let message := packet.message frame
  let payload := message.drop header.dataOffset
  apply Net.handleFrame_of_delivers hd
  rw [handle, Net.finishes_bind, Net.finishes_check_of_eq (Header.parse_eq_ok message),
    ha.decoded]
  simp only [Net.finishes_bind, Net.finishes_get]
  rw [ha.found]
  simp only [Net.finishes_bind, Net.finishes_get, hrst, h.established, advance, hfin, hack,
    Bool.false_eq_true, if_false, if_true]
  rw [Net.finishes_check]
  intro data hdata
  have hpayload : data = payload := by
    rw [Bytes.eq_of_slice hdata, ← List.length_drop, List.take_length]
  rw [hpayload]
  by_cases hp : payload = []
  · rw [acceptData, if_pos hp]
    have hempty : message.drop header.dataOffset = [] := hp
    rw [hempty]
    exact .hollow _
  · refine (acceptData_prompt hp h.hop).mono fun _ w' hw => ?_
    obtain ⟨buffer, stored, w₁, hpush, hadjusts, hsockets, hover⟩ := hw
    exact .segment hp (h.valid slot) hpush hadjusts (by rw [hsockets, if_pos rfl]) hover

theorem Tcp.Engaged.handleFrame (h : Engaged slot mac w) (hb : Bears slot frame payload w)
    (hp : p.Evolving) (hr : Net.handleFrame p frame w = .ok ((), w')) :
    Balanced slot mac w [.segment payload (room slot w)] w' ∧ Engaged slot mac w' := by
  have hbal := h.hear hb |>.of_ok hr
  exact ⟨hbal, hbal.engaged h ((Net.handleFrame_valid hp frame h.valid).of_ok hr)⟩

theorem Tcp.Engaged.exists_handleFrame (h : Engaged slot mac w) (hb : Bears slot frame payload w)
    (hp : p.Evolving) : ∃ w', Net.handleFrame p frame w = .ok ((), w') := by
  obtain ⟨⟨⟩, w', hr, -⟩ :=
    (h.hear hb).exists_eq_ok (Net.handleFrame_ensures hp frame h.valid).ne_fault
  exact ⟨w', hr⟩

theorem Tcp.Drains.balanced {budget : Nat} (hd : Drains p slot budget w log w')
    (h : Engaged slot mac w) (hp : p.Evolving) :
    Net.Finishes (Net.drain (Net.handleFrame p) budget) w (fun _ w₁ => w₁ = w') ∧
      Balanced slot mac w log w' ∧ Engaged slot mac w' := by
  induction hd with
  | spent w => exact ⟨rfl, .still rfl rfl, h⟩
  | @idle w budget ht =>
    have hb : Balanced slot mac w [] (w.takeFrame Ethernet.maxFrame).2 := .still rfl rfl
    refine ⟨?_, hb, hb.engaged h h.valid⟩
    rw [Net.drain, Net.finishes_bind, Net.finishes_modifyGet, ht]
    rfl
  | @failed w cause budget ht =>
    let w₁ := (w.takeFrame Ethernet.maxFrame).2
    have hb : Balanced slot mac w [] (w₁.record (.receiveFailed (Link.Device.name w₁.device)
        cause)) := .still rfl (World.frames_record w₁ rfl)
    refine ⟨?_, hb, hb.engaged h h.valid⟩
    rw [Net.drain, Net.finishes_bind, Net.finishes_modifyGet, ht]
    rfl
  | @frame budget w w₁ w₂ frame payload log ht hne hb hr hd ih =>
    have htaken : Balanced slot mac w [] (w.takeFrame Ethernet.maxFrame).2 := .still rfl rfl
    obtain ⟨hheard, he⟩ := (htaken.engaged h h.valid).handleFrame hb hp hr
    obtain ⟨hdrain, hrest, he'⟩ := ih he
    refine ⟨?_, (htaken.append hheard).append hrest, he'⟩
    rw [Net.drain, Net.finishes_bind, Net.finishes_modifyGet, ht]
    split
    · rename_i hf
      cases hf
    · rename_i hf
      exact absurd (Except.ok.inj hf) hne
    · rename_i hf
      obtain rfl := Except.ok.inj hf
      rw [Net.finishes_bind]
      refine Net.finishes_of_eq_ok hr ?_
      rw [Net.finishes_bind]
      exact hdrain

theorem Tcp.Engaged.receive {fuel : Nat} (capacity : Nat) (h : Engaged slot mac w)
    (hd : Drains (Poller.ofFuel fuel) slot Net.pollBudget w log w₁) :
    ∃ data w₂, (Tcp.receive (Poller.ofFuel (fuel + 1)) slot capacity).run w = .ok (.ok data, w₂) ∧
      Balanced slot mac w (log ++ [.read data]) w₂ ∧ Engaged slot mac w₂ := by
  obtain ⟨hpoll, hb, he⟩ := hd.balanced h (Poller.evolving_ofFuel fuel)
  obtain ⟨buffer, data, hpop, -⟩ := (he.valid slot).pop_eq_ok capacity
  let w₂ := updateSocket slot (fun s => { s with buffer }) w₁
  have hread : Balanced slot mac w₁ [.read data] w₂ := .read (he.valid slot) hpop
  have hrun : Attempt.Finishes (Tcp.receive (Poller.ofFuel (fuel + 1)) slot capacity) w
      fun result w' => result = .ok data ∧ w' = w₂ := by
    have hslot {w : World δ} (he : Engaged slot mac w) : w.host.tcp.slot slot = .ok slot :=
      Sockets.slot_eq_ok he.inUse
    rw [Tcp.receive, Attempt.finishes_bind, Attempt.finishes_of_run_eq (run_slot slot w), hslot h]
    dsimp only
    rw [Attempt.finishes_bind, Attempt.finishes_lift]
    refine hpoll.mono fun _ w' hw => ?_
    subst hw
    rw [Attempt.finishes_bind, Attempt.finishes_of_run_eq (run_slot slot w'), hslot he]
    simp only [Attempt.finishes_bind, Attempt.finishes_get, Attempt.finishes_check]
    rintro ⟨buffer', data'⟩ hpop'
    obtain ⟨rfl, rfl⟩ := Prod.mk.inj (Except.ok.inj (hpop.symm.trans hpop'))
    exact ⟨rfl, rfl⟩
  have hp : (Poller.ofFuel (fuel + 1) : Poller δ).Evolving := Poller.evolving_ofFuel (fuel + 1)
  obtain ⟨result, w', hr, rfl, rfl⟩ := Net.Finishes.exists_eq_ok hrun
    (Net.Ensures.ne_fault (receive_ensures hp slot capacity h.valid))
  have hv : w₂.Valid := by
    intro j
    rw [socketAt_updateSocket]
    split
    · exact (he.valid slot).of_pop hpop
    · exact he.valid j
  exact ⟨data, w₂, hr, hb.append hread, hread.engaged he hv⟩

theorem Tcp.Session.balanced (hs : Session slot w log w') (h : Engaged slot mac w) :
    Balanced slot mac w log w' ∧ Engaged slot mac w' := by
  induction hs with
  | done w => exact ⟨.still rfl rfl, h⟩
  | hear hb hr _ ih =>
    obtain ⟨hheard, he⟩ := h.handleFrame hb (Poller.evolving_ofFuel _) hr
    obtain ⟨hrest, he'⟩ := ih he
    exact ⟨hheard.append hrest, he'⟩
  | @receive w w₁ w₂ w₃ heard log data fuel capacity hd hr _ ih =>
    obtain ⟨data', w₂', hr', hread, he⟩ := h.receive capacity hd
    obtain ⟨hdata, rfl⟩ := Prod.mk.inj (Except.ok.inj (hr'.symm.trans hr))
    obtain rfl := Except.ok.inj hdata
    obtain ⟨hrest, he'⟩ := ih he
    have hall := hread.append hrest
    rw [List.append_assoc] at hall
    exact ⟨hall, he'⟩

/-- What was read and what is unread are what was unread at first and the part of each segment that fitted. -/
theorem receive_side_balances (h : Engaged slot mac w) (hs : Session slot w log w') :
    (log.flatMap Entry.got ++ unread slot w' = unread slot w ++ log.flatMap Entry.kept ∧
      (socketAt slot w').ack.toNat =
        ((socketAt slot w).ack.toNat + (log.map fun e => e.heard.length).sum) % 2 ^ 32 ∧
      w'.frames = w.frames ++ answers (ackFrame w.host.interface mac (socketAt slot w))
        w.host.nextPacketId (socketAt slot w).ack (burdens log) ∧
      (socketAt slot w').state = .established) ∧
    (∀ fuel frame payload, Bears slot frame payload w' →
      ∃ w'', Net.handleFrame (Poller.ofFuel fuel) frame w' = .ok ((), w'')) ∧
    ∀ fuel capacity heard w₁, Drains (Poller.ofFuel fuel) slot Net.pollBudget w' heard w₁ →
      ∃ data w'', (Tcp.receive (Poller.ofFuel (fuel + 1)) slot capacity).run w' =
        .ok (.ok data, w'') := by
  obtain ⟨hb, he⟩ := hs.balanced h
  refine ⟨⟨hb.bytes, ?_, hb.frames, he.established⟩, fun fuel frame payload hbears => ?_,
    fun fuel capacity heard w₁ hd => ?_⟩
  · obtain ⟨buffer, hsocket⟩ := hb.socket
    rw [hsocket, List.length_flatMap]
    simp only [UInt32.toNat_add, UInt32.toNat_ofNat', Nat.add_mod_mod]
  · exact he.exists_handleFrame hbears (Poller.evolving_ofFuel fuel)
  · obtain ⟨data, w'', hr, -⟩ := he.receive capacity hd
    exact ⟨data, w'', hr⟩

namespace Tcp

def conversing : World Link.Script :=
  (World.start ⟨[.frame lettersFrame], 0, [], []⟩ ⟨0, 500, []⟩ Interface.default).after 4
    [.arpLearn peer.ip peer.mac, .tcpOpen, .tcpBind 0 80, .tcpListen 0,
      .handleFrame (peerFrame 5000 80 100 0 { syn := true }),
      .handleFrame (peerFrame 5000 80 101 1 { ack := true })]

theorem engaged_conversing : Engaged 0 peer.mac conversing where
  valid := (Reachable.after (.start ..) 4 _ : Reachable conversing).valid
  inUse := by decide +kernel
  established := by decide +kernel
  hop := by decide +kernel

def addressed : World Link.Script := (conversing.takeFrame Ethernet.maxFrame).2

theorem bears_letters : Bears 0 lettersFrame letters addressed :=
  bears_wire peer Interface.default.mac 0 (by decide) (by decide +kernel) (by decide +kernel) rfl
    rfl rfl

def stocked : World Link.Script := addressed.after 4 [.handleFrame lettersFrame]

theorem exists_drains_letters : ∃ fuel w₁, Drains (Poller.ofFuel fuel) 0 Net.pollBudget conversing
    [.segment letters bufferSize] w₁ := by
  have hroom : room 0 conversing = bufferSize := by decide +kernel
  have hruns : (Operation.handleFrame lettersFrame).Runs addressed stocked :=
    Operation.runs_after (by decide +kernel)
  obtain ⟨fuel, hr⟩ := hruns
  have hidle : (stocked.takeFrame Ethernet.maxFrame).1 = .ok [] := by decide +kernel
  have hd : Drains (Poller.ofFuel fuel) 0 (62 + 1 + 1) conversing
      [.segment letters (room 0 conversing)] (stocked.takeFrame Ethernet.maxFrame).2 :=
    .frame (by decide +kernel) (by decide) bears_letters hr (.idle 62 hidle)
  rw [hroom] at hd
  exact ⟨fuel, _, hd⟩

end Tcp

theorem receive_side_balances_letters : ∃ data w', Engaged 0 peer.mac conversing ∧
    Session 0 conversing [.segment letters bufferSize, .read data] w' ∧
    data ++ unread 0 w' = letters ∧ w'.frames.length = conversing.frames.length + 1 := by
  obtain ⟨fuel, w₁, hd⟩ := exists_drains_letters
  obtain ⟨data, w₂, hr, -⟩ := engaged_conversing.receive 2 hd
  have hs : Session 0 conversing [.segment letters bufferSize, .read data] w₂ :=
    .receive hd hr (.done w₂)
  obtain ⟨⟨hbytes, -, hframes, -⟩, -⟩ := receive_side_balances engaged_conversing hs
  have hnone : unread 0 conversing = [] := by decide +kernel
  have hfits : letters.take (min letters.length bufferSize) = letters := by decide +kernel
  refine ⟨data, w₂, engaged_conversing, hs, ?_, ?_⟩
  · simpa only [List.flatMap_cons, List.flatMap_nil, Entry.got, Entry.kept, hnone, hfits,
      List.nil_append, List.append_nil] using hbytes
  · rw [hframes, List.length_append]
    rfl

end InetHost
