import InetHost.Proofs.Host.Discards

/-! Echo requests that reach the host. The answer to one is the request with another type and a checksum of
its own. When the way to the requester is known, it goes out at once, and nothing else comes of the
request. -/

namespace InetHost

variable {δ : Type} {w : World δ}

namespace Icmp

/-- A message gives a request back; only the type and the checksum are its own. -/
structure Echoes (request answer : Bytes) : Prop where
  length_eq : answer.length = request.length
  messageType : answer[0]? = some MessageType.echoReply.number
  kept : ∀ i, i ≠ 0 → i ≠ 2 → i ≠ 3 → answer[i]? = request[i]?
  checksum : Checksum.ofBytes answer = 0

theorem echoes_of_echoReply {request answer : Bytes} (hl : request.length ≤ maxReply)
    (h : echoReply request = .ok answer) : Echoes request answer := by
  have hcarries : (Ipv4.Header.sent 0 0 .icmp 0 0).Carries answer := carries_echoReply hl h 0
  match request, h with
  | _ :: code :: _ :: _ :: rest, h =>
    obtain ⟨checksum, rfl⟩ : ∃ checksum, answer =
      [MessageType.echoReply.number, code] ++ Bytes.word16 checksum ++ rest :=
        ⟨_, (Except.ok.inj h).symm⟩
    refine ⟨rfl, rfl, fun i h₀ h₂ h₃ => ?_, hcarries⟩
    -- Besides the bytes that are excepted there are the code, and what stands behind the checksum.
    match i with
    | 0 => exact absurd rfl h₀
    | 1 => rfl
    | 2 => exact absurd rfl h₂
    | 3 => exact absurd rfl h₃
    | i + 4 => rfl

def Requests (h : Host) (frame : Bytes) (source : Ipv4.Address) (request : Bytes) : Prop :=
  ∃ (link : Ethernet.Header) (packet : Ipv4.Header) (header : Header),
    Ethernet.Header.decode? frame = some link ∧ link.payloadType? = some .ipv4 ∧
    Ipv4.Admits h (frame.drop Ethernet.headerLength) packet ∧
    packet.protocol = Ipv4.Protocol.icmp.number ∧ packet.source = source ∧
    packet.payload (frame.drop Ethernet.headerLength) = request ∧
    Header.decode? request = some header ∧
    header.messageType = MessageType.echoRequest.number ∧ header.code = 0

theorem requests_wire (h : Host) (own : Interface) (mac : Mac) (id : UInt16) {request : Bytes}
    {header : Header} (hl : request.length ≤ Ipv4.maxPayload)
    (hd : Header.decode? request = some header)
    (ht : header.messageType = MessageType.echoRequest.number) (hc : header.code = 0) :
    Requests h (Ipv4.wire own mac h.interface.ip .icmp id request) own.ip request := by
  refine ⟨_, .sent own.ip h.interface.ip .icmp id request.length, header,
    Ethernet.decode?_ipv4Wire .., rfl, ?_, rfl, rfl, ?_, hd, ht, hc⟩
  · rw [Ipv4.drop_wire]
    exact Ipv4.admits_sent hl ..
  · rw [Ipv4.drop_wire]
    exact Ipv4.payload_sent hl ..

def Replies (h : Host) (mac : Mac) (source : Ipv4.Address) (request frame : Bytes) : Prop :=
  ∃ (link : Ethernet.Header) (packet : Ipv4.Header), Ipv4.OwnFrame h frame link packet ∧
    link.dest = mac ∧ packet.dest = source ∧ packet.protocol = Ipv4.Protocol.icmp.number ∧
    Echoes request (packet.message frame)

theorem replies_wire {h : Host} {mac : Mac} {source : Ipv4.Address} {request answer : Bytes}
    (hop : h.arp.lookup? (h.interface.nextHop source) = some mac)
    (hl : request.length ≤ maxReply) (ha : echoReply request = .ok answer) (id : UInt16) :
    Replies h mac source request (Ipv4.wire h.interface mac source .icmp id answer) := by
  have hshort : answer.length ≤ Ipv4.maxPayload := length_of_echoReply hl ha
  refine ⟨_, _, Ipv4.ownFrame_wire hshort hop, rfl, rfl, rfl, ?_⟩
  rw [Ipv4.message_wire _ _ _ _ _ hshort]
  exact echoes_of_echoReply hl ha

theorem exists_decode?_echoRequest (sequence : UInt16) (time : UInt32) : ∃ checksum,
    Header.decode? (echoRequest sequence time) =
      some ⟨MessageType.echoRequest.number, 0, checksum, identifier, sequence⟩ :=
  ⟨_, Header.decode?_encode _ _⟩

theorem exists_echoReply_of_echoRequest (sequence : UInt16) (time : UInt32) :
    ∃ reply checksum, echoReply (echoRequest sequence time) = .ok reply ∧
      Header.decode? reply =
        some ⟨MessageType.echoReply.number, 0, checksum, identifier, sequence⟩ ∧
      timestamp? reply = .ok (some time) := by
  refine ⟨_, _, rfl, Header.decode?_encode ⟨_, 0, _, identifier, sequence⟩
    (Bytes.word32 time ++ letters 4 (requestPayload - 4)), ?_⟩
  exact congrArg (fun t => Except.ok (some t)) (Bytes.join32_word32 time)

variable [Link.Device δ] {p : Poller δ} {source : Ipv4.Address} {request : Bytes}

theorem handle_reply {message : Bytes} {header : Header} {sent : Option UInt32}
    (hd : Header.decode? message = some header)
    (ht : header.messageType = MessageType.echoReply.number) (hc : header.code = 0)
    (hs : timestamp? message = .ok sent) :
    handle p message source w = .ok ((), noteReply header sent source w) := by
  rw [handle, Net.check_bind (Header.parse_eq_ok message), hd]
  dsimp only
  rw [if_neg (not_not_intro hc), if_pos ht, Net.check_bind hs]
  rfl

theorem handle_request {header : Header} (hd : Header.decode? request = some header)
    (ht : header.messageType = MessageType.echoRequest.number) (hc : header.code = 0) :
    handle p request source w = sendReply p source request w := by
  have hreply : ¬ header.messageType = MessageType.echoReply.number := by
    rw [ht]
    decide
  rw [handle, Net.check_bind (Header.parse_eq_ok request), hd]
  dsimp only
  rw [if_neg (not_not_intro hc), if_neg hreply, if_pos ht]

theorem sendReply_long (h : maxReply < request.length) : sendReply p source request w = .ok ((), w) := by
  rw [sendReply, if_pos h]
  rfl

theorem sendReply_known {mac : Mac} {answer : Bytes} (hop : w.hop? source = some mac)
    (hl : request.length ≤ maxReply) (ha : echoReply request = .ok answer) :
    ∃ w', sendReply p source request w = .ok ((), w') ∧
      (w.dispatch mac source .icmp answer).Remarks w' := by
  have hshort : answer.length ≤ Ipv4.maxPayload := length_of_echoReply hl ha
  have hfound : (Arp.resolve p source Timeouts.resolveForReply).run w = .ok (.ok mac, w) :=
    Attempt.run_eq_of_ensures fun Q => Arp.resolve_known hop
  have hid : (modifyGet Ipv4.takeId : Net δ UInt16) w =
    .ok (w.host.nextPacketId, (Ipv4.takeId w).2) := rfl
  have hsent : (Ipv4.transmit mac source .icmp w.host.nextPacketId answer).run (Ipv4.takeId w).2 =
      .ok ((Link.Device.transmit (Ipv4.wire w.host.interface mac source .icmp w.host.nextPacketId
        answer) w.device).1, w.dispatch mac source .icmp answer) :=
    Attempt.run_eq_of_ensures fun Q => Ipv4.transmit_ensures mac source .icmp _ hshort
  rw [sendReply, if_neg (Nat.not_lt.2 hl), Net.bind_of_eq_ok hfound]
  dsimp only
  rw [Net.check_bind (Bytes.within_eq_ok hl), Net.check_bind ha, Net.bind_of_eq_ok hid,
    Net.bind_of_eq_ok hsent]
  cases (Link.Device.transmit (Ipv4.wire w.host.interface mac source .icmp w.host.nextPacketId
    answer) w.device).1 with
  | ok _ => exact ⟨_, rfl, .nothing⟩
  | error cause => exact ⟨_, rfl, .line rfl⟩

end Icmp

open Icmp in
/-- An echo request is given back in one frame to the next station; one that is too long is passed over. -/
theorem echo_requests_answered [Link.Device δ] (p : Poller δ) {frame request : Bytes}
    {source : Ipv4.Address} (h : Requests w.host frame source request) :
    (request.length ≤ 1466 → ∀ mac, w.hop? source = some mac →
      ∃ reply w', Net.handleFrame p frame w = .ok ((), w') ∧ Replies w.host mac source request reply ∧
        w'.frames = w.frames ++ [reply] ∧ w'.device = (Link.Device.transmit reply w.device).2 ∧
        w'.host = { w.host with nextPacketId := w.host.nextPacketId + 1 } ∧ w'.clock = w.clock) ∧
    (1466 < request.length → Net.handleFrame p frame w = .ok ((), w)) := by
  obtain ⟨link, packet, header, hlink, htype, hadmits, hprotocol, rfl, rfl, hheader, hrequest,
    hcode⟩ := h
  have hhandle : Net.handleFrame p frame w =
      sendReply p packet.source (packet.payload (frame.drop Ethernet.headerLength)) w := by
    rw [Net.handleFrame_ipv4 hlink htype, Ipv4.handle_of_admits hadmits,
      Ipv4.Protocol.ofNumber?_eq_some_iff.2 hprotocol]
    exact handle_request hheader hrequest hcode
  rw [hhandle]
  refine ⟨fun hl mac hop => ?_, sendReply_long⟩
  obtain ⟨answer, ha⟩ := echoReply_eq_ok (Header.headerLength_le_of_decode? hheader)
  obtain ⟨w', hrun, hr⟩ := sendReply_known (p := p) hop hl ha
  refine ⟨_, w', hrun, replies_wire hop hl ha w.host.nextPacketId, ?_, hr.device_eq, hr.host_eq,
    hr.clock_eq⟩
  rw [hr.frames_eq, (World.handsOver_dispatch ..).frames]

theorem echo_requests_answered_odd :
    let request : Bytes := [8, 0, 0, 0, 0x12, 0x34, 0, 7, 255]
    let frame := Ipv4.wire Tcp.peer Interface.default.mac Interface.default.ip .icmp 0 request
    Icmp.Requests Host.neighbourly.host frame Tcp.peer.ip request ∧
      request.length ≤ 1466 ∧ Host.neighbourly.hop? Tcp.peer.ip = some Tcp.peer.mac ∧
      ∃ reply w', Net.handleFrame (Poller.ofFuel 0) frame Host.neighbourly = .ok ((), w') ∧
        Icmp.Replies Host.neighbourly.host Tcp.peer.mac Tcp.peer.ip request reply ∧
        w'.frames = [reply] ∧ w'.host.nextPacketId = 1 := by
  intro request frame
  have hrequest : Icmp.Requests Host.neighbourly.host frame Tcp.peer.ip request :=
    Icmp.requests_wire _ Tcp.peer _ _ (by decide) rfl rfl rfl
  have hl : request.length ≤ 1466 := by decide
  have hop : Host.neighbourly.hop? Tcp.peer.ip = some Tcp.peer.mac := by decide +kernel
  have hquiet : Host.neighbourly.frames = [] := by decide +kernel
  have hid : Host.neighbourly.host.nextPacketId = 0 := by decide +kernel
  obtain ⟨reply, w', hrun, hr, hframes, -, hhost, -⟩ :=
    (echo_requests_answered (Poller.ofFuel 0) hrequest).1 hl _ hop
  refine ⟨hrequest, hl, hop, reply, w', hrun, hr, ?_, ?_⟩
  · rw [hframes, hquiet, List.nil_append]
  · rw [hhost, hid]
    rfl

end InetHost
