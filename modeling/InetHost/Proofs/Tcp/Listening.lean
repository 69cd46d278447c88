import InetHost.Proofs.Tcp.InOrder

/-! Calls to a port where a socket listens. The caller may have had connections to the port before. As
long as the sockets of those are in use, what the caller sends is for them, even when the connections are
closed; and a closed connection answers no call. -/

namespace InetHost

open Tcp

variable {δ : Type} {w w' : World δ} {slot : Slot} {mac : Mac} {frame message : Bytes}
  {port remote : UInt16} {ip source : Ipv4.Address} {seq : UInt32} {header : Header}

namespace Tcp

/-- The segment in a frame asks for a connection to `port`; there may be more in it. -/
def Calls (port : UInt16) (ip : Ipv4.Address) (remote : UInt16) (seq : UInt32) (frame : Bytes)
    (w : World δ) : Prop :=
  ∃ link packet header, Ipv4.Delivers w.host.interface.ip frame link packet ∧
    Header.decode? (packet.message frame) = some header ∧ packet.source = ip ∧
    header.dest = port ∧ header.source = remote ∧ header.seq = seq ∧ header.flags.syn = true ∧
    header.flags.rst = false

theorem calls_wire (header : Header) (own : Interface) (mac : Mac) (id : UInt16)
    {dest : Ipv4.Address} (hd : dest = w.host.interface.ip) (hsyn : header.flags.syn = true)
    (hrst : header.flags.rst = false) : Calls header.dest own.ip header.source header.seq
      (Ipv4.wire own mac dest .tcp id (header.segment [] own.ip dest)) w := by
  subst hd
  have hshort : ([] : Bytes).length ≤ maxPayload := Nat.zero_le _
  have hm := header.length_segment_le hshort own.ip w.host.interface.ip
  let read : Header := { header with
    dataOffset := minHeader
    checksum := Checksum.transport own.ip w.host.interface.ip Ipv4.Protocol.tcp.number
      (header.fields 0 ++ []) }
  refine ⟨_, _, read, Ipv4.delivers_wire own mac w.host id hm, ?_, rfl, rfl, rfl, rfl, hsyn, hrst⟩
  rw [Ipv4.message_wire _ _ _ _ _ hm]
  exact Header.decode?_fields ..

/-- A listening socket has taken a call. -/
structure Answers (slot : Slot) (ip : Ipv4.Address) (remote : UInt16) (seq : UInt32) (w' : World δ) :
    Prop where
  state : (socketAt slot w').state = .synReceived
  remoteIp : (socketAt slot w').remoteIp = ip
  remotePort : (socketAt slot w').remotePort = remote
  ack : (socketAt slot w').ack = seq + 1

theorem Row.for?_of_call (flags : Flags) (payload : Bytes) (hrst : flags.rst = false)
    (hsyn : flags.syn = true) : for? .listen flags payload =
      some ⟨.listen, { syn := true }, false, .accept, .synReceived⟩ := by
  simp [for?, rows, fits, Flags.includes, hrst, hsyn]

theorem Row.for?_closed (flags : Flags) (payload : Bytes) : for? .closed flags payload = none := by
  cases hrst : flags.rst <;> simp [for?, resets, rows, State.all, fits, hrst]

theorem Obeys.answers (ha : Addressed w message source header slot)
    (hl : (socketAt slot w).state = .listen) (hrst : header.flags.rst = false)
    (hsyn : header.flags.syn = true) (h : Obeys mac message source w w') :
    Answers slot source header.source header.seq w' := by
  have he := h.endpoint ha
  rw [hl, Row.for?_of_call _ _ hrst hsyn] at he
  exact ⟨congrArg Endpoint.state he, congrArg Endpoint.remoteIp he,
    congrArg Endpoint.remotePort he, congrArg Endpoint.ack he⟩

theorem Obeys.stays_of_closed (ha : Addressed w message source header slot)
    (hc : (socketAt slot w).state = .closed) (h : Obeys mac message source w w') :
    w'.host.tcp = w.host.tcp ∧ w'.frames = w.frames := by
  cases h with
  | stays _ htcp hframes => exact ⟨htcp, hframes⟩
  | moves hd hchosen hrow _ =>
    obtain rfl := Option.some.inj (ha.decoded.symm.trans hd)
    obtain rfl := Option.some.inj (ha.found.symm.trans (Sockets.demux?_eq_some_iff.2 hchosen))
    rw [hc, Row.for?_closed] at hrow
    cases hrow

end Tcp

/-- A call is answered exactly if the caller has no closed connection left; otherwise nothing changes. -/
theorem call_answered_iff [Link.Device δ] (fuel : Nat) (hw : Reachable w)
    (hl : IsLeast (w.host.tcp.listeners port) slot)
    (hclosed : ∀ i ∈ w.host.tcp.connections port ip remote, (socketAt i w).state = .closed)
    (hm : w.hop? ip = some mac) (h : Calls port ip remote seq frame w) :
    ∃ w', Net.handleFrame (Poller.ofFuel fuel) frame w = .ok ((), w') ∧
      (Answers slot ip remote seq w' ↔ w.host.tcp.connections port ip remote = ∅) ∧
      (w.host.tcp.connections port ip remote ≠ ∅ →
        w'.host.tcp = w.host.tcp ∧ w'.frames = w.frames) := by
  obtain ⟨link, packet, header, hd, hdecoded, rfl, rfl, rfl, rfl, hsyn, hrst⟩ := h
  have hp : (Poller.ofFuel fuel : Poller δ).Evolving := Poller.evolving_ofFuel fuel
  obtain ⟨⟨⟩, w', hrun, ho⟩ := (Net.handleFrame_of_delivers hd (handle_obeys hw.valid hm)).exists_eq_ok
    (Net.handleFrame_ensures hp frame hw.valid).ne_fault
  have hlisten : (socketAt slot w).state = .listen := hl.1.2.2
  refine ⟨w', hrun, ?_⟩
  cases hfirst : w.host.tcp.connection? header.dest packet.source header.source with
  | none =>
    have hnone := Sockets.connection?_eq_none_iff.1 hfirst
    have ha : Addressed w (packet.message frame) packet.source header slot :=
      ⟨hdecoded, Sockets.demux?_eq_some_iff.2 (.inr ⟨hnone, hl⟩)⟩
    exact ⟨iff_of_true (ho.answers ha hlisten hrst hsyn) hnone, fun hne => absurd hnone hne⟩
  | some i =>
    -- The closed connection is chosen, and the listening sockets are not even looked at.
    have hleast := Sockets.connection?_eq_some_iff.1 hfirst
    have ha : Addressed w (packet.message frame) packet.source header i :=
      ⟨hdecoded, Sockets.demux?_eq_some_iff.2 (.inl hleast)⟩
    have hstays := ho.stays_of_closed ha (hclosed i hleast.1)
    refine ⟨iff_of_false (fun hanswers => ?_) fun hnone => ?_, fun _ => hstays⟩
    · have hstate := hanswers.state
      rw [socketAt, hstays.1] at hstate
      exact State.noConfusion (hlisten.symm.trans hstate)
    · rw [hnone] at hleast
      exact hleast.1

namespace Tcp

def deserted : World Link.Script :=
  (World.start ⟨[], 0, [], []⟩ ⟨0, 500, []⟩ Interface.default).after 4
    [.arpLearn peer.ip peer.mac, .tcpOpen, .tcpBind 0 80, .tcpListen 0, .tcpOpen, .tcpBind 1 80,
      .tcpListen 1, .handleFrame (peerFrame 5000 80 100 0 { syn := true }),
      .handleFrame (peerFrame 5000 80 101 1 { ack := true }),
      .handleFrame (peerFrame 5000 80 101 1 { rst := true })]

theorem calls_deserted (remote : UInt16) : Calls 80 peer.ip remote 200
    (peerFrame remote 80 200 0 { syn := true }) deserted :=
  calls_wire ⟨remote, 80, 200, 0, minHeader, { syn := true }, window, 0⟩ peer _ 0 (by decide +kernel)
    rfl rfl

theorem isLeast_listeners_deserted : IsLeast (deserted.host.tcp.listeners 80) 1 :=
  Sockets.listener?_eq_some_iff.1 (by decide +kernel)

end Tcp

theorem call_answered_iff_deserted : Reachable deserted ∧
    IsLeast (deserted.host.tcp.listeners 80) 1 ∧
    deserted.host.tcp.connections 80 peer.ip 5001 = ∅ ∧ deserted.hop? peer.ip = some peer.mac ∧
    Calls 80 peer.ip 5001 200 (peerFrame 5001 80 200 0 { syn := true }) deserted ∧
    ∃ w', Net.handleFrame (Poller.ofFuel 0) (peerFrame 5001 80 200 0 { syn := true }) deserted =
        .ok ((), w') ∧ Answers 1 peer.ip 5001 200 w' := by
  have hw : Reachable deserted := .after (.start ..) 4 _
  have hm : deserted.hop? peer.ip = some peer.mac := by decide +kernel
  have hnone : deserted.host.tcp.connections 80 peer.ip 5001 = ∅ :=
    Sockets.connection?_eq_none_iff.1 (by decide +kernel)
  obtain ⟨w', hrun, hiff, -⟩ := call_answered_iff 0 hw isLeast_listeners_deserted
    (fun i hi => absurd hi (hnone ▸ Set.notMem_empty i)) hm (calls_deserted 5001)
  exact ⟨hw, isLeast_listeners_deserted, hnone, hm, calls_deserted 5001, w', hrun, hiff.2 hnone⟩

/-- The peer calls again from the port of the connection that it has reset, and the call gets lost. -/
theorem call_lost_on_closed_connection : Reachable deserted ∧
    IsLeast (deserted.host.tcp.listeners 80) 1 ∧
    (∀ i ∈ deserted.host.tcp.connections 80 peer.ip 5000, (socketAt i deserted).state = .closed) ∧
    deserted.hop? peer.ip = some peer.mac ∧
    Calls 80 peer.ip 5000 200 (peerFrame 5000 80 200 0 { syn := true }) deserted ∧
    (Operation.handleFrame (peerFrame 5000 80 200 0 { syn := true })).Runs deserted
      (deserted.after 4 [.handleFrame (peerFrame 5000 80 200 0 { syn := true })]) ∧
    (socketAt 1 (deserted.after 4 [.handleFrame (peerFrame 5000 80 200 0 { syn := true })])).state =
      .listen := by
  have hclosed : ∀ i : Slot, (socketAt i deserted).remotePort = 5000 →
      (socketAt i deserted).state = .closed := by decide +kernel
  have hrun : (Operation.handleFrame (peerFrame 5000 80 200 0 { syn := true })).Runs deserted
      (deserted.after 4 [.handleFrame (peerFrame 5000 80 200 0 { syn := true })]) :=
    Operation.runs_after (by decide +kernel)
  exact ⟨.after (.start ..) 4 _, isLeast_listeners_deserted,
    fun i ⟨_, _, _, _, hport⟩ => hclosed i hport, by decide +kernel, calls_deserted 5000, hrun,
    by decide +kernel⟩

end InetHost
