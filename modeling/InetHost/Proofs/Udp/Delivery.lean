import InetHost.Proofs.Host.Discards

/-! A datagram between two hosts. The frame that one host sends is read by the other, whatever the line
adds behind it; the datagram is left with the lowest socket on its port, and the next to receive on
that socket gets it. -/

namespace InetHost

variable {δ : Type} {w w' : World δ}

theorem Net.waitUntil_of_done {p : Poller δ} (hp : 0 < p.rounds) (timeout : UInt64)
    {done : Host → Bool} (hd : done w.host = true) :
    waitUntil p timeout done w = .ok (true, w.readClock.2) := by
  obtain ⟨rounds, hrounds⟩ := Nat.exists_eq_succ_of_ne_zero (Nat.ne_of_gt hp)
  have hread : (modifyGet World.readClock : Net δ UInt64) w =
    .ok (w.readClock.1, w.readClock.2) := rfl
  have hget : (get : Net δ (World δ)) w.readClock.2 = .ok (w.readClock.2, w.readClock.2) := rfl
  have hdone : done w.readClock.2.host = true := hd
  rw [waitUntil, bind_of_eq_ok hread, hrounds, waitRounds, bind_of_eq_ok hget, hdone]
  rfl

section Sending

variable [Link.Device δ] {p : Poller δ} {mac : Mac}

theorem Udp.send_known {handle : Nat} {slot : Slot} {dest : Ipv4.Address} {data : Bytes}
    (port : UInt16) (hs : w.host.udp.slot handle = .ok slot) (h : w.hop? dest = some mac)
    (hl : data.length ≤ maxPayload) :
    let datagram := encode (w.host.udp.get slot).port port data
    (send p handle dest port data).run w =
      .ok ((Link.Device.transmit (Ipv4.wire w.host.interface mac dest .udp w.host.nextPacketId
        datagram) w.device).1, w.dispatch mac dest .udp datagram) := by
  intro datagram
  have hdatagram : datagram.length ≤ Ipv4.maxPayload := length_encode_le _ port hl
  refine Attempt.run_eq_of_ensures fun Q => ?_
  rw [send, localPort, Udp.slot]
  simp only [Attempt.ensures_bind, Attempt.ensures_get, Attempt.ensures_ofExcept]
  rw [hs]
  simp only [Attempt.ensures_pure]
  rw [if_neg (Nat.not_lt.2 hl), Attempt.ensures_bind,
    Attempt.ensures_check (Bytes.within_eq_ok hdatagram)]
  exact Ipv4.send_known h hdatagram

end Sending

namespace Udp

variable {slot : Slot} {data : Bytes}

/-- A datagram is noted, and what is kept of it is left unread with one socket. -/
structure Leaves (w : World δ) (slot : Slot) (datagram : Datagram) (w' : World δ) : Prop where
  own : w'.host.udp.get slot = (w.host.udp.get slot).put datagram.kept
  others : ∀ j, j ≠ slot → w'.host.udp.get j = w.host.udp.get j
  rest : w' = { w.record (.datagramDelivered slot datagram) with
    host := { w.host with udp := w'.host.udp } }

theorem leaves_deliver (w : World δ) (slot : Slot) (datagram : Datagram) :
    Leaves w slot datagram (deliver slot datagram datagram.kept w) where
  own := (Sockets.get_modify ..).trans (if_pos rfl)
  others _ hj := (Sockets.get_modify ..).trans (if_neg hj.symm)
  rest := rfl

theorem Leaves.unread_eq {datagram : Datagram} (h : Leaves w slot datagram w') :
    (w'.host.udp.get slot).unread = some datagram.kept := by
  rw [h.own, Socket.unread_put _ datagram.length_payload_kept]

theorem handle_of_whole {message : Bytes} {header : Header} (h : Whole message header)
    (source : Ipv4.Address) (w : World δ) : handle message source w = .ok ((),
      match w.host.udp.listener? header.dest with
      | none => w
      | some slot =>
        let datagram : Datagram := ⟨source, header.source, header.payload message⟩
        deliver slot datagram datagram.kept w) := by
  have hwhole : ¬(header.length.toNat < headerLength ∨ message.length < header.length.toNat) :=
    not_or.2 ⟨Nat.not_lt.2 h.headerLength_le, Nat.not_lt.2 h.length_le⟩
  have hfits : ((header.payload message).take bufferSize).length ≤ bufferSize :=
    List.length_take_le ..
  have hget : (get : Net δ (World δ)) w = .ok (w, w) := rfl
  rw [handle, Net.check_bind (Header.parse_eq_ok _), h.decoded]
  dsimp only
  rw [if_neg hwhole, Net.check_bind (Bytes.slice_eq_ok h.headerLength_le h.length_le),
    ← List.drop_take, ← Header.payload, Net.bind_of_eq_ok hget]
  cases w.host.udp.listener? header.dest with
  | none => rfl
  | some slot =>
    dsimp only
    rw [Net.check_bind (Bytes.slice_from_start (Nat.min_le_left ..)), Nat.min_comm,
      ← List.take_eq_take_min, Net.check_bind (Bytes.within_eq_ok hfits)]
    rfl

theorem whole_encode (sourcePort port : UInt16) (hl : data.length ≤ maxPayload) :
    let header : Header := ⟨sourcePort, port, UInt16.ofNat (headerLength + data.length), 0⟩
    Whole (encode sourcePort port data) header ∧
      header.payload (encode sourcePort port data) = data := by
  intro header
  have hlength : header.length.toNat = headerLength + data.length := by
    have hbound : headerLength + data.length < 65536 := by
      simp only [maxPayload, Ipv4.maxPayload, Ethernet.mtu, Ipv4.minHeader, headerLength] at hl ⊢
      omega
    exact Nat.mod_eq_of_lt hbound
  have hall : header.length.toNat = (encode sourcePort port data).length :=
    hlength.trans (length_encode ..).symm
  refine ⟨⟨Header.decode?_encode header data, ?_, Nat.le_of_eq hall⟩, ?_⟩
  · rw [hlength]
    exact Nat.le_add_right ..
  · rw [Header.payload, hall, List.take_length, encode]
    exact List.drop_left' (Header.length_encode _)

theorem handle_encode (sourcePort : UInt16) {port : UInt16} (source : Ipv4.Address)
    (hl : data.length ≤ maxPayload) (w : World δ) :
    handle (encode sourcePort port data) source w = .ok ((),
      match w.host.udp.listener? port with
      | none => w
      | some slot =>
        let datagram : Datagram := ⟨source, sourcePort, data⟩
        deliver slot datagram datagram.kept w) := by
  obtain ⟨hwhole, hpayload⟩ := whole_encode sourcePort port hl
  rw [handle_of_whole hwhole, hpayload]

theorem run_slot {handle : Nat} (h : w.host.udp.slot handle = .ok slot) :
    (Udp.slot handle).run w = .ok (.ok slot, w) := by
  show Except.ok (w.host.udp.slot handle, w) = _
  rw [h]

theorem run_localPort {handle : Nat} (h : w.host.udp.slot handle = .ok slot) :
    (localPort handle).run w = .ok (.ok (w.host.udp.get slot).port, w) := by
  rw [localPort, Attempt.run_bind_of_eq_ok (run_slot h)]
  rfl

theorem run_read {datagram : Datagram} (hl : (w.host.udp.get slot).length ≤ bufferSize)
    (hd : (w.host.udp.get slot).unread = some datagram) (capacity : Nat) :
    (read slot capacity).run w =
      .ok (.ok { datagram with payload := datagram.payload.take capacity }, take slot w) := by
  obtain ⟨-, rfl⟩ := Socket.unread_eq_some_iff.1 hd
  exact Attempt.run_eq_of_ensures fun Q => read_ensures hl capacity

theorem receive_of_unread {p : Poller δ} {datagram : Datagram} (hp : 0 < p.rounds)
    (hu : (w.host.udp.get slot).inUse = true) (hl : (w.host.udp.get slot).length ≤ bufferSize)
    (hd : (w.host.udp.get slot).unread = some datagram) (capacity : Nat) (timeout : UInt64) :
    (receive p slot capacity timeout).run w =
      .ok (.ok { datagram with payload := datagram.payload.take capacity },
        take slot w.readClock.2) := by
  have hready : ready slot w.host = true := by
    rw [ready, Sockets.slot_eq_ok hu]
    exact (Socket.unread_eq_some_iff.1 hd).1
  refine Attempt.run_eq_of_ensures fun Q => ?_
  rw [receive, Udp.slot]
  simp only [Attempt.ensures_bind, Attempt.ensures_get, Attempt.ensures_ofExcept]
  rw [Sockets.slot_eq_ok hu]
  dsimp only
  rw [Attempt.ensures_lift, Net.ensures_of_eq_ok (Net.waitUntil_of_done hp timeout hready)]
  have hslot : w.readClock.2.host.udp.slot slot = .ok slot := Sockets.slot_eq_ok hu
  simp only [if_true, Attempt.ensures_bind, Attempt.ensures_get, Attempt.ensures_ofExcept]
  rw [hslot]
  exact Attempt.ensures_of_run_eq (run_read (w := w.readClock.2) hl hd capacity)

end Udp

open Udp

/-- A datagram crosses in one frame to the lowest socket on its port, and is received there. -/
theorem datagrams_cross {ε : Type} [Link.Device δ] [Link.Device ε] {a : World δ} {b : World ε}
    {handle : Nat} {slot : Slot} {mac : Mac} {data : Bytes} (p : Poller δ) (q : Poller ε)
    (port : UInt16) (hs : a.host.udp.slot handle = .ok slot)
    (hm : a.hop? b.host.interface.ip = some mac) (hl : data.length ≤ 1472) :
    ∃ frame a',
      (send p handle b.host.interface.ip port data).run a =
        .ok ((Link.Device.transmit frame a.device).1, a') ∧
      a'.frames = a.frames ++ [frame] ∧
      ∀ extra,
        (b.host.udp.openOn port = ∅ → Net.handleFrame q (frame ++ extra) b = .ok ((), b)) ∧
        ∀ i, IsLeast (b.host.udp.openOn port) i → ∃ b',
          Net.handleFrame q (frame ++ extra) b = .ok ((), b') ∧
          Leaves b i ⟨a.host.interface.ip, (a.host.udp.get slot).port, data⟩ b' ∧
          (b'.host.udp.get i).unread =
            some ⟨a.host.interface.ip, (a.host.udp.get slot).port, data.take 512⟩ ∧
          ∀ (fuel capacity : Nat) (timeout : UInt64), ∃ b'',
            (receive (Poller.ofFuel (fuel + 1)) i capacity timeout).run b' =
              .ok (.ok ⟨a.host.interface.ip, (a.host.udp.get slot).port,
                data.take (min 512 capacity)⟩, b'') := by
  let datagram := encode (a.host.udp.get slot).port port data
  let frame := Ipv4.wire a.host.interface mac b.host.interface.ip .udp a.host.nextPacketId datagram
  have hdatagram : datagram.length ≤ Ipv4.maxPayload := length_encode_le _ port hl
  have hread (extra : Bytes) : Net.handleFrame q (frame ++ extra) b =
      Udp.handle datagram a.host.interface.ip b := Net.handleFrame_wire rfl hdatagram extra
  refine ⟨frame, _, send_known port hs hm hl,
    (World.handsOver_dispatch mac b.host.interface.ip .udp datagram a).frames,
    fun extra => ⟨fun hnone => ?_, fun i hi => ?_⟩⟩
  · rw [hread, handle_encode _ _ hl, Sockets.listener?_eq_none_iff.2 hnone]
  · rw [hread, handle_encode _ _ hl, Sockets.listener?_eq_some_iff.2 hi]
    let full : Datagram := ⟨a.host.interface.ip, (a.host.udp.get slot).port, data⟩
    let b' := deliver i full full.kept b
    have hleaves : Leaves b i full b' := leaves_deliver b i full
    refine ⟨b', rfl, hleaves, hleaves.unread_eq, fun fuel capacity timeout => ?_⟩
    have hopen : (b'.host.udp.get i).inUse = true := by
      rw [hleaves.own]
      exact hi.1.1
    have hlength : (b'.host.udp.get i).length ≤ bufferSize := by
      rw [hleaves.own]
      exact full.length_payload_kept
    have hpatient : 0 < (Poller.ofFuel (fuel + 1) : Poller ε).rounds := Nat.succ_pos fuel
    have htake : full.kept.payload.take capacity = data.take (min 512 capacity) := by
      rw [Datagram.kept, List.take_take, Nat.min_comm]
      rfl
    exact ⟨_, htake ▸ receive_of_unread hpatient hopen hlength hleaves.unread_eq capacity timeout⟩

def Udp.writing : World Link.Script :=
  (World.start ⟨[], 0, [], []⟩ ⟨0, 500, []⟩ Tcp.peer).after 4
    [.arpLearn Interface.default.ip Interface.default.mac, .udpOpen 5000]

theorem datagrams_cross_greeting : Reachable writing ∧ Reachable listening ∧
    ∃ frame a',
      (send (Poller.ofFuel 0) 0 Interface.default.ip 7 [104, 105]).run writing =
        .ok (.ok (), a') ∧
      ∃ b', Net.handleFrame (Poller.ofFuel 0) frame listening = .ok ((), b') ∧
        Leaves listening 0 ⟨Tcp.peer.ip, 5000, [104, 105]⟩ b' ∧
        ∃ b'', (receive (Poller.ofFuel 1) 0 1 0).run b' =
          .ok (.ok ⟨Tcp.peer.ip, 5000, [104]⟩, b'') := by
  have hslot : writing.host.udp.slot 0 = .ok 0 := by decide +kernel
  have hway : writing.hop? listening.host.interface.ip = some Interface.default.mac := by
    decide +kernel
  have hopen : IsLeast (listening.host.udp.openOn 7) 0 :=
    Sockets.listener?_eq_some_iff.1 (by decide +kernel)
  obtain ⟨frame, a', hsent, -, hread⟩ := datagrams_cross (Poller.ofFuel 0) (Poller.ofFuel 0) 7
    hslot hway (show [104, 105].length ≤ 1472 by decide)
  obtain ⟨b', hhandled, hleaves, -, hreceive⟩ := (hread []).2 0 hopen
  rw [List.append_nil] at hhandled
  exact ⟨.after (.start ..) 4 _, .after (.start ..) 4 _, frame, a', hsent, b', hhandled, hleaves,
    hreceive 0 1 0⟩

end InetHost
