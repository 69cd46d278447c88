import InetHost.Proofs.Ipv4.Identifiers

/-! What an order to send comes to. Its own checks are made first, and where one of them fails nothing else
happens; then the way to the destination is looked for, and when it is found one frame is handed over. -/

namespace InetHost

variable {δ : Type} [Link.Device δ] {p : Poller δ} {w w' : World δ}

namespace Ipv4

def Forwarded (dest : Address) (protocol : Protocol) (payload : Bytes) (way : Except NetError Mac)
    (w : World δ) (result : Except NetError Unit) (w' : World δ) : Prop :=
  match way with
  | .ok mac =>
    result = (Link.Device.transmit
      (wire w.host.interface mac dest protocol w.host.nextPacketId payload) w.device).1 ∧
      w' = w.dispatch mac dest protocol payload
  | .error _ => result = .error .arpFailed ∧ w' = w

theorem run_nextHopMac (p : Poller δ) (dest : Address) :
    (nextHopMac p dest).run = (Arp.resolve p dest Timeouts.resolve).run >>= fun way =>
      pure (way.mapError fun _ => NetError.arpFailed) := by
  rw [bind_pure_comp]
  rfl

theorem exists_forwarded_of_send {dest : Address} {protocol : Protocol} {payload : Bytes}
    {result : Except NetError Unit} (hl : payload.length ≤ maxPayload)
    (h : (send p dest protocol payload).run w = .ok (result, w')) : ∃ way w₁,
      (Arp.resolve p dest Timeouts.resolve).run w = .ok (way, w₁) ∧
      Forwarded dest protocol payload way w₁ result w' := by
  have hsend := h
  rw [send, if_neg (Nat.not_lt.2 hl), ExceptT.run_bind, run_nextHopMac] at hsend
  obtain ⟨_, _, hway, -⟩ := Net.exists_of_bind_eq_ok hsend
  obtain ⟨way, w₁, hway, -⟩ := Net.exists_of_bind_eq_ok hway
  refine ⟨way, w₁, hway, ?_⟩
  cases way with
  | ok mac =>
    have hrun := Attempt.run_eq_of_ensures fun Q =>
      (send_ensures_iff (Q := Q) dest protocol hl).trans (Net.ensures_of_eq_ok hway)
    exact Prod.mk.inj (Except.ok.inj (h.symm.trans hrun))
  | error cause =>
    have hrun := Attempt.run_eq_of_ensures fun Q =>
      (send_ensures_iff (Q := Q) dest protocol hl).trans (Net.ensures_of_eq_ok hway)
    exact Prod.mk.inj (Except.ok.inj (h.symm.trans hrun))

theorem run_send_long {dest : Address} {protocol : Protocol} {payload : Bytes}
    (h : maxPayload < payload.length) :
    (send p dest protocol payload).run w = .ok (.error .messageTooLong, w) := by
  rw [send, if_pos h]
  rfl

end Ipv4

theorem Udp.run_send (handle : Nat) (dest : Ipv4.Address) (port : UInt16) (payload : Bytes) :
    (send p handle dest port payload).run w =
      match w.host.udp.slot handle with
      | .error cause => .ok (.error cause, w)
      | .ok slot =>
        if maxPayload < payload.length then .ok (.error .messageTooLong, w)
        else (Ipv4.send p dest .udp (encode (w.host.udp.get slot).port port payload)).run w := by
  cases hs : w.host.udp.slot handle with
  | error cause =>
    have hport : (localPort handle : Attempt δ UInt16).run w = .ok (.error cause, w) := by
      have hslot : (slot handle : Attempt δ Slot).run w = .ok (w.host.udp.slot handle, w) := rfl
      rw [localPort, ExceptT.run_bind, Net.bind_of_eq_ok hslot, hs]
      rfl
    rw [send, ExceptT.run_bind, Net.bind_of_eq_ok hport]
    rfl
  | ok slot =>
    rw [send, Attempt.run_bind_of_eq_ok (run_localPort hs)]
    dsimp only
    split
    · rfl
    · rename_i hl
      have hm := length_encode_le (w.host.udp.get slot).port port (Nat.le_of_not_lt hl)
      rw [Bytes.within_eq_ok hm]
      rfl

namespace Tcp

theorem run_sendSegment {slot : Slot} {flags : Flags} {data : Bytes}
    (hd : data.length ≤ maxPayload) :
    (sendSegment p slot flags data).run w =
      (Ipv4.send p (socketAt slot w).remoteIp .tcp
        ((socketAt slot w).segment w.host.interface.ip flags data)).run w := by
  have hm := length_segment_le (socketAt slot w) w.interface.ip flags hd
  rw [sendSegment, Attempt.run_bind_of_eq_ok (Attempt.run_get w)]
  dsimp only
  rw [Bytes.within_eq_ok hm]
  rfl

theorem run_send (handle : Nat) (data : Bytes) :
    (send p handle data).run w =
      match w.host.tcp.slot handle with
      | .error cause => .ok (.error cause, w)
      | .ok slot =>
        if (socketAt slot w).state ≠ .established then .ok (.error .invalidState, w)
        else if maxPayload < data.length then .ok (.error .messageTooLong, w)
        else (do
          sendSegment p slot { ack := true, psh := true } data
          modify (advanceSeq slot (UInt32.ofNat data.length))
          return data.length : Attempt δ Nat).run w := by
  have hslot : (slot handle : Attempt δ Slot).run w = .ok (w.host.tcp.slot handle, w) := rfl
  rw [send, ExceptT.run_bind, Net.bind_of_eq_ok hslot]
  cases w.host.tcp.slot handle with
  | error cause => rfl
  | ok slot =>
    dsimp only
    rw [Attempt.run_bind_of_eq_ok (Attempt.run_get w)]
    split
    · rfl
    · split <;> rfl

end Tcp

end InetHost
