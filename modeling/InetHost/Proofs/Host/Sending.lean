import InetHost.Proofs.Ethernet.Assembly
import InetHost.Proofs.Host.Ensures
import InetHost.Proofs.Host.Preservation

/-! What sending leads to. Every frame that the host puts together fits, so nothing is refused
before it reaches the device; and between the start of a send and its frame, the host may have
polled its device for the address of the next hop. -/

namespace InetHost

variable {δ : Type} {w : World δ}

namespace Ethernet.Assembly

theorem frame_appendPacket (dest source : Mac) (header : Ipv4.Header)
    {payload : Bytes} (h : payload.length ≤ Ipv4.maxPayload) :
    frame (appendPacket dest source header payload) =
      .ok (Header.encode ⟨dest, source, EtherType.ipv4.toWord⟩ ++ header.encode ++ payload) := by
  have h₂ : FrameBuffer.empty.length + 34 ≤ maxFrame := Nat.le_of_ble_eq_true rfl
  have h₃ : (⟨FrameBuffer.empty.data ++ Header.encode ⟨dest, source, EtherType.ipv4.toWord⟩ ++
      header.encode⟩ : FrameBuffer).length + payload.length ≤ maxFrame := by
    change 34 + payload.length ≤ 1514
    simp only [Ipv4.maxPayload, mtu, Ipv4.minHeader] at h
    omega
  rw [frame, run_appendPacket _ _ _ _ h₂, run_append h₃]
  rfl

end Ethernet.Assembly

theorem Ipv4.Header.outgoing_eq_ok (source dest : Address) (protocol : Protocol) (id : UInt16)
    {n : Nat} (h : n ≤ maxPayload) :
    outgoing source dest protocol id n = .ok (plain source dest protocol id n) := by
  have hn : minHeader + n < lengthBound := by
    simp only [maxPayload, Ethernet.mtu, minHeader, lengthBound] at h ⊢
    omega
  rw [outgoing, addLengths_eq_ok hn]
  rfl

variable [Link.Device δ]

theorem Net.transmit_eq (frame : Bytes) (h : Ethernet.headerLength ≤ frame.length)
    (h' : frame.length ≤ Ethernet.maxFrame) : (transmit frame : Attempt δ Unit) =
      ExceptT.mk (modifyGet (World.handOver (frame.padTo Ethernet.minFrame))) := by
  rw [transmit, if_neg (by omega)]
  by_cases hs : frame.length < Ethernet.minFrame
  · rw [if_pos hs, Bytes.overwrite_zeros (Nat.le_of_lt hs)]
    rfl
  · rw [if_neg hs, Bytes.padTo_of_le (Nat.le_of_not_lt hs)]

theorem Ipv4.transmit_ensures (mac : Mac) (dest : Address) (protocol : Protocol) (id : UInt16)
    {payload : Bytes} (h : payload.length ≤ maxPayload)
    {Q : Except NetError Unit → World δ → Prop} :
    Attempt.Ensures (transmit mac dest protocol id payload) w Q ↔
      Q (w.handOver (wire w.host.interface mac dest protocol id payload)).1
        (w.handOver (wire w.host.interface mac dest protocol id payload)).2 := by
  let own := w.host.interface
  let packet := Ethernet.Header.encode ⟨mac, own.mac, Ethernet.EtherType.ipv4.toWord⟩ ++
    (Header.plain own.ip dest protocol id payload.length).encode ++ payload
  -- Both headers are of fixed length, so the packet fits a frame if its payload does.
  have hl : packet.length = 34 + payload.length := by
    simp only [packet, List.length_append, Ethernet.Header.length_encode, Header.length_encode,
      Ethernet.headerLength, minHeader]
  have ht : (Net.transmit packet : Attempt δ Unit) =
      ExceptT.mk (modifyGet (World.handOver (packet.padTo Ethernet.minFrame))) := by
    refine Net.transmit_eq packet ?_ ?_
    · simp only [hl, Ethernet.headerLength]
      omega
    · simp only [maxPayload, Ethernet.mtu, minHeader] at h
      simp only [hl, Ethernet.maxFrame]
      omega
  rw [transmit, Attempt.ensures_bind, Attempt.ensures_get]
  dsimp only
  rw [Attempt.ensures_bind, Attempt.ensures_check (Header.outgoing_eq_ok _ dest protocol id h)]
  dsimp only
  rw [Ethernet.Assembly.frame_appendPacket mac _ _ h, Attempt.ensures_bind,
    Attempt.ensures_ofExcept]
  dsimp only
  rw [World.interface, ht, Attempt.ensures_mk, Net.ensures_modifyGet]
  rfl

theorem Arp.transmit_eq (dest source : Mac) (packet : Packet) :
    (Net.transmit (Ethernet.Header.encode ⟨dest, source, Ethernet.EtherType.arp.toWord⟩ ++
      packet.encode) : Attempt δ Unit) =
      ExceptT.mk (modifyGet (World.handOver (wire dest source packet))) :=
  Net.transmit_eq _ (Nat.le_of_ble_eq_true rfl) (Nat.le_of_ble_eq_true rfl)

theorem Arp.run_request (target : Ipv4.Address) (w : World δ) :
    (request target).run w = .ok ((w.record (.arpRequested target w.host.interface.ip)).handOver
      (wire Mac.broadcast w.host.interface.mac
        (Packet.request w.host.interface.mac w.host.interface.ip target))) := by
  let own := w.host.interface
  let asking := Ethernet.Header.encode ⟨Mac.broadcast, own.mac, Ethernet.EtherType.arp.toWord⟩ ++
    (Packet.request own.mac own.ip target).encode
  show (Net.transmit asking : Attempt δ Unit).run (w.record (.arpRequested target own.ip)) = _
  rw [transmit_eq]
  rfl

theorem Arp.run_sendReply (asked : Packet) (w : World δ) :
    (sendReply asked).run w = .ok (w.handOver (wire asked.senderMac w.host.interface.mac
      (Packet.reply w.host.interface.mac w.host.interface.ip asked))) := by
  let own := w.host.interface
  let answer := Ethernet.Header.encode ⟨asked.senderMac, own.mac, Ethernet.EtherType.arp.toWord⟩ ++
    (Packet.reply own.mac own.ip asked).encode
  show (Net.transmit answer : Attempt δ Unit).run w = _
  rw [transmit_eq]
  rfl

def Poller.Evolving (p : Poller δ) : Prop :=
  ∀ w : World δ, w.Valid → Net.Ensures p.poll w fun _ w' => Evolves w w'

variable {p : Poller δ}

theorem Arp.request_ensures (target : Ipv4.Address) :
    Attempt.Ensures (request target) w fun _ w' => Evolves w w' ∧ ∃ between,
      w'.journal = between ++ ⟨.arpRequested target w.host.interface.ip, w.host⟩ :: w.journal := by
  refine (Net.ensures_of_eq_ok (run_request target w)).2 ?_
  exact ⟨(Evolves.chore (.remark w rfl)).trans (.chore (.ask _ target)), [_], rfl⟩

theorem Arp.sendReply_ensures (asked : Packet) :
    Attempt.Ensures (sendReply asked) w fun _ w' => Evolves w w' :=
  (Net.ensures_of_eq_ok (run_sendReply asked w)).2 (.chore (.answer w asked))

theorem Net.waitRounds_ensures (hp : p.Evolving) (deadline : UInt64) (done : Host → Bool)
    (rounds : Nat) (hv : w.Valid) : Ensures (waitRounds p.poll deadline done rounds) w
      fun met w' => Evolves w w' ∧ met = done w'.host := by
  induction rounds generalizing w with
  | zero => trivial
  | succ rounds ih =>
    simp only [waitRounds, ensures_bind, ensures_get]
    split
    · rename_i hd
      exact ⟨.refl w, hd.symm⟩
    · rename_i hd
      have hr : Evolves w w.readClock.2 := .chore (.readClock w)
      simp only [ensures_bind, ensures_modifyGet]
      split
      · exact ⟨hr, (eq_false_of_ne_true hd).symm⟩
      · simp only [ensures_bind]
        refine (hp _ (hr.valid hv)).mono fun _ w₁ h₁ => ?_
        refine (ih (h₁.valid (hr.valid hv))).mono fun _ w₂ h₂ => ?_
        exact ⟨(hr.trans h₁).trans h₂.1, h₂.2⟩

theorem Net.waitUntil_ensures (hp : p.Evolving) (timeout : UInt64) (done : Host → Bool)
    (hv : w.Valid) : Ensures (waitUntil p timeout done) w
      fun met w' => Evolves w w' ∧ met = done w'.host := by
  have hr : Evolves w w.readClock.2 := .chore (.readClock w)
  simp only [waitUntil, ensures_bind, ensures_modifyGet]
  refine (waitRounds_ensures hp _ done p.rounds (hr.valid hv)).mono fun _ w₁ h₁ => ?_
  exact ⟨hr.trans h₁.1, h₁.2⟩

theorem Arp.resolve_ensures (hp : p.Evolving) (ip : Ipv4.Address) (timeout : UInt64)
    (hv : w.Valid) : Attempt.Ensures (resolve p ip timeout) w
      fun r w' => Evolves w w' ∧ ∀ mac, r = .ok mac → w.Finds ip mac w' := by
  -- The next hop is computed from the interface before the wait, which no frame changes.
  have hop {w' : World δ} (h : Evolves w w') :
      w'.hop? ip = w'.host.arp.lookup? (w.host.interface.nextHop ip) := by
    rw [World.hop?, h.interface_eq]
  simp only [resolve, Attempt.ensures_bind, Attempt.ensures_get, World.interface]
  cases hc : w.host.arp.lookup? (w.host.interface.nextHop ip) with
  | some mac =>
    refine ⟨.refl w, fun _ hm => .known ?_⟩
    rw [hop (.refl w), hc, Except.ok.inj hm]
  | none =>
    simp only [Attempt.ensures_bind]
    refine (request_ensures _).mono fun r w₁ h => ?_
    obtain ⟨h₁, between, hasked⟩ := h
    cases r with
    | error e => exact ⟨h₁, fun _ hm => by simp at hm⟩
    | ok _ =>
      simp only [Attempt.ensures_lift]
      refine (Net.waitUntil_ensures hp _ _ (h₁.valid hv)).mono fun _ w₂ h₂ => ?_
      have he := h₁.trans h₂.1
      simp only [Attempt.ensures_get]
      cases hc' : w₂.host.arp.lookup? (w.host.interface.nextHop ip) with
      | some mac =>
        let asked : Moment := ⟨.arpRequested (w.host.interface.nextHop ip) w.host.interface.ip, w.host⟩
        have ha : asked.Asks ip := ⟨rfl, hc⟩
        obtain ⟨later, hlater⟩ := h₂.1.exists_journal_eq
        refine ⟨he, fun _ hm => .asked (later ++ between) rfl ha ?_ ?_⟩
        · rw [hlater, hasked, List.append_assoc]
        · rw [hop he, hc', Except.ok.inj hm]
      | none =>
        simp only [Attempt.ensures_bind, Attempt.ensures_modify, Attempt.ensures_throw]
        exact ⟨he.trans (.chore (.remark w₂ rfl)), fun _ hm => by simp at hm⟩

theorem Ipv4.send_ensures_iff (dest : Address) (protocol : Protocol) {payload : Bytes}
    (h : payload.length ≤ maxPayload) {Q : Except NetError Unit → World δ → Prop} :
    Attempt.Ensures (send p dest protocol payload) w Q ↔
      Attempt.Ensures (Arp.resolve p dest Timeouts.resolve) w fun r w₁ =>
        match r with
        | .ok mac =>
          Q (Link.Device.transmit
            (wire w₁.host.interface mac dest protocol w₁.host.nextPacketId payload) w₁.device).1
            (w₁.dispatch mac dest protocol payload)
        | .error _ => Q (.error .arpFailed) w₁ := by
  rw [send, if_neg (Nat.not_lt.2 h), nextHopMac, Attempt.ensures_bind, Attempt.ensures_adapt]
  have hsent (mac : Mac) (w₁ : World δ) := transmit_ensures (w := (takeId w₁).2) mac dest protocol
    w₁.host.nextPacketId h (Q := Q)
  constructor
  · refine fun ha => ha.mono fun r w₁ h₁ => ?_
    cases r with
    | ok mac => exact (hsent mac w₁).1 h₁
    | error e => exact h₁
  · refine fun ha => ha.mono fun r w₁ h₁ => ?_
    cases r with
    | ok mac => exact (hsent mac w₁).2 h₁
    | error e => exact h₁

theorem Ipv4.send_ensures (hp : p.Evolving) (dest : Address) (protocol : Protocol)
    {payload : Bytes} (h : payload.length ≤ maxPayload) (hv : w.Valid) :
    Attempt.Ensures (send p dest protocol payload) w fun _ w' =>
      Evolves w w' ∨ ∃ w₁ mac, Evolves w w₁ ∧ w.Finds dest mac w₁ ∧
        w' = w₁.dispatch mac dest protocol payload := by
  refine (send_ensures_iff dest protocol h).2 ?_
  refine (Arp.resolve_ensures hp dest _ hv).mono fun r w₁ h₁ => ?_
  cases r with
  | error e => exact .inl h₁.1
  | ok mac => exact .inr ⟨w₁, mac, h₁.1, h₁.2 mac rfl, rfl⟩

/-- No way to the destination is found, or the device gets the frame. -/
inductive Ipv4.Sends (p : Poller δ) (dest : Address) (protocol : Protocol) (payload : Bytes)
    (w : World δ) : Except NetError Unit → Prop
  | noWay {cause : NetError} {w₁ : World δ} :
      (Arp.resolve p dest Timeouts.resolve).run w = .ok (.error cause, w₁) →
      Sends p dest protocol payload w (.error .arpFailed)
  | handed {mac : Mac} {w₁ : World δ} :
      (Arp.resolve p dest Timeouts.resolve).run w = .ok (.ok mac, w₁) →
      Sends p dest protocol payload w
        (Link.Device.transmit
          (wire w₁.host.interface mac dest protocol w₁.host.nextPacketId payload) w₁.device).1

theorem Ipv4.send_sends (hp : p.Evolving) (dest : Address) (protocol : Protocol)
    {payload : Bytes} (h : payload.length ≤ maxPayload) (hv : w.Valid) :
    Attempt.Ensures (send p dest protocol payload) w
      fun r _ => Sends p dest protocol payload w r := by
  refine (send_ensures_iff dest protocol h).2 ?_
  refine (Net.Ensures.and_run (Arp.resolve_ensures hp dest _ hv)).mono fun r w₁ h₁ => ?_
  cases r with
  | error e => exact .noWay h₁.1
  | ok mac => exact .handed h₁.1

end InetHost
