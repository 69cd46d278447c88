import Mathlib.Logic.Relation
import InetHost.Proofs.Host.Reception
import InetHost.Proofs.Host.Works

/-! The single steps that an operation is made up of, whatever is nested in it. Each step changes one
thing. What holds of a whole operation because it holds of every step is shown for the steps alone. -/

namespace InetHost

def Icmp.asksEcho (protocol : UInt8) (message : Bytes) : Bool :=
  protocol = Ipv4.Protocol.icmp.number && message.head? = some MessageType.echoRequest.number

variable {δ : Type} [Link.Device δ]

inductive Operation.Step : Operation δ → World δ → World δ → Prop
  | configure (w : World δ) (interface : Interface) :
      Step (.configure interface) w (w.update fun h => { h with interface })
  | adjustDevice (w : World δ) (f : δ → δ) :
      Step (.adjustDevice f) w { w with device := f w.device }
  | setClock (w : World δ) (clock : Clock) : Step (.setClock clock) w { w with clock }
  | update (op : Operation δ) {w : World δ} {f : Host → Host} :
      (f w.host).interface = w.host.interface → (f w.host).udp = w.host.udp →
      (f w.host).nextPacketId = w.host.nextPacketId → Step op w (w.update f)
  | record (op : Operation δ) (w : World δ) {e : Event} :
      e.frame? = none → e.udpSlot? = none → Step op w (w.record e)
  | readClock (op : Operation δ) (w : World δ) : Step op w w.readClock.2
  | takeFrame (op : Operation δ) (w : World δ) :
      Step op w (w.takeFrame Ethernet.maxFrame).2
  | sendArp (op : Operation δ) (w : World δ) (dest source : Mac) (packet : Arp.Packet) :
      Step op w (w.handOver (Arp.wire dest source packet)).2
  | dispatch {op : Operation δ} (w : World δ) (mac : Mac) (dest : Ipv4.Address)
      {protocol : Ipv4.Protocol} {payload : Bytes} : payload.length ≤ Ipv4.maxPayload →
      (op.probing = true → Icmp.asksEcho protocol.number payload = false) →
      Step op w (w.dispatch mac dest protocol payload)
  | probe {op : Operation δ} (w : World δ) (mac : Mac) (dest : Ipv4.Address) (sequence : UInt16)
      (time : UInt32) : op.probing = true → Step op w (Icmp.probe mac dest sequence time w)
  | openUdp (op : Operation δ) {w : World δ} {slot : Udp.Slot} (port : UInt16) :
      w.host.udp.free? = some slot →
      Step op w ((Udp.modifySockets (fun t => t.openAt slot port) w).record (.udpOpened slot port))
  | closeUdp (op : Operation δ) (w : World δ) (slot : Udp.Slot) : Step op w (Udp.close slot w)
  | readDatagram (op : Operation δ) {w : World δ} {slot : Udp.Slot} :
      (w.host.udp.get slot).hasData = true → Step op w (Udp.take slot w)
  | deliver (op : Operation δ) {w : World δ} {port : UInt16} {slot : Udp.Slot} (d : Udp.Datagram) :
      w.host.udp.listener? port = some slot → Step op w (Udp.deliver slot d d.kept w)

abbrev Operation.Steps (op : Operation δ) : World δ → World δ → Prop :=
  Relation.ReflTransGen op.Step

variable {op : Operation δ} {w w' w₁ w₂ : World δ}

namespace Operation.Steps

theorem trans (h : op.Steps w w₁) (h' : op.Steps w₁ w') : op.Steps w w' :=
  Relation.ReflTransGen.trans h h'

theorem record (h : op.Steps w w₁) {e : Event} (he : e.frame? = none) (hu : e.udpSlot? = none) :
    op.Steps w (w₁.record e) :=
  h.tail (.record op w₁ he hu)

theorem settle (h : op.Steps w w₁) (he : w' = w₁.update fun _ => w'.host)
    (hi : w'.host.interface = w₁.host.interface) (hu : w'.host.udp = w₁.host.udp)
    (hn : w'.host.nextPacketId = w₁.host.nextPacketId) : op.Steps w w' := by
  rw [he]
  exact h.tail (.update op hi hu hn)

theorem dispatch {mac : Mac} {dest : Ipv4.Address} {protocol : Ipv4.Protocol} {payload : Bytes}
    (h : op.Steps w w₁) (hl : payload.length ≤ Ipv4.maxPayload)
    (hn : op.probing = true → Icmp.asksEcho protocol.number payload = false) :
    op.Steps w (w₁.dispatch mac dest protocol payload) :=
  h.tail (.dispatch w₁ mac dest hl hn)

variable {slot : Tcp.Slot}

theorem updateSocket {f : Tcp.Socket → Tcp.Socket} (h : op.Steps w w₁) :
    op.Steps w (Tcp.updateSocket slot f w₁) :=
  h.tail (.update op rfl rfl rfl)

theorem setState {next : Tcp.State} (h : op.Steps w w₁) :
    op.Steps w (Tcp.setState slot next w₁) := by
  by_cases hs : (Tcp.socketAt slot w₁).state = next
  · rwa [Tcp.setState_of_eq hs]
  · rw [Tcp.setState_of_ne hs]
    exact (h.record rfl rfl).updateSocket

theorem release (h : op.Steps w w₁) : op.Steps w (Tcp.release slot w₁) :=
  h.setState.updateSocket

theorem dial {ip : Ipv4.Address} {port : UInt16} (h : op.Steps w w₁) :
    op.Steps w (Tcp.dial slot ip port w₁) :=
  h.updateSocket.setState

end Operation.Steps

open Operation

theorem Tcp.Reaction.steps {slot : Slot} {header : Header} {message : Bytes}
    {source : Ipv4.Address} (h : Reaction slot header message source w w') : op.Steps w w' := by
  have hw : op.Steps w w := .refl
  cases h with
  | reset _ =>
    by_cases hd : (socketAt slot w).state = .listen ∨ (socketAt slot w).state = .closed
    · rw [handleReset_of_dead hd]
    · obtain ⟨hl, hc⟩ := not_or.1 hd
      rw [handleReset_of_alive hl hc]
      exact (hw.record rfl rfl).updateSocket.setState
  | confirm => exact hw.updateSocket.setState
  | complete => exact hw.setState
  | closeWait => exact hw.updateSocket.setState
  | data =>
    unfold keepData
    dsimp only
    split
    · exact (hw.record rfl rfl).updateSocket.updateSocket
    · exact ((hw.record rfl rfl).updateSocket.record rfl rfl).updateSocket
  | finAcked => exact hw.setState
  | release => exact hw.release

theorem Icmp.asksEcho_of_echoReply {message answer : Bytes} (h : echoReply message = .ok answer) :
    asksEcho Ipv4.Protocol.icmp.number answer = false := by
  match message, h with
  | _ :: _ :: _ :: _ :: _, h =>
    obtain rfl := Except.ok.inj h
    rfl

theorem Chore.steps (h : Chore w w') : op.Steps w w' := by
  have hw : op.Steps w w := .refl
  cases h with
  | remark he =>
    exact hw.record (Event.frame?_eq_none_of_isRemark he) (Event.udpSlot?_eq_none_of_isRemark he)
  | readClock => exact .single (.readClock op w)
  | takeFrame => exact .single (.takeFrame op w)
  | learn =>
    have hread : op.Steps w w.readClock.2 := .single (.readClock op w)
    exact hread.settle rfl rfl rfl rfl
  | ask => exact .single (.sendArp op w _ _ _)
  | answer => exact .single (.sendArp op w _ _ _)
  | noteReply header sent source =>
    have hread : op.Steps w (Icmp.roundTrip sent w).2 := by
      rcases Icmp.roundTrip_snd sent w with he | he
      · rw [he]
      · rw [he]
        exact .single (.readClock op w)
    have hnoted : op.Steps w ((Icmp.roundTrip sent w).2.record
      (.echoReplied source header.sequence)) := hread.record rfl rfl
    exact hnoted.settle rfl rfl rfl rfl
  | reply _ hl ha =>
    exact hw.dispatch (Icmp.length_of_echoReply hl ha) fun _ => Icmp.asksEcho_of_echoReply ha
  | receive _ _ hs =>
    have htaken : op.Steps w (w.takeFrame Ethernet.maxFrame).2 := .single (.takeFrame op w)
    exact htaken.tail (.deliver op _ hs)

theorem Evolves.steps (h : Evolves w w') : op.Steps w w' := by
  induction h with
  | refl => exact .refl
  | trans _ _ ih₁ ih₂ => exact ih₁.trans ih₂
  | chore h => exact h.steps
  | react _ h => exact h.steps
  | segment slot flags data hd _ _ _ ih =>
    exact ih.dispatch (Tcp.length_segment_le _ _ flags hd) fun _ => rfl
  | @accept w w₁ message source header slot _ _ _ _ _ ih =>
    have hw : op.Steps w w := .refl
    have hpromote : op.Steps w (Tcp.promote slot header source w) := hw.updateSocket.setState
    exact (hpromote.trans ih).updateSocket
  | @finish w w₁ header slot _ _ _ _ ih =>
    have hw : op.Steps w w := .refl
    have hack : op.Steps w (Tcp.setAck slot (header.seq + 1) w) := hw.updateSocket
    exact (hack.trans ih).setState

theorem Deed.steps (h : Deed op w w') : op.Steps w w' := by
  have hw : op.Steps w w := .refl
  cases h with
  | configure => exact .single (.configure w _)
  | adjustDevice => exact .single (.adjustDevice w _)
  | setClock => exact .single (.setClock w _)
  | handIn _ hs => exact .single (.deliver _ _ hs)
  | forgetReply => exact hw.settle rfl rfl rfl rfl
  | probe sequence time ho _ => exact .single (.probe w _ _ sequence time ho)
  | takeQueryId => exact hw.settle rfl rfl rfl rfl
  | openUdp port hf => exact .single (.openUdp op port hf)
  | closeUdp _ _ handle =>
    by_cases hh : handle < Udp.Sockets.capacity
    · exact .single (.closeUdp op w ⟨handle, hh⟩)
    · rw [Udp.close, dif_neg hh]
  | readDatagram hd => exact .single (.readDatagram op hd)
  | datagram source port hl _ =>
    exact hw.dispatch (Udp.length_encode_le source port hl) fun _ => rfl

theorem Errand.steps (h : Errand op w w') : op.Steps w w' := by
  induction h with
  | evolves h => exact h.steps
  | deed h => exact h.steps
  | trans _ _ ih₁ ih₂ => exact ih₁.trans ih₂

theorem Operation.Works.steps (h : op.Works w w') : op.Steps w w' := by
  have hw : op.Steps w w := .refl
  cases h with
  | errand _ h => exact h.steps
  | refused => exact hw
  | ipv4Send dest protocol hl h _ => exact h.steps.dispatch hl nofun
  | tcpOpen _ => exact hw.settle rfl rfl rfl rfl
  | tcpBind _ _ => exact hw.updateSocket
  | tcpListen _ => exact hw.setState
  | connectUnsent _ _ _ _ h => exact (hw.dial.trans h.steps).setState
  | connected _ _ _ _ h₁ h₂ _ => exact (hw.dial.trans h₁.steps).updateSocket.trans h₂.steps
  | notConnected _ _ _ _ h₁ h₂ =>
    exact ((hw.dial.trans h₁.steps).updateSocket.trans h₂.steps).setState
  | tcpSend _ _ _ h => exact h.steps.updateSocket
  | notSent _ _ h => exact h.steps
  | tcpReceive _ _ h _ _ => exact h.steps.updateSocket
  | notReceived _ _ h => exact h.steps
  | closeEstablished _ _ h => exact h.steps.updateSocket.setState.release
  | closeWaiting _ _ h => exact h.steps.updateSocket.setState
  | closeOther _ _ _ => exact hw.release
  | tcpShutdown _ _ h => exact h.steps.updateSocket.setState

namespace Udp

/-- A socket says that it holds no more than there is room for; only an open one has data. -/
structure Socket.Tidy (s : Socket) : Prop where
  length_le : s.length ≤ bufferSize
  inUse_of_hasData : s.hasData = true → s.inUse = true

def Sockets.Tidy (t : Sockets) : Prop := ∀ i, (t.get i).Tidy

theorem Sockets.Tidy.modify {t : Sockets} (ht : t.Tidy) {i : Slot} {f : Socket → Socket}
    (hf : (f (t.get i)).Tidy) : (t.modify i f).Tidy := by
  intro j
  rw [Sockets.get_modify]
  split
  · exact hf
  · exact ht j

end Udp

theorem Operation.Step.tidy (h : op.Step w w') (hw : w.host.udp.Tidy) : w'.host.udp.Tidy := by
  cases h with
  | update _ _ hu _ =>
    rw [World.host_update, hu]
    exact hw
  | openUdp => exact hw.modify ⟨Nat.zero_le _, fun _ => rfl⟩
  | closeUdp _ _ slot =>
    rw [Udp.close_slot]
    exact hw.modify ⟨(hw slot).length_le, nofun⟩
  | @readDatagram _ _ slot _ => exact hw.modify ⟨(hw slot).length_le, nofun⟩
  | deliver _ d hs =>
    have hfound := Slots.of_first?_eq_some hs
    simp only [Bool.and_eq_true] at hfound
    exact hw.modify ⟨d.length_payload_kept, fun _ => hfound.1⟩
  | _ => exact hw

theorem Operation.Steps.tidy (h : op.Steps w w') (hw : w.host.udp.Tidy) : w'.host.udp.Tidy := by
  induction h with
  | refl => exact hw
  | tail _ hstep ih => exact hstep.tidy ih

/-- No buffer leads out of its cells, and none says that it holds more than it can. -/
structure World.Safe (w : World δ) : Prop where
  valid : w.Valid
  tidy : w.host.udp.Tidy

theorem Evolves.safe (h : Evolves w w') (hw : w.Safe) : w'.Safe := by
  have hsteps : Operation.poll.Steps w w' := h.steps
  exact ⟨h.valid hw.valid, hsteps.tidy hw.tidy⟩

theorem Errand.safe (h : Errand op w w') (hw : w.Safe) : w'.Safe :=
  ⟨h.valid hw.valid, h.steps.tidy hw.tidy⟩

theorem Operation.Works.safe (h : op.Works w w') (hw : w.Safe) : w'.Safe :=
  ⟨h.valid hw.valid, h.steps.tidy hw.tidy⟩

end InetHost
