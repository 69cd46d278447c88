import InetHost.Host.Operation
import InetHost.Proofs.Host.Preservation

/-! What can become of a world in one operation. Deeds leave the connections alone, and an errand
is made up of deeds and of the reading of frames; each operation on a connection is a case of its
own. -/

namespace InetHost

variable {δ : Type}

def Tcp.dial (slot : Slot) (ip : Ipv4.Address) (port : UInt16) (w : World δ) : World δ :=
  let chosen := ephemeralPort w.host.tcp.nextSeq
  setState slot .synSent (updateSocket slot (fun s =>
    { s with
      remoteIp := ip, remotePort := port, reset := false
      localPort := if s.localPort = 0 then chosen else s.localPort }) w)

theorem Tcp.socketAt_dial (slot j : Slot) (ip : Ipv4.Address) (port : UInt16) (w : World δ) :
    socketAt j (dial slot ip port w) =
      if slot = j then
        { socketAt slot w with
          state := .synSent, remoteIp := ip, remotePort := port, reset := false
          localPort := if (socketAt slot w).localPort = 0 then ephemeralPort w.host.tcp.nextSeq
            else (socketAt slot w).localPort }
      else socketAt j w := by
  rw [dial, socketAt_setState, socketAt_updateSocket_self, socketAt_updateSocket]
  split <;> rfl

theorem World.Valid.dial {slot : Tcp.Slot} {w : World δ} (ip : Ipv4.Address) (port : UInt16)
    (hv : w.Valid) : (Tcp.dial slot ip port w).Valid :=
  (hv.update rfl).setState

variable [Link.Device δ]

def Icmp.probe (mac : Mac) (dest : Ipv4.Address) (sequence : UInt16) (time : UInt32)
    (w : World δ) : World δ :=
  (w.handOver (Ipv4.wire w.host.interface mac dest .icmp (sequence % 256)
    (echoRequest sequence time))).2

def Operation.probing : Operation δ → Bool
  | ping _ _ | pingHost _ _ => true
  | _ => false

/-- A step of the owner, or of an operation, that leaves the connections alone. -/
inductive Deed : Operation δ → World δ → World δ → Prop
  | configure (w : World δ) (interface : Interface) :
      Deed (.configure interface) w (w.update fun h => { h with interface })
  | adjustDevice (w : World δ) (f : δ → δ) :
      Deed (.adjustDevice f) w { w with device := f w.device }
  | setClock (w : World δ) (clock : Clock) : Deed (.setClock clock) w { w with clock }
  | handIn {w : World δ} {frame : Bytes} {port : UInt16} {d : Udp.Datagram} {slot : Udp.Slot} :
      Udp.Brings w.host frame port d → w.host.udp.listener? port = some slot →
      Deed (.handleFrame frame) w (Udp.deliver slot d d.kept w)
  | forgetReply (op : Operation δ) (w : World δ) :
      Deed op w (w.update fun h => { h with lastReply := none })
  | probe {op : Operation δ} {w : World δ} {mac : Mac} {dest : Ipv4.Address} (sequence : UInt16)
      (time : UInt32) : op.probing = true → w.hop? dest = some mac →
      Deed op w (Icmp.probe mac dest sequence time w)
  | takeQueryId (op : Operation δ) (w : World δ) : Deed op w (Dns.takeId w).2
  | openUdp {op : Operation δ} {w : World δ} {slot : Udp.Slot} (port : UInt16) :
      w.host.udp.free? = some slot →
      Deed op w ((Udp.modifySockets (fun t => t.openAt slot port) w).record (.udpOpened slot port))
  | closeUdp (op : Operation δ) (w : World δ) (handle : Nat) : Deed op w (Udp.close handle w)
  | readDatagram {op : Operation δ} {w : World δ} {slot : Udp.Slot} :
      (w.host.udp.get slot).hasData = true → Deed op w (Udp.take slot w)
  | datagram {op : Operation δ} {w : World δ} {mac : Mac} {dest : Ipv4.Address}
      (source port : UInt16) {payload : Bytes} :
      payload.length ≤ Udp.maxPayload → w.hop? dest = some mac →
      Deed op w (w.dispatch mac dest .udp (Udp.encode source port payload))

inductive Errand (op : Operation δ) : World δ → World δ → Prop
  | evolves {w w' : World δ} : Evolves w w' → Errand op w w'
  | deed {w w' : World δ} : Deed op w w' → Errand op w w'
  | trans {w₁ w₂ w₃ : World δ} : Errand op w₁ w₂ → Errand op w₂ w₃ → Errand op w₁ w₃

open Tcp in
/-- A run of an operation from one world to another. The slots are those of open sockets. -/
inductive Operation.Works : Operation δ → World δ → World δ → Prop
  | errand {op : Operation δ} {w w' : World δ} :
      op.connection? = none → Errand op w w' → Works op w w'
  | refused (op : Operation δ) (w : World δ) : Works op w w
  | ipv4Send {w w₁ : World δ} {mac : Mac} (dest : Ipv4.Address) (protocol : Ipv4.Protocol)
      {payload : Bytes} :
      payload.length ≤ Ipv4.maxPayload → Evolves w w₁ → w₁.hop? dest = some mac →
      Works (.ipv4Send dest protocol payload) w (w₁.dispatch mac dest protocol payload)
  | tcpOpen {w : World δ} {slot : Slot} :
      w.host.tcp.free? = some slot →
      Works .tcpOpen w (w.update fun h => { h with tcp := h.tcp.openAt slot })
  | tcpBind {w : World δ} {slot : Slot} (port : UInt16) :
      (socketAt slot w).inUse = true →
      Works (.tcpBind slot port) w (updateSocket slot (fun s => { s with localPort := port }) w)
  | tcpListen {w : World δ} {slot : Slot} :
      (socketAt slot w).inUse = true → Works (.tcpListen slot) w (setState slot .listen w)
  | connectUnsent {w w₁ : World δ} {slot : Slot} (ip : Ipv4.Address) (port : UInt16) :
      (socketAt slot w).inUse = true → (socketAt slot w).state = .closed →
      Evolves (dial slot ip port w) w₁ →
      Works (.tcpConnect slot ip port) w (setState slot .closed w₁)
  | connected {w w₁ w₂ : World δ} {slot : Slot} (ip : Ipv4.Address) (port : UInt16) :
      (socketAt slot w).inUse = true → (socketAt slot w).state = .closed →
      Evolves (dial slot ip port w) w₁ → Evolves (advanceSeq slot 1 w₁) w₂ →
      (socketAt slot w₂).state = .established ∨ (socketAt slot w₂).state = .closeWait →
      Works (.tcpConnect slot ip port) w w₂
  | notConnected {w w₁ w₂ : World δ} {slot : Slot} (ip : Ipv4.Address) (port : UInt16) :
      (socketAt slot w).inUse = true → (socketAt slot w).state = .closed →
      Evolves (dial slot ip port w) w₁ → Evolves (advanceSeq slot 1 w₁) w₂ →
      Works (.tcpConnect slot ip port) w (setState slot .closed w₂)
  | tcpSend {w w₁ : World δ} {slot : Slot} (data : Bytes) :
      (socketAt slot w).inUse = true → (socketAt slot w).state = .established → Evolves w w₁ →
      Works (.tcpSend slot data) w (advanceSeq slot (UInt32.ofNat data.length) w₁)
  | notSent {w w' : World δ} (handle : Nat) (data : Bytes) :
      Evolves w w' → Works (.tcpSend handle data) w w'
  | tcpReceive {w w₁ : World δ} {slot : Slot} {buffer : Ring bufferSize} {data : Bytes}
      (capacity : Nat) :
      (socketAt slot w).inUse = true → Evolves w w₁ → (socketAt slot w₁).inUse = true →
      (socketAt slot w₁).buffer.pop capacity = .ok (buffer, data) →
      Works (.tcpReceive slot capacity) w (updateSocket slot (fun s => { s with buffer }) w₁)
  | notReceived {w w' : World δ} (handle capacity : Nat) :
      Evolves w w' → Works (.tcpReceive handle capacity) w w'
  | closeEstablished {w w₁ : World δ} {slot : Slot} :
      (socketAt slot w).inUse = true → (socketAt slot w).state = .established → Evolves w w₁ →
      Works (.tcpClose slot) w (release slot (setState slot .finWait1 (advanceSeq slot 1 w₁)))
  | closeWaiting {w w₁ : World δ} {slot : Slot} :
      (socketAt slot w).inUse = true → (socketAt slot w).state = .closeWait → Evolves w w₁ →
      Works (.tcpClose slot) w (setState slot .lastAck (advanceSeq slot 1 w₁))
  | closeOther {w : World δ} {slot : Slot} :
      (socketAt slot w).inUse = true → (socketAt slot w).state ≠ .established →
      (socketAt slot w).state ≠ .closeWait → Works (.tcpClose slot) w (release slot w)
  | tcpShutdown {w w₁ : World δ} {slot : Slot} :
      (socketAt slot w).inUse = true → (socketAt slot w).state = .established → Evolves w w₁ →
      Works (.tcpShutdown slot) w (setState slot .finWait1 (advanceSeq slot 1 w₁))

variable {op : Operation δ} {w w' : World δ}

theorem Deed.grows (h : Deed op w w') : World.Grows (fun m => m.event.isTurn = false) w w' := by
  cases h with
  | closeUdp => exact Udp.grows_close rfl
  | handIn | probe | openUdp | readDatagram | datagram => exact .of_journal_eq_cons rfl rfl
  | _ => exact .of_journal_eq rfl

theorem Deed.tcp_eq (h : Deed op w w') : w'.host.tcp = w.host.tcp := by
  cases h with
  | closeUdp _ _ handle =>
    obtain ⟨t, ht⟩ := Udp.exists_host_close handle w
    rw [ht]
  | _ => rfl

theorem Deed.socketAt_eq (h : Deed op w w') (j : Tcp.Slot) : Tcp.socketAt j w' = Tcp.socketAt j w :=
  Tcp.socketAt_congr j w h.tcp_eq

theorem Errand.valid (h : Errand op w w') (hv : w.Valid) : w'.Valid := by
  induction h with
  | evolves h => exact h.valid hv
  | deed h =>
    intro j
    rw [h.socketAt_eq]
    exact hv j
  | trans _ _ ih₁ ih₂ => exact ih₂ (ih₁ hv)

theorem Operation.Works.valid (h : op.Works w w') (hv : w.Valid) :
    w'.Valid := by
  cases h with
  | errand _ h => exact h.valid hv
  | refused => exact hv
  | ipv4Send _ _ _ h _ => exact h.valid hv
  | @tcpOpen _ slot _ =>
    intro j
    rw [Tcp.socketAt_openAt]
    split
    · exact Ring.valid_clear _ (by decide)
    · exact hv j
  | tcpBind _ _ => exact hv.update rfl
  | tcpListen _ => exact hv.setState
  | connectUnsent ip port _ _ h => exact (h.valid (hv.dial ip port)).setState
  | connected ip port _ _ h₁ h₂ _ => exact h₂.valid ((h₁.valid (hv.dial ip port)).update rfl)
  | notConnected ip port _ _ h₁ h₂ =>
    exact (h₂.valid ((h₁.valid (hv.dial ip port)).update rfl)).setState
  | tcpSend _ _ _ h => exact (h.valid hv).update rfl
  | @tcpReceive _ w₁ slot _ _ capacity _ h _ hb =>
    intro j
    rw [Tcp.socketAt_updateSocket]
    split
    · exact (h.valid hv slot).of_pop hb
    · exact h.valid hv j
  | notSent _ _ h => exact h.valid hv
  | notReceived _ _ h => exact h.valid hv
  | closeEstablished _ _ h => exact ((h.valid hv).update rfl).setState.release
  | closeWaiting _ _ h => exact ((h.valid hv).update rfl).setState
  | closeOther _ _ _ => exact hv.release
  | tcpShutdown _ _ h => exact ((h.valid hv).update rfl).setState

open Tcp in
theorem Operation.Works.follows {R : World δ → World δ → Prop} (hR : World.FrameOrder R)
    (herrand : ∀ {w w' : World δ}, Errand op w w' → R w w') (h : op.Works w w') :
    R w w' ∨ ∃ (w₁ : World δ) (mac : Mac) (dest : Ipv4.Address) (protocol : Ipv4.Protocol)
      (payload : Bytes), op = .ipv4Send dest protocol payload ∧
        payload.length ≤ Ipv4.maxPayload ∧ R w w₁ ∧ w₁.hop? dest = some mac ∧
        w' = w₁.dispatch mac dest protocol payload := by
  have hreads {w w' : World δ} (h : Evolves w w') : R w w' := herrand (.evolves h)
  have hupdate {w w₁ : World δ} (i : Slot) (f : Socket → Socket) (h : R w w₁) :
      R w (updateSocket i f w₁) :=
    hR.trans h (hR.of_mute (World.Grows.refl w₁).update)
  have hset {w w₁ : World δ} (i : Slot) (next : State) (h : R w w₁) :
      R w (setState i next w₁) :=
    hR.trans h (hR.of_mute ((World.Grows.refl w₁).setState fun _ _ => rfl))
  have hw : R w w := hR.of_mute (.refl w)
  have hdial {w₁ : World δ} {i : Slot} {ip : Ipv4.Address} {port : UInt16}
      (h : Evolves (dial i ip port w) w₁) : R w w₁ :=
    hR.trans (hset i .synSent (hupdate i _ hw)) (hreads h)
  cases h with
  | errand _ h => exact .inl (herrand h)
  | refused => exact .inl hw
  | ipv4Send dest protocol hl h hop =>
    exact .inr ⟨_, _, dest, protocol, _, rfl, hl, hreads h, hop, rfl⟩
  | tcpOpen _ => exact .inl (hR.of_mute (.of_journal_eq rfl))
  | tcpBind _ _ => exact .inl (hupdate _ _ hw)
  | tcpListen _ => exact .inl (hset _ _ hw)
  | connectUnsent ip port _ _ h => exact .inl (hset _ _ (hdial h))
  | connected ip port _ _ h₁ h₂ _ => exact .inl (hR.trans (hupdate _ _ (hdial h₁)) (hreads h₂))
  | notConnected ip port _ _ h₁ h₂ =>
    exact .inl (hset _ _ (hR.trans (hupdate _ _ (hdial h₁)) (hreads h₂)))
  | tcpSend _ _ _ h => exact .inl (hupdate _ _ (hreads h))
  | tcpReceive _ _ h _ _ => exact .inl (hupdate _ _ (hreads h))
  | notSent _ _ h => exact .inl (hreads h)
  | notReceived _ _ h => exact .inl (hreads h)
  | closeEstablished _ _ h =>
    exact .inl (hupdate _ _ (hset _ _ (hset _ _ (hupdate _ _ (hreads h)))))
  | closeWaiting _ _ h => exact .inl (hset _ _ (hupdate _ _ (hreads h)))
  | closeOther _ _ _ => exact .inl (hupdate _ _ (hset _ _ hw))
  | tcpShutdown _ _ h => exact .inl (hset _ _ (hupdate _ _ (hreads h)))

end InetHost
