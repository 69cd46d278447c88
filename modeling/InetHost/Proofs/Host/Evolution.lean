import InetHost.Proofs.Host.Updates
import InetHost.Proofs.Ring.Valid

/-! What can become of a world while the host reads frames. Chores leave the connections alone, and
reactions are what a segment does to its connection at once; `Evolves` puts them together. A step
during which the host may wait, and may so read further frames, holds the evolution of that wait
inside it. -/

namespace InetHost

def Event.isRemark : Event → Bool
  | transmitted .. | stateChanged .. | connectionReset .. | dataKept .. | udpOpened .. | udpClosed ..
  | datagramDelivered .. | datagramTaken .. => false
  | _ => true

theorem Event.frame?_eq_none_of_isRemark {e : Event} (h : e.isRemark = true) :
    e.frame? = none := by
  cases e with
  | transmitted => simp [isRemark] at h
  | _ => rfl

theorem Event.udpSlot?_eq_none_of_isRemark {e : Event} (h : e.isRemark = true) :
    e.udpSlot? = none := by
  cases e with
  | udpOpened | udpClosed | datagramDelivered | datagramTaken => simp [isRemark] at h
  | _ => rfl

def Event.isTurn : Event → Bool
  | stateChanged .. | connectionReset .. | dataKept .. => true
  | _ => false

theorem Event.isTurn_eq_false_of_isRemark {e : Event} (h : e.isRemark = true) :
    e.isTurn = false := by
  cases e with
  | stateChanged | connectionReset | dataKept => simp [isRemark] at h
  | _ => rfl

def Event.tcpSlot? : Event → Option Nat
  | stateChanged slot .. | connectionReset slot _ | dataKept slot .. | bytesDropped slot _ =>
    some slot
  | _ => none

theorem Event.frame?_eq_none_of_tcpSlot? {e : Event} {i : Nat} (h : e.tcpSlot? = some i) :
    e.frame? = none := by
  cases e with
  | transmitted => cases h
  | _ => rfl

structure Moment.Asks (m : Moment) (dest : Ipv4.Address) : Prop where
  event_eq : m.event = .arpRequested (m.host.interface.nextHop dest) m.host.interface.ip
  unknown : m.host.arp.lookup? (m.host.interface.nextHop dest) = none

namespace World

variable {δ : Type}

/-- A way to `dest` is found: it is known, or it is asked for and becomes known. -/
inductive Finds (dest : Ipv4.Address) (mac : Mac) (w : World δ) : World δ → Prop
  | known : w.hop? dest = some mac → Finds dest mac w w
  | asked {w₁ : World δ} {m : Moment} (between : List Moment) :
      m.host = w.host → m.Asks dest → w₁.journal = between ++ m :: w.journal →
      w₁.hop? dest = some mac → Finds dest mac w w₁

def Valid (w : World δ) : Prop := ∀ slot, (Tcp.socketAt slot w).buffer.Valid

theorem Finds.hop?_eq {dest : Ipv4.Address} {mac : Mac} {w w₁ : World δ}
    (h : w.Finds dest mac w₁) : w₁.hop? dest = some mac := by
  cases h with
  | known h => exact h
  | asked _ _ _ _ h => exact h

variable [Link.Device δ]

theorem journal_dispatch (mac : Mac) (dest : Ipv4.Address) (protocol : Ipv4.Protocol)
    (payload : Bytes) (w : World δ) : ∃ failure, (w.dispatch mac dest protocol payload).journal =
    ⟨.transmitted (Ipv4.wire w.host.interface mac dest protocol w.host.nextPacketId payload)
      failure, (Ipv4.takeId w).2.host⟩ :: w.journal :=
  journal_handOver _ _

end World

variable {δ : Type}

namespace Tcp

def promote (slot : Slot) (header : Header) (source : Ipv4.Address) (w : World δ) : World δ :=
  setState slot .synReceived (updateSocket slot (fun s =>
    { s with remoteIp := source, remotePort := header.source, ack := header.seq + 1 }) w)

theorem socketAt_promote (slot j : Slot) (header : Header) (source : Ipv4.Address)
    (w : World δ) : socketAt j (promote slot header source w) =
      if slot = j then
        { socketAt slot w with
          state := .synReceived, remoteIp := source, remotePort := header.source
          ack := header.seq + 1 }
      else socketAt j w := by
  rw [promote, socketAt_setState, socketAt_updateSocket_self, socketAt_updateSocket]
  split <;> rfl

theorem socketAt_setAck (slot j : Slot) (ack : UInt32) (w : World δ) :
    socketAt j (setAck slot ack w) =
      if slot = j then { socketAt slot w with ack } else socketAt j w :=
  socketAt_updateSocket ..

theorem socketAt_advanceSeq (slot j : Slot) (n : UInt32) (w : World δ) :
    socketAt j (advanceSeq slot n w) =
      if slot = j then { socketAt slot w with seq := (socketAt slot w).seq + n }
      else socketAt j w :=
  socketAt_updateSocket ..

end Tcp

open Tcp in
/-- What a segment does to its connection before anything is sent. -/
inductive Tcp.Reaction (slot : Slot) (header : Header) (message : Bytes) (source : Ipv4.Address) :
    World δ → World δ → Prop
  | reset {w : World δ} :
      header.flags.rst = true →
      Reaction slot header message source w (handleReset slot (socketAt slot w).state source w)
  | confirm {w : World δ} :
      header.flags.rst = false → (socketAt slot w).state = .synSent →
      header.flags.syn = true → header.flags.ack = true →
      Reaction slot header message source w
        (setState slot .established (setAck slot (header.seq + 1) w))
  | complete {w : World δ} :
      header.flags.rst = false → (socketAt slot w).state = .synReceived →
      header.flags.ack = true →
      Reaction slot header message source w (setState slot .established w)
  | closeWait {w : World δ} :
      header.flags.rst = false → (socketAt slot w).state = .established →
      header.flags.fin = true →
      Reaction slot header message source w
        (setState slot .closeWait (setAck slot (header.seq + 1) w))
  | data {w : World δ} {buffer : Ring bufferSize} {stored : Nat} :
      header.flags.rst = false → (socketAt slot w).state = .established →
      header.flags.fin = false → header.flags.ack = true →
      (socketAt slot w).buffer.push (message.drop header.dataOffset) = .ok (buffer, stored) →
      Reaction slot header message source w
        (keepData slot buffer (message.drop header.dataOffset).length
          ((message.drop header.dataOffset).length - stored)
          (w.record (.dataKept slot source message ((message.drop header.dataOffset).take stored))))
  | finAcked {w : World δ} :
      header.flags.rst = false → (socketAt slot w).state = .finWait1 →
      header.flags.ack = true →
      Reaction slot header message source w (setState slot .finWait2 w)
  | release {w : World δ} :
      header.flags.rst = false → (socketAt slot w).state = .lastAck →
      header.flags.ack = true →
      Reaction slot header message source w (Tcp.release slot w)

variable [Link.Device δ]

/-- A step that leaves the connections alone. -/
inductive Chore : World δ → World δ → Prop
  | remark (w : World δ) {e : Event} : e.isRemark = true → Chore w (w.record e)
  | readClock (w : World δ) : Chore w w.readClock.2
  | takeFrame (w : World δ) : Chore w (w.takeFrame Ethernet.maxFrame).2
  | learn (w : World δ) (ip : Ipv4.Address) (mac : Mac) : Chore w (Arp.learn ip mac w)
  | ask (w : World δ) (target : Ipv4.Address) :
      Chore w (w.handOver (Arp.wire Mac.broadcast w.host.interface.mac
        (Arp.Packet.request w.host.interface.mac w.host.interface.ip target))).2
  | answer (w : World δ) (asked : Arp.Packet) :
      Chore w (w.handOver (Arp.wire asked.senderMac w.host.interface.mac
        (Arp.Packet.reply w.host.interface.mac w.host.interface.ip asked))).2
  | noteReply (w : World δ) (header : Icmp.Header) (sent : Option UInt32)
      (source : Ipv4.Address) : Chore w (Icmp.noteReply header sent source w)
  | reply {w : World δ} {mac : Mac} {dest : Ipv4.Address} {message answer : Bytes} :
      w.hop? dest = some mac → message.length ≤ Icmp.maxReply →
      Icmp.echoReply message = .ok answer → Chore w (w.dispatch mac dest .icmp answer)
  | receive {w : World δ} {frame : Bytes} {port : UInt16} {d : Udp.Datagram} {slot : Udp.Slot} :
      (w.takeFrame Ethernet.maxFrame).1 = .ok frame → Udp.Brings w.host frame port d →
      w.host.udp.listener? port = some slot →
      Chore w (Udp.deliver slot d d.kept (w.takeFrame Ethernet.maxFrame).2)

open Tcp in
inductive Evolves : World δ → World δ → Prop
  | refl (w : World δ) : Evolves w w
  | trans {w₁ w₂ w₃ : World δ} : Evolves w₁ w₂ → Evolves w₂ w₃ → Evolves w₁ w₃
  | chore {w w' : World δ} : Chore w w' → Evolves w w'
  | react {w w' : World δ} {message : Bytes} {source : Ipv4.Address} {header : Header}
      {slot : Slot} :
      Addressed w message source header slot → Reaction slot header message source w w' →
      Evolves w w'
  | segment {w w₁ : World δ} {mac : Mac} (slot : Slot) (flags : Flags) (data : Bytes) :
      data.length ≤ Tcp.maxPayload → (socketAt slot w).state ≠ .listen → Evolves w w₁ →
      w.Finds (socketAt slot w).remoteIp mac w₁ →
      Evolves w (w₁.dispatch mac (socketAt slot w).remoteIp .tcp
        ((socketAt slot w).segment w.host.interface.ip flags data))
  | accept {w w₁ : World δ} {message : Bytes} {source : Ipv4.Address} {header : Header}
      {slot : Slot} :
      Addressed w message source header slot → header.flags.rst = false →
      (socketAt slot w).state = .listen → header.flags.syn = true →
      Evolves (promote slot header source w) w₁ →
      Evolves w (advanceSeq slot 1 w₁)
  | finish {w w₁ : World δ} {header : Header} {slot : Slot} :
      (socketAt slot w).inUse = true →
      (socketAt slot w).state = .finWait1 ∨ (socketAt slot w).state = .finWait2 →
      header.flags.fin = true → Evolves (setAck slot (header.seq + 1) w) w₁ →
      Evolves w (setState slot .timeWait w₁)

end InetHost
