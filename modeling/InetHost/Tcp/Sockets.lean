import InetHost.Ipv4.Address
import InetHost.Ring
import InetHost.Slots
import InetHost.Tcp.State

/-! The table of connections. A slot that is in use belongs to a socket, whatever the state of its
connection; what a slot that is not in use holds is left over. -/

namespace InetHost.Tcp

abbrev bufferSize : Nat := 4096

/-- The window that segments advertise: the buffer, as far as the field can say it. -/
def window : UInt16 := UInt16.ofNat (min bufferSize 65535)

def ephemeralBase : UInt16 := 49152

def ephemeralRange : Nat := 16384

def ephemeralPort (seq : UInt32) : UInt16 :=
  ephemeralBase + UInt16.ofNat (seq.toNat % ephemeralRange)

structure Socket where
  state : State
  localPort : UInt16
  remotePort : UInt16
  remoteIp : Ipv4.Address
  seq : UInt32
  ack : UInt32
  buffer : Ring bufferSize
  reset : Bool
  inUse : Bool
  deriving DecidableEq

def Socket.unused : Socket := ⟨.closed, 0, 0, 0, 0, 0, Ring.empty, false, false⟩

namespace Sockets

abbrev capacity : Nat := 16

end Sockets

abbrev Slot := Fin Sockets.capacity

structure Sockets where
  slots : Vector Socket Sockets.capacity
  nextSeq : UInt32
  deriving DecidableEq

namespace Sockets

def empty (nextSeq : UInt32) : Sockets := ⟨Vector.replicate capacity Socket.unused, nextSeq⟩

def get (t : Sockets) (slot : Slot) : Socket := t.slots[slot]

def modify (t : Sockets) (slot : Slot) (f : Socket → Socket) : Sockets :=
  { t with slots := t.slots.set slot (f (t.get slot)) }

def slot (t : Sockets) (handle : Nat) : Except NetError Slot :=
  Slots.ofHandle (fun i => (t.get i).inUse) handle

def free? (t : Sockets) : Option Slot := Slots.first? fun i => !(t.get i).inUse

def openAt (t : Sockets) (slot : Slot) : Sockets :=
  { t.modify slot fun s =>
      ⟨.closed, 0, 0, 0, t.nextSeq, 0, s.buffer.clear, false, true⟩ with
    nextSeq := t.nextSeq + 1 }

def connection? (t : Sockets) (localPort : UInt16) (ip : Ipv4.Address) (port : UInt16) :
    Option Slot :=
  Slots.first? fun i =>
    let s := t.get i
    s.inUse && s.localPort = localPort && s.state ≠ .listen && s.remoteIp = ip &&
      s.remotePort = port

def listener? (t : Sockets) (localPort : UInt16) : Option Slot :=
  Slots.first? fun i =>
    let s := t.get i
    s.inUse && s.localPort = localPort && s.state = .listen

/-- The socket that a segment is for: that of its connection, or else a listening one. -/
def demux? (t : Sockets) (localPort : UInt16) (ip : Ipv4.Address) (port : UInt16) : Option Slot :=
  (t.connection? localPort ip port).or (t.listener? localPort)

theorem slot_eq_ok {t : Sockets} {i : Slot} (h : (t.get i).inUse = true) : t.slot i = .ok i :=
  Slots.ofHandle_eq_ok h

theorem get_modify (t : Sockets) (i j : Slot) (f : Socket → Socket) :
    (t.modify i f).get j = if i = j then f (t.get i) else t.get j :=
  Slots.getElem_set ..

end Sockets

end InetHost.Tcp
