import InetHost.Bytes
import InetHost.Ipv4.Address
import InetHost.Slots

/-! The table of datagram sockets. Each socket holds at most one unread datagram; a newer one takes
the place of an older one. What a socket held stays in its buffer when it is read, and when the socket
is closed and opened again. -/

namespace InetHost.Udp

structure Datagram where
  source : Ipv4.Address
  sourcePort : UInt16
  payload : Bytes
  deriving DecidableEq, Repr

/-- The longest part of a datagram that a socket keeps. -/
def bufferSize : Nat := 512

def Datagram.kept (d : Datagram) : Datagram := { d with payload := d.payload.take bufferSize }

theorem Datagram.length_payload_kept (d : Datagram) : d.kept.payload.length ≤ bufferSize :=
  List.length_take_le ..

structure Socket where
  port : UInt16
  inUse : Bool
  buffer : Vector UInt8 bufferSize
  /-- How much of the buffer the latest datagram takes up, read or not. -/
  length : Nat
  source : Ipv4.Address
  sourcePort : UInt16
  hasData : Bool
  deriving DecidableEq

namespace Socket

def unused : Socket := ⟨0, false, Vector.replicate bufferSize 0, 0, 0, 0, false⟩

/-- A buffer with `bs` over its front; the bytes behind stay. -/
def overlay (buffer : Vector UInt8 bufferSize) (bs : Bytes) : Vector UInt8 bufferSize :=
  ⟨(bs.take bufferSize ++ buffer.toList.drop bs.length).toArray, by simp; omega⟩

def put (s : Socket) (d : Datagram) : Socket :=
  { s with
    buffer := overlay s.buffer d.payload, length := d.payload.length
    source := d.source, sourcePort := d.sourcePort, hasData := true }

def unread (s : Socket) : Option Datagram :=
  if s.hasData then some ⟨s.source, s.sourcePort, s.buffer.toList.take s.length⟩ else none

theorem take_overlay (buffer : Vector UInt8 bufferSize) {bs : Bytes} (h : bs.length ≤ bufferSize) :
    (overlay buffer bs).toList.take bs.length = bs := by
  have hlist : (overlay buffer bs).toList = bs ++ buffer.toList.drop bs.length := by
    show bs.take bufferSize ++ _ = _
    rw [List.take_of_length_le h]
  rw [hlist, List.take_left]

theorem unread_put (s : Socket) {d : Datagram} (h : d.payload.length ≤ bufferSize) :
    (s.put d).unread = some d := by
  rw [unread, put, if_pos rfl, take_overlay s.buffer h]

theorem slice_buffer {s : Socket} (h : s.length ≤ bufferSize) (capacity : Nat) :
    Bytes.slice s.buffer.toList 0 (min s.length capacity) =
      .ok ((s.buffer.toList.take s.length).take capacity) := by
  rw [List.take_take, Nat.min_comm capacity]
  apply Bytes.slice_from_start
  rw [Vector.length_toList]
  exact Nat.le_trans (Nat.min_le_left ..) h

theorem unread_eq_some_iff {s : Socket} {d : Datagram} : s.unread = some d ↔
    s.hasData = true ∧ d = ⟨s.source, s.sourcePort, s.buffer.toList.take s.length⟩ := by
  unfold unread
  cases s.hasData <;> simp [eq_comm]

theorem unread_eq_none_iff {s : Socket} : s.unread = none ↔ s.hasData = false := by
  unfold unread
  cases s.hasData <;> simp

theorem isSome_unread (s : Socket) : s.unread.isSome = s.hasData := by
  unfold unread
  cases s.hasData <;> rfl

end Socket

namespace Sockets

abbrev capacity : Nat := 8

end Sockets

abbrev Slot := Fin Sockets.capacity

structure Sockets where
  slots : Vector Socket Sockets.capacity
  deriving DecidableEq

namespace Sockets

def empty : Sockets := ⟨Vector.replicate capacity Socket.unused⟩

def get (t : Sockets) (slot : Slot) : Socket := t.slots[slot]

def modify (t : Sockets) (slot : Slot) (f : Socket → Socket) : Sockets :=
  ⟨t.slots.set slot (f (t.get slot))⟩

def slot (t : Sockets) (handle : Nat) : Except NetError Slot :=
  Slots.ofHandle (fun i => (t.get i).inUse) handle

def free? (t : Sockets) : Option Slot := Slots.first? fun i => !(t.get i).inUse

def listener? (t : Sockets) (port : UInt16) : Option Slot :=
  Slots.first? fun i => (t.get i).inUse && (t.get i).port = port

def openAt (t : Sockets) (slot : Slot) (port : UInt16) : Sockets :=
  t.modify slot fun s => { s with port, inUse := true, hasData := false, length := 0 }

def close (t : Sockets) (slot : Slot) : Sockets :=
  t.modify slot fun s => { s with inUse := false, hasData := false }

def store (t : Sockets) (slot : Slot) (d : Datagram) : Sockets := t.modify slot fun s => s.put d

def take (t : Sockets) (slot : Slot) : Sockets :=
  t.modify slot fun s => { s with hasData := false }

theorem slot_eq_ok {t : Sockets} {i : Slot} (h : (t.get i).inUse = true) : t.slot i = .ok i :=
  Slots.ofHandle_eq_ok h

theorem get_modify (t : Sockets) (i j : Slot) (f : Socket → Socket) :
    (t.modify i f).get j = if i = j then f (t.get i) else t.get j :=
  Slots.getElem_set ..

end Sockets

end InetHost.Udp
