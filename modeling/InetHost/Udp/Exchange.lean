import InetHost.Ipv4.Sending
import InetHost.Udp.Header

/-! Opening and closing datagram sockets, sending datagrams, and receiving them. -/

namespace InetHost.Udp

open Net

variable {δ : Type}

def slot (handle : Nat) : Attempt δ Slot := do
  Attempt.ofExcept ((← get).host.udp.slot handle)

def modifySockets (f : Sockets → Sockets) (w : World δ) : World δ :=
  w.update fun h => { h with udp := f h.udp }

def openSocket (port : UInt16) : Attempt δ Nat := do
  match (← get).host.udp.free? with
  | none => do
    modify (World.record .udpTableFull)
    throw .noFreeSocket
  | some slot => do
    modify (modifySockets fun t => t.openAt slot port)
    modify (World.record (.udpOpened slot port))
    return slot

def close (handle : Nat) (w : World δ) : World δ :=
  if h : handle < Sockets.capacity then
    modifySockets (fun t => t.close ⟨handle, h⟩) (w.record (.udpClosed handle))
  else w

/-- A datagram arrives for a socket, which keeps as much of it as is given. -/
def deliver (slot : Slot) (datagram kept : Datagram) (w : World δ) : World δ :=
  modifySockets (fun t => t.store slot kept) (w.record (.datagramDelivered slot datagram))

def take (slot : Slot) (w : World δ) : World δ :=
  modifySockets (fun t => t.take slot) (w.record (.datagramTaken slot))

def localPort (handle : Nat) : Attempt δ UInt16 := do
  let slot ← slot handle
  return ((← get).host.udp.get slot).port

def handle (message : Bytes) (source : Ipv4.Address) : Net δ Unit := do
  match ← check (Header.parse message) with
  | none => return ()
  | some header => do
    let length := header.length.toNat
    if length < headerLength ∨ message.length < length then
      return ()
    else do
      let payload ← check (message.slice headerLength length)
      match (← get).host.udp.listener? header.dest with
      | none => return ()
      | some slot => do
        let kept ← check (payload.slice 0 (min payload.length bufferSize))
        let kept ← check (kept.within bufferSize)
        modify (deliver slot ⟨source, header.source, payload⟩ ⟨source, header.source, kept⟩)

def ready (handle : Nat) (h : Host) : Bool :=
  match h.udp.slot handle with
  | .ok slot => (h.udp.get slot).hasData
  | .error _ => true

def read (slot : Slot) (capacity : Nat) : Attempt δ Datagram := do
  let s := (← get).host.udp.get slot
  let payload ← check (Bytes.slice s.buffer.toList 0 (min s.length capacity))
  modify (take slot)
  return ⟨s.source, s.sourcePort, payload⟩

def receive (p : Poller δ) (handle capacity : Nat) (timeout : UInt64) : Attempt δ Datagram := do
  let _ ← slot handle
  if ← waitUntil p timeout (ready handle) then do
    let slot ← slot handle
    read slot capacity
  else throw .timeout

variable [Link.Device δ]

def send (p : Poller δ) (handle : Nat) (dest : Ipv4.Address) (port : UInt16) (payload : Bytes) :
    Attempt δ Unit := do
  let source ← localPort handle
  if maxPayload < payload.length then
    throw .messageTooLong
  else do
    let datagram ← check ((encode source port payload).within Ipv4.maxPayload)
    Ipv4.send p dest .udp datagram

end InetHost.Udp
