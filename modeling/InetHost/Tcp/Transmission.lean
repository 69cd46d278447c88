import InetHost.Ipv4.Sending
import InetHost.Tcp.Segment
import InetHost.Tcp.Sockets

/-! What connections have in common: changes of state, and sending a segment with the present
numbers of a connection. -/

namespace InetHost.Tcp

open Net

variable {δ : Type}

def Socket.header (s : Socket) (flags : Flags) : Header :=
  { source := s.localPort, dest := s.remotePort, seq := s.seq, ack := s.ack,
    dataOffset := minHeader, flags, window, checksum := 0 }

def Socket.segment (s : Socket) (own : Ipv4.Address) (flags : Flags) (data : Bytes) : Bytes :=
  (s.header flags).segment data own s.remoteIp

def socketAt (slot : Slot) (w : World δ) : Socket := w.host.tcp.get slot

def updateSocket (slot : Slot) (f : Socket → Socket) (w : World δ) : World δ :=
  w.update fun h => { h with tcp := h.tcp.modify slot f }

def setState (slot : Slot) (next : State) (w : World δ) : World δ :=
  let before := (socketAt slot w).state
  if before = next then w
  else updateSocket slot (fun s => { s with state := next }) (w.record (.stateChanged slot before next))

/-- Gives a slot back and throws its unread bytes away. -/
def release (slot : Slot) (w : World δ) : World δ :=
  updateSocket slot (fun s => { s with inUse := false, buffer := s.buffer.clear })
    (setState slot .closed w)

def advanceSeq (slot : Slot) (n : UInt32) : World δ → World δ :=
  updateSocket slot fun s => { s with seq := s.seq + n }

def setAck (slot : Slot) (ack : UInt32) : World δ → World δ :=
  updateSocket slot fun s => { s with ack }

variable [Link.Device δ]

def sendSegment (p : Poller δ) (slot : Slot) (flags : Flags) (data : Bytes) : Attempt δ Unit := do
  let w ← get
  let s := socketAt slot w
  let message ← check ((s.segment w.interface.ip flags data).within Ipv4.maxPayload)
  Ipv4.send p s.remoteIp .tcp message

def sendAck (p : Poller δ) (slot : Slot) : Net δ Unit := do
  match ← (sendSegment p slot { ack := true } []).run with
  | .ok () => return ()
  | .error cause => modify (World.record (.ackNotSent slot cause))

def sendFin (p : Poller δ) (slot : Slot) (next : State) : Net δ Unit := do
  match ← (sendSegment p slot { fin := true, ack := true } []).run with
  | .ok () => pure ()
  | .error cause => modify (World.record (.finNotSent slot cause))
  modify (advanceSeq slot 1)
  modify (setState slot next)

end InetHost.Tcp
