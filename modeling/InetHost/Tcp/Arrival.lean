import InetHost.Tcp.Transmission

/-! What a connection does with a segment that arrives for it. -/

namespace InetHost.Tcp

open Net

variable {δ : Type}

/-- A message is a segment, and the table finds it a connection. -/
structure Addressed (w : World δ) (message : Bytes) (source : Ipv4.Address) (header : Header)
    (slot : Slot) : Prop where
  decoded : Header.decode? message = some header
  found : w.host.tcp.demux? header.dest source header.source = some slot

def handleReset (slot : Slot) (state : State) (source : Ipv4.Address) (w : World δ) : World δ :=
  if state = .listen ∨ state = .closed then w
  else
    setState slot .closed
      (updateSocket slot (fun s => { s with reset := true })
        (w.record (.connectionReset slot source)))

def keepData (slot : Slot) (buffer : Ring bufferSize) (length dropped : Nat) (w : World δ) :
    World δ :=
  let w := updateSocket slot (fun s => { s with buffer }) w
  let w := if dropped = 0 then w else w.record (.bytesDropped slot dropped)
  updateSocket slot (fun s => { s with ack := s.ack + UInt32.ofNat length }) w

variable [Link.Device δ]

def acceptConnection (p : Poller δ) (slot : Slot) (header : Header) (source : Ipv4.Address) :
    Net δ Unit := do
  modify (updateSocket slot fun s =>
    { s with remoteIp := source, remotePort := header.source, ack := header.seq + 1 })
  modify (setState slot .synReceived)
  match ← (sendSegment p slot { syn := true, ack := true } []).run with
  | .ok () => pure ()
  | .error cause => modify (World.record (.synAckNotSent slot cause))
  modify (advanceSeq slot 1)

/-- Acknowledges all data of a segment, and keeps as much of them as fits the buffer. -/
def acceptData (p : Poller δ) (slot : Slot) (source : Ipv4.Address) (message payload : Bytes) :
    Net δ Unit :=
  if payload = [] then return ()
  else do
    let (buffer, stored) ← check ((socketAt slot (← get)).buffer.push payload)
    let dropped ← check (subLengths payload.length stored)
    modify (World.record (.dataKept slot source message (payload.take stored)))
    modify (keepData slot buffer payload.length dropped)
    sendAck p slot

def acceptFin (p : Poller δ) (slot : Slot) (header : Header) : Net δ Unit := do
  modify (setAck slot (header.seq + 1))
  modify (setState slot .closeWait)
  sendAck p slot

def finish (p : Poller δ) (slot : Slot) (header : Header) : Net δ Unit := do
  modify (setAck slot (header.seq + 1))
  sendAck p slot
  modify (setState slot .timeWait)

def advance (p : Poller δ) (slot : Slot) (state : State) (header : Header) (message : Bytes)
    (source : Ipv4.Address) : Net δ Unit :=
  let flags := header.flags
  match state with
  | .listen => if flags.syn then acceptConnection p slot header source else return ()
  | .synSent =>
    if flags.syn ∧ flags.ack then do
      modify (setAck slot (header.seq + 1))
      modify (setState slot .established)
      sendAck p slot
    else return ()
  | .synReceived => if flags.ack then modify (setState slot .established) else return ()
  | .established =>
    if flags.fin then acceptFin p slot header
    else if flags.ack then do
      let payload ← check (message.slice header.dataOffset message.length)
      acceptData p slot source message payload
    else return ()
  | .finWait1 => do
    if flags.ack then modify (setState slot .finWait2) else pure ()
    if flags.fin then finish p slot header else return ()
  | .finWait2 => if flags.fin then finish p slot header else return ()
  | .lastAck => if flags.ack then modify (release slot) else return ()
  | .closed | .closeWait | .closing | .timeWait => return ()

def handle (p : Poller δ) (message : Bytes) (source : Ipv4.Address) : Net δ Unit := do
  match ← check (Header.parse message) with
  | none => return ()
  | some header => do
    match (← get).host.tcp.demux? header.dest source header.source with
    | none => modify (World.record (.noSocket header.dest))
    | some slot => do
      let state := (socketAt slot (← get)).state
      if header.flags.rst then modify (handleReset slot state source)
      else advance p slot state header message source

end InetHost.Tcp
