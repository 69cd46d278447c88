import InetHost.Host.Reception

/-! What the owner of a socket does with it: open, bind, listen, connect, send, receive, close. -/

namespace InetHost.Tcp

open Net

variable {δ : Type}

def slot (handle : Nat) : Attempt δ Slot := do
  Attempt.ofExcept ((← get).host.tcp.slot handle)

def socket (handle : Nat) : Attempt δ Socket := do
  let slot ← slot handle
  return socketAt slot (← get)

def openSocket : Attempt δ Nat := do
  match (← get).host.tcp.free? with
  | none => do
    modify (World.record .tcpTableFull)
    throw .noFreeSocket
  | some slot => do
    modify (World.update fun h => { h with tcp := h.tcp.openAt slot })
    return slot

def bind (handle : Nat) (port : UInt16) : Attempt δ Unit := do
  let slot ← slot handle
  modify (updateSocket slot fun s => { s with localPort := port })

def listen (handle : Nat) : Attempt δ Unit := do
  let slot ← slot handle
  modify (setState slot .listen)

def settle (slot : Slot) (settled : Bool) (ip : Ipv4.Address) (port : UInt16) :
    Attempt δ Unit := do
  let s := socketAt slot (← get)
  if s.state = .established ∨ s.state = .closeWait then
    modify (World.record (.connected ip port))
  else if s.reset then do
    modify (setState slot .closed)
    throw .connectionReset
  else do
    if settled then pure () else modify (World.record (.connectTimedOut ip port))
    modify (setState slot .closed)
    throw .timeout

variable [Link.Device δ]

def connect (p : Poller δ) (handle : Nat) (ip : Ipv4.Address) (port : UInt16) :
    Attempt δ Unit := do
  let slot ← slot handle
  let chosen := ephemeralPort (← get).host.tcp.nextSeq
  if (socketAt slot (← get)).state ≠ .closed then
    throw .invalidState
  else do
    modify (updateSocket slot fun s =>
      { s with
        remoteIp := ip, remotePort := port, reset := false
        localPort := if s.localPort = 0 then chosen else s.localPort })
    modify (setState slot .synSent)
    match ← (sendSegment p slot { syn := true } []).outcome with
    | .error cause => do
      modify (setState slot .closed)
      throw cause
    | .ok () => do
      modify (advanceSeq slot 1)
      let settled ← waitUntil p Timeouts.connect fun h => (h.tcp.get slot).state ≠ .synSent
      settle slot settled ip port

def send (p : Poller δ) (handle : Nat) (data : Bytes) : Attempt δ Nat := do
  let slot ← slot handle
  if (socketAt slot (← get)).state ≠ .established then
    throw .invalidState
  else if maxPayload < data.length then
    throw .messageTooLong
  else do
    sendSegment p slot { ack := true, psh := true } data
    modify (advanceSeq slot (UInt32.ofNat data.length))
    return data.length

def receive (p : Poller δ) (handle capacity : Nat) : Attempt δ Bytes := do
  let _ ← slot handle
  let _ ← p.poll
  let slot ← slot handle
  let (buffer, data) ← check ((socketAt slot (← get)).buffer.pop capacity)
  modify (updateSocket slot fun s => { s with buffer })
  return data

/-- The slot is free at once, unless the peer has ended its side already. -/
def close (p : Poller δ) (handle : Nat) : Attempt δ Unit := do
  let slot ← slot handle
  match (socketAt slot (← get)).state with
  | .established => do
    sendFin p slot .finWait1
    modify (release slot)
  | .closeWait => sendFin p slot .lastAck
  | _ => modify (release slot)

def shutdown (p : Poller δ) (handle : Nat) : Attempt δ Unit := do
  let slot ← slot handle
  if (socketAt slot (← get)).state ≠ .established then throw .invalidState
  else sendFin p slot .finWait1

end InetHost.Tcp
