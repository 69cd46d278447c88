import InetHost.Ipv4.Sending

/-! Echo requests and replies: the host answers the requests of others, sends its own, and reports
how long the replies to them took. -/

namespace InetHost.Icmp

open Net

structure PingStats where
  sent : Nat := 0
  received : Nat := 0
  totalRtt : Nat := 0
  deriving DecidableEq, Repr

def maxReply : Nat := Ethernet.mtu - Ethernet.headerLength - Ipv4.minHeader

def probeSequence (index : Nat) : UInt16 := UInt16.ofNat (index + 1)

variable {δ : Type}

def roundTrip (sent : Option UInt32) (w : World δ) : UInt32 × World δ :=
  match sent with
  | some sent =>
    let (time, w) := w.readClock
    (time.toUInt32 - sent, w)
  | none => (0, w)

def noteReply (header : Header) (sent : Option UInt32) (source : Ipv4.Address) (w : World δ) :
    World δ :=
  let (rtt, w) := roundTrip sent w
  (w.record (.echoReplied source header.sequence)).update fun h =>
    { h with lastReply := some ⟨header.sequence, rtt⟩ }

variable [Link.Device δ]

def ping (p : Poller δ) (dest : Ipv4.Address) (sequence : UInt16) : Attempt δ UInt32 := do
  let mac ← Ipv4.nextHopMac p dest
  let time ← modifyGet World.readClock
  modify (World.update fun h => { h with lastReply := none })
  Ipv4.transmit mac dest .icmp (sequence % 256) (echoRequest sequence time.toUInt32)
  let _ ← waitUntil p Timeouts.ping fun h => h.lastReply.any fun r => r.sequence = sequence
  match (← get).host.lastReply.filter fun r => r.sequence = sequence with
  | some reply => return reply.rtt
  | none => throw .timeout

/-- The series ends early when the next hop cannot be resolved. -/
def probes (p : Poller δ) (dest : Ipv4.Address) (isOwn : Bool) :
    (count index : Nat) → PingStats → Net δ PingStats
  | 0, _, stats => return stats
  | count + 1, index, stats => do
    let sequence := probeSequence index
    let stats := { stats with sent := stats.sent + 1 }
    if isOwn then do
      modify (World.record (.probeLooped sequence))
      probes p dest isOwn count (index + 1) { stats with received := stats.received + 1 }
    else do
      match ← (ping p dest sequence).run with
      | .ok rtt => do
        modify (World.record (.probeAnswered sequence rtt))
        probes p dest isOwn count (index + 1)
          { stats with received := stats.received + 1, totalRtt := stats.totalRtt + rtt.toNat }
      | .error .arpFailed => do
        modify (World.record .probeUnresolved)
        return stats
      | .error cause => do
        modify (World.record (.probeFailed sequence cause))
        probes p dest isOwn count (index + 1) stats

def pingHost (p : Poller δ) (dest : Ipv4.Address) (count : UInt32) : Net δ PingStats := do
  let isOwn := dest.isLoopback || dest = (← get).interface.ip
  modify (World.record (.pingStarted dest))
  let stats ← probes p dest isOwn count.toNat 0 {}
  modify (World.record (.pingFinished stats.sent stats.received))
  return stats

def sendReply (p : Poller δ) (dest : Ipv4.Address) (message : Bytes) : Net δ Unit :=
  if maxReply < message.length then
    return ()
  else do
    match ← (Arp.resolve p dest Timeouts.resolveForReply).run with
    | .error _ => return ()
    | .ok mac => do
      let copy ← check (message.within maxReply)
      let reply ← check (echoReply copy)
      let id ← modifyGet Ipv4.takeId
      match ← (Ipv4.transmit mac dest .icmp id reply).run with
      | .ok () => return ()
      | .error cause => modify (World.record (.echoReplyFailed dest cause))

def handle (p : Poller δ) (message : Bytes) (source : Ipv4.Address) : Net δ Unit := do
  match ← check (Header.parse message) with
  | none => return ()
  | some header =>
    if header.code ≠ 0 then return ()
    else if header.messageType = MessageType.echoReply.number then do
      let sent ← check (timestamp? message)
      modify (noteReply header sent source)
    else if header.messageType = MessageType.echoRequest.number then sendReply p source message
    else return ()

end InetHost.Icmp
