import InetHost.Arp.Packet
import InetHost.Ethernet.FrameBuffer
import InetHost.Host.Waiting
import InetHost.Timeouts

/-! Address resolution. The host learns the sender of every packet that it reads, answers requests
for its own address, and asks once for an address that it needs and does not know. -/

namespace InetHost.Arp

open Net

variable {δ : Type}

def learn (ip : Ipv4.Address) (mac : Mac) (w : World δ) : World δ :=
  let (time, w) := w.readClock
  w.update fun h => { h with arp := h.arp.add ip mac time }

def frame (dest source : Mac) (packet : Packet) : Except NetError Bytes :=
  Ethernet.Assembly.frame do
    Ethernet.Assembly.appendHeader dest source .arp
    Ethernet.Assembly.append packet.encode

variable [Link.Device δ]

def request (target : Ipv4.Address) : Attempt δ Unit := do
  let own := (← get).interface
  let asking ← Attempt.ofExcept (frame Mac.broadcast own.mac (Packet.request own.mac own.ip target))
  modify (World.record (.arpRequested target own.ip))
  transmit asking

def sendReply (asked : Packet) : Attempt δ Unit := do
  let own := (← get).interface
  let answer ← Attempt.ofExcept (frame asked.senderMac own.mac (Packet.reply own.mac own.ip asked))
  transmit answer

def resolve (p : Poller δ) (ip : Ipv4.Address) (timeout : UInt64) : Attempt δ Mac := do
  let target := (← get).interface.nextHop ip
  match (← get).host.arp.lookup? target with
  | some mac => return mac
  | none => do
    request target
    let _ ← waitUntil p timeout fun h => (h.arp.lookup? target).isSome
    match (← get).host.arp.lookup? target with
    | some mac => return mac
    | none => do
      modify (World.record (.arpUnanswered target))
      throw .timeout

def handle (data : Bytes) : Net δ Unit := do
  match ← check (Packet.parse data) with
  | none => return ()
  | some packet => do
    modify (learn packet.senderIp packet.senderMac)
    modify (World.record (.arpLearned packet.senderIp packet.senderMac))
    if packet.isRequest ∧ packet.targetIp = (← get).interface.ip then
      match ← (sendReply packet).run with
      | .ok () => return ()
      | .error cause => modify (World.record (.arpReplyFailed packet.senderIp cause))
    else
      return ()

end InetHost.Arp
