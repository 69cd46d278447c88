import InetHost.Arp.Resolution
import InetHost.Ipv4.Header

/-! Sending packets. Each packet that the host sends for its own purposes takes the next
identifier; one that cannot be sent at all takes none. -/

namespace InetHost.Ipv4

open Net

variable {δ : Type}

def wire (own : Interface) (mac : Mac) (dest : Address) (protocol : Protocol) (id : UInt16)
    (payload : Bytes) : Bytes :=
  (Ethernet.Header.encode ⟨mac, own.mac, Ethernet.EtherType.ipv4.toWord⟩ ++
    (Header.plain own.ip dest protocol id payload.length).encode ++ payload).padTo
    Ethernet.minFrame

def takeId (w : World δ) : UInt16 × World δ :=
  (w.host.nextPacketId, w.update fun h => { h with nextPacketId := h.nextPacketId + 1 })

variable [Link.Device δ]

def transmit (mac : Mac) (dest : Address) (protocol : Protocol) (id : UInt16) (payload : Bytes) :
    Attempt δ Unit := do
  let own := (← get).interface
  let header ← check (Header.outgoing own.ip dest protocol id payload.length)
  let packet ← Attempt.ofExcept
    (Ethernet.Assembly.frame (Ethernet.Assembly.appendPacket mac own.mac header payload))
  Net.transmit packet

def nextHopMac (p : Poller δ) (dest : Address) : Attempt δ Mac :=
  ExceptT.adapt (fun _ => .arpFailed) (Arp.resolve p dest Timeouts.resolve)

def send (p : Poller δ) (dest : Address) (protocol : Protocol) (payload : Bytes) :
    Attempt δ Unit :=
  if maxPayload < payload.length then throw .messageTooLong
  else do
    let mac ← nextHopMac p dest
    let id ← modifyGet takeId
    transmit mac dest protocol id payload

end InetHost.Ipv4

namespace InetHost.World

variable {δ : Type}

def hop? (w : World δ) (dest : Ipv4.Address) : Option Mac :=
  w.host.arp.lookup? (w.host.interface.nextHop dest)

/-- The world after a packet has got its identifier and has been handed over. -/
def dispatch [Link.Device δ] (mac : Mac) (dest : Ipv4.Address) (protocol : Ipv4.Protocol)
    (payload : Bytes) (w : World δ) : World δ :=
  ((Ipv4.takeId w).2.handOver
    (Ipv4.wire w.host.interface mac dest protocol w.host.nextPacketId payload)).2

end InetHost.World
