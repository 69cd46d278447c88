import InetHost.Arp.Cache
import InetHost.Clock
import InetHost.Host.Event
import InetHost.Icmp.Echo
import InetHost.Ethernet.Header
import InetHost.Interface
import InetHost.Link.Device
import InetHost.Tcp.Sockets
import InetHost.Udp.Sockets

/-! A host with its device, its clock and the journal of what has happened, and the monad in which
the host works. A run stops short only at a fault, or when it was given too little fuel. -/

namespace InetHost

structure Host where
  interface : Interface
  arp : Arp.Cache
  udp : Udp.Sockets
  tcp : Tcp.Sockets
  lastReply : Option Icmp.Reply
  nextPacketId : UInt16
  nextQueryId : UInt16
  deriving DecidableEq

/-- An event, and the host as it was then. -/
structure Moment where
  event : Event
  host : Host
  deriving DecidableEq

structure World (δ : Type) where
  host : Host
  device : δ
  clock : Clock
  journal : List Moment
  deriving DecidableEq

inductive Halt
  | fault (f : Fault)
  | outOfFuel
  deriving DecidableEq, Repr

abbrev Net (δ : Type) := StateT (World δ) (Except Halt)

/-- What a host tries to do; the effects of a failed attempt stay. -/
abbrev Attempt (δ : Type) := ExceptT NetError (Net δ)

variable {δ α : Type}

namespace World

/-- A host that has just started. The time of the start is its first sequence number. -/
def start [Link.Device δ] (device : δ) (clock : Clock) (interface : Interface) : World δ :=
  let (now, clock) := clock.read
  let host :=
    { interface, arp := Arp.Cache.empty, udp := Udp.Sockets.empty,
      tcp := Tcp.Sockets.empty now.toUInt32, lastReply := none, nextPacketId := 0,
      nextQueryId := 1 }
  { host, device, clock
    journal := [⟨.started (Link.Device.name device) interface.ip interface.mac, host⟩] }

def events (w : World δ) : List Event := (w.journal.map Moment.event).reverse

def frames (w : World δ) : List Bytes := w.events.filterMap Event.frame?

def interface (w : World δ) : Interface := w.host.interface

def update (f : Host → Host) (w : World δ) : World δ := { w with host := f w.host }

def record (e : Event) (w : World δ) : World δ := { w with journal := ⟨e, w.host⟩ :: w.journal }

def readClock (w : World δ) : UInt64 × World δ :=
  let (now, clock) := w.clock.read
  (now, { w with clock })

def handOver [Link.Device δ] (frame : Bytes) (w : World δ) : Except NetError Unit × World δ :=
  let (result, device) := Link.Device.transmit frame w.device
  let failure := match result with
    | .ok _ => none
    | .error cause => some cause
  (result, record (.transmitted frame failure) { w with device })

def takeFrame [Link.Device δ] (capacity : Nat) (w : World δ) : Except NetError Bytes × World δ :=
  let (result, device) := Link.Device.receive capacity w.device
  (result, { w with device })

end World

namespace Net

def check {m : Type → Type} [Monad m] [MonadExceptOf Halt m] : Except Fault α → m α
  | .ok a => pure a
  | .error f => throwThe Halt (.fault f)

def transmit [Link.Device δ] (frame : Bytes) : Attempt δ Unit :=
  if frame.length < Ethernet.headerLength ∨ Ethernet.maxFrame < frame.length then
    throw .linkError
  else if frame.length < Ethernet.minFrame then do
    let padded ← check (Bytes.overwrite (List.replicate Ethernet.minFrame 0) frame)
    ExceptT.mk (modifyGet (World.handOver padded))
  else
    ExceptT.mk (modifyGet (World.handOver frame))

end Net

namespace Attempt

def ofExcept (result : Except NetError α) : Attempt δ α := ExceptT.mk (pure result)

def outcome (a : Attempt δ α) : Attempt δ (Except NetError α) := ExceptT.lift a.run

end Attempt

end InetHost
