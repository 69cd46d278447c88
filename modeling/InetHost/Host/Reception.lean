import InetHost.Icmp.Ping
import InetHost.Tcp.Arrival
import InetHost.Udp.Exchange

/-! Reception: what has arrived at the device is read frame by frame, and each frame goes to the
protocol that it is for. Reading a frame can lead to waiting, and waiting to more polling; the fuel
bounds how deep polls are nested and how long each wait goes on. -/

namespace InetHost

open Net

variable {δ : Type} [Link.Device δ]

namespace Ipv4

/-- The data start with a whole packet that the host reads. -/
structure Admits (h : Host) (data : Bytes) (header : Header) : Prop where
  decoded : Header.decode? data = some header
  verified : Checksum.verifies (data.take header.headerLength) = true
  headerLength_le : header.headerLength ≤ header.totalLength.toNat
  totalLength_le : header.totalLength.toNat ≤ data.length
  dest_eq : header.dest = h.interface.ip ∨ header.dest = Address.broadcast

def handle (p : Poller δ) (data : Bytes) : Net δ Unit := do
  match ← check (Header.parse data) with
  | none => return ()
  | some header => do
    let bytes ← check (data.slice 0 header.headerLength)
    let length := header.totalLength.toNat
    if !Checksum.verifies bytes then
      modify (World.record (.badHeaderChecksum header.source))
    else if length < header.headerLength ∨ data.length < length then
      return ()
    else if header.dest ≠ (← get).interface.ip ∧ !header.dest.isBroadcast then
      return ()
    else do
      let payload ← check (data.slice header.headerLength length)
      match Protocol.ofNumber? header.protocol with
      | some .icmp => Icmp.handle p payload header.source
      | some .tcp => Tcp.handle p payload header.source
      | some .udp => Udp.handle payload header.source
      | none => return ()

end Ipv4

namespace Udp

def Carries (h : Host) (data : Bytes) (port : UInt16) (d : Datagram) : Prop :=
  ∃ (packet : Ipv4.Header) (header : Header), Ipv4.Admits h data packet ∧
    packet.protocol = Ipv4.Protocol.udp.number ∧ Whole (packet.payload data) header ∧
    header.dest = port ∧
    d = ⟨packet.source, header.source, header.payload (packet.payload data)⟩

def Brings (h : Host) (frame : Bytes) (port : UInt16) (d : Datagram) : Prop :=
  ∃ link, Ethernet.Header.decode? frame = some link ∧ link.payloadType? = some .ipv4 ∧
    Carries h (frame.drop Ethernet.headerLength) port d

end Udp

namespace Net

def handleFrame (p : Poller δ) (frame : Bytes) : Net δ Unit := do
  match ← check (Ethernet.Header.parse frame) with
  | none => return ()
  | some header => do
    let payload ← check (frame.slice Ethernet.headerLength frame.length)
    match header.payloadType? with
    | some .arp => Arp.handle payload
    | some .ipv4 => Ipv4.handle p payload
    | none => return ()

def pollBudget : Nat := 64

/-- Reads at most `budget` of the frames that have arrived, and returns their number. -/
def drain (handle : Bytes → Net δ Unit) : (budget : Nat) → Net δ Nat
  | 0 => return 0
  | budget + 1 => do
    match ← modifyGet (World.takeFrame Ethernet.maxFrame) with
    | .error cause => do
      modify fun w => w.record (.receiveFailed (Link.Device.name w.device) cause)
      return 0
    | .ok [] => return 0
    | .ok frame => do
      handle frame
      return (← drain handle budget) + 1

def poll : (fuel : Nat) → World δ → Except Halt (Nat × World δ)
  | 0, _ => .error .outOfFuel
  | fuel + 1, w => drain (handleFrame ⟨fuel, poll fuel⟩) pollBudget w

end Net

def Poller.ofFuel (fuel : Nat) : Poller δ := ⟨fuel, Net.poll fuel⟩

end InetHost
