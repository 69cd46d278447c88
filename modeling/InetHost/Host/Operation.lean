import InetHost.Dns.Lookup
import InetHost.Tcp.Connection

/-! The operations that a host offers, the runs that they make up, and the states that such runs
reach. Queries that change nothing are left out. Between two operations the owner of the host may
reach for its device and its clock. -/

namespace InetHost

inductive Operation (δ : Type)
  | configure (interface : Interface)
  | adjustDevice (f : δ → δ)
  | setClock (clock : Clock)
  | poll
  | handleFrame (frame : Bytes)
  | arpLearn (ip : Ipv4.Address) (mac : Mac)
  | arpRequest (target : Ipv4.Address)
  | arpResolve (ip : Ipv4.Address) (timeout : UInt64)
  | ipv4Send (dest : Ipv4.Address) (protocol : Ipv4.Protocol) (payload : Bytes)
  | ping (dest : Ipv4.Address) (sequence : UInt16)
  | pingHost (dest : Ipv4.Address) (count : UInt32)
  | udpOpen (port : UInt16)
  | udpClose (handle : Nat)
  | udpSend (handle : Nat) (dest : Ipv4.Address) (port : UInt16) (payload : Bytes)
  | udpReceive (handle capacity : Nat) (timeout : UInt64)
  | tcpOpen
  | tcpBind (handle : Nat) (port : UInt16)
  | tcpListen (handle : Nat)
  | tcpConnect (handle : Nat) (ip : Ipv4.Address) (port : UInt16)
  | tcpSend (handle : Nat) (data : Bytes)
  | tcpReceive (handle capacity : Nat)
  | tcpClose (handle : Nat)
  | tcpShutdown (handle : Nat)
  | lookup (name : String)

namespace Operation

open Net

variable {δ : Type}

def connection? : Operation δ → Option Nat
  | tcpBind handle _ | tcpListen handle | tcpConnect handle _ _ | tcpSend handle _
  | tcpReceive handle _ | tcpClose handle | tcpShutdown handle => some handle
  | _ => none

def attempt {α : Type} (a : Attempt δ α) : Net δ Unit := do
  let _ ← a.run

variable [Link.Device δ]

def perform (p : Poller δ) : Operation δ → Net δ Unit
  | configure interface => modify (World.update fun h => { h with interface })
  | adjustDevice f => modify fun w => { w with device := f w.device }
  | setClock clock => modify fun w => { w with clock }
  | poll => do
    let _ ← p.poll
  | handleFrame frame => Net.handleFrame p frame
  | arpLearn ip mac => modify (Arp.learn ip mac)
  | arpRequest target => attempt (Arp.request target)
  | arpResolve ip timeout => attempt (Arp.resolve p ip timeout)
  | ipv4Send dest protocol payload => attempt (Ipv4.send p dest protocol payload)
  | ping dest sequence => attempt (Icmp.ping p dest sequence)
  | pingHost dest count => do
    let _ ← Icmp.pingHost p dest count
  | udpOpen port => attempt (Udp.openSocket port)
  | udpClose handle => modify (Udp.close handle)
  | udpSend handle dest port payload => attempt (Udp.send p handle dest port payload)
  | udpReceive handle capacity timeout => attempt (Udp.receive p handle capacity timeout)
  | tcpOpen => attempt Tcp.openSocket
  | tcpBind handle port => attempt (Tcp.bind handle port)
  | tcpListen handle => attempt (Tcp.listen handle)
  | tcpConnect handle ip port => attempt (Tcp.connect p handle ip port)
  | tcpSend handle data => attempt (Tcp.send p handle data)
  | tcpReceive handle capacity => attempt (Tcp.receive p handle capacity)
  | tcpClose handle => attempt (Tcp.close p handle)
  | tcpShutdown handle => attempt (Tcp.shutdown p handle)
  | lookup name => attempt (Dns.lookup p name)

/-- An operation that is given some fuel and comes to its end. -/
def Runs (op : Operation δ) (w w' : World δ) : Prop :=
  ∃ fuel, op.perform (Poller.ofFuel fuel) w = .ok ((), w')

end Operation

/-- The states of a host in a run of operations from its start. -/
inductive Reachable {δ : Type} [Link.Device δ] : World δ → Prop
  | start (device : δ) (clock : Clock) (interface : Interface) :
      Reachable (World.start device clock interface)
  | step {w w' : World δ} (op : Operation δ) : Reachable w → op.Runs w w' → Reachable w'

end InetHost
