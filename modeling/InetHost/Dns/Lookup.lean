import InetHost.Dns.Message
import InetHost.Udp.Exchange

/-! Looking up the address of a host name: one query to the name server, from a socket of its own,
and one response. A name that is an address already needs no query. -/

namespace InetHost.Dns

open Net

def firstPort : UInt16 := 1024

def queryPort (id : UInt16) : UInt16 := firstPort + id % 1000

variable {δ : Type}

def takeId (w : World δ) : UInt16 × World δ :=
  (w.host.nextQueryId, w.update fun h => { h with nextQueryId := h.nextQueryId + 1 })

variable [Link.Device δ]

def lookup (p : Poller δ) (name : String) : Attempt δ Ipv4.Address :=
  match Ipv4.Address.parse? name with
  | some ip => return ip
  | none => do
    let id ← modifyGet takeId
    let query ← Attempt.ofExcept (← check (query id name maxMessage))
    let server := (← get).interface.dnsServer
    let handle ← Udp.openSocket (queryPort id)
    match ← (Udp.send p handle server port query).outcome with
    | .error cause => do
      modify (Udp.close handle)
      throw cause
    | .ok () => do
      modify (World.record (.dnsQueried name id server))
      let received ← (Udp.receive p handle maxMessage Timeouts.lookup).outcome
      modify (Udp.close handle)
      match received with
      | .error .timeout => throw .dnsNoResponse
      | .error cause => throw cause
      | .ok response => do
        let ip ← Attempt.ofExcept (address id response.payload)
        modify (World.record (.dnsResolved name ip))
        return ip

end InetHost.Dns
