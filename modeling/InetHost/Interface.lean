import InetHost.Ipv4.Address
import InetHost.Mac

/-! The addresses of the host's one interface. -/

namespace InetHost

structure Interface where
  ip : Ipv4.Address
  gateway : Ipv4.Address
  netmask : Ipv4.Address
  mac : Mac
  dnsServer : Ipv4.Address
  deriving DecidableEq, Repr

namespace Interface

def default : Interface where
  ip := 0x0A000001
  gateway := 0x0A000002
  netmask := 0xFFFFFF00
  mac := ⟨0x52, 0x54, 0x00, 0x12, 0x34, 0x56⟩
  dnsServer := 0x08080808

def nextHop (i : Interface) (dest : Ipv4.Address) : Ipv4.Address :=
  Ipv4.Address.nextHop dest i.ip i.netmask i.gateway

end Interface

end InetHost
