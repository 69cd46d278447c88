import InetHost.Ipv4.Address
import InetHost.Mac
import InetHost.Settings.Value
import InetHost.Text.Blank

/-! The settings of a host as a configuration document resolves them: seventeen values, of which
the five addresses are given as text and may be malformed. White space around the parts of an
address is ignored, and a part may have a plus sign and any number of leading zeros. -/

namespace InetHost.Settings

inductive SettingError
  | malformedIpv4 (key text : String)
  | malformedMac (key text : String)
  deriving DecidableEq, Repr

def SettingError.message : SettingError → String
  | malformedIpv4 key text => key ++ " 不是合法的 IPv4 地址: " ++ text
  | malformedMac key text => key ++ " 不是合法的 MAC 地址: " ++ text

def octet? (base : Nat) (part : List Char) : Option UInt8 :=
  match Blank.trim part with
  | '+' :: digits => Numeral.octet? base digits
  | digits => Numeral.octet? base digits

def octets? (base : Nat) (separator : Char) (text : String) : Option (List UInt8) :=
  (text.toList.splitOn separator).mapM (octet? base)

def ipv4? (text : String) : Option Ipv4.Address :=
  (octets? 10 '.' text).bind Ipv4.Address.ofParts?

def mac? (text : String) : Option Mac :=
  (octets? 16 ':' text).bind fun
    | [a, b, c, d, e, f] => some ⟨a, b, c, d, e, f⟩
    | _ => none

structure Resolved where
  mtu : Int
  ttl : Int
  arpCacheSize : Int
  udpTableSize : Int
  tcpTableSize : Int
  udpBufferSize : Int
  tcpBufferSize : Int
  ip : Ipv4.Address
  gateway : Ipv4.Address
  netmask : Ipv4.Address
  dnsServer : Ipv4.Address
  mac : Mac
  resolveTimeout : Int
  replyTimeout : Int
  pingTimeout : Int
  connectTimeout : Int
  lookupTimeout : Int
  deriving DecidableEq, Repr

def network : String := "network"

def timeouts : String := "timeouts"

def ipv4Or (document : Value) (key default : String) : Except SettingError Ipv4.Address :=
  let text := document.textOr network key default
  match ipv4? text with
  | some ip => .ok ip
  | none => .error (.malformedIpv4 key text)

def macOr (document : Value) (key default : String) : Except SettingError Mac :=
  let text := document.textOr network key default
  match mac? text with
  | some mac => .ok mac
  | none => .error (.malformedMac key text)

/-- Fails with the first address that is malformed. -/
def resolve (document : Value) : Except SettingError Resolved := do
  let ip ← ipv4Or document "default_ip" "10.0.0.1"
  let gateway ← ipv4Or document "default_gateway" "10.0.0.2"
  let netmask ← ipv4Or document "default_netmask" "255.255.255.0"
  let dnsServer ← ipv4Or document "default_dns_server" "8.8.8.8"
  let mac ← macOr document "default_mac" "52:54:00:12:34:56"
  .ok
    { mtu := document.integerOr network "eth_mtu" 1500
      ttl := document.integerOr network "ip_default_ttl" 64
      arpCacheSize := document.integerOr network "arp_cache_size" 16
      udpTableSize := document.integerOr network "udp_socket_table_size" 8
      tcpTableSize := document.integerOr network "tcp_socket_table_size" 16
      udpBufferSize := document.integerOr network "udp_recv_buf_size" 512
      tcpBufferSize := document.integerOr network "tcp_recv_buf_size" 4096
      ip, gateway, netmask, dnsServer, mac
      resolveTimeout := document.integerOr timeouts "arp_resolve_ms" 1000
      replyTimeout := document.integerOr timeouts "icmp_reply_arp_ms" 500
      pingTimeout := document.integerOr timeouts "ping_ms" 3000
      connectTimeout := document.integerOr timeouts "tcp_connect_ms" 5000
      lookupTimeout := document.integerOr timeouts "dns_ms" 3000 }

end InetHost.Settings
