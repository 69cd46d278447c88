import InetHost.Mac
import InetHost.Tcp.State
import InetHost.Udp.Sockets

/-! What a host does and notices, in the order in which it happens. Most events have a line in
the log. -/

namespace InetHost

inductive Event
  | started (device : String) (ip : Ipv4.Address) (mac : Mac)
  | transmitted (frame : Bytes) (failure : Option NetError)
  | receiveFailed (device : String) (cause : NetError)
  | arpRequested (target own : Ipv4.Address)
  | arpUnanswered (target : Ipv4.Address)
  | arpLearned (ip : Ipv4.Address) (mac : Mac)
  | arpReplyFailed (ip : Ipv4.Address) (cause : NetError)
  | badHeaderChecksum (source : Ipv4.Address)
  | pingStarted (dest : Ipv4.Address)
  | probeLooped (sequence : UInt16)
  | probeAnswered (sequence : UInt16) (rtt : UInt32)
  | probeUnresolved
  | probeFailed (sequence : UInt16) (cause : NetError)
  | pingFinished (sent received : Nat)
  | echoReplied (source : Ipv4.Address) (sequence : UInt16)
  | echoReplyFailed (dest : Ipv4.Address) (cause : NetError)
  | udpTableFull
  | udpOpened (slot : Nat) (port : UInt16)
  | udpClosed (slot : Nat)
  /-- A whole datagram came for a socket, which may keep less of it. -/
  | datagramDelivered (slot : Nat) (datagram : Udp.Datagram)
  | datagramTaken (slot : Nat)
  | tcpTableFull
  | stateChanged (slot : Nat) (before after : Tcp.State)
  | connected (ip : Ipv4.Address) (port : UInt16)
  | connectTimedOut (ip : Ipv4.Address) (port : UInt16)
  | finNotSent (slot : Nat) (cause : NetError)
  | ackNotSent (slot : Nat) (cause : NetError)
  | synAckNotSent (slot : Nat) (cause : NetError)
  | noSocket (port : UInt16)
  | connectionReset (slot : Nat) (source : Ipv4.Address)
  /-- A segment brought data for a connection, which kept the front of them. -/
  | dataKept (slot : Nat) (source : Ipv4.Address) (segment kept : Bytes)
  | bytesDropped (slot count : Nat)
  | dnsQueried (name : String) (id : UInt16) (server : Ipv4.Address)
  | dnsResolved (name : String) (ip : Ipv4.Address)
  deriving DecidableEq, Repr

namespace Event

inductive Level
  | debug
  | info
  | warn
  deriving DecidableEq, Repr

def Level.name : Level → String
  | debug => "DEBUG"
  | info => "INFO"
  | warn => "WARN"

def number (n : Nat) : String := Numeral.decimal n

def ipText (ip : Ipv4.Address) : String := Ipv4.Address.text ip

def endpoint (ip : Ipv4.Address) (port : UInt16) : String :=
  ipText ip ++ ":" ++ number port.toNat

def socket (slot : Nat) : String := "tcp: sock " ++ number slot

def logged? : Event → Option (Level × String)
  | started device ip mac =>
    some (.debug, "net: stack up on " ++ device ++ " ip=" ++ ipText ip ++ " mac=" ++ mac.text)
  | transmitted _ _ | udpClosed _ | datagramDelivered _ _ | datagramTaken _ | dataKept _ _ _ _ => none
  | receiveFailed device cause =>
    some (.warn, "net: receive on " ++ device ++ " failed: " ++ cause.message)
  | arpRequested target own =>
    some (.debug, "arp: who-has " ++ ipText target ++ " tell " ++ ipText own)
  | arpUnanswered target => some (.warn, "arp: no reply from " ++ ipText target)
  | arpLearned ip mac => some (.debug, "arp: " ++ ipText ip ++ " is-at " ++ mac.text)
  | arpReplyFailed ip cause =>
    some (.debug, "arp: reply to " ++ ipText ip ++ " not sent: " ++ cause.message)
  | badHeaderChecksum source =>
    some (.debug, "ipv4: bad header checksum from " ++ ipText source)
  | pingStarted dest => some (.info, "PING " ++ ipText dest)
  | probeLooped sequence =>
    some (.info, "Reply: seq=" ++ number sequence.toNat ++ " loopback")
  | probeAnswered sequence rtt =>
    some (.info, "Reply: seq=" ++ number sequence.toNat ++ " time=" ++ number rtt.toNat ++ "ms")
  | probeUnresolved => some (.warn, "icmp: " ++ NetError.arpFailed.message)
  | probeFailed sequence cause =>
    some (.warn, "icmp: seq=" ++ number sequence.toNat ++ " " ++ cause.message)
  | pingFinished sent received =>
    some (.info,
      "--- statistics --- sent=" ++ number sent ++ " recv=" ++ number received)
  | echoReplied source sequence =>
    some (.debug,
      "icmp: echo reply from " ++ ipText source ++ " seq=" ++ number sequence.toNat)
  | echoReplyFailed dest cause =>
    some (.debug, "icmp: reply to " ++ ipText dest ++ " failed: " ++ cause.message)
  | udpTableFull => some (.warn, "udp: socket table full")
  | udpOpened slot port =>
    some (.debug, "udp: open sock " ++ number slot ++ " port " ++ number port.toNat)
  | tcpTableFull => some (.warn, "tcp: socket table full")
  | stateChanged slot before after =>
    some (.debug, socket slot ++ " " ++ before.name ++ " -> " ++ after.name)
  | connected ip port => some (.debug, "tcp: connected to " ++ endpoint ip port)
  | connectTimedOut ip port =>
    some (.warn, "tcp: connect to " ++ endpoint ip port ++ " timed out")
  | finNotSent slot cause => some (.debug, socket slot ++ " FIN not sent: " ++ cause.message)
  | ackNotSent slot cause => some (.debug, socket slot ++ " ACK not sent: " ++ cause.message)
  | synAckNotSent slot cause =>
    some (.debug, socket slot ++ " SYN|ACK not sent: " ++ cause.message)
  | noSocket port => some (.debug, "tcp: no socket for port " ++ number port.toNat)
  | connectionReset slot source => some (.warn, socket slot ++ " reset by " ++ ipText source)
  | bytesDropped slot count =>
    some (.debug, socket slot ++ " dropped " ++ number count ++ " bytes")
  | dnsQueried name id server =>
    some (.debug,
      "dns: query " ++ name ++ " id=" ++ number id.toNat ++ " to " ++ ipText server)
  | dnsResolved name ip => some (.info, "dns: " ++ name ++ " -> " ++ ipText ip)

def frame? : Event → Option Bytes
  | transmitted frame _ => some frame
  | _ => none

def udpSlot? : Event → Option Nat
  | udpOpened slot _ | udpClosed slot | datagramDelivered slot _ | datagramTaken slot => some slot
  | _ => none

def line? (e : Event) : Option String :=
  e.logged?.map fun (level, wording) => level.name ++ " " ++ wording

end Event

end InetHost
