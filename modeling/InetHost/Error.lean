/-! The causes for which an operation of the host can fail, their numbers and their wording. -/

namespace InetHost

inductive NetError
  | timeout
  | messageTooLong
  | badHandle
  | noFreeSocket
  | invalidState
  | arpFailed
  | linkError
  | invalidArgument
  | connectionReset
  | dnsNoResponse
  | dnsIdMismatch
  | dnsNotResponse
  | dnsNoAnswers
  | dnsNoARecord
  deriving DecidableEq, Repr

namespace NetError

def all : List NetError :=
  [timeout, messageTooLong, badHandle, noFreeSocket, invalidState, arpFailed, linkError,
    invalidArgument, connectionReset, dnsNoResponse, dnsIdMismatch, dnsNotResponse, dnsNoAnswers,
    dnsNoARecord]

def code : NetError → Nat
  | timeout => 1
  | messageTooLong => 2
  | badHandle => 3
  | noFreeSocket => 4
  | invalidState => 5
  | arpFailed => 6
  | linkError => 7
  | invalidArgument => 8
  | connectionReset => 9
  | dnsNoResponse => 10
  | dnsIdMismatch => 11
  | dnsNotResponse => 12
  | dnsNoAnswers => 13
  | dnsNoARecord => 14

def status (e : NetError) : Int := -(e.code : Int)

def message : NetError → String
  | timeout => "Timeout"
  | messageTooLong => "Message too long"
  | badHandle => "Bad socket handle"
  | noFreeSocket => "No free socket"
  | invalidState => "Invalid connection state"
  | arpFailed => "ARP failed"
  | linkError => "Link error"
  | invalidArgument => "Invalid argument"
  | connectionReset => "Connection reset by peer"
  | dnsNoResponse => "No response from DNS server"
  | dnsIdMismatch => "DNS transaction id mismatch"
  | dnsNotResponse => "DNS packet is not a response"
  | dnsNoAnswers => "DNS response has no answers"
  | dnsNoARecord => "No A record in DNS response"

theorem mem_all (e : NetError) : e ∈ all := by cases e <;> decide

theorem map_code_all : all.map code = List.range' 1 14 := rfl

end NetError

end InetHost
