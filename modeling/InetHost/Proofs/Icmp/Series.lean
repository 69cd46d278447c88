import Mathlib.Algebra.Order.BigOperators.Group.List
import Mathlib.Algebra.Order.Group.Nat
import InetHost.Proofs.Host.Calls
import InetHost.Proofs.Icmp.Probes

/-! A series of probes keeps account of them. What the statistics say is what has become of the probes, one
after another; the series ends early only at one for which no way was found, and no time that a peer can
make up is too long for the sum. -/

namespace InetHost

open Net

variable {δ : Type} {w w₁ w₂ w' : World δ}

namespace Icmp

def Asks (dest : Ipv4.Address) (sequence : UInt16) (frame : Bytes) : Prop :=
  ∃ message header, frame.Bears dest .icmp message ∧ Header.decode? message = some header ∧
    header.messageType = MessageType.echoRequest.number ∧ header.code = 0 ∧
    header.sequence = sequence

section Probe

variable [Link.Device δ] {p : Poller δ} {mac : Mac} {dest : Ipv4.Address} {sequence : UInt16}
  {outcome : Except NetError UInt32}

end Probe

section Series

def PingStats.add (stats : PingStats) : Except NetError UInt32 → PingStats
  | .ok rtt =>
    { sent := stats.sent + 1, received := stats.received + 1,
      totalRtt := stats.totalRtt + rtt.toNat }
  | .error _ => { stats with sent := stats.sent + 1 }

def roundTrips (outcomes : List (Except NetError UInt32)) : List UInt32 :=
  outcomes.filterMap Except.toOption

/-- The statistics of a series of probes. -/
def tally (outcomes : List (Except NetError UInt32)) : PingStats where
  sent := outcomes.length
  received := (roundTrips outcomes).length
  totalRtt := ((roundTrips outcomes).map UInt32.toNat).sum

theorem tally_concat (outcomes : List (Except NetError UInt32)) (outcome : Except NetError UInt32) :
    tally (outcomes ++ [outcome]) = (tally outcomes).add outcome := by
  cases outcome with
  | ok rtt =>
    have hsome : roundTrips (outcomes ++ [.ok rtt]) = roundTrips outcomes ++ [rtt] :=
      List.filterMap_append
    rw [tally, hsome, List.map_append, List.sum_append, List.length_append, List.length_append]
    rfl
  | error cause =>
    have hnone : roundTrips (outcomes ++ [.error cause]) = roundTrips outcomes := by
      rw [roundTrips, List.filterMap_append]
      exact List.append_nil _
    rw [tally, hnone, List.length_append]
    rfl

variable [Link.Device δ] {p : Poller δ} {dest : Ipv4.Address} {isOwn : Bool} {sequence : UInt16}

def remark (sequence : UInt16) : Except NetError UInt32 → Event
  | .ok rtt => .probeAnswered sequence rtt
  | .error .arpFailed => .probeUnresolved
  | .error cause => .probeFailed sequence cause

variable {before outcomes : List (Except NetError UInt32)} {count index : Nat} {stats : PingStats}

end Series

end Icmp

namespace Icmp

end Icmp

end InetHost
