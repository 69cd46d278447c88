import InetHost.Bytes
import InetHost.Error

/-! What a link device offers the host: it takes whole frames and hands out the frames that have
arrived, one at a time. -/

namespace InetHost.Link

structure Stats where
  rxPackets : Nat := 0
  txPackets : Nat := 0
  rxBytes : Nat := 0
  txBytes : Nat := 0
  rxErrors : Nat := 0
  txErrors : Nat := 0
  rxDropped : Nat := 0
  txDropped : Nat := 0
  deriving DecidableEq, Repr

/-- Receiving the empty frame means that nothing has arrived. -/
class Device (δ : Type) where
  name : δ → String
  transmit : Bytes → δ → Except NetError Unit × δ
  receive : Nat → δ → Except NetError Bytes × δ
  stats : δ → Stats
  length_le_of_receive {capacity : Nat} {d : δ} {frame : Bytes} :
    (receive capacity d).1 = .ok frame → frame.length ≤ capacity

end InetHost.Link
