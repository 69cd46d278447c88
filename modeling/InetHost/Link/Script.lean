import InetHost.Link.Device

/-! A scripted device: what arrives is written down beforehand, some of it in reaction to frames
that are sent, and so are the calls of transmit that fail. -/

namespace InetHost.Link

inductive Arrival
  | frame (bytes : Bytes)
  | gap
  | failure (cause : NetError)
  deriving DecidableEq, Repr

structure Script where
  queue : List Arrival
  calls : Nat
  refusals : List (Nat × NetError)
  /-- What arrives in reaction to the calls with these numbers. -/
  reactions : List (Nat × List Arrival)
  deriving DecidableEq, Repr

namespace Script

def name : String := "script0"

def transmit (_ : Bytes) (d : Script) : Except NetError Unit × Script :=
  let d' := { d with calls := d.calls + 1 }
  match d.refusals.lookup d.calls with
  | some cause => (.error cause, d')
  | none => (.ok (), { d' with queue := d.queue ++ (d.reactions.lookup d.calls).getD [] })

def receive (capacity : Nat) (d : Script) : Except NetError Bytes × Script :=
  match d.queue with
  | [] => (.ok [], d)
  | .gap :: rest => (.ok [], { d with queue := rest })
  | .failure cause :: rest => (.error cause, { d with queue := rest })
  | .frame bytes :: rest =>
    (if bytes.length ≤ capacity then .ok bytes else .error .linkError, { d with queue := rest })

def inject (more : List Arrival) (d : Script) : Script := { d with queue := d.queue ++ more }

theorem length_le_of_receive {capacity : Nat} {d : Script} {frame : Bytes}
    (h : (receive capacity d).1 = .ok frame) : frame.length ≤ capacity := by
  unfold receive at h
  split at h
  · obtain rfl : [] = frame := by simpa using h
    exact Nat.zero_le _
  · obtain rfl : [] = frame := by simpa using h
    exact Nat.zero_le _
  · simp at h
  · dsimp only at h
    split at h
    · obtain rfl := Except.ok.inj h
      assumption
    · simp at h

instance : Device Script where
  name _ := name
  transmit := transmit
  receive := receive
  stats _ := {}
  length_le_of_receive := length_le_of_receive

end Script

end InetHost.Link
