import InetHost.Host.World

/-! Waiting. A blocking operation looks whether its condition holds, then at the clock, and then
lets the host poll its device, until the condition holds or the deadline has come. The polling is a
parameter here, because polling may itself lead to waiting. -/

namespace InetHost

/-- How time passes for an operation that waits: at most `rounds` times, the host polls. -/
structure Poller (δ : Type) where
  rounds : Nat
  poll : Net δ Nat

namespace Net

variable {δ : Type}

def waitRounds (poll : Net δ Nat) (deadline : UInt64) (done : Host → Bool) : Nat → Net δ Bool
  | 0 => throw .outOfFuel
  | rounds + 1 => do
    if done (← get).host then
      return true
    else do
      let time ← modifyGet World.readClock
      if deadline ≤ time then
        return false
      else do
        let _ ← poll
        waitRounds poll deadline done rounds

/-- Whether the condition came to hold before `timeout` milliseconds were over. -/
def waitUntil (p : Poller δ) (timeout : UInt64) (done : Host → Bool) : Net δ Bool := do
  let start ← modifyGet World.readClock
  waitRounds p.poll (Clock.deadline start timeout) done p.rounds

end Net

end InetHost
