/-! Steps that no host may take: touching a byte outside a buffer, adding lengths past the width
of a machine word, dividing by zero. An operation that could take one returns in `Except Fault`,
so that its absence is something to prove. -/

namespace InetHost

inductive Fault
  | outOfBounds
  | overflow
  | divisionByZero
  deriving DecidableEq, Repr

/-- Lengths are machine words of 64 bits. -/
def lengthBound : Nat := 0x10000000000000000

def addLengths (m n : Nat) : Except Fault Nat :=
  if m + n < lengthBound then .ok (m + n) else .error .overflow

def subLengths (m n : Nat) : Except Fault Nat :=
  if n ≤ m then .ok (m - n) else .error .overflow

def modLength (m n : Nat) : Except Fault Nat :=
  if n = 0 then .error .divisionByZero else .ok (m % n)

theorem addLengths_eq_ok {m n : Nat} (h : m + n < lengthBound) : addLengths m n = .ok (m + n) :=
  if_pos h

theorem subLengths_eq_ok {m n : Nat} (h : n ≤ m) : subLengths m n = .ok (m - n) :=
  if_pos h

theorem modLength_eq_ok {n : Nat} (m : Nat) (h : 0 < n) : modLength m n = .ok (m % n) :=
  if_neg (Nat.ne_of_gt h)

end InetHost
