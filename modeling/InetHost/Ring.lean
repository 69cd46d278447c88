import InetHost.Bytes

/-! A byte queue in a ring of `n` cells. What does not fit is dropped; unread bytes are never
overwritten. Every cell that an operation touches is checked to lie in the ring. -/

namespace InetHost

structure Ring (n : Nat) where
  cells : Vector UInt8 n
  head : Nat
  length : Nat
  deriving DecidableEq

namespace Ring

variable {n : Nat}

def empty : Ring n := ⟨Vector.replicate n 0, 0, 0⟩

def isEmpty (r : Ring n) : Bool := r.length = 0

def free (r : Ring n) : Except Fault Nat :=
  if r.length ≤ n then .ok (n - r.length) else .error .overflow

def store (cells : Vector UInt8 n) (tail : Nat) : Bytes → Except Fault (Vector UInt8 n)
  | [] => .ok cells
  | b :: rest =>
    if h : tail < n then do
      let next ← modLength (tail + 1) n
      store (cells.set tail b h) next rest
    else .error .outOfBounds

def fetch (cells : Vector UInt8 n) (head : Nat) : Nat → Except Fault (Bytes × Nat)
  | 0 => .ok ([], head)
  | count + 1 =>
    if h : head < n then do
      let next ← modLength (head + 1) n
      let (bs, last) ← fetch cells next count
      .ok (cells[head] :: bs, last)
    else .error .outOfBounds

def push (r : Ring n) (data : Bytes) : Except Fault (Ring n × Nat) := do
  let free ← r.free
  let count := min data.length free
  let tail ← modLength (r.head + r.length) n
  let cells ← store r.cells tail (data.take count)
  .ok (⟨cells, r.head, r.length + count⟩, count)

/-- Takes out the oldest bytes, at most `count`. An emptied ring starts over at its first cell. -/
def pop (r : Ring n) (count : Nat) : Except Fault (Ring n × Bytes) := do
  let count := min count r.length
  let (bs, head) ← fetch r.cells r.head count
  let length := r.length - count
  .ok (⟨r.cells, if length = 0 then 0 else head, length⟩, bs)

def clear (r : Ring n) : Ring n := { r with head := 0, length := 0 }

def toList (r : Ring n) : Bytes :=
  (List.range r.length).map fun i => r.cells[(r.head + i) % n]?.getD 0

@[simp] theorem length_toList (r : Ring n) : r.toList.length = r.length := by simp [toList]

@[simp] theorem toList_clear (r : Ring n) : r.clear.toList = [] := rfl

end Ring

end InetHost
