import InetHost.Error
import InetHost.Ethernet.Header

/-! The buffer in which a frame is put together from front to back. An append either fits within
the longest frame or is refused and changes nothing. -/

namespace InetHost.Ethernet

structure FrameBuffer where
  data : Bytes
  deriving DecidableEq, Repr

/-- A step of putting a frame together; a refusal keeps what was appended before. -/
abbrev Assembly := ExceptT NetError (StateM FrameBuffer)

namespace FrameBuffer

def empty : FrameBuffer := ⟨[]⟩

def length (b : FrameBuffer) : Nat := b.data.length

def isEmpty (b : FrameBuffer) : Bool := b.length = 0

def reserve? (b : FrameBuffer) (n : Nat) (fill : UInt8) : Except Fault (Option FrameBuffer) := do
  let total ← addLengths b.length n
  if total ≤ maxFrame then .ok (some ⟨b.data ++ List.replicate n fill⟩) else .ok none

def append? (b : FrameBuffer) (bs : Bytes) : Option FrameBuffer :=
  if b.length + bs.length ≤ maxFrame then some ⟨b.data ++ bs⟩ else none

end FrameBuffer

namespace Assembly

def append (bs : Bytes) : Assembly Unit := do
  match (← get).append? bs with
  | some b => set b
  | none => throw .messageTooLong

def appendHeader (dest source : Mac) (etherType : EtherType) : Assembly Unit :=
  append (Header.encode ⟨dest, source, etherType.toWord⟩)

def frame (steps : Assembly Unit) : Except NetError Bytes :=
  let (outcome, buffer) := steps.run.run FrameBuffer.empty
  outcome.map fun _ => buffer.data

end Assembly

end InetHost.Ethernet
