import InetHost.Bytes

/-! The header of twelve bytes in front of a name service message. -/

namespace InetHost.Dns

def headerLength : Nat := 12

structure Header where
  id : UInt16
  flags : UInt16
  questions : UInt16
  answers : UInt16
  authorities : UInt16
  additionals : UInt16
  deriving DecidableEq, Repr

namespace Header

def encode (h : Header) : Bytes :=
  Bytes.word16 h.id ++ Bytes.word16 h.flags ++ Bytes.word16 h.questions ++
    Bytes.word16 h.answers ++ Bytes.word16 h.authorities ++ Bytes.word16 h.additionals

def decode? (data : Bytes) : Option Header := do
  let (id, data) ← Bytes.read16? data
  let (flags, data) ← Bytes.read16? data
  let (questions, data) ← Bytes.read16? data
  let (answers, data) ← Bytes.read16? data
  let (authorities, data) ← Bytes.read16? data
  let (additionals, _) ← Bytes.read16? data
  some ⟨id, flags, questions, answers, authorities, additionals⟩

def isResponse (h : Header) : Bool := h.flags / 0x8000 = 1

@[simp] theorem length_encode (h : Header) : h.encode.length = headerLength := rfl

@[simp] theorem decode?_encode (h : Header) (rest : Bytes) : decode? (h.encode ++ rest) = some h := by
  simp [decode?, encode]

end Header

end InetHost.Dns
