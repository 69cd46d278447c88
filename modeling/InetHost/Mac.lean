import InetHost.Bytes
import InetHost.Text.Numeral

/-! Hardware addresses of six bytes. The lowest bit of the first byte marks a group of stations. -/

namespace InetHost

structure Mac where
  b0 : UInt8
  b1 : UInt8
  b2 : UInt8
  b3 : UInt8
  b4 : UInt8
  b5 : UInt8
  deriving DecidableEq, Repr

namespace Mac

def zero : Mac := ⟨0, 0, 0, 0, 0, 0⟩

def broadcast : Mac := ⟨0xFF, 0xFF, 0xFF, 0xFF, 0xFF, 0xFF⟩

def bytes (m : Mac) : Bytes := [m.b0, m.b1, m.b2, m.b3, m.b4, m.b5]

def read? : Bytes → Option (Mac × Bytes)
  | a :: b :: c :: d :: e :: f :: rest => some (⟨a, b, c, d, e, f⟩, rest)
  | _ => none

def ofBytesAt (bs : Bytes) (i : Nat) : Except Fault Mac := do
  .ok ⟨← bs.byteAt i, ← bs.byteAt (i + 1), ← bs.byteAt (i + 2), ← bs.byteAt (i + 3),
    ← bs.byteAt (i + 4), ← bs.byteAt (i + 5)⟩

def isBroadcast (m : Mac) : Bool := m = broadcast

def isMulticast (m : Mac) : Bool := m.b0 % 2 = 1

def isUnicast (m : Mac) : Bool := m ≠ zero && !m.isMulticast

def text (m : Mac) : String := ":".intercalate (m.bytes.map fun b => Numeral.hex 2 b.toNat)

@[simp] theorem read?_bytes (m : Mac) (rest : Bytes) : read? (m.bytes ++ rest) = some (m, rest) := rfl

theorem ofBytesAt_eq_ok {bs : Bytes} {i : Nat} (h : i + 5 < bs.length) :
    ofBytesAt bs i = .ok ⟨bs[i], bs[i + 1], bs[i + 2], bs[i + 3], bs[i + 4], bs[i + 5]⟩ := by
  rw [ofBytesAt, Bytes.byteAt_eq_ok (by omega), Bytes.byteAt_eq_ok (by omega),
    Bytes.byteAt_eq_ok (by omega), Bytes.byteAt_eq_ok (by omega), Bytes.byteAt_eq_ok (by omega),
    Bytes.byteAt_eq_ok h]
  rfl

theorem bind_read?_drop {α : Type} {bs : Bytes} {i : Nat} (h : i + 5 < bs.length)
    (f : Mac × Bytes → Option α) : (read? (bs.drop i) >>= f) =
      f (⟨bs[i], bs[i + 1], bs[i + 2], bs[i + 3], bs[i + 4], bs[i + 5]⟩, bs.drop (i + 6)) := by
  rw [List.drop_eq_getElem_cons (by omega), List.drop_eq_getElem_cons (i := i + 1) (by omega),
    List.drop_eq_getElem_cons (i := i + 1 + 1) (by omega),
    List.drop_eq_getElem_cons (i := i + 1 + 1 + 1) (by omega),
    List.drop_eq_getElem_cons (i := i + 1 + 1 + 1 + 1) (by omega), List.drop_eq_getElem_cons h,
    read?]
  rfl

theorem length_of_read? {bs rest : Bytes} {m : Mac} (h : read? bs = some (m, rest)) :
    bs.length = rest.length + 6 := by
  unfold read? at h
  split at h <;> simp_all

end Mac

end InetHost
