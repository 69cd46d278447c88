import InetHost.Bytes

/-! The Internet checksum: the ones' complement of the ones' complement sum of the 16-bit words of
a message, an odd last byte counting as the high byte of a word. -/

namespace InetHost.Checksum

def add (sum : UInt32) : Bytes → UInt32
  | a :: b :: rest => add (sum + UInt32.ofNat (a.toNat * 256 + b.toNat)) rest
  | [a] => sum + UInt32.ofNat (a.toNat * 256)
  | [] => sum

def carry (sum : UInt32) : UInt32 := sum % 65536 + sum / 65536

def fold (sum : UInt32) : UInt16 := 0xFFFF - (carry (carry sum)).toUInt16

def ofBytes (data : Bytes) : UInt16 := fold (add 0 data)

def verifies (data : Bytes) : Bool := ofBytes data = 0

def pseudoHeader (source dest : UInt32) (protocol : UInt8) (length : UInt16) : Bytes :=
  Bytes.word32 source ++ Bytes.word32 dest ++ [0, protocol] ++ Bytes.word16 length

def pseudoHeaderSum (source dest : UInt32) (protocol : UInt8) (length : UInt16) : UInt32 :=
  add 0 (pseudoHeader source dest protocol length)

/-- The checksum of a segment behind its pseudo header, which keeps the low 16 bits of its length. -/
def transport (source dest : UInt32) (protocol : UInt8) (segment : Bytes) : UInt16 :=
  fold (add (pseudoHeaderSum source dest protocol (UInt16.ofNat segment.length)) segment)

theorem toNat_carry (sum : UInt32) : (carry sum).toNat = sum.toNat % 65536 + sum.toNat / 65536 := by
  have := sum.toNat_lt
  simp only [carry, UInt32.toNat_add, UInt32.toNat_mod, UInt32.toNat_div]
  simp
  omega

theorem carry_carry_lt (sum : UInt32) : (carry (carry sum)).toNat < 65536 := by
  have := sum.toNat_lt
  rw [toNat_carry, toNat_carry]
  omega

end InetHost.Checksum
