/-! Unsigned numerals in a base up to 36: one or more digits, letters of either case standing for
the digits from ten on. -/

namespace InetHost.Numeral

def digit? (base : Nat) (c : Char) : Option Nat :=
  (if '0' ≤ c ∧ c ≤ '9' then some (c.toNat - 48)
    else if 'a' ≤ c ∧ c ≤ 'z' then some (c.toNat - 87)
    else if 'A' ≤ c ∧ c ≤ 'Z' then some (c.toNat - 55)
    else none).filter fun d => d < base

def extend? (base n : Nat) : List Char → Option Nat
  | [] => some n
  | c :: rest => (digit? base c).bind fun d => extend? base (base * n + d) rest

def value? (base : Nat) : List Char → Option Nat
  | [] => none
  | digits => extend? base 0 digits

def octet? (base : Nat) (digits : List Char) : Option UInt8 :=
  ((value? base digits).filter fun v => v < 256).map UInt8.ofNat

def decimal (n : Nat) : String := String.ofList (Nat.toDigits 10 n)

def hex (width n : Nat) : String :=
  let digits := Nat.toDigits 16 n
  String.ofList (List.replicate (width - digits.length) '0' ++ digits)

end InetHost.Numeral
