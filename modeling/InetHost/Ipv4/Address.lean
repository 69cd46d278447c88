import InetHost.Bytes
import InetHost.Text.Numeral

/-! Internet addresses as 32-bit words, their dotted-quad text, the classes the host tells apart,
and the next hop: a destination on the own subnet itself, the gateway for every other one. -/

namespace InetHost.Ipv4

abbrev Address := UInt32

namespace Address

def broadcast : Address := 0xFFFFFFFF

def isBroadcast (ip : Address) : Bool := ip = broadcast

def isLoopback (ip : Address) : Bool := ip / 16777216 = 127

def sameSubnet (a b netmask : Address) : Bool := a &&& netmask = b &&& netmask

/-- The address to resolve when sending to `dest`. -/
def nextHop (dest own netmask gateway : Address) : Address :=
  if sameSubnet dest own netmask then dest else gateway

def text (ip : Address) : String :=
  ".".intercalate ((Bytes.word32 ip).map fun b => Numeral.decimal b.toNat)

def part? (part : List Char) : Option UInt8 :=
  if part.length ≤ 3 then Numeral.octet? 10 part else none

def ofParts? : List UInt8 → Option Address
  | [a, b, c, d] => some (Bytes.join32 a b c d)
  | _ => none

def parse? (text : String) : Option Address :=
  ((text.toList.splitOn '.').mapM part?).bind ofParts?

end Address

end InetHost.Ipv4
