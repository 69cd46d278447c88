import InetHost.Mac
import InetHost.Ipv4.Address
import InetHost.Slots

/-! The cache of known hardware addresses: sixteen slots, of which the oldest gives way when an
unknown address comes to a full cache. -/

namespace InetHost.Arp

structure Entry where
  ip : Ipv4.Address
  mac : Mac
  lastSeen : UInt64
  valid : Bool
  deriving DecidableEq, Repr

def Entry.unused : Entry := ⟨0, Mac.zero, 0, false⟩

namespace Cache

abbrev capacity : Nat := 16

end Cache

structure Cache where
  entries : Vector Entry Cache.capacity
  deriving DecidableEq

namespace Cache

def empty : Cache := ⟨Vector.replicate capacity Entry.unused⟩

def find? (c : Cache) (ip : Ipv4.Address) : Option (Fin capacity) :=
  Slots.first? fun i => c.entries[i].valid && c.entries[i].ip = ip

def lookup? (c : Cache) (ip : Ipv4.Address) : Option Mac :=
  (c.find? ip).map fun i => c.entries[i].mac

def oldest (c : Cache) : Fin capacity :=
  (List.finRange capacity).foldl
    (fun best i => if c.entries[i].lastSeen < c.entries[best].lastSeen then i else best) 0

/-- Where a mapping for `ip` goes: its own slot, else a free one, else that of the oldest. -/
def slotFor (c : Cache) (ip : Ipv4.Address) : Fin capacity :=
  match c.find? ip with
  | some i => i
  | none => (Slots.first? fun i => !c.entries[i].valid).getD c.oldest

def add (c : Cache) (ip : Ipv4.Address) (mac : Mac) (now : UInt64) : Cache :=
  ⟨c.entries.set (c.slotFor ip) ⟨ip, mac, now, true⟩⟩

def toList (c : Cache) : List Entry := c.entries.toList.filter fun e => e.valid

def length (c : Cache) : Nat := c.toList.length

def isEmpty (c : Cache) : Bool := c.length = 0

end Cache

end InetHost.Arp
