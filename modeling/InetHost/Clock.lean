/-! A millisecond clock that moves on whenever it is read: by the paces that are written down for
it, which may be any, and after those by a fixed step, so that a loop which reads it reaches its
deadline. A step of zero freezes it. Time wraps at 64 bits. -/

namespace InetHost

structure Clock where
  now : UInt64
  step : UInt64
  paces : List UInt64 := []
  deriving DecidableEq, Repr

namespace Clock

def read (c : Clock) : UInt64 × Clock :=
  match c.paces with
  | [] => (c.now, { c with now := c.now + c.step })
  | pace :: paces => (c.now, { c with now := c.now + pace, paces })

def advance (c : Clock) (ms : UInt64) : Clock := { c with now := c.now + ms }

/-- The time `ms` after `start`, or the last representable one. -/
def deadline (start ms : UInt64) : UInt64 :=
  UInt64.ofNat (min (start.toNat + ms.toNat) 0xFFFFFFFFFFFFFFFF)

theorem toNat_deadline (start ms : UInt64) :
    (deadline start ms).toNat = min (start.toNat + ms.toNat) 0xFFFFFFFFFFFFFFFF := by
  simp only [deadline, UInt64.toNat_ofNat']
  omega

end Clock

end InetHost
