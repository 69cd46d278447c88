import InetHost.Ethernet.Header
import InetHost.Link.Device

/-! The loopback device: every frame sent is queued for reception, up to sixteen of them. The
queue is a ring of frame areas; an area keeps the end of a longer frame that it held before. -/

namespace InetHost.Link

namespace Loopback

abbrev capacity : Nat := 16

end Loopback

structure Loopback where
  areas : Vector Bytes Loopback.capacity
  lengths : Vector Nat Loopback.capacity
  head : Fin Loopback.capacity
  count : Nat
  stats : Stats
  deriving DecidableEq

namespace Loopback

def empty : Loopback where
  areas := Vector.replicate capacity (List.replicate Ethernet.maxFrame 0)
  lengths := Vector.replicate capacity 0
  head := ⟨0, by decide⟩
  count := 0
  stats := {}

def pending (d : Loopback) : Nat := d.count

def resetStats (d : Loopback) : Loopback := { d with stats := {} }

def slot (d : Loopback) (offset : Nat) : Fin capacity :=
  ⟨(d.head.val + offset) % capacity, Nat.mod_lt _ (by decide)⟩

def transmit (frame : Bytes) (d : Loopback) : Except NetError Unit × Loopback :=
  if Ethernet.maxFrame < frame.length ∨ d.count = capacity then
    (.error .linkError, { d with stats := { d.stats with txDropped := d.stats.txDropped + 1 } })
  else
    let tail := d.slot d.count
    (.ok (),
      { d with
        areas := d.areas.set tail (frame ++ d.areas[tail].drop frame.length)
        lengths := d.lengths.set tail frame.length
        count := d.count + 1
        stats :=
          { d.stats with
            txPackets := d.stats.txPackets + 1
            txBytes := d.stats.txBytes + frame.length } })

/-- A frame that is longer than the buffer is lost. -/
def receive (capacity : Nat) (d : Loopback) : Except NetError Bytes × Loopback :=
  if d.count = 0 then (.ok [], d)
  else
    let length := d.lengths[d.head]
    let rest := { d with head := d.slot 1, count := d.count - 1 }
    if capacity < length then
      (.error .linkError,
        { rest with stats := { d.stats with rxDropped := d.stats.rxDropped + 1 } })
    else
      (.ok (d.areas[d.head].take length),
        { rest with
          stats :=
            { d.stats with
              rxPackets := d.stats.rxPackets + 1
              rxBytes := d.stats.rxBytes + length } })

theorem length_le_of_receive {capacity : Nat} {d : Loopback} {frame : Bytes}
    (h : (receive capacity d).1 = .ok frame) : frame.length ≤ capacity := by
  unfold receive at h
  split at h
  · obtain rfl : [] = frame := by simpa using h
    exact Nat.zero_le _
  · dsimp only at h
    split at h
    · simp at h
    · obtain rfl := Except.ok.inj h
      exact Nat.le_trans (List.length_take_le _ _) (by omega)

instance : Device Loopback where
  name _ := "lo"
  transmit := transmit
  receive := receive
  stats := stats
  length_le_of_receive := length_le_of_receive

end Loopback

end InetHost.Link
