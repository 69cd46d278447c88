import InetHost.Link.Loopback
import InetHost.Proofs.Link.Ration

/-! The loopback device is a queue: what it is handed goes behind what has not been received yet, and
what is received comes from the front. -/

namespace InetHost.Link.Loopback

def arrivalOf (area : Bytes) (length : Nat) : Except NetError Bytes :=
  if Ethernet.maxFrame < length then .error .linkError else .ok (area.take length)

def arrivalAt (d : Loopback) (offset : Nat) : Except NetError Bytes :=
  arrivalOf (d.areas.get (d.slot offset)) (d.lengths.get (d.slot offset))

def queue (d : Loopback) : List (Except NetError Bytes) := (List.range d.count).map d.arrivalAt

@[simp] theorem length_queue (d : Loopback) : d.queue.length = d.count := by
  rw [queue, List.length_map, List.length_range]

def entryAt (d : Loopback) (offset : Nat) : Bytes × Nat :=
  (d.areas.get (d.slot offset), d.lengths.get (d.slot offset))

def contents (d : Loopback) : List (Bytes × Nat) := (List.range d.count).map d.entryAt

@[simp] theorem length_contents (d : Loopback) : d.contents.length = d.count := by
  rw [contents, List.length_map, List.length_range]

theorem queue_eq (d : Loopback) : d.queue = d.contents.map fun entry => arrivalOf entry.1 entry.2 := by
  rw [queue, contents, List.map_map]
  rfl

variable {d : Loopback} {frame : Bytes}

theorem queue_of_count_eq_zero (h : d.count = 0) : d.queue = [] := by
  rw [queue, h]
  rfl

theorem slot_ne_slot_count (hc : d.count < capacity) {offset : Nat} (ho : offset < d.count) :
    d.slot d.count ≠ d.slot offset := by
  intro h
  have hmod : (d.head.val + d.count) % 16 = (d.head.val + offset) % 16 := congrArg Fin.val h
  have hcount : d.count < 16 := hc
  omega

theorem transmit_of_full (h : Ethernet.maxFrame < frame.length ∨ d.count = capacity) :
    transmit frame d =
      (.error .linkError, { d with stats := { d.stats with txDropped := d.stats.txDropped + 1 } }) :=
  if_pos h

theorem queue_transmit_of_full (h : Ethernet.maxFrame < frame.length ∨ d.count = capacity) :
    (transmit frame d).1 = .error .linkError ∧ (transmit frame d).2.count = d.count ∧
      (transmit frame d).2.queue = d.queue := by
  rw [transmit_of_full h]
  exact ⟨rfl, rfl, rfl⟩

theorem contents_transmit (hl : frame.length ≤ Ethernet.maxFrame) (hc : d.count < capacity) :
    ∃ stale, (transmit frame d).1 = .ok () ∧
      (transmit frame d).2.contents = d.contents ++ [(frame ++ stale, frame.length)] ∧
      (transmit frame d).2.stats =
        { d.stats with
          txPackets := d.stats.txPackets + 1
          txBytes := d.stats.txBytes + frame.length } := by
  have hroom : ¬(Ethernet.maxFrame < frame.length ∨ d.count = capacity) := by omega
  refine ⟨d.areas[d.slot d.count].drop frame.length, ?_⟩
  unfold transmit
  rw [if_neg hroom]
  refine ⟨rfl, ?_, rfl⟩
  rw [contents, List.range_succ, List.map_append]
  congr 1
  · apply List.map_congr_left
    intro offset ho
    have hne : (d.slot d.count).val ≠ (d.slot offset).val :=
      Fin.val_ne_of_ne (slot_ne_slot_count hc (List.mem_range.1 ho))
    change ((d.areas.set (d.slot d.count) _)[(d.slot offset).val],
      (d.lengths.set (d.slot d.count) frame.length)[(d.slot offset).val]) = d.entryAt offset
    rw [Vector.getElem_set_ne _ _ hne, Vector.getElem_set_ne _ _ hne]
    rfl
  · change [((d.areas.set (d.slot d.count) _)[(d.slot d.count).val],
      (d.lengths.set (d.slot d.count) frame.length)[(d.slot d.count).val])] = _
    rw [Vector.getElem_set_self, Vector.getElem_set_self]

theorem queue_transmit (hl : frame.length ≤ Ethernet.maxFrame) (hc : d.count < capacity) :
    (transmit frame d).1 = .ok () ∧ (transmit frame d).2.count = d.count + 1 ∧
      (transmit frame d).2.queue = d.queue ++ [.ok frame] := by
  obtain ⟨stale, hr, hcontents, -⟩ := contents_transmit hl hc
  refine ⟨hr, ?_, ?_⟩
  · rw [← length_contents, hcontents, List.length_append, length_contents]
    rfl
  · rw [queue_eq, hcontents, List.map_append, ← queue_eq, List.map_singleton, arrivalOf,
      if_neg (Nat.not_lt.2 hl), List.take_left]

theorem receive_of_count_eq_zero (h : d.count = 0) {room : Nat} : receive room d = (.ok [], d) :=
  if_pos h

theorem contents_receive {area : Bytes} {length : Nat} {rest : List (Bytes × Nat)} (room : Nat)
    (h : d.contents = (area, length) :: rest) :
    (receive room d).2.contents = rest ∧
      (receive room d).1 = (if room < length then .error .linkError else .ok (area.take length)) ∧
      (receive room d).2.stats =
        if room < length then { d.stats with rxDropped := d.stats.rxDropped + 1 }
        else
          { d.stats with
            rxPackets := d.stats.rxPackets + 1
            rxBytes := d.stats.rxBytes + length } := by
  have hcount : d.count = rest.length + 1 := by rw [← length_contents, h, List.length_cons]
  have hhead : d.slot 0 = d.head := Fin.ext (Nat.mod_eq_of_lt d.head.isLt)
  rw [contents, hcount, List.range_succ_eq_map, List.map_cons, List.map_map] at h
  obtain ⟨hfirst, hrest⟩ := List.cons.inj h
  rw [entryAt, hhead] at hfirst
  obtain ⟨harea, hlength⟩ := Prod.mk.inj hfirst
  change d.areas[d.head] = area at harea
  change d.lengths[d.head] = length at hlength
  have hcontents (d' : Loopback) (ha : d'.areas = d.areas) (hl : d'.lengths = d.lengths)
      (hh : d'.head = d.slot 1) (hc : d'.count = d.count - 1) : d'.contents = rest := by
    have hn : d'.count = rest.length := by omega
    rw [contents, hn]
    refine Eq.trans ?_ hrest
    apply List.map_congr_left
    intro offset _
    have hslot : d'.slot offset = d.slot (offset + 1) := by
      apply Fin.ext
      change (d'.head.val + offset) % capacity = (d.head.val + (offset + 1)) % capacity
      rw [hh]
      change ((d.head.val + 1) % capacity + offset) % capacity = _
      rw [Nat.mod_add_mod, Nat.add_assoc, Nat.add_comm 1]
    change d'.entryAt offset = d.entryAt (offset + 1)
    unfold entryAt
    rw [hslot, ha, hl]
  rw [receive, if_neg (by omega)]
  dsimp only
  rw [harea, hlength]
  by_cases hlong : room < length
  · simp only [if_pos hlong, and_true]
    exact hcontents _ rfl rfl rfl rfl
  · simp only [if_neg hlong, and_true]
    exact hcontents _ rfl rfl rfl rfl

theorem queue_receive {arrival : Except NetError Bytes} {rest : List (Except NetError Bytes)}
    (h : d.queue = arrival :: rest) :
    (receive Ethernet.maxFrame d).1 = arrival ∧
      (receive Ethernet.maxFrame d).2.count + 1 = d.count ∧
      (receive Ethernet.maxFrame d).2.queue = rest := by
  rw [queue_eq] at h
  obtain ⟨⟨area, length⟩, entries, hentries, rfl, rfl⟩ := List.map_eq_cons_iff.1 h
  obtain ⟨hcontents, hr, -⟩ := contents_receive Ethernet.maxFrame hentries
  refine ⟨hr, ?_, ?_⟩
  · rw [← length_contents, hcontents, ← length_contents, hentries, List.length_cons]
  · rw [queue_eq, hcontents]

section Ration

/-- What an attempt to receive can cost; one that fails has its place in the queue as well. -/
def due : Except NetError Bytes → Nat
  | .ok frame => cost frame
  | .error _ => 1

theorem one_le_due (arrival : Except NetError Bytes) : 1 ≤ due arrival := by
  cases arrival with
  | ok frame => exact Nat.le_add_right 1 _
  | error e => exact Nat.le_refl 1

theorem due_le (arrival : Except NetError Bytes) : due arrival ≤ 4 := by
  cases arrival with
  | ok frame => exact cost_le frame
  | error e => exact Nat.le_of_ble_eq_true rfl

theorem price_le_due (arrival : Except NetError Bytes) : price arrival ≤ due arrival := by
  unfold price
  split
  · exact Nat.zero_le _
  · exact Nat.le_refl _
  · exact Nat.zero_le _

def dues (d : Loopback) : Nat := (d.queue.map due).sum

theorem sum_due_le (arrivals : List (Except NetError Bytes)) :
    (arrivals.map due).sum ≤ 4 * arrivals.length := by
  induction arrivals with
  | nil => exact Nat.le_refl 0
  | cons arrival arrivals ih =>
    have hfirst := due_le arrival
    rw [List.map_cons, List.sum_cons, List.length_cons]
    omega

theorem dues_le (d : Loopback) : d.dues ≤ 4 * d.count := by
  rw [← length_queue]
  exact sum_due_le d.queue

theorem dues_transmit (frame : Bytes) (hc : d.count ≤ capacity) :
    (transmit frame d).2.count ≤ capacity ∧ (transmit frame d).2.dues ≤ d.dues + cost frame := by
  by_cases h : Ethernet.maxFrame < frame.length ∨ d.count = capacity
  · obtain ⟨-, hcount, hqueue⟩ := queue_transmit_of_full h
    rw [dues, hqueue, hcount]
    exact ⟨hc, Nat.le_add_right _ _⟩
  · have hlt : d.count < capacity := by omega
    have hfits : frame.length ≤ Ethernet.maxFrame := by omega
    obtain ⟨-, hcount, hqueue⟩ := queue_transmit hfits hlt
    rw [dues, hqueue, hcount, List.map_append, List.sum_append]
    exact ⟨hlt, Nat.le_refl _⟩

theorem dues_receive (h : d.count ≠ 0) :
    (receive Ethernet.maxFrame d).2.count + 1 = d.count ∧
      (receive Ethernet.maxFrame d).2.dues + due (receive Ethernet.maxFrame d).1 = d.dues := by
  cases hq : d.queue with
  | nil =>
    have hzero : d.count = 0 := by rw [← length_queue, hq, List.length_nil]
    exact absurd hzero h
  | cons arrival rest =>
    obtain ⟨rfl, hcount, hrest⟩ := queue_receive hq
    refine ⟨hcount, ?_⟩
    rw [dues, dues, hrest, hq, List.map_cons, List.sum_cons, Nat.add_comm]

def ration : Ration Loopback where
  Allows n d := d.count ≤ capacity ∧ d.dues ≤ n
  transmit frame h := by
    obtain ⟨hcount, hdues⟩ := dues_transmit frame h.1
    exact ⟨hcount, Nat.le_trans hdues (Nat.add_le_add_right h.2 _)⟩
  receive {n d} h := by
    change ∃ n', n' + price (receive Ethernet.maxFrame d).1 ≤ n ∧
      (receive Ethernet.maxFrame d).2.count ≤ capacity ∧
      (receive Ethernet.maxFrame d).2.dues ≤ n'
    by_cases hz : d.count = 0
    · rw [receive_of_count_eq_zero hz]
      exact ⟨n, Nat.le_refl _, h⟩
    · obtain ⟨hcount, hdues⟩ := dues_receive hz
      have hprice := price_le_due (receive Ethernet.maxFrame d).1
      have hle := h.1
      have hn := h.2
      exact ⟨_, by omega, by omega, Nat.le_refl _⟩

end Ration

end InetHost.Link.Loopback
