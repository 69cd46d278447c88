import InetHost.Proofs.Ring.Queue

/-! A ring is a bounded queue, whatever is done with it and in whatever order. A queue is known by its
content alone: it takes the longest beginning of the data that it has room for, and gives out what came
first. A ring does the same, and on the way it comes to no cell that it does not have. -/

namespace InetHost.Ring

inductive Call
  | push (data : Bytes)
  | pop (capacity : Nat)
  | clear

inductive Answer
  | stored (count : Nat)
  | taken (data : Bytes)
  | cleared
  deriving DecidableEq

variable {n : Nat}

def perform (r : Ring n) : Call → Except Fault (Ring n × Answer)
  | .push data => do
    let (r', count) ← r.push data
    .ok (r', .stored count)
  | .pop capacity => do
    let (r', data) ← r.pop capacity
    .ok (r', .taken data)
  | .clear => .ok (r.clear, .cleared)

def performAll (r : Ring n) : List Call → Except Fault (Ring n × List Answer)
  | [] => .ok (r, [])
  | call :: calls => do
    let (r', answer) ← r.perform call
    let (r'', answers) ← r'.performAll calls
    .ok (r'', answer :: answers)

/-- The longest beginning of the data that a queue has room for. -/
structure Longest (room : Nat) (data stored : Bytes) : Prop where
  isBeginning : stored <+: data
  length_le : stored.length ≤ room
  longest : ∀ other, other <+: data → other.length ≤ room → other.length ≤ stored.length

/-- What a call makes of a queue for at most `n` bytes. -/
inductive Queues (n : Nat) : Bytes → Call → Answer → Bytes → Prop
  | push {queue data stored : Bytes} :
      Longest (n - queue.length) data stored →
      Queues n queue (.push data) (.stored stored.length) (queue ++ stored)
  | pop {oldest rest : Bytes} {capacity : Nat} :
      oldest.length = min capacity (oldest ++ rest).length →
      Queues n (oldest ++ rest) (.pop capacity) (.taken oldest) rest
  | clear {queue : Bytes} : Queues n queue .clear .cleared []

inductive QueuesAll (n : Nat) : Bytes → List Call → List Answer → Bytes → Prop
  | nil (queue : Bytes) : QueuesAll n queue [] [] queue
  | cons {queue queue' queue'' : Bytes} {call : Call} {answer : Answer} {calls : List Call}
      {answers : List Answer} :
      Queues n queue call answer queue' → QueuesAll n queue' calls answers queue'' →
      QueuesAll n queue (call :: calls) (answer :: answers) queue''

def Unread (r : Ring n) (cell : Fin n) : Prop := ∃ i < r.length, (r.head + i) % n = cell

theorem longest_take (room : Nat) (data : Bytes) :
    Longest room data (data.take (min data.length room)) where
  isBeginning := List.take_prefix _ _
  length_le := by
    rw [List.length_take]
    omega
  longest := by
    intro other hp hl
    have hle := hp.length_le
    rw [List.length_take]
    omega

variable {r r' : Ring n}

theorem Valid.length_pop {data : Bytes} {capacity : Nat} (h : r.Valid)
    (hp : r.pop capacity = .ok (r', data)) : data.length = min capacity r.length := by
  obtain ⟨bs, last, hf, -⟩ := fetch_eq_ok r.cells (min capacity r.length) h.head_lt
  change (fetch r.cells r.head (min capacity r.length) >>= _) = _ at hp
  rw [hf] at hp
  obtain ⟨-, rfl⟩ := Prod.mk.inj (Except.ok.inj hp)
  obtain ⟨rfl, -⟩ := fetch_eq h.head_lt hf
  rw [List.length_map, List.length_range]

theorem cells_pop {data : Bytes} {capacity : Nat} (hp : r.pop capacity = .ok (r', data)) :
    r'.cells = r.cells := by
  change (fetch r.cells r.head (min capacity r.length) >>= _) = _ at hp
  cases hf : fetch r.cells r.head (min capacity r.length) with
  | error e =>
    rw [hf] at hp
    cases hp
  | ok fetched =>
    rw [hf] at hp
    obtain ⟨rfl, -⟩ := Prod.mk.inj (Except.ok.inj hp)
    rfl

theorem Unread.get_eq {cell : Fin n} (hu : r.Unread cell)
    (h : ∀ i, i < r.length → cellAt r'.cells (r.head + i) = cellAt r.cells (r.head + i)) :
    r'.cells.get cell = r.cells.get cell := by
  obtain ⟨i, hi, hc⟩ := hu
  have hcell := h i hi
  have hget (cells : Vector UInt8 n) : cellAt cells (r.head + i) = cells.get cell := by
    rw [← Nat.zero_add (r.head + i), Nat.add_comm, ← cellAt_mod, hc]
    exact cellAt_of_lt cells cell.isLt
  rwa [hget, hget] at hcell

/-- Every call succeeds and does what it does to a queue; no unread cell is written. -/
theorem Valid.perform (h : r.Valid) (call : Call) : ∃ r' answer,
    r.perform call = .ok (r', answer) ∧ r'.Valid ∧ Queues n r.toList call answer r'.toList ∧
      ∀ cell, r.Unread cell → r'.cells.get cell = r.cells.get cell := by
  cases call with
  | push data =>
    obtain ⟨r', count, hp, hv, -⟩ := h.push_eq_ok data
    obtain ⟨hcount, hlist⟩ := h.toList_push hp
    have hlongest : Longest (n - r.toList.length) data (data.take count) := by
      rw [length_toList, hcount]
      exact longest_take _ data
    have hlength : (data.take count).length = count := by
      rw [List.length_take]
      omega
    refine ⟨r', .stored count, ?_, hv, ?_, fun cell hu => hu.get_eq fun i hi => h.cellAt_push hp hi⟩
    · rw [Ring.perform, hp]
      rfl
    · have hqueues := Queues.push hlongest
      rwa [hlength, ← hlist] at hqueues
  | pop capacity =>
    obtain ⟨r', data, hp, hv⟩ := h.pop_eq_ok capacity
    have hlist := h.toList_pop hp
    refine ⟨r', .taken data, ?_, hv, ?_, fun cell _ => by rw [cells_pop hp]⟩
    · rw [Ring.perform, hp]
      rfl
    · rw [hlist]
      refine .pop ?_
      rw [← hlist, length_toList]
      exact h.length_pop hp
  | clear =>
    have hv : r.clear.Valid := r.valid_clear (Nat.zero_lt_of_lt h.head_lt)
    exact ⟨r.clear, .cleared, rfl, hv, .clear, fun _ _ => rfl⟩

theorem Valid.performAll (h : r.Valid) (calls : List Call) : ∃ r' answers,
    r.performAll calls = .ok (r', answers) ∧ r'.Valid ∧
      QueuesAll n r.toList calls answers r'.toList := by
  induction calls generalizing r with
  | nil => exact ⟨r, [], rfl, h, .nil _⟩
  | cons call calls ih =>
    obtain ⟨r₁, answer, hp, hv, hq, -⟩ := h.perform call
    obtain ⟨r₂, answers, hps, hvs, hqs⟩ := ih hv
    refine ⟨r₂, answer :: answers, ?_, hvs, .cons hq hqs⟩
    rw [Ring.performAll, hp]
    change (r₁.performAll calls >>= _) = _
    rw [hps]
    rfl

/-- A ring with at least one cell is a bounded queue, and never leaves its cells. -/
theorem rings_are_bounded_queues (hn : 0 < n) (calls : List Call) : ∃ (r : Ring n) (answers : List Answer),
    Ring.empty.performAll calls = .ok (r, answers) ∧ QueuesAll n [] calls answers r.toList ∧
      (∃ free, r.free = .ok free ∧ r.length + free = n) ∧ r.length = r.toList.length ∧
      ∀ call, ∃ r' answer, r.perform call = .ok (r', answer) ∧
        Queues n r.toList call answer r'.toList ∧
        ∀ cell, r.Unread cell → r'.cells.get cell = r.cells.get cell := by
  obtain ⟨r, answers, hps, hv, hqs⟩ := (valid_empty hn).performAll calls
  refine ⟨r, answers, hps, hqs, ⟨n - r.length, if_pos hv.length_le, Nat.add_sub_of_le hv.length_le⟩,
    r.length_toList.symm, fun call => ?_⟩
  obtain ⟨r', answer, hp, -, hq, hu⟩ := hv.perform call
  exact ⟨r', answer, hp, hq, hu⟩

def aroundTheEnd : List Call :=
  [.push [97, 98, 99, 100, 101, 102], .pop 4, .push [103, 104, 105, 106, 107, 108, 109], .pop 16]

theorem rings_are_bounded_queues_around_the_end : 0 < 8 ∧ ∃ (r : Ring 8) (answers : List Answer),
    Ring.empty.performAll aroundTheEnd = .ok (r, answers) ∧
      QueuesAll 8 [] aroundTheEnd answers r.toList ∧
      answers = [.stored 6, .taken [97, 98, 99, 100], .stored 6,
        .taken [101, 102, 103, 104, 105, 106, 107, 108]] ∧ r.toList = [] := by
  obtain ⟨r, answers, hrun, hqueues, -⟩ := rings_are_bounded_queues (n := 8) (by decide) aroundTheEnd
  refine ⟨by decide, r, answers, hrun, hqueues, ?_⟩
  have hresult : (Ring.empty : Ring 8).performAll aroundTheEnd =
      .ok (⟨#v[105, 106, 107, 108, 101, 102, 103, 104], 0, 0⟩,
        [.stored 6, .taken [97, 98, 99, 100], .stored 6,
          .taken [101, 102, 103, 104, 105, 106, 107, 108]]) := rfl
  obtain ⟨rfl, rfl⟩ := Prod.mk.inj (Except.ok.inj (hrun.symm.trans hresult))
  exact ⟨rfl, rfl⟩

end InetHost.Ring
