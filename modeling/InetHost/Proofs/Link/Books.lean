import Mathlib.Data.List.Perm.Basic
import Mathlib.Algebra.Order.BigOperators.Group.List
import Mathlib.Algebra.Order.Group.Nat
import InetHost.Proofs.Link.Queue

/-! The loopback device keeps its books in balance. Whatever frames it is handed and whatever buffers they
are received into, it is a queue of at most sixteen frames: each frame that it has accepted is received or
lost once, in the order in which the frames came, or is pending. Its statistics count just that. -/

namespace InetHost.Link.Loopback

inductive Call
  | transmit (frame : Bytes)
  | receive (room : Nat)

inductive Answer
  | transmitted (result : Except NetError Unit)
  | received (result : Except NetError Bytes)
  deriving DecidableEq

inductive Entry
  | accepted (frame : Bytes)
  | refused (frame : Bytes)
  | received (frame : Bytes)
  | lost (frame : Bytes)
  | idle
  deriving DecidableEq

def Entry.answer : Entry → Answer
  | accepted _ => .transmitted (.ok ())
  | refused _ => .transmitted (.error .linkError)
  | received frame => .received (.ok frame)
  | lost _ => .received (.error .linkError)
  | idle => .received (.ok [])

def perform (d : Loopback) : Call → Answer × Loopback
  | .transmit frame => (.transmitted (transmit frame d).1, (transmit frame d).2)
  | .receive room => (.received (receive room d).1, (receive room d).2)

def performAll (d : Loopback) : List Call → List Answer × Loopback
  | [] => ([], d)
  | call :: calls =>
    ((d.perform call).1 :: ((d.perform call).2.performAll calls).1,
      ((d.perform call).2.performAll calls).2)

/-- What a call makes of a queue for sixteen frames. -/
inductive Queues : List Bytes → Call → Entry → List Bytes → Prop
  | accept {pending : List Bytes} {frame : Bytes} :
      frame.length ≤ 1514 → pending.length < 16 →
      Queues pending (.transmit frame) (.accepted frame) (pending ++ [frame])
  | refuse {pending : List Bytes} {frame : Bytes} :
      1514 < frame.length ∨ pending.length = 16 →
      Queues pending (.transmit frame) (.refused frame) pending
  | receive {frame : Bytes} {rest : List Bytes} {room : Nat} :
      frame.length ≤ room → Queues (frame :: rest) (.receive room) (.received frame) rest
  | lose {frame : Bytes} {rest : List Bytes} {room : Nat} :
      room < frame.length → Queues (frame :: rest) (.receive room) (.lost frame) rest
  | idle {room : Nat} : Queues [] (.receive room) .idle []

inductive QueuesAll : List Bytes → List Call → List Entry → List Bytes → Prop
  | nil (pending : List Bytes) : QueuesAll pending [] [] pending
  | cons {pending pending' pending'' : List Bytes} {call : Call} {entry : Entry}
      {calls : List Call} {entries : List Entry} :
      Queues pending call entry pending' → QueuesAll pending' calls entries pending'' →
      QueuesAll pending (call :: calls) (entry :: entries) pending''

section History

def Entry.accepted? : Entry → Option Bytes
  | accepted frame => some frame
  | _ => none

def Entry.refused? : Entry → Option Bytes
  | refused frame => some frame
  | _ => none

def Entry.received? : Entry → Option Bytes
  | received frame => some frame
  | _ => none

def Entry.lost? : Entry → Option Bytes
  | lost frame => some frame
  | _ => none

def Entry.taken? : Entry → Option Bytes
  | received frame | lost frame => some frame
  | _ => none

def bytes (frames : List Bytes) : Nat := (frames.map List.length).sum

def Entry.post (stats : Stats) : Entry → Stats
  | accepted frame =>
    { stats with txPackets := stats.txPackets + 1, txBytes := stats.txBytes + frame.length }
  | refused _ => { stats with txDropped := stats.txDropped + 1 }
  | received frame =>
    { stats with rxPackets := stats.rxPackets + 1, rxBytes := stats.rxBytes + frame.length }
  | lost _ => { stats with rxDropped := stats.rxDropped + 1 }
  | idle => stats

def tally (history : List Entry) : Stats where
  txPackets := (history.filterMap Entry.accepted?).length
  txBytes := bytes (history.filterMap Entry.accepted?)
  txDropped := (history.filterMap Entry.refused?).length
  rxPackets := (history.filterMap Entry.received?).length
  rxBytes := bytes (history.filterMap Entry.received?)
  rxDropped := (history.filterMap Entry.lost?).length

variable (history : List Entry)

@[simp] theorem bytes_append (frames frames' : List Bytes) :
    bytes (frames ++ frames') = bytes frames + bytes frames' := by
  rw [bytes, List.map_append, List.sum_append, bytes, bytes]

theorem bytes_le {limit : Nat} {frames : List Bytes} (h : ∀ frame ∈ frames, frame.length ≤ limit) :
    bytes frames ≤ limit * frames.length := by
  have hsum : bytes frames ≤ (frames.map List.length).length • limit :=
    List.sum_le_card_nsmul _ _ (List.forall_mem_map.2 h)
  rw [List.length_map] at hsum
  exact hsum.trans_eq (Nat.mul_comm _ _)

theorem tally_concat (entry : Entry) : tally (history ++ [entry]) = entry.post (tally history) := by
  unfold tally
  simp only [List.filterMap_append, List.length_append, bytes_append]
  cases entry <;> simp [List.filterMap_cons, Entry.post, Entry.accepted?, Entry.refused?,
    Entry.received?, Entry.lost?, bytes]

theorem taken_perm : (history.filterMap Entry.taken?).Perm
    (history.filterMap Entry.received? ++ history.filterMap Entry.lost?) := by
  induction history with
  | nil => exact .nil
  | cons entry history ih =>
    cases entry with
    | received frame => exact ih.cons frame
    | lost frame => exact (ih.cons frame).trans List.perm_middle.symm
    | accepted | refused | idle => exact ih

theorem length_accepted_add_refused_le :
    (history.filterMap Entry.accepted?).length + (history.filterMap Entry.refused?).length ≤
      history.length := by
  induction history with
  | nil => exact Nat.le_refl 0
  | cons entry history ih =>
    cases entry with
    | accepted frame =>
      change (history.filterMap Entry.accepted?).length + 1 + (history.filterMap Entry.refused?).length ≤ _
      rw [Nat.add_right_comm]
      exact Nat.succ_le_succ ih
    | refused frame => exact Nat.succ_le_succ ih
    | received | lost | idle => exact Nat.le_succ_of_le ih

end History

def Holds (frame : Bytes) (entry : Bytes × Nat) : Prop :=
  entry.2 = frame.length ∧ entry.1.take entry.2 = frame

/-- What a device has gone through, and what is pending. -/
structure Books (d : Loopback) (history : List Entry) (pending : List Bytes) : Prop where
  contents : List.Forall₂ Holds pending d.contents
  room : pending.length ≤ 16
  stats : d.stats = tally history
  order : history.filterMap Entry.accepted? = history.filterMap Entry.taken? ++ pending
  short : ∀ frame ∈ history.filterMap Entry.accepted?, frame.length ≤ 1514

namespace Books

variable {d : Loopback} {history : List Entry} {pending : List Bytes}

theorem count_eq (h : Books d history pending) : d.count = pending.length := by
  rw [h.contents.length_eq, length_contents]

theorem empty : Books Loopback.empty [] [] where
  contents := .nil
  room := Nat.zero_le _
  stats := rfl
  order := rfl
  short := nofun

variable {d' : Loopback} {pending' : List Bytes} {call : Call} {entry : Entry}

theorem step (h : Books d history pending) (hq : Queues pending call entry pending')
    (hc : List.Forall₂ Holds pending' d'.contents) (hs : d'.stats = entry.post d.stats) :
    Books d' (history ++ [entry]) pending' where
  contents := hc
  room := by
    have hroom := h.room
    cases hq with
    | accept _ hlt =>
      rw [List.length_append]
      exact hlt
    | receive | lose => exact Nat.le_of_succ_le hroom
    | refuse | idle => exact hroom
  stats := by rw [hs, h.stats, tally_concat]
  order := by
    have horder := h.order
    rw [List.filterMap_append, List.filterMap_append, horder]
    cases hq with
    | accept | refuse | receive | lose | idle =>
      simp [List.filterMap_cons, Entry.accepted?, Entry.taken?]
  short := by
    rw [List.filterMap_append, List.forall_mem_append]
    refine ⟨h.short, ?_⟩
    cases hq with
    | accept hl => exact List.forall_mem_singleton.2 hl
    | refuse | receive | lose | idle => exact nofun

theorem transmit (h : Books d history pending) (frame : Bytes) : ∃ entry pending',
    Queues pending (.transmit frame) entry pending' ∧
      (d.perform (.transmit frame)).1 = entry.answer ∧
      (d.perform (.transmit frame)).2.stats = entry.post d.stats ∧
      Books (d.perform (.transmit frame)).2 (history ++ [entry]) pending' := by
  have hcount := h.count_eq
  by_cases hfull : Ethernet.maxFrame < frame.length ∨ d.count = capacity
  · have hq : Queues pending (.transmit frame) (.refused frame) pending := .refuse (by rwa [← hcount])
    have hd : d.perform (.transmit frame) = (Entry.answer (.refused frame),
        { d with stats := { d.stats with txDropped := d.stats.txDropped + 1 } }) := by
      rw [Loopback.perform, transmit_of_full hfull]
      rfl
    rw [hd]
    exact ⟨_, _, hq, rfl, rfl, h.step hq h.contents rfl⟩
  · obtain ⟨hlong, hcapacity⟩ := not_or.1 hfull
    have hl : frame.length ≤ Ethernet.maxFrame := Nat.le_of_not_lt hlong
    have hlt : pending.length < 16 := Nat.lt_of_le_of_ne h.room (hcount ▸ hcapacity)
    obtain ⟨stale, hr, hcontents, hstats⟩ := contents_transmit (d := d) hl (by rwa [hcount])
    have hq : Queues pending (.transmit frame) (.accepted frame) (pending ++ [frame]) := .accept hl hlt
    have hholds : Holds frame (frame ++ stale, frame.length) := ⟨rfl, List.take_left⟩
    refine ⟨_, _, hq, congrArg Answer.transmitted hr, hstats, h.step hq ?_ hstats⟩
    change List.Forall₂ Holds (pending ++ [frame]) (Loopback.transmit frame d).2.contents
    rw [hcontents]
    exact List.rel_append h.contents (.cons hholds .nil)

theorem receive (h : Books d history pending) (room : Nat) : ∃ entry pending',
    Queues pending (.receive room) entry pending' ∧
      (d.perform (.receive room)).1 = entry.answer ∧
      (d.perform (.receive room)).2.stats = entry.post d.stats ∧
      Books (d.perform (.receive room)).2 (history ++ [entry]) pending' := by
  cases pending with
  | nil =>
    have hd : d.perform (.receive room) = (Entry.answer .idle, d) := by
      rw [Loopback.perform, receive_of_count_eq_zero h.count_eq]
      rfl
    have hq : Queues [] (.receive room) .idle [] := .idle
    rw [hd]
    exact ⟨_, _, hq, rfl, rfl, h.step hq h.contents rfl⟩
  | cons frame rest =>
    obtain ⟨⟨area, length⟩, entries, ⟨rfl, harea⟩, hrest, hentries⟩ :=
      List.forall₂_cons_left_iff.1 h.contents
    obtain ⟨rfl, hr, hstats⟩ := contents_receive room hentries
    rw [harea] at hr
    by_cases hlong : room < frame.length
    · rw [if_pos hlong] at hr hstats
      have hq : Queues (frame :: rest) (.receive room) (.lost frame) rest := .lose hlong
      exact ⟨_, _, hq, congrArg Answer.received hr, hstats, h.step hq hrest hstats⟩
    · rw [if_neg hlong] at hr hstats
      have hq : Queues (frame :: rest) (.receive room) (.received frame) rest :=
        .receive (Nat.le_of_not_lt hlong)
      exact ⟨_, _, hq, congrArg Answer.received hr, hstats, h.step hq hrest hstats⟩

theorem perform (h : Books d history pending) (call : Call) : ∃ entry pending',
    Queues pending call entry pending' ∧ (d.perform call).1 = entry.answer ∧
      (d.perform call).2.stats = entry.post d.stats ∧
      Books (d.perform call).2 (history ++ [entry]) pending' := by
  cases call with
  | transmit frame => exact h.transmit frame
  | receive room => exact h.receive room

theorem performAll (h : Books d history pending) (calls : List Call) : ∃ entries pending',
    QueuesAll pending calls entries pending' ∧
      (d.performAll calls).1 = entries.map Entry.answer ∧
      Books (d.performAll calls).2 (history ++ entries) pending' := by
  induction calls generalizing d history pending with
  | nil => exact ⟨[], pending, .nil pending, rfl, (List.append_nil history).symm ▸ h⟩
  | cons call calls ih =>
    obtain ⟨entry, pending₁, hq, ha, -, h₁⟩ := h.perform call
    obtain ⟨entries, pending₂, hqs, has, h₂⟩ := ih h₁
    rw [List.append_assoc] at h₂
    exact ⟨entry :: entries, pending₂, .cons hq hqs, List.cons_eq_cons.2 ⟨ha, has⟩, h₂⟩

/-- The frames that were accepted have been received, were lost, or are pending. -/
theorem balance (h : Books d history pending) :
    d.stats.txPackets = d.stats.rxPackets + d.stats.rxDropped + d.pending ∧
      d.stats.txBytes =
        d.stats.rxBytes + bytes (history.filterMap Entry.lost?) + bytes pending := by
  have hperm := taken_perm history
  have hbytes := (hperm.map List.length).sum_eq
  rw [List.map_append, List.sum_append] at hbytes
  have hpending : d.pending = pending.length := h.count_eq
  rw [h.stats, hpending]
  dsimp only [tally]
  rw [h.order, List.length_append, bytes_append, hperm.length_eq, List.length_append]
  exact ⟨rfl, congrArg (· + bytes pending) hbytes⟩

end Books

theorem QueuesAll.length_eq {pending pending' : List Bytes} {calls : List Call} {entries : List Entry}
    (h : QueuesAll pending calls entries pending') : entries.length = calls.length := by
  induction h with
  | nil => rfl
  | cons _ _ ih => rw [List.length_cons, List.length_cons, ih]

/-- The device is a queue for sixteen frames, and its statistics count all that has gone through it. -/
theorem loopback_books_balance (calls : List Call) : ∃ (history : List Entry) (pending : List Bytes),
    let d := (Loopback.empty.performAll calls).2
    QueuesAll [] calls history pending ∧
      (Loopback.empty.performAll calls).1 = history.map Entry.answer ∧
      d.pending = pending.length ∧ pending.length ≤ 16 ∧
      history.filterMap Entry.accepted? = history.filterMap Entry.taken? ++ pending ∧
      d.stats = tally history ∧
      d.stats.txPackets = d.stats.rxPackets + d.stats.rxDropped + d.pending ∧
      d.stats.txBytes =
        d.stats.rxBytes + bytes (history.filterMap Entry.lost?) + bytes pending ∧
      d.stats.txPackets + d.stats.txDropped ≤ calls.length ∧
      d.stats.txBytes ≤ 1514 * calls.length ∧
      ∀ call, ∃ entry pending', Queues pending call entry pending' ∧
        (d.perform call).1 = entry.answer ∧ (d.perform call).2.pending = pending'.length ∧
        (d.perform call).2.stats = entry.post d.stats := by
  obtain ⟨history, pending, hqs, ha, h⟩ := Books.empty.performAll calls
  obtain ⟨hpackets, hbytes⟩ := h.balance
  have hcalls := length_accepted_add_refused_le history
  rw [hqs.length_eq] at hcalls
  have hshort := bytes_le h.short
  refine ⟨history, pending, hqs, ha, h.count_eq, h.room, h.order, h.stats, hpackets, hbytes, ?_, ?_,
    fun call => ?_⟩
  · rw [h.stats]
    exact hcalls
  · rw [h.stats]
    exact hshort.trans (Nat.mul_le_mul_left _ (Nat.le_of_add_right_le hcalls))
  · obtain ⟨entry, pending', hq, hr, hs, h'⟩ := h.perform call
    exact ⟨entry, pending', hq, hr, h'.count_eq, hs⟩

end InetHost.Link.Loopback
