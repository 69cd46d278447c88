import Mathlib.Data.List.Forall2
import InetHost.Proofs.Host.Quiet

/-! What a host says to itself. Whatever a host sends over the loopback device comes back to it, in the
same order; so it can be both ends of a connection. A line shows of a world just what matters then: the
two sockets, what is under way between them, and whether the host knows its own hardware address. -/

namespace InetHost

open Tcp Link

def Event.isOverflow (slot : Slot) : Event → Bool
  | bytesDropped i _ => i == slot.val
  | _ => false

def Tcp.overflows {δ : Type} (slot : Slot) (w : World δ) : Nat :=
  w.journal.countP fun m => m.event.isOverflow slot

/-- Something that a host has sent to itself. -/
inductive Letter
  | segment (header : Tcp.Header) (data : Bytes)
  | packet (packet : Arp.Packet)

def Letter.Borne (own : Ipv4.Address) : Letter → Except NetError Bytes → Prop
  | segment header data, arrival => data.length ≤ Tcp.maxPayload ∧
      ∃ (interface : Interface) (mac : Mac) (id : UInt16), interface.ip = own ∧
        arrival = .ok (Ipv4.wire interface mac own .tcp id (header.segment data own own))
  | packet p, arrival => ∃ dest source : Mac, arrival = .ok (Arp.wire dest source p)

namespace Letter

variable {own : Ipv4.Address} {letter : Letter} {frame : Bytes}

theorem Borne.exists_frame {arrival : Except NetError Bytes} (h : letter.Borne own arrival) :
    ∃ frame, arrival = .ok frame := by
  cases letter with
  | segment header data =>
    obtain ⟨-, _, _, _, -, ha⟩ := h
    exact ⟨_, ha⟩
  | packet p =>
    obtain ⟨_, _, ha⟩ := h
    exact ⟨_, ha⟩

theorem Borne.length_le (h : letter.Borne own (.ok frame)) :
    60 ≤ frame.length ∧ frame.length ≤ Ethernet.maxFrame := by
  cases letter with
  | segment header data =>
    obtain ⟨hl, _, _, _, -, ha⟩ := h
    obtain rfl := Except.ok.inj ha
    simp only [Tcp.maxPayload, Ipv4.maxPayload, Ethernet.mtu, Ipv4.minHeader, minHeader] at hl
    rw [Ipv4.length_wire, Header.length_segment, minHeader, Ethernet.maxFrame]
    omega
  | packet p =>
    obtain ⟨_, _, ha⟩ := h
    obtain rfl := Except.ok.inj ha
    exact ⟨Nat.le_of_ble_eq_true rfl, Nat.le_of_ble_eq_true rfl⟩

end Letter

@[ext]
structure Line where
  own : Ipv4.Address
  known : Bool
  slots : Bool → Slot
  ends : Bool → Socket
  letters : List Letter
  lost : Bool → Nat
  clock : Clock

namespace Line

def put (line : Line) (e : Bool) (s : Socket) : Line :=
  { line with ends := fun e' => if e = e' then s else line.ends e' }

def post (line : Line) (letter : Letter) : Line := { line with letters := line.letters ++ [letter] }

@[simp] theorem ends_put_self (line : Line) (e : Bool) (s : Socket) : (line.put e s).ends e = s :=
  if_pos rfl

theorem ends_post (line : Line) (letter : Letter) (e : Bool) :
    (line.post letter).ends e = line.ends e := rfl

theorem ends_put_of_ne {e e' : Bool} (h : e ≠ e') (line : Line) (s : Socket) :
    (line.put e s).ends e' = line.ends e' :=
  if_neg h

theorem proj_ends_put {α : Type} {line : Line} {e : Bool} {s : Socket} (f : Socket → α)
    (h : f s = f (line.ends e)) (e' : Bool) : f ((line.put e s).ends e') = f (line.ends e') := by
  by_cases he : e = e'
  · subst he
    rw [ends_put_self, h]
  · rw [ends_put_of_ne he]

theorem put_ends (line : Line) (e : Bool) : line.put e (line.ends e) = line := by
  have hends : (fun e' => if e = e' then line.ends e else line.ends e') = line.ends := by
    funext e'
    split
    · rename_i h
      rw [h]
    · rfl
  rw [put, hends]

theorem put_put (line : Line) (e : Bool) (s s' : Socket) :
    (line.put e s).put e s' = line.put e s' := by
  have hends : (fun e' => if e = e' then s' else if e = e' then s else line.ends e') =
      fun e' => if e = e' then s' else line.ends e' := by
    funext e'
    split <;> rfl
  rw [put, put, hends]
  rfl

end Line

/-- A world in which the line is as it is; no other open socket has one of its ports. -/
structure World.Shows (w : World Loopback) (line : Line) : Prop where
  own : w.host.interface.ip = line.own
  known : (w.host.arp.lookup? line.own).isSome = line.known
  apart : line.slots true ≠ line.slots false
  ends (e : Bool) : socketAt (line.slots e) w = line.ends e
  alone (i : Slot) (e : Bool) : (socketAt i w).inUse = true →
    (socketAt i w).localPort = (line.ends e).localPort → i = line.slots e
  letters : List.Forall₂ (Letter.Borne line.own) line.letters w.device.queue
  room : line.letters.length ≤ Loopback.capacity
  lost (e : Bool) : overflows (line.slots e) w = line.lost e
  clock : w.clock = line.clock

def Line.Posted (line : Line) (letter : Letter) (result : Except NetError Unit)
    (w : World Loopback) : Prop :=
  (line.letters.length < 16 ∧ result = .ok () ∧ w.Shows (line.post letter)) ∨
    (16 ≤ line.letters.length ∧ (∃ e, result = .error e) ∧ w.Shows line)

theorem Arp.Cache.isSome_lookup?_add (c : Cache) (ip : Ipv4.Address) (mac : Mac) (now : UInt64) :
    ((c.add ip mac now).lookup? ip).isSome = true := by
  rw [lookup?, Option.isSome_map, Option.isSome_iff_ne_none]
  intro hn
  have hslot := Slots.first?_eq_none_iff.1 hn (c.slotFor ip)
  simp [add] at hslot

namespace World.Shows

variable {w : World Loopback} {line : Line}

theorem slots_inj (h : w.Shows line) {e e' : Bool} (hs : line.slots e = line.slots e') : e = e' := by
  have hapart := h.apart
  cases e <;> cases e'
  · rfl
  · exact absurd hs.symm hapart
  · exact absurd hs hapart
  · rfl

theorem record (h : w.Shows line) {e : Event} (he : ∀ slot, e.isOverflow slot = false) :
    (w.record e).Shows line := by
  refine { h with lost := fun e' => ?_ }
  have hlost := h.lost e'
  unfold overflows at hlost ⊢
  rw [World.journal_record, List.countP_cons, hlost, he]
  rfl

theorem updateSocket (h : w.Shows line) {e : Bool} {f : Socket → Socket}
    (hu : (f (line.ends e)).inUse = (line.ends e).inUse)
    (hp : (f (line.ends e)).localPort = (line.ends e).localPort) :
    (Tcp.updateSocket (line.slots e) f w).Shows (line.put e (f (line.ends e))) := by
  have hat (i : Slot) : socketAt i (Tcp.updateSocket (line.slots e) f w) =
      if line.slots e = i then f (line.ends e) else socketAt i w := by
    rw [socketAt_updateSocket, h.ends]
  have hport (e' : Bool) : ((line.put e (f (line.ends e))).ends e').localPort =
      (line.ends e').localPort := Line.proj_ends_put Socket.localPort hp e'
  refine { h with ends := fun e' => ?_, alone := fun i e' hi hl => ?_ }
  · rw [hat]
    by_cases he : e = e'
    · rw [← he, Line.ends_put_self]
      exact if_pos rfl
    · rw [Line.ends_put_of_ne he]
      exact (if_neg fun hs => he (h.slots_inj hs)).trans (h.ends e')
  · rw [hport] at hl
    rw [hat] at hi hl
    split at hi
    · rename_i hs
      rw [if_pos hs] at hl
      rw [← hs]
      apply h.alone _ e'
      · rw [h.ends, ← hu]
        exact hi
      · rw [h.ends, ← hp]
        exact hl
    · rename_i hs
      rw [if_neg hs] at hl
      exact h.alone i e' hi hl

theorem setState (h : w.Shows line) (e : Bool) (next : State) :
    (Tcp.setState (line.slots e) next w).Shows
      (line.put e { line.ends e with state := next }) := by
  by_cases hs : (socketAt (line.slots e) w).state = next
  · rw [setState_of_eq hs]
    rw [h.ends] at hs
    rw [← hs]
    exact (Line.put_ends line e).symm ▸ h
  · rw [setState_of_ne hs]
    have hrecord : (w.record (.stateChanged (line.slots e) (socketAt (line.slots e) w).state
        next)).Shows line := h.record fun _ => rfl
    exact hrecord.updateSocket rfl rfl

theorem advanceSeq (h : w.Shows line) (e : Bool) (n : UInt32) :
    (Tcp.advanceSeq (line.slots e) n w).Shows
      (line.put e { line.ends e with seq := (line.ends e).seq + n }) :=
  h.updateSocket rfl rfl

theorem setAck (h : w.Shows line) (e : Bool) (ack : UInt32) :
    (Tcp.setAck (line.slots e) ack w).Shows (line.put e { line.ends e with ack }) :=
  h.updateSocket rfl rfl

theorem readClock (h : w.Shows line) :
    w.readClock.2.Shows { line with clock := line.clock.read.2 } := by
  refine { h with clock := ?_ }
  change w.clock.read.2 = _
  rw [h.clock]

theorem learn (h : w.Shows line) (mac : Mac) :
    (Arp.learn line.own mac w).Shows
      { line with known := true, clock := line.clock.read.2 } := by
  refine { h.readClock with known := ?_ }
  exact Arp.Cache.isSome_lookup?_add _ _ _ _

theorem handOver (h : w.Shows line) {letter : Letter} {frame : Bytes}
    (hb : letter.Borne line.own (.ok frame)) :
    line.Posted letter (w.handOver frame).1 (w.handOver frame).2 := by
  have hcount : line.letters.length = w.device.count := by
    rw [h.letters.length_eq, Loopback.length_queue]
  have hlost {device : Loopback} (e : Bool) : overflows (line.slots e) { w with device } =
      line.lost e := h.lost e
  have hsent (failure : Option NetError) (slot : Slot) :
      (Event.transmitted frame failure).isOverflow slot = false := rfl
  by_cases hroom : line.letters.length < 16
  · obtain ⟨hr, -, hq⟩ := Loopback.queue_transmit (d := w.device) hb.length_le.2 (hcount ▸ hroom)
    have hposted : ({ w with device := (Link.Device.transmit frame w.device).2 } :
        World Loopback).Shows (line.post letter) := by
      refine { h with letters := ?_, room := ?_, lost := hlost }
      · change List.Forall₂ _ (line.letters ++ [letter])
          (Loopback.transmit frame w.device).2.queue
        rw [hq]
        exact List.rel_append h.letters (.cons hb .nil)
      · change (line.letters ++ [letter]).length ≤ 16
        rw [List.length_append]
        exact hroom
    exact .inl ⟨hroom, hr, hposted.record (hsent _)⟩
  · have hfull : w.device.count = Loopback.capacity :=
      hcount ▸ Nat.le_antisymm h.room (Nat.le_of_not_lt hroom)
    have hrefused : Ethernet.maxFrame < frame.length ∨ w.device.count = Loopback.capacity :=
      .inr hfull
    obtain ⟨hr, -, hq⟩ := Loopback.queue_transmit_of_full hrefused
    have hkept : ({ w with device := (Link.Device.transmit frame w.device).2 } :
        World Loopback).Shows line := by
      refine { h with letters := ?_, lost := hlost }
      change List.Forall₂ _ line.letters (Loopback.transmit frame w.device).2.queue
      rw [hq]
      exact h.letters
    exact .inr ⟨Nat.le_of_not_lt hroom, ⟨_, hr⟩, hkept.record (hsent _)⟩

theorem takeFrame (h : w.Shows line) {letter : Letter} {rest : List Letter}
    (hl : line.letters = letter :: rest) : ∃ frame, (w.takeFrame Ethernet.maxFrame).1 = .ok frame ∧
      letter.Borne line.own (.ok frame) ∧
      (w.takeFrame Ethernet.maxFrame).2.Shows { line with letters := rest } := by
  have hletters := h.letters
  have hroom := h.room
  rw [hl] at hletters hroom
  obtain ⟨arrival, arrivals, hb, hrest, hq⟩ := List.forall₂_cons_left_iff.1 hletters
  obtain ⟨frame, rfl⟩ := hb.exists_frame
  obtain ⟨hr, -, hq'⟩ := Loopback.queue_receive hq
  refine ⟨frame, hr, hb, { h with letters := ?_, room := ?_, lost := h.lost }⟩
  · change List.Forall₂ _ rest (Loopback.receive Ethernet.maxFrame w.device).2.queue
    rwa [hq']
  · exact Nat.le_of_succ_le hroom

theorem pending_eq_zero (h : w.Shows line) (hl : line.letters = []) : w.device.pending = 0 := by
  have hlength := h.letters.length_eq
  rw [hl, Loopback.length_queue] at hlength
  exact hlength.symm

end World.Shows

namespace Net

variable {w : World Loopback} {line : Line} {handle : Bytes → Net Loopback Unit} {budget : Nat}
  {Q : World Loopback → Prop}

theorem drain_of_silent (h : w.Shows line) (hl : line.letters = []) (hQ : Q w) :
    Finishes (drain handle budget) w fun _ w' => Q w' := by
  cases budget with
  | zero => exact hQ
  | succ budget =>
    rw [drain, finishes_bind, finishes_modifyGet, takeFrame_of_pending_eq_zero (h.pending_eq_zero hl)]
    exact hQ

theorem drain_of_letter (h : w.Shows line) {letter : Letter} {rest : List Letter}
    (hl : line.letters = letter :: rest)
    (hh : ∀ frame w₁, letter.Borne line.own (.ok frame) → w₁.Shows { line with letters := rest } →
      Finishes (handle frame) w₁ fun _ w₂ => Finishes (drain handle budget) w₂ fun _ w' => Q w') :
    Finishes (drain handle (budget + 1)) w fun _ w' => Q w' := by
  obtain ⟨frame, hr, hb, htaken⟩ := h.takeFrame hl
  rw [drain, finishes_bind, finishes_modifyGet, hr]
  split
  · rename_i he
    cases he
  · rename_i he
    obtain rfl := Except.ok.inj he
    exact absurd hb.length_le.1 (by decide)
  · rename_i he
    obtain rfl := Except.ok.inj he
    rw [finishes_bind]
    refine (hh _ _ hb htaken).mono fun _ w₂ h₂ => ?_
    rw [finishes_bind]
    exact h₂

end Net

end InetHost
