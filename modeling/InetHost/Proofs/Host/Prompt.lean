import InetHost.Proofs.Host.Finishes
import InetHost.Proofs.Host.Reception

/-! Sending to a station that is known. Nothing has to be waited for then, and so no frame is read
between the order to send and the moment when the device gets the frame. -/

namespace InetHost

open Tcp

variable {δ : Type} {w w₁ w' : World δ}

namespace World

theorem filterMap_events_of_journal_eq_cons {β : Type} (f : Event → Option β) {m : Moment}
    (h : w'.journal = m :: w.journal) :
    w'.events.filterMap f = w.events.filterMap f ++ (f m.event).toList := by
  rw [events_eq_concat h, List.filterMap_append]
  cases hf : f m.event with
  | none => rw [List.filterMap_cons_none hf]; rfl
  | some b => rw [List.filterMap_cons_some hf]; rfl

theorem frames_of_journal_eq_cons {m : Moment} (h : w'.journal = m :: w.journal) :
    w'.frames = w.frames ++ m.event.frame?.toList :=
  filterMap_events_of_journal_eq_cons Event.frame? h

theorem frames_record (w : World δ) {e : Event} (h : e.frame? = none) :
    (w.record e).frames = w.frames := by
  rw [frames_of_journal_eq_cons (journal_record e w), h, Option.toList_none, List.append_nil]

/-- One frame goes out, and nothing else of the host changes but its next identifier. -/
structure HandsOver (w : World δ) (frame : Bytes) (w' : World δ) : Prop where
  host : w'.host = (Ipv4.takeId w).2.host
  frames : w'.frames = w.frames ++ [frame]

namespace HandsOver

variable {frame : Bytes}

theorem tcp_eq (h : w.HandsOver frame w') : w'.host.tcp = w.host.tcp := by
  rw [h.host]
  rfl

theorem socketAt_eq (h : w.HandsOver frame w') (i : Slot) : socketAt i w' = socketAt i w :=
  socketAt_congr i w h.tcp_eq

theorem record (h : w.HandsOver frame w₁) {e : Event} (he : e.frame? = none) :
    w.HandsOver frame (w₁.record e) where
  host := h.host
  frames := (frames_record w₁ he).trans h.frames

end HandsOver

variable [Link.Device δ]

theorem handsOver_dispatch (mac : Mac) (dest : Ipv4.Address) (protocol : Ipv4.Protocol)
    (payload : Bytes) (w : World δ) :
    w.HandsOver (Ipv4.wire w.host.interface mac dest protocol w.host.nextPacketId payload)
      (w.dispatch mac dest protocol payload) := by
  refine ⟨rfl, ?_⟩
  obtain ⟨failure, hj⟩ := journal_dispatch mac dest protocol payload w
  exact frames_of_journal_eq_cons hj

end World

def World.frameOf (w : World δ) (mac : Mac) (s : Socket) (flags : Flags) (data : Bytes) : Bytes :=
  Ipv4.wire w.host.interface mac s.remoteIp .tcp w.host.nextPacketId
    (s.segment w.host.interface.ip flags data)

structure World.Adjusts (w w' : World δ) : Prop where
  host : w'.host = { w.host with tcp := w'.host.tcp }
  nextSeq : w'.host.tcp.nextSeq = w.host.tcp.nextSeq
  frames : w'.frames = w.frames

namespace World.Adjusts

variable {slot : Slot} {next : State}

theorem refl (w : World δ) : w.Adjusts w := ⟨rfl, rfl, rfl⟩

theorem trans (h : w.Adjusts w₁) (h' : w₁.Adjusts w') : w.Adjusts w' where
  host := by rw [h'.host, h.host]
  nextSeq := h'.nextSeq.trans h.nextSeq
  frames := h'.frames.trans h.frames

theorem hop?_eq (h : w.Adjusts w') (ip : Ipv4.Address) : w'.hop? ip = w.hop? ip := by
  rw [hop?, hop?, h.host]

theorem frameOf_eq (h : w.Adjusts w') (mac : Mac) (s : Socket) (flags : Flags) (data : Bytes) :
    w'.frameOf mac s flags data = w.frameOf mac s flags data := by
  rw [frameOf, frameOf, h.host]

theorem record (w : World δ) {e : Event} (he : e.frame? = none) : w.Adjusts (w.record e) :=
  ⟨rfl, rfl, frames_record w he⟩

theorem updateSocket (f : Socket → Socket) (w : World δ) : w.Adjusts (updateSocket slot f w) :=
  ⟨rfl, rfl, rfl⟩

theorem setState (w : World δ) : w.Adjusts (setState slot next w) := by
  by_cases h : (socketAt slot w).state = next
  · rw [setState_of_eq h]
    exact refl w
  · rw [setState_of_ne h]
    exact (record w rfl).trans (updateSocket _ _)

theorem release (w : World δ) : w.Adjusts (release slot w) :=
  (setState w).trans (updateSocket _ _)

theorem handleReset (source : Ipv4.Address) (w : World δ) :
    w.Adjusts (handleReset slot (socketAt slot w).state source w) := by
  by_cases h : (socketAt slot w).state = .listen ∨ (socketAt slot w).state = .closed
  · rw [handleReset_of_dead h]
    exact refl w
  · obtain ⟨hl, hc⟩ := not_or.1 h
    rw [handleReset_of_alive hl hc]
    exact ((record w rfl).trans (updateSocket _ _)).trans (setState _)

theorem keepData (buffer : Ring bufferSize) (length dropped : Nat) (w : World δ) :
    w.Adjusts (keepData slot buffer length dropped w) := by
  unfold Tcp.keepData
  by_cases hd : dropped = 0
  · simp only [hd, if_true]
    exact (updateSocket _ _).trans (updateSocket _ _)
  · simp only [hd, if_false]
    exact ((updateSocket _ _).trans (record _ rfl)).trans (updateSocket _ _)

end World.Adjusts

variable [Link.Device δ] {p : Poller δ} {mac : Mac} {slot : Slot}

theorem Arp.resolve_known {ip : Ipv4.Address} {timeout : UInt64}
    {Q : Except NetError Mac → World δ → Prop} (h : w.hop? ip = some mac) :
    Attempt.Ensures (resolve p ip timeout) w Q ↔ Q (.ok mac) w := by
  have hc : w.host.arp.lookup? (w.interface.nextHop ip) = some mac := h
  simp only [resolve, Attempt.ensures_bind, Attempt.ensures_get]
  rw [hc]
  rfl

theorem Ipv4.send_known {dest : Address} {protocol : Protocol} {payload : Bytes}
    {Q : Except NetError Unit → World δ → Prop} (h : w.hop? dest = some mac)
    (hl : payload.length ≤ maxPayload) :
    Attempt.Ensures (send p dest protocol payload) w Q ↔
      Q (Link.Device.transmit (wire w.host.interface mac dest protocol w.host.nextPacketId payload)
        w.device).1 (w.dispatch mac dest protocol payload) := by
  rw [send_ensures_iff dest protocol hl, Arp.resolve_known h]

theorem Ipv4.send_prompt {dest : Address} {protocol : Protocol} {payload : Bytes}
    (h : w.hop? dest = some mac) (hl : payload.length ≤ maxPayload) :
    Attempt.Finishes (send p dest protocol payload) w fun _ w' =>
      w.HandsOver (wire w.host.interface mac dest protocol w.host.nextPacketId payload) w' :=
  (Attempt.finishes_iff_of_ensures fun _ => send_known h hl).2
    (World.handsOver_dispatch mac dest protocol payload w)

theorem Tcp.sendSegment_prompt {flags : Flags} {data : Bytes}
    (h : w.hop? (socketAt slot w).remoteIp = some mac) (hd : data.length ≤ maxPayload) :
    Attempt.Finishes (sendSegment p slot flags data) w fun _ w' =>
      w.HandsOver (w.frameOf mac (socketAt slot w) flags data) w' := by
  have hl := length_segment_le (socketAt slot w) w.interface.ip flags hd
  rw [sendSegment, Attempt.finishes_bind, Attempt.finishes_get]
  dsimp only
  rw [Attempt.finishes_bind, Attempt.finishes_check]
  intro message hm
  rw [Bytes.eq_of_within hm]
  exact Ipv4.send_prompt h hl

theorem Tcp.sendAck_prompt (h : w.hop? (socketAt slot w).remoteIp = some mac) :
    Net.Finishes (sendAck p slot) w fun _ w' =>
      w.HandsOver (w.frameOf mac (socketAt slot w) { ack := true } []) w' := by
  rw [sendAck, Net.finishes_bind, Attempt.finishes_run]
  refine (sendSegment_prompt h (Nat.zero_le _)).mono fun result w₁ h₁ => ?_
  cases result with
  | ok _ => exact h₁
  | error cause => exact h₁.record rfl

end InetHost
