import InetHost.Host.Reception

/-! What each update of the world changes, and what it leaves alone. -/

namespace InetHost

variable {δ : Type}

namespace World

@[simp] theorem host_record (e : Event) (w : World δ) : (w.record e).host = w.host := rfl

@[simp] theorem journal_record (e : Event) (w : World δ) :
    (w.record e).journal = ⟨e, w.host⟩ :: w.journal := rfl

@[simp] theorem host_update (f : Host → Host) (w : World δ) : (w.update f).host = f w.host := rfl

@[simp] theorem journal_update (f : Host → Host) (w : World δ) :
    (w.update f).journal = w.journal := rfl

variable [Link.Device δ]

theorem host_handOver (frame : Bytes) (w : World δ) : (w.handOver frame).2.host = w.host := rfl

theorem clock_handOver (frame : Bytes) (w : World δ) : (w.handOver frame).2.clock = w.clock := rfl

theorem host_takeFrame (capacity : Nat) (w : World δ) :
    (w.takeFrame capacity).2.host = w.host := rfl

theorem clock_takeFrame (capacity : Nat) (w : World δ) :
    (w.takeFrame capacity).2.clock = w.clock := rfl

theorem journal_handOver (frame : Bytes) (w : World δ) : ∃ failure,
    (w.handOver frame).2.journal = ⟨.transmitted frame failure, w.host⟩ :: w.journal :=
  ⟨_, rfl⟩

end World

namespace Icmp

variable (header : Header) (sent : Option UInt32) (source : Ipv4.Address) (w : World δ)

theorem roundTrip_snd : (roundTrip sent w).2 = w ∨ (roundTrip sent w).2 = w.readClock.2 := by
  cases sent with
  | none => exact .inl rfl
  | some _ => exact .inr rfl

@[simp] theorem host_roundTrip : (roundTrip sent w).2.host = w.host := by
  rcases roundTrip_snd sent w with h | h
  · rw [h]
  · rw [h]
    rfl

@[simp] theorem journal_roundTrip : (roundTrip sent w).2.journal = w.journal := by
  rcases roundTrip_snd sent w with h | h
  · rw [h]
  · rw [h]
    rfl

theorem host_noteReply : (noteReply header sent source w).host =
    { w.host with lastReply := some ⟨header.sequence, (roundTrip sent w).1⟩ } := by
  simp [noteReply]

theorem journal_noteReply : (noteReply header sent source w).journal =
    ⟨.echoReplied source header.sequence, w.host⟩ :: w.journal := by
  simp [noteReply]

end Icmp

namespace Udp

variable (handle : Nat) (w : World δ)

theorem close_slot (slot : Slot) : close slot w =
    modifySockets (fun t => t.close slot) (w.record (.udpClosed slot)) :=
  dif_pos slot.isLt

theorem exists_host_close : ∃ t, (close handle w).host = { w.host with udp := t } := by
  unfold close
  split
  · exact ⟨_, rfl⟩
  · exact ⟨w.host.udp, rfl⟩

theorem journal_close : (close handle w).journal = w.journal ∨
    (close handle w).journal = ⟨.udpClosed handle, w.host⟩ :: w.journal := by
  unfold close
  split
  · exact .inr rfl
  · exact .inl rfl

end Udp

namespace Tcp

theorem Sockets.get_openAt (t : Sockets) (i j : Slot) : (t.openAt i).get j =
    if i = j then ⟨.closed, 0, 0, 0, t.nextSeq, 0, (t.get i).buffer.clear, false, true⟩
    else t.get j :=
  Sockets.get_modify t i j fun s => ⟨.closed, 0, 0, 0, t.nextSeq, 0, s.buffer.clear, false, true⟩

variable (i j : Slot) (f : Socket → Socket) (next : State) (w : World δ)

theorem socketAt_congr {w' : World δ} (h : w'.host.tcp = w.host.tcp) :
    socketAt i w' = socketAt i w := by
  rw [socketAt, socketAt, h]

theorem socketAt_updateSocket :
    socketAt j (updateSocket i f w) = if i = j then f (socketAt i w) else socketAt j w :=
  Sockets.get_modify w.host.tcp i j f

@[simp] theorem socketAt_updateSocket_self :
    socketAt i (updateSocket i f w) = f (socketAt i w) := by
  rw [socketAt_updateSocket, if_pos rfl]

theorem updateSocket_congr {α : Type} {i : Slot} {f : Socket → Socket} {w : World δ} (g : Socket → α)
    (h : g (f (socketAt i w)) = g (socketAt i w)) (j : Slot) :
    g (socketAt j (updateSocket i f w)) = g (socketAt j w) := by
  rw [socketAt_updateSocket]
  split
  · rename_i hij
    rw [h, hij]
  · rfl

@[simp] theorem socketAt_record (e : Event) : socketAt i (w.record e) = socketAt i w := rfl

theorem socketAt_openAt : socketAt j (w.update fun h => { h with tcp := h.tcp.openAt i }) =
    if i = j then
      ⟨.closed, 0, 0, 0, w.host.tcp.nextSeq, 0, (socketAt i w).buffer.clear, false, true⟩
    else socketAt j w :=
  Sockets.get_openAt w.host.tcp i j

@[simp] theorem interface_updateSocket :
    (updateSocket i f w).host.interface = w.host.interface := rfl

@[simp] theorem journal_updateSocket : (updateSocket i f w).journal = w.journal := rfl

theorem setState_of_eq {i : Slot} {next : State} {w : World δ} (h : (socketAt i w).state = next) :
    setState i next w = w :=
  if_pos h

theorem setState_of_ne {i : Slot} {next : State} {w : World δ} (h : (socketAt i w).state ≠ next) :
    setState i next w = updateSocket i (fun s => { s with state := next })
      (w.record (.stateChanged i (socketAt i w).state next)) :=
  if_neg h

theorem socketAt_setState : socketAt j (setState i next w) =
    if i = j then { socketAt i w with state := next } else socketAt j w := by
  by_cases h : (socketAt i w).state = next
  · rw [setState_of_eq h, ← h]
    split
    · rename_i hij
      rw [hij]
    · rfl
  · rw [setState_of_ne h, socketAt_updateSocket]
    rfl

@[simp] theorem socketAt_setState_self :
    socketAt i (setState i next w) = { socketAt i w with state := next } := by
  rw [socketAt_setState, if_pos rfl]

theorem setState_congr {α : Type} {i : Slot} {next : State} {w : World δ} (g : Socket → α)
    (h : g { socketAt i w with state := next } = g (socketAt i w)) (j : Slot) :
    g (socketAt j (setState i next w)) = g (socketAt j w) := by
  rw [socketAt_setState]
  split
  · rename_i hij
    rw [h, hij]
  · rfl

@[simp] theorem interface_setState : (setState i next w).host.interface = w.host.interface := by
  by_cases h : (socketAt i w).state = next
  · rw [setState_of_eq h]
  · rw [setState_of_ne h]
    rfl

theorem socketAt_release : socketAt j (release i w) =
    if i = j then
      { socketAt i w with state := .closed, inUse := false, buffer := (socketAt i w).buffer.clear }
    else socketAt j w := by
  rw [release, socketAt_updateSocket, socketAt_setState_self, socketAt_setState]
  split <;> rfl

@[simp] theorem interface_release : (release i w).host.interface = w.host.interface := by
  rw [release, interface_updateSocket, interface_setState]

section Reset

variable {slot : Slot} {state : State} {source : Ipv4.Address} {w : World δ}

theorem handleReset_of_dead (h : state = .listen ∨ state = .closed) :
    handleReset slot state source w = w :=
  if_pos h

theorem handleReset_of_alive (hl : state ≠ .listen) (hc : state ≠ .closed) :
    handleReset slot state source w = setState slot .closed
      (updateSocket slot (fun s => { s with reset := true })
        (w.record (.connectionReset slot source))) :=
  if_neg (not_or.2 ⟨hl, hc⟩)

variable (hl : (socketAt slot w).state ≠ .listen) (hc : (socketAt slot w).state ≠ .closed)

include hl hc

theorem socketAt_handleReset_of_alive (j : Slot) :
    socketAt j (handleReset slot (socketAt slot w).state source w) =
      if slot = j then { socketAt slot w with state := .closed, reset := true }
      else socketAt j w := by
  rw [handleReset_of_alive hl hc, socketAt_setState, socketAt_updateSocket_self,
    socketAt_updateSocket]
  by_cases hj : slot = j <;> simp [hj]

theorem journal_handleReset_of_alive (source : Ipv4.Address) : ∃ host,
    (handleReset slot (socketAt slot w).state source w).journal =
      ⟨.stateChanged slot (socketAt slot w).state .closed, host⟩ ::
        ⟨.connectionReset slot source, w.host⟩ :: w.journal := by
  have hs : (socketAt slot (updateSocket slot (fun s => { s with reset := true })
      (w.record (.connectionReset slot source)))).state = (socketAt slot w).state := by
    rw [socketAt_updateSocket_self, socketAt_record]
  rw [handleReset_of_alive hl hc, setState_of_ne (hs ▸ hc), hs]
  exact ⟨_, rfl⟩

end Reset

section KeepData

variable (slot : Slot) (buffer : Ring bufferSize) (length dropped : Nat) (w : World δ)

theorem socketAt_keepData (j : Slot) :
    socketAt j (keepData slot buffer length dropped w) =
      if slot = j then
        { socketAt slot w with buffer, ack := (socketAt slot w).ack + UInt32.ofNat length }
      else socketAt j w := by
  unfold keepData
  by_cases hd : dropped = 0 <;> by_cases hj : slot = j <;>
    simp [hd, hj, socketAt_updateSocket]

@[simp] theorem interface_keepData :
    (keepData slot buffer length dropped w).host.interface = w.host.interface := by
  unfold keepData
  by_cases hd : dropped = 0 <;> simp [hd]

theorem journal_keepData :
    (keepData slot buffer length dropped w).journal = w.journal ∨
      (keepData slot buffer length dropped w).journal =
        ⟨.bytesDropped slot dropped, (updateSocket slot (fun s => { s with buffer }) w).host⟩ ::
          w.journal := by
  unfold keepData
  by_cases hd : dropped = 0
  · left
    simp [hd]
  · right
    simp [hd]

end KeepData

end Tcp

end InetHost
