import InetHost.Proofs.Host.Tables
import InetHost.Proofs.Ring.Queue
import InetHost.Proofs.Tcp.Reset

/-! Where the bytes come from that the owner of a socket reads. The buffer of a socket is emptied when
its slot is opened and when it is given back, and at no other time: a connection begins with what the
connection before it has left unread. -/

namespace InetHost

open Tcp

variable {δ : Type} {w w' w₁ w₂ w₃ : World δ} {slot : Slot}

def Tcp.unread (slot : Slot) (w : World δ) : Bytes := (socketAt slot w).buffer.toList

def Event.kept (slot : Nat) : Event → Bytes
  | dataKept i _ _ kept => if i = slot then kept else []
  | _ => []

def Tcp.keptIn (slot : Slot) (new : List Moment) : Bytes :=
  new.reverse.flatMap fun m => m.event.kept slot

theorem Tcp.keptIn_append (slot : Slot) (new' new : List Moment) :
    keptIn slot (new' ++ new) = keptIn slot new ++ keptIn slot new' := by
  rw [keptIn, List.reverse_append, List.flatMap_append]
  rfl

/-- Data are kept for an open connection: of those of a segment, what there is room for. -/
def Moment.Keeps (slot : Tcp.Slot) (m : Moment) : Prop :=
  ∀ source message kept, m.event = .dataKept slot source message kept →
    ∃ header, Header.decode? message = some header ∧
      m.host.tcp.demux? header.dest source header.source = some slot ∧
      (m.host.tcp.get slot).state = .established ∧ header.flags.rst = false ∧
      header.flags.fin = false ∧ header.flags.ack = true ∧
      kept = (message.drop header.dataOffset).take
        (bufferSize - (m.host.tcp.get slot).buffer.toList.length)

theorem Moment.keeps_of_ne {m : Moment}
    (h : ∀ source message kept, m.event ≠ .dataKept slot source message kept) : m.Keeps slot :=
  fun source message kept he => absurd he (h source message kept)

/-- What the journal says was kept, and what is taken out, from one world to another. -/
def Tcp.Flows (slot : Slot) (w : World δ) (taken : Bytes) (w' : World δ) : Prop :=
  ∃ since, w'.journal = since ++ w.journal ∧ (∀ m ∈ since, m.Keeps slot) ∧
    taken ++ unread slot w' = unread slot w ++ keptIn slot since

namespace Tcp.Flows

variable {taken taken' : Bytes}

theorem trans (h : Flows slot w₁ taken w₂) (h' : Flows slot w₂ taken' w₃) :
    Flows slot w₁ (taken ++ taken') w₃ := by
  obtain ⟨since, hj, hkeeps, hbytes⟩ := h
  obtain ⟨since', hj', hkeeps', hbytes'⟩ := h'
  refine ⟨since' ++ since, ?_, fun m hm => ?_, ?_⟩
  · rw [hj', hj, List.append_assoc]
  · exact (List.mem_append.1 hm).elim (hkeeps' m) (hkeeps m)
  · calc (taken ++ taken') ++ unread slot w₃
        = taken ++ (taken' ++ unread slot w₃) := List.append_assoc ..
      _ = (taken ++ unread slot w₂) ++ keptIn slot since' := by rw [hbytes', List.append_assoc]
      _ = unread slot w₁ ++ keptIn slot (since' ++ since) := by
        rw [hbytes, List.append_assoc, keptIn_append]

theorem of_grows (hb : (socketAt slot w').buffer = (socketAt slot w).buffer)
    (hg : World.Grows (fun m => ∀ source message kept,
      m.event ≠ .dataKept slot source message kept) w w') : Flows slot w [] w' := by
  obtain ⟨new, hj, hnew⟩ := hg
  refine ⟨new, hj, fun m hm => Moment.keeps_of_ne (hnew m hm), ?_⟩
  have hkept : keptIn slot new = [] := by
    refine List.flatMap_eq_nil_iff.2 fun m hm => ?_
    have hne := hnew m (List.mem_reverse.1 hm)
    cases he : m.event with
    | dataKept i source message kept =>
      refine if_neg fun hi => ?_
      exact hne source message kept (hi ▸ he)
    | _ => rfl
  rw [unread, unread, hb, hkept, List.append_nil, List.nil_append]

theorem of_buffer_eq (hb : (socketAt slot w').buffer = (socketAt slot w).buffer)
    (hj : w'.journal = w.journal) : Flows slot w [] w' :=
  of_grows hb (.of_journal_eq hj)

theorem refl (w : World δ) : Flows slot w [] w := of_buffer_eq rfl rfl

theorem record (h : Flows slot w taken w₁) {e : Event}
    (he : ∀ source message kept, e ≠ .dataKept slot source message kept) :
    Flows slot w taken (w₁.record e) := by
  have hnoted : Flows slot w₁ [] (w₁.record e) := .of_grows rfl (.of_journal_eq_cons rfl he)
  exact List.append_nil taken ▸ h.trans hnoted

variable {i : Slot} {f : Socket → Socket}

theorem update (h : Flows slot w taken w₁)
    (hf : (f (socketAt i w₁)).buffer = (socketAt i w₁).buffer) :
    Flows slot w taken (updateSocket i f w₁) := by
  have hupdate : Flows slot w₁ [] (updateSocket i f w₁) :=
    .of_buffer_eq (updateSocket_congr Socket.buffer hf slot) rfl
  exact List.append_nil taken ▸ h.trans hupdate

theorem setState (h : Flows slot w taken w₁) (next : State) :
    Flows slot w taken (setState i next w₁) := by
  have hset : Flows slot w₁ [] (Tcp.setState i next w₁) :=
    .of_grows (setState_congr Socket.buffer (by rfl) slot)
      ((World.Grows.refl w₁).setState fun _ _ => nofun)
  exact List.append_nil taken ▸ h.trans hset

theorem dial (ip : Ipv4.Address) (port : UInt16) (w : World δ) :
    Flows slot w [] (dial i ip port w) :=
  ((refl w).update rfl).setState .synSent

end Tcp.Flows

section Frames

variable {header : Header} {message : Bytes} {source : Ipv4.Address}

theorem Tcp.flows_keepData {buffer : Ring bufferSize} {stored : Nat}
    (ha : Addressed w message source header slot) (hv : w.Valid)
    (hs : (socketAt slot w).state = .established) (hr : header.flags.rst = false)
    (hf : header.flags.fin = false) (hk : header.flags.ack = true)
    (hp : (socketAt slot w).buffer.push (message.drop header.dataOffset) = .ok (buffer, stored))
    (length dropped : Nat) :
    Flows slot w [] (keepData slot buffer length dropped (w.record (.dataKept slot source message
      ((message.drop header.dataOffset).take stored)))) := by
  obtain ⟨hstored, hlist⟩ := (hv slot).toList_push hp
  have hroom : (message.drop header.dataOffset).take stored =
      (message.drop header.dataOffset).take
        (bufferSize - (w.host.tcp.get slot).buffer.toList.length) := by
    rw [hstored, Nat.min_comm, ← List.take_eq_take_min, Ring.length_toList]
    rfl
  have hnoted : Flows slot w [] (updateSocket slot (fun s => { s with buffer }) (w.record
      (.dataKept slot source message ((message.drop header.dataOffset).take stored)))) := by
    refine ⟨[_], rfl, List.forall_mem_singleton.2 fun source' message' kept he => ?_, ?_⟩
    · obtain ⟨-, rfl, rfl, rfl⟩ := Event.dataKept.inj he
      exact ⟨header, ha.decoded, ha.found, hs, hr, hf, hk, hroom⟩
    · rw [List.nil_append, unread, socketAt_updateSocket_self]
      simp [hlist, unread, keptIn, Event.kept]
  unfold keepData
  dsimp only
  split
  · exact hnoted.update rfl
  · exact (hnoted.record (by simp)).update rfl

theorem Tcp.Reaction.flows {i : Slot} (h : Reaction i header message source w w')
    (ha : Addressed w message source header i) (hv : w.Valid)
    (hu : (socketAt slot w').inUse = true) : Flows slot w [] w' := by
  by_cases hi : i = slot
  · subst hi
    have hw : Flows i w [] w := .refl w
    cases h with
    | reset _ =>
      by_cases hs : (socketAt i w).state = .listen ∨ (socketAt i w).state = .closed
      · rwa [handleReset_of_dead hs]
      · obtain ⟨hl, hc⟩ := not_or.1 hs
        rw [handleReset_of_alive hl hc]
        exact ((hw.record (by simp)).update rfl).setState .closed
    | confirm => exact (hw.update rfl).setState .established
    | complete => exact hw.setState .established
    | closeWait => exact (hw.update rfl).setState .closeWait
    | data hr hs hf hk hp => exact flows_keepData ha hv hs hr hf hk hp _ _
    | finAcked => exact hw.setState .finWait2
    | release _ _ _ =>
      rw [socketAt_release, if_pos rfl] at hu
      exact absurd hu Bool.false_ne_true
  · refine .of_grows (congrArg Socket.buffer (h.socketAt_of_ne hi))
      (h.grows.mono fun m hm _ _ _ he => ?_)
    rw [he] at hm
    exact hi (Fin.ext (Option.some.inj hm).symm)

variable [Link.Device δ]

theorem Evolves.inUse_of_inUse (h : Evolves w w') (hu : (socketAt slot w').inUse = true) :
    (socketAt slot w).inUse = true := by
  cases hb : (socketAt slot w).inUse with
  | true => rfl
  | false =>
    rw [h.socketAt_of_free hb, hb] at hu
    exact hu

theorem Chore.flows (h : Chore w w') : Flows slot w [] w' := by
  refine .of_grows (congrArg Socket.buffer (h.socketAt_eq slot)) (h.grows.mono fun m hm _ _ _ he => ?_)
  rw [he] at hm
  cases hm

theorem Tcp.Flows.dispatch {taken : Bytes} {mac : Mac} {dest : Ipv4.Address}
    {protocol : Ipv4.Protocol} {payload : Bytes} (h : Flows slot w taken w₁) :
    Flows slot w taken (w₁.dispatch mac dest protocol payload) := by
  have hsent : Flows slot w₁ [] (w₁.dispatch mac dest protocol payload) :=
    .of_grows rfl (.of_journal_eq_cons rfl nofun)
  exact List.append_nil taken ▸ h.trans hsent

theorem Evolves.flows (h : Evolves w w') (hv : w.Valid) (hu : (socketAt slot w').inUse = true) :
    Flows slot w [] w' := by
  induction h with
  | refl w => exact .refl w
  | trans h₁ h₂ ih₁ ih₂ =>
    exact (ih₁ hv (h₂.inUse_of_inUse hu)).trans (ih₂ (h₁.valid hv) hu)
  | chore h => exact h.flows
  | react ha h => exact h.flows ha hv hu
  | segment _ _ _ _ _ _ _ ih => exact (ih hv hu).dispatch
  | @accept w w₁ message source header i _ _ _ _ _ ih =>
    have hu₁ : (socketAt slot w₁).inUse = true := by
      rw [socketAt_advanceSeq] at hu
      split at hu
      · rename_i hi
        exact hi ▸ hu
      · exact hu
    have hpromote : Flows slot w [] (promote i header source w) :=
      ((Flows.refl w).update rfl).setState .synReceived
    exact (hpromote.trans (ih (hv.update rfl).setState hu₁)).update rfl
  | @finish w w₁ header i _ _ _ _ ih =>
    have hu₁ : (socketAt slot w₁).inUse = true := by
      rw [socketAt_setState] at hu
      split at hu
      · rename_i hi
        exact hi ▸ hu
      · exact hu
    have hack : Flows slot w [] (setAck i (header.seq + 1) w) := (Flows.refl w).update rfl
    exact (hack.trans (ih (hv.update rfl) hu₁)).setState .timeWait

end Frames

section Updates

variable {i : Slot} {f : Socket → Socket} {next : State}

theorem Tcp.inUse_updateSocket (hf : (f (socketAt i w)).inUse = (socketAt i w).inUse) :
    (socketAt slot (updateSocket i f w)).inUse = (socketAt slot w).inUse :=
  updateSocket_congr Socket.inUse hf slot

theorem Tcp.inUse_setState :
    (socketAt slot (setState i next w)).inUse = (socketAt slot w).inUse :=
  setState_congr Socket.inUse (by rfl) slot

theorem Tcp.socketAt_updateSocket_of_ne (h : i ≠ slot) :
    socketAt slot (updateSocket i f w) = socketAt slot w := by
  rw [socketAt_updateSocket, if_neg h]

theorem Tcp.socketAt_setState_of_ne (h : i ≠ slot) :
    socketAt slot (setState i next w) = socketAt slot w := by
  rw [socketAt_setState, if_neg h]

theorem Tcp.socketAt_release_of_ne (h : i ≠ slot) : socketAt slot (release i w) = socketAt slot w := by
  rw [socketAt_release, if_neg h]

theorem Tcp.Flows.release (h : i ≠ slot) (w : World δ) : Flows slot w [] (release i w) := by
  refine .of_grows (congrArg Socket.buffer (socketAt_release_of_ne h)) ?_
  exact (World.Grows.refl w).release fun _ _ => nofun

theorem Tcp.socketAt_dial_of_ne {ip : Ipv4.Address} {port : UInt16} (h : i ≠ slot) :
    socketAt slot (dial i ip port w) = socketAt slot w := by
  rw [socketAt_dial, if_neg h]

end Updates

section Operations

variable [Link.Device δ] {op : Operation δ}

theorem Errand.flows (h : Errand op w w') (hv : w.Valid) (hu : (socketAt slot w').inUse = true) :
    Flows slot w [] w' ∧ (socketAt slot w).inUse = true := by
  induction h with
  | evolves h => exact ⟨h.flows hv hu, h.inUse_of_inUse hu⟩
  | deed h =>
    have hs := h.socketAt_eq slot
    refine ⟨.of_grows (congrArg Socket.buffer hs) (h.grows.mono fun m hm _ _ _ he => ?_), hs ▸ hu⟩
    rw [he] at hm
    cases hm
  | trans h₁ _ ih₁ ih₂ =>
    obtain ⟨hf₂, hu₂⟩ := ih₂ (h₁.valid hv) hu
    obtain ⟨hf₁, hu₁⟩ := ih₁ hv hu₂
    exact ⟨hf₁.trans hf₂, hu₁⟩

theorem Evolves.flows_of_dial {i : Slot} {ip : Ipv4.Address} {port : UInt16}
    (h : Evolves (dial i ip port w) w₁) (hv : w.Valid) (hu : (socketAt slot w₁).inUse = true) :
    Flows slot w [] w₁ :=
  (Flows.dial ip port w).trans (h.flows (hv.dial ip port) hu)

theorem Evolves.flows_of_dial_of_advanceSeq {i : Slot} {ip : Ipv4.Address} {port : UInt16}
    (h₁ : Evolves (dial i ip port w) w₁) (h₂ : Evolves (advanceSeq i 1 w₁) w₂) (hv : w.Valid)
    (hu : (socketAt slot w₂).inUse = true) : Flows slot w [] w₂ := by
  have hu₁ : (socketAt slot (advanceSeq i 1 w₁)).inUse = true := h₂.inUse_of_inUse hu
  rw [advanceSeq, inUse_updateSocket rfl] at hu₁
  have hopening : Flows slot w [] (advanceSeq i 1 w₁) := (h₁.flows_of_dial hv hu₁).update rfl
  exact hopening.trans (h₂.flows ((h₁.valid (hv.dial ip port)).update rfl) hu)

/-- As long as a socket stays open, nothing but reading takes anything out of its buffer. -/
theorem Operation.Works.flows (h : op.Works w w') (hv : w.Valid)
    (hu : (socketAt slot w).inUse = true) (hu' : (socketAt slot w').inUse = true)
    (hr : ∀ capacity, op ≠ .tcpReceive slot capacity) : Flows slot w [] w' := by
  have hw : Flows slot w [] w := .refl w
  cases h with
  | errand _ h => exact (h.flows hv hu').1
  | refused => exact hw
  | ipv4Send _ _ _ h _ => exact (h.flows hv hu').dispatch
  | @tcpOpen _ i hf =>
    have hi : i ≠ slot := by
      rintro rfl
      have hfree := Slots.of_first?_eq_some hf
      have hu : (w.host.tcp.get i).inUse = true := hu
      simp [hu] at hfree
    refine .of_buffer_eq ?_ rfl
    rw [socketAt_openAt, if_neg hi]
  | tcpBind _ _ => exact hw.update rfl
  | tcpListen _ => exact hw.setState .listen
  | connectUnsent ip port _ _ h =>
    rw [inUse_setState] at hu'
    exact (h.flows_of_dial hv hu').setState .closed
  | connected _ _ _ _ h₁ h₂ _ => exact h₁.flows_of_dial_of_advanceSeq h₂ hv hu'
  | notConnected _ _ _ _ h₁ h₂ =>
    rw [inUse_setState] at hu'
    exact (h₁.flows_of_dial_of_advanceSeq h₂ hv hu').setState .closed
  | tcpSend _ _ _ h =>
    rw [advanceSeq, inUse_updateSocket rfl] at hu'
    exact (h.flows hv hu').update rfl
  | notSent _ _ h => exact h.flows hv hu'
  | @tcpReceive _ w₁ i buffer data capacity _ h _ _ =>
    have hi : i ≠ slot := by
      rintro rfl
      exact hr capacity rfl
    rw [inUse_updateSocket rfl] at hu'
    exact (h.flows hv hu').trans
      (.of_buffer_eq (congrArg Socket.buffer (socketAt_updateSocket_of_ne hi)) rfl)
  | notReceived _ _ h => exact h.flows hv hu'
  | @closeEstablished _ w₁ i _ _ h =>
    rw [socketAt_release] at hu'
    split at hu'
    · exact absurd hu' Bool.false_ne_true
    · rename_i hi
      rw [inUse_setState, advanceSeq, inUse_updateSocket rfl] at hu'
      exact (((h.flows hv hu').update rfl).setState .finWait1).trans (.release hi _)
  | closeWaiting _ _ h =>
    rw [inUse_setState, advanceSeq, inUse_updateSocket rfl] at hu'
    exact ((h.flows hv hu').update rfl).setState .lastAck
  | @closeOther _ i _ _ _ =>
    rw [socketAt_release] at hu'
    split at hu'
    · exact absurd hu' Bool.false_ne_true
    · rename_i hi
      exact .release hi w
  | tcpShutdown _ _ h =>
    rw [inUse_setState, advanceSeq, inUse_updateSocket rfl] at hu'
    exact ((h.flows hv hu').update rfl).setState .finWait1

variable {p : Poller δ}

theorem Tcp.receive_flows (hp : p.Evolving) (capacity : Nat) (hv : w.Valid) :
    Attempt.Ensures (receive p slot capacity) w fun r w' =>
      ∀ data, r = .ok data → (socketAt slot w').inUse = true ∧ Flows slot w data w' := by
  rw [receive]
  refine ensures_slot_bind (fun e data hr => by cases hr) fun i hi hu => ?_
  simp only [Attempt.ensures_bind, Attempt.ensures_lift]
  refine (hp w hv).mono fun _ w₁ h₁ => ?_
  rw [Attempt.ensures_of_run_eq (run_slot slot w₁)]
  cases hs : w₁.host.tcp.slot slot with
  | error e =>
    intro data hr
    cases hr
  | ok j =>
    obtain ⟨hj, hu₁⟩ := Slots.of_ofHandle_eq_ok hs
    obtain rfl : j = slot := Fin.ext hj
    obtain ⟨buffer, bytes, hb, -⟩ := (h₁.valid hv j).pop_eq_ok capacity
    simp only [Attempt.ensures_get]
    rw [Attempt.ensures_check hb]
    intro data hr
    obtain rfl : bytes = data := Except.ok.inj hr
    have htake : Flows j w₁ bytes (updateSocket j (fun s => { s with buffer }) w₁) := by
      refine ⟨[], rfl, List.forall_mem_nil _, ?_⟩
      rw [unread, socketAt_updateSocket_self, unread, (h₁.valid hv j).toList_pop hb]
      exact (List.append_nil _).symm
    refine ⟨?_, (h₁.flows hv hu₁).trans htake⟩
    rw [inUse_updateSocket rfl]
    exact hu₁

theorem Errand.socketAt_of_free (h : Errand op w w') (hi : (socketAt slot w).inUse = false) :
    socketAt slot w' = socketAt slot w := by
  induction h with
  | evolves h => exact h.socketAt_of_free hi
  | deed h => exact h.socketAt_eq slot
  | trans _ _ ih₁ ih₂ =>
    have h₁ := ih₁ hi
    rw [ih₂ (h₁ ▸ hi), h₁]

theorem Evolves.socketAt_of_dial {i : Slot} {ip : Ipv4.Address} {port : UInt16} (hi : i ≠ slot)
    (h : Evolves (dial i ip port w) w₁) (hf : (socketAt slot w).inUse = false) :
    socketAt slot w₁ = socketAt slot w := by
  have hd : socketAt slot (dial i ip port w) = socketAt slot w := socketAt_dial_of_ne hi
  rw [h.socketAt_of_free (hd ▸ hf), hd]

theorem Evolves.socketAt_of_dial_of_advanceSeq {i : Slot} {ip : Ipv4.Address} {port : UInt16}
    (hi : i ≠ slot) (h₁ : Evolves (dial i ip port w) w₁) (h₂ : Evolves (advanceSeq i 1 w₁) w₂)
    (hf : (socketAt slot w).inUse = false) : socketAt slot w₂ = socketAt slot w := by
  have ha : socketAt slot (advanceSeq i 1 w₁) = socketAt slot w := by
    rw [advanceSeq, socketAt_updateSocket_of_ne hi, h₁.socketAt_of_dial hi hf]
  rw [h₂.socketAt_of_free (ha ▸ hf), ha]

theorem Operation.Works.socketAt_or_clear (h : op.Works w w')
    (hf : (socketAt slot w).inUse = false) :
    socketAt slot w' = socketAt slot w ∨
      (socketAt slot w').buffer = (socketAt slot w).buffer.clear := by
  -- An operation on a socket is called on a slot in use, so it is about another slot than this.
  have hne {i : Slot} (hu : (socketAt i w).inUse = true) : i ≠ slot := by
    rintro rfl
    exact Bool.false_ne_true (hf.symm.trans hu)
  cases h with
  | errand _ h => exact .inl (h.socketAt_of_free hf)
  | refused => exact .inl rfl
  | ipv4Send _ _ _ h _ => exact .inl (h.socketAt_of_free hf)
  | @tcpOpen _ i _ =>
    rw [socketAt_openAt]
    split
    · rename_i hi
      exact .inr (by rw [hi])
    · exact .inl rfl
  | tcpBind _ hu => exact .inl (socketAt_updateSocket_of_ne (hne hu))
  | tcpListen hu => exact .inl (socketAt_setState_of_ne (hne hu))
  | connectUnsent _ _ hu _ h =>
    left
    rw [socketAt_setState_of_ne (hne hu), h.socketAt_of_dial (hne hu) hf]
  | connected _ _ hu _ h₁ h₂ _ => exact .inl (h₁.socketAt_of_dial_of_advanceSeq (hne hu) h₂ hf)
  | notConnected _ _ hu _ h₁ h₂ =>
    left
    rw [socketAt_setState_of_ne (hne hu), h₁.socketAt_of_dial_of_advanceSeq (hne hu) h₂ hf]
  | tcpSend _ hu _ h =>
    left
    rw [advanceSeq, socketAt_updateSocket_of_ne (hne hu), h.socketAt_of_free hf]
  | notSent _ _ h => exact .inl (h.socketAt_of_free hf)
  | tcpReceive _ hu h _ _ =>
    left
    rw [socketAt_updateSocket_of_ne (hne hu), h.socketAt_of_free hf]
  | notReceived _ _ h => exact .inl (h.socketAt_of_free hf)
  | closeEstablished hu _ h =>
    left
    rw [socketAt_release_of_ne (hne hu), socketAt_setState_of_ne (hne hu), advanceSeq,
      socketAt_updateSocket_of_ne (hne hu), h.socketAt_of_free hf]
  | closeWaiting hu _ h =>
    left
    rw [socketAt_setState_of_ne (hne hu), advanceSeq, socketAt_updateSocket_of_ne (hne hu),
      h.socketAt_of_free hf]
  | closeOther hu _ _ => exact .inl (socketAt_release_of_ne (hne hu))
  | tcpShutdown hu _ h =>
    left
    rw [socketAt_setState_of_ne (hne hu), advanceSeq, socketAt_updateSocket_of_ne (hne hu),
      h.socketAt_of_free hf]

end Operations

section Runs

variable [Link.Device δ]

/-- A run of operations in which a socket stays open, and all that its owner reads from it. -/
inductive Tcp.Held (slot : Slot) : World δ → (read : Bytes) → World δ → Prop
  | refl {w : World δ} : (socketAt slot w).inUse = true → Held slot w [] w
  | step {w w₁ w₂ : World δ} {read : Bytes} {op : Operation δ} :
      Held slot w read w₁ → op.Runs w₁ w₂ → (∀ capacity, op ≠ .tcpReceive slot capacity) →
      (socketAt slot w₂).inUse = true → Held slot w read w₂
  | read {w w₁ w₂ : World δ} {read data : Bytes} {fuel capacity : Nat} :
      Held slot w read w₁ →
      (Tcp.receive (Poller.ofFuel fuel) slot capacity).run w₁ = .ok (.ok data, w₂) →
      Held slot w (read ++ data) w₂

def Tcp.Opened (slot : Slot) (w : World δ) : Prop :=
  ∃ (w₀ : World δ) (op : Operation δ), Reachable w₀ ∧ op.Runs w₀ w ∧
    (socketAt slot w₀).inUse = false

theorem Tcp.Opened.unread_eq_nil (h : Opened slot w) : unread slot w = [] := by
  obtain ⟨w₀, op, hw, hr, hf⟩ := h
  have hempty : (socketAt slot w₀).buffer.length = 0 := (hw.vacant slot hf).2
  rcases (hr.works hw.safe).socketAt_or_clear hf with hs | hb
  · rw [unread, hs]
    exact List.eq_nil_of_length_eq_zero ((Ring.length_toList _).trans hempty)
  · rw [unread, hb, Ring.toList_clear]

theorem Tcp.Held.flows {read : Bytes} (h : Held slot w read w') (hw : w.Safe) :
    w'.Safe ∧ (socketAt slot w').inUse = true ∧ Flows slot w read w' := by
  induction h with
  | refl hu => exact ⟨hw, hu, .refl _⟩
  | @step _ _ read _ _ hr hne hu' ih =>
    obtain ⟨hsafe, hu, hf⟩ := ih
    have hworks := hr.works hsafe
    refine ⟨hworks.safe hsafe, hu', ?_⟩
    exact List.append_nil read ▸ hf.trans (hworks.flows hsafe.valid hu hu' hne)
  | @read w₁ w₂ read data fuel capacity _ hr ih =>
    obtain ⟨hsafe, hu, hf⟩ := ih
    have hp : (Poller.ofFuel fuel : Poller δ).Evolving := Poller.evolving_ofFuel fuel
    have hworks := (receive_ensures hp slot capacity hsafe.valid).of_ok hr
    obtain ⟨hu', hf'⟩ := (receive_flows hp capacity hsafe.valid).of_ok hr data rfl
    exact ⟨hworks.safe hsafe, hu', hf.trans hf'⟩

def Tcp.read? (fuel : Nat) (slot : Slot) (capacity : Nat) (w : World δ) : Option (Bytes × Bytes) :=
  match (Tcp.receive (Poller.ofFuel fuel) slot capacity).run w with
  | .ok (.ok data, w') => some (data, unread slot w')
  | _ => none

theorem Tcp.exists_of_read? {fuel capacity : Nat} {data rest : Bytes}
    (h : read? fuel slot capacity w = some (data, rest)) : ∃ w',
    (Tcp.receive (Poller.ofFuel fuel) slot capacity).run w = .ok (.ok data, w') ∧
      unread slot w' = rest := by
  unfold read? at h
  split at h
  · rename_i w' hr
    obtain ⟨rfl, rfl⟩ := Prod.mk.inj (Option.some.inj h)
    exact ⟨w', hr, rfl⟩
  · simp at h

/-- A socket gives out what was unread, and then what was kept for it since, whatever its connections. -/
theorem reads_begin_with_unread {read : Bytes} (h : Reachable w) (hr : Held slot w read w') :
    (∃ since, w'.journal = since ++ w.journal ∧ (∀ m ∈ since, m.Keeps slot) ∧
      read ++ unread slot w' = unread slot w ++ keptIn slot since) ∧
      (Opened slot w → unread slot w = []) :=
  ⟨(hr.flows h.safe).2.2, Opened.unread_eq_nil⟩

namespace Tcp

def letters : Bytes := [97, 98, 99]

def lettersFrame : Bytes :=
  Ipv4.wire peer Interface.default.mac Interface.default.ip .tcp 0
    (Header.segment ⟨5000, 80, 101, 1, minHeader, { ack := true, psh := true }, window, 0⟩ letters
      peer.ip Interface.default.ip)

def relisted : World Link.Script :=
  (World.start ⟨[], 0, [], []⟩ ⟨0, 500, []⟩ Interface.default).after 4
    [.arpLearn peer.ip peer.mac, .tcpOpen, .tcpBind 0 80, .tcpListen 0,
      .handleFrame (peerFrame 5000 80 100 0 { syn := true }),
      .handleFrame (peerFrame 5000 80 101 1 { ack := true }), .handleFrame lettersFrame,
      .handleFrame (peerFrame 5000 80 104 1 { rst := true }), .tcpListen 0]

def requestFrame : Bytes := peerFrame 5001 80 200 0 { syn := true }

def confirmFrame : Bytes := peerFrame 5001 80 201 2 { ack := true }

def requested : World Link.Script := relisted.after 4 [.handleFrame requestFrame]

def reconnected : World Link.Script := requested.after 4 [.handleFrame confirmFrame]

theorem runs_requested : (Operation.handleFrame requestFrame).Runs relisted requested :=
  Operation.runs_after (by decide +kernel)

theorem runs_reconnected : (Operation.handleFrame confirmFrame).Runs requested reconnected :=
  Operation.runs_after (by decide +kernel)

theorem held_reconnected : Held 0 relisted [] reconnected := by
  have h₀ : Held 0 relisted [] relisted := .refl (by decide +kernel)
  have h₁ : Held 0 relisted [] requested := h₀.step runs_requested (by simp) (by decide +kernel)
  exact h₁.step runs_reconnected (by simp) (by decide +kernel)

theorem exists_read_letters : ∃ w', (Tcp.receive (Poller.ofFuel 4) (0 : Slot) 10).run reconnected =
    .ok (.ok letters, w') ∧ unread 0 w' = [] := by
  have h : read? 4 (0 : Slot) 10 reconnected = some (letters, []) := by decide +kernel
  exact exists_of_read? h

end Tcp

theorem reads_begin_with_unread_letters : Reachable relisted ∧ unread 0 relisted = letters ∧
    ∃ w', Held 0 relisted letters w' ∧
      ∃ since, w'.journal = since ++ relisted.journal ∧ (∀ m ∈ since, m.Keeps 0) ∧
        letters ++ unread 0 w' = unread 0 relisted ++ keptIn 0 since := by
  have hw : Reachable relisted := .after (.start ..) 4 _
  obtain ⟨w', hread, -⟩ := exists_read_letters
  have hheld : Held 0 relisted letters w' := held_reconnected.read hread
  exact ⟨hw, by decide +kernel, w', hheld, (reads_begin_with_unread hw hheld).1⟩

/-- Nothing has been kept for the connection, and yet three bytes are read. -/
theorem letters_of_earlier_connection : Reachable relisted ∧
    (socketAt 0 relisted).state = .listen ∧
    (Operation.handleFrame requestFrame).Runs relisted requested ∧
    (socketAt 0 requested).state = .synReceived ∧
    (Operation.handleFrame confirmFrame).Runs requested reconnected ∧
    (socketAt 0 reconnected).state = .established ∧
    ∃ w', (Tcp.receive (Poller.ofFuel 4) (0 : Slot) 10).run reconnected = .ok (.ok letters, w') ∧
      ∃ since, w'.journal = since ++ relisted.journal ∧ keptIn 0 since = [] := by
  have hw : Reachable relisted := .after (.start ..) 4 _
  have hstart : unread 0 relisted = letters := by decide +kernel
  obtain ⟨w', hread, hend⟩ := exists_read_letters
  obtain ⟨since, hj, -, hbytes⟩ := ((held_reconnected.read hread).flows hw.safe).2.2
  refine ⟨hw, by decide +kernel, runs_requested, by decide +kernel, runs_reconnected,
    by decide +kernel, w', hread, since, hj, ?_⟩
  rw [hstart, hend] at hbytes
  exact (List.append_cancel_left hbytes).symm

end Runs

end InetHost
