import InetHost.Proofs.Host.Evolution

/-! What stays the same while the host reads frames: the interface, every connection that a
reaction is not for, and the soundness of the buffers; and how the journal grows. -/

namespace InetHost

open Tcp

variable {δ : Type} {w w' : World δ}

theorem World.events_eq_append {new : List Moment} (hj : w'.journal = new ++ w.journal) :
    w'.events = w.events ++ (new.map Moment.event).reverse := by
  rw [events, hj, List.map_append, List.reverse_append]
  rfl

theorem World.events_eq_concat {m : Moment} (hj : w'.journal = m :: w.journal) :
    w'.events = w.events ++ [m.event] :=
  events_eq_append (show w'.journal = [m] ++ w.journal from hj)

def World.Grows (P : Moment → Prop) (w w' : World δ) : Prop :=
  ∃ new, w'.journal = new ++ w.journal ∧ ∀ m ∈ new, P m

namespace World.Grows

variable {P : Moment → Prop} {w₁ : World δ}

theorem of_journal_eq (hj : w'.journal = w.journal) : Grows P w w' := ⟨[], hj, by simp⟩

theorem of_journal_eq_cons {m : Moment} (hj : w'.journal = m :: w.journal) (hm : P m) :
    Grows P w w' :=
  ⟨[m], hj, by simpa using hm⟩

theorem refl (w : World δ) : Grows P w w := of_journal_eq rfl

theorem trans (h : Grows P w w₁) (h' : Grows P w₁ w') : Grows P w w' := by
  obtain ⟨new, hj, hn⟩ := h
  obtain ⟨new', hj', hn'⟩ := h'
  refine ⟨new' ++ new, ?_, fun m hm => ?_⟩
  · rw [hj', hj, List.append_assoc]
  · exact (List.mem_append.1 hm).elim (hn' m) (hn m)

theorem mono {Q : Moment → Prop} (h : Grows P w w') (hq : ∀ m, P m → Q m) : Grows Q w w' := by
  obtain ⟨new, hj, hn⟩ := h
  exact ⟨new, hj, fun m hm => hq m (hn m hm)⟩

theorem of_mem {new : List Moment} {m : Moment} (h : Grows P w w')
    (hj : w'.journal = new ++ w.journal) (hm : m ∈ new) : P m := by
  obtain ⟨new', hj', hn⟩ := h
  obtain rfl := List.append_cancel_right (hj'.symm.trans hj)
  exact hn m hm

theorem exists_of_mem {es : List Event} {e : Event} (h : Grows P w w')
    (hj : w'.journal.map Moment.event = es ++ w.journal.map Moment.event) (he : e ∈ es) :
    ∃ m, m.event = e ∧ P m := by
  obtain ⟨new, hn, hP⟩ := h
  rw [hn, List.map_append] at hj
  obtain rfl := List.append_cancel_right hj
  obtain ⟨m, hm, rfl⟩ := List.mem_map.1 he
  exact ⟨m, rfl, hP m hm⟩

theorem record {e : Event} (h : Grows P w w₁) (hP : P ⟨e, w₁.host⟩) : Grows P w (w₁.record e) :=
  h.trans (of_journal_eq_cons rfl hP)

variable {i : Slot} {next : State}

theorem update {f : Socket → Socket} (h : Grows P w w₁) : Grows P w (updateSocket i f w₁) :=
  h.trans (of_journal_eq rfl)

theorem setState (h : Grows P w w₁) (hP : ∀ a host, P ⟨.stateChanged i a next, host⟩) :
    Grows P w (setState i next w₁) := by
  refine h.trans ?_
  by_cases hs : (socketAt i w₁).state = next
  · rw [setState_of_eq hs]
    exact refl w₁
  · rw [setState_of_ne hs]
    exact of_journal_eq_cons rfl (hP _ _)

theorem release (h : Grows P w w₁) (hP : ∀ a host, P ⟨.stateChanged i a .closed, host⟩) :
    Grows P w (release i w₁) :=
  (h.setState hP).update

theorem keepData {buffer : Ring bufferSize} {length dropped : Nat} (h : Grows P w w₁)
    (hP : ∀ host, P ⟨.bytesDropped i dropped, host⟩) :
    Grows P w (keepData i buffer length dropped w₁) := by
  refine h.trans ?_
  rcases journal_keepData i buffer length dropped w₁ with hj | hj
  · exact of_journal_eq hj
  · exact of_journal_eq_cons hj (hP _)

end World.Grows

theorem Udp.grows_close {P : Moment → Prop} {handle : Nat} (hP : P ⟨.udpClosed handle, w.host⟩) :
    World.Grows P w (Udp.close handle w) := by
  rcases Udp.journal_close handle w with hj | hj
  · exact .of_journal_eq hj
  · exact .of_journal_eq_cons hj hP

abbrev World.Mute (w w' : World δ) : Prop := World.Grows (fun m => m.event.frame? = none) w w'

/-- A relation between worlds which all steps keep at which no frame goes out. -/
structure World.FrameOrder (R : World δ → World δ → Prop) : Prop where
  trans : ∀ {w₁ w₂ w₃ : World δ}, R w₁ w₂ → R w₂ w₃ → R w₁ w₃
  of_mute : ∀ {w w' : World δ}, w.Mute w' → R w w'

theorem World.Grows.frameOrder {P : Moment → Prop}
    (hP : ∀ m : Moment, m.event.frame? = none → P m) :
    World.FrameOrder (World.Grows P : World δ → World δ → Prop) where
  trans := .trans
  of_mute h := h.mono hP

variable {slot : Slot} {header : Header} {message : Bytes} {source : Ipv4.Address}

theorem Tcp.Reaction.interface_eq (h : Reaction slot header message source w w') :
    w'.host.interface = w.host.interface := by
  cases h with
  | reset => unfold handleReset; split <;> simp
  | confirm => simp [setAck]
  | complete => simp
  | closeWait => simp [setAck]
  | data => simp
  | finAcked => simp
  | release => simp

theorem Tcp.Reaction.socketAt_of_ne (h : Reaction slot header message source w w') {j : Slot}
    (hj : slot ≠ j) : socketAt j w' = socketAt j w := by
  cases h with
  | reset => unfold handleReset; split <;> simp [socketAt_setState, socketAt_updateSocket, hj]
  | confirm => simp [setAck, socketAt_setState, socketAt_updateSocket, hj]
  | complete => simp [socketAt_setState, hj]
  | closeWait => simp [setAck, socketAt_setState, socketAt_updateSocket, hj]
  | data => simp [socketAt_keepData, hj]
  | finAcked => simp [socketAt_setState, hj]
  | release => simp [socketAt_release, hj]

theorem Tcp.Reaction.valid (h : Reaction slot header message source w w')
    (hv : (socketAt slot w).buffer.Valid) : (socketAt slot w').buffer.Valid := by
  cases h with
  | reset =>
    by_cases hs : (socketAt slot w).state = .listen ∨ (socketAt slot w).state = .closed
    · rwa [handleReset_of_dead hs]
    · obtain ⟨hl, hc⟩ := not_or.1 hs
      simpa [handleReset_of_alive hl hc] using hv
  | confirm => simpa [setAck] using hv
  | complete => simpa using hv
  | closeWait => simpa [setAck] using hv
  | data _ _ _ _ hp =>
    have hb := hv.of_push hp
    simpa [socketAt_keepData] using hb
  | finAcked => simpa using hv
  | release => simpa [socketAt_release] using Ring.valid_clear _ (by decide)

theorem Tcp.Reaction.grows (h : Reaction slot header message source w w') :
    World.Grows (fun m => m.event.tcpSlot? = some slot.val) w w' := by
  have hw : World.Grows (fun m => m.event.tcpSlot? = some slot.val) w w := .refl w
  cases h with
  | reset _ =>
    by_cases hd : (socketAt slot w).state = .listen ∨ (socketAt slot w).state = .closed
    · rw [handleReset_of_dead hd]
      exact .refl w
    · obtain ⟨hl, hc⟩ := not_or.1 hd
      obtain ⟨host, hj⟩ := journal_handleReset_of_alive hl hc source
      exact ⟨[_, _], hj, List.forall_mem_cons.2 ⟨rfl, List.forall_mem_singleton.2 rfl⟩⟩
  | confirm => exact hw.update.setState fun _ _ => rfl
  | complete => exact hw.setState fun _ _ => rfl
  | closeWait => exact hw.update.setState fun _ _ => rfl
  | @data _ stored =>
    have hrecord := hw.record (e := .dataKept slot source message
      ((message.drop header.dataOffset).take stored)) rfl
    exact hrecord.keepData fun _ => rfl
  | finAcked => exact hw.setState fun _ _ => rfl
  | release => exact hw.release fun _ _ => rfl

theorem Tcp.Reaction.mute (h : Reaction slot header message source w w') : w.Mute w' :=
  h.grows.mono fun _ => Event.frame?_eq_none_of_tcpSlot?

theorem World.Valid.update {f : Socket → Socket} (hv : w.Valid)
    (hf : (f (socketAt slot w)).buffer = (socketAt slot w).buffer) :
    (updateSocket slot f w).Valid := by
  intro j
  rw [socketAt_updateSocket]
  split
  · rw [hf]
    exact hv slot
  · exact hv j

theorem World.Valid.setState {next : State} (hv : w.Valid) : (Tcp.setState slot next w).Valid := by
  intro j
  rw [socketAt_setState]
  split
  · exact hv slot
  · exact hv j

theorem World.Valid.release (hv : w.Valid) : (Tcp.release slot w).Valid := by
  intro j
  rw [Tcp.socketAt_release]
  split
  · exact Ring.valid_clear _ (by decide)
  · exact hv j

variable [Link.Device δ]

theorem Chore.grows (h : Chore w w') : World.Grows (fun m => m.event.isTurn = false) w w' := by
  cases h with
  | remark he => exact .of_journal_eq_cons rfl (Event.isTurn_eq_false_of_isRemark he)
  | noteReply header sent source =>
    exact .of_journal_eq_cons (Icmp.journal_noteReply header sent source w) rfl
  | ask | answer | reply | receive => exact .of_journal_eq_cons rfl rfl
  | readClock | takeFrame | learn => exact .of_journal_eq rfl

theorem Chore.tcp_eq (h : Chore w w') : w'.host.tcp = w.host.tcp := by
  cases h with
  | noteReply => rw [Icmp.host_noteReply]
  | _ => rfl

theorem Chore.interface_eq (h : Chore w w') : w'.host.interface = w.host.interface := by
  cases h with
  | noteReply => rw [Icmp.host_noteReply]
  | _ => rfl

theorem Chore.socketAt_eq (h : Chore w w') (j : Slot) : socketAt j w' = socketAt j w :=
  socketAt_congr j w h.tcp_eq

theorem Evolves.interface_eq (h : Evolves w w') : w'.host.interface = w.host.interface := by
  induction h with
  | refl => rfl
  | trans _ _ ih₁ ih₂ => rw [ih₂, ih₁]
  | chore h => exact h.interface_eq
  | react _ h => exact h.interface_eq
  | segment _ _ _ _ _ _ _ ih => exact ih
  | accept _ _ _ _ _ ih => simpa [advanceSeq, promote] using ih
  | finish _ _ _ _ ih => simpa [setAck] using ih

theorem Evolves.valid (h : Evolves w w') (hv : w.Valid) : w'.Valid := by
  induction h with
  | refl => exact hv
  | trans _ _ ih₁ ih₂ => exact ih₂ (ih₁ hv)
  | chore h =>
    intro j
    rw [h.socketAt_eq]
    exact hv j
  | @react _ _ _ _ _ slot _ h =>
    intro j
    by_cases hj : slot = j
    · exact hj ▸ h.valid (hv slot)
    · rw [h.socketAt_of_ne hj]
      exact hv j
  | segment _ _ _ _ _ _ _ ih => exact ih hv
  | accept _ _ _ _ _ ih => exact (ih (hv.update rfl).setState).update rfl
  | finish _ _ _ _ ih => exact (ih (hv.update rfl)).setState

/-- A relation holds while frames are read, if it does when the host hands one over. -/
theorem Evolves.follows {R : World δ → World δ → Prop} (hR : World.FrameOrder R)
    (hchore : ∀ {w w' : World δ}, Chore w w' → R w w')
    (hsegment : ∀ {w w₁ : World δ} {mac : Mac} (slot : Slot) (flags : Flags) (data : Bytes),
      data.length ≤ Tcp.maxPayload → (socketAt slot w).state ≠ .listen → Evolves w w₁ →
      w.Finds (socketAt slot w).remoteIp mac w₁ → R w w₁ →
      R w (w₁.dispatch mac (socketAt slot w).remoteIp .tcp
        ((socketAt slot w).segment w.host.interface.ip flags data)))
    (h : Evolves w w') : R w w' := by
  have hset (i : Slot) (next : State) (w : World δ) : R w (Tcp.setState i next w) :=
    hR.of_mute ((World.Grows.refl w).setState fun _ _ => rfl)
  have hupdate (i : Slot) (f : Socket → Socket) (w : World δ) : R w (updateSocket i f w) :=
    hR.of_mute (World.Grows.refl w).update
  induction h with
  | refl w => exact hR.of_mute (.refl w)
  | trans _ _ ih₁ ih₂ => exact hR.trans ih₁ ih₂
  | chore h => exact hchore h
  | react _ h => exact hR.of_mute h.mute
  | segment slot flags data hd hn h hf ih => exact hsegment slot flags data hd hn h hf ih
  | accept _ _ _ _ _ ih =>
    exact hR.trans (hR.trans (hR.trans (hupdate _ _ _) (hset _ _ _)) ih) (hupdate _ _ _)
  | finish _ _ _ _ ih => exact hR.trans (hR.trans (hupdate _ _ _) ih) (hset _ _ _)

theorem Evolves.exists_journal_eq (h : Evolves w w') : ∃ new, w'.journal = new ++ w.journal := by
  have hg : World.Grows (fun _ => True) w w' := by
    refine h.follows (World.Grows.frameOrder fun _ _ => trivial) ?_ ?_
    · intro w w' hc
      cases hc with
      | noteReply header sent source =>
        exact .of_journal_eq_cons (Icmp.journal_noteReply header sent source w) trivial
      | remark | ask | answer | reply | receive => exact .of_journal_eq_cons rfl trivial
      | _ => exact .of_journal_eq rfl
    · intro w w₁ mac slot flags data _ _ _ _ hg
      exact hg.trans (.of_journal_eq_cons rfl trivial)
  obtain ⟨new, hj, -⟩ := hg
  exact ⟨new, hj⟩

end InetHost
