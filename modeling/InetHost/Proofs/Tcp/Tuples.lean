import InetHost.Proofs.Tcp.Reset

/-! Which connections a host tells apart. A segment is for the socket that has its ports and the address
of its sender, and if several have them, for the lowest. Frames never bring two open connections to the
same ports and address, and neither does any operation but two: to bind a port is the owner's choice,
and the port of a new connection goes with the next sequence number, which connecting does not take. -/

namespace InetHost

open Tcp

namespace Tcp.Socket

def tuple (s : Socket) : UInt16 × Ipv4.Address × UInt16 := (s.localPort, s.remoteIp, s.remotePort)

def origin (s : Socket) : (UInt16 × Ipv4.Address × UInt16) × UInt32 := (s.tuple, s.seq)

/-- A socket that is one end of a connection. -/
structure Live (s : Socket) : Prop where
  inUse : s.inUse = true
  not_closed : s.state ≠ .closed
  not_listen : s.state ≠ .listen

/-- A socket that keeps its slot and its tuple while frames are read, be it closed. -/
structure Held (s : Socket) : Prop where
  inUse : s.inUse = true
  not_listen : s.state ≠ .listen
  not_lastAck : s.state ≠ .lastAck

theorem Live.held {s : Socket} (h : s.Live) (hl : s.state ≠ .lastAck) : s.Held :=
  ⟨h.inUse, h.not_listen, hl⟩

def standing (s : Socket) : Bool × State × UInt16 × Ipv4.Address × UInt16 :=
  (s.inUse, s.state, s.tuple)

section Congr

variable {s s' : Socket} (h : s'.standing = s.standing)

include h

theorem inUse_congr : s'.inUse = s.inUse := congrArg (fun x => x.1) h

theorem state_congr : s'.state = s.state := congrArg (fun x => x.2.1) h

theorem tuple_congr : s'.tuple = s.tuple := congrArg (fun x => x.2.2) h

theorem Live.congr (hl : s.Live) : s'.Live :=
  ⟨inUse_congr h ▸ hl.inUse, state_congr h ▸ hl.not_closed, state_congr h ▸ hl.not_listen⟩

theorem Held.congr (hs : s.Held) : s'.Held :=
  ⟨inUse_congr h ▸ hs.inUse, state_congr h ▸ hs.not_listen, state_congr h ▸ hs.not_lastAck⟩

end Congr

end Tcp.Socket

variable {δ : Type} {w w' w₁ w₂ : World δ} {P : Slot → Prop} {i j slot : Slot}

def World.DistinctOn (P : Slot → Prop) (w : World δ) : Prop :=
  ∀ i j, P i → P j → (socketAt i w).Live → (socketAt j w).Live →
    (socketAt i w).tuple = (socketAt j w).tuple → i = j

abbrev World.Distinct (w : World δ) : Prop := w.DistinctOn fun _ => True

namespace World.DistinctOn

theorem of_live (h : w.DistinctOn P) (hl : ∀ j, P j → (socketAt j w').Live →
    (socketAt j w).Live ∧ (socketAt j w).tuple = (socketAt j w').tuple) : w'.DistinctOn P := by
  intro i j hi hj hli hlj ht
  obtain ⟨hli, hti⟩ := hl i hi hli
  obtain ⟨hlj, htj⟩ := hl j hj hlj
  exact h i j hi hj hli hlj (by rw [hti, htj, ht])

theorem of_standing (h : w.DistinctOn P)
    (hs : ∀ j, P j → (socketAt j w').standing = (socketAt j w).standing) : w'.DistinctOn P :=
  h.of_live fun j hj hl => ⟨hl.congr (hs j hj).symm, (Socket.tuple_congr (hs j hj)).symm⟩

theorem of_slot (h : w.DistinctOn fun i => P i ∧ i ≠ slot)
    (hd : ∀ j, P slot → P j → j ≠ slot → (socketAt slot w).Live → (socketAt j w).Live →
      (socketAt j w).tuple ≠ (socketAt slot w).tuple) : w.DistinctOn P := by
  intro i j hi hj hli hlj ht
  by_cases hsi : i = slot
  · by_cases hsj : j = slot
    · rw [hsi, hsj]
    · subst hsi
      exact absurd ht.symm (hd j hi hj hsj hli hlj)
  · by_cases hsj : j = slot
    · subst hsj
      exact absurd ht (hd i hj hi hsi hlj hli)
    · exact h i j ⟨hi, hsi⟩ ⟨hj, hsj⟩ hli hlj ht

theorem mono {Q : Slot → Prop} (h : w.DistinctOn P) (hq : ∀ i, Q i → P i) : w.DistinctOn Q :=
  fun i j hi hj => h i j (hq i hi) (hq j hj)

end World.DistinctOn

theorem Tcp.standing_setAck (i : Slot) (ack : UInt32) (w : World δ) (j : Slot) :
    (socketAt j (setAck i ack w)).standing = (socketAt j w).standing :=
  updateSocket_congr Socket.standing rfl j

theorem Tcp.standing_advanceSeq (i : Slot) (n : UInt32) (w : World δ) (j : Slot) :
    (socketAt j (advanceSeq i n w)).standing = (socketAt j w).standing :=
  updateSocket_congr Socket.standing rfl j

theorem Tcp.origin_setAck (i : Slot) (ack : UInt32) (w : World δ) (j : Slot) :
    (socketAt j (setAck i ack w)).origin = (socketAt j w).origin :=
  updateSocket_congr Socket.origin rfl j

theorem Tcp.origin_setState (i : Slot) (next : State) (w : World δ) (j : Slot) :
    (socketAt j (setState i next w)).origin = (socketAt j w).origin :=
  setState_congr Socket.origin (by rfl) j

@[simp] theorem Tcp.tuple_setState (i : Slot) (next : State) (w : World δ) (j : Slot) :
    (socketAt j (setState i next w)).tuple = (socketAt j w).tuple :=
  setState_congr Socket.tuple (by rfl) j

theorem Tcp.standing_setState (i : Slot) (next : State)
    (h : ∀ j, (socketAt j w').standing = (socketAt j w).standing) (j : Slot) :
    (socketAt j (setState i next w')).standing = (socketAt j (setState i next w)).standing := by
  rw [socketAt_setState, socketAt_setState]
  split
  · have ht : (socketAt i w').tuple = (socketAt i w).tuple := Socket.tuple_congr (h i)
    exact Prod.ext (Socket.inUse_congr (h i)) (Prod.ext rfl ht)
  · exact h j

namespace World.DistinctOn

theorem of_not_live (h : w.DistinctOn (· ≠ slot))
    (hne : ∀ j, j ≠ slot → (socketAt j w').standing = (socketAt j w).standing)
    (hs : ¬(socketAt slot w').Live) : w'.Distinct :=
  .of_slot ((h.mono fun _ hi => hi.2).of_standing fun j hj => hne j hj.2)
    fun _ _ _ _ hl _ => absurd hl hs

theorem setState {next : State} (h : w.DistinctOn (· ≠ slot))
    (hn : next = .closed ∨ next = .listen) : (setState slot next w).Distinct := by
  refine h.of_not_live (fun j hj => ?_) fun hl => ?_
  · rw [socketAt_setState, if_neg hj.symm]
  · rw [socketAt_setState_self] at hl
    exact hn.elim hl.not_closed hl.not_listen

theorem release (h : w.DistinctOn (· ≠ slot)) : (release slot w).Distinct := by
  refine h.of_not_live (fun j hj => ?_) fun hl => ?_
  · rw [socketAt_release, if_neg hj.symm]
  · rw [socketAt_release, if_pos rfl] at hl
    exact hl.not_closed rfl

end World.DistinctOn

section Reading

variable {header : Header} {message : Bytes} {source : Ipv4.Address}

theorem Tcp.Reaction.origin_eq (h : Reaction slot header message source w w') (j : Slot) :
    (socketAt j w').origin = (socketAt j w).origin := by
  by_cases hj : slot = j
  · subst hj
    cases h with
    | reset _ =>
      by_cases hs : (socketAt slot w).state = .listen ∨ (socketAt slot w).state = .closed
      · rw [handleReset_of_dead hs]
      · obtain ⟨hn, hc⟩ := not_or.1 hs
        rw [socketAt_handleReset_of_alive hn hc, if_pos rfl]
        rfl
    | confirm | closeWait => rw [origin_setState, origin_setAck]
    | complete | finAcked => rw [origin_setState]
    | data =>
      rw [socketAt_keepData, if_pos rfl]
      rfl
    | release =>
      rw [socketAt_release, if_pos rfl]
      rfl
  · rw [h.socketAt_of_ne hj]

theorem Tcp.Reaction.tuple_eq (h : Reaction slot header message source w w') (j : Slot) :
    (socketAt j w').tuple = (socketAt j w).tuple :=
  congrArg Prod.fst (h.origin_eq j)

theorem Tcp.Reaction.live (h : Reaction slot header message source w w')
    (hl : (socketAt j w').Live) : (socketAt j w).Live := by
  by_cases hj : slot = j
  · subst hj
    have hlive {s : State} (hu : (socketAt slot w).inUse = true) (hs : (socketAt slot w).state = s)
        (hn : s ≠ .closed ∧ s ≠ .listen) : (socketAt slot w).Live := ⟨hu, hs ▸ hn.1, hs ▸ hn.2⟩
    cases h with
    | reset _ =>
      by_cases hs : (socketAt slot w).state = .listen ∨ (socketAt slot w).state = .closed
      · rwa [handleReset_of_dead hs] at hl
      · obtain ⟨hn, hc⟩ := not_or.1 hs
        rw [socketAt_handleReset_of_alive hn hc, if_pos rfl] at hl
        exact absurd rfl hl.not_closed
    | confirm _ hs _ _ | closeWait _ hs _ =>
      rw [socketAt_setState_self, socketAt_setAck, if_pos rfl] at hl
      exact hlive hl.inUse hs (by decide)
    | complete _ hs _ | finAcked _ hs _ =>
      rw [socketAt_setState_self] at hl
      exact hlive hl.inUse hs (by decide)
    | data _ hs _ _ _ =>
      rw [socketAt_keepData, if_pos rfl] at hl
      exact hlive hl.inUse hs (by decide)
    | release _ _ _ =>
      rw [socketAt_release, if_pos rfl] at hl
      exact absurd hl.inUse Bool.false_ne_true
  · rwa [h.socketAt_of_ne hj] at hl

theorem Tcp.tuple_promote (header : Header) (source : Ipv4.Address) (w : World δ) :
    (socketAt slot (promote slot header source w)).tuple =
      ((socketAt slot w).localPort, source, header.source) := by
  rw [socketAt_promote, if_pos rfl]
  rfl

theorem Tcp.Addressed.tuple_ne (ha : Addressed w message source header slot)
    (hl : (socketAt slot w).state = .listen) (hu : (socketAt i w).inUse = true)
    (hn : (socketAt i w).state ≠ .listen) :
    (socketAt i w).tuple ≠ (socketAt slot (promote slot header source w)).tuple := by
  intro ht
  rcases Option.or_eq_some_iff.1 ha.found with hc | ⟨hnone, hlisten⟩
  · -- A connection is never in the state of listening.
    have hfound := Slots.of_first?_eq_some hc
    simp only [Bool.and_eq_true, decide_eq_true_eq] at hfound
    exact hfound.1.1.2 hl
  · have hport : (socketAt slot w).localPort = header.dest := by
      have hfound := Slots.of_first?_eq_some hlisten
      simp only [Bool.and_eq_true, decide_eq_true_eq] at hfound
      exact hfound.1.2
    rw [tuple_promote, hport] at ht
    obtain ⟨hp, hrest⟩ := Prod.mk.inj ht
    obtain ⟨hip, hremote⟩ := Prod.mk.inj hrest
    have hother := Slots.first?_eq_none_iff.1 hnone i
    rw [socketAt] at hu hn hp hip hremote
    simp [hu, hn, hp, hip, hremote] at hother

end Reading

theorem Tcp.State.listen_notMem_reach {s : State} (h : s ≠ .listen) : .listen ∉ s.reach := by
  cases s <;> simp_all [reach]

theorem Tcp.State.lastAck_notMem_reach {s : State} (h : s ≠ .lastAck) : .lastAck ∉ s.reach := by
  cases s <;> simp_all [reach]

variable [Link.Device δ]

theorem Evolves.not_listen (h : Evolves w w') (hn : (socketAt i w).state ≠ .listen) :
    (socketAt i w').state ≠ .listen :=
  fun hs => State.listen_notMem_reach hn (hs ▸ h.state_mem_reach i)

theorem Evolves.origin_eq (h : Evolves w w') (hn : (socketAt i w).state ≠ .listen) :
    (socketAt i w').origin = (socketAt i w).origin := by
  induction h with
  | refl => rfl
  | trans h₁ _ ih₁ ih₂ => rw [ih₂ (h₁.not_listen hn), ih₁ hn]
  | chore h => rw [h.socketAt_eq]
  | react _ h => exact h.origin_eq i
  | segment _ _ _ _ _ _ _ ih => exact ih hn
  | @accept w w₁ message source header slot _ _ hl _ _ ih =>
    have hi : slot ≠ i := fun hi => hn (hi ▸ hl)
    rw [socketAt_promote, if_neg hi] at ih
    rw [socketAt_advanceSeq, if_neg hi, ih hn]
  | @finish w w₁ header slot _ _ _ _ ih =>
    have hs : (socketAt i (setAck slot (header.seq + 1) w)).standing = (socketAt i w).standing :=
      standing_setAck slot (header.seq + 1) w i
    have hn' : (socketAt i (setAck slot (header.seq + 1) w)).state ≠ .listen := by
      rwa [Socket.state_congr hs]
    rw [origin_setState, ih hn', origin_setAck]

theorem Evolves.tuple_eq (h : Evolves w w') (hn : (socketAt i w).state ≠ .listen) :
    (socketAt i w').tuple = (socketAt i w).tuple :=
  congrArg Prod.fst (h.origin_eq hn)

theorem Evolves.held (h : Evolves w w') (hi : (socketAt i w).Held) : (socketAt i w').Held where
  inUse := h.inUse_of_ne_lastAck hi.inUse hi.not_lastAck
  not_listen := h.not_listen hi.not_listen
  not_lastAck hs := State.lastAck_notMem_reach hi.not_lastAck (hs ▸ h.state_mem_reach i)

/-- While a socket is held, no other comes to be live with its tuple. -/
theorem Evolves.live_of_held (h : Evolves w w') (hi : (socketAt i w).Held)
    (hl : (socketAt j w').Live) (ht : (socketAt j w').tuple = (socketAt i w).tuple) :
    (socketAt j w).Live ∧ (socketAt j w).tuple = (socketAt i w).tuple := by
  induction h with
  | refl => exact ⟨hl, ht⟩
  | trans h₁ _ ih₁ ih₂ =>
    have hkept := h₁.tuple_eq hi.not_listen
    obtain ⟨hl₁, ht₁⟩ := ih₂ (h₁.held hi) hl (by rw [hkept, ht])
    exact ih₁ hi hl₁ (by rw [ht₁, hkept])
  | chore h =>
    rw [h.socketAt_eq] at hl ht
    exact ⟨hl, ht⟩
  | react _ h => exact ⟨h.live hl, by rw [← h.tuple_eq j, ht]⟩
  | segment _ _ _ _ _ _ _ ih => exact ih hi hl ht
  | @accept w w₁ message source header slot ha _ hs _ _ ih =>
    have hne : slot ≠ i := fun he => hi.not_listen (he ▸ hs)
    have hsame : socketAt i (promote slot header source w) = socketAt i w := by
      rw [socketAt_promote, if_neg hne]
    have hlast := standing_advanceSeq slot 1 w₁ j
    obtain ⟨hl₀, ht₀⟩ := ih (hsame.symm ▸ hi) (hl.congr hlast.symm)
      (by rw [hsame, ← ht, Socket.tuple_congr hlast])
    by_cases hj : slot = j
    · subst hj
      rw [hsame] at ht₀
      exact absurd ht₀.symm (ha.tuple_ne hs hi.inUse hi.not_listen)
    · rw [socketAt_promote, if_neg hj] at hl₀ ht₀
      exact ⟨hl₀, hsame ▸ ht₀⟩
  | @finish w w₁ header slot hu hs _ h ih =>
    have hack (k : Slot) := standing_setAck slot (header.seq + 1) w k
    rw [tuple_setState] at ht
    by_cases hj : slot = j
    · -- The socket was live before the wait, whatever has become of it meanwhile.
      subst hj
      have hlive : (socketAt slot w).Live := ⟨hu, by rcases hs with hs | hs <;> simp [hs],
        by rcases hs with hs | hs <;> simp [hs]⟩
      refine ⟨hlive, ?_⟩
      rw [← ht, h.tuple_eq (hlive.congr (hack slot)).not_listen, Socket.tuple_congr (hack slot)]
    · rw [socketAt_setState, if_neg hj] at hl
      obtain ⟨hl₀, ht₀⟩ := ih (hi.congr (hack i)) hl (by rw [ht, Socket.tuple_congr (hack i)])
      exact ⟨hl₀.congr (hack j).symm, by rw [← Socket.tuple_congr (hack j), ht₀,
        Socket.tuple_congr (hack i)]⟩

theorem World.DistinctOn.resume (hd : w.DistinctOn P) (h : Evolves w w₁) (hd₁ : w₁.DistinctOn P)
    (hs : (socketAt slot w).Live) (hl : (socketAt slot w).state ≠ .lastAck) (next : State) :
    (Tcp.setState slot next w₁).DistinctOn P := by
  have hother (j : Slot) (hj : j ≠ slot) :
      socketAt j (Tcp.setState slot next w₁) = socketAt j w₁ := by
    rw [socketAt_setState, if_neg hj.symm]
  refine .of_slot ((hd₁.mono fun _ hi => hi.1).of_standing fun j hj => by rw [hother j hj.2]) ?_
  intro j hps hpj hj _ hlj ht
  rw [tuple_setState, tuple_setState, h.tuple_eq hs.not_listen] at ht
  rw [hother j hj] at hlj
  obtain ⟨hlive, htuple⟩ := h.live_of_held (hs.held hl) hlj ht
  exact hj (hd j slot hpj hps hlive hs htuple)

theorem Evolves.distinctOn (h : Evolves w w') (hd : w.DistinctOn P) : w'.DistinctOn P := by
  induction h with
  | refl => exact hd
  | trans _ _ ih₁ ih₂ => exact ih₂ (ih₁ hd)
  | chore h => exact hd.of_standing fun j _ => by rw [h.socketAt_eq]
  | react _ h => exact hd.of_live fun j _ hl => ⟨h.live hl, (h.tuple_eq j).symm⟩
  | segment _ _ _ _ _ _ _ ih => exact ih hd
  | @accept w w₁ message source header slot ha _ hs _ _ ih =>
    have hother (j : Slot) (hj : j ≠ slot) :
        socketAt j (promote slot header source w) = socketAt j w := by
      rw [socketAt_promote, if_neg hj.symm]
    have hpromoted : (promote slot header source w).DistinctOn P := by
      refine .of_slot ((hd.mono fun _ hi => hi.1).of_standing fun j hj => by rw [hother j hj.2]) ?_
      intro j _ _ hj _ hl
      rw [hother j hj] at hl ⊢
      exact ha.tuple_ne hs hl.inUse hl.not_listen
    exact (ih hpromoted).of_standing fun j _ => standing_advanceSeq slot 1 w₁ j
  | @finish w w₁ header slot hu hs _ h ih =>
    have hack (k : Slot) := standing_setAck slot (header.seq + 1) w k
    have hd₀ : (setAck slot (header.seq + 1) w).DistinctOn P := hd.of_standing fun j _ => hack j
    have hlive : (socketAt slot (setAck slot (header.seq + 1) w)).Live := by
      refine .congr (hack slot) ⟨hu, ?_, ?_⟩ <;> rcases hs with hs | hs <;> simp [hs]
    refine hd₀.resume h (ih hd₀) hlive ?_ .timeWait
    rw [Socket.state_congr (hack slot)]
    rcases hs with hs | hs <;> simp [hs]

theorem Errand.distinct {op : Operation δ} (h : Errand op w w') (hd : w.Distinct) : w'.Distinct := by
  induction h with
  | evolves h => exact h.distinctOn hd
  | deed h => exact hd.of_standing fun j _ => by rw [h.socketAt_eq]
  | trans _ _ ih₁ ih₂ => exact ih₂ (ih₁ hd)

namespace Operation

variable {op : Operation δ}

def isBind : Operation δ → Bool
  | tcpBind .. => true
  | _ => false

/-- A socket is connected from the port and to the remote end of another that is live. -/
def Doubles (op : Operation δ) (w w' : World δ) : Prop :=
  ∃ (slot j : Slot) (ip : Ipv4.Address) (port : UInt16), op = .tcpConnect slot ip port ∧
    (socketAt slot w).state = .closed ∧ (socketAt j w).Live ∧
    (socketAt j w).tuple = (socketAt slot (dial slot ip port w)).tuple ∧
    (socketAt slot w').Live ∧ (socketAt j w').Live

section Connecting

variable {ip : Ipv4.Address} {port : UInt16} (hu : (socketAt slot w).inUse = true)
  (h₁ : Evolves (dial slot ip port w) w₁) (h₂ : Evolves (advanceSeq slot 1 w₁) w₂)

omit [Link.Device δ] in
theorem distinctOn_dial (hd : w.Distinct) : (dial slot ip port w).DistinctOn (· ≠ slot) :=
  (hd.mono fun _ _ => trivial).of_standing fun j hj => by
    rw [socketAt_dial, if_neg (Ne.symm hj)]

include h₁ h₂ in
theorem distinctOn_of_connected (hd : w.Distinct) : w₂.DistinctOn (· ≠ slot) :=
  h₂.distinctOn
    ((h₁.distinctOn (distinctOn_dial hd)).of_standing fun j _ => standing_advanceSeq slot 1 w₁ j)

include hu

omit [Link.Device δ] in
theorem held_dial : (socketAt slot (dial slot ip port w)).Held := by
  rw [socketAt_dial, if_pos rfl]
  exact ⟨hu, nofun, nofun⟩

include h₁ in
theorem held_advanceSeq_of_dial : (socketAt slot (advanceSeq slot 1 w₁)).Held :=
  (h₁.held (held_dial hu)).congr (standing_advanceSeq slot 1 w₁ slot)

include h₁ h₂

omit hu in
theorem tuple_of_ne (hj : j ≠ slot) (hn : (socketAt j w).state ≠ .listen) :
    (socketAt j w₂).tuple = (socketAt j w).tuple := by
  have hsame : socketAt j (dial slot ip port w) = socketAt j w := by
    rw [socketAt_dial, if_neg hj.symm]
  have hlast := standing_advanceSeq slot 1 w₁ j
  have hn₁ : (socketAt j w₁).state ≠ .listen := h₁.not_listen (hsame.symm ▸ hn)
  have hn₂ : (socketAt j (advanceSeq slot 1 w₁)).state ≠ .listen := by
    rwa [Socket.state_congr hlast]
  rw [h₂.tuple_eq hn₂, Socket.tuple_congr hlast, h₁.tuple_eq (hsame.symm ▸ hn), hsame]

theorem tuple_of_connected :
    (socketAt slot w₂).tuple = (socketAt slot (dial slot ip port w)).tuple := by
  rw [h₂.tuple_eq (held_advanceSeq_of_dial hu h₁).not_listen,
    Socket.tuple_congr (standing_advanceSeq slot 1 w₁ slot), h₁.tuple_eq (held_dial hu).not_listen]

theorem live_of_connected (hj : j ≠ slot) (hl : (socketAt j w₂).Live)
    (ht : (socketAt j w₂).tuple = (socketAt slot w₂).tuple) : (socketAt j w).Live ∧
      (socketAt j w).tuple = (socketAt slot (dial slot ip port w)).tuple := by
  have hsame : socketAt j (dial slot ip port w) = socketAt j w := by
    rw [socketAt_dial, if_neg hj.symm]
  have hlast (k : Slot) := standing_advanceSeq slot 1 w₁ k
  have hkept := h₂.tuple_eq (held_advanceSeq_of_dial hu h₁).not_listen
  obtain ⟨hl₁, ht₁⟩ := h₂.live_of_held (held_advanceSeq_of_dial hu h₁) hl (by rw [ht, hkept])
  rw [Socket.tuple_congr (hlast j), Socket.tuple_congr (hlast slot),
    h₁.tuple_eq (held_dial hu).not_listen] at ht₁
  rw [← hsame]
  exact h₁.live_of_held (held_dial hu) (hl₁.congr (hlast j).symm) ht₁

end Connecting

theorem Works.not_distinct (h : op.Works w w') (hd : op.Doubles w w') : ¬w'.Distinct := by
  obtain ⟨slot, j, ip, port, hop, hs, hj, ht, hl, hl'⟩ := hd
  intro hdistinct
  have hne : j ≠ slot := by
    rintro rfl
    exact hj.not_closed hs
  cases h with
  | @connected _ w₁ _ i ip' port' hu _ h₁ h₂ _ =>
    obtain ⟨hi, rfl, rfl⟩ := Operation.tcpConnect.inj hop
    obtain rfl : i = slot := Fin.ext hi
    refine hne (hdistinct j i trivial trivial hl' hl ?_)
    rw [tuple_of_ne h₁ h₂ hne hj.not_listen, ht, tuple_of_connected hu h₁ h₂]
  | errand hn _ => simp [hop, connection?] at hn
  | refused => exact hl.not_closed hs
  | @connectUnsent _ w₁ i _ _ _ _ _ =>
    obtain ⟨hi, -, -⟩ := Operation.tcpConnect.inj hop
    obtain rfl : i = slot := Fin.ext hi
    rw [socketAt_setState_self] at hl
    exact hl.not_closed rfl
  | @notConnected _ w₁ w₂ i _ _ _ _ _ _ =>
    obtain ⟨hi, -, -⟩ := Operation.tcpConnect.inj hop
    obtain rfl : i = slot := Fin.ext hi
    rw [socketAt_setState_self] at hl
    exact hl.not_closed rfl
  | _ => cases hop

theorem Works.distinct (h : op.Works w w') (hd : w.Distinct) (hb : op.isBind = false)
    (hn : ¬op.Doubles w w') : w'.Distinct := by
  have hrest {w : World δ} (hd : w.Distinct) (i : Slot) : w.DistinctOn (· ≠ i) :=
    hd.mono fun _ _ => trivial
  cases h with
  | errand _ h => exact h.distinct hd
  | refused => exact hd
  | ipv4Send _ _ _ h _ => exact h.distinctOn hd
  | notSent _ _ h => exact h.distinctOn hd
  | notReceived _ _ h => exact h.distinctOn hd
  | @tcpOpen _ i hf =>
    refine (hrest hd i).of_not_live (fun j hj => ?_) fun hl => ?_
    · rw [socketAt_openAt, if_neg hj.symm]
    · rw [socketAt_openAt, if_pos rfl] at hl
      exact hl.not_closed rfl
  | tcpBind _ _ => simp [isBind] at hb
  | @tcpListen _ i _ => exact (hrest hd i).setState (.inr rfl)
  | connectUnsent _ _ _ _ h₁ => exact (h₁.distinctOn (distinctOn_dial hd)).setState (.inl rfl)
  | @connected _ w₁ _ i ip port hu hs h₁ h₂ he =>
    refine .of_slot ((distinctOn_of_connected h₁ h₂ hd).mono fun _ hi => hi.2) ?_
    intro j _ _ hj hl hlj ht
    obtain ⟨hlive, htuple⟩ := live_of_connected hu h₁ h₂ hj hlj ht
    exact hn ⟨i, j, ip, port, rfl, hs, hlive, htuple, hl, hlj⟩
  | notConnected _ _ _ _ h₁ h₂ => exact (distinctOn_of_connected h₁ h₂ hd).setState (.inl rfl)
  | @tcpSend _ w₁ i _ _ _ h =>
    exact (h.distinctOn hd).of_standing fun j _ => standing_advanceSeq i _ w₁ j
  | tcpReceive _ _ h _ _ =>
    exact (h.distinctOn hd).of_standing fun j _ => updateSocket_congr Socket.standing (by rfl) j
  | @closeEstablished _ w₁ i _ _ h =>
    refine World.DistinctOn.release ((hrest (h.distinctOn hd) i).of_standing fun j hj => ?_)
    rw [socketAt_setState, if_neg (Ne.symm hj), standing_advanceSeq]
  | @closeWaiting _ w₁ i hu hs h =>
    have hlive : (socketAt i w).Live := ⟨hu, by simp [hs], by simp [hs]⟩
    exact (hd.resume h (h.distinctOn hd) hlive (by simp [hs]) .lastAck).of_standing
      fun j _ => standing_setState i .lastAck (standing_advanceSeq i 1 w₁) j
  | @closeOther _ i _ _ _ => exact (hrest hd i).release
  | @tcpShutdown _ w₁ i hu hs h =>
    have hlive : (socketAt i w).Live := ⟨hu, by simp [hs], by simp [hs]⟩
    exact (hd.resume h (h.distinctOn hd) hlive (by simp [hs]) .finWait1).of_standing
      fun j _ => standing_setState i .finWait1 (standing_advanceSeq i 1 w₁) j

end Operation

inductive ReachableBy (P : Operation δ → World δ → World δ → Prop) : World δ → Prop
  | start (device : δ) (clock : Clock) (interface : Interface) :
      ReachableBy P (World.start device clock interface)
  | step {w w' : World δ} (op : Operation δ) :
      ReachableBy P w → op.Runs w w' → P op w w' → ReachableBy P w'

namespace ReachableBy

variable {P : Operation δ → World δ → World δ → Prop}

theorem reachable (h : ReachableBy P w) : Reachable w := by
  induction h with
  | start device clock interface => exact .start device clock interface
  | step op _ hr _ ih => exact ih.step op hr

theorem of_runAll {fuel : Nat} {ops : List (Operation δ)} (hw : ReachableBy P w)
    (hops : ∀ op ∈ ops, ∀ w w', P op w w') (h : Operation.runAll fuel ops w = some w') :
    ReachableBy P w' := by
  induction ops generalizing w with
  | nil => exact Option.some.inj h ▸ hw
  | cons op ops ih =>
    simp only [Operation.runAll] at h
    split at h
    · rename_i w₁ hr
      exact ih (hw.step op ⟨fuel, hr⟩ (hops op (by simp) _ _))
        (fun op hop => hops op (List.mem_cons_of_mem _ hop)) h
    · simp at h

theorem after (hw : ReachableBy P w) (fuel : Nat) {ops : List (Operation δ)}
    (hops : ∀ op ∈ ops, ∀ w w', P op w w') : ReachableBy P (w.after fuel ops) := by
  cases h : Operation.runAll fuel ops w with
  | none => rwa [World.after, h]
  | some w' =>
    rw [World.after, h]
    exact hw.of_runAll hops h

end ReachableBy

structure Operation.Apart (op : Operation δ) (w w' : World δ) : Prop where
  not_bind : op.isBind = false
  not_doubles : ¬op.Doubles w w'

theorem World.distinct_start (device : δ) (clock : Clock) (interface : Interface) :
    (start device clock interface).Distinct := by
  intro i j _ _ hl
  rw [socketAt_start] at hl
  exact absurd hl.inUse Bool.false_ne_true

theorem ReachableBy.distinct (h : ReachableBy Operation.Apart w) : w.Distinct := by
  induction h with
  | start device clock interface => exact World.distinct_start device clock interface
  | step op hw hr hp ih => exact (hr.works hw.reachable.safe).distinct ih hp.not_bind hp.not_doubles

/-- Without binding, live tuples are distinct until a socket is connected with the tuple of a live one. -/
theorem tuples_distinct_iff {op : Operation δ} (h : ReachableBy Operation.Apart w)
    (hb : op.isBind = false) (hr : op.Runs w w') :
    w.Distinct ∧ (w'.Distinct ↔ ¬op.Doubles w w') := by
  have hworks := hr.works h.reachable.safe
  refine ⟨h.distinct, fun hd hdoubles => hworks.not_distinct hdoubles hd, fun hn => ?_⟩
  exact hworks.distinct h.distinct hb hn

namespace Tcp

def answerFrame (port : UInt16) (seq ack : UInt32) : Bytes :=
  peerFrame 80 port seq ack { syn := true, ack := true }

def paired : World Link.Script :=
  (World.start ⟨[], 0, [], [(0, [.frame (answerFrame 49154 100 2)]),
    (2, [.frame (answerFrame 49154 200 1)])]⟩ ⟨0, 500, []⟩ Interface.default).after 4
      [.arpLearn peer.ip peer.mac, .tcpOpen, .tcpOpen]

def firstCall : World Link.Script := paired.after 4 [.tcpConnect 1 peer.ip 80]

def twins : World Link.Script := firstCall.after 4 [.tcpConnect 0 peer.ip 80]

theorem apart_paired : ReachableBy Operation.Apart paired := by
  refine ReachableBy.after (.start ..) 4 fun op hop w w' => ?_
  simp only [List.mem_cons, List.not_mem_nil, or_false] at hop
  rcases hop with rfl | rfl | rfl
  all_goals
    refine ⟨rfl, ?_⟩
    rintro ⟨_, _, _, _, hc, -⟩
    cases hc

theorem runs_firstCall : (Operation.tcpConnect 1 peer.ip 80).Runs paired firstCall :=
  Operation.runs_after (by decide +kernel)

end Tcp

theorem tuples_distinct_iff_firstCall : ReachableBy Operation.Apart paired ∧
    (Operation.tcpConnect 1 peer.ip 80).Runs paired firstCall ∧
    (socketAt 1 firstCall).state = .established ∧ firstCall.Distinct := by
  have h := tuples_distinct_iff apart_paired rfl runs_firstCall
  have hclosed : ∀ j, (socketAt j paired).state = .closed := by decide +kernel
  have hn : ¬(Operation.tcpConnect 1 peer.ip 80).Doubles paired firstCall := by
    rintro ⟨_, j, _, _, _, _, hj, _⟩
    exact hj.not_closed (hclosed j)
  exact ⟨apart_paired, runs_firstCall, by decide +kernel, h.2.2 hn⟩

/-- No socket was opened between the two calls, so both are from the same port to the same remote end. -/
theorem tuples_alike_twins : ReachableBy (fun op _ _ => op.isBind = false) twins ∧
    (socketAt 0 twins).Live ∧ (socketAt 1 twins).Live ∧
    (socketAt 0 twins).tuple = (49154, peer.ip, 80) ∧
    (socketAt 1 twins).tuple = (49154, peer.ip, 80) ∧ ¬twins.Distinct := by
  have hpaired : ReachableBy (fun op _ _ => op.isBind = false) paired :=
    .after (.start ..) 4 (by simp [Operation.isBind])
  have hfirst : ReachableBy (fun op _ _ => op.isBind = false) firstCall :=
    hpaired.step _ runs_firstCall rfl
  have hruns : (Operation.tcpConnect 0 peer.ip 80).Runs firstCall twins :=
    Operation.runs_after (by decide +kernel)
  have h₀ : (socketAt 0 twins).Live := ⟨by decide +kernel, by decide +kernel, by decide +kernel⟩
  have h₁ : (socketAt 1 twins).Live := ⟨by decide +kernel, by decide +kernel, by decide +kernel⟩
  have ht₀ : (socketAt 0 twins).tuple = (49154, peer.ip, 80) := by decide +kernel
  have ht₁ : (socketAt 1 twins).tuple = (49154, peer.ip, 80) := by decide +kernel
  refine ⟨hfirst.step _ hruns rfl, h₀, h₁, ht₀, ht₁, fun hd => ?_⟩
  exact absurd (hd 0 1 trivial trivial h₀ h₁ (ht₀.trans ht₁.symm)) (by decide)

end InetHost
