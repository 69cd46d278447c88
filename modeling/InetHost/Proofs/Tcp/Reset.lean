import InetHost.Proofs.Host.Tables

/-! What a reset leaves behind. A reset connection is closed, and no frame opens it again. But an
operation that sends may read frames before it is done, and some operations write the state of a
connection after they have sent: those writes are all that can come between a reset and the end of
an operation. -/

namespace InetHost

open Tcp

namespace Tcp

namespace Trace

variable {slot : Slot} {s b : State} {es later earlier : List Event}

theorem after_reset {source : Ipv4.Address} (h : Trace slot s es b)
    (he : es = later ++ .connectionReset slot source :: earlier)
    (hlast : ∀ source', .connectionReset slot source' ∉ later) :
    b = if .stateChanged slot .closed .timeWait ∈ later then .timeWait else .closed := by
  -- Along the path, `later` loses its newest line; the last reset ends the induction.
  induction h generalizing later with
  | nil => simp at he
  | @skip es a e hc _ ih =>
    cases later with
    | nil =>
      obtain ⟨rfl, -⟩ := List.cons.inj he
      simp [Event.concerns] at hc
    | cons e' later =>
      obtain ⟨rfl, ht⟩ := List.cons.inj he
      have hn : Event.stateChanged slot .closed .timeWait ≠ e := by
        rintro rfl
        simp [Event.concerns] at hc
      rw [ih ht fun source' hm => hlast source' (List.mem_cons_of_mem e hm)]
      simp [hn]
  | @move es a b hm _ ih =>
    cases later with
    | nil => simp at he
    | cons e' later =>
      obtain ⟨rfl, ht⟩ := List.cons.inj he
      -- No segment moves a connection out of `closed` or `timeWait`.
      have ha := ih ht fun source' hm => hlast source' (List.mem_cons_of_mem _ hm)
      split at ha <;> subst ha <;> simp [State.moves] at hm
  | @reset es a source' hl hc _ _ =>
    cases later with
    | nil => simp at he
    | cons e later =>
      obtain ⟨rfl, ht⟩ := List.cons.inj he
      cases later with
      | nil =>
        rw [if_neg]
        simp [hc.symm]
      | cons e' later =>
        obtain ⟨rfl, -⟩ := List.cons.inj ht
        exact absurd (by simp) (hlast source')
  | @revive es hs _ ih =>
    cases later with
    | nil => simp at he
    | cons e' later =>
      obtain ⟨rfl, -⟩ := List.cons.inj he
      simp

theorem dead_of_reset {source : Ipv4.Address} (h : Trace slot s es b)
    (he : .connectionReset slot source ∈ es) : b = .closed ∨ b = .timeWait := by
  induction h with
  | nil => simp at he
  | skip hc _ ih =>
    rcases List.mem_cons.1 he with rfl | he
    · simp [Event.concerns] at hc
    · exact ih he
  | move hm _ ih =>
    have ha := ih (by simpa using he)
    rcases ha with rfl | rfl <;> simp [State.moves] at hm
  | reset => exact .inl rfl
  | revive => exact .inr rfl

theorem not_mem_of_not_finWait (h : Trace slot s es b)
    (hs : ¬(s = .finWait1 ∨ s = .finWait2)) : .stateChanged slot .closed .timeWait ∉ es := by
  induction h with
  | nil => simp
  | skip hc _ ih =>
    intro hm
    rcases List.mem_cons.1 hm with rfl | hm
    · simp [Event.concerns] at hc
    · exact ih hm
  | move hmv _ ih =>
    intro hm
    rcases List.mem_cons.1 hm with he | hm
    · obtain ⟨-, rfl, rfl⟩ := Event.stateChanged.inj he
      simp [State.moves] at hmv
    · exact ih hm
  | reset source hl hc _ ih =>
    intro hm
    simp only [List.mem_cons] at hm
    rcases hm with he | he | hm
    · simp at he
    · simp at he
    · exact ih hm
  | revive hf _ _ => exact absurd hf hs

end Trace

end Tcp

variable {δ : Type} {w w' w₁ w₂ : World δ} {slot : Slot}

abbrev Tcp.Unrevived (slot : Slot) (w w' : World δ) : Prop :=
  World.Grows (fun m => m.event ≠ .stateChanged slot .closed .timeWait) w w'

theorem Tcp.Unrevived.of_traced (h : Traced slot w w')
    (hs : ¬((socketAt slot w).state = .finWait1 ∨ (socketAt slot w).state = .finWait2)) :
    Unrevived slot w w' := by
  obtain ⟨new, hj, ht⟩ := h
  refine ⟨new, hj, fun m hm he => ht.not_mem_of_not_finWait hs ?_⟩
  rw [← he]
  exact List.mem_map_of_mem hm

section After

variable {later earlier : List Event} {source : Ipv4.Address}
  (hj : w'.journal.map Moment.event =
    (later ++ .connectionReset slot source :: earlier) ++ w.journal.map Moment.event)

include hj

theorem World.Grows.false_of_reset
    (h : World.Grows (fun m => ∀ source, m.event ≠ .connectionReset slot source) w w') : False := by
  obtain ⟨m, he, hm⟩ := h.exists_of_mem hj (e := .connectionReset slot source) (by simp)
  exact hm source he

theorem Tcp.Unrevived.not_mem_later (h : Unrevived slot w w') :
    .stateChanged slot .closed .timeWait ∉ later := by
  intro hm
  obtain ⟨m, he, hn⟩ := h.exists_of_mem hj (List.mem_append_left _ hm)
  exact hn he

theorem Tcp.Traced.state_of_reset (h : Traced slot w w')
    (hlast : ∀ source', .connectionReset slot source' ∉ later) : (socketAt slot w').state =
      if .stateChanged slot .closed .timeWait ∈ later then .timeWait else .closed := by
  obtain ⟨new, hn, ht⟩ := h
  rw [hn, List.map_append] at hj
  exact ht.after_reset (List.append_cancel_right hj) hlast

end After

theorem Tcp.journal_dial {ip : Ipv4.Address} {port : UInt16}
    (hs : (socketAt slot w).state = .closed) :
    (dial slot ip port w).journal.map Moment.event =
      .stateChanged slot .closed .synSent :: w.journal.map Moment.event := by
  rw [dial, setState_of_ne (by simp [hs]), socketAt_updateSocket_self, hs]
  rfl

namespace Operation

variable {op : Operation δ}

def lastWord? (op : Operation δ) (slot : Slot) (before : State) : Option State :=
  match op with
  | tcpShutdown handle => if handle = slot then some .finWait1 else none
  | tcpClose handle => if handle = slot ∧ before = .closeWait then some .lastAck else none
  | _ => none

/-- The state of a connection that was reset in an operation, when the operation is over. -/
def finalState (op : Operation δ) (slot : Slot) (before : State) (later : List Event) : State :=
  match op.lastWord? slot before with
  | some s => s
  | none => if .stateChanged slot .closed .timeWait ∈ later then .timeWait else .closed

theorem finalState_of_none {before : State} {later : List Event}
    (h : op.lastWord? slot before = none) : op.finalState slot before later =
      if .stateChanged slot .closed .timeWait ∈ later then .timeWait else .closed := by
  rw [finalState, h]

end Operation

variable [Link.Device δ]

theorem Deed.traced {op : Operation δ} (h : Deed op w w') : Traced slot w w' := by
  have hs : (socketAt slot w').state = (socketAt slot w).state := by rw [h.socketAt_eq]
  exact .of_grows hs (h.grows.mono fun m hm => Event.concerns_of_isTurn hm slot)

theorem Errand.traced {op : Operation δ} (h : Errand op w w') : Traced slot w w' := by
  induction h with
  | evolves h => exact h.traced slot
  | deed h => exact h.traced
  | trans _ _ ih₁ ih₂ => exact ih₁.trans ih₂

namespace Operation

variable {op : Operation δ}

theorem Works.traced (h : op.Works w w') (hv : w.Vacant) (hne : op.connection? ≠ some slot) :
    Traced slot w w' := by
  have hd {i : Slot} {ip : Ipv4.Address} {port : UInt16} (hi : i ≠ slot) :
      Traced slot w (dial i ip port w) :=
    .trans (.update rfl) (.setState_of_ne hi)
  have hi {i : Slot} (hc : some i.val ≠ some slot.val) : i ≠ slot := fun hi => hc (hi ▸ rfl)
  cases h with
  | errand _ h => exact h.traced
  | refused => exact .refl w
  | notSent _ _ h => exact h.traced slot
  | notReceived _ _ h => exact h.traced slot
  | ipv4Send _ _ _ h _ => exact (h.traced slot).trans (.of_journal_eq_cons rfl rfl rfl)
  | @tcpOpen _ i hf =>
    refine .of_journal_eq ?_ rfl
    rw [socketAt_openAt]
    split
    · rename_i hi
      subst hi
      have hu : (w.host.tcp.get i).inUse = false := by
        simpa using Slots.of_first?_eq_some hf
      rw [(hv i hu).1]
    · rfl
  | tcpBind _ _ => exact .update rfl
  | tcpListen _ => exact .setState_of_ne (hi hne)
  | connectUnsent _ _ _ _ h =>
    exact ((hd (hi hne)).trans (h.traced slot)).trans (.setState_of_ne (hi hne))
  | connected _ _ _ _ h₁ h₂ _ =>
    exact (((hd (hi hne)).trans (h₁.traced slot)).trans (.update rfl)).trans (h₂.traced slot)
  | notConnected _ _ _ _ h₁ h₂ =>
    exact ((((hd (hi hne)).trans (h₁.traced slot)).trans (.update rfl)).trans
      (h₂.traced slot)).trans (.setState_of_ne (hi hne))
  | tcpSend _ _ _ h => exact (h.traced slot).trans (.update rfl)
  | tcpReceive _ _ h _ _ => exact (h.traced slot).trans (.update rfl)
  | closeEstablished _ _ h =>
    exact ((((h.traced slot).trans (.update rfl)).trans (.setState_of_ne (hi hne))).trans
      (.setState_of_ne (hi hne))).trans (.update rfl)
  | closeWaiting _ _ h =>
    exact ((h.traced slot).trans (.update rfl)).trans (.setState_of_ne (hi hne))
  | closeOther _ _ _ => exact (Traced.setState_of_ne (hi hne)).trans (.update rfl)
  | tcpShutdown _ _ h =>
    exact ((h.traced slot).trans (.update rfl)).trans (.setState_of_ne (hi hne))

theorem Works.unrevived_of_dial {ip : Ipv4.Address} {port : UInt16}
    (h : Evolves (dial slot ip port w) w₁) :
    Unrevived slot w w₁ := by
  have hd : Unrevived slot w (dial slot ip port w) :=
    (World.Grows.refl w).update.setState (by simp)
  exact hd.trans (Unrevived.of_traced (h.traced slot) (by simp [socketAt_dial]))

theorem Works.unrevived_of_dial_of_advanceSeq {ip : Ipv4.Address} {port : UInt16}
    (h : Evolves (dial slot ip port w) w₁) (h' : Evolves (advanceSeq slot 1 w₁) w₂) :
    Unrevived slot w w₂ := by
  have hr := h.state_mem_reach slot
  rw [socketAt_dial, if_pos rfl] at hr
  have hf : ¬((socketAt slot w₁).state = .finWait1 ∨ (socketAt slot w₁).state = .finWait2) := by
    rintro (hs | hs) <;> simp [hs, State.reach] at hr
  refine (unrevived_of_dial h).update.trans (Unrevived.of_traced (h'.traced slot) ?_)
  rwa [← advanceSeq, socketAt_advanceSeq, if_pos rfl]

theorem Works.false_of_connected {es : List Event} {source : Ipv4.Address} {ip : Ipv4.Address}
    {port : UInt16} (hs : (socketAt slot w).state = .closed)
    (h : Evolves (dial slot ip port w) w₁) (h' : Evolves (advanceSeq slot 1 w₁) w₂)
    (he : (socketAt slot w₂).state = .established ∨ (socketAt slot w₂).state = .closeWait)
    (hj : w₂.journal.map Moment.event = es ++ w.journal.map Moment.event)
    (hm : .connectionReset slot source ∈ es) : False := by
  obtain ⟨new, hn, ht⟩ := ((h.traced slot).trans (.update rfl)).trans (h'.traced slot)
  -- The only line older than what the frames did is that of the dialing, which is no reset.
  rw [hn, List.map_append, journal_dial hs, List.append_cons] at hj
  obtain rfl := List.append_cancel_right hj
  have hm : .connectionReset slot source ∈ new.map Moment.event := by simpa using hm
  have hd := ht.dead_of_reset hm
  rcases he with he | he <;> simp [he] at hd

theorem Works.state_of_own {later earlier : List Event} {source : Ipv4.Address}
    (h : op.Works w w') (hc : op.connection? = some slot.val)
    (hj : w'.journal.map Moment.event =
      (later ++ .connectionReset slot source :: earlier) ++ w.journal.map Moment.event)
    (hlast : ∀ source', .connectionReset slot source' ∉ later) :
    (socketAt slot w').state = op.finalState slot (socketAt slot w).state later := by
  have hi {i : Slot} (hc : some i.val = some slot.val) : i = slot := Fin.ext (Option.some.inj hc)
  cases h with
  | errand hn _ => simp [hn] at hc
  | refused => exact (World.Grows.false_of_reset hj (.refl w)).elim
  | notSent _ _ h => exact (h.traced slot).state_of_reset hj hlast
  | notReceived _ _ h => exact (h.traced slot).state_of_reset hj hlast
  | ipv4Send _ _ _ h _ => simp [connection?] at hc
  | tcpOpen hf => simp [connection?] at hc
  | tcpBind _ _ => exact (World.Grows.false_of_reset hj (.update (.refl w))).elim
  | tcpListen _ => exact (World.Grows.false_of_reset hj (.setState (.refl w) (by simp))).elim
  | connectUnsent _ _ _ _ h =>
    obtain rfl := hi hc
    have hn := Unrevived.not_mem_later hj ((unrevived_of_dial h).setState (by simp))
    rw [socketAt_setState_self, finalState_of_none rfl, if_neg hn]
  | @connected _ w₁ w₂ i _ _ _ hs h₁ h₂ he =>
    obtain rfl := hi hc
    have hm : .connectionReset i source ∈ later ++ .connectionReset i source :: earlier := by
      simp
    exact (false_of_connected hs h₁ h₂ he hj hm).elim
  | @notConnected _ w₁ w₂ i _ _ _ _ h₁ h₂ =>
    obtain rfl := hi hc
    have hn := Unrevived.not_mem_later hj
      ((unrevived_of_dial_of_advanceSeq h₁ h₂).setState (by simp))
    rw [socketAt_setState_self, finalState_of_none rfl, if_neg hn]
  | tcpSend _ _ _ h => exact ((h.traced slot).trans (.update rfl)).state_of_reset hj hlast
  | tcpReceive _ _ h _ _ => exact ((h.traced slot).trans (.update rfl)).state_of_reset hj hlast
  | @closeEstablished _ w₁ i _ hs h =>
    obtain rfl := hi hc
    have ht : Unrevived i w w₁ :=
      .of_traced (h.traced i) (by simp [hs])
    have hn := Unrevived.not_mem_later hj ((ht.update.setState (by simp)).release (by simp))
    have hw : (Operation.tcpClose i : Operation δ).lastWord? i (socketAt i w).state = none := by
      simp [lastWord?, hs]
    rw [socketAt_release, if_pos rfl, finalState_of_none hw, if_neg hn]
  | closeWaiting _ hs h =>
    obtain rfl := hi hc
    rw [socketAt_setState_self, finalState, lastWord?, if_pos ⟨rfl, hs⟩]
  | closeOther _ _ _ =>
    exact (World.Grows.false_of_reset hj (.release (.refl w) (by simp))).elim
  | tcpShutdown _ _ h =>
    obtain rfl := hi hc
    rw [socketAt_setState_self, finalState, lastWord?, if_pos rfl]

/-- The last reset decides, and after it what the operation had still to write. -/
theorem Works.state_after_reset {later earlier : List Event} {source : Ipv4.Address}
    (h : op.Works w w') (hv : w.Vacant)
    (he : w'.events = w.events ++ earlier ++ .connectionReset slot source :: later)
    (hlast : ∀ source', .connectionReset slot source' ∉ later) :
    (socketAt slot w').state = op.finalState slot (socketAt slot w).state later := by
  have hj : w'.journal.map Moment.event =
      (later.reverse ++ .connectionReset slot source :: earlier.reverse) ++
        w.journal.map Moment.event := by
    have he := congrArg List.reverse he
    simpa [World.events] using he
  have hl : ∀ source', .connectionReset slot source' ∉ later.reverse := by simpa using hlast
  by_cases hc : op.connection? = some slot.val
  · simpa [finalState] using h.state_of_own hc hj hl
  · have hw : op.lastWord? slot (socketAt slot w).state = none := by
      cases op <;> simp_all [lastWord?, connection?]
    have ht := (h.traced hv hc).state_of_reset hj hl
    simpa [finalState_of_none hw] using ht

end Operation

/-- A run in which no operation is called on a connection. -/
inductive LeftAlone (slot : Slot) : World δ → World δ → Prop
  | refl (w : World δ) : LeftAlone slot w w
  | step {w w₁ w₂ : World δ} {op : Operation δ} :
      LeftAlone slot w w₁ → op.connection? ≠ some slot → op.Runs w₁ w₂ → LeftAlone slot w w₂

theorem LeftAlone.closed (h : LeftAlone slot w w') (hr : Reachable w)
    (hs : (socketAt slot w).state = .closed) :
    Reachable w' ∧ (socketAt slot w').state = .closed := by
  induction h with
  | refl => exact ⟨hr, hs⟩
  | step _ hne h ih =>
    obtain ⟨hr₁, hs₁⟩ := ih
    obtain ⟨new, -, ht⟩ := (h.works hr₁.safe).traced hr₁.vacant hne
    rw [hs₁] at ht
    exact ⟨hr₁.step _ h, by simpa [State.reach] using ht.mem_reach⟩

theorem reset_is_final_iff (slot : Slot) {op : Operation δ} {later earlier : List Event}
    {source : Ipv4.Address} (h : Reachable w) (hr : op.Runs w w')
    (he : w'.events = w.events ++ earlier ++ .connectionReset slot source :: later)
    (hlast : ∀ source', .connectionReset slot source' ∉ later) :
    ((socketAt slot w').state = .closed ↔
      op.lastWord? slot (socketAt slot w).state = none ∧
        .stateChanged slot .closed .timeWait ∉ later) ∧
      ((socketAt slot w').state = .closed → ∀ w'', LeftAlone slot w' w'' →
        (socketAt slot w'').state = .closed) := by
  refine ⟨?_, fun hs w'' hl => (hl.closed (h.step op hr) hs).2⟩
  rw [(hr.works h.safe).state_after_reset h.vacant he hlast, Operation.finalState]
  cases hw : op.lastWord? slot (socketAt slot w).state with
  | none =>
    by_cases hm : Event.stateChanged slot .closed .timeWait ∈ later <;> simp [hm]
  | some s =>
    have hs : s ≠ .closed := by
      unfold Operation.lastWord? at hw
      split at hw
      · split at hw <;> simp_all
        exact hw ▸ nofun
      · split at hw <;> simp_all
        exact hw ▸ nofun
      · simp at hw
    simp [hs]

namespace Tcp

def peer : Interface := { Interface.default with ip := 0x0A000009, mac := ⟨2, 0, 0, 0, 0, 9⟩ }

def peerFrame (source dest : UInt16) (seq ack : UInt32) (flags : Flags) : Bytes :=
  Ipv4.wire peer Interface.default.mac Interface.default.ip .tcp 0
    (Header.segment ⟨source, dest, seq, ack, minHeader, flags, window, 0⟩ [] peer.ip
      Interface.default.ip)

def opened : World Link.Script :=
  (World.start ⟨[], 0, [], [(0, [.frame (peerFrame 80 49153 0 0 { rst := true })])]⟩ ⟨0, 500, []⟩
    Interface.default).after 4 [.tcpOpen]

def refused : World Link.Script := opened.after 4 [.tcpConnect 0 peer.ip 80]

end Tcp

theorem reset_is_final_refused : Reachable opened ∧
    (Operation.tcpConnect 0 peer.ip 80).Runs opened refused ∧
    .connectionReset 0 peer.ip ∈ refused.events ∧ (socketAt 0 refused).state = .closed ∧
      ∀ w'', LeftAlone 0 refused w'' → (socketAt 0 w'').state = .closed := by
  let own := Interface.default
  have hw : Reachable opened := .after (.start ..) 4 _
  have hr : (Operation.tcpConnect 0 peer.ip 80).Runs opened refused :=
    Operation.runs_after (by decide +kernel)
  have he : refused.events = opened.events ++ [.stateChanged 0 .closed .synSent,
      .arpRequested peer.ip own.ip,
      .transmitted (Arp.wire Mac.broadcast own.mac (.request own.mac own.ip peer.ip)) none] ++
      .connectionReset 0 peer.ip :: [.stateChanged 0 .synSent .closed, .arpUnanswered peer.ip] := by
    decide +kernel
  have h := reset_is_final_iff 0 hw hr he (by simp)
  have hc : (socketAt 0 refused).state = .closed := h.1.2 ⟨rfl, by decide⟩
  exact ⟨hw, hr, by rw [he]; simp, hc, h.2 hc⟩

namespace Tcp

def halfClosed : World Link.Script :=
  (World.start ⟨[], 0, [], [(2, [.frame (peerFrame 5000 80 0 0 { rst := true })])]⟩ ⟨0, 500, []⟩
    Interface.default).after 5
      [.tcpOpen, .tcpBind 0 80, .tcpListen 0,
        .handleFrame (peerFrame 5000 80 100 0 { syn := true }),
        .handleFrame (peerFrame 5000 80 101 1 { ack := true }), .tcpShutdown 0]

def lastFrame : Bytes := peerFrame 5000 80 101 2 { fin := true, ack := true }

end Tcp

/-- The peer resets the connection while the host looks for the way to acknowledge the end of its side. -/
theorem timeWait_after_reset : Reachable halfClosed ∧
    (Operation.handleFrame lastFrame).Runs halfClosed
      (halfClosed.after 5 [.handleFrame lastFrame]) ∧
    .connectionReset 0 peer.ip ∈
      (halfClosed.after 5 [.handleFrame lastFrame]).events.drop halfClosed.events.length ∧
    (socketAt 0 (halfClosed.after 5 [.handleFrame lastFrame])).state = .timeWait :=
  ⟨.after (.start ..) 5 _, Operation.runs_after (by decide +kernel), by decide +kernel,
    by decide +kernel⟩

end InetHost
