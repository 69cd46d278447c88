import InetHost.Proofs.Tcp.Conveyance

/-! Two sockets of a host that are connected over the loopback device. However their owners take turns in
sending and receiving, what is read at one end is what was sent from the other, in its order, as long as the
buffer of the reading end has room. -/

namespace InetHost

open Tcp Link

section Turns

variable {δ : Type} [Link.Device δ]

inductive Tcp.Turn
  | send (e : Bool) (data : Bytes)
  | receive (e : Bool) (capacity : Nat)

namespace Tcp.Transcript

def noteSend (t : Transcript) (e : Bool) (data : Bytes) : Except NetError Nat → Transcript
  | .ok _ => t.say e data
  | .error _ => t

def noteReceive (t : Transcript) (e : Bool) : Except NetError Bytes → Transcript
  | .ok data => t.hear e data
  | .error _ => t

end Tcp.Transcript

def Tcp.Turn.take (p : Poller δ) (ends : Bool → Slot) (t : Transcript) : Turn → Net δ Transcript
  | send e data => do
    let result ← (Tcp.send p (ends e) data).run
    return t.noteSend e data result
  | receive e capacity => do
    let result ← (Tcp.receive p (ends e) capacity).run
    return t.noteReceive e result

def Tcp.converse (p : Poller δ) (ends : Bool → Slot) : List Turn → Transcript → Net δ Transcript
  | [], t => return t
  | turn :: turns, t => do
    let t ← turn.take p ends t
    converse p ends turns t

variable {p : Poller δ} {w : World δ}

theorem Tcp.Turn.take_ensures (hp : p.Evolving) (ends : Bool → Slot) (turn : Turn) (t : Transcript)
    (hv : w.Valid) :
    Net.Ensures (turn.take p ends t) w fun _ w' => w'.Valid := by
  cases turn with
  | send e data =>
    rw [take, Net.ensures_bind, Attempt.ensures_run]
    exact (send_ensures hp (ends e) data hv).mono fun _ _ h => h.valid hv
  | receive e capacity =>
    rw [take, Net.ensures_bind, Attempt.ensures_run]
    exact (receive_ensures hp (ends e) capacity hv).mono fun _ _ h => h.valid hv

theorem Tcp.converse_ensures (hp : p.Evolving) (ends : Bool → Slot) (turns : List Turn)
    (t : Transcript) (hv : w.Valid) :
    Net.Ensures (converse p ends turns t) w fun _ w' => w'.Valid := by
  induction turns generalizing w t with
  | nil => exact hv
  | cons turn turns ih =>
    rw [converse, Net.ensures_bind]
    exact (turn.take_ensures hp ends t hv).mono fun t' _ hv' => ih t' hv'

end Turns

section Talking

variable {w : World Loopback} {p : Poller Loopback} {slots : Bool → Slot} {losses : Bool → Nat}
  {t : Transcript} {said : List Saying}

theorem World.Talks.slot_eq_ok (h : w.Talks slots losses t said) (e : Bool) :
    w.host.tcp.slot (slots e) = .ok (slots e) := by
  obtain ⟨line, hshows, rfl, -, hconveys⟩ := h
  apply Sockets.slot_eq_ok
  exact (congrArg Socket.inUse (hshows.ends e)).trans (hconveys.inUse e)

theorem Tcp.send_talks (h : w.Talks slots losses t said) (e : Bool) (data : Bytes) :
    Attempt.Finishes (send p (slots e) data) w fun result w' =>
      ∃ said', w'.Talks slots losses (t.noteSend e data result) said' := by
  rw [send, Attempt.finishes_bind, Attempt.finishes_of_run_eq (run_slot (slots e) w), h.slot_eq_ok]
  dsimp only
  rw [Attempt.finishes_bind, Attempt.finishes_get]
  dsimp only
  obtain ⟨line, hshows, rfl, hletters, hconveys⟩ := h
  rw [hshows.ends, hconveys.established, if_neg (not_not_intro rfl)]
  split
  · exact ⟨said, line, hshows, rfl, hletters, hconveys⟩
  · rename_i hlength
    have hlength : data.length ≤ maxPayload := Nat.le_of_not_lt hlength
    rw [Attempt.finishes_bind]
    refine (sendSegment_known hshows hconveys.known (hconveys.remoteIp e) hlength).mono
      fun result w' hw => ?_
    obtain ⟨-, rfl, hw⟩ | ⟨-, ⟨cause, rfl⟩, hw⟩ := hw
    · dsimp only
      rw [Attempt.finishes_bind, Attempt.finishes_modify]
      let saying : Saying := ⟨e, data⟩
      have hsaid : Line.Conveys _ losses (t.say e data) (said ++ [saying]) := hconveys.say e data
      refine ⟨said ++ [saying], _, hw.advanceSeq e _, rfl, ?_, hsaid.of_letters _⟩
      rw [Line.tells_put (by rfl)]
      exact List.rel_append hletters (.cons (hconveys.tells e data rfl rfl rfl) .nil)
    · exact ⟨said, line, hw, rfl, hletters, hconveys⟩

theorem Tcp.receive_talks (hp : p.Drains) (h : w.Talks slots losses t said) (e : Bool)
    (capacity : Nat) :
    Attempt.Finishes (receive p (slots e) capacity) w fun result w' =>
      ∃ said', w'.Talks slots losses (t.noteReceive e result) said' := by
  rw [receive, Attempt.finishes_bind, Attempt.finishes_of_run_eq (run_slot (slots e) w),
    h.slot_eq_ok]
  dsimp only
  rw [Attempt.finishes_bind, Attempt.finishes_lift]
  refine (hp.poll_talks h).mono fun _ w₁ h₁ => ?_
  dsimp only
  rw [Attempt.finishes_bind, Attempt.finishes_of_run_eq (run_slot (slots e) w₁), h₁.slot_eq_ok]
  dsimp only
  rw [Attempt.finishes_bind, Attempt.finishes_get]
  dsimp only
  rw [Attempt.finishes_bind, Attempt.finishes_check]
  rintro ⟨buffer, data⟩ hpop
  dsimp only
  rw [Attempt.finishes_bind, Attempt.finishes_modify]
  obtain ⟨line, hshows, rfl, hletters, hconveys⟩ := h₁
  rw [hshows.ends] at hpop
  refine ⟨[], _, hshows.updateSocket rfl rfl, rfl, ?_, hconveys.hear hpop⟩
  rw [Line.tells_put (by rfl)]
  exact hletters

theorem Tcp.Turn.take_talks (hp : p.Drains) (turn : Turn) (h : w.Talks slots losses t said) :
    Net.Finishes (turn.take p slots t) w fun t' w' => ∃ said', w'.Talks slots losses t' said' := by
  cases turn with
  | send e data =>
    rw [take, Net.finishes_bind, Attempt.finishes_run]
    exact send_talks h e data
  | receive e capacity =>
    rw [take, Net.finishes_bind, Attempt.finishes_run]
    exact receive_talks hp h e capacity

theorem Tcp.converse_talks (hp : p.Drains) (turns : List Turn)
    (h : w.Talks slots losses t said) :
    Net.Finishes (converse p slots turns t) w fun t' w' =>
      ∃ said', w'.Talks slots losses t' said' := by
  induction turns generalizing w t said with
  | nil => exact ⟨said, h⟩
  | cons turn turns ih =>
    rw [converse, Net.finishes_bind]
    refine (turn.take_talks hp h).mono fun t' w' hw => ?_
    obtain ⟨said', hw⟩ := hw
    exact ih hw

end Talking

/-- Each of two sockets expects the number that the other one sends next. -/
def World.Mirrored {δ : Type} (w : World δ) (ends : Bool → Slot) : Prop :=
  ∀ e, (socketAt (ends e) w).seq = (socketAt (ends !e) w).ack

section Faithful

variable {w : World Loopback} {p : Poller Loopback} {slots : Bool → Slot} {losses : Bool → Nat}
  {t : Transcript} {caller listener : Slot} {port : UInt16} {fuel : Nat}

theorem World.Talks.pending_eq_zero (h : w.Talks slots losses t []) : w.device.pending = 0 := by
  obtain ⟨line, hshows, -, hletters, -⟩ := h
  exact hshows.pending_eq_zero (List.forall₂_nil_left_iff.1 hletters)

theorem World.Talks.mirrored (h : w.Talks slots losses t []) : w.Mirrored slots := by
  obtain ⟨line, hshows, rfl, -, hconveys⟩ := h
  intro e
  rw [hshows.ends, hshows.ends, hconveys.counted]
  exact UInt32.add_zero _

theorem World.Talks.stream (h : w.Talks slots losses t []) (e : Bool)
    (hl : overflows (slots e) w = losses e) : t.read e ++ unread (slots e) w = t.sent !e := by
  obtain ⟨line, hshows, rfl, -, hconveys⟩ := h
  have hstream := hconveys.stream e ((hshows.lost e).symm.trans hl)
  rw [unread, hshows.ends, ← hstream]
  exact (List.append_nil _).symm

theorem World.Talks.overflows_eq (h : w.Talks slots losses t said) {e : Bool}
    (hl : (t.sent !e).length ≤ bufferSize) : overflows (slots e) w = losses e := by
  obtain ⟨line, hshows, rfl, -, hconveys⟩ := h
  rw [hshows.lost]
  by_contra hlost
  exact absurd hl (Nat.not_le_of_lt (hconveys.overfull e hlost))

theorem Tcp.connect_talks (hp : p.Drains) (hv : w.Valid)
    (h : w.ReadyToConnect caller listener port) :
    Attempt.Finishes (connect p caller w.host.interface.ip port) w fun result w' =>
      result = .ok () ∧ (∀ e, (socketAt (pair caller listener e) w').state = .established) ∧
        w'.Talks (pair caller listener) (fun e => overflows (pair caller listener e) w') .blank [] := by
  refine (connect_joins hp hv h).mono fun result w' hw => ?_
  obtain ⟨rfl, line, hshows, hjoined, hmirrored, hletters, hslots, hunread⟩ := hw
  have hlost : (fun e => overflows (pair caller listener e) w') = line.lost := by
    funext e
    rw [← hslots]
    exact hshows.lost e
  refine ⟨rfl, fun e => ?_, line, hshows, hslots, ?_, ?_⟩
  · rw [← hslots, hshows.ends]
    exact hjoined.established e
  · rw [hletters]
    exact .nil
  · rw [hlost]
    exact hjoined.conveys hmirrored hunread

/-- Over the loopback device what is read at one end is what was sent from the other, unless it overflowed. -/
theorem loopback_stream_is_faithful (hv : w.Valid) (h : w.ReadyToConnect caller listener port)
    (hf : 2 ≤ fuel) :
    let p : Poller Loopback := .ofFuel fuel
    let ends := pair caller listener
    ∃ w₁, (connect p caller w.host.interface.ip port).run w = .ok (.ok (), w₁) ∧
      (∀ e, (socketAt (ends e) w₁).state = .established) ∧ w₁.Mirrored ends ∧
      ∀ turns, ∃ t w₂ count w₃, converse p ends turns .blank w₁ = .ok (t, w₂) ∧
        p.poll w₂ = .ok (count, w₃) ∧ w₃.device.pending = 0 ∧ w₃.Mirrored ends ∧
        ∀ e, (overflows (ends e) w₃ = overflows (ends e) w₁ →
            t.read e ++ unread (ends e) w₃ = t.sent !e) ∧
          ((t.sent !e).length ≤ bufferSize → overflows (ends e) w₃ = overflows (ends e) w₁) := by
  intro p ends
  have hp : p.Drains := Poller.drains_ofFuel hf
  have he : p.Evolving := Poller.evolving_ofFuel fuel
  -- Each stage ends, because it only ever has to handle what is under way, and none of them faults.
  have hconnect := connect_ensures he caller w.host.interface.ip port hv
  obtain ⟨result, w₁, hrun, rfl, hestablished, h₁⟩ :=
    (connect_talks hp hv h).exists_eq_ok hconnect.ne_fault
  have hv₁ : w₁.Valid := (hconnect.of_ok hrun).valid hv
  refine ⟨w₁, hrun, hestablished, h₁.mirrored, fun turns => ?_⟩
  have hconverse := converse_ensures he ends turns .blank hv₁
  obtain ⟨t, w₂, hturns, said, h₂⟩ := (converse_talks hp turns h₁).exists_eq_ok hconverse.ne_fault
  have hpoll := he w₂ (hconverse.of_ok hturns)
  obtain ⟨count, w₃, hlast, h₃⟩ := (hp.poll_talks h₂).exists_eq_ok hpoll.ne_fault
  exact ⟨t, w₂, count, w₃, hturns, hlast, h₃.pending_eq_zero, h₃.mirrored,
    fun e => ⟨h₃.stream e, h₃.overflows_eq⟩⟩

def serving : World Loopback :=
  (World.start Loopback.empty ⟨0, 1, []⟩ Interface.default).after 2
    [.tcpOpen, .tcpBind 0 80, .tcpListen 0, .tcpOpen]

theorem readyToConnect_serving : serving.ReadyToConnect 1 0 80 where
  idle := by decide +kernel
  clock := by
    have hclock : serving.clock = ⟨1, 1, []⟩ := by decide +kernel
    rw [hclock]
    exact ⟨.of_step (by decide) (by decide), by decide⟩
  caller_inUse := by decide +kernel
  caller_closed := by decide +kernel
  caller_unread := by decide +kernel
  listener_inUse := by decide +kernel
  listening := by decide +kernel
  listener_port := by decide +kernel
  listener_unread := by decide +kernel
  port_ne := by decide +kernel
  alone := by decide +kernel

theorem loopback_stream_is_faithful_serving : serving.ReadyToConnect 1 0 80 ∧
    let p : Poller Loopback := .ofFuel 2
    let ends := pair 1 0
    ∃ w₁, (connect p (1 : Slot) serving.host.interface.ip 80).run serving = .ok (.ok (), w₁) ∧
      (∀ e, (socketAt (ends e) w₁).state = .established) ∧ w₁.Mirrored ends ∧
      ∀ turns, ∃ t w₂ count w₃, converse p ends turns .blank w₁ = .ok (t, w₂) ∧
        p.poll w₂ = .ok (count, w₃) ∧ w₃.device.pending = 0 ∧ w₃.Mirrored ends ∧
        ∀ e, (overflows (ends e) w₃ = overflows (ends e) w₁ →
            t.read e ++ unread (ends e) w₃ = t.sent !e) ∧
          ((t.sent !e).length ≤ bufferSize → overflows (ends e) w₃ = overflows (ends e) w₁) := by
  have hreached : Reachable serving := (Reachable.start _ _ _).after _ _
  refine ⟨readyToConnect_serving, ?_⟩
  exact loopback_stream_is_faithful hreached.valid readyToConnect_serving (Nat.le_refl 2)

example : ((do
    let _ ← (connect (.ofFuel 2) (1 : Slot) serving.host.interface.ip 80).run
    let t ← converse (.ofFuel 2) (pair 1 0) [.send true [97, 98, 99], .receive false 2] .blank
    return (t.read false, unread 0 (← get)) : Net Loopback (Bytes × Bytes)) serving).toOption.map
      Prod.fst = some ([97, 98], [99]) := by
  decide +kernel

end Faithful

end InetHost
