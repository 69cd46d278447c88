import Mathlib.Logic.Function.Basic
import InetHost.Proofs.Tcp.Transitions

/-! Segments for different connections. What a segment does is done to the socket that it is for, by that
socket and the segment alone, and it leads no other segment to another socket; so two segments for two
sockets may be handled in either order. -/

namespace InetHost

open Tcp

variable {δ : Type} {w w₁ w₂ w' : World δ}

def World.Confined (w w' : World δ) : Prop :=
  w'.host = { w.host with tcp := w'.host.tcp, nextPacketId := w'.host.nextPacketId }

namespace World.Confined

theorem refl (w : World δ) : w.Confined w := rfl

theorem trans (h : w.Confined w₁) (h' : w₁.Confined w') : w.Confined w' := by
  unfold Confined at h h' ⊢
  rw [h', h]

theorem of_adjusts (h : w.Adjusts w') : w.Confined w' := by
  unfold Confined
  rw [h.host]

theorem of_handsOver {frame : Bytes} (h : w.HandsOver frame w') : w.Confined w' := by
  unfold Confined
  rw [h.host]
  rfl

theorem hop?_eq (h : w.Confined w') (ip : Ipv4.Address) : w'.hop? ip = w.hop? ip := by
  rw [hop?, hop?, h]

end World.Confined

section Handling

variable [Link.Device δ] {p : Poller δ} {slot : Slot} {mac : Mac} {header : Header}
  {message payload : Bytes} {source : Ipv4.Address}

theorem Tcp.sendAck_confined (hm : w.hop? (socketAt slot w).remoteIp = some mac)
    (hc : w₁.Confined w) : Net.Finishes (sendAck p slot) w fun _ w' => w₁.Confined w' :=
  (sendAck_prompt hm).mono fun _ _ h => hc.trans (.of_handsOver h)

theorem Tcp.acceptConnection_confined (hm : w.hop? source = some mac) :
    Net.Finishes (acceptConnection p slot header source) w fun _ w' => w.Confined w' := by
  have ha : w.Adjusts (promote slot header source w) :=
    (World.Adjusts.updateSocket _ _).trans (.setState _)
  have hk : (promote slot header source w).hop?
      (socketAt slot (promote slot header source w)).remoteIp = some mac := by
    rw [socketAt_promote, if_pos rfl, ha.hop?_eq, hm]
  rw [acceptConnection, Net.finishes_bind, Net.finishes_modify, Net.finishes_bind,
    Net.finishes_modify, Net.finishes_bind, Attempt.finishes_run]
  refine (sendSegment_prompt hk (Nat.zero_le _)).mono fun result w₂ h₂ => ?_
  have hc : w.Confined w₂ := (World.Confined.of_adjusts ha).trans (.of_handsOver h₂)
  cases result with
  | ok _ => exact hc.trans (.of_adjusts (.updateSocket _ w₂))
  | error cause =>
    exact hc.trans (.of_adjusts ((World.Adjusts.record w₂ rfl).trans (.updateSocket _ _)))

theorem Tcp.acceptData_confined (hm : w.hop? (socketAt slot w).remoteIp = some mac) :
    Net.Finishes (acceptData p slot source message payload) w fun _ w' => w.Confined w' := by
  by_cases hp : payload = []
  · rw [acceptData, if_pos hp]
    exact World.Confined.refl w
  · refine (acceptData_prompt hp hm).mono fun _ w' h => ?_
    obtain ⟨buffer, stored, w₁, -, ha, -, h⟩ := h
    exact (World.Confined.of_adjusts ha).trans (.of_handsOver h)

theorem Tcp.acknowledge_confined {next : State} (hm : w.hop? (socketAt slot w).remoteIp = some mac) :
    Net.Finishes (sendAck p slot) (setState slot next (setAck slot (header.seq + 1) w))
      fun _ w' => w.Confined w' := by
  have ha : w.Adjusts (setState slot next (setAck slot (header.seq + 1) w)) :=
    (World.Adjusts.updateSocket _ w).trans (.setState _)
  have hk : (setState slot next (setAck slot (header.seq + 1) w)).hop?
      (socketAt slot (setState slot next (setAck slot (header.seq + 1) w))).remoteIp = some mac := by
    rw [ha.hop?_eq, socketAt_setState_self, socketAt_setAck, if_pos rfl, hm]
  exact sendAck_confined hk (.of_adjusts ha)

theorem Tcp.finish_confined (hm : w.hop? (socketAt slot w).remoteIp = some mac) :
    Net.Finishes (finish p slot header) w fun _ w' => w.Confined w' := by
  have ha : w.Adjusts (setAck slot (header.seq + 1) w) := .updateSocket _ w
  have hk : (setAck slot (header.seq + 1) w).hop?
      (socketAt slot (setAck slot (header.seq + 1) w)).remoteIp = some mac := by
    rw [ha.hop?_eq, socketAt_setAck, if_pos rfl, hm]
  rw [finish, Net.finishes_bind, Net.finishes_modify, Net.finishes_bind]
  refine (sendAck_confined hk (.of_adjusts ha)).mono fun _ w₂ h => ?_
  exact h.trans (.of_adjusts (.setState w₂))

theorem Tcp.advance_confined (ha : Addressed w message source header slot)
    (hm : w.hop? source = some mac) :
    Net.Finishes (advance p slot (socketAt slot w).state header message source) w
      fun _ w' => w.Confined w' := by
  have hk (hl : (socketAt slot w).state ≠ .listen) :
      w.hop? (socketAt slot w).remoteIp = some mac := by rw [ha.remoteIp_eq hl, hm]
  unfold advance
  cases hs : (socketAt slot w).state with
  | listen =>
    dsimp only
    split
    · exact acceptConnection_confined hm
    · exact .refl w
  | synSent =>
    dsimp only
    split
    · rw [Net.finishes_bind, Net.finishes_modify, Net.finishes_bind, Net.finishes_modify]
      exact acknowledge_confined (hk (by simp [hs]))
    · exact .refl w
  | synReceived =>
    dsimp only
    split
    · exact .of_adjusts (.setState w)
    · exact .refl w
  | established =>
    have hk := hk (by simp [hs])
    dsimp only
    split
    · rw [acceptFin, Net.finishes_bind, Net.finishes_modify, Net.finishes_bind,
        Net.finishes_modify]
      exact acknowledge_confined hk
    · split
      · rw [Net.finishes_bind, Net.finishes_check]
        exact fun payload _ => acceptData_confined hk
      · exact .refl w
  | finWait1 =>
    have hk := hk (by simp [hs])
    have hc : w.Adjusts (setState slot .finWait2 w) := .setState w
    dsimp only
    split
    · rw [Net.finishes_bind, Net.finishes_modify]
      split
      · have hk' : (setState slot .finWait2 w).hop?
            (socketAt slot (setState slot .finWait2 w)).remoteIp = some mac := by
          rw [hc.hop?_eq, socketAt_setState_self, hk]
        exact (finish_confined hk').mono fun _ _ h => (World.Confined.of_adjusts hc).trans h
      · exact .of_adjusts hc
    · split
      · exact finish_confined hk
      · exact .refl w
  | finWait2 =>
    dsimp only
    split
    · exact finish_confined (hk (by simp [hs]))
    · exact .refl w
  | lastAck =>
    dsimp only
    split
    · exact .of_adjusts (.release w)
    · exact .refl w
  | closed | closeWait | closing | timeWait => exact .refl w

theorem Tcp.handle_confined (hm : w.hop? source = some mac) :
    Net.Finishes (handle p message source) w fun _ w' => w.Confined w' := by
  rw [handle, Net.finishes_bind, Net.finishes_check_of_eq (Header.parse_eq_ok message)]
  cases hd : Header.decode? message with
  | none => exact .refl w
  | some header =>
    simp only [Net.finishes_bind, Net.finishes_get]
    cases hf : w.host.tcp.demux? header.dest source header.source with
    | none => exact .of_adjusts (.record w rfl)
    | some slot =>
      simp only [Net.finishes_bind, Net.finishes_get]
      split
      · exact .of_adjusts (.handleReset source w)
      · exact advance_confined ⟨hd, hf⟩ hm

end Handling

namespace Tcp

theorem Row.of_for?_eq_some {state : State} {flags : Flags} {payload : Bytes} {row : Row}
    (h : for? state flags payload = some row) :
    row.next ≠ .listen ∧ (row.action = .accept ↔ state = .listen) := by
  have hall : ∀ row ∈ rows ++ resets, row.next ≠ .listen ∧
      (row.action = .accept ↔ row.state = .listen) := by decide
  have hmem : row ∈ rows ++ resets := by
    have hm := List.mem_of_find?_eq_some h
    split at hm
    · exact List.mem_append_right _ hm
    · exact List.mem_append_left _ hm
  have hstate : row.state = state := by
    have hf := List.find?_some h
    simp only [fits, Bool.and_eq_true, decide_eq_true_eq] at hf
    exact hf.1.1
  exact hstate ▸ hall row hmem

namespace Endpoint

def after (header : Header) (payload : Bytes) (source : Ipv4.Address) (e : Endpoint) : Endpoint :=
  match Row.for? e.state header.flags payload with
  | some row => row.apply header payload source e
  | none => e

variable {header : Header} {payload : Bytes} {source : Ipv4.Address} {e : Endpoint}

theorem after_eq_or (header : Header) (payload : Bytes) (source : Ipv4.Address) (e : Endpoint) :
    e.after header payload source = e ∨ ∃ row : Row, row.next ≠ .listen ∧
      (row.action = .accept ↔ e.state = .listen) ∧
      e.after header payload source = row.apply header payload source e := by
  unfold after
  split
  · rename_i row hr
    obtain ⟨hn, ha⟩ := Row.of_for?_eq_some hr
    exact .inr ⟨row, hn, ha, rfl⟩
  · exact .inl rfl

theorem localPort_after : (e.after header payload source).localPort = e.localPort := by
  obtain h | ⟨row, -, -, h⟩ := after_eq_or header payload source e
  · rw [h]
  · rw [h, Row.apply]
    cases row.action <;> rfl

theorem inUse_of_after (h : (e.after header payload source).inUse = true) : e.inUse = true := by
  obtain h' | ⟨row, -, -, h'⟩ := after_eq_or header payload source e
  · rwa [h'] at h
  · rw [h', Row.apply] at h
    revert h
    cases row.action <;> simp [Action.apply]

theorem listen_of_after (h : (e.after header payload source).state = .listen) :
    e.state = .listen := by
  obtain h' | ⟨row, hn, -, h'⟩ := after_eq_or header payload source e
  · rwa [h'] at h
  · rw [h'] at h
    exact absurd h hn

theorem remote_after (h : (e.after header payload source).state ≠ .listen) :
    if e.state = .listen then (e.after header payload source).remoteIp = source ∧
      (e.after header payload source).remotePort = header.source
    else (e.after header payload source).remoteIp = e.remoteIp ∧
      (e.after header payload source).remotePort = e.remotePort := by
  obtain h' | ⟨row, -, ha, h'⟩ := after_eq_or header payload source e
  · rw [h'] at h ⊢
    rw [if_neg h]
    exact ⟨rfl, rfl⟩
  · rw [h', Row.apply]
    split
    · rw [ha.2 ‹_›]
      exact ⟨rfl, rfl⟩
    · revert ha
      cases row.action <;> simp [Action.apply, *]

end Endpoint

end Tcp

section Sockets

variable {mac : Mac} {slot slot' : Slot} {header header' : Header} {message message' : Bytes}
  {source source' : Ipv4.Address}

/-- A segment is handled for one socket, and for no other. -/
structure World.Hears (w : World δ) (slot : Slot) (header : Header) (payload : Bytes)
    (source : Ipv4.Address) (w' : World δ) : Prop where
  own : (socketAt slot w').endpoint = (socketAt slot w).endpoint.after header payload source
  others : ∀ j, j ≠ slot → socketAt j w' = socketAt j w
  nextSeq : w'.host.tcp.nextSeq = w.host.tcp.nextSeq

theorem Tcp.Obeys.hears (h : Obeys mac message source w w')
    (ha : Addressed w message source header slot) :
    w.Hears slot header (message.drop header.dataOffset) source w' := by
  have hchosen := Sockets.demux?_eq_some_iff.1 ha.found
  cases h with
  | stays hn ht =>
    have hnone := hn header slot ha.decoded hchosen
    refine ⟨?_, fun j _ => socketAt_congr j w ht, by rw [ht]⟩
    rw [socketAt_congr slot w ht, Endpoint.after]
    exact hnone ▸ rfl
  | @moves header' slot' row hd hc hr he =>
    obtain rfl := Option.some.inj (ha.decoded.symm.trans hd)
    obtain rfl := Option.some.inj (ha.found.symm.trans (Sockets.demux?_eq_some_iff.2 hc))
    refine ⟨?_, he.others, he.nextSeq⟩
    rw [he.endpoint, Endpoint.after]
    exact hr ▸ rfl

theorem Tcp.Addressed.localPort_eq (h : Addressed w message source header slot) :
    (socketAt slot w).localPort = header.dest := by
  rcases Sockets.demux?_eq_some_iff.1 h.found with ⟨hc, -⟩ | ⟨-, hs, -⟩
  · exact hc.2.1
  · exact hs.2.1

namespace World.Hears

variable {payload : Bytes} {localPort port : UInt16} {ip : Ipv4.Address} {i : Slot}

theorem socketAt_eq_or (h : w.Hears slot header payload source w') (i : Slot) :
    socketAt i w' = socketAt i w ∨ i = slot := by
  by_cases hi : i = slot
  · exact .inr hi
  · exact .inl (h.others i hi)

theorem mem_listeners (h : w.Hears slot header payload source w')
    (hi : i ∈ w'.host.tcp.listeners localPort) : i ∈ w.host.tcp.listeners localPort := by
  obtain hs | rfl := h.socketAt_eq_or i
  · have hg : w'.host.tcp.get i = w.host.tcp.get i := hs
    rwa [Sockets.listeners, Set.mem_ofPred_eq, hg] at hi
  · obtain ⟨hu, hp, hl⟩ := hi
    have hu : (socketAt i w').endpoint.inUse = true := hu
    have hp : (socketAt i w').endpoint.localPort = localPort := hp
    have hl : (socketAt i w').endpoint.state = .listen := hl
    rw [h.own] at hu hp hl
    exact ⟨Endpoint.inUse_of_after hu, Endpoint.localPort_after.symm.trans hp,
      Endpoint.listen_of_after hl⟩

theorem mem_connections (h : w.Hears slot header payload source w')
    (hi : i ∈ w'.host.tcp.connections localPort ip port) :
    i ∈ w.host.tcp.connections localPort ip port ∨
      i = slot ∧ ip = source ∧ port = header.source := by
  obtain hs | rfl := h.socketAt_eq_or i
  · have hg : w'.host.tcp.get i = w.host.tcp.get i := hs
    rw [Sockets.connections, Set.mem_ofPred_eq, hg] at hi
    exact .inl hi
  · obtain ⟨hu, hp, hl, hr, hq⟩ := hi
    have hu : (socketAt i w').endpoint.inUse = true := hu
    have hp : (socketAt i w').endpoint.localPort = localPort := hp
    have hl : (socketAt i w').endpoint.state ≠ .listen := hl
    have hr : (socketAt i w').endpoint.remoteIp = ip := hr
    have hq : (socketAt i w').endpoint.remotePort = port := hq
    rw [h.own] at hu hp hl hr hq
    have hremote := Endpoint.remote_after hl
    split at hremote
    · exact .inr ⟨rfl, hr.symm.trans hremote.1, hq.symm.trans hremote.2⟩
    · exact .inl ⟨Endpoint.inUse_of_after hu, Endpoint.localPort_after.symm.trans hp, ‹_›,
        hremote.1.symm.trans hr, hremote.2.symm.trans hq⟩

theorem addressed (h : w.Hears slot header payload source w')
    (ha : Addressed w message source header slot)
    (ha' : Addressed w message' source' header' slot') (hne : slot ≠ slot') :
    Addressed w' message' source' header' slot' := by
  have hself : w'.host.tcp.get slot' = w.host.tcp.get slot' := h.others slot' hne.symm
  have hl : w'.host.tcp.listeners header'.dest ⊆ w.host.tcp.listeners header'.dest :=
    fun _ => h.mem_listeners
  have hc : w'.host.tcp.connections header'.dest source' header'.source ⊆
      w.host.tcp.connections header'.dest source' header'.source := by
    intro i hi
    obtain hi' | ⟨rfl, hip, hport⟩ := h.mem_connections hi
    · exact hi'
    · -- Both segments would be of one connection, and so for one socket.
      have hdest : header'.dest = header.dest := by
        have hp : (socketAt i w').endpoint.localPort = header'.dest := hi.2.1
        rw [h.own, Endpoint.localPort_after] at hp
        exact hp.symm.trans ha.localPort_eq
      have hfound := ha'.found
      rw [hdest, hip, hport, ha.found] at hfound
      exact absurd (Option.some.inj hfound) hne
  refine ⟨ha'.decoded, Sockets.demux?_eq_some_iff.2 ?_⟩
  obtain ⟨hmem, hleast⟩ | ⟨hnone, hmem, hleast⟩ := Sockets.demux?_eq_some_iff.1 ha'.found
  · refine .inl ⟨?_, fun i hi => hleast (hc hi)⟩
    rw [Sockets.connections, Set.mem_ofPred_eq, hself]
    exact hmem
  · refine .inr ⟨Set.subset_eq_empty hc hnone, ?_, fun i hi => hleast (hl hi)⟩
    rw [Sockets.listeners, Set.mem_ofPred_eq, hself]
    exact hmem

end World.Hears

end Sockets

variable {i j : Slot} {mac₁ mac₂ : Mac} {header₁ header₂ : Header}
  {message₁ message₂ : Bytes} {source₁ source₂ : Ipv4.Address}

def World.endpoints (w : World δ) (k : Slot) : Endpoint := (socketAt k w).endpoint

theorem World.Hears.endpoints_eq {payload : Bytes} (h : w.Hears i header₁ payload source₁ w') :
    w'.endpoints =
      Function.update w.endpoints i ((w.endpoints i).after header₁ payload source₁) := by
  funext k
  by_cases hk : k = i
  · rw [hk, Function.update_self]
    exact h.own
  · rw [Function.update_of_ne hk]
    exact congrArg Socket.endpoint (h.others k hk)

variable [Link.Device δ]

theorem Tcp.handle_hears (fuel : Nat) (hv : w.Valid) (hm : w.hop? source₁ = some mac₁)
    (ha : Addressed w message₁ source₁ header₁ i) :
    ∃ w', handle (Poller.ofFuel fuel) message₁ source₁ w = .ok ((), w') ∧ w'.Valid ∧
      w.Confined w' ∧ w.Hears i header₁ (message₁.drop header₁.dataOffset) source₁ w' := by
  have hsafe := handle_ensures (Poller.evolving_ofFuel fuel) message₁ source₁ hv
  obtain ⟨⟨⟩, w', hrun, ho, hc⟩ :=
    ((handle_obeys hv hm).and (handle_confined hm)).exists_eq_ok hsafe.ne_fault
  exact ⟨w', hrun, (hsafe.of_ok hrun).valid hv, hc, ho.hears ha⟩

/-- Of two segments for two sockets each finds its own as it was at first. -/
theorem Tcp.handle_both (fuel : Nat) (hv : w.Valid) (hm₁ : w.hop? source₁ = some mac₁)
    (hm₂ : w.hop? source₂ = some mac₂) (ha₁ : Addressed w message₁ source₁ header₁ i)
    (ha₂ : Addressed w message₂ source₂ header₂ j) (hne : i ≠ j) :
    let p : Poller δ := Poller.ofFuel fuel
    ∃ w', (do handle p message₁ source₁; handle p message₂ source₂ : Net δ Unit) w = .ok ((), w') ∧
      w'.endpoints = Function.update (Function.update w.endpoints
        i ((w.endpoints i).after header₁ (message₁.drop header₁.dataOffset) source₁))
        j ((w.endpoints j).after header₂ (message₂.drop header₂.dataOffset) source₂) ∧
      w'.host.tcp.nextSeq = w.host.tcp.nextSeq := by
  obtain ⟨w₁, hrun₁, hv₁, hc, h₁⟩ := handle_hears fuel hv hm₁ ha₁
  obtain ⟨w', hrun₂, -, -, h₂⟩ := handle_hears fuel hv₁ ((hc.hop?_eq source₂).trans hm₂)
    (h₁.addressed ha₁ ha₂ hne)
  refine ⟨w', ?_, ?_, h₂.nextSeq.trans h₁.nextSeq⟩
  · exact (Net.bind_of_eq_ok hrun₁ _).trans hrun₂
  · rw [h₂.endpoints_eq, h₁.endpoints_eq, Function.update_of_ne hne.symm]

/-- Two segments for two sockets may come in either order. -/
theorem segments_commute (fuel : Nat) (hv : w.Valid) (hm₁ : w.hop? source₁ = some mac₁)
    (hm₂ : w.hop? source₂ = some mac₂) (ha₁ : Addressed w message₁ source₁ header₁ i)
    (ha₂ : Addressed w message₂ source₂ header₂ j) (hne : i ≠ j) :
    let p : Poller δ := Poller.ofFuel fuel
    ∃ w₁₂ w₂₁,
      (do handle p message₁ source₁; handle p message₂ source₂ : Net δ Unit) w = .ok ((), w₁₂) ∧
      (do handle p message₂ source₂; handle p message₁ source₁ : Net δ Unit) w = .ok ((), w₂₁) ∧
      (∀ k, (socketAt k w₁₂).endpoint = (socketAt k w₂₁).endpoint) ∧
      w₁₂.host.tcp.nextSeq = w₂₁.host.tcp.nextSeq := by
  obtain ⟨w₁₂, hrun, he, hq⟩ := handle_both fuel hv hm₁ hm₂ ha₁ ha₂ hne
  obtain ⟨w₂₁, hrun', he', hq'⟩ := handle_both fuel hv hm₂ hm₁ ha₂ ha₁ hne.symm
  refine ⟨w₁₂, w₂₁, hrun, hrun', fun k => ?_, hq.trans hq'.symm⟩
  have hsame : w₁₂.endpoints = w₂₁.endpoints := by rw [he, he', Function.update_comm hne]
  exact congrFun hsame k

namespace Tcp

def doubly : World Link.Script :=
  awaiting.after 4 [.tcpOpen, .tcpBind 1 81, .tcpListen 1]

def otherHeader : Header := { callHeader with dest := 81, seq := 700, checksum := 30020 }

def otherCall : Bytes := otherHeader.segment [] peer.ip Interface.default.ip

end Tcp

theorem segments_commute_calls : Reachable doubly ∧
    doubly.hop? peer.ip = some peer.mac ∧
    Addressed doubly call peer.ip { callHeader with checksum := 30621 } 0 ∧
    Addressed doubly otherCall peer.ip otherHeader 1 ∧
    ∃ w₁₂ w₂₁,
      (do handle (Poller.ofFuel 0) call peer.ip
          handle (Poller.ofFuel 0) otherCall peer.ip : Net Link.Script Unit) doubly =
        .ok ((), w₁₂) ∧
      (do handle (Poller.ofFuel 0) otherCall peer.ip
          handle (Poller.ofFuel 0) call peer.ip : Net Link.Script Unit) doubly = .ok ((), w₂₁) ∧
      (∀ k, (socketAt k w₁₂).endpoint = (socketAt k w₂₁).endpoint) ∧
      w₁₂.host.tcp.nextSeq = w₂₁.host.tcp.nextSeq := by
  have hw : Reachable doubly := .after (.after (.start ..) 4 _) 4 _
  have hm : doubly.hop? peer.ip = some peer.mac := by decide +kernel
  have hcall : Addressed doubly call peer.ip { callHeader with checksum := 30621 } 0 :=
    ⟨by decide +kernel, by decide +kernel⟩
  have hother : Addressed doubly otherCall peer.ip otherHeader 1 :=
    ⟨by decide +kernel, by decide +kernel⟩
  exact ⟨hw, hm, hcall, hother,
    segments_commute 0 hw.valid hm hm hcall hother (by decide)⟩

end InetHost
