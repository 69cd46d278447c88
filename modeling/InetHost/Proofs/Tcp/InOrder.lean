import InetHost.Proofs.Tcp.Accounts

/-! The next segment of the peer, with data, with the end of the peer's side, or with both. An open
connection takes the one or the other; of a segment with both it takes the end, and after the end of its
own side it takes no data any more. -/

namespace InetHost

open Tcp

variable {δ : Type} {w w' : World δ} {slot : Slot} {mac : Mac} {frame payload : Bytes} {fin : Bool}

namespace Tcp

/-- A frame with the next segment of the peer, which ends its side if `fin` is set. -/
def Continues (slot : Slot) (frame payload : Bytes) (fin : Bool) (w : World δ) : Prop :=
  ∃ link packet header, Ipv4.Delivers w.host.interface.ip frame link packet ∧
    Addressed w (packet.message frame) packet.source header slot ∧
    header.seq = (socketAt slot w).ack ∧ header.flags.ack = true ∧ header.flags.syn = false ∧
    header.flags.rst = false ∧ header.flags.fin = fin ∧
    payload = (packet.message frame).drop header.dataOffset

theorem continues_wire {header : Header} {data : Bytes} (own : Interface) (mac : Mac) (id : UInt16)
    (hl : data.length ≤ maxPayload) {dest : Ipv4.Address} (hd : dest = w.host.interface.ip)
    (hs : w.host.tcp.demux? header.dest own.ip header.source = some slot)
    (hseq : header.seq = (socketAt slot w).ack) (hack : header.flags.ack = true)
    (hsyn : header.flags.syn = false) (hrst : header.flags.rst = false) :
    Continues slot (Ipv4.wire own mac dest .tcp id (header.segment data own.ip dest)) data
      header.flags.fin w := by
  obtain ⟨link, packet, read, hdelivers, ha, hflags, hnumber, hdata⟩ :=
    exists_delivers_wire own mac id hl hd hs
  exact ⟨link, packet, read, hdelivers, ha, hnumber.trans hseq, hflags ▸ hack, hflags ▸ hsyn,
    hflags ▸ hrst, by rw [hflags], hdata⟩

structure Takes (slot : Slot) (payload : Bytes) (fin : Bool) (w w' : World δ) : Prop where
  unread : unread slot w' = unread slot w ++ payload.take (room slot w)
  ack : (socketAt slot w').ack =
    (socketAt slot w).ack + UInt32.ofNat (payload.length + fin.toNat)

def State.Hears (s : State) : Prop := s = .established ∨ s = .finWait1 ∨ s = .finWait2

/-- Nothing is taken of data with the end of either side. -/
def State.heeded (s : State) (fin : Bool) (payload : Bytes) : Bytes :=
  if s = .established ∧ fin = false then payload else []

theorem State.heeded_eq_self_iff {s : State} :
    s.heeded fin payload = payload ↔ payload = [] ∨ s = .established ∧ fin = false := by
  unfold heeded
  split_ifs with h
  · exact iff_of_true rfl (.inr h)
  · simp only [h, or_false, eq_comm]

theorem Obeys.endpoint {message : Bytes} {source : Ipv4.Address} {header : Header}
    (ha : Addressed w message source header slot) (h : Obeys mac message source w w') :
    (socketAt slot w').endpoint =
      match Row.for? (socketAt slot w).state header.flags (message.drop header.dataOffset) with
      | some row => row.apply header (message.drop header.dataOffset) source
          (socketAt slot w).endpoint
      | none => (socketAt slot w).endpoint := by
  have hchosen := Sockets.demux?_eq_some_iff.1 ha.found
  cases h with
  | stays hnone htcp _ =>
    rw [hnone header slot ha.decoded hchosen, socketAt, htcp]
    rfl
  | @moves header' slot' row hd hc hrow he =>
    obtain rfl := Option.some.inj (ha.decoded.symm.trans hd)
    obtain rfl := Option.some.inj (ha.found.symm.trans (Sockets.demux?_eq_some_iff.2 hc))
    rw [hrow]
    exact he.endpoint

section Table

variable {s : State} {flags : Flags}

theorem Row.for?_of_fin (payload : Bytes) (hs : s.Hears) (hrst : flags.rst = false) (hfin : flags.fin = true) :
    ∃ next, for? s flags payload = some ⟨s, { fin := true }, false, .acknowledge, next⟩ := by
  rcases hs with rfl | rfl | rfl
  · exact ⟨.closeWait, by simp [for?, rows, fits, Flags.includes, hrst, hfin]⟩
  · exact ⟨.timeWait, by simp [for?, rows, fits, Flags.includes, hrst, hfin]⟩
  · exact ⟨.timeWait, by simp [for?, rows, fits, Flags.includes, hrst, hfin]⟩

theorem Row.for?_of_data (flags : Flags) (hrst : flags.rst = false) (hfin : flags.fin = false)
    (hack : flags.ack = true) (hp : payload ≠ []) : for? .established flags payload =
      some ⟨.established, { ack := true }, true, .keep, .established⟩ := by
  simp [for?, rows, fits, Flags.includes, hrst, hfin, hack, List.isEmpty_eq_false_iff.2 hp]

theorem Row.for?_of_unheeded (hs : s.Hears) (hrst : flags.rst = false) (hfin : flags.fin = false)
    (hp : s.heeded false payload = []) :
    ∀ row, for? s flags payload = some row → row.action = .note := by
  intro row hrow
  rcases hs with rfl | rfl | rfl
  · obtain rfl : payload = [] := hp
    simp [for?, rows, fits, Flags.includes, hrst, hfin] at hrow
  · simp [for?, rows, fits, Flags.includes, hrst, hfin] at hrow
    rw [← hrow.2]
  · simp [for?, rows, fits, Flags.includes, hrst, hfin] at hrow

end Table

theorem take_unread_append (hv : (socketAt slot w).buffer.Valid) (data : Bytes) :
    (unread slot w ++ data).take bufferSize = unread slot w ++ data.take (room slot w) := by
  have hl : (unread slot w).length ≤ bufferSize := by
    rw [unread, Ring.length_toList]
    exact hv.length_le
  rw [List.take_append, List.take_of_length_le hl, room]

theorem Obeys.takes {message : Bytes} {source : Ipv4.Address} {header : Header}
    (ha : Addressed w message source header slot) (hv : (socketAt slot w).buffer.Valid)
    (hs : (socketAt slot w).state.Hears) (hseq : header.seq = (socketAt slot w).ack)
    (hack : header.flags.ack = true) (hrst : header.flags.rst = false)
    (h : Obeys mac message source w w') :
    Takes slot ((socketAt slot w).state.heeded header.flags.fin (message.drop header.dataOffset))
      header.flags.fin w w' := by
  let payload := message.drop header.dataOffset
  have he := h.endpoint ha
  cases hfin : header.flags.fin with
  | true =>
    have hnone : (socketAt slot w).state.heeded true payload = [] := if_neg (by simp)
    obtain ⟨next, hrow⟩ := Row.for?_of_fin payload hs hrst hfin
    rw [hrow] at he
    refine ⟨?_, ?_⟩
    · rw [hnone, List.take_nil, List.append_nil]
      exact congrArg Endpoint.unread he
    · rw [hnone, ← hseq]
      exact congrArg Endpoint.ack he
  | false =>
    by_cases hp : (socketAt slot w).state.heeded false payload = []
    · have hnote := Row.for?_of_unheeded hs hrst hfin hp
      have hsame : unread slot w' = unread slot w ∧ (socketAt slot w').ack = (socketAt slot w).ack := by
        cases hrow : Row.for? (socketAt slot w).state header.flags payload with
        | none =>
          rw [hrow] at he
          exact ⟨congrArg Endpoint.unread he, congrArg Endpoint.ack he⟩
        | some row =>
          rw [hrow] at he
          simp only [Row.apply, hnote row hrow, Action.apply] at he
          exact ⟨congrArg Endpoint.unread he, congrArg Endpoint.ack he⟩
      refine ⟨?_, ?_⟩
      · rw [hp, List.take_nil, List.append_nil, hsame.1]
      · rw [hp, hsame.2]
        exact (UInt32.add_zero _).symm
    · have hopen : (socketAt slot w).state = .established ∧ false = false :=
        Decidable.byContradiction fun hn => hp (if_neg hn)
      have hall : (socketAt slot w).state.heeded false payload = payload := if_pos hopen
      rw [hall] at hp
      have hrow := Row.for?_of_data header.flags hrst hfin hack hp
      rw [← hopen.1] at hrow
      rw [hrow] at he
      refine ⟨?_, ?_⟩
      · rw [hall, ← take_unread_append hv]
        exact congrArg Endpoint.unread he
      · rw [hall]
        exact congrArg Endpoint.ack he

theorem Takes.payload_eq_nil {rest : Bytes} (h : Takes slot [] fin w w')
    (h' : Takes slot rest fin w w') (hl : rest.length < 65536) : rest = [] := by
  have hack := h.ack.symm.trans h'.ack
  rw [UInt32.add_right_inj] at hack
  have hn := congrArg UInt32.toNat hack
  simp only [UInt32.toNat_ofNat', List.length_nil] at hn
  have hf : fin.toNat ≤ 1 := by cases fin <;> decide
  exact List.eq_nil_of_length_eq_zero (by omega)

theorem State.Hears.ne_listen {s : State} (h : s.Hears) : s ≠ .listen := by
  rcases h with rfl | rfl | rfl <;> decide

theorem Continues.length_lt (h : Continues slot frame payload fin w) : payload.length < 65536 := by
  obtain ⟨-, packet, header, -, -, -, -, -, -, -, rfl⟩ := h
  have hall : (packet.message frame).length ≤ packet.totalLength.toNat := by
    rw [Ipv4.Header.message, List.length_drop]
    exact (Nat.sub_le ..).trans (List.length_take_le ..)
  rw [List.length_drop]
  exact Nat.lt_of_le_of_lt ((Nat.sub_le ..).trans hall) packet.totalLength.toNat_lt

end Tcp

/-- What a connection takes of the next segment of its peer, and when that is all of it. -/
theorem next_segment_taken_iff [Link.Device δ] (fuel : Nat) (hv : w.Valid)
    (hs : (socketAt slot w).state.Hears) (hm : w.hop? (socketAt slot w).remoteIp = some mac)
    (h : Continues slot frame payload fin w) :
    ∃ w', Net.handleFrame (Poller.ofFuel fuel) frame w = .ok ((), w') ∧
      Takes slot ((socketAt slot w).state.heeded fin payload) fin w w' ∧
      (Takes slot payload fin w w' ↔
        payload = [] ∨ (socketAt slot w).state = .established ∧ fin = false) := by
  have hlength := h.length_lt
  obtain ⟨link, packet, header, hd, ha, hseq, hack, -, hrst, rfl, rfl⟩ := h
  have hhop : w.hop? packet.source = some mac := by rw [← ha.remoteIp_eq hs.ne_listen, hm]
  have hp : (Poller.ofFuel fuel : Poller δ).Evolving := Poller.evolving_ofFuel fuel
  obtain ⟨⟨⟩, w', hrun, ho⟩ := (Net.handleFrame_of_delivers hd (handle_obeys hv hhop)).exists_eq_ok
    (Net.handleFrame_ensures hp frame hv).ne_fault
  have htakes := ho.takes ha (hv slot) hs hseq hack hrst
  refine ⟨w', hrun, htakes, ?_⟩
  rw [← State.heeded_eq_self_iff]
  constructor
  · intro hall
    by_cases ho : (socketAt slot w).state = .established ∧ header.flags.fin = false
    · exact if_pos ho
    · have hnone : (socketAt slot w).state.heeded header.flags.fin
          ((packet.message frame).drop header.dataOffset) = [] := if_neg ho
      rw [hnone] at htakes ⊢
      exact (htakes.payload_eq_nil hall hlength).symm
  · intro hsame
    rwa [hsame] at htakes

namespace Tcp

def partingFrame : Bytes :=
  Ipv4.wire peer Interface.default.mac Interface.default.ip .tcp 0
    (Header.segment ⟨5000, 80, 101, 1, minHeader, { fin := true, ack := true }, window, 0⟩ letters
      peer.ip Interface.default.ip)

theorem continues_parting : Continues 0 partingFrame letters true conversing :=
  continues_wire peer Interface.default.mac 0 (by decide) (by decide +kernel) (by decide +kernel)
    (by decide +kernel) rfl rfl rfl

def hearing : World Link.Script :=
  conversing.after 4 [.tcpShutdown 0, .handleFrame (peerFrame 5000 80 101 2 { ack := true })]

def heard : World Link.Script := hearing.after 4 [.handleFrame lettersFrame]

theorem continues_letters : Continues 0 lettersFrame letters false hearing :=
  continues_wire peer Interface.default.mac 0 (by decide) (by decide +kernel) (by decide +kernel)
    (by decide +kernel) rfl rfl rfl

end Tcp

theorem next_segment_taken_iff_parting : Reachable conversing ∧
    (socketAt 0 conversing).state.Hears ∧
    conversing.hop? (socketAt 0 conversing).remoteIp = some peer.mac ∧
    Continues 0 partingFrame letters true conversing ∧
    ∃ w', Net.handleFrame (Poller.ofFuel 0) partingFrame conversing = .ok ((), w') ∧
      Takes 0 [] true conversing w' ∧ ¬ Takes 0 letters true conversing w' := by
  have hw : Reachable conversing := .after (.start ..) 4 _
  have hs : (socketAt 0 conversing).state.Hears := .inl engaged_conversing.established
  obtain ⟨w', hrun, htaken, hall⟩ :=
    next_segment_taken_iff 0 hw.valid hs engaged_conversing.hop continues_parting
  have hnone : (socketAt 0 conversing).state.heeded true letters = [] := if_neg (by simp)
  rw [hnone] at htaken
  refine ⟨hw, hs, engaged_conversing.hop, continues_parting, w', hrun, htaken, fun h => ?_⟩
  rcases hall.1 h with hempty | ⟨-, hopen⟩
  · exact absurd hempty (by decide)
  · cases hopen

/-- Three bytes that come after the end of the own side are lost: not kept, and not counted. -/
theorem letters_lost_after_shutdown : Reachable hearing ∧
    (socketAt 0 hearing).state = .finWait2 ∧
    hearing.hop? (socketAt 0 hearing).remoteIp = some peer.mac ∧
    Continues 0 lettersFrame letters false hearing ∧
    (Operation.handleFrame lettersFrame).Runs hearing heard ∧
    room 0 hearing = bufferSize ∧ unread 0 heard = unread 0 hearing ∧
    (socketAt 0 heard).ack = (socketAt 0 hearing).ack ∧ ¬ Takes 0 letters false hearing heard := by
  have hw : Reachable hearing := .after (.after (.start ..) 4 _) 4 _
  have hack : (socketAt 0 heard).ack ≠
      (socketAt 0 hearing).ack + UInt32.ofNat (letters.length + false.toNat) := by
    decide +kernel
  exact ⟨hw, by decide +kernel, by decide +kernel, continues_letters,
    Operation.runs_after (by decide +kernel), by decide +kernel, by decide +kernel,
    by decide +kernel, fun h => hack h.ack⟩

end InetHost
