import InetHost.Proofs.Host.Prompt
import InetHost.Proofs.Ring.Queue
import InetHost.Proofs.Slots
import InetHost.Proofs.Tcp.Reset

/-! What a segment does, as a table: for each state the flags that a segment must have, what is done
then, and the state after it. The table is written down without the handler of segments, and then the
handler is shown to follow it, line for line, for a segment whose sender can be answered at once. -/

namespace InetHost

namespace Tcp

namespace Sockets

variable (t : Sockets) (localPort : UInt16) (ip : Ipv4.Address) (port : UInt16)

def connections : Set Slot :=
  {i | (t.get i).inUse = true ∧ (t.get i).localPort = localPort ∧ (t.get i).state ≠ .listen ∧
    (t.get i).remoteIp = ip ∧ (t.get i).remotePort = port}

def listeners : Set Slot :=
  {i | (t.get i).inUse = true ∧ (t.get i).localPort = localPort ∧ (t.get i).state = .listen}

/-- The lowest socket of the connection, or else the lowest that listens. -/
def Chosen (slot : Slot) : Prop :=
  IsLeast (t.connections localPort ip port) slot ∨
    t.connections localPort ip port = ∅ ∧ IsLeast (t.listeners localPort) slot

variable {t localPort ip port}

theorem connection?_eq_some_iff {slot : Slot} :
    t.connection? localPort ip port = some slot ↔
      IsLeast (t.connections localPort ip port) slot := by
  rw [connection?, Slots.first?_eq_some_iff]
  simp [connections, and_assoc]

theorem connection?_eq_none_iff :
    t.connection? localPort ip port = none ↔ t.connections localPort ip port = ∅ := by
  rw [connection?, Slots.first?_eq_none_iff, Set.eq_empty_iff_forall_notMem]
  simp [connections]

theorem listener?_eq_some_iff {slot : Slot} :
    t.listener? localPort = some slot ↔ IsLeast (t.listeners localPort) slot := by
  rw [listener?, Slots.first?_eq_some_iff]
  simp [listeners, and_assoc]

theorem listener?_eq_none_iff : t.listener? localPort = none ↔ t.listeners localPort = ∅ := by
  rw [listener?, Slots.first?_eq_none_iff, Set.eq_empty_iff_forall_notMem]
  simp [listeners]

theorem demux?_eq_some_iff {slot : Slot} :
    t.demux? localPort ip port = some slot ↔ t.Chosen localPort ip port slot := by
  rw [demux?, Option.or_eq_some_iff, connection?_eq_some_iff, connection?_eq_none_iff,
    listener?_eq_some_iff, Chosen]

theorem Chosen.remoteIp_eq {slot : Slot} (h : t.Chosen localPort ip port slot)
    (hl : (t.get slot).state ≠ .listen) : (t.get slot).remoteIp = ip := by
  rcases h with ⟨hc, -⟩ | ⟨-, hs, -⟩
  · exact hc.2.2.2.1
  · exact absurd hs.2.2 hl

end Sockets

def Flags.includes (f asked : Flags) : Bool :=
  (!asked.fin || f.fin) && (!asked.syn || f.syn) && (!asked.rst || f.rst) &&
    (!asked.psh || f.psh) && (!asked.ack || f.ack) && (!asked.urg || f.urg)

structure Endpoint where
  state : State
  localPort : UInt16
  remotePort : UInt16
  remoteIp : Ipv4.Address
  seq : UInt32
  ack : UInt32
  unread : Bytes
  reset : Bool
  inUse : Bool
  deriving DecidableEq

def Socket.endpoint (s : Socket) : Endpoint :=
  ⟨s.state, s.localPort, s.remotePort, s.remoteIp, s.seq, s.ack, s.buffer.toList, s.reset, s.inUse⟩

inductive Action
  | accept
  | acknowledge
  | keep
  | note
  | free
  | reset
  deriving DecidableEq

namespace Action

def apply (header : Header) (payload : Bytes) (source : Ipv4.Address) (e : Endpoint) :
    Action → Endpoint
  | accept =>
    { e with remoteIp := source, remotePort := header.source, ack := header.seq + 1,
             seq := e.seq + 1 }
  | acknowledge => { e with ack := header.seq + 1 }
  | keep =>
    { e with unread := (e.unread ++ payload).take bufferSize,
             ack := e.ack + UInt32.ofNat payload.length }
  | note => e
  | free => { e with unread := [], inUse := false }
  | reset => { e with reset := true }

def reply? : Action → Option Flags
  | accept => some { syn := true, ack := true }
  | acknowledge | keep => some { ack := true }
  | note | free | reset => none

end Action

structure Row where
  state : State
  flags : Flags
  data : Bool := false
  action : Action
  next : State
  deriving DecidableEq

namespace Row

def rows : List Row :=
  [{ state := .listen, flags := { syn := true }, action := .accept, next := .synReceived },
    { state := .synSent, flags := { syn := true, ack := true }, action := .acknowledge,
      next := .established },
    { state := .synReceived, flags := { ack := true }, action := .note, next := .established },
    { state := .established, flags := { fin := true }, action := .acknowledge,
      next := .closeWait },
    { state := .established, flags := { ack := true }, data := true, action := .keep,
      next := .established },
    { state := .finWait1, flags := { fin := true }, action := .acknowledge, next := .timeWait },
    { state := .finWait1, flags := { ack := true }, action := .note, next := .finWait2 },
    { state := .finWait2, flags := { fin := true }, action := .acknowledge, next := .timeWait },
    { state := .lastAck, flags := { ack := true }, action := .free, next := .closed }]

def resets : List Row :=
  (State.all.filter fun s => s ≠ .listen ∧ s ≠ .closed).map fun s =>
    { state := s, flags := { rst := true }, action := .reset, next := .closed }

def fits (state : State) (flags : Flags) (payload : Bytes) (row : Row) : Bool :=
  row.state = state && flags.includes row.flags && (!row.data || !payload.isEmpty)

def for? (state : State) (flags : Flags) (payload : Bytes) : Option Row :=
  (if flags.rst then resets else rows).find? (fits state flags payload)

def apply (row : Row) (header : Header) (payload : Bytes) (source : Ipv4.Address) (e : Endpoint) :
    Endpoint :=
  { row.action.apply header payload source e with state := row.next }

end Row

end Tcp

open Tcp

variable {δ : Type} {w w₁ w₂ w' : World δ}

/-- The answer has the numbers of the socket after it, but for the one that it takes itself. -/
structure Tcp.Row.Enacted (row : Row) (slot : Slot) (mac : Mac) (header : Header) (payload : Bytes)
    (source : Ipv4.Address) (w w' : World δ) : Prop where
  endpoint : (socketAt slot w').endpoint =
    row.apply header payload source (socketAt slot w).endpoint
  others : ∀ j, j ≠ slot → socketAt j w' = socketAt j w
  nextSeq : w'.host.tcp.nextSeq = w.host.tcp.nextSeq
  frames : w'.frames = w.frames ++ (row.action.reply?.map fun flags =>
    w.frameOf mac { socketAt slot w' with seq := (socketAt slot w).seq } flags []).toList

/-- What a segment makes of a world, by the table. -/
inductive Tcp.Obeys (mac : Mac) (message : Bytes) (source : Ipv4.Address) (w w' : World δ) : Prop
  | stays :
      (∀ header slot, Header.decode? message = some header →
        w.host.tcp.Chosen header.dest source header.source slot →
        Row.for? (socketAt slot w).state header.flags (message.drop header.dataOffset) = none) →
      w'.host.tcp = w.host.tcp → w'.frames = w.frames → Obeys mac message source w w'
  | moves {header : Header} {slot : Slot} {row : Row} :
      Header.decode? message = some header →
      w.host.tcp.Chosen header.dest source header.source slot →
      Row.for? (socketAt slot w).state header.flags (message.drop header.dataOffset) = some row →
      row.Enacted slot mac header (message.drop header.dataOffset) source w w' →
      Obeys mac message source w w'

namespace Tcp.Row.Enacted

variable {row : Row} {slot : Slot} {mac : Mac} {header : Header} {payload : Bytes}
  {source : Ipv4.Address}

theorem of_adjusts (hr : row.action.reply? = none) (ha : w.Adjusts w')
    (ho : ∀ j, j ≠ slot → socketAt j w' = socketAt j w)
    (he : (socketAt slot w').endpoint =
      row.apply header payload source (socketAt slot w).endpoint) :
    row.Enacted slot mac header payload source w w' where
  endpoint := he
  others := ho
  nextSeq := ha.nextSeq
  frames := by rw [hr, ha.frames, Option.map_none, Option.toList_none, List.append_nil]

theorem of_answer {flags : Flags} (hr : row.action.reply? = some flags) (ha : w.Adjusts w₁)
    (hs : w₁.HandsOver (w₁.frameOf mac (socketAt slot w₁) flags []) w₂) (ha' : w₂.Adjusts w')
    (hh : (socketAt slot w₁).header flags =
      { socketAt slot w' with seq := (socketAt slot w).seq }.header flags)
    (hi : (socketAt slot w₁).remoteIp = (socketAt slot w').remoteIp)
    (ho : ∀ j, j ≠ slot → socketAt j w' = socketAt j w)
    (he : (socketAt slot w').endpoint =
      row.apply header payload source (socketAt slot w).endpoint) :
    row.Enacted slot mac header payload source w w' where
  endpoint := he
  others := ho
  nextSeq := by rw [ha'.nextSeq, hs.tcp_eq, ha.nextSeq]
  frames := by
    rw [ha'.frames, hs.frames, ha.frames, ha.frameOf_eq, hr]
    simp only [World.frameOf, Socket.segment, hh, hi, Option.map_some, Option.toList_some]

theorem of_setState {next : State}
    (h : row.Enacted slot mac header payload source (setState slot next w) w') :
    row.Enacted slot mac header payload source w w' := by
  have ha : w.Adjusts (setState slot next w) := .setState w
  refine ⟨?_, fun j hj => ?_, h.nextSeq.trans ha.nextSeq, ?_⟩
  · rw [h.endpoint, socketAt_setState_self, Row.apply, Row.apply]
    cases row.action <;> rfl
  · rw [h.others j hj, socketAt_setState, if_neg hj.symm]
  · rw [h.frames, ha.frames, socketAt_setState_self]
    simp only [ha.frameOf_eq]

end Tcp.Row.Enacted

theorem Ring.Valid.toList_push_eq_take {n : Nat} {r r' : Ring n} {data : Bytes} {stored : Nat}
    (h : r.Valid) (hp : r.push data = .ok (r', stored)) :
    r'.toList = (r.toList ++ data).take n := by
  obtain ⟨hs, hl⟩ := h.toList_push hp
  have hold : r.toList.take n = r.toList :=
    List.take_of_length_le (by rw [r.length_toList]; exact h.length_le)
  have hnew : data.take stored = data.take (n - r.length) := by
    rw [hs, Nat.min_comm, ← List.take_eq_take_min]
  rw [hl, List.take_append, r.length_toList, hold, hnew]

section Handling

variable {p : Poller δ} {slot : Slot} {row : Row} {mac : Mac} {header : Header} {payload : Bytes}
  {source : Ipv4.Address}

theorem Tcp.setState_enacts {next : State} (hr : row.action = .note) (hn : row.next = next) :
    row.Enacted slot mac header payload source w (setState slot next w) := by
  refine .of_adjusts (by rw [hr]; rfl) (.setState w) (fun j hj => ?_) ?_
  · rw [socketAt_setState, if_neg hj.symm]
  · rw [socketAt_setState_self, Row.apply, hr, hn]
    rfl

theorem Tcp.release_enacts (hr : row.action = .free) (hn : row.next = .closed) :
    row.Enacted slot mac header payload source w (release slot w) := by
  refine .of_adjusts (by rw [hr]; rfl) (.release w) (fun j hj => ?_) ?_
  · rw [socketAt_release, if_neg hj.symm]
  · rw [socketAt_release, if_pos rfl, Row.apply, hr, hn]
    rfl

theorem Tcp.handleReset_enacts (hr : row.action = .reset) (hn : row.next = .closed)
    (hl : (socketAt slot w).state ≠ .listen) (hc : (socketAt slot w).state ≠ .closed) :
    row.Enacted slot mac header payload source w
      (handleReset slot (socketAt slot w).state source w) := by
  refine .of_adjusts (by rw [hr]; rfl) (.handleReset source w) (fun j hj => ?_) ?_
  · rw [socketAt_handleReset_of_alive hl hc, if_neg hj.symm]
  · rw [socketAt_handleReset_of_alive hl hc, if_pos rfl, Row.apply, hr, hn]
    rfl

variable [Link.Device δ]

theorem Tcp.acceptConnection_enacts (hr : row.action = .accept) (hn : row.next = .synReceived)
    (hm : w.hop? source = some mac) : Net.Finishes (acceptConnection p slot header source) w
      fun _ w' => row.Enacted slot mac header payload source w w' := by
  let w₁ := promote slot header source w
  have ha : w.Adjusts w₁ := (World.Adjusts.updateSocket _ _).trans (.setState _)
  have hs : socketAt slot w₁ = { socketAt slot w with
      state := .synReceived, remoteIp := source, remotePort := header.source
      ack := header.seq + 1 } := by rw [socketAt_promote, if_pos rfl]
  have hsend : Attempt.Finishes (sendSegment p slot { syn := true, ack := true } []) w₁ fun _ w₂ =>
      w₁.HandsOver (w₁.frameOf mac (socketAt slot w₁) { syn := true, ack := true } []) w₂ := by
    refine sendSegment_prompt ?_ (Nat.zero_le _)
    rw [hs, ha.hop?_eq, hm]
  have hdone {w₂ : World δ} (h : w₁.HandsOver (w₁.frameOf mac (socketAt slot w₁)
      { syn := true, ack := true } []) w₂) :
      row.Enacted slot mac header payload source w (advanceSeq slot 1 w₂) := by
    have hlast : socketAt slot (advanceSeq slot 1 w₂) =
        { socketAt slot w₁ with seq := (socketAt slot w).seq + 1 } := by
      rw [socketAt_advanceSeq, if_pos rfl, h.socketAt_eq, hs]
    refine .of_answer (by rw [hr]; rfl) ha h (.updateSocket _ _) ?_ ?_ (fun j hj => ?_) ?_
    · rw [hlast, hs]
    · rw [hlast]
    · rw [socketAt_advanceSeq, if_neg hj.symm, h.socketAt_eq, socketAt_promote, if_neg hj.symm]
    · rw [hlast, hs, Row.apply, hr, hn]
      rfl
  rw [acceptConnection, Net.finishes_bind, Net.finishes_modify, Net.finishes_bind,
    Net.finishes_modify, Net.finishes_bind, Attempt.finishes_run]
  refine hsend.mono fun result w₂ h₂ => ?_
  cases result with
  | ok _ => exact hdone h₂
  | error cause => exact hdone (h₂.record rfl)

theorem Tcp.acknowledge_enacts {next : State} (hr : row.action = .acknowledge)
    (hn : row.next = next) (hm : w.hop? source = some mac)
    (hi : (socketAt slot w).remoteIp = source) :
    Net.Finishes (sendAck p slot) (setState slot next (setAck slot (header.seq + 1) w))
      fun _ w' => row.Enacted slot mac header payload source w w' := by
  let w₁ := setState slot next (setAck slot (header.seq + 1) w)
  have ha : w.Adjusts w₁ := (World.Adjusts.updateSocket _ w).trans (.setState _)
  have hs : socketAt slot w₁ =
      { socketAt slot w with state := next, ack := header.seq + 1 } := by
    rw [socketAt_setState_self, socketAt_setAck, if_pos rfl]
  have hk : w₁.hop? (socketAt slot w₁).remoteIp = some mac := by rw [hs, ha.hop?_eq, hi, hm]
  refine (sendAck_prompt hk).mono fun _ w' h => ?_
  have hlast : socketAt slot w' = socketAt slot w₁ := h.socketAt_eq slot
  refine .of_answer (by rw [hr]; rfl) ha h (.refl w') ?_ ?_ (fun j hj => ?_) ?_
  · rw [hlast, hs]
  · rw [hlast]
  · rw [h.socketAt_eq, socketAt_setState, if_neg hj.symm, socketAt_setAck, if_neg hj.symm]
  · rw [hlast, hs, Row.apply, hr, hn]
    rfl

theorem Tcp.finish_enacts (hr : row.action = .acknowledge) (hn : row.next = .timeWait)
    (hm : w.hop? source = some mac) (hi : (socketAt slot w).remoteIp = source) :
    Net.Finishes (finish p slot header) w
      fun _ w' => row.Enacted slot mac header payload source w w' := by
  let w₁ := setAck slot (header.seq + 1) w
  have ha : w.Adjusts w₁ := .updateSocket _ w
  have hs : socketAt slot w₁ = { socketAt slot w with ack := header.seq + 1 } := by
    rw [socketAt_setAck, if_pos rfl]
  have hk : w₁.hop? (socketAt slot w₁).remoteIp = some mac := by rw [hs, ha.hop?_eq, hi, hm]
  rw [finish, Net.finishes_bind, Net.finishes_modify, Net.finishes_bind]
  refine (sendAck_prompt hk).mono fun _ w₂ h => ?_
  have hlast : socketAt slot (setState slot .timeWait w₂) =
      { socketAt slot w₁ with state := .timeWait } := by
    rw [socketAt_setState_self, h.socketAt_eq]
  refine .of_answer (by rw [hr]; rfl) ha h (.setState _) ?_ ?_ (fun j hj => ?_) ?_
  · rw [hlast, hs]
    rfl
  · rw [hlast]
  · rw [socketAt_setState, if_neg hj.symm, h.socketAt_eq, socketAt_setAck, if_neg hj.symm]
  · rw [hlast, hs, Row.apply, hr, hn]
    rfl

theorem Tcp.acceptData_prompt (hp : payload ≠ [])
    (hm : w.hop? (socketAt slot w).remoteIp = some mac) :
    Net.Finishes (acceptData p slot source message payload) w fun _ w' => ∃ buffer stored w₁,
      (socketAt slot w).buffer.push payload = .ok (buffer, stored) ∧ w.Adjusts w₁ ∧
        (∀ j, socketAt j w₁ =
          if slot = j then { socketAt slot w with
            buffer, ack := (socketAt slot w).ack + UInt32.ofNat payload.length }
          else socketAt j w) ∧
        w₁.HandsOver (w₁.frameOf mac (socketAt slot w₁) { ack := true } []) w' := by
  rw [acceptData, if_neg hp, Net.finishes_bind, Net.finishes_get, Net.finishes_bind,
    Net.finishes_check]
  rintro ⟨buffer, stored⟩ hb
  rw [Net.finishes_bind, Net.finishes_check]
  intro dropped _
  rw [Net.finishes_bind, Net.finishes_modify, Net.finishes_bind, Net.finishes_modify]
  have ha : w.Adjusts (keepData slot buffer payload.length dropped
      (w.record (.dataKept slot source message (payload.take stored)))) :=
    (World.Adjusts.record w rfl).trans (.keepData ..)
  refine (sendAck_prompt ?_).mono fun _ w' h =>
    ⟨buffer, stored, _, hb, ha, fun j => socketAt_keepData .., h⟩
  rwa [ha.hop?_eq, socketAt_keepData, if_pos rfl]

theorem Tcp.acceptData_enacts (hr : row.action = .keep) (hn : row.next = .established)
    (hv : (socketAt slot w).buffer.Valid) (hs : (socketAt slot w).state = .established)
    (hp : payload ≠ []) (hm : w.hop? source = some mac)
    (hi : (socketAt slot w).remoteIp = source) :
    Net.Finishes (acceptData p slot source message payload) w
      fun _ w' => row.Enacted slot mac header payload source w w' := by
  refine (acceptData_prompt hp (by rw [hi, hm])).mono fun _ w' h => ?_
  obtain ⟨buffer, stored, w₁, hb, ha, hsockets, h⟩ := h
  have hk : socketAt slot w' = { socketAt slot w with
      buffer, ack := (socketAt slot w).ack + UInt32.ofNat payload.length } := by
    rw [h.socketAt_eq, hsockets, if_pos rfl]
  refine .of_answer (by rw [hr]; rfl) ha h (.refl w') ?_ ?_ (fun j hj => ?_) ?_
  · rw [hk, hsockets, if_pos rfl]
  · rw [h.socketAt_eq]
  · rw [h.socketAt_eq, hsockets, if_neg hj.symm]
  · rw [hk, Row.apply, hr, hn, Socket.endpoint, hs, hv.toList_push_eq_take hb]
    rfl

end Handling

section Table

theorem Tcp.Row.for?_eq {s state : State} {flags : Flags} {payload : Bytes}
    (hr : flags.rst = false) (hs : s = state) :
    for? s flags payload = rows.find? (fits state flags payload) := by
  rw [for?, hr, hs]
  rfl

variable {p : Poller δ} {slot : Slot} {row : Row} {mac : Mac} {header : Header} {message : Bytes}
  {source : Ipv4.Address} (ha : Addressed w message source header slot)

include ha

theorem Tcp.Addressed.remoteIp_eq (hl : (socketAt slot w).state ≠ .listen) :
    (socketAt slot w).remoteIp = source :=
  (Sockets.demux?_eq_some_iff.1 ha.found).remoteIp_eq hl

theorem Tcp.Obeys.of_for?_eq_none (hl : Row.for? (socketAt slot w).state header.flags
    (message.drop header.dataOffset) = none) : Obeys mac message source w w := by
  refine .stays (fun header' slot' hd hc => ?_) rfl rfl
  obtain rfl := Option.some.inj (ha.decoded.symm.trans hd)
  obtain rfl := Option.some.inj (ha.found.symm.trans (Sockets.demux?_eq_some_iff.2 hc))
  exact hl

theorem Tcp.Obeys.of_enacted
    (hl : Row.for? (socketAt slot w).state header.flags (message.drop header.dataOffset) = some row)
    (he : row.Enacted slot mac header (message.drop header.dataOffset) source w w') :
    Obeys mac message source w w' :=
  .moves ha.decoded (Sockets.demux?_eq_some_iff.1 ha.found) hl he

theorem Tcp.handleReset_obeys (hr : header.flags.rst = true) :
    Obeys mac message source w (handleReset slot (socketAt slot w).state source w) := by
  have hlook (s : State) : Row.for? s header.flags (message.drop header.dataOffset) =
      if s = .listen ∨ s = .closed then none
      else some ⟨s, { rst := true }, false, .reset, .closed⟩ := by
    cases s <;> simp [Row.for?, Row.resets, State.all, Row.fits, Flags.includes, hr]
  by_cases hs : (socketAt slot w).state = .listen ∨ (socketAt slot w).state = .closed
  · rw [handleReset_of_dead hs]
    exact .of_for?_eq_none ha ((hlook _).trans (if_pos hs))
  · obtain ⟨hl, hc⟩ := not_or.1 hs
    exact .of_enacted ha ((hlook _).trans (if_neg hs)) (handleReset_enacts rfl rfl hl hc)

variable (hr : header.flags.rst = false)

include hr

theorem Tcp.Obeys.of_no_row {state : State} (hs : (socketAt slot w).state = state)
    (hl : Row.rows.find? (Row.fits state header.flags (message.drop header.dataOffset)) = none) :
    Obeys mac message source w w :=
  .of_for?_eq_none ha ((Row.for?_eq hr hs).trans hl)

theorem Tcp.Obeys.of_row (row : Row) {state : State} (hs : (socketAt slot w).state = state)
    {m : Net δ Unit}
    (hl : Row.rows.find? (Row.fits state header.flags (message.drop header.dataOffset)) = some row)
    (h : Net.Finishes m w₁ fun _ w' =>
      row.Enacted slot mac header (message.drop header.dataOffset) source w w') :
    Net.Finishes m w₁ fun _ w' => Obeys mac message source w w' :=
  h.mono fun _ _ he => .of_enacted ha ((Row.for?_eq hr hs).trans hl) he

variable [Link.Device δ] (hm : w.hop? source = some mac)

include hm

theorem Tcp.advance_established (hs : (socketAt slot w).state = .established)
    (hv : (socketAt slot w).buffer.Valid) :
    Net.Finishes (advance p slot .established header message source) w
      fun _ w' => Obeys mac message source w w' := by
  have hi : (socketAt slot w).remoteIp = source := ha.remoteIp_eq (by simp [hs])
  dsimp only [advance]
  split
  · rename_i hf
    apply Obeys.of_row ha hr ⟨.established, { fin := true }, false, .acknowledge, .closeWait⟩ hs
    · simp [Row.rows, Row.fits, Flags.includes, hf]
    · rw [acceptFin, Net.finishes_bind, Net.finishes_modify, Net.finishes_bind,
        Net.finishes_modify]
      exact acknowledge_enacts rfl rfl hm hi
  · rename_i hf
    split
    · rename_i hk
      rw [Net.finishes_bind, Net.finishes_check]
      intro payload hslice
      rw [Bytes.eq_of_slice hslice, ← List.length_drop, List.take_length]
      by_cases hp : message.drop header.dataOffset = []
      · rw [acceptData, if_pos hp]
        exact .of_no_row ha hr hs (by simp [Row.rows, Row.fits, Flags.includes, hf, hp])
      · apply Obeys.of_row ha hr ⟨.established, { ack := true }, true, .keep, .established⟩ hs
        · simp [Row.rows, Row.fits, Flags.includes, hf, hk, List.isEmpty_eq_false_iff.2 hp]
        · exact acceptData_enacts rfl rfl hv hs hp hm hi
    · rename_i hk
      exact .of_no_row ha hr hs (by simp [Row.rows, Row.fits, Flags.includes, hf, hk])

theorem Tcp.advance_finWait1 (hs : (socketAt slot w).state = .finWait1) :
    Net.Finishes (advance p slot .finWait1 header message source) w
      fun _ w' => Obeys mac message source w w' := by
  have hi : (socketAt slot w).remoteIp = source := ha.remoteIp_eq (by simp [hs])
  have hfin (hf : header.flags.fin = true) :
      Row.rows.find? (Row.fits .finWait1 header.flags (message.drop header.dataOffset)) =
        some ⟨.finWait1, { fin := true }, false, .acknowledge, .timeWait⟩ := by
    simp [Row.rows, Row.fits, Flags.includes, hf]
  dsimp only [advance]
  split
  · rename_i hk
    rw [Net.finishes_bind, Net.finishes_modify]
    split
    · -- The line for the end counts, whatever the acknowledgement has done before it.
      have hw : (setState slot .finWait2 w).hop? source = some mac := by
        rw [(World.Adjusts.setState w).hop?_eq, hm]
      refine Obeys.of_row ha hr _ hs (hfin ‹_›) ?_
      refine (finish_enacts rfl rfl hw ?_).mono fun _ _ he => he.of_setState
      rw [socketAt_setState_self, hi]
    · rename_i hf
      apply Obeys.of_row ha hr ⟨.finWait1, { ack := true }, false, .note, .finWait2⟩ hs
      · simp [Row.rows, Row.fits, Flags.includes, hf, hk]
      · exact setState_enacts rfl rfl
  · rename_i hk
    split
    · exact Obeys.of_row ha hr _ hs (hfin ‹_›) (finish_enacts rfl rfl hm hi)
    · rename_i hf
      exact .of_no_row ha hr hs (by simp [Row.rows, Row.fits, Flags.includes, hf, hk])

theorem Tcp.advance_obeys (hv : (socketAt slot w).buffer.Valid) :
    Net.Finishes (advance p slot (socketAt slot w).state header message source) w
      fun _ w' => Obeys mac message source w w' := by
  have hi (hl : (socketAt slot w).state ≠ .listen) : (socketAt slot w).remoteIp = source :=
    ha.remoteIp_eq hl
  cases hs : (socketAt slot w).state with
  | established => exact advance_established ha hr hm hs hv
  | finWait1 => exact advance_finWait1 ha hr hm hs
  | listen =>
    dsimp only [advance]
    split
    · rename_i hf
      apply Obeys.of_row ha hr ⟨.listen, { syn := true }, false, .accept, .synReceived⟩ hs
      · simp [Row.rows, Row.fits, Flags.includes, hf]
      · exact acceptConnection_enacts rfl rfl hm
    · rename_i hf
      exact .of_no_row ha hr hs (by simp [Row.rows, Row.fits, Flags.includes, hf])
  | synSent =>
    dsimp only [advance]
    split
    · rename_i hf
      apply Obeys.of_row ha hr
        ⟨.synSent, { syn := true, ack := true }, false, .acknowledge, .established⟩ hs
      · simp [Row.rows, Row.fits, Flags.includes, hf]
      · rw [Net.finishes_bind, Net.finishes_modify, Net.finishes_bind, Net.finishes_modify]
        exact acknowledge_enacts rfl rfl hm (hi (by simp [hs]))
    · rename_i hf
      exact .of_no_row ha hr hs (by simp [Row.rows, Row.fits, Flags.includes, hf])
  | synReceived =>
    dsimp only [advance]
    split
    · rename_i hf
      apply Obeys.of_row ha hr ⟨.synReceived, { ack := true }, false, .note, .established⟩ hs
      · simp [Row.rows, Row.fits, Flags.includes, hf]
      · exact setState_enacts rfl rfl
    · rename_i hf
      exact .of_no_row ha hr hs (by simp [Row.rows, Row.fits, Flags.includes, hf])
  | finWait2 =>
    dsimp only [advance]
    split
    · rename_i hf
      apply Obeys.of_row ha hr ⟨.finWait2, { fin := true }, false, .acknowledge, .timeWait⟩ hs
      · simp [Row.rows, Row.fits, Flags.includes, hf]
      · exact finish_enacts rfl rfl hm (hi (by simp [hs]))
    · rename_i hf
      exact .of_no_row ha hr hs (by simp [Row.rows, Row.fits, Flags.includes, hf])
  | lastAck =>
    dsimp only [advance]
    split
    · rename_i hf
      apply Obeys.of_row ha hr ⟨.lastAck, { ack := true }, false, .free, .closed⟩ hs
      · simp [Row.rows, Row.fits, Flags.includes, hf]
      · exact release_enacts rfl rfl
    · rename_i hf
      exact .of_no_row ha hr hs (by simp [Row.rows, Row.fits, Flags.includes, hf])
  | closed | closeWait | closing | timeWait =>
    exact .of_no_row ha hr hs (by simp [Row.rows, Row.fits])

end Table

variable [Link.Device δ] {p : Poller δ} {mac : Mac} {message : Bytes} {source : Ipv4.Address}

theorem Tcp.handle_obeys (hv : w.Valid) (hm : w.hop? source = some mac) :
    Net.Finishes (handle p message source) w fun _ w' => Obeys mac message source w w' := by
  rw [handle, Net.finishes_bind, Net.finishes_check_of_eq (Header.parse_eq_ok message)]
  cases hd : Header.decode? message with
  | none => exact .stays (fun header slot hd' => by simp [hd] at hd') rfl rfl
  | some header =>
    simp only [Net.finishes_bind, Net.finishes_get]
    cases hf : w.host.tcp.demux? header.dest source header.source with
    | none =>
      refine .stays (fun header' slot hd' hc => ?_) rfl (World.frames_record w rfl)
      obtain rfl := Option.some.inj (hd.symm.trans hd')
      rw [Sockets.demux?_eq_some_iff.2 hc] at hf
      cases hf
    | some slot =>
      have ha : Addressed w message source header slot := ⟨hd, hf⟩
      simp only [Net.finishes_bind, Net.finishes_get]
      split
      · exact handleReset_obeys ha ‹_›
      · rename_i hr
        exact advance_obeys ha (by simpa using hr) hm (hv slot)

/-- A host that knows the way to the sender does what the table of transitions says, and nothing else. -/
theorem handle_follows_table (fuel : Nat) (message : Bytes) (hv : w.Valid)
    (hm : w.hop? source = some mac) : ∃ w',
      Tcp.handle (Poller.ofFuel fuel) message source w = .ok ((), w') ∧
        Obeys mac message source w w' := by
  have hp : (Poller.ofFuel fuel : Poller δ).Evolving := Poller.evolving_ofFuel fuel
  obtain ⟨⟨⟩, w', hrun, ho⟩ := (handle_obeys hv hm).exists_eq_ok
    (handle_ensures hp message source hv).ne_fault
  exact ⟨w', hrun, ho⟩

namespace Tcp

def callHeader : Header := ⟨5000, 80, 100, 0, minHeader, { syn := true }, window, 0⟩

def call : Bytes := callHeader.segment [] peer.ip Interface.default.ip

def awaiting : World Link.Script :=
  (World.start ⟨[], 0, [], []⟩ ⟨0, 500, []⟩ Interface.default).after 4
    [.arpLearn peer.ip peer.mac, .tcpOpen, .tcpBind 0 80, .tcpListen 0]

end Tcp

theorem handle_follows_table_call : Reachable awaiting ∧
    awaiting.hop? peer.ip = some peer.mac ∧
    awaiting.host.tcp.demux? 80 peer.ip 5000 = some 0 ∧
    Row.for? (socketAt 0 awaiting).state callHeader.flags [] =
      some ⟨.listen, { syn := true }, false, .accept, .synReceived⟩ ∧
    ∃ w', Tcp.handle (Poller.ofFuel 0) call peer.ip awaiting = .ok ((), w') ∧
      Obeys peer.mac call peer.ip awaiting w' := by
  have hw : Reachable awaiting := .after (.start ..) 4 _
  have hm : awaiting.hop? peer.ip = some peer.mac := by decide +kernel
  exact ⟨hw, hm, by decide +kernel, by decide +kernel,
    handle_follows_table 0 call hw.valid hm⟩

end InetHost
