import InetHost.Proofs.Host.Homing
import InetHost.Proofs.Host.Termination
import InetHost.Proofs.Tcp.Unread

/-! A host that connects to itself. Three segments go over the line, one in answer to the other, all in
one poll; then both ends are established, and each expects the number that the other one sends next. -/

namespace InetHost

open Tcp Link

variable {w : World Loopback} {line : Line} {p : Poller Loopback} {e : Bool} {header : Header}
  {data : Bytes}

section Demultiplexing

theorem World.Shows.demux_connection (h : w.Shows line) (hu : (line.ends e).inUse = true)
    (hs : (line.ends e).state ≠ .listen) (hip : (line.ends e).remoteIp = line.own) :
    w.host.tcp.demux? (line.ends e).localPort line.own (line.ends e).remotePort =
      some (line.slots e) := by
  have hat : w.host.tcp.get (line.slots e) = line.ends e := h.ends e
  have hfound : w.host.tcp.connection? (line.ends e).localPort line.own
      (line.ends e).remotePort = some (line.slots e) := by
    cases hc : w.host.tcp.connection? (line.ends e).localPort line.own
        (line.ends e).remotePort with
    | none =>
      have hmiss := Slots.first?_eq_none_iff.1 hc (line.slots e)
      simp [hat, hu, hs, hip] at hmiss
    | some i =>
      have hhit := Slots.of_first?_eq_some hc
      simp only [Bool.and_eq_true, decide_eq_true_eq] at hhit
      rw [h.alone i e hhit.1.1.1.1 hhit.1.1.1.2]
  rw [Sockets.demux?, hfound]
  rfl

theorem World.Shows.demux_listener (h : w.Shows line) (hu : (line.ends e).inUse = true)
    (hs : (line.ends e).state = .listen) (ip : Ipv4.Address) (port : UInt16) :
    w.host.tcp.demux? (line.ends e).localPort ip port = some (line.slots e) := by
  have hat : w.host.tcp.get (line.slots e) = line.ends e := h.ends e
  have hnone : w.host.tcp.connection? (line.ends e).localPort ip port = none := by
    apply Slots.first?_eq_none_iff.2
    intro i
    by_contra hhit
    simp only [Bool.not_eq_false, Bool.and_eq_true, decide_eq_true_eq] at hhit
    obtain ⟨⟨⟨⟨hi, hport⟩, hstate⟩, -⟩, -⟩ := hhit
    rw [h.alone i e hi hport, hat] at hstate
    exact hstate hs
  have hfound : w.host.tcp.listener? (line.ends e).localPort = some (line.slots e) := by
    cases hc : w.host.tcp.listener? (line.ends e).localPort with
    | none =>
      have hmiss := Slots.first?_eq_none_iff.1 hc (line.slots e)
      simp [hat, hu, hs] at hmiss
    | some i =>
      have hhit := Slots.of_first?_eq_some hc
      simp only [Bool.and_eq_true, decide_eq_true_eq] at hhit
      rw [h.alone i e hhit.1.1 hhit.1.2]
  rw [Sockets.demux?, hnone, hfound]
  rfl

theorem Tcp.handle_segment (h : w.Shows line) (hr : header.flags.rst = false)
    (hd : w.host.tcp.demux? header.dest line.own header.source = some (line.slots e))
    {Q : Unit → World Loopback → Prop}
    (hh : ∀ checksum, Net.Finishes (advance p (line.slots e) (line.ends e).state
      { header with dataOffset := minHeader, checksum } (header.segment data line.own line.own)
      line.own) w Q) :
    Net.Finishes (handle p (header.segment data line.own line.own) line.own) w Q := by
  rw [handle, Net.finishes_bind, Net.finishes_check_of_eq (Header.parse_eq_ok _), Header.segment,
    Header.decode?_fields]
  dsimp only
  rw [Net.finishes_bind, Net.finishes_get, hd]
  dsimp only
  rw [Net.finishes_bind, Net.finishes_get, h.ends, hr, if_neg Bool.false_ne_true]
  exact hh _

end Demultiplexing

section Stages

def Tcp.Socket.asked (s : Socket) (own : Ipv4.Address) (header : Header) : Socket :=
  { s with
    state := .synReceived, remoteIp := own, remotePort := header.source, ack := header.seq + 1 }

def Tcp.Socket.agreed (s : Socket) (header : Header) : Socket :=
  { s with state := .established, ack := header.seq + 1 }

theorem Tcp.sendAck_known (h : w.Shows line) (hk : line.known = true)
    (hip : (line.ends e).remoteIp = line.own) :
    Net.Finishes (sendAck p (line.slots e)) w fun _ w' => ∃ result,
      line.Posted (.segment ((line.ends e).header { ack := true }) []) result w' := by
  rw [sendAck, Net.finishes_bind, Attempt.finishes_run]
  refine (sendSegment_known h hk hip (Nat.zero_le _)).mono fun result w' hw => ?_
  obtain ⟨hroom, rfl, hw⟩ | ⟨hfull, ⟨cause, rfl⟩, hw⟩ := hw
  · exact ⟨.ok (), .inl ⟨hroom, rfl, hw⟩⟩
  · exact ⟨.error cause, .inr ⟨hfull, ⟨cause, rfl⟩, hw.record fun _ => rfl⟩⟩

theorem Tcp.handle_syn (h : w.Shows line) (hk : line.known = true) (hl : line.letters = [])
    (hu : (line.ends e).inUse = true) (hs : (line.ends e).state = .listen)
    (hd : header.dest = (line.ends e).localPort) (hf : header.flags = { syn := true }) :
    let s := (line.ends e).asked line.own header
    Net.Finishes (handle p (header.segment data line.own line.own) line.own) w fun _ w' =>
      w'.Shows (((line.put e s).post (.segment (s.header { syn := true, ack := true }) [])).put e
        { s with seq := s.seq + 1 }) := by
  intro s
  have hasked : (setState (line.slots e) .synReceived (updateSocket (line.slots e) (fun s =>
      { s with remoteIp := line.own, remotePort := header.source, ack := header.seq + 1 })
      w)).Shows (line.put e s) := by
    have hupdated : (updateSocket (line.slots e) (fun s =>
        { s with remoteIp := line.own, remotePort := header.source, ack := header.seq + 1 })
        w).Shows _ := h.updateSocket rfl rfl
    have hset := hupdated.setState e .synReceived
    rwa [Line.put_put, Line.ends_put_self] at hset
  have hip : ((line.put e s).ends e).remoteIp = (line.put e s).own := by
    rw [Line.ends_put_self]
    rfl
  have hsend : Attempt.Finishes (sendSegment p (line.slots e) { syn := true, ack := true } []) _
      fun result w' => (line.put e s).Posted
        (.segment (((line.put e s).ends e).header { syn := true, ack := true }) []) result w' :=
    sendSegment_known hasked hk hip (Nat.zero_le _)
  rw [Line.ends_put_self] at hsend
  apply handle_segment h (by rw [hf]) (hd ▸ h.demux_listener hu hs _ _)
  intro checksum
  rw [hs, advance]
  dsimp only
  rw [hf, if_pos rfl, acceptConnection, Net.finishes_bind, Net.finishes_modify, Net.finishes_bind,
    Net.finishes_modify, Net.finishes_bind, Attempt.finishes_run]
  refine hsend.mono fun result w' hw => ?_
  obtain ⟨-, rfl, hw⟩ | ⟨hfull, -, -⟩ := hw
  · have hadvanced := hw.advanceSeq e 1
    rwa [Line.ends_post, Line.ends_put_self] at hadvanced
  · exact absurd (hl ▸ hfull : 16 ≤ ([] : List Letter).length) (by decide)

theorem Tcp.handle_synAck (h : w.Shows line) (hk : line.known = true) (hl : line.letters = [])
    (hu : (line.ends e).inUse = true) (hs : (line.ends e).state = .synSent)
    (hip : (line.ends e).remoteIp = line.own) (hd : header.dest = (line.ends e).localPort)
    (hport : header.source = (line.ends e).remotePort)
    (hf : header.flags = { syn := true, ack := true }) :
    let s := (line.ends e).agreed header
    Net.Finishes (handle p (header.segment data line.own line.own) line.own) w fun _ w' =>
      w'.Shows ((line.put e s).post (.segment (s.header { ack := true }) [])) := by
  intro s
  have hagreed : (setState (line.slots e) .established
      (setAck (line.slots e) (header.seq + 1) w)).Shows (line.put e s) := by
    have hset := (h.setAck e (header.seq + 1)).setState e .established
    rwa [Line.put_put, Line.ends_put_self] at hset
  have hself : ((line.put e s).ends e).remoteIp = (line.put e s).own := by
    rw [Line.ends_put_self]
    exact hip
  have hack : Net.Finishes (sendAck p (line.slots e)) _ fun _ w' => ∃ result,
      (line.put e s).Posted (.segment (((line.put e s).ends e).header { ack := true }) [])
        result w' := sendAck_known hagreed hk hself
  rw [Line.ends_put_self] at hack
  apply handle_segment h (by rw [hf])
  · rw [hd, hport]
    exact h.demux_connection hu (by simp [hs]) hip
  · intro checksum
    rw [hs, advance]
    dsimp only
    rw [hf, if_pos ⟨rfl, rfl⟩, Net.finishes_bind, Net.finishes_modify, Net.finishes_bind,
      Net.finishes_modify]
    refine hack.mono fun _ w' hw => ?_
    obtain ⟨result, ⟨-, -, hw⟩ | ⟨hfull, -, -⟩⟩ := hw
    · exact hw
    · exact absurd (hl ▸ hfull : 16 ≤ ([] : List Letter).length) (by decide)

theorem Tcp.handle_ack (h : w.Shows line) (hu : (line.ends e).inUse = true)
    (hs : (line.ends e).state = .synReceived) (hip : (line.ends e).remoteIp = line.own)
    (hd : header.dest = (line.ends e).localPort) (hport : header.source = (line.ends e).remotePort)
    (hf : header.flags = { ack := true }) :
    Net.Finishes (handle p (header.segment data line.own line.own) line.own) w fun _ w' =>
      w'.Shows (line.put e { line.ends e with state := .established }) := by
  apply handle_segment h (by rw [hf])
  · rw [hd, hport]
    exact h.demux_connection hu (by simp [hs]) hip
  · intro checksum
    rw [hs, advance]
    dsimp only
    rw [hf, if_pos rfl]
    exact h.setState e .established

structure Line.Dialed (line : Line) : Prop where
  inUse (e : Bool) : (line.ends e).inUse = true
  caller : (line.ends true).state = .synSent
  listener : (line.ends false).state = .listen
  remoteIp : (line.ends true).remoteIp = line.own
  remotePort : (line.ends true).remotePort = (line.ends false).localPort

structure Line.Calling (line : Line) (header : Header) : Prop extends line.Dialed where
  known : line.known = true
  letters : line.letters = [.segment header []]
  source : header.source = (line.ends true).localPort
  dest : header.dest = (line.ends false).localPort
  flags : header.flags = { syn := true }
  seq : header.seq + 1 = (line.ends true).seq

theorem Line.Dialed.calling (h : line.Dialed) (hl : line.letters = []) (clock : Clock) :
    let header := (line.ends true).header { syn := true }
    (((line.informed clock).post (.segment header [])).put true
      { line.ends true with seq := (line.ends true).seq + 1 }).Calling header := by
  intro header
  refine ⟨⟨fun e => ?_, h.caller, h.listener, h.remoteIp, h.remotePort⟩, rfl, ?_, rfl,
    h.remotePort, rfl, rfl⟩
  · cases e with
    | true => exact h.inUse true
    | false => exact h.inUse false
  · change line.letters ++ _ = _
    rw [hl]
    rfl

theorem Line.Calling.later (h : line.Calling header) (clock : Clock) :
    (line.later clock).Calling header :=
  ⟨⟨h.inUse, h.caller, h.listener, h.remoteIp, h.remotePort⟩, h.known, h.letters, h.source, h.dest,
    h.flags, h.seq⟩

def Line.joinedBy (line : Line) (header : Header) : Line :=
  let asked := (line.ends false).asked line.own header
  { line with
    letters := []
    ends := fun e =>
      if e then (line.ends true).agreed (asked.header { syn := true, ack := true })
      else { asked with state := .established, seq := asked.seq + 1 } }

theorem Tcp.poll_handshake (hp : p.Drains) (h : w.Shows line) (hc : line.Calling header) :
    Net.Finishes p.poll w fun _ w' => w'.Shows (line.joinedBy header) := by
  obtain ⟨inner, hpoll⟩ := hp.poll_eq
  rw [hpoll]
  -- Each of the three segments is the only one under way when it is read.
  refine Net.drain_of_letter h hc.letters fun frame w₁ hb h₁ => Net.handleFrame_segment h₁ hb ?_
  refine (handle_syn h₁ hc.known rfl (hc.inUse false) hc.listener hc.dest hc.flags).mono
    fun _ w₂ h₂ => ?_
  refine Net.drain_of_letter h₂ rfl fun frame w₃ hb h₃ => Net.handleFrame_segment h₃ hb ?_
  refine (handle_synAck (e := true) h₃ hc.known rfl (hc.inUse true) hc.caller hc.remoteIp hc.source
    hc.remotePort.symm rfl).mono fun _ w₄ h₄ => ?_
  refine Net.drain_of_letter h₄ rfl fun frame w₅ hb h₅ => Net.handleFrame_segment h₅ hb ?_
  refine (handle_ack (e := false) h₅ (hc.inUse false) rfl rfl hc.remotePort hc.source.symm
    rfl).mono fun _ w₆ h₆ => ?_
  apply Net.drain_of_silent h₆ rfl
  refine Eq.mp (congrArg w₆.Shows ?_) h₆
  apply Line.ext
  · rfl
  · rfl
  · rfl
  · funext e
    cases e <;> rfl
  · rfl
  · rfl
  · rfl

end Stages

/-- Both ends are established, and each is the peer of the other. -/
structure Line.Joined (line : Line) : Prop where
  known : line.known = true
  inUse (e : Bool) : (line.ends e).inUse = true
  established (e : Bool) : (line.ends e).state = .established
  remoteIp (e : Bool) : (line.ends e).remoteIp = line.own
  remotePort (e : Bool) : (line.ends e).remotePort = (line.ends !e).localPort
  valid (e : Bool) : (line.ends e).buffer.Valid

def Line.Mirrored (line : Line) : Prop := ∀ e, (line.ends e).seq = (line.ends !e).ack

theorem Line.Calling.joined (h : line.Calling header)
    (hv : ∀ e, (line.ends e).buffer.Valid) : (line.joinedBy header).Joined where
  known := h.known
  inUse e := by
    cases e with
    | true => exact h.inUse true
    | false => exact h.inUse false
  established e := by cases e <;> rfl
  remoteIp e := by
    cases e with
    | true => exact h.remoteIp
    | false => rfl
  remotePort e := by
    cases e with
    | true => exact h.remotePort
    | false => exact h.source
  valid e := by
    cases e with
    | true => exact hv true
    | false => exact hv false

theorem Line.Calling.mirrored (h : line.Calling header) : (line.joinedBy header).Mirrored := by
  intro e
  cases e with
  | true => exact h.seq.symm
  | false => rfl

section Connecting

variable {caller listener : Slot} {port : UInt16}

def Tcp.dialPort {δ : Type} (slot : Slot) (w : World δ) : UInt16 :=
  if (socketAt slot w).localPort = 0 then ephemeralPort w.host.tcp.nextSeq
  else (socketAt slot w).localPort

/-- A closed and a listening socket on a loopback device with nothing under way. -/
structure World.ReadyToConnect (w : World Loopback) (caller listener : Slot) (port : UInt16) :
    Prop where
  idle : w.device.pending = 0
  clock : w.clock.Ample 6
  caller_inUse : (socketAt caller w).inUse = true
  caller_closed : (socketAt caller w).state = .closed
  caller_unread : unread caller w = []
  listener_inUse : (socketAt listener w).inUse = true
  listening : (socketAt listener w).state = .listen
  listener_port : (socketAt listener w).localPort = port
  listener_unread : unread listener w = []
  port_ne : dialPort caller w ≠ port
  alone (i : Slot) : i ≠ caller → i ≠ listener → (socketAt i w).inUse = true →
    (socketAt i w).localPort ≠ port ∧ (socketAt i w).localPort ≠ dialPort caller w

def Tcp.pair (caller listener : Slot) (e : Bool) : Slot := if e then caller else listener

def World.lineOf (w : World Loopback) (slots : Bool → Slot) : Line where
  own := w.host.interface.ip
  known := (w.host.arp.lookup? w.host.interface.ip).isSome
  slots := slots
  ends e := socketAt (slots e) w
  letters := []
  lost e := overflows (slots e) w
  clock := w.clock

theorem Tcp.device_setState {δ : Type} (slot : Slot) (next : State) (w : World δ) :
    (setState slot next w).device = w.device := by
  by_cases h : (socketAt slot w).state = next
  · rw [setState_of_eq h]
  · rw [setState_of_ne h]
    rfl

theorem Tcp.clock_setState {δ : Type} (slot : Slot) (next : State) (w : World δ) :
    (setState slot next w).clock = w.clock := by
  by_cases h : (socketAt slot w).state = next
  · rw [setState_of_eq h]
  · rw [setState_of_ne h]
    rfl

theorem Tcp.device_dial {δ : Type} (slot : Slot) (ip : Ipv4.Address) (port : UInt16)
    (w : World δ) : (dial slot ip port w).device = w.device := device_setState ..

theorem Tcp.clock_dial {δ : Type} (slot : Slot) (ip : Ipv4.Address) (port : UInt16)
    (w : World δ) : (dial slot ip port w).clock = w.clock := clock_setState ..

theorem Tcp.interface_dial {δ : Type} (slot : Slot) (ip : Ipv4.Address) (port : UInt16)
    (w : World δ) : (dial slot ip port w).host.interface = w.host.interface :=
  interface_setState ..

theorem World.ReadyToConnect.caller_ne (h : w.ReadyToConnect caller listener port) :
    caller ≠ listener := by
  rintro rfl
  have hstate := h.listening
  rw [h.caller_closed] at hstate
  cases hstate

theorem World.ReadyToConnect.shows (h : w.ReadyToConnect caller listener port) :
    (dial caller w.host.interface.ip port w).Shows
      ((dial caller w.host.interface.ip port w).lineOf (pair caller listener)) := by
  let own := w.host.interface.ip
  have hne := h.caller_ne
  have hcaller : (socketAt caller (dial caller own port w)).localPort = dialPort caller w := by
    rw [socketAt_dial, if_pos rfl]
    rfl
  have hother {i : Slot} (hi : caller ≠ i) : socketAt i (dial caller own port w) = socketAt i w :=
    socketAt_dial_of_ne hi
  have hlistener : (socketAt listener (dial caller own port w)).localPort = port := by
    rw [hother hne, h.listener_port]
  have hqueue : (dial caller own port w).device.queue = [] := by
    rw [device_dial]
    exact Loopback.queue_of_count_eq_zero h.idle
  refine ⟨rfl, rfl, hne, fun _ => rfl, fun i e hu hp => ?_, ?_, Nat.zero_le _, fun _ => rfl, rfl⟩
  · by_cases hi : caller = i
    · subst hi
      cases e with
      | true => rfl
      | false => exact absurd (hcaller.symm.trans (hp.trans hlistener)) h.port_ne
    · rw [hother hi] at hu hp
      by_cases hi' : listener = i
      · subst hi'
        cases e with
        | true => exact absurd (h.listener_port.symm.trans (hp.trans hcaller)) h.port_ne.symm
        | false => rfl
      · obtain ⟨hport, hdial⟩ := h.alone i (Ne.symm hi) (Ne.symm hi') hu
        cases e with
        | true => exact absurd (hp.trans hcaller) hdial
        | false => exact absurd (hp.trans hlistener) hport
  · rw [hqueue]
    exact .nil

theorem Tcp.call_posted (hp : p.Drains) (h : w.Shows line) (hd : line.Dialed)
    (hl : line.letters = []) (ha : line.clock.Ample (2 + 4)) :
    Attempt.Finishes (sendSegment p (line.slots true) { syn := true } []) w fun result w' =>
      result = .ok () ∧ ∃ clock : Clock, clock.Ample 2 ∧ w'.Shows ((line.informed clock).post
        (.segment ((line.ends true).header { syn := true }) [])) := by
  have hway := Arp.resolve_own hp h hl ha
  refine (sendSegment_of_resolve h hd.remoteIp (Nat.zero_le _) hway).mono fun result w' hw => ?_
  obtain ⟨clock, hample, ⟨-, rfl, hw⟩ | ⟨hfull, -, -⟩⟩ := hw
  · exact ⟨rfl, clock, hample, hw⟩
  · exact absurd (hl ▸ hfull : 16 ≤ ([] : List Letter).length) (by decide)

theorem Tcp.await_handshake (hp : p.Drains) (h : w.Shows line) (hc : line.Calling header)
    (ha : line.clock.Ample 2) :
    Net.Finishes (Net.waitUntil p Timeouts.connect
      fun host => (host.tcp.get (line.slots true)).state ≠ .synSent) w fun met w' =>
        met = true ∧ w'.Shows ((line.later line.clock.read.2.read.2).joinedBy header) := by
  have hample : w.clock.Ample 2 := h.clock ▸ ha
  have hsent : (w.host.tcp.get (line.slots true)).state = .synSent := by
    rw [← hc.caller, ← h.ends]
    rfl
  have hread : w.readClock.2.readClock.2.Shows (line.later line.clock.read.2.read.2) :=
    h.readClock.readClock
  refine Net.waitUntil_once hp.rounds_ge (by decide) hample (by simp [hsent]) ?_
  refine (poll_handshake hp hread (hc.later _)).mono fun _ w' hw => ⟨?_, hw⟩
  have hend : w'.host.tcp.get (line.slots true) = _ := hw.ends true
  rw [hend]
  rfl

theorem World.ReadyToConnect.dialed (h : w.ReadyToConnect caller listener port) :
    ((dial caller w.host.interface.ip port w).lineOf (pair caller listener)).Dialed := by
  let own := w.host.interface.ip
  have hcaller : socketAt caller (dial caller own port w) = _ :=
    (socketAt_dial caller caller own port w).trans (if_pos rfl)
  have hlistener : socketAt listener (dial caller own port w) = socketAt listener w :=
    socketAt_dial_of_ne h.caller_ne
  have hown : (dial caller own port w).host.interface.ip = own :=
    congrArg Interface.ip (interface_dial ..)
  refine ⟨fun e => ?_, ?_, ?_, ?_, ?_⟩
  · cases e with
    | true => exact (congrArg Socket.inUse hcaller).trans h.caller_inUse
    | false => exact (congrArg Socket.inUse hlistener).trans h.listener_inUse
  · exact congrArg Socket.state hcaller
  · exact (congrArg Socket.state hlistener).trans h.listening
  · exact (congrArg Socket.remoteIp hcaller).trans hown.symm
  · exact (congrArg Socket.remotePort hcaller).trans
      ((congrArg Socket.localPort hlistener).trans h.listener_port).symm

theorem World.ReadyToConnect.unread_dial (h : w.ReadyToConnect caller listener port) (e : Bool) :
    unread (pair caller listener e) (dial caller w.host.interface.ip port w) = [] := by
  cases e with
  | true =>
    refine Eq.trans ?_ h.caller_unread
    rw [unread, pair, if_pos rfl, socketAt_dial, if_pos rfl]
    rfl
  | false =>
    refine Eq.trans ?_ h.listener_unread
    rw [unread, pair, if_neg Bool.false_ne_true, socketAt_dial_of_ne h.caller_ne]
    rfl

theorem Tcp.settle_established (h : w.Shows line) (he : (line.ends e).state = .established)
    (settled : Bool) (ip : Ipv4.Address) (port : UInt16) :
    Attempt.Finishes (settle (line.slots e) settled ip port) w fun result w' =>
      result = .ok () ∧ w'.Shows line := by
  rw [settle, Attempt.finishes_bind, Attempt.finishes_get]
  dsimp only
  rw [h.ends, he, if_pos (.inl rfl)]
  exact ⟨rfl, h.record fun _ => rfl⟩

/-- A host connects to a socket of its own that listens. -/
theorem Tcp.connect_joins (hp : p.Drains) (hv : w.Valid)
    (h : w.ReadyToConnect caller listener port) :
    Attempt.Finishes (connect p caller w.host.interface.ip port) w fun result w' =>
      result = .ok () ∧ ∃ line : Line, w'.Shows line ∧ line.Joined ∧ line.Mirrored ∧
        line.letters = [] ∧ line.slots = pair caller listener ∧
        ∀ e, (line.ends e).buffer.toList = [] := by
  let own := w.host.interface.ip
  let dialed := dial caller own port w
  have hslot : w.host.tcp.slot caller = .ok caller := Sockets.slot_eq_ok h.caller_inUse
  have hclock : dialed.clock = w.clock := clock_dial caller own port w
  have hample : dialed.clock.Ample (2 + 4) := hclock.symm ▸ h.clock
  have hposted := call_posted hp h.shows h.dialed rfl hample
  rw [connect, Attempt.finishes_bind, Attempt.finishes_of_run_eq (run_slot caller w), hslot]
  dsimp only
  rw [Attempt.finishes_bind, Attempt.finishes_get]
  dsimp only
  rw [Attempt.finishes_bind, Attempt.finishes_get]
  dsimp only
  rw [if_neg (not_not_intro h.caller_closed), Attempt.finishes_bind, Attempt.finishes_modify]
  dsimp only
  rw [Attempt.finishes_bind, Attempt.finishes_modify]
  dsimp only
  rw [Attempt.finishes_bind, Attempt.finishes_outcome]
  refine Attempt.Finishes.mono (w := dialed) hposted fun result w₁ h₁ => ?_
  obtain ⟨rfl, clock, hearly, h₁⟩ := h₁
  have hcalling := h.dialed.calling rfl clock
  have hadvanced := h₁.advanceSeq true 1
  have hawaited := await_handshake hp hadvanced hcalling hearly
  dsimp only
  rw [Attempt.finishes_bind, Attempt.finishes_modify]
  dsimp only
  rw [Attempt.finishes_bind, Attempt.finishes_lift]
  refine Net.Finishes.mono hawaited fun met w₂ h₂ => ?_
  obtain ⟨rfl, h₂⟩ := h₂
  have hlater := hcalling.later clock.read.2.read.2
  have hvalid : (dial caller own port w).Valid := hv.dial own port
  have hjoined : Line.Joined _ := hlater.joined fun e => by
    cases e with
    | true => exact hvalid caller
    | false => exact hvalid listener
  refine (settle_established h₂ (hjoined.established true) true own port).mono fun result w₃ h₃ => ?_
  refine ⟨h₃.1, _, h₃.2, hjoined, hlater.mirrored, rfl, rfl, fun e => ?_⟩
  have hunread := h.unread_dial e
  cases e with
  | true => exact hunread
  | false => exact hunread

end Connecting

end InetHost
