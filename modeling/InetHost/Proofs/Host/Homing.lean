import InetHost.Proofs.Host.Admission
import InetHost.Proofs.Host.Line

/-! Sending to oneself. A host that does not know its own hardware address asks for it and is answered
by itself within one poll; after that nothing has to be waited for, and every letter is handled as its
protocol says. -/

namespace InetHost

open Tcp Link

section Waiting

variable {δ : Type} [Link.Device δ] {p : Poller δ} {w : World δ}

/-- A poller that is patient enough for one poll, which reads what has arrived. -/
structure Poller.Drains (p : Poller δ) : Prop where
  rounds_ge : 2 ≤ p.rounds
  poll_eq : ∃ inner, p.poll = Net.drain (Net.handleFrame inner) Net.pollBudget

theorem Poller.drains_ofFuel {fuel : Nat} (h : 2 ≤ fuel) : (ofFuel fuel : Poller δ).Drains := by
  refine ⟨h, ?_⟩
  obtain ⟨fuel, rfl⟩ := Nat.exists_eq_add_of_le' h
  exact ⟨ofFuel (fuel + 1), rfl⟩

omit [Device δ] in
theorem Net.waitUntil_once (hr : 2 ≤ p.rounds) {timeout : UInt64} (ht : 500 ≤ timeout.toNat)
    (ha : w.clock.Ample 2) {done : Host → Bool} {Q : World δ → Prop} (hd : done w.host = false)
    (hpoll : Finishes p.poll w.readClock.2.readClock.2
      fun _ w' => done w'.host = true ∧ Q w') :
    Finishes (waitUntil p timeout done) w fun met w' => met = true ∧ Q w' := by
  obtain ⟨rounds, hrounds⟩ := Nat.exists_eq_add_of_le' hr
  have hhost : done w.readClock.2.host = false := hd
  have hopen : ¬Clock.deadline w.readClock.1 timeout ≤ w.readClock.2.readClock.1 :=
    ha.not_deadline_le ht
  rw [waitUntil, finishes_bind, finishes_modifyGet, hrounds, waitRounds, finishes_bind,
    finishes_get, hhost, if_neg Bool.false_ne_true, finishes_bind, finishes_modifyGet,
    if_neg hopen, finishes_bind]
  refine hpoll.mono fun _ w' hw => ?_
  rw [waitRounds, finishes_bind, finishes_get, hw.1, if_pos rfl]
  exact ⟨rfl, hw.2⟩

end Waiting

theorem Interface.nextHop_self (i : Interface) : i.nextHop i.ip = i.ip := by
  simp [nextHop, Ipv4.Address.nextHop, Ipv4.Address.sameSubnet]

def Line.informed (line : Line) (clock : Clock) : Line := { line with known := true, clock }

def Line.later (line : Line) (clock : Clock) : Line := { line with clock }

theorem Line.informed_of_known {line : Line} (h : line.known = true) :
    line.informed line.clock = line := by
  unfold informed
  rw [← h]

variable {w : World Loopback} {line : Line} {p : Poller Loopback} {n : Nat}

section Resolution

open Arp

theorem Net.handleFrame_arpWire (dest source : Mac) (packet : Packet)
    {Q : Unit → World Loopback → Prop}
    (h : Finishes (Arp.handle (packet.encode ++ List.replicate 18 0)) w Q) :
    Finishes (handleFrame p (wire dest source packet)) w Q := by
  refine Finishes.congr ?_ (handleFrame_arp (Ethernet.decode?_arpWire dest source packet) rfl)
  rwa [drop_wire]

theorem World.Shows.arpLearned (h : w.Shows line) (mac : Mac) :
    ((Arp.learn line.own mac w).record (.arpLearned line.own mac)).Shows
      (line.informed line.clock.read.2) :=
  (h.learn mac).record fun _ => rfl

theorem Net.handleFrame_request (h : w.Shows line) (hl : line.letters = []) {asked : Packet}
    (hr : asked.isRequest = true) (ht : asked.targetIp = line.own) (hs : asked.senderIp = line.own)
    (dest source : Mac) : Finishes (handleFrame p (wire dest source asked)) w fun _ w' =>
      ∃ answer : Packet, answer.isRequest = false ∧ answer.senderIp = line.own ∧
        w'.Shows ((line.informed line.clock.read.2).post (.packet answer)) := by
  have hlearned := h.arpLearned asked.senderMac
  rw [← hs] at hlearned
  let answer : Packet := .reply w.host.interface.mac w.host.interface.ip asked
  have hborne : (Letter.packet answer).Borne line.own
      (.ok (wire asked.senderMac w.host.interface.mac answer)) := ⟨_, _, rfl⟩
  have hreply : Attempt.Finishes (sendReply asked)
      ((Arp.learn asked.senderIp asked.senderMac w).record
        (.arpLearned asked.senderIp asked.senderMac)) fun result w' =>
      result = .ok () ∧ w'.Shows ((line.informed line.clock.read.2).post (.packet answer)) := by
    refine Net.finishes_of_eq_ok (run_sendReply asked _) ?_
    obtain ⟨-, hsent, hposted⟩ | ⟨hfull, -, -⟩ := hlearned.handOver hborne
    · exact ⟨hsent, hposted⟩
    · rw [Line.informed, hl] at hfull
      exact absurd hfull (by decide)
  apply handleFrame_arpWire
  rw [Arp.handle, finishes_bind, finishes_check_of_eq (Packet.parse_eq_ok _), Packet.decode?_encode]
  simp only [finishes_bind, finishes_modify, finishes_get]
  rw [if_pos ⟨hr, ht.trans hlearned.own.symm⟩, finishes_bind, Attempt.finishes_run]
  refine hreply.mono fun result w' hw => ?_
  obtain ⟨rfl, hw⟩ := hw
  exact ⟨answer, rfl, h.own, hw⟩

theorem Net.handleFrame_answer (h : w.Shows line) {answer : Packet}
    (ha : answer.isRequest = false) (hs : answer.senderIp = line.own) (dest source : Mac) :
    Finishes (handleFrame p (wire dest source answer)) w
      fun _ w' => w'.Shows (line.informed line.clock.read.2) := by
  have hlearned := h.arpLearned answer.senderMac
  rw [← hs] at hlearned
  apply handleFrame_arpWire
  rw [Arp.handle, finishes_bind, finishes_check_of_eq (Packet.parse_eq_ok _), Packet.decode?_encode]
  simp only [finishes_bind, finishes_modify, finishes_get]
  rw [if_neg]
  · exact hlearned
  · rintro ⟨hrequest, -⟩
    exact absurd hrequest (by simp [ha])

theorem Arp.request_own (h : w.Shows line) (hl : line.letters = []) :
    Attempt.Finishes (request line.own) w fun result w' => result = .ok () ∧
      ∃ asked : Packet, asked.isRequest = true ∧ asked.targetIp = line.own ∧
        asked.senderIp = line.own ∧ w'.Shows (line.post (.packet asked)) := by
  let own := w.host.interface
  let asked := Packet.request own.mac own.ip line.own
  have hborne : (Letter.packet asked).Borne line.own (.ok (wire Mac.broadcast own.mac asked)) :=
    ⟨_, _, rfl⟩
  have hnoted : (w.record (.arpRequested line.own own.ip)).Shows line := h.record fun _ => rfl
  refine Net.finishes_of_eq_ok (run_request line.own w) ?_
  obtain ⟨-, hsent, hposted⟩ | ⟨hfull, -, -⟩ := hnoted.handOver hborne
  · exact ⟨hsent, asked, rfl, rfl, h.own, hposted⟩
  · rw [hl] at hfull
    exact absurd hfull (by decide)

theorem Net.poll_request (hp : p.Drains) (hl : line.letters = []) {asked : Packet}
    (hr : asked.isRequest = true) (ht : asked.targetIp = line.own) (hs : asked.senderIp = line.own)
    {clock : Clock} (h : w.Shows ((line.later clock).post (.packet asked))) :
    Finishes p.poll w fun _ w' => w'.Shows (line.informed clock.read.2.read.2) := by
  obtain ⟨inner, hpoll⟩ := hp.poll_eq
  have hsilent (clock : Clock) :
      { line with known := true, letters := [], clock } = line.informed clock := by
    rw [Line.informed, hl]
  have hfirst : ((line.later clock).post (.packet asked)).letters = [.packet asked] := by
    rw [Line.post, Line.later, hl]
    rfl
  rw [hpoll]
  refine drain_of_letter h hfirst fun frame w₁ hb h₁ => ?_
  obtain ⟨dest, source, hframe⟩ := hb
  obtain rfl := Except.ok.inj hframe
  refine (handleFrame_request h₁ rfl hr ht hs dest source).mono fun _ w₂ h₂ => ?_
  obtain ⟨answer, ha, hs', h₂⟩ := h₂
  refine drain_of_letter h₂ rfl fun frame w₃ hb h₃ => ?_
  obtain ⟨dest, source, hframe⟩ := hb
  obtain rfl := Except.ok.inj hframe
  refine (handleFrame_answer h₃ ha hs' dest source).mono fun _ w₄ h₄ => ?_
  apply drain_of_silent h₄ rfl
  rw [← hsilent]
  exact h₄

theorem Arp.resolve_own (hp : p.Drains) (h : w.Shows line) (hl : line.letters = [])
    (ha : line.clock.Ample (n + 4)) :
    Attempt.Finishes (resolve p line.own Timeouts.resolve) w fun result w' => ∃ mac clock,
      result = .ok mac ∧ clock.Ample n ∧ w'.Shows (line.informed clock) := by
  have hnext : w.interface.nextHop line.own = line.own := by
    rw [← h.own]
    exact w.interface.nextHop_self
  have hknown := h.known
  simp only [resolve, Attempt.finishes_bind, Attempt.finishes_get]
  rw [hnext]
  cases hc : w.host.arp.lookup? line.own with
  | some mac =>
    rw [hc] at hknown
    refine ⟨mac, line.clock, rfl, ha.mono (Nat.le_add_right _ _), ?_⟩
    rwa [Line.informed_of_known hknown.symm]
  | none =>
    rw [Attempt.finishes_bind]
    refine (request_own h hl).mono fun result w₁ h₁ => ?_
    obtain ⟨rfl, asked, hr, ht, hs, h₁⟩ := h₁
    dsimp only
    rw [Attempt.finishes_bind, Attempt.finishes_lift]
    have hread : w₁.readClock.2.readClock.2.Shows
        ((line.later line.clock.read.2.read.2).post (.packet asked)) := h₁.readClock.readClock
    have hasking : w₁.clock.Ample 2 := by
      rw [h₁.clock]
      exact ha.mono (by omega)
    have hunknown : (w₁.host.arp.lookup? line.own).isSome = false := by
      refine h₁.known.trans ?_
      change line.known = false
      rw [← hknown, hc]
      rfl
    have hpoll : Net.Finishes p.poll w₁.readClock.2.readClock.2 fun _ w₂ =>
        (w₂.host.arp.lookup? line.own).isSome = true ∧
          w₂.Shows (line.informed line.clock.read.2.read.2.read.2.read.2) :=
      (Net.poll_request hp hl hr ht hs hread).mono fun _ w₂ h₂ => ⟨h₂.known, h₂⟩
    refine (Net.waitUntil_once hp.rounds_ge (by decide) hasking hunknown hpoll).mono
      fun _ w₂ h₂ => ?_
    obtain ⟨-, h₂⟩ := h₂
    obtain ⟨mac, hmac⟩ := Option.isSome_iff_exists.1 h₂.known
    have hmac : w₂.host.arp.lookup? line.own = some mac := hmac
    dsimp only
    rw [Attempt.finishes_bind, Attempt.finishes_get]
    dsimp only
    rw [hmac]
    exact ⟨mac, _, rfl, ha.read.1.read.1.read.1.read.1, h₂⟩

end Resolution

section Segments

theorem World.Shows.takeId (h : w.Shows line) : (Ipv4.takeId w).2.Shows line :=
  ⟨h.own, h.known, h.apart, h.ends, h.alone, h.letters, h.room, h.lost, h.clock⟩

variable {e : Bool} {header : Header} {data : Bytes} {flags : Flags}

theorem Net.handleFrame_segment (h : w.Shows line) {frame : Bytes}
    (hb : (Letter.segment header data).Borne line.own (.ok frame))
    {Q : Unit → World Loopback → Prop}
    (hh : Finishes (Tcp.handle p (header.segment data line.own line.own) line.own) w Q) :
    Finishes (handleFrame p frame) w Q := by
  obtain ⟨hl, interface, mac, id, hi, hframe⟩ := hb
  obtain rfl := Except.ok.inj hframe
  let message := header.segment data line.own line.own
  have hread : handleFrame p (Ipv4.wire interface mac line.own .tcp id message) w =
      Tcp.handle p message interface.ip w :=
    handleFrame_bare_wire h.own.symm (header.length_segment_le hl _ _)
  rw [hi] at hread
  exact hh.congr hread

theorem Tcp.sendSegment_of_resolve {P : Clock → Prop} (h : w.Shows line)
    (hip : (line.ends e).remoteIp = line.own) (hd : data.length ≤ maxPayload)
    (hway : Attempt.Finishes (Arp.resolve p line.own Timeouts.resolve) w fun result w' =>
      ∃ mac clock, result = .ok mac ∧ P clock ∧ w'.Shows (line.informed clock)) :
    Attempt.Finishes (sendSegment p (line.slots e) flags data) w fun result w' => ∃ clock,
      P clock ∧ (line.informed clock).Posted (.segment ((line.ends e).header flags) data)
        result w' := by
  let header := (line.ends e).header flags
  have hsegment : (socketAt (line.slots e) w).segment w.interface.ip flags data =
      header.segment data line.own line.own := by
    have hown : w.interface.ip = line.own := h.own
    rw [h.ends, Socket.segment, hip, hown]
  have hl := header.length_segment_le hd line.own line.own
  rw [sendSegment, Attempt.finishes_bind, Attempt.finishes_get]
  dsimp only
  rw [hsegment, Attempt.finishes_bind, Attempt.finishes_check]
  intro message hm
  rw [Bytes.eq_of_within hm, h.ends, hip]
  dsimp only
  rw [Ipv4.send, if_neg (Nat.not_lt.2 hl),
    Attempt.finishes_bind, Ipv4.nextHopMac, Attempt.finishes_adapt]
  refine hway.mono fun result w₁ h₁ => ?_
  obtain ⟨mac, clock, rfl, hP, h₁⟩ := h₁
  dsimp only [Attempt.mapError_ok]
  rw [Attempt.finishes_bind, Attempt.finishes_modifyGet]
  have hborne : (Letter.segment header data).Borne line.own
      (.ok (Ipv4.wire (Ipv4.takeId w₁).2.host.interface mac line.own .tcp (Ipv4.takeId w₁).1
        (header.segment data line.own line.own))) :=
    ⟨hd, _, _, _, h₁.own, rfl⟩
  refine (Attempt.finishes_iff_of_ensures fun Q =>
    Ipv4.transmit_ensures mac line.own .tcp _ hl).2 ?_
  exact ⟨clock, hP, h₁.takeId.handOver hborne⟩

theorem Tcp.sendSegment_known (h : w.Shows line) (hk : line.known = true)
    (hip : (line.ends e).remoteIp = line.own) (hd : data.length ≤ maxPayload) :
    Attempt.Finishes (sendSegment p (line.slots e) flags data) w fun result w' =>
      line.Posted (.segment ((line.ends e).header flags) data) result w' := by
  have hnext : w.interface.nextHop line.own = line.own := by
    rw [← h.own]
    exact w.interface.nextHop_self
  have hsome : (w.host.arp.lookup? line.own).isSome = true := h.known.trans hk
  obtain ⟨mac, hmac⟩ := Option.isSome_iff_exists.1 hsome
  have hway : Attempt.Finishes (Arp.resolve p line.own Timeouts.resolve) w fun result w' =>
      ∃ mac clock, result = .ok mac ∧ clock = line.clock ∧ w'.Shows (line.informed clock) := by
    simp only [Arp.resolve, Attempt.finishes_bind, Attempt.finishes_get]
    rw [hnext, hmac]
    exact ⟨mac, line.clock, rfl, rfl, (Line.informed_of_known hk).symm ▸ h⟩
  refine (sendSegment_of_resolve h hip hd hway).mono fun result w' hw => ?_
  obtain ⟨clock, rfl, hposted⟩ := hw
  rwa [Line.informed_of_known hk] at hposted

end Segments

end InetHost
