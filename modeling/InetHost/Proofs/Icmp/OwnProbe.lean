import InetHost.Proofs.Host.Homing
import InetHost.Proofs.Icmp.Answers
import InetHost.Proofs.Icmp.Probes

/-! A host that probes itself over the loopback device. Whatever it sends comes back to it: its question for
its own address, should it not know that, and the answer; then its request, and the reply. A frame and its
answer are read in the same poll, so that no wait goes beyond its first turn, and the time that the probe
takes is told by three readings of the clock. -/

namespace InetHost

open Net Link

variable {w w₁ w' : World Loopback} {frame : Bytes}

namespace World

def Holds (w : World Loopback) (frame : Bytes) : Prop := w.device.queue = [.ok frame]

def taken (w : World Loopback) : World Loopback := (w.takeFrame Ethernet.maxFrame).2

theorem host_taken (w : World Loopback) : w.taken.host = w.host := host_takeFrame _ w

theorem clock_taken (w : World Loopback) : w.taken.clock = w.clock := clock_takeFrame _ w

theorem pending_eq_zero_iff : w.device.pending = 0 ↔ w.device.queue = [] := by
  rw [← List.length_eq_zero_iff, Loopback.length_queue]
  rfl

theorem exists_handOver (hd : w.device.pending = 0) (hl : frame.length ≤ Ethernet.maxFrame) :
    ∃ w', w.handOver frame = (.ok (), w') ∧ w'.Holds frame ∧ w'.host = w.host ∧
      w'.clock = w.clock := by
  have hroom : w.device.count < Loopback.capacity := by
    have hcount : w.device.count = 0 := hd
    rw [hcount]
    decide
  obtain ⟨hr, -, hq⟩ := Loopback.queue_transmit (d := w.device) hl hroom
  rw [pending_eq_zero_iff.1 hd] at hq
  exact ⟨_, Prod.ext hr rfl, hq, host_handOver frame w, clock_handOver frame w⟩

namespace Holds

theorem readClock (h : w.Holds frame) : w.readClock.2.Holds frame := h

theorem remarks (h : w.Holds frame) (hr : w.Remarks w') : w'.Holds frame := by
  rw [Holds, hr.device_eq]
  exact h

theorem takeFrame (h : w.Holds frame) :
    w.takeFrame Ethernet.maxFrame = (.ok frame, w.taken) ∧ w.taken.device.pending = 0 := by
  obtain ⟨hr, -, hq⟩ := Loopback.queue_receive h
  exact ⟨Prod.ext hr rfl, pending_eq_zero_iff.2 hq⟩

end Holds

end World

namespace Net

theorem drain_holding {handle : Bytes → Net Loopback Unit} {budget count : Nat} (h : w.Holds frame)
    (hne : frame ≠ []) (hh : handle frame w.taken = .ok ((), w₁))
    (hrest : drain handle budget w₁ = .ok (count, w')) :
    drain handle (budget + 1) w = .ok (count + 1, w') := by
  have htake : (modifyGet (World.takeFrame Ethernet.maxFrame) :
      Net Loopback (Except NetError Bytes)) w = .ok (.ok frame, w.taken) :=
    congrArg Except.ok h.takeFrame.1
  rw [drain, bind_of_eq_ok htake]
  cases frame with
  | nil => exact absurd rfl hne
  | cons b frame =>
    dsimp only
    rw [bind_of_eq_ok hh, bind_of_eq_ok hrest]
    rfl

theorem drain_exchange {inner : Poller Loopback} {asking answer : Bytes} (h : w.Holds asking)
    (hne : asking ≠ []) (hne' : answer ≠ [])
    (hask : handleFrame inner asking w.taken = .ok ((), w₁)) (h₁ : w₁.Holds answer)
    (hanswer : handleFrame inner answer w₁.taken = .ok ((), w')) (hd : w'.device.pending = 0) :
    drain (handleFrame inner) pollBudget w = .ok (2, w') :=
  drain_holding h hne hask (drain_holding h₁ hne' hanswer (drain_of_pending_eq_zero hd))

end Net

namespace Arp

theorem drain_question (inner : Poller Loopback) {asked : Packet} {dest source : Mac}
    (h : w.Holds (wire dest source asked)) (ha : asked.AsksFor w.host) : ∃ w',
      drain (handleFrame inner) pollBudget w = .ok (2, w') ∧ w'.device.pending = 0 ∧
      w'.host.interface = w.host.interface ∧
      w'.host.arp.lookup? w.host.interface.ip = some w.host.interface.mac ∧
      w'.clock = w.clock.read.2.read.2 := by
  let own := w.host.interface
  let answer := Packet.reply own.mac own.ip asked
  have hidle : (note asked w.taken).device.pending = 0 := h.takeFrame.2
  have hasks : asked.AsksFor w.taken.host := by rwa [World.host_taken]
  obtain ⟨w₂, hsent, h₂, hhost, hclock⟩ := World.exists_handOver hidle
    (length_wire_le asked.senderMac own.mac answer)
  obtain ⟨w₁, hasked, hremarks⟩ := handleFrame_wire_remarks (p := inner) hasks dest source
  have hremarks : w₂.Remarks w₁ := by rwa [World.host_taken, hsent] at hremarks
  -- The answer asks for nobody, so that nothing follows it.
  have hanswer : ¬answer.AsksFor w₁.taken.host := fun hr => nomatch hr.1
  have h₁ : w₁.Holds (wire asked.senderMac own.mac answer) := h₂.remarks hremarks
  refine ⟨note answer w₁.taken, drain_exchange h (List.cons_ne_nil _ _) (List.cons_ne_nil _ _) hasked
    h₁ (handleFrame_wire_of_not_asksFor hanswer ..) h₁.takeFrame.2, h₁.takeFrame.2, ?_,
    lookup?_note answer w₁.taken, ?_⟩
  · rw [interface_note, World.host_taken, hremarks.host_eq, hhost, interface_note, World.host_taken]
  · rw [clock_note, World.clock_taken, hremarks.clock_eq, hclock, clock_note, World.clock_taken]

theorem await_self {p : Poller Loopback} (hp : p.Drains) {own : Interface}
    (hown : w.host.interface = own) (h : w.Holds (question own own.ip))
    (hn : knows own.ip w.host = false) (ha : w.clock.Ample 2) : ∃ w',
      (await p own.ip Timeouts.resolve).run w = .ok (.ok own.mac, w') ∧
      w'.device.pending = 0 ∧ w'.host.interface = own ∧
      w'.host.arp.lookup? own.ip = some own.mac ∧
      w'.clock = w.clock.read.2.read.2.read.2.read.2 := by
  subst hown
  let own := w.host.interface
  have hasks : (Packet.request own.mac own.ip own.ip).AsksFor w.host := ⟨rfl, rfl⟩
  obtain ⟨inner, hpoll⟩ := hp.poll_eq
  obtain ⟨w', hdrained, hidle, hown, hknown, hclock⟩ :=
    drain_question inner h.readClock.readClock hasks
  have hmet : waitUntil p Timeouts.resolve (knows own.ip) w = .ok (true, w') :=
    waitUntil_of_poll hp.rounds_ge (by decide) ha hn (hpoll ▸ hdrained)
      (Option.isSome_of_eq_some hknown)
  refine ⟨w', ?_, hidle, hown, hknown, hclock⟩
  have hmac : w'.host.arp.lookup? own.ip = some own.mac := hknown
  rw [await, Attempt.run_bind_of_eq_ok (Attempt.run_lift_of_eq_ok hmet),
    Attempt.run_bind_of_eq_ok (Attempt.run_get w'), hmac]
  rfl

theorem resolve_self {p : Poller Loopback} (hp : p.Drains) (hd : w.device.pending = 0)
    (ha : w.clock.Ample 2) : ∃ mac w',
      (resolve p w.host.interface.ip Timeouts.resolve).run w = .ok (.ok mac, w') ∧
      w'.device.pending = 0 ∧ w'.host.interface = w.host.interface ∧
      w'.hop? w.host.interface.ip = some mac ∧
      (w'.clock = w.clock ∨ w'.clock = w.clock.read.2.read.2.read.2.read.2) := by
  let own := w.host.interface
  cases hc : w.hop? own.ip with
  | some mac =>
    exact ⟨mac, w, Attempt.run_eq_of_ensures fun _ => resolve_known hc, hd, rfl, hc, .inl rfl⟩
  | none =>
    let noted := w.record (.arpRequested own.ip own.ip)
    obtain ⟨waiting, hsent, hholds, hhost, hclock⟩ := World.exists_handOver (w := noted) hd
      (length_wire_le Mac.broadcast own.mac (Packet.request own.mac own.ip own.ip))
    have hrequest : (request own.ip).run w = .ok (.ok (), waiting) :=
      (run_request own.ip w).trans (congrArg Except.ok hsent)
    have hown : waiting.host.interface = own := congrArg Host.interface hhost
    have hunknown : knows own.ip waiting.host = false := by
      rw [World.hop?, own.nextHop_self] at hc
      rw [hhost]
      exact knows_eq_false_iff.2 hc
    obtain ⟨w', hawait, hidle, hown', hknown, hclock'⟩ :=
      await_self hp hown hholds hunknown (hclock ▸ ha)
    rw [hclock] at hclock'
    refine ⟨own.mac, w', ?_, hidle, hown', ?_, .inr hclock'⟩
    · rw [run_resolve_of_unknown hc, own.nextHop_self, Attempt.run_bind_of_eq_ok hrequest, hawait]
    · rw [World.hop?, hown', own.nextHop_self]
      exact hknown

end Arp

namespace Icmp

theorem exists_asked (hd : w.device.pending = 0) (mac : Mac) (dest : Ipv4.Address)
    (sequence : UInt16) : ∃ w', asked mac dest sequence w = (.ok (), w') ∧
      w'.Holds (Ipv4.wire w.host.interface mac dest .icmp (sequence % 256)
        (echoRequest sequence w.readClock.1.toUInt32)) ∧
      w'.host = { w.host with lastReply := none } ∧ w'.clock = w.clock.read.2 := by
  let asking := w.readClock.2.update fun h => { h with lastReply := none }
  have hfits : (echoRequest sequence w.readClock.1.toUInt32).length ≤ Ipv4.maxPayload :=
    Nat.le_of_ble_eq_true rfl
  obtain ⟨w', hsent, hholds, hhost, hclock⟩ :=
    World.exists_handOver (w := asking) hd (Ipv4.length_wire_le hfits)
  exact ⟨w', hsent, hholds, hhost, hclock⟩

theorem handleFrame_own_request {p : Poller Loopback} {own : Interface} {mac mac' : Mac}
    {id sequence : UInt16} {time : UInt32} {reply : Bytes} (hown : w.host.interface = own)
    (hop : w.hop? own.ip = some mac) (hd : w.device.pending = 0)
    (hr : echoReply (echoRequest sequence time) = .ok reply) : ∃ w',
      handleFrame p (Ipv4.wire own mac' own.ip .icmp id (echoRequest sequence time)) w =
        .ok ((), w') ∧
      w'.Holds (Ipv4.wire own mac own.ip .icmp w.host.nextPacketId reply) ∧
      w'.clock = w.clock := by
  subst hown
  let own := w.host.interface
  let request := echoRequest sequence time
  have hl : request.length ≤ maxReply := Nat.le_of_ble_eq_true rfl
  have hl' : request.length ≤ Ipv4.maxPayload := Nat.le_of_ble_eq_true rfl
  have hshort : reply.length ≤ Ipv4.maxPayload := length_of_echoReply hl hr
  have hread : handleFrame p (Ipv4.wire own mac' own.ip .icmp id request) w =
      handle p request own.ip w := handleFrame_bare_wire rfl hl'
  obtain ⟨_, hrequest⟩ := exists_decode?_echoRequest sequence time
  obtain ⟨w', hsend, hremarks⟩ := sendReply_known (p := p) hop hl hr
  obtain ⟨w₁, hsent, h₁, -, hclock⟩ :=
    World.exists_handOver (w := (Ipv4.takeId w).2) hd (Ipv4.length_wire_le hshort)
  have hremarks : w₁.Remarks w' := by rwa [World.dispatch, hsent] at hremarks
  refine ⟨w', ?_, h₁.remarks hremarks, hremarks.clock_eq.trans hclock⟩
  rw [hread, handle_request hrequest rfl rfl, hsend]

theorem drain_request (fuel : Nat) {mac mac' : Mac} {id sequence : UInt16} {time : UInt32}
    (h : w.Holds (Ipv4.wire w.host.interface mac' w.host.interface.ip .icmp id
      (echoRequest sequence time)))
    (hop : w.hop? w.host.interface.ip = some mac) : ∃ reply w₁ w',
      drain (handleFrame (Poller.ofFuel fuel)) pollBudget w = .ok (2, w') ∧ w.Acts w₁ ∧
      echoReply (echoRequest sequence time) = .ok reply ∧
      (∀ q, handle q reply w.host.interface.ip w₁ = .ok ((), w')) ∧ w₁.clock = w.clock ∧
      w'.device.pending = 0 ∧
      w'.host.lastReply = some ⟨sequence, w₁.readClock.1.toUInt32 - time⟩ := by
  let own := w.host.interface
  obtain ⟨reply, checksum, hreply, hdecoded, htime⟩ := exists_echoReply_of_echoRequest sequence time
  have hshort : reply.length ≤ Ipv4.maxPayload :=
    length_of_echoReply (Nat.le_of_ble_eq_true rfl) hreply
  have hown : w.taken.host.interface = own := by rw [World.host_taken]
  have hhop : w.taken.hop? own.ip = some mac := by rwa [World.hop?, World.host_taken]
  obtain ⟨w₁, hasked, h₁, hclock⟩ :=
    handleFrame_own_request (p := Poller.ofFuel fuel) hown hhop h.takeFrame.2 hreply
  have hacts : w.Acts w₁.taken := by
    have hheeded : w.Acts w₁ := handleFrame_heeding (poll_acting fuel) _ hasked
    exact hheeded.tail (.takeFrame w₁ _)
  let header : Header := ⟨MessageType.echoReply.number, 0, checksum, identifier, sequence⟩
  let w' := noteReply header (some time) own.ip w₁.taken
  have hhandle (q : Poller Loopback) : handle q reply own.ip w₁.taken = .ok ((), w') :=
    handle_reply hdecoded rfl rfl htime
  have hread (p : Poller Loopback) (id : UInt16) :
      handleFrame p (Ipv4.wire own mac own.ip .icmp id reply) w₁.taken = .ok ((), w') :=
    (handleFrame_bare_wire (congrArg Interface.ip hacts.interface_eq.symm) hshort).trans (hhandle p)
  refine ⟨reply, w₁.taken, w', drain_exchange h Ipv4.wire_ne_nil Ipv4.wire_ne_nil hasked h₁
    (hread _ _) h₁.takeFrame.2, hacts, hreply, hhandle, ?_, h₁.takeFrame.2, ?_⟩
  · rw [World.clock_taken, hclock, World.clock_taken]
  · exact congrArg Host.lastReply (host_noteReply ..)

theorem await_self {fuel : Nat} (hf : 2 ≤ fuel) {own : Interface} {mac mac' : Mac}
    {id sequence : UInt16} {time : UInt32} (hown : w.host.interface = own)
    (h : w.Holds (Ipv4.wire own mac' own.ip .icmp id (echoRequest sequence time)))
    (hop : w.hop? own.ip = some mac) (hn : w.host.lastReply = none) (ha : w.clock.Ample 2) :
    ∃ reply w₁ w',
      (await (Poller.ofFuel fuel) sequence).run w =
        .ok (.ok (w₁.readClock.1.toUInt32 - time), w') ∧ w.Acts w₁ ∧
      echoReply (echoRequest sequence time) = .ok reply ∧
      (∀ q, handle q reply own.ip w₁ = .ok ((), w')) ∧
      w₁.clock = w.clock.read.2.read.2 ∧ w'.device.pending = 0 := by
  subst hown
  obtain ⟨fuel, rfl⟩ := Nat.exists_eq_add_of_le' hf
  obtain ⟨reply, w₁, w', hdrained, hacts, hreply, hhandle, hclock, hidle, hlast⟩ :=
    drain_request (fuel + 1) h.readClock.readClock hop
  have hwaiting : answered sequence w.host = false := by
    rw [answered, hn]
    rfl
  have hanswered : answered sequence w'.host = true := by
    rw [answered, hlast]
    exact decide_eq_true rfl
  have hmet : waitUntil (Poller.ofFuel (fuel + 2)) Timeouts.ping (answered sequence) w =
      .ok (true, w') := waitUntil_of_poll hf (by decide) ha hwaiting hdrained hanswered
  have hbefore : w.Acts w.readClock.2.readClock.2 :=
    (Relation.ReflTransGen.single (.readClock w)).tail (.readClock _)
  refine ⟨reply, w₁, w', ?_, hbefore.trans hacts, hreply, hhandle, hclock, hidle⟩
  rw [await, Attempt.run_bind_of_eq_ok (Attempt.run_lift_of_eq_ok hmet),
    Attempt.run_bind_of_eq_ok (Attempt.run_get w'), hlast, Option.filter_some,
    if_pos (decide_eq_true rfl)]
  rfl

/-- The clock is read three times from the request of a host that knows itself to the reply. -/
theorem probe_self {fuel : Nat} (hf : 2 ≤ fuel) {own : Interface} {mac : Mac} (sequence : UInt16)
    (hd : w.device.pending = 0) (hown : w.host.interface = own) (hop : w.hop? own.ip = some mac)
    (ha : w.clock.Ample 3) : ∃ w₁ reply w₂ w',
      asked mac own.ip sequence w = (.ok (), w₁) ∧
      (await (Poller.ofFuel fuel) sequence).run w₁ =
        .ok (.ok (w₂.readClock.1.toUInt32 - w.readClock.1.toUInt32), w') ∧ w₁.Acts w₂ ∧
      echoReply (echoRequest sequence w.readClock.1.toUInt32) = .ok reply ∧
      (∀ q, handle q reply own.ip w₂ = .ok ((), w')) ∧
      w₂.clock = w.clock.read.2.read.2.read.2 ∧ w'.device.pending = 0 := by
  obtain ⟨w₁, hasked, hholds, hhost, hclock⟩ := exists_asked hd mac own.ip sequence
  have hown₁ : w₁.host.interface = own := by
    rw [hhost]
    exact hown
  have hhop₁ : w₁.hop? own.ip = some mac := by
    rw [World.hop?, hhost]
    exact hop
  rw [hown] at hholds
  obtain ⟨reply, w₂, w', hawait, hacts, hreply, hhandle, hclock', hidle⟩ :=
    await_self hf hown₁ hholds hhop₁ (by rw [hhost]) (hclock ▸ ha.read.1)
  rw [hclock] at hclock'
  exact ⟨w₁, reply, w₂, w', hasked, hawait, hacts, hreply, hhandle, hclock', hidle⟩

end Icmp

open Icmp in
/-- A host with nothing under way on a loopback device always gets an answer from itself. -/
theorem own_probe_answered (w : World Loopback) (hd : w.device.pending = 0)
    (hs : w.clock.Steady 500) (hn : w.clock.now.toNat < 2 ^ 64 - 2 ^ 14) (sequence : UInt16)
    {fuel : Nat} (hf : 2 ≤ fuel) :
    let own := w.host.interface.ip
    let p : Poller Loopback := Poller.ofFuel fuel
    ∃ mac w₁ w₂ reply w₃ rtt w',
      (Ipv4.nextHopMac p own).run w = .ok (.ok mac, w₁) ∧
      asked mac own sequence w₁ = (.ok (), w₂) ∧ w₂.Acts w₃ ∧
      echoReply (echoRequest sequence w₁.readClock.1.toUInt32) = .ok reply ∧
      (∀ q, handle q reply own w₃ = .ok ((), w')) ∧
      (ping p own sequence).run w = .ok (.ok rtt, w') ∧
      rtt.toNat + w₁.readClock.1.toNat = w₃.readClock.1.toNat ∧
      (w.clock.paces = [] → rtt.toNat = 3 * w.clock.step.toNat) ∧
      w'.device.pending = 0 := by
  intro own p
  have hample : w.clock.Ample 8 := ⟨hs, by omega⟩
  have hp : p.Drains := Poller.drains_ofFuel hf
  obtain ⟨mac, w₁, hresolved, hidle, hown, hhop, hclock⟩ :=
    Arp.resolve_self hp hd (hample.mono (by decide))
  have hfound : (Ipv4.nextHopMac p own).run w = .ok (.ok mac, w₁) := by
    rw [Ipv4.run_nextHopMac, Net.bind_of_eq_ok hresolved]
    rfl
  have hample₁ : w₁.clock.Ample 4 := by
    rcases hclock with hclock | hclock
    · rw [hclock]
      exact hample.mono (by decide)
    · rw [hclock]
      exact hample.read.1.read.1.read.1.read.1
  obtain ⟨w₂, reply, w₃, w', hasked, hawait, hacts, hreply, hhandle, hclock₃, hidle'⟩ :=
    probe_self hf sequence hidle hown hhop (hample₁.mono (by decide))
  have htime : w₁.readClock.1 = w₁.clock.now := Clock.fst_read _
  have htime' : w₃.readClock.1 = w₁.clock.read.2.read.2.read.2.now := by
    rw [← hclock₃]
    exact Clock.fst_read _
  obtain ⟨helapsed, hthrice⟩ := hample₁.elapsed
  rw [← htime, ← htime'] at helapsed hthrice
  refine ⟨mac, w₁, w₂, reply, w₃, _, w', hfound, hasked, hacts, hreply, hhandle,
    (run_ping hfound hasked).trans hawait, helapsed, fun hpaces => hthrice _ ?_, hidle'⟩
  have hregular : w.clock.Regular w.clock.step := ⟨hpaces, rfl⟩
  rcases hclock with hclock | hclock
  · rwa [hclock]
  · rw [hclock]
    exact hregular.read.read.read.read

def World.lateStart : World Loopback :=
  .start Loopback.empty ⟨4294964101, 499, []⟩ Interface.default

open Icmp in
theorem own_probe_answered_wrapped : let w := World.lateStart
    w.hop? w.host.interface.ip = none ∧
    ∃ (w₁ w₃ : World Loopback) (rtt : UInt32) (w' : World Loopback),
      (ping (Poller.ofFuel 2) w.host.interface.ip 65535).run w = .ok (.ok rtt, w') ∧
      w₁.readClock.1.toNat = 2 ^ 32 - 700 ∧ w₃.readClock.1.toNat = 2 ^ 32 + 797 ∧
      rtt.toNat = 1497 ∧ w'.device.pending = 0 := by
  intro w
  have hunknown : w.hop? w.host.interface.ip = none := by decide +kernel
  have hsteady : w.clock.Steady 500 := .of_step (by decide) (by decide)
  obtain ⟨mac, w₁, w₂, reply, w₃, rtt, w', hfound, -, -, -, -, hping, hrtt, hthrice, hidle⟩ :=
    own_probe_answered w rfl hsteady (by decide) 65535 (Nat.le_refl 2)
  have hasked : ((Ipv4.nextHopMac (Poller.ofFuel 2) w.host.interface.ip).run w).map
      (fun r => r.2.readClock.1.toNat) = .ok (2 ^ 32 - 700) := by decide +kernel
  have htime : w₁.readClock.1.toNat = 2 ^ 32 - 700 := by
    rw [hfound] at hasked
    exact Except.ok.inj hasked
  have hlong : rtt.toNat = 1497 := hthrice rfl
  exact ⟨hunknown, w₁, w₃, rtt, w', hping, htime, by omega, hlong, hidle⟩

end InetHost
