import InetHost.Proofs.Arp.Exchange
import InetHost.Proofs.Host.Termination
import InetHost.Proofs.Host.Waiting

/-! How an address is resolved. A known one is found at once. For an unknown one a single request goes out,
and the host then waits until the cache has it or the time is over; what the cache says at the end of the
wait is what the caller is told. -/

namespace InetHost

open Net

variable {δ : Type} {w w' : World δ} {p : Poller δ} {ip target : Ipv4.Address} {timeout : UInt64}
  {result : Except NetError Mac}

namespace Arp

def question (own : Interface) (target : Ipv4.Address) : Bytes :=
  wire Mac.broadcast own.mac (Packet.request own.mac own.ip target)

def knows (target : Ipv4.Address) (h : Host) : Bool := (h.arp.lookup? target).isSome

theorem knows_eq_false_iff {h : Host} : knows target h = false ↔ h.arp.lookup? target = none :=
  Option.isSome_eq_false_iff.trans Option.isNone_iff_eq_none

def await (p : Poller δ) (target : Ipv4.Address) (timeout : UInt64) : Attempt δ Mac := do
  let _ ← waitUntil p timeout (knows target)
  match (← get).host.arp.lookup? target with
  | some mac => return mac
  | none => do
    modify (World.record (.arpUnanswered target))
    throw .timeout

/-- The turns of the wait for an answer, from the first reading of the clock on. -/
abbrev Awaits (p : Poller δ) (target : Ipv4.Address) (timeout : UInt64) (w w' : World δ) : Prop :=
  Turns p.poll (Clock.deadline w.clock.now timeout) (knows target) w.readClock.2 w'

/-- The last reading of the clock has reached the deadline, and only a line in the log follows. -/
def Expired (p : Poller δ) (target : Ipv4.Address) (timeout : UInt64) (w w' : World δ) : Prop :=
  ∃ w₁, Awaits p target timeout w w₁ ∧
    Clock.deadline w.clock.now timeout ≤ w₁.clock.now ∧
    w' = w₁.readClock.2.record (.arpUnanswered target)

inductive Answered (p : Poller δ) (target : Ipv4.Address) (timeout : UInt64) (w : World δ) :
    Except NetError Mac → World δ → Prop
  | found {mac : Mac} {w' : World δ} : Awaits p target timeout w w' →
      w'.host.arp.lookup? target = some mac → Answered p target timeout w (.ok mac) w'
  | missing {w' : World δ} : Expired p target timeout w w' → w'.host.arp.lookup? target = none →
      Answered p target timeout w (.error .timeout) w'

theorem Answered.result_cases (h : Answered p target timeout w result w') :
    (∃ mac, result = .ok mac ∧ Awaits p target timeout w w') ∨ result = .error .timeout := by
  cases h with
  | found hturns _ => exact .inl ⟨_, rfl, hturns⟩
  | missing _ _ => exact .inr rfl

theorem Answered.result_iff (h : Answered p target timeout w result w') :
    (∀ mac, result = .ok mac ↔ w'.host.arp.lookup? target = some mac) ∧
      (result = .error .timeout ↔
        w'.host.arp.lookup? target = none ∧ Expired p target timeout w w') := by
  cases h with
  | found _ hmac => simp [hmac, eq_comm]
  | missing hexpired hnone => simp [hnone, hexpired]

variable [Link.Device δ]

def asked (target : Ipv4.Address) (w : World δ) : Except NetError Unit × World δ :=
  (w.record (.arpRequested target w.host.interface.ip)).handOver (question w.host.interface target)

theorem run_resolve_of_unknown (h : w.hop? ip = none) : (resolve p ip timeout).run w =
    (request (w.host.interface.nextHop ip) >>= fun _ =>
      await p (w.host.interface.nextHop ip) timeout).run w := by
  have hc : w.host.arp.lookup? (w.host.interface.nextHop ip) = none := h
  rw [resolve, Attempt.run_bind_of_eq_ok (Attempt.run_get w),
    Attempt.run_bind_of_eq_ok (Attempt.run_get w)]
  dsimp only [World.interface]
  rw [hc]
  rfl

theorem await_ensures (hp : p.Evolving) (hv : w.Valid) :
    Attempt.Ensures (await p target timeout) w (Answered p target timeout w) := by
  simp only [await, Attempt.ensures_bind, Attempt.ensures_lift, Attempt.ensures_get]
  refine (waitUntil_ensures hp timeout _ hv).and_run.mono fun met w₁ h => ?_
  obtain ⟨w₂, hturns, hends⟩ := exists_turns_of_waitUntil h.1
  cases hends with
  | met hdone =>
    obtain ⟨mac, hmac⟩ := Option.isSome_iff_exists.1 hdone
    rw [hmac]
    exact .found hturns hmac
  | late hdone hlate =>
    have hnone : w₂.readClock.2.host.arp.lookup? target = none := knows_eq_false_iff.1 hdone
    rw [hnone]
    exact .missing ⟨w₂, hturns, (Clock.fst_read w₂.clock) ▸ hlate, rfl⟩ hnone

theorem resolve_unknown {Q : Except NetError Mac → World δ → Prop}
    (h : w.host.arp.lookup? (w.host.interface.nextHop ip) = none) :
    Attempt.Ensures (resolve p ip timeout) w Q ↔
      match (asked (w.host.interface.nextHop ip) w).1 with
      | .ok _ => Attempt.Ensures (await p (w.host.interface.nextHop ip) timeout)
          (asked (w.host.interface.nextHop ip) w).2 Q
      | .error cause => Q (.error cause) (asked (w.host.interface.nextHop ip) w).2 := by
  have hrequest (target : Ipv4.Address) (Q : Except NetError Unit → World δ → Prop) :
      Attempt.Ensures (request target) w Q ↔ Q (asked target w).1 (asked target w).2 :=
    ensures_of_eq_ok (run_request target w)
  simp only [resolve, Attempt.ensures_bind, Attempt.ensures_get, World.interface]
  rw [h]
  show Attempt.Ensures (request _ >>= fun _ => await p _ timeout) w Q ↔ _
  rw [Attempt.ensures_bind, hrequest]
  cases (asked (w.host.interface.nextHop ip) w).1 with
  | ok _ => rfl
  | error cause => rfl

theorem run_resolve_of_refused {cause : NetError}
    (h : w.host.arp.lookup? (w.host.interface.nextHop ip) = none)
    (hrefused : (asked (w.host.interface.nextHop ip) w).1 = .error cause) :
    (resolve p ip timeout).run w =
      .ok (.error cause, (asked (w.host.interface.nextHop ip) w).2) := by
  refine Attempt.run_eq_of_ensures fun Q => (resolve_unknown h).trans ?_
  rw [hrefused]

theorem resolve_answered (hp : p.Evolving) (hv : w.Valid)
    (h : w.host.arp.lookup? (w.host.interface.nextHop ip) = none)
    (htaken : (asked (w.host.interface.nextHop ip) w).1 = .ok ()) :
    Attempt.Ensures (resolve p ip timeout) w
      (Answered p (w.host.interface.nextHop ip) timeout
        (asked (w.host.interface.nextHop ip) w).2) := by
  rw [resolve_unknown h, htaken]
  exact await_ensures hp hv

theorem exists_run_resolve {limit : Nat} (hw : Reachable w) (hl : limit < 2 ^ 28)
    (hd : Link.DeliversAtMost limit w.device) (hclock : w.clock.Steady (2 ^ 28))
    (hn : w.clock.now.toNat ≤ 2 ^ 63) (ip : Ipv4.Address) (ht : timeout.toNat < 2 ^ 28) :
    ∃ least, ∀ fuel ≥ least, ∃ result w',
      (resolve (Poller.ofFuel fuel) ip timeout).run w = .ok (result, w') := by
  have hends : Attempt.Ends (resolve · ip timeout) w :=
    Attempt.ends_of_perform hw (.arpResolve ip timeout) ht fun _ => rfl
  exact hends limit hl hd hclock hn

end Arp

open Arp

/-- A resolution asks at most once, and its result is what the cache has for the next hop in the end. -/
theorem resolve_concludes [Link.Device δ] (hw : Reachable w) (ip : Ipv4.Address)
    (timeout : UInt64) :
    let target := w.host.interface.nextHop ip
    let sent := Link.Device.transmit (question w.host.interface target) w.device
    (∀ mac fuel, w.host.arp.lookup? target = some mac →
      (resolve (Poller.ofFuel fuel) ip timeout).run w = .ok (.ok mac, w)) ∧
    (w.host.arp.lookup? target = none → ∃ w₁ : World δ,
      w₁.host = w.host ∧ w₁.clock = w.clock ∧ w₁.device = sent.2 ∧
      w₁.frames = w.frames ++ [question w.host.interface target] ∧
      (∀ cause fuel, sent.1 = .error cause →
        (resolve (Poller.ofFuel fuel) ip timeout).run w = .ok (.error cause, w₁)) ∧
      (sent.1 = .ok () →
        (∀ fuel fault,
          (resolve (Poller.ofFuel fuel) ip timeout).run w ≠ .error (.fault fault)) ∧
        (∀ limit < 2 ^ 28, Link.DeliversAtMost limit w.device → w.clock.Steady (2 ^ 28) →
          w.clock.now.toNat ≤ 2 ^ 63 → timeout.toNat < 2 ^ 28 →
          ∃ least, ∀ fuel ≥ least, ∃ result w',
            (resolve (Poller.ofFuel fuel) ip timeout).run w = .ok (result, w')) ∧
        ∀ fuel result w', (resolve (Poller.ofFuel fuel) ip timeout).run w = .ok (result, w') →
          ((∃ mac, result = .ok mac ∧ Awaits (Poller.ofFuel fuel) target timeout w₁ w') ∨
            result = .error .timeout) ∧
          (∀ mac, result = .ok mac ↔ w'.host.arp.lookup? target = some mac) ∧
          (result = .error .timeout ↔ w'.host.arp.lookup? target = none ∧
            Expired (Poller.ofFuel fuel) target timeout w₁ w'))) := by
  intro target sent
  refine ⟨fun mac fuel hmac => ?_, fun hnone => ⟨(asked target w).2, rfl, rfl, rfl, ?_, ?_, ?_⟩⟩
  · exact Attempt.run_eq_of_ensures fun Q => resolve_known hmac
  · rw [asked, World.frames_handOver, World.frames_record w rfl]
  · exact fun cause fuel hrefused => run_resolve_of_refused hnone hrefused
  · intro htaken
    have hanswered (fuel : Nat) : Attempt.Ensures (resolve (Poller.ofFuel fuel) ip timeout) w
        (Answered (Poller.ofFuel fuel) target timeout (asked target w).2) :=
      resolve_answered (Poller.evolving_ofFuel fuel) hw.valid hnone htaken
    refine ⟨fun fuel fault => (hanswered fuel).ne_fault fault, ?_, fun fuel result w' hr => ?_⟩
    · exact fun limit hl hd hclock hn ht => exists_run_resolve hw hl hd hclock hn ip ht
    · have h := Net.Ensures.of_ok (hanswered fuel) hr
      exact ⟨h.result_cases, h.result_iff⟩

def Arp.peerAnswer : Bytes :=
  let own := Interface.default
  wire own.mac Tcp.peer.mac (Packet.reply Tcp.peer.mac Tcp.peer.ip
    (Packet.request own.mac own.ip Tcp.peer.ip))

def Arp.inquiring : World Link.Script :=
  .start ⟨[], 0, [], [(0, [.frame peerAnswer])]⟩ ⟨0, 500, []⟩ Interface.default

theorem resolve_concludes_inquiring : Reachable inquiring ∧
    inquiring.host.arp.lookup? Tcp.peer.ip = none ∧
    ∃ fuel w', (resolve (Poller.ofFuel fuel) Tcp.peer.ip 1000).run inquiring =
      .ok (.ok Tcp.peer.mac, w') ∧ w'.host.arp.lookup? Tcp.peer.ip = some Tcp.peer.mac := by
  have hw : Reachable inquiring := .start ..
  have hnone : inquiring.host.arp.lookup? Tcp.peer.ip = none := by decide +kernel
  let w' := inquiring.after 4 [.arpResolve Tcp.peer.ip 1000]
  have hlearnt : w'.host.arp.lookup? Tcp.peer.ip = some Tcp.peer.mac := by decide +kernel
  have hruns : (Operation.arpResolve Tcp.peer.ip 1000).Runs inquiring w' :=
    Operation.runs_after (by decide +kernel)
  obtain ⟨fuel, hperform⟩ := hruns
  obtain ⟨result, hr⟩ := Operation.exists_run_of_attempt hperform
  obtain ⟨w₁, -, -, -, -, -, htaken⟩ := (resolve_concludes hw Tcp.peer.ip 1000).2 hnone
  obtain ⟨-, hfound, -⟩ := (htaken rfl).2.2 fuel result w' hr
  obtain rfl := (hfound Tcp.peer.mac).2 hlearnt
  exact ⟨hw, hnone, fuel, w', hr, hlearnt⟩

end InetHost
