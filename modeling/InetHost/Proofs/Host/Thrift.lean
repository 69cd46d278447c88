import InetHost.Proofs.Host.Credits

/-! What waiting and sending cost. A wait costs its timeout and three readings of the clock, however
much the polls inside it handle: what they handle has been paid for before. Sending costs the frame
and what it has at stake, and two credits and the time of a wait if the way must be asked for. -/

namespace InetHost

open World

variable {δ : Type} [Link.Device δ]

/-- A poller that pays its way, if no more than `limit` credits are about. -/
structure Poller.Thrifty (ration : Link.Ration δ) (limit : Nat) (p : Poller δ) : Prop where
  rounds_ge : 1002 ≤ p.rounds
  poll {b : Budget} {credits ms : Nat} {w : World δ} :
    b.credits ≤ limit → w.Funded ration b credits ms →
    Net.Finishes p.poll w fun _ w' => w'.Funded ration b credits ms

variable {ration : Link.Ration δ} {limit : Nat} {p : Poller δ} {b : Budget} {r s : Nat}
  {w : World δ}

theorem Poller.Thrifty.poll_now (hp : p.Thrifty ration limit) (hb : b.credits ≤ limit)
    (h : w.Funded ration b r s) : Net.Finishes p.poll w fun _ w' =>
      w'.Funded ration b r s ∧ w.clock.now.toNat ≤ w'.clock.now.toNat := by
  -- The same run, with the present for its origin.
  let here : Budget := { b with origin := w.clock }
  have hcredits : here.credits ≤ limit := hb
  have hhere : w.Funded ration here r s := ⟨h.steady, .refl, h.covered⟩
  refine ((hp.poll hb h).and (hp.poll hcredits hhere)).mono fun _ w' hw => ?_
  exact ⟨hw.1, hw.2.ticks.le⟩

section Waiting

def Net.remaining (deadline : UInt64) (pace : Nat) (w : World δ) : Nat :=
  max (deadline.toNat + 2 * pace - w.clock.now.toNat) pace

theorem Net.waitRounds_finishes (hp : p.Thrifty ration limit) (hb : b.credits ≤ limit)
    (deadline : UInt64) (done : Host → Bool) (rounds : Nat)
    (h : w.Funded ration b r (s + remaining deadline b.pace w))
    (hr : deadline.toNat - w.clock.now.toNat + 1 ≤ rounds) :
    Finishes (waitRounds p.poll deadline done rounds) w fun _ w' => w'.Funded ration b r s := by
  induction rounds generalizing w with
  | zero => omega
  | succ rounds ih =>
    simp only [waitRounds, finishes_bind, finishes_get]
    split
    · exact h.mono (Nat.le_refl _) (Nat.le_add_right _ _)
    · have hlt := h.pace_lt
      have hpos := h.pace_pos
      have hneed : w.clock.pace.toNat ≤ remaining deadline b.pace w := by
        unfold remaining
        omega
      have hready : w.Funded ration b r
          (s + (remaining deadline b.pace w - w.clock.pace.toNat) + w.clock.pace.toNat) :=
        h.mono (Nat.le_refl _) (by omega)
      obtain ⟨hread, hnow⟩ := hready.readClock_pace
      simp only [finishes_bind, finishes_modifyGet]
      split
      · exact hread.mono (Nat.le_refl _) (Nat.le_add_right _ _)
      · rename_i htime
        have hbefore : w.clock.now.toNat < deadline.toNat := by
          have hfst : w.readClock.1 = w.clock.now := Clock.fst_read _
          rw [hfst, UInt64.le_iff_toNat_le] at htime
          omega
        rw [finishes_bind]
        refine (hp.poll_now hb hread).mono fun _ w₁ h₁ => ?_
        obtain ⟨hfunded, hlater⟩ := h₁
        rw [hnow] at hlater
        apply ih
        · apply hfunded.mono (Nat.le_refl _)
          unfold remaining
          omega
        · omega

theorem Net.waitUntil_finishes (hp : p.Thrifty ration limit) (hb : b.credits ≤ limit)
    (timeout : UInt64) (done : Host → Bool) (hr : timeout.toNat + 2 ≤ p.rounds)
    (h : w.Funded ration b r (s + (timeout.toNat + 3 * b.pace))) :
    Finishes (waitUntil p timeout done) w fun _ w' => w'.Funded ration b r s := by
  have hlt := h.pace_lt
  have hpos := h.pace_pos
  have hready : w.Funded ration b r
      (s + (timeout.toNat + 3 * b.pace - w.clock.pace.toNat) + w.clock.pace.toNat) :=
    h.mono (Nat.le_refl _) (by omega)
  obtain ⟨hread, hnow⟩ := hready.readClock_pace
  have hdeadline : (Clock.deadline w.readClock.1 timeout).toNat ≤
      w.clock.now.toNat + timeout.toNat := by
    have hfst : w.readClock.1 = w.clock.now := Clock.fst_read _
    rw [hfst, Clock.toNat_deadline]
    exact Nat.min_le_left _ _
  simp only [waitUntil, finishes_bind, finishes_modifyGet]
  apply waitRounds_finishes hp hb
  · apply hread.mono (Nat.le_refl _)
    unfold remaining
    omega
  · omega

end Waiting

section Resolution

open Arp

theorem Arp.request_finishes (target : Ipv4.Address) (h : w.Funded ration b (r + 2) s) :
    Attempt.Finishes (request target) w fun _ w' => w'.Funded ration b r s := by
  refine Net.finishes_of_eq_ok (run_request target w) (Funded.handOver ?_)
  rw [Link.cost, Ethernet.stake_arpWire]
  exact h.record _

theorem Arp.sendReply_finishes (asked : Packet) (h : w.Funded ration b (r + 1) s) :
    Attempt.Finishes (sendReply asked) w fun _ w' => w'.Funded ration b r s := by
  refine Net.finishes_of_eq_ok (run_sendReply asked w) (Funded.handOver ?_)
  rw [Link.cost, Ethernet.stake_arpWire]
  exact h

theorem Arp.resolve_finishes (hp : p.Thrifty ration limit) (hb : b.credits ≤ limit)
    (ip : Ipv4.Address) (timeout : UInt64) (hr : timeout.toNat + 2 ≤ p.rounds)
    (h : w.Funded ration b (r + 2) (s + (timeout.toNat + 3 * b.pace))) :
    Attempt.Finishes (resolve p ip timeout) w fun _ w' => w'.Funded ration b r s := by
  simp only [resolve, Attempt.finishes_bind, Attempt.finishes_get]
  split
  · exact h.drop
  · rw [Attempt.finishes_bind]
    refine (request_finishes _ h).mono fun result w₁ h₁ => ?_
    cases result with
    | error e => exact h₁.mono (Nat.le_refl _) (Nat.le_add_right _ _)
    | ok _ =>
      simp only [Attempt.finishes_bind, Attempt.finishes_lift]
      refine (Net.waitUntil_finishes hp hb timeout _ hr h₁).mono fun _ w₂ h₂ => ?_
      simp only [Attempt.finishes_get]
      split
      · exact h₂
      · exact h₂.record _

theorem Arp.resolve_finishes_of_le (hp : p.Thrifty ration limit) (hb : b.credits ≤ limit)
    (ip : Ipv4.Address) {timeout : UInt64} (ht : timeout.toNat ≤ 1000)
    (h : w.Funded ration b (r + 2) (s + b.span)) :
    Attempt.Finishes (resolve p ip timeout) w fun _ w' => w'.Funded ration b r s := by
  have hrounds := hp.rounds_ge
  apply resolve_finishes hp hb ip timeout (by omega)
  apply h.mono (Nat.le_refl _)
  unfold Budget.span
  omega

end Resolution

section Packets

open Ipv4

variable {dest : Address} {protocol : Protocol} {payload : Bytes}

theorem Ipv4.transmit_finishes (mac : Mac) (dest : Address) (protocol : Protocol) (id : UInt16)
    {stake : Nat} (hl : payload.length ≤ maxPayload) (hs : protocol.stake payload ≤ stake)
    (h : w.Funded ration b (r + (1 + stake)) s) :
    Attempt.Finishes (transmit mac dest protocol id payload) w
      fun _ w' => w'.Funded ration b r s := by
  refine (Attempt.finishes_iff_of_ensures fun Q => transmit_ensures mac dest protocol id hl).2 ?_
  refine Funded.handOver (h.mono ?_ (Nat.le_refl _))
  rw [Link.cost, Ethernet.stake_ipv4Wire _ _ _ _ _ hl]
  omega

theorem Ipv4.send_finishes (hp : p.Thrifty ration limit) (hb : b.credits ≤ limit)
    (dest : Address) (protocol : Protocol) {stake : Nat} (hs : protocol.stake payload ≤ stake)
    (h : w.Funded ration b (r + (3 + stake)) (s + b.span)) :
    Attempt.Finishes (send p dest protocol payload) w fun _ w' => w'.Funded ration b r s := by
  rw [send]
  split
  · exact h.drop
  · rename_i hl
    have hl : payload.length ≤ maxPayload := Nat.le_of_not_lt hl
    have hask : w.Funded ration b (r + (1 + stake) + 2) (s + b.span) :=
      h.mono (by omega) (Nat.le_refl _)
    rw [Attempt.finishes_bind, nextHopMac, Attempt.finishes_adapt]
    refine (Arp.resolve_finishes_of_le hp hb dest (by decide) hask).mono fun result w₁ h₁ => ?_
    cases result with
    | error e => exact h₁.mono (Nat.le_add_right _ _) (Nat.le_refl _)
    | ok mac =>
      dsimp only [Attempt.mapError_ok]
      rw [Attempt.finishes_bind, Attempt.finishes_modifyGet]
      apply transmit_finishes mac dest protocol _ hl hs
      exact h₁.of_tcp_eq rfl rfl rfl

end Packets

end InetHost
