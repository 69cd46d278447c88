import InetHost.Proofs.Host.Handling
import InetHost.Proofs.Host.Operation
import InetHost.Proofs.Link.Queue

/-! Polling comes to rest on the loopback device. Each poll that finds the queue filled spends a credit
of those that the queue and the listening sockets hold, and none is made; so the queue is empty in the
end, and polling an empty queue does nothing. -/

namespace InetHost

open Link World

variable {b : Budget} {r s fuel : Nat} {w : World Loopback}

theorem World.Funded.takeQueued (h : w.Funded Loopback.ration b r s) (hd : w.device.count ≠ 0) :
    1 ≤ b.credits ∧
      (w.takeFrame Ethernet.maxFrame).2.Funded Loopback.ration b.less r s := by
  obtain ⟨held, ⟨hcount, hdues⟩, hn, ht⟩ := h.covered
  obtain ⟨hless, hpaid⟩ := Loopback.dues_receive hd
  have hone := Loopback.one_le_due (Loopback.receive Ethernet.maxFrame w.device).1
  have hl : (w.takeFrame Ethernet.maxFrame).2.listeners = w.listeners := rfl
  have hc : (w.takeFrame Ethernet.maxFrame).2.clock = w.clock := rfl
  have hcredits : b.less.credits = b.credits - 1 := rfl
  refine ⟨by omega, h.steady, h.ticks, held - 1, ⟨?_, ?_⟩, ?_, ?_⟩
  · change (Loopback.receive Ethernet.maxFrame w.device).2.count ≤ _
    omega
  · change (Loopback.receive Ethernet.maxFrame w.device).2.dues ≤ _
    omega
  · rw [hl, hcredits]
    omega
  · have hspan : b.span * (held - 1 + 3 * w.listeners + r) ≤
        b.span * (held + 3 * w.listeners + r) :=
      Nat.mul_le_mul_left _ (by omega)
    rw [hl, hc, Budget.span_less, Budget.horizon_less]
    omega

namespace Net

theorem poll_queued_finishes (hb : b.credits + 1003 ≤ fuel) (hd : w.device.pending ≠ 0)
    (h : w.Funded Loopback.ration b r s) :
    Finishes (poll fuel) w fun _ w' => w'.Funded Loopback.ration b.less r s := by
  obtain ⟨hone, htaken⟩ := h.takeQueued hd
  cases fuel with
  | zero => omega
  | succ fuel =>
    have hless : b.less.credits = b.credits - 1 := rfl
    have hp : (Poller.ofFuel fuel : Poller Loopback).Thrifty Loopback.ration b.less.credits :=
      Poller.thrifty_ofFuel _ (by omega)
    change Finishes (drain (handleFrame (Poller.ofFuel fuel)) (63 + 1)) w _
    rw [drain, finishes_bind, finishes_modifyGet]
    split
    · exact htaken.record _
    · exact htaken
    · rename_i frame hne hr
      obtain ⟨-, hframe⟩ := h.takeFrame_of_ok hr hne
      rw [finishes_bind]
      refine (handleFrame_finishes hp (Nat.le_refl _) frame hframe).mono fun _ w₁ h₁ => ?_
      rw [finishes_bind]
      refine drain_finishes (fun {_ _ frame _} _ h₂ => ?_) 63 h₁
      exact handleFrame_finishes hp (Nat.sub_le _ _) frame h₂

theorem takeFrame_of_pending_eq_zero (hd : w.device.pending = 0) :
    w.takeFrame Ethernet.maxFrame = (.ok [], w) := by
  change ((Loopback.receive Ethernet.maxFrame w.device).1,
    { w with device := (Loopback.receive Ethernet.maxFrame w.device).2 }) = _
  rw [Loopback.receive_of_count_eq_zero hd]

theorem drain_of_pending_eq_zero {handle : Bytes → Net Loopback Unit} {budget : Nat}
    (hd : w.device.pending = 0) : drain handle (budget + 1) w = .ok (0, w) := by
  have htake : (modifyGet (World.takeFrame Ethernet.maxFrame) :
      Net Loopback (Except NetError Bytes)) w = .ok (.ok [], w) :=
    congrArg Except.ok (takeFrame_of_pending_eq_zero hd)
  rw [drain, bind_of_eq_ok htake]
  rfl

theorem poll_of_pending_eq_zero (hd : w.device.pending = 0) (fuel : Nat) :
    poll (fuel + 1) w = .ok (0, w) := drain_of_pending_eq_zero hd

end Net

theorem Operation.polls_of_pending_eq_zero (hd : w.device.pending = 0) (hf : 0 < fuel) (n : Nat) :
    runAll fuel (List.replicate n .poll) w = some w := by
  obtain ⟨fuel, rfl⟩ := Nat.exists_eq_add_of_lt hf
  have hpoll : (Operation.poll : Operation Loopback).perform (Poller.ofFuel (0 + fuel + 1)) w =
      .ok ((), w) := by
    change (Net.poll (0 + fuel + 1) w >>= fun result => .ok ((), result.2)) = .ok ((), w)
    rw [Net.poll_of_pending_eq_zero hd]
    rfl
  induction n with
  | zero => rfl
  | succ n ih =>
    rw [List.replicate_succ, runAll, hpoll]
    exact ih

/-- As many polls as there are credits empty the queue. -/
theorem Operation.polls_finish (hw : Reachable w) (n : Nat) (hb : b.credits ≤ n)
    (hf : n + 1003 ≤ fuel) (h : w.Funded Loopback.ration b r s) :
    ∃ w', runAll fuel (List.replicate n .poll) w = some w' ∧ w'.device.pending = 0 := by
  induction n generalizing w b with
  | zero =>
    obtain ⟨held, ⟨hcount, hdues⟩, hn, -⟩ := h.covered
    refine ⟨w, rfl, ?_⟩
    by_contra hd
    -- Whatever is in the queue would need a credit.
    have hone := (h.takeQueued hd).1
    omega
  | succ n ih =>
    by_cases hd : w.device.pending = 0
    · exact ⟨w, polls_of_pending_eq_zero hd (by omega) _, hd⟩
    · have hless : b.less.credits = b.credits - 1 := rfl
      have hpoll : Net.Finishes ((Operation.poll : Operation Loopback).perform
          (Poller.ofFuel fuel)) w fun _ w' => w'.Funded Loopback.ration b.less r s := by
        rw [perform, Net.finishes_bind]
        exact Net.poll_queued_finishes (by omega) hd h
      obtain ⟨_, w₁, hrun, h₁⟩ := hpoll.exists_eq_ok (hw.perform_ne_fault _ fuel)
      rw [List.replicate_succ, runAll, hrun]
      exact ih (hw.step .poll ⟨fuel, hrun⟩) (by omega) (by omega) h₁

/-- After finitely many polls the queue is empty, and polling does nothing from then on. -/
theorem loopback_falls_quiet (hw : Reachable w) (hq : w.device.pending ≤ Loopback.capacity)
    (hc : w.clock.Steady (2 ^ 28)) (hn : w.clock.now.toNat ≤ 2 ^ 63) :
    ∃ calls least, ∀ fuel ≥ least, ∃ w',
      Operation.runAll fuel (List.replicate calls .poll) w = some w' ∧
        w'.device.pending = 0 ∧ Net.poll fuel w' = .ok (0, w') ∧
        ∀ later, Operation.runAll fuel (List.replicate later .poll) w' = some w' := by
  -- Four credits for each frame in the queue, and three for each socket.
  let b : Budget := ⟨w.clock, 2 ^ 28, 112, 2 ^ 64 - 1, by decide⟩
  have hq : w.device.count ≤ 16 := hq
  have hdues := w.device.dues_le
  have hlisteners := w.listeners_le
  have hfunded : w.Funded Loopback.ration b 0 0 := by
    refine ⟨hc, .refl, w.device.dues, ⟨hq, Nat.le_refl _⟩, ?_, ?_⟩
    · change _ ≤ 112
      omega
    · have hspan : b.span * (w.device.dues + 3 * w.listeners + 0) ≤ b.span * 112 :=
        Nat.mul_le_mul_left _ (by omega)
      have htotal : 2 ^ 63 + (1000 + 3 * 2 ^ 28) * 112 + 0 ≤ 2 ^ 64 - 1 := by decide
      exact Nat.le_trans (Nat.add_le_add_right (Nat.add_le_add hn hspan) 0) htotal
  refine ⟨112, 1115, fun fuel hfuel => ?_⟩
  obtain ⟨w', hrun, hd⟩ := Operation.polls_finish hw 112 (Nat.le_refl _) hfuel hfunded
  refine ⟨w', hrun, hd, ?_, Operation.polls_of_pending_eq_zero hd (by omega)⟩
  obtain ⟨fuel, rfl⟩ := Nat.exists_eq_add_of_le' hfuel
  exact Net.poll_of_pending_eq_zero hd _

theorem loopback_falls_quiet_request :
    ∃ calls least, ∀ fuel ≥ least, ∃ w',
      Operation.runAll fuel (List.replicate calls .poll)
          ((World.start Loopback.empty ⟨0, 1, []⟩ Interface.default).after 2000
            [.arpRequest Interface.default.ip]) = some w' ∧
        w'.device.pending = 0 ∧ Net.poll fuel w' = .ok (0, w') ∧
        ∀ later, Operation.runAll fuel (List.replicate later .poll) w' = some w' :=
  loopback_falls_quiet ((Reachable.start _ _ _).after _ _) (by decide)
    (Clock.Steady.of_step (by decide) (by decide)) (by decide)

end InetHost
