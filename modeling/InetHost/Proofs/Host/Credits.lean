import Mathlib.Data.Fintype.Card
import InetHost.Proofs.Clock
import InetHost.Proofs.Host.Finishes
import InetHost.Proofs.Link.Ration

/-! What a host can afford. A credit pays for a frame that is handed over, or for the time of one wait.
The frames that may still arrive are credits that the device holds, and every listening socket holds
three, for the connection that it may become an end of. No step of the host makes a credit; so the
credits bound how many frames are handled and how deep polls are nested, and with the pace of the
clock they bound how late it can become. -/

namespace InetHost

open Tcp

/-- The means of a host for a run from a time on. -/
structure Budget where
  origin : Clock
  pace : Nat
  credits : Nat
  horizon : Nat
  horizon_lt : horizon < 2 ^ 64

namespace Budget

def span (b : Budget) : Nat := 1000 + 3 * b.pace

theorem pace_le_span (b : Budget) : b.pace ≤ b.span := by
  unfold span
  omega

def less (b : Budget) : Budget := { b with credits := b.credits - 1 }

@[simp] theorem span_less (b : Budget) : b.less.span = b.span := rfl

@[simp] theorem horizon_less (b : Budget) : b.less.horizon = b.horizon := rfl

end Budget

namespace World

variable {δ : Type}

def listeners (w : World δ) : Nat :=
  (Finset.univ.filter fun i : Slot => (socketAt i w).state = .listen).card

theorem listeners_le (w : World δ) : w.listeners ≤ 16 := by
  have h := Finset.card_filter_le Finset.univ fun i : Slot => (socketAt i w).state = .listen
  rwa [Finset.card_univ, Fintype.card_fin] at h

variable {w w' : World δ}

theorem listeners_mono
    (h : ∀ i, (socketAt i w').state = .listen → (socketAt i w).state = .listen) :
    w'.listeners ≤ w.listeners := by
  apply Finset.card_le_card
  intro i hi
  rw [Finset.mem_filter] at hi ⊢
  exact ⟨hi.1, h i hi.2⟩

theorem listeners_lt {slot : Slot} (hs : (socketAt slot w).state = .listen)
    (hs' : (socketAt slot w').state ≠ .listen)
    (h : ∀ i, (socketAt i w').state = .listen → (socketAt i w).state = .listen) :
    w'.listeners < w.listeners := by
  apply Finset.card_lt_card
  refine ⟨?_, fun hle => hs' ?_⟩
  · intro i hi
    rw [Finset.mem_filter] at hi ⊢
    exact ⟨hi.1, h i hi.2⟩
  · have hmem := hle (Finset.mem_filter.2 ⟨Finset.mem_univ slot, hs⟩)
    exact (Finset.mem_filter.1 hmem).2

variable [Link.Device δ]

/-- The host has `credits` in hand and may let `ms` milliseconds pass. -/
structure Funded (ration : Link.Ration δ) (b : Budget) (credits ms : Nat) (w : World δ) : Prop where
  steady : w.clock.Steady b.pace
  ticks : b.origin.Ticks w.clock
  covered : ∃ held, ration.Allows held w.device ∧
    held + 3 * w.listeners + credits ≤ b.credits ∧
    w.clock.now.toNat + b.span * (held + 3 * w.listeners + credits) + ms ≤ b.horizon

namespace Funded

variable {ration : Link.Ration δ} {b : Budget} {credits credits' ms ms' : Nat}

theorem step (h : w.Funded ration b (credits + credits') ms) (hc : w'.clock = w.clock)
    (hd : ∀ held, ration.Allows held w.device → ∃ held' spare, ration.Allows held' w'.device ∧
      held' + 3 * w'.listeners + spare ≤ held + 3 * w.listeners + credits' ∧
      ms' ≤ ms + b.span * spare) : w'.Funded ration b credits ms' := by
  obtain ⟨held, ha, hn, ht⟩ := h.covered
  obtain ⟨held', spare, ha', hn', ht'⟩ := hd held ha
  refine ⟨hc ▸ h.steady, hc ▸ h.ticks, held', ha', by omega, ?_⟩
  have hspan : b.span * (held' + 3 * w'.listeners + credits + spare) ≤
      b.span * (held + 3 * w.listeners + (credits + credits')) :=
    Nat.mul_le_mul_left _ (by omega)
  rw [Nat.mul_add] at hspan
  rw [hc]
  omega

theorem drop (h : w.Funded ration b (credits + credits') (ms + ms')) :
    w.Funded ration b credits ms :=
  h.step rfl fun held ha => ⟨held, 0, ha, by omega, by omega⟩

theorem mono (h : w.Funded ration b credits' ms') (hc : credits ≤ credits') (hm : ms ≤ ms') :
    w.Funded ration b credits ms := by
  obtain ⟨c, rfl⟩ := Nat.exists_eq_add_of_le hc
  obtain ⟨m, rfl⟩ := Nat.exists_eq_add_of_le hm
  exact h.drop

theorem congr (h : w.Funded ration b credits ms) (hd : w'.device = w.device)
    (hc : w'.clock = w.clock) (hl : w'.listeners ≤ w.listeners) : w'.Funded ration b credits ms := by
  have hnone : w.Funded ration b (credits + 0) ms := h
  exact hnone.step hc fun held ha => ⟨held, 0, hd ▸ ha, by omega, by omega⟩

theorem of_tcp_eq (h : w.Funded ration b credits ms) (hd : w'.device = w.device)
    (hc : w'.clock = w.clock) (ht : w'.host.tcp = w.host.tcp) : w'.Funded ration b credits ms := by
  apply h.congr hd hc
  apply listeners_mono
  intro i hi
  rwa [socketAt_congr i w ht] at hi

theorem record (h : w.Funded ration b credits ms) (e : Event) :
    (w.record e).Funded ration b credits ms :=
  h.of_tcp_eq rfl rfl rfl

theorem readClock_pace (h : w.Funded ration b credits (ms + w.clock.pace.toNat)) :
    w.readClock.2.Funded ration b credits ms ∧
      w.readClock.2.clock.now.toNat = w.clock.now.toNat + w.clock.pace.toNat := by
  obtain ⟨held, ha, hn, ht⟩ := h.covered
  have hlt := b.horizon_lt
  have hw : w.clock.now.toNat + w.clock.pace.toNat < 2 ^ 64 := by omega
  have hnow : w.readClock.2.clock.now.toNat = w.clock.now.toNat + w.clock.pace.toNat :=
    Clock.toNat_now_read hw
  have hl : w.readClock.2.listeners = w.listeners := rfl
  refine ⟨⟨h.steady.read, h.ticks.read hw, held, ha, hn, ?_⟩, hnow⟩
  rw [hnow, hl]
  omega

theorem pace_pos (h : w.Funded ration b credits ms) : 1 ≤ w.clock.pace.toNat :=
  (h.steady _ w.clock.pace_mem).1

theorem pace_lt (h : w.Funded ration b credits ms) : w.clock.pace.toNat < b.pace :=
  (h.steady _ w.clock.pace_mem).2

theorem readClock (h : w.Funded ration b credits (ms + b.pace)) :
    w.readClock.2.Funded ration b credits ms := by
  have hlt := h.pace_lt
  have hexact : w.Funded ration b credits (ms + w.clock.pace.toNat) :=
    h.mono (Nat.le_refl _) (by omega)
  exact hexact.readClock_pace.1

theorem handOver {frame : Bytes} (h : w.Funded ration b (credits + Link.cost frame) ms) :
    (w.handOver frame).2.Funded ration b credits ms := by
  have hl : (w.handOver frame).2.listeners = w.listeners := rfl
  refine h.step rfl fun held ha => ⟨held + Link.cost frame, 0, ration.transmit frame ha, ?_, ?_⟩
  · rw [hl]
    omega
  · omega

theorem unlisten (h : w.Funded ration b credits ms) (hd : w'.device = w.device)
    (hc : w'.clock = w.clock) (hl : w'.listeners < w.listeners) :
    w'.Funded ration b (credits + 3) ms := by
  obtain ⟨held, ha, hn, ht⟩ := h.covered
  refine ⟨hc ▸ h.steady, hc ▸ h.ticks, held, hd ▸ ha, by omega, ?_⟩
  have hspan : b.span * (held + 3 * w'.listeners + (credits + 3)) ≤
      b.span * (held + 3 * w.listeners + credits) :=
    Nat.mul_le_mul_left _ (by omega)
  rw [hc]
  omega

theorem updateSocket {slot : Slot} {f : Socket → Socket} (h : w.Funded ration b credits ms)
    (hf : (f (socketAt slot w)).state = .listen → (socketAt slot w).state = .listen) :
    (updateSocket slot f w).Funded ration b credits ms := by
  refine h.congr rfl rfl (listeners_mono ?_)
  intro i hi
  rw [socketAt_updateSocket] at hi
  split at hi
  · rename_i hs
    exact hs ▸ hf hi
  · exact hi

theorem setState {slot : Slot} {next : State} (h : w.Funded ration b credits ms)
    (hn : next ≠ .listen) : (setState slot next w).Funded ration b credits ms := by
  by_cases hs : (socketAt slot w).state = next
  · rwa [setState_of_eq hs]
  · rw [setState_of_ne hs]
    apply (h.record _).updateSocket
    intro hl
    exact absurd hl hn

theorem listen {slot : Slot} (h : w.Funded ration b (credits + 3) ms) :
    (Tcp.setState slot .listen w).Funded ration b credits ms := by
  by_cases hs : (socketAt slot w).state = .listen
  · rw [setState_of_eq hs]
    exact h.mono (Nat.le_add_right _ _) (Nat.le_refl _)
  · have hmore : (Tcp.setState slot .listen w).listeners ≤ w.listeners + 1 := by
      apply le_trans (Finset.card_le_card _) (Finset.card_insert_le slot _)
      intro i hi
      rw [Finset.mem_filter] at hi
      rw [Finset.mem_insert, Finset.mem_filter]
      by_cases his : i = slot
      · exact .inl his
      · rw [setState_of_ne hs, socketAt_updateSocket, if_neg (Ne.symm his)] at hi
        exact .inr hi
    rw [setState_of_ne hs] at hmore ⊢
    refine h.step rfl fun held ha => ⟨held, 0, ha, ?_, Nat.le_refl _⟩
    omega

theorem release {slot : Slot} (h : w.Funded ration b credits ms) :
    (release slot w).Funded ration b credits ms :=
  (h.setState (by decide)).updateSocket id

theorem of_less (h : w.Funded ration b.less credits ms) : w.Funded ration b credits ms := by
  obtain ⟨held, ha, hn, ht⟩ := h.covered
  refine ⟨h.steady, h.ticks, held, ha, ?_, ht⟩
  exact Nat.le_trans hn (Nat.sub_le _ _)

theorem takeFrame (h : w.Funded ration b credits ms) :
    (w.takeFrame Ethernet.maxFrame).2.Funded ration b credits ms := by
  have hl : (w.takeFrame Ethernet.maxFrame).2.listeners = w.listeners := rfl
  have hnone : w.Funded ration b (credits + 0) ms := h
  refine hnone.step rfl fun held ha => ?_
  obtain ⟨held', hp, ha'⟩ := ration.receive ha
  refine ⟨held', 0, ha', ?_, by omega⟩
  rw [hl]
  omega

theorem takeFrame_of_ok {frame : Bytes} (h : w.Funded ration b credits ms)
    (hr : (w.takeFrame Ethernet.maxFrame).1 = .ok frame) (hf : frame ≠ []) :
    1 ≤ b.credits ∧ (w.takeFrame Ethernet.maxFrame).2.Funded ration b.less
      (credits + Ethernet.stake frame) (ms + b.span) := by
  obtain ⟨held, ha, hn, ht⟩ := h.covered
  obtain ⟨held', hp, ha'⟩ := ration.receive ha
  have hprice : Link.price (w.takeFrame Ethernet.maxFrame).1 = 1 + Ethernet.stake frame := by
    rw [hr]
    cases frame with
    | nil => exact absurd rfl hf
    | cons byte rest => rfl
  have hpaid : held' + (1 + Ethernet.stake frame) ≤ held := hprice ▸ hp
  have hl : (w.takeFrame Ethernet.maxFrame).2.listeners = w.listeners := rfl
  have hc : (w.takeFrame Ethernet.maxFrame).2.clock = w.clock := rfl
  have hless : b.less.credits = b.credits - 1 := rfl
  refine ⟨by omega, h.steady, h.ticks, held', ha', ?_, ?_⟩
  · rw [hl, hless]
    omega
  · have hspan : b.span * (held' + 3 * w.listeners + (credits + Ethernet.stake frame) + 1) ≤
        b.span * (held + 3 * w.listeners + credits) :=
      Nat.mul_le_mul_left _ (by omega)
    rw [Nat.mul_add_one] at hspan
    rw [hl, hc, Budget.span_less, Budget.horizon_less]
    omega

end Funded

end World

end InetHost
