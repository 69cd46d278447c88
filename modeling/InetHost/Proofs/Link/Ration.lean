import Mathlib.Algebra.Ring.Nat
import InetHost.Link.Script
import InetHost.Proofs.Host.Stakes

/-! What a device may still deliver. A ration bounds it by the frames that may still come, each with
its stake; every frame that the device takes adds to the ration, and every frame that it delivers is
paid for. A device that delivers so many frames and no more has a ration whatever it takes. -/

namespace InetHost.Link

def cost (frame : Bytes) : Nat := 1 + Ethernet.stake frame

theorem cost_le (frame : Bytes) : cost frame ≤ 4 := by
  have h := Ethernet.stake_le frame
  unfold cost
  omega

def price : Except NetError Bytes → Nat
  | .ok [] => 0
  | .ok frame => cost frame
  | .error _ => 0

def arrivals : Except NetError Bytes → Nat
  | .ok [] => 0
  | .ok _ => 1
  | .error _ => 0

theorem price_le (result : Except NetError Bytes) : price result ≤ 4 * arrivals result := by
  unfold price arrivals
  split
  · exact Nat.le_refl 0
  · exact cost_le _
  · exact Nat.le_refl 0

structure Ration (δ : Type) [Device δ] where
  Allows : Nat → δ → Prop
  transmit {n : Nat} {d : δ} (frame : Bytes) :
    Allows n d → Allows (n + cost frame) (Device.transmit frame d).2
  receive {n : Nat} {d : δ} : Allows n d →
    ∃ n', n' + price (Device.receive Ethernet.maxFrame d).1 ≤ n ∧
      Allows n' (Device.receive Ethernet.maxFrame d).2

variable {δ : Type} [Device δ] {d d' d'' : δ} {m n limit : Nat}

/-- How many frames a device delivers while a host uses it; gaps and failures may come between. -/
inductive Delivers (d : δ) : Nat → δ → Prop
  | refl : Delivers d 0 d
  | transmit {n : Nat} {d' : δ} (frame : Bytes) :
      Delivers d n d' → Delivers d n (Device.transmit frame d').2
  | receive {n : Nat} {d' : δ} :
      Delivers d n d' →
      Delivers d (n + arrivals (Device.receive Ethernet.maxFrame d').1)
        (Device.receive Ethernet.maxFrame d').2

theorem Delivers.trans (h : Delivers d m d') (h' : Delivers d' n d'') : Delivers d (m + n) d'' := by
  induction h' with
  | refl => exact h
  | transmit frame _ ih => exact ih.transmit frame
  | receive _ ih =>
    have hstep := ih.receive
    rwa [Nat.add_assoc] at hstep

/-- However a host uses it, the device delivers no more frames than that. -/
def DeliversAtMost (limit : Nat) (d : δ) : Prop := ∀ n d', Delivers d n d' → n ≤ limit

namespace DeliversAtMost

theorem transmit (h : DeliversAtMost limit d) (frame : Bytes) :
    DeliversAtMost limit (Device.transmit frame d).2 := by
  intro n d' hd
  have hfirst : Delivers d 0 (Device.transmit frame d).2 := Delivers.refl.transmit frame
  have hall := h _ _ (hfirst.trans hd)
  rwa [Nat.zero_add] at hall

theorem receive (h : DeliversAtMost limit d) :
    ∃ rest, rest + arrivals (Device.receive Ethernet.maxFrame d).1 ≤ limit ∧
      DeliversAtMost rest (Device.receive Ethernet.maxFrame d).2 := by
  have hfirst := (Delivers.refl (d := d)).receive
  rw [Nat.zero_add] at hfirst
  have hone := h _ _ hfirst
  refine ⟨limit - arrivals (Device.receive Ethernet.maxFrame d).1, ?_, ?_⟩
  · exact Nat.le_of_eq (Nat.sub_add_cancel hone)
  · intro n d' hd
    have hall := h _ _ (hfirst.trans hd)
    exact Nat.le_sub_of_add_le' hall

end DeliversAtMost

namespace Script

def outstanding (d : Script) : Nat :=
  d.queue.length + (d.reactions.map fun r => if d.calls ≤ r.1 then r.2.length else 0).sum

theorem reaction_add_le (calls : Nat) (reactions : List (Nat × List Arrival)) :
    ((reactions.lookup calls).getD []).length +
        (reactions.map fun r => if calls + 1 ≤ r.1 then r.2.length else 0).sum ≤
      (reactions.map fun r => if calls ≤ r.1 then r.2.length else 0).sum := by
  induction reactions with
  | nil => exact Nat.le_refl 0
  | cons reaction reactions ih =>
    obtain ⟨call, arrivals⟩ := reaction
    rw [List.map_cons, List.map_cons, List.sum_cons, List.sum_cons]
    by_cases hc : calls = call
    · subst hc
      rw [List.lookup_cons_self, Option.getD_some, if_neg (Nat.not_succ_le_self _),
        if_pos (Nat.le_refl _)]
      dsimp only
      omega
    · have hlookup : List.lookup calls ((call, arrivals) :: reactions) =
          reactions.lookup calls := by
        rw [List.lookup_cons, beq_false_of_ne hc]
      have hsame : calls + 1 ≤ call ↔ calls ≤ call := by omega
      simp only [hlookup, hsame]
      omega

theorem outstanding_transmit (frame : Bytes) (d : Script) :
    outstanding (transmit frame d).2 ≤ outstanding d := by
  have h := reaction_add_le d.calls d.reactions
  unfold transmit outstanding
  split
  · dsimp only
    omega
  · dsimp only
    rw [List.length_append]
    omega

theorem arrivals_add_outstanding (capacity : Nat) (d : Script) :
    arrivals (receive capacity d).1 + outstanding (receive capacity d).2 ≤ outstanding d := by
  cases hq : d.queue with
  | nil =>
    have hnone : receive capacity d = (.ok [], d) := by
      unfold receive
      rw [hq]
    rw [hnone]
    exact Nat.le_of_eq (Nat.zero_add _)
  | cons arrival rest =>
    have hrest : (receive capacity d).2 = { d with queue := rest } := by
      unfold receive
      rw [hq]
      cases arrival <;> rfl
    have hone : arrivals (receive capacity d).1 ≤ 1 := by
      unfold arrivals
      split <;> decide
    rw [hrest]
    unfold outstanding
    rw [hq, List.length_cons]
    dsimp only
    omega

theorem deliversAtMost (d : Script) : DeliversAtMost d.outstanding d := by
  intro n d' h
  have hsum : n + d'.outstanding ≤ d.outstanding := by
    induction h with
    | refl => exact Nat.le_of_eq (Nat.zero_add _)
    | transmit frame _ ih => exact Nat.le_trans (Nat.add_le_add_left (outstanding_transmit ..) _) ih
    | receive h ih =>
      rw [Nat.add_assoc]
      exact Nat.le_trans (Nat.add_le_add_left (arrivals_add_outstanding ..) _) ih
  omega

end Script

def Ration.ofDeliveries (δ : Type) [Device δ] : Ration δ where
  Allows n d := ∃ limit, DeliversAtMost limit d ∧ 4 * limit ≤ n
  transmit frame h := by
    obtain ⟨limit, hd, hl⟩ := h
    exact ⟨limit, hd.transmit frame, Nat.le_trans hl (Nat.le_add_right _ _)⟩
  receive {_ d} h := by
    obtain ⟨limit, hd, hl⟩ := h
    obtain ⟨rest, hr, hd'⟩ := hd.receive
    have hp := price_le (Device.receive Ethernet.maxFrame d).1
    exact ⟨4 * rest, by omega, rest, hd', Nat.le_refl _⟩

end InetHost.Link
