import InetHost.Proofs.Host.Finishes
import InetHost.Host.Reception

/-! The same run beside other datagram sockets. Two worlds are compared that differ in nothing but
their tables of datagram sockets and what has happened before. A run from one mirrors a run from the
other if both come to the same result, in worlds that again differ in nothing else. Only the delivery
of a datagram looks at the tables, so whatever it keeps about them holds to the end of a run. -/

namespace InetHost

variable {δ α β : Type}

def World.beside (w : World δ) (t : Udp.Sockets) (j : List Moment) : World δ :=
  { w with host := { w.host with udp := t }, journal := j }

/-- Two worlds that are the same but for their datagram sockets and their journals. -/
structure World.Beside (w w' : World δ) : Prop where
  host_eq : w'.host = { w.host with udp := w'.host.udp }
  device_eq : w'.device = w.device
  clock_eq : w'.clock = w.clock

namespace World.Beside

variable {w w₁ w' : World δ}

theorem eq_beside (h : w.Beside w') : w' = w.beside w'.host.udp w'.journal := by
  obtain ⟨host, device, clock, journal⟩ := w'
  obtain ⟨hhost, rfl, rfl⟩ := h
  exact congrArg (World.mk · w.device w.clock journal) hhost

theorem beside (w : World δ) (t : Udp.Sockets) (j : List Moment) : w.Beside (w.beside t j) :=
  ⟨rfl, rfl, rfl⟩

theorem symm (h : w.Beside w') : w'.Beside w where
  host_eq := by rw [h.host_eq]
  device_eq := h.device_eq.symm
  clock_eq := h.clock_eq.symm

theorem trans (h : w.Beside w₁) (h' : w₁.Beside w') : w.Beside w' where
  host_eq := by
    have hhost := h'.host_eq
    rwa [h.host_eq] at hhost
  device_eq := h'.device_eq.trans h.device_eq
  clock_eq := h'.clock_eq.trans h.clock_eq

end World.Beside

structure World.Spares (f : World δ → World δ) : Prop where
  udp_eq : ∀ w, (f w).host.udp = w.host.udp
  beside_eq : ∀ w t j, ∃ j', f (w.beside t j) = (f w).beside t j'

namespace World.Spares

variable {f g : World δ → World δ}

theorem of_journal_eq (hudp : ∀ w, (f w).host.udp = w.host.udp)
    (hbeside : ∀ w t j, f (w.beside t j) = (f w).beside t j) : Spares f :=
  ⟨hudp, fun w t j => ⟨j, hbeside w t j⟩⟩

theorem comp (hg : Spares g) (hf : Spares f) : Spares fun w => g (f w) where
  udp_eq w := (hg.udp_eq _).trans (hf.udp_eq w)
  beside_eq w t j := by
    obtain ⟨j', he⟩ := hf.beside_eq w t j
    obtain ⟨j'', he'⟩ := hg.beside_eq (f w) t j'
    exact ⟨j'', by rw [he, he']⟩

theorem id : Spares fun w : World δ => w := .of_journal_eq (fun _ => rfl) fun _ _ _ => rfl

theorem ite {c : World δ → Prop} [DecidablePred c] (hc : ∀ w t j, c (w.beside t j) ↔ c w)
    (hf : Spares f) (hg : Spares g) : Spares fun w => if c w then f w else g w where
  udp_eq w := by
    split
    · exact hf.udp_eq w
    · exact hg.udp_eq w
  beside_eq w t j := by
    by_cases h : c w
    · simp only [if_pos h, if_pos ((hc w t j).2 h)]
      exact hf.beside_eq w t j
    · simp only [if_neg h, if_neg fun h' => h ((hc w t j).1 h')]
      exact hg.beside_eq w t j

theorem record (e : Event) : Spares (World.record e : World δ → World δ) :=
  ⟨fun _ => rfl, fun _ _ _ => ⟨_, rfl⟩⟩

theorem readClock : Spares fun w : World δ => w.readClock.2 :=
  .of_journal_eq (fun _ => rfl) fun _ _ _ => rfl

theorem takeFrame [Link.Device δ] (capacity : Nat) :
    Spares fun w : World δ => (w.takeFrame capacity).2 :=
  .of_journal_eq (fun _ => rfl) fun _ _ _ => rfl

theorem handOver [Link.Device δ] (frame : Bytes) :
    Spares fun w : World δ => (w.handOver frame).2 :=
  ⟨fun _ => rfl, fun _ _ _ => ⟨_, rfl⟩⟩

theorem takePacketId : Spares fun w : World δ => (Ipv4.takeId w).2 :=
  .of_journal_eq (fun _ => rfl) fun _ _ _ => rfl

theorem learn (ip : Ipv4.Address) (mac : Mac) : Spares (Arp.learn ip mac : World δ → World δ) :=
  .of_journal_eq (fun _ => rfl) fun _ _ _ => rfl

theorem noteReply (header : Icmp.Header) (sent : Option UInt32) (source : Ipv4.Address) :
    Spares (Icmp.noteReply header sent source : World δ → World δ) := by
  cases sent with
  | none => exact ⟨fun _ => rfl, fun _ _ _ => ⟨_, rfl⟩⟩
  | some sent => exact ⟨fun _ => rfl, fun _ _ _ => ⟨_, rfl⟩⟩

open Tcp

variable {slot : Slot}

theorem updateSocket (f : Socket → Socket) :
    Spares (updateSocket slot f : World δ → World δ) :=
  .of_journal_eq (fun _ => rfl) fun _ _ _ => rfl

theorem setState (next : State) : Spares (setState slot next : World δ → World δ) :=
  .ite (fun _ _ _ => Iff.rfl) .id
    ⟨fun _ => rfl, fun _ _ _ => ⟨_, rfl⟩⟩

theorem release : Spares (release slot : World δ → World δ) :=
  (updateSocket fun s => { s with inUse := false, buffer := s.buffer.clear }).comp
    (setState .closed)

theorem handleReset (state : State) (source : Ipv4.Address) :
    Spares (handleReset slot state source : World δ → World δ) :=
  .ite (fun _ _ _ => Iff.rfl) .id (.comp (setState _) (.comp (updateSocket _) (record _)))

theorem keepData (buffer : Ring bufferSize) (length dropped : Nat) :
    Spares (keepData slot buffer length dropped : World δ → World δ) := by
  have hkept : Spares fun w : World δ => if dropped = 0 then w
      else w.record (.bytesDropped slot dropped) := .ite (fun _ _ _ => Iff.rfl) .id (record _)
  exact (updateSocket fun s => { s with ack := s.ack + UInt32.ofNat length }).comp
    (hkept.comp (updateSocket fun s => { s with buffer }))

end World.Spares

abbrev Udp.Tie := Sockets → Sockets → Prop

def Udp.Tie.any : Tie := fun _ _ => True

namespace Net

/-- Runs from two worlds side by side come to the same, and the tables are tied after them. -/
def Mirrors (S : Udp.Tie) (m m' : Net δ α) (w : World δ) (t : Udp.Sockets) (j : List Moment) :
    Prop :=
  ∃ t' j', m' (w.beside t j) = (m w).map (fun r => (r.1, r.2.beside t' j')) ∧
    ∀ a v, m w = .ok (a, v) → S v.host.udp t'

/-- Whatever `R` ties together, all runs of `m` mirror each other, and it holds on. -/
def Mirrored (R : Udp.Tie) (m : Net δ α) : Prop :=
  ∀ ⦃w : World δ⦄ ⦃t : Udp.Sockets⦄ ⦃j : List Moment⦄, R w.host.udp t → Mirrors R m m w t j

variable {R S T : Udp.Tie} {m m' : Net δ α} {w : World δ} {t : Udp.Sockets} {j : List Moment}

theorem Mirrors.bind_of_run {f f' : α → Net δ β} (h : Mirrors S m m' w t j)
    (hf : ∀ a v t j, m w = .ok (a, v) → S v.host.udp t → Mirrors T (f a) (f' a) v t j) :
    Mirrors T (m >>= f) (m' >>= f') w t j := by
  obtain ⟨t', j', he, hS⟩ := h
  have hb : (m >>= f) w = m w >>= fun r => f r.1 r.2 := rfl
  have hb' : (m' >>= f') (w.beside t j) = m' (w.beside t j) >>= fun r => f' r.1 r.2 := rfl
  rw [Mirrors, hb, hb', he]
  cases hm : m w with
  | error halt => exact ⟨t', j', rfl, nofun⟩
  | ok r => exact hf r.1 r.2 t' j' hm (hS r.1 r.2 hm)

theorem Mirrors.bind {f f' : α → Net δ β} (h : Mirrors S m m' w t j)
    (hf : ∀ a v t j, S v.host.udp t → Mirrors T (f a) (f' a) v t j) :
    Mirrors T (m >>= f) (m' >>= f') w t j :=
  h.bind_of_run fun a v t j _ => hf a v t j

theorem mirrors_pure (a : α) (h : S w.host.udp t) : Mirrors S (pure a) (pure a) w t j :=
  ⟨t, j, rfl, fun _ _ hm => by cases hm; exact h⟩

namespace Mirrored

theorem pure (a : α) : Mirrored R (pure a : Net δ α) := fun _ _ _ h => mirrors_pure a h

theorem throw (halt : Halt) : Mirrored R (throw halt : Net δ α) :=
  fun _ t j _ => ⟨t, j, rfl, fun _ _ hm => by cases hm⟩

theorem bind {f : α → Net δ β} (h : Mirrored R m) (hf : ∀ a, Mirrored R (f a)) :
    Mirrored R (m >>= f) :=
  fun _ _ _ hR => (h hR).bind fun a _ _ _ hR => hf a hR

theorem get_bind {f : World δ → Net δ β} (hf : ∀ w t j, f (w.beside t j) = f w)
    (h : ∀ w, Mirrored R (f w)) : Mirrored R (get >>= f) := by
  intro w t j hR
  show Mirrors R (f w) (f (w.beside t j)) w t j
  rw [hf]
  exact h w hR

theorem ite {c : Prop} [Decidable c] (h : Mirrored R m) (h' : Mirrored R m') :
    Mirrored R (if c then m else m') := by
  split
  · exact h
  · exact h'

theorem check (r : Except Fault α) : Mirrored R (check r : Net δ α) := by
  cases r with
  | ok a => exact pure a
  | error f => exact throw (.fault f)

theorem modifyGet {f : World δ → α × World δ} (hv : ∀ w t j, (f (w.beside t j)).1 = (f w).1)
    (hf : World.Spares fun w => (f w).2) : Mirrored R (modifyGet f : Net δ α) := by
  intro w t j h
  obtain ⟨j', he⟩ := hf.beside_eq w t j
  refine ⟨t, j', ?_, fun a v hm => ?_⟩
  · show Except.ok (f (w.beside t j)) = .ok ((f w).1, (f w).2.beside t j')
    rw [← he, ← hv w t j]
  · obtain rfl : (f w).2 = v := congrArg Prod.snd (Except.ok.inj hm)
    rwa [hf.udp_eq]

theorem modify {f : World δ → World δ} (hf : World.Spares f) :
    Mirrored R (modify f : Net δ PUnit) :=
  modifyGet (fun _ _ _ => rfl) hf

theorem readClock : Mirrored R (MonadState.modifyGet World.readClock : Net δ UInt64) :=
  modifyGet (fun _ _ _ => rfl) .readClock

end Mirrored

end Net

namespace Attempt

def Mirrors (S : Udp.Tie) (a a' : Attempt δ α) (w : World δ) (t : Udp.Sockets)
    (j : List Moment) : Prop :=
  Net.Mirrors S a.run a'.run w t j

def Mirrored (R : Udp.Tie) (a : Attempt δ α) : Prop := Net.Mirrored R a.run

variable {R S T : Udp.Tie} {a a' : Attempt δ α} {w : World δ} {t : Udp.Sockets} {j : List Moment}

theorem Mirrors.bind {f f' : α → Attempt δ β} (hST : ∀ t t', S t t' → T t t')
    (h : Mirrors S a a' w t j)
    (hf : ∀ x v t j, S v.host.udp t → Mirrors T (f x) (f' x) v t j) :
    Mirrors T (a >>= f) (a' >>= f') w t j := by
  rw [Mirrors, ExceptT.run_bind, ExceptT.run_bind]
  refine Net.Mirrors.bind h fun r v t j hS => ?_
  cases r with
  | ok x => exact hf x v t j hS
  | error e => exact Net.mirrors_pure _ (hST _ _ hS)

theorem mirrors_bind_of_eq_ok {f f' : α → Attempt δ β} {x x' : α} {w₁ : World δ}
    {t₁ : Udp.Sockets} {j₁ : List Moment} (h : a.run w = .ok (.ok x, w₁))
    (h' : a'.run (w.beside t j) = .ok (.ok x', w₁.beside t₁ j₁))
    (hf : Mirrors S (f x) (f' x') w₁ t₁ j₁) : Mirrors S (a >>= f) (a' >>= f') w t j := by
  rw [Mirrors, Net.Mirrors, run_bind_of_eq_ok h, run_bind_of_eq_ok h']
  exact hf

theorem mirrors_of_run_eq {r : Except NetError α} {w₁ w₂ : World δ} (h : a.run w = .ok (r, w₁))
    (h' : a'.run (w.beside t j) = .ok (r, w₂)) (hb : w₁.Beside w₂) : Mirrors .any a a' w t j := by
  rw [Mirrors, Net.Mirrors, h, h', hb.eq_beside]
  exact ⟨_, _, rfl, fun _ _ _ => trivial⟩

theorem mirrors_lift {m m' : Net δ α} (h : Net.Mirrors S m m' w t j) :
    Mirrors S (liftM m : Attempt δ α) (liftM m') w t j := by
  show Net.Mirrors S (m >>= fun a => pure (Except.ok a)) (m' >>= fun a => pure (Except.ok a)) w t j
  exact h.bind fun _ _ _ _ hS => Net.mirrors_pure _ hS

theorem mirrors_lift_bind {m m' : Net δ α} {f f' : α → Attempt δ β} (h : Net.Mirrors S m m' w t j)
    (hf : ∀ x v t j, m w = .ok (x, v) → S v.host.udp t → Mirrors T (f x) (f' x) v t j) :
    Mirrors T (liftM m >>= f) (liftM m' >>= f') w t j := by
  have hrun (m : Net δ α) (f : α → Attempt δ β) :
      (liftM m >>= f : Attempt δ β).run = m >>= fun x => (f x).run := by
    rw [ExceptT.run_bind]
    show (m >>= fun x => pure (Except.ok x)) >>= _ = _
    simp only [bind_assoc, pure_bind]
  rw [Mirrors, hrun, hrun]
  exact h.bind_of_run hf

theorem mirrors_outcome (h : Mirrors S a a' w t j) : Mirrors S a.outcome a'.outcome w t j :=
  mirrors_lift h

theorem mirrors_modify {f f' : World δ → World δ} (h : (f w).Beside (f' (w.beside t j)))
    (hS : S (f w).host.udp (f' (w.beside t j)).host.udp) :
    Mirrors S (modify f : Attempt δ PUnit) (modify f') w t j := by
  refine mirrors_lift ⟨_, _, congrArg (fun v => Except.ok (PUnit.unit, v)) h.eq_beside, ?_⟩
  intro _ v hm
  obtain rfl := congrArg Prod.snd (Except.ok.inj hm)
  exact hS

namespace Mirrored

theorem pure (x : α) : Mirrored R (pure x : Attempt δ α) := Net.Mirrored.pure (Except.ok x)

theorem throw (e : NetError) : Mirrored R (throw e : Attempt δ α) :=
  Net.Mirrored.pure (Except.error e)

theorem ofExcept (r : Except NetError α) : Mirrored R (ofExcept r : Attempt δ α) :=
  Net.Mirrored.pure r

theorem bind {f : α → Attempt δ β} (h : Mirrored R a) (hf : ∀ x, Mirrored R (f x)) :
    Mirrored R (a >>= f) :=
  fun _ _ _ hR => Mirrors.bind (fun _ _ h => h) (h hR) fun x _ _ _ hR => hf x hR

theorem get_bind {f : World δ → Attempt δ β} (hf : ∀ w t j, f (w.beside t j) = f w)
    (h : ∀ w, Mirrored R (f w)) : Mirrored R (get >>= f) := by
  intro w t j hR
  show Net.Mirrors R (f w) (f (w.beside t j)) w t j
  rw [hf]
  exact h w hR

theorem ite {c : Prop} [Decidable c] (h : Mirrored R a) (h' : Mirrored R a') :
    Mirrored R (if c then a else a') := by
  split
  · exact h
  · exact h'

theorem lift {m : Net δ α} (h : Net.Mirrored R m) : Mirrored R (liftM m : Attempt δ α) :=
  fun _ _ _ hR => mirrors_lift (h hR)

theorem adapt (g : NetError → NetError) (h : Mirrored R a) : Mirrored R (ExceptT.adapt g a) := by
  show Net.Mirrored R (Except.mapError g <$> a.run)
  rw [← bind_pure_comp]
  exact Net.Mirrored.bind h fun _ => .pure _

theorem check (r : Except Fault α) : Mirrored R (Net.check r : Attempt δ α) := by
  cases r with
  | ok x => exact pure x
  | error f => exact Net.Mirrored.throw (.fault f)

theorem modify {f : World δ → World δ} (hf : World.Spares f) :
    Mirrored R (modify f : Attempt δ PUnit) :=
  lift (Net.Mirrored.modify hf)

end Mirrored

end Attempt

end InetHost
