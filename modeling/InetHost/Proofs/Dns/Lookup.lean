import InetHost.Dns.Lookup
import InetHost.Proofs.Dns.Encoding
import InetHost.Proofs.Host.Mirrors
import InetHost.Proofs.Host.Waiting

/-! What a lookup owes to the sockets of others. The query is sent from a socket of its own, and the
response is left with the lowest socket on the port of the query. So the other sockets make no
difference to a lookup, unless one of them is on that port already and stands before its socket. -/

namespace InetHost

variable {δ α : Type}

namespace Udp

namespace Sockets

variable {t : Sockets} {port : UInt16} {i : Slot}

/-- An open socket on the port stands before the one that is opened next. -/
def Intercepts (t : Sockets) (port : UInt16) : Prop :=
  ∃ slot i, t.free? = some slot ∧ i ∈ t.openOn port ∧ i < slot

instance : Decidable (i ∈ t.openOn port) :=
  inferInstanceAs (Decidable ((t.get i).inUse = true ∧ (t.get i).port = port))

instance : Decidable (t.Intercepts port) :=
  inferInstanceAs (Decidable (∃ slot i, t.free? = some slot ∧ i ∈ t.openOn port ∧ i < slot))

theorem get_post (t : Sockets) (port : UInt16) (d : Datagram) (i : Slot) :
    (t.post port d).get i =
      if t.listener? port = some i then (t.get i).put d.kept else t.get i := by
  unfold post
  cases t.listener? port with
  | none => rw [if_neg nofun]; rfl
  | some slot =>
    show (t.store slot d.kept).get i = _
    rw [store, get_modify]
    by_cases h : slot = i
    · rw [if_pos h, if_pos (congrArg some h), h]
    · rw [if_neg h, if_neg fun h' => h (Option.some.inj h')]

theorem length_get_post_le {d : Datagram} (h : (t.get i).length ≤ bufferSize) :
    ((t.post port d).get i).length ≤ bufferSize := by
  rw [get_post]
  split
  · exact d.length_payload_kept
  · exact h

theorem openOn_post (t : Sockets) (port port' : UInt16) (d : Datagram) :
    (t.post port d).openOn port' = t.openOn port' := by
  ext i
  show ((t.post port d).get i).inUse = true ∧ ((t.post port d).get i).port = port' ↔ _
  rw [get_post]
  split
  · exact Iff.rfl
  · exact Iff.rfl

end Sockets

end Udp

namespace Dns

open Udp

/-- Two sockets in two tables have the same place on the port and hold the same unread datagram. -/
structure Abreast (port : UInt16) (slot slot' : Slot) (t t' : Sockets) : Prop where
  mem : slot ∈ t.openOn port
  mem' : slot' ∈ t'.openOn port
  unread_eq : (t.get slot).unread = (t'.get slot').unread
  length_le : (t.get slot).length ≤ bufferSize
  length_le' : (t'.get slot').length ≤ bufferSize
  isLeast_iff : IsLeast (t.openOn port) slot ↔ IsLeast (t'.openOn port) slot'

namespace Abreast

variable {port : UInt16} {slot slot' : Slot} {t t' : Sockets}

theorem listener?_iff (h : Abreast port slot slot' t t') (port' : UInt16) :
    t.listener? port' = some slot ↔ t'.listener? port' = some slot' := by
  rw [Sockets.listener?_eq_some_iff, Sockets.listener?_eq_some_iff]
  by_cases hp : port' = port
  · rw [hp]
    exact h.isLeast_iff
  · have hne : ¬IsLeast (t.openOn port') slot := fun hl => hp (hl.1.2.symm.trans h.mem.2)
    have hne' : ¬IsLeast (t'.openOn port') slot' := fun hl => hp (hl.1.2.symm.trans h.mem'.2)
    exact iff_of_false hne hne'

theorem lasting : Tie.Lasting (Abreast port slot slot') := by
  intro t t' port' d h
  constructor
  · rw [Sockets.openOn_post]
    exact h.mem
  · rw [Sockets.openOn_post]
    exact h.mem'
  · rw [Sockets.get_post, Sockets.get_post]
    by_cases hl : t.listener? port' = some slot
    · rw [if_pos hl, if_pos ((h.listener?_iff port').1 hl),
        Socket.unread_put _ d.length_payload_kept, Socket.unread_put _ d.length_payload_kept]
    · rw [if_neg hl, if_neg fun hl' => hl ((h.listener?_iff port').2 hl')]
      exact h.unread_eq
  · exact Sockets.length_get_post_le h.length_le
  · exact Sockets.length_get_post_le h.length_le'
  · rw [Sockets.openOn_post, Sockets.openOn_post]
    exact h.isLeast_iff

end Abreast

end Dns

namespace Udp

open Dns

namespace Sockets

variable {t t' : Sockets} {port : UInt16} {slot slot' i : Slot}

theorem openOn_openAt (t : Sockets) (slot : Slot) (port : UInt16) :
    (t.openAt slot port).openOn port = insert slot (t.openOn port) := by
  ext i
  show ((t.openAt slot port).get i).inUse = true ∧ ((t.openAt slot port).get i).port = port ↔ _
  rw [openAt, get_modify, Set.mem_insert_iff]
  by_cases h : slot = i
  · rw [if_pos h]
    exact iff_of_true ⟨rfl, rfl⟩ (.inl h.symm)
  · rw [if_neg h]
    exact (or_iff_right fun h' => h h'.symm).symm

theorem isLeast_openAt_iff (hf : t.free? = some slot) :
    IsLeast ((t.openAt slot port).openOn port) slot ↔ ¬t.Intercepts port := by
  rw [openOn_openAt]
  constructor
  · rintro ⟨-, hleast⟩ ⟨slot', i, hf', hi, hlt⟩
    obtain rfl := Option.some.inj (hf.symm.trans hf')
    exact Fin.not_le.2 hlt (hleast (Set.mem_insert_of_mem _ hi))
  · intro hn
    refine ⟨Set.mem_insert _ _, fun i hi => ?_⟩
    rcases Set.mem_insert_iff.1 hi with rfl | hi
    · exact Fin.le_refl _
    · exact Fin.not_lt.1 fun hlt => hn ⟨slot, i, hf, hi, hlt⟩

theorem abreast_openAt (hf : t.free? = some slot) (hf' : t'.free? = some slot')
    (h : t.Intercepts port ↔ t'.Intercepts port) :
    Abreast port slot slot' (t.openAt slot port) (t'.openAt slot' port) where
  mem := openOn_openAt t slot port ▸ Set.mem_insert _ _
  mem' := openOn_openAt t' slot' port ▸ Set.mem_insert _ _
  unread_eq := by
    rw [openAt, openAt, get_modify, get_modify, if_pos rfl, if_pos rfl]
    rfl
  length_le := by
    rw [openAt, get_modify, if_pos rfl]
    exact Nat.zero_le _
  length_le' := by
    rw [openAt, get_modify, if_pos rfl]
    exact Nat.zero_le _
  isLeast_iff := by rw [isLeast_openAt_iff hf, isLeast_openAt_iff hf', h]

end Sockets

variable {w : World δ} {t : Sockets} {j : List Moment} {T : Tie} {port : UInt16}
  {slot slot' : Slot} {p : Poller δ}

theorem mirrors_modify_bind {f f' : World δ → World δ} {a : Attempt δ α}
    (h : (f w).Beside (f' (w.beside t j))) (ha : Attempt.Mirrored .any a) :
    Attempt.Mirrors .any (modify f >>= fun _ => a) (modify f' >>= fun _ => a) w t j :=
  Attempt.Mirrors.bind (fun _ _ h => h) (Attempt.mirrors_modify h trivial) fun _ _ _ _ h => ha h

theorem beside_close (handle : Nat) (w : World δ) : w.Beside (close handle w) := by
  unfold close
  split
  · exact ⟨rfl, rfl, rfl⟩
  · exact ⟨rfl, rfl, rfl⟩

theorem mirrors_close_bind (handle handle' : Nat) {a : Attempt δ α}
    (ha : Attempt.Mirrored .any a) :
    Attempt.Mirrors .any (modify (close handle) >>= fun _ => a)
      (modify (close handle') >>= fun _ => a) w t j :=
  mirrors_modify_bind
    (((beside_close handle w).symm.trans (.beside w t j)).trans (beside_close handle' _)) ha

theorem mirrors_slot_bind {f f' : Slot → Attempt δ α}
    (h : Abreast port slot slot' w.host.udp t)
    (hf : Attempt.Mirrors T (f slot) (f' slot') w t j) :
    Attempt.Mirrors T (Udp.slot slot >>= f) (Udp.slot slot' >>= f') w t j :=
  Attempt.mirrors_bind_of_eq_ok (run_slot (Sockets.slot_eq_ok h.mem.1))
    (run_slot (Sockets.slot_eq_ok h.mem'.1)) hf

theorem mirrors_openSocket_bind {f f' : Nat → Attempt δ α} (hs : w.host.udp.free? = some slot)
    (hs' : t.free? = some slot') (hi : w.host.udp.Intercepts port ↔ t.Intercepts port)
    (hf : ∀ (w : World δ) t j, Abreast port slot slot' w.host.udp t →
      Attempt.Mirrors T (f slot) (f' slot') w t j) :
    Attempt.Mirrors T (openSocket port >>= f) (openSocket port >>= f') w t j := by
  have hrun {w : World δ} {slot : Slot} (hs : w.host.udp.free? = some slot) :
      (openSocket port).run w = .ok (.ok slot.val,
        (modifySockets (fun t => t.openAt slot port) w).record (.udpOpened slot port)) := by
    rw [openSocket, Attempt.run_bind_of_eq_ok (Attempt.run_get w), hs]
    rfl
  refine Attempt.mirrors_bind_of_eq_ok (hrun hs) (hrun (w := w.beside t j) hs') ?_
  exact hf _ (t.openAt slot' port) _ (Sockets.abreast_openAt hs hs' hi)

theorem send_abreast [Link.Device δ] (hp : Net.Mirrored (Abreast port slot slot') p.poll)
    (dest : Ipv4.Address) (destPort : UInt16) (payload : Bytes)
    (h : Abreast port slot slot' w.host.udp t) :
    Attempt.Mirrors (Abreast port slot slot') (send p slot dest destPort payload)
      (send p slot' dest destPort payload) w t j := by
  have hport {w : World δ} {slot : Slot} (h : slot ∈ w.host.udp.openOn port) :
      (localPort slot).run w = .ok (.ok port, w) := by
    rw [run_localPort (Sockets.slot_eq_ok h.1), h.2]
  -- With the port the handles have done their part.
  have hrest : Attempt.Mirrored (Abreast port slot slot')
      (if maxPayload < payload.length then throw .messageTooLong
        else do
          let datagram ← Net.check ((encode port destPort payload).within Ipv4.maxPayload)
          Ipv4.send p dest .udp datagram) :=
    .ite (.throw .messageTooLong) (.bind (.check _) fun datagram =>
      Ipv4.send_mirrored hp dest .udp datagram)
  exact Attempt.mirrors_bind_of_eq_ok (hport h.mem) (hport h.mem') (hrest h)

theorem read_abreast (h : Abreast port slot slot' w.host.udp t)
    (hd : (w.host.udp.get slot).hasData = true) (capacity : Nat) :
    Attempt.Mirrors .any (read slot capacity) (read slot' capacity) w t j := by
  obtain ⟨datagram, hunread⟩ : ∃ datagram, (w.host.udp.get slot).unread = some datagram :=
    ⟨_, Socket.unread_eq_some_iff.2 ⟨hd, rfl⟩⟩
  have hunread' : (t.get slot').unread = some datagram := h.unread_eq ▸ hunread
  refine Attempt.mirrors_of_run_eq (run_read h.length_le hunread capacity)
    (run_read (w := w.beside t j) h.length_le' hunread' capacity) ?_
  exact ⟨rfl, rfl, rfl⟩

theorem receive_abreast (hp : Net.Mirrored (Abreast port slot slot') p.poll) (capacity : Nat)
    (timeout : UInt64) (h : Abreast port slot slot' w.host.udp t) :
    Attempt.Mirrors .any (receive p slot capacity timeout)
      (receive p slot' capacity timeout) w t j := by
  have hready (h : Host) (t : Sockets) (ha : Abreast port slot slot' h.udp t) :
      ready slot' { h with udp := t } = ready slot h := by
    rw [ready, ready, Sockets.slot_eq_ok ha.mem.1, Sockets.slot_eq_ok ha.mem'.1]
    show (t.get slot').hasData = (h.udp.get slot).hasData
    rw [← Socket.isSome_unread, ← Socket.isSome_unread, ha.unread_eq]
  refine mirrors_slot_bind h ?_
  refine Attempt.mirrors_lift_bind (Net.waitUntil_mirrors hp timeout hready h)
    fun met v t j hrun h => ?_
  obtain ⟨w₁, -, hends⟩ := Net.exists_turns_of_waitUntil hrun
  cases met with
  | false => exact Attempt.Mirrored.throw .timeout trivial
  | true =>
    have hdata := Sockets.hasData_of_ready (Sockets.slot_eq_ok h.mem.1) hends.eq_done.symm
    exact mirrors_slot_bind h (read_abreast h hdata capacity)

end Udp

namespace Dns

open Udp

variable [Link.Device δ] {w : World δ} {t : Sockets} {j : List Moment} {slot slot' : Slot}
  {p : Poller δ}

theorem lookup_mirrors (hp : ∀ port slot slot', Net.Mirrored (Abreast port slot slot') p.poll)
    (name : String) (hs : w.host.udp.free? = some slot) (hs' : t.free? = some slot')
    (hi : w.host.udp.Intercepts (queryPort w.host.nextQueryId) ↔
      t.Intercepts (queryPort w.host.nextQueryId)) :
    Attempt.Mirrors .any (lookup p name) (lookup p name) w t j := by
  have hany (R : Tie) (t t' : Sockets) : R t t' → Tie.any t t' := fun _ => trivial
  rw [lookup]
  cases Ipv4.Address.parse? name with
  | some ip => exact Attempt.Mirrored.pure ip trivial
  | none =>
    have hid (w : World δ) : (modifyGet takeId : Attempt δ UInt16).run w =
        .ok (.ok w.host.nextQueryId, (takeId w).2) := rfl
    refine Attempt.mirrors_bind_of_eq_ok (hid w) (hid (w.beside t j)) ?_
    obtain ⟨outcome, houtcome⟩ := exists_query w.host.nextQueryId name maxMessage
    have hbuilt (w₁ : World δ) : (Net.check (query w.host.nextQueryId name maxMessage) :
        Attempt δ (Except NetError Bytes)).run w₁ = .ok (.ok outcome, w₁) := by
      rw [houtcome]
      rfl
    refine Attempt.mirrors_bind_of_eq_ok (hbuilt (takeId w).2) (hbuilt ((takeId w).2.beside t j)) ?_
    generalize hw₁ : (takeId w).2 = w₁
    have hs₁ : w₁.host.udp.free? = some slot := by rwa [← hw₁]
    have hi₁ : w₁.host.udp.Intercepts (queryPort w.host.nextQueryId) ↔
        t.Intercepts (queryPort w.host.nextQueryId) := by rwa [← hw₁]
    cases outcome with
    | error e => exact Attempt.Mirrored.throw e trivial
    | ok query =>
      have hquery (w : World δ) : (Attempt.ofExcept (.ok query) : Attempt δ Bytes).run w =
        .ok (.ok query, w) := rfl
      refine Attempt.mirrors_bind_of_eq_ok (hquery w₁) (hquery (w₁.beside t j)) ?_
      refine Attempt.mirrors_bind_of_eq_ok (Attempt.run_get w₁) (Attempt.run_get (w₁.beside t j)) ?_
      -- From here on each run has a socket of its own.
      refine mirrors_openSocket_bind hs₁ hs' hi₁ fun w t j h => ?_
      refine Attempt.Mirrors.bind (hany _)
        (Attempt.mirrors_outcome (send_abreast (hp _ _ _) _ port query h)) fun result w t j h => ?_
      cases result with
      | error cause => exact mirrors_close_bind _ _ (.throw cause)
      | ok _ =>
        refine Attempt.Mirrors.bind (hany _) (Attempt.Mirrored.modify (.record _) h)
          fun _ w t j h => ?_
        refine Attempt.Mirrors.bind (hany _)
          (Attempt.mirrors_outcome (receive_abreast (hp _ _ _) maxMessage _ h))
          fun received w t j _ => mirrors_close_bind _ _ ?_
        split
        · exact .throw _
        · exact .throw _
        · exact .bind (.ofExcept _) fun ip => .bind (.modify (.record _)) fun _ => .pure ip

end Dns

variable {w w' : World δ}

theorem World.Beside.of_runs_udpOpen [Link.Device δ] {port : UInt16}
    (h : (Operation.udpOpen port).Runs w w') : w.Beside w' := by
  obtain ⟨fuel, h⟩ := h
  have hrun : Attempt.Ensures (Udp.openSocket port) w fun _ v => w.Beside v := by
    rw [Udp.openSocket, Attempt.ensures_bind, Attempt.ensures_get]
    dsimp only
    cases w.host.udp.free? with
    | none => exact ⟨rfl, rfl, rfl⟩
    | some slot => exact ⟨rfl, rfl, rfl⟩
  have hperform : Net.Ensures (Operation.attempt (Udp.openSocket port)) w fun _ v => w.Beside v :=
    (Net.ensures_bind _ _).2 hrun
  exact hperform.of_ok h

open Dns in
/-- Other sockets matter to a lookup only if one on the port of its query stands before its own. -/
theorem lookups_agree [Link.Device δ] (h : w.Beside w')
    (hfree : w.host.udp.free?.isSome = true) (hfree' : w'.host.udp.free?.isSome = true)
    (hi : w.host.udp.Intercepts (queryPort w.host.nextQueryId) ↔
      w'.host.udp.Intercepts (queryPort w.host.nextQueryId)) (fuel : Nat) (name : String) :
    ((lookup (Poller.ofFuel fuel) name).run w').map Prod.fst =
      ((lookup (Poller.ofFuel fuel) name).run w).map Prod.fst := by
  obtain ⟨slot, hs⟩ := Option.isSome_iff_exists.1 hfree
  obtain ⟨slot', hs'⟩ := Option.isSome_iff_exists.1 hfree'
  have hp (port : UInt16) (slot slot' : Udp.Slot) :
      Net.Mirrored (Abreast port slot slot') (Poller.ofFuel fuel : Poller δ).poll :=
    Net.poll_mirrored Abreast.lasting fuel
  obtain ⟨t', j', he, -⟩ := lookup_mirrors (j := w'.journal) hp name hs hs' hi
  rw [h.eq_beside, he]
  cases (lookup (Poller.ofFuel fuel) name).run w with
  | ok _ => rfl
  | error _ => rfl

namespace Dns

def response : Bytes :=
  Header.encode ⟨1, 0x8180, 0, 1, 0, 0⟩ ++ [0, 0, 1, 0, 1, 0, 0, 0, 60, 0, 4, 93, 184, 216, 34]

def served : World Link.Script :=
  (World.start ⟨[], 0, [], [(0, [.frame (Udp.letter 1025 response)])]⟩ ⟨0, 500, []⟩
    Interface.default).after 4 [.arpLearn Interface.default.gateway Tcp.peer.mac]

end Dns

open Dns in
theorem lookups_agree_elsewhere :
    let w' := served.after 4 [.udpOpen 1026]
    served.Beside w' ∧
      ((lookup (Poller.ofFuel 9) "a.b").run served).map Prod.fst = .ok (.ok 0x5DB8D822) ∧
      ((lookup (Poller.ofFuel 9) "a.b").run w').map Prod.fst = .ok (.ok 0x5DB8D822) := by
  intro w'
  have hbeside : served.Beside w' := .of_runs_udpOpen (Operation.runs_after (by decide +kernel))
  have hi : served.host.udp.Intercepts (queryPort served.host.nextQueryId) ↔
      w'.host.udp.Intercepts (queryPort served.host.nextQueryId) :=
    iff_of_false (by decide +kernel) (by decide +kernel)
  have hrun : ((lookup (Poller.ofFuel 9) "a.b").run served).map Prod.fst =
      .ok (.ok 0x5DB8D822) := by decide +kernel
  have hagree := lookups_agree hbeside (by decide +kernel) (by decide +kernel) hi 9 "a.b"
  exact ⟨hbeside, hrun, hagree.trans hrun⟩

open Dns in
/-- A socket on the port of the query takes the response. -/
theorem lookups_differ :
    let w := served.after 4 [.udpOpen 1026]
    let w' := served.after 4 [.udpOpen 1025]
    Reachable w ∧ Reachable w' ∧ w.Beside w' ∧
      w.host.udp.free?.isSome = true ∧ w'.host.udp.free?.isSome = true ∧
      ((lookup (Poller.ofFuel 9) "a.b").run w).map Prod.fst = .ok (.ok 0x5DB8D822) ∧
      ((lookup (Poller.ofFuel 9) "a.b").run w').map Prod.fst = .ok (.error .dnsNoResponse) := by
  intro w w'
  have hserved : Reachable served := .after (.start ..) 4 _
  have hw : served.Beside w := .of_runs_udpOpen (Operation.runs_after (by decide +kernel))
  have hw' : served.Beside w' := .of_runs_udpOpen (Operation.runs_after (by decide +kernel))
  refine ⟨hserved.after 4 _, hserved.after 4 _, hw.symm.trans hw', ?_, ?_, ?_, ?_⟩
  all_goals decide +kernel

end InetHost
