import InetHost.Proofs.Arp.Resolution
import InetHost.Proofs.Host.Acts

/-! What a lookup leaves behind. However it ends, it has given its socket back, and no frame that is read
meanwhile opens or closes another; it has taken one number for a query, unless the name was an address. -/

namespace InetHost

variable {δ : Type} {w w₁ w' : World δ}

namespace Udp

def Socket.openPort? (s : Socket) : Option UInt16 := if s.inUse then some s.port else none

namespace Sockets

def ports (t : Sockets) (slot : Slot) : Option UInt16 := (t.get slot).openPort?

variable {t : Sockets} {slot : Slot}

theorem ports_modify (t : Sockets) (slot : Slot) (f : Socket → Socket) :
    (t.modify slot f).ports = Function.update t.ports slot (f (t.get slot)).openPort? := by
  funext i
  rw [ports, get_modify]
  by_cases h : slot = i
  · rw [if_pos h, ← h, Function.update_self]
  · rw [if_neg h, Function.update_of_ne (Ne.symm h)]
    rfl

theorem ports_modify_of_eq {f : Socket → Socket}
    (h : (f (t.get slot)).openPort? = (t.get slot).openPort?) :
    (t.modify slot f).ports = t.ports := by
  rw [ports_modify, h]
  exact Function.update_eq_self slot t.ports

theorem ports_openAt (t : Sockets) (slot : Slot) (port : UInt16) :
    (t.openAt slot port).ports = Function.update t.ports slot (some port) :=
  ports_modify ..

theorem ports_close (t : Sockets) (slot : Slot) :
    (t.close slot).ports = Function.update t.ports slot none :=
  ports_modify ..

theorem ports_of_free? (h : t.free? = some slot) : t.ports slot = none := by
  have hfree : (!(t.get slot).inUse) = true := Slots.of_first?_eq_some h
  rw [Bool.not_eq_true'] at hfree
  rw [ports, Socket.openPort?, hfree]
  rfl

end Sockets

end Udp

/-- The open sockets are the same, and no number is taken for a query. -/
structure World.Tenanted (w w' : World δ) : Prop where
  ports_eq : w'.host.udp.ports = w.host.udp.ports
  query_eq : w'.host.nextQueryId = w.host.nextQueryId

namespace World.Tenanted

theorem refl (w : World δ) : w.Tenanted w := ⟨rfl, rfl⟩

theorem trans (h : w.Tenanted w₁) (h' : w₁.Tenanted w') : w.Tenanted w' :=
  ⟨h'.ports_eq.trans h.ports_eq, h'.query_eq.trans h.query_eq⟩

end World.Tenanted

variable [Link.Device δ] {p : Poller δ}

theorem World.Act.tenanted (h : w.Act w') : w.Tenanted w' := by
  cases h with
  | noteReply => constructor <;> rw [Icmp.host_noteReply]
  | store slot d => exact ⟨Udp.Sockets.ports_modify_of_eq rfl, rfl⟩
  | _ => exact ⟨rfl, rfl⟩

theorem World.Acts.tenanted (h : w.Acts w') : w.Tenanted w' := by
  induction h with
  | refl => exact .refl w
  | tail _ hact ih => exact ih.trans hact.tenanted

namespace Udp

omit [Link.Device δ] in
theorem openSocket_ports (port : UInt16) : Attempt.Ensures (openSocket port) w fun r w' =>
    w'.host.nextQueryId = w.host.nextQueryId ∧
      match r with
      | .ok handle => ∃ slot : Slot, handle = slot ∧ w.host.udp.ports slot = none ∧
          w'.host.udp.ports = Function.update w.host.udp.ports slot (some port)
      | .error _ => w'.host.udp.ports = w.host.udp.ports := by
  rw [openSocket, Attempt.ensures_bind, Attempt.ensures_get]
  dsimp only
  cases hs : w.host.udp.free? with
  | none => exact ⟨rfl, rfl⟩
  | some slot => exact ⟨rfl, slot, rfl, Sockets.ports_of_free? hs, Sockets.ports_openAt ..⟩

theorem tenanted_of_send (hp : Net.Acting p.poll) {handle : Nat} {dest : Ipv4.Address}
    {port : UInt16} {payload : Bytes} {result : Except NetError Unit}
    (h : (send p handle dest port payload).run w = .ok (result, w')) : w.Tenanted w' := by
  rw [run_send] at h
  cases hs : w.host.udp.slot handle with
  | error cause =>
    rw [hs] at h
    obtain ⟨-, rfl⟩ := Prod.mk.inj (Except.ok.inj h)
    exact .refl w
  | ok slot =>
    rw [hs] at h
    dsimp only at h
    split at h
    · obtain ⟨-, rfl⟩ := Prod.mk.inj (Except.ok.inj h)
      exact .refl w
    · rename_i hl
      have hm := length_encode_le (w.host.udp.get slot).port port (Nat.le_of_not_lt hl)
      obtain ⟨way, w₁, hway, hforwarded⟩ := Ipv4.exists_forwarded_of_send hm h
      have hwaited : w.Tenanted w₁ := (Arp.resolve_acting hp dest _ hway).tenanted
      cases way with
      | ok mac =>
        obtain ⟨-, rfl⟩ := hforwarded
        exact hwaited.trans ⟨rfl, rfl⟩
      | error _ =>
        obtain ⟨-, rfl⟩ := hforwarded
        exact hwaited

theorem send_tenanted (hp : p.Evolving) (ha : Net.Acting p.poll) (handle : Nat)
    (dest : Ipv4.Address) (port : UInt16) (payload : Bytes) (hw : w.Safe) :
    Attempt.Ensures (send p handle dest port payload) w fun _ w' => w.Tenanted w' ∧ w'.Safe := by
  refine (Net.Ensures.and_run (send_ensures .poll hp handle dest port payload hw.valid)).mono
    fun _ w' h => ?_
  exact ⟨tenanted_of_send ha h.1, h.2.safe hw⟩

theorem receive_tenanted (hp : p.Evolving) (ha : Net.Acting p.poll) (handle capacity : Nat)
    (timeout : UInt64) (hw : w.Safe) :
    Attempt.Ensures (receive p handle capacity timeout) w fun _ w' => w.Tenanted w' := by
  rw [receive, slot]
  simp only [Attempt.ensures_bind, Attempt.ensures_get, Attempt.ensures_ofExcept]
  cases w.host.udp.slot handle with
  | error e => exact .refl w
  | ok _ =>
    simp only [Attempt.ensures_lift]
    refine (Net.waitUntil_ensures hp timeout _ hw.valid).and_run.mono fun _ w₁ h₁ => ?_
    obtain ⟨hr, hevolves, -⟩ := h₁
    have hwaited : w.Tenanted w₁ := (Net.waitUntil_acting ha timeout _ hr).tenanted
    split
    · simp only [Attempt.ensures_bind, Attempt.ensures_get, Attempt.ensures_ofExcept]
      cases w₁.host.udp.slot handle with
      | error e => exact hwaited
      | ok slot =>
        have hlength := ((hevolves.safe hw).tidy slot).length_le
        have htaken : w₁.Tenanted (take slot w₁) := ⟨Sockets.ports_modify_of_eq rfl, rfl⟩
        exact (read_ensures hlength capacity).2 (hwaited.trans htaken)
    · exact hwaited

end Udp

namespace Dns

open Udp

omit [Link.Device δ] in
theorem ports_close_of_tenanted {slot : Slot} {port : UInt16} {ports : Slot → Option UInt16}
    (hfree : ports slot = none) (hopen : w.host.udp.ports = Function.update ports slot (some port))
    (h : w.Tenanted w') : (close slot w').host.udp.ports = ports := by
  rw [close_slot]
  show (w'.host.udp.close slot).ports = ports
  rw [Sockets.ports_close, h.ports_eq, hopen, Function.update_idem, ← hfree]
  exact Function.update_eq_self slot ports

theorem lookup_ports (hp : p.Evolving) (ha : Net.Acting p.poll) {name : String}
    (hn : Ipv4.Address.parse? name = none) (hw : w.Safe) :
    Attempt.Ensures (lookup p name) w fun _ w' =>
      w'.host.udp.ports = w.host.udp.ports ∧ w'.host.nextQueryId = w.host.nextQueryId + 1 := by
  rw [lookup, hn]
  obtain ⟨query, hquery⟩ := exists_query (takeId w).1 name maxMessage
  simp only [Attempt.ensures_bind, Attempt.ensures_modifyGet, Attempt.ensures_check hquery,
    Attempt.ensures_ofExcept]
  have hw₁ : (takeId w).2.Safe := ⟨hw.valid, hw.tidy⟩
  split
  · simp only [Attempt.ensures_get]
    refine (Net.Ensures.and (openSocket_ports _) (openSocket_ensures .poll _)).mono
      fun r w₂ h₂ => ?_
    obtain ⟨⟨hid, hports⟩, hopened⟩ := h₂
    cases r with
    | error cause => exact ⟨hports, hid⟩
    | ok handle =>
      obtain ⟨slot, rfl, hfree, hopen⟩ := hports
      have hclosed {w₃ : World δ} (h : w₂.Tenanted w₃) :
          (close slot w₃).host.udp.ports = w.host.udp.ports ∧
            (close slot w₃).host.nextQueryId = w.host.nextQueryId + 1 :=
        ⟨ports_close_of_tenanted hfree hopen h, by rw [close_slot]; exact h.query_eq.trans hid⟩
      simp only [Attempt.ensures_outcome]
      refine (send_tenanted hp ha slot _ port _ (hopened.safe hw₁)).mono fun r w₃ h₃ => ?_
      obtain ⟨hsent, hw₃⟩ := h₃
      cases r with
      | error cause => exact hclosed hsent
      | ok _ =>
        simp only [Attempt.ensures_bind, Attempt.ensures_modify, Attempt.ensures_outcome]
        have hw₄ : (w₃.record
          (.dnsQueried name (takeId w).1 (takeId w).2.interface.dnsServer)).Safe :=
          ⟨hw₃.valid, hw₃.tidy⟩
        refine (receive_tenanted hp ha slot maxMessage Timeouts.lookup hw₄).mono fun r w₅ h₅ => ?_
        have hend := hclosed (hsent.trans ⟨h₅.ports_eq, h₅.query_eq⟩)
        -- The socket is closed before the response is looked at.
        split
        · exact hend
        · exact hend
        · rw [Attempt.ensures_bind, Attempt.ensures_ofExcept]
          split
          · exact hend
          · exact hend
  · exact ⟨rfl, rfl⟩

end Dns

open Dns in
/-- However a lookup ends, the open sockets are those of before, and one query number has been taken. -/
theorem lookup_gives_socket_back (hw : Reachable w) (name : String) :
    (∀ ip fuel, Ipv4.Address.parse? name = some ip →
      (lookup (Poller.ofFuel fuel) name).run w = .ok (.ok ip, w)) ∧
    (Ipv4.Address.parse? name = none →
      (∀ fuel fault, (lookup (Poller.ofFuel fuel) name).run w ≠ .error (.fault fault)) ∧
      (∀ limit < 2 ^ 28, Link.DeliversAtMost limit w.device → w.clock.Steady (2 ^ 28) →
        w.clock.now.toNat ≤ 2 ^ 63 → ∃ least, ∀ fuel ≥ least, ∃ result w',
          (lookup (Poller.ofFuel fuel) name).run w = .ok (result, w')) ∧
      ∀ fuel result w', (lookup (Poller.ofFuel fuel) name).run w = .ok (result, w') →
        w'.host.udp.ports = w.host.udp.ports ∧
        w'.host.nextQueryId = w.host.nextQueryId + 1) := by
  refine ⟨fun ip fuel hip => ?_, fun hn => ?_⟩
  · rw [lookup, hip]
    rfl
  have hports (fuel : Nat) := lookup_ports (Poller.evolving_ofFuel fuel) (Net.poll_acting fuel) hn
    hw.safe
  refine ⟨fun fuel fault => (hports fuel).ne_fault fault, ?_, fun fuel result w' hr => ?_⟩
  · exact Attempt.ends_of_perform hw (.lookup name) trivial fun _ => rfl
  · exact Net.Ensures.of_ok (hports fuel) hr

open Dns in
theorem lookup_gives_socket_back_unsent : Reachable Udp.listening ∧
    Ipv4.Address.parse? "a.b" = none ∧ ∃ w',
      (lookup (Poller.ofFuel 9) "a.b").run Udp.listening = .ok (.error .arpFailed, w') ∧
      Udp.listening.host.udp.ports 0 = some 7 ∧
      w'.host.udp.ports = Udp.listening.host.udp.ports ∧
      w'.host.nextQueryId = Udp.listening.host.nextQueryId + 1 := by
  have hw : Reachable Udp.listening := .after (.start ..) 4 _
  have hn : Ipv4.Address.parse? "a.b" = none := by decide +kernel
  have hfails : ((lookup (Poller.ofFuel 9) "a.b").run Udp.listening).map Prod.fst =
      .ok (.error .arpFailed) := by decide +kernel
  obtain ⟨_, w', hr, rfl⟩ := Net.exists_of_map_eq_ok hfails
  have h := ((lookup_gives_socket_back hw "a.b").2 hn).2.2 9 _ w' hr
  exact ⟨hw, hn, w', hr, by decide +kernel, h⟩

end InetHost
