import InetHost.Proofs.Host.Handling

/-! Every operation comes to its end on a device that delivers finitely many frames. What an operation
may cost is known beforehand, in credits and in time; the credits in the world and those of the
operation bound all polls that it leads to, and the clock stays within the time that they buy. -/

namespace InetHost

open World

variable {δ : Type} [Link.Device δ] {ration : Link.Ration δ} {limit bound : Nat} {p : Poller δ}
  {b : Budget} {r s : Nat} {w : World δ}

def Budget.turn (b : Budget) (bound : Nat) : Nat := bound + 5000 + 3 * b.span

def Poller.Patient (bound : Nat) (p : Poller δ) : Prop := bound + 5002 ≤ p.rounds

section Icmp

open Icmp

theorem Icmp.ping_finishes (hp : p.Thrifty ration limit) (hb : b.credits ≤ limit)
    (hw : p.Patient bound) (dest : Ipv4.Address) (sequence : UInt16)
    (h : w.Funded ration b (r + 6) (s + b.turn bound)) :
    Attempt.Finishes (ping p dest sequence) w fun _ w' => w'.Funded ration b r s := by
  have hspan : b.pace ≤ b.span := b.pace_le_span
  have hwait : 3000 + 3 * b.pace ≤ 5000 + b.span := by
    unfold Budget.span
    omega
  have hask : w.Funded ration b (r + 4 + 2) (s + (5000 + 2 * b.span) + b.span) := by
    apply h.mono (Nat.le_refl _)
    unfold Budget.turn
    omega
  rw [ping, Attempt.finishes_bind, Ipv4.nextHopMac, Attempt.finishes_adapt]
  refine (Arp.resolve_finishes_of_le hp hb dest (by decide) hask).mono fun result w₁ h₁ => ?_
  cases result with
  | error e => exact h₁.mono (Nat.le_add_right _ _) (Nat.le_add_right _ _)
  | ok mac =>
    dsimp only [Attempt.mapError_ok]
    rw [Attempt.finishes_bind, Attempt.finishes_modifyGet]
    dsimp only
    rw [Attempt.finishes_bind, Attempt.finishes_modify]
    dsimp only
    have hread : w₁.readClock.2.Funded ration b (r + (1 + 3)) (s + (5000 + b.span)) := by
      apply World.Funded.readClock
      exact h₁.mono (Nat.le_refl _) (by omega)
    have hready : (w₁.readClock.2.update fun h => { h with lastReply := none }).Funded ration b
        (r + (1 + 3)) (s + (5000 + b.span)) := hread.of_tcp_eq rfl rfl rfl
    rw [Attempt.finishes_bind]
    refine (Ipv4.transmit_finishes mac dest .icmp _ (Nat.le_of_ble_eq_true rfl)
      (Icmp.stake_le _) hready).mono fun result w₂ h₂ => ?_
    cases result with
    | error e => exact h₂.mono (Nat.le_refl _) (Nat.le_add_right _ _)
    | ok _ =>
      dsimp only
      rw [Attempt.finishes_bind, Attempt.finishes_lift]
      have hrounds : Timeouts.ping.toNat + 2 ≤ p.rounds := by
        have hping : Timeouts.ping.toNat = 3000 := rfl
        unfold Poller.Patient at hw
        omega
      have htime : w₂.Funded ration b r (s + (Timeouts.ping.toNat + 3 * b.pace)) :=
        h₂.mono (Nat.le_refl _) (Nat.add_le_add_left hwait s)
      refine (Net.waitUntil_finishes hp hb _ _ hrounds htime).mono fun _ w₃ h₃ => ?_
      dsimp only
      rw [Attempt.finishes_bind, Attempt.finishes_get]
      dsimp only
      split
      · exact h₃
      · exact h₃

theorem Icmp.probes_finishes (hp : p.Thrifty ration limit) (hb : b.credits ≤ limit)
    (hw : p.Patient bound) (dest : Ipv4.Address) (isOwn : Bool) (count index : Nat)
    (stats : PingStats) (h : w.Funded ration b (r + 6 * count) (s + count * b.turn bound)) :
    Net.Finishes (probes p dest isOwn count index stats) w
      fun _ w' => w'.Funded ration b r s := by
  induction count generalizing index stats w with
  | zero => exact h.mono (Nat.le_add_right _ _) (Nat.le_add_right _ _)
  | succ count ih =>
    have hturn : (count + 1) * b.turn bound = count * b.turn bound + b.turn bound :=
      Nat.succ_mul count _
    rw [probes]
    split
    · have hrest : w.Funded ration b (r + 6 * count) (s + count * b.turn bound) :=
        h.mono (by omega) (by omega)
      rw [Net.finishes_bind, Net.finishes_modify]
      exact ih _ _ (hrest.record _)
    · have hone : w.Funded ration b (r + 6 * count + 6)
          (s + count * b.turn bound + b.turn bound) := h.mono (by omega) (by omega)
      rw [Net.finishes_bind, Attempt.finishes_run]
      refine (ping_finishes hp hb hw dest _ hone).mono fun result w₁ h₁ => ?_
      split
      · rw [Net.finishes_bind, Net.finishes_modify]
        exact ih _ _ (h₁.record _)
      · rw [Net.finishes_bind, Net.finishes_modify]
        exact (h₁.record _).mono (Nat.le_add_right _ _) (Nat.le_add_right _ _)
      · rw [Net.finishes_bind, Net.finishes_modify]
        exact ih _ _ (h₁.record _)

theorem Icmp.pingHost_finishes (hp : p.Thrifty ration limit) (hb : b.credits ≤ limit)
    (hw : p.Patient bound) (dest : Ipv4.Address) (count : UInt32)
    (h : w.Funded ration b (r + 6 * count.toNat) (s + count.toNat * b.turn bound)) :
    Net.Finishes (pingHost p dest count) w fun _ w' => w'.Funded ration b r s := by
  rw [pingHost, Net.finishes_bind, Net.finishes_get, Net.finishes_bind, Net.finishes_modify,
    Net.finishes_bind]
  refine (probes_finishes hp hb hw dest _ _ _ _ (h.record _)).mono fun _ w₁ h₁ => ?_
  exact h₁.record _

end Icmp

section Udp

open Udp

theorem Udp.openSocket_finishes (port : UInt16) (h : w.Funded ration b r s) :
    Attempt.Finishes (openSocket port) w fun _ w' => w'.Funded ration b r s := by
  rw [openSocket, Attempt.finishes_bind, Attempt.finishes_get]
  dsimp only
  split
  · exact h.record _
  · exact (h.of_tcp_eq rfl rfl rfl : (modifySockets _ w).Funded ration b r s).record _

theorem Udp.send_finishes (hp : p.Thrifty ration limit) (hb : b.credits ≤ limit) (handle : Nat)
    (dest : Ipv4.Address) (port : UInt16) (payload : Bytes)
    (h : w.Funded ration b (r + 6) (s + b.span)) :
    Attempt.Finishes (send p handle dest port payload) w fun _ w' => w'.Funded ration b r s := by
  have hrest : w.Funded ration b r s := h.drop
  rw [send, localPort, slot]
  simp only [Attempt.finishes_bind, Attempt.finishes_get, Attempt.finishes_ofExcept]
  cases w.host.udp.slot handle with
  | error e => exact hrest
  | ok slot =>
    simp only [Attempt.finishes_pure]
    split
    · exact hrest
    · rw [Attempt.finishes_bind, Attempt.finishes_check]
      intro datagram _
      exact Ipv4.send_finishes hp hb dest .udp (Ipv4.Protocol.stake_le .udp datagram) h

theorem Udp.receive_finishes (hp : p.Thrifty ration limit) (hb : b.credits ≤ limit)
    (handle capacity : Nat) (timeout : UInt64) (hr : timeout.toNat + 2 ≤ p.rounds)
    (h : w.Funded ration b r (s + (timeout.toNat + 3 * b.pace))) :
    Attempt.Finishes (receive p handle capacity timeout) w
      fun _ w' => w'.Funded ration b r s := by
  rw [receive, slot]
  simp only [Attempt.finishes_bind, Attempt.finishes_get, Attempt.finishes_ofExcept]
  cases w.host.udp.slot handle with
  | error e => exact h.mono (Nat.le_refl _) (Nat.le_add_right _ _)
  | ok _ =>
    simp only [Attempt.finishes_lift]
    refine (Net.waitUntil_finishes hp hb timeout _ hr h).mono fun _ w₁ h₁ => ?_
    split
    · simp only [Attempt.finishes_bind, Attempt.finishes_get, Attempt.finishes_ofExcept]
      cases w₁.host.udp.slot handle with
      | error e => exact h₁
      | ok slot =>
        simp only [read, Attempt.finishes_bind, Attempt.finishes_get, Attempt.finishes_check]
        intro payload _
        exact (h₁.record _).of_tcp_eq rfl rfl rfl
    · exact h₁

theorem Udp.close_funded (handle : Nat) (h : w.Funded ration b r s) :
    (close handle w).Funded ration b r s := by
  unfold close
  split
  · exact (h.record _).of_tcp_eq rfl rfl rfl
  · exact h

end Udp

theorem Dns.lookup_finishes (hp : p.Thrifty ration limit) (hb : b.credits ≤ limit)
    (hw : p.Patient bound) (name : String) (h : w.Funded ration b (r + 6) (s + b.turn bound)) :
    Attempt.Finishes (lookup p name) w fun _ w' => w'.Funded ration b r s := by
  have hrest : w.Funded ration b r s := h.drop
  have hwait : 3000 + 3 * b.pace ≤ 5000 + b.span := by
    unfold Budget.span
    omega
  have hrounds : Timeouts.lookup.toNat + 2 ≤ p.rounds := by
    have hlookup : Timeouts.lookup.toNat = 3000 := rfl
    unfold Poller.Patient at hw
    omega
  rw [lookup]
  cases Ipv4.Address.parse? name with
  | some ip => exact hrest
  | none =>
    have hid : (takeId w).2.Funded ration b (r + 6) (s + b.turn bound) := h.of_tcp_eq rfl rfl rfl
    simp only [Attempt.finishes_bind, Attempt.finishes_modifyGet, Attempt.finishes_check,
      Attempt.finishes_ofExcept]
    intro query _
    split
    · simp only [Attempt.finishes_get]
      refine (Udp.openSocket_finishes _ hid).mono fun result w₁ h₁ => ?_
      cases result with
      | error e => exact h₁.drop
      | ok handle =>
        have hsend : w₁.Funded ration b (r + 6)
            (s + (Timeouts.lookup.toNat + 3 * b.pace) + b.span) := by
          have hlookup : Timeouts.lookup.toNat = 3000 := rfl
          apply h₁.mono (Nat.le_refl _)
          unfold Budget.turn
          omega
        simp only [Attempt.finishes_outcome]
        refine (Udp.send_finishes hp hb handle _ _ _ hsend).mono fun result w₂ h₂ => ?_
        cases result with
        | error e =>
          exact (Udp.close_funded handle h₂).mono (Nat.le_refl _) (Nat.le_add_right _ _)
        | ok _ =>
          simp only [Attempt.finishes_bind, Attempt.finishes_modify, Attempt.finishes_outcome]
          refine (Udp.receive_finishes hp hb handle _ _ hrounds (h₂.record _)).mono
            fun result w₃ h₃ => ?_
          have hclosed : (Udp.close handle w₃).Funded ration b r s := Udp.close_funded handle h₃
          split
          · exact hclosed
          · exact hclosed
          · rw [Attempt.finishes_bind, Attempt.finishes_ofExcept]
            split
            · exact hclosed.record _
            · exact hclosed
    · exact hid.drop

section Tcp

open Tcp

omit [Link.Device δ] in
theorem Tcp.finishes_slot_bind {α : Type} {handle : Nat} {f : Slot → Attempt δ α}
    {Q : Except NetError α → World δ → Prop} (he : ∀ e, Q (.error e) w)
    (hf : ∀ slot, Attempt.Finishes (f slot) w Q) : Attempt.Finishes (slot handle >>= f) w Q := by
  rw [Attempt.finishes_bind, Attempt.finishes_of_run_eq (run_slot handle w)]
  cases w.host.tcp.slot handle with
  | error e => exact he e
  | ok slot => exact hf slot

theorem Tcp.openSocket_finishes (h : w.Funded ration b r s) :
    Attempt.Finishes openSocket w fun _ w' => w'.Funded ration b r s := by
  rw [openSocket, Attempt.finishes_bind, Attempt.finishes_get]
  dsimp only
  split
  · exact h.record _
  · rename_i slot _
    refine h.congr rfl rfl (listeners_mono ?_)
    intro i hi
    rw [socketAt_openAt] at hi
    split at hi
    · cases hi
    · exact hi

theorem Tcp.settle_finishes (slot : Slot) (settled : Bool) (ip : Ipv4.Address) (port : UInt16)
    (h : w.Funded ration b r s) :
    Attempt.Finishes (settle slot settled ip port) w fun _ w' => w'.Funded ration b r s := by
  rw [settle, Attempt.finishes_bind, Attempt.finishes_get]
  dsimp only
  split
  · exact h.record _
  · split
    · exact h.setState (by decide)
    · cases settled with
      | true => exact h.setState (by decide)
      | false => exact (h.record _).setState (by decide)

theorem Tcp.connect_finishes (hp : p.Thrifty ration limit) (hb : b.credits ≤ limit)
    (hw : p.Patient bound) (handle : Nat) (ip : Ipv4.Address) (port : UInt16)
    (h : w.Funded ration b (r + 6) (s + b.turn bound)) :
    Attempt.Finishes (connect p handle ip port) w fun _ w' => w'.Funded ration b r s := by
  have hrest : w.Funded ration b r s := h.drop
  have hwait : 5000 + 3 * b.pace ≤ 5000 + b.span := by
    unfold Budget.span
    omega
  have hrounds : Timeouts.connect.toNat + 2 ≤ p.rounds := by
    have hconnect : Timeouts.connect.toNat = 5000 := rfl
    unfold Poller.Patient at hw
    omega
  rw [connect]
  refine finishes_slot_bind (fun _ => hrest) fun slot => ?_
  simp only [Attempt.finishes_bind, Attempt.finishes_get]
  split
  · exact hrest
  · simp only [Attempt.finishes_bind, Attempt.finishes_modify, Attempt.finishes_outcome]
    have hdial : (dial slot ip port w).Funded ration b (r + (3 + 3))
        (s + (Timeouts.connect.toNat + 3 * b.pace) + b.span) := by
      have hconnect : Timeouts.connect.toNat = 5000 := rfl
      apply ((h.mono (Nat.le_refl _) ?_).updateSocket id).setState (by decide)
      unfold Budget.turn
      omega
    refine (sendSegment_finishes hp hb slot _ [] (stake_le _) hdial).mono fun result w₁ h₁ => ?_
    cases result with
    | error e =>
      have hclosed : (setState slot .closed w₁).Funded ration b r
          (s + (Timeouts.connect.toNat + 3 * b.pace)) := h₁.setState (by decide)
      exact hclosed.mono (Nat.le_refl _) (Nat.le_add_right _ _)
    | ok _ =>
      simp only [Attempt.finishes_bind, Attempt.finishes_modify, Attempt.finishes_lift]
      have hadvanced : (advanceSeq slot 1 w₁).Funded ration b r
          (s + (Timeouts.connect.toNat + 3 * b.pace)) := h₁.updateSocket id
      refine (Net.waitUntil_finishes hp hb _ _ hrounds hadvanced).mono fun settled w₂ h₂ => ?_
      exact settle_finishes slot settled ip port h₂

theorem Tcp.send_finishes (hp : p.Thrifty ration limit) (hb : b.credits ≤ limit) (handle : Nat)
    (data : Bytes) (h : w.Funded ration b (r + 6) (s + b.span)) :
    Attempt.Finishes (send p handle data) w fun _ w' => w'.Funded ration b r s := by
  have hrest : w.Funded ration b r s := h.drop
  rw [send]
  refine finishes_slot_bind (fun _ => hrest) fun slot => ?_
  simp only [Attempt.finishes_bind, Attempt.finishes_get]
  split
  · exact hrest
  · split
    · exact hrest
    · simp only [Attempt.finishes_bind, Attempt.finishes_modify]
      refine (sendSegment_finishes hp hb slot _ data (stake_le _) h).mono fun result w₁ h₁ => ?_
      cases result with
      | error e => exact h₁
      | ok _ => exact h₁.updateSocket id

theorem Tcp.receive_finishes (hp : p.Thrifty ration limit) (hb : b.credits ≤ limit)
    (handle capacity : Nat) (h : w.Funded ration b r s) :
    Attempt.Finishes (receive p handle capacity) w fun _ w' => w'.Funded ration b r s := by
  rw [receive]
  refine finishes_slot_bind (fun _ => h) fun _ => ?_
  rw [Attempt.finishes_bind, Attempt.finishes_lift]
  refine (hp.poll hb h).mono fun _ w₁ h₁ => ?_
  refine finishes_slot_bind (fun _ => h₁) fun slot => ?_
  simp only [Attempt.finishes_bind, Attempt.finishes_get, Attempt.finishes_check]
  rintro ⟨buffer, data⟩ _
  exact h₁.updateSocket id

theorem Tcp.sendFin_finishes (hp : p.Thrifty ration limit) (hb : b.credits ≤ limit)
    (slot : Slot) {next : State} (hn : next ≠ .listen)
    (h : w.Funded ration b (r + 6) (s + b.span)) :
    Net.Finishes (sendFin p slot next) w fun _ w' => w'.Funded ration b r s := by
  rw [sendFin, Net.finishes_bind, Attempt.finishes_run]
  refine (sendSegment_finishes hp hb slot _ [] (stake_le _) h).mono fun result w₁ h₁ => ?_
  cases result with
  | ok _ => exact (h₁.updateSocket id).setState hn
  | error e => exact ((h₁.record _).updateSocket id).setState hn

theorem Tcp.close_finishes (hp : p.Thrifty ration limit) (hb : b.credits ≤ limit) (handle : Nat)
    (h : w.Funded ration b (r + 6) (s + b.span)) :
    Attempt.Finishes (close p handle) w fun _ w' => w'.Funded ration b r s := by
  have hrest : w.Funded ration b r s := h.drop
  rw [close]
  refine finishes_slot_bind (fun _ => hrest) fun slot => ?_
  simp only [Attempt.finishes_bind, Attempt.finishes_get]
  split
  · simp only [Attempt.finishes_bind, Attempt.finishes_lift]
    exact (sendFin_finishes hp hb slot (by decide) h).mono fun _ _ h₁ => h₁.release
  · rw [Attempt.finishes_lift]
    exact sendFin_finishes hp hb slot (by decide) h
  · exact hrest.release

theorem Tcp.shutdown_finishes (hp : p.Thrifty ration limit) (hb : b.credits ≤ limit)
    (handle : Nat) (h : w.Funded ration b (r + 6) (s + b.span)) :
    Attempt.Finishes (shutdown p handle) w fun _ w' => w'.Funded ration b r s := by
  have hrest : w.Funded ration b r s := h.drop
  rw [shutdown]
  refine finishes_slot_bind (fun _ => hrest) fun slot => ?_
  simp only [Attempt.finishes_bind, Attempt.finishes_get]
  split
  · exact hrest
  · rw [Attempt.finishes_lift]
    exact sendFin_finishes hp hb slot (by decide) h

end Tcp

namespace Operation

def probes : Operation δ → Nat
  | pingHost _ count => count.toNat
  | _ => 0

/-- The numbers that an operation is given are less than `bound`. -/
def Within (bound : Nat) : Operation δ → Prop
  | adjustDevice _ | setClock _ => False
  | arpResolve _ timeout | udpReceive _ _ timeout => timeout.toNat < bound
  | pingHost _ count => count.toNat < bound
  | _ => True

omit [Link.Device δ] in
theorem finishes_attempt {α : Type} {a : Attempt δ α} {Q : Unit → World δ → Prop}
    (h : Attempt.Finishes a w fun _ w' => Q () w') : Net.Finishes (attempt a) w Q := by
  rw [attempt, Net.finishes_bind, Attempt.finishes_run]
  exact h

/-- What an operation costs at most. -/
theorem perform_finishes (hp : p.Thrifty ration limit) (hb : b.credits ≤ limit)
    (hw : p.Patient bound) (op : Operation δ) (ho : op.Within bound)
    (h : w.Funded ration b (r + 6 * (op.probes + 1)) (s + (op.probes + 1) * b.turn bound)) :
    Net.Finishes (op.perform p) w fun _ w' => w'.Funded ration b r s := by
  have hrest : w.Funded ration b r s := h.drop
  have hturn : w.Funded ration b (r + 6) (s + b.turn bound) := by
    apply h.mono
    · omega
    · rw [Nat.succ_mul]
      omega
  have hspan : w.Funded ration b (r + 6) (s + b.span) := by
    apply hturn.mono (Nat.le_refl _)
    unfold Budget.turn
    omega
  have hwait {timeout : UInt64} (ht : timeout.toNat < bound) :
      timeout.toNat + 2 ≤ p.rounds ∧
        w.Funded ration b (r + 2) (s + (timeout.toNat + 3 * b.pace)) := by
    refine ⟨?_, hturn.mono (by omega) ?_⟩
    · unfold Poller.Patient at hw
      omega
    · have hpace := b.pace_le_span
      unfold Budget.turn
      omega
  cases op with
  | configure interface => exact hrest.of_tcp_eq rfl rfl rfl
  | adjustDevice f => exact ho.elim
  | setClock clock => exact ho.elim
  | poll =>
    rw [perform, Net.finishes_bind]
    exact hp.poll hb hrest
  | handleFrame frame =>
    have hstake := Ethernet.stake_le frame
    exact Net.handleFrame_finishes hp hb frame (hspan.mono (by omega) (Nat.le_refl _))
  | arpLearn ip mac =>
    have hread : w.readClock.2.Funded ration b r s := by
      have hpace := b.pace_le_span
      apply Funded.readClock
      exact hspan.mono (Nat.le_add_right _ _) (by omega)
    exact hread.of_tcp_eq rfl rfl rfl
  | arpRequest target =>
    apply finishes_attempt
    exact Arp.request_finishes target (h.mono (by omega) (Nat.le_add_right _ _))
  | arpResolve ip timeout =>
    obtain ⟨hrounds, hfunded⟩ := hwait ho
    apply finishes_attempt
    exact Arp.resolve_finishes hp hb ip timeout hrounds hfunded
  | ipv4Send dest protocol payload =>
    apply finishes_attempt
    exact Ipv4.send_finishes hp hb dest protocol (Ipv4.Protocol.stake_le _ _) hspan
  | ping dest sequence =>
    apply finishes_attempt
    exact Icmp.ping_finishes hp hb hw dest sequence hturn
  | pingHost dest count =>
    rw [perform, Net.finishes_bind]
    have hprobes : (pingHost dest count : Operation δ).probes = count.toNat := rfl
    rw [hprobes] at h
    apply Icmp.pingHost_finishes hp hb hw
    apply h.mono
    · omega
    · rw [Nat.succ_mul]
      omega
  | udpOpen port =>
    apply finishes_attempt
    exact Udp.openSocket_finishes port hrest
  | udpClose handle => exact Udp.close_funded handle hrest
  | udpSend handle dest port payload =>
    apply finishes_attempt
    exact Udp.send_finishes hp hb handle dest port payload hspan
  | udpReceive handle capacity timeout =>
    obtain ⟨hrounds, hfunded⟩ := hwait ho
    apply finishes_attempt
    exact Udp.receive_finishes hp hb handle capacity timeout hrounds
      (hfunded.mono (Nat.le_add_right _ _) (Nat.le_refl _))
  | tcpOpen =>
    apply finishes_attempt
    exact Tcp.openSocket_finishes hrest
  | tcpBind handle port =>
    apply finishes_attempt
    rw [Tcp.bind]
    exact Tcp.finishes_slot_bind (fun _ => hrest) fun _ => hrest.updateSocket id
  | tcpListen handle =>
    apply finishes_attempt
    rw [Tcp.listen]
    refine Tcp.finishes_slot_bind (fun _ => hrest) fun _ => ?_
    have hthree : w.Funded ration b (r + 3) s := hspan.mono (by omega) (Nat.le_add_right _ _)
    exact hthree.listen
  | tcpConnect handle ip port =>
    apply finishes_attempt
    exact Tcp.connect_finishes hp hb hw handle ip port hturn
  | tcpSend handle data =>
    apply finishes_attempt
    exact Tcp.send_finishes hp hb handle data hspan
  | tcpReceive handle capacity =>
    apply finishes_attempt
    exact Tcp.receive_finishes hp hb handle capacity hrest
  | tcpClose handle =>
    apply finishes_attempt
    exact Tcp.close_finishes hp hb handle hspan
  | tcpShutdown handle =>
    apply finishes_attempt
    exact Tcp.shutdown_finishes hp hb handle hspan
  | lookup name =>
    apply finishes_attempt
    exact Dns.lookup_finishes hp hb hw name hturn

abbrev most : Nat := 2 ^ 28

omit [Link.Device δ] in
theorem probes_lt {op : Operation δ} (h : op.Within most) : op.probes < most := by
  unfold probes
  split
  · exact h
  · decide

def budget (op : Operation δ) (limit : Nat) (w : World δ) : Budget where
  origin := w.clock
  pace := most
  credits := 4 * limit + 48 + 6 * (op.probes + 1)
  horizon := 2 ^ 64 - 1
  horizon_lt := by decide

theorem funded_budget {op : Operation δ} (ho : op.Within most) (hl : limit < most)
    (hd : Link.DeliversAtMost limit w.device) (hc : w.clock.Steady most)
    (hn : w.clock.now.toNat ≤ 2 ^ 63) :
    w.Funded (Link.Ration.ofDeliveries δ) (op.budget limit w) (0 + 6 * (op.probes + 1))
      (0 + (op.probes + 1) * (op.budget limit w).turn most) := by
  have hlisteners := w.listeners_le
  have hprobes := probes_lt ho
  refine ⟨hc, .refl, 4 * limit, ⟨limit, hd, Nat.le_refl _⟩, ?_, ?_⟩
  · change _ ≤ 4 * limit + 48 + 6 * (op.probes + 1)
    omega
  · have hcredits : 4 * limit + 3 * w.listeners + (0 + 6 * (op.probes + 1)) ≤ 11 * most := by
      unfold most at hl hprobes ⊢
      omega
    have hspan : (op.budget limit w).span * (4 * limit + 3 * w.listeners +
        (0 + 6 * (op.probes + 1))) ≤ (1000 + 3 * most) * (11 * most) :=
      Nat.mul_le_mul_left _ hcredits
    have hturns : (op.probes + 1) * (op.budget limit w).turn most ≤
        most * (most + 5000 + 3 * (1000 + 3 * most)) :=
      Nat.mul_le_mul_right _ hprobes
    have htotal : 2 ^ 63 + (1000 + 3 * most) * (11 * most) +
        (0 + most * (most + 5000 + 3 * (1000 + 3 * most))) ≤ 2 ^ 64 - 1 := by decide
    exact Nat.le_trans (Nat.add_le_add (Nat.add_le_add hn hspan)
      (Nat.add_le_add_left hturns 0)) htotal

end Operation

theorem Operation.exists_perform_eq_ok (hw : Reachable w) (hd : Link.DeliversAtMost limit w.device)
    (hl : limit < most) (hc : w.clock.Steady most) (hn : w.clock.now.toNat ≤ 2 ^ 63)
    (op : Operation δ) (ho : op.Within most) {fuel : Nat}
    (hfuel : (op.budget limit w).credits + most + 5002 ≤ fuel) :
    ∃ w', op.perform (Poller.ofFuel fuel) w = .ok ((), w') ∧ w.clock.Ticks w'.clock := by
  have hp : (Poller.ofFuel fuel : Poller δ).Thrifty (Link.Ration.ofDeliveries δ)
      (op.budget limit w).credits := Poller.thrifty_ofFuel _ (by omega)
  have hpatient : (Poller.ofFuel fuel : Poller δ).Patient most := by
    change most + 5002 ≤ fuel
    omega
  have hfinishes := Operation.perform_finishes hp (Nat.le_refl _) hpatient op ho
    (Operation.funded_budget ho hl hd hc hn)
  obtain ⟨_, w', hrun, hfunded⟩ := hfinishes.exists_eq_ok (hw.perform_ne_fault op fuel)
  exact ⟨w', hrun, hfunded.ticks⟩

omit [Link.Device δ] in
theorem Operation.exists_run_of_attempt {α : Type} {a : Attempt δ α} {w' : World δ}
    (h : attempt a w = .ok ((), w')) : ∃ result, a.run w = .ok (result, w') := by
  cases hr : a.run w with
  | ok r =>
    have hattempt : attempt a w = .ok ((), r.2) := Net.bind_of_eq_ok hr _
    obtain ⟨-, rfl⟩ := Prod.mk.inj (Except.ok.inj (hattempt.symm.trans h))
    exact ⟨r.1, rfl⟩
  | error halt =>
    have hattempt : attempt a w = a.run w >>= fun r => pure ((), r.2) := rfl
    rw [hattempt, hr] at h
    cases h

/-- Given enough fuel an attempt ends, if the device and the clock behave. -/
def Attempt.Ends {α : Type} (a : Poller δ → Attempt δ α) (w : World δ) : Prop :=
  ∀ limit < 2 ^ 28, Link.DeliversAtMost limit w.device → w.clock.Steady (2 ^ 28) →
    w.clock.now.toNat ≤ 2 ^ 63 →
      ∃ least, ∀ fuel ≥ least, ∃ result w', (a (Poller.ofFuel fuel)).run w = .ok (result, w')

theorem Attempt.ends_of_perform {α : Type} (hw : Reachable w) {a : Poller δ → Attempt δ α}
    (op : Operation δ) (ho : op.Within (2 ^ 28))
    (h : ∀ p, op.perform p = Operation.attempt (a p)) : Ends a w := by
  intro limit hl hd hclock hn
  refine ⟨(op.budget limit w).credits + 2 ^ 28 + 5002, fun fuel hfuel => ?_⟩
  obtain ⟨w', hperform, -⟩ := op.exists_perform_eq_ok hw hd hl hclock hn ho hfuel
  rw [h] at hperform
  obtain ⟨result, hr⟩ := Operation.exists_run_of_attempt hperform
  exact ⟨result, w', hr⟩

/-- Every operation ends, with every poll that is nested in it, and no reading of the clock wraps. -/
theorem operations_terminate (hw : Reachable w) (hd : Link.DeliversAtMost limit w.device)
    (hl : limit < 2 ^ 28) (hc : w.clock.Steady (2 ^ 28)) (hn : w.clock.now.toNat ≤ 2 ^ 63)
    (op : Operation δ) (ho : op.Within (2 ^ 28)) :
    ∃ least, ∀ fuel ≥ least, ∃ w',
      op.perform (Poller.ofFuel fuel) w = .ok ((), w') ∧ w.clock.Ticks w'.clock :=
  ⟨(op.budget limit w).credits + 2 ^ 28 + 5002,
    fun _ hfuel => op.exists_perform_eq_ok hw hd hl hc hn ho hfuel⟩

theorem operations_terminate_script :
    ∃ least, ∀ fuel ≥ least, ∃ w',
      (Operation.arpResolve 0x0A000009 100).perform (Poller.ofFuel fuel)
          (World.start (⟨[.frame [1, 2, 3], .gap], 0, [], [(0, [.frame [4]])]⟩ : Link.Script)
            ⟨0, 1, []⟩ Interface.default) = .ok ((), w') ∧
        (Clock.read ⟨0, 1, []⟩).2.Ticks w'.clock :=
  operations_terminate (.start _ _ _) (Link.Script.deliversAtMost _) (by decide)
    (Clock.Steady.of_step (by decide) (by decide)) (by decide) _
    (by decide : (100 : UInt64).toNat < 2 ^ 28)

end InetHost
