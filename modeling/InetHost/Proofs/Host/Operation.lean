import InetHost.Link.Script
import InetHost.Proofs.Dns.Encoding
import InetHost.Proofs.Host.Steps

/-! What operations lead to. No operation takes a faulty step from a world whose buffers stay within
their cells, and so none does in any world that a host can reach. -/

namespace InetHost

variable {δ : Type} [Link.Device δ] {op : Operation δ} {p : Poller δ} {w : World δ}

theorem Chore.errand {w' : World δ} (op : Operation δ) (h : Chore w w') : Errand op w w' :=
  .evolves (.chore h)

section Icmp

open Icmp

theorem Icmp.ping_ensures (hp : p.Evolving) (ho : op.probing = true) (dest : Ipv4.Address) (sequence : UInt16)
    (hv : w.Valid) : Attempt.Ensures (ping p dest sequence) w fun _ w' => Errand op w w' := by
  rw [ping, Ipv4.nextHopMac, Attempt.ensures_bind, Attempt.ensures_adapt]
  refine (Arp.resolve_ensures hp dest _ hv).mono fun r w₁ h₁ => ?_
  cases r with
  | error e => exact .evolves h₁.1
  | ok mac =>
    -- Four steps: the way is found, the clock is read, the last reply is forgotten, the request
    -- goes out.
    have hm (time : UInt32) : (echoRequest sequence time).length ≤ Ipv4.maxPayload :=
      Nat.le_of_ble_eq_true rfl
    have h₂ : Errand op w w₁.readClock.2 := .trans (.evolves h₁.1) ((Chore.readClock w₁).errand op)
    have h₃ := h₂.trans (.deed (.forgetReply op _))
    have h₄ := h₃.trans (.deed (.probe sequence w₁.readClock.1.toUInt32 ho (h₁.2 mac rfl).hop?_eq))
    simp only [Attempt.mapError_ok, Attempt.ensures_bind, Attempt.ensures_modifyGet,
      Attempt.ensures_modify]
    refine (Ipv4.transmit_ensures mac dest .icmp _ (hm _)).2 ?_
    split
    · rw [Attempt.ensures_lift]
      refine (Net.waitUntil_ensures hp _ _ (h₄.valid hv)).mono fun _ w₅ h₅ => ?_
      simp only [Attempt.ensures_get]
      have h₆ := h₄.trans (.evolves h₅.1)
      split
      · exact h₆
      · exact h₆
    · exact h₄

theorem Icmp.probes_ensures (hp : p.Evolving) (ho : op.probing = true) (dest : Ipv4.Address) (isOwn : Bool)
    (count index : Nat) (stats : PingStats) (hv : w.Valid) :
    Net.Ensures (probes p dest isOwn count index stats) w fun _ w' => Errand op w w' := by
  induction count generalizing index stats w with
  | zero => exact .evolves (.refl w)
  | succ count ih =>
    rw [probes]
    split
    · have h₁ := (Chore.remark w (e := .probeLooped (probeSequence index)) rfl).errand op
      exact (ih _ _ (h₁.valid hv)).mono fun _ _ h₂ => h₁.trans h₂
    · rw [Net.ensures_bind, Attempt.ensures_run]
      refine (ping_ensures hp ho dest _ hv).mono fun r w₁ h₁ => ?_
      have hn (e : Event) (he : e.isRemark = true) : Errand op w (w₁.record e) :=
        h₁.trans ((Chore.remark w₁ he).errand op)
      split
      · have h₂ := hn (.probeAnswered (probeSequence index) ‹_›) rfl
        exact (ih _ _ (h₂.valid hv)).mono fun _ _ h₃ => h₂.trans h₃
      · exact hn _ rfl
      · have h₂ := hn (.probeFailed (probeSequence index) ‹_›) rfl
        exact (ih _ _ (h₂.valid hv)).mono fun _ _ h₃ => h₂.trans h₃

theorem Icmp.pingHost_ensures (hp : p.Evolving) (ho : op.probing = true) (dest : Ipv4.Address) (count : UInt32)
    (hv : w.Valid) : Net.Ensures (pingHost p dest count) w fun _ w' => Errand op w w' := by
  rw [pingHost, Net.ensures_bind, Net.ensures_get, Net.ensures_bind, Net.ensures_modify,
    Net.ensures_bind]
  have h₁ := (Chore.remark w (e := .pingStarted dest) rfl).errand op
  refine (probes_ensures hp ho dest _ _ _ _ (h₁.valid hv)).mono fun _ w₂ h₂ => ?_
  exact (h₁.trans h₂).trans ((Chore.remark w₂ rfl).errand op)

end Icmp

section Udp

open Udp

theorem Udp.openSocket_ensures (op : Operation δ) (port : UInt16) :
    Attempt.Ensures (openSocket port) w fun _ w' => Errand op w w' := by
  rw [openSocket, Attempt.ensures_bind, Attempt.ensures_get]
  dsimp only
  cases hs : w.host.udp.free? with
  | none => exact (Chore.remark w rfl).errand op
  | some slot => exact .deed (.openUdp port hs)

theorem Udp.send_ensures (op : Operation δ) (hp : p.Evolving) (handle : Nat)
    (dest : Ipv4.Address) (port : UInt16) (payload : Bytes) (hv : w.Valid) :
    Attempt.Ensures (send p handle dest port payload) w fun _ w' => Errand op w w' := by
  have he : Errand op w w := .evolves (.refl w)
  rw [send, localPort, slot]
  simp only [Attempt.ensures_bind, Attempt.ensures_get, Attempt.ensures_ofExcept]
  cases w.host.udp.slot handle with
  | error e => exact he
  | ok slot =>
    simp only [Attempt.ensures_pure]
    split
    · exact he
    · rename_i hl
      have hl : payload.length ≤ maxPayload := Nat.le_of_not_lt hl
      have hm (source : UInt16) := length_encode_le source port hl
      rw [Attempt.ensures_bind, Attempt.ensures_check (Bytes.within_eq_ok (hm _))]
      refine (Ipv4.send_ensures hp dest .udp (hm _) hv).mono fun _ w' h => ?_
      rcases h with h | ⟨w₁, mac, h, hf, rfl⟩
      · exact .evolves h
      · exact (Errand.evolves h).trans (.deed (.datagram _ port hl hf.hop?_eq))

theorem Udp.Sockets.hasData_of_ready {h : Host} {handle : Nat} {slot : Slot}
    (hs : h.udp.slot handle = .ok slot) (hr : ready handle h = true) :
    (h.udp.get slot).hasData = true := by
  rwa [ready, hs] at hr

omit [Link.Device δ] in
theorem Udp.read_ensures {slot : Slot} (hl : (w.host.udp.get slot).length ≤ bufferSize)
    (capacity : Nat) {Q : Except NetError Datagram → World δ → Prop} :
    Attempt.Ensures (read slot capacity) w Q ↔
      let s := w.host.udp.get slot
      Q (.ok ⟨s.source, s.sourcePort, (s.buffer.toList.take s.length).take capacity⟩)
        (take slot w) := by
  rw [read, Attempt.ensures_bind, Attempt.ensures_get]
  dsimp only
  rw [Attempt.ensures_bind, Attempt.ensures_check (Socket.slice_buffer hl capacity)]
  exact Iff.rfl

theorem Udp.receive_ensures (op : Operation δ) (hp : p.Evolving) (handle capacity : Nat)
    (timeout : UInt64) (hw : w.Safe) :
    Attempt.Ensures (receive p handle capacity timeout) w fun _ w' => Errand op w w' := by
  rw [receive, slot]
  simp only [Attempt.ensures_bind, Attempt.ensures_get, Attempt.ensures_ofExcept]
  cases w.host.udp.slot handle with
  | error e => exact .evolves (.refl w)
  | ok _ =>
    simp only [Attempt.ensures_lift]
    refine (Net.waitUntil_ensures hp _ _ hw.valid).mono fun met w₁ h₁ => ?_
    obtain ⟨h₁, hmet⟩ := h₁
    have hwaited : Errand op w w₁ := .evolves h₁
    split
    · rename_i hready
      simp only [Attempt.ensures_bind, Attempt.ensures_get, Attempt.ensures_ofExcept]
      cases hs : w₁.host.udp.slot handle with
      | error e => exact hwaited
      | ok slot =>
        have hdata := Sockets.hasData_of_ready hs (hmet.symm.trans hready)
        have hlength := ((h₁.safe hw).tidy slot).length_le
        exact (read_ensures hlength capacity).2 (hwaited.trans (.deed (.readDatagram hdata)))
    · exact hwaited

end Udp

theorem Dns.lookup_ensures (hp : p.Evolving) (name : String) (hw : w.Safe) :
    Attempt.Ensures (lookup p name) w fun _ w' => Errand op w w' := by
  rw [lookup]
  cases Ipv4.Address.parse? name with
  | some ip => exact .evolves (.refl w)
  | none =>
    have h₁ := Errand.deed (.takeQueryId op w)
    obtain ⟨query, hquery⟩ := exists_query (takeId w).1 name maxMessage
    simp only [Attempt.ensures_bind, Attempt.ensures_modifyGet, Attempt.ensures_check hquery,
      Attempt.ensures_ofExcept]
    split
    · simp only [Attempt.ensures_get]
      refine (Udp.openSocket_ensures op _).mono fun r w₂ h₂ => ?_
      have h₂ := h₁.trans h₂
      cases r with
      | error e => exact h₂
      | ok handle =>
        simp only [Attempt.ensures_outcome]
        refine (Udp.send_ensures op hp handle _ port _ (h₂.valid hw.valid)).mono fun r w₃ h₃ => ?_
        have h₃ := h₂.trans h₃
        cases r with
        | error e => exact h₃.trans (.deed (.closeUdp op w₃ handle))
        | ok _ =>
          simp only [Attempt.ensures_bind, Attempt.ensures_modify, Attempt.ensures_outcome]
          have h₄ := h₃.trans ((Chore.remark w₃
            (e := .dnsQueried name (takeId w).1 w.host.interface.dnsServer) rfl).errand op)
          refine (Udp.receive_ensures op hp handle _ _ (h₄.safe hw)).mono fun r w₅ h₅ => ?_
          have h₆ := (h₄.trans h₅).trans (.deed (.closeUdp op w₅ handle))
          split
          · exact h₆
          · exact h₆
          · rw [Attempt.ensures_bind, Attempt.ensures_ofExcept]
            split
            · exact h₆.trans ((Chore.remark _ rfl).errand op)
            · exact h₆
    · exact h₁

section Tcp

open Tcp

omit [Link.Device δ] in
theorem Tcp.run_slot (handle : Nat) (w : World δ) :
    (slot handle).run w = .ok (w.host.tcp.slot handle, w) := rfl

omit [Link.Device δ] in
theorem Tcp.ensures_slot_bind {α : Type} {handle : Nat} {f : Slot → Attempt δ α}
    {Q : Except NetError α → World δ → Prop} (he : ∀ e, Q (.error e) w)
    (hf : ∀ slot : Slot, slot.val = handle → (socketAt slot w).inUse = true →
      Attempt.Ensures (f slot) w Q) : Attempt.Ensures (slot handle >>= f) w Q := by
  rw [Attempt.ensures_bind, Attempt.ensures_of_run_eq (run_slot handle w)]
  cases hs : w.host.tcp.slot handle with
  | error e => exact he e
  | ok slot =>
    obtain ⟨hi, hu⟩ := Slots.of_ofHandle_eq_ok hs
    exact hf slot hi hu

theorem Tcp.openSocket_ensures :
    Attempt.Ensures openSocket w fun _ w' => Operation.Works .tcpOpen w w' := by
  rw [openSocket, Attempt.ensures_bind, Attempt.ensures_get]
  dsimp only
  cases hs : w.host.tcp.free? with
  | none => exact .errand rfl ((Chore.remark w rfl).errand _)
  | some slot => exact .tcpOpen hs

theorem Tcp.bind_ensures (handle : Nat) (port : UInt16) :
    Attempt.Ensures (bind handle port) w fun _ w' =>
      (Operation.tcpBind handle port).Works w w' := by
  rw [bind]
  refine ensures_slot_bind (fun _ => .refused _ w) fun slot hi hu => ?_
  subst hi
  exact .tcpBind port hu

theorem Tcp.listen_ensures (handle : Nat) :
    Attempt.Ensures (listen handle) w fun _ w' => (Operation.tcpListen handle).Works w w' := by
  rw [listen]
  refine ensures_slot_bind (fun _ => .refused _ w) fun slot hi hu => ?_
  subst hi
  exact .tcpListen hu

omit [Link.Device δ] in
theorem Tcp.Sockets.slot_eq_error {t : Sockets} {handle : Nat}
    (h : ∀ slot : Slot, slot.val = handle → (t.get slot).inUse = false) :
    t.slot handle = .error .badHandle := by
  cases hs : t.slot handle with
  | error e => rw [Slots.eq_badHandle_of_ofHandle hs]
  | ok slot =>
    obtain ⟨hi, hu⟩ := Slots.of_ofHandle_eq_ok hs
    rw [h slot hi] at hu
    cases hu

def Tcp.Requests (p : Poller δ) (slot : Slot) (ip : Ipv4.Address) (port : UInt16) (w : World δ) :
    Except NetError Unit → Prop :=
  Ipv4.Sends p ip .tcp
    ((socketAt slot (dial slot ip port w)).segment w.host.interface.ip { syn := true } [])
    (dial slot ip port w)

/-- What comes of an attempt to connect a closed socket. -/
inductive Tcp.Connects (p : Poller δ) (slot : Slot) (ip : Ipv4.Address) (port : UInt16)
    (w : World δ) : Except NetError Unit → World δ → Prop
  | unsent {cause : NetError} {w₁ : World δ} :
      Requests p slot ip port w (.error cause) → Evolves (dial slot ip port w) w₁ →
      Connects p slot ip port w (.error cause) (setState slot .closed w₁)
  | connected {w₁ w₂ : World δ} :
      Requests p slot ip port w (.ok ()) → Evolves (dial slot ip port w) w₁ →
      Evolves (advanceSeq slot 1 w₁) w₂ →
      (socketAt slot w₂).state = .established ∨ (socketAt slot w₂).state = .closeWait →
      Connects p slot ip port w (.ok ()) w₂
  | notConnected {w₁ w₂ : World δ} :
      Requests p slot ip port w (.ok ()) → Evolves (dial slot ip port w) w₁ →
      Evolves (advanceSeq slot 1 w₁) w₂ →
      Connects p slot ip port w
        (.error (if (socketAt slot w₂).reset then .connectionReset else .timeout))
        (setState slot .closed w₂)

theorem Tcp.settle_ensures {Q : Except NetError Unit → World δ → Prop} {w₂ : World δ}
    (slot : Slot) (settled : Bool) (ip : Ipv4.Address) (port : UInt16)
    (hc : ∀ w', Evolves w₂ w' → (socketAt slot w').state = .established ∨
      (socketAt slot w').state = .closeWait → Q (.ok ()) w')
    (hn : ∀ w', Evolves w₂ w' →
      Q (.error (if (socketAt slot w').reset then .connectionReset else .timeout))
        (setState slot .closed w')) :
    Attempt.Ensures (settle slot settled ip port) w₂ Q := by
  rw [settle, Attempt.ensures_bind, Attempt.ensures_get]
  dsimp only
  split
  · exact hc _ (.chore (.remark w₂ rfl)) ‹_›
  · split
    · rename_i hr
      have hreset := hn w₂ (.refl w₂)
      rwa [if_pos hr] at hreset
    · rename_i hr
      have htimeout (w' : World δ) (he : Evolves w₂ w') (hs : socketAt slot w' = socketAt slot w₂) :
          Q (.error .timeout) (setState slot .closed w') := by
        have h := hn w' he
        rwa [hs, if_neg hr] at h
      cases settled with
      | true => exact htimeout w₂ (.refl w₂) rfl
      | false => exact htimeout _ (.chore (.remark w₂ (e := .connectTimedOut ip port) rfl)) rfl

theorem Tcp.connect_ensures_of_error {handle : Nat} {e : NetError} (ip : Ipv4.Address)
    (port : UInt16) {Q : Except NetError Unit → World δ → Prop}
    (h : w.host.tcp.slot handle = .error e) :
    Attempt.Ensures (connect p handle ip port) w Q ↔ Q (.error e) w := by
  rw [connect, Attempt.ensures_bind, Attempt.ensures_of_run_eq (run_slot handle w), h]

theorem Tcp.connect_ensures_of_not_closed {slot : Slot} (ip : Ipv4.Address) (port : UInt16)
    {Q : Except NetError Unit → World δ → Prop} (hu : (socketAt slot w).inUse = true)
    (hs : (socketAt slot w).state ≠ .closed) :
    Attempt.Ensures (connect p slot ip port) w Q ↔ Q (.error .invalidState) w := by
  rw [connect, Attempt.ensures_bind, Attempt.ensures_of_run_eq (run_slot slot w),
    Sockets.slot_eq_ok hu]
  simp only [Attempt.ensures_bind, Attempt.ensures_get]
  rw [if_pos hs, Attempt.ensures_throw]

theorem Tcp.connect_connects (hp : p.Evolving) {slot : Slot} (ip : Ipv4.Address) (port : UInt16)
    (hu : (socketAt slot w).inUse = true) (hc : (socketAt slot w).state = .closed)
    (hv : w.Valid) : Attempt.Ensures (connect p slot ip port) w (Connects p slot ip port w) := by
  have hdial := socketAt_dial slot slot ip port w
  rw [if_pos rfl] at hdial
  have hn : (socketAt slot (dial slot ip port w)).state ≠ .listen := by simp [hdial]
  have hd : ([] : Bytes).length ≤ maxPayload := Nat.zero_le _
  have hrequest : Attempt.Ensures (sendSegment p slot { syn := true } []) (dial slot ip port w)
      fun r _ => Requests p slot ip port w r := by
    refine (sendSegment_ensures_iff slot _ hd).2 ?_
    have hip : (socketAt slot (dial slot ip port w)).remoteIp = ip := by rw [hdial]
    have hl := length_segment_le (socketAt slot (dial slot ip port w)) w.host.interface.ip
      { syn := true } hd
    have hown : (dial slot ip port w).host.interface = w.host.interface := by simp [dial]
    rw [hip, hown]
    exact Ipv4.send_sends hp ip .tcp hl (hv.dial ip port)
  rw [connect, Attempt.ensures_bind, Attempt.ensures_of_run_eq (run_slot slot w),
    Sockets.slot_eq_ok hu]
  simp only [Attempt.ensures_bind, Attempt.ensures_get]
  rw [if_neg (fun hn => hn hc)]
  simp only [Attempt.ensures_bind, Attempt.ensures_modify, Attempt.ensures_outcome]
  have hevolves := sendSegment_ensures hp slot { syn := true } hd hn (hv.dial ip port)
  refine (Net.Ensures.and hrequest hevolves).mono fun r w₁ h => ?_
  obtain ⟨hr, h₁⟩ := h
  cases r with
  | error e => exact .unsent hr h₁
  | ok _ =>
    simp only [Attempt.ensures_bind, Attempt.ensures_modify, Attempt.ensures_lift]
    have hv₁ : (advanceSeq slot 1 w₁).Valid := (h₁.valid (hv.dial ip port)).update rfl
    refine (Net.waitUntil_ensures hp _ _ hv₁).mono fun settled w₂ h₂ => ?_
    exact settle_ensures slot settled ip port
      (fun _ h₃ he => .connected hr h₁ (h₂.1.trans h₃) he)
      (fun _ h₃ => .notConnected hr h₁ (h₂.1.trans h₃))

theorem Tcp.connect_ensures (hp : p.Evolving) (handle : Nat) (ip : Ipv4.Address) (port : UInt16)
    (hv : w.Valid) : Attempt.Ensures (connect p handle ip port) w
      fun _ w' => (Operation.tcpConnect handle ip port).Works w w' := by
  cases hs : w.host.tcp.slot handle with
  | error e => exact (connect_ensures_of_error ip port hs).2 (.refused _ w)
  | ok slot =>
    obtain ⟨rfl, hu⟩ := Slots.of_ofHandle_eq_ok hs
    by_cases hc : (socketAt slot w).state = .closed
    · refine (connect_connects hp ip port hu hc hv).mono fun r w' h => ?_
      cases h with
      | unsent _ h₁ => exact .connectUnsent ip port hu hc h₁
      | connected _ h₁ h₂ he => exact .connected ip port hu hc h₁ h₂ he
      | notConnected _ h₁ h₂ => exact .notConnected ip port hu hc h₁ h₂
    · exact (connect_ensures_of_not_closed ip port hu hc).2 (.refused _ w)

theorem Tcp.send_ensures (hp : p.Evolving) (handle : Nat) (data : Bytes) (hv : w.Valid) :
    Attempt.Ensures (send p handle data) w
      fun _ w' => (Operation.tcpSend handle data).Works w w' := by
  rw [send]
  refine ensures_slot_bind (fun _ => .refused _ w) fun slot hi hu => ?_
  subst hi
  simp only [Attempt.ensures_bind, Attempt.ensures_get]
  split
  · exact .refused _ w
  · split
    · exact .refused _ w
    · rename_i he hl
      have he : (socketAt slot w).state = .established := Decidable.not_not.1 he
      have hn : (socketAt slot w).state ≠ .listen := by simp [he]
      simp only [Attempt.ensures_bind, Attempt.ensures_modify]
      refine (sendSegment_ensures hp slot _ (Nat.le_of_not_lt hl) hn hv).mono fun r w₁ h₁ => ?_
      cases r with
      | error e => exact .notSent _ data h₁
      | ok _ => exact .tcpSend data hu he h₁

theorem Tcp.receive_ensures (hp : p.Evolving) (handle capacity : Nat) (hv : w.Valid) :
    Attempt.Ensures (receive p handle capacity) w
      fun _ w' => (Operation.tcpReceive handle capacity).Works w w' := by
  rw [receive]
  refine ensures_slot_bind (fun _ => .refused _ w) fun slot hi hu => ?_
  subst hi
  simp only [Attempt.ensures_bind, Attempt.ensures_lift]
  refine (hp w hv).mono fun _ w₁ h₁ => ?_
  rw [Attempt.ensures_of_run_eq (run_slot slot w₁)]
  cases hs' : w₁.host.tcp.slot slot with
  | error e => exact .notReceived _ capacity h₁
  | ok slot' =>
    obtain ⟨hi, hu'⟩ := Slots.of_ofHandle_eq_ok hs'
    obtain rfl := Fin.ext hi
    obtain ⟨buffer, data, hb, -⟩ := (h₁.valid hv slot').pop_eq_ok capacity
    simp only [Attempt.ensures_get]
    rw [Attempt.ensures_check hb]
    exact .tcpReceive capacity hu h₁ hu' hb

theorem Tcp.sendFin_ensures (hp : p.Evolving) (slot : Slot) (next : State)
    (hn : (socketAt slot w).state ≠ .listen) (hv : w.Valid) :
    Net.Ensures (sendFin p slot next) w fun _ w' =>
      ∃ w₁, Evolves w w₁ ∧ w' = setState slot next (advanceSeq slot 1 w₁) := by
  rw [sendFin, Net.ensures_bind, Attempt.ensures_run]
  refine (sendSegment_ensures hp slot _ (Nat.zero_le _) hn hv).mono fun r w₁ h₁ => ?_
  cases r with
  | ok _ => exact ⟨w₁, h₁, rfl⟩
  | error e => exact ⟨_, h₁.trans (.chore (.remark w₁ rfl)), rfl⟩

theorem Tcp.close_ensures (hp : p.Evolving) (handle : Nat) (hv : w.Valid) :
    Attempt.Ensures (close p handle) w fun _ w' => (Operation.tcpClose handle).Works w w' := by
  rw [close]
  refine ensures_slot_bind (fun _ => .refused _ w) fun slot hi hu => ?_
  subst hi
  simp only [Attempt.ensures_bind, Attempt.ensures_get]
  split
  · rename_i he
    simp only [Attempt.ensures_bind, Attempt.ensures_lift]
    refine (sendFin_ensures hp slot .finWait1 (by simp [he]) hv).mono fun _ w' h => ?_
    obtain ⟨w₁, h₁, rfl⟩ := h
    exact .closeEstablished hu he h₁
  · rename_i he
    simp only [Attempt.ensures_lift]
    refine (sendFin_ensures hp slot .lastAck (by simp [he]) hv).mono fun _ w' h => ?_
    obtain ⟨w₁, h₁, rfl⟩ := h
    exact .closeWaiting hu he h₁
  · exact .closeOther hu ‹_› ‹_›

theorem Tcp.shutdown_ensures (hp : p.Evolving) (handle : Nat) (hv : w.Valid) :
    Attempt.Ensures (shutdown p handle) w
      fun _ w' => (Operation.tcpShutdown handle).Works w w' := by
  rw [shutdown]
  refine ensures_slot_bind (fun _ => .refused _ w) fun slot hi hu => ?_
  subst hi
  simp only [Attempt.ensures_bind, Attempt.ensures_get]
  split
  · exact .refused _ w
  · rename_i he
    have he : (socketAt slot w).state = .established := Decidable.not_not.1 he
    rw [Attempt.ensures_lift]
    refine (sendFin_ensures hp slot .finWait1 (by simp [he]) hv).mono fun _ w' h => ?_
    obtain ⟨w₁, h₁, rfl⟩ := h
    exact .tcpShutdown hu he h₁

end Tcp

theorem Ipv4.send_works (hp : p.Evolving) (dest : Address) (protocol : Protocol)
    (payload : Bytes) (hv : w.Valid) : Attempt.Ensures (send p dest protocol payload) w
      fun _ w' => (Operation.ipv4Send dest protocol payload).Works w w' := by
  by_cases h : payload.length ≤ maxPayload
  · refine (send_ensures hp dest protocol h hv).mono fun _ w' h' => ?_
    rcases h' with h' | ⟨w₁, mac, h₁, hf, rfl⟩
    · exact .errand rfl (.evolves h')
    · exact .ipv4Send dest protocol h h₁ hf.hop?_eq
  · rw [send, if_pos (Nat.lt_of_not_le h)]
    exact .refused _ w

namespace Operation

omit [Link.Device δ] in
@[simp] theorem ensures_attempt {α : Type} {a : Attempt δ α} {Q : Unit → World δ → Prop} :
    Net.Ensures (attempt a) w Q ↔ Attempt.Ensures a w fun _ w' => Q () w' := by
  rw [attempt, Net.ensures_bind, Attempt.ensures_run]
  rfl

theorem perform_ensures (hp : p.Evolving) (op : Operation δ) (hw : w.Safe) :
    Net.Ensures (op.perform p) w fun _ w' => op.Works w w' := by
  cases op with
  | configure interface => exact .errand rfl (.deed (.configure w interface))
  | adjustDevice f => exact .errand rfl (.deed (.adjustDevice w f))
  | setClock clock => exact .errand rfl (.deed (.setClock w clock))
  | poll =>
    rw [perform, Net.ensures_bind]
    exact (hp w hw.valid).mono fun _ _ h => .errand rfl (.evolves h)
  | handleFrame frame =>
    refine (Net.handleFrame_ensures hp frame hw.valid).mono fun _ w' h => ?_
    rcases h with h | ⟨port, d, slot, hb, hs, rfl⟩
    · exact .errand rfl (.evolves h)
    · exact .errand rfl (.deed (.handIn hb hs))
  | arpLearn ip mac => exact .errand rfl ((Chore.learn w ip mac).errand _)
  | arpRequest target =>
    rw [perform, ensures_attempt]
    exact (Arp.request_ensures target).mono fun _ _ h => .errand rfl (.evolves h.1)
  | arpResolve ip timeout =>
    rw [perform, ensures_attempt]
    exact (Arp.resolve_ensures hp ip timeout hw.valid).mono fun _ _ h => .errand rfl (.evolves h.1)
  | ipv4Send dest protocol payload =>
    rw [perform, ensures_attempt]
    exact Ipv4.send_works hp dest protocol payload hw.valid
  | ping dest sequence =>
    rw [perform, ensures_attempt]
    exact (Icmp.ping_ensures hp rfl dest sequence hw.valid).mono fun _ _ h => .errand rfl h
  | pingHost dest count =>
    rw [perform, Net.ensures_bind]
    exact (Icmp.pingHost_ensures hp rfl dest count hw.valid).mono fun _ _ h => .errand rfl h
  | udpOpen port =>
    rw [perform, ensures_attempt]
    exact (Udp.openSocket_ensures _ port).mono fun _ _ h => .errand rfl h
  | udpClose handle => exact .errand rfl (.deed (.closeUdp _ w handle))
  | udpSend handle dest port payload =>
    rw [perform, ensures_attempt]
    exact (Udp.send_ensures _ hp handle dest port payload hw.valid).mono fun _ _ h => .errand rfl h
  | udpReceive handle capacity timeout =>
    rw [perform, ensures_attempt]
    exact (Udp.receive_ensures _ hp handle capacity timeout hw).mono fun _ _ h => .errand rfl h
  | tcpOpen =>
    rw [perform, ensures_attempt]
    exact Tcp.openSocket_ensures
  | tcpBind handle port =>
    rw [perform, ensures_attempt]
    exact Tcp.bind_ensures handle port
  | tcpListen handle =>
    rw [perform, ensures_attempt]
    exact Tcp.listen_ensures handle
  | tcpConnect handle ip port =>
    rw [perform, ensures_attempt]
    exact Tcp.connect_ensures hp handle ip port hw.valid
  | tcpSend handle data =>
    rw [perform, ensures_attempt]
    exact Tcp.send_ensures hp handle data hw.valid
  | tcpReceive handle capacity =>
    rw [perform, ensures_attempt]
    exact Tcp.receive_ensures hp handle capacity hw.valid
  | tcpClose handle =>
    rw [perform, ensures_attempt]
    exact Tcp.close_ensures hp handle hw.valid
  | tcpShutdown handle =>
    rw [perform, ensures_attempt]
    exact Tcp.shutdown_ensures hp handle hw.valid
  | lookup name =>
    rw [perform, ensures_attempt]
    exact (Dns.lookup_ensures hp name hw).mono fun _ _ h => .errand rfl h

theorem Runs.works {w' : World δ} (h : op.Runs w w') (hw : w.Safe) :
    op.Works w w' := by
  obtain ⟨fuel, hr⟩ := h
  exact (perform_ensures (Poller.evolving_ofFuel fuel) op hw).of_ok hr

end Operation

@[simp] theorem World.socketAt_start (device : δ) (clock : Clock) (interface : Interface)
    (slot : Tcp.Slot) :
    Tcp.socketAt slot (start device clock interface) = Tcp.Socket.unused := by
  simp [Tcp.socketAt, start, Tcp.Sockets.get, Tcp.Sockets.empty]

theorem World.udp_get_start (device : δ) (clock : Clock) (interface : Interface)
    (slot : Udp.Slot) :
    (start device clock interface).host.udp.get slot = Udp.Socket.unused := by
  simp [start, Udp.Sockets.get, Udp.Sockets.empty]

theorem Reachable.safe (h : Reachable w) : w.Safe := by
  induction h with
  | start device clock interface =>
    constructor
    · intro slot
      rw [World.socketAt_start]
      exact Ring.valid_empty (by decide)
    · intro i
      rw [World.udp_get_start]
      exact ⟨Nat.zero_le _, nofun⟩
  | step op _ hr ih => exact (hr.works ih).safe ih

theorem Reachable.valid (h : Reachable w) : w.Valid := h.safe.valid

def Operation.runAll (fuel : Nat) : List (Operation δ) → World δ → Option (World δ)
  | [], w => some w
  | op :: ops, w =>
    match op.perform (Poller.ofFuel fuel) w with
    | .ok (_, w') => runAll fuel ops w'
    | .error _ => none

def World.after (fuel : Nat) (ops : List (Operation δ)) (w : World δ) : World δ :=
  (Operation.runAll fuel ops w).getD w

theorem Operation.runs_after {fuel : Nat} {op : Operation δ}
    (h : (runAll fuel [op] w).isSome = true) : op.Runs w (w.after fuel [op]) := by
  refine ⟨fuel, ?_⟩
  unfold World.after
  simp only [runAll] at h ⊢
  split
  · rename_i hr
    exact hr
  · rename_i hr
    simp [hr] at h

theorem Reachable.of_runAll {fuel : Nat} {ops : List (Operation δ)} {w' : World δ}
    (hw : Reachable w) (h : Operation.runAll fuel ops w = some w') : Reachable w' := by
  induction ops generalizing w with
  | nil => exact Option.some.inj h ▸ hw
  | cons op ops ih =>
    simp only [Operation.runAll] at h
    split at h
    · rename_i hr
      exact ih (hw.step op ⟨fuel, hr⟩) h
    · simp at h

theorem Reachable.after (hw : Reachable w) (fuel : Nat) (ops : List (Operation δ)) :
    Reachable (w.after fuel ops) := by
  cases h : Operation.runAll fuel ops w with
  | none => rwa [World.after, h]
  | some w' =>
    rw [World.after, h]
    exact hw.of_runAll h

/-- No operation faults, whatever its arguments and whatever arrives while it waits. -/
theorem Reachable.perform_ne_fault (h : Reachable w) (op : Operation δ) (fuel : Nat)
    (fault : Fault) : op.perform (Poller.ofFuel fuel) w ≠ .error (.fault fault) :=
  (Operation.perform_ensures (Poller.evolving_ofFuel fuel) op h.safe).ne_fault fault

theorem frames_never_fault (h : Reachable w) (fuel : Nat) (fault : Fault) :
    (∀ frame, Net.handleFrame (Poller.ofFuel fuel) frame w ≠ .error (.fault fault)) ∧
      Net.poll fuel w ≠ .error (.fault fault) ∧
      ∀ op : Operation δ, op.perform (Poller.ofFuel fuel) w ≠ .error (.fault fault) := by
  refine ⟨fun frame => ?_, ?_, fun op => h.perform_ne_fault op fuel fault⟩
  · exact (Net.handleFrame_ensures (Poller.evolving_ofFuel fuel) frame h.valid).ne_fault fault
  · exact (Net.poll_ensures fuel h.valid).ne_fault fault

theorem frames_never_fault_script :
    Reachable (World.start (⟨[.frame [1, 2, 3]], 0, [], []⟩ : Link.Script) ⟨0, 1, []⟩
        Interface.default) ∧
      Net.handleFrame (Poller.ofFuel 2) (List.replicate 14 0)
        (World.start (⟨[.frame [1, 2, 3]], 0, [], []⟩ : Link.Script) ⟨0, 1, []⟩
          Interface.default) ≠ .error (.fault .outOfBounds) ∧
      Net.poll 2 (World.start (⟨[.frame [1, 2, 3]], 0, [], []⟩ : Link.Script) ⟨0, 1, []⟩
        Interface.default) ≠ .error (.fault .outOfBounds) := by
  have h := frames_never_fault (.start (⟨[.frame [1, 2, 3]], 0, [], []⟩ : Link.Script)
    ⟨0, 1, []⟩ Interface.default) 2 .outOfBounds
  exact ⟨.start .., h.1 (List.replicate 14 0), h.2.1⟩

end InetHost
