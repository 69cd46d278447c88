import InetHost.Link.Monitored
import InetHost.Proofs.Arp.Answers
import InetHost.Proofs.Host.Acts
import InetHost.Proofs.Tcp.Numbers
import InetHost.Proofs.Udp.Mailbox

/-! The calls that a host makes to its device in order to send. On the way to its own frame a send may wait
for an address, and while it waits the host answers what it reads; but its own frame is the last that it
hands over, and unless the device takes it nothing of the send has gone out. -/

namespace InetHost

open Link

deriving instance DecidableEq for Call

section Frames

def Bytes.Bears (frame : Bytes) (dest : Ipv4.Address) (protocol : Ipv4.Protocol)
    (message : Bytes) : Prop :=
  ∃ header, Ipv4.Header.ofFrame? frame = some header ∧ header.dest = dest ∧
    header.protocol = protocol.number ∧ header.message frame = message

variable {own : Interface} {mac source : Mac} {dest dest' : Ipv4.Address}
  {protocol protocol' : Ipv4.Protocol} {id : UInt16} {payload message : Bytes} {packet : Arp.Packet}

theorem Ipv4.Protocol.number_injective : Function.Injective Protocol.number := by
  intro a b h
  have hsome := Protocol.ofNumber?_number a
  rw [h, Protocol.ofNumber?_number] at hsome
  exact (Option.some.inj hsome).symm

theorem Bytes.bears_wire (hl : payload.length ≤ Ipv4.maxPayload) :
    (Ipv4.wire own mac dest protocol id payload).Bears dest' protocol' message ↔
      dest' = dest ∧ protocol' = protocol ∧ message = payload := by
  have hmessage := Ipv4.message_wire own mac dest protocol id hl
  constructor
  · rintro ⟨header, hheader, hdest, hprotocol, rfl⟩
    rw [Ipv4.ofFrame?_wire] at hheader
    obtain rfl := Option.some.inj hheader
    exact ⟨hdest.symm, (Ipv4.Protocol.number_injective hprotocol).symm, hmessage⟩
  · rintro ⟨rfl, rfl, rfl⟩
    exact ⟨_, Ipv4.ofFrame?_wire .., rfl, rfl, hmessage⟩

theorem Bytes.not_bears_arpWire : ¬ (Arp.wire mac source packet).Bears dest' protocol' message := by
  rintro ⟨header, hheader, -⟩
  rw [Arp.ofFrame?_wire] at hheader
  cases hheader

end Frames

section Answers

open Tcp

theorem Tcp.Socket.segment_inj {s s' : Socket} {own own' : Ipv4.Address} {flags flags' : Flags}
    {data data' : Bytes} (h : s.segment own flags data = s'.segment own' flags' data') :
    flags = flags' ∧ data = data' := by
  constructor
  · have hheader := congrArg Header.decode? h
    rw [segment, segment, Header.segment, Header.segment, Header.decode?_fields,
      Header.decode?_fields] at hheader
    exact congrArg Header.flags (Option.some.inj hheader)
  · have hdata := congrArg (List.drop minHeader) h
    rwa [segment, segment, Header.drop_segment, Header.drop_segment] at hdata

theorem Ipv4.not_isAnswer_udp {message : Bytes} : ¬ IsAnswer .udp message := nofun

theorem Ipv4.IsAnswer.bare {s : Socket} {own : Address} {flags : Flags} {data : Bytes}
    (h : IsAnswer .tcp (s.segment own flags data)) : flags.psh = false ∧ data = [] := by
  generalize hm : s.segment own flags data = message at h
  cases h with
  | segment s' own' hpsh =>
    obtain ⟨rfl, rfl⟩ := Socket.segment_inj hm
    exact ⟨hpsh, rfl⟩

end Answers

def Attempt.Refuses {α ε : Type} (a : Attempt ε α) (w : World ε) (cause : NetError) : Prop :=
  a.run w = .ok (.error cause, w)

variable {δ : Type} {made later : List Call} {dest dest' : Ipv4.Address}
  {protocol protocol' : Ipv4.Protocol} {payload message : Bytes}

def Link.Sent (made : List Call) (dest : Ipv4.Address) (protocol : Ipv4.Protocol)
    (message : Bytes) : Prop :=
  ∃ frame, made.head? = some (.transmit frame (.ok ())) ∧ frame.Bears dest protocol message

def Link.Accepted (made : List Call) (dest : Ipv4.Address) (protocol : Ipv4.Protocol)
    (message : Bytes) : Prop :=
  ∃ frame, .transmit frame (.ok ()) ∈ made ∧ frame.Bears dest protocol message

/-- The calls that a host makes while it waits: what it sends is an answer. -/
structure World.Waits (w : World (Monitored δ)) (made : List Call) (w' : World (Monitored δ)) : Prop where
  calls_eq : w'.device.calls = made ++ w.device.calls
  isAnswer : ∀ ⦃dest protocol message⦄, Accepted made dest protocol message →
    Ipv4.IsAnswer protocol message
  known : ∀ ⦃dest protocol message⦄, Sent made dest protocol message → w'.hop? dest ≠ none

variable {w w₁ w' : World (Monitored δ)}

namespace World.Waits

theorem refl (w : World (Monitored δ)) : w.Waits [] w :=
  ⟨rfl, fun _ _ _ ⟨_, hmem, _⟩ => (nomatch hmem), fun _ _ _ ⟨_, hlast, _⟩ => nomatch hlast⟩

theorem idle (h : w.Waits made w₁) (hc : w'.device.calls = w₁.device.calls)
    (hop : ∀ ip, w'.hop? ip = w₁.hop? ip) : w.Waits made w' :=
  ⟨hc.trans h.calls_eq, h.isAnswer, fun _ _ _ hs => hop _ ▸ h.known hs⟩

theorem receive (h : w.Waits made w₁) {result : Except NetError Bytes}
    (hc : w'.device.calls = .receive result :: w₁.device.calls) :
    w.Waits (.receive result :: made) w' := by
  refine ⟨by rw [hc, h.calls_eq, List.cons_append], ?_, fun _ _ _ ⟨_, hlast, _⟩ => nomatch hlast⟩
  rintro dest protocol message ⟨frame, hmem, hbears⟩
  exact h.isAnswer ⟨frame, (List.mem_cons.1 hmem).resolve_left nofun, hbears⟩

theorem transmit (h : w.Waits made w₁) {frame : Bytes} {result : Except NetError Unit}
    (hc : w'.device.calls = .transmit frame result :: w₁.device.calls)
    (hf : ∀ ⦃dest protocol message⦄, frame.Bears dest protocol message →
      Ipv4.IsAnswer protocol message ∧ w'.hop? dest ≠ none) :
    w.Waits (.transmit frame result :: made) w' := by
  refine ⟨by rw [hc, h.calls_eq, List.cons_append], ?_, ?_⟩
  · rintro dest protocol message ⟨frame', hmem, hbears⟩
    rcases List.mem_cons.1 hmem with he | hmem
    · obtain ⟨rfl, -⟩ := Call.transmit.inj he
      exact (hf hbears).1
    · exact h.isAnswer ⟨frame', hmem, hbears⟩
  · rintro dest protocol message ⟨frame', hlast, hbears⟩
    obtain ⟨rfl, -⟩ := Call.transmit.inj (Option.some.inj hlast)
    exact (hf hbears).2

end World.Waits

variable [Device δ] {p : Poller (Monitored δ)}

omit [Device δ] in
theorem Icmp.device_noteReply (header : Header) (sent : Option UInt32) (source : Ipv4.Address)
    (w : World (Monitored δ)) : (noteReply header sent source w).device = w.device := by
  cases sent <;> rfl

theorem World.Act.waits (hact : w₁.Act w') (h : w.Waits made w₁) : ∃ made', w.Waits made' w' := by
  cases hact with
  | note capacity packet => exact ⟨_, h.receive rfl⟩
  | takeFrame capacity => exact ⟨_, h.receive rfl⟩
  | noteReply header sent source =>
    refine ⟨made, h.idle (by rw [Icmp.device_noteReply]) fun ip => ?_⟩
    rw [World.hop?, Icmp.host_noteReply]
    rfl
  | sendArp dest source packet =>
    exact ⟨_, h.transmit rfl fun _ _ _ hbears => absurd hbears Bytes.not_bears_arpWire⟩
  | answer hop hm =>
    refine ⟨_, h.transmit rfl fun _ _ _ hbears => ?_⟩
    obtain ⟨rfl, rfl, rfl⟩ := (Bytes.bears_wire hm.length_le).1 hbears
    exact ⟨hm, fun hnone => Option.some_ne_none _ (hop.symm.trans hnone)⟩
  | _ => exact ⟨made, h.idle rfl fun _ => rfl⟩

theorem World.Acts.waits (h : w.Acts w') : ∃ made, w.Waits made w' := by
  induction h with
  | refl => exact ⟨[], .refl w⟩
  | tail _ hact ih =>
    obtain ⟨made, hwaits⟩ := ih
    exact hact.waits hwaits

/-- A packet has gone out exactly if it was taken in the last of the calls. -/
structure Link.Settles (made : List Call) (dest : Ipv4.Address) (protocol : Ipv4.Protocol)
    (message : Bytes) (succeeded : Prop) : Prop where
  succeeded_iff : succeeded ↔ Sent made dest protocol message
  isAnswer : ¬ succeeded → ∀ ⦃dest' protocol' message'⦄, Accepted made dest' protocol' message' →
    Ipv4.IsAnswer protocol' message'

omit [Device δ] in
theorem Link.Settles.of_refused {succeeded : Prop} (h : ¬ succeeded) :
    Settles [] dest protocol message succeeded :=
  ⟨iff_of_false h fun ⟨_, hlast, _⟩ => (nomatch hlast), fun _ _ _ _ ⟨_, hmem, _⟩ => nomatch hmem⟩

theorem Ipv4.send_settles (hp : Net.Acting p.poll) {result : Except NetError Unit}
    (hl : payload.length ≤ maxPayload)
    (h : (send p dest protocol payload).run w = .ok (result, w')) :
    ∃ made, w'.device.calls = made ++ w.device.calls ∧
      Settles made dest protocol payload (result = .ok ()) := by
  obtain ⟨way, w₁, hway, hforwarded⟩ := exists_forwarded_of_send hl h
  obtain ⟨made, hwaits⟩ := (Arp.resolve_acting hp dest _ hway).waits
  have hop : w₁.hop? dest = way.toOption := Arp.hop?_of_resolve hp hway
  cases way with
  | error cause =>
    obtain ⟨rfl, rfl⟩ := hforwarded
    exact ⟨made, hwaits.calls_eq, iff_of_false nofun fun hs => hwaits.known hs hop,
      fun _ => hwaits.isAnswer⟩
  | ok mac =>
    obtain ⟨rfl, rfl⟩ := hforwarded
    let frame := wire w₁.host.interface mac dest protocol w₁.host.nextPacketId payload
    let taken := (Device.transmit frame w₁.device).1
    have hcalls : (w₁.dispatch mac dest protocol payload).device.calls =
      .transmit frame taken :: w₁.device.calls := rfl
    refine ⟨.transmit frame taken :: made, by rw [hcalls, hwaits.calls_eq, List.cons_append],
      ⟨fun htaken => ?_, ?_⟩, ?_⟩
    · exact ⟨frame, congrArg (fun taken => some (Call.transmit frame taken)) htaken,
        (Bytes.bears_wire hl).2 ⟨rfl, rfl, rfl⟩⟩
    · rintro ⟨frame', hlast, -⟩
      exact (Call.transmit.inj (Option.some.inj hlast)).2
    · rintro hrefused dest' protocol' message' ⟨frame', hmem, hbears⟩
      rcases List.mem_cons.1 hmem with he | hmem
      · exact absurd (Call.transmit.inj he).2.symm hrefused
      · exact hwaits.isAnswer ⟨frame', hmem, hbears⟩

open Tcp in
theorem Tcp.seq_of_sendSegment (hp : p.Evolving) {slot : Slot} {flags : Flags} {data : Bytes}
    {result : Except NetError Unit} (hv : w.Valid) (hn : (socketAt slot w).state ≠ .listen)
    (hd : data.length ≤ maxPayload)
    (h : (sendSegment p slot flags data).run w = .ok (result, w')) :
    (socketAt slot w').seq = (socketAt slot w).seq := by
  have hevolves := Net.Ensures.of_ok (sendSegment_ensures hp slot flags hd hn hv) h
  exact congrArg Prod.snd (hevolves.origin_eq hn)

open Tcp in
theorem Tcp.send_settles (hp : p.Evolving) (ha : Net.Acting p.poll) (hv : w.Valid) {handle : Nat}
    {slot : Slot} {data : Bytes} {result : Except NetError Nat}
    (hs : w.host.tcp.slot handle = .ok slot)
    (h : (send p handle data).run w = .ok (result, w')) :
    ∃ made, w'.device.calls = made ++ w.device.calls ∧
      Settles made (socketAt slot w).remoteIp .tcp
        ((socketAt slot w).segment w.host.interface.ip { ack := true, psh := true } data)
        (∃ n, result = .ok n) ∧
      (∀ n, result = .ok n → n = data.length ∧
        (socketAt slot w').seq = (socketAt slot w).seq + UInt32.ofNat data.length) ∧
      (∀ cause, result = .error cause → (socketAt slot w').seq = (socketAt slot w).seq) := by
  rw [run_send, hs] at h
  dsimp only at h
  split at h
  · obtain ⟨rfl, rfl⟩ := Prod.mk.inj (Except.ok.inj h)
    exact ⟨[], rfl, .of_refused (by simp), nofun, fun _ _ => rfl⟩
  split at h
  · obtain ⟨rfl, rfl⟩ := Prod.mk.inj (Except.ok.inj h)
    exact ⟨[], rfl, .of_refused (by simp), nofun, fun _ _ => rfl⟩
  rename_i hstate hlength
  have hd : data.length ≤ maxPayload := Nat.le_of_not_lt hlength
  have hn : (socketAt slot w).state ≠ .listen := by
    rw [not_not.1 hstate]
    nofun
  rw [ExceptT.run_bind] at h
  obtain ⟨sent, w₁, hsent, hrest⟩ := Net.exists_of_bind_eq_ok h
  have hseq := seq_of_sendSegment hp hv hn hd hsent
  rw [run_sendSegment hd] at hsent
  obtain ⟨made, hcalls, hsettles⟩ :=
    Ipv4.send_settles ha (length_segment_le _ w.host.interface.ip _ hd) hsent
  cases sent with
  | ok _ =>
    obtain ⟨rfl, rfl⟩ := Prod.mk.inj (Except.ok.inj hrest)
    refine ⟨made, hcalls, ⟨?_, fun hf => absurd ⟨_, rfl⟩ hf⟩, ?_, nofun⟩
    · exact iff_of_true ⟨_, rfl⟩ (hsettles.succeeded_iff.1 rfl)
    · rintro n ⟨⟩
      refine ⟨rfl, ?_⟩
      rw [socketAt_advanceSeq, if_pos rfl, hseq]
  | error cause =>
    obtain ⟨rfl, rfl⟩ := Prod.mk.inj (Except.ok.inj hrest)
    refine ⟨made, hcalls, ⟨?_, fun _ => hsettles.isAnswer nofun⟩, nofun, fun _ _ => hseq⟩
    exact iff_of_false (by simp) fun hsent => nomatch hsettles.succeeded_iff.2 hsent

theorem Udp.send_settles (ha : Net.Acting p.poll) {handle : Nat} {slot : Slot} {port : UInt16}
    {result : Except NetError Unit} (hs : w.host.udp.slot handle = .ok slot)
    (h : (send p handle dest port payload).run w = .ok (result, w')) :
    ∃ made, w'.device.calls = made ++ w.device.calls ∧
      Settles made dest .udp (encode (w.host.udp.get slot).port port payload)
        (result = .ok ()) := by
  rw [run_send, hs] at h
  dsimp only at h
  split at h
  · obtain ⟨rfl, rfl⟩ := Prod.mk.inj (Except.ok.inj h)
    exact ⟨[], rfl, .of_refused nofun⟩
  · rename_i hl
    exact Ipv4.send_settles ha (length_encode_le _ port (Nat.le_of_not_lt hl)) h

/-- A send succeeds exactly if its frame was the last that was taken; if it fails, only answers went out. -/
theorem sends_all_or_nothing (hw : Reachable w) :
    (∀ dest protocol payload,
      Attempt.Ends (Ipv4.send · dest protocol payload) w ∧
      (Ipv4.maxPayload < payload.length →
        ∀ p, (Ipv4.send p dest protocol payload).Refuses w .messageTooLong) ∧
      ∀ fuel result w',
        (Ipv4.send (Poller.ofFuel fuel) dest protocol payload).run w = .ok (result, w') →
          ∃ made, w'.device.calls = made ++ w.device.calls ∧
            Settles made dest protocol payload (result = .ok ())) ∧
    (∀ handle dest port payload,
      Attempt.Ends (Udp.send · handle dest port payload) w ∧
      (∀ cause, w.host.udp.slot handle = .error cause → cause = .badHandle ∧
        ∀ p, (Udp.send p handle dest port payload).Refuses w cause) ∧
      ∀ slot, w.host.udp.slot handle = .ok slot →
        (Udp.maxPayload < payload.length →
          ∀ p, (Udp.send p handle dest port payload).Refuses w .messageTooLong) ∧
        ∀ fuel result w',
          (Udp.send (Poller.ofFuel fuel) handle dest port payload).run w = .ok (result, w') →
            ∃ made, w'.device.calls = made ++ w.device.calls ∧
              Settles made dest .udp (Udp.encode (w.host.udp.get slot).port port payload)
                (result = .ok ()) ∧
              (result ≠ .ok () → ∀ dest' message, ¬ Accepted made dest' .udp message)) ∧
    (∀ handle data,
      Attempt.Ends (Tcp.send · handle data) w ∧
      (∀ cause, w.host.tcp.slot handle = .error cause → cause = .badHandle ∧
        ∀ p, (Tcp.send p handle data).Refuses w cause) ∧
      ∀ slot, w.host.tcp.slot handle = .ok slot →
        let s := Tcp.socketAt slot w
        (s.state ≠ .established → ∀ p, (Tcp.send p handle data).Refuses w .invalidState) ∧
        (s.state = .established → Tcp.maxPayload < data.length →
          ∀ p, (Tcp.send p handle data).Refuses w .messageTooLong) ∧
        ∀ fuel result w', (Tcp.send (Poller.ofFuel fuel) handle data).run w = .ok (result, w') →
          ∃ made, w'.device.calls = made ++ w.device.calls ∧
            Settles made s.remoteIp .tcp
              (s.segment w.host.interface.ip { ack := true, psh := true } data)
              (∃ n, result = .ok n) ∧
            (∀ n, result = .ok n → n = data.length ∧
              (Tcp.socketAt slot w').seq = s.seq + UInt32.ofNat data.length) ∧
            (∀ cause, result = .error cause → (Tcp.socketAt slot w').seq = s.seq ∧
              ∀ dest' (s' : Tcp.Socket) own flags data',
                Accepted made dest' .tcp (s'.segment own flags data') →
                  flags.psh = false ∧ data' = [])) := by
  refine ⟨fun dest protocol payload => ⟨?_, fun hl p => ?_, fun fuel result w' hr => ?_⟩,
    fun handle dest port payload => ⟨?_, fun cause hs => ⟨?_, fun p => ?_⟩,
      fun slot hs => ⟨fun hl p => ?_, ?_⟩⟩,
    fun handle data => ⟨?_, fun cause hs => ⟨?_, fun p => ?_⟩,
      fun slot hs => ⟨fun hstate p => ?_, fun hstate hl p => ?_, ?_⟩⟩⟩
  · exact Attempt.ends_of_perform hw (.ipv4Send dest protocol payload) trivial fun _ => rfl
  · exact Ipv4.run_send_long hl
  · by_cases hl : payload.length ≤ Ipv4.maxPayload
    · exact Ipv4.send_settles (Net.poll_acting fuel) hl hr
    · obtain ⟨rfl, rfl⟩ := Prod.mk.inj (Except.ok.inj
        ((Ipv4.run_send_long (Nat.lt_of_not_le hl)).symm.trans hr))
      exact ⟨[], rfl, .of_refused nofun⟩
  · exact Attempt.ends_of_perform hw (.udpSend handle dest port payload) trivial fun _ => rfl
  · exact Slots.eq_badHandle_of_ofHandle hs
  · rw [Attempt.Refuses, Udp.run_send, hs]
  · rw [Attempt.Refuses, Udp.run_send, hs]
    exact if_pos hl
  · intro fuel result w' hr
    obtain ⟨made, hcalls, hsettles⟩ := Udp.send_settles (Net.poll_acting fuel) hs hr
    exact ⟨made, hcalls, hsettles, fun hf _ _ ha =>
      Ipv4.not_isAnswer_udp (hsettles.isAnswer hf ha)⟩
  · exact Attempt.ends_of_perform hw (.tcpSend handle data) trivial fun _ => rfl
  · exact Slots.eq_badHandle_of_ofHandle hs
  · rw [Attempt.Refuses, Tcp.run_send, hs]
  · rw [Attempt.Refuses, Tcp.run_send, hs]
    exact if_pos hstate
  · rw [Attempt.Refuses, Tcp.run_send, hs]
    exact (if_neg (not_not.2 hstate)).trans (if_pos hl)
  · intro fuel result w' hr
    obtain ⟨made, hcalls, hsettles, hok, herror⟩ :=
      Tcp.send_settles (Poller.evolving_ofFuel fuel) (Net.poll_acting fuel) hw.valid hs hr
    refine ⟨made, hcalls, hsettles, hok, fun cause hc => ⟨herror cause hc, ?_⟩⟩
    intro dest' s' own flags data' ha
    exact (hsettles.isAnswer (by simp [hc]) ha).bare

namespace Tcp

def called (refusals : List (Nat × NetError)) : World (Monitored Script) :=
  (World.start ⟨⟨[], 0, refusals, [(1, [.frame Arp.peerAnswer])]⟩, []⟩ ⟨0, 500, []⟩
    Interface.default).after 5
      [.tcpOpen, .tcpBind 0 80, .tcpListen 0,
        .handleFrame (peerFrame 5000 80 100 0 { syn := true }),
        .handleFrame (peerFrame 5000 80 101 1 { ack := true })]

end Tcp

open Tcp in
theorem sends_all_or_nothing_called :
    let w := called []
    let v := called [(2, .linkError)]
    let flags : Flags := { ack := true, psh := true }
    (Reachable w ∧ w.host.tcp.slot 0 = .ok 0 ∧ ∃ w' made,
      (send (Poller.ofFuel 9) 0 [1, 2, 3]).run w = .ok (.ok 3, w') ∧
      w'.device.calls = made ++ w.device.calls ∧
      Sent made peer.ip .tcp ((socketAt 0 w).segment w.host.interface.ip flags [1, 2, 3]) ∧
      (socketAt 0 w').seq = (socketAt 0 w).seq + 3) ∧
    Reachable v ∧ v.host.tcp.slot 0 = .ok 0 ∧ ∃ v' made,
      (send (Poller.ofFuel 9) 0 [1, 2, 3]).run v = .ok (.error .linkError, v') ∧
      v'.device.calls = made ++ v.device.calls ∧
      ¬ Sent made peer.ip .tcp ((socketAt 0 v).segment v.host.interface.ip flags [1, 2, 3]) ∧
      (socketAt 0 v').seq = (socketAt 0 v).seq := by
  intro w v flags
  have hw : Reachable w := .after (.start ..) 5 _
  have hv : Reachable v := .after (.start ..) 5 _
  have hslot : w.host.tcp.slot 0 = .ok 0 := by decide +kernel
  have hslot' : v.host.tcp.slot 0 = .ok 0 := by decide +kernel
  have hip : (socketAt 0 w).remoteIp = peer.ip := by decide +kernel
  have hip' : (socketAt 0 v).remoteIp = peer.ip := by decide +kernel
  have hsent : ((send (Poller.ofFuel 9) 0 [1, 2, 3]).run w).map Prod.fst = .ok (.ok 3) := by
    decide +kernel
  have hrefused : ((send (Poller.ofFuel 9) 0 [1, 2, 3]).run v).map Prod.fst =
      .ok (.error .linkError) := by
    decide +kernel
  refine ⟨⟨hw, hslot, ?_⟩, hv, hslot', ?_⟩
  · obtain ⟨_, w', hr, rfl⟩ := Net.exists_of_map_eq_ok hsent
    obtain ⟨made, hcalls, hsettles, hok, -⟩ :=
      (((sends_all_or_nothing hw).2.2 0 [1, 2, 3]).2.2 0 hslot).2.2 9 _ w' hr
    rw [hip] at hsettles
    exact ⟨w', made, hr, hcalls, hsettles.succeeded_iff.1 ⟨3, rfl⟩, (hok 3 rfl).2⟩
  · obtain ⟨_, v', hr, rfl⟩ := Net.exists_of_map_eq_ok hrefused
    obtain ⟨made, hcalls, hsettles, -, herror⟩ :=
      (((sends_all_or_nothing hv).2.2 0 [1, 2, 3]).2.2 0 hslot').2.2 9 _ v' hr
    rw [hip'] at hsettles
    refine ⟨v', made, hr, hcalls, fun hs => ?_, (herror _ rfl).1⟩
    obtain ⟨n, hn⟩ := hsettles.succeeded_iff.2 hs
    cases hn

namespace Icmp

def hail (station : Interface) : Bytes :=
  Ipv4.wire station Interface.default.mac Interface.default.ip .icmp 0 (echoRequest 1 0)

def echo : Bytes := (echoReply (echoRequest 1 0)).toOption.getD []

def neighbour : Interface := { Tcp.peer with ip := 0x0A000002, mac := ⟨2, 0, 0, 0, 0, 2⟩ }

def hailed (refusals : List (Nat × NetError)) (arrivals : List Bytes) : World (Monitored Script) :=
  .start ⟨⟨[], 0, refusals, [(0, arrivals.map .frame)]⟩, []⟩ ⟨0, 500, []⟩ Interface.default

end Icmp

open Icmp in
/-- Data that read like an answer may go out as one, though the send of them fails. -/
theorem answer_passes_for_data :
    let w := hailed [(2, .linkError)] [Arp.peerAnswer, hail Tcp.peer]
    let v := hailed []
      (List.replicate 63 (Arp.showing (neighbour.ip, neighbour.mac)) ++ [hail neighbour])
    (Reachable w ∧ w.device.calls = [] ∧ ∃ w',
      (Ipv4.send (Poller.ofFuel 4) Tcp.peer.ip .icmp echo).run w = .ok (.error .linkError, w') ∧
        Accepted w'.device.calls Tcp.peer.ip .icmp echo) ∧
    Reachable v ∧ v.device.calls = [] ∧ ∃ v',
      (Ipv4.send (Poller.ofFuel 4) Tcp.peer.ip .icmp echo).run v = .ok (.error .arpFailed, v') ∧
        Sent v'.device.calls neighbour.ip .icmp echo := by
  intro w v
  let own := Interface.default
  let answer (station : Interface) : Bytes :=
    Ipv4.wire own station.mac station.ip .icmp 0 echo
  have hbears (station : Interface) : (answer station).Bears station.ip .icmp echo :=
    (Bytes.bears_wire (by decide)).2 ⟨rfl, rfl, rfl⟩
  have hanswered : ((Ipv4.send (Poller.ofFuel 4) Tcp.peer.ip .icmp echo).run w).map
      (fun r => (r.1, decide (Call.transmit (answer Tcp.peer) (.ok ()) ∈ r.2.device.calls))) =
        .ok (.error .linkError, true) := by
    decide +kernel
  have hlast : ((Ipv4.send (Poller.ofFuel 4) Tcp.peer.ip .icmp echo).run v).map
      (fun r => (r.1, r.2.device.calls.head?)) =
        .ok (.error .arpFailed, some (.transmit (answer neighbour) (.ok ()))) := by
    decide +kernel
  obtain ⟨_, w', hw', htold⟩ := Net.exists_of_map_eq_ok hanswered
  obtain ⟨rfl, hmem⟩ := Prod.mk.inj htold
  obtain ⟨_, v', hv', htold⟩ := Net.exists_of_map_eq_ok hlast
  obtain ⟨rfl, hhead⟩ := Prod.mk.inj htold
  refine ⟨⟨.start .., rfl, w', hw', _, of_decide_eq_true hmem, hbears _⟩, .start .., rfl, v', hv', _,
    hhead, hbears _⟩

end InetHost
