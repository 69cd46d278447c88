import Mathlib.Logic.Relation
import InetHost.Proofs.Arp.Resolution
import InetHost.Proofs.Ipv4.Forwarding

/-! What the host does while it waits and reads frames comes down to single acts. An act that is seen in
more than one place, in the journal and in the host, is one act all the same: a mapping that is learnt, an
answer to an echo request, a packet that takes an identifier and is handed over. -/

namespace InetHost

def Event.isNews : Event → Bool
  | transmitted .. | arpLearned .. | echoReplied .. => true
  | _ => false

inductive Ipv4.IsAnswer : Protocol → Bytes → Prop
  | echo {message answer : Bytes} : message.length ≤ Icmp.maxReply →
      Icmp.echoReply message = .ok answer → IsAnswer .icmp answer
  | segment (s : Tcp.Socket) (own : Address) {flags : Tcp.Flags} : flags.psh = false →
      IsAnswer .tcp (s.segment own flags [])

theorem Ipv4.IsAnswer.length_le {protocol : Protocol} {payload : Bytes}
    (h : IsAnswer protocol payload) : payload.length ≤ maxPayload := by
  cases h with
  | echo hl ha => exact Icmp.length_of_echoReply hl ha
  | segment s own _ => exact Tcp.length_segment_le s own _ (Nat.zero_le _)

variable {δ α β : Type} [Link.Device δ]

/-- A single act of the host. -/
inductive World.Act : World δ → World δ → Prop
  | note (w : World δ) (capacity : Nat) (packet : Arp.Packet) :
      Act w (Arp.note packet (w.takeFrame capacity).2)
  | noteReply (w : World δ) (header : Icmp.Header) (sent : Option UInt32) (source : Ipv4.Address) :
      Act w (Icmp.noteReply header sent source w)
  | record (w : World δ) {e : Event} : e.isNews = false → Act w (w.record e)
  | readClock (w : World δ) : Act w w.readClock.2
  | takeFrame (w : World δ) (capacity : Nat) : Act w (w.takeFrame capacity).2
  | sendArp (w : World δ) (dest source : Mac) (packet : Arp.Packet) :
      Act w (w.handOver (Arp.wire dest source packet)).2
  | answer {w : World δ} {mac : Mac} {dest : Ipv4.Address} {protocol : Ipv4.Protocol}
      {payload : Bytes} : w.hop? dest = some mac → Ipv4.IsAnswer protocol payload →
      Act w (w.dispatch mac dest protocol payload)
  | store (w : World δ) (slot : Udp.Slot) (d : Udp.Datagram) :
      Act w (Udp.modifySockets (fun t => t.store slot d) w)
  | updateSocket (w : World δ) (slot : Tcp.Slot) (f : Tcp.Socket → Tcp.Socket) :
      Act w (Tcp.updateSocket slot f w)

abbrev World.Acts : World δ → World δ → Prop := Relation.ReflTransGen World.Act

namespace World.Acts

variable {w w₁ : World δ} {slot : Tcp.Slot}

theorem record (h : w.Acts w₁) {e : Event} (he : e.isNews = false) : w.Acts (w₁.record e) :=
  h.tail (.record w₁ he)

theorem updateSocket (h : w.Acts w₁) (f : Tcp.Socket → Tcp.Socket) :
    w.Acts (Tcp.updateSocket slot f w₁) :=
  h.tail (.updateSocket w₁ slot f)

theorem setState (h : w.Acts w₁) (next : Tcp.State) : w.Acts (Tcp.setState slot next w₁) := by
  by_cases hs : (Tcp.socketAt slot w₁).state = next
  · rwa [Tcp.setState_of_eq hs]
  · rw [Tcp.setState_of_ne hs]
    exact (h.record rfl).updateSocket _

theorem release (w : World δ) : w.Acts (Tcp.release slot w) :=
  (setState .refl .closed).updateSocket _

theorem handleReset (state : Tcp.State) (source : Ipv4.Address) (w : World δ) :
    w.Acts (Tcp.handleReset slot state source w) := by
  unfold Tcp.handleReset
  split
  · exact .refl
  · exact ((record .refl rfl).updateSocket _).setState _

theorem keepData (buffer : Ring Tcp.bufferSize) (length dropped : Nat) (w : World δ) :
    w.Acts (Tcp.keepData slot buffer length dropped w) := by
  unfold Tcp.keepData
  dsimp only
  split
  · exact (updateSocket .refl _).updateSocket _
  · exact ((updateSocket .refl _).record rfl).updateSocket _

end World.Acts

theorem World.Act.interface_eq {w w' : World δ} (h : w.Act w') :
    w'.host.interface = w.host.interface := by
  cases h with
  | noteReply => rw [Icmp.host_noteReply]
  | _ => rfl

theorem World.Acts.interface_eq {w w' : World δ} (h : w.Acts w') :
    w'.host.interface = w.host.interface := by
  induction h with
  | refl => rfl
  | tail _ hact ih => rw [hact.interface_eq, ih]

namespace Net

omit [Link.Device δ] in
theorem exists_of_check_bind_eq_ok {r : Except Fault α} {f : α → Net δ β} {b : β} {w w' : World δ}
    (h : (check r >>= f : Net δ β) w = .ok (b, w')) : ∃ a, r = .ok a ∧ f a w = .ok (b, w') := by
  cases r with
  | ok a => exact ⟨a, rfl, h⟩
  | error fault => cases h

def Acting (m : Net δ α) : Prop :=
  ∀ ⦃w : World δ⦄ ⦃a : α⦄ ⦃w' : World δ⦄, m w = .ok (a, w') → w.Acts w'

namespace Acting

variable {m m' : Net δ α}

theorem pure (a : α) : Acting (pure a : Net δ α) := by
  rintro w _ _ ⟨⟩
  exact Relation.ReflTransGen.refl

theorem throw (halt : Halt) : Acting (throw halt : Net δ α) := fun _ _ _ h => nomatch h

theorem bind {f : α → Net δ β} (h : Acting m) (hf : ∀ a, Acting (f a)) : Acting (m >>= f) := by
  intro w b w' hrun
  obtain ⟨a, w₁, hm, hrest⟩ := exists_of_bind_eq_ok hrun
  exact (h hm).trans (hf a hrest)

theorem get_bind {f : World δ → Net δ β} (h : ∀ w, Acting (f w)) : Acting (get >>= f) :=
  fun w _ _ hrun => h w hrun

theorem ite {c : Prop} [Decidable c] (h : Acting m) (h' : Acting m') :
    Acting (if c then m else m') := by
  split
  · exact h
  · exact h'

theorem check (r : Except Fault α) : Acting (check r : Net δ α) := by
  cases r with
  | ok a => exact pure a
  | error f => exact throw (.fault f)

theorem modifyGet {f : World δ → α × World δ} (h : ∀ w : World δ, w.Acts (f w).2) :
    Acting (modifyGet f : Net δ α) := by
  intro w a w' hrun
  obtain rfl : (f w).2 = w' := congrArg Prod.snd (Except.ok.inj hrun)
  exact h w

theorem record {e : Event} (he : e.isNews = false) :
    Acting (modify (World.record e) : Net δ PUnit) :=
  modifyGet fun w => .single (.record w he)

theorem updateSocket {slot : Tcp.Slot} (f : Tcp.Socket → Tcp.Socket) :
    Acting (modify (Tcp.updateSocket slot f) : Net δ PUnit) :=
  modifyGet fun w => .single (.updateSocket w slot f)

theorem setState {slot : Tcp.Slot} (next : Tcp.State) :
    Acting (modify (Tcp.setState slot next) : Net δ PUnit) :=
  modifyGet fun _ => World.Acts.setState .refl next

theorem modify {f : World δ → World δ} (h : ∀ w : World δ, w.Acts (f w)) :
    Acting (modify f : Net δ PUnit) :=
  modifyGet h

theorem readClock : Acting (MonadState.modifyGet World.readClock : Net δ UInt64) :=
  modifyGet fun w => .single (.readClock w)

end Acting

end Net

namespace Attempt

def Acting (a : Attempt δ α) : Prop := Net.Acting a.run

namespace Acting

variable {a : Attempt δ α}

theorem pure (x : α) : Acting (pure x : Attempt δ α) := Net.Acting.pure (Except.ok x)

theorem throw (e : NetError) : Acting (throw e : Attempt δ α) := Net.Acting.pure (Except.error e)

theorem bind {f : α → Attempt δ β} (h : Acting a) (hf : ∀ x, Acting (f x)) : Acting (a >>= f) := by
  rw [Acting, ExceptT.run_bind]
  refine Net.Acting.bind h fun r => ?_
  cases r with
  | ok x => exact hf x
  | error e => exact .pure _

theorem get_bind {f : World δ → Attempt δ β} (h : ∀ w, Acting (f w)) : Acting (get >>= f) :=
  fun w _ _ hrun => h w hrun

theorem lift {m : Net δ α} (h : Net.Acting m) : Acting (liftM m : Attempt δ α) :=
  Net.Acting.bind h fun x => .pure (Except.ok x)

end Acting

end Attempt

variable {p : Poller δ}

section Waiting

variable {poll : Net δ Nat}

theorem Net.waitRounds_acting (hp : Acting poll) (deadline : UInt64) (done : Host → Bool)
    (rounds : Nat) : Acting (waitRounds poll deadline done rounds) := by
  induction rounds with
  | zero => exact .throw .outOfFuel
  | succ rounds ih =>
    refine .get_bind fun w => .ite (.pure true) (.bind .readClock fun time => ?_)
    exact .ite (.pure false) (.bind hp fun _ => ih)

theorem Net.waitUntil_acting (hp : Acting p.poll) (timeout : UInt64) (done : Host → Bool) :
    Acting (waitUntil p timeout done) :=
  .bind .readClock fun _ => waitRounds_acting hp _ done p.rounds

end Waiting

namespace Arp

theorem request_acting (target : Ipv4.Address) : Attempt.Acting (request target : Attempt δ Unit) := by
  intro w _ w' hrun
  obtain rfl := congrArg Prod.snd (Except.ok.inj ((run_request target w).symm.trans hrun))
  exact .tail (.single (.record w rfl)) (.sendArp _ _ _ _)

theorem sendReply_acting (asked : Packet) : Attempt.Acting (sendReply asked : Attempt δ Unit) := by
  intro w _ w' hrun
  obtain rfl := congrArg Prod.snd (Except.ok.inj ((run_sendReply asked w).symm.trans hrun))
  exact .single (.sendArp w _ _ _)

theorem resolve_acting (hp : Net.Acting p.poll) (ip : Ipv4.Address) (timeout : UInt64) :
    Attempt.Acting (resolve p ip timeout) := by
  refine .get_bind fun own => .get_bind fun w => ?_
  cases w.host.arp.lookup? (own.interface.nextHop ip) with
  | some mac => exact .pure mac
  | none =>
    have hwait : Net.Acting (Net.waitUntil p timeout fun h =>
        (h.arp.lookup? (own.interface.nextHop ip)).isSome) := Net.waitUntil_acting hp timeout _
    refine .bind (request_acting _) fun _ => .bind (.lift hwait) fun _ => .get_bind fun w => ?_
    cases w.host.arp.lookup? (own.interface.nextHop ip) with
    | some mac => exact .pure mac
    | none => exact .bind (.lift (.record rfl)) fun _ => .throw .timeout

omit [Link.Device δ] in
theorem lookup?_of_await {target : Ipv4.Address} {timeout : UInt64} {result : Except NetError Mac}
    (h : (await p target timeout).run w = .ok (result, w')) :
    w'.host.arp.lookup? target = result.toOption := by
  rw [await, ExceptT.run_bind] at h
  obtain ⟨met, w₁, hwait, hrest⟩ := Net.exists_of_bind_eq_ok h
  obtain ⟨_, _, -, ⟨⟩⟩ := Net.exists_of_bind_eq_ok (m := Net.waitUntil p timeout (knows target))
    (f := fun met => pure (Except.ok met)) hwait
  dsimp only at hrest
  rw [Attempt.run_bind_of_eq_ok (Attempt.run_get w₁)] at hrest
  cases hc : w₁.host.arp.lookup? target with
  | some mac =>
    rw [hc] at hrest
    obtain ⟨rfl, rfl⟩ := Prod.mk.inj (Except.ok.inj hrest)
    exact hc
  | none =>
    rw [hc] at hrest
    obtain ⟨rfl, rfl⟩ := Prod.mk.inj (Except.ok.inj hrest)
    exact hc

theorem hop?_of_resolve {ip : Ipv4.Address} {timeout : UInt64} {result : Except NetError Mac}
    (hp : Net.Acting p.poll) (h : (resolve p ip timeout).run w = .ok (result, w')) :
    w'.hop? ip = result.toOption := by
  have hsame := (resolve_acting hp ip timeout h).interface_eq
  rw [World.hop?, hsame]
  cases hc : w.host.arp.lookup? (w.host.interface.nextHop ip) with
  | some mac =>
    have hknown : (resolve p ip timeout).run w = .ok (.ok mac, w) :=
      Attempt.run_eq_of_ensures fun _ => resolve_known hc
    obtain ⟨rfl, rfl⟩ := Prod.mk.inj (Except.ok.inj (hknown.symm.trans h))
    exact hc
  | none =>
    have hrequest (target : Ipv4.Address) :
        (request target).run w = .ok ((Arp.asked target w).1, (Arp.asked target w).2) :=
      run_request target w
    rw [run_resolve_of_unknown hc, ExceptT.run_bind, Net.bind_of_eq_ok (hrequest _)] at h
    cases hsent : (Arp.asked (w.host.interface.nextHop ip) w).1 with
    | error cause =>
      rw [hsent] at h
      obtain ⟨rfl, rfl⟩ := Prod.mk.inj (Except.ok.inj h)
      exact hc
    | ok _ =>
      rw [hsent] at h
      exact lookup?_of_await h

end Arp

namespace Net

/-- A run that begins when a frame has been taken is made up of acts, with the taking. -/
def Heeding (m : Net δ α) : Prop :=
  ∀ ⦃w : World δ⦄ ⦃capacity : Nat⦄ ⦃a : α⦄ ⦃w' : World δ⦄,
    m (w.takeFrame capacity).2 = .ok (a, w') → w.Acts w'

namespace Heeding

theorem of_acting {m : Net δ α} (h : Acting m) : Heeding m :=
  fun w capacity _ _ hrun => .head (.takeFrame w capacity) (h hrun)

theorem check_bind {r : Except Fault α} {f : α → Net δ β} (h : ∀ a, Heeding (f a)) :
    Heeding (check r >>= f) := by
  intro w capacity b w' hrun
  obtain ⟨a, -, hrest⟩ := exists_of_check_bind_eq_ok hrun
  exact h a hrest

end Heeding

end Net

theorem Arp.handle_heeding (data : Bytes) : Net.Heeding (handle data : Net δ Unit) := by
  refine .check_bind fun packet? => ?_
  cases packet? with
  | none => exact .of_acting (.pure ())
  | some packet =>
    -- The frame, the mapping and its line in the journal are one act.
    have hnote {m : Net δ Unit} (hm : Net.Acting m) : Net.Heeding (do
        modify (learn packet.senderIp packet.senderMac)
        modify (World.record (.arpLearned packet.senderIp packet.senderMac))
        m) :=
      fun w capacity _ _ hrun => .head (.note w capacity packet) (hm hrun)
    refine hnote (.get_bind fun w => .ite ?_ (.pure ()))
    refine .bind (sendReply_acting packet) fun result => ?_
    cases result with
    | ok _ => exact .pure ()
    | error cause => exact .record rfl

namespace Ipv4

theorem send_acting (hp : Net.Acting p.poll) (dest : Address) {protocol : Protocol}
    {payload : Bytes} (hm : IsAnswer protocol payload) :
    Attempt.Acting (send p dest protocol payload) := by
  intro w _ w' hrun
  obtain ⟨way, w₁, hway, hforwarded⟩ := exists_forwarded_of_send hm.length_le hrun
  have hacts : w.Acts w₁ := Arp.resolve_acting hp dest _ hway
  cases way with
  | ok mac =>
    obtain ⟨-, rfl⟩ := hforwarded
    exact hacts.tail (.answer (Arp.hop?_of_resolve hp hway) hm)
  | error _ =>
    obtain ⟨-, rfl⟩ := hforwarded
    exact hacts

end Ipv4

namespace Icmp

theorem sendReply_acting (hp : Net.Acting p.poll) (dest : Ipv4.Address) (message : Bytes) :
    Net.Acting (sendReply p dest message) := by
  by_cases hl : maxReply < message.length
  · rw [sendReply, if_pos hl]
    exact .pure ()
  rw [sendReply, if_neg hl]
  intro w _ w' hrun
  obtain ⟨way, w₁, hway, hrest⟩ := Net.exists_of_bind_eq_ok hrun
  have hacts : w.Acts w₁ := Arp.resolve_acting hp dest _ hway
  cases way with
  | error cause => exact hacts.trans (Net.Acting.pure () hrest)
  | ok mac =>
    obtain ⟨copy, hcopy, hrest⟩ := Net.exists_of_check_bind_eq_ok hrest
    obtain ⟨reply, hreply, hrest⟩ := Net.exists_of_check_bind_eq_ok hrest
    rw [Bytes.eq_of_within hcopy] at hreply
    have hanswer : Ipv4.IsAnswer .icmp reply := .echo (Nat.le_of_not_lt hl) hreply
    let frame := Ipv4.wire w₁.host.interface mac dest .icmp w₁.host.nextPacketId reply
    have hsent : (Ipv4.transmit mac dest .icmp w₁.host.nextPacketId reply).run (Ipv4.takeId w₁).2 =
        .ok ((Link.Device.transmit frame w₁.device).1, w₁.dispatch mac dest .icmp reply) :=
      Attempt.run_eq_of_ensures fun Q =>
        Ipv4.transmit_ensures mac dest .icmp _ hanswer.length_le
    have htake : (modifyGet Ipv4.takeId : Net δ UInt16) w₁ =
      .ok (w₁.host.nextPacketId, (Ipv4.takeId w₁).2) := rfl
    rw [Net.bind_of_eq_ok htake, Net.bind_of_eq_ok hsent] at hrest
    refine hacts.trans (.head (.answer (Arp.hop?_of_resolve hp hway) hanswer) ?_)
    cases hresult : (Link.Device.transmit frame w₁.device).1 with
    | ok _ =>
      rw [hresult] at hrest
      exact Net.Acting.pure () hrest
    | error cause =>
      rw [hresult] at hrest
      exact Net.Acting.record rfl hrest

theorem handle_acting (hp : Net.Acting p.poll) (message : Bytes) (source : Ipv4.Address) :
    Net.Acting (handle p message source) := by
  refine .bind (.check _) fun header? => ?_
  cases header? with
  | none => exact .pure ()
  | some header =>
    refine .ite (.pure ()) (.ite ?_ (.ite (sendReply_acting hp source message) (.pure ())))
    refine .bind (.check _) fun sent => .modify fun w => ?_
    exact .single (.noteReply w header sent source)

end Icmp

theorem Udp.handle_acting (message : Bytes) (source : Ipv4.Address) :
    Net.Acting (handle message source : Net δ Unit) := by
  refine .bind (.check _) fun header? => ?_
  cases header? with
  | none => exact .pure ()
  | some header =>
    refine .ite (.pure ()) (.bind (.check _) fun payload => .get_bind fun w => ?_)
    cases w.host.udp.listener? header.dest with
    | none => exact .pure ()
    | some slot =>
      refine .bind (.check _) fun kept => .bind (.check _) fun kept => ?_
      refine .modify fun w : World δ => ?_
      exact (World.Acts.record .refl rfl).tail (.store _ slot _)

namespace Tcp

variable {slot : Slot}

theorem sendSegment_acting (hp : Net.Acting p.poll) {flags : Flags} (h : flags.psh = false) :
    Attempt.Acting (sendSegment p slot flags []) := by
  refine .get_bind fun w => ?_
  dsimp only
  cases hm : ((socketAt slot w).segment w.interface.ip flags []).within Ipv4.maxPayload with
  | ok message =>
    rw [Bytes.eq_of_within hm]
    exact Ipv4.send_acting hp _ (.segment _ _ h)
  | error fault => exact fun _ _ _ hrun => nomatch hrun

theorem sendAck_acting (hp : Net.Acting p.poll) : Net.Acting (sendAck p slot) := by
  refine .bind (sendSegment_acting hp rfl) fun result => ?_
  cases result with
  | ok _ => exact .pure ()
  | error cause => exact .record rfl

theorem acceptConnection_acting (hp : Net.Acting p.poll) (header : Header)
    (source : Ipv4.Address) : Net.Acting (acceptConnection p slot header source) := by
  refine .bind (.updateSocket _) fun _ => .bind (.setState _) fun _ => ?_
  refine .bind (sendSegment_acting hp rfl) fun result => ?_
  cases result with
  | ok _ => exact .updateSocket _
  | error cause => exact .bind (.record rfl) fun _ => .updateSocket _

theorem acceptData_acting (hp : Net.Acting p.poll) (source : Ipv4.Address)
    (message payload : Bytes) : Net.Acting (acceptData p slot source message payload) := by
  refine .ite (.pure ()) (.get_bind fun w => ?_)
  refine .bind (.check _) fun pushed => .bind (.check _) fun dropped => ?_
  exact .bind (.record rfl) fun _ => .bind (.modify (World.Acts.keepData _ _ _)) fun _ =>
    sendAck_acting hp

theorem acceptFin_acting (hp : Net.Acting p.poll) (header : Header) :
    Net.Acting (acceptFin p slot header) :=
  .bind (.updateSocket _) fun _ => .bind (.setState _) fun _ => sendAck_acting hp

theorem finish_acting (hp : Net.Acting p.poll) (header : Header) :
    Net.Acting (finish p slot header) :=
  .bind (.updateSocket _) fun _ => .bind (sendAck_acting hp) fun _ => .setState _

theorem advance_acting (hp : Net.Acting p.poll) (state : State) (header : Header)
    (message : Bytes) (source : Ipv4.Address) :
    Net.Acting (advance p slot state header message source) := by
  have hfin : Net.Acting (if header.flags.fin then finish p slot header else pure ()) :=
    .ite (finish_acting hp header) (.pure ())
  cases state with
  | listen => exact .ite (acceptConnection_acting hp header source) (.pure ())
  | synSent =>
    refine .ite (.bind (.updateSocket _) fun _ => ?_) (.pure ())
    exact .bind (.setState _) fun _ => sendAck_acting hp
  | synReceived => exact .ite (.setState _) (.pure ())
  | established =>
    refine .ite (acceptFin_acting hp header) (.ite ?_ (.pure ()))
    exact .bind (.check _) fun payload => acceptData_acting hp _ _ payload
  | finWait1 =>
    refine .ite (.bind (.setState _) fun _ => hfin) ?_
    exact Net.Acting.bind (.pure PUnit.unit) fun _ => hfin
  | finWait2 => exact hfin
  | lastAck => exact .ite (.modify World.Acts.release) (.pure ())
  | closed | closeWait | closing | timeWait => exact .pure ()

theorem handle_acting (hp : Net.Acting p.poll) (message : Bytes) (source : Ipv4.Address) :
    Net.Acting (handle p message source) := by
  refine .bind (.check _) fun header? => ?_
  cases header? with
  | none => exact .pure ()
  | some header =>
    refine .get_bind fun w => ?_
    cases w.host.tcp.demux? header.dest source header.source with
    | none => exact .record rfl
    | some slot =>
      refine .get_bind fun w => .ite (.modify (World.Acts.handleReset _ source)) ?_
      exact advance_acting hp _ header message source

end Tcp

theorem Ipv4.handle_acting (hp : Net.Acting p.poll) (data : Bytes) :
    Net.Acting (handle p data) := by
  refine .bind (.check _) fun header? => ?_
  cases header? with
  | none => exact .pure ()
  | some header =>
    refine .bind (.check _) fun bytes => .ite (.record rfl) (.ite (.pure ()) ?_)
    refine .get_bind fun w => .ite (.pure ()) (.bind (.check _) fun payload => ?_)
    cases Protocol.ofNumber? header.protocol with
    | none => exact .pure ()
    | some protocol =>
      cases protocol with
      | icmp => exact Icmp.handle_acting hp payload header.source
      | tcp => exact Tcp.handle_acting hp payload header.source
      | udp => exact Udp.handle_acting payload header.source

namespace Net

theorem handleFrame_heeding (hp : Acting p.poll) (frame : Bytes) :
    Heeding (handleFrame p frame) := by
  refine .check_bind fun header? => ?_
  cases header? with
  | none => exact .of_acting (.pure ())
  | some header =>
    refine .check_bind fun payload => ?_
    cases header.payloadType? with
    | none => exact .of_acting (.pure ())
    | some payloadType =>
      cases payloadType with
      | arp => exact Arp.handle_heeding payload
      | ipv4 => exact .of_acting (Ipv4.handle_acting hp payload)

theorem drain_acting {handle : Bytes → Net δ Unit} (hhandle : ∀ frame, Heeding (handle frame))
    (budget : Nat) : Acting (drain handle budget) := by
  induction budget with
  | zero => exact .pure 0
  | succ budget ih =>
    intro w count w' hrun
    obtain ⟨result, _, htake, hrest⟩ := exists_of_bind_eq_ok hrun
    obtain ⟨-, rfl⟩ := Prod.mk.inj (Except.ok.inj htake)
    have htaken : w.Acts (w.takeFrame Ethernet.maxFrame).2 := .single (.takeFrame w _)
    split at hrest
    · exact htaken.trans (Acting.bind (.modify fun w => .single (.record w rfl)) (fun _ => .pure 0) hrest)
    · exact htaken.trans (Acting.pure 0 hrest)
    · obtain ⟨_, w₁, hhandled, hrest⟩ := exists_of_bind_eq_ok hrest
      have hheeded : w.Acts w₁ := hhandle _ hhandled
      exact hheeded.trans (ih.bind (fun count => .pure (count + 1)) hrest)

theorem poll_acting (fuel : Nat) : Acting (poll fuel : Net δ Nat) := by
  induction fuel with
  | zero => exact .throw .outOfFuel
  | succ fuel ih =>
    have hframe (frame : Bytes) : Heeding (handleFrame ⟨fuel, (poll fuel : Net δ Nat)⟩ frame) :=
      handleFrame_heeding ih frame
    exact drain_acting hframe pollBudget

end Net

end InetHost
