import InetHost.Proofs.Host.Parallel
import InetHost.Proofs.Udp.Delivery

/-! Everything that a host does while it waits mirrors itself beside another table of datagram sockets.
The tables change only when a datagram is delivered, and then both of them get it. -/

namespace InetHost

namespace Udp

def Sockets.post (t : Sockets) (port : UInt16) (d : Datagram) : Sockets :=
  (t.listener? port).elim t fun slot => t.store slot d.kept

def Tie.Lasting (R : Tie) : Prop :=
  ∀ t t' port d, R t t' → R (t.post port d) (t'.post port d)

end Udp

variable {δ : Type} {R : Udp.Tie}

theorem Udp.handle_of_not_whole {message : Bytes} (h : ∀ header, ¬Whole message header)
    (source : Ipv4.Address) (w : World δ) : handle message source w = .ok ((), w) := by
  rw [handle, Net.check_bind (Header.parse_eq_ok message)]
  cases hd : Header.decode? message with
  | none => rfl
  | some header =>
    dsimp only
    split
    · rfl
    · rename_i hl
      obtain ⟨hshort, hlong⟩ := not_or.1 hl
      exact absurd ⟨hd, Nat.le_of_not_lt hshort, Nat.le_of_not_lt hlong⟩ (h header)

theorem Udp.handle_posts {message : Bytes} {header : Header} (h : Whole message header)
    (source : Ipv4.Address) (w : World δ) : ∃ j, handle message source w =
      .ok ((), w.beside (w.host.udp.post header.dest
        ⟨source, header.source, header.payload message⟩) j) := by
  rw [handle_of_whole h]
  unfold Sockets.post
  cases w.host.udp.listener? header.dest with
  | none => exact ⟨w.journal, rfl⟩
  | some slot => exact ⟨_, rfl⟩

theorem Udp.handle_mirrored (hR : R.Lasting) (message : Bytes) (source : Ipv4.Address) :
    Net.Mirrored R (handle message source : Net δ Unit) := by
  intro w t j h
  by_cases hwhole : ∃ header, Whole message header
  · obtain ⟨header, hwhole⟩ := hwhole
    obtain ⟨j₁, hposts⟩ := handle_posts hwhole source w
    obtain ⟨j₂, hposts'⟩ := handle_posts hwhole source (w.beside t j)
    rw [Net.Mirrors, hposts, hposts']
    refine ⟨_, j₂, rfl, fun a v hm => ?_⟩
    obtain rfl := congrArg Prod.snd (Except.ok.inj hm)
    exact hR _ _ _ _ h
  · have hnothing (w : World δ) : handle message source w = .ok ((), w) :=
      handle_of_not_whole (not_exists.1 hwhole) source w
    rw [Net.Mirrors, hnothing, hnothing]
    refine ⟨t, j, rfl, fun a v hm => ?_⟩
    obtain rfl := congrArg Prod.snd (Except.ok.inj hm)
    exact h

section Waiting

variable {done done' : Host → Bool}

theorem Net.waitRounds_mirrors {poll : Net δ Nat} (hpoll : Mirrored R poll) (deadline : UInt64)
    (hdone : ∀ (h : Host) t, R h.udp t → done' { h with udp := t } = done h) (rounds : Nat)
    {w : World δ} {t : Udp.Sockets} {j : List Moment} (h : R w.host.udp t) :
    Mirrors R (waitRounds poll deadline done rounds) (waitRounds poll deadline done' rounds)
      w t j := by
  induction rounds generalizing w t j with
  | zero => exact Mirrored.throw .outOfFuel h
  | succ rounds ih =>
    have hsame : done' (w.beside t j).host = done w.host := hdone w.host t h
    show Mirrors R (if done w.host then _ else _) (if done' (w.beside t j).host then _ else _) w t j
    rw [hsame]
    split
    · exact mirrors_pure true h
    · refine (Mirrored.readClock h).bind fun time v t j h => ?_
      split
      · exact mirrors_pure false h
      · exact (hpoll h).bind fun _ _ _ _ h => ih h

theorem Net.waitUntil_mirrors {p : Poller δ} (hp : Mirrored R p.poll) (timeout : UInt64)
    (hdone : ∀ (h : Host) t, R h.udp t → done' { h with udp := t } = done h)
    {w : World δ} {t : Udp.Sockets} {j : List Moment} (h : R w.host.udp t) :
    Mirrors R (waitUntil p timeout done) (waitUntil p timeout done') w t j :=
  (Mirrored.readClock h).bind fun start _ _ _ h =>
    waitRounds_mirrors hp (Clock.deadline start timeout) hdone p.rounds h

theorem Net.waitUntil_mirrored {p : Poller δ} (hp : Mirrored R p.poll) (timeout : UInt64)
    (hdone : ∀ (h : Host) t, done { h with udp := t } = done h) :
    Mirrored R (waitUntil p timeout done) :=
  fun _ _ _ h => waitUntil_mirrors hp timeout (fun h t _ => hdone h t) h

end Waiting

variable [Link.Device δ] {p : Poller δ}

theorem Net.transmit_mirrored (frame : Bytes) :
    Attempt.Mirrored R (transmit frame : Attempt δ Unit) := by
  have hover (frame : Bytes) :
      Attempt.Mirrored R (ExceptT.mk (modifyGet (World.handOver frame)) : Attempt δ Unit) :=
    Mirrored.modifyGet (fun _ _ _ => rfl) (.handOver frame)
  exact .ite (.throw .linkError) (.ite (.bind (.check _) fun padded => hover padded) (hover frame))

namespace Arp

theorem request_mirrored (target : Ipv4.Address) :
    Attempt.Mirrored R (request target : Attempt δ Unit) := by
  refine .get_bind (fun _ _ _ => rfl) fun w => .bind (.ofExcept _) fun asking => ?_
  exact .bind (.modify (.record _)) fun _ => Net.transmit_mirrored asking

theorem sendReply_mirrored (asked : Packet) :
    Attempt.Mirrored R (sendReply asked : Attempt δ Unit) :=
  .get_bind (fun _ _ _ => rfl) fun _ => .bind (.ofExcept _) fun answer =>
    Net.transmit_mirrored answer

theorem resolve_mirrored (hp : Net.Mirrored R p.poll) (ip : Ipv4.Address) (timeout : UInt64) :
    Attempt.Mirrored R (resolve p ip timeout) := by
  refine .get_bind (fun _ _ _ => rfl) fun own => .get_bind (fun _ _ _ => rfl) fun w => ?_
  cases w.host.arp.lookup? (own.interface.nextHop ip) with
  | some mac => exact .pure mac
  | none =>
    have hwait : Net.Mirrored R (Net.waitUntil p timeout fun h =>
        (h.arp.lookup? (own.interface.nextHop ip)).isSome) :=
      Net.waitUntil_mirrored hp timeout fun _ _ => rfl
    refine .bind (request_mirrored _) fun _ => .bind (.lift hwait) fun _ => ?_
    refine .get_bind (fun _ _ _ => rfl) fun w => ?_
    cases w.host.arp.lookup? (own.interface.nextHop ip) with
    | some mac => exact .pure mac
    | none => exact .bind (.modify (.record _)) fun _ => .throw .timeout

theorem handle_mirrored (data : Bytes) : Net.Mirrored R (handle data : Net δ Unit) := by
  refine .bind (.check _) fun packet? => ?_
  cases packet? with
  | none => exact .pure ()
  | some packet =>
    refine .bind (.modify (.learn _ _)) fun _ => .bind (.modify (.record _)) fun _ => ?_
    refine .get_bind (fun _ _ _ => rfl) fun w => .ite ?_ (.pure ())
    refine .bind (sendReply_mirrored packet) fun result => ?_
    cases result with
    | ok _ => exact .pure ()
    | error cause => exact .modify (.record _)

end Arp

namespace Ipv4

theorem transmit_mirrored (mac : Mac) (dest : Address) (protocol : Protocol) (id : UInt16)
    (payload : Bytes) :
    Attempt.Mirrored R (transmit mac dest protocol id payload : Attempt δ Unit) := by
  refine .get_bind (fun _ _ _ => rfl) fun w => .bind (.check _) fun header => ?_
  exact .bind (.ofExcept _) fun packet => Net.transmit_mirrored packet

theorem send_mirrored (hp : Net.Mirrored R p.poll) (dest : Address) (protocol : Protocol)
    (payload : Bytes) : Attempt.Mirrored R (send p dest protocol payload) := by
  refine .ite (.throw .messageTooLong) ?_
  refine .bind (.adapt _ (Arp.resolve_mirrored hp dest _)) fun mac => ?_
  have hid : Attempt.Mirrored R (modifyGet takeId : Attempt δ UInt16) :=
    .lift (.modifyGet (fun _ _ _ => rfl) .takePacketId)
  exact .bind hid fun id => transmit_mirrored mac dest protocol id payload

end Ipv4

namespace Icmp

theorem sendReply_mirrored (hp : Net.Mirrored R p.poll) (dest : Ipv4.Address) (message : Bytes) :
    Net.Mirrored R (sendReply p dest message) := by
  refine .ite (.pure ()) (.bind (Arp.resolve_mirrored hp dest _) fun result => ?_)
  cases result with
  | error cause => exact .pure ()
  | ok mac =>
    refine .bind (.check _) fun copy => .bind (.check _) fun reply => ?_
    refine .bind (.modifyGet (fun _ _ _ => rfl) .takePacketId) fun id => ?_
    refine .bind (Ipv4.transmit_mirrored mac dest .icmp id reply) fun result => ?_
    cases result with
    | ok _ => exact .pure ()
    | error cause => exact .modify (.record _)

theorem handle_mirrored (hp : Net.Mirrored R p.poll) (message : Bytes) (source : Ipv4.Address) :
    Net.Mirrored R (handle p message source) := by
  refine .bind (.check _) fun header? => ?_
  cases header? with
  | none => exact .pure ()
  | some header =>
    refine .ite (.pure ()) (.ite ?_ (.ite (sendReply_mirrored hp source message) (.pure ())))
    exact .bind (.check _) fun sent => .modify (.noteReply header sent source)

end Icmp

namespace Tcp

variable {slot : Slot}

theorem sendSegment_mirrored (hp : Net.Mirrored R p.poll) (flags : Flags) (data : Bytes) :
    Attempt.Mirrored R (sendSegment p slot flags data) :=
  .get_bind (fun _ _ _ => rfl) fun _ => .bind (.check _) fun message =>
    Ipv4.send_mirrored hp _ .tcp message

theorem sendAck_mirrored (hp : Net.Mirrored R p.poll) : Net.Mirrored R (sendAck p slot) := by
  refine .bind (sendSegment_mirrored hp _ _) fun result => ?_
  cases result with
  | ok _ => exact .pure ()
  | error cause => exact .modify (.record _)

theorem acceptConnection_mirrored (hp : Net.Mirrored R p.poll) (header : Header)
    (source : Ipv4.Address) : Net.Mirrored R (acceptConnection p slot header source) := by
  refine .bind (.modify (.updateSocket _)) fun _ => .bind (.modify (.setState _)) fun _ => ?_
  refine .bind (sendSegment_mirrored hp _ _) fun result => ?_
  cases result with
  | ok _ => exact .modify (.updateSocket _)
  | error cause => exact .bind (.modify (.record _)) fun _ => .modify (.updateSocket _)

theorem acceptData_mirrored (hp : Net.Mirrored R p.poll) (source : Ipv4.Address)
    (message payload : Bytes) : Net.Mirrored R (acceptData p slot source message payload) := by
  refine .ite (.pure ()) (.get_bind (fun _ _ _ => rfl) fun w => ?_)
  refine .bind (.check _) fun pushed => .bind (.check _) fun dropped => ?_
  exact .bind (.modify (.record _)) fun _ => .bind (.modify (.keepData _ _ _)) fun _ =>
    sendAck_mirrored hp

theorem acceptFin_mirrored (hp : Net.Mirrored R p.poll) (header : Header) :
    Net.Mirrored R (acceptFin p slot header) :=
  .bind (.modify (.updateSocket _)) fun _ => .bind (.modify (.setState _)) fun _ =>
    sendAck_mirrored hp

theorem finish_mirrored (hp : Net.Mirrored R p.poll) (header : Header) :
    Net.Mirrored R (finish p slot header) :=
  .bind (.modify (.updateSocket _)) fun _ => .bind (sendAck_mirrored hp) fun _ =>
    .modify (.setState _)

theorem advance_mirrored (hp : Net.Mirrored R p.poll) (state : State) (header : Header)
    (message : Bytes) (source : Ipv4.Address) :
    Net.Mirrored R (advance p slot state header message source) := by
  have hstate (next : State) : Net.Mirrored R (modify (setState slot next) : Net δ PUnit) :=
    .modify (.setState next)
  have hfin : Net.Mirrored R (if header.flags.fin then finish p slot header else pure ()) :=
    .ite (finish_mirrored hp header) (.pure ())
  cases state with
  | listen => exact .ite (acceptConnection_mirrored hp header source) (.pure ())
  | synSent =>
    refine .ite (.bind (.modify (.updateSocket _)) fun _ => ?_) (.pure ())
    exact .bind (hstate .established) fun _ => sendAck_mirrored hp
  | synReceived => exact .ite (hstate .established) (.pure ())
  | established =>
    refine .ite (acceptFin_mirrored hp header) (.ite ?_ (.pure ()))
    exact .bind (.check _) fun payload => acceptData_mirrored hp _ _ payload
  | finWait1 =>
    refine .ite (.bind (hstate .finWait2) fun _ => hfin) ?_
    exact Net.Mirrored.bind (.pure PUnit.unit) fun _ => hfin
  | finWait2 => exact hfin
  | lastAck => exact .ite (.modify .release) (.pure ())
  | closed | closeWait | closing | timeWait => exact .pure ()

theorem handle_mirrored (hp : Net.Mirrored R p.poll) (message : Bytes) (source : Ipv4.Address) :
    Net.Mirrored R (handle p message source) := by
  refine .bind (.check _) fun header? => ?_
  cases header? with
  | none => exact .pure ()
  | some header =>
    refine .get_bind (fun _ _ _ => rfl) fun w => ?_
    cases w.host.tcp.demux? header.dest source header.source with
    | none => exact .modify (.record _)
    | some slot =>
      refine .get_bind (fun _ _ _ => rfl) fun w => .ite (.modify (.handleReset _ source)) ?_
      exact advance_mirrored hp _ header message source

end Tcp

theorem Ipv4.handle_mirrored (hR : R.Lasting) (hp : Net.Mirrored R p.poll) (data : Bytes) :
    Net.Mirrored R (handle p data) := by
  refine .bind (.check _) fun header? => ?_
  cases header? with
  | none => exact .pure ()
  | some header =>
    refine .bind (.check _) fun bytes => .ite (.modify (.record _)) (.ite (.pure ()) ?_)
    refine .get_bind (fun _ _ _ => rfl) fun w => .ite (.pure ()) ?_
    refine .bind (.check _) fun payload => ?_
    cases Protocol.ofNumber? header.protocol with
    | none => exact .pure ()
    | some protocol =>
      cases protocol with
      | icmp => exact Icmp.handle_mirrored hp payload header.source
      | tcp => exact Tcp.handle_mirrored hp payload header.source
      | udp => exact Udp.handle_mirrored hR payload header.source

namespace Net

theorem handleFrame_mirrored (hR : R.Lasting) (hp : Mirrored R p.poll) (frame : Bytes) :
    Mirrored R (handleFrame p frame) := by
  refine .bind (.check _) fun header? => ?_
  cases header? with
  | none => exact .pure ()
  | some header =>
    refine .bind (.check _) fun payload => ?_
    cases header.payloadType? with
    | none => exact .pure ()
    | some payloadType =>
      cases payloadType with
      | arp => exact Arp.handle_mirrored payload
      | ipv4 => exact Ipv4.handle_mirrored hR hp payload

theorem drain_mirrored {handle : Bytes → Net δ Unit} (hhandle : ∀ frame, Mirrored R (handle frame))
    (budget : Nat) : Mirrored R (drain handle budget) := by
  induction budget with
  | zero => exact .pure 0
  | succ budget ih =>
    rw [drain]
    refine .bind (.modifyGet (fun _ _ _ => rfl) (.takeFrame _)) fun result => ?_
    split
    · exact .bind (.modify ⟨fun _ => rfl, fun _ _ _ => ⟨_, rfl⟩⟩) fun _ => .pure 0
    · exact .pure 0
    · exact .bind (hhandle _) fun _ => .bind ih fun count => .pure (count + 1)

theorem poll_mirrored (hR : R.Lasting) (fuel : Nat) : Mirrored R (poll fuel : Net δ Nat) := by
  induction fuel with
  | zero => exact .throw .outOfFuel
  | succ fuel ih =>
    have hframe (frame : Bytes) : Mirrored R (handleFrame ⟨fuel, (poll fuel : Net δ Nat)⟩ frame) :=
      handleFrame_mirrored hR ih frame
    exact drain_mirrored hframe pollBudget

end Net

end InetHost
