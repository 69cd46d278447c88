import InetHost.Proofs.Host.Steps
import InetHost.Proofs.Udp.Delivery

/-! The identifiers of the packets that a host sends. Whatever is nested in an operation, an identifier
is taken only when its packet goes out at once, so the packets have them in the order in which they go
out. Echo requests of the host's own are numbered apart. -/

namespace InetHost

namespace Ipv4

def Header.ofFrame? (frame : Bytes) : Option Header := do
  let link ← Ethernet.Header.decode? frame
  if link.payloadType? = some .ipv4 then decode? (frame.drop Ethernet.headerLength) else none

def identifiers (first : UInt16) (count : Nat) : List UInt16 :=
  (List.range count).map fun i => first + UInt16.ofNat i

theorem length_identifiers (first : UInt16) (count : Nat) :
    (identifiers first count).length = count := by
  rw [identifiers, List.length_map, List.length_range]

theorem identifiers_add (first : UInt16) (m n : Nat) :
    identifiers first (m + n) = identifiers first m ++ identifiers (first + UInt16.ofNat m) n := by
  rw [identifiers, identifiers, identifiers, List.range_add, List.map_append, List.map_map]
  congr 2
  funext i
  show first + UInt16.ofNat (m + i) = first + UInt16.ofNat m + UInt16.ofNat i
  rw [UInt16.ofNat_add, UInt16.add_assoc]

end Ipv4

section Wire

variable {δ : Type} (op : Operation δ) (own : Interface) (mac : Mac) (dest : Ipv4.Address)
  (protocol : Ipv4.Protocol) (id : UInt16) {payload : Bytes}

/-- The identifier in a frame, but for the echo requests of an operation that makes them. -/
def Operation.packetId? (frame : Bytes) : Option UInt16 := do
  let header ← Ipv4.Header.ofFrame? frame
  if op.probing && Icmp.asksEcho header.protocol (header.message frame) then none
  else some header.id

theorem Arp.ofFrame?_wire (source : Mac) (packet : Packet) :
    Ipv4.Header.ofFrame? (wire mac source packet) = none := by
  rw [Ipv4.Header.ofFrame?, Ethernet.decode?_arpWire]
  rfl

theorem Ipv4.ofFrame?_wire : Header.ofFrame? (wire own mac dest protocol id payload) =
    some (.sent own.ip dest protocol id payload.length) := by
  have htype : (⟨mac, own.mac, Ethernet.EtherType.ipv4.toWord⟩ : Ethernet.Header).payloadType? =
      some .ipv4 := rfl
  rw [Header.ofFrame?, Ethernet.decode?_ipv4Wire, Option.bind_eq_bind, Option.bind_some, htype,
    if_pos rfl, decode?_drop_wire]

theorem Operation.packetId?_arpWire (source : Mac) (packet : Arp.Packet) :
    op.packetId? (Arp.wire mac source packet) = none := by
  rw [packetId?, Arp.ofFrame?_wire]
  rfl

theorem Operation.packetId?_wire (hl : payload.length ≤ Ipv4.maxPayload) :
    op.packetId? (Ipv4.wire own mac dest protocol id payload) =
      if op.probing && Icmp.asksEcho protocol.number payload then none else some id := by
  rw [packetId?, Ipv4.ofFrame?_wire]
  show (if op.probing && Icmp.asksEcho protocol.number
    ((Ipv4.Header.sent own.ip dest protocol id payload.length).message _) then none
      else some id) = _
  rw [Ipv4.message_wire own mac dest protocol id hl]

end Wire

variable {δ : Type} {op : Operation δ} {w w₁ w' : World δ}

def Operation.Identifies (op : Operation δ) (w w' : World δ) : Prop :=
  ∃ frames count, w'.frames = w.frames ++ frames ∧
    frames.filterMap op.packetId? = Ipv4.identifiers w.host.nextPacketId count ∧
      w'.host.nextPacketId = w.host.nextPacketId + UInt16.ofNat count

namespace Operation.Identifies

theorem of_frames_eq (hf : w'.frames = w.frames)
    (hn : w'.host.nextPacketId = w.host.nextPacketId) : op.Identifies w w' := by
  refine ⟨[], 0, by rw [hf, List.append_nil], rfl, ?_⟩
  rw [hn]
  exact (UInt16.add_zero _).symm

theorem of_unnumbered {frame : Bytes} (hf : w'.frames = w.frames ++ [frame])
    (hid : op.packetId? frame = none) (hn : w'.host.nextPacketId = w.host.nextPacketId) :
    op.Identifies w w' := by
  refine ⟨[frame], 0, hf, List.filterMap_cons_none hid, ?_⟩
  rw [hn]
  exact (UInt16.add_zero _).symm

theorem trans (h : op.Identifies w w₁) (h' : op.Identifies w₁ w') : op.Identifies w w' := by
  obtain ⟨frames, m, hf, hid, hn⟩ := h
  obtain ⟨frames', n, hf', hid', hn'⟩ := h'
  refine ⟨frames ++ frames', m + n, ?_, ?_, ?_⟩
  · rw [hf', hf, List.append_assoc]
  · rw [List.filterMap_append, hid, hid', hn, Ipv4.identifiers_add]
  · rw [hn', hn, UInt16.ofNat_add, UInt16.add_assoc]

variable [Link.Device δ]

theorem dispatch {mac : Mac} {dest : Ipv4.Address} {protocol : Ipv4.Protocol} {payload : Bytes}
    (w : World δ) (hl : payload.length ≤ Ipv4.maxPayload)
    (he : op.probing = true → Icmp.asksEcho protocol.number payload = false) :
    op.Identifies w (w.dispatch mac dest protocol payload) := by
  have hnumbered : (op.probing && Icmp.asksEcho protocol.number payload) = false := by
    cases hp : op.probing with
    | false => rfl
    | true => exact he hp
  have hid := op.packetId?_wire w.host.interface mac dest protocol w.host.nextPacketId hl
  rw [hnumbered] at hid
  refine ⟨[_], 1, (w.handsOver_dispatch mac dest protocol payload).frames, ?_, rfl⟩
  rw [List.filterMap_cons_some hid]
  show [w.host.nextPacketId] = [w.host.nextPacketId + 0]
  rw [UInt16.add_zero]

end Operation.Identifies

namespace Attempt

variable {α β : Type} {a : Attempt δ α}

def Declines (a : Attempt δ α) (w w' : World δ) : Prop := ∃ e, a.run w = .ok (.error e, w')

theorem Declines.bind (h : a.Declines w w') (f : α → Attempt δ β) : (a >>= f).Declines w w' := by
  obtain ⟨e, h⟩ := h
  refine ⟨e, ?_⟩
  rw [ExceptT.run_bind]
  exact Net.bind_of_eq_ok h _

theorem declines_bind {x : α} (h : a.run w = .ok (.ok x, w₁)) (f : α → Attempt δ β) :
    (a >>= f).Declines w w' ↔ (f x).Declines w₁ w' := by
  rw [Declines, Declines, run_bind_of_eq_ok h]

theorem Declines.adapt (h : a.Declines w w') (g : NetError → NetError) :
    Attempt.Declines (ExceptT.adapt g a) w w' := by
  obtain ⟨e, h⟩ := h
  refine ⟨g e, ?_⟩
  show (Except.mapError g <$> a.run) w = _
  rw [← bind_pure_comp]
  exact Net.bind_of_eq_ok h _

end Attempt

variable [Link.Device δ]

theorem World.frames_handOver (frame : Bytes) (w : World δ) :
    (w.handOver frame).2.frames = w.frames ++ [frame] := by
  obtain ⟨failure, hj⟩ := journal_handOver frame w
  exact frames_of_journal_eq_cons hj

theorem Operation.Identifies.probe (w : World δ) (mac : Mac) (dest : Ipv4.Address)
    (sequence : UInt16) (time : UInt32) (hp : op.probing = true) :
    op.Identifies w (Icmp.probe mac dest sequence time w) := by
  have hl : (Icmp.echoRequest sequence time).length ≤ Ipv4.maxPayload := Nat.le_of_ble_eq_true rfl
  refine of_unnumbered (World.frames_handOver _ w) ?_ rfl
  rw [packetId?_wire op _ mac dest .icmp _ hl, hp]
  rfl

theorem Operation.Step.identifies (h : op.Step w w') : op.Identifies w w' := by
  cases h with
  | update _ _ _ hn => exact .of_frames_eq rfl hn
  | record op w he _ => exact .of_frames_eq (World.frames_record w he) rfl
  | sendArp op w dest source packet =>
    exact .of_unnumbered (World.frames_handOver _ w) (op.packetId?_arpWire dest source packet) rfl
  | dispatch w mac dest hl he => exact .dispatch w hl he
  | probe w mac dest sequence time hp => exact .probe w mac dest sequence time hp
  | closeUdp _ _ slot =>
    rw [Udp.close_slot]
    exact .of_frames_eq (World.frames_record _ rfl) rfl
  | openUdp | readDatagram | deliver => exact .of_frames_eq (World.frames_record _ rfl) rfl
  | _ => exact .of_frames_eq rfl rfl

theorem Operation.Steps.identifies (h : op.Steps w w') : op.Identifies w w' := by
  induction h with
  | refl => exact .of_frames_eq rfl rfl
  | tail _ hstep ih => exact ih.trans hstep.identifies

/-- A run from the start, with the identifiers of all packets sent. -/
inductive Ipv4.Sent : World δ → List UInt16 → Prop
  | start (device : δ) (clock : Clock) (interface : Interface) :
      Sent (World.start device clock interface) []
  | step {w w' : World δ} {ids : List UInt16} (op : Operation δ) (frames : List Bytes) :
      Sent w ids → op.Runs w w' → w'.frames = w.frames ++ frames →
      Sent w' (ids ++ frames.filterMap op.packetId?)

namespace Ipv4.Sent

variable {ids : List UInt16}

theorem reachable (h : Sent w ids) : Reachable w := by
  induction h with
  | start => exact .start ..
  | step op _ _ hr _ ih => exact ih.step op hr

theorem identifies (h : Sent w ids) (hr : op.Runs w w') : op.Identifies w w' :=
  (hr.works h.reachable.safe).steps.identifies

theorem consecutive (h : Sent w ids) : ids = identifiers 0 ids.length ∧
    w.host.nextPacketId = UInt16.ofNat ids.length := by
  induction h with
  | start => exact ⟨rfl, rfl⟩
  | @step w w' ids op frames h hr hf ih =>
    obtain ⟨hids, hnext⟩ := ih
    obtain ⟨frames', count, hf', hid, hn⟩ := h.identifies hr
    obtain rfl : frames = frames' := List.append_cancel_left (hf.symm.trans hf')
    rw [hid, List.length_append, length_identifiers, identifiers_add, ← hids, hn, hnext,
      UInt16.ofNat_add, UInt16.zero_add]
    exact ⟨rfl, rfl⟩

end Ipv4.Sent

section Declines

variable {p : Poller δ} {dest : Ipv4.Address} {port : UInt16} {payload : Bytes}

/-! Sends that fail before a packet is made of them. -/

theorem Ipv4.send_declines_long {protocol : Protocol} (h : maxPayload < payload.length) :
    (send p dest protocol payload).Declines w w := by
  rw [send, if_pos h]
  exact ⟨.messageTooLong, rfl⟩

theorem Ipv4.send_declines_unresolved {protocol : Protocol} (hl : payload.length ≤ maxPayload)
    (h : (Arp.resolve p dest Timeouts.resolve).Declines w w') :
    (send p dest protocol payload).Declines w w' := by
  rw [send, if_neg (Nat.not_lt.2 hl)]
  exact (h.adapt _).bind _

theorem Udp.send_declines {handle : Nat}
    (h : (∀ slot, w.host.udp.slot handle ≠ .ok slot) ∨ maxPayload < payload.length) :
    (send p handle dest port payload).Declines w w := by
  cases hs : w.host.udp.slot handle with
  | error e =>
    have hslot : (slot handle).Declines w w := by
      refine ⟨e, ?_⟩
      show Except.ok (w.host.udp.slot handle, w) = _
      rw [hs]
    exact (hslot.bind _).bind _
  | ok slot =>
    have hl : maxPayload < payload.length := h.resolve_left fun hn => hn slot hs
    rw [send, Attempt.declines_bind (run_localPort hs), if_pos hl]
    exact ⟨.messageTooLong, rfl⟩

theorem Tcp.send_declines {handle : Nat} {data : Bytes}
    (h : (∀ slot, w.host.tcp.slot handle ≠ .ok slot) ∨ maxPayload < data.length) :
    (send p handle data).Declines w w := by
  have hrun : (slot handle).run w = .ok (w.host.tcp.slot handle, w) := rfl
  rw [send]
  cases hs : w.host.tcp.slot handle with
  | error e =>
    rw [hs] at hrun
    exact Attempt.Declines.bind ⟨e, hrun⟩ _
  | ok slot =>
    rw [hs] at hrun
    have hl : maxPayload < data.length := h.resolve_left fun hn => hn slot hs
    rw [Attempt.declines_bind hrun, Attempt.declines_bind (Attempt.run_get w)]
    split
    · exact ⟨.invalidState, rfl⟩
    · exact ⟨.messageTooLong, rfl⟩

end Declines

open Ipv4 in
/-- The packets of a host have the identifiers 0, 1, 2 and so on, in the order in which they go out. -/
theorem identifiers_consecutive {ids : List UInt16} (h : Sent w ids) :
    ids = (List.range ids.length).map UInt16.ofNat ∧
      w.host.nextPacketId = UInt16.ofNat ids.length ∧
      (∀ (op : Operation δ) (w' : World δ), op.Runs w w' →
        ∃ frames, w'.frames = w.frames ++ frames ∧ Sent w' (ids ++ frames.filterMap op.packetId?)) ∧
      (∀ (p : Poller δ) (dest : Address) (protocol : Protocol) (payload : Bytes),
        (maxPayload < payload.length → (send p dest protocol payload).Declines w w) ∧
        ∀ w', payload.length ≤ maxPayload → (Arp.resolve p dest Timeouts.resolve).Declines w w' →
          (send p dest protocol payload).Declines w w') ∧
      (∀ (p : Poller δ) (handle : Nat) (dest : Address) (port : UInt16) (payload : Bytes),
        (∀ slot, w.host.udp.slot handle ≠ .ok slot) ∨ Udp.maxPayload < payload.length →
          (Udp.send p handle dest port payload).Declines w w) ∧
      ∀ (p : Poller δ) (handle : Nat) (data : Bytes),
        (∀ slot, w.host.tcp.slot handle ≠ .ok slot) ∨ Tcp.maxPayload < data.length →
          (Tcp.send p handle data).Declines w w := by
  obtain ⟨hids, hnext⟩ := h.consecutive
  refine ⟨?_, hnext, fun op w' hr => ?_, fun p dest protocol payload => ⟨?_, fun w' => ?_⟩,
    fun p handle dest port payload => ?_, fun p handle data => ?_⟩
  · rw [identifiers] at hids
    rw [List.map_congr_left fun i _ => UInt16.zero_add _] at hids
    exact hids
  · obtain ⟨frames, -, hf, -, -⟩ := h.identifies hr
    exact ⟨frames, hf, h.step op frames hr hf⟩
  · exact send_declines_long
  · exact send_declines_unresolved
  · exact Udp.send_declines
  · exact Tcp.send_declines

theorem identifiers_consecutive_around_probe :
    let first := Host.neighbourly.after 4 [.ipv4Send 0x0A000009 .udp [1]]
    let probed := first.after 4 [.ping 0x0A000009 7]
    let last := probed.after 4 [.ipv4Send 0x0A000009 .udp [2]]
    last.frames.length = 3 ∧ Ipv4.Sent last [0, 1] ∧
      [0, 1] = (List.range 2).map UInt16.ofNat ∧ last.host.nextPacketId = 2 ∧
        (Ipv4.send (Poller.ofFuel 4) 0x0A000009 .udp (List.replicate 1481 0)).Declines last last := by
  intro first probed last
  let wire (protocol : Ipv4.Protocol) (id : UInt16) (payload : Bytes) : Bytes :=
    Ipv4.wire Interface.default ⟨2, 0, 0, 0, 0, 9⟩ 0x0A000009 protocol id payload
  have hstep {w w' : World Link.Script} {ids ids' : List UInt16} {op : Operation Link.Script}
      (frames : List Bytes) (h : Ipv4.Sent w ids) (hr : op.Runs w w')
      (hf : w'.frames = w.frames ++ frames) (hids : ids ++ frames.filterMap op.packetId? = ids') :
      Ipv4.Sent w' ids' := hids ▸ h.step op frames hr hf
  have h₀ : Ipv4.Sent Host.neighbourly [] :=
    hstep [] (.start ..) (Operation.runs_after (by decide +kernel)) (by decide +kernel) rfl
  have h₁ : Ipv4.Sent first [0] := hstep [wire .udp 0 [1]] h₀
    (Operation.runs_after (by decide +kernel)) (by decide +kernel) (by decide +kernel)
  have h₂ : Ipv4.Sent probed [0] := hstep [wire .icmp 7 (Icmp.echoRequest 7 4000)] h₁
    (Operation.runs_after (by decide +kernel)) (by decide +kernel) (by decide +kernel)
  have h₃ : Ipv4.Sent last [0, 1] := hstep [wire .udp 1 [2]] h₂
    (Operation.runs_after (by decide +kernel)) (by decide +kernel) (by decide +kernel)
  obtain ⟨hids, hnext, -, hsend, -, -⟩ := identifiers_consecutive h₃
  exact ⟨by decide +kernel, h₃, hids, hnext, (hsend _ _ _ _).1 (by decide +kernel)⟩

end InetHost
