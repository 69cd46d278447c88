import InetHost.Proofs.Arp.Eviction
import InetHost.Proofs.Ipv4.Identifiers

/-! A question and its answer between two hosts. Whoever reads a packet learns its sender; the host that
is asked for answers, with a single frame to the one who asks; and an answer is not answered again. -/

namespace InetHost

variable {δ : Type} {w : World δ}

namespace Arp

def note (packet : Packet) (w : World δ) : World δ :=
  (learn packet.senderIp packet.senderMac w).record
    (.arpLearned packet.senderIp packet.senderMac)

def Packet.AsksFor (packet : Packet) (h : Host) : Prop :=
  packet.isRequest = true ∧ packet.targetIp = h.interface.ip

instance (packet : Packet) (h : Host) : Decidable (packet.AsksFor h) :=
  inferInstanceAs (Decidable (_ ∧ _))

theorem lookup?_note (packet : Packet) (w : World δ) :
    (note packet w).host.arp.lookup? packet.senderIp = some packet.senderMac :=
  Cache.lookup?_add_self ..

theorem frames_note (packet : Packet) (w : World δ) : (note packet w).frames = w.frames :=
  World.frames_record (learn packet.senderIp packet.senderMac w) rfl

theorem interface_note (packet : Packet) (w : World δ) :
    (note packet w).host.interface = w.host.interface := rfl

theorem clock_note (packet : Packet) (w : World δ) : (note packet w).clock = w.clock.read.2 := rfl

theorem length_wire_le (dest source : Mac) (packet : Packet) :
    (wire dest source packet).length ≤ Ethernet.maxFrame := by
  have hl : (wire dest source packet).length = 60 := rfl
  rw [hl]
  decide

variable [Link.Device δ] {p : Poller δ}

theorem handle_encode (packet : Packet) (rest : Bytes) (w : World δ) :
    handle (packet.encode ++ rest) w =
      (if packet.AsksFor w.host then do
        match ← (sendReply packet).run with
        | .ok () => return ()
        | .error cause => modify (World.record (.arpReplyFailed packet.senderIp cause))
      else return () : Net δ Unit) (note packet w) := by
  have hlearn : (modify (learn packet.senderIp packet.senderMac) : Net δ PUnit) w =
    .ok (⟨⟩, learn packet.senderIp packet.senderMac w) := rfl
  have hrecord : (modify (World.record (.arpLearned packet.senderIp packet.senderMac)) :
      Net δ PUnit) (learn packet.senderIp packet.senderMac w) = .ok (⟨⟩, note packet w) := rfl
  have hget : (get : Net δ (World δ)) (note packet w) = .ok (note packet w, note packet w) := rfl
  rw [handle, Net.check_bind (Packet.parse_eq_ok _), Packet.decode?_encode]
  dsimp only
  rw [Net.bind_of_eq_ok hlearn, Net.bind_of_eq_ok hrecord, Net.bind_of_eq_ok hget]
  rfl

theorem handleFrame_wire (dest source : Mac) (packet : Packet) (w : World δ) :
    Net.handleFrame p (wire dest source packet) w =
      handle (packet.encode ++ List.replicate 18 0) w := by
  rw [Net.handleFrame_arp (Ethernet.decode?_arpWire dest source packet) rfl, drop_wire]

theorem handleFrame_wire_of_not_asksFor {packet : Packet} (h : ¬ packet.AsksFor w.host)
    (dest source : Mac) :
    Net.handleFrame p (wire dest source packet) w = .ok ((), note packet w) := by
  rw [handleFrame_wire, handle_encode, if_neg h]
  rfl

theorem handleFrame_wire_remarks {packet : Packet} (h : packet.AsksFor w.host) (dest source : Mac) :
    ∃ w', Net.handleFrame p (wire dest source packet) w = .ok ((), w') ∧
      ((note packet w).handOver (wire packet.senderMac w.host.interface.mac
        (Packet.reply w.host.interface.mac w.host.interface.ip packet))).2.Remarks w' := by
  let answered := (note packet w).handOver (wire packet.senderMac w.host.interface.mac
    (Packet.reply w.host.interface.mac w.host.interface.ip packet))
  have hrun : Net.handleFrame p (wire dest source packet) w =
      (match answered.1 with
        | .ok () => pure ()
        | .error cause =>
          modify (World.record (.arpReplyFailed packet.senderIp cause)) : Net δ Unit) answered.2 := by
    rw [handleFrame_wire, handle_encode, if_pos h, Net.bind_of_eq_ok (run_sendReply packet _)]
    rfl
  rw [hrun]
  cases answered.1 with
  | ok _ => exact ⟨_, rfl, .nothing⟩
  | error cause => exact ⟨_, rfl, .line rfl⟩

theorem handleFrame_wire_of_asksFor {packet : Packet} (h : packet.AsksFor w.host)
    (dest source : Mac) :
    let answer := wire packet.senderMac w.host.interface.mac
      (Packet.reply w.host.interface.mac w.host.interface.ip packet)
    ∃ w', Net.handleFrame p (wire dest source packet) w = .ok ((), w') ∧
      w'.frames = w.frames ++ [answer] ∧
      w'.device = (Link.Device.transmit answer w.device).2 ∧
      w'.host.arp.lookup? packet.senderIp = some packet.senderMac := by
  intro answer
  obtain ⟨w', hrun, hremarks⟩ := handleFrame_wire_remarks (p := p) h dest source
  refine ⟨w', hrun, ?_, hremarks.device_eq, ?_⟩
  · rw [hremarks.frames_eq, World.frames_handOver, frames_note]
  · rw [hremarks.host_eq]
    exact lookup?_note packet w

end Arp

open Arp

/-- By one question two hosts come to know each other, and any third learns who has asked. -/
theorem question_introduces_hosts {ε ζ : Type} [Link.Device δ] [Link.Device ε] [Link.Device ζ]
    (p : Poller δ) (q : Poller ε) (r : Poller ζ) (a : World δ) (b : World ε) (c : World ζ) :
    ∃ asking a',
      (Arp.request b.host.interface.ip).run a =
        .ok ((Link.Device.transmit asking a.device).1, a') ∧
      a'.frames = a.frames ++ [asking] ∧
      (∃ answer b' a'',
        Net.handleFrame q asking b = .ok ((), b') ∧ b'.frames = b.frames ++ [answer] ∧
        b'.device = (Link.Device.transmit answer b.device).2 ∧
        Ethernet.Header.decode? answer =
          some ⟨a.host.interface.mac, b.host.interface.mac, Ethernet.EtherType.arp.toWord⟩ ∧
        Net.handleFrame p answer a' = .ok ((), a'') ∧ a''.frames = a'.frames ∧
        a''.device = a'.device ∧
        a''.host.arp.lookup? b.host.interface.ip = some b.host.interface.mac ∧
        b'.host.arp.lookup? a.host.interface.ip = some a.host.interface.mac) ∧
      (c.host.interface.ip ≠ b.host.interface.ip → ∃ c',
        Net.handleFrame r asking c = .ok ((), c') ∧ c'.frames = c.frames ∧
        c'.device = c.device ∧
        c'.host.arp.lookup? a.host.interface.ip = some a.host.interface.mac) := by
  let question := Packet.request a.host.interface.mac a.host.interface.ip b.host.interface.ip
  let asking := wire Mac.broadcast a.host.interface.mac question
  let reply := Packet.reply b.host.interface.mac b.host.interface.ip question
  let answer := wire a.host.interface.mac b.host.interface.mac reply
  let noted := a.record (.arpRequested b.host.interface.ip a.host.interface.ip)
  have hframes : (noted.handOver asking).2.frames = a.frames ++ [asking] := by
    rw [World.frames_handOver, World.frames_record a rfl]
  refine ⟨asking, _, run_request b.host.interface.ip a, hframes, ?_, fun hc => ?_⟩
  · have hasks : question.AsksFor b.host := ⟨rfl, rfl⟩
    obtain ⟨b', hb, hsent, hdevice, hlearnt⟩ :=
      handleFrame_wire_of_asksFor (p := q) hasks Mac.broadcast a.host.interface.mac
    -- An answer asks for nobody, so that it is not answered.
    have hanswer : ¬ reply.AsksFor (noted.handOver asking).2.host := fun h => nomatch h.1
    exact ⟨answer, b', _, hb, hsent, hdevice, Ethernet.decode?_arpWire ..,
      handleFrame_wire_of_not_asksFor hanswer .., frames_note .., rfl, lookup?_note .., hlearnt⟩
  · have hother : ¬ question.AsksFor c.host := fun h => hc h.2.symm
    exact ⟨_, handleFrame_wire_of_not_asksFor hother .., frames_note .., rfl, lookup?_note ..⟩

def World.fresh (own : Interface) : World Link.Script :=
  .start ⟨[], 0, [], []⟩ ⟨0, 500, []⟩ own

def Arp.crowded : World Link.Script :=
  (World.fresh Tcp.peer).after 4
    ((List.range 16).map fun n => .arpLearn (.ofNat (0x0A000100 + n)) Mac.zero)

theorem question_introduces_hosts_crowded :
    let a := World.fresh Interface.default
    let b := Arp.crowded
    let c := World.fresh { Interface.default with ip := 0x0A00000B }
    Reachable b ∧ b.host.arp.Full ∧ c.host.interface.ip ≠ b.host.interface.ip ∧
      ∃ asking a' answer b' a'' c',
        (Arp.request b.host.interface.ip).run a = .ok (.ok (), a') ∧
        Net.handleFrame (Poller.ofFuel 0) asking b = .ok ((), b') ∧
        Net.handleFrame (Poller.ofFuel 0) answer a' = .ok ((), a'') ∧
        a''.host.arp.lookup? b.host.interface.ip = some b.host.interface.mac ∧
        b'.host.arp.lookup? a.host.interface.ip = some a.host.interface.mac ∧
        Net.handleFrame (Poller.ofFuel 0) asking c = .ok ((), c') ∧ c'.frames = c.frames ∧
        c'.host.arp.lookup? a.host.interface.ip = some a.host.interface.mac := by
  intro a b c
  have hfull : b.host.arp.Full := by
    show b.host.arp.length = 16
    decide +kernel
  have hother : c.host.interface.ip ≠ b.host.interface.ip := by decide +kernel
  obtain ⟨asking, a', hasked, -, ⟨answer, b', a'', hb, -, -, -, ha, -, -, hlearnt, hlearnt'⟩, hthird⟩ :=
    question_introduces_hosts (Poller.ofFuel 0) (Poller.ofFuel 0) (Poller.ofFuel 0) a b c
  obtain ⟨c', hc, hsilent, -, hlearnt''⟩ := hthird hother
  exact ⟨.after (.start ..) 4 _, hfull, hother, asking, a', answer, b', a'', c', hasked, hb, ha,
    hlearnt, hlearnt', hc, hsilent, hlearnt''⟩

end InetHost
