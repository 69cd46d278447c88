import InetHost.Proofs.Host.Sending
import InetHost.Proofs.Tcp.Segment

/-! What reading frames leads to. Whatever has arrived, the host takes no faulty step, and its world
evolves. A poll reads frames with polls that have less fuel, so the induction is on the fuel. -/

namespace InetHost

variable {δ : Type} {w : World δ}

theorem Tcp.Sockets.inUse_of_connection? {t : Sockets} {localPort port : UInt16}
    {ip : Ipv4.Address} {slot : Slot} (h : t.connection? localPort ip port = some slot) :
    (t.get slot).inUse = true := by
  have := Slots.of_first?_eq_some h
  simp only [Bool.and_eq_true] at this
  exact this.1.1.1.1

theorem Tcp.Sockets.inUse_of_listener? {t : Sockets} {localPort : UInt16} {slot : Slot}
    (h : t.listener? localPort = some slot) : (t.get slot).inUse = true := by
  have := Slots.of_first?_eq_some h
  simp only [Bool.and_eq_true] at this
  exact this.1.1

theorem Tcp.Sockets.inUse_of_demux? {t : Sockets} {localPort port : UInt16} {ip : Ipv4.Address}
    {slot : Slot} (h : t.demux? localPort ip port = some slot) : (t.get slot).inUse = true := by
  rcases Option.or_eq_some_iff.1 h with hc | ⟨-, hl⟩
  · exact inUse_of_connection? hc
  · exact inUse_of_listener? hl

theorem Icmp.echoReply_eq_ok {message : Bytes} (h : headerLength ≤ message.length) :
    ∃ answer, echoReply message = .ok answer := by
  match message, h with
  | _ :: _ :: _ :: _ :: rest, _ => exact ⟨_, rfl⟩

theorem Icmp.length_of_echoReply {message answer : Bytes} (hl : message.length ≤ maxReply)
    (ha : echoReply message = .ok answer) : answer.length ≤ Ipv4.maxPayload := by
  match message, ha with
  | _ :: _ :: _ :: _ :: rest, ha =>
    obtain rfl := Except.ok.inj ha
    simp only [List.length_cons, maxReply, Ethernet.mtu, Ethernet.headerLength,
      Ipv4.minHeader] at hl
    simp only [List.length_append, List.length_cons, List.length_nil, Bytes.length_word16,
      Ipv4.maxPayload, Ethernet.mtu, Ipv4.minHeader]
    omega

variable [Link.Device δ] {p : Poller δ}

theorem Arp.handle_ensures (data : Bytes) :
    Net.Ensures (handle data) w fun _ w' => Evolves w w' := by
  rw [handle, Net.ensures_bind, Net.ensures_check (Packet.parse_eq_ok data)]
  cases Packet.decode? data with
  | none => exact .refl w
  | some packet =>
    simp only [Net.ensures_bind, Net.ensures_modify, Net.ensures_get]
    have hl := (Evolves.chore (.learn w packet.senderIp packet.senderMac)).trans
      (.chore (.remark _ (e := .arpLearned packet.senderIp packet.senderMac) rfl))
    split
    · simp only [Net.ensures_bind, Attempt.ensures_run]
      refine (sendReply_ensures packet).mono fun r w₁ h₁ => ?_
      cases r with
      | ok _ => exact hl.trans h₁
      | error e => exact (hl.trans h₁).trans (.chore (.remark w₁ rfl))
    · exact hl

theorem Icmp.sendReply_ensures (hp : p.Evolving) (dest : Ipv4.Address) {message : Bytes}
    (h : headerLength ≤ message.length) (hv : w.Valid) :
    Net.Ensures (sendReply p dest message) w fun _ w' => Evolves w w' := by
  rw [sendReply]
  split
  · exact .refl w
  · rename_i hl
    have hl : message.length ≤ maxReply := Nat.le_of_not_lt hl
    simp only [Net.ensures_bind, Attempt.ensures_run]
    refine (Arp.resolve_ensures hp dest _ hv).mono fun r w₁ h₁ => ?_
    cases r with
    | error e => exact h₁.1
    | ok mac =>
      obtain ⟨answer, ha⟩ := echoReply_eq_ok h
      have hm : answer.length ≤ Ipv4.maxPayload := length_of_echoReply hl ha
      rw [Net.ensures_bind, Net.ensures_check (Bytes.within_eq_ok hl), Net.ensures_bind,
        Net.ensures_check ha, Net.ensures_bind, Net.ensures_modifyGet, Net.ensures_bind,
        Attempt.ensures_run, Ipv4.transmit_ensures mac dest .icmp _ hm]
      have he : Evolves w (w₁.dispatch mac dest .icmp answer) :=
        h₁.1.trans (.chore (.reply (h₁.2 mac rfl).hop?_eq hl ha))
      split
      · exact he
      · exact he.trans (.chore (.remark _ rfl))

theorem Icmp.handle_ensures (hp : p.Evolving) (message : Bytes) (source : Ipv4.Address)
    (hv : w.Valid) : Net.Ensures (handle p message source) w fun _ w' => Evolves w w' := by
  rw [handle, Net.ensures_bind, Net.ensures_check (Header.parse_eq_ok message)]
  cases hd : Header.decode? message with
  | none => exact .refl w
  | some header =>
    dsimp only
    split
    · exact .refl w
    · split
      · obtain ⟨sent, hs⟩ := timestamp?_eq_ok message
        rw [Net.ensures_bind, Net.ensures_check hs]
        exact .chore (.noteReply w header sent source)
      · split
        · exact sendReply_ensures hp source (Header.headerLength_le_of_decode? hd) hv
        · exact .refl w

omit [Link.Device δ] in
theorem Udp.handle_ensures (message : Bytes) (source : Ipv4.Address) :
    Net.Ensures (handle message source) w fun _ w' => w' = w ∨
      ∃ header slot, Whole message header ∧ w.host.udp.listener? header.dest = some slot ∧
        w' = deliver slot ⟨source, header.source, header.payload message⟩
          (Datagram.kept ⟨source, header.source, header.payload message⟩) w := by
  rw [handle, Net.ensures_bind, Net.ensures_check (Header.parse_eq_ok message)]
  cases hd : Header.decode? message with
  | none => exact .inl rfl
  | some header =>
    dsimp only
    split
    · exact .inl rfl
    · rename_i hl
      obtain ⟨hmin, hmax⟩ := not_or.1 hl
      have hmin : headerLength ≤ header.length.toNat := Nat.le_of_not_lt hmin
      have hmax : header.length.toNat ≤ message.length := Nat.le_of_not_lt hmax
      rw [Net.ensures_bind, Net.ensures_check (Bytes.slice_eq_ok hmin hmax), ← List.drop_take,
        ← Header.payload]
      simp only [Net.ensures_bind, Net.ensures_get]
      cases hs : w.host.udp.listener? header.dest with
      | none => exact .inl rfl
      | some slot =>
        -- The copy is cut to the socket's area before it is made.
        have hk : ((header.payload message).take bufferSize).length ≤ bufferSize :=
          List.length_take_le ..
        dsimp only
        rw [Net.ensures_bind, Net.ensures_check (Bytes.slice_from_start (Nat.min_le_left _ _)),
          Nat.min_comm, ← List.take_eq_take_min, Net.ensures_bind,
          Net.ensures_check (Bytes.within_eq_ok hk), Net.ensures_modify]
        exact .inr ⟨header, slot, ⟨hd, hmin, hmax⟩, hs, rfl⟩

theorem Udp.length_encode (source port : UInt16) (payload : Bytes) :
    (encode source port payload).length = headerLength + payload.length := by
  simp only [encode, List.length_append, Header.length_encode]

theorem Udp.length_encode_le (source port : UInt16) {payload : Bytes}
    (hl : payload.length ≤ maxPayload) : (encode source port payload).length ≤ Ipv4.maxPayload := by
  simp only [maxPayload, headerLength, Ipv4.maxPayload, Ethernet.mtu, Ipv4.minHeader] at hl ⊢
  rw [length_encode, headerLength]
  omega

theorem Tcp.length_segment (s : Socket) (own : Ipv4.Address) (flags : Flags) (data : Bytes) :
    (s.segment own flags data).length = minHeader + data.length :=
  Header.length_segment _ _ _ _

theorem Tcp.Header.length_segment_le (header : Header) {data : Bytes}
    (hd : data.length ≤ maxPayload) (source dest : Ipv4.Address) :
    (header.segment data source dest).length ≤ Ipv4.maxPayload := by
  simp only [maxPayload, Ipv4.maxPayload, Ethernet.mtu, Ipv4.minHeader, minHeader] at hd ⊢
  rw [length_segment, minHeader]
  omega

theorem Tcp.length_segment_le (s : Socket) (own : Ipv4.Address) (flags : Flags) {data : Bytes}
    (hd : data.length ≤ maxPayload) : (s.segment own flags data).length ≤ Ipv4.maxPayload :=
  (s.header flags).length_segment_le hd own s.remoteIp

theorem Tcp.sendSegment_ensures_iff (slot : Slot) (flags : Flags) {data : Bytes}
    (hd : data.length ≤ maxPayload) {Q : Except NetError Unit → World δ → Prop} :
    Attempt.Ensures (sendSegment p slot flags data) w Q ↔
      Attempt.Ensures (Ipv4.send p (socketAt slot w).remoteIp .tcp
        ((socketAt slot w).segment w.host.interface.ip flags data)) w Q := by
  have hm := length_segment_le (socketAt slot w) w.interface.ip flags hd
  rw [sendSegment, Attempt.ensures_bind, Attempt.ensures_get]
  dsimp only
  rw [Attempt.ensures_bind, Attempt.ensures_check (Bytes.within_eq_ok hm)]
  rfl

theorem Tcp.sendSegment_ensures (hp : p.Evolving) (slot : Slot) (flags : Flags) {data : Bytes}
    (hd : data.length ≤ maxPayload) (hn : (socketAt slot w).state ≠ .listen) (hv : w.Valid) :
    Attempt.Ensures (sendSegment p slot flags data) w fun _ w' => Evolves w w' := by
  have hm := length_segment_le (socketAt slot w) w.host.interface.ip flags hd
  refine (sendSegment_ensures_iff slot flags hd).2 ?_
  refine (Ipv4.send_ensures hp _ .tcp hm hv).mono fun _ w' h => ?_
  rcases h with he | ⟨w₁, mac, he, hf, rfl⟩
  · exact he
  · exact .segment slot flags data hd hn he hf

theorem Tcp.sendAck_ensures (hp : p.Evolving) (slot : Slot)
    (hn : (socketAt slot w).state ≠ .listen) (hv : w.Valid) :
    Net.Ensures (sendAck p slot) w fun _ w' => Evolves w w' := by
  rw [sendAck, Net.ensures_bind, Attempt.ensures_run]
  refine (sendSegment_ensures hp slot _ (Nat.zero_le _) hn hv).mono fun r w₁ h₁ => ?_
  cases r with
  | ok _ => exact h₁
  | error e => exact h₁.trans (.chore (.remark w₁ rfl))

theorem Tcp.acceptConnection_ensures (hp : p.Evolving) {slot : Slot} {header : Header}
    {message : Bytes} {source : Ipv4.Address} (ha : Addressed w message source header slot)
    (hr : header.flags.rst = false) (hl : (socketAt slot w).state = .listen)
    (hs : header.flags.syn = true) (hv : w.Valid) :
    Net.Ensures (acceptConnection p slot header source) w fun _ w' => Evolves w w' := by
  rw [acceptConnection, Net.ensures_bind, Net.ensures_modify, Net.ensures_bind,
    Net.ensures_modify, Net.ensures_bind, Attempt.ensures_run]
  refine (sendSegment_ensures hp slot _ (Nat.zero_le _) ?_ ?_).mono fun r w₁ h₁ => ?_
  · simp
  · exact (hv.update rfl).setState
  · cases r with
    | ok _ => exact .accept ha hr hl hs h₁
    | error e => exact .accept ha hr hl hs (h₁.trans (.chore (.remark w₁ rfl)))

theorem Tcp.acceptData_ensures (hp : p.Evolving) {slot : Slot} {header : Header}
    {message : Bytes} {source : Ipv4.Address} (ha : Addressed w message source header slot)
    (hr : header.flags.rst = false) (he : (socketAt slot w).state = .established)
    (hf : header.flags.fin = false) (hk : header.flags.ack = true) (hv : w.Valid) :
    Net.Ensures (acceptData p slot source message (message.drop header.dataOffset)) w
      fun _ w' => Evolves w w' := by
  rw [acceptData]
  split
  · exact .refl w
  · obtain ⟨buffer, stored, hb, -, hc⟩ := (hv slot).push_eq_ok (message.drop header.dataOffset)
    have h₁ := Evolves.react ha (.data hr he hf hk hb)
    rw [Net.ensures_bind, Net.ensures_get, Net.ensures_bind, Net.ensures_check hb,
      Net.ensures_bind, Net.ensures_check (subLengths_eq_ok hc), Net.ensures_bind,
      Net.ensures_modify, Net.ensures_bind, Net.ensures_modify]
    refine (sendAck_ensures hp slot ?_ (h₁.valid hv)).mono fun _ _ h₂ => h₁.trans h₂
    rw [socketAt_keepData, if_pos rfl, socketAt_record, he]
    simp

theorem Tcp.acceptFin_ensures (hp : p.Evolving) {slot : Slot} {header : Header}
    {message : Bytes} {source : Ipv4.Address} (ha : Addressed w message source header slot)
    (hr : header.flags.rst = false) (he : (socketAt slot w).state = .established)
    (hf : header.flags.fin = true) (hv : w.Valid) :
    Net.Ensures (acceptFin p slot header) w fun _ w' => Evolves w w' := by
  have h₁ := Evolves.react ha (.closeWait hr he hf)
  rw [acceptFin, Net.ensures_bind, Net.ensures_modify, Net.ensures_bind, Net.ensures_modify]
  refine (sendAck_ensures hp slot ?_ (h₁.valid hv)).mono fun _ _ h₂ => h₁.trans h₂
  simp

theorem Tcp.finish_ensures (hp : p.Evolving) {slot : Slot} {header : Header}
    (hu : (socketAt slot w).inUse = true)
    (hs : (socketAt slot w).state = .finWait1 ∨ (socketAt slot w).state = .finWait2)
    (hf : header.flags.fin = true) (hv : w.Valid) :
    Net.Ensures (finish p slot header) w fun _ w' => Evolves w w' := by
  rw [finish, Net.ensures_bind, Net.ensures_modify, Net.ensures_bind]
  refine (sendAck_ensures hp slot ?_ ?_).mono fun _ w₁ h₁ => .finish hu hs hf h₁
  · rw [socketAt_setAck, if_pos rfl]
    rcases hs with hs | hs <;> simp [hs]
  · exact hv.update rfl

theorem Tcp.advance_ensures (hp : p.Evolving) {slot : Slot} {header : Header} {message : Bytes}
    {source : Ipv4.Address} (ha : Addressed w message source header slot)
    (hr : header.flags.rst = false) (hv : w.Valid) :
    Net.Ensures (advance p slot (socketAt slot w).state header message source) w
      fun _ w' => Evolves w w' := by
  have hu : (socketAt slot w).inUse = true := Sockets.inUse_of_demux? ha.found
  unfold advance
  -- One case for each state; what the flags ask for is split inside it.
  cases hs : (socketAt slot w).state with
  | listen =>
    dsimp only
    split
    · exact acceptConnection_ensures hp ha hr hs ‹_› hv
    · exact .refl w
  | synSent =>
    dsimp only
    split
    · rename_i hf
      have h₁ := Evolves.react ha (.confirm hr hs hf.1 hf.2)
      rw [Net.ensures_bind, Net.ensures_modify, Net.ensures_bind, Net.ensures_modify]
      refine (sendAck_ensures hp slot ?_ (h₁.valid hv)).mono fun _ _ h₂ => h₁.trans h₂
      simp
    · exact .refl w
  | synReceived =>
    dsimp only
    split
    · exact .react ha (.complete hr hs ‹_›)
    · exact .refl w
  | established =>
    dsimp only
    split
    · exact acceptFin_ensures hp ha hr hs ‹_› hv
    · rename_i hf
      split
      · have ho := Header.dataOffset_le_of_decode? ha.decoded
        rw [Net.ensures_bind, Net.ensures_check (Bytes.slice_eq_ok ho (Nat.le_refl _)),
          ← List.length_drop, List.take_length]
        exact acceptData_ensures hp ha hr hs (by simpa using hf) ‹_› hv
      · exact .refl w
  | finWait1 =>
    dsimp only
    split
    · rename_i hk
      have h₁ := Evolves.react ha (.finAcked hr hs hk)
      rw [Net.ensures_bind, Net.ensures_modify]
      split
      · refine (finish_ensures hp ?_ (.inr ?_) ‹_› (h₁.valid hv)).mono fun _ _ h₂ => h₁.trans h₂
        · rwa [socketAt_setState_self]
        · rw [socketAt_setState_self]
      · exact h₁
    · split
      · exact finish_ensures hp hu (.inl hs) ‹_› hv
      · exact .refl w
  | finWait2 =>
    dsimp only
    split
    · exact finish_ensures hp hu (.inr hs) ‹_› hv
    · exact .refl w
  | lastAck =>
    dsimp only
    split
    · exact .react ha (.release hr hs ‹_›)
    · exact .refl w
  | closed | closeWait | closing | timeWait => exact .refl w

theorem Tcp.handle_ensures (hp : p.Evolving) (message : Bytes) (source : Ipv4.Address)
    (hv : w.Valid) : Net.Ensures (handle p message source) w fun _ w' => Evolves w w' := by
  rw [handle, Net.ensures_bind, Net.ensures_check (Header.parse_eq_ok message)]
  cases hd : Header.decode? message with
  | none => exact .refl w
  | some header =>
    simp only [Net.ensures_bind, Net.ensures_get]
    cases hs : w.host.tcp.demux? header.dest source header.source with
    | none => exact .chore (.remark w rfl)
    | some slot =>
      simp only [Net.ensures_bind, Net.ensures_get]
      split
      · exact .react ⟨hd, hs⟩ (.reset ‹_›)
      · rename_i hr
        exact advance_ensures hp ⟨hd, hs⟩ (by simpa using hr) hv

theorem Ipv4.Protocol.ofNumber?_eq_some_iff {n : UInt8} {protocol : Protocol} :
    ofNumber? n = some protocol ↔ n = protocol.number := by
  constructor
  · intro h
    unfold ofNumber? at h
    split at h
    · cases h
      assumption
    · split at h
      · cases h
        assumption
      · split at h
        · cases h
          assumption
        · cases h
  · rintro rfl
    exact ofNumber?_number protocol

theorem Ipv4.handle_ensures (hp : p.Evolving) (data : Bytes) (hv : w.Valid) :
    Net.Ensures (handle p data) w fun _ w' => Evolves w w' ∨
      ∃ port d slot, Udp.Carries w.host data port d ∧ w.host.udp.listener? port = some slot ∧
        w' = Udp.deliver slot d d.kept w := by
  rw [handle, Net.ensures_bind, Net.ensures_check (Header.parse_eq_ok data)]
  cases hd : Header.decode? data with
  | none => exact .inl (.refl w)
  | some header =>
    dsimp only
    -- The header is as long as it says and within the data; all later bounds rest on that.
    have hh := (Header.minHeader_le_of_decode? hd).2
    rw [Net.ensures_bind, Net.ensures_check (Bytes.slice_from_start hh)]
    cases hc : Checksum.verifies (data.take header.headerLength) with
    | false => exact .inl (.chore (.remark w rfl))
    | true =>
      rw [if_neg (by decide)]
      split
      · exact .inl (.refl w)
      · rename_i hl
        obtain ⟨hmin, hmax⟩ := not_or.1 hl
        have hmin : header.headerLength ≤ header.totalLength.toNat := Nat.le_of_not_lt hmin
        have hmax : header.totalLength.toNat ≤ data.length := Nat.le_of_not_lt hmax
        rw [Net.ensures_bind, Net.ensures_get]
        split
        · exact .inl (.refl w)
        · rename_i hdest
          rw [Net.ensures_bind, Net.ensures_check (Bytes.slice_eq_ok hmin hmax), ← List.drop_take,
            ← Header.payload]
          split
          · exact (Icmp.handle_ensures hp _ _ hv).mono fun _ _ h => .inl h
          · exact (Tcp.handle_ensures hp _ _ hv).mono fun _ _ h => .inl h
          · rename_i hprotocol
            have hdest : header.dest = w.host.interface.ip ∨ header.dest = Address.broadcast := by
              simpa [Address.isBroadcast, World.interface, Classical.or_iff_not_imp_left]
                using hdest
            have hadmits : Admits w.host data header := ⟨hd, hc, hmin, hmax, hdest⟩
            refine (Udp.handle_ensures _ _).mono fun _ w' h => ?_
            rcases h with rfl | ⟨u, slot, hwhole, hs, rfl⟩
            · exact .inl (.refl _)
            · exact .inr ⟨_, _, slot, ⟨header, u, hadmits,
                Protocol.ofNumber?_eq_some_iff.1 hprotocol, hwhole, rfl, rfl⟩, hs, rfl⟩
          · exact .inl (.refl w)

namespace Net

theorem handleFrame_ensures (hp : p.Evolving) (frame : Bytes) (hv : w.Valid) :
    Ensures (handleFrame p frame) w fun _ w' => Evolves w w' ∨
      ∃ port d slot, Udp.Brings w.host frame port d ∧ w.host.udp.listener? port = some slot ∧
        w' = Udp.deliver slot d d.kept w := by
  rw [handleFrame, ensures_bind, ensures_check (Ethernet.Header.parse_eq_ok frame)]
  cases hd : Ethernet.Header.decode? frame with
  | none => exact .inl (.refl w)
  | some header =>
    have hl : Ethernet.headerLength ≤ frame.length := by
      refine Nat.le_of_not_lt fun hl => ?_
      simp [Ethernet.Header.decode?_of_lt hl] at hd
    dsimp only
    rw [ensures_bind, ensures_check (Bytes.slice_to_end hl)]
    split
    · exact (Arp.handle_ensures _).mono fun _ _ h => .inl h
    · rename_i htype
      refine (Ipv4.handle_ensures hp _ hv).mono fun _ w' h => ?_
      rcases h with h | ⟨port, d, slot, hcarries, hs, rfl⟩
      · exact .inl h
      · exact .inr ⟨port, d, slot, ⟨header, hd, htype, hcarries⟩, hs, rfl⟩
    · exact .inl (.refl w)

theorem handleFrame_valid (hp : p.Evolving) (frame : Bytes) (hv : w.Valid) :
    Ensures (handleFrame p frame) w fun _ w' => w'.Valid := by
  refine (handleFrame_ensures hp frame hv).mono fun _ w' h => ?_
  rcases h with h | ⟨port, d, slot, -, -, rfl⟩
  · exact h.valid hv
  · exact hv

theorem drain_ensures (hp : p.Evolving) (budget : Nat) (hv : w.Valid) :
    Ensures (drain (handleFrame p) budget) w fun _ w' => Evolves w w' := by
  induction budget generalizing w with
  | zero => exact .refl w
  | succ budget ih =>
    have ht := Evolves.chore (.takeFrame w)
    rw [drain, ensures_bind, ensures_modifyGet]
    split
    · exact ht.trans (.chore (.remark _ rfl))
    · exact ht
    · rename_i frame _ hframe
      rw [ensures_bind]
      refine (handleFrame_ensures hp frame (ht.valid hv)).mono fun _ w₁ h₁ => ?_
      have h₁ : Evolves w w₁ := by
        rcases h₁ with h₁ | ⟨port, d, slot, hb, hs, rfl⟩
        · exact ht.trans h₁
        · exact .chore (.receive hframe hb hs)
      rw [ensures_bind]
      exact (ih (h₁.valid hv)).mono fun _ _ h₂ => h₁.trans h₂

theorem poll_ensures (fuel : Nat) (hv : w.Valid) :
    Ensures (poll fuel) w fun _ w' => Evolves w w' := by
  -- The frames of one poll are read with a poller of less fuel, which only evolves by induction.
  induction fuel generalizing w with
  | zero => trivial
  | succ fuel ih =>
    exact drain_ensures (fun _ => ih) _ hv

end Net

theorem Poller.evolving_ofFuel (fuel : Nat) : (ofFuel fuel : Poller δ).Evolving :=
  fun _ => Net.poll_ensures fuel

end InetHost
