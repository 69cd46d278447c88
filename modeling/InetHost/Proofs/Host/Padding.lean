import InetHost.Proofs.Udp.Delivery

/-! Padding. A line makes short frames longer, and what it adds is no data: a reader of headers takes the
same fields whatever follows them, and what a packet carries ends where its header says. -/

namespace InetHost

variable {δ : Type} {w : World δ}

namespace Bytes

variable {bs rest : Bytes}

theorem read8?_append {v : UInt8} (h : read8? bs = some (v, rest)) (pad : Bytes) :
    read8? (bs ++ pad) = some (v, rest ++ pad) := by
  rw [read8?_eq_some_iff] at h ⊢
  rw [h, List.cons_append]

theorem read16?_append {v : UInt16} (h : read16? bs = some (v, rest)) (pad : Bytes) :
    read16? (bs ++ pad) = some (v, rest ++ pad) := by
  rw [read16?_eq_some_iff] at h ⊢
  rw [h, List.append_assoc]

theorem read32?_append {v : UInt32} (h : read32? bs = some (v, rest)) (pad : Bytes) :
    read32? (bs ++ pad) = some (v, rest ++ pad) := by
  rw [read32?_eq_some_iff] at h ⊢
  rw [h, List.append_assoc]

theorem slice_append {start stop : Nat} (hs : start ≤ stop) (h : stop ≤ bs.length) (pad : Bytes) :
    (bs ++ pad).slice start stop = bs.slice start stop := by
  have hpad : stop ≤ (bs ++ pad).length := by
    rw [List.length_append]
    exact Nat.le_add_right_of_le h
  rw [slice_eq_ok hs hpad, slice_eq_ok hs h, List.drop_append_of_le_length (Nat.le_trans hs h),
    List.take_append_of_le_length]
  rw [List.length_drop]
  exact Nat.sub_le_sub_right h start

end Bytes

theorem Mac.read?_append {bs rest : Bytes} {m : Mac} (h : read? bs = some (m, rest)) (pad : Bytes) :
    read? (bs ++ pad) = some (m, rest ++ pad) := by
  match bs, h with
  | _ :: _ :: _ :: _ :: _ :: _ :: _, h =>
    obtain ⟨rfl, rfl⟩ := Prod.mk.inj (Option.some.inj h)
    rfl

theorem Ethernet.Header.decode?_append {data : Bytes} {header : Header}
    (h : decode? data = some header) (pad : Bytes) : decode? (data ++ pad) = some header := by
  simp only [decode?, Option.bind_eq_bind, Option.bind_eq_some_iff, Prod.exists] at h ⊢
  obtain ⟨_, _, hdest, _, _, hsource, _, _, htype, h⟩ := h
  exact ⟨_, _, Mac.read?_append hdest pad, _, _, Mac.read?_append hsource pad,
    _, _, Bytes.read16?_append htype pad, h⟩

namespace Arp

theorem Packet.decode?_append {data : Bytes} {packet : Packet} (h : decode? data = some packet)
    (pad : Bytes) : decode? (data ++ pad) = some packet := by
  simp only [decode?, Option.bind_eq_bind, Option.bind_eq_some_iff, Prod.exists] at h ⊢
  obtain ⟨_, _, h₁, _, _, h₂, _, _, h₃, _, _, hoperation, _, _, hmac, _, _, hip, _, _, hmac', _, _,
    hip', h⟩ := h
  exact ⟨_, _, Bytes.read16?_append h₁ pad, _, _, Bytes.read16?_append h₂ pad,
    _, _, Bytes.read16?_append h₃ pad, _, _, Bytes.read16?_append hoperation pad,
    _, _, Mac.read?_append hmac pad, _, _, Bytes.read32?_append hip pad,
    _, _, Mac.read?_append hmac' pad, _, _, Bytes.read32?_append hip' pad, h⟩

theorem Packet.exists_decode?_eq_some {data : Bytes} (h : packetLength ≤ data.length) :
    ∃ packet, decode? data = some packet := by
  have hl : 28 ≤ data.length := h
  have hp := parse_eq_ok data
  rw [parse, if_neg (Nat.not_lt.2 h)] at hp
  simp (disch := omega) only [Mac.ofBytesAt_eq_ok, Bytes.word16At_eq_ok, Bytes.word32At_eq_ok] at hp
  exact ⟨_, (Except.ok.inj hp).symm⟩

theorem handle_append [Link.Device δ] {data : Bytes} (h : packetLength ≤ data.length)
    (pad : Bytes) : handle (data ++ pad) w = handle data w := by
  obtain ⟨packet, hd⟩ := Packet.exists_decode?_eq_some h
  rw [handle, handle, Net.check_bind (Packet.parse_eq_ok _), Net.check_bind (Packet.parse_eq_ok data),
    Packet.decode?_append hd pad, hd]

end Arp

namespace Ipv4

theorem Header.decode?_append {data : Bytes} {header : Header} (h : decode? data = some header)
    (pad : Bytes) : decode? (data ++ pad) = some header := by
  simp only [decode?, Option.bind_eq_bind, Option.bind_eq_some_iff, Prod.exists] at h ⊢
  obtain ⟨_, _, hfirst, _, _, h₁, _, _, hlength, _, _, hid, _, _, h₂, _, _, httl, _, _, hprotocol,
    _, _, hchecksum, _, _, hsource, _, _, hdest, h⟩ := h
  refine ⟨_, _, Bytes.read8?_append hfirst pad, _, _, Bytes.read8?_append h₁ pad,
    _, _, Bytes.read16?_append hlength pad, _, _, Bytes.read16?_append hid pad,
    _, _, Bytes.read16?_append h₂ pad, _, _, Bytes.read8?_append httl pad,
    _, _, Bytes.read8?_append hprotocol pad, _, _, Bytes.read16?_append hchecksum pad,
    _, _, Bytes.read32?_append hsource pad, _, _, Bytes.read32?_append hdest pad, ?_⟩
  split at h
  · rename_i hc
    obtain ⟨hversion, hmin, hmax⟩ := hc
    rw [List.length_append, if_pos ⟨hversion, hmin, Nat.le_add_right_of_le hmax⟩, h]
  · cases h

theorem handle_append [Link.Device δ] {p : Poller δ} {data : Bytes} {header : Header}
    (hd : Header.decode? data = some header) (hl : header.totalLength.toNat ≤ data.length)
    (pad : Bytes) : handle p (data ++ pad) w = handle p data w := by
  obtain ⟨-, hhead⟩ := Header.minHeader_le_of_decode? hd
  rw [handle, handle, Net.check_bind (Header.parse_eq_ok _), Net.check_bind (Header.parse_eq_ok data),
    Header.decode?_append hd pad, hd]
  dsimp only
  rw [Bytes.slice_append (Nat.zero_le _) hhead pad]
  by_cases hshort : header.totalLength.toNat < header.headerLength
  · simp only [hshort, true_or, if_true]
  · have hdata : ¬ data.length < header.totalLength.toNat := Nat.not_lt.2 hl
    have hpad : ¬ (data ++ pad).length < header.totalLength.toNat := by
      rw [List.length_append]
      omega
    simp only [hdata, hpad, Bytes.slice_append (Nat.le_of_not_lt hshort) hl pad]

end Ipv4

/-- The frame holds all of the packet that it carries. -/
inductive Net.Whole (frame : Bytes) : Prop
  | arp {link : Ethernet.Header} : Ethernet.Header.decode? frame = some link →
      link.payloadType? = some .arp →
      Arp.packetLength ≤ (frame.drop Ethernet.headerLength).length → Whole frame
  | ipv4 {link : Ethernet.Header} {packet : Ipv4.Header} :
      Ethernet.Header.decode? frame = some link → link.payloadType? = some .ipv4 →
      Ipv4.Header.decode? (frame.drop Ethernet.headerLength) = some packet →
      packet.totalLength.toNat ≤ (frame.drop Ethernet.headerLength).length → Whole frame

theorem Ethernet.drop_append_of_decode? {frame : Bytes} {link : Header}
    (h : Header.decode? frame = some link) (pad : Bytes) :
    (frame ++ pad).drop headerLength = frame.drop headerLength ++ pad :=
  List.drop_append_of_le_length
    (Nat.le_of_not_lt fun hlt => by simp [Header.decode?_of_lt hlt] at h)

/-- A whole frame leads to the same run, whatever follows it. -/
theorem trailing_bytes_ignored [Link.Device δ] (p : Poller δ) (w : World δ) {frame : Bytes}
    (h : Net.Whole frame) (pad : Bytes) :
    Net.handleFrame p (frame ++ pad) w = Net.handleFrame p frame w := by
  cases h with
  | arp hl ht hlength =>
    rw [Net.handleFrame_arp (Ethernet.Header.decode?_append hl pad) ht, Net.handleFrame_arp hl ht,
      Ethernet.drop_append_of_decode? hl, Arp.handle_append hlength]
  | ipv4 hl ht hd hlength =>
    rw [Net.handleFrame_ipv4 (Ethernet.Header.decode?_append hl pad) ht, Net.handleFrame_ipv4 hl ht,
      Ethernet.drop_append_of_decode? hl, Ipv4.handle_append hd hlength]

theorem trailing_bytes_ignored_letter : Net.Whole (Udp.letter 7 [104, 105]) ∧
    ∃ w', Net.handleFrame (Poller.ofFuel 0) (Udp.letter 7 [104, 105]) Udp.listening = .ok ((), w') ∧
      Net.handleFrame (Poller.ofFuel 0) (Udp.letter 7 [104, 105] ++ [33, 33]) Udp.listening =
        .ok ((), w') ∧
      (w'.host.udp.get 0).unread = some ⟨Tcp.peer.ip, 5000, [104, 105]⟩ := by
  have hwhole : Net.Whole (Udp.letter 7 [104, 105]) :=
    .ipv4 (Ethernet.decode?_ipv4Wire ..) rfl (Ipv4.decode?_drop_wire ..) (by decide +kernel)
  have hopen : Udp.listening.host.udp.listener? 7 = some 0 := by decide +kernel
  have hshort : ([104, 105] : Bytes).length ≤ Udp.maxPayload := by decide
  have hown : Interface.default.ip = Udp.listening.host.interface.ip := by decide +kernel
  have hread : Net.handleFrame (Poller.ofFuel 0) (Udp.letter 7 [104, 105] ++ []) Udp.listening =
      Ipv4.Protocol.udp.deliver (Poller.ofFuel 0) (Udp.encode 5000 7 [104, 105]) Tcp.peer.ip
        Udp.listening :=
    Net.handleFrame_wire hown (Udp.length_encode_le 5000 7 hshort) []
  rw [List.append_nil, Ipv4.Protocol.deliver, Udp.handle_encode 5000 _ hshort, hopen] at hread
  refine ⟨hwhole, _, hread, (trailing_bytes_ignored _ _ hwhole _).trans hread, ?_⟩
  exact (Udp.leaves_deliver ..).unread_eq

end InetHost
