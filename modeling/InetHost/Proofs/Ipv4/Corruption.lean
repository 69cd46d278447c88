import Mathlib.Data.Nat.Bitwise
import InetHost.Proofs.Host.Discards
import InetHost.Proofs.Host.Padding

/-! Corruption on the line. One wrong bit in the header of a packet, wherever it is, and the host drops
the packet: a wrong version is seen as such, and all else by the checksum. The four bits that say how
long the header is are left out, since with them the checksum is taken of other bytes. -/

namespace InetHost

variable {δ : Type} {w : World δ}

namespace Bytes

/-- The byte at `i` with one of its bits turned over; bit 0 is the lowest. -/
def flipBit (bs : Bytes) (i bit : Nat) : Bytes := bs.modify i fun b => b ^^^ UInt8.ofNat (2 ^ bit)

theorem drop_flipBit (bs : Bytes) (n i bit : Nat) :
    (bs.flipBit (n + i) bit).drop n = flipBit (bs.drop n) i bit := by
  rw [flipBit, List.drop_modify_of_ge _ _ _ _ (Nat.le_add_right n i), Nat.add_sub_cancel_left]
  rfl

theorem take_flipBit (bs : Bytes) (n i bit : Nat) :
    (bs.flipBit i bit).take n = flipBit (bs.take n) i bit :=
  List.take_modify ..

section Bit

variable {bit : Nat} (b : UInt8)

theorem toNat_xor_bit (h : bit < 8) : (b ^^^ UInt8.ofNat (2 ^ bit)).toNat = b.toNat ^^^ 2 ^ bit := by
  rw [UInt8.toNat_xor, UInt8.toNat_ofNat', Nat.mod_eq_of_lt]
  exact Nat.pow_lt_pow_right (Nat.lt_succ_self 1) h

theorem xor_bit_div_ne {n : Nat} (h : bit < 8) (hn : n ≤ bit) :
    (b ^^^ UInt8.ofNat (2 ^ bit)).toNat / 2 ^ n ≠ b.toNat / 2 ^ n := by
  intro he
  rw [toNat_xor_bit b h, Nat.xor_div_two_pow, Nat.pow_div hn Nat.zero_lt_two] at he
  have hzero : 2 ^ (bit - n) = 0 := by
    rw [← Nat.xor_xor_cancel_left (b.toNat / 2 ^ n) (2 ^ (bit - n)), he, Nat.xor_self]
  exact (Nat.two_pow_pos (bit - n)).ne' hzero

end Bit

end Bytes

theorem Checksum.verifies_flipBit {data : Bytes} {i bit : Nat} (hl : data.length ≤ 131072)
    (hv : verifies data = true) (h : i < data.length) (hbit : bit < 8) :
    verifies (data.flipBit i bit) = false :=
  verifies_modify hl hv h fun he => Bytes.xor_bit_div_ne _ hbit (Nat.zero_le bit) (by rw [he])

theorem Ethernet.Header.exists_decode?_eq_some {data : Bytes} (h : headerLength ≤ data.length) :
    ∃ header, decode? data = some header := by
  have hl : 14 ≤ data.length := h
  have hp := parse_eq_ok data
  rw [parse, if_neg (Nat.not_lt.2 h)] at hp
  simp (disch := omega) only [Mac.ofBytesAt_eq_ok, Bytes.word16At_eq_ok] at hp
  exact ⟨_, (Except.ok.inj hp).symm⟩

theorem Ethernet.Header.decode?_eq_of_take_eq {data data' : Bytes} {header : Header}
    (h : decode? data = some header) (ht : data'.take headerLength = data.take headerLength) :
    decode? data' = some header := by
  have hl : headerLength ≤ data.length :=
    Nat.le_of_not_lt fun hlt => by simp [decode?_of_lt hlt] at h
  obtain ⟨read, hread⟩ : ∃ read, decode? (data.take headerLength) = some read :=
    exists_decode?_eq_some (by rw [List.length_take_of_le hl])
  have hdata := decode?_append hread (data.drop headerLength)
  have hdata' := decode?_append (ht ▸ hread) (data'.drop headerLength)
  rw [List.take_append_drop] at hdata hdata'
  rw [hdata', ← hdata, h]

namespace Ipv4

variable {data : Bytes} {header : Header} {i bit : Nat}

theorem Header.headerLength_le_of_decode? (hd : decode? data = some header) :
    header.headerLength ≤ 60 := by
  rw [(headerLength_of_decode? hd).2, UInt8.toNat_mod]
  exact Nat.mul_le_mul_right 4 (Nat.le_of_lt_succ (Nat.mod_lt _ (by decide)))

theorem headD_flipBit_succ (data : Bytes) (i bit : Nat) :
    (data.flipBit (i + 1) bit).headD 0 = data.headD 0 := by
  cases data with
  | nil => rfl
  | cons b rest => rfl

/-- With one wrong bit in its header a packet is not admitted. -/
theorem not_admits_flipBit (hd : Header.decode? data = some header)
    (hv : Checksum.verifies (data.take header.headerLength) = true) (hi : i < header.headerLength)
    (hbit : bit < 8) (hlength : i = 0 → 4 ≤ bit) (h : Host) (header' : Header) :
    ¬Admits h (data.flipBit i bit) header' := by
  intro ha
  obtain ⟨hversion, hhead⟩ := Header.headerLength_of_decode? hd
  obtain ⟨hversion', hhead'⟩ := Header.headerLength_of_decode? ha.decoded
  obtain ⟨hmin, hmax⟩ := Header.minHeader_le_of_decode? hd
  cases i with
  | zero =>
    -- The version is read from the changed byte, and is another.
    cases data with
    | nil => exact absurd (Nat.le_trans hmin hmax) (by decide)
    | cons b rest =>
      have hupper : (b ^^^ UInt8.ofNat (2 ^ bit)) / 16 = b / 16 := hversion'.trans hversion.symm
      exact Bytes.xor_bit_div_ne b hbit (hlength rfl) (congrArg UInt8.toNat hupper)
  | succ i =>
    -- The header is as long as it was, and the checksum is taken of the changed bytes.
    rw [headD_flipBit_succ, ← hhead] at hhead'
    have hverified := ha.verified
    rw [hhead', Bytes.take_flipBit] at hverified
    have htake : (data.take header.headerLength).length = header.headerLength :=
      List.length_take_of_le hmax
    have hshort : (data.take header.headerLength).length ≤ 131072 := by
      have := Header.headerLength_le_of_decode? hd
      omega
    have hchanged := Checksum.verifies_flipBit hshort hv (htake.symm ▸ hi) hbit
    exact Bool.false_ne_true (hchanged.symm.trans hverified)

end Ipv4

/-- A wrong bit in the header of a packet is caught, unless it belongs to the length of the header. -/
theorem flipped_header_bit_caught [Link.Device δ] (p : Poller δ) (w : World δ) {frame : Bytes}
    {link : Ethernet.Header} {header : Ipv4.Header} {i bit : Nat}
    (hl : Ethernet.Header.decode? frame = some link) (ht : link.payloadType? = some .ipv4)
    (hd : Ipv4.Header.decode? (frame.drop Ethernet.headerLength) = some header)
    (hv : Checksum.verifies ((frame.drop Ethernet.headerLength).take header.headerLength) = true)
    (hi : i < header.headerLength) (hbit : bit < 8) (hlength : i = 0 → 4 ≤ bit) :
    ∃ w', Net.handleFrame p (frame.flipBit (Ethernet.headerLength + i) bit) w = .ok ((), w') ∧
      w'.host = w.host ∧ w'.device = w.device ∧ w'.clock = w.clock ∧ w'.frames = w.frames := by
  have hlink : Ethernet.Header.decode? (frame.flipBit (Ethernet.headerLength + i) bit) = some link := by
    refine Ethernet.Header.decode?_eq_of_take_eq hl ?_
    rw [Bytes.take_flipBit]
    exact List.modify_eq_self (Nat.le_add_right_of_le (List.length_take_le ..))
  obtain ⟨w', hrun, hr⟩ := Ipv4.overlooks_of_not_admits (p := p)
    (Ipv4.not_admits_flipBit hd hv hi hbit hlength w.host)
  rw [Net.handleFrame_ipv4 hlink ht, Bytes.drop_flipBit]
  exact ⟨w', hrun, hr.host_eq, hr.device_eq, hr.clock_eq, hr.frames_eq⟩

def Udp.roomyLetter : Bytes :=
  let front := [0x46, 0] ++ Bytes.word16 32 ++ Bytes.word16 0 ++ [0, 0, 64, 17]
  let back := Bytes.word32 Tcp.peer.ip ++ Bytes.word32 Interface.default.ip ++ [1, 1, 1, 0]
  Ethernet.Header.encode ⟨Interface.default.mac, Tcp.peer.mac, Ethernet.EtherType.ipv4.toWord⟩ ++
    (front ++ Bytes.word16 (Checksum.ofBytes (front ++ Bytes.word16 0 ++ back)) ++ back ++
      encode 5000 7 [])

theorem flipped_header_bit_caught_option :
    Ipv4.Header.decode? (Udp.roomyLetter.drop 14) =
      some ⟨24, 32, 0, 64, 17, 25539, Tcp.peer.ip, Interface.default.ip⟩ ∧
    Checksum.verifies ((Udp.roomyLetter.drop 14).take 24) = true ∧
    ∃ w', Net.handleFrame (Poller.ofFuel 0) (Udp.roomyLetter.flipBit (14 + 22) 7) Udp.listening =
        .ok ((), w') ∧
      w'.host = Udp.listening.host ∧ w'.device = Udp.listening.device ∧
      w'.clock = Udp.listening.clock ∧ w'.frames = Udp.listening.frames := by
  have hlink : Ethernet.Header.decode? Udp.roomyLetter =
      some ⟨Interface.default.mac, Tcp.peer.mac, Ethernet.EtherType.ipv4.toWord⟩ :=
    Ethernet.Header.decode?_encode _ _
  have hheader : Ipv4.Header.decode? (Udp.roomyLetter.drop 14) =
      some ⟨24, 32, 0, 64, 17, 25539, Tcp.peer.ip, Interface.default.ip⟩ := by decide +kernel
  have hverifies : Checksum.verifies ((Udp.roomyLetter.drop 14).take 24) = true := by
    decide +kernel
  exact ⟨hheader, hverifies, flipped_header_bit_caught _ _ hlink rfl hheader hverifies
    (by decide) (by decide) (by decide)⟩

end InetHost
