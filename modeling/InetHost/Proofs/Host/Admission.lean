import Mathlib.Tactic.SplitIfs
import InetHost.Proofs.Host.Finishes
import InetHost.Proofs.Host.Frames

/-! What the host lets in. A packet that is whole and is for the host goes to its protocol, with no more
and no less than it carries; and a packet that another host sends is such a packet, whatever the line
adds behind it. -/

namespace InetHost

variable {δ : Type} {w : World δ}

namespace Ipv4

theorem admits_sent {payload : Bytes} (hl : payload.length ≤ maxPayload) (h : Host)
    (source : Address) (protocol : Protocol) (id : UInt16) (rest : Bytes) :
    Admits h ((Header.plain source h.interface.ip protocol id payload.length).encode ++
      (payload ++ rest)) (.sent source h.interface.ip protocol id payload.length) where
  decoded := Header.decode?_fields ..
  verified := by
    have hheader : (Header.sent source h.interface.ip protocol id payload.length).headerLength =
      minHeader := rfl
    rw [hheader, List.take_left' (Header.length_encode _)]
    exact Header.verifies_encode _
  headerLength_le := by
    rw [Header.toNat_totalLength_sent _ _ _ _ hl]
    exact Nat.le_add_right ..
  totalLength_le := by
    rw [Header.toNat_totalLength_sent _ _ _ _ hl, List.length_append, Header.length_encode,
      List.length_append, ← Nat.add_assoc]
    exact Nat.le_add_right ..
  dest_eq := .inl rfl

variable [Link.Device δ] {p : Poller δ} {data : Bytes} {header : Header}

def Protocol.deliver (p : Poller δ) (message : Bytes) (source : Address) : Protocol → Net δ Unit
  | icmp => Icmp.handle p message source
  | tcp => Tcp.handle p message source
  | udp => Udp.handle message source

theorem handle_of_admits (h : Admits w.host data header) :
    handle p data w = (match Protocol.ofNumber? header.protocol with
      | some protocol => protocol.deliver p (header.payload data) header.source
      | none => pure () : Net δ Unit) w := by
  obtain ⟨-, hl⟩ := Header.minHeader_le_of_decode? h.decoded
  have htotal : ¬(header.totalLength.toNat < header.headerLength ∨
      data.length < header.totalLength.toNat) :=
    not_or.2 ⟨Nat.not_lt.2 h.headerLength_le, Nat.not_lt.2 h.totalLength_le⟩
  have hdest : ¬(header.dest ≠ w.interface.ip ∧ (!header.dest.isBroadcast) = true) := by
    rintro ⟨hown, hall⟩
    rcases h.dest_eq with he | he
    · exact hown he
    · simp [Address.isBroadcast, he] at hall
  rw [handle, Net.check_bind (Header.parse_eq_ok data), h.decoded]
  dsimp only
  rw [Net.check_bind (Bytes.slice_from_start hl), h.verified, if_neg (by decide), if_neg htotal,
    Net.bind_of_eq_ok (m := get) rfl, if_neg hdest,
    Net.check_bind (Bytes.slice_eq_ok h.headerLength_le h.totalLength_le), ← List.drop_take,
    ← Header.payload]
  cases Protocol.ofNumber? header.protocol with
  | none => rfl
  | some protocol => cases protocol <;> rfl

end Ipv4

namespace Net

variable [Link.Device δ] {p : Poller δ} {frame : Bytes} {link : Ethernet.Header}

theorem handleFrame_of_decode? (hl : Ethernet.Header.decode? frame = some link) :
    handleFrame p frame w = (match link.payloadType? with
      | some .arp => Arp.handle (frame.drop Ethernet.headerLength)
      | some .ipv4 => Ipv4.handle p (frame.drop Ethernet.headerLength)
      | none => pure () : Net δ Unit) w := by
  have hlength : Ethernet.headerLength ≤ frame.length :=
    Nat.le_of_not_lt fun hlt => by simp [Ethernet.Header.decode?_of_lt hlt] at hl
  rw [handleFrame, check_bind (Ethernet.Header.parse_eq_ok frame), hl]
  exact check_bind (Bytes.slice_to_end hlength) _

theorem handleFrame_arp (hl : Ethernet.Header.decode? frame = some link)
    (ht : link.payloadType? = some .arp) :
    handleFrame p frame w = Arp.handle (frame.drop Ethernet.headerLength) w := by
  rw [handleFrame_of_decode? hl, ht]

theorem handleFrame_ipv4 (hl : Ethernet.Header.decode? frame = some link)
    (ht : link.payloadType? = some .ipv4) :
    handleFrame p frame w = Ipv4.handle p (frame.drop Ethernet.headerLength) w := by
  rw [handleFrame_of_decode? hl, ht]

open Ipv4

/-- A frame that one host has sent to another is delivered there. -/
theorem handleFrame_wire {own : Interface} {mac : Mac} {dest : Address} {protocol : Protocol}
    {id : UInt16} {payload : Bytes} (hd : dest = w.host.interface.ip)
    (hl : payload.length ≤ maxPayload) (extra : Bytes) :
    handleFrame p (wire own mac dest protocol id payload ++ extra) w =
      protocol.deliver p payload own.ip w := by
  subst hd
  let packet := (Header.plain own.ip w.host.interface.ip protocol id payload.length).encode ++
    (payload ++ (List.replicate (26 - payload.length) 0 ++ extra))
  let link : Ethernet.Header := ⟨mac, own.mac, Ethernet.EtherType.ipv4.toWord⟩
  have hframe : wire own mac w.host.interface.ip protocol id payload ++ extra =
      link.encode ++ packet := by
    rw [wire_eq]
    simp only [link, packet, List.append_assoc]
  have hprotocol : Protocol.ofNumber?
      (Header.sent own.ip w.host.interface.ip protocol id payload.length).protocol =
        some protocol := Protocol.ofNumber?_number protocol
  rw [hframe, handleFrame_ipv4 (Ethernet.Header.decode?_encode link packet) rfl,
    List.drop_left' (Ethernet.Header.length_encode _),
    handle_of_admits (admits_sent hl w.host own.ip protocol id _), hprotocol, payload_sent hl]
  rfl

theorem handleFrame_bare_wire {own : Interface} {mac : Mac} {dest : Address} {protocol : Protocol}
    {id : UInt16} {payload : Bytes} (hd : dest = w.host.interface.ip)
    (hl : payload.length ≤ maxPayload) :
    handleFrame p (wire own mac dest protocol id payload) w =
      protocol.deliver p payload own.ip w := by
  rw [← List.append_nil (wire own mac dest protocol id payload)]
  exact handleFrame_wire hd hl []

end Net

end InetHost
