import InetHost.Proofs.Checksum
import InetHost.Tcp.Segment

/-! Segments read back. A segment holds its header, its data and a checksum that sums to zero with the
addresses of its two ends, whichever of them comes first. -/

namespace InetHost.Tcp

namespace Header

theorem drop_segment (header : Header) (data : Bytes) (source dest : Ipv4.Address) :
    (header.segment data source dest).drop minHeader = data :=
  List.drop_left' (length_fields ..)

theorem transport_segment (header : Header) {data : Bytes} (hd : data.length ≤ 65515)
    (source dest : Ipv4.Address) : Checksum.transport source dest Ipv4.Protocol.tcp.number
      (header.segment data source dest) = 0 := by
  let front := Bytes.word16 header.source ++ Bytes.word16 header.dest ++
    Bytes.word32 header.seq ++ Bytes.word32 header.ack ++ [0x50, header.flags.toByte] ++
    Bytes.word16 header.window
  have hfront : front.length = 16 := rfl
  -- The checksum stands behind sixteen bytes, before the urgent pointer and the data.
  have hfields (c : UInt16) : header.fields c ++ data =
      front ++ Bytes.word16 c ++ ([0, 0] ++ data) := by
    rw [fields, List.append_assoc]
  rw [segment, hfields, hfields]
  refine Checksum.transport_store front ([0, 0] ++ data) source dest _ (by rw [hfront]) ?_
  rw [hfront, List.length_append, List.length_cons, List.length_cons, List.length_nil]
  omega

end Header

variable {data buffer : Bytes}

/-- Segments are read back as they were written, and sum to zero at both ends. -/
theorem segments_read_back (header : Header) (source dest : Ipv4.Address)
    (hd : data.length ≤ 65515) (hb : 20 + data.length ≤ buffer.length) :
    (header.segment data source dest).length = 20 + data.length ∧
    ∃ written, buffer.overwrite (header.segment data source dest) = .ok written ∧
      written.length = buffer.length ∧
      written.drop (20 + data.length) = buffer.drop (20 + data.length) ∧
      (∃ checksum, Header.parse (written.take (20 + data.length)) =
        .ok (some { header with dataOffset := 20, checksum })) ∧
      (written.take (20 + data.length)).drop 20 = data ∧
      Checksum.transport source dest 6 (written.take (20 + data.length)) = 0 ∧
      Checksum.transport dest source 6 (written.take (20 + data.length)) = 0 := by
  let segment := header.segment data source dest
  have hl : segment.length = 20 + data.length := header.length_segment data source dest
  have hwritten : buffer.overwrite segment = .ok (segment ++ buffer.drop segment.length) :=
    Bytes.overwrite_eq_ok (hl ▸ hb)
  have hvalid := header.transport_segment hd source dest
  rw [hl] at hwritten
  refine ⟨hl, _, hwritten, ?_, List.drop_left' hl, ?_⟩
  · rw [List.length_append, List.length_drop, hl]
    omega
  rw [List.take_left' hl]
  refine ⟨?_, header.drop_segment data source dest, hvalid, ?_⟩
  · exact ⟨_, (Header.parse_eq_ok segment).trans (congrArg _ (header.decode?_fields _ data))⟩
  · rw [← Checksum.transport_comm]
    exact hvalid

theorem segments_read_back_letters :
    let header : Header := ⟨5000, 80, 0xFFFFFFFF, 7, 0, { psh := true, ack := true }, 8192, 0⟩
    let data : Bytes := [97, 98, 99]
    let buffer : Bytes := List.replicate 24 0xAA
    data.length ≤ 65515 ∧ 20 + data.length ≤ buffer.length ∧
      ∃ written, buffer.overwrite (header.segment data 0x0A000009 0x0A000001) = .ok written ∧
        written.drop 23 = [0xAA] ∧
        (∃ checksum, Header.parse (written.take 23) =
          .ok (some { header with dataOffset := 20, checksum })) ∧
        (written.take 23).drop 20 = data ∧
        Checksum.transport 0x0A000001 0x0A000009 6 (written.take 23) = 0 := by
  intro header data buffer
  have hd : data.length ≤ 65515 := Nat.le_of_ble_eq_true rfl
  have hb : 20 + data.length ≤ buffer.length := Nat.le_of_ble_eq_true rfl
  obtain ⟨-, written, hwritten, -, hrest, hheader, hdata, -, hvalid⟩ :=
    segments_read_back header 0x0A000009 0x0A000001 hd hb
  exact ⟨hd, hb, written, hwritten, hrest, hheader, hdata, hvalid⟩

end InetHost.Tcp
