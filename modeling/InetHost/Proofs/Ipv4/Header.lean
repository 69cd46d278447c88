import InetHost.Proofs.Host.Frames

/-! Headers read back. A header of twenty bytes is read as it was written. The other way round, the bytes
of a valid header are those that its reading is written as again, as long as they have no field that the
host never sets; only a checksum of all ones comes back as zero. -/

namespace InetHost.Ipv4

namespace Header

variable {data : Bytes} {header : Header}

def front (h : Header) : Bytes :=
  [0x45, 0] ++ Bytes.word16 h.totalLength ++ Bytes.word16 h.id ++ [0, 0, h.ttl, h.protocol]

def back (h : Header) : Bytes := Bytes.word32 h.source ++ Bytes.word32 h.dest

@[simp] theorem length_front (h : Header) : h.front.length = 10 := rfl

@[simp] theorem length_back (h : Header) : h.back.length = 8 := rfl

theorem fields_eq (h : Header) (checksum : UInt16) :
    h.fields checksum = h.front ++ Bytes.word16 checksum ++ h.back := by
  rw [fields, front, back, List.append_assoc]

theorem total_front_pos (h : Header) : 0 < Checksum.total h.front := by
  rw [front, List.append_assoc, List.append_assoc, List.cons_append, List.cons_append, List.nil_append,
    Checksum.total]
  exact Nat.lt_of_lt_of_le (by decide : 0 < 0x45 * 256 + 0) (Nat.le_add_right ..)

theorem eq_fields_of_decode? (hl : data.length = 20) (hd : decode? data = some header)
    (hh : header.headerLength = 20) (hservice : (data.drop 1).take 1 = [0])
    (hfragment : (data.drop 6).take 2 = [0, 0]) : data = header.fields header.checksum := by
  simp only [decode?, Option.bind_eq_bind, Option.bind_eq_some_iff, Prod.exists,
    Bytes.read8?_eq_some_iff, Bytes.read16?_eq_some_iff, Bytes.read32?_eq_some_iff] at hd
  obtain ⟨first, _, rfl, service, _, rfl, totalLength, _, rfl, id, _, rfl, fragment, _, rfl, ttl, _, rfl,
    protocol, _, rfl, checksum, _, rfl, source, _, rfl, dest, rest, rfl, hd⟩ := hd
  rw [Option.ite_none_right_eq_some] at hd
  obtain ⟨⟨hversion, -, -⟩, hd⟩ := hd
  obtain rfl := Option.some.inj hd
  have hfirst : first = 0x45 := by
    have hv := congrArg UInt8.toNat hversion
    rw [UInt8.toNat_div] at hv
    rw [UInt8.toNat_mod] at hh
    change first.toNat / 16 = 4 at hv
    change first.toNat % 16 * 4 = 20 at hh
    apply UInt8.toNat_inj.1
    change first.toNat = 69
    omega
  have hrest : rest = [] := by
    simp only [List.length_cons, List.length_append, Bytes.length_word16, Bytes.length_word32] at hl
    exact List.eq_nil_of_length_eq_zero (by omega)
  obtain rfl : service = 0 := (List.cons.inj hservice).1
  replace hfragment : Bytes.word16 fragment = [0, 0] := hfragment
  rw [hfirst, hrest, hfragment, List.append_nil]
  rfl

/-- A checksum that verifies is the one that is written, unless it is all ones. -/
theorem encode_eq_fields_iff (hv : Checksum.verifies (header.fields header.checksum) = true) :
    header.encode = header.fields header.checksum ↔ header.checksum ≠ 0xFFFF := by
  have hunique : Checksum.ofBytes (header.fields 0) = header.checksum ↔ header.checksum ≠ 0xFFFF := by
    rw [fields_eq] at hv ⊢
    exact Checksum.ofBytes_store_eq_iff (by simp) (by simp)
      (Nat.add_pos_left header.total_front_pos _) hv
  have hread (checksum : UInt16) :
      decode? (header.fields checksum) = some { header with headerLength := 20, checksum } := by
    rw [← List.append_nil (header.fields checksum)]
    exact header.decode?_fields checksum []
  rw [← hunique, encode]
  constructor
  · intro he
    have hheader := hread (Checksum.ofBytes (header.fields 0))
    rw [he, hread] at hheader
    exact (congrArg Header.checksum (Option.some.inj hheader)).symm
  · intro he
    rw [he]

end Header

/-- Headers are read back as written, and written as read unless the checksum is all ones. -/
theorem headers_read_back :
    (∀ (header : Header) (area tail : Bytes), area.length = 20 →
      (area ++ tail).overwrite header.encode = .ok (header.encode ++ tail) ∧
        Checksum.verifies ((header.encode ++ tail).take 20) = true ∧
        ∃ checksum, (header.encode.drop 10).take 2 = Bytes.word16 checksum ∧
          Header.parse (header.encode ++ tail) =
            .ok (some { header with headerLength := 20, checksum })) ∧
    ∀ (data : Bytes) (header : Header), data.length = 20 → Header.parse data = .ok (some header) →
      header.headerLength = 20 → (data.drop 1).take 1 = [0] → (data.drop 6).take 2 = [0, 0] →
      Checksum.verifies data = true → (header.encode = data ↔ header.checksum ≠ 0xFFFF) := by
  constructor
  · intro header area tail harea
    have hl : header.encode.length = 20 := header.length_encode
    refine ⟨?_, ?_, Checksum.ofBytes (header.fields 0), rfl, ?_⟩
    · rw [Bytes.overwrite_eq_ok, hl, List.drop_left' harea]
      rw [hl, List.length_append, harea]
      exact Nat.le_add_right ..
    · rw [List.take_left' hl]
      exact header.verifies_encode
    · rw [Header.parse_eq_ok, Header.encode, Header.decode?_fields]
      rfl
  · intro data header hl hp hh hservice hfragment hv
    have hd : Header.decode? data = some header :=
      Except.ok.inj ((Header.parse_eq_ok data).symm.trans hp)
    obtain rfl := Header.eq_fields_of_decode? hl hd hh hservice hfragment
    exact Header.encode_eq_fields_iff hv

def balanced (checksum : UInt16) : Header :=
  ⟨20, 20, 0x66D0, 64, 17, checksum, 0x0A000009, 0x0A000001⟩

theorem headers_read_back_balanced :
    (∃ checksum, Header.parse ((balanced 0xFFFF).encode ++ [1, 2]) =
      .ok (some (balanced checksum))) ∧
    (Checksum.verifies ((balanced 0).fields 0) = true ∧
      (balanced 0).encode = (balanced 0).fields 0) ∧
    Checksum.verifies ((balanced 0xFFFF).fields 0xFFFF) = true ∧
      (balanced 0xFFFF).encode ≠ (balanced 0xFFFF).fields 0xFFFF := by
  obtain ⟨hwrite, hread⟩ := headers_read_back
  have hparse (checksum : UInt16) :
      Header.parse ((balanced checksum).fields checksum) = .ok (some (balanced checksum)) := by
    have hd := (balanced checksum).decode?_fields checksum []
    rw [List.append_nil] at hd
    rw [Header.parse_eq_ok, hd]
    rfl
  have hzero : Checksum.verifies ((balanced 0).fields 0) = true := by decide +kernel
  have hones : Checksum.verifies ((balanced 0xFFFF).fields 0xFFFF) = true := by decide +kernel
  refine ⟨?_, ⟨hzero, ?_⟩, hones, fun he => ?_⟩
  · obtain ⟨-, -, checksum, -, hheader⟩ := hwrite (balanced 0xFFFF) (List.replicate 20 0xEE) [1, 2] rfl
    exact ⟨checksum, hheader⟩
  · exact (hread _ _ rfl (hparse 0) rfl rfl rfl hzero).2 (by decide)
  · exact (hread _ _ rfl (hparse 0xFFFF) rfl rfl rfl hones).1 he rfl

end InetHost.Ipv4
