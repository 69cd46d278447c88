import InetHost.Checksum

/-! The sum behind the Internet checksum. As long as the words of a message do not overflow the
accumulator, the checksum depends only on their sum: whether it is zero, and its remainder modulo
65535. Storing the checksum at an even offset makes that sum a positive multiple of 65535. -/

namespace InetHost.Checksum

def total : Bytes → Nat
  | a :: b :: rest => a.toNat * 256 + b.toNat + total rest
  | [a] => a.toNat * 256
  | [] => 0

def folded (n : Nat) : Nat := if n = 0 then 0 else (n - 1) % 65535 + 1

theorem toNat_add (sum : UInt32) (data : Bytes) :
    (add sum data).toNat = (sum.toNat + total data) % 4294967296 := by
  fun_induction add sum data with
  | case1 sum a b rest ih =>
    rw [ih, total, UInt32.toNat_add, UInt32.toNat_ofNat']
    omega
  | case2 sum a =>
    rw [total, UInt32.toNat_add, UInt32.toNat_ofNat']
    omega
  | case3 sum =>
    have := sum.toNat_lt
    rw [total]
    omega

theorem total_append {data : Bytes} (rest : Bytes) (h : data.length % 2 = 0) :
    total (data ++ rest) = total data + total rest := by
  fun_induction total data with
  | case1 a b data ih =>
    simp only [List.length_cons] at h
    simp only [List.cons_append, total, ih (by omega)]
    omega
  | case2 a => simp at h
  | case3 => simp

theorem total_le (data : Bytes) : total data ≤ 65535 * ((data.length + 1) / 2) := by
  fun_induction total data with
  | case1 a b rest ih =>
    have ha := a.toNat_lt
    have hb := b.toNat_lt
    simp only [List.length_cons]
    omega
  | case2 a =>
    have ha := a.toNat_lt
    simp only [List.length_cons, List.length_nil]
    omega
  | case3 => simp

theorem toNat_add_zero {data : Bytes} (h : data.length ≤ 131074) :
    (add 0 data).toNat = total data := by
  have ht := total_le data
  rw [toNat_add, UInt32.toNat_zero, Nat.zero_add, Nat.mod_eq_of_lt (by omega)]

theorem total_word16 (v : UInt16) (rest : Bytes) :
    total (Bytes.word16 v ++ rest) = v.toNat + total rest := by
  have := v.toNat_lt
  simp only [Bytes.word16, List.cons_append, List.nil_append, total, UInt8.toNat_ofNat']
  omega

theorem toNat_fold (sum : UInt32) : (fold sum).toNat = 65535 - folded sum.toNat := by
  have hlt := carry_carry_lt sum
  have hs := sum.toNat_lt
  have hc : (carry (carry sum)).toNat = folded sum.toNat := by
    simp only [toNat_carry, folded]
    split <;> omega
  rw [fold, UInt16.toNat_sub_of_le, UInt32.toNat_toUInt16, Nat.mod_eq_of_lt hlt, hc]
  · rfl
  · rw [UInt16.le_iff_toNat_le, UInt32.toNat_toUInt16, Nat.mod_eq_of_lt hlt]
    change _ ≤ 65535
    omega

theorem fold_eq_zero {sum sum' : UInt32} (h : sum'.toNat = sum.toNat + (fold sum).toNat) :
    fold sum' = 0 := by
  apply UInt16.toNat_inj.1
  rw [toNat_fold, h, toNat_fold]
  simp only [folded, UInt16.toNat_zero]
  split <;> split <;> omega

section Store

variable (front back : Bytes)

theorem total_store {front : Bytes} (h : front.length % 2 = 0) (c : UInt16) :
    total (front ++ Bytes.word16 c ++ back) = total front + c.toNat + total back := by
  rw [List.append_assoc, total_append _ h, total_word16, Nat.add_assoc]

theorem fold_add_store (sum : UInt32) (h : front.length % 2 = 0)
    (hl : sum.toNat + 65535 * ((front.length + back.length + 3) / 2) < 4294967296) :
    fold (add sum (front ++
      Bytes.word16 (fold (add sum (front ++ Bytes.word16 0 ++ back))) ++ back)) = 0 := by
  -- The accumulator does not overflow, whatever stands in the place of the checksum.
  have hb (c : UInt16) : sum.toNat + total (front ++ Bytes.word16 c ++ back) < 4294967296 := by
    have ht := total_le (front ++ Bytes.word16 c ++ back)
    have hn : (front ++ Bytes.word16 c ++ back).length = front.length + back.length + 2 := by
      simp only [List.length_append, Bytes.length_word16]
      omega
    rw [hn] at ht
    omega
  -- Storing the checksum adds it to the sum, since it stands at an even offset.
  have he : (add sum (front ++
      Bytes.word16 (fold (add sum (front ++ Bytes.word16 0 ++ back))) ++ back)).toNat =
        (add sum (front ++ Bytes.word16 0 ++ back)).toNat +
          (fold (add sum (front ++ Bytes.word16 0 ++ back))).toNat := by
    rw [toNat_add, Nat.mod_eq_of_lt (hb _), total_store back h, toNat_add sum (front ++ _ ++ _),
      Nat.mod_eq_of_lt (hb 0), total_store back h]
    simp only [UInt16.toNat_zero]
    omega
  exact fold_eq_zero he

theorem ofBytes_store (h : front.length % 2 = 0) (hl : front.length + back.length ≤ 131072) :
    ofBytes (front ++ Bytes.word16 (ofBytes (front ++ Bytes.word16 0 ++ back)) ++ back) = 0 := by
  refine fold_add_store front back 0 h ?_
  simp only [UInt32.toNat_zero]
  omega

theorem pseudoHeaderSum_le (source dest : UInt32) (protocol : UInt8) (length : UInt16) :
    (pseudoHeaderSum source dest protocol length).toNat ≤ 393210 := by
  have ht := total_le (pseudoHeader source dest protocol length)
  rw [pseudoHeaderSum, toNat_add]
  -- Twelve bytes are six words.
  change _ ≤ 65535 * ((12 + 1) / 2) at ht
  simp only [UInt32.toNat_zero]
  omega

theorem transport_store (source dest : UInt32) (protocol : UInt8) (h : front.length % 2 = 0)
    (hl : front.length + back.length ≤ 65533) :
    transport source dest protocol (front ++ Bytes.word16
      (transport source dest protocol (front ++ Bytes.word16 0 ++ back)) ++ back) = 0 := by
  have hn (c : UInt16) : (front ++ Bytes.word16 c ++ back).length =
      front.length + back.length + 2 := by
    simp only [List.length_append, Bytes.length_word16]
    omega
  simp only [transport, hn]
  refine fold_add_store front back _ h ?_
  have hp := pseudoHeaderSum_le source dest protocol
    (UInt16.ofNat (front.length + back.length + 2))
  omega

end Store

section Commutation

theorem pseudoHeaderSum_comm (source dest : UInt32) (protocol : UInt8) (length : UInt16) :
    pseudoHeaderSum source dest protocol length = pseudoHeaderSum dest source protocol length := by
  have htotal (a b : UInt32) : total (pseudoHeader a b protocol length) =
      total (Bytes.word32 a) + total (Bytes.word32 b) + total [0, protocol] + length.toNat := by
    have ha : (Bytes.word32 a).length % 2 = 0 := by simp
    have hab : (Bytes.word32 a ++ Bytes.word32 b).length % 2 = 0 := by simp
    have habp : (Bytes.word32 a ++ Bytes.word32 b ++ [0, protocol]).length % 2 = 0 := by simp
    have hl : total (Bytes.word16 length) = length.toNat := by
      simpa only [List.append_nil, total, Nat.add_zero] using total_word16 length []
    rw [pseudoHeader, total_append _ habp, total_append _ hab, total_append _ ha, hl]
  apply UInt32.toNat_inj.1
  rw [pseudoHeaderSum, pseudoHeaderSum, toNat_add, toNat_add, htotal, htotal,
    Nat.add_comm (total (Bytes.word32 source))]

theorem transport_comm (source dest : UInt32) (protocol : UInt8) (segment : Bytes) :
    transport source dest protocol segment = transport dest source protocol segment := by
  rw [transport, transport, pseudoHeaderSum_comm]

end Commutation

section Change

variable {data : Bytes}

/-- What a byte counts for in the sum: one at an even place is the high byte of its word. -/
def weight : Nat → Nat
  | 0 => 256
  | 1 => 1
  | i + 2 => weight i

theorem weight_cases (i : Nat) : weight i = 256 ∨ weight i = 1 := by
  fun_induction weight i with
  | case1 => exact .inl rfl
  | case2 => exact .inr rfl
  | case3 _ ih => exact ih

theorem total_modify {i : Nat} (h : i < data.length) (f : UInt8 → UInt8) :
    total (data.modify i f) + weight i * data[i].toNat =
      total data + weight i * (f data[i]).toNat := by
  fun_induction total data generalizing i with
  | case1 a b rest ih =>
    match i, h with
    | 0, _ =>
      simp only [List.modify_zero_cons, total, List.getElem_cons_zero, weight]
      omega
    | 1, _ =>
      simp only [List.modify_succ_cons, List.modify_zero_cons, total, List.getElem_cons_succ,
        List.getElem_cons_zero, weight]
      omega
    | i + 2, h =>
      have hi := ih (Nat.lt_of_add_lt_add_right h)
      simp only [List.modify_succ_cons, total, List.getElem_cons_succ, weight]
      omega
  | case2 a =>
    obtain rfl : i = 0 := Nat.lt_one_iff.1 h
    simp only [List.modify_zero_cons, total, List.getElem_cons_zero, weight]
    omega
  | case3 => cases h

theorem verifies_iff (hl : data.length ≤ 131072) :
    verifies data = true ↔ 0 < total data ∧ total data % 65535 = 0 := by
  have hsum : (add 0 data).toNat = total data := toNat_add_zero (Nat.le_trans hl (by decide))
  rw [verifies, decide_eq_true_iff, ofBytes, ← UInt16.toNat_inj, toNat_fold, hsum, UInt16.toNat_zero,
    folded]
  split <;> omega

/-- One byte that has changed is seen, since the sum moves by less than 65535. -/
theorem verifies_modify (hl : data.length ≤ 131072) (hv : verifies data = true) {i : Nat}
    (h : i < data.length) {f : UInt8 → UInt8} (hf : f data[i] ≠ data[i]) :
    verifies (data.modify i f) = false := by
  have hne : (f data[i]).toNat ≠ data[i].toNat := fun he => hf (UInt8.toNat_inj.1 he)
  have hold := data[i].toNat_lt
  have hnew := (f data[i]).toNat_lt
  have htotal := total_modify h f
  have hmultiple := (verifies_iff hl).1 hv
  rw [← Bool.not_eq_true, verifies_iff (by rwa [List.length_modify])]
  rcases weight_cases i with hw | hw <;> rw [hw] at htotal <;> omega

/-- Of the two zeros of ones' complement one verifies too, and is never stored. -/
theorem ofBytes_store_eq_iff {front back : Bytes} {checksum : UInt16} (h : front.length % 2 = 0)
    (hl : front.length + back.length ≤ 131070) (hpos : 0 < total front + total back)
    (hv : verifies (front ++ Bytes.word16 checksum ++ back) = true) :
    ofBytes (front ++ Bytes.word16 0 ++ back) = checksum ↔ checksum ≠ 0xFFFF := by
  have hlength (c : UInt16) : (front ++ Bytes.word16 c ++ back).length ≤ 131072 := by
    simp only [List.length_append, Bytes.length_word16]
    omega
  have hmultiple := (verifies_iff (hlength checksum)).1 hv
  have hzero : (add 0 (front ++ Bytes.word16 0 ++ back)).toNat = total front + total back := by
    rw [toNat_add_zero (Nat.le_trans (hlength 0) (by decide)), total_store back h, UInt16.toNat_zero,
      Nat.add_zero]
  rw [total_store back h] at hmultiple
  have hones : (0xFFFF : UInt16).toNat = 65535 := rfl
  have hc := checksum.toNat_lt
  rw [ne_eq, ← UInt16.toNat_inj, ← UInt16.toNat_inj, hones, ofBytes, toNat_fold, hzero, folded,
    if_neg (Nat.ne_of_gt hpos)]
  omega

end Change

section ClosedForm

variable {data : Bytes}

theorem carry_of_lt {sum : UInt32} (h : sum.toNat < 65536) : carry sum = sum := by
  apply UInt32.toNat_inj.1
  rw [toNat_carry]
  omega

/-- An accumulator to which its carries are added until none is left. -/
def settled (sum : UInt32) : UInt32 :=
  if 65536 ≤ sum.toNat then settled (carry sum) else sum
termination_by sum.toNat
decreasing_by
  rw [toNat_carry]
  omega

theorem settled_eq (sum : UInt32) : settled sum = carry (carry sum) := by
  fun_induction settled sum with
  | case1 sum _ ih => rw [ih, carry_of_lt (carry_carry_lt sum)]
  | case2 sum h =>
    have hlt : sum.toNat < 65536 := Nat.lt_of_not_le h
    rw [carry_of_lt hlt, carry_of_lt hlt]

theorem verifies_store (h : data.length ≤ 131074) {k : Nat} (hk : k % 2 = 0)
    (h₀ : data[k]? = some 0) (h₁ : data[k + 1]? = some 0) :
    verifies (data.take k ++ Bytes.word16 (ofBytes data) ++ data.drop (k + 2)) = true := by
  obtain ⟨hl₀, hd₀⟩ := List.getElem?_eq_some_iff.1 h₀
  obtain ⟨hl₁, hd₁⟩ := List.getElem?_eq_some_iff.1 h₁
  have hfront : (data.take k).length = k := List.length_take_of_le (Nat.le_of_lt hl₀)
  have hzeros : data.take k ++ Bytes.word16 0 ++ data.drop (k + 2) = data := by
    have hrest : Bytes.word16 0 ++ data.drop (k + 2) = data.drop k := by
      rw [List.drop_eq_getElem_cons hl₀, List.drop_eq_getElem_cons hl₁, hd₀, hd₁]
      rfl
    rw [List.append_assoc, hrest, List.take_append_drop]
  have hstored := ofBytes_store (data.take k) (data.drop (k + 2)) (by rw [hfront, hk])
    (by rw [hfront, List.length_drop]; omega)
  rw [hzeros] at hstored
  exact decide_eq_true hstored

/-- The checksum of at most 131074 bytes in closed form; it can be stored at any even offset. -/
theorem checksum_in_closed_form (h : data.length ≤ 131074) :
    (∀ n, (add 0 (data.take n)).toNat = total (data.take n)) ∧
    ofBytes data = 0xFFFF - (settled (add 0 data)).toUInt16 ∧
    (ofBytes data).toNat =
      0xFFFF - (if total data = 0 then 0 else (total data - 1) % 65535 + 1) ∧
    ∀ k, k % 2 = 0 → data[k]? = some 0 → data[k + 1]? = some 0 →
      verifies (data.take k ++ Bytes.word16 (ofBytes data) ++ data.drop (k + 2)) = true := by
  refine ⟨fun n => ?_, ?_, ?_, fun k hk h₀ h₁ => verifies_store h hk h₀ h₁⟩
  · have hn : (data.take n).length ≤ data.length := List.length_take_le' n data
    exact toNat_add_zero (Nat.le_trans hn h)
  · rw [settled_eq]
    rfl
  · rw [ofBytes, toNat_fold, toNat_add_zero h]
    rfl

theorem checksum_in_closed_form_carried :
    let data : Bytes := [0xFF, 0xFF, 0, 0, 0x80]
    data.length ≤ 131074 ∧ total data = 0x17FFF ∧ (ofBytes data).toNat = 0xFFFF - 0x8000 ∧
      data[2]? = some 0 ∧ data[3]? = some 0 ∧
      verifies ([0xFF, 0xFF] ++ Bytes.word16 (ofBytes data) ++ [0x80]) = true := by
  intro data
  have h : data.length ≤ 131074 := Nat.le_of_ble_eq_true rfl
  obtain ⟨-, -, hvalue, hstore⟩ := checksum_in_closed_form h
  have htotal : total data = 0x17FFF := rfl
  refine ⟨h, htotal, ?_, rfl, rfl, hstore 2 rfl rfl rfl⟩
  rw [hvalue, htotal, if_neg (by decide)]

theorem total_replicate (n : Nat) : total (List.replicate (2 * n) 0xFF) = 65535 * n := by
  induction n with
  | zero => rfl
  | succ n ih =>
    rw [Nat.mul_succ, List.replicate_succ, List.replicate_succ, total, ih]
    change 255 * 256 + 255 + _ = _
    omega

/-- In a message that is longer by one byte the accumulator can wrap. -/
theorem exists_add_wraps : ∃ data : Bytes, data.length = 131075 ∧
    (add 0 data).toNat ≠ total data := by
  have htotal : total (List.replicate (2 * 65537) 0xFF ++ [0xFF]) = 65535 * 65537 + 255 * 256 := by
    rw [total_append _ (by rw [List.length_replicate]), total_replicate]
    rfl
  refine ⟨List.replicate (2 * 65537) 0xFF ++ [0xFF], ?_, fun heq => ?_⟩
  · rw [List.length_append, List.length_replicate]
    rfl
  · have hlt := (add 0 (List.replicate (2 * 65537) 0xFF ++ [0xFF])).toNat_lt
    rw [heq, htotal] at hlt
    omega

end ClosedForm

end InetHost.Checksum
