import InetHost.Fault

/-! Byte strings and the numbers they spell. Numbers on the wire have their most significant byte
first; each is written by one function and read by another that also returns what follows it. -/

namespace InetHost

abbrev Bytes := List UInt8

namespace Bytes

def slice (bs : Bytes) (start stop : Nat) : Except Fault Bytes :=
  if start ≤ stop ∧ stop ≤ bs.length then .ok ((bs.drop start).take (stop - start))
  else .error .outOfBounds

def overwrite (buffer bs : Bytes) : Except Fault Bytes :=
  if bs.length ≤ buffer.length then .ok (bs ++ buffer.drop bs.length) else .error .outOfBounds

def overwriteAt (buffer : Bytes) (pos : Nat) (bs : Bytes) : Except Fault Bytes :=
  if pos + bs.length ≤ buffer.length then
    .ok (buffer.take pos ++ bs ++ buffer.drop (pos + bs.length))
  else .error .outOfBounds

/-- The used part of a buffer of `capacity` bytes that `bs` was written into. -/
def within (capacity : Nat) (bs : Bytes) : Except Fault Bytes :=
  if bs.length ≤ capacity then .ok bs else .error .outOfBounds

def byteAt (bs : Bytes) (i : Nat) : Except Fault UInt8 :=
  if h : i < bs.length then .ok bs[i] else .error .outOfBounds

def padTo (n : Nat) (bs : Bytes) : Bytes := bs ++ List.replicate (n - bs.length) 0

def word16 (v : UInt16) : Bytes := [UInt8.ofNat (v.toNat / 256), UInt8.ofNat v.toNat]

def word32 (v : UInt32) : Bytes :=
  [UInt8.ofNat (v.toNat / 16777216), UInt8.ofNat (v.toNat / 65536), UInt8.ofNat (v.toNat / 256),
    UInt8.ofNat v.toNat]

def join16 (a b : UInt8) : UInt16 := UInt16.ofNat (a.toNat * 256 + b.toNat)

def join32 (a b c d : UInt8) : UInt32 :=
  UInt32.ofNat (((a.toNat * 256 + b.toNat) * 256 + c.toNat) * 256 + d.toNat)

def word16At (bs : Bytes) (i : Nat) : Except Fault UInt16 := do
  .ok (join16 (← bs.byteAt i) (← bs.byteAt (i + 1)))

def word32At (bs : Bytes) (i : Nat) : Except Fault UInt32 := do
  .ok (join32 (← bs.byteAt i) (← bs.byteAt (i + 1)) (← bs.byteAt (i + 2)) (← bs.byteAt (i + 3)))

def read8? : Bytes → Option (UInt8 × Bytes)
  | a :: rest => some (a, rest)
  | [] => none

def read16? : Bytes → Option (UInt16 × Bytes)
  | a :: b :: rest => some (join16 a b, rest)
  | _ => none

def read32? : Bytes → Option (UInt32 × Bytes)
  | a :: b :: c :: d :: rest => some (join32 a b c d, rest)
  | _ => none

def skip? (n : Nat) (bs : Bytes) : Option Bytes :=
  if n ≤ bs.length then some (bs.drop n) else none

@[simp] theorem length_word16 (v : UInt16) : (word16 v).length = 2 := rfl

@[simp] theorem length_word32 (v : UInt32) : (word32 v).length = 4 := rfl

theorem join16_word16 (v : UInt16) :
    join16 (UInt8.ofNat (v.toNat / 256)) (UInt8.ofNat v.toNat) = v := by
  apply UInt16.toNat_inj.1
  have := v.toNat_lt
  simp only [join16, UInt16.toNat_ofNat', UInt8.toNat_ofNat']
  omega

theorem join32_word32 (v : UInt32) :
    join32 (UInt8.ofNat (v.toNat / 16777216)) (UInt8.ofNat (v.toNat / 65536))
      (UInt8.ofNat (v.toNat / 256)) (UInt8.ofNat v.toNat) = v := by
  apply UInt32.toNat_inj.1
  have := v.toNat_lt
  simp only [join32, UInt32.toNat_ofNat', UInt8.toNat_ofNat']
  omega

@[simp] theorem read8?_cons (a : UInt8) (rest : Bytes) : read8? (a :: rest) = some (a, rest) := rfl

@[simp] theorem read16?_cons_cons (a b : UInt8) (rest : Bytes) :
    read16? (a :: b :: rest) = some (join16 a b, rest) := rfl

@[simp] theorem read16?_word16 (v : UInt16) (rest : Bytes) :
    read16? (word16 v ++ rest) = some (v, rest) :=
  congrArg (fun w => some (w, rest)) (join16_word16 v)

@[simp] theorem read32?_word32 (v : UInt32) (rest : Bytes) :
    read32? (word32 v ++ rest) = some (v, rest) :=
  congrArg (fun w => some (w, rest)) (join32_word32 v)

theorem ofNat_eq_of_mod_eq {n : Nat} {b : UInt8} (h : n % 256 = b.toNat) : UInt8.ofNat n = b :=
  UInt8.toNat_inj.1 (by rw [UInt8.toNat_ofNat', h])

theorem word16_join16 (a b : UInt8) : word16 (join16 a b) = [a, b] := by
  have ha := a.toNat_lt
  have hb := b.toNat_lt
  have hj : (join16 a b).toNat = a.toNat * 256 + b.toNat := by
    rw [join16, UInt16.toNat_ofNat', Nat.mod_eq_of_lt (by omega)]
  rw [word16, hj, ofNat_eq_of_mod_eq (b := a) (by omega), ofNat_eq_of_mod_eq (b := b) (by omega)]

theorem word32_join32 (a b c d : UInt8) : word32 (join32 a b c d) = [a, b, c, d] := by
  have ha := a.toNat_lt
  have hb := b.toNat_lt
  have hc := c.toNat_lt
  have hd := d.toNat_lt
  have hj : (join32 a b c d).toNat =
      ((a.toNat * 256 + b.toNat) * 256 + c.toNat) * 256 + d.toNat := by
    rw [join32, UInt32.toNat_ofNat', Nat.mod_eq_of_lt (by omega)]
  rw [word32, hj, ofNat_eq_of_mod_eq (b := a) (by omega), ofNat_eq_of_mod_eq (b := b) (by omega),
    ofNat_eq_of_mod_eq (b := c) (by omega), ofNat_eq_of_mod_eq (b := d) (by omega)]

theorem read8?_eq_some_iff {bs rest : Bytes} {v : UInt8} :
    read8? bs = some (v, rest) ↔ bs = v :: rest := by
  cases bs with
  | nil => simp [read8?]
  | cons a bs => simp [read8?]

theorem read16?_eq_some_iff {bs rest : Bytes} {v : UInt16} :
    read16? bs = some (v, rest) ↔ bs = word16 v ++ rest := by
  constructor
  · intro h
    match bs, h with
    | a :: b :: bs, h =>
      obtain ⟨rfl, rfl⟩ := Prod.mk.inj (Option.some.inj h)
      rw [word16_join16]
      rfl
  · rintro rfl
    exact read16?_word16 v rest

theorem read32?_eq_some_iff {bs rest : Bytes} {v : UInt32} :
    read32? bs = some (v, rest) ↔ bs = word32 v ++ rest := by
  constructor
  · intro h
    match bs, h with
    | a :: b :: c :: d :: bs, h =>
      obtain ⟨rfl, rfl⟩ := Prod.mk.inj (Option.some.inj h)
      rw [word32_join32]
      rfl
  · rintro rfl
    exact read32?_word32 v rest

theorem skip?_eq_some_iff {n : Nat} {bs rest : Bytes} :
    skip? n bs = some rest ↔ n ≤ bs.length ∧ bs.drop n = rest := by
  rw [skip?, Option.ite_none_right_eq_some, Option.some.injEq]

theorem slice_eq_ok {bs : Bytes} {start stop : Nat} (h : start ≤ stop) (h' : stop ≤ bs.length) :
    bs.slice start stop = .ok ((bs.drop start).take (stop - start)) :=
  if_pos ⟨h, h'⟩

theorem slice_to_end {bs : Bytes} {start : Nat} (h : start ≤ bs.length) :
    bs.slice start bs.length = .ok (bs.drop start) := by
  rw [slice_eq_ok h (Nat.le_refl _), ← List.length_drop, List.take_length]

theorem slice_from_start {bs : Bytes} {stop : Nat} (h : stop ≤ bs.length) :
    bs.slice 0 stop = .ok (bs.take stop) := by
  rw [slice_eq_ok (Nat.zero_le _) h, List.drop_zero, Nat.sub_zero]

theorem eq_of_slice {bs part : Bytes} {start stop : Nat} (h : bs.slice start stop = .ok part) :
    part = (bs.drop start).take (stop - start) := by
  unfold slice at h
  split at h
  · exact (Except.ok.inj h).symm
  · cases h

theorem overwrite_eq_ok {buffer bs : Bytes} (h : bs.length ≤ buffer.length) :
    buffer.overwrite bs = .ok (bs ++ buffer.drop bs.length) :=
  if_pos h

theorem overwriteAt_eq_ok {buffer bs : Bytes} {pos : Nat} (h : pos + bs.length ≤ buffer.length) :
    buffer.overwriteAt pos bs = .ok (buffer.take pos ++ bs ++ buffer.drop (pos + bs.length)) :=
  if_pos h

theorem within_eq_ok {capacity : Nat} {bs : Bytes} (h : bs.length ≤ capacity) :
    bs.within capacity = .ok bs :=
  if_pos h

theorem eq_of_within {capacity : Nat} {bs bs' : Bytes} (h : bs.within capacity = .ok bs') :
    bs' = bs := by
  unfold within at h
  split at h
  · exact (Except.ok.inj h).symm
  · cases h

theorem byteAt_eq_ok {bs : Bytes} {i : Nat} (h : i < bs.length) : bs.byteAt i = .ok bs[i] :=
  dif_pos h

theorem word16At_eq_ok {bs : Bytes} {i : Nat} (h : i + 1 < bs.length) :
    bs.word16At i = .ok (join16 bs[i] bs[i + 1]) := by
  rw [word16At, byteAt_eq_ok (Nat.lt_of_succ_lt h), byteAt_eq_ok h]
  rfl

theorem word32At_eq_ok {bs : Bytes} {i : Nat} (h : i + 3 < bs.length) :
    bs.word32At i = .ok (join32 bs[i] bs[i + 1] bs[i + 2] bs[i + 3]) := by
  rw [word32At, byteAt_eq_ok (by omega), byteAt_eq_ok (by omega), byteAt_eq_ok (by omega),
    byteAt_eq_ok h]
  rfl

section Readers

variable {α : Type} {bs : Bytes} {i : Nat}

-- A reader is rewritten together with what follows it, so that simp need not enter a continuation
-- before its argument is known.
theorem bind_read8?_drop (h : i < bs.length) (f : UInt8 × Bytes → Option α) :
    (read8? (bs.drop i) >>= f) = f (bs[i], bs.drop (i + 1)) := by
  rw [List.drop_eq_getElem_cons h, read8?]
  rfl

theorem bind_read16?_drop (h : i + 1 < bs.length) (f : UInt16 × Bytes → Option α) :
    (read16? (bs.drop i) >>= f) = f (join16 bs[i] bs[i + 1], bs.drop (i + 2)) := by
  rw [List.drop_eq_getElem_cons (Nat.lt_of_succ_lt h), List.drop_eq_getElem_cons h, read16?]
  rfl

theorem bind_read32?_drop (h : i + 3 < bs.length) (f : UInt32 × Bytes → Option α) :
    (read32? (bs.drop i) >>= f) =
      f (join32 bs[i] bs[i + 1] bs[i + 2] bs[i + 3], bs.drop (i + 4)) := by
  rw [List.drop_eq_getElem_cons (by omega), List.drop_eq_getElem_cons (i := i + 1) (by omega),
    List.drop_eq_getElem_cons (i := i + 1 + 1) (by omega), List.drop_eq_getElem_cons h, read32?]
  rfl

end Readers

theorem length_of_read8? {bs rest : Bytes} {v : UInt8} (h : read8? bs = some (v, rest)) :
    bs.length = rest.length + 1 := by
  unfold read8? at h
  split at h <;> simp_all

theorem length_of_read16? {bs rest : Bytes} {v : UInt16} (h : read16? bs = some (v, rest)) :
    bs.length = rest.length + 2 := by
  unfold read16? at h
  split at h <;> simp_all

theorem length_of_read32? {bs rest : Bytes} {v : UInt32} (h : read32? bs = some (v, rest)) :
    bs.length = rest.length + 4 := by
  unfold read32? at h
  split at h <;> simp_all

theorem overwrite_zeros {n : Nat} {bs : Bytes} (h : bs.length ≤ n) :
    Bytes.overwrite (List.replicate n 0) bs = .ok (bs.padTo n) := by
  rw [overwrite_eq_ok (by simpa using h), List.drop_replicate, padTo]

theorem padTo_of_le {n : Nat} {bs : Bytes} (h : n ≤ bs.length) : bs.padTo n = bs := by
  rw [padTo, Nat.sub_eq_zero_of_le h, List.replicate_zero, List.append_nil]

end Bytes

end InetHost
