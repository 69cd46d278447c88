import InetHost.Ring

/-! Rings whose head lies in the ring and which hold no more than their cells. In such a ring no
operation touches a cell outside, and each operation leads to such a ring again. -/

namespace InetHost.Ring

variable {n : Nat}

structure Valid (r : Ring n) : Prop where
  length_le : r.length ≤ n
  head_lt : r.head < n

theorem valid_empty (h : 0 < n) : (empty : Ring n).Valid := ⟨Nat.zero_le n, h⟩

theorem valid_clear (r : Ring n) (h : 0 < n) : r.clear.Valid := ⟨Nat.zero_le n, h⟩

theorem store_eq_ok (data : Bytes) (cells : Vector UInt8 n) {tail : Nat} (h : tail < n) :
    ∃ cells', store cells tail data = .ok cells' := by
  induction data generalizing cells tail with
  | nil => exact ⟨cells, rfl⟩
  | cons b rest ih =>
    have hn : 0 < n := Nat.zero_lt_of_lt h
    obtain ⟨cells', hc⟩ := ih (cells.set tail b h) (Nat.mod_lt (tail + 1) hn)
    refine ⟨cells', ?_⟩
    rw [store, dif_pos h, modLength_eq_ok _ hn]
    exact hc

theorem fetch_eq_ok (cells : Vector UInt8 n) (count : Nat) {head : Nat} (h : head < n) :
    ∃ bs last, fetch cells head count = .ok (bs, last) ∧ last < n := by
  induction count generalizing head with
  | zero => exact ⟨[], head, rfl, h⟩
  | succ count ih =>
    have hn : 0 < n := Nat.zero_lt_of_lt h
    obtain ⟨bs, last, hf, hl⟩ := ih (Nat.mod_lt (head + 1) hn)
    refine ⟨cells[head] :: bs, last, ?_, hl⟩
    rw [fetch, dif_pos h, modLength_eq_ok _ hn]
    change (fetch cells ((head + 1) % n) count >>= _) = _
    rw [hf]
    rfl

variable {r : Ring n}

theorem Valid.push_eq_ok (h : r.Valid) (data : Bytes) : ∃ r' count,
    r.push data = .ok (r', count) ∧ r'.Valid ∧ count ≤ data.length := by
  have hn : 0 < n := Nat.zero_lt_of_lt h.head_lt
  have hle := h.length_le
  obtain ⟨cells, hs⟩ := store_eq_ok (data.take (min data.length (n - r.length))) r.cells
    (Nat.mod_lt (r.head + r.length) hn)
  refine ⟨⟨cells, r.head, r.length + min data.length (n - r.length)⟩,
    min data.length (n - r.length), ?_, ⟨?_, h.head_lt⟩, Nat.min_le_left _ _⟩
  · have hf : r.free = .ok (n - r.length) := if_pos hle
    rw [push, hf, modLength_eq_ok _ hn]
    change (store r.cells ((r.head + r.length) % n)
      (data.take (min data.length (n - r.length))) >>= _) = _
    rw [hs]
    rfl
  · dsimp only
    omega

theorem Valid.pop_eq_ok (h : r.Valid) (count : Nat) : ∃ r' bs,
    r.pop count = .ok (r', bs) ∧ r'.Valid := by
  have hn : 0 < n := Nat.zero_lt_of_lt h.head_lt
  obtain ⟨bs, last, hf, hl⟩ := fetch_eq_ok r.cells (min count r.length) h.head_lt
  let length := r.length - min count r.length
  refine ⟨⟨r.cells, if length = 0 then 0 else last, length⟩, bs, ?_, ⟨?_, ?_⟩⟩
  · change (fetch r.cells r.head (min count r.length) >>= _) = _
    rw [hf]
    rfl
  · exact Nat.le_trans (Nat.sub_le _ _) h.length_le
  · dsimp only
    split
    · exact hn
    · exact hl

variable {r' : Ring n} {data : Bytes} {count : Nat}

theorem Valid.of_push (h : r.Valid) (hp : r.push data = .ok (r', count)) : r'.Valid := by
  obtain ⟨r'', count', hp', hv, -⟩ := h.push_eq_ok data
  obtain ⟨rfl, -⟩ := Prod.mk.inj (Except.ok.inj (hp'.symm.trans hp))
  exact hv

theorem Valid.of_pop (h : r.Valid) (hp : r.pop count = .ok (r', data)) : r'.Valid := by
  obtain ⟨r'', data', hp', hv⟩ := h.pop_eq_ok count
  obtain ⟨rfl, -⟩ := Prod.mk.inj (Except.ok.inj (hp'.symm.trans hp))
  exact hv

end InetHost.Ring
