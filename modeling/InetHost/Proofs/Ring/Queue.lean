import InetHost.Proofs.Ring.Valid

/-! A ring is a queue of its unread bytes: what is stored goes behind them, and what is taken out
comes from their front. Positions are counted from a cell of the ring, around its end. -/

namespace InetHost.Ring

variable {n : Nat}

def cellAt (cells : Vector UInt8 n) (i : Nat) : UInt8 := cells[i % n]?.getD 0

theorem toList_eq (r : Ring n) :
    r.toList = (List.range r.length).map fun i => cellAt r.cells (r.head + i) := rfl

theorem cellAt_mod (cells : Vector UInt8 n) (i j : Nat) :
    cellAt cells (i % n + j) = cellAt cells (i + j) := by
  simp only [cellAt, Nat.mod_add_mod]

theorem cellAt_add_cells (cells : Vector UInt8 n) (i : Nat) : cellAt cells (i + n) = cellAt cells i := by
  simp only [cellAt, Nat.add_mod_right]

theorem cellAt_of_lt (cells : Vector UInt8 n) {i : Nat} (h : i < n) : cellAt cells i = cells[i] := by
  simp only [cellAt, Nat.mod_eq_of_lt h, Vector.getElem?_eq_getElem h, Option.getD_some]

theorem cellAt_set_self (cells : Vector UInt8 n) {tail : Nat} (h : tail < n) (b : UInt8) :
    cellAt (cells.set tail b h) tail = b := by
  rw [cellAt_of_lt _ h, Vector.getElem_set_self]

theorem cellAt_set_of_ne (cells : Vector UInt8 n) {tail i : Nat} (h : tail < n) (b : UInt8)
    (hi : i % n ≠ tail) : cellAt (cells.set tail b h) i = cellAt cells i := by
  have hlt : i % n < n := Nat.mod_lt _ (Nat.zero_lt_of_lt h)
  rw [cellAt, cellAt, Vector.getElem?_set_ne _ hi.symm]

theorem add_mod_ne {tail i : Nat} (h : tail < n) (hi : 0 < i) (hin : i < n) :
    (tail + i) % n ≠ tail := by
  intro hm
  by_cases hs : tail + i < n
  · rw [Nat.mod_eq_of_lt hs] at hm
    omega
  · rw [Nat.mod_eq_sub_mod (Nat.le_of_not_lt hs), Nat.mod_eq_of_lt (by omega)] at hm
    omega

theorem cellAt_store {cells cells' : Vector UInt8 n} {data : Bytes} {tail : Nat} (h : tail < n)
    (hd : data.length ≤ n) (hs : store cells tail data = .ok cells') {i : Nat} (hi : i < n) :
    cellAt cells' (tail + i) = data[i]?.getD (cellAt cells (tail + i)) := by
  induction data generalizing cells tail i with
  | nil =>
    obtain rfl := Except.ok.inj hs
    rfl
  | cons b rest ih =>
    have hn : 0 < n := Nat.zero_lt_of_lt h
    rw [store, dif_pos h, modLength_eq_ok _ hn] at hs
    have hnext : (tail + 1) % n < n := Nat.mod_lt _ hn
    have hr : rest.length < n := hd
    have hrec {j : Nat} (hj : j < n) := ih hnext (Nat.le_of_lt hr) hs hj
    simp only [cellAt_mod] at hrec
    cases i with
    | zero =>
      -- The first cell is the last one that the rest can come to, and the rest is too short for it.
      have hlast := hrec (j := n - 1) (by omega)
      have hround : tail + 1 + (n - 1) = tail + n := by omega
      rw [hround, cellAt_add_cells, cellAt_add_cells, cellAt_set_self,
        List.getElem?_eq_none (by omega)] at hlast
      exact hlast
    | succ i =>
      have hshift : tail + 1 + i = tail + (i + 1) := by omega
      have hother := hrec (j := i) (by omega)
      rw [hshift, cellAt_set_of_ne _ h b (add_mod_ne h (Nat.succ_pos i) hi)] at hother
      exact hother

theorem fetch_eq {cells : Vector UInt8 n} {head count last : Nat} {bs : Bytes} (h : head < n)
    (hf : fetch cells head count = .ok (bs, last)) :
    bs = (List.range count).map (fun i => cellAt cells (head + i)) ∧
      last = (head + count) % n := by
  induction count generalizing head bs with
  | zero =>
    obtain ⟨rfl, rfl⟩ := Prod.mk.inj (Except.ok.inj hf)
    exact ⟨rfl, (Nat.mod_eq_of_lt h).symm⟩
  | succ count ih =>
    have hn : 0 < n := Nat.zero_lt_of_lt h
    have hnext : (head + 1) % n < n := Nat.mod_lt _ hn
    obtain ⟨rest, last', hr, -⟩ := fetch_eq_ok cells count hnext
    rw [fetch, dif_pos h, modLength_eq_ok _ hn] at hf
    change (fetch cells ((head + 1) % n) count >>= _) = _ at hf
    rw [hr] at hf
    obtain ⟨rfl, rfl⟩ := Prod.mk.inj (Except.ok.inj hf)
    obtain ⟨rfl, rfl⟩ := ih hnext hr
    constructor
    · rw [List.range_succ_eq_map, List.map_cons, List.map_map]
      dsimp only [Nat.add_zero]
      rw [cellAt_of_lt cells h]
      congr 1
      apply List.map_congr_left
      intro i _
      simp only [Function.comp_apply, cellAt_mod]
      congr 1
      omega
    · rw [Nat.mod_add_mod]
      congr 1
      omega

variable {r r' : Ring n}

theorem Valid.cells_push {data : Bytes} {stored : Nat} (h : r.Valid)
    (hp : r.push data = .ok (r', stored)) :
    stored = min data.length (n - r.length) ∧ r'.head = r.head ∧ r'.length = r.length + stored ∧
      ∀ i, i < n → cellAt r'.cells (r.head + r.length + i) =
        (data.take stored)[i]?.getD (cellAt r.cells (r.head + r.length + i)) := by
  have hn : 0 < n := Nat.zero_lt_of_lt h.head_lt
  have hle := h.length_le
  have hf : r.free = .ok (n - r.length) := if_pos hle
  have htail : (r.head + r.length) % n < n := Nat.mod_lt _ hn
  obtain ⟨cells, hs⟩ := store_eq_ok (data.take (min data.length (n - r.length))) r.cells htail
  rw [push, hf, modLength_eq_ok _ hn] at hp
  change (store r.cells ((r.head + r.length) % n)
    (data.take (min data.length (n - r.length))) >>= _) = _ at hp
  rw [hs] at hp
  obtain ⟨rfl, rfl⟩ := Prod.mk.inj (Except.ok.inj hp)
  have hl : (data.take (min data.length (n - r.length))).length ≤ n := by
    rw [List.length_take]
    omega
  refine ⟨rfl, rfl, rfl, fun i hi => ?_⟩
  have hcell := cellAt_store htail hl hs hi
  rwa [cellAt_mod, cellAt_mod] at hcell

theorem Valid.cellAt_push {data : Bytes} {stored i : Nat} (h : r.Valid)
    (hp : r.push data = .ok (r', stored)) (hi : i < r.length) :
    cellAt r'.cells (r.head + i) = cellAt r.cells (r.head + i) := by
  obtain ⟨hs, -, -, hcell⟩ := h.cells_push hp
  have hle := h.length_le
  -- Seen from the tail, the unread bytes begin behind the cells that are free.
  have hold := hcell (n - r.length + i) (by omega)
  have hround : r.head + r.length + (n - r.length + i) = r.head + i + n := by omega
  rwa [hround, cellAt_add_cells, cellAt_add_cells,
    List.getElem?_eq_none (by rw [List.length_take]; omega)] at hold

theorem Valid.toList_push {data : Bytes} {stored : Nat} (h : r.Valid)
    (hp : r.push data = .ok (r', stored)) :
    stored = min data.length (n - r.length) ∧ r'.toList = r.toList ++ data.take stored := by
  obtain ⟨hs, hhead, hlength, hcell⟩ := h.cells_push hp
  refine ⟨hs, ?_⟩
  rw [toList_eq, toList_eq, hhead, hlength, List.range_add, List.map_append, List.map_map]
  congr 1
  · apply List.map_congr_left
    intro i hi
    exact h.cellAt_push hp (List.mem_range.1 hi)
  · have hl : (data.take stored).length = stored := by
      rw [List.length_take]
      omega
    apply List.ext_getElem
    · rw [List.length_map, List.length_range, hl]
    · intro i hi hi'
      have hnew := hcell i (by rw [hl] at hi'; omega)
      rw [List.getElem?_eq_getElem hi', Option.getD_some, Nat.add_assoc] at hnew
      simpa using hnew

theorem Valid.toList_pop {data : Bytes} {count : Nat} (h : r.Valid)
    (hp : r.pop count = .ok (r', data)) : r.toList = data ++ r'.toList := by
  have hn : 0 < n := Nat.zero_lt_of_lt h.head_lt
  obtain ⟨bs, last, hf, -⟩ := fetch_eq_ok r.cells (min count r.length) h.head_lt
  change (fetch r.cells r.head (min count r.length) >>= _) = _ at hp
  rw [hf] at hp
  obtain ⟨rfl, rfl⟩ := Prod.mk.inj (Except.ok.inj hp)
  obtain ⟨rfl, rfl⟩ := fetch_eq h.head_lt hf
  have hsplit : r.length = min count r.length + (r.length - min count r.length) := by omega
  rw [toList_eq, hsplit, List.range_add, List.map_append, List.map_map, ← hsplit]
  congr 1
  by_cases hz : r.length - min count r.length = 0
  · simp [toList_eq, hz]
  · rw [toList_eq]
    apply List.map_congr_left
    intro i _
    simp only [Function.comp_apply, if_neg hz, cellAt_mod, Nat.add_assoc]

end InetHost.Ring
