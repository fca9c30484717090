import Mathlib

/-!
# Segments of a list

Pieces of different lengths are kept one after the other in a flat list, and
are found again by the running sums of their lengths.
-/

namespace OneShotOPD.Segments

variable {α β : Type}

/-- `items[low:high]`. -/
def slice (low high : ℕ) (items : List α) : List α := (items.take high).drop low

/-- `items[start:stop]`, where negative indices count from the back. -/
def pySlice (start stop : ℤ) (items : List α) : List α :=
  slice (position start) (position stop) items
where
  position (index : ℤ) : ℕ := (if index < 0 then index + items.length else index).toNat

/-- Indices that are not negative count from the front. -/
theorem pySlice_of_le {items : List α} {low high : ℕ} {start stop : ℤ} (hstart : start = low)
    (hstop : stop = high) : pySlice start stop items = slice low high items := by
  have hposition : ∀ index : ℕ, pySlice.position items index = index := fun index => by
    rw [pySlice.position, if_neg (by omega), Int.toNat_natCast]
  rw [pySlice, hstart, hstop, hposition, hposition]

/-- The running sums `[0, c₀, c₀ + c₁, …]`. -/
def offsets (counts : List ℕ) : List ℕ := counts.scanl (· + ·) 0

def offset (counts : List ℕ) (index : ℕ) : ℕ := (offsets counts).getD index 0

theorem offset_eq {counts : List ℕ} {index : ℕ} (hindex : index ≤ counts.length) :
    offset counts index = (counts.take index).sum := by
  have hscan : ∀ (start : ℕ) (counts : List ℕ) (index : ℕ), index ≤ counts.length →
      (counts.scanl (· + ·) start).getD index 0 = start + (counts.take index).sum := by
    intro start counts
    induction counts generalizing start with
    | nil =>
        intro index hindex
        obtain rfl := Nat.le_zero.mp hindex
        simp
    | cons count counts ih =>
        intro index hindex
        cases index with
        | zero => simp
        | succ index =>
            rw [List.scanl_cons, List.getD_cons_succ, ih _ _ (by simpa using hindex),
              List.take_succ_cons, List.sum_cons, Nat.add_assoc]
  exact (hscan 0 counts index hindex).trans (Nat.zero_add _)

theorem length_flatten_take (pieces : List (List α)) (index : ℕ) :
    (pieces.take index).flatten.length = ((pieces.map List.length).take index).sum := by
  rw [List.length_flatten, ← List.map_take]

theorem slice_zero (high : ℕ) (items : List α) : slice 0 high items = items.take high := rfl

theorem length_slice {low high : ℕ} {items : List α} (hhigh : high ≤ items.length) :
    (slice low high items).length = high - low := by
  simp [slice, hhigh]

theorem map_slice (f : α → β) (low high : ℕ) (items : List α) :
    (slice low high items).map f = slice low high (items.map f) := by
  simp [slice, List.map_drop, List.map_take]

theorem mem_of_mem_slice {low high : ℕ} {items : List α} {item : α}
    (hitem : item ∈ slice low high items) : item ∈ items :=
  List.mem_of_mem_take (List.mem_of_mem_drop hitem)

theorem getElem_mem_slice {low high index : ℕ} {items : List α} (hlow : low ≤ index)
    (hhigh : index < high) (hindex : index < items.length) :
    items[index] ∈ slice low high items := by
  have hlt : index - low < (slice low high items).length := by
    rw [slice, List.length_drop, List.length_take]
    omega
  have hget : (slice low high items)[index - low] = items[index] := by
    simp [slice, Nat.add_sub_cancel' hlow]
  exact hget ▸ List.getElem_mem hlt

theorem zip_slice (low high : ℕ) (items : List α) (others : List β) :
    (slice low high items).zip (slice low high others) =
      slice low high (items.zip others) := by
  simp only [slice, List.zip, List.drop_zipWith, List.take_zipWith]

theorem slice_middle (front middle back : List α) :
    slice front.length (front.length + middle.length) (front ++ (middle ++ back)) = middle := by
  rw [slice, ← List.append_assoc, List.take_left' (by simp), List.drop_left]

theorem slice_append_slice {low middle high : ℕ} (hlow : low ≤ middle)
    (hhigh : middle ≤ high) (items : List α) :
    slice low middle items ++ slice middle high items = slice low high items := by
  have hfirst : slice low middle items =
      ((items.take high).drop low).take (middle - low) := by
    rw [slice, List.drop_take, List.drop_take, List.take_take,
      Nat.min_eq_left (Nat.sub_le_sub_right hhigh low)]
  have hsecond : slice middle high items =
      ((items.take high).drop low).drop (middle - low) := by
    rw [slice, List.drop_drop, Nat.add_sub_cancel' hlow]
  rw [hfirst, hsecond, List.take_append_drop, slice]

/-- The pieces between two indices lie between their offsets. -/
theorem slice_flatten {pieces : List (List α)} {low high : ℕ} (hlow : low ≤ high)
    (hhigh : high ≤ pieces.length) (rest : List α) :
    slice (offset (pieces.map List.length) low) (offset (pieces.map List.length) high)
        (pieces.flatten ++ rest) = (slice low high pieces).flatten := by
  have hsplit : pieces.flatten ++ rest = (pieces.take high).flatten ++
      ((pieces.drop high).flatten ++ rest) := by
    rw [← List.append_assoc, ← List.flatten_append, List.take_append_drop]
  have hinner : (pieces.take high).flatten =
      (pieces.take low).flatten ++ (slice low high pieces).flatten := by
    rw [← List.flatten_append, ← slice_zero, ← slice_zero,
      slice_append_slice (Nat.zero_le _) hlow]
  rw [offset_eq (by simpa using hlow.trans hhigh), offset_eq (by simpa using hhigh),
    ← length_flatten_take, ← length_flatten_take, slice, hsplit, List.take_left, hinner,
    List.drop_left]

theorem slice_map_flatten (f : α → β) {pieces : List (List α)} {low high : ℕ}
    (hlow : low ≤ high) (hhigh : high ≤ pieces.length) :
    slice (offset (pieces.map List.length) low) (offset (pieces.map List.length) high)
        (pieces.flatten.map f) = (slice low high pieces).flatten.map f := by
  have hslice := slice_flatten hlow hhigh ([] : List α)
  rw [List.append_nil] at hslice
  rw [← map_slice, hslice]

theorem slice_succ {items : List α} {index : ℕ} (hindex : index < items.length) :
    slice index (index + 1) items = [items[index]] := by
  rw [slice, List.drop_take, Nat.add_sub_cancel_left, List.drop_eq_getElem_cons hindex]
  rfl

/-- Consecutive segments make up the whole. -/
theorem flatMap_slice_zip {first : ℕ} {cuts : List ℕ}
    (hcuts : (first :: cuts).IsChain (· ≤ ·)) (items : List α) :
    (((first :: cuts).zip cuts).flatMap fun cut => slice cut.1 cut.2 items) =
      slice first ((first :: cuts).getLast (List.cons_ne_nil _ _)) items := by
  induction cuts generalizing first with
  | nil => simp [slice]
  | cons next cuts ih =>
      obtain ⟨hnext, hrest⟩ := List.isChain_cons_cons.mp hcuts
      have hlast : next ≤ (next :: cuts).getLast (List.cons_ne_nil _ _) := by
        have hpairwise := List.pairwise_cons.mp (List.isChain_iff_pairwise.mp hrest)
        rcases List.mem_cons.mp (List.getLast_mem (List.cons_ne_nil next cuts)) with
          heq | hmem
        · exact heq.ge
        · exact hpairwise.1 _ hmem
      rw [List.zip_cons_cons, List.flatMap_cons, ih hrest,
        slice_append_slice hnext hlast, List.getLast_cons (List.cons_ne_nil _ _)]

/-- Neighbours in a chain are related. -/
theorem rel_of_mem_zip_tail {R : α → α → Prop} {items : List α} (hchain : items.IsChain R)
    {first second : α} (hmem : (first, second) ∈ items.zip items.tail) : R first second := by
  induction items with
  | nil => simp at hmem
  | cons item items ih =>
      cases items with
      | nil => simp at hmem
      | cons next items =>
          obtain ⟨hnext, hrest⟩ := List.isChain_cons_cons.mp hchain
          rw [List.tail_cons, List.zip_cons_cons] at hmem
          rcases List.mem_cons.mp hmem with heq | hmem
          · obtain ⟨rfl, rfl⟩ := Prod.mk.inj heq
            exact hnext
          · exact ih hrest hmem

end OneShotOPD.Segments
