import OneShotOPD.Core.Masked
import OneShotOPD.Core.Gather
import OneShotOPD.Core.SliceAssign

/-!
# Padded and jagged rows

The rows of a batch differ in length.  They are kept either padded to one width,
or one after the other in a flat list together with the offsets where they start.
A mask over the padded rows leads to the jagged ones.
-/

namespace OneShotOPD

open Segments SliceAssign Masked

variable {batchSize : ℕ} {α : Type}

/-- Rows of one width. -/
@[ext]
structure Padded (batchSize : ℕ) (α : Type) where
  width : ℕ
  rows : List (List α)
  length_rows : rows.length = batchSize
  length_row : ∀ row ∈ rows, row.length = width

/-- Rows of any lengths. -/
@[ext]
structure Jagged (batchSize : ℕ) (α : Type) where
  rows : List (List α)
  length_rows : rows.length = batchSize

/-- The neighbours' differences. -/
def diff (offsets : List ℕ) : List ℕ :=
  List.zipWith (fun low high => high - low) offsets offsets.tail

/-- The running sums `[c₀, c₀ + c₁, …]`. -/
def cumsum (counts : List ℕ) : List ℕ := (offsets counts).tail

/-- The positions that a mask marks. -/
def nonzero (mask : List Bool) : List ℕ := mask.findIdxs id

/-- A row filled up, or cut, to a width. -/
def padTo (zero : α) (width : ℕ) (row : List α) : List α :=
  (row ++ List.replicate (width - row.length) zero).take width

namespace Jagged

def lengths (jagged : Jagged batchSize α) : List ℕ := jagged.rows.map List.length

def values (jagged : Jagged batchSize α) : List α := jagged.rows.flatten

def offsets (jagged : Jagged batchSize α) : List ℕ := Segments.offsets jagged.lengths

/-- The rows of a flat list that start and end at the given offsets. -/
def ofOffsets (values : List α) (cuSeqlens : List ℕ)
    (hlength : cuSeqlens.length = batchSize + 1) : Jagged batchSize α where
  rows := List.zipWith (fun low high => slice low high values) cuSeqlens cuSeqlens.tail
  length_rows := by simp [hlength]

/-- All rows filled up to one width. -/
def toPadded (zero : α) (width : ℕ) (jagged : Jagged batchSize α) : Padded batchSize α where
  width := width
  rows := jagged.rows.map (padTo zero width)
  length_rows := by rw [List.length_map, jagged.length_rows]
  length_row := by
    intro padded hpadded
    obtain ⟨row, -, rfl⟩ := List.mem_map.mp hpadded
    rw [padTo, List.length_take, List.length_append, List.length_replicate]
    omega

/-- `to_padded_tensor(padding)`. -/
def toPaddedTensor (zero : α) (jagged : Jagged batchSize α) : Padded batchSize α :=
  jagged.toPadded zero (jagged.lengths.foldr max 0)

end Jagged

theorem length_padTo (zero : α) (width : ℕ) (row : List α) :
    (padTo zero width row).length = width := by
  rw [padTo, List.length_take, List.length_append, List.length_replicate]
  omega

theorem padTo_of_le (zero : α) {width : ℕ} {row : List α} (hwidth : row.length ≤ width) :
    padTo zero width row = row ++ List.replicate (width - row.length) zero :=
  List.take_of_length_le (by simp [hwidth])

/-- Cutting a filled-up row to its length undoes the filling. -/
theorem take_padTo (zero : α) {width : ℕ} {row : List α} (hwidth : row.length ≤ width) :
    (padTo zero width row).take row.length = row := by
  rw [padTo_of_le zero hwidth, List.take_left]

section Offsets

@[simp]
theorem length_offsets (counts : List ℕ) : (offsets counts).length = counts.length + 1 := by
  simp [offsets]

@[simp]
theorem length_cumsum (counts : List ℕ) : (cumsum counts).length = counts.length := by
  simp [cumsum]

theorem getElem_offsets {counts : List ℕ} {index : ℕ}
    (hindex : index < (offsets counts).length) : (offsets counts)[index] = offset counts index := by
  rw [offset, List.getD_eq_getElem _ _ hindex]

theorem getElem_cumsum {counts : List ℕ} {index : ℕ} (hindex : index < (cumsum counts).length) :
    (cumsum counts)[index] =
      offset counts index + counts.getD index 0 := by
  have hcounts : index < counts.length := by simpa using hindex
  simp only [cumsum, List.getElem_tail]
  rw [getElem_offsets, offset_succ hcounts]

/-- The differences of the running sums are the counts. -/
theorem diff_offsets (counts : List ℕ) : diff (offsets counts) = counts := by
  apply List.ext_getElem
  · simp [diff]
  · intro index hleft hright
    simp only [diff, List.getElem_zipWith, List.getElem_tail]
    rw [getElem_offsets, getElem_offsets, offset_succ hright, Nat.add_sub_cancel_left,
      List.getD_eq_getElem _ _ hright]

theorem getLastD_cumsum (counts : List ℕ) (hcounts : counts ≠ []) :
    (cumsum counts).getLastD 0 = counts.sum := by
  have hlast : counts.length - 1 < (cumsum counts).length := by
    have := List.length_pos_iff.mpr hcounts
    rw [length_cumsum]
    omega
  rw [List.getLastD_eq_getLast?, List.getLast?_eq_getElem?, length_cumsum,
    List.getElem?_eq_getElem hlast, Option.getD_some]
  have hpos := List.length_pos_iff.mpr hcounts
  have hsucc := offset_succ (by omega : counts.length - 1 < counts.length)
  rw [getElem_cumsum, ← hsucc,
    Nat.sub_add_cancel hpos, offset_eq le_rfl, List.take_length]

/-- A stretch of one piece, found in the whole by the piece's offset. -/
theorem slice_offset {pieces : List (List α)} {index : ℕ} (hindex : index < pieces.length)
    {low high : ℕ} (hhigh : high ≤ pieces[index].length) :
    slice (offset (pieces.map List.length) index + low)
        (offset (pieces.map List.length) index + high) pieces.flatten =
      slice low high pieces[index] := by
  have hsplit : pieces.flatten =
      (pieces.take index).flatten ++ (pieces[index] ++ (pieces.drop (index + 1)).flatten) := by
    rw [← List.flatten_cons, ← List.drop_eq_getElem_cons hindex, ← List.flatten_append,
      List.take_append_drop]
  have hoffset : offset (pieces.map List.length) index = (pieces.take index).flatten.length := by
    rw [offset_eq (by simpa using hindex.le), length_flatten_take]
  rw [hoffset]
  conv_lhs => rw [hsplit]
  exact slice_within low hhigh

end Offsets

namespace Jagged

@[simp]
theorem length_lengths (jagged : Jagged batchSize α) : jagged.lengths.length = batchSize := by
  rw [lengths, List.length_map, jagged.length_rows]

theorem length_offsets (jagged : Jagged batchSize α) :
    jagged.offsets.length = batchSize + 1 := by
  simp [offsets]

theorem length_values (jagged : Jagged batchSize α) :
    jagged.values.length = jagged.lengths.sum := by
  rw [values, lengths, List.length_flatten]

/-- The flat list and the offsets determine the rows. -/
theorem ofOffsets_values (jagged : Jagged batchSize α) :
    ofOffsets jagged.values jagged.offsets jagged.length_offsets = jagged := by
  apply Jagged.ext
  apply List.ext_getElem
  · rw [Jagged.length_rows, Jagged.length_rows]
  · intro index hleft hright
    have hlengths : index < jagged.lengths.length := by simpa [lengths] using hright
    have hslice := @slice_offset α jagged.rows index hright 0 jagged.rows[index].length le_rfl
    have hwhole : slice 0 jagged.rows[index].length jagged.rows[index] = jagged.rows[index] := by
      simp [slice]
    simp only [ofOffsets, List.getElem_zipWith, List.getElem_tail, offsets]
    rw [getElem_offsets, getElem_offsets, offset_succ hlengths, List.getD_eq_getElem _ _ hlengths]
    simpa only [lengths, values, List.getElem_map, Nat.add_zero, hwhole] using hslice

end Jagged

section Masks

theorem gather_succ (item : α) (items : List α) (positions : List ℕ) :
    gather (positions.map (· + 1)) (item :: items) = gather positions items := by
  simp [gather, List.filterMap_map]

theorem nonzero_cons (mark : Bool) (mask : List Bool) :
    nonzero (mark :: mask) =
      (if mark then [0] else []) ++ (nonzero mask).map (· + 1) := by
  rw [nonzero, List.findIdxs_cons, List.findIdxs_start]
  cases mark <;> rfl

theorem nonzero_eq_filter (mask : List Bool) :
    nonzero mask = (List.range mask.length).filter fun index => mask.getD index false := by
  induction mask with
  | nil => rfl
  | cons mark mask ih =>
      rw [nonzero_cons, List.length_cons, List.range_succ_eq_map, List.filter_cons,
        List.filter_map, ih]
      cases mark <;> simp [Function.comp_def]

/-- Picking the marked positions selects by the mask. -/
theorem gather_nonzero {items : List α} {mask : List Bool}
    (hlength : items.length = mask.length) :
    gather (nonzero mask) items = maskedSelect items mask := by
  induction items, mask using maskedSelect.induct with
  | case1 mask =>
      obtain rfl := List.length_eq_zero_iff.mp hlength.symm
      rfl
  | case2 item items => simp at hlength
  | case3 item items mask ih =>
      have hrest := ih (by simpa using hlength)
      rw [nonzero_cons, if_pos rfl, List.singleton_append, gather_cons (by simp), gather_succ,
        hrest]
      rfl
  | case4 item items mask ih =>
      have hrest := ih (by simpa using hlength)
      rw [nonzero_cons, if_neg (by decide), List.nil_append, gather_succ, hrest]
      rfl

theorem maskedSelect_append_append {front back : List α} {frontMask backMask : List Bool}
    (hlength : front.length = frontMask.length) :
    maskedSelect (front ++ back) (frontMask ++ backMask) =
      maskedSelect front frontMask ++ maskedSelect back backMask := by
  induction front, frontMask using maskedSelect.induct with
  | case1 mask =>
      obtain rfl := List.length_eq_zero_iff.mp hlength.symm
      rfl
  | case2 item front => simp at hlength
  | case3 item front mask ih =>
      simp [maskedSelect, ih (by simpa using hlength)]
  | case4 item front mask ih =>
      simp [maskedSelect, ih (by simpa using hlength)]

/-- Selecting in the flat list selects in every row. -/
theorem maskedSelect_flatten {rows : List (List α)} {masks : List (List Bool)}
    (hlength : rows.map List.length = masks.map List.length) :
    maskedSelect rows.flatten masks.flatten = (List.zipWith maskedSelect rows masks).flatten := by
  induction rows generalizing masks with
  | nil => rfl
  | cons row rows ih =>
      cases masks with
      | nil => simp at hlength
      | cons mask masks =>
          rw [List.map_cons, List.map_cons, List.cons_eq_cons] at hlength
          rw [List.flatten_cons, List.flatten_cons, maskedSelect_append_append hlength.1,
            ih hlength.2, List.zipWith_cons_cons, List.flatten_cons]

/-- The flat list of the marked items, cut where the numbers of marked items say, has the
marked items of every row. -/
theorem ofOffsets_gather {rows : List (List α)} {masks : List (List Bool)}
    (hrows : rows.length = batchSize)
    (hlength : rows.map List.length = masks.map List.length)
    (hoffsets : (offsets (masks.map fun mask => mask.count true)).length = batchSize + 1)  :
    Jagged.ofOffsets (gather (nonzero masks.flatten) rows.flatten)
        (offsets (masks.map fun mask => mask.count true)) hoffsets =
      ⟨List.zipWith maskedSelect rows masks, by
        have := congrArg List.length hlength
        simp only [List.length_map] at this
        simp [← this, hrows]⟩ := by
  have hcount : (List.zipWith maskedSelect rows masks).map List.length =
      masks.map fun mask => mask.count true := by
    have hrow : ∀ index (hleft : index < rows.length) (hright : index < masks.length),
        rows[index].length = masks[index].length := by
      intro index hleft hright
      have hget := List.getElem_of_eq hlength (by simpa using hleft : index < _)
      simpa using hget
    apply List.ext_getElem
    · have := congrArg List.length hlength
      simp only [List.length_map] at this
      simp [this]
    · intro index hleft hright
      have hmasks : index < masks.length := by simpa using hright
      have hrows : index < rows.length := by
        have := congrArg List.length hlength
        simp only [List.length_map] at this
        omega
      simp [length_maskedSelect (hrow index hrows hmasks)]
  have hflat : rows.flatten.length = masks.flatten.length := by
    rw [List.length_flatten, List.length_flatten, hlength]
  rw [← Jagged.ofOffsets_values ⟨List.zipWith maskedSelect rows masks, _⟩]
  simp only [Jagged.values, Jagged.offsets, Jagged.lengths, hcount, gather_nonzero hflat,
    maskedSelect_flatten hlength]

end Masks

end OneShotOPD
