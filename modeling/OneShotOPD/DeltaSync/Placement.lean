import OneShotOPD.Core.RowMajor
import Mathlib.Data.List.FinRange

/-!
# Block placement

The shard of a rank is a rectangular block of the full tensor.  Positions in
the shard are translated to positions in the full tensor: by adding one offset
when the block is a contiguous range, and digit by digit otherwise.
-/

namespace OneShotOPD.DeltaSync

open RowMajor

/-- The strides of a contiguous tensor, accumulated from the last dimension. -/
def rowMajorStrides (shape : List ℕ) : List ℕ :=
  (shape.reverse.foldl (fun (state : List ℕ × ℕ) size =>
    (state.1 ++ [state.2], state.2 * size)) ([], 1)).1.reverse

/-- One hyper-rectangular block of the full tensor. -/
structure BlockPlacement where
  localShape : List ℕ
  globalOffset : List ℕ
  fullShape : List ℕ
  within : Within localShape globalOffset fullShape

namespace BlockPlacement

def isFlatContiguous (place : BlockPlacement) : Bool :=
  (place.localShape.tail.zip place.fullShape.tail).all fun sizes => sizes.1 = sizes.2

def flatOffset (place : BlockPlacement) : ℕ :=
  if place.fullShape = [] then 0
  else place.globalOffset.headD 0 * place.fullShape.tail.prod

end BlockPlacement

inductive Place where
  | flat (offset : ℕ)
  | block (place : BlockPlacement)

/-- The digit-by-digit translation of one position. -/
def translateDigits (localStrides offsets fullStrides : List ℕ) (position : ℕ) : ℕ :=
  ((localStrides.zip (offsets.zip fullStrides)).foldl
    (fun (state : ℕ × ℕ) (digit : ℕ × ℕ × ℕ) =>
      let coord := state.1 / digit.1
      (state.1 - coord * digit.1, state.2 + (coord + digit.2.1) * digit.2.2))
    (position, 0)).2

/-- One position of `translate_flat_indices`. -/
def translateFlatIndex (place : Place) (position : ℕ) : ℕ :=
  match place with
  | .flat offset => position + offset
  | .block place =>
      if place.isFlatContiguous then position + place.flatOffset
      else translateDigits (rowMajorStrides place.localShape) place.globalOffset
        (rowMajorStrides place.fullShape) position

/-! ## Translation shifts the coordinates -/

theorem rowMajorStrides_cons (size : ℕ) (shape : List ℕ) :
    rowMajorStrides (size :: shape) = shape.prod :: rowMajorStrides shape := by
  have hprod : ∀ (sizes strides : List ℕ) (acc : ℕ),
      (sizes.foldl (fun (state : List ℕ × ℕ) size =>
        (state.1 ++ [state.2], state.2 * size)) (strides, acc)).2 = acc * sizes.prod := by
    intro sizes
    induction sizes with
    | nil => simp
    | cons first sizes ih =>
        intro strides acc
        rw [List.foldl_cons, ih, List.prod_cons, Nat.mul_assoc]
  rw [rowMajorStrides, List.reverse_cons, List.foldl_append, List.foldl_cons, List.foldl_nil,
    List.reverse_append, hprod, Nat.one_mul, List.prod_reverse]
  rfl

theorem translateDigits_eq {localShape offsets fullShape : List ℕ}
    (hwithin : Within localShape offsets fullShape) (position : ℕ) :
    translateDigits (rowMajorStrides localShape) offsets (rowMajorStrides fullShape) position =
      ravel fullShape (shift offsets (unravel localShape position)) := by
  rw [translateDigits]
  suffices hfold : ∀ out, (((rowMajorStrides localShape).zip
      (offsets.zip (rowMajorStrides fullShape))).foldl
        (fun (state : ℕ × ℕ) (digit : ℕ × ℕ × ℕ) =>
          let coord := state.1 / digit.1
          (state.1 - coord * digit.1, state.2 + (coord + digit.2.1) * digit.2.2))
        (position, out)).2 =
          out + ravel fullShape (shift offsets (unravel localShape position)) by
    rw [hfold, Nat.zero_add]
  induction localShape generalizing offsets fullShape position with
  | nil =>
      intro out
      simp [rowMajorStrides, unravel, shift, ravel]
  | cons size localShape ih =>
      intro out
      cases offsets with
      | nil => simp [Within] at hwithin
      | cons start offsets =>
          cases fullShape with
          | nil => simp [Within] at hwithin
          | cons whole fullShape =>
              have hmod : position - position / localShape.prod * localShape.prod =
                  position % localShape.prod := by
                rw [Nat.mod_eq_sub_mul_div, Nat.mul_comm]
              rw [rowMajorStrides_cons, rowMajorStrides_cons, List.zip_cons_cons,
                List.zip_cons_cons, List.foldl_cons]
              simp only [hmod]
              rw [ih hwithin.2, Nat.add_assoc]
              rfl

/-- A block that is as large as the tensor starts at its beginning. -/
theorem shift_of_whole {sizes starts coords : List ℕ} (hwithin : Within sizes starts sizes)
    (hlength : coords.length = sizes.length) : shift starts coords = coords := by
  induction sizes generalizing starts coords with
  | nil => simp_all [shift]
  | cons size sizes ih =>
      cases starts with
      | nil => simp [Within] at hwithin
      | cons start starts =>
          cases coords with
          | nil => simp at hlength
          | cons coord coords =>
              obtain ⟨hle, hrest⟩ := hwithin
              have hstart : start = 0 := by omega
              have htail := ih hrest (Nat.succ.inj hlength)
              rw [shift] at htail ⊢
              rw [List.zipWith_cons_cons, htail, hstart, Nat.add_zero]

theorem eq_of_all_zip {sizes starts wholes : List ℕ} (hwithin : Within sizes starts wholes)
    (hall : (sizes.zip wholes).all fun pair => pair.1 = pair.2) : sizes = wholes := by
  induction sizes generalizing starts wholes with
  | nil => cases starts <;> cases wholes <;> simp_all [Within]
  | cons size sizes ih =>
      cases starts with
      | nil => simp [Within] at hwithin
      | cons start starts =>
          cases wholes with
          | nil => simp [Within] at hwithin
          | cons whole wholes =>
              rw [List.zip_cons_cons, List.all_cons, Bool.and_eq_true] at hall
              have hhead : size = whole := of_decide_eq_true hall.1
              rw [ih hwithin.2 hall.2, hhead]

/-- In a contiguous block only the first coordinate is shifted. -/
theorem ravel_shift_of_contiguous {place : BlockPlacement} (hflat : place.isFlatContiguous)
    {position : ℕ} (hposition : position < place.localShape.prod) :
    ravel place.fullShape (shift place.globalOffset (unravel place.localShape position)) =
      position + place.flatOffset := by
  obtain ⟨localShape, offsets, fullShape, hwithin⟩ := place
  cases localShape with
  | nil =>
      cases fullShape with
      | cons whole fullShape => cases offsets <;> simp [Within] at hwithin
      | nil =>
          rw [List.prod_nil, Nat.lt_one_iff] at hposition
          simp [ravel, BlockPlacement.flatOffset, hposition]
  | cons size localShape =>
      cases offsets with
      | nil => simp [Within] at hwithin
      | cons start offsets =>
          cases fullShape with
          | nil => simp [Within] at hwithin
          | cons whole fullShape =>
              obtain rfl := eq_of_all_zip hwithin.2 hflat
              have hpos : 0 < localShape.prod := by
                rw [List.prod_cons] at hposition
                exact Nat.pos_of_mul_pos_left (Nat.zero_lt_of_lt hposition)
              have hmod := Nat.mod_lt position hpos
              have htail := shift_of_whole hwithin.2
                (inBounds_unravel hmod).length_eq
              rw [shift] at htail
              rw [unravel, shift, List.zipWith_cons_cons, htail, ravel, ravel_unravel hmod,
                Nat.add_mul, Nat.add_right_comm, Nat.mul_comm (position / _),
                Nat.div_add_mod]
              rfl

theorem translateFlatIndex_block (place : BlockPlacement) {position : ℕ}
    (hposition : position < place.localShape.prod) :
    translateFlatIndex (.block place) position =
      ravel place.fullShape
        (shift place.globalOffset (unravel place.localShape position)) := by
  rw [translateFlatIndex]
  split
  next hflat => exact (ravel_shift_of_contiguous hflat hposition).symm
  next => exact translateDigits_eq place.within position

/-! ## Positions of a block -/

theorem length_of_within {sizes starts wholes : List ℕ} (hwithin : Within sizes starts wholes) :
    starts.length = sizes.length := by
  induction sizes generalizing starts wholes with
  | nil =>
      cases starts with
      | nil => rfl
      | cons start starts => cases wholes <;> simp [Within] at hwithin
  | cons size sizes ih =>
      cases starts with
      | nil => simp [Within] at hwithin
      | cons start starts =>
          cases wholes with
          | nil => simp [Within] at hwithin
          | cons whole wholes => rw [List.length_cons, List.length_cons, ih hwithin.2]

/-- A translated position has the coordinates of the element in the tensor. -/
theorem unravel_translateFlatIndex (place : BlockPlacement) {i : ℕ}
    (hi : i < place.localShape.prod) :
    translateFlatIndex (.block place) i < place.fullShape.prod ∧
      unravel place.fullShape (translateFlatIndex (.block place) i) =
        shift place.globalOffset (unravel place.localShape i) := by
  have hbounds := (covers_shift place.within (inBounds_unravel hi)).2
  rw [translateFlatIndex_block _ hi]
  exact ⟨ravel_lt hbounds, unravel_ravel hbounds⟩

theorem translateFlatIndex_injective (place : BlockPlacement) {first second : ℕ}
    (hfirst : first < place.localShape.prod) (hsecond : second < place.localShape.prod)
    (heq : translateFlatIndex (.block place) first = translateFlatIndex (.block place) second) :
    first = second := by
  have hcoords := congrArg (unravel place.fullShape) heq
  rw [(unravel_translateFlatIndex place hfirst).2, (unravel_translateFlatIndex place hsecond).2]
    at hcoords
  have hown := shift_injective (length_of_within place.within) (inBounds_unravel hfirst)
    (inBounds_unravel hsecond) hcoords
  rw [← ravel_unravel hfirst, hown, ravel_unravel hsecond]

/-- The translated positions are those of the elements that the block covers. -/
theorem exists_translateFlatIndex_iff (place : BlockPlacement) {position : ℕ}
    (hposition : position < place.fullShape.prod) :
    (∃ i < place.localShape.prod, translateFlatIndex (.block place) i = position) ↔
      Covers place.localShape place.globalOffset (unravel place.fullShape position) := by
  constructor
  · rintro ⟨i, hi, rfl⟩
    rw [(unravel_translateFlatIndex place hi).2]
    exact (covers_shift place.within (inBounds_unravel hi)).1
  · intro hcovers
    obtain ⟨own, hbounds, hshift⟩ := exists_shift_of_covers hcovers
    have hi := ravel_lt hbounds
    refine ⟨ravel place.localShape own, hi, ?_⟩
    rw [translateFlatIndex_block _ hi, unravel_ravel hbounds, hshift, ravel_unravel hposition]

/-- Both ways of translating agree on a contiguous block. -/
theorem flatOffset_eq_translateDigits {place : BlockPlacement} (hflat : place.isFlatContiguous)
    {i : ℕ} (hi : i < place.localShape.prod) :
    i + place.flatOffset = translateDigits (rowMajorStrides place.localShape) place.globalOffset
      (rowMajorStrides place.fullShape) i := by
  rw [translateDigits_eq place.within, ravel_shift_of_contiguous hflat hi]

end OneShotOPD.DeltaSync
