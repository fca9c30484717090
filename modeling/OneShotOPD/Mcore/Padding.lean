import OneShotOPD.Core.SliceAssign
import Mathlib.Algebra.Order.Group.Nat

/-!
# Padded lengths of a packed batch

Every sequence of a packed batch is padded to an alignment, and the running
sums of the padded lengths say where it starts.  What the whole batch still
lacks is added to the last sequence.
-/

namespace OneShotOPD.Mcore

open Segments

/-- `(align_size - length % align_size) % align_size`, which is also
`(-length) % align_size`. -/
def padSize (align length : ℕ) : ℕ := (align - length % align) % align

/-- A length with its padding. -/
def roundUp (align length : ℕ) : ℕ := length + padSize align length

theorem le_roundUp (align length : ℕ) : length ≤ roundUp align length :=
  Nat.le_add_right _ _

theorem dvd_roundUp {align : ℕ} (halign : 0 < align) (length : ℕ) :
    align ∣ roundUp align length := by
  have hmod : length % align < align := Nat.mod_lt length halign
  have hdiv := Nat.div_add_mod length align
  rw [roundUp, padSize]
  rcases Nat.eq_zero_or_pos (length % align) with hzero | hpos
  · rw [hzero, Nat.sub_zero, Nat.mod_self, Nat.add_zero]
    exact Nat.dvd_of_mod_eq_zero hzero
  · rw [Nat.mod_eq_of_lt (by omega)]
    exact ⟨length / align + 1, by rw [Nat.mul_add, Nat.mul_one]; omega⟩

theorem roundUp_lt {align : ℕ} (halign : 0 < align) (length : ℕ) :
    roundUp align length < length + align :=
  Nat.add_lt_add_left (Nat.mod_lt _ halign) length

theorem le_roundUp_of_pos {align length : ℕ} (halign : 0 < align) (hlength : 0 < length) :
    align ≤ roundUp align length :=
  Nat.le_of_dvd (hlength.trans_le (le_roundUp align length)) (dvd_roundUp halign length)

/-- `items[-1] += amount`. -/
def growLast (amount : ℕ) : List ℕ → List ℕ
  | [] => []
  | [item] => [item + amount]
  | item :: next :: items => item :: growLast amount (next :: items)

@[simp]
theorem growLast_append (amount : ℕ) (items : List ℕ) (last : ℕ) :
    growLast amount (items ++ [last]) = items ++ [last + amount] := by
  induction items with
  | nil => rfl
  | cons item items ih =>
      cases items with
      | nil => rfl
      | cons next items => simpa [growLast] using ih

/-- `seqlens_in_batch_padded` and `cu_seqlens_padded`. -/
structure PackedLengths where
  seqlensInBatchPadded : List ℕ
  cuSeqlensPadded : List ℕ

namespace PackedLengths

def ofLengths (align : ℕ) (lengths : List ℕ) : PackedLengths :=
  { seqlensInBatchPadded := lengths.map (roundUp align)
    cuSeqlensPadded := offsets (lengths.map (roundUp align)) }

/-- `cu_seqlens_padded[-1]`. -/
def total (packed : PackedLengths) : ℕ := packed.cuSeqlensPadded.getLastD 0

/-- The padding that the last sequence takes over. -/
def grow (amount : ℕ) (packed : PackedLengths) : PackedLengths :=
  { seqlensInBatchPadded := growLast amount packed.seqlensInBatchPadded
    cuSeqlensPadded := growLast amount packed.cuSeqlensPadded }

/-- The lengths `initial`, and a last one that makes up the total. -/
def upTo (initial : List ℕ) (total : ℕ) : PackedLengths :=
  { seqlensInBatchPadded := initial ++ [total - initial.sum]
    cuSeqlensPadded := offsets initial ++ [total] }

@[simp]
theorem total_upTo (initial : List ℕ) (total : ℕ) : (upTo initial total).total = total := by
  simp [PackedLengths.total, upTo]

theorem grow_upTo {initial : List ℕ} {total : ℕ} (htotal : initial.sum ≤ total)
    (amount : ℕ) : (upTo initial total).grow amount = upTo initial (total + amount) := by
  simp [grow, upTo, Nat.sub_add_comm htotal]

end PackedLengths

theorem offsets_append (items : List ℕ) (last : ℕ) :
    offsets (items ++ [last]) = offsets items ++ [items.sum + last] := by
  have hscan : ∀ start, (items ++ [last]).scanl (· + ·) start =
      items.scanl (· + ·) start ++ [start + items.sum + last] := by
    induction items with
    | nil => simp
    | cons item items ih =>
        intro start
        rw [List.cons_append, List.scanl_cons, ih, List.scanl_cons, List.sum_cons,
          List.cons_append, Nat.add_assoc start]
  simpa [offsets] using hscan 0

namespace PackedLengths

theorem cuSeqlensPadded_upTo {initial : List ℕ} {total : ℕ} (htotal : initial.sum ≤ total) :
    (upTo initial total).cuSeqlensPadded =
      offsets (upTo initial total).seqlensInBatchPadded := by
  simp [upTo, offsets_append, Nat.add_sub_cancel' htotal]

theorem ofLengths_append (align : ℕ) (lengths : List ℕ) (last : ℕ) :
    ofLengths align (lengths ++ [last]) = upTo (lengths.map (roundUp align))
      ((lengths ++ [last]).map (roundUp align)).sum := by
  simp [ofLengths, upTo, offsets_append]

end PackedLengths

end OneShotOPD.Mcore
