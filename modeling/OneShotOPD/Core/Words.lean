import Mathlib.Data.List.OfFn
import Mathlib.Tactic.Common

/-!
# Words of a fixed width

A list of words is laid out as a byte string, one word behind the other, and a byte string
whose length is a multiple of the width is cut back into words.
-/

namespace OneShotOPD.Words

/-- A word of so many bytes. -/
abbrev Word (width : ℕ) := { bytes : List UInt8 // bytes.length = width }

variable {width : ℕ}

def toBytes (words : List (Word width)) : List UInt8 := words.flatMap Subtype.val

@[simp]
theorem length_toBytes (words : List (Word width)) :
    (toBytes words).length = words.length * width := by
  induction words with
  | nil => simp [toBytes]
  | cons word words ih =>
      rw [toBytes, List.flatMap_cons, List.length_append, ← toBytes, ih, word.property,
        List.length_cons, Nat.succ_mul, Nat.add_comm]

theorem toBytes_eq_nil_iff (hwidth : 0 < width) {words : List (Word width)} :
    toBytes words = [] ↔ words = [] := by
  rw [← List.length_eq_zero_iff, length_toBytes, Nat.mul_eq_zero, List.length_eq_zero_iff]
  exact or_iff_left hwidth.ne'

/-- The words that a byte string consists of, if no bytes remain. -/
def ofBytes (width : ℕ) (bytes : List UInt8) : Option (List (Word width)) :=
  if width ∣ bytes.length then
    some (List.ofFn fun i : Fin (bytes.length / width) =>
      ⟨(bytes.drop (i * width)).take width, by
        have hlast : (i + 1) * width ≤ bytes.length :=
          (Nat.mul_le_mul_right width i.isLt).trans (Nat.div_mul_le_self _ _)
        rw [Nat.succ_mul] at hlast
        rw [List.length_take, List.length_drop]
        omega⟩)
  else none

/-- The bytes of one of the words. -/
theorem take_drop_toBytes (words : List (Word width)) {i : ℕ} (hi : i < words.length) :
    ((toBytes words).drop (i * width)).take width = words[i].val := by
  induction words generalizing i with
  | nil => exact absurd hi (Nat.not_lt_zero i)
  | cons word words ih =>
      have hsplit : toBytes (word :: words) = word.val ++ toBytes words := List.flatMap_cons
      have hlength : word.val.length = width := word.property
      rw [hsplit]
      cases i with
      | zero =>
          rw [Nat.zero_mul, List.drop_zero, List.take_append_of_le_length hlength.ge,
            List.take_of_length_le hlength.le, List.getElem_cons_zero]
      | succ i =>
          have hdrop : (word.val ++ toBytes words).drop width = toBytes words :=
            List.drop_left' hlength
          rw [Nat.succ_mul, Nat.add_comm, ← List.drop_drop, hdrop,
            ih (Nat.lt_of_succ_lt_succ hi), List.getElem_cons_succ]

/-- Words are read back from their bytes. -/
theorem ofBytes_toBytes (hwidth : 0 < width) (words : List (Word width)) :
    ofBytes width (toBytes words) = some words := by
  rw [ofBytes, if_pos ⟨words.length, by rw [length_toBytes, Nat.mul_comm]⟩]
  congr 1
  refine List.ext_getElem (by simp [hwidth]) fun i hleft hright => ?_
  apply Subtype.ext
  rw [List.getElem_ofFn]
  exact take_drop_toBytes words hright

end OneShotOPD.Words
