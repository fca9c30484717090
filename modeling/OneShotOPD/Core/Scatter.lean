import Mathlib.Data.List.Basic
import Mathlib.Data.List.TakeDrop
import Mathlib.Tactic.Common

/-!
# Indexed writes into an array

`scatter` is the indexed assignment `array[indices] = values`.  A sequence of
such assignments is one assignment of the concatenated indices and values,
which turns a loop of writes into a single one.
-/

namespace OneShotOPD

variable {α β : Type}

/-- `array[indices] = values`, one element after the other. -/
def scatter (array : List α) (indices : List ℕ) (values : List α) : List α :=
  (indices.zip values).foldl (fun array entry => array.set entry.1 entry.2) array

@[simp]
theorem scatter_nil (array values : List α) : scatter array [] values = array := by
  simp [scatter]

@[simp]
theorem scatter_cons (array : List α) (index : ℕ) (indices : List ℕ) (value : α)
    (values : List α) :
    scatter array (index :: indices) (value :: values) =
      scatter (array.set index value) indices values := rfl

/-- Two writes in a row are one write of everything. -/
theorem scatter_append (array : List α) {first second : List ℕ}
    {firstValues secondValues : List α}
    (hlength : first.length = firstValues.length) :
    scatter array (first ++ second) (firstValues ++ secondValues) =
      scatter (scatter array first firstValues) second secondValues := by
  simp [scatter, List.zip_append hlength]

@[simp]
theorem length_scatter (array : List α) (indices : List ℕ) (values : List α) :
    (scatter array indices values).length = array.length := by
  induction indices generalizing array values with
  | nil => simp
  | cons index indices ih =>
      cases values with
      | nil => simp [scatter]
      | cons value values => simp [ih]

/-- A position that is not written keeps its value. -/
theorem getElem?_scatter_of_not_mem (array : List α) {indices : List ℕ}
    (values : List α) {position : ℕ} (hposition : position ∉ indices) :
    (scatter array indices values)[position]? = array[position]? := by
  induction indices generalizing array values with
  | nil => simp
  | cons index indices ih =>
      simp only [List.mem_cons, not_or] at hposition
      cases values with
      | nil => simp [scatter]
      | cons value values =>
          rw [scatter_cons, ih _ _ hposition.2,
            List.getElem?_set_ne (Ne.symm hposition.1)]

/-- A position that is written once holds the value written there. -/
theorem getElem?_scatter_of_mem_zip (array : List α) {indices : List ℕ}
    {values : List α} (hnodup : indices.Nodup) {position : ℕ} {value : α}
    (hentry : (position, value) ∈ indices.zip values)
    (hbound : position < array.length) :
    (scatter array indices values)[position]? = some value := by
  induction indices generalizing array values with
  | nil => simp at hentry
  | cons index indices ih =>
      cases values with
      | nil => simp at hentry
      | cons first values =>
          obtain ⟨hindex, hnodup⟩ := List.nodup_cons.mp hnodup
          rw [scatter_cons]
          rcases List.mem_cons.mp hentry with heq | hentry
          · obtain ⟨rfl, rfl⟩ := Prod.mk.inj heq
            rw [getElem?_scatter_of_not_mem _ _ hindex,
              List.getElem?_set_self hbound]
          · exact ih (array.set index first) hnodup hentry (by simpa using hbound)

/-- Pairs of aligned blocks are pairs of the concatenations. -/
theorem mem_zip_flatMap {ι : Type} {items : List ι} {first : ι → List α}
    {second : ι → List β}
    (hlength : ∀ item ∈ items, (first item).length = (second item).length)
    {item : ι} (hitem : item ∈ items) {left : α} {right : β}
    (hentry : (left, right) ∈ (first item).zip (second item)) :
    (left, right) ∈ (items.flatMap first).zip (items.flatMap second) := by
  induction items with
  | nil => simp at hitem
  | cons head items ih =>
      rw [List.flatMap_cons, List.flatMap_cons,
        List.zip_append (hlength head (by simp)), List.mem_append]
      rcases List.mem_cons.mp hitem with rfl | hitem
      · exact .inl hentry
      · exact .inr (ih (fun other hother => hlength other (by simp [hother])) hitem)

theorem mem_zip_of_getElem? {first : List α} {second : List β} {position : ℕ}
    {left : α} {right : β} (hleft : first[position]? = some left)
    (hright : second[position]? = some right) :
    (left, right) ∈ first.zip second :=
  List.mem_of_getElem? (List.getElem?_zip_eq_some.mpr ⟨hleft, hright⟩)

/-- Consecutive slices of one size cover a list as far as they reach. -/
theorem flatMap_slices (items : List α) (size count : ℕ) :
    (List.range count).flatMap (fun step => (items.drop (step * size)).take size) =
      items.take (count * size) := by
  induction count with
  | zero => simp
  | succ count ih =>
      rw [List.range_succ, List.flatMap_append, ih, Nat.succ_mul, List.take_add]
      simp

end OneShotOPD
