import Mathlib.Data.List.Basic
import Mathlib.Data.List.SplitLengths
import Mathlib.Data.List.Induction
import Mathlib.Tactic.Common

/-!
# Items chosen by position

Selecting, slicing, repeating and cutting a list all choose positions.  What
they choose is kept apart from the items, so that the same choice can be made
in several lists, and choices can be composed.
-/

namespace OneShotOPD

variable {α β : Type}

/-- The items at the given positions, in the given order.  A position outside
of the list chooses nothing. -/
def gather (positions : List ℕ) (items : List α) : List α :=
  positions.filterMap fun position => items[position]?

@[simp]
theorem gather_nil (items : List α) : gather [] items = [] := rfl

theorem gather_append (first second : List ℕ) (items : List α) :
    gather (first ++ second) items = gather first items ++ gather second items :=
  List.filterMap_append

theorem gather_flatten (parts : List (List ℕ)) (items : List α) :
    gather parts.flatten items = parts.flatMap fun part => gather part items := by
  induction parts with
  | nil => rfl
  | cons part parts ih =>
      rw [List.flatten_cons, gather_append, ih, List.flatMap_cons]

/-- How many items are chosen depends on the length of the list only. -/
theorem length_gather (positions : List ℕ) (items : List α) :
    (gather positions items).length =
      (positions.filter fun position => position < items.length).length := by
  induction positions with
  | nil => rfl
  | cons position positions ih =>
      by_cases hposition : position < items.length
      · simpa [gather, hposition] using ih
      · simpa [gather, hposition] using ih

theorem length_gather_of_lt {positions : List ℕ} {items : List α}
    (hpositions : ∀ position ∈ positions, position < items.length) :
    (gather positions items).length = positions.length := by
  rw [length_gather, List.filter_eq_self.mpr (by simpa using hpositions)]

theorem mem_of_mem_gather {positions : List ℕ} {items : List α} {item : α}
    (hitem : item ∈ gather positions items) : item ∈ items := by
  obtain ⟨position, -, hposition⟩ := List.mem_filterMap.mp hitem
  exact List.mem_of_getElem? hposition

theorem gather_cons {position : ℕ} {positions : List ℕ} {items : List α}
    (hposition : position < items.length) :
    gather (position :: positions) items = items[position] :: gather positions items := by
  simp [gather, hposition]

theorem getElem?_gather {positions : List ℕ} {items : List α}
    (hpositions : ∀ position ∈ positions, position < items.length) (index : ℕ) :
    (gather positions items)[index]? =
      positions[index]?.bind fun position => items[position]? := by
  induction positions generalizing index with
  | nil => rfl
  | cons position positions ih =>
      have hposition : position < items.length := hpositions position List.mem_cons_self
      have hrest := ih fun other hother => hpositions other (List.mem_cons_of_mem _ hother)
      rw [gather_cons hposition]
      cases index with
      | zero => simp [hposition]
      | succ index => simpa using hrest index

/-- Choosing among what has been chosen. -/
theorem gather_gather {inner : List ℕ} {items : List α}
    (hinner : ∀ position ∈ inner, position < items.length) (outer : List ℕ) :
    gather outer (gather inner items) = gather (gather outer inner) items := by
  calc gather outer (gather inner items)
      = outer.filterMap fun index =>
          inner[index]?.bind fun position => items[position]? :=
        List.filterMap_congr fun index _ => getElem?_gather hinner index
    _ = gather (gather outer inner) items := List.filterMap_filterMap.symm

theorem gather_range_append (items others : List α) :
    gather (List.range items.length) (items ++ others) = items := by
  induction items using List.reverseRecOn generalizing others with
  | nil => rfl
  | append_singleton items item ih =>
      rw [List.length_append, List.length_singleton, List.range_succ, gather_append,
        List.append_assoc, ih]
      simp [gather]

theorem gather_range (items : List α) : gather (List.range items.length) items = items := by
  simpa using gather_range_append items []

theorem gather_of_range {positions : List ℕ} {count : ℕ}
    (hpositions : ∀ position ∈ positions, position < count) :
    gather positions (List.range count) = positions := by
  induction positions with
  | nil => rfl
  | cons position positions ih =>
      have hposition : position < count := hpositions position List.mem_cons_self
      have hrest := ih fun other hother => hpositions other (List.mem_cons_of_mem _ hother)
      rw [gather_cons (by simpa using hposition), List.getElem_range, hrest]

/-- A mask on the chosen items is a mask on the positions. -/
theorem gather_mask {positions : List ℕ} {items : List α}
    (hpositions : ∀ position ∈ positions, position < items.length) (mask : List Bool) :
    (((gather positions items).zip mask).filter Prod.snd).map Prod.fst =
      gather (((positions.zip mask).filter Prod.snd).map Prod.fst) items := by
  induction positions generalizing mask with
  | nil => rfl
  | cons position positions ih =>
      have hposition : position < items.length := hpositions position List.mem_cons_self
      have hrest := ih fun other hother => hpositions other (List.mem_cons_of_mem _ hother)
      rw [gather_cons hposition]
      cases mask with
      | nil => rfl
      | cons keep mask =>
          cases keep with
          | false => exact hrest mask
          | true =>
              rw [List.zip_cons_cons, List.zip_cons_cons, List.filter_cons_of_pos rfl,
                List.filter_cons_of_pos rfl, List.map_cons, List.map_cons,
                gather_cons hposition, hrest mask]

theorem map_gather (f : α → β) (positions : List ℕ) (items : List α) :
    (gather positions items).map f = gather positions (items.map f) := by
  rw [gather, gather, List.map_filterMap]
  exact List.filterMap_congr fun position _ => by simp

end OneShotOPD
