import OneShotOPD.Core.Checks
import Mathlib.Data.List.Sublists

/-!
# Selection and assignment by a mask

`row[mask]` takes the elements at the positions that a Boolean mask marks, and
`row[mask] = values` puts values there.
-/

namespace OneShotOPD.Masked

variable {α : Type}

/-- `row[mask]`. -/
def maskedSelect : List α → List Bool → List α
  | [], _ => []
  | _ :: _, [] => []
  | item :: row, true :: mask => item :: maskedSelect row mask
  | _ :: row, false :: mask => maskedSelect row mask

/-- The marked positions of a row taken by the values, one after the other. -/
def maskedFill : List α → List Bool → List α → List α
  | _ :: row, true :: mask, value :: values => value :: maskedFill row mask values
  | item :: row, _ :: mask, values => item :: maskedFill row mask values
  | row, _, _ => row

/-- `row[mask] = values`.  There are as many values as marked positions, or one
for all of them; a `strict` assignment accepts only the former. -/
def maskedAssign (strict : Bool) (row : List α) (mask : List Bool) (values : List α) :
    Except String (List α) :=
  if values.length = mask.count true then .ok (maskedFill row mask values)
  else
    match strict, values with
    | false, [value] => .ok (maskedFill row mask (List.replicate (mask.count true) value))
    | _, _ => .error "shape mismatch: value tensor cannot be broadcast to indexing result"

/-- A row with its unmarked positions replaced. -/
def restrict (zero : α) (row : List α) (mask : List Bool) : List α :=
  List.zipWith (fun item valid => if valid then item else zero) row mask

theorem length_maskedSelect {row : List α} {mask : List Bool}
    (hlength : row.length = mask.length) :
    (maskedSelect row mask).length = mask.count true := by
  induction row, mask using maskedSelect.induct with
  | case1 mask =>
      obtain rfl := List.length_eq_zero_iff.mp hlength.symm
      rfl
  | case2 item row => simp at hlength
  | case3 item row mask ih =>
      rw [maskedSelect, List.length_cons, ih (by simpa using hlength), List.count_cons_self]
  | case4 item row mask ih =>
      rw [maskedSelect, ih (by simpa using hlength), List.count_cons_of_ne (by decide)]

theorem maskedSelect_sublist (row : List α) (mask : List Bool) :
    (maskedSelect row mask).Sublist row := by
  induction row, mask using maskedSelect.induct with
  | case1 mask => exact List.Sublist.slnil
  | case2 item row => exact List.nil_sublist _
  | case3 item row mask ih => exact ih.cons_cons item
  | case4 item row mask ih => exact ih.cons item

/-- A marked element is selected. -/
theorem mem_maskedSelect {row : List α} {mask : List Bool} {index : ℕ} {item : α}
    (hitem : row[index]? = some item) (hvalid : mask[index]? = some true) :
    item ∈ maskedSelect row mask := by
  induction row, mask using maskedSelect.induct generalizing index with
  | case1 mask => cases hitem
  | case2 first row => cases hvalid
  | case3 first row mask ih =>
      rw [maskedSelect]
      cases index with
      | zero =>
          cases hitem
          exact List.mem_cons_self
      | succ index => exact List.mem_cons_of_mem _ (ih hitem hvalid)
  | case4 first row mask ih =>
      rw [maskedSelect]
      cases index with
      | zero => cases hvalid
      | succ index => exact ih hitem hvalid

/-- What was selected, put back into a row of zeros. -/
theorem maskedFill_maskedSelect (zero : α) {row : List α} {mask : List Bool}
    (hlength : row.length = mask.length) :
    maskedFill (List.replicate row.length zero) mask (maskedSelect row mask) =
      restrict zero row mask := by
  induction row, mask using maskedSelect.induct with
  | case1 mask => rfl
  | case2 item row => simp at hlength
  | case3 item row mask ih =>
      rw [maskedSelect, List.length_cons, List.replicate_succ, maskedFill,
        ih (by simpa using hlength)]
      rfl
  | case4 item row mask ih =>
      rw [maskedSelect, List.length_cons, List.replicate_succ, maskedFill,
        ih (by simpa using hlength)]
      · rfl
      · nofun

theorem maskedAssign_maskedSelect (strict : Bool) (zero : α) {row : List α} {mask : List Bool}
    (hlength : row.length = mask.length) :
    maskedAssign strict (List.replicate row.length zero) mask (maskedSelect row mask) =
      .ok (restrict zero row mask) := by
  unfold maskedAssign
  rw [if_pos (length_maskedSelect hlength), maskedFill_maskedSelect zero hlength]

/-- A mask that marks the start of a row selects it. -/
theorem maskedSelect_append (front back : List α) :
    maskedSelect (front ++ back)
        (List.replicate front.length true ++ List.replicate back.length false) = front := by
  have hback : maskedSelect back (List.replicate back.length false) = [] := by
    induction back with
    | nil => rfl
    | cons item back ih => exact ih
  induction front with
  | nil => exact hback
  | cons item front ih =>
      rw [List.length_cons, List.replicate_succ, List.cons_append, List.cons_append,
        maskedSelect, ih]

end OneShotOPD.Masked
