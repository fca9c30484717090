import Mathlib.Data.List.GetD
import Mathlib.Data.Int.Notation
import Mathlib.Tactic.Common

/-!
# Patches

A patch takes the elements of a list at some positions from a target.  Patches
compose by collecting their positions, and a patch at every position where a
list differs from the target makes it the target.
-/

namespace OneShotOPD.Patch

variable {V : Type}

def patch (target : List V) (positions : List ℤ) (own : List V) : List V :=
  own.mapIdx fun position value =>
    if (position : ℤ) ∈ positions then target.getD position value else value

/-- The entries are elements of the target at their positions. -/
def Agrees (target : List V) (entries : List (ℤ × V)) : Prop :=
  ∀ entry ∈ entries, ∃ position : ℕ, entry.1 = position ∧ target[position]? = some entry.2

@[simp]
theorem length_patch (target : List V) (positions : List ℤ) (own : List V) :
    (patch target positions own).length = own.length := by
  simp [patch]

theorem getElem?_patch (target : List V) (positions : List ℤ) (own : List V)
    (position : ℕ) :
    (patch target positions own)[position]? = own[position]?.map fun value =>
      if (position : ℤ) ∈ positions then target.getD position value else value := by
  rw [patch, List.getElem?_mapIdx]

@[simp]
theorem patch_nil (target own : List V) : patch target [] own = own := by
  apply List.ext_getElem?
  intro position
  simp [getElem?_patch]

theorem patch_patch (target : List V) (first second : List ℤ) (own : List V) :
    patch target second (patch target first own) = patch target (first ++ second) own := by
  apply List.ext_getElem?
  intro position
  simp only [getElem?_patch, Option.map_map, List.mem_append]
  refine congrArg (fun f => Option.map f own[position]?) (funext fun value => ?_)
  cases htarget : target[position]? <;>
    by_cases hfirst : (position : ℤ) ∈ first <;>
    by_cases hsecond : (position : ℤ) ∈ second <;>
    simp [hfirst, hsecond, htarget]

/-- Writing one element of the target is a patch at its position. -/
theorem set_eq_patch {target own : List V} {position : ℕ} {value : V}
    (hvalue : target[position]? = some value) :
    own.set position value = patch target [(position : ℤ)] own := by
  apply List.ext_getElem?
  intro other
  rw [getElem?_patch, List.getElem?_set]
  by_cases heq : position = other
  · subst heq
    by_cases hlt : position < own.length <;> simp [hvalue, hlt]
  · have hne : ((other : ℕ) : ℤ) ∉ [(position : ℤ)] := by
      rw [List.mem_singleton]
      omega
    simp [heq, hne]

/-- Outside of the patched positions nothing changes. -/
theorem getElem?_patch_of_not_mem (target : List V) {positions : List ℤ} (own : List V)
    {position : ℕ} (hposition : (position : ℤ) ∉ positions) :
    (patch target positions own)[position]? = own[position]? := by
  simp [getElem?_patch, hposition]

theorem patch_eq_target {target own : List V} {positions : List ℤ}
    (hlength : own.length = target.length)
    (hchanged : ∀ position : ℕ, target[position]? ≠ own[position]? →
      (position : ℤ) ∈ positions) :
    patch target positions own = target := by
  apply List.ext_getElem?
  intro position
  by_cases hmem : (position : ℤ) ∈ positions
  · by_cases hlt : position < own.length
    · rw [getElem?_patch, List.getElem?_eq_getElem hlt,
        List.getElem?_eq_getElem (hlength ▸ hlt), Option.map_some, if_pos hmem,
        List.getD_eq_getElem _ _ (hlength ▸ hlt)]
    · rw [List.getElem?_eq_none (by simpa using hlt),
        List.getElem?_eq_none (by omega)]
  · rw [getElem?_patch_of_not_mem target own hmem]
    by_contra hne
    exact hmem (hchanged position (Ne.symm hne))

end OneShotOPD.Patch
