import OneShotOPD.Core.Dict
import Mathlib

/-!
# The latest output of each key

Outputs that carry a key and an index come in any order.  A dictionary keeps the output of
each key that has the largest index, the first one among equal indices.
-/

namespace OneShotOPD.Latest

variable {κ ι ρ : Type} [DecidableEq κ] [LinearOrder ι]

def keepLatest (latest : Dict κ (ι × ρ)) (output : κ × ι × ρ) : Dict κ (ι × ρ) :=
  match latest.get? output.1 with
  | none => latest.insert output.1 output.2
  | some kept => if kept.1 < output.2.1 then latest.insert output.1 output.2 else latest

def latestOf (outputs : List (κ × ι × ρ)) : Dict κ (ι × ρ) :=
  outputs.foldl keepLatest Dict.empty

theorem latestOf_concat (outputs : List (κ × ι × ρ)) (output : κ × ι × ρ) :
    latestOf (outputs ++ [output]) = keepLatest (latestOf outputs) output := by
  simp [latestOf]

theorem mem_keys_keepLatest {latest : Dict κ (ι × ρ)} {output : κ × ι × ρ} {key : κ} :
    key ∈ (keepLatest latest output).keys ↔ key = output.1 ∨ key ∈ latest.keys := by
  rw [keepLatest]
  split
  next => exact Dict.mem_keys_insert _ _ _ _
  next kept hkept =>
    split
    next => exact Dict.mem_keys_insert _ _ _ _
    next =>
      refine (or_iff_right_of_imp ?_).symm
      rintro rfl
      rw [← Dict.get?_isSome_iff, hkept]
      rfl

theorem mem_keys_latestOf {outputs : List (κ × ι × ρ)} {key : κ} :
    key ∈ (latestOf outputs).keys ↔ ∃ output ∈ outputs, output.1 = key := by
  induction outputs using List.reverseRecOn with
  | nil => simp [latestOf]
  | append_singleton outputs output ih =>
      rw [latestOf_concat, mem_keys_keepLatest, ih]
      simp only [List.mem_append, List.mem_singleton, or_and_right, exists_or, exists_eq_left]
      rw [or_comm, @eq_comm _ key]

/-- What is kept for a key is an output of the key, and no output has a larger index. -/
theorem latestOf_get? {outputs : List (κ × ι × ρ)} {key : κ} {kept : ι × ρ}
    (hkept : (latestOf outputs).get? key = some kept) :
    (key, kept) ∈ outputs ∧ ∀ output ∈ outputs, output.1 = key → output.2.1 ≤ kept.1 := by
  induction outputs using List.reverseRecOn generalizing key kept with
  | nil => exact absurd hkept (by simp [latestOf])
  | append_singleton outputs output ih =>
      rw [latestOf_concat, keepLatest] at hkept
      -- An output that is inserted is at least as late as those before it.
      have hinserted : (∀ other ∈ outputs, other.1 = output.1 → other.2.1 ≤ output.2.1) →
          ((latestOf outputs).insert output.1 output.2).get? key = some kept →
            (key, kept) ∈ outputs ++ [output] ∧
              ∀ other ∈ outputs ++ [output], other.1 = key → other.2.1 ≤ kept.1 := by
        intro hlate hkept
        rw [Dict.get?_insert] at hkept
        split at hkept
        next hkey =>
          cases hkept
          subst hkey
          refine ⟨List.mem_append_right _ (List.mem_singleton.mpr rfl),
            fun other hother hsame => ?_⟩
          rcases List.mem_append.mp hother with hother | hother
          · exact hlate other hother hsame
          · rw [List.mem_singleton.mp hother]
        next hkey =>
          obtain ⟨hmem, hlatest⟩ := ih hkept
          refine ⟨List.mem_append_left _ hmem, fun other hother hsame => ?_⟩
          rcases List.mem_append.mp hother with hother | hother
          · exact hlatest other hother hsame
          · exact absurd (List.mem_singleton.mp hother ▸ hsame).symm hkey
      split at hkept
      next hnone =>
        refine hinserted (fun other hother hsame => ?_) hkept
        rw [Dict.get?_eq_none_iff] at hnone
        exact absurd (mem_keys_latestOf.mpr ⟨other, hother, hsame⟩) hnone
      next old hold =>
        split at hkept
        next hlt =>
          exact hinserted (fun other hother hsame =>
            le_trans ((ih hold).2 other hother hsame) (le_of_lt hlt)) hkept
        next hge =>
          obtain ⟨hmem, hlatest⟩ := ih hkept
          refine ⟨List.mem_append_left _ hmem, fun other hother hsame => ?_⟩
          rcases List.mem_append.mp hother with hother | hother
          · exact hlatest other hother hsame
          · obtain rfl := List.mem_singleton.mp hother
            rw [hsame, hkept, Option.some.injEq] at hold
            rw [hold]
            exact not_lt.mp hge

end OneShotOPD.Latest
