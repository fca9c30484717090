import Mathlib.Data.Finset.Sort
import Mathlib.Data.Fintype.Basic

/-!
# Sorted distinct values

The distinct values of an array in ascending order, and the place of each entry
among them.  Two entries have the same place when they are equal.
-/

namespace OneShotOPD

variable {B : ℕ} {α : Type} [LinearOrder α]

/-- The inverse of `np.unique(labels, return_inverse=True)`. -/
def uniqueInverse (labels : Fin B → α) (row : Fin B) : ℕ :=
  ((Finset.univ.image labels).sort (· ≤ ·)).idxOf (labels row)

theorem uniqueInverse_eq_iff {labels : Fin B → α} {row other : Fin B} :
    uniqueInverse labels row = uniqueInverse labels other ↔ labels row = labels other := by
  refine ⟨fun heq => ?_, fun heq => by rw [uniqueInverse, heq, uniqueInverse]⟩
  have hmem : labels row ∈ (Finset.univ.image labels).sort (· ≤ ·) := by simp
  exact (List.idxOf_inj hmem).mp heq

end OneShotOPD
