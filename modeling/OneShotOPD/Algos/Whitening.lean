import OneShotOPD.Algos.AggLoss
import OneShotOPD.Algos.Grpo
import OneShotOPD.Core.Literals
import Mathlib

/-!
# Whitening under a mask

Mean and variance of the tokens that a mask selects.  Rows without selected
tokens add nothing to them.
-/

namespace OneShotOPD.CoreAlgos

open Checks

variable {B P T : ℕ}

/-- `masked_sum` over all elements. -/
noncomputable def maskedSum (values mask : Grid B T) : ℝ :=
  ∑ row, ∑ position, masked (values row position) (mask row position)

noncomputable def maskTotal (mask : Grid B T) : ℝ := ∑ row, ∑ position, mask row position

attribute [local instance] Literals.atLeastTwo_ten in
noncomputable def maskedMean (values mask : Grid B T) : ℝ :=
  maskedSum values mask / (maskTotal mask + 1 / 10 ^ 8)

/-- `masked_var` with Bessel's correction. -/
noncomputable def maskedVar (values mask : Grid B T) : Except String ℝ := do
  let mean := maskedMean values mask
  let variance := maskedMean (fun row position => (values row position - mean) ^ 2) mask
  raiseIf (maskTotal mask = 0) "At least one element in the mask has to be 1."
  raiseIf (maskTotal mask = 1)
    "The sum of the mask is one, which can cause a division by zero."
  return variance * (maskTotal mask / (maskTotal mask - 1))

attribute [local instance] Literals.atLeastTwo_ten in
/-- `masked_whiten`, which shifts the mean to zero. -/
noncomputable def maskedWhiten (values mask : Grid B T) : Except String (Grid B T) := do
  let var ← maskedVar values mask
  return fun row position =>
    (values row position - maskedMean values mask) * (1 / Real.sqrt (var + 1 / 10 ^ 8))

/-- The first rows of a grid. -/
def realRows (grid : Grid (B + P) T) : Grid B T := fun row => grid (Fin.castAdd P row)

/-- Rows behind the first ones that are zero. -/
def ZeroBehind (grid : Grid (B + P) T) : Prop :=
  ∀ (pad : Fin P) position, grid (Fin.natAdd B pad) position = 0

theorem maskTotal_realRows {mask : Grid (B + P) T} (hmask : ZeroBehind mask) :
    maskTotal mask = maskTotal (realRows mask) := by
  have hpads : ∑ pad : Fin P, ∑ position, mask (Fin.natAdd B pad) position = 0 := by
    apply Finset.sum_eq_zero
    intro pad _
    exact Finset.sum_eq_zero fun position _ => hmask pad position
  rw [maskTotal, Fin.sum_univ_add, hpads, add_zero]
  rfl

theorem maskedSum_realRows (values : Grid (B + P) T) {mask : Grid (B + P) T}
    (hmask : ZeroBehind mask) :
    maskedSum values mask = maskedSum (realRows values) (realRows mask) := by
  have hpads : ∑ pad : Fin P, ∑ position,
      masked (values (Fin.natAdd B pad) position) (mask (Fin.natAdd B pad) position) = 0 := by
    apply Finset.sum_eq_zero
    intro pad _
    apply Finset.sum_eq_zero
    intro position _
    rw [hmask pad position, masked, mul_zero]
  rw [maskedSum, Fin.sum_univ_add, hpads, add_zero]
  rfl

theorem maskedMean_realRows (values : Grid (B + P) T) {mask : Grid (B + P) T}
    (hmask : ZeroBehind mask) :
    maskedMean values mask = maskedMean (realRows values) (realRows mask) := by
  rw [maskedMean, maskedSum_realRows values hmask, maskTotal_realRows hmask, maskedMean]

theorem maskedVar_realRows (values : Grid (B + P) T) {mask : Grid (B + P) T}
    (hmask : ZeroBehind mask) :
    maskedVar values mask = maskedVar (realRows values) (realRows mask) := by
  simp only [maskedVar, maskedMean_realRows _ hmask, maskTotal_realRows hmask]
  rfl

/-- Whitening does not see rows outside of the mask. -/
theorem maskedWhiten_realRows (values : Grid (B + P) T) {mask : Grid (B + P) T}
    (hmask : ZeroBehind mask) :
    maskedWhiten (realRows values) (realRows mask) =
      (maskedWhiten values mask).map realRows := by
  rw [maskedWhiten, maskedWhiten, maskedVar_realRows values hmask,
    maskedMean_realRows values hmask]
  cases maskedVar (realRows values) (realRows mask) <;> rfl

/-- Whitening needs a mask that selects neither no token nor one. -/
theorem maskedWhiten_isOk_iff (values mask : Grid B T) :
    (∃ whitened, maskedWhiten values mask = .ok whitened) ↔
      maskTotal mask ≠ 0 ∧ maskTotal mask ≠ 1 := by
  constructor
  · rintro ⟨whitened, hok⟩
    obtain ⟨var, hvar, -⟩ := bind_eq_ok.mp hok
    obtain ⟨hzero, hvar⟩ := raiseIf_bind_eq_ok.mp hvar
    exact ⟨hzero, (raiseIf_bind_eq_ok.mp hvar).1⟩
  · rintro ⟨hzero, hone⟩
    exact ⟨_, bind_eq_ok.mpr ⟨_, raiseIf_bind_eq_ok.mpr ⟨hzero,
      raiseIf_bind_eq_ok.mpr ⟨hone, rfl⟩⟩, rfl⟩⟩

end OneShotOPD.CoreAlgos
