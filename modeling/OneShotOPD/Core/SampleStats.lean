import Mathlib.Analysis.Real.Sqrt
import Mathlib.Algebra.BigOperators.Group.List.Basic
import Mathlib.Algebra.BigOperators.Ring.List
import Mathlib.Tactic.Linarith
import Mathlib.Tactic.FieldSimp
import Mathlib.Tactic.Ring

/-!
# Mean and standard deviation of a sample

The sample mean, the unbiased sample deviation, and what equality of two
standardised samples says about the samples.
-/

namespace OneShotOPD.SampleStats

noncomputable def mean (values : List ℝ) : ℝ := values.sum / values.length

/-- The unbiased deviation, with divisor one less than the sample size. -/
noncomputable def std (values : List ℝ) : ℝ :=
  Real.sqrt
    ((values.map fun value => (value - mean values) ^ 2).sum / (values.length - 1))

theorem std_nonneg (values : List ℝ) : 0 ≤ std values := Real.sqrt_nonneg _

/-- The order of a sample does not matter. -/
theorem mean_perm {values others : List ℝ} (hperm : values.Perm others) :
    mean values = mean others := by
  rw [mean, mean, hperm.sum_eq, hperm.length_eq]

theorem std_perm {values others : List ℝ} (hperm : values.Perm others) :
    std values = std others := by
  rw [std, std, mean_perm hperm, (hperm.map _).sum_eq, hperm.length_eq]

variable {ι : Type} {items : List ι} {f g : ι → ℝ}

/-- The deviation of `f` at an item. -/
noncomputable def centered (items : List ι) (f : ι → ℝ) (item : ι) : ℝ :=
  f item - mean (items.map f)

theorem std_map_eq_sqrt (items : List ι) (f : ι → ℝ) :
    std (items.map f) = Real.sqrt
      ((items.map fun item => centered items f item ^ 2).sum /
        (items.length - 1)) := by
  simp [std, centered, Function.comp_def]

theorem std_sq (items : List ι) (f : ι → ℝ) (hsize : 2 ≤ items.length) :
    std (items.map f) ^ 2 * (items.length - 1) =
      (items.map fun item => centered items f item ^ 2).sum := by
  have hpos : (0 : ℝ) < items.length - 1 := by
    have hcast : (2 : ℝ) ≤ items.length := by exact_mod_cast hsize
    linarith
  have hsum : 0 ≤ (items.map fun item => centered items f item ^ 2).sum := by
    apply List.sum_nonneg
    intro value hvalue
    obtain ⟨item, _, rfl⟩ := List.mem_map.mp hvalue
    exact sq_nonneg _
  rw [std_map_eq_sqrt, Real.sq_sqrt (div_nonneg hsum hpos.le)]
  exact div_mul_cancel₀ _ hpos.ne'

theorem std_congr
    (hcentered : ∀ item ∈ items, centered items f item = centered items g item) :
    std (items.map f) = std (items.map g) := by
  rw [std_map_eq_sqrt, std_map_eq_sqrt]
  congr 3
  exact List.map_congr_left fun item hitem => by rw [hcentered item hitem]

/-- Two samples have equal deviations when they differ by a constant. -/
theorem centered_eq_iff :
    (∀ item ∈ items, centered items f item = centered items g item) ↔
      ∀ left ∈ items, ∀ right ∈ items,
        f left - g left = f right - g right := by
  constructor
  · intro hcentered left hleft right hright
    have hl := hcentered left hleft
    have hr := hcentered right hright
    simp only [centered] at hl hr
    linarith
  · intro hconstant item hitem
    have hlength : (items.length : ℝ) ≠ 0 := by
      exact_mod_cast List.length_pos_of_mem hitem |>.ne'
    have hmap : items.map f = items.map fun other => g other + (f item - g item) := by
      apply List.map_congr_left
      intro other hother
      linarith [hconstant other hother item hitem]
    have hsum : (items.map f).sum =
        (items.map g).sum + items.length * (f item - g item) := by
      rw [hmap, List.sum_map_add]
      simp
    have hmean : mean (items.map f) = mean (items.map g) + (f item - g item) := by
      simp only [mean, hsum, List.length_map]
      field_simp
    simp only [centered, hmean]
    ring

/-- When two samples standardise to the same values, with the same positive
offset added to their deviations, they differ by a constant already. -/
theorem centered_eq_of_standardized {epsilon : ℝ} (hepsilon : 0 < epsilon)
    (hsize : 2 ≤ items.length)
    (hstandardized : ∀ item ∈ items,
      centered items f item * (std (items.map g) + epsilon) =
        centered items g item * (std (items.map f) + epsilon)) :
    ∀ item ∈ items, centered items f item = centered items g item := by
  set stdF := std (items.map f)
  set stdG := std (items.map g)
  have hF : 0 ≤ stdF := std_nonneg _
  have hG : 0 ≤ stdG := std_nonneg _
  have hpos : (0 : ℝ) < items.length - 1 := by
    have hcast : (2 : ℝ) ≤ items.length := by exact_mod_cast hsize
    linarith
  have hsquares :
      (items.map fun item => centered items f item ^ 2).sum * (stdG + epsilon) ^ 2 =
        (items.map fun item => centered items g item ^ 2).sum *
          (stdF + epsilon) ^ 2 := by
    rw [← List.sum_map_mul_right, ← List.sum_map_mul_right]
    congr 1
    apply List.map_congr_left
    intro item hitem
    rw [← mul_pow, ← mul_pow, hstandardized item hitem]
  have hscaled : (stdF * (stdG + epsilon)) ^ 2 = (stdG * (stdF + epsilon)) ^ 2 := by
    rw [← std_sq items f hsize, ← std_sq items g hsize] at hsquares
    have hcancel := mul_right_cancel₀ hpos.ne' (a := stdF ^ 2 * (stdG + epsilon) ^ 2)
      (b := items.length - 1) (c := stdG ^ 2 * (stdF + epsilon) ^ 2) (by linarith)
    linarith
  have hlinear : stdF * (stdG + epsilon) = stdG * (stdF + epsilon) :=
    (pow_left_inj₀ (by positivity) (by positivity) two_ne_zero).mp hscaled
  have hstd : stdF = stdG := by
    apply mul_right_cancel₀ hepsilon.ne'
    linarith
  intro item hitem
  have hitem := hstandardized item hitem
  rw [hstd] at hitem
  exact mul_right_cancel₀ (by positivity) hitem

end OneShotOPD.SampleStats
