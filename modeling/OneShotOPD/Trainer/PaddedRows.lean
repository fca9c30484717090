import OneShotOPD.Algos.GrpoVectorized
import OneShotOPD.Algos.Passk
import OneShotOPD.Trainer.Padding

/-!
# Estimators on padded rows

Rows behind the real ones with a label of their own and an empty mask do not
change the advantages of the real rows, unless the estimator normalises by the
batch size.  Their group can make an estimator raise.
-/

namespace OneShotOPD.Padding

open Checks CoreAlgos

variable {B P T : ℕ}

/-- The real rows alone. -/
def Rows.real (rows : Rows (B + P) T) : Rows B T where
  uid := realIndex rows.uid
  tokenLevelRewards := realRows rows.tokenLevelRewards
  responseMask := realRows rows.responseMask
  values := realRows rows.values

/-- Labels that `int` does not accept, such as the trainer's uuids. -/
def NoIntegers (text : PyText) (index : Fin B → String) : Prop :=
  ∀ row, text.int (index row) = none

/-- Such labels are sorted, so that only equal ones have the same index. -/
theorem computeGrpoVectorized_of_noIntegers {text : PyText} {index : Fin B → String}
    (hindex : NoIntegers text index) (rewards mask : Grid B T) (epsilon : ℝ)
    (normAdvByStdInGrpo : Bool) :
    computeGrpoVectorizedOutcomeAdvantage text rewards mask (.objects fun row =>
      .text (index row)) epsilon normAdvByStdInGrpo =
        some (computeGrpoOutcomeAdvantage rewards mask index epsilon normAdvByStdInGrpo) := by
  have hkey : ∀ row other : Fin B, (PyLabel.text (index row)).key =
      (PyLabel.text (index other)).key ↔ index row = index other := by
    simp [PyLabel.key]
  have htorch : ∀ row, asTorchIndex text (.objects fun row => .text (index row)) row =
      uniqueInverse (fun row => (PyLabel.text (index row)).key) row := by
    intro row
    have hnot : ¬ ∀ row, ((PyLabel.text (index row)).toInt64? text).isSome := by
      intro hall
      simpa [PyLabel.toInt64?, hindex row] using hall row
    have hcomparable : ∀ row other : Fin B,
        (PyLabel.text (index row)).Comparable (.text (index other)) := fun _ _ => trivial
    rw [asTorchIndex, if_neg hnot, if_pos hcomparable]
  apply computeGrpoVectorized_eq_some index rewards mask epsilon normAdvByStdInGrpo
  · intro row
    rw [htorch]
    exact Int.natCast_nonneg _
  · intro row other
    rw [htorch, htorch, Nat.cast_inj, uniqueInverse_eq_iff, hkey]

/-- The estimators that whiten their advantages over the batch. -/
def AdvantageEstimator.whitens : AdvantageEstimator → Bool
  | .gae => true
  | .reinforcePlusPlus => true
  | .reinforcePlusPlusBaseline => true
  | _ => false

/-- When an estimator raises nothing. -/
def Succeeds (estimator : AdvantageEstimator) (index : Fin B → String) (tokens : ℝ) : Prop :=
  (estimator.whitens = true → tokens ≠ 0 ∧ tokens ≠ 1) ∧
    (estimator = .grpoPassk → ∀ row, 2 ≤ (groupRows index (index row)).length)

variable {text : PyText} {settings : AlgoSettings} {estimator : AdvantageEstimator}

theorem computeAdvantage_isOk_iff {rows : Rows B T} (hindex : NoIntegers text rows.uid) :
    (∃ advantages, computeAdvantage text settings estimator rows = .ok advantages) ↔
      Succeeds estimator rows.uid (maskTotal rows.responseMask) := by
  cases estimator with
  | gae =>
      simp only [computeAdvantage, map_isOk_iff, Succeeds, AdvantageEstimator.whitens]
      exact (bind_pure_isOk_iff.trans (maskedWhiten_isOk_iff _ _)).trans (by simp)
  | reinforcePlusPlus =>
      simp only [computeAdvantage, map_isOk_iff, Succeeds, AdvantageEstimator.whitens]
      exact (bind_pure_isOk_iff.trans (maskedWhiten_isOk_iff _ _)).trans (by simp)
  | reinforcePlusPlusBaseline =>
      simp only [computeAdvantage, map_isOk_iff, Succeeds, AdvantageEstimator.whitens]
      exact (bind_pure_isOk_iff.trans (maskedWhiten_isOk_iff _ _)).trans (by simp)
  | grpoPassk =>
      simp only [computeAdvantage, map_isOk_iff, Succeeds, AdvantageEstimator.whitens]
      exact (bind_pure_isOk_iff.trans passkScores_isOk_iff).trans (by simp)
  | grpoVectorized =>
      simp [computeAdvantage, computeGrpoVectorized_of_noIntegers hindex, Succeeds,
        AdvantageEstimator.whitens]
  | _ => simp [computeAdvantage, Succeeds, AdvantageEstimator.whitens,
      Advantage.computeTokenRewardDirectPlusGrpoAdvantage]

theorem whitened_real {values mask : Grid (B + P) T} (hmask : ZeroBehind mask)
    {whitened : Grid (B + P) T} {real : Grid B T}
    (hwhitened : maskedWhiten values mask = .ok whitened)
    (hreal : maskedWhiten (realRows values) (realRows mask) = .ok real) :
    real = realRows whitened := by
  rw [maskedWhiten_realRows values hmask, hwhitened] at hreal
  exact (Except.ok.inj hreal).symm

section Real

variable {rows : Rows (B + P) T} {padUid : String} (hpads : PadLabels rows.uid padUid)
  (hmask : ZeroBehind rows.responseMask)

include hmask

theorem gae_real {gamma lam : ℝ} {padded : Grid (B + P) T × Grid (B + P) T}
    {real : Grid B T × Grid B T}
    (hpadded : computeGaeAdvantageReturn rows.tokenLevelRewards rows.values rows.responseMask
      gamma lam = .ok padded)
    (hreal : computeGaeAdvantageReturn rows.real.tokenLevelRewards rows.real.values
      rows.real.responseMask gamma lam = .ok real) : real.1 = realRows padded.1 := by
  obtain ⟨whitened, hwhitened, hpadded⟩ := bind_eq_ok.mp hpadded
  obtain ⟨whitenedReal, hwhitenedReal, hreal⟩ := bind_eq_ok.mp hreal
  cases hpadded
  cases hreal
  exact whitened_real hmask hwhitened hwhitenedReal

theorem reinforcePlusPlus_real {gamma : ℝ} {padded : Grid (B + P) T × Grid (B + P) T}
    {real : Grid B T × Grid B T}
    (hpadded : computeReinforcePlusPlusOutcomeAdvantage rows.tokenLevelRewards
      rows.responseMask gamma = .ok padded)
    (hreal : computeReinforcePlusPlusOutcomeAdvantage rows.real.tokenLevelRewards
      rows.real.responseMask gamma = .ok real) : real.1 = realRows padded.1 := by
  obtain ⟨whitened, hwhitened, hpadded⟩ := bind_eq_ok.mp hpadded
  obtain ⟨whitenedReal, hwhitenedReal, hreal⟩ := bind_eq_ok.mp hreal
  cases hpadded
  cases hreal
  rw [whitened_real hmask hwhitened hwhitenedReal]
  rfl

include hpads

theorem reinforcePlusPlusBaseline_real {padded : Grid (B + P) T × Grid (B + P) T}
    {real : Grid B T × Grid B T}
    (hpadded : computeReinforcePlusPlusBaselineOutcomeAdvantage rows.tokenLevelRewards
      rows.responseMask rows.uid = .ok padded)
    (hreal : computeReinforcePlusPlusBaselineOutcomeAdvantage rows.real.tokenLevelRewards
      rows.real.responseMask rows.real.uid = .ok real) : real.1 = realRows padded.1 := by
  obtain ⟨whitened, hwhitened, hpadded⟩ := bind_eq_ok.mp hpadded
  obtain ⟨whitenedReal, hwhitenedReal, hreal⟩ := bind_eq_ok.mp hreal
  cases hpadded
  cases hreal
  have htiled : (fun row position => meanBaseline rows.real.uid
      (outcomes rows.real.tokenLevelRewards) row * rows.real.responseMask row position) =
        realRows fun row position => meanBaseline rows.uid
          (outcomes rows.tokenLevelRewards) row * rows.responseMask row position := by
    funext row position
    exact congrArg (· * _) (meanBaseline_realIndex hpads (outcomes rows.tokenLevelRewards) row).symm
  rw [htiled] at hwhitenedReal
  rw [whitened_real hmask hwhitened hwhitenedReal]
  rfl

/-- The advantages of the real rows are the ones that they have alone. -/
theorem computeAdvantage_real (hindex : NoIntegers text rows.uid) (hgpg : estimator ≠ .gpg)
    {padded : Grid (B + P) T} {real : Grid B T}
    (hpadded : computeAdvantage text settings estimator rows = .ok padded)
    (hreal : computeAdvantage text settings estimator rows.real = .ok real) :
    real = realRows padded := by
  have hindexReal : NoIntegers text rows.real.uid := fun row => hindex (Fin.castAdd P row)
  have hgrpo : ∀ normAdvByStdInGrpo row,
      normalizedScore rows.real.uid grpoEpsilon normAdvByStdInGrpo
          (outcomes rows.real.tokenLevelRewards) row =
        normalizedScore rows.uid grpoEpsilon normAdvByStdInGrpo
          (outcomes rows.tokenLevelRewards) (Fin.castAdd P row) :=
    fun normAdvByStdInGrpo row =>
      (normalizedScore_realIndex hpads (outcomes rows.tokenLevelRewards) row grpoEpsilon
        normAdvByStdInGrpo).symm
  cases estimator with
  | gae =>
      obtain ⟨paddedPair, hpaddedPair, rfl⟩ := map_eq_ok.mp hpadded
      obtain ⟨realPair, hrealPair, rfl⟩ := map_eq_ok.mp hreal
      exact gae_real hmask hpaddedPair hrealPair
  | reinforcePlusPlus =>
      obtain ⟨paddedPair, hpaddedPair, rfl⟩ := map_eq_ok.mp hpadded
      obtain ⟨realPair, hrealPair, rfl⟩ := map_eq_ok.mp hreal
      exact reinforcePlusPlus_real hmask hpaddedPair hrealPair
  | reinforcePlusPlusBaseline =>
      obtain ⟨paddedPair, hpaddedPair, rfl⟩ := map_eq_ok.mp hpadded
      obtain ⟨realPair, hrealPair, rfl⟩ := map_eq_ok.mp hreal
      exact reinforcePlusPlusBaseline_real hpads hmask hpaddedPair hrealPair
  | grpoPassk =>
      obtain ⟨paddedPair, hpaddedPair, rfl⟩ := map_eq_ok.mp hpadded
      obtain ⟨realPair, hrealPair, rfl⟩ := map_eq_ok.mp hreal
      obtain ⟨scores, hscores, hpaddedPair⟩ := bind_eq_ok.mp hpaddedPair
      obtain ⟨scoresReal, hscoresReal, hrealPair⟩ := bind_eq_ok.mp hrealPair
      cases hpaddedPair
      cases hrealPair
      funext row position
      exact congrArg (· * _) (passkScores_realIndex hpads hscores hscoresReal row).symm
  | grpo =>
      cases hpadded
      cases hreal
      funext row position
      exact congrArg (· * _) (hgrpo _ row)
  | grpoVectorized =>
      simp only [computeAdvantage, computeGrpoVectorized_of_noIntegers hindex] at hpadded
      simp only [computeAdvantage, computeGrpoVectorized_of_noIntegers hindexReal] at hreal
      cases hpadded
      cases hreal
      funext row position
      exact congrArg (· * _) (hgrpo _ row)
  | rloo =>
      cases hpadded
      cases hreal
      funext row position
      exact congrArg (· * _) (rlooScore_realIndex hpads (outcomes rows.tokenLevelRewards) row).symm
  | rlooVectorized =>
      cases hpadded
      cases hreal
      funext row position
      exact congrArg (· * _) (rlooVectorizedScore_realIndex hpads
        (outcomes rows.tokenLevelRewards) row).symm
  | opo =>
      cases hpadded
      cases hreal
      funext row position
      exact congrArg (· * _) (opoScore_realIndex hpads (outcomes rows.tokenLevelRewards) row
        (outcomes rows.responseMask)).symm
  | gpg => exact absurd rfl hgpg
  | tokenRewardDirect =>
      cases hpadded
      cases hreal
      rfl
  | tokenRewardDirectPlusGrpo =>
      cases hpadded
      cases hreal
      funext row position
      exact congrArg (fun score => _ + _ * (score * _)) (hgrpo _ row)

omit hmask in
/-- GPG scales the advantages of the real rows by the number of all rows. -/
theorem gpg_real_iff (hrewards : ZeroBehind rows.tokenLevelRewards)
    {padded : Grid (B + P) T} {real : Grid B T}
    (hpadded : computeAdvantage text settings .gpg rows = .ok padded)
    (hreal : computeAdvantage text settings .gpg rows.real = .ok real) (row : Fin B)
    (position : Fin T) :
    realRows padded row position = real row position ↔
      P = 0 ∨ meanBaseline rows.real.uid (outcomes rows.real.tokenLevelRewards) row *
        rows.real.responseMask row position = 0 := by
  cases hpadded
  cases hreal
  have hzero : ∀ pad : Fin P, outcomes rows.tokenLevelRewards (Fin.natAdd B pad) = 0 :=
    fun pad => Finset.sum_eq_zero fun position _ => hrewards pad position
  obtain ⟨count, hcount, hpadded, hreal⟩ := gpgAlpha_castAdd hzero
  have hbaseline : meanBaseline rows.uid (outcomes rows.tokenLevelRewards)
      (Fin.castAdd P row) =
        meanBaseline rows.real.uid (outcomes rows.real.tokenLevelRewards) row :=
    meanBaseline_realIndex hpads (outcomes rows.tokenLevelRewards) row
  set baseline := meanBaseline rows.real.uid (outcomes rows.real.tokenLevelRewards) row
  set mask := rows.real.responseMask row position
  have hvalue : realRows (computeGpgOutcomeAdvantage rows.tokenLevelRewards rows.responseMask
      rows.uid 1).1 row position = (B + P) / count * baseline / 1 * mask := by
    rw [← hpadded, ← hbaseline]
    rfl
  have hvalueReal : (computeGpgOutcomeAdvantage rows.real.tokenLevelRewards
      rows.real.responseMask rows.real.uid 1).1 row position =
        B / count * baseline / 1 * mask := by
    rw [← hreal]
    rfl
  have hdifference : (B + P) / count * baseline / 1 * mask - B / count * baseline / 1 * mask =
      P / count * (baseline * mask) := by ring
  rw [hvalue, hvalueReal, ← sub_eq_zero, hdifference, mul_eq_zero, div_eq_zero_iff,
    Nat.cast_eq_zero, or_iff_left hcount.ne']

end Real

end OneShotOPD.Padding
