import OneShotOPD.Algos.PolicyLoss

/-!
# The dual clip

With one candidate a position the top-K loss has the shape of the scalar loss,
but it does not bound the loss of a negative advantage.  The two are the same
exactly as long as no ratio is large enough for that bound.
-/

namespace OneShotOPD.CoreAlgos

open Checks
open scoped NNReal

variable {B T : ℕ}

section Token

variable (config : ActorConfig) (oldLogProb logProb advantage : ℝ)

/-- The larger of the ratio and the clipped ratio, which a negative advantage
is multiplied with. -/
noncomputable def largerRatio : ℝ :=
  max (ratio oldLogProb logProb) (clippedRatio config oldLogProb logProb)

variable {advantage} in
theorem clipPgLosses1_of_neg (hneg : advantage < 0) :
    clipPgLosses1 config oldLogProb logProb advantage =
      -advantage * largerRatio config oldLogProb logProb :=
  (mul_max_of_nonneg _ _ (neg_pos.mpr hneg).le).symm

theorem vanillaTokenLoss_le :
    vanillaTokenLoss config oldLogProb logProb advantage ≤
      clipPgLosses1 config oldLogProb logProb advantage := by
  unfold vanillaTokenLoss
  split
  · exact min_le_right _ _
  · exact le_rfl

/-- The dual clip is inactive on tokens with a non-negative advantage or a small
ratio, and on no others. -/
theorem clipPgLosses1_eq_iff :
    clipPgLosses1 config oldLogProb logProb advantage =
        vanillaTokenLoss config oldLogProb logProb advantage ↔
      (advantage < 0 → largerRatio config oldLogProb logProb ≤ config.clipRatioC) := by
  by_cases hneg : advantage < 0
  · have hpos : 0 < -advantage := neg_pos.mpr hneg
    calc
      clipPgLosses1 config oldLogProb logProb advantage =
          vanillaTokenLoss config oldLogProb logProb advantage
        ↔ clipPgLosses1 config oldLogProb logProb advantage ≤
            pgLosses3 config advantage := by
          rw [vanillaTokenLoss, if_pos hneg, eq_comm, min_eq_right_iff]
      _ ↔ largerRatio config oldLogProb logProb ≤ config.clipRatioC := by
          rw [clipPgLosses1_of_neg config oldLogProb logProb hneg, pgLosses3,
            mul_le_mul_iff_right₀ hpos]
      _ ↔ _ := by simp [hneg]
  · simp [vanillaTokenLoss, hneg]

end Token

section Losses

variable (oldLogProb logProb advantages : Grid B T) (responseMask : ResponseMask B T)
  (lossAggMode : LossAggMode) (config : ActorConfig)
  (rolloutIsWeights : Option (Fin B → Fin T → ℝ≥0))

/-- The tensors of top-K training whose only candidate is the sampled token. -/
def singleCandidate : PolicyTensors B T :=
  .candidates 1 (fun row position _ => oldLogProb row position)
    (fun row position _ => logProb row position)
    (fun row position _ => advantages row position)

theorem isWeight_nonneg (row : Fin B) (position : Fin T) :
    0 ≤ isWeight rolloutIsWeights row position := by
  cases rolloutIsWeights with
  | none => exact zero_le_one
  | some weights => exact (weights row position).coe_nonneg

theorem vanilla_loss (hclip : 1 < config.clipRatioC) :
    (computePolicyLossVanilla oldLogProb logProb advantages responseMask lossAggMode config
        rolloutIsWeights).map Prod.fst =
      aggPolicyLoss (fun row position =>
        vanillaTokenLoss config (oldLogProb row position) (logProb row position)
          (advantages row position) * isWeight rolloutIsWeights row position)
        responseMask lossAggMode config.globalBatchInfo := by
  simp only [computePolicyLossVanilla, if_pos hclip]
  cases aggPolicyLoss (fun row position =>
    vanillaTokenLoss config (oldLogProb row position) (logProb row position)
      (advantages row position) * isWeight rolloutIsWeights row position)
    responseMask lossAggMode config.globalBatchInfo <;> rfl

theorem topk_loss {count : ℕ} (oldLogProb logProb advantages : Fin B → Fin T → Fin count → ℝ) :
    (computePolicyLossVanillaTopk (.candidates count oldLogProb logProb advantages)
        responseMask lossAggMode config rolloutIsWeights).map Prod.fst =
      aggPolicyLoss (fun row position => ∑ candidate,
        clipPgLosses1 config (oldLogProb row position candidate)
          (logProb row position candidate) (advantages row position candidate) *
            isWeight rolloutIsWeights row position)
        responseMask lossAggMode config.globalBatchInfo := by
  simp only [computePolicyLossVanillaTopk]
  cases aggPolicyLoss (fun row position => ∑ candidate,
    clipPgLosses1 config (oldLogProb row position candidate)
      (logProb row position candidate) (advantages row position candidate) *
        isWeight rolloutIsWeights row position)
    responseMask lossAggMode config.globalBatchInfo <;> rfl

/-- A clip bound that the scalar loss refuses. -/
theorem vanilla_refuses (hclip : ¬ 1 < config.clipRatioC) :
    computePolicyLossVanilla oldLogProb logProb advantages responseMask lossAggMode config
      rolloutIsWeights = .error (.clipRatioC config.clipRatioC) :=
  if_neg hclip

/-- With one candidate the top-K loss is the scalar loss exactly when the scalar
loss accepts its dual-clip bound, and no response token with a negative
advantage and a positive weight has a ratio beyond it, or a count of the whole
batch is missing for both. -/
theorem topk_extends_vanilla_iff :
    (computePolicyLossVanillaTopk (singleCandidate oldLogProb logProb advantages)
        responseMask lossAggMode config rolloutIsWeights).map Prod.fst =
      (computePolicyLossVanilla oldLogProb logProb advantages responseMask lossAggMode
        config rolloutIsWeights).map Prod.fst ↔
    1 < config.clipRatioC ∧
      (CountMissing lossAggMode config.globalBatchInfo ∨
        ∀ row position, responseMask row position →
          isWeight rolloutIsWeights row position ≠ 0 → advantages row position < 0 →
            max (ratio (oldLogProb row position) (logProb row position))
              (clippedRatio config (oldLogProb row position) (logProb row position)) ≤
                config.clipRatioC) := by
  rw [singleCandidate, topk_loss]
  by_cases hclip : 1 < config.clipRatioC
  · rw [vanilla_loss oldLogProb logProb advantages responseMask lossAggMode config
      rolloutIsWeights hclip]
    simp only [Fin.sum_univ_one, hclip, true_and]
    have hle : ∀ row position, responseMask row position →
        vanillaTokenLoss config (oldLogProb row position) (logProb row position)
            (advantages row position) * isWeight rolloutIsWeights row position ≤
          clipPgLosses1 config (oldLogProb row position) (logProb row position)
            (advantages row position) * isWeight rolloutIsWeights row position :=
      fun row position _ => mul_le_mul_of_nonneg_right (vanillaTokenLoss_le _ _ _ _)
        (isWeight_nonneg rolloutIsWeights row position)
    rw [aggPolicyLoss_eq_iff lossAggMode config.globalBatchInfo hle]
    apply or_congr_right
    apply forall₂_congr
    intro row position
    by_cases hweight : isWeight rolloutIsWeights row position = 0
    · simp [hweight]
    · rw [mul_left_inj' hweight, clipPgLosses1_eq_iff]
      simp [hweight, largerRatio]
  · rw [vanilla_refuses oldLogProb logProb advantages responseMask lossAggMode config
      rolloutIsWeights hclip, aggPolicyLoss_eq]
    simp only [hclip, false_and, iff_false]
    cases policyDivisor responseMask lossAggMode config.globalBatchInfo with
    | error error => simp [Except.map, Except.mapError]
    | ok divisor => simp [Except.map, Except.mapError]

end Losses

/-! ## A negative advantage with a large ratio -/

/-- The defaults of the actor, on one rank that counts for itself. -/
noncomputable def defaultActor : ActorConfig where
  clipRatio := 1 / 5
  clipRatioLow := some (1 / 5)
  clipRatioHigh := some (1 / 5)
  clipRatioC := 3
  globalBatchInfo :=
    { dpSize := 1
      batchNumTokens := none
      globalBatchSize := none
      lossScaleFactor := none
      dpSize_pos := one_pos
      batchNumTokens_pos := by simp
      globalBatchSize_pos := by simp
      lossScaleFactor_pos := by simp }

/-- One token has become more likely by a factor of `e ^ 2`, and is to become
less likely. -/
theorem topk_ne_vanilla :
    (computePolicyLossVanillaTopk
        (singleCandidate (fun _ _ => 0 : Grid 1 1) (fun _ _ => 2) fun _ _ => -1)
        (fun _ _ => true) .tokenMean defaultActor none).map Prod.fst ≠
      (computePolicyLossVanilla (fun _ _ => 0 : Grid 1 1) (fun _ _ => 2) (fun _ _ => -1)
        (fun _ _ => true) .tokenMean defaultActor none).map Prod.fst := by
  intro hequal
  have hclip : 1 < defaultActor.clipRatioC := by norm_num [defaultActor]
  rw [singleCandidate, topk_loss, vanilla_loss _ _ _ _ _ _ _ hclip] at hequal
  simp only [Fin.sum_univ_one, isWeight, mul_one] at hequal
  have hle : ∀ row position, (fun _ _ => true : ResponseMask 1 1) row position →
      vanillaTokenLoss defaultActor 0 2 (-1) ≤ clipPgLosses1 defaultActor 0 2 (-1) :=
    fun _ _ _ => vanillaTokenLoss_le _ _ _ _
  rcases (aggPolicyLoss_eq_iff .tokenMean defaultActor.globalBatchInfo hle).mp hequal with
    hmissing | hsame
  · simp [CountMissing, defaultActor] at hmissing
  · have hbound := (clipPgLosses1_eq_iff defaultActor 0 2 (-1)).mp (hsame 0 0 rfl) (by norm_num)
    have hratio : ratio 0 2 = Real.exp 2 := by norm_num [ratio, negativeApproxKl, clamp]
    have hlarge : (2 : ℝ) + 1 < Real.exp 2 := Real.add_one_lt_exp two_ne_zero
    have hsmall : Real.exp 2 ≤ 3 := by
      rw [← hratio]
      exact (le_max_left _ _).trans hbound
    linarith

end OneShotOPD.CoreAlgos
