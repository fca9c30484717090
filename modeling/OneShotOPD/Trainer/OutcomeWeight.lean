import OneShotOPD.Algos.DualClip
import OneShotOPD.Trainer.Advantage

/-!
# The weight of the outcome term

`token_reward_direct_plus_grpo` adds the weighted GRPO advantage to the advantage
of every candidate, and the top-K loss sums over the candidates.  This file
follows the outcome term through both, at ratio one.
-/

namespace OneShotOPD.Advantage

open CoreAlgos
open scoped NNReal

variable {B T : ℕ} {Uid : Type}

section RatioOne

variable {config : ActorConfig} (logProb advantage : ℝ)

theorem ratio_self : ratio logProb logProb = 1 := by
  simp [ratio, negativeApproxKl, clamp]

/-- The trust region contains the ratio one, so nothing is clipped there. -/
theorem clipPgLosses1_self (hlow : 0 ≤ config.cliprangeLow)
    (hhigh : 0 ≤ config.cliprangeHigh) :
    clipPgLosses1 config logProb logProb advantage = -advantage := by
  have hclipped : clippedRatio config logProb logProb = 1 := by
    rw [clippedRatio, ratio_self, clamp, max_eq_left (by linarith),
      min_eq_left (by linarith)]
  rw [clipPgLosses1, pgLosses1, pgLosses2, hclipped, ratio_self, max_self, mul_one]

theorem vanillaTokenLoss_self (hlow : 0 ≤ config.cliprangeLow)
    (hhigh : 0 ≤ config.cliprangeHigh) (hclip : 1 < config.clipRatioC) :
    vanillaTokenLoss config logProb logProb advantage = -advantage := by
  have hself := clipPgLosses1_self logProb advantage hlow hhigh
  have hinactive := (clipPgLosses1_eq_iff config logProb logProb advantage).mpr fun hneg => by
    have hlarger := clipPgLosses1_of_neg config logProb logProb hneg
    have hone : largerRatio config logProb logProb = 1 := by
      rw [hself] at hlarger
      have hpos : -advantage ≠ 0 := (neg_pos.mpr hneg).ne'
      exact (mul_left_cancel₀ hpos ((mul_one _).trans hlarger)).symm
    rw [hone]
    exact hclip.le
  rw [← hinactive, hself]

end RatioOne

/-! ## The losses at ratio one -/

/-- The tensors of a policy loss whose log-probs did not change.  `logProb` is
looked up by row, position and candidate. -/
def atRatioOne (logProb : Fin B → Fin T → ℕ → ℝ) : Tensor B T → PolicyTensors B T
  | .tokens values =>
      .tokens (fun row position => logProb row position 0)
        (fun row position => logProb row position 0) values
  | .candidates last values =>
      .candidates (last + 1) (fun row position candidate => logProb row position candidate)
        (fun row position candidate => logProb row position candidate) values

section Losses

variable (logProb : Fin B → Fin T → ℕ → ℝ) (responseMask : ResponseMask B T)
  (lossAggMode : LossAggMode) (config : ActorConfig)
  (rolloutIsWeights : Option (Fin B → Fin T → ℝ≥0))

/-- The top-K loss of an advantage tensor. -/
noncomputable def topkLoss (advantages : Tensor B T) : Except PolicyLossError ℝ :=
  (computePolicyLossVanillaTopk (atRatioOne logProb advantages) responseMask lossAggMode
    config rolloutIsWeights).map Prod.fst

/-- The scalar loss of an advantage grid. -/
noncomputable def vanillaLoss (advantages : Grid B T) : Except PolicyLossError ℝ :=
  (computePolicyLossVanilla (fun row position => logProb row position 0)
    (fun row position => logProb row position 0) advantages responseMask lossAggMode config
    rolloutIsWeights).map Prod.fst

/-- The keyword arguments of the estimator for a top-K batch with verifier
scores. -/
def mixedKwargs (rewards : Tensor B T) (verifier : Grid B T) (index : Fin B → Uid)
    (algorithm : AlgoConfig) : AdvKwargs B T Uid where
  tokenLevelRewards := rewards
  responseMask := responseMask.toGrid
  config := algorithm
  index := some index
  rewardBaselines := none
  batch := none
  tensors := Dict.empty.insert "true_token_level_scores" (.tokens verifier)

/-- The configured weight is the weight of the outcome loss in the mixed loss. -/
def HonoursWeight [DecidableEq Uid] (rewards : Tensor B T) (verifier : Grid B T)
    (index : Fin B → Uid) (algorithm : AlgoConfig) : Prop :=
  ∃ combined, computeTokenRewardDirectPlusGrpoAdvantage
      (mixedKwargs responseMask rewards verifier index algorithm) = .ok combined ∧
    topkLoss logProb responseMask lossAggMode config rolloutIsWeights combined.1 = (do
      let distillation ← topkLoss logProb responseMask lossAggMode config rolloutIsWeights
        (computeTokenRewardDirectAdvantage rewards responseMask.toGrid).1
      let outcome ← vanillaLoss logProb responseMask lossAggMode config rolloutIsWeights
        (computeGrpoOutcomeAdvantage verifier responseMask.toGrid index grpoEpsilon
          (algorithm.normAdvByStdInGrpo.getD true)).1
      return distillation + algorithm.grpoOutcomeWeight.getD 1 * outcome)

end Losses

/-! ## Linearity -/

theorem weightedLoss_add_mul (lossAggMode : LossAggMode) (mask first second : Grid B T)
    (factor : ℝ) :
    weightedLoss lossAggMode mask (fun row position =>
        first row position + factor * second row position) =
      weightedLoss lossAggMode mask first + factor * weightedLoss lossAggMode mask second := by
  simp only [weightedLoss, mul_add, Finset.sum_add_distrib, Finset.mul_sum]
  congr 1
  apply Finset.sum_congr rfl
  intro row _
  apply Finset.sum_congr rfl
  intro position _
  ring

section Linear

variable {logProb : Fin B → Fin T → ℕ → ℝ} {responseMask : ResponseMask B T}
  {lossAggMode : LossAggMode} {config : ActorConfig}
  {rolloutIsWeights : Option (Fin B → Fin T → ℝ≥0)}
  (hlow : 0 ≤ config.cliprangeLow) (hhigh : 0 ≤ config.cliprangeHigh)

include hlow hhigh

/-- At ratio one the top-K loss is the aggregated sum of the negated advantages. -/
theorem topkLoss_candidates {last : ℕ} (values : Fin B → Fin T → Fin (last + 1) → ℝ) :
    topkLoss logProb responseMask lossAggMode config rolloutIsWeights
        (.candidates last values) =
      aggPolicyLoss (fun row position => (-∑ candidate, values row position candidate) *
        isWeight rolloutIsWeights row position) responseMask lossAggMode
          config.globalBatchInfo := by
  rw [topkLoss, atRatioOne, topk_loss]
  congr 1
  funext row position
  rw [← Finset.sum_mul, ← Finset.sum_neg_distrib]
  congr 1
  exact Finset.sum_congr rfl fun candidate _ => clipPgLosses1_self _ _ hlow hhigh

theorem vanillaLoss_grid (hclip : 1 < config.clipRatioC) (advantages : Grid B T) :
    vanillaLoss logProb responseMask lossAggMode config rolloutIsWeights advantages =
      aggPolicyLoss (fun row position => -advantages row position *
        isWeight rolloutIsWeights row position) responseMask lossAggMode
          config.globalBatchInfo := by
  rw [vanillaLoss, vanilla_loss _ _ _ _ _ _ _ hclip]
  congr 1
  funext row position
  rw [vanillaTokenLoss_self _ _ hlow hhigh hclip]

end Linear

/-- What the outcome of a response counts for. -/
noncomputable def responseShare (lossAggMode : LossAggMode) (responseMask : ResponseMask B T)
    (rolloutIsWeights : Option (Fin B → Fin T → ℝ≥0)) (row : Fin B) : ℝ :=
  ∑ position, lossAggMode.tokenWeight (responseMask.toGrid row) position *
    isWeight rolloutIsWeights row position

section Mixed

variable [DecidableEq Uid] (logProb : Fin B → Fin T → ℕ → ℝ)
  (responseMask : ResponseMask B T) (lossAggMode : LossAggMode) (config : ActorConfig)
  (rolloutIsWeights : Option (Fin B → Fin T → ℝ≥0)) {last : ℕ}
  (rewards : Fin B → Fin T → Fin (last + 1) → ℝ) (verifier : Grid B T)
  (index : Fin B → Uid) (algorithm : AlgoConfig)

/-- The sum behind the outcome loss. -/
theorem weightedLoss_grpo :
    weightedLoss lossAggMode responseMask.toGrid (fun row position =>
      -(computeGrpoOutcomeAdvantage verifier responseMask.toGrid index grpoEpsilon
        (algorithm.normAdvByStdInGrpo.getD true)).1 row position *
          isWeight rolloutIsWeights row position) =
      -∑ row, normalizedScore index grpoEpsilon (algorithm.normAdvByStdInGrpo.getD true)
        (outcomes verifier) row * responseShare lossAggMode responseMask rolloutIsWeights
          row := by
  rw [weightedLoss, ← Finset.sum_neg_distrib]
  apply Finset.sum_congr rfl
  intro row _
  rw [responseShare, Finset.mul_sum, ← Finset.sum_neg_distrib]
  apply Finset.sum_congr rfl
  intro position _
  by_cases hmask : responseMask row position
  · simp only [computeGrpoOutcomeAdvantage, ResponseMask.toGrid, hmask, if_true]
    ring
  · have hzero : lossAggMode.tokenWeight (responseMask.toGrid row) position = 0 :=
      tokenWeight_eq_zero lossAggMode (by simpa using hmask)
    rw [hzero]
    ring

/-- The losses of a candidate's advantage, mixed and direct. -/
theorem weightedLoss_mixed :
    weightedLoss lossAggMode responseMask.toGrid (fun row position =>
      (-∑ candidate, (rewards row position candidate * responseMask.toGrid row position +
        algorithm.grpoOutcomeWeight.getD 1 *
          (computeGrpoOutcomeAdvantage verifier responseMask.toGrid index grpoEpsilon
            (algorithm.normAdvByStdInGrpo.getD true)).1 row position)) *
              isWeight rolloutIsWeights row position) =
      weightedLoss lossAggMode responseMask.toGrid (fun row position =>
        (-∑ candidate, rewards row position candidate * responseMask.toGrid row position) *
          isWeight rolloutIsWeights row position) +
      (last + 1) * algorithm.grpoOutcomeWeight.getD 1 *
        weightedLoss lossAggMode responseMask.toGrid (fun row position =>
          -(computeGrpoOutcomeAdvantage verifier responseMask.toGrid index grpoEpsilon
            (algorithm.normAdvByStdInGrpo.getD true)).1 row position *
              isWeight rolloutIsWeights row position) := by
  rw [← weightedLoss_add_mul]
  congr 1
  funext row position
  rw [Finset.sum_add_distrib, Finset.sum_const, Finset.card_univ, Fintype.card_fin,
    nsmul_eq_mul]
  push_cast
  ring

variable (hlow : 0 ≤ config.cliprangeLow) (hhigh : 0 ≤ config.cliprangeHigh)

include hlow hhigh

/-- Where all counts are known the outcome term enters with `K` times its weight. -/
theorem honoursWeight_iff_outcome (hclip : 1 < config.clipRatioC) {divisor : ℝ}
    (hdivisor : policyDivisor responseMask lossAggMode config.globalBatchInfo =
      .ok divisor) :
    HonoursWeight logProb responseMask lossAggMode config rolloutIsWeights
        (.candidates last rewards) verifier index algorithm ↔
      last = 0 ∨ algorithm.grpoOutcomeWeight.getD 1 = 0 ∨
        ∑ row, normalizedScore index grpoEpsilon (algorithm.normAdvByStdInGrpo.getD true)
          (outcomes verifier) row *
            responseShare lossAggMode responseMask rolloutIsWeights row = 0 := by
  set weight := algorithm.grpoOutcomeWeight.getD 1 with hweight
  set total := ∑ row, normalizedScore index grpoEpsilon
    (algorithm.normAdvByStdInGrpo.getD true) (outcomes verifier) row *
      responseShare lossAggMode responseMask rolloutIsWeights row with htotal
  set direct := weightedLoss lossAggMode responseMask.toGrid (fun row position =>
    (-∑ candidate, rewards row position candidate * responseMask.toGrid row position) *
      isWeight rolloutIsWeights row position) with hdirect
  have hgrpo := weightedLoss_grpo responseMask lossAggMode rolloutIsWeights verifier index
    algorithm
  have hsame : HonoursWeight logProb responseMask lossAggMode config rolloutIsWeights
      (.candidates last rewards) verifier index algorithm ↔
        (direct + (last + 1) * weight * -total) * config.globalBatchInfo.dpSize / divisor =
          direct * config.globalBatchInfo.dpSize / divisor +
            weight * (-total * config.globalBatchInfo.dpSize / divisor) := by
    unfold HonoursWeight
    simp only [computeTokenRewardDirectPlusGrpoAdvantage, mixedKwargs, Dict.get?_insert,
      if_true, Option.getD_some, Tensor.sumCandidates, computeTokenRewardDirectAdvantage,
      Tensor.masked, Tensor.addWeighted, Except.ok.injEq, exists_eq_left',
      topkLoss_candidates hlow hhigh, vanillaLoss_grid hlow hhigh hclip, aggPolicyLoss_eq,
      hdivisor, Except.map, Except.mapError, bind, Except.bind, pure, Except.pure, hgrpo]
    rw [weightedLoss_mixed, hgrpo]
  rw [hsame]
  by_cases hzero : total = 0
  · simp [hzero]
  have hpos : 0 < divisor := by
    by_contra hnot
    apply hzero
    apply Finset.sum_eq_zero
    intro row _
    have hshare : responseShare lossAggMode responseMask rolloutIsWeights row = 0 := by
      apply Finset.sum_eq_zero
      intro position _
      have hmask : responseMask row position = false := by
        by_contra htrue
        exact hnot (policyDivisor_pos lossAggMode config.globalBatchInfo
          (by simpa using htrue) hdivisor)
      rw [show lossAggMode.tokenWeight (responseMask.toGrid row) position = 0 from
        tokenWeight_eq_zero lossAggMode hmask, zero_mul]
    rw [hshare, mul_zero]
  have hsize : (config.globalBatchInfo.dpSize : ℝ) ≠ 0 := by
    exact_mod_cast config.globalBatchInfo.dpSize_pos.ne'
  have hexcess : (direct + (last + 1) * weight * -total) * config.globalBatchInfo.dpSize /
      divisor - (direct * config.globalBatchInfo.dpSize / divisor +
        weight * (-total * config.globalBatchInfo.dpSize / divisor)) =
      -(last * weight * total * config.globalBatchInfo.dpSize / divisor) := by
    ring
  rw [← sub_eq_zero, hexcess]
  simp [hzero, hpos.ne', hsize]

/-- The configured weight is honoured exactly when a count that aggregation needs
is missing altogether, or the scalar loss accepts its dual-clip bound and there is
one candidate, no weight, or outcomes that cancel out over the batch. -/
theorem honours_weight_iff :
    HonoursWeight logProb responseMask lossAggMode config rolloutIsWeights
        (.candidates last rewards) verifier index algorithm ↔
      CountMissing lossAggMode config.globalBatchInfo ∨
        1 < config.clipRatioC ∧
          (last = 0 ∨ algorithm.grpoOutcomeWeight.getD 1 = 0 ∨
            ∑ row, normalizedScore index grpoEpsilon
              (algorithm.normAdvByStdInGrpo.getD true) (outcomes verifier) row *
                responseShare lossAggMode responseMask rolloutIsWeights row = 0) := by
  have hmissing := policyDivisor_error_iff responseMask lossAggMode config.globalBatchInfo
  rw [← hmissing]
  cases hdivisor : policyDivisor responseMask lossAggMode config.globalBatchInfo with
  | error error =>
      simp only [Except.error.injEq, exists_eq', true_or, iff_true]
      simp [HonoursWeight, computeTokenRewardDirectPlusGrpoAdvantage, mixedKwargs,
        computeTokenRewardDirectAdvantage, Tensor.masked, Tensor.addWeighted,
        topkLoss_candidates hlow hhigh, aggPolicyLoss_eq, hdivisor, Except.map,
        Except.mapError, bind, Except.bind]
  | ok divisor =>
      simp only [reduceCtorEq, exists_false, false_or]
      by_cases hclip : 1 < config.clipRatioC
      · simp only [hclip, true_and]
        exact honoursWeight_iff_outcome logProb responseMask lossAggMode config
          rolloutIsWeights rewards verifier index algorithm hlow hhigh hclip hdivisor
      · simp [HonoursWeight, computeTokenRewardDirectPlusGrpoAdvantage, mixedKwargs,
          computeTokenRewardDirectAdvantage, Tensor.masked, Tensor.addWeighted,
          topkLoss_candidates hlow hhigh, aggPolicyLoss_eq, hdivisor, Except.map,
          Except.mapError, bind, Except.bind, vanillaLoss, vanilla_refuses, hclip]

end Mixed

/-- One response of one token with two candidates and outcome one. -/
theorem twoCandidates_weight_iff :
    HonoursWeight (fun _ _ _ => 0) (fun _ _ => true) .tokenSum defaultActor none
        (.candidates 1 fun _ _ _ => 0 : Tensor 1 1) (fun _ _ => 1) (fun _ => "prompt")
        ⟨some false, some 1⟩ ↔
      CountMissing .tokenSum defaultActor.globalBatchInfo ∨
        1 < defaultActor.clipRatioC ∧
          (1 = 0 ∨ (some (1 : ℝ)).getD 1 = 0 ∨
            ∑ row, normalizedScore (fun _ : Fin 1 => "prompt") grpoEpsilon
              ((some false).getD true) (outcomes fun _ _ : Fin 1 => 1) row *
                responseShare .tokenSum (fun _ _ : Fin 1 => true) none row = 0) := by
  have hlow : 0 ≤ defaultActor.cliprangeLow := by
    norm_num [defaultActor, ActorConfig.cliprangeLow]
  have hhigh : 0 ≤ defaultActor.cliprangeHigh := by
    norm_num [defaultActor, ActorConfig.cliprangeHigh]
  exact honours_weight_iff (fun _ _ _ => 0) (fun _ _ => true) .tokenSum defaultActor none
    (fun _ _ _ => 0) (fun _ _ => 1) (fun _ => "prompt") ⟨some false, some 1⟩ hlow hhigh

/-- Its outcome counts twice. -/
theorem twoCandidates_not_honoursWeight :
    ¬ HonoursWeight (fun _ _ _ => 0) (fun _ _ => true) .tokenSum defaultActor none
      (.candidates 1 fun _ _ _ => 0 : Tensor 1 1) (fun _ _ => 1) (fun _ => "prompt")
      ⟨some false, some 1⟩ := by
  have hlow : 0 ≤ defaultActor.cliprangeLow := by
    norm_num [defaultActor, ActorConfig.cliprangeLow]
  have hhigh : 0 ≤ defaultActor.cliprangeHigh := by
    norm_num [defaultActor, ActorConfig.cliprangeHigh]
  have hclip : 1 < defaultActor.clipRatioC := by norm_num [defaultActor]
  have hdivisor : policyDivisor (fun _ _ => true : ResponseMask 1 1) .tokenSum
      defaultActor.globalBatchInfo = .ok 1 := rfl
  have hgroup : (groupRows (fun _ : Fin 1 => "prompt") "prompt").length = 1 := by
    decide
  rw [honoursWeight_iff_outcome _ _ _ _ _ _ _ _ _ hlow hhigh hclip hdivisor]
  simp [normalizedScore_singleton _ _ _ hgroup, outcomes, responseShare, isWeight,
    LossAggMode.tokenWeight, ResponseMask.toGrid]

end OneShotOPD.Advantage
