import OneShotOPD.Algos.AggLoss
import OneShotOPD.Algos.Whitening
import OneShotOPD.Core.Literals
import Mathlib

/-!
# The clipped policy losses

The scalar loss clips the importance ratio of the sampled token, and bounds the
loss of a token with a negative advantage once more.  The top-K loss clips the
ratio of every candidate and sums over the candidates of a position.  Both are
aggregated by `agg_loss`.
-/

namespace OneShotOPD.CoreAlgos

open Checks
open scoped NNReal

variable {B T : ℕ}

/-- A response mask, as `ppo_loss` hands it on. -/
abbrev ResponseMask (B T : ℕ) := Fin B → Fin T → Bool

/-- A Boolean mask in arithmetic. -/
def ResponseMask.toGrid (mask : ResponseMask B T) : Grid B T :=
  fun row position => if mask row position then 1 else 0

/-- What `agg_loss` is told about the global batch.  Sizes and counts are those
of a batch that has something in it. -/
structure GlobalBatchInfo where
  dpSize : ℕ
  batchNumTokens : Option ℝ
  globalBatchSize : Option ℝ
  lossScaleFactor : Option ℝ
  dpSize_pos : 0 < dpSize
  batchNumTokens_pos : ∀ count ∈ batchNumTokens, 0 < count
  globalBatchSize_pos : ∀ count ∈ globalBatchSize, 0 < count
  lossScaleFactor_pos : ∀ factor ∈ lossScaleFactor, 0 < factor

/-- The fields of the actor configuration that the losses read. -/
structure ActorConfig where
  clipRatio : ℝ
  clipRatioLow : Option ℝ
  clipRatioHigh : Option ℝ
  clipRatioC : ℝ
  globalBatchInfo : GlobalBatchInfo

namespace ActorConfig

variable (config : ActorConfig)

def cliprangeLow : ℝ := config.clipRatioLow.getD config.clipRatio

def cliprangeHigh : ℝ := config.clipRatioHigh.getD config.clipRatio

end ActorConfig

inductive PolicyLossError where
  /-- "The lower bound of the clip_ratio_c for dual-clip PPO should be greater than
  1.0, but get the value: ..." -/
  | clipRatioC (value : ℝ)
  | aggregation (error : AggLossError)

structure PolicyMetrics where
  pgClipfrac : ℝ
  ppoKl : ℝ
  pgClipfracLower : ℝ

/-- `torch.clamp(value, min, max)`. -/
noncomputable def clamp (value lower upper : ℝ) : ℝ := min (max value lower) upper

/-! ## One token -/

noncomputable def negativeApproxKl (oldLogProb logProb : ℝ) : ℝ :=
  clamp (logProb - oldLogProb) (-20) 20

noncomputable def ratio (oldLogProb logProb : ℝ) : ℝ :=
  Real.exp (negativeApproxKl oldLogProb logProb)

section Token

variable (config : ActorConfig) (oldLogProb logProb advantage : ℝ)

/-- The ratio in the trust region. -/
noncomputable def clippedRatio : ℝ :=
  clamp (ratio oldLogProb logProb) (1 - config.cliprangeLow) (1 + config.cliprangeHigh)

noncomputable def pgLosses1 : ℝ := -advantage * ratio oldLogProb logProb

noncomputable def pgLosses2 : ℝ := -advantage * clippedRatio config oldLogProb logProb

noncomputable def clipPgLosses1 : ℝ :=
  max (pgLosses1 oldLogProb logProb advantage)
    (pgLosses2 config oldLogProb logProb advantage)

noncomputable def pgLosses3 : ℝ := -advantage * config.clipRatioC

/-- The scalar loss of a token, with its dual clip. -/
noncomputable def vanillaTokenLoss : ℝ :=
  if advantage < 0 then
    min (pgLosses3 config advantage) (clipPgLosses1 config oldLogProb logProb advantage)
  else clipPgLosses1 config oldLogProb logProb advantage

end Token

/-! ## The losses -/

/-- Rollout correction weights, if they are provided. -/
noncomputable def isWeight (rolloutIsWeights : Option (Fin B → Fin T → ℝ≥0)) : Grid B T :=
  fun row position =>
    match rolloutIsWeights with
    | none => 1
    | some weights => weights row position

/-- The rows of a loss matrix and its mask. -/
def lossRows (losses mask : Grid B T) : List (LossRow ℝ T) :=
  (List.finRange B).map fun row => ⟨losses row, mask row⟩

/-- `agg_loss(..., **config.global_batch_info)`. -/
noncomputable def aggPolicyLoss (losses : Grid B T) (responseMask : ResponseMask B T)
    (lossAggMode : LossAggMode) (info : GlobalBatchInfo) : Except PolicyLossError ℝ :=
  (aggLoss (lossRows losses responseMask.toGrid) lossAggMode info.dpSize info.batchNumTokens
    info.globalBatchSize info.lossScaleFactor).mapError .aggregation

/-- `compute_policy_loss_vanilla`. -/
noncomputable def computePolicyLossVanilla (oldLogProb logProb advantages : Grid B T)
    (responseMask : ResponseMask B T) (lossAggMode : LossAggMode) (config : ActorConfig)
    (rolloutIsWeights : Option (Fin B → Fin T → ℝ≥0)) :
    Except PolicyLossError (ℝ × PolicyMetrics) :=
  if 1 < config.clipRatioC then do
    let pgLosses : Grid B T := fun row position =>
      vanillaTokenLoss config (oldLogProb row position) (logProb row position)
        (advantages row position) * isWeight rolloutIsWeights row position
    let pgLoss ← aggPolicyLoss pgLosses responseMask lossAggMode config.globalBatchInfo
    return (pgLoss, {
      pgClipfrac := maskedMean (fun row position =>
        if pgLosses1 (oldLogProb row position) (logProb row position)
            (advantages row position) <
          pgLosses2 config (oldLogProb row position) (logProb row position)
            (advantages row position) then 1 else 0) responseMask.toGrid
      ppoKl := maskedMean (fun row position =>
        -negativeApproxKl (oldLogProb row position) (logProb row position))
          responseMask.toGrid
      pgClipfracLower := maskedMean (fun row position =>
        if pgLosses3 config (advantages row position) <
            clipPgLosses1 config (oldLogProb row position) (logProb row position)
              (advantages row position) ∧ advantages row position < 0 then 1 else 0)
          responseMask.toGrid })
  else .error (.clipRatioC config.clipRatioC)

/-- The tensors of a policy loss, which have one shape: a value for each token,
or for each of its candidates. -/
inductive PolicyTensors (B T : ℕ) where
  | tokens (oldLogProb logProb advantages : Grid B T)
  | candidates (count : ℕ) (oldLogProb logProb advantages : Fin B → Fin T → Fin count → ℝ)

/-- `compute_policy_loss_vanilla_topk`. -/
noncomputable def computePolicyLossVanillaTopk (tensors : PolicyTensors B T)
    (responseMask : ResponseMask B T) (lossAggMode : LossAggMode) (config : ActorConfig)
    (rolloutIsWeights : Option (Fin B → Fin T → ℝ≥0)) :
    Except PolicyLossError (ℝ × PolicyMetrics) :=
  match tensors with
  | .tokens oldLogProb logProb advantages =>
      computePolicyLossVanilla oldLogProb logProb advantages responseMask lossAggMode config
        rolloutIsWeights
  | .candidates count oldLogProb logProb advantages => do
      let pgLosses : Fin B → Fin T → Fin count → ℝ := fun row position candidate =>
        clipPgLosses1 config (oldLogProb row position candidate)
          (logProb row position candidate) (advantages row position candidate) *
            isWeight rolloutIsWeights row position
      let pgLoss ← aggPolicyLoss (fun row position =>
        ∑ candidate, pgLosses row position candidate) responseMask lossAggMode
          config.globalBatchInfo
      let denom := max (∑ row, ∑ position, responseMask.toGrid row position) 1
      return (pgLoss, {
        pgClipfrac := (∑ row, ∑ position, ∑ candidate,
          (if pgLosses1 (oldLogProb row position candidate)
              (logProb row position candidate) (advantages row position candidate) <
            pgLosses2 config (oldLogProb row position candidate)
              (logProb row position candidate) (advantages row position candidate)
            then 1 else 0) * responseMask.toGrid row position) / denom
        ppoKl := (∑ row, ∑ position, ∑ candidate,
          -negativeApproxKl (oldLogProb row position candidate)
            (logProb row position candidate) * responseMask.toGrid row position) / denom
        pgClipfracLower := 0 })

/-! ## Aggregation is a weighted sum -/

attribute [local instance] Literals.atLeastTwo_ten in
/-- What a token counts for in the sum behind the aggregated loss. -/
noncomputable def LossAggMode.tokenWeight (lossAggMode : LossAggMode) (mask : Fin T → ℝ)
    (position : Fin T) : ℝ :=
  match lossAggMode with
  | .seqMeanTokenMean => mask position / (∑ other, mask other + 1 / 10 ^ 8)
  | _ => mask position

theorem masked_flag (value : ℝ) (flag : Bool) :
    masked value (if flag then 1 else 0) = (if flag then 1 else 0) * value := by
  cases flag <;> simp [masked]

theorem tokens_pos_of_mask {mask : Fin T → Bool} {position : Fin T}
    (hmask : mask position) : 0 < ∑ other, (if mask other then 1 else 0 : ℝ) := by
  apply Finset.sum_pos'
  · intro other _
    split <;> norm_num
  · exact ⟨position, Finset.mem_univ position, by simp [hmask]⟩

/-- A row without response tokens has no share in any mode. -/
theorem masked_seqMask (losses : Fin T → ℝ) (mask : Fin T → Bool) (value : ℝ)
    (hempty : (∀ position, mask position = false) → value = 0) :
    masked value (LossRow.seqMask ⟨losses, fun position => if mask position then 1 else 0⟩) =
      value := by
  by_cases hsome : ∃ position, mask position
  · obtain ⟨position, hposition⟩ := hsome
    have htokens : (LossRow.seqMask
        ⟨losses, fun position => if mask position then 1 else 0⟩ : ℝ) = 1 :=
      if_pos (tokens_pos_of_mask hposition)
    rw [htokens, masked, if_neg one_ne_zero, mul_one]
  · have hnone : ∀ position, mask position = false := by simpa using hsome
    rw [hempty hnone]
    simp [masked]

theorem share_eq_sum (lossAggMode : LossAggMode) (losses : Fin T → ℝ)
    (mask : Fin T → Bool) :
    lossAggMode.share ⟨losses, fun position => if mask position then 1 else 0⟩ =
      ∑ position, lossAggMode.tokenWeight (fun position => if mask position then 1 else 0)
        position * losses position := by
  have hsum : LossRow.tokenSum ⟨losses, fun position => if mask position then 1 else 0⟩ =
      ∑ position, (if mask position then 1 else 0) * losses position :=
    Finset.sum_congr rfl fun position _ => mul_comm _ _
  have hnone : (∀ position, mask position = false) →
      LossRow.tokenSum ⟨losses, fun position => if mask position then 1 else 0⟩ = 0 := by
    intro hall
    simp [LossRow.tokenSum, hall]
  have hmasked : LossRow.maskedSum
      ⟨losses, fun position => if mask position then 1 else 0⟩ =
        ∑ position, (if mask position then 1 else 0) * losses position :=
    Finset.sum_congr rfl fun position _ => masked_flag _ _
  cases lossAggMode with
  | tokenMean | tokenSum => exact hmasked
  | seqMeanTokenSum | seqMeanTokenSumNorm =>
      exact (masked_seqMask losses mask _ hnone).trans hsum
  | seqMeanTokenMean =>
      have hmean : LossRow.tokenMean
          ⟨losses, fun position => if mask position then 1 else 0⟩ =
            ∑ position, (if mask position then 1 else 0) /
              (∑ other, (if mask other then 1 else 0) + 1 / 10 ^ 8) * losses position := by
        rw [LossRow.tokenMean, hsum, Finset.sum_div]
        exact Finset.sum_congr rfl fun position _ => (div_mul_eq_mul_div _ _ _).symm
      refine (masked_seqMask losses mask _ fun hall => ?_).trans hmean
      rw [LossRow.tokenMean, hnone hall, zero_div]

theorem tokenWeight_eq_zero (lossAggMode : LossAggMode) {mask : Fin T → Bool}
    {position : Fin T} (hmask : mask position = false) :
    lossAggMode.tokenWeight (fun position => if mask position then 1 else 0) position = 0 := by
  cases lossAggMode <;> simp [LossAggMode.tokenWeight, hmask]

theorem tokenWeight_pos (lossAggMode : LossAggMode) {mask : Fin T → Bool}
    {position : Fin T} (hmask : mask position) :
    0 < lossAggMode.tokenWeight (fun position => if mask position then 1 else 0) position := by
  have htokens := tokens_pos_of_mask hmask
  cases lossAggMode with
  | tokenMean | tokenSum | seqMeanTokenSum | seqMeanTokenSumNorm =>
      simp [LossAggMode.tokenWeight, hmask]
  | seqMeanTokenMean =>
      simp only [LossAggMode.tokenWeight, hmask, if_true]
      positivity

/-! ## Comparing two loss matrices -/

/-- The configuration asks for a count of the whole batch and does not give it. -/
def CountMissing (lossAggMode : LossAggMode) (info : GlobalBatchInfo) : Prop :=
  1 < info.dpSize ∧
    match lossAggMode with
    | .tokenMean => info.batchNumTokens = none
    | .tokenSum => False
    | _ => info.globalBatchSize = none

/-- The sum behind an aggregated loss. -/
noncomputable def weightedLoss (lossAggMode : LossAggMode) (mask losses : Grid B T) : ℝ :=
  ∑ row, ∑ position, lossAggMode.tokenWeight (mask row) position * losses row position

section Aggregate

variable (responseMask : ResponseMask B T) (lossAggMode : LossAggMode)
  (info : GlobalBatchInfo)

/-- The divisor does not look at the losses. -/
noncomputable def policyDivisor : Except AggLossError ℝ :=
  aggDivisor (lossRows (fun _ _ => 0) responseMask.toGrid) lossAggMode info.dpSize
    info.batchNumTokens info.globalBatchSize info.lossScaleFactor

theorem aggDivisor_lossRows (losses : Grid B T) :
    aggDivisor (lossRows losses responseMask.toGrid) lossAggMode info.dpSize
      info.batchNumTokens info.globalBatchSize info.lossScaleFactor =
        policyDivisor responseMask lossAggMode info := by
  have htokens : ∀ losses : Grid B T, batchTokens (lossRows losses responseMask.toGrid) =
      ((List.finRange B).map fun row => ∑ position, responseMask.toGrid row position).sum := by
    intro losses
    rw [batchTokens, lossRows, List.map_map]
    rfl
  have hsequences : ∀ losses : Grid B T,
      batchSequences (lossRows losses responseMask.toGrid) =
        ((List.finRange B).map fun row =>
          if 0 < ∑ position, responseMask.toGrid row position then 1 else 0 : List ℝ).sum := by
    intro losses
    rw [batchSequences, lossRows, List.map_map]
    rfl
  unfold policyDivisor aggDivisor
  simp only [htokens, hsequences]

/-- An aggregated loss is a weighted sum over the response tokens. -/
theorem aggPolicyLoss_eq (losses : Grid B T) :
    aggPolicyLoss losses responseMask lossAggMode info =
      ((policyDivisor responseMask lossAggMode info).map fun divisor =>
        weightedLoss lossAggMode responseMask.toGrid losses * info.dpSize /
          divisor).mapError .aggregation := by
  have hshares : ((lossRows losses responseMask.toGrid).map lossAggMode.share).sum =
      weightedLoss lossAggMode responseMask.toGrid losses := by
    rw [lossRows, List.map_map, ← List.ofFn_eq_map, List.sum_ofFn]
    apply Finset.sum_congr rfl
    intro row _
    exact share_eq_sum lossAggMode (losses row) (responseMask row)
  rw [aggPolicyLoss, aggLoss_eq_map_divisor, aggDivisor_lossRows, hshares]

theorem policyDivisor_error_iff :
    (∃ error, policyDivisor responseMask lossAggMode info = .error error) ↔
      CountMissing lossAggMode info := by
  unfold policyDivisor aggDivisor CountMissing
  cases lossAggMode with
  | tokenMean => exact countOr_eq_error_iff _ _ _ _
  | tokenSum => simp
  | seqMeanTokenSum | seqMeanTokenMean => exact countOr_eq_error_iff _ _ _ _
  | seqMeanTokenSumNorm =>
      rw [← countOr_eq_error_iff info.globalBatchSize info.dpSize
        .globalBatchSizeRequired
        (batchSequences (lossRows (fun _ _ => 0) responseMask.toGrid))]
      cases countOr info.globalBatchSize info.dpSize .globalBatchSizeRequired
        (batchSequences (lossRows (fun _ _ => 0) responseMask.toGrid)) with
      | error error => exact Iff.rfl
      | ok size => simp [Except.map]

variable {responseMask}

/-- A batch with a response token is divided by something positive. -/
theorem policyDivisor_pos {row : Fin B} {position : Fin T} (hmask : responseMask row position)
    {divisor : ℝ} (hdivisor : policyDivisor responseMask lossAggMode info = .ok divisor) :
    0 < divisor := by
  have hnonneg : ∀ other, 0 ≤ ∑ position, responseMask.toGrid other position := by
    intro other
    apply Finset.sum_nonneg
    intro position _
    unfold ResponseMask.toGrid
    split <;> norm_num
  have hrow : 0 < ∑ position, responseMask.toGrid row position := tokens_pos_of_mask hmask
  have htokens : 0 < batchTokens (lossRows (fun _ _ => 0) responseMask.toGrid) := by
    rw [batchTokens, lossRows, List.map_map, ← List.ofFn_eq_map, List.sum_ofFn]
    exact Finset.sum_pos' (fun other _ => hnonneg other) ⟨row, Finset.mem_univ row, hrow⟩
  have hsequences : 0 < batchSequences (lossRows (fun _ _ => 0) responseMask.toGrid) := by
    rw [batchSequences, lossRows, List.map_map, ← List.ofFn_eq_map, List.sum_ofFn]
    apply Finset.sum_pos'
    · intro other _
      simp only [Function.comp_apply, LossRow.seqMask]
      split <;> norm_num
    · exact ⟨row, Finset.mem_univ row, by simp [LossRow.seqMask, LossRow.tokens, hrow]⟩
  unfold policyDivisor aggDivisor at hdivisor
  cases lossAggMode with
  | tokenMean => exact pos_of_countOr info.batchNumTokens_pos htokens hdivisor
  | tokenSum =>
      cases hdivisor
      exact one_pos
  | seqMeanTokenSum | seqMeanTokenMean =>
      exact pos_of_countOr info.globalBatchSize_pos hsequences hdivisor
  | seqMeanTokenSumNorm =>
      have hfactor : 0 < info.lossScaleFactor.getD (T : ℝ) := by
        cases hgiven : info.lossScaleFactor with
        | none => simpa using position.pos
        | some factor => exact info.lossScaleFactor_pos factor hgiven
      obtain ⟨size, hsize, rfl⟩ := map_eq_ok.mp hdivisor
      exact mul_pos (pos_of_countOr info.globalBatchSize_pos hsequences hsize) hfactor

theorem weightedLoss_eq_iff {upper lower : Grid B T}
    (hle : ∀ row position, responseMask row position →
      lower row position ≤ upper row position) :
    weightedLoss lossAggMode responseMask.toGrid upper =
        weightedLoss lossAggMode responseMask.toGrid lower ↔
      ∀ row position, responseMask row position →
        upper row position = lower row position := by
  have hdifference : weightedLoss lossAggMode responseMask.toGrid upper -
      weightedLoss lossAggMode responseMask.toGrid lower =
        ∑ row, ∑ position, lossAggMode.tokenWeight (responseMask.toGrid row) position *
          (upper row position - lower row position) := by
    simp only [weightedLoss, ← Finset.sum_sub_distrib, mul_sub]
  have hterm : ∀ row position, 0 ≤
      lossAggMode.tokenWeight (responseMask.toGrid row) position *
        (upper row position - lower row position) := by
    intro row position
    by_cases hmask : responseMask row position
    · exact mul_nonneg (tokenWeight_pos lossAggMode hmask).le
        (sub_nonneg.mpr (hle row position hmask))
    · have hzero : lossAggMode.tokenWeight (responseMask.toGrid row) position = 0 :=
        tokenWeight_eq_zero lossAggMode (by simpa using hmask)
      rw [hzero, zero_mul]
  rw [← sub_eq_zero, hdifference, Finset.sum_eq_zero_iff_of_nonneg fun row _ =>
    Finset.sum_nonneg fun position _ => hterm row position]
  constructor
  · intro hzero row position hmask
    have hrow := hzero row (Finset.mem_univ row)
    rw [Finset.sum_eq_zero_iff_of_nonneg fun position _ => hterm row position] at hrow
    have hweight : 0 < lossAggMode.tokenWeight (responseMask.toGrid row) position :=
      tokenWeight_pos lossAggMode hmask
    exact sub_eq_zero.mp ((mul_eq_zero.mp
      (hrow position (Finset.mem_univ position))).resolve_left hweight.ne')
  · intro hequal row _
    apply Finset.sum_eq_zero
    intro position _
    by_cases hmask : responseMask row position
    · rw [hequal row position hmask, sub_self, mul_zero]
    · have hzero : lossAggMode.tokenWeight (responseMask.toGrid row) position = 0 :=
        tokenWeight_eq_zero lossAggMode (by simpa using hmask)
      rw [hzero, zero_mul]

/-- One loss matrix over another aggregates to the same loss only when they agree
on every response token, or when neither is aggregated. -/
theorem aggPolicyLoss_eq_iff {upper lower : Grid B T}
    (hle : ∀ row position, responseMask row position →
      lower row position ≤ upper row position) :
    aggPolicyLoss upper responseMask lossAggMode info =
        aggPolicyLoss lower responseMask lossAggMode info ↔
      CountMissing lossAggMode info ∨
        ∀ row position, responseMask row position →
          upper row position = lower row position := by
  have hmissing := policyDivisor_error_iff responseMask lossAggMode info
  rw [aggPolicyLoss_eq, aggPolicyLoss_eq, ← hmissing, ← weightedLoss_eq_iff lossAggMode hle]
  cases hdivisor : policyDivisor responseMask lossAggMode info with
  | error error => simp [Except.map]
  | ok divisor =>
      simp only [Except.map, Except.mapError, Except.ok.injEq, reduceCtorEq, exists_false,
        false_or]
      constructor
      · intro hequal
        by_cases htoken : ∃ row position, responseMask row position
        · obtain ⟨row, position, hmask⟩ := htoken
          have hpos := policyDivisor_pos lossAggMode info hmask hdivisor
          have hsize : (info.dpSize : ℝ) ≠ 0 := by exact_mod_cast info.dpSize_pos.ne'
          exact mul_right_cancel₀ hsize ((div_left_inj' hpos.ne').mp hequal)
        · rw [weightedLoss_eq_iff lossAggMode hle]
          intro row position hmask
          exact absurd ⟨row, position, hmask⟩ htoken
      · intro hequal
        rw [hequal]

end Aggregate

end OneShotOPD.CoreAlgos
