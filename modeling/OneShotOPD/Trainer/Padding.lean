import OneShotOPD.Algos.Estimators
import OneShotOPD.Algos.Groupwise
import OneShotOPD.Trainer.Advantage

/-!
# Padding a batch and computing its advantages

The trainer appends minimal samples until the batch size is a multiple of what
the training steps need.  The estimators then see dense tensors of all rows, and
the advantages are cut back to the length of each response.
-/

namespace OneShotOPD.Padding

open CoreAlgos

variable {B T : ℕ}

/-! ## The batch multiple -/

structure BatchSettings where
  useCritic : Bool
  criticPpoMiniBatchSize : ℕ
  actorPpoMiniBatchSize : ℕ
  rolloutN : ℕ
  criticWarmup : ℕ
  globalSteps : ℕ

def getRequiredBatchMultiple (settings : BatchSettings) (dpSize : ℕ) : ℕ :=
  let requiredMultiple :=
    if settings.useCritic then
      Nat.lcm dpSize (settings.criticPpoMiniBatchSize * settings.rolloutN)
    else dpSize
  if settings.criticWarmup ≤ settings.globalSteps then
    Nat.lcm requiredMultiple (settings.actorPpoMiniBatchSize * settings.rolloutN)
  else requiredMultiple

/-- The number of samples that are appended. -/
def padSize (batchSize batchMultiple : ℕ) : ℕ :=
  if batchSize % batchMultiple = 0 then 0 else batchMultiple - batchSize % batchMultiple

theorem pos_of_padSize {batchMultiple : ℕ} (localIdx : Fin (padSize B batchMultiple)) :
    0 < B := by
  rcases Nat.eq_zero_or_pos B with rfl | hpos
  · exact absurd localIdx.isLt (by simp [padSize])
  · exact hpos

/-- The padded batch size is a multiple. -/
theorem dvd_add_padSize (batchSize : ℕ) {batchMultiple : ℕ} (hpos : 0 < batchMultiple) :
    batchMultiple ∣ batchSize + padSize batchSize batchMultiple := by
  have hlt := Nat.mod_lt batchSize hpos
  unfold padSize
  split
  next hzero => exact Nat.dvd_of_mod_eq_zero hzero
  next =>
    refine ⟨batchSize / batchMultiple + 1, ?_⟩
    have hdivision := Nat.div_add_mod batchSize batchMultiple
    rw [Nat.mul_add, Nat.mul_one]
    omega

/-- The data-parallel ranks get equally many samples. -/
theorem dvd_add_padSize_requiredMultiple (settings : BatchSettings) {dpSize : ℕ}
    (batchSize : ℕ) (hpos : 0 < getRequiredBatchMultiple settings dpSize) :
    dpSize ∣ batchSize + padSize batchSize (getRequiredBatchMultiple settings dpSize) := by
  apply Nat.dvd_trans _ (dvd_add_padSize batchSize hpos)
  have hcritic : dpSize ∣ if settings.useCritic then
      Nat.lcm dpSize (settings.criticPpoMiniBatchSize * settings.rolloutN) else dpSize := by
    split
    next => exact Nat.dvd_lcm_left _ _
    next => exact dvd_rfl
  unfold getRequiredBatchMultiple
  simp only
  by_cases hactor : settings.criticWarmup ≤ settings.globalSteps
  · rw [if_pos hactor]
    exact hcritic.trans (Nat.dvd_lcm_left _ _)
  · rw [if_neg hactor]
    exact hcritic

/-! ## Samples -/

/-- The fields of a sample that the padding sets and that have the length of the
response or belong to its tokens. -/
structure Sample where
  uid : String
  sessionId : Option ℕ
  prompts : List ℤ
  responses : List ℤ
  inputIds : List ℤ
  attentionMask : List ℤ
  numTurns : ℕ
  responseMask : List ℤ
  lossMask : List ℤ
  rmScores : List ℝ
  rolloutLogProbs : List ℝ
  length_rmScores : rmScores.length = responseMask.length

structure Tag where
  isPadding : Bool
  promptLen : ℕ
  responseLen : ℕ
  seqLen : ℕ

/-- A key of the batch, with what the transfer queue holds under it. -/
structure Trajectory where
  key : String
  sample : Sample
  tag : Tag

/-- `construct_minimal_padding_template`: one prompt token and one response token. -/
def constructMinimalPaddingTemplate (source : Sample) (eosTokenId : ℤ) : Sample × Tag :=
  let prompts := [eosTokenId]
  let inputIds := prompts ++ prompts
  let responseMask := prompts.map fun _ => 0
  ({ source with
      prompts
      responses := prompts
      inputIds
      attentionMask := inputIds.map fun _ => 1
      numTurns := 0
      responseMask
      lossMask := responseMask
      rmScores := responseMask.map fun _ => 0
      rolloutLogProbs := responseMask.map fun _ => 0
      length_rmScores := List.length_map _ },
    { isPadding := true, promptLen := 1, responseLen := 1, seqLen := 2 })

/-- One padding sample.  All of them share a uid. -/
def padTrajectory (source : Sample) (eosTokenId : ℤ) (padUid : String) (localIdx : ℕ) :
    Trajectory :=
  let (template, tag) := constructMinimalPaddingTemplate source eosTokenId
  { key := padUid ++ "_" ++ toString localIdx ++ "_0"
    sample := { template with
      uid := padUid
      sessionId := template.sessionId.map fun _ => localIdx }
    tag }

/-- `upsample_batch_to_divisible_size`, which takes the first sample as source. -/
def upsampleBatchToDivisibleSize (batch : Fin B → Trajectory) (batchMultiple : ℕ)
    (eosTokenId : ℤ) (padUid : String) : Fin (B + padSize B batchMultiple) → Trajectory :=
  Fin.append batch fun localIdx =>
    padTrajectory (batch ⟨0, pos_of_padSize localIdx⟩).sample eosTokenId padUid localIdx

/-! ## Advantages -/

inductive AdvantageEstimator where
  | gae
  | grpo
  | grpoVectorized
  | grpoPassk
  | rloo
  | rlooVectorized
  | opo
  | reinforcePlusPlus
  | reinforcePlusPlusBaseline
  | gpg
  | tokenRewardDirect
  | tokenRewardDirectPlusGrpo
  deriving DecidableEq

structure AlgoSettings where
  gamma : ℝ
  lam : ℝ
  normAdvByStdInGrpo : Bool
  grpoOutcomeWeight : ℝ

/-- The tensors that the estimators select. -/
structure Rows (B T : ℕ) where
  uid : Fin B → String
  tokenLevelRewards : Grid B T
  responseMask : Grid B T
  values : Grid B T

/-- The advantages of `compute_advantage`. -/
noncomputable def computeAdvantage (text : PyText) (settings : AlgoSettings)
    (estimator : AdvantageEstimator) (rows : Rows B T) : Except String (Grid B T) :=
  let rewards := rows.tokenLevelRewards
  let mask := rows.responseMask
  let index := rows.uid
  match estimator with
  | .gae =>
      (computeGaeAdvantageReturn rewards rows.values mask settings.gamma settings.lam).map
        Prod.fst
  | .grpo =>
      .ok (computeGrpoOutcomeAdvantage rewards mask index grpoEpsilon
        settings.normAdvByStdInGrpo).1
  | .grpoVectorized =>
      match computeGrpoVectorizedOutcomeAdvantage text rewards mask
        (.objects fun row => .text (index row)) grpoEpsilon true with
      | some result => .ok result.1
      | none => .error "index out of range in self"
  | .grpoPassk =>
      (computeGrpoPasskOutcomeAdvantage rewards mask index grpoEpsilon
        settings.normAdvByStdInGrpo).map Prod.fst
  | .rloo => .ok (computeRlooOutcomeAdvantage rewards mask index).1
  | .rlooVectorized => .ok (computeRlooVectorizedOutcomeAdvantage rewards mask index).1
  | .opo => .ok (computeOpoOutcomeAdvantage rewards mask index).1
  | .reinforcePlusPlus =>
      (computeReinforcePlusPlusOutcomeAdvantage rewards mask settings.gamma).map Prod.fst
  | .reinforcePlusPlusBaseline =>
      (computeReinforcePlusPlusBaselineOutcomeAdvantage rewards mask index).map Prod.fst
  | .gpg => .ok (computeGpgOutcomeAdvantage rewards mask index 1).1
  | .tokenRewardDirect =>
      .ok (Advantage.computeTokenRewardDirectAdvantage (.tokens rewards) mask).1.sumCandidates
  | .tokenRewardDirectPlusGrpo =>
      match Advantage.computeTokenRewardDirectPlusGrpoAdvantage {
        tokenLevelRewards := .tokens rewards
        responseMask := mask
        config := {
          normAdvByStdInGrpo := some settings.normAdvByStdInGrpo
          grpoOutcomeWeight := some settings.grpoOutcomeWeight }
        index := some index
        rewardBaselines := none
        batch := none
        tensors := Dict.empty } with
      | .ok result => .ok result.1.sumCandidates
      | .error _ => .error "missing argument"

/-- The width of the dense tensors. -/
def batchWidth (batch : Fin B → Trajectory) : ℕ :=
  Finset.univ.sup fun row => (batch row).sample.responseMask.length

/-- `to_padded_tensor`.  The critic values the tokens of each sample by itself. -/
def toPaddedTensor (critic : Sample → ℕ → ℝ) (batch : Fin B → Trajectory) (width : ℕ) :
    Rows B width where
  uid row := (batch row).sample.uid
  tokenLevelRewards row position := (batch row).sample.rmScores.getD position 0
  responseMask row position := ((batch row).sample.responseMask.getD position 0 : ℤ)
  values row position :=
    if position < (batch row).sample.responseMask.length then
      critic (batch row).sample position
    else 0

def responseToNested (batch : Fin B → Trajectory) {width : ℕ} (tensor : Grid B width)
    (row : Fin B) : List ℝ :=
  ((List.finRange width).map (tensor row)).take (batch row).sample.responseMask.length

/-- `_compute_advantage` without KL in the reward: the advantages of each
response. -/
noncomputable def computeAdvantages (text : PyText) (settings : AlgoSettings)
    (critic : Sample → ℕ → ℝ) (estimator : AdvantageEstimator) (batch : Fin B → Trajectory) :
    Except String (Fin B → List ℝ) :=
  (computeAdvantage text settings estimator
    (toPaddedTensor critic batch (batchWidth batch))).map (responseToNested batch)

end OneShotOPD.Padding
