import OneShotOPD.Algos.Grpo
import Mathlib.Data.String.Basic

/-!
# From the verifier score to the advantage

The trainer keeps its tensors in a batch under names.  The teacher reward takes
the place of the verifier score under `token_level_scores`, the verifier score
is kept under another name, and `compute_advantage` hands an estimator the
tensors it selects by name.  This file follows the verifier score along that
way, for the estimator that mixes the teacher reward with a GRPO term.
-/

namespace OneShotOPD.Advantage

open CoreAlgos

variable {B T : ℕ} {Uid : Type}

/-- A reward tensor: a scalar for each token, or with a top-K axis, which is
never empty. -/
inductive Tensor (B T : ℕ) where
  | tokens (values : Grid B T)
  | candidates (last : ℕ) (values : Fin B → Fin T → Fin (last + 1) → ℝ)

namespace Tensor

/-- Multiply by a mask of shape `(bs, response_length)`, broadcast over the
top-K axis. -/
noncomputable def masked (tensor : Tensor B T) (mask : Grid B T) : Tensor B T :=
  match tensor with
  | tokens values => tokens fun row position => values row position * mask row position
  | candidates last values => candidates last fun row position candidate =>
      values row position candidate * mask row position

/-- Add a weighted tensor of shape `(bs, response_length)`, broadcast alike. -/
noncomputable def addWeighted (tensor : Tensor B T) (weight : ℝ) (term : Grid B T) :
    Tensor B T :=
  match tensor with
  | tokens values => tokens fun row position =>
      values row position + weight * term row position
  | candidates last values => candidates last fun row position candidate =>
      values row position candidate + weight * term row position

/-- Collapse the top-K axis by a sum. -/
noncomputable def sumCandidates (tensor : Tensor B T) : Grid B T :=
  match tensor with
  | tokens values => values
  | candidates _ values => fun row position =>
      ∑ candidate, values row position candidate

theorem addWeighted_inj (tensor : Tensor B T) (weight : ℝ) (left right : Grid B T) :
    tensor.addWeighted weight left = tensor.addWeighted weight right ↔
      ∀ row position, weight * left row position = weight * right row position := by
  cases tensor with
  | tokens values => simp [addWeighted, funext_iff]
  | candidates last values =>
      constructor
      · intro heq row position
        simp only [addWeighted, candidates.injEq, heq_eq_eq, true_and, funext_iff] at heq
        simpa using heq row position 0
      · intro heq
        simp [addWeighted, heq]

end Tensor

/-- The keys of the algorithm configuration that the estimator looks up. -/
structure AlgoConfig where
  normAdvByStdInGrpo : Option Bool
  grpoOutcomeWeight : Option ℝ

structure Batch (B T : ℕ) (Uid : Type) where
  tensors : Dict String (Tensor B T)
  rewardBaselines : Option (Fin B → ℝ)
  responseMask : Grid B T
  uid : Option (Fin B → Uid)

def Batch.set (batch : Batch B T Uid) (name : String) (tensor : Tensor B T) :
    Batch B T Uid :=
  { batch with tensors := batch.tensors.insert name tensor }

/-- The keyword arguments of an estimator.  `tensors` holds those that an
estimator picks from `**kwargs`. -/
structure AdvKwargs (B T : ℕ) (Uid : Type) where
  tokenLevelRewards : Tensor B T
  responseMask : Grid B T
  config : AlgoConfig
  index : Option (Fin B → Uid)
  rewardBaselines : Option (Fin B → ℝ)
  batch : Option (Dict String (Tensor B T))
  tensors : Dict String (Tensor B T)

inductive AdvantageError where
  | unknownEstimator (name : String)
  | missingArgument (name : String)
  | keyError (name : String)
  | assertion (message : String)
  deriving DecidableEq

/-! ## Estimators -/

/-- `compute_token_reward_direct_advantage`. -/
noncomputable def computeTokenRewardDirectAdvantage (tokenLevelRewards : Tensor B T)
    (responseMask : Grid B T) : Tensor B T × Tensor B T :=
  let advantages := tokenLevelRewards.masked responseMask
  (advantages, advantages)

/-- `compute_token_reward_direct_plus_grpo_advantage`. -/
noncomputable def computeTokenRewardDirectPlusGrpoAdvantage [DecidableEq Uid]
    (kwargs : AdvKwargs B T Uid) :
    Except AdvantageError (Tensor B T × Tensor B T) :=
  match kwargs.index with
  | none => .error (.missingArgument "index")
  | some index =>
      let directAdv := (computeTokenRewardDirectAdvantage kwargs.tokenLevelRewards
        kwargs.responseMask).1
      let rewardsForGrpo := ((kwargs.tensors.get? "true_token_level_scores").getD
        kwargs.tokenLevelRewards).sumCandidates
      let grpoAdv := (computeGrpoOutcomeAdvantage rewardsForGrpo kwargs.responseMask
        index grpoEpsilon (kwargs.config.normAdvByStdInGrpo.getD true)).1
      let combined :=
        directAdv.addWeighted (kwargs.config.grpoOutcomeWeight.getD 1) grpoAdv
      .ok (combined, combined)

/-- `get_adv_estimator_fn`, over the estimators that the distillation module
registers. -/
noncomputable def getAdvEstimatorFn [DecidableEq Uid] (name : String) :
    Except AdvantageError
      (AdvKwargs B T Uid → Except AdvantageError (Tensor B T × Tensor B T)) :=
  if name = "token_reward_direct" then
    .ok fun kwargs => .ok (computeTokenRewardDirectAdvantage kwargs.tokenLevelRewards
      kwargs.responseMask)
  else if name = "token_reward_direct_plus_grpo" then
    .ok computeTokenRewardDirectPlusGrpoAdvantage
  else .error (.unknownEstimator name)

/-- `data.batch[name]`. -/
def Batch.tensor (batch : Batch B T Uid) (name : String) :
    Except AdvantageError (Tensor B T) :=
  match batch.tensors.get? name with
  | some tensor => .ok tensor
  | none => .error (.keyError name)

/-- The tensors that only the optimal-baseline estimators are given. -/
def optimalBaselineTensors (estimator : String) (batch : Batch B T Uid) :
    Except AdvantageError (Dict String (Tensor B T)) :=
  if estimator = "optimal_token_baseline" ∨ estimator = "tir_optimal_token_baseline" then
    match batch.tensors.get? "sum_pi_squared" with
    | none => .error (.assertion
        "Step-dependent optimal baseline requires sum_pi_squared from actor. Please set actor.calculate_sum_pi_squared=True in config.")
    | some sumPiSquared => do
        let oldLogProbs ← batch.tensor "old_log_probs"
        let given := (Dict.empty.insert "sum_pi_squared" sumPiSquared).insert
          "old_log_probs" oldLogProbs
        match batch.tensors.get? "rollout_is_weights" with
        | none => return given
        | some weights => return given.insert "rollout_is_weights" weights
  else .ok Dict.empty

/-- The `adv_kwargs` of `compute_advantage`. -/
def advKwargs (estimator : String) (batch : Batch B T Uid) (config : AlgoConfig) :
    Except AdvantageError (AdvKwargs B T Uid) := do
  let tokenLevelRewards ← batch.tensor "token_level_rewards"
  let tensors ← optimalBaselineTensors estimator batch
  return {
    tokenLevelRewards
    responseMask := batch.responseMask
    config
    index := batch.uid
    rewardBaselines := batch.rewardBaselines
    batch := if estimator = "gdpo" then some batch.tensors else none
    tensors }

/-- `compute_advantage` for an estimator that is looked up by name. -/
noncomputable def computeAdvantage [DecidableEq Uid] (estimator : String)
    (batch : Batch B T Uid) (config : AlgoConfig) :
    Except AdvantageError (Batch B T Uid) := do
  let advEstimatorFn ← getAdvEstimatorFn estimator
  let kwargs ← advKwargs estimator batch config
  let (advantages, returns) ← advEstimatorFn kwargs
  return (batch.set "advantages" advantages).set "returns" returns

/-! ## The trainer -/

structure TeacherOutput (B T : ℕ) where
  rmScores : Tensor B T
  teacherLogProbs : Grid B T

/-- `compute_opd_token_reward`: the teacher reward displaces the verifier score,
which is kept under its own name. -/
def computeOpdTokenReward (computeRmScore : Batch B T Uid → TeacherOutput B T)
    (batch : Batch B T Uid) : Batch B T Uid :=
  let teacherOutput := computeRmScore batch
  let kept := match batch.tensors.get? "token_level_scores" with
    | some scores => batch.set "true_token_level_scores" scores
    | none => batch
  (kept.set "token_level_scores" teacherOutput.rmScores).set "teacher_log_probs"
    (.tokens teacherOutput.teacherLogProbs)

/-- The advantage phase of `fit`, with the distillation teacher and without KL
in the reward. -/
noncomputable def advantagePhase [DecidableEq Uid]
    (computeRmScore : Batch B T Uid → TeacherOutput B T) (estimator : String)
    (config : AlgoConfig) (rewardTensor : Grid B T) (batch : Batch B T Uid) :
    Except AdvantageError (Batch B T Uid) := do
  let batch := batch.set "token_level_scores" (.tokens rewardTensor)
  let batch := computeOpdTokenReward computeRmScore batch
  let tokenLevelScores ← batch.tensor "token_level_scores"
  computeAdvantage estimator (batch.set "token_level_rewards" tokenLevelScores) config

/-! ## What the estimator is given -/

section Phase

variable [DecidableEq Uid] (computeRmScore : Batch B T Uid → TeacherOutput B T)
  (config : AlgoConfig) (verifier : Grid B T) (batch : Batch B T Uid)

/-- The reward of the teacher for a batch that carries the verifier score. -/
def teacherReward : Tensor B T :=
  (computeRmScore (batch.set "token_level_scores" (.tokens verifier))).rmScores

/-- The GRPO term of a score tensor, as the configuration weighs it. -/
noncomputable def grpoTerm (index : Fin B → Uid) (scores : Grid B T) : Grid B T :=
  (computeGrpoOutcomeAdvantage scores batch.responseMask index grpoEpsilon
    (config.normAdvByStdInGrpo.getD true)).1

/-- The phase returns, and its GRPO term is built from the teacher reward: no
argument of the estimator carries the verifier score. -/
theorem advantagePhase_advantages {index : Fin B → Uid}
    (huid : batch.uid = some index) :
    ∃ result, advantagePhase computeRmScore "token_reward_direct_plus_grpo" config
        verifier batch = .ok result ∧
      result.tensors.get? "advantages" = some
        (((teacherReward computeRmScore verifier batch).masked
          batch.responseMask).addWeighted (config.grpoOutcomeWeight.getD 1)
            (grpoTerm config batch index
              (teacherReward computeRmScore verifier batch).sumCandidates)) := by
  refine ⟨_, by
    simp [advantagePhase, computeOpdTokenReward, Batch.set, Batch.tensor,
      Dict.get?_insert, computeAdvantage, getAdvEstimatorFn, advKwargs,
      optimalBaselineTensors, computeTokenRewardDirectPlusGrpoAdvantage, huid,
      bind, Except.bind, pure, Except.pure]
    rfl, ?_⟩
  simp [Dict.get?_insert, teacherReward, grpoTerm, Batch.set,
    computeTokenRewardDirectAdvantage, huid]

/-- The advantages mix the masked teacher reward with the GRPO advantage of the
verifier score. -/
def UsesVerifier (index : Fin B → Uid) : Prop :=
  ∃ result, advantagePhase computeRmScore "token_reward_direct_plus_grpo" config
      verifier batch = .ok result ∧
    result.tensors.get? "advantages" = some
      (((teacherReward computeRmScore verifier batch).masked
        batch.responseMask).addWeighted (config.grpoOutcomeWeight.getD 1)
          (grpoTerm config batch index verifier))

/-- The teacher's outcomes stand in for the verifier's: the weight is zero, or
on every response with a token they agree. -/
def OutcomesCoincide (index : Fin B → Uid) : Prop :=
  config.grpoOutcomeWeight.getD 1 = 0 ∨
    ∀ row, (∃ position, batch.responseMask row position ≠ 0) →
      OutcomesAgree (groupRows index (index row)) grpoEpsilon
        (config.normAdvByStdInGrpo.getD true)
        (outcomes (teacherReward computeRmScore verifier batch).sumCandidates)
        (outcomes verifier) row

theorem usesVerifier_iff {index : Fin B → Uid} (huid : batch.uid = some index) :
    UsesVerifier computeRmScore config verifier batch index ↔
      OutcomesCoincide computeRmScore config verifier batch index := by
  obtain ⟨result, hresult, hadvantages⟩ :=
    advantagePhase_advantages computeRmScore config verifier batch huid
  have huses : UsesVerifier computeRmScore config verifier batch index ↔
      ∀ row position,
        config.grpoOutcomeWeight.getD 1 * grpoTerm config batch index
            (teacherReward computeRmScore verifier batch).sumCandidates row position =
          config.grpoOutcomeWeight.getD 1 *
            grpoTerm config batch index verifier row position := by
    rw [← Tensor.addWeighted_inj ((teacherReward computeRmScore verifier
      batch).masked batch.responseMask)]
    constructor
    · rintro ⟨other, hother, hexpected⟩
      obtain rfl : result = other := Except.ok.inj (hresult.symm.trans hother)
      exact Option.some.inj (hadvantages.symm.trans hexpected)
    · intro heq
      exact ⟨result, hresult, by rw [hadvantages, heq]⟩
  rw [huses]
  unfold OutcomesCoincide
  by_cases hweight : config.grpoOutcomeWeight.getD 1 = 0
  · simp [hweight]
  simp only [mul_right_inj' hweight, hweight, false_or, ← normalizedScore_eq_iff _
    grpoEpsilon_pos, grpoTerm, computeGrpoOutcomeAdvantage]
  apply forall_congr'
  intro row
  constructor
  · rintro hall ⟨position, hmask⟩
    exact mul_right_cancel₀ hmask (hall position)
  · intro hagree position
    by_cases hmask : batch.responseMask row position = 0
    · simp [hmask]
    · rw [hagree ⟨position, hmask⟩]

/-- The verifier score has no influence on the advantages as long as the teacher
does not read it. -/
theorem advantages_ignore_verifier (other : Grid B T) {index : Fin B → Uid}
    (huid : batch.uid = some index)
    (hteacher : teacherReward computeRmScore verifier batch =
      teacherReward computeRmScore other batch) :
    ∃ left right,
      advantagePhase computeRmScore "token_reward_direct_plus_grpo" config verifier
        batch = .ok left ∧
      advantagePhase computeRmScore "token_reward_direct_plus_grpo" config other
        batch = .ok right ∧
      left.tensors.get? "advantages" = right.tensors.get? "advantages" := by
  obtain ⟨left, hleft, hleftAdv⟩ :=
    advantagePhase_advantages computeRmScore config verifier batch huid
  obtain ⟨right, hright, hrightAdv⟩ :=
    advantagePhase_advantages computeRmScore config other batch huid
  exact ⟨left, right, hleft, hright, by rw [hleftAdv, hrightAdv, hteacher]⟩

/-- The advantages contain the verifier's GRPO term exactly when the weight is
zero or the outcomes coincide.  Where every response has a token this means
that within each prompt the two outcomes differ by a constant, and by nothing
for a prompt with a single response. -/
theorem uses_verifier_exactly_when (index : Fin B → Uid)
    (huid : batch.uid = some index) :
    (UsesVerifier computeRmScore config verifier batch index ↔
      OutcomesCoincide computeRmScore config verifier batch index) ∧
    ((∀ row, ∃ position, batch.responseMask row position ≠ 0) →
      let teacher :=
        outcomes (teacherReward computeRmScore verifier batch).sumCandidates
      (UsesVerifier computeRmScore config verifier batch index ↔
        config.grpoOutcomeWeight.getD 1 = 0 ∨ ∀ row,
          ((groupRows index (index row)).length = 1 →
            teacher row = outcomes verifier row) ∧
          ∀ other, index other = index row →
            teacher row - outcomes verifier row =
              teacher other - outcomes verifier other)) := by
  have hiff := usesVerifier_iff computeRmScore config verifier batch huid
  refine ⟨hiff, ?_⟩
  intro htokens teacher
  rw [hiff]
  unfold OutcomesCoincide
  apply or_congr_right
  have hgroups := fun uid => @outcomesAgree_group_iff B (groupRows index uid)
    grpoEpsilon grpoEpsilon_pos (config.normAdvByStdInGrpo.getD true) teacher
    (outcomes verifier)
  simp only [mem_groupRows] at hgroups
  constructor
  · intro hagree row
    refine (hgroups (index row)).mp ?_ row rfl
    intro other hother
    rw [← hother]
    exact hagree other (htokens other)
  · intro hconstant row _
    refine (hgroups (index row)).mpr ?_ row rfl
    intro other hother
    rw [← hother]
    exact hconstant other

end Phase

/-- One response of one token, correct for the verifier and on which teacher and
student agree. -/
def solvedBatch : Batch 1 1 String where
  tensors := Dict.empty
  rewardBaselines := none
  responseMask := fun _ _ => 1
  uid := some fun _ => "prompt"

def silentTeacher (_ : Batch 1 1 String) : TeacherOutput 1 1 where
  rmScores := .tokens fun _ _ => 0
  teacherLogProbs := fun _ _ => 0

theorem solvedBatch_uses_verifier_exactly_when :
    UsesVerifier silentTeacher ⟨none, none⟩ (fun _ _ => 1) solvedBatch
        (fun _ => "prompt") ↔
      OutcomesCoincide silentTeacher ⟨none, none⟩ (fun _ _ => 1) solvedBatch
        (fun _ => "prompt") :=
  (uses_verifier_exactly_when silentTeacher ⟨none, none⟩ (fun _ _ => 1) solvedBatch
    (fun _ => "prompt") rfl).1

/-- The advantage of a solved response is not what the verifier makes it. -/
theorem solvedBatch_not_usesVerifier :
    ¬ UsesVerifier silentTeacher ⟨none, none⟩ (fun _ _ => 1) solvedBatch
      (fun _ => "prompt") := by
  rw [usesVerifier_iff _ _ _ _ rfl]
  have hgroup : (groupRows (fun _ : Fin 1 => "prompt") "prompt").length = 1 := by
    decide
  simp [OutcomesCoincide, OutcomesAgree, hgroup, solvedBatch, teacherReward,
    silentTeacher, Tensor.sumCandidates, outcomes]
end OneShotOPD.Advantage
