import OneShotOPD.Algos.Rloo
import OneShotOPD.Algos.Whitening
import Mathlib.Data.List.Sort

/-!
# Further advantage estimators

The estimators of the registry that look at the tokens of a row, at the outcomes
of a prompt, or at the whole batch.
-/

namespace OneShotOPD.CoreAlgos

open Checks SampleStats

variable {B T : ℕ} {Uid : Type} [DecidableEq Uid]

/-! ## Recursions over the tokens -/

/-- The state of the loop of GAE, with the advantages of the positions seen. -/
structure GaeState where
  nextvalues : ℝ
  lastgaelam : ℝ
  advantages : List ℝ

noncomputable def gaeStep (gamma lam : ℝ) (rewards values mask : Fin T → ℝ) (t : Fin T)
    (state : GaeState) : GaeState :=
  let delta := rewards t + gamma * state.nextvalues - values t
  let lastgaelamNew := delta + gamma * lam * state.lastgaelam
  -- observation tokens are skipped
  let lastgaelam := lastgaelamNew * mask t + (1 - mask t) * state.lastgaelam
  { nextvalues := values t * mask t + (1 - mask t) * state.nextvalues
    lastgaelam
    advantages := lastgaelam :: state.advantages }

/-- The loop over the positions of one row, from the last to the first. -/
noncomputable def gaeRow (gamma lam : ℝ) (rewards values mask : Fin T → ℝ) : List ℝ :=
  ((List.finRange T).foldr (gaeStep gamma lam rewards values mask) ⟨0, 0, []⟩).advantages

/-- `compute_gae_advantage_return`: advantages and returns. -/
noncomputable def computeGaeAdvantageReturn (tokenLevelRewards values responseMask : Grid B T)
    (gamma lam : ℝ) : Except String (Grid B T × Grid B T) := do
  let advantages : Grid B T := fun row position =>
    (gaeRow gamma lam (tokenLevelRewards row) (values row) (responseMask row)).getD position 0
  let returns := fun row position => advantages row position + values row position
  let whitened ← maskedWhiten advantages responseMask
  return (whitened, returns)

structure ReturnState where
  runningReturn : ℝ
  returns : List ℝ

noncomputable def returnStep (gamma : ℝ) (rewards mask : Fin T → ℝ) (t : Fin T)
    (state : ReturnState) : ReturnState :=
  let newRunningReturn := rewards t + gamma * state.runningReturn
  { runningReturn := newRunningReturn * mask t + state.runningReturn * (1 - mask t)
    returns := newRunningReturn * mask t :: state.returns }

noncomputable def returnRow (gamma : ℝ) (rewards mask : Fin T → ℝ) : List ℝ :=
  ((List.finRange T).foldr (returnStep gamma rewards mask) ⟨0, []⟩).returns

/-- `compute_reinforce_plus_plus_outcome_advantage`: advantages and returns. -/
noncomputable def computeReinforcePlusPlusOutcomeAdvantage
    (tokenLevelRewards responseMask : Grid B T) (gamma : ℝ) :
    Except String (Grid B T × Grid B T) := do
  let returns : Grid B T := fun row position =>
    (returnRow gamma (tokenLevelRewards row) (responseMask row)).getD position 0
  let advantages ← maskedWhiten returns responseMask
  return (fun row position => advantages row position * responseMask row position, returns)

/-! ## Outcomes of a prompt -/

/-- The outcome less the mean of its prompt, where a single response has mean
zero. -/
noncomputable def meanBaseline (index : Fin B → Uid) (scores : Fin B → ℝ) (row : Fin B) : ℝ :=
  scores row - id2mean ((id2score index scores).getD (index row) [])

/-- `compute_reinforce_plus_plus_baseline_outcome_advantage`: advantages and
returns. -/
noncomputable def computeReinforcePlusPlusBaselineOutcomeAdvantage
    (tokenLevelRewards responseMask : Grid B T) (index : Fin B → Uid) :
    Except String (Grid B T × Grid B T) := do
  let tiled : Grid B T := fun row position =>
    meanBaseline index (outcomes tokenLevelRewards) row * responseMask row position
  let whitened ← maskedWhiten tiled responseMask
  let scores := fun row position => whitened row position * responseMask row position
  return (scores, scores)

/-- The mean of the outcomes of a prompt, weighted by length. -/
noncomputable def id2bsl : List (ℝ × ℝ) → ℝ
  | [_] => 0
  | responses =>
      (responses.map fun response => response.1 * response.2).sum /
        (responses.map Prod.fst).sum

noncomputable def opoScore (index : Fin B → Uid) (lengths scores : Fin B → ℝ) (row : Fin B) :
    ℝ :=
  let id2response :=
    Dict.collect ((List.finRange B).map fun row => (index row, (lengths row, scores row)))
  scores row - id2bsl (id2response.getD (index row) [])

/-- `compute_opo_outcome_advantage`: advantages and returns. -/
noncomputable def computeOpoOutcomeAdvantage (tokenLevelRewards responseMask : Grid B T)
    (index : Fin B → Uid) : Grid B T × Grid B T :=
  let scores := fun row position =>
    opoScore index (outcomes responseMask) (outcomes tokenLevelRewards) row *
      responseMask row position
  (scores, scores)

/-- One prompt of the loop of Pass@k.  Of several largest rewards any one may
come first; its advantage is zero then. -/
noncomputable def passkStep [ToString Uid] (normAdvByStdInGrpo : Bool) (epsilon : ℝ)
    (id2indices : Dict Uid (List (Fin B))) (advantages : Fin B → ℝ)
    (entry : Uid × List ℝ) : Except String (Fin B → ℝ) := do
  let rewards := entry.2
  raiseIf (rewards.length < 2)
    ("Pass@k requires at least 2 samples per group. Got " ++ toString rewards.length ++
      " for group " ++ toString entry.1 ++ ".")
  let topk := rewards.insertionSort (· ≥ ·)
  let rMax := topk.getD 0 0
  let rSecondMax := topk.getD 1 0
  let advantage :=
    if normAdvByStdInGrpo then (rMax - rSecondMax) / (std rewards + epsilon)
    else rMax - rSecondMax
  return match (id2indices.getD entry.1 [])[rewards.idxOf rMax]? with
    | some iMax => Function.update advantages iMax advantage
    | none => advantages

noncomputable def passkScores [ToString Uid] (index : Fin B → Uid) (scores : Fin B → ℝ)
    (epsilon : ℝ) (normAdvByStdInGrpo : Bool) : Except String (Fin B → ℝ) :=
  let id2indices := Dict.collect ((List.finRange B).map fun row => (index row, row))
  (id2score index scores).entries.foldlM (passkStep normAdvByStdInGrpo epsilon id2indices)
    fun _ => 0

/-- `compute_grpo_passk_outcome_advantage`: advantages and returns. -/
noncomputable def computeGrpoPasskOutcomeAdvantage [ToString Uid]
    (tokenLevelRewards responseMask : Grid B T) (index : Fin B → Uid) (epsilon : ℝ)
    (normAdvByStdInGrpo : Bool) : Except String (Grid B T × Grid B T) := do
  let scores ← passkScores index (outcomes tokenLevelRewards) epsilon normAdvByStdInGrpo
  let advantages := fun row position => scores row * responseMask row position
  return (advantages, advantages)

/-! ## The whole batch -/

/-- `bsz / m.clamp(min=1)`, with the number `m` of nonzero outcomes. -/
noncomputable def gpgAlpha (scores : Fin B → ℝ) : ℝ :=
  B / (max ((List.finRange B).countP fun row => scores row ≠ 0) 1 : ℕ)

/-- `compute_gpg_outcome_advantage`: advantages and returns. -/
noncomputable def computeGpgOutcomeAdvantage (tokenLevelRewards responseMask : Grid B T)
    (index : Fin B → Uid) (fNorm : ℝ) : Grid B T × Grid B T :=
  let rewards := outcomes tokenLevelRewards
  let scores := fun row position =>
    gpgAlpha rewards * meanBaseline index rewards row / fNorm * responseMask row position
  (scores, scores)

end OneShotOPD.CoreAlgos
