import OneShotOPD.Algos.Grpo
import OneShotOPD.Core.Unique
import Mathlib.Algebra.Order.Field.Basic

/-!
# The RLOO outcome advantage

The outcome of a response is compared with the mean of the other responses to the
same prompt.  One implementation collects the outcomes in dictionaries, and the other
one counts and adds with `bincount`.  They differ for a response that is alone.
-/

namespace OneShotOPD.CoreAlgos

variable {K : Type} [Field K] [LinearOrder K] {B T : ℕ} {Uid : Type}

/-- The outcome of each response. -/
def outcomeSums (tokenLevelRewards : Fin B → Fin T → K) (row : Fin B) : K :=
  ∑ position, tokenLevelRewards row position

/-- The mean of the outcomes of a prompt, in the loop. -/
def rlooId2mean : List K → K
  | [_] => 0
  | scores => scores.sum / scores.length

def rlooScore [DecidableEq Uid] (index : Fin B → Uid) (scores : Fin B → K) (row : Fin B) : K :=
  let id2score := Dict.collect ((List.finRange B).map fun row => (index row, scores row))
  let group := id2score.getD (index row) []
  let responseNum : K := group.length
  if 1 < group.length then
    scores row * responseNum / (responseNum - 1) -
      rlooId2mean group * responseNum / (responseNum - 1)
  else scores row

/-- `compute_rloo_outcome_advantage`: advantages and returns. -/
def computeRlooOutcomeAdvantage [DecidableEq Uid]
    (tokenLevelRewards responseMask : Fin B → Fin T → K)
    (index : Fin B → Uid) : (Fin B → Fin T → K) × (Fin B → Fin T → K) :=
  let scores := fun row position =>
    rlooScore index (outcomeSums tokenLevelRewards) row * responseMask row position
  (scores, scores)

/-- `torch.bincount(inv, weights)`. -/
def bincount (inv : Fin B → ℕ) (weights : Fin B → K) (bin : ℕ) : K :=
  (((List.finRange B).filter fun row => inv row = bin).map weights).sum

def rlooVectorizedScore [LinearOrder Uid] (index : Fin B → Uid) (scores : Fin B → K)
    (row : Fin B) : K :=
  let inv := uniqueInverse index
  let c := bincount inv (fun _ => 1) (inv row)
  (c * scores row - bincount inv scores (inv row)) / max (c - 1) 1 * if 1 < c then 1 else 0

/-- `compute_rloo_vectorized_outcome_advantage`: advantages and returns. -/
def computeRlooVectorizedOutcomeAdvantage [LinearOrder Uid]
    (tokenLevelRewards responseMask : Fin B → Fin T → K) (index : Fin B → Uid) :
    (Fin B → Fin T → K) × (Fin B → Fin T → K) :=
  let adv := fun row position =>
    rlooVectorizedScore index (outcomeSums tokenLevelRewards) row * responseMask row position
  (adv, adv)

section Scores

variable [LinearOrder Uid] (index : Fin B → Uid) (scores : Fin B → K) {row : Fin B}

omit [LinearOrder K] in
/-- A bin holds the responses to one prompt. -/
theorem bincount_uniqueInverse (weights : Fin B → K) (row : Fin B) :
    bincount (uniqueInverse index) weights (uniqueInverse index row) =
      ((groupRows index (index row)).map weights).sum := by
  simp only [bincount, groupRows, uniqueInverse_eq_iff]

omit [LinearOrder K] in
theorem bincount_one (row : Fin B) :
    bincount (uniqueInverse index) (fun _ => (1 : K)) (uniqueInverse index row) =
      (groupRows index (index row)).length := by
  rw [bincount_uniqueInverse]
  simp

omit [LinearOrder K] in
theorem rlooScore_of_alone (halone : (groupRows index (index row)).length = 1) :
    rlooScore index scores row = scores row := by
  simp [rlooScore, getD_collect_rows, halone]

variable [IsStrictOrderedRing K]

theorem rlooVectorizedScore_of_alone (halone : (groupRows index (index row)).length = 1) :
    rlooVectorizedScore index scores row = 0 := by
  simp [rlooVectorizedScore, bincount_one, halone]

/-- Both are the distance from the mean of the others. -/
theorem rlooScore_eq_vectorized (hgroup : 2 ≤ (groupRows index (index row)).length) :
    rlooScore index scores row = rlooVectorizedScore index scores row := by
  set group := groupRows index (index row) with hrows
  have hcast : (2 : K) ≤ group.length := by exact_mod_cast hgroup
  have hpred : (1 : K) ≤ group.length - 1 := by linarith
  have hmean : rlooId2mean (group.map scores) = (group.map scores).sum / group.length := by
    unfold rlooId2mean
    split
    next heq =>
      have hlength := congrArg List.length heq
      simp only [List.length_map, List.length_singleton] at hlength
      omega
    next => rw [List.length_map]
  have hn : (group.length : K) ≠ 0 := by linarith
  have hn' : (group.length : K) - 1 ≠ 0 := by linarith
  have hone : (1 : K) < group.length := by linarith
  simp only [rlooScore, getD_collect_rows, rlooVectorizedScore, bincount_one, ← hrows,
    List.length_map, hmean]
  rw [bincount_uniqueInverse, ← hrows, if_pos (by omega), if_pos hone, max_eq_left hpred, mul_one]
  field_simp

end Scores

/-- Both implementations agree on every response with a sibling.  A response that is
alone keeps its outcome in the loop, and has no advantage in the vectorised one. -/
theorem rloo_eq_vectorized [IsStrictOrderedRing K] [LinearOrder Uid]
    (tokenLevelRewards responseMask : Fin B → Fin T → K) (index : Fin B → Uid) (row : Fin B)
    (position : Fin T) :
    (2 ≤ (groupRows index (index row)).length →
      (computeRlooOutcomeAdvantage tokenLevelRewards responseMask index).1 row position =
          (computeRlooVectorizedOutcomeAdvantage tokenLevelRewards responseMask index).1 row
            position ∧
        (computeRlooOutcomeAdvantage tokenLevelRewards responseMask index).2 row position =
          (computeRlooVectorizedOutcomeAdvantage tokenLevelRewards responseMask index).2 row
            position) ∧
    ((groupRows index (index row)).length = 1 →
      ((computeRlooOutcomeAdvantage tokenLevelRewards responseMask index).1 row position =
            outcomeSums tokenLevelRewards row * responseMask row position ∧
          (computeRlooVectorizedOutcomeAdvantage tokenLevelRewards responseMask index).1 row
            position = 0) ∧
        (computeRlooOutcomeAdvantage tokenLevelRewards responseMask index).2 row position =
            outcomeSums tokenLevelRewards row * responseMask row position ∧
          (computeRlooVectorizedOutcomeAdvantage tokenLevelRewards responseMask index).2 row
            position = 0) := by
  refine ⟨fun hgroup => ?_, fun halone => ?_⟩
  · have hscore := rlooScore_eq_vectorized index (outcomeSums tokenLevelRewards) hgroup
    simp only [computeRlooOutcomeAdvantage, computeRlooVectorizedOutcomeAdvantage, hscore,
      and_self]
  · simp only [computeRlooOutcomeAdvantage, computeRlooVectorizedOutcomeAdvantage,
      rlooScore_of_alone _ _ halone, rlooVectorizedScore_of_alone _ _ halone, zero_mul, and_self]

/-- Two responses to one prompt, with outcomes one and zero. -/
def siblingRewards : Fin 2 → Fin 1 → ℚ := fun row _ => if row = 0 then 1 else 0

theorem siblings_rloo_eq_vectorized :
    (computeRlooOutcomeAdvantage siblingRewards (fun _ _ => 1) fun _ => (0 : ℕ)).1 0 0 =
        (computeRlooVectorizedOutcomeAdvantage siblingRewards (fun _ _ => 1)
          fun _ => (0 : ℕ)).1 0 0 ∧
      (computeRlooOutcomeAdvantage siblingRewards (fun _ _ => 1) fun _ => (0 : ℕ)).2 0 0 =
        (computeRlooVectorizedOutcomeAdvantage siblingRewards (fun _ _ => 1)
          fun _ => (0 : ℕ)).2 0 0 :=
  (rloo_eq_vectorized siblingRewards (fun _ _ => 1) (fun _ => (0 : ℕ)) 0 0).1 (by decide)

/-- One response with outcome one. -/
theorem rloo_ne_vectorized :
    computeRlooOutcomeAdvantage (fun _ _ => 1 : Fin 1 → Fin 1 → ℚ) (fun _ _ => 1)
        (fun _ => (0 : ℕ)) ≠
      computeRlooVectorizedOutcomeAdvantage (fun _ _ => 1) (fun _ _ => 1) fun _ => 0 := by
  intro heq
  have halone : (groupRows (fun _ : Fin 1 => (0 : ℕ)) 0).length = 1 := rfl
  have hentry := congrFun (congrFun (congrArg Prod.fst heq) 0) 0
  simp [computeRlooOutcomeAdvantage, computeRlooVectorizedOutcomeAdvantage,
    rlooScore_of_alone _ _ halone, rlooVectorizedScore_of_alone _ _ halone, outcomeSums] at hentry

end OneShotOPD.CoreAlgos
