import OneShotOPD.Core.Dict
import OneShotOPD.Core.SampleStats
import OneShotOPD.Core.Literals
import Mathlib

/-!
# The GRPO outcome advantage

Every response has one scalar outcome, the sum of its token rewards, which is
standardised within the responses to the same prompt.  Tensors hold exact
reals.
-/

namespace OneShotOPD.CoreAlgos

open SampleStats

variable {B T : ℕ} {Uid : Type} [DecidableEq Uid]

/-- A tensor of shape `(bs, response_length)`. -/
abbrev Grid (B T : ℕ) := Fin B → Fin T → ℝ

/-- The outcome of each response. -/
noncomputable def outcomes (tokenLevelRewards : Grid B T) (row : Fin B) : ℝ :=
  ∑ position, tokenLevelRewards row position

/-- The outcomes of each prompt, in batch order. -/
def id2score (index : Fin B → Uid) (scores : Fin B → ℝ) : Dict Uid (List ℝ) :=
  Dict.collect ((List.finRange B).map fun row => (index row, scores row))

/-- A prompt with a single response keeps its outcome. -/
noncomputable def id2mean : List ℝ → ℝ
  | [_] => 0
  | scores => mean scores

noncomputable def id2std : List ℝ → ℝ
  | [_] => 1
  | scores => std scores

noncomputable def normalizedScore (index : Fin B → Uid) (epsilon : ℝ)
    (normAdvByStdInGrpo : Bool) (scores : Fin B → ℝ) (row : Fin B) : ℝ :=
  let group := (id2score index scores).getD (index row) []
  if normAdvByStdInGrpo then
    (scores row - id2mean group) / (id2std group + epsilon)
  else scores row - id2mean group

/-- `compute_grpo_outcome_advantage`: advantages and returns. -/
noncomputable def computeGrpoOutcomeAdvantage (tokenLevelRewards responseMask : Grid B T)
    (index : Fin B → Uid) (epsilon : ℝ) (normAdvByStdInGrpo : Bool) :
    Grid B T × Grid B T :=
  let scores := fun row position =>
    normalizedScore index epsilon normAdvByStdInGrpo (outcomes tokenLevelRewards) row *
      responseMask row position
  (scores, scores)

attribute [local instance] Literals.atLeastTwo_ten in
/-- The default of the `epsilon` argument. -/
noncomputable def grpoEpsilon : ℝ := 1 / 10 ^ 6

theorem grpoEpsilon_pos : 0 < grpoEpsilon := by
  unfold grpoEpsilon
  positivity

/-- The responses to one prompt. -/
def groupRows (index : Fin B → Uid) (uid : Uid) : List (Fin B) :=
  (List.finRange B).filter fun row => index row = uid

theorem mem_groupRows {index : Fin B → Uid} {uid : Uid} {row : Fin B} :
    row ∈ groupRows index uid ↔ index row = uid := by
  simp [groupRows]

/-- A dictionary that is filled row by row. -/
theorem getD_collect_rows {α : Type} (index : Fin B → Uid) (values : Fin B → α) (uid : Uid) :
    (Dict.collect ((List.finRange B).map fun row => (index row, values row))).getD uid [] =
      (groupRows index uid).map values := by
  simp [Dict.getD_collect, groupRows, List.filter_map, Function.comp_def]

theorem getD_id2score (index : Fin B → Uid) (scores : Fin B → ℝ) (uid : Uid) :
    (id2score index scores).getD uid [] = (groupRows index uid).map scores :=
  getD_collect_rows index scores uid

/-- Two outcomes of a response that lead to the same advantage, told from the
outcomes of all responses to its prompt. -/
def OutcomesAgree (group : List (Fin B)) (epsilon : ℝ) (normAdvByStdInGrpo : Bool)
    (left right : Fin B → ℝ) (row : Fin B) : Prop :=
  if group.length = 1 then left row = right row
  else if normAdvByStdInGrpo then
    centered group left row * (std (group.map right) + epsilon) =
      centered group right row * (std (group.map left) + epsilon)
  else centered group left row = centered group right row

theorem id2mean_of_length_ne {scores : List ℝ} (hlength : scores.length ≠ 1) :
    id2mean scores = mean scores := by
  unfold id2mean
  split
  next => exact absurd rfl hlength
  next => rfl

theorem id2std_of_length_ne {scores : List ℝ} (hlength : scores.length ≠ 1) :
    id2std scores = std scores := by
  unfold id2std
  split
  next => exact absurd rfl hlength
  next => rfl

theorem normalizedScore_singleton (index : Fin B → Uid) {epsilon : ℝ}
    (normAdvByStdInGrpo : Bool) (scores : Fin B → ℝ) {row : Fin B}
    (hsingle : (groupRows index (index row)).length = 1) :
    normalizedScore index epsilon normAdvByStdInGrpo scores row =
      if normAdvByStdInGrpo then scores row / (1 + epsilon) else scores row := by
  obtain ⟨other, hgroup⟩ := List.length_eq_one_iff.mp hsingle
  simp [normalizedScore, getD_id2score, hgroup, id2mean, id2std]

theorem normalizedScore_group (index : Fin B → Uid) {epsilon : ℝ}
    (normAdvByStdInGrpo : Bool) (scores : Fin B → ℝ) {row : Fin B}
    (hgroup : (groupRows index (index row)).length ≠ 1) :
    normalizedScore index epsilon normAdvByStdInGrpo scores row =
      if normAdvByStdInGrpo then
        centered (groupRows index (index row)) scores row /
          (std ((groupRows index (index row)).map scores) + epsilon)
      else centered (groupRows index (index row)) scores row := by
  have hmap : ((groupRows index (index row)).map scores).length ≠ 1 := by
    simpa using hgroup
  simp [normalizedScore, getD_id2score, id2mean_of_length_ne hmap, id2std_of_length_ne hmap,
    centered]

theorem normalizedScore_eq_iff (index : Fin B → Uid) {epsilon : ℝ}
    (hepsilon : 0 < epsilon) (normAdvByStdInGrpo : Bool) (left right : Fin B → ℝ)
    (row : Fin B) :
    normalizedScore index epsilon normAdvByStdInGrpo left row =
        normalizedScore index epsilon normAdvByStdInGrpo right row ↔
      OutcomesAgree (groupRows index (index row)) epsilon normAdvByStdInGrpo left
        right row := by
  unfold OutcomesAgree
  by_cases hsingle : (groupRows index (index row)).length = 1
  · have hone : 1 + epsilon ≠ 0 := by positivity
    simp only [hsingle, if_true, normalizedScore_singleton _ _ _ hsingle]
    cases normAdvByStdInGrpo with
    | true => simp [div_left_inj' hone]
    | false => simp
  · simp only [hsingle, if_false, normalizedScore_group _ _ _ hsingle]
    cases normAdvByStdInGrpo with
    | true =>
        have hpos : ∀ scores : Fin B → ℝ,
            std ((groupRows index (index row)).map scores) + epsilon ≠ 0 := by
          intro scores
          have hstd := std_nonneg ((groupRows index (index row)).map scores)
          positivity
        simp [div_eq_div_iff (hpos left) (hpos right)]
    | false => simp

/-- Over a whole prompt the outcomes agree when they differ by a constant, and
by nothing for a single response. -/
theorem outcomesAgree_group_iff {group : List (Fin B)} {epsilon : ℝ}
    (hepsilon : 0 < epsilon) (normAdvByStdInGrpo : Bool) (left right : Fin B → ℝ) :
    (∀ row ∈ group,
        OutcomesAgree group epsilon normAdvByStdInGrpo left right row) ↔
      ∀ row ∈ group, (group.length = 1 → left row = right row) ∧
        ∀ other ∈ group, left row - right row = left other - right other := by
  by_cases hsingle : group.length = 1
  · obtain ⟨only, rfl⟩ := List.length_eq_one_iff.mp hsingle
    simp [OutcomesAgree]
  · have hcentered : (∀ row ∈ group,
        OutcomesAgree group epsilon normAdvByStdInGrpo left right row) ↔
          ∀ row ∈ group, centered group left row = centered group right row := by
      simp only [OutcomesAgree, hsingle, if_false]
      cases normAdvByStdInGrpo with
      | false => simp
      | true =>
          simp only [if_true]
          constructor
          · intro hstandardized row hrow
            have hlength := List.length_pos_of_mem hrow
            exact centered_eq_of_standardized hepsilon (by omega) hstandardized row
              hrow
          · intro hcentered row hrow
            rw [hcentered row hrow, std_congr hcentered]
    rw [hcentered, centered_eq_iff]
    simp [hsingle]

end OneShotOPD.CoreAlgos
