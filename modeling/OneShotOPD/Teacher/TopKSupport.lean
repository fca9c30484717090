import OneShotOPD.Teacher.TopK
import Mathlib.Data.Finset.SymmDiff
import Mathlib.Data.Finset.Card
import Mathlib.Algebra.BigOperators.Group.Finset.Basic

/-!
# The support set of the top-K reward

A strategy names a candidate set: the student's top-K tokens, the teacher's, or
a combination.  This file says what a reward built over exactly that set is, and
for which pairs of distributions the code builds it.  The columns of the code's
tensors are always the student's candidates.
-/

namespace OneShotOPD.TopK

open TeacherConfig TeacherScoring ExtReal

/-! ## The reward over a candidate set -/

/-- The candidate set that a strategy names. -/
def candidateSet (strategy : TopKStrategy) (student teacher : Finset ℕ) : Finset ℕ :=
  match strategy with
  | .onlyStu => student
  | .onlyTch => teacher
  | .intersection => student ∩ teacher
  | .union => student ∪ teacher
  | .unionIntersection => symmDiff student teacher

/-- The log-weight of a token. -/
def rawLogWeight (mode : RewardWeightMode) (studentLp teacherLp : ℕ → ℝ) (id : ℕ) : ℝ :=
  match mode with
  | .studentP => studentLp id
  | .teacherP => teacherLp id
  | .none => 0

/-- The weight of a member of the candidate set.  The symmetric difference keeps
raw probability mass, every other set is normalised as a whole. -/
noncomputable def supportWeight (strategy : TopKStrategy) (mode : RewardWeightMode)
    (studentLp teacherLp : ℕ → ℝ) (support : Finset ℕ) (id : ℕ) : ℝ :=
  if normalizes strategy then
    Real.exp (rawLogWeight mode studentLp teacherLp id) /
      ∑ other ∈ support, Real.exp (rawLogWeight mode studentLp teacherLp other)
  else Real.exp (rawLogWeight mode studentLp teacherLp id)

/-- Weights and rewards, one for each column of `ids`, that are built from
exactly the candidates in `support`. -/
structure BuiltFrom (support : Finset ℕ) (weight gain : ℕ → ℝ) (ids : List ℕ)
    (weights rewards : List ExtReal) : Prop where
  contributes : ∀ id ∈ support, ∃ column : ℕ, ids[column]? = some id ∧
    weights[column]? = some (finite (weight id)) ∧
      rewards[column]? = some (finite (gain id * weight id))
  nothingElse : ∀ (column : ℕ) (id : ℕ), ids[column]? = some id → id ∉ support →
    weights[column]? = some (finite 0) ∧ rewards[column]? = some (finite 0)

/-! ## The columns of the code -/

/-- The log-softmax of logits. -/
noncomputable def logSoftmax (vocab : ℕ) (logits : Logits) (id : ℕ) : ℝ :=
  logits id - Real.log ((List.range vocab).map fun other => Real.exp (logits other)).sum

theorem sub_logDenom {vocab : ℕ} (hvocab : 0 < vocab) (logits : Logits) (id : ℕ) :
    (finite (logits id)).sub (logDenom vocab logits) =
      finite (logSoftmax vocab logits id) := by
  have hrange : List.range vocab ≠ [] := by simp [hvocab.ne']
  rw [logDenom, logSumExp_finite hrange, sub_finite, logSoftmax]

/-- Whether the code counts a student candidate as valid. -/
def columnValid (strategy : TopKStrategy) (inTeacher : ℕ → Bool) (id : ℕ) : Bool :=
  match strategy with
  | .onlyStu | .onlyTch | .union => true
  | .intersection => inTeacher id
  | .unionIntersection => !inTeacher id

/-- The slice of the validity mask is about the student's candidates alone. -/
theorem take_validCandidates (strategy : TopKStrategy) (ids : List ℕ)
    (inTeacher : ℕ → Bool) (teacherInStudent : List Bool) :
    (validCandidates strategy (ids.map inTeacher) teacherInStudent).take ids.length =
      ids.map (columnValid strategy inTeacher) := by
  cases strategy with
  | onlyStu | onlyTch =>
      rw [validCandidates, List.take_of_length_le (by simp), List.map_map]
      rfl
  | intersection =>
      rw [validCandidates, List.take_of_length_le (by simp)]
      rfl
  | union | unionIntersection =>
      rw [validCandidates, List.take_append_of_le_length (by simp),
        List.take_of_length_le (by simp), List.map_map]
      rfl

section Columns

variable {ids : List ℕ} {inTeacher : ℕ → Bool} {teacherLp : ℕ → ℝ}
  {teacherColumn : ℕ → ExtReal} (studentLp : ℕ → ℝ) (strategy : TopKStrategy)
  (mode : RewardWeightMode) (teacherInStudent : List Bool)

/-- The weight that the code gives a column. -/
noncomputable def columnWeight (ids : List ℕ) (inTeacher : ℕ → Bool)
    (studentLp teacherLp : ℕ → ℝ) (strategy : TopKStrategy) (mode : RewardWeightMode)
    (id : ℕ) : ℝ :=
  if columnValid strategy inTeacher id then
    if normalizes strategy then
      Real.exp (rawLogWeight mode studentLp teacherLp id) /
        mass ids (columnValid strategy inTeacher) (rawLogWeight mode studentLp teacherLp)
    else Real.exp (rawLogWeight mode studentLp teacherLp id)
  else 0

theorem columnValid_inTeacher {id : ℕ} (hvalid : columnValid strategy inTeacher id) :
    strategy = .intersection → inTeacher id := by
  rintro rfl
  exact hvalid

variable (hteacher : ∀ id ∈ ids, (strategy = .intersection → inTeacher id) →
  teacherColumn id = finite (teacherLp id))

include hteacher in
theorem modeLogProbs_columns :
    ∃ column : ℕ → ExtReal,
      modeLogProbs mode (ids.map fun id => finite (studentLp id))
        (ids.map teacherColumn) = ids.map column ∧
      ∀ id ∈ ids, columnValid strategy inTeacher id →
        column id = finite (rawLogWeight mode studentLp teacherLp id) := by
  cases mode with
  | studentP => exact ⟨_, rfl, fun _ _ _ => rfl⟩
  | teacherP =>
      exact ⟨_, rfl, fun id hid hvalid =>
        hteacher id hid (columnValid_inTeacher strategy hvalid)⟩
  | none =>
      exact ⟨fun _ => finite 0, by simp [modeLogProbs, Function.comp_def],
        fun _ _ _ => rfl⟩

include hteacher in
theorem topKWeights_columns :
    topKWeights (ids.map fun id => finite (studentLp id)) (ids.map teacherColumn)
        (ids.map inTeacher) teacherInStudent strategy mode.name =
      .ok (ids.map fun id =>
        finite (columnWeight ids inTeacher studentLp teacherLp strategy mode id)) := by
  obtain ⟨column, hmode, hvalid⟩ :=
    modeLogProbs_columns studentLp strategy mode hteacher
  have hmasked : List.zipWith
      (fun valid logProb => if valid then logProb else negInf)
      (ids.map (columnValid strategy inTeacher)) (ids.map column) =
        ids.map (maskOut (columnValid strategy inTeacher) column) := by
    rw [List.zipWith_map, List.zipWith_self]
    rfl
  have htake : (validCandidates strategy (ids.map inTeacher) teacherInStudent).take
      (ids.map fun id => finite (studentLp id)).length =
        ids.map (columnValid strategy inTeacher) := by
    rw [List.length_map]
    exact take_validCandidates strategy ids inTeacher teacherInStudent
  simp only [topKWeights, htake, computeRewardWeights, RewardWeightMode.ofName?_name,
    hmode, hmasked, List.map_map, Except.ok.injEq]
  apply List.map_congr_left
  intro id hid
  simp only [Function.comp_apply, columnWeight]
  cases normalizes strategy with
  | true =>
      simp only [if_true]
      exact normalized_maskOut hvalid hid
  | false =>
      simp only [Bool.false_eq_true, if_false]
      exact unnormalized_maskOut hvalid hid

include hteacher in
/-- The reward of a column is its log-prob difference times its weight. -/
theorem computeTopKReward_columns :
    computeTopKReward (ids.map fun id => finite (studentLp id)) (ids.map teacherColumn)
        (ids.map inTeacher) teacherInStudent strategy.name mode.name =
      .ok (ids.map fun id => finite (-(studentLp id - teacherLp id) *
        columnWeight ids inTeacher studentLp teacherLp strategy mode id)) := by
  have hweights := topKWeights_columns studentLp strategy mode teacherInStudent hteacher
  have hzip : List.zipWith sub (ids.map fun id => finite (studentLp id))
      (ids.map teacherColumn) =
        ids.map fun id => (finite (studentLp id)).sub (teacherColumn id) := by
    rw [List.zipWith_map, List.zipWith_self]
  simp only [computeTopKReward, TopKStrategy.ofName?_name, hweights, hzip, bind,
    Except.bind, pure, Except.pure, Except.ok.injEq]
  by_cases hstrategy : strategy = .intersection
  · subst hstrategy
    rw [if_pos rfl]
    simp only [validCandidates, List.zipWith_map, List.zipWith_self]
    apply List.map_congr_left
    intro id hid
    by_cases hin : inTeacher id
    · simp [hin, hteacher id hid fun _ => hin]
    · simp [hin, columnWeight, columnValid]
  · rw [if_neg hstrategy]
    simp only [List.zipWith_map, List.zipWith_self]
    apply List.map_congr_left
    intro id hid
    simp [hteacher id hid fun heq => absurd heq hstrategy]

/-- When the named set is the set of valid columns, the code builds its reward
from exactly that set. -/
theorem builtFrom_columns (teacherLp : ℕ → ℝ) (hnodup : ids.Nodup) {support : Finset ℕ}
    (hsupport : ∀ id, id ∈ support ↔ id ∈ ids ∧ columnValid strategy inTeacher id) :
    BuiltFrom support (supportWeight strategy mode studentLp teacherLp support)
      (fun id => -(studentLp id - teacherLp id)) ids
      (ids.map fun id =>
        finite (columnWeight ids inTeacher studentLp teacherLp strategy mode id))
      (ids.map fun id => finite (-(studentLp id - teacherLp id) *
        columnWeight ids inTeacher studentLp teacherLp strategy mode id)) := by
  have hmass : mass ids (columnValid strategy inTeacher)
      (rawLogWeight mode studentLp teacherLp) =
        ∑ id ∈ support, Real.exp (rawLogWeight mode studentLp teacherLp id) := by
    have hfilter : support =
        ids.toFinset.filter fun id => columnValid strategy inTeacher id := by
      ext id
      simp [hsupport]
    rw [hfilter, Finset.sum_filter, mass, List.sum_toFinset _ hnodup]
  constructor
  case contributes =>
    intro id hid
    obtain ⟨hmem, hvalid⟩ := (hsupport id).mp hid
    obtain ⟨column, hcolumn⟩ := List.mem_iff_getElem?.mp hmem
    have hweight : columnWeight ids inTeacher studentLp teacherLp strategy mode id =
        supportWeight strategy mode studentLp teacherLp support id := by
      rw [columnWeight, if_pos hvalid, supportWeight, hmass]
    exact ⟨column, hcolumn, by simp [hcolumn, hweight], by simp [hcolumn, hweight]⟩
  case nothingElse =>
    intro column id hcolumn hid
    have hinvalid : ¬ columnValid strategy inTeacher id := fun hvalid =>
      hid ((hsupport id).mpr ⟨List.mem_of_getElem? hcolumn, hvalid⟩)
    simp [hcolumn, columnWeight, hinvalid]

end Columns

/-- The maximum over the matches of a candidate is its own logit. -/
theorem foldr_max_matches (logits : Logits) (id : ℕ) (tIds : List ℕ) :
    (tIds.map fun tId => if id = tId then finite (logits tId) else negInf).foldr
        ExtReal.max negInf =
      if id ∈ tIds then finite (logits id) else negInf := by
  induction tIds with
  | nil => simp
  | cons tId tIds ih =>
      rw [List.map_cons, List.foldr_cons, ih]
      by_cases hhead : id = tId
      · subst hhead
        by_cases htail : id ∈ tIds
        · simp [htail, ExtReal.max]
        · simp [htail]
      · simp [hhead]

/-- The teacher's column holds its log-prob of the student's candidates, except
for the intersection, where candidates that the teacher does not share hold
minus infinity. -/
theorem logProbs_computeTopK (topk : TopKFn) {vocab : ℕ} (topK : ℕ) (logits : Logits)
    {ids : List ℕ} (hvocab : ids ≠ [] → 0 < vocab) (strategy : TopKStrategy) :
    ∃ teacherColumn : ℕ → ExtReal,
      (computeTopKTeacherLogProbs topk vocab logits ids topK strategy.name).logProbs =
        ids.map teacherColumn ∧
      ∀ id ∈ ids, (strategy = .intersection → id ∈ topk topK logits) →
        teacherColumn id = finite (logSoftmax vocab logits id) := by
  have hdenom : ∀ id ∈ ids, (finite (logits id)).sub (logDenom vocab logits) =
      finite (logSoftmax vocab logits id) := fun id hid =>
    sub_logDenom (hvocab (List.ne_nil_of_mem hid)) logits id
  by_cases hstrategy : strategy = .intersection
  · refine ⟨fun id => (((topk topK logits).map fun tId =>
      if id = tId then finite (logits tId) else negInf).foldr ExtReal.max negInf).sub
        (logDenom vocab logits), ?_, ?_⟩
    · simp [computeTopKTeacherLogProbs, hstrategy]
    · intro id hid hmem
      simp only [foldr_max_matches, hmem hstrategy, if_true]
      exact hdenom id hid
  · refine ⟨fun id => (finite (logits id)).sub (logDenom vocab logits), ?_,
      fun id hid _ => hdenom id hid⟩
    have hname : strategy.name ≠ TopKStrategy.intersection.name := by
      intro heq
      apply hstrategy
      have hof := congrArg TopKStrategy.ofName? heq
      simpa using hof
    simp [computeTopKTeacherLogProbs, hname]

/-! ## One position -/

/-- The logits of student and teacher in front of one response token. -/
structure Position where
  student : Logits
  teacher : Logits

section Position

variable (topk : TopKFn) (vocab topK : ℕ) (strategy : TopKStrategy)
  (mode : RewardWeightMode) (position : Position)

noncomputable def studentIds : List ℕ := (emitOpdStudentTopK topk vocab topK position.student).1

noncomputable def studentLogProbs : List ExtReal :=
  (emitOpdStudentTopK topk vocab topK position.student).2

noncomputable def teacherScores : TeacherTopK :=
  computeTopKTeacherLogProbs topk vocab position.teacher
    (studentIds topk vocab topK position) topK strategy.name

/-- The weights behind the reward of a position. -/
noncomputable def positionWeights : Except Message (List ExtReal) :=
  topKWeights (studentLogProbs topk vocab topK position)
    (teacherScores topk vocab topK strategy position).logProbs
    (teacherScores topk vocab topK strategy position).studentInTeacher
    (teacherScores topk vocab topK strategy position).teacherInStudent strategy mode.name

noncomputable def positionReward : Except Message (List ExtReal) :=
  computeTopKReward (studentLogProbs topk vocab topK position)
    (teacherScores topk vocab topK strategy position).logProbs
    (teacherScores topk vocab topK strategy position).studentInTeacher
    (teacherScores topk vocab topK strategy position).teacherInStudent strategy.name
    mode.name

/-- The candidates that the strategy names at a position. -/
def namedSupport : Finset ℕ :=
  candidateSet strategy (topk topK position.student).toFinset
    (topk topK position.teacher).toFinset

/-- The reward of a position is built from exactly the named candidates. -/
def SupportExact : Prop :=
  ∃ weights rewards, positionWeights topk vocab topK strategy mode position =
      .ok weights ∧
    positionReward topk vocab topK strategy mode position = .ok rewards ∧
    BuiltFrom (namedSupport topk topK strategy position)
      (supportWeight strategy mode (logSoftmax vocab position.student)
        (logSoftmax vocab position.teacher) (namedSupport topk topK strategy position))
      (fun id => -(logSoftmax vocab position.student id -
        logSoftmax vocab position.teacher id))
      (studentIds topk vocab topK position) weights rewards

/-- Whether a token is among the teacher's own candidates. -/
def inTeacherTopK (id : ℕ) : Bool :=
  (topk topK position.teacher).any fun tId => id == tId

theorem inTeacherTopK_iff (id : ℕ) :
    inTeacherTopK topk topK position id ↔ id ∈ topk topK position.teacher := by
  simp [inTeacherTopK]

theorem studentLogProbs_eq (hvocab : 0 < vocab) :
    studentLogProbs topk vocab topK position =
      (studentIds topk vocab topK position).map fun id =>
        finite (logSoftmax vocab position.student id) := by
  simp [studentLogProbs, studentIds, emitOpdStudentTopK, sub_logDenom hvocab]

/-- The columns are valid candidates exactly of the set below, whatever the
strategy is named after. -/
def columnSupport : Finset ℕ :=
  (topk topK position.student).toFinset.filter fun id =>
    columnValid strategy (inTeacherTopK topk topK position) id

theorem positionReward_builtFrom (hpositive : 1 ≤ topK) (hvocab : topK ≤ vocab)
    (hnodup : (topk topK position.student).Nodup) :
    ∃ weights rewards, positionWeights topk vocab topK strategy mode position =
        .ok weights ∧
      positionReward topk vocab topK strategy mode position = .ok rewards ∧
      BuiltFrom (columnSupport topk topK strategy position)
        (supportWeight strategy mode (logSoftmax vocab position.student)
          (logSoftmax vocab position.teacher)
          (columnSupport topk topK strategy position))
        (fun id => -(logSoftmax vocab position.student id -
          logSoftmax vocab position.teacher id))
        (studentIds topk vocab topK position) weights rewards := by
  have hvocabPos : 0 < vocab := by omega
  have hids : studentIds topk vocab topK position = topk topK position.student := by
    simp [studentIds, emitOpdStudentTopK, hvocab]
  obtain ⟨teacherColumn, hlogProbs, hcolumn⟩ :=
    logProbs_computeTopK topk topK position.teacher
      (fun _ => hvocabPos) strategy
  have hteacher : ∀ id ∈ studentIds topk vocab topK position,
      (strategy = .intersection → inTeacherTopK topk topK position id) →
        teacherColumn id = finite (logSoftmax vocab position.teacher id) :=
    fun id hid hin => hcolumn id hid fun heq =>
      (inTeacherTopK_iff topk topK position id).mp (hin heq)
  have hsupport : ∀ id, id ∈ columnSupport topk topK strategy position ↔
      id ∈ studentIds topk vocab topK position ∧
        columnValid strategy (inTeacherTopK topk topK position) id := by
    intro id
    simp [columnSupport, hids]
  have hbuilt := builtFrom_columns (logSoftmax vocab position.student) strategy mode
    (logSoftmax vocab position.teacher) (hids ▸ hnodup) hsupport
  refine ⟨_, _, ?_, ?_, hbuilt⟩
  · rw [positionWeights, studentLogProbs_eq topk vocab topK position hvocabPos,
      teacherScores, hlogProbs]
    exact topKWeights_columns _ strategy mode _ hteacher
  · rw [positionReward, studentLogProbs_eq topk vocab topK position hvocabPos,
      teacherScores, hlogProbs]
    exact computeTopKReward_columns _ strategy mode _ hteacher

end Position

end OneShotOPD.TopK
