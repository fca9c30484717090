import OneShotOPD.Teacher.TopKStrategies

/-!
# The weights of the top-K reward

Whatever the student proposes and the teacher thinks of it, the weights of a
position are a distribution over its valid candidates, or raw probability mass
where the strategy asks for that, and no sentinel of a masked candidate reaches
the reward.
-/

namespace OneShotOPD.TopK

open TeacherConfig TeacherScoring ExtReal

/-- Weights that are spread over the valid candidates alone, and the rewards
they lead to. -/
structure SpreadOver (valid : List Bool) (normalize : Bool)
    (weights rewards : List ExtReal) : Prop where
  aligned : weights.length = valid.length ∧ rewards.length = valid.length
  nonneg : ∀ weight ∈ weights, ∃ value : ℝ, 0 ≤ value ∧ weight = finite value
  invalid : ∀ column : ℕ, valid[column]? = some false →
    weights[column]? = some (finite 0)
  total : normalize → true ∈ valid → weights.foldr add (finite 0) = finite 1
  empty : true ∉ valid →
    (∀ weight ∈ weights, weight = finite 0) ∧ ∀ reward ∈ rewards, reward = finite 0
  bounded : ∀ reward ∈ rewards, ∃ value : ℝ, reward = finite value

section Columns

variable (ids : List ℕ) (inTeacher : ℕ → Bool) (studentLp teacherLp : ℕ → ℝ)
  (strategy : TopKStrategy) (mode : RewardWeightMode)

theorem columnWeight_nonneg (id : ℕ) :
    0 ≤ columnWeight ids inTeacher studentLp teacherLp strategy mode id := by
  unfold columnWeight
  split
  · split
    · exact div_nonneg (Real.exp_pos _).le mass_nonneg
    · exact (Real.exp_pos _).le
  · exact le_rfl

/-- A normalised weight is a share of the valid mass. -/
theorem sum_columnWeight (hnormalize : normalizes strategy) {id : ℕ} (hid : id ∈ ids)
    (hvalid : columnValid strategy inTeacher id) :
    (ids.map (columnWeight ids inTeacher studentLp teacherLp strategy mode)).sum = 1 := by
  have hshare := sum_share_mass (l := rawLogWeight mode studentLp teacherLp) hid hvalid
  have hcolumns : columnWeight ids inTeacher studentLp teacherLp strategy mode = fun id =>
      if columnValid strategy inTeacher id then
        Real.exp (rawLogWeight mode studentLp teacherLp id) /
          mass ids (columnValid strategy inTeacher) (rawLogWeight mode studentLp teacherLp)
      else 0 := by
    funext id
    simp only [columnWeight, hnormalize, if_true]
  rw [hcolumns]
  exact hshare

theorem spreadOver_columns :
    SpreadOver (ids.map (columnValid strategy inTeacher)) (normalizes strategy)
      (ids.map fun id =>
        finite (columnWeight ids inTeacher studentLp teacherLp strategy mode id))
      (ids.map fun id => finite (-(studentLp id - teacherLp id) *
        columnWeight ids inTeacher studentLp teacherLp strategy mode id)) := by
  constructor
  case aligned => simp
  case nonneg =>
    intro weight hweight
    obtain ⟨id, _, rfl⟩ := List.mem_map.mp hweight
    exact ⟨_, columnWeight_nonneg ids inTeacher studentLp teacherLp strategy mode id, rfl⟩
  case invalid =>
    intro column hcolumn
    rw [List.getElem?_map] at hcolumn ⊢
    obtain ⟨id, hid, hinvalid⟩ := Option.map_eq_some_iff.mp hcolumn
    simp [hid, columnWeight, hinvalid]
  case total =>
    intro hnormalize hsome
    obtain ⟨id, hid, hvalid⟩ := List.mem_map.mp hsome
    rw [foldr_add_finite ids fun _ _ => rfl]
    exact congrArg finite
      (sum_columnWeight ids inTeacher studentLp teacherLp strategy mode hnormalize hid hvalid)
  case empty =>
    intro hnone
    have hzero : ∀ id ∈ ids,
        columnWeight ids inTeacher studentLp teacherLp strategy mode id = 0 := by
      intro id hid
      exact if_neg fun hvalid => hnone (List.mem_map.mpr ⟨id, hid, hvalid⟩)
    constructor
    · intro weight hweight
      obtain ⟨id, hid, rfl⟩ := List.mem_map.mp hweight
      rw [hzero id hid]
    · intro reward hreward
      obtain ⟨id, hid, rfl⟩ := List.mem_map.mp hreward
      rw [hzero id hid, mul_zero]
  case bounded =>
    intro reward hreward
    obtain ⟨id, _, rfl⟩ := List.mem_map.mp hreward
    exact ⟨_, rfl⟩

end Columns

/-- Values stored along distinct ids are a function of the ids. -/
theorem exists_map_eq {α : Type} [Inhabited α] {ids : List ℕ} {values : List α}
    (hnodup : ids.Nodup) (hlength : values.length = ids.length) :
    ∃ value : ℕ → α, ids.map value = values := by
  refine ⟨fun id => values.getD (ids.idxOf id) default, ?_⟩
  apply List.ext_getElem
  · simp [hlength]
  · intro column hids hvalues
    have hcolumn : column < ids.length := by simpa using hids
    simp [hnodup.idxOf_getElem column hcolumn, hvalues]

/-- At every position the weights of the reward are non-negative, vanish on
invalid candidates, and are normalised over the valid ones where the strategy
normalises; without a valid candidate weights and rewards are zero, and every
reward is a real number.  A candidate is valid when the strategy finds it among
the teacher's tokens, or does not, or does not ask. -/
theorem computeTopKReward_spreadOver (topk : TopKFn) (vocab topK : ℕ)
    (teacherLogits : Logits) (studentIds : List ℕ) (studentLogProbs : List ℝ)
    (strategy : TopKStrategy) (mode : RewardWeightMode) (hdistinct : studentIds.Nodup)
    (hbounded : ∀ id ∈ studentIds, id < vocab)
    (hlength : studentLogProbs.length = studentIds.length) :
    ∃ weights rewards,
      topKWeights (studentLogProbs.map finite)
        (computeTopKTeacherLogProbs topk vocab teacherLogits studentIds topK
          strategy.name).logProbs
        (computeTopKTeacherLogProbs topk vocab teacherLogits studentIds topK
          strategy.name).studentInTeacher
        (computeTopKTeacherLogProbs topk vocab teacherLogits studentIds topK
          strategy.name).teacherInStudent strategy mode.name = .ok weights ∧
      computeTopKReward (studentLogProbs.map finite)
        (computeTopKTeacherLogProbs topk vocab teacherLogits studentIds topK
          strategy.name).logProbs
        (computeTopKTeacherLogProbs topk vocab teacherLogits studentIds topK
          strategy.name).studentInTeacher
        (computeTopKTeacherLogProbs topk vocab teacherLogits studentIds topK
          strategy.name).teacherInStudent strategy.name mode.name = .ok rewards ∧
      (validCandidates strategy
        (computeTopKTeacherLogProbs topk vocab teacherLogits studentIds topK
          strategy.name).studentInTeacher
        (computeTopKTeacherLogProbs topk vocab teacherLogits studentIds topK
          strategy.name).teacherInStudent).take studentIds.length =
        studentIds.map (columnValid strategy fun id => id ∈ topk topK teacherLogits) ∧
      SpreadOver (studentIds.map (columnValid strategy fun id => id ∈ topk topK teacherLogits))
        (normalizes strategy) weights rewards := by
  obtain ⟨studentLp, hstudentLp⟩ := exists_map_eq hdistinct hlength
  have hvocab : studentIds ≠ [] → 0 < vocab := by
    intro hne
    exact Nat.zero_lt_of_lt (hbounded _ (List.head_mem hne))
  obtain ⟨teacherColumn, hlogProbs, hcolumn⟩ :=
    logProbs_computeTopK topk topK teacherLogits hvocab strategy
  have hmatches : (computeTopKTeacherLogProbs topk vocab teacherLogits studentIds topK
      strategy.name).studentInTeacher = studentIds.map fun id =>
        decide (id ∈ topk topK teacherLogits) := by
    refine List.map_congr_left fun id _ => ?_
    rw [List.any_beq, List.contains_eq_mem]
  have hteacher : ∀ id ∈ studentIds, (strategy = .intersection →
      decide (id ∈ topk topK teacherLogits) = true) →
        teacherColumn id = finite (logSoftmax vocab teacherLogits id) := by
    intro id hid hin
    exact hcolumn id hid fun heq => by simpa using hin heq
  rw [hlogProbs, hmatches, ← hstudentLp, List.map_map, take_validCandidates]
  exact ⟨_, _, topKWeights_columns studentLp strategy mode _ hteacher,
    computeTopKReward_columns studentLp strategy mode _ hteacher, rfl,
    spreadOver_columns studentIds _ studentLp _ strategy mode⟩

/-- Of two candidates the teacher proposes the second, which takes all the weight of
the intersection. -/
theorem twoCandidates_spreadOver :
    ∃ weights rewards,
      topKWeights ([0, 0].map finite)
        (computeTopKTeacherLogProbs (sortedTopK 2) 2 disagreement.teacher [0, 1] 1
          TopKStrategy.intersection.name).logProbs
        (computeTopKTeacherLogProbs (sortedTopK 2) 2 disagreement.teacher [0, 1] 1
          TopKStrategy.intersection.name).studentInTeacher
        (computeTopKTeacherLogProbs (sortedTopK 2) 2 disagreement.teacher [0, 1] 1
          TopKStrategy.intersection.name).teacherInStudent .intersection
        RewardWeightMode.studentP.name = .ok weights ∧
      computeTopKReward ([0, 0].map finite)
        (computeTopKTeacherLogProbs (sortedTopK 2) 2 disagreement.teacher [0, 1] 1
          TopKStrategy.intersection.name).logProbs
        (computeTopKTeacherLogProbs (sortedTopK 2) 2 disagreement.teacher [0, 1] 1
          TopKStrategy.intersection.name).studentInTeacher
        (computeTopKTeacherLogProbs (sortedTopK 2) 2 disagreement.teacher [0, 1] 1
          TopKStrategy.intersection.name).teacherInStudent
        TopKStrategy.intersection.name RewardWeightMode.studentP.name = .ok rewards ∧
      SpreadOver [false, true] true weights rewards := by
  obtain ⟨weights, rewards, hweights, hrewards, -, hspread⟩ :=
    computeTopKReward_spreadOver (sortedTopK 2) 2 1 disagreement.teacher [0, 1] [0, 0]
      .intersection .studentP (by decide) (by decide) rfl
  have hvalid : [0, 1].map (columnValid .intersection fun id =>
      id ∈ sortedTopK 2 1 disagreement.teacher) = [false, true] := by
    rw [sortedTopK_disagreement_teacher]
    decide
  rw [hvalid] at hspread
  exact ⟨weights, rewards, hweights, hrewards, hspread⟩

end OneShotOPD.TopK
