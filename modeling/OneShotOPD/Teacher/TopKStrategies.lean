import OneShotOPD.Teacher.TopKSupport
import Mathlib.Data.List.Sort

/-!
# Which strategies get their candidate set

The code scores the student's candidates under every strategy.  Two strategies
name subsets of them and always get the set they name; the other three get it
only where student and teacher propose the same tokens.
-/

namespace OneShotOPD.TopK

open TeacherConfig TeacherScoring ExtReal

/-! ## The reward of a scored row -/

section Worker

variable (topk : TopKFn) (vocab topK : ℕ) (strategy : TopKStrategy)
  (mode : RewardWeightMode)

/-- The parts that a teacher computes for a row give the reward of its
positions. -/
theorem rowTopKReward_positions (positions : List Position) :
    rowTopKReward strategy.name mode.name
        (positions.map (studentLogProbs topk vocab topK))
        (teacherPart topk vocab strategy.name (positions.map Position.teacher) topK
          (positions.map (studentIds topk vocab topK)) .teacherTopKLogProbs)
        (teacherPart topk vocab strategy.name (positions.map Position.teacher) topK
          (positions.map (studentIds topk vocab topK)) .studentInTeacher)
        (teacherPart topk vocab strategy.name (positions.map Position.teacher) topK
          (positions.map (studentIds topk vocab topK)) .teacherInStudent) =
      positions.mapM (positionReward topk vocab topK strategy mode) := by
  have hflat : List.zipWith (fun logits ids =>
      computeTopKTeacherLogProbs topk vocab logits ids topK strategy.name)
      (positions.map Position.teacher) (positions.map (studentIds topk vocab topK)) =
        positions.map (teacherScores topk vocab topK strategy) := by
    rw [List.zipWith_map, List.zipWith_self]
    rfl
  simp only [rowTopKReward, teacherPart, hflat, List.map_map, List.zip_map', List.mapM_map]
  rfl

variable {R : Type} {responseLogits : String → RowInputs → List Logits}
  {shard : Shard R} {routes : List String}
  {state : ScoreState (List ExtReal) PartValue}

/-- On every rank the kept buffers of a row hold what its own teacher says of
its positions, so the reward of the row is the reward of these positions. -/
theorem rowTopKReward_of_rankScored
    (hscored : RankScored (moduleForward topk vocab strategy.name responseLogits) topK
      shard routes state)
    (hused : shard.useTopK topK) {ids : List RowCandidates}
    (hids : shard.studentTopKIds = some ids) {row : ℕ} {name : String}
    {inputs : RowInputs} {positions : List Position}
    (hname : routes[row]? = some name) (hinputs : shard.rows[row]? = some inputs)
    (hcandidates : ids[row]? = some (positions.map (studentIds topk vocab topK)))
    (hlogits : responseLogits name inputs = positions.map Position.teacher) :
    ∃ part : (key : TopKKey) → PartValue key,
      (∀ key ∈ keptKeys, ∃ buffer, state.topKParts key = some buffer ∧
        buffer[row]? = some (some (part key))) ∧
      rowTopKReward strategy.name mode.name
          (positions.map (studentLogProbs topk vocab topK))
          (part .teacherTopKLogProbs) (part .studentInTeacher)
          (part .teacherInStudent) =
        positions.mapM (positionReward topk vocab topK strategy mode) := by
  refine ⟨teacherPart topk vocab strategy.name (positions.map Position.teacher) topK
    (positions.map (studentIds topk vocab topK)), ?_,
      rowTopKReward_positions topk vocab topK strategy mode positions⟩
  intro key hkey
  have hrow := hscored.topKParts_rowWise
    (moduleRowWise topk vocab strategy.name responseLogits) hused hkey hids hname hinputs
    hcandidates
  rw [← hlogits]
  exact hrow

end Worker

/-! ## Strategies and supports -/

section Strategies

variable {topk : TopKFn} {vocab topK : ℕ} {strategy : TopKStrategy}
  {mode : RewardWeightMode} {position : Position}

/-- Student and teacher propose the same tokens. -/
def SameCandidates (topk : TopKFn) (topK : ℕ) (position : Position) : Prop :=
  (topk topK position.student).toFinset = (topk topK position.teacher).toFinset

theorem namedSupport_eq_columnSupport
    (hholds : strategy = .onlyStu ∨ strategy = .intersection ∨
      SameCandidates topk topK position) :
    namedSupport topk topK strategy position =
      columnSupport topk topK strategy position := by
  have hsame : ∀ {id : ℕ}, SameCandidates topk topK position →
      (id ∈ topk topK position.student ↔ id ∈ topk topK position.teacher) := by
    intro id hsame
    rw [← List.mem_toFinset, hsame, List.mem_toFinset]
  ext id
  rcases hholds with rfl | rfl | hequal
  · simp [namedSupport, columnSupport, candidateSet, columnValid]
  · simp [namedSupport, columnSupport, candidateSet, columnValid, inTeacherTopK_iff]
  · cases strategy <;>
      simp [namedSupport, columnSupport, candidateSet, columnValid, inTeacherTopK,
        Finset.mem_symmDiff, hsame hequal]

/-- A strategy that needs a candidate of the teacher's needs the student to
propose it too. -/
theorem sameCandidates_of_supportExact (hpositive : topK ≤ vocab)
    (hstudent : IsTopK vocab topK position.student (topk topK position.student))
    (hteacher : IsTopK vocab topK position.teacher (topk topK position.teacher))
    (hexact : SupportExact topk vocab topK strategy mode position) :
    strategy = .onlyStu ∨ strategy = .intersection ∨
      SameCandidates topk topK position := by
  obtain ⟨_, _, _, _, hbuilt⟩ := hexact
  have hids : studentIds topk vocab topK position = topk topK position.student := by
    simp [studentIds, emitOpdStudentTopK, hpositive]
  have hproposed : ∀ id ∈ namedSupport topk topK strategy position,
      id ∈ topk topK position.student := by
    intro id hid
    obtain ⟨column, hcolumn, _⟩ := hbuilt.contributes id hid
    exact hids ▸ List.mem_of_getElem? hcolumn
  have hequal : (topk topK position.teacher).toFinset ⊆
      (topk topK position.student).toFinset → SameCandidates topk topK position := by
    intro hsubset
    apply (Finset.eq_of_subset_of_card_le hsubset _).symm
    rw [List.toFinset_card_of_nodup hstudent.nodup,
      List.toFinset_card_of_nodup hteacher.nodup, hstudent.length, hteacher.length]
  cases strategy with
  | onlyStu => exact .inl rfl
  | intersection => exact .inr (.inl rfl)
  | onlyTch =>
      refine .inr (.inr (hequal fun id hid => ?_))
      exact List.mem_toFinset.mpr (hproposed id hid)
  | union =>
      refine .inr (.inr (hequal fun id hid => ?_))
      exact List.mem_toFinset.mpr (hproposed id (Finset.mem_union_right _ hid))
  | unionIntersection =>
      refine .inr (.inr (hequal fun id hid => ?_))
      by_contra habsent
      exact habsent (List.mem_toFinset.mpr
        (hproposed id (Finset.mem_symmDiff.mpr (.inr ⟨hid, habsent⟩))))

/-- Over a response, every position is rewarded over the candidates that the
strategy names exactly when the strategy names candidates of the student, or
student and teacher propose the same tokens everywhere. -/
theorem response_supports_exact_iff (topk : TopKFn) {vocab topK : ℕ}
    (hpositive : 1 ≤ topK) (hvocab : topK ≤ vocab)
    (htopk : ∀ logits, IsTopK vocab topK logits (topk topK logits))
    (strategy : TopKStrategy) (mode : RewardWeightMode) (positions : List Position) :
    (∀ position ∈ positions, SupportExact topk vocab topK strategy mode position) ↔
      strategy = .onlyStu ∨ strategy = .intersection ∨
        ∀ position ∈ positions, SameCandidates topk topK position := by
  constructor
  · intro hexact
    by_cases hstudent : strategy = .onlyStu ∨ strategy = .intersection
    · exact hstudent.imp_right .inl
    · refine .inr (.inr fun position hposition => ?_)
      have hcases := sameCandidates_of_supportExact hvocab (htopk position.student)
        (htopk position.teacher) (hexact position hposition)
      tauto
  · intro hholds position hposition
    have hsupport : namedSupport topk topK strategy position =
        columnSupport topk topK strategy position := by
      apply namedSupport_eq_columnSupport
      rcases hholds with hstu | hinter | hsame
      · exact .inl hstu
      · exact .inr (.inl hinter)
      · exact .inr (.inr (hsame position hposition))
    unfold SupportExact
    rw [hsupport]
    exact positionReward_builtFrom topk vocab topK strategy mode position hpositive
      hvocab (htopk position.student).nodup

end Strategies

/-! ## A top-K function, and a failing position -/

open Classical in
/-- The first `k` tokens of the vocabulary in descending order of their
logits. -/
noncomputable def sortedTopK (vocab : ℕ) : TopKFn := fun k logits =>
  ((List.range vocab).insertionSort fun left right => logits right ≤ logits left).take k

theorem sortedTopK_isTopK {vocab k : ℕ} (hk : k ≤ vocab) (logits : Logits) :
    IsTopK vocab k logits (sortedTopK vocab k logits) := by
  classical
  set sorted := (List.range vocab).insertionSort
    fun left right => logits right ≤ logits left with hsorted
  have hperm : sorted.Perm (List.range vocab) := List.perm_insertionSort _ _
  have hnodup : sorted.Nodup := hperm.nodup_iff.mpr List.nodup_range
  have : IsTrans ℕ fun left right => logits right ≤ logits left :=
    ⟨fun _ _ _ hleft hright => hright.trans hleft⟩
  have : Std.Total fun left right : ℕ => logits right ≤ logits left :=
    ⟨fun left right => le_total _ _⟩
  have hpairwise : sorted.Pairwise fun left right => logits right ≤ logits left :=
    List.pairwise_insertionSort _ _
  have htake : sortedTopK vocab k logits = sorted.take k := rfl
  rw [htake]
  constructor
  case nodup => exact hnodup.sublist (List.take_sublist k sorted)
  case length => simp [hperm.length_eq, hk]
  case bounded =>
    intro id hid
    simpa using hperm.mem_iff.mp (List.mem_of_mem_take hid)
  case largest =>
    intro id hid other hother hleft
    have hmem : other ∈ sorted := hperm.mem_iff.mpr (by simpa using hother)
    rw [← List.take_append_drop k sorted] at hmem hpairwise
    have hdrop : other ∈ sorted.drop k :=
      (List.mem_append.mp hmem).resolve_left hleft
    exact (List.pairwise_append.mp hpairwise).2.2 id hid other hdrop

/-- Two tokens; the student prefers the first, the teacher the second. -/
def disagreement : Position where
  student := fun id => if id = 0 then 1 else 0
  teacher := fun id => if id = 1 then 1 else 0

theorem disagreement_supports_exact_iff :
    (∀ position ∈ [disagreement],
        SupportExact (sortedTopK 2) 2 1 .onlyTch .studentP position) ↔
      TopKStrategy.onlyTch = .onlyStu ∨ TopKStrategy.onlyTch = .intersection ∨
        ∀ position ∈ [disagreement], SameCandidates (sortedTopK 2) 1 position :=
  response_supports_exact_iff (sortedTopK 2) (le_refl 1) (by decide)
    (fun logits => sortedTopK_isTopK (by decide) logits) .onlyTch .studentP [disagreement]

private theorem singleton_of_isTopK {logits : Logits} {ids : List ℕ} {best : ℕ}
    (hids : IsTopK 2 1 logits ids) (hbest : best < 2)
    (hlarger : ∀ id < 2, id ≠ best → logits id < logits best) : ids = [best] := by
  obtain ⟨only, rfl⟩ := List.length_eq_one_iff.mp hids.length
  by_contra hne
  have honly : only ≠ best := fun heq => hne (by rw [heq])
  have hle := hids.largest only (by simp) best hbest (by simpa using honly.symm)
  have hlt := hlarger only (hids.bounded only (by simp)) honly
  linarith

theorem sortedTopK_disagreement_teacher : sortedTopK 2 1 disagreement.teacher = [1] := by
  apply singleton_of_isTopK (sortedTopK_isTopK (by decide) _) (by decide)
  intro id hid hne
  simp [disagreement, hne]

/-- Under `only_tch` the teacher's only candidate contributes nothing. -/
theorem disagreement_not_supportExact :
    (∀ logits, IsTopK 2 1 logits (sortedTopK 2 1 logits)) ∧
      ¬ SupportExact (sortedTopK 2) 2 1 .onlyTch .studentP disagreement := by
  have htopk := fun logits => sortedTopK_isTopK (by decide : 1 ≤ 2) logits
  have hstudent : sortedTopK 2 1 disagreement.student = [0] := by
    apply singleton_of_isTopK (htopk _) (by decide)
    intro id hid hne
    simp [disagreement, hne]
  have hteacher := sortedTopK_disagreement_teacher
  refine ⟨htopk, fun hexact => ?_⟩
  have hcases := sameCandidates_of_supportExact (by decide) (htopk _) (htopk _) hexact
  simp [SameCandidates, hstudent, hteacher] at hcases

end OneShotOPD.TopK
