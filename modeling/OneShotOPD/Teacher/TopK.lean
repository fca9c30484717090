import OneShotOPD.Core.ExtReal
import OneShotOPD.Teacher.Config
import OneShotOPD.Teacher.Scored

/-!
# The top-K distillation reward

At every response position the student proposes its K most likely tokens, the
teacher scores them, and the differences of the log-probs are weighted into a
reward.  A strategy says which candidates the reward is built over.  The functions
are given for one position.  Logits are functions of the token id, tokens are the
numbers below the vocabulary size, and arithmetic is exact.
-/

namespace OneShotOPD.TopK

open TeacherConfig TeacherScoring ExtReal

abbrev Logits := ℕ → ℝ

/-- `torch.topk(logits, k)` along the vocabulary, as token ids. -/
abbrev TopKFn := ℕ → Logits → List ℕ

/-- What `torch.topk` promises: `k` distinct tokens, and none that is left out
has a larger logit.  How ties are broken is left open. -/
structure IsTopK (vocab k : ℕ) (logits : Logits) (ids : List ℕ) : Prop where
  nodup : ids.Nodup
  length : ids.length = k
  bounded : ∀ id ∈ ids, id < vocab
  largest : ∀ id ∈ ids, ∀ other < vocab, other ∉ ids → logits other ≤ logits id

/-- `torch.logsumexp(logits, dim=-1)`. -/
noncomputable def logDenom (vocab : ℕ) (logits : Logits) : ExtReal :=
  logSumExp ((List.range vocab).map fun id => finite (logits id))

noncomputable def emitOpdStudentTopK (topk : TopKFn) (vocab topK : ℕ)
    (logits : Logits) : List ℕ × List ExtReal :=
  let topKIds := topk (min topK vocab) logits
  (topKIds, topKIds.map fun id => (finite (logits id)).sub (logDenom vocab logits))

structure TeacherTopK where
  logProbs : List ExtReal
  teacherTopKIds : List ℕ
  teacherLogProbs : List ExtReal
  studentInTeacher : List Bool
  teacherInStudent : List Bool

noncomputable def computeTopKTeacherLogProbs (topk : TopKFn) (vocab : ℕ)
    (logits : Logits) (studentIds : List ℕ) (topK : ℕ) (strategy : String) :
    TeacherTopK :=
  let tIds := topk topK logits
  { logProbs :=
      if strategy = TopKStrategy.intersection.name then
        studentIds.map fun id =>
          ((tIds.map fun tId =>
              if id = tId then finite (logits tId) else negInf).foldr ExtReal.max
            negInf).sub (logDenom vocab logits)
      else studentIds.map fun id => (finite (logits id)).sub (logDenom vocab logits)
    teacherTopKIds := tIds
    teacherLogProbs := tIds.map fun id =>
      (finite (logits id)).sub (logDenom vocab logits)
    studentInTeacher := studentIds.map fun id => tIds.any fun tId => id == tId
    teacherInStudent := tIds.map fun tId => studentIds.any fun id => id == tId }

/-- The log-probs that weigh the candidates. -/
def modeLogProbs (mode : RewardWeightMode) (studentLogProbs teacherLogProbs :
    List ExtReal) : List ExtReal :=
  match mode with
  | .studentP => studentLogProbs
  | .teacherP => teacherLogProbs
  | .none => studentLogProbs.map fun _ => finite 0

noncomputable def computeRewardWeights (studentLogProbs teacherLogProbs : List ExtReal)
    (validMask : List Bool) (weightMode : String) (normalize : Bool) :
    Except Message (List ExtReal) :=
  match RewardWeightMode.ofName? weightMode with
  | none => .error [.text "[OPD] unknown reward_weight_mode: ", .str weightMode]
  | some mode =>
      let masked := List.zipWith
        (fun valid logProb => if valid then logProb else negInf) validMask
        (modeLogProbs mode studentLogProbs teacherLogProbs)
      .ok <| masked.map fun logProb =>
        if normalize then (logProb.sub (logSumExp masked)).exp.nanToNum
        else logProb.exp.nanToNum

/-- `valid` of `compute_top_k_reward`.  For the two union strategies it covers
the student's candidates and then the teacher's. -/
def validCandidates (strategy : TopKStrategy) (studentInTeacher teacherInStudent :
    List Bool) : List Bool :=
  match strategy with
  | .onlyStu | .onlyTch => studentInTeacher.map fun _ => true
  | .intersection => studentInTeacher
  | .union => (studentInTeacher.map fun _ => true) ++ teacherInStudent.map not
  | .unionIntersection => studentInTeacher.map not ++ teacherInStudent.map not

def normalizes : TopKStrategy → Bool
  | .unionIntersection => false
  | _ => true

/-- The weights that `compute_top_k_reward` uses: the mask is cut back to the
student's candidates. -/
noncomputable def topKWeights (studentLogProbs teacherLogProbs : List ExtReal)
    (studentInTeacher teacherInStudent : List Bool) (strategy : TopKStrategy)
    (weightMode : String) : Except Message (List ExtReal) :=
  computeRewardWeights studentLogProbs teacherLogProbs
    ((validCandidates strategy studentInTeacher teacherInStudent).take
      studentLogProbs.length) weightMode (normalizes strategy)

noncomputable def computeTopKReward (studentLogProbs teacherLogProbs : List ExtReal)
    (studentInTeacher teacherInStudent : List Bool) (strategy weightMode : String) :
    Except Message (List ExtReal) :=
  match TopKStrategy.ofName? strategy with
  | none => .error [.text "[OPD] unknown top_k_strategy: ", .str strategy]
  | some known => do
      let kl := List.zipWith sub studentLogProbs teacherLogProbs
      let kl := if known = .intersection then
          List.zipWith (fun valid kl => if valid then kl else finite 0)
            (validCandidates known studentInTeacher teacherInStudent) kl
        else kl
      let weights ← topKWeights studentLogProbs teacherLogProbs studentInTeacher
        teacherInStudent known weightMode
      return List.zipWith (fun kl weight => kl.neg.mul weight) kl weights

/-! ## The worker -/

/-- The values of the top-K keys for one row: a list over its positions. -/
def PartValue : TopKKey → Type
  | .teacherTopKLogProbs | .teacherOwnTopKLogProbs => List (List ExtReal)
  | .teacherTopKIds => List (List ℕ)
  | .studentInTeacher | .teacherInStudent => List (List Bool)

section Worker

variable (topk : TopKFn) (vocab : ℕ) (strategy : String)

/-- What a forward adds for one row, from the logits that precede its response
tokens. -/
noncomputable def teacherPart (logits : List Logits) (topK : ℕ)
    (candidates : RowCandidates) : (key : TopKKey) → PartValue key :=
  let flat := List.zipWith (fun logits ids =>
    computeTopKTeacherLogProbs topk vocab logits ids topK strategy) logits candidates
  fun
  | .teacherTopKLogProbs => flat.map TeacherTopK.logProbs
  | .teacherTopKIds => flat.map TeacherTopK.teacherTopKIds
  | .studentInTeacher => flat.map TeacherTopK.studentInTeacher
  | .teacherInStudent => flat.map TeacherTopK.teacherInStudent
  | .teacherOwnTopKLogProbs => flat.map TeacherTopK.teacherLogProbs

/-- `_forward_micro_batch` of modules that treat the rows of a batch
independently.  `responseLogits` gives the logits in front of each response
token, divided by the teacher temperature. -/
noncomputable def moduleForward (responseLogits : String → RowInputs → List Logits)
    (name : String) (batch : MicroBatch) : ForwardOut (List ExtReal) PartValue where
  teacherLogProbs := batch.rows.map fun row =>
    List.zipWith (fun logits token => (finite (logits token)).sub (logDenom vocab logits))
      (responseLogits name row) row.responses
  topK := fun key =>
    if 0 < batch.topK then
      batch.studentTopKIds.map fun ids =>
        List.zipWith (fun row candidates =>
          teacherPart topk vocab strategy (responseLogits name row) batch.topK candidates
            key) batch.rows ids
    else none

/-- Such modules score row by row. -/
noncomputable def moduleRowWise (responseLogits : String → RowInputs → List Logits) :
    RowWise (moduleForward topk vocab strategy responseLogits) where
  logProb name row :=
    List.zipWith (fun logits token => (finite (logits token)).sub (logDenom vocab logits))
      (responseLogits name row) row.responses
  part key name topK row candidates :=
    teacherPart topk vocab strategy (responseLogits name row) topK candidates key
  teacherLogProbs_eq _ _ := rfl
  topK_eq name batch ids key hpos hids := by
    simp [moduleForward, hpos, hids]

/-- The part of `compute_rm_score` that builds the top-K reward of one row from
the kept buffers. -/
noncomputable def rowTopKReward (weightMode : String)
    (studentLogProbs teacherLogProbs : List (List ExtReal))
    (studentInTeacher teacherInStudent : List (List Bool)) :
    Except Message (List (List ExtReal)) :=
  ((studentLogProbs.zip teacherLogProbs).zip
      (studentInTeacher.zip teacherInStudent)).mapM fun position =>
    computeTopKReward position.1.1 position.1.2 position.2.1 position.2.2 strategy
      weightMode

end Worker

end OneShotOPD.TopK
