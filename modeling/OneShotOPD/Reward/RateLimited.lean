import OneShotOPD.Core.Dict
import OneShotOPD.Core.Jagged

/-!
# Rate-limited rewards of a batch

Every row is scored on its own, and scoring may end in a number, a dictionary, a timeout or an
exception.  The rewards are written into one tensor, and what the rows report is collected key
by key.
-/

namespace OneShotOPD.RateLimited

open Checks

variable {α V : Type} [Zero α] [One α]

/-- A value of a dictionary that a scorer returns. -/
inductive Value (α V : Type)
  | number (x : α)
  | flag (value : Bool)
  | text (value : String)
  | other (value : V)

/-- The conversion of an assignment to the reward tensor. -/
def Value.toScore : Value α V → Except String α
  | .number x => .ok x
  | .flag value => .ok (if value then 1 else 0)
  | .text _ => .error "TypeError: can't assign a str to a torch.FloatTensor"
  | .other _ => .error "TypeError: can't assign an object to a torch.FloatTensor"

abbrev Info (α V : Type) := Dict String (Value α V)

/-- How the scoring of a row ends. -/
inductive Scoring (α V : Type)
  | number (score : α)
  | dictionary (result : Info α V)
  | timeout
  | failed (message : String)

/-- What a failure reports. -/
def failure (message : String) : Value α V × Info α V :=
  (.number 0, (Dict.empty.insert "error" (.text message)).insert "acc" (.number 0))

/-- `run_single`: the reward and what it reports.  A dictionary without a score raises the
`KeyError` that the handler of exceptions catches. -/
def runSingle : Scoring α V → Value α V × Info α V
  | .number score => (.number score, Dict.empty.insert "acc" (.number score))
  | .dictionary result =>
      match result.get? "score" with
      | some score => (score, result)
      | none => failure "'score'"
  | .timeout =>
      (.number 0, (Dict.empty.insert "timeout" (.flag true)).insert "acc" (.number 0))
  | .failed message => failure message

structure Row (α V : Type) where
  attentionMask : List Bool
  scoring : Scoring α V

structure Report (α V : Type) where
  rewardTensor : List (List α)
  rewardExtraInfo : Dict String (List (Value α V))

/-- A batch, whose responses all have the length of the response tensor.  It may come with
scores. -/
structure Batch (α V : Type) where
  responseLength : ℕ
  rows : List (Row α V)
  length_mask : ∀ row ∈ rows, responseLength ≤ row.attentionMask.length
  rmScores : Option (Report α V)

/-- `attention_mask[-response_length:]`. -/
def responseMask (responseLength : ℕ) (row : Row α V) : List Bool :=
  if responseLength = 0 then row.attentionMask
  else row.attentionMask.drop (row.attentionMask.length - responseLength)

def validResponseLength (responseLength : ℕ) (row : Row α V) : ℕ :=
  (responseMask responseLength row).count true

/-- `row[index] = value`, where a negative index counts from the end. -/
def assignAt (row : List α) (index : ℤ) (value : α) : Except String (List α) :=
  let position := if index < 0 then index + row.length else index
  if 0 ≤ position ∧ position < row.length then .ok (row.set position.toNat value)
  else .error "IndexError: index is out of bounds"

/-- The row of the reward tensor after the assignment. -/
def rewardRow (responseLength : ℕ) (row : Row α V) (reward : Value α V) : Except String (List α) :=
  do
    let score ← reward.toScore
    assignAt (List.replicate responseLength 0) (validResponseLength responseLength row - 1) score

def call (batch : Batch α V) : Except String (Report α V) :=
  match batch.rmScores with
  | some report => .ok report
  | none => do
      let rewardTensor ← batch.rows.mapM fun row =>
        rewardRow batch.responseLength row (runSingle row.scoring).1
      return ⟨rewardTensor, Dict.collect
        (batch.rows.flatMap fun row => (runSingle row.scoring).2.entries)⟩

/-! ## Alignment -/

/-- The last position where a mask is set. -/
def lastValid : List Bool → Option ℕ
  | [] => none
  | valid :: mask =>
      match lastValid mask with
      | some position => some (position + 1)
      | none => if valid then some 0 else none

/-- A row that is zero but for the reward at one position, if there is one. -/
def placedAt (responseLength : ℕ) (position : Option ℕ) (score : α) : List α :=
  (List.range responseLength).map fun index => if position = some index then score else 0

/-- A report whose lists have an entry for each row, that of the row, and whose tensor has the
reward of each row at its last valid response position only. -/
structure Aligned (batch : Batch α V) (report : Report α V) : Prop where
  columns : ∀ entry ∈ report.rewardExtraInfo.entries,
    entry.2.map some = batch.rows.map fun row => (runSingle row.scoring).2.get? entry.1
  rewards : report.rewardTensor.map Except.ok = batch.rows.map fun row =>
    (runSingle row.scoring).1.toScore.map
      (placedAt batch.responseLength (lastValid (responseMask batch.responseLength row)))

/-- A response that is filled from the left. -/
def RightPadded (mask : List Bool) : Prop :=
  ∃ valid padding, mask = List.replicate valid true ++ List.replicate padding false

/-- The score of an outcome, which is zero unless the scorer gave one. -/
def Scoring.score : Scoring α V → Except String α
  | .number score => .ok score
  | .dictionary result =>
      match result.get? "score" with
      | some score => score.toScore
      | none => .ok 0
  | .timeout => .ok 0
  | .failed _ => .ok 0

/-- The keys that an outcome reports. -/
def Scoring.keys : Scoring α V → List String
  | .number _ => ["acc"]
  | .dictionary result => if "score" ∈ result.keys then result.keys else ["error", "acc"]
  | .timeout => ["timeout", "acc"]
  | .failed _ => ["error", "acc"]

theorem toScore_runSingle (scoring : Scoring α V) :
    (runSingle scoring).1.toScore = scoring.score := by
  cases scoring with
  | number score => rfl
  | dictionary result =>
      rw [runSingle, Scoring.score]
      cases result.get? "score" <;> rfl
  | timeout => rfl
  | failed message => rfl

omit [One α] in
theorem keys_runSingle (scoring : Scoring α V) :
    (runSingle scoring).2.keys = scoring.keys := by
  cases scoring with
  | number score => rfl
  | dictionary result =>
      rw [runSingle, Scoring.keys]
      cases hscore : result.get? "score" with
      | none =>
          rw [if_neg ((Dict.get?_eq_none_iff _ _).mp hscore)]
          rfl
      | some score =>
          rw [if_pos]
          rw [← Dict.get?_isSome_iff, hscore]
          rfl
  | timeout => rfl
  | failed message => rfl

end OneShotOPD.RateLimited
