import OneShotOPD.Trainer.MultiTrajectories

/-!
# What validation collects

A validation run takes the final output of every session of a batch as one sample and keeps a
list for each thing that samples report: the score under the built-in key and one list for
each key of the reward extra information.  A key that appears late is filled up with blanks
for the samples before it, and a sample that does not report a known key adds a blank.
-/

namespace OneShotOPD.Validation

open Checks Latest MultiTrajectories

/-- A value that a reward function reports next to the score. -/
inductive Info
  | num (value : ℚ)
  | str (text : String)
  deriving DecidableEq

/-- An entry of a collected list, which may be `None`. -/
abbrev Entry := Option Info

/-- The `extra_fields` of an output. -/
inductive ExtraField
  | dict (rewardExtraInfo : Option (Dict String Info))
  | other

/-- `extra_field.get("reward_extra_info", {}) if isinstance(extra_field, dict) else {}`. -/
def ExtraField.rewardExtraInfo : ExtraField → Dict String Info
  | .dict info => info.getD Dict.empty
  | .other => Dict.empty

/-- The fields of one output in the transfer queue. -/
structure Row where
  uid : String
  rmScores : List ℚ
  dataSource : String
  extraField : ExtraField

/-! ## The final output of each session -/

/-- The session key and the index that `key.rsplit("_", 2)` gives, if there are three parts. -/
def parseSession (key : String) : Except String (Option (String × ℤ)) :=
  match splitLast key with
  | none => .ok none
  | some (front, index) =>
      match splitLast front with
      | none => .ok none
      | some (uid, sessionId) =>
          match parseInt index with
          | none => .error "ValueError: invalid literal for int() with base 10"
          | some index => .ok (some (uid ++ "_" ++ sessionId, index))

def updateSessionMax (sessionMax : Dict String (ℤ × ℕ)) (entry : String × ℕ) :
    Except String (Dict String (ℤ × ℕ)) := do
  match ← parseSession entry.1 with
  | some (sessionKey, index) => return keepLatest sessionMax (sessionKey, index, entry.2)
  | none => return sessionMax.insert entry.1 (0, entry.2)

/-- `final_indices`. -/
def finalIndices (keys : List String) : Except String (List ℕ) := do
  let sessionMax ← keys.zipIdx.foldlM updateSessionMax Dict.empty
  let sortedSessions := sessionMax.entries.mergeSort fun left right => left.2.2 ≤ right.2.2
  return sortedSessions.map fun entry => entry.2.2

/-- A batch of outputs.  The optional columns are there for all rows or for none. -/
structure ValBatch where
  rows : List (String × Row)
  hasDataSource : Bool
  hasExtraFields : Bool
  parsed : ∀ row ∈ rows, ∃ session, parseSession row.1 = .ok session

def ValBatch.keys (batch : ValBatch) : List String := batch.rows.map Prod.fst

/-- The fields that are read for the final outputs. -/
structure ValData where
  uid : List String
  rmScores : List (List ℚ)
  dataSource : Option (List String)
  extraFields : Option (List ExtraField)

/-- `tq.kv_batch_get(keys=final_keys, ...)`. -/
def ValBatch.kvBatchGet (batch : ValBatch) (rows : List Row) : ValData where
  uid := rows.map Row.uid
  rmScores := rows.map Row.rmScores
  dataSource := if batch.hasDataSource then some (rows.map Row.dataSource) else none
  extraFields := if batch.hasExtraFields then some (rows.map Row.extraField) else none

/-! ## The loop over the batches -/

structure Collected where
  sampleUids : List String
  sampleScores : List ℚ
  dataSources : List String
  rewardExtraInfosDict : Dict String (List Entry)

def Collected.start : Collected := ⟨[], [], [], Dict.empty⟩

/-- Known keys that the sample does not report get a blank, except the built-in one. -/
def padMissing (rewardExtraInfo : Dict String Info) (infos : Dict String (List Entry)) :
    Dict String (List Entry) :=
  infos.mapWithKey fun key values =>
    if key ≠ "reward" ∧ key ∉ rewardExtraInfo.keys then values ++ [none] else values

/-- A reported value, after blanks for the samples before if the key is new. -/
def appendReported (nPrior : ℕ) (infos : Dict String (List Entry)) (entry : String × Info) :
    Dict String (List Entry) :=
  let infos := if entry.1 ∈ infos.keys then infos
    else infos.insert entry.1 (List.replicate nPrior none)
  infos.insert entry.1 (infos.getD entry.1 [] ++ [some entry.2])

def addSample (state : Dict String (List Entry) × ℕ) (extraField : ExtraField) :
    Dict String (List Entry) × ℕ :=
  let info := extraField.rewardExtraInfo
  (info.entries.foldl (appendReported state.2) (padMissing info state.1), state.2 + 1)

/-- The built-in list after the scores of a batch. -/
def extendRewards (infos : Dict String (List Entry)) (scores : List ℚ) :
    Dict String (List Entry) :=
  infos.insert "reward" (infos.getD "reward" [] ++ scores.map fun score => some (.num score))

def extendInfos (infos : Dict String (List Entry)) (data : ValData) :
    Dict String (List Entry) :=
  let infos := extendRewards infos (data.rmScores.map List.sum)
  match data.extraFields with
  | none => infos
  | some extraFieldsList =>
      (extraFieldsList.foldl addSample
        (infos, (infos.getD "reward" []).length - extraFieldsList.length)).1

/-- One round of `_validate`. -/
def validateBatch (state : Collected) (batch : ValBatch) : Except String Collected := do
  let finalIndices ← finalIndices batch.keys
  let data := batch.kvBatchGet ((finalIndices.filterMap (batch.rows[·]?)).map Prod.snd)
  return {
    sampleUids := state.sampleUids ++ data.uid
    sampleScores := state.sampleScores ++ data.rmScores.map List.sum
    dataSources := state.dataSources ++
      data.dataSource.getD (List.replicate finalIndices.length "unknown")
    rewardExtraInfosDict := extendInfos state.rewardExtraInfosDict data }

def collectBatches (batches : List ValBatch) : Except String Collected :=
  batches.foldlM validateBatch Collected.start

/-! ## Samples -/

/-- A final output with what it reports. -/
structure Sample where
  uid : String
  dataSource : String
  score : ℚ
  rewardExtraInfo : Dict String Info

/-- The value of a sample under a key of the collected lists. -/
def Sample.value (sample : Sample) (key : String) : Entry :=
  if key = "reward" then some (.num sample.score) else sample.rewardExtraInfo.get? key

def ValBatch.sample (batch : ValBatch) (row : Row) : Sample where
  uid := row.uid
  dataSource := if batch.hasDataSource then row.dataSource else "unknown"
  score := row.rmScores.sum
  rewardExtraInfo :=
    if batch.hasExtraFields then row.extraField.rewardExtraInfo else Dict.empty

/-- The positions of the final outputs. -/
def ValBatch.positions (batch : ValBatch) : List ℕ :=
  (finalIndices batch.keys).toOption.getD []

def ValBatch.finalRows (batch : ValBatch) : List Row :=
  (batch.positions.filterMap (batch.rows[·]?)).map Prod.snd

def ValBatch.samples (batch : ValBatch) : List Sample := batch.finalRows.map batch.sample

def samplesOf (batches : List ValBatch) : List Sample := batches.flatMap ValBatch.samples

end OneShotOPD.Validation
