import OneShotOPD.DynamicCp.Scheduler
import OneShotOPD.Core.Dict
import Mathlib.Data.List.Sort

/-!
# Collecting the outputs of dynamic context parallelism

One rank of every context-parallel group reports the outputs of its
micro-batches.  The records of all ranks are gathered, must hold every sample
once, and are put back into the order of the samples.
-/

namespace OneShotOPD.DynamicCp

open Checks

variable {ρ τ ℓ μ : Type}

/-- A value of `model_output`: a tensor, as the list of its parts for the samples,
or something else. -/
inductive OutputValue (τ : Type) where
  | tensor (parts : List τ)
  | other (typeName : String)

def OutputValue.parts : OutputValue τ → List τ
  | .tensor parts => parts
  | .other _ => []

/-- What a forward step returns; a metric that is no list counts as a list of
one. -/
structure StepOutput (τ ℓ μ : Type) where
  loss : Option ℓ
  metrics : Dict String (List μ)
  modelOutput : Dict String (OutputValue τ)

/-- The output of a micro-batch. -/
structure MicroOutput (τ ℓ μ : Type) extends StepOutput τ ℓ μ where
  sampleIds : List ℤ
  groupLeader : Bool

/-- What a group leader reports. -/
structure Record (τ ℓ μ : Type) where
  sampleIds : List ℤ
  loss : Option ℓ
  metrics : Dict String (List μ)
  modelOutput : Dict String (List τ)

/-- What the collection returns. -/
structure Collected (τ ℓ μ : Type) where
  modelOutput : Dict String (List τ)
  loss : List ℓ
  metrics : Dict String (List μ)

/-- A value that cannot be split among the samples. -/
def OutputValue.Mismatched (sampleIds : List ℤ) : OutputValue τ → Prop
  | .tensor parts => parts.length ≠ sampleIds.length
  | .other _ => True

instance (sampleIds : List ℤ) :
    DecidablePred (OutputValue.Mismatched sampleIds (τ := τ)) := fun value =>
  match value with
  | .tensor parts => inferInstanceAs (Decidable (parts.length ≠ sampleIds.length))
  | .other _ => inferInstanceAs (Decidable True)

def OutputValue.mismatch (key : String) : OutputValue τ → String
  | .tensor _ => "Dynamic CP output " ++ key ++ " has another number of samples"
  | .other typeName => "Dynamic CP model output " ++ key ++ " must be a tensor, got " ++ typeName

def detachModelOutput (modelOutput : Dict String (OutputValue τ)) (sampleIds : List ℤ) :
    Except String (Dict String (List τ)) := do
  raiseIfAny modelOutput.entries (fun entry => entry.2.Mismatched sampleIds)
    fun entry => entry.2.mismatch entry.1
  return modelOutput.map OutputValue.parts

def localRecord (output : MicroOutput τ ℓ μ) : Except String (Record τ ℓ μ) := do
  let modelOutput ← detachModelOutput output.modelOutput output.sampleIds
  return {
    sampleIds := output.sampleIds
    loss := output.loss
    metrics := output.metrics
    modelOutput }

/-- The records of one rank. -/
def localRecords (outputLst : List (MicroOutput τ ℓ μ)) :
    Except String (List (Record τ ℓ μ)) :=
  (outputLst.filter MicroOutput.groupLeader).mapM localRecord

/-- `min(record["sample_ids"])`. -/
def Record.minId (record : Record τ ℓ μ) : ℤ := record.sampleIds.min?.getD 0

def appendToDict (data newData : Dict String (List μ)) : Dict String (List μ) :=
  newData.entries.foldl
    (fun data entry => data.insert entry.1 (data.getD entry.1 [] ++ entry.2)) data

/-- The parts of a record by their samples. -/
def addParts (values : Dict ℤ τ) (parts : List (ℤ × τ)) : Dict ℤ τ :=
  parts.foldl (fun values part => values.insert part.1 part.2) values

def addRecord (byKey : Dict String (Dict ℤ τ)) (record : Record τ ℓ μ) :
    Dict String (Dict ℤ τ) :=
  record.modelOutput.entries.foldl
    (fun byKey entry => byKey.insert entry.1
      (addParts (byKey.getD entry.1 Dict.empty) (record.sampleIds.zip entry.2))) byKey

/-- The outputs in the order of the samples. -/
def restoreOutputs (byKey : Dict String (Dict ℤ τ)) (batchSize : ℕ) :
    Except String (Dict String (List τ)) := do
  raiseIfAny byKey.entries
    (fun entry => ∃ sampleId ∈ List.range batchSize, (sampleId : ℤ) ∉ entry.2.keys)
    fun entry => "Dynamic CP output " ++ entry.1 ++ " is missing sample ids"
  return byKey.map fun values => (List.range batchSize).filterMap fun sampleId =>
    values.get? (sampleId : ℤ)

/-- The records in order, checked to hold every sample once. -/
def orderRecords (records : List (Record τ ℓ μ)) (batchSize : ℕ) :
    Except String (List (Record τ ℓ μ)) := do
  let collectedIds := records.flatMap Record.sampleIds
  raiseIf (collectedIds.insertionSort (· ≤ ·) ≠ (List.range batchSize).map Int.ofNat)
    "Dynamic CP output collection must contain each sample once"
  raiseIfAny records (fun record => record.sampleIds = [])
    fun _ => "min() arg is an empty sequence"
  return records.insertionSort fun first second => first.minId ≤ second.minId

def selectOutputs (includeModelOutput : Bool) (byKey : Dict String (Dict ℤ τ))
    (batchSize : ℕ) : Except String (Dict String (List τ)) :=
  if includeModelOutput then restoreOutputs byKey batchSize else .ok Dict.empty

/-- `postprocess_dynamic_cp_batch`, from the output lists of all ranks. -/
def postprocessDynamicCpBatch (outputLsts : List (List (MicroOutput τ ℓ μ)))
    (batchSize : ℕ) (includeModelOutput : Bool) : Except String (Collected τ ℓ μ) := do
  let recordsByRank ← outputLsts.mapM localRecords
  let records ← orderRecords recordsByRank.flatten batchSize
  let modelOutput ← selectOutputs includeModelOutput
    (records.foldl addRecord Dict.empty) batchSize
  return {
    modelOutput
    loss := records.filterMap Record.loss
    metrics := records.foldl (fun metrics record => appendToDict metrics record.metrics)
      Dict.empty }

/-- The forward steps of one rank, which copy the sample ids and the leader flag
of the micro-batch. -/
def runMicroBatches (forward : ℕ → MicroBatch ρ → StepOutput τ ℓ μ)
    (microBatches : List (MicroBatch ρ)) : List (MicroOutput τ ℓ μ) :=
  microBatches.mapIdx fun index microBatch =>
    { forward index microBatch with
      sampleIds := microBatch.sampleIds
      groupLeader := microBatch.groupLeader }

/-- Scheduling on all ranks, their forward steps, and the collection. -/
def dynamicCpBatch (scheduler : DynamicCPScheduler) (settings : ShardSettings)
    (seqLen : ρ → ℕ) (rows : List ρ) (sampleIdGroups : List (List (List ℤ)))
    (forward : ℕ → ℕ → MicroBatch ρ → StepOutput τ ℓ μ) (includeModelOutput : Bool) :
    Except String (Collected τ ℓ μ) := do
  let microBatches ← (List.range scheduler.totalRanks).mapM fun rank =>
    schedule scheduler settings scheduler.totalRanks rank seqLen rows sampleIdGroups
  postprocessDynamicCpBatch
    (microBatches.mapIdx fun rank microBatches => runMicroBatches (forward rank) microBatches)
    rows.length includeModelOutput

end OneShotOPD.DynamicCp
