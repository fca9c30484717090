import OneShotOPD.SeqlenBalancing.KarmarkarKarp
import Mathlib

/-!
# Micro batches by token count

The number of micro batches follows from the total number of tokens, and the
rows, or groups of consecutive rows, are then spread over them by their
workload.  The micro batches are put in an order of their own, and the way back
is the inverse of the order in which they hold the rows.
-/

namespace OneShotOPD.SeqlenBalancing

open Checks Differencing
open scoped List

/-- What the sequence lengths of a batch are read from: the offsets of nested
tensors, or an attention mask of a fixed width. -/
inductive SeqLens where
  | nested (seqlens : List ℕ)
  | padded (width : ℕ) (attentionMask : List (List Bool))

namespace SeqLens

def effective : SeqLens → List ℕ
  | nested seqlens => seqlens
  | padded _ attentionMask => attentionMask.map fun row => row.count true

def maxSeqLen : SeqLens → Except String ℕ
  | nested [] => .error "ValueError: max() arg is an empty sequence"
  | nested (seqlen :: seqlens) => .ok (seqlens.foldl max seqlen)
  | padded width _ => .ok width

end SeqLens

structure Batch (ρ : Type) where
  rows : List ρ
  seqLens : SeqLens
  aligned : seqLens.effective.length = rows.length

/-- The settings of `rearrange_micro_batches`; `dpCounts` are the counts of the
other ranks, when they are to have the same number of micro batches. -/
structure Settings where
  dpCounts : Option (List ℕ)
  numBatchesDividedBy : Option ℕ
  minNumMicroBatch : Option ℕ
  useDynamicBszBalance : Bool
  forceGroupSize : ℕ

/-- `24576 * seqlen + seqlen**2`. -/
def calculateWorkload (seqlen : ℕ) : ℕ := 24576 * seqlen + seqlen ^ 2

def ceildiv (a b : ℕ) : ℕ := (a + b - 1) / b

def roundupDivisible (a b : ℕ) : ℕ := (a + b - 1) / b * b

def numMicroBatches (settings : Settings) (maxTokenLen totalSeqlen numGroups : ℕ) :
    Except String ℕ :=
  if maxTokenLen = 0 then .error "ZeroDivisionError"
  else
    let count := min numGroups (ceildiv totalSeqlen maxTokenLen)
    let count := match settings.minNumMicroBatch with
      | some minimum => max minimum count
      | none => count
    let count := match settings.dpCounts with
      | some counts => counts.foldl max count
      | none => count
    match settings.numBatchesDividedBy with
    | some 0 => .error "ZeroDivisionError"
    | some divisor => .ok (roundupDivisible count divisor)
    | none => .ok count

/-- The positions of the samples of a group. -/
def groupPositions (forceGroupSize group : ℕ) : List ℕ :=
  List.range' (group * forceGroupSize) forceGroupSize

/-- The workloads of the samples, summed over each group.  For groups of one
sample these are the workloads themselves. -/
def groupWorkloads (forceGroupSize : ℕ) (seqLens : List ℕ) : List ℕ :=
  (List.range (seqLens.length / forceGroupSize)).map fun group =>
    (gather (groupPositions forceGroupSize group) (seqLens.map calculateWorkload)).sum

/-- `items[::step]`. -/
def stride {α : Type} (step : ℕ) (items : List α) : List α :=
  gather ((List.range (ceildiv items.length step)).map (· * step)) items

/-- `items[::2]`. -/
def everySecond {α : Type} : List α → List α
  | [] => []
  | [item] => [item]
  | item :: _ :: items => item :: everySecond items

/-- The sort key of a micro batch: its workload, and its first row. -/
def balanceKey (forceGroupSize : ℕ) (workloads : List ℕ) (partition : List ℕ) : ℕ ×ₗ ℕ :=
  toLex (((stride forceGroupSize partition).map fun idx =>
    workloads.getD (idx / forceGroupSize) 0).sum, partition.headD 0)

/-- The micro batches by decreasing workload, and then with the smaller ones at
both ends. -/
def balanceOrder (forceGroupSize : ℕ) (workloads : List ℕ) (partitions : List (List ℕ)) :
    List (List ℕ) :=
  let sorted := partitions.insertionSort fun partition other =>
    balanceKey forceGroupSize workloads other ≤ balanceKey forceGroupSize workloads partition
  (everySecond sorted).reverse ++ everySecond sorted.tail

/-- `rearrange_micro_batches`: the micro batches, and the positions of their
rows. -/
def rearrangeMicroBatches {ρ : Type} (batch : Batch ρ) (maxTokenLen : ℕ) (settings : Settings) :
    Except String (List (List ρ) × List (List ℕ)) := do
  let seqLenEffective := batch.seqLens.effective
  let maxSeqLen ← batch.seqLens.maxSeqLen
  if maxTokenLen < maxSeqLen then
    .error "AssertionError: max_token_len must be greater than the sequence length"
  else if settings.forceGroupSize = 0 then .error "ZeroDivisionError"
  else if seqLenEffective.length % settings.forceGroupSize ≠ 0 then
    .error "AssertionError: batch size must be divisible by force_group_size"
  else
    let numGroups := seqLenEffective.length / settings.forceGroupSize
    let count ← numMicroBatches settings maxTokenLen seqLenEffective.sum numGroups
    if numGroups < count then .error "AssertionError: num_micro_batches <= num_groups"
    else
      let workloads := groupWorkloads settings.forceGroupSize seqLenEffective
      let groupIdx ← getSeqlenBalancedPartitions workloads count false
      let microBszIdx := groupIdx.map fun groups =>
        groups.flatMap (groupPositions settings.forceGroupSize)
      let microBszIdx := if settings.useDynamicBszBalance then
        balanceOrder settings.forceGroupSize workloads microBszIdx else microBszIdx
      .ok (microBszIdx.map fun partition => gather partition batch.rows, microBszIdx)

/-- `get_reverse_idx(idx_map)`: a copy of the map, overwritten entry by entry. -/
def getReverseIdx (idxMap : List ℕ) : Except String (List ℕ) :=
  idxMap.zipIdx.foldlM (fun reverse entry =>
    if entry.1 < reverse.length then .ok (reverse.set entry.1 entry.2)
    else .error "IndexError") idxMap

/-- `restore_dynamic_batch(data, batch_idx_list)`, of a dense tensor or the
components of a nested one. -/
def restoreDynamicBatch {α : Type} (data : List α) (batchIdxList : List (List ℕ)) :
    Except String (List α) :=
  let indices := batchIdxList.flatten
  if indices.length ≠ data.length then .error "AssertionError"
  else do
    let revertIndices ← getReverseIdx indices
    if ∀ idx ∈ revertIndices, idx < data.length then .ok (gather revertIndices data)
    else .error "IndexError"

end OneShotOPD.SeqlenBalancing
