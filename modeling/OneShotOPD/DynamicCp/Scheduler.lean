import OneShotOPD.Mcore.Thd

/-!
# Scheduling micro-batches for dynamic context parallelism

Megatron-Core's scheduler assigns the samples of a batch to the ranks, one list
of sample indices for each rank and micro-batch.  Ranks with the same list form
a context-parallel group.  The adapter checks the assignments and cuts this
rank's micro-batches out of the replicated batch.
-/

namespace OneShotOPD.DynamicCp

open Checks SliceAssign Mcore

variable {ρ τ : Type}

structure DynamicCPScheduler where
  maxSeqlenPerDpCpRank : ℕ
  dpSize : ℕ
  cpSize : ℕ
  maxSeqlenPerDpCpRank_pos : 0 < maxSeqlenPerDpCpRank
  dpSize_pos : 0 < dpSize
  cpSize_pos : 0 < cpSize

def DynamicCPScheduler.totalRanks (scheduler : DynamicCPScheduler) : ℕ :=
  scheduler.dpSize * scheduler.cpSize

/-- What the model needs besides the batch. -/
structure ShardSettings where
  tpSize : ℕ
  cpLayout : ContextParallelLayout
  minLocalRows : Option ℤ

/-- `math.ceil(length / size)`. -/
def ceilDiv (length size : ℕ) : ℕ := (length + size - 1) / size

/-- The padding of one sequence in the zigzag layout. -/
def zigzagMask (cpSize cpRank seqLen paddedLen : ℕ) : List Bool :=
  let mask := List.replicate (paddedLen / cpSize) true
  if cpSize = 1 then fillSlice mask 0 seqLen false
  else
    let halfChunk := paddedLen / (2 * cpSize)
    let frontStart := cpRank * halfChunk
    let backStart := paddedLen - (cpRank + 1) * halfChunk
    let frontTokens := min (seqLen - frontStart) halfChunk
    let backTokens := min (seqLen - backStart) halfChunk
    fillSlice (fillSlice mask 0 frontTokens false) halfChunk (halfChunk + backTokens) false

/-- The loop over the sequences in the contiguous layout. -/
def contiguousMask (localGlobalStart localGlobalEnd : ℕ) :
    List (ℕ × ℕ) → ℕ → List Bool → List Bool
  | [], _, mask => mask
  | (seqLen, paddedLen) :: lens, seqGlobalStart, mask =>
      let copyGlobalStart := max localGlobalStart seqGlobalStart
      let copyGlobalEnd := min localGlobalEnd (seqGlobalStart + seqLen)
      contiguousMask localGlobalStart localGlobalEnd lens (seqGlobalStart + paddedLen)
        (if copyGlobalStart < copyGlobalEnd then
          fillSlice mask (copyGlobalStart - localGlobalStart)
            (copyGlobalEnd - localGlobalStart) false
        else mask)

/-- The padded lengths, with the rows that a minimum asks for in the last one. -/
def paddedLens (settings : ShardSettings) (cpSize : ℕ) (seqLens : List ℕ) :
    Except String (List ℕ) :=
  let cpLayoutFactor := if settings.cpLayout = .zigzag ∧ 1 < cpSize then 2 else 1
  let alignSize := settings.tpSize * cpSize * cpLayoutFactor
  let paddedLens := seqLens.map fun seqLen => ceilDiv seqLen alignSize * alignSize
  match settings.minLocalRows with
  | none => .ok paddedLens
  | some minLocalRows => do
      raiseIf (minLocalRows ≤ 0) "min_local_rows must be positive"
      let minTotalRows := cpSize * minLocalRows.toNat
      return if paddedLens.sum < minTotalRows then
        growLast (minTotalRows - paddedLens.sum) paddedLens
      else paddedLens

def localPaddingMask (settings : ShardSettings) (cpSize cpRank : ℕ) (seqLens : List ℕ) :
    Except String (List Bool) := do
  let paddedLens ← paddedLens settings cpSize seqLens
  match settings.cpLayout with
  | .contiguous =>
      let localPaddedLen := paddedLens.sum / cpSize
      let localGlobalStart := localPaddedLen * cpRank
      return contiguousMask localGlobalStart (localGlobalStart + localPaddedLen)
        (seqLens.zip paddedLens) 0 (List.replicate localPaddedLen true)
  | .zigzag =>
      return (seqLens.zip paddedLens).flatMap fun lens =>
        zigzagMask cpSize cpRank lens.1 lens.2

/-- The ranks with the same samples as the given one. -/
def cpMembers (rankAssignments : List (List ℤ)) (rank : ℕ) : Except String (List ℕ) := do
  let rankSampleIds := rankAssignments.getD rank []
  raiseIf (rankSampleIds = []) "Megatron-Core Dynamic CP returned an empty rank assignment"
  return (List.range rankAssignments.length).filter fun peer =>
    rankAssignments.getD peer [] = rankSampleIds

/-- `rows[index]`, where a negative index counts from the back. -/
def pyIndex (rows : List τ) (index : ℤ) : Except String τ :=
  let position := if index < 0 then index + rows.length else index
  if position < 0 then .error "index out of range"
  else
    match rows[position.toNat]? with
    | some row => .ok row
    | none => .error "index out of range"

structure MicroBatch (ρ : Type) where
  rows : List ρ
  localCpSize : ℕ
  sampleIds : List ℤ
  groupLeader : Bool
  paddingMask : List Bool
  localNumTokens : ℕ

def scheduleMicroBatch (scheduler : DynamicCPScheduler) (settings : ShardSettings)
    (dcpRank : ℕ) (rows : List ρ) (seqLens : List ℕ) (rankAssignments : List (List ℤ)) :
    Except String (MicroBatch ρ) := do
  raiseIf (rankAssignments.length ≠ scheduler.totalRanks ∨ [] ∈ rankAssignments)
    "Megatron-Core Dynamic CP must assign all ranks in every micro-batch"
  let sampleIds := rankAssignments.getD dcpRank []
  let members ← cpMembers rankAssignments dcpRank
  let localCpSize := members.length
  let cpRank := members.idxOf dcpRank
  raiseIf (members ≠ List.range' (members.headD 0) localCpSize)
    "Dynamic CP group members must be contiguous"
  raiseIf (members.headD 0 % localCpSize ≠ 0) "Dynamic CP group is not aligned to its size"
  let microBatch ← sampleIds.mapM (pyIndex rows)
  let selectedLens ← sampleIds.mapM (pyIndex seqLens)
  let paddingMask ← localPaddingMask settings localCpSize cpRank selectedLens
  return {
    rows := microBatch
    localCpSize
    sampleIds
    groupLeader := dcpRank = members.headD 0
    paddingMask
    localNumTokens := paddingMask.length - paddingMask.count true }

/-- `DynamicCPScheduler.schedule` on one rank.  `sampleIdGroups` is what the
scheduler of Megatron-Core returns for the lengths. -/
def schedule (scheduler : DynamicCPScheduler) (settings : ShardSettings)
    (dcpGroupSize dcpRank : ℕ) (seqLen : ρ → ℕ) (rows : List ρ)
    (sampleIdGroups : List (List (List ℤ))) : Except String (List (MicroBatch ρ)) := do
  raiseIf (rows = []) "Dynamic CP cannot schedule an empty batch"
  raiseIf (dcpGroupSize ≠ scheduler.totalRanks)
    "DPxCP group size does not match dp_size * cp_size"
  let seqLens := rows.map seqLen
  raiseIf (0 ∈ seqLens)
    "Dynamic CP requires every input sequence to contain at least one token"
  let requiredRanks := ceilDiv (seqLens.foldl max 0) scheduler.maxSeqlenPerDpCpRank
  raiseIf (scheduler.totalRanks < requiredRanks)
    "A sequence needs more ranks than the DPxCP group has"
  sampleIdGroups.mapM (scheduleMicroBatch scheduler settings dcpRank rows seqLens)

end OneShotOPD.DynamicCp
