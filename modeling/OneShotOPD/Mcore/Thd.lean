import OneShotOPD.Mcore.Padding
import OneShotOPD.Core.Zigzag

/-!
# Packing sequences for context parallelism

The engine packs the sequences of a batch into one buffer and shards its rows
across the context-parallel ranks.  In the zigzag layout a rank receives a chunk
from both ends of every padded sequence, in the contiguous layout one interval
of the whole padded buffer.  After the forward pass the buffers of all ranks are
gathered and the sequences are cut out again.
-/

namespace OneShotOPD.Mcore

open Segments SliceAssign Zigzag Checks

variable {α : Type}

inductive ContextParallelLayout where
  | zigzag
  | contiguous
  deriving DecidableEq, Repr

/-- The parallel sizes and the arguments of a call.  `hasCpPartitionMode` says
whether the installed `PackedSeqParams` has a field `cp_partition_mode`. -/
structure ThdSettings where
  tpSize : ℕ
  cpSize : ℕ
  useFp8Padding : Bool
  minLocalRows : Option ℕ
  padToLengthBucket : Option ℕ
  cpLayout : ContextParallelLayout
  hasCpPartitionMode : Bool
  tpSize_pos : 0 < tpSize
  cpSize_pos : 0 < cpSize

/-- The alignment of each sequence and of the whole buffer. -/
def computeFp8ThdAlignSize (alignSize : ℕ) : ℕ × ℕ := (Nat.lcm 16 alignSize, alignSize * 128)

namespace ThdSettings

def cpLayoutFactor (settings : ThdSettings) : ℕ :=
  if settings.cpLayout = .zigzag ∧ 1 < settings.cpSize then 2 else 1

def baseAlign (settings : ThdSettings) : ℕ :=
  settings.tpSize * settings.cpSize * settings.cpLayoutFactor

def alignSize (settings : ThdSettings) : ℕ :=
  if settings.useFp8Padding then (computeFp8ThdAlignSize settings.baseAlign).1
  else settings.baseAlign

def totalAlign (settings : ThdSettings) : ℕ := (computeFp8ThdAlignSize settings.baseAlign).2

def totalAlignment (settings : ThdSettings) (bucket : ℕ) : ℕ :=
  if settings.useFp8Padding then
    Nat.lcm (Nat.lcm bucket settings.cpSize) settings.totalAlign
  else Nat.lcm bucket settings.cpSize

def padFp8 (settings : ThdSettings) (packed : PackedLengths) : PackedLengths :=
  if settings.useFp8Padding then packed.grow (padSize settings.totalAlign packed.total)
  else packed

def padMinLocalRows (settings : ThdSettings) (packed : PackedLengths) : PackedLengths :=
  match settings.minLocalRows with
  | none => packed
  | some minLocalRows =>
      let minTotalRows := settings.cpSize * minLocalRows
      if packed.total < minTotalRows then packed.grow (minTotalRows - packed.total)
      else packed

def padBucket (settings : ThdSettings) (packed : PackedLengths) :
    Except String PackedLengths :=
  match settings.padToLengthBucket with
  | none => .ok packed
  | some bucket => do
      raiseIf (bucket = 0) "pad_to_length_bucket must be a positive integer"
      return packed.grow (padSize (settings.totalAlignment bucket) packed.total)

/-- The padded lengths of a batch. -/
def packLengths (settings : ThdSettings) (lengths : List ℕ) :
    Except String PackedLengths :=
  settings.padBucket (settings.padMinLocalRows
    (settings.padFp8 (PackedLengths.ofLengths settings.alignSize lengths)))

end ThdSettings

/-- What the attention kernels and the unpacking read. -/
structure PackedSeqParams where
  cuSeqlensPadded : List ℕ
  maxSeqlen : ℕ
  cpPartitionMode : Option ContextParallelLayout

/-- What one rank computes: its rows, and the parameters. -/
structure PackedRows (α : Type) where
  rows : List α
  params : PackedSeqParams

/-- The part of a sequence that falls into the interval of a rank. -/
def copyInterval (rank : ℕ) (rows : List α) (tokens : List α) (seqGlobalStart : ℕ) :
    Except String (List α) :=
  let localGlobalStart := rows.length * rank
  let localGlobalEnd := localGlobalStart + rows.length
  let copyGlobalStart := max localGlobalStart seqGlobalStart
  let copyGlobalEnd := min localGlobalEnd (seqGlobalStart + tokens.length)
  if copyGlobalEnd ≤ copyGlobalStart then .ok rows
  else
    assignSlice rows (copyGlobalStart - localGlobalStart) (copyGlobalEnd - localGlobalStart)
      (slice (copyGlobalStart - seqGlobalStart) (copyGlobalEnd - seqGlobalStart) tokens)

/-- A short sequence is filled up to the alignment before it is cut. -/
def padToAlign (alignSize : ℕ) (zero : α) (tokens : List α) : List α :=
  if tokens.length < alignSize then
    tokens ++ List.replicate (alignSize - tokens.length) zero
  else tokens

/-- The two chunks of a sequence that a rank receives. -/
def writeChunks (cpSize rank alignSize : ℕ) (zero : α) (rows tokens : List α)
    (seqlenPadded seqStart : ℕ) : Except String (List α) := do
  let seqlen := seqlenPadded / cpSize
  let halfSeqlen := seqlen / 2
  let startIdx := seqStart / cpSize
  let d := padToAlign alignSize zero tokens
  let rows ← assignSlice rows startIdx (startIdx + halfSeqlen)
    (slice (halfSeqlen * rank) (halfSeqlen * (rank + 1)) d)
  writeClamped false rows (startIdx + halfSeqlen) (seqlenPadded - halfSeqlen * (rank + 1))
    (seqlenPadded - halfSeqlen * rank) d

def writeSequence (settings : ThdSettings) (rank : ℕ) (zero : α) (rows tokens : List α)
    (seqlenPadded seqStart : ℕ) : Except String (List α) :=
  match settings.cpLayout with
  | .contiguous => copyInterval rank rows tokens seqStart
  | .zigzag =>
      if settings.cpSize ≤ 1 then
        assignSlice rows seqStart (seqStart + tokens.length) tokens
      else
        writeChunks settings.cpSize rank settings.alignSize zero rows tokens seqlenPadded
          seqStart

/-- The loop over the batch. -/
def writeSequences (settings : ThdSettings) (rank : ℕ) (zero : α)
    (sequences : List (List α)) (packed : PackedLengths) : Except String (List α) :=
  (List.range sequences.length).foldlM
    (fun rows i => writeSequence settings rank zero rows (sequences.getD i [])
      (packed.seqlensInBatchPadded.getD i 0) (packed.cuSeqlensPadded.getD i 0))
    (List.replicate (packed.seqlensInBatchPadded.sum / settings.cpSize) zero)

def preprocessThdEngine (settings : ThdSettings) (rank : ℕ) (zero : α)
    (sequences : List (List α)) : Except String (PackedRows α) := do
  let packed ← settings.packLengths (sequences.map List.length)
  let rows ← writeSequences settings rank zero sequences packed
  raiseIf (settings.hasCpPartitionMode = false ∧ settings.cpLayout ≠ .zigzag ∧
    1 < settings.cpSize) "cp_layout requires PackedSeqParams.cp_partition_mode"
  return {
    rows
    params := {
      cuSeqlensPadded := packed.cuSeqlensPadded
      maxSeqlen := packed.seqlensInBatchPadded.foldl max 0
      cpPartitionMode :=
        if settings.hasCpPartitionMode then some settings.cpLayout else none } }

/-- The chunks of one sequence in the rows of a rank. -/
def rankHalves (startIdx halfSeqlen chunk : ℕ) (rows : List α) : List α × List α :=
  (slice startIdx (startIdx + halfSeqlen) rows,
    slice (startIdx + halfSeqlen) (startIdx + chunk) rows)

/-- One sequence out of the rows of all ranks.  The buffer it is put together
in is not initialised, its contents are `garbage`. -/
def gatherSequence (strict : Bool) (cpSize : ℕ) (outputs : List (List α)) (garbage : ℕ → α)
    (seqStart seqEnd seqLen : ℕ) : Except String (List α) := do
  let chunk := (seqEnd - seqStart) / cpSize
  let halfSeqlen := chunk / 2
  let buffer := (List.range (chunk * cpSize)).map garbage
  let buffer ← joinHalves strict halfSeqlen
    (fun j => rankHalves (seqStart / cpSize) halfSeqlen chunk (outputs.getD j [])) cpSize
    buffer
  return buffer.take seqLen

def unpackSequence (settings : ThdSettings) (params : PackedSeqParams)
    (outputs : List (List α)) (garbage : ℕ → α) (lengths : List ℕ) (i : ℕ) :
    Except String (List α) :=
  let seqStart := params.cuSeqlensPadded.getD i 0
  let seqLen := lengths.getD i 0
  match settings.cpLayout with
  | .contiguous => .ok (slice seqStart (seqStart + seqLen) outputs.flatten)
  | .zigzag =>
      if settings.cpSize ≤ 1 then
        .ok (slice seqStart (seqStart + seqLen) (outputs.getD 0 []))
      else
        gatherSequence false settings.cpSize outputs garbage seqStart
          (params.cuSeqlensPadded.getD (i + 1) 0) seqLen

/-- The sequences of a batch with the given lengths, from the gathered rows. -/
def postprocessThdEngine (settings : ThdSettings) (params : PackedSeqParams)
    (lengths : List ℕ) (outputs : List (List α)) (garbage : ℕ → α) :
    Except String (List (List α)) :=
  (List.range lengths.length).mapM (unpackSequence settings params outputs garbage lengths)

end OneShotOPD.Mcore
