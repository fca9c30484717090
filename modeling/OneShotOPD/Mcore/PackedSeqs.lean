import OneShotOPD.Mcore.Thd
import OneShotOPD.Core.Masked

/-!
# Packing the rows of a padded batch

The older packing starts from a padded batch with an attention mask.  It uses the
zigzag layout whenever there are several context-parallel ranks, and copies the
chunks as far as the valid tokens reach.  With `strict` every assignment also
raises when its slice leaves the buffer; the code runs without it.
-/

namespace OneShotOPD.Mcore

open SliceAssign Masked Segments

variable {α : Type}

/-- The parallel sizes and the choice of FP8 padding. -/
structure PackedSettings where
  tpSize : ℕ
  cpSize : ℕ
  useFp8Padding : Bool
  tpSize_pos : 0 < tpSize
  cpSize_pos : 0 < cpSize

namespace PackedSettings

def baseAlign (settings : PackedSettings) : ℕ :=
  if 1 < settings.cpSize then settings.tpSize * settings.cpSize * 2 else settings.tpSize

def packLengths (settings : PackedSettings) (lengths : List ℕ) : PackedLengths :=
  if settings.useFp8Padding then
    let (perSeqAlign, totalAlign) := computeFp8ThdAlignSize settings.baseAlign
    let packed := PackedLengths.ofLengths perSeqAlign lengths
    packed.grow (padSize totalAlign packed.total)
  else PackedLengths.ofLengths settings.baseAlign lengths

end PackedSettings

/-- The valid tokens of a row written to a rank. -/
def writeValid (settings : PackedSettings) (strict : Bool) (rank : ℕ) (rows d : List α)
    (seqlen seqlenPadded seqStart : ℕ) : Except String (List α) :=
  if settings.cpSize ≤ 1 then
    assignChecked strict rows seqStart (seqStart + seqlen) d
  else do
    let halfSeqlen := seqlenPadded / settings.cpSize / 2
    let startIdx := seqStart / settings.cpSize
    let rows ← writeClamped strict rows startIdx (halfSeqlen * rank)
      (halfSeqlen * (rank + 1)) d
    writeClamped strict rows (startIdx + halfSeqlen)
      (seqlenPadded - halfSeqlen * (rank + 1)) (seqlenPadded - halfSeqlen * rank) d

def preprocessPackedSeqs (settings : PackedSettings) (strict : Bool) (rank : ℕ) (zero : α)
    (inputIds : List (List α)) (attentionMask : List (List Bool)) :
    Except String (PackedRows α) := do
  let seqlensInBatch := attentionMask.map (List.count true)
  let packed := settings.packLengths seqlensInBatch
  let rows ← (List.range inputIds.length).foldlM
    (fun rows i => writeValid settings strict rank rows
      (maskedSelect (inputIds.getD i []) (attentionMask.getD i []))
      (seqlensInBatch.getD i 0) (packed.seqlensInBatchPadded.getD i 0)
      (packed.cuSeqlensPadded.getD i 0))
    (List.replicate (packed.seqlensInBatchPadded.sum / settings.cpSize) zero)
  return {
    rows
    params := {
      cuSeqlensPadded := packed.cuSeqlensPadded
      maxSeqlen := packed.seqlensInBatchPadded.foldl max 0
      cpPartitionMode := none } }

/-- The valid tokens of a row from the gathered rows. -/
def gatherValid (settings : PackedSettings) (strict : Bool) (params : PackedSeqParams)
    (outputs : List (List α)) (garbage : ℕ → α) (sLen i : ℕ) : Except String (List α) :=
  let startIdx := params.cuSeqlensPadded.getD i 0
  if settings.cpSize ≤ 1 then .ok (slice startIdx (startIdx + sLen) (outputs.getD 0 []))
  else
    gatherSequence strict settings.cpSize outputs garbage startIdx
      (params.cuSeqlensPadded.getD (i + 1) 0) sLen

def unpackRow (settings : PackedSettings) (strict : Bool) (params : PackedSeqParams)
    (outputs : List (List α)) (zero : α) (garbage : ℕ → α)
    (attentionMask : List (List Bool)) (seqLen i : ℕ) : Except String (List α) := do
  let mask := attentionMask.getD i []
  let values ← gatherValid settings strict params outputs garbage (mask.count true) i
  maskedAssign strict (List.replicate seqLen zero) mask values

def postprocessPackedSeqs (settings : PackedSettings) (strict : Bool)
    (params : PackedSeqParams) (outputs : List (List α)) (zero : α) (garbage : ℕ → α)
    (attentionMask : List (List Bool)) (seqLen : ℕ) : Except String (List (List α)) :=
  (List.range attentionMask.length).mapM
    (unpackRow settings strict params outputs zero garbage attentionMask seqLen)

end OneShotOPD.Mcore
