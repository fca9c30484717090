import OneShotOPD.Mcore.Padding
import OneShotOPD.Core.Zigzag
import OneShotOPD.Core.Masked

/-!
# Padding a batch for context parallelism

In the bshd format every sequence is padded to one length, which is cut into two
chunks for each context-parallel rank.  The attention mask of a rank marks the
tokens among its rows.  With `strict` every assignment also raises when its slice
leaves the buffer; the code runs without it.
-/

namespace OneShotOPD.Mcore

open Segments SliceAssign Zigzag Masked Checks

variable {α : Type}

structure BshdSettings where
  tpSize : ℕ
  cpSize : ℕ
  useFp8Padding : Bool
  forcedMaxSeqlen : Option ℕ
  tpSize_pos : 0 < tpSize
  cpSize_pos : 0 < cpSize

namespace BshdSettings

def alignSize (settings : BshdSettings) : ℕ :=
  if 1 < settings.cpSize then settings.tpSize * settings.cpSize * 2 else settings.tpSize

/-- The alignment of FP8 for a batch of the given size. -/
def fp8SeqAlign (settings : BshdSettings) (batchSize : ℕ) : ℕ :=
  let fp8TotalAlign := 128 * settings.tpSize * settings.cpSize
  Nat.lcm (fp8TotalAlign / Nat.gcd batchSize fp8TotalAlign) settings.alignSize

def rawMaxSeqlen (settings : BshdSettings) (lengths : List ℕ) : ℕ :=
  settings.forcedMaxSeqlen.getD (lengths.foldl max 0)

/-- The length that all sequences are padded to. -/
def maxSeqlen (settings : BshdSettings) (lengths : List ℕ) : ℕ :=
  let maxSeqlen := settings.rawMaxSeqlen lengths
  let maxSeqlen :=
    if 1 < settings.alignSize then maxSeqlen + padSize settings.alignSize maxSeqlen
    else maxSeqlen
  if settings.useFp8Padding then
    let fp8SeqAlign := settings.fp8SeqAlign lengths.length
    (maxSeqlen + fp8SeqAlign - 1) / fp8SeqAlign * fp8SeqAlign
  else maxSeqlen

def localMaxSeqlen (settings : BshdSettings) (maxSeqlen : ℕ) : ℕ :=
  if 1 < settings.cpSize then maxSeqlen / settings.cpSize else maxSeqlen

end BshdSettings

/-- `input_ids_bshd`, `attention_mask` and `position_ids` of one rank. -/
structure BshdRows (α : Type) where
  inputIds : List (List α)
  attentionMask : List (List Bool)
  positionIds : List ℕ

/-- The marks of one chunk, if it has any. -/
def fillValid (strict : Bool) (mask : List Bool) (start valid : ℕ) :
    Except String (List Bool) :=
  if 0 < valid then fillChecked strict mask start (start + valid) true else .ok mask

def localMask (settings : BshdSettings) (strict : Bool) (rank maxSeqlen seqlen : ℕ) :
    Except String (List Bool) :=
  let mask := List.replicate (settings.localMaxSeqlen maxSeqlen) false
  if settings.cpSize ≤ 1 then fillChecked strict mask 0 seqlen true
  else do
    let chunkLen := maxSeqlen / (2 * settings.cpSize)
    let firstStart := rank * chunkLen
    let secondStart := (2 * settings.cpSize - rank - 1) * chunkLen
    let mask ← fillValid strict mask 0 (min (seqlen - firstStart) chunkLen)
    fillValid strict mask chunkLen (min (seqlen - secondStart) chunkLen)

def padSequence (strict : Bool) (maxSeqlen : ℕ) (zero : α) (seq : List α) :
    Except String (List α) :=
  if seq.length < maxSeqlen then
    assignChecked strict (List.replicate maxSeqlen zero) 0 seq.length seq
  else .ok seq

def localRow (settings : BshdSettings) (strict : Bool) (rank maxSeqlen : ℕ) (zero : α)
    (seq : List α) : Except String (List α) :=
  let localMaxSeqlen := settings.localMaxSeqlen maxSeqlen
  let row := List.replicate localMaxSeqlen zero
  if settings.cpSize ≤ 1 then assignChecked strict row 0 seq.length seq
  else do
    let seq ← padSequence strict maxSeqlen zero seq
    let chunkLen := maxSeqlen / (2 * settings.cpSize)
    let firstStart := rank * chunkLen
    let secondStart := (2 * settings.cpSize - rank - 1) * chunkLen
    assignChecked strict row 0 localMaxSeqlen
      (slice firstStart (firstStart + chunkLen) seq ++
        slice secondStart (secondStart + chunkLen) seq)

def localPositions (settings : BshdSettings) (rank maxSeqlen : ℕ) : List ℕ :=
  if settings.cpSize ≤ 1 then List.range (settings.localMaxSeqlen maxSeqlen)
  else
    let chunkLen := maxSeqlen / (2 * settings.cpSize)
    List.range' (rank * chunkLen) chunkLen ++
      List.range' (maxSeqlen - (rank + 1) * chunkLen) chunkLen

def preprocessBshdEngine (settings : BshdSettings) (strict : Bool) (rank : ℕ) (zero : α)
    (sequences : List (List α)) : Except String (BshdRows α) := do
  -- `seqlens_in_batch.max()` of no sequences
  raiseIf (settings.forcedMaxSeqlen.isNone ∧ sequences.isEmpty)
    "max(): Expected reduction dim to be specified for input.numel() == 0"
  let maxSeqlen := settings.maxSeqlen (sequences.map List.length)
  let inputIds ← sequences.mapM (localRow settings strict rank maxSeqlen zero)
  let attentionMask ←
    sequences.mapM fun seq => localMask settings strict rank maxSeqlen seq.length
  return { inputIds, attentionMask, positionIds := localPositions settings rank maxSeqlen }

/-- One sequence from the gathered rows and masks. -/
def unpackBshd (settings : BshdSettings) (strict : Bool) (outputs : List (List (List α)))
    (masks : List (List (List Bool))) (own : ℕ) (garbage : ℕ → α) (i : ℕ) :
    Except String (List α) :=
  let row := (outputs.getD own []).getD i []
  if settings.cpSize ≤ 1 then .ok (maskedSelect row ((masks.getD own []).getD i []))
  else do
    let localSeqlen := row.length
    raiseIf (localSeqlen % 2 ≠ 0)
      "CP bshd expects local sequence length to be divisible by 2"
    let halfSeqlen := localSeqlen / 2
    let fullSeqlen := localSeqlen * settings.cpSize
    let tmp ← joinHalves strict halfSeqlen
      (fun j => ((outputs.getD j []).getD i []).splitAt halfSeqlen) settings.cpSize
      ((List.range fullSeqlen).map garbage)
    let fullMask ← joinHalves strict halfSeqlen
      (fun j => ((masks.getD j []).getD i []).splitAt halfSeqlen) settings.cpSize
      (List.replicate fullSeqlen false)
    return maskedSelect tmp fullMask

def postprocessBshdEngine (settings : BshdSettings) (strict : Bool)
    (outputs : List (List (List α))) (masks : List (List (List Bool))) (own : ℕ)
    (garbage : ℕ → α) : Except String (List (List α)) := do
  raiseIf ((outputs.getD own []).map List.length ≠ (masks.getD own []).map List.length)
    "output.shape and attention_mask.shape differ"
  (List.range (outputs.getD own []).length).mapM
    (unpackBshd settings strict outputs masks own garbage)

end OneShotOPD.Mcore
