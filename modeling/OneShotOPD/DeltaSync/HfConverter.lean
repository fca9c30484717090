import OneShotOPD.DeltaSync.Export
import OneShotOPD.DeltaSync.DeltaLoader
import OneShotOPD.Core.Jagged
import OneShotOPD.Core.Runs
import OneShotOPD.Core.Scatter
import Mathlib.Data.List.Sort

/-!
# Converting a delta to the checkpoint format

A fused parameter stacks the weights of all experts, and the checkpoint has
tensors for every expert.  The changes of a shard are converted row by row: a row
that is NaN except for its changed elements is run through the converter, and the
elements that are not NaN afterwards are the changes of the converted tensors.
-/

namespace OneShotOPD.DeltaSync

open Checks Segments

variable {V : Type}

/-- What a converter yields: tensors of the checkpoint by name. -/
abbrev HfOutputs (V : Type) := List (String × Tensor V)

/-- A handler gets the name of a parameter, a stack of experts and the id of the first one. -/
abbrev MoeParamHandler (V : Type) := String → Tensor V → ℕ → Except String (HfOutputs V)

/-- `tensor[index]`. -/
def Tensor.rowAt (tensor : Tensor V) (index : ℕ) : Tensor V where
  shape := tensor.shape.tail
  data := slice (index * tensor.shape.tail.prod) ((index + 1) * tensor.shape.tail.prod) tensor.data

/-- `gate, up = tensor.chunk(2, dim=1)`. -/
def Tensor.chunkTwo (tensor : Tensor V) : Except String (Tensor V × Tensor V) :=
  match tensor.shape with
  | count :: width :: rest =>
      if width = 1 then .error "ValueError: not enough values to unpack (expected 2, got 1)"
      else
        let half := (width + 1) / 2
        let rows := (List.range count).map fun index => (tensor.rowAt index).data
        .ok (⟨count :: half :: rest, rows.flatMap fun row => row.take (half * rest.prod)⟩,
          ⟨count :: (width - half) :: rest, rows.flatMap fun row => row.drop (half * rest.prod)⟩)
  | _ => .error "IndexError: Dimension out of range"

def mapMoeParamsCommon (name : String) (tensor : Tensor V) (expertIdBase : ℕ) : HfOutputs V :=
  (List.range (tensor.shape.headD 0)).map fun i =>
    let idx := expertIdBase + i
    (name.replace "mlp.experts." ("mlp.experts." ++ toString idx ++ ".") ++ ".weight",
      tensor.rowAt i)

def defaultMoeParamHandler : MoeParamHandler V := fun name tensor expertIdBase =>
  if name.contains "gate_up_proj" then do
    let (gate, up) ← tensor.chunkTwo
    return mapMoeParamsCommon (name.replace "gate_up_proj" "gate_proj") gate expertIdBase ++
      mapMoeParamsCommon (name.replace "gate_up_proj" "up_proj") up expertIdBase
  else .ok (mapMoeParamsCommon name tensor expertIdBase)

/-- `enumerate_hf_slots`: the outputs for one zero row of every expert. -/
def enumerateHfSlots (zero : V) (processFunc : MoeParamHandler V) (fqn : String) (experts : ℕ)
    (rowShape : List ℕ) : Except String (List Slot) := do
  let dummyRow : Tensor V := ⟨1 :: rowShape, List.replicate rowShape.prod zero⟩
  let outputs ← (List.range experts).mapM fun expertId => processFunc fqn dummyRow expertId
  return outputs.flatten.map fun output => ⟨output.1, output.2.shape⟩

/-- The part of a `ShardSpec` that the conversion reads.  `full_shape` is
`experts :: rowShape`. -/
structure ConverterSpec (V : Type) where
  experts : ℕ
  rowShape : List ℕ
  toHfChunk : ℕ → Tensor V → Except String (HfOutputs V)
  hfSlots : List Slot

namespace ConverterSpec

variable (spec : ConverterSpec V)

def rowNumel : ℕ := max spec.rowShape.prod 1

/-- `len(spec.hf_slots) // int(spec.full_shape[0])`. -/
def slotsPerRow : Except String ℕ := do
  raiseIf (spec.experts = 0) "ZeroDivisionError: integer division or modulo by zero"
  return spec.hfSlots.length / spec.experts

end ConverterSpec

/-- The surviving elements of one output, with its place in the row. -/
structure ConvertedSlot (V : Type) where
  slotInRow : ℕ
  hfIdx : List ℤ
  hfVal : List V

/-- The elements of an output that are not NaN. -/
def survivors (float : FloatType V) (slotInRow : ℕ) (flat : List V) : Option (ConvertedSlot V) :=
  let survivorPos := nonzero (flat.map fun value => ! float.isNaN value)
  if survivorPos = [] then none
  else some ⟨slotInRow, survivorPos.map toInt32, gather survivorPos flat⟩

def convertRowToHf (float : FloatType V) (name : String) (spec : ConverterSpec V)
    (expertId : ℕ) (posInRow : List ℕ) (vals : List V) : Except String
    (List (ConvertedSlot V)) := do
  let slotsPerRow ← spec.slotsPerRow
  let rowBuf := scatter (List.replicate spec.rowNumel float.nan) posInRow vals
  raiseIf (spec.rowShape.prod ≠ spec.rowNumel) "RuntimeError: shape is invalid for input of size 1"
  let hfOutputs ← spec.toHfChunk expertId ⟨1 :: spec.rowShape, rowBuf⟩
  raiseIf (hfOutputs.length ≠ slotsPerRow)
    (name ++ ": to_hf_chunk gave " ++ toString hfOutputs.length ++
      " outputs/row, slot table expects " ++ toString slotsPerRow)
  return hfOutputs.zipIdx.filterMap fun (output, slotInRow) =>
    survivors float slotInRow output.2.data

/-- The counts per slot, and the pieces that are to be concatenated. -/
structure EntryState (V : Type) where
  counts : List ℕ
  idxPieces : List (List ℤ)
  valPieces : List (List V)

def EntryState.record (slotsPerRow expertId : ℕ) (state : EntryState V)
    (converted : ConvertedSlot V) : EntryState V where
  counts := state.counts.set (expertId * slotsPerRow + converted.slotInRow) converted.hfIdx.length
  idxPieces := state.idxPieces ++ [converted.hfIdx]
  valPieces := state.valPieces ++ [converted.hfVal]

/-- The loop over the touched rows. -/
def convertRuns (float : FloatType V) (name : String) (spec : ConverterSpec V) (slotsPerRow : ℕ)
    (fullEntries : List (ℕ × V)) :
    List (ℕ × ℕ) → ℕ → EntryState V → Except String (EntryState V)
  | [], _, state => .ok state
  | (expertId, runLen) :: touchedRows, cursor, state => do
      let run := slice cursor (cursor + runLen) fullEntries
      let posInRow := run.map fun entry => entry.1 - expertId * spec.rowNumel
      let converted ← convertRowToHf float name spec expertId posInRow (run.map Prod.snd)
      convertRuns float name spec slotsPerRow fullEntries touchedRows (cursor + runLen)
        (converted.foldl (EntryState.record slotsPerRow expertId) state)

def hfEntryConverter (float : FloatType V) (name : String) (spec : ConverterSpec V)
    (place : Place) (lidx : List ℕ) (lval : List V) : Except String (Entry V) := do
  let slotsPerRow ← spec.slotsPerRow
  let fullIdx := lidx.map (translateFlatIndex place)
  let fullEntries := (fullIdx.zip lval).mergeSort fun first second => first.1 ≤ second.1
  let rowOf := fullEntries.map fun entry => entry.1 / spec.rowNumel
  let state ← convertRuns float name spec slotsPerRow fullEntries (runs rowOf) 0
    ⟨List.replicate spec.hfSlots.length 0, [], []⟩
  return {
    slots := spec.hfSlots
    dtypeStr := float.name
    counts := state.counts
    idx := state.idxPieces.flatten
    val := state.valPieces.flatten }

end OneShotOPD.DeltaSync
