import OneShotOPD.Core.Jagged
import OneShotOPD.Core.Checks

/-!
# Removing the padding around a forward pass

The trainer keeps prompts padded on the left and responses padded on the right.
The engine runs on the sequences without padding, and its output at a position
belongs to the token behind it.  The response part of the output is cut out again,
either into a padded tensor or into a nested one.
-/

namespace OneShotOPD.NoPadding

open Segments Masked Checks

variable {batchSize : ℕ} {V β : Type}

/-- A tensor of a `TensorDict`, padded or nested. -/
inductive Column (batchSize : ℕ) (α : Type)
  | padded (tensor : Padded batchSize α)
  | nested (tensor : Jagged batchSize α)

/-- What the conversion reads and writes.  `V` stands for what a tensor has at a token, with the
dimensions behind the sequence dimension. -/
structure TrainData (batchSize : ℕ) (V : Type) where
  inputIds : Column batchSize V
  attentionMask : Column batchSize Bool
  responseMask : Column batchSize Bool
  positionIds : Column batchSize V
  prompts : Column batchSize V
  responses : Column batchSize V
  lossMask : Option (Column batchSize Bool)
  routedExperts : Option (Column batchSize V)
  teacherLogprobs : Option (Column batchSize V)
  teacherIds : Option (Column batchSize V)
  maxSeqLen : Option ℕ
  maxResponseLen : Option ℕ
  indices : Option (List ℕ)

/-- An operation on strided tensors only. -/
def Column.asPadded {α : Type} : Column batchSize α → Except String (Padded batchSize α)
  | .padded tensor => .ok tensor
  | .nested _ => .error "NotImplementedError: strided tensor expected"

def Column.asNested {α : Type} : Column batchSize α → Except String (Jagged batchSize α)
  | .padded _ => .error "RuntimeError: nested tensor expected"
  | .nested tensor => .ok tensor

/-- `index_first_axis(tensor.flatten(0, 1), indices)`. -/
def indexFirstAxis {α : Type} (tensor : Padded batchSize α) (indices : List ℕ) : List α :=
  gather indices tensor.rows.flatten

structure Unpadded (batchSize : ℕ) (α : Type) where
  values : List α
  indices : List ℕ
  cuSeqlens : List ℕ
  length_cuSeqlens : cuSeqlens.length = batchSize + 1

/-- `unpad_input(hidden_states, attention_mask)`.  The maximal length of an empty batch raises. -/
def unpadInput {α : Type} (hiddenStates : Padded batchSize α)
    (attentionMask : Padded batchSize Bool) : Except String (Unpadded batchSize α) := do
  let seqlensInBatch := attentionMask.rows.map fun mask => mask.count true
  let indices := nonzero attentionMask.rows.flatten
  raiseIf (batchSize = 0) "RuntimeError: max(): Expected reduction dim to be specified"
  return {
    values := indexFirstAxis hiddenStates indices
    indices := indices
    cuSeqlens := offsets seqlensInBatch
    length_cuSeqlens := by simp [seqlensInBatch, attentionMask.length_rows] }

/-- `torch.nested.as_nested_tensor(rows, layout=torch.jagged)`. -/
def asNestedTensor {α : Type} (rows : List (List α)) (hrows : rows.length = batchSize) :
    Except String (Jagged batchSize α) := do
  raiseIf (batchSize = 0) "RuntimeError: all tensors in list must have the same dtype"
  return ⟨rows, hrows⟩

/-- A per-token column without its padding. -/
def rmpadColumn {α : Type} (unpadded : Unpadded batchSize β) (tensor : Padded batchSize α) :
    Column batchSize α :=
  .nested (Jagged.ofOffsets (indexFirstAxis tensor unpadded.indices) unpadded.cuSeqlens
    unpadded.length_cuSeqlens)

/-- The routed experts are converted unless they are nested already. -/
def rmpadRoutedExperts (unpadded : Unpadded batchSize V) :
    Option (Column batchSize V) → Option (Column batchSize V)
  | some (.padded routedExperts) => some (rmpadColumn unpadded routedExperts)
  | routedExperts => routedExperts

/-- The teacher's columns are converted when both are there. -/
def rmpadTeacher (unpadded : Unpadded batchSize V) (data : TrainData batchSize V) :
    Except String (TrainData batchSize V) :=
  match data.teacherLogprobs, data.teacherIds with
  | some teacherLogprobs, some teacherIds => do
      let teacherLogprobs ← teacherLogprobs.asPadded
      let teacherIds ← teacherIds.asPadded
      return { data with
        teacherLogprobs := some (rmpadColumn unpadded teacherLogprobs)
        teacherIds := some (rmpadColumn unpadded teacherIds) }
  | _, _ => .ok data

/-- `left_right_2_no_padding(data)`. -/
def leftRight2NoPadding (data : TrainData batchSize V) :
    Except String (TrainData batchSize V) := do
  let inputIds ← data.inputIds.asPadded
  let attentionMask ← data.attentionMask.asPadded
  let responseMask ← data.responseMask.asPadded
  let positionIds ← data.positionIds.asPadded
  let unpadded ← unpadInput inputIds attentionMask
  let positionIdsNested ← asNestedTensor
    (List.zipWith maskedSelect positionIds.rows attentionMask.rows)
    (by simp [positionIds.length_rows, attentionMask.length_rows])
  rmpadTeacher unpadded { data with
    inputIds := .nested (Jagged.ofOffsets unpadded.values unpadded.cuSeqlens
      unpadded.length_cuSeqlens)
    positionIds := .nested positionIdsNested
    lossMask := some data.responseMask
    routedExperts := rmpadRoutedExperts unpadded data.routedExperts
    maxSeqLen := some inputIds.width
    maxResponseLen := some responseMask.width
    indices := some unpadded.indices }

/-- The output of a model, nested or as the flat list of all tokens. -/
inductive ModelOutput (batchSize : ℕ) (β : Type)
  | nested (tensor : Jagged batchSize β)
  | flat (values : List β)

def ModelOutput.values : ModelOutput batchSize β → List β
  | .nested tensor => tensor.values
  | .flat values => values

/-- The outputs for a response: those of its sequence's last tokens, shifted to the left by
one token. -/
def shiftedResponse (values : List β) (respLen seqOffset : ℕ) : List β :=
  pySlice ((seqOffset : ℤ) - respLen - 1) ((seqOffset : ℤ) - 1) values

/-- The lengths of the prompts and of the responses, and the width of the result. -/
structure ResponseLayout (batchSize : ℕ) where
  promptLens : List ℕ
  responseLens : List ℕ
  maxResponseLen : ℕ
  length_promptLens : promptLens.length = batchSize
  length_responseLens : responseLens.length = batchSize

/-- `prompt_lens + response_lens`. -/
def ResponseLayout.sequenceLens (layout : ResponseLayout batchSize) : List ℕ :=
  List.zipWith (· + ·) layout.promptLens layout.responseLens

/-- The branch on the layout of the prompts. -/
def responseLayout (data : TrainData batchSize V) :
    Except String (ResponseLayout batchSize) :=
  match data.prompts, data.responses with
  | .nested promptIds, .nested responseIds => do
      let responseLens := diff responseIds.offsets
      raiseIf (data.maxResponseLen = none ∧ batchSize = 0)
        "RuntimeError: max(): Expected reduction dim to be specified"
      return {
        promptLens := diff promptIds.offsets
        responseLens := responseLens
        maxResponseLen := data.maxResponseLen.getD (responseLens.foldr max 0)
        length_promptLens := by simp [Jagged.offsets, diff_offsets]
        length_responseLens := by simp [responseLens, Jagged.offsets, diff_offsets] }
  | .padded promptIds, .padded responseIds => do
      let attentionMask ← data.attentionMask.asPadded
      return {
        promptLens := attentionMask.rows.map fun mask => (mask.take promptIds.width).count true
        responseLens :=
          attentionMask.rows.map fun mask => (mask.drop promptIds.width).count true
        maxResponseLen := responseIds.width
        length_promptLens := by rw [List.length_map, attentionMask.length_rows]
        length_responseLens := by rw [List.length_map, attentionMask.length_rows] }
  | _, _ => .error "RuntimeError: prompts and responses have different layouts"

/-- `no_padding_2_padding(tensor, data)`. -/
def noPadding2Padding (zero : β) (tensor : ModelOutput batchSize β)
    (data : TrainData batchSize V) : Except String (Padded batchSize β) := do
  let values := tensor.values
  let layout ← responseLayout data
  let sequenceOffsets := cumsum layout.sequenceLens
  raiseIf (batchSize = 0) "IndexError: index -1 is out of bounds for dimension 0 with size 0"
  raiseIf (sequenceOffsets.getLastD 0 ≠ values.length) "AssertionError"
  raiseIf (0 ∈ layout.promptLens)
    ("AssertionError: seq_offset - resp_len - 1 assumes prompt_len > 0. Got " ++
      toString layout.promptLens)
  return {
    width := layout.maxResponseLen
    rows := List.zipWith
      (fun respLen seqOffset =>
        padTo zero layout.maxResponseLen (shiftedResponse values respLen seqOffset))
      layout.responseLens sequenceOffsets
    length_rows := by
      simp [sequenceOffsets, ResponseLayout.sequenceLens, layout.length_promptLens,
        layout.length_responseLens]
    length_row := by
      intro row hrow
      obtain ⟨index, hindex, rfl⟩ := List.mem_iff_getElem.mp hrow
      rw [List.getElem_zipWith, length_padTo] }

/-- `response_from_nested(tensor, response_mask)`. -/
def responseFromNested (tensor : Jagged batchSize β) (responseMask : Jagged batchSize Bool) :
    Except String (Jagged batchSize β) :=
  asNestedTensor
    (List.zipWith (shiftedResponse tensor.values) (diff responseMask.offsets)
      tensor.offsets.tail)
    (by simp [Jagged.offsets, diff_offsets])

/-- `response_to_nested(tensor, response_mask)`. -/
def responseToNested (tensor : Padded batchSize β) (responseMask : Jagged batchSize Bool) :
    Except String (Jagged batchSize β) :=
  asNestedTensor
    (List.zipWith (fun row respLen => row.take respLen) tensor.rows
      (diff responseMask.offsets))
    (by simp [Jagged.offsets, diff_offsets, tensor.length_rows])

/-- The outputs of a model for the sequences that it is given, one at every position, as a nested
tensor or as a flat list. -/
def modelOutput (predict : ℕ → ℕ → β) (inputIds : Jagged batchSize V) : Jagged batchSize β where
  rows := inputIds.rows.mapIdx fun row tokens => tokens.mapIdx fun position _ =>
    predict row position
  length_rows := by rw [List.length_mapIdx, inputIds.length_rows]

def ModelOutput.ofNested (isNested : Bool) (tensor : Jagged batchSize β) :
    ModelOutput batchSize β :=
  if isNested then .nested tensor else .flat tensor.values

/-- A forward pass of the trainer: the padding is removed, the model runs, and the response part
of its outputs is padded again. -/
def forwardPass (zero : β) (predict : ℕ → ℕ → β) (isNested : Bool)
    (data : TrainData batchSize V) : Except String (Padded batchSize β) := do
  let data ← leftRight2NoPadding data
  let inputIds ← data.inputIds.asNested
  noPadding2Padding zero (.ofNested isNested (modelOutput predict inputIds)) data

/-! ## Batches with padding on both sides -/

/-- A prompt and its response with the response mask. -/
structure Row (V : Type) where
  prompt : List V
  response : List V
  mask : List Bool
  length_mask : mask.length = response.length

/-- Rows with the widths that they are padded to, and the other columns. -/
structure LeftRightBatch (batchSize : ℕ) (V : Type) where
  rows : List (Row V)
  promptWidth : ℕ
  responseWidth : ℕ
  padToken : V
  positionIds : Padded batchSize V
  lossMask : Option (Column batchSize Bool)
  routedExperts : Option (Column batchSize V)
  teacherLogprobs : Option (Padded batchSize V)
  teacherIds : Option (Padded batchSize V)
  length_rows : rows.length = batchSize
  prompt_le : ∀ row ∈ rows, row.prompt.length ≤ promptWidth
  response_le : ∀ row ∈ rows, row.response.length ≤ responseWidth

def leftPad {α : Type} (value : α) (width : ℕ) (items : List α) : List α :=
  List.replicate (width - items.length) value ++ items

theorem length_leftPad {α : Type} (value : α) {width : ℕ} {items : List α}
    (hwidth : items.length ≤ width) : (leftPad value width items).length = width := by
  rw [leftPad, List.length_append, List.length_replicate, Nat.sub_add_cancel hwidth]

namespace LeftRightBatch

variable (batch : LeftRightBatch batchSize V)

def inputRow (row : Row V) : List V :=
  leftPad batch.padToken batch.promptWidth row.prompt ++
    padTo batch.padToken batch.responseWidth row.response

def maskRow (row : Row V) : List Bool :=
  leftPad false batch.promptWidth (List.replicate row.prompt.length true) ++
    padTo false batch.responseWidth (List.replicate row.response.length true)

/-- A column with one padded row for every row. -/
def column {α : Type} (width : ℕ) (padRow : Row V → List α)
    (hwidth : ∀ row ∈ batch.rows, (padRow row).length = width) : Padded batchSize α where
  width := width
  rows := batch.rows.map padRow
  length_rows := by rw [List.length_map, batch.length_rows]
  length_row := by
    intro padded hpadded
    obtain ⟨row, hrow, rfl⟩ := List.mem_map.mp hpadded
    exact hwidth row hrow

theorem length_inputRow {row : Row V} (hrow : row ∈ batch.rows) :
    (batch.inputRow row).length = batch.promptWidth + batch.responseWidth := by
  rw [inputRow, List.length_append, length_leftPad _ (batch.prompt_le row hrow), length_padTo]

theorem length_maskRow {row : Row V} (hrow : row ∈ batch.rows) :
    (batch.maskRow row).length = batch.promptWidth + batch.responseWidth := by
  rw [maskRow, List.length_append,
    length_leftPad _ (by simpa using batch.prompt_le row hrow), length_padTo]

/-- The batch as the trainer has it. -/
def trainData : TrainData batchSize V where
  inputIds := .padded (batch.column _ batch.inputRow fun _ hrow => batch.length_inputRow hrow)
  attentionMask :=
    .padded (batch.column _ batch.maskRow fun _ hrow => batch.length_maskRow hrow)
  responseMask := .padded (batch.column batch.responseWidth
    (fun row => padTo false batch.responseWidth row.mask) fun _ _ => length_padTo ..)
  positionIds := .padded batch.positionIds
  prompts := .padded (batch.column batch.promptWidth
    (fun row => leftPad batch.padToken batch.promptWidth row.prompt)
    fun row hrow => length_leftPad _ (batch.prompt_le row hrow))
  responses := .padded (batch.column batch.responseWidth
    (fun row => padTo batch.padToken batch.responseWidth row.response)
    fun _ _ => length_padTo ..)
  lossMask := batch.lossMask
  routedExperts := batch.routedExperts
  teacherLogprobs := batch.teacherLogprobs.map .padded
  teacherIds := batch.teacherIds.map .padded
  maxSeqLen := none
  maxResponseLen := none
  indices := none

/-- The sequences without padding. -/
def sequences : Jagged batchSize V where
  rows := batch.rows.map fun row => row.prompt ++ row.response
  length_rows := by rw [List.length_map, batch.length_rows]

/-- The response masks without padding. -/
def nestedMask : Jagged batchSize Bool where
  rows := batch.rows.map Row.mask
  length_rows := by rw [List.length_map, batch.length_rows]

/-- The outputs that predict the tokens of the responses: token `j` of a response stands at
position `prompt.length + j` of its sequence, and is predicted one position earlier. -/
def nestedResponses (predict : ℕ → ℕ → β) : Jagged batchSize β where
  rows := batch.rows.mapIdx fun index row =>
    (List.range row.response.length).map fun j => predict index (row.prompt.length + j - 1)
  length_rows := by rw [List.length_mapIdx, batch.length_rows]

/-- The same outputs at the response positions of the padded layout, zero elsewhere. -/
def paddedResponses (zero : β) (predict : ℕ → ℕ → β) : Padded batchSize β where
  width := batch.responseWidth
  rows := batch.rows.mapIdx fun index row =>
    (List.range batch.responseWidth).map fun j =>
      if j < row.response.length then predict index (row.prompt.length + j - 1) else zero
  length_rows := by rw [List.length_mapIdx, batch.length_rows]
  length_row := by
    intro padded hpadded
    obtain ⟨index, hindex, rfl⟩ := List.mem_mapIdx.mp hpadded
    rw [List.length_map, List.length_range]

end LeftRightBatch

end OneShotOPD.NoPadding
