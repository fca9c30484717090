import OneShotOPD.TensorDict.Jagged
import Mathlib

/-!
# Splitting, joining and selecting rows of a batch

A batch has columns of rows, columns of metadata that belong to no row, and jagged columns.
The operations treat the first two through the tensor dictionary and each jagged column on its
own, by unbinding it and building it again.
-/

namespace OneShotOPD.TensorDicts

open Checks

variable {α V W : Type} [Zero α]

/-- A column that is not jagged: a dense tensor or a stack of objects, by rows, or one object
for the whole batch. -/
inductive Regular (V W : Type)
  | dense (rows : List V)
  | stack (rows : List W)
  | data (value : W)

/-- A batch.  The code sorts the columns into jagged and other ones itself. -/
@[ext]
structure TensorDict (α V W : Type) [Zero α] where
  batchSize : ℕ
  regular : Dict String (Regular V W)
  jagged : Dict String (Column α)

/-! ## Chunks -/

def Regular.chunk (size part : ℕ) : Regular V W → Regular V W
  | .dense rows => .dense (chunkOf size part rows)
  | .stack rows => .stack (chunkOf size part rows)
  | .data value => .data value

def chunkColumn (torch : Torch α) (size part : ℕ) (column : Column α) :
    Except String (Column α) := do
  return ⟨column.rank, ← chunkNested torch size part column.nested⟩

/-- `chunk_tensordict`. -/
def chunkTensordict (torch : Torch α) (td : TensorDict α V W) (chunks : ℕ) :
    Except String (List (TensorDict α V W)) := do
  raiseIf (td.batchSize % chunks ≠ 0)
    "AssertionError: expecting td with length divisible by chunks"
  let chunkSize := td.batchSize / chunks
  (List.range chunks).mapM fun part => do
    let jagged ← td.jagged.traverse fun _ column => chunkColumn torch chunkSize part column
    return ⟨chunkSize, td.regular.map (Regular.chunk chunkSize part), jagged⟩

/-! ## Concatenation -/

/-- What `TensorDict.cat` makes of metadata; equal metadata stays. -/
structure MetadataCat (W : Type) where
  cat : List W → Except String W
  cat_replicate : ∀ value count, cat (List.replicate (count + 1) value) = .ok value

def Regular.denseRows : Regular V W → Except String (List V)
  | .dense rows => .ok rows
  | _ => .error "TypeError: expected a tensor"

def Regular.stackRows : Regular V W → Except String (List W)
  | .stack rows => .ok rows
  | _ => .error "TypeError: expected a stack"

def Regular.metadata : Regular V W → Except String W
  | .data value => .ok value
  | _ => .error "TypeError: expected metadata"

/-- One column of `TensorDict.cat`. -/
def Regular.cat (metadataCat : MetadataCat W) (columns : List (Regular V W)) :
    Except String (Regular V W) :=
  match columns with
  | [] => .error "RuntimeError: expected a non-empty list"
  | .dense _ :: _ => do return .dense (← columns.mapM Regular.denseRows).flatten
  | .stack _ :: _ => do return .stack (← columns.mapM Regular.stackRows).flatten
  | .data _ :: _ => do return .data (← metadataCat.cat (← columns.mapM Regular.metadata))

/-- The unbound samples of a column, which must have the rank of the first one. -/
def Column.unbindAs (torch : Torch α) (rank : ℕ) (column : Column α) :
    Except String (List (Tensor rank α)) := do
  let tensors ← unbind torch column.nested
  if hrank : column.rank = rank then return hrank ▸ tensors
  else .error "RuntimeError: Tensors must have same number of dimensions"

/-- `concat_nested_tensors`. -/
def concatNestedTensors (torch : Torch α) (columns : List (Column α)) :
    Except String (Column α) :=
  match columns with
  | [] => .error "IndexError: list index out of range"
  | first :: _ => do
      let unbindTensors ← columns.mapM (Column.unbindAs torch first.rank)
      return ⟨first.rank,
        ← nestedTensorFromTensorList first.nested.raggedAxis unbindTensors.flatten⟩

def lookup {ν : Type} (dict : Dict String ν) (key : String) : Except String ν :=
  match dict.get? key with
  | some value => .ok value
  | none => .error "KeyError"

/-- `concat_tensordict`. -/
def concatTensordict (torch : Torch α) (metadataCat : MetadataCat W)
    (data : List (TensorDict α V W)) : Except String (TensorDict α V W) :=
  match data with
  | [] => .error "AssertionError: Must have at least one tensordict"
  | first :: _ => do
      raiseIfAny data (fun td => ¬ (td.jagged.keys ⊆ first.jagged.keys ∧
          first.jagged.keys ⊆ td.jagged.keys))
        fun _ => "AssertionError: All tensordicts must have the same set of nested tensors."
      raiseIfAny data (fun td => ¬ td.regular.keys ⊆ first.regular.keys) fun _ => "KeyError"
      let regular ← first.regular.traverse fun key _ => do
        Regular.cat metadataCat (← data.mapM fun td => lookup td.regular key)
      let jagged ← first.jagged.traverse fun key _ => do
        concatNestedTensors torch (← data.mapM fun td => lookup td.jagged key)
      return ⟨(data.map TensorDict.batchSize).sum, regular, jagged⟩

/-! ## Selection -/

/-- The position that an index names, counted from the end if it is negative. -/
def resolve (length : ℕ) (index : ℤ) : Option ℕ :=
  if 0 ≤ index ∧ index < length then some index.toNat
  else if -length ≤ index ∧ index < 0 then some (length + index).toNat
  else none

/-- `[rows[idx] for idx in indices]`. -/
def selectRows {β : Type} (rows : List β) (indices : List ℤ) : Except String (List β) :=
  indices.mapM fun index =>
    match (resolve rows.length index).bind (rows[·]?) with
    | some row => .ok row
    | none => .error "IndexError: index out of range"

def Regular.select (indices : List ℤ) : Regular V W → Except String (Regular V W)
  | .dense rows => do return .dense (← selectRows rows indices)
  | .stack rows => do return .stack (← selectRows rows indices)
  | .data value => .ok (.data value)

def selectColumn (torch : Torch α) (indices : List ℤ) (column : Column α) :
    Except String (Column α) := do
  let tensors ← unbind torch column.nested
  let selectedTensors ← selectRows tensors indices
  return ⟨column.rank, ← nestedTensorFromTensorList column.nested.raggedAxis selectedTensors⟩

/-- `index_select_tensor_dict`. -/
def indexSelectTensorDict (torch : Torch α) (batch : Option (TensorDict α V W))
    (indices : List ℤ) : Except String (Option (TensorDict α V W)) :=
  match batch with
  | none => .ok none
  | some batch => do
      let regular ← batch.regular.traverse fun _ column => column.select indices
      let jagged ← batch.jagged.traverse fun _ column => selectColumn torch indices column
      return some ⟨indices.length, regular, jagged⟩

/-! ## Rows -/

/-- The rows of a column, in order, with the ragged axis if it has one. -/
inductive Rows (α V W : Type) [Zero α]
  | dense (rows : List V)
  | stack (rows : List W)
  | data (value : W)
  | jagged (raggedIdx : ℕ) (rows : List (Σ rank, Tensor rank α))

def Regular.rows : Regular V W → Rows α V W
  | .dense rows => .dense rows
  | .stack rows => .stack rows
  | .data value => .data value

/-- The samples of a jagged column and its `_ragged_idx`. -/
def Column.rows (column : Column α) : Rows α V W :=
  .jagged (column.nested.raggedAxis + 1) (column.nested.samples.map fun sample => ⟨_, sample⟩)

def TensorDict.rows (td : TensorDict α V W) (key : String) : Option (Rows α V W) :=
  ((td.regular.get? key).map Regular.rows).or ((td.jagged.get? key).map Column.rows)

/-- The rows at the given positions. -/
def Rows.pick (positions : List ℕ) : Rows α V W → Rows α V W
  | .dense rows => .dense (positions.filterMap (rows[·]?))
  | .stack rows => .stack (positions.filterMap (rows[·]?))
  | .data value => .data value
  | .jagged raggedIdx rows => .jagged raggedIdx (positions.filterMap (rows[·]?))

/-- A batch whose columns have as many rows as the batch. -/
structure TensorDict.WellFormed (td : TensorDict α V W) : Prop where
  disjoint : ∀ key ∈ td.regular.keys, key ∉ td.jagged.keys
  dense : ∀ key rows, td.regular.get? key = some (.dense rows) → rows.length = td.batchSize
  stack : ∀ key rows, td.regular.get? key = some (.stack rows) → rows.length = td.batchSize
  jagged : ∀ entry ∈ td.jagged.entries, entry.2.nested.lengths.length = td.batchSize

end OneShotOPD.TensorDicts
