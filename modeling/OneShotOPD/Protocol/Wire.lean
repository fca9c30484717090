import OneShotOPD.Core.Checks
import OneShotOPD.Core.Dict
import OneShotOPD.Core.Words
import Mathlib.Algebra.BigOperators.Group.List.Basic

/-!
# The wire format of a TensorDict

A dense tensor travels as the name of its type, its shape and its bytes, a nested one as
its layout and its rows.  The bytes come back through `torch.frombuffer`, which refuses a
buffer without bytes, so that exactly the tensors and rows with elements come back.
-/

namespace OneShotOPD.Protocol.Wire

open Checks Words

variable {β : Type}

inductive Dtype where
  | uint8 | uint16 | uint32 | uint64
  | int8 | int16 | int32 | int64
  | float8e4m3fn | float8e4m3fnuz | float8e5m2 | float8e5m2fnuz | float8e8m0fnu
  | float16 | bfloat16 | float32 | float64
  | complex32 | complex64 | complex128
  | bool
  deriving DecidableEq

namespace Dtype

/-- `str(dtype).removeprefix("torch.")`. -/
def name : Dtype → String
  | uint8 => "uint8" | uint16 => "uint16" | uint32 => "uint32" | uint64 => "uint64"
  | int8 => "int8" | int16 => "int16" | int32 => "int32" | int64 => "int64"
  | float8e4m3fn => "float8_e4m3fn" | float8e4m3fnuz => "float8_e4m3fnuz"
  | float8e5m2 => "float8_e5m2" | float8e5m2fnuz => "float8_e5m2fnuz"
  | float8e8m0fnu => "float8_e8m0fnu"
  | float16 => "float16" | bfloat16 => "bfloat16" | float32 => "float32" | float64 => "float64"
  | complex32 => "complex32" | complex64 => "complex64" | complex128 => "complex128"
  | bool => "bool"

def itemsize : Dtype → ℕ
  | uint8 | int8 | bool => 1
  | float8e4m3fn | float8e4m3fnuz | float8e5m2 | float8e5m2fnuz | float8e8m0fnu => 1
  | uint16 | int16 | float16 | bfloat16 => 2
  | uint32 | int32 | float32 | complex32 => 4
  | uint64 | int64 | float64 | complex64 => 8
  | complex128 => 16

theorem itemsize_pos (dtype : Dtype) : 0 < dtype.itemsize := by cases dtype <;> decide

/-- `getattr(torch, dtype)`. -/
def ofName (name : String) : Option Dtype :=
  [uint8, uint16, uint32, uint64, int8, int16, int32, int64, float8e4m3fn, float8e4m3fnuz,
    float8e5m2, float8e5m2fnuz, float8e8m0fnu, float16, bfloat16, float32, float64, complex32,
    complex64, complex128, bool].find? fun dtype => dtype.name = name

theorem ofName_name (dtype : Dtype) : ofName dtype.name = some dtype := by
  cases dtype <;> decide

end Dtype

/-- A dense tensor: its elements in row-major order, each as the bytes of its type. -/
structure Tensor where
  dtype : Dtype
  shape : List ℕ
  elements : List (Word dtype.itemsize)
  length_eq : elements.length = shape.prod

/-- A jagged tensor: rows of one type that differ in their first dimension only. -/
structure JaggedTensor where
  dtype : Dtype
  trailing : List ℕ
  rows : List Tensor
  dtype_eq : ∀ row ∈ rows, row.dtype = dtype
  shape_eq : ∀ row ∈ rows, ∃ length, row.shape = length :: trailing

/-- What a `TensorDict` has under a key. -/
inductive Entry (β : Type) where
  | dense (tensor : Tensor)
  | nested (tensor : JaggedTensor)
  | nonTensor (data : β)

/-- The batch dimensions come first. -/
def Entry.HasBatchSize (batchSize : List ℕ) : Entry β → Prop
  | .dense tensor => batchSize <+: tensor.shape
  | .nested tensor => batchSize <+: [tensor.rows.length]
  | .nonTensor _ => True

instance (batchSize : List ℕ) (entry : Entry β) : Decidable (entry.HasBatchSize batchSize) := by
  cases entry with
  | dense tensor => exact inferInstanceAs (Decidable (batchSize <+: tensor.shape))
  | nested tensor => exact inferInstanceAs (Decidable (batchSize <+: [tensor.rows.length]))
  | nonTensor data => exact inferInstanceAs (Decidable True)

structure TensorDict (β : Type) where
  batchSize : List ℕ
  device : Option String
  items : Dict String (Entry β)
  consistent : ∀ item ∈ items.entries, item.2.HasBatchSize batchSize

/-- `TensorDict(source, batch_size, device)`. -/
def TensorDict.init (source : Dict String (Entry β)) (batchSize : List ℕ)
    (device : Option String) : Except String (TensorDict β) :=
  if hconsistent : ∀ item ∈ source.entries, item.2.HasBatchSize batchSize then
    .ok ⟨batchSize, device, source, hconsistent⟩
  else .error "RuntimeError: batch dimension mismatch"

/-! ## Encoding -/

structure EncodedTensor where
  dtype : String
  shape : List ℕ
  data : List UInt8
  deriving DecidableEq

/-- The tuples of three and of two. -/
inductive EncodedEntry where
  | single (tensor : EncodedTensor)
  | nested (layout : String) (rows : List EncodedTensor)
  deriving DecidableEq

structure EncodedDict where
  batchSize : List ℕ
  device : Option String
  items : Dict String EncodedEntry

/-- `serialize_single_tensor(obj)`. -/
def serializeSingleTensor (tensor : Tensor) : EncodedTensor where
  dtype := tensor.dtype.name
  shape := tensor.shape
  data := toBytes tensor.elements

/-- The loop body of `serialize_tensordict`. -/
def serializeEntry : Entry β → Except String EncodedEntry
  | .dense tensor => .ok (.single (serializeSingleTensor tensor))
  | .nested tensor => .ok (.nested "jagged" (tensor.rows.map serializeSingleTensor))
  | .nonTensor _ => .error "AttributeError: 'NonTensorData' object has no attribute 'is_nested'"

def serializeItem (item : String × Entry β) : Except String (String × EncodedEntry) := do
  let encoded ← serializeEntry item.2
  return (item.1, encoded)

/-- `serialize_tensordict(batch)`. -/
def serializeTensordict (batch : TensorDict β) : Except String EncodedDict := do
  let encodedItems ← batch.items.entries.mapM serializeItem
  return ⟨batch.batchSize, batch.device, Dict.ofList encodedItems⟩

/-! ## Decoding -/

/-- `torch.frombuffer(buffer, dtype=torch.uint8)`. -/
def frombuffer (buffer : List UInt8) : Except String (List UInt8) :=
  if buffer = [] then
    .error "ValueError: both buffer length (0) and count (-1) must not be 0"
  else .ok buffer

/-- `arr.view(dtype).view(shape)`. -/
def viewAs (bytes : List UInt8) (dtype : Dtype) (shape : List ℕ) : Except String Tensor :=
  match ofBytes dtype.itemsize bytes with
  | none => .error "RuntimeError: self.size(-1) must be divisible by the element size"
  | some elements =>
      if hlength : elements.length = shape.prod then .ok ⟨dtype, shape, elements, hlength⟩
      else .error "RuntimeError: shape is invalid for the size of the input"

/-- `deserialize_single_tensor(arr)`. -/
def deserializeSingleTensor (arr : EncodedTensor) : Except String Tensor :=
  match Dtype.ofName arr.dtype with
  | none => .error "AttributeError: module 'torch' has no such attribute"
  | some dtype => do
      let buffer ← frombuffer arr.data
      viewAs buffer dtype arr.shape

/-- `torch.nested.as_nested_tensor(rows, layout=torch.jagged)`. -/
def asNestedTensor (rows : List Tensor) : Except String JaggedTensor :=
  match rows with
  | [] => .error "RuntimeError: all tensors must have the same dtype"
  | first :: rest =>
      if hrows : (∀ row ∈ first :: rest, row.dtype = first.dtype) ∧
          ∀ row ∈ first :: rest, row.shape ≠ [] ∧ row.shape.tail = first.shape.tail then
        .ok {
          dtype := first.dtype
          trailing := first.shape.tail
          rows := first :: rest
          dtype_eq := hrows.1
          shape_eq := fun row hrow => by
            obtain ⟨hne, htail⟩ := hrows.2 row hrow
            exact ⟨row.shape.head hne, by rw [← htail, List.cons_head_tail]⟩ }
      else .error "RuntimeError: rows differ in type or in more than one dimension"

/-- The loop body of `deserialize_tensordict`. -/
def deserializeEntry : EncodedEntry → Except String (Entry β)
  | .single arr => do
      let tensor ← deserializeSingleTensor arr
      return .dense tensor
  | .nested layout data =>
      if layout ≠ "jagged" then .error "AttributeError: module 'torch' has no such attribute"
      else do
        let rows ← data.mapM deserializeSingleTensor
        let tensor ← asNestedTensor rows
        return .nested tensor

def deserializeItem (item : String × EncodedEntry) : Except String (String × Entry β) := do
  let decoded ← deserializeEntry item.2
  return (item.1, decoded)

/-- `deserialize_tensordict(arr)`. -/
def deserializeTensordict (arr : EncodedDict) : Except String (TensorDict β) := do
  let decodedItems ← arr.items.entries.mapM deserializeItem
  TensorDict.init (Dict.ofList decodedItems) arr.batchSize arr.device

/-! ## What comes back -/

/-- A tensor comes back unless it has no elements. -/
theorem deserialize_serializeSingleTensor (tensor : Tensor) :
    deserializeSingleTensor (serializeSingleTensor tensor) =
      if tensor.shape.prod = 0 then
        .error "ValueError: both buffer length (0) and count (-1) must not be 0"
      else .ok tensor := by
  have hempty : toBytes tensor.elements = [] ↔ tensor.shape.prod = 0 := by
    rw [toBytes_eq_nil_iff tensor.dtype.itemsize_pos, ← List.length_eq_zero_iff, tensor.length_eq]
  rw [deserializeSingleTensor, serializeSingleTensor]
  dsimp only
  rw [Dtype.ofName_name]
  dsimp only
  rw [frombuffer]
  by_cases hzero : tensor.shape.prod = 0
  · rw [if_pos (hempty.mpr hzero), if_pos hzero]
    rfl
  · rw [if_neg (mt hempty.mp hzero), if_neg hzero]
    change viewAs _ _ _ = _
    rw [viewAs, ofBytes_toBytes tensor.dtype.itemsize_pos]
    exact dif_pos tensor.length_eq

/-- Rows of a jagged tensor make the same tensor again. -/
theorem asNestedTensor_rows (tensor : JaggedTensor) (hrows : tensor.rows ≠ []) :
    asNestedTensor tensor.rows = .ok tensor := by
  obtain ⟨dtype, trailing, rows, hdtype, hshape⟩ := tensor
  cases rows with
  | nil => exact absurd rfl hrows
  | cons first rest =>
      have hfirst := hdtype first List.mem_cons_self
      obtain ⟨length, hlength⟩ := hshape first List.mem_cons_self
      have htail : first.shape.tail = trailing := by rw [hlength, List.tail_cons]
      subst hfirst htail
      refine dif_pos ⟨hdtype, fun row hrow => ?_⟩
      obtain ⟨rowLength, hrowLength⟩ := hshape row hrow
      rw [hrowLength]
      exact ⟨List.cons_ne_nil _ _, rfl⟩

/-- An entry with elements everywhere. -/
def Entry.HasElements : Entry β → Prop
  | .dense tensor => tensor.shape.prod ≠ 0
  | .nested tensor => tensor.rows ≠ [] ∧ ∀ row ∈ tensor.rows, row.shape.prod ≠ 0
  | .nonTensor _ => False

theorem deserializeEntry_of_hasElements {entry : Entry β} (helements : entry.HasElements) :
    ∃ encoded, serializeEntry entry = .ok encoded ∧ deserializeEntry encoded = .ok entry := by
  cases entry with
  | dense tensor =>
      refine ⟨_, rfl, ?_⟩
      rw [deserializeEntry, deserialize_serializeSingleTensor, if_neg helements]
      rfl
  | nested tensor =>
      obtain ⟨hrows, hnonzero⟩ := helements
      have hdecoded : (tensor.rows.map serializeSingleTensor).mapM deserializeSingleTensor =
          .ok tensor.rows := by
        rw [List.mapM_map]
        have hids := @mapM_eq_ok_map _ _ _ tensor.rows
          (deserializeSingleTensor ∘ serializeSingleTensor) id fun row hrow => by
            rw [Function.comp_apply, deserialize_serializeSingleTensor,
              if_neg (hnonzero row hrow), id]
        rwa [List.map_id] at hids
      refine ⟨_, rfl, ?_⟩
      rw [deserializeEntry, if_neg (not_not.mpr rfl), hdecoded]
      change (asNestedTensor tensor.rows >>= fun tensor => pure (Entry.nested tensor)) = _
      rw [asNestedTensor_rows tensor hrows]
      rfl
  | nonTensor data => exact absurd helements id

/-- Nothing else comes back. -/
theorem hasElements_of_deserializeEntry {entry decoded : Entry β} {encoded : EncodedEntry}
    (hencoded : serializeEntry entry = .ok encoded)
    (hdecoded : deserializeEntry encoded = .ok decoded) : entry.HasElements := by
  have hnonzero : ∀ {tensor decoded : Tensor},
      deserializeSingleTensor (serializeSingleTensor tensor) = .ok decoded →
        tensor.shape.prod ≠ 0 := by
    intro tensor decoded hok hzero
    rw [deserialize_serializeSingleTensor, if_pos hzero] at hok
    contradiction
  cases entry with
  | dense tensor =>
      cases hencoded
      obtain ⟨tensor', hok, -⟩ := bind_eq_ok.mp hdecoded
      exact hnonzero hok
  | nested tensor =>
      cases hencoded
      rw [deserializeEntry, if_neg (not_not.mpr rfl)] at hdecoded
      obtain ⟨rows, hrows, hdecoded⟩ := bind_eq_ok.mp hdecoded
      obtain ⟨tensor', hnested, -⟩ := bind_eq_ok.mp hdecoded
      constructor
      · intro hnil
        rw [hnil] at hrows
        cases hrows
        cases hnested
      · intro row hrow
        obtain ⟨decodedRow, hok⟩ := eq_ok_of_mapM hrows (List.mem_map_of_mem hrow)
        exact hnonzero hok
  | nonTensor data => cases hencoded

theorem keys_of_serializeItem {items : List (String × Entry β)}
    {encodedItems : List (String × EncodedEntry)}
    (hok : items.mapM serializeItem = .ok encodedItems) :
    encodedItems.map Prod.fst = items.map Prod.fst := by
  refine map_eq_of_mapM (fun item _ value hvalue => ?_) hok
  obtain ⟨encoded, -, hvalue⟩ := bind_eq_ok.mp hvalue
  cases hvalue
  rfl

/-- The encoded dictionary has the encoded items, in order. -/
theorem items_of_serializeTensordict {batch : TensorDict β} {encoded : EncodedDict}
    (hok : serializeTensordict batch = .ok encoded) :
    batch.items.entries.mapM serializeItem = .ok encoded.items.entries := by
  obtain ⟨encodedItems, hitems, hok⟩ := bind_eq_ok.mp hok
  cases hok
  have hkeys : (encodedItems.map Prod.fst).Nodup :=
    keys_of_serializeItem hitems ▸ batch.items.nodup_keys
  rw [Dict.entries_ofList hkeys, hitems]

/-- A dictionary comes back equal exactly if every entry is a tensor and has elements, in
every row if it is nested. -/
theorem deserialize_serialize_iff (batch : TensorDict β) :
    (serializeTensordict batch >>= deserializeTensordict) = .ok batch ↔
      ∀ item ∈ batch.items.entries, item.2.HasElements := by
  constructor
  · intro hok item hitem
    obtain ⟨encoded, hencoded, hdecoded⟩ := bind_eq_ok.mp hok
    have hitems := items_of_serializeTensordict hencoded
    obtain ⟨decodedItems, hdecodedItems, -⟩ := bind_eq_ok.mp hdecoded
    obtain ⟨index, hindex, rfl⟩ := List.mem_iff_getElem.mp hitem
    have hlength := length_of_mapM hitems
    have hlength' := length_of_mapM hdecodedItems
    have hserialized := getElem_of_mapM hitems hindex (by omega)
    have hdeserialized := getElem_of_mapM hdecodedItems (hlength.symm ▸ hindex) (by omega)
    obtain ⟨encodedEntry, hentry, hpair⟩ := bind_eq_ok.mp hserialized
    have hpair := Except.ok.inj hpair
    rw [← hpair] at hdeserialized
    obtain ⟨decodedEntry, hdecodedEntry, -⟩ := bind_eq_ok.mp hdeserialized
    exact hasElements_of_deserializeEntry hentry hdecodedEntry
  · intro helements
    obtain ⟨encodedItems, hencoded, hdecoded⟩ := mapM_undo (f := serializeItem)
      (g := deserializeItem) fun item hitem => by
        obtain ⟨encoded, hencoded, hdecoded⟩ :=
          deserializeEntry_of_hasElements (helements item hitem)
        refine ⟨(item.1, encoded), ?_, ?_⟩
        · rw [serializeItem, hencoded]
          rfl
        · rw [deserializeItem, hdecoded]
          rfl
    rw [serializeTensordict, hencoded]
    change deserializeTensordict ⟨_, _, Dict.ofList encodedItems⟩ = _
    have hkeys : (encodedItems.map Prod.fst).Nodup :=
      keys_of_serializeItem hencoded ▸ batch.items.nodup_keys
    rw [deserializeTensordict, Dict.entries_ofList hkeys, hdecoded]
    have hsame : Dict.ofList batch.items.entries = batch.items :=
      Dict.ext (Dict.entries_ofList batch.items.nodup_keys)
    change TensorDict.init (Dict.ofList batch.items.entries) _ _ = _
    rw [hsame]
    exact dif_pos batch.consistent

/-- A jagged batch of two rows, the second one without tokens. -/
def emptyRow : TensorDict Unit where
  batchSize := [2]
  device := none
  items := ⟨[("input_ids", .nested {
    dtype := .uint8
    trailing := []
    rows := [⟨.uint8, [2], [⟨[1], rfl⟩, ⟨[2], rfl⟩], rfl⟩, ⟨.uint8, [0], [], rfl⟩]
    dtype_eq := by simp
    shape_eq := by simp })], by simp⟩
  consistent := by simp [Entry.HasBatchSize]

/-- It is encoded, and cannot be decoded. -/
theorem emptyRow_not_roundTrips :
    (serializeTensordict emptyRow >>= deserializeTensordict) ≠ .ok emptyRow := by
  have herror : (serializeTensordict emptyRow >>= @deserializeTensordict Unit) =
      .error "ValueError: both buffer length (0) and count (-1) must not be 0" := rfl
  rw [herror]
  nofun

end OneShotOPD.Protocol.Wire
