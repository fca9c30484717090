import OneShotOPD.Core.Dict
import OneShotOPD.Core.Gather
import Mathlib

/-!
# The batch that workers exchange

A `DataProto` is a table: tensor columns with a common batch size, object
columns of the same length, and meta information.  Everything that moves rows
chooses row positions, the same in all columns; only `concat` looks at column
names and merges the meta information of its parts.
-/

namespace OneShotOPD.Protocol

variable {κ α β μ : Type}

/-- Named tensors that agree in their first dimension. -/
@[ext]
structure TensorDict (κ α : Type) where
  batchSize : ℕ
  columns : Dict κ (List α)
  aligned : ∀ column ∈ columns.entries, column.2.length = batchSize

namespace TensorDict

/-- The tensors indexed along their first dimension. -/
def gather (positions : List ℕ) (tensors : TensorDict κ α) : TensorDict κ α where
  batchSize := (positions.filter fun position => position < tensors.batchSize).length
  columns := tensors.columns.map (OneShotOPD.gather positions)
  aligned := by
    intro column hcolumn
    obtain ⟨entry, hentry, rfl⟩ := List.mem_map.mp hcolumn
    rw [length_gather, tensors.aligned entry hentry]

variable [DecidableEq κ]

/-- Tensors with the same names can be concatenated. -/
def SameKeys (first : TensorDict κ α) (rest : List (TensorDict κ α)) : Prop :=
  ∀ part ∈ rest, part.columns.keys ⊆ first.columns.keys ∧
    first.columns.keys ⊆ part.columns.keys

instance (first : TensorDict κ α) (rest : List (TensorDict κ α)) :
    Decidable (SameKeys first rest) :=
  inferInstanceAs (Decidable (∀ part ∈ rest, part.columns.keys ⊆ first.columns.keys ∧
    first.columns.keys ⊆ part.columns.keys))

theorem length_getD_column {tensors : TensorDict κ α} {key : κ}
    (hkey : key ∈ tensors.columns.keys) :
    (tensors.columns.getD key []).length = tensors.batchSize := by
  rw [← Dict.get?_isSome_iff, Option.isSome_iff_exists] at hkey
  obtain ⟨column, hcolumn⟩ := hkey
  rw [Dict.getD, hcolumn]
  exact tensors.aligned (key, column) ((Dict.get?_eq_some_iff _ _ _).mp hcolumn)

theorem length_flatMap_column {first : TensorDict κ α} {rest : List (TensorDict κ α)}
    {key : κ} (hsame : SameKeys first rest) (hkey : key ∈ first.columns.keys) :
    (rest.flatMap fun part => part.columns.getD key []).length =
      (rest.map batchSize).sum := by
  rw [List.length_flatMap]
  congr 1
  exact List.map_congr_left fun part hpart =>
    length_getD_column ((hsame part hpart).2 hkey)

/-- `torch.cat(parts, dim=0)`. -/
def cat (first : TensorDict κ α) (rest : List (TensorDict κ α)) :
    Except String (TensorDict κ α) :=
  if hsame : SameKeys first rest then
    .ok {
      batchSize := first.batchSize + (rest.map batchSize).sum
      columns := first.columns.mapWithKey fun key column =>
        column ++ rest.flatMap fun part => part.columns.getD key []
      aligned := by
        intro column hcolumn
        obtain ⟨entry, hentry, rfl⟩ := List.mem_map.mp hcolumn
        have hkey : entry.1 ∈ first.columns.keys := List.mem_map_of_mem hentry
        rw [List.length_append, first.aligned entry hentry,
          length_flatMap_column hsame hkey] }
  else .error "KeyError"

end TensorDict

/-- The truth value of `value == other`.  Arrays of several elements have none and raise, and a
NaN is not equal to itself. -/
class ValueEq (μ : Type) where
  equal : μ → μ → Except String Bool

instance (priority := low) ValueEq.ofDecidableEq [DecidableEq μ] : ValueEq μ where
  equal value other := .ok (value = other)

/-- An array of several elements. -/
structure ArrayValue where
  values : List ℤ
  several : 2 ≤ values.length

/-- Arrays are compared element by element. -/
instance : ValueEq ArrayValue where
  equal _ _ := .error
    "ValueError: The truth value of an array with more than one element is ambiguous."

def twoSeeds : ArrayValue := ⟨[1, 2], le_rfl⟩

/-- The value of a metric, or the list of such values that `concat` makes. -/
inductive MetricValue (μ : Type) where
  | value (value : μ)
  | list (values : List (MetricValue μ))

/-- The meta information.  `metrics` stands for `None`, one dictionary or a list
of them; the dictionaries of one batch come from one record type, so that none
has a key that the first lacks. -/
structure MetaInfo (κ μ : Type) where
  autoPadding : Option Bool
  values : Dict String μ
  metrics : List (Dict String (MetricValue μ))
  rewardExtraKeys : Option (List κ)
  uniform : ∀ first ∈ metrics.head?, ∀ row ∈ metrics, row.keys ⊆ first.keys

namespace MetaInfo

theorem uniform_nil {κ μ : Type} :
    ∀ first ∈ ([] : List (Dict κ (MetricValue μ))).head?,
      ∀ row ∈ ([] : List (Dict κ (MetricValue μ))), row.keys ⊆ first.keys := by
  simp

def listOfDictToDictOfList (listOfDict : List (Dict String (MetricValue μ))) :
    Except String (Dict String (List (MetricValue μ))) :=
  match listOfDict with
  | [] => .ok Dict.empty
  | first :: _ =>
      if ∀ data ∈ listOfDict, data.keys ⊆ first.keys then
        .ok (first.mapWithKey fun key _ => listOfDict.filterMap fun data => data.get? key)
      else .error "Key is not present in the keys of the first dictionary in the list."

/-- One ordinary entry of a part, against what the parts before it had. -/
def mergeEntry [ValueEq μ] (merged : Dict String μ) (entry : String × μ) :
    Except String (Dict String μ) :=
  match merged.get? entry.1 with
  | some value => do
      if ← ValueEq.equal value entry.2 then return merged
      else .error ("Conflicting values for meta_info key " ++ entry.1)
  | none => .ok (merged.insert entry.1 entry.2)

def mergeValues [ValueEq μ] (parts : List (Dict String μ)) :
    Except String (Dict String μ) :=
  (parts.flatMap Dict.entries).foldlM mergeEntry Dict.empty

/-- Ordinary entries that equal themselves, as all but arrays and NaN do. -/
def Comparable [ValueEq μ] (info : MetaInfo κ μ) : Prop :=
  ∀ entry ∈ info.values.entries, ValueEq.equal entry.2 entry.2 = .ok true

theorem comparable_of_decidableEq [DecidableEq μ] (info : MetaInfo κ μ) : info.Comparable :=
  fun _ _ => congrArg Except.ok (decide_eq_true rfl)

/-- The same for the switch of auto padding, which is an ordinary entry too. -/
def mergeFlag (merged flag : Option Bool) : Except String (Option Bool) :=
  match merged, flag with
  | some value, some other =>
      if value = other then .ok merged
      else .error "Conflicting values for meta_info key _verl_auto_padding"
  | none, _ => .ok flag
  | some _, none => .ok merged

/-- The keys that every part names and that are columns of the result. -/
def mergeRewardExtraKeys [DecidableEq κ] (lists : List (List κ)) (columns : List κ) :
    Option (List κ) :=
  match lists with
  | [] => none
  | first :: _ => some (first.filter fun key => (∀ list ∈ lists, key ∈ list) ∧ key ∈ columns)

variable [DecidableEq κ] [ValueEq μ]

/-- The meta information of a concatenation with the given object columns. -/
def merge (parts : List (MetaInfo κ μ)) (columns : List κ) : Except String (MetaInfo κ μ) := do
  let autoPadding ← (parts.map autoPadding).foldlM mergeFlag none
  let values ← mergeValues (parts.map values)
  let allMetrics := parts.flatMap metrics
  let rewardExtraKeys := mergeRewardExtraKeys (parts.filterMap rewardExtraKeys) columns
  if allMetrics = [] then
    return { autoPadding, values, metrics := [], rewardExtraKeys, uniform := by simp }
  else
    let columnsOfMetrics ← listOfDictToDictOfList allMetrics
    return { autoPadding, values, rewardExtraKeys
             metrics := [columnsOfMetrics.map MetricValue.list], uniform := by simp }

end MetaInfo

/-- The length of a table: that of its tensors, or else of its first column. -/
def rowCount (batch : Option (TensorDict κ α)) (nonTensorBatch : Dict κ (List β)) : ℕ :=
  match batch with
  | some tensors => tensors.batchSize
  | none => (nonTensorBatch.entries.head?.map fun column => column.2.length).getD 0

@[ext]
structure DataProto (κ α β μ : Type) where
  batch : Option (TensorDict κ α)
  nonTensorBatch : Dict κ (List β)
  metaInfo : MetaInfo κ μ
  consistent : ∀ column ∈ nonTensorBatch.entries,
    column.2.length = rowCount batch nonTensorBatch

namespace DataProto

/-- `len(data)`. -/
def len (data : DataProto κ α β μ) : ℕ := rowCount data.batch data.nonTensorBatch

/-- `data.is_padding_enabled()`, where the second argument is the setting of the
whole process. -/
def isPaddingEnabled (data : DataProto κ α β μ) (autoPadding : Bool) : Bool :=
  data.metaInfo.autoPadding.getD false || autoPadding

/-- `__post_init__`: a table with columns of different lengths is refused. -/
def ofColumns (batch : Option (TensorDict κ α)) (nonTensorBatch : Dict κ (List β))
    (metaInfo : MetaInfo κ μ) : Except String (DataProto κ α β μ) :=
  if hconsistent : ∀ column ∈ nonTensorBatch.entries,
      column.2.length = rowCount batch nonTensorBatch then
    .ok ⟨batch, nonTensorBatch, metaInfo, hconsistent⟩
  else .error "AssertionError: a key is not equal to batch size in length"

theorem rowCount_gather (positions : List ℕ) (batch : Option (TensorDict κ α))
    (nonTensorBatch : Dict κ (List β)) :
    rowCount (batch.map (TensorDict.gather positions))
        (nonTensorBatch.map (OneShotOPD.gather positions)) =
      (positions.filter fun position => position < rowCount batch nonTensorBatch).length := by
  cases batch with
  | some tensors => rfl
  | none =>
      obtain ⟨entries, hnodup⟩ := nonTensorBatch
      cases entries with
      | nil => simp [rowCount, Dict.map]
      | cons column entries => exact length_gather positions column.2

/-- The rows at the given positions, with all their columns. -/
def gather (positions : List ℕ) (data : DataProto κ α β μ) : DataProto κ α β μ where
  batch := data.batch.map (TensorDict.gather positions)
  nonTensorBatch := data.nonTensorBatch.map (OneShotOPD.gather positions)
  metaInfo := data.metaInfo
  consistent := by
    intro column hcolumn
    obtain ⟨entry, hentry, rfl⟩ := List.mem_map.mp hcolumn
    rw [rowCount_gather, length_gather, data.consistent entry hentry]

/-- `data.select_idxs(idxs)`. -/
def selectIdxs (data : DataProto κ α β μ) (idxs : List ℕ) :
    Except String (DataProto κ α β μ) :=
  if ∀ idx ∈ idxs, idx < data.len then .ok (data.gather idxs)
  else .error "IndexError"

/-- `data[:stop]`. -/
def sliceTo (data : DataProto κ α β μ) (stop : ℕ) : DataProto κ α β μ :=
  data.gather ((List.range data.len).take stop)

/-- `data[:-count]` for a positive count. -/
def sliceButLast (data : DataProto κ α β μ) (count : ℕ) : DataProto κ α β μ :=
  data.gather ((List.range data.len).take (data.len - count))

/-- `data.repeat(repeat_times)`, interleaved as by default. -/
def repeatRows (data : DataProto κ α β μ) (repeatTimes : ℕ) : DataProto κ α β μ :=
  data.gather ((List.range data.len).flatMap (List.replicate repeatTimes))

/-- The sizes of the pieces that `TensorDict.chunk` cuts: equal ones, rounded
up, and what remains.  There may be fewer of them than asked for. -/
def chunkSizes (batchSize chunks : ℕ) : List ℕ :=
  let size := (batchSize + chunks - 1) / chunks
  List.replicate (batchSize / size) size ++
    if batchSize % size = 0 then [] else [batchSize % size]

/-- The sizes of the pieces that `np.array_split` cuts: as many as asked for,
the first ones longer by one row. -/
def arraySplitSizes (length chunks : ℕ) : List ℕ :=
  List.replicate (length % chunks) (length / chunks + 1) ++
    List.replicate (chunks - length % chunks) (length / chunks)

/-- The sizes of the pieces of a table: the object columns follow the tensors. -/
def pieceSizes (data : DataProto κ α β μ) (chunks : ℕ) : List ℕ :=
  match data.batch with
  | some _ => chunkSizes data.len chunks
  | none => arraySplitSizes data.len chunks

def chunk (data : DataProto κ α β μ) (autoPadding : Bool) (chunks : ℕ) :
    Except String (List (DataProto κ α β μ)) :=
  if chunks = 0 then .error "ZeroDivisionError"
  else if !data.isPaddingEnabled autoPadding && data.len % chunks != 0 then
    .error "AssertionError: only support equal chunk"
  else if (data.pieceSizes chunks).length ≠ chunks then
    .error "IndexError: list index out of range"
  else
    .ok (((data.pieceSizes chunks).splitLengths (List.range data.len)).map fun piece =>
      data.gather piece)

/-- A part without tensors cannot be joined with parts that have some. -/
def requireBatch (batch : Option (TensorDict κ α)) : Except String (TensorDict κ α) :=
  match batch with
  | some tensors => .ok tensors
  | none => .error "TypeError"

variable [DecidableEq κ] [ValueEq μ]

/-- The tensors of a concatenation; nothing is done when the first part has none. -/
def concatBatches (first : Option (TensorDict κ α)) (rest : List (Option (TensorDict κ α))) :
    Except String (Option (TensorDict κ α)) :=
  match first with
  | none => .ok none
  | some tensors => do
      let others ← rest.mapM requireBatch
      let joined ← tensors.cat others
      return some joined

/-- The object columns of a concatenation: those that every part carries. -/
def concatColumns (first : Dict κ (List β)) (rest : List (Dict κ (List β))) :
    Dict κ (List β) :=
  (first.filter fun key => ∀ part ∈ rest, key ∈ part.keys).mapWithKey fun key column =>
    column ++ rest.flatMap fun part => part.getD key []

/-- `DataProto.concat(data)`. -/
def concat (parts : List (DataProto κ α β μ)) : Except String (DataProto κ α β μ) :=
  match parts with
  | [] => .error "IndexError: list index out of range"
  | first :: rest => do
      let newBatch ← concatBatches first.batch (rest.map batch)
      let columns := concatColumns first.nonTensorBatch (rest.map nonTensorBatch)
      let mergedMetaInfo ← MetaInfo.merge (parts.map metaInfo) columns.keys
      ofColumns newBatch columns mergedMetaInfo

/-- `data.padding(padding_size, padding_candidate)`: the table that the object
holds afterwards. -/
def padding (data : DataProto κ α β μ) (paddingSize : ℕ) (paddingCandidate : String) :
    Except String (DataProto κ α β μ) :=
  if paddingSize = 0 then .ok data
  else do
    let candidate ← data.selectIdxs [if paddingCandidate = "first" then 0 else data.len - 1]
    let paddingPart := candidate.repeatRows paddingSize
    let padded ← concat [data, paddingPart]
    return { data with
      batch := padded.batch
      nonTensorBatch := padded.nonTensorBatch
      consistent := padded.consistent }

/-- The pieces of `pad_dataproto_to_divisor`: whole copies of the table, and a
last partial one. -/
def paddingProtos (data : DataProto κ α β μ) (remainingPad : ℕ) :
    List (DataProto κ α β μ) :=
  if _hstop : remainingPad = 0 ∨ data.len = 0 then []
  else
    let takeSize := min remainingPad data.len
    data.sliceTo takeSize :: data.paddingProtos (remainingPad - takeSize)
termination_by remainingPad
decreasing_by omega

def padToDivisor (data : DataProto κ α β μ) (sizeDivisor : ℕ) :
    Except String (DataProto κ α β μ × ℕ) :=
  if sizeDivisor = 0 then .error "ZeroDivisionError"
  else if data.len % sizeDivisor ≠ 0 then do
    let padSize := sizeDivisor - data.len % sizeDivisor
    let padded ← concat (data :: data.paddingProtos padSize)
    return (padded, padSize)
  else .ok (data, 0)

def unpad (data : DataProto κ α β μ) (padSize : ℕ) : DataProto κ α β μ :=
  if padSize ≠ 0 then data.sliceButLast padSize else data

end DataProto

end OneShotOPD.Protocol
