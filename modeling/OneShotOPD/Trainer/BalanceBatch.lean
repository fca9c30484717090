import OneShotOPD.Protocol.Pieces
import OneShotOPD.SeqlenBalancing.GroupSizes

/-!
# Balancing a batch

The trainer reorders the rows of a batch so that every rank gets about as many tokens.
The rows are partitioned by their workloads, either all at once, or one mini batch after
the other, or by the groups of a uid, and the partitions are laid out one behind the other.
The dispatch that cuts the batch into equal pieces later does not know the partitions.
-/

namespace OneShotOPD.BalanceBatch

open Checks Protocol SeqlenBalancing
open scoped List

variable {α Uid μ : Type} [DecidableEq Uid]

/-- A row of a tensor: of the attention mask, or of another tensor. -/
inductive RowEntry (α : Type) where
  | mask (kept : List Bool)
  | other (entry : α)

/-- `view(batch_size, -1).sum(-1)`, for one row. -/
def RowEntry.seqlen : RowEntry α → ℕ
  | .mask kept => kept.count true
  | .other _ => 0

/-- The settings of the trainer, with the number of data parallel ranks, which is one more
than the largest rank. -/
structure BalanceConfig where
  usePrefixGrouper : Bool
  keepMinibatch : Bool
  ppoMiniBatchSize : ℕ
  dpSize : ℕ
  dpSize_pos : 0 < dpSize

/-- Which of the three partitionings is made. -/
inductive BalanceMode (Uid : Type) where
  | plain
  | keepMinibatch
  | prefixGrouper (uidList : List Uid)

def BalanceConfig.mode (config : BalanceConfig) (uid : Option (List Uid)) : BalanceMode Uid :=
  match config.usePrefixGrouper, uid with
  | true, some uidList => .prefixGrouper uidList
  | _, _ => if config.keepMinibatch then .keepMinibatch else .plain

/-- `minibatch_size` samples behind each other. -/
def minibatch (workloadLst : List ℕ) (minibatchSize i : ℕ) : List ℕ :=
  (workloadLst.drop (i * minibatchSize)).take minibatchSize

/-- The partitions of one mini batch behind those of the mini batches before it. -/
def extendPartitions (minibatchSize i : ℕ) (global rearranged : List (List ℕ)) :
    List (List ℕ) :=
  List.zipWith (fun partition part => partition ++ part.map (· + minibatchSize * i))
    global rearranged

def minibatchPartitions (workloadLst : List ℕ) (minibatchSize dpSize : ℕ) :
    Except String (List (List ℕ)) :=
  if minibatchSize = 0 then .error "ZeroDivisionError"
  else
    (List.range (workloadLst.length / minibatchSize)).foldlM (fun global i => do
      let rearranged ←
        getSeqlenBalancedPartitions (minibatch workloadLst minibatchSize i) dpSize true
      return extendPartitions minibatchSize i global rearranged) (List.replicate dpSize [])

def prefixGroupPartitions (seqlenLst : List ℕ) (uidList : List Uid) (dpSize : ℕ) :
    Except String (List (List ℕ)) :=
  if uidList.dedup.length % dpSize ≠ 0 then
    .error "ValueError: PrefixGrouper with balance_batch requires num_uid_groups % dp_size == 0"
  else getGroupBalancedPartitions seqlenLst uidList dpSize

/-- The partitions, before their rows are ordered. -/
def partitionRows (config : BalanceConfig) (seqlenLst : List ℕ) :
    BalanceMode Uid → Except String (List (List ℕ))
  | .plain => getSeqlenBalancedPartitions (seqlenLst.map calculateWorkload) config.dpSize true
  | .keepMinibatch =>
      minibatchPartitions (seqlenLst.map calculateWorkload) config.ppoMiniBatchSize config.dpSize
  | .prefixGrouper uidList => prefixGroupPartitions seqlenLst uidList config.dpSize

/-- `items[::2]`. -/
def everyOther : List ℕ → List ℕ
  | [] => []
  | [item] => [item]
  | item :: _ :: items => item :: everyOther items

/-- `partition.sort(key=lambda x: (workload_lst[x], x))`. -/
def sortByWorkload (workloadLst partition : List ℕ) : List ℕ :=
  partition.insertionSort fun x y =>
    toLex (workloadLst.getD x 0, x) ≤ toLex (workloadLst.getD y 0, y)

/-- The rows by their workloads, with the small ones at both ends. -/
def orderPartition (workloadLst partition : List ℕ) : List ℕ :=
  let ordered := sortByWorkload workloadLst partition
  everyOther ordered ++ (everyOther ordered.tail).reverse

def globalPartitionLst (config : BalanceConfig) (seqlenLst : List ℕ) (mode : BalanceMode Uid) :
    Except String (List (List ℕ)) := do
  let partitions ← partitionRows config seqlenLst mode
  return if config.usePrefixGrouper then partitions
    else partitions.map (orderPartition (seqlenLst.map calculateWorkload))

/-- `batch.reorder(indices)`.  Without any index the tensor of them is one of floats. -/
def reorder (data : DataProto String (RowEntry α) Uid μ) (globalIdx : List ℕ) :
    Except String (DataProto String (RowEntry α) Uid μ) :=
  if globalIdx = [] then .error "IndexError: tensors used as indices must be long tensors"
  else data.selectIdxs globalIdx

def globalSeqlenLst (data : DataProto String (RowEntry α) Uid μ) : Option (List ℕ) := do
  let tensors ← data.batch
  let attentionMask ← tensors.columns.get? "attention_mask"
  return attentionMask.map RowEntry.seqlen

/-- `_balance_batch`: the partitions that are logged, and the batch in its new order. -/
def balanceBatch (config : BalanceConfig) (data : DataProto String (RowEntry α) Uid μ) :
    Except String (List (List ℕ) × DataProto String (RowEntry α) Uid μ) :=
  match globalSeqlenLst data with
  | none => .error "KeyError: attention_mask"
  | some seqlenLst => do
      let partitions ←
        globalPartitionLst config seqlenLst (config.mode (data.nonTensorBatch.get? "uid"))
      let batch ← reorder data partitions.flatten
      return (partitions, batch)

/-! ## What is promised -/

/-- The rows are permuted, every rank gets its partition, all rows of a uid are on one
rank, and every slice of a rank comes from one mini batch. -/
structure Aligned (config : BalanceConfig) (data : DataProto String (RowEntry α) Uid μ)
    (partitions : List (List ℕ)) (batch : DataProto String (RowEntry α) Uid μ) : Prop where
  perm : partitions.flatten.Perm (List.range data.len)
  rows : batch = data.gather partitions.flatten
  dispatched : ∀ autoPadding, batch.chunk autoPadding config.dpSize =
    .ok (partitions.map fun partition => data.gather partition)
  together : ∀ uidList, config.mode (data.nonTensorBatch.get? "uid") = .prefixGrouper uidList →
    ∀ partition ∈ partitions, ∀ i ∈ partition, ∀ j < uidList.length,
      uidList[j]? = uidList[i]? → j ∈ partition
  slices : config.mode (data.nonTensorBatch.get? "uid") = .keepMinibatch →
    ∀ partition ∈ partitions, ∀ place (hplace : place < partition.length),
      partition[place] / config.ppoMiniBatchSize =
        place / (config.ppoMiniBatchSize / config.dpSize)

/-- The call raises, or does what is promised. -/
def BalancesAligned (config : BalanceConfig) (data : DataProto String (RowEntry α) Uid μ) :
    Prop :=
  ∀ partitions batch, balanceBatch config data = .ok (partitions, batch) →
    Aligned config data partitions batch

def withAttentionMask (data : DataProto String (RowEntry α) Uid μ) (width : ℕ)
    (kept : ℕ → ℕ → Bool) : DataProto String (RowEntry α) Uid μ where
  batch := some {
    batchSize := data.len
    columns := ((data.batch.map TensorDict.columns).getD Dict.empty).insert "attention_mask"
      ((List.range data.len).map fun i => .mask ((List.range width).map (kept i)))
    aligned := by
      intro column hcolumn
      obtain ⟨key, column⟩ := column
      rw [← Dict.get?_eq_some_iff, Dict.get?_insert] at hcolumn
      split at hcolumn
      next => simp [← Option.some.inj hcolumn]
      next =>
        rw [Dict.get?_eq_some_iff] at hcolumn
        cases hbatch : data.batch with
        | none => exact absurd hcolumn (by simp [hbatch, Dict.empty])
        | some tensors =>
            rw [← DataProto.batchSize_eq_len hbatch]
            exact tensors.aligned _ (by simpa [hbatch] using hcolumn) }
  nonTensorBatch := data.nonTensorBatch
  metaInfo := data.metaInfo
  consistent := data.consistent

/-- The lengths that a mask leaves. -/
def maskSeqlens (count width : ℕ) (kept : ℕ → ℕ → Bool) : List ℕ :=
  (List.range count).map fun i => ((List.range width).map (kept i)).count true

@[simp]
theorem length_maskSeqlens (count width : ℕ) (kept : ℕ → ℕ → Bool) :
    (maskSeqlens count width kept).length = count := by
  simp [maskSeqlens]

/-- Every list of lengths is left by some mask. -/
theorem exists_maskSeqlens (seqlenLst : List ℕ) :
    ∃ width kept, maskSeqlens seqlenLst.length width kept = seqlenLst := by
  refine ⟨seqlenLst.sum, fun i j => decide (j < seqlenLst.getD i 0), ?_⟩
  refine List.ext_getElem (by simp) fun i hleft hright => ?_
  have hle : seqlenLst[i] ≤ seqlenLst.sum := List.le_sum_of_mem (List.getElem_mem _)
  have hcount : ∀ {width bound : ℕ}, bound ≤ width →
      ((List.range width).map fun j => decide (j < bound)).count true = bound := by
    intro width bound hbound
    obtain ⟨rest, rfl⟩ := Nat.exists_eq_add_of_le hbound
    induction rest with
    | zero =>
        rw [List.count, List.countP_map, List.countP_eq_length.mpr (by simp), Nat.add_zero,
          List.length_range]
    | succ rest ih =>
        rw [← Nat.add_assoc, List.range_succ, List.map_append, List.count_append, ih (by omega)]
        simp
  simp only [maskSeqlens, List.getElem_map, List.getElem_range, List.getD_eq_getElem _ _ hright]
  exact hcount hle

section WithMask

variable (data : DataProto String (RowEntry α) Uid μ) (width : ℕ) (kept : ℕ → ℕ → Bool)

omit [DecidableEq Uid] in
@[simp]
theorem len_withAttentionMask : (withAttentionMask data width kept).len = data.len := rfl

omit [DecidableEq Uid] in
@[simp]
theorem nonTensorBatch_withAttentionMask :
    (withAttentionMask data width kept).nonTensorBatch = data.nonTensorBatch := rfl

omit [DecidableEq Uid] in
theorem globalSeqlenLst_withAttentionMask :
    globalSeqlenLst (withAttentionMask data width kept) =
      some (maskSeqlens data.len width kept) := by
  simp [globalSeqlenLst, withAttentionMask, maskSeqlens, Dict.get?_insert_self,
    Function.comp_def, RowEntry.seqlen]

end WithMask

end OneShotOPD.BalanceBatch
