import OneShotOPD.Core.Scatter
import OneShotOPD.Protocol.RowMoves
import OneShotOPD.SeqlenBalancing.MicroBatches

/-!
# The way back to the original rows

The micro batches together hold the rows in some order, and restoring gathers
with the inverse of this order.  As each row is in one micro batch, the inverse
leads back to where the rows came from, whatever the groups, the partitions and
the order of the micro batches are.
-/

namespace OneShotOPD.SeqlenBalancing

open Checks

theorem getReverseIdx_eq_scatter {idxMap : List ℕ} (hidx : ∀ idx ∈ idxMap, idx < idxMap.length) :
    getReverseIdx idxMap = .ok (scatter idxMap idxMap (List.range idxMap.length)) := by
  have hfold : ∀ (entries : List (ℕ × ℕ)) (reverse : List ℕ),
      (∀ entry ∈ entries, entry.1 < reverse.length) →
      entries.foldlM (fun (reverse : List ℕ) entry =>
        if entry.1 < reverse.length then .ok (reverse.set entry.1 entry.2)
        else .error "IndexError") reverse =
      (.ok (entries.foldl (fun reverse entry => reverse.set entry.1 entry.2) reverse) :
        Except String (List ℕ)) := by
    intro entries
    induction entries with
    | nil => exact fun reverse _ => rfl
    | cons entry entries ih =>
        intro reverse hentries
        obtain ⟨hentry, hrest⟩ := List.forall_mem_cons.mp hentries
        rw [List.foldlM_cons, if_pos hentry]
        exact ih _ (by simpa using hrest)
  rw [getReverseIdx, hfold, scatter, List.zipIdx_eq_zip_range', ← List.range_eq_range']
  exact fun entry hentry => hidx _ (List.fst_mem_of_mem_zipIdx hentry)

/-- The inverse of an order finds where each position stands. -/
theorem getReverseIdx_eq_idxOf {indices : List ℕ} {count : ℕ}
    (hperm : indices.Perm (List.range count)) :
    getReverseIdx indices = .ok ((List.range count).map indices.idxOf) := by
  have hnodup : indices.Nodup := hperm.nodup_iff.mpr List.nodup_range
  have hlength : indices.length = count := by
    rw [hperm.length_eq, List.length_range]
  have hidx : ∀ idx ∈ indices, idx < indices.length := by
    intro idx hmem
    rw [hlength]
    exact List.mem_range.mp (hperm.mem_iff.mp hmem)
  rw [getReverseIdx_eq_scatter hidx]
  refine congrArg Except.ok (List.ext_getElem? fun position => ?_)
  by_cases hposition : position < count
  · have hmem : position ∈ indices := hperm.mem_iff.mpr (List.mem_range.mpr hposition)
    have hidx : indices.idxOf position < indices.length := List.idxOf_lt_length_of_mem hmem
    have hentry : (position, indices.idxOf position) ∈
        indices.zip (List.range indices.length) := by
      apply mem_zip_of_getElem?
      · exact List.getElem?_idxOf hmem
      · rw [List.getElem?_range hidx]
    rw [getElem?_scatter_of_mem_zip indices hnodup hentry (by omega)]
    simp [hposition]
  · rw [List.getElem?_eq_none (by rw [length_scatter]; omega),
      List.getElem?_eq_none (by simpa using hposition)]

theorem gather_idxOf {indices : List ℕ} {count : ℕ} (hperm : indices.Perm (List.range count)) :
    gather ((List.range count).map indices.idxOf) indices = List.range count := by
  rw [gather, List.filterMap_map]
  have hget : ∀ position ∈ List.range count,
      ((fun index => indices[index]?) ∘ indices.idxOf) position = some (id position) :=
    fun position hposition => List.getElem?_idxOf (hperm.mem_iff.mpr hposition)
  simpa using List.filterMap_eq_map_iff_forall_eq_some.mpr hget

/-- Restoring undoes any arrangement that has every item once. -/
theorem restoreDynamicBatch_gather {α : Type} {items : List α} {batchIdxList : List (List ℕ)}
    (hperm : batchIdxList.flatten.Perm (List.range items.length)) :
    restoreDynamicBatch (gather batchIdxList.flatten items) batchIdxList = .ok items := by
  have hmem : ∀ position ∈ batchIdxList.flatten, position < items.length :=
    fun position hposition => List.mem_range.mp (hperm.mem_iff.mp hposition)
  have hlength : (gather batchIdxList.flatten items).length = items.length := by
    rw [length_gather_of_lt hmem, hperm.length_eq, List.length_range]
  have hidx : ∀ idx ∈ (List.range items.length).map batchIdxList.flatten.idxOf,
      idx < (gather batchIdxList.flatten items).length := by
    intro idx hidx
    obtain ⟨position, hposition, rfl⟩ := List.mem_map.mp hidx
    rw [length_gather_of_lt hmem]
    exact List.idxOf_lt_length_of_mem (hperm.mem_iff.mpr hposition)
  have haligned : batchIdxList.flatten.length = (gather batchIdxList.flatten items).length := by
    rw [hlength, hperm.length_eq, List.length_range]
  rw [restoreDynamicBatch, if_neg (not_not.mpr haligned),
    getReverseIdx_eq_idxOf hperm]
  change (if _ then _ else _) = _
  rw [if_pos hidx, gather_gather hmem, gather_idxOf hperm, gather_range]

/-- A batch is given by the positions of its rows and their sequence lengths. -/
def positionsOf (count : ℕ) (seqLens : SeqLens) (haligned : seqLens.effective.length = count) :
    Batch ℕ :=
  ⟨List.range count, seqLens, by rw [haligned, List.length_range]⟩

section DataProto

open Protocol

variable {κ α β μ γ : Type}

/-- `prepare_dynamic_batch`: the tensors of a micro batch are those that
`rearrange_micro_batches` selects, and the object columns follow. -/
def prepareDynamicBatch (data : DataProto κ α β μ) (seqLens : SeqLens)
    (haligned : seqLens.effective.length = data.len) (maxTokenLen : ℕ) (settings : Settings) :
    Except String (List (DataProto κ α β μ) × List (List ℕ)) := do
  let (batch, batchIdxList) ← rearrangeMicroBatches (positionsOf data.len seqLens haligned)
    maxTokenLen { settings with forceGroupSize := 1 }
  let microBatches ← (batch.zip batchIdxList).mapM fun (rows, batchIdx) =>
    DataProto.ofColumns (data.batch.map (TensorDict.gather rows))
      (data.nonTensorBatch.map (gather batchIdx)) data.metaInfo
  return (microBatches, batchIdxList)

/-- The micro batches have the rows of the table, each once. -/
theorem prepareDynamicBatch_eq {data : DataProto κ α β μ} {seqLens : SeqLens}
    {haligned : seqLens.effective.length = data.len} {maxTokenLen : ℕ} {settings : Settings}
    {microBatches : List (DataProto κ α β μ)} {batchIdxList : List (List ℕ)}
    (hok : prepareDynamicBatch data seqLens haligned maxTokenLen settings =
      .ok (microBatches, batchIdxList)) :
    microBatches = batchIdxList.map (fun batchIdx => data.gather batchIdx) ∧
      batchIdxList.flatten.Perm (List.range data.len) := by
  obtain ⟨⟨batch, idxList⟩, hrearrange, hok⟩ := bind_eq_ok.mp hok
  obtain ⟨selected, hselected, hok⟩ := bind_eq_ok.mp hok
  cases hok
  obtain ⟨rfl, count, groupIdx, hrearranged⟩ := rearranged_of_ok hrearrange
  have hperm : batchIdxList.flatten.Perm (List.range data.len) := by
    simpa [positionsOf] using hrearranged.flatten_perm
  refine ⟨?_, hperm⟩
  have hrows : ∀ batchIdx ∈ batchIdxList,
      gather batchIdx (positionsOf data.len seqLens haligned).rows = batchIdx := by
    intro batchIdx hbatchIdx
    apply gather_of_range
    intro position hposition
    exact List.mem_range.mp (hperm.mem_iff.mp (List.mem_flatten.mpr ⟨_, hbatchIdx, hposition⟩))
  have hgather : ∀ entry ∈ batchIdxList.map fun batchIdx =>
      (gather batchIdx (positionsOf data.len seqLens haligned).rows, batchIdx),
      DataProto.ofColumns (data.batch.map (TensorDict.gather entry.1))
        (data.nonTensorBatch.map (gather entry.2)) data.metaInfo =
      .ok (data.gather entry.2) := by
    intro entry hentry
    obtain ⟨batchIdx, hbatchIdx, rfl⟩ := List.mem_map.mp hentry
    simp only [hrows batchIdx hbatchIdx]
    exact dif_pos (data.gather batchIdx).consistent
  rw [← List.map_prod_right_eq_zip] at hselected
  have hmicro := hselected.symm.trans
    (mapM_eq_ok_map (g := fun entry => data.gather entry.2) hgather)
  rw [Except.ok.inj hmicro, List.map_map]
  rfl

end DataProto

end OneShotOPD.SeqlenBalancing
