import OneShotOPD.TensorDict.Selection
import OneShotOPD.Core.Literals
import Mathlib

/-!
# The jagged columns decide

Splitting, joining and selecting are right for every batch without jagged columns.  With them
they need rows to keep, and a torch that can unbind the columns and their chunks.
-/

namespace OneShotOPD.TensorDicts

open Checks

variable {α V W : Type} [Zero α] {torch : Torch α} {metadataCat : MetadataCat W}
variable {td : TensorDict α V W} {chunks size : ℕ} {indices : List ℤ}

/-- What the operations promise of a batch: chunks that hold consecutive rows and are joined to
the batch again, a fallback that makes the same chunks of the columns that are ragged on the
first axis of their samples, and a selection of the rows that the indices name.  The rows of a
jagged column come with its ragged axis. -/
structure SurgeryCorrect (torch : Torch α) (metadataCat : MetadataCat W)
    (td : TensorDict α V W) (chunks : ℕ) (indices : List ℤ) : Prop where
  joined : ∃ parts, chunkTensordict torch td chunks = .ok parts ∧ parts.length = chunks ∧
    (∀ index part, parts[index]? = some part →
      part.batchSize = td.batchSize / chunks ∧ ∀ key, part.rows key = (td.rows key).map
        (Rows.pick (List.range' (index * (td.batchSize / chunks)) (td.batchSize / chunks)))) ∧
    concatTensordict torch metadataCat parts = .ok td
  fallback : ∀ entry ∈ td.jagged.entries,
    entry.2.nested.raggedAxis = entry.2.nested.firstAxis → ∀ part < chunks,
      paddedChunk torch (td.batchSize / chunks) part entry.2.nested =
        unboundChunk (td.batchSize / chunks) part entry.2.nested.raggedAxis
          entry.2.nested.samples
  selected : ∃ out, indexSelectTensorDict torch (some td) indices = .ok (some out) ∧
    out.batchSize = indices.length ∧
    ∀ key, out.rows key = (td.rows key).map (Rows.pick (positions td.batchSize indices))

/-- A jagged column that torch can unbind, as a whole and in chunks. -/
structure Column.Supported (torch : Torch α) (size chunks : ℕ)
    (column : Column α) : Prop where
  unbinds : torch.unbindFails column = false
  partUnbinds : ∀ part < chunks, torch.unbindFails (column.part size part) = false

theorem surgeryCorrect (hwell : td.WellFormed) (hchunks : 0 < chunks)
    (hbatch : td.batchSize = chunks * size) (hinside : InRange td.batchSize indices)
    (hjagged : ∀ entry ∈ td.jagged.entries, 0 < size ∧ indices ≠ [] ∧
      entry.2.Supported torch size chunks) :
    SurgeryCorrect torch metadataCat td chunks indices := by
  have hsize : td.batchSize / chunks = size := by
    rw [hbatch, Nat.mul_div_cancel_left _ hchunks]
  refine ⟨⟨(List.range chunks).map (td.part size), ?_, ?_, ?_, ?_⟩, ?_, ?_⟩
  · refine chunkTensordict_eq hwell hbatch hchunks fun entry hentry => ?_
    obtain ⟨hpos, _, hsupported⟩ := hjagged entry hentry
    exact ⟨hsupported.unbinds, hpos⟩
  · rw [List.length_map, List.length_range]
  · intro index part hpart
    obtain ⟨position, hposition, rfl⟩ := List.mem_map.mp (List.mem_of_getElem? hpart)
    have hindex : td.part size index = td.part size position := by
      have hlt := (List.getElem?_eq_some_iff.mp hpart).1
      rw [List.length_map, List.length_range] at hlt
      rw [List.getElem?_map, List.getElem?_range hlt] at hpart
      exact Option.some.inj hpart
    rw [hsize, ← hindex]
    exact ⟨rfl, rows_part index⟩
  · refine concatTensordict_parts hwell hbatch hchunks fun entry hentry => ?_
    obtain ⟨hpos, _, hsupported⟩ := hjagged entry hentry
    exact ⟨hpos, hsupported.partUnbinds⟩
  · exact fun entry _ hfirst part _ => paddedChunk_eq_unboundChunk torch _ part hfirst
  · refine ⟨_, indexSelectTensorDict_eq hwell hinside fun entry hentry => ?_,
      length_positions hinside, rows_pick _⟩
    obtain ⟨_, hindices, hsupported⟩ := hjagged entry hentry
    exact ⟨hsupported.unbinds, hindices⟩

/-! ## What a jagged column needs -/

/-- No chunk without rows can be built. -/
theorem chunkColumn_zero {part : ℕ} {column result : Column α} :
    chunkColumn torch 0 part column ≠ .ok result := by
  intro hok
  obtain ⟨nested, hnested, _⟩ := bind_eq_ok.mp hok
  rw [chunkNested] at hnested
  split at hnested
  next tensors _ =>
    rw [unboundChunk, chunkOf, List.take_zero] at hnested
    cases hnested
  next =>
    rw [paddedChunk_eq, unboundChunk, chunkOf, List.take_zero] at hnested
    cases hnested

theorem size_pos_of_chunkTensordict {parts : List (TensorDict α V W)} (hchunks : 0 < chunks)
    (hok : chunkTensordict torch td chunks = .ok parts) {entry : String × Column α}
    (hentry : entry ∈ td.jagged.entries) : 0 < td.batchSize / chunks := by
  refine Nat.pos_of_ne_zero fun hzero => ?_
  rw [chunkTensordict] at hok
  obtain ⟨_, hparts⟩ := raiseIf_bind_eq_ok.mp hok
  obtain ⟨part, hpart⟩ := eq_ok_of_mapM hparts (List.mem_range.mpr hchunks)
  obtain ⟨jagged, hjagged, _⟩ := bind_eq_ok.mp hpart
  obtain ⟨column, hcolumn⟩ := Dict.traverse_isOk hjagged hentry
  rw [hzero] at hcolumn
  exact chunkColumn_zero hcolumn

theorem unbinds_of_concatNestedTensors {columns : List (Column α)} {result : Column α}
    (hok : concatNestedTensors torch columns = .ok result) {column : Column α}
    (hcolumn : column ∈ columns) : torch.unbindFails column = false := by
  cases columns with
  | nil => cases hok
  | cons first columns =>
      obtain ⟨unbindTensors, hunbind, _⟩ := bind_eq_ok.mp hok
      obtain ⟨tensors, htensors⟩ := eq_ok_of_mapM hunbind hcolumn
      obtain ⟨samples, hsamples, _⟩ := bind_eq_ok.mp htensors
      exact (unbind_eq_ok.mp hsamples).1

theorem partUnbinds_of_concatTensordict {result : TensorDict α V W} (hchunks : 0 < chunks)
    (hok : concatTensordict torch metadataCat ((List.range chunks).map (td.part size)) =
      .ok result) {entry : String × Column α} (hentry : entry ∈ td.jagged.entries) {part : ℕ}
    (hpart : part < chunks) : torch.unbindFails (entry.2.part size part) = false := by
  rw [concatTensordict_parts_eq hchunks] at hok
  obtain ⟨regular, _, hrest⟩ := bind_eq_ok.mp hok
  obtain ⟨jagged, hjagged, _⟩ := bind_eq_ok.mp hrest
  obtain ⟨column, hcolumn⟩ := Dict.traverse_isOk hjagged
    (List.mem_map_of_mem hentry : (entry.1, entry.2.part size 0) ∈ (td.part size 0).jagged.entries)
  rw [mapM_lookup_parts (fun _ => rfl) ((Dict.get?_eq_some_iff _ _ _).mpr hentry)] at hcolumn
  exact unbinds_of_concatNestedTensors hcolumn
    (List.mem_map_of_mem (List.mem_range.mpr hpart))

/-- Where the operations are right, the selection unbinds every jagged column. -/
theorem SurgeryCorrect.unbinds (hcorrect : SurgeryCorrect torch metadataCat td chunks indices)
    {entry : String × Column α} (hentry : entry ∈ td.jagged.entries) :
    torch.unbindFails entry.2 = false ∧ indices ≠ [] := by
  obtain ⟨out, hout, _⟩ := hcorrect.selected
  obtain ⟨regular, _, hrest⟩ := bind_eq_ok.mp hout
  obtain ⟨jagged, hjagged, _⟩ := bind_eq_ok.mp hrest
  obtain ⟨column, hcolumn⟩ := Dict.traverse_isOk hjagged hentry
  exact of_selectColumn_eq_ok hcolumn

/-- Joining metadata that must be equal. -/
def equalMetadata : MetadataCat ℕ where
  cat := fun values =>
    match values with
    | [] => .error "RuntimeError: expected a non-empty list"
    | value :: values =>
        if ∀ other ∈ values, other = value then .ok value else .error "KeyError"
  cat_replicate := fun _ _ => if_pos fun _ hother => List.eq_of_mem_replicate hother

/-- Two samples with two tokens and one token. -/
def tokenIds : Column ℕ := ⟨1, ⟨Tensor.ofFn ![3] fun index => index 0 + 5, [2, 1], 0, rfl⟩⟩

/-- The samples with their rewards and one setting. -/
def tokenBatch : TensorDict ℕ ℕ ℕ where
  batchSize := 2
  regular := ⟨[("reward", .dense [3, 4]), ("temperature", .data 1)], by decide⟩
  jagged := ⟨[("input_ids", tokenIds)], by decide⟩

theorem wellFormed_tokenBatch : tokenBatch.WellFormed where
  disjoint := by decide
  dense := by
    intro key rows hget
    have hentry := (Dict.get?_eq_some_iff _ _ _).mp hget
    simp only [tokenBatch, List.mem_cons, Prod.mk.injEq, Regular.dense.injEq, reduceCtorEq,
      and_false, List.not_mem_nil, or_false] at hentry
    rw [hentry.2]
    rfl
  stack := by
    intro key rows hget
    have hentry := (Dict.get?_eq_some_iff _ _ _).mp hget
    simp [tokenBatch] at hentry
  jagged := by
    intro entry hentry
    obtain rfl := List.mem_singleton.mp hentry
    rfl

/-- A torch that cannot unbind samples of two axes and more, and caches nothing. -/
def flatTorch : Torch ℕ where
  unbindFails := fun column => decide (2 ≤ column.rank)
  maxSeqlen := fun _ => none
  le_maxSeqlen := fun _ _ hnone => absurd hnone.symm (Option.some_ne_none _)

attribute [local instance] Literals.neZero_two in
/-- Position ids of two samples, four planes of two positions and four planes of five. -/
def positionIds : Column ℕ :=
  ⟨2, ⟨Tensor.ofFn ![4, 7] fun index => index 1, [2, 5], 1, rfl⟩⟩

def positionBatch : TensorDict ℕ ℕ ℕ where
  batchSize := 2
  regular := Dict.empty
  jagged := ⟨[("position_ids", positionIds)], List.nodup_singleton _⟩

end OneShotOPD.TensorDicts
