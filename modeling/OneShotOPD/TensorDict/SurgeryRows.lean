import OneShotOPD.TensorDict.Surgery
import Mathlib

/-!
# Rows through chunks, concatenation and selection

The chunks of a batch hold consecutive rows and are joined to the batch again; a selection holds
the rows it names.  All of it rests on torch being able to unbind the jagged columns.
-/

namespace OneShotOPD.TensorDicts

open Checks

variable {α V W : Type} [Zero α] {torch : Torch α} {metadataCat : MetadataCat W}
variable {td : TensorDict α V W} {chunks size : ℕ}

/-! ## Chunks -/

/-- The chunk of a jagged column that unbinding gives. -/
def Column.part (size part : ℕ) (column : Column α) : Column α :=
  ⟨column.rank, Nested.ofList column.nested.raggedAxis (chunkOf size part column.nested.samples)⟩

/-- A chunk of a batch whose jagged columns can be unbound. -/
def TensorDict.part (td : TensorDict α V W) (size part : ℕ) : TensorDict α V W :=
  ⟨size, td.regular.map (Regular.chunk size part), td.jagged.map (Column.part size part)⟩

theorem chunkColumn_eq {column : Column α} (hfails : torch.unbindFails column = false)
    (hrows : column.nested.lengths.length = chunks * size) {part : ℕ} (hpart : part < chunks)
    (hsize : 0 < size) :
    chunkColumn torch size part column = .ok (column.part size part) := by
  have hunbind : unbind torch column.nested = .ok column.nested.samples :=
    unbind_eq_ok.mpr ⟨hfails, rfl⟩
  rw [chunkColumn, chunkNested, hunbind]
  simp only [unboundChunk_eq hrows hpart hsize, bind, Except.bind]
  rfl

/-- Chunking a batch whose jagged columns can be unbound. -/
theorem chunkTensordict_eq (hwell : td.WellFormed) (hbatch : td.batchSize = chunks * size)
    (hchunks : 0 < chunks)
    (hjagged : ∀ entry ∈ td.jagged.entries, torch.unbindFails entry.2 = false ∧ 0 < size) :
    chunkTensordict torch td chunks = .ok ((List.range chunks).map (td.part size)) := by
  have hsize : td.batchSize / chunks = size := by
    rw [hbatch, Nat.mul_div_cancel_left _ hchunks]
  have hdivides : ¬ td.batchSize % chunks ≠ 0 := by
    rw [hbatch, Nat.mul_mod_right]
    exact not_not.mpr rfl
  rw [chunkTensordict]
  refine raiseIf_bind_eq_ok.mpr ⟨hdivides, ?_⟩
  rw [hsize]
  refine mapM_eq_ok_map fun part hpart => ?_
  have hcolumns : td.jagged.traverse (fun _ column => chunkColumn torch size part column) =
      .ok (td.jagged.mapWithKey fun _ column => column.part size part) := by
    refine Dict.traverse_eq_ok fun entry hentry => ?_
    obtain ⟨hfails, hpos⟩ := hjagged entry hentry
    exact chunkColumn_eq hfails ((hwell.jagged entry hentry).trans hbatch)
      (List.mem_range.mp hpart) hpos
  rw [hcolumns]
  rfl

/-! ## Concatenation of the chunks -/

theorem flatten_map_chunkOf {β : Type} {rows : List β} (hrows : rows.length = chunks * size) :
    ((List.range chunks).map fun part => chunkOf size part rows).flatten = rows := by
  rw [← List.flatMap_def]
  exact flatMap_chunkOf hrows

/-- The chunks of a column of rows are joined to the column. -/
theorem cat_chunks (hchunks : 0 < chunks) {column : Regular V W}
    (hdense : ∀ rows, column = .dense rows → rows.length = chunks * size)
    (hstack : ∀ rows, column = .stack rows → rows.length = chunks * size) :
    Regular.cat metadataCat ((List.range chunks).map fun part => column.chunk size part) =
      .ok column := by
  obtain ⟨chunks, rfl⟩ := Nat.exists_eq_succ_of_ne_zero (Nat.ne_of_gt hchunks)
  have hfirst : (List.range (chunks + 1)).map (fun part => column.chunk size part) =
      column.chunk size 0 :: ((List.range chunks).map fun part => column.chunk size
        (part + 1)) := by
    rw [List.range_succ_eq_map, List.map_cons, List.map_map]
    rfl
  cases column with
  | dense rows =>
      have hrows := flatten_map_chunkOf (hdense rows rfl)
      have hmap : ((List.range (chunks + 1)).map fun part =>
          (Regular.dense rows : Regular V W).chunk size part).mapM Regular.denseRows =
            .ok ((List.range (chunks + 1)).map fun part => chunkOf size part rows) := by
        rw [List.mapM_map]
        exact mapM_eq_ok_map fun _ _ => rfl
      rw [hfirst]
      change (do return Regular.dense (← List.mapM Regular.denseRows _).flatten :
        Except String (Regular V W)) = _
      rw [← hfirst, hmap]
      exact congrArg (fun rows => Except.ok (Regular.dense rows)) hrows
  | stack rows =>
      have hrows := flatten_map_chunkOf (hstack rows rfl)
      have hmap : ((List.range (chunks + 1)).map fun part =>
          (Regular.stack rows : Regular V W).chunk size part).mapM Regular.stackRows =
            .ok ((List.range (chunks + 1)).map fun part => chunkOf size part rows) := by
        rw [List.mapM_map]
        exact mapM_eq_ok_map fun _ _ => rfl
      rw [hfirst]
      change (do return Regular.stack (← List.mapM Regular.stackRows _).flatten :
        Except String (Regular V W)) = _
      rw [← hfirst, hmap]
      exact congrArg (fun rows => Except.ok (Regular.stack rows)) hrows
  | data value =>
      have hmap : ((List.range (chunks + 1)).map fun part =>
          (Regular.data value : Regular V W).chunk size part).mapM Regular.metadata =
            .ok (List.replicate (chunks + 1) value) := by
        rw [List.mapM_map, ← @List.length_range (chunks + 1), ← List.map_const',
          List.length_range]
        exact mapM_eq_ok_map fun _ _ => rfl
      rw [hfirst]
      change (do return Regular.data (← metadataCat.cat (← List.mapM Regular.metadata _)) :
        Except String (Regular V W)) = _
      rw [← hfirst, hmap]
      change (metadataCat.cat _ >>= fun value => _) = _
      rw [metadataCat.cat_replicate]
      rfl

theorem unbindAs_part {column : Column α} {part : ℕ}
    (hfails : torch.unbindFails (column.part size part) = false) :
    (column.part size part).unbindAs torch column.rank =
      .ok (chunkOf size part column.nested.samples) := by
  have hunbind : unbind torch (column.part size part).nested =
      .ok (chunkOf size part column.nested.samples) :=
    unbind_eq_ok.mpr ⟨hfails, samples_chunk.symm⟩
  rw [Column.unbindAs, hunbind]
  exact dif_pos rfl

/-- The chunks of a jagged column are joined to the column when they can be unbound. -/
theorem concatNestedTensors_parts (hchunks : 0 < chunks) {column : Column α} (hsize : 0 < size)
    (hrows : column.nested.lengths.length = chunks * size)
    (hfails : ∀ part < chunks, torch.unbindFails (column.part size part) = false) :
    concatNestedTensors torch ((List.range chunks).map fun part => column.part size part) =
      .ok column := by
  have hsamples := @flatten_map_chunkOf chunks size _ column.nested.samples
    (by rwa [Nested.length_samples])
  have hunbind : ((List.range chunks).map fun part => column.part size part).mapM
      (Column.unbindAs torch column.rank) =
        .ok ((List.range chunks).map fun part => chunkOf size part column.nested.samples) := by
    rw [List.mapM_map]
    exact mapM_eq_ok_map fun part hpart => unbindAs_part (hfails part (List.mem_range.mp hpart))
  have hlengths : column.nested.lengths ≠ [] := by
    rw [← List.length_pos_iff, hrows]
    exact Nat.mul_pos hchunks hsize
  have hbuilt : nestedTensorFromTensorList column.nested.raggedAxis column.nested.samples =
      .ok column.nested := by
    rw [nestedTensorFromTensorList_eq _ fun _ => Nested.sameOff_samples,
      Nested.ofList_samples hlengths]
    rw [← List.length_pos_iff, Nested.length_samples, List.length_pos_iff]
    exact hlengths
  obtain ⟨chunks, rfl⟩ := Nat.exists_eq_succ_of_ne_zero (Nat.ne_of_gt hchunks)
  have hfirst : (List.range (chunks + 1)).map (fun part => column.part size part) =
      column.part size 0 :: ((List.range chunks).map fun part => column.part size (part + 1)) := by
    rw [List.range_succ_eq_map, List.map_cons, List.map_map]
    rfl
  rw [hfirst]
  change (do
    let unbindTensors ← List.mapM (Column.unbindAs torch column.rank) _
    return ⟨column.rank, ← nestedTensorFromTensorList column.nested.raggedAxis
      unbindTensors.flatten⟩ : Except String (Column α)) = _
  rw [← hfirst, hunbind]
  change (do
    return ⟨column.rank, ← nestedTensorFromTensorList column.nested.raggedAxis
      (List.flatten _)⟩ : Except String (Column α)) = _
  rw [hsamples, hbuilt]
  rfl

theorem lookup_eq_ok {ν : Type} {dict : Dict String ν} {key : String} {value : ν} :
    lookup dict key = .ok value ↔ dict.get? key = some value := by
  rw [lookup]
  cases dict.get? key <;> simp

/-- A column of all chunks. -/
theorem mapM_lookup_parts {ν : Type} {column : TensorDict α V W → Dict String ν}
    {dict : Dict String ν} {chunk : ℕ → ν → ν} {key : String} {value : ν}
    (hcolumn : ∀ part, column (td.part size part) = dict.map (chunk part))
    (hvalue : dict.get? key = some value) :
    ((List.range chunks).map (td.part size)).mapM (fun td => lookup (column td) key) =
      .ok ((List.range chunks).map fun part => chunk part value) := by
  rw [List.mapM_map]
  refine mapM_eq_ok_map fun part _ => lookup_eq_ok.mpr ?_
  rw [hcolumn, Dict.get?_map, hvalue]
  rfl

theorem keys_part_jagged (part : ℕ) : (td.part size part).jagged.keys = td.jagged.keys :=
  Dict.keys_map _ _

theorem keys_part_regular (part : ℕ) : (td.part size part).regular.keys = td.regular.keys :=
  Dict.keys_map _ _

theorem sum_batchSize_parts :
    (((List.range chunks).map (td.part size)).map TensorDict.batchSize).sum = chunks * size := by
  rw [List.map_map]
  change ((List.range chunks).map fun _ => size).sum = _
  simp

/-- The computations of `concat_tensordict` on the chunks, column by column. -/
theorem concatTensordict_parts_eq (hchunks : 0 < chunks) :
    concatTensordict torch metadataCat ((List.range chunks).map (td.part size)) = (do
      let regular ← (td.part size 0).regular.traverse fun key _ => do
        Regular.cat metadataCat
          (← ((List.range chunks).map (td.part size)).mapM fun td => lookup td.regular key)
      let jagged ← (td.part size 0).jagged.traverse fun key _ => do
        concatNestedTensors torch
          (← ((List.range chunks).map (td.part size)).mapM fun td => lookup td.jagged key)
      return ⟨chunks * size, regular, jagged⟩) := by
  have hjagged : raiseIfAny ((List.range chunks).map (td.part size))
      (fun other => ¬ (other.jagged.keys ⊆ (td.part size 0).jagged.keys ∧
        (td.part size 0).jagged.keys ⊆ other.jagged.keys))
      (fun _ => "AssertionError: All tensordicts must have the same set of nested tensors.") =
        .ok () := by
    rw [raiseIfAny_eq_ok]
    intro other hother
    obtain ⟨part, _, rfl⟩ := List.mem_map.mp hother
    rw [keys_part_jagged, keys_part_jagged, not_not]
    exact ⟨List.Subset.refl _, List.Subset.refl _⟩
  have hregular : raiseIfAny ((List.range chunks).map (td.part size))
      (fun other => ¬ other.regular.keys ⊆ (td.part size 0).regular.keys)
      (fun _ => "KeyError") = .ok () := by
    rw [raiseIfAny_eq_ok]
    intro other hother
    obtain ⟨part, _, rfl⟩ := List.mem_map.mp hother
    rw [keys_part_regular, keys_part_regular, not_not]
    exact List.Subset.refl _
  have hsum := @sum_batchSize_parts _ _ _ _ td chunks size
  obtain ⟨chunks, rfl⟩ := Nat.exists_eq_succ_of_ne_zero (Nat.ne_of_gt hchunks)
  have hfirst : (List.range (chunks + 1)).map (td.part size) =
      td.part size 0 :: ((List.range chunks).map fun part => td.part size (part + 1)) := by
    rw [List.range_succ_eq_map, List.map_cons, List.map_map]
    rfl
  rw [hfirst] at hjagged hregular hsum ⊢
  rw [concatTensordict, hjagged, hregular, hsum]
  rfl

/-- The chunks are joined to the batch. -/
theorem concatTensordict_parts (hwell : td.WellFormed) (hbatch : td.batchSize = chunks * size)
    (hchunks : 0 < chunks)
    (hjagged : ∀ entry ∈ td.jagged.entries, 0 < size ∧
      ∀ part < chunks, torch.unbindFails (entry.2.part size part) = false) :
    concatTensordict torch metadataCat ((List.range chunks).map (td.part size)) =
      .ok td := by
  have hregular : (td.part size 0).regular.traverse (fun key _ => do
      Regular.cat metadataCat (← ((List.range chunks).map (td.part size)).mapM
        fun td : TensorDict α V W => lookup td.regular key)) = .ok td.regular := by
    refine Dict.traverse_map_eq_ok fun entry hentry => ?_
    have hget := (Dict.get?_eq_some_iff _ _ _).mpr hentry
    rw [mapM_lookup_parts (fun _ => rfl) hget]
    refine cat_chunks hchunks (fun rows hrows => ?_) fun rows hrows => ?_
    · rw [hrows] at hget
      exact (hwell.dense _ _ hget).trans hbatch
    · rw [hrows] at hget
      exact (hwell.stack _ _ hget).trans hbatch
  have hcolumns : (td.part size 0).jagged.traverse (fun key _ => do
      concatNestedTensors torch (← ((List.range chunks).map (td.part size)).mapM
        fun td : TensorDict α V W => lookup td.jagged key)) = .ok td.jagged := by
    refine Dict.traverse_map_eq_ok fun entry hentry => ?_
    have hget := (Dict.get?_eq_some_iff _ _ _).mpr hentry
    obtain ⟨hsize, hfails⟩ := hjagged entry hentry
    rw [mapM_lookup_parts (fun _ => rfl) hget]
    exact concatNestedTensors_parts hchunks hsize ((hwell.jagged entry hentry).trans hbatch)
      hfails
  rw [concatTensordict_parts_eq hchunks, hregular, hcolumns]
  change Except.ok _ = _
  rw [← hbatch]

end OneShotOPD.TensorDicts
