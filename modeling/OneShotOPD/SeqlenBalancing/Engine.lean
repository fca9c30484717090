import OneShotOPD.SeqlenBalancing.Restore

/-!
# The micro batches of an engine

An engine cuts a batch by token count or into pieces of one size, runs every
micro batch, and puts the outputs together again.  Here too the outputs end up
at the rows that they were computed from.
-/

namespace OneShotOPD.SeqlenBalancing

open Checks Protocol

structure EngineData where
  useDynamicBsz : Bool
  maxTokenLenPerGpu : Option ℕ
  spSize : ℕ
  microBatchSizePerGpu : Option ℕ

/-- `chunk_tensordict(data, chunks)`. -/
def chunkRows {ρ : Type} (rows : List ρ) (chunks : ℕ) : Except String (List (List ρ)) :=
  if chunks = 0 then .error "ZeroDivisionError"
  else if rows.length % chunks ≠ 0 then .error "AssertionError: expecting td with length divisible"
  else .ok ((List.replicate chunks (rows.length / chunks)).splitLengths rows)

/-- `prepare_micro_batches(data)`: the micro batches, and the positions of their
rows where these are rearranged. -/
def prepareMicroBatches {ρ : Type} (batch : Batch ρ) (data : EngineData) (settings : Settings) :
    Except String (List (List ρ) × Option (List (List ℕ))) :=
  if data.useDynamicBsz then
    match data.maxTokenLenPerGpu with
    | none => .error "AssertionError: max_token_len_per_gpu must be set"
    | some maxTokenLenPerGpu => do
        let (microBatches, batchIdxList) ←
          rearrangeMicroBatches batch (maxTokenLenPerGpu * data.spSize) settings
        return (microBatches, some batchIdxList)
  else
    match data.microBatchSizePerGpu with
    | none => .error "KeyError: micro_batch_size_per_gpu"
    | some microBatchSizePerGpu =>
        let size := settings.forceGroupSize * microBatchSizePerGpu
        if size = 0 then .error "ZeroDivisionError"
        else if batch.rows.length % size ≠ 0 then
          .error "AssertionError: data size must be divisible"
        else do
          let microBatches ← chunkRows batch.rows (batch.rows.length / size)
          return (microBatches, none)

/-- The output of a micro batch.  The parts are missing on other pipeline ranks;
a metric value that is no list counts as a list of one. -/
structure MicroOutput (κ γ ℓ μ : Type) where
  modelOutput : Option (Dict κ (List γ))
  loss : Option ℓ
  metrics : Option (Dict String (List μ))

structure BatchOutput (κ γ ℓ μ : Type) where
  modelOutput : Dict κ (List γ)
  loss : List ℓ
  metrics : Dict String (List μ)

variable {κ γ ℓ μ : Type} [DecidableEq κ]

/-- The outputs under one key, one after the other, in the order of the rows. -/
def concatOutputs (indices : Option (List (List ℕ))) (useDynamicBsz : Bool)
    (entry : κ × List (List γ)) : Except String (κ × List γ) :=
  if useDynamicBsz then
    match indices with
    | none => .error "TypeError: 'NoneType' object is not iterable"
    | some batchIdxList => do
        let restored ← restoreDynamicBatch entry.2.flatten batchIdxList
        return (entry.1, restored)
  else .ok (entry.1, entry.2.flatten)

def postprocessBatchFunc (noPadding : Bool) (outputLst : List (MicroOutput κ γ ℓ μ))
    (indices : Option (List (List ℕ))) (useDynamicBsz : Bool) :
    Except String (BatchOutput κ γ ℓ μ) :=
  if !noPadding then .error "AssertionError: only support NO_PADDING pad_mode"
  else do
    let modelOutput := Dict.collect
      ((outputLst.filterMap MicroOutput.modelOutput).flatMap Dict.entries)
    let concatenated ← modelOutput.entries.mapM (concatOutputs indices useDynamicBsz)
    return {
      modelOutput := Dict.ofList concatenated
      loss := outputLst.filterMap MicroOutput.loss
      metrics := (Dict.collect
        ((outputLst.filterMap MicroOutput.metrics).flatMap Dict.entries)).map List.flatten }

/-- The output of per-row functions, one for each key, on a micro batch. -/
def rowOutputs {ρ : Type} (heads : Dict κ (ρ → γ)) (loss : List ρ → Option ℓ)
    (metrics : List ρ → Option (Dict String (List μ))) (rows : List ρ) :
    MicroOutput κ γ ℓ μ where
  modelOutput := some (heads.map fun head => rows.map head)
  loss := loss rows
  metrics := metrics rows

/-- The outputs under a key, from all micro batches. -/
theorem getD_collect_rowOutputs {ρ : Type} (heads : Dict κ (ρ → γ))
    (microBatches : List (List ρ)) (key : κ) :
    (Dict.collect (microBatches.flatMap fun rows =>
        (heads.map fun head => rows.map head).entries)).getD key [] =
      microBatches.flatMap fun rows =>
        ((heads.get? key).map fun head => rows.map head).toList := by
  rw [Dict.getD_collect]
  induction microBatches with
  | nil => rfl
  | cons rows microBatches ih =>
      rw [List.flatMap_cons, List.filter_append, List.map_append, ih, List.flatMap_cons,
        Dict.filter_entries, Dict.get?_map]

/-- When concatenating and restoring leads from the micro batches to the rows, the
engine returns the outputs of the rows, under the keys of the functions. -/
theorem postprocessBatchFunc_rowOutputs {ρ : Type} {rows : List ρ}
    {microBatches : List (List ρ)} {indices : Option (List (List ℕ))} {useDynamicBsz : Bool}
    (hne : microBatches ≠ [])
    (hrestore : ∀ (head : ρ → γ) (key : κ),
      concatOutputs indices useDynamicBsz (key, microBatches.map (List.map head)) =
        .ok (key, rows.map head))
    (heads : Dict κ (ρ → γ)) (loss : List ρ → Option ℓ)
    (metrics : List ρ → Option (Dict String (List μ))) :
    ∃ output, postprocessBatchFunc true (microBatches.map (rowOutputs heads loss metrics))
        indices useDynamicBsz = .ok output ∧
      ∀ key, output.modelOutput.get? key =
        (heads.get? key).map fun head => rows.map head := by
  let pairs := microBatches.flatMap fun rows => (heads.map fun head => rows.map head).entries
  let collected := Dict.collect pairs
  let restored (key : κ) : List γ := ((heads.get? key).map fun head => rows.map head).getD []
  have hpairs : ((microBatches.map (rowOutputs heads loss metrics)).filterMap
      MicroOutput.modelOutput).flatMap Dict.entries = pairs := by
    rw [List.filterMap_map]
    have hsome : microBatches.filterMap
        (MicroOutput.modelOutput ∘ rowOutputs heads loss metrics) =
          microBatches.map fun rows => heads.map fun head => rows.map head :=
      List.filterMap_eq_map_iff_forall_eq_some.mpr fun _ _ => rfl
    rw [hsome, List.flatMap_map]
  have hkeys : ∀ key, key ∈ collected.keys ↔ key ∈ heads.keys := by
    intro key
    rw [Dict.mem_keys_collect, List.map_flatMap, List.mem_flatMap]
    have hrows : ∀ rows : List ρ,
        (heads.map fun head => rows.map head).entries.map Prod.fst = heads.keys :=
      fun rows => Dict.keys_map _ heads
    simp only [hrows]
    obtain ⟨first, hfirst⟩ := List.exists_mem_of_ne_nil _ hne
    exact ⟨fun ⟨_, _, hkey⟩ => hkey, fun hkey => ⟨first, hfirst, hkey⟩⟩
  have hconcat : ∀ entry ∈ collected.entries,
      concatOutputs indices useDynamicBsz entry = .ok (entry.1, restored entry.1) := by
    rintro ⟨key, values⟩ hentry
    have hkey : key ∈ heads.keys := (hkeys key).mp (List.mem_map_of_mem hentry)
    obtain ⟨head, hhead⟩ :=
      Option.isSome_iff_exists.mp ((Dict.get?_isSome_iff heads key).mpr hkey)
    have hvalues : values = microBatches.map (List.map head) := by
      have hgetD := getD_collect_rowOutputs heads microBatches key
      rw [Dict.getD, (Dict.get?_eq_some_iff _ _ _).mpr hentry, hhead] at hgetD
      exact hgetD.trans List.map_eq_flatMap.symm
    rw [hvalues, hrestore head key]
    simp [restored, hhead]
  have hmapM := mapM_eq_ok_map
    (g := fun entry : κ × List (List γ) => (entry.1, restored entry.1)) hconcat
  let outputs := microBatches.map (rowOutputs heads loss metrics)
  refine ⟨⟨Dict.ofList (collected.entries.map fun entry => (entry.1, restored entry.1)),
    outputs.filterMap MicroOutput.loss,
    (Dict.collect ((outputs.filterMap MicroOutput.metrics).flatMap Dict.entries)).map
      List.flatten⟩, ?_, fun key => ?_⟩
  · rw [postprocessBatchFunc]
    simp only [hpairs]
    exact bind_eq_ok.mpr ⟨_, hmapM, rfl⟩
  · have hofList := Dict.get?_ofList_map collected.keys restored key
    rw [Dict.keys, List.map_map] at hofList
    refine hofList.trans ?_
    have hiff := (hkeys key).trans (Dict.get?_isSome_iff heads key).symm
    cases hhead : heads.get? key with
    | none => simpa [hhead, Dict.keys] using hiff
    | some head => simpa [hhead, Dict.keys, restored] using hiff

/-- The chunks of a batch, one after the other, are the batch. -/
theorem chunkRows_eq_ok {ρ : Type} {rows : List ρ} {chunks : ℕ} {parts : List (List ρ)}
    (hok : chunkRows rows chunks = .ok parts) : parts ≠ [] ∧ parts.flatten = rows := by
  unfold chunkRows at hok
  split at hok
  next => contradiction
  next hpos =>
    split at hok
    next => contradiction
    next hdvd =>
      rw [Except.ok.injEq] at hok
      subst hok
      constructor
      · apply List.ne_nil_of_length_pos
        rw [List.length_splitLengths, List.length_replicate]
        exact Nat.pos_of_ne_zero hpos
      · apply List.flatten_splitLengths
        rw [List.sum_replicate_nat,
          Nat.mul_div_cancel' (Nat.dvd_of_mod_eq_zero (not_not.mp hdvd))]

/-- Restoring undoes the rearrangement, for the outputs of any per-row function. -/
theorem Rearranged.restore {ρ γ : Type} {batch : Batch ρ} {maxTokenLen : ℕ}
    {settings : Settings} {microBszIdx : List (List ℕ)} {count : ℕ} {groupIdx : List (List ℕ)}
    (hrearranged : Rearranged batch maxTokenLen settings microBszIdx count groupIdx)
    (f : ρ → γ) :
    restoreDynamicBatch
        ((microBszIdx.map fun partition => gather partition batch.rows).flatMap (List.map f))
        microBszIdx = .ok (batch.rows.map f) := by
  have hflatten : (microBszIdx.map fun partition => gather partition batch.rows).flatMap
      (List.map f) = gather microBszIdx.flatten (batch.rows.map f) := by
    rw [List.flatMap_map, gather_flatten]
    simp only [map_gather]
  rw [hflatten]
  apply restoreDynamicBatch_gather
  rw [List.length_map]
  exact hrearranged.flatten_perm

/-- The micro batches of an engine, and what restoring makes of their outputs. -/
theorem prepareMicroBatches_restores {ρ γ κ : Type} {batch : Batch ρ} {data : EngineData}
    {settings : Settings} {microBatches : List (List ρ)} {indices : Option (List (List ℕ))}
    (hok : prepareMicroBatches batch data settings = .ok (microBatches, indices)) :
    microBatches ≠ [] ∧ ∀ (f : ρ → γ) (key : κ),
      concatOutputs indices data.useDynamicBsz (key, microBatches.map (List.map f)) =
        .ok (key, batch.rows.map f) := by
  unfold prepareMicroBatches at hok
  split at hok
  next hdynamic =>
    split at hok
    next => contradiction
    next maxTokenLenPerGpu _ =>
      obtain ⟨⟨rearranged, batchIdxList⟩, hrearrange, hok⟩ := bind_eq_ok.mp hok
      cases hok
      obtain ⟨rfl, count, groupIdx, hrearranged⟩ := rearranged_of_ok hrearrange
      refine ⟨by simpa using hrearranged.ne_nil, fun f key => ?_⟩
      have hrestore := hrearranged.restore f
      rw [List.flatMap_def] at hrestore
      rw [concatOutputs, if_pos hdynamic]
      exact bind_eq_ok.mpr ⟨_, hrestore, rfl⟩
  next hstatic =>
    split at hok
    next => contradiction
    next microBatchSizePerGpu _ =>
      simp only at hok
      split at hok
      next => contradiction
      next =>
        split at hok
        next => contradiction
        next =>
          obtain ⟨parts, hparts, hok⟩ := bind_eq_ok.mp hok
          cases hok
          obtain ⟨hne, hflatten⟩ := chunkRows_eq_ok hparts
          refine ⟨hne, fun f key => ?_⟩
          rw [concatOutputs, if_neg hstatic]
          simp only
          rw [← List.map_flatten, hflatten]

/-- A function that works row by row on tables. -/
structure RowFunction (κ α β μ γ : Type) where
  run : DataProto κ α β μ → List γ
  length_run : ∀ data, (run data).length = data.len
  run_gather : ∀ (data : DataProto κ α β μ) (positions : List ℕ),
    (∀ position ∈ positions, position < data.len) →
      run (data.gather positions) = gather positions (run data)

/-- The outputs of a row function on the micro batches of a table. -/
theorem prepareDynamicBatch_restore {κ α β μ γ : Type} {data : DataProto κ α β μ}
    {seqLens : SeqLens} {haligned : seqLens.effective.length = data.len} {maxTokenLen : ℕ}
    {settings : Settings} {microBatches : List (DataProto κ α β μ)}
    {batchIdxList : List (List ℕ)}
    (hok : prepareDynamicBatch data seqLens haligned maxTokenLen settings =
      .ok (microBatches, batchIdxList)) (f : RowFunction κ α β μ γ) :
    restoreDynamicBatch (microBatches.flatMap f.run) batchIdxList = .ok (f.run data) := by
  obtain ⟨rfl, hperm⟩ := prepareDynamicBatch_eq hok
  have hrun : ∀ batchIdx ∈ batchIdxList,
      f.run (data.gather batchIdx) = gather batchIdx (f.run data) := by
    intro batchIdx hbatchIdx
    apply f.run_gather
    intro position hposition
    exact List.mem_range.mp (hperm.mem_iff.mp (List.mem_flatten.mpr ⟨_, hbatchIdx, hposition⟩))
  have hflatten : (batchIdxList.map fun batchIdx => data.gather batchIdx).flatMap f.run =
      gather batchIdxList.flatten (f.run data) := by
    rw [List.flatMap_map, gather_flatten, List.flatMap_def, List.flatMap_def,
      List.map_congr_left hrun]
  rw [hflatten]
  apply restoreDynamicBatch_gather
  rw [f.length_run]
  exact hperm

/-- Dynamic batching is undone: for plain rows, for tables, and for the outputs of
an engine. -/
theorem dynamicBatching_restored {ρ γ κ α β μ ℓ : Type} [DecidableEq κ] :
    (∀ (batch : Batch ρ) (maxTokenLen : ℕ) (settings : Settings)
      (microBatches : List (List ρ)) (microBszIdx : List (List ℕ)) (f : ρ → γ),
      rearrangeMicroBatches batch maxTokenLen settings = .ok (microBatches, microBszIdx) →
        restoreDynamicBatch (microBatches.flatMap (List.map f)) microBszIdx =
          .ok (batch.rows.map f)) ∧
    (∀ (data : DataProto κ α β μ) (seqLens : SeqLens)
      (haligned : seqLens.effective.length = data.len) (maxTokenLen : ℕ) (settings : Settings)
      (microBatches : List (DataProto κ α β μ)) (batchIdxList : List (List ℕ))
      (f : RowFunction κ α β μ γ),
      prepareDynamicBatch data seqLens haligned maxTokenLen settings =
          .ok (microBatches, batchIdxList) →
        restoreDynamicBatch (microBatches.flatMap f.run) batchIdxList = .ok (f.run data)) ∧
    (∀ (batch : Batch ρ) (data : EngineData) (settings : Settings)
      (microBatches : List (List ρ)) (indices : Option (List (List ℕ)))
      (heads : Dict κ (ρ → γ)) (loss : List ρ → Option ℓ)
      (metrics : List ρ → Option (Dict String (List μ))),
      prepareMicroBatches batch data settings = .ok (microBatches, indices) →
        ∃ output, postprocessBatchFunc true (microBatches.map (rowOutputs heads loss metrics))
            indices data.useDynamicBsz = .ok output ∧
          ∀ key, output.modelOutput.get? key =
            (heads.get? key).map fun head => batch.rows.map head) := by
  refine ⟨?_, ?_, ?_⟩
  · intro batch maxTokenLen settings microBatches microBszIdx f hok
    obtain ⟨rfl, count, groupIdx, hrearranged⟩ := rearranged_of_ok hok
    exact hrearranged.restore f
  · intro data seqLens haligned maxTokenLen settings microBatches batchIdxList f hok
    exact prepareDynamicBatch_restore hok f
  · intro batch data settings microBatches indices heads loss metrics hok
    obtain ⟨hne, hrestore⟩ := prepareMicroBatches_restores hok
    exact postprocessBatchFunc_rowOutputs hne hrestore heads loss metrics

/-- Four sequences, of which the second and the last one share a micro batch. -/
def fourSequences : Batch ℕ := ⟨[10, 11, 12, 13], .nested [5, 1, 4, 3], rfl⟩

def fourRows : DataProto ℕ ℕ ℕ ℕ :=
  ⟨none, ⟨[(0, [10, 11, 12, 13])], by decide⟩, ⟨none, Dict.empty, [], none, by simp⟩, by decide⟩

def markRows : RowFunction ℕ ℕ ℕ ℕ Bool where
  run data := List.replicate data.len true
  length_run data := List.length_replicate
  run_gather data positions hpositions := by
    rw [DataProto.len_gather_of_lt hpositions]
    symm
    apply List.eq_replicate_iff.mpr
    exact ⟨length_gather_of_lt (by simpa using hpositions),
      fun mark hmark => List.eq_of_mem_replicate (mem_of_mem_gather hmark)⟩

theorem fourSequences_restored :
    restoreDynamicBatch ([[11, 13], [10], [12]].flatMap (List.map (· + 1)))
        [[1, 3], [0], [2]] = .ok [11, 12, 13, 14] ∧
    restoreDynamicBatch (([[1, 3], [0], [2]].map fun batchIdx =>
        fourRows.gather batchIdx).flatMap markRows.run) [[1, 3], [0], [2]] =
      .ok [true, true, true, true] ∧
    ∃ output, postprocessBatchFunc true ([[11, 13], [10], [12]].map (rowOutputs
        (⟨[(7, (· + 1))], by decide⟩ : Dict ℕ (ℕ → ℕ)) (fun rows => some rows.length)
        fun _ => (none : Option (Dict String (List ℕ))))) (some [[1, 3], [0], [2]]) true =
          .ok output ∧
      ∀ key, output.modelOutput.get? key =
        ((⟨[(7, (· + 1))], by decide⟩ : Dict ℕ (ℕ → ℕ)).get? key).map fun head =>
          fourSequences.rows.map head := by
  have hrestored := @dynamicBatching_restored ℕ ℕ ℕ ℕ ℕ ℕ ℕ _
  have hmarked := @dynamicBatching_restored ℕ Bool ℕ ℕ ℕ ℕ ℕ _
  refine ⟨?_, ?_, ?_⟩
  · exact hrestored.1 fourSequences 6 ⟨none, none, none, true, 1⟩ _ _ (· + 1) rfl
  · exact hmarked.2.1 fourRows (.nested [5, 1, 4, 3]) rfl 6 ⟨none, none, none, true, 1⟩ _ _
      markRows rfl
  · exact hrestored.2.2 fourSequences ⟨true, some 6, 1, none⟩ ⟨none, none, none, true, 1⟩ _ _
      _ _ _ rfl

end OneShotOPD.SeqlenBalancing
