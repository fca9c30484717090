import OneShotOPD.AgentLoop.Postprocess
import Mathlib

/-!
# The reward columns of a mixed batch

The manager cuts the rows into chunks for its workers, concatenates their tables
and rebuilds the meta information.  The list of reward columns is intersected in
every worker and again over the workers, put in place of the first worker's list
and filtered by the columns.
-/

namespace OneShotOPD.AgentLoop

open Checks Protocol InternalAgentLoopOutput

variable {S V : Type}

/-- `_rebuild_manager_meta_info`. -/
def rebuildManagerMetaInfo (concatMetaInfo worker0MetaInfo : MetaInfo String Unit)
    (presentColumns : List String) : MetaInfo String Unit :=
  { worker0MetaInfo with
    metrics := []
    rewardExtraKeys :=
      (concatMetaInfo.rewardExtraKeys.or worker0MetaInfo.rewardExtraKeys).map fun keys =>
        keys.filter (· ∈ presentColumns)
    uniform := MetaInfo.uniform_nil }

/-- The chunks of the workers, which are equally long. -/
def workerChunks (workers : ℕ) (rows : List (InternalAgentLoopOutput S V)) :
    List (List (InternalAgentLoopOutput S V)) :=
  (List.replicate workers (rows.length / workers)).splitLengths rows

section Manager

variable (objects : PyObjects V) (hasRewardLoop : Bool) (promptKeys : List String)

/-- `AgentLoopManager.generate_sequences`, from what the agent loops return for the
rows. -/
def generateSequences (workers : ℕ) (rows : List (InternalAgentLoopOutput S V)) :
    Except String (DataProto String (S ⊕ V) V Unit) :=
  if workers = 0 then .error "ZeroDivisionError"
  else if rows.length % workers ≠ 0 then .error "AssertionError: only support equal chunk"
  else do
    let outputs ← (workerChunks workers rows).mapM
      (postprocess objects hasRewardLoop promptKeys)
    let output ← DataProto.concat outputs
    match outputs with
    | [] => .error "IndexError: list index out of range"
    | worker0 :: _ => return output.withMetaInfo (rebuildManagerMetaInfo output.metaInfo
        worker0.metaInfo output.nonTensorBatch.keys)

/-! ## The property -/

/-- Every row carries the reward key. -/
def Carried (rows : List (InternalAgentLoopOutput S V)) (key : String) : Prop :=
  ∀ row ∈ rows, key ∈ row.rewardInfo.keys

/-- The list of reward columns is there, and names exactly the keys that every row
carries. -/
def NamesCarried (rows : List (InternalAgentLoopOutput S V))
    (result : DataProto String (S ⊕ V) V Unit) : Prop :=
  ∃ keys, result.metaInfo.rewardExtraKeys = some keys ∧
    ∀ key, key ∈ keys ↔ Carried rows key

/-- Each of these keys has a column with one entry for each row. -/
def HasColumns (rows : List (InternalAgentLoopOutput S V))
    (result : DataProto String (S ⊕ V) V Unit) : Prop :=
  ∀ key, Carried rows key → ∃ column,
    result.nonTensorBatch.get? key = some column ∧ column.length = rows.length

/-- The entries are the values that the rows carry. -/
def HoldsValues (rows : List (InternalAgentLoopOutput S V))
    (result : DataProto String (S ⊕ V) V Unit) : Prop :=
  ∀ key, Carried rows key → ∀ column, result.nonTensorBatch.get? key = some column →
    column.map some = rows.map fun row => row.rewardInfo.get? key

/-- A later group that writes under the key in a chunk writes the values that the
rows carry. -/
def Unshadowed (chunk : List (InternalAgentLoopOutput S V)) (key : String) : Prop :=
  ∀ row ∈ chunk, ∀ value, laterEntry objects chunk key row = some value →
    row.rewardInfo.get? key = some value

/-! ## What the manager returns -/

/-- Lists put together of pieces agree when the pieces do. -/
theorem flatMap_map_eq_iff {α β : Type} (parts : List (List α)) (f g : List α → α → β) :
    (parts.flatMap fun part => part.map (f part)) = (parts.flatMap fun part => part.map (g part)) ↔
      ∀ part ∈ parts, ∀ item ∈ part, f part item = g part item := by
  induction parts with
  | nil => simp
  | cons part parts ih =>
      rw [List.flatMap_cons, List.flatMap_cons, List.forall_mem_cons, ← ih,
        ← List.map_inj_left]
      constructor
      · intro heq
        exact List.append_inj heq (by rw [List.length_map, List.length_map])
      · rintro ⟨hpart, hparts⟩
        rw [hpart, hparts]

variable {objects hasRewardLoop promptKeys} {chunks : List (List (InternalAgentLoopOutput S V))}

/-- A key that all rows carry is carried in every chunk. -/
theorem carried_flatten_iff (hchunks : ∀ chunk ∈ chunks, chunk ≠ []) (key : String) :
    Carried chunks.flatten key ↔ ∀ chunk ∈ chunks, key ∈ rewardExtraKeys chunk := by
  constructor
  · intro hcarried chunk hchunk
    rw [mem_rewardExtraKeys (hchunks chunk hchunk)]
    exact fun row hrow => hcarried row (List.mem_flatten.mpr ⟨chunk, hchunk, hrow⟩)
  · intro hkeys row hrow
    obtain ⟨chunk, hchunk, hmem⟩ := List.mem_flatten.mp hrow
    exact (mem_rewardExtraKeys (hchunks chunk hchunk) key).mp (hkeys chunk hchunk) row hmem

theorem keys_tensors {inputs : List (InternalAgentLoopOutput S V)}
    (hscored : allScored inputs) :
    (tensors objects inputs).columns.keys = ["responses", "rm_scores"] := by
  rw [tensors, if_pos hscored]
  rfl

/-- The tables of scored chunks are concatenated. -/
theorem exists_concat_chunks (hne : chunks ≠ []) (hscored : ∀ chunk ∈ chunks, allScored chunk) :
    ∃ output, DataProto.concat (chunks.map (chunkTable objects hasRewardLoop promptKeys)) =
      .ok output := by
  obtain ⟨chunk, rest, rfl⟩ := List.exists_cons_of_ne_nil hne
  rw [List.map_cons]
  apply DataProto.exists_concat
  · rw [← List.map_cons]
    intro part hpart
    obtain ⟨inputs, hinputs, rfl⟩ := List.mem_map.mp hpart
    exact ⟨tensors objects inputs, rfl, keys_tensors (hscored inputs hinputs)⟩
  · rw [← List.map_cons]
    intro part hpart
    obtain ⟨inputs, -, rfl⟩ := List.mem_map.mp hpart
    exact ⟨rfl, rfl, rfl⟩

variable {output : DataProto String (S ⊕ V) V Unit}
  (hjoins : DataProto.JoinsParts (chunks.map (chunkTable objects hasRewardLoop promptKeys)) output)
  (hchunks : ∀ chunk ∈ chunks, chunk ≠ [])

include hjoins hchunks

/-- A carried key is a column of the concatenation, put together of the chunks. -/
theorem get?_of_carried {key : String} (hcarried : Carried chunks.flatten key) :
    output.nonTensorBatch.get? key = some (chunks.flatMap fun chunk => chunk.map fun row =>
      (laterEntry objects chunk key row).getD (rewardEntry objects key row)) := by
  have hkeys := (carried_flatten_iff hchunks key).mp hcarried
  have hcolumn : ∀ chunk ∈ chunks,
      (chunkTable objects hasRewardLoop promptKeys chunk).nonTensorBatch.get? key =
        some (chunk.map fun row =>
          (laterEntry objects chunk key row).getD (rewardEntry objects key row)) :=
    fun chunk hchunk => get?_chunkColumns (hkeys chunk hchunk)
  have hmem : key ∈ output.nonTensorBatch.keys := by
    rw [hjoins.objects.shared, List.forall_mem_map]
    intro chunk hchunk
    rw [← Dict.get?_isSome_iff, hcolumn chunk hchunk]
    rfl
  have hrows := hjoins.objects.rows key hmem
  obtain ⟨column, hget⟩ := Option.isSome_iff_exists.mp ((Dict.get?_isSome_iff _ _).mpr hmem)
  rw [Dict.getD, hget, Option.getD_some, List.flatMap_map] at hrows
  rw [hget, hrows]
  congr 1
  apply List.flatMap_congr
  intro chunk hchunk
  rw [Dict.getD, hcolumn chunk hchunk]
  rfl

/-- The list of reward columns of the concatenation. -/
theorem rewardExtraKeys_output (hne : chunks ≠ [])
    (hscored : ∀ chunk ∈ chunks, allScored chunk) :
    ∃ keys, output.metaInfo.rewardExtraKeys = some keys ∧
      (∀ key ∈ keys, key ∈ output.nonTensorBatch.keys) ∧
      ∀ key, key ∈ keys ↔ Carried chunks.flatten key := by
  have hlists : (chunks.map (chunkTable objects hasRewardLoop promptKeys)).filterMap
      (fun part => part.metaInfo.rewardExtraKeys) = chunks.map rewardExtraKeys := by
    rw [List.filterMap_map, ← List.filterMap_eq_map]
    apply List.filterMap_congr
    intro chunk hchunk
    exact if_pos (hscored chunk hchunk)
  have hmerged := hjoins.rewardExtraKeys
  obtain ⟨keys, hkeys⟩ : ∃ keys, MetaInfo.mergeRewardExtraKeys
      (chunks.map rewardExtraKeys) output.nonTensorBatch.keys = some keys := by
    obtain ⟨chunk, rest, rfl⟩ := List.exists_cons_of_ne_nil hne
    exact ⟨_, rfl⟩
  rw [hlists, hkeys] at hmerged
  refine ⟨keys, hmerged, hjoins.named keys hmerged, fun key => ?_⟩
  rw [DataProto.mem_mergeRewardExtraKeys hkeys, List.forall_mem_map,
    ← carried_flatten_iff hchunks]
  apply and_iff_left_of_imp
  intro hcarried
  rw [← Dict.get?_isSome_iff, get?_of_carried hjoins hchunks hcarried]
  rfl

theorem holdsValues_iff :
    HoldsValues chunks.flatten output ↔
      ∀ chunk ∈ chunks, ∀ key, Carried chunks.flatten key → Unshadowed objects chunk key := by
  have hkey : ∀ key, Carried chunks.flatten key →
      ((∀ column, output.nonTensorBatch.get? key = some column →
          column.map some = chunks.flatten.map fun row => row.rewardInfo.get? key) ↔
        ∀ chunk ∈ chunks, Unshadowed objects chunk key) := by
    intro key hcarried
    have hget := get?_of_carried hjoins hchunks hcarried
    have hentry : ∀ chunk, ∀ row ∈ chunks.flatten,
        (some ((laterEntry objects chunk key row).getD (rewardEntry objects key row)) =
          row.rewardInfo.get? key ↔
        ∀ value, laterEntry objects chunk key row = some value →
          row.rewardInfo.get? key = some value) := by
      intro chunk row hrow
      obtain ⟨value, hvalue⟩ := Option.isSome_iff_exists.mp
        ((Dict.get?_isSome_iff _ _).mpr (hcarried row hrow))
      cases hlater : laterEntry objects chunk key row with
      | none => simp [rewardEntry, hvalue]
      | some later => simp [hvalue, eq_comm]
    simp only [hget, Option.some.injEq, forall_eq', List.map_flatMap, List.map_map,
      List.map_flatten, ← List.flatMap_def]
    rw [flatMap_map_eq_iff chunks _ fun _ row => row.rewardInfo.get? key]
    apply forall₂_congr
    intro chunk hchunk
    apply forall₂_congr
    intro row hrow
    exact hentry chunk row (List.mem_flatten.mpr ⟨chunk, hchunk, hrow⟩)
  constructor
  · intro hvalues chunk hchunk key hcarried
    exact (hkey key hcarried).mp (hvalues key hcarried) chunk hchunk
  · intro hunshadowed key hcarried
    exact (hkey key hcarried).mpr fun chunk hchunk => hunshadowed chunk hchunk key hcarried

end Manager

section Chunks

variable {rows : List (InternalAgentLoopOutput S V)} {workers : ℕ}
  (hworkers : 0 < workers) (hrows : rows ≠ []) (hdvd : workers ∣ rows.length)

include hdvd in
theorem flatten_workerChunks : (workerChunks workers rows).flatten = rows := by
  apply List.flatten_splitLengths
  rw [List.sum_replicate_nat, Nat.mul_div_cancel' hdvd]

include hworkers in
theorem workerChunks_ne_nil : workerChunks workers rows ≠ [] := by
  rw [← List.length_pos_iff, workerChunks, List.length_splitLengths, List.length_replicate]
  exact hworkers

include hworkers hrows hdvd in
theorem ne_nil_of_mem_workerChunks {chunk : List (InternalAgentLoopOutput S V)}
    (hchunk : chunk ∈ workerChunks workers rows) : chunk ≠ [] := by
  have hlengths : (workerChunks workers rows).map List.length =
      List.replicate workers (rows.length / workers) := by
    apply List.map_splitLengths_length
    rw [List.sum_replicate_nat, Nat.mul_div_cancel' hdvd]
  have hlength : chunk.length = rows.length / workers := by
    apply List.eq_of_mem_replicate (n := workers)
    rw [← hlengths]
    exact List.mem_map_of_mem hchunk
  have hpos : 0 < rows.length / workers :=
    Nat.div_pos (Nat.le_of_dvd (List.length_pos_iff.mpr hrows) hdvd) hworkers
  exact List.length_pos_iff.mp (hlength ▸ hpos)

include hworkers hrows hdvd in
/-- However many workers there are, the final list of reward columns names exactly
the keys that every row carries, and each of them is a column with an entry for each
row.  The entries are the values of the rows exactly when no extra field, default
field or medium of a chunk is written over a carried key with another value. -/
theorem reward_columns_iff (objects : PyObjects V) (hasRewardLoop : Bool)
    (promptKeys : List String) (hscored : ∀ row ∈ rows, row.rewardScore.isSome) :
    ∃ result, generateSequences objects hasRewardLoop promptKeys workers rows = .ok result ∧
      NamesCarried rows result ∧ HasColumns rows result ∧
      (HoldsValues rows result ↔ ∀ chunk ∈ workerChunks workers rows, ∀ key,
        Carried rows key → Unshadowed objects chunk key) := by
  have hflatten : (workerChunks workers rows).flatten = rows := flatten_workerChunks hdvd
  have hne : workerChunks workers rows ≠ [] := workerChunks_ne_nil hworkers
  have hchunks : ∀ chunk ∈ workerChunks workers rows, chunk ≠ [] := fun chunk hchunk =>
    ne_nil_of_mem_workerChunks hworkers hrows hdvd hchunk
  have hallScored : ∀ chunk ∈ workerChunks workers rows, allScored chunk := by
    intro chunk hchunk
    rw [allScored, List.all_eq_true]
    intro row hrow
    apply hscored
    rw [← hflatten]
    exact List.mem_flatten.mpr ⟨chunk, hchunk, hrow⟩
  have hexists : ∃ output, DataProto.concat ((workerChunks workers rows).map
      (chunkTable objects hasRewardLoop promptKeys)) = .ok output :=
    exists_concat_chunks hne hallScored
  obtain ⟨output, hconcat⟩ := hexists
  have hjoins := DataProto.joinsParts_of_concat hconcat
  have houtputs : (workerChunks workers rows).mapM
      (postprocess objects hasRewardLoop promptKeys) =
        .ok ((workerChunks workers rows).map
          (chunkTable objects hasRewardLoop promptKeys)) :=
    mapM_eq_ok_map fun chunk hchunk => postprocess_eq (hchunks chunk hchunk)
  obtain ⟨chunk, rest, hcons⟩ := List.exists_cons_of_ne_nil hne
  obtain ⟨keys, hkeys, hpresent, hcarried⟩ :=
    rewardExtraKeys_output hjoins hchunks hne hallScored
  rw [hflatten] at hcarried
  refine ⟨output.withMetaInfo (rebuildManagerMetaInfo output.metaInfo
    (chunkTable objects hasRewardLoop promptKeys chunk).metaInfo
      output.nonTensorBatch.keys), ?_, ?_, ?_, ?_⟩
  · have hmod : ¬ rows.length % workers ≠ 0 := not_not.mpr (Nat.mod_eq_zero_of_dvd hdvd)
    rw [generateSequences, if_neg hworkers.ne', if_neg hmod, houtputs]
    simp only [bind, Except.bind, hconcat]
    rw [hcons]
    rfl
  · refine ⟨keys.filter (· ∈ output.nonTensorBatch.keys), ?_, fun key => ?_⟩
    · simp [DataProto.withMetaInfo, rebuildManagerMetaInfo, hkeys]
    · rw [List.mem_filter, decide_eq_true_iff, ← hcarried]
      exact and_iff_left_of_imp (hpresent key)
  · intro key hkey
    rw [← hflatten] at hkey
    refine ⟨_, get?_of_carried hjoins hchunks hkey, ?_⟩
    rw [List.length_flatMap]
    simp only [List.length_map]
    rw [← List.length_flatten, hflatten]
  · have hvalues := holdsValues_iff hjoins hchunks
    rw [hflatten] at hvalues
    exact hvalues

end Chunks

/-! ## A reward key with the name of a default field -/

inductive Entry where
  | none
  | number (value : ℕ)
  | dict (keys : List String)
deriving DecidableEq

def entryObjects : PyObjects Entry where
  none := .none
  int := .number
  dict := fun entries => .dict entries.keys

/-- A scored row without extra fields of its own. -/
def scoredRow (rewardExtraInfo : Dict String Entry) : InternalAgentLoopOutput Unit Entry where
  sequence := ()
  rewardScore := some (.number 1)
  numTurns := 2
  prompt := fun _ => .none
  multiModalInputs := none
  rewardExtraInfo := some rewardExtraInfo
  extraFields := Dict.empty

/-- A graded answer to a math problem, and an answer to a coding problem. -/
def mixedRows : List (InternalAgentLoopOutput Unit Entry) :=
  [scoredRow (Dict.ofList [("acc", .number 1), ("pred", .number 7)]),
    scoredRow (Dict.ofList [("acc", .number 0)])]

theorem mixedRows_reward_columns :
    ∃ result, generateSequences entryObjects true [] 2 mixedRows = .ok result ∧
      NamesCarried mixedRows result ∧ HasColumns mixedRows result ∧
      (HoldsValues mixedRows result ↔ ∀ chunk ∈ workerChunks 2 mixedRows, ∀ key,
        Carried mixedRows key → Unshadowed entryObjects chunk key) :=
  reward_columns_iff (by decide) (by simp [mixedRows]) (by decide) entryObjects true []
    (by simp [mixedRows, scoredRow])

/-- A verifier reports `extras`. -/
def extrasRow : InternalAgentLoopOutput Unit Entry :=
  scoredRow (Dict.ofList [("extras", .number 1)])

/-- The column that the list of reward columns names holds nothing of it. -/
theorem extras_overwritten :
    ∃ result, generateSequences entryObjects true [] 1 [extrasRow] = .ok result ∧
      result.metaInfo.rewardExtraKeys = some ["extras"] ∧
      result.nonTensorBatch.get? "extras" = some [.none] ∧
      ¬ HoldsValues [extrasRow] result := by
  refine ⟨_, rfl, rfl, rfl, ?_⟩
  intro hvalues
  have hcarried : Carried [extrasRow] "extras" := by
    intro row hrow
    obtain rfl := List.mem_singleton.mp hrow
    decide
  exact absurd (hvalues "extras" hcarried [.none] rfl) (by decide)

end OneShotOPD.AgentLoop
