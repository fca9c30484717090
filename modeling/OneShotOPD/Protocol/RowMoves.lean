import OneShotOPD.Core.Checks
import OneShotOPD.Protocol.DataProto

/-!
# Moving rows

Selections of rows compose, and the parts that are selected from one table are
concatenated to the selection of all their rows.  The meta information of such
parts is the same, so merging it raises nothing; it changes the metrics and the
list of reward columns at most.
-/

namespace OneShotOPD.Protocol

open Checks

variable {κ α β μ : Type}

namespace TensorDict

@[simp]
theorem batchSize_gather (positions : List ℕ) (tensors : TensorDict κ α) :
    (tensors.gather positions).batchSize =
      (positions.filter fun position => position < tensors.batchSize).length := rfl

theorem gather_gather {tensors : TensorDict κ α} {inner : List ℕ}
    (hinner : ∀ position ∈ inner, position < tensors.batchSize) (outer : List ℕ) :
    (tensors.gather inner).gather outer = tensors.gather (OneShotOPD.gather outer inner) := by
  apply TensorDict.ext
  · have hlength : (tensors.gather inner).batchSize = inner.length := by
      rw [batchSize_gather, List.filter_eq_self.mpr (by simpa using hinner)]
    have hrange : ∀ position ∈ OneShotOPD.gather outer inner,
        position < tensors.batchSize := fun position hposition =>
      hinner position (mem_of_mem_gather hposition)
    have hfilter : (OneShotOPD.gather outer inner).filter
        (fun position => position < tensors.batchSize) = OneShotOPD.gather outer inner :=
      List.filter_eq_self.mpr (by simpa using hrange)
    rw [batchSize_gather, hlength, batchSize_gather, hfilter, length_gather]
  · apply Dict.ext
    simp only [gather, Dict.entries_map, List.map_map]
    refine List.map_congr_left fun entry hentry => ?_
    have hlength := tensors.aligned entry hentry
    simp only [Function.comp_apply]
    rw [OneShotOPD.gather_gather (by simpa [hlength] using hinner)]

theorem gather_range (tensors : TensorDict κ α) :
    tensors.gather (List.range tensors.batchSize) = tensors := by
  apply TensorDict.ext
  · rw [batchSize_gather, List.filter_eq_self.mpr (by simp), List.length_range]
  · apply Dict.ext
    have hentries : ∀ entry ∈ tensors.columns.entries,
        (entry.1, OneShotOPD.gather (List.range tensors.batchSize) entry.2) = entry := by
      intro entry hentry
      rw [← tensors.aligned entry hentry, OneShotOPD.gather_range]
    simpa [gather, Dict.entries_map] using List.map_congr_left hentries

/-- The tensors with every entry changed. -/
def mapEntries (f : α → α) (tensors : TensorDict κ α) : TensorDict κ α where
  batchSize := tensors.batchSize
  columns := tensors.columns.map (List.map f)
  aligned := by
    intro column hcolumn
    obtain ⟨entry, hentry, rfl⟩ := List.mem_map.mp hcolumn
    simpa using tensors.aligned entry hentry

theorem gather_mapEntries (f : α → α) (positions : List ℕ) (tensors : TensorDict κ α) :
    (tensors.mapEntries f).gather positions = (tensors.gather positions).mapEntries f := by
  apply TensorDict.ext
  · rfl
  · apply Dict.ext
    simp [gather, mapEntries, Dict.entries_map, map_gather]

variable [DecidableEq κ]

omit [DecidableEq κ] in
/-- Parts of one table have the same names. -/
theorem sameKeys_gather (tensors : TensorDict κ α) (part : List ℕ) (parts : List (List ℕ)) :
    SameKeys (tensors.gather part) (parts.map fun other => tensors.gather other) := by
  intro other hother
  obtain ⟨positions, -, rfl⟩ := List.mem_map.mp hother
  simp [gather]

theorem cat_gather (tensors : TensorDict κ α) (part : List ℕ) (parts : List (List ℕ)) :
    (tensors.gather part).cat (parts.map fun other => tensors.gather other) =
      .ok (tensors.gather (part :: parts).flatten) := by
  rw [cat, dif_pos (sameKeys_gather tensors part parts)]
  congr 1
  apply TensorDict.ext
  · simp only [List.map_map, batchSize_gather, List.flatten_cons, List.filter_append,
      List.length_append, List.filter_flatten, List.length_flatten, Function.comp_def]
  · apply Dict.ext
    simp only [gather, Dict.entries_mapWithKey, Dict.entries_map, List.map_map]
    refine List.map_congr_left fun entry hentry => ?_
    have hcolumn : ∀ other : List ℕ,
        (tensors.gather other).columns.getD entry.1 [] =
          OneShotOPD.gather other entry.2 := by
      intro other
      have hget : tensors.columns.get? entry.1 = some entry.2 :=
        (Dict.get?_eq_some_iff _ _ _).mpr hentry
      rw [gather, Dict.getD, Dict.get?_map, hget]
      rfl
    simp only [Function.comp_apply, List.flatMap_map, gather_flatten, List.flatMap_cons]
    congr 2
    exact List.flatMap_congr fun other _ => hcolumn other

end TensorDict

namespace MetaInfo

/-- Equal entries merge to themselves. -/
theorem foldlM_mergeEntry_self [ValueEq μ] (merged : Dict String μ)
    {entries : List (String × μ)} (hentries : ∀ entry ∈ entries, entry ∈ merged.entries)
    (hequal : ∀ entry ∈ entries, ValueEq.equal entry.2 entry.2 = .ok true) :
    entries.foldlM mergeEntry merged = .ok merged := by
  induction entries with
  | nil => rfl
  | cons entry entries ih =>
      have hget : merged.get? entry.1 = some entry.2 :=
        (Dict.get?_eq_some_iff _ _ _).mpr (hentries entry List.mem_cons_self)
      have hentry : mergeEntry merged entry = .ok merged := by
        rw [mergeEntry, hget]
        change (ValueEq.equal entry.2 entry.2 >>= fun equal => _) = _
        rw [hequal entry List.mem_cons_self]
        rfl
      rw [List.foldlM_cons, hentry]
      exact ih (fun other hother => hentries other (List.mem_cons_of_mem _ hother))
        fun other hother => hequal other (List.mem_cons_of_mem _ hother)

/-- The entries of one dictionary are put in one after the other. -/
theorem foldlM_mergeEntry_entries [ValueEq μ] (merged values : Dict String μ)
    (rest : List (String × μ)) (hentries : values.entries = merged.entries ++ rest) :
    rest.foldlM mergeEntry merged = .ok values := by
  induction rest generalizing merged with
  | nil =>
      have heq : values = merged := Dict.ext (by simpa using hentries)
      rw [heq]
      rfl
  | cons entry rest ih =>
      have hnodup := values.nodup_keys
      rw [hentries, List.map_append, List.map_cons, List.nodup_append] at hnodup
      have habsent : entry.1 ∉ merged.keys := fun hkey =>
        hnodup.2.2 entry.1 hkey entry.1 List.mem_cons_self rfl
      have hentry : mergeEntry merged entry = .ok (merged.insert entry.1 entry.2) := by
        rw [mergeEntry, (Dict.get?_eq_none_iff _ _).mpr habsent]
      rw [List.foldlM_cons, hentry]
      apply ih
      rw [Dict.entries_insert_of_not_mem _ _ habsent, hentries, List.append_assoc,
        List.singleton_append]

theorem mergeValues_replicate [ValueEq μ] {values : Dict String μ}
    (hequal : ∀ entry ∈ values.entries, ValueEq.equal entry.2 entry.2 = .ok true) (count : ℕ) :
    mergeValues (List.replicate (count + 1) values) = .ok values := by
  rw [mergeValues, List.replicate_succ, List.flatMap_cons, List.foldlM_append,
    foldlM_mergeEntry_entries Dict.empty values values.entries rfl]
  have hmem : ∀ entry ∈ (List.replicate count values).flatMap Dict.entries,
      entry ∈ values.entries := by
    intro entry hentry
    obtain ⟨part, hpart, hmem⟩ := List.mem_flatMap.mp hentry
    rwa [List.eq_of_mem_replicate hpart] at hmem
  exact foldlM_mergeEntry_self values hmem fun entry hentry => hequal entry (hmem entry hentry)

theorem foldlM_mergeFlag_replicate (flag : Option Bool) (count : ℕ) :
    (List.replicate (count + 1) flag).foldlM mergeFlag none = .ok flag := by
  have hself : mergeFlag flag flag = .ok flag := by cases flag <;> simp [mergeFlag]
  have hrest : (List.replicate count flag).foldlM mergeFlag flag = .ok flag := by
    induction count with
    | zero => rfl
    | succ count ih =>
        rw [List.replicate_succ, List.foldlM_cons, hself]
        exact ih
  rw [List.replicate_succ, List.foldlM_cons]
  exact hrest

/-- What the metrics of equal parts are merged to: the values of all rows of all
parts under each name. -/
def metricCopies (metrics : List (Dict String (MetricValue μ))) (parts : ℕ) :
    List (Dict String (MetricValue μ)) :=
  match metrics with
  | [] => []
  | first :: rows =>
      [first.mapWithKey fun key _ => .list
        ((List.replicate parts (first :: rows)).flatten.filterMap fun row => row.get? key)]

/-- The metrics of equal parts have the keys of the first of them. -/
theorem listOfDictToDictOfList_copies (info : MetaInfo κ μ) (count : ℕ)
    (hmetrics : (List.replicate (count + 1) info).flatMap metrics ≠ []) :
    ∃ columns, listOfDictToDictOfList
        ((List.replicate (count + 1) info).flatMap metrics) = .ok columns ∧
      [columns.map MetricValue.list] = metricCopies info.metrics (count + 1) := by
  have hflat : (List.replicate (count + 1) info).flatMap metrics =
      (List.replicate (count + 1) info.metrics).flatten := by
    rw [List.flatMap_def, List.map_replicate]
  cases hfirst : info.metrics with
  | nil => simp [hflat, hfirst] at hmetrics
  | cons first rows =>
      have hcopies : (List.replicate (count + 1) info).flatMap metrics =
          first :: (rows ++ (List.replicate count (first :: rows)).flatten) := by
        rw [hflat, hfirst, List.replicate_succ, List.flatten_cons, List.cons_append]
      have hkeys : ∀ row ∈ (List.replicate (count + 1) info).flatMap metrics,
          row.keys ⊆ first.keys := by
        intro row hrow
        obtain ⟨part, hpart, hmem⟩ := List.mem_flatMap.mp hrow
        rw [List.eq_of_mem_replicate hpart] at hmem
        exact info.uniform first (by rw [hfirst]; rfl) row hmem
      rw [hcopies] at hkeys ⊢
      refine ⟨_, if_pos hkeys, ?_⟩
      rw [metricCopies, List.replicate_succ, List.flatten_cons, List.cons_append]
      congr 1
      apply Dict.ext
      simp [Dict.entries_map, Dict.entries_mapWithKey]

variable [DecidableEq κ] [ValueEq μ]

/-- The meta information of a concatenation of equal parts: ordinary entries are
kept, and the list of reward columns loses the names that are no columns. -/
def copies (info : MetaInfo κ μ) (parts : ℕ) (columns : List κ) : MetaInfo κ μ where
  autoPadding := info.autoPadding
  values := info.values
  metrics := metricCopies info.metrics parts
  rewardExtraKeys := info.rewardExtraKeys.map fun keys => keys.filter (· ∈ columns)
  uniform := by
    unfold metricCopies
    split <;> simp

omit [ValueEq μ] in
theorem mergeRewardExtraKeys_replicate (info : MetaInfo κ μ) (count : ℕ) (columns : List κ) :
    mergeRewardExtraKeys ((List.replicate (count + 1) info).filterMap rewardExtraKeys) columns =
      info.rewardExtraKeys.map fun keys => keys.filter (· ∈ columns) := by
  cases hkeys : info.rewardExtraKeys with
  | none =>
      have hnone : (List.replicate (count + 1) info).filterMap rewardExtraKeys = [] := by
        simp [hkeys]
      rw [hnone]
      rfl
  | some keys =>
      have hlists : (List.replicate (count + 1) info).filterMap rewardExtraKeys =
          keys :: List.replicate count keys := by
        rw [List.filterMap_replicate_of_some hkeys, List.replicate_succ]
      rw [hlists, mergeRewardExtraKeys, Option.map_some]
      congr 1
      apply List.filter_congr
      intro key hkey
      have hall : ∀ list ∈ keys :: List.replicate count keys, key ∈ list := by
        intro list hlist
        rcases List.mem_cons.mp hlist with rfl | hmem
        · exact hkey
        · rwa [List.eq_of_mem_replicate hmem]
      exact decide_eq_decide.mpr (and_iff_right hall)

/-- Equal parts merge. -/
theorem merge_replicate {info : MetaInfo κ μ} (hcomparable : info.Comparable) (count : ℕ)
    (columns : List κ) :
    merge (List.replicate (count + 1) info) columns = .ok (info.copies (count + 1) columns) := by
  have hflag := foldlM_mergeFlag_replicate info.autoPadding count
  have hvalues := mergeValues_replicate hcomparable count
  have hkeys := mergeRewardExtraKeys_replicate info count columns
  rw [← List.map_replicate] at hflag hvalues
  rw [merge, hflag, hvalues, hkeys]
  simp only [bind, Except.bind]
  split
  next hempty =>
    have hmetrics : info.metrics = [] := by
      rw [List.replicate_succ, List.flatMap_cons] at hempty
      exact (List.append_eq_nil_iff.mp hempty).1
    simp [copies, hmetrics, metricCopies, pure, Except.pure]
  next hmetrics =>
    obtain ⟨metricColumns, hcolumns, hcopies⟩ :=
      listOfDictToDictOfList_copies info count hmetrics
    rw [hcolumns]
    simp [copies, hcopies, pure, Except.pure]

end MetaInfo

theorem rowCount_mapEntries (f : α → α) (batch : Option (TensorDict κ α))
    (nonTensorBatch : Dict κ (List β)) :
    rowCount (batch.map (TensorDict.mapEntries f)) nonTensorBatch =
      rowCount batch nonTensorBatch := by
  cases batch <;> rfl

namespace DataProto

theorem len_gather (positions : List ℕ) (data : DataProto κ α β μ) :
    (data.gather positions).len =
      (positions.filter fun position => position < data.len).length :=
  rowCount_gather positions data.batch data.nonTensorBatch

theorem len_gather_of_lt {positions : List ℕ} {data : DataProto κ α β μ}
    (hpositions : ∀ position ∈ positions, position < data.len) :
    (data.gather positions).len = positions.length := by
  rw [len_gather, List.filter_eq_self.mpr (by simpa using hpositions)]

theorem batchSize_eq_len {data : DataProto κ α β μ} {tensors : TensorDict κ α}
    (hbatch : data.batch = some tensors) : tensors.batchSize = data.len := by
  rw [len, hbatch]
  rfl

theorem gather_gather {data : DataProto κ α β μ} {inner : List ℕ}
    (hinner : ∀ position ∈ inner, position < data.len) (outer : List ℕ) :
    (data.gather inner).gather outer = data.gather (OneShotOPD.gather outer inner) := by
  apply DataProto.ext
  · cases hbatch : data.batch with
    | none => simp [gather, hbatch]
    | some tensors =>
        have hsize := batchSize_eq_len hbatch
        simp [gather, hbatch,
          TensorDict.gather_gather (hsize ▸ hinner : ∀ position ∈ inner, _) outer]
  · apply Dict.ext
    simp only [gather, Dict.entries_map, List.map_map]
    refine List.map_congr_left fun entry hentry => ?_
    have hlength : entry.2.length = data.len := data.consistent entry hentry
    simp only [Function.comp_apply]
    rw [OneShotOPD.gather_gather (by simpa [hlength] using hinner)]
  · rfl

theorem gather_range (data : DataProto κ α β μ) :
    data.gather (List.range data.len) = data := by
  apply DataProto.ext
  · cases hbatch : data.batch with
    | none => simp [gather, hbatch]
    | some tensors =>
        simp [gather, hbatch, ← batchSize_eq_len hbatch, TensorDict.gather_range]
  · apply Dict.ext
    have hentries : ∀ entry ∈ data.nonTensorBatch.entries,
        (entry.1, OneShotOPD.gather (List.range data.len) entry.2) = entry := by
      intro entry hentry
      have hlength : entry.2.length = data.len := data.consistent entry hentry
      rw [← hlength, OneShotOPD.gather_range]
    simpa [gather, Dict.entries_map] using List.map_congr_left hentries
  · rfl

/-- The same table with other meta information. -/
def withMetaInfo (data : DataProto κ α β μ) (info : MetaInfo κ μ) : DataProto κ α β μ :=
  { data with metaInfo := info }

/-- Two tables with the same rows, columns and ordinary meta information.  Only
what `concat` rewrites, the metrics and the list of reward columns, may differ. -/
structure Agrees (left right : DataProto κ α β μ) : Prop where
  batch : left.batch = right.batch
  nonTensorBatch : left.nonTensorBatch = right.nonTensorBatch
  autoPadding : left.metaInfo.autoPadding = right.metaInfo.autoPadding
  values : left.metaInfo.values = right.metaInfo.values

namespace Agrees

theorem rfl' (data : DataProto κ α β μ) : data.Agrees data := ⟨rfl, rfl, rfl, rfl⟩

theorem len_eq {left right : DataProto κ α β μ} (hagrees : left.Agrees right) :
    left.len = right.len := by
  rw [len, len, hagrees.batch, hagrees.nonTensorBatch]

theorem gather {left right : DataProto κ α β μ} (hagrees : left.Agrees right)
    (positions : List ℕ) : (left.gather positions).Agrees (right.gather positions) :=
  ⟨congrArg (Option.map (TensorDict.gather positions)) hagrees.batch,
    congrArg (Dict.map (OneShotOPD.gather positions)) hagrees.nonTensorBatch,
    hagrees.autoPadding, hagrees.values⟩

end Agrees

/-- The rows of a table, and then more rows of it. -/
theorem mem_padded_lt {count : ℕ} {extra : List ℕ} (hextra : ∀ position ∈ extra, position < count) :
    ∀ position ∈ List.range count ++ extra, position < count := by
  intro position hposition
  rcases List.mem_append.mp hposition with hrange | hmem
  · exact List.mem_range.mp hrange
  · exact hextra position hmem

/-- The row positions of a table that is padded with its last row. -/
def paddedPositions (count paddingSize : ℕ) : List ℕ :=
  List.range count ++ List.replicate paddingSize (count - 1)

theorem length_paddedPositions (count paddingSize : ℕ) :
    (paddedPositions count paddingSize).length = count + paddingSize := by
  simp [paddedPositions]

theorem mem_paddedPositions_lt {count paddingSize : ℕ} (hcount : 0 < count) :
    ∀ position ∈ paddedPositions count paddingSize, position < count := by
  apply mem_padded_lt
  intro position hposition
  rw [List.eq_of_mem_replicate hposition]
  omega

theorem gather_replicate_singleton (count value : ℕ) :
    OneShotOPD.gather (List.replicate count 0) [value] = List.replicate count value := by
  induction count with
  | zero => rfl
  | succ count ih =>
      rw [List.replicate_succ, List.replicate_succ, ← ih]
      rfl

/-- Without its last rows, a padded table is the table. -/
theorem gather_take_gather (data : DataProto κ α β μ) {extra : List ℕ}
    (hextra : ∀ position ∈ extra, position < data.len) :
    (data.gather (List.range data.len ++ extra)).gather
        ((List.range (data.len + extra.length)).take data.len) = data := by
  have htake : (List.range (data.len + extra.length)).take data.len = List.range data.len := by
    rw [List.take_range, Nat.min_eq_left (Nat.le_add_right _ _)]
  have hrows : OneShotOPD.gather (List.range data.len) (List.range data.len ++ extra) =
      List.range data.len := by
    simpa using gather_range_append (List.range data.len) extra
  rw [htake, gather_gather (mem_padded_lt hextra), hrows, gather_range]

/-- The table with every tensor entry changed. -/
def mapTensors (f : α → α) (data : DataProto κ α β μ) : DataProto κ α β μ where
  batch := data.batch.map (TensorDict.mapEntries f)
  nonTensorBatch := data.nonTensorBatch
  metaInfo := data.metaInfo
  consistent := by
    intro column hcolumn
    rw [data.consistent column hcolumn, rowCount_mapEntries]

theorem len_mapTensors (f : α → α) (data : DataProto κ α β μ) :
    (data.mapTensors f).len = data.len :=
  rowCount_mapEntries f data.batch data.nonTensorBatch

theorem gather_mapTensors (f : α → α) (positions : List ℕ) (data : DataProto κ α β μ) :
    (data.mapTensors f).gather positions = (data.gather positions).mapTensors f := by
  apply DataProto.ext
  · simp only [gather, mapTensors, Option.map_map]
    congr 1
    funext tensors
    exact TensorDict.gather_mapEntries f positions tensors
  · rfl
  · rfl

theorem agrees_mapTensors (f : α → α) {left right : DataProto κ α β μ}
    (hagrees : left.Agrees right) : (left.mapTensors f).Agrees (right.mapTensors f) :=
  ⟨by simp only [mapTensors, hagrees.batch], hagrees.nonTensorBatch, hagrees.autoPadding,
    hagrees.values⟩

variable [DecidableEq κ]

theorem concatBatches_gather (batch : Option (TensorDict κ α)) (part : List ℕ)
    (parts : List (List ℕ)) :
    concatBatches (batch.map (TensorDict.gather part))
        (parts.map fun other => batch.map (TensorDict.gather other)) =
      .ok (batch.map (TensorDict.gather (part :: parts).flatten)) := by
  cases batch with
  | none => rfl
  | some tensors =>
      have hrest : (parts.map fun other => (some tensors).map (TensorDict.gather other)).mapM
          requireBatch = .ok (parts.map fun other => tensors.gather other) := by
        rw [List.mapM_map]
        exact mapM_eq_ok_map fun _ _ => rfl
      rw [Option.map_some, concatBatches, hrest]
      simp only [bind, Except.bind]
      rw [TensorDict.cat_gather]
      rfl

theorem concatColumns_gather (columns : Dict κ (List β)) (part : List ℕ)
    (parts : List (List ℕ)) :
    concatColumns (columns.map (OneShotOPD.gather part))
        (parts.map fun other => columns.map (OneShotOPD.gather other)) =
      columns.map (OneShotOPD.gather (part :: parts).flatten) := by
  apply Dict.ext
  have hshared : ∀ key ∈ (columns.map (OneShotOPD.gather part)).keys,
      ∀ other ∈ parts.map (fun other => columns.map (OneShotOPD.gather other)),
        key ∈ other.keys := by
    intro key hkey other hother
    obtain ⟨positions, -, rfl⟩ := List.mem_map.mp hother
    simpa using hkey
  rw [concatColumns, Dict.filter_eq_self hshared, Dict.entries_mapWithKey, Dict.entries_map,
    Dict.entries_map, List.map_map]
  refine List.map_congr_left fun entry hentry => ?_
  have hcolumn : ∀ other : List ℕ,
      (columns.map (OneShotOPD.gather other)).getD entry.1 [] =
        OneShotOPD.gather other entry.2 := by
    intro other
    have hget : columns.get? entry.1 = some entry.2 :=
      (Dict.get?_eq_some_iff _ _ _).mpr hentry
    rw [Dict.getD, Dict.get?_map, hget]
    rfl
  simp only [Function.comp_apply, List.flatMap_map, gather_flatten, List.flatMap_cons]
  congr 2
  exact List.flatMap_congr fun other _ => hcolumn other

variable [ValueEq μ]

/-- Parts of one table are concatenated to the rows that they choose together. -/
theorem concat_gather_eq {data : DataProto κ α β μ} (hcomparable : data.metaInfo.Comparable)
    (part : List ℕ) (parts : List (List ℕ)) :
    concat ((part :: parts).map fun other => data.gather other) =
      .ok ((data.gather (part :: parts).flatten).withMetaInfo
        (data.metaInfo.copies (parts.length + 1) data.nonTensorBatch.keys)) := by
  let joined := data.gather (part :: parts).flatten
  have hbatch : concatBatches (data.gather part).batch
      ((parts.map fun other => data.gather other).map batch) = .ok joined.batch := by
    rw [List.map_map]
    exact concatBatches_gather data.batch part parts
  have hcolumns : concatColumns (data.gather part).nonTensorBatch
      ((parts.map fun other => data.gather other).map nonTensorBatch) =
        joined.nonTensorBatch := by
    rw [List.map_map]
    exact concatColumns_gather data.nonTensorBatch part parts
  have hkeys : joined.nonTensorBatch.keys = data.nonTensorBatch.keys := Dict.keys_map _ _
  have hmeta : ((part :: parts).map fun other => data.gather other).map metaInfo =
      List.replicate (parts.length + 1) data.metaInfo := by
    rw [List.map_map]
    exact List.map_eq_replicate_iff.mpr fun _ _ => rfl
  rw [List.map_cons] at hmeta ⊢
  rw [concat, hbatch, hcolumns, hmeta]
  simp only [bind, Except.bind]
  rw [hkeys, MetaInfo.merge_replicate hcomparable]
  exact dif_pos joined.consistent

theorem concat_gather {data : DataProto κ α β μ} (hcomparable : data.metaInfo.Comparable)
    (part : List ℕ) (parts : List (List ℕ)) :
    ∃ joined, concat ((part :: parts).map fun other => data.gather other) = .ok joined ∧
      joined.Agrees (data.gather (part :: parts).flatten) :=
  ⟨_, concat_gather_eq hcomparable part parts, rfl, rfl, rfl, rfl⟩

/-- Padding repeats the last row, behind all rows. -/
theorem padding_eq {data : DataProto κ α β μ} (hcomparable : data.metaInfo.Comparable)
    (hlen : 0 < data.len) (paddingSize : ℕ) :
    data.padding paddingSize "" = .ok (data.gather (paddedPositions data.len paddingSize)) := by
  by_cases hzero : paddingSize = 0
  · subst hzero
    rw [padding, if_pos rfl, paddedPositions, List.replicate_zero, List.append_nil,
      gather_range]
  · have hlast : ∀ position ∈ [data.len - 1], position < data.len := by
      simpa using Nat.sub_lt hlen Nat.one_pos
    have hcandidate : data.selectIdxs [data.len - 1] = .ok (data.gather [data.len - 1]) :=
      if_pos hlast
    have hrepeat : (data.gather [data.len - 1]).repeatRows paddingSize =
        data.gather (List.replicate paddingSize (data.len - 1)) := by
      rw [repeatRows, len_gather_of_lt hlast, gather_gather hlast]
      congr 1
      rw [← gather_replicate_singleton]
      simp
    obtain ⟨joined, hjoined, hagrees⟩ := concat_gather hcomparable (List.range data.len)
      [List.replicate paddingSize (data.len - 1)]
    rw [List.map_cons, gather_range] at hjoined
    rw [padding, if_neg hzero]
    simp only [String.reduceEq, ↓reduceIte, bind, Except.bind]
    rw [hcandidate]
    simp only
    rw [hrepeat]
    simp only [List.map_cons, List.map_nil] at hjoined
    rw [hjoined]
    simp only [List.flatten_cons, List.flatten_nil, List.append_nil] at hagrees
    exact congrArg Except.ok
      (DataProto.ext hagrees.batch hagrees.nonTensorBatch rfl)

end DataProto

end OneShotOPD.Protocol
