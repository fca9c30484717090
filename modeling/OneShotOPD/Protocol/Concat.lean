import OneShotOPD.Protocol.Pieces

/-!
# Concatenation of differing parts

Parts that come from different workers may carry different object columns and
different lists of reward columns.  What a concatenation keeps is decided three
times, for tensors, for object columns and for the list of reward columns; this
file says that the three agree, and that cutting a table and concatenating the
pieces gives the table back.
-/

namespace OneShotOPD.Protocol

open Checks

variable {κ α β μ : Type}

namespace DataProto

/-- `data[start:stop]`. -/
def slice (data : DataProto κ α β μ) (start stop : ℕ) : DataProto κ α β μ :=
  data.gather (List.range' start (min stop data.len - start))

def split (data : DataProto κ α β μ) (splitSize : ℕ) :
    Except String (List (DataProto κ α β μ)) :=
  if splitSize = 0 then .error "ValueError: range() arg 3 must not be zero"
  else
    .ok ((List.range ((data.len + splitSize - 1) / splitSize)).map fun step =>
      data.slice (step * splitSize) (step * splitSize + splitSize))

def tensorColumns (data : DataProto κ α β μ) : Dict κ (List α) :=
  (data.batch.map TensorDict.columns).getD Dict.empty

theorem length_of_mem_tensorColumns {data : DataProto κ α β μ} {entry : κ × List α}
    (hentry : entry ∈ data.tensorColumns.entries) : entry.2.length = data.len := by
  unfold tensorColumns at hentry
  cases hbatch : data.batch with
  | none => simp [hbatch, Dict.empty] at hentry
  | some tensors =>
      rw [hbatch] at hentry
      rw [← batchSize_eq_len hbatch]
      exact tensors.aligned entry hentry

variable [DecidableEq κ]

theorem length_getD {columns : Dict κ (List β)} {count : ℕ} {key : κ}
    (hcolumns : ∀ entry ∈ columns.entries, entry.2.length = count) (hkey : key ∈ columns.keys) :
    (columns.getD key []).length = count := by
  obtain ⟨column, hcolumn⟩ := Option.isSome_iff_exists.mp ((Dict.get?_isSome_iff _ _).mpr hkey)
  rw [Dict.getD, hcolumn]
  exact hcolumns (key, column) ((Dict.get?_eq_some_iff _ _ _).mp hcolumn)

/-! ## What a concatenation keeps -/

/-- A family of columns is kept exactly where every part has it, with the rows of
all parts in order. -/
structure KeepsShared {γ : Type} (columns : DataProto κ α β μ → Dict κ (List γ))
    (parts : List (DataProto κ α β μ)) (result : DataProto κ α β μ) : Prop where
  shared : ∀ key, key ∈ (columns result).keys ↔ ∀ part ∈ parts, key ∈ (columns part).keys
  rows : ∀ key ∈ (columns result).keys,
    (columns result).getD key [] = parts.flatMap fun part => (columns part).getD key []
  length : ∀ key ∈ (columns result).keys,
    ((columns result).getD key []).length = (parts.map len).sum

/-- The columns of a concatenation are those of all its parts, and its reward
columns are among them. -/
structure JoinsParts (parts : List (DataProto κ α β μ)) (result : DataProto κ α β μ) :
    Prop where
  tensors : KeepsShared tensorColumns parts result
  objects : KeepsShared nonTensorBatch parts result
  rewardExtraKeys : result.metaInfo.rewardExtraKeys =
    MetaInfo.mergeRewardExtraKeys (parts.filterMap fun part => part.metaInfo.rewardExtraKeys)
      result.nonTensorBatch.keys
  named : ∀ keys ∈ result.metaInfo.rewardExtraKeys, ∀ key ∈ keys,
    key ∈ result.nonTensorBatch.keys

/-- Columns with the rows of all parts are as long as the parts together. -/
theorem KeepsShared.of_rows {γ : Type} {columns : DataProto κ α β μ → Dict κ (List γ)}
    {parts : List (DataProto κ α β μ)} {result : DataProto κ α β μ}
    (hlength : ∀ part ∈ parts, ∀ entry ∈ (columns part).entries, entry.2.length = part.len)
    (hshared : ∀ key, key ∈ (columns result).keys ↔ ∀ part ∈ parts, key ∈ (columns part).keys)
    (hrows : ∀ key ∈ (columns result).keys,
      (columns result).getD key [] = parts.flatMap fun part => (columns part).getD key []) :
    KeepsShared columns parts result where
  shared := hshared
  rows := hrows
  length := by
    intro key hkey
    rw [hrows key hkey, List.length_flatMap]
    congr 1
    apply List.map_congr_left
    intro part hpart
    exact length_getD (hlength part hpart) ((hshared key).mp hkey part hpart)

theorem mem_keys_concatColumns (first : Dict κ (List β)) (rest : List (Dict κ (List β)))
    (key : κ) :
    key ∈ (concatColumns first rest).keys ↔ ∀ part ∈ first :: rest, key ∈ part.keys := by
  rw [concatColumns, Dict.keys_mapWithKey, Dict.mem_keys_filter, List.forall_mem_cons]

theorem getD_concatColumns {first : Dict κ (List β)} {rest : List (Dict κ (List β))} {key : κ}
    (hkey : key ∈ (concatColumns first rest).keys) :
    (concatColumns first rest).getD key [] =
      (first :: rest).flatMap fun part => part.getD key [] := by
  have hall := (mem_keys_concatColumns first rest key).mp hkey
  have hrest : ∀ part ∈ rest, key ∈ part.keys := fun part hpart =>
    hall part (List.mem_cons_of_mem _ hpart)
  obtain ⟨column, hcolumn⟩ := Option.isSome_iff_exists.mp
    ((Dict.get?_isSome_iff _ _).mpr (hall first List.mem_cons_self))
  rw [concatColumns, Dict.getD, Dict.get?_mapWithKey, Dict.get?_filter, if_pos hrest, hcolumn,
    List.flatMap_cons, Dict.getD, hcolumn]
  rfl

variable [ValueEq μ]

/-- What a successful concatenation has passed. -/
theorem concat_cases {parts : List (DataProto κ α β μ)} {result : DataProto κ α β μ}
    (hconcat : concat parts = .ok result) :
    ∃ first rest, parts = first :: rest ∧
      concatBatches first.batch (rest.map batch) = .ok result.batch ∧
      result.nonTensorBatch =
        concatColumns first.nonTensorBatch (rest.map nonTensorBatch) ∧
      MetaInfo.merge (parts.map metaInfo) result.nonTensorBatch.keys = .ok result.metaInfo := by
  cases parts with
  | nil => cases hconcat
  | cons first rest =>
      rw [concat] at hconcat
      obtain ⟨newBatch, hbatch, hconcat⟩ := bind_eq_ok.mp hconcat
      obtain ⟨merged, hmerged, hcolumns⟩ := bind_eq_ok.mp hconcat
      unfold ofColumns at hcolumns
      split at hcolumns
      · cases hcolumns
        exact ⟨first, rest, rfl, hbatch, rfl, hmerged⟩
      · cases hcolumns

omit [DecidableEq κ] [ValueEq μ] in
theorem mapM_requireBatch {batches : List (Option (TensorDict κ α))}
    {tensors : List (TensorDict κ α)} (hmapM : batches.mapM requireBatch = .ok tensors) :
    batches = tensors.map some := by
  induction batches generalizing tensors with
  | nil =>
      cases hmapM
      rfl
  | cons batch batches ih =>
      rw [List.mapM_cons] at hmapM
      obtain ⟨head, hhead, hmapM⟩ := bind_eq_ok.mp hmapM
      obtain ⟨tail, htail, hmapM⟩ := bind_eq_ok.mp hmapM
      cases hmapM
      cases batch with
      | none => cases hhead
      | some first =>
          cases hhead
          rw [ih htail, List.map_cons]

omit [ValueEq μ] in
/-- Tensors are joined under the names that all parts have. -/
theorem keepsShared_tensors {first : DataProto κ α β μ} {rest : List (DataProto κ α β μ)}
    {result : DataProto κ α β μ}
    (hbatch : concatBatches first.batch (rest.map batch) = .ok result.batch) :
    KeepsShared tensorColumns (first :: rest) result := by
  cases hfirst : first.batch with
  | none =>
      rw [hfirst, concatBatches] at hbatch
      have hnone : result.batch = none := (Except.ok.inj hbatch).symm
      apply KeepsShared.of_rows fun part _ entry hentry => length_of_mem_tensorColumns hentry
      · intro key
        simp [tensorColumns, hnone, hfirst]
      · intro key hkey
        simp [tensorColumns, hnone] at hkey
  | some tensors =>
      rw [hfirst, concatBatches] at hbatch
      obtain ⟨others, hothers, hbatch⟩ := bind_eq_ok.mp hbatch
      obtain ⟨joined, hjoined, hbatch⟩ := bind_eq_ok.mp hbatch
      have hresult : result.batch = some joined := (Except.ok.inj hbatch).symm
      have hrest := mapM_requireBatch hothers
      unfold TensorDict.cat at hjoined
      split at hjoined
      next hsame =>
        cases hjoined
        have hcolumns : rest.map tensorColumns = others.map TensorDict.columns := by
          calc
            rest.map tensorColumns
              = (rest.map batch).map fun batch =>
                  (batch.map TensorDict.columns).getD Dict.empty := by
                rw [List.map_map]
                rfl
            _ = others.map TensorDict.columns := by
                rw [hrest, List.map_map]
                rfl
        have hkeys : ∀ part ∈ rest, ∀ key, key ∈ tensors.columns.keys →
            key ∈ part.tensorColumns.keys := by
          intro part hpart key hkey
          obtain ⟨other, hother, heq⟩ := List.mem_map.mp
            (hcolumns ▸ List.mem_map_of_mem hpart : part.tensorColumns ∈
              others.map TensorDict.columns)
          rw [← heq]
          exact (hsame other hother).2 hkey
        apply KeepsShared.of_rows fun part _ entry hentry => length_of_mem_tensorColumns hentry
        · intro key
          rw [List.forall_mem_cons]
          simp only [tensorColumns, hresult, hfirst, Option.map_some, Option.getD_some,
            Dict.keys_mapWithKey]
          exact ⟨fun hkey => ⟨hkey, fun part hpart => hkeys part hpart key hkey⟩, And.left⟩
        · intro key hkey
          simp only [tensorColumns, hresult, Option.map_some, Option.getD_some,
            Dict.keys_mapWithKey] at hkey
          obtain ⟨column, hcolumn⟩ := Option.isSome_iff_exists.mp
            ((Dict.get?_isSome_iff _ _).mpr hkey)
          have hothersRows : (others.flatMap fun part => part.columns.getD key []) =
              rest.flatMap fun part => part.tensorColumns.getD key [] := by
            have hrows := congrArg
              (List.flatMap fun columns : Dict κ (List α) => columns.getD key []) hcolumns
            simpa [List.flatMap_map] using hrows.symm
          rw [List.flatMap_cons, ← hothersRows]
          simp only [tensorColumns, hresult, hfirst, Option.map_some, Option.getD_some,
            Dict.getD, Dict.get?_mapWithKey, hcolumn]
      next => cases hjoined

theorem rewardExtraKeys_of_merge {infos : List (MetaInfo κ μ)} {columns : List κ}
    {merged : MetaInfo κ μ} (hmerge : MetaInfo.merge infos columns = .ok merged) :
    merged.rewardExtraKeys =
      MetaInfo.mergeRewardExtraKeys (infos.filterMap MetaInfo.rewardExtraKeys) columns := by
  rw [MetaInfo.merge] at hmerge
  obtain ⟨autoPadding, -, hmerge⟩ := bind_eq_ok.mp hmerge
  obtain ⟨values, -, hmerge⟩ := bind_eq_ok.mp hmerge
  dsimp only at hmerge
  split at hmerge
  next =>
    cases hmerge
    rfl
  next =>
    obtain ⟨metricColumns, -, hmerge⟩ := bind_eq_ok.mp hmerge
    cases hmerge
    rfl

omit [ValueEq μ] in
theorem mem_mergeRewardExtraKeys {lists : List (List κ)} {columns keys : List κ}
    (hkeys : MetaInfo.mergeRewardExtraKeys lists columns = some keys) (key : κ) :
    key ∈ keys ↔ (∀ list ∈ lists, key ∈ list) ∧ key ∈ columns := by
  cases lists with
  | nil => cases hkeys
  | cons first rest =>
      rw [MetaInfo.mergeRewardExtraKeys, Option.some.injEq] at hkeys
      rw [← hkeys, List.mem_filter, decide_eq_true_iff]
      exact ⟨And.right, fun hkey => ⟨hkey.1 first List.mem_cons_self, hkey⟩⟩

theorem joinsParts_of_concat {parts : List (DataProto κ α β μ)} {result : DataProto κ α β μ}
    (hconcat : concat parts = .ok result) : JoinsParts parts result := by
  obtain ⟨first, rest, rfl, hbatch, hcolumns, hmerge⟩ := concat_cases hconcat
  have hrewards := rewardExtraKeys_of_merge hmerge
  rw [List.filterMap_map] at hrewards
  constructor
  case tensors => exact keepsShared_tensors hbatch
  case objects =>
    apply KeepsShared.of_rows fun part _ entry hentry => part.consistent entry hentry
    · intro key
      rw [hcolumns, mem_keys_concatColumns, ← List.map_cons, List.forall_mem_map]
    · intro key hkey
      rw [hcolumns] at hkey ⊢
      rw [getD_concatColumns hkey, ← List.map_cons, List.flatMap_map]
  case rewardExtraKeys => exact hrewards
  case named =>
    intro keys hkeys key hkey
    rw [hrewards] at hkeys
    exact ((mem_mergeRewardExtraKeys hkeys key).mp hkey).2

omit [ValueEq μ] in
/-- Meta information that names reward columns at most merges. -/
theorem exists_merge_of_plain [ValueEq μ] {infos : List (MetaInfo κ μ)} (columns : List κ)
    (hinfos : ∀ info ∈ infos,
      info.autoPadding = none ∧ info.values = Dict.empty ∧ info.metrics = []) :
    ∃ merged, MetaInfo.merge infos columns = .ok merged := by
  have hflags : (infos.map MetaInfo.autoPadding).foldlM MetaInfo.mergeFlag none =
      .ok none := by
    induction infos with
    | nil => rfl
    | cons info infos ih =>
        rw [List.map_cons, List.foldlM_cons, (hinfos info List.mem_cons_self).1]
        exact ih fun other hother => hinfos other (List.mem_cons_of_mem _ hother)
  have hvalues : MetaInfo.mergeValues (infos.map MetaInfo.values) = .ok Dict.empty := by
    have hnone : (infos.map MetaInfo.values).flatMap Dict.entries = [] := by
      rw [List.flatMap_eq_nil_iff]
      intro values hmem
      obtain ⟨info, hinfo, rfl⟩ := List.mem_map.mp hmem
      rw [(hinfos info hinfo).2.1]
      rfl
    rw [MetaInfo.mergeValues, hnone]
    rfl
  have hmetrics : infos.flatMap MetaInfo.metrics = [] := by
    rw [List.flatMap_eq_nil_iff]
    exact fun info hinfo => (hinfos info hinfo).2.2
  rw [MetaInfo.merge, hflags, hvalues]
  simp only [bind, Except.bind, hmetrics, if_true]
  exact ⟨_, rfl⟩

/-- Parts with tensors of the same names, and nothing but reward columns in their
meta information, are concatenated. -/
theorem exists_concat {first : DataProto κ α β μ} {rest : List (DataProto κ α β μ)}
    {names : List κ}
    (hbatch : ∀ part ∈ first :: rest, ∃ tensors, part.batch = some tensors ∧
      tensors.columns.keys = names)
    (hinfos : ∀ part ∈ first :: rest, part.metaInfo.autoPadding = none ∧
      part.metaInfo.values = Dict.empty ∧ part.metaInfo.metrics = []) :
    ∃ result, concat (first :: rest) = .ok result := by
  obtain ⟨tensors, hfirst, hnames⟩ := hbatch first List.mem_cons_self
  have hrequired : ∀ given ∈ rest.map batch, ∃ other, requireBatch given = .ok other := by
    intro given hmem
    obtain ⟨part, hpart, rfl⟩ := List.mem_map.mp hmem
    obtain ⟨other, hother, -⟩ := hbatch part (List.mem_cons_of_mem _ hpart)
    exact ⟨other, by rw [hother]; rfl⟩
  obtain ⟨others, hothers⟩ := exists_mapM_eq_ok hrequired
  have hrest := mapM_requireBatch hothers
  have hsame : TensorDict.SameKeys tensors others := by
    intro other hother
    have hmem : some other ∈ rest.map batch := by
      rw [hrest]
      exact List.mem_map_of_mem hother
    obtain ⟨part, hpart, heq⟩ := List.mem_map.mp hmem
    obtain ⟨found, hfound, hkeys⟩ := hbatch part (List.mem_cons_of_mem _ hpart)
    obtain rfl : found = other := Option.some.inj (hfound.symm.trans heq)
    rw [hkeys, hnames]
    exact ⟨List.Subset.refl _, List.Subset.refl _⟩
  have hsizes : others.map TensorDict.batchSize = rest.map len := by
    calc
      others.map TensorDict.batchSize
        = (rest.map batch).map fun batch => (batch.map TensorDict.batchSize).getD 0 := by
          rw [hrest, List.map_map]
          rfl
      _ = rest.map len := by
          rw [List.map_map]
          apply List.map_congr_left
          intro part hpart
          obtain ⟨other, hother, -⟩ := hbatch part (List.mem_cons_of_mem _ hpart)
          simp [hother, batchSize_eq_len hother]
  have hplain : ∀ info ∈ (first :: rest).map metaInfo,
      info.autoPadding = none ∧ info.values = Dict.empty ∧ info.metrics = [] := by
    intro info hinfo
    obtain ⟨part, hpart, rfl⟩ := List.mem_map.mp hinfo
    exact hinfos part hpart
  obtain ⟨merged, hmerged⟩ := exists_merge_of_plain
    (concatColumns first.nonTensorBatch (rest.map nonTensorBatch)).keys hplain
  rw [concat, hfirst, concatBatches, hothers]
  simp only [bind, Except.bind, TensorDict.cat, dif_pos hsame]
  rw [hmerged]
  refine ⟨_, dif_pos ?_⟩
  intro column hcolumn
  have hkey : column.1 ∈ (concatColumns first.nonTensorBatch
      (rest.map nonTensorBatch)).keys := List.mem_map_of_mem hcolumn
  have hvalue : (concatColumns first.nonTensorBatch (rest.map nonTensorBatch)).getD column.1 [] =
      column.2 := by
    rw [Dict.getD, (Dict.get?_eq_some_iff _ _ _).mpr hcolumn]
    rfl
  have hshared := (mem_keys_concatColumns _ _ _).mp hkey
  have hlength : ∀ part ∈ first :: rest, (part.nonTensorBatch.getD column.1 []).length =
      part.len := fun part hpart =>
    length_getD part.consistent (hshared _ (by
      rw [← List.map_cons]
      exact List.mem_map_of_mem hpart))
  rw [← hvalue, getD_concatColumns hkey, ← List.map_cons, List.flatMap_map,
    List.length_flatMap, List.map_congr_left hlength, List.map_cons, List.sum_cons, ← hsizes,
    ← batchSize_eq_len hfirst]
  rfl

/-! ## Cutting and concatenating -/

omit [DecidableEq κ] [ValueEq μ] in
theorem range_append_slice (whole start size : ℕ) :
    List.range (min start whole) ++
        List.range' start (min (start + size) whole - start) =
      List.range (min (start + size) whole) := by
  rcases le_total start whole with hle | hle
  · rw [min_eq_left hle, List.range_eq_range', List.range_eq_range']
    have happend := List.range'_append_1 (s := 0) (m := start)
      (n := min (start + size) whole - start)
    rw [Nat.zero_add] at happend
    rw [happend]
    congr 1
    omega
  · have hempty : min (start + size) whole - start = 0 := by omega
    rw [hempty, List.range'_zero, List.append_nil, min_eq_right hle,
      min_eq_right (hle.trans (Nat.le_add_right _ _))]

omit [DecidableEq κ] [ValueEq μ] in
/-- Slices that follow one another cover a beginning of the table. -/
theorem flatten_slices (whole size steps : ℕ) :
    ((List.range steps).map fun step =>
        List.range' (step * size) (min (step * size + size) whole - step * size)).flatten =
      List.range (min (steps * size) whole) := by
  induction steps with
  | zero => simp
  | succ steps ih =>
      rw [List.range_succ, List.map_append, List.flatten_append, ih, List.map_singleton,
        List.flatten_singleton, range_append_slice, Nat.succ_mul]

omit [ValueEq μ] in
/-- The meta information that survives a concatenation of pieces unchanged: no
metrics, and only columns in the list of reward columns. -/
structure PlainMetaInfo (data : DataProto κ α β μ) : Prop where
  metrics : data.metaInfo.metrics = []
  named : ∀ keys ∈ data.metaInfo.rewardExtraKeys, ∀ key ∈ keys, key ∈ data.nonTensorBatch.keys

omit [ValueEq μ] in
theorem withMetaInfo_copies {data : DataProto κ α β μ} (hplain : data.PlainMetaInfo)
    (parts : ℕ) :
    data.withMetaInfo (data.metaInfo.copies parts data.nonTensorBatch.keys) = data := by
  have hkeys : (data.metaInfo.rewardExtraKeys.map fun keys =>
      keys.filter (· ∈ data.nonTensorBatch.keys)) = data.metaInfo.rewardExtraKeys := by
    cases hnames : data.metaInfo.rewardExtraKeys with
    | none => rfl
    | some keys =>
        rw [Option.map_some, List.filter_eq_self.mpr]
        intro key hkey
        exact decide_eq_true (hplain.named keys hnames key hkey)
  have hinfo : data.metaInfo.copies parts data.nonTensorBatch.keys = data.metaInfo := by
    have hmetrics := hplain.metrics
    cases hdata : data.metaInfo with
    | mk autoPadding values metrics rewardExtraKeys uniform =>
        simp only [hdata] at hkeys hmetrics
        simp [MetaInfo.copies, hkeys, hmetrics, MetaInfo.metricCopies]
  exact DataProto.ext rfl rfl hinfo

/-- Pieces that together are all rows of a table are concatenated to the table,
up to its meta information. -/
theorem concat_pieces {data : DataProto κ α β μ} (hcomparable : data.metaInfo.Comparable)
    {positions : List (List ℕ)} (hflatten : positions.flatten = List.range data.len)
    (hpieces : positions ≠ []) :
    concat (positions.map fun part => data.gather part) =
      .ok (data.withMetaInfo
        (data.metaInfo.copies positions.length data.nonTensorBatch.keys)) := by
  obtain ⟨part, parts, rfl⟩ := List.exists_cons_of_ne_nil hpieces
  rw [concat_gather_eq hcomparable, hflatten, gather_range, List.length_cons]

/-- A concatenation keeps what all its parts have, and undoes a cut into equal
chunks or into slices: of a table with rows only the meta information may change.
Its metrics become lists over the pieces, and the list of reward columns loses
names that are no columns. -/
theorem concat_joins_and_restores (autoPadding : Bool) :
    (∀ (parts : List (DataProto κ α β μ)) result, concat parts = .ok result →
      JoinsParts parts result) ∧
    ∀ data : DataProto κ α β μ, 0 < data.len → data.metaInfo.Comparable →
      (∀ chunks, 0 < chunks → chunks ∣ data.len →
        (data.chunk autoPadding chunks >>= concat) = .ok (data.withMetaInfo
          (data.metaInfo.copies chunks data.nonTensorBatch.keys))) ∧
      (∀ splitSize, 0 < splitSize →
        (data.split splitSize >>= concat) = .ok (data.withMetaInfo
          (data.metaInfo.copies ((data.len + splitSize - 1) / splitSize)
            data.nonTensorBatch.keys))) ∧
      (data.PlainMetaInfo → ∀ parts,
        data.withMetaInfo (data.metaInfo.copies parts data.nonTensorBatch.keys) = data) := by
  refine ⟨fun parts result => joinsParts_of_concat, fun data hlen hcomparable =>
    ⟨?_, ?_, ?_⟩⟩
  · intro chunks hchunks hdvd
    have hsplits : data.Splits autoPadding chunks := splits_of_dvd hchunks hlen hdvd
    have hcount : (pieces (data.pieceSizes chunks) data.len).length = chunks := by
      rw [length_pieces, hsplits.enough]
    have hne : pieces (data.pieceSizes chunks) data.len ≠ [] := by
      rw [← List.length_pos_iff, hcount]
      exact hchunks
    rw [chunk_of_splits hchunks hsplits]
    simp only [bind, Except.bind]
    rw [concat_pieces hcomparable (flatten_pieces (sum_pieceSizes data hchunks)) hne, hcount]
  · intro splitSize hsize
    set steps := (data.len + splitSize - 1) / splitSize with hsteps
    have hcover : data.len ≤ steps * splitSize := by
      have hmod := Nat.mod_lt (data.len + splitSize - 1) hsize
      have hdiv := Nat.div_add_mod' (data.len + splitSize - 1) splitSize
      rw [← hsteps] at hdiv
      omega
    have hpos : 0 < steps := Nat.pos_of_mul_pos_right (hlen.trans_le hcover)
    have hflatten := flatten_slices data.len splitSize steps
    rw [min_eq_right hcover] at hflatten
    have hne : (List.range steps).map (fun step => List.range' (step * splitSize)
        (min (step * splitSize + splitSize) data.len - step * splitSize)) ≠ [] := by
      simpa using hpos.ne'
    have hconcat := concat_pieces hcomparable hflatten hne
    rw [List.map_map, List.length_map, List.length_range] at hconcat
    rw [split, if_neg hsize.ne']
    exact hconcat
  · intro hplain parts
    exact withMetaInfo_copies hplain parts

/-- Two rows, and a metric of the whole table. -/
def measuredTable : DataProto String ℕ Unit ℕ where
  batch := some
    { batchSize := 2
      columns := Dict.ofList [("input_ids", [10, 20])]
      aligned := by decide }
  nonTensorBatch := Dict.empty
  metaInfo :=
    { autoPadding := none
      values := Dict.empty
      metrics := [Dict.ofList [("seconds", .value 1)]]
      rewardExtraKeys := none
      uniform := by simp }
  consistent := by simp [Dict.empty]

theorem measuredTable_restored :
    (measuredTable.chunk false 2 >>= concat) = .ok (measuredTable.withMetaInfo
        (measuredTable.metaInfo.copies 2 measuredTable.nonTensorBatch.keys)) ∧
      (measuredTable.split 1 >>= concat) = .ok (measuredTable.withMetaInfo
        (measuredTable.metaInfo.copies 2 measuredTable.nonTensorBatch.keys)) := by
  have hrestores := (@concat_joins_and_restores String ℕ Unit ℕ _ _ false).2 measuredTable
    (by decide) (MetaInfo.comparable_of_decidableEq _)
  exact ⟨hrestores.1 2 (by decide) (by decide), hrestores.2.1 1 (by decide)⟩

/-- No metric is a list. -/
def plainMetrics (data : DataProto String ℕ Unit ℕ) : Bool :=
  data.metaInfo.metrics.all fun row => row.entries.all fun entry =>
    match entry.2 with
    | .value _ => true
    | .list _ => false

/-- Two rows, and an array in the meta information. -/
def seededTable : DataProto String ℕ Unit ArrayValue where
  batch := measuredTable.batch
  nonTensorBatch := Dict.empty
  metaInfo := ⟨none, Dict.ofList [("seeds", twoSeeds)], [], none, MetaInfo.uniform_nil⟩
  consistent := by simp [Dict.empty]

/-- The pieces give back a list where the table had a number, and arrays cannot be
compared. -/
theorem measuredTable_not_original :
    (measuredTable.chunk false 2 >>= concat) ≠ .ok measuredTable ∧
      (seededTable.chunk false 2 >>= concat) = .error
        "ValueError: The truth value of an array with more than one element is ambiguous." := by
  refine ⟨fun heq => ?_, rfl⟩
  have hjoined : (measuredTable.chunk false 2 >>= concat).map plainMetrics = .ok false := rfl
  rw [heq] at hjoined
  have horiginal : plainMetrics measuredTable = true := rfl
  exact absurd (Except.ok.inj hjoined) (by rw [horiginal]; decide)

end DataProto

end OneShotOPD.Protocol
