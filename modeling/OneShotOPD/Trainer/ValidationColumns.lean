import OneShotOPD.Trainer.Validation

/-!
# Collected lists against the samples

What one batch does to the list of a key, and from it when the collected lists are the
columns of the samples: the built-in list, whose only danger is a reported key of its name,
and the other lists, which are not filled up in a batch without extra fields.
-/

namespace OneShotOPD.Validation

open Checks Latest MultiTrajectories

/-! ## Final outputs -/

theorem updateSessionMax_isOk (sessionMax : Dict String (ℤ × ℕ)) {entry : String × ℕ}
    (hparsed : ∃ session, parseSession entry.1 = .ok session) :
    ∃ next, updateSessionMax sessionMax entry = .ok next := by
  obtain ⟨session, hsession⟩ := hparsed
  cases session with
  | none => exact ⟨_, by rw [updateSessionMax, hsession]; rfl⟩
  | some session => exact ⟨_, by rw [updateSessionMax, hsession]; rfl⟩

theorem foldlM_updateSessionMax_isOk {entries : List (String × ℕ)}
    (hparsed : ∀ entry ∈ entries, ∃ session, parseSession entry.1 = .ok session)
    (start : Dict String (ℤ × ℕ)) :
    ∃ sessionMax, entries.foldlM updateSessionMax start = .ok sessionMax := by
  induction entries generalizing start with
  | nil => exact ⟨start, rfl⟩
  | cons entry entries ih =>
      obtain ⟨next, hnext⟩ := updateSessionMax_isOk start (hparsed entry List.mem_cons_self)
      obtain ⟨sessionMax, hrest⟩ :=
        ih (fun other hother => hparsed other (List.mem_cons_of_mem _ hother)) next
      exact ⟨sessionMax, by rw [List.foldlM_cons, hnext]; exact hrest⟩

theorem finalIndices_keys (batch : ValBatch) :
    finalIndices batch.keys = .ok batch.positions := by
  have hparsed : ∀ entry ∈ batch.keys.zipIdx,
      ∃ session, parseSession entry.1 = .ok session := by
    rintro ⟨key, position⟩ hentry
    obtain ⟨row, hrow, rfl⟩ := List.mem_map.mp (List.fst_mem_of_mem_zipIdx hentry)
    exact batch.parsed row hrow
  obtain ⟨sessionMax, hok⟩ := foldlM_updateSessionMax_isOk hparsed Dict.empty
  rw [ValBatch.positions, finalIndices, hok]
  rfl

/-- The positions that are kept are positions of entries. -/
theorem updateSessionMax_position {bound : ℕ} {sessionMax next : Dict String (ℤ × ℕ)}
    {entry : String × ℕ} (hentry : entry.2 < bound)
    (hbound : ∀ kept ∈ sessionMax.entries, kept.2.2 < bound)
    (hok : updateSessionMax sessionMax entry = .ok next) :
    ∀ kept ∈ next.entries, kept.2.2 < bound := by
  obtain ⟨session, _, hnext⟩ := bind_eq_ok.mp hok
  have hinsert : ∀ (key : String) (index : ℤ),
      ∀ kept ∈ (sessionMax.insert key (index, entry.2)).entries, kept.2.2 < bound := by
    intro key index kept hkept
    rcases Dict.mem_entries_insert hkept with rfl | hold
    · exact hentry
    · exact hbound kept hold
  cases session with
  | none =>
      cases hnext
      exact hinsert _ _
  | some session =>
      cases hnext
      rw [keepLatest]
      split
      next => exact hinsert _ _
      next =>
        split
        next => exact hinsert _ _
        next => exact hbound

theorem foldlM_position {bound : ℕ} {entries : List (String × ℕ)}
    {start sessionMax : Dict String (ℤ × ℕ)} (hentries : ∀ entry ∈ entries, entry.2 < bound)
    (hbound : ∀ kept ∈ start.entries, kept.2.2 < bound)
    (hok : entries.foldlM updateSessionMax start = .ok sessionMax) :
    ∀ kept ∈ sessionMax.entries, kept.2.2 < bound := by
  induction entries generalizing start with
  | nil =>
      cases hok
      exact hbound
  | cons entry entries ih =>
      rw [List.foldlM_cons] at hok
      obtain ⟨next, hnext, hrest⟩ := bind_eq_ok.mp hok
      exact ih (fun other hother => hentries other (List.mem_cons_of_mem _ hother))
        (updateSessionMax_position (hentries entry List.mem_cons_self) hbound hnext) hrest

theorem lt_of_mem_positions {batch : ValBatch} {position : ℕ}
    (hposition : position ∈ batch.positions) : position < batch.rows.length := by
  have hok := finalIndices_keys batch
  rw [finalIndices] at hok
  obtain ⟨sessionMax, hfold, hpositions⟩ := bind_eq_ok.mp hok
  rw [← Except.ok.inj hpositions] at hposition
  obtain ⟨kept, hkept, rfl⟩ := List.mem_map.mp hposition
  refine foldlM_position (fun entry hentry => ?_) (by simp [Dict.empty]) hfold kept
    (List.mem_mergeSort.mp hkept)
  simpa [ValBatch.keys] using List.snd_lt_of_mem_zipIdx hentry

theorem length_finalRows (batch : ValBatch) :
    batch.finalRows.length = batch.positions.length := by
  rw [ValBatch.finalRows, List.length_map, List.length_filterMap_eq_countP, List.countP_eq_length]
  intro position hposition
  simpa using lt_of_mem_positions hposition

/-! ## The list of one key -/

theorem appendReported_eq (nPrior : ℕ) (infos : Dict String (List Entry))
    (entry : String × Info) :
    appendReported nPrior infos entry = infos.insert entry.1
      (infos.getD entry.1 (List.replicate nPrior none) ++ [some entry.2]) := by
  rw [appendReported]
  split
  next hkey =>
    obtain ⟨values, hvalues⟩ := Option.isSome_iff_exists.mp ((Dict.get?_isSome_iff _ _).mpr hkey)
    simp [Dict.getD, hvalues]
  next hkey =>
    have hnone := (Dict.get?_eq_none_iff infos entry.1).mpr hkey
    simp [Dict.insert_insert, Dict.getD, hnone]

/-- The list of a key after one sample. -/
theorem get?_addSample (infos : Dict String (List Entry)) (nPrior : ℕ)
    (extraField : ExtraField) (key : String) :
    (addSample (infos, nPrior) extraField).1.get? key =
      match extraField.rewardExtraInfo.get? key with
      | some value => some ((infos.get? key).getD (List.replicate nPrior none) ++ [some value])
      | none => if key = "reward" then infos.get? key else (infos.get? key).map (· ++ [none]) := by
  have hfold : (addSample (infos, nPrior) extraField).1 =
      extraField.rewardExtraInfo.entries.foldl (fun dict entry => dict.insert entry.1
        (dict.getD entry.1 (List.replicate nPrior none) ++ [some entry.2]))
        (padMissing extraField.rewardExtraInfo infos) := by
    rw [addSample]
    dsimp only
    congr 1
    funext dict entry
    exact appendReported_eq nPrior dict entry
  rw [hfold, Dict.get?_foldl_merge _ _ _ fun values value => values ++ [some value]]
  cases hget : extraField.rewardExtraInfo.get? key with
  | none =>
      have habsent := (Dict.get?_eq_none_iff _ _).mp hget
      rw [padMissing, Dict.get?_mapWithKey]
      by_cases hreward : key = "reward"
      · simp [hreward]
      · simp [hreward, habsent]
  | some value =>
      have hmem : key ∈ extraField.rewardExtraInfo.keys := by
        rw [← Dict.get?_isSome_iff, hget]
        rfl
      simp [Dict.getD, padMissing, Dict.get?_mapWithKey, hmem]

/-- The column of a reported key, which starts with the first sample that reports it. -/
def columnOf (samples : List Sample) (key : String) : Option (List Entry) :=
  if ∃ sample ∈ samples, key ∈ sample.rewardExtraInfo.keys then
    some (samples.map fun sample => sample.rewardExtraInfo.get? key)
  else none

theorem columnOf_eq_none_map {samples : List Sample} {key : String}
    (habsent : ¬ ∃ sample ∈ samples, key ∈ sample.rewardExtraInfo.keys) :
    (samples.map fun sample => sample.rewardExtraInfo.get? key) =
      List.replicate samples.length none := by
  rw [List.eq_replicate_iff]
  refine ⟨List.length_map _, fun entry hentry => ?_⟩
  obtain ⟨sample, hsample, rfl⟩ := List.mem_map.mp hentry
  exact (Dict.get?_eq_none_iff _ _).mpr fun hkey => habsent ⟨sample, hsample, hkey⟩

/-- One sample adds its entry to the column of every key but the built-in one. -/
theorem addSample_columnOf {infos : Dict String (List Entry)} {samples : List Sample}
    {sample : Sample} {extraField : ExtraField} {key : String} (hkey : key ≠ "reward")
    (hsample : extraField.rewardExtraInfo = sample.rewardExtraInfo)
    (hcolumn : infos.get? key = columnOf samples key) :
    (addSample (infos, samples.length) extraField).1.get? key =
      columnOf (samples ++ [sample]) key := by
  rw [get?_addSample, hsample, hcolumn]
  cases hget : sample.rewardExtraInfo.get? key with
  | none =>
      have habsent := (Dict.get?_eq_none_iff _ _).mp hget
      by_cases hseen : ∃ other ∈ samples, key ∈ other.rewardExtraInfo.keys
      · simp [columnOf, hseen, hkey, hget]
      · simp [columnOf, hseen, hkey, habsent]
  | some value =>
      have hmem : key ∈ sample.rewardExtraInfo.keys := by
        rw [← Dict.get?_isSome_iff, hget]
        rfl
      by_cases hseen : ∃ other ∈ samples, key ∈ other.rewardExtraInfo.keys
      · simp [columnOf, hseen, hget]
      · simp [columnOf, hseen, hmem, hget, columnOf_eq_none_map hseen]

/-- The samples of a batch with extra fields, one after another. -/
theorem foldl_addSample_columnOf {infos : Dict String (List Entry)} {before : List Sample}
    (added : List (ExtraField × Sample)) {key : String} (hkey : key ≠ "reward")
    (hadded : ∀ pair ∈ added, pair.1.rewardExtraInfo = pair.2.rewardExtraInfo)
    (hcolumn : infos.get? key = columnOf before key) :
    ((added.map Prod.fst).foldl addSample (infos, before.length)).1.get? key =
      columnOf (before ++ added.map Prod.snd) key := by
  induction added generalizing infos before with
  | nil => simpa using hcolumn
  | cons pair added ih =>
      obtain ⟨extraField, sample⟩ := pair
      have hstep := addSample_columnOf hkey (hadded _ List.mem_cons_self) hcolumn
      rw [List.map_cons, List.foldl_cons]
      have hlength : addSample (infos, before.length) extraField =
          ((addSample (infos, before.length) extraField).1, (before ++ [sample]).length) := by
        rw [List.length_append]
        rfl
      rw [hlength, ih (fun other hother => hadded other (List.mem_cons_of_mem _ hother)) hstep,
        List.map_cons, List.append_assoc]
      rfl

/-- A sample lengthens the built-in list when it reports a key of that name. -/
theorem foldl_addSample_reward (extraFields : List ExtraField)
    {infos : Dict String (List Entry)} {nPrior : ℕ} {values : List Entry}
    (hvalues : infos.get? "reward" = some values) :
    ∃ more, (extraFields.foldl addSample (infos, nPrior)).1.get? "reward" =
        some (values ++ more) ∧
      more.length =
        extraFields.countP fun extraField => "reward" ∈ extraField.rewardExtraInfo.keys := by
  induction extraFields generalizing infos nPrior values with
  | nil => exact ⟨[], by simpa using hvalues, rfl⟩
  | cons extraField extraFields ih =>
      rw [List.foldl_cons, List.countP_cons]
      have hstep := get?_addSample infos nPrior extraField "reward"
      rw [hvalues] at hstep
      cases hget : extraField.rewardExtraInfo.get? "reward" with
      | none =>
          have habsent := (Dict.get?_eq_none_iff _ _).mp hget
          rw [hget] at hstep
          obtain ⟨more, hmore, hlength⟩ := @ih _ (nPrior + 1) _ hstep
          exact ⟨more, hmore, by simpa [habsent] using hlength⟩
      | some value =>
          have hmem : "reward" ∈ extraField.rewardExtraInfo.keys := by
            rw [← Dict.get?_isSome_iff, hget]
            rfl
          rw [hget] at hstep
          obtain ⟨more, hmore, hlength⟩ := @ih _ (nPrior + 1) _ hstep
          refine ⟨some value :: more, ?_, by simp [hmem, hlength]⟩
          rw [← List.append_cons] at hmore
          exact hmore

/-! ## The lists after a run -/

theorem samplesOf_concat (batches : List ValBatch) (batch : ValBatch) :
    samplesOf (batches ++ [batch]) = samplesOf batches ++ batch.samples := by
  simp [samplesOf]

/-- The collected lists of a run. -/
def infosOf (batches : List ValBatch) : Dict String (List Entry) :=
  batches.foldl (fun infos batch => extendInfos infos (batch.kvBatchGet batch.finalRows))
    Dict.empty

theorem infosOf_concat (batches : List ValBatch) (batch : ValBatch) :
    infosOf (batches ++ [batch]) =
      extendInfos (infosOf batches) (batch.kvBatchGet batch.finalRows) := by
  simp [infosOf]

theorem validateBatch_eq (state : Collected) (batch : ValBatch) :
    validateBatch state batch = .ok
      { sampleUids := state.sampleUids ++ batch.samples.map Sample.uid
        sampleScores := state.sampleScores ++ batch.samples.map Sample.score
        dataSources := state.dataSources ++ batch.samples.map Sample.dataSource
        rewardExtraInfosDict :=
          extendInfos state.rewardExtraInfosDict (batch.kvBatchGet batch.finalRows) } := by
  have hsources : (batch.kvBatchGet batch.finalRows).dataSource.getD
      (List.replicate batch.positions.length "unknown") =
        batch.samples.map Sample.dataSource := by
    rw [ValBatch.samples, List.map_map, ← length_finalRows]
    cases hcolumn : batch.hasDataSource with
    | true =>
        rw [ValBatch.kvBatchGet, hcolumn, if_pos rfl, Option.getD_some]
        refine List.map_congr_left fun row _ => ?_
        simp [ValBatch.sample, hcolumn]
    | false =>
        simp [ValBatch.kvBatchGet, ValBatch.sample, hcolumn, Function.comp_def, List.map_const']
  rw [validateBatch, finalIndices_keys, ← hsources]
  simp [bind, Except.bind, pure, Except.pure, ValBatch.samples, ValBatch.kvBatchGet,
    ValBatch.finalRows, ValBatch.sample, Function.comp_def]

theorem collectBatches_eq (batches : List ValBatch) :
    collectBatches batches = .ok
      { sampleUids := (samplesOf batches).map Sample.uid
        sampleScores := (samplesOf batches).map Sample.score
        dataSources := (samplesOf batches).map Sample.dataSource
        rewardExtraInfosDict := infosOf batches } := by
  induction batches using List.reverseRecOn with
  | nil => rfl
  | append_singleton batches batch ih =>
      have hfold : collectBatches (batches ++ [batch]) =
          collectBatches batches >>= fun state => validateBatch state batch := by
        simp [collectBatches, List.foldlM_append]
      rw [hfold, ih]
      change validateBatch _ batch = _
      rw [validateBatch_eq, samplesOf_concat, infosOf_concat]
      simp

/-- The samples of a batch with extra fields report what the extra fields say. -/
theorem extraField_rewardExtraInfo {batch : ValBatch} (hcolumn : batch.hasExtraFields = true)
    (row : Row) : row.extraField.rewardExtraInfo = (batch.sample row).rewardExtraInfo := by
  simp [ValBatch.sample, hcolumn]

theorem sample_silent {batch : ValBatch} (hcolumn : batch.hasExtraFields = false)
    {sample : Sample} (hsample : sample ∈ batch.samples) :
    sample.rewardExtraInfo = Dict.empty := by
  obtain ⟨row, _, rfl⟩ := List.mem_map.mp hsample
  simp [ValBatch.sample, hcolumn]

/-- The built-in list grows by the scores of a batch and by what is reported under its name. -/
theorem get?_infosOf_reward (batches : List ValBatch) (batch : ValBatch) :
    ∃ more, (infosOf (batches ++ [batch])).get? "reward" =
        some ((infosOf batches).getD "reward" [] ++
          batch.samples.map (Sample.value · "reward") ++ more) ∧
      more.length =
        batch.samples.countP fun sample => "reward" ∈ sample.rewardExtraInfo.keys := by
  have hscores : (batch.samples.map (Sample.value · "reward")) =
      ((batch.finalRows.map Row.rmScores).map List.sum).map fun score => some (.num score) := by
    simp [ValBatch.samples, Sample.value, ValBatch.sample, Function.comp_def]
  rw [infosOf_concat, extendInfos, hscores]
  cases hcolumn : batch.hasExtraFields with
  | false =>
      refine ⟨[], ?_, ?_⟩
      · simp [ValBatch.kvBatchGet, hcolumn, extendRewards]
      · rw [List.length_nil, eq_comm, List.countP_eq_zero]
        intro sample hsample
        simp [sample_silent hcolumn hsample]
  | true =>
      have hget := Dict.get?_insert_self (infosOf batches) "reward"
        ((infosOf batches).getD "reward" [] ++
          ((batch.finalRows.map Row.rmScores).map List.sum).map fun score => some (.num score))
      obtain ⟨more, hmore, hlength⟩ := @foldl_addSample_reward
        (batch.finalRows.map Row.extraField) _
        (((infosOf batches).getD "reward" [] ++ batch.samples.map (Sample.value · "reward")).length
          - batch.finalRows.length) _ hget
      refine ⟨more, ?_, ?_⟩
      · simpa [ValBatch.kvBatchGet, hcolumn, extendRewards, Dict.getD, hscores] using hmore
      · rw [hlength, ValBatch.samples, List.countP_map, List.countP_map]
        refine List.countP_congr fun row _ => ?_
        simp [extraField_rewardExtraInfo hcolumn row]

/-- No sample reports a key with the name of the built-in one. -/
def NoReservedKey (batches : List ValBatch) : Prop :=
  ∀ sample ∈ samplesOf batches, "reward" ∉ sample.rewardExtraInfo.keys

/-- Samples without the column of extra fields come before all reports. -/
def SilentFirst (batches : List ValBatch) : Prop :=
  ∀ before batch, before ++ [batch] <+: batches → batch.hasExtraFields = false →
    batch.samples ≠ [] → ∀ sample ∈ samplesOf before, sample.rewardExtraInfo.keys = []

theorem NoReservedKey.of_concat {batches : List ValBatch} {batch : ValBatch}
    (hreserved : NoReservedKey (batches ++ [batch])) :
    NoReservedKey batches ∧
      ∀ sample ∈ batch.samples, "reward" ∉ sample.rewardExtraInfo.keys := by
  rw [NoReservedKey, samplesOf_concat] at hreserved
  exact ⟨fun sample hsample => hreserved sample (List.mem_append_left _ hsample),
    fun sample hsample => hreserved sample (List.mem_append_right _ hsample)⟩

theorem SilentFirst.of_concat {batches : List ValBatch} {batch : ValBatch}
    (hsilent : SilentFirst (batches ++ [batch])) : SilentFirst batches :=
  fun before other hseen =>
    hsilent before other (hseen.trans (List.prefix_append batches [batch]))

/-- Without a report under its name the built-in list is the column of the scores. -/
theorem getD_infosOf_reward {batches : List ValBatch} (hreserved : NoReservedKey batches) :
    (infosOf batches).getD "reward" [] = (samplesOf batches).map (Sample.value · "reward") := by
  induction batches using List.reverseRecOn with
  | nil => rfl
  | append_singleton batches batch ih =>
      obtain ⟨hbefore, hbatch⟩ := hreserved.of_concat
      obtain ⟨more, hmore, hlength⟩ := get?_infosOf_reward batches batch
      have hnone : more = [] := by
        rw [← List.length_eq_zero_iff, hlength, List.countP_eq_zero]
        intro sample hsample
        simpa using hbatch sample hsample
      rw [Dict.getD, hmore, ih hbefore, hnone, samplesOf_concat]
      simp

/-- The built-in list has an entry too many for every report under its name. -/
theorem length_infosOf_reward (batches : List ValBatch) :
    ((infosOf batches).getD "reward" []).length = (samplesOf batches).length +
      (samplesOf batches).countP fun sample => "reward" ∈ sample.rewardExtraInfo.keys := by
  induction batches using List.reverseRecOn with
  | nil => rfl
  | append_singleton batches batch ih =>
      obtain ⟨more, hmore, hlength⟩ := get?_infosOf_reward batches batch
      rw [Dict.getD, hmore, Option.getD_some, List.length_append, List.length_append, ih, hlength,
        samplesOf_concat, List.length_append, List.countP_append, List.length_map]
      omega

theorem get?_extendRewards (infos : Dict String (List Entry)) (scores : List ℚ) {key : String}
    (hkey : key ≠ "reward") : (extendRewards infos scores).get? key = infos.get? key :=
  Dict.get?_insert_of_ne _ _ hkey

/-- A batch without extra fields leaves every list but the built-in one as it is. -/
theorem get?_infosOf_silent {batches : List ValBatch} {batch : ValBatch} {key : String}
    (hcolumn : batch.hasExtraFields = false) (hkey : key ≠ "reward") :
    (infosOf (batches ++ [batch])).get? key = (infosOf batches).get? key := by
  rw [infosOf_concat, extendInfos]
  simp [ValBatch.kvBatchGet, hcolumn, get?_extendRewards _ _ hkey]

/-- A batch with extra fields adds its entries to the column of a key. -/
theorem get?_infosOf_reporting {batches : List ValBatch} {batch : ValBatch} {key : String}
    (hcolumn : batch.hasExtraFields = true) (hkey : key ≠ "reward")
    (hreserved : NoReservedKey batches)
    (hbefore : (infosOf batches).get? key = columnOf (samplesOf batches) key) :
    (infosOf (batches ++ [batch])).get? key = columnOf (samplesOf (batches ++ [batch])) key := by
  have hprior : ((extendRewards (infosOf batches)
      ((batch.finalRows.map Row.rmScores).map List.sum)).getD "reward" []).length -
        (batch.finalRows.map Row.extraField).length = (samplesOf batches).length := by
    rw [extendRewards, Dict.getD, Dict.get?_insert_self, Option.getD_some,
      getD_infosOf_reward hreserved]
    simp
  have hadded := @foldl_addSample_columnOf
    (extendRewards (infosOf batches) ((batch.finalRows.map Row.rmScores).map List.sum))
    (samplesOf batches) (batch.finalRows.map fun row => (row.extraField, batch.sample row)) key
    hkey
    (fun pair hpair => by
      obtain ⟨row, _, rfl⟩ := List.mem_map.mp hpair
      exact extraField_rewardExtraInfo hcolumn row)
    (by rw [get?_extendRewards _ _ hkey, hbefore])
  rw [infosOf_concat, samplesOf_concat, extendInfos]
  dsimp only [ValBatch.kvBatchGet]
  rw [hcolumn, if_pos rfl]
  dsimp only
  rw [hprior]
  simpa [ValBatch.samples, Function.comp_def] using hadded

/-- The list of every reported key is its column. -/
theorem get?_infosOf {batches : List ValBatch} (hreserved : NoReservedKey batches)
    (hsilent : SilentFirst batches) {key : String} (hkey : key ≠ "reward") :
    (infosOf batches).get? key = columnOf (samplesOf batches) key := by
  induction batches using List.reverseRecOn with
  | nil => simp [infosOf, columnOf, samplesOf]
  | append_singleton batches batch ih =>
      have hbefore := ih hreserved.of_concat.1 hsilent.of_concat
      cases hcolumn : batch.hasExtraFields with
      | true => exact get?_infosOf_reporting hcolumn hkey hreserved.of_concat.1 hbefore
      | false =>
          rw [get?_infosOf_silent hcolumn hkey, hbefore, samplesOf_concat]
          by_cases hempty : batch.samples = []
          · rw [hempty, List.append_nil]
          · have hquiet := hsilent batches batch List.prefix_rfl hcolumn hempty
            have habsent : ¬ ∃ sample ∈ samplesOf batches,
                key ∈ sample.rewardExtraInfo.keys := by
              rintro ⟨sample, hsample, hmem⟩
              rw [hquiet sample hsample] at hmem
              exact List.not_mem_nil hmem
            have habsent' : ¬ ∃ sample ∈ samplesOf batches ++ batch.samples,
                key ∈ sample.rewardExtraInfo.keys := by
              rintro ⟨sample, hsample, hmem⟩
              rcases List.mem_append.mp hsample with hsample | hsample
              · exact habsent ⟨sample, hsample, hmem⟩
              · rw [sample_silent hcolumn hsample] at hmem
                exact List.not_mem_nil hmem
            rw [columnOf, columnOf, if_neg habsent, if_neg habsent']

/-! ## When the lists are columns -/

/-- Every collected list has one entry for each sample: its value, or none. -/
structure Aligned (samples : List Sample) (state : Collected) : Prop where
  sampleUids : state.sampleUids = samples.map Sample.uid
  sampleScores : state.sampleScores = samples.map Sample.score
  dataSources : state.dataSources = samples.map Sample.dataSource
  columns : ∀ entry ∈ state.rewardExtraInfosDict.entries,
    entry.2 = samples.map (Sample.value · entry.1)
  reported : ∀ sample ∈ samples, ∀ key ∈ sample.rewardExtraInfo.keys,
    key ∈ state.rewardExtraInfosDict.keys

/-- After every batch the collected lists are those of the samples so far. -/
def AlignedThroughout (batches : List ValBatch) : Prop :=
  ∀ seen, seen <+: batches →
    ∃ state, collectBatches seen = .ok state ∧ Aligned (samplesOf seen) state

theorem aligned_of_clean {batches : List ValBatch} (hreserved : NoReservedKey batches)
    (hsilent : SilentFirst batches) : ∃ state, collectBatches batches = .ok state ∧
      state.rewardExtraInfosDict = infosOf batches ∧ Aligned (samplesOf batches) state := by
  refine ⟨_, collectBatches_eq batches, rfl, rfl, rfl, rfl, ?_, ?_⟩
  · rintro ⟨key, values⟩ hentry
    have hget := (Dict.get?_eq_some_iff _ _ _).mpr hentry
    by_cases hkey : key = "reward"
    · subst hkey
      have hvalues := getD_infosOf_reward hreserved
      rw [Dict.getD, hget] at hvalues
      exact hvalues
    · rw [get?_infosOf hreserved hsilent hkey, columnOf] at hget
      split at hget
      next =>
        rw [← Option.some.inj hget]
        refine List.map_congr_left fun sample _ => ?_
        rw [Sample.value, if_neg hkey]
      next => exact absurd hget (by simp)
  · intro sample hsample key hmem
    have hkey : key ≠ "reward" := by
      rintro rfl
      exact hreserved sample hsample hmem
    rw [← Dict.get?_isSome_iff, get?_infosOf hreserved hsilent hkey, columnOf,
      if_pos ⟨sample, hsample, hmem⟩]
    rfl

theorem NoReservedKey.of_seen {seen batches : List ValBatch} (hseen : seen <+: batches)
    (hreserved : NoReservedKey batches) : NoReservedKey seen := by
  obtain ⟨rest, rfl⟩ := hseen
  intro sample hsample
  refine hreserved sample ?_
  rw [samplesOf, List.flatMap_append]
  exact List.mem_append_left _ hsample

/-- The lists stay columns exactly when no report has the reserved name and no silent batch
comes after a report. -/
theorem alignedThroughout_iff (batches : List ValBatch) :
    AlignedThroughout batches ↔ NoReservedKey batches ∧ SilentFirst batches := by
  constructor
  · intro haligned
    have hreserved : NoReservedKey batches := by
      intro sample hsample hmem
      obtain ⟨state, hok, halign⟩ := haligned batches List.prefix_rfl
      rw [collectBatches_eq, Except.ok.injEq] at hok
      subst hok
      have hkey := halign.reported sample hsample _ hmem
      obtain ⟨values, hvalues⟩ :=
        Option.isSome_iff_exists.mp ((Dict.get?_isSome_iff _ _).mpr hkey)
      have hcolumn := halign.columns _ ((Dict.get?_eq_some_iff _ _ _).mp hvalues)
      have hlength := length_infosOf_reward batches
      have hpositive : 0 < (samplesOf batches).countP
          fun sample => "reward" ∈ sample.rewardExtraInfo.keys :=
        List.countP_pos_iff.mpr ⟨sample, hsample, by simpa using hmem⟩
      dsimp only at hvalues hcolumn
      rw [Dict.getD, hvalues, Option.getD_some, hcolumn, List.length_map] at hlength
      omega
    refine ⟨hreserved, fun before batch hseen hcolumn hsome sample hsample => ?_⟩
    by_contra hreports
    obtain ⟨key, hmem⟩ := List.exists_mem_of_ne_nil _ hreports
    have hbefore : before <+: batches :=
      (List.prefix_append before [batch]).trans hseen
    have hkey : key ≠ "reward" := by
      rintro rfl
      exact (hreserved.of_seen hbefore) sample hsample hmem
    obtain ⟨state, hok, halign⟩ := haligned before hbefore
    obtain ⟨next, hnext, halign'⟩ := haligned _ hseen
    rw [collectBatches_eq, Except.ok.injEq] at hok hnext
    subst hok hnext
    obtain ⟨values, hvalues⟩ := Option.isSome_iff_exists.mp
      ((Dict.get?_isSome_iff _ _).mpr (halign.reported sample hsample _ hmem))
    have hlist := halign.columns _ ((Dict.get?_eq_some_iff _ _ _).mp hvalues)
    dsimp only at hvalues
    rw [← get?_infosOf_silent hcolumn hkey] at hvalues
    have hlist' := halign'.columns _ ((Dict.get?_eq_some_iff _ _ _).mp hvalues)
    have hlengths := congrArg List.length (hlist.symm.trans hlist')
    rw [List.length_map, List.length_map, samplesOf_concat, List.length_append] at hlengths
    exact hsome (List.length_eq_zero_iff.mp (by omega))
  · rintro ⟨hreserved, hsilent⟩ seen hseen
    obtain ⟨state, hok, _, haligned⟩ := aligned_of_clean (hreserved.of_seen hseen)
      fun before batch hbefore => hsilent before batch (hbefore.trans hseen)
    exact ⟨state, hok, haligned⟩

end OneShotOPD.Validation
