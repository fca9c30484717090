import OneShotOPD.Trainer.ValidationColumns
import OneShotOPD.Trainer.ValidationMetrics
import Mathlib

/-!
# Validation metrics of mixed samples

On aligned lists the metrics can be computed exactly when no prompt mixes numbers with other
entries under a key, and then the mean of a numeric key over the prompts is the mean over the
samples.  Together with the condition under which the lists are aligned this says when a
validation over mixed reward information comes out right.
-/

namespace OneShotOPD.Validation

open Checks

/-! ## The groups of samples -/

def groupOf (samples : List Sample) (dataSource uid : String) : List Sample :=
  samples.filter fun sample => sample.dataSource = dataSource ∧ sample.uid = uid

def promptsOf (samples : List Sample) (dataSource : String) : Dict String (List Sample) :=
  Dict.collect ((samples.filter fun sample => sample.dataSource = dataSource).map
    fun sample => (sample.uid, sample))

/-- The data sources with their samples. -/
def sourcesOf (samples : List Sample) : Dict String (List Sample) :=
  Dict.collect (samples.map fun sample => (sample.dataSource, sample))

theorem mem_sourcesOf {samples : List Sample} {entry : String × List Sample}
    (hentry : entry ∈ (sourcesOf samples).entries) :
    entry.2 = samples.filter fun sample => sample.dataSource = entry.1 := by
  have hget := (Dict.get?_eq_some_iff _ _ _).mpr hentry
  rw [sourcesOf, Dict.get?_collect] at hget
  split at hget
  next =>
    rw [← Option.some.inj hget]
    simp [List.filter_map, Function.comp_def]
  next => exact absurd hget (by simp)

theorem mem_promptsOf {samples : List Sample} {dataSource : String}
    {entry : String × List Sample} (hentry : entry ∈ (promptsOf samples dataSource).entries) :
    entry.2 = groupOf samples dataSource entry.1 ∧ entry.2 ≠ [] := by
  have hget := (Dict.get?_eq_some_iff _ _ _).mpr hentry
  rw [promptsOf, Dict.get?_collect] at hget
  split at hget
  next hkey =>
    have hgroup : entry.2 = groupOf samples dataSource entry.1 := by
      rw [← Option.some.inj hget]
      simp [List.filter_map, Function.comp_def, groupOf, List.filter_filter, and_comm]
    simp only [List.map_map, List.mem_map, List.mem_filter, Function.comp_apply] at hkey
    obtain ⟨sample, ⟨hsample, hsource⟩, huid⟩ := hkey
    have hmem : sample ∈ entry.2 := by
      rw [hgroup]
      simpa [groupOf] using ⟨hsample, by simpa using hsource, huid⟩
    exact ⟨hgroup, List.ne_nil_of_mem hmem⟩
  next => exact absurd hget (by simp)

theorem exists_prompt {samples : List Sample} {sample : Sample} (hsample : sample ∈ samples) :
    ∃ source ∈ (sourcesOf samples).entries, source.1 = sample.dataSource ∧
      ∃ prompt ∈ (promptsOf samples sample.dataSource).entries,
        prompt.1 = sample.uid ∧ prompt.2 = groupOf samples sample.dataSource sample.uid := by
  have hsource : sample.dataSource ∈ (sourcesOf samples).keys := by
    rw [sourcesOf, Dict.mem_keys_collect, List.map_map]
    exact List.mem_map_of_mem hsample
  obtain ⟨source, hsource, hname⟩ := List.mem_map.mp hsource
  have hprompt : sample.uid ∈ (promptsOf samples sample.dataSource).keys := by
    rw [promptsOf, Dict.mem_keys_collect, List.map_map]
    exact List.mem_map_of_mem (List.mem_filter.mpr ⟨hsample, by simp⟩)
  obtain ⟨prompt, hprompt, huid⟩ := List.mem_map.mp hprompt
  refine ⟨source, hsource, hname, prompt, hprompt, huid, ?_⟩
  rw [(mem_promptsOf hprompt).1, huid]

/-! ## Splitting aligned lists -/

section Aligned

variable {samples : List Sample} {infos : Dict String (List Entry)}

/-- The values of a sample under the collected keys. -/
def Sample.values (sample : Sample) (infos : Dict String (List Entry)) : Dict String Entry :=
  infos.mapWithKey fun key _ => sample.value key

def var2vals (infos : Dict String (List Entry)) (group : List Sample) :
    Dict String (List Entry) :=
  Dict.collect (group.map fun sample => (sample.values infos).entries).flatten

theorem get?_var2vals {group : List Sample} (hgroup : group ≠ []) (key : String) :
    (var2vals infos group).get? key =
      if key ∈ infos.keys then some (group.map (Sample.value · key)) else none := by
  have hvalues : ∀ sample : Sample,
      ((sample.values infos).entries.filter fun entry => entry.1 = key).map Prod.snd =
        if key ∈ infos.keys then [sample.value key] else [] := by
    intro sample
    rw [Dict.filter_entries, Sample.values, Dict.get?_mapWithKey]
    split
    next hkey =>
      obtain ⟨values, hvalues⟩ :=
        Option.isSome_iff_exists.mp ((Dict.get?_isSome_iff _ _).mpr hkey)
      simp [hvalues]
    next hkey => simp [(Dict.get?_eq_none_iff _ _).mpr hkey]
  have hlists : ∀ others : List Sample,
      ((others.map fun sample => (sample.values infos).entries).flatten.filter
        fun entry => entry.1 = key).map Prod.snd =
          if key ∈ infos.keys then others.map (Sample.value · key) else [] := by
    intro others
    induction others with
    | nil => simp
    | cons sample others ih =>
        rw [List.map_cons, List.flatten_cons, List.filter_append, List.map_append, hvalues, ih]
        by_cases hkey : key ∈ infos.keys <;> simp [hkey]
  by_cases hkey : key ∈ infos.keys
  · rw [if_pos hkey, var2vals, Dict.get?_collect_of_ne_nil] <;> rw [hlists, if_pos hkey]
    simpa using hgroup
  · rw [if_neg hkey]
    exact Dict.get?_collect_of_eq_nil (by rw [hlists, if_neg hkey])

theorem sampleRow_eq (haligned : ∀ entry ∈ infos.entries,
      entry.2 = samples.map (Sample.value · entry.1)) {sample : Sample} {index : ℕ}
    (hsample : samples[index]? = some sample) :
    sampleRow (samples.map Sample.uid) infos (sample.dataSource, index) =
      .ok (sample.dataSource, sample.uid, (sample.values infos).entries) := by
  have huid : indexed (samples.map Sample.uid) index = .ok sample.uid := by
    simp [indexed, hsample]
  have hvalues : infos.entries.mapM (fun info => do
      return (info.1, ← indexed info.2 index) : _ → Except String (String × Entry)) =
        .ok (sample.values infos).entries := by
    rw [Sample.values, Dict.entries_mapWithKey]
    refine mapM_eq_ok_map fun entry hentry => ?_
    rw [haligned entry hentry]
    simp [indexed, hsample, bind, Except.bind, pure, Except.pure]
  rw [sampleRow]
  simp only [bind, Except.bind, huid] at hvalues ⊢
  rw [hvalues]
  rfl

/-- The loop over aligned lists reads the values of the samples. -/
theorem rows_eq (haligned : ∀ entry ∈ infos.entries,
      entry.2 = samples.map (Sample.value · entry.1)) :
    (samples.map Sample.dataSource).zipIdx.mapM (sampleRow (samples.map Sample.uid) infos) =
      .ok (samples.map fun sample =>
        (sample.dataSource, sample.uid, (sample.values infos).entries)) := by
  have hrows : samples.zipIdx.mapM (fun entry =>
      sampleRow (samples.map Sample.uid) infos (entry.1.dataSource, entry.2)) =
        .ok (samples.zipIdx.map fun entry =>
          (entry.1.dataSource, entry.1.uid, (entry.1.values infos).entries)) := by
    refine mapM_eq_ok_map fun entry hentry => sampleRow_eq haligned ?_
    exact List.mem_zipIdx_iff_getElem?.mp hentry
  have hfst : (samples.zipIdx.map fun entry =>
      (entry.1.dataSource, entry.1.uid, (entry.1.values infos).entries)) =
        samples.map fun sample =>
          (sample.dataSource, sample.uid, (sample.values infos).entries) := by
    conv_rhs => rw [← List.zipIdx_map_fst 0 samples, List.map_map]
    rfl
  rw [← hfst, ← hrows, List.zipIdx_map, List.mapM_map]
  rfl

theorem splitRows_eq :
    splitRows (samples.map fun sample =>
        (sample.dataSource, sample.uid, (sample.values infos).entries)) =
      (sourcesOf samples).map fun group =>
        (Dict.collect (group.map fun sample => (sample.uid, sample))).map (var2vals infos) := by
  have houter := Dict.collect_map (fun sample : Sample =>
    (sample.uid, (sample.values infos).entries))
      (samples.map fun sample => (sample.dataSource, sample))
  rw [List.map_map] at houter
  rw [splitRows]
  refine (congrArg (Dict.map _) houter).trans ?_
  apply Dict.ext
  simp only [sourcesOf, Dict.entries_map, List.map_map]
  refine List.map_congr_left fun entry _ => ?_
  have hinner := Dict.collect_map (fun sample : Sample => (sample.values infos).entries)
    (entry.2.map fun sample => (sample.uid, sample))
  rw [List.map_map] at hinner
  simp only [Function.comp_apply, Prod.mk.injEq, true_and]
  refine (congrArg (Dict.map _) hinner).trans ?_
  apply Dict.ext
  simp only [Dict.entries_map, List.map_map]
  refine List.map_congr_left fun group _ => ?_
  rfl

variable {numpy : Numpy}

theorem length_pred {group : List Sample} (hgroup : group ≠ []) {key : String}
    {values : List Entry} (hentry : (key, values) ∈ (var2vals infos group).entries) :
    ∀ preds ∈ (var2vals infos group).get? "pred", preds.length = values.length := by
  intro preds hpreds
  have hvalues := (Dict.get?_eq_some_iff _ _ _).mpr hentry
  rw [get?_var2vals hgroup] at hvalues
  rw [get?_var2vals hgroup] at hpreds
  split at hvalues
  next =>
    split at hpreds
    next =>
      rw [← Option.some.inj hvalues, ← Option.some.inj hpreds]
      simp
    next => exact absurd hpreds (by simp)
  next => exact absurd hvalues (by simp)

theorem mem_var2vals {group : List Sample} (hgroup : group ≠ []) {key : String}
    {values : List Entry} : (key, values) ∈ (var2vals infos group).entries ↔
      key ∈ infos.keys ∧ values = group.map (Sample.value · key) := by
  rw [← Dict.get?_eq_some_iff, get?_var2vals hgroup]
  by_cases hkey : key ∈ infos.keys <;> simp [hkey, eq_comm]

/-- A prompt has metrics when no key that starts with a number or a blank mixes entries. -/
theorem promptMetrics_isOk_iff {group : List Sample} (hgroup : group ≠ []) :
    (∃ metrics, promptMetrics numpy (var2vals infos group) = .ok metrics) ↔
      ∀ key ∈ infos.keys, ¬ Skipped (group.map (Sample.value · key)) →
        ∀ sample ∈ group, ∃ number, sample.value key = some (.num number) := by
  rw [promptMetrics, mapM_isOk_iff]
  have hentry : ∀ entry ∈ (var2vals infos group).entries.filter fun entry => ¬ Skipped entry.2,
      (∃ metric, (do return (entry.1, ← varMetric numpy entry.2
        ((var2vals infos group).get? "pred")) : Except String (String × Dict MetricName ℚ)) =
          .ok metric) ↔ ∀ value ∈ entry.2, ∃ number, value = some (.num number) := by
    intro entry hentry
    rw [← @varMetric_isOk_iff numpy _ _ (length_pred hgroup (List.mem_filter.mp hentry).1)]
    exact bind_pure_isOk_iff
  constructor
  · intro hok key hkey hskipped sample hsample
    have hmem : (key, group.map (Sample.value · key)) ∈
        (var2vals infos group).entries.filter fun entry => ¬ Skipped entry.2 :=
      List.mem_filter.mpr ⟨(mem_var2vals hgroup).mpr ⟨hkey, rfl⟩, by simpa using hskipped⟩
    exact (hentry _ hmem).mp (hok _ hmem) _ (List.mem_map_of_mem hsample)
  · rintro hnumbers ⟨key, values⟩ hmem
    refine (hentry _ hmem).mpr fun value hvalue => ?_
    obtain ⟨hlist, hskipped⟩ := List.mem_filter.mp hmem
    obtain ⟨hkey, rfl⟩ := (mem_var2vals hgroup).mp hlist
    obtain ⟨sample, hsample, rfl⟩ := List.mem_map.mp hvalue
    exact hnumbers key hkey (by simpa using hskipped) sample hsample

/-- The metrics of aligned lists, from the samples of each data source. -/
theorem processValidationMetrics_eq (haligned : ∀ entry ∈ infos.entries,
      entry.2 = samples.map (Sample.value · entry.1)) :
    processValidationMetrics numpy (samples.map Sample.dataSource) (samples.map Sample.uid)
        infos =
      (((sourcesOf samples).map fun group =>
        (Dict.collect (group.map fun sample => (sample.uid, sample))).map
          (var2vals infos)).entries.mapM (sourceMetrics numpy)).map
            fun metrics => aggregate metrics.flatten := by
  rw [processValidationMetrics, rows_eq haligned, ← splitRows_eq]
  simp only [bind, Except.bind]
  cases (splitRows _).entries.mapM (sourceMetrics numpy) <;> rfl

theorem sourceMetrics_isOk_iff {source : String × List Sample}
    (hsource : source ∈ (sourcesOf samples).entries) :
    (∃ metrics, sourceMetrics numpy (source.1,
        (Dict.collect (source.2.map fun sample => (sample.uid, sample))).map (var2vals infos)) =
          .ok metrics) ↔
      ∀ prompt ∈ (promptsOf samples source.1).entries,
        ∃ metrics, promptMetrics numpy (var2vals infos prompt.2) = .ok metrics := by
  rw [sourceMetrics, mem_sourcesOf hsource, ← promptsOf]
  refine bind_pure_isOk_iff.trans ?_
  rw [mapM_isOk_iff, Dict.entries_map]
  simp only [List.forall_mem_map]

/-- The metrics exist when no prompt mixes entries under a key that it does not skip. -/
theorem processValidationMetrics_isOk_iff (haligned : ∀ entry ∈ infos.entries,
      entry.2 = samples.map (Sample.value · entry.1)) :
    (∃ report, processValidationMetrics numpy (samples.map Sample.dataSource)
        (samples.map Sample.uid) infos = .ok report) ↔
      ∀ sample ∈ samples, ∀ key ∈ infos.keys,
        ¬ Skipped ((groupOf samples sample.dataSource sample.uid).map (Sample.value · key)) →
          ∀ member ∈ groupOf samples sample.dataSource sample.uid,
            ∃ number, member.value key = some (.num number) := by
  rw [processValidationMetrics_eq haligned, map_isOk_iff, mapM_isOk_iff, Dict.entries_map]
  simp only [List.forall_mem_map]
  constructor
  · intro hok sample hsample
    obtain ⟨source, hsource, hname, prompt, hprompt, _, hgroup⟩ := exists_prompt hsample
    rw [← hname] at hprompt
    have hmetrics := (sourceMetrics_isOk_iff hsource).mp (hok source hsource) prompt hprompt
    rw [promptMetrics_isOk_iff (mem_promptsOf hprompt).2, hgroup] at hmetrics
    exact hmetrics
  · intro hnumbers source hsource
    refine (sourceMetrics_isOk_iff hsource).mpr fun prompt hprompt => ?_
    obtain ⟨hgroup, hsome⟩ := mem_promptsOf hprompt
    rw [promptMetrics_isOk_iff hsome]
    obtain ⟨sample, hmember⟩ := List.exists_mem_of_ne_nil _ hsome
    rw [hgroup, groupOf, List.mem_filter] at hmember
    obtain ⟨hsample, hnames⟩ := hmember
    obtain ⟨hname, huid⟩ := of_decide_eq_true hnames
    rw [hgroup, ← hname, ← huid]
    exact hnumbers sample hsample

end Aligned

/-! ## Means of the samples -/

def number : Entry → Option ℚ
  | some (.num value) => some value
  | _ => none

def numbersOf (samples : List Sample) (key : String) : List ℚ :=
  samples.filterMap fun sample => number (sample.value key)

theorem asNumbers_eq {values : List Entry} {numbers : List ℚ}
    (hok : asNumbers values = .ok numbers) : numbers = values.filterMap number := by
  induction values generalizing numbers with
  | nil =>
      cases hok
      rfl
  | cons value values ih =>
      rw [asNumbers, List.mapM_cons] at hok
      obtain ⟨head, hhead, hok⟩ := bind_eq_ok.mp hok
      obtain ⟨tail, htail, hok⟩ := bind_eq_ok.mp hok
      cases hok
      cases value with
      | none => cases hhead
      | some info =>
          cases info with
          | str text => cases hhead
          | num value =>
              cases hhead
              rw [ih htail]
              rfl

/-- The value of a row of the averaging loop, if it is under the given names. -/
def pick (dataSource key : String) (name : MetricName)
    (row : String × String × MetricName × ℚ) : Option ℚ :=
  if row.1 = dataSource ∧ row.2.1 = key ∧ row.2.2.1 = name then some row.2.2.2 else none

theorem find_aggregate {rows : List (String × String × MetricName × ℚ)}
    {dataSource key : String} {name : MetricName}
    (hrows : rows.filterMap (pick dataSource key name) ≠ []) :
    (aggregate rows).find dataSource key name =
      some (npMean (rows.filterMap (pick dataSource key name))) := by
  have hnested : rows.filterMap (pick dataSource key name) =
      ((((((rows.filter fun row => row.1 = dataSource).map Prod.snd).filter
        fun row => row.1 = key).map Prod.snd).filter fun row => row.1 = name).map Prod.snd) := by
    clear hrows
    induction rows with
    | nil => rfl
    | cons row rows ih =>
        obtain ⟨source, var, metric, value⟩ := row
        rw [List.filterMap_cons, ih, pick]
        by_cases hsource : source = dataSource
        · by_cases hkey : var = key
          · by_cases hname : metric = name <;> simp [hsource, hkey, hname]
          · simp [hsource, hkey]
        · simp [hsource]
  rw [hnested] at hrows ⊢
  have hkeys : ((((rows.filter fun row => row.1 = dataSource).map Prod.snd).filter
      fun row => row.1 = key).map Prod.snd) ≠ [] := by
    intro hempty
    rw [hempty] at hrows
    exact hrows rfl
  have hsources : ((rows.filter fun row => row.1 = dataSource).map Prod.snd) ≠ [] := by
    intro hempty
    rw [hempty] at hkeys
    exact hkeys rfl
  simp [Report.find, aggregate, Dict.get?_map, Dict.get?_collect_of_ne_nil hsources,
    Dict.get?_collect_of_ne_nil hkeys, Dict.get?_collect_of_ne_nil hrows]

section Means

variable {samples : List Sample} {infos : Dict String (List Entry)} {numpy : Numpy}

/-- A prompt contributes the mean of a key under its number of samples. -/
theorem promptMetrics_mean {group : List Sample} (hgroup : group ≠ [])
    {metrics : List (String × Dict MetricName ℚ)}
    (hok : promptMetrics numpy (var2vals infos group) = .ok metrics) (key : String)
    (responses : ℕ) :
    (metrics.flatMap fun metric =>
        if metric.1 = key then (metric.2.get? (.mean responses)).toList else []) =
      if key ∈ infos.keys ∧ ¬ Skipped (group.map (Sample.value · key)) ∧
          responses = group.length then [npMean (numbersOf group key)]
      else [] := by
  let contribution : List Entry → List ℚ := fun values =>
    if ¬ Skipped values ∧ responses = values.length then [npMean (values.filterMap number)]
    else []
  have hentries : (metrics.flatMap fun metric =>
      if metric.1 = key then (metric.2.get? (.mean responses)).toList else []) =
        ((var2vals infos group).entries.filter fun entry => ¬ Skipped entry.2).flatMap
          fun entry => if entry.1 = key then contribution entry.2 else [] := by
    refine flatMap_eq_of_mapM (fun entry hentry metric hmetric => ?_) hok
    obtain ⟨found, hfound, hpair⟩ := bind_eq_ok.mp hmetric
    cases hpair
    by_cases hkey : entry.1 = key
    · have hskipped : ¬ Skipped entry.2 := by simpa using (List.mem_filter.mp hentry).2
      obtain ⟨values, hvalues, _⟩ := bind_eq_ok.mp hfound
      rw [if_pos hkey, if_pos hkey, get?_varMetric hvalues hfound, asNumbers_eq hvalues]
      by_cases hlength : responses = entry.2.length <;> simp [contribution, hskipped, hlength]
    · rw [if_neg hkey, if_neg hkey]
  have hfilter : (((var2vals infos group).entries.filter fun entry => ¬ Skipped entry.2).flatMap
      fun entry => if entry.1 = key then contribution entry.2 else []) =
        (var2vals infos group).entries.flatMap
          fun entry => if entry.1 = key then contribution entry.2 else [] := by
    induction (var2vals infos group).entries with
    | nil => rfl
    | cons entry entries ih =>
        by_cases hskipped : Skipped entry.2
        · simpa [hskipped, contribution] using ih
        · simpa [hskipped] using ih
  rw [hentries, hfilter, Dict.flatMap_entries_of_key, get?_var2vals hgroup]
  by_cases hkey : key ∈ infos.keys
  · simp [hkey, contribution, numbersOf, List.filterMap_map]
  · simp [hkey]

/-- A data source contributes the means of its prompts that have the number of samples. -/
theorem sourceMetrics_mean {source : String × List Sample}
    (hsource : source ∈ (sourcesOf samples).entries)
    {rows : List (String × String × MetricName × ℚ)}
    (hok : sourceMetrics numpy (source.1,
      (Dict.collect (source.2.map fun sample => (sample.uid, sample))).map (var2vals infos)) =
        .ok rows) (dataSource key : String) (responses : ℕ) :
    rows.filterMap (pick dataSource key (.mean responses)) =
      if source.1 = dataSource then
        (promptsOf samples source.1).entries.flatMap fun prompt =>
          if key ∈ infos.keys ∧ ¬ Skipped (prompt.2.map (Sample.value · key)) ∧
              responses = prompt.2.length then [npMean (numbersOf prompt.2 key)]
          else []
      else [] := by
  rw [sourceMetrics, mem_sourcesOf hsource, ← promptsOf, Dict.entries_map, List.mapM_map] at hok
  obtain ⟨metrics, hmetrics, hrows⟩ := bind_eq_ok.mp hok
  cases hrows
  have hpick : ∀ metric : String × Dict MetricName ℚ,
      (metric.2.entries.map fun entry => (source.1, metric.1, entry)).filterMap
        (pick dataSource key (.mean responses)) =
          if source.1 = dataSource then
            if metric.1 = key then (metric.2.get? (.mean responses)).toList else []
          else [] := by
    intro metric
    rw [← Dict.filter_entries]
    induction metric.2.entries with
    | nil => simp
    | cons entry entries ih =>
        rw [List.map_cons, List.filterMap_cons, ih]
        by_cases hname : source.1 = dataSource
        · by_cases hkey : metric.1 = key
          · by_cases hentry : entry.1 = .mean responses <;> simp [pick, hname, hkey, hentry]
          · simp [pick, hkey]
        · simp [pick, hname]
  rw [List.filterMap_flatMap]
  simp only [hpick]
  split
  next =>
    rw [List.flatten_eq_flatMap, List.flatMap_assoc]
    refine flatMap_eq_of_mapM (fun prompt hprompt found hfound => ?_) hmetrics
    exact promptMetrics_mean (mem_promptsOf hprompt).2 hfound key responses
  next => simp

/-- The rows that are averaged under the mean of a key. -/
theorem rows_mean {rows : List (List (String × String × MetricName × ℚ))}
    (hok : ((sourcesOf samples).map fun group =>
      (Dict.collect (group.map fun sample => (sample.uid, sample))).map
        (var2vals infos)).entries.mapM (sourceMetrics numpy) = .ok rows)
    {dataSource : String} (hsource : dataSource ∈ samples.map Sample.dataSource) (key : String)
    (responses : ℕ) :
    rows.flatten.filterMap (pick dataSource key (.mean responses)) =
      (promptsOf samples dataSource).entries.flatMap fun prompt =>
        if key ∈ infos.keys ∧ ¬ Skipped (prompt.2.map (Sample.value · key)) ∧
            responses = prompt.2.length then [npMean (numbersOf prompt.2 key)]
        else [] := by
  rw [Dict.entries_map, List.mapM_map] at hok
  have hrows := flatMap_eq_of_mapM (fun source hentry values hvalues =>
    sourceMetrics_mean hentry hvalues dataSource key responses) hok
  rw [List.flatten_eq_flatMap, List.filterMap_flatMap]
  refine hrows.trans ?_
  have hkey : dataSource ∈ (sourcesOf samples).keys := by
    rw [sourcesOf, Dict.mem_keys_collect, List.map_map]
    exact hsource
  obtain ⟨group, hgroup⟩ := Option.isSome_iff_exists.mp ((Dict.get?_isSome_iff _ _).mpr hkey)
  have hfound := Dict.flatMap_entries_of_key (sourcesOf samples) dataSource fun _ =>
    (promptsOf samples dataSource).entries.flatMap fun prompt =>
      if key ∈ infos.keys ∧ ¬ Skipped (prompt.2.map (Sample.value · key)) ∧
          responses = prompt.2.length then [npMean (numbersOf prompt.2 key)]
      else []
  rw [hgroup] at hfound
  refine Eq.trans ?_ (hfound.trans (by simp))
  refine List.flatMap_congr fun source _ => ?_
  split
  next hname => rw [hname]
  next => rfl

/-- The mean of the means of lists of one length is the mean of all. -/
theorem npMean_map_npMean {lists : List (List ℚ)} {length : ℕ} (hlength : 0 < length)
    (hlists : ∀ list ∈ lists, list.length = length) :
    npMean (lists.map npMean) = npMean lists.flatten := by
  have hsum : (lists.map npMean).sum * length = lists.flatten.sum := by
    induction lists with
    | nil => simp
    | cons list lists ih =>
        have hcast : (length : ℚ) ≠ 0 := by exact_mod_cast hlength.ne'
        rw [List.map_cons, List.sum_cons, add_mul, List.flatten_cons, List.sum_append,
          ih fun other hother => hlists other (List.mem_cons_of_mem _ hother), npMean,
          hlists list List.mem_cons_self, div_mul_cancel₀ _ hcast]
  have hcount : lists.flatten.length = lists.length * length := by
    rw [List.length_flatten, List.map_congr_left hlists]
    simp
  have hcast : (length : ℚ) ≠ 0 := by exact_mod_cast hlength.ne'
  rw [npMean, npMean, ← hsum, hcount, List.length_map, Nat.cast_mul, mul_div_mul_right _ _ hcast]

/-- The samples of a data source whose prompts have the given number of samples. -/
def sizedSamples (samples : List Sample) (dataSource : String) (responses : ℕ) : List Sample :=
  samples.filter fun sample => sample.dataSource = dataSource ∧
    (groupOf samples dataSource sample.uid).length = responses

/-- The prompts of one size hold the samples of that size. -/
theorem flatMap_prompts_perm (dataSource : String) (responses : ℕ) :
    (((promptsOf samples dataSource).entries.filter
      fun prompt => prompt.2.length = responses).flatMap Prod.snd).Perm
        (sizedSamples samples dataSource responses) := by
  have hall := Dict.flatMap_collect_perm
    ((samples.filter fun sample => sample.dataSource = dataSource).map
      fun sample => (sample.uid, sample))
  rw [List.map_map] at hall
  have hsized := (hall.filter fun sample =>
    (groupOf samples dataSource sample.uid).length = responses)
  rw [List.filter_flatMap] at hsized
  have hleft : ((promptsOf samples dataSource).entries.flatMap fun prompt =>
      prompt.2.filter fun sample =>
        (groupOf samples dataSource sample.uid).length = responses) =
      ((promptsOf samples dataSource).entries.filter
        fun prompt => prompt.2.length = responses).flatMap Prod.snd := by
    have hprompt : ∀ prompt ∈ (promptsOf samples dataSource).entries,
        (prompt.2.filter fun sample =>
          (groupOf samples dataSource sample.uid).length = responses) =
            if prompt.2.length = responses then prompt.2 else [] := by
      intro prompt hprompt
      have hmember : ∀ sample ∈ prompt.2,
          (groupOf samples dataSource sample.uid).length = prompt.2.length := by
        intro sample hsample
        have hgroup := (mem_promptsOf hprompt).1
        rw [hgroup, groupOf, List.mem_filter] at hsample
        rw [(of_decide_eq_true hsample.2).2, ← hgroup]
      split
      next hsize =>
        exact List.filter_eq_self.mpr fun sample hsample => by
          simpa using (hmember sample hsample).trans hsize
      next hsize =>
        exact List.filter_eq_nil_iff.mpr fun sample hsample => by
          simpa [hmember sample hsample] using hsize
    rw [List.flatMap_congr hprompt]
    induction (promptsOf samples dataSource).entries with
    | nil => rfl
    | cons prompt prompts ih =>
        by_cases hsize : prompt.2.length = responses <;> simp [hsize, ih]
  refine (List.Perm.of_eq hleft.symm).trans (hsized.trans (List.Perm.of_eq ?_))
  simp only [Function.comp_def, List.map_id', List.filter_filter, sizedSamples]
  exact List.filter_congr fun sample _ => by simp [Bool.and_comm]

/-- No sample reports a text under the key. -/
def Numeric (samples : List Sample) (key : String) : Prop :=
  ∀ sample ∈ samples, ∀ text, sample.value key ≠ some (.str text)

/-- A list that is not empty is skipped when it starts with a text. -/
theorem skipped_iff {values : List Entry} (hvalues : values ≠ []) :
    Skipped values ↔ ∃ text, values.head? = some (some (.str text)) := by
  match values with
  | [] => exact absurd rfl hvalues
  | some (.str text) :: _ => simp [Skipped]
  | some (.num _) :: _ => simp [Skipped]
  | none :: _ => simp [Skipped]

theorem not_skipped_of_numeric {key : String} (hnumeric : Numeric samples key)
    {dataSource : String} {prompt : String × List Sample}
    (hprompt : prompt ∈ (promptsOf samples dataSource).entries) :
    ¬ Skipped (prompt.2.map (Sample.value · key)) := by
  obtain ⟨hgroup, hsome⟩ := mem_promptsOf hprompt
  rw [skipped_iff (by simpa using hsome)]
  rintro ⟨text, hhead⟩
  have hmem := List.mem_of_mem_head? (Option.mem_def.mpr hhead)
  obtain ⟨sample, hsample, hvalue⟩ := List.mem_map.mp hmem
  rw [hgroup, groupOf] at hsample
  exact hnumeric sample (List.mem_filter.mp hsample).1 text hvalue

theorem length_numbersOf {group : List Sample} {key : String}
    (hnumbers : ∀ sample ∈ group, ∃ number, sample.value key = some (.num number)) :
    (numbersOf group key).length = group.length := by
  rw [numbersOf, List.length_filterMap_eq_countP, List.countP_eq_length]
  intro sample hsample
  obtain ⟨number, hnumber⟩ := hnumbers sample hsample
  simp [hnumber, Validation.number]

/-- The mean of a numeric key is reported over the samples of each prompt size. -/
theorem find_mean (haligned : ∀ entry ∈ infos.entries,
      entry.2 = samples.map (Sample.value · entry.1)) {report : Report}
    (hok : processValidationMetrics numpy (samples.map Sample.dataSource)
      (samples.map Sample.uid) infos = .ok report) {key : String} (hkey : key ∈ infos.keys)
    (hnumeric : Numeric samples key) {dataSource : String} {responses : ℕ}
    (hsome : numbersOf (sizedSamples samples dataSource responses) key ≠ []) :
    report.find dataSource key (.mean responses) =
      some (npMean (numbersOf (sizedSamples samples dataSource responses) key)) := by
  have hnumbers := (processValidationMetrics_isOk_iff haligned).mp ⟨report, hok⟩
  rw [processValidationMetrics_eq haligned, map_eq_ok] at hok
  obtain ⟨rows, hrows, rfl⟩ := hok
  obtain ⟨value, hvalue⟩ := List.exists_mem_of_ne_nil _ hsome
  obtain ⟨first, hfirst, _⟩ := List.mem_filterMap.mp hvalue
  obtain ⟨hfirst, hnames⟩ := List.mem_filter.mp hfirst
  obtain ⟨hsource, hsize⟩ := of_decide_eq_true hnames
  have hresponses : 0 < responses := by
    rw [← hsize]
    exact List.length_pos_of_mem (List.mem_filter.mpr ⟨hfirst, by simpa using hsource⟩)
  have hprompt : ∀ prompt ∈ (promptsOf samples dataSource).entries,
      ∀ sample ∈ prompt.2, ∃ number, sample.value key = some (.num number) := by
    intro prompt hprompt sample hsample
    have hgroup := (mem_promptsOf hprompt).1
    have hmember := hsample
    rw [hgroup, groupOf, List.mem_filter] at hmember
    obtain ⟨hname, huid⟩ := of_decide_eq_true hmember.2
    have hsame := hnumbers sample hmember.1 key hkey
    rw [hname, huid, ← hgroup] at hsame
    exact hsame (not_skipped_of_numeric hnumeric hprompt) sample hsample
  let lists := ((promptsOf samples dataSource).entries.filter
    fun prompt => prompt.2.length = responses).map fun prompt => numbersOf prompt.2 key
  have hpicked : rows.flatten.filterMap (pick dataSource key (.mean responses)) =
      lists.map npMean := by
    rw [rows_mean hrows (hsource ▸ List.mem_map_of_mem hfirst), List.map_map]
    have hskip := fun prompt hprompt =>
      @not_skipped_of_numeric samples key hnumeric dataSource prompt hprompt
    generalize (promptsOf samples dataSource).entries = prompts at hskip ⊢
    induction prompts with
    | nil => rfl
    | cons prompt prompts ih =>
        have hrest := ih fun other hother => hskip other (List.mem_cons_of_mem _ hother)
        have hhead := hskip prompt List.mem_cons_self
        rw [List.flatMap_cons, hrest]
        by_cases hlength : prompt.2.length = responses
        · simp [hkey, hhead, hlength]
        · simp [hlength, Ne.symm hlength]
  have hperm : lists.flatten.Perm (numbersOf (sizedSamples samples dataSource responses) key) := by
    have hflat := (@flatMap_prompts_perm samples dataSource responses).filterMap
      fun sample => number (sample.value key)
    rw [List.filterMap_flatMap] at hflat
    exact hflat
  have hmean : npMean (lists.map npMean) =
      npMean (numbersOf (sizedSamples samples dataSource responses) key) := by
    rw [npMean_map_npMean hresponses, npMean, npMean, hperm.sum_eq, hperm.length_eq]
    intro list hlist
    obtain ⟨prompt, hmem, rfl⟩ := List.mem_map.mp hlist
    obtain ⟨hmem, hlength⟩ := List.mem_filter.mp hmem
    rw [length_numbersOf (hprompt prompt hmem)]
    exact of_decide_eq_true hlength
  have hlists : lists ≠ [] := by
    intro hempty
    rw [hempty] at hperm
    exact hsome hperm.nil_eq.symm
  rw [find_aggregate (by rw [hpicked]; simpa using hlists), hpicked, hmean]

end Means

/-! ## A whole validation -/

variable {batches : List ValBatch}

/-- For each numeric key the report has the mean over the samples that reported it, under the
number of samples of their prompts. -/
def ReportsMeans (samples : List Sample) (report : Report) : Prop :=
  ∀ key, Numeric samples key → ∀ dataSource responses,
    numbersOf (sizedSamples samples dataSource responses) key ≠ [] →
      report.find dataSource key (.mean responses) =
        some (npMean (numbersOf (sizedSamples samples dataSource responses) key))

/-- The lists stay aligned, and their metrics are computed and right. -/
def ValidationCorrect (numpy : Numpy) (batches : List ValBatch) : Prop :=
  AlignedThroughout batches ∧ ∃ state report, collectBatches batches = .ok state ∧
    processValidationMetrics numpy state.dataSources state.sampleUids
      state.rewardExtraInfosDict = .ok report ∧ ReportsMeans (samplesOf batches) report

/-- Under a reported key the samples of a prompt start with a text or all have numbers. -/
def UniformPrompts (samples : List Sample) : Prop :=
  ∀ reporter ∈ samples, ∀ key ∈ reporter.rewardExtraInfo.keys, ∀ sample ∈ samples,
    (∃ text, ((groupOf samples sample.dataSource sample.uid).map (Sample.value · key)).head? =
      some (some (.str text))) ∨
    ∀ member ∈ groupOf samples sample.dataSource sample.uid,
      ∃ number, member.value key = some (.num number)

theorem mem_keys_infosOf (hreserved : NoReservedKey batches) (hsilent : SilentFirst batches)
    {key : String} : key ∈ (infosOf batches).keys ↔
      (key = "reward" ∧ "reward" ∈ (infosOf batches).keys) ∨
        ∃ sample ∈ samplesOf batches, key ∈ sample.rewardExtraInfo.keys := by
  by_cases hkey : key = "reward"
  · subst hkey
    refine ⟨fun hmem => .inl ⟨rfl, hmem⟩, ?_⟩
    rintro (⟨_, hmem⟩ | ⟨sample, hsample, hmem⟩)
    · exact hmem
    · exact absurd hmem (hreserved sample hsample)
  · rw [← Dict.get?_isSome_iff, get?_infosOf hreserved hsilent hkey, columnOf]
    split
    next hreported => simp [hreported]
    next hreported => simpa [hkey] using hreported

theorem reward_mem_infosOf (hreserved : NoReservedKey batches) (hsome : samplesOf batches ≠ []) :
    "reward" ∈ (infosOf batches).keys := by
  rw [← Dict.get?_isSome_iff]
  have hcolumn := getD_infosOf_reward hreserved
  cases hget : (infosOf batches).get? "reward" with
  | some values => rfl
  | none =>
      rw [Dict.getD, hget] at hcolumn
      exact absurd (List.map_eq_nil_iff.mp hcolumn.symm) hsome

/-- A sample with a number under a key has a list under it. -/
theorem mem_keys_of_number (hreserved : NoReservedKey batches) (hsilent : SilentFirst batches)
    {sample : Sample} (hsample : sample ∈ samplesOf batches) {key : String} {value : ℚ}
    (hvalue : number (sample.value key) = some value) : key ∈ (infosOf batches).keys := by
  by_cases hkey : key = "reward"
  · subst hkey
    exact reward_mem_infosOf hreserved (List.ne_nil_of_mem hsample)
  · refine (mem_keys_infosOf hreserved hsilent).mpr (.inr ⟨sample, hsample, ?_⟩)
    rw [Sample.value, if_neg hkey] at hvalue
    rw [← Dict.get?_isSome_iff]
    cases hget : sample.rewardExtraInfo.get? key with
    | some info => rfl
    | none =>
        rw [hget] at hvalue
        exact absurd hvalue (by simp [number])

/-- The metrics of aligned lists exist exactly when the prompts are uniform. -/
theorem metrics_isOk_iff {numpy : Numpy} (hreserved : NoReservedKey batches)
    (hsilent : SilentFirst batches)
    (haligned : ∀ entry ∈ (infosOf batches).entries,
      entry.2 = (samplesOf batches).map (Sample.value · entry.1)) :
    (∃ report, processValidationMetrics numpy ((samplesOf batches).map Sample.dataSource)
        ((samplesOf batches).map Sample.uid) (infosOf batches) = .ok report) ↔
      UniformPrompts (samplesOf batches) := by
  rw [processValidationMetrics_isOk_iff haligned]
  have hgroup : ∀ sample ∈ samplesOf batches, ∀ key,
      (groupOf (samplesOf batches) sample.dataSource sample.uid).map (Sample.value · key) ≠ [] := by
    intro sample hsample key
    rw [ne_eq, List.map_eq_nil_iff]
    exact List.ne_nil_of_mem (List.mem_filter.mpr ⟨hsample, by simp⟩)
  constructor
  · intro hnumbers reporter hreporter key hkey sample hsample
    by_cases hskipped : Skipped
        ((groupOf (samplesOf batches) sample.dataSource sample.uid).map (Sample.value · key))
    · exact .inl ((skipped_iff (hgroup sample hsample key)).mp hskipped)
    · exact .inr (hnumbers sample hsample key
        ((mem_keys_infosOf hreserved hsilent).mpr (.inr ⟨reporter, hreporter, hkey⟩)) hskipped)
  · intro huniform sample hsample key hkey hskipped member hmember
    rcases (mem_keys_infosOf hreserved hsilent).mp hkey with ⟨rfl, _⟩ | hreported
    · exact ⟨member.score, by simp [Sample.value]⟩
    · obtain ⟨reporter, hreporter, hmem⟩ := hreported
      rcases huniform reporter hreporter key hmem sample hsample with htext | hnumbers
      · exact absurd ((skipped_iff (hgroup sample hsample key)).mpr htext) hskipped
      · exact hnumbers member hmember

/-- A validation is right exactly when no sample reports the reserved key, batches without
extra fields come before all reports, and no prompt mixes entries under a reported key. -/
theorem validationCorrect_iff (numpy : Numpy) (batches : List ValBatch) :
    ValidationCorrect numpy batches ↔
      NoReservedKey batches ∧ SilentFirst batches ∧ UniformPrompts (samplesOf batches) := by
  rw [ValidationCorrect, alignedThroughout_iff, and_assoc]
  refine and_congr_right fun hreserved => and_congr_right fun hsilent => ?_
  obtain ⟨state, hok, hinfos, haligned⟩ := aligned_of_clean hreserved hsilent
  have hcolumns : ∀ entry ∈ (infosOf batches).entries,
      entry.2 = (samplesOf batches).map (Sample.value · entry.1) := by
    rw [← hinfos]
    exact haligned.columns
  rw [← @metrics_isOk_iff _ numpy hreserved hsilent hcolumns]
  constructor
  · rintro ⟨other, report, hother, hreport, _⟩
    rw [hok, Except.ok.injEq] at hother
    subst hother
    rw [haligned.dataSources, haligned.sampleUids, hinfos] at hreport
    exact ⟨report, hreport⟩
  · rintro ⟨report, hreport⟩
    refine ⟨state, report, hok, ?_, ?_⟩
    · rw [haligned.dataSources, haligned.sampleUids, hinfos, hreport]
    · intro key hnumeric dataSource responses hsome
      obtain ⟨value, hvalue⟩ := List.exists_mem_of_ne_nil _ hsome
      obtain ⟨sample, hsample, hnumber⟩ := List.mem_filterMap.mp hvalue
      exact find_mean hcolumns hreport
        (mem_keys_of_number hreserved hsilent (List.mem_filter.mp hsample).1 hnumber) hnumeric
        hsome

/-! ## Two domains in one batch -/

/-- Draws that always take the first sample. -/
def firstDraws : Numpy where
  std := fun _ => 0
  choice := fun nData subsetSize =>
    if hdata : 0 < nData then List.replicate 1000 (List.replicate subsetSize ⟨0, hdata⟩) else []
  length_choice := by
    intro nData subsetSize row hrow
    split at hrow
    next => rw [List.eq_of_mem_replicate hrow, List.length_replicate]
    next => exact absurd hrow List.not_mem_nil

/-- A mathematics sample with an accuracy and a code sample without one. -/
def mixedBatch : ValBatch where
  rows := [("p_0_0", ⟨"p", [1], "math", .dict (some (Dict.ofList [("acc", .num 1)]))⟩),
    ("q_0_0", ⟨"q", [0], "code", .dict none⟩)]
  hasDataSource := true
  hasExtraFields := true
  parsed := by
    intro row hrow
    simp only [List.mem_cons, List.not_mem_nil, or_false] at hrow
    rcases hrow with rfl | rfl
    · exact ⟨some ("p_0", 0), by decide +kernel⟩
    · exact ⟨some ("q_0", 0), by decide +kernel⟩

theorem positions_mixedBatch : mixedBatch.positions = [0, 1] := by
  have hsessions : (mixedBatch.keys.zipIdx.foldlM updateSessionMax Dict.empty).toOption.map
      Dict.entries = some [("p_0", 0, 0), ("q_0", 0, 1)] := by decide +kernel
  cases hfold : mixedBatch.keys.zipIdx.foldlM updateSessionMax Dict.empty with
  | error message =>
      rw [hfold] at hsessions
      exact absurd hsessions (by simp [Except.toOption])
  | ok sessionMax =>
      rw [hfold] at hsessions
      have hentries : sessionMax.entries = [("p_0", 0, 0), ("q_0", 0, 1)] :=
        Option.some.inj hsessions
      rw [ValBatch.positions, finalIndices, hfold]
      change (List.map _ (sessionMax.entries.mergeSort _)) = _
      rw [hentries, List.mergeSort_of_pairwise (by decide)]
      rfl

/-- The blank that fills the accuracy of the code sample cannot be averaged. -/
theorem mixedBatch_fails : ¬ ValidationCorrect firstDraws [mixedBatch] := by
  rintro ⟨haligned, state, report, hstate, hreport, _⟩
  obtain ⟨hreserved, hsilent⟩ := (alignedThroughout_iff _).mp haligned
  obtain ⟨other, hother, hinfos, halign⟩ := aligned_of_clean hreserved hsilent
  rw [hother, Except.ok.injEq] at hstate
  subst hstate
  rw [halign.dataSources, halign.sampleUids, hinfos] at hreport
  have huniform := (metrics_isOk_iff hreserved hsilent (hinfos ▸ halign.columns)).mp
    ⟨report, hreport⟩
  let math : Sample := ⟨"p", "math", 1, Dict.ofList [("acc", .num 1)]⟩
  let code : Sample := ⟨"q", "code", 0, Dict.empty⟩
  have hsamples : samplesOf [mixedBatch] = [math, code] := by
    rw [samplesOf, List.flatMap_singleton, ValBatch.samples, ValBatch.finalRows,
      positions_mixedBatch]
    simp [mixedBatch, ValBatch.sample, ExtraField.rewardExtraInfo, math, code]
  rw [hsamples] at huniform
  have hcode := huniform math (by simp) "acc" (by decide) code (by simp)
  have hgroup : groupOf [math, code] code.dataSource code.uid = [code] := by
    simp [groupOf, math, code]
  have hvalue : code.value "acc" = none := by decide
  rw [hgroup] at hcode
  rcases hcode with ⟨text, htext⟩ | hnumbers
  · simp [hvalue] at htext
  · obtain ⟨number, hnumber⟩ := hnumbers code (by simp)
    simp [hvalue] at hnumber

end OneShotOPD.Validation
