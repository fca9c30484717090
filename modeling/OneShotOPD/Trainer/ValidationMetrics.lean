import OneShotOPD.Trainer.Validation
import Mathlib.Data.List.MinMax

/-!
# Metrics over the collected lists

The collected lists are split by data source, prompt and key.  Each split gets a mean and, from
two responses on, a deviation and bootstrap estimates; the values of the prompts of a data
source are averaged under the name of the metric, which carries the number of responses.
-/

namespace OneShotOPD.Validation

open Checks

/-- Names such as `mean@4` and `best@2/std`. -/
inductive MetricName
  | mean (responses : ℕ)
  | std (responses : ℕ)
  | bestMean (responses : ℕ)
  | bestStd (responses : ℕ)
  | worstMean (responses : ℕ)
  | worstStd (responses : ℕ)
  | majMean (responses : ℕ)
  | majStd (responses : ℕ)
  deriving DecidableEq

/-- What the metrics take from numpy: the deviation, and the index rows that
`np.random.choice(n_data, size=(n_bootstrap, subset_size))` draws after the seed is set. -/
structure Numpy where
  std : List ℚ → ℚ
  choice : (nData subsetSize : ℕ) → List (List (Fin nData))
  length_choice : ∀ nData subsetSize, ∀ row ∈ choice nData subsetSize, row.length = subsetSize

def npMean (values : List ℚ) : ℚ := values.sum / values.length

def npMax : List ℚ → Except String ℚ
  | [] => .error "ValueError: zero-size array to reduction operation maximum which has no identity"
  | value :: values => .ok (values.foldl max value)

def npMin : List ℚ → Except String ℚ
  | [] => .error "ValueError: zero-size array to reduction operation minimum which has no identity"
  | value :: values => .ok (values.foldl min value)

/-- The numbers of a list, which `np.mean` needs all entries to be. -/
def asNumbers (values : List Entry) : Except String (List ℚ) :=
  values.mapM fun
    | some (.num value) => .ok value
    | some (.str _) => .error "TypeError: unsupported operand type(s) for +"
    | none => .error "TypeError: unsupported operand type(s) for +: 'NoneType'"

variable (numpy : Numpy)

/-- `bootstrap_metric` for one reduction. -/
def bootstrapMetric {α : Type} (data : List α) (subsetSize : ℕ)
    (reduceFn : List α → Except String ℚ) : Except String (ℚ × ℚ) := do
  let metricResults ← (numpy.choice data.length subsetSize).mapM fun idxs =>
    reduceFn (idxs.map data.get)
  return (npMean metricResults, numpy.std metricResults)

/-- `calc_maj_val`, on pairs of a vote and a value. -/
def calcMajVal (data : List (Entry × ℚ)) : Except String ℚ :=
  let vote2vals := Dict.collect data
  match vote2vals.entries.argmax fun entry => entry.2.length with
  | none => .error "ValueError: max() arg is an empty sequence"
  | some majVote =>
      match majVote.2 with
      | [] => .error "IndexError: list index out of range"
      | value :: _ => .ok value

/-- `gen_ns`: the powers of two below the number of responses, and that number. -/
def genNs (nResps : ℕ) : List ℕ :=
  if nResps ≤ 1 then []
  else (((List.range nResps).map fun exponent => 2 ^ (exponent + 1)).takeWhile (· < nResps)) ++
    [nResps]

/-- `zip(var_vals, pred_vals, strict=True)`, with the prediction as the vote. -/
def voteData (varVals : List ℚ) (predVals : List Entry) : Except String (List (Entry × ℚ)) :=
  if varVals.length = predVals.length then .ok (predVals.zip varVals)
  else .error "ValueError: zip() arguments have different lengths"

/-- The bootstrap metrics of one subset size. -/
def subsetMetrics (varVals : List ℚ) (predVals : Option (List Entry)) (n : ℕ) :
    Except String (List (MetricName × ℚ)) := do
  let (bonMean, bonStd) ← bootstrapMetric numpy varVals n npMax
  let (wonMean, wonStd) ← bootstrapMetric numpy varVals n npMin
  let metric := [(.bestMean n, bonMean), (.bestStd n, bonStd), (.worstMean n, wonMean),
    (.worstStd n, wonStd)]
  match predVals with
  | none => return metric
  | some predVals => do
      let votes ← voteData varVals predVals
      let (majNMean, majNStd) ← bootstrapMetric numpy votes n calcMajVal
      return metric ++ [(.majMean n, majNMean), (.majStd n, majNStd)]

/-- The metrics of one key in one prompt. -/
def varMetric (varVals : List Entry) (predVals : Option (List Entry)) :
    Except String (Dict MetricName ℚ) := do
  let values ← asNumbers varVals
  let nResps := varVals.length
  if nResps > 1 then
    let subsets ← (genNs nResps).mapM (subsetMetrics numpy values predVals)
    return Dict.ofList
      ((.mean nResps, npMean values) :: (.std nResps, numpy.std values) :: subsets.flatten)
  else return Dict.ofList [(.mean nResps, npMean values)]

/-- `not var_vals or isinstance(var_vals[0], str)`. -/
def Skipped (varVals : List Entry) : Prop :=
  match varVals with
  | [] => True
  | some (.str _) :: _ => True
  | _ => False

instance (varVals : List Entry) : Decidable (Skipped varVals) := by
  unfold Skipped
  split <;> infer_instance

/-- The metrics of the keys of one prompt. -/
def promptMetrics (var2vals : Dict String (List Entry)) :
    Except String (List (String × Dict MetricName ℚ)) :=
  (var2vals.entries.filter fun entry => ¬ Skipped entry.2).mapM fun entry => do
    return (entry.1, ← varMetric numpy entry.2 (var2vals.get? "pred"))

/-! ## Splitting the lists -/

def indexed {α : Type} (values : List α) (index : ℕ) : Except String α :=
  match values[index]? with
  | some value => .ok value
  | none => .error "IndexError: list index out of range"

/-- What one round of the splitting loop reads. -/
def sampleRow (sampleUids : List String) (infosDict : Dict String (List Entry))
    (entry : String × ℕ) : Except String (String × String × List (String × Entry)) := do
  let uid ← indexed sampleUids entry.2
  let values ← infosDict.entries.mapM fun info => do return (info.1, ← indexed info.2 entry.2)
  return (entry.1, uid, values)

/-- `data_src2uid2var2vals`. -/
def splitRows (rows : List (String × String × List (String × Entry))) :
    Dict String (Dict String (Dict String (List Entry))) :=
  (Dict.collect rows).map fun rows =>
    (Dict.collect rows).map fun values => Dict.collect values.flatten

/-- The metrics of one data source, each with the key and the metric it belongs to. -/
def sourceMetrics (source : String × Dict String (Dict String (List Entry))) :
    Except String (List (String × String × MetricName × ℚ)) := do
  let metrics ← source.2.entries.mapM fun prompt => promptMetrics numpy prompt.2
  return metrics.flatten.flatMap fun metric =>
    metric.2.entries.map fun entry => (source.1, metric.1, entry)

abbrev Report := Dict String (Dict String (Dict MetricName ℚ))

/-- The averages over the prompts. -/
def aggregate (values : List (String × String × MetricName × ℚ)) : Report :=
  (Dict.collect values).map fun values =>
    (Dict.collect values).map fun values => (Dict.collect values).map npMean

/-- `process_validation_metrics`. -/
def processValidationMetrics (dataSources sampleUids : List String)
    (infosDict : Dict String (List Entry)) : Except String Report := do
  let rows ← dataSources.zipIdx.mapM (sampleRow sampleUids infosDict)
  let metrics ← (splitRows rows).entries.mapM (sourceMetrics numpy)
  return aggregate metrics.flatten

/-- The value that a report has under a data source, a key and a metric. -/
def Report.find (report : Report) (dataSource key : String) (name : MetricName) : Option ℚ := do
  ((← (← report.get? dataSource).get? key).get? name)

/-! ## Metrics of one key -/

variable {numpy}

theorem asNumbers_isOk_iff {values : List Entry} :
    (∃ numbers, asNumbers values = .ok numbers) ↔
      ∀ value ∈ values, ∃ number, value = some (.num number) := by
  constructor
  · rintro ⟨numbers, hok⟩ value hvalue
    obtain ⟨number, hnumber⟩ := eq_ok_of_mapM hok hvalue
    match value, hnumber with
    | some (.num value), _ => exact ⟨value, rfl⟩
  · intro hnumbers
    refine exists_mapM_eq_ok fun value hvalue => ?_
    obtain ⟨number, rfl⟩ := hnumbers value hvalue
    exact ⟨number, rfl⟩

theorem bootstrapMetric_isOk {α : Type} {data : List α} {subsetSize : ℕ}
    {reduceFn : List α → Except String ℚ} (hsize : 0 < subsetSize)
    (hreduce : ∀ sample, sample ≠ [] → ∃ value, reduceFn sample = .ok value) :
    ∃ result, bootstrapMetric numpy data subsetSize reduceFn = .ok result := by
  have hresults : ∃ results, (numpy.choice data.length subsetSize).mapM
      (fun idxs => reduceFn (idxs.map data.get)) = .ok results := by
    refine exists_mapM_eq_ok fun idxs hidxs => hreduce _ fun hempty => ?_
    have hlength := numpy.length_choice _ _ idxs hidxs
    rw [List.map_eq_nil_iff] at hempty
    rw [hempty, List.length_nil] at hlength
    omega
  obtain ⟨results, hresults⟩ := hresults
  exact ⟨_, by rw [bootstrapMetric, hresults]; rfl⟩

theorem npMax_isOk {sample : List ℚ} (hsample : sample ≠ []) :
    ∃ value, npMax sample = .ok value := by
  cases sample with
  | nil => exact absurd rfl hsample
  | cons value values => exact ⟨_, rfl⟩

theorem npMin_isOk {sample : List ℚ} (hsample : sample ≠ []) :
    ∃ value, npMin sample = .ok value := by
  cases sample with
  | nil => exact absurd rfl hsample
  | cons value values => exact ⟨_, rfl⟩

theorem calcMajVal_isOk {data : List (Entry × ℚ)} (hdata : data ≠ []) :
    ∃ value, calcMajVal data = .ok value := by
  rw [calcMajVal]
  cases hmax : (Dict.collect data).entries.argmax fun entry => entry.2.length with
  | none =>
      obtain ⟨pair, hpair⟩ := List.exists_mem_of_ne_nil _ hdata
      have hkey := (Dict.mem_keys_collect data pair.1).mpr (List.mem_map_of_mem hpair)
      rw [Dict.keys, List.argmax_eq_none.mp hmax] at hkey
      exact absurd hkey List.not_mem_nil
  | some majVote =>
      obtain ⟨vote, values⟩ := majVote
      have hget := (Dict.get?_eq_some_iff _ _ _).mpr (List.argmax_mem hmax)
      rw [Dict.get?_collect] at hget
      split at hget
      next hvote =>
        obtain ⟨pair, hpair, hkey⟩ := List.mem_map.mp hvote
        cases values with
        | nil =>
            have hempty := Option.some.inj hget
            rw [List.map_eq_nil_iff, List.filter_eq_nil_iff] at hempty
            exact absurd (hempty pair hpair) (by simpa using hkey)
        | cons value values => exact ⟨value, rfl⟩
      next => exact absurd hget (by simp)

theorem pos_of_mem_genNs {nResps n : ℕ} (hn : n ∈ genNs nResps) : 0 < n := by
  rw [genNs] at hn
  split at hn
  next => exact absurd hn List.not_mem_nil
  next hmany =>
    rcases List.mem_append.mp hn with hpower | hlast
    · obtain ⟨exponent, _, rfl⟩ := List.mem_map.mp (List.takeWhile_subset _ hpower)
      exact Nat.two_pow_pos _
    · rw [List.mem_singleton.mp hlast]
      omega

theorem subsetMetrics_isOk {varVals : List ℚ} {predVals : Option (List Entry)} {n : ℕ}
    (hn : 0 < n) (hpred : ∀ preds ∈ predVals, preds.length = varVals.length) :
    ∃ metric, subsetMetrics numpy varVals predVals n = .ok metric := by
  obtain ⟨best, hbest⟩ := @bootstrapMetric_isOk numpy _ varVals n npMax hn fun _ => npMax_isOk
  obtain ⟨worst, hworst⟩ := @bootstrapMetric_isOk numpy _ varVals n npMin hn fun _ => npMin_isOk
  rw [subsetMetrics, hbest, hworst]
  cases predVals with
  | none => exact ⟨_, rfl⟩
  | some preds =>
      have hlength := (hpred preds rfl).symm
      obtain ⟨maj, hmaj⟩ := @bootstrapMetric_isOk numpy _ (preds.zip varVals) n calcMajVal hn
        fun _ => calcMajVal_isOk
      have hvotes : voteData varVals preds = .ok (preds.zip varVals) := if_pos hlength
      simp only [bind, Except.bind, hvotes, hmaj]
      exact ⟨_, rfl⟩

/-- No bootstrap metric has the name of a mean. -/
theorem mean_not_mem_subsetMetrics {varVals : List ℚ} {predVals : Option (List Entry)} {n : ℕ}
    {metric : List (MetricName × ℚ)} (hok : subsetMetrics numpy varVals predVals n = .ok metric)
    (responses : ℕ) : MetricName.mean responses ∉ metric.map Prod.fst := by
  rw [subsetMetrics] at hok
  obtain ⟨best, _, hok⟩ := bind_eq_ok.mp hok
  obtain ⟨worst, _, hok⟩ := bind_eq_ok.mp hok
  cases predVals with
  | none =>
      cases hok
      simp
  | some preds =>
      obtain ⟨votes, _, hok⟩ := bind_eq_ok.mp hok
      obtain ⟨maj, _, hok⟩ := bind_eq_ok.mp hok
      cases hok
      simp

/-- The metrics of a key exist when its values are numbers. -/
theorem varMetric_isOk_iff {varVals : List Entry} {predVals : Option (List Entry)}
    (hpred : ∀ preds ∈ predVals, preds.length = varVals.length) :
    (∃ metric, varMetric numpy varVals predVals = .ok metric) ↔
      ∀ value ∈ varVals, ∃ number, value = some (.num number) := by
  rw [← asNumbers_isOk_iff]
  constructor
  · rintro ⟨metric, hok⟩
    obtain ⟨values, hvalues, _⟩ := bind_eq_ok.mp hok
    exact ⟨values, hvalues⟩
  · rintro ⟨values, hvalues⟩
    rw [varMetric, hvalues]
    have hlength : values.length = varVals.length := length_of_mapM hvalues
    by_cases hmany : varVals.length > 1
    · have hsubsets : ∃ subsets, (genNs varVals.length).mapM
          (subsetMetrics numpy values predVals) = .ok subsets :=
        exists_mapM_eq_ok fun n hn => subsetMetrics_isOk (pos_of_mem_genNs hn)
          fun preds hpreds => (hpred preds hpreds).trans hlength.symm
      obtain ⟨subsets, hsubsets⟩ := hsubsets
      simp only [bind, Except.bind, hmany, if_true, hsubsets]
      exact ⟨_, rfl⟩
    · simp only [bind, Except.bind, hmany, if_false]
      exact ⟨_, rfl⟩

/-- Among the means of a key there is only the one under the number of its values. -/
theorem get?_varMetric {varVals : List Entry} {predVals : Option (List Entry)}
    {metric : Dict MetricName ℚ} {values : List ℚ} (hvalues : asNumbers varVals = .ok values)
    (hok : varMetric numpy varVals predVals = .ok metric) (responses : ℕ) :
    metric.get? (.mean responses) =
      if responses = varVals.length then some (npMean values) else none := by
  have hothers : ∀ others : List (MetricName × ℚ),
      (∀ responses, MetricName.mean responses ∉ others.map Prod.fst) →
      (Dict.ofList ((.mean varVals.length, npMean values) :: others)).get? (.mean responses) =
        if responses = varVals.length then some (npMean values) else none := by
    intro others hothers
    split
    next heq =>
      subst heq
      exact Dict.get?_ofList_cons (hothers _)
    next hne =>
      rw [Dict.get?_eq_none_iff, Dict.mem_keys_ofList, List.map_cons, List.mem_cons, not_or]
      exact ⟨by simpa using hne, hothers _⟩
  rw [varMetric, hvalues] at hok
  obtain ⟨_, hsame, hok⟩ := bind_eq_ok.mp hok
  cases hsame
  dsimp only at hok
  split at hok
  next =>
    obtain ⟨subsets, hsubsets, hok⟩ := bind_eq_ok.mp hok
    cases hok
    refine hothers _ fun responses hmem => ?_
    rw [List.map_cons, List.mem_cons, List.map_flatten, List.mem_flatten] at hmem
    rcases hmem with heq | ⟨names, hnames, hmem⟩
    · exact MetricName.noConfusion heq
    · obtain ⟨subset, hsubset, rfl⟩ := List.mem_map.mp hnames
      obtain ⟨n, _, hsubsetOk⟩ := exists_of_mem_mapM hsubsets hsubset
      exact mean_not_mem_subsetMetrics hsubsetOk _ hmem
  next =>
    cases hok
    exact hothers [] fun _ => List.not_mem_nil

end OneShotOPD.Validation
