import OneShotOPD.Core.Dict
import OneShotOPD.Core.Rounding
import Mathlib

/-!
# Metrics of evictions

Each poll that evicts groups reports how many, how stale they were and which rewards the
filtered ones shared.  The reports of one call of `sample` are merged into one, which is the
report of all evictions at once, up to the rounding of the mean.
-/

namespace OneShotOPD.ReplayBuffer

open Rounding

variable {Uid R : Type} [DecidableEq Uid] [DecidableEq R]

section Source

-- How the result of an operation on floats is rounded.  Counts, spans and their sums are
-- integers that floats hold exactly.
variable (round : ℚ → ℚ)

/-- `key.endswith(suffix)`. -/
def endsWith (key suffix : String) : Bool := suffix.toList.isSuffixOf key.toList

def metricsPrefix (partitionId : String) : String :=
  if partitionId = "train" then "training" else "validation"

/-- A dictionary of metrics.  The value under `_dapo_filtered_reward_counts` is the only one
that is not a number. -/
structure Metrics (R : Type) where
  scalars : Dict String ℚ
  filteredRewardCounts : Option (Dict R ℕ)

def Metrics.empty : Metrics R := ⟨.empty, none⟩

/-- `Counter(values)`. -/
def counter (values : List R) : Dict R ℕ :=
  values.foldl (fun counts value => counts.insert value (counts.getD value 0 + 1)) .empty

/-! ## Accumulating -/

/-- The new value of one scalar. -/
def mergeScalar (prevStaleTotal : ℚ) (staleCount : ℕ) (key : String) (old : Option ℚ) (value : ℚ) :
    ℚ :=
  if endsWith key "/evicted_samples_staleness/mean" then
    let denom := prevStaleTotal + staleCount
    if denom ≠ 0 then
      round (round (round (old.getD 0 * prevStaleTotal) + round (value * staleCount)) / denom)
    else value
  else if endsWith key "/evicted_samples_staleness/max" then max (old.getD value) value
  else if endsWith key "/evicted_samples_staleness/min" then min (old.getD value) value
  else old.getD 0 + value

/-- `Counter(acc).update(new)`. -/
def mergeCounts (acc new : Dict R ℕ) : Dict R ℕ :=
  new.entries.foldl (fun counts entry =>
    counts.insert entry.1 (counts.getD entry.1 0 + entry.2)) acc

/-- The stale samples that `acc` counts, under the key that `new` counts them. -/
def prevStaleTotal (acc new : Metrics R) : ℚ :=
  match new.scalars.keys.find? fun key => endsWith key "/off_policy/evicted_samples" with
  | some key => acc.scalars.getD key 0
  | none => 0

/-- `_accumulate_eviction_metrics`. -/
def accumulateEvictionMetrics (acc new : Metrics R) (staleCount : ℕ) : Metrics R where
  scalars := new.scalars.entries.foldl (fun scalars entry => scalars.insert entry.1
    (mergeScalar round (prevStaleTotal acc new) staleCount entry.1 (scalars.get? entry.1) entry.2))
      acc.scalars
  filteredRewardCounts :=
    match new.filteredRewardCounts with
    | some counts => some (mergeCounts (acc.filteredRewardCounts.getD .empty) counts)
    | none => acc.filteredRewardCounts

/-! ## The report of some evictions -/

/-- What the report reads of the evicted groups: the spans of the stale ones, the shared rewards
of the filtered ones and the number of failed ones. -/
structure Evictions (R : Type) where
  spans : List ℤ
  rewards : List R
  failed : ℕ

def Evictions.nothing : Evictions R := ⟨[], [], 0⟩

def Evictions.append (first second : Evictions R) : Evictions R :=
  ⟨first.spans ++ second.spans, first.rewards ++ second.rewards, first.failed + second.failed⟩

/-- `spans.mean()`. -/
def mean (spans : List ℤ) : ℚ := round ((spans.map (Int.cast : ℤ → ℚ)).sum / spans.length)

/-- The metrics that `_evict_terminal_groups` reports. -/
def evictionMetrics (scope : String) (evictions : Evictions R) : Metrics R where
  scalars := Dict.ofList (
    (if evictions.spans = [] then []
    else
      [(scope ++ "/off_policy/evicted_samples", (evictions.spans.length : ℚ)),
        (scope ++ "/off_policy/evicted_samples_staleness/mean", mean round evictions.spans),
        (scope ++ "/off_policy/evicted_samples_staleness/max",
          ((evictions.spans.max?.getD 0 : ℤ) : ℚ)),
        (scope ++ "/off_policy/evicted_samples_staleness/min",
          ((evictions.spans.min?.getD 0 : ℤ) : ℚ))]) ++
    (if evictions.rewards = [] then []
    else [(scope ++ "/filter_groups/evicted_samples", (evictions.rewards.length : ℚ))]) ++
    (if evictions.failed = 0 then []
    else [(scope ++ "/rollout_failure/evicted_samples", (evictions.failed : ℚ))]))
  filteredRewardCounts :=
    if evictions.rewards = [] then none else some (counter evictions.rewards)

/-- What a poll finds to evict.  The sets are lists in the order in which they are iterated. -/
structure Poll (Uid R : Type) where
  globalSteps : ℤ
  promptGlobalSteps : Dict Uid ℤ
  staleUids : List Uid
  filteredRewards : List (Uid × R)
  failedUids : List Uid

def Poll.evictions (poll : Poll Uid R) : Evictions R where
  spans := poll.staleUids.map fun uid =>
    poll.globalSteps - poll.promptGlobalSteps.getD uid poll.globalSteps + 1
  rewards := poll.filteredRewards.map Prod.snd
  failed := poll.failedUids.length

/-- `_evict_terminal_groups`: the evicted groups, the number of stale ones and the report. -/
def evictTerminalGroups (partitionId : String) (poll : Poll Uid R) : List Uid × ℕ × Metrics R :=
  let evictedUids :=
    (poll.staleUids ++ poll.filteredRewards.map Prod.fst ++ poll.failedUids).dedup
  if evictedUids = [] then ([], 0, .empty)
  else
    (evictedUids, poll.staleUids.length,
      evictionMetrics round (metricsPrefix partitionId) poll.evictions)

/-- One round of the loop of `sample`. -/
def accumulatePoll (partitionId : String) (acc : Metrics R) (poll : Poll Uid R) : Metrics R :=
  let (evictedUids, staleCount, metrics) := evictTerminalGroups round partitionId poll
  if evictedUids = [] then acc else accumulateEvictionMetrics round acc metrics staleCount

/-- `eviction_metrics` after some polls. -/
def accumulatePolls (partitionId : String) (polls : List (Poll Uid R)) : Metrics R :=
  polls.foldl (accumulatePoll round partitionId) .empty

end Source

/-- All evictions of some polls. -/
def allEvictions (polls : List (Poll Uid R)) : Evictions R :=
  polls.foldl (fun evictions poll => evictions.append poll.evictions) .nothing

/-! ## The scalars of a report -/

inductive Scalar
  | staleSamples
  | staleMean
  | staleMax
  | staleMin
  | filteredSamples
  | failedSamples
  deriving DecidableEq

namespace Scalar

def key (scope : String) : Scalar → String
  | staleSamples => scope ++ "/off_policy/evicted_samples"
  | staleMean => scope ++ "/off_policy/evicted_samples_staleness/mean"
  | staleMax => scope ++ "/off_policy/evicted_samples_staleness/max"
  | staleMin => scope ++ "/off_policy/evicted_samples_staleness/min"
  | filteredSamples => scope ++ "/filter_groups/evicted_samples"
  | failedSamples => scope ++ "/rollout_failure/evicted_samples"

def value (round : ℚ → ℚ) (evictions : Evictions R) : Scalar → Option ℚ
  | staleSamples => if evictions.spans = [] then none else some evictions.spans.length
  | staleMean => if evictions.spans = [] then none else some (mean round evictions.spans)
  | staleMax => evictions.spans.max?.map Int.cast
  | staleMin => evictions.spans.min?.map Int.cast
  | filteredSamples => if evictions.rewards = [] then none else some evictions.rewards.length
  | failedSamples => if evictions.failed = 0 then none else some evictions.failed

def all : List Scalar :=
  [staleSamples, staleMean, staleMax, staleMin, filteredSamples, failedSamples]

theorem mem_all (scalar : Scalar) : scalar ∈ all := by
  cases scalar <;> decide

theorem key_injective (scope : String) {first second : Scalar}
    (hkey : first.key scope = second.key scope) : first = second := by
  cases first <;> cases second <;> first | rfl | simp [key] at hkey

theorem endsWith_staleSamples (scope : String) :
    endsWith (staleSamples.key scope) "/off_policy/evicted_samples" = true := by
  simp [endsWith, key, List.isSuffixOf, List.isPrefixOf]

/-- How a scalar of two reports is merged. -/
def merge (round : ℚ → ℚ) (prevStaleTotal : ℚ) (staleCount : ℕ) (old : Option ℚ) (value : ℚ) :
    Scalar → ℚ
  | staleMean =>
      if prevStaleTotal + staleCount ≠ 0 then
        round (round (round (old.getD 0 * prevStaleTotal) + round (value * staleCount)) /
          (prevStaleTotal + staleCount))
      else value
  | staleMax => max (old.getD value) value
  | staleMin => min (old.getD value) value
  | staleSamples | filteredSamples | failedSamples => old.getD 0 + value

/-- The suffix tests tell the scalars apart. -/
theorem mergeScalar_key (round : ℚ → ℚ) (scope : String) (prevStaleTotal : ℚ) (staleCount : ℕ)
    (old : Option ℚ) (value : ℚ) (scalar : Scalar) :
    mergeScalar round prevStaleTotal staleCount (scalar.key scope) old value =
      scalar.merge round prevStaleTotal staleCount old value := by
  cases scalar <;>
    simp [mergeScalar, merge, endsWith, key, List.isSuffixOf, List.isPrefixOf]

end Scalar

variable {round : ℚ → ℚ} {scope : String} {evictions first second : Evictions R}

/-- A report holds the scalars that have a value. -/
theorem scalars_evictionMetrics :
    (evictionMetrics round scope evictions).scalars = Dict.ofList
    (Scalar.all.filterMap fun scalar =>
      (scalar.value round evictions).map fun value => (scalar.key scope, value)) := by
  obtain ⟨spans, rewards, failed⟩ := evictions
  cases spans <;> cases rewards <;> cases failed <;>
    simp [evictionMetrics, Scalar.all, Scalar.value, Scalar.key, List.max?, List.min?]

theorem get?_scalar (scalar : Scalar) :
    (evictionMetrics round scope evictions).scalars.get? (scalar.key scope) =
      scalar.value round evictions := by
  rw [scalars_evictionMetrics]
  exact Dict.get?_ofList_filterMap (by decide) (Scalar.key_injective scope) scalar.mem_all

theorem get?_other {key : String} (hkey : ∀ scalar : Scalar, key ≠ scalar.key scope) :
    (evictionMetrics round scope evictions).scalars.get? key = none := by
  rw [scalars_evictionMetrics]
  exact Dict.get?_ofList_filterMap_eq_none (by decide) (Scalar.key_injective scope)
    fun scalar _ => hkey scalar

theorem prevStaleTotal_eq {acc : Metrics R} (hspans : evictions.spans ≠ []) :
    prevStaleTotal acc (evictionMetrics round scope evictions) =
      acc.scalars.getD (Scalar.staleSamples.key scope) 0 := by
  have hkeys : ∃ keys, (evictionMetrics round scope evictions).scalars.keys =
      Scalar.staleSamples.key scope :: keys := by
    rw [scalars_evictionMetrics, Dict.keys,
      Dict.entries_ofList_filterMap (by decide) (Scalar.key_injective scope)]
    have hvalue : Scalar.staleSamples.value round evictions = some (evictions.spans.length : ℚ) :=
      if_neg hspans
    rw [Scalar.all, List.filterMap_cons, hvalue]
    exact ⟨_, rfl⟩
  obtain ⟨keys, hkeys⟩ := hkeys
  rw [prevStaleTotal, hkeys, List.find?_cons, Scalar.endsWith_staleSamples]

/-! ## Two reports -/

theorem mean_mul_length {spans : List ℤ} (hspans : spans ≠ []) :
    mean id spans * spans.length = (spans.map (Int.cast : ℤ → ℚ)).sum := by
  have hlength : (spans.length : ℚ) ≠ 0 := by
    rw [Nat.cast_ne_zero]
    exact mt List.length_eq_zero_iff.mp hspans
  rw [mean, id, div_mul_cancel₀ _ hlength]

theorem mean_append (first second : List ℤ) :
    mean id (first ++ second) = ((first.map (Int.cast : ℤ → ℚ)).sum +
      (second.map (Int.cast : ℤ → ℚ)).sum) / (first.length + second.length) := by
  rw [mean, id, List.map_append, List.sum_append, List.length_append, Nat.cast_add]

theorem max?_append {first second : List ℤ} {found : ℤ} (hsecond : second.max? = some found) :
    (first ++ second).max? = some (max (first.max?.getD found) found) := by
  cases first with
  | nil => simpa using hsecond
  | cons span first =>
      cases second with
      | nil => cases hsecond
      | cons other second =>
          obtain rfl := Option.some.inj hsecond
          change some ((first ++ other :: second).foldl max span) = _
          rw [List.foldl_append, List.foldl_cons, List.foldl_assoc]
          rfl

theorem min?_append {first second : List ℤ} {found : ℤ} (hsecond : second.min? = some found) :
    (first ++ second).min? = some (min (first.min?.getD found) found) := by
  cases first with
  | nil => simpa using hsecond
  | cons span first =>
      cases second with
      | nil => cases hsecond
      | cons other second =>
          obtain rfl := Option.some.inj hsecond
          change some ((first ++ other :: second).foldl min span) = _
          rw [List.foldl_append, List.foldl_cons, List.foldl_assoc]
          rfl

/-- A count that is left out is zero. -/
theorem getD_count {absent : Prop} [Decidable absent] {count : ℕ} (hzero : absent → count = 0) :
    (if absent then none else some (count : ℚ)).getD 0 = count := by
  split
  next habsent => rw [hzero habsent, Nat.cast_zero]; rfl
  next => rfl

omit [DecidableEq R] in
theorem staleSamples_getD :
    (Scalar.staleSamples.value round evictions).getD 0 = evictions.spans.length := by
  rw [Scalar.value]
  exact getD_count fun hspans => List.length_eq_zero_iff.mpr hspans

omit [DecidableEq R] in
/-- A mean that is left out has no weight. -/
theorem staleMean_getD_mul (evictions : Evictions R) :
    (Scalar.staleMean.value id evictions).getD 0 * evictions.spans.length =
      (evictions.spans.map (Int.cast : ℤ → ℚ)).sum := by
  rw [Scalar.value]
  split
  next hspans => rw [hspans]; simp
  next hspans => exact mean_mul_length hspans

omit [DecidableEq R] in
/-- A scalar of the report of all evictions, from those of two reports. -/
theorem value_append {scalar : Scalar} {value : ℚ}
    (hexact : scalar = .staleMean → round = id) (hvalue : scalar.value round second = some value) :
    scalar.value round (first.append second) = some (scalar.merge round
      ((Scalar.staleSamples.value round first).getD 0) second.spans.length
        (scalar.value round first) value) := by
  cases scalar with
  | staleSamples =>
      obtain ⟨hsecond, hcount⟩ := Option.ite_none_left_eq_some.mp hvalue
      obtain rfl := Option.some.inj hcount
      have hboth : (first.append second).spans ≠ [] := List.append_ne_nil_of_right_ne_nil _ hsecond
      rw [Scalar.merge, staleSamples_getD, Scalar.value, if_neg hboth, Evictions.append,
        List.length_append, Nat.cast_add]
  | staleMean =>
      obtain rfl := hexact rfl
      obtain ⟨hsecond, hmean⟩ := Option.ite_none_left_eq_some.mp hvalue
      obtain rfl := Option.some.inj hmean
      have hboth : (first.append second).spans ≠ [] := List.append_ne_nil_of_right_ne_nil _ hsecond
      have hweight : (first.spans.length : ℚ) + second.spans.length ≠ 0 := by
        rw [← Nat.cast_add, Nat.cast_ne_zero]
        have hpos := List.length_pos_iff.mpr hsecond
        omega
      rw [Scalar.merge, staleSamples_getD, if_pos hweight, staleMean_getD_mul,
        mean_mul_length hsecond, id, id, id, id, Scalar.value, if_neg hboth, Evictions.append,
        mean_append]
  | staleMax =>
      obtain ⟨found, hfound, rfl⟩ := Option.map_eq_some_iff.mp hvalue
      change (first.spans ++ second.spans).max?.map (Int.cast : ℤ → ℚ) =
        some (max ((first.spans.max?.map Int.cast).getD (found : ℚ)) found)
      rw [max?_append hfound]
      cases first.spans.max? <;> simp
  | staleMin =>
      obtain ⟨found, hfound, rfl⟩ := Option.map_eq_some_iff.mp hvalue
      change (first.spans ++ second.spans).min?.map (Int.cast : ℤ → ℚ) =
        some (min ((first.spans.min?.map Int.cast).getD (found : ℚ)) found)
      rw [min?_append hfound]
      cases first.spans.min? <;> simp
  | filteredSamples =>
      obtain ⟨hrewards, hcount⟩ := Option.ite_none_left_eq_some.mp hvalue
      obtain rfl := Option.some.inj hcount
      have hboth : (first.append second).rewards ≠ [] :=
        List.append_ne_nil_of_right_ne_nil _ hrewards
      have hold : (Scalar.filteredSamples.value round first).getD 0 = first.rewards.length :=
        getD_count fun hfirst => List.length_eq_zero_iff.mpr hfirst
      rw [Scalar.merge, hold, Scalar.value, if_neg hboth, Evictions.append, List.length_append,
        Nat.cast_add]
  | failedSamples =>
      obtain ⟨hfailed, hcount⟩ := Option.ite_none_left_eq_some.mp hvalue
      obtain rfl := Option.some.inj hcount
      have hboth : (first.append second).failed ≠ 0 := by
        change first.failed + second.failed ≠ 0
        omega
      have hold : (Scalar.failedSamples.value round first).getD 0 = first.failed :=
        getD_count fun hfirst => hfirst
      rw [Scalar.merge, hold, Scalar.value, if_neg hboth, Evictions.append, Nat.cast_add]

omit [DecidableEq R] in
/-- A scalar that the second report does not have. -/
theorem value_append_of_none {scalar : Scalar} (hvalue : scalar.value round second = none) :
    scalar.value round (first.append second) = scalar.value round first := by
  have hspans : ∀ {found : ℚ}, (if second.spans = [] then none else some found) = none →
      second.spans = [] := by
    intro found hfound
    simpa using hfound
  cases scalar with
  | staleSamples =>
      rw [Scalar.value, Scalar.value, Evictions.append, hspans hvalue, List.append_nil]
  | staleMean =>
      rw [Scalar.value, Scalar.value, Evictions.append, hspans hvalue, List.append_nil]
  | staleMax =>
      have hsecond := List.max?_eq_none_iff.mp (Option.map_eq_none_iff.mp hvalue)
      rw [Scalar.value, Scalar.value, Evictions.append, hsecond, List.append_nil]
  | staleMin =>
      have hsecond := List.min?_eq_none_iff.mp (Option.map_eq_none_iff.mp hvalue)
      rw [Scalar.value, Scalar.value, Evictions.append, hsecond, List.append_nil]
  | filteredSamples =>
      have hrewards : second.rewards = [] := by simpa [Scalar.value] using hvalue
      rw [Scalar.value, Scalar.value, Evictions.append, hrewards, List.append_nil]
  | failedSamples =>
      have hfailed : second.failed = 0 := by simpa [Scalar.value] using hvalue
      rw [Scalar.value, Scalar.value, Evictions.append, hfailed, Nat.add_zero]

/-! ## Reward counts -/

theorem get?_counter (values : List R) (value : R) :
    (counter values).get? value =
      if value ∈ values then some (values.count value) else none := by
  induction values using List.reverseRecOn with
  | nil => rfl
  | append_singleton values last ih =>
      rw [counter, List.foldl_append, List.foldl_cons, List.foldl_nil]
      change ((counter values).insert last ((counter values).getD last 0 + 1)).get? value = _
      rw [Dict.get?_insert]
      split
      next heq =>
        subst heq
        have hold : (counter values).getD value 0 = values.count value := by
          rw [Dict.getD, ih]
          split
          next => rfl
          next hvalue => rw [List.count_eq_zero_of_not_mem hvalue]; rfl
        rw [hold, if_pos (by simp), List.count_append, List.count_singleton_self]
      next hne => simp [ih, hne, Ne.symm hne, List.count_append]

theorem getD_counter (values : List R) (value : R) :
    (counter values).getD value 0 = values.count value := by
  rw [Dict.getD, get?_counter]
  split
  next => rfl
  next hvalue => rw [List.count_eq_zero_of_not_mem hvalue]; rfl

/-- Merging counts adds them. -/
theorem get?_mergeCounts {acc : Dict R ℕ} {first second : List R}
    (hacc : acc.get? = (counter first).get?) :
    (mergeCounts acc (counter second)).get? = (counter (first ++ second)).get? := by
  funext value
  have hold : acc.getD value 0 = first.count value := by
    rw [Dict.getD, hacc]
    exact getD_counter first value
  rw [mergeCounts, Dict.get?_foldl_merge acc (counter second) 0 (fun old count => old + count),
    hold, hacc, get?_counter, get?_counter, get?_counter]
  by_cases hsecond : value ∈ second
  · simp [hsecond, List.count_append]
  · simp [hsecond, List.count_append, List.count_eq_zero_of_not_mem hsecond]

/-! ## Polls -/

/-- A dictionary of metrics that answers like the report of some evictions, about the mean only
if nothing is rounded. -/
structure Reports (round : ℚ → ℚ) (scope : String) (acc : Metrics R) (evictions : Evictions R) :
    Prop where
  scalars : ∀ key, (key = Scalar.staleMean.key scope → round = id) →
    acc.scalars.get? key = (evictionMetrics round scope evictions).scalars.get? key
  filteredRewardCounts : acc.filteredRewardCounts.map Dict.get? =
    (evictionMetrics round scope evictions).filteredRewardCounts.map Dict.get?

/-- The running weight of the mean is the number of stale samples so far. -/
theorem Reports.merge_prevStaleTotal {acc : Metrics R} (hacc : Reports round scope acc first)
    {scalar : Scalar} {value : ℚ} (hvalue : scalar.value round second = some value) :
    scalar.merge round (prevStaleTotal acc (evictionMetrics round scope second)) second.spans.length
        (scalar.value round first) value =
      scalar.merge round ((Scalar.staleSamples.value round first).getD 0) second.spans.length
        (scalar.value round first) value := by
  cases scalar with
  | staleMean =>
      have hspans : second.spans ≠ [] := by
        rintro hnil
        rw [Scalar.value, if_pos hnil] at hvalue
        cases hvalue
      have hother : Scalar.staleSamples.key scope ≠ Scalar.staleMean.key scope := fun heq =>
        absurd (Scalar.key_injective scope heq) (by decide)
      rw [prevStaleTotal_eq hspans, Dict.getD, hacc.scalars _ fun heq => absurd heq hother,
        get?_scalar]
  | staleSamples => rfl
  | staleMax => rfl
  | staleMin => rfl
  | filteredSamples => rfl
  | failedSamples => rfl

theorem Reports.accumulate {acc : Metrics R} (hacc : Reports round scope acc first) :
    Reports round scope
      (accumulateEvictionMetrics round acc (evictionMetrics round scope second) second.spans.length)
      (first.append second) where
  scalars := by
    intro key hexact
    rw [accumulateEvictionMetrics, Dict.get?_foldl_update acc.scalars
      (evictionMetrics round scope second).scalars (mergeScalar round _ second.spans.length),
      hacc.scalars key hexact]
    by_cases hkey : ∃ scalar : Scalar, key = scalar.key scope
    · obtain ⟨scalar, rfl⟩ := hkey
      rw [get?_scalar, get?_scalar, get?_scalar]
      cases hvalue : scalar.value round second with
      | none => exact (value_append_of_none hvalue).symm
      | some value =>
          change some (mergeScalar _ _ _ (scalar.key scope) _ _) = _
          have hmean : scalar = .staleMean → round = id := fun heq => hexact (heq ▸ rfl)
          rw [value_append hmean hvalue, Scalar.mergeScalar_key, hacc.merge_prevStaleTotal hvalue]
    · have hother : ∀ scalar : Scalar, key ≠ scalar.key scope := fun scalar heq =>
        hkey ⟨scalar, heq⟩
      rw [get?_other hother, get?_other hother, get?_other hother]
  filteredRewardCounts := by
    have hcounts : ∀ evictions : Evictions R,
        (evictionMetrics round scope evictions).filteredRewardCounts =
          if evictions.rewards = [] then none else some (counter evictions.rewards) := fun _ => rfl
    have hacc := hacc.filteredRewardCounts
    rw [hcounts] at hacc ⊢
    rw [accumulateEvictionMetrics, hcounts]
    by_cases hsecond : second.rewards = []
    · rw [if_pos hsecond]
      change acc.filteredRewardCounts.map Dict.get? = _
      rw [hacc, Evictions.append, hsecond, List.append_nil]
    · have hboth : (first.append second).rewards ≠ [] :=
        List.append_ne_nil_of_right_ne_nil _ hsecond
      rw [if_neg hsecond, if_neg hboth]
      refine congrArg some (get?_mergeCounts ?_)
      split at hacc
      next hfirst =>
        rw [Option.map_eq_none_iff.mp hacc, hfirst]
        rfl
      next =>
        obtain ⟨counts, hsome, hget⟩ := Option.map_eq_some_iff.mp hacc
        rw [hsome]
        exact hget

theorem Reports.poll {acc : Metrics R} {partitionId : String} {poll : Poll Uid R}
    (hacc : Reports round (metricsPrefix partitionId) acc first) :
    Reports round (metricsPrefix partitionId) (accumulatePoll round partitionId acc poll)
      (first.append poll.evictions) := by
  rw [accumulatePoll, evictTerminalGroups]
  by_cases hevicted :
      (poll.staleUids ++ poll.filteredRewards.map Prod.fst ++ poll.failedUids).dedup = []
  · -- A poll without evictions leaves the metrics as they are.
    have hnone : poll.evictions = .nothing := by
      rw [List.dedup_eq_nil] at hevicted
      simp only [List.append_eq_nil_iff, List.map_eq_nil_iff] at hevicted
      obtain ⟨⟨hstale, hrewards⟩, hfailed⟩ := hevicted
      rw [Poll.evictions, hstale, hrewards, hfailed]
      rfl
    have hsame : first.append .nothing = first := by
      simp [Evictions.append, Evictions.nothing]
    simp only [if_pos hevicted, if_true]
    rw [hnone, hsame]
    exact hacc
  · simp only [if_neg hevicted]
    have hcount : poll.staleUids.length = poll.evictions.spans.length :=
      (List.length_map _).symm
    rw [hcount]
    exact hacc.accumulate

theorem reports_empty (scope : String) : Reports round scope (.empty : Metrics R) .nothing := by
  refine ⟨fun key _ => ?_, rfl⟩
  by_cases hkey : ∃ scalar : Scalar, key = scalar.key scope
  · obtain ⟨scalar, rfl⟩ := hkey
    rw [get?_scalar]
    cases scalar <;> rfl
  · exact (get?_other fun scalar heq => hkey ⟨scalar, heq⟩).symm

theorem reports_accumulatePolls (round : ℚ → ℚ) (partitionId : String)
    (polls : List (Poll Uid R)) :
    Reports round (metricsPrefix partitionId) (accumulatePolls round partitionId polls)
      (allEvictions polls) := by
  induction polls using List.reverseRecOn with
  | nil => exact reports_empty _
  | append_singleton polls poll ih =>
      rw [accumulatePolls, allEvictions, List.foldl_append, List.foldl_append]
      exact ih.poll

/-- Over exact numbers, the metrics that the polls accumulate are the report of all their
evictions at once.  However floats round, so are all of them but the mean. -/
theorem accumulatePolls_eq (round : ℚ → ℚ) (partitionId : String) (polls : List (Poll Uid R)) :
    (accumulatePolls id partitionId polls).scalars.get? =
        (evictionMetrics id (metricsPrefix partitionId) (allEvictions polls)).scalars.get? ∧
      (∀ key ≠ Scalar.staleMean.key (metricsPrefix partitionId),
        (accumulatePolls round partitionId polls).scalars.get? key =
          (evictionMetrics round (metricsPrefix partitionId)
            (allEvictions polls)).scalars.get? key) ∧
      (accumulatePolls round partitionId polls).filteredRewardCounts.map Dict.get? =
        (evictionMetrics round (metricsPrefix partitionId)
          (allEvictions polls)).filteredRewardCounts.map Dict.get? := by
  have hexact := reports_accumulatePolls id partitionId polls
  have hreports := reports_accumulatePolls round partitionId polls
  exact ⟨funext fun key => hexact.scalars key fun _ => rfl,
    fun key hkey => hreports.scalars key fun heq => absurd heq hkey,
    hreports.filteredRewardCounts⟩

/-- Seven stale groups, and then one more. -/
def unevenPolls : List (Poll ℕ ℕ) :=
  [{ globalSteps := 5
     promptGlobalSteps := .ofList [(0, 2), (1, 2), (2, 2), (3, 2), (4, 2), (5, 2), (6, 1)]
     staleUids := [0, 1, 2, 3, 4, 5, 6]
     filteredRewards := []
     failedUids := [] },
   { globalSteps := 5
     promptGlobalSteps := .ofList [(7, 4)]
     staleUids := [7]
     filteredRewards := []
     failedUids := [] }]

/-- The mean of the first poll is no `float`, and its rounding stays in the
merged mean. -/
theorem unevenPolls_mean :
    (accumulatePolls (roundToDigits float64) "train" unevenPolls).scalars.get?
        (Scalar.staleMean.key "training") ≠
      (evictionMetrics (roundToDigits float64) "training"
        (allEvictions unevenPolls)).scalars.get? (Scalar.staleMean.key "training") := by
  decide +kernel

end OneShotOPD.ReplayBuffer
