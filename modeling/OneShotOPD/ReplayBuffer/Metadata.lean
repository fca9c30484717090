import OneShotOPD.Core.Dict
import Mathlib.Data.Finset.Card
import Mathlib.Data.Int.Notation

/-!
# The metadata of the replay buffer

Prompts and trajectories are kept in a queue outside of the buffer.  The buffer
polls their metadata, and decides from one snapshot which prompt groups it
evicts, and which of the others it may sample.
-/

namespace OneShotOPD.ReplayBuffer

inductive Status where
  | pending
  | running
  | finished
  | failure
  deriving DecidableEq

/-- All sessions of the prompt are done. -/
def Status.IsTerminal (status : Status) : Prop := status = .finished ∨ status = .failure

instance : DecidablePred Status.IsTerminal := fun status =>
  inferInstanceAs (Decidable (status = .finished ∨ status = .failure))

structure Prompt where
  status : Status
  globalSteps : ℤ
  deriving DecidableEq

/-- `{uid}_{session_id}_{index}`. -/
structure TrajectoryKey (Uid : Type) where
  uid : Uid
  sessionId : ℕ
  index : ℕ
  deriving DecidableEq

/-- A trajectory has a tag, and the metric of its reward info if it has one. -/
structure Trajectory (Tag R : Type) where
  tag : Tag
  metric : Option R

structure Partition (Uid Tag R : Type) where
  prompts : Dict Uid Prompt
  trajectories : Dict (TrajectoryKey Uid) (Trajectory Tag R)

inductive OffPolicyStrategy where
  | drop
  | wait
  deriving DecidableEq

inductive BufferError (Uid R : Type) where
  /-- "Finished groups are missing DAPO metric" -/
  | missingMetric (metric : String) (uids : Finset Uid)
  /-- "drop strategy selected stale prompts" -/
  | staleSelected (spans : List ℤ) (threshold : ℤ)
  /-- "selected terminal groups with no materializable trajectories" -/
  | noTrajectories

/-- The order in which a set of uids is iterated. -/
structure SetOrder (Uid : Type) where
  toList : Finset Uid → List Uid
  nodup_toList : ∀ uids, (toList uids).Nodup
  mem_toList : ∀ uids uid, uid ∈ toList uids ↔ uid ∈ uids

structure BufferConfig (Uid R : Type) where
  maxOffPolicyThreshold : ℤ
  maxOffPolicyStrategy : OffPolicyStrategy
  hasRefillFn : Bool
  filterGroupsMetric : Option String
  trainBatchSize : ℕ
  genBatchSize : ℕ
  maxInflightGenBatches : ℕ
  syncRefillFailedGroups : Bool
  /-- `float(np.std(values)) == 0.0` -/
  stdIsZero : List R → Bool
  order : SetOrder Uid

/-- The arguments of a call of `sample`. -/
structure SampleArgs where
  globalSteps : ℤ
  partitionId : String
  batchSize : ℕ

/-- The DAPO metric that all trajectories of a group share, if there is one. -/
abbrev Classifications (Uid R : Type) := Dict Uid (Option R)

structure EvictionReasons (Uid : Type) where
  stale : Finset Uid
  dapo : Finset Uid
  failed : Finset Uid

structure KVBatchMeta (Uid Tag : Type) where
  partitionId : String
  keys : List (TrajectoryKey Uid)
  tags : List Tag

variable {Uid Tag R : Type} [DecidableEq Uid]

namespace Partition

/-- `pending_keys`, `running_keys`, `finished_keys` and `failure_keys`. -/
def withStatus (partition : Partition Uid Tag R) (status : Status) : Finset Uid :=
  ((partition.prompts.entries.filter fun entry => entry.2.status = status).map Prod.fst).toFinset

def inflight (partition : Partition Uid Tag R) : Finset Uid :=
  partition.withStatus .pending ∪ partition.withStatus .running

def terminal (partition : Partition Uid Tag R) : Finset Uid :=
  partition.withStatus .finished ∪ partition.withStatus .failure

def globalStepsOf (partition : Partition Uid Tag R) (uid : Uid) (default : ℤ) : ℤ :=
  ((partition.prompts.get? uid).map Prompt.globalSteps).getD default

def trajectoryKeys (partition : Partition Uid Tag R) (uids : Finset Uid) :
    List (TrajectoryKey Uid) :=
  partition.trajectories.keys.filter fun key => key.uid ∈ uids

/-- `tq.kv_clear`. -/
def kvClear (partition : Partition Uid Tag R) (uids : Finset Uid)
    (trajectoryKeys : List (TrajectoryKey Uid)) : Partition Uid Tag R where
  prompts := partition.prompts.filter fun uid => uid ∉ uids
  trajectories := partition.trajectories.filter fun key => key ∉ trajectoryKeys

/-- `_clear_groups`, with the trajectories that the snapshot knows. -/
def clearGroups (snapshot partition : Partition Uid Tag R) (uids : Finset Uid) :
    Partition Uid Tag R :=
  partition.kvClear uids (snapshot.trajectoryKeys uids)

/-- `materializable_uids`: the groups that have trajectories. -/
def materializableUids (partition : Partition Uid Tag R) : Finset Uid :=
  (partition.trajectories.keys.map TrajectoryKey.uid).toFinset

/-- The metrics of the trajectories of one group. -/
def metrics (partition : Partition Uid Tag R) (uid : Uid) : List (Option R) :=
  (partition.trajectories.entries.filter fun entry => entry.1.uid = uid).map
    fun entry => entry.2.metric

theorem mem_withStatus {partition : Partition Uid Tag R} {status : Status} {uid : Uid} :
    uid ∈ partition.withStatus status ↔
      ∃ prompt, (uid, prompt) ∈ partition.prompts.entries ∧ prompt.status = status := by
  simp [withStatus]

theorem mem_terminal {partition : Partition Uid Tag R} {uid : Uid} :
    uid ∈ partition.terminal ↔
      ∃ prompt, (uid, prompt) ∈ partition.prompts.entries ∧ prompt.status.IsTerminal := by
  simp only [terminal, Finset.mem_union, mem_withStatus, Status.IsTerminal]
  constructor
  · rintro (⟨prompt, hentry, hstatus⟩ | ⟨prompt, hentry, hstatus⟩)
    · exact ⟨prompt, hentry, .inl hstatus⟩
    · exact ⟨prompt, hentry, .inr hstatus⟩
  · rintro ⟨prompt, hentry, hstatus | hstatus⟩
    · exact .inl ⟨prompt, hentry, hstatus⟩
    · exact .inr ⟨prompt, hentry, hstatus⟩

theorem disjoint_withStatus (partition : Partition Uid Tag R) {first second : Status}
    (hne : first ≠ second) :
    Disjoint (partition.withStatus first) (partition.withStatus second) := by
  refine Finset.disjoint_left.mpr fun uid hfirst hsecond => ?_
  obtain ⟨prompt, hentry, rfl⟩ := mem_withStatus.mp hfirst
  obtain ⟨other, hother, rfl⟩ := mem_withStatus.mp hsecond
  exact hne (congrArg Prompt.status (Dict.eq_of_mem_entries hentry hother))

theorem mem_inflight {partition : Partition Uid Tag R} {uid : Uid} :
    uid ∈ partition.inflight ↔
      ∃ prompt, (uid, prompt) ∈ partition.prompts.entries ∧ ¬ prompt.status.IsTerminal := by
  simp only [inflight, Finset.mem_union, mem_withStatus]
  constructor
  · rintro (⟨prompt, hentry, hstatus⟩ | ⟨prompt, hentry, hstatus⟩) <;>
      exact ⟨prompt, hentry, by simp [Status.IsTerminal, hstatus]⟩
  · rintro ⟨prompt, hentry, hopen⟩
    cases hstatus : prompt.status with
    | pending => exact .inl ⟨prompt, hentry, hstatus⟩
    | running => exact .inr ⟨prompt, hentry, hstatus⟩
    | finished => exact absurd (.inl hstatus) hopen
    | failure => exact absurd (.inr hstatus) hopen

def uids (partition : Partition Uid Tag R) : Finset Uid := partition.prompts.keys.toFinset

theorem mem_uids {partition : Partition Uid Tag R} {uid : Uid} :
    uid ∈ partition.uids ↔ ∃ prompt, (uid, prompt) ∈ partition.prompts.entries := by
  simp [uids, Dict.keys]

theorem terminal_union_inflight (partition : Partition Uid Tag R) :
    partition.terminal ∪ partition.inflight = partition.uids := by
  ext uid
  rw [Finset.mem_union, mem_terminal, mem_inflight, mem_uids]
  constructor
  · rintro (⟨prompt, hentry, _⟩ | ⟨prompt, hentry, _⟩) <;> exact ⟨prompt, hentry⟩
  · rintro ⟨prompt, hentry⟩
    by_cases hterminal : prompt.status.IsTerminal
    · exact .inl ⟨prompt, hentry, hterminal⟩
    · exact .inr ⟨prompt, hentry, hterminal⟩

theorem disjoint_terminal_inflight (partition : Partition Uid Tag R) :
    Disjoint partition.terminal partition.inflight := by
  refine Finset.disjoint_left.mpr fun uid hterminal hinflight => ?_
  obtain ⟨prompt, hentry, hstatus⟩ := mem_terminal.mp hterminal
  obtain ⟨other, hother, hopen⟩ := mem_inflight.mp hinflight
  exact hopen (Dict.eq_of_mem_entries hentry hother ▸ hstatus)

/-- Every prompt is in flight or terminal. -/
theorem card_terminal_add_card_inflight (partition : Partition Uid Tag R) :
    partition.terminal.card + partition.inflight.card = partition.uids.card := by
  rw [← Finset.card_union_of_disjoint partition.disjoint_terminal_inflight,
    terminal_union_inflight]

theorem mem_keys_of_mem_terminal {partition : Partition Uid Tag R} {uid : Uid}
    (huid : uid ∈ partition.terminal) : uid ∈ partition.prompts.keys := by
  obtain ⟨prompt, hentry, _⟩ := mem_terminal.mp huid
  exact List.mem_map_of_mem hentry

theorem withStatus_kvClear (partition : Partition Uid Tag R) (status : Status)
    (uids : Finset Uid) (keys : List (TrajectoryKey Uid)) :
    (partition.kvClear uids keys).withStatus status = partition.withStatus status \ uids := by
  ext uid
  simp only [mem_withStatus, kvClear, Dict.mem_entries_filter, Finset.mem_sdiff]
  constructor
  · rintro ⟨prompt, ⟨hentry, huid⟩, hstatus⟩
    exact ⟨⟨prompt, hentry, hstatus⟩, huid⟩
  · rintro ⟨⟨prompt, hentry, hstatus⟩, huid⟩
    exact ⟨prompt, ⟨hentry, huid⟩, hstatus⟩

@[simp]
theorem mem_keys_kvClear {partition : Partition Uid Tag R} {uids : Finset Uid}
    {keys : List (TrajectoryKey Uid)} {uid : Uid} :
    uid ∈ (partition.kvClear uids keys).prompts.keys ↔
      uid ∈ partition.prompts.keys ∧ uid ∉ uids := by
  simp [kvClear]

end Partition

/-! ## Evictions -/

variable (config : BufferConfig Uid R)

/-- A group is filtered when it has several trajectories with the same metric. -/
def classify (values : List R) : Option R :=
  if 1 < values.length ∧ config.stdIsZero values then values.head? else none

/-- The groups whose classification is a metric. -/
def filteredRewards (cache : Classifications Uid R) : Finset Uid :=
  ((cache.entries.filter fun entry => entry.2.isSome).map Prod.fst).toFinset

/-- `_dapo_filtered_keys`, with the classifications that it keeps. -/
def dapoFilteredKeys (partitionId : String) (snapshot : Partition Uid Tag R)
    (cache : Classifications Uid R) :
    Except (BufferError Uid R) (Finset Uid × Classifications Uid R) :=
  match config.filterGroupsMetric with
  | none => .ok (∅, cache)
  | some metric =>
      if partitionId = "val" then .ok (∅, cache)
      else
        let finishedUids := snapshot.withStatus .finished
        let kept := cache.filter fun uid => uid ∈ finishedUids
        let newFinishedUids := finishedUids.filter fun uid => uid ∉ kept.keys
        let missing := newFinishedUids.filter fun uid =>
          (snapshot.metrics uid).isEmpty ∨ (snapshot.metrics uid).any Option.isNone
        if missing.Nonempty then .error (.missingMetric metric missing)
        else
          let cache := (config.order.toList newFinishedUids).foldl (fun cache uid =>
            cache.insert uid (classify config ((snapshot.metrics uid).filterMap id))) kept
          .ok (filteredRewards cache, cache)

def EvictionReasons.all (reasons : EvictionReasons Uid) : Finset Uid :=
  reasons.stale ∪ reasons.dapo ∪ reasons.failed

def EvictionReasons.nothing : EvictionReasons Uid := ⟨∅, ∅, ∅⟩

def sampleableTerminalKeys (snapshot : Partition Uid Tag R) (reasons : EvictionReasons Uid) :
    Finset Uid :=
  snapshot.terminal \ reasons.all

/-- `_select_prompt_uids`: the sort is stable. -/
def selectPromptUids (snapshot : Partition Uid Tag R) (sampleable : Finset Uid)
    (batchSize : ℕ) : List Uid :=
  ((config.order.toList sampleable).mergeSort fun first second =>
    decide (snapshot.globalStepsOf first 0 ≤ snapshot.globalStepsOf second 0)).take batchSize

/-- The batch of `_materialize_batch`. -/
def materializeBatch (partitionId : String) (selected : List Uid)
    (snapshot : Partition Uid Tag R) : KVBatchMeta Uid Tag :=
  let entries := snapshot.trajectories.entries.filter fun entry => entry.1.uid ∈ selected
  { partitionId
    keys := entries.map Prod.fst
    tags := entries.map fun entry => entry.2.tag }

theorem mem_keys_materializeBatch {partitionId : String} {selected : List Uid}
    {snapshot : Partition Uid Tag R} {key : TrajectoryKey Uid} :
    key ∈ (materializeBatch partitionId selected snapshot).keys ↔
      key ∈ snapshot.trajectories.keys ∧ key.uid ∈ selected := by
  simp only [materializeBatch, Dict.keys, List.mem_map, List.mem_filter, decide_eq_true_eq]
  constructor
  · rintro ⟨entry, ⟨hentry, hselected⟩, rfl⟩
    exact ⟨⟨entry, hentry, rfl⟩, hselected⟩
  · rintro ⟨⟨entry, hentry, rfl⟩, hselected⟩
    exact ⟨entry, ⟨hentry, hselected⟩, rfl⟩

/-- The groups that a batch has trajectories of. -/
def KVBatchMeta.groups (batch : KVBatchMeta Uid Tag) : Finset Uid :=
  (batch.keys.map TrajectoryKey.uid).toFinset

/-- A selected group without trajectories adds nothing to the batch. -/
theorem groups_materializeBatch (partitionId : String) (selected : List Uid)
    (snapshot : Partition Uid Tag R) :
    (materializeBatch partitionId selected snapshot).groups =
      selected.toFinset ∩ snapshot.materializableUids := by
  ext uid
  simp only [KVBatchMeta.groups, Partition.materializableUids, Finset.mem_inter,
    List.mem_toFinset, List.mem_map, mem_keys_materializeBatch]
  constructor
  · rintro ⟨key, ⟨hkey, hselected⟩, rfl⟩
    exact ⟨hselected, key, hkey, rfl⟩
  · rintro ⟨hselected, key, hkey, rfl⟩
    exact ⟨key, ⟨hkey, hselected⟩, rfl⟩

/-- The batch has as many groups as are selected just when each of them has
trajectories. -/
theorem card_groups_eq_iff {batch : KVBatchMeta Uid Tag} {selected : List Uid}
    {materializable : Finset Uid} (hnodup : selected.Nodup)
    (hgroups : batch.groups = selected.toFinset ∩ materializable) :
    batch.groups.card = selected.length ↔ selected.toFinset ⊆ materializable := by
  rw [hgroups, ← List.toFinset_card_of_nodup hnodup, ← Finset.inter_eq_left]
  constructor
  · exact fun hcard => Finset.eq_of_subset_of_card_le Finset.inter_subset_left hcard.ge
  · exact fun heq => congrArg Finset.card heq

/-! ## What is evicted and selected -/

section

variable {config}

theorem mem_filteredRewards {cache : Classifications Uid R} {uid : Uid} :
    uid ∈ filteredRewards cache ↔ ∃ value, cache.get? uid = some (some value) := by
  simp only [filteredRewards, List.mem_toFinset, List.mem_map, List.mem_filter,
    Dict.get?_eq_some_iff]
  constructor
  · rintro ⟨⟨_, value⟩, ⟨hentry, hvalue⟩, rfl⟩
    obtain ⟨reward, rfl⟩ := Option.isSome_iff_exists.mp hvalue
    exact ⟨reward, hentry⟩
  · rintro ⟨reward, hentry⟩
    exact ⟨_, ⟨hentry, rfl⟩, rfl⟩

/-- Every finished group has a classification, the one that it had before if it had
one, and the filtered groups are those that share a metric. -/
theorem dapoFilteredKeys_eq_ok {partitionId : String} {snapshot : Partition Uid Tag R}
    {cache kept : Classifications Uid R} {uids : Finset Uid}
    (hmetric : config.filterGroupsMetric ≠ none) (htrain : partitionId ≠ "val")
    (hfiltered : dapoFilteredKeys config partitionId snapshot cache = .ok (uids, kept)) :
    (∀ uid ∈ snapshot.withStatus .finished, ∃ value, kept.get? uid = some value ∧
      ∀ old, cache.get? uid = some old → value = old) ∧
    (∀ uid ∉ snapshot.withStatus .finished, kept.get? uid = none) ∧
    ∀ uid, uid ∈ uids ↔ ∃ value, kept.get? uid = some (some value) := by
  rw [dapoFilteredKeys] at hfiltered
  split at hfiltered
  next hnone => exact absurd hnone hmetric
  next =>
    rw [if_neg htrain] at hfiltered
    dsimp only at hfiltered
    split at hfiltered
    next => cases hfiltered
    next =>
      obtain ⟨rfl, rfl⟩ := Prod.mk.inj (Except.ok.inj hfiltered)
      refine ⟨fun uid huid => ?_, fun uid huid => ?_, fun uid => mem_filteredRewards⟩ <;>
        simp only [Dict.get?_foldl_insert, config.order.mem_toList, Finset.mem_filter,
          Dict.mem_keys_filter, Dict.get?_filter]
      · simp only [huid, and_true, true_and, if_true]
        cases hcache : cache.get? uid with
        | none =>
            rw [if_pos ((Dict.get?_eq_none_iff _ _).mp hcache)]
            exact ⟨_, rfl, by simp⟩
        | some old =>
            have hmem := (Dict.get?_isSome_iff cache uid).mp (by simp [hcache])
            rw [if_neg (by simpa using hmem)]
            exact ⟨old, rfl, fun _ heq => Option.some.inj heq⟩
      · simp [huid]

/-- Only finished groups are filtered. -/
theorem dapoFilteredKeys_subset {partitionId : String} {snapshot : Partition Uid Tag R}
    {cache kept : Classifications Uid R} {uids : Finset Uid}
    (hfiltered : dapoFilteredKeys config partitionId snapshot cache = .ok (uids, kept)) :
    uids ⊆ snapshot.withStatus .finished := by
  by_cases hmetric : config.filterGroupsMetric = none
  · rw [dapoFilteredKeys, hmetric] at hfiltered
    cases hfiltered
    exact Finset.empty_subset _
  · by_cases htrain : partitionId = "val"
    · rw [dapoFilteredKeys] at hfiltered
      split at hfiltered
      next => contradiction
      next =>
        rw [if_pos htrain] at hfiltered
        cases hfiltered
        exact Finset.empty_subset _
    · obtain ⟨_, hother, huids⟩ := dapoFilteredKeys_eq_ok hmetric htrain hfiltered
      intro uid huid
      obtain ⟨value, hvalue⟩ := (huids uid).mp huid
      by_contra hnot
      rw [hother uid hnot] at hvalue
      cases hvalue

/-- The selected groups are the oldest ones. -/
structure Oldest (snapshot : Partition Uid Tag R) (sampleable : Finset Uid) (batchSize : ℕ)
    (selected : List Uid) : Prop where
  nodup : selected.Nodup
  length_eq : selected.length = batchSize
  mem_sampleable : ∀ uid ∈ selected, uid ∈ sampleable
  oldest : ∀ uid ∈ selected, ∀ other ∈ sampleable, other ∉ selected →
    snapshot.globalStepsOf uid 0 ≤ snapshot.globalStepsOf other 0

variable (config) in
theorem oldest_selectPromptUids (snapshot : Partition Uid Tag R) {sampleable : Finset Uid}
    {batchSize : ℕ} (henough : batchSize ≤ sampleable.card) :
    Oldest snapshot sampleable batchSize
      (selectPromptUids config snapshot sampleable batchSize) := by
  let older : Uid → Uid → Bool := fun first second =>
    decide (snapshot.globalStepsOf first 0 ≤ snapshot.globalStepsOf second 0)
  let sorted := (config.order.toList sampleable).mergeSort older
  have hperm : sorted.Perm (config.order.toList sampleable) := List.mergeSort_perm _ _
  have hmem : ∀ uid, uid ∈ sorted ↔ uid ∈ sampleable := fun uid =>
    hperm.mem_iff.trans (config.order.mem_toList sampleable uid)
  have hnodup : sorted.Nodup := hperm.nodup_iff.mpr (config.order.nodup_toList sampleable)
  have hlength : sorted.length = sampleable.card := by
    rw [← List.toFinset_card_of_nodup hnodup]
    congr 1
    ext uid
    rw [List.mem_toFinset, hmem]
  have hsorted : sorted.Pairwise fun first second => older first second :=
    List.pairwise_mergeSort
      (fun _ _ _ hfirst hsecond => by
        simp only [older, decide_eq_true_eq] at *
        exact hfirst.trans hsecond)
      (fun first second => by simpa [older] using le_total _ _) _
  refine ⟨hnodup.sublist (List.take_sublist _ _), ?_, fun uid huid => ?_, ?_⟩
  · rw [selectPromptUids, List.length_take, min_eq_left]
    exact hlength ▸ henough
  · exact (hmem uid).mp (List.mem_of_mem_take huid)
  · intro uid huid other hother hnot
    have hdrop : other ∈ sorted.drop batchSize := by
      have hall := (hmem other).mpr hother
      rw [← List.take_append_drop batchSize sorted] at hall
      exact (List.mem_append.mp hall).resolve_left hnot
    rw [← List.take_append_drop batchSize sorted] at hsorted
    simpa [older] using (List.pairwise_append.mp hsorted).2.2 uid huid other hdrop

end

end OneShotOPD.ReplayBuffer
