import OneShotOPD.ReplayBuffer.Metadata
import OneShotOPD.Core.Checks
import Mathlib.Logic.Function.Basic

/-!
# Sampling in the asynchronous trainer

A call of `sample` polls until no group has to be evicted and enough groups can
be sampled.  Between two polls, and between the snapshot of a poll and the
removal of its groups, the queue changes in any way, but a uid that has been
cleared is never used again.
-/

namespace OneShotOPD.ReplayBuffer.Async

open Checks

variable {Uid Tag R : Type} [DecidableEq Uid]

inductive Outcome (Uid Tag : Type) where
  /-- Groups are evicted, and replacements requested. -/
  | evicted (uids : Finset Uid) (refill : Option ℕ)
  | returned (selected : List Uid) (batch : KVBatchMeta Uid Tag)
  | waiting

section Poll

variable (config : BufferConfig Uid R) (args : SampleArgs) (snapshot : Partition Uid Tag R)

def span (uid : Uid) : ℤ :=
  args.globalSteps - snapshot.globalStepsOf uid args.globalSteps + 1

def staleTerminalKeys : Finset Uid :=
  if args.partitionId = "val" ∨ config.maxOffPolicyStrategy ≠ .drop then ∅
  else (snapshot.withStatus .finished).filter fun uid =>
    config.maxOffPolicyThreshold < span args snapshot uid

def terminalEvictionReasons (cache : Classifications Uid R) :
    Except (BufferError Uid R) (EvictionReasons Uid × Classifications Uid R) :=
  if args.partitionId = "val" then .ok (.nothing, cache)
  else do
    let stale := staleTerminalKeys config args snapshot
    let (dapo, cache) ← dapoFilteredKeys config args.partitionId snapshot cache
    return (⟨stale, dapo, snapshot.withStatus .failure⟩, cache)

/-- The dropless strategy waits for prompts in flight that have become old. -/
def hasEnoughSamples (sampleable : Finset Uid) : Prop :=
  (config.maxOffPolicyStrategy = .wait → ∀ uid ∈ snapshot.inflight,
    args.globalSteps - snapshot.globalStepsOf uid 0 + 1 < config.maxOffPolicyThreshold) ∧
    args.batchSize ≤ sampleable.card

instance (sampleable : Finset Uid) :
    Decidable (hasEnoughSamples config args snapshot sampleable) :=
  inferInstanceAs (Decidable ((_ → ∀ _ ∈ _, _) ∧ _))

/-- One round of the loop of `sample`. -/
def poll (cache : Classifications Uid R) :
    Except (BufferError Uid R) (Outcome Uid Tag × Classifications Uid R) := do
  let (reasons, cache) ← terminalEvictionReasons config args snapshot cache
  let evicted := reasons.all
  if evicted.Nonempty then
    let refill := if config.hasRefillFn then some evicted.card else none
    return (.evicted evicted refill, cache.filter fun uid => uid ∉ evicted)
  else
    let sampleable := sampleableTerminalKeys snapshot reasons
    if hasEnoughSamples config args snapshot sampleable then
      let selected := selectPromptUids config snapshot sampleable args.batchSize
      let spans := selected.map (span args snapshot)
      raiseIf (args.partitionId ≠ "val" ∧ config.maxOffPolicyStrategy = .drop ∧
        ¬ ∀ span ∈ spans, span ≤ config.maxOffPolicyThreshold)
        (.staleSelected spans config.maxOffPolicyThreshold)
      return (.returned selected (materializeBatch args.partitionId selected snapshot), cache)
    else return (.waiting, cache)

/-- What an outcome says about its snapshot. -/
def Outcome.Sound : Outcome Uid Tag → Prop
  | .evicted uids refill => uids ⊆ snapshot.terminal ∧
      refill = if config.hasRefillFn then some uids.card else none
  | .returned selected batch =>
      Oldest snapshot snapshot.terminal args.batchSize selected ∧
        batch = materializeBatch args.partitionId selected snapshot
  | .waiting => True

variable {config args snapshot}

theorem all_subset_terminal {cache kept : Classifications Uid R} {reasons : EvictionReasons Uid}
    (hreasons : terminalEvictionReasons config args snapshot cache = .ok (reasons, kept)) :
    reasons.all ⊆ snapshot.terminal := by
  rw [terminalEvictionReasons] at hreasons
  split at hreasons
  next =>
    cases hreasons
    simp [EvictionReasons.all, EvictionReasons.nothing]
  next =>
    obtain ⟨⟨dapo, filtered⟩, hdapo, hreasons⟩ := bind_eq_ok.mp hreasons
    cases hreasons
    have hfinished : snapshot.withStatus .finished ⊆ snapshot.terminal :=
      Finset.subset_union_left
    refine Finset.union_subset (Finset.union_subset ?_ ?_) Finset.subset_union_right
    · rw [staleTerminalKeys]
      split
      next => exact Finset.empty_subset _
      next => exact (Finset.filter_subset _ _).trans hfinished
    · exact (dapoFilteredKeys_subset hdapo).trans hfinished

/-- Under the drop strategy, a group that is not evicted is not stale. -/
theorem span_le_of_not_evicted {cache kept : Classifications Uid R}
    {reasons : EvictionReasons Uid}
    (hreasons : terminalEvictionReasons config args snapshot cache = .ok (reasons, kept))
    (htrain : args.partitionId ≠ "val") (hdrop : config.maxOffPolicyStrategy = .drop)
    {uid : Uid} (huid : uid ∈ sampleableTerminalKeys snapshot reasons) :
    span args snapshot uid ≤ config.maxOffPolicyThreshold := by
  rw [terminalEvictionReasons, if_neg htrain] at hreasons
  obtain ⟨⟨dapo, filtered⟩, _, hreasons⟩ := bind_eq_ok.mp hreasons
  cases hreasons
  simp only [sampleableTerminalKeys, EvictionReasons.all, Finset.mem_sdiff, Finset.mem_union,
    Partition.terminal, not_or] at huid
  obtain ⟨hterminal, ⟨hstale, _⟩, hfailed⟩ := huid
  have hfinished := hterminal.resolve_right hfailed
  by_contra hlt
  refine hstale ?_
  rw [staleTerminalKeys, if_neg (by simp [htrain, hdrop])]
  exact Finset.mem_filter.mpr ⟨hfinished, not_le.mp hlt⟩

/-- What a poll does: as nothing is evicted when a batch is returned, all terminal
groups are sampleable then. -/
theorem poll_eq_ok {cache kept : Classifications Uid R} {outcome : Outcome Uid Tag}
    (hpoll : poll config args snapshot cache = .ok (outcome, kept)) :
    outcome.Sound config args snapshot := by
  obtain ⟨⟨reasons, filtered⟩, hreasons, hpoll⟩ := bind_eq_ok.mp hpoll
  dsimp only at hpoll
  split at hpoll
  next =>
    cases hpoll
    exact ⟨all_subset_terminal hreasons, rfl⟩
  next hnone =>
    have hall : sampleableTerminalKeys snapshot reasons = snapshot.terminal := by
      rw [sampleableTerminalKeys, Finset.not_nonempty_iff_eq_empty.mp hnone, Finset.sdiff_empty]
    split at hpoll
    next henough =>
      rw [raiseIf_bind_eq_ok] at hpoll
      obtain ⟨_, hpoll⟩ := hpoll
      cases hpoll
      have holdest := oldest_selectPromptUids config snapshot henough.2
      exact ⟨by rwa [hall] at holdest ⊢, rfl⟩
    next =>
      cases hpoll
      trivial

/-- The assertion never fails. -/
theorem poll_ne_staleSelected (cache : Classifications Uid R) (spans : List ℤ)
    (threshold : ℤ) :
    poll config args snapshot cache ≠ .error (.staleSelected spans threshold) := by
  intro hpoll
  rw [poll] at hpoll
  cases hreasons : terminalEvictionReasons config args snapshot cache with
  | error error =>
      rw [hreasons] at hpoll
      obtain rfl := Except.error.inj hpoll
      rw [terminalEvictionReasons] at hreasons
      split at hreasons
      next => cases hreasons
      next =>
        cases hdapo : dapoFilteredKeys config args.partitionId snapshot cache with
        | ok filtered =>
            rw [hdapo] at hreasons
            cases hreasons
        | error error =>
            rw [hdapo] at hreasons
            obtain rfl := Except.error.inj hreasons
            rw [dapoFilteredKeys] at hdapo
            split at hdapo
            next => cases hdapo
            next =>
              split at hdapo
              next => cases hdapo
              next =>
                dsimp only at hdapo
                split at hdapo <;> cases hdapo
  | ok result =>
      obtain ⟨reasons, filtered⟩ := result
      rw [hreasons] at hpoll
      change (if reasons.all.Nonempty then _ else _) = _ at hpoll
      split at hpoll
      next => cases hpoll
      next =>
        dsimp only at hpoll
        split at hpoll
        next henough =>
          have hfresh : ¬ (args.partitionId ≠ "val" ∧ config.maxOffPolicyStrategy = .drop ∧
              ¬ ∀ span ∈ (selectPromptUids config snapshot
                (sampleableTerminalKeys snapshot reasons) args.batchSize).map
                  (Async.span args snapshot), span ≤ config.maxOffPolicyThreshold) := by
            rintro ⟨htrain, hdrop, hstale⟩
            refine hstale fun span hspan => ?_
            obtain ⟨uid, huid, rfl⟩ := List.mem_map.mp hspan
            exact span_le_of_not_evicted hreasons htrain hdrop
              ((oldest_selectPromptUids config snapshot henough.2).mem_sampleable uid huid)
          rw [raiseIf, if_neg hfresh] at hpoll
          cases hpoll
        next => cases hpoll

end Poll

/-! ## Runs -/

structure PollRecord (Uid Tag R : Type) where
  args : SampleArgs
  snapshot : Partition Uid Tag R
  result : Except (BufferError Uid R) (Outcome Uid Tag)

def Outcome.cleared : Outcome Uid Tag → Finset Uid
  | .evicted uids _ => uids
  | .returned selected _ => selected.toFinset
  | .waiting => ∅

def PollRecord.evicted (record : PollRecord Uid Tag R) : Finset Uid :=
  match record.result with
  | .ok (.evicted uids _) => uids
  | _ => ∅

def PollRecord.returned (record : PollRecord Uid Tag R) : Finset Uid :=
  match record.result with
  | .ok (.returned selected _) => selected.toFinset
  | _ => ∅

/-- An eviction also removes the trajectories of the snapshot, and a selection
leaves them to the trainer. -/
def Outcome.clear (snapshot : Partition Uid Tag R) (outcome : Outcome Uid Tag)
    (partition : Partition Uid Tag R) : Partition Uid Tag R :=
  match outcome with
  | .evicted uids _ => Partition.clearGroups snapshot partition uids
  | .returned selected _ => partition.kvClear selected.toFinset []
  | .waiting => partition

structure State (Uid Tag R : Type) where
  queue : String → Partition Uid Tag R
  caches : String → Classifications Uid R
  call : Option SampleArgs
  polls : List (PollRecord Uid Tag R)

/-- The uids of the prompts of a partition that the buffer has removed. -/
def State.Cleared (state : State Uid Tag R) (partitionId : String) (uid : Uid) : Prop :=
  ∃ record ∈ state.polls, record.args.partitionId = partitionId ∧
    uid ∈ record.evicted ∪ record.returned

/-- Prompts come with fresh uids. -/
def State.Evolves (state : State Uid Tag R) (queue : String → Partition Uid Tag R) : Prop :=
  ∀ partitionId uid, state.Cleared partitionId uid → uid ∉ (queue partitionId).prompts.keys

inductive Step (config : BufferConfig Uid R) (state : State Uid Tag R) : State Uid Tag R → Prop
  | queue {queue : String → Partition Uid Tag R} (hqueue : state.Evolves queue) :
      Step config state { state with queue }
  | call (args : SampleArgs) (hidle : state.call = none) :
      Step config state { state with call := some args }
  | poll {args : SampleArgs} {outcome : Outcome Uid Tag} {cache : Classifications Uid R}
      {queue : String → Partition Uid Tag R} (hcall : state.call = some args)
      (hpoll : poll config args (state.queue args.partitionId)
        (state.caches args.partitionId) = .ok (outcome, cache))
      (hqueue : state.Evolves queue) :
      Step config state {
        queue := Function.update queue args.partitionId
          (outcome.clear (state.queue args.partitionId) (queue args.partitionId))
        caches := Function.update state.caches args.partitionId cache
        call := match outcome with
          | .returned _ _ => none
          | _ => some args
        polls := state.polls ++ [⟨args, state.queue args.partitionId, .ok outcome⟩] }
  | raise {args : SampleArgs} {error : BufferError Uid R} (hcall : state.call = some args)
      (hpoll : poll config args (state.queue args.partitionId)
        (state.caches args.partitionId) = .error error) :
      Step config state { state with
        call := none
        polls := state.polls ++ [⟨args, state.queue args.partitionId, .error error⟩] }

inductive Run (config : BufferConfig Uid R) : State Uid Tag R → Prop
  | start (queue : String → Partition Uid Tag R) (caches : String → Classifications Uid R) :
      Run config ⟨queue, caches, none, []⟩
  | step {state next : State Uid Tag R} (hrun : Run config state)
      (hstep : Step config state next) : Run config next

/-- What is true of every poll. -/
structure PollRecord.Sound (config : BufferConfig Uid R) (record : PollRecord Uid Tag R) :
    Prop where
  outcome : ∀ outcome, record.result = .ok outcome →
    outcome.Sound config record.args record.snapshot
  not_stale : ∀ spans threshold, record.result ≠ .error (.staleSelected spans threshold)

/-- The invariant: cleared uids are gone, and no poll clears what another one
has cleared. -/
structure Accounted (config : BufferConfig Uid R) (state : State Uid Tag R) : Prop where
  sound : ∀ record ∈ state.polls, record.Sound config
  gone : ∀ partitionId uid, state.Cleared partitionId uid →
    uid ∉ (state.queue partitionId).prompts.keys
  disjoint : state.polls.Pairwise fun first second =>
    first.args.partitionId = second.args.partitionId →
      Disjoint (first.evicted ∪ first.returned) (second.evicted ∪ second.returned)

section Preserved

variable {config : BufferConfig Uid R} {state : State Uid Tag R}

theorem PollRecord.disjoint_evicted_returned (record : PollRecord Uid Tag R) :
    Disjoint record.evicted record.returned := by
  obtain ⟨args, snapshot, result⟩ := record
  cases result with
  | error error => simp [PollRecord.evicted]
  | ok outcome => cases outcome <;> simp [PollRecord.evicted, PollRecord.returned]

theorem union_eq_cleared (args : SampleArgs) (snapshot : Partition Uid Tag R)
    (outcome : Outcome Uid Tag) :
    (⟨args, snapshot, .ok outcome⟩ : PollRecord Uid Tag R).evicted ∪
      (⟨args, snapshot, .ok outcome⟩ : PollRecord Uid Tag R).returned = outcome.cleared := by
  cases outcome <;> simp [PollRecord.evicted, PollRecord.returned, Outcome.cleared]

theorem union_eq_empty (args : SampleArgs) (snapshot : Partition Uid Tag R)
    (error : BufferError Uid R) :
    (⟨args, snapshot, .error error⟩ : PollRecord Uid Tag R).evicted ∪
      (⟨args, snapshot, .error error⟩ : PollRecord Uid Tag R).returned = ∅ := by
  simp [PollRecord.evicted, PollRecord.returned]

theorem cleared_subset_terminal {args : SampleArgs} {snapshot : Partition Uid Tag R}
    {cache kept : Classifications Uid R} {outcome : Outcome Uid Tag}
    (hpoll : poll config args snapshot cache = .ok (outcome, kept)) :
    outcome.cleared ⊆ snapshot.terminal := by
  have hspec := poll_eq_ok hpoll
  cases outcome with
  | evicted uids refill => exact hspec.1
  | returned selected batch =>
      exact fun uid huid => hspec.1.mem_sampleable uid (List.mem_toFinset.mp huid)
  | waiting => exact Finset.empty_subset _

theorem mem_keys_clear {snapshot partition : Partition Uid Tag R} {outcome : Outcome Uid Tag}
    {uid : Uid} :
    uid ∈ (outcome.clear snapshot partition).prompts.keys ↔
      uid ∈ partition.prompts.keys ∧ uid ∉ outcome.cleared := by
  cases outcome <;> simp [Outcome.clear, Outcome.cleared, Partition.clearGroups]

theorem cleared_append {record : PollRecord Uid Tag R} {queue : String → Partition Uid Tag R}
    {caches : String → Classifications Uid R} {call : Option SampleArgs} {partitionId : String}
    {uid : Uid} :
    State.Cleared ⟨queue, caches, call, state.polls ++ [record]⟩ partitionId uid ↔
      state.Cleared partitionId uid ∨
        (record.args.partitionId = partitionId ∧ uid ∈ record.evicted ∪ record.returned) := by
  simp only [State.Cleared, List.mem_append, List.mem_singleton]
  constructor
  · rintro ⟨other, hother | rfl, hrest⟩
    · exact .inl ⟨other, hother, hrest⟩
    · exact .inr hrest
  · rintro (⟨other, hother, hrest⟩ | hrest)
    · exact ⟨other, .inl hother, hrest⟩
    · exact ⟨record, .inr rfl, hrest⟩

theorem Accounted.step (haccounted : Accounted config state) {next : State Uid Tag R}
    (hstep : Step config state next) : Accounted config next := by
  cases hstep with
  | queue hqueue => exact ⟨haccounted.sound, hqueue, haccounted.disjoint⟩
  | call args _ => exact ⟨haccounted.sound, haccounted.gone, haccounted.disjoint⟩
  | @poll args outcome cache queue _ hpoll hqueue =>
      refine ⟨fun record hrecord => ?_, fun partitionId uid hcleared hmem => ?_, ?_⟩
      · rcases List.mem_append.mp hrecord with hold | hnew
        · exact haccounted.sound record hold
        · rw [List.mem_singleton.mp hnew]
          exact ⟨fun outcome heq => Except.ok.inj heq ▸ poll_eq_ok hpoll, by simp⟩
      · rw [cleared_append, union_eq_cleared] at hcleared
        by_cases hid : partitionId = args.partitionId
        · subst hid
          simp only [Function.update_self, mem_keys_clear] at hmem
          rcases hcleared with hold | ⟨_, hnew⟩
          · exact hqueue _ uid hold hmem.1
          · exact hmem.2 hnew
        · simp only [Function.update_of_ne hid] at hmem
          rcases hcleared with hold | ⟨heq, _⟩
          · exact hqueue _ uid hold hmem
          · exact hid heq.symm
      · refine List.pairwise_append.mpr ⟨haccounted.disjoint, List.pairwise_singleton _ _, ?_⟩
        intro record hrecord last hlast hid
        rw [List.mem_singleton.mp hlast] at hid ⊢
        rw [union_eq_cleared]
        refine Finset.disjoint_left.mpr fun uid hfirst hsecond => ?_
        exact haccounted.gone _ uid ⟨record, hrecord, hid, hfirst⟩
          (Partition.mem_keys_of_mem_terminal (cleared_subset_terminal hpoll hsecond))
  | @raise args error _ hpoll =>
      refine ⟨fun record hrecord => ?_, fun partitionId uid hcleared => ?_, ?_⟩
      · rcases List.mem_append.mp hrecord with hold | hnew
        · exact haccounted.sound record hold
        · rw [List.mem_singleton.mp hnew]
          refine ⟨by simp, fun spans threshold heq => ?_⟩
          obtain rfl := Except.error.inj heq
          exact poll_ne_staleSelected _ spans threshold hpoll
      · rw [cleared_append, union_eq_empty] at hcleared
        exact haccounted.gone partitionId uid (hcleared.resolve_right (by simp))
      · refine List.pairwise_append.mpr ⟨haccounted.disjoint, List.pairwise_singleton _ _, ?_⟩
        intro record _ last hlast _
        rw [List.mem_singleton.mp hlast, union_eq_empty]
        exact Finset.disjoint_empty_right _

theorem accounted_of_run (hrun : Run config state) : Accounted config state := by
  induction hrun with
  | start queue caches => exact ⟨by simp, by simp [State.Cleared], .nil⟩
  | step _ hstep ih => exact ih.step hstep

end Preserved

/-- Whatever happens to the queue between the polls of the calls of `sample`:
every poll that evicts groups requests as many replacements, no uid is cleared
by two polls, the oldest of the sampleable groups are selected, as many as
requested, every batch holds those of them that have trajectories, and the
assertion about stale groups never fails. -/
theorem sample_accounting (config : BufferConfig Uid R) (hrefill : config.hasRefillFn = true)
    (state : State Uid Tag R) (hrun : Run config state) :
    (∀ record ∈ state.polls, ∀ uids refill, record.result = .ok (.evicted uids refill) →
      uids ⊆ record.snapshot.terminal ∧ refill = some uids.card) ∧
    (∀ first ∈ state.polls, ∀ second ∈ state.polls,
      first.args.partitionId = second.args.partitionId →
        Disjoint first.evicted second.returned) ∧
    (state.polls.Pairwise fun first second =>
      first.args.partitionId = second.args.partitionId →
        Disjoint first.returned second.returned) ∧
    (∀ record ∈ state.polls, ∀ selected batch,
      record.result = .ok (.returned selected batch) →
        Oldest record.snapshot record.snapshot.terminal record.args.batchSize selected ∧
          batch = materializeBatch record.args.partitionId selected record.snapshot ∧
            batch.groups = selected.toFinset ∩ record.snapshot.materializableUids ∧
              (batch.groups.card = record.args.batchSize ↔
                selected.toFinset ⊆ record.snapshot.materializableUids)) ∧
    ∀ record ∈ state.polls, ∀ spans threshold,
      record.result ≠ .error (.staleSelected spans threshold) := by
  have haccounted := accounted_of_run hrun
  refine ⟨fun record hrecord uids refill hresult => ?_, ?_, ?_,
    fun record hrecord selected batch hresult => ?_,
    fun record hrecord => (haccounted.sound record hrecord).not_stale⟩
  · obtain ⟨hterminal, hrefilled⟩ := (haccounted.sound record hrecord).outcome _ hresult
    exact ⟨hterminal, by rw [hrefilled, if_pos hrefill]⟩
  · have hlater := haccounted.disjoint.imp fun hdisjoint hid =>
      (hdisjoint hid).mono Finset.subset_union_left Finset.subset_union_right
    have hearlier := haccounted.disjoint.imp fun hdisjoint hid =>
      (hdisjoint (Eq.symm hid)).symm.mono Finset.subset_union_left Finset.subset_union_right
    intro first hfirst second hsecond
    exact List.Pairwise.forall_of_forall_of_flip
      (fun record _ _ => record.disjoint_evicted_returned) hlater hearlier hfirst hsecond
  · exact haccounted.disjoint.imp fun hdisjoint hid =>
      (hdisjoint hid).mono Finset.subset_union_right Finset.subset_union_right
  · obtain ⟨holdest, rfl⟩ := (haccounted.sound record hrecord).outcome _ hresult
    have hgroups := groups_materializeBatch record.args.partitionId selected record.snapshot
    refine ⟨holdest, rfl, hgroups, ?_⟩
    rw [← holdest.length_eq]
    exact card_groups_eq_iff holdest.nodup hgroups

/-- One group has finished. -/
def finishedGroup : Partition Bool Unit ℕ where
  prompts := ⟨[(false, ⟨.finished, 3⟩)], by decide⟩
  trajectories := ⟨[(⟨false, 0, 0⟩, ⟨(), none⟩)], by decide⟩

/-- Another group has failed. -/
def failedGroup : Partition Bool Unit ℕ where
  prompts := ⟨[(false, ⟨.finished, 3⟩), (true, ⟨.failure, 3⟩)], by decide⟩
  trajectories := finishedGroup.trajectories

def twoGroupsConfig : BufferConfig Bool ℕ where
  maxOffPolicyThreshold := 2
  maxOffPolicyStrategy := .wait
  hasRefillFn := true
  filterGroupsMetric := none
  trainBatchSize := 1
  genBatchSize := 1
  maxInflightGenBatches := 1
  syncRefillFailedGroups := false
  stdIsZero _ := false
  order := {
    toList uids := [false, true].filter fun uid => uid ∈ uids
    nodup_toList uids := List.Nodup.filter _ (by decide)
    mem_toList uids uid := by cases uid <;> simp }

/-- The failed group is evicted and replaced, and the finished one is returned. -/
theorem twoGroups_sample_accounting :
    ∃ (state : State Bool Unit ℕ) (first second : PollRecord Bool Unit ℕ),
      Run twoGroupsConfig state ∧ state.polls = [first, second] ∧
        first.result = .ok (.evicted {true} (some 1)) ∧ second.returned.Nonempty ∧
          Disjoint first.evicted second.returned := by
  let args : SampleArgs := ⟨4, "train", 1⟩
  let before : String → Partition Bool Unit ℕ := fun _ => failedGroup
  let after : String → Partition Bool Unit ℕ := fun _ => finishedGroup
  have hcall : Run twoGroupsConfig ⟨before, fun _ => .empty, some args, []⟩ :=
    (Run.start before fun _ => .empty).step (.call args rfl)
  have hevict : poll twoGroupsConfig args failedGroup .empty =
      .ok (.evicted {true} (some 1), .empty) := rfl
  let selected := selectPromptUids twoGroupsConfig finishedGroup {false} 1
  have hreturn : ∀ cache, poll twoGroupsConfig args finishedGroup cache =
      .ok (.returned selected (materializeBatch "train" selected finishedGroup), cache) :=
    fun _ => rfl
  have hselected : selected = [false] := by
    simp [selected, selectPromptUids, twoGroupsConfig]
  have hfresh : State.Evolves ⟨before, fun _ => .empty, some args, []⟩ before := by
    simp [State.Evolves, State.Cleared]
  obtain ⟨queue, caches, hevicted⟩ : ∃ queue caches, Run twoGroupsConfig
      ⟨queue, caches, some args, [⟨args, failedGroup, .ok (.evicted {true} (some 1))⟩]⟩ :=
    ⟨_, _, hcall.step (.poll rfl hevict hfresh)⟩
  have hgone : State.Evolves ⟨queue, caches, some args,
      [⟨args, failedGroup, .ok (.evicted {true} (some 1))⟩]⟩ after := by
    rintro partitionId uid ⟨record, hrecord, _, huid⟩
    rw [List.mem_singleton.mp hrecord, union_eq_cleared] at huid
    rw [Finset.mem_singleton.mp huid]
    decide
  have hreturned := (hevicted.step (.queue hgone)).step (.poll rfl (hreturn _) hgone)
  refine ⟨_, _, _, hreturned, rfl, rfl, ?_, ?_⟩
  · simp [PollRecord.returned, hselected]
  · exact (sample_accounting twoGroupsConfig rfl _ hreturned).2.1 _ (by simp) _ (by simp) rfl

/-- A group that has failed before any session wrote a trajectory. -/
def emptyGroup : Partition Bool Unit ℕ where
  prompts := failedGroup.prompts.filter fun uid => uid = true
  trajectories := .empty

/-- The validation partition evicts no failed group: it is selected, and the
batch of the one requested group holds none. -/
theorem emptyGroup_batch_short :
    ∃ (state : State Bool Unit ℕ) (record : PollRecord Bool Unit ℕ) (selected : List Bool)
      (batch : KVBatchMeta Bool Unit),
      Run twoGroupsConfig state ∧ record ∈ state.polls ∧ record.args.batchSize = 1 ∧
        record.result = .ok (.returned selected batch) ∧ batch.groups.card ≠ 1 := by
  let args : SampleArgs := ⟨4, "val", 1⟩
  let selected := selectPromptUids twoGroupsConfig emptyGroup {true} 1
  have hcall : Run twoGroupsConfig ⟨fun _ => emptyGroup, fun _ => .empty, some args, []⟩ :=
    (Run.start (fun _ => emptyGroup) fun _ => .empty).step (.call args rfl)
  have hpoll : poll twoGroupsConfig args emptyGroup .empty =
      .ok (.returned selected (materializeBatch "val" selected emptyGroup), .empty) := rfl
  have hfresh : State.Evolves ⟨fun _ => emptyGroup, fun _ => .empty, some args, []⟩
      (fun _ => emptyGroup) := by
    simp [State.Evolves, State.Cleared]
  refine ⟨_, _, _, _, hcall.step (.poll rfl hpoll hfresh), List.mem_singleton.mpr rfl, rfl, rfl,
    ?_⟩
  have hnone : emptyGroup.materializableUids = ∅ := rfl
  rw [groups_materializeBatch, hnone, Finset.inter_empty]
  decide

end OneShotOPD.ReplayBuffer.Async
