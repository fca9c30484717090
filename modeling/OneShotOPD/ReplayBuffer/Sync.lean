import OneShotOPD.ReplayBuffer.Metadata
import OneShotOPD.Core.Checks

/-!
# Sampling in the synchronous trainer

With DAPO filtering, a call of `sample` asks for new prompts in place of the
groups that it evicts, as long as too few groups can be sampled and there is
room for prompts in flight.  Once enough groups can be sampled it waits for the
prompts in flight, and discards what it does not select.
-/

namespace OneShotOPD.ReplayBuffer.Sync

open Checks

variable {Uid Tag R : Type} [DecidableEq Uid]

/-- The variables of the loop of `sample`. -/
structure LoopState where
  refillCredit : ℕ
  draining : Bool

inductive Outcome (Uid Tag : Type) where
  | refill (count : ℕ)
  | returned (selected : List Uid) (batch : KVBatchMeta Uid Tag) (surplus : Finset Uid)
  | waiting

/-- What one round of the loop sees and does. -/
structure Polled (Uid Tag R : Type) where
  evicted : Finset Uid
  sampleable : Finset Uid
  inflight : ℕ
  /-- The groups with trajectories. -/
  materializable : Finset Uid
  outcome : Outcome Uid Tag
  loop : LoopState
  cache : Classifications Uid R

section Poll

variable (config : BufferConfig Uid R) (args : SampleArgs) (snapshot : Partition Uid Tag R)

def dapoEnabled : Prop := args.partitionId ≠ "val" ∧ config.filterGroupsMetric ≠ none

instance : Decidable (dapoEnabled config args) :=
  inferInstanceAs (Decidable (_ ∧ _))

def maxInflightPrompts : ℕ := config.maxInflightGenBatches * config.trainBatchSize

def terminalEvictionReasons (cache : Classifications Uid R) :
    Except (BufferError Uid R) (EvictionReasons Uid × Classifications Uid R) :=
  if args.partitionId = "val" then .ok (.nothing, cache)
  else do
    let (dapo, cache) ← dapoFilteredKeys config args.partitionId snapshot cache
    let failed := if config.syncRefillFailedGroups then
        (snapshot.withStatus .failure).filter fun uid =>
          uid ∉ snapshot.trajectories.keys.map TrajectoryKey.uid
      else ∅
    return (⟨∅, dapo, failed⟩, cache)

/-- Every filtered group earns two credits, and every failed group one. -/
def accrue (reasons : EvictionReasons Uid) (enough : Prop) [Decidable enough]
    (loop : LoopState) : LoopState :=
  if enough then { refillCredit := 0, draining := true }
  else if loop.draining then loop
  else { loop with
    refillCredit := loop.refillCredit + (2 * reasons.dapo.card + reasons.failed.card) }

/-- As many credits as there are slots, in whole generation batches. -/
def dispatchCount (loop : LoopState) (inflight : ℕ) : ℕ :=
  if ¬ loop.draining ∧ 0 < loop.refillCredit then
    let count := min loop.refillCredit (maxInflightPrompts config - inflight)
    count - count % config.genBatchSize
  else 0

/-- One round of the loop of `sample`. -/
def poll (cache : Classifications Uid R) (loop : LoopState) :
    Except (BufferError Uid R) (Polled Uid Tag R) := do
  let (reasons, cache) ← terminalEvictionReasons config args snapshot cache
  let evicted := reasons.all
  let cache := cache.filter fun uid => uid ∉ evicted
  let snapshot := Partition.clearGroups snapshot snapshot evicted
  let sampleable := sampleableTerminalKeys snapshot reasons
  let inflight := (snapshot.withStatus .pending).card + (snapshot.withStatus .running).card
  let materializable := snapshot.materializableUids
  let enough := args.batchSize ≤ sampleable.card
  if ¬ dapoEnabled config args ∧ 0 < reasons.failed.card ∧ ¬ enough then
    return ⟨evicted, sampleable, inflight, materializable, .refill reasons.failed.card, loop,
      cache⟩
  else
    let loop := if dapoEnabled config args then accrue reasons enough loop else loop
    let count := if dapoEnabled config args then dispatchCount config loop inflight else 0
    if 0 < count then
      let loop := { loop with refillCredit := loop.refillCredit - count }
      return ⟨evicted, sampleable, inflight, materializable, .refill count, loop, cache⟩
    else if enough ∧ (¬ dapoEnabled config args ∨ inflight = 0) then
      let selected := selectPromptUids config snapshot sampleable args.batchSize
      let surplus := if dapoEnabled config args then sampleable \ selected.toFinset else ∅
      raiseIf (args.partitionId ≠ "val" ∧ snapshot.trajectoryKeys selected.toFinset = [])
        .noTrajectories
      let batch := materializeBatch args.partitionId selected snapshot
      return ⟨evicted, sampleable, inflight, materializable, .returned selected batch surplus,
        loop, cache.filter fun uid => uid ∉ surplus⟩
    else return ⟨evicted, sampleable, inflight, materializable, .waiting, loop, cache⟩

end Poll

/-- What a poll removes from the queue. -/
def Polled.cleared (polled : Polled Uid Tag R) : Finset Uid :=
  match polled.outcome with
  | .returned selected _ surplus => polled.evicted ∪ (surplus ∪ selected.toFinset)
  | _ => polled.evicted

def Polled.clear (snapshot : Partition Uid Tag R) (polled : Polled Uid Tag R)
    (partition : Partition Uid Tag R) : Partition Uid Tag R :=
  let partition := Partition.clearGroups snapshot partition polled.evicted
  match polled.outcome with
  | .returned selected _ surplus =>
      (Partition.clearGroups snapshot partition surplus).kvClear selected.toFinset []
  | _ => partition

/-! ## Runs of one call -/

/-- The workers bring prompts in flight forward.  Nothing happens to a terminal
group. -/
structure Progress (before after : Partition Uid Tag R) : Prop where
  keys_eq : after.prompts.keys = before.prompts.keys
  terminal : ∀ uid prompt, (uid, prompt) ∈ before.prompts.entries →
    prompt.status.IsTerminal → (uid, prompt) ∈ after.prompts.entries
  trajectories : ∀ key ∈ before.trajectories.keys, key.uid ∈ before.terminal →
    key ∈ after.trajectories.keys

/-- `refill_fn(count)` registers fresh prompts. -/
structure Submits (count : ℕ) (before after : Partition Uid Tag R) : Prop where
  prompts : ∃ (fresh : List Uid) (globalSteps : ℤ), fresh.length = count ∧
    after.prompts.entries = before.prompts.entries ++
      fresh.map fun uid => (uid, ⟨.pending, globalSteps⟩)
  trajectories : after.trajectories = before.trajectories

inductive Location where
  | polling
  | dispatching (count : ℕ)
  | done
  deriving DecidableEq

structure State (Uid Tag R : Type) where
  queue : Partition Uid Tag R
  cache : Classifications Uid R
  loop : LoopState
  location : Location
  polls : List (Polled Uid Tag R)

def Outcome.location : Outcome Uid Tag → Location
  | .refill count => .dispatching count
  | .returned _ _ _ => .done
  | .waiting => .polling

/-- Between the snapshot of a poll and the removal of its groups the workers go
on. -/
inductive Step (config : BufferConfig Uid R) (args : SampleArgs) (state : State Uid Tag R) :
    State Uid Tag R → Prop
  | workers {queue : Partition Uid Tag R} (hprogress : Progress state.queue queue) :
      Step config args state { state with queue }
  | poll {polled : Polled Uid Tag R} {queue : Partition Uid Tag R}
      (hlocation : state.location = .polling)
      (hpoll : poll config args state.queue state.cache state.loop = .ok polled)
      (hprogress : Progress state.queue queue) :
      Step config args state {
        queue := polled.clear state.queue queue
        cache := polled.cache
        loop := polled.loop
        location := polled.outcome.location
        polls := state.polls ++ [polled] }
  | dispatch {count : ℕ} {queue : Partition Uid Tag R}
      (hlocation : state.location = .dispatching count)
      (hsubmits : Submits count state.queue queue) :
      Step config args state { state with queue, location := .polling }
  | raise {error : BufferError Uid R} (hlocation : state.location = .polling)
      (hpoll : poll config args state.queue state.cache state.loop = .error error) :
      Step config args state { state with location := .done }

inductive Run (config : BufferConfig Uid R) (args : SampleArgs) (queue : Partition Uid Tag R) :
    State Uid Tag R → Prop
  | start (cache : Classifications Uid R) :
      Run config args queue ⟨queue, cache, ⟨0, false⟩, .polling, []⟩
  | step {state next : State Uid Tag R} (hrun : Run config args queue state)
      (hstep : Step config args state next) : Run config args queue next

/-! ## One poll -/

/-- The prompts that a poll requests. -/
def Outcome.requested : Outcome Uid Tag → ℕ
  | .refill count => count
  | _ => 0

theorem mem_terminalEvictionReasons {config : BufferConfig Uid R} {args : SampleArgs}
    {snapshot : Partition Uid Tag R} {cache kept : Classifications Uid R}
    {reasons : EvictionReasons Uid} (htrain : args.partitionId ≠ "val")
    (hreasons : terminalEvictionReasons config args snapshot cache = .ok (reasons, kept)) :
    dapoFilteredKeys config args.partitionId snapshot cache = .ok (reasons.dapo, kept) ∧
      reasons.stale = ∅ ∧ reasons.failed = if config.syncRefillFailedGroups then
        (snapshot.withStatus .failure).filter fun uid =>
          uid ∉ snapshot.trajectories.keys.map TrajectoryKey.uid
      else ∅ := by
  rw [terminalEvictionReasons, if_neg htrain] at hreasons
  obtain ⟨⟨dapo, filtered⟩, hfiltered, hreasons⟩ := bind_eq_ok.mp hreasons
  cases hreasons
  exact ⟨hfiltered, rfl, rfl⟩

/-- What a poll does with DAPO filtering and single prompts. -/
structure Polled.Follows (config : BufferConfig Uid R) (args : SampleArgs)
    (snapshot : Partition Uid Tag R) (cache : Classifications Uid R) (loop : LoopState)
    (reasons : EvictionReasons Uid) (kept : Classifications Uid R)
    (polled : Polled Uid Tag R) : Prop where
  reasons_eq : terminalEvictionReasons config args snapshot cache = .ok (reasons, kept)
  evicted : polled.evicted = reasons.all
  sampleable : polled.sampleable = snapshot.terminal \ reasons.all
  inflight : polled.inflight = snapshot.inflight.card
  loop : polled.loop.draining = (accrue reasons (args.batchSize ≤ polled.sampleable.card)
    loop).draining ∧ polled.loop.refillCredit + polled.outcome.requested =
      (accrue reasons (args.batchSize ≤ polled.sampleable.card) loop).refillCredit
  refill : ∀ count, polled.outcome = .refill count →
    polled.loop.draining = false ∧ polled.inflight + count ≤ maxInflightPrompts config
  returned : ∀ selected batch surplus, polled.outcome = .returned selected batch surplus →
    selected.Nodup ∧ selected.length = args.batchSize ∧ selected.toFinset ⊆ polled.sampleable ∧
      (∀ key ∈ batch.keys, key.uid ∈ selected) ∧
        batch.groups = selected.toFinset ∩ polled.materializable ∧
          surplus = polled.sampleable \ selected.toFinset ∧ polled.inflight = 0
  waiting : polled.outcome = .waiting → polled.inflight = 0 →
    polled.sampleable.card < args.batchSize ∧ (polled.loop.draining = true ∨
      polled.loop.refillCredit = 0 ∨ maxInflightPrompts config = 0)
  cache : (∀ selected batch surplus, polled.outcome ≠ .returned selected batch surplus) →
    polled.cache = kept.filter fun uid => uid ∉ polled.evicted

section Follows

variable {config : BufferConfig Uid R} {args : SampleArgs} {snapshot : Partition Uid Tag R}
  {cache kept : Classifications Uid R} {loop : LoopState} {reasons : EvictionReasons Uid}

theorem all_subset_terminal
    (hreasons : terminalEvictionReasons config args snapshot cache = .ok (reasons, kept)) :
    reasons.all ⊆ snapshot.terminal := by
  by_cases htrain : args.partitionId = "val"
  · rw [terminalEvictionReasons, if_pos htrain] at hreasons
    cases hreasons
    exact Finset.empty_subset _
  · obtain ⟨hfiltered, hstale, hfailed⟩ := mem_terminalEvictionReasons htrain hreasons
    rw [EvictionReasons.all, hstale, Finset.empty_union]
    refine Finset.union_subset ?_ ?_
    · exact (dapoFilteredKeys_subset hfiltered).trans Finset.subset_union_left
    · rw [hfailed]
      split
      next => exact (Finset.filter_subset _ _).trans Finset.subset_union_right
      next => exact Finset.empty_subset _

theorem sampleable_clearGroups (snapshot : Partition Uid Tag R)
    (reasons : EvictionReasons Uid) :
    sampleableTerminalKeys (Partition.clearGroups snapshot snapshot reasons.all) reasons =
      snapshot.terminal \ reasons.all := by
  rw [sampleableTerminalKeys, Partition.clearGroups, Partition.terminal,
    Partition.withStatus_kvClear, Partition.withStatus_kvClear, ← Finset.union_sdiff_distrib,
    Finset.sdiff_idem]
  rfl

theorem inflight_clearGroups (snapshot : Partition Uid Tag R) {uids : Finset Uid}
    (huids : uids ⊆ snapshot.terminal) :
    ((Partition.clearGroups snapshot snapshot uids).withStatus .pending).card +
        ((Partition.clearGroups snapshot snapshot uids).withStatus .running).card =
      snapshot.inflight.card := by
  have hkept : ∀ status, snapshot.withStatus status ⊆ snapshot.inflight →
      (Partition.clearGroups snapshot snapshot uids).withStatus status =
        snapshot.withStatus status := fun status hstatus => by
    rw [Partition.clearGroups, Partition.withStatus_kvClear]
    exact Finset.sdiff_eq_self_of_disjoint
      (snapshot.disjoint_terminal_inflight.symm.mono hstatus huids)
  rw [hkept .pending Finset.subset_union_left, hkept .running Finset.subset_union_right,
    ← Finset.card_union_of_disjoint (snapshot.disjoint_withStatus (by decide))]
  rfl

/-- What a poll removes, with or without DAPO filtering. -/
theorem poll_eq_ok {polled : Polled Uid Tag R}
    (hpoll : poll config args snapshot cache loop = .ok polled) :
    polled.evicted ⊆ snapshot.terminal ∧
      ∀ selected batch surplus, polled.outcome = .returned selected batch surplus →
        selected.toFinset ∪ surplus ⊆ snapshot.terminal \ polled.evicted ∧
          batch = materializeBatch args.partitionId selected
            (Partition.clearGroups snapshot snapshot polled.evicted) := by
  obtain ⟨⟨reasons, kept⟩, hreasons, hpoll⟩ := bind_eq_ok.mp hpoll
  have hevicted := all_subset_terminal hreasons
  dsimp only at hpoll
  rw [sampleable_clearGroups] at hpoll
  generalize (if dapoEnabled config args then dispatchCount config _ _ else 0) = count at hpoll
  split at hpoll
  next =>
    cases hpoll
    exact ⟨hevicted, by simp⟩
  next =>
    by_cases hcount : 0 < count
    · rw [if_pos hcount] at hpoll
      cases hpoll
      exact ⟨hevicted, by simp⟩
    · rw [if_neg hcount] at hpoll
      split at hpoll
      next henough =>
        rw [raiseIf_bind_eq_ok] at hpoll
        obtain ⟨_, hpoll⟩ := hpoll
        cases hpoll
        refine ⟨hevicted, fun selected batch surplus heq => ?_⟩
        obtain ⟨rfl, rfl, rfl⟩ := Outcome.returned.inj heq
        have holdest := oldest_selectPromptUids config
          (Partition.clearGroups snapshot snapshot reasons.all) henough.1
        refine ⟨Finset.union_subset (fun uid huid => ?_) ?_, rfl⟩
        · exact holdest.mem_sampleable uid (List.mem_toFinset.mp huid)
        · split
          next => exact Finset.sdiff_subset
          next => exact Finset.empty_subset _
      next =>
        cases hpoll
        exact ⟨hevicted, by simp⟩

omit [DecidableEq Uid] in
theorem dispatchCount_eq (hgen : config.genBatchSize = 1) (loop : LoopState) (inflight : ℕ) :
    dispatchCount config loop inflight = if ¬ loop.draining ∧ 0 < loop.refillCredit then
      min loop.refillCredit (maxInflightPrompts config - inflight) else 0 := by
  simp [dispatchCount, hgen, Nat.mod_one]

theorem poll_follows (hdapo : dapoEnabled config args) (hgen : config.genBatchSize = 1)
    {polled : Polled Uid Tag R} (hpoll : poll config args snapshot cache loop = .ok polled) :
    ∃ reasons kept, polled.Follows config args snapshot cache loop reasons kept := by
  obtain ⟨⟨reasons, kept⟩, hreasons, hpoll⟩ := bind_eq_ok.mp hpoll
  refine ⟨reasons, kept, ?_⟩
  have hinflight := inflight_clearGroups snapshot (all_subset_terminal hreasons)
  dsimp only at hpoll
  rw [sampleable_clearGroups, hinflight] at hpoll
  simp only [hdapo, not_true, false_and, if_false, if_true, false_or] at hpoll
  split at hpoll
  next hcount =>
    cases hpoll
    rw [dispatchCount_eq hgen] at hcount ⊢
    split at hcount
    next hopen =>
      rw [if_pos hopen]
      refine ⟨hreasons, rfl, rfl, rfl, ⟨rfl, ?_⟩, ?_, by simp, by simp, fun _ => rfl⟩
      · exact Nat.sub_add_cancel (min_le_left _ _)
      · rintro count heq
        obtain rfl := Outcome.refill.inj heq
        refine ⟨by simpa using hopen.1, ?_⟩
        dsimp only
        omega
    next => exact absurd hcount (Nat.lt_irrefl 0)
  next hcount =>
    split at hpoll
    next henough =>
      rw [raiseIf_bind_eq_ok] at hpoll
      obtain ⟨_, hpoll⟩ := hpoll
      cases hpoll
      refine ⟨hreasons, rfl, rfl, rfl, ⟨rfl, rfl⟩, by simp, ?_, by simp, ?_⟩
      · rintro selected batch surplus heq
        obtain ⟨rfl, rfl, rfl⟩ := Outcome.returned.inj heq
        have holdest := oldest_selectPromptUids config
          (Partition.clearGroups snapshot snapshot reasons.all) henough.1
        refine ⟨holdest.nodup, holdest.length_eq, fun uid huid => ?_,
          fun key hkey => (mem_keys_materializeBatch.mp hkey).2,
          groups_materializeBatch _ _ _, rfl, henough.2⟩
        exact holdest.mem_sampleable uid (List.mem_toFinset.mp huid)
      · exact fun hreturned => absurd rfl (hreturned _ _ _)
    next hwait =>
      cases hpoll
      refine ⟨hreasons, rfl, rfl, rfl, ⟨rfl, rfl⟩, by simp, by simp, fun _ hzero => ?_,
        fun _ => rfl⟩
      dsimp only at hzero ⊢
      refine ⟨not_le.mp fun henough => hwait ⟨henough, hzero⟩, ?_⟩
      rw [dispatchCount_eq hgen, hzero, Nat.sub_zero] at hcount
      by_cases hdraining : (accrue reasons (args.batchSize ≤ (snapshot.terminal \ reasons.all).card)
          loop).draining = true
      · exact .inl hdraining
      · refine .inr ?_
        by_contra hmore
        rw [not_or] at hmore
        rw [if_pos ⟨hdraining, Nat.pos_of_ne_zero hmore.1⟩] at hcount
        omega

theorem card_all_le (hdapo : dapoEnabled config args)
    (hreasons : terminalEvictionReasons config args snapshot cache = .ok (reasons, kept)) :
    reasons.all.card ≤ reasons.dapo.card + reasons.failed.card := by
  rw [EvictionReasons.all, (mem_terminalEvictionReasons hdapo.1 hreasons).2.1,
    Finset.empty_union]
  exact Finset.card_union_le _ _

end Follows

/-! ## How the queue changes -/

section Queue

variable {before after snapshot : Partition Uid Tag R} {status : Status}

theorem Progress.uids_eq (hprogress : Progress before after) : after.uids = before.uids := by
  rw [Partition.uids, hprogress.keys_eq]
  rfl

theorem Progress.withStatus_subset (hprogress : Progress before after)
    (hterminal : status.IsTerminal) : before.withStatus status ⊆ after.withStatus status := by
  intro uid huid
  obtain ⟨prompt, hentry, rfl⟩ := Partition.mem_withStatus.mp huid
  exact Partition.mem_withStatus.mpr
    ⟨prompt, hprogress.terminal uid prompt hentry hterminal, rfl⟩

theorem Progress.inflight_subset (hprogress : Progress before after) :
    after.inflight ⊆ before.inflight := by
  intro uid huid
  have hbefore : uid ∈ before.uids := by
    rw [← hprogress.uids_eq, ← after.terminal_union_inflight]
    exact Finset.mem_union_right _ huid
  rw [← before.terminal_union_inflight] at hbefore
  refine (Finset.mem_union.mp hbefore).resolve_left fun hterminal => ?_
  have hafter : uid ∈ after.terminal := Finset.union_subset_union
    (hprogress.withStatus_subset (.inl rfl)) (hprogress.withStatus_subset (.inr rfl)) hterminal
  exact Finset.disjoint_left.mp after.disjoint_terminal_inflight hafter huid

theorem withStatus_clear (polled : Polled Uid Tag R) (snapshot partition : Partition Uid Tag R)
    (status : Status) :
    (polled.clear snapshot partition).withStatus status =
      partition.withStatus status \ polled.cleared := by
  rw [Polled.clear, Polled.cleared]
  split
  next =>
    ext uid
    simp [Partition.clearGroups, Partition.withStatus_kvClear, and_assoc]
  next => exact Partition.withStatus_kvClear _ _ _ _

theorem cleared_eq_evicted {polled : Polled Uid Tag R}
    (hopen : ∀ selected batch surplus, polled.outcome ≠ .returned selected batch surplus) :
    polled.cleared = polled.evicted := by
  rw [Polled.cleared]
  split
  next heq => exact absurd heq (hopen _ _ _)
  next => rfl

theorem trajectories_clear {polled : Polled Uid Tag R} {snapshot partition : Partition Uid Tag R}
    (hopen : ∀ selected batch surplus, polled.outcome ≠ .returned selected batch surplus) :
    (polled.clear snapshot partition).trajectories =
      partition.trajectories.filter fun key => key ∉ snapshot.trajectoryKeys polled.evicted := by
  rw [Polled.clear]
  split
  next heq => exact absurd heq (hopen _ _ _)
  next => rfl

theorem inflight_clear (polled : Polled Uid Tag R) (snapshot partition : Partition Uid Tag R) :
    (polled.clear snapshot partition).inflight = partition.inflight \ polled.cleared := by
  rw [Partition.inflight, withStatus_clear, withStatus_clear, ← Finset.union_sdiff_distrib]
  rfl

theorem uids_clear (polled : Polled Uid Tag R) (snapshot partition : Partition Uid Tag R) :
    (polled.clear snapshot partition).uids = partition.uids \ polled.cleared := by
  rw [← Partition.terminal_union_inflight, ← Partition.terminal_union_inflight, inflight_clear,
    Partition.terminal, withStatus_clear, withStatus_clear, ← Finset.union_sdiff_distrib,
    ← Finset.union_sdiff_distrib]
  rfl

theorem card_uids (partition : Partition Uid Tag R) :
    partition.uids.card = partition.prompts.entries.length := by
  rw [Partition.uids, List.toFinset_card_of_nodup partition.prompts.keys_nodup, Dict.keys,
    List.length_map]

theorem Submits.card_uids {count : ℕ} (hsubmits : Submits count before after) :
    after.uids.card = before.uids.card + count := by
  obtain ⟨fresh, globalSteps, hlength, hentries⟩ := hsubmits.prompts
  rw [Sync.card_uids, Sync.card_uids, hentries, List.length_append, List.length_map, hlength]

theorem Submits.withStatus_subset {count : ℕ} (hsubmits : Submits count before after) :
    before.withStatus status ⊆ after.withStatus status := by
  obtain ⟨fresh, globalSteps, _, hentries⟩ := hsubmits.prompts
  intro uid huid
  obtain ⟨prompt, hentry, hstatus⟩ := Partition.mem_withStatus.mp huid
  refine Partition.mem_withStatus.mpr ⟨prompt, ?_, hstatus⟩
  rw [hentries]
  exact List.mem_append_left _ hentry

theorem Submits.card_inflight_le {count : ℕ} (hsubmits : Submits count before after) :
    after.inflight.card ≤ before.inflight.card + count := by
  have hterminal : before.terminal ⊆ after.terminal :=
    Finset.union_subset_union hsubmits.withStatus_subset hsubmits.withStatus_subset
  have hcard := Finset.card_le_card hterminal
  have hbefore := before.card_terminal_add_card_inflight
  have hafter := after.card_terminal_add_card_inflight
  have hall := hsubmits.card_uids
  omega

end Queue

/-! ## Groups that stay sampleable -/

/-- The group has been classified as one that is kept. -/
def IsStable (config : BufferConfig Uid R) (queue : Partition Uid Tag R)
    (cache : Classifications Uid R) (uid : Uid) : Prop :=
  (uid ∈ queue.withStatus .finished ∧ cache.get? uid = some none) ∨
    (uid ∈ queue.withStatus .failure ∧ (config.syncRefillFailedGroups = true →
      uid ∈ queue.trajectories.keys.map TrajectoryKey.uid))

section Stable

variable {config : BufferConfig Uid R} {args : SampleArgs} {uid : Uid}
  {queue snapshot before after : Partition Uid Tag R} {cache kept : Classifications Uid R}
  {loop : LoopState} {reasons : EvictionReasons Uid} {polled : Polled Uid Tag R}

theorem Progress.isStable (hprogress : Progress before after)
    (hstable : IsStable config before cache uid) : IsStable config after cache uid := by
  rcases hstable with ⟨hfinished, hcache⟩ | ⟨hfailure, htrajectories⟩
  · exact .inl ⟨hprogress.withStatus_subset (.inl rfl) hfinished, hcache⟩
  · refine .inr ⟨hprogress.withStatus_subset (.inr rfl) hfailure, fun hrefill => ?_⟩
    obtain ⟨key, hkey, rfl⟩ := List.mem_map.mp (htrajectories hrefill)
    exact List.mem_map_of_mem (hprogress.trajectories key hkey
      (Finset.mem_union_right _ hfailure))

theorem Submits.isStable {count : ℕ} (hsubmits : Submits count before after)
    (hstable : IsStable config before cache uid) : IsStable config after cache uid := by
  rcases hstable with ⟨hfinished, hcache⟩ | ⟨hfailure, htrajectories⟩
  · exact .inl ⟨hsubmits.withStatus_subset hfinished, hcache⟩
  · refine .inr ⟨hsubmits.withStatus_subset hfailure, fun hrefill => ?_⟩
    rw [hsubmits.trajectories]
    exact htrajectories hrefill

/-- A group that was kept is sampleable at the next poll. -/
theorem IsStable.mem_sampleable (hdapo : dapoEnabled config args)
    (hfollows : polled.Follows config args snapshot cache loop reasons kept)
    (hstable : IsStable config snapshot cache uid) : uid ∈ polled.sampleable := by
  obtain ⟨hfiltered, hstale, hfailed⟩ := mem_terminalEvictionReasons hdapo.1 hfollows.reasons_eq
  have hsubset := dapoFilteredKeys_subset hfiltered
  obtain ⟨hkept, _, hdapoUids⟩ := dapoFilteredKeys_eq_ok hdapo.2 hdapo.1 hfiltered
  have hstatus := snapshot.disjoint_withStatus (by decide : Status.finished ≠ .failure)
  rw [hfollows.sampleable, EvictionReasons.all, hstale, Finset.empty_union, hfailed,
    Finset.mem_sdiff, Finset.mem_union, not_or]
  rcases hstable with ⟨hfinished, hcache⟩ | ⟨hfailure, htrajectories⟩
  · refine ⟨Finset.mem_union_left _ hfinished, fun hmem => ?_, fun hmem => ?_⟩
    · obtain ⟨value, hvalue⟩ := (hdapoUids uid).mp hmem
      obtain ⟨found, hfound, hsame⟩ := hkept uid hfinished
      rw [hsame none hcache, hvalue] at hfound
      cases hfound
    · split at hmem
      next => exact Finset.disjoint_left.mp hstatus hfinished (Finset.mem_filter.mp hmem).1
      next => simp at hmem
  · refine ⟨Finset.mem_union_right _ hfailure, fun hmem => ?_, fun hmem => ?_⟩
    · exact Finset.disjoint_left.mp hstatus (hsubset hmem) hfailure
    · split at hmem
      next hrefill => exact (Finset.mem_filter.mp hmem).2 (htrajectories hrefill)
      next => simp at hmem

/-- A group that is sampleable is kept. -/
theorem isStable_of_mem_sampleable (hdapo : dapoEnabled config args)
    (hfollows : polled.Follows config args snapshot cache loop reasons kept)
    (hopen : ∀ selected batch surplus, polled.outcome ≠ .returned selected batch surplus)
    (hprogress : Progress snapshot queue) (huid : uid ∈ polled.sampleable) :
    IsStable config (polled.clear snapshot queue) polled.cache uid := by
  obtain ⟨hfiltered, hstale, hfailed⟩ := mem_terminalEvictionReasons hdapo.1 hfollows.reasons_eq
  obtain ⟨hkept, _, hdapoUids⟩ := dapoFilteredKeys_eq_ok hdapo.2 hdapo.1 hfiltered
  have hcleared := cleared_eq_evicted hopen
  rw [hfollows.sampleable, ← hfollows.evicted, Finset.mem_sdiff] at huid
  obtain ⟨hterminal, hevicted⟩ := huid
  have hall := hevicted
  rw [hfollows.evicted, EvictionReasons.all, hstale, Finset.empty_union, Finset.mem_union,
    not_or] at hall
  have hstatus : ∀ {status : Status}, status.IsTerminal → uid ∈ snapshot.withStatus status →
      uid ∈ (polled.clear snapshot queue).withStatus status := fun hterminal hmem => by
    rw [withStatus_clear, hcleared]
    exact Finset.mem_sdiff.mpr ⟨hprogress.withStatus_subset hterminal hmem, hevicted⟩
  rcases Finset.mem_union.mp hterminal with hfinished | hfailure
  · refine .inl ⟨hstatus (.inl rfl) hfinished, ?_⟩
    obtain ⟨value, hvalue, _⟩ := hkept uid hfinished
    rw [hfollows.cache hopen, Dict.get?_filter, if_pos hevicted, hvalue]
    cases value with
    | none => rfl
    | some value => exact absurd ((hdapoUids uid).mpr ⟨value, hvalue⟩) hall.1
  · refine .inr ⟨hstatus (.inr rfl) hfailure, fun hrefill => ?_⟩
    have htrajectories : uid ∈ snapshot.trajectories.keys.map TrajectoryKey.uid := by
      by_contra hnone
      rw [hfailed, if_pos hrefill] at hall
      exact hall.2 (Finset.mem_filter.mpr ⟨hfailure, hnone⟩)
    obtain ⟨key, hkey, rfl⟩ := List.mem_map.mp htrajectories
    refine List.mem_map_of_mem ?_
    rw [trajectories_clear hopen, Dict.mem_keys_filter]
    refine ⟨hprogress.trajectories key hkey hterminal, fun hmem => hevicted ?_⟩
    simpa using (List.mem_filter.mp hmem).2

end Stable

end OneShotOPD.ReplayBuffer.Sync
