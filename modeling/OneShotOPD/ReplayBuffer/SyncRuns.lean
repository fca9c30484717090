import OneShotOPD.ReplayBuffer.Sync
import Mathlib

/-!
# Synchronous sampling never starves

As long as too few groups can be sampled, the credits for new prompts make up
for the groups that have been evicted.  Once enough groups can be sampled they
stay so, and no further prompt is requested.
-/

namespace OneShotOPD.ReplayBuffer.Sync

open Checks

variable {Uid Tag R : Type} [DecidableEq Uid]

def Location.requested : Location → ℕ
  | .dispatching count => count
  | _ => 0

/-- What holds of every poll. -/
structure Polled.Fed (config : BufferConfig Uid R) (args : SampleArgs) (initial : ℕ)
    (polled : Polled Uid Tag R) : Prop where
  fed : args.batchSize ≤ polled.sampleable.card + polled.inflight +
    (polled.loop.refillCredit + polled.outcome.requested)
  awake : polled.outcome = .waiting → 0 < polled.inflight
  bounded : polled.inflight + polled.outcome.requested ≤
    max (maxInflightPrompts config) initial
  no_refill : args.batchSize ≤ polled.sampleable.card → ∀ count,
    polled.outcome ≠ .refill count
  returned : ∀ selected batch surplus, polled.outcome = .returned selected batch surplus →
    selected.Nodup ∧ selected.length = args.batchSize ∧ selected.toFinset ⊆ polled.sampleable ∧
      (∀ key ∈ batch.keys, key.uid ∈ selected) ∧
        batch.groups = selected.toFinset ∩ polled.materializable ∧
          surplus = polled.sampleable \ selected.toFinset

/-- The invariant of a call.  The queue and the credits together hold enough
prompts, or enough groups are known to be kept. -/
structure State.Fed (config : BufferConfig Uid R) (args : SampleArgs) (initial : ℕ)
    (state : State Uid Tag R) : Prop where
  credit : state.loop.draining = false → state.location ≠ .done → args.batchSize ≤
    state.queue.uids.card + (state.loop.refillCredit + state.location.requested)
  stable : state.loop.draining = true → state.location ≠ .done → ∃ stable : Finset Uid,
    args.batchSize ≤ stable.card ∧
      ∀ uid ∈ stable, IsStable config state.queue state.cache uid
  inflight : state.queue.inflight.card + state.location.requested ≤
    max (maxInflightPrompts config) initial
  polls : ∀ polled ∈ state.polls, polled.Fed config args initial
  draining : ∀ polled ∈ state.polls, args.batchSize ≤ polled.sampleable.card →
    state.loop.draining = true
  ordered : state.polls.Pairwise fun first second =>
    args.batchSize ≤ first.sampleable.card → ∀ count, second.outcome ≠ .refill count
  returned : ∀ polled ∈ state.polls, ∀ selected batch surplus,
    polled.outcome = .returned selected batch surplus →
      state.location = .done ∧ state.queue.uids = ∅

section Invariant

variable {config : BufferConfig Uid R} {args : SampleArgs} {initial : ℕ}
  {state : State Uid Tag R} {polled : Polled Uid Tag R} {queue : Partition Uid Tag R}
  {kept : Classifications Uid R} {reasons : EvictionReasons Uid}

omit [DecidableEq Uid] in
theorem Outcome.location_requested (outcome : Outcome Uid Tag) :
    outcome.location.requested = outcome.requested := by
  cases outcome <;> rfl

/-- Once the buffer drains, every poll finds enough groups. -/
theorem enough_of_draining (hdapo : dapoEnabled config args)
    (hfed : state.Fed config args initial) (hlocation : state.location = .polling)
    (hfollows : polled.Follows config args state.queue state.cache state.loop reasons kept)
    (hdraining : state.loop.draining = true) : args.batchSize ≤ polled.sampleable.card := by
  obtain ⟨stable, hcard, hstable⟩ := hfed.stable hdraining (by simp [hlocation])
  refine hcard.trans (Finset.card_le_card fun uid huid => ?_)
  exact (hstable uid huid).mem_sampleable hdapo hfollows

/-- Sampleable groups, prompts in flight and evicted groups make up the queue. -/
theorem card_uids_eq
    (hfollows : polled.Follows config args state.queue state.cache state.loop reasons kept) :
    state.queue.uids.card =
      polled.sampleable.card + polled.evicted.card + polled.inflight := by
  rw [hfollows.sampleable, hfollows.evicted, hfollows.inflight,
    Finset.card_sdiff_add_card_eq_card (all_subset_terminal hfollows.reasons_eq),
    Partition.card_terminal_add_card_inflight]

/-- How the loop goes on, by whether there are enough groups. -/
theorem loop_eq (hdapo : dapoEnabled config args) (hfed : state.Fed config args initial)
    (hlocation : state.location = .polling)
    (hfollows : polled.Follows config args state.queue state.cache state.loop reasons kept) :
    (args.batchSize ≤ polled.sampleable.card ∧ polled.loop.draining = true ∧
        polled.loop.refillCredit + polled.outcome.requested = 0) ∨
      (polled.sampleable.card < args.batchSize ∧ state.loop.draining = false ∧
        polled.loop.draining = false ∧
        polled.loop.refillCredit + polled.outcome.requested =
          state.loop.refillCredit + (2 * reasons.dapo.card + reasons.failed.card)) := by
  obtain ⟨hdraining, hcredit⟩ := hfollows.loop
  by_cases henough : args.batchSize ≤ polled.sampleable.card
  · rw [accrue, if_pos henough] at hdraining hcredit
    exact .inl ⟨henough, hdraining, hcredit⟩
  · have hopen : state.loop.draining = false := by
      by_contra hdrains
      exact henough (enough_of_draining hdapo hfed hlocation hfollows (by simpa using hdrains))
    rw [accrue, if_neg henough, if_neg (by simp [hopen])] at hdraining hcredit
    exact .inr ⟨not_le.mp henough, hopen, hdraining.trans hopen, hcredit⟩

theorem Polled.fed_of_follows (hdapo : dapoEnabled config args)
    (hslots : 0 < maxInflightPrompts config) (hfed : state.Fed config args initial)
    (hlocation : state.location = .polling)
    (hfollows : polled.Follows config args state.queue state.cache state.loop reasons kept) :
    polled.Fed config args initial := by
  have hcard := card_uids_eq hfollows
  have hevicted : polled.evicted.card ≤ reasons.dapo.card + reasons.failed.card :=
    hfollows.evicted ▸ card_all_le hdapo hfollows.reasons_eq
  have hloop := loop_eq hdapo hfed hlocation hfollows
  have hfedPolled : args.batchSize ≤ polled.sampleable.card + polled.inflight +
      (polled.loop.refillCredit + polled.outcome.requested) := by
    rcases hloop with ⟨henough, _⟩ | ⟨_, hopen, _, hcredit⟩
    · omega
    · have hbefore := hfed.credit hopen (by simp [hlocation])
      rw [hlocation] at hbefore
      simp only [Location.requested] at hbefore
      omega
  refine ⟨hfedPolled, fun hwaiting => ?_, ?_, fun henough count hrefill => ?_,
    fun selected batch surplus hreturned => ?_⟩
  · refine Nat.pos_of_ne_zero fun hzero => ?_
    obtain ⟨hfew, hstop⟩ := hfollows.waiting hwaiting hzero
    rw [hwaiting, hzero] at hfedPolled
    simp only [Outcome.requested] at hfedPolled
    rcases hloop with ⟨henough, _⟩ | ⟨_, _, hopen, _⟩
    · omega
    · rcases hstop with hdraining | hcredit | hmax
      · rw [hopen] at hdraining
        cases hdraining
      · omega
      · omega
  · cases houtcome : polled.outcome with
    | refill count =>
        exact le_max_of_le_left (hfollows.refill count houtcome).2
    | returned selected batch surplus =>
        have hbefore := hfed.inflight
        rw [← hfollows.inflight] at hbefore
        simp only [Outcome.requested]
        omega
    | waiting =>
        have hbefore := hfed.inflight
        rw [← hfollows.inflight] at hbefore
        simp only [Outcome.requested]
        omega
  · rcases hloop with ⟨_, hdraining, _⟩ | ⟨hfew, _⟩
    · rw [(hfollows.refill count hrefill).1] at hdraining
      cases hdraining
    · omega
  · obtain ⟨hnodup, hlength, hsubset, hkeys, hgroups, hsurplus, _⟩ :=
      hfollows.returned selected batch surplus hreturned
    exact ⟨hnodup, hlength, hsubset, hkeys, hgroups, hsurplus⟩

/-- A poll that returns leaves no prompt behind. -/
theorem uids_clear_of_returned
    (hfollows : polled.Follows config args state.queue state.cache state.loop reasons kept)
    (hprogress : Progress state.queue queue) {selected : List Uid} {batch : KVBatchMeta Uid Tag}
    {surplus : Finset Uid} (hreturned : polled.outcome = .returned selected batch surplus) :
    (polled.clear state.queue queue).uids = ∅ := by
  obtain ⟨_, _, hsubset, _, _, hsurplus, hinflight⟩ :=
    hfollows.returned selected batch surplus hreturned
  have hcleared : polled.cleared = state.queue.terminal := by
    rw [Polled.cleared, hreturned]
    dsimp only
    rw [hsurplus, Finset.sdiff_union_of_subset hsubset, hfollows.evicted, hfollows.sampleable,
      Finset.union_sdiff_of_subset (all_subset_terminal hfollows.reasons_eq)]
  rw [hfollows.inflight, Finset.card_eq_zero] at hinflight
  rw [uids_clear, hprogress.uids_eq, ← Partition.terminal_union_inflight, hinflight,
    Finset.union_empty, hcleared, Finset.sdiff_self]

theorem State.Fed.poll (hdapo : dapoEnabled config args) (hgen : config.genBatchSize = 1)
    (hslots : 0 < maxInflightPrompts config) (hfed : state.Fed config args initial)
    (hlocation : state.location = .polling)
    (hpoll : Sync.poll config args state.queue state.cache state.loop = .ok polled)
    (hprogress : Progress state.queue queue) :
    State.Fed config args initial {
      queue := polled.clear state.queue queue
      cache := polled.cache
      loop := polled.loop
      location := polled.outcome.location
      polls := state.polls ++ [polled] } := by
  obtain ⟨reasons, kept, hfollows⟩ := poll_follows hdapo hgen hpoll
  have hpolled := Polled.fed_of_follows hdapo hslots hfed hlocation hfollows
  have hcard := card_uids_eq hfollows
  have hloop := loop_eq hdapo hfed hlocation hfollows
  have hopen : polled.outcome.location ≠ .done → ∀ selected batch surplus,
      polled.outcome ≠ .returned selected batch surplus := by
    intro hlocation selected batch surplus houtcome
    rw [houtcome] at hlocation
    exact hlocation rfl
  have hnot : ∀ other ∈ state.polls, ∀ selected batch surplus,
      other.outcome ≠ .returned selected batch surplus := by
    intro other hother selected batch surplus houtcome
    have hdone := (hfed.returned other hother selected batch surplus houtcome).1
    rw [hlocation] at hdone
    cases hdone
  refine ⟨fun hdraining hdone => ?_, fun hdraining hdone => ?_, ?_, fun other hother => ?_,
    fun other hother henough => ?_, ?_, fun other hother selected batch surplus houtcome => ?_⟩
  · have hsubset : polled.evicted ⊆ state.queue.uids := by
      rw [hfollows.evicted, ← Partition.terminal_union_inflight]
      exact (all_subset_terminal hfollows.reasons_eq).trans Finset.subset_union_left
    have hcleared := Finset.card_sdiff_add_card_eq_card hsubset
    dsimp only
    rw [uids_clear, hprogress.uids_eq, cleared_eq_evicted (hopen hdone),
      Outcome.location_requested]
    have hfedPolled := hpolled.fed
    omega
  · refine ⟨polled.sampleable, ?_, fun uid huid =>
      isStable_of_mem_sampleable hdapo hfollows (hopen hdone) hprogress huid⟩
    rcases hloop with ⟨henough, _⟩ | ⟨_, _, hopen, _⟩
    · exact henough
    · rw [hopen] at hdraining
      cases hdraining
  · dsimp only
    have hsubset := (Finset.sdiff_subset (s := queue.inflight) (t := polled.cleared)).trans
      hprogress.inflight_subset
    have hle := Finset.card_le_card hsubset
    have hbounded := hpolled.bounded
    rw [inflight_clear, Outcome.location_requested]
    rw [hfollows.inflight] at hbounded
    omega
  · rcases List.mem_append.mp hother with hold | hnew
    · exact hfed.polls other hold
    · rwa [List.mem_singleton.mp hnew]
  · rcases hloop with ⟨_, hdraining, _⟩ | ⟨hfew, hopen, _, _⟩
    · exact hdraining
    · rcases List.mem_append.mp hother with hold | hnew
      · rw [hfed.draining other hold henough] at hopen
        cases hopen
      · rw [List.mem_singleton.mp hnew] at henough
        omega
  · refine List.pairwise_append.mpr ⟨hfed.ordered, List.pairwise_singleton _ _, ?_⟩
    intro first hfirst second hsecond henough
    rw [List.mem_singleton.mp hsecond]
    refine hpolled.no_refill ?_
    exact enough_of_draining hdapo hfed hlocation hfollows (hfed.draining first hfirst henough)
  · rcases List.mem_append.mp hother with hold | hnew
    · exact absurd houtcome (hnot other hold selected batch surplus)
    · rw [List.mem_singleton.mp hnew] at houtcome
      exact ⟨by simp [houtcome, Outcome.location],
        uids_clear_of_returned hfollows hprogress houtcome⟩

theorem State.Fed.step (hdapo : dapoEnabled config args) (hgen : config.genBatchSize = 1)
    (hslots : 0 < maxInflightPrompts config) (hfed : state.Fed config args initial)
    {next : State Uid Tag R} (hstep : Step config args state next) :
    next.Fed config args initial := by
  cases hstep with
  | @workers queue hprogress =>
      refine ⟨?_, fun hdraining hdone => ?_, ?_, hfed.polls, hfed.draining, hfed.ordered, ?_⟩
      · simpa only [hprogress.uids_eq] using hfed.credit
      · obtain ⟨stable, hcard, hstable⟩ := hfed.stable hdraining hdone
        exact ⟨stable, hcard, fun uid huid => hprogress.isStable (hstable uid huid)⟩
      · have hle := Finset.card_le_card hprogress.inflight_subset
        have hbefore := hfed.inflight
        dsimp only
        omega
      · simpa only [hprogress.uids_eq] using hfed.returned
  | poll hlocation hpoll hprogress =>
      exact hfed.poll hdapo hgen hslots hlocation hpoll hprogress
  | @dispatch count queue hlocation hsubmits =>
      refine ⟨fun hdraining _ => ?_, fun hdraining _ => ?_, ?_, hfed.polls, hfed.draining,
        hfed.ordered, fun polled hpolled selected batch surplus houtcome => ?_⟩
      · have hbefore := hfed.credit hdraining (by simp [hlocation])
        rw [hlocation] at hbefore
        simp only [Location.requested] at hbefore ⊢
        rw [hsubmits.card_uids]
        omega
      · obtain ⟨stable, hcard, hstable⟩ := hfed.stable hdraining (by simp [hlocation])
        exact ⟨stable, hcard, fun uid huid => hsubmits.isStable (hstable uid huid)⟩
      · have hbefore := hfed.inflight
        have hle := hsubmits.card_inflight_le
        rw [hlocation] at hbefore
        simp only [Location.requested] at hbefore ⊢
        omega
      · have hdone := (hfed.returned polled hpolled selected batch surplus houtcome).1
        rw [hlocation] at hdone
        cases hdone
  | raise hlocation _ =>
      refine ⟨fun _ hdone => absurd rfl hdone, fun _ hdone => absurd rfl hdone, ?_, hfed.polls,
        hfed.draining, hfed.ordered, fun polled hpolled selected batch surplus houtcome => ?_⟩
      · have hbefore := hfed.inflight
        simp only [Location.requested]
        omega
      · exact ⟨rfl, (hfed.returned polled hpolled selected batch surplus houtcome).2⟩

end Invariant

/-- However the prompts in flight finish and fail and whichever groups are
filtered: at every poll there are enough sampleable groups, prompts in flight
and credits, the call never waits with nothing in flight, refills never bring
the prompts in flight above the limit, no prompt is requested once enough groups
can be sampled, and a call that returns selects distinct groups, as many as
requested, returns those of them that have trajectories, and leaves no prompt
behind. -/
theorem sample_never_starves (config : BufferConfig Uid R) (args : SampleArgs)
    (queue : Partition Uid Tag R) (hdapo : dapoEnabled config args)
    (hgen : config.genBatchSize = 1) (hslots : 0 < maxInflightPrompts config)
    (hsubmitted : args.batchSize ≤ queue.uids.card) (state : State Uid Tag R)
    (hrun : Run config args queue state) :
    (∀ polled ∈ state.polls,
      args.batchSize ≤ polled.sampleable.card + polled.inflight +
          (polled.loop.refillCredit + polled.outcome.requested) ∧
        (polled.outcome = .waiting → 0 < polled.inflight)) ∧
    state.queue.inflight.card ≤ max (maxInflightPrompts config) queue.inflight.card ∧
    (state.polls.Pairwise fun first second =>
      args.batchSize ≤ first.sampleable.card → ∀ count, second.outcome ≠ .refill count) ∧
    (∀ polled ∈ state.polls, args.batchSize ≤ polled.sampleable.card →
      ∀ count, polled.outcome ≠ .refill count) ∧
    ∀ polled ∈ state.polls, ∀ selected batch surplus,
      polled.outcome = .returned selected batch surplus →
        selected.Nodup ∧ selected.length = args.batchSize ∧
          selected.toFinset ⊆ polled.sampleable ∧ (∀ key ∈ batch.keys, key.uid ∈ selected) ∧
            batch.groups = selected.toFinset ∩ polled.materializable ∧
            (batch.groups.card = args.batchSize ↔
              selected.toFinset ⊆ polled.materializable) ∧
            surplus = polled.sampleable \ selected.toFinset ∧ state.queue.uids = ∅ := by
  have hfed : state.Fed config args queue.inflight.card := by
    induction hrun with
    | start cache =>
        exact ⟨fun _ _ => hsubmitted.trans (Nat.le_add_right _ _), by simp,
          le_max_right _ _, by simp, by simp, .nil, by simp⟩
    | step _ hstep ih => exact ih.step hdapo hgen hslots hstep
  refine ⟨fun polled hpolled => ?_, ?_, hfed.ordered,
    fun polled hpolled => (hfed.polls polled hpolled).no_refill,
    fun polled hpolled selected batch surplus houtcome => ?_⟩
  · exact ⟨(hfed.polls polled hpolled).fed, (hfed.polls polled hpolled).awake⟩
  · exact (Nat.le_add_right _ _).trans hfed.inflight
  · obtain ⟨hnodup, hlength, hsubset, hkeys, hgroups, hsurplus⟩ :=
      (hfed.polls polled hpolled).returned selected batch surplus houtcome
    refine ⟨hnodup, hlength, hsubset, hkeys, hgroups, ?_, hsurplus,
      (hfed.returned polled hpolled selected batch surplus houtcome).2⟩
    rw [← hlength]
    exact card_groups_eq_iff hnodup hgroups

theorem nodup_filter_bools (uids : Finset Bool) :
    ([false, true].filter fun uid => uid ∈ uids).Nodup :=
  List.Nodup.filter _ (by decide)

theorem mem_filter_bools (uids : Finset Bool) (uid : Bool) :
    uid ∈ ([false, true].filter fun uid => uid ∈ uids) ↔ uid ∈ uids := by
  cases uid <;> simp

def dapoConfig : BufferConfig Bool ℕ where
  maxOffPolicyThreshold := 1
  maxOffPolicyStrategy := .drop
  hasRefillFn := true
  filterGroupsMetric := some "acc"
  trainBatchSize := 1
  genBatchSize := 1
  maxInflightGenBatches := 1
  syncRefillFailedGroups := false
  stdIsZero values := values.tail.all fun value => value = values.headD 0
  order := {
    toList uids := [false, true].filter fun uid => uid ∈ uids
    nodup_toList := nodup_filter_bools
    mem_toList := mem_filter_bools }

/-- A finished group without variance. -/
def filteredGroup : Partition Bool Unit ℕ where
  prompts := ⟨[(true, ⟨.finished, 3⟩)], by decide⟩
  trajectories := ⟨[(⟨true, 0, 0⟩, ⟨(), some 0⟩), (⟨true, 1, 0⟩, ⟨(), some 0⟩)], by decide⟩

/-- It is evicted for two credits, of which one is spent at once. -/
theorem filteredGroup_never_starves :
    ∃ (state : State Bool Unit ℕ) (polled : Polled Bool Unit ℕ),
      Run dapoConfig ⟨3, "train", 1⟩ filteredGroup state ∧ state.polls = [polled] ∧
        polled.evicted = {true} ∧ polled.outcome = .refill 1 ∧
          1 ≤ polled.sampleable.card + polled.inflight + (polled.loop.refillCredit + 1) := by
  have hpoll : poll dapoConfig ⟨3, "train", 1⟩ filteredGroup .empty ⟨0, false⟩ =
      .ok ⟨{true}, ∅, 0, ∅, .refill 1, ⟨1, false⟩, .empty⟩ := rfl
  have hprogress : Progress filteredGroup filteredGroup :=
    ⟨rfl, fun _ _ hentry _ => hentry, fun _ hkey _ => hkey⟩
  have hstart : Run dapoConfig ⟨3, "train", 1⟩ filteredGroup _ := .start .empty
  have hrun := hstart.step (.poll rfl hpoll hprogress)
  refine ⟨_, _, hrun, rfl, rfl, rfl, ?_⟩
  exact ((sample_never_starves dapoConfig ⟨3, "train", 1⟩ filteredGroup (by decide) rfl
    (by decide) (by decide) _ hrun).1 _ (List.mem_singleton.mpr rfl)).1

/-- Two prompts in flight before the call. -/
def oversubmitted : Partition Bool Unit ℕ where
  prompts := ⟨[(false, ⟨.pending, 3⟩), (true, ⟨.pending, 3⟩)], by decide⟩
  trajectories := .empty

/-- The limit is one on prompts that the call requests. -/
theorem oversubmitted_exceeds_limit :
    ∃ (state : State Bool Unit ℕ) (polled : Polled Bool Unit ℕ),
      Run dapoConfig ⟨3, "train", 1⟩ oversubmitted state ∧ polled ∈ state.polls ∧
        ¬ polled.inflight ≤ maxInflightPrompts dapoConfig := by
  have hpoll : poll dapoConfig ⟨3, "train", 1⟩ oversubmitted .empty ⟨0, false⟩ =
      .ok ⟨∅, ∅, 2, ∅, .waiting, ⟨0, false⟩, .empty⟩ := rfl
  have hprogress : Progress oversubmitted oversubmitted :=
    ⟨rfl, fun _ _ hentry _ => hentry, fun _ hkey _ => hkey⟩
  exact ⟨_, _, (Run.start .empty).step (.poll rfl hpoll hprogress), List.mem_singleton.mpr rfl,
    by decide⟩

/-- A finished group, and one that failed before any session wrote a trajectory. -/
def failedGroup : Partition Bool Unit ℕ where
  prompts := ⟨[(true, ⟨.failure, 3⟩), (false, ⟨.finished, 3⟩)], by decide⟩
  trajectories :=
    ⟨[(⟨false, 0, 0⟩, ⟨(), some 0⟩), (⟨false, 1, 0⟩, ⟨(), some 1⟩)], by decide⟩

/-- Both groups are selected, and the batch holds one of them. -/
theorem failedGroup_batch_short :
    ∃ (state : State Bool Unit ℕ) (polled : Polled Bool Unit ℕ) (selected : List Bool)
      (batch : KVBatchMeta Bool Unit) (surplus : Finset Bool),
      Run dapoConfig ⟨3, "train", 2⟩ failedGroup state ∧ polled ∈ state.polls ∧
        polled.outcome = .returned selected batch surplus ∧ batch.groups.card ≠ 2 := by
  let selected := selectPromptUids dapoConfig failedGroup {false, true} 2
  have hselected : selected = [false, true] := by
    change selectPromptUids dapoConfig failedGroup {false, true} 2 = [false, true]
    rw [selectPromptUids, List.mergeSort_of_pairwise (by decide)]
    rfl
  have hsome : ¬ ("train" ≠ "val" ∧ failedGroup.trajectoryKeys selected.toFinset = []) := by
    rw [hselected]
    decide
  have hpoll : poll dapoConfig ⟨3, "train", 2⟩ failedGroup .empty ⟨0, false⟩ =
      .ok ⟨∅, {false, true}, 0, {false}, .returned selected
        (materializeBatch "train" selected failedGroup) ({false, true} \ selected.toFinset),
        ⟨0, true⟩, (Dict.empty.insert false none).filter
          fun uid => uid ∉ ({false, true} : Finset Bool) \ selected.toFinset⟩ :=
    raiseIf_bind_eq_ok.mpr ⟨hsome, rfl⟩
  have hprogress : Progress failedGroup failedGroup :=
    ⟨rfl, fun _ _ hentry _ => hentry, fun _ hkey _ => hkey⟩
  refine ⟨_, _, _, _, _, (Run.start .empty).step (.poll rfl hpoll hprogress),
    List.mem_singleton.mpr rfl, rfl, ?_⟩
  have hone : failedGroup.materializableUids = {false} := rfl
  rw [groups_materializeBatch, hone]
  exact (Finset.card_le_card Finset.inter_subset_right).trans_lt (by decide) |>.ne

/-- Prompts submitted before the call may exceed the limit, and a selected group
may add nothing to the batch. -/
theorem limit_exceeded_and_batch_short :
    (∀ batchSize, dapoEnabled dapoConfig ⟨3, "train", batchSize⟩) ∧
    dapoConfig.genBatchSize = 1 ∧ 1 ≤ oversubmitted.uids.card ∧ 2 ≤ failedGroup.uids.card ∧
    (∃ (state : State Bool Unit ℕ) (polled : Polled Bool Unit ℕ),
      Run dapoConfig ⟨3, "train", 1⟩ oversubmitted state ∧ polled ∈ state.polls ∧
        ¬ polled.inflight ≤ maxInflightPrompts dapoConfig) ∧
    ∃ (state : State Bool Unit ℕ) (polled : Polled Bool Unit ℕ) (selected : List Bool)
      (batch : KVBatchMeta Bool Unit) (surplus : Finset Bool),
      Run dapoConfig ⟨3, "train", 2⟩ failedGroup state ∧ polled ∈ state.polls ∧
        polled.outcome = .returned selected batch surplus ∧ batch.groups.card ≠ 2 :=
  ⟨fun _ => by simp [dapoEnabled, dapoConfig], rfl, by decide, by decide,
    oversubmitted_exceeds_limit, failedGroup_batch_short⟩

end OneShotOPD.ReplayBuffer.Sync
