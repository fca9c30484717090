import OneShotOPD.DynamicCp.Groups
import OneShotOPD.DynamicCp.Records
import Mathlib

/-!
# Dynamic context parallelism loses and duplicates nothing

A batch that passes all checks of the schedule and of the collection gets back
every sample's own output, in the order of the samples, and one loss and one
set of metrics from every group of every micro-batch.
-/

namespace OneShotOPD.DynamicCp

open Checks

variable {ρ τ ℓ μ : Type}

/-- What a rank hands over for a micro-batch. -/
def stepOutput (forward : ℕ → ℕ → MicroBatch ρ → StepOutput τ ℓ μ)
    (microBatch : ℕ → ℕ → MicroBatch ρ) (rank index : ℕ) : MicroOutput τ ℓ μ :=
  { forward rank index (microBatch rank index) with
    sampleIds := (microBatch rank index).sampleIds
    groupLeader := (microBatch rank index).groupLeader }

/-- The micro-batch of the leader of a group. -/
def leaderBatch (sampleIdGroups : List (List (List ℤ))) (microBatch : ℕ → ℕ → MicroBatch ρ)
    (group : ℕ × List ℤ) : MicroBatch ρ :=
  microBatch (groupLeader sampleIdGroups group) group.1

/-- The output of the leader of a group. -/
def leaderOutput (sampleIdGroups : List (List (List ℤ)))
    (forward : ℕ → ℕ → MicroBatch ρ → StepOutput τ ℓ μ)
    (microBatch : ℕ → ℕ → MicroBatch ρ) (group : ℕ × List ℤ) : StepOutput τ ℓ μ :=
  forward (groupLeader sampleIdGroups group) group.1
    (leaderBatch sampleIdGroups microBatch group)

/-- What the collection returns of a batch.  Every group reports its loss and its
metrics once, every sample is in one place of one group, and under every key
stands what that group reports at that place. -/
structure RestoresBatch (rows : List ρ) (sampleIdGroups : List (List (List ℤ)))
    (forward : ℕ → ℕ → MicroBatch ρ → StepOutput τ ℓ μ) (includeModelOutput : Bool)
    (microBatch : ℕ → ℕ → MicroBatch ρ) (result : Collected τ ℓ μ) : Prop where
  reports : ∃ order, List.Perm order (cpGroups sampleIdGroups) ∧
    result.loss = order.filterMap (fun group =>
      (leaderOutput sampleIdGroups forward microBatch group).loss) ∧
    result.metrics = order.foldl (fun metrics group =>
      appendToDict metrics (leaderOutput sampleIdGroups forward microBatch group).metrics)
        Dict.empty
  placed : ∀ sample < rows.length, ∃! place : (ℕ × List ℤ) × ℕ,
    place.1 ∈ cpGroups sampleIdGroups ∧ place.1.2[place.2]? = some (sample : ℤ)
  keys : ∀ key, key ∈ result.modelOutput.keys ↔ includeModelOutput = true ∧
    ∃ group ∈ cpGroups sampleIdGroups,
      key ∈ (leaderOutput sampleIdGroups forward microBatch group).modelOutput.keys
  restored : ∀ key values, result.modelOutput.get? key = some values →
    values.length = rows.length ∧
    ∀ group ∈ cpGroups sampleIdGroups, ∀ (place : ℕ) (sample : ℤ),
      group.2[place]? = some sample →
      ∃ position : ℕ, sample = position ∧ position < rows.length ∧
        (leaderBatch sampleIdGroups microBatch group).rows[place]? = rows[position]? ∧
        ∃ parts, (leaderOutput sampleIdGroups forward microBatch group).modelOutput.get? key =
            some (.tensor parts) ∧
          parts.length = group.2.length ∧ values[position]? = parts[place]?

/-- The ranks that lead a group, each with the index of the micro-batch. -/
def leaders (ranks : ℕ) (sampleIdGroups : List (List (List ℤ))) : List (ℕ × ℕ) :=
  (List.range ranks).flatMap fun rank =>
    ((List.range sampleIdGroups.length).filter (Leads sampleIdGroups rank ·)).map
      fun index => (rank, index)

theorem mem_leaders {ranks : ℕ} {sampleIdGroups : List (List (List ℤ))} {leader : ℕ × ℕ} :
    leader ∈ leaders ranks sampleIdGroups ↔ leader.1 < ranks ∧
      leader.2 < sampleIdGroups.length ∧ Leads sampleIdGroups leader.1 leader.2 := by
  simp only [leaders, List.mem_flatMap, List.mem_range, List.mem_map, List.mem_filter,
    decide_eq_true_eq]
  constructor
  · rintro ⟨rank, hrank, index, hindex, rfl⟩
    exact ⟨hrank, hindex⟩
  · rintro ⟨hrank, hindex⟩
    exact ⟨leader.1, hrank, leader.2, hindex, rfl⟩

theorem nodup_leaders (ranks : ℕ) (sampleIdGroups : List (List (List ℤ))) :
    (leaders ranks sampleIdGroups).Nodup := by
  rw [leaders, List.nodup_flatMap]
  constructor
  · intro rank _
    exact (List.nodup_range.filter _).map fun first second heq => (Prod.mk.inj heq).2
  · apply List.Pairwise.imp _ List.nodup_range
    intro first second hne leader hfirst hsecond
    obtain ⟨_, _, rfl⟩ := List.mem_map.mp hfirst
    obtain ⟨_, _, heq⟩ := List.mem_map.mp hsecond
    exact hne (Prod.mk.inj heq).1.symm

/-- The samples of a group are those of its leader. -/
theorem getD_groupLeader {sampleIdGroups : List (List (List ℤ))} {group : ℕ × List ℤ}
    (hgroup : group ∈ cpGroups sampleIdGroups) :
    groupLeader sampleIdGroups group < (sampleIdGroups.getD group.1 []).length ∧
      (sampleIdGroups.getD group.1 []).getD (groupLeader sampleIdGroups group) [] = group.2 := by
  have hlt : groupLeader sampleIdGroups group < (sampleIdGroups.getD group.1 []).length :=
    List.idxOf_lt_length_of_mem (mem_cpGroups.mp hgroup).2
  refine ⟨hlt, ?_⟩
  rw [List.getD_eq_getElem _ _ hlt]
  exact List.getElem_idxOf hlt

/-- Every group has one leader. -/
theorem perm_leaders {ranks : ℕ} {sampleIdGroups : List (List (List ℤ))}
    (hranks : ∀ index < sampleIdGroups.length, (sampleIdGroups.getD index []).length = ranks) :
    List.Perm (leaders ranks sampleIdGroups)
      ((cpGroups sampleIdGroups).map fun group =>
        (groupLeader sampleIdGroups group, group.1)) := by
  have hinj : ∀ first ∈ cpGroups sampleIdGroups, ∀ second ∈ cpGroups sampleIdGroups,
      (groupLeader sampleIdGroups first, first.1) =
        (groupLeader sampleIdGroups second, second.1) → first = second := by
    intro first hfirst second hsecond heq
    obtain ⟨hleader, hindex⟩ := Prod.mk.inj heq
    apply Prod.ext hindex
    rw [← (getD_groupLeader hfirst).2, ← (getD_groupLeader hsecond).2, hleader, hindex]
  rw [List.perm_ext_iff_of_nodup (nodup_leaders _ _)
    ((nodup_cpGroups _).map_on hinj)]
  intro leader
  rw [mem_leaders, List.mem_map]
  constructor
  · rintro ⟨hrank, hindex, hleads⟩
    have hlt : leader.1 < (sampleIdGroups.getD leader.2 []).length :=
      hrank.trans_eq (hranks _ hindex).symm
    refine ⟨(leader.2, (sampleIdGroups.getD leader.2 []).getD leader.1 []),
      mem_cpGroups.mpr ⟨hindex, ?_⟩, Prod.ext hleads.symm rfl⟩
    rw [List.getD_eq_getElem _ _ hlt]
    exact List.getElem_mem hlt
  · rintro ⟨group, hgroup, rfl⟩
    have hindex := (mem_cpGroups.mp hgroup).1
    obtain ⟨hlt, hids⟩ := getD_groupLeader hgroup
    refine ⟨hlt.trans_eq (hranks _ hindex), hindex, ?_⟩
    rw [Leads, hids]
    rfl

/-- The outputs of the leaders of all ranks are those of the groups. -/
theorem perm_leaderOutputs {ranks : ℕ} {rows : List ρ} {sampleIdGroups : List (List (List ℤ))}
    {microBatch : ℕ → ℕ → MicroBatch ρ}
    (hscheduled : ∀ rank < ranks, ∀ index < sampleIdGroups.length,
      Scheduled rows (sampleIdGroups.getD index []) ranks rank (microBatch rank index))
    (hranks : 0 < ranks) (forward : ℕ → ℕ → MicroBatch ρ → StepOutput τ ℓ μ) :
    List.Perm
      (((List.range ranks).map fun rank =>
        (List.range sampleIdGroups.length).map (stepOutput forward microBatch rank)).flatMap
          (List.filter MicroOutput.groupLeader))
      ((cpGroups sampleIdGroups).map fun group =>
        stepOutput forward microBatch (groupLeader sampleIdGroups group) group.1) := by
  have hflag : ∀ rank < ranks, ∀ index < sampleIdGroups.length,
      (microBatch rank index).groupLeader = decide (Leads sampleIdGroups rank index) :=
    fun rank hrank index hindex => (hscheduled rank hrank index hindex).groupLeader
  have houtputs : ((List.range ranks).map fun rank =>
      (List.range sampleIdGroups.length).map (stepOutput forward microBatch rank)).flatMap
        (List.filter MicroOutput.groupLeader) =
      (leaders ranks sampleIdGroups).map fun leader =>
        stepOutput forward microBatch leader.1 leader.2 := by
    rw [leaders, List.flatMap_map, List.map_flatMap]
    apply List.flatMap_congr
    intro rank hrank
    rw [List.filter_map, List.map_map]
    apply congrArg
    apply List.filter_congr
    intro index hindex
    exact hflag rank (List.mem_range.mp hrank) index (List.mem_range.mp hindex)
  rw [houtputs]
  have hperm := (perm_leaders fun index hindex =>
    (hscheduled 0 hranks index hindex).assigned).map fun leader =>
      stepOutput forward microBatch leader.1 leader.2
  rwa [List.map_map] at hperm

/-- A sample of disjoint groups that hold all samples is in one place. -/
theorem existsUnique_place {groups : List (ℕ × List ℤ)} {batchSize : ℕ}
    (hperm : List.Perm (groups.flatMap Prod.snd) ((List.range batchSize).map Int.ofNat))
    {sample : ℕ} (hsample : sample < batchSize) :
    ∃! place : (ℕ × List ℤ) × ℕ,
      place.1 ∈ groups ∧ place.1.2[place.2]? = some (sample : ℤ) := by
  have hnodup : (groups.flatMap Prod.snd).Nodup :=
    hperm.nodup_iff.mpr (List.nodup_range.map fun _ _ heq => Int.ofNat.inj heq)
  obtain ⟨hinner, houter⟩ := List.nodup_flatMap.mp hnodup
  have hmem : (sample : ℤ) ∈ groups.flatMap Prod.snd :=
    hperm.mem_iff.mpr (List.mem_map.mpr ⟨sample, List.mem_range.mpr hsample, rfl⟩)
  obtain ⟨group, hgroup, hsampleMem⟩ := List.mem_flatMap.mp hmem
  obtain ⟨index, hindex⟩ := List.mem_iff_getElem?.mp hsampleMem
  refine ⟨(group, index), ⟨hgroup, hindex⟩, ?_⟩
  rintro ⟨other, position⟩ ⟨hother, hposition⟩
  have heq : other = group := by
    have hsymm : Std.Symm (Function.onFun List.Disjoint
        (Prod.snd : ℕ × List ℤ → List ℤ)) := ⟨fun _ _ hdisjoint => hdisjoint.symm⟩
    by_contra hne
    exact houter.forall hother hgroup hne
      (List.mem_of_getElem? hposition) hsampleMem
  subst heq
  have hlt := (List.getElem?_eq_some_iff.mp hposition).1
  exact Prod.ext rfl ((List.getElem?_inj hlt (hinner other hother)).mp
    (hposition.trans hindex.symm))

theorem getElem?_of_pyIndex {rows : List τ} {position : ℕ} {row : τ}
    (hok : pyIndex rows (position : ℤ) = .ok row) : rows[position]? = some row := by
  have hnonneg : ¬ (position : ℤ) < 0 := not_lt.mpr (Int.natCast_nonneg _)
  simp only [pyIndex, hnonneg, if_false, Int.toNat_natCast] at hok
  split at hok
  next found hfound =>
    cases hok
    exact hfound
  next => cases hok

/-- A micro-batch holds the rows of its samples. -/
theorem Scheduled.getElem?_rows {rows : List ρ} {rankAssignments : List (List ℤ)}
    {ranks rank : ℕ} {microBatch : MicroBatch ρ}
    (hscheduled : Scheduled rows rankAssignments ranks rank microBatch) {place position : ℕ}
    (hplace : (rankAssignments.getD rank [])[place]? = some (position : ℤ)) :
    microBatch.rows[place]? = rows[position]? := by
  obtain ⟨hlt, hsample⟩ := List.getElem?_eq_some_iff.mp hplace
  have hlength := length_of_mapM hscheduled.rows
  have hrow := getElem_of_mapM hscheduled.rows hlt (hlt.trans_eq hlength.symm)
  rw [hsample] at hrow
  rw [getElem?_of_pyIndex hrow, List.getElem?_eq_getElem]

/-- The collection over the groups of the micro-batches. -/
theorem restoresBatch_of_collects {ranks : ℕ} {rows : List ρ}
    {sampleIdGroups : List (List (List ℤ))} {microBatch : ℕ → ℕ → MicroBatch ρ}
    (hscheduled : ∀ rank < ranks, ∀ index < sampleIdGroups.length,
      Scheduled rows (sampleIdGroups.getD index []) ranks rank (microBatch rank index))
    {forward : ℕ → ℕ → MicroBatch ρ → StepOutput τ ℓ μ} {outputs : List (MicroOutput τ ℓ μ)}
    (hleaders : List.Perm outputs ((cpGroups sampleIdGroups).map fun group =>
      stepOutput forward microBatch (groupLeader sampleIdGroups group) group.1))
    {includeModelOutput : Bool} {result : Collected τ ℓ μ}
    (hcollects : Collects outputs rows.length includeModelOutput result)
    (hranks : ∀ index < sampleIdGroups.length,
      (sampleIdGroups.getD index []).length = ranks) :
    RestoresBatch rows sampleIdGroups forward includeModelOutput microBatch result := by
  have hgroupBatch : ∀ group ∈ cpGroups sampleIdGroups,
      Scheduled rows (sampleIdGroups.getD group.1 []) ranks (groupLeader sampleIdGroups group)
        (leaderBatch sampleIdGroups microBatch group) := by
    intro group hgroup
    have hindex := (mem_cpGroups.mp hgroup).1
    exact hscheduled _ ((getD_groupLeader hgroup).1.trans_eq (hranks _ hindex)) _ hindex
  have hids : ∀ group ∈ cpGroups sampleIdGroups,
      (leaderBatch sampleIdGroups microBatch group).sampleIds = group.2 :=
    fun group hgroup => (hgroupBatch group hgroup).sampleIds.trans (getD_groupLeader hgroup).2
  have hmem : ∀ group ∈ cpGroups sampleIdGroups,
      stepOutput forward microBatch (groupLeader sampleIdGroups group) group.1 ∈ outputs :=
    fun group hgroup => hleaders.mem_iff.mpr (List.mem_map_of_mem hgroup)
  have hsamples : List.Perm ((cpGroups sampleIdGroups).flatMap Prod.snd)
      ((List.range rows.length).map Int.ofNat) := by
    apply List.Perm.trans _ hcollects.samples
    apply List.Perm.trans _ (hleaders.flatMap_right _).symm
    rw [List.flatMap_map]
    apply List.Perm.of_eq
    apply List.flatMap_congr
    intro group hgroup
    exact (hids group hgroup).symm
  constructor
  · obtain ⟨order, horder, hloss, hmetrics⟩ := hcollects.reports
    obtain ⟨groups, rfl, hgroups⟩ := (congrFun₂ (List.eq_map_comp_perm _) order _).mpr
      (horder.trans hleaders)
    refine ⟨groups, hgroups, ?_, ?_⟩
    · rw [hloss, List.filterMap_map]
      rfl
    · rw [hmetrics, List.foldl_map]
      rfl
  · intro sample hsample
    exact existsUnique_place hsamples hsample
  · intro key
    rw [hcollects.keys key]
    simp only [hleaders.mem_iff, List.mem_map, exists_exists_and_eq_and]
    rfl
  · intro key values hvalues
    obtain ⟨hlength, hrestored⟩ := hcollects.restored key values hvalues
    refine ⟨hlength, ?_⟩
    intro group hgroup place sample hplace
    obtain ⟨position, rfl, hlt, parts, hparts, hcount, hpart⟩ :=
      hrestored _ (hmem group hgroup) place sample
        ((congrArg (·[place]?) (hids group hgroup)).trans hplace)
    refine ⟨position, rfl, hlt, ?_, parts, hparts, ?_, hpart⟩
    · apply (hgroupBatch group hgroup).getElem?_rows
      rw [(getD_groupLeader hgroup).2, hplace]
    · exact hcount.trans (congrArg List.length (hids group hgroup))

theorem mapIdx_map_range (f : ℕ → ρ) (g : ℕ → ρ → τ) (count : ℕ) :
    ((List.range count).map f).mapIdx g = (List.range count).map fun index =>
      g index (f index) := by
  apply List.ext_getElem <;> simp

/-- A batch either raises, on some rank or in the collection, or every sample gets
its own output. -/
theorem dynamicCpBatch_restoresBatch {scheduler : DynamicCPScheduler}
    {settings : ShardSettings} {seqLen : ρ → ℕ} {rows : List ρ}
    {sampleIdGroups : List (List (List ℤ))}
    {forward : ℕ → ℕ → MicroBatch ρ → StepOutput τ ℓ μ} {includeModelOutput : Bool}
    {result : Collected τ ℓ μ}
    (hok : dynamicCpBatch scheduler settings seqLen rows sampleIdGroups forward
      includeModelOutput = .ok result) :
    ∃ microBatch : ℕ → ℕ → MicroBatch ρ,
      (∀ rank < scheduler.totalRanks,
        schedule scheduler settings scheduler.totalRanks rank seqLen rows sampleIdGroups =
          .ok ((List.range sampleIdGroups.length).map (microBatch rank))) ∧
      RestoresBatch rows sampleIdGroups forward includeModelOutput microBatch result := by
  obtain ⟨microBatches, hschedule, hok⟩ := bind_eq_ok.mp hok
  obtain ⟨microBatch, rfl, hscheduled⟩ := exists_microBatches hschedule
  have hpositive : 0 < scheduler.totalRanks :=
    Nat.mul_pos scheduler.dpSize_pos scheduler.cpSize_pos
  refine ⟨microBatch, ?_, ?_⟩
  · intro rank hrank
    have hranks : rank < (List.range scheduler.totalRanks).length := by simpa using hrank
    have hvalue := getElem_of_mapM hschedule hranks (by simpa using hrank)
    simpa using hvalue
  · rw [mapIdx_map_range] at hok
    simp only [runMicroBatches, mapIdx_map_range] at hok
    exact restoresBatch_of_collects hscheduled (perm_leaderOutputs hscheduled hpositive forward)
      (collects_of_postprocessDynamicCpBatch hok)
      fun index hindex => (hscheduled 0 hpositive index hindex).assigned

/-- Two ranks, which a micro-batch uses apart and another one together. -/
def twoRanks : DynamicCPScheduler where
  maxSeqlenPerDpCpRank := 2
  dpSize := 1
  cpSize := 2
  maxSeqlenPerDpCpRank_pos := Nat.two_pos
  dpSize_pos := Nat.one_pos
  cpSize_pos := Nat.two_pos

def zigzagSettings : ShardSettings where
  tpSize := 1
  cpLayout := .zigzag
  minLocalRows := none

/-- A forward step that multiplies. -/
def tenfold (_rank _index : ℕ) (microBatch : MicroBatch ℕ) : StepOutput ℕ ℕ ℕ where
  loss := some microBatch.rows.sum
  metrics := ⟨[("rows", [microBatch.rows.length])], List.nodup_singleton _⟩
  modelOutput := ⟨[("values", .tensor (microBatch.rows.map (10 * ·)))], List.nodup_singleton _⟩

theorem twoRanks_restoresBatch :
    ∃ microBatch : ℕ → ℕ → MicroBatch ℕ,
      (∀ rank < twoRanks.totalRanks,
        schedule twoRanks zigzagSettings twoRanks.totalRanks rank id [3, 1, 2]
            [[[1], [2]], [[0], [0]]] =
          .ok ((List.range 2).map (microBatch rank))) ∧
      RestoresBatch [3, 1, 2] [[[1], [2]], [[0], [0]]] tenfold true microBatch
        { modelOutput := ⟨[("values", [30, 10, 20])], by decide⟩
          loss := [3, 1, 2]
          metrics := ⟨[("rows", [1, 1, 1])], by decide⟩ } :=
  dynamicCpBatch_restoresBatch
    (show dynamicCpBatch twoRanks zigzagSettings id [3, 1, 2] [[[1], [2]], [[0], [0]]]
      tenfold true = .ok _ from rfl)

end OneShotOPD.DynamicCp
