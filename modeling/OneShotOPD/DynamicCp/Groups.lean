import OneShotOPD.DynamicCp.Collection
import Mathlib.Data.List.Dedup
import Mathlib.Data.List.Nodup

/-!
# The context-parallel groups of a schedule

A group of a micro-batch is a list of samples that some ranks are assigned.  Its
leader is the first of these ranks, so that every group has exactly one.
-/

namespace OneShotOPD.DynamicCp

open Checks

variable {ρ τ ℓ μ : Type}

/-- The groups of all micro-batches, each with the index of its micro-batch. -/
def cpGroups (sampleIdGroups : List (List (List ℤ))) : List (ℕ × List ℤ) :=
  (List.range sampleIdGroups.length).flatMap fun index =>
    (sampleIdGroups.getD index []).dedup.map fun sampleIds => (index, sampleIds)

/-- The first rank of a group. -/
def groupLeader (sampleIdGroups : List (List (List ℤ))) (group : ℕ × List ℤ) : ℕ :=
  (sampleIdGroups.getD group.1 []).idxOf group.2

/-- Whether a rank leads its group. -/
def Leads (sampleIdGroups : List (List (List ℤ))) (rank index : ℕ) : Prop :=
  rank = (sampleIdGroups.getD index []).idxOf
    ((sampleIdGroups.getD index []).getD rank [])

instance (sampleIdGroups : List (List (List ℤ))) (rank index : ℕ) :
    Decidable (Leads sampleIdGroups rank index) :=
  inferInstanceAs (Decidable (_ = _))

theorem mem_cpGroups {sampleIdGroups : List (List (List ℤ))} {group : ℕ × List ℤ} :
    group ∈ cpGroups sampleIdGroups ↔
      group.1 < sampleIdGroups.length ∧ group.2 ∈ sampleIdGroups.getD group.1 [] := by
  rw [cpGroups, List.mem_flatMap]
  constructor
  · rintro ⟨index, hindex, hmem⟩
    obtain ⟨sampleIds, hids, rfl⟩ := List.mem_map.mp hmem
    exact ⟨List.mem_range.mp hindex, List.mem_dedup.mp hids⟩
  · rintro ⟨hindex, hids⟩
    exact ⟨group.1, List.mem_range.mpr hindex,
      List.mem_map.mpr ⟨group.2, List.mem_dedup.mpr hids, rfl⟩⟩

theorem nodup_cpGroups (sampleIdGroups : List (List (List ℤ))) :
    (cpGroups sampleIdGroups).Nodup := by
  rw [cpGroups, List.nodup_flatMap]
  constructor
  · intro index _
    exact (List.nodup_dedup _).map fun first second heq => (Prod.mk.inj heq).2
  · apply List.Pairwise.imp _ List.nodup_range
    intro first second hne group hfirst hsecond
    obtain ⟨_, _, rfl⟩ := List.mem_map.mp hfirst
    obtain ⟨_, _, heq⟩ := List.mem_map.mp hsecond
    exact hne (Prod.mk.inj heq).1.symm

/-- The first member of a group is the first rank with its samples. -/
theorem headD_members {rankAssignments : List (List ℤ)} {rank : ℕ}
    (hrank : rank < rankAssignments.length) :
    ((List.range rankAssignments.length).filter fun peer =>
        rankAssignments.getD peer [] = rankAssignments.getD rank []).headD 0 =
      rankAssignments.idxOf (rankAssignments.getD rank []) := by
  have hmem : rankAssignments.getD rank [] ∈ rankAssignments := by
    rw [List.getD_eq_getElem _ _ hrank]
    exact List.getElem_mem hrank
  have hlt : rankAssignments.idxOf (rankAssignments.getD rank []) < rankAssignments.length :=
    List.idxOf_lt_length_of_mem hmem
  have hhead : ((List.range rankAssignments.length).filter fun peer =>
      rankAssignments.getD peer [] = rankAssignments.getD rank []).head? =
        some (rankAssignments.idxOf (rankAssignments.getD rank [])) := by
    rw [List.head?_filter, List.find?_range_eq_some]
    refine ⟨?_, List.mem_range.mpr hlt, ?_⟩
    · simp only [decide_eq_true_eq]
      rw [List.getD_eq_getElem _ _ hlt, List.getElem_idxOf]
    · intro peer hpeer
      simp only [Bool.not_eq_true', decide_eq_false_iff_not]
      rw [List.getD_eq_getElem _ _ (hpeer.trans hlt)]
      intro heq
      have hnot := List.not_of_lt_findIdx hpeer
      rw [heq] at hnot
      simp at hnot
  rw [List.headD_eq_head?_getD, hhead, Option.getD_some]

/-- What a micro-batch of the schedule holds. -/
structure Scheduled (rows : List ρ) (rankAssignments : List (List ℤ)) (ranks rank : ℕ)
    (microBatch : MicroBatch ρ) : Prop where
  assigned : rankAssignments.length = ranks
  nonempty : [] ∉ rankAssignments
  sampleIds : microBatch.sampleIds = rankAssignments.getD rank []
  groupLeader : microBatch.groupLeader =
    decide (rank = rankAssignments.idxOf (rankAssignments.getD rank []))
  rows : (rankAssignments.getD rank []).mapM (pyIndex rows) = .ok microBatch.rows

theorem scheduled_of_scheduleMicroBatch {scheduler : DynamicCPScheduler}
    {settings : ShardSettings} {dcpRank : ℕ} {rows : List ρ} {seqLens : List ℕ}
    {rankAssignments : List (List ℤ)} {microBatch : MicroBatch ρ}
    (hrank : dcpRank < scheduler.totalRanks)
    (hok : scheduleMicroBatch scheduler settings dcpRank rows seqLens rankAssignments =
      .ok microBatch) :
    Scheduled rows rankAssignments scheduler.totalRanks dcpRank microBatch := by
  obtain ⟨hassigned, hok⟩ := raiseIf_bind_eq_ok.mp hok
  obtain ⟨hlength, hnonempty⟩ := not_or.mp hassigned
  rw [not_not] at hlength
  obtain ⟨members, hmembers, hok⟩ := bind_eq_ok.mp hok
  obtain ⟨-, hok⟩ := raiseIf_bind_eq_ok.mp hok
  obtain ⟨-, hok⟩ := raiseIf_bind_eq_ok.mp hok
  obtain ⟨selected, hselected, hok⟩ := bind_eq_ok.mp hok
  obtain ⟨lens, -, hok⟩ := bind_eq_ok.mp hok
  obtain ⟨mask, -, hok⟩ := bind_eq_ok.mp hok
  cases hok
  obtain ⟨-, hmembers⟩ := raiseIf_bind_eq_ok.mp hmembers
  cases hmembers
  refine ⟨hlength, hnonempty, rfl, ?_, hselected⟩
  simp only [headD_members (hrank.trans_eq hlength.symm)]

/-- A batch of which every rank could schedule its micro-batches. -/
theorem exists_microBatches {scheduler : DynamicCPScheduler} {settings : ShardSettings}
    {seqLen : ρ → ℕ} {rows : List ρ} {sampleIdGroups : List (List (List ℤ))}
    {microBatches : List (List (MicroBatch ρ))}
    (hok : (List.range scheduler.totalRanks).mapM (fun rank =>
      schedule scheduler settings scheduler.totalRanks rank seqLen rows sampleIdGroups) =
        .ok microBatches) :
    ∃ microBatch : ℕ → ℕ → MicroBatch ρ,
      microBatches = (List.range scheduler.totalRanks).map (fun rank =>
        (List.range sampleIdGroups.length).map (microBatch rank)) ∧
      ∀ rank < scheduler.totalRanks, ∀ index < sampleIdGroups.length,
        Scheduled rows (sampleIdGroups.getD index []) scheduler.totalRanks rank
          (microBatch rank index) := by
  have hlength := length_of_mapM hok
  rw [List.length_range] at hlength
  have hrank : ∀ rank (hrank : rank < microBatches.length),
      sampleIdGroups.mapM (scheduleMicroBatch scheduler settings rank rows
        (rows.map seqLen)) = .ok microBatches[rank] := by
    intro rank hrank
    have hschedule := getElem_of_mapM hok (by simpa [← hlength] using hrank) hrank
    rw [List.getElem_range] at hschedule
    obtain ⟨-, hschedule⟩ := raiseIf_bind_eq_ok.mp hschedule
    obtain ⟨-, hschedule⟩ := raiseIf_bind_eq_ok.mp hschedule
    obtain ⟨-, hschedule⟩ := raiseIf_bind_eq_ok.mp hschedule
    exact (raiseIf_bind_eq_ok.mp hschedule).2
  have hcount : ∀ rank (hrank' : rank < microBatches.length),
      microBatches[rank].length = sampleIdGroups.length :=
    fun rank hrank' => length_of_mapM (hrank rank hrank')
  let default : MicroBatch ρ := ⟨[], 0, [], false, [], 0⟩
  refine ⟨fun rank index => (microBatches.getD rank []).getD index default, ?_, ?_⟩
  · apply List.ext_getElem
    · simp [hlength]
    · intro rank hleft hright
      simp only [List.getElem_map, List.getElem_range, List.getD_eq_getElem _ _ hleft]
      apply List.ext_getElem
      · simp [hcount rank hleft]
      · intro index hindex hindex'
        simp [hindex]
  · intro rank hlt index hindex
    have hleft : rank < microBatches.length := hlt.trans_eq hlength.symm
    have hinner : index < microBatches[rank].length := hindex.trans_eq (hcount rank hleft).symm
    have hmicro := getElem_of_mapM (hrank rank hleft) hindex hinner
    simp only [List.getD_eq_getElem _ _ hleft, List.getD_eq_getElem _ _ hinner,
      List.getD_eq_getElem _ _ hindex]
    exact scheduled_of_scheduleMicroBatch hlt hmicro

end OneShotOPD.DynamicCp
