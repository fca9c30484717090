import OneShotOPD.SeqlenBalancing.Rearrange
import Mathlib

/-!
# What the micro batches contain

However the rows are grouped, spread and ordered, the micro batches hold every
row once.  Their workloads are balanced: none is further above the average than
the heaviest group.  Their numbers of tokens are bounded only through the
workloads.
-/

namespace OneShotOPD.SeqlenBalancing

open Checks Differencing
open scoped List

theorem everySecond_perm {α : Type} (items : List α) :
    (everySecond items ++ everySecond items.tail).Perm items := by
  induction items using everySecond.induct with
  | case1 => exact .refl _
  | case2 item => exact .refl _
  | case3 item next items ih =>
      have htail : everySecond (next :: items) = next :: everySecond items.tail := by
        cases items <;> rfl
      rw [everySecond, List.tail_cons, htail, List.cons_append]
      exact (List.perm_middle.trans (ih.cons next)).cons item

theorem balanceOrder_perm (forceGroupSize : ℕ) (workloads : List ℕ)
    (partitions : List (List ℕ)) :
    (balanceOrder forceGroupSize workloads partitions).Perm partitions := by
  simp only [balanceOrder]
  calc _ ~ _ := (List.reverse_perm _).append_right _
    _ ~ _ := everySecond_perm _
    _ ~ partitions := List.perm_insertionSort _ _

/-- The groups one after the other are all samples. -/
theorem flatMap_groupPositions (forceGroupSize numGroups : ℕ) :
    (List.range numGroups).flatMap (groupPositions forceGroupSize) =
      List.range (numGroups * forceGroupSize) := by
  induction numGroups with
  | zero => simp
  | succ numGroups ih =>
      rw [List.range_succ, List.flatMap_append, ih, List.flatMap_singleton, groupPositions,
        List.range_eq_range', List.range_eq_range', Nat.succ_mul]
      have happend : List.range' 0 (numGroups * forceGroupSize) ++
          List.range' (0 + numGroups * forceGroupSize) forceGroupSize =
            List.range' 0 (numGroups * forceGroupSize + forceGroupSize) := List.range'_append_1
      simpa using happend

/-- What is known of the partitions of a batch that is not refused. -/
structure Rearranged {ρ : Type} (batch : Batch ρ) (maxTokenLen : ℕ) (settings : Settings)
    (microBszIdx : List (List ℕ)) (count : ℕ) (groupIdx : List (List ℕ)) : Prop where
  groupSize_pos : 0 < settings.forceGroupSize
  groupSize_dvd : settings.forceGroupSize ∣ batch.seqLens.effective.length
  count_eq : numMicroBatches settings maxTokenLen batch.seqLens.effective.sum
    (batch.seqLens.effective.length / settings.forceGroupSize) = .ok count
  count_le : count ≤ batch.seqLens.effective.length / settings.forceGroupSize
  balanced : Balanced (groupWorkloads settings.forceGroupSize batch.seqLens.effective) count
    groupIdx
  workloads_ne_nil : groupWorkloads settings.forceGroupSize batch.seqLens.effective ≠ []
  nonempty : ∀ groups ∈ groupIdx, groups ≠ []
  perm : microBszIdx.Perm (groupIdx.map fun groups =>
    groups.flatMap (groupPositions settings.forceGroupSize))

theorem rearranged_of_ok {ρ : Type} {batch : Batch ρ} {maxTokenLen : ℕ} {settings : Settings}
    {microBatches : List (List ρ)} {microBszIdx : List (List ℕ)}
    (hok : rearrangeMicroBatches batch maxTokenLen settings = .ok (microBatches, microBszIdx)) :
    microBatches = microBszIdx.map (fun partition => gather partition batch.rows) ∧
      ∃ count groupIdx, Rearranged batch maxTokenLen settings microBszIdx count groupIdx := by
  obtain ⟨maxSeqLen, -, hok⟩ := bind_eq_ok.mp hok
  split at hok
  next => contradiction
  next =>
    split at hok
    next => contradiction
    next hpos =>
      split at hok
      next => contradiction
      next hdvd =>
        obtain ⟨count, hcount, hok⟩ := bind_eq_ok.mp hok
        split at hok
        next => contradiction
        next hle =>
          obtain ⟨groupIdx, hgroups, hok⟩ := bind_eq_ok.mp hok
          obtain ⟨hbalanced, hnonempty⟩ := getSeqlenBalancedPartitions_balanced hgroups
          rw [Except.ok.injEq, Prod.mk.injEq] at hok
          obtain ⟨hbatches, hidx⟩ := hok
          refine ⟨by rw [← hbatches, ← hidx], count, groupIdx, Nat.pos_of_ne_zero hpos,
            Nat.dvd_of_mod_eq_zero (not_not.mp hdvd), hcount, not_lt.mp hle, hbalanced,
            ne_nil_of_getSeqlenBalancedPartitions hgroups, hnonempty, ?_⟩
          rw [← hidx]
          split
          next => exact balanceOrder_perm _ _ _
          next => exact .refl _

namespace Rearranged

variable {ρ : Type} {batch : Batch ρ} {maxTokenLen : ℕ} {settings : Settings}
  {microBszIdx : List (List ℕ)} {count : ℕ} {groupIdx : List (List ℕ)}

theorem length_groupWorkloads (forceGroupSize : ℕ) (seqLens : List ℕ) :
    (groupWorkloads forceGroupSize seqLens).length = seqLens.length / forceGroupSize := by
  simp [groupWorkloads]

/-- Every row is in one micro batch, once. -/
theorem flatten_perm
    (hrearranged : Rearranged batch maxTokenLen settings microBszIdx count groupIdx) :
    microBszIdx.flatten.Perm (List.range batch.rows.length) := by
  have hgroups := hrearranged.balanced.perm
  rw [length_groupWorkloads] at hgroups
  calc microBszIdx.flatten
      ~ (groupIdx.map fun groups =>
          groups.flatMap (groupPositions settings.forceGroupSize)).flatten :=
        hrearranged.perm.flatten
    _ = groupIdx.flatten.flatMap (groupPositions settings.forceGroupSize) := by
        rw [← List.flatMap_def, List.flatten_eq_flatMap, List.flatMap_assoc]
        rfl
    _ ~ (List.range (batch.seqLens.effective.length / settings.forceGroupSize)).flatMap
          (groupPositions settings.forceGroupSize) := hgroups.flatMap_right _
    _ = List.range batch.rows.length := by
        rw [flatMap_groupPositions, Nat.div_mul_cancel hrearranged.groupSize_dvd, batch.aligned]

/-- There is at least one micro batch. -/
theorem ne_nil (hrearranged : Rearranged batch maxTokenLen settings microBszIdx count groupIdx) :
    microBszIdx ≠ [] := by
  intro hnil
  have hgroups : groupIdx = [] := by
    have hperm := hrearranged.perm
    rw [hnil, List.nil_perm] at hperm
    exact List.map_eq_nil_iff.mp hperm
  have hworkloads := hrearranged.balanced.perm
  rw [hgroups, List.flatten_nil, List.nil_perm] at hworkloads
  exact hrearranged.workloads_ne_nil
    (List.eq_nil_of_length_eq_zero (List.range_eq_nil.mp hworkloads))

end Rearranged

theorem le_ceildiv_mul (a : ℕ) {b : ℕ} (hb : 0 < b) : a ≤ ceildiv a b * b := by
  have hdiv := Nat.div_add_mod (a + b - 1) b
  have hmod := Nat.mod_lt (a + b - 1) hb
  rw [ceildiv, Nat.mul_comm]
  omega

theorem le_roundupDivisible (a : ℕ) {b : ℕ} (hb : 0 < b) : a ≤ roundupDivisible a b :=
  le_ceildiv_mul a hb

theorem le_foldl_max (start : ℕ) (values : List ℕ) : start ≤ values.foldl max start := by
  induction values generalizing start with
  | nil => exact le_rfl
  | cons value values ih => exact (Nat.le_max_left _ _).trans (ih _)

/-- The count is never lowered below what the tokens ask for, up to the number of
groups. -/
theorem le_numMicroBatches {settings : Settings} {maxTokenLen totalSeqlen numGroups count : ℕ}
    (hcount : numMicroBatches settings maxTokenLen totalSeqlen numGroups = .ok count) :
    0 < maxTokenLen ∧ min numGroups (ceildiv totalSeqlen maxTokenLen) ≤ count := by
  unfold numMicroBatches at hcount
  split at hcount
  next => contradiction
  next hpos =>
    refine ⟨Nat.pos_of_ne_zero hpos, ?_⟩
    dsimp only at hcount
    split at hcount
    next => contradiction
    next divisor hdivisor _ =>
      rw [← Except.ok.inj hcount]
      refine le_trans ?_ (le_roundupDivisible _ (Nat.pos_of_ne_zero hdivisor))
      split <;> split
      next => exact (Nat.le_max_right _ _).trans (le_foldl_max _ _)
      next => exact le_foldl_max _ _
      next => exact Nat.le_max_right _ _
      next => exact le_rfl
    next =>
      rw [← Except.ok.inj hcount]
      split <;> split
      next => exact (Nat.le_max_right _ _).trans (le_foldl_max _ _)
      next => exact le_foldl_max _ _
      next => exact Nat.le_max_right _ _
      next => exact le_rfl

/-- A workload counts every token at a fixed rate, and more for long sequences. -/
theorem sum_workload_bounds {longest : ℕ} {seqLens : List ℕ}
    (hlongest : ∀ seqlen ∈ seqLens, seqlen ≤ longest) :
    24576 * seqLens.sum ≤ (seqLens.map calculateWorkload).sum ∧
      (seqLens.map calculateWorkload).sum ≤ (24576 + longest) * seqLens.sum := by
  induction seqLens with
  | nil => simp
  | cons seqlen seqLens ih =>
      obtain ⟨hlow, hhigh⟩ := ih fun other hother =>
        hlongest other (List.mem_cons_of_mem _ hother)
      have hsquare : seqlen ^ 2 ≤ longest * seqlen := by
        rw [Nat.pow_two]
        exact Nat.mul_le_mul_right _ (hlongest seqlen List.mem_cons_self)
      have hsplit : (24576 + longest) * (seqlen + seqLens.sum) =
          24576 * seqlen + longest * seqlen + (24576 + longest) * seqLens.sum := by ring
      rw [List.map_cons, List.sum_cons, List.sum_cons, calculateWorkload]
      constructor
      · omega
      · omega

theorem sum_le_of_length_le {values : List ℕ} {bound size : ℕ}
    (hvalues : ∀ value ∈ values, value ≤ bound) (hlength : values.length ≤ size) :
    values.sum ≤ size * bound := by
  calc values.sum ≤ values.length * bound := by
        simpa using List.sum_le_card_nsmul values bound hvalues
    _ ≤ size * bound := Nat.mul_le_mul_right _ hlength

/-- `gather` hands out no more items than positions. -/
theorem length_gather_le (positions items : List ℕ) :
    (gather positions items).length ≤ positions.length := by
  rw [length_gather]
  exact List.length_filter_le _ _

/-- The tokens at some positions of the batch. -/
def tokens (seqLens positions : List ℕ) : ℕ := (gather positions seqLens).sum

/-- The workload at some positions of the batch. -/
def workload (seqLens positions : List ℕ) : ℕ :=
  (gather positions (seqLens.map calculateWorkload)).sum

theorem workload_bounds {longest : ℕ} {seqLens : List ℕ}
    (hlongest : ∀ seqlen ∈ seqLens, seqlen ≤ longest) (positions : List ℕ) :
    24576 * tokens seqLens positions ≤ workload seqLens positions ∧
      workload seqLens positions ≤ (24576 + longest) * tokens seqLens positions := by
  rw [workload, tokens, ← map_gather]
  exact sum_workload_bounds fun seqlen hseqlen => hlongest seqlen (mem_of_mem_gather hseqlen)

theorem workload_append (seqLens first second : List ℕ) :
    workload seqLens (first ++ second) = workload seqLens first + workload seqLens second := by
  rw [workload, gather_append, List.sum_append, workload, workload]

theorem workload_perm {seqLens positions others : List ℕ} (hperm : positions.Perm others) :
    workload seqLens positions = workload seqLens others :=
  (hperm.filterMap _).sum_eq

/-- The tokens of a group of samples. -/
theorem tokens_groupPositions_le {forceGroupSize longest : ℕ} {seqLens : List ℕ}
    (hlongest : ∀ seqlen ∈ seqLens, seqlen ≤ longest) (group : ℕ) :
    tokens seqLens (groupPositions forceGroupSize group) ≤ forceGroupSize * longest := by
  apply sum_le_of_length_le fun seqlen hseqlen => hlongest seqlen (mem_of_mem_gather hseqlen)
  exact (length_gather_le _ _).trans (by simp [groupPositions])

/-- The workload of some groups is the workload of their samples. -/
theorem sum_gather_groupWorkloads {forceGroupSize : ℕ} {seqLens groups : List ℕ}
    (hgroups : ∀ group ∈ groups, group < seqLens.length / forceGroupSize) :
    (gather groups (groupWorkloads forceGroupSize seqLens)).sum =
      workload seqLens (groups.flatMap (groupPositions forceGroupSize)) := by
  induction groups with
  | nil => rfl
  | cons group groups ih =>
      have hgroup := hgroups group List.mem_cons_self
      have hrest := ih fun other hother => hgroups other (List.mem_cons_of_mem _ hother)
      have hlt : group < (groupWorkloads forceGroupSize seqLens).length := by
        simpa [groupWorkloads] using hgroup
      rw [gather_cons hlt, List.sum_cons, hrest, List.flatMap_cons, workload_append]
      congr 1
      simp [groupWorkloads, workload]

/-- As many non-empty lists as they have items together hold one item each. -/
theorem length_eq_one_of_nonempty {parts : List (List ℕ)}
    (hnonempty : ∀ part ∈ parts, part ≠ []) (hlength : parts.flatten.length ≤ parts.length) :
    ∀ part ∈ parts, part.length = 1 := by
  induction parts with
  | nil => simp
  | cons part parts ih =>
      rw [List.forall_mem_cons] at hnonempty ⊢
      rw [List.flatten_cons, List.length_append, List.length_cons] at hlength
      have hpart := List.length_pos_of_ne_nil hnonempty.1
      have hparts : parts.length ≤ parts.flatten.length := by
        rw [List.length_flatten]
        simpa using List.length_le_sum_of_one_le (parts.map List.length) fun size hsize => by
          obtain ⟨other, hother, rfl⟩ := List.mem_map.mp hsize
          exact List.length_pos_of_ne_nil (hnonempty.2 other hother)
      exact ⟨by omega, ih hnonempty.2 (by omega)⟩

namespace Rearranged

variable {ρ : Type} {batch : Batch ρ} {maxTokenLen : ℕ} {settings : Settings}
  {microBszIdx : List (List ℕ)} {count : ℕ} {groupIdx : List (List ℕ)}

theorem mem_groups (hrearranged : Rearranged batch maxTokenLen settings microBszIdx count groupIdx)
    {groups : List ℕ} (hgroups : groups ∈ groupIdx) {group : ℕ} (hgroup : group ∈ groups) :
    group < batch.seqLens.effective.length / settings.forceGroupSize := by
  have hmem := hrearranged.balanced.perm.mem_iff.mp (List.mem_flatten.mpr ⟨_, hgroups, hgroup⟩)
  rw [length_groupWorkloads] at hmem
  exact List.mem_range.mp hmem

/-- The micro batches share the tokens out as if each had `maxTokenLen`, or hold
one group each. -/
theorem average (hrearranged : Rearranged batch maxTokenLen settings microBszIdx count groupIdx) :
    batch.seqLens.effective.sum ≤ microBszIdx.length * maxTokenLen ∨
      ∀ groups ∈ groupIdx, groups.length = 1 := by
  obtain ⟨hpos, hcount⟩ := le_numMicroBatches hrearranged.count_eq
  have hlength : microBszIdx.length = count := by
    rw [hrearranged.perm.length_eq, List.length_map, hrearranged.balanced.length_eq]
  rcases min_le_iff.mp hcount with hgroups | htokens
  · right
    apply length_eq_one_of_nonempty hrearranged.nonempty
    rw [hrearranged.balanced.perm.length_eq, List.length_range, length_groupWorkloads,
      hrearranged.balanced.length_eq]
    exact hgroups
  · left
    rw [hlength]
    exact (le_ceildiv_mul _ hpos).trans (Nat.mul_le_mul_right _ htokens)

/-- No micro batch has more work than the average one and the heaviest group
together. -/
theorem workload_le (hrearranged : Rearranged batch maxTokenLen settings microBszIdx count groupIdx)
    {longest : ℕ} (hlongest : ∀ seqlen ∈ batch.seqLens.effective, seqlen ≤ longest)
    {groups : List ℕ} (hgroups : groups ∈ groupIdx) :
    microBszIdx.length * workload batch.seqLens.effective
        (groups.flatMap (groupPositions settings.forceGroupSize)) ≤
      (24576 + longest) * batch.seqLens.effective.sum +
        (microBszIdx.length - 1) *
          ((24576 + longest) * (settings.forceGroupSize * longest)) := by
  let seqLens := batch.seqLens.effective
  let sums := groupIdx.map fun groups =>
    (gather groups (groupWorkloads settings.forceGroupSize seqLens)).sum
  have hsums : sums = groupIdx.map fun groups =>
      workload seqLens (groups.flatMap (groupPositions settings.forceGroupSize)) :=
    List.map_congr_left fun groups hgroups =>
      sum_gather_groupWorkloads fun group => hrearranged.mem_groups hgroups
  have hgroup : ∀ sum ∈ groupWorkloads settings.forceGroupSize seqLens,
      sum ≤ (24576 + longest) * (settings.forceGroupSize * longest) := by
    intro sum hsum
    obtain ⟨group, -, rfl⟩ := List.mem_map.mp hsum
    exact (workload_bounds hlongest _).2.trans
      (Nat.mul_le_mul_left _ (tokens_groupPositions_le hlongest group))
  have htotal : sums.sum = workload seqLens (List.range seqLens.length) := by
    have hflatten : ∀ parts : List (List ℕ),
        (parts.map (workload seqLens)).sum = workload seqLens parts.flatten := by
      intro parts
      induction parts with
      | nil => rfl
      | cons part parts ih =>
          rw [List.map_cons, List.sum_cons, ih, List.flatten_cons, workload_append]
    calc sums.sum = ((groupIdx.map fun groups =>
          groups.flatMap (groupPositions settings.forceGroupSize)).map
            (workload seqLens)).sum := by rw [hsums, List.map_map]; rfl
      _ = (microBszIdx.map (workload seqLens)).sum :=
          (hrearranged.perm.map _).sum_eq.symm
      _ = workload seqLens microBszIdx.flatten := hflatten _
      _ = workload seqLens (List.range seqLens.length) := by
          rw [workload_perm hrearranged.flatten_perm, batch.aligned]
  have hall : tokens seqLens (List.range seqLens.length) = seqLens.sum := by
    rw [tokens, gather_range]
  have hlength : sums.length = microBszIdx.length := by
    rw [hrearranged.perm.length_eq, List.length_map, List.length_map]
  have hspread := hrearranged.balanced.spreadLe _ hgroup
  have hmem : workload seqLens (groups.flatMap (groupPositions settings.forceGroupSize)) ∈
      sums := by
    rw [hsums]
    exact List.mem_map_of_mem hgroups
  have hbound := hspread.length_mul_le hmem
  change sums.length * _ ≤ sums.sum + (sums.length - 1) * _ at hbound
  rw [hlength, htotal] at hbound
  refine hbound.trans (Nat.add_le_add_right ?_ _)
  rw [← hall]
  exact (workload_bounds hlongest _).2

/-- One group to a micro batch: the consecutive positions of one group, which
are one sequence when `forceGroupSize` is one. -/
theorem oneGroup (hrearranged : Rearranged batch maxTokenLen settings microBszIdx count groupIdx)
    (hone : ∀ groups ∈ groupIdx, groups.length = 1) :
    ∀ partition ∈ microBszIdx,
      ∃ group < batch.seqLens.effective.length / settings.forceGroupSize,
        partition = groupPositions settings.forceGroupSize group := by
  intro partition hpartition
  obtain ⟨groups, hmem, hflat⟩ := List.mem_map.mp (hrearranged.perm.mem_iff.mp hpartition)
  obtain ⟨group, hgroup⟩ := List.length_eq_one_iff.mp (hone groups hmem)
  subst hgroup
  refine ⟨group, hrearranged.mem_groups hmem List.mem_cons_self, ?_⟩
  rw [← hflat]
  exact List.flatMap_singleton _ _

end Rearranged

/-- The tokens of a micro batch are bounded through its workload: it has at most
`maxTokenLen + forceGroupSize * longest` of them, up to the weight that long
sequences have in the workload.  On the average, micro batches stay below
`maxTokenLen`, unless each of them is one group. -/
theorem rearrangeMicroBatches_tokens {ρ : Type} (batch : Batch ρ) (maxTokenLen : ℕ)
    (settings : Settings) (longest : ℕ)
    (hlongest : ∀ seqlen ∈ batch.seqLens.effective, seqlen ≤ longest)
    (microBatches : List (List ρ)) (microBszIdx : List (List ℕ))
    (hok : rearrangeMicroBatches batch maxTokenLen settings = .ok (microBatches, microBszIdx)) :
    microBatches = microBszIdx.map (fun partition => gather partition batch.rows) ∧
    (batch.seqLens.effective.sum ≤ microBszIdx.length * maxTokenLen ∨
      ∀ partition ∈ microBszIdx,
        (∃ group < batch.seqLens.effective.length / settings.forceGroupSize,
          partition = groupPositions settings.forceGroupSize group) ∧
        tokens batch.seqLens.effective partition ≤ settings.forceGroupSize * longest) ∧
    ∀ partition ∈ microBszIdx,
      24576 * tokens batch.seqLens.effective partition ≤
        (maxTokenLen + settings.forceGroupSize * longest) * (24576 + longest) := by
  obtain ⟨hbatches, count, groupIdx, hrearranged⟩ := rearranged_of_ok hok
  have hone : (∀ groups ∈ groupIdx, groups.length = 1) → ∀ partition ∈ microBszIdx,
      (∃ group < batch.seqLens.effective.length / settings.forceGroupSize,
        partition = groupPositions settings.forceGroupSize group) ∧
      tokens batch.seqLens.effective partition ≤ settings.forceGroupSize * longest := by
    intro hone partition hpartition
    obtain ⟨group, hgroup, hpositions⟩ := hrearranged.oneGroup hone partition hpartition
    refine ⟨⟨group, hgroup, hpositions⟩, ?_⟩
    rw [hpositions]
    exact tokens_groupPositions_le hlongest group
  refine ⟨hbatches, hrearranged.average.imp_right hone, fun partition hpartition => ?_⟩
  rcases hrearranged.average with haverage | hsingle
  · obtain ⟨groups, hmem, rfl⟩ := List.mem_map.mp (hrearranged.perm.mem_iff.mp hpartition)
    have hpos : 0 < microBszIdx.length := List.length_pos_of_mem hpartition
    have hwork := hrearranged.workload_le hlongest hmem
    have htokens := (workload_bounds hlongest
      (groups.flatMap (groupPositions settings.forceGroupSize))).1
    refine htokens.trans (Nat.le_of_mul_le_mul_left (hwork.trans ?_) hpos)
    calc (24576 + longest) * batch.seqLens.effective.sum + (microBszIdx.length - 1) *
          ((24576 + longest) * (settings.forceGroupSize * longest))
        ≤ (24576 + longest) * (microBszIdx.length * maxTokenLen) + microBszIdx.length *
          ((24576 + longest) * (settings.forceGroupSize * longest)) :=
          Nat.add_le_add (Nat.mul_le_mul_left _ haverage)
            (Nat.mul_le_mul_right _ (Nat.sub_le _ _))
      _ = microBszIdx.length *
          ((maxTokenLen + settings.forceGroupSize * longest) * (24576 + longest)) := by ring
  · calc 24576 * tokens batch.seqLens.effective partition
        ≤ 24576 * (settings.forceGroupSize * longest) :=
          Nat.mul_le_mul_left _ (hone hsingle partition hpartition).2
      _ ≤ (24576 + longest) * (maxTokenLen + settings.forceGroupSize * longest) :=
          Nat.mul_le_mul (Nat.le_add_right _ _) (Nat.le_add_left _ _)
      _ = _ := Nat.mul_comm _ _

/-- Three sequences of three tokens, of which five fit into a micro batch. -/
def threeSequences : Batch ℕ := ⟨[0, 1, 2], .nested [3, 3, 3], rfl⟩

def balancedSettings : Settings := ⟨none, none, none, true, 1⟩

theorem threeSequences_tokens :
    ([[0, 1], [2]] = [[0, 1], [2]].map (fun partition => gather partition [0, 1, 2])) ∧
    ((9 ≤ 2 * 5) ∨ ∀ partition ∈ [[0, 1], [2]],
        (∃ group < 3 / 1, partition = groupPositions 1 group) ∧
        tokens threeSequences.seqLens.effective partition ≤ 1 * 3) ∧
    ∀ partition ∈ [[0, 1], [2]],
      24576 * tokens threeSequences.seqLens.effective partition ≤ (5 + 1 * 3) * (24576 + 3) :=
  rearrangeMicroBatches_tokens threeSequences 5 balancedSettings 3 (by decide)
    [[0, 1], [2]] [[0, 1], [2]] rfl

/-- Two micro batches suffice for nine tokens, but two sequences together have
six. -/
theorem threeSequences_over_cap :
    (∀ seqlen ∈ threeSequences.seqLens.effective, seqlen ≤ 5) ∧
    rearrangeMicroBatches threeSequences 5 balancedSettings =
      .ok ([[0, 1], [2]], [[0, 1], [2]]) ∧
    ¬ ∀ partition ∈ [[0, 1], [2]], tokens threeSequences.seqLens.effective partition ≤ 5 :=
  ⟨by decide, rfl, by decide⟩

end OneShotOPD.SeqlenBalancing
