import OneShotOPD.SeqlenBalancing.MicroBatches

/-!
# The number of micro batches

The number that the tokens of a rank ask for is at most the number of its groups.  It is
then raised to a minimum, to the numbers of the other ranks and to a multiple, and none of
these looks at the groups again.
-/

namespace OneShotOPD.SeqlenBalancing

open Checks

/-- The largest number of micro batches that the groups allow. -/
def placeable (settings : Settings) (numGroups : ℕ) : ℕ :=
  match settings.numBatchesDividedBy with
  | some divisor => numGroups / divisor * divisor
  | none => numGroups

/-- The number of micro batches is at most the number of groups, and no micro batch is
empty. -/
def CountFits {ρ : Type} (batch : Batch ρ) (maxTokenLen : ℕ) (settings : Settings) : Prop :=
  (∃ count, numMicroBatches settings maxTokenLen batch.seqLens.effective.sum
      (batch.seqLens.effective.length / settings.forceGroupSize) = .ok count ∧
    count ≤ batch.seqLens.effective.length / settings.forceGroupSize) ∧
  ∀ microBatches microBszIdx,
    rearrangeMicroBatches batch maxTokenLen settings = .ok (microBatches, microBszIdx) →
      ∀ microBatch ∈ microBatches, microBatch ≠ []

theorem roundupDivisible_le_iff (a bound : ℕ) {b : ℕ} (hb : 0 < b) :
    roundupDivisible a b ≤ bound ↔ a ≤ bound / b * b := by
  rw [roundupDivisible, ← Nat.le_div_iff_mul_le hb, Nat.div_le_iff_le_mul_add_pred hb,
    Nat.mul_comm]
  omega

theorem foldl_max_le_iff (start bound : ℕ) (values : List ℕ) :
    values.foldl max start ≤ bound ↔ start ≤ bound ∧ ∀ value ∈ values, value ≤ bound := by
  induction values generalizing start with
  | nil => simp
  | cons value values ih => rw [List.foldl_cons, ih, max_le_iff, List.forall_mem_cons, and_assoc]

/-- The number before it is rounded up. -/
def raisedCount (settings : Settings) (count : ℕ) : ℕ :=
  let count := match settings.minNumMicroBatch with
    | some minimum => max minimum count
    | none => count
  match settings.dpCounts with
  | some counts => counts.foldl max count
  | none => count

theorem raisedCount_le_iff (settings : Settings) (count bound : ℕ) :
    raisedCount settings count ≤ bound ↔ count ≤ bound ∧
      (∀ minimum, settings.minNumMicroBatch = some minimum → minimum ≤ bound) ∧
      ∀ counts, settings.dpCounts = some counts → ∀ other ∈ counts, other ≤ bound := by
  rw [raisedCount]
  cases settings.minNumMicroBatch <;> cases settings.dpCounts <;>
    simp [foldl_max_le_iff, and_comm, and_assoc]

theorem numMicroBatches_eq (settings : Settings) (maxTokenLen totalSeqlen numGroups : ℕ) :
    numMicroBatches settings maxTokenLen totalSeqlen numGroups =
      if maxTokenLen = 0 then .error "ZeroDivisionError"
      else
        let count :=
          raisedCount settings (min numGroups (ceildiv totalSeqlen maxTokenLen))
        match settings.numBatchesDividedBy with
        | some 0 => .error "ZeroDivisionError"
        | some divisor => .ok (roundupDivisible count divisor)
        | none => .ok count := rfl

/-- The number fits exactly when everything that it is raised to fits by itself. -/
theorem numMicroBatches_le_iff (settings : Settings) (maxTokenLen totalSeqlen numGroups : ℕ) :
    (∃ count, numMicroBatches settings maxTokenLen totalSeqlen numGroups = .ok count ∧
        count ≤ numGroups) ↔
      0 < maxTokenLen ∧ settings.numBatchesDividedBy ≠ some 0 ∧
        min numGroups (ceildiv totalSeqlen maxTokenLen) ≤ placeable settings numGroups ∧
        (∀ minimum, settings.minNumMicroBatch = some minimum →
          minimum ≤ placeable settings numGroups) ∧
        ∀ counts, settings.dpCounts = some counts →
          ∀ count ∈ counts, count ≤ placeable settings numGroups := by
  rw [← raisedCount_le_iff, numMicroBatches_eq, placeable]
  by_cases hzero : maxTokenLen = 0
  · simp [hzero]
  · rw [if_neg hzero]
    have hpos := Nat.pos_of_ne_zero hzero
    cases settings.numBatchesDividedBy with
    | none => simp [hpos]
    | some divisor =>
        cases divisor with
        | zero => simp
        | succ divisor =>
            simp [hpos, roundupDivisible_le_iff _ _ (Nat.succ_pos divisor)]

/-- The micro batches of a batch that is not refused are not empty. -/
theorem microBatches_ne_nil {ρ : Type} {batch : Batch ρ} {maxTokenLen : ℕ}
    {settings : Settings} {microBatches : List (List ρ)} {microBszIdx : List (List ℕ)}
    (hok : rearrangeMicroBatches batch maxTokenLen settings = .ok (microBatches, microBszIdx)) :
    ∀ microBatch ∈ microBatches, microBatch ≠ [] := by
  obtain ⟨rfl, count, groupIdx, hrearranged⟩ := rearranged_of_ok hok
  intro microBatch hmicroBatch hnil
  obtain ⟨partition, hpartition, rfl⟩ := List.mem_map.mp hmicroBatch
  have hrows : ∀ row ∈ partition, row < batch.rows.length := fun row hrow =>
    List.mem_range.mp (hrearranged.flatten_perm.mem_iff.mp
      (List.mem_flatten.mpr ⟨partition, hpartition, hrow⟩))
  have hlength := length_gather_of_lt hrows
  rw [hnil, List.length_nil] at hlength
  obtain ⟨groups, hgroups, hflat⟩ := List.mem_map.mp (hrearranged.perm.mem_iff.mp hpartition)
  obtain ⟨group, hgroup⟩ := List.exists_mem_of_ne_nil _ (hrearranged.nonempty groups hgroups)
  have hmem : group * settings.forceGroupSize ∈ partition := by
    rw [← hflat]
    refine List.mem_flatMap.mpr ⟨group, hgroup, ?_⟩
    simp [groupPositions, hrearranged.groupSize_pos]
  rw [List.eq_nil_of_length_eq_zero hlength.symm] at hmem
  exact absurd hmem List.not_mem_nil

/-- The number of micro batches fits the groups exactly when the own number, the minimum
and the numbers of the other ranks are at most the largest multiple of the divisor that
the groups allow. -/
theorem countFits_iff {ρ : Type} (batch : Batch ρ) (maxTokenLen : ℕ) (settings : Settings) :
    CountFits batch maxTokenLen settings ↔
      0 < maxTokenLen ∧ settings.numBatchesDividedBy ≠ some 0 ∧
        min (batch.seqLens.effective.length / settings.forceGroupSize)
            (ceildiv batch.seqLens.effective.sum maxTokenLen) ≤
          placeable settings (batch.seqLens.effective.length / settings.forceGroupSize) ∧
        (∀ minimum, settings.minNumMicroBatch = some minimum →
          minimum ≤
            placeable settings (batch.seqLens.effective.length / settings.forceGroupSize)) ∧
        ∀ counts, settings.dpCounts = some counts → ∀ count ∈ counts,
          count ≤
            placeable settings (batch.seqLens.effective.length / settings.forceGroupSize) := by
  rw [CountFits, numMicroBatches_le_iff]
  exact and_iff_left fun microBatches microBszIdx hok => microBatches_ne_nil hok

/-- One row next to a rank that needs two micro batches. -/
def oneRow : Batch ℕ := ⟨[0], .nested [3], rfl⟩

theorem oneRow_not_countFits :
    rearrangeMicroBatches oneRow 4 ⟨some [2], none, none, true, 1⟩ =
        .error "AssertionError: num_micro_batches <= num_groups" ∧
      ¬ CountFits oneRow 4 ⟨some [2], none, none, true, 1⟩ := by
  refine ⟨rfl, ?_⟩
  rintro ⟨⟨count, hcount, hle⟩, -⟩
  obtain rfl : 2 = count := Except.ok.inj hcount
  exact absurd hle (by decide)

end OneShotOPD.SeqlenBalancing
