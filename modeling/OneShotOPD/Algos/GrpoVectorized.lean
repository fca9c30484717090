import OneShotOPD.Algos.Groupwise
import OneShotOPD.Core.Literals
import Mathlib

/-!
# The vectorised GRPO advantage

The vectorised advantage is the one of the loop when the integers of
`as_torch_index` group the rows as the labels of the loop do.
-/

namespace OneShotOPD.CoreAlgos

open SampleStats

variable {B T : ℕ}

/-! ## Group statistics -/

theorem groupCount_eq (gidx : Fin B → ℤ) (bin : ℤ) :
    groupCount gidx bin = (groupRows gidx bin).length := by
  simp [groupCount, indexAdd]

theorem one_le_groupCount (gidx : Fin B → ℤ) (row : Fin B) :
    1 ≤ (groupRows gidx (gidx row)).length :=
  List.length_pos_of_mem (mem_groupRows.mpr rfl)

theorem groupMean_eq (gidx : Fin B → ℤ) (scores : Fin B → ℝ) (row : Fin B) :
    groupMean gidx scores (gidx row) = mean ((groupRows gidx (gidx row)).map scores) := by
  have hcount : (1 : ℝ) ≤ (groupRows gidx (gidx row)).length := by
    exact_mod_cast one_le_groupCount gidx row
  rw [groupMean, groupCount_eq, max_eq_left hcount, mean, indexAdd, List.length_map]

/-- Without a floor the deviation is the unbiased one. -/
theorem groupStd_eq (gidx : Fin B → ℤ) (scores : Fin B → ℝ) {row : Fin B}
    (hgroup : (groupRows gidx (gidx row)).length ≠ 1) :
    groupStd gidx scores 0 (gidx row) = std ((groupRows gidx (gidx row)).map scores) := by
  have hlength : 2 ≤ (groupRows gidx (gidx row)).length := by
    have hpos := one_le_groupCount gidx row
    omega
  have hcount : (1 : ℝ) ≤ (groupRows gidx (gidx row)).length - 1 := by
    have hcast : (2 : ℝ) ≤ (groupRows gidx (gidx row)).length := by exact_mod_cast hlength
    linarith
  have hsquares : indexAdd gidx (fun other =>
      (scores other - groupMean gidx scores (gidx other)) *
        (scores other - groupMean gidx scores (gidx other))) (gidx row) =
        ((groupRows gidx (gidx row)).map fun other =>
          centered (groupRows gidx (gidx row)) scores other ^ 2).sum := by
    rw [indexAdd]
    congr 1
    refine List.map_congr_left fun other hother => ?_
    rw [groupMean_eq, mem_groupRows.mp hother, centered, sq]
  have hnonneg : 0 ≤ ((groupRows gidx (gidx row)).map fun other =>
      centered (groupRows gidx (gidx row)) scores other ^ 2).sum := by
    apply List.sum_nonneg
    intro value hvalue
    obtain ⟨other, _, rfl⟩ := List.mem_map.mp hvalue
    exact sq_nonneg _
  rw [std_map_eq_sqrt, groupStd]
  dsimp only
  rw [hsquares, groupCount_eq, max_eq_left hcount, max_eq_left (by positivity)]

/-- Nonnegative indices have statistics, those of the loop. -/
theorem groupMeanStd_eq_some (scores : Fin B → ℝ) {gidx : Fin B → ℤ}
    (hnonneg : ∀ row, 0 ≤ gidx row) :
    ∃ stats, groupMeanStd scores gidx 0 = some stats ∧ ∀ row,
      gidx row < stats.size ∧
      stats.mean (gidx row) = id2mean ((groupRows gidx (gidx row)).map scores) ∧
      stats.std (gidx row) = id2std ((groupRows gidx (gidx row)).map scores) := by
  have hraise : ¬ ∃ row, gidx row < 0 := fun ⟨row, hrow⟩ => absurd (hnonneg row) (not_le.mpr hrow)
  refine ⟨_, by rw [groupMeanStd]; exact if_neg fun hboth => hraise hboth.2, fun row => ?_⟩
  refine ⟨?_, ?_⟩
  · have hmem : gidx row ∈ List.ofFn gidx := List.mem_ofFn.mpr ⟨row, rfl⟩
    cases hmax : (List.ofFn gidx).max? with
    | none =>
        rw [List.max?_eq_none_iff.mp hmax] at hmem
        cases hmem
    | some largest =>
        have hle := (List.max?_eq_some_iff.mp hmax).2 (gidx row) hmem
        simp only [Option.map_some, Option.getD_some]
        omega
  · dsimp only
    rw [groupCount_eq]
    by_cases hsingle : (groupRows gidx (gidx row)).length = 1
    · obtain ⟨only, hgroup⟩ := List.length_eq_one_iff.mp hsingle
      simp [hgroup, id2mean, id2std]
    · have hmap : ((groupRows gidx (gidx row)).map scores).length ≠ 1 := by simpa using hsingle
      have hcount : ¬ ((groupRows gidx (gidx row)).length : ℝ) ≤ 1 := by
        have hpos := one_le_groupCount gidx row
        rw [not_le]
        exact_mod_cast (by omega : 1 < (groupRows gidx (gidx row)).length)
      rw [if_neg hcount, if_neg hcount, groupMean_eq, groupStd_eq _ _ hsingle,
        id2mean_of_length_ne hmap, id2std_of_length_ne hmap]
      exact ⟨rfl, rfl⟩

/-- Only the grouping of the labels matters. -/
theorem computeGrpoVectorized_eq_some {Uid : Type} [DecidableEq Uid] {text : PyText}
    {labels : LabelArray B} (index : Fin B → Uid) (tokenLevelRewards responseMask : Grid B T)
    (epsilon : ℝ) (normAdvByStdInGrpo : Bool) (hnonneg : ∀ row, 0 ≤ asTorchIndex text labels row)
    (hsame : ∀ row other, asTorchIndex text labels row = asTorchIndex text labels other ↔
      index row = index other) :
    computeGrpoVectorizedOutcomeAdvantage text tokenLevelRewards responseMask labels epsilon
        normAdvByStdInGrpo =
      some (computeGrpoOutcomeAdvantage tokenLevelRewards responseMask index epsilon
        normAdvByStdInGrpo) := by
  obtain ⟨stats, hstats, hrows⟩ := groupMeanStd_eq_some (outcomes tokenLevelRewards) hnonneg
  have hbounds : ∀ row, -stats.size ≤ asTorchIndex text labels row ∧
      asTorchIndex text labels row < stats.size := fun row => by
    have hrow := (hrows row).1
    have hpos := hnonneg row
    omega
  have hgroups : ∀ row, groupRows (asTorchIndex text labels) (asTorchIndex text labels row) =
      groupRows index (index row) := fun row => by
    simp only [groupRows, hsame]
  have hscore : ∀ row, (if normAdvByStdInGrpo then
      (outcomes tokenLevelRewards row - stats.mean (asTorchIndex text labels row)) /
        (stats.std (asTorchIndex text labels row) + epsilon)
      else outcomes tokenLevelRewards row - stats.mean (asTorchIndex text labels row)) =
        normalizedScore index epsilon normAdvByStdInGrpo (outcomes tokenLevelRewards) row := by
    intro row
    rw [(hrows row).2.1, (hrows row).2.2, hgroups, normalizedScore, getD_id2score]
  simp only [computeGrpoVectorizedOutcomeAdvantage, hstats, Option.bind_eq_bind, Option.bind_some]
  rw [if_pos hbounds]
  simp only [hscore]
  rfl

/-! ## Canonical labels -/

/-- An integer, the label itself, or its text. -/
abbrev CanonicalLabel := ℤ ⊕ LabelKey ⊕ String

noncomputable instance : DecidableEq CanonicalLabel := Classical.decEq _

open Classical in
/-- What stands for a label: an integer close to it, the integer that it denotes when
all labels of the array denote one, and otherwise the label, or its text when the
labels cannot be sorted. -/
noncomputable def LabelArray.canonical (text : PyText) : LabelArray B → Fin B → CanonicalLabel
  | .integers labels => fun row => .inl (labels row)
  | .floats labels => fun row => .inl (round (labels row))
  | .objects labels =>
      if ∀ row, ((labels row).toInt64? text).isSome then
        fun row => .inl (((labels row).toInt64? text).getD 0)
      else if ∀ row other, (labels row).Comparable (labels other) then
        fun row => .inr (.inl (labels row).key)
      else fun row => .inr (.inr (text.str (labels row)))

/-- A float object is a whole number. -/
def PyLabel.Whole : PyLabel → Prop
  | .float value => ∃ whole : ℤ, value = whole
  | _ => True

/-- The integers are not negative, the floats of an array are close to such ones, and
so are objects that all denote integers. -/
def LabelArray.Coercible (text : PyText) : LabelArray B → Prop
  | .integers labels => ∀ row, 0 ≤ labels row ∧ labels row < 2 ^ 63
  | .floats labels => NearInteger labels ∧
      ∀ row, 0 ≤ round (labels row) ∧ round (labels row) < 2 ^ 63
  | .objects labels => (∀ row, ((labels row).toInt64? text).isSome) → ∀ row,
      (labels row).Whole ∧ 0 ≤ ((labels row).toInt64? text).getD 0

theorem bmod_of_nonneg {value : ℤ} (hnonneg : 0 ≤ value) (hlt : value < 2 ^ 63) :
    value.bmod (2 ^ 64) = value := by
  rw [Int.bmod_eq_iff (by decide)]
  omega

theorem castInt64_of_nonneg {value : ℤ} (hnonneg : 0 ≤ value) (hlt : value < 2 ^ 63) :
    castInt64 value = value := by
  rw [castInt64, int64?, if_pos ⟨by omega, hlt⟩, Option.getD_some]

/-- The integers of `as_torch_index` can be used as indices, and stand for the
canonical labels. -/
theorem asTorchIndex_canonical (text : PyText) {labels : LabelArray B}
    (hcoercible : labels.Coercible text) :
    (∀ row, 0 ≤ asTorchIndex text labels row) ∧
    ∀ row other, asTorchIndex text labels row = asTorchIndex text labels other ↔
      labels.canonical text row = labels.canonical text other := by
  cases labels with
  | integers labels =>
      have heq : ∀ row, (labels row).bmod (2 ^ 64) = labels row := fun row =>
        bmod_of_nonneg (hcoercible row).1 (hcoercible row).2
      simp only [asTorchIndex, LabelArray.canonical, heq, Sum.inl.injEq, implies_true, and_true]
      exact fun row => (hcoercible row).1
  | floats labels =>
      obtain ⟨hnear, hbounds⟩ := hcoercible
      have heq : ∀ row, castInt64 (round (labels row)) = round (labels row) := fun row =>
        castInt64_of_nonneg (hbounds row).1 (hbounds row).2
      simp only [asTorchIndex, if_pos hnear, LabelArray.canonical, heq, Sum.inl.injEq,
        implies_true, and_true]
      exact fun row => (hbounds row).1
  | objects labels =>
      simp only [asTorchIndex, LabelArray.canonical]
      split
      next hints => exact ⟨fun row => (hcoercible hints row).2, by simp⟩
      next =>
        split
        next => exact ⟨fun row => Int.natCast_nonneg _, by simp [uniqueInverse_eq_iff]⟩
        next => exact ⟨fun row => Int.natCast_nonneg _, by simp [uniqueInverse_eq_iff]⟩

/-- The vectorised advantages are those of the loop over the canonical labels, and
over the labels themselves if distinct labels have distinct canonical forms. -/
theorem grpo_vectorized_eq_loop (text : PyText) (labels : LabelArray B)
    (hcoercible : labels.Coercible text) (tokenLevelRewards responseMask : Grid B T)
    (epsilon : ℝ) (normAdvByStdInGrpo : Bool) :
    (∀ row, 0 ≤ asTorchIndex text labels row) ∧
    (∀ row other, asTorchIndex text labels row = asTorchIndex text labels other ↔
      labels.canonical text row = labels.canonical text other) ∧
    computeGrpoVectorizedOutcomeAdvantage text tokenLevelRewards responseMask labels epsilon
        normAdvByStdInGrpo =
      some (computeGrpoOutcomeAdvantage tokenLevelRewards responseMask (labels.canonical text)
        epsilon normAdvByStdInGrpo) ∧
    ((∀ row other, labels.canonical text row = labels.canonical text other ↔
        labels.key row = labels.key other) →
      computeGrpoVectorizedOutcomeAdvantage text tokenLevelRewards responseMask labels epsilon
          normAdvByStdInGrpo =
        some (computeGrpoOutcomeAdvantage tokenLevelRewards responseMask labels.key epsilon
          normAdvByStdInGrpo)) := by
  obtain ⟨hnonneg, hsame⟩ := asTorchIndex_canonical text hcoercible
  refine ⟨hnonneg, hsame, computeGrpoVectorized_eq_some _ _ _ _ _ hnonneg hsame,
    fun hdistinct => ?_⟩
  exact computeGrpoVectorized_eq_some _ _ _ _ _ hnonneg fun row other =>
    (hsame row other).trans (hdistinct row other)

/-- Two responses to one prompt, and one to another. -/
theorem integers_grpo_vectorized_eq_loop :
    computeGrpoVectorizedOutcomeAdvantage ⟨fun _ => none, fun _ => ""⟩
        (fun row _ => row : Grid 3 1) (fun _ _ => 1) (.integers ![5, 0, 5]) grpoEpsilon true =
      some (computeGrpoOutcomeAdvantage (fun row _ => row) (fun _ _ => 1)
        (LabelArray.integers ![5, 0, 5]).key grpoEpsilon true) := by
  let labels : Fin 3 → ℤ := ![5, 0, 5]
  have hcoercible : ∀ row, 0 ≤ labels row ∧ labels row < 2 ^ 63 := by decide
  refine (grpo_vectorized_eq_loop _ (.integers labels) hcoercible _ _ _ _).2.2.2 ?_
  intro row other
  simp [LabelArray.canonical, LabelArray.key, PyLabel.key]

attribute [local instance] Literals.atLeastTwo_ten in
/-- Two floats that are close to one. -/
noncomputable def closeLabels : LabelArray 2 := .floats fun row => 1 + row / 10 ^ 7

theorem grpo_vectorized_ne_loop :
    computeGrpoVectorizedOutcomeAdvantage ⟨fun _ => none, fun _ => ""⟩
        (fun row _ => row : Grid 2 1) (fun _ _ => 1) closeLabels 0 false ≠
      some (computeGrpoOutcomeAdvantage (fun row _ => row) (fun _ _ => 1) closeLabels.key 0
        false) := by
  have hround : ∀ row : Fin 2, round ((1 : ℝ) + row / 10 ^ 7) = 1 :=
    Fin.forall_fin_two.mpr ⟨round_eq_iff.mpr (by norm_num), round_eq_iff.mpr (by norm_num)⟩
  have hnear : NearInteger fun row : Fin 2 => (1 : ℝ) + row / 10 ^ 7 := by
    rw [NearInteger, Fin.forall_fin_two, hround, hround]
    norm_num
  have hindex : ∀ row, asTorchIndex ⟨fun _ => none, fun _ => ""⟩ closeLabels row = 1 := fun row => by
    simp only [asTorchIndex, closeLabels, if_pos hnear, hround]
    rfl
  have hmerged : groupRows (fun _ : Fin 2 => ()) () = [0, 1] := rfl
  have halone : groupRows closeLabels.key (closeLabels.key 1) = [1] := by
    have hfilter : ∀ row, closeLabels.key row = closeLabels.key 1 ↔ row = 1 :=
      Fin.forall_fin_two.mpr
        ⟨by norm_num [closeLabels, LabelArray.key, PyLabel.key], by simp⟩
    simp only [groupRows, hfilter]
    rfl
  intro heq
  rw [computeGrpoVectorized_eq_some (fun _ => ()) _ _ _ _
    (fun row => by rw [hindex]; exact Int.one_nonneg) (by simp [hindex])] at heq
  have hentry := congrFun (congrFun (congrArg Prod.fst (Option.some.inj heq)) 1) 0
  simp only [computeGrpoOutcomeAdvantage, mul_one] at hentry
  rw [normalizedScore_group _ _ _ (by rw [hmerged]; decide),
    normalizedScore_singleton _ _ _ (by rw [halone]; rfl), hmerged] at hentry
  norm_num [centered, mean, outcomes] at hentry

end OneShotOPD.CoreAlgos
