import OneShotOPD.Algos.Estimators

/-!
# Groups of a padded batch

Rows behind the real ones that share a label of their own leave the groups of
the real rows as they are, and with them every score that is told from a group.
-/

namespace OneShotOPD.CoreAlgos

open Checks SampleStats

variable {B P T : ℕ} {Uid : Type}

/-- The labels of the real rows. -/
def realIndex (index : Fin (B + P) → Uid) (row : Fin B) : Uid := index (Fin.castAdd P row)

/-- The rows behind the real ones share a label that no real row has. -/
structure PadLabels (index : Fin (B + P) → Uid) (padUid : Uid) : Prop where
  pads : ∀ pad : Fin P, index (Fin.natAdd B pad) = padUid
  fresh : ∀ row, realIndex index row ≠ padUid

theorem finRange_add (B P : ℕ) :
    List.finRange (B + P) =
      (List.finRange B).map (Fin.castAdd P) ++ (List.finRange P).map (Fin.natAdd B) := by
  rw [← List.ofFn_eq_map, ← List.ofFn_eq_map, ← List.ofFn_id, List.ofFn_add]
  rfl

section Groups

variable [DecidableEq Uid] {index : Fin (B + P) → Uid} {padUid : Uid}

theorem groupRows_realIndex (hpads : PadLabels index padUid) (row : Fin B) :
    groupRows index (index (Fin.castAdd P row)) =
      (groupRows (realIndex index) (realIndex index row)).map (Fin.castAdd P) := by
  have hnone : ((List.finRange P).map (Fin.natAdd B)).filter
      (fun other => index other = index (Fin.castAdd P row)) = [] := by
    rw [List.filter_eq_nil_iff]
    intro other hother
    obtain ⟨pad, -, rfl⟩ := List.mem_map.mp hother
    rw [hpads.pads pad, decide_eq_true_eq]
    exact (hpads.fresh row).symm
  rw [groupRows, finRange_add, List.filter_append, hnone, List.append_nil, List.filter_map]
  rfl

/-- What is told from a group of a padded batch is told from the real rows. -/
theorem map_groupRows_realIndex {α : Type} (hpads : PadLabels index padUid)
    (values : Fin (B + P) → α) (row : Fin B) :
    (groupRows index (index (Fin.castAdd P row))).map values =
      (groupRows (realIndex index) (realIndex index row)).map
        fun other => values (Fin.castAdd P other) := by
  rw [groupRows_realIndex hpads, List.map_map]
  rfl

theorem groupRows_pad (hpads : PadLabels index padUid) :
    groupRows index padUid = (List.finRange P).map (Fin.natAdd B) := by
  have hnone : ((List.finRange B).map (Fin.castAdd P)).filter
      (fun other => index other = padUid) = [] := by
    rw [List.filter_eq_nil_iff]
    intro other hother
    obtain ⟨row, -, rfl⟩ := List.mem_map.mp hother
    rw [decide_eq_true_eq]
    exact hpads.fresh row
  have hall : ((List.finRange P).map (Fin.natAdd B)).filter
      (fun other => index other = padUid) = (List.finRange P).map (Fin.natAdd B) := by
    rw [List.filter_eq_self]
    intro other hother
    obtain ⟨pad, -, rfl⟩ := List.mem_map.mp hother
    simpa using hpads.pads pad
  rw [groupRows, finRange_add, List.filter_append, hnone, hall, List.nil_append]

variable (hpads : PadLabels index padUid) (scores : Fin (B + P) → ℝ) (row : Fin B)

include hpads

theorem normalizedScore_realIndex (epsilon : ℝ) (normAdvByStdInGrpo : Bool) :
    normalizedScore index epsilon normAdvByStdInGrpo scores (Fin.castAdd P row) =
      normalizedScore (realIndex index) epsilon normAdvByStdInGrpo
        (fun other => scores (Fin.castAdd P other)) row := by
  simp only [normalizedScore, getD_id2score, map_groupRows_realIndex hpads]

theorem meanBaseline_realIndex :
    meanBaseline index scores (Fin.castAdd P row) =
      meanBaseline (realIndex index) (fun other => scores (Fin.castAdd P other)) row := by
  simp only [meanBaseline, getD_id2score, map_groupRows_realIndex hpads]

theorem opoScore_realIndex (lengths : Fin (B + P) → ℝ) :
    opoScore index lengths scores (Fin.castAdd P row) =
      opoScore (realIndex index) (fun other => lengths (Fin.castAdd P other))
        (fun other => scores (Fin.castAdd P other)) row := by
  simp only [opoScore, getD_collect_rows, map_groupRows_realIndex hpads]

theorem rlooScore_realIndex :
    rlooScore index scores (Fin.castAdd P row) =
      rlooScore (realIndex index) (fun other => scores (Fin.castAdd P other)) row := by
  simp only [rlooScore, getD_collect_rows, map_groupRows_realIndex hpads]

omit [DecidableEq Uid] in
theorem rlooVectorizedScore_realIndex [LinearOrder Uid] :
    rlooVectorizedScore index scores (Fin.castAdd P row) =
      rlooVectorizedScore (realIndex index) (fun other => scores (Fin.castAdd P other)) row := by
  simp only [rlooVectorizedScore, bincount_uniqueInverse, map_groupRows_realIndex hpads]

end Groups

/-! ## The normaliser of the batch -/

/-- Rows with outcome zero enlarge the batch size of GPG only. -/
theorem gpgAlpha_castAdd {scores : Fin (B + P) → ℝ}
    (hzero : ∀ pad : Fin P, scores (Fin.natAdd B pad) = 0) :
    ∃ count : ℝ, 0 < count ∧ gpgAlpha scores = (B + P) / count ∧
      gpgAlpha (fun row => scores (Fin.castAdd P row)) = B / count := by
  have hcount : (List.finRange (B + P)).countP (fun row => scores row ≠ 0) =
      (List.finRange B).countP fun row => scores (Fin.castAdd P row) ≠ 0 := by
    have hpads : (List.finRange P).countP (fun pad => scores (Fin.natAdd B pad) ≠ 0) = 0 := by
      rw [List.countP_eq_zero]
      intro pad _
      simpa using hzero pad
    rw [finRange_add, List.countP_append, List.countP_map, List.countP_map]
    exact congrArg _ hpads
  refine ⟨(max ((List.finRange B).countP fun row => scores (Fin.castAdd P row) ≠ 0) 1 : ℕ),
    Nat.cast_pos.mpr (lt_max_of_lt_right zero_lt_one), ?_, rfl⟩
  rw [gpgAlpha, hcount, Nat.cast_add]

end OneShotOPD.CoreAlgos
