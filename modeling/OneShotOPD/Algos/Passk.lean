import OneShotOPD.Algos.PaddedGroups

/-!
# The Pass@k scores

The loop over the prompts raises for a prompt with fewer than two responses.
Otherwise the best response of every prompt gets its distance from the second
best one, and all others get zero.
-/

namespace OneShotOPD.CoreAlgos

open Checks SampleStats

variable {B P T : ℕ} {Uid : Type} [DecidableEq Uid]

/-- The response of a prompt that the loop assigns to. -/
noncomputable def bestRow (index : Fin B → Uid) (scores : Fin B → ℝ) (uid : Uid) :
    Option (Fin B) :=
  let rewards := (groupRows index uid).map scores
  (groupRows index uid)[rewards.idxOf ((rewards.insertionSort (· ≥ ·)).getD 0 0)]?

/-- What the loop assigns to it. -/
noncomputable def bestAdvantage (epsilon : ℝ) (normAdvByStdInGrpo : Bool)
    (rewards : List ℝ) : ℝ :=
  let topk := rewards.insertionSort (· ≥ ·)
  if normAdvByStdInGrpo then (topk.getD 0 0 - topk.getD 1 0) / (std rewards + epsilon)
  else topk.getD 0 0 - topk.getD 1 0

theorem index_of_bestRow {index : Fin B → Uid} {scores : Fin B → ℝ} {uid : Uid} {row : Fin B}
    (hbest : bestRow index scores uid = some row) : index row = uid :=
  mem_groupRows.mp (List.mem_of_getElem? hbest)

theorem mem_entries_id2score {index : Fin B → Uid} {scores : Fin B → ℝ}
    {entry : Uid × List ℝ} (hentry : entry ∈ (id2score index scores).entries) :
    entry.2 = (groupRows index entry.1).map scores := by
  have hget := (Dict.get?_eq_some_iff _ _ _).mpr hentry
  rw [← getD_id2score, Dict.getD, hget]
  rfl

theorem mem_keys_id2score {index : Fin B → Uid} {scores : Fin B → ℝ} {uid : Uid} :
    uid ∈ (id2score index scores).keys ↔ ∃ row, index row = uid := by
  simp [id2score, Dict.mem_keys_collect]

section Step

variable [ToString Uid] {index : Fin B → Uid} {scores : Fin B → ℝ} {epsilon : ℝ}
  {normAdvByStdInGrpo : Bool}

/-- The dictionary that the loop looks indices up in. -/
def id2indices (index : Fin B → Uid) : Dict Uid (List (Fin B)) :=
  Dict.collect ((List.finRange B).map fun row => (index row, row))

theorem passkStep_eq_ok {advantages next : Fin B → ℝ} {uid : Uid}
    (hok : passkStep normAdvByStdInGrpo epsilon (id2indices index) advantages
      (uid, (groupRows index uid).map scores) = .ok next) :
    2 ≤ (groupRows index uid).length ∧ ∀ row, next row =
      if bestRow index scores uid = some row then
        bestAdvantage epsilon normAdvByStdInGrpo ((groupRows index uid).map scores)
      else advantages row := by
  obtain ⟨hlength, hok⟩ := raiseIf_bind_eq_ok.mp hok
  rw [List.length_map, not_lt] at hlength
  refine ⟨hlength, ?_⟩
  intro row
  have hindices : (id2indices index).getD uid [] = groupRows index uid :=
    (getD_collect_rows index (fun row => row) uid).trans (List.map_id' _)
  simp only [hindices] at hok
  cases hbest : bestRow index scores uid with
  | none =>
      simp only [bestRow] at hbest
      simp only [hbest] at hok
      cases hok
      simp
  | some best =>
      simp only [bestRow] at hbest
      simp only [hbest] at hok
      cases hok
      by_cases hrow : row = best
      · subst hrow
        simp [bestAdvantage]
      · rw [Function.update_of_ne hrow, if_neg fun heq => hrow (Option.some.inj heq).symm]

/-- The loop over some of the prompts. -/
theorem foldlM_passkStep_eq_ok {entries : List (Uid × List ℝ)}
    (hentries : ∀ entry ∈ entries, entry.2 = (groupRows index entry.1).map scores)
    {start result : Fin B → ℝ}
    (hok : entries.foldlM (passkStep normAdvByStdInGrpo epsilon (id2indices index)) start =
      .ok result) :
    (∀ entry ∈ entries, 2 ≤ (groupRows index entry.1).length) ∧ ∀ row, result row =
      if index row ∈ entries.map Prod.fst ∧ bestRow index scores (index row) = some row then
        bestAdvantage epsilon normAdvByStdInGrpo
          ((groupRows index (index row)).map scores)
      else start row := by
  induction entries generalizing start with
  | nil =>
      cases hok
      simp
  | cons entry entries ih =>
      obtain ⟨uid, rewards⟩ := entry
      obtain rfl : rewards = (groupRows index uid).map scores :=
        hentries (uid, rewards) List.mem_cons_self
      rw [List.foldlM_cons] at hok
      obtain ⟨next, hnext, hok⟩ := bind_eq_ok.mp hok
      obtain ⟨hlength, hstep⟩ := passkStep_eq_ok hnext
      obtain ⟨hlengths, hrest⟩ :=
        ih (fun other hother => hentries other (List.mem_cons_of_mem _ hother)) hok
      refine ⟨List.forall_mem_cons.mpr ⟨hlength, hlengths⟩, ?_⟩
      intro row
      rw [hrest row, hstep row]
      by_cases hbest : bestRow index scores uid = some row
      · have huid := index_of_bestRow hbest
        subst huid
        simp [hbest]
      · by_cases huid : index row = uid
        · subst huid
          simp [hbest]
        · have hmem : index row ∈ ((uid, (groupRows index uid).map scores) :: entries).map
              Prod.fst ↔ index row ∈ entries.map Prod.fst := by
            rw [List.map_cons, List.mem_cons]
            exact or_iff_right huid
          simp only [hmem, if_neg hbest]

theorem exists_foldlM_passkStep {entries : List (Uid × List ℝ)}
    (hentries : ∀ entry ∈ entries, 2 ≤ entry.2.length) (start : Fin B → ℝ) :
    ∃ result, entries.foldlM
      (passkStep normAdvByStdInGrpo epsilon (id2indices index)) start = .ok result := by
  induction entries generalizing start with
  | nil => exact ⟨start, rfl⟩
  | cons entry entries ih =>
      have hlength : ¬ entry.2.length < 2 := not_lt.mpr (hentries entry List.mem_cons_self)
      obtain ⟨result, hresult⟩ :=
        ih (fun other hother => hentries other (List.mem_cons_of_mem _ hother)) _
      refine ⟨result, ?_⟩
      rw [List.foldlM_cons]
      exact bind_eq_ok.mpr ⟨_, raiseIf_bind_eq_ok.mpr ⟨hlength, rfl⟩, hresult⟩

/-- The scores of a batch for which the loop raises nothing. -/
theorem passkScores_eq_ok {result : Fin B → ℝ}
    (hok : passkScores index scores epsilon normAdvByStdInGrpo = .ok result) (row : Fin B) :
    result row =
      if bestRow index scores (index row) = some row then
        bestAdvantage epsilon normAdvByStdInGrpo ((groupRows index (index row)).map scores)
      else 0 := by
  have hkey : index row ∈ (id2score index scores).entries.map Prod.fst :=
    mem_keys_id2score.mpr ⟨row, rfl⟩
  have hrow := (foldlM_passkStep_eq_ok (fun _ => mem_entries_id2score) hok).2 row
  simpa only [hkey, true_and] using hrow

/-- The loop raises unless every prompt has two responses. -/
theorem passkScores_isOk_iff :
    (∃ result, passkScores index scores epsilon normAdvByStdInGrpo = .ok result) ↔
      ∀ row, 2 ≤ (groupRows index (index row)).length := by
  constructor
  · rintro ⟨result, hok⟩ row
    have hkey : index row ∈ (id2score index scores).keys := mem_keys_id2score.mpr ⟨row, rfl⟩
    obtain ⟨entry, hentry, huid⟩ := List.mem_map.mp hkey
    rw [← huid]
    exact (foldlM_passkStep_eq_ok (fun _ => mem_entries_id2score) hok).1 entry hentry
  · intro hlength
    apply exists_foldlM_passkStep
    intro entry hentry
    obtain ⟨row, hrow⟩ := mem_keys_id2score.mp
      (List.mem_map_of_mem hentry : entry.1 ∈ (id2score index scores).keys)
    rw [mem_entries_id2score hentry, List.length_map, ← hrow]
    exact hlength row

end Step

/-! ## Padded batches -/

section Padded

variable {index : Fin (B + P) → Uid} {padUid : Uid} {scores : Fin (B + P) → ℝ}

theorem bestRow_realIndex (hpads : PadLabels index padUid) (row : Fin B) :
    bestRow index scores (index (Fin.castAdd P row)) =
      (bestRow (realIndex index) (fun other => scores (Fin.castAdd P other))
        (realIndex index row)).map (Fin.castAdd P) := by
  simp only [bestRow, map_groupRows_realIndex hpads]
  rw [groupRows_realIndex hpads, List.getElem?_map]

variable [ToString Uid] {epsilon : ℝ} {normAdvByStdInGrpo : Bool}

/-- A real row has the same score with and without the rows behind. -/
theorem passkScores_realIndex (hpads : PadLabels index padUid) {padded : Fin (B + P) → ℝ}
    {real : Fin B → ℝ}
    (hpadded : passkScores index scores epsilon normAdvByStdInGrpo = .ok padded)
    (hreal : passkScores (realIndex index) (fun other => scores (Fin.castAdd P other)) epsilon
      normAdvByStdInGrpo = .ok real) (row : Fin B) :
    padded (Fin.castAdd P row) = real row := by
  have hbest : bestRow index scores (index (Fin.castAdd P row)) = some (Fin.castAdd P row) ↔
      bestRow (realIndex index) (fun other => scores (Fin.castAdd P other))
        (realIndex index row) = some row := by
    rw [bestRow_realIndex hpads]
    exact (Option.map_injective (Fin.castAdd_injective B P)).eq_iff (b := some row)
  rw [passkScores_eq_ok hpadded, passkScores_eq_ok hreal, map_groupRows_realIndex hpads]
  simp only [hbest]

omit [ToString Uid] in
/-- The rows behind are a group of their own. -/
theorem two_le_groups_iff (hpads : PadLabels index padUid) :
    (∀ row, 2 ≤ (groupRows index (index row)).length) ↔
      (∀ row, 2 ≤ (groupRows (realIndex index) (realIndex index row)).length) ∧ P ≠ 1 := by
  have hreal : ∀ row, (groupRows index (index (Fin.castAdd P row))).length =
      (groupRows (realIndex index) (realIndex index row)).length := by
    intro row
    rw [groupRows_realIndex hpads, List.length_map]
  have hpad : ∀ pad : Fin P, (groupRows index (index (Fin.natAdd B pad))).length = P := by
    intro pad
    rw [hpads.pads pad, groupRows_pad hpads, List.length_map, List.length_finRange]
  constructor
  · intro hall
    refine ⟨fun row => (hreal row) ▸ hall (Fin.castAdd P row), ?_⟩
    rintro rfl
    have hone := hall (Fin.natAdd B 0)
    rw [hpad] at hone
    exact absurd hone (by decide)
  · rintro ⟨hrows, hne⟩ row
    induction row using Fin.addCases with
    | left row => exact (hreal row).symm ▸ hrows row
    | right pad =>
        rw [hpad]
        have hlt := pad.isLt
        omega

end Padded

end OneShotOPD.CoreAlgos
