import OneShotOPD.Trainer.PaddedRows

/-!
# Padding samples are neutral

The advantages of the real samples in a padded batch are compared with those
that they have alone.  The two agree for all estimators but two: GPG divides by
a count of the real samples and multiplies by the padded batch size, and Pass@k
refuses a padding sample that is alone in its group.
-/

namespace OneShotOPD.Padding

open Checks CoreAlgos SampleStats

variable {B : ℕ}

/-! ## Dense tensors of a batch -/

def uids (batch : Fin B → Trajectory) (row : Fin B) : String := (batch row).sample.uid

/-- The number of response tokens. -/
def tokenCount (batch : Fin B → Trajectory) : ℝ :=
  ∑ row, ((batch row).sample.responseMask.sum : ℤ)

theorem sum_getD {α : Type} [AddCommMonoid α] {values : List α} {width : ℕ}
    (hwidth : values.length ≤ width) :
    ∑ position : Fin width, values.getD position 0 = values.sum := by
  induction values generalizing width with
  | nil => simp
  | cons value values ih =>
      cases width with
      | zero => simp at hwidth
      | succ width =>
          rw [Fin.sum_univ_succ, List.sum_cons, ← ih (by simpa using hwidth)]
          rfl

theorem length_le_batchWidth (batch : Fin B → Trajectory) (row : Fin B) :
    (batch row).sample.responseMask.length ≤ batchWidth batch :=
  Finset.le_sup (f := fun row => (batch row).sample.responseMask.length) (Finset.mem_univ row)

theorem maskTotal_toPaddedTensor (critic : Sample → ℕ → ℝ) (batch : Fin B → Trajectory) :
    maskTotal (toPaddedTensor critic batch (batchWidth batch)).responseMask =
      tokenCount batch := by
  apply Finset.sum_congr rfl
  intro row _
  rw [← sum_getD (length_le_batchWidth batch row), Int.cast_sum]
  rfl

theorem outcomes_toPaddedTensor (critic : Sample → ℕ → ℝ) (batch : Fin B → Trajectory)
    (row : Fin B) :
    outcomes (toPaddedTensor critic batch (batchWidth batch)).tokenLevelRewards row =
      (batch row).sample.rmScores.sum :=
  sum_getD ((batch row).sample.length_rmScores.trans_le (length_le_batchWidth batch row))

variable {text : PyText} {settings : AlgoSettings} {critic : Sample → ℕ → ℝ}
  {estimator : AdvantageEstimator}

/-- Whether the advantages can be computed does not depend on the width. -/
theorem computeAdvantages_isOk_iff {batch : Fin B → Trajectory}
    (hindex : NoIntegers text (uids batch)) :
    (∃ advantages, computeAdvantages text settings critic estimator batch = .ok advantages) ↔
      Succeeds estimator (uids batch) (tokenCount batch) := by
  rw [computeAdvantages, map_isOk_iff, ← maskTotal_toPaddedTensor critic batch]
  exact computeAdvantage_isOk_iff hindex

/-! ## The padded batch -/

section Upsampled

variable (batch : Fin B → Trajectory) (batchMultiple : ℕ) (eosTokenId : ℤ) (padUid : String)

theorem upsample_real (row : Fin B) :
    upsampleBatchToDivisibleSize batch batchMultiple eosTokenId padUid
      (Fin.castAdd _ row) = batch row :=
  Fin.append_left _ _ row

theorem upsample_pad (localIdx : Fin (padSize B batchMultiple)) :
    ∃ source, upsampleBatchToDivisibleSize batch batchMultiple eosTokenId padUid
      (Fin.natAdd B localIdx) = padTrajectory source eosTokenId padUid localIdx :=
  ⟨_, Fin.append_right _ _ localIdx⟩

variable {batch batchMultiple eosTokenId padUid}

theorem padLabels_upsample (hfresh : ∀ row, uids batch row ≠ padUid) :
    PadLabels (uids (upsampleBatchToDivisibleSize batch batchMultiple eosTokenId padUid))
      padUid := by
  constructor
  · intro localIdx
    obtain ⟨source, hpad⟩ := upsample_pad batch batchMultiple eosTokenId padUid localIdx
    rw [uids, hpad]
    rfl
  · intro row
    rw [realIndex, uids, upsample_real]
    exact hfresh row

theorem realIndex_upsample :
    realIndex (uids (upsampleBatchToDivisibleSize batch batchMultiple eosTokenId padUid)) =
      uids batch := by
  funext row
  rw [realIndex, uids, upsample_real, uids]

theorem noIntegers_upsample (hindex : NoIntegers text (uids batch))
    (hpad : text.int padUid = none) :
    NoIntegers text
      (uids (upsampleBatchToDivisibleSize batch batchMultiple eosTokenId padUid)) := by
  intro row
  induction row using Fin.addCases with
  | left row =>
      rw [uids, upsample_real]
      exact hindex row
  | right localIdx =>
      obtain ⟨source, hsource⟩ := upsample_pad batch batchMultiple eosTokenId padUid localIdx
      rw [uids, hsource]
      exact hpad

theorem tokenCount_upsample :
    tokenCount (upsampleBatchToDivisibleSize batch batchMultiple eosTokenId padUid) =
      tokenCount batch := by
  have hpads : ∑ localIdx : Fin (padSize B batchMultiple),
      (((upsampleBatchToDivisibleSize batch batchMultiple eosTokenId padUid
        (Fin.natAdd B localIdx)).sample.responseMask.sum : ℤ) : ℝ) = 0 := by
    apply Finset.sum_eq_zero
    intro localIdx _
    obtain ⟨source, hsource⟩ := upsample_pad batch batchMultiple eosTokenId padUid localIdx
    rw [hsource]
    simp [padTrajectory, constructMinimalPaddingTemplate]
  rw [tokenCount, Fin.sum_univ_add, hpads, add_zero]
  simp only [upsample_real]
  rfl

/-- The padding makes Pass@k raise when it is a single sample. -/
theorem succeeds_upsample_iff (hfresh : ∀ row, uids batch row ≠ padUid) :
    Succeeds estimator
        (uids (upsampleBatchToDivisibleSize batch batchMultiple eosTokenId padUid))
        (tokenCount (upsampleBatchToDivisibleSize batch batchMultiple eosTokenId padUid)) ↔
      Succeeds estimator (uids batch) (tokenCount batch) ∧
        (estimator = .grpoPassk → padSize B batchMultiple ≠ 1) := by
  rw [Succeeds, Succeeds, tokenCount_upsample,
    two_le_groups_iff (padLabels_upsample hfresh), realIndex_upsample]
  tauto

variable (critic batch batchMultiple eosTokenId padUid) in
theorem toPaddedTensor_upsample_real (width : ℕ) :
    (toPaddedTensor critic (upsampleBatchToDivisibleSize batch batchMultiple eosTokenId padUid)
      width).real = toPaddedTensor critic batch width := by
  have hreal : (fun row => upsampleBatchToDivisibleSize batch batchMultiple eosTokenId padUid
      (Fin.castAdd _ row)) = batch := funext (upsample_real batch batchMultiple eosTokenId padUid)
  calc
    _ = toPaddedTensor critic (fun row => upsampleBatchToDivisibleSize batch batchMultiple
          eosTokenId padUid (Fin.castAdd _ row)) width := rfl
    _ = toPaddedTensor critic batch width := by rw [hreal]

theorem zeroBehind_upsample (width : ℕ) :
    ZeroBehind (B := B) (toPaddedTensor critic
      (upsampleBatchToDivisibleSize batch batchMultiple eosTokenId padUid)
        width).responseMask := by
  intro localIdx position
  obtain ⟨source, hsource⟩ := upsample_pad batch batchMultiple eosTokenId padUid localIdx
  obtain ⟨position, hposition⟩ := position
  simp only [toPaddedTensor, hsource, padTrajectory, constructMinimalPaddingTemplate]
  cases position <;> simp

theorem rewards_zeroBehind_upsample (width : ℕ) :
    ZeroBehind (B := B) (toPaddedTensor critic
      (upsampleBatchToDivisibleSize batch batchMultiple eosTokenId padUid)
        width).tokenLevelRewards := by
  intro localIdx position
  obtain ⟨source, hsource⟩ := upsample_pad batch batchMultiple eosTokenId padUid localIdx
  obtain ⟨position, hposition⟩ := position
  simp only [toPaddedTensor, hsource, padTrajectory, constructMinimalPaddingTemplate]
  cases position <;> simp

variable (batchMultiple eosTokenId padUid) in
/-- The padding samples have one response token. -/
theorem batchWidth_upsample (hwidth : 0 < batchWidth batch) :
    batchWidth (upsampleBatchToDivisibleSize batch batchMultiple eosTokenId padUid) =
      batchWidth batch := by
  apply le_antisymm
  · apply Finset.sup_le
    intro row _
    induction row using Fin.addCases with
    | left row =>
        rw [upsample_real]
        exact length_le_batchWidth batch row
    | right localIdx =>
        obtain ⟨source, hsource⟩ := upsample_pad batch batchMultiple eosTokenId padUid localIdx
        rw [hsource]
        exact hwidth
  · apply Finset.sup_le
    intro row _
    have hle := length_le_batchWidth
      (upsampleBatchToDivisibleSize batch batchMultiple eosTokenId padUid) (Fin.castAdd _ row)
    rwa [upsample_real] at hle

end Upsampled

/-! ## Neutrality -/

/-- Wherever the advantages of the real samples can be computed, so can those of
the padded batch, and every real sample has the same ones. -/
def PaddingNeutral (text : PyText) (settings : AlgoSettings) (critic : Sample → ℕ → ℝ)
    (estimator : AdvantageEstimator) (batch : Fin B → Trajectory) (batchMultiple : ℕ)
    (eosTokenId : ℤ) (padUid : String) : Prop :=
  ∀ advantages, computeAdvantages text settings critic estimator batch = .ok advantages →
    ∃ padded, computeAdvantages text settings critic estimator
        (upsampleBatchToDivisibleSize batch batchMultiple eosTokenId padUid) = .ok padded ∧
      ∀ row, padded (Fin.castAdd _ row) = advantages row

/-- The outcome of a sample is the mean of its prompt, or zero if it is alone. -/
def AtMean (batch : Fin B → Trajectory) (row : Fin B) : Prop :=
  let group := groupRows (uids batch) (uids batch row)
  let outcome := fun row => (batch row).sample.rmScores.sum
  if group.length = 1 then outcome row = 0 else outcome row = mean (group.map outcome)

/-- For GPG there is nothing to pad, or every sample with tokens is at the mean of
its prompt.  For Pass@k there is not exactly one padding sample, or some prompt
has a single response already. -/
def NeutralWhen (estimator : AdvantageEstimator) (batch : Fin B → Trajectory)
    (batchMultiple : ℕ) : Prop :=
  (estimator = .gpg → padSize B batchMultiple = 0 ∨ ∀ row,
    (∃ token ∈ (batch row).sample.responseMask, token ≠ 0) → AtMean batch row) ∧
  (estimator = .grpoPassk → padSize B batchMultiple ≠ 1 ∨
    ∃ row, (groupRows (uids batch) (uids batch row)).length = 1)

/-- Advantages from tensors of a given width. -/
noncomputable def computeAdvantagesAt (text : PyText) (settings : AlgoSettings)
    (critic : Sample → ℕ → ℝ) (estimator : AdvantageEstimator) (batch : Fin B → Trajectory)
    (width : ℕ) : Except String (Fin B → List ℝ) :=
  (computeAdvantage text settings estimator (toPaddedTensor critic batch width)).map
    (responseToNested batch)

theorem responseToNested_eq_iff (batch : Fin B → Trajectory) {width : ℕ}
    (left right : Grid B width) (row : Fin B) :
    responseToNested batch left row = responseToNested batch right row ↔
      ∀ position : Fin width, position < (batch row).sample.responseMask.length →
        left row position = right row position := by
  rw [responseToNested, responseToNested, ← List.map_take, ← List.map_take, List.map_inj_left]
  constructor
  · intro hall position hlt
    apply hall position
    rw [List.mem_take_iff_getElem]
    exact ⟨position, by simpa using hlt, by simp⟩
  · intro hall position hmem
    obtain ⟨index, hindex, rfl⟩ := List.mem_take_iff_getElem.mp hmem
    apply hall
    simpa using (lt_min_iff.mp hindex).1

theorem responseToNested_of_width_zero (batch : Fin B → Trajectory) {width : ℕ}
    (tensor : Grid B width) {row : Fin B}
    (hlength : (batch row).sample.responseMask.length = 0) :
    responseToNested batch tensor row = [] := by
  rw [responseToNested, hlength, List.take_zero]

/-- The part of a padded tensor that belongs to a real sample. -/
theorem responseToNested_upsample {batch : Fin B → Trajectory} {batchMultiple : ℕ}
    {eosTokenId : ℤ} {padUid : String} {width : ℕ}
    (tensor : Grid (B + padSize B batchMultiple) width) (row : Fin B) :
    responseToNested (upsampleBatchToDivisibleSize batch batchMultiple eosTokenId padUid)
        tensor (Fin.castAdd _ row) =
      responseToNested batch (realRows tensor) row := by
  rw [responseToNested, upsample_real, responseToNested]
  rfl

section Neutral

variable {batch : Fin B → Trajectory} {batchMultiple : ℕ} {eosTokenId : ℤ} {padUid : String}

/-- Without response tokens there are no advantages to compare. -/
theorem padded_of_width_zero (hwidth : batchWidth batch = 0)
    {padded : Fin (B + padSize B batchMultiple) → List ℝ} {advantages : Fin B → List ℝ}
    (hpadded : computeAdvantages text settings critic estimator
      (upsampleBatchToDivisibleSize batch batchMultiple eosTokenId padUid) = .ok padded)
    (hreal : computeAdvantages text settings critic estimator batch = .ok advantages)
    (row : Fin B) : padded (Fin.castAdd _ row) = advantages row := by
  have hlength : (batch row).sample.responseMask.length = 0 :=
    Nat.le_zero.mp ((length_le_batchWidth batch row).trans_eq hwidth)
  obtain ⟨tensor, -, rfl⟩ := map_eq_ok.mp hpadded
  obtain ⟨real, -, rfl⟩ := map_eq_ok.mp hreal
  rw [responseToNested_upsample, responseToNested_of_width_zero _ _ hlength,
    responseToNested_of_width_zero _ _ hlength]

/-- The tensors that the two computations have for the same width. -/
theorem exists_tensors (hwidth : 0 < batchWidth batch)
    {padded : Fin (B + padSize B batchMultiple) → List ℝ} {advantages : Fin B → List ℝ}
    (hpadded : computeAdvantages text settings critic estimator
      (upsampleBatchToDivisibleSize batch batchMultiple eosTokenId padUid) = .ok padded)
    (hreal : computeAdvantages text settings critic estimator batch = .ok advantages) :
    ∃ (tensor : Grid (B + padSize B batchMultiple) (batchWidth batch))
      (real : Grid B (batchWidth batch)),
      computeAdvantage text settings estimator (toPaddedTensor critic
        (upsampleBatchToDivisibleSize batch batchMultiple eosTokenId padUid)
          (batchWidth batch)) = .ok tensor ∧
      computeAdvantage text settings estimator
        (toPaddedTensor critic batch (batchWidth batch)) = .ok real ∧
      ∀ row, (padded (Fin.castAdd _ row) = advantages row ↔
        ∀ position : Fin (batchWidth batch),
          position < (batch row).sample.responseMask.length →
            realRows tensor row position = real row position) := by
  have hat : computeAdvantagesAt text settings critic estimator
      (upsampleBatchToDivisibleSize batch batchMultiple eosTokenId padUid) (batchWidth batch) =
        .ok padded := by
    rw [← batchWidth_upsample batchMultiple eosTokenId padUid hwidth]
    exact hpadded
  obtain ⟨tensor, htensor, rfl⟩ := map_eq_ok.mp hat
  obtain ⟨real, htensorReal, rfl⟩ := map_eq_ok.mp hreal
  refine ⟨tensor, real, htensor, htensorReal, ?_⟩
  intro row
  rw [responseToNested_upsample]
  exact responseToNested_eq_iff batch _ _ row

/-- Estimators without a normaliser of the batch give the real samples the same
advantages. -/
theorem padded_eq (hindex : NoIntegers text (uids batch)) (hpad : text.int padUid = none)
    (hfresh : ∀ row, uids batch row ≠ padUid) (hgpg : estimator ≠ .gpg)
    {padded : Fin (B + padSize B batchMultiple) → List ℝ} {advantages : Fin B → List ℝ}
    (hpadded : computeAdvantages text settings critic estimator
      (upsampleBatchToDivisibleSize batch batchMultiple eosTokenId padUid) = .ok padded)
    (hreal : computeAdvantages text settings critic estimator batch = .ok advantages)
    (row : Fin B) : padded (Fin.castAdd _ row) = advantages row := by
  rcases Nat.eq_zero_or_pos (batchWidth batch) with hwidth | hwidth
  · exact padded_of_width_zero hwidth hpadded hreal row
  · obtain ⟨tensor, real, htensor, htensorReal, hrows⟩ := exists_tensors hwidth hpadded hreal
    rw [← toPaddedTensor_upsample_real critic batch batchMultiple eosTokenId padUid]
      at htensorReal
    have heq := computeAdvantage_real (padLabels_upsample hfresh) (zeroBehind_upsample _)
      (noIntegers_upsample hindex hpad) hgpg htensor htensorReal
    rw [hrows row, heq]
    exact fun _ _ => rfl

theorem meanBaseline_eq_zero_iff {row : Fin B} :
    meanBaseline (uids batch) (outcomes (toPaddedTensor critic batch
        (batchWidth batch)).tokenLevelRewards) row = 0 ↔ AtMean batch row := by
  have houtcomes : outcomes (toPaddedTensor critic batch
      (batchWidth batch)).tokenLevelRewards = fun row => (batch row).sample.rmScores.sum :=
    funext (outcomes_toPaddedTensor critic batch)
  simp only [meanBaseline, getD_id2score, houtcomes, sub_eq_zero, AtMean]
  split
  next hsingle =>
    obtain ⟨only, hgroup⟩ := List.length_eq_one_iff.mp hsingle
    rw [hgroup]
    rfl
  next hgroup => rw [id2mean_of_length_ne (by simpa using hgroup)]

/-- GPG scales the advantages of the real samples by the padded batch size. -/
theorem gpg_padded_eq_iff (hfresh : ∀ row, uids batch row ≠ padUid)
    {padded : Fin (B + padSize B batchMultiple) → List ℝ} {advantages : Fin B → List ℝ}
    (hpadded : computeAdvantages text settings critic .gpg
      (upsampleBatchToDivisibleSize batch batchMultiple eosTokenId padUid) = .ok padded)
    (hreal : computeAdvantages text settings critic .gpg batch = .ok advantages)
    (row : Fin B) :
    padded (Fin.castAdd _ row) = advantages row ↔ padSize B batchMultiple = 0 ∨
      ((∃ token ∈ (batch row).sample.responseMask, token ≠ 0) → AtMean batch row) := by
  rcases Nat.eq_zero_or_pos (batchWidth batch) with hwidth | hwidth
  · have hlength : (batch row).sample.responseMask.length = 0 :=
      Nat.le_zero.mp ((length_le_batchWidth batch row).trans_eq hwidth)
    refine iff_of_true (padded_of_width_zero hwidth hpadded hreal row) (.inr ?_)
    rintro ⟨token, htoken, -⟩
    exact absurd (List.length_pos_of_mem htoken) (by simp [hlength])
  obtain ⟨tensor, real, htensor, htensorReal, hrows⟩ := exists_tensors hwidth hpadded hreal
  rw [← toPaddedTensor_upsample_real critic batch batchMultiple eosTokenId padUid] at htensorReal
  have hposition := gpg_real_iff (padLabels_upsample hfresh) (rewards_zeroBehind_upsample _)
    htensor htensorReal row
  rw [hrows row]
  simp only [hposition, toPaddedTensor_upsample_real, mul_eq_zero]
  constructor
  · intro hall
    by_cases hpad : padSize B batchMultiple = 0
    · exact .inl hpad
    refine .inr ?_
    rintro ⟨token, htoken, hne⟩
    obtain ⟨place, hplace, rfl⟩ := List.getElem_of_mem htoken
    have hlt : place < batchWidth batch := hplace.trans_le (length_le_batchWidth batch row)
    rcases hall ⟨place, hlt⟩ hplace with hzero | hzero | hmask
    · exact absurd hzero hpad
    · exact meanBaseline_eq_zero_iff.mp hzero
    · exfalso
      apply hne
      simpa [toPaddedTensor, hplace] using hmask
  · rintro (hpad | hmean) position hlt
    · exact .inl hpad
    refine .inr ?_
    by_cases hmask : (batch row).sample.responseMask[(position : ℕ)] = 0
    · refine .inr ?_
      simpa [toPaddedTensor, hlt] using hmask
    · exact .inl (meanBaseline_eq_zero_iff.mpr (hmean ⟨_, List.getElem_mem hlt, hmask⟩))

/-- When the padded batch has advantages. -/
theorem padded_isOk_iff (hindex : NoIntegers text (uids batch))
    (hpad : text.int padUid = none) (hfresh : ∀ row, uids batch row ≠ padUid) :
    (∃ padded, computeAdvantages text settings critic estimator
      (upsampleBatchToDivisibleSize batch batchMultiple eosTokenId padUid) = .ok padded) ↔
      Succeeds estimator (uids batch) (tokenCount batch) ∧
        (estimator = .grpoPassk → padSize B batchMultiple ≠ 1) :=
  (computeAdvantages_isOk_iff (noIntegers_upsample hindex hpad)).trans
    (succeeds_upsample_iff hfresh)

theorem neutralWhen_of_paddingNeutral (hindex : NoIntegers text (uids batch))
    (hpad : text.int padUid = none) (hfresh : ∀ row, uids batch row ≠ padUid)
    (hneutral : PaddingNeutral text settings critic estimator batch batchMultiple eosTokenId
      padUid) :
    NeutralWhen estimator batch batchMultiple := by
  constructor
  · rintro rfl
    obtain ⟨advantages, hreal⟩ :=
      (computeAdvantages_isOk_iff hindex).mpr (⟨nofun, nofun⟩ : Succeeds .gpg _ _)
    obtain ⟨padded, hpadded, heq⟩ := hneutral advantages hreal
    by_cases hzero : padSize B batchMultiple = 0
    · exact .inl hzero
    · refine .inr ?_
      intro row
      exact ((gpg_padded_eq_iff hfresh hpadded hreal row).mp (heq row)).resolve_left hzero
  · rintro rfl
    by_contra hnot
    obtain ⟨hone, hgroups⟩ := not_or.mp hnot
    have htwo : ∀ row, 2 ≤ (groupRows (uids batch) (uids batch row)).length := by
      intro row
      have hpos : 0 < (groupRows (uids batch) (uids batch row)).length :=
        List.length_pos_of_mem (mem_groupRows.mpr rfl)
      have hne := not_exists.mp hgroups row
      omega
    obtain ⟨advantages, hreal⟩ :=
      (computeAdvantages_isOk_iff hindex).mpr (⟨nofun, fun _ => htwo⟩ : Succeeds .grpoPassk _ _)
    obtain ⟨padded, hpadded, -⟩ := hneutral advantages hreal
    exact hone (((padded_isOk_iff hindex hpad hfresh).mp ⟨padded, hpadded⟩).2 rfl)

theorem paddingNeutral_of_neutralWhen (hindex : NoIntegers text (uids batch))
    (hpad : text.int padUid = none) (hfresh : ∀ row, uids batch row ≠ padUid)
    (hwhen : NeutralWhen estimator batch batchMultiple) :
    PaddingNeutral text settings critic estimator batch batchMultiple eosTokenId padUid := by
  intro advantages hreal
  have hsucceeds := (computeAdvantages_isOk_iff hindex).mp ⟨advantages, hreal⟩
  have hpassk : estimator = .grpoPassk → padSize B batchMultiple ≠ 1 := by
    intro hestimator
    apply (hwhen.2 hestimator).resolve_right
    rintro ⟨row, hone⟩
    have htwo := hsucceeds.2 hestimator row
    omega
  obtain ⟨padded, hpadded⟩ :=
    (padded_isOk_iff hindex hpad hfresh).mpr ⟨hsucceeds, hpassk⟩
  refine ⟨padded, hpadded, ?_⟩
  intro row
  by_cases hgpg : estimator = .gpg
  · subst hgpg
    exact (gpg_padded_eq_iff hfresh hpadded hreal row).mpr
      ((hwhen.1 rfl).imp_right fun hmean => hmean row)
  · exact padded_eq hindex hpad hfresh hgpg hpadded hreal row

end Neutral

/-- Padding is neutral exactly for the batches named, which are all batches if the
estimator is neither GPG nor Pass@k. -/
theorem paddingNeutral_iff (text : PyText) (settings : AlgoSettings)
    (critic : Sample → ℕ → ℝ) (estimator : AdvantageEstimator) (batch : Fin B → Trajectory)
    (batchMultiple : ℕ) (eosTokenId : ℤ) (padUid : String)
    (hindex : NoIntegers text (uids batch)) (hpad : text.int padUid = none)
    (hfresh : ∀ row, uids batch row ≠ padUid) :
    (PaddingNeutral text settings critic estimator batch batchMultiple eosTokenId padUid ↔
      NeutralWhen estimator batch batchMultiple) ∧
    (estimator ≠ .gpg → estimator ≠ .grpoPassk →
      PaddingNeutral text settings critic estimator batch batchMultiple eosTokenId padUid) :=
  ⟨⟨neutralWhen_of_paddingNeutral hindex hpad hfresh,
      paddingNeutral_of_neutralWhen hindex hpad hfresh⟩,
    fun hgpg hpassk => paddingNeutral_of_neutralWhen hindex hpad hfresh
      ⟨fun hestimator => absurd hestimator hgpg, fun hestimator => absurd hestimator hpassk⟩⟩

/-! ## Two samples of a prompt -/

/-- A sample with one response token and outcome one. -/
def rightAnswer : Trajectory where
  key := "1f0c-41_0_0"
  sample := {
    uid := "1f0c-41"
    sessionId := some 0
    prompts := [7]
    responses := [8]
    inputIds := [7, 8]
    attentionMask := [1, 1]
    numTurns := 2
    responseMask := [1]
    lossMask := [1]
    rmScores := [1]
    rolloutLogProbs := [0]
    length_rmScores := rfl }
  tag := ⟨false, 1, 1, 2⟩

/-- Labels none of which is an integer. -/
def labelText : PyText where
  int _ := none
  str
    | .text value => value
    | _ => ""

def defaultSettings : AlgoSettings := ⟨1, 1, true, 1⟩

theorem twoRightAnswers_paddingNeutral :
    PaddingNeutral labelText defaultSettings (fun _ _ => 0) .grpo (fun _ : Fin 2 => rightAnswer)
      3 0 "pad0" :=
  (paddingNeutral_iff labelText defaultSettings (fun _ _ => 0) .grpo
    (fun _ : Fin 2 => rightAnswer) 3 0 "pad0" (fun _ => rfl) rfl (by decide)).2
      (by decide) (by decide)

/-- A single response is not at the mean of its prompt, and a prompt with two
responses is padded by one sample. -/
theorem padding_not_neutral :
    ¬ PaddingNeutral labelText defaultSettings (fun _ _ => 0) .gpg
        (fun _ : Fin 1 => rightAnswer) 2 0 "pad0" ∧
      ¬ PaddingNeutral labelText defaultSettings (fun _ _ => 0) .grpoPassk
        (fun _ : Fin 2 => rightAnswer) 3 0 "pad0" := by
  constructor
  · intro hneutral
    have hwhen := neutralWhen_of_paddingNeutral (fun _ => rfl) rfl (by decide) hneutral
    have hmean : AtMean (fun _ : Fin 1 => rightAnswer) 0 :=
      (hwhen.1 rfl).resolve_left (by decide) 0 ⟨1, by decide, by decide⟩
    have hsingle : (groupRows (uids fun _ : Fin 1 => rightAnswer)
        (uids (fun _ : Fin 1 => rightAnswer) 0)).length = 1 := rfl
    unfold AtMean at hmean
    rw [if_pos hsingle] at hmean
    simp [rightAnswer] at hmean
  · intro hneutral
    have hwhen := neutralWhen_of_paddingNeutral (fun _ => rfl) rfl (by decide) hneutral
    obtain ⟨row, hone⟩ := (hwhen.2 rfl).resolve_left (by decide)
    have htwo : (groupRows (uids fun _ : Fin 2 => rightAnswer)
        (uids (fun _ : Fin 2 => rightAnswer) row)).length = 2 := rfl
    omega

end OneShotOPD.Padding
