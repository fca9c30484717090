import OneShotOPD.Mcore.PackedSeqs
import OneShotOPD.Mcore.ThdPacking
import OneShotOPD.Mcore.Labels

/-!
# The round trip of a padded batch

Packing and unpacking gives the valid tokens of a padded batch back, with zeros
at all other positions.  FP8 padding keeps every padded length a multiple of two
chunks a rank, and the copies stop where the tokens end.
-/

namespace OneShotOPD.Mcore

open Segments SliceAssign Zigzag Checks Masked

variable {α : Type}

/-- A padded batch, with a valid token in every row. -/
structure MaskedBatch (α : Type) where
  inputIds : List (List α)
  attentionMask : List (List Bool)
  seqLen : ℕ
  nonempty : inputIds ≠ []
  length_eq : attentionMask.length = inputIds.length
  row_length : ∀ row ∈ inputIds, row.length = seqLen
  mask_length : ∀ mask ∈ attentionMask, mask.length = seqLen
  valid : ∀ mask ∈ attentionMask, true ∈ mask

namespace MaskedBatch

variable (batch : MaskedBatch α) {i : ℕ}

theorem length_row (hi : i < batch.inputIds.length) :
    (batch.inputIds.getD i []).length = batch.seqLen := by
  rw [List.getD_eq_getElem _ _ hi]
  exact batch.row_length _ (List.getElem_mem hi)

theorem mem_mask (hi : i < batch.inputIds.length) :
    batch.attentionMask.getD i [] ∈ batch.attentionMask := by
  have hmask : i < batch.attentionMask.length := hi.trans_eq batch.length_eq.symm
  rw [List.getD_eq_getElem _ _ hmask]
  exact List.getElem_mem hmask

theorem length_mask (hi : i < batch.inputIds.length) :
    (batch.attentionMask.getD i []).length = batch.seqLen :=
  batch.mask_length _ (batch.mem_mask hi)

theorem length_valid (hi : i < batch.inputIds.length) :
    (maskedSelect (batch.inputIds.getD i []) (batch.attentionMask.getD i [])).length =
      (batch.attentionMask.getD i []).count true :=
  length_maskedSelect ((batch.length_row hi).trans (batch.length_mask hi).symm)

/-- The valid tokens, as a batch of sequences. -/
def selected : Batch α where
  sequences := (List.range batch.inputIds.length).map fun i =>
    maskedSelect (batch.inputIds.getD i []) (batch.attentionMask.getD i [])
  nonempty := by simpa using batch.nonempty
  length_pos := by
    intro tokens htokens
    obtain ⟨i, hi, rfl⟩ := List.mem_map.mp htokens
    rw [List.mem_range] at hi
    rw [batch.length_valid hi]
    exact List.count_pos_iff.mpr (batch.valid _ (batch.mem_mask hi))

@[simp]
theorem length_selected : batch.selected.sequences.length = batch.inputIds.length := by
  simp [selected]

theorem selected_getD (hi : i < batch.inputIds.length) :
    batch.selected.sequences.getD i [] =
      maskedSelect (batch.inputIds.getD i []) (batch.attentionMask.getD i []) := by
  rw [List.getD_eq_getElem _ _ (by simpa using hi)]
  simp [selected]

/-- `attention_mask.sum(dim=-1)` counts the valid tokens. -/
theorem lengths_selected :
    batch.selected.lengths = batch.attentionMask.map (List.count true) := by
  apply List.ext_getElem
  · simp [batch.length_eq]
  · intro i hleft hright
    rw [Batch.length_lengths, length_selected] at hleft
    have hmask : i < batch.attentionMask.length := hleft.trans_eq batch.length_eq.symm
    have hcount := batch.length_valid hleft
    simp only [Batch.lengths, selected, List.map_map, List.getElem_map, List.getElem_range,
      Function.comp_apply]
    rw [hcount, List.getD_eq_getElem _ _ hmask]

def labelled : MaskedBatch (Option (ℕ × ℕ)) where
  inputIds := labelSequences batch.inputIds
  attentionMask := batch.attentionMask
  seqLen := batch.seqLen
  nonempty := by
    rw [← List.length_pos_iff, length_labelSequences]
    exact List.length_pos_iff.mpr batch.nonempty
  length_eq := batch.length_eq.trans (length_labelSequences _).symm
  row_length := by
    intro row hrow
    obtain ⟨i, hi, rfl⟩ := List.mem_map.mp hrow
    simpa using batch.length_row (List.mem_range.mp hi)
  mask_length := batch.mask_length
  valid := batch.valid

end MaskedBatch

/-- The rows of all ranks. -/
def gatherPacked (settings : PackedSettings) (strict : Bool) (zero : α)
    (batch : MaskedBatch α) : Except String (List (PackedRows α)) :=
  (List.range settings.cpSize).mapM fun rank =>
    preprocessPackedSeqs settings strict rank zero batch.inputIds batch.attentionMask

/-- No rank raises, each of them unpacks the valid tokens of the batch and zeros
elsewhere from the gathered rows, and every valid token is on exactly one
rank. -/
structure PackedRoundTrips (settings : PackedSettings) (strict : Bool) (zero : α)
    (batch : MaskedBatch α) : Prop where
  unpacks : ∃ packed : List (PackedRows α), gatherPacked settings strict zero batch = .ok packed ∧
    ∀ rank ∈ packed, ∀ garbage,
      postprocessPackedSeqs settings strict rank.params (packed.map PackedRows.rows) zero
          garbage batch.attentionMask batch.seqLen =
        .ok (List.zipWith (restrict zero) batch.inputIds batch.attentionMask)
  places : ∃ packed : List (PackedRows (Option (ℕ × ℕ))),
    gatherPacked settings strict none batch.labelled = .ok packed ∧
    ∀ i k, (batch.attentionMask.getD i [])[k]? = some true →
      ∃! rank : ℕ, ∃ held : PackedRows (Option (ℕ × ℕ)),
        packed[rank]? = some held ∧ some (i, k) ∈ held.rows

namespace PackedSettings

variable (settings : PackedSettings)

/-- The same parallel sizes for the newer packing. -/
def toThd : ThdSettings where
  tpSize := settings.tpSize
  cpSize := settings.cpSize
  useFp8Padding := settings.useFp8Padding
  minLocalRows := none
  padToLengthBucket := none
  cpLayout := .zigzag
  hasCpPartitionMode := false
  tpSize_pos := settings.tpSize_pos
  cpSize_pos := settings.cpSize_pos

theorem baseAlign_toThd : settings.toThd.baseAlign = settings.baseAlign := by
  rw [ThdSettings.baseAlign, ThdSettings.cpLayoutFactor, baseAlign]
  by_cases hcp : 1 < settings.cpSize
  · rw [if_pos ⟨rfl, hcp⟩, if_pos hcp]
    rfl
  · have hone : settings.cpSize = 1 := (not_lt.mp hcp).antisymm settings.cpSize_pos
    rw [if_neg fun hzigzag => hcp hzigzag.2, if_neg hcp]
    simp [toThd, hone]

/-- Both packings pad the sequences alike. -/
theorem packLengths_eq {lengths : List ℕ} (hlengths : lengths ≠ []) :
    settings.packLengths lengths = settings.toThd.packed lengths := by
  have hthd := settings.toThd.packLengths_eq hlengths (by simp [toThd])
  have hpad : settings.toThd.packLengths lengths = .ok (settings.packLengths lengths) := by
    have hrows : settings.toThd.minLocalRows = none := rfl
    have hbucket : settings.toThd.padToLengthBucket = none := rfl
    have hfp8 : settings.toThd.useFp8Padding = settings.useFp8Padding := rfl
    cases hcase : settings.useFp8Padding <;>
      simp [ThdSettings.packLengths, packLengths, ThdSettings.padBucket,
        ThdSettings.padMinLocalRows, ThdSettings.padFp8, ThdSettings.alignSize,
        ThdSettings.totalAlign, baseAlign_toThd, hrows, hbucket, hfp8, hcase]
  exact Except.ok.inj (hpad.symm.trans hthd)

/-- Every padded length leaves two chunks for each rank. -/
theorem two_mul_cpSize_dvd (hcp : 1 < settings.cpSize) {lengths : List ℕ} {i : ℕ}
    (hi : i < lengths.length) :
    2 * settings.cpSize ∣ settings.toThd.seqlenPadded lengths i := by
  have halign := settings.toThd.two_mul_cpSize_dvd_alignSize rfl hcp
  have hround : ∀ length, 2 * settings.cpSize ∣ roundUp settings.toThd.alignSize length :=
    fun length => halign.trans (dvd_roundUp settings.toThd.alignSize_pos length)
  have hsum : ∀ lengths : List ℕ,
      2 * settings.cpSize ∣ (lengths.map (roundUp settings.toThd.alignSize)).sum := by
    intro lengths
    apply List.dvd_sum
    intro length hlength
    obtain ⟨source, -, rfl⟩ := List.mem_map.mp hlength
    exact hround source
  have htotal : 2 * settings.cpSize ∣ settings.toThd.paddedTotal lengths := by
    have hfp8 : settings.toThd.paddedTotal lengths =
        settings.toThd.fp8Total (lengths.map (roundUp settings.toThd.alignSize)).sum := rfl
    rw [hfp8, ThdSettings.fp8Total]
    split
    next =>
      have hbase : 2 * settings.cpSize ∣ settings.toThd.totalAlign := by
        apply Dvd.dvd.mul_right
        rw [baseAlign_toThd, baseAlign, if_pos hcp, Nat.mul_assoc, Nat.mul_comm 2]
        exact Nat.dvd_mul_left _ _
      exact hbase.trans (dvd_roundUp settings.toThd.totalAlign_pos _)
    next => exact hsum lengths
  rcases Nat.lt_or_eq_of_le (Nat.succ_le_of_lt hi) with hlt | hlast
  · rw [ThdSettings.seqlenPadded_of_lt hlt]
    exact hround _
  · rw [ThdSettings.seqlenPadded_last hlast]
    exact Nat.dvd_sub htotal (hsum _)

theorem seqlenPadded_eq (hcp : 1 < settings.cpSize) {lengths : List ℕ} {i : ℕ}
    (hi : i < lengths.length) :
    settings.toThd.seqlenPadded lengths i = 2 * (settings.cpSize *
      (settings.toThd.seqlenPadded lengths i / settings.cpSize / 2)) := by
  obtain ⟨half, hhalf⟩ := settings.two_mul_cpSize_dvd hcp hi
  have hdiv : 2 * settings.cpSize * half / settings.cpSize / 2 = half := by
    rw [Nat.div_div_eq_div_mul, Nat.mul_comm settings.cpSize,
      Nat.mul_div_cancel_left _ (by omega)]
  rw [hhalf, hdiv, Nat.mul_assoc]

end PackedSettings

/-- What a rank holds of a row. -/
def validSegment (settings : PackedSettings) (rank : ℕ) (zero : α) (batch : Batch α)
    (i : ℕ) : List α :=
  if 1 < settings.cpSize then
    firstChunk (settings.toThd.seqlenPadded batch.lengths i / settings.cpSize / 2) rank
        (plainSegment settings.toThd zero batch i) ++
      secondChunk (settings.toThd.seqlenPadded batch.lengths i / settings.cpSize / 2) rank
        (plainSegment settings.toThd zero batch i)
  else plainSegment settings.toThd zero batch i

section Rows

variable {settings : PackedSettings} {batch : Batch α} {rank i : ℕ} (strict : Bool) (zero : α)

theorem length_plainSegment_toThd (hcp : 1 < settings.cpSize)
    (hi : i < batch.sequences.length) :
    (plainSegment settings.toThd zero batch i).length = 2 * (settings.cpSize *
      (settings.toThd.seqlenPadded batch.lengths i / settings.cpSize / 2)) :=
  (length_plainSegment settings.toThd zero hi).trans
    (settings.seqlenPadded_eq hcp (hi.trans_eq batch.length_lengths.symm))

theorem length_validSegment (hrank : rank < settings.cpSize)
    (hi : i < batch.sequences.length) :
    (validSegment settings rank zero batch i).length =
      settings.toThd.seqlenPadded batch.lengths i / settings.cpSize := by
  rw [validSegment]
  split
  next hcp =>
    have hlength := length_plainSegment_toThd zero hcp hi
    have heq := settings.seqlenPadded_eq hcp (hi.trans_eq batch.length_lengths.symm)
    rw [List.length_append, length_firstChunk hrank hlength, length_secondChunk hrank hlength]
    generalize settings.toThd.seqlenPadded batch.lengths i / settings.cpSize / 2 = half at heq ⊢
    rw [heq, Nat.mul_left_comm, Nat.mul_div_cancel_left _ settings.cpSize_pos, Nat.two_mul]
  next hcp =>
    have hone : settings.cpSize = 1 := (not_lt.mp hcp).antisymm settings.cpSize_pos
    rw [length_plainSegment settings.toThd zero hi, hone, Nat.div_one]

theorem length_flatMap_validSegment (hrank : rank < settings.cpSize)
    (hi : i ≤ batch.sequences.length) :
    ((List.range i).flatMap (validSegment settings rank zero batch)).length =
      offset (settings.toThd.paddedLengths batch.lengths) i / settings.cpSize := by
  have hlength := settings.toThd.length_paddedLengths batch.lengths_ne_nil
  rw [batch.length_lengths] at hlength
  apply length_flatMap_range settings.cpSize
    (settings.toThd.cpSize_dvd_paddedLengths batch.lengths (by simp [PackedSettings.toThd])) _
    (hi.trans_eq hlength.symm)
  intro index hindex
  exact length_validSegment zero hrank (hindex.trans_eq hlength)

/-- A rank writes its part of a row, and no slice leaves the rows. -/
theorem writeValid_eq (hrank : rank < settings.cpSize) (hi : i < batch.sequences.length)
    {front : List α} (back : List α)
    (hfront : front.length =
      offset (settings.toThd.paddedLengths batch.lengths) i / settings.cpSize) :
    writeValid settings strict rank
        (front ++ (List.replicate (validSegment settings rank zero batch i).length zero ++
          back)) (batch.sequences.getD i []) (batch.sequences.getD i []).length
        (settings.toThd.seqlenPadded batch.lengths i)
        (offset (settings.toThd.paddedLengths batch.lengths) i) =
      .ok (front ++ (validSegment settings rank zero batch i ++ back)) := by
  have hlong := length_le_seqlenPadded settings.toThd hi
  rw [length_validSegment zero hrank hi, writeValid, validSegment]
  split
  next hone =>
    have hcp : settings.cpSize = 1 := hone.antisymm settings.cpSize_pos
    have hslot : (List.replicate (settings.toThd.seqlenPadded batch.lengths i) zero : List α) =
        List.replicate (batch.sequences.getD i []).length zero ++
          List.replicate (settings.toThd.seqlenPadded batch.lengths i -
            (batch.sequences.getD i []).length) zero := by
      rw [← List.replicate_add, Nat.add_sub_cancel' hlong]
    have hassign := assignChecked_middle strict front
      (List.replicate (settings.toThd.seqlenPadded batch.lengths i -
        (batch.sequences.getD i []).length) zero ++ back)
      (List.length_replicate (n := (batch.sequences.getD i []).length) (a := zero)).symm
    rw [List.length_replicate, hfront, hcp, Nat.div_one] at hassign
    rw [if_neg (not_lt.mpr hone), hcp, Nat.div_one, hslot, List.append_assoc, hassign,
      plainSegment, List.append_assoc]
  next hcp =>
    rw [not_le] at hcp
    have heq := settings.seqlenPadded_eq hcp (hi.trans_eq batch.length_lengths.symm)
    have hshare : settings.toThd.seqlenPadded batch.lengths i / settings.cpSize =
        settings.toThd.seqlenPadded batch.lengths i / settings.cpSize / 2 +
          settings.toThd.seqlenPadded batch.lengths i / settings.cpSize / 2 := by
      conv_lhs => rw [heq]
      rw [Nat.mul_left_comm, Nat.mul_div_cancel_left _ settings.cpSize_pos, Nat.two_mul]
    have hchunks := writeClamped_chunks strict front back (batch.sequences.getD i []) zero hrank
      (hlong.trans_eq heq)
    rw [← hshare, ← heq, hfront] at hchunks
    rw [if_pos hcp]
    exact hchunks

end Rows

/-- The rows of a rank. -/
def validRows (settings : PackedSettings) (zero : α) (batch : MaskedBatch α) (rank : ℕ) :
    List α :=
  (List.range batch.inputIds.length).flatMap (validSegment settings rank zero batch.selected)

section Main

variable {settings : PackedSettings} {batch : MaskedBatch α} {rank i k : ℕ}
  (strict : Bool) (zero : α)

theorem preprocessPackedSeqs_eq (hrank : rank < settings.cpSize) :
    preprocessPackedSeqs settings strict rank zero batch.inputIds batch.attentionMask =
      .ok { rows := validRows settings zero batch rank
            params := {
              cuSeqlensPadded := offsets (settings.toThd.paddedLengths batch.selected.lengths)
              maxSeqlen := (settings.toThd.paddedLengths batch.selected.lengths).foldl max 0
              cpPartitionMode := none } } := by
  have hlengths : batch.attentionMask.map (List.count true) = batch.selected.lengths :=
    batch.lengths_selected.symm
  have htotal : (settings.toThd.packed batch.selected.lengths).seqlensInBatchPadded.sum /
      settings.cpSize = (validRows settings zero batch rank).length := by
    rw [validRows, ← batch.length_selected, length_flatMap_validSegment zero hrank le_rfl,
      ← batch.selected.length_lengths, offset_length _ batch.selected.lengths_ne_nil, sum_packed]
  have hstep : ∀ i < batch.inputIds.length, ∀ back,
      writeValid settings strict rank
        ((List.range i).flatMap (validSegment settings rank zero batch.selected) ++
          (List.replicate (validSegment settings rank zero batch.selected i).length zero ++ back))
        (maskedSelect (batch.inputIds.getD i []) (batch.attentionMask.getD i []))
        (batch.selected.lengths.getD i 0)
        ((settings.toThd.packed batch.selected.lengths).seqlensInBatchPadded.getD i 0)
        ((settings.toThd.packed batch.selected.lengths).cuSeqlensPadded.getD i 0) =
      .ok ((List.range i).flatMap (validSegment settings rank zero batch.selected) ++
        (validSegment settings rank zero batch.selected i ++ back)) := by
    intro i hi back
    have hi' := hi.trans_eq batch.length_selected.symm
    rw [← batch.selected_getD hi, batch.selected.lengths_getD]
    exact writeValid_eq strict zero hrank hi' back (length_flatMap_validSegment zero hrank hi'.le)
  have hfill := foldlM_fill (fun rows i => writeValid settings strict rank rows
    (maskedSelect (batch.inputIds.getD i []) (batch.attentionMask.getD i []))
    (batch.selected.lengths.getD i 0)
    ((settings.toThd.packed batch.selected.lengths).seqlensInBatchPadded.getD i 0)
    ((settings.toThd.packed batch.selected.lengths).cuSeqlensPadded.getD i 0)) zero hstep []
  rw [List.append_nil, List.append_nil] at hfill
  rw [preprocessPackedSeqs, hlengths, settings.packLengths_eq batch.selected.lengths_ne_nil,
    htotal]
  apply bind_eq_ok.mpr
  exact ⟨_, hfill, rfl⟩

theorem gatherPacked_eq :
    gatherPacked settings strict zero batch = .ok ((List.range settings.cpSize).map fun rank =>
      { rows := validRows settings zero batch rank
        params := {
          cuSeqlensPadded := offsets (settings.toThd.paddedLengths batch.selected.lengths)
          maxSeqlen := (settings.toThd.paddedLengths batch.selected.lengths).foldl max 0
          cpPartitionMode := none } }) := by
  apply mapM_eq_ok_map
  intro rank hrank
  exact preprocessPackedSeqs_eq strict zero (List.mem_range.mp hrank)

/-- The valid tokens of a row are put together from all ranks. -/
theorem gatherValid_eq {params : PackedSeqParams}
    (hparams : params.cuSeqlensPadded =
      offsets (settings.toThd.paddedLengths batch.selected.lengths))
    (garbage : ℕ → α) (hi : i < batch.inputIds.length) :
    gatherValid settings strict params
        ((List.range settings.cpSize).map (validRows settings zero batch)) garbage
        ((batch.attentionMask.getD i []).count true) i =
      .ok (batch.selected.sequences.getD i []) := by
  have hi' := hi.trans_eq batch.length_selected.symm
  have hcount : (batch.attentionMask.getD i []).count true =
      (batch.selected.sequences.getD i []).length := by
    rw [batch.selected_getD hi, batch.length_valid hi]
  have hstart : ∀ i, params.cuSeqlensPadded.getD i 0 =
      offset (settings.toThd.paddedLengths batch.selected.lengths) i := by
    intro i
    rw [hparams]
    rfl
  rw [gatherValid, hstart, hstart, hcount]
  split
  next hone =>
    have hcp : settings.cpSize = 1 := hone.antisymm settings.cpSize_pos
    have hrows : validRows settings zero batch 0 =
        paddedBuffer settings.toThd zero batch.selected := by
      rw [validRows, paddedBuffer, batch.length_selected]
      congr 1
      funext i
      exact if_neg (not_lt.mpr hone)
    rw [hcp, List.range_one, List.map_singleton, List.getD_cons_zero, hrows,
      slice_paddedBuffer zero hi']
  next hcp =>
    rw [not_le] at hcp
    have heq := settings.seqlenPadded_eq hcp (hi'.trans_eq batch.selected.length_lengths.symm)
    have hlength := length_plainSegment_toThd zero hcp hi'
    have hend : offset (settings.toThd.paddedLengths batch.selected.lengths) (i + 1) -
        offset (settings.toThd.paddedLengths batch.selected.lengths) i =
          settings.toThd.seqlenPadded batch.selected.lengths i := by
      rw [offset_seqlenPadded settings.toThd hi', Nat.add_sub_cancel_left]
    rw [gatherSequence_chunks strict garbage _ settings.cpSize_pos (hend.trans heq) hlength,
      plainSegment, List.take_left]
    intro rank hrank
    obtain ⟨back, hsplit⟩ :=
      flatMap_range_split (validSegment settings rank zero batch.selected) hi
    refine ⟨_, back, ?_, length_flatMap_validSegment zero hrank hi'.le⟩
    rw [List.getD_eq_getElem _ _ (by simpa using hrank), List.getElem_map, List.getElem_range,
      validRows, hsplit, validSegment, if_pos hcp]

theorem unpackRow_eq {params : PackedSeqParams}
    (hparams : params.cuSeqlensPadded =
      offsets (settings.toThd.paddedLengths batch.selected.lengths))
    (garbage : ℕ → α) (hi : i < batch.inputIds.length) :
    unpackRow settings strict params
        ((List.range settings.cpSize).map (validRows settings zero batch)) zero garbage
        batch.attentionMask batch.seqLen i =
      .ok (restrict zero (batch.inputIds.getD i []) (batch.attentionMask.getD i [])) := by
  rw [unpackRow]
  apply bind_eq_ok.mpr
  refine ⟨_, gatherValid_eq strict zero hparams garbage hi, ?_⟩
  rw [batch.selected_getD hi, ← batch.length_row hi]
  exact maskedAssign_maskedSelect strict zero
    ((batch.length_row hi).trans (batch.length_mask hi).symm)

/-- A valid token stands at one place of one padded row. -/
theorem exists_place (settings : PackedSettings)
    (hvalid : (batch.attentionMask.getD i [])[k]? = some true) :
    i < batch.inputIds.length ∧ ∃ place : ℕ,
      (plainSegment settings.toThd none batch.labelled.selected i)[place]? = some (some (i, k)) ∧
      ∀ j < batch.inputIds.length, ∀ index : ℕ,
        (plainSegment settings.toThd none batch.labelled.selected j)[index]? =
          some (some (i, k)) → j = i ∧ index = place := by
  have hi : i < batch.inputIds.length := by
    rw [← batch.length_eq]
    by_contra hge
    rw [List.getD_eq_default _ _ (not_lt.mp hge)] at hvalid
    cases hvalid
  have hk : k < (batch.inputIds.getD i []).length := by
    rw [batch.length_row hi, ← batch.length_mask hi]
    exact (List.getElem?_eq_some_iff.mp hvalid).1
  have hselected : ∀ j < batch.inputIds.length, batch.labelled.selected.sequences.getD j [] =
      maskedSelect ((labelSequences batch.inputIds).getD j [])
        (batch.attentionMask.getD j []) :=
    fun j hj => batch.labelled.selected_getD (hj.trans_eq (length_labelSequences _).symm)
  have hmem : some (i, k) ∈ batch.labelled.selected.sequences.getD i [] := by
    rw [hselected i hi]
    exact mem_maskedSelect ((getElem?_labelSequences hi).mpr ⟨hk, rfl⟩) hvalid
  obtain ⟨place, hplace⟩ := List.mem_iff_getElem?.mp hmem
  have hbound := (List.getElem?_eq_some_iff.mp hplace).1
  refine ⟨hi, place, ?_, ?_⟩
  · rw [plainSegment, List.getElem?_append_left hbound, hplace]
  · intro j hj index hindex
    rw [plainSegment, List.getElem?_append] at hindex
    split at hindex
    next =>
      have hsublist := maskedSelect_sublist ((labelSequences batch.inputIds).getD j [])
        (batch.attentionMask.getD j [])
      have hown : some (i, k) ∈ (labelSequences batch.inputIds).getD j [] := by
        apply hsublist.subset
        rw [← hselected j hj]
        exact List.mem_of_getElem? hindex
      obtain rfl : i = j := ((mem_labelSequences hj).mp hown).2
      have hnodup : (batch.labelled.selected.sequences.getD i []).Nodup := by
        rw [hselected i hi]
        exact hsublist.nodup (nodup_labelSequences hi)
      exact ⟨rfl, ((List.getElem?_inj hbound hnodup).mp (hplace.trans hindex.symm)).symm⟩
    next =>
      rw [List.getElem?_replicate] at hindex
      split at hindex <;> cases hindex

/-- A valid token is on exactly one rank. -/
theorem existsUnique_validRows (hvalid : (batch.attentionMask.getD i [])[k]? = some true) :
    ∃! rank, rank < settings.cpSize ∧
      some (i, k) ∈ validRows settings none batch.labelled rank := by
  obtain ⟨hi, place, hplace, hunique⟩ := exists_place settings hvalid
  have hlabelled : batch.labelled.inputIds.length = batch.inputIds.length :=
    length_labelSequences _
  have hi' : i < batch.labelled.selected.sequences.length := by
    rwa [MaskedBatch.length_selected, hlabelled]
  by_cases hcp : 1 < settings.cpSize
  · have hlength : ∀ j < batch.inputIds.length,
        (plainSegment settings.toThd none batch.labelled.selected j).length =
          2 * (settings.cpSize * (settings.toThd.seqlenPadded batch.labelled.selected.lengths j /
            settings.cpSize / 2)) := by
      intro j hj
      exact length_plainSegment_toThd none hcp
        (by rwa [MaskedBatch.length_selected, hlabelled])
    have hbound := (List.getElem?_eq_some_iff.mp hplace).1
    rw [hlength i hi] at hbound
    have hplaceRank := rankOf_lt hbound
    have hhalf : 0 < settings.toThd.seqlenPadded batch.labelled.selected.lengths i /
        settings.cpSize / 2 := by
      apply Nat.pos_of_ne_zero
      intro hzero
      rw [hzero] at hbound
      simp at hbound
    have hmem : ∀ rank < settings.cpSize,
        (some (i, k) ∈ validRows settings none batch.labelled rank ↔
          rankOf (settings.toThd.seqlenPadded batch.labelled.selected.lengths i /
            settings.cpSize / 2) (plainSegment settings.toThd none batch.labelled.selected
              i).length place = rank) := by
      intro rank hrank
      rw [validRows, List.mem_flatMap]
      constructor
      · rintro ⟨j, hj, hsegment⟩
        rw [List.mem_range, hlabelled] at hj
        rw [validSegment, if_pos hcp] at hsegment
        have hinside : some (i, k) ∈
            plainSegment settings.toThd none batch.labelled.selected j := by
          rcases List.mem_append.mp hsegment with hchunk | hchunk
          · exact mem_of_mem_slice hchunk
          · exact mem_of_mem_slice hchunk
        obtain ⟨index, hindex⟩ := List.mem_iff_getElem?.mp hinside
        obtain ⟨rfl, -⟩ := hunique j hj index hindex
        obtain ⟨index, hindex, hrankOf⟩ := (mem_chunks hhalf hrank (hlength j hj)).mp hsegment
        obtain ⟨-, rfl⟩ := hunique j hj index hindex
        exact hrankOf
      · intro hrankOf
        refine ⟨i, by rwa [List.mem_range, hlabelled], ?_⟩
        rw [validSegment, if_pos hcp, mem_chunks hhalf hrank (hlength i hi)]
        exact ⟨place, hplace, hrankOf⟩
    rw [← hlength i hi] at hplaceRank
    refine ⟨_, ⟨hplaceRank, (hmem _ hplaceRank).mpr rfl⟩, ?_⟩
    rintro other ⟨hother, hheld⟩
    exact ((hmem other hother).mp hheld).symm
  · have hone : settings.cpSize = 1 := (not_lt.mp hcp).antisymm settings.cpSize_pos
    refine ⟨0, ⟨settings.cpSize_pos, ?_⟩, ?_⟩
    · rw [validRows, List.mem_flatMap]
      refine ⟨i, by rwa [List.mem_range, hlabelled], ?_⟩
      rw [validSegment, if_neg hcp]
      exact List.mem_of_getElem? hplace
    · rintro other ⟨hother, -⟩
      omega

/-- Packing a padded batch and unpacking it gives the valid tokens back, also
when no slice may leave its buffer. -/
theorem packedRoundTrips (settings : PackedSettings) (strict : Bool) (zero : α)
    (batch : MaskedBatch α) : PackedRoundTrips settings strict zero batch := by
  constructor
  · refine ⟨_, gatherPacked_eq strict zero, ?_⟩
    intro held hheld garbage
    obtain ⟨rank, -, rfl⟩ := List.mem_map.mp hheld
    have hrestored : (List.range batch.attentionMask.length).map
        (fun i => restrict zero (batch.inputIds.getD i []) (batch.attentionMask.getD i [])) =
        List.zipWith (restrict zero) batch.inputIds batch.attentionMask := by
      apply List.ext_getElem
      · simp [batch.length_eq]
      · intro i hleft hright
        simp only [List.length_map, List.length_range] at hleft
        have hrow := hleft.trans_eq batch.length_eq
        simp [hleft, hrow]
    rw [List.map_map, ← hrestored]
    apply mapM_eq_ok_map
    intro i hi
    rw [List.mem_range, batch.length_eq] at hi
    exact unpackRow_eq strict zero rfl garbage hi
  · refine ⟨_, gatherPacked_eq strict none, ?_⟩
    intro i k hvalid
    exact existsUnique_gathered (existsUnique_validRows hvalid)

end Main

end OneShotOPD.Mcore
