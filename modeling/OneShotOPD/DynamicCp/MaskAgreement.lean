import OneShotOPD.DynamicCp.PaddingMask
import Mathlib

/-!
# Where the padding mask agrees with the packer

The mask of a rank marks the rows that the packer leaves without a token when the
last sequence is long enough for the chunks that are cut out of it, and all tokens
are counted when no row is left between the chunks.
-/

namespace OneShotOPD.DynamicCp

open Segments SliceAssign Checks Mcore

variable {α : Type}

section Batch

variable {settings : ThdSettings} {batch : Batch α} {rank : ℕ}

/-! ## Agreement -/

/-- The mask of every rank marks the rows of the packer without a token, and the
token counts of the ranks make up the batch. -/
def MaskAgrees (settings : ThdSettings) (batch : Batch α) : Prop :=
  ∃ masks : ℕ → List Bool,
    (∀ rank < settings.cpSize,
      localPaddingMask (maskSettings settings) settings.cpSize rank batch.lengths =
        .ok (masks rank) ∧
      ∃ packed, preprocessThdEngine settings rank none batch.labelled.sequences = .ok packed ∧
        masks rank = packed.rows.map Option.isNone) ∧
    ∑ rank ∈ Finset.range settings.cpSize, ((masks rank).length - (masks rank).count true) =
      batch.lengths.sum

/-- The two chunks of every rank reach over the last sequence. -/
def MaskFits (settings : ThdSettings) (lengths : List ℕ) : Prop :=
  settings.cpLayout = .zigzag → 1 < settings.cpSize →
    LastFrontFits settings lengths ∧
      (lengths.getLastD 0 ≤
          settings.cpSize * (settings.paddedLast lengths / settings.cpSize / 2) ∨
        2 * settings.cpSize ∣ settings.paddedLast lengths)

instance (settings : ThdSettings) (lengths : List ℕ) : Decidable (LastFrontFits settings lengths) :=
  inferInstanceAs (Decidable (FrontFits _ _ _ _))

instance (settings : ThdSettings) (lengths : List ℕ) : Decidable (MaskFits settings lengths) :=
  inferInstanceAs (Decidable (_ → _ → _ ∧ (_ ∨ _)))

/-- The mask of a rank. -/
def rankMask (settings : ThdSettings) (lengths : List ℕ) (rank : ℕ) : List Bool :=
  if settings.cpLayout = .zigzag ∧ 1 < settings.cpSize then
    (List.range lengths.length).flatMap fun i =>
      zigzagMask settings.cpSize rank (lengths.getD i 0) (settings.seqlenPadded lengths i)
  else
    slice (settings.paddedTotal lengths / settings.cpSize * rank)
      (settings.paddedTotal lengths / settings.cpSize * rank +
        settings.paddedTotal lengths / settings.cpSize) (markedBatch settings lengths)

theorem localPaddingMask_eq (hfp8 : settings.useFp8Padding = false)
    (hbucket : settings.padToLengthBucket = none) (hminimum : settings.minLocalRows ≠ some 0)
    (hrank : rank < settings.cpSize) :
    localPaddingMask (maskSettings settings) settings.cpSize rank batch.lengths =
      .ok (rankMask settings batch.lengths rank) := by
  rw [rankMask]
  cases hlayout : settings.cpLayout with
  | contiguous =>
      rw [if_neg (by simp), localPaddingMask_contiguous hfp8 hbucket hminimum hlayout hrank]
  | zigzag =>
      rw [localPaddingMask_zigzag hfp8 hbucket hminimum hlayout]
      split
      next => rfl
      next hplain =>
        have hcp : settings.cpSize = 1 := by
          have hpos := settings.cpSize_pos
          by_contra hne
          exact hplain ⟨rfl, by omega⟩
        obtain rfl : rank = 0 := by omega
        have hlength : (markedBatch settings batch.lengths).length =
            settings.paddedTotal batch.lengths := by
          rw [← map_isNone_paddedBuffer, List.length_map, length_paddedBuffer,
            batch.lengths_labelled]
        rw [hcp, Nat.div_one, Nat.mul_zero, Nat.zero_add, slice, List.drop_zero,
          List.take_of_length_le hlength.le, markedBatch]
        refine congrArg _ (List.flatMap_congr fun i hi => zigzagMask_one ?_ 0)
        rw [batch.lengths_getD]
        exact length_le_seqlenPadded settings
          ((List.mem_range.mp hi).trans_eq batch.length_lengths)

theorem map_isNone_rankRows (hplain : ¬ (settings.cpLayout = .zigzag ∧ 1 < settings.cpSize)) :
    (rankRows settings none batch.labelled rank).map Option.isNone =
      rankMask settings batch.lengths rank := by
  rw [rankRows, if_neg hplain, rankMask, if_neg hplain, map_slice, map_isNone_paddedBuffer,
    batch.lengths_labelled]

theorem map_isNone_flatMap_chunksOf (hlayout : settings.cpLayout = .zigzag)
    (hcp : 1 < settings.cpSize) (hrank : rank < settings.cpSize) :
    ((List.range batch.sequences.length).flatMap
        (chunksOf settings rank none batch.labelled)).map Option.isNone =
      rankMask settings batch.lengths rank := by
  rw [rankMask, if_pos ⟨hlayout, hcp⟩, List.map_flatMap, batch.length_lengths]
  exact List.flatMap_congr fun i hi => map_isNone_chunksOf hcp hrank (List.mem_range.mp hi)

/-- Where the chunks are found, a rank marks the rows without a token. -/
theorem rows_of_fits (hbucket : settings.padToLengthBucket = none)
    (hsupported : settings.LayoutSupported) (hrank : rank < settings.cpSize)
    (hfit : settings.cpLayout = .zigzag → 1 < settings.cpSize →
      LastFrontFits settings batch.lengths) :
    ∃ packed, preprocessThdEngine settings rank none batch.labelled.sequences = .ok packed ∧
      rankMask settings batch.lengths rank = packed.rows.map Option.isNone := by
  have hnone : ∀ bucket ∈ settings.padToLengthBucket, 0 < bucket := by simp [hbucket]
  by_cases hzigzag : settings.cpLayout = .zigzag ∧ 1 < settings.cpSize
  · obtain ⟨hlayout, hcp⟩ := hzigzag
    have hlast : LastFrontFits settings batch.labelled.lengths := by
      rw [batch.lengths_labelled]
      exact hfit hlayout hcp
    have hrows := preprocessThdEngine_of_writeSequences hnone hsupported
      (writeSequences_chunksOf (none : Option (ℕ × ℕ)) hlayout hcp hrank hnone hlast)
    refine ⟨_, hrows, ?_⟩
    rw [batch.length_labelled, map_isNone_flatMap_chunksOf hlayout hcp hrank]
  · have hchunks : settings.LastChunksFit batch.labelled.lengths := fun hlayout hcp =>
      absurd ⟨hlayout, hcp⟩ hzigzag
    exact ⟨_, preprocessThdEngine_eq none hnone hchunks hsupported hrank,
      (map_isNone_rankRows hzigzag).symm⟩

end Batch

/-! ## Counting tokens -/

theorem count_false_marks (length paddedLength : ℕ) :
    (marks length paddedLength).count false = length := by
  rw [marks, List.count_append, List.count_replicate_self, List.count_replicate]
  simp

/-- The tokens of a sequence in the chunks of some ranks. -/
theorem sum_tokens {length paddedLength half : ℕ} (hlength : length ≤ paddedLength) {count : ℕ}
    (hreach : count * half ≤ paddedLength) :
    ∑ rank ∈ Finset.range count, (min (length - rank * half) half +
        min (length - (paddedLength - (rank + 1) * half)) half) =
      min length (count * half) + (length - (paddedLength - count * half)) := by
  induction count with
  | zero =>
      rw [Finset.sum_range_zero, Nat.zero_mul]
      omega
  | succ count ih =>
      have hstep : (count + 1) * half = count * half + half := Nat.succ_mul count half
      rw [Finset.sum_range_succ, ih (by omega), hstep]
      omega

theorem count_false_zigzagMask {cpSize cpRank seqLen paddedLen : ℕ} (hcp : 1 < cpSize) :
    (zigzagMask cpSize cpRank seqLen paddedLen).count false =
      min (seqLen - cpRank * (paddedLen / cpSize / 2)) (paddedLen / cpSize / 2) +
        min (seqLen - (paddedLen - (cpRank + 1) * (paddedLen / cpSize / 2)))
          (paddedLen / cpSize / 2) := by
  rw [zigzagMask_marks hcp, List.count_append, List.count_append, count_false_marks,
    count_false_marks, List.count_replicate]
  simp

theorem sum_map_range (f : ℕ → ℕ) (count : ℕ) :
    ((List.range count).map f).sum = ∑ i ∈ Finset.range count, f i := by
  induction count with
  | zero => rfl
  | succ count ih => rw [List.range_succ, Finset.sum_range_succ, ← ih]; simp

theorem sum_getD (lengths : List ℕ) :
    ∑ i ∈ Finset.range lengths.length, lengths.getD i 0 = lengths.sum := by
  rw [← sum_map_range]
  congr 1
  apply List.ext_getElem
  · simp
  · intro i hleft hright
    simp [List.getElem?_eq_getElem hright]

/-- Windows of one width count what lies in front of the last of them. -/
theorem sum_count_windows (items : List Bool) (width count : ℕ) :
    ∑ rank ∈ Finset.range count,
        (slice (width * rank) (width * rank + width) items).count false =
      (items.take (width * count)).count false := by
  induction count with
  | zero => simp
  | succ count ih =>
      have hsplit : items.take (width * (count + 1)) =
          items.take (width * count) ++
            slice (width * count) (width * count + width) items := by
        rw [Nat.mul_succ, slice]
        conv_lhs => rw [← List.take_append_drop (width * count)
          (items.take (width * count + width))]
        rw [List.take_take, Nat.min_eq_left (Nat.le_add_right _ _)]
      rw [Finset.sum_range_succ, ih, hsplit, List.count_append]

section Batch

variable {settings : ThdSettings} {batch : Batch α}

theorem sum_count_rankMask_plain (hbucket : settings.padToLengthBucket = none)
    (hplain : ¬ (settings.cpLayout = .zigzag ∧ 1 < settings.cpSize)) :
    ∑ rank ∈ Finset.range settings.cpSize,
        (rankMask settings batch.lengths rank).count false = batch.lengths.sum := by
  obtain ⟨width, htotal⟩ := settings.cpSize_dvd_paddedTotal batch.lengths (by simp [hbucket])
  have hdiv : settings.paddedTotal batch.lengths / settings.cpSize = width := by
    rw [htotal, Nat.mul_div_cancel_left _ settings.cpSize_pos]
  have hlength : (markedBatch settings batch.lengths).length = width * settings.cpSize := by
    rw [← map_isNone_paddedBuffer, List.length_map, length_paddedBuffer, batch.lengths_labelled,
      htotal, Nat.mul_comm]
  simp only [rankMask, if_neg hplain, hdiv]
  rw [sum_count_windows, ← hlength, List.take_length, markedBatch, List.count_flatMap,
    ← sum_getD batch.lengths, ← sum_map_range]
  congr 1
  exact List.map_congr_left fun i _ => count_false_marks _ _

/-- The tokens that the chunks of all ranks hold, sequence by sequence. -/
theorem sum_count_rankMask_zigzag (hlayout : settings.cpLayout = .zigzag)
    (hcp : 1 < settings.cpSize) :
    ∑ rank ∈ Finset.range settings.cpSize,
        (rankMask settings batch.lengths rank).count false =
      ∑ i ∈ Finset.range batch.lengths.length,
        (min (batch.lengths.getD i 0)
            (settings.cpSize * (settings.seqlenPadded batch.lengths i / settings.cpSize / 2)) +
          (batch.lengths.getD i 0 - (settings.seqlenPadded batch.lengths i -
            settings.cpSize * (settings.seqlenPadded batch.lengths i / settings.cpSize / 2)))) := by
  have hcount : ∀ rank, (rankMask settings batch.lengths rank).count false =
      ∑ i ∈ Finset.range batch.lengths.length,
        (zigzagMask settings.cpSize rank (batch.lengths.getD i 0)
          (settings.seqlenPadded batch.lengths i)).count false := by
    intro rank
    rw [rankMask, if_pos ⟨hlayout, hcp⟩, List.count_flatMap, ← sum_map_range]
    rfl
  simp only [hcount]
  rw [Finset.sum_comm]
  refine Finset.sum_congr rfl fun i hi => ?_
  have hlength := length_le_seqlenPadded settings
    ((Finset.mem_range.mp hi).trans_eq batch.length_lengths)
  rw [← batch.lengths_getD] at hlength
  have hall : settings.cpSize * (settings.seqlenPadded batch.lengths i / settings.cpSize) ≤
      settings.seqlenPadded batch.lengths i := Nat.mul_div_le _ _
  have hreach : settings.cpSize * (settings.seqlenPadded batch.lengths i / settings.cpSize / 2) ≤
      settings.seqlenPadded batch.lengths i :=
    (Nat.mul_le_mul_left _ (Nat.div_le_self _ 2)).trans hall
  rw [← sum_tokens hlength hreach]
  exact Finset.sum_congr rfl fun rank _ => count_false_zigzagMask hcp

theorem getD_last {last : ℕ} (hlast : last + 1 = batch.lengths.length) :
    batch.lengths.getD last 0 = batch.lengths.getLastD 0 := by
  rw [List.getLastD_eq_getLast?, List.getLast?_eq_getElem?, ← hlast, Nat.add_sub_cancel,
    List.getD_eq_getElem?_getD]

/-- All tokens are counted when the chunks leave no row between them, or no token
stands there. -/
theorem sum_count_rankMask_iff (hlayout : settings.cpLayout = .zigzag)
    (hcp : 1 < settings.cpSize) :
    ∑ rank ∈ Finset.range settings.cpSize,
        (rankMask settings batch.lengths rank).count false = batch.lengths.sum ↔
      (batch.lengths.getLastD 0 ≤
          settings.cpSize * (settings.paddedLast batch.lengths / settings.cpSize / 2) ∨
        2 * settings.cpSize ∣ settings.paddedLast batch.lengths) := by
  have hall : ∀ padded : ℕ, 2 * (settings.cpSize * (padded / settings.cpSize / 2)) ≤ padded := by
    intro padded
    rw [← Nat.mul_assoc, Nat.mul_comm 2, Nat.mul_assoc]
    exact (Nat.mul_le_mul_left _ (Nat.mul_div_le _ 2)).trans (Nat.mul_div_le _ _)
  have heven : ∀ padded : ℕ, 2 * settings.cpSize ∣ padded ↔
      2 * (settings.cpSize * (padded / settings.cpSize / 2)) = padded := by
    intro padded
    rw [Nat.div_div_eq_div_mul, Nat.mul_comm settings.cpSize 2, ← Nat.mul_assoc]
    exact ⟨Nat.mul_div_cancel', fun heq => heq ▸ Nat.dvd_mul_right _ _⟩
  have hone : ∀ length padded : ℕ, length ≤ padded →
      (min length (settings.cpSize * (padded / settings.cpSize / 2)) +
          (length - (padded - settings.cpSize * (padded / settings.cpSize / 2))) = length ↔
        (length ≤ settings.cpSize * (padded / settings.cpSize / 2) ∨
          2 * settings.cpSize ∣ padded)) := by
    intro length padded hlength
    have hroom := hall padded
    rw [heven]
    omega
  have hpos := List.length_pos_iff.mpr batch.lengths_ne_nil
  obtain ⟨last, hlast⟩ : ∃ last, last + 1 = batch.lengths.length :=
    ⟨batch.lengths.length - 1, Nat.sub_add_cancel hpos⟩
  have hle : ∀ i < batch.lengths.length,
      batch.lengths.getD i 0 ≤ settings.seqlenPadded batch.lengths i := by
    intro i hi
    rw [batch.lengths_getD]
    exact length_le_seqlenPadded settings (hi.trans_eq batch.length_lengths)
  have hterm : ∀ i ∈ Finset.range batch.lengths.length,
      min (batch.lengths.getD i 0)
          (settings.cpSize * (settings.seqlenPadded batch.lengths i / settings.cpSize / 2)) +
        (batch.lengths.getD i 0 - (settings.seqlenPadded batch.lengths i -
          settings.cpSize * (settings.seqlenPadded batch.lengths i / settings.cpSize / 2))) ≤
      batch.lengths.getD i 0 := by
    intro i hi
    have hroom := hall (settings.seqlenPadded batch.lengths i)
    have hlength := hle i (Finset.mem_range.mp hi)
    omega
  rw [sum_count_rankMask_zigzag hlayout hcp, ← sum_getD batch.lengths,
    Finset.sum_eq_sum_iff_of_le hterm, ← getD_last hlast, ← settings.seqlenPadded_last hlast,
    ← hone _ _ (hle last (by omega))]
  constructor
  · intro hsame
    exact hsame last (Finset.mem_range.mpr (by omega))
  · intro hsame i hi
    rcases Nat.lt_or_eq_of_le (Nat.succ_le_of_lt (Finset.mem_range.mp hi)) with hlt | heq
    · exact (hone _ _ (hle i (Finset.mem_range.mp hi))).mpr
        (.inr (settings.chunksFit_of_lt hlayout hcp hlt).1)
    · obtain rfl : i = last := by omega
      exact hsame

/-! ## The chunk that is copied -/

theorem getElem?_of_assignSlice {buffer source result : List α} {start stop : ℕ}
    (hok : assignSlice buffer start stop source = .ok result) {index : ℕ} (hindex : index < start)
    (hstart : start ≤ buffer.length) : result[index]? = buffer[index]? := by
  have hkeep : ∀ source : List α, (overwrite buffer start source)[index]? = buffer[index]? := by
    intro source
    rw [overwrite, List.getElem?_append_left (by rw [List.length_take]; omega),
      List.getElem?_take_of_lt hindex]
  simp only [assignSlice] at hok
  split at hok
  next => exact Except.ok.inj hok ▸ hkeep source
  next =>
    split at hok
    next value => exact Except.ok.inj hok ▸ hkeep _
    next => cases hok

theorem getElem?_of_writeClamped {buffer source result : List α} {start sourceStart sourceEnd : ℕ}
    (hok : writeClamped false buffer start sourceStart sourceEnd source = .ok result) {index : ℕ}
    (hindex : index < start) (hstart : start ≤ buffer.length) :
    result[index]? = buffer[index]? := by
  simp only [writeClamped, assignChecked_false] at hok
  split at hok
  next => exact getElem?_of_assignSlice hok hindex hstart
  next => exact Except.ok.inj hok ▸ rfl

/-- The row behind the only token of a chunk is padding. -/
theorem getElem?_chunksOf_single {last : ℕ}
    (hlast : last < batch.sequences.length)
    (hlength : (batch.sequences.getD last []).length = (settings.cpSize - 1) *
      (settings.seqlenPadded batch.lengths last / settings.cpSize / 2) + 1)
    (hhalf : 2 ≤ settings.seqlenPadded batch.lengths last / settings.cpSize / 2) (zero : α) :
    (chunksOf settings (settings.cpSize - 1) zero batch last)[1]? = some zero := by
  have hpadded := length_le_seqlenPadded settings hlast
  have hroom : settings.cpSize * (settings.seqlenPadded batch.lengths last / settings.cpSize / 2) ≤
      settings.seqlenPadded batch.lengths last :=
    (Nat.mul_le_mul_left _ (Nat.div_le_self _ 2)).trans (Nat.mul_div_le _ _)
  rw [chunksOf, paddedChunks]
  generalize settings.seqlenPadded batch.lengths last / settings.cpSize / 2 = half
    at hlength hhalf hroom ⊢
  have hmul : settings.cpSize * half = (settings.cpSize - 1) * half + half := by
    rw [← Nat.succ_mul, Nat.succ_eq_add_one, Nat.sub_add_cancel settings.cpSize_pos]
  have hnext : (settings.cpSize - 1 + 1) * half = (settings.cpSize - 1) * half + half :=
    Nat.succ_mul _ _
  have hslice : (slice ((settings.cpSize - 1) * half) ((settings.cpSize - 1 + 1) * half)
      (batch.sequences.getD last [] ++ List.replicate (settings.seqlenPadded batch.lengths last -
        (batch.sequences.getD last []).length) zero)).length = half := by
    rw [length_slice (by rw [List.length_append, List.length_replicate]; omega)]
    omega
  rw [List.getElem?_append_left (by rw [hslice]; omega), getElem?_slice, if_pos (by omega),
    List.getElem?_append_right (by omega), List.getElem?_replicate, if_pos (by omega)]

/-- The only token of a chunk is copied to all rows of it. -/
theorem getElem?_of_writeChunks_single {zero : α} {before rows tokens : List α}
    {alignSize seqlenPadded seqStart : ℕ} (hlong : alignSize ≤ tokens.length)
    (hlength : tokens.length =
      (settings.cpSize - 1) * (seqlenPadded / settings.cpSize / 2) + 1)
    (hwide : 2 ≤ seqlenPadded / settings.cpSize / 2)
    (hstop : seqStart / settings.cpSize + seqlenPadded / settings.cpSize / 2 ≤ before.length)
    (hok : writeChunks settings.cpSize (settings.cpSize - 1) alignSize zero before tokens
      seqlenPadded seqStart = .ok rows) :
    rows[seqStart / settings.cpSize + 1]? = tokens.getLast? := by
  obtain ⟨middle, hmiddle, hclamped⟩ := bind_eq_ok.mp hok
  have hpad : padToAlign alignSize zero tokens = tokens := if_neg (not_lt.mpr hlong)
  generalize seqlenPadded / settings.cpSize / 2 = half at hlength hwide hstop hmiddle hclamped
  have hnext : half * (settings.cpSize - 1 + 1) = (settings.cpSize - 1) * half + half := by
    rw [Nat.mul_succ, Nat.mul_comm]
  have hin : (settings.cpSize - 1) * half < tokens.length := by omega
  have hsource : slice (half * (settings.cpSize - 1)) (half * (settings.cpSize - 1 + 1)) tokens =
      [tokens[(settings.cpSize - 1) * half]] := by
    rw [hnext, slice, List.take_of_length_le (by omega), Nat.mul_comm,
      List.drop_eq_getElem_cons hin, List.drop_of_length_le (by omega)]
  rw [hpad, hsource, assignSlice_singleton _ hstop, Nat.add_sub_cancel_left] at hmiddle
  obtain rfl := Except.ok.inj hmiddle
  have hfits : seqStart / settings.cpSize +
      (List.replicate half tokens[(settings.cpSize - 1) * half]).length ≤ before.length := by
    rwa [List.length_replicate]
  rw [getElem?_of_writeClamped hclamped (by omega) (by rw [length_overwrite hfits]; exact hstop),
    getElem?_overwrite hfits, List.length_replicate, if_pos (by omega), List.getElem?_replicate,
    if_pos (by omega), List.getLast?_eq_getElem?, hlength, Nat.add_sub_cancel,
    List.getElem?_eq_getElem hin]

theorem lastFrontFits_of_rows (hbucket : settings.padToLengthBucket = none)
    (hlayout : settings.cpLayout = .zigzag) (hcp : 1 < settings.cpSize)
    {packed : PackedRows (Option (ℕ × ℕ))}
    (hok : preprocessThdEngine settings (settings.cpSize - 1) none batch.labelled.sequences =
      .ok packed)
    (hsame : rankMask settings batch.lengths (settings.cpSize - 1) =
      packed.rows.map Option.isNone) : LastFrontFits settings batch.lengths := by
  have hnone : ∀ bucket ∈ settings.padToLengthBucket, 0 < bucket := by simp [hbucket]
  have hrank : settings.cpSize - 1 < settings.cpSize := Nat.sub_lt settings.cpSize_pos Nat.one_pos
  obtain ⟨last, hlast⟩ : ∃ last, last + 1 = batch.sequences.length :=
    ⟨batch.sequences.length - 1, Nat.sub_add_cancel (List.length_pos_iff.mpr batch.nonempty)⟩
  have hlabelled : last + 1 = batch.labelled.sequences.length :=
    hlast.trans batch.length_labelled.symm
  have hhalf := half_pos hlayout hcp hlast
  obtain ⟨before, hbefore, hchunks⟩ := writeChunks_of_writeSequences hlayout hcp hlabelled
    (of_preprocessThdEngine hnone hok).1
  have hreach := reach_of_writeChunks hnone hlabelled hbefore hchunks
    (by rwa [batch.lengths_labelled])
  have htokens : (batch.labelled.sequences.getD last []).length = batch.lengths.getLastD 0 := by
    rw [← Batch.lengths_getD, batch.lengths_labelled,
      getD_last (hlast.trans batch.length_lengths.symm)]
  rw [batch.lengths_labelled] at hbefore hchunks hreach
  rw [htokens] at hreach
  rw [LastFrontFits, FrontFits]
  rcases hreach with hreach | hone
  · exact .inl hreach
  by_cases hshort : batch.lengths.getLastD 0 < settings.alignSize
  · exact .inr ⟨hshort, by rwa [max_eq_right hshort.le] at hone⟩
  by_cases hinside : settings.cpSize * (settings.paddedLast batch.lengths / settings.cpSize / 2) ≤
      max (batch.lengths.getLastD 0) settings.alignSize
  · exact .inl hinside
  -- one token is copied to all rows of the last chunk, and the mask keeps the first
  exfalso
  have hlength : batch.lengths.getLastD 0 = (settings.cpSize - 1) *
      (settings.paddedLast batch.lengths / settings.cpSize / 2) + 1 := by
    rwa [max_eq_left (not_lt.mp hshort)] at hone
  have hseqlen : settings.seqlenPadded batch.lengths last = settings.paddedLast batch.lengths :=
    settings.seqlenPadded_last (hlast.trans batch.length_lengths.symm)
  have hmul : settings.cpSize * (settings.paddedLast batch.lengths / settings.cpSize / 2) =
      (settings.cpSize - 1) * (settings.paddedLast batch.lengths / settings.cpSize / 2) +
        settings.paddedLast batch.lengths / settings.cpSize / 2 := by
    rw [← Nat.succ_mul, Nat.succ_eq_add_one, Nat.sub_add_cancel settings.cpSize_pos]
  have hwide : 2 ≤ settings.paddedLast batch.lengths / settings.cpSize / 2 := by omega
  have hstart : offset (settings.paddedLengths batch.lengths) last / settings.cpSize +
      settings.paddedLast batch.lengths / settings.cpSize = before.length := by
    rw [hbefore, ← Nat.add_div_of_dvd_left (cpSize_dvd_last hnone hlast).2,
      offset_add_paddedLast hlast]
  have hfront := @length_flatMap_chunksOf _ settings batch.labelled (settings.cpSize - 1) none
    hrank hnone last (by omega)
  rw [batch.lengths_labelled] at hfront
  have hmask : (rankMask settings batch.lengths (settings.cpSize - 1))[
      offset (settings.paddedLengths batch.lengths) last / settings.cpSize + 1]? = some true := by
    have hsingle := @getElem?_chunksOf_single _ settings batch.labelled last (by omega)
      (by rw [batch.lengths_labelled, hseqlen, htokens, hlength])
      (by rwa [batch.lengths_labelled, hseqlen]) none
    rw [← map_isNone_flatMap_chunksOf hlayout hcp hrank, ← hlast, List.range_succ,
      List.flatMap_append, List.flatMap_singleton, List.getElem?_map, ← hfront,
      List.getElem?_append_right (Nat.le_add_right _ _), Nat.add_sub_cancel_left, hsingle]
    rfl
  have hrow := getElem?_of_writeChunks_single (by rw [htokens]; exact not_lt.mp hshort)
    (htokens.trans hlength) hwide
    (by rw [← hstart]; exact Nat.add_le_add_left (Nat.div_le_self _ 2) _) hchunks
  have hne : batch.labelled.sequences.getD last [] ≠ [] :=
    List.ne_nil_of_length_pos (by omega)
  rw [List.getLast?_eq_some_getLast hne] at hrow
  have htoken := @isNone_labelled _ batch last (by omega) _ (List.getLast_mem hne)
  rw [hsame, List.getElem?_map, hrow, Option.map_some, htoken] at hmask
  cases Option.some.inj hmask

/-- The mask agrees with the packer on all ranks when the two chunks of every rank
reach over the last sequence, and only then. -/
theorem maskAgrees_iff {settings : ThdSettings} {batch : Batch α}
    (hfp8 : settings.useFp8Padding = false) (hbucket : settings.padToLengthBucket = none)
    (hminimum : settings.minLocalRows ≠ some 0) (hsupported : settings.LayoutSupported) :
    MaskAgrees settings batch ↔ MaskFits settings batch.lengths := by
  have htokens : ∀ mask : List Bool, mask.length - mask.count true = mask.count false := by
    intro mask
    have hcount := List.count_true_add_count_false mask
    omega
  constructor
  · rintro ⟨masks, hrows, hsum⟩ hlayout hcp
    have hmask : ∀ rank < settings.cpSize, masks rank = rankMask settings batch.lengths rank := by
      intro rank hrank
      exact Except.ok.inj
        ((hrows rank hrank).1.symm.trans (localPaddingMask_eq hfp8 hbucket hminimum hrank))
    have hrank : settings.cpSize - 1 < settings.cpSize :=
      Nat.sub_lt settings.cpSize_pos Nat.one_pos
    obtain ⟨-, packed, hpacked, hsame⟩ := hrows _ hrank
    rw [hmask _ hrank] at hsame
    refine ⟨lastFrontFits_of_rows hbucket hlayout hcp hpacked hsame,
      (sum_count_rankMask_iff hlayout hcp).mp ?_⟩
    rw [← hsum]
    refine Finset.sum_congr rfl fun rank hmem => ?_
    rw [htokens, hmask rank (Finset.mem_range.mp hmem)]
  · intro hfit
    refine ⟨rankMask settings batch.lengths, fun rank hrank =>
      ⟨localPaddingMask_eq hfp8 hbucket hminimum hrank,
        rows_of_fits hbucket hsupported hrank fun hlayout hcp => (hfit hlayout hcp).1⟩, ?_⟩
    simp only [htokens]
    by_cases hzigzag : settings.cpLayout = .zigzag ∧ 1 < settings.cpSize
    · exact (sum_count_rankMask_iff hzigzag.1 hzigzag.2).mpr (hfit hzigzag.1 hzigzag.2).2
    · exact sum_count_rankMask_plain hbucket hzigzag

end Batch

/-- Two ranks with a minimum of rows. -/
def minimumRows (rows : ℕ) : ThdSettings where
  tpSize := 1
  cpSize := 2
  useFp8Padding := false
  minLocalRows := some rows
  padToLengthBucket := none
  cpLayout := .zigzag
  hasCpPartitionMode := true
  tpSize_pos := Nat.one_pos
  cpSize_pos := Nat.two_pos

/-- With six rows the last token is copied, and the mask marks its copies. -/
theorem minimumRows_maskAgrees :
    MaskAgrees (minimumRows 4) fourTokens ∧ ¬ MaskAgrees (minimumRows 6) fourTokens := by
  constructor
  · exact (maskAgrees_iff rfl rfl (by decide) fun _ _ => rfl).mpr (by decide)
  · exact fun hagrees => absurd
      ((maskAgrees_iff rfl rfl (by decide) fun _ _ => rfl).mp hagrees) (by decide)

end OneShotOPD.DynamicCp
