import OneShotOPD.Mcore.ThdRows
import OneShotOPD.Core.Scatter

/-!
# What the ranks hold, and what is unpacked from it

When the chunks of the last sequence stay within its tokens, no rank raises.
The rows that the ranks hold have one length, and the unpacking finds every
sequence in them as it was.
-/

namespace OneShotOPD.Mcore

open Segments SliceAssign Zigzag Checks

variable {α : Type}

section Rows

variable {settings : ThdSettings} {batch : Batch α} {rank : ℕ} (zero : α)

theorem partialBuffer_length :
    partialBuffer settings zero batch batch.sequences.length =
      paddedBuffer settings zero batch := by
  rw [partialBuffer, ← batch.length_lengths, offset_length settings batch.lengths_ne_nil,
    Nat.sub_self, List.replicate_zero, List.append_nil, paddedBuffer, batch.length_lengths]

theorem partialBuffer_zero :
    partialBuffer settings zero batch 0 =
      List.replicate (settings.paddedTotal batch.lengths) zero := by
  rw [partialBuffer, offset_eq (Nat.zero_le _)]
  simp

theorem cuSeqlensPadded_getD (i : ℕ) :
    (settings.packed batch.lengths).cuSeqlensPadded.getD i 0 =
      offset (settings.paddedLengths batch.lengths) i := rfl

theorem chunksFit_getD (hlayout : settings.cpLayout = .zigzag) (hcp : 1 < settings.cpSize)
    (hfit : settings.LastChunksFit batch.lengths) {i : ℕ} (hi : i < batch.sequences.length) :
    ChunksFit settings.cpSize (max (batch.sequences.getD i []).length settings.alignSize)
      (settings.seqlenPadded batch.lengths i) := by
  rw [← batch.lengths_getD]
  exact settings.chunksFit hlayout hcp hfit (hi.trans_eq batch.length_lengths.symm)

theorem length_zigzagExtension (hlayout : settings.cpLayout = .zigzag)
    (hcp : 1 < settings.cpSize) (hfit : settings.LastChunksFit batch.lengths) {i : ℕ}
    (hi : i < batch.sequences.length) :
    (zigzagExtension settings zero batch i).length =
      2 * (settings.cpSize * (settings.seqlenPadded batch.lengths i / settings.cpSize / 2)) := by
  have hchunks := chunksFit_getD hlayout hcp hfit hi
  have htwo := hchunks.eq_two_mul
  have hreach := hchunks.reach
  have hlength := max_le_seqlenPadded settings hi
  rw [← length_padToAlign settings.alignSize zero] at hreach hlength
  exact length_extendChunks settings.cpSize_pos (by rwa [← htwo]) hreach

theorem length_zigzagSegment (hlayout : settings.cpLayout = .zigzag)
    (hcp : 1 < settings.cpSize) (hrank : rank < settings.cpSize)
    (hfit : settings.LastChunksFit batch.lengths) {i : ℕ} (hi : i < batch.sequences.length) :
    (zigzagSegment settings rank zero batch i).length =
      settings.seqlenPadded batch.lengths i / settings.cpSize := by
  have hlength := length_zigzagExtension zero hlayout hcp hfit hi
  rw [zigzagSegment, List.length_append, length_firstChunk hrank hlength,
    length_secondChunk hrank hlength, ← Nat.two_mul,
    ← (chunksFit_getD hlayout hcp hfit hi).div_cpSize settings.cpSize_pos]

/-- A sequence of a rank starts at its share of the padded offset. -/
theorem length_flatMap_zigzagSegment (hlayout : settings.cpLayout = .zigzag)
    (hcp : 1 < settings.cpSize) (hrank : rank < settings.cpSize)
    (hbucket : ∀ bucket ∈ settings.padToLengthBucket, 0 < bucket)
    (hfit : settings.LastChunksFit batch.lengths) {i : ℕ} (hi : i ≤ batch.sequences.length) :
    ((List.range i).flatMap (zigzagSegment settings rank zero batch)).length =
      offset (settings.paddedLengths batch.lengths) i / settings.cpSize := by
  have hlength := settings.length_paddedLengths batch.lengths_ne_nil
  rw [batch.length_lengths] at hlength
  apply length_flatMap_range settings.cpSize
    (settings.cpSize_dvd_paddedLengths batch.lengths hbucket) _ (hi.trans_eq hlength.symm)
  intro index hindex
  exact length_zigzagSegment zero hlayout hcp hrank hfit (hindex.trans_eq hlength)

theorem sum_packed :
    (settings.packed batch.lengths).seqlensInBatchPadded.sum =
      settings.paddedTotal batch.lengths :=
  settings.sum_paddedLengths batch.lengths_ne_nil

/-- The rows of a rank in the zigzag layout. -/
theorem writeSequences_zigzag (hlayout : settings.cpLayout = .zigzag)
    (hcp : 1 < settings.cpSize) (hrank : rank < settings.cpSize)
    (hbucket : ∀ bucket ∈ settings.padToLengthBucket, 0 < bucket)
    (hfit : settings.LastChunksFit batch.lengths) :
    writeSequences settings rank zero batch.sequences (settings.packed batch.lengths) =
      .ok ((List.range batch.sequences.length).flatMap
        (zigzagSegment settings rank zero batch)) := by
  have hoffset := fun i (hi : i ≤ batch.sequences.length) =>
    length_flatMap_zigzagSegment zero hlayout hcp hrank hbucket hfit hi
  have hrows : (settings.packed batch.lengths).seqlensInBatchPadded.sum / settings.cpSize =
      ((List.range batch.sequences.length).flatMap
        (zigzagSegment settings rank zero batch)).length := by
    rw [hoffset _ le_rfl, ← batch.length_lengths, offset_length settings batch.lengths_ne_nil,
      sum_packed]
  have hstep : ∀ i < batch.sequences.length, ∀ back,
      writeSequence settings rank zero
        ((List.range i).flatMap (zigzagSegment settings rank zero batch) ++
          (List.replicate (zigzagSegment settings rank zero batch i).length zero ++ back))
        (batch.sequences.getD i [])
        ((settings.packed batch.lengths).seqlensInBatchPadded.getD i 0)
        ((settings.packed batch.lengths).cuSeqlensPadded.getD i 0) =
      .ok ((List.range i).flatMap (zigzagSegment settings rank zero batch) ++
        (zigzagSegment settings rank zero batch i ++ back)) := by
    intro i hi back
    rw [writeSequence, hlayout, length_zigzagSegment zero hlayout hcp hrank hfit hi]
    simp only [if_neg (not_le.mpr hcp)]
    exact writeChunks_eq back hrank (hoffset i hi.le) (max_le_seqlenPadded settings hi)
      (chunksFit_getD hlayout hcp hfit hi)
  have hfill := foldlM_fill (fun rows i => writeSequence settings rank zero rows
    (batch.sequences.getD i [])
    ((settings.packed batch.lengths).seqlensInBatchPadded.getD i 0)
    ((settings.packed batch.lengths).cuSeqlensPadded.getD i 0)) zero hstep []
  rw [List.append_nil, List.append_nil] at hfill
  rw [writeSequences, hrows, hfill]

/-- Without context parallelism the only rank holds the whole buffer. -/
theorem writeSequences_plain (hlayout : settings.cpLayout = .zigzag)
    (hcp : settings.cpSize = 1) :
    writeSequences settings rank zero batch.sequences (settings.packed batch.lengths) =
      .ok (paddedBuffer settings zero batch) := by
  rw [writeSequences, sum_packed, hcp, Nat.div_one, ← partialBuffer_zero,
    ← partialBuffer_length]
  apply foldlM_range (partialBuffer settings zero batch)
  intro i hi
  have hpadded := length_le_seqlenPadded settings hi
  have hnext := offset_le_paddedTotal settings (i := i + 1) hi
  rw [offset_seqlenPadded settings hi] at hnext
  rw [writeSequence, hlayout]
  simp only [if_pos hcp.le]
  rw [cuSeqlensPadded_getD, assignSlice_eq_ok (Nat.add_sub_cancel_left ..).symm
    (by rw [length_partialBuffer settings zero hi.le]; omega),
    overwrite_partialBuffer settings zero hi]

/-- The interval of a rank follows what is written to the whole buffer. -/
theorem copyInterval_slice {buffer tokens : List α} {width start : ℕ}
    (hwindow : width * rank + width ≤ buffer.length)
    (hfits : start + tokens.length ≤ buffer.length) :
    copyInterval rank (slice (width * rank) (width * rank + width) buffer) tokens start =
      .ok (slice (width * rank) (width * rank + width) (overwrite buffer start tokens)) := by
  have hwidth : (slice (width * rank) (width * rank + width) buffer).length = width := by
    rw [length_slice hwindow, Nat.add_sub_cancel_left]
  rw [copyInterval, hwidth]
  split
  next hempty =>
    refine congrArg _ (List.ext_getElem? fun index => ?_)
    rw [getElem?_slice, getElem?_slice, getElem?_overwrite hfits]
    split
    next => rw [if_neg (by omega)]
    next => rfl
  next hoverlap =>
    have hsource : (slice (max (width * rank) start - start)
        (min (width * rank + width) (start + tokens.length) - start) tokens).length =
        min (width * rank + width) (start + tokens.length) - width * rank -
          (max (width * rank) start - width * rank) := by
      rw [length_slice (by omega)]
      omega
    rw [assignSlice_eq_ok hsource (by rw [hwidth]; omega)]
    refine congrArg _ (List.ext_getElem? fun index => ?_)
    rw [getElem?_overwrite (by rw [hsource, hwidth]; omega), getElem?_slice, getElem?_slice,
      getElem?_slice, getElem?_overwrite hfits, hsource]
    have hindex : max (width * rank) start - start +
        (index - (max (width * rank) start - width * rank)) =
          width * rank + index - start ∨ index < max (width * rank) start - width * rank := by
      omega
    grind

/-- In the contiguous layout a rank holds its interval of the whole buffer. -/
theorem writeSequences_contiguous (hlayout : settings.cpLayout = .contiguous)
    (hrank : rank < settings.cpSize)
    (hbucket : ∀ bucket ∈ settings.padToLengthBucket, 0 < bucket) :
    writeSequences settings rank zero batch.sequences (settings.packed batch.lengths) =
      .ok (slice (settings.paddedTotal batch.lengths / settings.cpSize * rank)
        (settings.paddedTotal batch.lengths / settings.cpSize * rank +
          settings.paddedTotal batch.lengths / settings.cpSize)
        (paddedBuffer settings zero batch)) := by
  obtain ⟨width, htotal⟩ := settings.cpSize_dvd_paddedTotal batch.lengths hbucket
  have hdiv : settings.paddedTotal batch.lengths / settings.cpSize = width := by
    rw [htotal, Nat.mul_div_cancel_left _ settings.cpSize_pos]
  have hwindow : width * rank + width ≤ settings.paddedTotal batch.lengths := by
    rw [htotal, ← Nat.mul_succ, Nat.mul_comm]
    exact Nat.mul_le_mul_right width hrank
  have hstart : List.replicate width zero =
      slice (width * rank) (width * rank + width) (partialBuffer settings zero batch 0) := by
    rw [partialBuffer_zero, slice_replicate, Nat.min_eq_left hwindow, Nat.add_sub_cancel_left]
  rw [writeSequences, sum_packed, hdiv, hstart, ← partialBuffer_length]
  apply foldlM_range fun i =>
    slice (width * rank) (width * rank + width) (partialBuffer settings zero batch i)
  intro i hi
  have hpadded := length_le_seqlenPadded settings hi
  have hnext := offset_le_paddedTotal settings (i := i + 1) hi
  rw [offset_seqlenPadded settings hi] at hnext
  rw [writeSequence, hlayout]
  simp only
  rw [cuSeqlensPadded_getD, copyInterval_slice
    (by rwa [length_partialBuffer settings zero hi.le])
    (by rw [length_partialBuffer settings zero hi.le]; omega),
    overwrite_partialBuffer settings zero hi]

end Rows

/-- The rows that the ranks hold when nothing raises. -/
def rankRows (settings : ThdSettings) (zero : α) (batch : Batch α) (rank : ℕ) : List α :=
  if settings.cpLayout = .zigzag ∧ 1 < settings.cpSize then
    (List.range batch.sequences.length).flatMap (zigzagSegment settings rank zero batch)
  else
    slice (settings.paddedTotal batch.lengths / settings.cpSize * rank)
      (settings.paddedTotal batch.lengths / settings.cpSize * rank +
        settings.paddedTotal batch.lengths / settings.cpSize)
      (paddedBuffer settings zero batch)

def packedParams (settings : ThdSettings) (lengths : List ℕ) : PackedSeqParams :=
  { cuSeqlensPadded := offsets (settings.paddedLengths lengths)
    maxSeqlen := (settings.paddedLengths lengths).foldl max 0
    cpPartitionMode :=
      if settings.hasCpPartitionMode then some settings.cpLayout else none }

/-- A contiguous split among several ranks can be passed on to the kernels. -/
def ThdSettings.LayoutSupported (settings : ThdSettings) : Prop :=
  settings.cpLayout = .contiguous → 1 < settings.cpSize → settings.hasCpPartitionMode = true

section Packing

variable {settings : ThdSettings} {batch : Batch α} {rank : ℕ} (zero : α)
  (hbucket : ∀ bucket ∈ settings.padToLengthBucket, 0 < bucket)
  (hfit : settings.LastChunksFit batch.lengths)

include hbucket in
theorem packLengths_lengths :
    settings.packLengths batch.lengths = .ok (settings.packed batch.lengths) :=
  settings.packLengths_eq batch.lengths_ne_nil hbucket

include hbucket hfit

theorem writeSequences_eq (hrank : rank < settings.cpSize) :
    writeSequences settings rank zero batch.sequences (settings.packed batch.lengths) =
      .ok (rankRows settings zero batch rank) := by
  rw [rankRows]
  split
  next hzigzag => exact writeSequences_zigzag zero hzigzag.1 hzigzag.2 hrank hbucket hfit
  next hplain =>
    cases hlayout : settings.cpLayout with
    | contiguous => exact writeSequences_contiguous zero hlayout hrank hbucket
    | zigzag =>
        have hcp : settings.cpSize = 1 :=
          (not_lt.mp fun hlt => hplain ⟨hlayout, hlt⟩).antisymm settings.cpSize_pos
        obtain rfl : rank = 0 := by omega
        rw [writeSequences_plain zero hlayout hcp, hcp, Nat.div_one, Nat.mul_zero, Nat.zero_add,
          ← length_paddedBuffer settings zero, slice_zero, List.take_length]

/-- No rank raises. -/
theorem preprocessThdEngine_eq (hsupported : settings.LayoutSupported)
    (hrank : rank < settings.cpSize) :
    preprocessThdEngine settings rank zero batch.sequences =
      .ok { rows := rankRows settings zero batch rank
            params := packedParams settings batch.lengths } := by
  have hmode : ¬ (settings.hasCpPartitionMode = false ∧ settings.cpLayout ≠ .zigzag ∧
      1 < settings.cpSize) := by
    rintro ⟨hmissing, hlayout, hcp⟩
    cases hcase : settings.cpLayout with
    | zigzag => exact hlayout hcase
    | contiguous => simp [hsupported hcase hcp] at hmissing
  rw [preprocessThdEngine]
  apply bind_eq_ok.mpr
  refine ⟨_, packLengths_lengths hbucket, ?_⟩
  apply bind_eq_ok.mpr
  refine ⟨_, writeSequences_eq zero hbucket hfit hrank, ?_⟩
  exact raiseIf_bind_eq_ok.mpr ⟨hmode, rfl⟩

omit hbucket hfit in
theorem rankRows_zigzag (hlayout : settings.cpLayout = .zigzag) (hcp : 1 < settings.cpSize) :
    rankRows settings zero batch rank =
      (List.range batch.sequences.length).flatMap (zigzagSegment settings rank zero batch) :=
  if_pos ⟨hlayout, hcp⟩

/-- All ranks have the same number of rows. -/
theorem length_rankRows (hrank : rank < settings.cpSize) :
    (rankRows settings zero batch rank).length =
      settings.paddedTotal batch.lengths / settings.cpSize := by
  rw [rankRows]
  split
  next hzigzag =>
    rw [length_flatMap_zigzagSegment zero hzigzag.1 hzigzag.2 hrank hbucket hfit le_rfl,
      ← batch.length_lengths, offset_length settings batch.lengths_ne_nil]
  next =>
    have hwindow : settings.paddedTotal batch.lengths / settings.cpSize * rank +
        settings.paddedTotal batch.lengths / settings.cpSize ≤
          settings.paddedTotal batch.lengths := by
      calc settings.paddedTotal batch.lengths / settings.cpSize * rank +
            settings.paddedTotal batch.lengths / settings.cpSize
          = settings.paddedTotal batch.lengths / settings.cpSize * (rank + 1) := rfl
        _ ≤ settings.paddedTotal batch.lengths / settings.cpSize * settings.cpSize :=
            Nat.mul_le_mul_left _ hrank
        _ ≤ settings.paddedTotal batch.lengths := Nat.div_mul_le_self _ _
    rw [length_slice (by rwa [length_paddedBuffer]), Nat.add_sub_cancel_left]

end Packing

section Unpacking

variable {settings : ThdSettings} {batch : Batch α} (zero : α)
  (hbucket : ∀ bucket ∈ settings.padToLengthBucket, 0 < bucket)

/-- A sequence is found at its offset in the padded buffer. -/
theorem slice_paddedBuffer {i : ℕ} (hi : i < batch.sequences.length) :
    slice (offset (settings.paddedLengths batch.lengths) i)
        (offset (settings.paddedLengths batch.lengths) i +
          (batch.sequences.getD i []).length) (paddedBuffer settings zero batch) =
      batch.sequences.getD i [] := by
  obtain ⟨back, hsplit⟩ := flatMap_range_split (plainSegment settings zero batch) hi
  rw [paddedBuffer, hsplit, ← length_flatMap_plainSegment settings zero hi.le, plainSegment,
    List.append_assoc, slice_middle]

include hbucket in
/-- The intervals of the ranks make up the padded buffer. -/
theorem flatten_rankRows (hplain : ¬ (settings.cpLayout = .zigzag ∧ 1 < settings.cpSize)) :
    ((List.range settings.cpSize).map (rankRows settings zero batch)).flatten =
      paddedBuffer settings zero batch := by
  obtain ⟨width, htotal⟩ := settings.cpSize_dvd_paddedTotal batch.lengths hbucket
  have hdiv : settings.paddedTotal batch.lengths / settings.cpSize = width := by
    rw [htotal, Nat.mul_div_cancel_left _ settings.cpSize_pos]
  have hrows : rankRows settings zero batch = fun rank =>
      ((paddedBuffer settings zero batch).drop (rank * width)).take width := by
    funext rank
    rw [rankRows, if_neg hplain, hdiv, slice, List.drop_take, Nat.add_sub_cancel_left,
      Nat.mul_comm width]
  rw [← List.flatMap_def, hrows, flatMap_slices, ← htotal,
    ← length_paddedBuffer settings zero, List.take_length]

include hbucket in
/-- A sequence is put together from its chunks on all ranks. -/
theorem gatherSequence_eq (hlayout : settings.cpLayout = .zigzag) (hcp : 1 < settings.cpSize)
    (hfit : settings.LastChunksFit batch.lengths) (garbage : ℕ → α)
    {i : ℕ} (hi : i < batch.sequences.length) :
    gatherSequence false settings.cpSize
        ((List.range settings.cpSize).map (rankRows settings zero batch)) garbage
        (offset (settings.paddedLengths batch.lengths) i)
        (offset (settings.paddedLengths batch.lengths) (i + 1))
        (batch.sequences.getD i []).length =
      .ok (batch.sequences.getD i []) := by
  have hchunks := chunksFit_getD hlayout hcp hfit hi
  have hlength := length_zigzagExtension zero hlayout hcp hfit hi
  have hend : offset (settings.paddedLengths batch.lengths) (i + 1) -
      offset (settings.paddedLengths batch.lengths) i =
        settings.seqlenPadded batch.lengths i := by
    rw [offset_seqlenPadded settings hi, Nat.add_sub_cancel_left]
  have htake : (zigzagExtension settings zero batch i).take
      (batch.sequences.getD i []).length = batch.sequences.getD i [] := by
    rw [zigzagExtension, take_extendChunks _ (by
      rw [length_padToAlign]
      exact le_max_left _ _), padToAlign_eq, List.take_left]
  have hshare := hchunks.eq_two_mul
  rw [gatherSequence_chunks false garbage _ settings.cpSize_pos (hend.trans hshare) hlength,
    htake]
  intro rank hrank
  obtain ⟨back, hsplit⟩ := flatMap_range_split (zigzagSegment settings rank zero batch) hi
  refine ⟨_, back, ?_,
    length_flatMap_zigzagSegment zero hlayout hcp hrank hbucket hfit hi.le⟩
  rw [List.getD_eq_getElem _ _ (by simpa using hrank), List.getElem_map, List.getElem_range,
    rankRows_zigzag zero hlayout hcp, hsplit]
  rfl

include hbucket in
/-- Every sequence is cut out of the gathered rows as it was. -/
theorem unpackSequence_eq (hfit : settings.LastChunksFit batch.lengths) (garbage : ℕ → α)
    {i : ℕ} (hi : i < batch.sequences.length) :
    unpackSequence settings (packedParams settings batch.lengths)
        ((List.range settings.cpSize).map (rankRows settings zero batch)) garbage
        batch.lengths i =
      .ok (batch.sequences.getD i []) := by
  have hstart : ∀ i, (packedParams settings batch.lengths).cuSeqlensPadded.getD i 0 =
      offset (settings.paddedLengths batch.lengths) i := fun _ => rfl
  rw [unpackSequence, hstart, hstart, batch.lengths_getD]
  cases hlayout : settings.cpLayout with
  | contiguous =>
      simp only
      rw [flatten_rankRows zero hbucket (by simp [hlayout]), slice_paddedBuffer zero hi]
  | zigzag =>
      simp only
      split
      next hone =>
        have hcp : settings.cpSize = 1 := hone.antisymm settings.cpSize_pos
        have hflatten : ((List.range settings.cpSize).map
            (rankRows settings zero batch)).flatten = paddedBuffer settings zero batch :=
          flatten_rankRows zero hbucket fun hzigzag => absurd hzigzag.2 (not_lt.mpr hone)
        rw [hcp] at hflatten ⊢
        rw [List.range_one, List.map_singleton, List.flatten_singleton] at hflatten
        rw [List.range_one, List.map_singleton, hflatten]
        exact congrArg _ (slice_paddedBuffer zero hi)
      next hcp => exact gatherSequence_eq zero hbucket hlayout (not_le.mp hcp) hfit garbage hi

include hbucket in
theorem postprocessThdEngine_eq (hfit : settings.LastChunksFit batch.lengths)
    (garbage : ℕ → α) :
    postprocessThdEngine settings (packedParams settings batch.lengths) batch.lengths
        ((List.range settings.cpSize).map (rankRows settings zero batch)) garbage =
      .ok batch.sequences := by
  have hsequences : (List.range batch.lengths.length).map
      (fun i => batch.sequences.getD i []) = batch.sequences := by
    apply List.ext_getElem
    · simp
    · intro i hleft hright
      simp [hright]
  rw [postprocessThdEngine, mapM_eq_ok_map, hsequences]
  intro i hi
  rw [List.mem_range, batch.length_lengths] at hi
  exact unpackSequence_eq zero hbucket hfit garbage hi

end Unpacking

end OneShotOPD.Mcore
