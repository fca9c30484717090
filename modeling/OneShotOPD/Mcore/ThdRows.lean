import OneShotOPD.Mcore.ThdChunks

/-!
# The rows of a rank

The rows that the packing loop leaves on a rank: the chunks of all sequences in
the zigzag layout, and an interval of the padded buffer in the contiguous one.
-/

namespace OneShotOPD.Mcore

open Segments SliceAssign Zigzag Checks

variable {α : Type}

namespace ThdSettings

variable (settings : ThdSettings)

def seqlenPadded (lengths : List ℕ) (i : ℕ) : ℕ :=
  (settings.paddedLengths lengths).getD i 0

variable {settings} {lengths : List ℕ} {i : ℕ}

theorem length_paddedLengths (hlengths : lengths ≠ []) :
    (settings.paddedLengths lengths).length = lengths.length := by
  have hpos := List.length_pos_iff.mpr hlengths
  rw [paddedLengths, List.length_append, List.length_map, List.length_dropLast,
    List.length_singleton]
  omega

theorem seqlenPadded_of_lt (hi : i + 1 < lengths.length) :
    settings.seqlenPadded lengths i = roundUp settings.alignSize (lengths.getD i 0) := by
  have hdrop : i < lengths.dropLast.length := by
    rw [List.length_dropLast]
    omega
  rw [seqlenPadded, paddedLengths, List.getD_append _ _ _ _ (by rwa [List.length_map]),
    List.getD_eq_getElem _ _ (by rwa [List.length_map]), List.getElem_map,
    List.getElem_dropLast, List.getD_eq_getElem]

theorem seqlenPadded_last (hi : i + 1 = lengths.length) :
    settings.seqlenPadded lengths i = settings.paddedLast lengths := by
  have hdrop : i = (lengths.dropLast.map (roundUp settings.alignSize)).length := by
    rw [List.length_map, List.length_dropLast]
    omega
  rw [seqlenPadded, paddedLengths, List.getD_append_right _ _ _ _ hdrop.ge, ← hdrop,
    Nat.sub_self]
  rfl

/-- The total leaves the last sequence its own padding. -/
theorem sum_dropLast_le (settings : ThdSettings) (hlengths : lengths ≠ []) :
    (lengths.dropLast.map (roundUp settings.alignSize)).sum +
      roundUp settings.alignSize (lengths.getLast hlengths) ≤
        settings.paddedTotal lengths := by
  have hsum := settings.le_paddedTotal lengths
  rwa [← List.dropLast_append_getLast hlengths, List.map_append, List.sum_append,
    List.map_singleton, List.sum_singleton, List.dropLast_append_getLast hlengths] at hsum

theorem sum_paddedLengths (hlengths : lengths ≠ []) :
    (settings.paddedLengths lengths).sum = settings.paddedTotal lengths := by
  have hle := sum_dropLast_le settings hlengths
  rw [paddedLengths, List.sum_append, List.sum_singleton, paddedLast]
  omega

theorem roundUp_le_seqlenPadded (settings : ThdSettings) (hi : i < lengths.length) :
    roundUp settings.alignSize (lengths.getD i 0) ≤ settings.seqlenPadded lengths i := by
  rcases Nat.lt_or_eq_of_le (Nat.succ_le_of_lt hi) with hlt | hlast
  · exact (seqlenPadded_of_lt hlt).ge
  · have hlengths : lengths ≠ [] := List.ne_nil_of_length_pos (Nat.zero_lt_of_lt hi)
    have hle := sum_dropLast_le settings hlengths
    have hindex : lengths.length - 1 = i := by omega
    rw [List.getLast_eq_getElem] at hle
    simp only [hindex] at hle
    rw [seqlenPadded_last hlast, paddedLast, List.getD_eq_getElem _ _ hi]
    omega

theorem cpSize_dvd_paddedLengths (lengths : List ℕ)
    (hbucket : ∀ bucket ∈ settings.padToLengthBucket, 0 < bucket) :
    ∀ length ∈ settings.paddedLengths lengths, settings.cpSize ∣ length := by
  intro length hlength
  rcases List.mem_append.mp hlength with hmem | hmem
  · obtain ⟨source, -, rfl⟩ := List.mem_map.mp hmem
    exact settings.cpSize_dvd_alignSize.trans (dvd_roundUp settings.alignSize_pos source)
  · rw [List.mem_singleton.mp hmem]
    exact Nat.dvd_sub (settings.cpSize_dvd_paddedTotal lengths hbucket)
      (settings.cpSize_dvd_sum lengths.dropLast)

def packed (settings : ThdSettings) (lengths : List ℕ) : PackedLengths :=
  { seqlensInBatchPadded := settings.paddedLengths lengths
    cuSeqlensPadded := offsets (settings.paddedLengths lengths) }

/-- The chunks of the last sequence stay within its tokens. -/
def LastChunksFit (settings : ThdSettings) (lengths : List ℕ) : Prop :=
  settings.cpLayout = .zigzag → 1 < settings.cpSize →
    ChunksFit settings.cpSize (max (lengths.getLastD 0) settings.alignSize)
      (settings.paddedLast lengths)

instance (settings : ThdSettings) (lengths : List ℕ) :
    Decidable (settings.LastChunksFit lengths) :=
  inferInstanceAs (Decidable (_ → _ → _))

/-- A sequence that is only padded to the alignment is cut evenly. -/
theorem chunksFit_of_lt (hlayout : settings.cpLayout = .zigzag) (hcp : 1 < settings.cpSize)
    (hi : i + 1 < lengths.length) :
    ChunksFit settings.cpSize (max (lengths.getD i 0) settings.alignSize)
      (settings.seqlenPadded lengths i) := by
  have hlt := roundUp_lt settings.alignSize_pos (lengths.getD i 0)
  rw [seqlenPadded_of_lt hi]
  constructor
  · exact (settings.two_mul_cpSize_dvd_alignSize hlayout hcp).trans
      (dvd_roundUp settings.alignSize_pos _)
  · left
    omega

theorem chunksFit (hlayout : settings.cpLayout = .zigzag) (hcp : 1 < settings.cpSize)
    (hfit : settings.LastChunksFit lengths) (hi : i < lengths.length) :
    ChunksFit settings.cpSize (max (lengths.getD i 0) settings.alignSize)
      (settings.seqlenPadded lengths i) := by
  rcases Nat.lt_or_eq_of_le (Nat.succ_le_of_lt hi) with hlt | hlast
  · exact chunksFit_of_lt hlayout hcp hlt
  · have hlengths : lengths ≠ [] := List.ne_nil_of_length_pos (Nat.zero_lt_of_lt hi)
    have hgetLast : lengths.getLastD 0 = lengths.getD i 0 := by
      have hindex : lengths.length - 1 = i := by omega
      rw [List.getLastD_eq_getLast?, List.getLast?_eq_getElem?, hindex,
        List.getD_eq_getElem?_getD]
    rw [seqlenPadded_last hlast, ← hgetLast]
    exact hfit hlayout hcp

end ThdSettings

/-- The sequences of a batch, none of them empty. -/
structure Batch (α : Type) where
  sequences : List (List α)
  nonempty : sequences ≠ []
  length_pos : ∀ tokens ∈ sequences, 0 < tokens.length

namespace Batch

def lengths (batch : Batch α) : List ℕ := batch.sequences.map List.length

variable (batch : Batch α) {i : ℕ}

@[simp]
theorem length_lengths : batch.lengths.length = batch.sequences.length := List.length_map ..

theorem lengths_ne_nil : batch.lengths ≠ [] := by
  simpa [lengths] using batch.nonempty

theorem lengths_getD : batch.lengths.getD i 0 = (batch.sequences.getD i []).length := by
  rw [lengths, List.getD_eq_getElem?_getD, List.getD_eq_getElem?_getD, List.getElem?_map]
  cases batch.sequences[i]? <;> rfl

theorem length_getD_pos (hi : i < batch.sequences.length) :
    0 < (batch.sequences.getD i []).length := by
  rw [List.getD_eq_getElem _ _ hi]
  exact batch.length_pos _ (List.getElem_mem hi)

end Batch

/-- The extension of a sequence that the ranks share. -/
def zigzagExtension (settings : ThdSettings) (zero : α) (batch : Batch α) (i : ℕ) : List α :=
  extendChunks (settings.seqlenPadded batch.lengths i / settings.cpSize / 2) settings.cpSize
    zero (padToAlign settings.alignSize zero (batch.sequences.getD i []))

/-- What a rank holds of a sequence in the zigzag layout. -/
def zigzagSegment (settings : ThdSettings) (rank : ℕ) (zero : α) (batch : Batch α)
    (i : ℕ) : List α :=
  firstChunk (settings.seqlenPadded batch.lengths i / settings.cpSize / 2) rank
      (zigzagExtension settings zero batch i) ++
    secondChunk (settings.seqlenPadded batch.lengths i / settings.cpSize / 2) rank
      (zigzagExtension settings zero batch i)

/-- A sequence with its padding. -/
def plainSegment (settings : ThdSettings) (zero : α) (batch : Batch α) (i : ℕ) : List α :=
  batch.sequences.getD i [] ++ List.replicate
    (settings.seqlenPadded batch.lengths i - (batch.sequences.getD i []).length) zero

def paddedBuffer (settings : ThdSettings) (zero : α) (batch : Batch α) : List α :=
  (List.range batch.sequences.length).flatMap (plainSegment settings zero batch)

section

variable (settings : ThdSettings) {lengths : List ℕ} (zero : α) {batch : Batch α} {rank i : ℕ}

theorem max_le_seqlenPadded (hi : i < batch.sequences.length) :
    max (batch.sequences.getD i []).length settings.alignSize ≤
      settings.seqlenPadded batch.lengths i := by
  have hround := settings.roundUp_le_seqlenPadded
    (hi.trans_eq batch.length_lengths.symm)
  rw [batch.lengths_getD] at hround
  exact max_le ((le_roundUp _ _).trans hround)
    ((le_roundUp_of_pos settings.alignSize_pos (batch.length_getD_pos hi)).trans hround)

theorem length_le_seqlenPadded (hi : i < batch.sequences.length) :
    (batch.sequences.getD i []).length ≤ settings.seqlenPadded batch.lengths i :=
  (le_max_left _ _).trans (max_le_seqlenPadded settings hi)

theorem length_plainSegment (hi : i < batch.sequences.length) :
    (plainSegment settings zero batch i).length = settings.seqlenPadded batch.lengths i := by
  rw [plainSegment, List.length_append, List.length_replicate,
    Nat.add_sub_cancel' (length_le_seqlenPadded settings hi)]

/-- A sequence of the padded buffer starts where `cu_seqlens_padded` says. -/
theorem length_flatMap_plainSegment (hi : i ≤ batch.sequences.length) :
    ((List.range i).flatMap (plainSegment settings zero batch)).length =
      offset (settings.paddedLengths batch.lengths) i := by
  have hlength := settings.length_paddedLengths batch.lengths_ne_nil
  rw [batch.length_lengths] at hlength
  rw [length_flatMap_range 1 (fun _ _ => one_dvd _) _ (hi.trans_eq hlength.symm),
    Nat.div_one]
  intro index hindex
  rw [length_plainSegment settings zero (hindex.trans_eq hlength), Nat.div_one,
    ThdSettings.seqlenPadded]

theorem offset_length (hlengths : lengths ≠ []) :
    offset (settings.paddedLengths lengths) lengths.length = settings.paddedTotal lengths := by
  have hlength := settings.length_paddedLengths hlengths
  rw [offset_eq hlength.ge, ← hlength, List.take_length, settings.sum_paddedLengths hlengths]

theorem length_paddedBuffer :
    (paddedBuffer settings zero batch).length = settings.paddedTotal batch.lengths := by
  rw [paddedBuffer, length_flatMap_plainSegment settings zero le_rfl, ← batch.length_lengths,
    offset_length settings batch.lengths_ne_nil]

/-- The padded buffer after some of the sequences. -/
def partialBuffer (settings : ThdSettings) (zero : α) (batch : Batch α) (i : ℕ) : List α :=
  (List.range i).flatMap (plainSegment settings zero batch) ++
    List.replicate (settings.paddedTotal batch.lengths -
      offset (settings.paddedLengths batch.lengths) i) zero

theorem offset_le_paddedTotal (hi : i ≤ batch.sequences.length) :
    offset (settings.paddedLengths batch.lengths) i ≤ settings.paddedTotal batch.lengths := by
  have hlength := settings.length_paddedLengths batch.lengths_ne_nil
  rw [batch.length_lengths] at hlength
  rw [offset_eq (hi.trans_eq hlength.symm), ← settings.sum_paddedLengths batch.lengths_ne_nil,
    ← List.sum_take_add_sum_drop (settings.paddedLengths batch.lengths) i]
  exact Nat.le_add_right _ _

theorem length_partialBuffer (hi : i ≤ batch.sequences.length) :
    (partialBuffer settings zero batch i).length = settings.paddedTotal batch.lengths := by
  rw [partialBuffer, List.length_append, List.length_replicate,
    length_flatMap_plainSegment settings zero hi,
    Nat.add_sub_cancel' (offset_le_paddedTotal settings hi)]

theorem offset_seqlenPadded (hi : i < batch.sequences.length) :
    offset (settings.paddedLengths batch.lengths) (i + 1) =
      offset (settings.paddedLengths batch.lengths) i +
        settings.seqlenPadded batch.lengths i := by
  have hlength := settings.length_paddedLengths batch.lengths_ne_nil
  rw [batch.length_lengths] at hlength
  exact offset_succ (hi.trans_eq hlength.symm)

/-- Writing the next sequence over the zeros of the buffer. -/
theorem overwrite_partialBuffer (hi : i < batch.sequences.length) :
    overwrite (partialBuffer settings zero batch i)
        (offset (settings.paddedLengths batch.lengths) i) (batch.sequences.getD i []) =
      partialBuffer settings zero batch (i + 1) := by
  have hoffset := offset_seqlenPadded settings hi
  have htotal := offset_le_paddedTotal settings (i := i + 1) hi
  have hpadded := length_le_seqlenPadded settings hi
  have hslot : (List.replicate (settings.paddedTotal batch.lengths -
        offset (settings.paddedLengths batch.lengths) i) zero : List α) =
      List.replicate (batch.sequences.getD i []).length zero ++
        (List.replicate (settings.seqlenPadded batch.lengths i -
            (batch.sequences.getD i []).length) zero ++
          List.replicate (settings.paddedTotal batch.lengths -
            offset (settings.paddedLengths batch.lengths) (i + 1)) zero) := by
    rw [← List.replicate_add, ← List.replicate_add]
    congr 1
    omega
  rw [partialBuffer, hslot, ← length_flatMap_plainSegment settings zero hi.le,
    overwrite_middle (by rw [List.length_replicate]), partialBuffer, List.range_succ,
    List.flatMap_append, List.flatMap_singleton, plainSegment]
  simp only [List.append_assoc]

end

end OneShotOPD.Mcore
