import OneShotOPD.Mcore.ThdPacking

/-!
# Chunks of a padded sequence

Also a last sequence whose rows are odd in number is cut into chunks, which then
leave one row of each rank without a token.  What a rank writes are the chunks of
the sequence with zeros behind it, when it finds those from the front.
-/

namespace OneShotOPD.Mcore

open Segments SliceAssign Checks

variable {α : Type}

/-- The chunks of a padded sequence that a rank receives, with the row that is
left over when its rows are odd in number. -/
def paddedChunks (cpSize rank : ℕ) (zero : α) (tokens : List α) (seqlenPadded : ℕ) : List α :=
  let half := seqlenPadded / cpSize / 2
  let items := tokens ++ List.replicate (seqlenPadded - tokens.length) zero
  slice (rank * half) ((rank + 1) * half) items ++
    (slice (seqlenPadded - (rank + 1) * half) (seqlenPadded - rank * half) items ++
      List.replicate (seqlenPadded / cpSize - 2 * half) zero)

/-- The chunks from the front are found in the available tokens, or the last of
them is one row of padding that is copied. -/
def FrontFits (cpSize alignSize length seqlenPadded : ℕ) : Prop :=
  cpSize * (seqlenPadded / cpSize / 2) ≤ max length alignSize ∨
    length < alignSize ∧ alignSize = (cpSize - 1) * (seqlenPadded / cpSize / 2) + 1

instance (cpSize alignSize length seqlenPadded : ℕ) :
    Decidable (FrontFits cpSize alignSize length seqlenPadded) :=
  inferInstanceAs (Decidable (_ ∨ _))

theorem length_paddedChunks {cpSize rank : ℕ} (zero : α) {tokens : List α} {seqlenPadded : ℕ}
    (hrank : rank < cpSize) (hlength : tokens.length ≤ seqlenPadded) :
    (paddedChunks cpSize rank zero tokens seqlenPadded).length = seqlenPadded / cpSize := by
  have hitems : (tokens ++ List.replicate (seqlenPadded - tokens.length) zero).length =
      seqlenPadded := by
    rw [List.length_append, List.length_replicate, Nat.add_sub_cancel' hlength]
  have hchunk : 2 * (seqlenPadded / cpSize / 2) ≤ seqlenPadded / cpSize := Nat.mul_div_le _ _
  have hall : cpSize * (seqlenPadded / cpSize) ≤ seqlenPadded := Nat.mul_div_le _ _
  rw [paddedChunks]
  generalize seqlenPadded / cpSize = chunk at hchunk hall ⊢
  generalize chunk / 2 = half at hchunk ⊢
  have hreach : (rank + 1) * half ≤ cpSize * half := Nat.mul_le_mul_right half hrank
  have htwo : cpSize * half ≤ cpSize * chunk := Nat.mul_le_mul_left _ (by omega)
  have hstep : (rank + 1) * half = rank * half + half := Nat.succ_mul rank half
  simp only [List.length_append, List.length_replicate]
  rw [length_slice (by rw [hitems]; omega), length_slice (by rw [hitems]; omega)]
  omega

/-- The chunk from the front is what is written of the available tokens. -/
theorem assignSlice_front {cpSize rank half alignSize seqlenPadded : ℕ} (zero : α) {tokens : List α}
    (front back : List α) (hrank : rank < cpSize)
    (hlength : max tokens.length alignSize ≤ seqlenPadded)
    (hreach : cpSize * half ≤ seqlenPadded)
    (hfit : cpSize * half ≤ max tokens.length alignSize ∨
      tokens.length < alignSize ∧ alignSize = (cpSize - 1) * half + 1) :
    assignSlice (front ++ (List.replicate half zero ++ back)) front.length (front.length + half)
        (slice (half * rank) (half * (rank + 1)) (padToAlign alignSize zero tokens)) =
      .ok (front ++ (slice (rank * half) ((rank + 1) * half)
        (tokens ++ List.replicate (seqlenPadded - tokens.length) zero) ++ back)) := by
  have hstep : (rank + 1) * half = rank * half + half := Nat.succ_mul rank half
  have hcommLow : half * rank = rank * half := Nat.mul_comm _ _
  have hcommHigh : half * (rank + 1) = (rank + 1) * half := Nat.mul_comm _ _
  have hslot : (List.replicate half zero).length = half := List.length_replicate
  have hmul : cpSize * half = (cpSize - 1) * half + half := by
    rw [← Nat.succ_mul, Nat.succ_eq_add_one, Nat.sub_add_cancel (Nat.zero_lt_of_lt hrank)]
  have hd := length_padToAlign alignSize zero tokens
  have hitems : tokens ++ List.replicate (seqlenPadded - tokens.length) zero =
      padToAlign alignSize zero tokens ++
        List.replicate (seqlenPadded - max tokens.length alignSize) zero := by
    rw [padToAlign_eq, List.append_assoc, ← List.replicate_add]
    congr 2
    omega
  rw [hcommLow, hcommHigh]
  by_cases hinside : (rank + 1) * half ≤ max tokens.length alignSize
  · have hsame : slice (rank * half) ((rank + 1) * half)
        (tokens ++ List.replicate (seqlenPadded - tokens.length) zero) =
          slice (rank * half) ((rank + 1) * half) (padToAlign alignSize zero tokens) := by
      rw [hitems, slice, slice, List.take_append_of_le_length (by omega)]
    have hassign := @assignSlice_middle _ front back (List.replicate half zero)
      (slice (rank * half) ((rank + 1) * half) (padToAlign alignSize zero tokens))
      (by rw [length_slice (by omega), hslot]; omega)
    rw [hslot] at hassign
    rw [hsame, hassign]
  · -- only the last rank is left, with one row of padding
    have hlast : rank = cpSize - 1 := by
      by_contra hne
      have hless : (rank + 1) * half ≤ (cpSize - 1) * half :=
        Nat.mul_le_mul_right half (by omega)
      omega
    have hall : (rank + 1) * half = cpSize * half := by
      rw [hlast, Nat.sub_add_cancel (Nat.zero_lt_of_lt hrank)]
    obtain ⟨hshort, halign⟩ := hfit.resolve_left (by rwa [hall] at hinside)
    have hlow : rank * half = (cpSize - 1) * half := by rw [hlast]
    have hsource : slice (rank * half) ((rank + 1) * half) (padToAlign alignSize zero tokens) =
        [zero] := by
      have hcount : min ((rank + 1) * half - tokens.length) (alignSize - tokens.length) -
          (rank * half - tokens.length) = 1 := by omega
      rw [padToAlign_eq, slice_append, slice_of_length_le (by omega), slice_replicate, hcount]
      rfl
    have htarget : slice (rank * half) ((rank + 1) * half)
        (tokens ++ List.replicate (seqlenPadded - tokens.length) zero) =
          List.replicate half zero := by
      rw [slice_append, slice_of_length_le (by omega), slice_replicate, List.nil_append]
      congr 1
      omega
    have hassign := assignSlice_middle_singleton front (List.replicate half zero) back zero
    rw [hslot] at hassign
    rw [hsource, htarget, hassign]

/-- A rank writes the chunks of the padded sequence. -/
theorem writeChunks_padded {cpSize rank alignSize seqlenPadded seqStart : ℕ} (zero : α)
    {tokens front : List α} (back : List α) (hrank : rank < cpSize)
    (hfront : front.length = seqStart / cpSize)
    (hlength : max tokens.length alignSize ≤ seqlenPadded)
    (hfit : FrontFits cpSize alignSize tokens.length seqlenPadded) :
    writeChunks cpSize rank alignSize zero
        (front ++ (List.replicate (seqlenPadded / cpSize) zero ++ back)) tokens seqlenPadded
        seqStart =
      .ok (front ++ (paddedChunks cpSize rank zero tokens seqlenPadded ++ back)) := by
  have hchunk : 2 * (seqlenPadded / cpSize / 2) ≤ seqlenPadded / cpSize := Nat.mul_div_le _ _
  have hall : cpSize * (seqlenPadded / cpSize) ≤ seqlenPadded := Nat.mul_div_le _ _
  rw [FrontFits] at hfit
  rw [writeChunks, paddedChunks]
  generalize seqlenPadded / cpSize = chunk at hchunk hall hfit ⊢
  generalize chunk / 2 = half at hchunk hfit ⊢
  have hrankReach : (rank + 1) * half ≤ cpSize * half := Nat.mul_le_mul_right half hrank
  have htwo : cpSize * half ≤ cpSize * chunk := Nat.mul_le_mul_left _ (by omega)
  have hstep : (rank + 1) * half = rank * half + half := Nat.succ_mul rank half
  have hitems : (tokens ++ List.replicate (seqlenPadded - tokens.length) zero).length =
      seqlenPadded := by
    rw [List.length_append, List.length_replicate]
    omega
  have hzeros : List.replicate chunk zero =
      List.replicate half zero ++ (List.replicate half zero ++
        List.replicate (chunk - 2 * half) zero) := by
    rw [← List.replicate_add, ← List.replicate_add]
    congr 1
    omega
  have hfirst := assignSlice_front zero front
    (List.replicate half zero ++ (List.replicate (chunk - 2 * half) zero ++ back)) hrank hlength
    (htwo.trans hall) hfit
  have hfirstLength : (slice (rank * half) ((rank + 1) * half)
      (tokens ++ List.replicate (seqlenPadded - tokens.length) zero)).length = half := by
    rw [length_slice (by omega)]
    omega
  have hlow : seqlenPadded - half * rank = seqlenPadded - half * (rank + 1) + half := by
    rw [Nat.mul_comm half, Nat.mul_comm half]
    omega
  have hsecond := writeClamped_eq false
    (front ++ slice (rank * half) ((rank + 1) * half)
      (tokens ++ List.replicate (seqlenPadded - tokens.length) zero))
    (List.replicate (chunk - 2 * half) zero ++ back) (padToAlign alignSize zero tokens) zero
    (show seqlenPadded - half * (rank + 1) + half ≤ seqlenPadded by
      rw [Nat.mul_comm half]
      omega)
  have hpad : padToAlign alignSize zero tokens ++
      List.replicate (seqlenPadded - (padToAlign alignSize zero tokens).length) zero =
        tokens ++ List.replicate (seqlenPadded - tokens.length) zero := by
    rw [length_padToAlign, padToAlign_eq, List.append_assoc, ← List.replicate_add]
    congr 2
    omega
  rw [hpad, List.length_append, hfirstLength] at hsecond
  simp only [hzeros, List.append_assoc] at hfirst hsecond ⊢
  rw [← hfront, hfirst]
  simp only [bind, Except.bind]
  have hend : seqlenPadded - rank * half = seqlenPadded - (rank + 1) * half + half := by omega
  rw [hlow, hsecond, Nat.mul_comm half (rank + 1), hend]

/-! ## The rows of a batch -/

section Batch

variable {settings : ThdSettings} {batch : Batch α} {rank : ℕ}

/-- Only the last sequence can be padded by more than its alignment. -/
theorem frontFits_of_lt (hlayout : settings.cpLayout = .zigzag) (hcp : 1 < settings.cpSize)
    {lengths : List ℕ} {i : ℕ} (hi : i + 1 < lengths.length) :
    FrontFits settings.cpSize settings.alignSize (lengths.getD i 0)
      (settings.seqlenPadded lengths i) := by
  have hchunks := settings.chunksFit_of_lt hlayout hcp hi
  have hlt := roundUp_lt settings.alignSize_pos (lengths.getD i 0)
  have htwo := hchunks.eq_two_mul
  rw [← settings.seqlenPadded_of_lt hi] at hlt
  left
  omega

def LastFrontFits (settings : ThdSettings) (lengths : List ℕ) : Prop :=
  FrontFits settings.cpSize settings.alignSize (lengths.getLastD 0) (settings.paddedLast lengths)

theorem frontFits (hlayout : settings.cpLayout = .zigzag) (hcp : 1 < settings.cpSize)
    (hfit : LastFrontFits settings batch.lengths) {i : ℕ} (hi : i < batch.sequences.length) :
    FrontFits settings.cpSize settings.alignSize (batch.sequences.getD i []).length
      (settings.seqlenPadded batch.lengths i) := by
  rw [← batch.lengths_getD]
  rcases Nat.lt_or_eq_of_le (Nat.succ_le_of_lt (hi.trans_eq batch.length_lengths.symm)) with
    hlt | hlast
  · exact frontFits_of_lt hlayout hcp hlt
  · rw [settings.seqlenPadded_last hlast]
    have hget : batch.lengths.getD i 0 = batch.lengths.getLastD 0 := by
      rw [List.getLastD_eq_getLast?, List.getLast?_eq_getElem?, ← hlast, Nat.succ_sub_one,
        List.getD_eq_getElem?_getD]
    rw [hget]
    exact hfit

/-- What a rank holds of a sequence in the zigzag layout. -/
def chunksOf (settings : ThdSettings) (rank : ℕ) (zero : α) (batch : Batch α) (i : ℕ) : List α :=
  paddedChunks settings.cpSize rank zero (batch.sequences.getD i [])
    (settings.seqlenPadded batch.lengths i)

theorem length_flatMap_chunksOf (zero : α) (hrank : rank < settings.cpSize)
    (hbucket : ∀ bucket ∈ settings.padToLengthBucket, 0 < bucket) {i : ℕ}
    (hi : i ≤ batch.sequences.length) :
    ((List.range i).flatMap (chunksOf settings rank zero batch)).length =
      offset (settings.paddedLengths batch.lengths) i / settings.cpSize := by
  have hlength := settings.length_paddedLengths batch.lengths_ne_nil
  rw [batch.length_lengths] at hlength
  apply length_flatMap_range settings.cpSize
    (settings.cpSize_dvd_paddedLengths batch.lengths hbucket) _ (hi.trans_eq hlength.symm)
  intro index hindex
  exact length_paddedChunks zero hrank
    (length_le_seqlenPadded settings (hindex.trans_eq hlength))

/-- The rows of a rank in the zigzag layout. -/
theorem writeSequences_chunksOf (zero : α) (hlayout : settings.cpLayout = .zigzag)
    (hcp : 1 < settings.cpSize) (hrank : rank < settings.cpSize)
    (hbucket : ∀ bucket ∈ settings.padToLengthBucket, 0 < bucket)
    (hfit : LastFrontFits settings batch.lengths) :
    writeSequences settings rank zero batch.sequences (settings.packed batch.lengths) =
      .ok ((List.range batch.sequences.length).flatMap (chunksOf settings rank zero batch)) := by
  have hoffset := fun i (hi : i ≤ batch.sequences.length) =>
    length_flatMap_chunksOf zero hrank hbucket hi
  have hrows : (settings.packed batch.lengths).seqlensInBatchPadded.sum / settings.cpSize =
      ((List.range batch.sequences.length).flatMap (chunksOf settings rank zero batch)).length := by
    rw [hoffset _ le_rfl, ← batch.length_lengths, offset_length settings batch.lengths_ne_nil,
      sum_packed]
  have hstep : ∀ i < batch.sequences.length, ∀ back,
      writeSequence settings rank zero
        ((List.range i).flatMap (chunksOf settings rank zero batch) ++
          (List.replicate (chunksOf settings rank zero batch i).length zero ++ back))
        (batch.sequences.getD i [])
        ((settings.packed batch.lengths).seqlensInBatchPadded.getD i 0)
        ((settings.packed batch.lengths).cuSeqlensPadded.getD i 0) =
      .ok ((List.range i).flatMap (chunksOf settings rank zero batch) ++
        (chunksOf settings rank zero batch i ++ back)) := by
    intro i hi back
    have hlength : (chunksOf settings rank zero batch i).length =
        settings.seqlenPadded batch.lengths i / settings.cpSize :=
      length_paddedChunks zero hrank (length_le_seqlenPadded settings hi)
    rw [writeSequence, hlayout, hlength]
    simp only [if_neg (not_le.mpr hcp)]
    exact writeChunks_padded zero back hrank (hoffset i hi.le) (max_le_seqlenPadded settings hi)
      (frontFits hlayout hcp hfit hi)
  have hfill := foldlM_fill (fun rows i => writeSequence settings rank zero rows
    (batch.sequences.getD i [])
    ((settings.packed batch.lengths).seqlensInBatchPadded.getD i 0)
    ((settings.packed batch.lengths).cuSeqlensPadded.getD i 0)) zero hstep []
  rw [List.append_nil, List.append_nil] at hfill
  rw [writeSequences, hrows, hfill]

theorem preprocessThdEngine_of_writeSequences {zero : α}
    (hbucket : ∀ bucket ∈ settings.padToLengthBucket, 0 < bucket)
    (hsupported : settings.LayoutSupported) {rows : List α}
    (hrows : writeSequences settings rank zero batch.sequences (settings.packed batch.lengths) =
      .ok rows) :
    preprocessThdEngine settings rank zero batch.sequences =
      .ok { rows, params := packedParams settings batch.lengths } := by
  have hmode : ¬ (settings.hasCpPartitionMode = false ∧ settings.cpLayout ≠ .zigzag ∧
      1 < settings.cpSize) := by
    rintro ⟨hmissing, hlayout, hcp⟩
    cases hcase : settings.cpLayout with
    | zigzag => exact hlayout hcase
    | contiguous => simp [hsupported hcase hcp] at hmissing
  refine bind_eq_ok.mpr ⟨_, packLengths_lengths hbucket, bind_eq_ok.mpr ⟨rows, hrows, ?_⟩⟩
  exact raiseIf_bind_eq_ok.mpr ⟨hmode, rfl⟩

end Batch

end OneShotOPD.Mcore
