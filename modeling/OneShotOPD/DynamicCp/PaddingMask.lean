import OneShotOPD.DynamicCp.Scheduler
import OneShotOPD.Mcore.PaddedChunks
import OneShotOPD.Mcore.ThdRoundTrip
import Mathlib

/-!
# The padding mask and the packed rows

The mask of the router is computed from the lengths alone, in code of its own.
It tells the rows that the packer leaves without a token as long as the packer
finds the chunks of the last sequence in the tokens that it has.
-/

namespace OneShotOPD.DynamicCp

open Segments SliceAssign Checks Mcore

variable {α : Type}

/-- The arguments of the mask for a call of the packer. -/
def maskSettings (settings : ThdSettings) : ShardSettings where
  tpSize := settings.tpSize
  cpLayout := settings.cpLayout
  minLocalRows := settings.minLocalRows.map Int.ofNat

/-- The padding of a sequence of the given length. -/
def marks (length paddedLength : ℕ) : List Bool :=
  List.replicate length false ++ List.replicate (paddedLength - length) true

/-! ## Lengths -/

theorem ceilDiv_mul {align : ℕ} (halign : 0 < align) (length : ℕ) :
    ceilDiv length align * align = roundUp align length := by
  have hdvd := dvd_roundUp halign length
  obtain ⟨count, hcount⟩ := hdvd
  have hlow := le_roundUp align length
  have hhigh := roundUp_lt halign length
  rw [hcount] at hlow hhigh ⊢
  have hdiv : ceilDiv length align = count := by
    rw [ceilDiv, Nat.div_eq_iff halign]
    rw [Nat.mul_comm] at hlow hhigh
    omega
  rw [hdiv, Nat.mul_comm]

/-- The mask pads the sequences as the packer does. -/
theorem paddedLens_eq {settings : ThdSettings} (hfp8 : settings.useFp8Padding = false)
    (hbucket : settings.padToLengthBucket = none) (hrows : settings.minLocalRows ≠ some 0)
    {lengths : List ℕ} (hlengths : lengths ≠ []) :
    paddedLens (maskSettings settings) settings.cpSize lengths =
      .ok (settings.paddedLengths lengths) := by
  have halign : settings.alignSize = settings.baseAlign := by
    rw [ThdSettings.alignSize, hfp8]
    rfl
  have hmap : (lengths.map fun length => ceilDiv length settings.baseAlign * settings.baseAlign) =
      lengths.map (roundUp settings.alignSize) := by
    rw [halign]
    exact List.map_congr_left fun length _ => ceilDiv_mul settings.baseAlign_pos length
  have hsplit := List.dropLast_append_getLast hlengths
  have hinitial : lengths.map (roundUp settings.alignSize) =
      lengths.dropLast.map (roundUp settings.alignSize) ++
        [roundUp settings.alignSize (lengths.getLast hlengths)] := by
    conv_lhs => rw [← hsplit]
    rw [List.map_append, List.map_singleton]
  have hsum : (lengths.map (roundUp settings.alignSize)).sum =
      (lengths.dropLast.map (roundUp settings.alignSize)).sum +
        roundUp settings.alignSize (lengths.getLast hlengths) := by
    rw [hinitial, List.sum_append, List.sum_singleton]
  have htotal : settings.paddedTotal lengths =
      settings.rowsTotal (lengths.map (roundUp settings.alignSize)).sum := by
    rw [ThdSettings.paddedTotal, ThdSettings.bucketTotal, hbucket, ThdSettings.fp8Total, hfp8]
    rfl
  have hpadded : settings.paddedLengths lengths =
      growLast (settings.paddedTotal lengths - (lengths.map (roundUp settings.alignSize)).sum)
        (lengths.map (roundUp settings.alignSize)) := by
    have hle := settings.le_paddedTotal lengths
    rw [hsum] at hle ⊢
    rw [hinitial, growLast_append, ThdSettings.paddedLengths, ThdSettings.paddedLast]
    congr 2
    omega
  have hgrow : ∀ items : List ℕ, growLast 0 items = items := by
    intro items
    rcases List.eq_nil_or_concat' items with rfl | ⟨initial, last, rfl⟩
    · rfl
    · rw [growLast_append, Nat.add_zero]
  rw [hpadded, htotal, ← hmap, paddedLens]
  have hrowsOf : (maskSettings settings).minLocalRows =
      settings.minLocalRows.map Int.ofNat := rfl
  rw [hrowsOf]
  cases hcase : settings.minLocalRows with
  | none =>
      change Except.ok (lengths.map fun length =>
        ceilDiv length settings.baseAlign * settings.baseAlign) = _
      rw [ThdSettings.rowsTotal, hcase]
      simp only [Nat.sub_self, hgrow]
  | some minLocalRows =>
      have hpos : ¬ Int.ofNat minLocalRows ≤ 0 := fun hle =>
        hrows (by rw [hcase, Int.ofNat_eq_zero.mp (le_antisymm hle (Int.natCast_nonneg _))])
      rw [ThdSettings.rowsTotal, hcase]
      refine raiseIf_bind_eq_ok.mpr ⟨hpos, ?_⟩
      have hchoice : ∀ (padded : List ℕ) (minTotalRows : ℕ),
          (if padded.sum < minTotalRows then growLast (minTotalRows - padded.sum) padded
            else padded) = growLast (max padded.sum minTotalRows - padded.sum) padded := by
        intro padded minTotalRows
        split
        next hlt => rw [max_eq_right hlt.le]
        next hge => rw [max_eq_left (not_lt.mp hge), Nat.sub_self, hgrow]
      exact congrArg Except.ok (hchoice _ (settings.cpSize * minLocalRows))

/-! ## One sequence -/

theorem length_marks {length paddedLength : ℕ} (hlength : length ≤ paddedLength) :
    (marks length paddedLength).length = paddedLength := by
  rw [marks, List.length_append, List.length_replicate, List.length_replicate,
    Nat.add_sub_cancel' hlength]

theorem map_isNone_marks {items : List (Option α)} (hitems : ∀ item ∈ items, item.isNone = false)
    (paddedLength : ℕ) :
    (items ++ List.replicate (paddedLength - items.length) none).map Option.isNone =
      marks items.length paddedLength := by
  have hfalse : items.map Option.isNone = List.replicate items.length false :=
    List.eq_replicate_iff.mpr ⟨List.length_map _, fun mark hmark => by
      obtain ⟨item, hitem, rfl⟩ := List.mem_map.mp hmark
      exact hitems item hitem⟩
  rw [List.map_append, List.map_replicate, hfalse, marks]
  rfl

/-- A window of a sequence has the tokens that reach into it. -/
theorem slice_marks {length paddedLength start width : ℕ} (hlength : length ≤ paddedLength)
    (hwindow : start + width ≤ paddedLength) :
    slice start (start + width) (marks length paddedLength) =
      marks (min (length - start) width) width := by
  rw [marks, slice_append, slice_replicate, slice_replicate, List.length_replicate, marks]
  congr 2 <;> omega

theorem fillSlice_front {front width : ℕ} (hfront : front ≤ width) :
    fillSlice (List.replicate width true) 0 front false = marks front width := by
  have hslot : (slice 0 front (List.replicate width true)).length = front := by
    rw [slice_replicate, List.length_replicate]
    omega
  rw [fillSlice, hslot, overwrite, List.take_zero, List.nil_append, List.length_replicate,
    List.drop_replicate, Nat.zero_add, marks]

theorem fillSlice_back {front half back width : ℕ} (hfront : front ≤ half)
    (hback : half + back ≤ width) :
    fillSlice (marks front width) half (half + back) false =
      marks front half ++ marks back (width - half) := by
  have hsplit : marks front width =
      marks front half ++ (List.replicate back true ++ List.replicate
        (width - half - back) true) := by
    rw [marks, marks, ← List.replicate_add, List.append_assoc, ← List.replicate_add]
    congr 2
    omega
  have hhalf := length_marks hfront
  have hslot : (slice half (half + back) (marks front width)).length = back := by
    rw [length_slice (by rw [length_marks (by omega)]; exact hback), Nat.add_sub_cancel_left]
  rw [fillSlice, hslot, hsplit]
  have hwrite := @overwrite_middle _ (marks front half) (List.replicate back true)
    (List.replicate (width - half - back) true) (List.replicate back false) (by simp)
  rw [hhalf] at hwrite
  rw [hwrite]
  rfl

/-- The tokens of a sequence in the two chunks of a rank. -/
theorem zigzagMask_marks {cpSize cpRank seqLen paddedLen : ℕ} (hcp : 1 < cpSize) :
    zigzagMask cpSize cpRank seqLen paddedLen =
      marks (min (seqLen - cpRank * (paddedLen / cpSize / 2)) (paddedLen / cpSize / 2))
          (paddedLen / cpSize / 2) ++
        (marks (min (seqLen - (paddedLen - (cpRank + 1) * (paddedLen / cpSize / 2)))
            (paddedLen / cpSize / 2)) (paddedLen / cpSize / 2) ++
          List.replicate (paddedLen / cpSize - 2 * (paddedLen / cpSize / 2)) true) := by
  have hhalf : paddedLen / (2 * cpSize) = paddedLen / cpSize / 2 := by
    rw [Nat.mul_comm, Nat.div_div_eq_div_mul]
  rw [zigzagMask, if_neg (Nat.ne_of_gt hcp)]
  simp only [hhalf]
  have hchunk : 2 * (paddedLen / cpSize / 2) ≤ paddedLen / cpSize := Nat.mul_div_le _ _
  generalize paddedLen / cpSize = chunk at hchunk ⊢
  generalize chunk / 2 = half at hchunk ⊢
  rw [fillSlice_front (by omega), fillSlice_back (by omega) (by omega)]
  congr 1
  rw [marks, marks, List.append_assoc, ← List.replicate_add]
  congr 2
  omega

/-- What the mask says of a sequence in the zigzag layout. -/
theorem zigzagMask_eq {cpSize cpRank seqLen paddedLen : ℕ} (hcp : 1 < cpSize)
    (hrank : cpRank < cpSize) (hlength : seqLen ≤ paddedLen) :
    zigzagMask cpSize cpRank seqLen paddedLen =
      slice (cpRank * (paddedLen / cpSize / 2)) ((cpRank + 1) * (paddedLen / cpSize / 2))
          (marks seqLen paddedLen) ++
        (slice (paddedLen - (cpRank + 1) * (paddedLen / cpSize / 2))
            (paddedLen - cpRank * (paddedLen / cpSize / 2)) (marks seqLen paddedLen) ++
          List.replicate (paddedLen / cpSize - 2 * (paddedLen / cpSize / 2)) true) := by
  rw [zigzagMask_marks hcp]
  have hchunk : 2 * (paddedLen / cpSize / 2) ≤ paddedLen / cpSize := Nat.mul_div_le _ _
  have hall : cpSize * (paddedLen / cpSize) ≤ paddedLen := Nat.mul_div_le _ _
  generalize paddedLen / cpSize = chunk at hchunk hall ⊢
  generalize chunk / 2 = half at hchunk ⊢
  have hreach : (cpRank + 1) * half ≤ cpSize * half := Nat.mul_le_mul_right half hrank
  have htwo : cpSize * half ≤ cpSize * chunk := Nat.mul_le_mul_left _ (by omega)
  have hstep : (cpRank + 1) * half = cpRank * half + half := Nat.succ_mul cpRank half
  have hend : paddedLen - cpRank * half = paddedLen - (cpRank * half + half) + half := by omega
  rw [hstep, hend, slice_marks hlength (by omega), slice_marks hlength (by omega)]

/-! ## The mask of a batch -/

theorem zip_eq_map_range {first second : List ℕ} (hlength : first.length = second.length) :
    first.zip second = (List.range first.length).map fun i =>
      (first.getD i 0, second.getD i 0) := by
  apply List.ext_getElem
  · simp [hlength]
  · intro i hleft hright
    have hi : i < first.length := by simpa using hright
    rw [List.getElem_zip, List.getElem_map, List.getElem_range, List.getD_eq_getElem _ _ hi,
      List.getD_eq_getElem _ _ (hi.trans_eq hlength)]

/-- One step of the loop in the contiguous layout is a copy of tokens. -/
theorem copyInterval_false {rank width start length : ℕ} {rows : List Bool}
    (hrows : rows.length = width) :
    copyInterval rank rows (List.replicate length false) start =
      .ok (if max (width * rank) start < min (width * rank + width) (start + length) then
        fillSlice rows (max (width * rank) start - width * rank)
          (min (width * rank + width) (start + length) - width * rank) false
      else rows) := by
  rw [copyInterval, hrows, List.length_replicate]
  split
  next hempty => rw [if_neg (by omega)]
  next hoverlap =>
    have hstop : min (width * rank + width) (start + length) - width * rank ≤ rows.length := by
      omega
    rw [if_pos (by omega), slice_replicate, assignSlice_eq_ok _ hstop, fillSlice,
      length_slice hstop]
    · congr 3
      omega
    · rw [List.length_replicate]
      omega

/-- The mask of a rank is its window of the padded sequences. -/
theorem contiguousMask_eq {rank width : ℕ} {lens : List (ℕ × ℕ)} {front : List Bool}
    (hlens : ∀ lengths ∈ lens, lengths.1 ≤ lengths.2)
    (hwindow : width * rank + width ≤ front.length + (lens.map Prod.snd).sum) :
    contiguousMask (width * rank) (width * rank + width) lens front.length
        (slice (width * rank) (width * rank + width)
          (front ++ List.replicate (lens.map Prod.snd).sum true)) =
      slice (width * rank) (width * rank + width)
        (front ++ lens.flatMap fun lengths => marks lengths.1 lengths.2) := by
  induction lens generalizing front with
  | nil => rfl
  | cons lengths lens ih =>
      obtain ⟨length, paddedLength⟩ := lengths
      obtain ⟨hlength, hrest⟩ := List.forall_mem_cons.mp hlens
      rw [List.map_cons, List.sum_cons] at hwindow ⊢
      have hbuffer : (front ++ List.replicate
          (paddedLength + (lens.map Prod.snd).sum) true).length =
          front.length + (paddedLength + (lens.map Prod.snd).sum) := by simp
      have hcopy := @copyInterval_slice _ rank
        (front ++ List.replicate (paddedLength + (lens.map Prod.snd).sum) true)
        (List.replicate length false) width front.length (by rw [hbuffer]; exact hwindow)
        (by rw [hbuffer, List.length_replicate]; omega)
      have hwrite : overwrite
          (front ++ List.replicate (paddedLength + (lens.map Prod.snd).sum) true) front.length
          (List.replicate length false) =
            front ++ marks length paddedLength ++ List.replicate (lens.map Prod.snd).sum true := by
        have hsplit : List.replicate (paddedLength + (lens.map Prod.snd).sum) true =
            List.replicate length true ++
              List.replicate (paddedLength - length + (lens.map Prod.snd).sum) true := by
          rw [← List.replicate_add]
          congr 1
          omega
        rw [hsplit, overwrite_middle (by simp), marks, List.append_assoc, List.append_assoc,
          List.replicate_add]
      have hrows : (slice (width * rank) (width * rank + width)
          (front ++ List.replicate (paddedLength + (lens.map Prod.snd).sum) true)).length =
            width := by
        rw [length_slice (by rw [hbuffer]; exact hwindow), Nat.add_sub_cancel_left]
      rw [copyInterval_false hrows, hwrite] at hcopy
      have hnext := @ih (front ++ marks length paddedLength) hrest (by
        rw [List.length_append, length_marks hlength]
        omega)
      rw [List.length_append, length_marks hlength] at hnext
      rw [contiguousMask, List.flatMap_cons, ← List.append_assoc, ← hnext]
      exact congrArg _ (Except.ok.inj hcopy)

section Batch

variable {settings : ThdSettings} {batch : Batch α} {rank : ℕ}

/-- The padded batch, with the padding marked. -/
def markedBatch (settings : ThdSettings) (lengths : List ℕ) : List Bool :=
  (List.range lengths.length).flatMap fun i =>
    marks (lengths.getD i 0) (settings.seqlenPadded lengths i)

theorem isNone_labelled {i : ℕ} (hi : i < batch.sequences.length) :
    ∀ item ∈ batch.labelled.sequences.getD i [], item.isNone = false := by
  intro item hitem
  change item ∈ (labelSequences batch.sequences).getD i [] at hitem
  rw [labelSequences_getD hi] at hitem
  obtain ⟨k, -, rfl⟩ := List.mem_map.mp hitem
  rfl

theorem map_isNone_paddedBuffer :
    (paddedBuffer settings none batch.labelled).map Option.isNone =
      markedBatch settings batch.lengths := by
  rw [paddedBuffer, markedBatch, List.map_flatMap, batch.length_labelled, batch.length_lengths]
  refine List.flatMap_congr fun i hi => ?_
  rw [plainSegment, map_isNone_marks (isNone_labelled (List.mem_range.mp hi)),
    ← Batch.lengths_getD, batch.lengths_labelled]

theorem map_isNone_chunksOf (hcp : 1 < settings.cpSize) (hrank : rank < settings.cpSize) {i : ℕ}
    (hi : i < batch.sequences.length) :
    (chunksOf settings rank none batch.labelled i).map Option.isNone =
      zigzagMask settings.cpSize rank (batch.lengths.getD i 0)
        (settings.seqlenPadded batch.lengths i) := by
  have hlength := length_le_seqlenPadded settings hi
  rw [← batch.lengths_getD] at hlength
  rw [zigzagMask_eq hcp hrank hlength, chunksOf, paddedChunks]
  simp only [List.map_append, map_slice, List.map_replicate]
  rw [← List.map_replicate, ← List.map_append, map_isNone_marks (isNone_labelled hi),
    ← Batch.lengths_getD, batch.lengths_labelled]
  rfl

theorem localPaddingMask_zigzag (hfp8 : settings.useFp8Padding = false)
    (hbucket : settings.padToLengthBucket = none) (hminimum : settings.minLocalRows ≠ some 0)
    (hlayout : settings.cpLayout = .zigzag) :
    localPaddingMask (maskSettings settings) settings.cpSize rank batch.lengths =
      .ok ((List.range batch.lengths.length).flatMap fun i =>
        zigzagMask settings.cpSize rank (batch.lengths.getD i 0)
          (settings.seqlenPadded batch.lengths i)) := by
  have hlength := settings.length_paddedLengths batch.lengths_ne_nil
  have hmask : (maskSettings settings).cpLayout = .zigzag := hlayout
  simp only [localPaddingMask, paddedLens_eq hfp8 hbucket hminimum batch.lengths_ne_nil, bind,
    Except.bind, hmask, zip_eq_map_range hlength.symm, List.flatMap_map]
  rfl

theorem localPaddingMask_contiguous (hfp8 : settings.useFp8Padding = false)
    (hbucket : settings.padToLengthBucket = none) (hminimum : settings.minLocalRows ≠ some 0)
    (hlayout : settings.cpLayout = .contiguous) (hrank : rank < settings.cpSize) :
    localPaddingMask (maskSettings settings) settings.cpSize rank batch.lengths =
      .ok (slice (settings.paddedTotal batch.lengths / settings.cpSize * rank)
        (settings.paddedTotal batch.lengths / settings.cpSize * rank +
          settings.paddedTotal batch.lengths / settings.cpSize)
        (markedBatch settings batch.lengths)) := by
  have hlength := settings.length_paddedLengths batch.lengths_ne_nil
  have hsum := settings.sum_paddedLengths batch.lengths_ne_nil
  have hlens : ∀ lengths ∈ batch.lengths.zip (settings.paddedLengths batch.lengths),
      lengths.1 ≤ lengths.2 := by
    rw [zip_eq_map_range hlength.symm]
    intro lengths hmem
    obtain ⟨i, hi, rfl⟩ := List.mem_map.mp hmem
    have hle := length_le_seqlenPadded settings
      ((List.mem_range.mp hi).trans_eq batch.length_lengths)
    rwa [← batch.lengths_getD] at hle
  have hsnd : ((batch.lengths.zip (settings.paddedLengths batch.lengths)).map Prod.snd).sum =
      settings.paddedTotal batch.lengths := by
    rw [List.map_snd_zip (le_of_eq hlength), hsum]
  have hmarked : markedBatch settings batch.lengths =
      (batch.lengths.zip (settings.paddedLengths batch.lengths)).flatMap fun lengths =>
        marks lengths.1 lengths.2 := by
    rw [zip_eq_map_range hlength.symm, List.flatMap_map]
    rfl
  have hmask : (maskSettings settings).cpLayout = .contiguous := hlayout
  simp only [localPaddingMask, paddedLens_eq hfp8 hbucket hminimum batch.lengths_ne_nil, bind,
    Except.bind, hmask, hsum]
  obtain ⟨width, htotal⟩ := settings.cpSize_dvd_paddedTotal batch.lengths (by simp [hbucket])
  have hdiv : settings.paddedTotal batch.lengths / settings.cpSize = width := by
    rw [htotal, Nat.mul_div_cancel_left _ settings.cpSize_pos]
  have hwindow : width * rank + width ≤ settings.paddedTotal batch.lengths := by
    rw [htotal, ← Nat.mul_succ, Nat.mul_comm]
    exact Nat.mul_le_mul_right width hrank
  have hloop := @contiguousMask_eq rank width _ [] hlens (by rw [hsnd]; simpa using hwindow)
  rw [hsnd, List.nil_append, List.nil_append, slice_replicate, Nat.min_eq_left hwindow,
    Nat.add_sub_cancel_left] at hloop
  rw [hdiv, hmarked]
  exact congrArg Except.ok hloop

/-- Without context parallelism the masks of the sequences stand one after the
other. -/
theorem zigzagMask_one {seqLen paddedLen : ℕ} (hlength : seqLen ≤ paddedLen) (cpRank : ℕ) :
    zigzagMask 1 cpRank seqLen paddedLen = marks seqLen paddedLen := by
  rw [zigzagMask, if_pos rfl, Nat.div_one, fillSlice_front hlength]

end Batch

end OneShotOPD.DynamicCp
