import OneShotOPD.Mcore.Bshd
import OneShotOPD.Mcore.PackedSeqsRoundTrip

/-!
# The round trip of the bshd format

The chunks that the ranks hold of a sequence are those of the sequence with its
padding, and their masks are the chunks of the mask that marks its tokens.
-/

namespace OneShotOPD.Mcore

open Segments SliceAssign Zigzag Masked Checks

variable {α : Type}

namespace BshdSettings

variable (settings : BshdSettings)

theorem alignSize_pos : 0 < settings.alignSize := by
  rw [alignSize]
  split
  next =>
    exact Nat.mul_pos (Nat.mul_pos settings.tpSize_pos settings.cpSize_pos) (by decide)
  next => exact settings.tpSize_pos

theorem two_mul_cpSize_dvd_alignSize (hcp : 1 < settings.cpSize) :
    2 * settings.cpSize ∣ settings.alignSize := by
  rw [alignSize, if_pos hcp, Nat.mul_assoc, Nat.mul_comm 2]
  exact Nat.dvd_mul_left _ _

theorem fp8SeqAlign_pos (batchSize : ℕ) : 0 < settings.fp8SeqAlign batchSize := by
  have htotal : 0 < 128 * settings.tpSize * settings.cpSize :=
    Nat.mul_pos (Nat.mul_pos (by decide) settings.tpSize_pos) settings.cpSize_pos
  apply Nat.lcm_pos _ settings.alignSize_pos
  exact Nat.div_pos (Nat.le_of_dvd htotal (Nat.gcd_dvd_right _ _))
    (Nat.gcd_pos_of_pos_right _ htotal)

/-- The length before FP8 alignment. -/
theorem aligned_eq (length : ℕ) :
    (if 1 < settings.alignSize then length + padSize settings.alignSize length
      else length) = roundUp settings.alignSize length := by
  split
  next => rfl
  next hone =>
    have hpos := settings.alignSize_pos
    have hpad := roundUp_lt hpos length
    have hle := le_roundUp settings.alignSize length
    omega

theorem le_ceil_mul {align : ℕ} (halign : 0 < align) (length : ℕ) :
    length ≤ (length + align - 1) / align * align := by
  have hdiv := Nat.div_add_mod (length + align - 1) align
  have hmod := Nat.mod_lt (length + align - 1) halign
  rw [Nat.mul_comm align] at hdiv
  omega

theorem rawMaxSeqlen_le_maxSeqlen (lengths : List ℕ) :
    settings.rawMaxSeqlen lengths ≤ settings.maxSeqlen lengths := by
  have hround := le_roundUp settings.alignSize (settings.rawMaxSeqlen lengths)
  simp only [maxSeqlen, aligned_eq]
  split
  next => exact hround.trans (le_ceil_mul (settings.fp8SeqAlign_pos _) _)
  next => exact hround

/-- The common length leaves two chunks for each rank. -/
theorem two_mul_cpSize_dvd_maxSeqlen (hcp : 1 < settings.cpSize) (lengths : List ℕ) :
    2 * settings.cpSize ∣ settings.maxSeqlen lengths := by
  have halign := settings.two_mul_cpSize_dvd_alignSize hcp
  simp only [maxSeqlen, aligned_eq]
  split
  next =>
    exact (halign.trans (Nat.dvd_lcm_right _ _)).mul_left _
  next => exact halign.trans (dvd_roundUp settings.alignSize_pos _)

theorem maxSeqlen_eq (hcp : 1 < settings.cpSize) (lengths : List ℕ) :
    settings.maxSeqlen lengths = 2 * (settings.cpSize *
      (settings.maxSeqlen lengths / (2 * settings.cpSize))) := by
  rw [← Nat.mul_assoc,
    Nat.mul_div_cancel' (settings.two_mul_cpSize_dvd_maxSeqlen hcp lengths)]

end BshdSettings

section Chunks

variable {settings : BshdSettings} {rank maxSeqlen chunkLen : ℕ}

theorem localMaxSeqlen_eq (hcp : 1 < settings.cpSize)
    (hmax : maxSeqlen = 2 * (settings.cpSize * chunkLen)) :
    settings.localMaxSeqlen maxSeqlen = chunkLen + chunkLen := by
  rw [BshdSettings.localMaxSeqlen, if_pos hcp, hmax, Nat.mul_left_comm,
    Nat.mul_div_cancel_left _ settings.cpSize_pos, Nat.two_mul]

theorem chunkLen_eq (hmax : maxSeqlen = 2 * (settings.cpSize * chunkLen)) :
    maxSeqlen / (2 * settings.cpSize) = chunkLen := by
  have hpos := settings.cpSize_pos
  rw [hmax, ← Nat.mul_assoc, Nat.mul_div_cancel_left _ (by omega)]

/-- The second chunk starts as far from the back as the first ends from the
front. -/
theorem secondStart_eq (cpSize rank chunkLen : ℕ) :
    (2 * cpSize - rank - 1) * chunkLen = 2 * (cpSize * chunkLen) - (rank + 1) * chunkLen := by
  rw [Nat.sub_sub, Nat.sub_mul, Nat.mul_assoc]

theorem fillValid_eq (strict : Bool) {mask : List Bool} {start first seqlen : ℕ}
    (hroom : start + chunkLen ≤ mask.length) :
    fillValid strict mask start (min (seqlen - first) chunkLen) =
      writeClamped strict mask start first (first + chunkLen) (List.replicate seqlen true) := by
  have hsource : slice first (min (first + chunkLen) seqlen) (List.replicate seqlen true) =
      List.replicate (min (seqlen - first) chunkLen) true := by
    rw [slice_replicate]
    congr 1
    omega
  have hlength : min (first + chunkLen) seqlen - first = min (seqlen - first) chunkLen := by
    omega
  rw [fillValid, writeClamped, List.length_replicate, hsource, hlength]
  by_cases hvalid : 0 < min (seqlen - first) chunkLen
  · rw [if_pos hvalid, if_pos (by omega),
      fillChecked_eq strict true (Nat.le_add_right _ _) (by omega), Nat.add_sub_cancel_left]
  · rw [if_neg hvalid, if_neg (by omega)]

/-- The marks of a rank are the chunks of the marks of the whole sequence. -/
theorem localMask_eq (strict : Bool) (hcp : 1 < settings.cpSize) (hrank : rank < settings.cpSize)
    (hmax : maxSeqlen = 2 * (settings.cpSize * chunkLen)) {seqlen : ℕ}
    (hseqlen : seqlen ≤ maxSeqlen) :
    localMask settings strict rank maxSeqlen seqlen =
      .ok (firstChunk chunkLen rank
          (List.replicate seqlen true ++ List.replicate (maxSeqlen - seqlen) false) ++
        secondChunk chunkLen rank
          (List.replicate seqlen true ++ List.replicate (maxSeqlen - seqlen) false)) := by
  have hreach : (rank + 1) * chunkLen ≤ settings.cpSize * chunkLen :=
    Nat.mul_le_mul_right chunkLen hrank
  have hstep : (rank + 1) * chunkLen = rank * chunkLen + chunkLen := Nat.succ_mul rank chunkLen
  have hend : 2 * (settings.cpSize * chunkLen) - rank * chunkLen =
      2 * (settings.cpSize * chunkLen) - (rank + 1) * chunkLen + chunkLen := by
    omega
  have hchunks := writeClamped_chunks strict [] [] (List.replicate seqlen true) false hrank
    (by rwa [List.length_replicate, ← hmax])
  simp only [List.nil_append, List.append_nil, List.length_nil, Nat.zero_add,
    Nat.mul_comm chunkLen, List.length_replicate, ← hmax] at hchunks
  obtain ⟨middle, hfirst, hsecond⟩ := bind_eq_ok.mp hchunks
  have hlength := length_of_writeClamped hfirst
  rw [List.length_replicate] at hlength
  rw [localMask, localMaxSeqlen_eq hcp hmax, if_neg (not_le.mpr hcp)]
  simp only [chunkLen_eq hmax, secondStart_eq]
  apply bind_eq_ok.mpr
  refine ⟨middle, ?_, ?_⟩
  · rw [fillValid_eq strict (by rw [List.length_replicate]; omega), ← hstep, hfirst]
  · rw [fillValid_eq strict (by omega), ← hend, ← hmax, hsecond]

/-- The rows of a rank are the chunks of the padded sequence. -/
theorem localRow_eq (strict : Bool) (zero : α) (hcp : 1 < settings.cpSize)
    (hrank : rank < settings.cpSize) (hmax : maxSeqlen = 2 * (settings.cpSize * chunkLen))
    {seq : List α} (hseq : seq.length ≤ maxSeqlen) :
    localRow settings strict rank maxSeqlen zero seq =
      .ok (firstChunk chunkLen rank (seq ++ List.replicate (maxSeqlen - seq.length) zero) ++
        secondChunk chunkLen rank
          (seq ++ List.replicate (maxSeqlen - seq.length) zero)) := by
  have hpad : padSequence strict maxSeqlen zero seq =
      .ok (seq ++ List.replicate (maxSeqlen - seq.length) zero) := by
    rw [padSequence]
    split
    next hlt =>
      rw [assignChecked_eq_ok strict (Nat.zero_le _) (by simpa using hseq) rfl, overwrite,
        List.take_zero, List.nil_append, Nat.zero_add, List.drop_replicate]
    next hge => rw [Nat.sub_eq_zero_of_le (not_lt.mp hge), List.replicate_zero, List.append_nil]
  have hlength : (seq ++ List.replicate (maxSeqlen - seq.length) zero).length =
      2 * (settings.cpSize * chunkLen) := by
    rw [List.length_append, List.length_replicate, Nat.add_sub_cancel' hseq, hmax]
  have hboth : (firstChunk chunkLen rank (seq ++ List.replicate (maxSeqlen - seq.length) zero) ++
      secondChunk chunkLen rank
        (seq ++ List.replicate (maxSeqlen - seq.length) zero)).length =
          chunkLen + chunkLen := by
    rw [List.length_append, length_firstChunk hrank hlength, length_secondChunk hrank hlength]
  have hreach : (rank + 1) * chunkLen ≤ settings.cpSize * chunkLen :=
    Nat.mul_le_mul_right chunkLen hrank
  have hstep : (rank + 1) * chunkLen = rank * chunkLen + chunkLen := Nat.succ_mul rank chunkLen
  have hend : 2 * (settings.cpSize * chunkLen) - rank * chunkLen =
      2 * (settings.cpSize * chunkLen) - (rank + 1) * chunkLen + chunkLen := by
    omega
  rw [localRow, if_neg (not_le.mpr hcp)]
  apply bind_eq_ok.mpr
  refine ⟨_, hpad, ?_⟩
  simp only [localMaxSeqlen_eq hcp hmax, chunkLen_eq hmax, secondStart_eq]
  rw [← hstep, ← hend, ← hlength]
  have hroom : chunkLen + chunkLen ≤ (List.replicate (chunkLen + chunkLen) zero).length := by
    rw [List.length_replicate]
  have hassign := assignChecked_eq_ok strict (Nat.zero_le (chunkLen + chunkLen)) hroom hboth
  rw [overwrite, hboth, List.take_zero, List.nil_append, Nat.zero_add, List.drop_replicate,
    Nat.sub_self, List.replicate_zero, List.append_nil] at hassign
  exact hassign

end Chunks

section Plain

variable {settings : BshdSettings} {rank maxSeqlen : ℕ}

theorem localMask_plain (strict : Bool) (hcp : settings.cpSize ≤ 1) {seqlen : ℕ}
    (hseqlen : seqlen ≤ maxSeqlen) :
    localMask settings strict rank maxSeqlen seqlen =
      .ok (List.replicate seqlen true ++ List.replicate (maxSeqlen - seqlen) false) := by
  rw [localMask, if_pos hcp, BshdSettings.localMaxSeqlen, if_neg (not_lt.mpr hcp),
    fillChecked_eq strict true (Nat.zero_le _) (by simpa using hseqlen),
    assignChecked_eq_ok strict (Nat.zero_le _) (by simpa using hseqlen) (by simp), overwrite,
    List.take_zero, List.nil_append, List.length_replicate, Nat.zero_add, Nat.sub_zero,
    List.drop_replicate]

theorem localRow_plain (strict : Bool) (zero : α) (hcp : settings.cpSize ≤ 1) {seq : List α}
    (hseq : seq.length ≤ maxSeqlen) :
    localRow settings strict rank maxSeqlen zero seq =
      .ok (seq ++ List.replicate (maxSeqlen - seq.length) zero) := by
  rw [localRow, if_pos hcp, BshdSettings.localMaxSeqlen, if_neg (not_lt.mpr hcp),
    assignChecked_eq_ok strict (Nat.zero_le _) (by simpa using hseq) rfl, overwrite,
    List.take_zero, List.nil_append, Nat.zero_add, List.drop_replicate]

end Plain

/-- The rows of all ranks. -/
def gatherBshd (settings : BshdSettings) (strict : Bool) (zero : α)
    (sequences : List (List α)) : Except String (List (BshdRows α)) :=
  (List.range settings.cpSize).mapM fun rank =>
    preprocessBshdEngine settings strict rank zero sequences

/-- No rank raises, each of them unpacks the sequences from the gathered rows and
masks, and every token is on exactly one rank. -/
structure BshdRoundTrips (settings : BshdSettings) (strict : Bool) (zero : α)
    (sequences : List (List α)) : Prop where
  unpacks : ∃ gathered : List (BshdRows α), gatherBshd settings strict zero sequences =
    .ok gathered ∧
    ∀ own < settings.cpSize, ∀ garbage,
      postprocessBshdEngine settings strict (gathered.map BshdRows.inputIds)
        (gathered.map BshdRows.attentionMask) own garbage = .ok sequences
  places : ∃ gathered : List (BshdRows (Option (ℕ × ℕ))),
    gatherBshd settings strict none (labelSequences sequences) = .ok gathered ∧
    ∀ i < sequences.length, ∀ k < (sequences.getD i []).length,
      ∃! rank : ℕ, ∃ held : BshdRows (Option (ℕ × ℕ)),
        gathered[rank]? = some held ∧ some (i, k) ∈ held.inputIds.flatten

/-- A sequence with its padding. -/
def paddedRow (maxSeqlen : ℕ) (zero : α) (seq : List α) : List α :=
  seq ++ List.replicate (maxSeqlen - seq.length) zero

/-- The part of a padded sequence, or of its mask, that a rank holds. -/
def rankPart (settings : BshdSettings) (rank maxSeqlen : ℕ) (row : List α) : List α :=
  if 1 < settings.cpSize then
    firstChunk (maxSeqlen / (2 * settings.cpSize)) rank row ++
      secondChunk (maxSeqlen / (2 * settings.cpSize)) rank row
  else row

def rankRow (settings : BshdSettings) (rank maxSeqlen : ℕ) (zero : α) (seq : List α) :
    List α :=
  rankPart settings rank maxSeqlen (paddedRow maxSeqlen zero seq)

def rankMask (settings : BshdSettings) (rank maxSeqlen : ℕ) (seq : List α) : List Bool :=
  rankPart settings rank maxSeqlen
    (paddedRow maxSeqlen false (List.replicate seq.length true))

section Main

variable {settings : BshdSettings} {sequences : List (List α)} {rank : ℕ}

theorem length_paddedRow {maxSeqlen : ℕ} (zero : α) {seq : List α}
    (hseq : seq.length ≤ maxSeqlen) : (paddedRow maxSeqlen zero seq).length = maxSeqlen := by
  rw [paddedRow, List.length_append, List.length_replicate, Nat.add_sub_cancel' hseq]

theorem mem_of_mem_rankPart {maxSeqlen : ℕ} {row : List α} {item : α}
    (hitem : item ∈ rankPart settings rank maxSeqlen row) : item ∈ row := by
  rw [rankPart] at hitem
  split at hitem
  next =>
    rcases List.mem_append.mp hitem with hchunk | hchunk
    · exact mem_of_mem_slice hchunk
    · exact mem_of_mem_slice hchunk
  next => exact hitem

theorem length_rankPart (hrank : rank < settings.cpSize) (lengths : List ℕ) {row : List α}
    (hrow : row.length = settings.maxSeqlen lengths) :
    (rankPart settings rank (settings.maxSeqlen lengths) row).length =
      settings.localMaxSeqlen (settings.maxSeqlen lengths) := by
  rw [rankPart]
  split
  next hcp =>
    have hmax := settings.maxSeqlen_eq hcp lengths
    rw [List.length_append, length_firstChunk hrank (hrow.trans hmax),
      length_secondChunk hrank (hrow.trans hmax), localMaxSeqlen_eq hcp hmax]
  next hcp => rw [hrow, BshdSettings.localMaxSeqlen, if_neg hcp]

theorem le_foldl_max_of_mem {lengths : List ℕ} {length : ℕ} (hlength : length ∈ lengths) :
    length ≤ lengths.foldl max 0 := by
  rw [List.foldl_max_eq_max (List.ne_nil_of_mem hlength)]
  exact (List.le_max_of_mem hlength).trans (le_max_right _ _)

/-- The common length covers every sequence. -/
theorem length_le_maxSeqlen
    (hforced : ∀ length ∈ settings.forcedMaxSeqlen, ∀ seq ∈ sequences, seq.length ≤ length)
    {seq : List α} (hseq : seq ∈ sequences) :
    seq.length ≤ settings.maxSeqlen (sequences.map List.length) := by
  refine le_trans ?_ (settings.rawMaxSeqlen_le_maxSeqlen _)
  rw [BshdSettings.rawMaxSeqlen]
  cases hcase : settings.forcedMaxSeqlen with
  | none => exact le_foldl_max_of_mem (List.mem_map_of_mem hseq)
  | some length => exact hforced length hcase seq hseq

theorem preprocessBshdEngine_eq (strict : Bool) (zero : α)
    (hforced : ∀ length ∈ settings.forcedMaxSeqlen, ∀ seq ∈ sequences, seq.length ≤ length)
    (hmax : settings.forcedMaxSeqlen = none → sequences ≠ [])
    (hrank : rank < settings.cpSize) :
    preprocessBshdEngine settings strict rank zero sequences = .ok {
      inputIds := sequences.map
        (rankRow settings rank (settings.maxSeqlen (sequences.map List.length)) zero)
      attentionMask := sequences.map
        (rankMask settings rank (settings.maxSeqlen (sequences.map List.length)))
      positionIds :=
        localPositions settings rank (settings.maxSeqlen (sequences.map List.length)) } := by
  have hlong := fun seq (hseq : seq ∈ sequences) => length_le_maxSeqlen hforced hseq
  have hrows : sequences.mapM (localRow settings strict rank
      (settings.maxSeqlen (sequences.map List.length)) zero) = .ok (sequences.map
        (rankRow settings rank (settings.maxSeqlen (sequences.map List.length)) zero)) := by
    apply mapM_eq_ok_map
    intro seq hseq
    rw [rankRow, rankPart]
    split
    next hcp =>
      exact localRow_eq strict zero hcp hrank (settings.maxSeqlen_eq hcp _) (hlong seq hseq)
    next hcp => exact localRow_plain strict zero (not_lt.mp hcp) (hlong seq hseq)
  have hmasks : sequences.mapM (fun seq => localMask settings strict rank
      (settings.maxSeqlen (sequences.map List.length)) seq.length) = .ok (sequences.map
        (rankMask settings rank (settings.maxSeqlen (sequences.map List.length)))) := by
    apply mapM_eq_ok_map
    intro seq hseq
    rw [rankMask, rankPart, paddedRow, List.length_replicate]
    split
    next hcp =>
      exact localMask_eq strict hcp hrank (settings.maxSeqlen_eq hcp _) (hlong seq hseq)
    next hcp => exact localMask_plain strict (not_lt.mp hcp) (hlong seq hseq)
  rw [preprocessBshdEngine]
  apply raiseIf_bind_eq_ok.mpr
  refine ⟨by simpa using hmax, ?_⟩
  apply bind_eq_ok.mpr
  refine ⟨_, hrows, ?_⟩
  apply bind_eq_ok.mpr
  exact ⟨_, hmasks, rfl⟩

/-- The parts of all ranks make up a padded sequence. -/
theorem joinHalves_rankPart (strict : Bool) (hcp : 1 < settings.cpSize) (lengths : List ℕ)
    {row buffer : List α} (hrow : row.length = settings.maxSeqlen lengths)
    (hbuffer : buffer.length = row.length) {parts : ℕ → List α}
    (hparts : ∀ rank < settings.cpSize,
      parts rank = rankPart settings rank (settings.maxSeqlen lengths) row) :
    joinHalves strict (settings.maxSeqlen lengths / (2 * settings.cpSize))
        (fun rank => (parts rank).splitAt (settings.maxSeqlen lengths / (2 * settings.cpSize)))
        settings.cpSize buffer =
      .ok row := by
  have hmax := settings.maxSeqlen_eq hcp lengths
  apply joinHalves_chunks strict buffer (hrow.trans hmax) hbuffer
  intro rank hrank
  have hfirst := length_firstChunk hrank (hrow.trans hmax)
  rw [hparts rank hrank, rankPart, if_pos hcp, List.splitAt_eq, List.take_left' hfirst,
    List.drop_left' hfirst]

/-- A rank's rows among those of all ranks. -/
theorem getD_gathered {β : Type} {values : ℕ → List (List β)} {f : ℕ → List α → List β}
    (hvalues : ∀ rank, values rank = sequences.map (f rank)) {i : ℕ}
    (hrank : rank < settings.cpSize) (hi : i < sequences.length) :
    (((List.range settings.cpSize).map values).getD rank []).getD i [] =
      f rank (sequences.getD i []) := by
  have hheld : ((List.range settings.cpSize).map values).getD rank [] =
      sequences.map (f rank) := by
    rw [List.getD_eq_getElem _ _ (by simpa using hrank), List.getElem_map, List.getElem_range,
      hvalues]
  rw [hheld, List.getD_eq_getElem _ _ (by simpa using hi), List.getElem_map,
    List.getD_eq_getElem _ _ hi]

/-- Every sequence is selected from its gathered parts. -/
theorem unpackBshd_eq (strict : Bool) (zero : α)
    (hforced : ∀ length ∈ settings.forcedMaxSeqlen, ∀ seq ∈ sequences, seq.length ≤ length)
    (garbage : ℕ → α) {own i : ℕ} (hown : own < settings.cpSize)
    (hi : i < sequences.length) :
    unpackBshd settings strict
        ((List.range settings.cpSize).map fun rank => sequences.map
          (rankRow settings rank (settings.maxSeqlen (sequences.map List.length)) zero))
        ((List.range settings.cpSize).map fun rank => sequences.map
          (rankMask settings rank (settings.maxSeqlen (sequences.map List.length))))
        own garbage i =
      .ok (sequences.getD i []) := by
  have hmem : sequences.getD i [] ∈ sequences := by
    rw [List.getD_eq_getElem _ _ hi]
    exact List.getElem_mem hi
  have hlong := length_le_maxSeqlen hforced hmem
  have hrow := length_paddedRow zero hlong
  have hmask : (paddedRow (settings.maxSeqlen (sequences.map List.length)) false
      (List.replicate (sequences.getD i []).length true)).length =
        settings.maxSeqlen (sequences.map List.length) :=
    length_paddedRow false (by rwa [List.length_replicate])
  have hselect : maskedSelect
      (paddedRow (settings.maxSeqlen (sequences.map List.length)) zero (sequences.getD i []))
      (paddedRow (settings.maxSeqlen (sequences.map List.length)) false
        (List.replicate (sequences.getD i []).length true)) = sequences.getD i [] := by
    have happend := maskedSelect_append (sequences.getD i [])
      (List.replicate (settings.maxSeqlen (sequences.map List.length) -
        (sequences.getD i []).length) zero)
    rw [List.length_replicate] at happend
    rw [paddedRow, paddedRow, List.length_replicate, happend]
  have hrows := fun rank (hrank : rank < settings.cpSize) => getD_gathered
    (f := fun rank => rankRow settings rank (settings.maxSeqlen (sequences.map List.length)) zero)
    (fun _ => rfl) hrank hi
  have hmasks := fun rank (hrank : rank < settings.cpSize) => getD_gathered
    (f := fun rank => rankMask settings rank (settings.maxSeqlen (sequences.map List.length)))
    (fun _ => rfl) hrank hi
  rw [unpackBshd, hrows own hown, hmasks own hown]
  split
  next hone =>
    rw [rankRow, rankMask, rankPart, rankPart, if_neg (not_lt.mpr hone),
      if_neg (not_lt.mpr hone), hselect]
  next hcp =>
    rw [not_le] at hcp
    have hmax := settings.maxSeqlen_eq hcp (sequences.map List.length)
    have hlocal := length_rankPart hown (sequences.map List.length) hrow
    rw [localMaxSeqlen_eq hcp hmax, ← Nat.two_mul] at hlocal
    have hhalf : (2 * (settings.maxSeqlen (sequences.map List.length) /
        (2 * settings.cpSize))) / 2 =
          settings.maxSeqlen (sequences.map List.length) / (2 * settings.cpSize) :=
      Nat.mul_div_cancel_left _ (by decide)
    have hfull : 2 * (settings.maxSeqlen (sequences.map List.length) /
        (2 * settings.cpSize)) * settings.cpSize =
          settings.maxSeqlen (sequences.map List.length) := by
      conv_rhs => rw [hmax]
      rw [Nat.mul_assoc, Nat.mul_comm settings.cpSize]
    rw [rankRow, hlocal]
    apply raiseIf_bind_eq_ok.mpr
    refine ⟨by omega, ?_⟩
    rw [hhalf, hfull]
    apply bind_eq_ok.mpr
    refine ⟨_, joinHalves_rankPart strict hcp _ hrow (by simpa using hrow.symm) hrows, ?_⟩
    apply bind_eq_ok.mpr
    refine ⟨_, joinHalves_rankPart strict hcp _ hmask (by simpa using hmask.symm) hmasks, ?_⟩
    rw [hselect]
    rfl

/-- A token is on exactly one rank. -/
theorem existsUnique_rankRow
    (hforced : ∀ length ∈ settings.forcedMaxSeqlen, ∀ seq ∈ sequences, seq.length ≤ length)
    {i k : ℕ} (hi : i < sequences.length) (hk : k < (sequences.getD i []).length) :
    ∃! rank, rank < settings.cpSize ∧ some (i, k) ∈ ((labelSequences sequences).map
      (rankRow settings rank (settings.maxSeqlen (sequences.map List.length)) none)).flatten := by
  have hplace : ∀ j < sequences.length, ∀ index : ℕ,
      (paddedRow (settings.maxSeqlen (sequences.map List.length)) none
        ((labelSequences sequences).getD j []))[index]? = some (some (i, k)) ↔
          j = i ∧ index = k := by
    intro j hj index
    rw [paddedRow, List.getElem?_append, length_labelSequences_getD hj]
    by_cases hindex : index < (sequences.getD j []).length
    · rw [if_pos hindex, getElem?_labelSequences hj]
      constructor
      · rintro ⟨-, hlabel⟩
        obtain ⟨rfl, rfl⟩ := Prod.mk.inj hlabel
        exact ⟨rfl, rfl⟩
      · rintro ⟨rfl, rfl⟩
        exact ⟨hindex, rfl⟩
    · rw [if_neg hindex]
      constructor
      · intro hnone
        rw [List.getElem?_replicate] at hnone
        split at hnone <;> cases hnone
      · rintro ⟨rfl, rfl⟩
        exact absurd hk hindex
  have hmem : ∀ rank, some (i, k) ∈ ((labelSequences sequences).map
      (rankRow settings rank (settings.maxSeqlen (sequences.map List.length)) none)).flatten ↔
        some (i, k) ∈ rankRow settings rank (settings.maxSeqlen (sequences.map List.length)) none
          ((labelSequences sequences).getD i []) := by
    intro rank
    rw [List.mem_flatten]
    constructor
    · rintro ⟨row, hrow, hitem⟩
      obtain ⟨seq, hseq, rfl⟩ := List.mem_map.mp hrow
      obtain ⟨j, hj, rfl⟩ := List.mem_iff_getElem.mp hseq
      rw [length_labelSequences] at hj
      rw [← List.getD_eq_getElem _ [] (by simpa using hj)] at hitem
      obtain ⟨index, hindex⟩ := List.mem_iff_getElem?.mp (mem_of_mem_rankPart hitem)
      obtain ⟨rfl, -⟩ := (hplace j hj index).mp hindex
      exact hitem
    · intro hitem
      refine ⟨_, List.mem_map_of_mem ?_, hitem⟩
      rw [List.getD_eq_getElem _ _ (by simpa using hi)]
      exact List.getElem_mem _
  have hlong : ((labelSequences sequences).getD i []).length ≤
      settings.maxSeqlen (sequences.map List.length) := by
    rw [length_labelSequences_getD hi]
    apply length_le_maxSeqlen hforced
    rw [List.getD_eq_getElem _ _ hi]
    exact List.getElem_mem hi
  have hrow := length_paddedRow none hlong
  rw [length_labelSequences_getD hi] at hlong
  simp only [hmem]
  by_cases hcp : 1 < settings.cpSize
  · have hmax := settings.maxSeqlen_eq hcp (sequences.map List.length)
    have hbound := hk.trans_le (hlong.trans_eq hmax)
    have hhalf : 0 < settings.maxSeqlen (sequences.map List.length) /
        (2 * settings.cpSize) := by
      apply Nat.pos_of_ne_zero
      intro hzero
      rw [hzero] at hbound
      simp at hbound
    have hheld : ∀ rank < settings.cpSize,
        (some (i, k) ∈ rankRow settings rank (settings.maxSeqlen (sequences.map List.length))
          none ((labelSequences sequences).getD i []) ↔
            rankOf (settings.maxSeqlen (sequences.map List.length) / (2 * settings.cpSize))
              (2 * (settings.cpSize * (settings.maxSeqlen (sequences.map List.length) /
                (2 * settings.cpSize)))) k = rank) := by
      intro rank hrank
      rw [rankRow, rankPart, if_pos hcp, mem_chunks hhalf hrank (hrow.trans hmax),
        hrow.trans hmax]
      constructor
      · rintro ⟨index, hindex, hrankOf⟩
        obtain ⟨-, rfl⟩ := (hplace i hi index).mp hindex
        exact hrankOf
      · intro hrankOf
        exact ⟨k, (hplace i hi k).mpr ⟨rfl, rfl⟩, hrankOf⟩
    refine ⟨_, ⟨rankOf_lt hbound, (hheld _ (rankOf_lt hbound)).mpr rfl⟩, ?_⟩
    rintro other ⟨hother, hitem⟩
    exact ((hheld other hother).mp hitem).symm
  · have hone : settings.cpSize = 1 := (not_lt.mp hcp).antisymm settings.cpSize_pos
    refine ⟨0, ⟨settings.cpSize_pos, ?_⟩, ?_⟩
    · rw [rankRow, rankPart, if_neg hcp]
      exact List.mem_of_getElem? ((hplace i hi k).mpr ⟨rfl, rfl⟩)
    · rintro other ⟨hother, -⟩
      omega

/-- Padding a batch on all ranks and unpacking it gives the sequences back, also
when no slice may leave its buffer. -/
theorem bshdRoundTrips (settings : BshdSettings) (strict : Bool) (zero : α)
    (sequences : List (List α))
    (hforced : ∀ length ∈ settings.forcedMaxSeqlen, ∀ seq ∈ sequences, seq.length ≤ length)
    (hmax : settings.forcedMaxSeqlen = none → sequences ≠ []) :
    BshdRoundTrips settings strict zero sequences := by
  have hgather : ∀ {β : Type} (zero : β) (sequences : List (List β)),
      (∀ length ∈ settings.forcedMaxSeqlen, ∀ seq ∈ sequences, seq.length ≤ length) →
      (settings.forcedMaxSeqlen = none → sequences ≠ []) →
      gatherBshd settings strict zero sequences =
        .ok ((List.range settings.cpSize).map fun rank => {
          inputIds := sequences.map
            (rankRow settings rank (settings.maxSeqlen (sequences.map List.length)) zero)
          attentionMask := sequences.map
            (rankMask settings rank (settings.maxSeqlen (sequences.map List.length)))
          positionIds :=
            localPositions settings rank (settings.maxSeqlen (sequences.map List.length)) }) := by
    intro β zero sequences hforced hmax
    apply mapM_eq_ok_map
    intro rank hrank
    exact preprocessBshdEngine_eq strict zero hforced hmax (List.mem_range.mp hrank)
  constructor
  · refine ⟨_, hgather zero sequences hforced hmax, ?_⟩
    intro own hown garbage
    have hsequences : (List.range sequences.length).map (fun i => sequences.getD i []) =
        sequences := by
      apply List.ext_getElem
      · simp
      · intro i hleft hright
        simp [hright]
    have hown' : ((List.range settings.cpSize).map fun rank => sequences.map (rankRow settings
        rank (settings.maxSeqlen (sequences.map List.length)) zero)).getD own [] =
        sequences.map (rankRow settings own
          (settings.maxSeqlen (sequences.map List.length)) zero) := by
      rw [List.getD_eq_getElem _ _ (by simpa using hown), List.getElem_map, List.getElem_range]
    have hmask' : ((List.range settings.cpSize).map fun rank => sequences.map (rankMask settings
        rank (settings.maxSeqlen (sequences.map List.length)))).getD own [] =
        sequences.map (rankMask settings own
          (settings.maxSeqlen (sequences.map List.length))) := by
      rw [List.getD_eq_getElem _ _ (by simpa using hown), List.getElem_map, List.getElem_range]
    rw [postprocessBshdEngine, List.map_map, List.map_map]
    apply raiseIf_bind_eq_ok.mpr
    refine ⟨?_, ?_⟩
    · simp only [Function.comp_def, hown', hmask', List.map_map, not_not]
      apply List.map_congr_left
      intro seq hseq
      have hlong := length_le_maxSeqlen hforced hseq
      simp only [rankRow, rankMask]
      rw [length_rankPart hown _ (length_paddedRow zero hlong),
        length_rankPart hown _ (length_paddedRow false (by rwa [List.length_replicate]))]
    · simp only [Function.comp_def, hown', List.length_map]
      conv_rhs => rw [← hsequences]
      apply mapM_eq_ok_map
      intro i hi
      exact unpackBshd_eq strict zero hforced garbage hown (List.mem_range.mp hi)
  · have hlabelled : ∀ length ∈ settings.forcedMaxSeqlen,
        ∀ seq ∈ labelSequences sequences, seq.length ≤ length := by
      intro length hlength seq hseq
      obtain ⟨i, hi, rfl⟩ := List.mem_map.mp hseq
      rw [List.length_map, List.length_range]
      apply hforced length hlength
      rw [List.getD_eq_getElem _ _ (List.mem_range.mp hi)]
      exact List.getElem_mem _
    have hlabels : settings.forcedMaxSeqlen = none → labelSequences sequences ≠ [] := by
      intro hnone
      simpa [labelSequences] using hmax hnone
    refine ⟨_, hgather none (labelSequences sequences) hlabelled hlabels, ?_⟩
    intro i hi k hk
    rw [map_length_labelSequences]
    exact existsUnique_gathered (existsUnique_rankRow hforced hi hk)

/-- Both padded formats give a batch back, whether or not slices are checked. -/
theorem paddedFormats_roundTrip (strict : Bool) (zero : α) :
    (∀ (settings : PackedSettings) (batch : MaskedBatch α),
      PackedRoundTrips settings strict zero batch) ∧
    (∀ (settings : BshdSettings) (sequences : List (List α)),
      (∀ length ∈ settings.forcedMaxSeqlen, ∀ seq ∈ sequences, seq.length ≤ length) →
      (settings.forcedMaxSeqlen = none → sequences ≠ []) →
        BshdRoundTrips settings strict zero sequences) :=
  ⟨fun settings batch => packedRoundTrips settings strict zero batch,
    fun settings sequences => bshdRoundTrips settings strict zero sequences⟩

theorem twoRanks_paddedFormats :
    PackedRoundTrips
      { tpSize := 1, cpSize := 2, useFp8Padding := true, tpSize_pos := by decide,
        cpSize_pos := by decide } true 0
      { inputIds := [[0, 11, 12], [21, 0, 0]],
        attentionMask := [[false, true, true], [true, false, false]], seqLen := 3,
        nonempty := by decide, length_eq := by decide, row_length := by decide,
        mask_length := by decide, valid := by decide } ∧
    BshdRoundTrips
      { tpSize := 1, cpSize := 2, useFp8Padding := false, forcedMaxSeqlen := some 3,
        tpSize_pos := by decide, cpSize_pos := by decide } true 0
      [[11, 12], [21]] :=
  ⟨(paddedFormats_roundTrip true 0).1 _ _, (paddedFormats_roundTrip true 0).2 _ _
    (by simp) (by simp)⟩

end Main

end OneShotOPD.Mcore
