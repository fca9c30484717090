import OneShotOPD.Mcore.ThdRoll
import Mathlib

/-!
# Where the rolled labels are the next tokens

A rank rolls its rows by one and patches the last row of every chunk, so every
token finds the one behind it in its own row when the chunks from the front end
inside the last sequence and no row is left between its chunks.
-/

namespace OneShotOPD.Mcore

open Segments SliceAssign Checks

variable {α : Type}

/-- All labels are the next tokens: the token of a row of a rank is followed in its
sequence by the label of the row, and every token with a next one has a row. -/
def RollsLabels (settings : ThdSettings) (batch : Batch α) : Prop :=
  ∃ tokens labels : ℕ → PackedRows (Option (ℕ × ℕ)),
    (∀ rank < settings.cpSize,
      preprocessThdEngine settings rank none batch.labelled.sequences = .ok (tokens rank) ∧
      preprocessThdEngineRolled settings rank none batch.labelled.sequences =
        .ok (labels rank)) ∧
    ∀ i < batch.sequences.length, ∀ k, k + 1 < (batch.sequences.getD i []).length →
      (∃ rank < settings.cpSize, some (i, k) ∈ (tokens rank).rows) ∧
      ∀ rank < settings.cpSize, ∀ row : ℕ, (tokens rank).rows[row]? = some (some (i, k)) →
        (labels rank).rows[row]? = some (some (i, k + 1))

/-- The chunks of the last sequence, with the token behind them, lie within it. -/
def RollFits (settings : ThdSettings) (lengths : List ℕ) : Prop :=
  settings.cpLayout = .zigzag → 1 < settings.cpSize →
    settings.cpSize * (settings.paddedLast lengths / settings.cpSize / 2) <
        max (lengths.getLastD 0) settings.alignSize ∧
      (lengths.getLastD 0 ≤
          settings.cpSize * (settings.paddedLast lengths / settings.cpSize / 2) + 1 ∨
        2 * settings.cpSize ∣ settings.paddedLast lengths)

instance (settings : ThdSettings) (lengths : List ℕ) : Decidable (RollFits settings lengths) :=
  inferInstanceAs (Decidable (_ → _ → _ ∧ (_ ∨ _)))

/-! ## The rows of one sequence -/

/-- The token that a row of the two chunks holds. -/
def chunkPosition (half rank seqlenPadded inner : ℕ) : ℕ :=
  if inner < half then rank * half + inner
  else seqlenPadded - (rank + 1) * half + (inner - half)

theorem getElem?_paddedChunks {cpSize rank : ℕ} (zero : α) {tokens : List α} {seqlenPadded : ℕ}
    (hrank : rank < cpSize) (hlength : tokens.length ≤ seqlenPadded) (inner : ℕ) :
    (paddedChunks cpSize rank zero tokens seqlenPadded)[inner]? =
      if inner < 2 * (seqlenPadded / cpSize / 2) then
        (tokens ++ List.replicate (seqlenPadded - tokens.length) zero)[
          chunkPosition (seqlenPadded / cpSize / 2) rank seqlenPadded inner]?
      else (List.replicate (seqlenPadded / cpSize - 2 * (seqlenPadded / cpSize / 2)) zero)[
        inner - 2 * (seqlenPadded / cpSize / 2)]? := by
  have hitems : (tokens ++ List.replicate (seqlenPadded - tokens.length) zero).length =
      seqlenPadded := by
    rw [List.length_append, List.length_replicate, Nat.add_sub_cancel' hlength]
  have hchunk : 2 * (seqlenPadded / cpSize / 2) ≤ seqlenPadded / cpSize := Nat.mul_div_le _ _
  have hall : cpSize * (seqlenPadded / cpSize) ≤ seqlenPadded := Nat.mul_div_le _ _
  rw [paddedChunks, chunkPosition]
  generalize seqlenPadded / cpSize = chunk at hchunk hall ⊢
  generalize chunk / 2 = half at hchunk ⊢
  have hreach : (rank + 1) * half ≤ cpSize * half := Nat.mul_le_mul_right half hrank
  have htwo : cpSize * half ≤ cpSize * chunk := Nat.mul_le_mul_left _ (by omega)
  have hstep : (rank + 1) * half = rank * half + half := Nat.succ_mul rank half
  rw [List.getElem?_append, length_slice (by rw [hitems]; omega), List.getElem?_append,
    length_slice (by rw [hitems]; omega), getElem?_slice, getElem?_slice]
  have hback : seqlenPadded - rank * half - (seqlenPadded - (rank + 1) * half) = half := by omega
  rw [hback, hstep, Nat.add_sub_cancel_left]
  by_cases hfront : inner < half
  · rw [if_pos hfront, if_pos (by omega), if_pos (by omega), if_pos hfront]
  · rw [if_neg hfront, if_neg hfront]
    by_cases hinside : inner < 2 * half
    · rw [if_pos (by omega), if_pos (by omega), if_pos hinside]
    · rw [if_neg (by omega), if_neg hinside]
      congr 1
      omega

section Batch

variable {settings : ThdSettings} {batch : Batch α} {rank i : ℕ}

/-- The rows of each chunk of a sequence. -/
def halfSeqlen (settings : ThdSettings) (lengths : List ℕ) (i : ℕ) : ℕ :=
  settings.seqlenPadded lengths i / settings.cpSize / 2

/-- A row of a chunk holds its token. -/
theorem getElem?_chunksOf_labelled (hrank : rank < settings.cpSize)
    (hi : i < batch.sequences.length) {inner : ℕ} {label : ℕ × ℕ} :
    (chunksOf settings rank none batch.labelled i)[inner]? = some (some label) ↔
      inner < 2 * halfSeqlen settings batch.lengths i ∧
        chunkPosition (halfSeqlen settings batch.lengths i) rank
          (settings.seqlenPadded batch.lengths i) inner < (batch.sequences.getD i []).length ∧
        label = (i, chunkPosition (halfSeqlen settings batch.lengths i) rank
          (settings.seqlenPadded batch.lengths i) inner) := by
  have hlength : (batch.labelled.sequences.getD i []).length = (batch.sequences.getD i []).length :=
    length_labelSequences_getD hi
  rw [chunksOf, batch.lengths_labelled, getElem?_paddedChunks none hrank
    (hlength.trans_le (length_le_seqlenPadded settings hi)), halfSeqlen]
  split
  next hinner =>
    rw [List.getElem?_append, hlength]
    split
    next hposition =>
      have hlabel := @getElem?_labelSequences α batch.sequences i hi
        (chunkPosition (settings.seqlenPadded batch.lengths i / settings.cpSize / 2) rank
          (settings.seqlenPadded batch.lengths i) inner) label
      exact hlabel.trans (iff_and_self.mpr fun _ => hinner)
    next hposition =>
      rw [List.getElem?_replicate]
      constructor
      · intro hlabel
        split at hlabel <;> cases hlabel
      · exact fun h => absurd h.2.1 hposition
  next hinner =>
    rw [List.getElem?_replicate]
    constructor
    · intro hlabel
      split at hlabel <;> cases hlabel
    · exact fun h => absurd h.1 hinner

/-! ## What is rolled and saved -/

def startRow (settings : ThdSettings) (lengths : List ℕ) (i : ℕ) : ℕ :=
  offset (settings.paddedLengths lengths) i / settings.cpSize

/-- What is saved for one sequence. -/
def rollEntriesOf (settings : ThdSettings) (rank : ℕ) (zero : α) (batch : Batch α) (i : ℕ) :
    List (ℤ × α) :=
  rollEntries settings.cpSize rank settings.alignSize zero (batch.sequences.getD i [])
    (settings.seqlenPadded batch.lengths i) (offset (settings.paddedLengths batch.lengths) i)

/-- The chunks from the front end inside every sequence. -/
theorem reach_of_rollFits (hlayout : settings.cpLayout = .zigzag) (hcp : 1 < settings.cpSize)
    (hfit : RollFits settings batch.lengths) (hrank : rank < settings.cpSize)
    (hi : i < batch.sequences.length) :
    (rank + 1) * halfSeqlen settings batch.lengths i <
      max (batch.sequences.getD i []).length settings.alignSize := by
  have hle : (rank + 1) * halfSeqlen settings batch.lengths i ≤
      settings.cpSize * halfSeqlen settings batch.lengths i := Nat.mul_le_mul_right _ hrank
  refine hle.trans_lt ?_
  rw [← batch.lengths_getD, halfSeqlen]
  rcases Nat.lt_or_eq_of_le (Nat.succ_le_of_lt (hi.trans_eq batch.length_lengths.symm)) with
    hlt | hlast
  · have hchunks := settings.chunksFit_of_lt hlayout hcp hlt
    have hround := roundUp_lt settings.alignSize_pos (batch.lengths.getD i 0)
    have htwo := hchunks.eq_two_mul
    rw [← settings.seqlenPadded_of_lt hlt] at hround
    omega
  · have hget : batch.lengths.getD i 0 = batch.lengths.getLastD 0 := by
      rw [List.getLastD_eq_getLast?, List.getLast?_eq_getElem?, ← hlast, Nat.succ_sub_one,
        List.getD_eq_getElem?_getD]
    rw [settings.seqlenPadded_last hlast, hget]
    exact (hfit hlayout hcp).1

theorem lastFrontFits_of_rollFits (hlayout : settings.cpLayout = .zigzag)
    (hcp : 1 < settings.cpSize) {lengths : List ℕ} (hfit : RollFits settings lengths) :
    LastFrontFits settings lengths :=
  .inl (hfit hlayout hcp).1.le

/-- One sequence is written as without the rolling, and its tokens are saved. -/
theorem rollSequence_eq (zero : α) (hlayout : settings.cpLayout = .zigzag)
    (hcp : 1 < settings.cpSize) (hfit : RollFits settings batch.lengths)
    (hrank : rank < settings.cpSize) (hi : i < batch.sequences.length)
    (state : List α × Dict ℤ α) :
    rollSequence settings rank zero state (batch.sequences.getD i [])
        ((settings.packed batch.lengths).seqlensInBatchPadded.getD i 0)
        ((settings.packed batch.lengths).cuSeqlensPadded.getD i 0) = do
      let rows ← writeSequence settings rank zero state.1 (batch.sequences.getD i [])
        ((settings.packed batch.lengths).seqlensInBatchPadded.getD i 0)
        ((settings.packed batch.lengths).cuSeqlensPadded.getD i 0)
      return (rows, (rollEntriesOf settings rank zero batch i).foldl
        (fun dict entry => dict.insert entry.1 entry.2) state.2) := by
  have hsaved := saveRolls_eq zero (offset (settings.paddedLengths batch.lengths) i) state.2
    (reach_of_rollFits hlayout hcp hfit hrank hi)
  rw [rollSequence, writeSequence, hlayout]
  simp only [if_neg (not_le.mpr hcp)]
  refine congrArg (bind _) (funext fun rows => ?_)
  rw [cuSeqlensPadded_getD]
  change (do
    let saved ← saveRolls settings.cpSize rank settings.alignSize zero
      (batch.sequences.getD i []) (settings.seqlenPadded batch.lengths i)
      (offset (settings.paddedLengths batch.lengths) i) state.2
    return (rows, saved)) = _
  rw [hsaved]
  rfl

/-- The rows of a rank before the rolling, with all that is saved. -/
theorem rollSequences_eq (zero : α) (hlayout : settings.cpLayout = .zigzag)
    (hcp : 1 < settings.cpSize) (hrank : rank < settings.cpSize)
    (hbucket : ∀ bucket ∈ settings.padToLengthBucket, 0 < bucket)
    (hfit : RollFits settings batch.lengths) :
    rollSequences settings rank zero batch.sequences (settings.packed batch.lengths) =
      .ok ((List.range batch.sequences.length).flatMap (chunksOf settings rank zero batch),
        Dict.ofList ((List.range batch.sequences.length).flatMap
          (rollEntriesOf settings rank zero batch))) := by
  have hrows := writeSequences_chunksOf zero hlayout hcp hrank hbucket
    (lastFrontFits_of_rollFits hlayout hcp hfit)
  have hpair := @foldlM_pair _ _ _ _
    (fun rows i => writeSequence settings rank zero rows (batch.sequences.getD i [])
      ((settings.packed batch.lengths).seqlensInBatchPadded.getD i 0)
      ((settings.packed batch.lengths).cuSeqlensPadded.getD i 0))
    (fun saved i => (rollEntriesOf settings rank zero batch i).foldl
      (fun dict entry => dict.insert entry.1 entry.2) saved) _ _
    (fun i hi state =>
      rollSequence_eq zero hlayout hcp hfit hrank (List.mem_range.mp hi) state)
    (List.replicate ((settings.packed batch.lengths).seqlensInBatchPadded.sum / settings.cpSize)
      zero, (Dict.empty : Dict ℤ α))
  rw [writeSequences] at hrows
  rw [rollSequences, hpair, hrows, Dict.ofList, List.foldl_flatMap]
  rfl

/-! ## The places of the saved tokens -/

theorem halfSeqlen_pos (hlayout : settings.cpLayout = .zigzag) (hcp : 1 < settings.cpSize)
    (hi : i < batch.sequences.length) : 0 < halfSeqlen settings batch.lengths i := by
  have halign : 2 * settings.cpSize ≤ settings.alignSize :=
    Nat.le_of_dvd settings.alignSize_pos (settings.two_mul_cpSize_dvd_alignSize hlayout hcp)
  have hlong : settings.alignSize ≤ settings.seqlenPadded batch.lengths i :=
    (le_max_right _ _).trans (max_le_seqlenPadded settings hi)
  apply Nat.div_pos _ (by decide)
  rw [Nat.le_div_iff_mul_le settings.cpSize_pos]
  exact halign.trans hlong

/-- The chunks of a sequence end before the next one. -/
theorem startRow_succ (hbucket : ∀ bucket ∈ settings.padToLengthBucket, 0 < bucket)
    (hi : i < batch.sequences.length) :
    startRow settings batch.lengths i + 2 * halfSeqlen settings batch.lengths i ≤
      startRow settings batch.lengths (i + 1) := by
  have hlength := settings.length_paddedLengths batch.lengths_ne_nil
  rw [batch.length_lengths] at hlength
  have hi' : i < (settings.paddedLengths batch.lengths).length := hi.trans_eq hlength.symm
  have hdvd : settings.cpSize ∣ settings.seqlenPadded batch.lengths i := by
    rw [ThdSettings.seqlenPadded, List.getD_eq_getElem _ _ hi']
    exact settings.cpSize_dvd_paddedLengths batch.lengths hbucket _ (List.getElem_mem hi')
  rw [startRow, startRow, offset_seqlenPadded settings hi, Nat.add_div_of_dvd_left hdvd]
  exact Nat.add_le_add_left (Nat.mul_div_le _ _) _

theorem startRow_mono (hbucket : ∀ bucket ∈ settings.padToLengthBucket, 0 < bucket) {j : ℕ}
    (hji : j ≤ i) (hi : i ≤ batch.sequences.length) :
    startRow settings batch.lengths j ≤ startRow settings batch.lengths i := by
  induction i, hji using Nat.le_induction with
  | base => exact le_rfl
  | succ i hji ih =>
      exact (ih (Nat.le_of_succ_le hi)).trans
        ((Nat.le_add_right _ _).trans (startRow_succ hbucket hi))

/-- The keys of a sequence are the last rows of its chunks. -/
theorem mem_keys_rollEntriesOf {zero : α} (hhalf : 0 < halfSeqlen settings batch.lengths i)
    {key : ℤ} :
    key ∈ (rollEntriesOf settings rank zero batch i).map Prod.fst ↔
      ∃ inner, key = (startRow settings batch.lengths i + inner : ℕ) ∧
        (inner + 1 = halfSeqlen settings batch.lengths i ∨
          settings.seqlenPadded batch.lengths i -
              halfSeqlen settings batch.lengths i * (rank + 1) <
            min (settings.seqlenPadded batch.lengths i -
                halfSeqlen settings batch.lengths i * rank)
              (max (batch.sequences.getD i []).length settings.alignSize) ∧
          inner + 1 = halfSeqlen settings batch.lengths i +
            (min (settings.seqlenPadded batch.lengths i -
                  halfSeqlen settings batch.lengths i * rank)
                (max (batch.sequences.getD i []).length settings.alignSize) -
              (settings.seqlenPadded batch.lengths i -
                halfSeqlen settings batch.lengths i * (rank + 1)))) := by
  rw [rollEntriesOf, rollEntries]
  simp only [length_padToAlign, List.map_cons, List.mem_cons]
  rw [show settings.seqlenPadded batch.lengths i / settings.cpSize / 2 =
    halfSeqlen settings batch.lengths i from rfl,
    show offset (settings.paddedLengths batch.lengths) i / settings.cpSize =
      startRow settings batch.lengths i from rfl]
  split
  next hremain =>
    rw [List.map_singleton, List.mem_singleton]
    constructor
    · rintro (rfl | rfl)
      · exact ⟨halfSeqlen settings batch.lengths i - 1, by omega, .inl (by omega)⟩
      · exact ⟨_, by omega, .inr ⟨hremain, Nat.sub_add_cancel (by omega)⟩⟩
    · rintro ⟨inner, rfl, hinner | ⟨-, hinner⟩⟩
      · exact .inl (by omega)
      · exact .inr (by omega)
  next hremain =>
    rw [List.map_nil]
    constructor
    · rintro (rfl | hmem)
      · exact ⟨halfSeqlen settings batch.lengths i - 1, by omega, .inl (by omega)⟩
      · exact absurd hmem List.not_mem_nil
    · rintro ⟨inner, rfl, hinner | ⟨hlt, -⟩⟩
      · exact .inl (by omega)
      · exact absurd hlt hremain

theorem row_of_mem_keys {zero : α} (hhalf : 0 < halfSeqlen settings batch.lengths i) {key : ℤ}
    (hkey : key ∈ (rollEntriesOf settings rank zero batch i).map Prod.fst) :
    ∃ inner < 2 * halfSeqlen settings batch.lengths i,
      key = (startRow settings batch.lengths i + inner : ℕ) := by
  obtain ⟨inner, rfl, hinner⟩ := (mem_keys_rollEntriesOf hhalf).mp hkey
  have hstep := Nat.mul_succ (halfSeqlen settings batch.lengths i) rank
  refine ⟨inner, ?_, rfl⟩
  rcases hinner with hfront | ⟨-, hback⟩
  · omega
  · rw [Nat.mul_succ] at hback
    omega

theorem nodup_keys_rollEntriesOf {zero : α} :
    ((rollEntriesOf settings rank zero batch i).map Prod.fst).Nodup := by
  rw [rollEntriesOf, rollEntries]
  simp only [List.map_cons]
  split
  next hremain =>
    rw [List.map_singleton, List.nodup_cons, List.mem_singleton]
    exact ⟨by omega, List.nodup_singleton _⟩
  next => exact List.nodup_singleton _

/-- The rows of different sequences are different. -/
theorem eq_of_startRow_add (hbucket : ∀ bucket ∈ settings.padToLengthBucket, 0 < bucket)
    {j inner other : ℕ} (hi : i < batch.sequences.length) (hj : j < batch.sequences.length)
    (hinner : inner < 2 * halfSeqlen settings batch.lengths i)
    (hother : other < 2 * halfSeqlen settings batch.lengths j)
    (hsame : startRow settings batch.lengths i + inner =
      startRow settings batch.lengths j + other) : i = j := by
  have hbelow : ∀ {i j inner other : ℕ}, i < batch.sequences.length →
      j < batch.sequences.length → inner < 2 * halfSeqlen settings batch.lengths i →
      startRow settings batch.lengths i + inner = startRow settings batch.lengths j + other →
      ¬ i < j := by
    intro i j inner other hi hj hinner hsame hlt
    have hsucc := startRow_succ hbucket hi
    have hmono : startRow settings batch.lengths (i + 1) ≤ startRow settings batch.lengths j :=
      startRow_mono hbucket hlt hj.le
    omega
  rcases Nat.lt_trichotomy i j with hlt | heq | hgt
  · exact absurd hlt (hbelow hi hj hinner hsame)
  · exact heq
  · exact absurd hgt (hbelow hj hi hother hsame.symm)

theorem nodup_saved {zero : α} (hlayout : settings.cpLayout = .zigzag)
    (hcp : 1 < settings.cpSize)
    (hbucket : ∀ bucket ∈ settings.padToLengthBucket, 0 < bucket) :
    (((List.range batch.sequences.length).flatMap
      (rollEntriesOf settings rank zero batch)).map Prod.fst).Nodup := by
  rw [List.map_flatMap, List.nodup_flatMap]
  refine ⟨fun i _ => nodup_keys_rollEntriesOf, ?_⟩
  refine List.nodup_range.pairwise_of_forall_ne fun i hi j hj hne => ?_
  rw [List.mem_range] at hi hj
  intro key hkeyI hkeyJ
  obtain ⟨inner, hinner, rfl⟩ := row_of_mem_keys (halfSeqlen_pos hlayout hcp hi) hkeyI
  obtain ⟨other, hother, hsame⟩ := row_of_mem_keys (halfSeqlen_pos hlayout hcp hj) hkeyJ
  exact hne (eq_of_startRow_add hbucket hi hj hinner hother (Int.natCast_inj.mp hsame))

/-- A row of a sequence that is not saved there is not saved at all. -/
theorem not_mem_saved {zero : α} (hlayout : settings.cpLayout = .zigzag)
    (hcp : 1 < settings.cpSize)
    (hbucket : ∀ bucket ∈ settings.padToLengthBucket, 0 < bucket)
    (hi : i < batch.sequences.length) {inner : ℕ}
    (hinner : inner < 2 * halfSeqlen settings batch.lengths i)
    (hown : ((startRow settings batch.lengths i + inner : ℕ) : ℤ) ∉
      (rollEntriesOf settings rank zero batch i).map Prod.fst) :
    ((startRow settings batch.lengths i + inner : ℕ) : ℤ) ∉
      ((List.range batch.sequences.length).flatMap
        (rollEntriesOf settings rank zero batch)).map Prod.fst := by
  rw [List.map_flatMap, List.mem_flatMap]
  rintro ⟨j, hj, hkey⟩
  rw [List.mem_range] at hj
  obtain ⟨other, hother, hsame⟩ := row_of_mem_keys (halfSeqlen_pos hlayout hcp hj) hkey
  obtain rfl := eq_of_startRow_add hbucket hi hj hinner hother (Int.natCast_inj.mp hsame)
  exact hown hkey

/-- The rows of a rank after the rolling. -/
theorem patchRows_saved (zero : α) (hlayout : settings.cpLayout = .zigzag)
    (hcp : 1 < settings.cpSize) (hrank : rank < settings.cpSize)
    (hbucket : ∀ bucket ∈ settings.padToLengthBucket, 0 < bucket) :
    ∃ patched, patchRows
        (((List.range batch.sequences.length).flatMap
          (chunksOf settings rank zero batch)).rotate 1)
        (Dict.ofList ((List.range batch.sequences.length).flatMap
          (rollEntriesOf settings rank zero batch))).entries = .ok patched ∧
      (∀ i < batch.sequences.length, ∀ inner < 2 * halfSeqlen settings batch.lengths i,
        ((startRow settings batch.lengths i + inner : ℕ) : ℤ) ∉
            (rollEntriesOf settings rank zero batch i).map Prod.fst →
        patched[startRow settings batch.lengths i + inner]? =
          (((List.range batch.sequences.length).flatMap
            (chunksOf settings rank zero batch)).rotate 1)[
              startRow settings batch.lengths i + inner]?) ∧
      ∀ i < batch.sequences.length, ∀ (index : ℕ) (value : α),
        ((index : ℤ), value) ∈ rollEntriesOf settings rank zero batch i →
        patched[index]? = some value := by
  have hnodup : (((List.range batch.sequences.length).flatMap
      (rollEntriesOf settings rank zero batch)).map Prod.fst).Nodup :=
    nodup_saved hlayout hcp hbucket
  rw [Dict.entries_ofList hnodup]
  have hrange : ∀ entry ∈ (List.range batch.sequences.length).flatMap
      (rollEntriesOf settings rank zero batch), ∃ index : ℕ, entry.1 = index ∧
        index < (((List.range batch.sequences.length).flatMap
          (chunksOf settings rank zero batch)).rotate 1).length := by
    intro entry hentry
    obtain ⟨i, hi, hmem⟩ := List.mem_flatMap.mp hentry
    rw [List.mem_range] at hi
    obtain ⟨inner, hinner, hkey⟩ := row_of_mem_keys (halfSeqlen_pos hlayout hcp hi)
      (List.mem_map_of_mem hmem)
    refine ⟨_, hkey, ?_⟩
    have hsucc := startRow_succ hbucket hi
    have hmono := startRow_mono hbucket (Nat.succ_le_of_lt hi) le_rfl
    rw [List.length_rotate, length_flatMap_chunksOf zero hrank hbucket le_rfl]
    exact (Nat.add_lt_add_left hinner _).trans_le (hsucc.trans hmono)
  obtain ⟨patched, hpatched, hothers, hvalues⟩ := patchRows_eq_ok hnodup hrange
  refine ⟨patched, hpatched, fun i hi inner hinner hown =>
    hothers _ (not_mem_saved hlayout hcp hbucket hi hinner hown),
    fun i hi index value hmem => hvalues index value ?_⟩
  exact List.mem_flatMap.mpr ⟨i, List.mem_range.mpr hi, hmem⟩

/-! ## The zigzag layout -/

theorem length_labelled_getD (hi : i < batch.sequences.length) :
    (batch.labelled.sequences.getD i []).length = (batch.sequences.getD i []).length :=
  length_labelSequences_getD hi

theorem getD_padToAlign_labelled (hi : i < batch.sequences.length) {k : ℕ}
    (hk : k < (batch.sequences.getD i []).length) :
    (padToAlign settings.alignSize none (batch.labelled.sequences.getD i [])).getD k none =
      some (i, k) := by
  have hlabel : (batch.labelled.sequences.getD i [])[k]? = some (some (i, k)) :=
    (getElem?_labelSequences hi).mpr ⟨hk, rfl⟩
  rw [padToAlign_eq, List.getD_eq_getElem?_getD,
    List.getElem?_append_left (by rwa [length_labelled_getD hi]), hlabel]
  rfl

/-- The last row of the chunk from the front is saved. -/
theorem mem_rollEntriesOf_front (hi : i < batch.sequences.length) {inner k : ℕ}
    (hinner : inner + 1 = halfSeqlen settings batch.lengths i)
    (hk : k = (rank + 1) * halfSeqlen settings batch.lengths i)
    (hlength : k < (batch.sequences.getD i []).length) :
    (((startRow settings batch.lengths i + inner : ℕ) : ℤ), some (i, k)) ∈
      rollEntriesOf settings rank none batch.labelled i := by
  rw [rollEntriesOf, rollEntries, batch.lengths_labelled]
  refine List.mem_cons.mpr (.inl (Prod.ext ?_ ?_))
  · rw [show settings.seqlenPadded batch.lengths i / settings.cpSize / 2 = inner + 1 from
      hinner.symm]
    change ((startRow settings batch.lengths i + inner : ℕ) : ℤ) =
      (startRow settings batch.lengths i + (inner + 1) : ℕ) - 1
    omega
  · subst hk
    exact (getD_padToAlign_labelled hi hlength).symm

/-- So is the last row of the chunk from the end that holds a token. -/
theorem mem_rollEntriesOf_back (hi : i < batch.sequences.length) {inner k : ℕ}
    (hk : k = min (settings.seqlenPadded batch.lengths i -
        halfSeqlen settings batch.lengths i * rank)
      (max (batch.sequences.getD i []).length settings.alignSize))
    (hremain : settings.seqlenPadded batch.lengths i -
        halfSeqlen settings batch.lengths i * (rank + 1) < k)
    (hinner : inner + 1 = halfSeqlen settings batch.lengths i +
      (k - (settings.seqlenPadded batch.lengths i -
        halfSeqlen settings batch.lengths i * (rank + 1))))
    (hlength : k < (batch.sequences.getD i []).length) :
    (((startRow settings batch.lengths i + inner : ℕ) : ℤ), some (i, k)) ∈
      rollEntriesOf settings rank none batch.labelled i := by
  rw [rollEntriesOf, rollEntries, batch.lengths_labelled]
  simp only [length_padToAlign, length_labelled_getD hi]
  rw [show settings.seqlenPadded batch.lengths i / settings.cpSize / 2 =
    halfSeqlen settings batch.lengths i from rfl,
    show offset (settings.paddedLengths batch.lengths) i / settings.cpSize =
      startRow settings batch.lengths i from rfl, ← hk, if_pos hremain]
  refine List.mem_cons.mpr (.inr (List.mem_singleton.mpr (Prod.ext ?_ ?_)))
  · simp only
    omega
  · have hinside : k ≠ max (batch.sequences.getD i []).length settings.alignSize :=
      (hlength.trans_le (le_max_left _ _)).ne
    rw [if_neg hinside]
    exact (getD_padToAlign_labelled hi hlength).symm

theorem length_flatMap_chunksOf_labelled (hrank : rank < settings.cpSize)
    (hbucket : ∀ bucket ∈ settings.padToLengthBucket, 0 < bucket)
    (hi : i ≤ batch.sequences.length) :
    ((List.range i).flatMap (chunksOf settings rank none batch.labelled)).length =
      startRow settings batch.lengths i := by
  rw [startRow, ← batch.lengths_labelled]
  exact length_flatMap_chunksOf none hrank hbucket (hi.trans_eq batch.length_labelled.symm)

/-- A row of the chunks in the rows of its rank. -/
theorem getElem?_flatMap_chunksOf (hrank : rank < settings.cpSize)
    (hbucket : ∀ bucket ∈ settings.padToLengthBucket, 0 < bucket)
    (hi : i < batch.sequences.length) {inner : ℕ}
    (hinner : inner < 2 * halfSeqlen settings batch.lengths i) :
    ((List.range batch.sequences.length).flatMap
        (chunksOf settings rank none batch.labelled))[startRow settings batch.lengths i + inner]? =
      (chunksOf settings rank none batch.labelled i)[inner]? := by
  obtain ⟨back, hsplit⟩ := flatMap_range_split (chunksOf settings rank none batch.labelled) hi
  have hstart := length_flatMap_chunksOf_labelled hrank hbucket hi.le
  have hlength : (chunksOf settings rank none batch.labelled i).length =
      settings.seqlenPadded batch.lengths i / settings.cpSize := by
    rw [chunksOf, batch.lengths_labelled, length_paddedChunks none hrank
      ((length_labelled_getD hi).trans_le (length_le_seqlenPadded settings hi))]
  have hinside : inner < (chunksOf settings rank none batch.labelled i).length := by
    rw [hlength]
    exact hinner.trans_le (Nat.mul_div_le _ _)
  rw [hsplit, ← hstart, List.getElem?_append_right (Nat.le_add_right _ _),
    Nat.add_sub_cancel_left, List.getElem?_append_left hinside]

/-- A row that is not saved is followed by the next row of its chunk. -/
theorem rotate_flatMap_chunksOf (hrank : rank < settings.cpSize)
    (hbucket : ∀ bucket ∈ settings.padToLengthBucket, 0 < bucket)
    (hi : i < batch.sequences.length) {inner : ℕ}
    (hinner : inner + 1 < 2 * halfSeqlen settings batch.lengths i) :
    (((List.range batch.sequences.length).flatMap
        (chunksOf settings rank none batch.labelled)).rotate 1)[
          startRow settings batch.lengths i + inner]? =
      (chunksOf settings rank none batch.labelled i)[inner + 1]? := by
  have htotal := length_flatMap_chunksOf_labelled hrank hbucket (le_refl batch.sequences.length)
  have hsucc := startRow_succ hbucket hi
  have hmono : startRow settings batch.lengths (i + 1) ≤
      startRow settings batch.lengths batch.sequences.length := startRow_mono hbucket hi le_rfl
  have hrow : startRow settings batch.lengths i + (inner + 1) <
      ((List.range batch.sequences.length).flatMap
        (chunksOf settings rank none batch.labelled)).length := by omega
  rw [List.getElem?_rotate (by omega), Nat.add_assoc, Nat.mod_eq_of_lt hrow,
    getElem?_flatMap_chunksOf hrank hbucket hi hinner]

theorem rolls_zigzag (hlayout : settings.cpLayout = .zigzag) (hcp : 1 < settings.cpSize)
    (hrank : rank < settings.cpSize)
    (hbucket : ∀ bucket ∈ settings.padToLengthBucket, 0 < bucket)
    (hfit : RollFits settings batch.lengths) {patched : List (Option (ℕ × ℕ))}
    (hothers : ∀ i < batch.sequences.length, ∀ inner < 2 * halfSeqlen settings batch.lengths i,
      ((startRow settings batch.lengths i + inner : ℕ) : ℤ) ∉
          (rollEntriesOf settings rank none batch.labelled i).map Prod.fst →
      patched[startRow settings batch.lengths i + inner]? =
        (((List.range batch.sequences.length).flatMap
          (chunksOf settings rank none batch.labelled)).rotate 1)[
            startRow settings batch.lengths i + inner]?)
    (hvalues : ∀ i < batch.sequences.length, ∀ (index : ℕ) (value : Option (ℕ × ℕ)),
      ((index : ℤ), value) ∈ rollEntriesOf settings rank none batch.labelled i →
      patched[index]? = some value)
    {k row : ℕ} (hk : k + 1 < (batch.sequences.getD i []).length)
    (hrow : ((List.range batch.sequences.length).flatMap
      (chunksOf settings rank none batch.labelled))[row]? = some (some (i, k))) :
    patched[row]? = some (some (i, k + 1)) := by
  obtain ⟨j, hi, inner, rfl, hinner⟩ := getElem?_flatMap_range hrow
  obtain ⟨hinside, -, hlabel⟩ := (getElem?_chunksOf_labelled hrank hi).mp hinner
  obtain ⟨rfl, hposition⟩ := Prod.mk.inj hlabel
  have hhalf := halfSeqlen_pos hlayout hcp hi
  have hreach := reach_of_rollFits hlayout hcp hfit hrank hi
  have hpadded := max_le_seqlenPadded settings hi
  have hlong := le_max_left (batch.sequences.getD i []).length settings.alignSize
  have hfront : (rank + 1) * halfSeqlen settings batch.lengths i ≤
      settings.cpSize * halfSeqlen settings batch.lengths i := Nat.mul_le_mul_right _ hrank
  have hall : settings.cpSize * (2 * halfSeqlen settings batch.lengths i) ≤
      settings.seqlenPadded batch.lengths i :=
    (Nat.mul_le_mul_left _ (Nat.mul_div_le _ _)).trans (Nat.mul_div_le _ _)
  rw [Nat.mul_left_comm] at hall
  have hstep : (rank + 1) * halfSeqlen settings batch.lengths i =
      rank * halfSeqlen settings batch.lengths i + halfSeqlen settings batch.lengths i :=
    Nat.succ_mul _ _
  have hcommLow := Nat.mul_comm (halfSeqlen settings batch.lengths i) rank
  have hcommHigh := Nat.mul_comm (halfSeqlen settings batch.lengths i) (rank + 1)
  rw [length_flatMap_chunksOf_labelled hrank hbucket hi.le]
  have hlabelled : 0 < halfSeqlen settings batch.labelled.lengths i := by
    rwa [batch.lengths_labelled]
  -- within a chunk the next token is in the next row
  have hwithin : inner + 1 < 2 * halfSeqlen settings batch.lengths i →
      chunkPosition (halfSeqlen settings batch.lengths i) rank
        (settings.seqlenPadded batch.lengths i) (inner + 1) = k + 1 →
      ((startRow settings batch.lengths i + inner : ℕ) : ℤ) ∉
        (rollEntriesOf settings rank none batch.labelled i).map Prod.fst →
      patched[startRow settings batch.lengths i + inner]? = some (some (i, k + 1)) := by
    intro hnext hsame hown
    rw [hothers i hi inner hinside hown, rotate_flatMap_chunksOf hrank hbucket hi hnext]
    exact (getElem?_chunksOf_labelled hrank hi).mpr ⟨hnext, hsame ▸ hk, by rw [hsame]⟩
  have hunsaved : inner + 1 ≠ halfSeqlen settings batch.lengths i →
      (inner < halfSeqlen settings batch.lengths i ∨
        k + 1 < min (settings.seqlenPadded batch.lengths i -
          halfSeqlen settings batch.lengths i * rank)
        (max (batch.sequences.getD i []).length settings.alignSize)) →
      ((startRow settings batch.lengths i + inner : ℕ) : ℤ) ∉
        (rollEntriesOf settings rank none batch.labelled i).map Prod.fst := by
    intro hne hside hkey
    obtain ⟨other, hsame, hother⟩ := (mem_keys_rollEntriesOf hlabelled).mp hkey
    rw [batch.lengths_labelled, length_labelled_getD hi] at hother
    rw [batch.lengths_labelled] at hsame
    obtain rfl : inner = other := by omega
    rw [chunkPosition] at hposition
    split at hposition <;> omega
  rw [chunkPosition] at hposition hwithin
  by_cases hchunk : inner < halfSeqlen settings batch.lengths i
  · rw [if_pos hchunk] at hposition
    by_cases hlast : inner + 1 = halfSeqlen settings batch.lengths i
    · exact hvalues i hi _ _ (mem_rollEntriesOf_front hi hlast (by omega) hk)
    · exact hwithin (by omega) (by rw [if_pos (by omega)]; omega) (hunsaved hlast (.inl hchunk))
  · rw [if_neg hchunk] at hposition
    by_cases hlast : k + 1 = min (settings.seqlenPadded batch.lengths i -
        halfSeqlen settings batch.lengths i * rank)
        (max (batch.sequences.getD i []).length settings.alignSize)
    · exact hvalues i hi _ _ (mem_rollEntriesOf_back hi hlast (by omega) (by omega) hk)
    · exact hwithin (by omega) (by rw [if_neg (by omega)]; omega)
        (hunsaved (by omega) (.inr (by omega)))

/-- A token in front of the middle is in a chunk from the front, any other one in a chunk
from the end when the chunks leave no row between them. -/
theorem exists_rank_of_chunks (hbucket : ∀ bucket ∈ settings.padToLengthBucket, 0 < bucket)
    (hi : i < batch.sequences.length) (hhalf : 0 < halfSeqlen settings batch.lengths i) {k : ℕ}
    (hk : k < (batch.sequences.getD i []).length)
    (hplace : k < settings.cpSize * halfSeqlen settings batch.lengths i ∨
      settings.seqlenPadded batch.lengths i =
        2 * (settings.cpSize * halfSeqlen settings batch.lengths i)) :
    ∃ rank < settings.cpSize, some (i, k) ∈ (List.range batch.sequences.length).flatMap
      (chunksOf settings rank none batch.labelled) := by
  have hpadded := length_le_seqlenPadded settings hi
  have hfound : ∀ rank < settings.cpSize, ∀ inner < 2 * halfSeqlen settings batch.lengths i,
      chunkPosition (halfSeqlen settings batch.lengths i) rank
        (settings.seqlenPadded batch.lengths i) inner = k →
      some (i, k) ∈ (List.range batch.sequences.length).flatMap
        (chunksOf settings rank none batch.labelled) := by
    intro rank hrank inner hinner hposition
    refine List.mem_of_getElem? ((getElem?_flatMap_chunksOf hrank hbucket hi hinner).trans ?_)
    exact (getElem?_chunksOf_labelled hrank hi).mpr ⟨hinner, hposition ▸ hk, by rw [hposition]⟩
  by_cases hfront : k < settings.cpSize * halfSeqlen settings batch.lengths i
  · have hmod := Nat.mod_lt k hhalf
    have hdiv := Nat.div_add_mod' k (halfSeqlen settings batch.lengths i)
    have hrank : k / halfSeqlen settings batch.lengths i < settings.cpSize :=
      (Nat.div_lt_iff_lt_mul hhalf).mpr hfront
    refine ⟨_, hrank, hfound _ hrank (k % halfSeqlen settings batch.lengths i) (by omega) ?_⟩
    rw [chunkPosition, if_pos hmod, hdiv]
  · -- the distance from the end tells the rank
    have htwo := hplace.resolve_left hfront
    obtain ⟨distance, hdistance⟩ : ∃ distance,
        distance + k + 1 = settings.seqlenPadded batch.lengths i :=
      ⟨settings.seqlenPadded batch.lengths i - 1 - k, by omega⟩
    have hmod := Nat.mod_lt distance hhalf
    have hdiv := Nat.div_add_mod' distance (halfSeqlen settings batch.lengths i)
    have hrank : distance / halfSeqlen settings batch.lengths i < settings.cpSize :=
      (Nat.div_lt_iff_lt_mul hhalf).mpr (by omega)
    have hreach : (distance / halfSeqlen settings batch.lengths i + 1) *
        halfSeqlen settings batch.lengths i ≤
          settings.cpSize * halfSeqlen settings batch.lengths i := Nat.mul_le_mul_right _ hrank
    have hstep := Nat.succ_mul (distance / halfSeqlen settings batch.lengths i)
      (halfSeqlen settings batch.lengths i)
    refine ⟨_, hrank, hfound _ hrank (halfSeqlen settings batch.lengths i +
      (halfSeqlen settings batch.lengths i - 1 -
        distance % halfSeqlen settings batch.lengths i)) (by omega) ?_⟩
    rw [chunkPosition, if_neg (by omega)]
    rw [Nat.succ_eq_add_one] at hstep
    omega

theorem exists_rank_zigzag (hlayout : settings.cpLayout = .zigzag) (hcp : 1 < settings.cpSize)
    (hbucket : ∀ bucket ∈ settings.padToLengthBucket, 0 < bucket)
    (hfit : RollFits settings batch.lengths) (hi : i < batch.sequences.length) {k : ℕ}
    (hk : k + 1 < (batch.sequences.getD i []).length) :
    ∃ rank < settings.cpSize, some (i, k) ∈ (List.range batch.sequences.length).flatMap
      (chunksOf settings rank none batch.labelled) := by
  refine exists_rank_of_chunks hbucket hi (halfSeqlen_pos hlayout hcp hi) (by omega) ?_
  rw [halfSeqlen]
  rcases Nat.lt_or_eq_of_le (Nat.succ_le_of_lt (hi.trans_eq batch.length_lengths.symm)) with
    hlt | hlast
  · exact .inr (settings.chunksFit_of_lt hlayout hcp hlt).eq_two_mul
  · have hget : batch.lengths.getD i 0 = batch.lengths.getLastD 0 := by
      rw [List.getLastD_eq_getLast?, List.getLast?_eq_getElem?, ← hlast, Nat.succ_sub_one,
        List.getD_eq_getElem?_getD]
    rw [← batch.lengths_getD, hget] at hk
    rw [settings.seqlenPadded_last hlast]
    rcases (hfit hlayout hcp).2 with hshort | hdvd
    · exact .inl (by omega)
    · right
      rw [Nat.div_div_eq_div_mul, ← Nat.mul_assoc, Nat.mul_comm settings.cpSize,
        Nat.mul_div_cancel' hdvd]

/-! ## The other layouts -/

def Batch.rolled (batch : Batch α) : Batch α where
  sequences := batch.sequences.map fun tokens => tokens.rotate 1
  nonempty := by simpa using batch.nonempty
  length_pos := by
    intro tokens htokens
    obtain ⟨source, hsource, rfl⟩ := List.mem_map.mp htokens
    simpa using batch.length_pos source hsource

theorem lengths_rolled (batch : Batch α) : batch.rolled.lengths = batch.lengths := by
  simp [Batch.lengths, Batch.rolled]

theorem getD_rolled (batch : Batch α) (i : ℕ) :
    batch.rolled.sequences.getD i [] = (batch.sequences.getD i []).rotate 1 := by
  rw [Batch.rolled, List.getD_eq_getElem?_getD, List.getD_eq_getElem?_getD, List.getElem?_map]
  cases batch.sequences[i]? with
  | none => rfl
  | some tokens => rfl

theorem length_rolled (batch : Batch α) :
    batch.rolled.sequences.length = batch.sequences.length := List.length_map ..

/-- In the contiguous layout the rolled sequences are packed. -/
theorem rollSequences_contiguous (zero : α) (hlayout : settings.cpLayout = .contiguous)
    (packed : PackedLengths) :
    rollSequences settings rank zero batch.sequences packed = do
      let rows ← writeSequences settings rank zero batch.rolled.sequences packed
      return (rows, Dict.empty) := by
  have hpair := @foldlM_pair _ _ _ _
    (fun rows i => writeSequence settings rank zero rows (batch.rolled.sequences.getD i [])
      (packed.seqlensInBatchPadded.getD i 0) (packed.cuSeqlensPadded.getD i 0))
    (fun (saved : Dict ℤ α) (_ : ℕ) => saved)
    (fun state i => rollSequence settings rank zero state (batch.sequences.getD i [])
      (packed.seqlensInBatchPadded.getD i 0) (packed.cuSeqlensPadded.getD i 0))
    (List.range batch.sequences.length) ?_
    (List.replicate (packed.seqlensInBatchPadded.sum / settings.cpSize) zero, Dict.empty)
  · rw [rollSequences, hpair, writeSequences, length_rolled]
    refine congrArg (bind _) (funext fun rows => ?_)
    rw [List.foldl_fixed]
  · intro i _ state
    rw [rollSequence, writeSequence, hlayout, getD_rolled]
    simp only [copyIntervalRolled_eq]

/-- On a single rank nothing is saved. -/
theorem rollSequences_plain (zero : α) (hlayout : settings.cpLayout = .zigzag)
    (hcp : settings.cpSize = 1) (packed : PackedLengths) :
    rollSequences settings rank zero batch.sequences packed = do
      let rows ← writeSequences settings rank zero batch.sequences packed
      return (rows, Dict.empty) := by
  have hpair := @foldlM_pair _ _ _ _
    (fun rows i => writeSequence settings rank zero rows (batch.sequences.getD i [])
      (packed.seqlensInBatchPadded.getD i 0) (packed.cuSeqlensPadded.getD i 0))
    (fun (saved : Dict ℤ α) (_ : ℕ) => saved)
    (fun state i => rollSequence settings rank zero state (batch.sequences.getD i [])
      (packed.seqlensInBatchPadded.getD i 0) (packed.cuSeqlensPadded.getD i 0))
    (List.range batch.sequences.length) ?_
    (List.replicate (packed.seqlensInBatchPadded.sum / settings.cpSize) zero, Dict.empty)
  · rw [rollSequences, hpair, writeSequences]
    refine congrArg (bind _) (funext fun rows => ?_)
    rw [List.foldl_fixed]
  · intro i _ state
    rw [rollSequence, writeSequence, hlayout]
    simp only [if_pos hcp.le]

theorem preprocessThdEngineRolled_of_rollSequences {zero : α}
    (hbucket : ∀ bucket ∈ settings.padToLengthBucket, 0 < bucket)
    (hsupported : settings.LayoutSupported) {rows result : List α} {saved : Dict ℤ α}
    (hroll : rollSequences settings rank zero batch.sequences (settings.packed batch.lengths) =
      .ok (rows, saved))
    (hzigzag : settings.cpLayout = .zigzag →
      patchRows (rows.rotate 1) saved.entries = .ok result)
    (hcontiguous : settings.cpLayout = .contiguous → rows = result) :
    preprocessThdEngineRolled settings rank zero batch.sequences =
      .ok { rows := result, params := packedParams settings batch.lengths } := by
  have hmode : ¬ (settings.hasCpPartitionMode = false ∧ settings.cpLayout ≠ .zigzag ∧
      1 < settings.cpSize) := by
    rintro ⟨hmissing, hlayout, hcp⟩
    cases hcase : settings.cpLayout with
    | zigzag => exact hlayout hcase
    | contiguous => simp [hsupported hcase hcp] at hmissing
  refine bind_eq_ok.mpr ⟨_, packLengths_lengths hbucket, bind_eq_ok.mpr ⟨_, hroll, ?_⟩⟩
  cases hlayout : settings.cpLayout with
  | zigzag =>
      simp only
      refine bind_eq_ok.mpr ⟨result, hzigzag hlayout, ?_⟩
      rw [hlayout] at hmode
      exact raiseIf_bind_eq_ok.mpr ⟨hmode, by rw [packedParams, hlayout]; rfl⟩
  | contiguous =>
      rw [hlayout] at hmode
      rw [hcontiguous hlayout]
      exact raiseIf_bind_eq_ok.mpr ⟨hmode, by rw [packedParams, hlayout]; rfl⟩

/-- A token in the padded buffer. -/
theorem getElem?_paddedBuffer_token (settings : ThdSettings) (zero : α)
    (hi : i < batch.sequences.length) {k : ℕ} (hk : k < (batch.sequences.getD i []).length) :
    (paddedBuffer settings zero batch)[offset (settings.paddedLengths batch.lengths) i + k]? =
      (batch.sequences.getD i [])[k]? := by
  obtain ⟨back, hsplit⟩ := flatMap_range_split (plainSegment settings zero batch) hi
  rw [paddedBuffer, hsplit, ← length_flatMap_plainSegment settings zero hi.le,
    List.getElem?_append_right (Nat.le_add_right _ _), Nat.add_sub_cancel_left, plainSegment,
    List.append_assoc, List.getElem?_append_left hk]

/-! ## The labels of one rank -/

/-- The labels of a rank follow its tokens. -/
def RollsOn (settings : ThdSettings) (batch : Batch α) (rank : ℕ)
    (tokens labels : PackedRows (Option (ℕ × ℕ))) : Prop :=
  preprocessThdEngine settings rank none batch.labelled.sequences = .ok tokens ∧
    preprocessThdEngineRolled settings rank none batch.labelled.sequences = .ok labels ∧
    ∀ i < batch.sequences.length, ∀ k, k + 1 < (batch.sequences.getD i []).length →
      ∀ row : ℕ, tokens.rows[row]? = some (some (i, k)) →
        labels.rows[row]? = some (some (i, k + 1))

theorem rollsOn_zigzag (hlayout : settings.cpLayout = .zigzag) (hcp : 1 < settings.cpSize)
    (hbucket : ∀ bucket ∈ settings.padToLengthBucket, 0 < bucket)
    (hsupported : settings.LayoutSupported) (hrank : rank < settings.cpSize)
    (hfit : RollFits settings batch.lengths) :
    ∃ tokens labels, RollsOn settings batch rank tokens labels ∧
      tokens.rows = (List.range batch.sequences.length).flatMap
        (chunksOf settings rank none batch.labelled) := by
  have hfit' : RollFits settings batch.labelled.lengths := by rwa [batch.lengths_labelled]
  have htokens := preprocessThdEngine_of_writeSequences hbucket hsupported
    (writeSequences_chunksOf (none : Option (ℕ × ℕ)) hlayout hcp hrank hbucket
      (lastFrontFits_of_rollFits hlayout hcp hfit'))
  obtain ⟨patched, hpatched, hothers, hvalues⟩ :=
    @patchRows_saved _ settings batch.labelled rank none hlayout hcp hrank hbucket
  have hlabels := preprocessThdEngineRolled_of_rollSequences hbucket hsupported
    (rollSequences_eq none hlayout hcp hrank hbucket hfit') (fun _ => hpatched)
    fun hcontiguous => absurd (hlayout.symm.trans hcontiguous) (by decide)
  rw [batch.length_labelled] at hothers hvalues htokens
  rw [batch.lengths_labelled] at hothers
  refine ⟨_, _, ⟨htokens, hlabels, fun i hi k hk row hrow => ?_⟩, rfl⟩
  exact rolls_zigzag hlayout hcp hrank hbucket hfit hothers hvalues hk hrow

/-- A token of the rolled batch is the next one. -/
theorem getElem?_rolled_labelled (hi : i < batch.sequences.length) {k : ℕ}
    (hk : k + 1 < (batch.sequences.getD i []).length) :
    (batch.labelled.rolled.sequences.getD i [])[k]? = some (some (i, k + 1)) := by
  have hlength := length_labelled_getD hi
  have hlabel : (batch.labelled.sequences.getD i [])[k + 1]? = some (some (i, k + 1)) :=
    (getElem?_labelSequences hi).mpr ⟨hk, rfl⟩
  rw [getD_rolled, List.getElem?_rotate (by omega), Nat.mod_eq_of_lt (by omega), hlabel]

theorem rollsOn_contiguous (hlayout : settings.cpLayout = .contiguous)
    (hbucket : ∀ bucket ∈ settings.padToLengthBucket, 0 < bucket)
    (hsupported : settings.LayoutSupported) (hrank : rank < settings.cpSize) :
    ∃ tokens labels, RollsOn settings batch rank tokens labels ∧
      tokens.rows = rankRows settings none batch.labelled rank := by
  have hplain : ¬ (settings.cpLayout = .zigzag ∧ 1 < settings.cpSize) := by simp [hlayout]
  have hchunks : ∀ lengths, settings.LastChunksFit lengths := fun lengths hzigzag hcp =>
    absurd ⟨hzigzag, hcp⟩ hplain
  have hroll := @rollSequences_contiguous _ settings batch.labelled rank none hlayout
    (settings.packed batch.labelled.lengths)
  rw [← lengths_rolled batch.labelled, writeSequences_eq none hbucket (hchunks _) hrank,
    lengths_rolled] at hroll
  have hlabels := preprocessThdEngineRolled_of_rollSequences hbucket hsupported hroll
    (fun hzigzag => absurd (hlayout.symm.trans hzigzag) (by decide)) fun _ => rfl
  refine ⟨_, _, ⟨preprocessThdEngine_eq none hbucket (hchunks _) hsupported hrank, hlabels,
    fun i hi k hk row hrow => ?_⟩, rfl⟩
  simp only [rankRows, if_neg hplain, getElem?_slice, batch.lengths_labelled,
    lengths_rolled] at hrow ⊢
  split at hrow
  next hinside =>
    have hi' : i < batch.labelled.rolled.sequences.length := by
      rwa [length_rolled, batch.length_labelled]
    have hk' : k < (batch.labelled.rolled.sequences.getD i []).length := by
      rw [getD_rolled, List.length_rotate, length_labelled_getD hi]
      omega
    have htoken := getElem?_paddedBuffer_token settings none hi' hk'
    rw [lengths_rolled, batch.lengths_labelled] at htoken
    rw [if_pos hinside, (getElem?_paddedBuffer hi (by omega)).mp hrow, htoken,
      getElem?_rolled_labelled hi hk]
  next => cases hrow

theorem rollsOn_single (hlayout : settings.cpLayout = .zigzag) (hcp : settings.cpSize = 1)
    (hbucket : ∀ bucket ∈ settings.padToLengthBucket, 0 < bucket)
    (hsupported : settings.LayoutSupported) :
    ∃ tokens labels, RollsOn settings batch rank tokens labels ∧
      tokens.rows = paddedBuffer settings none batch.labelled := by
  have hwrite := @writeSequences_plain _ settings batch.labelled rank none hlayout hcp
  have hroll := @rollSequences_plain _ settings batch.labelled rank none hlayout hcp
    (settings.packed batch.labelled.lengths)
  rw [hwrite] at hroll
  have hlabels := preprocessThdEngineRolled_of_rollSequences hbucket hsupported hroll
    (fun _ => rfl) fun hcontiguous => absurd (hlayout.symm.trans hcontiguous) (by decide)
  refine ⟨_, _, ⟨preprocessThdEngine_of_writeSequences hbucket hsupported hwrite, hlabels,
    fun i hi k hk row hrow => ?_⟩, rfl⟩
  obtain rfl := (getElem?_paddedBuffer hi (by omega)).mp hrow
  have hi' : i < batch.labelled.sequences.length := by rwa [batch.length_labelled]
  have htoken := getElem?_paddedBuffer_token settings none hi'
    (hk.trans_eq (length_labelled_getD hi).symm)
  have hlabel : (batch.labelled.sequences.getD i [])[k + 1]? = some (some (i, k + 1)) :=
    (getElem?_labelSequences hi).mpr ⟨hk, rfl⟩
  rw [batch.lengths_labelled, hlabel] at htoken
  have hnext := (List.getElem?_eq_some_iff.mp htoken).1
  rw [List.getElem?_rotate (by omega), Nat.add_assoc, Nat.mod_eq_of_lt hnext, htoken]

/-! ## All ranks -/

theorem rollsLabels_of_ranks (rows : ℕ → List (Option (ℕ × ℕ)))
    (hranks : ∀ rank < settings.cpSize, ∃ tokens labels,
      RollsOn settings batch rank tokens labels ∧ tokens.rows = rows rank)
    (hplaces : ∀ i < batch.sequences.length, ∀ k, k + 1 < (batch.sequences.getD i []).length →
      ∃ rank < settings.cpSize, some (i, k) ∈ rows rank) : RollsLabels settings batch := by
  have hempty : PackedRows (Option (ℕ × ℕ)) := ⟨[], ⟨[], 0, none⟩⟩
  have hall : ∀ rank : ℕ, ∃ tokens labels, rank < settings.cpSize →
      RollsOn settings batch rank tokens labels ∧ tokens.rows = rows rank := by
    intro rank
    by_cases hrank : rank < settings.cpSize
    · obtain ⟨tokens, labels, hrolls⟩ := hranks rank hrank
      exact ⟨tokens, labels, fun _ => hrolls⟩
    · exact ⟨hempty, hempty, fun hlt => absurd hlt hrank⟩
  choose tokens labels hrolls using hall
  refine ⟨tokens, labels, fun rank hrank => ?_, fun i hi k hk => ⟨?_, fun rank hrank row => ?_⟩⟩
  · exact ⟨(hrolls rank hrank).1.1, (hrolls rank hrank).1.2.1⟩
  · obtain ⟨rank, hrank, hmem⟩ := hplaces i hi k hk
    exact ⟨rank, hrank, (hrolls rank hrank).2 ▸ hmem⟩
  · exact (hrolls rank hrank).1.2.2 i hi k hk row

theorem rollsLabels_of_rollFits (hbucket : ∀ bucket ∈ settings.padToLengthBucket, 0 < bucket)
    (hsupported : settings.LayoutSupported) (hfit : RollFits settings batch.lengths) :
    RollsLabels settings batch := by
  by_cases hzigzag : settings.cpLayout = .zigzag ∧ 1 < settings.cpSize
  · obtain ⟨hlayout, hcp⟩ := hzigzag
    exact rollsLabels_of_ranks _
      (fun rank hrank => rollsOn_zigzag hlayout hcp hbucket hsupported hrank hfit)
      fun i hi k hk => exists_rank_zigzag hlayout hcp hbucket hfit hi hk
  · have hchunks : settings.LastChunksFit batch.lengths := fun hlayout hcp =>
      absurd ⟨hlayout, hcp⟩ hzigzag
    refine rollsLabels_of_ranks (rankRows settings none batch.labelled) ?_ fun i hi k hk => ?_
    · intro rank hrank
      cases hlayout : settings.cpLayout with
      | contiguous => exact rollsOn_contiguous hlayout hbucket hsupported hrank
      | zigzag =>
          have hcp : settings.cpSize = 1 :=
            (not_lt.mp fun hlt => hzigzag ⟨hlayout, hlt⟩).antisymm settings.cpSize_pos
          obtain ⟨tokens, labels, hrolls, hrows⟩ :=
            @rollsOn_single _ settings batch rank hlayout hcp hbucket hsupported
          obtain rfl : rank = 0 := by omega
          refine ⟨tokens, labels, hrolls, hrows.trans ?_⟩
          rw [rankRows, if_neg hzigzag, hcp, Nat.div_one, Nat.mul_zero, Nat.zero_add,
            ← length_paddedBuffer settings none, slice_zero, List.take_length]
    · obtain ⟨rank, hrank, -⟩ := existsUnique_rank hbucket hchunks hi (k := k) (by omega)
      exact ⟨rank, hrank⟩

/-- The last rank finds the token behind its chunk from the front. -/
theorem reach_of_rolled {zero : α} (hlayout : settings.cpLayout = .zigzag)
    (hcp : 1 < settings.cpSize)
    (hbucket : ∀ bucket ∈ settings.padToLengthBucket, 0 < bucket) {last : ℕ}
    (hlast : last + 1 = batch.sequences.length) {labels : PackedRows α}
    (hok : preprocessThdEngineRolled settings rank zero batch.sequences = .ok labels) :
    (rank + 1) * (settings.paddedLast batch.lengths / settings.cpSize / 2) <
      max (batch.sequences.getD last []).length settings.alignSize := by
  have hseqlen := settings.seqlenPadded_last (hlast.trans batch.length_lengths.symm)
  rw [ThdSettings.seqlenPadded] at hseqlen
  obtain ⟨packed, hpacked, hok⟩ := bind_eq_ok.mp hok
  obtain ⟨rows, hrows, -⟩ := bind_eq_ok.mp hok
  cases (packLengths_lengths hbucket).symm.trans hpacked
  rw [rollSequences, ← hlast, List.range_succ, List.foldlM_append] at hrows
  obtain ⟨before, -, hrows⟩ := bind_eq_ok.mp hrows
  rw [List.foldlM_cons] at hrows
  obtain ⟨after, hafter, -⟩ := bind_eq_ok.mp hrows
  rw [rollSequence, hlayout] at hafter
  simp only [if_neg (not_le.mpr hcp)] at hafter
  obtain ⟨written, -, hafter⟩ := bind_eq_ok.mp hafter
  obtain ⟨saved, hsaved, -⟩ := bind_eq_ok.mp hafter
  rw [ThdSettings.packed, hseqlen] at hsaved
  exact reach_of_saveRolls hsaved

/-- The first token between the chunks is on no rank. -/
theorem not_mem_flatMap_chunksOf (hrank : rank < settings.cpSize)
    (hodd : settings.seqlenPadded batch.lengths i / settings.cpSize =
      2 * halfSeqlen settings batch.lengths i + 1)
    (hdvd : settings.cpSize ∣ settings.seqlenPadded batch.lengths i) :
    some (i, settings.cpSize * halfSeqlen settings batch.lengths i) ∉
      (List.range batch.sequences.length).flatMap (chunksOf settings rank none batch.labelled) := by
  intro hmem
  obtain ⟨j, hj, hmem⟩ := List.mem_flatMap.mp hmem
  obtain ⟨inner, hinner⟩ := List.mem_iff_getElem?.mp hmem
  obtain ⟨hinside, -, hlabel⟩ :=
    (getElem?_chunksOf_labelled hrank (List.mem_range.mp hj)).mp hinner
  obtain ⟨rfl, hposition⟩ := Prod.mk.inj hlabel
  have hpadded : settings.seqlenPadded batch.lengths i =
      2 * (settings.cpSize * halfSeqlen settings batch.lengths i) + settings.cpSize := by
    conv_lhs => rw [← Nat.mul_div_cancel' hdvd, hodd, Nat.mul_succ, Nat.mul_left_comm]
  have hreach : (rank + 1) * halfSeqlen settings batch.lengths i ≤
      settings.cpSize * halfSeqlen settings batch.lengths i := Nat.mul_le_mul_right _ hrank
  have hstep : (rank + 1) * halfSeqlen settings batch.lengths i =
      rank * halfSeqlen settings batch.lengths i + halfSeqlen settings batch.lengths i :=
    Nat.succ_mul _ _
  rw [chunkPosition] at hposition
  split at hposition <;> omega

/-- The labels of all ranks are the next tokens exactly when the chunks from the front
end inside the last sequence and no row of a label is between its chunks. -/
theorem rollsLabels_iff (hbucket : ∀ bucket ∈ settings.padToLengthBucket, 0 < bucket)
    (hsupported : settings.LayoutSupported) :
    RollsLabels settings batch ↔ RollFits settings batch.lengths := by
  refine ⟨fun hrolls => ?_, rollsLabels_of_rollFits hbucket hsupported⟩
  intro hlayout hcp
  obtain ⟨tokens, labels, hranks, hplaces⟩ := hrolls
  obtain ⟨last, hlast⟩ : ∃ last, last + 1 = batch.sequences.length :=
    ⟨batch.sequences.length - 1,
      Nat.sub_add_cancel (List.length_pos_iff.mpr batch.nonempty)⟩
  have hget : batch.lengths.getLastD 0 = (batch.sequences.getD last []).length := by
    have hindex : batch.lengths.length - 1 = last := by
      rw [batch.length_lengths]
      omega
    rw [← batch.lengths_getD, List.getLastD_eq_getLast?, List.getLast?_eq_getElem?, hindex,
      List.getD_eq_getElem?_getD]
  have hfinal : settings.cpSize - 1 < settings.cpSize := Nat.sub_lt settings.cpSize_pos Nat.one_pos
  have hreach := reach_of_rolled hlayout hcp hbucket (hlast.trans batch.length_labelled.symm)
    (hranks _ hfinal).2
  rw [Nat.sub_add_cancel settings.cpSize_pos, batch.lengths_labelled,
    length_labelled_getD (by omega), ← hget] at hreach
  refine ⟨hreach, ?_⟩
  by_contra hnot
  rw [not_or, not_le] at hnot
  obtain ⟨hlong, hodd⟩ := hnot
  have hpaddedLast := settings.seqlenPadded_last (hlast.trans batch.length_lengths.symm)
  have hdvd := (cpSize_dvd_last hbucket hlast).2
  rw [← hpaddedLast] at hlong hodd hdvd hreach
  have hchunk : settings.seqlenPadded batch.lengths last / settings.cpSize =
      2 * halfSeqlen settings batch.lengths last + 1 := by
    rw [Nat.mul_comm 2, ← Nat.dvd_div_iff_mul_dvd hdvd] at hodd
    rw [halfSeqlen]
    omega
  have hfit : LastFrontFits settings batch.labelled.lengths := by
    rw [batch.lengths_labelled, LastFrontFits, ← hpaddedLast]
    exact .inl hreach.le
  obtain ⟨⟨rank, hrank, hmem⟩, -⟩ := hplaces last (by omega)
    (settings.cpSize * halfSeqlen settings batch.lengths last) (by rwa [← hget])
  have hrows := preprocessThdEngine_of_writeSequences hbucket hsupported
    (writeSequences_chunksOf (none : Option (ℕ × ℕ)) hlayout hcp hrank hbucket hfit)
  have hsame := Except.ok.inj (hrows.symm.trans (hranks rank hrank).1)
  rw [← hsame, batch.length_labelled] at hmem
  exact not_mem_flatMap_chunksOf hrank hchunk hdvd hmem

/-- Padding to the alignment alone leaves no label behind. -/
theorem rollFits_of_alignment (hfp8 : settings.useFp8Padding = false)
    (hminimum : settings.minLocalRows = none) (hbucket : settings.padToLengthBucket = none)
    {lengths : List ℕ} (hlengths : lengths ≠ []) : RollFits settings lengths := by
  intro hlayout hcp
  have hsum : (lengths.map (roundUp settings.alignSize)).sum =
      (lengths.dropLast.map (roundUp settings.alignSize)).sum +
        roundUp settings.alignSize (lengths.getLastD 0) := by
    conv_lhs => rw [← List.dropLast_append_getLast hlengths]
    rw [List.map_append, List.sum_append, List.map_singleton, List.sum_singleton,
      List.getLastD_eq_getLast?, List.getLast?_eq_getLast_of_ne_nil hlengths]
    rfl
  have hpadded : settings.paddedLast lengths =
      roundUp settings.alignSize (lengths.getLastD 0) := by
    rw [ThdSettings.paddedLast, ThdSettings.paddedTotal, ThdSettings.bucketTotal, hbucket,
      ThdSettings.rowsTotal, hminimum, ThdSettings.fp8Total, hfp8, hsum]
    exact Nat.add_sub_cancel_left _ _
  have hdvd : 2 * settings.cpSize ∣ settings.paddedLast lengths := by
    rw [hpadded]
    exact (settings.two_mul_cpSize_dvd_alignSize hlayout hcp).trans
      (dvd_roundUp settings.alignSize_pos _)
  have htwo : 2 * (settings.cpSize * (settings.paddedLast lengths / settings.cpSize / 2)) =
      settings.paddedLast lengths := by
    rw [Nat.div_div_eq_div_mul, ← Nat.mul_assoc, Nat.mul_comm settings.cpSize,
      Nat.mul_div_cancel' hdvd]
  have hround := roundUp_lt settings.alignSize_pos (lengths.getLastD 0)
  exact ⟨by omega, .inr hdvd⟩

end Batch

def twoRanks (minLocalRows : Option ℕ) : ThdSettings where
  tpSize := 1
  cpSize := 2
  useFp8Padding := false
  minLocalRows := minLocalRows
  padToLengthBucket := none
  cpLayout := .zigzag
  hasCpPartitionMode := true
  tpSize_pos := Nat.one_pos
  cpSize_pos := Nat.two_pos

/-- With eight rows the chunks from the front are found, but not the token behind them. -/
theorem twoRanks_rollsLabels :
    RollsLabels (twoRanks none) fourTokens ∧ ¬ RollsLabels (twoRanks (some 4)) fourTokens := by
  constructor
  · exact (rollsLabels_iff (by simp [twoRanks]) fun _ _ => rfl).mpr (by decide)
  · exact fun hrolls => absurd
      ((rollsLabels_iff (by simp [twoRanks]) fun _ _ => rfl).mp hrolls) (by decide)

end OneShotOPD.Mcore
