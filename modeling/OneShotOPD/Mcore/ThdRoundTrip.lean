import OneShotOPD.Mcore.ThdPacking
import OneShotOPD.Mcore.Labels

/-!
# The round trip of a packed batch

The packed rows of all context-parallel ranks give the batch back, and every
token is on one of the ranks.  In the zigzag layout this holds exactly when the
padding that the last sequence takes over leaves its length a multiple of two
chunks a rank, with the chunks from the front inside the tokens.
-/

namespace OneShotOPD.Mcore

open Segments SliceAssign Zigzag Checks

variable {α : Type}

def Batch.labelled (batch : Batch α) : Batch (Option (ℕ × ℕ)) where
  sequences := labelSequences batch.sequences
  nonempty := by
    rw [← List.length_pos_iff, length_labelSequences]
    exact List.length_pos_iff.mpr batch.nonempty
  length_pos := by
    intro tokens htokens
    obtain ⟨i, hi, rfl⟩ := List.mem_map.mp htokens
    simpa using batch.length_getD_pos (List.mem_range.mp hi)

/-- The rows of all ranks, as an all-gather collects them. -/
def gatherRows (settings : ThdSettings) (zero : α) (batch : Batch α) :
    Except String (List (PackedRows α)) :=
  (List.range settings.cpSize).mapM fun rank =>
    preprocessThdEngine settings rank zero batch.sequences

/-- No rank raises, all ranks have the same number of rows, each of them unpacks
the batch from the gathered rows, and every token is on exactly one rank. -/
structure RoundTrips (settings : ThdSettings) (zero : α) (batch : Batch α) : Prop where
  unpacks : ∃ (packed : List (PackedRows α)) (width : ℕ),
    gatherRows settings zero batch = .ok packed ∧
    ∀ rank ∈ packed, rank.rows.length = width ∧ ∀ garbage,
      postprocessThdEngine settings rank.params batch.lengths (packed.map PackedRows.rows)
        garbage = .ok batch.sequences
  places : ∃ packed : List (PackedRows (Option (ℕ × ℕ))),
    gatherRows settings none batch.labelled = .ok packed ∧
    ∀ i < batch.sequences.length, ∀ k < (batch.sequences.getD i []).length,
      ∃! rank : ℕ, ∃ held : PackedRows (Option (ℕ × ℕ)),
        packed[rank]? = some held ∧ some (i, k) ∈ held.rows

namespace Batch

variable (batch : Batch α)

@[simp]
theorem length_labelled : batch.labelled.sequences.length = batch.sequences.length :=
  length_labelSequences batch.sequences

@[simp]
theorem lengths_labelled : batch.labelled.lengths = batch.lengths :=
  map_length_labelSequences batch.sequences

end Batch

section Placement

variable {settings : ThdSettings} {batch : Batch α} {i k rank : ℕ}

/-- The rank that holds a token in the zigzag layout. -/
theorem mem_rankRows_zigzag (hlayout : settings.cpLayout = .zigzag)
    (hcp : 1 < settings.cpSize) (hrank : rank < settings.cpSize)
    (hfit : settings.LastChunksFit batch.lengths) (hi : i < batch.sequences.length)
    (hk : k < (batch.sequences.getD i []).length) :
    some (i, k) ∈ rankRows settings none batch.labelled rank ↔
      rankOf (settings.seqlenPadded batch.lengths i / settings.cpSize / 2)
        (2 * (settings.cpSize *
          (settings.seqlenPadded batch.lengths i / settings.cpSize / 2))) k = rank := by
  have hfit' : settings.LastChunksFit batch.labelled.lengths := by
    rwa [batch.lengths_labelled]
  have hmem : ∀ j < batch.sequences.length,
      (some (i, k) ∈ zigzagSegment settings rank none batch.labelled j ↔
        ∃ index, (zigzagExtension settings none batch.labelled j)[index]? = some (some (i, k)) ∧
          rankOf (settings.seqlenPadded batch.lengths j / settings.cpSize / 2)
            (2 * (settings.cpSize *
              (settings.seqlenPadded batch.lengths j / settings.cpSize / 2))) index = rank) := by
    intro j hj
    have hj' := hj.trans_eq batch.length_labelled.symm
    have hlength := length_zigzagExtension none hlayout hcp hfit' hj'
    have hlong := max_le_seqlenPadded settings hj'
    have htwo := (chunksFit_getD hlayout hcp hfit' hj').eq_two_mul
    rw [batch.lengths_labelled] at hlength hlong htwo
    have hhalf : 0 < settings.seqlenPadded batch.lengths j / settings.cpSize / 2 := by
      apply Nat.pos_of_ne_zero
      intro hzero
      have halign := (le_max_right _ _).trans hlong
      have hpos := settings.alignSize_pos
      rw [htwo, hzero, Nat.mul_zero, Nat.mul_zero] at halign
      omega
    rw [zigzagSegment, batch.lengths_labelled, mem_chunks hhalf hrank hlength, hlength]
  rw [rankRows_zigzag none hlayout hcp, batch.length_labelled, List.mem_flatMap]
  constructor
  · rintro ⟨j, hj, hsegment⟩
    rw [List.mem_range] at hj
    obtain ⟨index, hindex, hrankOf⟩ := (hmem j hj).mp hsegment
    have hchunks := chunksFit_getD hlayout hcp hfit' (hj.trans_eq batch.length_labelled.symm)
    have hreach := hchunks.reach
    have hlong := max_le_seqlenPadded settings (hj.trans_eq batch.length_labelled.symm)
    rw [hchunks.eq_two_mul] at hlong
    rw [← length_padToAlign settings.alignSize none] at hreach hlong
    rw [zigzagExtension] at hindex
    rcases getElem?_extendChunks settings.cpSize_pos hlong hreach hindex with
      hzero | ⟨source, hsource, hsame⟩
    · cases hzero
    · rw [padToAlign_eq, List.getElem?_append] at hsource
      split at hsource
      next =>
        obtain ⟨-, hlabel⟩ := (getElem?_labelSequences hj).mp hsource
        obtain ⟨rfl, rfl⟩ := Prod.mk.inj hlabel
        rw [batch.lengths_labelled] at hsame
        exact hsame.trans hrankOf
      next =>
        rw [List.getElem?_replicate] at hsource
        split at hsource <;> cases hsource
  · intro hrankOf
    refine ⟨i, List.mem_range.mpr hi, (hmem i hi).mpr ⟨k, ?_, hrankOf⟩⟩
    have hlong : k < (batch.labelled.sequences.getD i []).length :=
      hk.trans_eq (length_labelSequences_getD hi).symm
    have hpadded : k < (padToAlign settings.alignSize none
        (batch.labelled.sequences.getD i [])).length :=
      hlong.trans_le (by
        rw [length_padToAlign]
        exact le_max_left _ _)
    rw [zigzagExtension, getElem?_extendChunks_of_lt hpadded, padToAlign_eq,
      List.getElem?_append_left hlong]
    exact (getElem?_labelSequences hi).mpr ⟨hk, rfl⟩

/-- A token stands at one place of the padded buffer. -/
theorem getElem?_paddedBuffer (hi : i < batch.sequences.length)
    (hk : k < (batch.sequences.getD i []).length) {index : ℕ} :
    (paddedBuffer settings none batch.labelled)[index]? = some (some (i, k)) ↔
      index = offset (settings.paddedLengths batch.lengths) i + k := by
  have hstart : ∀ j ≤ batch.sequences.length,
      ((List.range j).flatMap (plainSegment settings none batch.labelled)).length =
        offset (settings.paddedLengths batch.lengths) j := by
    intro j hj
    rw [length_flatMap_plainSegment settings none (hj.trans_eq batch.length_labelled.symm),
      batch.lengths_labelled]
  constructor
  · intro hindex
    obtain ⟨j, hj, inner, rfl, hinner⟩ := getElem?_flatMap_range hindex
    rw [batch.length_labelled] at hj
    rw [plainSegment, List.getElem?_append] at hinner
    split at hinner
    next =>
      obtain ⟨-, hlabel⟩ := (getElem?_labelSequences hj).mp hinner
      obtain ⟨rfl, rfl⟩ := Prod.mk.inj hlabel
      rw [hstart i hi.le]
    next =>
      rw [List.getElem?_replicate] at hinner
      split at hinner <;> cases hinner
  · rintro rfl
    obtain ⟨back, hsplit⟩ := flatMap_range_split (plainSegment settings none batch.labelled)
      (hi.trans_eq batch.length_labelled.symm)
    have hlong : k < (batch.labelled.sequences.getD i []).length :=
      hk.trans_eq (length_labelSequences_getD hi).symm
    rw [paddedBuffer, hsplit, ← hstart i hi.le, List.getElem?_append_right (Nat.le_add_right _ _),
      Nat.add_sub_cancel_left, plainSegment, List.append_assoc, List.getElem?_append_left hlong]
    exact (getElem?_labelSequences hi).mpr ⟨hk, rfl⟩

/-- A token is in the rows of exactly one rank. -/
theorem existsUnique_rank (hbucket : ∀ bucket ∈ settings.padToLengthBucket, 0 < bucket)
    (hfit : settings.LastChunksFit batch.lengths) (hi : i < batch.sequences.length)
    (hk : k < (batch.sequences.getD i []).length) :
    ∃! rank, rank < settings.cpSize ∧
      some (i, k) ∈ rankRows settings none batch.labelled rank := by
  by_cases hzigzag : settings.cpLayout = .zigzag ∧ 1 < settings.cpSize
  · obtain ⟨hlayout, hcp⟩ := hzigzag
    have hchunks := chunksFit_getD hlayout hcp hfit hi
    have hbound : k < 2 * (settings.cpSize *
        (settings.seqlenPadded batch.lengths i / settings.cpSize / 2)) := by
      rw [← hchunks.eq_two_mul]
      exact hk.trans_le (length_le_seqlenPadded settings hi)
    refine ⟨_, ⟨rankOf_lt hbound,
      (mem_rankRows_zigzag hlayout hcp (rankOf_lt hbound) hfit hi hk).mpr rfl⟩, ?_⟩
    rintro rank ⟨hrank, hmem⟩
    exact ((mem_rankRows_zigzag hlayout hcp hrank hfit hi hk).mp hmem).symm
  · obtain ⟨width, htotal⟩ := settings.cpSize_dvd_paddedTotal batch.lengths hbucket
    have hdiv : settings.paddedTotal batch.lengths / settings.cpSize = width := by
      rw [htotal, Nat.mul_div_cancel_left _ settings.cpSize_pos]
    have hplace : offset (settings.paddedLengths batch.lengths) i + k <
        width * settings.cpSize := by
      have hnext := offset_le_paddedTotal settings (i := i + 1) hi
      have hlong := length_le_seqlenPadded settings hi
      rw [offset_seqlenPadded settings hi, htotal, Nat.mul_comm] at hnext
      omega
    have hwidth : 0 < width := by
      apply Nat.pos_of_ne_zero
      rintro rfl
      simp at hplace
    have hmem : ∀ rank, some (i, k) ∈ rankRows settings none batch.labelled rank ↔
        (offset (settings.paddedLengths batch.lengths) i + k) / width = rank := by
      intro rank
      rw [rankRows, if_neg hzigzag, batch.lengths_labelled, hdiv, mem_slice,
        Nat.div_eq_iff hwidth, Nat.mul_comm width]
      constructor
      · rintro ⟨index, hlow, hhigh, hget⟩
        rw [(getElem?_paddedBuffer hi hk).mp hget] at hlow hhigh
        omega
      · intro hrange
        exact ⟨_, by omega, by omega, (getElem?_paddedBuffer hi hk).mpr rfl⟩
    refine ⟨_, ⟨(Nat.div_lt_iff_lt_mul hwidth).mpr ?_, (hmem _).mpr rfl⟩, ?_⟩
    · rwa [Nat.mul_comm]
    · rintro rank ⟨-, hrank⟩
      exact ((hmem rank).mp hrank).symm

end Placement

section Necessity

variable {settings : ThdSettings} {batch : Batch α} {zero : α} {rank : ℕ}

theorem length_of_writeSequence {rows tokens result : List α} {seqlenPadded seqStart : ℕ}
    (hok : writeSequence settings rank zero rows tokens seqlenPadded seqStart = .ok result) :
    result.length = rows.length := by
  rw [writeSequence] at hok
  split at hok
  next =>
    rw [copyInterval] at hok
    split at hok
    next =>
      cases hok
      rfl
    next => exact length_of_assignSlice hok
  next =>
    split at hok
    next => exact length_of_assignSlice hok
    next =>
      obtain ⟨middle, hmiddle, hok⟩ := bind_eq_ok.mp hok
      exact (length_of_writeClamped hok).trans (length_of_assignSlice hmiddle)

theorem length_of_writeSequences {packed : PackedLengths} {sequences : List (List α)}
    {result : List α} (hok : writeSequences settings rank zero sequences packed = .ok result) :
    result.length = packed.seqlensInBatchPadded.sum / settings.cpSize := by
  refine foldlM_invariant (fun rows => rows.length =
    packed.seqlensInBatchPadded.sum / settings.cpSize) ?_ (List.length_replicate ..) hok
  intro rows i next hrows hnext
  exact (length_of_writeSequence hnext).trans hrows

theorem of_preprocessThdEngine {packed : PackedRows α}
    (hbucket : ∀ bucket ∈ settings.padToLengthBucket, 0 < bucket)
    (hok : preprocessThdEngine settings rank zero batch.sequences = .ok packed) :
    writeSequences settings rank zero batch.sequences (settings.packed batch.lengths) =
        .ok packed.rows ∧
      packed.params = packedParams settings batch.lengths := by
  obtain ⟨lengths, hlengths, hok⟩ := bind_eq_ok.mp hok
  obtain ⟨rows, hrows, hok⟩ := bind_eq_ok.mp hok
  obtain ⟨-, hok⟩ := raiseIf_bind_eq_ok.mp hok
  cases (packLengths_lengths hbucket).symm.trans hlengths
  cases hok
  exact ⟨hrows, rfl⟩

/-- A contiguous split that `PackedSeqParams` cannot express is refused. -/
theorem layoutSupported_of_preprocessThdEngine {sequences : List (List α)}
    {packed : PackedRows α}
    (hok : preprocessThdEngine settings rank zero sequences = .ok packed) :
    settings.LayoutSupported := by
  obtain ⟨lengths, -, hok⟩ := bind_eq_ok.mp hok
  obtain ⟨rows, -, hok⟩ := bind_eq_ok.mp hok
  obtain ⟨hmode, -⟩ := raiseIf_bind_eq_ok.mp hok
  intro hlayout hcp
  by_contra hmissing
  exact hmode ⟨Bool.eq_false_iff.mpr hmissing, by simp [hlayout], hcp⟩

/-- The last sequence of a batch that a rank has packed. -/
theorem writeChunks_of_writeSequences (hlayout : settings.cpLayout = .zigzag)
    (hcp : 1 < settings.cpSize) {rows : List α} {last : ℕ}
    (hlast : last + 1 = batch.sequences.length)
    (hok : writeSequences settings rank zero batch.sequences (settings.packed batch.lengths) =
      .ok rows) :
    ∃ before : List α,
      before.length = settings.paddedTotal batch.lengths / settings.cpSize ∧
      writeChunks settings.cpSize rank settings.alignSize zero before
        (batch.sequences.getD last []) (settings.paddedLast batch.lengths)
        (offset (settings.paddedLengths batch.lengths) last) = .ok rows := by
  have hseqlen := settings.seqlenPadded_last (hlast.trans batch.length_lengths.symm)
  rw [ThdSettings.seqlenPadded] at hseqlen
  rw [writeSequences, ← hlast, List.range_succ, List.foldlM_append] at hok
  obtain ⟨before, hbefore, hok⟩ := bind_eq_ok.mp hok
  refine ⟨before, ?_, ?_⟩
  · refine foldlM_invariant (fun rows => rows.length =
      settings.paddedTotal batch.lengths / settings.cpSize) ?_ ?_ hbefore
    · intro rows i next hrows hnext
      exact (length_of_writeSequence hnext).trans hrows
    · rw [List.length_replicate, sum_packed]
  · rw [List.foldlM_cons] at hok
    obtain ⟨after, hafter, hok⟩ := bind_eq_ok.mp hok
    cases hok
    rw [writeSequence, hlayout] at hafter
    simp only [if_neg (not_le.mpr hcp)] at hafter
    rwa [ThdSettings.packed, hseqlen] at hafter

theorem offset_add_paddedLast {last : ℕ} (hlast : last + 1 = batch.sequences.length) :
    offset (settings.paddedLengths batch.lengths) last + settings.paddedLast batch.lengths =
      settings.paddedTotal batch.lengths := by
  rw [← settings.seqlenPadded_last (hlast.trans batch.length_lengths.symm),
    ← offset_seqlenPadded settings (by omega), hlast, ← batch.length_lengths,
    offset_length settings batch.lengths_ne_nil]

end Necessity

section Main

variable {settings : ThdSettings} {batch : Batch α} {zero : α}

/-- The last sequence starts and ends at a row of the ranks. -/
theorem cpSize_dvd_last (hbucket : ∀ bucket ∈ settings.padToLengthBucket, 0 < bucket)
    {last : ℕ} (hlast : last + 1 = batch.sequences.length) :
    settings.cpSize ∣ offset (settings.paddedLengths batch.lengths) last ∧
      settings.cpSize ∣ settings.paddedLast batch.lengths := by
  have hdvd := settings.cpSize_dvd_paddedLengths batch.lengths hbucket
  have hlength := settings.length_paddedLengths batch.lengths_ne_nil
  rw [batch.length_lengths] at hlength
  have hpadded : settings.cpSize ∣ settings.paddedLast batch.lengths :=
    hdvd _ (List.mem_append_right _ (List.mem_singleton_self _))
  refine ⟨?_, hpadded⟩
  rw [Nat.dvd_add_iff_left hpadded, offset_add_paddedLast hlast]
  exact settings.cpSize_dvd_paddedTotal batch.lengths hbucket

/-- The last rank finds its chunk from the front in the tokens. -/
theorem reach_of_writeChunks {before rows : List α} {last : ℕ}
    (hbucket : ∀ bucket ∈ settings.padToLengthBucket, 0 < bucket)
    (hlast : last + 1 = batch.sequences.length)
    (hbefore : before.length = settings.paddedTotal batch.lengths / settings.cpSize)
    (hok : writeChunks settings.cpSize (settings.cpSize - 1) settings.alignSize zero before
      (batch.sequences.getD last []) (settings.paddedLast batch.lengths)
      (offset (settings.paddedLengths batch.lengths) last) = .ok rows)
    (hhalf : 0 < settings.paddedLast batch.lengths / settings.cpSize / 2) :
    settings.cpSize * (settings.paddedLast batch.lengths / settings.cpSize / 2) ≤
        max (batch.sequences.getD last []).length settings.alignSize ∨
      max (batch.sequences.getD last []).length settings.alignSize =
        (settings.cpSize - 1) *
          (settings.paddedLast batch.lengths / settings.cpSize / 2) + 1 := by
  have hend : offset (settings.paddedLengths batch.lengths) last / settings.cpSize +
      settings.paddedLast batch.lengths / settings.cpSize =
        settings.paddedTotal batch.lengths / settings.cpSize := by
    rw [← Nat.add_div_of_dvd_left (cpSize_dvd_last hbucket hlast).2,
      offset_add_paddedLast hlast]
  obtain ⟨middle, hmiddle, -⟩ := bind_eq_ok.mp hok
  have hsource := source_of_assignSlice (by omega) hmiddle
  rw [slice, List.length_drop, List.length_take, length_padToAlign] at hsource
  generalize settings.paddedLast batch.lengths / settings.cpSize / 2 = half at hsource hhalf ⊢
  have hmul : settings.cpSize * half = (settings.cpSize - 1) * half + half := by
    rw [← Nat.succ_mul, Nat.succ_eq_add_one, Nat.sub_add_cancel settings.cpSize_pos]
  rw [Nat.sub_add_cancel settings.cpSize_pos, Nat.mul_comm half, Nat.mul_comm half] at hsource
  omega

/-- The chunks of the last sequence have the places that they are written to. -/
theorem even_of_gatherSequence {outputs : List (List α)} {garbage : ℕ → α} {result : List α}
    {last : ℕ} (hbucket : ∀ bucket ∈ settings.padToLengthBucket, 0 < bucket)
    (hlast : last + 1 = batch.sequences.length)
    (hrows : (outputs.getD 0 []).length =
      settings.paddedTotal batch.lengths / settings.cpSize)
    (hok : gatherSequence false settings.cpSize outputs garbage
      (offset (settings.paddedLengths batch.lengths) last)
      (offset (settings.paddedLengths batch.lengths) (last + 1))
      (batch.sequences.getD last []).length = .ok result)
    (hhalf : 0 < settings.paddedLast batch.lengths / settings.cpSize / 2) :
    settings.paddedLast batch.lengths / settings.cpSize =
      2 * (settings.paddedLast batch.lengths / settings.cpSize / 2) := by
  have hend : offset (settings.paddedLengths batch.lengths) last / settings.cpSize +
      settings.paddedLast batch.lengths / settings.cpSize =
        settings.paddedTotal batch.lengths / settings.cpSize := by
    rw [← Nat.add_div_of_dvd_left (cpSize_dvd_last hbucket hlast).2,
      offset_add_paddedLast hlast]
  have hseqlen : offset (settings.paddedLengths batch.lengths) (last + 1) -
      offset (settings.paddedLengths batch.lengths) last =
        settings.paddedLast batch.lengths := by
    rw [offset_seqlenPadded settings (by omega), Nat.add_sub_cancel_left,
      settings.seqlenPadded_last (hlast.trans batch.length_lengths.symm)]
  rw [gatherSequence, hseqlen] at hok
  obtain ⟨joined, hjoined, -⟩ := bind_eq_ok.mp hok
  have hroom : settings.paddedLast batch.lengths / settings.cpSize / 2 ≤
      settings.paddedLast batch.lengths / settings.cpSize * settings.cpSize :=
    (Nat.div_le_self _ 2).trans (Nat.le_mul_of_pos_right _ settings.cpSize_pos)
  have hsecond := secondChunk_of_joinHalves settings.cpSize_pos
    (by rwa [List.length_map, List.length_range]) hjoined
  rw [rankHalves, length_slice (by rw [hrows, ← hend])] at hsecond
  omega

/-- A sequence in the zigzag layout is padded to two rows a rank at least. -/
theorem half_pos (hlayout : settings.cpLayout = .zigzag) (hcp : 1 < settings.cpSize)
    {last : ℕ} (hlast : last + 1 = batch.sequences.length) :
    0 < settings.paddedLast batch.lengths / settings.cpSize / 2 := by
  have halign : 2 * settings.cpSize ≤ settings.alignSize :=
    Nat.le_of_dvd settings.alignSize_pos (settings.two_mul_cpSize_dvd_alignSize hlayout hcp)
  have hmax : max (batch.sequences.getD last []).length settings.alignSize ≤
      settings.seqlenPadded batch.lengths last := max_le_seqlenPadded settings (by omega)
  have hlong := (le_max_right _ _).trans hmax
  rw [settings.seqlenPadded_last (hlast.trans batch.length_lengths.symm)] at hlong
  apply Nat.div_pos _ (by decide)
  rw [Nat.le_div_iff_mul_le settings.cpSize_pos]
  exact halign.trans hlong

theorem lastChunksFit_of_roundTrips
    (hbucket : ∀ bucket ∈ settings.padToLengthBucket, 0 < bucket)
    (hround : RoundTrips settings zero batch) : settings.LastChunksFit batch.lengths := by
  intro hlayout hcp
  obtain ⟨packed, width, hgather, hall⟩ := hround.unpacks
  obtain ⟨last, hlast⟩ : ∃ last, last + 1 = batch.sequences.length :=
    ⟨batch.sequences.length - 1,
      Nat.sub_add_cancel (List.length_pos_iff.mpr batch.nonempty)⟩
  have hhalf := half_pos hlayout hcp hlast
  -- the last rank could copy its chunk from the front
  obtain ⟨final, hfinal⟩ :=
    eq_ok_of_mapM hgather (List.mem_range.mpr (Nat.sub_lt settings.cpSize_pos Nat.one_pos))
  obtain ⟨before, hbefore, hchunks⟩ := writeChunks_of_writeSequences hlayout hcp hlast
    (of_preprocessThdEngine hbucket hfinal).1
  have hreach := reach_of_writeChunks hbucket hlast hbefore hchunks hhalf
  -- the first rank's chunks fill their places
  have hpacked : 0 < packed.length := by
    rw [length_of_mapM hgather, List.length_range]
    exact settings.cpSize_pos
  have hmem : packed[0] ∈ packed := List.getElem_mem hpacked
  obtain ⟨source, -, hfirst⟩ := exists_of_mem_mapM hgather hmem
  obtain ⟨hwritten, hparams⟩ := of_preprocessThdEngine hbucket hfirst
  have hrows := length_of_writeSequences hwritten
  rw [sum_packed] at hrows
  have hpost := (hall _ hmem).2 fun _ => zero
  rw [hparams] at hpost
  obtain ⟨unpacked, hunpacked⟩ := eq_ok_of_mapM hpost
    (List.mem_range.mpr (show last < batch.lengths.length by
      rw [batch.length_lengths]
      omega))
  rw [unpackSequence, batch.lengths_getD, hlayout] at hunpacked
  simp only [if_neg (not_le.mpr hcp)] at hunpacked
  have heven := even_of_gatherSequence hbucket hlast
    (by rwa [List.getD_eq_getElem _ _ (by simpa using hpacked), List.getElem_map])
    hunpacked hhalf
  have hgetLast : batch.lengths.getLastD 0 = (batch.sequences.getD last []).length := by
    have hindex : batch.lengths.length - 1 = last := by
      rw [batch.length_lengths]
      omega
    rw [List.getLastD_eq_getLast?, List.getLast?_eq_getElem?, hindex,
      ← List.getD_eq_getElem?_getD, batch.lengths_getD]
  have hdvd := (cpSize_dvd_last hbucket hlast).2
  have htwo : settings.paddedLast batch.lengths =
      2 * settings.cpSize * (settings.paddedLast batch.lengths / settings.cpSize / 2) := by
    rw [Nat.mul_right_comm, ← heven, Nat.div_mul_cancel hdvd]
  refine ⟨⟨_, htwo⟩, ?_⟩
  rw [hgetLast, Nat.mul_comm 2, ← Nat.div_div_eq_div_mul]
  rcases hreach with hinside | hone
  · left
    rw [Nat.mul_assoc] at htwo
    omega
  · exact .inr hone

/-- Packing on all ranks and unpacking gives the batch back exactly when the
chunks of the last sequence stay within its tokens. -/
theorem roundTrips_iff (settings : ThdSettings) (zero : α) (batch : Batch α)
    (hbucket : ∀ bucket ∈ settings.padToLengthBucket, 0 < bucket)
    (hsupported : settings.LayoutSupported) :
    RoundTrips settings zero batch ↔ settings.LastChunksFit batch.lengths := by
  have hgather : ∀ {β : Type} (zero : β) (batch : Batch β),
      settings.LastChunksFit batch.lengths →
      gatherRows settings zero batch = .ok ((List.range settings.cpSize).map fun rank =>
        { rows := rankRows settings zero batch rank
          params := packedParams settings batch.lengths }) := by
    intro β zero batch hfit
    apply mapM_eq_ok_map
    intro rank hrank
    exact preprocessThdEngine_eq zero hbucket hfit hsupported (List.mem_range.mp hrank)
  constructor
  · exact lastChunksFit_of_roundTrips hbucket
  · intro hfit
    constructor
    · refine ⟨_, settings.paddedTotal batch.lengths / settings.cpSize,
        hgather zero batch hfit, ?_⟩
      intro held hheld
      obtain ⟨rank, hrank, rfl⟩ := List.mem_map.mp hheld
      refine ⟨length_rankRows zero hbucket hfit (List.mem_range.mp hrank), ?_⟩
      intro garbage
      rw [List.map_map]
      exact postprocessThdEngine_eq zero hbucket hfit garbage
    · refine ⟨_, hgather none batch.labelled (by rwa [batch.lengths_labelled]), ?_⟩
      intro i hi k hk
      exact existsUnique_gathered (existsUnique_rank hbucket hfit hi hk)

/-- Two ranks, a batch of a long and a short sequence, nothing padded further. -/
theorem twoRanks_roundTrips :
    RoundTrips
      { tpSize := 1, cpSize := 2, useFp8Padding := false, minLocalRows := none,
        padToLengthBucket := some 8, cpLayout := .zigzag, hasCpPartitionMode := false,
        tpSize_pos := by decide, cpSize_pos := by decide } 0
      { sequences := [[11, 12, 13, 14, 15], [21, 22, 23, 24, 25, 26]], nonempty := by decide,
        length_pos := by decide } :=
  (roundTrips_iff _ 0 _ (by simp) (by simp [ThdSettings.LayoutSupported])).mpr (by decide)

/-- A bucket that doubles the length of the only sequence leaves the second rank
without tokens for its chunk from the front. -/
theorem bucket_raises :
    ¬ RoundTrips
      { tpSize := 1, cpSize := 2, useFp8Padding := false, minLocalRows := none,
        padToLengthBucket := some 16, cpLayout := .zigzag, hasCpPartitionMode := false,
        tpSize_pos := by decide, cpSize_pos := by decide } 0
      { sequences := [[11, 12, 13, 14]], nonempty := by decide, length_pos := by decide } :=
  fun hround => absurd (lastChunksFit_of_roundTrips (by simp) hround) (by decide)

end Main

theorem oneSequence_ne_nil : [[11, 12, 13, 14]] ≠ [] := by
  decide

theorem oneSequence_length_pos : ∀ tokens ∈ [[11, 12, 13, 14]], 0 < tokens.length := by
  decide

/-- A batch of one sequence. -/
def fourTokens : Batch ℕ where
  sequences := [[11, 12, 13, 14]]
  nonempty := oneSequence_ne_nil
  length_pos := oneSequence_length_pos

end OneShotOPD.Mcore
