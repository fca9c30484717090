import OneShotOPD.Trainer.BalanceBatch
import Mathlib

/-!
# When balancing is aligned with the dispatch

Partitions of equal size are what the dispatch hands out.  Mini batches keep apart as long
as the rows are not ordered across them, and groups of one size that are contiguous stay
together.  In all other cases some attention mask breaks the agreement.
-/

namespace OneShotOPD.BalanceBatch

open Checks Protocol SeqlenBalancing
open scoped List

variable {α Uid μ : Type}

/-! ## The dispatch -/

/-- Equal pieces of rows that were laid out by partitions are the partitions. -/
theorem chunk_gather_flatten {data : DataProto String (RowEntry α) Uid μ}
    {partitions : List (List ℕ)} {dpSize size : ℕ} (hdp : 0 < dpSize) (hsize : 0 < size)
    (hlength : partitions.length = dpSize)
    (hsizes : ∀ partition ∈ partitions, partition.length = size)
    (hrows : ∀ i ∈ partitions.flatten, i < data.len) (autoPadding : Bool) :
    (data.gather partitions.flatten).chunk autoPadding dpSize =
      .ok (partitions.map fun partition => data.gather partition) := by
  have hmap : partitions.map List.length = List.replicate dpSize size := by
    rw [List.eq_replicate_iff, List.length_map]
    refine ⟨hlength, fun length hmem => ?_⟩
    obtain ⟨partition, hpartition, rfl⟩ := List.mem_map.mp hmem
    exact hsizes partition hpartition
  have htotal : partitions.flatten.length = dpSize * size := by
    rw [List.length_flatten, hmap, List.sum_replicate_nat]
  have hlen : (data.gather partitions.flatten).len = dpSize * size := by
    rw [DataProto.len_gather_of_lt hrows, htotal]
  have hpieces : (DataProto.pieces (List.replicate dpSize size) (dpSize * size)).map
      (fun piece => OneShotOPD.gather piece partitions.flatten) = partitions := by
    have hflatten := @DataProto.flatten_pieces (List.replicate dpSize size) (dpSize * size)
      List.sum_replicate_nat
    rw [List.eq_iff_flatten_eq]
    constructor
    · rw [← List.flatMap_def, ← gather_flatten, hflatten, ← htotal, OneShotOPD.gather_range]
    · have hlengths := List.map_splitLengths_length (List.range (dpSize * size))
        (List.replicate dpSize size) (by rw [List.sum_replicate_nat, List.length_range])
      rw [hmap, List.map_map]
      refine Eq.trans (List.map_congr_left fun piece hpiece => ?_) hlengths
      refine length_gather_of_lt fun i hi => ?_
      rw [htotal, ← List.mem_range, ← hflatten]
      exact List.mem_flatten.mpr ⟨piece, hpiece, hi⟩
  have hpos : 0 < dpSize * size := Nat.mul_pos hdp hsize
  rw [DataProto.chunk_of_splits hdp (DataProto.splits_of_dvd hdp (hlen ▸ hpos)
    (hlen ▸ Nat.dvd_mul_right _ _)), DataProto.pieceSizes_of_mul hdp hsize hlen, hlen]
  congr 1
  conv_rhs => rw [← hpieces, List.map_map]
  refine List.map_congr_left fun piece _ => ?_
  exact DataProto.gather_gather hrows piece

/-- What the dispatch hands out are partitions of one size. -/
theorem length_of_chunk_gather {data : DataProto String (RowEntry α) Uid μ}
    {partitions : List (List ℕ)} {dpSize : ℕ} {autoPadding : Bool} (hdp : 0 < dpSize)
    (hpos : 0 < data.len) (hdvd : dpSize ∣ data.len)
    (hperm : partitions.flatten.Perm (List.range data.len))
    (hchunk : (data.gather partitions.flatten).chunk autoPadding dpSize =
      .ok (partitions.map fun partition => data.gather partition)) :
    ∀ partition ∈ partitions, partition.length = data.len / dpSize := by
  have hrows : ∀ i ∈ partitions.flatten, i < data.len := fun i hi =>
    List.mem_range.mp (hperm.mem_iff.mp hi)
  have hlen : (data.gather partitions.flatten).len = data.len := by
    rw [DataProto.len_gather_of_lt hrows, hperm.length_eq, List.length_range]
  obtain ⟨size, hsize⟩ := hdvd
  have hsizePos : 0 < size := Nat.pos_of_mul_pos_left (hsize ▸ hpos)
  rw [DataProto.chunk_of_splits hdp (DataProto.splits_of_dvd hdp (hlen ▸ hpos)
    (hlen ▸ ⟨size, hsize⟩)), DataProto.pieceSizes_of_mul hdp hsizePos (hlen.trans hsize), hlen,
    Except.ok.injEq] at hchunk
  intro partition hpartition
  have hmem := hchunk ▸ List.mem_map_of_mem (f := fun partition => data.gather partition) hpartition
  obtain ⟨piece, hpiece, heq⟩ := List.mem_map.mp hmem
  have hpieceLength : piece.length = size := by
    have hlengths := List.map_splitLengths_length (List.range data.len)
      (List.replicate dpSize size) (by
        rw [List.sum_replicate_nat, List.length_range, hsize])
    exact List.eq_of_mem_replicate (hlengths ▸ List.mem_map_of_mem hpiece)
  have hpieceRows : ∀ i ∈ piece, i < (data.gather partitions.flatten).len := by
    intro i hi
    rw [hlen, ← List.mem_range, ← DataProto.flatten_pieces (show (List.replicate dpSize size).sum =
      data.len by rw [List.sum_replicate_nat, hsize])]
    exact List.mem_flatten.mpr ⟨piece, hpiece, hi⟩
  have hlens := congrArg DataProto.len heq
  rw [DataProto.len_gather_of_lt hpieceRows, hpieceLength, DataProto.len_gather_of_lt fun i hi =>
    hrows i (List.mem_flatten.mpr ⟨partition, hpartition, hi⟩)] at hlens
  rw [← hlens, hsize, Nat.mul_div_cancel_left _ hdp]

variable [DecidableEq Uid]

/-- The call on a batch with a mask. -/
theorem balanceBatch_eq_ok {config : BalanceConfig} {data : DataProto String (RowEntry α) Uid μ}
    {width : ℕ} {kept : ℕ → ℕ → Bool} {partitions : List (List ℕ)}
    {batch : DataProto String (RowEntry α) Uid μ} :
    balanceBatch config (withAttentionMask data width kept) = .ok (partitions, batch) ↔
      globalPartitionLst config (maskSeqlens data.len width kept)
          (config.mode (data.nonTensorBatch.get? "uid")) = .ok partitions ∧
        partitions.flatten ≠ [] ∧ (∀ i ∈ partitions.flatten, i < data.len) ∧
          batch = (withAttentionMask data width kept).gather partitions.flatten := by
  rw [balanceBatch, globalSeqlenLst_withAttentionMask]
  simp only [bind_eq_ok, nonTensorBatch_withAttentionMask]
  constructor
  · rintro ⟨partitions, hpartitions, batch, hbatch, hok⟩
    cases hok
    rw [reorder] at hbatch
    split at hbatch
    next => contradiction
    next hne =>
      rw [DataProto.selectIdxs] at hbatch
      split at hbatch
      next hrows => exact ⟨hpartitions, hne, hrows, (Except.ok.inj hbatch).symm⟩
      next => contradiction
  · rintro ⟨hpartitions, hne, hrows, rfl⟩
    refine ⟨partitions, hpartitions, _, ?_, rfl⟩
    rw [reorder, if_neg hne, DataProto.selectIdxs]
    exact if_pos hrows

/-! ## The order within a partition -/

theorem everyOther_perm (items : List ℕ) :
    (everyOther items ++ everyOther items.tail).Perm items := by
  induction items using everyOther.induct with
  | case1 => exact .refl _
  | case2 item => exact .refl _
  | case3 item next items ih =>
      have hnext : everyOther (next :: items) = next :: everyOther items.tail := by
        cases items <;> rfl
      rw [everyOther, List.tail_cons, hnext]
      exact (List.perm_middle.trans (ih.cons next)).cons item

theorem orderPartition_perm (workloadLst partition : List ℕ) :
    (orderPartition workloadLst partition).Perm partition := by
  rw [orderPartition]
  calc everyOther (sortByWorkload workloadLst partition) ++
        (everyOther (sortByWorkload workloadLst partition).tail).reverse
      ~ everyOther (sortByWorkload workloadLst partition) ++
          everyOther (sortByWorkload workloadLst partition).tail :=
        (List.reverse_perm _).append_left _
    _ ~ sortByWorkload workloadLst partition := everyOther_perm _
    _ ~ partition := List.perm_insertionSort _ _

/-- The first row of a partition has the least workload. -/
theorem head_orderPartition (workloadLst : List ℕ) {partition : List ℕ} (hne : partition ≠ []) :
    ∃ first rest, orderPartition workloadLst partition = first :: rest ∧
      ∀ i ∈ partition, workloadLst.getD first 0 ≤ workloadLst.getD i 0 := by
  have hperm : (sortByWorkload workloadLst partition).Perm partition :=
    List.perm_insertionSort _ _
  have hsorted : (sortByWorkload workloadLst partition).Pairwise fun x y =>
      toLex (workloadLst.getD x 0, x) ≤ toLex (workloadLst.getD y 0, y) :=
    List.pairwise_insertionSort (fun x y : ℕ =>
      toLex (workloadLst.getD x 0, x) ≤ toLex (workloadLst.getD y 0, y)) partition
  rw [orderPartition]
  generalize sortByWorkload workloadLst partition = ordered at hperm hsorted ⊢
  cases ordered with
  | nil => exact absurd (List.nil_perm.mp hperm) hne
  | cons first others =>
      obtain ⟨rest, hrest⟩ : ∃ rest, everyOther (first :: others) = first :: rest := by
        cases others <;> exact ⟨_, rfl⟩
      refine ⟨first, _, by rw [hrest]; rfl, fun i hi => ?_⟩
      rcases List.mem_cons.mp (hperm.mem_iff.mpr hi) with rfl | hi
      · exact le_rfl
      · rcases Prod.Lex.toLex_le_toLex.mp (List.rel_of_pairwise_cons hsorted hi) with hlt | ⟨heq, -⟩
        · exact hlt.le
        · exact heq.le

/-- What ordering the partitions leaves as it was. -/
theorem globalPartitionLst_eq_ok {config : BalanceConfig} {seqlenLst : List ℕ}
    {mode : BalanceMode Uid} {partitions : List (List ℕ)}
    (hok : globalPartitionLst config seqlenLst mode = .ok partitions) :
    ∃ unordered, partitionRows config seqlenLst mode = .ok unordered ∧
      partitions = if config.usePrefixGrouper then unordered
        else unordered.map (orderPartition (seqlenLst.map calculateWorkload)) := by
  obtain ⟨unordered, hunordered, hok⟩ := bind_eq_ok.mp hok
  exact ⟨unordered, hunordered, (Except.ok.inj hok).symm⟩

theorem flatten_ordered_perm (workloadLst : List ℕ) (partitions : List (List ℕ)) :
    (partitions.map (orderPartition workloadLst)).flatten.Perm partitions.flatten := by
  rw [← List.flatMap_def, List.flatten_eq_flatMap]
  exact List.Perm.flatMap_left _ fun partition _ => orderPartition_perm workloadLst partition

/-! ## Mini batches -/

/-- The partitions after some of the mini batches. -/
structure MinibatchesPlaced (minibatchSize dpSize count : ℕ) (partitions : List (List ℕ)) :
    Prop where
  length_eq : partitions.length = dpSize
  perm : partitions.flatten.Perm (List.range (count * minibatchSize))
  size : ∀ partition ∈ partitions, partition.length = count * (minibatchSize / dpSize)
  slice : ∀ partition ∈ partitions, ∀ place (hplace : place < partition.length),
    partition[place] / minibatchSize = place / (minibatchSize / dpSize)

theorem zipWith_append_flatten_perm {lists others : List (List ℕ)} (f : ℕ → ℕ)
    (hlength : lists.length = others.length) :
    (List.zipWith (fun list other => list ++ other.map f) lists others).flatten.Perm
      (lists.flatten ++ others.flatten.map f) := by
  induction lists generalizing others with
  | nil =>
      obtain rfl := List.eq_nil_of_length_eq_zero hlength.symm
      exact .refl _
  | cons list lists ih =>
      cases others with
      | nil => simp at hlength
      | cons other others =>
          have hrest := ih (Nat.succ.inj hlength)
          simp only [List.zipWith_cons_cons, List.flatten_cons, List.map_append, List.append_assoc]
          refine List.Perm.append_left _ ?_
          calc other.map f ++ (List.zipWith (fun list other => list ++ other.map f)
                lists others).flatten
              ~ other.map f ++ (lists.flatten ++ others.flatten.map f) := hrest.append_left _
            _ ~ lists.flatten ++ (other.map f ++ others.flatten.map f) := by
                rw [← List.append_assoc, ← List.append_assoc]
                exact List.perm_append_comm.append_right _

theorem MinibatchesPlaced.extend {minibatchSize dpSize count : ℕ} {partitions : List (List ℕ)}
    (hplaced : MinibatchesPlaced minibatchSize dpSize count partitions) (hdp : 0 < dpSize)
    (hdvd : dpSize ∣ minibatchSize) (hmini : 0 < minibatchSize) {rearranged : List (List ℕ)}
    (hlength : rearranged.length = dpSize)
    (hperm : rearranged.flatten.Perm (List.range minibatchSize))
    (hsizes : ∀ part ∈ rearranged, part.length = minibatchSize / dpSize) :
    MinibatchesPlaced minibatchSize dpSize (count + 1)
      (extendPartitions minibatchSize count partitions rearranged) := by
  have hmem : ∀ partition ∈ extendPartitions minibatchSize count partitions rearranged,
      ∃ old ∈ partitions, ∃ part ∈ rearranged,
        partition = old ++ part.map (· + minibatchSize * count) := by
    intro partition hpartition
    obtain ⟨i, hi, rfl⟩ := List.mem_iff_getElem.mp hpartition
    exact ⟨_, List.getElem_mem _, _, List.getElem_mem _, List.getElem_zipWith⟩
  constructor
  case length_eq =>
    rw [extendPartitions, List.length_zipWith, hplaced.length_eq, hlength, Nat.min_self]
  case perm =>
    rw [extendPartitions, Nat.succ_mul]
    refine (zipWith_append_flatten_perm _ (hplaced.length_eq.trans hlength.symm)).trans ?_
    calc partitions.flatten ++ rearranged.flatten.map (· + minibatchSize * count)
        ~ List.range (count * minibatchSize) ++
            (List.range minibatchSize).map (· + minibatchSize * count) :=
          hplaced.perm.append (hperm.map _)
      _ = List.range (count * minibatchSize + minibatchSize) := by
          rw [List.range_add]
          congr 1
          refine List.map_congr_left fun i _ => ?_
          rw [Nat.add_comm, Nat.mul_comm]
  case size =>
    intro partition hpartition
    obtain ⟨old, hold, part, hpart, rfl⟩ := hmem partition hpartition
    rw [List.length_append, List.length_map, hplaced.size old hold, hsizes part hpart,
      Nat.succ_mul]
  case slice =>
    intro partition hpartition place hplace
    obtain ⟨old, hold, part, hpart, rfl⟩ := hmem partition hpartition
    rcases Nat.lt_or_ge place old.length with hlt | hge
    · rw [List.getElem_append_left hlt]
      exact hplaced.slice old hold place hlt
    · have hsize := hplaced.size old hold
      have hpartSize := hsizes part hpart
      have hpos : 0 < minibatchSize / dpSize := Nat.div_pos (Nat.le_of_dvd hmini hdvd) hdp
      rw [List.length_append, List.length_map] at hplace
      rw [List.getElem_append_right hge, List.getElem_map]
      have hwithin : place - old.length < part.length := by omega
      have hindex : part[place - old.length] < minibatchSize :=
        List.mem_range.mp (hperm.mem_iff.mp (List.mem_flatten.mpr
          ⟨part, hpart, List.getElem_mem _⟩))
      have hplaceDiv : place / (minibatchSize / dpSize) = count := by
        apply Nat.div_eq_of_lt_le
        · rwa [hsize] at hge
        · rw [Nat.succ_mul]
          omega
      rw [hplaceDiv, Nat.add_mul_div_left _ _ hmini, Nat.div_eq_of_lt hindex, Nat.zero_add]

theorem minibatchPartitions_eq_ok {workloadLst : List ℕ} {minibatchSize dpSize : ℕ}
    (hdp : 0 < dpSize) (hdvd : dpSize ∣ minibatchSize) (hmini : 0 < minibatchSize) :
    ∃ partitions, minibatchPartitions workloadLst minibatchSize dpSize = .ok partitions ∧
      MinibatchesPlaced minibatchSize dpSize (workloadLst.length / minibatchSize) partitions := by
  rw [minibatchPartitions, if_neg hmini.ne']
  have hbound : workloadLst.length / minibatchSize * minibatchSize ≤ workloadLst.length :=
    Nat.div_mul_le_self _ _
  generalize workloadLst.length / minibatchSize = count at hbound ⊢
  induction count with
  | zero =>
      refine ⟨_, rfl, List.length_replicate, ?_, ?_, ?_⟩
      · simp
      · intro partition hpartition
        rw [List.eq_of_mem_replicate hpartition, Nat.zero_mul, List.length_nil]
      · intro partition hpartition place hplace
        rw [List.eq_of_mem_replicate hpartition] at hplace
        exact absurd hplace (Nat.not_lt_zero _)
  | succ count ih =>
      rw [Nat.succ_mul] at hbound
      obtain ⟨partitions, hpartitions, hplaced⟩ := ih (by omega)
      have hlength : (minibatch workloadLst minibatchSize count).length = minibatchSize := by
        rw [minibatch, List.length_take, List.length_drop]
        omega
      obtain ⟨rearranged, hrearranged, hsizes⟩ := @getSeqlenBalancedPartitions_isOk
        (minibatch workloadLst minibatchSize count) dpSize true hdp
        (hlength.symm ▸ Nat.le_of_dvd hmini hdvd) fun _ => hlength.symm ▸ hdvd
      obtain ⟨hbalanced, -⟩ := getSeqlenBalancedPartitions_balanced hrearranged
      rw [hlength] at hsizes
      refine ⟨extendPartitions minibatchSize count partitions rearranged, ?_,
        hplaced.extend hdp hdvd hmini hbalanced.length_eq (hlength ▸ hbalanced.perm)
          (hsizes rfl)⟩
      rw [List.range_succ, List.foldlM_append, hpartitions]
      change (do
        let rearranged ←
          getSeqlenBalancedPartitions (minibatch workloadLst minibatchSize count) dpSize true
        return extendPartitions minibatchSize count partitions rearranged) >>= pure = _
      rw [hrearranged]
      rfl

/-! ## The modes -/

/-- Where no attention mask breaks what is promised. -/
def AlwaysAligned (config : BalanceConfig) (count : ℕ) : BalanceMode Uid → Prop
  | .plain => True
  | .keepMinibatch =>
      config.ppoMiniBatchSize = 0 ∨ count ≤ config.ppoMiniBatchSize ∨
        config.usePrefixGrouper ∧ config.ppoMiniBatchSize ∣ count
  | .prefixGrouper uidList =>
      config.dpSize = 1 ∨ ¬ config.dpSize ∣ uidList.dedup.length ∨
        ¬ config.dpSize ∣ numRuns uidList ∨ Contiguous uidList ∧ SameSizeGroups uidList

omit [DecidableEq Uid] in
theorem BalanceConfig.mode_eq_prefixGrouper {config : BalanceConfig} {uid : Option (List Uid)}
    {uidList : List Uid} (hmode : config.mode uid = .prefixGrouper uidList) :
    config.usePrefixGrouper = true ∧ uid = some uidList := by
  unfold mode at hmode
  split at hmode
  next others huse =>
    cases hmode
    exact ⟨huse, rfl⟩
  next => split at hmode <;> cases hmode

section Modes

variable {config : BalanceConfig} {data : DataProto String (RowEntry α) Uid μ} {width : ℕ}
  {kept : ℕ → ℕ → Bool} {partitions unordered : List (List ℕ)}
  {batch : DataProto String (RowEntry α) Uid μ}

/-- Ordering keeps the rows of the partitions. -/
theorem partitions_of_balanceBatch
    (hok : balanceBatch config (withAttentionMask data width kept) = .ok (partitions, batch)) :
    ∃ unordered, partitionRows config (maskSeqlens data.len width kept)
        (config.mode (data.nonTensorBatch.get? "uid")) = .ok unordered ∧
      partitions.flatten.Perm unordered.flatten ∧ partitions.length = unordered.length ∧
      (∀ partition ∈ partitions, ∃ source ∈ unordered, partition.Perm source) ∧
      (config.usePrefixGrouper → partitions = unordered) := by
  obtain ⟨unordered, hunordered, rfl⟩ := globalPartitionLst_eq_ok (balanceBatch_eq_ok.mp hok).1
  refine ⟨unordered, hunordered, ?_⟩
  split
  next =>
    exact ⟨.refl _, rfl, fun partition hpartition => ⟨partition, hpartition, .refl _⟩,
      fun _ => rfl⟩
  next huse =>
    refine ⟨flatten_ordered_perm _ _, List.length_map _, fun partition hpartition => ?_,
      fun htrue => absurd htrue huse⟩
    obtain ⟨source, hsource, rfl⟩ := List.mem_map.mp hpartition
    exact ⟨source, hsource, orderPartition_perm _ _⟩

/-- Partitions of one size are dispatched as they are. -/
theorem aligned_of_sizes
    (hok : balanceBatch config (withAttentionMask data width kept) = .ok (partitions, batch))
    (hperm : partitions.flatten.Perm (List.range data.len))
    (hlength : partitions.length = config.dpSize) {size : ℕ}
    (hsizes : ∀ partition ∈ partitions, partition.length = size)
    (htogether : ∀ uidList, config.mode (data.nonTensorBatch.get? "uid") =
      .prefixGrouper uidList → ∀ partition ∈ partitions, ∀ i ∈ partition, ∀ j < uidList.length,
        uidList[j]? = uidList[i]? → j ∈ partition)
    (hslices : config.mode (data.nonTensorBatch.get? "uid") = .keepMinibatch →
      ∀ partition ∈ partitions, ∀ place (hplace : place < partition.length),
        partition[place] / config.ppoMiniBatchSize =
          place / (config.ppoMiniBatchSize / config.dpSize)) :
    Aligned config (withAttentionMask data width kept) partitions batch := by
  obtain ⟨-, hne, hrows, rfl⟩ := balanceBatch_eq_ok.mp hok
  refine ⟨hperm, rfl, fun autoPadding => ?_, htogether, hslices⟩
  have hsize : 0 < size := by
    obtain ⟨i, hi⟩ := List.exists_mem_of_ne_nil _ hne
    obtain ⟨partition, hpartition, hin⟩ := List.mem_flatten.mp hi
    exact hsizes partition hpartition ▸ List.length_pos_of_mem hin
  exact @chunk_gather_flatten _ _ _ (withAttentionMask data width kept) _ _ _ config.dpSize_pos
    hsize hlength hsizes hrows autoPadding

theorem aligned_plain (hmode : config.mode (data.nonTensorBatch.get? "uid") = .plain) :
    BalancesAligned config (withAttentionMask data width kept) := by
  intro partitions batch hok
  obtain ⟨unordered, hunordered, hperm, hlength, hsource, -⟩ := partitions_of_balanceBatch hok
  rw [hmode, partitionRows] at hunordered
  obtain ⟨hbalanced, -⟩ := getSeqlenBalancedPartitions_balanced hunordered
  obtain ⟨-, hsizes⟩ := equalSizes_of_eq_ok hunordered
  have hrows := hbalanced.perm
  rw [List.length_map, length_maskSeqlens] at hrows
  have hequal : ∀ partition ∈ partitions, partition.length = _ := fun partition hpartition => by
    obtain ⟨source, hmem, heq⟩ := hsource partition hpartition
    exact heq.length_eq.trans (hsizes source hmem)
  refine aligned_of_sizes hok (hperm.trans hrows) (hlength.trans hbalanced.length_eq) hequal
    (fun uidList huid => ?_) fun hkeep => ?_
  · rw [hmode] at huid
    cases huid
  · rw [hmode] at hkeep
    cases hkeep

theorem aligned_keepMinibatch
    (hmode : config.mode (data.nonTensorBatch.get? "uid") = .keepMinibatch)
    (hmini : config.dpSize ∣ config.ppoMiniBatchSize)
    (hcase : config.ppoMiniBatchSize = 0 ∨ data.len ≤ config.ppoMiniBatchSize ∨
      config.usePrefixGrouper ∧ config.ppoMiniBatchSize ∣ data.len) :
    BalancesAligned config (withAttentionMask data width kept) := by
  intro partitions batch hok
  obtain ⟨unordered, hunordered, hperm, hlength, hsource, hsame⟩ := partitions_of_balanceBatch hok
  rw [hmode, partitionRows] at hunordered
  rcases Nat.eq_zero_or_pos config.ppoMiniBatchSize with hzero | hpos
  · rw [minibatchPartitions, if_pos hzero] at hunordered
    contradiction
  obtain ⟨placedPartitions, hplacedOk, hplaced⟩ := @minibatchPartitions_eq_ok
    ((maskSeqlens data.len width kept).map calculateWorkload) _ _ config.dpSize_pos hmini hpos
  rw [hunordered, Except.ok.injEq] at hplacedOk
  subst hplacedOk
  rw [List.length_map, length_maskSeqlens] at hplaced
  have hne := (balanceBatch_eq_ok.mp hok).2.1
  -- Less than one mini batch has no partitions.
  have hcount : 0 < data.len / config.ppoMiniBatchSize := by
    refine Nat.pos_of_ne_zero fun hnone => hne ?_
    have hempty := hperm.trans hplaced.perm
    rwa [hnone, Nat.zero_mul, List.range_zero, List.perm_nil] at hempty
  have hle := Nat.div_pos_iff.mp hcount
  have hdvd : config.ppoMiniBatchSize ∣ data.len ∧
      (config.usePrefixGrouper ∨ data.len / config.ppoMiniBatchSize = 1) := by
    rcases hcase with hzero | hsmall | ⟨huse, hdvd⟩
    · omega
    · have heq : data.len = config.ppoMiniBatchSize := by omega
      rw [heq]
      exact ⟨Nat.dvd_refl _, .inr (Nat.div_self hpos)⟩
    · exact ⟨hdvd, .inl huse⟩
  have hrows := hplaced.perm
  rw [Nat.div_mul_cancel hdvd.1] at hrows
  have hsizes : ∀ partition ∈ partitions, partition.length =
      data.len / config.ppoMiniBatchSize * (config.ppoMiniBatchSize / config.dpSize) := by
    intro partition hpartition
    obtain ⟨source, hmem, heq⟩ := hsource partition hpartition
    exact heq.length_eq.trans (hplaced.size source hmem)
  refine aligned_of_sizes hok (hperm.trans hrows) (hlength.trans hplaced.length_eq) hsizes
    (fun uidList huid => ?_) fun _ partition hpartition place hplace => ?_
  · rw [hmode] at huid
    cases huid
  · rcases hdvd.2 with huse | hone
    · exact hplaced.slice partition (hsame huse ▸ hpartition) place hplace
    · have hrow : partition[place] < data.len := by
        rw [← List.mem_range, ← (hperm.trans hrows).mem_iff]
        exact List.mem_flatten.mpr ⟨partition, hpartition, List.getElem_mem hplace⟩
      have hsize := hsizes partition hpartition
      have hlen := Nat.div_mul_cancel hdvd.1
      rw [hone, Nat.one_mul] at hsize hlen
      rw [Nat.div_eq_of_lt (hlen ▸ hrow), Nat.div_eq_of_lt (hsize ▸ hplace)]

theorem aligned_prefixGrouper {uidList : List Uid}
    (hmode : config.mode (data.nonTensorBatch.get? "uid") = .prefixGrouper uidList)
    (hlengths : uidList.length = data.len)
    (hcase : config.dpSize = 1 ∨ ¬ config.dpSize ∣ uidList.dedup.length ∨
      ¬ config.dpSize ∣ numRuns uidList ∨ Contiguous uidList ∧ SameSizeGroups uidList) :
    BalancesAligned config (withAttentionMask data width kept) := by
  intro partitions batch hok
  obtain ⟨unordered, hunordered, -, -, -, hsame⟩ := partitions_of_balanceBatch hok
  obtain rfl := hsame (BalanceConfig.mode_eq_prefixGrouper hmode).1
  rw [hmode, partitionRows, prefixGroupPartitions] at hunordered
  split at hunordered
  next => contradiction
  next hmod =>
    obtain ⟨hlength, hperm⟩ := groupPartitions_perm hunordered
    have hruns : config.dpSize ∣ numRuns uidList := by
      by_contra hruns
      obtain ⟨groupPartitions, hgroups, -⟩ := getGroupBalancedPartitions_eq_ok hunordered
      have hcount := (equalSize_of_eq_ok hgroups).2
      rw [uidGroupWorkloads, List.length_map, (areRuns_uidGroups uidList).count] at hcount
      exact hruns hcount
    have hgroups : config.dpSize = 1 ∨ Contiguous uidList ∧ SameSizeGroups uidList := by
      rcases hcase with hone | hnot | hnot | hgroups
      · exact .inl hone
      · exact absurd (Nat.dvd_of_mod_eq_zero (not_not.mp hmod)) hnot
      · exact absurd hruns hnot
      · exact .inr hgroups
    have hkeeps : KeepsGroups (maskSeqlens data.len width kept) uidList config.dpSize :=
      hgroups.elim (fun hone => keepsGroups_of_le_one _ _ hone.le)
        fun hgroups => keepsGroups_of_contiguous hgroups.1 _ _
    obtain ⟨size, hsizes⟩ : ∃ size, ∀ partition ∈ partitions, partition.length = size := by
      rcases hgroups with hone | ⟨hcontiguous, hsame⟩
      · obtain ⟨only, rfl⟩ := List.length_eq_one_iff.mp (hlength.trans hone)
        exact ⟨only.length, fun partition hpartition => by rw [List.mem_singleton.mp hpartition]⟩
      · exact length_of_sameSizeGroups hcontiguous hsame hunordered
    refine aligned_of_sizes hok (hlengths ▸ hperm) hlength hsizes (fun others huid => ?_)
      fun hkeep => ?_
    · rw [hmode, BalanceMode.prefixGrouper.injEq] at huid
      subst huid
      exact (hkeeps _ hunordered).2.2
    · rw [hmode] at hkeep
      cases hkeep

/-! ## Masks that break it -/

/-- Partitions of rows of the batch are laid out. -/
theorem exists_balanceBatch
    (hunordered : partitionRows config (maskSeqlens data.len width kept)
      (config.mode (data.nonTensorBatch.get? "uid")) = .ok unordered)
    (hne : unordered.flatten ≠ []) (hrows : ∀ i ∈ unordered.flatten, i < data.len) :
    ∃ batch, balanceBatch config (withAttentionMask data width kept) =
      .ok (if config.usePrefixGrouper then unordered
        else unordered.map (orderPartition
          ((maskSeqlens data.len width kept).map calculateWorkload)), batch) := by
  refine ⟨_, balanceBatch_eq_ok.mpr ⟨?_, ?_, ?_, rfl⟩⟩
  · rw [globalPartitionLst, hunordered]
    rfl
  all_goals split
  · exact hne
  · intro hnil
    exact hne (List.nil_perm.mp (hnil ▸ flatten_ordered_perm _ unordered))
  · exact hrows
  · intro i hi
    exact hrows i ((flatten_ordered_perm _ unordered).mem_iff.mp hi)

/-- Rows of several mini batches are lost if the last one is not complete, and otherwise
they are mixed by the order within the partitions. -/
theorem exists_mask_keepMinibatch
    (hmode : config.mode (data.nonTensorBatch.get? "uid") = .keepMinibatch)
    (hmini : config.dpSize ∣ config.ppoMiniBatchSize) (hpos : 0 < config.ppoMiniBatchSize)
    (hlarge : config.ppoMiniBatchSize < data.len)
    (hcase : ¬ (config.usePrefixGrouper ∧ config.ppoMiniBatchSize ∣ data.len)) :
    ∃ width kept, ¬ BalancesAligned config (withAttentionMask data width kept) := by
  -- The rows of the first mini batch are the longer ones.
  let kept : ℕ → ℕ → Bool := fun i _ => decide (i < config.ppoMiniBatchSize)
  refine ⟨1, kept, fun haligned => ?_⟩
  obtain ⟨unordered, hunordered, hplaced⟩ := @minibatchPartitions_eq_ok
    ((maskSeqlens data.len 1 kept).map calculateWorkload) _ _ config.dpSize_pos hmini hpos
  rw [List.length_map, length_maskSeqlens] at hplaced
  have hcount : 0 < data.len / config.ppoMiniBatchSize := Nat.div_pos hlarge.le hpos
  have hbound := Nat.div_mul_le_self data.len config.ppoMiniBatchSize
  have hne : unordered.flatten ≠ [] := by
    intro hnil
    have hlength := hplaced.perm.length_eq
    rw [hnil, List.length_range, List.length_nil] at hlength
    have := Nat.mul_pos hcount hpos
    omega
  obtain ⟨batch, hok⟩ := exists_balanceBatch (by rwa [hmode, partitionRows]) hne fun i hi =>
    (List.mem_range.mp (hplaced.perm.mem_iff.mp hi)).trans_le hbound
  have hpromise := haligned _ _ hok
  have hdvd : config.ppoMiniBatchSize ∣ data.len := by
    have hlength := hpromise.perm.length_eq
    rw [List.length_range, len_withAttentionMask] at hlength
    have hflatten : (if config.usePrefixGrouper then unordered else unordered.map (orderPartition
        ((maskSeqlens data.len 1 kept).map calculateWorkload))).flatten.length =
          unordered.flatten.length := by
      split
      next => rfl
      next => exact (flatten_ordered_perm _ unordered).length_eq
    rw [hflatten, hplaced.perm.length_eq, List.length_range] at hlength
    exact ⟨_, hlength.symm.trans (Nat.mul_comm _ _)⟩
  have huse : ¬ config.usePrefixGrouper := fun huse => hcase ⟨huse, hdvd⟩
  have hseveral : 2 ≤ data.len / config.ppoMiniBatchSize := by
    obtain ⟨count, hcountEq⟩ := hdvd
    rw [hcountEq, Nat.mul_div_cancel_left _ hpos]
    by_contra hsmall
    have : count ≤ 1 := by omega
    have := Nat.mul_le_mul_left config.ppoMiniBatchSize this
    omega
  have hslice : 0 < config.ppoMiniBatchSize / config.dpSize :=
    Nat.div_pos (Nat.le_of_dvd hpos hmini) config.dpSize_pos
  -- The first partition has a row of the second mini batch.
  obtain ⟨partition, hpartition⟩ := List.exists_mem_of_ne_nil unordered fun hnil => hne (by
    rw [hnil]
    rfl)
  have hsize := hplaced.size partition hpartition
  have hlong : config.ppoMiniBatchSize / config.dpSize < partition.length := by
    have := Nat.mul_le_mul_right (config.ppoMiniBatchSize / config.dpSize) hseveral
    omega
  have hsecond := hplaced.slice partition hpartition _ hlong
  rw [Nat.div_self hslice] at hsecond
  obtain ⟨first, rest, hordered, hleast⟩ := head_orderPartition
    ((maskSeqlens data.len 1 kept).map calculateWorkload)
    (List.ne_nil_of_length_pos (hslice.trans hlong))
  have hrow : ∀ i ∈ partition, i < data.len := fun i hi =>
    (List.mem_range.mp (hplaced.perm.mem_iff.mp
      (List.mem_flatten.mpr ⟨partition, hpartition, hi⟩))).trans_le hbound
  have hvalue : ∀ i < data.len, ((maskSeqlens data.len 1 kept).map calculateWorkload).getD i 0 =
      if i < config.ppoMiniBatchSize then calculateWorkload 1 else 0 := by
    intro i hi
    rw [List.getD_eq_getElem _ _ (by simpa using hi)]
    simp only [List.getElem_map, maskSeqlens, List.getElem_range, List.range_one, List.map_cons,
      List.map_nil, kept]
    split
    next hlt => simp [hlt]
    next hge => simp [hge, calculateWorkload]
  -- It is lighter, and comes first.
  have hfirst : first ∈ partition := by
    rw [← (orderPartition_perm ((maskSeqlens data.len 1 kept).map calculateWorkload)
      partition).mem_iff, hordered]
    exact List.mem_cons_self
  have hbehind : ¬ partition[config.ppoMiniBatchSize / config.dpSize] <
      config.ppoMiniBatchSize := by
    intro hlt
    rw [Nat.div_eq_of_lt hlt] at hsecond
    exact absurd hsecond (by decide)
  have hlight := hleast _ (List.getElem_mem hlong)
  rw [hvalue _ (hrow _ (List.getElem_mem hlong)), hvalue _ (hrow _ hfirst),
    if_neg hbehind] at hlight
  have hfirstLight : ¬ first < config.ppoMiniBatchSize := by
    intro hlt
    rw [if_pos hlt] at hlight
    exact absurd hlight (by decide)
  have hzero := hpromise.slices hmode (first :: rest) (by
    rw [if_neg huse]
    exact List.mem_map.mpr ⟨partition, hpartition, hordered⟩) 0 (Nat.succ_pos _)
  rw [Nat.zero_div, List.getElem_cons_zero, Nat.div_eq_zero_iff] at hzero
  omega

/-- Groups that are not contiguous, or of different sizes, are torn apart or do not fit. -/
theorem exists_mask_prefixGrouper {uidList : List Uid}
    (hmode : config.mode (data.nonTensorBatch.get? "uid") = .prefixGrouper uidList)
    (hlengths : uidList.length = data.len) (hdata : config.dpSize ∣ data.len)
    (hone : config.dpSize ≠ 1) (hdedup : config.dpSize ∣ uidList.dedup.length)
    (hruns : config.dpSize ∣ numRuns uidList)
    (hcase : ¬ (Contiguous uidList ∧ SameSizeGroups uidList)) :
    ∃ width kept, ¬ BalancesAligned config (withAttentionMask data width kept) := by
  have hdp : 2 ≤ config.dpSize := by
    have := config.dpSize_pos
    omega
  -- Lengths with which the groups are not kept together, or the partitions differ in size.
  obtain ⟨seqlenList, partitions, hlength, hok, hbad⟩ : ∃ seqlenList partitions,
      seqlenList.length = data.len ∧
        getGroupBalancedPartitions seqlenList uidList config.dpSize = .ok partitions ∧
          ¬ ((∀ partition ∈ partitions, ∀ i ∈ partition, ∀ j < uidList.length,
            uidList[j]? = uidList[i]? → j ∈ partition) ∧
              ∀ partition ∈ partitions, partition.length = data.len / config.dpSize) := by
    by_cases hcontiguous : Contiguous uidList
    · have hsame : ¬ SameSizeGroups uidList := fun hsame => hcase ⟨hcontiguous, hsame⟩
      rw [SameSizeGroups] at hsame
      push Not at hsame
      obtain ⟨uid, huid, other, hother, hne⟩ := hsame
      have hgroups := areRuns_uidGroups uidList
      have hgroupOf : ∀ uid ∈ uidList, ∃ group ∈ uidGroups uidList,
          group.length = uidList.count uid := by
        intro uid huid
        obtain ⟨i, hi, rfl⟩ := List.mem_iff_getElem.mp huid
        obtain ⟨group, hgroup, hmem⟩ := hgroups.mem_group_iff.mp hi
        exact ⟨group, hgroup, hgroups.length_group hcontiguous hgroup hmem
          (List.getElem?_eq_getElem hi)⟩
      obtain ⟨group, hgroup, hcount⟩ := hgroupOf uid huid
      obtain ⟨otherGroup, hotherGroup, hotherCount⟩ := hgroupOf other hother
      obtain ⟨seqlenList, partitions, hlength, hok, partition, hpartition, hsize⟩ :=
        exists_unequal_partition hdp hruns hgroup hotherGroup
          (by rwa [hcount, hotherCount]) (data.len / config.dpSize)
      exact ⟨seqlenList, partitions, hlength.trans hlengths, hok, fun hgood =>
        hsize (hgood.2 partition hpartition)⟩
    · obtain ⟨seqlenList, hsplit⟩ := exists_not_keepsGroups hcontiguous hdp hruns
      rw [KeepsGroups] at hsplit
      push Not at hsplit
      obtain ⟨partitions, hok, hsplit⟩ := hsplit
      obtain ⟨hlengthPartitions, hperm⟩ := groupPartitions_perm hok
      obtain ⟨partition, hpartition, i, hi, j, hj, heq, hout⟩ := hsplit hlengthPartitions hperm
      have hlength : seqlenList.length = uidList.length := by
        rw [getGroupBalancedPartitions] at hok
        split at hok
        next => contradiction
        next heq => exact not_not.mp heq
      exact ⟨seqlenList, partitions, hlength.trans hlengths, hok, fun hgood =>
        hout (hgood.1 partition hpartition i hi j hj heq)⟩
  obtain ⟨width, kept, hmask⟩ := exists_maskSeqlens seqlenList
  rw [hlength] at hmask
  refine ⟨width, kept, fun haligned => hbad ?_⟩
  obtain ⟨-, hperm⟩ := groupPartitions_perm hok
  rw [hlengths] at hperm
  have hpos : 0 < data.len := by
    rcases Nat.eq_zero_or_pos data.len with hzero | hpos
    · -- Without rows there is no group, and the groups are as promised.
      rw [← hlengths, List.length_eq_zero_iff] at hzero
      subst hzero
      exact absurd ⟨by simp [Contiguous], by simp [SameSizeGroups]⟩ hcase
    · exact hpos
  obtain ⟨huse, -⟩ := BalanceConfig.mode_eq_prefixGrouper hmode
  obtain ⟨batch, hbatch⟩ := @exists_balanceBatch _ _ _ _ config data width kept partitions
    (by
      rw [hmode, partitionRows, prefixGroupPartitions,
        if_neg (not_not.mpr (Nat.mod_eq_zero_of_dvd hdedup)), hmask, hok])
    (fun hnil => by
      have hlengthEq := hperm.length_eq
      rw [hnil, List.length_nil, List.length_range] at hlengthEq
      omega)
    fun i hi => List.mem_range.mp (hperm.mem_iff.mp hi)
  rw [if_pos huse] at hbatch
  have hpromise := haligned _ _ hbatch
  refine ⟨hpromise.together uidList hmode, ?_⟩
  have hchunk := hpromise.dispatched false
  rw [hpromise.rows] at hchunk
  exact @length_of_chunk_gather _ _ _ (withAttentionMask data width kept) _ _ _
    config.dpSize_pos hpos hdata hperm hchunk

end Modes

/-- Whatever the attention mask, balancing raises or permutes the rows in agreement with
the dispatch exactly in plain mode, for at most one mini batch, where the rows of complete
mini batches are not ordered, and for contiguous groups of one size. -/
theorem balancesAligned_iff (config : BalanceConfig)
    (data : DataProto String (RowEntry α) Uid μ) (hdata : config.dpSize ∣ data.len)
    (hmini : config.dpSize ∣ config.ppoMiniBatchSize) :
    (∀ width kept, BalancesAligned config (withAttentionMask data width kept)) ↔
      AlwaysAligned config data.len (config.mode (data.nonTensorBatch.get? "uid")) := by
  cases hmode : config.mode (data.nonTensorBatch.get? "uid") with
  | plain => exact iff_of_true (fun width kept => aligned_plain hmode) trivial
  | keepMinibatch =>
      refine ⟨fun haligned => ?_, fun hcase width kept =>
        aligned_keepMinibatch hmode hmini hcase⟩
      rw [AlwaysAligned]
      by_contra hnot
      push Not at hnot
      obtain ⟨hzero, hlarge, hcase⟩ := hnot
      obtain ⟨width, kept, hbad⟩ := exists_mask_keepMinibatch hmode hmini
        (Nat.pos_of_ne_zero hzero) hlarge fun hboth => hcase hboth.1 hboth.2
      exact hbad (haligned width kept)
  | prefixGrouper uidList =>
      have hlengths : uidList.length = data.len := by
        have hcolumn := (BalanceConfig.mode_eq_prefixGrouper hmode).2
        rw [Dict.get?_eq_some_iff] at hcolumn
        exact data.consistent _ hcolumn
      refine ⟨fun haligned => ?_, fun hcase width kept =>
        aligned_prefixGrouper hmode hlengths hcase⟩
      rw [AlwaysAligned]
      by_contra hnot
      push Not at hnot
      obtain ⟨hone, hdedup, hruns, hcase⟩ := hnot
      obtain ⟨width, kept, hbad⟩ := exists_mask_prefixGrouper hmode hlengths hdata hone hdedup
        hruns fun hboth => hcase hboth.1 hboth.2
      exact hbad (haligned width kept)

/-- Two mini batches of two rows, the first with longer rows. -/
def fourRows : DataProto String (RowEntry Unit) Unit Unit where
  batch := some {
    batchSize := 4
    columns := ⟨[("attention_mask", [.mask [true, true], .mask [true, true],
      .mask [true, false], .mask [true, false]])], by decide⟩
    aligned := by decide }
  nonTensorBatch := Dict.empty
  metaInfo := ⟨none, Dict.empty, [], none, MetaInfo.uniform_nil⟩
  consistent := by decide

theorem fourRows_aligned :
    BalancesAligned ⟨false, true, 4, 2, by decide⟩
      (withAttentionMask fourRows 2 fun _ _ => true) := by
  have haligned := balancesAligned_iff ⟨false, true, 4, 2, by decide⟩ fourRows (by decide)
    (by decide)
  exact haligned.mpr (.inr (.inl (by decide))) _ _

/-- The ranks start with the rows of the second mini batch. -/
theorem fourRows_not_aligned :
    ¬ BalancesAligned ⟨false, true, 2, 2, by decide⟩ fourRows := by
  have hpartitions : (balanceBatch ⟨false, true, 2, 2, by decide⟩ fourRows).map Prod.fst =
      .ok [[3, 1], [2, 0]] := by decide +kernel
  intro haligned
  obtain ⟨⟨partitions, batch⟩, hok, hfirst⟩ := map_eq_ok.mp hpartitions
  obtain rfl : partitions = [[3, 1], [2, 0]] := hfirst
  have hslice := (haligned _ _ hok).slices rfl [3, 1] (by decide) 0 (by decide)
  exact absurd hslice (by decide)

end OneShotOPD.BalanceBatch
