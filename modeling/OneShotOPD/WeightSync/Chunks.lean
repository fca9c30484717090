import OneShotOPD.WeightSync.Weights
import OneShotOPD.Core.Checks

/-!
# Weight chunks

A weight that is larger than a bucket is cut into chunks of at most one bucket.
The receiver takes a weight that fits in a bucket as a view of its only chunk,
and copies the chunks of a larger one together.
-/

namespace OneShotOPD.WeightSync

open Checks

structure TensorMeta where
  name : String
  shape : List ℕ
  dtype : Dtype
  chunkOffset : ℕ
  chunkSize : ℕ
  offset : Option ℕ
  deriving DecidableEq

/-- The bytes of the whole weight that a chunk is a part of. -/
def TensorMeta.nbytes (tensorMeta : TensorMeta) : ℕ :=
  tensorMeta.shape.prod * tensorMeta.dtype.itemsize

abbrev Chunk := TensorMeta × List UInt8

/-- The chunks of one weight from an offset on: the loop of
`split_weight_chunks`. -/
def splitFrom (bucketSize : ℕ) (hbucket : 0 < bucketSize) (weight : Weight)
    (chunkOffset : ℕ) : List Chunk :=
  if chunkOffset < weight.nbytes then
    let chunkSize := min bucketSize (weight.nbytes - chunkOffset)
    ({ name := weight.name
       shape := weight.shape
       dtype := weight.dtype
       chunkOffset
       chunkSize
       offset := none }, (weight.data.drop chunkOffset).take chunkSize) ::
      splitFrom bucketSize hbucket weight (chunkOffset + chunkSize)
  else []
termination_by weight.nbytes - chunkOffset

def splitWeightChunks (bucketSize : ℕ) (hbucket : 0 < bucketSize)
    (weights : List Weight) : List Chunk :=
  weights.flatMap fun weight => splitFrom bucketSize hbucket weight 0

/-! ## Merging -/

/-- A large weight of which some chunks have been received. -/
structure PartialWeight where
  name : String
  buffer : List UInt8
  offset : ℕ

/-- One round of the loop of `merge_weight_chunks`.  The second component of the
state are the weights that have been yielded. -/
def mergeStep (bucketSize : ℕ) (state : Option PartialWeight × List Weight)
    (received : TensorMeta × Slice) :
    Except TransferError (Option PartialWeight × List Weight) :=
  let (tensorMeta, chunk) := received
  if tensorMeta.nbytes ≤ bucketSize then do
    raiseIf (state.1.isSome) (.assertion "Weight must be None")
    let weight ← chunk.viewAs tensorMeta.name tensorMeta.shape tensorMeta.dtype
    return (none, state.2 ++ [weight])
  else do
    raiseIf (state.1.isNone ∧ tensorMeta.chunkOffset ≠ 0)
      (.assertion "Chunk offset must be 0")
    let merge := state.1.getD
      ⟨tensorMeta.name, List.replicate tensorMeta.nbytes 0, 0⟩
    raiseIf (tensorMeta.name ≠ merge.name)
      (.assertion "tensor_meta.name == merge_name")
    raiseIf (merge.offset ≠ tensorMeta.chunkOffset)
      (.assertion "merge_offset == tensor_meta.chunk_offset")
    let buffer := writeAt merge.buffer tensorMeta.chunkOffset chunk.bytes
    if tensorMeta.chunkOffset + tensorMeta.chunkSize = tensorMeta.nbytes then
      let weight ← (Slice.mk 0 buffer).viewAs merge.name tensorMeta.shape
        tensorMeta.dtype
      return (none, state.2 ++ [weight])
    else
      return (some ⟨merge.name, buffer, merge.offset + tensorMeta.chunkSize⟩, state.2)

def mergeWeightChunks (bucketSize : ℕ) (received : List (TensorMeta × Slice)) :
    Except TransferError (List Weight) := do
  let state ← received.foldlM (mergeStep bucketSize) (none, [])
  return state.2

/-! ## The chunks of a weight -/

section Split

variable {bucketSize : ℕ} (hbucket : 0 < bucketSize) (weight : Weight)

/-- The chunk that starts at an offset. -/
def chunkAt (bucketSize : ℕ) (weight : Weight) (chunkOffset : ℕ) : Chunk :=
  ({ name := weight.name
     shape := weight.shape
     dtype := weight.dtype
     chunkOffset
     chunkSize := min bucketSize (weight.nbytes - chunkOffset)
     offset := none },
    (weight.data.drop chunkOffset).take (min bucketSize (weight.nbytes - chunkOffset)))

theorem splitFrom_of_lt {chunkOffset : ℕ} (hoffset : chunkOffset < weight.nbytes) :
    splitFrom bucketSize hbucket weight chunkOffset =
      chunkAt bucketSize weight chunkOffset ::
        splitFrom bucketSize hbucket weight
          (chunkOffset + min bucketSize (weight.nbytes - chunkOffset)) := by
  rw [splitFrom, if_pos hoffset]
  rfl

theorem splitFrom_of_le {chunkOffset : ℕ} (hoffset : weight.nbytes ≤ chunkOffset) :
    splitFrom bucketSize hbucket weight chunkOffset = [] := by
  rw [splitFrom, if_neg (Nat.not_lt.mpr hoffset)]

theorem nbytes_chunkAt (chunkOffset : ℕ) :
    (chunkAt bucketSize weight chunkOffset).1.nbytes = weight.nbytes :=
  weight.data_length.symm

theorem length_chunkAt (chunkOffset : ℕ) :
    (chunkAt bucketSize weight chunkOffset).2.length =
      (chunkAt bucketSize weight chunkOffset).1.chunkSize := by
  simp [chunkAt, Weight.nbytes]

/-- A weight that fits in a bucket is one chunk, and none when it is empty. -/
theorem splitFrom_small (hsmall : weight.nbytes ≤ bucketSize) :
    splitFrom bucketSize hbucket weight 0 =
      if weight.data = [] then [] else [chunkAt bucketSize weight 0] := by
  by_cases hempty : weight.data = []
  · rw [if_pos hempty, splitFrom_of_le]
    simp [Weight.nbytes, hempty]
  · have hpos : 0 < weight.nbytes := List.length_pos_of_ne_nil hempty
    rw [if_neg hempty, splitFrom_of_lt hbucket weight hpos, splitFrom_of_le]
    omega

/-- Every chunk of a weight is a `chunkAt`. -/
theorem mem_splitFrom {chunkOffset : ℕ} {chunk : Chunk}
    (hchunk : chunk ∈ splitFrom bucketSize hbucket weight chunkOffset) :
    ∃ offset, chunkOffset ≤ offset ∧ offset < weight.nbytes ∧
      chunk = chunkAt bucketSize weight offset := by
  induction chunkOffset using splitFrom.induct bucketSize hbucket weight with
  | case1 chunkOffset hoffset chunkSize ih =>
      rw [splitFrom_of_lt hbucket weight hoffset] at hchunk
      rcases List.mem_cons.mp hchunk with rfl | hrest
      · exact ⟨chunkOffset, Nat.le_refl _, hoffset, rfl⟩
      · obtain ⟨offset, hle, hlt, rfl⟩ := ih hrest
        exact ⟨offset, by omega, hlt, rfl⟩
  | case2 chunkOffset hoffset =>
      rw [splitFrom_of_le hbucket weight (Nat.not_lt.mp hoffset)] at hchunk
      simp at hchunk

/-- All chunks of a weight but the last fill a bucket. -/
theorem pairwise_splitFrom (chunkOffset : ℕ) :
    (splitFrom bucketSize hbucket weight chunkOffset).Pairwise fun earlier _ =>
      earlier.1.chunkSize = bucketSize := by
  induction chunkOffset using splitFrom.induct bucketSize hbucket weight with
  | case1 chunkOffset hoffset chunkSize ih =>
      rw [splitFrom_of_lt hbucket weight hoffset]
      refine List.pairwise_cons.mpr ⟨fun later hlater => ?_, ih⟩
      obtain ⟨offset, hle, hlt, rfl⟩ := mem_splitFrom hbucket weight hlater
      simp only [chunkAt]
      omega
  | case2 chunkOffset hoffset =>
      rw [splitFrom_of_le hbucket weight (Nat.not_lt.mp hoffset)]
      exact .nil

end Split

/-! ## Merging the chunks of whole weights -/

/-- A chunk as it is received from the place in a bucket it was written to. -/
def place (placed : Chunk × ℕ) : TensorMeta × Slice :=
  ({ placed.1.1 with offset := some placed.2 }, ⟨placed.2, placed.1.2⟩)

/-- A chunk that is viewed in place lies at a multiple of its element size. -/
def Aligned (bucketSize : ℕ) (placed : Chunk × ℕ) : Prop :=
  placed.1.1.nbytes ≤ bucketSize → placed.1.1.dtype.itemsize ∣ placed.2

/-- The state of the receiver when it has copied a large weight up to an
offset. -/
structure CopiedTo (weight : Weight) (chunkOffset : ℕ)
    (partialWeight : Option PartialWeight) (buffer : List UInt8) : Prop where
  current : partialWeight.getD ⟨weight.name, List.replicate weight.nbytes 0, 0⟩ =
    ⟨weight.name, buffer, chunkOffset⟩
  first : partialWeight = none → chunkOffset = 0
  length : buffer.length = weight.nbytes
  bytes : buffer.take chunkOffset = weight.data.take chunkOffset

section Merge

variable {bucketSize : ℕ}

theorem copiedTo_none (weight : Weight) :
    CopiedTo weight 0 none (List.replicate weight.nbytes 0) where
  current := rfl
  first _ := rfl
  length := List.length_replicate
  bytes := rfl

theorem mergeStep_small (weight : Weight) (hsmall : weight.nbytes ≤ bucketSize)
    (start : ℕ) (merged : List Weight) :
    mergeStep bucketSize (none, merged) (place (chunkAt bucketSize weight 0, start)) =
      if weight.dtype.itemsize ∣ start then .ok (none, merged ++ [weight])
      else .error (.misaligned weight.name) := by
  have hbytes : (chunkAt bucketSize weight 0).2 = weight.data :=
    List.take_of_length_le (Nat.le_min.mpr ⟨hsmall, Nat.le_refl _⟩)
  have hnbytes : (place (chunkAt bucketSize weight 0, start)).1.nbytes ≤ bucketSize :=
    weight.data_length.symm.trans_le hsmall
  rw [mergeStep, if_pos hnbytes]
  have hview := viewAs_data weight start
  simp only [place, hbytes]
  simp only [chunkAt, hview]
  split <;> rfl

/-- One chunk of a large weight is copied behind those before it. -/
theorem mergeStep_large (weight : Weight) (hlarge : bucketSize < weight.nbytes)
    {chunkOffset chunkSize : ℕ} (hoffset : chunkOffset < weight.nbytes)
    (hsize : chunkSize = min bucketSize (weight.nbytes - chunkOffset))
    {partialWeight : Option PartialWeight} {buffer : List UInt8}
    (hcopied : CopiedTo weight chunkOffset partialWeight buffer)
    (start : ℕ) (merged : List Weight) :
    ∃ copied, CopiedTo weight (chunkOffset + chunkSize)
        (some ⟨weight.name, copied, chunkOffset + chunkSize⟩) copied ∧
      mergeStep bucketSize (partialWeight, merged)
          (place (chunkAt bucketSize weight chunkOffset, start)) =
        if chunkOffset + chunkSize = weight.nbytes then .ok (none, merged ++ [weight])
        else .ok (some ⟨weight.name, copied, chunkOffset + chunkSize⟩, merged) := by
  obtain ⟨hcurrent, hfirst, hlength, hbytes⟩ := hcopied
  have hdata : weight.data.length = weight.nbytes := rfl
  have hchunk : ((weight.data.drop chunkOffset).take chunkSize).length = chunkSize := by
    rw [List.length_take, List.length_drop]
    omega
  let copied := writeAt buffer chunkOffset ((weight.data.drop chunkOffset).take chunkSize)
  have hcopied : CopiedTo weight (chunkOffset + chunkSize)
      (some ⟨weight.name, copied, chunkOffset + chunkSize⟩) copied := by
    refine ⟨rfl, by simp, ?_, ?_⟩
    · rw [length_writeAt, hlength]
      omega
    · have htake := @take_writeAt buffer ((weight.data.drop chunkOffset).take chunkSize)
        chunkOffset (by omega)
      rw [hchunk] at htake
      rw [htake, hbytes, List.take_add]
  refine ⟨copied, hcopied, ?_⟩
  have hnbytes : (place (chunkAt bucketSize weight chunkOffset, start)).1.nbytes =
      weight.nbytes := weight.data_length.symm
  have hnone : ¬ (partialWeight.isNone ∧ chunkOffset ≠ 0) := by
    rintro ⟨hnone, hne⟩
    exact hne (hfirst (Option.isNone_iff_eq_none.mp hnone))
  rw [mergeStep, hnbytes, if_neg (Nat.not_le.mpr hlarge)]
  simp only [place, chunkAt, ← hsize, hcurrent, raiseIf, hnone, if_false, ne_eq,
    not_true_eq_false]
  by_cases hlast : chunkOffset + chunkSize = weight.nbytes
  · have hall : copied = weight.data := by
      have htake := hcopied.bytes
      rwa [hlast, ← hcopied.length, List.take_length, hcopied.length, ← hdata,
        List.take_length] at htake
    have hview := viewAs_data weight 0
    rw [if_pos (Nat.dvd_zero _), ← hall] at hview
    simp only [if_pos hlast]
    change ((Slice.mk 0 copied).viewAs weight.name weight.shape weight.dtype >>= _) = _
    rw [hview]
    rfl
  · simp only [if_neg hlast]
    rfl

variable (hbucket : 0 < bucketSize)

/-- The chunks of a large weight merge to the weight, wherever they lay. -/
theorem foldlM_mergeStep_large (weight : Weight) (hlarge : bucketSize < weight.nbytes)
    (merged : List Weight) {chunkOffset : ℕ} (hoffset : chunkOffset < weight.nbytes)
    {partialWeight : Option PartialWeight} {buffer : List UInt8}
    (hcopied : CopiedTo weight chunkOffset partialWeight buffer)
    {placed : List (Chunk × ℕ)}
    (hplaced : placed.map Prod.fst = splitFrom bucketSize hbucket weight chunkOffset) :
    (placed.map place).foldlM (mergeStep bucketSize) (partialWeight, merged) =
      .ok (none, merged ++ [weight]) := by
  induction placed generalizing chunkOffset partialWeight buffer with
  | nil =>
      rw [splitFrom_of_lt hbucket weight hoffset] at hplaced
      cases hplaced
  | cons head placed ih =>
      obtain ⟨chunk, start⟩ := head
      rw [splitFrom_of_lt hbucket weight hoffset, List.map_cons] at hplaced
      obtain ⟨rfl, hrest⟩ := List.cons.inj hplaced
      obtain ⟨copied, hnext, hstep⟩ :=
        mergeStep_large weight hlarge hoffset rfl hcopied start merged
      rw [List.map_cons, List.foldlM_cons, hstep]
      generalize hsize : min bucketSize (weight.nbytes - chunkOffset) = chunkSize at *
      by_cases hlast : chunkOffset + chunkSize = weight.nbytes
      · rw [splitFrom_of_le hbucket weight (Nat.le_of_eq hlast.symm)] at hrest
        rw [if_pos hlast, List.map_eq_nil_iff.mp hrest]
        rfl
      · rw [if_neg hlast]
        exact ih (by omega) hnext hrest

/-- Merging the chunks of whole weights yields the weights that have elements,
unless a chunk that is viewed in place is not aligned. -/
theorem foldlM_mergeStep (weights merged : List Weight) {placed : List (Chunk × ℕ)}
    (hplaced : placed.map Prod.fst = splitWeightChunks bucketSize hbucket weights) :
    (∀ chunk ∈ placed, Aligned bucketSize chunk) ∧
        (placed.map place).foldlM (mergeStep bucketSize) (none, merged) =
          .ok (none, merged ++ weights.filter fun weight => weight.data ≠ []) ∨
      ¬ (∀ chunk ∈ placed, Aligned bucketSize chunk) ∧
        ∃ name, (placed.map place).foldlM (mergeStep bucketSize) (none, merged) =
          .error (.misaligned name) := by
  induction weights generalizing placed merged with
  | nil =>
      obtain rfl := List.map_eq_nil_iff.mp hplaced
      exact .inl ⟨by simp, by simp [pure, Except.pure]⟩
  | cons weight weights ih =>
      rw [splitWeightChunks, List.flatMap_cons] at hplaced
      obtain ⟨own, rest, rfl, hown, hrest⟩ := List.map_eq_append_iff.mp hplaced
      rw [List.map_append, List.foldlM_append, List.forall_mem_append]
      by_cases hlarge : bucketSize < weight.nbytes
      · have hpos : 0 < weight.nbytes := by omega
        have hdata : weight.data ≠ [] := List.ne_nil_of_length_pos hpos
        have halign : ∀ chunk ∈ own, Aligned bucketSize chunk := by
          intro chunk hchunk hsmall
          have hmem : chunk.1 ∈ splitFrom bucketSize hbucket weight 0 :=
            hown ▸ List.mem_map_of_mem hchunk
          obtain ⟨offset, _, _, heq⟩ := mem_splitFrom hbucket weight hmem
          rw [heq, nbytes_chunkAt] at hsmall
          omega
        rw [foldlM_mergeStep_large hbucket weight hlarge merged hpos
          (copiedTo_none weight) hown, and_iff_right halign,
          List.filter_cons_of_pos (by simpa using hdata)]
        have hih := ih (merged ++ [weight]) hrest
        rw [List.append_assoc, List.singleton_append] at hih
        exact hih
      · have hsmall := Nat.not_lt.mp hlarge
        rw [splitFrom_small hbucket weight hsmall] at hown
        by_cases hempty : weight.data = []
        · rw [if_pos hempty] at hown
          obtain rfl := List.map_eq_nil_iff.mp hown
          simpa [hempty] using ih merged hrest
        · rw [if_neg hempty] at hown
          obtain ⟨⟨chunk, start⟩, rfl, heq⟩ := List.map_eq_singleton_iff.mp hown
          obtain rfl : chunk = chunkAt bucketSize weight 0 := heq
          have halign : Aligned bucketSize (chunkAt bucketSize weight 0, start) ↔
              weight.dtype.itemsize ∣ start :=
            ⟨fun h => h (weight.data_length.symm.trans_le hsmall), fun h _ => h⟩
          have hstep : ([(chunkAt bucketSize weight 0, start)].map place).foldlM
              (mergeStep bucketSize) (none, merged) =
                if weight.dtype.itemsize ∣ start then .ok (none, merged ++ [weight])
                else .error (.misaligned weight.name) := by
            rw [List.map_singleton, List.foldlM_cons, mergeStep_small weight hsmall]
            split <;> rfl
          rw [hstep, List.forall_mem_singleton, halign,
            List.filter_cons_of_pos (by simpa using hempty)]
          by_cases hdvd : weight.dtype.itemsize ∣ start
          · rw [if_pos hdvd, and_iff_right hdvd]
            have hih := ih (merged ++ [weight]) hrest
            rw [List.append_assoc, List.singleton_append] at hih
            exact hih
          · rw [if_neg hdvd]
            exact .inr ⟨fun hboth => hdvd hboth.1, weight.name, rfl⟩

theorem mergeWeightChunks_cases (weights : List Weight) {placed : List (Chunk × ℕ)}
    (hplaced : placed.map Prod.fst = splitWeightChunks bucketSize hbucket weights) :
    (∀ chunk ∈ placed, Aligned bucketSize chunk) ∧
        mergeWeightChunks bucketSize (placed.map place) =
          .ok (weights.filter fun weight => weight.data ≠ []) ∨
      ¬ (∀ chunk ∈ placed, Aligned bucketSize chunk) ∧
        ∃ name, mergeWeightChunks bucketSize (placed.map place) =
          .error (.misaligned name) := by
  rw [mergeWeightChunks]
  rcases foldlM_mergeStep hbucket weights [] hplaced with
    ⟨haligned, hmerge⟩ | ⟨haligned, name, hmerge⟩
  · exact .inl ⟨haligned, by rw [hmerge]; rfl⟩
  · exact .inr ⟨haligned, name, by rw [hmerge]; rfl⟩

end Merge

end OneShotOPD.WeightSync
