import OneShotOPD.Core.Tensor
import OneShotOPD.Core.Scatter
import OneShotOPD.Core.Dict
import Mathlib

/-!
# Jagged tensors

A jagged tensor holds samples that differ in the size of one axis, joined along that axis.  It
is taken apart by unbinding; when that raises, chunking pads all samples to one size, slices the
padded batch and cuts each sample at its length on its first axis.
-/

namespace OneShotOPD.TensorDicts

open Function

variable {rank : ℕ} {α : Type} [Zero α]

/-- A jagged tensor of samples with `rank` axes.  Its `_ragged_idx` counts the batch axis, so
it is one more than the ragged axis of a sample. -/
@[ext]
structure Nested (rank : ℕ) (α : Type) [Zero α] where
  values : Tensor rank α
  lengths : List ℕ
  raggedAxis : Fin rank
  sum_lengths : values.shape raggedAxis = lengths.sum

namespace Nested

def samples (nested : Nested rank α) : List (Tensor rank α) :=
  Tensor.split nested.raggedAxis nested.lengths nested.values

/-- The jagged tensor of a list of samples. -/
def ofList (raggedAxis : Fin rank) (tensors : List (Tensor rank α)) : Nested rank α where
  values := Tensor.cat raggedAxis tensors
  lengths := tensors.map fun tensor => tensor.shape raggedAxis
  raggedAxis := raggedAxis
  sum_lengths := Tensor.shape_cat_axis raggedAxis tensors

@[simp]
theorem raggedAxis_ofList (raggedAxis : Fin rank) (tensors : List (Tensor rank α)) :
    (ofList raggedAxis tensors).raggedAxis = raggedAxis := rfl

@[simp]
theorem length_samples (nested : Nested rank α) :
    nested.samples.length = nested.lengths.length :=
  Tensor.length_split _ _ _

theorem samples_ofList {raggedAxis : Fin rank} {tensors : List (Tensor rank α)}
    {x : Tensor rank α} (hsame : ∀ tensor ∈ tensors, Tensor.SameOff raggedAxis tensor x) :
    (ofList raggedAxis tensors).samples = tensors :=
  Tensor.split_cat hsame

theorem ofList_samples {nested : Nested rank α} (hlengths : nested.lengths ≠ []) :
    ofList nested.raggedAxis nested.samples = nested := by
  apply Nested.ext
  · exact Tensor.cat_split hlengths nested.sum_lengths
  · exact Tensor.map_shape_split nested.sum_lengths
  · rfl

theorem sameOff_samples {nested : Nested rank α} {sample : Tensor rank α}
    (hsample : sample ∈ nested.samples) :
    Tensor.SameOff nested.raggedAxis sample nested.values :=
  Tensor.sameOff_of_mem_split hsample

theorem map_shape_samples (nested : Nested rank α) :
    nested.samples.map (fun sample => sample.shape nested.raggedAxis) = nested.lengths :=
  Tensor.map_shape_split nested.sum_lengths

end Nested

/-- `nested_tensor_from_tensor_list`.  For samples of one axis the code calls
`torch.nested.as_nested_tensor`, which joins them along that axis. -/
def nestedTensorFromTensorList (raggedAxis : Fin rank) (tensors : List (Tensor rank α)) :
    Except String (Nested rank α) :=
  match tensors with
  | [] => .error "AssertionError: Must provide at least one tensor"
  | first :: _ =>
      if ∀ tensor ∈ tensors, Tensor.SameOff raggedAxis tensor first then
        .ok (Nested.ofList raggedAxis tensors)
      else .error "RuntimeError: Sizes of tensors must match except in one dimension"

theorem nestedTensorFromTensorList_eq {raggedAxis : Fin rank} {tensors : List (Tensor rank α)}
    {x : Tensor rank α} (htensors : tensors ≠ [])
    (hsame : ∀ tensor ∈ tensors, Tensor.SameOff raggedAxis tensor x) :
    nestedTensorFromTensorList raggedAxis tensors = .ok (Nested.ofList raggedAxis tensors) := by
  cases tensors with
  | nil => exact absurd rfl htensors
  | cons first tensors =>
      exact if_pos fun tensor htensor =>
        (hsame tensor htensor).trans (hsame first List.mem_cons_self).symm

/-! ## Unbinding -/

structure Column (α : Type) [Zero α] where
  rank : ℕ
  nested : Nested rank α

/-- What the operations ask of torch: on which jagged tensors `unbind` raises, and the maximal
length of a sample, for the tensors that keep it in their cache. -/
structure Torch (α : Type) [Zero α] where
  unbindFails : Column α → Bool
  maxSeqlen : Column α → Option ℕ
  le_maxSeqlen : ∀ column size, maxSeqlen column = some size →
    ∀ length ∈ column.nested.lengths, length ≤ size

/-- `unbind(dim=0)`, which raises on some tensors and gives the samples of the others. -/
def unbind (torch : Torch α) (nested : Nested rank α) : Except String (List (Tensor rank α)) :=
  if torch.unbindFails ⟨rank, nested⟩ then
    .error "RuntimeError: split_with_sizes expects split_sizes to sum exactly"
  else .ok nested.samples

theorem unbind_eq_ok {torch : Torch α} {nested : Nested rank α}
    {tensors : List (Tensor rank α)} :
    unbind torch nested = .ok tensors ↔
      torch.unbindFails ⟨rank, nested⟩ = false ∧ tensors = nested.samples := by
  rw [unbind]
  cases torch.unbindFails ⟨rank, nested⟩ <;> simp [eq_comm]

/-! ## Chunks of a column -/

/-- `rows[part * size : (part + 1) * size]`. -/
def chunkOf {β : Type} (size part : ℕ) (rows : List β) : List β :=
  (rows.drop (part * size)).take size

/-- One chunk from the unbound samples. -/
def unboundChunk (size part : ℕ) (raggedAxis : Fin rank) (tensors : List (Tensor rank α)) :
    Except String (Nested rank α) :=
  nestedTensorFromTensorList raggedAxis (chunkOf size part tensors)

def Nested.firstAxis (nested : Nested rank α) : Fin rank :=
  ⟨0, Nat.zero_lt_of_lt nested.raggedAxis.isLt⟩

/-- The size that torch pads to: the maximal length if it is cached, and `values.size(0)` if
not. -/
def Torch.paddedSize (torch : Torch α) (nested : Nested rank α) : ℕ :=
  (torch.maxSeqlen ⟨rank, nested⟩).getD (nested.values.shape nested.firstAxis)

/-- `to_padded_tensor(0)`, as the list of its rows. -/
def toPaddedTensor (torch : Torch α) (nested : Nested rank α) : List (Tensor rank α) :=
  nested.samples.map fun sample =>
    Tensor.ofFn (update sample.shape nested.raggedAxis (torch.paddedSize nested)) sample.value

/-- One chunk from the padded batch: `padded_chunks[i][j, :seq_len]`. -/
def paddedChunk (torch : Torch α) (size part : ℕ) (nested : Nested rank α) :
    Except String (Nested rank α) :=
  nestedTensorFromTensorList nested.raggedAxis
    (List.zipWith (fun padded seqLen => padded.slice nested.firstAxis 0 seqLen)
      (chunkOf size part (toPaddedTensor torch nested)) (chunkOf size part nested.lengths))

/-- One chunk of a jagged column in `chunk_tensordict`. -/
def chunkNested (torch : Torch α) (size part : ℕ) (nested : Nested rank α) :
    Except String (Nested rank α) :=
  match unbind torch nested with
  | .ok tensors => unboundChunk size part nested.raggedAxis tensors
  | .error _ => paddedChunk torch size part nested

theorem zipWith_chunkOf {β γ δ : Type} (f : β → γ → δ) (size part : ℕ) (rows : List β)
    (others : List γ) :
    List.zipWith f (chunkOf size part rows) (chunkOf size part others) =
      chunkOf size part (List.zipWith f rows others) := by
  rw [chunkOf, chunkOf, chunkOf, List.drop_zipWith, List.take_zipWith]

/-- What the fallback takes for the samples. -/
def cutSamples (torch : Torch α) (nested : Nested rank α) : List (Tensor rank α) :=
  List.zipWith (fun padded seqLen => padded.slice nested.firstAxis 0 seqLen)
    (toPaddedTensor torch nested) nested.lengths

theorem paddedChunk_eq (torch : Torch α) (size part : ℕ) (nested : Nested rank α) :
    paddedChunk torch size part nested =
      unboundChunk size part nested.raggedAxis (cutSamples torch nested) := by
  rw [paddedChunk, zipWith_chunkOf, unboundChunk, cutSamples]

/-! ## When the fallback agrees -/

variable {nested : Nested rank α}

/-- torch pads a column that is ragged on the first axis of its samples to no less than the
longest one. -/
theorem le_paddedSize (torch : Torch α) (hfirst : nested.raggedAxis = nested.firstAxis)
    {length : ℕ} (hlength : length ∈ nested.lengths) : length ≤ torch.paddedSize nested := by
  rw [Torch.paddedSize]
  cases hcached : torch.maxSeqlen ⟨rank, nested⟩ with
  | some size => exact torch.le_maxSeqlen _ size hcached length hlength
  | none =>
      rw [Option.getD_none, ← hfirst, nested.sum_lengths]
      exact List.single_le_sum (fun _ _ => Nat.zero_le _) length hlength

theorem shape_sample_raggedAxis {index : ℕ} (hindex : index < nested.samples.length)
    (hlengths : index < nested.lengths.length) :
    nested.samples[index].shape nested.raggedAxis = nested.lengths[index] := by
  have hshapes := nested.map_shape_samples
  have hentry : (nested.samples.map fun sample => sample.shape nested.raggedAxis)[index]? =
      nested.lengths[index]? := by rw [hshapes]
  simpa [List.getElem?_eq_getElem hindex, List.getElem?_eq_getElem hlengths] using hentry

/-- A sample that is ragged on its first axis is cut at its end. -/
theorem slice_padded {sample : Tensor rank α} {axis : Fin rank} {size : ℕ}
    (hsize : sample.shape axis ≤ size) :
    (Tensor.ofFn (update sample.shape axis size) sample.value).slice axis 0 (sample.shape axis) =
      sample := by
  have hshape : ((Tensor.ofFn (update sample.shape axis size) sample.value).slice axis 0
      (sample.shape axis)).shape = sample.shape := by
    rw [Tensor.shape_slice, Tensor.shape_ofFn, Nat.sub_zero, update_self, update_idem,
      Nat.min_eq_left hsize, update_eq_self]
  apply Tensor.ext_inside hshape
  intro coordinate hinside
  rw [Tensor.value_slice hinside, Nat.add_zero (coordinate axis), update_eq_self,
    Tensor.value_ofFn]
  rw [hshape] at hinside
  intro other
  by_cases hother : other = axis
  · subst hother
    rw [update_self]
    exact Nat.lt_of_lt_of_le (hinside other) hsize
  · rw [update_of_ne hother]
    exact hinside other

/-- The fallback gets all samples back that are ragged on their first axis. -/
theorem cutSamples_eq (torch : Torch α) (hfirst : nested.raggedAxis = nested.firstAxis) :
    cutSamples torch nested = nested.samples := by
  apply List.ext_getElem
  · simp [cutSamples, toPaddedTensor]
  · intro index hcut hsample
    have hindex : index < nested.lengths.length := by rwa [← Nested.length_samples]
    have hragged := shape_sample_raggedAxis hsample hindex
    have hentry : (cutSamples torch nested)[index] =
        (Tensor.ofFn (update nested.samples[index].shape nested.raggedAxis
          (torch.paddedSize nested)) nested.samples[index].value).slice nested.firstAxis 0
            nested.lengths[index] := by
      simp only [cutSamples, List.getElem_zipWith, toPaddedTensor, List.getElem_map]
    rw [hentry, ← hfirst, ← hragged]
    refine slice_padded ?_
    rw [hragged]
    exact le_paddedSize torch hfirst (List.getElem_mem hindex)

theorem flatMap_chunkOf {β : Type} {rows : List β} {chunks size : ℕ}
    (hrows : rows.length = chunks * size) :
    (List.range chunks).flatMap (fun part => chunkOf size part rows) = rows := by
  have hslices := flatMap_slices rows size chunks
  rw [← hrows, List.take_length] at hslices
  exact hslices

theorem length_chunkOf {β : Type} {rows : List β} {chunks size part : ℕ}
    (hrows : rows.length = chunks * size) (hpart : part < chunks) :
    (chunkOf size part rows).length = size := by
  have hlast := Nat.mul_le_mul_right size hpart
  rw [Nat.succ_mul] at hlast
  rw [chunkOf, List.length_take, List.length_drop]
  omega

theorem mem_of_mem_chunkOf {β : Type} {rows : List β} {size part : ℕ} {row : β}
    (hrow : row ∈ chunkOf size part rows) : row ∈ rows :=
  List.mem_of_mem_drop (List.mem_of_mem_take hrow)

/-- A chunk of the unbound samples is a jagged tensor of these samples. -/
theorem unboundChunk_eq {chunks size part : ℕ} (hrows : nested.lengths.length = chunks * size)
    (hpart : part < chunks) (hsize : 0 < size) :
    unboundChunk size part nested.raggedAxis nested.samples =
      .ok (Nested.ofList nested.raggedAxis (chunkOf size part nested.samples)) := by
  refine nestedTensorFromTensorList_eq ?_ fun tensor htensor =>
    Nested.sameOff_samples (mem_of_mem_chunkOf htensor)
  rw [← List.length_pos_iff, length_chunkOf (by rwa [Nested.length_samples]) hpart]
  exact hsize

theorem samples_chunk {size part : ℕ} :
    (Nested.ofList nested.raggedAxis (chunkOf size part nested.samples)).samples =
      chunkOf size part nested.samples :=
  Nested.samples_ofList fun _ htensor => Nested.sameOff_samples (mem_of_mem_chunkOf htensor)

/-- The fallback returns the chunks of the unbound samples, for a column that is ragged on the
first axis of its samples. -/
theorem paddedChunk_eq_unboundChunk (torch : Torch α) (size part : ℕ)
    (hfirst : nested.raggedAxis = nested.firstAxis) :
    paddedChunk torch size part nested =
      unboundChunk size part nested.raggedAxis nested.samples := by
  rw [paddedChunk_eq, cutSamples_eq torch hfirst]

end OneShotOPD.TensorDicts
