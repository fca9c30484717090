import OneShotOPD.Core.Tensor
import OneShotOPD.Core.Checks
import OneShotOPD.Core.Literals
import Mathlib

/-!
# Exchanges of sequence parallelism

The ranks of a sequence-parallel group hold tensors of one shape.  An all-to-all exchange moves
the split of a tensor from one axis to another, and an all-gather joins the tensors of all
ranks.  Sequences whose length the group size does not divide are padded before they are
sliced, and the padding is removed after they are joined.
-/

namespace OneShotOPD.Ulysses

open Checks Function

variable {rank axes : ℕ} {α β : Type} [Zero α] [Zero β]

/-! ## Padding and slicing -/

def padTensor (x : Tensor axes α) (dim : Fin axes) (paddingSize : ℕ) : Tensor axes α :=
  x.append dim (Tensor.zeros (update x.shape dim paddingSize))

/-- The position that a slice bound names, counted from the end if it is negative. -/
def bound (stop : ℤ) (size : ℕ) : ℕ := if stop < 0 then (size + stop).toNat else stop.toNat

def unpadTensor (x : Tensor axes α) (dim : Fin axes) (paddingSize : ℤ) : Tensor axes α :=
  x.slice dim 0 (bound (-paddingSize) (x.shape dim))

/-- The padding that makes an axis divisible by the group size. -/
def padToGroup (spWorld : ℕ) (x : Tensor axes α) (dim : Fin axes) : Tensor axes α :=
  let dimSize := x.shape dim
  if dimSize % spWorld ≠ 0 then padTensor x dim (spWorld - dimSize % spWorld) else x

def sliceInputTensor (spWorldSize spRank : ℕ) (x : Tensor axes α) (dim : Fin axes)
    (padding : Bool) : Tensor axes α :=
  let x := if padding then padToGroup spWorldSize x dim else x
  let parts := x.shape dim / spWorldSize
  x.slice dim (spRank * parts) ((spRank + 1) * parts)

attribute [local instance] Literals.neZero_two in
/-- `torch.nn.functional.pad(x, (0, pad_size), value=pad_value)` for a packed row. -/
def padRow (x : Tensor 2 α) (padSize : ℕ) (padValue : α) : Tensor 2 α :=
  x.append 1 (Tensor.full (update x.shape 1 padSize) padValue)

attribute [local instance] Literals.neZero_two in
/-- `torch.arange(pad_size).unsqueeze(0)`. -/
def arangeRow (padSize : ℕ) : Tensor 2 ℤ := Tensor.ofFn ![1, padSize] fun index => index 1

attribute [local instance] Literals.neZero_two in
/-- The assertions of `ulysses_pad`. -/
def checkPositionIds (inputIdsRmpad : Tensor 2 α) :
    Option (Tensor 2 ℤ) → Except String Unit
  | none => .ok ()
  | some positionIdsRmpad => do
      raiseIf (positionIdsRmpad.shape 0 ≠ 1) "AssertionError"
      raiseIf (inputIdsRmpad.shape 1 ≠ positionIdsRmpad.shape 1) "AssertionError"

attribute [local instance] Literals.neZero_two in
/-- `ulysses_pad` for position ids of the shape of the tokens. -/
def ulyssesPad (inputIdsRmpad : Tensor 2 α) (positionIdsRmpad : Option (Tensor 2 ℤ))
    (spSize : ℕ) (padValue : α) :
    Except String (Tensor 2 α × Option (Tensor 2 ℤ) × ℕ) := do
  checkPositionIds inputIdsRmpad positionIdsRmpad
  if spSize ≤ 1 then .ok (inputIdsRmpad, positionIdsRmpad, 0)
  else
    let padSize := (spSize - inputIdsRmpad.shape 1 % spSize) % spSize
    if padSize > 0 then
      .ok (padRow inputIdsRmpad padSize padValue,
        positionIdsRmpad.map fun positions => positions.append 1 (arangeRow padSize), padSize)
    else .ok (inputIdsRmpad, positionIdsRmpad, padSize)

attribute [local instance] Literals.neZero_two in
/-- `ulysses_pad_and_slice_inputs` on one rank of a group of `spSize` ranks. -/
def ulyssesPadAndSliceInputs (spRank : ℕ) (inputIdsRmpad : Tensor 2 α)
    (positionIdsRmpad : Option (Tensor 2 ℤ)) (spSize : ℕ) (skipPositionIdsRmpad : Bool)
    (padValue : α) : Except String (Tensor 2 α × Option (Tensor 2 ℤ) × ℕ) := do
  let (inputIds, positionIds, padSize) ←
    ulyssesPad inputIdsRmpad positionIdsRmpad spSize padValue
  let inputIds := sliceInputTensor spSize spRank inputIds 1 false
  let positionIds := if skipPositionIdsRmpad then positionIds
    else positionIds.map fun positions => sliceInputTensor spSize spRank positions 1 false
  return (inputIds, positionIds, padSize)

/-! ## Exchanges between the ranks -/

/-- One part of `torch.tensor_split(x, sections, dim)`. -/
def tensorSplit (x : Tensor axes α) (sections : ℕ) (dim : Fin axes) (part : ℕ) :
    Tensor axes α :=
  let size := x.shape dim / sections
  let extra := x.shape dim % sections
  let start := part * size + min part extra
  x.slice dim start (start + size + if part < extra then 1 else 0)

/-- `all_to_all_tensor`: what a rank gets from the tensors of all ranks. -/
def allToAllTensor (seqWorldSize : ℕ) (localInputs : ℕ → Tensor axes α)
    (scatterDim gatherDim : Fin axes) (spRank : ℕ) : Tensor axes α :=
  Tensor.cat gatherDim ((List.range seqWorldSize).map fun source =>
    tensorSplit (localInputs source) seqWorldSize scatterDim spRank)

def gatherSeqScatterHeads (spWorld : ℕ) (locals : ℕ → Tensor axes α) (seqDim headDim : Fin axes)
    (unpaddedDimSize spRank : ℕ) : Tensor axes α :=
  let x := allToAllTensor spWorld locals headDim seqDim spRank
  if unpaddedDimSize ≠ 0 ∧ unpaddedDimSize % spWorld ≠ 0 then
    unpadTensor x seqDim ((x.shape seqDim : ℤ) - unpaddedDimSize)
  else x

def gatherHeadsScatterSeq (spWorld : ℕ) (locals : ℕ → Tensor axes α) (headDim seqDim : Fin axes)
    (spRank : ℕ) : Tensor axes α :=
  allToAllTensor spWorld (fun source => padToGroup spWorld (locals source) seqDim) seqDim headDim
    spRank

attribute [local instance (2000)] Literals.neZero_succ in
/-- `all_gather_tensor`: the tensors of all ranks along the first axis. -/
def allGatherTensor (spWorldSize : ℕ) (locals : ℕ → Tensor (axes + 1) α) :
    Tensor (axes + 1) α :=
  Tensor.cat 0 ((List.range spWorldSize).map locals)

attribute [local instance (2000)] Literals.neZero_succ in
/-- `output.split(split_size, dim=0)`. -/
def splitFirst (output : Tensor (axes + 1) α) (splitSize : ℕ) : List (Tensor (axes + 1) α) :=
  if splitSize = 0 then [output]
  else (List.range ((output.shape 0 + splitSize - 1) / splitSize)).map fun part =>
    output.slice 0 (part * splitSize) ((part + 1) * splitSize)

attribute [local instance (2000)] Literals.neZero_succ in
def gatherForward (spWorldSize : ℕ) (locals : ℕ → Tensor (axes + 1) α) (gatherDim : Fin (axes + 1))
    (spRank : ℕ) : Tensor (axes + 1) α :=
  let splitSize := (locals spRank).shape 0
  Tensor.cat gatherDim (splitFirst (allGatherTensor spWorldSize locals) splitSize)

def gatherOutputsAndUnpad (spWorldSize : ℕ) (locals : ℕ → Tensor (axes + 1) α)
    (gatherDim : Fin (axes + 1)) (unpadDim : Option (Fin (axes + 1))) (paddingSize : ℤ)
    (spRank : ℕ) : Tensor (axes + 1) α :=
  let x := gatherForward spWorldSize locals gatherDim spRank
  match unpadDim with
  | none => x
  | some unpadDim => if paddingSize = 0 then x else unpadTensor x unpadDim paddingSize

/-! ## Gathering -/

/-- Joining the tensors of all ranks along an axis. -/
theorem gatherForward_eq {spWorldSize : ℕ} {locals : ℕ → Tensor (axes + 1) α}
    {shape : Fin (axes + 1) → ℕ} (hshape : ∀ source < spWorldSize, (locals source).shape = shape)
    (hfirst : 0 < shape 0) (gatherDim : Fin (axes + 1)) {spRank : ℕ}
    (hrank : spRank < spWorldSize) :
    gatherForward spWorldSize locals gatherDim spRank =
      Tensor.cat gatherDim ((List.range spWorldSize).map locals) := by
  have hwhole := Tensor.shape_cat 0 (Nat.zero_lt_of_lt hrank) hshape
  have hcount : (spWorldSize * shape 0 + shape 0 - 1) / shape 0 = spWorldSize := by
    rw [Nat.add_sub_assoc hfirst, Nat.mul_comm, Nat.mul_add_div hfirst,
      Nat.div_eq_of_lt (Nat.sub_lt hfirst Nat.one_pos), Nat.add_zero]
  rw [gatherForward, hshape spRank hrank, splitFirst, if_neg (Nat.ne_of_gt hfirst),
    allGatherTensor, hwhole,
    update_self, hcount]
  congr 1
  refine List.map_congr_left fun source hsource => ?_
  exact Tensor.slice_cat hshape (List.mem_range.mp hsource)

/-- Slices of one tensor are joined to the tensor. -/
theorem gatherForward_slices {spWorldSize size : ℕ} {x : Tensor (axes + 1) α}
    {gatherDim : Fin (axes + 1)} (hwhole : x.shape gatherDim = spWorldSize * size)
    (hfirst : 0 < update x.shape gatherDim size 0) {spRank : ℕ} (hrank : spRank < spWorldSize) :
    gatherForward spWorldSize
      (fun source => x.slice gatherDim (source * size) ((source + 1) * size)) gatherDim spRank =
        x := by
  rw [@gatherForward_eq _ _ _ _ _ (update x.shape gatherDim size) _ hfirst _ _ hrank]
  · exact Tensor.cat_slices (Nat.zero_lt_of_lt hrank) hwhole
  · intro source hsource
    rw [Nat.succ_mul, Tensor.shape_slice_of_le]
    rw [hwhole, ← Nat.succ_mul]
    exact Nat.mul_le_mul_right _ hsource

end OneShotOPD.Ulysses
