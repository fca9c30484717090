import OneShotOPD.Ulysses.Exchange
import OneShotOPD.Core.Literals
import Mathlib

/-!
# Sequence parallelism does not show

A function that works on each position gives the same output on the slices of the ranks, after
gathering and unpadding, as on the whole sequence.  Exchanging sequence slices for heads and
back gives every rank its slice again, at all positions that are not padding.
-/

namespace OneShotOPD.Ulysses

open Checks Function

variable {axes : ℕ} {α β : Type} [Zero α] [Zero β]

/-! ## Slices of a padded row -/

/-- A rank's slice of a tensor whose axis the group size divides. -/
theorem sliceInputTensor_eq {spWorldSize size : ℕ} (hworld : 0 < spWorldSize)
    {x : Tensor axes α} {dim : Fin axes} (hwhole : x.shape dim = spWorldSize * size)
    (padding : Bool) (spRank : ℕ) :
    sliceInputTensor spWorldSize spRank x dim padding =
      x.slice dim (spRank * size) ((spRank + 1) * size) := by
  have hdivides : x.shape dim % spWorldSize = 0 := by
    rw [hwhole]
    exact Nat.mul_mod_right _ _
  have hsame : (if padding then padToGroup spWorldSize x dim else x) = x := by
    rw [padToGroup, if_neg (not_not.mpr hdivides), ite_self]
  rw [sliceInputTensor, hsame, hwhole, Nat.mul_div_cancel_left _ hworld]

/-- The size that padding fills up to. -/
theorem length_add_padSize {spSize length : ℕ} (hsize : 0 < spSize) :
    length + (spSize - length % spSize) % spSize =
      spSize * ((length + (spSize - length % spSize) % spSize) / spSize) := by
  refine (Nat.mul_div_cancel' (Nat.dvd_of_mod_eq_zero ?_)).symm
  by_cases hdivides : length % spSize = 0
  · simp [hdivides]
  · have hlt := Nat.mod_lt length hsize
    rw [Nat.mod_eq_of_lt (by omega : spSize - length % spSize < spSize)]
    have hsplit := Nat.div_add_mod length spSize
    have hsum : length + (spSize - length % spSize) = spSize * (length / spSize) + spSize := by
      omega
    rw [hsum, Nat.mul_add_mod_self_left, Nat.mod_self]

/-- `ulysses_pad` fills the row up, by nothing if the group size divides its length. -/
theorem ulyssesPad_eq {spSize : ℕ} (hsize : 0 < spSize) {ids : Tensor 2 α}
    {positions : Option (Tensor 2 ℤ)} (hbatch : ids.shape 0 = 1)
    (hpositions : ∀ row ∈ positions, row.shape = ids.shape) (padValue : α) :
    ulyssesPad ids positions spSize padValue = .ok
      (padRow ids ((spSize - ids.shape 1 % spSize) % spSize) padValue,
        positions.map fun row => row.append 1
          (arangeRow ((spSize - ids.shape 1 % spSize) % spSize)),
        (spSize - ids.shape 1 % spSize) % spSize) := by
  have hempty : padRow ids 0 padValue = ids := Tensor.append_of_empty (by simp [Tensor.full])
  have hnone : (positions.map fun row => row.append 1 (arangeRow 0)) = positions := by
    cases positions with
    | none => rfl
    | some row => exact congrArg some (Tensor.append_of_empty rfl)
  have hcheck : checkPositionIds ids positions = .ok () := by
    cases positions with
    | none => rfl
    | some row =>
        have hshape := hpositions row rfl
        simp [checkPositionIds, hshape, hbatch]
  rw [ulyssesPad, hcheck]
  simp only [bind, Except.bind]
  split
  next hone =>
    rw [Nat.le_antisymm hone hsize, Nat.mod_one, hempty, hnone]
  next =>
    split
    next => rfl
    next hpad => rw [Nat.eq_zero_of_not_pos hpad, hempty, hnone]

/-! ## Functions of positions -/

attribute [local instance] Literals.neZero_two in
/-- A function of the token and the position id at each position, with a value of any sizes;
the axis `dim` of its output runs over the positions. -/
def positionwise (f : α → Option ℤ → (Fin axes → ℕ) → β) (shape : Fin axes → ℕ) (dim : Fin axes)
    (ids : Tensor 2 α) (positions : Option (Tensor 2 ℤ)) : Tensor axes β :=
  Tensor.ofFn (update shape dim (ids.shape 1)) fun index =>
    f (ids.value ![0, index dim]) (positions.map fun row => row.value ![0, index dim])
      (update index dim 0)

theorem value_slice_row {row : Tensor 2 α} (hbatch : row.shape 0 = 1) {start stop position : ℕ}
    (hposition : position < min stop (row.shape 1) - start) :
    (row.slice 1 start stop).value ![0, position] = row.value ![0, position + start] := by
  rw [Tensor.value_slice]
  · congr 1
    funext axis
    revert axis
    rw [Fin.forall_fin_two]
    exact ⟨by simp, by simp⟩
  · rw [Fin.forall_fin_two]
    exact ⟨by simp [hbatch], by simpa using hposition⟩

/-- The function on a slice is a slice of the function on the whole. -/
theorem positionwise_slice (f : α → Option ℤ → (Fin axes → ℕ) → β) (shape : Fin axes → ℕ)
    (dim : Fin axes) {ids : Tensor 2 α} {positions : Option (Tensor 2 ℤ)}
    (hbatch : ids.shape 0 = 1) (hpositions : ∀ row ∈ positions, row.shape = ids.shape)
    (start stop : ℕ) :
    positionwise f shape dim (ids.slice 1 start stop)
        (positions.map fun row => row.slice 1 start stop) =
      (positionwise f shape dim ids positions).slice dim start stop := by
  have hshape : (positionwise f shape dim (ids.slice 1 start stop)
      (positions.map fun row => row.slice 1 start stop)).shape =
        ((positionwise f shape dim ids positions).slice dim start stop).shape := by
    simp [positionwise]
  apply Tensor.ext_inside hshape
  intro index hinside
  have hposition : index dim < min stop (ids.shape 1) - start := by
    have := hinside dim
    simpa [positionwise] using this
  rw [Tensor.value_slice (by rwa [← hshape])]
  refine (Tensor.value_ofFn _ hinside).trans (Eq.trans ?_ (Tensor.value_ofFn _ ?_).symm)
  · rw [update_self, update_idem, value_slice_row hbatch hposition, Option.map_map]
    congr 1
    cases positions with
    | none => rfl
    | some row =>
        have hrow := hpositions row rfl
        exact congrArg some (value_slice_row (hrow ▸ hbatch) (by rw [hrow]; exact hposition))
  · intro other
    by_cases hother : other = dim
    · subst hother
      rw [update_self, update_self]
      omega
    · rw [update_of_ne hother, update_of_ne hother]
      have := hinside other
      simpa [positionwise, update_of_ne hother] using this

theorem slice_padRow (ids : Tensor 2 α) (padSize : ℕ) (padValue : α) :
    (padRow ids padSize padValue).slice 1 0 (ids.shape 1) = ids :=
  Tensor.slice_append 1 ids _

theorem shape_padRow (ids : Tensor 2 α) (padSize : ℕ) (padValue : α) :
    (padRow ids padSize padValue).shape = update ids.shape 1 (ids.shape 1 + padSize) := by
  simp [padRow, Tensor.full]

theorem shape_append_arangeRow (row : Tensor 2 ℤ) (padSize : ℕ) :
    (row.append 1 (arangeRow padSize)).shape = update row.shape 1 (row.shape 1 + padSize) := by
  simp [arangeRow]

/-- What a rank works on. -/
theorem ulyssesPadAndSliceInputs_eq {spSize : ℕ} (hsize : 0 < spSize) {ids : Tensor 2 α}
    {positions : Option (Tensor 2 ℤ)} (hbatch : ids.shape 0 = 1)
    (hpositions : ∀ row ∈ positions, row.shape = ids.shape) (skip : Bool) (padValue : α)
    {padSize size : ℕ} (hpadSize : padSize = (spSize - ids.shape 1 % spSize) % spSize)
    (hwhole : ids.shape 1 + padSize = spSize * size) (spRank : ℕ) :
    ulyssesPadAndSliceInputs spRank ids positions spSize skip padValue = .ok
      ((padRow ids padSize padValue).slice 1 (spRank * size) ((spRank + 1) * size),
        if skip then positions.map fun row => row.append 1 (arangeRow padSize)
        else (positions.map fun row => row.append 1 (arangeRow padSize)).map fun row =>
          row.slice 1 (spRank * size) ((spRank + 1) * size),
        padSize) := by
  have hids : sliceInputTensor spSize spRank (padRow ids padSize padValue) 1 false =
      (padRow ids padSize padValue).slice 1 (spRank * size) ((spRank + 1) * size) :=
    sliceInputTensor_eq hsize (by rw [shape_padRow, update_self, hwhole]) false spRank
  rw [ulyssesPadAndSliceInputs, ulyssesPad_eq hsize hbatch hpositions, ← hpadSize]
  simp only [bind, Except.bind, hids]
  cases positions with
  | none => rfl
  | some row =>
      have hrow : sliceInputTensor spSize spRank (row.append 1 (arangeRow padSize)) 1 false =
          (row.append 1 (arangeRow padSize)).slice 1 (spRank * size) ((spRank + 1) * size) :=
        sliceInputTensor_eq hsize
          (by rw [shape_append_arangeRow, update_self, hpositions row rfl, hwhole]) false spRank
      simp only [Option.map_some, hrow]
      rfl

/-- Unpadding the padded sequence. -/
theorem gatherOutputsAndUnpad_slices {spSize size padSize length : ℕ}
    {x : Tensor (axes + 1) β} {dim : Fin (axes + 1)} (hwhole : x.shape dim = spSize * size)
    (hlength : length + padSize = spSize * size) (hfirst : 0 < update x.shape dim size 0)
    {spRank : ℕ} (hrank : spRank < spSize) :
    gatherOutputsAndUnpad spSize
        (fun source => x.slice dim (source * size) ((source + 1) * size)) dim (some dim)
        padSize spRank = x.slice dim 0 length := by
  rw [gatherOutputsAndUnpad, gatherForward_slices hwhole hfirst hrank]
  split
  next hzero =>
    have hall : length = x.shape dim := by omega
    rw [hall, Tensor.slice_all]
  next hpad =>
    have hbound : bound (-(padSize : ℤ)) (x.shape dim) = length := by
      rw [bound, if_pos (by omega), hwhole]
      omega
    rw [unpadTensor, hbound]

/-- Padding, slicing, applying a function of positions on every rank and gathering gives the
function on the whole row. -/
theorem gather_positionwise {spSize : ℕ} (hsize : 0 < spSize) {ids : Tensor 2 α}
    (hbatch : ids.shape 0 = 1) (hlength : 0 < ids.shape 1) {positions : Option (Tensor 2 ℤ)}
    (hpositions : ∀ row ∈ positions, row.shape = ids.shape) (skip : Bool) (padValue : α)
    (f : α → Option ℤ → (Fin (axes + 1) → ℕ) → β) (shape : Fin (axes + 1) → ℕ)
    (dim : Fin (axes + 1)) (hfirst : 0 < shape 0) :
    ∃ (slices : ℕ → Tensor 2 α × Option (Tensor 2 ℤ)) (padSize : ℕ),
      (∀ spRank < spSize, ulyssesPadAndSliceInputs spRank ids positions spSize skip padValue =
        .ok ((slices spRank).1, (slices spRank).2, padSize)) ∧
      ∀ spRank < spSize,
        gatherOutputsAndUnpad spSize (fun source => positionwise f shape dim (slices source).1
          (if skip then none else (slices source).2)) dim (some dim) padSize spRank =
            positionwise f shape dim ids (if skip then none else positions) := by
  obtain ⟨padSize, hpadSize⟩ : ∃ padSize, padSize = (spSize - ids.shape 1 % spSize) % spSize :=
    ⟨_, rfl⟩
  have hwhole := @length_add_padSize spSize (ids.shape 1) hsize
  rw [← hpadSize] at hwhole
  obtain ⟨size, hsizeEq⟩ : ∃ size, size = (ids.shape 1 + padSize) / spSize := ⟨_, rfl⟩
  rw [← hsizeEq] at hwhole
  let padded := padRow ids padSize padValue
  let paddedPositions : Option (Tensor 2 ℤ) := if skip then none
    else positions.map fun row => row.append 1 (arangeRow padSize)
  have hpadded : padded.shape 0 = 1 := by
    rw [shape_padRow, update_of_ne (by decide), hbatch]
  have hpaddedPositions : ∀ row ∈ paddedPositions, row.shape = padded.shape := by
    intro row hrow
    cases skip with
    | true => exact absurd hrow (by simp [paddedPositions])
    | false =>
        obtain ⟨old, hold, rfl⟩ := Option.map_eq_some_iff.mp (Option.mem_def.mp hrow)
        rw [shape_append_arangeRow, shape_padRow, hpositions old hold]
  have horiginal : paddedPositions.map (fun row => row.slice 1 0 (ids.shape 1)) =
      if skip then none else positions := by
    cases skip with
    | true => rfl
    | false =>
        cases positions with
        | none => rfl
        | some row =>
            have hslice := Tensor.slice_append 1 row (arangeRow padSize)
            rw [hpositions row rfl] at hslice
            exact congrArg some hslice
  let slices : ℕ → Tensor 2 α × Option (Tensor 2 ℤ) := fun spRank =>
    (padded.slice 1 (spRank * size) ((spRank + 1) * size),
      if skip then positions.map fun row => row.append 1 (arangeRow padSize)
      else (positions.map fun row => row.append 1 (arangeRow padSize)).map fun row =>
        row.slice 1 (spRank * size) ((spRank + 1) * size))
  refine ⟨slices, padSize, fun spRank _ =>
    ulyssesPadAndSliceInputs_eq hsize hbatch hpositions skip padValue hpadSize hwhole spRank,
    fun spRank hrank => ?_⟩
  have hlocals : (fun source => positionwise f shape dim
      (padded.slice 1 (source * size) ((source + 1) * size))
      (paddedPositions.map fun row => row.slice 1 (source * size) ((source + 1) * size))) =
      fun source => (positionwise f shape dim padded paddedPositions).slice dim (source * size)
        ((source + 1) * size) :=
    funext fun source => positionwise_slice f shape dim hpadded hpaddedPositions _ _
  have hsizePos : 0 < size := Nat.pos_of_ne_zero fun hzero => by
    rw [hzero, Nat.mul_zero] at hwhole
    omega
  have hgather := @gatherOutputsAndUnpad_slices _ _ _ spSize size padSize (ids.shape 1)
    (positionwise f shape dim padded paddedPositions) dim
    (by simp [positionwise, padded, shape_padRow, hwhole]) hwhole
    (by
      by_cases hdim : dim = 0
      · subst hdim
        rwa [update_self]
      · rw [update_of_ne (Ne.symm hdim)]
        simpa [positionwise, update_of_ne (Ne.symm hdim)] using hfirst) spRank hrank
  rw [← positionwise_slice f shape dim hpadded hpaddedPositions, horiginal, slice_padRow,
    ← hlocals] at hgather
  refine Eq.trans ?_ hgather
  congr 1
  funext source
  cases skip <;> rfl

/-! ## Heads for sequence slices and back -/

section Heads

variable {spWorld count : ℕ} {shape : Fin axes → ℕ} {seqDim headDim : Fin axes}

/-- The part of an axis that the number of sections divides. -/
theorem tensorSplit_eq {x : Tensor axes α} {sections size : ℕ} {dim : Fin axes}
    (hsections : 0 < sections) (hwhole : x.shape dim = sections * size) (part : ℕ) :
    tensorSplit x sections dim part = x.slice dim (part * size) ((part + 1) * size) := by
  rw [tensorSplit, hwhole, Nat.mul_div_cancel_left _ hsections, Nat.mul_mod_right]
  simp [Nat.succ_mul]

theorem shape_tensorSplit {x : Tensor axes α} {sections size part : ℕ} {dim : Fin axes}
    (hpart : part < sections) (hwhole : x.shape dim = sections * size) :
    (tensorSplit x sections dim part).shape = update x.shape dim size := by
  rw [tensorSplit_eq (Nat.zero_lt_of_lt hpart) hwhole, Nat.succ_mul, Tensor.shape_slice_of_le]
  rw [hwhole, ← Nat.succ_mul]
  exact Nat.mul_le_mul_right _ hpart

/-- An exchange of tensors of one shape, with a split axis that the ranks divide. -/
theorem shape_allToAllTensor {locals : ℕ → Tensor axes α} {scatterDim gatherDim : Fin axes}
    (hdims : scatterDim ≠ gatherDim)
    (hshape : ∀ source < spWorld, (locals source).shape = shape)
    (hwhole : shape scatterDim = spWorld * count) {spRank : ℕ} (hrank : spRank < spWorld) :
    (allToAllTensor spWorld locals scatterDim gatherDim spRank).shape =
      update (update shape scatterDim count) gatherDim (spWorld * shape gatherDim) := by
  have hpieces : ∀ source < spWorld,
      (tensorSplit (locals source) spWorld scatterDim spRank).shape =
        update shape scatterDim count := by
    intro source hsource
    rw [shape_tensorSplit hrank (by rw [hshape source hsource, hwhole]), hshape source hsource]
  rw [allToAllTensor, Tensor.shape_cat _ (Nat.zero_lt_of_lt hrank) hpieces,
    update_of_ne (Ne.symm hdims)]

theorem value_allToAllTensor {locals : ℕ → Tensor axes α} {scatterDim gatherDim : Fin axes}
    (hdims : scatterDim ≠ gatherDim)
    (hshape : ∀ source < spWorld, (locals source).shape = shape)
    (hwhole : shape scatterDim = spWorld * count) {spRank : ℕ} (hrank : spRank < spWorld)
    {index : Fin axes → ℕ} (hinside : ∀ axis, index axis <
      update (update shape scatterDim count) gatherDim (spWorld * shape gatherDim) axis) :
    (allToAllTensor spWorld locals scatterDim gatherDim spRank).value index =
      (locals (index gatherDim / shape gatherDim)).value
        (update (update index gatherDim (index gatherDim % shape gatherDim)) scatterDim
          (index scatterDim + spRank * count)) := by
  have hpieces : ∀ source < spWorld,
      (tensorSplit (locals source) spWorld scatterDim spRank).shape =
        update shape scatterDim count := by
    intro source hsource
    rw [shape_tensorSplit hrank (by rw [hshape source hsource, hwhole]), hshape source hsource]
  have hgather : update shape scatterDim count gatherDim = shape gatherDim :=
    update_of_ne (Ne.symm hdims) _ _
  have hbound : index gatherDim < spWorld * shape gatherDim := by
    have := hinside gatherDim
    rwa [update_self] at this
  have hsize : 0 < shape gatherDim := Nat.pos_of_ne_zero fun hzero => by simp [hzero] at hbound
  have hsource : index gatherDim / shape gatherDim < spWorld :=
    Nat.div_lt_of_lt_mul (by rwa [Nat.mul_comm])
  rw [allToAllTensor, Tensor.value_cat hpieces (by rwa [hgather]), hgather,
    tensorSplit_eq (Nat.zero_lt_of_lt hrank) (by rw [hshape _ hsource, hwhole]),
    Tensor.value_slice, update_of_ne hdims]
  rw [← tensorSplit_eq (Nat.zero_lt_of_lt hrank) (by rw [hshape _ hsource, hwhole]),
    hpieces _ hsource]
  intro axis
  by_cases hgatherAxis : axis = gatherDim
  · subst hgatherAxis
    rw [update_self, hgather]
    exact Nat.mod_lt _ hsize
  · rw [update_of_ne hgatherAxis]
    have := hinside axis
    rwa [update_of_ne hgatherAxis] at this

/-- The exchange back undoes the exchange at every position that came through. -/
theorem value_exchange_back {locals gathered : ℕ → Tensor axes α} (hdims : seqDim ≠ headDim)
    (hshape : ∀ source < spWorld, (locals source).shape = shape)
    (hheads : shape headDim = spWorld * count) {length : ℕ}
    (hgathered : ∀ source < spWorld, (gathered source).shape =
      update (update shape headDim count) seqDim (spWorld * shape seqDim))
    (hreal : ∀ source < spWorld, ∀ index, (∀ axis, index axis < (gathered source).shape axis) →
      index seqDim < length →
        (gathered source).value index =
          (allToAllTensor spWorld locals headDim seqDim source).value index)
    {spRank : ℕ} (hrank : spRank < spWorld) :
    (allToAllTensor spWorld gathered seqDim headDim spRank).shape = shape ∧
      ∀ index, (∀ axis, index axis < shape axis) → spRank * shape seqDim + index seqDim < length →
        (allToAllTensor spWorld gathered seqDim headDim spRank).value index =
          (locals spRank).value index := by
  obtain ⟨whole, hwhole⟩ : ∃ whole, whole =
      update (update shape headDim count) seqDim (spWorld * shape seqDim) := ⟨_, rfl⟩
  have hwholeSeq : whole seqDim = spWorld * shape seqDim := by rw [hwhole, update_self]
  have hwholeHead : whole headDim = count := by
    rw [hwhole, update_of_ne (Ne.symm hdims), update_self]
  have hback : update (update whole seqDim (shape seqDim)) headDim (spWorld * whole headDim) =
      shape := by
    rw [hwholeHead, ← hheads, hwhole, update_idem, update_comm hdims, update_idem, update_eq_self,
      update_eq_self]
  rw [← hwhole] at hgathered
  refine ⟨?_, fun index hinside hindex => ?_⟩
  · rw [shape_allToAllTensor hdims hgathered hwholeSeq hrank, hback]
  have hhead := hinside headDim
  rw [hheads] at hhead
  have hcount : 0 < count := Nat.pos_of_ne_zero fun hzero => by simp [hzero] at hhead
  have hseq := hinside seqDim
  have hsource : index headDim / count < spWorld := Nat.div_lt_of_lt_mul (by rwa [Nat.mul_comm])
  rw [value_allToAllTensor hdims hgathered hwholeSeq hrank (by rwa [hback]), hwholeHead]
  have hmoved : ∀ axis, update (update index headDim (index headDim % count)) seqDim
      (index seqDim + spRank * shape seqDim) axis < whole axis := by
    intro axis
    by_cases hseqAxis : axis = seqDim
    · subst hseqAxis
      rw [update_self, hwholeSeq]
      have hlast := Nat.mul_le_mul_right (shape axis) hrank
      rw [Nat.succ_mul] at hlast
      omega
    · rw [update_of_ne hseqAxis]
      by_cases hheadAxis : axis = headDim
      · subst hheadAxis
        rw [update_self, hwholeHead]
        exact Nat.mod_lt _ hcount
      · rw [update_of_ne hheadAxis, hwhole, update_of_ne hseqAxis, update_of_ne hheadAxis]
        exact hinside axis
  rw [hreal _ hsource _ (by rwa [hgathered _ hsource]) (by rw [update_self]; omega),
    value_allToAllTensor (Ne.symm hdims) hshape hheads hsource (by rwa [← hwhole]), update_self,
    update_idem, update_of_ne (Ne.symm hdims), update_self,
    Nat.add_mul_div_right _ _ (Nat.zero_lt_of_lt hseq), Nat.add_mul_mod_self_right,
    Nat.div_eq_of_lt hseq, Nat.mod_eq_of_lt hseq, Nat.zero_add, Nat.mod_add_div']
  congr 1
  rw [update_comm hdims, update_idem, update_eq_self, update_eq_self]

/-- A sequence that was cut to its true length is filled up again. -/
theorem padTensor_slice {x : Tensor axes α} {dim : Fin axes} {length total : ℕ}
    (htotal : x.shape dim = total) (hlength : length ≤ total) :
    (padTensor (x.slice dim 0 length) dim (total - length)).shape = x.shape ∧
      ∀ index, (∀ axis, index axis < x.shape axis) → index dim < length →
        (padTensor (x.slice dim 0 length) dim (total - length)).value index =
          x.value index := by
  have hslice : (x.slice dim 0 length).shape = update x.shape dim length := by
    rw [Tensor.shape_slice, htotal, Nat.min_eq_left hlength, Nat.sub_zero]
  have hshape : (padTensor (x.slice dim 0 length) dim (total - length)).shape = x.shape := by
    rw [padTensor, Tensor.shape_append, Tensor.shape_zeros, hslice, update_self, update_self,
      update_idem, Nat.add_sub_cancel' hlength, ← htotal, update_eq_self]
  refine ⟨hshape, fun index hinside hindex => ?_⟩
  rw [← hshape] at hinside
  rw [padTensor, Tensor.value_append hinside, if_pos (by rwa [hslice, update_self]),
    Tensor.value_slice, Nat.add_zero (index dim), update_eq_self]
  rw [hshape] at hinside
  rw [hslice]
  intro axis
  by_cases haxis : axis = dim
  · subst haxis
    rwa [update_self]
  · rw [update_of_ne haxis]
    exact hinside axis

/-- The size of a slice of a sequence that is padded up. -/
theorem mul_ceilDiv_eq {length : ℕ} (hworld : 0 < spWorld) (hrest : length % spWorld ≠ 0) :
    spWorld * ((length + spWorld - 1) / spWorld) = length + (spWorld - length % spWorld) := by
  have hlt := Nat.mod_lt length hworld
  have hsplit := Nat.div_add_mod length spWorld
  have hquotient : (length + spWorld - 1) / spWorld = length / spWorld + 1 := by
    have hsum : length + spWorld - 1 =
        (length % spWorld - 1) + spWorld * (length / spWorld + 1) := by
      rw [Nat.mul_add, Nat.mul_one]
      omega
    rw [hsum, Nat.add_mul_div_left _ _ hworld, Nat.div_eq_of_lt (by omega), Nat.zero_add]
  rw [hquotient, Nat.mul_add, Nat.mul_one]
  omega

/-- What a rank brings to the exchange back: the whole sequence with its padding, which is zero
if the sequence was cut to its length. -/
theorem padToGroup_gathered {locals : ℕ → Tensor axes α} (hworld : 0 < spWorld)
    (hdims : seqDim ≠ headDim) (hshape : ∀ source < spWorld, (locals source).shape = shape)
    (hheads : shape headDim = spWorld * count) {length : ℕ}
    (hlength : length = 0 ∨ shape seqDim = (length + spWorld - 1) / spWorld) {source : ℕ}
    (hsource : source < spWorld) :
    (padToGroup spWorld (gatherSeqScatterHeads spWorld locals seqDim headDim length source)
        seqDim).shape = update (update shape headDim count) seqDim (spWorld * shape seqDim) ∧
      ∀ index, (∀ axis, index axis <
          update (update shape headDim count) seqDim (spWorld * shape seqDim) axis) →
        length = 0 ∨ index seqDim < length →
          (padToGroup spWorld (gatherSeqScatterHeads spWorld locals seqDim headDim length source)
            seqDim).value index =
              (allToAllTensor spWorld locals headDim seqDim source).value index := by
  have hexchanged := shape_allToAllTensor (Ne.symm hdims) hshape hheads hsource
  have htotal : (allToAllTensor spWorld locals headDim seqDim source).shape seqDim =
      spWorld * shape seqDim := by
    rw [hexchanged, update_self]
  by_cases hcut : length ≠ 0 ∧ length % spWorld ≠ 0
  · have hsize := mul_ceilDiv_eq hworld hcut.2
    rw [← hlength.resolve_left hcut.1] at hsize
    have hlt := Nat.mod_lt length hworld
    have hgathered : gatherSeqScatterHeads spWorld locals seqDim headDim length source =
        (allToAllTensor spWorld locals headDim seqDim source).slice seqDim 0 length := by
      have hbound : bound (-(((allToAllTensor spWorld locals headDim seqDim source).shape seqDim :
          ℤ) - length)) ((allToAllTensor spWorld locals headDim seqDim source).shape seqDim) =
            length := by
        rw [htotal, bound, if_pos (by omega)]
        omega
      rw [gatherSeqScatterHeads, if_pos hcut, unpadTensor, hbound]
    have hdim : (gatherSeqScatterHeads spWorld locals seqDim headDim length source).shape seqDim =
        length := by
      rw [hgathered, Tensor.shape_slice, update_self, htotal]
      omega
    have hpadded : padToGroup spWorld
        (gatherSeqScatterHeads spWorld locals seqDim headDim length source) seqDim =
          padTensor ((allToAllTensor spWorld locals headDim seqDim source).slice seqDim 0 length)
            seqDim (spWorld * shape seqDim - length) := by
      rw [padToGroup, hdim, if_pos hcut.2, hgathered, hsize, Nat.add_sub_cancel_left]
    obtain ⟨hfull, hvalue⟩ := @padTensor_slice _ _ _ _ _ length _ htotal (by omega)
    rw [hpadded]
    rw [hexchanged] at hfull hvalue
    exact ⟨hfull, fun index hinside hindex =>
      hvalue index hinside (hindex.resolve_left hcut.1)⟩
  · have hgathered : gatherSeqScatterHeads spWorld locals seqDim headDim length source =
        allToAllTensor spWorld locals headDim seqDim source := by
      rw [gatherSeqScatterHeads]
      exact if_neg hcut
    rw [hgathered, padToGroup, htotal, Nat.mul_mod_right, if_neg (not_not.mpr rfl)]
    exact ⟨hexchanged, fun _ _ _ => rfl⟩

/-- Exchanging sequence slices for heads and back gives each rank its slice again, apart from
padding. -/
theorem exchange_round_trip {locals : ℕ → Tensor axes α} (hworld : 0 < spWorld)
    (hdims : seqDim ≠ headDim) (hshape : ∀ source < spWorld, (locals source).shape = shape)
    (hheads : shape headDim = spWorld * count) {length : ℕ}
    (hlength : length = 0 ∨ shape seqDim = (length + spWorld - 1) / spWorld) {spRank : ℕ}
    (hrank : spRank < spWorld) :
    (gatherHeadsScatterSeq spWorld
        (gatherSeqScatterHeads spWorld locals seqDim headDim length) headDim seqDim
        spRank).shape = shape ∧
      ∀ index, (∀ axis, index axis < shape axis) →
        length = 0 ∨ spRank * shape seqDim + index seqDim < length →
          (gatherHeadsScatterSeq spWorld
            (gatherSeqScatterHeads spWorld locals seqDim headDim length) headDim seqDim
            spRank).value index = (locals spRank).value index := by
  have hgathered := fun source hsource =>
    @padToGroup_gathered _ _ _ spWorld count shape seqDim headDim locals hworld hdims hshape hheads
      length hlength source hsource
  -- Without a true length all positions of the exchanged sequence count as real.
  have hback := @value_exchange_back _ _ _ spWorld count shape seqDim headDim locals _ hdims hshape
    hheads (if length = 0 then spWorld * shape seqDim else length)
    (fun source hsource => (hgathered source hsource).1)
    (fun source hsource index hinside hindex => by
      rw [(hgathered source hsource).1] at hinside
      refine (hgathered source hsource).2 index hinside ?_
      by_cases hzero : length = 0
      · exact .inl hzero
      · exact .inr (by rwa [if_neg hzero] at hindex)) spRank hrank
  refine ⟨hback.1, fun index hinside hindex => hback.2 index hinside ?_⟩
  have hlast := Nat.mul_le_mul_right (shape seqDim) hrank
  rw [Nat.succ_mul] at hlast
  have := hinside seqDim
  split
  next => omega
  next hzero => exact hindex.resolve_left hzero

end Heads

/-! ## Both together -/

/-- Sequence parallelism is transparent: a function of positions can be applied on the slices of
the ranks, and heads can be exchanged for sequence slices and back. -/
theorem ulysses_transparent {spSize : ℕ} (hsize : 0 < spSize) :
    (∀ (ids : Tensor 2 α) (positions : Option (Tensor 2 ℤ)) (skip : Bool) (padValue : α)
        (f : α → Option ℤ → (Fin (axes + 1) → ℕ) → β) (shape : Fin (axes + 1) → ℕ)
        (dim : Fin (axes + 1)),
      ids.shape 0 = 1 → 0 < ids.shape 1 → (∀ row ∈ positions, row.shape = ids.shape) →
      0 < shape 0 →
      ∃ (slices : ℕ → Tensor 2 α × Option (Tensor 2 ℤ)) (padSize : ℕ),
        (∀ spRank < spSize, ulyssesPadAndSliceInputs spRank ids positions spSize skip padValue =
          .ok ((slices spRank).1, (slices spRank).2, padSize)) ∧
        ∀ spRank < spSize,
          gatherOutputsAndUnpad spSize (fun source => positionwise f shape dim (slices source).1
            (if skip then none else (slices source).2)) dim (some dim) padSize spRank =
              positionwise f shape dim ids (if skip then none else positions)) ∧
    ∀ (locals : ℕ → Tensor axes α) (shape : Fin axes → ℕ) (seqDim headDim : Fin axes)
        (length : ℕ),
      seqDim ≠ headDim → (∀ source < spSize, (locals source).shape = shape) →
      spSize ∣ shape headDim →
      length = 0 ∨ shape seqDim = (length + spSize - 1) / spSize →
      ∀ spRank < spSize,
        (gatherHeadsScatterSeq spSize
          (gatherSeqScatterHeads spSize locals seqDim headDim length) headDim seqDim
          spRank).shape = shape ∧
        ∀ index, (∀ axis, index axis < shape axis) →
          length = 0 ∨ spRank * shape seqDim + index seqDim < length →
            (gatherHeadsScatterSeq spSize
              (gatherSeqScatterHeads spSize locals seqDim headDim length) headDim seqDim
              spRank).value index = (locals spRank).value index := by
  constructor
  · intro ids positions skip padValue f shape dim hbatch hlength hpositions hfirst
    exact gather_positionwise hsize hbatch hlength hpositions skip padValue f shape dim hfirst
  · intro locals shape seqDim headDim length hdims hshape hheads hlength spRank hrank
    obtain ⟨count, hcount⟩ := hheads
    exact exchange_round_trip hsize hdims hshape hcount hlength hrank

/-- Three tokens on two ranks, and two heads of a sequence of three. -/
theorem ulysses_transparent_two :
    (∃ (slices : ℕ → Tensor 2 ℤ × Option (Tensor 2 ℤ)) (padSize : ℕ),
      (∀ spRank < 2, ulyssesPadAndSliceInputs spRank
        (Tensor.ofFn ![1, 3] fun index => (index 1 : ℤ) + 7) none 2 false 0 =
          .ok ((slices spRank).1, (slices spRank).2, padSize)) ∧
      ∀ spRank < 2, gatherOutputsAndUnpad 2 (fun source =>
          positionwise (fun token _ _ => token * token) ![1, 1] 1 (slices source).1
            (if false then none else (slices source).2)) 1 (some 1) padSize spRank =
        positionwise (fun token _ _ => token * token) ![1, 1] 1
          (Tensor.ofFn ![1, 3] fun index => (index 1 : ℤ) + 7) (if false then none else none)) ∧
    ∀ spRank < 2,
      (gatherHeadsScatterSeq 2 (gatherSeqScatterHeads 2
        (fun source => (Tensor.ofFn ![2, 2] fun index => (source + index 0 : ℤ)))
          0 1 3) 1 0 spRank).shape = ![2, 2] ∧
      ∀ index : Fin 2 → ℕ, (∀ axis, index axis < ![2, 2] axis) →
        3 = 0 ∨ spRank * ![2, 2] 0 + index 0 < 3 →
          (gatherHeadsScatterSeq 2 (gatherSeqScatterHeads 2
            (fun source => (Tensor.ofFn ![2, 2] fun index => (source + index 0 : ℤ)))
              0 1 3) 1 0 spRank).value index =
            (Tensor.ofFn ![2, 2] fun index => (spRank + index 0 : ℤ)).value index :=
  ⟨(@ulysses_transparent 1 ℤ ℤ _ _ 2 (by decide)).1 _ none false 0 _ ![1, 1] 1 rfl (by decide)
      (by simp) (by decide),
    (@ulysses_transparent 2 ℤ ℤ _ _ 2 (by decide)).2
      (fun source => (Tensor.ofFn ![2, 2] fun index => (source + index 0 : ℤ)))
      ![2, 2] 0 1 3 (by decide) (fun _ _ => rfl) ⟨1, rfl⟩ (by decide)⟩

end OneShotOPD.Ulysses
