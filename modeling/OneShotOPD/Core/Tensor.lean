import Mathlib

/-!
# Tensors of any rank

A tensor has a size for each axis and a value at every index.  Outside its sizes the value is
zero, so two tensors are equal when they have the same sizes and agree inside them.  Slicing
and concatenation along an axis act on the coordinate of that axis alone.
-/

namespace OneShotOPD

open Function

/-- A tensor with `rank` axes. -/
structure Tensor (rank : ℕ) (α : Type) [Zero α] where
  shape : Fin rank → ℕ
  value : (Fin rank → ℕ) → α
  outside : ∀ index, ¬ (∀ axis, index axis < shape axis) → value index = 0

namespace Tensor

variable {rank : ℕ} {α β : Type} [Zero α] [Zero β]

theorem ext_inside {left right : Tensor rank α} (hshape : left.shape = right.shape)
    (hvalue : ∀ index, (∀ axis, index axis < left.shape axis) →
      left.value index = right.value index) : left = right := by
  obtain ⟨shape, value, houtside⟩ := left
  obtain ⟨shape', value', houtside'⟩ := right
  obtain rfl : shape = shape' := hshape
  have heq : value = value' := by
    funext index
    by_cases hinside : ∀ axis, index axis < shape axis
    · exact hvalue index hinside
    · rw [houtside index hinside, houtside' index hinside]
  subst heq
  rfl

/-- The tensor with given sizes whose values inside them are those of a function. -/
def ofFn (shape : Fin rank → ℕ) (value : (Fin rank → ℕ) → α) : Tensor rank α where
  shape := shape
  value := fun index => if ∀ axis, index axis < shape axis then value index else 0
  outside := fun _ houtside => if_neg houtside

@[simp]
theorem shape_ofFn (shape : Fin rank → ℕ) (value : (Fin rank → ℕ) → α) :
    (ofFn shape value).shape = shape := rfl

theorem value_ofFn {shape : Fin rank → ℕ} (value : (Fin rank → ℕ) → α) {index : Fin rank → ℕ}
    (hinside : ∀ axis, index axis < shape axis) : (ofFn shape value).value index = value index :=
  if_pos hinside

def zeros (shape : Fin rank → ℕ) : Tensor rank α := ofFn shape fun _ => 0

def full (shape : Fin rank → ℕ) (value : α) : Tensor rank α := ofFn shape fun _ => value

@[simp]
theorem shape_zeros (shape : Fin rank → ℕ) : (zeros shape : Tensor rank α).shape = shape := rfl

/-- `x[..., start:stop, ...]` with bounds that are not negative. -/
def slice (axis : Fin rank) (start stop : ℕ) (x : Tensor rank α) : Tensor rank α :=
  ofFn (update x.shape axis (min stop (x.shape axis) - start)) fun index =>
    x.value (update index axis (index axis + start))

@[simp]
theorem shape_slice (axis : Fin rank) (start stop : ℕ) (x : Tensor rank α) :
    (x.slice axis start stop).shape =
      update x.shape axis (min stop (x.shape axis) - start) := rfl

/-- `x[..., start:start + size, ...]` inside the tensor. -/
theorem shape_slice_of_le {axis : Fin rank} {start size : ℕ} {x : Tensor rank α}
    (hinside : start + size ≤ x.shape axis) :
    (x.slice axis start (start + size)).shape = update x.shape axis size := by
  rw [shape_slice, Nat.min_eq_left hinside, Nat.add_sub_cancel_left]

theorem value_slice {axis : Fin rank} {start stop : ℕ} {x : Tensor rank α}
    {index : Fin rank → ℕ} (hinside : ∀ other, index other <
    (x.slice axis start stop).shape other) :
    (x.slice axis start stop).value index = x.value (update index axis (index axis + start)) :=
  value_ofFn _ hinside

/-- `torch.cat([x, y], dim=axis)` for tensors that agree on the other axes. -/
def append (axis : Fin rank) (x y : Tensor rank α) : Tensor rank α :=
  ofFn (update x.shape axis (x.shape axis + y.shape axis)) fun index =>
    if index axis < x.shape axis then x.value index
    else y.value (update index axis (index axis - x.shape axis))

@[simp]
theorem shape_append (axis : Fin rank) (x y : Tensor rank α) :
    (x.append axis y).shape = update x.shape axis (x.shape axis + y.shape axis) := rfl

theorem value_append {axis : Fin rank} {x y : Tensor rank α} {index : Fin rank → ℕ}
    (hinside : ∀ other, index other < (x.append axis y).shape other) :
    (x.append axis y).value index = if index axis < x.shape axis then x.value index
      else y.value (update index axis (index axis - x.shape axis)) :=
  value_ofFn _ hinside

theorem slice_all (axis : Fin rank) (x : Tensor rank α) : x.slice axis 0 (x.shape axis) = x := by
  have hshape : (x.slice axis 0 (x.shape axis)).shape = x.shape := by
    rw [shape_slice, Nat.min_self, Nat.sub_zero, update_eq_self]
  apply ext_inside hshape
  intro index hinside
  rw [value_slice hinside, Nat.add_zero (index axis), update_eq_self]

theorem append_of_empty {axis : Fin rank} {x y : Tensor rank α} (hempty : y.shape axis = 0) :
    x.append axis y = x := by
  have hshape : (x.append axis y).shape = x.shape := by
    rw [shape_append, hempty, Nat.add_zero, update_eq_self]
  apply ext_inside hshape
  intro index hinside
  rw [value_append hinside, if_pos]
  rw [hshape] at hinside
  exact hinside axis

theorem slice_append (axis : Fin rank) (x y : Tensor rank α) :
    (x.append axis y).slice axis 0 (x.shape axis) = x := by
  have hshape : ((x.append axis y).slice axis 0 (x.shape axis)).shape = x.shape := by
    rw [shape_slice, shape_append, update_self, Nat.min_eq_left (Nat.le_add_right _ _),
      Nat.sub_zero, update_idem, update_eq_self]
  apply ext_inside hshape
  intro index hinside
  rw [value_slice hinside, Nat.add_zero, update_eq_self]
  rw [hshape] at hinside
  rw [value_append, if_pos (hinside axis)]
  intro other
  rw [shape_append]
  by_cases hother : other = axis
  · subst hother
    rw [update_self]
    exact Nat.lt_add_right _ (hinside other)
  · rw [update_of_ne hother]
    exact hinside other

/-- `torch.cat(tensors, dim=axis)`. -/
def cat (axis : Fin rank) : List (Tensor rank α) → Tensor rank α
  | [] => zeros fun _ => 0
  | [x] => x
  | x :: tensors => x.append axis (cat axis tensors)

theorem cat_cons (axis : Fin rank) (x : Tensor rank α) {tensors : List (Tensor rank α)}
    (htensors : tensors ≠ []) : cat axis (x :: tensors) = x.append axis (cat axis tensors) := by
  cases tensors with
  | nil => exact absurd rfl htensors
  | cons y tensors => rfl

/-- Pieces of one shape add up along the axis. -/
theorem shape_cat (axis : Fin rank) {count : ℕ} (hcount : 0 < count)
    {piece : ℕ → Tensor rank α} {shape : Fin rank → ℕ}
    (hshape : ∀ index < count, (piece index).shape = shape) :
    (cat axis ((List.range count).map piece)).shape = update shape axis (count * shape axis) := by
  obtain ⟨count, rfl⟩ := Nat.exists_eq_succ_of_ne_zero (Nat.ne_of_gt hcount)
  clear hcount
  induction count generalizing piece with
  | zero =>
      have hfirst := hshape 0 Nat.zero_lt_one
      simp [List.range_succ, cat, hfirst]
  | succ count ih =>
      have hrest := @ih (fun index => piece (index + 1)) fun index hindex =>
        hshape (index + 1) (by omega)
      rw [List.range_succ_eq_map, List.map_cons, List.map_map, cat_cons _ _ (by simp), shape_append]
      have hcat : (cat axis ((List.range (count + 1)).map (piece ∘ Nat.succ))).shape axis =
          (count + 1) * shape axis := by
        refine (congrFun hrest axis).trans ?_
        rw [update_self]
      rw [hcat, hshape 0 (Nat.succ_pos _)]
      congr 1
      rw [Nat.succ_mul (count + 1), Nat.add_comm]

/-- A coordinate of the whole falls into the piece of its quotient. -/
theorem value_cat {axis : Fin rank} {count : ℕ} {piece : ℕ → Tensor rank α}
    {shape : Fin rank → ℕ} (hshape : ∀ index < count, (piece index).shape = shape)
    {index : Fin rank → ℕ}
    (hinside : ∀ other, index other < update shape axis (count * shape axis) other) :
    (cat axis ((List.range count).map piece)).value index =
      (piece (index axis / shape axis)).value
        (update index axis (index axis % shape axis)) := by
  have hbound : index axis < count * shape axis := by
    have := hinside axis
    rwa [update_self] at this
  have hsize : 0 < shape axis := Nat.pos_of_ne_zero fun hzero => by simp [hzero] at hbound
  induction count generalizing piece index with
  | zero => simp at hbound
  | succ count ih =>
      by_cases hlast : count = 0
      · subst hlast
        have hsmall : index axis < shape axis := by simpa using hbound
        rw [Nat.div_eq_of_lt hsmall, Nat.mod_eq_of_lt hsmall, update_eq_self]
        rfl
      have hcat := @shape_cat _ _ _ axis count (Nat.pos_of_ne_zero hlast)
        (fun index => piece (index + 1)) shape fun index hindex => hshape (index + 1) (by omega)
      have hfirst := hshape 0 (Nat.succ_pos _)
      have hwhole : ((piece 0).append axis
          (cat axis ((List.range count).map fun index => piece (index + 1)))).shape =
            update shape axis ((count + 1) * shape axis) := by
        rw [shape_append, hcat, hfirst, update_self, Nat.succ_mul, Nat.add_comm]
      rw [List.range_succ_eq_map, List.map_cons, List.map_map, cat_cons _ _ (by simpa using hlast)]
      change ((piece 0).append axis
        (cat axis ((List.range count).map fun index => piece (index + 1)))).value index = _
      rw [value_append (by rwa [hwhole]), hfirst]
      split
      next hsmall =>
        rw [Nat.div_eq_of_lt hsmall, Nat.mod_eq_of_lt hsmall, update_eq_self]
      next hlarge =>
        rw [Nat.not_lt] at hlarge
        have hmoved : ∀ other, update index axis (index axis - shape axis) other <
            update shape axis (count * shape axis) other := by
          intro other
          by_cases hother : other = axis
          · subst hother
            rw [update_self, update_self]
            rw [Nat.succ_mul] at hbound
            omega
          · rw [update_of_ne hother, update_of_ne hother]
            have := hinside other
            rwa [update_of_ne hother] at this
        rw [ih (fun index hindex => hshape (index + 1) (by omega)) hmoved
          (by simpa using hmoved axis), update_self, update_idem,
          ← Nat.mod_eq_sub_mod hlarge, Nat.div_eq_sub_div hsize hlarge]

/-- A piece is found again in the whole. -/
theorem slice_cat {axis : Fin rank} {count : ℕ} {piece : ℕ → Tensor rank α}
    {shape : Fin rank → ℕ} (hshape : ∀ index < count, (piece index).shape = shape)
    {index : ℕ} (hindex : index < count) :
    (cat axis ((List.range count).map piece)).slice axis (index * shape axis)
        ((index + 1) * shape axis) = piece index := by
  have hwhole := shape_cat axis (Nat.zero_lt_of_lt hindex) hshape
  have hend : index * shape axis + shape axis ≤ count * shape axis := by
    rw [← Nat.succ_mul]
    exact Nat.mul_le_mul_right _ hindex
  have hpiece : ((cat axis ((List.range count).map piece)).slice axis (index * shape axis)
      ((index + 1) * shape axis)).shape = shape := by
    rw [Nat.succ_mul, shape_slice_of_le (by rwa [hwhole, update_self]), hwhole, update_idem,
      update_eq_self]
  apply ext_inside (hpiece.trans (hshape index hindex).symm)
  intro coordinate hinside
  rw [value_slice hinside]
  rw [hpiece] at hinside
  have haxis := hinside axis
  have hmoved : ∀ other,
      update coordinate axis (coordinate axis + index * shape axis) other <
        update shape axis (count * shape axis) other := by
    intro other
    by_cases hother : other = axis
    · subst hother
      rw [update_self, update_self]
      omega
    · rw [update_of_ne hother, update_of_ne hother]
      exact hinside other
  have hsize := Nat.zero_lt_of_lt haxis
  rw [value_cat hshape hmoved, update_self, update_idem, Nat.add_mul_div_right _ _ hsize,
    Nat.add_mul_mod_self_right, Nat.div_eq_of_lt haxis, Nat.mod_eq_of_lt haxis, Nat.zero_add,
    update_eq_self]

/-- Consecutive slices of one size make up the whole. -/
theorem cat_slices {axis : Fin rank} {count size : ℕ} (hcount : 0 < count) {x : Tensor rank α}
    (hwhole : x.shape axis = count * size) :
    cat axis ((List.range count).map fun index =>
      x.slice axis (index * size) ((index + 1) * size)) = x := by
  have hshape : ∀ index < count,
      (x.slice axis (index * size) ((index + 1) * size)).shape = update x.shape axis size := by
    intro index hindex
    rw [Nat.succ_mul, shape_slice_of_le]
    rw [hwhole, ← Nat.succ_mul]
    exact Nat.mul_le_mul_right _ hindex
  have hcat := shape_cat axis hcount hshape
  rw [update_self, update_idem, ← hwhole, update_eq_self] at hcat
  apply ext_inside hcat
  intro index hinside
  rw [hcat] at hinside
  have haxis := hinside axis
  rw [hwhole] at haxis
  have hsize : 0 < size := Nat.pos_of_ne_zero fun hzero => by simp [hzero] at haxis
  rw [value_cat hshape, update_self, value_slice, update_idem, update_self,
    Nat.mod_add_div', update_eq_self]
  · intro other
    rw [hshape _ (Nat.div_lt_of_lt_mul (by rwa [Nat.mul_comm]))]
    by_cases hother : other = axis
    · subst hother
      rw [update_self, update_self]
      exact Nat.mod_lt _ hsize
    · rw [update_of_ne hother, update_of_ne hother]
      exact hinside other
  · intro other
    rw [update_self, update_idem, ← hwhole, update_eq_self]
    exact hinside other

/-! ## Pieces of different lengths -/

/-- `torch.split(x, lengths, dim=axis)`. -/
def split (axis : Fin rank) : List ℕ → Tensor rank α → List (Tensor rank α)
  | [], _ => []
  | length :: lengths, x =>
      x.slice axis 0 length :: split axis lengths (x.slice axis length (x.shape axis))

@[simp]
theorem length_split (axis : Fin rank) (lengths : List ℕ) (x : Tensor rank α) :
    (split axis lengths x).length = lengths.length := by
  induction lengths generalizing x with
  | nil => rfl
  | cons length lengths ih => rw [split, List.length_cons, List.length_cons, ih]

/-- Two tensors have the same sizes on all other axes. -/
def SameOff (axis : Fin rank) (x y : Tensor rank α) : Prop :=
  ∀ other, other ≠ axis → x.shape other = y.shape other

instance (axis : Fin rank) (x y : Tensor rank α) : Decidable (SameOff axis x y) :=
  inferInstanceAs (Decidable (∀ other, other ≠ axis → x.shape other = y.shape other))

theorem SameOff.symm {axis : Fin rank} {x y : Tensor rank α} (hsame : SameOff axis x y) :
    SameOff axis y x := fun other hother => (hsame other hother).symm

theorem SameOff.trans {axis : Fin rank} {x y z : Tensor rank α} (hleft : SameOff axis x y)
    (hright : SameOff axis y z) : SameOff axis x z := fun other hother =>
  (hleft other hother).trans (hright other hother)

theorem sameOff_slice (axis : Fin rank) (start stop : ℕ) (x : Tensor rank α) :
    SameOff axis (x.slice axis start stop) x := fun other hother => by
  rw [shape_slice, update_of_ne hother]

/-- The end of a concatenation of two tensors. -/
theorem slice_append_right {axis : Fin rank} {x y : Tensor rank α} (hsame : SameOff axis y x) :
    (x.append axis y).slice axis (x.shape axis) ((x.append axis y).shape axis) = y := by
  have hshape : ((x.append axis y).slice axis (x.shape axis)
      ((x.append axis y).shape axis)).shape = y.shape := by
    rw [shape_slice, Nat.min_self, shape_append, update_self, Nat.add_sub_cancel_left,
      update_idem]
    funext other
    by_cases hother : other = axis
    · subst hother
      rw [update_self]
    · rw [update_of_ne hother, hsame other hother]
  apply ext_inside hshape
  intro index hinside
  rw [value_slice hinside, value_append, update_self, if_neg (by omega), Nat.add_sub_cancel,
    update_idem, update_eq_self]
  rw [hshape] at hinside
  intro other
  rw [shape_append]
  by_cases hother : other = axis
  · subst hother
    rw [update_self, update_self]
    have := hinside other
    omega
  · rw [update_of_ne hother, update_of_ne hother, ← hsame other hother]
    exact hinside other

/-- A tensor is its beginning and its end. -/
theorem append_slices {axis : Fin rank} {x : Tensor rank α} {length : ℕ}
    (hlength : length ≤ x.shape axis) :
    (x.slice axis 0 length).append axis (x.slice axis length (x.shape axis)) = x := by
  have hfirst : (x.slice axis 0 length).shape axis = length := by
    rw [shape_slice, update_self, Nat.min_eq_left hlength, Nat.sub_zero]
  have hsecond : (x.slice axis length (x.shape axis)).shape axis = x.shape axis - length := by
    rw [shape_slice, update_self, Nat.min_self]
  have hshape : ((x.slice axis 0 length).append axis
      (x.slice axis length (x.shape axis))).shape = x.shape := by
    rw [shape_append, hfirst, hsecond, Nat.add_sub_cancel' hlength, shape_slice, update_idem,
      update_eq_self]
  apply ext_inside hshape
  intro index hinside
  have hinside' := hinside
  rw [hshape] at hinside'
  rw [value_append hinside, hfirst]
  split
  next hsmall =>
    rw [value_slice, Nat.add_zero (index axis), update_eq_self]
    intro other
    by_cases hother : other = axis
    · subst hother
      rwa [hfirst]
    · rw [sameOff_slice axis 0 length x other hother]
      exact hinside' other
  next hlarge =>
    rw [value_slice, update_self, update_idem, Nat.sub_add_cancel (Nat.not_lt.mp hlarge),
      update_eq_self]
    intro other
    by_cases hother : other = axis
    · subst hother
      rw [update_self, hsecond]
      have := hinside' other
      omega
    · rw [update_of_ne hother, sameOff_slice axis length _ x other hother]
      exact hinside' other

theorem sameOff_cat {axis : Fin rank} {tensors : List (Tensor rank α)} {x : Tensor rank α}
    (htensors : tensors ≠ []) (hsame : ∀ tensor ∈ tensors, SameOff axis tensor x) :
    SameOff axis (cat axis tensors) x := by
  cases tensors with
  | nil => exact absurd rfl htensors
  | cons first tensors =>
      cases tensors with
      | nil => exact hsame first List.mem_cons_self
      | cons second tensors =>
          intro other hother
          rw [cat_cons _ _ (by simp), shape_append, update_of_ne hother]
          exact hsame first List.mem_cons_self other hother

theorem shape_cat_axis (axis : Fin rank) (tensors : List (Tensor rank α)) :
    (cat axis tensors).shape axis = (tensors.map fun tensor => tensor.shape axis).sum := by
  induction tensors with
  | nil => rfl
  | cons first tensors ih =>
      cases tensors with
      | nil => simp [cat]
      | cons second tensors =>
          rw [cat_cons _ _ (by simp), shape_append, update_self, ih]
          rfl

/-- Tensors are found again in their concatenation. -/
theorem split_cat {axis : Fin rank} {tensors : List (Tensor rank α)} {x : Tensor rank α}
    (hsame : ∀ tensor ∈ tensors, SameOff axis tensor x) :
    split axis (tensors.map fun tensor => tensor.shape axis) (cat axis tensors) = tensors := by
  induction tensors with
  | nil => rfl
  | cons first tensors ih =>
      cases tensors with
      | nil => simp [cat, split, slice_all]
      | cons second tensors =>
          have hrest := fun tensor htensor => hsame tensor (List.mem_cons_of_mem _ htensor)
          have hend : SameOff axis (cat axis (second :: tensors)) first :=
            (sameOff_cat (by simp) hrest).trans (hsame first List.mem_cons_self).symm
          rw [List.map_cons, cat_cons _ _ (by simp), split, slice_append, slice_append_right hend,
            ih hrest]

/-- The pieces of a tensor make it up. -/
theorem cat_split {axis : Fin rank} {lengths : List ℕ} {x : Tensor rank α}
    (hlengths : lengths ≠ []) (hsum : x.shape axis = lengths.sum) :
    cat axis (split axis lengths x) = x := by
  induction lengths generalizing x with
  | nil => exact absurd rfl hlengths
  | cons length lengths ih =>
      rw [List.sum_cons] at hsum
      cases lengths with
      | nil =>
          have hall : length = x.shape axis := by simpa using hsum.symm
          rw [split, split, hall]
          exact slice_all axis x
      | cons second lengths =>
          have hrest : (x.slice axis length (x.shape axis)).shape axis =
              (second :: lengths).sum := by
            rw [shape_slice, update_self, Nat.min_self, hsum, Nat.add_sub_cancel_left]
          rw [split, cat_cons _ _ (by simp [split]), ih (by simp) hrest,
            append_slices (hsum ▸ Nat.le_add_right _ _)]

theorem map_shape_split {axis : Fin rank} {lengths : List ℕ} {x : Tensor rank α}
    (hsum : x.shape axis = lengths.sum) :
    (split axis lengths x).map (fun tensor => tensor.shape axis) = lengths := by
  induction lengths generalizing x with
  | nil => rfl
  | cons length lengths ih =>
      rw [List.sum_cons] at hsum
      have hrest : (x.slice axis length (x.shape axis)).shape axis = lengths.sum := by
        rw [shape_slice, update_self, Nat.min_self, hsum, Nat.add_sub_cancel_left]
      rw [split, List.map_cons, ih hrest, shape_slice, update_self,
        Nat.min_eq_left (hsum ▸ Nat.le_add_right _ _), Nat.sub_zero]

theorem sameOff_of_mem_split {axis : Fin rank} {lengths : List ℕ} {x tensor : Tensor rank α}
    (htensor : tensor ∈ split axis lengths x) : SameOff axis tensor x := by
  induction lengths generalizing x with
  | nil => exact absurd htensor List.not_mem_nil
  | cons length lengths ih =>
      rcases List.mem_cons.mp htensor with rfl | htensor
      · exact sameOff_slice _ _ _ _
      · exact (ih htensor).trans (sameOff_slice _ _ _ _)

end Tensor

end OneShotOPD
