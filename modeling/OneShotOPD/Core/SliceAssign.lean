import OneShotOPD.Core.Segments
import OneShotOPD.Core.Checks
import Mathlib.Data.List.GetD
import Mathlib.Data.Nat.ModEq

/-!
# Assignments to a slice

`buffer[start:stop] = source` on a tensor.  The source has the length of the
slice, or length one and is repeated; any other length raises.
-/

namespace OneShotOPD.SliceAssign

open Segments

variable {α : Type}

/-- `source` written over `buffer` from `start` on. -/
def overwrite (buffer : List α) (start : ℕ) (source : List α) : List α :=
  buffer.take start ++ (source ++ buffer.drop (start + source.length))

def assignSlice (buffer : List α) (start stop : ℕ) (source : List α) :
    Except String (List α) :=
  let slot := slice start stop buffer
  if source.length = slot.length then .ok (overwrite buffer start source)
  else
    match source with
    | [value] => .ok (overwrite buffer start (List.replicate slot.length value))
    | _ => .error "The expanded size of the tensor must match the existing size"

/-- The same assignment.  A `strict` one also raises when the slice leaves the
buffer or the source does not have its length. -/
def assignChecked (strict : Bool) (buffer : List α) (start stop : ℕ) (source : List α) :
    Except String (List α) :=
  if strict ∧ ¬ (start ≤ stop ∧ stop ≤ buffer.length ∧ source.length = stop - start) then
    .error "The slice leaves its buffer"
  else assignSlice buffer start stop source

/-- `source[source_start:source_end]` copied to `start`, as far as the source
reaches. -/
def writeClamped (strict : Bool) (buffer : List α) (start sourceStart sourceEnd : ℕ)
    (source : List α) : Except String (List α) :=
  let sourceEnd := min sourceEnd source.length
  if sourceStart < sourceEnd then
    assignChecked strict buffer start (start + (sourceEnd - sourceStart))
      (slice sourceStart sourceEnd source)
  else .ok buffer

/-- `buffer[start:stop] = value`. -/
def fillSlice (buffer : List α) (start stop : ℕ) (value : α) : List α :=
  overwrite buffer start (List.replicate (slice start stop buffer).length value)

def fillChecked (strict : Bool) (buffer : List α) (start stop : ℕ) (value : α) :
    Except String (List α) :=
  if strict ∧ ¬ (start ≤ stop ∧ stop ≤ buffer.length) then
    .error "The slice leaves its buffer"
  else .ok (fillSlice buffer start stop value)

theorem getElem?_slice (low high : ℕ) (items : List α) (index : ℕ) :
    (slice low high items)[index]? = if low + index < high then items[low + index]? else none := by
  rw [slice, List.getElem?_drop, List.getElem?_take]

theorem mem_slice {low high : ℕ} {items : List α} {item : α} :
    item ∈ slice low high items ↔
      ∃ index, low ≤ index ∧ index < high ∧ items[index]? = some item := by
  constructor
  · intro hitem
    obtain ⟨index, hindex⟩ := List.mem_iff_getElem?.mp hitem
    rw [getElem?_slice] at hindex
    split at hindex
    next hlt => exact ⟨low + index, Nat.le_add_right _ _, hlt, hindex⟩
    next => cases hindex
  · rintro ⟨index, hlow, hhigh, hget⟩
    refine List.mem_iff_getElem?.mpr ⟨index - low, ?_⟩
    rw [getElem?_slice, Nat.add_sub_cancel' hlow, if_pos hhigh, hget]

theorem slice_append (low high : ℕ) (first second : List α) :
    slice low high (first ++ second) =
      slice low high first ++ slice (low - first.length) (high - first.length) second := by
  rw [slice, List.take_append, List.drop_append, List.length_take]
  rcases Nat.le_total high first.length with hhigh | hhigh
  · simp [slice, Nat.sub_eq_zero_of_le hhigh]
  · rw [Nat.min_eq_right hhigh]
    rfl

theorem slice_replicate (low high count : ℕ) (value : α) :
    slice low high (List.replicate count value) =
      List.replicate (min high count - low) value := by
  rw [slice, List.take_replicate, List.drop_replicate]

theorem slice_of_length_le {low high : ℕ} {items : List α} (hlow : items.length ≤ low) :
    slice low high items = [] :=
  List.drop_eq_nil_of_le ((List.length_take_le' _ _).trans hlow)

/-- A slice that lies within the middle of three parts. -/
theorem slice_within {front middle back : List α} (low : ℕ) {high : ℕ}
    (hhigh : high ≤ middle.length) :
    slice (front.length + low) (front.length + high) (front ++ (middle ++ back)) =
      slice low high middle := by
  rw [slice_append, slice_of_length_le (Nat.le_add_right _ _), List.nil_append,
    Nat.add_sub_cancel_left, Nat.add_sub_cancel_left, slice, slice,
    List.take_append_of_le_length hhigh]

theorem slice_within_take {front middle back : List α} {high : ℕ}
    (hhigh : high ≤ middle.length) :
    slice front.length (front.length + high) (front ++ (middle ++ back)) =
      middle.take high :=
  slice_within 0 hhigh

theorem length_overwrite {buffer source : List α} {start : ℕ}
    (hfits : start + source.length ≤ buffer.length) :
    (overwrite buffer start source).length = buffer.length := by
  simp only [overwrite, List.length_append, List.length_take, List.length_drop]
  omega

theorem getElem?_overwrite {buffer source : List α} {start : ℕ}
    (hfits : start + source.length ≤ buffer.length) (index : ℕ) :
    (overwrite buffer start source)[index]? =
      if start ≤ index ∧ index < start + source.length then source[index - start]?
      else buffer[index]? := by
  have htake : (buffer.take start).length = start := by
    rw [List.length_take]
    omega
  rw [overwrite, List.getElem?_append, htake]
  by_cases hbefore : index < start
  · rw [if_pos hbefore, if_neg (by omega), List.getElem?_take_of_lt hbefore]
  · rw [if_neg hbefore, List.getElem?_append]
    by_cases hinside : index < start + source.length
    · rw [if_pos (by omega), if_pos (by omega)]
    · rw [if_neg (by omega), if_neg (by omega), List.getElem?_drop]
      congr 1
      omega

/-- Writing exactly over the middle of a buffer replaces it. -/
theorem overwrite_middle {front slot back source : List α}
    (hlength : source.length = slot.length) :
    overwrite (front ++ (slot ++ back)) front.length source =
      front ++ (source ++ back) := by
  rw [overwrite, List.take_left, hlength, ← List.drop_drop, List.drop_left, List.drop_left]

theorem assignSlice_eq_ok {buffer source : List α} {start stop : ℕ}
    (hsource : source.length = stop - start) (hstop : stop ≤ buffer.length) :
    assignSlice buffer start stop source = .ok (overwrite buffer start source) := by
  unfold assignSlice
  exact if_pos (by rw [length_slice hstop, hsource])

@[simp]
theorem assignChecked_false (buffer source : List α) (start stop : ℕ) :
    assignChecked false buffer start stop source = assignSlice buffer start stop source := by
  simp [assignChecked]

theorem assignChecked_eq_ok (strict : Bool) {buffer source : List α} {start stop : ℕ}
    (hstart : start ≤ stop) (hstop : stop ≤ buffer.length)
    (hsource : source.length = stop - start) :
    assignChecked strict buffer start stop source = .ok (overwrite buffer start source) := by
  rw [assignChecked, if_neg fun hstrict => hstrict.2 ⟨hstart, hstop, hsource⟩,
    assignSlice_eq_ok hsource hstop]

/-- A source of one element fills the slice. -/
theorem assignSlice_singleton {buffer : List α} {start stop : ℕ} (value : α)
    (hstop : stop ≤ buffer.length) :
    assignSlice buffer start stop [value] =
      .ok (overwrite buffer start (List.replicate (stop - start) value)) := by
  by_cases hone : stop - start = 1
  · rw [assignSlice_eq_ok (by rw [hone, List.length_singleton]) hstop, hone]
    rfl
  · simp only [assignSlice, length_slice hstop, List.length_singleton]
    exact if_neg (Ne.symm hone)

/-- An assignment does not change the size of the buffer. -/
theorem length_of_assignSlice {buffer source result : List α} {start stop : ℕ}
    (hok : assignSlice buffer start stop source = .ok result) :
    result.length = buffer.length := by
  have hslot : (slice start stop buffer).length = min stop buffer.length - start := by
    rw [slice, List.length_drop, List.length_take]
  simp only [assignSlice] at hok
  split at hok
  next hlength =>
    cases hok
    simp only [overwrite, List.length_append, List.length_take, List.length_drop]
    omega
  next =>
    split at hok
    next value =>
      cases hok
      simp only [overwrite, List.length_append, List.length_take, List.length_drop,
        List.length_replicate]
      omega
    next => cases hok

/-- What an assignment that does not raise says of its source. -/
theorem source_of_assignSlice {buffer source result : List α} {start stop : ℕ}
    (hstop : stop ≤ buffer.length)
    (hok : assignSlice buffer start stop source = .ok result) :
    source.length = stop - start ∨ source.length = 1 := by
  simp only [assignSlice, length_slice hstop] at hok
  split at hok
  next hlength => exact .inl hlength
  next =>
    split at hok
    next => exact .inr (List.length_singleton ..)
    next => cases hok

theorem assignChecked_middle (strict : Bool) (front back : List α) {slot source : List α}
    (hlength : source.length = slot.length) :
    assignChecked strict (front ++ (slot ++ back)) front.length
        (front.length + slot.length) source = .ok (front ++ (source ++ back)) := by
  rw [assignChecked_eq_ok strict (Nat.le_add_right _ _)
    (by simp only [List.length_append]; omega) (by rw [hlength, Nat.add_sub_cancel_left]),
    overwrite_middle hlength]

theorem assignSlice_middle (front back : List α) {slot source : List α}
    (hlength : source.length = slot.length) :
    assignSlice (front ++ (slot ++ back)) front.length (front.length + slot.length) source =
      .ok (front ++ (source ++ back)) := by
  rw [← assignChecked_false, assignChecked_middle false front back hlength]

theorem assignSlice_middle_singleton (front slot back : List α) (value : α) :
    assignSlice (front ++ (slot ++ back)) front.length (front.length + slot.length) [value] =
      .ok (front ++ (List.replicate slot.length value ++ back)) := by
  rw [assignSlice_singleton value (by simp only [List.length_append]; omega),
    Nat.add_sub_cancel_left, overwrite_middle (List.length_replicate ..)]

/-- Copying a slice of `items` to its own place makes the buffer agree with
`items` there. -/
theorem assignChecked_slice (strict : Bool) {buffer items : List α} (low high : ℕ)
    (hlow : low ≤ high)
    (hhigh : high ≤ items.length) (hlength : buffer.length = items.length) :
    ∃ result, assignChecked strict buffer low high (slice low high items) = .ok result ∧
      result.length = items.length ∧
      ∀ index : ℕ, result[index]? =
        if low ≤ index ∧ index < high then items[index]? else buffer[index]? := by
  have hslice : (slice low high items).length = high - low := length_slice hhigh
  have hfits : low + (slice low high items).length ≤ buffer.length := by omega
  refine ⟨_, assignChecked_eq_ok strict hlow (hlength ▸ hhigh) hslice,
    (length_overwrite hfits).trans hlength, fun index => ?_⟩
  rw [getElem?_overwrite hfits, hslice, Nat.add_sub_cancel' hlow]
  split
  next hinside =>
    rw [getElem?_slice, Nat.add_sub_cancel' hinside.1, if_pos hinside.2]
  next => rfl

/-- What is copied, with the zeros behind it, is a slice of the padded source. -/
theorem writeClamped_eq (strict : Bool) (front back d : List α) (zero : α)
    {half sourceStart total : ℕ}
    (htotal : sourceStart + half ≤ total) :
    writeClamped strict (front ++ (List.replicate half zero ++ back)) front.length sourceStart
        (sourceStart + half) d =
      .ok (front ++ (slice sourceStart (sourceStart + half)
        (d ++ List.replicate (total - d.length) zero) ++ back)) := by
  have hzeros : min (sourceStart + half - d.length) (total - d.length) -
      (sourceStart - d.length) =
        half - (min (sourceStart + half) d.length - sourceStart) := by
    omega
  have hlength : (slice sourceStart (sourceStart + half) d).length =
      min (sourceStart + half) d.length - sourceStart := by
    rw [slice, List.length_drop, List.length_take]
  rw [slice_append, slice_replicate, hzeros, writeClamped]
  split
  next hlt =>
    have hsource : slice sourceStart (min (sourceStart + half) d.length) d =
        slice sourceStart (sourceStart + half) d := by
      rw [slice, slice, ← List.take_take, List.take_length]
    have hreach : min (sourceStart + half) d.length - sourceStart ≤ half := by omega
    generalize min (sourceStart + half) d.length - sourceStart = reach at hlength hreach ⊢
    have hslot : (List.replicate reach zero).length = reach := List.length_replicate
    have hassign := assignChecked_middle strict front (List.replicate (half - reach) zero ++ back)
      (hlength.trans hslot.symm)
    rw [hslot, ← List.append_assoc (List.replicate reach zero), ← List.replicate_add,
      Nat.add_sub_cancel' hreach] at hassign
    rw [hsource, hassign, List.append_assoc]
  next hge =>
    have hnone := Nat.sub_eq_zero_of_le (not_lt.mp hge)
    rw [List.eq_nil_of_length_eq_zero (hlength.trans hnone), List.nil_append, hnone,
      Nat.sub_zero]

theorem assignSlice_of_assignChecked {strict : Bool} {buffer source result : List α}
    {start stop : ℕ} (hok : assignChecked strict buffer start stop source = .ok result) :
    assignSlice buffer start stop source = .ok result := by
  rw [assignChecked] at hok
  split at hok
  next => cases hok
  next => exact hok

theorem length_of_writeClamped {strict : Bool} {buffer source result : List α}
    {start sourceStart sourceEnd : ℕ}
    (hok : writeClamped strict buffer start sourceStart sourceEnd source = .ok result) :
    result.length = buffer.length := by
  rw [writeClamped] at hok
  split at hok
  next => exact length_of_assignSlice (assignSlice_of_assignChecked hok)
  next =>
    cases hok
    rfl

theorem fillChecked_eq (strict : Bool) {buffer : List α} {start stop : ℕ} (value : α)
    (hstart : start ≤ stop) (hstop : stop ≤ buffer.length) :
    fillChecked strict buffer start stop value =
      assignChecked strict buffer start stop (List.replicate (stop - start) value) := by
  rw [assignChecked_eq_ok strict hstart hstop List.length_replicate, fillChecked,
    if_neg fun hstrict => hstrict.2 ⟨hstart, hstop⟩, fillSlice, length_slice hstop]

/-- A loop that fills its buffer one slot after the other leaves the segments
in the place of the slots. -/
theorem foldlM_fill (step : List α → ℕ → Except String (List α)) {segment : ℕ → List α}
    {count : ℕ} (zero : α)
    (hstep : ∀ index < count, ∀ back,
      step ((List.range index).flatMap segment ++
          (List.replicate (segment index).length zero ++ back)) index =
        .ok ((List.range index).flatMap segment ++ (segment index ++ back)))
    (back : List α) :
    (List.range count).foldlM step
        (List.replicate ((List.range count).flatMap segment).length zero ++ back) =
      .ok ((List.range count).flatMap segment ++ back) := by
  induction count generalizing back with
  | zero => rfl
  | succ count ih =>
      rw [List.range_succ, List.flatMap_append, List.flatMap_singleton, List.length_append,
        List.replicate_add, List.append_assoc, List.foldlM_append,
        ih fun index hindex => hstep index (Nat.lt_succ_of_lt hindex)]
      simp only [bind, Except.bind, List.foldlM_cons, List.foldlM_nil,
        hstep count (Nat.lt_succ_self count), pure, Except.pure, List.append_assoc]

/-- The segments before one, the segment, and those behind it. -/
theorem flatMap_range_split (segment : ℕ → List α) {index count : ℕ} (hindex : index < count) :
    ∃ back, (List.range count).flatMap segment =
      (List.range index).flatMap segment ++ (segment index ++ back) := by
  obtain ⟨rest, rfl⟩ := Nat.exists_eq_add_of_lt hindex
  refine ⟨((List.range rest).map (index + 1 + ·)).flatMap segment, ?_⟩
  rw [Nat.add_right_comm, List.range_add, List.range_succ, List.flatMap_append,
    List.flatMap_append, List.flatMap_singleton, List.append_assoc]

/-- Among segments of one size, a position is found by division. -/
theorem getD_flatMap_range {segment : ℕ → List α} {size count position : ℕ} (default : α)
    (hsegment : ∀ index, (segment index).length = size) (hsize : 0 < size)
    (hposition : position / size < count) :
    ((List.range count).flatMap segment).getD position default =
      (segment (position / size)).getD (position % size) default := by
  obtain ⟨back, hsplit⟩ := flatMap_range_split segment hposition
  have hfront : ((List.range (position / size)).flatMap segment).length =
      position / size * size := by
    simp [List.length_flatMap, hsegment]
  have hsum : position = position / size * size + position % size := by
    rw [Nat.mul_comm]
    exact (Nat.div_add_mod position size).symm
  have hmod : position % size < (segment (position / size)).length := by
    rw [hsegment]
    exact Nat.mod_lt _ hsize
  have hrest : position - position / size * size = position % size := by omega
  rw [List.getD_eq_getElem?_getD, List.getD_eq_getElem?_getD, hsplit,
    List.getElem?_append_right (by omega), hfront, hrest, List.getElem?_append_left hmod]

theorem offset_succ {counts : List ℕ} {index : ℕ} (hindex : index < counts.length) :
    offset counts (index + 1) = offset counts index + counts.getD index 0 := by
  rw [offset_eq hindex, offset_eq hindex.le, List.take_add_one, List.sum_append,
    List.getD_eq_getElem?_getD, List.getElem?_eq_getElem hindex]
  simp

/-- Segments of the lengths `counts`, each divided by one size, start at the
divided offsets. -/
theorem length_flatMap_range {segment : ℕ → List α} {counts : List ℕ} (size : ℕ)
    (hdvd : ∀ count ∈ counts, size ∣ count)
    (hsegment : ∀ index < counts.length, (segment index).length = counts.getD index 0 / size)
    {index : ℕ} (hindex : index ≤ counts.length) :
    ((List.range index).flatMap segment).length = offset counts index / size := by
  induction index with
  | zero => rw [offset_eq (Nat.zero_le _), List.take_zero, List.sum_nil, Nat.zero_div]; rfl
  | succ index ih =>
      have hcount : size ∣ counts.getD index 0 := by
        rw [List.getD_eq_getElem _ _ hindex]
        exact hdvd _ (List.getElem_mem hindex)
      rw [List.range_succ, List.flatMap_append, List.flatMap_singleton, List.length_append,
        ih (Nat.le_of_succ_le hindex), hsegment index hindex, offset_succ hindex,
        Nat.add_div_of_dvd_left hcount]

/-- A position among segments is a position in one of them. -/
theorem getElem?_flatMap_range {segment : ℕ → List α} {count position : ℕ} {item : α}
    (hitem : ((List.range count).flatMap segment)[position]? = some item) :
    ∃ index < count, ∃ inner, position = ((List.range index).flatMap segment).length + inner ∧
      (segment index)[inner]? = some item := by
  induction count with
  | zero => simp at hitem
  | succ count ih =>
      rw [List.range_succ, List.flatMap_append, List.flatMap_singleton,
        List.getElem?_append] at hitem
      split at hitem
      next =>
        obtain ⟨index, hindex, inner, hposition, hinner⟩ := ih hitem
        exact ⟨index, Nat.lt_succ_of_lt hindex, inner, hposition, hinner⟩
      next hge =>
        exact ⟨count, Nat.lt_succ_self count, _, (Nat.add_sub_cancel' (not_lt.mp hge)).symm,
          hitem⟩

end OneShotOPD.SliceAssign
