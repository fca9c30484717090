import Mathlib.Algebra.BigOperators.Group.List.Basic
import Mathlib.Data.List.TakeDrop
import Mathlib.Tactic.Common

/-!
# Weights and byte buckets

A weight is a named tensor, seen as its bytes.  Weights travel inside buckets,
which are plain byte buffers, and come back as slices of a bucket that are
reinterpreted in the element type of the weight.
-/

namespace OneShotOPD.WeightSync

structure Dtype where
  name : String
  itemsize : ℕ
  itemsize_pos : 0 < itemsize
  deriving DecidableEq

structure Weight where
  name : String
  shape : List ℕ
  dtype : Dtype
  data : List UInt8
  data_length : data.length = shape.prod * dtype.itemsize
  deriving DecidableEq

def Weight.nbytes (weight : Weight) : ℕ := weight.data.length

inductive TransferError where
  /-- `Tensor.view(dtype)` of a slice that does not start at a multiple of the
  element size. -/
  | misaligned (name : String)
  | invalidShape (name : String)
  /-- An `assert`, with the fixed part of its message. -/
  | assertion (message : String)
  /-- A weight larger than a bucket that cannot be sent by a handle. -/
  | tooLarge (name : String) (shape : List ℕ) (dtype : Dtype)
  /-- A slice at the offset `None`. -/
  | unplaced (name : String)
  /-- The next message never comes. -/
  | waiting
  deriving DecidableEq

/-- A slice of a bucket. -/
structure Slice where
  start : ℕ
  bytes : List UInt8

/-- `buffer[start : start + length]`. -/
def sliceOf (buffer : List UInt8) (start length : ℕ) : Slice where
  start := start
  bytes := (buffer.drop start).take length

/-- `slice.view(dtype).view(shape)`: the bytes are reinterpreted in place, for
which the slice has to start at a multiple of the element size. -/
def Slice.viewAs (slice : Slice) (name : String) (shape : List ℕ) (dtype : Dtype) :
    Except TransferError Weight :=
  if slice.start % dtype.itemsize = 0 then
    if hlength : slice.bytes.length = shape.prod * dtype.itemsize then
      .ok ⟨name, shape, dtype, slice.bytes, hlength⟩
    else .error (.invalidShape name)
  else .error (.misaligned name)

/-- `buffer[start : start + len(bytes)] = bytes`. -/
def writeAt (buffer : List UInt8) (start : ℕ) (bytes : List UInt8) : List UInt8 :=
  buffer.take start ++ bytes ++ buffer.drop (start + bytes.length)

theorem length_writeAt {buffer bytes : List UInt8} {start : ℕ}
    (hfits : start + bytes.length ≤ buffer.length) :
    (writeAt buffer start bytes).length = buffer.length := by
  simp [writeAt]
  omega

/-- What stands in front of a write stays, and the write follows it. -/
theorem take_writeAt {buffer bytes : List UInt8} {start : ℕ}
    (hstart : start ≤ buffer.length) :
    (writeAt buffer start bytes).take (start + bytes.length) =
      buffer.take start ++ bytes := by
  have hlength : (buffer.take start ++ bytes).length = start + bytes.length := by
    simp [hstart]
  rw [writeAt, ← hlength, List.take_left]

/-- Reading back the bytes of a weight gives the weight, when they are
aligned. -/
theorem viewAs_data (weight : Weight) (start : ℕ) :
    (Slice.mk start weight.data).viewAs weight.name weight.shape weight.dtype =
      if weight.dtype.itemsize ∣ start then .ok weight
      else .error (.misaligned weight.name) := by
  simp [Slice.viewAs, Nat.dvd_iff_mod_eq_zero, weight.data_length]

theorem exists_viewAs_eq_ok {slice : Slice} {shape : List ℕ} {dtype : Dtype}
    (haligned : dtype.itemsize ∣ slice.start)
    (hlength : slice.bytes.length = shape.prod * dtype.itemsize) (name : String) :
    ∃ weight, slice.viewAs name shape dtype = .ok weight := by
  rw [Slice.viewAs, if_pos (Nat.mod_eq_zero_of_dvd haligned), dif_pos hlength]
  exact ⟨_, rfl⟩

/-- A slice of a concatenation. -/
theorem sliceOf_append {first middle last : List UInt8} :
    sliceOf (first ++ middle ++ last) first.length middle.length =
      ⟨first.length, middle⟩ := by
  simp [sliceOf]

end OneShotOPD.WeightSync
