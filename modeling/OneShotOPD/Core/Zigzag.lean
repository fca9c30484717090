import OneShotOPD.Core.SliceAssign
import Mathlib.Algebra.Order.Group.Nat

/-!
# The zigzag split of a sequence

A sequence is cut into two chunks for each rank, and a rank receives the one
that is as far from the front as the other is from the back.  The chunks of
all ranks, written back to their places, make up the sequence again, and every
position lies in the chunks of one rank.
-/

namespace OneShotOPD.Zigzag

open Segments SliceAssign Checks

variable {α : Type}

/-- The chunk of a rank that is counted from the front. -/
def firstChunk (half rank : ℕ) (items : List α) : List α :=
  slice (rank * half) ((rank + 1) * half) items

/-- The chunk of a rank that is counted from the back. -/
def secondChunk (half rank : ℕ) (items : List α) : List α :=
  slice (items.length - (rank + 1) * half) (items.length - rank * half) items

theorem length_firstChunk {half rank count : ℕ} (hrank : rank < count) {items : List α}
    (hlength : items.length = 2 * (count * half)) :
    (firstChunk half rank items).length = half := by
  have hreach : (rank + 1) * half ≤ count * half := Nat.mul_le_mul_right half hrank
  rw [firstChunk, length_slice (by omega), Nat.succ_mul, Nat.add_sub_cancel_left]

theorem length_secondChunk {half rank count : ℕ} (hrank : rank < count) {items : List α}
    (hlength : items.length = 2 * (count * half)) :
    (secondChunk half rank items).length = half := by
  have hreach : (rank + 1) * half ≤ count * half := Nat.mul_le_mul_right half hrank
  rw [Nat.succ_mul] at hreach
  rw [secondChunk, length_slice (Nat.sub_le _ _), Nat.succ_mul]
  omega

/-- The loop that writes the two chunks of every rank to their places. -/
def joinHalves (strict : Bool) (half : ℕ) (halves : ℕ → List α × List α) (count : ℕ)
    (buffer : List α) : Except String (List α) :=
  (List.range count).foldlM (fun buffer j => do
    let buffer ← assignChecked strict buffer (j * half) ((j + 1) * half) (halves j).1
    assignChecked strict buffer (buffer.length - (j + 1) * half) (buffer.length - j * half)
      (halves j).2) buffer

/-- After the chunks of some ranks the buffer agrees with the sequence up to
their reach from both ends. -/
theorem joinHalves_reach (strict : Bool) {half count : ℕ} {halves : ℕ → List α × List α}
    {items buffer : List α} (hroom : 2 * (count * half) ≤ items.length)
    (hbuffer : buffer.length = items.length)
    (hhalves : ∀ rank < count,
      halves rank = (firstChunk half rank items, secondChunk half rank items)) :
    ∃ result, joinHalves strict half halves count buffer = .ok result ∧
      result.length = items.length ∧
      ∀ index : ℕ, result[index]? =
        if index < count * half ∨ items.length - count * half ≤ index
        then items[index]? else buffer[index]? := by
  induction count with
  | zero =>
      refine ⟨buffer, rfl, hbuffer, fun index => ?_⟩
      split
      next hreach =>
        rw [List.getElem?_eq_none (by omega), List.getElem?_eq_none (by omega)]
      next => rfl
  | succ count ih =>
      have hmul : (count + 1) * half = count * half + half := Nat.succ_mul count half
      obtain ⟨middle, hmiddle, hlength, hagree⟩ :=
        ih (by omega) fun rank hrank => hhalves rank (Nat.lt_succ_of_lt hrank)
      obtain ⟨front, hfront, hfrontLength, hfrontAgree⟩ :=
        assignChecked_slice strict (count * half) ((count + 1) * half) (by omega) (by omega) hlength
      obtain ⟨back, hback, hbackLength, hbackAgree⟩ :=
        assignChecked_slice strict (items.length - (count + 1) * half) (items.length - count * half)
          (by omega) (by omega) hfrontLength
      refine ⟨back, ?_, hbackLength, fun index => ?_⟩
      · rw [joinHalves] at hmiddle ⊢
        rw [List.range_succ, List.foldlM_append, hmiddle]
        simp only [hhalves count (Nat.lt_succ_self count), firstChunk, secondChunk,
          bind, Except.bind, List.foldlM_cons, List.foldlM_nil, hfront, hfrontLength, hback]
        rfl
      · rw [hbackAgree, hfrontAgree, hagree]
        grind

/-- The chunks of all ranks make up the sequence. -/
theorem joinHalves_chunks (strict : Bool) {half count : ℕ} {halves : ℕ → List α × List α}
    {items : List α} (buffer : List α) (hlength : items.length = 2 * (count * half))
    (hbuffer : buffer.length = items.length)
    (hhalves : ∀ rank < count,
      halves rank = (firstChunk half rank items, secondChunk half rank items)) :
    joinHalves strict half halves count buffer = .ok items := by
  obtain ⟨result, hresult, hresultLength, hagree⟩ :=
    joinHalves_reach strict hlength.ge hbuffer hhalves
  rw [hresult]
  refine congrArg _ (List.ext_getElem? fun index => ?_)
  rw [hagree, if_pos (by omega)]

/-- A second chunk that is not as long as its place cannot be written. -/
theorem secondChunk_of_joinHalves {half count : ℕ} {halves : ℕ → List α × List α}
    {buffer result : List α} (hcount : 0 < count) (hroom : half ≤ buffer.length)
    (hok : joinHalves false half halves count buffer = .ok result) :
    (halves 0).2.length = half ∨ (halves 0).2.length = 1 := by
  obtain ⟨count, rfl⟩ := Nat.exists_eq_succ_of_ne_zero hcount.ne'
  rw [joinHalves, List.range_succ_eq_map, List.foldlM_cons] at hok
  obtain ⟨back, hback, -⟩ := bind_eq_ok.mp hok
  obtain ⟨front, hfront, hback⟩ := bind_eq_ok.mp hback
  rw [assignChecked_false] at hfront hback
  have hlength := length_of_assignSlice hfront
  have hsource := source_of_assignSlice (by omega) hback
  omega

/-- Copying as far as a short sequence reaches writes the chunks of the sequence
with zeros behind it. -/
theorem writeClamped_chunks (strict : Bool) (front back d : List α) (zero : α)
    {half rank count : ℕ} (hrank : rank < count) (hlong : d.length ≤ 2 * (count * half)) :
    (do
      let rows ← writeClamped strict (front ++ (List.replicate (half + half) zero ++ back))
        front.length (half * rank) (half * (rank + 1)) d
      writeClamped strict rows (front.length + half) (2 * (count * half) - half * (rank + 1))
        (2 * (count * half) - half * rank) d) =
      .ok (front ++
        ((firstChunk half rank (d ++ List.replicate (2 * (count * half) - d.length) zero) ++
          secondChunk half rank (d ++ List.replicate (2 * (count * half) - d.length) zero)) ++
          back)) := by
  have hreach : (rank + 1) * half ≤ count * half := Nat.mul_le_mul_right half hrank
  rw [Nat.succ_mul] at hreach
  have hlength : (d ++ List.replicate (2 * (count * half) - d.length) zero).length =
      2 * (count * half) := by
    rw [List.length_append, List.length_replicate, Nat.add_sub_cancel' hlong]
  have hend : 2 * (count * half) - rank * half =
      2 * (count * half) - (rank * half + half) + half := by
    omega
  have hfirst : writeClamped strict (front ++ (List.replicate (half + half) zero ++ back))
      front.length (half * rank) (half * (rank + 1)) d =
      .ok (front ++
        (firstChunk half rank (d ++ List.replicate (2 * (count * half) - d.length) zero) ++
          (List.replicate half zero ++ back))) := by
    rw [List.replicate_add, List.append_assoc, Nat.mul_comm half, Nat.mul_comm half,
      firstChunk, Nat.succ_mul rank half]
    exact writeClamped_eq strict front (List.replicate half zero ++ back) d zero (by omega)
  have hsecond := writeClamped_eq strict (front ++ firstChunk half rank
    (d ++ List.replicate (2 * (count * half) - d.length) zero)) back d zero
    (show 2 * (count * half) - (rank * half + half) + half ≤ 2 * (count * half) by omega)
  rw [List.length_append, length_firstChunk hrank hlength] at hsecond
  rw [hfirst, secondChunk, hlength, Nat.mul_comm half, Nat.mul_comm half,
    Nat.succ_mul rank half, hend]
  simp only [bind, Except.bind]
  rw [← List.append_assoc, hsecond]
  simp only [List.append_assoc]

/-- The rank whose chunks hold a position. -/
def rankOf (half length index : ℕ) : ℕ := min index (length - 1 - index) / half

theorem rankOf_lt {half count index : ℕ} (hindex : index < 2 * (count * half)) :
    rankOf half (2 * (count * half)) index < count := by
  have hhalf : 0 < half := by
    rcases Nat.eq_zero_or_pos half with rfl | hhalf
    · simp at hindex
    · exact hhalf
  rw [rankOf, Nat.div_lt_iff_lt_mul hhalf]
  omega

/-- An element is in the chunks of a rank exactly when it stands at a position
of the rank. -/
theorem mem_chunks {half count rank : ℕ} (hhalf : 0 < half) (hrank : rank < count)
    {items : List α} (hlength : items.length = 2 * (count * half)) {item : α} :
    item ∈ firstChunk half rank items ++ secondChunk half rank items ↔
      ∃ index, items[index]? = some item ∧ rankOf half items.length index = rank := by
  have hmul : (rank + 1) * half = rank * half + half := Nat.succ_mul rank half
  have hreach : (rank + 1) * half ≤ count * half := Nat.mul_le_mul_right half hrank
  have hrankOf : ∀ index < items.length, rankOf half items.length index = rank ↔
      (rank * half ≤ index ∧ index < (rank + 1) * half) ∨
        (items.length - (rank + 1) * half ≤ index ∧ index < items.length - rank * half) := by
    intro index hindex
    rw [rankOf, Nat.div_eq_iff hhalf]
    omega
  rw [List.mem_append, firstChunk, secondChunk, mem_slice, mem_slice]
  constructor
  · rintro (⟨index, hlow, hhigh, hget⟩ | ⟨index, hlow, hhigh, hget⟩)
    · have hindex := (List.getElem?_eq_some_iff.mp hget).1
      exact ⟨index, hget, (hrankOf index hindex).mpr (.inl ⟨hlow, hhigh⟩)⟩
    · have hindex := (List.getElem?_eq_some_iff.mp hget).1
      exact ⟨index, hget, (hrankOf index hindex).mpr (.inr ⟨hlow, hhigh⟩)⟩
  · rintro ⟨index, hget, hrank⟩
    have hindex := (List.getElem?_eq_some_iff.mp hget).1
    rcases (hrankOf index hindex).mp hrank with ⟨hlow, hhigh⟩ | ⟨hlow, hhigh⟩
    · exact .inl ⟨index, hlow, hhigh, hget⟩
    · exact .inr ⟨index, hlow, hhigh, hget⟩

end OneShotOPD.Zigzag
