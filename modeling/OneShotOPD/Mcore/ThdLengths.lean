import OneShotOPD.Mcore.Thd
import Mathlib.Algebra.BigOperators.Ring.List
import Mathlib.Algebra.Ring.Nat

/-!
# The padded lengths of a packed batch

All sequences but the last are padded to the alignment.  The last one also
takes what FP8, the minimum of local rows and the length bucket add to the whole
buffer, so its padded length is what is left of the padded total.
-/

namespace OneShotOPD.Mcore

open Segments Checks

namespace ThdSettings

variable (settings : ThdSettings)

def fp8Total (total : ℕ) : ℕ :=
  if settings.useFp8Padding then roundUp settings.totalAlign total else total

def rowsTotal (total : ℕ) : ℕ :=
  match settings.minLocalRows with
  | none => total
  | some minLocalRows => max total (settings.cpSize * minLocalRows)

def bucketTotal (total : ℕ) : ℕ :=
  match settings.padToLengthBucket with
  | none => total
  | some bucket => roundUp (settings.totalAlignment bucket) total

/-- The rows of the whole padded buffer. -/
def paddedTotal (lengths : List ℕ) : ℕ :=
  settings.bucketTotal (settings.rowsTotal
    (settings.fp8Total (lengths.map (roundUp settings.alignSize)).sum))

/-- The padded length of the last sequence. -/
def paddedLast (lengths : List ℕ) : ℕ :=
  settings.paddedTotal lengths - (lengths.dropLast.map (roundUp settings.alignSize)).sum

/-- The padded lengths of all sequences. -/
def paddedLengths (lengths : List ℕ) : List ℕ :=
  lengths.dropLast.map (roundUp settings.alignSize) ++ [settings.paddedLast lengths]

theorem cpLayoutFactor_pos : 0 < settings.cpLayoutFactor := by
  rw [cpLayoutFactor]
  split <;> decide

theorem baseAlign_pos : 0 < settings.baseAlign :=
  Nat.mul_pos (Nat.mul_pos settings.tpSize_pos settings.cpSize_pos) settings.cpLayoutFactor_pos

theorem alignSize_pos : 0 < settings.alignSize := by
  rw [alignSize]
  split
  next => exact Nat.lcm_pos (by decide) settings.baseAlign_pos
  next => exact settings.baseAlign_pos

theorem baseAlign_dvd_alignSize : settings.baseAlign ∣ settings.alignSize := by
  rw [alignSize]
  split
  next => exact Nat.dvd_lcm_right 16 settings.baseAlign
  next => exact dvd_rfl

theorem cpSize_dvd_baseAlign : settings.cpSize ∣ settings.baseAlign :=
  (Dvd.intro_left settings.tpSize rfl).mul_right settings.cpLayoutFactor

theorem cpSize_dvd_alignSize : settings.cpSize ∣ settings.alignSize :=
  settings.cpSize_dvd_baseAlign.trans settings.baseAlign_dvd_alignSize

/-- In the zigzag layout the alignment leaves room for two chunks a rank. -/
theorem two_mul_cpSize_dvd_alignSize (hlayout : settings.cpLayout = .zigzag)
    (hcp : 1 < settings.cpSize) : 2 * settings.cpSize ∣ settings.alignSize := by
  apply Nat.dvd_trans _ settings.baseAlign_dvd_alignSize
  rw [baseAlign, cpLayoutFactor, if_pos ⟨hlayout, hcp⟩, Nat.mul_assoc, Nat.mul_comm 2]
  exact Nat.dvd_mul_left _ _

theorem totalAlign_pos : 0 < settings.totalAlign :=
  Nat.mul_pos settings.baseAlign_pos (by decide)

theorem cpSize_dvd_totalAlign : settings.cpSize ∣ settings.totalAlign :=
  settings.cpSize_dvd_baseAlign.mul_right 128

theorem cpSize_dvd_totalAlignment (bucket : ℕ) :
    settings.cpSize ∣ settings.totalAlignment bucket := by
  have hlcm : settings.cpSize ∣ Nat.lcm bucket settings.cpSize := Nat.dvd_lcm_right _ _
  rw [totalAlignment]
  split
  next => exact hlcm.trans (Nat.dvd_lcm_left _ _)
  next => exact hlcm

theorem totalAlignment_pos {bucket : ℕ} (hbucket : 0 < bucket) :
    0 < settings.totalAlignment bucket := by
  have hlcm : 0 < Nat.lcm bucket settings.cpSize := Nat.lcm_pos hbucket settings.cpSize_pos
  rw [totalAlignment]
  split
  next => exact Nat.lcm_pos hlcm settings.totalAlign_pos
  next => exact hlcm

theorem le_fp8Total (total : ℕ) : total ≤ settings.fp8Total total := by
  rw [fp8Total]
  split
  next => exact le_roundUp _ _
  next => exact le_rfl

theorem le_rowsTotal (total : ℕ) : total ≤ settings.rowsTotal total := by
  rw [rowsTotal]
  split
  next => exact le_rfl
  next => exact le_max_left _ _

theorem le_bucketTotal (total : ℕ) : total ≤ settings.bucketTotal total := by
  rw [bucketTotal]
  split
  next => exact le_rfl
  next => exact le_roundUp _ _

theorem le_paddedTotal (lengths : List ℕ) :
    (lengths.map (roundUp settings.alignSize)).sum ≤ settings.paddedTotal lengths :=
  (settings.le_fp8Total _).trans ((settings.le_rowsTotal _).trans (settings.le_bucketTotal _))

theorem cpSize_dvd_sum (lengths : List ℕ) :
    settings.cpSize ∣ (lengths.map (roundUp settings.alignSize)).sum := by
  apply List.dvd_sum
  simp only [List.mem_map, forall_exists_index, and_imp, forall_apply_eq_imp_iff₂]
  intro length _
  exact settings.cpSize_dvd_alignSize.trans (dvd_roundUp settings.alignSize_pos length)

/-- The buffer is divided evenly among the ranks. -/
theorem cpSize_dvd_paddedTotal (lengths : List ℕ)
    (hbucket : ∀ bucket ∈ settings.padToLengthBucket, 0 < bucket) :
    settings.cpSize ∣ settings.paddedTotal lengths := by
  have hfp8 : settings.cpSize ∣
      settings.fp8Total (lengths.map (roundUp settings.alignSize)).sum := by
    rw [fp8Total]
    split
    next => exact settings.cpSize_dvd_totalAlign.trans (dvd_roundUp settings.totalAlign_pos _)
    next => exact settings.cpSize_dvd_sum lengths
  have hrows : settings.cpSize ∣ settings.rowsTotal
      (settings.fp8Total (lengths.map (roundUp settings.alignSize)).sum) := by
    rw [rowsTotal]
    split
    next => exact hfp8
    next minLocalRows _ =>
      rcases max_choice (settings.fp8Total (lengths.map (roundUp settings.alignSize)).sum)
        (settings.cpSize * minLocalRows) with hmax | hmax
      · rw [hmax]
        exact hfp8
      · rw [hmax]
        exact Nat.dvd_mul_right _ _
  rw [paddedTotal, bucketTotal]
  split
  next => exact hrows
  next bucket hsome =>
    exact (settings.cpSize_dvd_totalAlignment bucket).trans
      (dvd_roundUp (settings.totalAlignment_pos (hbucket bucket hsome)) _)

theorem padFp8_upTo {initial : List ℕ} {total : ℕ} (htotal : initial.sum ≤ total) :
    settings.padFp8 (PackedLengths.upTo initial total) =
      PackedLengths.upTo initial (settings.fp8Total total) := by
  rw [padFp8, fp8Total]
  split
  next => rw [PackedLengths.grow_upTo htotal, PackedLengths.total_upTo, roundUp]
  next => rfl

theorem padMinLocalRows_upTo {initial : List ℕ} {total : ℕ} (htotal : initial.sum ≤ total) :
    settings.padMinLocalRows (PackedLengths.upTo initial total) =
      PackedLengths.upTo initial (settings.rowsTotal total) := by
  unfold padMinLocalRows rowsTotal
  cases settings.minLocalRows with
  | none => rfl
  | some minLocalRows =>
      simp only [PackedLengths.total_upTo]
      split
      next hlt =>
        rw [PackedLengths.grow_upTo htotal, Nat.add_sub_cancel' hlt.le, max_eq_right hlt.le]
      next hge => rw [max_eq_left (not_lt.mp hge)]

theorem padBucket_upTo {initial : List ℕ} {total : ℕ} (htotal : initial.sum ≤ total)
    (hbucket : ∀ bucket ∈ settings.padToLengthBucket, 0 < bucket) :
    settings.padBucket (PackedLengths.upTo initial total) =
      .ok (PackedLengths.upTo initial (settings.bucketTotal total)) := by
  unfold padBucket bucketTotal
  cases hsome : settings.padToLengthBucket with
  | none => rfl
  | some bucket =>
      simp only
      refine raiseIf_bind_eq_ok.mpr ⟨(hbucket bucket hsome).ne', ?_⟩
      rw [PackedLengths.grow_upTo htotal, PackedLengths.total_upTo]
      rfl

/-- What the padding steps compute. -/
theorem packLengths_eq {lengths : List ℕ} (hlengths : lengths ≠ [])
    (hbucket : ∀ bucket ∈ settings.padToLengthBucket, 0 < bucket) :
    settings.packLengths lengths =
      .ok { seqlensInBatchPadded := settings.paddedLengths lengths
            cuSeqlensPadded := offsets (settings.paddedLengths lengths) } := by
  have hsplit : lengths = lengths.dropLast ++ [lengths.getLast hlengths] :=
    (List.dropLast_append_getLast hlengths).symm
  have hsum : (lengths.dropLast.map (roundUp settings.alignSize)).sum ≤
      (lengths.map (roundUp settings.alignSize)).sum := by
    rw [hsplit, List.dropLast_concat, List.map_append, List.sum_append]
    exact Nat.le_add_right _ _
  have hlengths : PackedLengths.ofLengths settings.alignSize lengths =
      PackedLengths.upTo (lengths.dropLast.map (roundUp settings.alignSize))
        (lengths.map (roundUp settings.alignSize)).sum := by
    rw [hsplit, PackedLengths.ofLengths_append, List.dropLast_concat]
  have hfp8 := hsum.trans (settings.le_fp8Total _)
  have hrows := hfp8.trans (settings.le_rowsTotal _)
  have htotal := hrows.trans (settings.le_bucketTotal _)
  rw [packLengths, hlengths, settings.padFp8_upTo hsum, settings.padMinLocalRows_upTo hfp8,
    settings.padBucket_upTo hrows hbucket]
  refine congrArg _ ?_
  have hcu := PackedLengths.cuSeqlensPadded_upTo htotal
  rw [PackedLengths.upTo] at hcu ⊢
  simp only at hcu
  rw [hcu]
  rfl

end ThdSettings

end OneShotOPD.Mcore
