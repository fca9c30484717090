import OneShotOPD.Core.Checks
import Mathlib.Algebra.BigOperators.Fin
import Mathlib.Algebra.BigOperators.Group.List.Lemmas
import Mathlib.Algebra.Order.Field.Basic
import Mathlib.Algebra.Order.Ring.Rat
import Mathlib.Tactic.FieldSimp
import Mathlib.Tactic.Ring

/-!
# Loss aggregation

The losses of a batch are aggregated in one of several ways.  A batch that is split
over ranks, and on each rank into micro batches, is normalised by counts of the whole
batch, so that the mean over the ranks is the loss of the whole batch.
-/

namespace OneShotOPD.CoreAlgos

variable {K : Type} [Field K] [LinearOrder K] {T : ℕ}

/-- A row of `loss_mat` and of `loss_mask`. -/
structure LossRow (K : Type) (T : ℕ) where
  loss : Fin T → K
  mask : Fin T → K

inductive LossAggMode where
  | tokenMean
  | tokenSum
  | seqMeanTokenSum
  | seqMeanTokenSumNorm
  | seqMeanTokenMean
  deriving DecidableEq

inductive AggLossError where
  /-- "(global) batch_num_tokens is required when dp_size > 1" -/
  | batchNumTokensRequired
  /-- "global_batch_size is required when dp_size > 1" -/
  | globalBatchSizeRequired
  deriving DecidableEq

/-- A summand of `masked_sum`. -/
def masked (value mask : K) : K := (if mask = 0 then 0 else value) * mask

namespace LossRow

variable (row : LossRow K T)

def tokens : K := ∑ position, row.mask position

/-- `masked_sum` over the row. -/
def maskedSum : K := ∑ position, masked (row.loss position) (row.mask position)

/-- `torch.sum(loss_mat * loss_mask, dim=-1)`. -/
def tokenSum : K := ∑ position, row.loss position * row.mask position

/-- Fully masked sequences are excluded. -/
def seqMask : K := if 0 < row.tokens then 1 else 0

def tokenMean : K := row.tokenSum / (row.tokens + 1 / 10 ^ 8)

end LossRow

/-- A count that is given, or else counted by the call itself. -/
def countOr (given : Option K) (dpSize : ℕ) (error : AggLossError) (own : K) :
    Except AggLossError K :=
  match given with
  | some count => .ok count
  | none => if 1 < dpSize then .error error else .ok own

def batchTokens (rows : List (LossRow K T)) : K := (rows.map LossRow.tokens).sum

/-- The number of sequences that are not fully masked. -/
def batchSequences (rows : List (LossRow K T)) : K := (rows.map LossRow.seqMask).sum

def aggLoss (rows : List (LossRow K T)) (lossAggMode : LossAggMode) (dpSize : ℕ)
    (batchNumTokens globalBatchSize lossScaleFactor : Option K) : Except AggLossError K :=
  let seqMean (seqLoss : LossRow K T → K) : Except AggLossError K := do
    let size ← countOr globalBatchSize dpSize .globalBatchSizeRequired (batchSequences rows)
    return (rows.map fun row => masked (seqLoss row) row.seqMask).sum / size * dpSize
  match lossAggMode with
  | .tokenMean => do
      let tokens ← countOr batchNumTokens dpSize .batchNumTokensRequired (batchTokens rows)
      return (rows.map LossRow.maskedSum).sum / tokens * dpSize
  | .tokenSum => return (rows.map LossRow.maskedSum).sum * dpSize
  | .seqMeanTokenSum => seqMean LossRow.tokenSum
  | .seqMeanTokenSumNorm => do
      let loss ← seqMean LossRow.tokenSum
      return loss / lossScaleFactor.getD T
  | .seqMeanTokenMean => seqMean LossRow.tokenMean

/-- The mean over the ranks of the summed losses of their micro batches. -/
def parallelLoss (ranks : List (List (List (LossRow K T)))) (lossAggMode : LossAggMode)
    (batchNumTokens globalBatchSize : K) (lossScaleFactor : Option K) :
    Except AggLossError K := do
  let sums ← ranks.mapM fun microBatches => do
    let losses ← microBatches.mapM fun rows => aggLoss rows lossAggMode ranks.length
      (some batchNumTokens) (some globalBatchSize) lossScaleFactor
    return losses.sum
  return sums.sum / ranks.length

omit [Field K] [LinearOrder K] in
theorem countOr_eq_error_iff (given : Option K) (dpSize : ℕ) (error : AggLossError) (own : K) :
    (∃ raised, countOr given dpSize error own = .error raised) ↔ 1 < dpSize ∧ given = none := by
  cases given with
  | some count => simp [countOr]
  | none =>
      by_cases hsize : 1 < dpSize
      · simp [countOr, hsize]
      · simp [countOr, hsize]

/-- Positive counts stay positive. -/
theorem pos_of_countOr {given : Option K} {dpSize : ℕ} {error : AggLossError} {own count : K}
    (hgiven : ∀ value ∈ given, 0 < value) (hown : 0 < own)
    (hcount : countOr given dpSize error own = .ok count) : 0 < count := by
  unfold countOr at hcount
  split at hcount
  next value =>
    cases hcount
    exact hgiven _ rfl
  next =>
    split at hcount
    · cases hcount
    · cases hcount
      exact hown

/-! ## Given counts -/

/-- What a row adds to the loss, before it is normalised. -/
def LossAggMode.share (lossAggMode : LossAggMode) (row : LossRow K T) : K :=
  match lossAggMode with
  | .tokenMean => row.maskedSum
  | .tokenSum => row.maskedSum
  | .seqMeanTokenSum => masked row.tokenSum row.seqMask
  | .seqMeanTokenSumNorm => masked row.tokenSum row.seqMask
  | .seqMeanTokenMean => masked row.tokenMean row.seqMask

/-- What the loss is divided by. -/
def LossAggMode.divisor (lossAggMode : LossAggMode) (width : ℕ)
    (batchNumTokens globalBatchSize : K) (lossScaleFactor : Option K) : K :=
  match lossAggMode with
  | .tokenMean => batchNumTokens
  | .tokenSum => 1
  | .seqMeanTokenSum => globalBatchSize
  | .seqMeanTokenSumNorm => globalBatchSize * lossScaleFactor.getD width
  | .seqMeanTokenMean => globalBatchSize

variable (lossAggMode : LossAggMode) (batchNumTokens globalBatchSize : K)
  (lossScaleFactor : Option K)

/-- With given counts the loss is additive in the rows. -/
theorem aggLoss_given (rows : List (LossRow K T)) (dpSize : ℕ) :
    aggLoss rows lossAggMode dpSize (some batchNumTokens) (some globalBatchSize)
        lossScaleFactor =
      .ok ((rows.map lossAggMode.share).sum * dpSize /
        lossAggMode.divisor T batchNumTokens globalBatchSize lossScaleFactor) := by
  cases lossAggMode with
  | tokenMean => exact congrArg Except.ok (div_mul_eq_mul_div _ _ _)
  | tokenSum => exact congrArg Except.ok (div_one _).symm
  | seqMeanTokenSum => exact congrArg Except.ok (div_mul_eq_mul_div _ _ _)
  | seqMeanTokenSumNorm =>
      refine congrArg Except.ok ?_
      rw [div_mul_eq_mul_div, div_div]
      rfl
  | seqMeanTokenMean => exact congrArg Except.ok (div_mul_eq_mul_div _ _ _)

/-- One call counts what its batch has. -/
theorem aggLoss_own (rows : List (LossRow K T)) :
    aggLoss rows lossAggMode 1 none none lossScaleFactor =
      aggLoss rows lossAggMode 1 (some (batchTokens rows)) (some (batchSequences rows))
        lossScaleFactor := by
  cases lossAggMode <;> rfl

/-- What one call divides by.  A count that is not given is its own. -/
def aggDivisor (rows : List (LossRow K T)) (lossAggMode : LossAggMode) (dpSize : ℕ)
    (batchNumTokens globalBatchSize lossScaleFactor : Option K) : Except AggLossError K :=
  match lossAggMode with
  | .tokenMean => countOr batchNumTokens dpSize .batchNumTokensRequired (batchTokens rows)
  | .tokenSum => .ok 1
  | .seqMeanTokenSum | .seqMeanTokenMean =>
      countOr globalBatchSize dpSize .globalBatchSizeRequired (batchSequences rows)
  | .seqMeanTokenSumNorm =>
      (countOr globalBatchSize dpSize .globalBatchSizeRequired (batchSequences rows)).map
        (· * lossScaleFactor.getD T)

/-- Given counts or not, the losses enter through their shares alone. -/
theorem aggLoss_eq_map_divisor (rows : List (LossRow K T)) (dpSize : ℕ)
    (batchNumTokens globalBatchSize : Option K) :
    aggLoss rows lossAggMode dpSize batchNumTokens globalBatchSize lossScaleFactor =
      (aggDivisor rows lossAggMode dpSize batchNumTokens globalBatchSize
        lossScaleFactor).map fun divisor =>
          (rows.map lossAggMode.share).sum * dpSize / divisor := by
  cases lossAggMode with
  | tokenSum => exact congrArg Except.ok (div_one _).symm
  | tokenMean =>
      unfold aggLoss aggDivisor
      cases countOr batchNumTokens dpSize .batchNumTokensRequired (batchTokens rows) with
      | error error => rfl
      | ok tokens => exact congrArg Except.ok (div_mul_eq_mul_div _ _ _)
  | seqMeanTokenSum | seqMeanTokenMean =>
      unfold aggLoss aggDivisor
      cases countOr globalBatchSize dpSize .globalBatchSizeRequired (batchSequences rows) with
      | error error => rfl
      | ok size => exact congrArg Except.ok (div_mul_eq_mul_div _ _ _)
  | seqMeanTokenSumNorm =>
      unfold aggLoss aggDivisor
      cases countOr globalBatchSize dpSize .globalBatchSizeRequired (batchSequences rows) with
      | error error => rfl
      | ok size =>
          refine congrArg Except.ok ?_
          rw [div_mul_eq_mul_div, div_div]
          rfl

omit [Field K] [LinearOrder K] in
/-- Every row is in one micro batch of one rank. -/
theorem sum_share_partition {M : Type} [AddCommMonoid M] (share : LossRow K T → M)
    {ranks : List (List (List (LossRow K T)))} {batch : List (LossRow K T)}
    (hperm : ranks.flatten.flatten.Perm batch) :
    (ranks.map fun microBatches => (microBatches.map fun rows =>
      (rows.map share).sum).sum).sum = (batch.map share).sum := by
  rw [← (hperm.map share).sum_eq, List.map_flatten, List.sum_flatten, List.map_map,
    List.map_flatten, List.sum_flatten, List.map_map]
  rfl

theorem parallelLoss_eq (ranks : List (List (List (LossRow K T)))) :
    parallelLoss ranks lossAggMode batchNumTokens globalBatchSize lossScaleFactor =
      .ok ((ranks.map fun microBatches => (microBatches.map fun rows =>
        (rows.map lossAggMode.share).sum * ranks.length /
          lossAggMode.divisor T batchNumTokens globalBatchSize lossScaleFactor).sum).sum /
            ranks.length) := by
  have hok : ∀ {α β : Type} (items : List α) (f : α → β),
      items.mapM (fun item => (.ok (f item) : Except AggLossError β)) = .ok (items.map f) :=
    fun _ _ => List.mapM_pure
  have hrank : ∀ microBatches : List (List (LossRow K T)),
      (do
        let losses ← microBatches.mapM fun rows => aggLoss rows lossAggMode ranks.length
          (some batchNumTokens) (some globalBatchSize) lossScaleFactor
        return losses.sum) = (.ok (microBatches.map fun rows =>
          (rows.map lossAggMode.share).sum * ranks.length /
            lossAggMode.divisor T batchNumTokens globalBatchSize lossScaleFactor).sum :
              Except AggLossError K) := fun microBatches => by
    simp only [aggLoss_given, hok]
    rfl
  simp only [parallelLoss, hrank, hok]
  rfl

variable [IsStrictOrderedRing K]

/-- However the rows are split, the mean over the ranks is the loss of one call with
the same counts. -/
theorem parallelLoss_eq_aggLoss {ranks : List (List (List (LossRow K T)))}
    {batch : List (LossRow K T)} (hranks : ranks ≠ [])
    (hperm : ranks.flatten.flatten.Perm batch) :
    parallelLoss ranks lossAggMode batchNumTokens globalBatchSize lossScaleFactor =
      aggLoss batch lossAggMode 1 (some batchNumTokens) (some globalBatchSize)
        lossScaleFactor := by
  have hlength : (ranks.length : K) ≠ 0 := by
    exact_mod_cast (List.length_pos_iff.mpr hranks).ne'
  rw [parallelLoss_eq, aggLoss_given]
  congr 1
  simp only [mul_div_assoc, List.sum_map_mul_right, sum_share_partition _ hperm]
  push_cast
  field_simp

/-- The mean over the ranks is the loss of one call that is given the same batch size,
and with the number of sequences that are not fully masked as batch size it is the
loss of one call that counts by itself.  This is the number of all sequences when none
is fully masked. -/
theorem aggLoss_parallel_invariant {ranks : List (List (List (LossRow K T)))}
    {batch : List (LossRow K T)} (hranks : ranks ≠ [])
    (hperm : ranks.flatten.flatten.Perm batch) :
    (∀ globalBatchSize, parallelLoss ranks lossAggMode (batchTokens batch) globalBatchSize
        lossScaleFactor =
      aggLoss batch lossAggMode 1 (some (batchTokens batch)) (some globalBatchSize)
        lossScaleFactor) ∧
    parallelLoss ranks lossAggMode (batchTokens batch) (batchSequences batch) lossScaleFactor =
      aggLoss batch lossAggMode 1 none none lossScaleFactor ∧
    ((∀ row ∈ batch, 0 < row.tokens) → batchSequences batch = batch.length) := by
  refine ⟨fun globalBatchSize => parallelLoss_eq_aggLoss _ _ _ _ hranks hperm, ?_, ?_⟩
  · rw [aggLoss_own]
    exact parallelLoss_eq_aggLoss _ _ _ _ hranks hperm
  · intro hvalid
    have hones : batch.map LossRow.seqMask = batch.map fun _ => (1 : K) :=
      List.map_congr_left fun row hrow => if_pos (hvalid row hrow)
    rw [batchSequences, hones]
    simp

/-! ## A fully masked sequence -/

/-- A sequence with one token of loss one. -/
def oneTokenRow (mask : ℚ) : LossRow ℚ 1 := ⟨fun _ => 1, fun _ => mask⟩

theorem twoRanks_parallel_invariant :
    parallelLoss [[[oneTokenRow 1], [oneTokenRow 0]], []] .seqMeanTokenSum
        (batchTokens [oneTokenRow 0, oneTokenRow 1])
        (batchSequences [oneTokenRow 0, oneTokenRow 1]) none =
      aggLoss [oneTokenRow 0, oneTokenRow 1] .seqMeanTokenSum 1 none none none := by
  have hperm : [[[oneTokenRow 1], [oneTokenRow 0]], []].flatten.flatten.Perm
      [oneTokenRow 0, oneTokenRow 1] := List.Perm.swap _ _ []
  exact (aggLoss_parallel_invariant .seqMeanTokenSum none (List.cons_ne_nil _ _) hperm).2.1

/-- With the number of all sequences as batch size the masked one counts. -/
theorem maskedSequence_counts :
    parallelLoss [[[oneTokenRow 1, oneTokenRow 0]]] .seqMeanTokenSum 1 2 none ≠
      aggLoss [oneTokenRow 1, oneTokenRow 0] .seqMeanTokenSum 1 none none none := by
  rw [parallelLoss_eq, aggLoss_own, aggLoss_given]
  simp [LossAggMode.share, LossAggMode.divisor, batchSequences, masked, LossRow.tokenSum,
    LossRow.seqMask, LossRow.tokens, oneTokenRow]

end OneShotOPD.CoreAlgos
