import OneShotOPD.Algos.Grpo
import OneShotOPD.Core.Unique
import OneShotOPD.Core.Literals
import Mathlib

/-!
# Group labels and group statistics

`as_torch_index` turns the labels of the rows into integers, by one of several
coercions, and `group_mean_std` adds the scores of the rows with one integer.
Floats hold exact reals.
-/

namespace OneShotOPD.CoreAlgos

open SampleStats

variable {B T : ℕ}

/-! ## Labels -/

/-- An entry of an object array, or of a string array. -/
inductive PyLabel where
  | integer (value : ℤ)
  | float (value : ℝ)
  | text (value : String)
  | uuid (value : ℕ)

/-- What a dictionary compares: an integer is equal to a float. -/
abbrev LabelKey := Lex (ℝ ⊕ Lex (String ⊕ ℕ))

noncomputable def PyLabel.key : PyLabel → LabelKey
  | .integer value => toLex (.inl value)
  | .float value => toLex (.inl value)
  | .text value => toLex (.inr (toLex (.inl value)))
  | .uuid value => toLex (.inr (toLex (.inr value)))

/-- `int(text)`, unless it raises, and `str(label)`. -/
structure PyText where
  int : String → Option ℤ
  str : PyLabel → String

/-- An array of labels, by its `dtype`. -/
inductive LabelArray (B : ℕ) where
  | integers (labels : Fin B → ℤ)
  | floats (labels : Fin B → ℝ)
  | objects (labels : Fin B → PyLabel)

/-- How the entries of the array compare as keys of a dictionary. -/
noncomputable def LabelArray.key : LabelArray B → Fin B → LabelKey
  | .integers labels => fun row => (PyLabel.integer (labels row)).key
  | .floats labels => fun row => (PyLabel.float (labels row)).key
  | .objects labels => fun row => (labels row).key

/-! ## `as_torch_index` -/

/-- An integer that fits into 64 bits. -/
def int64? (value : ℤ) : Option ℤ :=
  if -2 ^ 63 ≤ value ∧ value < 2 ^ 63 then some value else none

/-- Rounding towards zero. -/
noncomputable def truncate (value : ℝ) : ℤ := if 0 ≤ value then ⌊value⌋ else ⌈value⌉

/-- `astype(np.int64)` of a float array. -/
def castInt64 (value : ℤ) : ℤ := (int64? value).getD (-2 ^ 63)

/-- `astype(np.int64)` of an object. -/
noncomputable def PyLabel.toInt64? (text : PyText) : PyLabel → Option ℤ
  | .integer value => int64? value
  | .float value => int64? (truncate value)
  | .text value => (text.int value).bind int64?
  | .uuid value => int64? value

/-- The order compares numbers, texts and uuids only among themselves. -/
def PyLabel.Comparable : PyLabel → PyLabel → Prop
  | .text _, .text _ => True
  | .uuid _, .uuid _ => True
  | .text _, _ => False
  | .uuid _, _ => False
  | _, .text _ => False
  | _, .uuid _ => False
  | _, _ => True

attribute [local instance] Literals.atLeastTwo_ten in
/-- `np.allclose(arr, np.rint(arr), rtol=0.0, atol=1e-6)`. -/
def NearInteger (labels : Fin B → ℝ) : Prop :=
  ∀ row, |labels row - round (labels row)| ≤ 1 / 10 ^ 6

open Classical in
noncomputable def asTorchIndex (text : PyText) : LabelArray B → Fin B → ℤ
  | .integers labels => fun row => (labels row).bmod (2 ^ 64)
  | .floats labels =>
      if NearInteger labels then fun row => castInt64 (round (labels row))
      else fun row => castInt64 (truncate (labels row))
  | .objects labels =>
      if ∀ row, ((labels row).toInt64? text).isSome then
        fun row => ((labels row).toInt64? text).getD 0
      else if ∀ row other, (labels row).Comparable (labels other) then
        fun row => uniqueInverse (fun row => (labels row).key) row
      else fun row => uniqueInverse (fun row => text.str (labels row)) row

/-! ## `group_mean_std` -/

/-- `torch.zeros(G).index_add_(0, gidx, values)`. -/
def indexAdd (gidx : Fin B → ℤ) (values : Fin B → ℝ) (bin : ℤ) : ℝ :=
  ((groupRows gidx bin).map values).sum

noncomputable def groupCount (gidx : Fin B → ℤ) : ℤ → ℝ := indexAdd gidx fun _ => 1

noncomputable def groupMean (gidx : Fin B → ℤ) (scores : Fin B → ℝ) (bin : ℤ) : ℝ :=
  indexAdd gidx scores bin / max (groupCount gidx bin) 1

noncomputable def groupStd (gidx : Fin B → ℤ) (scores : Fin B → ℝ) (eps : ℝ) (bin : ℤ) : ℝ :=
  let centered := fun row => scores row - groupMean gidx scores (gidx row)
  let varNum := indexAdd gidx (fun row => centered row * centered row) bin
  Real.sqrt (max (varNum / max (groupCount gidx bin - 1) 1) eps)

/-- `mean` and `std`, tensors of `size` entries. -/
structure GroupStats where
  size : ℤ
  mean : ℤ → ℝ
  std : ℤ → ℝ

open Classical in
/-- Negative indices raise, unless there is no group. -/
noncomputable def groupMeanStd (scores : Fin B → ℝ) (gidx : Fin B → ℤ) (eps : ℝ) :
    Option GroupStats :=
  let size := ((List.ofFn gidx).max?.map fun largest => largest + 1).getD 0
  let single := fun bin => groupCount gidx bin ≤ 1
  if size ≠ 0 ∧ ∃ row, gidx row < 0 then none
  else some {
    size
    mean := fun bin => if single bin then 0 else groupMean gidx scores bin
    std := fun bin => if single bin then 1 else groupStd gidx scores eps bin }

open Classical in
/-- `compute_grpo_vectorized_outcome_advantage`: advantages and returns. -/
noncomputable def computeGrpoVectorizedOutcomeAdvantage (text : PyText)
    (tokenLevelRewards responseMask : Grid B T) (index : LabelArray B) (epsilon : ℝ)
    (normAdvByStdInGrpo : Bool) : Option (Grid B T × Grid B T) := do
  let scores := outcomes tokenLevelRewards
  let g := asTorchIndex text index
  let stats ← groupMeanStd scores g 0
  -- indexing the tensors with `g`
  if ∀ row, -stats.size ≤ g row ∧ g row < stats.size then
    let scalars := fun row =>
      if normAdvByStdInGrpo then
        (scores row - stats.mean (g row)) / (stats.std (g row) + epsilon)
      else scores row - stats.mean (g row)
    let advantages := fun row position => scalars row * responseMask row position
    return (advantages, advantages)
  else none

end OneShotOPD.CoreAlgos
