import Mathlib.Analysis.SpecialFunctions.Log.Basic
import Mathlib.Algebra.BigOperators.Group.List.Basic
import Mathlib.Algebra.Order.BigOperators.Group.List

/-!
# Reals with infinities and an undefined value

The values of exact tensor arithmetic: a real, one of the infinities, or the
undefined result of an expression such as `∞ - ∞`.
-/

namespace OneShotOPD

inductive ExtReal where
  | finite (value : ℝ)
  | posInf
  | negInf
  | nan

namespace ExtReal

def neg : ExtReal → ExtReal
  | finite value => finite (-value)
  | posInf => negInf
  | negInf => posInf
  | nan => nan

noncomputable def add : ExtReal → ExtReal → ExtReal
  | finite left, finite right => finite (left + right)
  | nan, _ => nan
  | _, nan => nan
  | posInf, negInf => nan
  | negInf, posInf => nan
  | posInf, _ => posInf
  | _, posInf => posInf
  | negInf, _ => negInf
  | _, negInf => negInf

noncomputable def sub (left right : ExtReal) : ExtReal := left.add right.neg

/-- The product of an infinity with a real. -/
noncomputable def scaleInf (infinity : ExtReal) (factor : ℝ) : ExtReal :=
  if factor = 0 then nan else if 0 < factor then infinity else infinity.neg

noncomputable def mul : ExtReal → ExtReal → ExtReal
  | finite left, finite right => finite (left * right)
  | nan, _ => nan
  | _, nan => nan
  | finite left, infinity => scaleInf infinity left
  | infinity, finite right => scaleInf infinity right
  | posInf, infinity => infinity
  | negInf, infinity => infinity.neg

noncomputable def exp : ExtReal → ExtReal
  | finite value => finite (Real.exp value)
  | posInf => posInf
  | negInf => finite 0
  | nan => nan

noncomputable def log : ExtReal → ExtReal
  | finite value =>
      if value = 0 then negInf else if 0 < value then finite (Real.log value) else nan
  | posInf => posInf
  | negInf => nan
  | nan => nan

noncomputable def max : ExtReal → ExtReal → ExtReal
  | nan, _ => nan
  | _, nan => nan
  | negInf, other => other
  | other, negInf => other
  | posInf, _ => posInf
  | _, posInf => posInf
  | finite left, finite right => finite (Max.max left right)

/-- The reciprocal of a number, where a division by zero has been excluded. -/
noncomputable def reciprocal : ExtReal → ExtReal
  | finite value => finite (1 / value)
  | posInf => finite 0
  | negInf => finite 0
  | nan => nan

/-- `left <= right`, which no undefined value satisfies. -/
def Le : ExtReal → ExtReal → Prop
  | nan, _ => False
  | _, nan => False
  | negInf, _ => True
  | _, posInf => True
  | finite left, finite right => left ≤ right
  | _, _ => False

/-- `left < right`. -/
def Lt (left right : ExtReal) : Prop := left.Le right ∧ ¬ right.Le left

noncomputable instance : DecidableEq ExtReal := Classical.decEq _

noncomputable instance (left right : ExtReal) : Decidable (left.Le right) := Classical.dec _

noncomputable instance (left right : ExtReal) : Decidable (left.Lt right) := Classical.dec _

/-- `torch.logsumexp` along an axis. -/
noncomputable def logSumExp (values : List ExtReal) : ExtReal :=
  log ((values.map exp).foldr add (finite 0))

/-- `torch.nan_to_num(value, nan=0.0, posinf=0.0, neginf=0.0)`. -/
def nanToNum : ExtReal → ExtReal
  | finite value => finite value
  | _ => finite 0

@[simp]
theorem neg_finite (value : ℝ) : (finite value).neg = finite (-value) := rfl

@[simp]
theorem add_finite (left right : ℝ) :
    (finite left).add (finite right) = finite (left + right) := rfl

@[simp]
theorem sub_finite (left right : ℝ) :
    (finite left).sub (finite right) = finite (left - right) := by
  simp [sub, sub_eq_add_neg]

@[simp]
theorem negInf_sub_finite (value : ℝ) : negInf.sub (finite value) = negInf := rfl

@[simp]
theorem negInf_sub_negInf : negInf.sub negInf = nan := rfl

@[simp]
theorem mul_finite (left right : ℝ) :
    (finite left).mul (finite right) = finite (left * right) := rfl

@[simp]
theorem exp_finite (value : ℝ) : (finite value).exp = finite (Real.exp value) := rfl

@[simp]
theorem exp_negInf : negInf.exp = finite 0 := rfl

@[simp]
theorem exp_nan : nan.exp = nan := rfl

@[simp]
theorem nanToNum_finite (value : ℝ) : (finite value).nanToNum = finite value := rfl

@[simp]
theorem nanToNum_nan : nan.nanToNum = finite 0 := rfl

@[simp]
theorem max_negInf (value : ExtReal) : value.max negInf = value := by
  cases value <;> rfl

@[simp]
theorem negInf_max (value : ExtReal) : negInf.max value = value := by
  cases value <;> rfl

@[simp]
theorem finite_le_finite (left right : ℝ) : (finite left).Le (finite right) ↔ left ≤ right :=
  Iff.rfl

theorem not_le_nan (value : ExtReal) : ¬ value.Le nan := by
  cases value <;> exact id

theorem log_finite {value : ℝ} (hvalue : 0 < value) :
    (finite value).log = finite (Real.log value) := by
  rw [log, if_neg hvalue.ne', if_pos hvalue]

/-- A maximum is bounded when both numbers are. -/
theorem max_le_iff {left right bound : ExtReal} (hleft : left ≠ nan) (hright : right ≠ nan) :
    (left.max right).Le bound ↔ left.Le bound ∧ right.Le bound := by
  cases left <;> cases right <;> cases bound <;> simp_all [max, Le]

theorem max_ne_nan {left right : ExtReal} (hleft : left ≠ nan) (hright : right ≠ nan) :
    left.max right ≠ nan := by
  cases left <;> cases right <;> simp_all [max]

theorem negInf_le {value : ExtReal} (hvalue : value ≠ nan) : negInf.Le value := by
  cases value <;> simp_all [Le]

/-- A fold of maxima is bounded when every element is. -/
theorem foldr_max_le_iff {items : List ExtReal} {bound : ExtReal}
    (hitems : ∀ item ∈ items, item ≠ nan) :
    (items.foldr max negInf).Le bound ↔ bound ≠ nan ∧ ∀ item ∈ items, item.Le bound := by
  have hdefined : items.foldr max negInf ≠ nan ∧
      ((items.foldr max negInf).Le bound ↔ bound ≠ nan ∧ ∀ item ∈ items, item.Le bound) := by
    induction items with
    | nil =>
        refine ⟨by simp, ?_⟩
        cases bound <;> simp [Le]
    | cons item items ih =>
        obtain ⟨hitem, hrest⟩ := List.forall_mem_cons.mp hitems
        obtain ⟨hfold, hiff⟩ := ih hrest
        refine ⟨max_ne_nan hitem hfold, ?_⟩
        rw [List.foldr_cons, max_le_iff hitem hfold, hiff, List.forall_mem_cons]
        tauto
  exact hdefined.2

variable {ι : Type}

/-- The exponentials of a list that holds no `nan` and no positive infinity add
up as reals. -/
theorem foldr_add_finite (items : List ι) {f : ι → ExtReal} {e : ι → ℝ}
    (hf : ∀ item ∈ items, f item = finite (e item)) :
    (items.map f).foldr add (finite 0) = finite (items.map e).sum := by
  induction items with
  | nil => rfl
  | cons item items ih =>
      have hrest := ih fun other hother => hf other (by simp [hother])
      simp [hrest, hf item]

/-- `logits.logsumexp()` of real logits. -/
theorem logSumExp_finite {items : List ι} (hitems : items ≠ []) (l : ι → ℝ) :
    logSumExp (items.map fun item => finite (l item)) =
      finite (Real.log (items.map fun item => Real.exp (l item)).sum) := by
  have hsum : 0 < (items.map fun item => Real.exp (l item)).sum := by
    apply List.sum_pos
    · intro value hvalue
      obtain ⟨item, _, rfl⟩ := List.mem_map.mp hvalue
      exact Real.exp_pos _
    · simpa using hitems
  have hadd : ((items.map fun item => finite (l item)).map exp).foldr add (finite 0) =
      finite (items.map fun item => Real.exp (l item)).sum := by
    rw [List.map_map]
    exact foldr_add_finite items fun _ _ => rfl
  rw [logSumExp, hadd]
  simp [log, hsum, hsum.ne']

/-! ## Masked weights -/

section Masked

variable (items : List ι) (valid : ι → Bool) (f : ι → ExtReal)

/-- `torch.where(valid, f, -inf)`. -/
def maskOut (item : ι) : ExtReal := if valid item then f item else negInf

variable {items valid f} {l : ι → ℝ}
  (hf : ∀ item ∈ items, valid item → f item = finite (l item))

/-- The mass of the valid items. -/
noncomputable def mass (items : List ι) (valid : ι → Bool) (l : ι → ℝ) : ℝ :=
  (items.map fun item => if valid item then Real.exp (l item) else 0).sum

theorem mass_nonneg : 0 ≤ mass items valid l := by
  apply List.sum_nonneg
  intro value hvalue
  obtain ⟨item, _, rfl⟩ := List.mem_map.mp hvalue
  split
  · exact (Real.exp_pos _).le
  · exact le_rfl

theorem mass_pos {item : ι} (hitem : item ∈ items) (hvalid : valid item) :
    0 < mass items valid l := by
  unfold mass
  apply lt_of_lt_of_le (Real.exp_pos (l item))
  have hterm : Real.exp (l item) ∈ items.map fun other =>
      if valid other then Real.exp (l other) else 0 :=
    List.mem_map.mpr ⟨item, hitem, by simp [hvalid]⟩
  apply List.single_le_sum _ _ hterm
  intro value hvalue
  obtain ⟨other, _, rfl⟩ := List.mem_map.mp hvalue
  split
  · exact (Real.exp_pos _).le
  · exact le_rfl

include hf in
theorem exp_maskOut {item : ι} (hitem : item ∈ items) :
    (maskOut valid f item).exp =
      finite (if valid item then Real.exp (l item) else 0) := by
  by_cases hvalid : valid item
  · simp [maskOut, hvalid, hf item hitem hvalid]
  · simp [maskOut, hvalid]

include hf in
theorem logSumExp_maskOut :
    logSumExp (items.map (maskOut valid f)) =
      if mass items valid l = 0 then negInf
      else finite (Real.log (mass items valid l)) := by
  have hsum : ((items.map (maskOut valid f)).map exp).foldr add (finite 0) =
      finite (mass items valid l) := by
    rw [List.map_map]
    exact foldr_add_finite items fun item hitem => exp_maskOut hf hitem
  rw [logSumExp, hsum]
  by_cases hmass : mass items valid l = 0
  · simp [log, hmass]
  · have hpos : 0 < mass items valid l := lt_of_le_of_ne mass_nonneg (Ne.symm hmass)
    simp [log, hmass, hpos]

include hf in
/-- The normalised weight of an item is its share of the valid mass, and zero
when it is not valid. -/
theorem normalized_maskOut {item : ι} (hitem : item ∈ items) :
    ((maskOut valid f item).sub
        (logSumExp (items.map (maskOut valid f)))).exp.nanToNum =
      finite (if valid item then Real.exp (l item) / mass items valid l else 0) := by
  rw [logSumExp_maskOut hf]
  by_cases hvalid : valid item
  · have hpos : 0 < mass items valid l := mass_pos hitem hvalid
    simp [maskOut, hvalid, hf item hitem hvalid, hpos.ne', Real.exp_sub,
      Real.exp_log hpos]
  · by_cases hmass : mass items valid l = 0
    · simp [maskOut, hvalid, hmass]
    · simp [maskOut, hvalid, hmass]

/-- The shares of the valid mass add up to one. -/
theorem sum_share_mass {item : ι} (hitem : item ∈ items) (hvalid : valid item) :
    (items.map fun item =>
      if valid item then Real.exp (l item) / mass items valid l else 0).sum = 1 := by
  have hpos : 0 < mass items valid l := mass_pos hitem hvalid
  calc
    (items.map fun item =>
        if valid item then Real.exp (l item) / mass items valid l else 0).sum
      = (items.map fun item =>
          (if valid item then Real.exp (l item) else 0) / mass items valid l).sum := by
        simp only [ite_div, zero_div]
    _ = mass items valid l / mass items valid l := by
        simp only [div_eq_mul_inv, List.sum_map_mul_right, mass]
    _ = 1 := div_self hpos.ne'

include hf in
theorem unnormalized_maskOut {item : ι} (hitem : item ∈ items) :
    (maskOut valid f item).exp.nanToNum =
      finite (if valid item then Real.exp (l item) else 0) := by
  rw [exp_maskOut hf hitem, nanToNum_finite]

end Masked

end ExtReal

end OneShotOPD
