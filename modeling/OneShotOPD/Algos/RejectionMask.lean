import OneShotOPD.Algos.PolicyLoss
import OneShotOPD.Algos.RejectionThresholds
import OneShotOPD.Core.Literals
import Mathlib

/-!
# The rejection mask

Tokens and sequences whose divergence between the training and the rollout
policy leaves the trust region are cut out of the response mask.  Every option
that is listed has to let a token through.
-/

namespace OneShotOPD.RolloutCorr

open Checks CoreAlgos

variable {B T : ℕ}

/-! ## The statistics of the options -/

/-- `token_k1`, `token_k2` and `token_k3`, of a clamped log ratio. -/
noncomputable def Estimator.stat : Estimator → ℝ → ℝ
  | k1, logRatio => -logRatio
  | k2, logRatio => 1 / 2 * logRatio ^ 2
  | k3, logRatio => Real.exp logRatio - 1 - logRatio

/-- A row of values under its mask. -/
def maskedRow (values : Fin T → ℝ) (mask : Fin T → Bool) : LossRow ℝ T where
  loss := values
  mask position := if mask position then 1 else 0

noncomputable def sequenceSum (values : Fin T → ℝ) (mask : Fin T → Bool) : ℝ :=
  (maskedRow values mask).maskedSum

attribute [local instance] Literals.atLeastTwo_ten in
/-- `masked_mean` along the row. -/
noncomputable def sequenceMean (values : Fin T → ℝ) (mask : Fin T → Bool) : ℝ :=
  sequenceSum values mask / ((maskedRow values mask).tokens + 1 / 10 ^ 8)

/-- `values.masked_fill(~mask, -inf).max(dim=-1).values`. -/
noncomputable def maxValue (values : Fin T → ℝ) (mask : Fin T → Bool) : ExtReal :=
  ((List.finRange T).map fun position =>
    if mask position then .finite (values position) else .negInf).foldr .max .negInf

noncomputable def sequenceMax (values : Fin T → ℝ) (mask : Fin T → Bool) : ExtReal :=
  if maxValue values mask = .negInf then .finite 0 else maxValue values mask

/-- The statistic that an option compares at a position of a row. -/
noncomputable def RsOption.stat (option : RsOption) (logRatio : Fin T → ℝ)
    (mask : Fin T → Bool) (position : Fin T) : ExtReal :=
  let tokenStat : Fin T → ℝ := fun position => option.estimator.stat (logRatio position)
  match option with
  | .token _ => .finite (tokenStat position)
  | .seqSum _ => .finite (sequenceSum tokenStat mask)
  | .seqMean _ => .finite (sequenceMean tokenStat mask)
  | .seqMaxK2 => sequenceMax tokenStat mask
  | .seqMaxK3 => sequenceMax tokenStat mask

/-! ## The mask -/

/-- What a statistic is compared with. -/
structure Limits where
  lower : Option ExtReal
  upper : ExtReal

/-- `lower_log`, `upper_log` of a `k1` option, `upper_value` of the others. -/
noncomputable def limits (option : RsOption) (threshold : Threshold) : Except PyError Limits :=
  match option.estimator, threshold.lower with
  | .k1, some lower => .ok { lower := some lower.log, upper := threshold.upper.log }
  | .k1, none =>
      .error (.valueError ("rollout_rs_threshold for option '" ++ option.name
        ++ "' must specify both lower and upper bounds."))
  | _, _ => .ok { lower := none, upper := threshold.upper }

def Limits.Keep (limits : Limits) (stat : ExtReal) : Prop :=
  (∀ lower ∈ limits.lower, lower.Le stat) ∧ stat.Le limits.upper

open Classical in
noncomputable def tokenKeepMask (option : RsOption) (limits : Limits) (logRatio : Grid B T)
    (mask : ResponseMask B T) : Grid B T :=
  fun row position =>
    if limits.Keep (option.stat (logRatio row) (mask row) position) then 1 else 0

/-- The loop over the options.  The metrics of an option need a valid token. -/
noncomputable def combineOptions (logRatio : Grid B T) (mask : ResponseMask B T) :
    List (RsOption × Threshold) → Grid B T → Except PyError (Grid B T)
  | [], combined => .ok combined
  | (option, threshold) :: entries, combined => do
      let bounds ← limits option threshold
      let keep := tokenKeepMask option bounds logRatio mask
      raiseIf (¬ ∃ row position, mask row position = true)
        (.valueError "response_mask must contain at least one valid token (1).")
      combineOptions logRatio mask entries fun row position =>
        combined row position * keep row position

attribute [local instance] Literals.atLeastTwo_twenty in
/-- `SAFETY_BOUND`. -/
def safetyBound : ℝ := 20

/-- `compute_rollout_rejection_mask` without its metrics.  A `rollout_rs` that is
not a string is `none`. -/
noncomputable def computeRolloutRejectionMask (numbers : NumberText) (logRatio : Grid B T)
    (responseMask : ResponseMask B T) (rolloutRs : Option String)
    (rolloutRsThreshold : Option ThresholdSpec) : Except PyError (Grid B T) := do
  match rolloutRs, rolloutRsThreshold with
  | none, _ =>
      .error (.valueError
        "rollout_rs must be a non-empty string (comma separated for multiple options).")
  | some _, none =>
      .error (.valueError "rollout_rs_threshold must be provided for rejection sampling.")
  | some rolloutRs, some spec =>
      if B = 0 then return responseMask.toGrid
      let options ← parseRolloutRs numbers rolloutRs
      let thresholds ← parseRolloutRsThresholds numbers options spec
      let logRatioSafe : Grid B T := fun row position =>
        clamp (logRatio row position) (-safetyBound) safetyBound
      let combined ← combineOptions logRatioSafe responseMask thresholds fun _ _ => 1
      return fun row position => responseMask.toGrid row position * combined row position

/-- An option with its threshold lets a position through. -/
def Keeps (option : RsOption) (threshold : Threshold) (logRatio : Fin T → ℝ)
    (mask : Fin T → Bool) (position : Fin T) : Prop :=
  ∃ bounds, limits option threshold = .ok bounds ∧
    bounds.Keep (option.stat logRatio mask position)

theorem exists_limits {option : RsOption} {threshold : Threshold}
    (haccepted : threshold.Accepted option) : ∃ bounds, limits option threshold = .ok bounds := by
  rw [limits]
  split
  next => exact ⟨_, rfl⟩
  next hestimator hlower =>
      have hsome := haccepted.lower_iff.mpr hestimator
      simp [hlower] at hsome
  next => exact ⟨_, rfl⟩

open Classical in
/-- The combined mask is one where every option keeps the position. -/
theorem combineOptions_eq {logRatio : Grid B T} {mask : ResponseMask B T}
    (hvalid : ∃ row position, mask row position = true)
    {entries : List (RsOption × Threshold)}
    (haccepted : ∀ entry ∈ entries, entry.2.Accepted entry.1) (combined : Grid B T) :
    combineOptions logRatio mask entries combined = .ok fun row position =>
      combined row position *
        if ∀ entry ∈ entries, Keeps entry.1 entry.2 (logRatio row) (mask row) position
        then 1 else 0 := by
  induction entries generalizing combined with
  | nil => simp [combineOptions]
  | cons entry entries ih =>
      obtain ⟨option, threshold⟩ := entry
      obtain ⟨bounds, hbounds⟩ := exists_limits (haccepted _ List.mem_cons_self)
      rw [combineOptions, hbounds]
      simp only [bind, Except.bind, raiseIf, hvalid, not_true_eq_false, if_false]
      rw [ih fun entry hentry => haccepted entry (List.mem_cons_of_mem _ hentry)]
      congr 1
      funext row position
      have hkeeps : Keeps option threshold (logRatio row) (mask row) position ↔
          bounds.Keep (option.stat (logRatio row) (mask row) position) := by
        simp [Keeps, hbounds]
      simp only [mul_assoc, tokenKeepMask, List.forall_mem_cons, ← hkeeps]
      by_cases hhead : Keeps option threshold (logRatio row) (mask row) position
      · simp only [hhead, true_and, if_true, one_mul]
      · simp only [hhead, false_and, if_false, zero_mul]

/-! ## What the options keep -/

/-- The valid positions of a row. -/
def validPositions (mask : Fin T → Bool) : Finset (Fin T) :=
  Finset.univ.filter fun position => mask position = true

attribute [local instance] Literals.atLeastTwo_ten in
/-- What the mean over the valid positions divides by. -/
noncomputable def meanCount (mask : Fin T → Bool) : ℝ := (validPositions mask).card + 1 / 10 ^ 8

/-- The divergence estimates in terms of the ratio. -/
noncomputable def Estimator.divergence : Estimator → ℝ → ℝ
  | k1, ratio => -Real.log ratio
  | k2, ratio => 1 / 2 * Real.log ratio ^ 2
  | k3, ratio => ratio - 1 - Real.log ratio

/-- The ratio lies between the bounds. -/
def Threshold.Contains (threshold : Threshold) (ratio : ℝ) : Prop :=
  ∃ lower ∈ threshold.lower, lower.Le (.finite ratio) ∧
    (ExtReal.finite ratio).Le threshold.upper

/-- The divergence is at most the bound. -/
def Threshold.Bounds (threshold : Threshold) (divergence : ℝ) : Prop :=
  (ExtReal.finite divergence).Le threshold.upper

/-- The trust region of an option, by the ratios of a row. -/
def Admits (option : RsOption) (threshold : Threshold) (ratio : Fin T → ℝ)
    (mask : Fin T → Bool) (position : Fin T) : Prop :=
  let valid := validPositions mask
  match option with
  | .token .k1 => threshold.Contains (ratio position)
  | .seqSum .k1 => threshold.Contains (∏ position ∈ valid, ratio position)
  | .seqMean .k1 => threshold.Contains ((∏ position ∈ valid, ratio position) ^ (1 / meanCount mask))
  | .token estimator => threshold.Bounds (estimator.divergence (ratio position))
  | .seqSum estimator =>
      threshold.Bounds (∑ position ∈ valid, estimator.divergence (ratio position))
  | .seqMean estimator =>
      threshold.Bounds
        ((∑ position ∈ valid, estimator.divergence (ratio position)) / meanCount mask)
  | .seqMaxK2 => ∀ position ∈ valid, threshold.Bounds (Estimator.k2.divergence (ratio position))
  | .seqMaxK3 => ∀ position ∈ valid, threshold.Bounds (Estimator.k3.divergence (ratio position))

/-- The lower bound is the reciprocal of the upper one. -/
def Threshold.Reciprocal (threshold : Threshold) : Prop :=
  ∃ lower upper : ℝ, threshold.lower = some (.finite lower) ∧ threshold.upper = .finite upper ∧
    lower * upper = 1

theorem mem_validPositions {mask : Fin T → Bool} {position : Fin T} :
    position ∈ validPositions mask ↔ mask position = true := by
  simp [validPositions]

theorem sequenceSum_eq (values : Fin T → ℝ) (mask : Fin T → Bool) :
    sequenceSum values mask = ∑ position ∈ validPositions mask, values position := by
  rw [sequenceSum, LossRow.maskedSum, validPositions, Finset.sum_filter]
  refine Finset.sum_congr rfl fun position _ => ?_
  by_cases hvalid : mask position = true
  · simp [maskedRow, masked, hvalid]
  · simp [maskedRow, masked, hvalid]

theorem sequenceMean_eq (values : Fin T → ℝ) (mask : Fin T → Bool) :
    sequenceMean values mask =
      (∑ position ∈ validPositions mask, values position) / meanCount mask := by
  have htokens : (maskedRow values mask).tokens = (validPositions mask).card := by
    simp [LossRow.tokens, maskedRow, validPositions]
  rw [sequenceMean, sequenceSum_eq, htokens, meanCount]

theorem maxValue_le_iff {values : Fin T → ℝ} {mask : Fin T → Bool} {bound : ExtReal}
    {position : Fin T} (hvalid : mask position = true) :
    (maxValue values mask).Le bound ↔
      ∀ position ∈ validPositions mask, (ExtReal.finite (values position)).Le bound := by
  rw [maxValue, ExtReal.foldr_max_le_iff]
  · constructor
    · rintro ⟨_, hitems⟩ other hother
      have hitem := hitems _ (List.mem_map.mpr ⟨other, List.mem_finRange other, rfl⟩)
      rwa [if_pos (mem_validPositions.mp hother)] at hitem
    · intro hbound
      have hfinite := hbound position (mem_validPositions.mpr hvalid)
      have hdefined : bound ≠ .nan := fun heq => ExtReal.not_le_nan _ (heq ▸ hfinite)
      refine ⟨hdefined, fun item hitem => ?_⟩
      obtain ⟨other, -, rfl⟩ := List.mem_map.mp hitem
      split
      next hother => exact hbound other (mem_validPositions.mpr hother)
      next => exact ExtReal.negInf_le hdefined
  · intro item hitem
    obtain ⟨other, -, rfl⟩ := List.mem_map.mp hitem
    split <;> simp

/-- A row with a valid position has a maximum. -/
theorem sequenceMax_le_iff {values : Fin T → ℝ} {mask : Fin T → Bool} {bound : ExtReal}
    {position : Fin T} (hvalid : mask position = true) :
    (sequenceMax values mask).Le bound ↔
      ∀ position ∈ validPositions mask, (ExtReal.finite (values position)).Le bound := by
  have hmax : maxValue values mask ≠ .negInf := by
    intro heq
    have hle : (maxValue values mask).Le .negInf := by
      rw [heq]
      trivial
    exact (maxValue_le_iff hvalid).mp hle position (mem_validPositions.mpr hvalid)
  rw [sequenceMax, if_neg hmax, maxValue_le_iff hvalid]

theorem stat_eq_divergence (estimator : Estimator) (logRatio : ℝ) :
    estimator.stat logRatio = estimator.divergence (Real.exp logRatio) := by
  cases estimator <;> simp [Estimator.stat, Estimator.divergence]

theorem keeps_iff_of_ne_k1 {option : RsOption} {threshold : Threshold} {logRatio : Fin T → ℝ}
    {mask : Fin T → Bool} {position : Fin T} (hestimator : option.estimator ≠ .k1) :
    Keeps option threshold logRatio mask position ↔
      (option.stat logRatio mask position).Le threshold.upper := by
  have hlimits : limits option threshold = .ok { lower := none, upper := threshold.upper } := by
    rw [limits]
    split
    next heq _ => exact absurd heq hestimator
    next heq _ => exact absurd heq hestimator
    next => rfl
  simp [Keeps, hlimits, Limits.Keep]

/-- Reciprocal bounds hold of a ratio when they hold of its reciprocal. -/
theorem keeps_iff_contains {option : RsOption} {threshold : Threshold} {logRatio : Fin T → ℝ}
    {mask : Fin T → Bool} {position : Fin T} (hestimator : option.estimator = .k1)
    (haccepted : threshold.Accepted option) (hreciprocal : threshold.Reciprocal) {sum : ℝ}
    (hstat : option.stat logRatio mask position = .finite (-sum)) :
    Keeps option threshold logRatio mask position ↔ threshold.Contains (Real.exp sum) := by
  obtain ⟨lower, upper, hlower, hupper, hproduct⟩ := hreciprocal
  have hlowerPos : 0 < lower := by
    simpa using haccepted.lower_pos _ hlower
  have hupperPos : 0 < upper := by
    simpa [hupper] using haccepted.upper_pos
  have hlog : Real.log lower = -Real.log upper := by
    rw [← Real.log_inv, eq_inv_of_mul_eq_one_left hproduct]
  have hlimits : limits option threshold =
      .ok { lower := some (.finite (-Real.log upper)), upper := .finite (Real.log upper) } := by
    rw [limits, hestimator, hlower, hupper]
    simp only [ExtReal.log_finite hlowerPos, ExtReal.log_finite hupperPos, hlog]
  have hcontains : threshold.Contains (Real.exp sum) ↔
      lower ≤ Real.exp sum ∧ Real.exp sum ≤ upper := by
    simp [Threshold.Contains, hlower, hupper]
  have hleft : lower ≤ Real.exp sum ↔ -Real.log upper ≤ sum := by
    rw [← hlog, Real.log_le_iff_le_exp hlowerPos]
  have hright : Real.exp sum ≤ upper ↔ sum ≤ Real.log upper :=
    (Real.le_log_iff_exp_le hupperPos).symm
  rw [hcontains, hleft, hright]
  simp only [Keeps, hlimits, Except.ok.injEq, exists_eq_left', Limits.Keep, hstat,
    Option.mem_some_iff, forall_eq', ExtReal.finite_le_finite]
  constructor
  · rintro ⟨hbelow, habove⟩
    exact ⟨by linarith, by linarith⟩
  · rintro ⟨hbelow, habove⟩
    exact ⟨by linarith, by linarith⟩

/-- A position is kept exactly inside of the trust region. -/
theorem keeps_iff_admits {option : RsOption} {threshold : Threshold} {logRatio : Fin T → ℝ}
    {mask : Fin T → Bool} {position : Fin T} (hvalid : mask position = true)
    (haccepted : threshold.Accepted option)
    (hreciprocal : option.estimator = .k1 → threshold.Reciprocal) :
    Keeps option threshold logRatio mask position ↔
      Admits option threshold (fun position => Real.exp (logRatio position)) mask position := by
  by_cases hestimator : option.estimator = .k1
  · have hcontains := @keeps_iff_contains _ option threshold logRatio mask position hestimator
      haccepted (hreciprocal hestimator)
    cases option with
    | token estimator =>
        cases hestimator
        exact hcontains rfl
    | seqSum estimator =>
        cases hestimator
        rw [@hcontains (∑ position ∈ validPositions mask, logRatio position), Real.exp_sum]
        · rfl
        · simp [RsOption.stat, sequenceSum_eq, RsOption.estimator, Estimator.stat]
    | seqMean estimator =>
        cases hestimator
        rw [@hcontains ((∑ position ∈ validPositions mask, logRatio position) *
          (1 / meanCount mask)), Real.exp_mul, Real.exp_sum]
        · rfl
        · simp [RsOption.stat, sequenceMean_eq, RsOption.estimator, Estimator.stat,
            div_eq_mul_inv]
    | seqMaxK2 => cases hestimator
    | seqMaxK3 => cases hestimator
  · rw [keeps_iff_of_ne_k1 hestimator]
    cases option with
    | token estimator =>
        cases estimator with
        | k1 => exact absurd rfl hestimator
        | k2 => simp only [RsOption.stat, stat_eq_divergence]; rfl
        | k3 => simp only [RsOption.stat, stat_eq_divergence]; rfl
    | seqSum estimator =>
        cases estimator with
        | k1 => exact absurd rfl hestimator
        | k2 => simp only [RsOption.stat, sequenceSum_eq, stat_eq_divergence]; rfl
        | k3 => simp only [RsOption.stat, sequenceSum_eq, stat_eq_divergence]; rfl
    | seqMean estimator =>
        cases estimator with
        | k1 => exact absurd rfl hestimator
        | k2 => simp only [RsOption.stat, sequenceMean_eq, stat_eq_divergence]; rfl
        | k3 => simp only [RsOption.stat, sequenceMean_eq, stat_eq_divergence]; rfl
    | seqMaxK2 =>
        simp only [RsOption.stat, sequenceMax_le_iff hvalid, stat_eq_divergence]
        rfl
    | seqMaxK3 =>
        simp only [RsOption.stat, sequenceMax_le_iff hvalid, stat_eq_divergence]
        rfl

/-- An option above the level of tokens treats a row as one. -/
theorem keeps_congr_position {option : RsOption} (hlevel : option.sequenceLevel = true)
    {threshold : Threshold} {logRatio : Fin T → ℝ} {mask : Fin T → Bool}
    (left right : Fin T) :
    Keeps option threshold logRatio mask left ↔ Keeps option threshold logRatio mask right := by
  cases option with
  | token estimator => cases hlevel
  | seqSum estimator => exact Iff.rfl
  | seqMean estimator => exact Iff.rfl
  | seqMaxK2 => exact Iff.rfl
  | seqMaxK3 => exact Iff.rfl

theorem clamp_of_abs_le {value : ℝ} (hvalue : |value| ≤ safetyBound) :
    clamp value (-safetyBound) safetyBound = value := by
  obtain ⟨hlower, hupper⟩ := abs_le.mp hvalue
  rw [clamp, max_eq_left hlower, min_eq_left hupper]

section Mask

variable {numbers : NumberText} {logRatio : Grid B T} {mask : ResponseMask B T}
  {rolloutRs : String} {spec : ThresholdSpec} {options : List RsOption}
  {thresholds : List (RsOption × Threshold)}
  (hsafe : ∀ row position, |logRatio row position| ≤ safetyBound)
  (hoptions : parseRolloutRs numbers rolloutRs = .ok options)
  (hthresholds : parseRolloutRsThresholds numbers options spec = .ok thresholds)

open Classical in
include hsafe hoptions hthresholds in
/-- A token of the response mask stays where every option keeps it. -/
theorem computeRolloutRejectionMask_eq
    (hvalid : 0 < B → ∃ row position, mask row position = true) :
    computeRolloutRejectionMask numbers logRatio mask (some rolloutRs) (some spec) =
      .ok fun row position =>
        if mask row position = true ∧
          ∀ entry ∈ thresholds, Keeps entry.1 entry.2 (logRatio row) (mask row) position
        then 1 else 0 := by
  by_cases hempty : B = 0
  · subst hempty
    rw [computeRolloutRejectionMask]
    exact congrArg Except.ok (funext fun row => row.elim0)
  · have hclamped : (fun row position =>
        clamp (logRatio row position) (-safetyBound) safetyBound) = logRatio :=
      funext fun row => funext fun position => clamp_of_abs_le (hsafe row position)
    rw [computeRolloutRejectionMask]
    simp only [if_neg hempty, hoptions, hthresholds, bind, Except.bind, hclamped]
    rw [combineOptions_eq (hvalid (Nat.pos_of_ne_zero hempty))
      (accepted_of_parseRolloutRsThresholds hthresholds)]
    refine congrArg Except.ok (funext fun row => funext fun position => ?_)
    simp only [one_mul, ResponseMask.toGrid]
    by_cases hmask : mask row position = true
    · simp only [hmask, true_and, if_true, one_mul]
    · simp only [hmask, Bool.false_eq_true, false_and, if_false, zero_mul]

omit hsafe in
include hoptions hthresholds in
/-- A batch whose mask is empty is refused. -/
theorem computeRolloutRejectionMask_of_no_token (hrows : B ≠ 0)
    (hlisted : options ≠ []) (hmask : ∀ row position, mask row position = false) :
    computeRolloutRejectionMask numbers logRatio mask (some rolloutRs) (some spec) =
      .error (.valueError "response_mask must contain at least one valid token (1).") := by
  have hinvalid : ¬ ∃ row position, mask row position = true := by
    simp [hmask]
  rw [computeRolloutRejectionMask]
  simp only [if_neg hrows, hoptions, hthresholds, bind, Except.bind]
  cases thresholds with
  | nil =>
      exact absurd (map_fst_parseRolloutRsThresholds hthresholds).symm hlisted
  | cons entry entries =>
      obtain ⟨option, threshold⟩ := entry
      obtain ⟨bounds, hbounds⟩ := exists_limits
        (accepted_of_parseRolloutRsThresholds hthresholds _ List.mem_cons_self)
      simp [combineOptions, hbounds, bind, Except.bind, raiseIf, hinvalid]

open Classical in
include hsafe hoptions hthresholds in
/-- The mask that is returned is the response mask and-ed with every option, and a
mask without a token is refused.  An option keeps a token or a sequence exactly inside
of its trust region, where the bounds of a `k1` option are reciprocal. -/
theorem rejection_mask_ands_options :
    thresholds.map Prod.fst = options ∧
    (B ≠ 0 → options ≠ [] → (∀ row position, mask row position = false) →
      computeRolloutRejectionMask numbers logRatio mask (some rolloutRs) (some spec) =
        .error (.valueError "response_mask must contain at least one valid token (1).")) ∧
    ((0 < B → ∃ row position, mask row position = true) →
      ∃ keep : RsOption × Threshold → Fin B → Fin T → Prop,
        computeRolloutRejectionMask numbers logRatio mask (some rolloutRs) (some spec) =
          .ok (fun row position =>
            if mask row position = true ∧ ∀ entry ∈ thresholds, keep entry row position
            then 1 else 0) ∧
        ∀ entry ∈ thresholds,
          (entry.1.sequenceLevel = true →
            ∀ row left right, keep entry row left ↔ keep entry row right) ∧
          ∀ row position, mask row position = true →
            (entry.1.estimator = .k1 → entry.2.Reciprocal) →
            (keep entry row position ↔
              Admits entry.1 entry.2 (fun position => Real.exp (logRatio row position))
                (mask row) position)) := by
  refine ⟨map_fst_parseRolloutRsThresholds hthresholds,
    computeRolloutRejectionMask_of_no_token hoptions hthresholds, fun hvalid =>
    ⟨fun entry row position => Keeps entry.1 entry.2 (logRatio row) (mask row) position,
      computeRolloutRejectionMask_eq hsafe hoptions hthresholds hvalid, ?_⟩⟩
  intro entry hentry
  constructor
  · intro hlevel row left right
    exact keeps_congr_position hlevel left right
  · intro row position hmask hreciprocal
    exact keeps_iff_admits hmask
      (accepted_of_parseRolloutRsThresholds hthresholds entry hentry) hreciprocal

end Mask

/-! ## A mean just above its threshold -/

attribute [local instance] Literals.atLeastTwo_two Literals.atLeastTwo_ten in
/-- One numeral without blanks around it. -/
noncomputable def sampleNumbers : NumberText where
  strip := id
  float text :=
    if text = "0.4999999999" then some (.finite (1 / 2 - 1 / 10 ^ 10)) else none
  str _ := "0.4999999999"

theorem parse_seqMeanK2 : parseRolloutRs sampleNumbers "seq_mean_k2" = .ok [.seqMean .k2] := rfl

attribute [local instance] Literals.atLeastTwo_two Literals.atLeastTwo_ten in
/-- `0.4999999999`. -/
noncomputable def meanThreshold : Threshold where
  lower := none
  upper := .finite (1 / 2 - 1 / 10 ^ 10)

theorem parse_meanBound :
    parseRolloutRsThresholds sampleNumbers [.seqMean .k2] (.text "0.4999999999") =
      .ok [(.seqMean .k2, meanThreshold)] := by
  have hspecs : (ThresholdSpec.text "0.4999999999").rawSpecs sampleNumbers =
      .ok ["0.4999999999"] := rfl
  have hchars : '_' ∉ "0.4999999999".toList := by decide +kernel
  have hupper : sampleNumbers.float "0.4999999999" =
      some (.finite (1 / 2 - 1 / 10 ^ 10)) := rfl
  have hbound : boundThreshold sampleNumbers (.seqMean .k2) "0.4999999999" =
      .ok meanThreshold := by
    rw [boundThreshold]
    simp only [raiseIf, hchars, if_false, bind, Except.bind, hupper]
    norm_num [pure, Except.pure, meanThreshold]
  rw [parseRolloutRsThresholds, hspecs]
  simp [raiseIf, bind, Except.bind, parseThreshold, RsOption.estimator, hbound, Except.map, pure,
    Except.pure]

/-- One token, whose log ratio is one. -/
def oneToken : Grid 1 1 := fun _ _ => 1

def oneValid : ResponseMask 1 1 := fun _ _ => true

theorem oneToken_safe (row position : Fin 1) : |oneToken row position| ≤ safetyBound := by
  norm_num [oneToken, safetyBound]

open Classical in
theorem rejection_mask_ands_options_oneToken :
    ∃ keep : Fin 1 → Fin 1 → Prop,
      computeRolloutRejectionMask sampleNumbers oneToken oneValid (some "seq_mean_k2")
          (some (.text "0.4999999999")) =
        .ok (fun row position => if oneValid row position = true ∧
          keep row position then 1 else 0) ∧
      ∀ row position, keep row position ↔
        Admits (.seqMean .k2) meanThreshold (fun position => Real.exp (oneToken row position))
          (oneValid row) position := by
  obtain ⟨-, -, hvalid⟩ := rejection_mask_ands_options oneToken_safe parse_seqMeanK2
    parse_meanBound
  obtain ⟨keep, hresult, hkeep⟩ := hvalid fun _ => ⟨0, 0, (rfl : oneValid 0 0 = true)⟩
  refine ⟨keep (.seqMean .k2, meanThreshold), ?_, fun row position => ?_⟩
  · simpa only [List.forall_mem_singleton] using hresult
  · exact (hkeep _ List.mem_cons_self).2 row position rfl (by decide)

/-- A mean above its bound is kept, and a mask without a token is refused. -/
theorem rejection_mask_disagrees :
    (1 / 2 - 1 / 10 ^ 10 < Estimator.k2.divergence (Real.exp (oneToken 0 0)) ∧
      computeRolloutRejectionMask sampleNumbers oneToken oneValid (some "seq_mean_k2")
        (some (.text "0.4999999999")) = .ok fun _ _ => 1) ∧
    computeRolloutRejectionMask sampleNumbers oneToken (fun _ _ => false) (some "seq_mean_k2")
      (some (.text "0.4999999999")) =
        .error (.valueError "response_mask must contain at least one valid token (1).") := by
  refine ⟨⟨?_, ?_⟩, ?_⟩
  · norm_num [oneToken, Estimator.divergence]
  · rw [computeRolloutRejectionMask_eq oneToken_safe parse_seqMeanK2
      parse_meanBound fun _ => ⟨0, 0, rfl⟩]
    refine congrArg Except.ok (funext fun row => funext fun position => if_pos ⟨rfl, ?_⟩)
    intro entry hentry
    cases List.mem_singleton.mp hentry
    rw [keeps_iff_of_ne_k1 (by decide)]
    have hcard : validPositions (oneValid row) = Finset.univ := by
      ext other
      simp only [mem_validPositions, oneValid, Finset.mem_univ]
    simp only [RsOption.stat, sequenceMean_eq, hcard, meanCount, meanThreshold,
      ExtReal.finite_le_finite]
    norm_num [Estimator.stat, RsOption.estimator, oneToken]
  · exact computeRolloutRejectionMask_of_no_token parse_seqMeanK2
      parse_meanBound one_ne_zero (by decide) fun _ _ => rfl

end OneShotOPD.RolloutCorr
