import OneShotOPD.Core.Checks
import OneShotOPD.Core.ExtReal
import Mathlib.Data.List.Basic

/-!
# Options and thresholds of rejection sampling

Rejection sampling is configured by two strings, the options and their
thresholds, both separated by commas.  An option whose name ends in `k1` has a
lower and an upper bound, every other option an upper bound alone.
-/

namespace OneShotOPD.RolloutCorr

open Checks

/-- Methods of strings, and the conversion between strings and numbers. -/
structure NumberText where
  strip : String → String
  float : String → Option ExtReal
  str : ExtReal → String

inductive PyError where
  | valueError (text : String)
  | typeError (text : String)
  /-- `float(text)` outside of any handler. -/
  | conversion (text : String)
  | zeroDivision
  deriving DecidableEq

inductive Estimator where
  | k1
  | k2
  | k3
  deriving DecidableEq

namespace Estimator

def name : Estimator → String
  | k1 => "k1"
  | k2 => "k2"
  | k3 => "k3"

end Estimator

inductive RsOption where
  | token (estimator : Estimator)
  | seqSum (estimator : Estimator)
  | seqMean (estimator : Estimator)
  | seqMaxK2
  | seqMaxK3
  deriving DecidableEq

namespace RsOption

def name : RsOption → String
  | token estimator => "token_" ++ estimator.name
  | seqSum estimator => "seq_sum_" ++ estimator.name
  | seqMean estimator => "seq_mean_" ++ estimator.name
  | seqMaxK2 => "seq_max_k2"
  | seqMaxK3 => "seq_max_k3"

/-- What the name of the option ends in. -/
def estimator : RsOption → Estimator
  | token estimator => estimator
  | seqSum estimator => estimator
  | seqMean estimator => estimator
  | seqMaxK2 => .k2
  | seqMaxK3 => .k3

/-- `option_name not in TOKEN_LEVEL_ROLLOUT_RS_OPTIONS`. -/
def sequenceLevel : RsOption → Bool
  | token _ => false
  | _ => true

end RsOption

/-- `sorted(SUPPORTED_ROLLOUT_RS_OPTIONS)`. -/
def supportedRolloutRsOptions : List RsOption :=
  [.seqMaxK2, .seqMaxK3, .seqMean .k1, .seqMean .k2, .seqMean .k3, .seqSum .k1, .seqSum .k2,
    .seqSum .k3, .token .k1, .token .k2, .token .k3]

/-- `str(sorted(SUPPORTED_ROLLOUT_RS_OPTIONS))`. -/
def supportedText : String :=
  "[" ++ ", ".intercalate (supportedRolloutRsOptions.map fun option => "'" ++ option.name ++ "'")
    ++ "]"

/-- `[part.strip() for part in text.split(",") if part.strip()]`. -/
def stripParts (numbers : NumberText) (text : String) : List String :=
  ((text.toList.splitOn ',').map fun part => numbers.strip (String.ofList part)).filter (· ≠ "")

def ofName (name : String) : Except PyError RsOption :=
  match supportedRolloutRsOptions.find? fun option => option.name = name with
  | some option => .ok option
  | none =>
      .error (.valueError ("Invalid rollout_rs option: " ++ name ++ ". Must be one of "
        ++ supportedText ++ "."))

/-- The options that are not in `seen` yet, each where it occurs first. -/
def firstOccurrences : List RsOption → List RsOption → List RsOption
  | [], _ => []
  | option :: options, seen =>
      if option ∈ seen then firstOccurrences options seen
      else option :: firstOccurrences options (option :: seen)

/-- `normalized_options`. -/
def parseRolloutRs (numbers : NumberText) (rolloutRs : String) :
    Except PyError (List RsOption) := do
  let optionModes := stripParts numbers rolloutRs
  raiseIf (optionModes = []) (.valueError "rollout_rs must contain at least one valid option.")
  let options ← optionModes.mapM ofName
  return firstOccurrences options []

/-- `rollout_rs_threshold` of a configuration that has one.  A number comes with
its `str`. -/
inductive ThresholdSpec where
  | number (str : String)
  | text (spec : String)
  | other

structure Threshold where
  lower : Option ExtReal
  upper : ExtReal

def ThresholdSpec.rawSpecs (numbers : NumberText) : ThresholdSpec → Except PyError (List String)
  | .number str => .ok [str]
  | .text spec => .ok (stripParts numbers spec)
  | .other =>
      .error (.typeError ("rollout_rs_threshold must be a string or numeric value "
        ++ "specifying per-option thresholds."))

/-- `spec.split("_", 1)` of a string with an underscore. -/
def splitOnce (spec : String) : String × String :=
  (String.ofList (spec.toList.takeWhile (· ≠ '_')),
    String.ofList (spec.toList.dropWhile (· ≠ '_')).tail)

/-- `str(1.0 / float(upper_str))`. -/
noncomputable def reciprocalText (numbers : NumberText) (upperText : String) :
    Except PyError String := do
  match numbers.float upperText with
  | none => .error (.conversion upperText)
  | some upper =>
      raiseIf (upper = .finite 0) .zeroDivision
      return numbers.str upper.reciprocal

def invalidNumber (option : RsOption) (spec : String) : PyError :=
  .valueError ("Invalid numeric threshold '" ++ spec ++ "' for option '" ++ option.name ++ "'.")

/-- `lower_str, upper_str`. -/
noncomputable def boundTexts (numbers : NumberText) (spec : String) :
    Except PyError (String × String) :=
  if '_' ∈ spec.toList then .ok (splitOnce spec)
  else (reciprocalText numbers spec).map fun lowerText => (lowerText, spec)

/-- The two bounds of a `k1` option. -/
noncomputable def boundsThreshold (numbers : NumberText) (option : RsOption) (spec : String) :
    Except PyError Threshold := do
  let texts ← boundTexts numbers spec
  match numbers.float texts.1, numbers.float texts.2 with
  | some lower, some upper =>
      raiseIf (lower.Le (.finite 0) ∨ upper.Le (.finite 0))
        (.valueError ("Thresholds for option '" ++ option.name ++ "' must be positive, got "
          ++ spec ++ "."))
      raiseIf (upper.Lt lower)
        (.valueError ("Thresholds for option '" ++ option.name
          ++ "' must be lower <= upper, got " ++ spec ++ "."))
      return { lower := some lower, upper := upper }
  | _, _ => .error (invalidNumber option spec)

/-- The bound of an option that is not a `k1` option. -/
noncomputable def boundThreshold (numbers : NumberText) (option : RsOption) (spec : String) :
    Except PyError Threshold := do
  raiseIf ('_' ∈ spec.toList)
    (.valueError ("rollout_rs_threshold for option '" ++ option.name
      ++ "' must provide a single upper bound without '_'. Received '" ++ spec ++ "'."))
  match numbers.float spec with
  | none => .error (invalidNumber option spec)
  | some upper =>
      raiseIf (upper.Le (.finite 0))
        (.valueError ("Threshold for option '" ++ option.name ++ "' must be positive, got "
          ++ spec ++ "."))
      return { lower := none, upper := upper }

noncomputable def parseThreshold (numbers : NumberText) (option : RsOption) (spec : String) :
    Except PyError Threshold :=
  if option.estimator = .k1 then boundsThreshold numbers option spec
  else boundThreshold numbers option spec

/-- `_parse_rollout_rs_thresholds`, for options that are all different. -/
noncomputable def parseRolloutRsThresholds (numbers : NumberText) (options : List RsOption)
    (spec : ThresholdSpec) : Except PyError (List (RsOption × Threshold)) := do
  let specs ← spec.rawSpecs numbers
  raiseIf (specs = [])
    (.valueError "rollout_rs_threshold must contain at least one threshold value.")
  raiseIf (specs.length ≠ 1 ∧ specs.length ≠ options.length)
    (.valueError ("rollout_rs_threshold expects either one threshold shared by all options or "
      ++ "exactly " ++ toString options.length
      ++ " thresholds to match the provided rollout_rs options."))
  let specs := if specs.length = 1 ∧ 1 < options.length then
    (List.replicate options.length specs).flatten else specs
  (options.zip specs).mapM fun entry =>
    (parseThreshold numbers entry.1 entry.2).map fun threshold => (entry.1, threshold)

/-! ## What the parser accepts -/

/-- Bounds that the checks let through.  An undefined number passes them. -/
structure Threshold.Accepted (option : RsOption) (threshold : Threshold) : Prop where
  upper_pos : ¬ threshold.upper.Le (.finite 0)
  lower_iff : threshold.lower.isSome = true ↔ option.estimator = .k1
  lower_pos : ∀ lower ∈ threshold.lower, ¬ lower.Le (.finite 0)
  ordered : ∀ lower ∈ threshold.lower, ¬ threshold.upper.Lt lower

theorem boundsThreshold_accepted {numbers : NumberText} {option : RsOption} {spec : String}
    {threshold : Threshold} (hoption : option.estimator = .k1)
    (hthreshold : boundsThreshold numbers option spec = .ok threshold) :
    threshold.Accepted option := by
  rw [boundsThreshold] at hthreshold
  obtain ⟨texts, -, hthreshold⟩ := bind_eq_ok.mp hthreshold
  split at hthreshold
  next lower upper _ _ =>
      obtain ⟨hpositive, hthreshold⟩ := raiseIf_bind_eq_ok.mp hthreshold
      obtain ⟨hordered, hthreshold⟩ := raiseIf_bind_eq_ok.mp hthreshold
      cases hthreshold
      obtain ⟨hlower, hupper⟩ := not_or.mp hpositive
      exact {
        upper_pos := hupper
        lower_iff := by simp [hoption]
        lower_pos := by simpa using hlower
        ordered := by simpa using hordered }
  next => cases hthreshold

theorem boundThreshold_accepted {numbers : NumberText} {option : RsOption} {spec : String}
    {threshold : Threshold} (hoption : option.estimator ≠ .k1)
    (hthreshold : boundThreshold numbers option spec = .ok threshold) :
    threshold.Accepted option := by
  rw [boundThreshold] at hthreshold
  obtain ⟨_, -, hthreshold⟩ := bind_eq_ok.mp hthreshold
  split at hthreshold
  next => cases hthreshold
  next upper _ =>
      obtain ⟨hpositive, hthreshold⟩ := raiseIf_bind_eq_ok.mp hthreshold
      cases hthreshold
      exact {
        upper_pos := hpositive
        lower_iff := by simp [hoption]
        lower_pos := by simp
        ordered := by simp }

theorem parseThreshold_accepted {numbers : NumberText} {option : RsOption} {spec : String}
    {threshold : Threshold} (hthreshold : parseThreshold numbers option spec = .ok threshold) :
    threshold.Accepted option := by
  rw [parseThreshold] at hthreshold
  split at hthreshold
  next hoption => exact boundsThreshold_accepted hoption hthreshold
  next hoption => exact boundThreshold_accepted hoption hthreshold

theorem accepted_of_parseRolloutRsThresholds {numbers : NumberText} {options : List RsOption}
    {spec : ThresholdSpec} {thresholds : List (RsOption × Threshold)}
    (hok : parseRolloutRsThresholds numbers options spec = .ok thresholds) :
    ∀ entry ∈ thresholds, entry.2.Accepted entry.1 := by
  rw [parseRolloutRsThresholds] at hok
  obtain ⟨specs, -, hok⟩ := bind_eq_ok.mp hok
  obtain ⟨-, hok⟩ := raiseIf_bind_eq_ok.mp hok
  obtain ⟨-, hok⟩ := raiseIf_bind_eq_ok.mp hok
  intro entry hentry
  obtain ⟨source, -, hsource⟩ := exists_of_mem_mapM hok hentry
  obtain ⟨threshold, hthreshold, rfl⟩ := map_eq_ok.mp hsource
  exact parseThreshold_accepted hthreshold

/-- Every option has a threshold. -/
theorem map_fst_parseRolloutRsThresholds {numbers : NumberText} {options : List RsOption}
    {spec : ThresholdSpec} {thresholds : List (RsOption × Threshold)}
    (hok : parseRolloutRsThresholds numbers options spec = .ok thresholds) :
    thresholds.map Prod.fst = options := by
  rw [parseRolloutRsThresholds] at hok
  obtain ⟨specs, -, hok⟩ := bind_eq_ok.mp hok
  obtain ⟨-, hok⟩ := raiseIf_bind_eq_ok.mp hok
  obtain ⟨hlength, hok⟩ := raiseIf_bind_eq_ok.mp hok
  rw [@map_eq_of_mapM _ _ _ _ _ _ _ Prod.fst Prod.fst ?_ hok, List.map_fst_zip]
  · split
    next hshared => simp [hshared.1]
    next hown => omega
  · intro source _ value hvalue
    obtain ⟨threshold, -, rfl⟩ := map_eq_ok.mp hvalue
    rfl

end OneShotOPD.RolloutCorr
