import OneShotOPD.Core.Dict
import OneShotOPD.Core.Checks
import Mathlib.Data.List.Dedup
import Mathlib.Data.List.Sort
import Mathlib.Data.String.Basic
import Mathlib.Data.Int.Notation
import Mathlib.Tactic.Tauto

/-!
# Configuration and routing of the distillation teachers

`FsdpTeacherConfig` names the frozen teachers of a run and says which of them
scores a row.  This file models its validation, the per-row routing, and the
table of teacher modules that the worker loads from it.
-/

namespace OneShotOPD.TeacherConfig

open OneShotOPD.Checks

/-- One segment of a formatted message: literal text, or a value that the
format string interpolates. -/
inductive Segment where
  | text (literal : String)
  | str (value : String)
  | int (value : ℤ)
  | names (values : List String)
  deriving DecidableEq

abbrev Message := List Segment

inductive TopKStrategy where
  | onlyStu | onlyTch | intersection | union | unionIntersection
  deriving DecidableEq

namespace TopKStrategy

def name : TopKStrategy → String
  | onlyStu => "only_stu"
  | onlyTch => "only_tch"
  | intersection => "intersection"
  | union => "union"
  | unionIntersection => "union-intersection"

def all : List TopKStrategy :=
  [onlyStu, onlyTch, intersection, union, unionIntersection]

/-- The strategy of a name. -/
def ofName? (strategy : String) : Option TopKStrategy :=
  all.find? fun known => known.name = strategy

@[simp]
theorem ofName?_name (strategy : TopKStrategy) :
    ofName? strategy.name = some strategy := by
  cases strategy <;> decide

end TopKStrategy

def topKStrategies : List String := TopKStrategy.all.map TopKStrategy.name

inductive RewardWeightMode where
  | studentP | teacherP | none
  deriving DecidableEq

namespace RewardWeightMode

def name : RewardWeightMode → String
  | studentP => "student_p"
  | teacherP => "teacher_p"
  | none => "none"

def all : List RewardWeightMode := [studentP, teacherP, none]

def ofName? (mode : String) : Option RewardWeightMode :=
  all.find? fun known => known.name = mode

@[simp]
theorem ofName?_name (mode : RewardWeightMode) : ofName? mode.name = some mode := by
  cases mode <;> decide

end RewardWeightMode

def rewardWeightModes : List String := RewardWeightMode.all.map RewardWeightMode.name

/-- One entry of the `teachers` list. -/
structure TeacherEntry where
  name : String
  path : String

structure FsdpTeacherConfig where
  enabled : Bool := false
  modelPath : Option String := none
  teachers : List TeacherEntry := []
  abilityToTeacher : Dict String String := Dict.empty
  strictRouting : Bool := false
  defaultTeacher : Option String := none
  microBatchSizePerGpu : ℕ := 24
  logProbTopK : ℤ := 0
  topKStrategy : String := "only_stu"
  rewardWeightMode : String := "student_p"
  metricTopK : ℤ := 0

namespace FsdpTeacherConfig

/-- Names of the configured teachers, in declaration order. -/
def teacherNames (config : FsdpTeacherConfig) : List String :=
  config.teachers.map TeacherEntry.name

/-- Teacher name to model path. -/
def teacherPaths (config : FsdpTeacherConfig) : Dict String String :=
  Dict.ofList (config.teachers.map fun teacher => (teacher.name, teacher.path))

/-- The default that validation fills in when only `teachers` is given. -/
def fillDefault (config : FsdpTeacherConfig) : FsdpTeacherConfig :=
  if config.teacherNames ≠ [] ∧ config.defaultTeacher = none then
    { config with defaultTeacher := config.teacherNames.head? }
  else config

/-- `FsdpTeacherConfig.__post_init__`.  A disabled configuration is not
checked; the two checks on teacher names are skipped when no teacher is
listed. -/
def postInit (config : FsdpTeacherConfig) : Except Message FsdpTeacherConfig :=
  if config.enabled = false then .ok config else do
    raiseIf (config.topKStrategy ∉ topKStrategies)
      [.text "[OPD] top_k_strategy must be one of ", .names topKStrategies,
        .text ", got '", .str config.topKStrategy, .text "'"]
    raiseIf (config.rewardWeightMode ∉ rewardWeightModes)
      [.text "[OPD] reward_weight_mode must be one of ",
        .names rewardWeightModes, .text ", got '", .str config.rewardWeightMode,
        .text "'"]
    raiseIf (config.logProbTopK < 0)
      [.text "[OPD] log_prob_top_k must be >= 0, got ", .int config.logProbTopK]
    raiseIf (config.metricTopK < 0)
      [.text "[OPD] metric_top_k must be >= 0, got ", .int config.metricTopK]
    let names := config.teacherNames
    raiseIf (names = [] ∧ config.modelPath.getD "" = "")
      [.text "[OPD] distillation.fsdp_teacher.enabled=True requires either ",
        .text "`model_path` (single teacher) or `teachers` (MOPD)."]
    raiseIf (names.length ≠ names.dedup.length)
      [.text "[OPD] duplicate teacher names in `teachers`: ", .names names]
    let config := config.fillDefault
    raiseIf (names ≠ [] ∧ ∃ name ∈ config.defaultTeacher, name ∉ names)
      [.text "[OPD] default_teacher '", .str (config.defaultTeacher.getD ""),
        .text "' is not one of ", .names names]
    raiseIfAny config.abilityToTeacher.entries
      (fun entry => names ≠ [] ∧ entry.2 ∉ names)
      fun entry =>
        [.text "[MOPD] ability_to_teacher maps '", .str entry.1, .text "' -> '",
          .str entry.2, .text "', which is not a configured teacher ",
          .names names]
    return config

/-- What validation leaves of an enabled configuration. -/
structure Accepted (config : FsdpTeacherConfig) : Prop where
  strategy : config.topKStrategy ∈ topKStrategies
  weightMode : config.rewardWeightMode ∈ rewardWeightModes
  logProbTopK : 0 ≤ config.logProbTopK
  metricTopK : 0 ≤ config.metricTopK
  modelPath : config.teachers = [] → config.modelPath.getD "" ≠ ""
  namesNodup : config.teacherNames.Nodup
  default : config.teachers ≠ [] →
    ∃ name ∈ config.teacherNames, config.defaultTeacher = some name
  mapping : config.teachers ≠ [] →
    ∀ entry ∈ config.abilityToTeacher.entries, entry.2 ∈ config.teacherNames

@[simp]
theorem teachers_fillDefault (config : FsdpTeacherConfig) :
    config.fillDefault.teachers = config.teachers := by
  unfold fillDefault
  split <;> rfl

@[simp]
theorem teacherNames_eq_nil (config : FsdpTeacherConfig) :
    config.teacherNames = [] ↔ config.teachers = [] := by
  simp [teacherNames]

/-- Filling in the default touches no other field. -/
theorem fillDefault_eq (config : FsdpTeacherConfig) :
    ∃ default, config.fillDefault = { config with defaultTeacher := default } := by
  unfold fillDefault
  split
  · exact ⟨_, rfl⟩
  · exact ⟨config.defaultTeacher, rfl⟩

private theorem fillDefault_isSome (config : FsdpTeacherConfig)
    (hteachers : config.teachers ≠ []) :
    ∃ name, config.fillDefault.defaultTeacher = some name := by
  have hnames : config.teacherNames ≠ [] := by simpa using hteachers
  cases hdefault : config.defaultTeacher with
  | some name => exact ⟨name, by simp [fillDefault, hdefault]⟩
  | none =>
      obtain ⟨first, rest, hcons⟩ := List.exists_cons_of_ne_nil hnames
      exact ⟨first, by simp [fillDefault, hdefault, hcons]⟩

/-- Validation of an enabled configuration returns it with the default filled
in, and everything it checked holds of the result. -/
theorem accepted_of_postInit {config checked : FsdpTeacherConfig}
    (henabled : config.enabled = true) (hok : config.postInit = .ok checked) :
    checked = config.fillDefault ∧ checked.Accepted := by
  simp only [postInit, henabled, Bool.true_eq_false, if_false,
    raiseIf_bind_eq_ok, raiseIfAny_bind_eq_ok, not_and, not_exists,
    Decidable.not_not] at hok
  obtain ⟨hstrategy, hmode, hlog, hmetric, hpath, hnodup, hdefault, hmapping,
    hchecked⟩ := hok
  obtain rfl : config.fillDefault = checked := by
    simpa [pure, Except.pure] using hchecked
  have hisSome := config.fillDefault_isSome
  obtain ⟨default, hfill⟩ := config.fillDefault_eq
  rw [hfill] at hdefault hmapping hisSome ⊢
  refine ⟨rfl, hstrategy, hmode, by simpa using hlog, by simpa using hmetric,
    fun hteachers => hpath (by simpa using hteachers), ?_, ?_, ?_⟩
  · exact List.dedup_eq_self.mp
      ((List.dedup_sublist _).eq_of_length hnodup.symm)
  · intro hteachers
    obtain ⟨name, hname⟩ := hisSome hteachers
    exact ⟨name, hdefault (by simpa using hteachers) name hname, hname⟩
  · intro hteachers entry hentry
    exact hmapping entry hentry (by simpa using hteachers)

/-- `FsdpTeacherConfig.route` raises in two ways: a check of strict routing, or
an ability column that is shorter than the batch. -/
inductive RouteError where
  | valueError (message : Message)
  | indexError
  deriving DecidableEq

end FsdpTeacherConfig

open FsdpTeacherConfig (RouteError)

/-- The teacher of one row. -/
def routeRow (column : List String) (abilityToTeacher : Dict String String)
    (defaultTeacher : String) (strictRouting : Bool) (row : ℕ) :
    Except RouteError String :=
  match column[row]? with
  | none => .error .indexError
  | some ability =>
      match abilityToTeacher.get? ability with
      | some teacher => .ok teacher
      | none =>
          if strictRouting then
            .error (.valueError
              [.text "[MOPD] strict_routing=True but ability '", .str ability,
                .text "' not in ability_to_teacher: ",
                .names (abilityToTeacher.keys.insertionSort (· ≤ ·))])
          else .ok defaultTeacher

/-- `route_by_ability`: the teacher of every row, in batch order.  `abilities`
holds the values of the column as strings, or nothing when the batch has no
such column. -/
def routeByAbility (abilities : Option (List String)) (nSamples : ℕ)
    (abilityToTeacher : Dict String String) (defaultTeacher : String)
    (strictRouting : Bool) : Except RouteError (List String) :=
  if abilityToTeacher.entries = [] then
    .ok (List.replicate nSamples defaultTeacher)
  else
    match abilities with
    | none =>
        if strictRouting then
          .error (.valueError
            [.text "[MOPD] strict_routing=True but 'ability' field missing from batch. ",
              .text "Ensure the training parquet carries an 'ability' column."])
        else .ok (List.replicate nSamples defaultTeacher)
    | some column =>
        (List.range nSamples).mapM
          (routeRow column abilityToTeacher defaultTeacher strictRouting)

namespace FsdpTeacherConfig

/-- The teacher that `route` falls back to. -/
def routeDefault (config : FsdpTeacherConfig) : String :=
  config.defaultTeacher.getD (config.teacherNames.head?.getD "default")

def route (config : FsdpTeacherConfig) (abilities : Option (List String))
    (nSamples : ℕ) : Except RouteError (List String) :=
  routeByAbility abilities nSamples config.abilityToTeacher config.routeDefault
    config.strictRouting

/-- The name that `init_model` gives the only teacher when no `teachers` are
listed.  An empty `default_teacher` counts as absent here. -/
def singleTeacherName (config : FsdpTeacherConfig) : String :=
  if config.defaultTeacher.getD "" = "" then "default"
  else config.defaultTeacher.getD ""

/-- The table of teacher modules that `init_model` builds; a module is
identified with the path it is loaded from. -/
def initModel (config : FsdpTeacherConfig) : Dict String String :=
  if config.teacherPaths.entries = [] then
    Dict.ofList [(config.singleTeacherName, config.modelPath.getD "")]
  else config.teacherPaths

theorem length_of_route {config : FsdpTeacherConfig}
    {abilities : Option (List String)} {nSamples : ℕ} {routes : List String}
    (hok : config.route abilities nSamples = .ok routes) :
    routes.length = nSamples := by
  unfold route routeByAbility at hok
  split at hok
  · cases hok
    simp
  · cases abilities with
    | none =>
        simp only at hok
        split at hok
        · cases hok
        · cases hok
          simp
    | some column => simpa using length_of_mapM hok

/-- A routed name is the fallback or a value of the mapping. -/
theorem mem_route {config : FsdpTeacherConfig}
    {abilities : Option (List String)} {nSamples : ℕ} {routes : List String}
    (hok : config.route abilities nSamples = .ok routes) {name : String}
    (hname : name ∈ routes) :
    (name = config.routeDefault ∧
        ¬ (config.strictRouting = true ∧ config.abilityToTeacher.entries ≠ [])) ∨
      ∃ ability, config.abilityToTeacher.get? ability = some name := by
  unfold route routeByAbility at hok
  split at hok
  next hempty =>
    cases hok
    exact .inl ⟨List.eq_of_mem_replicate hname, by simp [hempty]⟩
  next hmapping =>
    cases abilities with
    | none =>
        simp only at hok
        split at hok
        next => cases hok
        next hstrict =>
          cases hok
          exact .inl ⟨List.eq_of_mem_replicate hname, by simp [hstrict]⟩
    | some column =>
        obtain ⟨row, _, hrow⟩ := exists_of_mem_mapM hok hname
        unfold routeRow at hrow
        split at hrow
        next => cases hrow
        next ability _ =>
          split at hrow
          next teacher hteacher =>
            cases hrow
            exact .inr ⟨ability, hteacher⟩
          next =>
            split at hrow
            next => cases hrow
            next hstrict =>
              cases hrow
              exact .inl ⟨rfl, by simp [hstrict]⟩

/-- The loaded teachers are the listed ones, or the single one. -/
theorem mem_keys_initModel (config : FsdpTeacherConfig) (name : String) :
    name ∈ config.initModel.keys ↔
      (config.teachers ≠ [] ∧ name ∈ config.teacherNames) ∨
        (config.teachers = [] ∧ name = config.singleTeacherName) := by
  have hpaths : ∀ other, other ∈ config.teacherPaths.keys ↔
      other ∈ config.teacherNames := by
    intro other
    rw [teacherPaths, Dict.mem_keys_ofList, List.map_map]
    rfl
  by_cases hteachers : config.teachers = []
  · have hempty : config.teacherPaths.entries = [] := by
      simp [teacherPaths, hteachers, Dict.ofList, Dict.empty]
    rw [initModel, if_pos hempty, Dict.mem_keys_ofList]
    simp [hteachers]
  · have hnonempty : config.teacherPaths.entries ≠ [] := by
      obtain ⟨teacher, rest, hcons⟩ := List.exists_cons_of_ne_nil hteachers
      intro hempty
      have hmem := (hpaths teacher.name).mpr (by simp [teacherNames, hcons])
      simp [Dict.keys, hempty] at hmem
    rw [initModel, if_neg hnonempty, hpaths]
    simp [hteachers]

end FsdpTeacherConfig

end OneShotOPD.TeacherConfig
