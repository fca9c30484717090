import OneShotOPD.Teacher.Config
import OneShotOPD.Teacher.Scored

/-!
# Routes and loaded teachers

The routes of a batch, the table of loaded teachers and the scoring loop are
three readings of one configuration.  The loop visits loaded teachers only, so
a row that is routed to any other name is never scored.  This file says for
which validated configurations that cannot happen.
-/

namespace OneShotOPD.TeacherRouting

open OneShotOPD.Lockstep OneShotOPD.TeacherConfig OneShotOPD.TeacherScoring

variable {R V : Type} {P : TopKKey → Type}

/-- `log_prob_top_k or metric_top_k`. -/
def configuredTopK (config : FsdpTeacherConfig) : ℕ :=
  (if config.logProbTopK = 0 then config.metricTopK else config.logProbTopK).toNat

/-- `compute_rm_score` up to the end of the scoring loop. -/
def computeRmScore (config : FsdpTeacherConfig) (abilities : Option (List String))
    (shard : Shard R) :
    Except FsdpTeacherConfig.RouteError
      (Prog ScoreSend (ScoreRecv V P) (ScoreState V P)) := do
  let routes ← config.route abilities shard.rows.length
  return scoreRows config.initModel.keys (configuredTopK config)
    config.microBatchSizePerGpu shard routes

/-- No batch that a configuration routes is left with an unscored row. -/
structure RoutingTotal (config : FsdpTeacherConfig) : Prop where
  loaded : ∀ abilities nSamples routes,
    config.route abilities nSamples = .ok routes →
      ∀ name ∈ routes, name ∈ config.initModel.keys
  grouped : ∀ abilities nSamples routes,
    config.route abilities nSamples = .ok routes → ∀ row < nSamples,
      ∃ name ∈ config.initModel.keys,
        row ∈ (groupRowsByTeacher routes).getD name []
  scored : ∀ (Rank R V : Type) [Fintype Rank] (P : TopKKey → Type)
    (forward : String → MicroBatch → ForwardOut V P), OneRowEach forward →
    ∀ (abilities : Rank → Option (List String)) (shards : Rank → Shard R)
      (progs : Rank → Prog ScoreSend (ScoreRecv V P) (ScoreState V P)),
    1 ≤ config.microBatchSizePerGpu →
    (∀ rank, computeRmScore config (abilities rank) (shards rank) =
      .ok (progs rank)) →
    ∀ trace states, Joint (scoreExchange forward) progs trace states →
      ∀ rank, ∀ row < (shards rank).rows.length,
        ∃ value, (states rank).teacherLogProbs[row]? = some (some value)

/-- Either teachers are listed, and then validation has compared every name
with them, or every name a row can be routed to is the one that the single
teacher is loaded under.  An empty `default_teacher` loads it as `default`, but
a fallback to it yields the empty name. -/
def RoutesCovered (config : FsdpTeacherConfig) : Prop :=
  config.teachers ≠ [] ∨
    (config.defaultTeacher ≠ some "" ∧
      ∀ entry ∈ config.abilityToTeacher.entries,
        entry.2 = config.defaultTeacher.getD "default") ∨
    (config.defaultTeacher = some "" ∧ config.strictRouting = true ∧
      config.abilityToTeacher.entries ≠ [] ∧
      ∀ entry ∈ config.abilityToTeacher.entries, entry.2 = "default")

/-! ## What routing can return -/

section Reach

variable {config : FsdpTeacherConfig}

/-- Every value of the mapping is returned for some batch. -/
theorem route_mapped {ability teacher : String}
    (hentry : (ability, teacher) ∈ config.abilityToTeacher.entries) :
    config.route (some [ability]) 1 = .ok [teacher] := by
  have hget := (Dict.get?_eq_some_iff _ _ _).mpr hentry
  have hnonempty : config.abilityToTeacher.entries ≠ [] :=
    List.ne_nil_of_mem hentry
  simp [FsdpTeacherConfig.route, routeByAbility, hnonempty, routeRow, hget]

/-- Without strict routing, or without a mapping, the fallback is returned. -/
theorem route_fallback
    (hfallback : ¬ (config.strictRouting = true ∧
      config.abilityToTeacher.entries ≠ [])) :
    config.route none 1 = .ok [config.routeDefault] := by
  by_cases hempty : config.abilityToTeacher.entries = []
  · simp [FsdpTeacherConfig.route, routeByAbility, hempty]
  · have hstrict : config.strictRouting = false := by simpa [hempty] using hfallback
    simp [FsdpTeacherConfig.route, routeByAbility, hempty, hstrict]

theorem routeDefault_of_teachers_nil (hteachers : config.teachers = []) :
    config.routeDefault = config.defaultTeacher.getD "default" := by
  simp [FsdpTeacherConfig.routeDefault, FsdpTeacherConfig.teacherNames, hteachers]

/-- The loaded name is the fallback unless that is empty. -/
theorem singleTeacherName_eq :
    config.singleTeacherName =
      if config.defaultTeacher = some "" then "default"
      else config.defaultTeacher.getD "default" := by
  cases hdefault : config.defaultTeacher with
  | none => simp [FsdpTeacherConfig.singleTeacherName, hdefault]
  | some name => simp [FsdpTeacherConfig.singleTeacherName, hdefault]

end Reach

/-! ## Covered configurations are total -/

section Covered

variable {config : FsdpTeacherConfig} (haccepted : config.Accepted)
  (hcovered : RoutesCovered config)

include haccepted hcovered in
theorem mem_keys_of_mem_route {abilities : Option (List String)} {nSamples : ℕ}
    {routes : List String} (hok : config.route abilities nSamples = .ok routes)
    {name : String} (hname : name ∈ routes) : name ∈ config.initModel.keys := by
  rw [FsdpTeacherConfig.mem_keys_initModel]
  have hroute := FsdpTeacherConfig.mem_route hok hname
  by_cases hteachers : config.teachers = []
  · refine .inr ⟨hteachers, ?_⟩
    rw [singleTeacherName_eq]
    rcases hcovered with hlisted | ⟨hdefault, hmapped⟩ |
      ⟨hdefault, hstrict, hmapping, hmapped⟩
    · exact absurd hteachers hlisted
    · rw [if_neg hdefault]
      rcases hroute with ⟨rfl, _⟩ | ⟨ability, hget⟩
      · exact routeDefault_of_teachers_nil hteachers
      · exact hmapped _ ((Dict.get?_eq_some_iff _ _ _).mp hget)
    · rw [if_pos hdefault]
      rcases hroute with ⟨_, hfallback⟩ | ⟨ability, hget⟩
      · exact absurd ⟨hstrict, hmapping⟩ hfallback
      · exact hmapped _ ((Dict.get?_eq_some_iff _ _ _).mp hget)
  · refine .inl ⟨hteachers, ?_⟩
    rcases hroute with ⟨rfl, _⟩ | ⟨ability, hget⟩
    · obtain ⟨default, hmem, hdefault⟩ := haccepted.default hteachers
      simpa [FsdpTeacherConfig.routeDefault, hdefault] using hmem
    · exact haccepted.mapping hteachers _ ((Dict.get?_eq_some_iff _ _ _).mp hget)

include haccepted hcovered in
theorem row_mem_group {abilities : Option (List String)} {nSamples : ℕ}
    {routes : List String} (hok : config.route abilities nSamples = .ok routes)
    {row : ℕ} (hrow : row < nSamples) :
    ∃ name ∈ config.initModel.keys,
      row ∈ (groupRowsByTeacher routes).getD name [] := by
  have hbound : row < routes.length :=
    FsdpTeacherConfig.length_of_route hok ▸ hrow
  refine ⟨routes[row], mem_keys_of_mem_route haccepted hcovered hok
    (List.getElem_mem hbound), ?_⟩
  rw [getD_groupRowsByTeacher]
  simp [hbound]

include haccepted hcovered in
/-- A joint run over any ranks leaves no entry of the buffer unwritten. -/
theorem no_unscored_row {Rank : Type} [Fintype Rank]
    {forward : String → MicroBatch → ForwardOut V P} (hone : OneRowEach forward)
    {abilities : Rank → Option (List String)} {shards : Rank → Shard R}
    {progs : Rank → Prog ScoreSend (ScoreRecv V P) (ScoreState V P)}
    (hmicro : 1 ≤ config.microBatchSizePerGpu)
    (hprogs : ∀ rank, computeRmScore config (abilities rank) (shards rank) =
      .ok (progs rank))
    {trace : List ScoreOp} {states : Rank → ScoreState V P}
    (hjoint : Joint (scoreExchange forward) progs trace states)
    (rank : Rank) {row : ℕ} (hrow : row < (shards rank).rows.length) :
    ∃ value, (states rank).teacherLogProbs[row]? = some (some value) := by
  have hroute : ∀ other, ∃ routes, config.route (abilities other)
      (shards other).rows.length = .ok routes ∧
        scoreRows config.initModel.keys (configuredTopK config)
          config.microBatchSizePerGpu (shards other) routes = progs other := by
    intro other
    obtain ⟨routes, hok, hprog⟩ := Checks.bind_eq_ok.mp (hprogs other)
    exact ⟨routes, hok, Except.ok.inj hprog⟩
  choose routes hok hprog using hroute
  set names := config.initModel.keys.insertionSort (· ≤ ·)
  have hperm : names.Perm config.initModel.keys := List.perm_insertionSort _ _
  have hrun := joint_scoreRows forward config.initModel.keys
    (configuredTopK config) config.microBatchSizePerGpu shards routes
  obtain rfl : (fun other => scoreRows config.initModel.keys
      (configuredTopK config) config.microBatchSizePerGpu (shards other)
        (routes other)) = progs := funext hprog
  have : Nonempty Rank := ⟨rank⟩
  obtain ⟨_, rfl⟩ := hjoint.unique hrun
  have hscored := rankScored_localRun hone (configuredTopK config) hmicro
    (hperm.nodup_iff.mpr (Dict.keys_nodup _)) shards routes
    (fun other => FsdpTeacherConfig.length_of_route (hok other))
    (fun other name hname => hperm.mem_iff.mpr
      (mem_keys_of_mem_route haccepted hcovered (hok other) hname)) rank
  obtain ⟨call, hcall, position, hposition, _, hrows⟩ := hscored.exists_call hrow
  rw [hscored.teacherLogProbs call hcall position row hposition]
  have hexist : ∀ other ∈ call.rows, other < (shards rank).rows.length :=
    fun other hother => hscored.written_lt hcall (hrows ▸ hother)
  have hposition' : position < call.rows.length :=
    (List.getElem?_eq_some_iff.mp (hrows ▸ hposition)).1
  have hlength := hone.teacherLogProbs call.teacher
    (microBatch (shards rank) (configuredTopK config) call.rows)
  simp only [microBatch, length_selectRows hexist] at hlength
  have hentry : position < (call.output forward (shards rank)
      (configuredTopK config)).teacherLogProbs.length := by
    rw [ForwardCall.output, microBatch, hlength]
    exact hposition'
  exact ⟨_, congrArg some (List.getElem?_eq_getElem hentry)⟩

end Covered

/-- The default that validation fills in makes no difference. -/
theorem routesCovered_fillDefault (config : FsdpTeacherConfig) :
    RoutesCovered config.fillDefault ↔ RoutesCovered config := by
  by_cases hteachers : config.teachers = []
  · have hsame : config.fillDefault = config := by
      simp [FsdpTeacherConfig.fillDefault, FsdpTeacherConfig.teacherNames, hteachers]
    rw [hsame]
  · simp [RoutesCovered, hteachers]

/-- A validated configuration routes every batch to loaded teachers exactly
when its names are covered. -/
theorem routing_total_iff {config checked : FsdpTeacherConfig}
    (henabled : config.enabled = true) (hok : config.postInit = .ok checked) :
    RoutingTotal checked ↔ RoutesCovered config := by
  obtain ⟨rfl, haccepted⟩ := FsdpTeacherConfig.accepted_of_postInit henabled hok
  rw [← routesCovered_fillDefault]
  set checked := config.fillDefault
  constructor
  · intro htotal
    by_cases hteachers : checked.teachers = []
    · have hsingle : ∀ name, name ∈ checked.initModel.keys →
          name = if checked.defaultTeacher = some "" then "default"
            else checked.defaultTeacher.getD "default" := by
        intro name hname
        rw [FsdpTeacherConfig.mem_keys_initModel] at hname
        simpa [hteachers, singleTeacherName_eq] using hname
      have hmapped : ∀ entry ∈ checked.abilityToTeacher.entries,
          entry.2 = if checked.defaultTeacher = some "" then "default"
            else checked.defaultTeacher.getD "default" := fun entry hentry =>
        hsingle _ (htotal.loaded _ _ _ (route_mapped hentry) _ (by simp))
      by_cases hdefault : checked.defaultTeacher = some ""
      · simp only [if_pos hdefault] at hmapped hsingle
        have hstrict : checked.strictRouting = true ∧
            checked.abilityToTeacher.entries ≠ [] := by
          by_contra hfallback
          have hname := hsingle _ (htotal.loaded _ _ _ (route_fallback hfallback) _
            (List.mem_singleton.mpr rfl))
          rw [routeDefault_of_teachers_nil hteachers, hdefault] at hname
          simp at hname
        exact .inr (.inr ⟨hdefault, hstrict.1, hstrict.2, hmapped⟩)
      · simp only [if_neg hdefault] at hmapped
        exact .inr (.inl ⟨hdefault, hmapped⟩)
    · exact .inl hteachers
  · intro hcovered
    exact
      { loaded := fun _ _ _ hroute _ hname =>
          mem_keys_of_mem_route haccepted hcovered hroute hname
        grouped := fun _ _ _ hroute _ hrow =>
          row_mem_group haccepted hcovered hroute hrow
        scored := fun _ _ _ _ _ _ hone _ _ _ hmicro hprogs _ _ hjoint rank _ hrow =>
          no_unscored_row haccepted hcovered hone hmicro hprogs hjoint rank hrow }

/-- One model path, and a mapping to a name of its own. -/
def mappedSinglePath : FsdpTeacherConfig where
  enabled := true
  modelPath := some "teacher-7b"
  abilityToTeacher := Dict.ofList [("math", "math_teacher")]

theorem routing_total_iff_mappedSinglePath :
    mappedSinglePath.enabled = true ∧
      mappedSinglePath.postInit = .ok mappedSinglePath ∧
      (RoutingTotal mappedSinglePath ↔ RoutesCovered mappedSinglePath) := by
  have hok : mappedSinglePath.postInit = .ok mappedSinglePath := by rfl
  exact ⟨rfl, hok, routing_total_iff rfl hok⟩

/-- Validation accepts it, the row is routed to `math_teacher`, and the only
loaded teacher is called `default`. -/
theorem mappedSinglePath_not_total :
    mappedSinglePath.enabled = true ∧
      mappedSinglePath.postInit = .ok mappedSinglePath ∧
      mappedSinglePath.route (some ["math"]) 1 = .ok ["math_teacher"] ∧
      mappedSinglePath.initModel.keys = ["default"] ∧
      ¬ RoutingTotal mappedSinglePath := by
  have hroute : mappedSinglePath.route (some ["math"]) 1 =
    .ok ["math_teacher"] := by rfl
  have hkeys : mappedSinglePath.initModel.keys = ["default"] := by rfl
  refine ⟨rfl, rfl, hroute, hkeys, fun htotal => ?_⟩
  have hmem := htotal.loaded _ _ _ hroute "math_teacher" (by simp)
  simp [hkeys] at hmem

end OneShotOPD.TeacherRouting
