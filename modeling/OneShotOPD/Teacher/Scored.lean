import OneShotOPD.Teacher.Schedule

/-!
# Every row is scored once, by its own teacher

What the scoring loop leaves on each rank: which rows were written by which
forward, and what the buffers hold.  When a teacher treats the rows of a
micro-batch independently, the buffers are the row-wise map of the routed
teachers, whatever the grouping was.
-/

namespace OneShotOPD.TeacherScoring

open OneShotOPD.Lockstep

variable {R V : Type} {P : TopKKey → Type} {Rank : Type} [Fintype Rank]

/-- The result that a rank got from one of its calls. -/
def ForwardCall.output (call : ForwardCall)
    (forward : String → MicroBatch → ForwardOut V P) (shard : Shard R)
    (topK : ℕ) : ForwardOut V P :=
  forward call.teacher (microBatch shard topK call.rows)

/-- The final state of a rank, read through the forwards it issued. -/
structure RankScored (forward : String → MicroBatch → ForwardOut V P)
    (topK : ℕ) (shard : Shard R) (routes : List String)
    (state : ScoreState V P) : Prop where
  writtenOnce : (state.calls.flatMap ForwardCall.written).Perm
    (List.range shard.rows.length)
  routed : ∀ call ∈ state.calls, ∀ row ∈ call.written,
    routes[row]? = some call.teacher
  throwaway : ∀ call ∈ state.calls, call.written = call.rows ∨
    (call.written = [] ∧ call.rows = [0])
  teacherLogProbs : ∀ call ∈ state.calls, ∀ position row : ℕ,
    call.written[position]? = some row →
      state.teacherLogProbs[row]? =
        some (call.output forward shard topK).teacherLogProbs[position]?
  topKParts : shard.useTopK topK → ∀ key ∈ keptKeys, ∀ call ∈ state.calls,
    ∀ position row : ℕ, call.written[position]? = some row →
      ∃ buffer value, state.topKParts key = some buffer ∧
        (call.output forward shard topK).topK key = some value ∧
          buffer[row]? = some value[position]?

/-! ## One rank -/

private theorem keptEntries_getElem? {α : Type} {chunk : List ℕ}
    {entries : List α} (hlength : chunk.length = entries.length)
    {position row : ℕ} (hrow : chunk[position]? = some row) :
    (keptEntries chunk entries)[position]? = some entries[position]? := by
  obtain ⟨hposition, _⟩ := List.getElem?_eq_some_iff.mp hrow
  have hchunk : chunk ≠ [] := List.ne_nil_of_length_pos (by omega)
  have hentry : position < entries.length := by omega
  simp [keptEntries, hchunk, hentry]

section Rank

variable {forward : String → MicroBatch → ForwardOut V P}
  (hone : OneRowEach forward) (topK : ℕ) {microBs : ℕ} (hmicro : 1 ≤ microBs)
  {names : List String} (hnodup : names.Nodup)
  (shards : Rank → Shard R) (routes : Rank → List String)
  (hlength : ∀ rank, (routes rank).length = (shards rank).rows.length)
  (hroutes : ∀ rank, ∀ name ∈ routes rank, name ∈ names)

include hmicro hnodup hlength hroutes in
/-- Over the schedule a rank writes each of its rows once. -/
theorem writtenRows_perm (rank : Rank) :
    (writtenRows names (maxCounts names microBs routes) microBs
      (routes rank)).Perm (List.range (shards rank).rows.length) := by
  rw [writtenRows_eq hmicro routes rank, ← hlength rank]
  exact groups_perm_range hnodup (hroutes rank)

include hone hmicro hnodup hlength hroutes in
theorem rankScored_localRun (rank : Rank) :
    RankScored forward topK (shards rank) (routes rank)
      (localRun forward names (maxCounts names microBs routes) topK microBs
        (shards rank) (routes rank)) := by
  set nMicro := maxCounts names microBs routes
  set order := groupRowsByTeacher (routes rank) with horder
  have hperm := writtenRows_perm hmicro hnodup shards routes hlength hroutes rank
  have hwritten : (writtenRows names nMicro microBs (routes rank)).Nodup :=
    hperm.nodup_iff.mpr List.nodup_range
  have hcalls := calls_localRun forward names nMicro topK microBs (shards rank)
    (routes rank)
  have hitem : ∀ call ∈ (localRun forward names nMicro topK microBs
      (shards rank) (routes rank)).calls,
      ∃ item ∈ schedule names nMicro, callOf order microBs item = call := by
    intro call hcall
    rw [hcalls] at hcall
    exact List.mem_map.mp hcall
  have hbounds : ∀ item : String × ℕ,
      ∀ row ∈ chunkAt order microBs item.1 item.2,
        row < (shards rank).rows.length := by
    intro item row hrow
    obtain ⟨hbound, _⟩ :=
      List.getElem?_eq_some_iff.mp (route_of_mem_chunkAt hrow)
    exact hlength rank ▸ hbound
  -- A forward that writes passed the rows it writes, so its result has one
  -- entry for each of them.
  have hentries : ∀ (item : String × ℕ) (position row : ℕ),
      (chunkAt order microBs item.1 item.2)[position]? = some row →
      (microBatch (shards rank) topK (rowsOrFirst
        (chunkAt order microBs item.1 item.2))).rows.length =
          (chunkAt order microBs item.1 item.2).length := by
    intro item position row hrow
    obtain ⟨hposition, _⟩ := List.getElem?_eq_some_iff.mp hrow
    have hchunk : chunkAt order microBs item.1 item.2 ≠ [] :=
      List.ne_nil_of_length_pos (by omega)
    simp [microBatch, rowsOrFirst, hchunk, length_selectRows (hbounds item)]
  constructor
  case writtenOnce =>
    rw [hcalls, List.flatMap_map]
    exact hperm
  case routed =>
    intro call hcall row hrow
    obtain ⟨item, _, rfl⟩ := hitem call hcall
    exact route_of_mem_chunkAt hrow
  case throwaway =>
    intro call hcall
    obtain ⟨item, _, rfl⟩ := hitem call hcall
    by_cases hchunk : chunkAt order microBs item.1 item.2 = []
    · exact .inr (by simp [callOf, rowsOrFirst, hchunk])
    · exact .inl (by simp [callOf, rowsOrFirst, hchunk])
  case teacherLogProbs =>
    intro call hcall position row hrow
    obtain ⟨item, hmem, rfl⟩ := hitem call hcall
    have hout := hone.teacherLogProbs item.1 (microBatch (shards rank) topK
      (rowsOrFirst (chunkAt order microBs item.1 item.2)))
    have hkept := keptEntries_getElem?
      ((hentries item position row hrow).symm.trans hout.symm) hrow
    rw [teacherLogProbs_localRun hone (shards rank) topK microBs (hlength rank)]
    refine getElem?_scatter_of_mem_zip _ hwritten
      (mem_zip_flatMap ?_ hmem (mem_zip_of_getElem? hrow hkept)) ?_
    · intro other _
      exact length_keptEntries (shards rank) topK microBs (hlength rank) other
        (hone.teacherLogProbs _ _)
    · simpa using hbounds item row (List.mem_of_getElem? hrow)
  case topKParts =>
    intro hused key hkey call hcall position row hrow
    obtain ⟨item, hmem, rfl⟩ := hitem call hcall
    obtain ⟨value, hvalue, hout⟩ :=
      topK_outputOf hone (shards rank) topK microBs hused order item key
    have hkept := keptEntries_getElem?
      ((hentries item position row hrow).symm.trans hout.symm) hrow
    have hnonempty : writtenRows names nMicro microBs (routes rank) ≠ [] :=
      List.ne_nil_of_mem
        (List.mem_flatMap.mpr ⟨item, hmem, List.mem_of_getElem? hrow⟩)
    refine ⟨_, value, (topKParts_localRun hone (shards rank) topK microBs
      (hlength rank) hused hkey names nMicro).trans (if_neg hnonempty), hvalue, ?_⟩
    refine getElem?_scatter_of_mem_zip _ hwritten
      (mem_zip_flatMap ?_ hmem (mem_zip_of_getElem? hrow ?_)) ?_
    · intro other _
      obtain ⟨found, hfound, hlen⟩ :=
        topK_outputOf hone (shards rank) topK microBs hused order other key
      rw [← horder, hfound, Option.getD_some]
      exact length_keptEntries (shards rank) topK microBs (hlength rank) other hlen
    · rw [← horder, hvalue, Option.getD_some]
      exact hkept
    · simpa using hbounds item row (List.mem_of_getElem? hrow)

end Rank

/-! ## Row-wise teachers -/

/-- A forward that treats the rows of a micro-batch independently: the entry of
a row is a function of that row and its candidates. -/
structure RowWise (forward : String → MicroBatch → ForwardOut V P) where
  logProb : String → RowInputs → V
  part : (key : TopKKey) → String → ℕ → RowInputs → RowCandidates → P key
  teacherLogProbs_eq : ∀ name batch,
    (forward name batch).teacherLogProbs = batch.rows.map (logProb name)
  topK_eq : ∀ name batch ids key, 0 < batch.topK →
    batch.studentTopKIds = some ids →
      (forward name batch).topK key =
        some (List.zipWith (part key name batch.topK) batch.rows ids)

namespace RankScored

variable {forward : String → MicroBatch → ForwardOut V P} {topK : ℕ}
  {shard : Shard R} {routes : List String} {state : ScoreState V P}

theorem written_lt (hscored : RankScored forward topK shard routes state)
    {call : ForwardCall} (hcall : call ∈ state.calls) {row : ℕ}
    (hrow : row ∈ call.written) : row < shard.rows.length := by
  have hmem : row ∈ state.calls.flatMap ForwardCall.written :=
    List.mem_flatMap.mpr ⟨call, hcall, hrow⟩
  simpa using hscored.writtenOnce.mem_iff.mp hmem

/-- On a rank that has rows no forward asks for a row that does not exist. -/
theorem rowsExist (hscored : RankScored forward topK shard routes state)
    (hrows : shard.rows ≠ []) {call : ForwardCall} (hcall : call ∈ state.calls)
    {row : ℕ} (hrow : row ∈ call.rows) : row < shard.rows.length := by
  rcases hscored.throwaway call hcall with heq | ⟨_, hfirst⟩
  · exact hscored.written_lt hcall (heq ▸ hrow)
  · obtain rfl : row = 0 := by simpa [hfirst] using hrow
    exact List.length_pos_of_ne_nil hrows

/-- Every row was written by some forward of its teacher. -/
theorem exists_call (hscored : RankScored forward topK shard routes state)
    {row : ℕ} (hrow : row < shard.rows.length) :
    ∃ call ∈ state.calls, ∃ position : ℕ, call.written[position]? = some row ∧
      routes[row]? = some call.teacher ∧ call.written = call.rows := by
  have hmem : row ∈ state.calls.flatMap ForwardCall.written :=
    hscored.writtenOnce.mem_iff.mpr (by simpa using hrow)
  obtain ⟨call, hcall, hwritten⟩ := List.mem_flatMap.mp hmem
  obtain ⟨position, hposition⟩ := List.mem_iff_getElem?.mp hwritten
  refine ⟨call, hcall, position, hposition,
    hscored.routed call hcall row hwritten, ?_⟩
  rcases hscored.throwaway call hcall with heq | ⟨hempty, _⟩
  · exact heq
  · simp [hempty] at hwritten

/-- The log-prob of a row is what its own teacher says of it. -/
theorem teacherLogProbs_rowWise
    (hscored : RankScored forward topK shard routes state)
    (rowWise : RowWise forward) {row : ℕ} {name : String} {inputs : RowInputs}
    (hname : routes[row]? = some name) (hinputs : shard.rows[row]? = some inputs) :
    state.teacherLogProbs[row]? = some (some (rowWise.logProb name inputs)) := by
  obtain ⟨hrow, _⟩ := List.getElem?_eq_some_iff.mp hinputs
  obtain ⟨call, hcall, position, hposition, hteacher, hrows⟩ :=
    hscored.exists_call hrow
  obtain rfl : name = call.teacher :=
    Option.some.inj (hname.symm.trans hteacher)
  have hbatch : (selectRows shard.rows call.rows)[position]? = some inputs := by
    rw [← hinputs]
    exact getElem?_selectRows
      (fun other hother => hscored.written_lt hcall (hrows ▸ hother))
      (hrows ▸ hposition)
  rw [hscored.teacherLogProbs call hcall position row hposition,
    ForwardCall.output, rowWise.teacherLogProbs_eq, List.getElem?_map]
  simp [microBatch, hbatch]

/-- And so are its top-K parts. -/
theorem topKParts_rowWise
    (hscored : RankScored forward topK shard routes state)
    (rowWise : RowWise forward) (hused : shard.useTopK topK) {key : TopKKey}
    (hkey : key ∈ keptKeys) {ids : List RowCandidates}
    (hids : shard.studentTopKIds = some ids) {row : ℕ} {name : String}
    {inputs : RowInputs} {candidates : RowCandidates}
    (hname : routes[row]? = some name) (hinputs : shard.rows[row]? = some inputs)
    (hcandidates : ids[row]? = some candidates) :
    ∃ buffer, state.topKParts key = some buffer ∧ buffer[row]? =
      some (some (rowWise.part key name topK inputs candidates)) := by
  obtain ⟨hrow, _⟩ := List.getElem?_eq_some_iff.mp hinputs
  obtain ⟨call, hcall, position, hposition, hteacher, hrows⟩ :=
    hscored.exists_call hrow
  obtain rfl : name = call.teacher :=
    Option.some.inj (hname.symm.trans hteacher)
  have hcallRow : call.rows[position]? = some row := hrows ▸ hposition
  have hexist : ∀ other ∈ call.rows, other < shard.rows.length :=
    fun other hother => hscored.written_lt hcall (hrows ▸ hother)
  have hbatch : (selectRows shard.rows call.rows)[position]? = some inputs := by
    rw [← hinputs]
    exact getElem?_selectRows hexist hcallRow
  have hbatchIds : (selectRows ids call.rows)[position]? = some candidates := by
    rw [← hcandidates]
    refine getElem?_selectRows (fun other hother => ?_) hcallRow
    rw [shard.ids_length ids hids]
    exact hexist other hother
  obtain ⟨buffer, value, hbuffer, hvalue, hget⟩ :=
    hscored.topKParts hused key hkey call hcall position row hposition
  refine ⟨buffer, hbuffer, ?_⟩
  have hpart := rowWise.topK_eq call.teacher (microBatch shard topK call.rows)
    (selectRows ids call.rows) key (by simp [microBatch, hused, hused.1])
    (by simp [microBatch, hused, hids])
  obtain rfl := Option.some.inj (hvalue.symm.trans hpart)
  rw [hget]
  simp [microBatch, hused, hbatch, hbatchIds, List.getElem?_zipWith]

end RankScored

/-! ## The whole job -/

/-- Whatever rows the ranks hold and wherever they are routed, all ranks enter
the same forwards in the same order, every rank writes each of its rows once,
and row-wise teachers make the result the map of each row to its own teacher. -/
theorem ranks_score_every_row_once
    (forward : String → MicroBatch → ForwardOut V P)
    (hone : OneRowEach forward) {teacherNames : List String}
    (hnodup : teacherNames.Nodup) (topK : ℕ) {microBs : ℕ} (hmicro : 1 ≤ microBs)
    (shards : Rank → Shard R) (hrows : ∀ rank, (shards rank).rows ≠ [])
    (routes : Rank → List String)
    (hlength : ∀ rank, (routes rank).length = (shards rank).rows.length)
    (hroutes : ∀ rank, ∀ name ∈ routes rank, name ∈ teacherNames) :
    ∃ (teachers : List String) (states : Rank → ScoreState V P),
      Joint (scoreExchange forward)
        (fun rank => scoreRows teacherNames topK microBs (shards rank)
          (routes rank))
        (.allReduceMax teacherNames.length :: teachers.map .forward) states ∧
      ∀ rank, (states rank).calls.map ForwardCall.teacher = teachers ∧
        RankScored forward topK (shards rank) (routes rank) (states rank) ∧
        (∀ call ∈ (states rank).calls, ∀ row ∈ call.rows,
          row < (shards rank).rows.length) ∧
        ∀ rowWise : RowWise forward, ∀ (row : ℕ) (name : String)
          (inputs : RowInputs), (routes rank)[row]? = some name →
          (shards rank).rows[row]? = some inputs →
            (states rank).teacherLogProbs[row]? =
              some (some (rowWise.logProb name inputs)) ∧
            ((shards rank).useTopK topK → ∀ key ∈ keptKeys,
              ∀ ids, (shards rank).studentTopKIds = some ids →
              ∀ candidates, ids[row]? = some candidates →
                ∃ buffer, (states rank).topKParts key = some buffer ∧
                  buffer[row]? =
                    some (some (rowWise.part key name topK inputs candidates))) := by
  set names := teacherNames.insertionSort (· ≤ ·) with hnames
  have hperm : names.Perm teacherNames := List.perm_insertionSort _ _
  have hjoint := joint_scoreRows forward teacherNames topK microBs shards routes
  simp only [← hnames, hperm.length_eq] at hjoint
  set nMicro := maxCounts names microBs routes
  refine ⟨(schedule names nMicro).map Prod.fst, _,
    by rw [List.map_map]; exact hjoint, fun rank => ?_⟩
  have hscored := rankScored_localRun hone topK hmicro
    (hperm.nodup_iff.mpr hnodup) shards routes hlength
    (fun rank name hname => hperm.mem_iff.mpr (hroutes rank name hname)) rank
  refine ⟨?_, hscored, fun call hcall row => hscored.rowsExist (hrows rank) hcall, ?_⟩
  · rw [calls_localRun, List.map_map]
    rfl
  · intro rowWise row name inputs hname hinputs
    refine ⟨hscored.teacherLogProbs_rowWise rowWise hname hinputs, ?_⟩
    intro hused key hkey ids hids candidates hcandidates
    exact hscored.topKParts_rowWise rowWise hused hkey hids hname hinputs
      hcandidates

/-- A teacher that answers every row with its own name. -/
def namingTeacher (name : String) (batch : MicroBatch) :
    ForwardOut String fun _ => RowCandidates where
  teacherLogProbs := batch.rows.map fun _ => name
  topK := fun _ => batch.studentTopKIds

theorem namingTeacher_oneRowEach : OneRowEach namingTeacher := by
  constructor
  · intro name batch
    simp [namingTeacher]
  · intro name batch key _ hids
    obtain ⟨ids, hids⟩ := Option.isSome_iff_exists.mp hids
    exact ⟨ids, hids, batch.ids_length ids hids⟩

/-- A shard of rows without tokens. -/
def blankShard (rowCount : ℕ) : Shard Unit where
  rows := List.replicate rowCount ⟨[], [], [], []⟩
  studentTopKIds := none
  studentTopKLogProbs := none
  ids_length := by simp

theorem two_ranks_score_every_row_once :
    ∃ (teachers : List String)
      (states : Bool → ScoreState String fun _ => RowCandidates),
      Joint (scoreExchange namingTeacher)
        (fun rank : Bool => scoreRows ["math", "code"] 0 2
          (blankShard (if rank then 3 else 1))
          (if rank then ["code", "math", "code"] else ["math"]))
        (.allReduceMax 2 :: teachers.map .forward) states ∧
      ∀ rank, (states rank).calls.map ForwardCall.teacher = teachers := by
  have hnodup : ["math", "code"].Nodup := by decide
  have hmicro : 1 ≤ 2 := by decide
  obtain ⟨teachers, states, hjoint, hranks⟩ := ranks_score_every_row_once
    namingTeacher namingTeacher_oneRowEach hnodup 0 hmicro
    (fun rank : Bool => blankShard (if rank then 3 else 1))
    (by decide) (fun rank => if rank then ["code", "math", "code"] else ["math"])
    (by decide) (by decide)
  exact ⟨teachers, states, hjoint, fun rank => (hranks rank).1⟩

end OneShotOPD.TeacherScoring
