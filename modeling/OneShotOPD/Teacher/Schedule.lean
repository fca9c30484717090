import OneShotOPD.Teacher.Scoring
import Mathlib

/-!
# All ranks issue the same forwards

The joint run of the scoring loop over any number of ranks, and what is in the
buffers of each rank at its end.
-/

namespace OneShotOPD.TeacherScoring

open OneShotOPD.Lockstep

variable {R V : Type} {P : TopKKey → Type} {Rank : Type} [Fintype Rank]

/-- The forwards of the loop in order: a teacher and a micro-batch number. -/
def schedule (names : List String) (nMicro : List ℕ) : List (String × ℕ) :=
  names.zipIdx.flatMap fun entry =>
    (List.range (nMicro.getD entry.2 0)).map fun step => (entry.1, step)

/-- The counts after the all-reduce. -/
def maxCounts (names : List String) (microBs : ℕ)
    (routes : Rank → List String) : List ℕ :=
  (List.range names.length).map fun index =>
    Finset.univ.sup fun rank =>
      (localMicroBatchCounts (groupRowsByTeacher (routes rank)) names
        microBs).getD index 0

/-- What one forward of the schedule does to the state of a rank. -/
def localStep (forward : String → MicroBatch → ForwardOut V P) (shard : Shard R)
    (topK microBs : ℕ) (order : Dict String (List ℕ)) (state : ScoreState V P)
    (item : String × ℕ) : ScoreState V P :=
  let chunk := chunkAt order microBs item.1 item.2
  absorb shard.rows.length item.1 chunk state
    (forward item.1 (microBatch shard topK (rowsOrFirst chunk)))

/-- The final state of a rank that follows the schedule. -/
def localRun (forward : String → MicroBatch → ForwardOut V P)
    (names : List String) (nMicro : List ℕ) (topK microBs : ℕ) (shard : Shard R)
    (routes : List String) : ScoreState V P :=
  (schedule names nMicro).foldl
    (localStep forward shard topK microBs (groupRowsByTeacher routes))
    (emptyState shard.rows.length)

private theorem allReduceMax_eq (counts : List ℕ) {length : ℕ}
    (hlength : counts.length = length) :
    (allReduceMax counts : Prog ScoreSend (ScoreRecv V P) (List ℕ)) =
      Prog.enter (ScoreOp.allReduceMax length) counts := by
  subst hlength
  rfl

/-- The all-reduce hands every rank the maxima over all ranks. -/
theorem joint_allReduceMax (forward : String → MicroBatch → ForwardOut V P)
    (names : List String) (microBs : ℕ) (routes : Rank → List String) :
    Joint (scoreExchange forward)
      (fun rank => allReduceMax
        (localMicroBatchCounts (groupRowsByTeacher (routes rank)) names microBs))
      [.allReduceMax names.length] (fun _ => maxCounts names microBs routes) := by
  have heq : ∀ rank, (allReduceMax (localMicroBatchCounts
      (groupRowsByTeacher (routes rank)) names microBs) :
        Prog ScoreSend (ScoreRecv V P) (List ℕ)) =
      Prog.enter (ScoreOp.allReduceMax names.length) (localMicroBatchCounts
        (groupRowsByTeacher (routes rank)) names microBs) := fun rank =>
    allReduceMax_eq _ (by simp [localMicroBatchCounts])
  simp only [heq]
  exact Joint.enter (ScoreOp.allReduceMax names.length) _

/-- The micro-batches of one teacher. -/
theorem joint_microSteps (forward : String → MicroBatch → ForwardOut V P)
    (topK microBs count : ℕ) (name : String) (shards : Rank → Shard R)
    (routes : Rank → List String) (states : Rank → ScoreState V P) :
    Joint (scoreExchange forward)
      (fun rank => (List.range count).foldlM
        (microStep (shards rank) topK microBs (groupRowsByTeacher (routes rank))
          name) (states rank))
      ((List.range count).flatMap fun _ => [.forward name])
      (fun rank => (List.range count).foldl
        (fun state step => localStep forward (shards rank) topK microBs
          (groupRowsByTeacher (routes rank)) state (name, step))
        (states rank)) := by
  apply Joint.foldlM
  intro step _ states
  exact (Joint.enter (ScoreOp.forward name) _).bind (Joint.pure _)

/-- Whatever rows the ranks hold, they meet in one all-reduce and then in the
forwards of one common schedule. -/
theorem joint_scoreRows (forward : String → MicroBatch → ForwardOut V P)
    (teacherNames : List String) (topK microBs : ℕ) (shards : Rank → Shard R)
    (routes : Rank → List String) :
    let names := teacherNames.insertionSort (· ≤ ·)
    let nMicro := maxCounts names microBs routes
    Joint (scoreExchange forward)
      (fun rank => scoreRows teacherNames topK microBs (shards rank) (routes rank))
      (.allReduceMax names.length ::
        (schedule names nMicro).map fun item => .forward item.1)
      (fun rank => localRun forward names nMicro topK microBs (shards rank)
        (routes rank)) := by
  intro names nMicro
  have hloop := Joint.foldlM
    (fun rank (state : ScoreState V P) (entry : String × ℕ) =>
      (List.range (nMicro.getD entry.2 0)).foldlM
        (microStep (shards rank) topK microBs (groupRowsByTeacher (routes rank))
          entry.1) state)
    (fun entry => (List.range (nMicro.getD entry.2 0)).flatMap
      fun _ => [ScoreOp.forward entry.1])
    (fun rank state entry => (List.range (nMicro.getD entry.2 0)).foldl
      (fun state step => localStep forward (shards rank) topK microBs
        (groupRowsByTeacher (routes rank)) state (entry.1, step)) state)
    names.zipIdx
    (fun entry _ states => joint_microSteps forward topK microBs
      (nMicro.getD entry.2 0) entry.1 shards routes states)
    (fun rank => emptyState (shards rank).rows.length)
  have htrace : (schedule names nMicro).map (fun item => ScoreOp.forward item.1) =
      names.zipIdx.flatMap fun entry =>
        (List.range (nMicro.getD entry.2 0)).flatMap
          fun _ => [ScoreOp.forward entry.1] := by
    simp only [schedule, List.map_flatMap, List.map_map]
    exact List.flatMap_congr fun entry _ => List.map_eq_flatMap
  have hvalues : (fun rank => localRun forward names nMicro topK microBs
        (shards rank) (routes rank)) =
      fun rank => names.zipIdx.foldl
        (fun state entry => (List.range (nMicro.getD entry.2 0)).foldl
          (fun state step => localStep forward (shards rank) topK microBs
            (groupRowsByTeacher (routes rank)) state (entry.1, step)) state)
        (emptyState (shards rank).rows.length) := by
    funext rank
    simp only [localRun, schedule, List.foldl_flatMap, List.foldl_map]
  rw [htrace, hvalues]
  exact (joint_allReduceMax forward names microBs routes).bind hloop

/-! ## One rank -/

/-- The rows that a rank writes over the schedule, in order. -/
def writtenRows (names : List String) (nMicro : List ℕ) (microBs : ℕ)
    (routes : List String) : List ℕ :=
  (schedule names nMicro).flatMap fun item =>
    chunkAt (groupRowsByTeacher routes) microBs item.1 item.2

private theorem le_mul_ceil (length : ℕ) {microBs : ℕ} (hmicro : 1 ≤ microBs) :
    length ≤ (length + microBs - 1) / microBs * microBs := by
  have hdiv := Nat.div_add_mod (length + microBs - 1) microBs
  have hmod := Nat.mod_lt (length + microBs - 1) hmicro
  rw [Nat.mul_comm] at hdiv
  omega

/-- The reduced count of a teacher covers the rows of every rank. -/
theorem length_le_maxCounts {names : List String} {microBs : ℕ}
    (hmicro : 1 ≤ microBs) (routes : Rank → List String) (rank : Rank)
    {name : String} {index : ℕ} (hname : names[index]? = some name) :
    ((groupRowsByTeacher (routes rank)).getD name []).length ≤
      (maxCounts names microBs routes).getD index 0 * microBs := by
  obtain ⟨hindex, hget⟩ := List.getElem?_eq_some_iff.mp hname
  set order := groupRowsByTeacher (routes rank)
  have hlocal : (localMicroBatchCounts order names microBs).getD index 0 =
      ((order.getD name []).length + microBs - 1) / microBs := by
    simp [localMicroBatchCounts, List.getD_eq_getElem?_getD, hname]
  have hsup : (localMicroBatchCounts order names microBs).getD index 0 ≤
      (maxCounts names microBs routes).getD index 0 := by
    have hmax : (maxCounts names microBs routes).getD index 0 =
        Finset.univ.sup fun rank => (localMicroBatchCounts
          (groupRowsByTeacher (routes rank)) names microBs).getD index 0 := by
      simp [maxCounts, List.getD_eq_getElem?_getD, hindex]
    rw [hmax]
    exact Finset.le_sup_of_le (Finset.mem_univ rank) (Nat.le_refl _)
  calc
    (order.getD name []).length ≤
        ((order.getD name []).length + microBs - 1) / microBs * microBs :=
      le_mul_ceil _ hmicro
    _ ≤ (maxCounts names microBs routes).getD index 0 * microBs := by
      rw [← hlocal]
      exact Nat.mul_le_mul_right _ hsup

/-- Over the schedule a rank writes the group of each teacher in turn. -/
theorem writtenRows_eq {names : List String} {microBs : ℕ}
    (hmicro : 1 ≤ microBs) (routes : Rank → List String) (rank : Rank) :
    writtenRows names (maxCounts names microBs routes) microBs (routes rank) =
      names.flatMap fun name =>
        (groupRowsByTeacher (routes rank)).getD name [] := by
  have hteacher : ∀ entry ∈ names.zipIdx,
      (List.range ((maxCounts names microBs routes).getD entry.2 0)).flatMap
          (fun step =>
            chunkAt (groupRowsByTeacher (routes rank)) microBs entry.1 step) =
        (groupRowsByTeacher (routes rank)).getD entry.1 [] := by
    intro entry hentry
    have hname : names[entry.2]? = some entry.1 :=
      List.mem_zipIdx_iff_getElem?.mp hentry
    simp only [chunkAt]
    rw [flatMap_slices]
    exact List.take_of_length_le
      (length_le_maxCounts hmicro routes rank hname)
  calc
    writtenRows names (maxCounts names microBs routes) microBs (routes rank) =
        names.zipIdx.flatMap fun entry =>
          (List.range ((maxCounts names microBs routes).getD entry.2 0)).flatMap
            fun step =>
              chunkAt (groupRowsByTeacher (routes rank)) microBs entry.1 step := by
      simp [writtenRows, schedule, List.flatMap_assoc, List.flatMap_map]
    _ = names.zipIdx.flatMap fun entry =>
          (groupRowsByTeacher (routes rank)).getD entry.1 [] :=
      List.flatMap_congr hteacher
    _ = names.flatMap fun name =>
          (groupRowsByTeacher (routes rank)).getD name [] := by
      rw [← List.zipIdx_map_fst 0 names, List.flatMap_map, List.zipIdx_map_fst]

/-- The call that a forward of the schedule leaves in the record. -/
def callOf (order : Dict String (List ℕ)) (microBs : ℕ) (item : String × ℕ) :
    ForwardCall where
  teacher := item.1
  rows := rowsOrFirst (chunkAt order microBs item.1 item.2)
  written := chunkAt order microBs item.1 item.2

theorem calls_localRun (forward : String → MicroBatch → ForwardOut V P)
    (names : List String) (nMicro : List ℕ) (topK microBs : ℕ) (shard : Shard R)
    (routes : List String) :
    (localRun forward names nMicro topK microBs shard routes).calls =
      (schedule names nMicro).map (callOf (groupRowsByTeacher routes) microBs) := by
  have hstep : ∀ (state : ScoreState V P) (item : String × ℕ),
      (localStep forward shard topK microBs (groupRowsByTeacher routes) state
          item).calls =
        state.calls ++ [callOf (groupRowsByTeacher routes) microBs item] := by
    intro state item
    simp only [localStep, absorb, callOf]
    split <;> simp_all
  have hfold : ∀ (items : List (String × ℕ)) (state : ScoreState V P),
      (items.foldl (localStep forward shard topK microBs
          (groupRowsByTeacher routes)) state).calls =
        state.calls ++
          items.map (callOf (groupRowsByTeacher routes) microBs) := by
    intro items
    induction items with
    | nil => simp
    | cons item items ih =>
        intro state
        rw [List.foldl_cons, ih, hstep]
        simp
  simpa [localRun, emptyState] using hfold (schedule names nMicro) (emptyState _)

/-- A row of a micro-batch is a row of the batch that is routed to the teacher
of the micro-batch. -/
theorem route_of_mem_chunkAt {routes : List String} {microBs step row : ℕ}
    {name : String}
    (hrow : row ∈ chunkAt (groupRowsByTeacher routes) microBs name step) :
    routes[row]? = some name := by
  have hgroup : row ∈ (groupRowsByTeacher routes).getD name [] :=
    List.mem_of_mem_drop (List.mem_of_mem_take hrow)
  rw [getD_groupRowsByTeacher, List.mem_filter] at hgroup
  simpa using hgroup.2

/-! ## The buffers -/

/-- A forward has one output entry for each row it is given, and adds the top-K
keys exactly when it is given candidates. -/
structure OneRowEach (forward : String → MicroBatch → ForwardOut V P) : Prop where
  teacherLogProbs : ∀ name batch,
    (forward name batch).teacherLogProbs.length = batch.rows.length
  topK : ∀ name batch key, 0 < batch.topK → batch.studentTopKIds.isSome →
    ∃ value, (forward name batch).topK key = some value ∧
      value.length = batch.rows.length

theorem selectRows_eq_map {α : Type} {items : List α} {rows : List ℕ}
    (hrows : ∀ row ∈ rows, row < items.length) :
    (selectRows items rows).map some = rows.map fun row => items[row]? := by
  induction rows with
  | nil => rfl
  | cons row rows ih =>
      have hrow := hrows row (by simp)
      have hrest := ih fun other hother => hrows other (by simp [hother])
      simp only [selectRows] at hrest ⊢
      simp [List.getElem?_eq_getElem hrow, hrest]

theorem length_selectRows {α : Type} {items : List α} {rows : List ℕ}
    (hrows : ∀ row ∈ rows, row < items.length) :
    (selectRows items rows).length = rows.length := by
  simpa using congrArg List.length (selectRows_eq_map hrows)

theorem getElem?_selectRows {α : Type} {items : List α} {rows : List ℕ}
    (hrows : ∀ row ∈ rows, row < items.length) {position row : ℕ}
    (hrow : rows[position]? = some row) :
    (selectRows items rows)[position]? = items[row]? := by
  have hget := congrArg (fun list => list[position]?) (selectRows_eq_map hrows)
  simp only [List.getElem?_map, hrow, Option.map_some] at hget
  cases hselect : (selectRows items rows)[position]? with
  | none => simp [hselect] at hget
  | some item => simpa [hselect] using hget

section Buffers

variable {forward : String → MicroBatch → ForwardOut V P}
  (hone : OneRowEach forward) (shard : Shard R) (topK microBs : ℕ)
  {routes : List String}

/-- The result of a forward of the schedule. -/
def outputOf (forward : String → MicroBatch → ForwardOut V P) (shard : Shard R)
    (topK microBs : ℕ) (order : Dict String (List ℕ)) (item : String × ℕ) :
    ForwardOut V P :=
  forward item.1
    (microBatch shard topK (rowsOrFirst (chunkAt order microBs item.1 item.2)))

/-- The entries of a forward's result that are kept: none of a throwaway. -/
def keptEntries {α : Type} (chunk : List ℕ) (entries : List α) :
    List (Option α) :=
  if chunk = [] then [] else entries.map some

private theorem bounds_of_chunkAt (hlength : routes.length = shard.rows.length)
    (name : String) (step : ℕ) :
    ∀ row ∈ chunkAt (groupRowsByTeacher routes) microBs name step,
      row < shard.rows.length := by
  intro row hrow
  obtain ⟨hbound, _⟩ := List.getElem?_eq_some_iff.mp (route_of_mem_chunkAt hrow)
  omega

theorem length_keptEntries {α : Type}
    (hlength : routes.length = shard.rows.length) (item : String × ℕ)
    {entries : List α}
    (hentries : entries.length = (microBatch shard topK (rowsOrFirst
      (chunkAt (groupRowsByTeacher routes) microBs item.1 item.2))).rows.length) :
    (chunkAt (groupRowsByTeacher routes) microBs item.1 item.2).length =
      (keptEntries (chunkAt (groupRowsByTeacher routes) microBs item.1 item.2)
        entries).length := by
  by_cases hchunk : chunkAt (groupRowsByTeacher routes) microBs item.1 item.2 = []
  · simp [keptEntries, hchunk]
  · have hrows := length_selectRows
      (bounds_of_chunkAt shard microBs hlength item.1 item.2)
    simp [keptEntries, hchunk, hentries, microBatch, rowsOrFirst, hrows]

include hone in
/-- After the loop the log-prob buffer is one scatter of everything kept. -/
theorem teacherLogProbs_localRun (hlength : routes.length = shard.rows.length)
    (names : List String) (nMicro : List ℕ) :
    let order := groupRowsByTeacher routes
    (localRun forward names nMicro topK microBs shard routes).teacherLogProbs =
      scatter (List.replicate shard.rows.length none)
        (writtenRows names nMicro microBs routes)
        ((schedule names nMicro).flatMap fun item =>
          keptEntries (chunkAt order microBs item.1 item.2)
            (outputOf forward shard topK microBs order item).teacherLogProbs) := by
  intro order
  have hstep : ∀ (state : ScoreState V P) (item : String × ℕ),
      (localStep forward shard topK microBs order state item).teacherLogProbs =
        scatter state.teacherLogProbs (chunkAt order microBs item.1 item.2)
          (keptEntries (chunkAt order microBs item.1 item.2)
            (outputOf forward shard topK microBs order item).teacherLogProbs) := by
    intro state item
    simp only [localStep, absorb, keptEntries, outputOf]
    split <;> simp_all
  have hfold : ∀ (items : List (String × ℕ)) (state : ScoreState V P),
      (items.foldl (localStep forward shard topK microBs order)
          state).teacherLogProbs =
        scatter state.teacherLogProbs
          (items.flatMap fun item => chunkAt order microBs item.1 item.2)
          (items.flatMap fun item =>
            keptEntries (chunkAt order microBs item.1 item.2)
              (outputOf forward shard topK microBs order item).teacherLogProbs) := by
    intro items
    induction items with
    | nil => simp
    | cons item items ih =>
        intro state
        rw [List.foldl_cons, ih, hstep, List.flatMap_cons, List.flatMap_cons,
          scatter_append]
        exact length_keptEntries shard topK microBs hlength item
          (hone.teacherLogProbs _ _)
  exact hfold (schedule names nMicro) (emptyState _)

/-- The kept keys are scattered independently of each other. -/
theorem foldl_scatterPart (rowCount : ℕ) (chunk : List ℕ) (out : ForwardOut V P)
    {keys : List TopKKey} (hnodup : keys.Nodup)
    (parts : (key : TopKKey) → Option (List (Option (P key)))) {key : TopKKey}
    {value : List (P key)} (hout : out.topK key = some value) :
    keys.foldl (scatterPart rowCount chunk out) parts key =
      if key ∈ keys then
        some (scatter ((parts key).getD (List.replicate rowCount none)) chunk
          (value.map some))
      else parts key := by
  induction keys generalizing parts with
  | nil => simp
  | cons other keys ih =>
      obtain ⟨hother, hnodup⟩ := List.nodup_cons.mp hnodup
      rw [List.foldl_cons, ih hnodup]
      by_cases hkey : key = other
      · subst hkey
        simp [hother, scatterPart, hout]
      · have hkeep : scatterPart rowCount chunk out parts other key = parts key := by
          cases hother' : out.topK other with
          | none => simp [scatterPart, hother']
          | some _ => simp [scatterPart, hother', Function.update_of_ne hkey]
        simp [hkey, hkeep]

include hone in
/-- Every forward of a rank that uses the top-K columns has all top-K keys. -/
theorem topK_outputOf (hused : shard.useTopK topK)
    (order : Dict String (List ℕ)) (item : String × ℕ) (key : TopKKey) :
    ∃ value, (outputOf forward shard topK microBs order item).topK key = some value ∧
      value.length = (microBatch shard topK (rowsOrFirst
        (chunkAt order microBs item.1 item.2))).rows.length := by
  obtain ⟨hpos, hids, hlogProbs⟩ := hused
  refine hone.topK _ _ key ?_ ?_
  · simp [microBatch, Shard.useTopK, hpos, hids, hlogProbs]
  · simp [microBatch, Shard.useTopK, hpos, hids, hlogProbs]

include hone in
/-- After the loop the buffer of a kept key is one scatter of everything kept,
allocated when there was anything to keep. -/
theorem topKParts_localRun (hlength : routes.length = shard.rows.length)
    (hused : shard.useTopK topK) {key : TopKKey} (hkey : key ∈ keptKeys)
    (names : List String) (nMicro : List ℕ) :
    let order := groupRowsByTeacher routes
    let written := writtenRows names nMicro microBs routes
    (localRun forward names nMicro topK microBs shard routes).topKParts key =
      if written = [] then none
      else some (scatter (List.replicate shard.rows.length none) written
        ((schedule names nMicro).flatMap fun item =>
          keptEntries (chunkAt order microBs item.1 item.2)
            (((outputOf forward shard topK microBs order item).topK key).getD
              []))) := by
  intro order written
  have hnodup : keptKeys.Nodup := by decide
  have hstep : ∀ (state : ScoreState V P) (item : String × ℕ),
      (localStep forward shard topK microBs order state item).topKParts key =
        if chunkAt order microBs item.1 item.2 = [] then state.topKParts key
        else some (scatter
          ((state.topKParts key).getD (List.replicate shard.rows.length none))
          (chunkAt order microBs item.1 item.2)
          (keptEntries (chunkAt order microBs item.1 item.2)
            (((outputOf forward shard topK microBs order item).topK key).getD
              []))) := by
    intro state item
    obtain ⟨value, hvalue, _⟩ :=
      topK_outputOf hone shard topK microBs hused order item key
    have hscatter := foldl_scatterPart shard.rows.length
      (chunkAt order microBs item.1 item.2) _ hnodup state.topKParts hvalue
    rw [if_pos hkey] at hscatter
    simp only [outputOf] at hvalue hscatter
    simp only [localStep, absorb, keptEntries, outputOf, hvalue]
    split
    · rfl
    · simpa using hscatter
  have hfold : ∀ (items : List (String × ℕ)) (state : ScoreState V P),
      (items.foldl (localStep forward shard topK microBs order)
          state).topKParts key =
        let written := items.flatMap fun item =>
          chunkAt order microBs item.1 item.2
        if written = [] then state.topKParts key
        else some (scatter
          ((state.topKParts key).getD (List.replicate shard.rows.length none))
          written (items.flatMap fun item =>
            keptEntries (chunkAt order microBs item.1 item.2)
              (((outputOf forward shard topK microBs order item).topK key).getD
                []))) := by
    intro items
    induction items with
    | nil => simp
    | cons item items ih =>
        intro state
        obtain ⟨value, hvalue, hrows⟩ :=
          topK_outputOf hone shard topK microBs hused order item key
        have hkept := length_keptEntries shard topK microBs hlength item hrows
        rw [List.foldl_cons, ih, hstep]
        simp only [List.flatMap_cons]
        rw [scatter_append _ (by simpa only [hvalue, Option.getD_some] using hkept)]
        generalize hentries : keptEntries (chunkAt order microBs item.1 item.2)
          (((outputOf forward shard topK microBs order item).topK key).getD []) =
            entries
        have hempty : chunkAt order microBs item.1 item.2 = [] → entries = [] := by
          intro hchunk
          rw [← hentries, keptEntries, if_pos hchunk]
        generalize chunkAt order microBs item.1 item.2 = chunk at hempty ⊢
        generalize (items.flatMap fun item =>
          chunkAt order microBs item.1 item.2) = written
        cases chunk <;> cases written <;> simp_all
  exact hfold (schedule names nMicro) (emptyState _)

end Buffers

end OneShotOPD.TeacherScoring
