import OneShotOPD.Core.Dict
import OneShotOPD.Core.Lockstep
import OneShotOPD.Core.Scatter
import Mathlib

/-!
# The teacher scoring loop

Every rank scores its own rows with the teachers they are routed to.  A teacher
is sharded over all ranks, so each of its forwards is a collective and every
rank has to issue the same sequence of them although it holds other rows.  The
loop of `compute_rm_score` therefore walks the full list of teachers, pads the
number of micro-batches of each up to the maximum over the ranks, and fills up
with forwards whose result is thrown away.
-/

namespace OneShotOPD.TeacherScoring

open OneShotOPD.Lockstep

/-- `group_rows_by_teacher`: the rows routed to each teacher, in batch order. -/
def groupRowsByTeacher (routes : List String) : Dict String (List ℕ) :=
  Dict.collect routes.zipIdx

/-- `local_micro_batch_counts`: one count for each configured teacher, zero for
a teacher without rows on this rank. -/
def localMicroBatchCounts (order : Dict String (List ℕ))
    (teacherNames : List String) (microBs : ℕ) : List ℕ :=
  teacherNames.map fun name =>
    ((order.getD name []).length + microBs - 1) / microBs

/-- The columns of one row that a teacher forward reads. -/
structure RowInputs where
  inputIds : List ℕ
  attentionMask : List ℕ
  positionIds : List ℕ
  responses : List ℕ
  deriving DecidableEq

/-- The candidates of one row: for each response position the student's token
ids. -/
abbrev RowCandidates := List (List ℕ)

/-- What a rank holds.  The two top-K columns are present when the student's
top-K support was extracted, and then for every row. -/
structure Shard (R : Type) where
  rows : List RowInputs
  studentTopKIds : Option (List RowCandidates)
  studentTopKLogProbs : Option (List (List (List R)))
  ids_length : ∀ ids ∈ studentTopKIds, ids.length = rows.length

/-- `use_top_k`. -/
def Shard.useTopK {R : Type} (shard : Shard R) (topK : ℕ) : Prop :=
  0 < topK ∧ shard.studentTopKIds.isSome ∧ shard.studentTopKLogProbs.isSome

instance {R : Type} (shard : Shard R) (topK : ℕ) :
    Decidable (shard.useTopK topK) :=
  inferInstanceAs (Decidable (_ ∧ _ ∧ _))

/-- The argument of one teacher forward. -/
structure MicroBatch where
  rows : List RowInputs
  studentTopKIds : Option (List RowCandidates)
  topK : ℕ
  ids_length : ∀ ids ∈ studentTopKIds, ids.length = rows.length

/-- The keys that a forward adds to its result when it is given candidates. -/
inductive TopKKey where
  | teacherTopKLogProbs | teacherTopKIds | studentInTeacher | teacherInStudent
  | teacherOwnTopKLogProbs
  deriving DecidableEq

variable {R V : Type} {P : TopKKey → Type}

/-- The result of a forward, one entry a row. -/
structure ForwardOut (V : Type) (P : TopKKey → Type) where
  teacherLogProbs : List V
  topK : (key : TopKKey) → Option (List (P key))

/-- A forward that a rank issued: the rows it passed, and the rows of its own
output that it wrote afterwards. -/
structure ForwardCall where
  teacher : String
  rows : List ℕ
  written : List ℕ
  deriving DecidableEq

/-- The buffers of one rank.  An entry of a buffer is `none` until it is
written.  `calls` is a record of what happened and is read by no step. -/
structure ScoreState (V : Type) (P : TopKKey → Type) where
  teacherLogProbs : List (Option V)
  topKParts : (key : TopKKey) → Option (List (Option (P key)))
  calls : List ForwardCall

inductive ScoreOp where
  | allReduceMax (length : ℕ)
  | forward (teacher : String)
  deriving DecidableEq

abbrev ScoreSend : ScoreOp → Type
  | .allReduceMax _ => List ℕ
  | .forward _ => MicroBatch

abbrev ScoreRecv (V : Type) (P : TopKKey → Type) : ScoreOp → Type
  | .allReduceMax _ => List ℕ
  | .forward _ => ForwardOut V P

/-- The maximum is taken at each index over all ranks; a teacher answers every
rank on the micro-batch that rank passed. -/
def scoreExchange {Rank : Type} [Fintype Rank]
    (forward : String → MicroBatch → ForwardOut V P) :
    Exchange ScoreSend (ScoreRecv V P) Rank
  | .allReduceMax length, send, _ =>
      (List.range length).map fun index =>
        Finset.univ.sup fun rank =>
          let counts : List ℕ := send rank
          counts.getD index 0
  | .forward teacher, send, rank => forward teacher (send rank)

def allReduceMax (counts : List ℕ) :
    Prog ScoreSend (ScoreRecv V P) (List ℕ) :=
  Prog.enter (ScoreOp.allReduceMax counts.length) counts

/-- `_forward_micro_batch` of one teacher, as the rank that issues it sees it. -/
def forwardMicroBatch (teacher : String) (batch : MicroBatch) :
    Prog ScoreSend (ScoreRecv V P) (ForwardOut V P) :=
  Prog.enter (ScoreOp.forward teacher) batch

/-- `data.batch[k][rows]`. -/
def selectRows {α : Type} (items : List α) (rows : List ℕ) : List α :=
  rows.filterMap fun row => items[row]?

/-- Columns of one length stay of one length under a selection. -/
theorem length_selectRows_congr {α β : Type} {items : List α} {others : List β}
    (hlength : items.length = others.length) (rows : List ℕ) :
    (selectRows items rows).length = (selectRows others rows).length := by
  induction rows with
  | nil => rfl
  | cons row rows ih =>
      simp only [selectRows, List.filterMap_cons] at ih ⊢
      by_cases hrow : row < others.length
      · simp [List.getElem?_eq_getElem hrow,
          List.getElem?_eq_getElem (hlength ▸ hrow), ih]
      · simp [List.getElem?_eq_none (not_lt.mp hrow),
          List.getElem?_eq_none (not_lt.mp (hlength ▸ hrow)), ih]

/-- The keys of a forward's result that the loop keeps. -/
def keptKeys : List TopKKey :=
  [.teacherTopKLogProbs, .studentInTeacher, .teacherInStudent]

/-- Scatter one kept key, allocating its buffer at the first use. -/
def scatterPart (rowCount : ℕ) (chunk : List ℕ) (out : ForwardOut V P)
    (parts : (key : TopKKey) → Option (List (Option (P key)))) (key : TopKKey) :
    (key : TopKKey) → Option (List (Option (P key))) :=
  match out.topK key with
  | none => parts
  | some value =>
      Function.update parts key
        (some (scatter ((parts key).getD (List.replicate rowCount none)) chunk
          (value.map some)))

/-- The rows of the micro-batch number `step` of a teacher, none when this rank
has run out of rows for it. -/
def chunkAt (order : Dict String (List ℕ)) (microBs : ℕ) (name : String)
    (step : ℕ) : List ℕ :=
  ((order.getD name []).drop (step * microBs)).take microBs

/-- `chunk or [0]`: without rows of its own a rank passes its row 0. -/
def rowsOrFirst (chunk : List ℕ) : List ℕ :=
  if chunk = [] then [0] else chunk

def microBatch (shard : Shard R) (topK : ℕ) (rows : List ℕ) : MicroBatch where
  rows := selectRows shard.rows rows
  studentTopKIds :=
    if shard.useTopK topK then
      shard.studentTopKIds.map fun ids => selectRows ids rows
    else none
  topK := if shard.useTopK topK then topK else 0
  ids_length := by
    intro selected hselected
    split at hselected
    · obtain ⟨ids, hids, rfl⟩ := Option.mem_map.mp hselected
      exact length_selectRows_congr (shard.ids_length ids hids) rows
    · simp at hselected

/-- What a rank does with the result of a forward: nothing when the forward was
a throwaway, and otherwise scatter it back by original row index. -/
def absorb (rowCount : ℕ) (name : String) (chunk : List ℕ)
    (state : ScoreState V P) (out : ForwardOut V P) : ScoreState V P :=
  if chunk = [] then
    { state with calls := state.calls ++ [⟨name, rowsOrFirst chunk, []⟩] }
  else
    { teacherLogProbs :=
        scatter state.teacherLogProbs chunk (out.teacherLogProbs.map some)
      topKParts := keptKeys.foldl (scatterPart rowCount chunk out) state.topKParts
      calls := state.calls ++ [⟨name, rowsOrFirst chunk, chunk⟩] }

/-- The body of the inner loop of `compute_rm_score`. -/
def microStep (shard : Shard R) (topK microBs : ℕ) (order : Dict String (List ℕ))
    (name : String) (state : ScoreState V P) (step : ℕ) :
    Prog ScoreSend (ScoreRecv V P) (ScoreState V P) := do
  let chunk := chunkAt order microBs name step
  let out ← forwardMicroBatch name (microBatch shard topK (rowsOrFirst chunk))
  return absorb shard.rows.length name chunk state out

def emptyState (rowCount : ℕ) : ScoreState V P where
  teacherLogProbs := List.replicate rowCount none
  topKParts := fun _ => none
  calls := []

/-- The part of `compute_rm_score` that talks to the teachers, for rows that
are routed already. -/
def scoreRows (teacherNames : List String) (topK microBs : ℕ) (shard : Shard R)
    (routes : List String) :
    Prog ScoreSend (ScoreRecv V P) (ScoreState V P) := do
  let order := groupRowsByTeacher routes
  let names := teacherNames.insertionSort (· ≤ ·)
  let nMicro ← allReduceMax (localMicroBatchCounts order names microBs)
  names.zipIdx.foldlM
    (fun state entry =>
      (List.range (nMicro.getD entry.2 0)).foldlM
        (microStep shard topK microBs order entry.1) state)
    (emptyState shard.rows.length)

/-! ## Grouping -/

private theorem groupRows_append (routes : List String) (name : String) :
    groupRowsByTeacher (routes ++ [name]) =
      (groupRowsByTeacher routes).insert name
        ((groupRowsByTeacher routes).getD name [] ++ [routes.length]) := by
  simp [groupRowsByTeacher, List.zipIdx_append, Dict.collect_append]

/-- The group of a teacher is exactly the rows routed to it, in order. -/
theorem getD_groupRowsByTeacher (routes : List String) (name : String) :
    (groupRowsByTeacher routes).getD name [] =
      (List.range routes.length).filter fun row => routes[row]? = some name := by
  induction routes using List.reverseRecOn with
  | nil => simp [groupRowsByTeacher, Dict.collect, Dict.getD]
  | append_singleton routes last ih =>
      have hearlier : (List.range routes.length).filter
            (fun row => (routes ++ [last])[row]? = some name) =
          (groupRowsByTeacher routes).getD name [] := by
        rw [ih]
        refine List.filter_congr fun row hrow => ?_
        rw [List.getElem?_append_left (by simpa using hrow)]
      rw [groupRows_append, Dict.getD, Dict.get?_insert, List.length_append,
        List.length_singleton, List.range_succ, List.filter_append, hearlier]
      by_cases hname : name = last
      · subst hname
        simp
      · have hlast : last ≠ name := Ne.symm hname
        simp [hname, hlast, Dict.getD]

/-- Over a list of distinct teachers that covers the routes, the groups hold
every row exactly once. -/
theorem groups_perm_range {names routes : List String} (hnodup : names.Nodup)
    (hroutes : ∀ name ∈ routes, name ∈ names) :
    (names.flatMap fun name => (groupRowsByTeacher routes).getD name []).Perm
      (List.range routes.length) := by
  simp only [getD_groupRowsByTeacher]
  rw [List.perm_ext_iff_of_nodup ?_ List.nodup_range]
  · intro row
    simp only [List.mem_flatMap, List.mem_filter, List.mem_range,
      decide_eq_true_eq]
    constructor
    · rintro ⟨_, _, hrow, _⟩
      exact hrow
    · intro hrow
      have hget := List.getElem?_eq_getElem hrow
      exact ⟨routes[row], hroutes _ (List.getElem_mem hrow), hrow, hget⟩
  · rw [List.nodup_flatMap]
    refine ⟨fun name _ => List.nodup_range.filter _, hnodup.imp ?_⟩
    intro left right hne row hleft hright
    simp only [List.mem_filter, decide_eq_true_eq] at hleft hright
    exact hne (Option.some.inj (hleft.2.symm.trans hright.2))

end OneShotOPD.TeacherScoring
