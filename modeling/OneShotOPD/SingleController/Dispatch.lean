import OneShotOPD.Protocol.Pieces

/-!
# Dispatch of a method call to a group of workers

The driver refers to its tables by reference: padding a table for a call
assigns its columns in place, so what a call does to the objects of the driver
is part of its result, also when it raises.  A group either splits the tables
over all of its workers, with padding, or over the data-parallel ranks of a
mesh, whose other dimensions work on copies.
-/

namespace OneShotOPD.SingleController

open Protocol

variable {κ α β μ : Type}

/-- The tables of the driver by reference. -/
abbrev Objects (κ α β μ : Type) := ℕ → DataProto κ α β μ

/-- A method of the workers, given its positional and its keyword arguments. -/
abbrev Method (κ α β μ : Type) :=
  List (DataProto κ α β μ) → List (String × DataProto κ α β μ) → DataProto κ α β μ

structure WorkerGroup where
  worldSize : ℕ
  worldSize_pos : 0 < worldSize

/-- The state that `_padding_and_split_data` shares between the arguments of a
call: the objects, and `data_proto_len` with `padding_size` once they are set. -/
structure SplitState (κ α β μ : Type) where
  objects : Objects κ α β μ
  lengths : Option (ℕ × ℕ)

section AutoPadding

variable [DecidableEq κ] [ValueEq μ]

/-- `data_proto_len` and `padding_size`, which the first padded argument sets. -/
def lengthsFor (chunks : ℕ) (lengths : Option (ℕ × ℕ)) (dataProtoLen : ℕ) : ℕ × ℕ :=
  lengths.getD (dataProtoLen,
    if dataProtoLen % chunks > 0 then chunks - dataProtoLen % chunks else 0)

def paddingAndSplitData (autoPadding : Bool) (chunks : ℕ) (state : SplitState κ α β μ)
    (obj : ℕ) : SplitState κ α β μ × Except String (List (DataProto κ α β μ)) :=
  let data := state.objects obj
  if data.isPaddingEnabled autoPadding then
    let lengths := lengthsFor chunks state.lengths data.len
    let state := { state with lengths := some lengths }
    if lengths.1 ≠ data.len then
      (state, .error "AssertionError: expecting all arg share same length")
    else
      match data.padding lengths.2 "" with
      | .error error => (state, .error error)
      | .ok padded =>
          ({ state with objects := Function.update state.objects obj padded },
            padded.chunk autoPadding chunks)
  else (state, data.chunk autoPadding chunks)

def splitAll (autoPadding : Bool) (chunks : ℕ) (state : SplitState κ α β μ) :
    List ℕ → SplitState κ α β μ × Except String (List (List (DataProto κ α β μ)))
  | [] => (state, .ok [])
  | obj :: objs =>
      match paddingAndSplitData autoPadding chunks state obj with
      | (state, .error error) => (state, .error error)
      | (state, .ok parts) =>
          match splitAll autoPadding chunks state objs with
          | (state, .error error) => (state, .error error)
          | (state, .ok others) => (state, .ok (parts :: others))

end AutoPadding

/-- The shards of a call: one list per argument, with one entry per worker. -/
structure Shards (κ α β μ : Type) where
  args : List (List (DataProto κ α β μ))
  kwargs : List (String × List (DataProto κ α β μ))

/-- `execute_all`: every worker gets its entry of every argument. -/
def executeAll (worldSize : ℕ) (method : Method κ α β μ) (shards : Shards κ α β μ) :
    List (DataProto κ α β μ) :=
  (List.range worldSize).map fun worker =>
    method (shards.args.filterMap fun arg => arg[worker]?)
      (shards.kwargs.filterMap fun kwarg => kwarg.2[worker]?.map fun value => (kwarg.1, value))

/-- What a call returns: a table, or the outputs of all workers. -/
inductive Collected (κ α β μ : Type) where
  | proto (data : DataProto κ α β μ)
  | outputs (outputs : List (DataProto κ α β μ))

/-- The two modes whose dispatch pads. -/
inductive DispatchMode where
  | dpComputeProto
  | dpComputeMetric
  deriving DecidableEq

/-- The removal of the padding in `func_generator`. -/
def removePadding (paddingCount : ℕ) (output : Collected κ α β μ) :
    Except String (Collected κ α β μ) :=
  if paddingCount > 0 then
    match output with
    | .proto data => do
        let kept ← data.selectIdxs ((List.range data.len).take (data.len - paddingCount))
        return .proto kept
    | .outputs outputs => .ok (.outputs (outputs.take (outputs.length - paddingCount)))
  else .ok output

variable [DecidableEq κ] [ValueEq μ]

def DispatchMode.collect (mode : DispatchMode) (outputs : List (DataProto κ α β μ)) :
    Except String (Collected κ α β μ) :=
  match mode with
  | dpComputeProto => do
      let data ← DataProto.concat outputs
      return .proto data
  | dpComputeMetric => .ok (.outputs outputs)

/-- A blocking call of a method of a worker group in one of these modes. -/
def callMethod (mode : DispatchMode) (autoPadding : Bool) (group : WorkerGroup)
    (method : Method κ α β μ) (args : List ℕ) (kwargs : List (String × ℕ))
    (objects : Objects κ α β μ) : Objects κ α β μ × Except String (Collected κ α β μ) :=
  match splitAll autoPadding group.worldSize ⟨objects, none⟩ (args ++ kwargs.map Prod.snd) with
  | (state, .error error) => (state.objects, .error error)
  | (state, .ok parts) =>
      let shards : Shards κ α β μ :=
        ⟨parts.take args.length, (kwargs.map Prod.fst).zip (parts.drop args.length)⟩
      let paddingCount := (state.lengths.map Prod.snd).getD 0
      (state.objects, do
        let output ← mode.collect (executeAll group.worldSize method shards)
        removePadding paddingCount output)

/-- Where the workers of a group stand in a device mesh: the data-parallel rank
of each, and which of them return results.  In rank order, these hold every
data-parallel rank once. -/
structure DeviceMesh where
  dpRankMapping : List ℕ
  collectMask : List Bool
  length_collectMask : collectMask.length = dpRankMapping.length
  collected : ((dpRankMapping.zip collectMask).filter Prod.snd).map Prod.fst =
    List.range (dpRankMapping.foldr max 0 + 1)

namespace DeviceMesh

def worldSize (mesh : DeviceMesh) : ℕ := mesh.dpRankMapping.length

/-- `max(dp_rank_mapping) + 1`. -/
def dpSize (mesh : DeviceMesh) : ℕ := mesh.dpRankMapping.foldr max 0 + 1

theorem dpRank_lt (mesh : DeviceMesh) : ∀ rank ∈ mesh.dpRankMapping, rank < mesh.dpSize := by
  have hmax : ∀ (ranks : List ℕ), ∀ rank ∈ ranks, rank ≤ ranks.foldr max 0 := by
    intro ranks
    induction ranks with
    | nil => simp
    | cons first ranks ih =>
        intro rank hrank
        rcases List.mem_cons.mp hrank with rfl | hmem
        · exact Nat.le_max_left _ _
        · exact (ih rank hmem).trans (Nat.le_max_right _ _)
  intro rank hrank
  exact Nat.lt_succ_of_le (hmax _ rank hrank)

theorem collected_replicated (ranks : List ℕ) (copies : ℕ) :
    (((ranks.flatMap (List.replicate (copies + 1))).zip
        (ranks.flatMap fun _ => true :: List.replicate copies false)).filter
          Prod.snd).map Prod.fst = ranks := by
  induction ranks with
  | nil => rfl
  | cons rank ranks ih =>
      have hcopies : ((List.replicate copies rank).zip
          (List.replicate copies false)).filter Prod.snd = [] := by
        rw [List.filter_eq_nil_iff]
        intro worker hworker
        simp [List.eq_of_mem_replicate (List.of_mem_zip hworker).2]
      rw [List.flatMap_cons, List.flatMap_cons, List.zip_append (by simp), List.filter_append,
        List.map_append, ih, List.replicate_succ, List.zip_cons_cons,
        List.filter_cons_of_pos rfl, hcopies]
      rfl

theorem foldr_max_of_le {values : List ℕ} {bound : ℕ} (hvalues : ∀ value ∈ values, value ≤ bound) :
    values.foldr max bound = bound := by
  induction values with
  | nil => rfl
  | cons value values ih =>
      rw [List.foldr_cons, ih fun other hother => hvalues other (List.mem_cons_of_mem _ hother)]
      exact Nat.max_eq_right (hvalues value List.mem_cons_self)

theorem foldr_max_replicated (lastRank copies : ℕ) :
    ((List.range (lastRank + 1)).flatMap (List.replicate (copies + 1))).foldr max 0 =
      lastRank := by
  have hlast : (List.replicate (copies + 1) lastRank).foldr max 0 = lastRank := by
    rw [List.replicate_succ', List.foldr_append]
    simpa using foldr_max_of_le fun value hvalue => (List.eq_of_mem_replicate hvalue).le
  rw [List.range_succ, List.flatMap_append, List.foldr_append, List.flatMap_singleton, hlast]
  apply foldr_max_of_le
  intro value hvalue
  obtain ⟨rank, hrank, hmem⟩ := List.mem_flatMap.mp hvalue
  rw [List.eq_of_mem_replicate hmem]
  exact (List.mem_range.mp hrank).le

/-- The mesh whose inner dimension holds copies of every data-parallel rank, of
which the first returns results. -/
def replicated (lastRank copies : ℕ) : DeviceMesh where
  dpRankMapping := (List.range (lastRank + 1)).flatMap (List.replicate (copies + 1))
  collectMask := (List.range (lastRank + 1)).flatMap fun _ => true :: List.replicate copies false
  length_collectMask := by simp [List.length_flatMap]
  collected := by
    rw [foldr_max_replicated, collected_replicated]

end DeviceMesh

/-- `_split_args_kwargs_data_proto`: the split without padding. -/
def splitPlain (autoPadding : Bool) (chunks : ℕ) (data : List (DataProto κ α β μ)) :
    Except String (List (List (DataProto κ α β μ))) :=
  data.mapM fun arg => arg.chunk autoPadding chunks

/-- `dispatch_nd_compute`: every worker gets the shard of its data-parallel rank.
The call needs a positional argument. -/
def dispatchNdCompute (mesh : DeviceMesh) (shards : Shards κ α β μ) :
    Except String (Shards κ α β μ) :=
  let place (parts : List (DataProto κ α β μ)) : List (DataProto κ α β μ) :=
    gather mesh.dpRankMapping parts
  if shards.args = [] then .error "IndexError: tuple index out of range"
  else .ok ⟨shards.args.map place, shards.kwargs.map fun kwarg => (kwarg.1, place kwarg.2)⟩

/-- `collect_nd_compute`: the outputs of the workers that return results. -/
def collectNdCompute (mesh : DeviceMesh) (output : List (DataProto κ α β μ)) :
    List (DataProto κ α β μ) :=
  ((output.zip mesh.collectMask).filter Prod.snd).map Prod.fst

/-- A blocking call of a method that is dispatched over a mesh. -/
def callNdMethod (autoPadding : Bool) (mesh : DeviceMesh) (method : Method κ α β μ)
    (args : List (DataProto κ α β μ)) (kwargs : List (String × DataProto κ α β μ)) :
    Except String (DataProto κ α β μ) := do
  let splittedArgs ← splitPlain autoPadding mesh.dpSize args
  let splittedKwargs ← splitPlain autoPadding mesh.dpSize (kwargs.map Prod.snd)
  let shards ← dispatchNdCompute mesh ⟨splittedArgs, (kwargs.map Prod.fst).zip splittedKwargs⟩
  DataProto.concat (collectNdCompute mesh (executeAll mesh.worldSize method shards))

end OneShotOPD.SingleController
