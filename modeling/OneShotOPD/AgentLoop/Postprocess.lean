import OneShotOPD.Protocol.Concat

/-!
# From rows to the columns of a worker

An agent-loop worker turns the outputs of its rows into a table.  The object
columns are written one group after the other: turns, the columns of the prompts,
the reward columns, media, and the extra fields.  A later group takes the column
of an earlier one with the same name.
-/

namespace OneShotOPD.AgentLoop

open Checks Protocol

variable {S V : Type}

/-- The Python objects that the worker makes itself. -/
structure PyObjects (V : Type) where
  none : V
  int : ℕ → V
  dict : Dict String V → V

/-- What an agent loop returns for a row.  `sequence` stands for its token tensors,
`prompt` for its entries in the columns of the prompts; the extra field
`reward_extra_info` is kept apart from the others. -/
structure InternalAgentLoopOutput (S V : Type) where
  sequence : S
  rewardScore : Option V
  numTurns : ℕ
  prompt : String → V
  multiModalInputs : Option V
  rewardExtraInfo : Option (Dict String V)
  extraFields : Dict String V

namespace InternalAgentLoopOutput

/-- `input.extra_fields.get("reward_extra_info", {})`. -/
def rewardInfo (input : InternalAgentLoopOutput S V) : Dict String V :=
  input.rewardExtraInfo.getD Dict.empty

def extraKeys (input : InternalAgentLoopOutput S V) : List String :=
  (if input.rewardExtraInfo.isSome then ["reward_extra_info"] else []) ++
    input.extraFields.keys

/-- `input.extra_fields.get(key)`. -/
def extraField (objects : PyObjects V) (key : String) (input : InternalAgentLoopOutput S V) :
    V :=
  if key = "reward_extra_info" then (input.rewardExtraInfo.map objects.dict).getD objects.none
  else (input.extraFields.get? key).getD objects.none

/-- `info[key]`. -/
def rewardValue (key : String) (input : InternalAgentLoopOutput S V) : Except String V :=
  match input.rewardInfo.get? key with
  | some value => .ok value
  | none => .error ("KeyError: " ++ key)

end InternalAgentLoopOutput

open InternalAgentLoopOutput

def defaultExtraKeys : List String :=
  ["turn_scores", "tool_rewards", "min_global_steps", "max_global_steps", "extras"]

/-- The reward keys that every row of a chunk carries. -/
def rewardExtraKeys (inputs : List (InternalAgentLoopOutput S V)) : List String :=
  match inputs with
  | [] => []
  | first :: _ =>
      first.rewardInfo.keys.filter fun key => ∀ input ∈ inputs, key ∈ input.rewardInfo.keys

def allKeys (inputs : List (InternalAgentLoopOutput S V)) : List String :=
  inputs.flatMap extraKeys ++ defaultExtraKeys

/-- `"rm_scores" in batch.keys()`. -/
def allScored (inputs : List (InternalAgentLoopOutput S V)) : Bool :=
  inputs.all fun input => input.rewardScore.isSome

/-- Columns that are written one after the other. -/
def writeColumns (columns : Dict String (List V)) (keys : List String)
    (column : String → List V) : Dict String (List V) :=
  keys.foldl (fun columns key => columns.insert key (column key)) columns

section Postprocess

variable (objects : PyObjects V) (hasRewardLoop : Bool) (promptKeys : List String)

/-- The columns in front of the reward columns. -/
def inputColumns (inputs : List (InternalAgentLoopOutput S V)) : Dict String (List V) :=
  let turns := Dict.empty.insert "__num_turns__"
    (inputs.map fun input => objects.int input.numTurns)
  if hasRewardLoop then turns
  else writeColumns turns promptKeys fun key => inputs.map fun input => input.prompt key

/-- The columns behind the reward columns. -/
def laterColumns (columns : Dict String (List V))
    (inputs : List (InternalAgentLoopOutput S V)) : Dict String (List V) :=
  let withMedia :=
    if inputs.any fun input => input.multiModalInputs.isSome then
      columns.insert "multi_modal_inputs"
        (inputs.map fun input => input.multiModalInputs.getD objects.none)
    else columns
  writeColumns withMedia (allKeys inputs) fun key => inputs.map (extraField objects key)

/-- The tensors of a chunk: `rm_scores` is there when every row has a score. -/
def tensors (inputs : List (InternalAgentLoopOutput S V)) : TensorDict String (S ⊕ V) :=
  if allScored inputs then
    { batchSize := inputs.length
      columns := ⟨[("responses", inputs.map fun input => .inl input.sequence),
        ("rm_scores", inputs.map fun input => .inr (input.rewardScore.getD objects.none))],
        by simp⟩
      aligned := by simp }
  else
    { batchSize := inputs.length
      columns := ⟨[("responses", inputs.map fun input => .inl input.sequence)], by simp⟩
      aligned := by simp }

def postprocess (inputs : List (InternalAgentLoopOutput S V)) :
    Except String (DataProto String (S ⊕ V) V Unit) :=
  if inputs.isEmpty then .error "torch.cat(): expected a non-empty list of Tensors"
  else do
    let keys := rewardExtraKeys inputs
    let rewardColumns ← keys.mapM fun key => inputs.mapM (rewardValue key)
    let columns := (keys.zip rewardColumns).foldl
      (fun columns column => columns.insert column.1 column.2)
      (inputColumns objects hasRewardLoop promptKeys inputs)
    DataProto.ofColumns (some (tensors objects inputs)) (laterColumns objects columns inputs)
      { autoPadding := none
        values := Dict.empty
        metrics := []
        rewardExtraKeys := if allScored inputs then some keys else none
        uniform := by simp }

/-! ## What a chunk becomes -/

def rewardEntry (key : String) (input : InternalAgentLoopOutput S V) : V :=
  (input.rewardInfo.get? key).getD objects.none

/-- The value that a later group puts under a name, if it does. -/
def laterEntry (inputs : List (InternalAgentLoopOutput S V)) (key : String)
    (input : InternalAgentLoopOutput S V) : Option V :=
  if key ∈ allKeys inputs then some (input.extraField objects key)
  else if key = "multi_modal_inputs" ∧
      (inputs.any fun input => input.multiModalInputs.isSome) then
    some (input.multiModalInputs.getD objects.none)
  else none

variable {objects hasRewardLoop promptKeys}

/-- Every key of the list is carried by every row, so no lookup fails. -/
theorem mem_rewardExtraKeys {inputs : List (InternalAgentLoopOutput S V)}
    (hinputs : inputs ≠ []) (key : String) :
    key ∈ rewardExtraKeys inputs ↔ ∀ input ∈ inputs, key ∈ input.rewardInfo.keys := by
  cases inputs with
  | nil => exact absurd rfl hinputs
  | cons first rest =>
      rw [rewardExtraKeys, List.mem_filter, decide_eq_true_iff]
      exact ⟨And.right, fun hall => ⟨hall first List.mem_cons_self, hall⟩⟩

theorem rewardValue_eq_ok {key : String} {input : InternalAgentLoopOutput S V}
    (hkey : key ∈ input.rewardInfo.keys) :
    input.rewardValue key = .ok (rewardEntry objects key input) := by
  obtain ⟨value, hvalue⟩ := Option.isSome_iff_exists.mp ((Dict.get?_isSome_iff _ _).mpr hkey)
  rw [rewardValue, rewardEntry, hvalue]
  rfl

variable (objects) in
theorem mapM_rewardColumns {inputs : List (InternalAgentLoopOutput S V)}
    (hinputs : inputs ≠ []) :
    (rewardExtraKeys inputs).mapM (fun key => inputs.mapM (rewardValue key)) =
      .ok ((rewardExtraKeys inputs).map fun key =>
        inputs.map (rewardEntry objects key)) := by
  apply mapM_eq_ok_map
  intro key hkey
  apply mapM_eq_ok_map
  intro input hinput
  exact rewardValue_eq_ok ((mem_rewardExtraKeys hinputs key).mp hkey input hinput)

theorem get?_writeColumns (columns : Dict String (List V)) (keys : List String)
    (column : String → List V) (key : String) :
    (writeColumns columns keys column).get? key =
      if key ∈ keys then some (column key) else columns.get? key :=
  Dict.get?_foldl_insert keys column columns key

theorem length_writeColumns {columns : Dict String (List V)} {keys : List String}
    {column : String → List V} {count : ℕ}
    (hcolumns : ∀ entry ∈ columns.entries, entry.2.length = count)
    (hcolumn : ∀ key ∈ keys, (column key).length = count) :
    ∀ entry ∈ (writeColumns columns keys column).entries, entry.2.length = count := by
  induction keys generalizing columns with
  | nil => exact hcolumns
  | cons key keys ih =>
      apply ih
      · intro entry hentry
        rcases Dict.mem_entries_insert hentry with rfl | hmem
        · exact hcolumn key List.mem_cons_self
        · exact hcolumns entry hmem
      · exact fun other hother => hcolumn other (List.mem_cons_of_mem _ hother)

@[simp]
theorem batchSize_tensors (inputs : List (InternalAgentLoopOutput S V)) :
    (tensors objects inputs).batchSize = inputs.length := by
  unfold tensors
  split <;> rfl

theorem length_inputColumns (inputs : List (InternalAgentLoopOutput S V)) :
    ∀ entry ∈ (inputColumns objects hasRewardLoop promptKeys inputs).entries,
      entry.2.length = inputs.length := by
  have hturns : ∀ entry ∈ (Dict.empty.insert "__num_turns__"
      (inputs.map fun input => objects.int input.numTurns)).entries,
        entry.2.length = inputs.length := by
    intro entry hentry
    rcases Dict.mem_entries_insert hentry with rfl | hmem
    · exact List.length_map _
    · cases hmem
  unfold inputColumns
  split
  · exact hturns
  · exact length_writeColumns hturns fun key _ => List.length_map _

theorem length_laterColumns {columns : Dict String (List V)}
    (inputs : List (InternalAgentLoopOutput S V))
    (hcolumns : ∀ entry ∈ columns.entries, entry.2.length = inputs.length) :
    ∀ entry ∈ (laterColumns objects columns inputs).entries,
      entry.2.length = inputs.length := by
  unfold laterColumns
  apply length_writeColumns
  · split
    · intro entry hentry
      rcases Dict.mem_entries_insert hentry with rfl | hmem
      · exact List.length_map _
      · exact hcolumns entry hmem
    · exact hcolumns
  · exact fun key _ => List.length_map _

theorem get?_laterColumns (columns : Dict String (List V))
    (inputs : List (InternalAgentLoopOutput S V)) (key : String) :
    (laterColumns objects columns inputs).get? key =
      if key ∈ allKeys inputs then some (inputs.map (extraField objects key))
      else if key = "multi_modal_inputs" ∧
          (inputs.any fun input => input.multiModalInputs.isSome) then
        some (inputs.map fun input => input.multiModalInputs.getD objects.none)
      else columns.get? key := by
  rw [laterColumns, get?_writeColumns]
  congr 1
  by_cases hmedia : inputs.any fun input => input.multiModalInputs.isSome
  · simp only [hmedia, if_true, Dict.get?_insert, and_true]
  · simp [hmedia]

variable (objects hasRewardLoop promptKeys) in
/-- The object columns of a chunk. -/
def chunkColumns (inputs : List (InternalAgentLoopOutput S V)) : Dict String (List V) :=
  laterColumns objects (writeColumns (inputColumns objects hasRewardLoop promptKeys inputs)
    (rewardExtraKeys inputs) fun key => inputs.map (rewardEntry objects key)) inputs

variable (objects hasRewardLoop promptKeys) in
def chunkTable (inputs : List (InternalAgentLoopOutput S V)) :
    DataProto String (S ⊕ V) V Unit where
  batch := some (tensors objects inputs)
  nonTensorBatch := chunkColumns objects hasRewardLoop promptKeys inputs
  metaInfo :=
    { autoPadding := none
      values := Dict.empty
      metrics := []
      rewardExtraKeys := if allScored inputs then some (rewardExtraKeys inputs) else none
      uniform := by simp }
  consistent := by
    intro entry hentry
    rw [rowCount, batchSize_tensors]
    exact length_laterColumns inputs (length_writeColumns (length_inputColumns inputs)
      fun key _ => List.length_map _) entry hentry

/-- No chunk raises. -/
theorem postprocess_eq {inputs : List (InternalAgentLoopOutput S V)} (hinputs : inputs ≠ []) :
    postprocess objects hasRewardLoop promptKeys inputs =
      .ok (chunkTable objects hasRewardLoop promptKeys inputs) := by
  have hfold : ((rewardExtraKeys inputs).zip ((rewardExtraKeys inputs).map fun key =>
      inputs.map (rewardEntry objects key))).foldl
        (fun columns column => columns.insert column.1 column.2)
        (inputColumns objects hasRewardLoop promptKeys inputs) =
      writeColumns (inputColumns objects hasRewardLoop promptKeys inputs)
        (rewardExtraKeys inputs) fun key => inputs.map (rewardEntry objects key) := by
    rw [← List.map_prod_left_eq_zip, List.foldl_map]
    rfl
  rw [postprocess, if_neg (by simpa using hinputs)]
  simp only [mapM_rewardColumns objects hinputs, bind, Except.bind]
  rw [hfold]
  exact dif_pos (chunkTable objects hasRewardLoop promptKeys inputs).consistent

/-- Under a key that all rows of a chunk carry stand their values, unless a later
group wrote there. -/
theorem get?_chunkColumns {inputs : List (InternalAgentLoopOutput S V)} {key : String}
    (hkey : key ∈ rewardExtraKeys inputs) :
    (chunkColumns objects hasRewardLoop promptKeys inputs).get? key =
      some (inputs.map fun input =>
        (laterEntry objects inputs key input).getD (rewardEntry objects key input)) := by
  rw [chunkColumns, get?_laterColumns, get?_writeColumns, if_pos hkey]
  unfold laterEntry
  split
  · rfl
  · split <;> rfl

end Postprocess

end OneShotOPD.AgentLoop
