import OneShotOPD.SingleController.AutoPadding

/-!
# What calls do to the tables of the driver

The output of a padded call is unpadded, but its arguments are not: padding
assigns the columns of the caller's object.  A run of calls leaves the tables
alone exactly when no call has to pad.
-/

namespace OneShotOPD.SingleController

open Protocol

variable {κ α β μ : Type}

/-- A call of a method in a mode that pads. -/
structure Call (κ α β μ : Type) where
  mode : DispatchMode
  group : WorkerGroup
  method : Method κ α β μ
  args : List ℕ
  kwargs : List (String × ℕ)

namespace Call

def objs (call : Call κ α β μ) : List ℕ := call.args ++ call.kwargs.map Prod.snd

/-- Every argument of the call is a table with auto padding. -/
def AutoPadded (autoPadding : Bool) (objects : Objects κ α β μ) (call : Call κ α β μ) : Prop :=
  call.objs ≠ [] ∧ ∀ obj ∈ call.objs, (objects obj).isPaddingEnabled autoPadding

/-- A call that is to return one row for each row of its arguments. -/
structure OnRows (objects : Objects κ α β μ) (call : Call κ α β μ) : Prop where
  mode_eq : call.mode = .dpComputeProto
  rowWise : RowWise call.method
  same : ∃ count, 0 < count ∧ ∀ obj ∈ call.objs, (objects obj).len = count

/-- The group size divides the length of the first argument. -/
def Divides (objects : Objects κ α β μ) (call : Call κ α β μ) : Prop :=
  ∀ first ∈ call.objs.head?, call.group.worldSize ∣ (objects first).len

end Call

theorem len_le_len_padding [DecidableEq κ] [DecidableEq μ] {data padded : DataProto κ α β μ}
    {paddingSize : ℕ} (hpadding : data.padding paddingSize "" = .ok padded) :
    data.len ≤ padded.len := by
  by_cases hlen : 0 < data.len
  · rw [DataProto.padding_eq (MetaInfo.comparable_of_decidableEq _) hlen,
      Except.ok.injEq] at hpadding
    rw [← hpadding, DataProto.len_gather_of_lt (DataProto.mem_paddedPositions_lt hlen),
      DataProto.length_paddedPositions]
    exact Nat.le_add_right _ _
  · omega

variable [DecidableEq κ] [DecidableEq μ]

/-- Splitting an argument never shortens a table. -/
theorem len_le_len_paddingAndSplitData (autoPadding : Bool) (chunks : ℕ)
    (state : SplitState κ α β μ) (obj ref : ℕ) :
    (state.objects ref).len ≤
      ((paddingAndSplitData autoPadding chunks state obj).1.objects ref).len := by
  simp only [paddingAndSplitData]
  split
  next =>
    split
    next => exact le_rfl
    next =>
      split
      next => exact le_rfl
      next padded hpadding =>
        by_cases href : ref = obj
        · subst href
          simpa using len_le_len_padding hpadding
        · simp [href]
  next => exact le_rfl

theorem objects_splitAll_cons (autoPadding : Bool) (chunks : ℕ) (state : SplitState κ α β μ)
    (obj : ℕ) (objs : List ℕ) :
    (splitAll autoPadding chunks state (obj :: objs)).1.objects =
        (paddingAndSplitData autoPadding chunks state obj).1.objects ∨
      (splitAll autoPadding chunks state (obj :: objs)).1.objects =
        (splitAll autoPadding chunks
          (paddingAndSplitData autoPadding chunks state obj).1 objs).1.objects := by
  rw [splitAll]
  split
  next heq => exact .inl (by rw [heq])
  next heq =>
    rw [heq]
    split
    next hrest => exact .inr (by rw [hrest])
    next hrest => exact .inr (by rw [hrest])

theorem len_le_len_splitAll (autoPadding : Bool) (chunks : ℕ) (objs : List ℕ)
    (state : SplitState κ α β μ) (ref : ℕ) :
    (state.objects ref).len ≤
      ((splitAll autoPadding chunks state objs).1.objects ref).len := by
  induction objs generalizing state with
  | nil => exact le_rfl
  | cons obj objs ih =>
      have hstep := len_le_len_paddingAndSplitData autoPadding chunks state obj ref
      rcases objects_splitAll_cons autoPadding chunks state obj objs with heq | heq
      · rw [heq]
        exact hstep
      · rw [heq]
        exact hstep.trans (ih _)

/-- An argument that needs no padding is left as it is. -/
theorem objects_paddingAndSplitData {autoPadding : Bool} {chunks : ℕ}
    {state : SplitState κ α β μ} {obj : ℕ}
    (henabled : (state.objects obj).isPaddingEnabled autoPadding)
    (hzero : (lengthsFor chunks state.lengths (state.objects obj).len).2 = 0) :
    (paddingAndSplitData autoPadding chunks state obj).1.objects = state.objects ∧
      (paddingAndSplitData autoPadding chunks state obj).1.lengths =
        some (lengthsFor chunks state.lengths (state.objects obj).len) := by
  simp only [paddingAndSplitData, henabled, ↓reduceIte, hzero, DataProto.padding]
  split
  next => exact ⟨rfl, rfl⟩
  next => exact ⟨Function.update_eq_self _ _, rfl⟩

theorem objects_splitAll_unpadded {autoPadding : Bool} {chunks : ℕ} {objs : List ℕ}
    (state : SplitState κ α β μ) {count : ℕ} (hlengths : state.lengths = some (count, 0))
    (henabled : ∀ obj ∈ objs, (state.objects obj).isPaddingEnabled autoPadding) :
    (splitAll autoPadding chunks state objs).1.objects = state.objects := by
  induction objs generalizing state with
  | nil => rfl
  | cons obj objs ih =>
      have hset : lengthsFor chunks state.lengths (state.objects obj).len = (count, 0) := by
        rw [hlengths]
        rfl
      obtain ⟨hobjects, hnext⟩ := objects_paddingAndSplitData (henabled obj List.mem_cons_self)
        (congrArg Prod.snd hset)
      rcases objects_splitAll_cons autoPadding chunks state obj objs with heq | heq
      · rw [heq, hobjects]
      · rw [heq, ← hobjects]
        apply ih _ (hnext.trans (congrArg some hset))
        intro other hother
        rw [hobjects]
        exact henabled other (List.mem_cons_of_mem _ hother)

theorem objects_callMethod (mode : DispatchMode) (autoPadding : Bool) (group : WorkerGroup)
    (method : Method κ α β μ) (args : List ℕ) (kwargs : List (String × ℕ))
    (objects : Objects κ α β μ) :
    (callMethod mode autoPadding group method args kwargs objects).1 =
      (splitAll autoPadding group.worldSize ⟨objects, none⟩
        (args ++ kwargs.map Prod.snd)).1.objects := by
  rw [callMethod]
  split
  next heq => rw [heq]
  next heq => rw [heq]

namespace Call

/-- What the call does to the tables, and what it returns. -/
def run (autoPadding : Bool) (objects : Objects κ α β μ) (call : Call κ α β μ) :
    Objects κ α β μ × Except String (Collected κ α β μ) :=
  callMethod call.mode autoPadding call.group call.method call.args call.kwargs objects

/-- A call leaves the tables alone exactly when it has nothing to pad. -/
theorem run_objects_eq_iff {autoPadding : Bool} {objects : Objects κ α β μ}
    {call : Call κ α β μ} (hpadded : call.AutoPadded autoPadding objects) :
    (call.run autoPadding objects).1 = objects ↔ call.Divides objects := by
  obtain ⟨hne, henabled⟩ := hpadded
  obtain ⟨first, rest, hobjs⟩ := List.exists_cons_of_ne_nil hne
  have hdivides : call.Divides objects ↔ call.group.worldSize ∣ (objects first).len := by
    simp [Divides, hobjs]
  have hfirst := henabled first (hobjs ▸ List.mem_cons_self)
  have hrun : (call.run autoPadding objects).1 =
      (splitAll autoPadding call.group.worldSize ⟨objects, none⟩ (first :: rest)).1.objects := by
    rw [run, objects_callMethod, ← hobjs]
    rfl
  rw [hdivides, hrun]
  constructor
  · intro hsame
    by_contra hdvd
    have hpadding : paddingSizeFor call.group.worldSize (objects first).len ≠ 0 :=
      (paddingSizeFor_eq_zero_iff call.group.worldSize_pos _).not.mpr hdvd
    have hlen : 0 < (objects first).len :=
      Nat.pos_of_ne_zero fun hzero => hdvd (hzero ▸ dvd_zero _)
    have hstep := paddingAndSplitData_enabled call.group.worldSize_pos hfirst
      (MetaInfo.comparable_of_decidableEq _) rfl hlen
      (show lengthsFor _ (SplitState.mk objects none).lengths _ = _ from rfl)
    have hpaddedLen : ((paddingAndSplitData autoPadding call.group.worldSize ⟨objects, none⟩
        first).1.objects first).len =
          (objects first).len + paddingSizeFor call.group.worldSize (objects first).len := by
      rw [hstep]
      simp only [Function.update_self]
      rw [DataProto.len_gather_of_lt (DataProto.mem_paddedPositions_lt hlen),
        DataProto.length_paddedPositions]
    have hgrow : (objects first).len +
        paddingSizeFor call.group.worldSize (objects first).len ≤ (objects first).len := by
      rcases objects_splitAll_cons autoPadding call.group.worldSize ⟨objects, none⟩ first rest
        with heq | heq
      · rw [← hpaddedLen, ← heq, hsame]
      · calc (objects first).len + paddingSizeFor call.group.worldSize (objects first).len
            = _ := hpaddedLen.symm
          _ ≤ _ := len_le_len_splitAll autoPadding _ rest _ first
          _ = (objects first).len := by rw [← heq, hsame]
    omega
  · intro hdvd
    have hzero : (lengthsFor call.group.worldSize (SplitState.mk objects none).lengths
        (objects first).len).2 = 0 :=
      (paddingSizeFor_eq_zero_iff call.group.worldSize_pos _).mpr hdvd
    obtain ⟨hobjects, hlengths⟩ := objects_paddingAndSplitData hfirst hzero
    rcases objects_splitAll_cons autoPadding call.group.worldSize ⟨objects, none⟩ first rest
      with heq | heq
    · rw [heq, hobjects]
    · have hset : (paddingAndSplitData autoPadding call.group.worldSize ⟨objects, none⟩
          first).1.lengths = some ((objects first).len, 0) :=
        hlengths.trans (congrArg some (Prod.ext rfl hzero))
      rw [heq]
      refine (objects_splitAll_unpadded _ hset fun other hother => ?_).trans hobjects
      rw [hobjects]
      exact henabled other (hobjs ▸ List.mem_cons_of_mem _ hother)

/-- A call that is to return one row for each row of its arguments does so, when
it has nothing to pad. -/
theorem run_onRows {autoPadding : Bool} {objects : Objects κ α β μ} {call : Call κ α β μ}
    (hpadded : call.AutoPadded autoPadding objects) (honRows : call.OnRows objects)
    (hdivides : call.Divides objects) :
    ∃ output, (call.run autoPadding objects).2 = .ok (.proto output) ∧
      output.Agrees (call.method (call.args.map objects) (lookUp objects call.kwargs)) := by
  obtain ⟨count, hcount, hlen⟩ := honRows.same
  obtain ⟨first, rest, hobjs⟩ := List.exists_cons_of_ne_nil hpadded.1
  have hdvd : call.group.worldSize ∣ count := by
    rw [← hlen first (hobjs ▸ List.mem_cons_self)]
    exact hdivides first (by rw [hobjs]; rfl)
  have hcall := callMethod_rowWise call.group honRows.rowWise objects hcount hpadded.1
    (.inr hdvd) hpadded.2 (fun _ _ => MetaInfo.comparable_of_decidableEq _)
    (MetaInfo.comparable_of_decidableEq _) hlen
  rw [run, honRows.mode_eq]
  exact hcall

end Call

/-- The calls of a driver one after the other, each with the tables that it
leaves and what it returns. -/
def runCalls (autoPadding : Bool) (objects : Objects κ α β μ) :
    List (Call κ α β μ) →
      List (Call κ α β μ × Objects κ α β μ × Except String (Collected κ α β μ))
  | [] => []
  | call :: calls =>
      let outcome := call.run autoPadding objects
      (call, outcome) :: runCalls autoPadding outcome.1 calls

/-- A call on the only table of a driver, by a group of the given size. -/
def callOnTable (group : WorkerGroup) : Call String ℤ Unit Unit :=
  ⟨.dpComputeProto, group, mapTensors (· + 1), [0], []⟩

end OneShotOPD.SingleController
