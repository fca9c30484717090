import OneShotOPD.Algos.Grpo
import OneShotOPD.Core.Checks
import OneShotOPD.Core.Latest
import OneShotOPD.ReplayBuffer.Metadata
import Mathlib.Data.List.GetD

/-!
# Advantages of sessions with several trajectories

Only the final output of a session takes part in the advantage computation.  Its advantage
is read off the first token that its response mask keeps, and is given to all outputs of
the session.  A final output whose mask keeps no token hands on nothing.
-/

namespace OneShotOPD.MultiTrajectories

open Checks CoreAlgos Latest ReplayBuffer SampleStats

variable {B T : ℕ}

/-! ## Keys -/

/-- `text.rsplit("_", 1)`, if there is an underscore. -/
def splitLast (text : String) : Option (String × String) :=
  match text.toList.reverse.dropWhile (· ≠ '_') with
  | [] => none
  | _ :: front =>
      some (String.ofList front.reverse,
        String.ofList (text.toList.reverse.takeWhile (· ≠ '_')).reverse)

def parseDigits (digits : List Char) : Option ℤ :=
  if digits ≠ [] ∧ digits.all Char.isDigit then some (Nat.ofDigitChars 10 digits 0) else none

/-- `int(text)`, for a text without blanks and underscores. -/
def parseInt (text : String) : Option ℤ :=
  match text.toList with
  | '-' :: digits => (parseDigits digits).map fun value => -value
  | '+' :: digits => parseDigits digits
  | digits => parseDigits digits

/-- The session key and the output index of a batch key. -/
def parseKey (key : String) : Except String (String × ℤ) :=
  match splitLast key with
  | none => .error "AssertionError: Unexpected key format"
  | some (front, index) =>
      match splitLast front with
      | none => .error "AssertionError: Unexpected key format"
      | some (uid, sessionId) =>
          match parseInt index with
          | none => .error "ValueError: invalid literal for int() with base 10"
          | some index => .ok (uid ++ "_" ++ sessionId, index)

/-- `{uid}_{session_id}`. -/
def sessionKey (key : TrajectoryKey String) : String := key.uid ++ "_" ++ key.sessionId.repr

/-- `{uid}_{session_id}_{index}`. -/
def render (key : TrajectoryKey String) : String := sessionKey key ++ "_" ++ key.index.repr

theorem splitLast_append (front back : String) (hback : '_' ∉ back.toList) :
    splitLast (front ++ "_" ++ back) = some (front, back) := by
  have hreverse : (front ++ "_" ++ back).toList.reverse =
      back.toList.reverse ++ '_' :: front.toList.reverse := by
    simp
  have hkeep : ∀ char ∈ back.toList.reverse, decide (char ≠ '_') = true := by
    intro char hchar
    rw [decide_eq_true_iff]
    rintro rfl
    exact hback (List.mem_reverse.mp hchar)
  rw [splitLast, hreverse, List.dropWhile_append_of_pos hkeep, List.takeWhile_append_of_pos hkeep]
  simp

theorem underscore_not_mem_repr (value : ℕ) : '_' ∉ value.repr.toList := by
  rw [Nat.toList_repr]
  exact Nat.underscore_not_in_toDigits

theorem parseInt_repr (value : ℕ) : parseInt value.repr = some (value : ℤ) := by
  have hdigits : ∀ char ∈ Nat.toDigits 10 value, char.isDigit = true := fun char hchar =>
    Nat.isDigit_of_mem_toDigits (by decide) (by decide) hchar
  have hparse : parseDigits (Nat.toDigits 10 value) = some (value : ℤ) := by
    rw [parseDigits, if_pos ⟨Nat.toDigits_ne_nil, List.all_eq_true.mpr hdigits⟩,
      Nat.ofDigitChars_toDigits (by decide) (by decide)]
  rw [parseInt, Nat.toList_repr]
  split
  next rest heq => exact absurd (hdigits '-' (heq ▸ List.mem_cons_self)) (by decide)
  next rest heq => exact absurd (hdigits '+' (heq ▸ List.mem_cons_self)) (by decide)
  next => exact hparse

theorem repr_injective : Function.Injective Nat.repr := fun left right heq => by
  have hparse := congrArg parseInt heq
  rw [parseInt_repr, parseInt_repr, Option.some.injEq] at hparse
  exact Int.ofNat_inj.mp hparse

theorem parseKey_render (key : TrajectoryKey String) :
    parseKey (render key) = .ok (sessionKey key, key.index) := by
  rw [parseKey, render, splitLast_append _ _ (underscore_not_mem_repr _)]
  dsimp only
  rw [sessionKey, splitLast_append _ _ (underscore_not_mem_repr _)]
  dsimp only
  rw [parseInt_repr]

def SameSession (key other : TrajectoryKey String) : Prop :=
  key.uid = other.uid ∧ key.sessionId = other.sessionId

instance (key other : TrajectoryKey String) : Decidable (SameSession key other) :=
  inferInstanceAs (Decidable (_ ∧ _))

theorem sessionKey_eq_iff {key other : TrajectoryKey String} :
    sessionKey key = sessionKey other ↔ SameSession key other := by
  constructor
  · intro heq
    have hsplit := congrArg splitLast heq
    rw [sessionKey, sessionKey, splitLast_append _ _ (underscore_not_mem_repr _),
      splitLast_append _ _ (underscore_not_mem_repr _), Option.some.injEq, Prod.mk.injEq] at hsplit
    exact ⟨hsplit.1, repr_injective hsplit.2⟩
  · rintro ⟨huid, hsession⟩
    rw [sessionKey, sessionKey, huid, hsession]

/-! ## The computation -/

/-- The columns of a batch that the computation reads. -/
structure TrajectoryData (B T : ℕ) where
  tokenLevelRewards : Grid B T
  responseMask : Fin B → Fin T → Bool
  uid : Fin B → String

def TrajectoryData.selectIdxs (data : TrajectoryData B T) (idxs : List (Fin B)) :
    TrajectoryData idxs.length T where
  tokenLevelRewards := fun row => data.tokenLevelRewards (idxs.get row)
  responseMask := fun row => data.responseMask (idxs.get row)
  uid := fun row => data.uid (idxs.get row)

def maskGrid (responseMask : Fin B → Fin T → Bool) : Grid B T := fun row position =>
  if responseMask row position then 1 else 0

/-- `mask.argmax()`: the first token that is kept, or the first one if none is. -/
def argmax (mask : Fin T → Bool) (hwidth : 0 < T) : Fin T :=
  ((List.finRange T).find? mask).getD ⟨0, hwidth⟩

/-- The rows with their session keys and output indices. -/
def parseRows (batchKeys : Fin B → String) : Except String (List (String × ℤ × Fin B)) :=
  (List.finRange B).mapM fun row => do
    let (sessionKey, index) ← parseKey (batchKeys row)
    return (sessionKey, index, row)

/-- `final_indices`. -/
def rowsOfSessions (rows : List (String × ℤ × Fin B)) : List (Fin B) :=
  (latestOf rows).entries.map fun entry => entry.2.2

/-- The scores of the final outputs, scattered to all rows. -/
noncomputable def scatterFinalScores (data : TrajectoryData B T)
    (rows : List (String × ℤ × Fin B)) (hwidth : 0 < T) (normAdvByStdInGrpo : Bool) : Grid B T :=
  let finalData := data.selectIdxs (rowsOfSessions rows)
  let advantages := (computeGrpoOutcomeAdvantage finalData.tokenLevelRewards
    (maskGrid finalData.responseMask) finalData.uid grpoEpsilon normAdvByStdInGrpo).1
  let finalScores := List.ofFn fun row =>
    advantages row (argmax (finalData.responseMask row) hwidth)
  let rowToLocalIndex := rows.map fun row => (latestOf rows).keys.idxOf row.1
  fun row position =>
    finalScores.getD (rowToLocalIndex.getD row 0) 0 * maskGrid data.responseMask row position

/-- `compute_advantage_for_multi_trajectories` for GRPO: advantages and returns. -/
noncomputable def computeAdvantageForMultiTrajectories (data : TrajectoryData B T)
    (batchKeys : Fin B → String) (normAdvByStdInGrpo : Bool) :
    Except String (Grid B T × Grid B T) := do
  let rows ← parseRows batchKeys
  if rowsOfSessions rows = [] then
    .error "IndexError: tensors used as indices must be long tensors"
  else if hwidth : 0 < T then
    let scores := scatterFinalScores data rows hwidth normAdvByStdInGrpo
    .ok (scores, scores)
  else .error "IndexError: argmax(): Expected reduction dim 1 to have non-zero size."

/-! ## What is promised -/

section Sessions

variable (keys : Fin B → TrajectoryKey String)

/-- No output of the session has a larger index. -/
def IsFinal (row : Fin B) : Prop :=
  ∀ other, SameSession (keys other) (keys row) → (keys other).index ≤ (keys row).index

instance : DecidablePred (IsFinal keys) := fun row =>
  inferInstanceAs (Decidable (∀ other, SameSession (keys other) (keys row) →
    (keys other).index ≤ (keys row).index))

/-- The final outputs of the sessions of a prompt. -/
def finalRows (uid : String) : List (Fin B) :=
  (List.finRange B).filter fun row => IsFinal keys row ∧ (keys row).uid = uid

/-- The outcome of a final output among the final outputs of its prompt. -/
noncomputable def sessionAdvantage (tokenLevelRewards : Grid B T) (normAdvByStdInGrpo : Bool)
    (final : Fin B) : ℝ :=
  let group := (finalRows keys (keys final).uid).map (outcomes tokenLevelRewards)
  if normAdvByStdInGrpo then
    (outcomes tokenLevelRewards final - id2mean group) / (id2std group + grpoEpsilon)
  else outcomes tokenLevelRewards final - id2mean group

def keyedData (tokenLevelRewards : Grid B T) (responseMask : Fin B → Fin T → Bool) :
    TrajectoryData B T where
  tokenLevelRewards := tokenLevelRewards
  responseMask := responseMask
  uid := fun row => (keys row).uid

/-- Every row has the advantage of the final output of its session, where its own mask
keeps a token. -/
def GivesSessionAdvantages (tokenLevelRewards : Grid B T) (responseMask : Fin B → Fin T → Bool)
    (normAdvByStdInGrpo : Bool) : Prop :=
  ∃ scores, computeAdvantageForMultiTrajectories (keyedData keys tokenLevelRewards responseMask)
      (fun row => render (keys row)) normAdvByStdInGrpo = .ok (scores, scores) ∧
    ∀ row final, SameSession (keys final) (keys row) → IsFinal keys final → ∀ position,
      scores row position = sessionAdvantage keys tokenLevelRewards normAdvByStdInGrpo final *
        maskGrid responseMask row position

end Sessions

/-! ## The final outputs -/

/-- The rows that the loop goes through. -/
def keyedRows (keys : Fin B → TrajectoryKey String) : List (String × ℤ × Fin B) :=
  (List.finRange B).map fun row => (sessionKey (keys row), ((keys row).index : ℤ), row)

theorem parseRows_render (keys : Fin B → TrajectoryKey String) :
    (parseRows fun row => render (keys row)) = .ok (keyedRows keys) := by
  refine mapM_eq_ok_map fun row _ => ?_
  rw [parseKey_render]
  rfl

def finalIndices (keys : Fin B → TrajectoryKey String) : List (Fin B) :=
  rowsOfSessions (keyedRows keys)

section Finals

variable {keys : Fin B → TrajectoryKey String}

theorem mem_keyedRows {output : String × ℤ × Fin B} :
    output ∈ keyedRows keys ↔
      output = (sessionKey (keys output.2.2), ((keys output.2.2).index : ℤ), output.2.2) := by
  rw [keyedRows, List.mem_map]
  constructor
  · rintro ⟨row, -, rfl⟩
    rfl
  · intro heq
    exact ⟨output.2.2, List.mem_finRange _, heq.symm⟩

/-- An entry of the dictionary is a final output, under the key of its session. -/
theorem isFinal_of_mem_entries {entry : String × ℤ × Fin B}
    (hentry : entry ∈ (latestOf (keyedRows keys)).entries) :
    entry = (sessionKey (keys entry.2.2), ((keys entry.2.2).index : ℤ), entry.2.2) ∧
      IsFinal keys entry.2.2 := by
  obtain ⟨hmem, hlatest⟩ := latestOf_get? ((Dict.get?_eq_some_iff _ _ _).mpr hentry)
  have heq := mem_keyedRows.mp hmem
  refine ⟨heq, fun other hsame => ?_⟩
  have hle := hlatest (sessionKey (keys other), ((keys other).index : ℤ), other)
    (mem_keyedRows.mpr rfl) ((sessionKey_eq_iff.mpr hsame).trans (congrArg Prod.fst heq).symm)
  have hindex := congrArg (fun output => output.2.1) heq
  dsimp only at hle hindex
  rw [hindex] at hle
  exact Int.ofNat_le.mp hle

/-- Every row has the entry of its session. -/
theorem sessionKey_mem_keys (row : Fin B) :
    sessionKey (keys row) ∈ (latestOf (keyedRows keys)).keys :=
  mem_keys_latestOf.mpr
    ⟨(sessionKey (keys row), ((keys row).index : ℤ), row), mem_keyedRows.mpr rfl, rfl⟩

theorem final_unique (hkeys : Function.Injective keys) {row other : Fin B}
    (hsame : SameSession (keys row) (keys other)) (hrow : IsFinal keys row)
    (hother : IsFinal keys other) : row = other := by
  apply hkeys
  have hle := hother row hsame
  have hge := hrow other ⟨hsame.1.symm, hsame.2.symm⟩
  have hindex := Nat.le_antisymm hle hge
  obtain ⟨huid, hsession⟩ := hsame
  cases hkey : keys row
  cases hkey' : keys other
  simp_all

/-- The place of a session in the dictionary holds its final output. -/
theorem getElem_finalIndices (hkeys : Function.Injective keys) {row final : Fin B}
    (hsame : SameSession (keys final) (keys row)) (hfinal : IsFinal keys final) :
    ∃ hlocal : (latestOf (keyedRows keys)).keys.idxOf (sessionKey (keys row)) <
        (finalIndices keys).length,
      (finalIndices keys).get ⟨_, hlocal⟩ = final := by
  have hmem := @sessionKey_mem_keys _ keys row
  have hlocal := List.idxOf_lt_length_iff.mpr hmem
  have hentries : (latestOf (keyedRows keys)).keys.idxOf (sessionKey (keys row)) <
      (latestOf (keyedRows keys)).entries.length := by
    simpa [Dict.keys] using hlocal
  refine ⟨by simpa [finalIndices, rowsOfSessions] using hentries, ?_⟩
  obtain ⟨heq, hlast⟩ := isFinal_of_mem_entries (List.getElem_mem hentries)
  have hkey : ((latestOf (keyedRows keys)).entries[(latestOf (keyedRows keys)).keys.idxOf
      (sessionKey (keys row))]).1 = sessionKey (keys row) := by
    have hget := List.getElem_idxOf hlocal
    simpa only [Dict.keys, List.getElem_map] using hget
  rw [List.get_eq_getElem]
  simp only [finalIndices, rowsOfSessions, List.getElem_map]
  refine final_unique hkeys ?_ hlast hfinal
  have hsession := sessionKey_eq_iff.mp ((congrArg Prod.fst heq).symm.trans hkey)
  exact ⟨hsession.1.trans hsame.1.symm, hsession.2.trans hsame.2.symm⟩

theorem mem_finalIndices (hkeys : Function.Injective keys) {row : Fin B} :
    row ∈ finalIndices keys ↔ IsFinal keys row := by
  constructor
  · intro hrow
    obtain ⟨entry, hentry, rfl⟩ := List.mem_map.mp hrow
    exact (isFinal_of_mem_entries hentry).2
  · intro hfinal
    obtain ⟨hlocal, hget⟩ := getElem_finalIndices hkeys ⟨rfl, rfl⟩ hfinal
    exact hget ▸ List.get_mem _ _

theorem nodup_finalIndices : (finalIndices keys).Nodup := by
  refine List.Nodup.map_on (fun entry hentry other hother heq => ?_)
    (List.Nodup.of_map _ (latestOf (keyedRows keys)).nodup_keys)
  rw [(isFinal_of_mem_entries hentry).1, (isFinal_of_mem_entries hother).1, heq]

theorem mem_finalRows {uid : String} {row : Fin B} :
    row ∈ finalRows keys uid ↔ IsFinal keys row ∧ (keys row).uid = uid := by
  simp [finalRows]

theorem nodup_finalRows (uid : String) : (finalRows keys uid).Nodup :=
  (List.nodup_finRange B).filter _

/-- The final outputs of a prompt in the sub-batch are those of the batch. -/
theorem groupRows_perm_finalRows (hkeys : Function.Injective keys) (uid : String) :
    ((groupRows (fun row => (keys ((finalIndices keys).get row)).uid) uid).map
      (finalIndices keys).get).Perm (finalRows keys uid) := by
  have hinjective : Function.Injective (finalIndices keys).get :=
    List.nodup_iff_injective_get.mp nodup_finalIndices
  refine (List.perm_ext_iff_of_nodup
    (((List.nodup_finRange _).filter _).map hinjective) (nodup_finalRows uid)).mpr fun row => ?_
  rw [List.mem_map, mem_finalRows, ← mem_finalIndices hkeys]
  constructor
  · rintro ⟨localRow, hlocal, rfl⟩
    exact ⟨List.get_mem _ _, mem_groupRows.mp hlocal⟩
  · rintro ⟨hmem, huid⟩
    obtain ⟨localRow, rfl⟩ := List.mem_iff_get.mp hmem
    exact ⟨localRow, mem_groupRows.mpr huid, rfl⟩

theorem id2mean_perm {values others : List ℝ} (hperm : values.Perm others) :
    id2mean values = id2mean others := by
  by_cases hlength : values.length = 1
  · obtain ⟨value, rfl⟩ := List.length_eq_one_iff.mp hlength
    rw [List.singleton_perm.mp hperm]
  · rw [id2mean_of_length_ne hlength, id2mean_of_length_ne (hperm.length_eq ▸ hlength),
      mean_perm hperm]

theorem id2std_perm {values others : List ℝ} (hperm : values.Perm others) :
    id2std values = id2std others := by
  by_cases hlength : values.length = 1
  · obtain ⟨value, rfl⟩ := List.length_eq_one_iff.mp hlength
    rw [List.singleton_perm.mp hperm]
  · rw [id2std_of_length_ne hlength, id2std_of_length_ne (hperm.length_eq ▸ hlength),
      std_perm hperm]

/-- The group statistics of the sub-batch are over the final outputs of the prompt. -/
theorem normalizedScore_finalIndices (hkeys : Function.Injective keys)
    (tokenLevelRewards : Grid B T) (normAdvByStdInGrpo : Bool)
    (localRow : Fin (finalIndices keys).length) :
    normalizedScore (fun row => (keys ((finalIndices keys).get row)).uid) grpoEpsilon
        normAdvByStdInGrpo
        (outcomes fun row => tokenLevelRewards ((finalIndices keys).get row)) localRow =
      sessionAdvantage keys tokenLevelRewards normAdvByStdInGrpo
        ((finalIndices keys).get localRow) := by
  have hgroup := (groupRows_perm_finalRows hkeys (keys ((finalIndices keys).get localRow)).uid).map
    (outcomes tokenLevelRewards)
  rw [List.map_map] at hgroup
  simp only [normalizedScore, getD_id2score, sessionAdvantage, ← id2mean_perm hgroup,
    ← id2std_perm hgroup]
  rfl

/-! ## The advantages -/

theorem maskGrid_argmax (responseMask : Fin B → Fin T → Bool) (hwidth : 0 < T) (row : Fin B) :
    maskGrid responseMask row (argmax (responseMask row) hwidth) =
      if ∃ position, responseMask row position then 1 else 0 := by
  rw [maskGrid, argmax]
  congr 1
  cases hfind : (List.finRange T).find? (responseMask row) with
  | none =>
      have hnone := List.find?_eq_none.mp hfind
      have hfalse : ¬ ∃ position, responseMask row position = true := fun ⟨position, hkept⟩ =>
        hnone position (List.mem_finRange position) hkept
      exact propext (iff_of_false (fun hkept => hfalse ⟨_, hkept⟩) hfalse)
  | some position =>
      have hkept := List.find?_some hfind
      exact propext (iff_of_true hkept ⟨position, hkept⟩)

theorem compute_render (tokenLevelRewards : Grid B T) (responseMask : Fin B → Fin T → Bool)
    (normAdvByStdInGrpo : Bool) :
    computeAdvantageForMultiTrajectories (keyedData keys tokenLevelRewards responseMask)
        (fun row => render (keys row)) normAdvByStdInGrpo =
      if finalIndices keys = [] then
        .error "IndexError: tensors used as indices must be long tensors"
      else if hwidth : 0 < T then
        .ok (scatterFinalScores (keyedData keys tokenLevelRewards responseMask) (keyedRows keys)
            hwidth normAdvByStdInGrpo,
          scatterFinalScores (keyedData keys tokenLevelRewards responseMask) (keyedRows keys)
            hwidth normAdvByStdInGrpo)
      else .error "IndexError: argmax(): Expected reduction dim 1 to have non-zero size." := by
  rw [computeAdvantageForMultiTrajectories, parseRows_render]
  rfl

theorem finalIndices_ne_nil (hrows : 0 < B) : finalIndices keys ≠ [] := by
  have hmem := @sessionKey_mem_keys _ keys ⟨0, hrows⟩
  rw [Dict.keys, List.mem_map] at hmem
  obtain ⟨entry, hentry, -⟩ := hmem
  exact List.ne_nil_of_mem (List.mem_map_of_mem hentry)

/-- The score that a final output hands on to the rows of its session. -/
theorem scatterFinalScores_eq (hkeys : Function.Injective keys) (hwidth : 0 < T)
    (tokenLevelRewards : Grid B T) (responseMask : Fin B → Fin T → Bool)
    (normAdvByStdInGrpo : Bool) {row final : Fin B}
    (hsame : SameSession (keys final) (keys row)) (hfinal : IsFinal keys final)
    (position : Fin T) :
    scatterFinalScores (keyedData keys tokenLevelRewards responseMask) (keyedRows keys) hwidth
        normAdvByStdInGrpo row position =
      sessionAdvantage keys tokenLevelRewards normAdvByStdInGrpo final *
        (if ∃ kept, responseMask final kept then 1 else 0) *
          maskGrid responseMask row position := by
  obtain ⟨hlocal, hget⟩ := getElem_finalIndices hkeys hsame hfinal
  have hplace : ((keyedRows keys).map fun output =>
      (latestOf (keyedRows keys)).keys.idxOf output.1).getD row 0 =
        (latestOf (keyedRows keys)).keys.idxOf (sessionKey (keys row)) := by
    have hrow : (row : ℕ) < ((keyedRows keys).map fun output =>
        (latestOf (keyedRows keys)).keys.idxOf output.1).length := by
      simp [keyedRows]
    rw [List.getD_eq_getElem _ _ hrow]
    simp [keyedRows]
  have hscore := fun localRow : Fin (finalIndices keys).length =>
    congrArg₂ (· * ·)
      (normalizedScore_finalIndices hkeys tokenLevelRewards normAdvByStdInGrpo localRow)
      (maskGrid_argmax (fun row => responseMask ((finalIndices keys).get row)) hwidth localRow)
  rw [scatterFinalScores]
  dsimp only
  rw [hplace]
  refine congrArg (· * maskGrid responseMask row position) ?_
  refine (List.getD_eq_getElem _ _ (by simpa [finalIndices] using hlocal)).trans ?_
  rw [List.getElem_ofFn]
  refine (hscore ⟨_, hlocal⟩).trans ?_
  rw [hget]

theorem id2std_nonneg (scores : List ℝ) : 0 ≤ id2std scores := by
  unfold id2std
  split
  next => exact zero_le_one
  next => exact std_nonneg _

/-- The only response with an outcome is above the mean of its group. -/
theorem id2mean_ne_one {group : List (Fin B)} (hnodup : group.Nodup) {final : Fin B}
    (hmem : final ∈ group) :
    id2mean (group.map fun row => if row = final then (1 : ℝ) else 0) ≠ 1 := by
  have hperm := (List.perm_cons_erase hmem).map fun row => if row = final then (1 : ℝ) else 0
  have hrest : ((group.erase final).map fun row => if row = final then (1 : ℝ) else 0).sum = 0 := by
    refine List.sum_eq_zero fun value hvalue => ?_
    obtain ⟨row, hrow, rfl⟩ := List.mem_map.mp hvalue
    exact if_neg fun heq => hnodup.not_mem_erase (heq ▸ hrow)
  rw [id2mean_perm hperm, List.map_cons, if_pos rfl]
  generalize (group.erase final).map _ = rest at hrest
  cases rest with
  | nil => simp [id2mean]
  | cons value rest =>
      have hmean : SampleStats.mean (1 :: value :: rest) = 1 / (rest.length + 2) := by
        rw [SampleStats.mean, List.sum_cons, hrest, add_zero, List.length_cons, List.length_cons]
        push_cast
        ring
      change SampleStats.mean (1 :: value :: rest) ≠ 1
      rw [hmean]
      have hlength : (0 : ℝ) ≤ rest.length := Nat.cast_nonneg _
      rw [ne_eq, div_eq_one_iff_eq (by positivity)]
      linarith

/-- Outcomes that set one final output apart from the others of its prompt. -/
theorem sessionAdvantage_ne_zero {final : Fin B} (hfinal : IsFinal keys final) (hwidth : 0 < T)
    (normAdvByStdInGrpo : Bool) :
    sessionAdvantage keys (fun row position =>
      if row = final ∧ position = ⟨0, hwidth⟩ then
        (1 : ℝ) else 0) normAdvByStdInGrpo final ≠ 0 := by
  have houtcomes : outcomes (fun row (position : Fin T) =>
      if row = final ∧ position = ⟨0, hwidth⟩ then (1 : ℝ) else 0) =
        fun row => if row = final then (1 : ℝ) else 0 := by
    funext row
    by_cases heq : row = final <;> simp [outcomes, heq]
  have hmean := id2mean_ne_one (nodup_finalRows (keys final).uid)
    (mem_finalRows.mpr ⟨hfinal, rfl⟩)
  have hpos : id2std ((finalRows keys (keys final).uid).map fun row =>
      if row = final then (1 : ℝ) else 0) + grpoEpsilon ≠ 0 :=
    (add_pos_of_nonneg_of_pos (id2std_nonneg _) grpoEpsilon_pos).ne'
  rw [sessionAdvantage, houtcomes]
  dsimp only
  rw [if_pos rfl]
  cases normAdvByStdInGrpo with
  | true => exact div_ne_zero (sub_ne_zero.mpr hmean.symm) hpos
  | false => exact sub_ne_zero.mpr hmean.symm

end Finals

/-- One session of two outputs, the second one being the final output. -/
def twoOutputs : Fin 2 → TrajectoryKey String := fun row => ⟨"prompt_a", 0, row⟩

theorem twoOutputs_injective : Function.Injective twoOutputs := by decide

end OneShotOPD.MultiTrajectories
