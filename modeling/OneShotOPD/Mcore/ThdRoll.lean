import OneShotOPD.Core.Dict
import OneShotOPD.Mcore.PaddedChunks
import OneShotOPD.Mcore.ThdRoundTrip
import Mathlib.Data.List.Rotate

/-!
# Rolled labels

A label is the token behind its own.  In the zigzag layout the packer rolls the
whole buffer of a rank by one row, which mixes chunks and sequences, and patches
the last row of every chunk with a token that it has saved.
-/

namespace OneShotOPD.Mcore

open Segments SliceAssign Checks

variable {α : Type}

/-- `d[index]`. -/
def item (d : List α) (index : ℕ) : Except String α :=
  match d[index]? with
  | some value => .ok value
  | none => .error "index out of range"

/-- `rows[key] = value`. -/
def setItem (rows : List α) (key : ℤ) (value : α) : Except String (List α) :=
  let position := if key < 0 then key + rows.length else key
  if 0 ≤ position ∧ position < rows.length then .ok (rows.set position.toNat value)
  else .error "index out of range"

/-- The tokens that the last rows of the two chunks are patched with. -/
def saveRolls (cpSize rank alignSize : ℕ) (zero : α) (tokens : List α)
    (seqlenPadded seqStart : ℕ) (saved : Dict ℤ α) : Except String (Dict ℤ α) := do
  let halfSeqlen := seqlenPadded / cpSize / 2
  let startIdx := seqStart / cpSize
  let d := padToAlign alignSize zero tokens
  let remainStart := seqlenPadded - halfSeqlen * (rank + 1)
  let remainEnd := min (seqlenPadded - halfSeqlen * rank) d.length
  let next ← item d ((rank + 1) * halfSeqlen)
  let saved := saved.insert ((startIdx + halfSeqlen : ℕ) - 1) next
  if remainStart < remainEnd then do
    let after ← if remainEnd = d.length then item d 0 else item d remainEnd
    return saved.insert ((startIdx + halfSeqlen + (remainEnd - remainStart) : ℕ) - 1) after
  else return saved

/-- The part of a rolled sequence that falls into the interval of a rank. -/
def copyIntervalRolled (rank : ℕ) (rows : List α) (tokens : List α) (seqGlobalStart : ℕ) :
    Except String (List α) :=
  let localGlobalStart := rows.length * rank
  let localGlobalEnd := localGlobalStart + rows.length
  let copyGlobalStart := max localGlobalStart seqGlobalStart
  let copyGlobalEnd := min localGlobalEnd (seqGlobalStart + tokens.length)
  if copyGlobalEnd ≤ copyGlobalStart then .ok rows
  else do
    let sourceStart := copyGlobalStart - seqGlobalStart
    let sourceEnd := copyGlobalEnd - seqGlobalStart
    let sourceIndices := (List.range' sourceStart (sourceEnd - sourceStart)).map fun index =>
      (index + 1) % tokens.length
    let source ← sourceIndices.mapM (item tokens)
    assignSlice rows (copyGlobalStart - localGlobalStart) (copyGlobalEnd - localGlobalStart) source

/-- One sequence of the loop with `need_roll`. -/
def rollSequence (settings : ThdSettings) (rank : ℕ) (zero : α) (state : List α × Dict ℤ α)
    (tokens : List α) (seqlenPadded seqStart : ℕ) : Except String (List α × Dict ℤ α) :=
  match settings.cpLayout with
  | .contiguous => do
      let rows ← copyIntervalRolled rank state.1 tokens seqStart
      return (rows, state.2)
  | .zigzag =>
      if settings.cpSize ≤ 1 then do
        let rows ← assignSlice state.1 seqStart (seqStart + tokens.length) tokens
        return (rows, state.2)
      else do
        let rows ← writeChunks settings.cpSize rank settings.alignSize zero state.1 tokens
          seqlenPadded seqStart
        let saved ← saveRolls settings.cpSize rank settings.alignSize zero tokens seqlenPadded
          seqStart state.2
        return (rows, saved)

def rollSequences (settings : ThdSettings) (rank : ℕ) (zero : α) (sequences : List (List α))
    (packed : PackedLengths) : Except String (List α × Dict ℤ α) :=
  (List.range sequences.length).foldlM
    (fun state i => rollSequence settings rank zero state (sequences.getD i [])
      (packed.seqlensInBatchPadded.getD i 0) (packed.cuSeqlensPadded.getD i 0))
    (List.replicate (packed.seqlensInBatchPadded.sum / settings.cpSize) zero, Dict.empty)

/-- `input_ids_rmpad[k] = v` for the saved tokens. -/
def patchRows (rows : List α) (saved : List (ℤ × α)) : Except String (List α) :=
  saved.foldlM (fun rows entry => setItem rows entry.1 entry.2) rows

/-- `preprocess_thd_engine` with `need_roll`. -/
def preprocessThdEngineRolled (settings : ThdSettings) (rank : ℕ) (zero : α)
    (sequences : List (List α)) : Except String (PackedRows α) := do
  let packed ← settings.packLengths (sequences.map List.length)
  let (rows, saved) ← rollSequences settings rank zero sequences packed
  let rows ← match settings.cpLayout with
    | .zigzag => patchRows (rows.rotate 1) saved.entries
    | .contiguous => .ok rows
  raiseIf (settings.hasCpPartitionMode = false ∧ settings.cpLayout ≠ .zigzag ∧
    1 < settings.cpSize) "cp_layout requires PackedSeqParams.cp_partition_mode"
  return {
    rows
    params := {
      cuSeqlensPadded := packed.cuSeqlensPadded
      maxSeqlen := packed.seqlensInBatchPadded.foldl max 0
      cpPartitionMode :=
        if settings.hasCpPartitionMode then some settings.cpLayout else none } }

/-! ## The saved rows -/

theorem item_eq_ok {d : List α} {index : ℕ} (zero : α) (hindex : index < d.length) :
    item d index = .ok (d.getD index zero) := by
  rw [item, List.getElem?_eq_getElem hindex, List.getD_eq_getElem _ _ hindex]

theorem lt_length_of_item {d : List α} {index : ℕ} {value : α} (hok : item d index = .ok value) :
    index < d.length := by
  rw [item] at hok
  split at hok
  next found hfound => exact (List.getElem?_eq_some_iff.mp hfound).1
  next => cases hok

theorem setItem_natCast {rows : List α} {index : ℕ} (value : α) (hindex : index < rows.length) :
    setItem rows index value = .ok (rows.set index value) := by
  have hrange : (0 : ℤ) ≤ index ∧ (index : ℤ) < rows.length := by omega
  simp only [setItem, if_neg (not_lt.mpr hrange.1), if_pos hrange, Int.toNat_natCast]

/-- Patching replaces the saved rows and no others. -/
theorem patchRows_eq_ok {saved : List (ℤ × α)} (hkeys : (saved.map Prod.fst).Nodup)
    {rows : List α} (hrange : ∀ entry ∈ saved, ∃ index : ℕ, entry.1 = index ∧ index < rows.length) :
    ∃ patched, patchRows rows saved = .ok patched ∧
      (∀ index : ℕ, (index : ℤ) ∉ saved.map Prod.fst → patched[index]? = rows[index]?) ∧
      ∀ (index : ℕ) (value : α), ((index : ℤ), value) ∈ saved → patched[index]? = some value := by
  induction saved generalizing rows with
  | nil => exact ⟨rows, rfl, fun _ _ => rfl, fun _ _ hmem => absurd hmem List.not_mem_nil⟩
  | cons entry saved ih =>
      obtain ⟨key, value⟩ := entry
      obtain ⟨index, rfl, hindex⟩ := hrange _ List.mem_cons_self
      rw [List.map_cons, List.nodup_cons] at hkeys
      have hrest : ∀ entry ∈ saved, ∃ position : ℕ, entry.1 = position ∧
          position < (rows.set index value).length := by
        intro entry hentry
        obtain ⟨position, hposition, hlt⟩ := hrange entry (List.mem_cons_of_mem _ hentry)
        exact ⟨position, hposition, by rwa [List.length_set]⟩
      obtain ⟨patched, hpatched, hothers, hvalues⟩ := ih hkeys.2 hrest
      refine ⟨patched, ?_, ?_, ?_⟩
      · rw [patchRows, List.foldlM_cons, setItem_natCast value hindex]
        exact hpatched
      · intro position hposition
        rw [List.map_cons, List.mem_cons, not_or] at hposition
        rw [hothers position hposition.2, List.getElem?_set_ne]
        exact fun heq => hposition.1 (congrArg Nat.cast heq.symm)
      · intro position found hfound
        rcases List.mem_cons.mp hfound with heq | hmem
        · obtain ⟨hposition, rfl⟩ := Prod.mk.inj heq
          rw [Int.natCast_inj.mp hposition, hothers index hkeys.1, List.getElem?_set_self hindex]
        · exact hvalues position found hmem

/-- The tokens that are saved for a sequence, when none of them is missing. -/
def rollEntries (cpSize rank alignSize : ℕ) (zero : α) (tokens : List α)
    (seqlenPadded seqStart : ℕ) : List (ℤ × α) :=
  let halfSeqlen := seqlenPadded / cpSize / 2
  let startIdx := seqStart / cpSize
  let d := padToAlign alignSize zero tokens
  let remainStart := seqlenPadded - halfSeqlen * (rank + 1)
  let remainEnd := min (seqlenPadded - halfSeqlen * rank) d.length
  ((startIdx + halfSeqlen : ℕ) - 1, d.getD ((rank + 1) * halfSeqlen) zero) ::
    if remainStart < remainEnd then
      [((startIdx + halfSeqlen + (remainEnd - remainStart) : ℕ) - 1,
        if remainEnd = d.length then d.getD 0 zero else d.getD remainEnd zero)]
    else []

theorem saveRolls_eq {cpSize rank alignSize : ℕ} (zero : α) {tokens : List α}
    {seqlenPadded : ℕ} (seqStart : ℕ) (saved : Dict ℤ α)
    (hreach : (rank + 1) * (seqlenPadded / cpSize / 2) < max tokens.length alignSize) :
    saveRolls cpSize rank alignSize zero tokens seqlenPadded seqStart saved =
      .ok ((rollEntries cpSize rank alignSize zero tokens seqlenPadded seqStart).foldl
        (fun dict entry => dict.insert entry.1 entry.2) saved) := by
  rw [← length_padToAlign alignSize zero] at hreach
  rw [saveRolls, rollEntries]
  simp only [item_eq_ok zero hreach, bind, Except.bind, pure, Except.pure]
  split
  next hremain =>
    split
    next hend => rw [item_eq_ok zero (Nat.zero_lt_of_lt hreach)]; rfl
    next hend => rw [item_eq_ok zero ((min_le_right _ _).lt_of_ne hend)]; rfl
  next => rfl

theorem reach_of_saveRolls {cpSize rank alignSize : ℕ} {zero : α} {tokens : List α}
    {seqlenPadded seqStart : ℕ} {saved result : Dict ℤ α}
    (hok : saveRolls cpSize rank alignSize zero tokens seqlenPadded seqStart saved =
      .ok result) :
    (rank + 1) * (seqlenPadded / cpSize / 2) < max tokens.length alignSize := by
  obtain ⟨next, hnext, -⟩ := bind_eq_ok.mp hok
  have hlt := lt_length_of_item hnext
  rwa [length_padToAlign] at hlt

/-! ## The contiguous layout -/

/-- The rolled part of a sequence is a part of the rolled sequence. -/
theorem copyIntervalRolled_eq (rank : ℕ) (rows tokens : List α) (seqGlobalStart : ℕ) :
    copyIntervalRolled rank rows tokens seqGlobalStart =
      copyInterval rank rows (tokens.rotate 1) seqGlobalStart := by
  rw [copyIntervalRolled, copyInterval]
  simp only [List.length_rotate]
  split
  next => rfl
  next hoverlap =>
    have hsource : ((List.range'
          (max (rows.length * rank) seqGlobalStart - seqGlobalStart)
          (min (rows.length * rank + rows.length) (seqGlobalStart + tokens.length) -
              seqGlobalStart -
            (max (rows.length * rank) seqGlobalStart - seqGlobalStart))).map
          fun index => (index + 1) % tokens.length).mapM (item tokens) =
        .ok (slice (max (rows.length * rank) seqGlobalStart - seqGlobalStart)
          (min (rows.length * rank + rows.length) (seqGlobalStart + tokens.length) -
            seqGlobalStart) (tokens.rotate 1)) := by
      generalize hlow : max (rows.length * rank) seqGlobalStart - seqGlobalStart = low
      generalize hhigh : min (rows.length * rank + rows.length)
        (seqGlobalStart + tokens.length) - seqGlobalStart = high
      have hlt : low < high := by omega
      have hle : high ≤ tokens.length := by omega
      have hpos : 0 < tokens.length := by omega
      obtain ⟨zero, -⟩ := List.exists_mem_of_length_pos hpos
      rw [mapM_eq_ok_map (g := fun index => tokens.getD index zero)]
      · refine congrArg _ (List.ext_getElem ?_ fun index hleft hright => ?_)
        · rw [List.length_map, List.length_map, List.length_range',
            length_slice (by rwa [List.length_rotate])]
        · simp [slice, List.getElem_rotate, List.getD_eq_getElem?_getD, Nat.mod_lt _ hpos]
      · intro index hindex
        obtain ⟨source, -, rfl⟩ := List.mem_map.mp hindex
        exact item_eq_ok zero (Nat.mod_lt _ hpos)
    rw [hsource]
    rfl

end OneShotOPD.Mcore
