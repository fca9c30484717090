import OneShotOPD.DeltaSync.Placement
import OneShotOPD.DeltaSync.GatherQueue
import OneShotOPD.Core.Literals
import Mathlib

/-!
# The delta export

Every rank keeps a snapshot of its shards as of the last sync.  The export
compares the shards with it bit by bit, takes the new values of the changed
elements, and translates their positions to the full tensor.
-/

namespace OneShotOPD.DeltaSync

open RowMajor

variable {Group V : Type} {peers : ℕ}

inductive SyncError where
  | unsupportedElementSize (elementSize : ℕ)
  /-- "no seed snapshot for this shard; run the seed export first" -/
  | noSnapshot (name : String)
  /-- "full export yields duplicate HF tensor" -/
  | duplicateTensor (name : String)
  /-- "elements exceeds the int32 position encoding" -/
  | tooManyElements (name : String) (numel : ℕ)
  | checksumMismatch (got expected : ℕ)
  | indexOutOfRange (name : String)
  | invalidShape (name : String)
  /-- The next message never comes. -/
  | waiting
  deriving DecidableEq

/-- A floating point type.  Its values are compared bit by bit, so a value of
`V` is a bit pattern. -/
structure FloatType (V : Type) where
  name : String
  elementSize : ℕ
  supported : elementSize ∈ [1, 2, 4, 8]
  zero : V
  nan : V
  isNaN : V → Bool
  isNaN_nan : isNaN nan = true

/-- How a parameter is cut into blocks: every element lies in the block of
exactly one contributing rank. -/
structure Sharding (peers : ℕ) (Group : Type) (shape : List ℕ) where
  group : Group
  block : Fin (peers + 1) → BlockPlacement
  contributes : Fin (peers + 1) → Bool
  block_shape : ∀ rank, (block rank).fullShape = shape
  partition : ∀ coords, InBounds shape coords → ∃! rank, contributes rank = true ∧
    Covers (block rank).localShape (block rank).globalOffset coords

/-- A parameter that is not sharded is whole on every rank. -/
structure Param (peers : ℕ) (Group : Type) where
  name : String
  shape : List ℕ
  sharding : Option (Sharding peers Group shape)

def Param.numel (param : Param peers Group) : ℕ := param.shape.prod

attribute [local instance (2000)] Literals.neZero_succ in
/-- `derive_dtensor_placement`. -/
def Param.placement (param : Param peers Group) (rank : Fin (peers + 1)) :
    Place × Bool × Option Group :=
  match param.sharding with
  | none => (.flat 0, rank = 0, none)
  | some sharding =>
      (.block (sharding.block rank), sharding.contributes rank, some sharding.group)

/-- The shard of a rank, flattened. -/
def Param.localShard (float : FloatType V) (param : Param peers Group)
    (rank : Fin (peers + 1)) (full : List V) : List V :=
  match param.sharding with
  | none => full
  | some sharding =>
      (List.range (sharding.block rank).localShape.prod).map fun i =>
        full.getD (ravel param.shape (shift (sharding.block rank).globalOffset
          (unravel (sharding.block rank).localShape i))) float.zero

section Diff

variable [DecidableEq V]

def changedIndices (localNew localSnap : List V) : List ℕ :=
  (List.range localNew.length).filter fun i => localNew[i]? ≠ localSnap[i]?

def shardDeltaIndices (float : FloatType V) (localNew localSnap : List V) (start : ℕ) :
    Except SyncError (List ℕ × List V) :=
  if float.elementSize ∈ [1, 2, 4, 8] then
    let localIdx := changedIndices localNew localSnap
    .ok (localIdx.map (· + start), localIdx.filterMap fun i => localNew[i]?)
  else .error (.unsupportedElementSize float.elementSize)

/-- `Tensor.to(torch.int32)` of a non-negative position. -/
def toInt32 (position : ℕ) : ℤ := (BitVec.ofNat 32 position).toInt

/-- `_hf_entry_identity`: the parameter is its own single slot. -/
def hfEntryIdentity (float : FloatType V) (param : Param peers Group) (place : Place)
    (lidx : List ℕ) (lval : List V) : Entry V :=
  let gidx := lidx.map fun i => toInt32 (translateFlatIndex place i)
  { slots := [⟨param.name, param.shape⟩]
    dtypeStr := float.name
    counts := [gidx.length]
    idx := gidx
    val := lval }

/-- One parameter of `hf_delta_export`: its entry, and the refreshed
snapshots. -/
def exportParam (float : FloatType V) (rank : Fin (peers + 1)) (weights : String → List V)
    (snaps : Dict String (List V)) (param : Param peers Group) :
    Except SyncError ((Option Group × Entry V) × Dict String (List V)) := do
  let shard := param.localShard float rank (weights param.name)
  let snap ← match snaps.get? param.name with
    | some snap =>
        if snap.length = shard.length then .ok snap else .error (.noSnapshot param.name)
    | none => .error (.noSnapshot param.name)
  let (place, contributes, pg) := param.placement rank
  let (lidx, lval) ← if contributes then shardDeltaIndices float shard snap 0 else .ok ([], [])
  return ((pg, hfEntryIdentity float param place lidx lval), snaps.insert param.name shard)

def hfDeltaExport (float : FloatType V) (rank : Fin (peers + 1)) (weights : String → List V) :
    List (Param peers Group) → Dict String (List V) →
      Except SyncError (List (Option Group × Entry V) × Dict String (List V))
  | [], snaps => .ok ([], snaps)
  | param :: params, snaps => do
      let (entry, snaps) ← exportParam float rank weights snaps param
      let (entries, snaps) ← hfDeltaExport float rank weights params snaps
      return (entry :: entries, snaps)

/-- `prime_delta_snapshots`. -/
def primeDeltaSnapshots (float : FloatType V) (rank : Fin (peers + 1))
    (weights : String → List V) (params : List (Param peers Group))
    (snaps : Dict String (List V)) : Dict String (List V) :=
  params.foldl (fun snaps param =>
    snaps.insert param.name (param.localShard float rank (weights param.name))) snaps

/-! ## What a parameter exports on all ranks -/

/-- The changed elements of the shard of a rank. -/
def changedEntries (float : FloatType V) (param : Param peers Group) (old new : List V)
    (rank : Fin (peers + 1)) : List (ℤ × V) :=
  let place := param.placement rank
  if place.2.1 then
    let shard := param.localShard float rank new
    (changedIndices shard (param.localShard float rank old)).map fun i =>
      (toInt32 (translateFlatIndex place.1 i), shard.getD i float.zero)
  else []

attribute [local instance (2000)] Literals.neZero_succ in
def exportOf (float : FloatType V) (param : Param peers Group) (old new : List V) :
    Option Group × Export peers V :=
  ((param.placement 0).2.2,
    { slots := [⟨param.name, param.shape⟩]
      dtypeStr := float.name
      pieces rank := [changedEntries float param old new rank]
      length_pieces _ := rfl })

theorem placement_group (param : Param peers Group) (rank : Fin (peers + 1)) :
    (param.placement rank).2.2 = (param.placement 0).2.2 := by
  cases hsharding : param.sharding <;> simp [Param.placement, hsharding]

omit [DecidableEq V] in
theorem length_localShard (float : FloatType V) (param : Param peers Group)
    (rank : Fin (peers + 1)) {old new : List V} (hlength : old.length = new.length) :
    (param.localShard float rank old).length = (param.localShard float rank new).length := by
  cases hsharding : param.sharding <;> simp [Param.localShard, hsharding, hlength]

theorem filterMap_changedIndices (float : FloatType V) (localNew localSnap : List V) :
    ((changedIndices localNew localSnap).filterMap fun i => localNew[i]?) =
      (changedIndices localNew localSnap).map fun i => localNew.getD i float.zero := by
  rw [← List.filterMap_eq_map']
  refine List.filterMap_congr fun i hi => ?_
  have hlt : i < localNew.length := List.mem_range.mp (List.mem_filter.mp hi).1
  simp [hlt]

theorem exportParam_eq (float : FloatType V) (rank : Fin (peers + 1))
    (old new : String → List V) (snaps : Dict String (List V)) (param : Param peers Group)
    (hsnap : snaps.get? param.name = some (param.localShard float rank (old param.name)))
    (hlength : (old param.name).length = (new param.name).length) :
    exportParam float rank new snaps param =
      .ok (((exportOf float param (old param.name) (new param.name)).1,
          (exportOf float param (old param.name) (new param.name)).2.entry rank),
        snaps.insert param.name (param.localShard float rank (new param.name))) := by
  have hshard := length_localShard float param rank hlength
  have hgroup := placement_group param rank
  have hentries := filterMap_changedIndices float
    (param.localShard float rank (new param.name))
    (param.localShard float rank (old param.name))
  rw [exportParam, hsnap]
  simp only [if_pos hshard, exportOf, Export.entry, changedEntries, ← hgroup]
  obtain ⟨place, contributes, pg⟩ := param.placement rank
  cases contributes with
  | false => rfl
  | true =>
      simp only [shardDeltaIndices, if_pos float.supported]
      simp [hfEntryIdentity, positionsOf, valuesOf, bind, Except.bind, pure, Except.pure,
        Function.comp_def]
      simpa only [List.getD_eq_getElem?_getD] using hentries

/-- Before a sync the snapshots of a rank are its shards as of the last sync. -/
def Primed (float : FloatType V) (params : List (Param peers Group)) (old : String → List V)
    (rank : Fin (peers + 1)) (snaps : Dict String (List V)) : Prop :=
  ∀ param ∈ params, snaps.get? param.name =
    some (param.localShard float rank (old param.name))

omit [DecidableEq V] in
theorem get?_primeDeltaSnapshots_of_not_mem (float : FloatType V) (rank : Fin (peers + 1))
    (weights : String → List V) {params : List (Param peers Group)} {name : String}
    (hname : name ∉ params.map Param.name) (snaps : Dict String (List V)) :
    (primeDeltaSnapshots float rank weights params snaps).get? name = snaps.get? name := by
  induction params generalizing snaps with
  | nil => rfl
  | cons param params ih =>
      rw [List.map_cons, List.mem_cons, not_or] at hname
      change (primeDeltaSnapshots float rank weights params _).get? name = _
      rw [ih hname.2, Dict.get?_insert_of_ne _ _ hname.1]

omit [DecidableEq V] in
theorem primed_primeDeltaSnapshots (float : FloatType V) (rank : Fin (peers + 1))
    (weights : String → List V) {params : List (Param peers Group)}
    (hnames : (params.map Param.name).Nodup) (snaps : Dict String (List V)) :
    Primed float params weights rank
      (primeDeltaSnapshots float rank weights params snaps) := by
  induction params generalizing snaps with
  | nil => simp [Primed]
  | cons first params ih =>
      rw [List.map_cons, List.nodup_cons] at hnames
      intro param hparam
      change (primeDeltaSnapshots float rank weights params _).get? param.name = _
      rcases List.mem_cons.mp hparam with rfl | hmem
      · rw [get?_primeDeltaSnapshots_of_not_mem float rank weights hnames.1,
          Dict.get?_insert_self]
      · exact ih hnames.2 _ param hmem

/-- The export of a rank is its share of what all ranks export, and primes the
snapshots for the next one. -/
theorem hfDeltaExport_eq (float : FloatType V) (rank : Fin (peers + 1))
    (old new : String → List V) {params : List (Param peers Group)}
    (hnames : (params.map Param.name).Nodup)
    (hlength : ∀ param ∈ params, (old param.name).length = (new param.name).length)
    {snaps : Dict String (List V)} (hprimed : Primed float params old rank snaps) :
    hfDeltaExport float rank new params snaps =
      .ok ((params.map fun param => exportOf float param (old param.name) (new param.name)).map
          fun item => (item.1, item.2.entry rank),
        primeDeltaSnapshots float rank new params snaps) := by
  induction params generalizing snaps with
  | nil => rfl
  | cons param params ih =>
      rw [List.map_cons, List.nodup_cons] at hnames
      have hparam := exportParam_eq float rank old new snaps param
        (hprimed param (by simp)) (hlength param (by simp))
      have hrest : Primed float params old rank
          (snaps.insert param.name (param.localShard float rank (new param.name))) := by
        intro other hother
        have hne : other.name ≠ param.name := by
          intro heq
          exact hnames.1 (heq ▸ List.mem_map_of_mem hother)
        rw [Dict.get?_insert_of_ne _ _ hne]
        exact hprimed other (by simp [hother])
      rw [hfDeltaExport, hparam]
      change (hfDeltaExport float rank new params _ >>= _) = _
      rw [ih hnames.2 (fun other hother => hlength other (by simp [hother])) hrest]
      rfl

end Diff

/-! ## Every change is exported once it lies in a block -/

theorem toInt32_eq {position : ℕ} (hposition : position < 2 ^ 31) :
    toInt32 position = position := by
  rw [toInt32, BitVec.toInt_eq_toNat_of_lt]
  · rw [BitVec.toNat_ofNat, Nat.mod_eq_of_lt (by omega)]
  · rw [BitVec.toNat_ofNat, Nat.mod_eq_of_lt (by omega)]
    omega

section Shard

variable (float : FloatType V) (param : Param peers Group) (rank : Fin (peers + 1))

/-- An element of a shard is the element of the full tensor at the translated
position. -/
theorem localShard_getElem? {full : List V} (hfull : full.length = param.numel) {i : ℕ}
    (hi : i < (param.localShard float rank full).length) :
    translateFlatIndex (param.placement rank).1 i < param.numel ∧
      (param.localShard float rank full)[i]? =
        full[translateFlatIndex (param.placement rank).1 i]? := by
  cases hsharding : param.sharding with
  | none =>
      simp only [Param.localShard, hsharding] at hi
      simp [Param.localShard, Param.placement, hsharding, translateFlatIndex, ← hfull, hi]
  | some sharding =>
      simp only [Param.localShard, hsharding, List.length_map, List.length_range] at hi
      have hwithin := (sharding.block rank).within
      rw [sharding.block_shape] at hwithin
      have hin := (covers_shift hwithin (inBounds_unravel hi)).2
      have hlt : ravel param.shape (shift (sharding.block rank).globalOffset
          (unravel (sharding.block rank).localShape i)) < param.numel := ravel_lt hin
      simp only [Param.localShard, Param.placement, hsharding]
      rw [translateFlatIndex_block _ hi, sharding.block_shape]
      refine ⟨hlt, ?_⟩
      rw [List.getElem?_map, List.getElem?_range hi, Option.map_some,
        List.getElem?_eq_getElem (hfull ▸ hlt), List.getD_eq_getElem _ _ (hfull ▸ hlt)]

omit rank in
/-- Every element lies in the shard of a rank that contributes it. -/
theorem exists_owner {position : ℕ} (hposition : position < param.numel) :
    ∃ rank i, (param.placement rank).2.1 = true ∧
      (param.sharding = none → rank = 0) ∧
      translateFlatIndex (param.placement rank).1 i = position ∧
      ∀ full : List V, full.length = param.numel →
        i < (param.localShard float rank full).length := by
  cases hsharding : param.sharding with
  | none =>
      refine ⟨0, position, ?_, fun _ => rfl, ?_, ?_⟩
      · simp [Param.placement, hsharding]
      · simp [Param.placement, hsharding, translateFlatIndex]
      · intro full hfull
        simpa [Param.localShard, hsharding, hfull] using hposition
  | some sharding =>
      obtain ⟨rank, ⟨hcontributes, hcovers⟩, _⟩ :=
        sharding.partition (unravel param.shape position) (inBounds_unravel hposition)
      obtain ⟨own, hbounds, hshift⟩ := exists_shift_of_covers hcovers
      have hlt := ravel_lt hbounds
      refine ⟨rank, ravel (sharding.block rank).localShape own, ?_, by simp, ?_, ?_⟩
      · simpa [Param.placement, hsharding] using hcontributes
      · simp only [Param.placement, hsharding]
        rw [translateFlatIndex_block _ hlt, unravel_ravel hbounds, hshift,
          sharding.block_shape, ravel_unravel hposition]
      · intro full _
        simpa [Param.localShard, hsharding] using hlt

variable [DecidableEq V] {old new : List V}

theorem mem_changedIndices {localNew localSnap : List V} {i : ℕ} :
    i ∈ changedIndices localNew localSnap ↔
      i < localNew.length ∧ localNew[i]? ≠ localSnap[i]? := by
  simp [changedIndices]

/-- What is exported is new. -/
theorem mem_changedEntries (hnumel : param.numel < 2 ^ 31) (hold : old.length = param.numel)
    (hnew : new.length = param.numel) {index : ℤ} {value : V}
    (hentry : (index, value) ∈ changedEntries float param old new rank) :
    ∃ position < param.numel, index = position ∧ new[position]? = some value ∧
      old[position]? ≠ some value := by
  rw [changedEntries] at hentry
  dsimp only at hentry
  split at hentry
  next =>
    obtain ⟨i, hi, heq⟩ := List.mem_map.mp hentry
    obtain ⟨rfl, rfl⟩ := Prod.mk.inj heq
    obtain ⟨hlt, hchanged⟩ := mem_changedIndices.mp hi
    have hltOld : i < (param.localShard float rank old).length := by
      rwa [length_localShard float param rank (hold.trans hnew.symm)]
    obtain ⟨hposition, hgetNew⟩ := localShard_getElem? float param rank hnew hlt
    obtain ⟨_, hgetOld⟩ := localShard_getElem? float param rank hold hltOld
    have hvalue : (param.localShard float rank new)[i]? =
        some ((param.localShard float rank new).getD i float.zero) := by
      rw [List.getD_eq_getElem _ _ hlt, List.getElem?_eq_getElem hlt]
    refine ⟨_, hposition, toInt32_eq (hposition.trans hnumel), ?_, ?_⟩
    · rw [← hgetNew, hvalue]
    · rw [← hgetOld, ← hvalue]
      exact hchanged.symm
  next => simp at hentry

omit rank in
/-- What has changed is exported. -/
theorem exists_mem_changedEntries (hold : old.length = param.numel)
    (hnew : new.length = param.numel) {position : ℕ} (hposition : position < param.numel)
    (hchanged : new[position]? ≠ old[position]?) :
    ∃ rank, (param.sharding = none → rank = 0) ∧
      toInt32 position ∈ (changedEntries float param old new rank).map Prod.fst := by
  obtain ⟨rank, i, hcontributes, hfirst, htranslate, hlength⟩ :=
    exists_owner float param hposition
  have hgetNew := (localShard_getElem? float param rank hnew (hlength new hnew)).2
  have hgetOld := (localShard_getElem? float param rank hold (hlength old hold)).2
  rw [htranslate] at hgetNew hgetOld
  refine ⟨rank, hfirst, ?_⟩
  have hi : i ∈ changedIndices (param.localShard float rank new)
      (param.localShard float rank old) :=
    mem_changedIndices.mpr ⟨hlength new hnew, by rwa [hgetNew, hgetOld]⟩
  rw [changedEntries]
  dsimp only
  rw [if_pos hcontributes, List.map_map]
  refine List.mem_map.mpr ⟨i, hi, ?_⟩
  rw [Function.comp_apply, htranslate]

end Shard

end OneShotOPD.DeltaSync
