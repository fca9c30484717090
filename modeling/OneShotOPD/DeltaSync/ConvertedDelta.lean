import OneShotOPD.DeltaSync.ConvertedEntry
import OneShotOPD.DeltaSync.DefaultConverter
import OneShotOPD.Core.Shares
import Mathlib

/-!
# The delta of the converted tensors

Every rank converts the changes of its own block of a fused parameter.  Slot by
slot, the entries of all ranks together are the positions and values at which the
converted new tensors differ from the converted old ones.
-/

namespace OneShotOPD.DeltaSync

open Checks Segments RowMajor

variable {Group V : Type} {peers : ℕ} [DecidableEq V]

/-- The changed elements of a shard; a replica exports none. -/
def changedElements (float : FloatType V) (contributes : Bool) (localShard snap : List V) :
    Except String (List ℕ × List V) :=
  if contributes then
    (shardDeltaIndices float localShard snap 0).mapError fun _ => "unsupported element size"
  else .ok ([], [])

/-- `hf_delta_export` for a parameter with a converter: the spec with the slots that the handler
reveals, the comparison with the snapshot, and the entry. -/
def exportConverted (float : FloatType V) (processFunc : MoeParamHandler V) (name : String)
    (experts : ℕ) (rowShape : List ℕ) (place : Place) (contributes : Bool)
    (localShard snap : List V) : Except String (Entry V) := do
  let hfSlots ← enumerateHfSlots float.zero processFunc name experts rowShape
  let spec : ConverterSpec V :=
    { experts := experts
      rowShape := rowShape
      toHfChunk := fun start segment => processFunc name segment start
      hfSlots := hfSlots }
  raiseIf (snap.length ≠ localShard.length)
    (name ++ ": no seed snapshot for this shard; run the seed export first")
  let delta ← changedElements float contributes localShard snap
  hfEntryConverter float name spec place delta.1 delta.2

/-- The entries of a tensor that differ from another one. -/
def diffEntries (float : FloatType V) (new old : List V) : List (ℤ × V) :=
  (changedIndices new old).map fun index => (toInt32 index, new.getD index float.zero)

section Shards

variable (float : FloatType V) (name : String) {shape : List ℕ}
  (sharding : Sharding peers Group shape) (rank : Fin (peers + 1)) (old new : List V)

/-- The block of a rank. -/
def shardOf (full : List V) : List V :=
  Param.localShard float ⟨name, shape, some sharding⟩ rank full

def blockPlace : Place := .block (sharding.block rank)

omit [DecidableEq V] in
theorem length_shardOf (full : List V) :
    (shardOf float name sharding rank full).length = (sharding.block rank).localShape.prod := by
  simp [shardOf, Param.localShard]

omit [DecidableEq V] in
/-- An element of a block is the element of the tensor at the translated position. -/
theorem shardOf_getElem? {full : List V} (hfull : full.length = shape.prod) {i : ℕ}
    (hi : i < (sharding.block rank).localShape.prod) :
    translateFlatIndex (blockPlace sharding rank) i < shape.prod ∧
      (shardOf float name sharding rank full)[i]? =
        full[translateFlatIndex (blockPlace sharding rank) i]? :=
  localShard_getElem? float ⟨name, shape, some sharding⟩ rank hfull
    (by simpa [Param.localShard] using hi)

omit [DecidableEq V] in
/-- The coordinates of an element of a block. -/
theorem unravel_translate {i : ℕ} (hi : i < (sharding.block rank).localShape.prod) :
    unravel shape (translateFlatIndex (blockPlace sharding rank) i) =
      shift (sharding.block rank).globalOffset (unravel (sharding.block rank).localShape i) := by
  have hcoords := (unravel_translateFlatIndex (sharding.block rank) hi).2
  rwa [sharding.block_shape] at hcoords

omit [DecidableEq V] in
theorem translate_injOn {first second : ℕ}
    (hfirst : first < (sharding.block rank).localShape.prod)
    (hsecond : second < (sharding.block rank).localShape.prod)
    (heq : translateFlatIndex (blockPlace sharding rank) first =
      translateFlatIndex (blockPlace sharding rank) second) : first = second :=
  translateFlatIndex_injective (sharding.block rank) hfirst hsecond heq

omit [DecidableEq V] in
/-- The blocks of contributing ranks are disjoint. -/
theorem rank_eq_of_translate {first second : Fin (peers + 1)} {i j : ℕ}
    (hfirst : sharding.contributes first = true) (hsecond : sharding.contributes second = true)
    (hi : i < (sharding.block first).localShape.prod)
    (hj : j < (sharding.block second).localShape.prod)
    (heq : translateFlatIndex (blockPlace sharding first) i =
      translateFlatIndex (blockPlace sharding second) j) : first = second := by
  have hcovers : ∀ (rank : Fin (peers + 1)) (k : ℕ),
      k < (sharding.block rank).localShape.prod →
        Covers (sharding.block rank).localShape (sharding.block rank).globalOffset
            (unravel shape (translateFlatIndex (blockPlace sharding rank) k)) ∧
          InBounds shape (unravel shape (translateFlatIndex (blockPlace sharding rank) k)) := by
    intro rank k hk
    have hboth := covers_shift (sharding.block rank).within (inBounds_unravel hk)
    rw [sharding.block_shape] at hboth
    rwa [unravel_translate _ _ hk]
  obtain ⟨hcoversFirst, hbounds⟩ := hcovers first i hi
  obtain ⟨hcoversSecond, -⟩ := hcovers second j hj
  rw [← heq] at hcoversSecond
  exact (sharding.partition _ hbounds).unique ⟨hfirst, hcoversFirst⟩ ⟨hsecond, hcoversSecond⟩

/-- The changed elements of a contributing rank, by their positions in the full tensor. -/
def rankDelta : Dict ℕ V where
  entries :=
    if sharding.contributes rank then
      (changedIndices (shardOf float name sharding rank new)
          (shardOf float name sharding rank old)).map fun i =>
        (translateFlatIndex (blockPlace sharding rank) i,
          (shardOf float name sharding rank new).getD i float.zero)
    else []
  nodup_keys := by
    split
    next =>
      rw [List.map_map]
      refine List.Nodup.map_on ?_ (List.nodup_range.filter _)
      intro first hfirst second hsecond heq
      have hlt : ∀ {i}, i ∈ changedIndices (shardOf float name sharding rank new)
          (shardOf float name sharding rank old) →
            i < (sharding.block rank).localShape.prod := fun hi =>
        length_shardOf float name sharding rank new ▸ (mem_changedIndices.mp hi).1
      exact translate_injOn sharding rank (hlt hfirst) (hlt hsecond) heq
    next => exact List.nodup_nil

/-- A rank has a change if it contributes the element and the element has changed. -/
theorem get?_rankDelta (hold : old.length = shape.prod) (hnew : new.length = shape.prod)
    {position : ℕ} {value : V} :
    (rankDelta float name sharding rank old new).get? position = some value ↔
      (sharding.contributes rank = true ∧ ∃ i < (sharding.block rank).localShape.prod,
          translateFlatIndex (blockPlace sharding rank) i = position) ∧
        new[position]? = some value ∧ old[position]? ≠ some value := by
  rw [Dict.get?_eq_some_iff, rankDelta]
  dsimp only
  split
  next hcontributes =>
    rw [List.mem_map]
    constructor
    · rintro ⟨i, hi, heq⟩
      obtain ⟨rfl, rfl⟩ := Prod.mk.inj heq
      obtain ⟨hlength, hchanged⟩ := mem_changedIndices.mp hi
      have hlt : i < (sharding.block rank).localShape.prod :=
        length_shardOf float name sharding rank new ▸ hlength
      have hgetNew := (shardOf_getElem? float name sharding rank hnew hlt).2
      have hgetOld := (shardOf_getElem? float name sharding rank hold hlt).2
      have hvalue : (shardOf float name sharding rank new)[i]? =
          some ((shardOf float name sharding rank new).getD i float.zero) := by
        rw [List.getD_eq_getElem _ _ hlength, List.getElem?_eq_getElem hlength]
      refine ⟨⟨hcontributes, i, hlt, rfl⟩, hgetNew ▸ hvalue, ?_⟩
      rw [← hgetOld, ← hvalue]
      exact hchanged.symm
    · rintro ⟨⟨-, i, hlt, rfl⟩, hvalue, hchanged⟩
      have hlength : i < (shardOf float name sharding rank new).length := by
        rwa [length_shardOf]
      have hgetNew := (shardOf_getElem? float name sharding rank hnew hlt).2
      have hgetOld := (shardOf_getElem? float name sharding rank hold hlt).2
      refine ⟨i, mem_changedIndices.mpr ⟨hlength, ?_⟩, Prod.ext rfl ?_⟩
      · rw [hgetNew, hgetOld, hvalue]
        exact hchanged.symm
      · rw [List.getD_eq_getElem?_getD, hgetNew, hvalue]
        rfl
  next hcontributes => simp [hcontributes]

omit [DecidableEq V] in
/-- Every element lies in the block of a contributing rank. -/
theorem exists_rank_of_lt {position : ℕ} (hposition : position < shape.prod) :
    ∃ rank, sharding.contributes rank = true ∧
      ∃ i < (sharding.block rank).localShape.prod,
        translateFlatIndex (blockPlace sharding rank) i = position := by
  obtain ⟨rank, ⟨hcontributes, hcovers⟩, -⟩ :=
    sharding.partition (unravel shape position) (inBounds_unravel hposition)
  obtain ⟨own, hbounds, hshift⟩ := exists_shift_of_covers hcovers
  refine ⟨rank, hcontributes, ravel _ own, ravel_lt hbounds, ?_⟩
  rw [blockPlace, translateFlatIndex_block _ (ravel_lt hbounds), unravel_ravel hbounds, hshift,
    sharding.block_shape, ravel_unravel hposition]

end Shards

/-! ## Slots -/

section Slots

variable (converter : PermutingConverter V) (float : FloatType V) (name : String) {experts : ℕ}
  (sharding : Sharding peers Group (experts :: converter.rowShape)) {old new : List V}

omit [DecidableEq V] in
theorem length_rowAt {full : List V} (hfull : full.length = experts * converter.rowShape.prod)
    {expertId : ℕ} (hexpert : expertId < experts) :
    (converter.rowAt expertId full).length = converter.rowShape.prod := by
  have hhigh : (expertId + 1) * converter.rowShape.prod ≤ full.length :=
    hfull ▸ Nat.mul_le_mul_right _ hexpert
  rw [PermutingConverter.rowAt, length_slice hhigh, Nat.succ_mul, Nat.add_sub_cancel_left]

omit [DecidableEq V] in
/-- Elements of an output are elements of the full tensor. -/
theorem getElem?_output {expertId : ℕ} {entry : Slot × List ℕ}
    (hentry : entry ∈ converter.table expertId) {full : List V}
    (hfull : full.length = experts * converter.rowShape.prod) (hexpert : expertId < experts)
    {index : ℕ} (hindex : index < entry.2.length) :
    (gather entry.2 (converter.rowAt expertId full))[index]? =
      full[expertId * converter.rowShape.prod + entry.2[index]]? := by
  have hlength := length_rowAt converter hfull hexpert
  have hlt : ∀ position ∈ entry.2, position < converter.rowShape.prod := fun position =>
    converter.source_lt hentry
  have hposition := hlt _ (List.getElem_mem hindex)
  rw [getElem?_gather (hlength ▸ hlt), List.getElem?_eq_getElem hindex, Option.bind_some,
    PermutingConverter.rowAt, SliceAssign.getElem?_slice, if_pos]
  rw [Nat.succ_mul]
  exact Nat.add_lt_add_left hposition _

/-- The change of one element of an output. -/
def diffEntry (converted : List V) (before : List V) (index : ℕ) : Option (ℤ × V) :=
  if converted[index]? ≠ before[index]? then
    converted[index]?.map fun value => (toInt32 index, value)
  else none

theorem diffEntries_eq (converted before : List V) :
    diffEntries float converted before =
      (List.range converted.length).filterMap (diffEntry converted before) := by
  rw [diffEntries, changedIndices, ← List.filterMap_eq_map', List.filterMap_filter]
  refine List.filterMap_congr fun index hindex => ?_
  have hlt : index < converted.length := List.mem_range.mp hindex
  rw [diffEntry, List.getD_eq_getElem _ _ hlt, List.getElem?_eq_getElem hlt]
  simp

/-- For an output, the entries of all ranks are those that differ. -/
theorem flatMap_piece_perm (hold : old.length = experts * converter.rowShape.prod)
    (hnew : new.length = experts * converter.rowShape.prod) {expertId : ℕ}
    (hexpert : expertId < experts) {entry : Slot × List ℕ}
    (hentry : entry ∈ converter.table expertId) :
    ((List.finRange (peers + 1)).flatMap fun rank =>
        piece (partialOutput (rankDelta float name sharding rank old new)
          (expertId * converter.rowShape.prod) entry.2)).Perm
      (diffEntries float (gather entry.2 (converter.rowAt expertId new))
        (gather entry.2 (converter.rowAt expertId old))) := by
  have hprod : (experts :: converter.rowShape).prod = experts * converter.rowShape.prod :=
    List.prod_cons
  have hget : ∀ rank {position : ℕ} {value : V}, _ := fun rank =>
    @get?_rankDelta _ V peers _ float name _ sharding rank old new (hprod ▸ hold) (hprod ▸ hnew)
  have hlengthOutput : (gather entry.2 (converter.rowAt expertId new)).length =
      entry.2.length := by
    refine length_gather_of_lt fun position hposition => ?_
    exact length_rowAt converter hnew hexpert ▸ converter.source_lt hentry hposition
  have hoffset : ∀ index (hindex : index < entry.2.length),
      expertId * converter.rowShape.prod + entry.2[index] < experts * converter.rowShape.prod := by
    intro index hindex
    have hposition := converter.source_lt hentry (List.getElem_mem hindex)
    calc
      _ < expertId * converter.rowShape.prod + converter.rowShape.prod :=
        Nat.add_lt_add_left hposition _
      _ = (expertId + 1) * converter.rowShape.prod := (Nat.succ_mul _ _).symm
      _ ≤ experts * converter.rowShape.prod := Nat.mul_le_mul_right _ hexpert
  have hpairing : ∀ rank index (hindex : index < entry.2.length),
      (partialOutput (rankDelta float name sharding rank old new)
        (expertId * converter.rowShape.prod) entry.2).getD index none =
      (rankDelta float name sharding rank old new).get?
        (expertId * converter.rowShape.prod + entry.2[index]) := by
    intro rank index hindex
    rw [partialOutput, List.getD_eq_getElem _ _ (by simpa using hindex), List.getElem_map]
  simp only [piece, partialOutput, List.length_map]
  rw [diffEntries_eq, hlengthOutput]
  refine flatMap_shares_perm (List.nodup_finRange _) ?_ ?_ ?_
  · intro index hitem rank _ change hchange
    have hindex : index < entry.2.length := List.mem_range.mp hitem
    obtain ⟨value, hvalue, rfl⟩ := Option.map_eq_some_iff.mp hchange
    obtain ⟨-, hvalueNew, hvalueOld⟩ := (hget rank).mp
        ((hpairing rank index hindex).symm.trans hvalue)
    rw [diffEntry, getElem?_output converter hentry hnew hexpert hindex,
      getElem?_output converter hentry hold hexpert hindex, hvalueNew, if_pos hvalueOld.symm]
    rfl
  · intro index hitem change hchange
    have hindex : index < entry.2.length := List.mem_range.mp hitem
    rw [diffEntry, getElem?_output converter hentry hnew hexpert hindex,
      getElem?_output converter hentry hold hexpert hindex] at hchange
    split at hchange
    next hne =>
      obtain ⟨value, hvalue, rfl⟩ := Option.map_eq_some_iff.mp hchange
      obtain ⟨rank, howner⟩ := exists_rank_of_lt sharding (hprod ▸ hoffset index hindex)
      refine ⟨rank, List.mem_finRange _, Option.map_eq_some_iff.mpr ⟨value, ?_, rfl⟩⟩
      refine (hpairing rank index hindex).trans ((hget rank).mpr ⟨howner, hvalue, ?_⟩)
      rw [← hvalue]
      exact hne.symm
    next => contradiction
  · intro index hitem first _ second _ hfirst hsecond
    have hindex : index < entry.2.length := List.mem_range.mp hitem
    have howner : ∀ rank, ((rankDelta float name sharding rank old new).get?
        (expertId * converter.rowShape.prod + entry.2[index])).isSome →
          sharding.contributes rank = true ∧ ∃ i < (sharding.block rank).localShape.prod,
            translateFlatIndex (blockPlace sharding rank) i =
              expertId * converter.rowShape.prod + entry.2[index] := by
      intro rank hsome
      obtain ⟨value, hvalue⟩ := Option.isSome_iff_exists.mp hsome
      exact ((hget rank).mp hvalue).1
    rw [Option.isSome_map] at hfirst hsecond
    obtain ⟨hfirst, i, hi, htranslateFirst⟩ :=
      howner first ((hpairing first index hindex) ▸ hfirst)
    obtain ⟨hsecond, j, hj, htranslateSecond⟩ :=
      howner second ((hpairing second index hindex) ▸ hsecond)
    exact rank_eq_of_translate sharding hfirst hsecond hi hj
      (htranslateFirst.trans htranslateSecond.symm)

omit [DecidableEq V] in
/-- The handler reveals the slots. -/
theorem enumerateHfSlots_eq (experts : ℕ) :
    enumerateHfSlots float.zero (fun _ segment start => converter.toHfChunk start segment) name
        experts converter.rowShape = .ok (converter.hfSlots experts) := by
  have houtputs : ((List.range experts).mapM fun expertId => converter.toHfChunk expertId
      ⟨1 :: converter.rowShape, List.replicate converter.rowShape.prod float.zero⟩) = .ok _ :=
    mapM_eq_ok_map fun expertId _ => converter.convert_row expertId _ (by simp)
  rw [enumerateHfSlots, houtputs]
  refine congrArg Except.ok ?_
  simp [PermutingConverter.hfSlots, List.flatMap_def, List.map_flatten, Function.comp_def]

/-- The changed elements of a rank are the entries of its delta. -/
theorem changedElements_eq_ok (old new : List V) (rank : Fin (peers + 1)) :
    ∃ delta, changedElements float (sharding.contributes rank)
        (shardOf float name sharding rank new) (shardOf float name sharding rank old) =
          .ok delta ∧
      (rankDelta float name sharding rank old new).entries =
        (delta.1.map (translateFlatIndex (blockPlace sharding rank))).zip delta.2 := by
  by_cases hcontributes : sharding.contributes rank = true
  · rw [changedElements, if_pos hcontributes, shardDeltaIndices, if_pos float.supported]
    refine ⟨_, rfl, ?_⟩
    rw [filterMap_changedIndices float, rankDelta, List.map_map, List.zip_map']
    exact if_pos hcontributes
  · rw [changedElements, if_neg hcontributes]
    exact ⟨_, rfl, if_neg hcontributes⟩

/-- What a rank exports. -/
theorem exportConverted_eq (hold : old.length = experts * converter.rowShape.prod)
    (hnew : new.length = experts * converter.rowShape.prod)
    (hnan : ∀ value ∈ new, float.isNaN value = false) (rank : Fin (peers + 1)) :
    exportConverted float (fun _ segment start => converter.toHfChunk start segment) name experts
        converter.rowShape (blockPlace sharding rank) (sharding.contributes rank)
        (shardOf float name sharding rank new) (shardOf float name sharding rank old) =
      if experts = 0 then .error "ZeroDivisionError: integer division or modulo by zero"
      else
        let pieces := entryPieces converter (rankDelta float name sharding rank old new) experts
        .ok { slots := converter.hfSlots experts
              dtypeStr := float.name
              counts := pieces.map List.length
              idx := positionsOf pieces
              val := valuesOf pieces } := by
  have hprod : (experts :: converter.rowShape).prod = experts * converter.rowShape.prod :=
    List.prod_cons
  have hlength : ¬ (shardOf float name sharding rank old).length ≠
      (shardOf float name sharding rank new).length := by
    rw [length_shardOf, length_shardOf]
    exact not_not.mpr rfl
  obtain ⟨delta, hdelta, hentries⟩ :=
    changedElements_eq_ok converter float name sharding old new rank
  rw [exportConverted, enumerateHfSlots_eq]
  simp only [bind, Except.bind, raiseIf, if_neg hlength, hdelta]
  by_cases hexperts : experts = 0
  · subst hexperts
    rfl
  · rw [if_neg hexperts]
    have hentry : ∀ entry ∈ (rankDelta float name sharding rank old new).entries,
        new[entry.1]? = some entry.2 := by
      intro entry hmem
      have hvalue := (Dict.get?_eq_some_iff _ entry.1 entry.2).mpr hmem
      exact ((get?_rankDelta float name sharding rank old new (hprod ▸ hold)
        (hprod ▸ hnew)).mp hvalue).2.1
    refine hfEntryConverter_eq converter _ float name hexperts _ hentries ?_ ?_
    · intro entry hmem
      rw [← hnew]
      exact (List.getElem?_eq_some_iff.mp (hentry entry hmem)).1
    · exact fun entry hmem => hnan _ (List.mem_of_getElem? (hentry entry hmem))

end Slots

/-! ## All slots -/

section Full

variable (converter : PermutingConverter V) (float : FloatType V) (name : String) {experts : ℕ}
  (sharding : Sharding peers Group (experts :: converter.rowShape)) {old new : List V}

omit [DecidableEq V] in
/-- The rows of a tensor make it up. -/
theorem flatMap_rowAt {full : List V} (hfull : full.length = experts * converter.rowShape.prod) :
    ((List.range experts).flatMap fun expertId => converter.rowAt expertId full) = full := by
  have hslices := flatMap_slices full converter.rowShape.prod experts
  rw [← hfull, List.take_length] at hslices
  refine Eq.trans ?_ hslices
  rw [List.flatMap_def, List.flatMap_def]
  refine congrArg List.flatten (List.map_congr_left fun expertId _ => ?_)
  rw [PermutingConverter.rowAt, slice, List.drop_take, Nat.succ_mul, Nat.add_sub_cancel_left]

omit [DecidableEq V] in
theorem zip_fullyConverted (full : List V) :
    (converter.hfSlots experts).zip (converter.fullyConverted experts full) =
      (List.range experts).flatMap fun expertId => (converter.table expertId).map fun entry =>
        (entry.1, gather entry.2 (converter.rowAt expertId full)) := by
  rw [PermutingConverter.hfSlots, PermutingConverter.fullyConverted]
  generalize List.range experts = rows
  induction rows with
  | nil => rfl
  | cons expertId rows ih =>
      rw [List.flatMap_cons, List.flatMap_cons, List.flatMap_cons, List.zip_append (by simp), ih,
        List.zip_map']

omit [DecidableEq V] in
/-- The conversion of the whole tensor yields the converted tensors of the slots, in some
order. -/
theorem toHfChunk_perm {full : List V} (hfull : full.length = experts * converter.rowShape.prod) :
    ∃ outputs, converter.toHfChunk 0 ⟨experts :: converter.rowShape, full⟩ = .ok outputs ∧
      outputs.Perm (((converter.hfSlots experts).zip (converter.fullyConverted experts full)).map
        fun slot => (slot.1.name, ⟨slot.1.shape, slot.2⟩)) := by
  have hrows : ∀ row ∈ (List.range experts).map fun expertId => converter.rowAt expertId full,
      row.length = converter.rowShape.prod := by
    intro row hrow
    obtain ⟨expertId, hexpert, rfl⟩ := List.mem_map.mp hrow
    exact length_rowAt converter hfull (List.mem_range.mp hexpert)
  obtain ⟨outputs, hok, hperm⟩ := converter.separable 0 _ hrows
  rw [← List.flatMap_def, flatMap_rowAt converter hfull, List.length_map, List.length_range] at hok
  refine ⟨outputs, hok, hperm.trans (List.Perm.of_eq ?_)⟩
  have hzip : ((List.range experts).map fun expertId => converter.rowAt expertId full).zipIdx =
      (List.range experts).map fun expertId => (converter.rowAt expertId full, expertId) := by
    apply List.ext_getElem
    · simp
    · intro index hleft hright
      simp
  rw [zip_fullyConverted, hzip, List.flatMap_map, List.map_flatMap]
  simp only [List.map_map, Nat.zero_add]
  rfl

/-- The entries of all ranks are the delta of the converted tensors.  Every rank exports pieces
for the slots, one after the other and with their lengths.  For every slot, the pieces of all
ranks have exactly the positions and values at which the converted new tensor differs from the
converted old one; and the converted tensors are those that the conversion of the whole new
tensor yields. -/
theorem gathered_perm_diffEntries (hold : old.length = experts * converter.rowShape.prod)
    (hnew : new.length = experts * converter.rowShape.prod)
    (hnan : ∀ value ∈ new, float.isNaN value = false) :
    ∃ pieces : Fin (peers + 1) → List (List (ℤ × V)),
      (∀ rank, exportConverted float (fun _ segment start => converter.toHfChunk start segment)
          name experts converter.rowShape (blockPlace sharding rank) (sharding.contributes rank)
          (shardOf float name sharding rank new) (shardOf float name sharding rank old) =
        if experts = 0 then .error "ZeroDivisionError: integer division or modulo by zero"
        else
          .ok { slots := converter.hfSlots experts
                dtypeStr := float.name
                counts := (pieces rank).map List.length
                idx := positionsOf (pieces rank)
                val := valuesOf (pieces rank) }) ∧
      (∀ slot < (converter.hfSlots experts).length,
        ((gathered (converter.hfSlots experts).length pieces).getD slot []).Perm
          (diffEntries float ((converter.fullyConverted experts new).getD slot [])
            ((converter.fullyConverted experts old).getD slot []))) ∧
      ∀ full ∈ [old, new],
        ∃ outputs, converter.toHfChunk 0 ⟨experts :: converter.rowShape, full⟩ = .ok outputs ∧
          outputs.Perm
            (((converter.hfSlots experts).zip (converter.fullyConverted experts full)).map
              fun slot => (slot.1.name, ⟨slot.1.shape, slot.2⟩)) := by
  refine ⟨fun rank => entryPieces converter (rankDelta float name sharding rank old new) experts,
    exportConverted_eq converter float name sharding hold hnew hnan, ?_, ?_⟩
  · intro slot hslot
    rw [converter.length_hfSlots] at hslot
    have hsize : 0 < converter.slotsPerRow := Nat.pos_of_mul_pos_left (Nat.zero_lt_of_lt hslot)
    have hexpert : slot / converter.slotsPerRow < experts :=
      Nat.div_lt_of_lt_mul (Nat.mul_comm _ _ ▸ hslot)
    have hrow : slot % converter.slotsPerRow <
        (converter.table (slot / converter.slotsPerRow)).length :=
      (converter.length_table _).symm ▸ Nat.mod_lt slot hsize
    have hconverted : ∀ full : List V, (converter.fullyConverted experts full).getD slot [] =
        gather (converter.table (slot / converter.slotsPerRow))[slot % converter.slotsPerRow].2
          (converter.rowAt (slot / converter.slotsPerRow) full) := by
      intro full
      rw [PermutingConverter.fullyConverted, SliceAssign.getD_flatMap_range [] (fun expertId => by
          rw [List.length_map, converter.length_table]) hsize hexpert,
        List.getD_eq_getElem _ _ (by simpa using hrow), List.getElem_map]
    have hpieces : ∀ rank, (entryPieces converter (rankDelta float name sharding rank old new)
        experts).getD slot [] =
          piece (partialOutput (rankDelta float name sharding rank old new)
            (slot / converter.slotsPerRow * converter.rowShape.prod)
            (converter.table (slot / converter.slotsPerRow))[slot % converter.slotsPerRow].2) := by
      intro rank
      rw [entryPieces, SliceAssign.getD_flatMap_range [] (length_rowPieces converter _) hsize
          hexpert, rowPieces, List.getD_eq_getElem _ _ (by simpa using hrow), List.getElem_map]
    rw [gathered, List.getD_eq_getElem _ _ (by simpa [converter.length_hfSlots] using hslot),
      List.getElem_map, List.getElem_range, hconverted, hconverted]
    simp only [hpieces]
    exact flatMap_piece_perm converter float name sharding hold hnew hexpert
      (List.getElem_mem hrow)
  · intro full hfull
    refine toHfChunk_perm converter ?_
    rcases List.mem_cons.mp hfull with rfl | hfull
    · exact hold
    · exact List.mem_singleton.mp hfull ▸ hnew

end Full

theorem expertSharding_partition (coords : List ℕ)
    (hbounds : RowMajor.InBounds [2, 2] coords) :
    ∃! rank : Fin (1 + 1), true = true ∧ RowMajor.Covers [1, 2] [(rank : ℕ), 0] coords := by
  simp only [true_and]
  exact RowMajor.existsUnique_covers_row hbounds

/-- Two experts with a fused projection of width two, each held by one of two ranks. -/
def expertSharding : Sharding 1 Unit [2, 2] where
  group := ()
  block rank := ⟨[1, 2], [rank, 0], [2, 2], RowMajor.within_row rank [2]⟩
  contributes _ := true
  block_shape _ := rfl
  partition := expertSharding_partition

def fusedExperts (V : Type) : PermutingConverter V :=
  fusedConverter "mlp.experts.gate_up_proj"
    (String.contains_string_iff.mpr ⟨"mlp.experts.".toList, [], by decide⟩) 2 (by decide) []

/-- The up projection of the first expert changes. -/
theorem gathered_up_proj :
    ∃ pieces : Fin 2 → List (List (ℤ × Fin 4)),
      ((gathered 4 pieces).getD 0 []).Perm [] ∧ ((gathered 4 pieces).getD 1 []).Perm [(0, 0)] ∧
      ((gathered 4 pieces).getD 2 []).Perm [] ∧ ((gathered 4 pieces).getD 3 []).Perm [] := by
  obtain ⟨pieces, -, hslots, -⟩ := gathered_perm_diffEntries (fusedExperts (Fin 4))
    ⟨"bfloat16", 2, by decide, 0, 3, fun value => value = 3, by decide⟩
    "mlp.experts.gate_up_proj" expertSharding (show [1, 2, 0, 1].length = 2 * [2].prod from rfl)
    (show [1, 0, 0, 1].length = 2 * [2].prod from rfl) (by decide)
  exact ⟨pieces, hslots 0 (by decide), hslots 1 (by decide), hslots 2 (by decide),
    hslots 3 (by decide)⟩

end OneShotOPD.DeltaSync
