import OneShotOPD.DeltaSync.HfConverter

/-!
# Converted rows

A converter moves the elements of a row to the places that a table names.  A row
that holds a value for its changed elements only therefore comes out with exactly
these values, at the places where the changed elements go.
-/

namespace OneShotOPD.DeltaSync

open Checks Segments

variable {V : Type}

/-- A converter that moves the elements of each row of its parameter.  `table` names, for the
row of an expert, the outputs in order, and for every element of an output its position in the
row.  Converting several rows at once converts each of them. -/
structure PermutingConverter (V : Type) where
  rowShape : List ℕ
  slotsPerRow : ℕ
  toHfChunk : ℕ → Tensor V → Except String (HfOutputs V)
  table : ℕ → List (Slot × List ℕ)
  length_table : ∀ expertId, (table expertId).length = slotsPerRow
  length_source : ∀ expertId, ∀ entry ∈ table expertId, entry.2.length = entry.1.shape.prod
  permutes : ∀ expertId,
    ((table expertId).flatMap Prod.snd).Perm (List.range rowShape.prod)
  convert_row : ∀ expertId (row : List V), row.length = rowShape.prod →
    toHfChunk expertId ⟨1 :: rowShape, row⟩ =
      .ok ((table expertId).map fun entry => (entry.1.name, ⟨entry.1.shape, gather entry.2 row⟩))
  separable : ∀ start (rows : List (List V)), (∀ row ∈ rows, row.length = rowShape.prod) →
    ∃ outputs, toHfChunk start ⟨rows.length :: rowShape, rows.flatten⟩ = .ok outputs ∧
      outputs.Perm (rows.zipIdx.flatMap fun row => (table (start + row.2)).map fun entry =>
        (entry.1.name, ⟨entry.1.shape, gather entry.2 row.1⟩))

namespace PermutingConverter

variable (converter : PermutingConverter V)

/-- The outputs for all rows. -/
def hfSlots (experts : ℕ) : List Slot :=
  (List.range experts).flatMap fun expertId => (converter.table expertId).map Prod.fst

def spec (experts : ℕ) : ConverterSpec V where
  experts := experts
  rowShape := converter.rowShape
  toHfChunk := converter.toHfChunk
  hfSlots := converter.hfSlots experts

/-- The row of an expert in a flat tensor. -/
def rowAt (expertId : ℕ) (full : List V) : List V :=
  slice (expertId * converter.rowShape.prod) ((expertId + 1) * converter.rowShape.prod) full

def fullyConverted (experts : ℕ) (full : List V) : List (List V) :=
  (List.range experts).flatMap fun expertId => (converter.table expertId).map fun entry =>
    gather entry.2 (converter.rowAt expertId full)

theorem source_lt {expertId : ℕ} {entry : Slot × List ℕ}
    (hentry : entry ∈ converter.table expertId) {position : ℕ} (hposition : position ∈ entry.2) :
    position < converter.rowShape.prod :=
  List.mem_range.mp ((converter.permutes expertId).mem_iff.mp
    (List.mem_flatMap.mpr ⟨entry, hentry, hposition⟩))

theorem length_hfSlots (experts : ℕ) :
    (converter.hfSlots experts).length = experts * converter.slotsPerRow := by
  simp [hfSlots, List.length_flatMap, converter.length_table]

theorem slotsPerRow_spec {experts : ℕ} (hexperts : experts ≠ 0) :
    (converter.spec experts).slotsPerRow = .ok converter.slotsPerRow := by
  rw [ConverterSpec.slotsPerRow]
  refine bind_eq_ok.mpr ⟨(), raiseIf_eq_ok.mpr hexperts, ?_⟩
  simp only [spec, converter.length_hfSlots]
  rw [Nat.mul_div_cancel_left _ (Nat.pos_of_ne_zero hexperts)]
  rfl

end PermutingConverter

/-! ## Partial rows -/

def piece (partialRow : List (Option V)) : List (ℤ × V) :=
  (List.range partialRow.length).filterMap fun index =>
    (partialRow.getD index none).map fun value => (toInt32 index, value)

/-- The positions of the values that are there. -/
theorem nonzero_isSome (partialRow : List (Option V)) :
    nonzero (partialRow.map Option.isSome) =
      (List.range partialRow.length).filterMap fun index =>
        (partialRow.getD index none).map fun _ => index := by
  rw [nonzero_eq_filter, List.length_map, ← List.filterMap_eq_filter]
  refine List.filterMap_congr fun index hindex => ?_
  have hlt : index < partialRow.length := List.mem_range.mp hindex
  have hmask : (partialRow.map Option.isSome).getD index false =
      (partialRow.getD index none).isSome := by
    simp [hlt]
  rw [Option.guard, hmask]
  cases partialRow.getD index none <;> rfl

/-- Of a row that is NaN where no value is, the values survive. -/
theorem survivors_eq (float : FloatType V) (slotInRow : ℕ) {partialRow : List (Option V)}
    (hnan : ∀ value, some value ∈ partialRow → float.isNaN value = false) :
    survivors float slotInRow (partialRow.map fun value => value.getD float.nan) =
      if piece partialRow = [] then none
      else some ⟨slotInRow, (piece partialRow).map Prod.fst, (piece partialRow).map Prod.snd⟩ := by
  have hmask : ((partialRow.map fun value => value.getD float.nan).map fun value =>
      ! float.isNaN value) = partialRow.map Option.isSome := by
    rw [List.map_map]
    refine List.map_congr_left fun value hvalue => ?_
    cases value with
    | none => simp [float.isNaN_nan]
    | some value => simp [hnan value hvalue]
  have hidx : (nonzero (partialRow.map Option.isSome)).map toInt32 =
      (piece partialRow).map Prod.fst := by
    rw [nonzero_isSome, piece, List.map_filterMap, List.map_filterMap]
    refine List.filterMap_congr fun index _ => ?_
    rw [Option.map_map, Option.map_map]
    rfl
  have hval : gather (nonzero (partialRow.map Option.isSome))
      (partialRow.map fun value => value.getD float.nan) = (piece partialRow).map Prod.snd := by
    rw [nonzero_isSome, gather, List.filterMap_filterMap, piece, List.map_filterMap]
    refine List.filterMap_congr fun index hindex => ?_
    have hlt : index < partialRow.length := List.mem_range.mp hindex
    rw [List.getD_eq_getElem _ _ hlt, Option.bind_map, Option.map_map]
    cases hvalue : partialRow[index] with
    | none => rfl
    | some value => simp [hlt, hvalue]
  have hempty : nonzero (partialRow.map Option.isSome) = [] ↔ piece partialRow = [] := by
    rw [← List.map_eq_nil_iff (f := toInt32), hidx, List.map_eq_nil_iff]
  simp only [survivors, hmask, hidx, hval, hempty]

/-! ## One row -/

section Row

/-- What a delta has for an output of the row that starts at an offset. -/
def partialOutput (delta : Dict ℕ V) (offset : ℕ) (source : List ℕ) : List (Option V) :=
  source.map fun position => delta.get? (offset + position)

/-- Scattered into NaN, the entries of a row are there and nothing else. -/
theorem scatter_delta (float : FloatType V) {delta : Dict ℕ V} {offset numel : ℕ}
    (hdelta : ∀ entry ∈ delta.entries, offset ≤ entry.1 ∧ entry.1 < offset + numel) :
    scatter (List.replicate numel float.nan) (delta.entries.map fun entry => entry.1 - offset)
        (delta.entries.map Prod.snd) =
      (List.range numel).map fun position =>
        (delta.get? (offset + position)).getD float.nan := by
  have hnodup : (delta.entries.map fun entry => entry.1 - offset).Nodup := by
    have hkeys := delta.nodup_keys
    have hentries := List.Nodup.of_map _ hkeys
    rw [List.nodup_map_iff_inj_on hentries] at hkeys ⊢
    intro first hfirst second hsecond heq
    have hlow := (hdelta first hfirst).1
    have hlow' := (hdelta second hsecond).1
    exact hkeys first hfirst second hsecond (by omega)
  apply List.ext_getElem?
  intro position
  by_cases hposition : position < numel
  · rw [List.getElem?_map, List.getElem?_range hposition, Option.map_some]
    cases hvalue : delta.get? (offset + position) with
    | none =>
        rw [getElem?_scatter_of_not_mem, List.getElem?_replicate_of_lt hposition]
        · rfl
        · intro hmem
          obtain ⟨entry, hentry, heq⟩ := List.mem_map.mp hmem
          have hlow := (hdelta entry hentry).1
          refine (Dict.get?_eq_none_iff delta _).mp hvalue ?_
          exact List.mem_map.mpr ⟨entry, hentry, by omega⟩
    | some value =>
        have hentry := (Dict.get?_eq_some_iff delta _ value).mp hvalue
        refine getElem?_scatter_of_mem_zip _ hnodup ?_ (by simpa using hposition)
        rw [List.zip_map', List.mem_map]
        exact ⟨_, hentry, by simp⟩
  · rw [List.getElem?_eq_none (by simpa using hposition),
      List.getElem?_eq_none (by simpa using hposition)]

variable (converter : PermutingConverter V)

/-- The pieces of a delta for the outputs of a row. -/
def rowPieces (delta : Dict ℕ V) (expertId : ℕ) : List (List (ℤ × V)) :=
  (converter.table expertId).map fun entry =>
    piece (partialOutput delta (expertId * converter.rowShape.prod) entry.2)

/-- What the conversion of a row has for a piece. -/
def convertedSlot (entries : List (ℤ × V)) (slotInRow : ℕ) : Option (ConvertedSlot V) :=
  if entries = [] then none
  else some ⟨slotInRow, entries.map Prod.fst, entries.map Prod.snd⟩

/-- Converting the entries of a row gives the pieces of its outputs. -/
theorem convertRowToHf_eq (float : FloatType V) (name : String) {experts expertId : ℕ}
    (hexperts : experts ≠ 0) {delta : Dict ℕ V} (hnumel : converter.rowShape.prod ≠ 0)
    (hdelta : ∀ entry ∈ delta.entries, expertId * converter.rowShape.prod ≤ entry.1 ∧
      entry.1 < expertId * converter.rowShape.prod + converter.rowShape.prod)
    (hnan : ∀ entry ∈ delta.entries, float.isNaN entry.2 = false) :
    convertRowToHf float name (converter.spec experts) expertId
        (delta.entries.map fun entry => entry.1 - expertId * converter.rowShape.prod)
        (delta.entries.map Prod.snd) =
      .ok ((rowPieces converter delta expertId).zipIdx.filterMap fun row =>
        convertedSlot row.1 row.2) := by
  have hrow : scatter (List.replicate (converter.spec experts).rowNumel float.nan)
      (delta.entries.map fun entry => entry.1 - expertId * converter.rowShape.prod)
      (delta.entries.map Prod.snd) =
        (List.range converter.rowShape.prod).map fun position =>
          (delta.get? (expertId * converter.rowShape.prod + position)).getD float.nan := by
    rw [← scatter_delta float hdelta, ConverterSpec.rowNumel]
    congr 2
    simp only [PermutingConverter.spec]
    omega
  have houtput : ∀ entry ∈ converter.table expertId,
      gather entry.2 ((List.range converter.rowShape.prod).map fun position =>
        (delta.get? (expertId * converter.rowShape.prod + position)).getD float.nan) =
      (partialOutput delta (expertId * converter.rowShape.prod) entry.2).map fun value =>
        value.getD float.nan := by
    intro entry hentry
    rw [← map_gather, gather_of_range fun position => converter.source_lt hentry, partialOutput,
      List.map_map]
    rfl
  have hvalue : ∀ entry ∈ converter.table expertId, ∀ value,
      some value ∈ partialOutput delta (expertId * converter.rowShape.prod) entry.2 →
        float.isNaN value = false := by
    intro entry _ value hmem
    obtain ⟨position, -, hget⟩ := List.mem_map.mp hmem
    exact hnan _ ((Dict.get?_eq_some_iff delta _ value).mp hget)
  rw [convertRowToHf, converter.slotsPerRow_spec hexperts, hrow]
  refine bind_eq_ok.mpr ⟨_, rfl, bind_eq_ok.mpr ⟨(), raiseIf_eq_ok.mpr ?_, ?_⟩⟩
  · rw [ConverterSpec.rowNumel]
    simp only [PermutingConverter.spec]
    omega
  refine bind_eq_ok.mpr ⟨_, converter.convert_row expertId _ (by simp), ?_⟩
  refine bind_eq_ok.mpr ⟨(), raiseIf_eq_ok.mpr (by simp [converter.length_table]), ?_⟩
  refine congrArg Except.ok ?_
  rw [rowPieces, List.zipIdx_map, List.zipIdx_map, List.filterMap_map, List.filterMap_map]
  refine List.filterMap_congr fun row hrowMem => ?_
  obtain ⟨entry, slotInRow⟩ := row
  have hentry : entry ∈ converter.table expertId := List.fst_mem_of_mem_zipIdx hrowMem
  simp only [Function.comp_apply, Prod.map, houtput entry hentry]
  exact survivors_eq float _ (hvalue entry hentry)

end Row

end OneShotOPD.DeltaSync
