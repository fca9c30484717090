import OneShotOPD.TensorDict.SurgeryRows

/-!
# Which rows come out

The rows of a chunk and of a selection are rows of the batch at stated positions.  Together with
the join of the chunks this says what the three operations do, and the jagged columns of a batch
decide whether they do it.
-/

namespace OneShotOPD.TensorDicts

open Checks

variable {α V W : Type} [Zero α] {torch : Torch α} {metadataCat : MetadataCat W}
variable {td : TensorDict α V W} {chunks size : ℕ} {indices : List ℤ}

/-! ## Rows of the chunks -/

theorem take_drop_eq_filterMap {β : Type} (rows : List β) (start count : ℕ) :
    (rows.drop start).take count = (List.range' start count).filterMap (rows[·]?) := by
  induction count generalizing start with
  | zero => rfl
  | succ count ih =>
      rw [List.range'_succ, List.filterMap_cons, ← ih]
      by_cases hstart : start < rows.length
      · rw [List.drop_eq_getElem_cons hstart, List.getElem?_eq_getElem hstart,
          List.take_succ_cons]
      · have hlength := Nat.le_of_not_lt hstart
        rw [List.getElem?_eq_none hlength, List.drop_eq_nil_of_le hlength,
          List.drop_eq_nil_of_le (Nat.le_succ_of_le hlength), List.take_nil, List.take_nil]

theorem filterMap_getElem?_map {β γ : Type} (f : β → γ) (rows : List β) (positions : List ℕ) :
    positions.filterMap ((rows.map f)[·]?) = (positions.filterMap (rows[·]?)).map f := by
  rw [List.map_filterMap]
  exact List.filterMap_congr fun position _ => List.getElem?_map

/-- A chunk has the rows at its positions. -/
theorem rows_part (part : ℕ) (key : String) :
    (td.part size part).rows key =
      (td.rows key).map (Rows.pick (List.range' (part * size) size)) := by
  have hregular : ∀ column : Regular V W,
      ((column.chunk size part).rows : Rows α V W) =
        column.rows.pick (List.range' (part * size) size) := by
    intro column
    cases column with
    | dense rows => exact congrArg Rows.dense (take_drop_eq_filterMap _ _ _)
    | stack rows => exact congrArg Rows.stack (take_drop_eq_filterMap _ _ _)
    | data value => rfl
  have hjagged : ∀ column : Column α,
      ((column.part size part).rows : Rows α V W) =
        column.rows.pick (List.range' (part * size) size) := by
    intro column
    refine congrArg (Rows.jagged _) ?_
    rw [filterMap_getElem?_map, ← take_drop_eq_filterMap]
    exact congrArg (List.map _) samples_chunk
  rw [TensorDict.rows, TensorDict.rows, TensorDict.part, Dict.get?_map, Dict.get?_map]
  cases td.regular.get? key with
  | some column => exact congrArg some (hregular column)
  | none =>
      cases td.jagged.get? key with
      | some column => exact congrArg some (hjagged column)
      | none => rfl

/-! ## Selected rows -/

/-- Indices that name rows of a batch. -/
def InRange (length : ℕ) (indices : List ℤ) : Prop :=
  ∀ index ∈ indices, -length ≤ index ∧ index < length

/-- The positions that indices name. -/
def positions (length : ℕ) (indices : List ℤ) : List ℕ := indices.filterMap (resolve length)

theorem resolve_of_inRange {length : ℕ} {index : ℤ} (hlow : -length ≤ index)
    (hhigh : index < length) :
    ∃ position < length, resolve length index = some position := by
  by_cases hsign : 0 ≤ index
  · exact ⟨index.toNat, by omega, if_pos ⟨hsign, hhigh⟩⟩
  · refine ⟨(length + index).toNat, by omega, ?_⟩
    rw [resolve, if_neg fun h => hsign h.1, if_pos ⟨hlow, Int.not_le.mp hsign⟩]

theorem selectRows_eq {β : Type} {rows : List β} (hinside : InRange rows.length indices) :
    selectRows rows indices =
      .ok ((positions rows.length indices).filterMap (rows[·]?)) := by
  rw [selectRows, positions]
  induction indices with
  | nil => rfl
  | cons index indices ih =>
      have hindex := hinside index List.mem_cons_self
      obtain ⟨position, hposition, hresolve⟩ := resolve_of_inRange hindex.1 hindex.2
      have hrest := ih fun other hother => hinside other (List.mem_cons_of_mem _ hother)
      rw [List.mapM_cons, hresolve, List.filterMap_cons, hresolve, Option.bind_some,
        List.filterMap_cons, List.getElem?_eq_getElem hposition, hrest]
      rfl

theorem length_positions {length : ℕ} (hinside : InRange length indices) :
    (positions length indices).length = indices.length := by
  rw [positions]
  induction indices with
  | nil => rfl
  | cons index indices ih =>
      have hindex := hinside index List.mem_cons_self
      obtain ⟨position, _, hresolve⟩ := resolve_of_inRange hindex.1 hindex.2
      rw [List.filterMap_cons, hresolve, List.length_cons, List.length_cons,
        ih fun other hother => hinside other (List.mem_cons_of_mem _ hother)]

theorem mem_positions_lt {length : ℕ} (hinside : InRange length indices) {position : ℕ}
    (hposition : position ∈ positions length indices) : position < length := by
  obtain ⟨index, hindex, hresolve⟩ := List.mem_filterMap.mp hposition
  obtain ⟨found, hfound, heq⟩ :=
    resolve_of_inRange (hinside index hindex).1 (hinside index hindex).2
  rw [heq] at hresolve
  exact Option.some.inj hresolve ▸ hfound

theorem length_filterMap_getElem? {β : Type} {rows : List β} {positions : List ℕ}
    (hinside : ∀ position ∈ positions, position < rows.length) :
    (positions.filterMap (rows[·]?)).length = positions.length := by
  induction positions with
  | nil => rfl
  | cons position positions ih =>
      rw [List.filterMap_cons,
        List.getElem?_eq_getElem (hinside position List.mem_cons_self), List.length_cons,
        List.length_cons, ih fun other hother => hinside other (List.mem_cons_of_mem _ hother)]

/-- The selected part of a column that is not jagged. -/
def Regular.pick (positions : List ℕ) : Regular V W → Regular V W
  | .dense rows => .dense (positions.filterMap (rows[·]?))
  | .stack rows => .stack (positions.filterMap (rows[·]?))
  | .data value => .data value

/-- The selected part of a jagged column. -/
def Column.pick (positions : List ℕ) (column : Column α) : Column α :=
  ⟨column.rank, Nested.ofList column.nested.raggedAxis
    (positions.filterMap (column.nested.samples[·]?))⟩

theorem mem_of_mem_filterMap_getElem? {β : Type} {rows : List β} {positions : List ℕ} {row : β}
    (hrow : row ∈ positions.filterMap (rows[·]?)) : row ∈ rows := by
  obtain ⟨position, _, hposition⟩ := List.mem_filterMap.mp hrow
  exact List.mem_of_getElem? hposition

/-- Selecting from a jagged column that can be unbound. -/
theorem selectColumn_eq {column : Column α} (hfails : torch.unbindFails column = false)
    (hinside : InRange column.nested.lengths.length indices) (hindices : indices ≠ []) :
    selectColumn torch indices column =
      .ok (column.pick (positions column.nested.lengths.length indices)) := by
  have hunbind : unbind torch column.nested = .ok column.nested.samples :=
    unbind_eq_ok.mpr ⟨hfails, rfl⟩
  have hselected := @selectRows_eq indices _ column.nested.samples
    (by rwa [Nested.length_samples])
  rw [Nested.length_samples] at hselected
  have hsome : (positions column.nested.lengths.length indices).filterMap
      (column.nested.samples[·]?) ≠ [] := by
    rw [← List.length_pos_iff, length_filterMap_getElem?, length_positions hinside,
      List.length_pos_iff]
    · exact hindices
    · intro position hposition
      rw [Nested.length_samples]
      exact mem_positions_lt hinside hposition
  rw [selectColumn, hunbind]
  change (selectRows column.nested.samples indices >>= fun selectedTensors => _) = _
  rw [hselected]
  change (do return ⟨column.rank, ← nestedTensorFromTensorList column.nested.raggedAxis _⟩ :
    Except String (Column α)) = _
  rw [nestedTensorFromTensorList_eq hsome fun tensor htensor =>
    Nested.sameOff_samples (mem_of_mem_filterMap_getElem? htensor)]
  rfl

theorem samples_pick {column : Column α} {positions : List ℕ} :
    (column.pick positions).nested.samples =
      positions.filterMap (column.nested.samples[·]?) :=
  Nested.samples_ofList fun _ htensor =>
    Nested.sameOff_samples (mem_of_mem_filterMap_getElem? htensor)

/-- The selected part of a batch. -/
def TensorDict.pick (td : TensorDict α V W) (positions : List ℕ) : TensorDict α V W :=
  ⟨positions.length, td.regular.map (Regular.pick positions), td.jagged.map (Column.pick positions)⟩

theorem rows_pick (positions : List ℕ) (key : String) :
    (td.pick positions).rows key = (td.rows key).map (Rows.pick positions) := by
  have hregular : ∀ column : Regular V W,
      ((column.pick positions).rows : Rows α V W) = column.rows.pick positions := by
    intro column
    cases column <;> rfl
  have hjagged : ∀ column : Column α,
      ((column.pick positions).rows : Rows α V W) = column.rows.pick positions := by
    intro column
    refine congrArg (Rows.jagged _) ?_
    rw [filterMap_getElem?_map]
    exact congrArg (List.map _) samples_pick
  rw [TensorDict.rows, TensorDict.rows, TensorDict.pick, Dict.get?_map, Dict.get?_map]
  cases td.regular.get? key with
  | some column => exact congrArg some (hregular column)
  | none =>
      cases td.jagged.get? key with
      | some column => exact congrArg some (hjagged column)
      | none => rfl

/-- Selecting from a batch whose jagged columns can be unbound. -/
theorem indexSelectTensorDict_eq (hwell : td.WellFormed) (hinside : InRange td.batchSize indices)
    (hjagged : ∀ entry ∈ td.jagged.entries, torch.unbindFails entry.2 = false ∧ indices ≠ []) :
    indexSelectTensorDict torch (some td) indices =
      .ok (some (td.pick (positions td.batchSize indices))) := by
  have hregular : td.regular.traverse (fun _ column => column.select indices) =
      .ok (td.regular.mapWithKey fun _ column =>
        column.pick (positions td.batchSize indices)) := by
    refine Dict.traverse_eq_ok fun entry hentry => ?_
    have hget := (Dict.get?_eq_some_iff _ _ _).mpr hentry
    obtain ⟨key, column⟩ := entry
    cases column with
    | dense rows =>
        have hrows := hwell.dense key rows hget
        have hselected := @selectRows_eq indices _ rows (by rwa [hrows])
        rw [hrows] at hselected
        change (do return Regular.dense (← selectRows rows indices) :
          Except String (Regular V W)) = _
        rw [hselected]
        rfl
    | stack rows =>
        have hrows := hwell.stack key rows hget
        have hselected := @selectRows_eq indices _ rows (by rwa [hrows])
        rw [hrows] at hselected
        change (do return Regular.stack (← selectRows rows indices) :
          Except String (Regular V W)) = _
        rw [hselected]
        rfl
    | data value => rfl
  have hcolumns : td.jagged.traverse (fun _ column => selectColumn torch indices column) =
      .ok (td.jagged.mapWithKey fun _ column =>
        column.pick (positions td.batchSize indices)) := by
    refine Dict.traverse_eq_ok fun entry hentry => ?_
    obtain ⟨hfails, hindices⟩ := hjagged entry hentry
    have hrows := hwell.jagged entry hentry
    rw [selectColumn_eq hfails (by rwa [hrows]) hindices, hrows]
  rw [indexSelectTensorDict, hregular]
  change (td.jagged.traverse _ >>= fun jagged => _) = _
  rw [hcolumns, TensorDict.pick, length_positions hinside]
  rfl

/-- A selection that succeeds unbinds every jagged column and picks at least one row. -/
theorem of_selectColumn_eq_ok {column result : Column α}
    (hok : selectColumn torch indices column = .ok result) :
    torch.unbindFails column = false ∧ indices ≠ [] := by
  obtain ⟨tensors, hunbind, hrest⟩ := bind_eq_ok.mp hok
  refine ⟨(unbind_eq_ok.mp hunbind).1, ?_⟩
  rintro rfl
  obtain ⟨selectedTensors, hselected, hbuild⟩ := bind_eq_ok.mp hrest
  cases hselected
  cases hbuild

end OneShotOPD.TensorDicts
