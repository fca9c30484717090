import OneShotOPD.DeltaSync.ConvertedRows

/-!
# The entry of a converted parameter

The sorted changes of a shard are cut into the runs of the touched rows, and every
run is converted.  The pieces of all outputs of all rows, one after the other, are
what is exported; the rows that are not touched have empty pieces.
-/

namespace OneShotOPD.DeltaSync

open Checks Segments

variable {V : Type} (converter : PermutingConverter V) (delta : Dict ℕ V)

/-- The changes in the row of an expert. -/
def rowDelta (expertId : ℕ) : Dict ℕ V :=
  delta.filter fun position => position / converter.rowShape.prod = expertId

/-- The pieces of all outputs. -/
def entryPieces (experts : ℕ) : List (List (ℤ × V)) :=
  (List.range experts).flatMap (rowPieces converter delta)

def convertedSlots (expertId : ℕ) : List (ConvertedSlot V) :=
  (rowPieces converter delta expertId).zipIdx.filterMap fun row => convertedSlot row.1 row.2

variable {converter delta}

/-- A row has the changes of its own positions. -/
theorem get?_rowDelta {expertId position : ℕ} (hposition : position < converter.rowShape.prod) :
    (rowDelta converter delta expertId).get? (expertId * converter.rowShape.prod + position) =
      delta.get? (expertId * converter.rowShape.prod + position) := by
  rw [rowDelta, Dict.get?_filter, if_pos]
  rw [Nat.mul_comm, Nat.mul_add_div (by omega), Nat.div_eq_of_lt hposition, Nat.add_zero]

theorem rowPieces_rowDelta (expertId : ℕ) :
    rowPieces converter (rowDelta converter delta expertId) expertId =
      rowPieces converter delta expertId := by
  refine List.map_congr_left fun entry hentry => congrArg piece ?_
  exact List.map_congr_left fun position hposition =>
    get?_rowDelta (converter.source_lt hentry hposition)

/-- The touched rows are converted one after the other. -/
theorem convertRuns_eq (float : FloatType V) (name : String) {experts : ℕ} (hexperts : experts ≠ 0)
    (hnumel : converter.rowShape.prod ≠ 0)
    (hnan : ∀ entry ∈ delta.entries, float.isNaN entry.2 = false) (front : List (ℕ × V))
    (touched : List ℕ) (state : EntryState V) :
    convertRuns float name (converter.spec experts) converter.slotsPerRow
        (front ++ touched.flatMap fun expertId => (rowDelta converter delta expertId).entries)
        (touched.map fun expertId =>
          (expertId, (rowDelta converter delta expertId).entries.length)) front.length state =
      .ok (touched.foldl (fun state expertId =>
        (convertedSlots converter delta expertId).foldl
          (EntryState.record converter.slotsPerRow expertId) state) state) := by
  induction touched generalizing front state with
  | nil => rfl
  | cons expertId touched ih =>
      have hrun := slice_middle front (rowDelta converter delta expertId).entries
        (touched.flatMap fun expertId => (rowDelta converter delta expertId).entries)
      have hrowNumel : (converter.spec experts).rowNumel = converter.rowShape.prod := by
        rw [ConverterSpec.rowNumel]
        simp only [PermutingConverter.spec]
        omega
      have hbounds : ∀ entry ∈ (rowDelta converter delta expertId).entries,
          expertId * converter.rowShape.prod ≤ entry.1 ∧
            entry.1 < expertId * converter.rowShape.prod + converter.rowShape.prod := by
        intro entry hentry
        obtain ⟨-, hdiv⟩ := Dict.mem_entries_filter.mp hentry
        have hmod := Nat.mod_lt entry.1 (Nat.pos_of_ne_zero hnumel)
        have hsum := Nat.div_add_mod entry.1 converter.rowShape.prod
        rw [hdiv, Nat.mul_comm] at hsum
        omega
      have hrow := convertRowToHf_eq converter float name hexperts hnumel hbounds
        fun entry hentry => hnan entry (Dict.mem_entries_filter.mp hentry).1
      rw [rowPieces_rowDelta] at hrow
      rw [List.map_cons, List.flatMap_cons, convertRuns, hrun, hrowNumel, hrow]
      have hrest := ih (front ++ (rowDelta converter delta expertId).entries)
        ((convertedSlots converter delta expertId).foldl
          (EntryState.record converter.slotsPerRow expertId) state)
      rw [List.append_assoc, List.length_append] at hrest
      exact hrest

/-! ## The pieces of all rows -/

variable (converter delta)

/-- The pieces with entries, with the places of their slots. -/
def touchedPieces (expertId : ℕ) : List (List (ℤ × V) × ℕ) :=
  ((rowPieces converter delta expertId).zipIdx (expertId * converter.slotsPerRow)).filter
    fun slot => slot.1 ≠ []

theorem length_rowPieces (expertId : ℕ) :
    (rowPieces converter delta expertId).length = converter.slotsPerRow := by
  rw [rowPieces, List.length_map, converter.length_table]

theorem length_entryPieces (experts : ℕ) :
    (entryPieces converter delta experts).length = experts * converter.slotsPerRow := by
  simp [entryPieces, List.length_flatMap, length_rowPieces]

/-- The slots of the rows are numbered through. -/
theorem zipIdx_entryPieces (experts : ℕ) :
    (entryPieces converter delta experts).zipIdx =
      (List.range experts).flatMap fun expertId =>
        (rowPieces converter delta expertId).zipIdx (expertId * converter.slotsPerRow) := by
  induction experts with
  | zero => rfl
  | succ experts ih =>
      have hlength := length_entryPieces converter delta experts
      rw [entryPieces] at hlength ih ⊢
      rw [List.range_succ, List.flatMap_append, List.flatMap_append, List.flatMap_singleton,
        List.flatMap_singleton, List.zipIdx_append, ih, hlength, Nat.zero_add]

/-- Pieces that are recorded at the places of their slots. -/
def EntryState.recordAll (state : EntryState V) (slots : List (List (ℤ × V) × ℕ)) :
    EntryState V where
  counts := scatter state.counts (slots.map Prod.snd) (slots.map fun slot => slot.1.length)
  idxPieces := state.idxPieces ++ slots.map fun slot => slot.1.map Prod.fst
  valPieces := state.valPieces ++ slots.map fun slot => slot.1.map Prod.snd

theorem EntryState.recordAll_nil (state : EntryState V) : state.recordAll [] = state := by
  simp [recordAll]

theorem EntryState.recordAll_append (state : EntryState V)
    (first second : List (List (ℤ × V) × ℕ)) :
    state.recordAll (first ++ second) = (state.recordAll first).recordAll second := by
  simp [recordAll, scatter_append]

/-- Recording the outputs of a row records its pieces with entries. -/
theorem foldl_record (expertId : ℕ) (state : EntryState V) :
    (convertedSlots converter delta expertId).foldl
        (EntryState.record converter.slotsPerRow expertId) state =
      state.recordAll (touchedPieces converter delta expertId) := by
  have hslots : ∀ (pieces : List (List (ℤ × V))) (first : ℕ) (state : EntryState V),
      ((pieces.zipIdx first).filterMap fun row => convertedSlot row.1 row.2).foldl
          (EntryState.record converter.slotsPerRow expertId) state =
        state.recordAll ((pieces.zipIdx (expertId * converter.slotsPerRow + first)).filter
          fun slot => slot.1 ≠ []) := by
    intro pieces
    induction pieces with
    | nil => exact fun _ state => state.recordAll_nil.symm
    | cons entries pieces ih =>
        intro first state
        rw [List.zipIdx_cons, List.zipIdx_cons]
        by_cases hentries : entries = []
        · have hnone : convertedSlot entries first = none := if_pos hentries
          rw [List.filterMap_cons, hnone, List.filter_cons_of_neg (by simpa), ih, Nat.add_assoc]
        · have hsome : convertedSlot entries first = some _ := if_neg hentries
          rw [List.filterMap_cons, hsome, List.filter_cons_of_pos (by simpa), List.foldl_cons, ih,
            ← List.singleton_append, EntryState.recordAll_append, Nat.add_assoc]
          simp [EntryState.record, EntryState.recordAll]
  exact hslots _ 0 state

theorem foldl_touched (touched : List ℕ) (state : EntryState V) :
    (touched.foldl (fun state expertId => (convertedSlots converter delta expertId).foldl
        (EntryState.record converter.slotsPerRow expertId) state) state) =
      state.recordAll (touched.flatMap (touchedPieces converter delta)) := by
  induction touched generalizing state with
  | nil => exact state.recordAll_nil.symm
  | cons expertId touched ih =>
      rw [List.foldl_cons, ih, foldl_record, List.flatMap_cons, EntryState.recordAll_append]

/-- Writing the lengths of the pieces with entries into zeros gives the lengths of all pieces. -/
theorem scatter_lengths (pieces : List (List (ℤ × V))) (front : List ℕ) :
    scatter (front ++ List.replicate pieces.length 0)
        (((pieces.zipIdx front.length).filter fun slot => slot.1 ≠ []).map Prod.snd)
        (((pieces.zipIdx front.length).filter fun slot => slot.1 ≠ []).map fun slot =>
          slot.1.length) =
      front ++ pieces.map List.length := by
  induction pieces generalizing front with
  | nil => simp
  | cons entries pieces ih =>
      have hrest := ih (front ++ [entries.length])
      rw [List.length_append, List.length_singleton, List.append_assoc, List.append_assoc,
        List.singleton_append, List.singleton_append] at hrest
      rw [List.zipIdx_cons, List.map_cons, ← hrest]
      by_cases hentries : entries = []
      · rw [List.filter_cons_of_neg (by simpa), hentries]
        rfl
      · rw [List.filter_cons_of_pos (by simpa), List.map_cons, List.map_cons, scatter_cons,
          List.length_cons, List.replicate_succ, List.set_append_right _ _ le_rfl, Nat.sub_self,
          List.set_cons_zero]

/-- The pieces without entries add nothing. -/
theorem flatten_touched {β : Type} (f : ℤ × V → β) (pieces : List (List (ℤ × V))) :
    ((pieces.zipIdx.filter fun slot => slot.1 ≠ []).map fun slot => slot.1.map f).flatten =
      pieces.flatten.map f := by
  have hfilter : (pieces.zipIdx.filter fun slot => slot.1 ≠ []).map Prod.fst =
      pieces.filter fun entries => entries ≠ [] := by
    conv_rhs => rw [← List.zipIdx_map_fst 0 pieces, List.filter_map]
    rfl
  calc
    _ = (((pieces.zipIdx.filter fun slot => slot.1 ≠ []).map Prod.fst).map
      (List.map f)).flatten := by
      rw [List.map_map]
      rfl
    _ = pieces.flatten.map f := by
      rw [hfilter, ← List.map_flatten, List.flatten_filter_ne_nil]

/-- Recording the pieces with entries of all rows gives the entry of all pieces. -/
theorem recordAll_entryPieces (experts : ℕ) :
    let state := EntryState.recordAll
      ⟨List.replicate (experts * converter.slotsPerRow) 0, [], []⟩
      ((List.range experts).flatMap (touchedPieces converter delta))
    state.counts = (entryPieces converter delta experts).map List.length ∧
      state.idxPieces.flatten = positionsOf (entryPieces converter delta experts) ∧
      state.valPieces.flatten = valuesOf (entryPieces converter delta experts) := by
  have htouched : (List.range experts).flatMap (touchedPieces converter delta) =
      (entryPieces converter delta experts).zipIdx.filter fun slot => slot.1 ≠ [] := by
    rw [zipIdx_entryPieces, List.filter_flatMap]
    rfl
  have hlengths := scatter_lengths (entryPieces converter delta experts) []
  rw [length_entryPieces] at hlengths
  dsimp only
  rw [htouched]
  exact ⟨hlengths, flatten_touched Prod.fst _, flatten_touched Prod.snd _⟩

/-- A row without changes has no entries. -/
theorem touchedPieces_eq_nil {expertId : ℕ}
    (huntouched : ∀ entry ∈ delta.entries, entry.1 / converter.rowShape.prod ≠ expertId) :
    touchedPieces converter delta expertId = [] := by
  refine List.filter_eq_nil_iff.mpr fun slot hslot => ?_
  obtain ⟨entry, hentry, hpiece⟩ := List.mem_map.mp (List.fst_mem_of_mem_zipIdx hslot)
  have hnone : ∀ value ∈ partialOutput delta (expertId * converter.rowShape.prod) entry.2,
      value = none := by
    intro value hvalue
    obtain ⟨position, hposition, rfl⟩ := List.mem_map.mp hvalue
    have hlt := converter.source_lt hentry hposition
    refine (Dict.get?_eq_none_iff delta _).mpr fun hkey => ?_
    obtain ⟨change, hchange, hfst⟩ := List.mem_map.mp hkey
    refine huntouched change hchange ?_
    rw [hfst, Nat.mul_comm, Nat.mul_add_div (by omega), Nat.div_eq_of_lt hlt, Nat.add_zero]
  have hempty : piece (partialOutput delta (expertId * converter.rowShape.prod) entry.2) = [] := by
    refine List.filterMap_eq_nil_iff.mpr fun index hindex => ?_
    rw [List.getD_eq_getElem _ _ (List.mem_range.mp hindex), hnone _ (List.getElem_mem _)]
    rfl
  simpa [← hpiece] using hempty

/-- The touched rows have the entries of all rows. -/
theorem flatMap_touchedPieces {experts : ℕ} {touched : List ℕ}
    (hsorted : touched.Pairwise (· < ·)) (hlt : ∀ expertId ∈ touched, expertId < experts)
    (htouched : ∀ entry ∈ delta.entries, entry.1 / converter.rowShape.prod ∈ touched) :
    touched.flatMap (touchedPieces converter delta) =
      (List.range experts).flatMap (touchedPieces converter delta) := by
  have hfilter : touched = (List.range experts).filter fun expertId => expertId ∈ touched := by
    refine List.Pairwise.eq_of_mem_iff hsorted (List.pairwise_lt_range.filter _) fun expertId => ?_
    rw [List.mem_filter, List.mem_range, decide_eq_true_eq]
    exact ⟨fun hmem => ⟨hlt _ hmem, hmem⟩, And.right⟩
  have hskip : ∀ rows : List ℕ,
      (rows.filter fun expertId => expertId ∈ touched).flatMap (touchedPieces converter delta) =
        rows.flatMap (touchedPieces converter delta) := by
    intro rows
    induction rows with
    | nil => rfl
    | cons expertId rows ih =>
        by_cases hmem : expertId ∈ touched
        · rw [List.filter_cons_of_pos (by simpa), List.flatMap_cons, List.flatMap_cons, ih]
        · have hnil : touchedPieces converter delta expertId = [] :=
            touchedPieces_eq_nil converter delta fun entry hentry heq =>
              hmem (heq ▸ htouched entry hentry)
          rw [List.filter_cons_of_neg (by simpa), List.flatMap_cons, hnil, List.nil_append, ih]
  calc
    _ = ((List.range experts).filter fun expertId => expertId ∈ touched).flatMap
        (touchedPieces converter delta) := congrArg (List.flatMap _) hfilter
    _ = _ := hskip _

/-- The changes in the order of their positions. -/
def sortedDelta : Dict ℕ V where
  entries := delta.entries.mergeSort fun first second => first.1 ≤ second.1
  nodup_keys := ((List.mergeSort_perm _ _).map Prod.fst).nodup_iff.mpr delta.nodup_keys

theorem mem_sortedDelta {entry : ℕ × V} :
    entry ∈ (sortedDelta delta).entries ↔ entry ∈ delta.entries :=
  (List.mergeSort_perm _ _).mem_iff

theorem pairwise_sortedDelta :
    ((sortedDelta delta).entries.map Prod.fst).Pairwise (· ≤ ·) := by
  have hsorted : (sortedDelta delta).entries.Pairwise fun first second =>
      decide (first.1 ≤ second.1) = true :=
    List.pairwise_mergeSort
      (fun _ _ _ hfirst hsecond =>
        decide_eq_true ((of_decide_eq_true hfirst).trans (of_decide_eq_true hsecond)))
      (fun first second => by simpa using Nat.le_total first.1 second.1) delta.entries
  rw [List.pairwise_map]
  exact hsorted.imp of_decide_eq_true

/-- Sorting does not change what a delta has. -/
theorem entryPieces_sortedDelta (experts : ℕ) :
    entryPieces converter (sortedDelta delta) experts = entryPieces converter delta experts := by
  have hget : ∀ position, (sortedDelta delta).get? position = delta.get? position := by
    refine fun position => Option.ext fun value => ?_
    rw [Dict.get?_eq_some_iff, Dict.get?_eq_some_iff, mem_sortedDelta]
  have hrow : rowPieces converter (sortedDelta delta) = rowPieces converter delta := by
    funext expertId
    simp only [rowPieces, partialOutput, hget]
  rw [entryPieces, entryPieces, hrow]

/-- The runs of the sorted changes are those of the touched rows. -/
theorem convertRuns_sortedDelta (float : FloatType V) (name : String) {experts : ℕ}
    (hexperts : experts ≠ 0)
    (hlt : ∀ entry ∈ delta.entries, entry.1 < experts * converter.rowShape.prod)
    (hnan : ∀ entry ∈ delta.entries, float.isNaN entry.2 = false) (state : EntryState V) :
    convertRuns float name (converter.spec experts) converter.slotsPerRow
        (sortedDelta delta).entries
        (runs ((sortedDelta delta).entries.map fun entry =>
          entry.1 / (converter.spec experts).rowNumel)) 0 state =
      .ok (state.recordAll
        ((List.range experts).flatMap (touchedPieces converter (sortedDelta delta)))) := by
  have hltSorted : ∀ entry ∈ (sortedDelta delta).entries,
      entry.1 < experts * converter.rowShape.prod := fun entry hentry =>
    hlt entry ((mem_sortedDelta delta).mp hentry)
  have hnanSorted : ∀ entry ∈ (sortedDelta delta).entries, float.isNaN entry.2 = false :=
    fun entry hentry => hnan entry ((mem_sortedDelta delta).mp hentry)
  have hpositions := pairwise_sortedDelta delta
  generalize sortedDelta delta = changes at hltSorted hnanSorted hpositions ⊢
  have htouched : ∀ entry ∈ changes.entries, entry.1 / converter.rowShape.prod < experts :=
    fun entry hentry => Nat.div_lt_of_lt_mul (Nat.mul_comm _ _ ▸ hltSorted entry hentry)
  by_cases hnumel : converter.rowShape.prod = 0
  · have hnil : changes.entries = [] := List.eq_nil_iff_forall_not_mem.mpr fun entry hentry => by
      have hpos := hltSorted entry hentry
      rw [hnumel] at hpos
      omega
    have huntouched : [] = (List.range experts).flatMap (touchedPieces converter changes) :=
      flatMap_touchedPieces converter changes .nil nofun (by simp [hnil])
    rw [hnil, ← huntouched]
    exact congrArg Except.ok state.recordAll_nil.symm
  · have hrowNumel : (converter.spec experts).rowNumel = converter.rowShape.prod := by
      rw [ConverterSpec.rowNumel]
      simp only [PermutingConverter.spec]
      omega
    have hrows : (changes.entries.map fun entry =>
        entry.1 / converter.rowShape.prod).Pairwise (· ≤ ·) := by
      rw [List.pairwise_map] at hpositions ⊢
      exact hpositions.imp Nat.div_le_div_right
    obtain ⟨hsorted, hcount, hmem⟩ := sortedRuns_runs hrows
    generalize hruns : runs (changes.entries.map fun entry =>
      entry.1 / converter.rowShape.prod) = found at hsorted hcount hmem
    have hfound : found = (found.map Prod.fst).map fun expertId =>
        (expertId, (rowDelta converter changes expertId).entries.length) := by
      rw [List.map_map]
      refine (List.map_id _).symm.trans (List.map_congr_left fun run hrun => ?_)
      refine Prod.ext rfl ((hcount run hrun).trans ?_)
      rw [List.count_eq_countP, List.countP_map, List.countP_eq_length_filter]
      exact congrArg List.length (List.filter_congr fun entry _ => beq_eq_decide _ _)
    have hentries : changes.entries = (found.map Prod.fst).flatMap fun expertId =>
        (rowDelta converter changes expertId).entries := by
      refine (flatMap_filter_of_sorted hrows hsorted fun entry hentry => ?_).symm
      exact (hmem _).mpr (List.mem_map_of_mem hentry)
    have hexpert : ∀ expertId ∈ found.map Prod.fst, expertId < experts := fun expertId hid => by
      obtain ⟨entry, hentry, rfl⟩ := List.mem_map.mp ((hmem expertId).mp hid)
      exact htouched entry hentry
    have hall := flatMap_touchedPieces converter changes hsorted hexpert
      fun entry hentry => (hmem _).mpr (List.mem_map_of_mem hentry)
    have hloop := convertRuns_eq float name hexperts hnumel hnanSorted [] (found.map Prod.fst) state
    rw [← hfound, ← hentries, foldl_touched, hall] at hloop
    rw [hrowNumel, hruns]
    exact hloop

/-- The entry of a shard has, slot by slot, the changes that the outputs show. -/
theorem hfEntryConverter_eq (float : FloatType V) (name : String) {experts : ℕ}
    (hexperts : experts ≠ 0) (place : Place) {lidx : List ℕ} {lval : List V}
    (hentries : delta.entries = (lidx.map (translateFlatIndex place)).zip lval)
    (hlt : ∀ entry ∈ delta.entries, entry.1 < experts * converter.rowShape.prod)
    (hnan : ∀ entry ∈ delta.entries, float.isNaN entry.2 = false) :
    hfEntryConverter float name (converter.spec experts) place lidx lval =
      .ok { slots := converter.hfSlots experts
            dtypeStr := float.name
            counts := (entryPieces converter delta experts).map List.length
            idx := positionsOf (entryPieces converter delta experts)
            val := valuesOf (entryPieces converter delta experts) } := by
  have hslots : (converter.spec experts).hfSlots.length = experts * converter.slotsPerRow :=
    converter.length_hfSlots experts
  obtain ⟨hcounts, hidx, hval⟩ := recordAll_entryPieces converter (sortedDelta delta) experts
  rw [entryPieces_sortedDelta] at hcounts hidx hval
  rw [hfEntryConverter, converter.slotsPerRow_spec hexperts]
  simp only [← hentries]
  refine bind_eq_ok.mpr ⟨_, rfl, bind_eq_ok.mpr ⟨_,
    convertRuns_sortedDelta converter delta float name hexperts hlt hnan _, ?_⟩⟩
  rw [hslots, hcounts, hidx, hval]
  rfl

end OneShotOPD.DeltaSync
