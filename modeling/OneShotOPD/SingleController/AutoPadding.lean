import OneShotOPD.SingleController.Dispatch
import Mathlib

/-!
# Row-wise methods under dispatch

A row-wise method commutes with every selection of rows.  So its outputs on the
pieces of its arguments are the pieces of its output, and collecting them gives
the rows that were sent out.  With padding these are all rows and copies of the
last one, which are taken away again.
-/

namespace OneShotOPD.SingleController

open Protocol Checks

variable {κ α β μ : Type}

/-- The positional and keyword arguments of a call. -/
def tables (args : List (DataProto κ α β μ)) (kwargs : List (String × DataProto κ α β μ)) :
    List (DataProto κ α β μ) :=
  args ++ kwargs.map Prod.snd

/-- The same selection of rows in a keyword argument. -/
def gatherKwarg (positions : List ℕ) (kwarg : String × DataProto κ α β μ) :
    String × DataProto κ α β μ :=
  (kwarg.1, kwarg.2.gather positions)

/-- What a method returns for a row depends on this row of its arguments only,
and not on the metrics or the list of reward columns that a batch carries. -/
structure RowWise (method : Method κ α β μ) : Prop where
  len_eq : ∀ args kwargs (count : ℕ), tables args kwargs ≠ [] →
    (∀ data ∈ tables args kwargs, data.len = count) → (method args kwargs).len = count
  gather_eq : ∀ args kwargs (count : ℕ) (positions : List ℕ), tables args kwargs ≠ [] →
    (∀ data ∈ tables args kwargs, data.len = count) →
    (∀ position ∈ positions, position < count) →
    method (args.map fun data => data.gather positions) (kwargs.map (gatherKwarg positions)) =
      (method args kwargs).gather positions
  agrees : ∀ left right : DataProto κ α β μ, left.Agrees right →
    (method [left] []).Agrees (method [right] [])

/-- The workers get the rows at their positions, of every argument. -/
theorem executeAll_gather (method : Method κ α β μ) (args : List (DataProto κ α β μ))
    (kwargs : List (String × DataProto κ α β μ)) (parts : List (List ℕ)) :
    executeAll parts.length method
        ⟨args.map fun data => parts.map fun part => data.gather part,
          kwargs.map fun kwarg => (kwarg.1, parts.map fun part => kwarg.2.gather part)⟩ =
      parts.map fun part =>
        method (args.map fun data => data.gather part) (kwargs.map (gatherKwarg part)) := by
  apply List.ext_getElem
  · simp [executeAll]
  · intro worker hworker hpart
    have hlt : worker < parts.length := by simpa using hpart
    have hargs : (args.map fun data => parts.map fun part => data.gather part).filterMap
        (fun arg => arg[worker]?) = args.map fun data => data.gather parts[worker] := by
      rw [List.filterMap_map]
      apply List.filterMap_eq_map_iff_forall_eq_some.mpr
      intro data _
      simp [hlt]
    have hkwargs : (kwargs.map fun kwarg =>
          (kwarg.1, parts.map fun part => kwarg.2.gather part)).filterMap
        (fun kwarg => kwarg.2[worker]?.map fun value => (kwarg.1, value)) =
          kwargs.map (gatherKwarg parts[worker]) := by
      rw [List.filterMap_map]
      apply List.filterMap_eq_map_iff_forall_eq_some.mpr
      intro kwarg _
      simp [hlt, gatherKwarg]
    simp only [executeAll, List.getElem_map, List.getElem_range]
    rw [hargs, hkwargs]

/-- The outputs of a row-wise method are the pieces of its output. -/
theorem executeAll_rowWise {method : Method κ α β μ} (hmethod : RowWise method)
    {args : List (DataProto κ α β μ)} {kwargs : List (String × DataProto κ α β μ)} {count : ℕ}
    (hne : tables args kwargs ≠ []) (hlen : ∀ data ∈ tables args kwargs, data.len = count)
    {parts : List (List ℕ)} (hparts : ∀ position ∈ parts.flatten, position < count) :
    executeAll parts.length method
        ⟨args.map fun data => parts.map fun part => data.gather part,
          kwargs.map fun kwarg => (kwarg.1, parts.map fun part => kwarg.2.gather part)⟩ =
      parts.map fun part => (method args kwargs).gather part := by
  rw [executeAll_gather]
  refine List.map_congr_left fun part hpart => ?_
  apply hmethod.gather_eq args kwargs count part hne hlen
  intro position hposition
  exact hparts position (List.mem_flatten.mpr ⟨part, hpart, hposition⟩)

/-- `padding_size` for a table of the given length. -/
def paddingSizeFor (chunks count : ℕ) : ℕ :=
  if count % chunks > 0 then chunks - count % chunks else 0

theorem dvd_add_paddingSizeFor {chunks : ℕ} (hchunks : 0 < chunks) (count : ℕ) :
    chunks ∣ count + paddingSizeFor chunks count := by
  have hlt := Nat.mod_lt count hchunks
  have hdiv := Nat.div_add_mod count chunks
  unfold paddingSizeFor
  split
  next =>
    refine ⟨count / chunks + 1, ?_⟩
    rw [Nat.mul_add, Nat.mul_one]
    omega
  next hmod =>
    rw [Nat.add_zero]
    exact Nat.dvd_of_mod_eq_zero (by omega)

theorem paddingSizeFor_eq_zero_iff {chunks : ℕ} (hchunks : 0 < chunks) (count : ℕ) :
    paddingSizeFor chunks count = 0 ↔ chunks ∣ count := by
  have hlt := Nat.mod_lt count hchunks
  rw [Nat.dvd_iff_mod_eq_zero, paddingSizeFor]
  split <;> omega

/-- The rows of a padded table that each worker gets. -/
def shardPositions (chunks count : ℕ) : List (List ℕ) :=
  let padded := DataProto.paddedPositions count (paddingSizeFor chunks count)
  (DataProto.pieces (List.replicate chunks (padded.length / chunks)) padded.length).map
    fun piece => gather piece padded

theorem length_shardPositions (chunks count : ℕ) :
    (shardPositions chunks count).length = chunks := by
  simp [shardPositions]

/-- Together the workers get all rows in order, and then the padding. -/
theorem flatten_shardPositions {chunks : ℕ} (hchunks : 0 < chunks) (count : ℕ) :
    (shardPositions chunks count).flatten =
      DataProto.paddedPositions count (paddingSizeFor chunks count) := by
  have hlength := DataProto.length_paddedPositions count (paddingSizeFor chunks count)
  have hsum : (List.replicate chunks
      ((DataProto.paddedPositions count (paddingSizeFor chunks count)).length / chunks)).sum =
        (DataProto.paddedPositions count (paddingSizeFor chunks count)).length := by
    rw [List.sum_replicate_nat, hlength]
    exact Nat.mul_div_cancel' (dvd_add_paddingSizeFor hchunks count)
  simp only [shardPositions]
  rw [← List.flatMap_def, ← gather_flatten, DataProto.flatten_pieces hsum, gather_range]

theorem mem_shardPositions_lt {chunks count : ℕ} (hchunks : 0 < chunks) (hcount : 0 < count) :
    ∀ position ∈ (shardPositions chunks count).flatten, position < count := by
  rw [flatten_shardPositions hchunks]
  exact DataProto.mem_paddedPositions_lt hcount

/-- Cutting a padded table gives each worker its rows. -/
theorem chunk_padded {data : DataProto κ α β μ} (autoPadding : Bool) {chunks : ℕ}
    (hchunks : 0 < chunks) (hlen : 0 < data.len) :
    (data.gather (DataProto.paddedPositions data.len
        (paddingSizeFor chunks data.len))).chunk autoPadding chunks =
      .ok ((shardPositions chunks data.len).map fun part => data.gather part) := by
  let positions := DataProto.paddedPositions data.len (paddingSizeFor chunks data.len)
  have hrange : ∀ position ∈ positions, position < data.len :=
    DataProto.mem_paddedPositions_lt hlen
  have hlength : positions.length = data.len + paddingSizeFor chunks data.len :=
    DataProto.length_paddedPositions _ _
  have hpadded := (DataProto.len_gather_of_lt hrange).trans hlength
  obtain ⟨size, hsize⟩ := dvd_add_paddingSizeFor hchunks data.len
  have hpos : 0 < data.len + paddingSizeFor chunks data.len := by omega
  have hsizepos : 0 < size := Nat.pos_of_mul_pos_left (hsize ▸ hpos)
  have hsplits : (data.gather positions).Splits autoPadding chunks :=
    DataProto.splits_of_dvd hchunks (hpadded ▸ hpos) ⟨size, hpadded.trans hsize⟩
  rw [DataProto.chunk_of_splits hchunks hsplits,
    DataProto.pieceSizes_of_mul hchunks hsizepos (hpadded.trans hsize), hpadded, shardPositions,
    hlength, hsize, Nat.mul_div_cancel_left _ hchunks, List.map_map]
  congr 1
  exact List.map_congr_left fun piece _ => DataProto.gather_gather hrange piece

/-- Taking away the padding of an output leaves the output on the rows. -/
theorem removePadding_agrees {joined output : DataProto κ α β μ} {paddingSize : ℕ}
    (hlen : 0 < output.len) (hagrees : joined.Agrees
      (output.gather (DataProto.paddedPositions output.len paddingSize))) :
    ∃ kept, removePadding paddingSize (.proto joined) = .ok (.proto kept) ∧
      kept.Agrees output := by
  have hextra : ∀ position ∈ List.replicate paddingSize (output.len - 1),
      position < output.len := by
    intro position hposition
    rw [List.eq_of_mem_replicate hposition]
    omega
  have hjoined : joined.len = output.len + paddingSize := by
    rw [hagrees.len_eq, DataProto.len_gather_of_lt (DataProto.mem_paddedPositions_lt hlen),
      DataProto.length_paddedPositions]
  by_cases hzero : paddingSize = 0
  · subst hzero
    rw [DataProto.paddedPositions, List.replicate_zero, List.append_nil,
      DataProto.gather_range] at hagrees
    exact ⟨joined, rfl, hagrees⟩
  · have hkept := hagrees.gather ((List.range (output.len + paddingSize)).take output.len)
    have htake := DataProto.gather_take_gather output hextra
    rw [List.length_replicate] at htake
    rw [DataProto.paddedPositions, htake] at hkept
    refine ⟨_, ?_, hkept⟩
    have hselect : joined.selectIdxs ((List.range (output.len + paddingSize)).take output.len) =
        .ok (joined.gather ((List.range (output.len + paddingSize)).take output.len)) := by
      refine if_pos fun idx hidx => ?_
      rw [hjoined]
      exact List.mem_range.mp (List.mem_of_mem_take hidx)
    rw [removePadding, if_pos (Nat.pos_of_ne_zero hzero), hjoined, Nat.add_sub_cancel]
    exact bind_eq_ok.mpr ⟨_, hselect, rfl⟩

variable [DecidableEq κ] [ValueEq μ]

/-- Collecting the outputs of a row-wise method. -/
theorem concat_executeAll {method : Method κ α β μ} (hmethod : RowWise method)
    {args : List (DataProto κ α β μ)} {kwargs : List (String × DataProto κ α β μ)} {count : ℕ}
    (hne : tables args kwargs ≠ []) (hlen : ∀ data ∈ tables args kwargs, data.len = count)
    (hcomparable : (method args kwargs).metaInfo.Comparable)
    {parts : List (List ℕ)} (hparts : ∀ position ∈ parts.flatten, position < count)
    (hnonempty : parts ≠ []) :
    ∃ joined, DataProto.concat (executeAll parts.length method
        ⟨args.map fun data => parts.map fun part => data.gather part,
          kwargs.map fun kwarg => (kwarg.1, parts.map fun part => kwarg.2.gather part)⟩) =
        .ok joined ∧ joined.Agrees ((method args kwargs).gather parts.flatten) := by
  rw [executeAll_rowWise hmethod hne hlen hparts]
  obtain ⟨part, parts, rfl⟩ := List.exists_cons_of_ne_nil hnonempty
  exact DataProto.concat_gather hcomparable part parts

/-- A padded argument: the object is assigned its padded columns, and the pieces
of these are handed out. -/
theorem paddingAndSplitData_enabled {autoPadding : Bool} {chunks : ℕ} (hchunks : 0 < chunks)
    {state : SplitState κ α β μ} {obj count : ℕ}
    (henabled : (state.objects obj).isPaddingEnabled autoPadding)
    (hcomparable : (state.objects obj).metaInfo.Comparable)
    (hlen : (state.objects obj).len = count) (hcount : 0 < count)
    (hlengths : lengthsFor chunks state.lengths count = (count, paddingSizeFor chunks count)) :
    paddingAndSplitData autoPadding chunks state obj =
      (⟨Function.update state.objects obj ((state.objects obj).gather
          (DataProto.paddedPositions count (paddingSizeFor chunks count))),
        some (count, paddingSizeFor chunks count)⟩,
        .ok ((shardPositions chunks count).map fun part => (state.objects obj).gather part)) := by
  subst hlen
  have hchunk := chunk_padded autoPadding hchunks hcount
  simp only [paddingAndSplitData, henabled, ↓reduceIte, hlengths, ne_eq, not_true_eq_false]
  rw [DataProto.padding_eq hcomparable hcount]
  simp only [hchunk]

/-- Padded arguments of one length are split alike, if they are distinct objects
or need no padding. -/
theorem splitAll_enabled {autoPadding : Bool} {chunks : ℕ} (hchunks : 0 < chunks)
    {count : ℕ} (hcount : 0 < count) {objs : List ℕ}
    (hdistinct : objs.Nodup ∨ paddingSizeFor chunks count = 0)
    (state : SplitState κ α β μ)
    (henabled : ∀ obj ∈ objs, (state.objects obj).isPaddingEnabled autoPadding)
    (hcomparable : ∀ obj ∈ objs, (state.objects obj).metaInfo.Comparable)
    (hlen : ∀ obj ∈ objs, (state.objects obj).len = count)
    (hlengths : lengthsFor chunks state.lengths count = (count, paddingSizeFor chunks count)) :
    ∃ objects lengths, splitAll autoPadding chunks state objs =
        (⟨objects, lengths⟩, .ok (objs.map fun obj =>
          (shardPositions chunks count).map fun part => (state.objects obj).gather part)) ∧
      (objs ≠ [] → lengths = some (count, paddingSizeFor chunks count)) := by
  induction objs generalizing state with
  | nil => exact ⟨state.objects, state.lengths, rfl, fun hne => absurd rfl hne⟩
  | cons obj objs ih =>
      have hrestDistinct : objs.Nodup ∨ paddingSizeFor chunks count = 0 :=
        hdistinct.imp_left fun hnodup => (List.nodup_cons.mp hnodup).2
      have hstep := paddingAndSplitData_enabled hchunks (henabled obj List.mem_cons_self)
        (hcomparable obj List.mem_cons_self) (hlen obj List.mem_cons_self) hcount hlengths
      let next : SplitState κ α β μ := ⟨Function.update state.objects obj
        ((state.objects obj).gather
          (DataProto.paddedPositions count (paddingSizeFor chunks count))),
        some (count, paddingSizeFor chunks count)⟩
      have hsame : ∀ other ∈ objs, next.objects other = state.objects other := by
        intro other hother
        by_cases hother' : other = obj
        · subst hother'
          have hzero : paddingSizeFor chunks count = 0 :=
            hdistinct.resolve_left fun hnodup => (List.nodup_cons.mp hnodup).1 hother
          have hself : next.objects other = (state.objects other).gather
              (DataProto.paddedPositions count (paddingSizeFor chunks count)) :=
            Function.update_self _ _ _
          rw [hself, hzero, DataProto.paddedPositions, List.replicate_zero, List.append_nil,
            ← hlen other List.mem_cons_self, DataProto.gather_range]
        · exact Function.update_of_ne hother' _ _
      obtain ⟨objects, lengths, hrest, hset⟩ := ih hrestDistinct next
        (fun other hother => by
          rw [hsame other hother]
          exact henabled other (List.mem_cons_of_mem _ hother))
        (fun other hother => by
          rw [hsame other hother]
          exact hcomparable other (List.mem_cons_of_mem _ hother))
        (fun other hother => by
          rw [hsame other hother]
          exact hlen other (List.mem_cons_of_mem _ hother)) rfl
      have hparts : (objs.map fun other => (shardPositions chunks count).map fun part =>
            (next.objects other).gather part) =
          objs.map fun other => (shardPositions chunks count).map fun part =>
            (state.objects other).gather part :=
        List.map_congr_left fun other hother => by rw [hsame other hother]
      refine ⟨objects, lengths, ?_, fun _ => ?_⟩
      · rw [splitAll, hstep]
        simp only
        rw [hrest, hparts]
        rfl
      · by_cases hne : objs = []
        · subst hne
          have heq := congrArg (fun result => result.1.lengths) hrest
          exact heq.symm
        · exact hset hne

def lookUp (objects : Objects κ α β μ) (kwargs : List (String × ℕ)) :
    List (String × DataProto κ α β μ) :=
  kwargs.map fun kwarg => (kwarg.1, objects kwarg.2)

omit [DecidableEq κ] [ValueEq μ] in
theorem tables_lookUp (objects : Objects κ α β μ) (args : List ℕ) (kwargs : List (String × ℕ)) :
    tables (args.map objects) (lookUp objects kwargs) =
      (args ++ kwargs.map Prod.snd).map objects := by
  simp [tables, lookUp]

/-- A call on padded tables of one length returns the output of the method on
their rows. -/
theorem callMethod_rowWise {autoPadding : Bool} (group : WorkerGroup) {method : Method κ α β μ}
    (hmethod : RowWise method) {args : List ℕ} {kwargs : List (String × ℕ)}
    (objects : Objects κ α β μ) {count : ℕ} (hcount : 0 < count)
    (hne : args ++ kwargs.map Prod.snd ≠ [])
    (hdistinct : (args ++ kwargs.map Prod.snd).Nodup ∨ group.worldSize ∣ count)
    (henabled : ∀ obj ∈ args ++ kwargs.map Prod.snd,
      (objects obj).isPaddingEnabled autoPadding)
    (hcomparable : ∀ obj ∈ args ++ kwargs.map Prod.snd, (objects obj).metaInfo.Comparable)
    (hreturned : (method (args.map objects) (lookUp objects kwargs)).metaInfo.Comparable)
    (hlen : ∀ obj ∈ args ++ kwargs.map Prod.snd, (objects obj).len = count) :
    ∃ output, (callMethod .dpComputeProto autoPadding group method args kwargs objects).2 =
        .ok (.proto output) ∧
      output.Agrees (method (args.map objects) (lookUp objects kwargs)) := by
  have hsize := group.worldSize_pos
  let parts := shardPositions group.worldSize count
  let pieces (data : DataProto κ α β μ) := parts.map fun part => data.gather part
  obtain ⟨final, lengths, hsplit, hlengths⟩ := splitAll_enabled hsize hcount
    (hdistinct.imp_right (paddingSizeFor_eq_zero_iff hsize count).mpr)
    ⟨objects, none⟩ henabled hcomparable hlen rfl
  have htables : tables (args.map objects) (lookUp objects kwargs) ≠ [] := by
    simpa [tables_lookUp] using hne
  have htablesLen : ∀ data ∈ tables (args.map objects) (lookUp objects kwargs),
      data.len = count := by
    rw [tables_lookUp]
    intro data hdata
    obtain ⟨obj, hobj, rfl⟩ := List.mem_map.mp hdata
    exact hlen obj hobj
  have hlength : parts.length = group.worldSize := length_shardPositions group.worldSize count
  have hnonempty : parts ≠ [] := List.ne_nil_of_length_pos (by omega)
  obtain ⟨joined, hjoined, hagrees⟩ := concat_executeAll hmethod htables htablesLen
    hreturned (mem_shardPositions_lt hsize hcount) hnonempty
  have houtput := hmethod.len_eq _ _ count htables htablesLen
  rw [flatten_shardPositions hsize, ← houtput] at hagrees
  obtain ⟨kept, hkept, hresult⟩ := removePadding_agrees (houtput ▸ hcount) hagrees
  refine ⟨kept, ?_, hresult⟩
  have hargs : ((args ++ kwargs.map Prod.snd).map fun obj => pieces (objects obj)).take
      args.length = (args.map objects).map pieces := by
    rw [List.map_append, List.take_left' (by simp), List.map_map]
    rfl
  have hkwargs : (kwargs.map Prod.fst).zip
      (((args ++ kwargs.map Prod.snd).map fun obj => pieces (objects obj)).drop args.length) =
        (lookUp objects kwargs).map fun kwarg => (kwarg.1, pieces kwarg.2) := by
    rw [List.map_append, List.drop_left' (by simp), List.map_map, List.zip_map', lookUp,
      List.map_map]
    rfl
  have hcollect : DispatchMode.collect .dpComputeProto (executeAll group.worldSize method
      ⟨(args.map objects).map pieces,
        (lookUp objects kwargs).map fun kwarg => (kwarg.1, pieces kwarg.2)⟩) =
          .ok (.proto joined) := by
    rw [← hlength]
    exact bind_eq_ok.mpr ⟨joined, hjoined, rfl⟩
  rw [callMethod, hsplit, hlengths hne]
  simp only [Option.map_some, Option.getD_some]
  rw [hargs, hkwargs, hcollect, ← houtput]
  exact hkept

omit [DecidableEq κ] [ValueEq μ] in
/-- The workers that return results hold the pieces in their order. -/
theorem collectNdCompute_gather {mesh : DeviceMesh} {parts : List (DataProto κ α β μ)}
    (hparts : parts.length = mesh.dpSize) :
    collectNdCompute mesh (gather mesh.dpRankMapping parts) = parts := by
  rw [collectNdCompute, gather_mask (hparts ▸ mesh.dpRank_lt), mesh.collected]
  rw [DeviceMesh.dpSize] at hparts
  rw [← hparts, gather_range]

/-- A mesh cuts the tables among its data-parallel ranks, and does not pad them.
Where that works, a call returns the output of the method on the rows. -/
theorem callNdMethod_rowWise {autoPadding : Bool} (mesh : DeviceMesh) {method : Method κ α β μ}
    (hmethod : RowWise method) {args : List (DataProto κ α β μ)}
    {kwargs : List (String × DataProto κ α β μ)} {count : ℕ} {sizes : List ℕ} (hargs : args ≠ [])
    (hcomparable : (method args kwargs).metaInfo.Comparable)
    (hlen : ∀ data ∈ tables args kwargs, data.len = count)
    (hsizes : ∀ data ∈ tables args kwargs, data.pieceSizes mesh.dpSize = sizes)
    (hsplits : ∀ data ∈ tables args kwargs, data.Splits autoPadding mesh.dpSize) :
    ∃ output, callNdMethod autoPadding mesh method args kwargs = .ok output ∧
      output.Agrees (method args kwargs) := by
  have hdp : 0 < mesh.dpSize := Nat.succ_pos _
  have hne : tables args kwargs ≠ [] := List.append_ne_nil_of_left_ne_nil hargs _
  obtain ⟨first, hfirst⟩ := List.exists_mem_of_ne_nil _ hne
  let parts := DataProto.pieces sizes count
  let pieces (data : DataProto κ α β μ) := parts.map fun part => data.gather part
  let held := gather mesh.dpRankMapping parts
  have hlength : parts.length = mesh.dpSize := by
    rw [DataProto.length_pieces, ← hsizes first hfirst, (hsplits first hfirst).enough]
  have hflatten : parts.flatten = List.range count := by
    apply DataProto.flatten_pieces
    rw [← hsizes first hfirst, DataProto.sum_pieceSizes _ hdp, hlen first hfirst]
  have hlocal : held.length = mesh.worldSize :=
    length_gather_of_lt (hlength ▸ mesh.dpRank_lt)
  have hrange : ∀ position ∈ held.flatten, position < count := by
    intro position hposition
    obtain ⟨part, hpart, hmem⟩ := List.mem_flatten.mp hposition
    have hrow : position ∈ parts.flatten :=
      List.mem_flatten.mpr ⟨part, mem_of_mem_gather hpart, hmem⟩
    rw [hflatten] at hrow
    exact List.mem_range.mp hrow
  have hchunk : ∀ data ∈ tables args kwargs,
      data.chunk autoPadding mesh.dpSize = .ok (pieces data) := by
    intro data hdata
    rw [DataProto.chunk_of_splits hdp (hsplits data hdata), hsizes data hdata, hlen data hdata]
  have hsplitArgs : splitPlain autoPadding mesh.dpSize args = .ok (args.map pieces) :=
    mapM_eq_ok_map fun data hdata => hchunk data (List.mem_append_left _ hdata)
  have hsplitKwargs : splitPlain autoPadding mesh.dpSize (kwargs.map Prod.snd) =
      .ok ((kwargs.map Prod.snd).map pieces) :=
    mapM_eq_ok_map fun data hdata => hchunk data (List.mem_append_right _ hdata)
  have hplace : ∀ data : DataProto κ α β μ, gather mesh.dpRankMapping (pieces data) =
      held.map fun part => data.gather part := fun data => (map_gather _ _ _).symm
  have hdispatch : dispatchNdCompute mesh ⟨args.map pieces,
        (kwargs.map Prod.fst).zip ((kwargs.map Prod.snd).map pieces)⟩ =
      .ok ⟨args.map fun data => held.map fun part => data.gather part,
        kwargs.map fun kwarg => (kwarg.1, held.map fun part => kwarg.2.gather part)⟩ := by
    rw [dispatchNdCompute, if_neg (by simpa using hargs), List.map_map, List.map_map,
      List.zip_map', List.map_map]
    simp only [Function.comp_def, hplace]
  have hcollect : collectNdCompute mesh (executeAll mesh.worldSize method
      ⟨args.map fun data => held.map fun part => data.gather part,
        kwargs.map fun kwarg => (kwarg.1, held.map fun part => kwarg.2.gather part)⟩) =
      parts.map fun part => (method args kwargs).gather part := by
    rw [← hlocal, executeAll_rowWise hmethod hne hlen hrange, map_gather]
    exact collectNdCompute_gather (by rw [List.length_map, hlength])
  have hnonempty : parts ≠ [] := List.ne_nil_of_length_pos (by omega)
  obtain ⟨part, rest, hcons⟩ := List.exists_cons_of_ne_nil hnonempty
  obtain ⟨joined, hjoined, hagrees⟩ := DataProto.concat_gather hcomparable part rest
  rw [← hcons, hflatten, ← hmethod.len_eq args kwargs count hne hlen,
    DataProto.gather_range] at hagrees
  refine ⟨joined, ?_, hagrees⟩
  refine bind_eq_ok.mpr ⟨_, hsplitArgs, bind_eq_ok.mpr ⟨_, hsplitKwargs,
    bind_eq_ok.mpr ⟨_, hdispatch, ?_⟩⟩⟩
  rw [hcollect, hcons]
  exact hjoined

/-- Otherwise it raises. -/
theorem splits_of_callNdMethod {autoPadding : Bool} {mesh : DeviceMesh}
    {method : Method κ α β μ} {args : List (DataProto κ α β μ)}
    {kwargs : List (String × DataProto κ α β μ)} {output : DataProto κ α β μ}
    (hok : callNdMethod autoPadding mesh method args kwargs = .ok output) :
    ∀ data ∈ tables args kwargs, data.Splits autoPadding mesh.dpSize := by
  obtain ⟨splittedArgs, hargs, hok⟩ := bind_eq_ok.mp hok
  obtain ⟨splittedKwargs, hkwargs, -⟩ := bind_eq_ok.mp hok
  intro data hdata
  have hchunk : ∃ parts, data.chunk autoPadding mesh.dpSize = .ok parts := by
    rcases List.mem_append.mp hdata with harg | hkwarg
    · exact eq_ok_of_mapM hargs harg
    · exact eq_ok_of_mapM hkwargs hkwarg
  obtain ⟨parts, hparts⟩ := hchunk
  by_contra hsplits
  obtain ⟨error, herror⟩ := DataProto.chunk_of_not_splits hsplits
  rw [herror] at hparts
  contradiction

/-- A row-wise method on a table padded to a divisor, and its output unpadded. -/
theorem unpad_method_padToDivisor {method : Method κ α β μ} (hmethod : RowWise method)
    {data : DataProto κ α β μ} (hcomparable : data.metaInfo.Comparable) (hlen : 0 < data.len)
    {sizeDivisor : ℕ} (hdivisor : 0 < sizeDivisor) :
    ∃ padded padSize, data.padToDivisor sizeDivisor = .ok (padded, padSize) ∧
      ((method [padded] []).unpad padSize).Agrees (method [data] []) := by
  obtain ⟨padded, extra, hpad, hagrees, hextra, -⟩ :=
      DataProto.padToDivisor_eq hcomparable hlen hdivisor
  have hne : tables [data] [] ≠ [] := List.cons_ne_nil _ _
  have hcount : ∀ other ∈ tables [data] [], other.len = data.len := by
    intro other hother
    rw [List.mem_singleton.mp hother]
  have houtput := hmethod.len_eq [data] [] data.len hne hcount
  have hgather := hmethod.gather_eq [data] [] data.len (List.range data.len ++ extra) hne hcount
    (DataProto.mem_padded_lt hextra)
  have hpadded := hmethod.agrees _ _ hagrees
  rw [List.map_singleton, List.map_nil] at hgather
  rw [hgather, ← houtput] at hpadded
  exact ⟨padded, extra.length, hpad, DataProto.unpad_agrees hpadded (houtput ▸ hextra)⟩

omit [DecidableEq κ] [ValueEq μ] in
theorem tables_gather (args : List (DataProto κ α β μ))
    (kwargs : List (String × DataProto κ α β μ)) (positions : List ℕ) :
    tables (args.map fun data => data.gather positions) (kwargs.map (gatherKwarg positions)) =
      (tables args kwargs).map fun data => data.gather positions := by
  simp [tables, gatherKwarg]

/-- The method that returns its first argument with every tensor entry changed. -/
def mapTensors (f : α → α) : Method κ α β μ := fun args kwargs =>
  match tables args kwargs with
  | [] => ⟨none, Dict.empty, ⟨none, Dict.empty, [], none, MetaInfo.uniform_nil⟩,
      by simp [Dict.empty]⟩
  | data :: _ => data.mapTensors f

omit [DecidableEq κ] [ValueEq μ] in
theorem rowWise_mapTensors (f : α → α) : RowWise (@mapTensors κ α β μ f) where
  len_eq := by
    intro args kwargs count hne hlen
    obtain ⟨data, rest, htables⟩ := List.exists_cons_of_ne_nil hne
    rw [mapTensors, htables]
    rw [htables] at hlen
    exact (DataProto.len_mapTensors f data).trans (hlen data List.mem_cons_self)
  gather_eq := by
    intro args kwargs count positions hne _ _
    obtain ⟨data, rest, htables⟩ := List.exists_cons_of_ne_nil hne
    rw [mapTensors, mapTensors, tables_gather, htables]
    exact (DataProto.gather_mapTensors f positions data).symm
  agrees := fun _ _ hagrees => DataProto.agrees_mapTensors f hagrees

/-- Dispatch to all workers pads and returns the output of the method on the
rows; dispatch over a mesh does so where the tables can be cut into one piece
for every data-parallel rank, and raises where they cannot; and padding to a
divisor is undone by unpadding. -/
theorem dispatch_rowWise {method : Method κ α β μ} (hmethod : RowWise method)
    (autoPadding : Bool) :
    (∀ (group : WorkerGroup) (args : List ℕ) (kwargs : List (String × ℕ))
        (objects : Objects κ α β μ) (count : ℕ), 0 < count →
      args ++ kwargs.map Prod.snd ≠ [] →
      ((args ++ kwargs.map Prod.snd).Nodup ∨ group.worldSize ∣ count) →
      (∀ obj ∈ args ++ kwargs.map Prod.snd, (objects obj).isPaddingEnabled autoPadding) →
      (∀ obj ∈ args ++ kwargs.map Prod.snd, (objects obj).metaInfo.Comparable) →
      (method (args.map objects) (lookUp objects kwargs)).metaInfo.Comparable →
      (∀ obj ∈ args ++ kwargs.map Prod.snd, (objects obj).len = count) →
      ∃ output, (callMethod .dpComputeProto autoPadding group method args kwargs objects).2 =
          .ok (.proto output) ∧
        output.Agrees (method (args.map objects) (lookUp objects kwargs))) ∧
    (∀ (mesh : DeviceMesh) (args : List (DataProto κ α β μ))
        (kwargs : List (String × DataProto κ α β μ)) (count : ℕ), 0 < count → args ≠ [] →
      (∀ data ∈ tables args kwargs, data.len = count) →
      (mesh.dpSize ∣ count → (method args kwargs).metaInfo.Comparable →
        ∃ output, callNdMethod autoPadding mesh method args kwargs = .ok output ∧
          output.Agrees (method args kwargs)) ∧
      (∀ sizes, (∀ data ∈ tables args kwargs, data.Splits autoPadding mesh.dpSize ∧
          data.pieceSizes mesh.dpSize = sizes) → (method args kwargs).metaInfo.Comparable →
        ∃ output, callNdMethod autoPadding mesh method args kwargs = .ok output ∧
          output.Agrees (method args kwargs)) ∧
      ((∃ data ∈ tables args kwargs, ¬ data.Splits autoPadding mesh.dpSize) →
        ∃ error, callNdMethod autoPadding mesh method args kwargs = .error error)) ∧
    (∀ (data : DataProto κ α β μ) (sizeDivisor : ℕ), data.metaInfo.Comparable →
        0 < data.len → 0 < sizeDivisor →
      ∃ padded padSize, data.padToDivisor sizeDivisor = .ok (padded, padSize) ∧
        ((method [padded] []).unpad padSize).Agrees (method [data] [])) := by
  refine ⟨?_, ?_, ?_⟩
  · intro group args kwargs objects count hcount hne hdistinct henabled hcomparable hreturned hlen
    exact callMethod_rowWise group hmethod objects hcount hne hdistinct henabled hcomparable
      hreturned hlen
  · intro mesh args kwargs count hcount hargs hlen
    refine ⟨?_, ?_, ?_⟩
    · intro hdvd hcomparable
      have hdp : 0 < mesh.dpSize := Nat.succ_pos _
      have hsize : 0 < count / mesh.dpSize :=
        Nat.div_pos (Nat.le_of_dvd hcount hdvd) hdp
      have hsizes : ∀ data ∈ tables args kwargs, data.pieceSizes mesh.dpSize =
          List.replicate mesh.dpSize (count / mesh.dpSize) := by
        intro data hdata
        apply DataProto.pieceSizes_of_mul hdp hsize
        rw [hlen data hdata, Nat.mul_div_cancel' hdvd]
      refine callNdMethod_rowWise mesh hmethod hargs hcomparable hlen hsizes
        fun data hdata => ?_
      rw [← hlen data hdata] at hcount hdvd
      exact DataProto.splits_of_dvd hdp hcount hdvd
    · intro sizes htables hcomparable
      exact callNdMethod_rowWise mesh hmethod hargs hcomparable hlen
        (fun data hdata => (htables data hdata).2) fun data hdata => (htables data hdata).1
    · rintro ⟨data, hdata, hsplits⟩
      cases hcall : callNdMethod autoPadding mesh method args kwargs with
      | error error => exact ⟨error, rfl⟩
      | ok output => exact absurd (splits_of_callNdMethod hcall data hdata) hsplits
  · intro data sizeDivisor hcomparable hlen hdivisor
    exact unpad_method_padToDivisor hmethod hcomparable hlen hdivisor

/-- A batch that holds one tensor and no meta information. -/
def singleTensor (key : String) (values : List ℤ) : DataProto String ℤ Unit Unit where
  batch := some ⟨values.length, ⟨[(key, values)], by simp⟩, by simp⟩
  nonTensorBatch := Dict.empty
  metaInfo := ⟨none, Dict.empty, [], none, MetaInfo.uniform_nil⟩
  consistent := by simp [Dict.empty]

/-- Three rows for two workers come back as three rows. -/
theorem threeRows_dispatch_rowWise :
    ∃ output, (callMethod .dpComputeProto true ⟨2, by decide⟩ (mapTensors (· + 1)) [0] []
        fun _ => singleTensor "a" [10, 20, 30]).2 = .ok (.proto output) ∧
      output.Agrees (singleTensor "a" [11, 21, 31]) :=
  (dispatch_rowWise (rowWise_mapTensors (· + 1)) true).1 ⟨2, by decide⟩ [0] []
    (fun _ => singleTensor "a" [10, 20, 30]) 3 (by decide) (by decide) (.inl (by decide))
    (fun _ _ => rfl) (fun _ _ => MetaInfo.comparable_of_decidableEq _)
    (MetaInfo.comparable_of_decidableEq _) (fun _ _ => rfl)

/-- The batch with an array in its meta information. -/
def seededTensor (values : List ℤ) : DataProto String ℤ Unit ArrayValue where
  batch := (singleTensor "a" values).batch
  nonTensorBatch := Dict.empty
  metaInfo := ⟨none, Dict.ofList [("seeds", twoSeeds)], [], none, MetaInfo.uniform_nil⟩
  consistent := by simp [Dict.empty]

/-- One row cannot be dispatched over two data-parallel ranks, padding or not, and
outputs with an array in their meta information cannot be collected. -/
theorem oneRow_mesh_raises :
    RowWise (@mapTensors String ℤ Unit Unit (· + 1)) ∧
      (singleTensor "a" [10]).isPaddingEnabled true ∧
      callNdMethod true (DeviceMesh.replicated 1 0) (mapTensors (· + 1))
        [singleTensor "a" [10]] [] = .error "IndexError: list index out of range" ∧
      RowWise (@mapTensors String ℤ Unit ArrayValue (· + 1)) ∧
      (callMethod .dpComputeProto true ⟨2, Nat.two_pos⟩ (mapTensors (· + 1)) [0] []
        fun _ => seededTensor [10, 20]).2 = .error
          "ValueError: The truth value of an array with more than one element is ambiguous." :=
  ⟨rowWise_mapTensors _, rfl, rfl, rowWise_mapTensors _, rfl⟩

end OneShotOPD.SingleController
