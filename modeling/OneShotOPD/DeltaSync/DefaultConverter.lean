import OneShotOPD.DeltaSync.ConvertedRows
import Mathlib.Data.List.Perm.Basic

/-!
# The default handler

Every expert of a stack becomes a tensor of its own; of a fused gate and up
projection it becomes two, the two halves of the expert.  Both only move elements.
-/

namespace OneShotOPD.DeltaSync

open Checks Segments

variable {V : Type}

def expertName (name : String) (idx : ℕ) : String :=
  name.replace "mlp.experts." ("mlp.experts." ++ toString idx ++ ".") ++ ".weight"

/-- A row of a stack. -/
theorem rowAt_flatten {rows : List (List V)} {shape : List ℕ}
    (hrows : ∀ row ∈ rows, row.length = shape.prod) {index : ℕ} (hindex : index < rows.length) :
    (Tensor.mk (rows.length :: shape) rows.flatten).rowAt index = ⟨shape, rows[index]⟩ := by
  have hoffset : offset (rows.map List.length) index = index * shape.prod := by
    have hlengths : rows.map List.length = List.replicate rows.length shape.prod :=
      List.eq_replicate_iff.mpr ⟨by simp, fun length hlength => by
        obtain ⟨row, hrow, rfl⟩ := List.mem_map.mp hlength
        exact hrows row hrow⟩
    rw [offset_eq (by simpa using hindex.le), hlengths, List.take_replicate,
      List.sum_replicate_nat, Nat.min_eq_left hindex.le]
  have hlength := hrows _ (List.getElem_mem hindex)
  have hslice := @slice_offset V rows index hindex 0 rows[index].length le_rfl
  rw [hoffset, hlength, Nat.add_zero, ← Nat.succ_mul] at hslice
  rw [Tensor.rowAt]
  simp only [List.tail_cons, hslice]
  simp [slice, ← hlength]

theorem mapMoeParamsCommon_eq (name : String) {rows : List (List V)} {shape : List ℕ}
    (hrows : ∀ row ∈ rows, row.length = shape.prod) (expertIdBase : ℕ) :
    mapMoeParamsCommon name ⟨rows.length :: shape, rows.flatten⟩ expertIdBase =
      rows.zipIdx.map fun row => (expertName name (expertIdBase + row.2), ⟨shape, row.1⟩) := by
  apply List.ext_getElem
  · simp [mapMoeParamsCommon]
  · intro index hleft hright
    have hindex : index < rows.length := by simpa using hright
    simp [mapMoeParamsCommon, expertName, rowAt_flatten hrows hindex]

theorem gather_append_right (front back : List V) :
    gather ((List.range back.length).map (front.length + ·)) (front ++ back) = back := by
  rw [gather, List.filterMap_map]
  calc
    _ = (List.range back.length).filterMap fun position => back[position]? :=
      List.filterMap_congr fun position _ => by
        rw [Function.comp_apply, List.getElem?_append_right (Nat.le_add_right _ _),
          Nat.add_sub_cancel_left]
    _ = back := gather_range back

/-- The two halves of every row of a stack. -/
theorem chunkTwo_eq {rows : List (List V)} {width : ℕ} {rest : List ℕ} (hwidth : width ≠ 1)
    (hrows : ∀ row ∈ rows, row.length = (width :: rest).prod) :
    (Tensor.mk (rows.length :: width :: rest) rows.flatten).chunkTwo =
      .ok (⟨(rows.map fun row => row.take ((width + 1) / 2 * rest.prod)).length ::
            (width + 1) / 2 :: rest,
          (rows.map fun row => row.take ((width + 1) / 2 * rest.prod)).flatten⟩,
        ⟨(rows.map fun row => row.drop ((width + 1) / 2 * rest.prod)).length ::
            (width - (width + 1) / 2) :: rest,
          (rows.map fun row => row.drop ((width + 1) / 2 * rest.prod)).flatten⟩) := by
  have hdata : ((List.range rows.length).map fun index =>
      ((Tensor.mk (rows.length :: width :: rest) rows.flatten).rowAt index).data) = rows := by
    apply List.ext_getElem
    · simp
    · intro index hleft hright
      simp [rowAt_flatten hrows hright]
  simp only [Tensor.chunkTwo, if_neg hwidth, hdata, List.length_map, List.flatMap_def]

theorem length_take_half {width : ℕ} {rest : List ℕ} {row : List V}
    (hrow : row.length = (width :: rest).prod) :
    (row.take ((width + 1) / 2 * rest.prod)).length = ((width + 1) / 2 :: rest).prod := by
  have hle : (width + 1) / 2 * rest.prod ≤ width * rest.prod := by
    rcases Nat.eq_zero_or_pos width with rfl | hpos
    · simp
    · exact Nat.mul_le_mul_right _ (by omega)
  rw [List.length_take, hrow, List.prod_cons, List.prod_cons, Nat.min_eq_left hle]

theorem length_drop_half {width : ℕ} {rest : List ℕ} {row : List V}
    (hrow : row.length = (width :: rest).prod) :
    (row.drop ((width + 1) / 2 * rest.prod)).length = ((width - (width + 1) / 2) :: rest).prod := by
  rw [List.length_drop, hrow, List.prod_cons, List.prod_cons, Nat.sub_mul]

/-- Which positions of a row make up its halves. -/
theorem gather_halves {width : ℕ} {rest : List ℕ} {row : List V}
    (hrow : row.length = (width :: rest).prod) :
    gather (List.range ((width + 1) / 2 :: rest).prod) row =
        row.take ((width + 1) / 2 * rest.prod) ∧
      gather ((List.range ((width - (width + 1) / 2) :: rest).prod).map
          (((width + 1) / 2 :: rest).prod + ·)) row =
        row.drop ((width + 1) / 2 * rest.prod) := by
  have hsplit := List.take_append_drop ((width + 1) / 2 * rest.prod) row
  have htake := gather_range_append (row.take ((width + 1) / 2 * rest.prod))
    (row.drop ((width + 1) / 2 * rest.prod))
  have hdrop := gather_append_right (row.take ((width + 1) / 2 * rest.prod))
    (row.drop ((width + 1) / 2 * rest.prod))
  rw [hsplit, length_take_half hrow] at htake hdrop
  rw [length_drop_half hrow] at hdrop
  exact ⟨htake, hdrop⟩

/-- A stack without fused projections. -/
def plainConverter (name : String) (hname : name.contains "gate_up_proj" = false)
    (rowShape : List ℕ) : PermutingConverter V where
  rowShape := rowShape
  slotsPerRow := 1
  toHfChunk := fun start segment => defaultMoeParamHandler name segment start
  table := fun expertId => [(⟨expertName name expertId, rowShape⟩, List.range rowShape.prod)]
  length_table := fun _ => rfl
  length_source := by
    intro expertId entry hentry
    rw [List.mem_singleton.mp hentry, List.length_range]
  permutes := fun _ => by simp
  convert_row := by
    intro expertId row hrow
    have hcommon := @mapMoeParamsCommon_eq V name [row] rowShape (by simpa using hrow) expertId
    have hgather := gather_range row
    rw [hrow] at hgather
    simp only [List.length_singleton, List.flatten_singleton] at hcommon
    simp [defaultMoeParamHandler, hname, hcommon, hgather]
  separable := by
    intro start rows hrows
    refine ⟨_, by simp only [defaultMoeParamHandler, hname, Bool.false_eq_true, if_false]; rfl,
      List.Perm.of_eq ?_⟩
    rw [mapMoeParamsCommon_eq name hrows, List.map_eq_flatMap, List.flatMap_def, List.flatMap_def]
    refine congrArg List.flatten (List.map_congr_left fun row hrow => ?_)
    have hgather := gather_range row.1
    rw [hrows _ (List.fst_mem_of_mem_zipIdx hrow)] at hgather
    simp only [List.map_singleton, hgather]

/-- A stack of fused gate and up projections.  Rows of width one cannot be split. -/
def fusedConverter (name : String) (hname : name.contains "gate_up_proj" = true)
    (width : ℕ) (hwidth : width ≠ 1) (rest : List ℕ) : PermutingConverter V where
  rowShape := width :: rest
  slotsPerRow := 2
  toHfChunk := fun start segment => defaultMoeParamHandler name segment start
  table := fun expertId =>
    [(⟨expertName (name.replace "gate_up_proj" "gate_proj") expertId, (width + 1) / 2 :: rest⟩,
        List.range ((width + 1) / 2 :: rest).prod),
      (⟨expertName (name.replace "gate_up_proj" "up_proj") expertId,
          (width - (width + 1) / 2) :: rest⟩,
        (List.range ((width - (width + 1) / 2) :: rest).prod).map
          (((width + 1) / 2 :: rest).prod + ·))]
  length_table := fun _ => rfl
  length_source := by
    intro expertId entry hentry
    rcases List.mem_cons.mp hentry with rfl | hentry
    · rw [List.length_range]
    · rw [List.mem_singleton.mp hentry, List.length_map, List.length_range]
  permutes := by
    intro expertId
    have hprod : (width :: rest).prod =
        ((width + 1) / 2 :: rest).prod + ((width - (width + 1) / 2) :: rest).prod := by
      rw [List.prod_cons, List.prod_cons, List.prod_cons, ← Nat.add_mul]
      congr 1
      omega
    rw [hprod, List.range_add]
    simp
  convert_row := by
    intro expertId row hrow
    have hchunk := @chunkTwo_eq V [row] width rest hwidth (by simpa using hrow)
    have hgate := @mapMoeParamsCommon_eq V (name.replace "gate_up_proj" "gate_proj")
      [row.take ((width + 1) / 2 * rest.prod)] _
      (List.forall_mem_singleton.mpr (length_take_half hrow)) expertId
    have hup := @mapMoeParamsCommon_eq V (name.replace "gate_up_proj" "up_proj")
      [row.drop ((width + 1) / 2 * rest.prod)] _
      (List.forall_mem_singleton.mpr (length_drop_half hrow)) expertId
    simp only [List.length_singleton, List.flatten_singleton, List.map_singleton]
      at hchunk hgate hup
    simp only [defaultMoeParamHandler, hname, if_true, hchunk]
    refine congrArg Except.ok ?_
    obtain ⟨hfirst, hsecond⟩ := gather_halves hrow
    simp only [List.map_cons, List.map_nil, hfirst, hsecond]
    rw [hgate, hup]
    rfl
  separable := by
    intro start rows hrows
    refine ⟨_, by
      simp only [defaultMoeParamHandler, hname, if_true, chunkTwo_eq hwidth hrows]; rfl, ?_⟩
    rw [mapMoeParamsCommon_eq _ (List.forall_mem_map.mpr fun row hrow =>
        length_take_half (hrows row hrow)),
      mapMoeParamsCommon_eq _ (List.forall_mem_map.mpr fun row hrow =>
        length_drop_half (hrows row hrow)),
      List.zipIdx_map, List.zipIdx_map, List.map_map, List.map_map,
      List.map_eq_flatMap, List.map_eq_flatMap]
    refine (List.flatMap_append_perm _ _ _).trans (List.Perm.of_eq ?_)
    rw [List.flatMap_def, List.flatMap_def]
    refine congrArg List.flatten (List.map_congr_left fun row hrow => ?_)
    obtain ⟨hgate, hup⟩ := gather_halves (hrows _ (List.fst_mem_of_mem_zipIdx hrow))
    simp only [List.map_cons, List.map_nil, hgate, hup]
    rfl

end OneShotOPD.DeltaSync
