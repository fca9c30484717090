import OneShotOPD.DeltaSync.Placement
import OneShotOPD.Core.Checks

/-!
# Placements of a device mesh

A parameter is cut along the dimensions of a device mesh.  The placement of each mesh dimension
names the tensor dimension that it cuts, or says that it holds replicas.  Every element of the
parameter ends up in the block of exactly one contributing rank, whether or not the cuts are
even.
-/

namespace OneShotOPD.DeltaSync

open Checks RowMajor

/-- What a mesh dimension does to the tensor. -/
inductive DimPlacement
  | shard (dim : ℕ)
  | replicate
  | partialSum
  | stridedShard (dim : ℕ)
  deriving DecidableEq

def DimPlacement.isShard : DimPlacement → Bool
  | .shard _ | .stridedShard _ => true
  | _ => false

/-- A parameter that is described by a mesh and placements, or is whole on every rank. -/
structure ShardSpec where
  fullShape : List ℕ
  mesh : Option (List ℕ)
  placements : List DimPlacement

/-- Where a rank is: its coordinate in the mesh, and its number if there is a process group. -/
structure RankPosition where
  coordinate : List ℕ
  rank : Option ℕ

inductive GatherGroup
  | meshDim (dim : ℕ)
  | wholeMesh

/-- The signature of `compute_local_shape_and_global_offset`. -/
abbrev LocalLayout :=
  List ℕ → List ℕ → List ℕ → List DimPlacement → Except String (List ℕ × List ℕ)

def shardDims (placements : List DimPlacement) : List ℕ :=
  (List.range placements.length).filter fun dim =>
    (placements[dim]?).any DimPlacement.isShard

/-- Only the ranks at coordinate zero of every replicated dimension contribute. -/
def contributesAt (placements : List DimPlacement) (coord : List ℕ) : Bool :=
  (placements.zip coord).all fun entry => !(entry.1 = .replicate && entry.2 ≠ 0)

/-- `derive_dtensor_placement` for a rank of the mesh.  The code builds the block without looking
whether it lies inside the tensor. -/
def deriveDtensorPlacement (layout : LocalLayout) (spec : ShardSpec) (position : RankPosition) :
    Except String (Place × Bool × Option GatherGroup) :=
  match spec.mesh with
  | none => .ok (.flat 0, position.rank.all (· = 0), none)
  | some mesh => do
      raiseIf (spec.placements.any fun placement => placement matches .stridedShard _)
        "NotImplementedError: sharded delta does not support _StridedShard"
      let contributes := contributesAt spec.placements position.coordinate
      match shardDims spec.placements with
      | [] => return (.flat 0, contributes, none)
      | shardDim :: others =>
          let block ← layout spec.fullShape mesh position.coordinate spec.placements
          if hwithin : Within block.1 block.2 spec.fullShape then
            let place := Place.block ⟨block.1, block.2, spec.fullShape, hwithin⟩
            if others = [] then return (place, contributes, some (.meshDim shardDim))
            else
              raiseIf (¬ spec.placements.all DimPlacement.isShard)
                "AssertionError: Replicate dims are not supported alongside multiple Shard dims"
              return (place, contributes, some .wholeMesh)
          else .error "block outside of the tensor"

/-! ## The layout of torch -/

/-- A chunk of `torch.chunk`: what is before it and its length.  The last chunks can be short or
empty. -/
def chunkRange (extent count index : ℕ) : ℕ × ℕ :=
  let size := (extent + count - 1) / count
  let start := min extent (index * size)
  (start, min extent ((index + 1) * size) - start)

/-- The documented layout: the mesh dimensions cut from left to right, each the block that the
ones before it left. -/
def cutBlock : List DimPlacement → List ℕ → List ℕ → List ℕ × List ℕ →
    Except String (List ℕ × List ℕ)
  | .shard dim :: placements, count :: mesh, index :: coord, (shape, offset) =>
      match shape[dim]?, offset[dim]? with
      | some extent, some start =>
          let (skipped, length) := chunkRange extent count index
          cutBlock placements mesh coord (shape.set dim length, offset.set dim (start + skipped))
      | _, _ => .error "AssertionError: Sharding dim greater than tensor ndim"
  | _ :: placements, _ :: mesh, _ :: coord, block => cutBlock placements mesh coord block
  | _, _, _, block => .ok block

/-- The block of a rank as torch gives it.  An empty block has no element, and its offset is
anywhere inside the tensor, such as at the end of the dimension that was cut. -/
structure DocumentedBlock (fullShape : List ℕ) (cut block : List ℕ × List ℕ) : Prop where
  shape_eq : block.1 = cut.1
  offset_eq : 0 ∉ cut.1 → block.2 = cut.2
  within : 0 ∈ cut.1 → Within block.1 block.2 fullShape

/-- A layout that follows the documentation. -/
structure LocalLayout.Documented (layout : LocalLayout) : Prop where
  raises : ∀ (fullShape mesh coord : List ℕ) (placements : List DimPlacement) error,
    placements.length = mesh.length → coord.length = mesh.length →
      cutBlock placements mesh coord (fullShape, fullShape.map fun _ => 0) = .error error →
        layout fullShape mesh coord placements = .error error
  blocks : ∀ (fullShape mesh coord : List ℕ) (placements : List DimPlacement) cut,
    placements.length = mesh.length → coord.length = mesh.length →
      cutBlock placements mesh coord (fullShape, fullShape.map fun _ => 0) = .ok cut →
        ∃ block, layout fullShape mesh coord placements = .ok block ∧
          DocumentedBlock fullShape cut block

/-! ## Chunks -/

theorem chunkRange_inside (extent count index : ℕ) :
    (chunkRange extent count index).1 + (chunkRange extent count index).2 ≤ extent := by
  rw [chunkRange]
  dsimp only
  have hmono : index * ((extent + count - 1) / count) ≤
      (index + 1) * ((extent + count - 1) / count) := Nat.mul_le_mul_right _ (Nat.le_succ index)
  omega

/-- Every position is in exactly one chunk. -/
theorem existsUnique_chunk {extent count position : ℕ} (hcount : 0 < count)
    (hposition : position < extent) :
    ∃! index, index < count ∧ (chunkRange extent count index).1 ≤ position ∧
      position < (chunkRange extent count index).1 + (chunkRange extent count index).2 := by
  have hsize : 0 < (extent + count - 1) / count := Nat.div_pos (by omega) hcount
  have htotal : extent ≤ count * ((extent + count - 1) / count) := by
    have hdiv := Nat.div_add_mod (extent + count - 1) count
    have hmod := Nat.mod_lt (extent + count - 1) hcount
    omega
  have hinside : ∀ index, ((chunkRange extent count index).1 ≤ position ∧
      position < (chunkRange extent count index).1 + (chunkRange extent count index).2) ↔
        position / ((extent + count - 1) / count) = index := by
    intro index
    rw [Nat.div_eq_iff hsize, chunkRange]
    dsimp only
    have hsucc : (index + 1) * ((extent + count - 1) / count) =
        index * ((extent + count - 1) / count) + (extent + count - 1) / count := Nat.succ_mul _ _
    omega
  refine ⟨position / ((extent + count - 1) / count), ⟨?_, (hinside _).mpr rfl⟩, ?_⟩
  · rw [Nat.div_lt_iff_lt_mul hsize]
    exact hposition.trans_le htotal
  · rintro index ⟨_, hindex⟩
    exact ((hinside index).mp hindex).symm

end OneShotOPD.DeltaSync
