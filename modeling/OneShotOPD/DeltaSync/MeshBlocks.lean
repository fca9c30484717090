import OneShotOPD.DeltaSync.DTensorPlacement

/-!
# The blocks of a mesh

Cutting dimension after dimension leaves every element to exactly one coordinate of the mesh, if
replicated dimensions count at coordinate zero only.  With the translation of positions this
makes the positions of all contributing ranks, translated, the positions of the full tensor,
each of them once.
-/

namespace OneShotOPD.DeltaSync

open Checks RowMajor

variable {placements : List DimPlacement} {mesh coord coords : List ℕ}
variable {block result : List ℕ × List ℕ}

theorem cutBlock_shard {dim count index extent start : ℕ} {shape offset : List ℕ}
    (hextent : shape[dim]? = some extent) (hstart : offset[dim]? = some start) :
    cutBlock (.shard dim :: placements) (count :: mesh) (index :: coord) (shape, offset) =
      cutBlock placements mesh coord (shape.set dim (chunkRange extent count index).2,
        offset.set dim (start + (chunkRange extent count index).1)) := by
  rw [cutBlock, hextent, hstart]

/-- Cutting a dimension that the tensor does not have raises. -/
theorem exists_of_cutBlock_shard {dim count index : ℕ} {shape offset : List ℕ}
    (hok : cutBlock (.shard dim :: placements) (count :: mesh) (index :: coord) (shape, offset) =
      .ok result) :
    ∃ extent start, shape[dim]? = some extent ∧ offset[dim]? = some start := by
  rw [cutBlock] at hok
  split at hok
  next extent start hextent hstart => exact ⟨extent, start, hextent, hstart⟩
  next => cases hok

theorem replicate_ne_shard (dim : ℕ) : DimPlacement.replicate ≠ .shard dim :=
  fun heq => nomatch heq

theorem cutBlock_other {placement : DimPlacement} {count index : ℕ}
    (hother : ∀ dim, placement ≠ .shard dim) :
    cutBlock (placement :: placements) (count :: mesh) (index :: coord) block =
      cutBlock placements mesh coord block := by
  cases placement with
  | shard dim => exact absurd rfl (hother dim)
  | replicate => rfl
  | partialSum => rfl
  | stridedShard dim => rfl

/-- A property of blocks that no cut loses holds of the block of every rank. -/
theorem cutBlock_induction {holds : List ℕ × List ℕ → Prop}
    (hcut : ∀ shape offset dim extent start index count,
      shape[dim]? = some extent → offset[dim]? = some start → holds (shape, offset) →
        holds (shape.set dim (chunkRange extent count index).2,
          offset.set dim (start + (chunkRange extent count index).1)))
    (hok : cutBlock placements mesh coord block = .ok result) (hblock : holds block) :
    holds result := by
  fun_induction cutBlock placements mesh coord block with
  | case1 _ _ count _ index _ _ _ _ _ hstart hextent _ _ hrange ih =>
      have hnext := hcut _ _ _ _ _ index count hextent hstart hblock
      rw [hrange] at hnext
      exact ih hok hnext
  | case2 => cases hok
  | case3 _ _ _ _ _ _ _ _ ih => exact ih hok hblock
  | case4 =>
      cases hok
      exact hblock

theorem within_cutBlock {wholes : List ℕ} (hok : cutBlock placements mesh coord block = .ok result)
    (hwithin : Within block.1 block.2 wholes) : Within result.1 result.2 wholes := by
  refine @cutBlock_induction _ _ _ _ _ (fun block => Within block.1 block.2 wholes) ?_ hok hwithin
  intro shape offset dim extent start index count hextent hstart hwithin
  refine within_set hwithin hextent hstart ?_
  have hinside := chunkRange_inside extent count index
  omega

/-- What the block of a rank covers was covered before every cut. -/
theorem covers_of_cutBlock (hok : cutBlock placements mesh coord block = .ok result)
    (hcovers : Covers result.1 result.2 coords) : Covers block.1 block.2 coords := by
  by_contra habsent
  refine @cutBlock_induction _ _ _ _ _ (fun block => ¬ Covers block.1 block.2 coords) ?_ hok
    habsent hcovers
  intro shape offset dim extent start index count hextent hstart habsent hcovers
  refine habsent (covers_of_set hextent hstart (Nat.le_add_right _ _) ?_ hcovers)
  have hinside := chunkRange_inside extent count index
  omega

theorem contributesAt_cons (placement : DimPlacement) (index : ℕ) :
    contributesAt (placement :: placements) (index :: coord) = true ↔
      (placement = .replicate → index = 0) ∧ contributesAt placements coord = true := by
  simp [contributesAt, imp_iff_not_or]

theorem inBounds_zeros (hpositive : ∀ count ∈ mesh, 0 < count) :
    InBounds mesh (mesh.map fun _ => 0) := by
  induction mesh with
  | nil => exact .nil
  | cons count mesh ih =>
      exact .cons (hpositive count List.mem_cons_self)
        (ih fun other hother => hpositive other (List.mem_cons_of_mem _ hother))

/-- A mesh of cuts and replicas. -/
def IsGrid (placements : List DimPlacement) : Prop :=
  ∀ placement ∈ placements, placement = .replicate ∨ ∃ dim, placement = .shard dim

/-- The coordinate whose rank contributes an element. -/
def Owns (placements : List DimPlacement) (mesh : List ℕ) (block : List ℕ × List ℕ)
    (coords coord : List ℕ) : Prop :=
  InBounds mesh coord ∧ contributesAt placements coord = true ∧
    ∃ result, cutBlock placements mesh coord block = .ok result ∧ Covers result.1 result.2 coords

/-- One cut leaves an element to one index of its mesh dimension. -/
theorem existsUnique_owns_shard {dim count : ℕ} (hcount : 0 < count)
    (hpositive : ∀ count ∈ mesh, 0 < count)
    (hok : ∀ coord, InBounds (count :: mesh) coord →
      ∃ result, cutBlock (.shard dim :: placements) (count :: mesh) coord block = .ok result)
    (hcovers : Covers block.1 block.2 coords)
    (hrest : ∀ next : List ℕ × List ℕ, (∀ coord, InBounds mesh coord →
      ∃ result, cutBlock placements mesh coord next = .ok result) →
        Covers next.1 next.2 coords → ∃! coord, Owns placements mesh next coords coord) :
    ∃! coord, Owns (.shard dim :: placements) (count :: mesh) block coords coord := by
  obtain ⟨shape, offset⟩ := block
  obtain ⟨first, hfirst⟩ := hok _ (.cons hcount (inBounds_zeros hpositive))
  obtain ⟨extent, start, hextent, hstart⟩ := exists_of_cutBlock_shard hfirst
  obtain ⟨coord, ⟨hlow, hhigh⟩, hiff⟩ := exists_covers_set_iff hcovers hextent hstart
  have hinside : coord - start < extent := by omega
  have hchunk : ∀ index, Covers (shape.set dim (chunkRange extent count index).2)
      (offset.set dim (start + (chunkRange extent count index).1)) coords ↔
        (chunkRange extent count index).1 ≤ coord - start ∧
          coord - start < (chunkRange extent count index).1 +
            (chunkRange extent count index).2 := by
    intro index
    rw [hiff]
    omega
  obtain ⟨index, ⟨hindex, hown⟩, hunique⟩ := existsUnique_chunk hcount hinside
  obtain ⟨rest, ⟨hbounds, hcontributes, result, hresult, hcoverResult⟩, honly⟩ :=
    hrest _ (fun coord hcoord => by
      obtain ⟨result, hresult⟩ := hok _ (.cons hindex hcoord)
      rw [cutBlock_shard hextent hstart] at hresult
      exact ⟨result, hresult⟩) ((hchunk index).mpr hown)
  refine ⟨index :: rest, ⟨.cons hindex hbounds, ?_, result, ?_, hcoverResult⟩, ?_⟩
  · exact (contributesAt_cons _ _).mpr ⟨(fun heq => nomatch heq), hcontributes⟩
  · rw [cutBlock_shard hextent hstart, hresult]
  · rintro other ⟨hbounds, hcontributes, result, hresult, hcovers⟩
    obtain ⟨otherIndex, otherRest, hotherIndex, hotherRest, rfl⟩ :=
      List.forall₂_cons_right_iff.mp hbounds
    rw [cutBlock_shard hextent hstart] at hresult
    have hsame := hunique otherIndex
      ⟨hotherIndex, (hchunk otherIndex).mp (covers_of_cutBlock hresult hcovers)⟩
    rw [hsame] at hresult ⊢
    rw [honly otherRest ⟨hotherRest, ((contributesAt_cons _ _).mp hcontributes).2, result, hresult,
      hcovers⟩]

/-- Every element is left to exactly one coordinate of the mesh. -/
theorem existsUnique_owns (hlength : placements.length = mesh.length)
    (hpositive : ∀ count ∈ mesh, 0 < count) (hgrid : IsGrid placements)
    (hok : ∀ coord, InBounds mesh coord →
      ∃ result, cutBlock placements mesh coord block = .ok result)
    (hcovers : Covers block.1 block.2 coords) :
    ∃! coord, Owns placements mesh block coords coord := by
  induction placements generalizing mesh block with
  | nil =>
      obtain rfl := List.eq_nil_of_length_eq_zero hlength.symm
      refine ⟨[], ⟨.nil, rfl, block, rfl, hcovers⟩, fun coord hcoord => ?_⟩
      exact List.forall₂_nil_right_iff.mp hcoord.1
  | cons placement placements ih =>
      cases mesh with
      | nil => cases hlength
      | cons count mesh =>
          have hcount := hpositive count List.mem_cons_self
          have hpositive : ∀ other ∈ mesh, 0 < other := fun other hother =>
            hpositive other (List.mem_cons_of_mem _ hother)
          have htail := Nat.succ.inj hlength
          have hrest : IsGrid placements := fun other hother =>
            hgrid other (List.mem_cons_of_mem _ hother)
          rcases hgrid placement List.mem_cons_self with rfl | ⟨dim, rfl⟩
          · obtain ⟨rest, ⟨hbounds, hcontributes, result, hresult, hcoverResult⟩, honly⟩ :=
              ih htail hpositive hrest (fun coord hcoord => by
                obtain ⟨result, hresult⟩ := hok _ (.cons hcount hcoord)
                rw [cutBlock_other replicate_ne_shard] at hresult
                exact ⟨result, hresult⟩) hcovers
            refine ⟨0 :: rest, ⟨.cons hcount hbounds,
              (contributesAt_cons _ _).mpr ⟨fun _ => rfl, hcontributes⟩, result, ?_,
              hcoverResult⟩, ?_⟩
            · rw [cutBlock_other replicate_ne_shard, hresult]
            · rintro other ⟨hbounds, hcontributes, result, hresult, hcovers⟩
              obtain ⟨index, otherRest, _, hotherRest, rfl⟩ :=
                List.forall₂_cons_right_iff.mp hbounds
              obtain ⟨hzero, hcontributes⟩ := (contributesAt_cons _ _).mp hcontributes
              rw [cutBlock_other replicate_ne_shard] at hresult
              rw [hzero rfl, honly otherRest ⟨hotherRest, hcontributes, result, hresult, hcovers⟩]
          · exact existsUnique_owns_shard hcount hpositive hok hcovers fun next hnext hcovers =>
              ih htail hpositive hrest hnext hcovers

/-! ## Positions -/

/-- The number of elements that a rank holds. -/
def Place.numel (fullShape : List ℕ) : Place → ℕ
  | .flat _ => fullShape.prod
  | .block place => place.localShape.prod

/-! ## Derived placements -/

variable {layout : LocalLayout} {spec : ShardSpec} {position : RankPosition}
variable {derived : Place × Bool × Option GatherGroup}

/-- A derived placement is that of the whole tensor or of the block that the layout gives. -/
theorem of_deriveDtensorPlacement (hmesh : spec.mesh = some mesh)
    (hok : deriveDtensorPlacement layout spec position = .ok derived) :
    derived.2.1 = contributesAt spec.placements position.coordinate ∧
      ((shardDims spec.placements = [] ∧ derived.1 = .flat 0) ∨
        shardDims spec.placements ≠ [] ∧
        ∃ block hwithin, layout spec.fullShape mesh position.coordinate spec.placements
          = .ok block ∧
          derived.1 = .block ⟨block.1, block.2, spec.fullShape, hwithin⟩) := by
  rw [deriveDtensorPlacement, hmesh] at hok
  obtain ⟨_, hok⟩ := raiseIf_bind_eq_ok.mp hok
  split at hok
  next hnone =>
    cases hok
    exact ⟨rfl, .inl ⟨hnone, rfl⟩⟩
  next shardDim others hsome =>
    obtain ⟨block, hblock, hok⟩ := bind_eq_ok.mp hok
    split at hok
    next hwithin =>
      have hne : shardDims spec.placements ≠ [] := by
        rw [hsome]
        exact List.cons_ne_nil _ _
      split at hok
      next =>
        cases hok
        exact ⟨rfl, .inr ⟨hne, block, hwithin, hblock, rfl⟩⟩
      next =>
        obtain ⟨_, hok⟩ := raiseIf_bind_eq_ok.mp hok
        cases hok
        exact ⟨rfl, .inr ⟨hne, block, hwithin, hblock, rfl⟩⟩
    next => cases hok

theorem eq_replicate_of_shardDims (hgrid : IsGrid placements) (hnone : shardDims placements = []) :
    ∀ placement ∈ placements, placement = .replicate := by
  intro placement hplacement
  refine (hgrid placement hplacement).resolve_right ?_
  rintro ⟨dim, rfl⟩
  obtain ⟨index, hindex, hget⟩ := List.mem_iff_getElem.mp hplacement
  have hmem : index ∈ shardDims placements := by
    refine List.mem_filter.mpr ⟨List.mem_range.mpr hindex, ?_⟩
    rw [List.getElem?_eq_getElem hindex, hget]
    rfl
  rw [hnone] at hmem
  exact List.not_mem_nil hmem

theorem cutBlock_replicated (hlength : placements.length = mesh.length)
    (hcoord : coord.length = mesh.length)
    (hreplicated : ∀ placement ∈ placements, placement = .replicate) :
    cutBlock placements mesh coord block = .ok block := by
  induction placements generalizing mesh coord with
  | nil =>
      obtain rfl := List.eq_nil_of_length_eq_zero hlength.symm
      obtain rfl := List.eq_nil_of_length_eq_zero hcoord
      rfl
  | cons placement placements ih =>
      cases mesh with
      | nil => cases hlength
      | cons count mesh =>
          cases coord with
          | nil => cases hcoord
          | cons index coord =>
              obtain rfl := hreplicated placement List.mem_cons_self
              rw [cutBlock_other replicate_ne_shard]
              exact ih (Nat.succ.inj hlength) (Nat.succ.inj hcoord) fun other hother =>
                hreplicated other (List.mem_cons_of_mem _ hother)

/-- The whole tensor as a block of itself. -/
def wholeBlock (fullShape : List ℕ) : List ℕ × List ℕ := (fullShape, fullShape.map fun _ => 0)

/-- The block that a documented layout gives. -/
theorem LocalLayout.Documented.of_ok (hlayout : layout.Documented) {fullShape : List ℕ}
    (hlength : placements.length = mesh.length) (hcoord : coord.length = mesh.length)
    (hok : layout fullShape mesh coord placements = .ok block) :
    ∃ cut, cutBlock placements mesh coord (wholeBlock fullShape) = .ok cut ∧
      DocumentedBlock fullShape cut block := by
  cases hcut : cutBlock placements mesh coord (wholeBlock fullShape) with
  | error error =>
      rw [hlayout.raises _ _ _ _ error hlength hcoord hcut] at hok
      cases hok
  | ok cut =>
      obtain ⟨given, hgiven, hdocumented⟩ := hlayout.blocks _ _ _ _ cut hlength hcoord hcut
      obtain rfl := Except.ok.inj (hok.symm.trans hgiven)
      exact ⟨cut, rfl, hdocumented⟩

theorem LocalLayout.Documented.within (hlayout : layout.Documented) {fullShape : List ℕ}
    (hlength : placements.length = mesh.length) (hcoord : coord.length = mesh.length)
    (hok : layout fullShape mesh coord placements = .ok block) :
    Within block.1 block.2 fullShape := by
  obtain ⟨cut, hcut, hdocumented⟩ := hlayout.of_ok hlength hcoord hok
  by_cases hempty : 0 ∈ cut.1
  · exact hdocumented.within hempty
  · rw [hdocumented.shape_eq, hdocumented.offset_eq hempty]
    exact within_cutBlock hcut (within_whole fullShape)

theorem cutBlock_error {error : String}
    (herror : cutBlock placements mesh coord block = .error error) :
    error = "AssertionError: Sharding dim greater than tensor ndim" := by
  fun_induction cutBlock placements mesh coord block with
  | case1 _ _ _ _ _ _ _ _ _ _ _ _ _ _ _ ih => exact ih herror
  | case2 => exact (Except.error.inj herror).symm
  | case3 _ _ _ _ _ _ _ _ ih => exact ih herror
  | case4 => cases herror

/-- Under a documented layout every block lies inside the tensor, so nothing has to be
checked. -/
theorem deriveDtensorPlacement_within (hlayout : layout.Documented) (hmesh : spec.mesh = some mesh)
    (hlength : spec.placements.length = mesh.length)
    (hcoord : position.coordinate.length = mesh.length) :
    deriveDtensorPlacement layout spec position ≠ .error "block outside of the tensor" := by
  rw [deriveDtensorPlacement, hmesh]
  simp only [raiseIf]
  split
  next => exact fun heq => absurd (Except.error.inj heq) (by decide)
  cases hdims : shardDims spec.placements with
  | nil =>
      intro heq
      cases heq
  | cons shardDim others =>
      cases hblock : layout spec.fullShape mesh position.coordinate spec.placements with
      | error error =>
          intro heq
          obtain rfl : error = "block outside of the tensor" := Except.error.inj heq
          cases hcut : cutBlock spec.placements mesh position.coordinate
              (wholeBlock spec.fullShape) with
          | error error =>
              have hraised := hlayout.raises _ _ _ _ error hlength hcoord hcut
              have hsame := (Except.error.inj (hblock.symm.trans hraised)).trans
                (cutBlock_error hcut)
              exact absurd hsame (by decide)
          | ok cut =>
              obtain ⟨block, hgiven, _⟩ := hlayout.blocks _ _ _ _ cut hlength hcoord hcut
              cases hblock.symm.trans hgiven
      | ok block =>
          have hwithin := hlayout.within hlength hcoord hblock
          change (if hwithin : Within block.1 block.2 spec.fullShape then _ else _) ≠ _
          rw [dif_pos hwithin]
          split
          next =>
            intro heq
            cases heq
          next =>
            split
            next => exact fun heq => absurd (Except.error.inj heq) (by decide)
            next =>
              intro heq
              cases heq

/-- What a contributing rank of a grid translates to are the elements that it owns. -/
theorem translate_iff_owns (hlayout : layout.Documented) (hmesh : spec.mesh = some mesh)
    (hlength : spec.placements.length = mesh.length) (hgrid : IsGrid spec.placements)
    (hbounds : InBounds mesh position.coordinate)
    (hok : deriveDtensorPlacement layout spec position = .ok derived) {index : ℕ}
    (hindex : index < spec.fullShape.prod) :
    (derived.2.1 = true ∧ ∃ i < derived.1.numel spec.fullShape,
        translateFlatIndex derived.1 i = index) ↔
      Owns spec.placements mesh (wholeBlock spec.fullShape) (unravel spec.fullShape index)
        position.coordinate := by
  have hcoord := hbounds.length_eq
  obtain ⟨hcontributes, ⟨hnone, hplace⟩ | ⟨_, block, hwithin, hblock, hplace⟩⟩ :=
    of_deriveDtensorPlacement hmesh hok
  · have hcut := @cutBlock_replicated _ _ _ (wholeBlock spec.fullShape) hlength hcoord
      (eq_replicate_of_shardDims hgrid hnone)
    have hcovers := covers_whole (inBounds_unravel hindex)
    rw [hcontributes, hplace]
    constructor
    · rintro ⟨hcontributes, _⟩
      exact ⟨hbounds, hcontributes, _, hcut, hcovers⟩
    · rintro ⟨_, hcontributes, _⟩
      exact ⟨hcontributes, index, hindex, Nat.add_zero index⟩
  · obtain ⟨cut, hcut, hdocumented⟩ := hlayout.of_ok hlength hcoord hblock
    have hsame : Covers block.1 block.2 (unravel spec.fullShape index) ↔
        Covers cut.1 cut.2 (unravel spec.fullShape index) := by
      rw [hdocumented.shape_eq]
      constructor
      · intro hcovers
        rwa [← hdocumented.offset_eq (zero_not_mem_of_covers hcovers)]
      · intro hcovers
        rwa [hdocumented.offset_eq (zero_not_mem_of_covers hcovers)]
    have hiff := exists_translateFlatIndex_iff ⟨block.1, block.2, spec.fullShape, hwithin⟩ hindex
    rw [hcontributes, hplace]
    constructor
    · rintro ⟨hcontributes, hexists⟩
      exact ⟨hbounds, hcontributes, cut, hcut, hsame.mp (hiff.mp hexists)⟩
    · rintro ⟨_, hcontributes, result, hresult, hcovers⟩
      obtain rfl := Except.ok.inj (hcut.symm.trans hresult)
      exact ⟨hcontributes, hiff.mpr (hsame.mpr hcovers)⟩

theorem translate_injective_of_derived (hmesh : spec.mesh = some mesh)
    (hok : deriveDtensorPlacement layout spec position = .ok derived) {first second : ℕ}
    (hfirst : first < derived.1.numel spec.fullShape)
    (hsecond : second < derived.1.numel spec.fullShape)
    (heq : translateFlatIndex derived.1 first = translateFlatIndex derived.1 second) :
    first = second := by
  obtain ⟨_, ⟨_, hplace⟩ | ⟨_, block, hwithin, _, hplace⟩⟩ := of_deriveDtensorPlacement hmesh hok
  · rw [hplace] at heq
    exact heq
  · rw [hplace] at hfirst hsecond heq
    exact translateFlatIndex_injective _ hfirst hsecond heq

/-- Translation keeps the coordinates of every element of a block, in both of its ways, and the
translated blocks of the contributing ranks of a mesh are disjoint and cover the tensor. -/
theorem translateFlatIndex_exact (hlayout : layout.Documented) :
    (∀ place : BlockPlacement,
      (∀ i < place.localShape.prod,
        translateFlatIndex (.block place) i < place.fullShape.prod ∧
          unravel place.fullShape (translateFlatIndex (.block place) i) =
            shift place.globalOffset (unravel place.localShape i)) ∧
      (∀ first < place.localShape.prod, ∀ second < place.localShape.prod,
        translateFlatIndex (.block place) first = translateFlatIndex (.block place) second →
          first = second) ∧
      (∀ position < place.fullShape.prod,
        (∃ i < place.localShape.prod, translateFlatIndex (.block place) i = position) ↔
          Covers place.localShape place.globalOffset (unravel place.fullShape position)) ∧
      (place.isFlatContiguous → ∀ i < place.localShape.prod,
        i + place.flatOffset = translateDigits (rowMajorStrides place.localShape)
          place.globalOffset (rowMajorStrides place.fullShape) i)) ∧
    (∀ (spec : ShardSpec) (mesh : List ℕ)
      (derived : List ℕ → Place × Bool × Option GatherGroup) (rank : List ℕ → Option ℕ),
      spec.mesh = some mesh → spec.placements.length = mesh.length →
      (∀ count ∈ mesh, 0 < count) → IsGrid spec.placements →
      (∀ coord, InBounds mesh coord →
        deriveDtensorPlacement layout spec ⟨coord, rank coord⟩ = .ok (derived coord)) →
      ∀ index < spec.fullShape.prod, ∃! owner : List ℕ × ℕ,
        InBounds mesh owner.1 ∧ (derived owner.1).2.1 = true ∧
          owner.2 < (derived owner.1).1.numel spec.fullShape ∧
          translateFlatIndex (derived owner.1).1 owner.2 = index) := by
  refine ⟨fun place => ⟨fun _ => unravel_translateFlatIndex place,
    fun _ hfirst _ => translateFlatIndex_injective place hfirst,
    fun _ => exists_translateFlatIndex_iff place,
    fun hflat _ => flatOffset_eq_translateDigits hflat⟩, ?_⟩
  intro spec mesh derived rank hmesh hlength hpositive hgrid hderived index hindex
  have howns : ∀ coord, InBounds mesh coord →
      (((derived coord).2.1 = true ∧ ∃ i < (derived coord).1.numel spec.fullShape,
        translateFlatIndex (derived coord).1 i = index) ↔
        Owns spec.placements mesh (wholeBlock spec.fullShape) (unravel spec.fullShape index)
          coord) := fun coord hbounds =>
    translate_iff_owns hlayout hmesh hlength hgrid hbounds (hderived coord hbounds) hindex
  have hok : ∀ coord, InBounds mesh coord →
      ∃ result, cutBlock spec.placements mesh coord (wholeBlock spec.fullShape) = .ok result := by
    intro coord hbounds
    have hcoord := hbounds.length_eq
    obtain ⟨_, ⟨hnone, _⟩ | ⟨_, block, _, hblock, _⟩⟩ :=
      of_deriveDtensorPlacement hmesh (hderived coord hbounds)
    · exact ⟨_, cutBlock_replicated hlength hcoord (eq_replicate_of_shardDims hgrid hnone)⟩
    · obtain ⟨cut, hcut, _⟩ := hlayout.of_ok hlength hcoord hblock
      exact ⟨cut, hcut⟩
  obtain ⟨coord, hcoord, hunique⟩ := existsUnique_owns hlength hpositive hgrid hok
    (covers_whole (inBounds_unravel hindex))
  obtain ⟨hcontributes, i, hi, htranslate⟩ := (howns coord hcoord.1).mpr hcoord
  refine ⟨(coord, i), ⟨hcoord.1, hcontributes, hi, htranslate⟩, ?_⟩
  rintro ⟨other, j⟩ ⟨hbounds, hcontributes, hj, hother⟩
  obtain rfl := hunique other ((howns other hbounds).mp ⟨hcontributes, j, hj, hother⟩)
  exact congrArg (Prod.mk other) (translate_injective_of_derived hmesh (hderived other hbounds)
    hj hi (hother.trans htranslate.symm))

/-- The layout that the documentation describes, with the running offset for empty blocks too. -/
def documentedLayout : LocalLayout := fun fullShape mesh coord placements =>
  cutBlock placements mesh coord (wholeBlock fullShape)

theorem documentedLayout_documented : documentedLayout.Documented where
  raises _ _ _ _ _ _ _ hcut := hcut
  blocks fullShape _ _ _ cut _ _ hcut :=
    ⟨cut, hcut, rfl, fun _ => rfl, fun _ => within_cutBlock hcut (within_whole fullShape)⟩

/-- Five rows and three columns on a mesh of two by two. -/
def unevenSpec : ShardSpec := ⟨[5, 3], some [2, 2], [.shard 0, .shard 1]⟩

/-- The last rows and the last columns are fewer. -/
theorem translateFlatIndex_exact_uneven :
    ∃ derived : List ℕ → Place × Bool × Option GatherGroup,
      (∀ coord, InBounds [2, 2] coord →
        deriveDtensorPlacement documentedLayout unevenSpec ⟨coord, none⟩ = .ok (derived coord)) ∧
      ∀ index < 15, ∃! owner : List ℕ × ℕ,
        InBounds [2, 2] owner.1 ∧ (derived owner.1).2.1 = true ∧
          owner.2 < (derived owner.1).1.numel [5, 3] ∧
          translateFlatIndex (derived owner.1).1 owner.2 = index := by
  have hok : ∀ coord, InBounds [2, 2] coord → ∃ derived,
      deriveDtensorPlacement documentedLayout unevenSpec ⟨coord, none⟩ = .ok derived := by
    intro coord hbounds
    obtain ⟨row, columns, hrow, hcolumns, rfl⟩ := List.forall₂_cons_right_iff.mp hbounds
    obtain ⟨column, rest, hcolumn, hrest, rfl⟩ := List.forall₂_cons_right_iff.mp hcolumns
    obtain rfl := List.forall₂_nil_right_iff.mp hrest
    obtain rfl | rfl : row = 0 ∨ row = 1 := by omega
    all_goals
      obtain rfl | rfl : column = 0 ∨ column = 1 := by omega
      all_goals exact ⟨_, rfl⟩
  have : Nonempty (Place × Bool × Option GatherGroup) := ⟨(.flat 0, false, none)⟩
  choose! derived hderived using hok
  refine ⟨derived, hderived, fun index hindex => ?_⟩
  refine (translateFlatIndex_exact documentedLayout_documented).2 unevenSpec [2, 2] derived
    (fun _ => none) rfl rfl (by decide) ?_ hderived index hindex
  intro placement hplacement
  rcases List.mem_cons.mp hplacement with rfl | hplacement
  · exact .inr ⟨0, rfl⟩
  · exact .inr ⟨1, List.mem_singleton.mp hplacement⟩

end OneShotOPD.DeltaSync
