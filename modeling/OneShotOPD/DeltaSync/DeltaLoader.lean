import OneShotOPD.DeltaSync.Flush
import OneShotOPD.Core.Patch
import Mathlib.Logic.Function.Basic

/-!
# Applying flushes

The receiver turns every piece of a flush into a tensor that is NaN wherever
nothing has changed, and loads it with a copy that skips NaN.  Seed flushes are
loaded as they are.
-/

namespace OneShotOPD.DeltaSync

open Checks Patch Segments

variable {V : Type}

structure Tensor (V : Type) where
  shape : List ℕ
  data : List V

/-- What torch and SGLang do on the receiver: `Tensor.copy_`, and a
`load_weights` that lands on the parameter of each name with the given
`copy_`. -/
structure Loader (V : Type) where
  copy : Tensor V → Tensor V → Tensor V
  copy_eq : ∀ self src, self.shape = src.shape → copy self src = src
  loadWeights : (Tensor V → Tensor V → Tensor V) → (String → Tensor V) →
    List (String × Tensor V) → String → Tensor V
  lands : ∀ copy model chunk, loadWeights copy model chunk =
    chunk.foldl (fun model loaded =>
      Function.update model loaded.1 (copy (model loaded.1) loaded.2)) model

/-- `masked_copy_`: NaN positions of the source are skipped. -/
def maskedCopy (float : FloatType V) (loader : Loader V) (self src : Tensor V) : Tensor V :=
  if self.shape = src.shape then
    loader.copy self ⟨src.shape, List.zipWith
      (fun own cast => if float.isNaN cast then own else cast) self.data src.data⟩
  else loader.copy self src

/-- `flat.index_copy_(0, idx, vals)`. -/
def indexCopy (name : String) (flat : List V) (idx : List ℤ) (vals : List V) :
    Except SyncError (List V) :=
  (idx.zip vals).foldlM (fun flat entry =>
    if (0 : ℤ) ≤ entry.1 ∧ entry.1 < (flat.length : ℤ) then .ok (flat.set entry.1.toNat entry.2)
    else .error (.indexOutOfRange name)) flat

/-- The NaN-masked tensor of some positions and values. -/
def densify (float : FloatType V) (name : String) (shape : List ℕ) (idx : List ℤ)
    (vals : List V) : Except SyncError (String × Tensor V) :=
  let flat := List.replicate shape.prod float.nan
  if vals.length = 0 then .ok (name, ⟨shape, flat⟩)
  else do
    let flat ← indexCopy name flat idx vals
    return (name, ⟨shape, flat⟩)

/-- `_decode_one`, with the name under which the tensor is loaded. -/
def decodeOne (float : FloatType V) (positions : List ℤ) (values : List V) (p : DeltaParam) :
    Except SyncError (String × Tensor V) :=
  densify float p.name p.shape (slice (p.posStart / 4) (p.posEnd / 4) positions)
    (slice p.valStart p.valEnd values)

/-- The cap on the densified tensors of one `load_weights` call. -/
def chunkBytes : ℕ := 512 <<< 20

structure LoadState (V : Type) where
  model : String → Tensor V
  chunk : List (String × Tensor V)
  bytes : ℕ

/-- One round of the loops of `apply_delta` and `_apply_dense`. -/
def loadStep (loader : Loader V) (copy : Tensor V → Tensor V → Tensor V) (elementSize : ℕ)
    (state : LoadState V) (loaded : String × Tensor V) : LoadState V :=
  let nbytes := loaded.2.data.length * elementSize
  let state := if ¬ state.chunk.isEmpty ∧ chunkBytes < state.bytes + nbytes then
      ⟨loader.loadWeights copy state.model state.chunk, [], 0⟩
    else state
  { state with chunk := state.chunk ++ [loaded], bytes := state.bytes + nbytes }

def loadAll (loader : Loader V) (copy : Tensor V → Tensor V → Tensor V) (elementSize : ℕ)
    (model : String → Tensor V) (tensors : List (String × Tensor V)) : String → Tensor V :=
  let state := tensors.foldl (loadStep loader copy elementSize) ⟨model, [], 0⟩
  if state.chunk.isEmpty then state.model
  else loader.loadWeights copy state.model state.chunk

def decodeDense (values : List V) (p : DeltaParam) : Except SyncError (String × Tensor V) := do
  let t := slice p.valStart p.valEnd values
  raiseIf (t.length ≠ p.shape.prod) (.invalidShape p.name)
  return (p.name, ⟨p.shape, t⟩)

/-- `_apply_dense`. -/
def applyDense (float : FloatType V) (loader : Loader V) (model : String → Tensor V)
    (flush : DeltaFlush V) : Except SyncError (String → Tensor V) := do
  let tensors ← flush.params.mapM (decodeDense flush.values)
  return loadAll loader loader.copy float.elementSize model tensors

/-- `apply_delta`. -/
def applyDelta (float : FloatType V) (hash : HashTensor V) (loader : Loader V)
    (model : String → Tensor V) (encoding : Encoding) (flush : DeltaFlush V) :
    Except SyncError (String → Tensor V) := do
  let got := checksum hash flush.positions flush.values
  raiseIf (got ≠ flush.checksum) (.checksumMismatch got flush.checksum)
  match encoding with
  | .dense => applyDense float loader model flush
  | .indices =>
      let tensors ← flush.params.mapM (decodeOne float flush.positions flush.values)
      return loadAll loader (maskedCopy float loader) float.elementSize model tensors

/-! ## Loading one tensor after the other -/

def loadOne (copy : Tensor V → Tensor V → Tensor V) (model : String → Tensor V)
    (loaded : String × Tensor V) : String → Tensor V :=
  Function.update model loaded.1 (copy (model loaded.1) loaded.2)

/-- The chunks do not matter. -/
theorem loadAll_eq (loader : Loader V) (copy : Tensor V → Tensor V → Tensor V)
    (elementSize : ℕ) (model : String → Tensor V) (tensors : List (String × Tensor V)) :
    loadAll loader copy elementSize model tensors = tensors.foldl (loadOne copy) model := by
  have hlands : ∀ model chunk,
      loader.loadWeights copy model chunk = chunk.foldl (loadOne copy) model :=
    loader.lands copy
  suffices hfold : ∀ state : LoadState V,
      (tensors.foldl (loadStep loader copy elementSize) state).chunk.foldl (loadOne copy)
          (tensors.foldl (loadStep loader copy elementSize) state).model =
        (state.chunk ++ tensors).foldl (loadOne copy) state.model by
    have hstart := hfold ⟨model, [], 0⟩
    rw [loadAll]
    simp only [hlands]
    rw [List.nil_append] at hstart
    rw [← hstart]
    split
    next hempty => rw [List.isEmpty_iff.mp hempty, List.foldl_nil]
    next => rfl
  induction tensors with
  | nil => simp
  | cons loaded tensors ih =>
      intro state
      rw [List.foldl_cons]
      refine (ih _).trans ?_
      rw [loadStep]
      dsimp only
      split
      · rw [hlands, List.nil_append, ← List.foldl_append]
        rfl
      · rw [List.append_assoc]
        rfl

/-! ## A flush of changed elements patches the model -/

/-- The entries of a piece are elements of the target, and none of them would be
skipped. -/
structure FlushPiece.Faithful (float : FloatType V) (target : List V)
    (piece : FlushPiece V) : Prop where
  length_idx : piece.idx.length = piece.val.length
  agrees : Agrees target (piece.idx.zip piece.val)
  not_nan : ∀ value ∈ piece.val, float.isNaN value = false
  length_target : target.length = piece.shape.prod

/-- The model has a tensor of the shape of the piece. -/
def FlushPiece.Fits (model : String → Tensor V) (piece : FlushPiece V) : Prop :=
  (model piece.name).shape = piece.shape ∧
    (model piece.name).data.length = piece.shape.prod

/-- The positions of a tensor that some pieces write. -/
def touched (name : String) (pieces : List (FlushPiece V)) : List ℤ :=
  pieces.flatMap fun piece => if piece.name = name then piece.idx else []

def patchModel (targets : String → List V) (pieces : List (FlushPiece V))
    (model : String → Tensor V) : String → Tensor V := fun name =>
  ⟨(model name).shape, patch (targets name) (touched name pieces) (model name).data⟩

theorem patchModel_append (targets : String → List V) (first second : List (FlushPiece V))
    (model : String → Tensor V) :
    patchModel targets (first ++ second) model =
      patchModel targets second (patchModel targets first model) := by
  funext name
  simp only [patchModel, touched, patch_patch, List.flatMap_append]

theorem FlushPiece.Fits.patchModel {model : String → Tensor V} {piece : FlushPiece V}
    (hfits : piece.Fits model) (targets : String → List V) (pieces : List (FlushPiece V)) :
    piece.Fits (patchModel targets pieces model) :=
  ⟨hfits.1, (length_patch _ _ _).trans hfits.2⟩

theorem indexCopy_eq (name : String) {target flat : List V} {idx : List ℤ} {vals : List V}
    (hlength : flat.length = target.length) (hagrees : Agrees target (idx.zip vals)) :
    indexCopy name flat idx vals =
      .ok (patch target ((idx.zip vals).map Prod.fst) flat) := by
  rw [indexCopy]
  generalize idx.zip vals = entries at hagrees ⊢
  induction entries generalizing flat with
  | nil => simp [pure, Except.pure]
  | cons entry entries ih =>
      obtain ⟨position, hindex, hvalue⟩ := hagrees entry (by simp)
      have hlt : position < flat.length := by
        rw [hlength]
        exact (List.getElem?_eq_some_iff.mp hvalue).1
      have hbounds : (0 : ℤ) ≤ entry.1 ∧ entry.1 < (flat.length : ℤ) := by omega
      have hset : flat.set entry.1.toNat entry.2 = patch target [entry.1] flat := by
        rw [hindex, Int.toNat_natCast]
        exact set_eq_patch hvalue
      rw [List.foldlM_cons, if_pos hbounds, hset]
      change List.foldlM _ _ entries = _
      rw [ih (by simpa using hlength) fun other hother => hagrees other (by simp [hother]),
        patch_patch, List.map_cons, List.singleton_append]

theorem densify_eq (float : FloatType V) {target : List V} {piece : FlushPiece V}
    (hfaithful : piece.Faithful float target) :
    densify float piece.name piece.shape piece.idx piece.val =
      .ok (piece.name, ⟨piece.shape,
        patch target piece.idx (List.replicate piece.shape.prod float.nan)⟩) := by
  have hlength : (List.replicate piece.shape.prod float.nan).length = target.length := by
    simp [hfaithful.length_target]
  have hcopy := indexCopy_eq piece.name hlength hfaithful.agrees
  rw [List.map_fst_zip hfaithful.length_idx.le] at hcopy
  rw [densify]
  split
  next hempty =>
    rw [List.eq_nil_of_length_eq_zero (hfaithful.length_idx.trans hempty), patch_nil]
  next =>
    rw [hcopy]
    rfl

/-- A masked copy takes what the source has patched. -/
theorem maskedCopy_patch (float : FloatType V) (loader : Loader V) {target : List V}
    {piece : FlushPiece V} (hfaithful : piece.Faithful float target) {own : Tensor V}
    (hshape : own.shape = piece.shape) (hlength : own.data.length = piece.shape.prod) :
    maskedCopy float loader own ⟨piece.shape,
        patch target piece.idx (List.replicate piece.shape.prod float.nan)⟩ =
      ⟨own.shape, patch target piece.idx own.data⟩ := by
  rw [maskedCopy, if_pos hshape, loader.copy_eq _ _ hshape, hshape]
  refine congrArg (Tensor.mk piece.shape) (List.ext_getElem? fun position => ?_)
  rw [List.getElem?_zipWith, getElem?_patch, getElem?_patch, List.getElem?_replicate]
  by_cases hlt : position < own.data.length
  · rw [List.getElem?_eq_getElem hlt, if_pos (hlength ▸ hlt), Option.map_some, Option.map_some]
    by_cases hmem : (position : ℤ) ∈ piece.idx
    · obtain ⟨entry, hentry, hfst⟩ : ∃ entry ∈ piece.idx.zip piece.val,
          entry.1 = position := by
        rw [← List.map_fst_zip hfaithful.length_idx.le] at hmem
        exact List.mem_map.mp hmem
      obtain ⟨source, hsource, hvalue⟩ := hfaithful.agrees entry hentry
      obtain rfl : position = source := by omega
      have hget : target.getD position float.nan = entry.2 := by
        simp [hvalue]
      have hget' : target.getD position own.data[position] = entry.2 := by
        simp [hvalue]
      have hnan := hfaithful.not_nan entry.2 (List.of_mem_zip hentry).2
      simp only [if_pos hmem, hget, hget', hnan]
      rfl
    · simp only [if_neg hmem, float.isNaN_nan, if_true]
  · rw [List.getElem?_eq_none (by omega)]
    rfl

theorem loadOne_eq_patchModel (float : FloatType V) (loader : Loader V)
    {targets : String → List V} {piece : FlushPiece V}
    (hfaithful : piece.Faithful float (targets piece.name)) {model : String → Tensor V}
    (hfits : piece.Fits model) :
    loadOne (maskedCopy float loader) model (piece.name, ⟨piece.shape,
        patch (targets piece.name) piece.idx (List.replicate piece.shape.prod float.nan)⟩) =
      patchModel targets [piece] model := by
  funext name
  rw [loadOne, maskedCopy_patch float loader hfaithful hfits.1 hfits.2]
  by_cases hname : name = piece.name
  · subst hname
    simp [patchModel, touched]
  · simp [patchModel, touched, Function.update_of_ne hname, Ne.symm hname]

/-- Loading some pieces one after the other patches the model with all of
them. -/
theorem foldl_loadOne_eq_patchModel (float : FloatType V) (loader : Loader V)
    (targets : String → List V) {pieces : List (FlushPiece V)}
    (hfaithful : ∀ piece ∈ pieces, piece.Faithful float (targets piece.name))
    {model : String → Tensor V} (hfits : ∀ piece ∈ pieces, piece.Fits model) :
    ∃ tensors, (pieces.mapM fun piece =>
        densify float piece.name piece.shape piece.idx piece.val) = .ok tensors ∧
      tensors.foldl (loadOne (maskedCopy float loader)) model =
        patchModel targets pieces model := by
  induction pieces generalizing model with
  | nil =>
      refine ⟨[], rfl, funext fun name => ?_⟩
      simp [patchModel, touched]
  | cons piece pieces ih =>
      have hpiece := hfaithful piece (by simp)
      obtain ⟨tensors, htensors, hfold⟩ := ih
        (fun other hother => hfaithful other (by simp [hother]))
        (fun other hother => (hfits other (by simp [hother])).patchModel targets [piece])
      refine ⟨(piece.name, ⟨piece.shape, patch (targets piece.name) piece.idx
        (List.replicate piece.shape.prod float.nan)⟩) :: tensors, ?_, ?_⟩
      · rw [List.mapM_cons, densify_eq float hpiece, htensors]
        rfl
      · rw [List.foldl_cons, loadOne_eq_patchModel float loader hpiece
          (hfits piece (by simp)), hfold, ← patchModel_append, List.singleton_append]

/-- The slices of the manifest are the pieces. -/
theorem mapM_decodeOne_manifest (float : FloatType V) {pieces : List (FlushPiece V)}
    (hlength : ∀ piece ∈ pieces, piece.idx.length = piece.val.length)
    (positions : List ℤ) (values : List V) :
    (manifest (positions.length * 4) values.length pieces).mapM
        (decodeOne float (positions ++ pieces.flatMap FlushPiece.idx)
          (values ++ pieces.flatMap FlushPiece.val)) =
      pieces.mapM fun piece =>
        densify float piece.name piece.shape piece.idx piece.val := by
  induction pieces generalizing positions values with
  | nil => rfl
  | cons piece pieces ih =>
      have hpiece := hlength piece (by simp)
      have hrest := ih (fun other hother => hlength other (by simp [hother]))
        (positions ++ piece.idx) (values ++ piece.val)
      rw [List.length_append, List.length_append, Nat.add_mul, ← hpiece, List.append_assoc,
        List.append_assoc] at hrest
      have hend : (positions.length * 4 + piece.idx.length * 4) / 4 =
          positions.length + piece.idx.length := by omega
      have hdecode : decodeOne float (positions ++ (piece.idx ++ pieces.flatMap FlushPiece.idx))
          (values ++ (piece.val ++ pieces.flatMap FlushPiece.val))
            (piece.param (positions.length * 4) values.length) =
          densify float piece.name piece.shape piece.idx piece.val := by
        simp only [decodeOne, FlushPiece.param, hend]
        rw [Nat.mul_div_cancel _ (by decide), slice_middle, hpiece, slice_middle]
      rw [manifest, List.mapM_cons, List.mapM_cons, List.flatMap_cons, List.flatMap_cons,
        hdecode, hrest]

/-- Applying a flush patches the model with its pieces. -/
theorem applyDelta_assembleFlush (float : FloatType V) (hash : HashTensor V)
    (loader : Loader V) (targets : String → List V) {pieces : List (FlushPiece V)}
    (hfaithful : ∀ piece ∈ pieces, piece.Faithful float (targets piece.name))
    {model : String → Tensor V} (hfits : ∀ piece ∈ pieces, piece.Fits model)
    {flush : DeltaFlush V} (hflush : assembleFlush hash pieces = .ok flush) :
    applyDelta float hash loader model .indices flush =
      .ok (patchModel targets pieces model) := by
  obtain ⟨_, rfl⟩ := assembleFlush_eq_ok.mp hflush
  obtain ⟨tensors, htensors, hfold⟩ :=
    foldl_loadOne_eq_patchModel float loader targets hfaithful hfits
  have hdecode := mapM_decodeOne_manifest float
    (fun piece hpiece => (hfaithful piece hpiece).length_idx) [] []
  simp only [htensors, List.nil_append, List.length_nil, Nat.zero_mul] at hdecode
  rw [applyDelta, raiseIf_bind_eq_ok]
  refine ⟨by simp, ?_⟩
  dsimp only
  rw [hdecode]
  change Except.ok (loadAll _ _ _ _ _) = _
  rw [loadAll_eq, hfold]

/-! ## A seed flush replaces tensors -/

def ValuesPiece.tensor (piece : ValuesPiece V) : Tensor V := ⟨piece.shape, piece.flat⟩

/-- The model has a tensor of the shape of the piece, which has all its
values. -/
def ValuesPiece.Fits (model : String → Tensor V) (piece : ValuesPiece V) : Prop :=
  (model piece.name).shape = piece.shape ∧ piece.flat.length = piece.shape.prod

def placeModel (pieces : List (ValuesPiece V)) (model : String → Tensor V) :
    String → Tensor V :=
  pieces.foldl (fun model piece => Function.update model piece.name piece.tensor) model

theorem ValuesPiece.Fits.update {model : String → Tensor V} {piece other : ValuesPiece V}
    (hfits : piece.Fits model) (hother : other.Fits model) :
    piece.Fits (Function.update model other.name other.tensor) := by
  refine ⟨?_, hfits.2⟩
  by_cases hname : piece.name = other.name
  · rw [hname, Function.update_self, ← hfits.1, hname]
    exact hother.1.symm
  · rw [Function.update_of_ne hname, hfits.1]

theorem ValuesPiece.Fits.placeModel {piece : ValuesPiece V} {pieces : List (ValuesPiece V)}
    {model : String → Tensor V} (hfits : piece.Fits model)
    (hpieces : ∀ other ∈ pieces, other.Fits model) :
    piece.Fits (placeModel pieces model) := by
  induction pieces generalizing model with
  | nil => exact hfits
  | cons other pieces ih =>
      have hother := hpieces other (by simp)
      exact ih (hfits.update hother) fun another hanother =>
        (hpieces another (by simp [hanother])).update hother

theorem placeModel_of_not_mem {pieces : List (ValuesPiece V)} {name : String}
    (hname : name ∉ pieces.map ValuesPiece.name) (model : String → Tensor V) :
    placeModel pieces model name = model name := by
  induction pieces generalizing model with
  | nil => rfl
  | cons piece pieces ih =>
      rw [List.map_cons, List.mem_cons, not_or] at hname
      exact (ih hname.2 _).trans (Function.update_of_ne hname.1 _ _)

theorem placeModel_of_mem {pieces : List (ValuesPiece V)}
    (hnodup : (pieces.map ValuesPiece.name).Nodup) {piece : ValuesPiece V}
    (hpiece : piece ∈ pieces) (model : String → Tensor V) :
    placeModel pieces model piece.name = piece.tensor := by
  induction pieces generalizing model with
  | nil => simp at hpiece
  | cons first pieces ih =>
      rw [List.map_cons, List.nodup_cons] at hnodup
      rcases List.mem_cons.mp hpiece with rfl | hmem
      · exact (placeModel_of_not_mem hnodup.1 _).trans (Function.update_self _ _ _)
      · exact ih hnodup.2 hmem _

theorem mapM_values_manifest {pieces : List (ValuesPiece V)}
    (hlength : ∀ piece ∈ pieces, piece.flat.length = piece.shape.prod) (values : List V) :
    (valuesManifest values.length pieces).mapM
        (decodeDense (values ++ pieces.flatMap ValuesPiece.flat)) =
      .ok (pieces.map fun piece => (piece.name, piece.tensor)) := by
  induction pieces generalizing values with
  | nil => rfl
  | cons piece pieces ih =>
      have hrest := ih (fun other hother => hlength other (by simp [hother]))
        (values ++ piece.flat)
      rw [List.length_append, List.append_assoc] at hrest
      have hdecode : decodeDense (values ++ (piece.flat ++ pieces.flatMap ValuesPiece.flat))
          (piece.param values.length) = .ok (piece.name, piece.tensor) := by
        simp only [decodeDense, ValuesPiece.param, slice_middle, raiseIf_bind_eq_ok, not_not]
        exact ⟨hlength piece (by simp), rfl⟩
      rw [valuesManifest, List.mapM_cons, List.flatMap_cons, hdecode, hrest]
      rfl

theorem foldl_loadOne_eq_placeModel (loader : Loader V) {pieces : List (ValuesPiece V)}
    {model : String → Tensor V} (hfits : ∀ piece ∈ pieces, piece.Fits model) :
    (pieces.map fun piece => (piece.name, piece.tensor)).foldl (loadOne loader.copy) model =
      placeModel pieces model := by
  induction pieces generalizing model with
  | nil => rfl
  | cons piece pieces ih =>
      have hpiece := hfits piece (by simp)
      rw [List.map_cons, List.foldl_cons, loadOne, loader.copy_eq _ _ hpiece.1]
      exact ih fun other hother => (hfits other (by simp [hother])).update hpiece

theorem applyDelta_assembleValues (float : FloatType V) (hash : HashTensor V)
    (loader : Loader V) {pieces : List (ValuesPiece V)} {model : String → Tensor V}
    (hfits : ∀ piece ∈ pieces, piece.Fits model) {flush : DeltaFlush V}
    (hflush : assembleValues hash pieces = .ok flush) :
    applyDelta float hash loader model .dense flush = .ok (placeModel pieces model) := by
  rw [assembleValues_eq] at hflush
  obtain rfl := (Except.ok.inj hflush).symm
  have hdecode := mapM_values_manifest (fun piece hpiece => (hfits piece hpiece).2) []
  simp only [List.nil_append, List.length_nil] at hdecode
  rw [applyDelta, raiseIf_bind_eq_ok]
  refine ⟨by simp, ?_⟩
  rw [applyDense, hdecode]
  change Except.ok (loadAll _ _ _ _ _) = _
  rw [loadAll_eq, foldl_loadOne_eq_placeModel loader hfits]

end OneShotOPD.DeltaSync
