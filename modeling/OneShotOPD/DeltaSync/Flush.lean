import OneShotOPD.DeltaSync.Export
import OneShotOPD.Core.Checks

/-!
# Flushes

Pieces are collected until a bucket is full, and sealed into a flush.  A sealed
flush is published when the next one is sealed, so that the final one can be
marked as the last.
-/

namespace OneShotOPD.DeltaSync

open Checks Segments

/-! ## The bucket pipeline -/

structure FlushBucket (Piece Flush : Type) where
  pieces : List Piece
  nbytes : ℕ
  pending : Option Flush
  published : List (Flush × Bool)

section Bucket

variable {ε Piece Flush : Type}

namespace FlushBucket

def empty : FlushBucket Piece Flush := ⟨[], 0, none, []⟩

def emit (bucket : FlushBucket Piece Flush) (isLast : Bool) : FlushBucket Piece Flush :=
  { bucket with
    published := bucket.published ++ bucket.pending.toList.map fun flush => (flush, isLast)
    pending := none }

def sealBucket (assemble : List Piece → Except ε Flush) (bucket : FlushBucket Piece Flush) :
    Except ε (FlushBucket Piece Flush) :=
  if bucket.pieces.isEmpty then .ok bucket
  else do
    let flush ← assemble bucket.pieces
    return { bucket.emit false with pending := some flush, pieces := [], nbytes := 0 }

def add (cap : ℤ) (assemble : List Piece → Except ε Flush)
    (bucket : FlushBucket Piece Flush) (piece : Piece × ℕ) :
    Except ε (FlushBucket Piece Flush) :=
  let bucket := { bucket with
    pieces := bucket.pieces ++ [piece.1]
    nbytes := bucket.nbytes + piece.2 }
  if cap ≤ (bucket.nbytes : ℤ) then bucket.sealBucket assemble else .ok bucket

end FlushBucket

/-- Add all pieces, seal the last bucket, and emit it with the mark of the final flush.
Nothing is published when there are no pieces. -/
def streamAll (cap : ℤ) (assemble : List Piece → Except ε Flush)
    (pieces : List (Piece × ℕ)) (isLast : Bool) : Except ε (List (Flush × Bool)) := do
  let bucket ← pieces.foldlM (FlushBucket.add cap assemble) .empty
  let bucket ← bucket.sealBucket assemble
  return (bucket.emit isLast).published

/-- Some flushes, of which the final one has the given mark. -/
def markEnd (isLast : Bool) : List Flush → List (Flush × Bool)
  | [] => []
  | [flush] => [(flush, isLast)]
  | flush :: next :: flushes => (flush, false) :: markEnd isLast (next :: flushes)

theorem markEnd_concat (isLast : Bool) (flushes : List Flush) (flush : Flush) :
    markEnd isLast (flushes ++ [flush]) =
      flushes.map (fun flush => (flush, false)) ++ [(flush, isLast)] := by
  induction flushes with
  | nil => rfl
  | cons first flushes ih =>
      rw [List.map_cons, List.cons_append, List.cons_append, ← ih]
      cases flushes <;> rfl

/-- A new pending flush lets the previous one go. -/
def FlushBucket.push (bucket : FlushBucket Piece Flush) (flush : Flush) :
    FlushBucket Piece Flush :=
  { bucket.emit false with pending := some flush, pieces := [], nbytes := 0 }

theorem emit_foldl_push (isLast : Bool) (flushes : List Flush)
    (bucket : FlushBucket Piece Flush) :
    ((flushes.foldl FlushBucket.push bucket).emit isLast).published =
      bucket.published ++ markEnd isLast (bucket.pending.toList ++ flushes) := by
  induction flushes generalizing bucket with
  | nil => cases hpending : bucket.pending <;> simp [FlushBucket.emit, hpending, markEnd]
  | cons flush flushes ih =>
      rw [List.foldl_cons, ih]
      cases hpending : bucket.pending <;>
        simp [FlushBucket.push, FlushBucket.emit, hpending, markEnd]

theorem sealBucket_of_ne_nil (assemble : List Piece → Except ε Flush)
    {bucket : FlushBucket Piece Flush} (hpieces : bucket.pieces ≠ []) :
    bucket.sealBucket assemble = bucket.push <$> assemble bucket.pieces := by
  have hempty : bucket.pieces.isEmpty = false := by simpa using hpieces
  rw [FlushBucket.sealBucket, hempty]
  cases assemble bucket.pieces <;> rfl

/-- The pieces are divided into runs, and every run is assembled and pushed. -/
theorem foldlM_add (cap : ℤ) (assemble : List Piece → Except ε Flush)
    (pieces : List (Piece × ℕ)) (bucket : FlushBucket Piece Flush) :
    ∃ (runs : List (List Piece)) (tail : List Piece) (nbytes : ℕ),
      bucket.pieces ++ pieces.map Prod.fst = runs.flatten ++ tail ∧
      pieces.foldlM (FlushBucket.add cap assemble) bucket = (fun flushes =>
        { flushes.foldl FlushBucket.push bucket with pieces := tail, nbytes }) <$>
          runs.mapM assemble := by
  induction pieces generalizing bucket with
  | nil => exact ⟨[], bucket.pieces, bucket.nbytes, by simp, rfl⟩
  | cons piece pieces ih =>
      rw [List.foldlM_cons, FlushBucket.add]
      by_cases hfull : cap ≤ ((bucket.nbytes + piece.2 : ℕ) : ℤ)
      · rw [if_pos hfull, sealBucket_of_ne_nil assemble (by simp)]
        cases hassemble : assemble (bucket.pieces ++ [piece.1]) with
        | error error =>
            refine ⟨[bucket.pieces ++ [piece.1]], pieces.map Prod.fst, 0, by simp, ?_⟩
            rw [List.mapM_cons, hassemble]
            rfl
        | ok flush =>
            obtain ⟨runs, tail, nbytes, hflatten, hfold⟩ := ih (bucket.push flush)
            refine ⟨(bucket.pieces ++ [piece.1]) :: runs, tail, nbytes, ?_, ?_⟩
            · rw [List.flatten_cons, List.append_assoc, ← hflatten]
              simp [FlushBucket.push]
            · rw [List.mapM_cons, hassemble]
              change pieces.foldlM (FlushBucket.add cap assemble) (bucket.push flush) = _
              rw [hfold]
              cases runs.mapM assemble <;> rfl
      · obtain ⟨runs, tail, nbytes, hflatten, hfold⟩ := ih
          { bucket with pieces := bucket.pieces ++ [piece.1]
                        nbytes := bucket.nbytes + piece.2 }
        refine ⟨runs, tail, nbytes, by simpa using hflatten, ?_⟩
        rw [if_neg hfull]
        refine hfold.trans (congrArg (fun f => f <$> runs.mapM assemble) (funext fun flushes => ?_))
        cases flushes <;> rfl

/-- A stream consists of the flushes of consecutive runs of pieces. -/
theorem streamAll_eq (cap : ℤ) (assemble : List Piece → Except ε Flush)
    (pieces : List (Piece × ℕ)) (isLast : Bool) :
    ∃ runs : List (List Piece), runs.flatten = pieces.map Prod.fst ∧
      streamAll cap assemble pieces isLast = markEnd isLast <$> runs.mapM assemble := by
  obtain ⟨runs, tail, nbytes, hflatten, hfold⟩ :=
    foldlM_add cap assemble pieces FlushBucket.empty
  rw [streamAll, hfold]
  by_cases htail : tail = []
  · subst htail
    refine ⟨runs, by simpa [FlushBucket.empty] using hflatten.symm, ?_⟩
    cases runs.mapM assemble with
    | error error => rfl
    | ok flushes =>
        have hpublished := emit_foldl_push isLast flushes
          (FlushBucket.empty : FlushBucket Piece Flush)
        exact congrArg Except.ok hpublished
  · refine ⟨runs ++ [tail], by simpa [FlushBucket.empty] using hflatten.symm, ?_⟩
    rw [List.mapM_append]
    cases runs.mapM assemble with
    | error error => rfl
    | ok flushes =>
        let start : FlushBucket Piece Flush := FlushBucket.empty
        let bucket : FlushBucket Piece Flush :=
          { flushes.foldl FlushBucket.push start with pieces := tail, nbytes }
        change (bucket.sealBucket assemble >>= fun bucket =>
          pure (bucket.emit isLast).published) = _
        rw [sealBucket_of_ne_nil assemble htail, List.mapM_cons, List.mapM_nil]
        change (bucket.push <$> assemble tail >>= _) = _
        cases assemble tail with
        | error error => rfl
        | ok last =>
            have hpublished := emit_foldl_push isLast (flushes ++ [last])
              (FlushBucket.empty : FlushBucket Piece Flush)
            rw [List.foldl_append] at hpublished
            exact congrArg Except.ok hpublished

section Tagged

variable {Tagged : Type} (tag : Piece → Tagged)

/-- The bucket with tagged pieces. -/
def FlushBucket.tagged (bucket : FlushBucket Piece Flush) : FlushBucket Tagged Flush :=
  ⟨bucket.pieces.map tag, bucket.nbytes, bucket.pending, bucket.published⟩

variable {tag} {assemble : List Piece → Except ε Flush}
  {assembleTagged : List Tagged → Except ε Flush}
  (htag : ∀ run, assembleTagged (run.map tag) = assemble run)

include htag

theorem sealBucket_tagged (bucket : FlushBucket Piece Flush) :
    (bucket.tagged tag).sealBucket assembleTagged =
      FlushBucket.tagged tag <$> bucket.sealBucket assemble := by
  by_cases hpieces : bucket.pieces = []
  · simp [FlushBucket.sealBucket, FlushBucket.tagged, hpieces, Functor.map, Except.map]
  · have htagged : (bucket.tagged tag).pieces ≠ [] := by simpa [FlushBucket.tagged] using hpieces
    rw [sealBucket_of_ne_nil _ hpieces, sealBucket_of_ne_nil _ htagged]
    change FlushBucket.push _ <$> assembleTagged (bucket.pieces.map tag) = _
    rw [htag]
    cases assemble bucket.pieces <;> rfl

theorem add_tagged (cap : ℤ) (bucket : FlushBucket Piece Flush) (piece : Piece × ℕ) :
    (bucket.tagged tag).add cap assembleTagged (Prod.map tag id piece) =
      FlushBucket.tagged tag <$> bucket.add cap assemble piece := by
  let longer : FlushBucket Piece Flush := { bucket with
    pieces := bucket.pieces ++ [piece.1]
    nbytes := bucket.nbytes + piece.2 }
  have hlonger : { bucket.tagged tag with
      pieces := (bucket.tagged tag).pieces ++ [tag piece.1]
      nbytes := bucket.nbytes + piece.2 } = longer.tagged tag := by
    simp [FlushBucket.tagged, longer]
  change (if cap ≤ ((bucket.nbytes + piece.2 : ℕ) : ℤ) then
      FlushBucket.sealBucket assembleTagged { bucket.tagged tag with
        pieces := (bucket.tagged tag).pieces ++ [tag piece.1]
        nbytes := bucket.nbytes + piece.2 } else .ok _) = _ <$>
    if cap ≤ ((bucket.nbytes + piece.2 : ℕ) : ℤ) then longer.sealBucket assemble else .ok longer
  rw [hlonger]
  split
  · exact sealBucket_tagged htag longer
  · exact congrArg Except.ok hlonger

/-- Tags that the flushes do not show do not change the stream. -/
theorem streamAll_tagged (cap : ℤ) (pieces : List (Piece × ℕ)) (isLast : Bool) :
    streamAll cap assembleTagged (pieces.map (Prod.map tag id)) isLast =
      streamAll cap assemble pieces isLast := by
  have hfold : ∀ bucket : FlushBucket Piece Flush,
      (pieces.map (Prod.map tag id)).foldlM (FlushBucket.add cap assembleTagged)
          (bucket.tagged tag) =
        FlushBucket.tagged tag <$> pieces.foldlM (FlushBucket.add cap assemble) bucket := by
    induction pieces with
    | nil => intro bucket; rfl
    | cons piece pieces ih =>
        intro bucket
        rw [List.map_cons, List.foldlM_cons, List.foldlM_cons, add_tagged htag]
        cases bucket.add cap assemble piece with
        | error error => rfl
        | ok next => exact ih next
  rw [streamAll, streamAll]
  refine (congrArg (· >>= _) (hfold .empty)).trans ?_
  cases pieces.foldlM (FlushBucket.add cap assemble) .empty with
  | error error => rfl
  | ok bucket =>
      change ((bucket.tagged tag).sealBucket assembleTagged >>= _) =
        (bucket.sealBucket assemble >>= _)
      rw [sealBucket_tagged htag]
      cases bucket.sealBucket assemble <;> rfl

end Tagged

end Bucket

/-! ## Flushes of changed elements -/

variable {Group V : Type} {peers : ℕ}

structure FlushPiece (V : Type) where
  name : String
  dtypeStr : String
  shape : List ℕ
  idx : List ℤ
  val : List V
  deriving DecidableEq

/-- The manifest entry of one piece.  Positions are counted in bytes. -/
structure DeltaParam where
  name : String
  dtype : String
  shape : List ℕ
  posStart : ℕ
  posEnd : ℕ
  posWidth : ℕ
  valStart : ℕ
  valEnd : ℕ

/-- `torch.hash_tensor` of positions and of values. -/
structure HashTensor (V : Type) where
  positions : List ℤ → ℕ
  values : List V → ℕ

def checksum (hash : HashTensor V) (positions : List ℤ) (values : List V) : ℕ :=
  let p := if positions.isEmpty then 0 else hash.positions positions
  let v := if values.isEmpty then 0 else hash.values values
  p ^^^ (v <<< 1)

inductive Encoding where
  | indices
  | dense
  deriving DecidableEq

/-- The positions are int32 words. -/
structure DeltaFlush (V : Type) where
  params : List DeltaParam
  positions : List ℤ
  values : List V
  checksum : ℕ

/-- `range(start, stop, step)` from zero. -/
def rangeStep (stop step : ℕ) : List ℕ :=
  (List.range ((stop + step - 1) / step)).map (· * step)

/-- `_bucket_sliced`: pieces of at most `maxElems` entries, with their bytes. -/
def bucketSliced (elementSize maxElems : ℕ) (consumed : Consumed V) :
    List (FlushPiece V × ℕ) :=
  (rangeStep consumed.idx.length maxElems).map fun s =>
    let e := min (s + maxElems) consumed.idx.length
    ({ name := consumed.name
       dtypeStr := consumed.dtypeStr
       shape := consumed.shape
       idx := slice s e consumed.idx
       val := slice s e consumed.val }, (e - s) * (4 + elementSize))

def bucketSlotDelta (elementSize maxElems : ℕ) (consumed : Consumed V) :
    List (FlushPiece V × ℕ) :=
  if consumed.idx.length = 0 then [] else bucketSliced elementSize maxElems consumed

/-- The pieces of a tensor hold entries of the tensor. -/
theorem of_mem_bucketSlotDelta {elementSize maxElems : ℕ} {consumed : Consumed V}
    (hlength : consumed.idx.length = consumed.val.length) {piece : FlushPiece V}
    (hpiece : piece ∈ (bucketSlotDelta elementSize maxElems consumed).map Prod.fst) :
    piece.name = consumed.name ∧ piece.shape = consumed.shape ∧
      piece.idx.length = piece.val.length ∧
      ∀ entry ∈ piece.idx.zip piece.val, entry ∈ consumed.idx.zip consumed.val := by
  rw [bucketSlotDelta] at hpiece
  split at hpiece
  next => simp at hpiece
  next =>
    rw [bucketSliced, List.map_map] at hpiece
    obtain ⟨s, _, rfl⟩ := List.mem_map.mp hpiece
    refine ⟨rfl, rfl, ?_, fun entry hentry => ?_⟩
    · simp [slice, hlength]
    · exact mem_of_mem_slice (zip_slice _ _ consumed.idx consumed.val ▸ hentry)

/-- Splitting a tensor into pieces loses no entry. -/
theorem exists_mem_bucketSlotDelta (elementSize : ℕ) {maxElems : ℕ} (hmax : 0 < maxElems)
    {consumed : Consumed V} {index : ℤ} (hindex : index ∈ consumed.idx) :
    ∃ piece ∈ (bucketSlotDelta elementSize maxElems consumed).map Prod.fst,
      piece.name = consumed.name ∧ piece.shape = consumed.shape ∧ index ∈ piece.idx := by
  obtain ⟨k, hk, rfl⟩ := List.getElem_of_mem hindex
  have hlow : k / maxElems * maxElems ≤ k := Nat.div_mul_le_self k maxElems
  have hhigh : k < k / maxElems * maxElems + maxElems := Nat.lt_div_mul_add hmax
  have hstart : k / maxElems * maxElems ∈ rangeStep consumed.idx.length maxElems := by
    refine List.mem_map.mpr ⟨k / maxElems, List.mem_range.mpr ?_, rfl⟩
    rw [Nat.lt_div_iff_mul_lt hmax]
    omega
  have hnonempty : ¬ consumed.idx.length = 0 := by omega
  rw [bucketSlotDelta, if_neg hnonempty, bucketSliced, List.map_map]
  refine ⟨_, List.mem_map_of_mem hstart, rfl, rfl, ?_⟩
  exact getElem_mem_slice hlow (lt_min hhigh hk) hk

/-- Cut into pieces and put together again. -/
theorem flatMap_slice_rangeStep {α : Type} {step : ℕ} (hstep : 0 < step) (items : List α) :
    ((rangeStep items.length step).flatMap fun s =>
      slice s (min (s + step) items.length) items) = items := by
  have hcut : ∀ count, ((List.range count).map (· * step)).flatMap
      (fun s => slice s (min (s + step) items.length) items) = items.take (count * step) := by
    intro count
    induction count with
    | zero => simp
    | succ count ih =>
        have hmin : slice (count * step) (min (count * step + step) items.length) items =
            slice (count * step) ((count + 1) * step) items := by
          rw [slice, slice, ← List.take_take, List.take_length, Nat.succ_mul]
        have hle : count * step ≤ (count + 1) * step := Nat.mul_le_mul_right step (Nat.le_succ _)
        rw [List.range_succ, List.map_append, List.flatMap_append, ih, List.map_singleton,
          List.flatMap_singleton, hmin, ← slice_zero, slice_append_slice (Nat.zero_le _) hle,
          slice_zero]
  rw [rangeStep, hcut]
  apply List.take_of_length_le
  have hdiv := Nat.lt_div_mul_add (a := items.length + step - 1) hstep
  omega

/-- The pieces of a tensor hold its entries in their order, at most `maxElems` each. -/
theorem bucketSlotDelta_entries (elementSize : ℕ) {maxElems : ℕ} (hmax : 0 < maxElems)
    {consumed : Consumed V} (hlength : consumed.idx.length = consumed.val.length) :
    (bucketSlotDelta elementSize maxElems consumed).flatMap (fun piece => piece.1.idx) =
      consumed.idx ∧
      (bucketSlotDelta elementSize maxElems consumed).flatMap (fun piece => piece.1.val) =
        consumed.val ∧
      ∀ piece ∈ bucketSlotDelta elementSize maxElems consumed, piece.1.idx.length ≤ maxElems := by
  rw [bucketSlotDelta]
  split
  next hempty =>
    have hidx : consumed.idx = [] := List.length_eq_zero_iff.mp hempty
    have hval : consumed.val = [] := List.length_eq_zero_iff.mp (hlength ▸ hempty)
    simp [hidx, hval]
  next =>
    rw [bucketSliced, List.flatMap_map, List.flatMap_map]
    refine ⟨flatMap_slice_rangeStep hmax consumed.idx, ?_, fun piece hpiece => ?_⟩
    · rw [hlength]
      exact flatMap_slice_rangeStep hmax consumed.val
    · obtain ⟨s, _, rfl⟩ := List.mem_map.mp hpiece
      simp only [slice, List.length_drop, List.length_take]
      omega

/-- The state of the loop of `_assemble_flush`. -/
structure Assembly (V : Type) where
  params : List DeltaParam
  idxPieces : List ℤ
  valPieces : List V
  posOff : ℕ
  valOff : ℕ

def FlushPiece.param (posOff valOff : ℕ) (piece : FlushPiece V) : DeltaParam where
  name := piece.name
  dtype := piece.dtypeStr
  shape := piece.shape
  posStart := posOff
  posEnd := posOff + piece.idx.length * 4
  posWidth := 4
  valStart := valOff
  valEnd := valOff + piece.idx.length

def assembleStep (state : Assembly V) (piece : FlushPiece V) :
    Except SyncError (Assembly V) := do
  let nnz := piece.idx.length
  raiseIf (¬ piece.shape.prod < 2 ^ 31) (.tooManyElements piece.name piece.shape.prod)
  return {
    params := state.params ++ [piece.param state.posOff state.valOff]
    idxPieces := state.idxPieces ++ piece.idx
    valPieces := state.valPieces ++ piece.val
    posOff := state.posOff + nnz * 4
    valOff := state.valOff + nnz }

def assembleFlush (hash : HashTensor V) (pieces : List (FlushPiece V)) :
    Except SyncError (DeltaFlush V) := do
  let state ← pieces.foldlM assembleStep ⟨[], [], [], 0, 0⟩
  return {
    params := state.params
    positions := state.idxPieces
    values := state.valPieces
    checksum := checksum hash state.idxPieces state.valPieces }

/-- The manifest of some pieces, from two running offsets. -/
def manifest (posOff valOff : ℕ) : List (FlushPiece V) → List DeltaParam
  | [] => []
  | piece :: pieces => piece.param posOff valOff ::
      manifest (posOff + piece.idx.length * 4) (valOff + piece.idx.length) pieces

theorem foldlM_assembleStep_eq_ok {pieces : List (FlushPiece V)} {state final : Assembly V} :
    pieces.foldlM assembleStep state = .ok final ↔
      (∀ piece ∈ pieces, piece.shape.prod < 2 ^ 31) ∧
        final = {
          params := state.params ++ manifest state.posOff state.valOff pieces
          idxPieces := state.idxPieces ++ pieces.flatMap FlushPiece.idx
          valPieces := state.valPieces ++ pieces.flatMap FlushPiece.val
          posOff := state.posOff + (pieces.map fun piece => piece.idx.length * 4).sum
          valOff := state.valOff + (pieces.map fun piece => piece.idx.length).sum } := by
  induction pieces generalizing state with
  | nil => simp [manifest, pure, Except.pure, eq_comm]
  | cons piece pieces ih =>
      rw [List.foldlM_cons, bind_eq_ok]
      simp only [ih, assembleStep, raiseIf_bind_eq_ok, not_not]
      constructor
      · rintro ⟨_, ⟨hpiece, hstep⟩, hpieces, rfl⟩
        cases hstep
        refine ⟨List.forall_mem_cons.mpr ⟨hpiece, hpieces⟩, ?_⟩
        simp [manifest, Nat.add_assoc]
      · rintro ⟨hpieces, rfl⟩
        obtain ⟨hpiece, hrest⟩ := List.forall_mem_cons.mp hpieces
        refine ⟨_, ⟨hpiece, rfl⟩, hrest, ?_⟩
        simp [manifest, Nat.add_assoc]

/-- A flush is assembled exactly when every parameter is small enough. -/
theorem assembleFlush_eq_ok {hash : HashTensor V} {pieces : List (FlushPiece V)}
    {flush : DeltaFlush V} :
    assembleFlush hash pieces = .ok flush ↔
      (∀ piece ∈ pieces, piece.shape.prod < 2 ^ 31) ∧
        flush = {
          params := manifest 0 0 pieces
          positions := pieces.flatMap FlushPiece.idx
          values := pieces.flatMap FlushPiece.val
          checksum := checksum hash (pieces.flatMap FlushPiece.idx)
            (pieces.flatMap FlushPiece.val) } := by
  rw [assembleFlush, bind_eq_ok]
  simp only [foldlM_assembleStep_eq_ok, List.nil_append]
  constructor
  · rintro ⟨_, ⟨hpieces, rfl⟩, hflush⟩
    exact ⟨hpieces, (Except.ok.inj hflush).symm⟩
  · rintro ⟨hpieces, rfl⟩
    exact ⟨_, ⟨hpieces, rfl⟩, rfl⟩

/-! ## Seed flushes -/

structure ValuesPiece (V : Type) where
  name : String
  dtypeStr : String
  shape : List ℕ
  flat : List V
  deriving DecidableEq

def ValuesPiece.param (valOff : ℕ) (piece : ValuesPiece V) : DeltaParam where
  name := piece.name
  dtype := piece.dtypeStr
  shape := piece.shape
  posStart := 0
  posEnd := 0
  posWidth := 4
  valStart := valOff
  valEnd := valOff + piece.flat.length

/-- `_assemble_values`, with the checksum of the published flush. -/
def assembleValues (hash : HashTensor V) (pieces : List (ValuesPiece V)) :
    Except SyncError (DeltaFlush V) :=
  let (params, _) := pieces.foldl (fun (state : List DeltaParam × ℕ) piece =>
    (state.1 ++ [piece.param state.2], state.2 + piece.flat.length)) ([], 0)
  let values := pieces.flatMap ValuesPiece.flat
  .ok {
    params
    positions := []
    values
    checksum := checksum hash [] values }

def valuesManifest (valOff : ℕ) : List (ValuesPiece V) → List DeltaParam
  | [] => []
  | piece :: pieces => piece.param valOff :: valuesManifest (valOff + piece.flat.length) pieces

theorem assembleValues_eq (hash : HashTensor V) (pieces : List (ValuesPiece V)) :
    assembleValues hash pieces = .ok {
      params := valuesManifest 0 pieces
      positions := []
      values := pieces.flatMap ValuesPiece.flat
      checksum := checksum hash [] (pieces.flatMap ValuesPiece.flat) } := by
  have hfold : ∀ (state : List DeltaParam × ℕ), (pieces.foldl (fun state piece =>
      (state.1 ++ [piece.param state.2], state.2 + piece.flat.length)) state).1 =
        state.1 ++ valuesManifest state.2 pieces := by
    induction pieces with
    | nil => simp [valuesManifest]
    | cons piece pieces ih =>
        intro state
        rw [List.foldl_cons, ih, valuesManifest, List.append_assoc, List.singleton_append]
  simpa [assembleValues] using hfold ([], 0)

end OneShotOPD.DeltaSync
