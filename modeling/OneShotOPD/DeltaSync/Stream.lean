import OneShotOPD.DeltaSync.DeltaLoader

/-!
# The stream of flushes

Rank 0 publishes its flushes one after the other and marks the last.  The
receiver applies each of them as it arrives and stops after the last one, or
when it is told that there are none.
-/

namespace OneShotOPD.DeltaSync

open Checks

inductive Message (V : Type) where
  | terminalEmpty
  | flush (encoding : Encoding) (flush : DeltaFlush V) (isLast : Bool)

variable {V Model Piece : Type}

/-- With no flushes, only the end of the stream is published. -/
def publish (encoding : Encoding) (flushes : List (DeltaFlush V × Bool)) :
    List (Message V) :=
  if flushes.isEmpty then [.terminalEmpty]
  else flushes.map fun flush => .flush encoding flush.1 flush.2

/-- The receive loop.  Later messages are left for the next sync. -/
def receiveWeights (apply : Model → Encoding → DeltaFlush V → Except SyncError Model)
    (model : Model) : List (Message V) → Except SyncError (Model × List (Message V))
  | [] => .error .waiting
  | .terminalEmpty :: messages => .ok (model, messages)
  | .flush encoding flush isLast :: messages => do
      let model ← apply model encoding flush
      if isLast then return (model, messages) else receiveWeights apply model messages

/-- The pieces of the seed, one for each name. -/
def seedPieces {Weight Sized : Type} (nameOf : Weight → String) (pieceOf : Weight → Sized)
    (seenNames : List String) : List Weight → Except SyncError (List Sized)
  | [] => .ok []
  | weight :: weights => do
      raiseIf (nameOf weight ∈ seenNames) (.duplicateTensor (nameOf weight))
      let pieces ← seedPieces nameOf pieceOf (nameOf weight :: seenNames) weights
      return pieceOf weight :: pieces

/-- A tensor that is sent whole, with its bytes. -/
def seedPiece (float : FloatType V) (weight : String × Tensor V) : ValuesPiece V × ℕ :=
  ({ name := weight.1
     dtypeStr := float.name
     shape := weight.2.shape
     flat := weight.2.data }, weight.2.data.length * float.elementSize)

def sendFullSeed (float : FloatType V) (hash : HashTensor V) (bucketSize : ℤ)
    (weights : List (String × Tensor V)) : Except SyncError (List (Message V)) := do
  let pieces ← seedPieces Prod.fst (seedPiece float) [] weights
  let flushes ← streamAll bucketSize (assembleValues hash) pieces true
  return publish .dense flushes

/-- `send_weights` after the seed, from what the gather hands on. -/
def sendSteady (float : FloatType V) (hash : HashTensor V) (bucketSize : ℤ) (maxElems : ℕ)
    (consumed : List (Consumed V)) : Except SyncError (List (Message V)) := do
  let flushes ← streamAll bucketSize (assembleFlush hash)
    (consumed.flatMap (bucketSlotDelta float.elementSize maxElems)) true
  return publish .indices flushes

theorem publish_cons_markEnd (encoding : Encoding) (flush next : DeltaFlush V)
    (flushes : List (DeltaFlush V)) :
    publish encoding (markEnd true (flush :: next :: flushes)) =
      .flush encoding flush false :: publish encoding (markEnd true (next :: flushes)) := by
  cases flushes <;> rfl

/-- The receiver applies all flushes, and no message of another stream. -/
theorem receiveWeights_publish
    (apply : Model → Encoding → DeltaFlush V → Except SyncError Model) (encoding : Encoding)
    (flushes : List (DeltaFlush V)) (model : Model) (rest : List (Message V)) :
    receiveWeights apply model (publish encoding (markEnd true flushes) ++ rest) =
      (fun model => (model, rest)) <$>
        flushes.foldlM (fun model flush => apply model encoding flush) model := by
  induction flushes generalizing model with
  | nil => rfl
  | cons flush flushes ih =>
      cases flushes with
      | nil =>
          change (apply model encoding flush >>= fun model => _) = _
          rw [List.foldlM_cons]
          cases apply model encoding flush <;> rfl
      | cons next flushes =>
          rw [publish_cons_markEnd, List.cons_append, receiveWeights, List.foldlM_cons]
          cases happly : apply model encoding flush with
          | error error => rfl
          | ok model => exact ih model

/-- When every flush combines its pieces with the model, so does the whole
stream. -/
theorem receiveWeights_streamAll
    {apply : Model → Encoding → DeltaFlush V → Except SyncError Model} {encoding : Encoding}
    {assemble : List Piece → Except SyncError (DeltaFlush V)}
    (combine : List Piece → Model → Model) (fits : Model → Piece → Prop)
    (hnil : ∀ model, combine [] model = model)
    (happend : ∀ first second model,
      combine (first ++ second) model = combine second (combine first model))
    (hfits : ∀ model run piece, fits model piece → (∀ other ∈ run, fits model other) →
      fits (combine run model) piece)
    (happly : ∀ model run flush, (∀ piece ∈ run, fits model piece) →
      assemble run = .ok flush → apply model encoding flush = .ok (combine run model))
    {bucketSize : ℤ} {pieces : List (Piece × ℕ)} {flushes : List (DeltaFlush V × Bool)}
    (hpublish : streamAll bucketSize assemble pieces true = .ok flushes) {model : Model}
    (hpieces : ∀ piece ∈ pieces.map Prod.fst, fits model piece) (rest : List (Message V)) :
    receiveWeights apply model (publish encoding flushes ++ rest) =
      .ok (combine (pieces.map Prod.fst) model, rest) := by
  obtain ⟨runs, hruns, hall⟩ := streamAll_eq bucketSize assemble pieces true
  rw [← hruns] at hpieces ⊢
  rw [hpublish] at hall
  cases hassembled : runs.mapM assemble with
  | error error => simp [hassembled] at hall
  | ok assembled =>
      rw [hassembled] at hall
      obtain rfl : flushes = markEnd true assembled := Except.ok.inj hall
      have hfold : assembled.foldlM (fun model flush => apply model encoding flush) model =
          .ok (combine runs.flatten model) := by
        clear hruns hall hpublish
        induction runs generalizing model assembled with
        | nil =>
            cases hassembled
            rw [List.flatten_nil, hnil]
            rfl
        | cons run runs ih =>
            rw [List.mapM_cons] at hassembled
            obtain ⟨flush, hflush, hassembled⟩ := bind_eq_ok.mp hassembled
            obtain ⟨others, hothers, hassembled⟩ := bind_eq_ok.mp hassembled
            cases hassembled
            have hrun : ∀ piece ∈ run, fits model piece := fun piece hpiece =>
              hpieces piece (by simp [hpiece])
            have hrest : ∀ piece ∈ runs.flatten, fits (combine run model) piece :=
              fun piece hpiece => hfits model run piece
                (hpieces piece (by rw [List.flatten_cons]; exact List.mem_append_right _ hpiece))
                hrun
            rw [List.foldlM_cons, happly model run flush hrun hflush, List.flatten_cons,
              happend]
            exact ih hrest others hothers
      rw [receiveWeights_publish, hfold]
      rfl

theorem exists_assemble_of_streamAll {ε Flush : Type} {bucketSize : ℤ}
    {assemble : List Piece → Except ε Flush} {pieces : List (Piece × ℕ)}
    {flushes : List (Flush × Bool)}
    (hpublish : streamAll bucketSize assemble pieces true = .ok flushes)
    {piece : Piece} (hpiece : piece ∈ pieces.map Prod.fst) :
    ∃ run flush, piece ∈ run ∧ assemble run = .ok flush := by
  obtain ⟨runs, hruns, hall⟩ := streamAll_eq bucketSize assemble pieces true
  rw [← hruns] at hpiece
  obtain ⟨run, hrun, hmem⟩ := List.mem_flatten.mp hpiece
  rw [hpublish] at hall
  cases hassembled : runs.mapM assemble with
  | error error => simp [hassembled] at hall
  | ok assembled =>
      obtain ⟨flush, hflush⟩ := eq_ok_of_mapM hassembled hrun
      exact ⟨run, flush, hmem, hflush⟩

theorem exists_streamAll_eq_ok {ε Flush : Type} (bucketSize : ℤ) (isLast : Bool)
    {assemble : List Piece → Except ε Flush} {pieces : List (Piece × ℕ)}
    (hassemble : ∀ run, (∀ piece ∈ run, piece ∈ pieces.map Prod.fst) →
      ∃ flush, assemble run = .ok flush) :
    ∃ flushes, streamAll bucketSize assemble pieces isLast = .ok flushes := by
  obtain ⟨runs, hruns, hall⟩ := streamAll_eq bucketSize assemble pieces isLast
  obtain ⟨assembled, hassembled⟩ : ∃ assembled, runs.mapM assemble = .ok assembled := by
    refine exists_mapM_eq_ok fun run hrun => hassemble run fun piece hpiece => ?_
    rw [← hruns]
    exact List.mem_flatten.mpr ⟨run, hrun, hpiece⟩
  exact ⟨markEnd isLast assembled, by rw [hall, hassembled]; rfl⟩

/-- The seed goes through exactly when no name occurs twice. -/
theorem seedPieces_eq_ok {Weight Sized : Type} {nameOf : Weight → String}
    {pieceOf : Weight → Sized} {seenNames : List String} {weights : List Weight}
    {pieces : List Sized} :
    seedPieces nameOf pieceOf seenNames weights = .ok pieces ↔
      ((weights.map nameOf).Nodup ∧ ∀ name ∈ weights.map nameOf, name ∉ seenNames) ∧
        pieces = weights.map pieceOf := by
  induction weights generalizing seenNames pieces with
  | nil => simp [seedPieces, eq_comm]
  | cons weight weights ih =>
      rw [seedPieces, raiseIf_bind_eq_ok, bind_eq_ok]
      simp only [ih, List.map_cons, List.nodup_cons, List.forall_mem_cons]
      constructor
      · rintro ⟨hname, _, ⟨⟨hnodup, hseen⟩, rfl⟩, hpieces⟩
        cases hpieces
        refine ⟨⟨⟨fun hmem => hseen _ hmem (by simp), hnodup⟩, hname, ?_⟩, rfl⟩
        exact fun other hother hmem => hseen other hother (by simp [hmem])
      · rintro ⟨⟨⟨hname, hnodup⟩, hseen, hrest⟩, rfl⟩
        refine ⟨hseen, _, ⟨⟨hnodup, fun other hother hmem => ?_⟩, rfl⟩, rfl⟩
        rcases List.mem_cons.mp hmem with rfl | hmem
        · exact hname hother
        · exact hrest other hother hmem

theorem seedPieces_map {Weight Sized Source : Type} {Tagged : Type} {nameOf : Weight → String}
    {sourceName : Source → String} {pieceOf : Weight → Tagged} {sourcePiece : Source → Sized}
    {embed : Source → Weight} {tag : Sized → Tagged}
    (hname : ∀ source, nameOf (embed source) = sourceName source)
    (hpiece : ∀ source, pieceOf (embed source) = tag (sourcePiece source))
    (seenNames : List String) (sources : List Source) :
    seedPieces nameOf pieceOf seenNames (sources.map embed) =
      List.map tag <$> seedPieces sourceName sourcePiece seenNames sources := by
  induction sources generalizing seenNames with
  | nil => rfl
  | cons source sources ih =>
      rw [List.map_cons, seedPieces, seedPieces, hname, ih, hpiece]
      cases raiseIf (sourceName source ∈ seenNames)
          (SyncError.duplicateTensor (sourceName source)) with
      | error error => rfl
      | ok _ =>
          change (List.map tag <$> seedPieces sourceName sourcePiece
              (sourceName source :: seenNames) sources >>= _) =
            List.map tag <$> (seedPieces sourceName sourcePiece
              (sourceName source :: seenNames) sources >>= _)
          cases seedPieces sourceName sourcePiece (sourceName source :: seenNames) sources <;> rfl

end OneShotOPD.DeltaSync
