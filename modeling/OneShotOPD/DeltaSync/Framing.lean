import OneShotOPD.DeltaSync.Stream
import OneShotOPD.Core.Rounding
import Mathlib

/-!
# The framing of a sync

A sync sends one stream of messages: the flushes of the seed, or those of the changed
elements with a verification sweep behind them, or a signal that there are none.  The
receiver reads until a message says that it is the last.
-/

namespace OneShotOPD.DeltaSync

open Checks Segments

variable {V : Type}

/-! ## Messages -/

/-- A manifest on the socket with the broadcasts that follow it. -/
inductive WireMessage (V : Type) where
  | terminalEmpty (isFull : Bool)
  | indexed (flush : DeltaFlush V) (isLast : Bool)
  | valuesOnly (flush : DeltaFlush V) (isLast verify : Bool)

/-- The receiver treats the message as the last of the stream. -/
def WireMessage.endsStream : WireMessage V → Bool
  | .terminalEmpty _ => true
  | .indexed _ isLast => isLast
  | .valuesOnly _ isLast _ => isLast

/-- What every consumer needs to decode a flush. -/
structure DeltaSpec where
  encoding : Encoding
  verify : Bool
  params : List DeltaParam
  checksum : ℕ

/-- `__delta_spec__`, `__positions__` and `__values__`, with the flag that is yielded
beside them. -/
structure Yielded (V : Type) where
  spec : DeltaSpec
  positions : Option (List ℤ)
  values : List V
  isLast : Bool

def WireMessage.yielded : WireMessage V → Option (Yielded V)
  | .terminalEmpty _ => none
  | .indexed flush isLast =>
      some ⟨⟨.indices, false, flush.params, flush.checksum⟩, some flush.positions, flush.values,
        isLast⟩
  | .valuesOnly flush isLast verify =>
      some ⟨⟨.dense, verify, flush.params, flush.checksum⟩, none, flush.values, isLast⟩

/-- `receive_weights`: what is yielded, and the messages left on the socket. -/
def receiveYielded : List (WireMessage V) → Except SyncError
    (List (Yielded V) × List (WireMessage V))
  | [] => .error .waiting
  | message :: messages =>
      match message.yielded with
      | none => .ok ([], messages)
      | some item =>
          if item.isLast then .ok ([item], messages)
          else do
            let (items, rest) ← receiveYielded messages
            return (item :: items, rest)

/-! ## Dtypes -/

structure Dtype where
  name : String
  elementSize : ℕ
  isFloatingPoint : Bool
  deriving DecidableEq

/-- `torch.promote_types` and `Tensor.to`. -/
structure Conversion (V : Type) where
  promote : Dtype → Dtype → Dtype
  convert : Dtype → Dtype → V → V
  promote_self : ∀ dtype, promote dtype dtype = dtype
  convert_self : ∀ dtype value, convert dtype dtype value = value

/-- `torch.cat` of the values of some pieces.  They are promoted to one dtype. -/
def Conversion.cat {Piece : Type} (conversion : Conversion V) (map : (V → V) → Piece → Piece) :
    List (Piece × Dtype) → List Piece
  | [] => []
  | first :: rest =>
      let common := rest.foldl (fun common piece => conversion.promote common piece.2) first.2
      (first :: rest).map fun piece => map (conversion.convert piece.2 common) piece.1

theorem Conversion.cat_of_uniform {Piece : Type} (conversion : Conversion V)
    {map : (V → V) → Piece → Piece} (hmap : ∀ piece, map (fun value => value) piece = piece)
    {dtype : Dtype} {run : List (Piece × Dtype)} (hrun : ∀ piece ∈ run, piece.2 = dtype) :
    conversion.cat map run = run.map Prod.fst := by
  cases run with
  | nil => rfl
  | cons first rest =>
      obtain ⟨hfirst, hrest⟩ := List.forall_mem_cons.mp hrun
      have hcommon : rest.foldl (fun common piece => conversion.promote common piece.2) first.2 =
          dtype := by
        rw [hfirst]
        clear hrun hfirst
        induction rest with
        | nil => rfl
        | cons second rest ih =>
            obtain ⟨hsecond, hrest⟩ := List.forall_mem_cons.mp hrest
            rw [List.foldl_cons, hsecond, conversion.promote_self]
            exact ih hrest
      rw [Conversion.cat, hcommon]
      refine List.map_congr_left fun piece hpiece => ?_
      rw [hrun piece hpiece, funext (conversion.convert_self dtype)]
      exact hmap piece.1

theorem Conversion.exists_of_mem_cat {Piece : Type} {conversion : Conversion V}
    {map : (V → V) → Piece → Piece} {run : List (Piece × Dtype)} {piece : Piece}
    (hpiece : piece ∈ conversion.cat map run) :
    ∃ tagged ∈ run, ∃ convert, piece = map convert tagged.1 := by
  cases run with
  | nil => cases hpiece
  | cons first rest =>
      obtain ⟨tagged, htagged, rfl⟩ := List.mem_map.mp hpiece
      exact ⟨tagged, htagged, _, rfl⟩

/-- What does not look at the values stays. -/
theorem Conversion.map_cat {Piece W : Type} (conversion : Conversion V)
    {map : (V → V) → Piece → Piece} {frame : Piece → W}
    (hframe : ∀ convert piece, frame (map convert piece) = frame piece)
    (run : List (Piece × Dtype)) :
    (conversion.cat map run).map frame = run.map fun piece => frame piece.1 := by
  cases run with
  | nil => rfl
  | cons first rest =>
      rw [Conversion.cat, List.map_map]
      exact List.map_congr_left fun piece _ => hframe _ piece.1

def FlushPiece.map {W : Type} (f : V → W) (piece : FlushPiece V) : FlushPiece W where
  name := piece.name
  dtypeStr := piece.dtypeStr
  shape := piece.shape
  idx := piece.idx
  val := piece.val.map f

def ValuesPiece.map {W : Type} (f : V → W) (piece : ValuesPiece V) : ValuesPiece W where
  name := piece.name
  dtypeStr := piece.dtypeStr
  shape := piece.shape
  flat := piece.flat.map f

theorem FlushPiece.map_map {W : Type} (f : V → V) (g : V → W) (piece : FlushPiece V) :
    (piece.map f).map g = piece.map (g ∘ f) := by
  simp [FlushPiece.map]

theorem ValuesPiece.map_map {W : Type} (f : V → V) (g : V → W) (piece : ValuesPiece V) :
    (piece.map f).map g = piece.map (g ∘ f) := by
  simp [ValuesPiece.map]

theorem FlushPiece.map_self (piece : FlushPiece V) : piece.map (fun value => value) = piece := by
  simp [FlushPiece.map]

theorem ValuesPiece.map_self (piece : ValuesPiece V) :
    piece.map (fun value => value) = piece := by
  simp [ValuesPiece.map]

/-! ## The sender -/

structure SenderConfig (V : Type) where
  rolloutDtype : Dtype
  conversion : Conversion V
  hash : HashTensor V
  bucketSize : ℤ
  maxEntryElems : ℕ
  verifyEvery : ℤ
  maxEntryElems_pos : 0 < maxEntryElems

/-- What the sender remembers between syncs. -/
structure SenderState where
  shardSeeded : Bool
  steadyCount : ℕ

/-- `_verify_due`, with the new count. -/
def verifyDue (verifyEvery : ℤ) (steadyCount : ℕ) : Bool × ℕ :=
  if verifyEvery ≤ 0 then (false, steadyCount)
  else (((steadyCount + 1 : ℕ) : ℤ) % verifyEvery == 0, steadyCount + 1)

/-- A tensor of the full export. -/
structure ExportedTensor (V : Type) where
  name : String
  dtype : Dtype
  tensor : Tensor V

/-- A delta as the gather hands it on, with the dtype that its values have there. -/
structure Delta (V : Type) extends Consumed V where
  dtype : Dtype
  length_eq : idx.length = val.length

variable (config : SenderConfig V)

/-- Floating point tensors are sent in the dtype of the rollout. -/
def ExportedTensor.toRollout (weight : ExportedTensor V) : ExportedTensor V :=
  if weight.dtype.isFloatingPoint ∧ weight.dtype ≠ config.rolloutDtype then {
    weight with
    dtype := config.rolloutDtype
    tensor := ⟨weight.tensor.shape,
      weight.tensor.data.map (config.conversion.convert weight.dtype config.rolloutDtype)⟩ }
  else weight

def ExportedTensor.piece (weight : ExportedTensor V) : (ValuesPiece V × Dtype) × ℕ :=
  (({ name := weight.name
      dtypeStr := weight.dtype.name
      shape := weight.tensor.shape
      flat := weight.tensor.data }, weight.dtype),
    weight.tensor.data.length * weight.dtype.elementSize)

/-- `_send_full_seed` on rank 0. -/
def streamFullSeed (full : List (ExportedTensor V)) (verify : Bool) :
    Except SyncError (List (WireMessage V)) := do
  let pieces ← seedPieces ExportedTensor.name
    (fun weight => (weight.toRollout config).piece) [] full
  let flushes ← streamAll config.bucketSize
    (fun run => assembleValues config.hash (config.conversion.cat ValuesPiece.map run)) pieces true
  return if flushes.isEmpty then [.terminalEmpty true]
    else flushes.map fun flush => .valuesOnly flush.1 flush.2 verify

def Delta.pieces (delta : Delta V) : List ((FlushPiece V × Dtype) × ℕ) :=
  (bucketSlotDelta delta.dtype.elementSize config.maxEntryElems delta.toConsumed).map
    (Prod.map (fun piece => (piece, delta.dtype)) id)

/-- The stream of the changed elements.  With a sweep to come its final flush is not
marked, and an empty stream is not announced. -/
def streamSteady (deltas : List (Delta V)) (verify : Bool) :
    Except SyncError (List (WireMessage V)) := do
  let flushes ← streamAll config.bucketSize
    (fun run => assembleFlush config.hash (config.conversion.cat FlushPiece.map run))
    (deltas.flatMap (Delta.pieces config)) (!verify)
  return if flushes.isEmpty then (if verify then [] else [.terminalEmpty false])
    else flushes.map fun flush => .indexed flush.1 flush.2

/-- The verification sweep behind a steady stream. -/
def streamSweep (full : List (ExportedTensor V)) (verify : Bool) :
    Except SyncError (List (WireMessage V)) :=
  if verify then streamFullSeed config full true else .ok []

/-- `send_weights` on rank 0, from the full export and from the deltas that the gather
hands on. -/
def sendWeights (state : SenderState) (full : List (ExportedTensor V))
    (deltas : List (Delta V)) : Except SyncError (List (WireMessage V) × SenderState) :=
  if !state.shardSeeded then do
    let messages ← streamFullSeed config full false
    return (messages, { state with shardSeeded := true })
  else do
    let (verify, steadyCount) := verifyDue config.verifyEvery state.steadyCount
    let messages ← streamSteady config deltas verify
    let sweep ← streamSweep config full verify
    return (messages ++ sweep, { state with steadyCount })

/-- What the apply loop of the receiver reads off a message. -/
def WireMessage.toMessage : WireMessage V → Message V
  | .terminalEmpty _ => .terminalEmpty
  | .indexed flush isLast => .flush .indices flush isLast
  | .valuesOnly flush isLast _ => .flush .dense flush isLast

section OneType

/-! When everything has one floating point type, the sender is the one of the sync. -/

def FloatType.dtype (float : FloatType V) : Dtype := ⟨float.name, float.elementSize, true⟩

def ExportedTensor.ofFloat (float : FloatType V) (weight : String × Tensor V) :
    ExportedTensor V :=
  ⟨weight.1, float.dtype, weight.2⟩

variable {config} {float : FloatType V}

theorem Conversion.cat_tagged {Piece : Type} (conversion : Conversion V)
    {map : (V → V) → Piece → Piece} (hmap : ∀ piece, map (fun value => value) piece = piece)
    (dtype : Dtype) (run : List Piece) :
    conversion.cat map (run.map fun piece => (piece, dtype)) = run := by
  have hrun : ∀ piece ∈ run.map fun piece => (piece, dtype), piece.2 = dtype := by simp
  rw [conversion.cat_of_uniform hmap hrun, List.map_map]
  exact List.map_id run

theorem Conversion.streamAll_uniform {Piece Flush : Type} (conversion : Conversion V)
    {map : (V → V) → Piece → Piece} (hmap : ∀ piece, map (fun value => value) piece = piece)
    (assemble : List Piece → Except SyncError Flush) (dtype : Dtype) (cap : ℤ)
    (pieces : List (Piece × ℕ)) (isLast : Bool) :
    streamAll cap (fun run => assemble (conversion.cat map run))
        (pieces.map (Prod.map (fun piece => (piece, dtype)) id)) isLast =
      streamAll cap assemble pieces isLast := by
  have htag : ∀ run : List Piece, (fun run => assemble (conversion.cat map run))
      (run.map fun piece => (piece, dtype)) = assemble run := fun run =>
    congrArg assemble (conversion.cat_tagged hmap dtype run)
  exact streamAll_tagged htag cap pieces isLast

theorem sendFullSeed_eq_map (hrollout : config.rolloutDtype = float.dtype)
    (full : List (String × Tensor V)) (verify : Bool) :
    sendFullSeed float config.hash config.bucketSize full =
      (streamFullSeed config (full.map (ExportedTensor.ofFloat float)) verify).map
        (List.map WireMessage.toMessage) := by
  have hpiece : ∀ weight, ((ExportedTensor.ofFloat float weight).toRollout config).piece =
      Prod.map (fun piece => (piece, float.dtype)) id (seedPiece float weight) := by
    intro weight
    rw [ExportedTensor.toRollout, if_neg (by simp [ExportedTensor.ofFloat, hrollout])]
    rfl
  have hseed : seedPieces ExportedTensor.name (fun weight => (weight.toRollout config).piece) []
        (full.map (ExportedTensor.ofFloat float)) =
      List.map (Prod.map (fun piece => (piece, float.dtype)) id) <$>
        seedPieces Prod.fst (seedPiece float) [] full := by
    refine seedPieces_map (fun _ => rfl) ?_ [] full
    exact hpiece
  rw [sendFullSeed, streamFullSeed, hseed]
  cases seedPieces Prod.fst (seedPiece float) [] full with
  | error error => rfl
  | ok pieces =>
      change (streamAll config.bucketSize (assembleValues config.hash) pieces true >>= _) =
        Except.map _ (streamAll config.bucketSize (fun run => assembleValues config.hash
          (config.conversion.cat ValuesPiece.map run))
            (pieces.map (Prod.map (fun piece => (piece, float.dtype)) id)) true >>= _)
      rw [config.conversion.streamAll_uniform ValuesPiece.map_self]
      cases streamAll config.bucketSize (assembleValues config.hash) pieces true with
      | error error => rfl
      | ok flushes =>
          cases flushes with
          | nil => rfl
          | cons flush flushes =>
              refine congrArg Except.ok ?_
              simp [publish, WireMessage.toMessage, Function.comp_def]

theorem sendSteady_eq_map {deltas : List (Delta V)}
    (hdeltas : ∀ delta ∈ deltas, delta.dtype = float.dtype) :
    sendSteady float config.hash config.bucketSize config.maxEntryElems
        (deltas.map Delta.toConsumed) =
      (streamSteady config deltas false).map (List.map WireMessage.toMessage) := by
  have hpieces : deltas.flatMap (Delta.pieces config) =
      ((deltas.map Delta.toConsumed).flatMap
        (bucketSlotDelta float.elementSize config.maxEntryElems)).map
          (Prod.map (fun piece => (piece, float.dtype)) id) := by
    rw [List.flatMap_map, List.map_flatMap]
    refine List.flatMap_congr fun delta hdelta => ?_
    rw [Delta.pieces, hdeltas delta hdelta]
    rfl
  rw [sendSteady, streamSteady, hpieces, Bool.not_false,
    config.conversion.streamAll_uniform FlushPiece.map_self]
  cases streamAll config.bucketSize (assembleFlush config.hash) ((deltas.map
      Delta.toConsumed).flatMap (bucketSlotDelta float.elementSize config.maxEntryElems))
      true with
  | error error => rfl
  | ok flushes =>
      cases flushes with
      | nil => rfl
      | cons flush flushes =>
          refine congrArg Except.ok ?_
          simp [publish, WireMessage.toMessage, Function.comp_def]

end OneType

/-! ## What the messages carry -/

inductive WirePiece (V : Type) where
  | entries (piece : FlushPiece V)
  | tensor (piece : ValuesPiece V)
  deriving DecidableEq

def WirePiece.map {W : Type} (f : V → W) : WirePiece V → WirePiece W
  | .entries piece => .entries (piece.map f)
  | .tensor piece => .tensor (piece.map f)

/-- Everything about a piece but its values: their number is left. -/
def WirePiece.frame (piece : WirePiece V) : WirePiece Unit := piece.map fun _ => ()

/-- The entries that a manifest points at. -/
def entriesAt (positions : List ℤ) (values : List V) (param : DeltaParam) : FlushPiece V where
  name := param.name
  dtypeStr := param.dtype
  shape := param.shape
  idx := slice (param.posStart / 4) (param.posEnd / 4) positions
  val := slice param.valStart param.valEnd values

def tensorAt (values : List V) (param : DeltaParam) : ValuesPiece V where
  name := param.name
  dtypeStr := param.dtype
  shape := param.shape
  flat := slice param.valStart param.valEnd values

def WireMessage.carried : WireMessage V → List (WirePiece V)
  | .terminalEmpty _ => []
  | .indexed flush _ =>
      flush.params.map fun param => .entries (entriesAt flush.positions flush.values param)
  | .valuesOnly flush _ _ => flush.params.map fun param => .tensor (tensorAt flush.values param)

theorem map_entriesAt_manifest {pieces : List (FlushPiece V)}
    (hlength : ∀ piece ∈ pieces, piece.idx.length = piece.val.length)
    (positions : List ℤ) (values : List V) :
    (manifest (positions.length * 4) values.length pieces).map
        (entriesAt (positions ++ pieces.flatMap FlushPiece.idx)
          (values ++ pieces.flatMap FlushPiece.val)) = pieces := by
  induction pieces generalizing positions values with
  | nil => rfl
  | cons piece pieces ih =>
      have hpiece := hlength piece (by simp)
      have hrest := ih (fun other hother => hlength other (by simp [hother]))
        (positions ++ piece.idx) (values ++ piece.val)
      rw [List.length_append, List.length_append, Nat.add_mul, ← hpiece, List.append_assoc,
        List.append_assoc] at hrest
      have hend : (positions.length * 4 + piece.idx.length * 4) / 4 =
          positions.length + piece.idx.length := by omega
      have hentries : entriesAt (positions ++ (piece.idx ++ pieces.flatMap FlushPiece.idx))
          (values ++ (piece.val ++ pieces.flatMap FlushPiece.val))
            (piece.param (positions.length * 4) values.length) = piece := by
        simp only [entriesAt, FlushPiece.param, hend]
        rw [Nat.mul_div_cancel _ (by decide), slice_middle, hpiece, slice_middle]
      rw [manifest, List.map_cons, List.flatMap_cons, List.flatMap_cons, hentries, hrest]

theorem map_tensorAt_valuesManifest (pieces : List (ValuesPiece V)) (values : List V) :
    (valuesManifest values.length pieces).map
        (tensorAt (values ++ pieces.flatMap ValuesPiece.flat)) = pieces := by
  induction pieces generalizing values with
  | nil => rfl
  | cons piece pieces ih =>
      have hrest := ih (values ++ piece.flat)
      rw [List.length_append, List.append_assoc] at hrest
      have htensor : tensorAt (values ++ (piece.flat ++ pieces.flatMap ValuesPiece.flat))
          (piece.param values.length) = piece := by
        simp only [tensorAt, ValuesPiece.param, slice_middle]
      rw [valuesManifest, List.map_cons, List.flatMap_cons, htensor, hrest]

/-- The message has the pieces of the run in their order.  The values are theirs too when
the pieces have one dtype. -/
structure WireMessage.Carries (message : WireMessage V) (run : List (WirePiece V × Dtype)) :
    Prop where
  frames : message.carried.map WirePiece.frame = run.map fun piece => piece.1.frame
  values : ∀ dtype, (∀ piece ∈ run, piece.2 = dtype) → message.carried = run.map Prod.fst

/-- The messages carry the pieces in consecutive runs. -/
def Carry (messages : List (WireMessage V)) (pieces : List (WirePiece V × Dtype)) : Prop :=
  ∃ runs, runs.flatten = pieces ∧ List.Forall₂ WireMessage.Carries messages runs

/-- The end of a stream can be announced behind it. -/
theorem Carry.terminalEmpty {pieces : List (WirePiece V × Dtype)} (hcarry : Carry [] pieces)
    (isFull : Bool) : Carry [.terminalEmpty isFull] pieces := by
  obtain ⟨runs, rfl, hruns⟩ := hcarry
  cases hruns
  exact ⟨[[]], rfl, .cons ⟨rfl, fun _ _ => rfl⟩ .nil⟩

theorem Carry.append {first second : List (WireMessage V)}
    {pieces others : List (WirePiece V × Dtype)} (hfirst : Carry first pieces)
    (hsecond : Carry second others) : Carry (first ++ second) (pieces ++ others) := by
  obtain ⟨runs, rfl, hruns⟩ := hfirst
  obtain ⟨rest, rfl, hrest⟩ := hsecond
  exact ⟨runs ++ rest, List.flatten_append, List.rel_append hruns hrest⟩

theorem Carry.frames {messages : List (WireMessage V)} {pieces : List (WirePiece V × Dtype)}
    (hcarry : Carry messages pieces) :
    (messages.flatMap WireMessage.carried).map WirePiece.frame =
      pieces.map fun piece => piece.1.frame := by
  obtain ⟨runs, rfl, hruns⟩ := hcarry
  induction hruns with
  | nil => rfl
  | cons hrun _ ih =>
      rw [List.flatMap_cons, List.map_append, hrun.frames, ih, List.flatten_cons, List.map_append]

/-- Pieces of one dtype arrive as they are. -/
theorem Carry.eq_of_uniform {messages : List (WireMessage V)}
    {pieces : List (WirePiece V × Dtype)} (hcarry : Carry messages pieces) {dtype : Dtype}
    (hpieces : ∀ piece ∈ pieces, piece.2 = dtype) :
    messages.flatMap WireMessage.carried = pieces.map Prod.fst := by
  obtain ⟨runs, rfl, hruns⟩ := hcarry
  induction hruns with
  | nil => rfl
  | @cons message run messages runs hrun _ ih =>
      rw [List.flatten_cons] at hpieces
      obtain ⟨hfirst, hrest⟩ := List.forall_mem_append.mp hpieces
      rw [List.flatMap_cons, hrun.values dtype hfirst, ih hrest, List.flatten_cons,
        List.map_append]

/-! ## Streams with one end -/

/-- Only the final message ends the stream. -/
def Framed (messages : List (WireMessage V)) : Prop :=
  ∃ front last, messages = front ++ [last] ∧ last.endsStream = true ∧
    ∀ message ∈ front, message.endsStream = false

theorem Framed.append_left {messages : List (WireMessage V)} (hframed : Framed messages)
    {before : List (WireMessage V)} (hbefore : ∀ message ∈ before, message.endsStream = false) :
    Framed (before ++ messages) := by
  obtain ⟨front, last, rfl, hlast, hfront⟩ := hframed
  refine ⟨before ++ front, last, (List.append_assoc ..).symm, hlast, fun message hmessage => ?_⟩
  rcases List.mem_append.mp hmessage with hmem | hmem
  · exact hbefore message hmem
  · exact hfront message hmem

theorem framed_singleton {message : WireMessage V} (hlast : message.endsStream = true) :
    Framed [message] :=
  ⟨[], message, rfl, hlast, by simp⟩

theorem exists_yielded_of_not_endsStream {message : WireMessage V}
    (hmore : message.endsStream = false) :
    ∃ item, message.yielded = some item ∧ item.isLast = false := by
  cases message with
  | terminalEmpty isFull => cases hmore
  | indexed flush isLast => exact ⟨_, rfl, hmore⟩
  | valuesOnly flush isLast verify => exact ⟨_, rfl, hmore⟩

/-- The receiver yields the flushes of the stream and leaves what comes behind it. -/
theorem receiveYielded_framed {messages : List (WireMessage V)} (hframed : Framed messages)
    (rest : List (WireMessage V)) :
    receiveYielded (messages ++ rest) = .ok (messages.filterMap WireMessage.yielded, rest) := by
  obtain ⟨front, last, rfl, hlast, hfront⟩ := hframed
  induction front with
  | nil =>
      cases last with
      | terminalEmpty isFull => rfl
      | indexed flush isLast =>
          obtain rfl : isLast = true := hlast
          rfl
      | valuesOnly flush isLast verify =>
          obtain rfl : isLast = true := hlast
          rfl
  | cons message front ih =>
      obtain ⟨item, hitem, hmore⟩ :=
        exists_yielded_of_not_endsStream (hfront message List.mem_cons_self)
      rw [List.cons_append, List.cons_append, receiveYielded, hitem,
        List.filterMap_cons_some hitem]
      simp only [hmore, Bool.false_eq_true, if_false]
      rw [ih fun other hother => hfront other (List.mem_cons_of_mem message hother)]
      rfl

section Stream

variable {ε Piece Flush W : Type}

theorem map_fst_markEnd (isLast : Bool) (flushes : List Flush) :
    (markEnd isLast flushes).map Prod.fst = flushes := by
  rcases List.eq_nil_or_concat flushes with rfl | ⟨front, last, rfl⟩
  · rfl
  · rw [List.concat_eq_append, markEnd_concat, List.map_append, List.map_map]
    simp [Function.comp_def]

theorem isEmpty_markEnd (isLast : Bool) (flushes : List Flush) :
    (markEnd isLast flushes).isEmpty = flushes.isEmpty := by
  rw [← List.isEmpty_map (f := Prod.fst), map_fst_markEnd]

/-- The flushes of a stream are assembled from consecutive runs of the pieces. -/
theorem forall₂_of_streamAll {assemble : List Piece → Except ε Flush}
    (carries : Flush → List Piece → Prop) (fits : Piece → Prop)
    (hassemble : ∀ run flush, (∀ piece ∈ run, fits piece) → assemble run = .ok flush →
      carries flush run)
    {cap : ℤ} {pieces : List (Piece × ℕ)} {isLast : Bool} {flushes : List (Flush × Bool)}
    (hstream : streamAll cap assemble pieces isLast = .ok flushes)
    (hpieces : ∀ piece ∈ pieces.map Prod.fst, fits piece) :
    ∃ assembled runs, flushes = markEnd isLast assembled ∧ runs.flatten = pieces.map Prod.fst ∧
      List.Forall₂ carries assembled runs := by
  obtain ⟨runs, hruns, hall⟩ := streamAll_eq cap assemble pieces isLast
  rw [← hruns] at hpieces
  rw [hstream] at hall
  cases hassembled : runs.mapM assemble with
  | error error => simp [hassembled] at hall
  | ok assembled =>
      rw [hassembled] at hall
      refine ⟨assembled, runs, Except.ok.inj hall, hruns, ?_⟩
      clear hruns hall hstream
      induction runs generalizing assembled with
      | nil =>
          cases hassembled
          exact .nil
      | cons run runs ih =>
          rw [List.mapM_cons] at hassembled
          obtain ⟨flush, hflush, hassembled⟩ := bind_eq_ok.mp hassembled
          obtain ⟨others, hothers, hassembled⟩ := bind_eq_ok.mp hassembled
          cases hassembled
          rw [List.flatten_cons] at hpieces
          obtain ⟨hrun, hrest⟩ := List.forall_mem_append.mp hpieces
          exact .cons (hassemble run flush hrun hflush) (ih hrest others hothers)

variable {message : Flush × Bool → WireMessage V}

theorem map_markEnd_framed
    (hends : ∀ flush isLast, (message (flush, isLast)).endsStream = isLast)
    {flushes : List Flush} (hflushes : flushes ≠ []) :
    Framed ((markEnd true flushes).map message) := by
  rcases List.eq_nil_or_concat flushes with rfl | ⟨front, last, rfl⟩
  · exact absurd rfl hflushes
  · rw [List.concat_eq_append, markEnd_concat, List.map_append, List.map_map]
    refine ⟨_, _, rfl, hends last true, fun other hother => ?_⟩
    obtain ⟨flush, _, rfl⟩ := List.mem_map.mp hother
    exact hends flush false

theorem not_endsStream_of_mem_markEnd_false
    (hends : ∀ flush isLast, (message (flush, isLast)).endsStream = isLast)
    {flushes : List Flush} {other : WireMessage V}
    (hother : other ∈ (markEnd false flushes).map message) : other.endsStream = false := by
  rcases List.eq_nil_or_concat flushes with rfl | ⟨front, last, rfl⟩
  · cases hother
  · rw [List.concat_eq_append, markEnd_concat, List.map_append, List.map_map] at hother
    rcases List.mem_append.mp hother with hmem | hmem
    · obtain ⟨flush, _, rfl⟩ := List.mem_map.mp hmem
      exact hends flush false
    · obtain rfl := List.mem_singleton.mp hmem
      exact hends last false

/-- Messages that carry the runs of their flushes carry all pieces. -/
theorem carry_markEnd {wrap : Piece → WirePiece V × Dtype} {assembled : List Flush}
    {runs : List (List Piece)} (isLast : Bool)
    (hcarries : List.Forall₂ (fun flush run => ∀ isLast,
      (message (flush, isLast)).Carries (run.map wrap)) assembled runs) :
    Carry ((markEnd isLast assembled).map message) (runs.flatten.map wrap) := by
  refine ⟨runs.map (List.map wrap), List.map_flatten.symm, ?_⟩
  rw [← map_fst_markEnd isLast assembled, List.forall₂_map_left_iff] at hcarries
  rw [List.forall₂_map_left_iff, List.forall₂_map_right_iff]
  exact hcarries.imp fun flush run hrun => hrun flush.2

end Stream

/-! ## One sync -/

section Sync

variable {config : SenderConfig V}

/-- A message from which the flattened values can be read carries what was concatenated. -/
theorem carries_of_carried {Piece : Type} (conversion : Conversion V)
    {map : (V → V) → Piece → Piece}
    {wrap : Piece → WirePiece V} (hmap : ∀ piece, map (fun value => value) piece = piece)
    (hframe : ∀ convert piece, (wrap (map convert piece)).frame = (wrap piece).frame)
    {message : WireMessage V} {run : List (Piece × Dtype)}
    (hcarried : message.carried = (conversion.cat map run).map wrap) :
    message.Carries (run.map (Prod.map wrap id)) where
  frames := by
    rw [hcarried, List.map_map, conversion.map_cat hframe, List.map_map]
    rfl
  values dtype hrun := by
    have htags : ∀ piece ∈ run, piece.2 = dtype := fun piece hpiece =>
      hrun _ (List.mem_map_of_mem hpiece)
    rw [hcarried, conversion.cat_of_uniform hmap htags, List.map_map, List.map_map]
    rfl

/-- The piece of a tensor of the full export. -/
def tensorPiece (config : SenderConfig V) (weight : ExportedTensor V) : WirePiece V × Dtype :=
  Prod.map .tensor id (weight.toRollout config).piece.1

theorem carries_valuesOnly {run : List (ValuesPiece V × Dtype)} {flush : DeltaFlush V}
    (hflush : assembleValues config.hash (config.conversion.cat ValuesPiece.map run) = .ok flush)
    (verify isLast : Bool) :
    (WireMessage.valuesOnly flush isLast verify).Carries (run.map (Prod.map .tensor id)) := by
  rw [assembleValues_eq] at hflush
  obtain rfl := Except.ok.inj hflush
  have hframe : ∀ (convert : V → V) (piece : ValuesPiece V),
      (WirePiece.tensor (piece.map convert)).frame = (WirePiece.tensor piece).frame := by
    intro convert piece
    simp only [WirePiece.frame, WirePiece.map, ValuesPiece.map_map, Function.comp_def]
  refine carries_of_carried config.conversion ValuesPiece.map_self hframe ?_
  have hrun := map_tensorAt_valuesManifest (config.conversion.cat ValuesPiece.map run) []
  rw [List.nil_append] at hrun
  conv_rhs => rw [← hrun]
  rw [List.map_map]
  rfl

theorem carries_indexed {run : List (FlushPiece V × Dtype)} {flush : DeltaFlush V}
    (hlength : ∀ piece ∈ run, piece.1.idx.length = piece.1.val.length)
    (hflush : assembleFlush config.hash (config.conversion.cat FlushPiece.map run) = .ok flush)
    (isLast : Bool) :
    (WireMessage.indexed flush isLast).Carries (run.map (Prod.map .entries id)) := by
  obtain ⟨_, rfl⟩ := assembleFlush_eq_ok.mp hflush
  have hframe : ∀ (convert : V → V) (piece : FlushPiece V),
      (WirePiece.entries (piece.map convert)).frame = (WirePiece.entries piece).frame := by
    intro convert piece
    simp only [WirePiece.frame, WirePiece.map, FlushPiece.map_map, Function.comp_def]
  have hcat : ∀ piece ∈ config.conversion.cat FlushPiece.map run,
      piece.idx.length = piece.val.length := by
    intro piece hpiece
    obtain ⟨tagged, htagged, convert, rfl⟩ := Conversion.exists_of_mem_cat hpiece
    simpa [FlushPiece.map] using hlength tagged htagged
  refine carries_of_carried config.conversion FlushPiece.map_self hframe ?_
  have hrun := map_entriesAt_manifest hcat [] []
  rw [List.nil_append, List.nil_append] at hrun
  conv_rhs => rw [← hrun]
  rw [List.map_map]
  rfl

/-- A seed, and a sweep, is one stream that carries every tensor of the export. -/
theorem streamFullSeed_framed {full : List (ExportedTensor V)} {verify : Bool}
    {messages : List (WireMessage V)} (hsend : streamFullSeed config full verify = .ok messages) :
    Framed messages ∧ Carry messages (full.map (tensorPiece config)) := by
  obtain ⟨pieces, hpieces, hsend⟩ := bind_eq_ok.mp hsend
  obtain ⟨flushes, hflushes, hsend⟩ := bind_eq_ok.mp hsend
  obtain ⟨_, rfl⟩ := seedPieces_eq_ok.mp hpieces
  obtain ⟨assembled, runs, rfl, hruns, hcarries⟩ := forall₂_of_streamAll
    (fun flush run => ∀ isLast, (WireMessage.valuesOnly flush isLast verify).Carries
      (run.map (Prod.map .tensor id))) (fun _ => True)
    (fun _ _ _ hflush => carries_valuesOnly hflush verify) hflushes (fun _ _ => trivial)
  have hcarry : Carry ((markEnd true assembled).map fun flush =>
      .valuesOnly flush.1 flush.2 verify) (runs.flatten.map (Prod.map .tensor id)) :=
    carry_markEnd true hcarries
  rw [hruns, List.map_map, List.map_map] at hcarry
  rw [isEmpty_markEnd] at hsend
  obtain rfl := (Except.ok.inj hsend).symm
  cases assembled with
  | nil => exact ⟨framed_singleton rfl, Carry.terminalEmpty hcarry true⟩
  | cons flush assembled =>
      exact ⟨map_markEnd_framed (fun _ _ => rfl) (List.cons_ne_nil _ _), hcarry⟩

/-- The pieces that the deltas are cut into. -/
def steadyPiecesOf (config : SenderConfig V) (deltas : List (Delta V)) :
    List (FlushPiece V × Dtype) :=
  (deltas.flatMap (Delta.pieces config)).map Prod.fst

theorem exists_delta_of_mem_steadyPiecesOf {deltas : List (Delta V)}
    {piece : FlushPiece V × Dtype} (hpiece : piece ∈ steadyPiecesOf config deltas) :
    ∃ delta ∈ deltas, piece.1 ∈ (bucketSlotDelta delta.dtype.elementSize config.maxEntryElems
      delta.toConsumed).map Prod.fst := by
  rw [steadyPiecesOf, List.map_flatMap] at hpiece
  obtain ⟨delta, hdelta, hpiece⟩ := List.mem_flatMap.mp hpiece
  rw [Delta.pieces, List.map_map] at hpiece
  obtain ⟨sized, hsized, rfl⟩ := List.mem_map.mp hpiece
  exact ⟨delta, hdelta, List.mem_map_of_mem hsized⟩

/-- The changed elements: with a sweep to come none of the messages ends the stream. -/
theorem streamSteady_framed {deltas : List (Delta V)} {verify : Bool}
    {messages : List (WireMessage V)} (hsend : streamSteady config deltas verify = .ok messages) :
    (verify = false → Framed messages) ∧
      (verify = true → ∀ message ∈ messages, message.endsStream = false) ∧
      Carry messages ((steadyPiecesOf config deltas).map (Prod.map .entries id)) := by
  obtain ⟨flushes, hflushes, hsend⟩ := bind_eq_ok.mp hsend
  have hlength : ∀ piece ∈ steadyPiecesOf config deltas,
      piece.1.idx.length = piece.1.val.length := by
    intro piece hpiece
    obtain ⟨delta, _, hmem⟩ := exists_delta_of_mem_steadyPiecesOf hpiece
    exact (of_mem_bucketSlotDelta delta.length_eq hmem).2.2.1
  obtain ⟨assembled, runs, rfl, hruns, hcarries⟩ := forall₂_of_streamAll
    (fun flush run => ∀ isLast, (WireMessage.indexed flush isLast).Carries
      (run.map (Prod.map .entries id)))
    (fun piece : FlushPiece V × Dtype => piece.1.idx.length = piece.1.val.length)
    (fun _ _ hrun hflush => carries_indexed hrun hflush) hflushes hlength
  have hcarry : Carry ((markEnd (!verify) assembled).map fun flush =>
      .indexed flush.1 flush.2) (runs.flatten.map (Prod.map .entries id)) :=
    carry_markEnd (!verify) hcarries
  rw [hruns] at hcarry
  rw [isEmpty_markEnd] at hsend
  obtain rfl := (Except.ok.inj hsend).symm
  cases assembled with
  | nil =>
      cases verify with
      | false => exact ⟨fun _ => framed_singleton rfl, by simp, Carry.terminalEmpty hcarry false⟩
      | true => exact ⟨by simp, by simp, hcarry⟩
  | cons flush assembled =>
      refine ⟨?_, ?_, hcarry⟩
      · rintro rfl
        exact map_markEnd_framed (fun _ _ => rfl) (List.cons_ne_nil _ _)
      · rintro rfl message hmessage
        exact not_endsStream_of_mem_markEnd_false (fun _ _ => rfl) hmessage

/-- What the export of a sync produces: all tensors, or the pieces of the deltas and,
when a sweep is due, all tensors behind them. -/
def exportedPieces (config : SenderConfig V) (state : SenderState)
    (full : List (ExportedTensor V)) (deltas : List (Delta V)) : List (WirePiece V × Dtype) :=
  if !state.shardSeeded then full.map (tensorPiece config)
  else (steadyPiecesOf config deltas).map (Prod.map .entries id) ++
    if (verifyDue config.verifyEvery state.steadyCount).1 then full.map (tensorPiece config)
    else []

theorem sendWeights_framed {state next : SenderState} {full : List (ExportedTensor V)}
    {deltas : List (Delta V)} {messages : List (WireMessage V)}
    (hsend : sendWeights config state full deltas = .ok (messages, next)) :
    Framed messages ∧ Carry messages (exportedPieces config state full deltas) := by
  rw [sendWeights] at hsend
  unfold exportedPieces
  cases hseeded : state.shardSeeded with
  | false =>
      simp only [hseeded, Bool.not_false, if_true] at hsend ⊢
      obtain ⟨_, hseed, hsend⟩ := bind_eq_ok.mp hsend
      obtain ⟨rfl, _⟩ := Prod.mk.inj (Except.ok.inj hsend)
      exact streamFullSeed_framed hseed
  | true =>
      simp only [hseeded, Bool.not_true, Bool.false_eq_true, if_false] at hsend ⊢
      obtain ⟨steady, hsteady, hsend⟩ := bind_eq_ok.mp hsend
      obtain ⟨sweep, hsweep, hsend⟩ := bind_eq_ok.mp hsend
      obtain ⟨rfl, _⟩ := Prod.mk.inj (Except.ok.inj hsend)
      obtain ⟨hlast, hopen, hcarry⟩ := streamSteady_framed hsteady
      cases hverify : (verifyDue config.verifyEvery state.steadyCount).1 with
      | false =>
          rw [hverify, streamSweep, if_neg Bool.false_ne_true] at hsweep
          obtain rfl := Except.ok.inj hsweep
          simpa using And.intro (hlast hverify) hcarry
      | true =>
          rw [hverify, streamSweep, if_pos rfl] at hsweep
          obtain ⟨hframed, htensors⟩ := streamFullSeed_framed hsweep
          exact ⟨hframed.append_left (hopen hverify), hcarry.append htensors⟩

theorem exists_streamFullSeed {full : List (ExportedTensor V)}
    (hnames : (full.map ExportedTensor.name).Nodup) (verify : Bool) :
    ∃ messages, streamFullSeed config full verify = .ok messages := by
  obtain ⟨flushes, hflushes⟩ := exists_streamAll_eq_ok config.bucketSize true
    fun (run : List (ValuesPiece V × Dtype)) (_ : ∀ piece ∈ run, piece ∈ _) =>
      ⟨_, assembleValues_eq config.hash (config.conversion.cat ValuesPiece.map run)⟩
  exact ⟨_, bind_eq_ok.mpr ⟨_, seedPieces_eq_ok.mpr ⟨⟨hnames, by simp⟩, rfl⟩,
    bind_eq_ok.mpr ⟨flushes, hflushes, rfl⟩⟩⟩

theorem exists_streamSteady {deltas : List (Delta V)}
    (hnumel : ∀ delta ∈ deltas, delta.shape.prod < 2 ^ 31) (verify : Bool) :
    ∃ messages, streamSteady config deltas verify = .ok messages := by
  have hassemble : ∀ run, (∀ piece ∈ run, piece ∈ steadyPiecesOf config deltas) →
      ∃ flush, assembleFlush config.hash (config.conversion.cat FlushPiece.map run) =
        .ok flush := by
    refine fun run hrun => ⟨_, assembleFlush_eq_ok.mpr ⟨fun piece hpiece => ?_, rfl⟩⟩
    obtain ⟨tagged, htagged, convert, rfl⟩ := Conversion.exists_of_mem_cat hpiece
    obtain ⟨delta, hdelta, hmem⟩ := exists_delta_of_mem_steadyPiecesOf (hrun tagged htagged)
    change tagged.1.shape.prod < 2 ^ 31
    rw [(of_mem_bucketSlotDelta delta.length_eq hmem).2.1]
    exact hnumel delta hdelta
  obtain ⟨flushes, hflushes⟩ := exists_streamAll_eq_ok config.bucketSize (!verify) hassemble
  exact ⟨_, bind_eq_ok.mpr ⟨flushes, hflushes, rfl⟩⟩

/-- A sync goes through unless a name occurs twice or a tensor is too large. -/
theorem exists_sendWeights {full : List (ExportedTensor V)} {deltas : List (Delta V)}
    (hnames : (full.map ExportedTensor.name).Nodup)
    (hnumel : ∀ delta ∈ deltas, delta.shape.prod < 2 ^ 31) (state : SenderState) :
    ∃ messages next, sendWeights config state full deltas = .ok (messages, next) := by
  unfold sendWeights
  cases state.shardSeeded with
  | false =>
      have hmessages : ∃ messages, streamFullSeed config full false = .ok messages :=
        exists_streamFullSeed hnames false
      obtain ⟨messages, hseed⟩ := hmessages
      exact ⟨messages, _, bind_eq_ok.mpr ⟨messages, hseed, rfl⟩⟩
  | true =>
      generalize hdue : verifyDue config.verifyEvery state.steadyCount = due
      have hmessages : ∃ messages, streamSteady config deltas due.1 = .ok messages :=
        exists_streamSteady hnumel due.1
      have hsweeps : ∃ sweep, streamSweep config full due.1 = .ok sweep := by
        unfold streamSweep
        split
        next => exact exists_streamFullSeed hnames true
        next => exact ⟨[], rfl⟩
      obtain ⟨steady, hsteady⟩ := hmessages
      obtain ⟨sweep, hsweep⟩ := hsweeps
      exact ⟨steady ++ sweep, _, bind_eq_ok.mpr ⟨steady, hsteady,
        bind_eq_ok.mpr ⟨sweep, hsweep, rfl⟩⟩⟩

/-- Every sync sends one stream.  Exactly its final message is one that the receiver
treats as the last, and the receiver consumes the stream and nothing behind it.  The
messages carry what the export produced, once and in order; the values of a message are
those of its pieces when these have one dtype. -/
theorem sync_is_one_stream (config : SenderConfig V) (state : SenderState)
    (full : List (ExportedTensor V)) (deltas : List (Delta V)) :
    ((full.map ExportedTensor.name).Nodup →
      (∀ delta ∈ deltas, delta.shape.prod < 2 ^ 31) →
      ∃ messages next, sendWeights config state full deltas = .ok (messages, next)) ∧
    (∀ messages next, sendWeights config state full deltas = .ok (messages, next) →
      Framed messages ∧
      Carry messages (exportedPieces config state full deltas) ∧
      (messages.flatMap WireMessage.carried).map WirePiece.frame =
        (exportedPieces config state full deltas).map (fun piece => piece.1.frame) ∧
      (∀ dtype, (∀ piece ∈ exportedPieces config state full deltas, piece.2 = dtype) →
        messages.flatMap WireMessage.carried =
          (exportedPieces config state full deltas).map Prod.fst) ∧
      ∀ rest, receiveYielded (messages ++ rest) =
        .ok (messages.filterMap WireMessage.yielded, rest)) ∧
    ∀ delta ∈ deltas,
      (delta.pieces config).flatMap (fun piece => piece.1.1.idx) = delta.idx ∧
        (delta.pieces config).flatMap (fun piece => piece.1.1.val) = delta.val ∧
        ∀ piece ∈ delta.pieces config, piece.1.1.idx.length ≤ config.maxEntryElems := by
  refine ⟨fun hnames hnumel => exists_sendWeights hnames hnumel state, ?_, ?_⟩
  · intro messages next hsend
    obtain ⟨hframed, hcarry⟩ := sendWeights_framed hsend
    exact ⟨hframed, hcarry, hcarry.frames, fun _ hdtype => hcarry.eq_of_uniform hdtype,
      receiveYielded_framed hframed⟩
  · intro delta _
    have hentries := bucketSlotDelta_entries delta.dtype.elementSize config.maxEntryElems_pos
      delta.length_eq
    simp only [Delta.pieces, List.flatMap_map, List.forall_mem_map]
    exact hentries

end Sync

def bfloat16 : Dtype := ⟨"bfloat16", 2, true⟩

def int64 : Dtype := ⟨"int64", 8, false⟩

/-- A sweep after every sync, buckets of eight bytes, and pieces of two entries. -/
def sweepingSender : SenderConfig ℚ where
  rolloutDtype := bfloat16
  conversion := {
    promote := fun first second =>
      if second.isFloatingPoint ∧ ¬ first.isFloatingPoint then second else first
    convert := fun source target value =>
      if source = target ∨ target ≠ bfloat16 then value
      else Rounding.roundToDigits Rounding.bfloat16 value
    promote_self := fun _ => ite_self _
    convert_self := fun _ _ => if_pos (Or.inl rfl) }
  hash := ⟨List.length, List.length⟩
  bucketSize := 8
  maxEntryElems := 2
  verifyEvery := 1
  maxEntryElems_pos := Nat.two_pos

def fourWeights : ExportedTensor ℚ := ⟨"w", bfloat16, [4], [1, 0, 2, 1]⟩

def threeEntries : Delta ℚ where
  name := "w"
  dtypeStr := "bfloat16"
  shape := [4]
  numel := 4
  idx := [0, 2, 3]
  val := [1, 2, 1]
  dtype := bfloat16
  length_eq := rfl

/-- An oversized delta with a sweep behind it. -/
theorem threeEntries_one_stream :
    ∃ messages next, sendWeights sweepingSender ⟨true, 0⟩ [fourWeights] [threeEntries] =
        .ok (messages, next) ∧
      Framed messages ∧ messages.flatMap WireMessage.carried = [
        .entries ⟨"w", "bfloat16", [4], [0, 2], [1, 2]⟩,
        .entries ⟨"w", "bfloat16", [4], [3], [1]⟩,
        .tensor ⟨"w", "bfloat16", [4], [1, 0, 2, 1]⟩] := by
  obtain ⟨hsend, hstream, _⟩ := sync_is_one_stream sweepingSender ⟨true, 0⟩ [fourWeights]
    [threeEntries]
  obtain ⟨messages, next, hmessages⟩ := hsend (by simp) (by simp [threeEntries])
  obtain ⟨hframed, _, _, hcarried, _⟩ := hstream messages next hmessages
  exact ⟨messages, next, hmessages, hframed, hcarried bfloat16 (by decide)⟩

/-- Next to a `bfloat16` weight, a counter of 257 steps is sent as 256. -/
theorem counter_rounded_in_bucket :
    ∃ messages next, sendWeights { sweepingSender with bucketSize := 64 } ⟨false, 0⟩
        [fourWeights, ⟨"steps", int64, [1], [257]⟩] [] = .ok (messages, next) ∧
      (exportedPieces { sweepingSender with bucketSize := 64 } ⟨false, 0⟩
        [fourWeights, ⟨"steps", int64, [1], [257]⟩] []).map Prod.fst = [
          .tensor ⟨"w", "bfloat16", [4], [1, 0, 2, 1]⟩, .tensor ⟨"steps", "int64", [1], [257]⟩] ∧
      messages.flatMap WireMessage.carried = [
        .tensor ⟨"w", "bfloat16", [4], [1, 0, 2, 1]⟩,
        .tensor ⟨"steps", "int64", [1], [256]⟩] := by
  refine ⟨_, _, rfl, rfl, ?_⟩
  decide +kernel

end OneShotOPD.DeltaSync
