import OneShotOPD.DeltaSync.Stream
import OneShotOPD.Core.Literals
import Mathlib

/-!
# Weight syncs

The first sync of a run sends all weights, and every later one what has changed
on the shard of each rank since the sync before.  After every sync the receiver
holds the weights of the trainer.
-/

namespace OneShotOPD.DeltaSync

open Checks Lockstep Patch

variable {Group V : Type} {peers : ℕ}

structure SyncConfig where
  batchGather : ℤ
  maxRoundBytes : ℤ
  bucketSize : ℤ
  maxEntryElems : ℕ
  maxEntryElems_pos : 0 < maxEntryElems

/-- What stays the same during a run. -/
structure Setup (peers : ℕ) (Group V : Type) where
  config : SyncConfig
  float : FloatType V
  hash : HashTensor V
  loader : Loader V
  params : List (Param peers Group)

structure SyncState (peers : ℕ) (V : Type) where
  shardSeeded : Bool
  snaps : Fin (peers + 1) → Dict String (List V)
  receiver : String → Tensor V
  inbox : List (Message V)

namespace Setup

variable (setup : Setup peers Group V)

def queueConfig : QueueConfig V where
  batchGather := setup.config.batchGather
  maxRoundBytes := setup.config.maxRoundBytes
  perElem := 4 + setup.float.elementSize
  zero := setup.float.zero

def names : List String := setup.params.map Param.name

/-- `get_per_tensor_param`. -/
def getPerTensorParam (weights : String → List V) : List (String × Tensor V) :=
  setup.params.map fun param => (param.name, ⟨param.shape, weights param.name⟩)

def receive (state : SyncState peers V) (messages : List (Message V)) :
    Except SyncError ((String → Tensor V) × List (Message V)) :=
  receiveWeights (applyDelta setup.float setup.hash setup.loader) state.receiver
    (state.inbox ++ messages)

variable [DecidableEq V] [DecidableEq Group]

/-- `send_weights` on all ranks, together with the receiver. -/
inductive Sync (state : SyncState peers V) (weights : String → List V) :
    SyncState peers V → Prop
  | seed {messages inbox : List (Message V)} {receiver : String → Tensor V}
      (hseeded : state.shardSeeded = false)
      (hsend : sendFullSeed setup.float setup.hash setup.config.bucketSize
        (setup.getPerTensorParam weights) = .ok messages)
      (hreceive : setup.receive state messages = .ok (receiver, inbox)) :
      Sync state weights {
        shardSeeded := true
        snaps rank := primeDeltaSnapshots setup.float rank weights setup.params
          (state.snaps rank)
        receiver
        inbox }
  | steady {exports : Fin (peers + 1) → List (Option Group × Entry V)}
      {snaps : Fin (peers + 1) → Dict String (List V)} {trace : List (Collective Group)}
      {consumed : Fin (peers + 1) → List (Consumed V)} {messages inbox : List (Message V)}
      {receiver : String → Tensor V}
      (hseeded : state.shardSeeded = true)
      (hexport : ∀ rank, hfDeltaExport setup.float rank weights setup.params
        (state.snaps rank) = .ok (exports rank, snaps rank))
      (hgather : Joint (exchange Group V)
        (fun rank => gatherExports rank setup.queueConfig (exports rank)) trace consumed)
      (hsend : sendSteady setup.float setup.hash setup.config.bucketSize
        setup.config.maxEntryElems (consumed 0) = .ok messages)
      (hreceive : setup.receive state messages = .ok (receiver, inbox)) :
      Sync state weights { shardSeeded := true, snaps, receiver, inbox }

/-- Before the first sync, the receiver has tensors of the right shapes. -/
structure Start (state : SyncState peers V) : Prop where
  not_seeded : state.shardSeeded = false
  shapes : ∀ param ∈ setup.params, (state.receiver param.name).shape = param.shape
  inbox_nil : state.inbox = []

/-- The new weights have the shapes of the parameters, and none of their changed
values is NaN. -/
structure Update (previous : Option (String → List V)) (weights : String → List V) :
    Prop where
  length_eq : ∀ param ∈ setup.params, (weights param.name).length = param.numel
  not_nan : ∀ old ∈ previous, ∀ param ∈ setup.params, ∀ (position : ℕ) (value : V),
    (weights param.name)[position]? = some value →
      (old param.name)[position]? ≠ some value → setup.float.isNaN value = false

/-- The runs with their updates. -/
inductive Run (start : SyncState peers V) :
    List (String → List V) → SyncState peers V → Prop
  | start (hstart : setup.Start start) : Run start [] start
  | sync {updates : List (String → List V)} {weights : String → List V}
      {state next : SyncState peers V} (hrun : Run start updates state)
      (hupdate : setup.Update updates.getLast? weights)
      (hsync : setup.Sync state weights next) : Run start (updates ++ [weights]) next

end Setup

/-! ## What rank 0 hands on -/

variable [DecidableEq V]

attribute [local instance (2000)] Literals.neZero_succ in
def deliveredEntries (float : FloatType V) (param : Param peers Group) (old new : List V) :
    List (ℤ × V) :=
  match (param.placement 0).2.2 with
  | none => changedEntries float param old new 0
  | some _ => (List.finRange (peers + 1)).flatMap (changedEntries float param old new)

def consumedOf (float : FloatType V) (param : Param peers Group) (old new : List V) :
    Consumed V :=
  consume ⟨param.name, param.shape⟩ float.name
    ((deliveredEntries float param old new).map Prod.fst)
    ((deliveredEntries float param old new).map Prod.snd)

theorem consumed_exportOf (float : FloatType V) (param : Param peers Group)
    (old new : List V) :
    (exportOf float param old new).2.consumed (exportOf float param old new).1 =
      [consumedOf float param old new] := by
  cases hgroup : (param.placement 0).2.2 <;>
    simp [exportOf, Export.consumed, Export.delivered, consumedOf, deliveredEntries, hgroup,
      gathered]

theorem zip_consumedOf (float : FloatType V) (param : Param peers Group)
    (old new : List V) :
    (consumedOf float param old new).idx.zip (consumedOf float param old new).val =
      deliveredEntries float param old new := by
  simp [consumedOf, consume, List.zip_map']

section Delivered

variable {float : FloatType V} {param : Param peers Group} {old new : List V}

theorem exists_rank_of_mem_deliveredEntries {entry : ℤ × V}
    (hentry : entry ∈ deliveredEntries float param old new) :
    ∃ rank, entry ∈ changedEntries float param old new rank := by
  rw [deliveredEntries] at hentry
  split at hentry
  next => exact ⟨0, hentry⟩
  next =>
    obtain ⟨rank, _, hmem⟩ := List.mem_flatMap.mp hentry
    exact ⟨rank, hmem⟩

/-- Every changed position is handed on. -/
theorem mem_deliveredEntries (hold : old.length = param.numel)
    (hnew : new.length = param.numel) {position : ℕ} (hposition : position < param.numel)
    (hchanged : new[position]? ≠ old[position]?) :
    toInt32 position ∈ (deliveredEntries float param old new).map Prod.fst := by
  obtain ⟨rank, hfirst, hmem⟩ :=
    exists_mem_changedEntries float param hold hnew hposition hchanged
  rw [deliveredEntries]
  cases hsharding : param.sharding with
  | none =>
      obtain rfl := hfirst hsharding
      simpa [Param.placement, hsharding] using hmem
  | some sharding =>
      obtain ⟨entry, hentry, hfst⟩ := List.mem_map.mp hmem
      have hgroup : (param.placement 0).2.2 = some sharding.group := by
        simp [Param.placement, hsharding]
      rw [hgroup]
      exact List.mem_map.mpr
        ⟨entry, List.mem_flatMap.mpr ⟨rank, List.mem_finRange rank, hentry⟩, hfst⟩

end Delivered

namespace Setup

variable (setup : Setup peers Group V) [DecidableEq Group]

/-- What rank 0 hands on in a steady sync. -/
def steadyConsumed (old new : String → List V) : List (Consumed V) :=
  (Batches.run setup.queueConfig.batchK (setup.params.map fun param =>
    exportOf setup.float param (old param.name) (new param.name))).flatMap fun item =>
      item.2.consumed item.1

def steadyPieces (old new : String → List V) : List (FlushPiece V × ℕ) :=
  (setup.steadyConsumed old new).flatMap
    (bucketSlotDelta setup.float.elementSize setup.config.maxEntryElems)

variable {setup} {old new : String → List V}

/-- In whatever order the parameters are gathered, each of them is handed on. -/
theorem mem_steadyConsumed {consumed : Consumed V} :
    consumed ∈ setup.steadyConsumed old new ↔ ∃ param ∈ setup.params,
      consumed = consumedOf setup.float param (old param.name) (new param.name) := by
  rw [steadyConsumed, List.mem_flatMap]
  simp only [Batches.mem_run, List.mem_map]
  constructor
  · rintro ⟨_, ⟨param, hparam, rfl⟩, hmem⟩
    rw [consumed_exportOf] at hmem
    exact ⟨param, hparam, List.mem_singleton.mp hmem⟩
  · rintro ⟨param, hparam, rfl⟩
    refine ⟨_, ⟨param, hparam, rfl⟩, ?_⟩
    rw [consumed_exportOf]
    exact List.mem_singleton.mpr rfl

theorem of_mem_steadyPieces {piece : FlushPiece V}
    (hpiece : piece ∈ (setup.steadyPieces old new).map Prod.fst) :
    ∃ param ∈ setup.params, piece ∈
      (bucketSlotDelta setup.float.elementSize setup.config.maxEntryElems
      (consumedOf setup.float param (old param.name) (new param.name))).map Prod.fst := by
  rw [steadyPieces, List.map_flatMap] at hpiece
  obtain ⟨consumed, hconsumed, hmem⟩ := List.mem_flatMap.mp hpiece
  obtain ⟨param, hparam, rfl⟩ := mem_steadyConsumed.mp hconsumed
  exact ⟨param, hparam, hmem⟩

/-- The pieces of a sync hold elements of the new weights. -/
theorem faithful_of_mem_steadyPieces
    (hold : ∀ param ∈ setup.params, (old param.name).length = param.numel)
    (hupdate : setup.Update (some old) new) {piece : FlushPiece V}
    (hpiece : piece ∈ (setup.steadyPieces old new).map Prod.fst)
    (hnumel : piece.shape.prod < 2 ^ 31) :
    piece.Faithful setup.float (new piece.name) ∧
      ∃ param ∈ setup.params, piece.name = param.name ∧ piece.shape = param.shape := by
  obtain ⟨param, hparam, hmem⟩ := of_mem_steadyPieces hpiece
  have hconsumed : (consumedOf setup.float param (old param.name) (new param.name)).idx.length =
      (consumedOf setup.float param (old param.name) (new param.name)).val.length := by
    simp [consumedOf, consume]
  obtain ⟨hname, hshape, hlength, hentries⟩ := of_mem_bucketSlotDelta hconsumed hmem
  rw [zip_consumedOf] at hentries
  change piece.name = param.name at hname
  change piece.shape = param.shape at hshape
  have hsmall : param.numel < 2 ^ 31 := by
    rwa [hshape] at hnumel
  have hnew := hupdate.length_eq param hparam
  have hpositions : ∀ entry ∈ piece.idx.zip piece.val, ∃ position : ℕ, entry.1 = position ∧
      (new param.name)[position]? = some entry.2 ∧
      (old param.name)[position]? ≠ some entry.2 := by
    intro entry hentry
    obtain ⟨rank, hrank⟩ := exists_rank_of_mem_deliveredEntries (hentries entry hentry)
    obtain ⟨position, _, hindex, hvalue, hchanged⟩ := mem_changedEntries setup.float param
      rank hsmall (hold param hparam) hnew hrank
    exact ⟨position, hindex, hvalue, hchanged⟩
  refine ⟨⟨hlength, fun entry hentry => ?_, fun value hvalue => ?_, ?_⟩, param, hparam,
    hname, hshape⟩
  · obtain ⟨position, hindex, hvalue, _⟩ := hpositions entry hentry
    exact ⟨position, hindex, hname ▸ hvalue⟩
  · rw [← List.map_snd_zip hlength.ge] at hvalue
    obtain ⟨entry, hentry, rfl⟩ := List.mem_map.mp hvalue
    obtain ⟨position, _, hvalue, hchanged⟩ := hpositions entry hentry
    exact hupdate.not_nan old rfl param hparam position entry.2 hvalue hchanged
  · rw [hname, hnew, hshape]
    rfl

/-- No change is lost on the way to the flushes. -/
theorem mem_touched_steadyPieces
    (hold : ∀ param ∈ setup.params, (old param.name).length = param.numel)
    (hnew : ∀ param ∈ setup.params, (new param.name).length = param.numel)
    (hnumel : ∀ piece ∈ (setup.steadyPieces old new).map Prod.fst,
      piece.shape.prod < 2 ^ 31) {param : Param peers Group} (hparam : param ∈ setup.params)
    {position : ℕ} (hchanged : (new param.name)[position]? ≠ (old param.name)[position]?) :
    (position : ℤ) ∈ touched param.name ((setup.steadyPieces old new).map Prod.fst) := by
  have hposition : position < param.numel := by
    by_contra hge
    rw [List.getElem?_eq_none (by rw [hnew param hparam]; omega),
      List.getElem?_eq_none (by rw [hold param hparam]; omega)] at hchanged
    exact hchanged rfl
  have hdelivered : toInt32 position ∈
      (consumedOf setup.float param (old param.name) (new param.name)).idx :=
    mem_deliveredEntries (hold param hparam) (hnew param hparam) hposition hchanged
  obtain ⟨piece, hpiece, hname, hshape, hindex⟩ :=
      exists_mem_bucketSlotDelta setup.float.elementSize
    setup.config.maxEntryElems_pos hdelivered
  change piece.name = param.name at hname
  change piece.shape = param.shape at hshape
  have hmem : piece ∈ (setup.steadyPieces old new).map Prod.fst := by
    rw [steadyPieces, List.map_flatMap]
    exact List.mem_flatMap.mpr ⟨_, mem_steadyConsumed.mpr ⟨param, hparam, rfl⟩, hpiece⟩
  have hsmall : param.numel < 2 ^ 31 := by
    have hlt := hnumel piece hmem
    rwa [hshape] at hlt
  rw [toInt32_eq (hposition.trans hsmall)] at hindex
  refine List.mem_flatMap.mpr ⟨piece, hmem, ?_⟩
  rw [if_pos hname]
  exact hindex

/-! ## One sync -/

/-- The receiver holds the weights, and every rank has its shards of them as
its snapshots. -/
structure Synced (setup : Setup peers Group V) (start : SyncState peers V)
    (weights : String → List V) (state : SyncState peers V) : Prop where
  seeded : state.shardSeeded = true
  names_nodup : setup.names.Nodup
  length_eq : ∀ param ∈ setup.params, (weights param.name).length = param.numel
  primed : ∀ rank, Primed setup.float setup.params weights rank (state.snaps rank)
  inbox_nil : state.inbox = []
  receiver_eq : ∀ param ∈ setup.params,
    state.receiver param.name = ⟨param.shape, weights param.name⟩
  receiver_eq_start : ∀ name ∉ setup.names, state.receiver name = start.receiver name

section Seed

variable {start : SyncState peers V} {weights : String → List V}

/-- The pieces of a seed. -/
def fullPieces (setup : Setup peers Group V) (weights : String → List V) :
    List (ValuesPiece V × ℕ) :=
  (setup.getPerTensorParam weights).map (seedPiece setup.float)

omit [DecidableEq V] [DecidableEq Group] in
theorem names_fullPieces :
    ((setup.fullPieces weights).map Prod.fst).map ValuesPiece.name = setup.names := by
  simp [fullPieces, seedPiece, getPerTensorParam, names, Function.comp_def]

omit [DecidableEq V] [DecidableEq Group] in
theorem mem_fullPieces {piece : ValuesPiece V} :
    piece ∈ (setup.fullPieces weights).map Prod.fst ↔ ∃ param ∈ setup.params,
      piece = { name := param.name
                dtypeStr := setup.float.name
                shape := param.shape
                flat := weights param.name } := by
  simp [fullPieces, seedPiece, getPerTensorParam, eq_comm]

omit [DecidableEq V] [DecidableEq Group] in
theorem sendFullSeed_eq_ok {messages : List (Message V)} :
    sendFullSeed setup.float setup.hash setup.config.bucketSize
        (setup.getPerTensorParam weights) = .ok messages ↔
      setup.names.Nodup ∧ ∃ flushes, streamAll setup.config.bucketSize
        (assembleValues setup.hash) (setup.fullPieces weights) true = .ok flushes ∧
          messages = publish .dense flushes := by
  have hnames : (setup.getPerTensorParam weights).map Prod.fst = setup.names := by
    simp [getPerTensorParam, names, Function.comp_def]
  rw [sendFullSeed, bind_eq_ok]
  simp only [seedPieces_eq_ok, hnames, bind_eq_ok]
  constructor
  · rintro ⟨_, ⟨⟨hnodup, _⟩, rfl⟩, flushes, hflushes, hmessages⟩
    exact ⟨hnodup, flushes, hflushes, (Except.ok.inj hmessages).symm⟩
  · rintro ⟨hnodup, flushes, hflushes, rfl⟩
    exact ⟨_, ⟨⟨hnodup, by simp⟩, rfl⟩, flushes, hflushes, rfl⟩

omit [DecidableEq V] [DecidableEq Group] in
/-- The receiver replaces all parameters. -/
theorem receive_seed (hstart : setup.Start start) (hupdate : setup.Update none weights)
    {flushes : List (DeltaFlush V × Bool)} (hpublish : streamAll setup.config.bucketSize
      (assembleValues setup.hash) (setup.fullPieces weights) true = .ok flushes) :
    setup.receive start (publish .dense flushes) =
      .ok (placeModel ((setup.fullPieces weights).map Prod.fst) start.receiver, []) := by
  have hpieces : ∀ piece ∈ (setup.fullPieces weights).map Prod.fst,
      piece.Fits start.receiver := by
    intro piece hpiece
    obtain ⟨param, hparam, rfl⟩ := mem_fullPieces.mp hpiece
    exact ⟨hstart.shapes param hparam, hupdate.length_eq param hparam⟩
  have hreceive := receiveWeights_streamAll placeModel
    (fun model (piece : ValuesPiece V) => piece.Fits model)
    (fun _ => rfl) (fun _ _ _ => List.foldl_append)
    (fun _ _ _ hfits hrun => hfits.placeModel hrun)
    (fun _ _ _ hrun hflush => applyDelta_assembleValues setup.float setup.hash setup.loader
      hrun hflush) hpublish hpieces []
  rw [receive, hstart.inbox_nil, List.nil_append]
  rwa [List.append_nil] at hreceive

theorem synced_of_seed (hstart : setup.Start start) (hupdate : setup.Update none weights)
    {next : SyncState peers V} (hsync : setup.Sync start weights next) :
    setup.Synced start weights next := by
  cases hsync with
  | steady hseeded =>
      rw [hstart.not_seeded] at hseeded
      contradiction
  | seed _ hsend hreceive =>
      obtain ⟨hnodup, flushes, hflushes, rfl⟩ := sendFullSeed_eq_ok.mp hsend
      rw [receive_seed hstart hupdate hflushes] at hreceive
      obtain ⟨rfl, rfl⟩ := Prod.mk.inj (Except.ok.inj hreceive)
      refine ⟨rfl, hnodup, hupdate.length_eq, fun rank => ?_, rfl, fun param hparam => ?_,
        fun name hname => ?_⟩
      · exact primed_primeDeltaSnapshots setup.float rank weights hnodup _
      · exact placeModel_of_mem (names_fullPieces ▸ hnodup)
          (mem_fullPieces.mpr ⟨param, hparam, rfl⟩) start.receiver
      · exact placeModel_of_not_mem (names_fullPieces ▸ hname) start.receiver

/-- The seed never fails when the names are distinct. -/
theorem exists_seed (hstart : setup.Start start) (hnodup : setup.names.Nodup)
    (hupdate : setup.Update none weights) : ∃ next, setup.Sync start weights next := by
  have hassemble : ∀ run, (∀ piece ∈ run, piece ∈ (setup.fullPieces weights).map Prod.fst) →
      ∃ flush, assembleValues setup.hash run = .ok flush :=
    fun run _ => ⟨_, assembleValues_eq setup.hash run⟩
  obtain ⟨flushes, hflushes⟩ := exists_streamAll_eq_ok setup.config.bucketSize true hassemble
  exact ⟨_, .seed hstart.not_seeded (sendFullSeed_eq_ok.mpr ⟨hnodup, flushes, hflushes, rfl⟩)
    (receive_seed hstart hupdate hflushes)⟩

end Seed

section Steady

variable {start state : SyncState peers V}

/-- The receiver takes over the changed elements. -/
theorem receive_steady (hsynced : setup.Synced start old state)
    (hupdate : setup.Update (some old) new) {flushes : List (DeltaFlush V × Bool)}
    (hpublish : streamAll setup.config.bucketSize (assembleFlush setup.hash)
      (setup.steadyPieces old new) true = .ok flushes) :
    setup.receive state (publish .indices flushes) =
      .ok (patchModel new ((setup.steadyPieces old new).map Prod.fst) state.receiver, []) := by
  have hpieces : ∀ piece ∈ (setup.steadyPieces old new).map Prod.fst,
      piece.Faithful setup.float (new piece.name) ∧ piece.Fits state.receiver := by
    intro piece hpiece
    obtain ⟨run, flush, hmem, hflush⟩ := exists_assemble_of_streamAll hpublish hpiece
    have hnumel := (assembleFlush_eq_ok.mp hflush).1 piece hmem
    obtain ⟨hfaithful, param, hparam, hname, hshape⟩ :=
      faithful_of_mem_steadyPieces hsynced.length_eq hupdate hpiece hnumel
    refine ⟨hfaithful, ?_⟩
    rw [FlushPiece.Fits, hname, hshape, hsynced.receiver_eq param hparam]
    exact ⟨rfl, hsynced.length_eq param hparam⟩
  have hreceive := receiveWeights_streamAll (patchModel new)
    (fun model (piece : FlushPiece V) =>
      piece.Faithful setup.float (new piece.name) ∧ piece.Fits model)
    (fun model => funext fun name => by simp [patchModel, touched])
    (patchModel_append new)
    (fun _ run _ hfits _ => ⟨hfits.1, hfits.2.patchModel new run⟩)
    (fun _ _ _ hrun hflush => applyDelta_assembleFlush setup.float setup.hash setup.loader new
      (fun piece hpiece => (hrun piece hpiece).1) (fun piece hpiece => (hrun piece hpiece).2)
      hflush) hpublish hpieces []
  rw [receive, hsynced.inbox_nil, List.nil_append]
  rwa [List.append_nil] at hreceive

/-- All ranks export, gather and hand on what they should. -/
theorem exports_and_gather (hsynced : setup.Synced start old state)
    (hupdate : setup.Update (some old) new) :
    (∀ rank, hfDeltaExport setup.float rank new setup.params (state.snaps rank) =
      .ok ((setup.params.map fun param => exportOf setup.float param (old param.name)
          (new param.name)).map fun item => (item.1, item.2.entry rank),
        primeDeltaSnapshots setup.float rank new setup.params (state.snaps rank))) ∧
    ∃ trace, Joint (exchange Group V)
      (fun rank => gatherExports rank setup.queueConfig
        ((setup.params.map fun param => exportOf setup.float param (old param.name)
          (new param.name)).map fun item => (item.1, item.2.entry rank))) trace
      (fun rank => if rank = 0 then setup.steadyConsumed old new else []) := by
  refine ⟨fun rank => hfDeltaExport_eq setup.float rank old new hsynced.names_nodup
    (fun param hparam => ?_) (hsynced.primed rank), gatherExports_joint _ _⟩
  rw [hsynced.length_eq param hparam, hupdate.length_eq param hparam]

theorem synced_of_steady (hsynced : setup.Synced start old state)
    (hupdate : setup.Update (some old) new) {next : SyncState peers V}
    (hsync : setup.Sync state new next) : setup.Synced start new next := by
  cases hsync with
  | seed hseeded =>
      rw [hsynced.seeded] at hseeded
      contradiction
  | @steady exports snaps trace consumed messages inbox receiver _ hexport hgather hsend
      hreceive =>
      obtain ⟨hexports, _, hjoint⟩ := exports_and_gather hsynced hupdate
      have hrank : ∀ rank, exports rank = _ ∧ snaps rank = _ := fun rank =>
        Prod.mk.inj (Except.ok.inj ((hexport rank).symm.trans (hexports rank)))
      obtain rfl := funext fun rank => (hrank rank).1
      obtain rfl := funext fun rank => (hrank rank).2
      obtain ⟨_, rfl⟩ := hgather.unique hjoint
      obtain ⟨flushes, hflushes, hmessages⟩ := bind_eq_ok.mp hsend
      obtain rfl := (Except.ok.inj hmessages).symm
      have hpublish : streamAll setup.config.bucketSize (assembleFlush setup.hash)
          (setup.steadyPieces old new) true = .ok flushes := hflushes
      have hnumel : ∀ piece ∈ (setup.steadyPieces old new).map Prod.fst,
          piece.shape.prod < 2 ^ 31 := by
        intro piece hpiece
        obtain ⟨run, flush, hmem, hflush⟩ := exists_assemble_of_streamAll hpublish hpiece
        exact (assembleFlush_eq_ok.mp hflush).1 piece hmem
      rw [receive_steady hsynced hupdate hpublish] at hreceive
      obtain ⟨rfl, rfl⟩ := Prod.mk.inj (Except.ok.inj hreceive)
      refine ⟨rfl, hsynced.names_nodup, hupdate.length_eq, fun rank => ?_, rfl,
        fun param hparam => ?_, fun name hname => ?_⟩
      · exact primed_primeDeltaSnapshots setup.float rank new hsynced.names_nodup _
      · have hlength := (hsynced.length_eq param hparam).trans
          (hupdate.length_eq param hparam).symm
        simp only [patchModel, hsynced.receiver_eq param hparam]
        rw [patch_eq_target hlength fun position hchanged =>
          mem_touched_steadyPieces hsynced.length_eq hupdate.length_eq hnumel hparam hchanged]
      · have htouched : touched name ((setup.steadyPieces old new).map Prod.fst) = [] := by
          refine List.flatMap_eq_nil_iff.mpr fun piece hpiece => if_neg fun heq => hname ?_
          obtain ⟨_, param, hparam, hpieceName, _⟩ := faithful_of_mem_steadyPieces
            hsynced.length_eq hupdate hpiece (hnumel piece hpiece)
          exact List.mem_map.mpr ⟨param, hparam, hpieceName.symm.trans heq⟩
        simp only [patchModel, htouched, patch_nil]
        exact hsynced.receiver_eq_start name hname

/-- A steady sync fails only on a parameter that is too large. -/
theorem exists_steady (hsynced : setup.Synced start old state)
    (hupdate : setup.Update (some old) new)
    (hnumel : ∀ param ∈ setup.params, param.numel < 2 ^ 31) :
    ∃ next, setup.Sync state new next := by
  obtain ⟨hexports, _, hjoint⟩ := exports_and_gather hsynced hupdate
  have hassemble : ∀ run, (∀ piece ∈ run, piece ∈ (setup.steadyPieces old new).map Prod.fst) →
      ∃ flush, assembleFlush setup.hash run = .ok flush := by
    refine fun run hrun => ⟨_, assembleFlush_eq_ok.mpr ⟨fun piece hpiece => ?_, rfl⟩⟩
    obtain ⟨param, hparam, hmem⟩ := of_mem_steadyPieces (hrun piece hpiece)
    have hconsumed : (consumedOf setup.float param (old param.name) (new param.name)).idx.length =
        (consumedOf setup.float param (old param.name) (new param.name)).val.length := by
      simp [consumedOf, consume]
    rw [(of_mem_bucketSlotDelta hconsumed hmem).2.1]
    exact hnumel param hparam
  obtain ⟨flushes, hflushes⟩ := exists_streamAll_eq_ok setup.config.bucketSize true hassemble
  exact ⟨_, .steady hsynced.seeded hexports hjoint
    (bind_eq_ok.mpr ⟨flushes, hflushes, rfl⟩) (receive_steady hsynced hupdate hflushes)⟩

end Steady

/-! ## Whole runs -/

variable {start state : SyncState peers V} {updates : List (String → List V)}

/-- Every run is at its start or in sync with its last update. -/
theorem Run.synced (hrun : setup.Run start updates state) :
    (updates = [] ∧ state = start ∧ setup.Start start) ∨
      ∃ weights, updates.getLast? = some weights ∧ setup.Synced start weights state := by
  induction hrun with
  | start hstart => exact .inl ⟨rfl, rfl, hstart⟩
  | @sync updates weights state next _ hupdate hsync ih =>
      refine .inr ⟨weights, List.getLast?_concat, ?_⟩
      rcases ih with ⟨rfl, rfl, hstart⟩ | ⟨previous, hprevious, hsynced⟩
      · exact synced_of_seed hstart hupdate hsync
      · rw [hprevious] at hupdate
        exact synced_of_steady hsynced hupdate hsync

/-- After every sync the receiver holds the weights of the trainer, and tensors
that are no parameters are as they were.  A sync can fail only because a name
occurs twice or a parameter is too large. -/
theorem receiver_eq_trainer (setup : Setup peers Group V) (start state : SyncState peers V)
    (updates : List (String → List V)) (hrun : setup.Run start updates state) :
    (∀ weights, updates.getLast? = some weights →
      (∀ param ∈ setup.params, state.receiver param.name = ⟨param.shape, weights param.name⟩) ∧
        ∀ name ∉ setup.names, state.receiver name = start.receiver name) ∧
    (setup.names.Nodup → (∀ param ∈ setup.params, param.numel < 2 ^ 31) →
      ∀ weights, setup.Update updates.getLast? weights →
        ∃ next, setup.Sync state weights next) := by
  refine ⟨fun weights hlast => ?_, fun hnodup hnumel weights hupdate => ?_⟩
  · rcases hrun.synced with ⟨rfl, _⟩ | ⟨_, hprevious, hsynced⟩
    · simp at hlast
    · obtain rfl := Option.some.inj (hprevious.symm.trans hlast)
      exact ⟨hsynced.receiver_eq, hsynced.receiver_eq_start⟩
  · rcases hrun.synced with ⟨rfl, rfl, hstart⟩ | ⟨_, hprevious, hsynced⟩
    · exact exists_seed hstart hnodup hupdate
    · rw [hprevious] at hupdate
      exact exists_steady hsynced hupdate hnumel

end Setup

theorem halves_partition (coords : List ℕ) (hbounds : RowMajor.InBounds [2] coords) :
    ∃! rank : Fin (1 + 1), true = true ∧ RowMajor.Covers [1] [(rank : ℕ)] coords := by
  simp only [true_and]
  exact RowMajor.existsUnique_covers_row hbounds

/-- A vector of two elements, of which either rank holds one. -/
def halves : Param 1 Unit where
  name := "w"
  shape := [2]
  sharding := some {
    group := ()
    block rank := ⟨[1], [rank], [2], RowMajor.within_row rank []⟩
    contributes _ := true
    block_shape _ := rfl
    partition := halves_partition }

theorem two_supported : 2 ∈ [1, 2, 4, 8] := by
  decide

theorem nan_isNaN : decide ((3 : Fin 4) = 3) = true := by
  decide

attribute [local instance] Literals.neZero_four in
def twoRanks : Setup 1 Unit (Fin 4) where
  config := ⟨32, 0, 0, 1, Nat.one_pos⟩
  float := ⟨"bfloat16", 2, two_supported, 0, 3, fun value => value = 3, nan_isNaN⟩
  hash := ⟨List.length, List.length⟩
  loader := {
    copy := fun _ src => src
    copy_eq := fun _ _ _ => rfl
    loadWeights := fun copy model chunk => chunk.foldl (fun model loaded =>
      Function.update model loaded.1 (copy (model loaded.1) loaded.2)) model
    lands := fun _ _ _ => rfl }
  params := [halves]

attribute [local instance] Literals.neZero_four in
def twoRanksStart : SyncState 1 (Fin 4) where
  shardSeeded := false
  snaps _ := .empty
  receiver _ := ⟨[2], [0, 0]⟩
  inbox := []

theorem twoRanks_update (previous : Option (String → List (Fin 4))) {weights : List (Fin 4)}
    (hlength : weights.length = 2) (hnan : 3 ∉ weights) :
    twoRanks.Update previous fun _ => weights where
  length_eq param hparam := by
    obtain rfl := List.mem_singleton.mp hparam
    exact hlength
  not_nan _ _ _ _ _ value hvalue _ :=
    decide_eq_false fun hthree => hnan (hthree ▸ List.mem_of_getElem? hvalue)

/-- A seed and a steady sync of one changed element. -/
theorem twoRanks_receiver_eq_trainer :
    ∃ state, twoRanks.Run twoRanksStart [fun _ => [1, 2], fun _ => [1, 0]] state ∧
      state.receiver "w" = ⟨[2], [1, 0]⟩ := by
  have hparams : ∀ param ∈ twoRanks.params, param.numel < 2 ^ 31 := by
    intro param hparam
    obtain rfl := List.mem_singleton.mp hparam
    decide
  have hstart : twoRanks.Run twoRanksStart [] twoRanksStart := by
    refine .start ⟨rfl, fun param hparam => ?_, rfl⟩
    obtain rfl := List.mem_singleton.mp hparam
    rfl
  have hfirst : twoRanks.Update none fun _ => [1, 2] := twoRanks_update _ rfl (by decide)
  have hsecond : twoRanks.Update (some fun _ => [1, 2]) fun _ => [1, 0] :=
    twoRanks_update _ rfl (by decide)
  obtain ⟨seeded, hseed⟩ := (twoRanks.receiver_eq_trainer twoRanksStart twoRanksStart []
    hstart).2 (by decide) hparams _ hfirst
  have hseeded := hstart.sync hfirst hseed
  obtain ⟨state, hsteady⟩ := (twoRanks.receiver_eq_trainer twoRanksStart seeded _
    hseeded).2 (by decide) hparams _ hsecond
  have hrun := hseeded.sync hsecond hsteady
  exact ⟨state, hrun, ((twoRanks.receiver_eq_trainer twoRanksStart state _ hrun).1 _ rfl).1
    halves (List.mem_singleton.mpr rfl)⟩

end OneShotOPD.DeltaSync
