import OneShotOPD.DeltaSync.SparseGather
import OneShotOPD.Core.Batching
import OneShotOPD.Core.Literals
import Mathlib

/-!
# The gather queue

Exported entries are queued by their process group and gathered in batches.  A
queue is flushed when it holds a number of entries, which all ranks count alike
however many elements have changed on each of them.
-/

namespace OneShotOPD.DeltaSync

open Lockstep Segments

variable {Group V : Type} {peers : ℕ}

/-- What one rank exports for one parameter: the entries of all slots one after
the other, with their number per slot. -/
structure Entry (V : Type) where
  slots : List Slot
  dtypeStr : String
  counts : List ℕ
  idx : List ℤ
  val : List V

/-- The arguments of a call of `consume`. -/
structure Consumed (V : Type) where
  name : String
  dtypeStr : String
  shape : List ℕ
  numel : ℕ
  idx : List ℤ
  val : List V
  deriving DecidableEq

structure QueueConfig (V : Type) where
  batchGather : ℤ
  maxRoundBytes : ℤ
  /-- The bytes of a position and a value. -/
  perElem : ℕ
  zero : V

def QueueConfig.batchK (config : QueueConfig V) : ℕ := (max config.batchGather 1).toNat

structure GatherQueue (Group V : Type) where
  queues : Dict (Option Group) (List (Entry V))
  consumed : List (Consumed V)

def consume (slot : Slot) (dtypeStr : String) (idx : List ℤ) (val : List V) : Consumed V where
  name := slot.name
  dtypeStr
  shape := slot.shape
  numel := slot.shape.prod
  idx
  val

/-- Without a group the own entries are the global ones. -/
def consumeLocal (entry : Entry V) : List (Consumed V) :=
  (entry.slots.zipIdx).map fun (slot, i) =>
    consume slot entry.dtypeStr
      (slice (offset entry.counts i) (offset entry.counts (i + 1)) entry.idx)
      (slice (offset entry.counts i) (offset entry.counts (i + 1)) entry.val)

def consumeGathered (batch : List (Entry V)) (gathered : List (List ℤ × List V)) :
    List (Consumed V) :=
  List.zipWith (fun slot entries => consume slot.1 slot.2 entries.1 entries.2)
    (batch.flatMap fun entry => entry.slots.map fun slot => (slot, entry.dtypeStr)) gathered

attribute [local instance (2000)] Literals.neZero_succ in
/-- `_flush`, with the calls of `consume` that it makes. -/
def flush (rank : Fin (peers + 1)) (config : QueueConfig V) (pg : Option Group)
    (entries : List (Entry V)) : GatherProg Group V (List (Consumed V)) :=
  if entries = [] then .done []
  else
    match pg with
    | none => .done (if rank = 0 then entries.flatMap consumeLocal else [])
    | some group => do
        let gathered ← gatherSlotEntriesToRank0 rank config.zero config.perElem
          config.maxRoundBytes group (entries.flatMap Entry.slots) (entries.flatMap Entry.idx)
          (entries.flatMap Entry.val) (entries.flatMap Entry.counts)
        return if rank = 0 then (gathered.map (consumeGathered entries)).getD [] else []

def put [DecidableEq Group] (rank : Fin (peers + 1)) (config : QueueConfig V)
    (queue : GatherQueue Group V) (exported : Option Group × Entry V) :
    GatherProg Group V (GatherQueue Group V) :=
  let entries := queue.queues.getD exported.1 [] ++ [exported.2]
  if config.batchK ≤ entries.length then do
    let consumed ← flush rank config exported.1 entries
    return { queues := queue.queues.insert exported.1 []
             consumed := queue.consumed ++ consumed }
  else return { queue with queues := queue.queues.insert exported.1 entries }

def flushAll (rank : Fin (peers + 1)) (config : QueueConfig V) (queue : GatherQueue Group V) :
    GatherProg Group V (List (Consumed V)) :=
  queue.queues.entries.foldlM (fun consumed queued => do
    let more ← flush rank config queued.1 queued.2
    return consumed ++ more) queue.consumed

/-- The export loop of `send_weights`. -/
def gatherExports [DecidableEq Group] (rank : Fin (peers + 1)) (config : QueueConfig V)
    (exports : List (Option Group × Entry V)) : GatherProg Group V (List (Consumed V)) := do
  let queue ← exports.foldlM (put rank config) ⟨.empty, []⟩
  flushAll rank config queue

/-! ## One export on all ranks -/

/-- An exported parameter with the changed entries of every rank, slot by
slot. -/
structure Export (peers : ℕ) (V : Type) where
  slots : List Slot
  dtypeStr : String
  pieces : Fin (peers + 1) → List (List (ℤ × V))
  length_pieces : ∀ rank, (pieces rank).length = slots.length

namespace Export

/-- The share of one rank. -/
def entry (rank : Fin (peers + 1)) (item : Export peers V) : Entry V where
  slots := item.slots
  dtypeStr := item.dtypeStr
  counts := (item.pieces rank).map List.length
  idx := positionsOf (item.pieces rank)
  val := valuesOf (item.pieces rank)

attribute [local instance (2000)] Literals.neZero_succ in
/-- What rank 0 is to hand on: its own entries without a group, and those of
all ranks with one. -/
def delivered (pg : Option Group) (item : Export peers V) : List (List (ℤ × V)) :=
  match pg with
  | none => item.pieces 0
  | some _ => gathered item.slots.length item.pieces

def consumed (pg : Option Group) (item : Export peers V) : List (Consumed V) :=
  List.zipWith (fun slot entries =>
    consume slot item.dtypeStr (entries.map Prod.fst) (entries.map Prod.snd))
    item.slots (item.delivered pg)

end Export

/-! ## Lock-step -/

theorem gathered_flatMap (batch : List (Export peers V)) :
    gathered (batch.flatMap Export.slots).length
        (fun rank => batch.flatMap fun item => item.pieces rank) =
      batch.flatMap fun item => gathered item.slots.length item.pieces := by
  induction batch with
  | nil => simp [gathered]
  | cons item batch ih =>
      rw [List.flatMap_cons, List.flatMap_cons, List.length_append, ← ih,
        ← gathered_append item.pieces _ item.length_pieces]
      simp only [List.flatMap_cons]

/-- Rank 0 consumes a gathered batch item by item. -/
theorem consumeGathered_gathered (group : Group) (rank : Fin (peers + 1))
    (batch : List (Export peers V)) :
    consumeGathered (batch.map (Export.entry rank))
        ((batch.flatMap fun item => gathered item.slots.length item.pieces).map parts) =
      batch.flatMap (Export.consumed (some group)) := by
  induction batch with
  | nil => rfl
  | cons item batch ih =>
      rw [consumeGathered, List.map_cons, List.flatMap_cons, List.flatMap_cons,
        List.map_append, List.zipWith_append]
      · rw [List.flatMap_cons]
        refine congrArg₂ (· ++ ·) ?_ ih
        rw [Export.consumed, List.zipWith_map]
        rfl
      · simp [Export.entry, gathered]

theorem consumeLocal_entry (Group : Type) (item : Export peers V) :
    consumeLocal (item.entry 0) = item.consumed (none : Option Group) := by
  have hlength := item.length_pieces 0
  refine List.ext_getElem (by simp [consumeLocal, Export.consumed, Export.delivered,
    Export.entry, hlength]) fun i hleft hright => ?_
  have hslot : i < item.slots.length := by simpa [consumeLocal, Export.entry] using hleft
  have hpiece : i < (item.pieces 0).length := by rwa [hlength]
  have hslice : ∀ {α : Type} (f : ℤ × V → α),
      slice (offset ((item.pieces 0).map List.length) i)
        (offset ((item.pieces 0).map List.length) (i + 1)) ((item.pieces 0).flatten.map f) =
          (item.pieces 0)[i].map f := by
    intro α f
    rw [slice_map_flatten f (Nat.le_succ i) (Nat.succ_le_of_lt hpiece), slice_succ hpiece,
      List.flatten_singleton]
  simp only [consumeLocal, Export.consumed, Export.delivered, Export.entry, List.getElem_map,
    List.getElem_zipIdx, List.getElem_zipWith, Nat.zero_add, positionsOf, valuesOf, hslice]

theorem map_flatten_flatMap {α β ι : Type} (f : α → β) (items : List ι)
    (g : ι → List (List α)) :
    (items.flatMap g).flatten.map f = items.flatMap fun item => (g item).flatten.map f := by
  induction items with
  | nil => rfl
  | cons item items ih => simp [ih]

theorem flush_joint (config : QueueConfig V) (pg : Option Group)
    (batch : List (Export peers V)) :
    ∃ trace, Joint (exchange Group V)
      (fun rank => flush rank config pg (batch.map (Export.entry rank))) trace
      (fun rank => if rank = 0 then batch.flatMap (Export.consumed pg) else []) := by
  by_cases hempty : batch = []
  · subst hempty
    exact ⟨[], .done fun rank => by simp [flush]⟩
  · have hbatch : ∀ rank, batch.map (Export.entry rank) ≠ [] := fun rank => by
      simpa using hempty
    cases pg with
    | none =>
        refine ⟨[], .done fun rank => ?_⟩
        rw [flush, if_neg (hbatch rank)]
        by_cases hrank : rank = 0
        · subst hrank
          rw [if_pos rfl, if_pos rfl, List.flatMap_map]
          simp only [consumeLocal_entry Group]
        · rw [if_neg hrank, if_neg hrank]
    | some group =>
        have hlength : ∀ rank, (batch.flatMap fun item => item.pieces rank).length =
            (batch.flatMap Export.slots).length := fun rank => by
          rw [List.length_flatMap, List.length_flatMap]
          exact congrArg List.sum (List.map_congr_left fun item _ => item.length_pieces rank)
        obtain ⟨trace, hgather⟩ := gatherSlotEntriesToRank0_joint
          (fun rank => batch.flatMap fun item => item.pieces rank) config.zero group
          (batch.flatMap Export.slots) hlength config.perElem config.maxRoundBytes
        have hidx : ∀ rank, (batch.map (Export.entry rank)).flatMap Entry.idx =
            positionsOf (batch.flatMap fun item => item.pieces rank) := fun rank => by
          rw [List.flatMap_map, positionsOf, map_flatten_flatMap]
          rfl
        have hval : ∀ rank, (batch.map (Export.entry rank)).flatMap Entry.val =
            valuesOf (batch.flatMap fun item => item.pieces rank) := fun rank => by
          rw [List.flatMap_map, valuesOf, map_flatten_flatMap]
          rfl
        have hcounts : ∀ rank, (batch.map (Export.entry rank)).flatMap Entry.counts =
            (batch.flatMap fun item => item.pieces rank).map List.length := fun rank => by
          rw [List.flatMap_map, List.map_flatMap]
          rfl
        have hslots : ∀ rank, (batch.map (Export.entry rank)).flatMap Entry.slots =
            batch.flatMap Export.slots := fun rank => by
          rw [List.flatMap_map]
          rfl
        refine ⟨trace ++ [], ?_⟩
        simp only [flush, hbatch, if_false, hidx, hval, hcounts, hslots]
        refine hgather.bind (.done fun rank => ?_)
        by_cases hrank : rank = 0
        · simp only [gatherResult, hrank, if_true, gathered_flatMap, Option.map_some,
            Option.getD_some, consumeGathered_gathered group]
          rfl
        · simp [hrank]

section Run

variable [DecidableEq Group]

attribute [local instance (2000)] Literals.neZero_succ in
/-- The queue of one rank, when the exports of all ranks are batched alike. -/
def queueOf (rank : Fin (peers + 1)) (batches : Batches (Option Group) (Export peers V)) :
    GatherQueue Group V where
  queues := batches.queues.map fun batch => batch.map (Export.entry rank)
  consumed := if rank = 0 then
    batches.done.flatMap fun item => item.2.consumed item.1 else []

theorem put_joint (config : QueueConfig V) (batches : Batches (Option Group) (Export peers V))
    (item : Option Group × Export peers V) :
    ∃ trace, Joint (exchange Group V)
      (fun rank => put rank config (queueOf rank batches) (item.1, item.2.entry rank)) trace
      (fun rank => queueOf rank (batches.put config.batchK item)) := by
  obtain ⟨pg, item⟩ := item
  have hentries : ∀ rank, (queueOf rank batches).queues.getD pg [] ++ [item.entry rank] =
      (batches.queues.getD pg [] ++ [item]).map (Export.entry rank) := fun rank => by
    rw [queueOf, Dict.getD, Dict.get?_map, Dict.getD, List.map_append]
    cases batches.queues.get? pg <;> rfl
  by_cases hfull : config.batchK ≤ (batches.queues.getD pg [] ++ [item]).length
  · obtain ⟨trace, hflush⟩ := flush_joint config pg (batches.queues.getD pg [] ++ [item])
    refine ⟨trace ++ [], ?_⟩
    simp only [put, hentries, List.length_map, if_pos hfull]
    refine hflush.bind (.done fun rank => ?_)
    simp only [Batches.put, if_pos hfull, queueOf, Dict.map_insert]
    by_cases hrank : rank = 0
    · simp [hrank, List.flatMap_append, List.flatMap_map]
    · simp [hrank]
  · refine ⟨[], .done fun rank => ?_⟩
    simp only [put, hentries, List.length_map, if_neg hfull]
    simp only [Batches.put, if_neg hfull, queueOf, Dict.map_insert]
    rfl

omit [DecidableEq Group] in
theorem flushAll_joint (config : QueueConfig V)
    (batches : Batches (Option Group) (Export peers V)) :
    ∃ trace, Joint (exchange Group V)
      (fun rank => flushAll rank config (queueOf rank batches)) trace
      (fun rank => if rank = 0 then
        batches.finish.flatMap fun item => item.2.consumed item.1 else []) := by
  let view : Fin (peers + 1) → List (Consumed V) → List (Consumed V) :=
    fun rank consumed => if rank = 0 then consumed else []
  have hflushes : ∀ queued ∈ batches.queues.entries, ∀ consumed, ∃ trace,
      Joint (exchange Group V) (fun rank => (do
        let more ← flush rank config queued.1 (queued.2.map (Export.entry rank))
        return view rank consumed ++ more)) trace
      (fun rank => view rank (consumed ++ queued.2.flatMap (Export.consumed queued.1))) := by
    intro queued _ consumed
    obtain ⟨trace, hflush⟩ := flush_joint config queued.1 queued.2
    refine ⟨trace ++ [], hflush.bind (.done fun rank => ?_)⟩
    by_cases hrank : rank = 0 <;> simp [view, hrank]
  obtain ⟨trace, hjoint⟩ := Joint.foldlM_shared
    (fun rank consumed (queued : Option Group × List (Export peers V)) => do
      let more ← flush rank config queued.1 (queued.2.map (Export.entry rank))
      return consumed ++ more) view _ _ hflushes
    (batches.done.flatMap fun item => item.2.consumed item.1)
  have hfinish : (batches.finish.flatMap fun item => item.2.consumed item.1) =
      (batches.done.flatMap fun item => item.2.consumed item.1) ++
        (batches.queues.entries.map fun queued =>
          queued.2.flatMap (Export.consumed queued.1)).flatten := by
    rw [Batches.finish, List.flatMap_append, List.flatMap_assoc, ← List.flatMap_def]
    simp only [List.flatMap_map]
  refine ⟨trace, ?_⟩
  simp only [flushAll, queueOf, Dict.entries_map, List.foldlM_map, hfinish]
  rw [List.foldl_append_eq_append] at hjoint
  exact hjoint

/-- All ranks complete the export, issue the same calls, and rank 0 hands the
entries on batch by batch. -/
theorem gatherExports_joint (config : QueueConfig V)
    (exports : List (Option Group × Export peers V)) :
    ∃ trace, Joint (exchange Group V)
      (fun rank => gatherExports rank config
        (exports.map fun item => (item.1, item.2.entry rank))) trace
      (fun rank => if rank = 0 then
        (Batches.run config.batchK exports).flatMap fun item => item.2.consumed item.1
          else []) := by
  obtain ⟨first, hputs⟩ := Joint.foldlM_shared
    (fun rank queue item => put rank config queue (item.1, item.2.entry rank)) queueOf
    (Batches.put config.batchK) exports (fun item _ batches => put_joint config batches item)
    Batches.empty
  obtain ⟨second, hflush⟩ :=
    flushAll_joint config (exports.foldl (Batches.put config.batchK) Batches.empty)
  refine ⟨first ++ second, ?_⟩
  have hempty : ∀ rank, queueOf rank (Batches.empty : Batches (Option Group) (Export peers V)) =
      ⟨.empty, []⟩ := fun rank => by
    simp [queueOf, Batches.empty]
    rfl
  simp only [hempty] at hputs
  simp only [gatherExports, List.foldlM_map]
  exact hputs.bind hflush

/-- All ranks issue the same collectives for the same slots, and rank 0 hands on
every export once, in the order of the exports of its group.  The exports that
wait at the end are among them. -/
theorem gather_queue_lockstep (config : QueueConfig V)
    (exports : List (Option Group × Export peers V)) :
    ∃ trace delivered, Joint (exchange Group V)
        (fun rank => gatherExports rank config
          (exports.map fun item => (item.1, item.2.entry rank))) trace
        (fun rank => if rank = 0 then
          delivered.flatMap fun item => item.2.consumed item.1 else []) ∧
      (∀ group, (delivered.filter fun item => item.1 = group) =
        exports.filter fun item => item.1 = group) ∧
      ∀ group, (∀ item ∈ exports, item.1 = group) → delivered = exports := by
  obtain ⟨trace, hjoint⟩ := gatherExports_joint config exports
  refine ⟨trace, Batches.run config.batchK exports, hjoint,
    Batches.filter_run config.batchK exports, fun group hgroup => ?_⟩
  have hexports : (exports.filter fun item => item.1 = group) = exports :=
    List.filter_eq_self.mpr (by simpa using hgroup)
  have hdelivered : ((Batches.run config.batchK exports).filter fun item =>
      item.1 = group) = Batches.run config.batchK exports := by
    refine List.filter_eq_self.mpr fun item hitem => ?_
    have hmem : item ∈ exports.filter fun other => other.1 = item.1 := by
      rw [← Batches.filter_run config.batchK exports item.1]
      exact List.mem_filter.mpr ⟨hitem, by simp⟩
    simpa using hgroup item (List.mem_filter.mp hmem).1
  rw [← hdelivered, Batches.filter_run, hexports]

end Run

/-- A parameter of one slot in which nothing has changed. -/
def unchanged (name : String) : Export 1 ℕ where
  slots := [⟨name, [2]⟩]
  dtypeStr := "bfloat16"
  pieces _ := [[]]
  length_pieces _ := rfl

def alternating : List (Option Bool × Export 1 ℕ) :=
  [(some false, unchanged "embed"), (some true, unchanged "expert.0"),
    (some true, unchanged "expert.1"), (some false, unchanged "head")]

/-- Two groups in turn: the slots of the second one are handed on first. -/
theorem alternating_not_in_slot_order :
    ¬ ∃ trace values, Joint (exchange Bool ℕ)
        (fun rank => gatherExports rank ⟨2, 1024, 6, 0⟩
          (alternating.map fun item => (item.1, item.2.entry rank))) trace values ∧
      values 0 = alternating.flatMap fun item => item.2.consumed item.1 := by
  rintro ⟨trace, values, hjoint, heq⟩
  obtain ⟨other, hother⟩ := gatherExports_joint ⟨2, 1024, 6, 0⟩ alternating
  obtain ⟨_, rfl⟩ := hjoint.unique hother
  have hnames := congrArg (List.map Consumed.name) heq
  revert hnames
  decide

end OneShotOPD.DeltaSync
