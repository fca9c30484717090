import OneShotOPD.WeightSync.NcclEngine
import Mathlib

/-!
# Which weights arrive

The receiver takes from the buckets exactly the chunks that were put into them,
in order and with their places.  A list of weights therefore arrives unchanged
when every weight that is viewed in place lies at a multiple of its element
size, and when none of them is empty: an empty weight has no chunk.
-/

namespace OneShotOPD.WeightSync

open Checks FirstFit

section Receive

/-- The slices of a bucket are the chunks that were written to it. -/
theorem mapM_entriesOf_place {before run : List Chunk} {rest : List UInt8}
    (hsized : ∀ chunk ∈ before ++ run, chunk.2.length = chunkSize chunk) :
    (entriesOf ((starts chunkSize (total chunkSize before) run).map place)).mapM
        (fun entry => chunkOf ((before ++ run).flatMap Prod.snd ++ rest) entry.2) =
      .ok ((starts chunkSize (total chunkSize before) run).map place) := by
  induction run generalizing before with
  | nil => rfl
  | cons chunk run ih =>
      have hbefore : (before.flatMap Prod.snd).length = total chunkSize before := by
        rw [List.length_flatMap, total]
        refine congrArg List.sum (List.map_congr_left fun other hother => ?_)
        exact hsized other (by simp [hother])
      have hlength : chunk.2.length = chunk.1.chunkSize := hsized chunk (by simp)
      have hslice : sliceOf ((before ++ chunk :: run).flatMap Prod.snd ++ rest)
          (total chunkSize before) chunk.1.chunkSize =
            ⟨total chunkSize before, chunk.2⟩ := by
        have hsplit : (before ++ chunk :: run).flatMap Prod.snd ++ rest =
            before.flatMap Prod.snd ++ chunk.2 ++ (run.flatMap Prod.snd ++ rest) := by
          simp
        rw [hsplit, ← hbefore, ← hlength, sliceOf_append]
      have hih := @ih (before ++ [chunk]) (by simpa using hsized)
      rw [List.append_assoc, List.singleton_append, total_append, total_singleton] at hih
      simp only [entriesOf, List.map_map] at hih
      simp only [starts_cons, entriesOf, List.map_cons, List.map_map, List.mapM_cons, hih]
      simp only [place, chunkOf, hslice]
      rfl

theorem chunksOf_delivered {message : Message} {run : List Chunk} {isLast : Bool}
    (hdelivers : Delivers isLast message run)
    (hsized : ∀ chunk ∈ run, chunk.2.length = chunkSize chunk) (recvBuf : List UInt8) :
    chunksOf (writeAt recvBuf 0 message.bucket) message = .ok (placedIn run) := by
  rw [chunksOf, hdelivers.entries, hdelivers.bucket]
  exact @mapM_entriesOf_place [] run (recvBuf.drop _) (by simpa using hsized)

/-- The receiver yields the chunks of all buckets, and stops at the last. -/
theorem receiveLoop_delivered {broadcast : List Message} {last : Message}
    {runs : List (List Chunk)} {lastRun : List Chunk}
    (hbroadcast : List.Forall₂ (Delivers false) broadcast runs)
    (hlast : Delivers true last lastRun)
    (hsized : ∀ run ∈ runs ++ [lastRun], ∀ chunk ∈ run, chunk.2.length = chunkSize chunk)
    {first : Message} {messages : List Message}
    (hmessages : broadcast ++ [last] = first :: messages) (sendBuf recvBuf : List UInt8) :
    receiveLoop (writeAt recvBuf 0 first.bucket) sendBuf first messages =
      .ok ((runs ++ [lastRun]).flatMap placedIn) := by
  induction hbroadcast generalizing first messages sendBuf recvBuf with
  | nil =>
      obtain ⟨rfl, rfl⟩ := List.cons.inj hmessages
      rw [receiveLoop, if_pos hlast.isLast,
        chunksOf_delivered hlast (hsized lastRun (by simp))]
      simp
  | @cons message run broadcast runs hmessage _ ih =>
      obtain ⟨rfl, rfl⟩ := List.cons.inj hmessages
      obtain ⟨next, rest, hnext⟩ : ∃ next rest, broadcast ++ [last] = next :: rest :=
        List.exists_cons_of_ne_nil (by simp)
      have hrest := ih (fun other hother => hsized other (by simp at hother ⊢; tauto)) hnext
        (writeAt recvBuf 0 message.bucket) sendBuf
      have hchunks := chunksOf_delivered hmessage (hsized run (by simp)) recvBuf
      change receiveLoop _ _ message (broadcast ++ [last]) = _
      rw [hnext, receiveLoop, if_neg (by simp [hmessage.isLast]), hchunks, hrest]
      rfl

end Receive

section Transfer

variable {bucketSize : ℕ} (hbucket : 0 < bucketSize)

theorem wellSized_of_mem {weights : List Weight} {chunk : Chunk}
    (hchunk : chunk ∈ splitWeightChunks bucketSize hbucket weights) :
    WellSized bucketSize chunk := by
  obtain ⟨weight, _, hchunk⟩ := List.mem_flatMap.mp hchunk
  obtain ⟨offset, _, hlt, rfl⟩ := mem_splitFrom hbucket weight hchunk
  constructor
  · simp only [chunkSize, chunkAt]
    omega
  · exact Nat.min_le_left _ _
  · exact length_chunkAt weight offset

/-- With unique names, a chunk follows one of its own name only after a full
bucket. -/
theorem fullBefore_splitWeightChunks {weights : List Weight}
    (hnames : (weights.map Weight.name).Nodup) :
    (splitWeightChunks bucketSize hbucket weights).Pairwise (FullBefore bucketSize) := by
  rw [splitWeightChunks, List.pairwise_flatMap]
  constructor
  · intro weight _
    refine (pairwise_splitFrom hbucket weight 0).imp ?_
    intro earlier later hsize _
    exact hsize
  · refine (List.pairwise_map.mp hnames).imp fun {first second} hne => ?_
    intro earlier hearlier later hlater heq
    obtain ⟨_, _, _, rfl⟩ := mem_splitFrom hbucket first hearlier
    obtain ⟨_, _, _, rfl⟩ := mem_splitFrom hbucket second hlater
    exact absurd heq hne

/-- The buckets of an update, each chunk with its place. -/
def bucketPlaces (weights : List Weight) : List (Chunk × ℕ) :=
  (fill bucketSize chunkSize [] (splitWeightChunks bucketSize hbucket weights)).flatMap
    (starts chunkSize 0)

theorem map_fst_bucketPlaces (weights : List Weight) :
    (bucketPlaces hbucket weights).map Prod.fst =
      splitWeightChunks bucketSize hbucket weights := by
  rw [bucketPlaces, List.map_flatMap]
  simp only [map_fst_starts, List.flatMap_id']
  exact flatten_fill _

/-- The receiver merges the chunks from the places they were written to. -/
theorem transfer_eq_merge (trainer rollout : Buffers bucketSize) {weights : List Weight}
    (hnames : (weights.map Weight.name).Nodup) :
    transfer hbucket trainer rollout weights =
      mergeWeightChunks bucketSize ((bucketPlaces hbucket weights).map place) := by
  have hstart : Filling bucketSize ⟨trainer.sendBuf, trainer.recvBuf, .empty, 0, []⟩ [] :=
    ⟨trainer.length_sendBuf, trainer.length_recvBuf, rfl, rfl, rfl⟩
  have hsized : ∀ chunk ∈ splitWeightChunks bucketSize hbucket weights,
      WellSized bucketSize chunk := fun chunk => wellSized_of_mem hbucket
  obtain ⟨final, last, broadcast, runs, hrun, hsent, hdelivers, hlast, hfill⟩ :=
    foldlM_sendStep hstart hsized (fullBefore_splitWeightChunks hbucket hnames)
  have hmessages : sendWeights hbucket trainer weights =
      .ok (broadcast ++ [final.message true]) := by
    rw [sendWeights, hrun]
    exact congrArg (fun sent => Except.ok (sent ++ [final.message true])) hsent
  have hflatten : (runs ++ [last]).flatten = splitWeightChunks bucketSize hbucket weights := by
    rw [← flatten_fill (splitWeightChunks bucketSize hbucket weights), hfill]
    by_cases hempty : last = [] <;> simp [hempty]
  have hplaces : ((runs ++ [last]).flatMap placedIn) =
      (bucketPlaces hbucket weights).map place := by
    rw [bucketPlaces, hfill, List.map_flatMap]
    change (runs ++ [last]).flatMap placedIn = List.flatMap placedIn _
    by_cases hempty : last = []
    · simp [hempty, placedIn]
    · simp [hempty]
  have hlengths : ∀ run ∈ runs ++ [last], ∀ chunk ∈ run,
      chunk.2.length = chunkSize chunk := by
    intro run hmem chunk hchunk
    exact (hsized chunk (hflatten ▸ List.mem_flatten_of_mem hmem hchunk)).length
  obtain ⟨first, messages, hcons⟩ : ∃ first messages,
      broadcast ++ [final.message true] = first :: messages :=
    List.exists_cons_of_ne_nil (by simp)
  have hreceived : receiveWeightChunks rollout (broadcast ++ [final.message true]) =
      .ok ((bucketPlaces hbucket weights).map place) := by
    rw [hcons, receiveWeightChunks, ← hplaces]
    exact receiveLoop_delivered hdelivers (hlast.delivers true) hlengths hcons _ _
  rw [transfer, hmessages]
  change (receiveWeightChunks rollout _ >>= _) = _
  rw [hreceived]
  rfl

/-- What an update yields. -/
theorem transfer_iff (trainer rollout : Buffers bucketSize) {weights : List Weight}
    (hnames : (weights.map Weight.name).Nodup) (merged : List Weight) :
    transfer hbucket trainer rollout weights = .ok merged ↔
      (∀ placed ∈ bucketPlaces hbucket weights, Aligned bucketSize placed) ∧
        merged = weights.filter fun weight => weight.data ≠ [] := by
  rw [transfer_eq_merge hbucket trainer rollout hnames]
  rcases mergeWeightChunks_cases hbucket weights (map_fst_bucketPlaces hbucket weights) with
    ⟨haligned, hmerge⟩ | ⟨haligned, name, hmerge⟩
  · rw [hmerge, Except.ok.injEq, eq_comm]
    exact (and_iff_right haligned).symm
  · rw [hmerge]
    constructor
    · intro herror
      cases herror
    · rintro ⟨hall, _⟩
      exact absurd hall haligned

theorem transfer_misaligned_iff (trainer rollout : Buffers bucketSize)
    {weights : List Weight} (hnames : (weights.map Weight.name).Nodup) :
    (∀ name, transfer hbucket trainer rollout weights ≠ .error (.misaligned name)) ↔
      ∀ placed ∈ bucketPlaces hbucket weights, Aligned bucketSize placed := by
  rw [transfer_eq_merge hbucket trainer rollout hnames]
  rcases mergeWeightChunks_cases hbucket weights (map_fst_bucketPlaces hbucket weights) with
    ⟨haligned, hmerge⟩ | ⟨haligned, name, hmerge⟩
  · exact ⟨fun _ => haligned, fun _ name heq => by simp [hmerge] at heq⟩
  · exact ⟨fun hnever => absurd hmerge (hnever name), fun hall => absurd hall haligned⟩

end Transfer

/-! ## The buckets seen from the weights -/

/-- A part of a weight that travels in one bucket: the sizes of the weight, of
its elements and of the part. -/
structure Piece where
  whole : ℕ
  itemsize : ℕ
  size : ℕ

/-- A weight travels in as many full buckets as it fills, and in one more for
what remains. -/
def pieceSizes (bucketSize nbytes : ℕ) : List ℕ :=
  List.replicate (nbytes / bucketSize) bucketSize ++
    if nbytes % bucketSize = 0 then [] else [nbytes % bucketSize]

def pieces (bucketSize : ℕ) (weights : List Weight) : List Piece :=
  weights.flatMap fun weight =>
    (pieceSizes bucketSize weight.nbytes).map fun size =>
      ⟨weight.nbytes, weight.dtype.itemsize, size⟩

/-- When the pieces are put into buckets in order, each weight that fits a
bucket starts in its bucket at a multiple of its element size. -/
def PiecesAligned (bucketSize : ℕ) (weights : List Weight) : Prop :=
  ∀ runs, Division bucketSize Piece.size (pieces bucketSize weights) runs →
    ∀ start piece, StartsAt Piece.size runs start piece →
      piece.whole ≤ bucketSize → piece.itemsize ∣ start

theorem piecesAligned_iff_fill (bucketSize : ℕ) (weights : List Weight) :
    PiecesAligned bucketSize weights ↔
      ∀ placed ∈ (fill bucketSize Piece.size [] (pieces bucketSize weights)).flatMap
          (starts Piece.size 0),
        placed.1.whole ≤ bucketSize → placed.1.itemsize ∣ placed.2 := by
  constructor
  · intro haligned placed hplaced
    exact haligned _ (division_iff.mpr rfl) placed.2 placed.1
      (startsAt_iff_mem.mpr hplaced)
  · intro haligned runs hdivision start piece hstart
    obtain rfl := division_iff.mp hdivision
    exact haligned (piece, start) (startsAt_iff_mem.mp hstart)

instance (bucketSize : ℕ) (weights : List Weight) :
    Decidable (PiecesAligned bucketSize weights) :=
  decidable_of_iff _ (piecesAligned_iff_fill bucketSize weights).symm

section Pieces

variable {bucketSize : ℕ} (hbucket : 0 < bucketSize)

def pieceOf (chunk : Chunk) : Piece :=
  ⟨chunk.1.nbytes, chunk.1.dtype.itemsize, chunk.1.chunkSize⟩

theorem map_pieceOf_splitFrom (weight : Weight) (chunkOffset : ℕ) :
    (splitFrom bucketSize hbucket weight chunkOffset).map pieceOf =
      (pieceSizes bucketSize (weight.nbytes - chunkOffset)).map fun size =>
        ⟨weight.nbytes, weight.dtype.itemsize, size⟩ := by
  induction chunkOffset using splitFrom.induct bucketSize hbucket weight with
  | case1 chunkOffset hoffset chunkSize ih =>
      have hpiece : pieceOf (chunkAt bucketSize weight chunkOffset) =
          ⟨weight.nbytes, weight.dtype.itemsize, chunkSize⟩ := by
        rw [pieceOf, nbytes_chunkAt]
        rfl
      rw [splitFrom_of_lt hbucket weight hoffset, List.map_cons, hpiece]
      change _ :: (splitFrom bucketSize hbucket weight (chunkOffset + chunkSize)).map _ = _
      have hmin : chunkSize = min bucketSize (weight.nbytes - chunkOffset) := rfl
      clear_value chunkSize
      rw [ih, Nat.sub_add_eq]
      generalize hleft : weight.nbytes - chunkOffset = left at *
      have hpos : 0 < left := by omega
      by_cases hfull : bucketSize ≤ left
      · have hsize : chunkSize = bucketSize := hmin.trans (Nat.min_eq_left hfull)
        rw [hsize, pieceSizes, pieceSizes, Nat.div_eq_sub_div hbucket hfull,
          Nat.mod_eq_sub_mod hfull, List.replicate_succ]
        rfl
      · have hsmall := Nat.not_le.mp hfull
        have hsize : chunkSize = left := hmin.trans (Nat.min_eq_right hsmall.le)
        simp [pieceSizes, hsize, Nat.div_eq_of_lt hsmall, Nat.mod_eq_of_lt hsmall,
          Nat.pos_iff_ne_zero.mp hpos]
  | case2 chunkOffset hoffset =>
      have hle := Nat.not_lt.mp hoffset
      rw [splitFrom_of_le hbucket weight hle, Nat.sub_eq_zero_of_le hle]
      simp [pieceSizes]

theorem map_pieceOf_splitWeightChunks (weights : List Weight) :
    (splitWeightChunks bucketSize hbucket weights).map pieceOf =
      pieces bucketSize weights := by
  rw [splitWeightChunks, pieces, List.map_flatMap]
  refine congrArg (fun f => List.flatMap f weights) (funext fun weight => ?_)
  exact map_pieceOf_splitFrom hbucket weight 0

theorem piecesAligned_iff (weights : List Weight) :
    PiecesAligned bucketSize weights ↔
      ∀ placed ∈ bucketPlaces hbucket weights, Aligned bucketSize placed := by
  have hfill := @fill_map Piece bucketSize Piece.size Chunk pieceOf []
    (splitWeightChunks bucketSize hbucket weights)
  rw [map_pieceOf_splitWeightChunks, List.map_nil] at hfill
  have hplaces : ((fill bucketSize Piece.size [] (pieces bucketSize weights)).flatMap
      (starts Piece.size 0)) =
        (bucketPlaces hbucket weights).map fun placed => (pieceOf placed.1, placed.2) := by
    rw [hfill, bucketPlaces, List.flatMap_map, List.map_flatMap]
    exact congrArg (fun f => List.flatMap f _) (funext fun run => starts_map pieceOf 0 run)
  rw [piecesAligned_iff_fill, hplaces, List.forall_mem_map]
  rfl

end Pieces

/-- The weights arrive exactly when none is empty and those that fit a bucket
are aligned in it. -/
theorem transfer_round_trip_iff {bucketSize : ℕ} (hbucket : 0 < bucketSize)
    (trainer rollout : Buffers bucketSize) (weights : List Weight)
    (hnames : (weights.map Weight.name).Nodup) :
    transfer hbucket trainer rollout weights = .ok weights ↔
      (∀ weight ∈ weights, weight.data ≠ []) ∧ PiecesAligned bucketSize weights := by
  have hkept : (weights = weights.filter fun weight => weight.data ≠ []) ↔
      ∀ weight ∈ weights, weight.data ≠ [] := by
    rw [eq_comm, List.filter_eq_self]
    simp only [decide_eq_true_eq]
  rw [transfer_iff hbucket trainer rollout hnames, hkept, piecesAligned_iff hbucket]
  exact and_comm

def float32 : Dtype := ⟨"float32", 4, by decide⟩

def float16 : Dtype := ⟨"float16", 2, Nat.two_pos⟩

def gate : Weight := ⟨"gate", [3], float32, List.replicate 12 1, rfl⟩

def halfBias : Weight := ⟨"bias", [2], float16, List.replicate 4 2, rfl⟩

def emptyBias : Weight := ⟨"bias", [0], float32, [], rfl⟩

/-- A weight that spans two buckets and a smaller one behind it arrive. -/
theorem gate_halfBias_round_trip :
    transfer (by decide : 0 < 8) (prepare 8) (prepare 8) [gate, halfBias] =
      .ok [gate, halfBias] :=
  (transfer_round_trip_iff (by decide) (prepare 8) (prepare 8) [gate, halfBias]
    (by decide)).mpr ⟨by decide, by decide⟩

/-- An empty weight is lost without an error. -/
theorem emptyBias_dropped :
    ([gate, emptyBias].map Weight.name).Nodup ∧
      transfer (by decide : 0 < 8) (prepare 8) (prepare 8) [gate, emptyBias] =
        .ok [gate] ∧
      transfer (by decide : 0 < 8) (prepare 8) (prepare 8) [gate, emptyBias] ≠
        .ok [gate, emptyBias] := by
  have hnames : ([gate, emptyBias].map Weight.name).Nodup := by decide
  have hkept : transfer (by decide : 0 < 8) (prepare 8) (prepare 8) [gate, emptyBias] =
      .ok [gate] := by
    rw [transfer_iff _ _ _ hnames]
    exact ⟨(piecesAligned_iff _ _).mp (by decide), by decide⟩
  refine ⟨hnames, hkept, ?_⟩
  rw [hkept]
  decide

end OneShotOPD.WeightSync
