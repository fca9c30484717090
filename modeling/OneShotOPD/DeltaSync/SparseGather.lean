import OneShotOPD.Core.Lockstep
import OneShotOPD.Core.Segments
import Mathlib

/-!
# Gathering sparse deltas

Every rank holds, for each slot of a batch, some changed positions with their
new values.  Rank 0 gathers them: the ranks exchange how many entries they have
per slot, pad their entries to the longest list, and rank 0 cuts the padded
lists up again.  A batch that would exceed the byte budget is gathered in
several rounds, which all ranks derive from the exchanged counts.
-/

namespace OneShotOPD.DeltaSync

open Lockstep Segments

variable {Group V : Type} {peers : ℕ}

/-- A tensor of the checkpoint format, by name and shape. -/
structure Slot where
  name : String
  shape : List ℕ
  deriving DecidableEq

/-- The collective calls of a gather, with the group, the slots that they serve
and the length of the contributions. -/
inductive Collective (Group : Type) where
  | allGather (group : Group) (slots : List Slot)
  | gatherPositions (group : Group) (slots : List Slot) (length : ℕ)
  | gatherValues (group : Group) (slots : List Slot) (length : ℕ)

abbrev Send (Group V : Type) : Collective Group → Type
  | .allGather _ _ => List ℕ
  | .gatherPositions _ _ _ => List ℤ
  | .gatherValues _ _ _ => List V

abbrev Recv (Group V : Type) : Collective Group → Type
  | .allGather _ _ => List (List ℕ)
  | .gatherPositions _ _ _ => Option (List (List ℤ))
  | .gatherValues _ _ _ => Option (List (List V))

/-- `all_gather` answers every rank, `gather` only rank 0. -/
def exchange (Group V : Type) :
    Exchange (Send Group V) (Recv Group V) (Fin (peers + 1))
  | .allGather _ _, send, _ => (List.finRange (peers + 1)).map send
  | .gatherPositions _ _ _, send, rank =>
      if rank = 0 then some ((List.finRange (peers + 1)).map send) else none
  | .gatherValues _ _ _, send, rank =>
      if rank = 0 then some ((List.finRange (peers + 1)).map send) else none

abbrev GatherProg (Group V : Type) := Prog (Send Group V) (Recv Group V)

/-! ## One rank -/

/-- `max(values)` of natural numbers. -/
def maximum (values : List ℕ) : ℕ := values.foldr max 0

/-- One round of the loop that cuts a batch into sub-rounds. -/
def cutStep (budget : ℕ) (countsCpu : List (List ℕ)) (state : List ℕ × List ℕ)
    (slot : ℕ) : List ℕ × List ℕ :=
  let (cuts, run) := state
  let column := countsCpu.map fun counts => counts.getD slot 0
  let run := List.zipWith (· + ·) run column
  if budget < maximum run ∧ cuts.getLast? ≠ some slot then (cuts ++ [slot], column)
  else (cuts, run)

def cutsOf (budget : ℕ) (countsCpu : List (List ℕ)) (k : ℕ) : List ℕ :=
  ((List.range k).foldl (cutStep budget countsCpu) ([0], countsCpu.map fun _ => 0)).1 ++ [k]

/-- The entries of one slot, stitched together across the ranks. -/
def stitch {α : Type} (countsCpu : List (List ℕ)) (blobs : List (List α)) (slot : ℕ) :
    List α :=
  (countsCpu.zip blobs).flatMap fun (counts, blob) =>
    if counts.getD slot 0 = 0 then []
    else slice (offset counts slot) (offset counts (slot + 1)) blob

/-- The padded gathers, once the counts of all ranks are known. -/
def gatherBlobs (rank : Fin (peers + 1)) (zero : V) (group : Group) (slots : List Slot)
    (idx : List ℤ) (val : List V) (k : ℕ) (countsCpu : List (List ℕ)) :
    GatherProg Group V (Option (List (List ℤ × List V))) :=
  let maxN := maximum (countsCpu.map List.sum)
  if maxN = 0 then
    .done (if rank = 0 then some (List.replicate k ([], [])) else none)
  else
    .call (.gatherPositions group slots maxN)
      (idx ++ List.replicate (maxN - idx.length) 0) fun idxList =>
    .call (.gatherValues group slots maxN)
      (val ++ List.replicate (maxN - val.length) zero) fun valList =>
    match idxList, valList with
    | some idxList, some valList =>
        .done (some ((List.range k).map fun slot =>
          (stitch countsCpu idxList slot, stitch countsCpu valList slot)))
    | _, _ => .done none

/-- `gather_slot_entries_to_rank0` without a byte budget. -/
def gatherRound (rank : Fin (peers + 1)) (zero : V) (group : Group) (slots : List Slot)
    (idx : List ℤ) (val : List V) (counts : List ℕ) :
    GatherProg Group V (Option (List (List ℤ × List V))) :=
  .call (.allGather group slots) counts fun countsCpu =>
    gatherBlobs rank zero group slots idx val counts.length countsCpu

/-- One sub-round: the slots between two cuts. -/
def subRound (rank : Fin (peers + 1)) (zero : V) (group : Group) (slots : List Slot)
    (mine : List ℕ) (idx : List ℤ) (val : List V) (outAll : List (List ℤ × List V))
    (cut : ℕ × ℕ) : GatherProg Group V (List (List ℤ × List V)) := do
  let sub ← gatherRound rank zero group (slice cut.1 cut.2 slots)
    (slice (offset mine cut.1) (offset mine cut.2) idx)
    (slice (offset mine cut.1) (offset mine cut.2) val) (slice cut.1 cut.2 mine)
  return if rank = 0 then outAll ++ sub.getD [] else outAll

/-- `perElem` are the bytes of one position and one value together.  The slots
only say what the calls are for. -/
def gatherSlotEntriesToRank0 (rank : Fin (peers + 1)) (zero : V) (perElem : ℕ)
    (maxRoundBytes : ℤ) (group : Group) (slots : List Slot) (idx : List ℤ) (val : List V)
    (counts : List ℕ) : GatherProg Group V (Option (List (List ℤ × List V))) :=
  .call (.allGather group slots) counts fun countsCpu =>
    let k := counts.length
    let budget := (max (maxRoundBytes / perElem) 1).toNat
    let cuts := if 1 < k then cutsOf budget countsCpu k else [0, k]
    if 2 < cuts.length then do
      let mine := countsCpu.getD rank []
      let outAll ← (cuts.zip cuts.tail).foldlM
        (subRound rank zero group slots mine idx val) []
      return if rank = 0 then some outAll else none
    else gatherBlobs rank zero group slots idx val k countsCpu

/-! ## All ranks -/

/-- What rank 0 gathers: per slot the entries of all ranks. -/
def gathered {α : Type} (k : ℕ) (pieces : Fin (peers + 1) → List (List α)) :
    List (List α) :=
  (List.range k).map fun slot =>
    (List.finRange (peers + 1)).flatMap fun rank => (pieces rank).getD slot []

/-- The length to which a round pads the entries of a rank. -/
def paddedLength (countsCpu : List (List ℕ)) : ℕ := maximum (countsCpu.map List.sum)

/-- The padded gathers of a round; without entries there are none. -/
def blobCalls (group : Group) (slots : List Slot) (countsCpu : List (List ℕ)) :
    List (Collective Group) :=
  if paddedLength countsCpu = 0 then []
  else [.gatherPositions group slots (paddedLength countsCpu),
    .gatherValues group slots (paddedLength countsCpu)]

/-- The part of the exchanged counts between two cuts. -/
def roundCounts (countsCpu : List (List ℕ)) (cut : ℕ × ℕ) : List (List ℕ) :=
  countsCpu.map (slice cut.1 cut.2)

def roundCalls (group : Group) (slots : List Slot) (countsCpu : List (List ℕ))
    (cut : ℕ × ℕ) : List (Collective Group) :=
  .allGather group (slice cut.1 cut.2 slots) ::
    blobCalls group (slice cut.1 cut.2 slots) (roundCounts countsCpu cut)

/-- The cuts of a batch, from the exchanged counts alone. -/
def roundCuts (perElem : ℕ) (maxRoundBytes : ℤ) (countsCpu : List (List ℕ)) (k : ℕ) :
    List ℕ :=
  if 1 < k then cutsOf (max (maxRoundBytes / perElem) 1).toNat countsCpu k else [0, k]

/-- The calls of a gather along the cuts. -/
def gatherCalls (group : Group) (slots : List Slot) (countsCpu : List (List ℕ))
    (cuts : List ℕ) : List (Collective Group) :=
  .allGather group slots ::
    if 2 < cuts.length then (cuts.zip cuts.tail).flatMap (roundCalls group slots countsCpu)
    else blobCalls group slots countsCpu

/-- The positions and the values of some entries. -/
def parts (entries : List (ℤ × V)) : List ℤ × List V :=
  (entries.map Prod.fst, entries.map Prod.snd)

section Stitch

variable {α β : Type} (pieces : Fin (peers + 1) → List (List α))

def countsOf : List (List ℕ) :=
  (List.finRange (peers + 1)).map fun rank => (pieces rank).map List.length

/-- Padding does not reach the entries that are cut out. -/
theorem stitch_padded (f : α → β) (padding : Fin (peers + 1) → List β) {slot : ℕ}
    (hslot : ∀ rank, slot < (pieces rank).length) :
    stitch (countsOf pieces) ((List.finRange (peers + 1)).map fun rank =>
        (pieces rank).flatten.map f ++ padding rank) slot =
      ((List.finRange (peers + 1)).flatMap fun rank => (pieces rank).getD slot []).map f := by
  rw [stitch, countsOf, List.zip_map', List.flatMap_map, List.map_flatMap]
  refine congrArg (fun g => List.flatMap g _) (funext fun rank => ?_)
  have hget : (pieces rank).getD slot [] = (pieces rank).get ⟨slot, hslot rank⟩ := by
    rw [List.getD_eq_getElem?_getD, List.getElem?_eq_getElem (hslot rank), Option.getD_some,
      List.get_eq_getElem]
  have hcount : ((pieces rank).map List.length).getD slot 0 =
      ((pieces rank).get ⟨slot, hslot rank⟩).length := by
    rw [List.getD_eq_getElem?_getD, List.getElem?_map, List.getElem?_eq_getElem (hslot rank)]
    rfl
  simp only [hget, hcount]
  split
  next hzero => rw [List.length_eq_zero_iff.mp hzero, List.map_nil]
  next =>
    have hlengths : (pieces rank).map List.length =
        ((pieces rank).map (List.map f)).map List.length := by
      simp [Function.comp_def]
    rw [hlengths, List.map_flatten,
      slice_flatten (Nat.le_succ slot) (by simpa using Nat.succ_le_of_lt (hslot rank)),
      slice_succ (by simpa using hslot rank)]
    simp

theorem gathered_slice {k low high : ℕ} (hhigh : high ≤ k) :
    gathered (high - low) (fun rank => slice low high (pieces rank)) =
      slice low high (gathered k pieces) := by
  refine List.ext_getElem (by simp [gathered, slice, hhigh]) ?_
  intro slot hleft hright
  have hslot : slot < high - low := by simpa [gathered] using hleft
  have hbound : low + slot < high := by omega
  simp only [gathered, slice, List.getElem_map, List.getElem_range, List.getElem_drop,
    List.getElem_take]
  refine congrArg (fun g => List.flatMap g _) (funext fun rank => ?_)
  rw [List.getD_eq_getElem?_getD, List.getD_eq_getElem?_getD, List.getElem?_drop,
    List.getElem?_take_of_lt hbound]

theorem gathered_append {first second : ℕ}
    (front back : Fin (peers + 1) → List (List α))
    (hlength : ∀ rank, (front rank).length = first) :
    gathered (first + second) (fun rank => front rank ++ back rank) =
      gathered first front ++ gathered second back := by
  rw [gathered, List.range_add, List.map_append, List.map_map]
  refine congrArg₂ (· ++ ·) (List.map_congr_left fun slot hslot => ?_)
    (List.map_congr_left fun slot _ => ?_)
  · refine congrArg (fun g => List.flatMap g _) (funext fun rank => ?_)
    rw [List.getD_append _ _ _ _ (by rw [hlength]; exact List.mem_range.mp hslot)]
  · refine congrArg (fun g => List.flatMap g _) (funext fun rank => ?_)
    have hle : (front rank).length ≤ first + slot := by
      rw [hlength]
      exact Nat.le_add_right first slot
    rw [List.getD_append_right _ _ _ _ hle, hlength, Nat.add_sub_cancel_left]

end Stitch

section Joint

variable (pieces : Fin (peers + 1) → List (List (ℤ × V))) (zero : V) (group : Group)
  (slots : List Slot)

/-- The positions and values a rank passes to a gather. -/
def positionsOf (pieces : List (List (ℤ × V))) : List ℤ := pieces.flatten.map Prod.fst

def valuesOf (pieces : List (List (ℤ × V))) : List V := pieces.flatten.map Prod.snd

/-- What every rank returns from a gather. -/
def gatherResult (k : ℕ) (rank : Fin (peers + 1)) : Option (List (List ℤ × List V)) :=
  if rank = 0 then some ((gathered k pieces).map parts) else none

theorem le_maximum {values : List ℕ} {value : ℕ} (hvalue : value ∈ values) :
    value ≤ maximum values := by
  induction values with
  | nil => simp at hvalue
  | cons first values ih =>
      rw [maximum, List.foldr_cons]
      rcases List.mem_cons.mp hvalue with rfl | hmem
      · exact Nat.le_max_left _ _
      · exact (ih hmem).trans (Nat.le_max_right _ _)

theorem gatherBlobs_joint {k : ℕ} (hlength : ∀ rank, (pieces rank).length = k) :
    Joint (exchange Group V)
      (fun rank => gatherBlobs rank zero group slots (positionsOf (pieces rank))
        (valuesOf (pieces rank)) k (countsOf pieces)) (blobCalls group slots (countsOf pieces))
      (gatherResult pieces k) := by
  unfold blobCalls paddedLength
  by_cases hzero : maximum ((countsOf pieces).map List.sum) = 0
  · rw [if_pos hzero]
    refine .done fun rank => ?_
    have hempty : ∀ rank, (pieces rank).flatten = [] := by
      intro rank
      have hle := @le_maximum ((countsOf pieces).map List.sum)
        (((pieces rank).map List.length).sum)
        (List.mem_map_of_mem (List.mem_map_of_mem (List.mem_finRange rank)))
      rw [hzero, ← List.length_flatten] at hle
      exact List.length_eq_zero_iff.mp (Nat.le_zero.mp hle)
    have hgathered : (gathered k pieces).map parts = List.replicate k ([], []) := by
      rw [gathered, List.map_map, List.eq_replicate_iff]
      refine ⟨by simp, fun entry hentry => ?_⟩
      obtain ⟨slot, hslot, rfl⟩ := List.mem_map.mp hentry
      have hnone : ((List.finRange (peers + 1)).flatMap fun rank =>
          (pieces rank).getD slot []) = [] := by
        rw [List.flatMap_eq_nil_iff]
        intro rank _
        have hlt : slot < (pieces rank).length := by
          rw [hlength]
          exact List.mem_range.mp hslot
        rw [List.getD_eq_getElem _ _ hlt]
        exact List.flatten_eq_nil_iff.mp (hempty rank) _ (List.getElem_mem hlt)
      simp only [Function.comp_apply, hnone]
      rfl
    rw [gatherBlobs, gatherResult, hgathered, if_pos hzero]
  · rw [if_neg hzero]
    refine .call (fun rank => by rw [gatherBlobs, if_neg hzero])
      (.call (fun rank => rfl) (.done fun rank => ?_))
    by_cases hrank : rank = 0
    · simp only [exchange, if_pos hrank, gatherResult]
      refine congrArg (fun entries => Prog.done (some entries)) ?_
      rw [gathered, List.map_map]
      refine List.map_congr_left fun slot hslot => ?_
      have hlt : ∀ rank, slot < (pieces rank).length := fun rank => by
        rw [hlength]
        exact List.mem_range.mp hslot
      exact Prod.ext (stitch_padded pieces Prod.fst _ hlt) (stitch_padded pieces Prod.snd _ hlt)
    · simp only [exchange, if_neg hrank, gatherResult]

theorem gatherRound_joint {k : ℕ} (hlength : ∀ rank, (pieces rank).length = k) :
    Joint (exchange Group V)
      (fun rank => gatherRound rank zero group slots (positionsOf (pieces rank))
        (valuesOf (pieces rank)) ((pieces rank).map List.length))
      (.allGather group slots :: blobCalls group slots (countsOf pieces))
      (gatherResult pieces k) := by
  have hjoint := gatherBlobs_joint pieces zero group slots hlength
  refine .call (fun rank => rfl) ?_
  simp only [List.length_map, hlength]
  exact hjoint

/-- The cuts rise from zero to the number of slots. -/
theorem exists_cutsOf (budget : ℕ) (countsCpu : List (List ℕ)) (k : ℕ) :
    ∃ cuts, cutsOf budget countsCpu k = 0 :: (cuts ++ [k]) ∧
      (0 :: (cuts ++ [k])).Pairwise (· ≤ ·) := by
  have hcuts : ∃ cuts, ((List.range k).foldl (cutStep budget countsCpu)
      ([0], countsCpu.map fun _ => 0)).1 = 0 :: cuts ∧
        (0 :: cuts).Pairwise (· ≤ ·) ∧ ∀ cut ∈ cuts, cut ≤ k := by
    induction k with
    | zero => exact ⟨[], rfl, by simp, by simp⟩
    | succ k ih =>
        obtain ⟨cuts, hcuts, hsorted, hle⟩ := ih
        rw [List.range_succ, List.foldl_append, List.foldl_cons, List.foldl_nil, cutStep]
        split
        next =>
          refine ⟨cuts ++ [k], by rw [hcuts, List.cons_append], ?_, ?_⟩
          · rw [← List.cons_append, List.pairwise_append]
            refine ⟨hsorted, by simp, fun cut hcut last hlast => ?_⟩
            rw [List.mem_singleton.mp hlast]
            rcases List.mem_cons.mp hcut with rfl | hmem
            · exact Nat.zero_le k
            · exact hle cut hmem
          · intro cut hcut
            rcases List.mem_append.mp hcut with hmem | hlast
            · exact (hle cut hmem).trans (Nat.le_succ k)
            · exact (List.mem_singleton.mp hlast).trans_le (Nat.le_succ k)
        next => exact ⟨cuts, hcuts, hsorted, fun cut hcut => (hle cut hcut).trans (Nat.le_succ k)⟩
  obtain ⟨cuts, hcuts, hsorted, hle⟩ := hcuts
  refine ⟨cuts, by rw [cutsOf, hcuts, List.cons_append], ?_⟩
  rw [← List.cons_append, List.pairwise_append]
  refine ⟨hsorted, by simp, fun cut hcut last hlast => ?_⟩
  rw [List.mem_singleton.mp hlast]
  rcases List.mem_cons.mp hcut with rfl | hmem
  · exact Nat.zero_le k
  · exact hle cut hmem

theorem subRound_joint {k low high : ℕ} (hlength : ∀ rank, (pieces rank).length = k)
    (hlow : low ≤ high) (hhigh : high ≤ k) (outAll : List (List ℤ × List V)) :
    Joint (exchange Group V)
      (fun rank => subRound rank zero group slots ((pieces rank).map List.length)
        (positionsOf (pieces rank)) (valuesOf (pieces rank))
        (if rank = 0 then outAll else []) (low, high))
      (roundCalls group slots (countsOf pieces) (low, high))
      (fun rank => if rank = 0 then
        outAll ++ (slice low high (gathered k pieces)).map parts else []) := by
  have hsegment : ∀ rank, (slice low high (pieces rank)).length = high - low :=
    fun rank => length_slice (by rwa [hlength])
  have hround := gatherRound_joint
    (fun rank => slice low high (pieces rank)) zero group (slice low high slots) hsegment
  have hcounts : countsOf (fun rank => slice low high (pieces rank)) =
      roundCounts (countsOf pieces) (low, high) := by
    simp only [countsOf, roundCounts, List.map_map, Function.comp_def, map_slice]
  rw [hcounts] at hround
  have hpositions : ∀ rank, slice (offset ((pieces rank).map List.length) low)
      (offset ((pieces rank).map List.length) high) (positionsOf (pieces rank)) =
        positionsOf (slice low high (pieces rank)) :=
    fun rank => slice_map_flatten Prod.fst hlow (by rwa [hlength])
  have hvalues : ∀ rank, slice (offset ((pieces rank).map List.length) low)
      (offset ((pieces rank).map List.length) high) (valuesOf (pieces rank)) =
        valuesOf (slice low high (pieces rank)) :=
    fun rank => slice_map_flatten Prod.snd hlow (by rwa [hlength])
  rw [roundCalls, ← List.append_nil (_ :: _)]
  simp only [subRound, hpositions, hvalues, ← map_slice]
  refine hround.bind (.done fun rank => ?_)
  by_cases hrank : rank = 0
  · simp [gatherResult, hrank, gathered_slice pieces hhigh]
  · simp [hrank]

/-- The sub-rounds together gather the whole batch. -/
theorem subRounds_joint {k : ℕ} (hlength : ∀ rank, (pieces rank).length = k)
    {cuts : List ℕ} (hcuts : (0 :: (cuts ++ [k])).Pairwise (· ≤ ·)) :
    Joint (exchange Group V)
      (fun rank => ((0 :: (cuts ++ [k])).zip (cuts ++ [k])).foldlM
        (subRound rank zero group slots ((pieces rank).map List.length)
          (positionsOf (pieces rank)) (valuesOf (pieces rank))) [])
      (((0 :: (cuts ++ [k])).zip (cuts ++ [k])).flatMap
        (roundCalls group slots (countsOf pieces)))
      (fun rank => if rank = 0 then (gathered k pieces).map parts else []) := by
  have hchain := List.isChain_iff_pairwise.mpr hcuts
  have hk : (gathered k pieces).length = k := by simp [gathered]
  have hwhole : (((0 :: (cuts ++ [k])).zip (cuts ++ [k])).map fun cut =>
      (slice cut.1 cut.2 (gathered k pieces)).map parts).flatten =
        (gathered k pieces).map parts := by
    have hflat := flatMap_slice_zip hchain (gathered k pieces)
    rw [List.getLast_cons (by simp), List.getLast_append_singleton, slice_zero,
      List.take_of_length_le hk.le] at hflat
    rw [← List.flatMap_def, ← List.map_flatMap, hflat]
  have hrounds : ∀ cut ∈ (0 :: (cuts ++ [k])).zip (cuts ++ [k]), ∀ outAll,
      Joint (exchange Group V)
        (fun rank => subRound rank zero group slots ((pieces rank).map List.length)
          (positionsOf (pieces rank)) (valuesOf (pieces rank))
          (if rank = 0 then outAll else []) cut)
        (roundCalls group slots (countsOf pieces) cut)
        (fun rank => if rank = 0 then
          outAll ++ (slice cut.1 cut.2 (gathered k pieces)).map parts else []) := by
    rintro ⟨low, high⟩ hcut outAll
    refine subRound_joint pieces zero group slots hlength (rel_of_mem_zip_tail hchain hcut) ?_ _
    rcases List.mem_append.mp (List.of_mem_zip hcut).2 with hmem | hlast
    · exact (List.pairwise_append.mp (List.pairwise_cons.mp hcuts).2).2.2 _ hmem _ (by simp)
    · exact (List.mem_singleton.mp hlast).le
  have hjoint := Joint.foldlM_shared_calls _
    (fun rank outAll => if rank = 0 then outAll else []) _ _ _ hrounds []
  simp only [List.foldl_append_eq_append, List.nil_append, hwhole, ite_self] at hjoint
  exact hjoint

/-- A gather completes on all ranks, in rounds that only depend on the counts, and
yields the entries of all of them. -/
theorem gatherSlotEntriesToRank0_calls {k : ℕ} (hlength : ∀ rank, (pieces rank).length = k)
    (perElem : ℕ) (maxRoundBytes : ℤ) :
    Joint (exchange Group V)
      (fun rank => gatherSlotEntriesToRank0 rank zero perElem maxRoundBytes group slots
        (positionsOf (pieces rank)) (valuesOf (pieces rank))
        ((pieces rank).map List.length))
      (gatherCalls group slots (countsOf pieces)
        (roundCuts perElem maxRoundBytes (countsOf pieces) k)) (gatherResult pieces k) := by
  have hcounts : ∀ rank : Fin (peers + 1), (countsOf pieces).getD rank [] =
      (pieces rank).map List.length := fun rank => by
    have hrank : (rank : ℕ) < (List.finRange (peers + 1)).length := by
      rw [List.length_finRange]
      exact rank.isLt
    rw [countsOf, List.getD_eq_getElem?_getD, List.getElem?_map,
      List.getElem?_eq_getElem hrank, List.getElem_finRange]
    rfl
  let budget := (max (maxRoundBytes / perElem) 1).toNat
  let cuts := if 1 < k then cutsOf budget (countsOf pieces) k else [0, k]
  by_cases hrounds : 2 < cuts.length
  · have hmany : 1 < k := by
      by_contra hfew
      simp [cuts, hfew] at hrounds
    obtain ⟨inner, hcuts, hsorted⟩ := exists_cutsOf budget (countsOf pieces) k
    have hall : cuts = 0 :: (inner ++ [k]) := by simp only [cuts, if_pos hmany, hcuts]
    have hjoint := subRounds_joint pieces zero group slots hlength hsorted
    have hcuts : roundCuts perElem maxRoundBytes (countsOf pieces) k = cuts := rfl
    rw [gatherCalls, hcuts, if_pos hrounds, ← List.append_nil (List.flatMap _ _)]
    refine .call (fun rank => rfl) ?_
    simp only [List.length_map, hlength]
    change Joint _ (fun rank => if 2 < cuts.length then (do
      let outAll ← (cuts.zip cuts.tail).foldlM (subRound rank zero group slots
        ((countsOf pieces).getD rank []) (positionsOf (pieces rank))
          (valuesOf (pieces rank))) []
      return if rank = 0 then some outAll else none) else _) _ _
    rw [hall] at hrounds
    simp only [hcounts, hall, if_pos hrounds, List.tail_cons]
    refine hjoint.bind (.done fun rank => ?_)
    by_cases hrank : rank = 0 <;> simp [gatherResult, hrank]
  · have hjoint := gatherBlobs_joint pieces zero group slots hlength
    have hcuts : roundCuts perElem maxRoundBytes (countsOf pieces) k = cuts := rfl
    rw [gatherCalls, hcuts, if_neg hrounds]
    refine .call (fun rank => rfl) ?_
    simp only [List.length_map, hlength]
    change Joint _ (fun rank => if 2 < cuts.length then _ else gatherBlobs rank zero group
      slots (positionsOf (pieces rank)) (valuesOf (pieces rank)) k (countsOf pieces)) _ _
    simp only [if_neg hrounds]
    exact hjoint

theorem gatherSlotEntriesToRank0_joint {k : ℕ} (hlength : ∀ rank, (pieces rank).length = k)
    (perElem : ℕ) (maxRoundBytes : ℤ) :
    ∃ trace, Joint (exchange Group V)
      (fun rank => gatherSlotEntriesToRank0 rank zero perElem maxRoundBytes group slots
        (positionsOf (pieces rank)) (valuesOf (pieces rank))
        ((pieces rank).map List.length)) trace (gatherResult pieces k) :=
  ⟨_, gatherSlotEntriesToRank0_calls pieces zero group slots hlength perElem maxRoundBytes⟩

end Joint

end OneShotOPD.DeltaSync
