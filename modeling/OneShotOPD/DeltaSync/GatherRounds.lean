import OneShotOPD.DeltaSync.SparseGather
import Mathlib.Algebra.Order.Group.Unbundled.Int
import Mathlib.Algebra.Order.Ring.Int
import Mathlib.Data.Fin.VecNotation
import Mathlib.Order.Lattice

/-!
# The rounds of a budgeted gather

The cuts are placed greedily: a slot opens a new round when it would take the fullest
rank over the budget.  A round therefore stays within the budget unless a single slot
exceeds it on its own, and the rounds together gather what one round gathers.
-/

namespace OneShotOPD.DeltaSync

open Lockstep Segments

variable {Group V : Type} {peers : ℕ}

/-! ## The greedy cuts -/

/-- A round that is short enough, or has a single slot. -/
def RoundFits (budget : ℕ) (countsCpu : List (List ℕ)) (low high : ℕ) : Prop :=
  paddedLength (roundCounts countsCpu (low, high)) ≤ budget ∨ high ≤ low + 1

theorem sum_slice_succ {low slot : ℕ} (hlow : low ≤ slot) (counts : List ℕ) :
    (slice low (slot + 1) counts).sum = (slice low slot counts).sum + counts.getD slot 0 := by
  rw [← slice_append_slice hlow (Nat.le_succ slot), List.sum_append]
  by_cases hslot : slot < counts.length
  · rw [slice_succ hslot, List.getD_eq_getElem _ _ hslot, List.sum_singleton]
  · have hle : counts.length ≤ slot := Nat.le_of_not_lt hslot
    have hnone : slice slot (slot + 1) counts = [] := by
      rw [slice, List.drop_take, List.drop_eq_nil_of_le hle, List.take_nil]
    rw [List.getD_eq_default _ _ hle, hnone, List.sum_nil]

theorem slice_self (low : ℕ) (counts : List ℕ) : slice low low counts = [] := by
  rw [slice, List.drop_take, Nat.sub_self, List.take_zero]

/-- What the loop over the slots knows in front of a slot: the last cut, the entries of
every rank since then, and that all rounds fit so far. -/
structure CutsSoFar (budget : ℕ) (countsCpu : List (List ℕ)) (slot : ℕ)
    (state : List ℕ × List ℕ) (last : ℕ) : Prop where
  getLast_eq : state.1.getLast? = some last
  last_le : last ≤ slot
  run_eq : state.2 = countsCpu.map fun counts => (slice last slot counts).sum
  open_fits : RoundFits budget countsCpu last slot
  closed_fit : state.1.IsChain (RoundFits budget countsCpu)

theorem cutStep_soFar {budget slot last : ℕ} {countsCpu : List (List ℕ)}
    {state : List ℕ × List ℕ} (hstate : CutsSoFar budget countsCpu slot state last) :
    ∃ last', CutsSoFar budget countsCpu (slot + 1) (cutStep budget countsCpu state slot)
      last' := by
  obtain ⟨cuts, run⟩ := state
  obtain ⟨hlast, hle, hrun, hopen, hclosed⟩ := hstate
  have hsums : List.zipWith (· + ·) run (countsCpu.map fun counts => counts.getD slot 0) =
      countsCpu.map fun counts => (slice last (slot + 1) counts).sum := by
    simp only at hrun
    rw [hrun, List.zipWith_map, List.zipWith_self]
    exact List.map_congr_left fun counts _ => (sum_slice_succ hle counts).symm
  rw [cutStep, hsums]
  split
  next hcut =>
    refine ⟨slot, by simp, Nat.le_succ slot, ?_, .inr le_rfl, ?_⟩
    · apply List.map_congr_left
      intro counts _
      rw [sum_slice_succ le_rfl, slice_self, List.sum_nil, Nat.zero_add]
    · refine List.isChain_append.mpr ⟨hclosed, List.isChain_singleton _, ?_⟩
      intro low hlow high hhigh
      obtain rfl : last = low := Option.some.inj (hlast.symm.trans hlow)
      obtain rfl : slot = high := Option.some.inj hhigh
      exact hopen
  next hkeep =>
    refine ⟨last, hlast, hle.trans (Nat.le_succ slot), rfl, ?_, hclosed⟩
    rw [not_and_or, not_lt, not_not] at hkeep
    rcases hkeep with hfits | hsame
    · left
      simpa only [paddedLength, roundCounts, List.map_map, Function.comp_def] using hfits
    · obtain rfl : last = slot := Option.some.inj (hlast.symm.trans hsame)
      exact .inr le_rfl

theorem foldl_cutStep_soFar (budget : ℕ) (countsCpu : List (List ℕ)) (k : ℕ) :
    ∃ last, CutsSoFar budget countsCpu k
      ((List.range k).foldl (cutStep budget countsCpu) ([0], countsCpu.map fun _ => 0))
      last := by
  induction k with
  | zero =>
      refine ⟨0, rfl, le_rfl, ?_, .inr (Nat.zero_le _), List.isChain_singleton _⟩
      simp [slice_self]
  | succ k ih =>
      obtain ⟨last, hstate⟩ := ih
      rw [List.range_succ, List.foldl_append, List.foldl_cons, List.foldl_nil]
      exact cutStep_soFar hstate

/-- Every round between two cuts fits. -/
theorem cutsOf_fit (budget : ℕ) (countsCpu : List (List ℕ)) (k : ℕ) :
    (cutsOf budget countsCpu k).IsChain (RoundFits budget countsCpu) := by
  obtain ⟨last, hstate⟩ := foldl_cutStep_soFar budget countsCpu k
  refine List.isChain_append.mpr ⟨hstate.closed_fit, List.isChain_singleton _, ?_⟩
  intro low hlow high hhigh
  obtain rfl : last = low := Option.some.inj (hstate.getLast_eq.symm.trans hlow)
  obtain rfl : k = high := Option.some.inj hhigh
  exact hstate.open_fits

/-! ## The budget in bytes -/

/-- The bytes that a rank contributes to a round. -/
def payload (perElem : ℕ) (countsCpu : List (List ℕ)) (cut : ℕ × ℕ) : ℕ :=
  paddedLength (roundCounts countsCpu cut) * perElem

/-- The budget is at least one entry. -/
theorem budget_mul_le (perElem : ℕ) (maxRoundBytes : ℤ) {length : ℕ}
    (hlength : length ≤ (max (maxRoundBytes / perElem) 1).toNat) :
    ((length * perElem : ℕ) : ℤ) ≤ max maxRoundBytes perElem := by
  have hbudget : (length : ℤ) ≤ max (maxRoundBytes / perElem) 1 := by omega
  have hnonneg : (0 : ℤ) ≤ perElem := Int.natCast_nonneg perElem
  rw [Int.natCast_mul]
  rcases le_max_iff.mp hbudget with hbytes | hone
  · calc (length : ℤ) * perElem ≤ maxRoundBytes / perElem * perElem :=
          mul_le_mul_of_nonneg_right hbytes hnonneg
      _ ≤ max maxRoundBytes perElem := by
          rcases eq_or_ne (perElem : ℤ) 0 with hzero | hne
          · rw [hzero, mul_zero]
            exact le_max_right _ _
          · exact (Int.ediv_mul_le maxRoundBytes hne).trans (le_max_left _ _)
  · calc (length : ℤ) * perElem ≤ 1 * perElem := mul_le_mul_of_nonneg_right hone hnonneg
      _ ≤ max maxRoundBytes perElem := by
          rw [one_mul]
          exact le_max_right _ _

theorem roundCuts_payload (perElem : ℕ) (maxRoundBytes : ℤ) (countsCpu : List (List ℕ))
    {k : ℕ} {cut : ℕ × ℕ} (hcut : cut ∈ (roundCuts perElem maxRoundBytes countsCpu k).zip
      (roundCuts perElem maxRoundBytes countsCpu k).tail) :
    (payload perElem countsCpu cut : ℤ) ≤ max maxRoundBytes perElem ∨
      cut.2 ≤ cut.1 + 1 := by
  have hchain : (roundCuts perElem maxRoundBytes countsCpu k).IsChain
      (RoundFits (max (maxRoundBytes / perElem) 1).toNat countsCpu) := by
    unfold roundCuts
    split
    next => exact cutsOf_fit _ countsCpu k
    next hfew => exact List.isChain_pair.mpr (.inr (by omega))
  rcases rel_of_mem_zip_tail hchain hcut with hfits | hsingle
  · exact .inl (budget_mul_le perElem maxRoundBytes hfits)
  · exact .inr hsingle

/-! ## The rounds together -/

section Gather

variable {k : ℕ} (pieces : Fin (peers + 1) → Fin k → List (ℤ × V)) (zero : V) (group : Group)
  (slots : List Slot)

def singleRound (rank : Fin (peers + 1)) : GatherProg Group V (Option (List (List ℤ × List V))) :=
  gatherRound rank zero group slots (positionsOf (List.ofFn (pieces rank)))
    (valuesOf (List.ofFn (pieces rank))) ((List.ofFn (pieces rank)).map List.length)

def budgeted (perElem : ℕ) (maxRoundBytes : ℤ) (rank : Fin (peers + 1)) :
    GatherProg Group V (Option (List (List ℤ × List V))) :=
  gatherSlotEntriesToRank0 rank zero perElem maxRoundBytes group slots
    (positionsOf (List.ofFn (pieces rank))) (valuesOf (List.ofFn (pieces rank)))
    ((List.ofFn (pieces rank)).map List.length)

/-- The table of counts that every rank receives. -/
def countsTable : List (List ℕ) := countsOf fun rank => List.ofFn (pieces rank)

/-- Both gathers complete with the same entries on rank 0.  Every rank issues the
calls of the same rounds, and a round stays within the budget, which is at least one
entry, unless it has a single slot. -/
theorem budgeted_gather_eq_singleRound (perElem : ℕ) (maxRoundBytes : ℤ) :
    Joint (exchange Group V) (budgeted pieces zero group slots perElem maxRoundBytes)
        (gatherCalls group slots (countsTable pieces)
          (roundCuts perElem maxRoundBytes (countsTable pieces) k))
        (gatherResult (fun rank => List.ofFn (pieces rank)) k) ∧
      Joint (exchange Group V) (singleRound pieces zero group slots)
        (.allGather group slots :: blobCalls group slots (countsTable pieces))
        (gatherResult (fun rank => List.ofFn (pieces rank)) k) ∧
      (∀ rank, ∃ replies : List ((call : Collective Group) × Recv Group V call),
        replies.map Sigma.fst = gatherCalls group slots (countsTable pieces)
            (roundCuts perElem maxRoundBytes (countsTable pieces) k) ∧
          (budgeted pieces zero group slots perElem maxRoundBytes rank).Issues replies
            (gatherResult (fun rank => List.ofFn (pieces rank)) k rank)) ∧
      ∀ cut ∈ (roundCuts perElem maxRoundBytes (countsTable pieces) k).zip
          (roundCuts perElem maxRoundBytes (countsTable pieces) k).tail,
        (payload perElem (countsTable pieces) cut : ℤ) ≤ max maxRoundBytes perElem ∨
          cut.2 ≤ cut.1 + 1 := by
  have hlength : ∀ rank, (List.ofFn (pieces rank)).length = k := fun rank => List.length_ofFn
  have hbudgeted := gatherSlotEntriesToRank0_calls (fun rank => List.ofFn (pieces rank)) zero
    group slots hlength perElem maxRoundBytes
  refine ⟨hbudgeted, ?_, hbudgeted.issues, ?_⟩
  · exact gatherRound_joint (fun rank => List.ofFn (pieces rank)) zero group slots hlength
  · intro cut hcut
    exact roundCuts_payload perElem maxRoundBytes (countsTable pieces) hcut

end Gather

/-- One rank with an entry in the first of two slots. -/
def loneEntry : Fin 1 → Fin 2 → List (ℤ × Unit) := fun _ => ![[(0, ())], []]

/-- A budget of one byte and entries of twelve: two slots share a round although the
entry of the first one alone exceeds the budget. -/
theorem byteBudget_exceeded :
    ∃ cut ∈ (roundCuts 12 1 (countsTable loneEntry) 2).zip
        (roundCuts 12 1 (countsTable loneEntry) 2).tail,
      (1 : ℤ) < payload 12 (countsTable loneEntry) cut ∧ cut.1 + 1 < cut.2 :=
  ⟨(0, 2), by decide, by decide, by decide⟩

end OneShotOPD.DeltaSync
