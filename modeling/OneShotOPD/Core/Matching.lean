import Mathlib.Data.List.Forall2
import Mathlib.Data.List.Perm.Basic
import Mathlib.Tactic.Common

/-!
# First-fit assignment and perfect matchings

The items on one side take, in order, the first item on the other side that
fits and is still free.  This file compares the outcome with the existence of a
perfect matching.  It is the same for every order of the two sides exactly when
there is no perfect matching or the fitting relation splits into complete
blocks.
-/

namespace OneShotOPD.Matching

variable {α β : Type} (fits : α → β → Bool)

/-- Every request takes the first offer that fits and removes it. -/
def firstFit : List α → List β → Bool
  | _, [] => true
  | offers, request :: requests =>
      if offers.any fun offer => fits offer request then
        firstFit (offers.eraseP fun offer => fits offer request) requests
      else false

/-- The offers can be lined up so that each fits its request. -/
def Matched (offers : List α) (requests : List β) : Prop :=
  ∃ lined, lined.Perm offers ∧
    List.Forall₂ (fun offer request => fits offer request = true) lined requests

/-- Requests that share an offer share all of them. -/
def Blocks (offers : List α) (requests : List β) : Prop :=
  ∀ left ∈ offers, ∀ right ∈ offers, ∀ first ∈ requests, ∀ second ∈ requests,
    fits left first → fits left second → fits right first → fits right second

variable {fits}

/-! ## What first fit finds -/

theorem firstFit_cons {offers : List α} {request : β} {requests : List β}
    (hfit : firstFit fits offers (request :: requests) = true) :
    ∃ before offer after, offers = before ++ offer :: after ∧
      fits offer request = true ∧ firstFit fits (before ++ after) requests = true := by
  simp only [firstFit] at hfit
  split at hfit
  next hany =>
    obtain ⟨found, hmem, hfound⟩ := List.any_eq_true.mp hany
    obtain ⟨offer, before, after, _, hoffer, hsplit, herase⟩ :=
      List.exists_of_eraseP hmem (p := fun offer => fits offer request) hfound
    exact ⟨before, offer, after, hsplit, hoffer, herase ▸ hfit⟩
  next => cases hfit

/-- A complete assignment by first fit is a perfect matching. -/
theorem matched_of_firstFit {offers : List α} {requests : List β}
    (hlength : offers.length = requests.length)
    (hfit : firstFit fits offers requests = true) : Matched fits offers requests := by
  induction requests generalizing offers with
  | nil =>
      obtain rfl : offers = [] := List.length_eq_zero_iff.mp hlength
      exact ⟨[], .refl _, .nil⟩
  | cons request requests ih =>
      obtain ⟨before, offer, after, rfl, hoffer, hrest⟩ := firstFit_cons hfit
      have hshorter : (before ++ after).length = requests.length := by
        simp at hlength ⊢
        omega
      obtain ⟨lined, hperm, hlined⟩ := ih hshorter hrest
      refine ⟨offer :: lined, ?_, .cons hoffer hlined⟩
      calc
        offer :: lined |>.Perm (offer :: (before ++ after)) := hperm.cons offer
        _ |>.Perm (before ++ offer :: after) := List.perm_middle.symm

theorem Matched.perm_left {offers others : List α} {requests : List β}
    (hmatched : Matched fits offers requests) (hperm : offers.Perm others) :
    Matched fits others requests := by
  obtain ⟨lined, hlined, hfits⟩ := hmatched
  exact ⟨lined, hlined.trans hperm, hfits⟩

theorem Matched.perm_right {offers : List α} {requests others : List β}
    (hmatched : Matched fits offers requests) (hperm : requests.Perm others) :
    Matched fits offers others := by
  obtain ⟨lined, hlined, hfits⟩ := hmatched
  have hcomp : Relation.Comp (List.Forall₂ fun offer request => fits offer request = true)
      List.Perm lined others := ⟨requests, hfits, hperm⟩
  rw [List.forall₂_comp_perm_eq_perm_comp_forall₂] at hcomp
  obtain ⟨moved, hmoved, hmovedFits⟩ := hcomp
  exact ⟨moved, hmoved.symm.trans hlined, hmovedFits⟩

theorem Matched.length_eq {offers : List α} {requests : List β}
    (hmatched : Matched fits offers requests) : offers.length = requests.length := by
  obtain ⟨lined, hperm, hfits⟩ := hmatched
  rw [← hperm.length_eq, hfits.length_eq]

/-- Splitting a matched list of offers at one of them splits the requests. -/
private theorem forall₂_split {before after : List α} {offer : α} {requests : List β}
    (hfits : List.Forall₂ (fun offer request => fits offer request = true)
      (before ++ offer :: after) requests) :
    ∃ head request tail, requests = head ++ request :: tail ∧
      fits offer request = true ∧
      List.Forall₂ (fun offer request => fits offer request = true) before head ∧
      List.Forall₂ (fun offer request => fits offer request = true) after tail := by
  induction before generalizing requests with
  | nil =>
      cases hfits with
      | cons hoffer hafter => exact ⟨[], _, _, rfl, hoffer, .nil, hafter⟩
  | cons other before ih =>
      cases hfits with
      | cons hother hrest =>
          obtain ⟨head, request, tail, rfl, hoffer, hbefore, hafter⟩ := ih hrest
          exact ⟨_ :: head, request, tail, rfl, hoffer, .cons hother hbefore, hafter⟩

theorem Blocks.mono {offers others : List α} {requests fewer : List β}
    (hblocks : Blocks fits offers requests) (hoffers : ∀ offer ∈ others, offer ∈ offers)
    (hrequests : ∀ request ∈ fewer, request ∈ requests) : Blocks fits others fewer :=
  fun left hleft right hright first hfirst second hsecond =>
    hblocks left (hoffers left hleft) right (hoffers right hright) first
      (hrequests first hfirst) second (hrequests second hsecond)

/-- Within complete blocks first fit cannot go wrong: the offer it takes and the
one the matching uses are interchangeable. -/
theorem firstFit_of_blocks {offers : List α} {requests : List β}
    (hblocks : Blocks fits offers requests) (hmatched : Matched fits offers requests) :
    firstFit fits offers requests = true := by
  induction requests generalizing offers with
  | nil => rfl
  | cons request requests ih =>
      obtain ⟨lined, hperm, hlined⟩ := hmatched
      cases hlined with
      | @cons used _ rest _ hused hrest =>
      have husedMem : used ∈ offers := hperm.mem_iff.mp (by simp)
      obtain ⟨taken, before, after, _, htaken, hsplit, herase⟩ :=
        List.exists_of_eraseP husedMem (p := fun offer => fits offer request) hused
      have hany : offers.any fun offer => fits offer request :=
        List.any_eq_true.mpr ⟨used, husedMem, hused⟩
      have htakenMem : taken ∈ offers := by simp [hsplit]
      rw [firstFit, if_pos hany, herase]
      have hremaining : (taken :: (before ++ after)).Perm (used :: rest) := by
        rw [hsplit] at hperm
        exact List.perm_middle.symm.trans hperm.symm
      apply ih (hblocks.mono (fun offer hoffer => ?_) fun other hother => by simp [hother])
      · rcases List.mem_cons.mp (hremaining.mem_iff.mp List.mem_cons_self) with
          rfl | hlater
        · exact ⟨rest, (List.Perm.cons_inv hremaining).symm, hrest⟩
        · obtain ⟨front, back, rfl⟩ := List.append_of_mem hlater
          obtain ⟨head, other, tail, rfl, hother, hfront, hback⟩ := forall₂_split hrest
          have hswap : fits used other = true :=
            hblocks taken htakenMem used husedMem request (by simp) other (by simp)
              htaken hother hused
          refine ⟨front ++ used :: back, ?_, List.rel_append hfront (.cons hswap hback)⟩
          have hmoved : (taken :: (before ++ after)).Perm
              (taken :: (front ++ used :: back)) := by
            calc
              taken :: (before ++ after) |>.Perm (used :: (front ++ taken :: back)) :=
                hremaining
              _ |>.Perm (used :: taken :: (front ++ back)) :=
                List.perm_middle.cons used
              _ |>.Perm (taken :: used :: (front ++ back)) := .swap taken used _
              _ |>.Perm (taken :: (front ++ used :: back)) :=
                List.perm_middle.symm.cons taken
          exact (List.Perm.cons_inv hmoved).symm
      · rw [hsplit]
        simp only [List.mem_append, List.mem_cons] at hoffer ⊢
        tauto

/-! ## First fit in every order -/

/-- Requests whose offers stand in front of them in the same order are served as
they stand. -/
theorem firstFit_append {lined rest : List α} {taken others : List β}
    (hfits : List.Forall₂ (fun offer request => fits offer request = true) lined taken) :
    firstFit fits (lined ++ rest) (taken ++ others) = firstFit fits rest others := by
  induction hfits with
  | nil => rfl
  | cons hoffer _ ih => simpa [firstFit, hoffer] using ih

/-- First fit succeeds for every order of the two sides. -/
def Robust (fits : α → β → Bool) (offers : List α) (requests : List β) : Prop :=
  ∀ others, others.Perm offers → ∀ moved, moved.Perm requests →
    firstFit fits others moved = true

/-- If first fit succeeds in every order, every partial matching can be
completed. -/
theorem Robust.matched_rest {offers rest : List α} {requests others : List β}
    (hrobust : Robust fits offers requests) (hlength : offers.length = requests.length)
    (lined : List α) (taken : List β) (hoffers : (lined ++ rest).Perm offers)
    (hrequests : (taken ++ others).Perm requests)
    (hfits : List.Forall₂ (fun offer request => fits offer request = true) lined taken) :
    Matched fits rest others := by
  apply matched_of_firstFit
  · have hleft := hoffers.length_eq
    have hright := hrequests.length_eq
    have htaken := hfits.length_eq
    simp only [List.length_append] at hleft hright
    omega
  · rw [← firstFit_append hfits]
    exact hrobust _ hoffers _ hrequests

private theorem perm_pair {γ : Type} [DecidableEq γ] {items : List γ} {first second : γ}
    (hfirst : first ∈ items) (hsecond : second ∈ items) (hne : second ≠ first) :
    ∃ rest, (first :: second :: rest).Perm items := by
  refine ⟨(items.erase first).erase second, ?_⟩
  have hmem : second ∈ items.erase first := (List.mem_erase_of_ne hne).mpr hsecond
  exact ((List.perm_cons_erase hmem).symm.cons first).trans
    (List.perm_cons_erase hfirst).symm

/-- A pair of offers that share a request and not another one leads to a partial
matching without completion. -/
theorem Robust.blocks {offers : List α} {requests : List β}
    (hrobust : Robust fits offers requests) (hlength : offers.length = requests.length) :
    Blocks fits offers requests := by
  classical
  intro left hleft right hright first hfirst second hsecond hlf hls hrf
  by_cases hoffer : right = left
  · exact hoffer ▸ hls
  by_cases hrequest : second = first
  · exact hrequest ▸ hrf
  obtain ⟨offersRest, hoffers⟩ := perm_pair hleft hright hoffer
  obtain ⟨requestsRest, hrequests⟩ := perm_pair hfirst hsecond hrequest
  -- Serving `first` from `left`, the others can be completed.
  obtain ⟨lined, hlined, hfits⟩ : Matched fits (right :: offersRest)
      (second :: requestsRest) :=
    hrobust.matched_rest hlength [left] [first] hoffers hrequests (.cons hlf .nil)
  cases hfits with
  | @cons partner _ remaining _ hpartner hremaining =>
  rcases List.mem_cons.mp (hlined.mem_iff.mpr List.mem_cons_self) with rfl | hlater
  · exact hpartner
  obtain ⟨front, back, rfl⟩ := List.append_of_mem hlater
  obtain ⟨head, third, tail, rfl, hthird, hfront, hback⟩ := forall₂_split hremaining
  have hrest : (partner :: (front ++ back)).Perm offersRest := by
    have hmoved : (right :: partner :: (front ++ back)).Perm (right :: offersRest) := by
      calc
        right :: partner :: (front ++ back) |>.Perm (partner :: right :: (front ++ back)) :=
          .swap partner right _
        _ |>.Perm (partner :: (front ++ right :: back)) :=
          List.perm_middle.symm.cons partner
        _ |>.Perm (right :: offersRest) := hlined
    exact hmoved.cons_inv
  have hall : (left :: right :: partner :: (front ++ back)).Perm offers :=
    ((hrest.cons right).cons left).trans hoffers
  have hallRequests : (first :: second :: third :: (head ++ tail)).Perm requests :=
    ((List.perm_middle.symm.cons second).cons first).trans hrequests
  have hmiddle := List.rel_append hfront hback
  by_cases hcross : fits partner third = true
  · -- `left` and `partner` serve `first` and `third`: only `right`-`second` is left.
    obtain ⟨last, hlast, hlastFits⟩ : Matched fits [right] [second] := by
      apply hrobust.matched_rest hlength (left :: partner :: (front ++ back))
        (first :: third :: (head ++ tail)) _ _ (.cons hlf (.cons hcross hmiddle))
      · exact ((List.perm_append_singleton right _).cons left).trans hall
      · exact ((List.perm_append_singleton second _).cons first).trans hallRequests
    obtain rfl := List.perm_singleton.mp hlast
    cases hlastFits with
    | cons hfinal _ => exact hfinal
  · -- `right` and `left` serve `first` and `second`: only `partner`-`third` is left.
    obtain ⟨last, hlast, hlastFits⟩ : Matched fits [partner] [third] := by
      apply hrobust.matched_rest hlength (right :: left :: (front ++ back))
        (first :: second :: (head ++ tail)) _ _ (.cons hrf (.cons hls hmiddle))
      · exact (((List.perm_append_singleton partner _).cons left).cons right).trans
          ((List.Perm.swap left right _).trans hall)
      · exact (((List.perm_append_singleton third _).cons second).cons first).trans
          hallRequests
    obtain rfl := List.perm_singleton.mp hlast
    cases hlastFits with
    | cons hfinal _ => exact absurd hfinal hcross

/-- In every order first fit answers whether there is a perfect matching,
exactly when there is none or the relation splits into complete blocks. -/
theorem firstFit_exact_iff {offers : List α} {requests : List β}
    (hlength : offers.length = requests.length) :
    (∀ others, others.Perm offers → ∀ moved, moved.Perm requests →
        (firstFit fits others moved = true ↔ Matched fits offers requests)) ↔
      (Matched fits offers requests → Blocks fits offers requests) := by
  constructor
  · intro hexact hmatched
    have hrobust : Robust fits offers requests := fun others hothers moved hmoved =>
      (hexact others hothers moved hmoved).mpr hmatched
    exact hrobust.blocks hlength
  · intro hblocks others hothers moved hmoved
    constructor
    · intro hfit
      have hfound := matched_of_firstFit
        (hothers.length_eq.trans (hlength.trans hmoved.length_eq.symm)) hfit
      exact (hfound.perm_left hothers).perm_right hmoved
    · intro hmatched
      apply firstFit_of_blocks
      · exact (hblocks hmatched).mono (fun _ hmem => hothers.mem_iff.mp hmem)
          fun _ hmem => hmoved.mem_iff.mp hmem
      · exact (hmatched.perm_left hothers.symm).perm_right hmoved.symm

end OneShotOPD.Matching
