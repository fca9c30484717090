import OneShotOPD.Algos.Estimators
import OneShotOPD.Algos.PolicyLoss
import OneShotOPD.Core.Backward
import OneShotOPD.Core.Literals
import Mathlib

/-!
# Recursions over a response with holes

GAE and the discounted returns of REINFORCE++ run over all positions of a row and
multiply with the mask.  On the response tokens this is the textbook recursion over
the response without its holes.
-/

namespace OneShotOPD.CoreAlgos

open Checks

variable {B T : ℕ}

/-! ## The textbook recursions -/

/-- The first of a list of values, or zero behind the end. -/
def headOrZero (values : List ℝ) : ℝ := values.headD 0

/-- Generalised advantage estimation over rewards and values:
`A t = r t + γ V (t + 1) - V t + γ λ A (t + 1)`, with nothing behind the end. -/
noncomputable def textbookGae (gamma lam : ℝ) : List (ℝ × ℝ) → List ℝ
  | [] => []
  | (reward, value) :: rest =>
      (reward + gamma * headOrZero (rest.map Prod.snd) - value +
        gamma * lam * headOrZero (textbookGae gamma lam rest)) :: textbookGae gamma lam rest

/-- `R t = r t + γ R (t + 1)`. -/
noncomputable def textbookReturns (gamma : ℝ) : List ℝ → List ℝ
  | [] => []
  | reward :: rest =>
      (reward + gamma * headOrZero (textbookReturns gamma rest)) :: textbookReturns gamma rest

def responsePositions (mask : Fin T → Bool) : List (Fin T) := (List.finRange T).filter mask

/-! ## The loops as backward runs -/

section Row

variable (gamma lam : ℝ) (rewards values : Fin T → ℝ) (mask : Fin T → Bool)

/-- The next value and the running advantage after a response token. -/
noncomputable def gaeUpdate (position : Fin T) (state : ℝ × ℝ) : ℝ × ℝ :=
  (values position,
    rewards position + gamma * state.1 - values position + gamma * lam * state.2)

theorem gaeFold_eq_run (positions : List (Fin T)) :
    positions.foldr (gaeStep gamma lam rewards values
        fun position => if mask position then 1 else 0) ⟨0, 0, []⟩ =
      let result := Backward.run
        (Backward.skipping mask (gaeUpdate gamma lam rewards values))
        (fun _ state => state.2) (0, 0) positions
      ⟨result.1.1, result.1.2, result.2⟩ := by
  induction positions with
  | nil => rfl
  | cons position positions ih =>
      rw [List.foldr_cons, ih]
      by_cases hmask : mask position
      · simp [gaeStep, Backward.run, Backward.skipping, gaeUpdate, hmask]
      · simp [gaeStep, Backward.run, Backward.skipping, hmask]

/-- Over response tokens alone the run is the textbook recursion. -/
theorem run_gaeUpdate (positions : List (Fin T)) :
    Backward.run (gaeUpdate gamma lam rewards values) (fun _ state => state.2) (0, 0)
        positions =
      ((headOrZero (positions.map values),
        headOrZero (textbookGae gamma lam (positions.map fun position =>
          (rewards position, values position)))),
        textbookGae gamma lam (positions.map fun position =>
          (rewards position, values position))) := by
  induction positions with
  | nil => rfl
  | cons position positions ih =>
      simp only [Backward.run, ih, gaeUpdate, List.map_cons, textbookGae, List.map_map]
      rfl

theorem gaeRow_response :
    (responsePositions mask).map (fun position : Fin T =>
        (gaeRow gamma lam rewards values fun position =>
          if mask position then 1 else 0).getD position 0) =
      textbookGae gamma lam ((responsePositions mask).map fun position =>
        (rewards position, values position)) := by
  have hrun := (Backward.run_skipping (gaeUpdate gamma lam rewards values)
    (fun _ state => state.2) (0, 0) mask (List.finRange T)).2
  rw [run_gaeUpdate] at hrun
  rw [gaeRow, gaeFold_eq_run]
  have hlength := Backward.length_run
    (Backward.skipping mask (gaeUpdate gamma lam rewards values))
    (fun _ state => state.2) (0, 0) (List.finRange T)
  rw [List.length_finRange] at hlength
  rw [Backward.keptValues_finRange mask hlength 0] at hrun
  exact hrun

noncomputable def returnUpdate (position : Fin T) (state : ℝ) : ℝ :=
  rewards position + gamma * state

theorem returnFold_eq_run (positions : List (Fin T)) :
    positions.foldr (returnStep gamma rewards
        fun position => if mask position then 1 else 0) ⟨0, []⟩ =
      let result := Backward.run
        (Backward.skipping mask (returnUpdate gamma rewards))
        (fun position state => if mask position then state else 0) 0 positions
      ⟨result.1, result.2⟩ := by
  induction positions with
  | nil => rfl
  | cons position positions ih =>
      rw [List.foldr_cons, ih]
      by_cases hmask : mask position
      · simp [returnStep, Backward.run, Backward.skipping, returnUpdate, hmask]
      · simp [returnStep, Backward.run, Backward.skipping, hmask]

theorem run_returnUpdate {positions : List (Fin T)}
    (hpositions : ∀ position ∈ positions, mask position) :
    Backward.run (returnUpdate gamma rewards)
        (fun position state => if mask position then state else 0) 0 positions =
      (headOrZero (textbookReturns gamma (positions.map rewards)),
        textbookReturns gamma (positions.map rewards)) := by
  induction positions with
  | nil => rfl
  | cons position positions ih =>
      have hrest := ih fun other hother => hpositions other (List.mem_cons_of_mem _ hother)
      simp only [Backward.run, hrest, returnUpdate, List.map_cons, textbookReturns,
        hpositions position List.mem_cons_self, if_true]
      rfl

theorem returnRow_response :
    (responsePositions mask).map (fun position : Fin T =>
        (returnRow gamma rewards fun position =>
          if mask position then 1 else 0).getD position 0) =
      textbookReturns gamma ((responsePositions mask).map rewards) := by
  have hmasked : ∀ position ∈ (List.finRange T).filter mask, mask position :=
    fun position hposition => (List.mem_filter.mp hposition).2
  have hrun := (Backward.run_skipping (returnUpdate gamma rewards)
    (fun position state => if mask position then state else 0) 0 mask (List.finRange T)).2
  rw [run_returnUpdate gamma rewards mask hmasked] at hrun
  rw [returnRow, returnFold_eq_run]
  have hlength := Backward.length_run
    (Backward.skipping mask (returnUpdate gamma rewards))
    (fun position state => if mask position then state else 0) 0 (List.finRange T)
  rw [List.length_finRange] at hlength
  rw [Backward.keptValues_finRange mask hlength 0] at hrun
  exact hrun

end Row

/-! ## The estimators on a batch -/

section Batch

variable (tokenLevelRewards values : Grid B T) (responseMask : ResponseMask B T)
variable (gamma lam : ℝ)

/-- The GAE advantages before they are whitened. -/
noncomputable def gaeAdvantages : Grid B T := fun row position =>
  (gaeRow gamma lam (tokenLevelRewards row) (values row)
    (responseMask.toGrid row)).getD position 0

noncomputable def gaeReturns : Grid B T := fun row position =>
  gaeAdvantages tokenLevelRewards values responseMask gamma lam row position + values row position

/-- The returns of REINFORCE++. -/
noncomputable def discountedReturns : Grid B T := fun row position =>
  (returnRow gamma (tokenLevelRewards row) (responseMask.toGrid row)).getD position 0

/-- The entries of a row at its response tokens, from the first to the last. -/
def onResponse (grid : Grid B T) (row : Fin B) : List ℝ :=
  (responsePositions (responseMask row)).map (grid row)

def SameOnResponse (grid other : Grid B T) : Prop :=
  ∀ row position, responseMask row position → grid row position = other row position

theorem SameOnResponse.onResponse_eq {responseMask : ResponseMask B T} {grid other : Grid B T}
    (hsame : SameOnResponse responseMask grid other) (row : Fin B) :
    onResponse responseMask grid row = onResponse responseMask other row := by
  apply List.map_congr_left
  intro position hposition
  exact hsame row position (List.mem_filter.mp hposition).2

/-- Grids that agree as lists over the response tokens agree at each of them. -/
theorem sameOnResponse_of_onResponse_eq {responseMask : ResponseMask B T}
    {grid other : Grid B T}
    (hlists : ∀ row, onResponse responseMask grid row = onResponse responseMask other row) :
    SameOnResponse responseMask grid other := by
  intro row position hresponse
  have hmem : position ∈ responsePositions (responseMask row) :=
    List.mem_filter.mpr ⟨List.mem_finRange position, hresponse⟩
  exact List.map_inj_left.mp (hlists row) position hmem

theorem onResponse_gaeAdvantages (row : Fin B) :
    onResponse responseMask (gaeAdvantages tokenLevelRewards values responseMask gamma lam) row =
      textbookGae gamma lam ((onResponse responseMask tokenLevelRewards row).zip
        (onResponse responseMask values row)) := by
  rw [onResponse, onResponse, onResponse, List.zip_map']
  exact gaeRow_response gamma lam (tokenLevelRewards row) (values row) (responseMask row)

theorem onResponse_gaeReturns (row : Fin B) :
    onResponse responseMask (gaeReturns tokenLevelRewards values responseMask gamma lam) row =
      List.zipWith (· + ·)
        (textbookGae gamma lam ((onResponse responseMask tokenLevelRewards row).zip
          (onResponse responseMask values row)))
        (onResponse responseMask values row) := by
  rw [← onResponse_gaeAdvantages, onResponse, onResponse, onResponse, List.zipWith_map,
    List.zipWith_self]
  rfl

theorem onResponse_discountedReturns (row : Fin B) :
    onResponse responseMask (discountedReturns tokenLevelRewards responseMask gamma) row =
      textbookReturns gamma (onResponse responseMask tokenLevelRewards row) :=
  returnRow_response gamma (tokenLevelRewards row) (responseMask row)

/-- On the response tokens the advantages and returns of GAE and the returns of
REINFORCE++ are the textbook recursions over the response without its holes; what is
stored in the holes has no influence there. -/
theorem masked_recursions_skip_holes :
    (computeGaeAdvantageReturn tokenLevelRewards values responseMask.toGrid gamma lam =
        (maskedWhiten (gaeAdvantages tokenLevelRewards values responseMask gamma lam)
          responseMask.toGrid).map fun whitened =>
            (whitened, gaeReturns tokenLevelRewards values responseMask gamma lam)) ∧
      (computeReinforcePlusPlusOutcomeAdvantage tokenLevelRewards responseMask.toGrid gamma =
        (maskedWhiten (discountedReturns tokenLevelRewards responseMask gamma)
          responseMask.toGrid).map fun whitened =>
            (fun row position => whitened row position * responseMask.toGrid row position,
              discountedReturns tokenLevelRewards responseMask gamma)) ∧
      (∀ row,
        onResponse responseMask
            (gaeAdvantages tokenLevelRewards values responseMask gamma lam) row =
          textbookGae gamma lam ((onResponse responseMask tokenLevelRewards row).zip
            (onResponse responseMask values row)) ∧
        onResponse responseMask (gaeReturns tokenLevelRewards values responseMask gamma lam) row =
          List.zipWith (· + ·)
            (textbookGae gamma lam ((onResponse responseMask tokenLevelRewards row).zip
              (onResponse responseMask values row)))
            (onResponse responseMask values row) ∧
        onResponse responseMask (discountedReturns tokenLevelRewards responseMask gamma) row =
          textbookReturns gamma (onResponse responseMask tokenLevelRewards row)) ∧
      ∀ otherRewards otherValues : Grid B T,
        SameOnResponse responseMask tokenLevelRewards otherRewards →
        SameOnResponse responseMask values otherValues →
        SameOnResponse responseMask
            (gaeAdvantages tokenLevelRewards values responseMask gamma lam)
            (gaeAdvantages otherRewards otherValues responseMask gamma lam) ∧
          SameOnResponse responseMask
            (gaeReturns tokenLevelRewards values responseMask gamma lam)
            (gaeReturns otherRewards otherValues responseMask gamma lam) ∧
          SameOnResponse responseMask (discountedReturns tokenLevelRewards responseMask gamma)
            (discountedReturns otherRewards responseMask gamma) := by
  refine ⟨?_, ?_, fun row => ⟨onResponse_gaeAdvantages .., onResponse_gaeReturns ..,
    onResponse_discountedReturns ..⟩, ?_⟩
  · exact (map_eq_pure_bind (fun whitened =>
        (whitened, gaeReturns tokenLevelRewards values responseMask gamma lam))
      (maskedWhiten (gaeAdvantages tokenLevelRewards values responseMask gamma lam)
        responseMask.toGrid)).symm
  · exact (map_eq_pure_bind (fun whitened =>
        ((fun row position => whitened row position * responseMask.toGrid row position : Grid B T),
          discountedReturns tokenLevelRewards responseMask gamma))
      (maskedWhiten (discountedReturns tokenLevelRewards responseMask gamma)
        responseMask.toGrid)).symm
  · intro otherRewards otherValues hrewards hvalues
    refine ⟨?_, ?_, ?_⟩
    · apply sameOnResponse_of_onResponse_eq
      intro row
      rw [onResponse_gaeAdvantages, onResponse_gaeAdvantages, hrewards.onResponse_eq,
        hvalues.onResponse_eq]
    · apply sameOnResponse_of_onResponse_eq
      intro row
      rw [onResponse_gaeReturns, onResponse_gaeReturns, hrewards.onResponse_eq,
        hvalues.onResponse_eq]
    · apply sameOnResponse_of_onResponse_eq
      intro row
      rw [onResponse_discountedReturns, onResponse_discountedReturns, hrewards.onResponse_eq]

end Batch

attribute [local instance] Literals.atLeastTwo_two in
/-- A tool token between two response tokens, where anything may be stored. -/
def holeGrid (stored : ℝ) : Grid 1 3 := fun _ => ![1, stored, 2]

/-- One hole with two different contents. -/
theorem holeGrid_recursions :
    onResponse (fun _ => ![true, false, true])
        (gaeAdvantages (holeGrid 5) (holeGrid 7) (fun _ => ![true, false, true]) 1 1) 0 = [2, 0] ∧
      SameOnResponse (fun _ => ![true, false, true])
        (gaeReturns (holeGrid 5) (holeGrid 7) (fun _ => ![true, false, true]) 1 1)
        (gaeReturns (holeGrid 0) (holeGrid 9) (fun _ => ![true, false, true]) 1 1) := by
  have hsame : ∀ stored other : ℝ,
      SameOnResponse (fun _ => ![true, false, true]) (holeGrid stored) (holeGrid other) := by
    intro stored other row position hresponse
    fin_cases position
    · rfl
    · exact absurd hresponse Bool.false_ne_true
    · rfl
  obtain ⟨_, _, hrows, hholes⟩ := masked_recursions_skip_holes (holeGrid 5) (holeGrid 7)
    (fun _ => ![true, false, true]) 1 1
  refine ⟨?_, (hholes (holeGrid 0) (holeGrid 9) (hsame 5 0) (hsame 7 9)).2.1⟩
  have hresponse : ∀ stored : ℝ,
      onResponse (fun _ => ![true, false, true]) (holeGrid stored) 0 = [1, 2] := by
    intro stored
    have hpositions : responsePositions (![true, false, true] : Fin 3 → Bool) = [0, 2] := by
      decide
    rw [onResponse, hpositions]
    rfl
  rw [(hrows 0).1, hresponse, hresponse]
  norm_num [textbookGae, headOrZero]

end OneShotOPD.CoreAlgos
