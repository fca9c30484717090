import Mathlib.Data.List.Basic
import Mathlib.Data.List.FinRange

/-!
# Recursions from the last item to the first

A loop that runs backwards carries a state and emits a value at every item.  When it
leaves the state alone at some of the items, the others see what they would see if
these were not there.
-/

namespace OneShotOPD.Backward

variable {α β σ : Type}

/-- The state in front of the first item, and what was emitted. -/
def run (step : α → σ → σ) (emit : α → σ → β) (start : σ) : List α → σ × List β
  | [] => (start, [])
  | item :: items =>
      let rest := run step emit start items
      let state := step item rest.1
      (state, emit item state :: rest.2)

/-- A step that leaves the state alone at some items. -/
def skipping (keep : α → Bool) (step : α → σ → σ) (item : α) (state : σ) : σ :=
  if keep item then step item state else state

variable (step : α → σ → σ) (emit : α → σ → β) (start : σ) (keep : α → Bool)

@[simp]
theorem length_run (items : List α) : (run step emit start items).2.length = items.length := by
  induction items with
  | nil => rfl
  | cons item items ih => simp [run, ih]

/-- The kept values of a list of values, one for each item. -/
def keptValues (items : List α) (values : List β) : List β :=
  ((items.zip values).filter fun pair => keep pair.1).map Prod.snd

/-- Skipped items leave no trace, neither in the state nor at the kept items. -/
theorem run_skipping (items : List α) :
    (run (skipping keep step) emit start items).1 =
        (run step emit start (items.filter keep)).1 ∧
      keptValues keep items (run (skipping keep step) emit start items).2 =
        (run step emit start (items.filter keep)).2 := by
  induction items with
  | nil => exact ⟨rfl, rfl⟩
  | cons item items ih =>
      obtain ⟨hstate, hvalues⟩ := ih
      by_cases hkeep : keep item
      · rw [List.filter_cons_of_pos hkeep]
        simp only [run, skipping, hkeep, if_true, hstate, true_and]
        unfold keptValues at hvalues ⊢
        simp only [List.zip_cons_cons, List.filter_cons, hkeep, if_true, List.map_cons, hvalues]
      · rw [List.filter_cons_of_neg hkeep]
        simp only [run, skipping, hkeep, Bool.false_eq_true, if_false, hstate, true_and]
        unfold keptValues at hvalues ⊢
        simp only [List.zip_cons_cons, List.filter_cons, hkeep, Bool.false_eq_true, if_false,
          hvalues]

/-- Values that are looked up by position. -/
theorem keptValues_finRange {count : ℕ} (keep : Fin count → Bool) {values : List β}
    (hlength : values.length = count) (default : β) :
    keptValues keep (List.finRange count) values =
      ((List.finRange count).filter keep).map
        fun position : Fin count => values.getD position default := by
  have hzip : (List.finRange count).zip values = (List.finRange count).map
      fun position : Fin count => (position, values.getD position default) := by
    apply List.ext_getElem
    · rw [List.length_zip, List.length_map, List.length_finRange, hlength, min_self]
    · intro index hindex hrange
      rw [List.getElem_zip, List.getElem_map, List.getElem_finRange]
      have hvalue : index < values.length := by
        rw [List.length_map, List.length_finRange] at hrange
        omega
      simp [hvalue]
  rw [keptValues, hzip, List.filter_map, List.map_map]
  rfl

end OneShotOPD.Backward
