import Mathlib.Data.List.GetD
import Mathlib.Data.List.Nodup
import Mathlib.Tactic.Common

/-!
# Labelled tokens

The packing functions never look at the tokens, so a run on tokens that carry
their own place tells where every token of a batch goes.
-/

namespace OneShotOPD.Mcore

variable {α : Type}

/-- Every token replaced by its sequence and its position. -/
def labelSequences (sequences : List (List α)) : List (List (Option (ℕ × ℕ))) :=
  (List.range sequences.length).map fun i =>
    (List.range (sequences.getD i []).length).map fun k => some (i, k)

variable {sequences : List (List α)} {i : ℕ}

@[simp]
theorem length_labelSequences (sequences : List (List α)) :
    (labelSequences sequences).length = sequences.length := by
  simp [labelSequences]

theorem labelSequences_getD (hi : i < sequences.length) :
    (labelSequences sequences).getD i [] =
      (List.range (sequences.getD i []).length).map fun k => some (i, k) := by
  rw [List.getD_eq_getElem _ _ (by simpa using hi)]
  simp [labelSequences]

theorem length_labelSequences_getD (hi : i < sequences.length) :
    ((labelSequences sequences).getD i []).length = (sequences.getD i []).length := by
  rw [labelSequences_getD hi, List.length_map, List.length_range]

theorem map_length_labelSequences (sequences : List (List α)) :
    (labelSequences sequences).map List.length = sequences.map List.length := by
  apply List.ext_getElem
  · simp
  · intro i hleft hright
    rw [List.length_map] at hright
    simp [labelSequences, hright]

/-- A label tells its place. -/
theorem getElem?_labelSequences (hi : i < sequences.length) {k : ℕ} {label : ℕ × ℕ} :
    ((labelSequences sequences).getD i [])[k]? = some (some label) ↔
      k < (sequences.getD i []).length ∧ label = (i, k) := by
  rw [labelSequences_getD hi, List.getElem?_map]
  by_cases hk : k < (sequences.getD i []).length
  · rw [List.getElem?_range hk, Option.map_some, Option.some_inj, Option.some_inj]
    exact ⟨fun heq => ⟨hk, heq.symm⟩, fun hlabel => hlabel.2.symm⟩
  · rw [List.getElem?_eq_none (by simpa using hk)]
    exact ⟨nofun, fun hlabel => absurd hlabel.1 hk⟩

theorem nodup_labelSequences (hi : i < sequences.length) :
    ((labelSequences sequences).getD i []).Nodup := by
  rw [labelSequences_getD hi]
  apply List.Nodup.map _ List.nodup_range
  intro first second heq
  exact (Prod.mk.inj (Option.some.inj heq)).2

theorem mem_labelSequences (hi : i < sequences.length) {label : ℕ × ℕ} :
    some label ∈ (labelSequences sequences).getD i [] ↔
      label.2 < (sequences.getD i []).length ∧ label.1 = i := by
  rw [labelSequences_getD hi, List.mem_map]
  constructor
  · rintro ⟨k, hk, heq⟩
    cases Option.some.inj heq
    exact ⟨List.mem_range.mp hk, rfl⟩
  · rintro ⟨hk, rfl⟩
    exact ⟨label.2, List.mem_range.mpr hk, rfl⟩

/-- One rank among the values that all ranks hold. -/
theorem existsUnique_gathered {β : Type} {values : ℕ → β} {holds : β → Prop} {count : ℕ}
    (hunique : ∃! rank, rank < count ∧ holds (values rank)) :
    ∃! rank : ℕ, ∃ held, ((List.range count).map values)[rank]? = some held ∧ holds held := by
  obtain ⟨rank, ⟨hrank, hholds⟩, hothers⟩ := hunique
  refine ⟨rank, ⟨values rank, ?_, hholds⟩, ?_⟩
  · rw [List.getElem?_map, List.getElem?_range hrank]
    rfl
  · rintro other ⟨held, hheld, hother⟩
    rw [List.getElem?_map] at hheld
    obtain ⟨source, hsource, rfl⟩ := Option.map_eq_some_iff.mp hheld
    obtain ⟨hlt, hsource⟩ := List.getElem?_eq_some_iff.mp hsource
    rw [List.length_range] at hlt
    rw [List.getElem_range] at hsource
    subst hsource
    exact hothers _ ⟨hlt, hother⟩

end OneShotOPD.Mcore
