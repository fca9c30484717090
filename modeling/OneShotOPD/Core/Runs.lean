import Mathlib

/-!
# Runs of equal keys

Sorted items of one key stand one after the other.  Their keys are counted run
by run, and the items are cut where the runs end.
-/

namespace OneShotOPD

variable {α κ : Type}

/-- Every run of equal keys, with its length. -/
def runs [DecidableEq κ] : List κ → List (κ × ℕ)
  | [] => []
  | key :: keys =>
      match runs keys with
      | [] => [(key, 1)]
      | (next, count) :: rest =>
          if key = next then (next, count + 1) :: rest else (key, 1) :: (next, count) :: rest

variable [LinearOrder κ]

/-- The runs of sorted keys: one for every key, in order, with the number of keys. -/
structure SortedRuns (keys : List κ) (found : List (κ × ℕ)) : Prop where
  sorted : (found.map Prod.fst).Pairwise (· < ·)
  count_eq : ∀ run ∈ found, run.2 = keys.count run.1
  mem_iff : ∀ key, key ∈ found.map Prod.fst ↔ key ∈ keys

theorem sortedRuns_runs {keys : List κ} (hsorted : keys.Pairwise (· ≤ ·)) :
    SortedRuns keys (runs keys) := by
  induction keys with
  | nil => exact ⟨.nil, nofun, fun _ => Iff.rfl⟩
  | cons key keys ih =>
      obtain ⟨hkey, hkeys⟩ := List.pairwise_cons.mp hsorted
      have hruns := ih hkeys
      have hcount : ∀ other, other ≠ key → (key :: keys).count other = keys.count other :=
        fun other hne => List.count_cons_of_ne hne.symm
      rw [runs]
      split
      next hnil =>
        have hempty : keys = [] := List.eq_nil_iff_forall_not_mem.mpr fun other hother => by
          have hmem := (hruns.mem_iff other).mpr hother
          simp [hnil] at hmem
        subst hempty
        exact ⟨List.pairwise_singleton _ _, by simp, by simp⟩
      next next count rest heq =>
        rw [heq] at hruns
        have hnext : ∀ run ∈ rest, next < run.1 := fun run hrun =>
          (List.pairwise_cons.mp hruns.sorted).1 run.1 (List.mem_map_of_mem hrun)
        split
        next hequal =>
          subst hequal
          refine ⟨hruns.sorted, fun run hrun => ?_, fun other => ?_⟩
          · rcases List.mem_cons.mp hrun with rfl | hrun
            · rw [List.count_cons_self, ← hruns.count_eq _ List.mem_cons_self]
            · rw [hcount _ (hnext run hrun).ne', hruns.count_eq _ (List.mem_cons_of_mem _ hrun)]
          · have hmem := hruns.mem_iff other
            simp only [List.map_cons, List.mem_cons] at hmem ⊢
            tauto
        next hne =>
          have hlt : key < next := by
            refine lt_of_le_of_ne (hkey next ?_) hne
            exact (hruns.mem_iff next).mp List.mem_cons_self
          have hless : ∀ run ∈ (next, count) :: rest, key < run.1 := fun run hrun => by
            rcases List.mem_cons.mp hrun with rfl | hrun
            · exact hlt
            · exact hlt.trans (hnext run hrun)
          have habsent : key ∉ keys := fun hmem => by
            obtain ⟨run, hrun, hfst⟩ := List.mem_map.mp ((hruns.mem_iff key).mpr hmem)
            exact (hless run hrun).ne' hfst
          refine ⟨List.pairwise_cons.mpr ⟨fun other hother => ?_, hruns.sorted⟩,
            fun run hrun => ?_, fun other => ?_⟩
          · obtain ⟨run, hrun, rfl⟩ := List.mem_map.mp hother
            exact hless run hrun
          · rcases List.mem_cons.mp hrun with rfl | hrun
            · rw [List.count_cons_self, List.count_eq_zero.mpr habsent]
            · rw [hcount _ (hless run hrun).ne', hruns.count_eq run hrun]
          · rw [List.map_cons, List.mem_cons, List.mem_cons, hruns.mem_iff]

/-- Sorted items are those of each of their keys, one key after the other. -/
theorem flatMap_filter_of_sorted {key : α → κ} {items : List α}
    (hsorted : (items.map key).Pairwise (· ≤ ·)) {keys : List κ}
    (hkeys : keys.Pairwise (· < ·)) (hmem : ∀ item ∈ items, key item ∈ keys) :
    (keys.flatMap fun first => items.filter fun item => key item = first) = items := by
  induction items with
  | nil => simp
  | cons item items ih =>
      have hrest := ih (List.pairwise_cons.mp hsorted).2
        fun other hother => hmem other (List.mem_cons_of_mem _ hother)
      have hle : ∀ other ∈ item :: items, key item ≤ key other := fun other hother => by
        rcases List.mem_cons.mp hother with rfl | hother
        · exact le_rfl
        · exact (List.pairwise_cons.mp hsorted).1 _ (List.mem_map_of_mem hother)
      obtain ⟨front, back, rfl⟩ := List.append_of_mem (hmem item List.mem_cons_self)
      obtain ⟨-, hback, hfront⟩ := List.pairwise_append.mp hkeys
      -- no item has one of the keys in front of the first item's key
      have hempty : ∀ others ⊆ item :: items,
          (front.flatMap fun first => others.filter fun other => key other = first) = [] := by
        intro others hothers
        refine List.flatMap_eq_nil_iff.mpr fun first hfirst => ?_
        refine List.filter_eq_nil_iff.mpr fun other hother => ?_
        have hlt := (hfront first hfirst (key item) List.mem_cons_self).trans_le
          (hle other (hothers hother))
        simpa using hlt.ne'
      have hdrop : (back.flatMap fun first => (item :: items).filter fun other =>
          key other = first) =
            back.flatMap fun first => items.filter fun other => key other = first := by
        rw [List.flatMap_def, List.flatMap_def]
        refine congrArg List.flatten (List.map_congr_left fun first hfirst => ?_)
        have hne := ((List.pairwise_cons.mp hback).1 first hfirst).ne
        exact List.filter_cons_of_neg (by simpa using hne)
      rw [List.flatMap_append, List.flatMap_cons, hempty items (List.subset_cons_self _ _),
        List.nil_append] at hrest
      rw [List.flatMap_append, List.flatMap_cons, hempty _ (List.Subset.refl _), List.nil_append,
        hdrop, List.filter_cons_of_pos (by simp), List.cons_append, hrest]

end OneShotOPD
