import Mathlib.Data.List.Perm.Basic
import Mathlib.Data.List.Nodup
import Mathlib.Tactic.Common

/-!
# Shares of a list

The items of a list are dealt out to owners, every item to one of them at most.
The shares of all owners, one after the other, are the items in another order.
-/

namespace OneShotOPD

variable {ι ρ β : Type}

/-- The owners that have an item are the one who was dealt it. -/
theorem filterMap_owners {owners : List ρ} (hnodup : owners.Nodup) {share : ρ → Option β}
    {whole : Option β} (hshare : ∀ owner ∈ owners, ∀ value, share owner = some value →
      whole = some value)
    (hdealt : ∀ value, whole = some value → ∃ owner ∈ owners, share owner = some value)
    (hunique : ∀ first ∈ owners, ∀ second ∈ owners, (share first).isSome →
      (share second).isSome → first = second) :
    owners.filterMap share = whole.toList := by
  cases whole with
  | none =>
      refine List.filterMap_eq_nil_iff.mpr fun owner howner => ?_
      refine Option.eq_none_iff_forall_ne_some.mpr fun value hvalue => ?_
      exact Option.some_ne_none value (hshare owner howner value hvalue).symm
  | some value =>
      obtain ⟨owner, howner, hvalue⟩ := hdealt value rfl
      obtain ⟨front, back, rfl⟩ := List.append_of_mem howner
      obtain ⟨-, hback, hdisjoint⟩ := List.nodup_append.mp hnodup
      have hothers : ∀ others ⊆ front ++ owner :: back, owner ∉ others →
          others.filterMap share = [] := by
        intro others hsubset habsent
        refine List.filterMap_eq_nil_iff.mpr fun other hother => ?_
        by_contra hne
        have hequal := hunique other (hsubset hother) owner howner
          (Option.isSome_iff_ne_none.mpr hne) (by rw [hvalue]; rfl)
        exact habsent (hequal ▸ hother)
      have hfront : owner ∉ front := fun hmem =>
        hdisjoint owner hmem owner List.mem_cons_self rfl
      rw [List.filterMap_append, hothers front (List.subset_append_left _ _) hfront,
        List.filterMap_cons_some hvalue, hothers back _ (List.nodup_cons.mp hback).1]
      · rfl
      · exact fun other hother => List.mem_append_right _ (List.mem_cons_of_mem _ hother)

/-- Going through the owners for every item gives the same as going through the items for every
owner. -/
theorem flatMap_filterMap_perm (owners : List ρ) (items : List ι) (share : ρ → ι → Option β) :
    (owners.flatMap fun owner => items.filterMap (share owner)).Perm
      (items.flatMap fun item => owners.filterMap fun owner => share owner item) := by
  induction owners with
  | nil => simp
  | cons owner owners ih =>
      rw [List.flatMap_cons]
      refine (ih.append_left _).trans ?_
      clear ih
      induction items with
      | nil => rfl
      | cons item items ih =>
          rw [List.flatMap_cons, List.flatMap_cons]
          cases hshare : share owner item with
          | none =>
              rw [List.filterMap_cons_none hshare,
                List.filterMap_cons_none (f := fun owner => share owner item) hshare]
              refine List.perm_append_comm_assoc _ _ _ |>.trans ?_
              exact ih.append_left _
          | some value =>
              rw [List.filterMap_cons_some hshare,
                List.filterMap_cons_some (f := fun owner => share owner item) hshare,
                List.cons_append, List.cons_append]
              refine List.Perm.cons _ ((List.perm_append_comm_assoc _ _ _).trans ?_)
              exact ih.append_left _

/-- The shares of all owners are the whole. -/
theorem flatMap_shares_perm {owners : List ρ} (hnodup : owners.Nodup) {items : List ι}
    {share : ρ → ι → Option β} {whole : ι → Option β}
    (hshare : ∀ item ∈ items, ∀ owner ∈ owners, ∀ value, share owner item = some value →
      whole item = some value)
    (hdealt : ∀ item ∈ items, ∀ value, whole item = some value →
      ∃ owner ∈ owners, share owner item = some value)
    (hunique : ∀ item ∈ items, ∀ first ∈ owners, ∀ second ∈ owners,
      (share first item).isSome → (share second item).isSome → first = second) :
    (owners.flatMap fun owner => items.filterMap (share owner)).Perm (items.filterMap whole) := by
  refine (flatMap_filterMap_perm owners items share).trans (List.Perm.of_eq ?_)
  rw [List.filterMap_eq_flatMap_toList, List.flatMap_def, List.flatMap_def]
  refine congrArg List.flatten (List.map_congr_left fun item hitem => ?_)
  exact filterMap_owners hnodup (hshare item hitem) (hdealt item hitem) (hunique item hitem)

end OneShotOPD
