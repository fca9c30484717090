import Mathlib

/-!
# The differencing method on sums

Two lists of sums in decreasing order are added in opposite orders, so that the
largest of one meets the smallest of the other.  If neither list spreads over
more than a bound, then their combination does not either, and sums that do not
spread far are not far above their average.

A queue hands out its least element first; only its contents matter here, not
the arrangement that finds the least one.
-/

namespace OneShotOPD.Differencing

variable {α : Type}

/-- No two of the sums are further apart than the bound. -/
def SpreadLe (bound : ℕ) (sums : List ℕ) : Prop :=
  ∀ left ∈ sums, ∀ right ∈ sums, left ≤ right + bound

theorem SpreadLe.perm {bound : ℕ} {sums others : List ℕ} (hspread : SpreadLe bound sums)
    (hperm : others.Perm sums) : SpreadLe bound others :=
  fun left hleft right hright =>
    hspread left (hperm.mem_iff.mp hleft) right (hperm.mem_iff.mp hright)

theorem spreadLe_of_le {bound : ℕ} {sums : List ℕ} (hsums : ∀ sum ∈ sums, sum ≤ bound) :
    SpreadLe bound sums :=
  fun left hleft _ _ => (hsums left hleft).trans (Nat.le_add_left _ _)

/-- Adding in opposite orders does not widen the spread. -/
theorem spreadLe_zipWith_reverse {bound : ℕ} {left right : List ℕ}
    (hleft : left.Pairwise (· ≥ ·)) (hright : right.Pairwise (· ≥ ·))
    (hleftSpread : SpreadLe bound left) (hrightSpread : SpreadLe bound right) :
    SpreadLe bound (List.zipWith (· + ·) left right.reverse) := by
  have hreverse : right.reverse.Pairwise (· ≤ ·) := List.pairwise_reverse.mpr hright
  intro first hfirst second hsecond
  obtain ⟨i, hi, rfl⟩ := List.mem_iff_getElem.mp hfirst
  obtain ⟨j, hj, rfl⟩ := List.mem_iff_getElem.mp hsecond
  rw [List.length_zipWith] at hi hj
  rw [List.getElem_zipWith, List.getElem_zipWith]
  rcases Nat.lt_trichotomy i j with hlt | rfl | hgt
  · -- the first list falls by no more than the bound, the second one rises
    have hfall := hleftSpread left[i] (List.getElem_mem _) left[j] (List.getElem_mem _)
    have hrise := List.pairwise_iff_getElem.mp hreverse i j (by omega) (by omega) hlt
    omega
  · omega
  · have hrise := List.pairwise_iff_getElem.mp hleft j i (by omega) (by omega) hgt
    have hfall := hrightSpread right.reverse[i]
      (List.mem_reverse.mp (List.getElem_mem _)) right.reverse[j]
      (List.mem_reverse.mp (List.getElem_mem _))
    omega

/-- No sum is further above the average than the others can be below it. -/
theorem SpreadLe.length_mul_le {bound : ℕ} {sums : List ℕ} (hspread : SpreadLe bound sums)
    {sum : ℕ} (hsum : sum ∈ sums) :
    sums.length * sum ≤ sums.sum + (sums.length - 1) * bound := by
  obtain ⟨rest, hperm⟩ : ∃ rest, sums.Perm (sum :: rest) :=
    ⟨sums.erase sum, List.perm_cons_erase hsum⟩
  have hrest : ∀ others : List ℕ, (∀ other ∈ others, sum ≤ other + bound) →
      others.length * sum ≤ others.sum + others.length * bound := by
    intro others hothers
    induction others with
    | nil => simp
    | cons other others ih =>
        have hhead := hothers other List.mem_cons_self
        have htail := ih fun next hnext => hothers next (List.mem_cons_of_mem _ hnext)
        simp only [List.length_cons, List.sum_cons, Nat.add_mul, Nat.one_mul]
        omega
  have hothers := hrest rest fun other hother =>
    hspread sum hsum other (hperm.mem_iff.mpr (List.mem_cons_of_mem _ hother))
  rw [hperm.length_eq, hperm.sum_eq, List.length_cons, List.sum_cons, Nat.add_sub_cancel,
    Nat.add_mul, Nat.one_mul]
  omega

/-- The least element of a non-empty queue, and the others. -/
def popLeast (before : α → α → Bool) (least : α) : List α → α × List α
  | [] => (least, [])
  | item :: items =>
      if before item least then
        let (first, rest) := popLeast before item items
        (first, least :: rest)
      else
        let (first, rest) := popLeast before least items
        (first, item :: rest)

/-- Popping keeps the contents together. -/
theorem popLeast_perm (before : α → α → Bool) (least : α) (items : List α) :
    ((popLeast before least items).1 :: (popLeast before least items).2).Perm
      (least :: items) := by
  induction items generalizing least with
  | nil => exact .refl _
  | cons item items ih =>
      rw [popLeast]
      split
      next => exact (List.Perm.swap _ _ _).trans ((ih item).cons least)
      next =>
        exact (List.Perm.swap _ _ _).trans (((ih least).cons item).trans
          (List.Perm.swap _ _ _))

/-- Names that the comparison does not see do not matter. -/
theorem popLeast_map {β : Type} {before : α → α → Bool} {beforeOf : β → β → Bool} (f : α → β)
    {least : α} {items : List α}
    (hbefore : ∀ item ∈ least :: items, ∀ other ∈ least :: items,
      beforeOf (f item) (f other) = before item other) :
    popLeast beforeOf (f least) (items.map f) =
      (f (popLeast before least items).1, (popLeast before least items).2.map f) := by
  induction items generalizing least with
  | nil => rfl
  | cons item items ih =>
      have hhead := hbefore item (by simp) least (by simp)
      rw [List.map_cons, popLeast, popLeast, hhead]
      split
      next =>
        rw [ih fun left hleft right hright =>
          hbefore left (List.mem_cons_of_mem _ hleft) right (List.mem_cons_of_mem _ hright)]
        rfl
      next =>
        have hsub : ∀ other ∈ least :: items, other ∈ least :: item :: items := by
          intro other hother
          rcases List.mem_cons.mp hother with rfl | hother <;> simp_all
        rw [ih fun left hleft right hright =>
          hbefore left (hsub left hleft) right (hsub right hright)]
        rfl

theorem length_popLeast (before : α → α → Bool) (least : α) (items : List α) :
    (popLeast before least items).2.length = items.length := by
  simpa using (popLeast_perm before least items).length_eq

end OneShotOPD.Differencing
