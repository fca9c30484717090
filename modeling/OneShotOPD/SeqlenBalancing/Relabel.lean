import OneShotOPD.SeqlenBalancing.Partitioner
import Mathlib

/-!
# Names of items

The partitioner compares sums first, and looks at the names of the items only where sums
are equal.  Values that grow fast enough have no two disjoint sets with the same sum, so
that the partitions of renamed items are the renamed partitions.
-/

namespace OneShotOPD.SeqlenBalancing

open Checks Differencing
open scoped List

/-! ## Values that grow fast -/

/-- Every value is larger than all values before it together. -/
def Superincreasing (values : ℕ → ℕ) : Prop :=
  ∀ bound, ∑ i ∈ Finset.range bound, values i < values bound

theorem Superincreasing.sum_lt {values : ℕ → ℕ} (hvalues : Superincreasing values)
    {small large : Finset ℕ} {top : ℕ} (htop : top ∈ large) (hsmall : ∀ i ∈ small, i < top) :
    ∑ i ∈ small, values i < ∑ i ∈ large, values i :=
  calc ∑ i ∈ small, values i
      ≤ ∑ i ∈ Finset.range top, values i :=
        Finset.sum_le_sum_of_subset fun i hi => Finset.mem_range.mpr (hsmall i hi)
    _ < values top := hvalues top
    _ ≤ ∑ i ∈ large, values i := Finset.single_le_sum (fun _ _ => Nat.zero_le _) htop

theorem Superincreasing.sum_ne {values : ℕ → ℕ} (hvalues : Superincreasing values)
    {left right : Finset ℕ} (hdisjoint : Disjoint left right) (hleft : left.Nonempty) :
    ∑ i ∈ left, values i ≠ ∑ i ∈ right, values i := by
  have hunion : (left ∪ right).Nonempty := hleft.inl
  have hmax : ∀ i ∈ left ∪ right, i ≤ (left ∪ right).max' hunion := fun i hi =>
    Finset.le_max' _ i hi
  have htop := (left ∪ right).max'_mem hunion
  generalize (left ∪ right).max' hunion = top at hmax htop
  rcases Finset.mem_union.mp htop with htop | htop
  · refine (hvalues.sum_lt htop fun i hi => ?_).ne'
    exact lt_of_le_of_ne (hmax i (Finset.mem_union_right _ hi)) fun heq =>
      Finset.disjoint_left.mp hdisjoint htop (heq ▸ hi)
  · refine (hvalues.sum_lt htop fun i hi => ?_).ne
    exact lt_of_le_of_ne (hmax i (Finset.mem_union_left _ hi)) fun heq =>
      Finset.disjoint_left.mp hdisjoint hi (heq ▸ htop)

/-- Sets of items that are known by their sums. -/
def SumsApart (sets : List ItemSet) : Prop :=
  ∀ set ∈ sets, ∀ other ∈ sets, set.sum = other.sum → set = other

theorem SumsApart.subset {sets others : List ItemSet} (hsums : SumsApart sets)
    (hsub : others ⊆ sets) : SumsApart others :=
  fun set hset other hother => hsums set (hsub hset) other (hsub hother)

/-- Disjoint sets with items, whose values are the given ones. -/
structure Separate (values : ℕ → ℕ) (sets : List ItemSet) : Prop where
  nodup : ((sets.flatMap ItemSet.items).map Prod.fst).Nodup
  ne_nil : ∀ set ∈ sets, set.items ≠ []
  value : ∀ set ∈ sets, ∀ item ∈ set.items, item.2 = values item.1

namespace Separate

variable {values : ℕ → ℕ} {sets others : List ItemSet}

theorem sum_eq (hseparate : Separate values sets) {set : ItemSet} (hset : set ∈ sets) :
    set.sum = ∑ i ∈ (set.items.map Prod.fst).toFinset, values i := by
  have hnodup := (List.nodup_flatMap.mp (List.map_flatMap ▸ hseparate.nodup)).1 set hset
  have hvalues : set.items.map Prod.snd = (set.items.map Prod.fst).map values := by
    rw [List.map_map]
    exact List.map_congr_left (hseparate.value set hset)
  rw [List.sum_toFinset values hnodup, ← hvalues, set.sum_eq]

theorem sumsApart (hvalues : Superincreasing values) (hseparate : Separate values sets) :
    SumsApart sets := by
  intro set hset other hother hsum
  by_contra hne
  have hpairwise := (List.nodup_flatMap.mp (List.map_flatMap ▸ hseparate.nodup)).2
  have hsymm : Std.Symm (Function.onFun List.Disjoint fun set : ItemSet =>
      set.items.map Prod.fst) := ⟨fun _ _ hdisjoint => List.Disjoint.symm hdisjoint⟩
  have hdisjoint := hpairwise.forall hset hother hne
  rw [hseparate.sum_eq hset, hseparate.sum_eq hother] at hsum
  refine hvalues.sum_ne ?_ ?_ hsum
  · rw [Finset.disjoint_left]
    intro i hi hi'
    exact hdisjoint (List.mem_toFinset.mp hi) (List.mem_toFinset.mp hi')
  · rw [List.toFinset_nonempty_iff]
    exact fun hnil => hseparate.ne_nil set hset (List.map_eq_nil_iff.mp hnil)

theorem perm (hseparate : Separate values sets) (hperm : sets.Perm others) :
    Separate values others where
  nodup := ((hperm.flatMap_right _).map _).nodup_iff.mp hseparate.nodup
  ne_nil := fun set hset => hseparate.ne_nil set (hperm.mem_iff.mpr hset)
  value := fun set hset => hseparate.value set (hperm.mem_iff.mpr hset)

/-- The sets that a merge makes. -/
theorem merge {rest : List ItemSet} (hlength : sets.length = others.length)
    (hseparate : Separate values (sets ++ others ++ rest)) :
    Separate values (List.zipWith ItemSet.merge sets others ++ rest) := by
  have hmem : ∀ {holds : ItemSet → Prop}, (∀ set ∈ sets, ∀ other ∈ others,
      holds (set.merge other)) → (∀ set ∈ rest, holds set) →
        ∀ set ∈ List.zipWith ItemSet.merge sets others ++ rest, holds set := by
    intro holds hmerged hrest set hset
    rcases List.mem_append.mp hset with hset | hset
    · obtain ⟨i, hi, rfl⟩ := List.mem_iff_getElem.mp hset
      rw [List.getElem_zipWith]
      exact hmerged _ (List.getElem_mem _) _ (List.getElem_mem _)
    · exact hrest set hset
  constructor
  case nodup =>
    refine List.Perm.nodup_iff ?_ |>.mp hseparate.nodup
    rw [List.flatMap_append, List.flatMap_append, List.flatMap_append]
    exact ((zipWith_merge_items hlength).symm.append_right _).map Prod.fst
  case ne_nil =>
    refine hmem (fun set hset other _ hnil => ?_) fun set hset => hseparate.ne_nil set (by
      simp [hset])
    exact hseparate.ne_nil set (by simp [hset]) (List.append_eq_nil_iff.mp hnil).1
  case value =>
    refine hmem (fun set hset other hother item hitem => ?_) fun set hset =>
      hseparate.value set (by simp [hset])
    rcases List.mem_append.mp hitem with hitem | hitem
    · exact hseparate.value set (by simp [hset]) item hitem
    · exact hseparate.value other (by simp [hother]) item hitem

end Separate

/-! ## Renaming -/

/-- An item with another name. -/
def relabelItem (rename : ℕ → ℕ) (item : ℕ × ℕ) : ℕ × ℕ := (rename item.1, item.2)

namespace ItemSet

def relabel (rename : ℕ → ℕ) (set : ItemSet) : ItemSet where
  items := set.items.map (relabelItem rename)
  sum := set.sum
  sum_eq := by rw [set.sum_eq, List.map_map]; rfl

theorem eq_of_items {set other : ItemSet} (hitems : set.items = other.items) : set = other := by
  have hsum : set.sum = other.sum := by rw [set.sum_eq, other.sum_eq, hitems]
  cases set
  cases other
  congr

theorem relabel_merge (rename : ℕ → ℕ) (set other : ItemSet) :
    (set.merge other).relabel rename = (set.relabel rename).merge (other.relabel rename) :=
  eq_of_items List.map_append

theorem key_le_relabel (rename : ℕ → ℕ) {set other : ItemSet}
    (hsums : set.sum = other.sum → set = other) :
    (set.relabel rename).key ≤ (other.relabel rename).key ↔ set.key ≤ other.key := by
  by_cases heq : set.sum = other.sum
  · rw [hsums heq]
    exact iff_of_true le_rfl le_rfl
  · have hkey : ∀ {left right : ItemSet}, left.sum ≠ right.sum →
        (left.key ≤ right.key ↔ left.sum < right.sum) := by
      intro left right hne
      rw [key, key, Prod.Lex.toLex_le_toLex]
      exact ⟨fun hle => hle.resolve_right fun hrest => hne hrest.1, .inl⟩
    rw [hkey heq, @hkey (set.relabel rename) (other.relabel rename) heq]
    exact Iff.rfl

end ItemSet

namespace State

variable {k : ℕ}

def relabel (rename : ℕ → ℕ) (state : State k) : State k where
  sets := state.sets.map (ItemSet.relabel rename)
  length_eq := by rw [List.length_map, state.length_eq]
  sorted := List.pairwise_map.mpr state.sorted

theorem eq_of_sets {state other : State k} (hsets : state.sets = other.sets) :
    state = other := by
  cases state
  cases other
  congr

theorem ofSets_relabel (rename : ℕ → ℕ) {sets : List ItemSet} (hlength : sets.length = k)
    (hsums : SumsApart sets) :
    ofSets (sets.map (ItemSet.relabel rename)) (by rw [List.length_map, hlength]) =
      (ofSets sets hlength).relabel rename := by
  refine eq_of_sets (List.map_insertionSort _ _ _ sets fun set hset other hother => ?_).symm
  exact (ItemSet.key_le_relabel rename (hsums other hother set hset)).symm

theorem merge_relabel (rename : ℕ → ℕ) {state other : State k}
    (hsums : SumsApart (List.zipWith ItemSet.merge state.sets other.sets.reverse)) :
    (state.relabel rename).merge (other.relabel rename) =
      (state.merge other).relabel rename := by
  rw [merge, merge, ← ofSets_relabel rename _ hsums]
  congr 1
  rw [List.map_zipWith]
  simp only [relabel, ← List.map_reverse, List.zipWith_map, ItemSet.relabel_merge]

theorem sums_relabel (rename : ℕ → ℕ) (state : State k) :
    (state.relabel rename).sums = state.sums := by
  rw [sums, relabel, List.map_map]
  rfl

theorem before_relabel (rename : ℕ → ℕ) {state other : State k}
    (hsums : SumsApart (state.sets ++ other.sets)) :
    (state.relabel rename).before (other.relabel rename) = state.before other := by
  have hhead : ∀ sets : List ItemSet, (sets.map (ItemSet.relabel rename)).headD ItemSet.empty =
      (sets.headD ItemSet.empty).relabel rename := by
    intro sets
    cases sets <;> rfl
  have hkey : ((other.relabel rename).sets.headD ItemSet.empty).key <
      ((state.relabel rename).sets.headD ItemSet.empty).key ↔
        (other.sets.headD ItemSet.empty).key < (state.sets.headD ItemSet.empty).key := by
    rw [relabel, relabel, hhead, hhead, ← not_le, ← not_le, not_iff_not]
    apply ItemSet.key_le_relabel
    have hlength : state.sets.length = other.sets.length := by
      rw [state.length_eq, other.length_eq]
    generalize state.sets = sets at hsums hlength ⊢
    generalize other.sets = others at hsums hlength ⊢
    cases sets with
    | nil =>
        obtain rfl := List.eq_nil_of_length_eq_zero hlength.symm
        exact fun _ => rfl
    | cons set sets =>
        cases others with
        | nil => exact absurd hlength (Nat.succ_ne_zero _)
        | cons first others => exact hsums set (by simp) first (by simp)
  have hspread : ∀ state : State k, (state.relabel rename).spread = state.spread := by
    intro state
    rw [spread, spread, sums_relabel]
  rw [before, before, hspread, hspread]
  split
  next => rfl
  next => exact decide_eq_decide.mpr hkey

theorem init_relabel (rename : ℕ → ℕ) {items : List (ℕ × ℕ)} (hlength : items.length = k)
    (hsums : SumsApart (items.map ItemSet.singleton)) {state : State k}
    (hinit : init items k = .ok state) :
    init (items.map (relabelItem rename)) k = .ok (state.relabel rename) := by
  rw [init_eq (.inr hlength) hlength.le, Except.ok.injEq] at hinit
  have hlength' : (items.map (relabelItem rename)).length = k := by
    rw [List.length_map, hlength]
  rw [init_eq (.inr hlength') hlength'.le, ← hinit]
  congr 1
  have hnone : ∀ {items : List (ℕ × ℕ)}, items.length = k →
      List.replicate (k - items.length) ItemSet.empty = [] := by
    intro items hlength
    rw [hlength, Nat.sub_self, List.replicate_zero]
  have hsums' : SumsApart (items.map ItemSet.singleton ++
      List.replicate (k - items.length) ItemSet.empty) := by
    rwa [hnone hlength, List.append_nil]
  rw [← ofSets_relabel rename _ hsums']
  congr 1
  rw [hnone hlength, hnone hlength', List.append_nil, List.append_nil, List.map_map,
    List.map_map]
  rfl

end State

/-! ## The partitions of renamed items -/

theorem mergeAll_relabel (rename : ℕ → ℕ) {values : ℕ → ℕ} (hvalues : Superincreasing values)
    {k count : ℕ} {state : State k} {states : List (State k)}
    (hseparate : Separate values ((state :: states).flatMap State.sets)) :
    mergeAll count (state.relabel rename) (states.map (State.relabel rename)) =
      (mergeAll count state states).relabel rename := by
  induction count generalizing state states with
  | zero => rfl
  | succ count ih =>
      have hbefore : ∀ {states : List (State k)}, SumsApart (states.flatMap State.sets) →
          ∀ left ∈ states, ∀ right ∈ states,
            (left.relabel rename).before (right.relabel rename) = left.before right := by
        intro states hsums left hleft right hright
        refine State.before_relabel rename (hsums.subset fun set hset => ?_)
        rcases List.mem_append.mp hset with hset | hset
        · exact List.mem_flatMap.mpr ⟨left, hleft, hset⟩
        · exact List.mem_flatMap.mpr ⟨right, hright, hset⟩
      have hfirst := popLeast_perm State.before state states
      rw [mergeAll, mergeAll, popLeast_map _ (hbefore (hseparate.sumsApart hvalues))]
      generalize popLeast State.before state states = popped at hfirst ⊢
      obtain ⟨state0, rest⟩ := popped
      have hpopped := hseparate.perm (hfirst.symm.flatMap_right State.sets)
      cases rest with
      | nil => rfl
      | cons next others =>
          have hrest : SumsApart ((next :: others).flatMap State.sets) :=
            (hpopped.sumsApart hvalues).subset (by
              rw [List.flatMap_cons]
              exact List.subset_append_right _ _)
          have hsecond := popLeast_perm State.before next others
          dsimp only
          rw [List.map_cons]
          dsimp only
          rw [popLeast_map _ (hbefore hrest)]
          generalize popLeast State.before next others = popped at hsecond ⊢
          obtain ⟨state1, remaining⟩ := popped
          have hboth := hpopped.perm ((hsecond.symm.cons state0).flatMap_right State.sets)
          have hmerged : Separate values (List.zipWith ItemSet.merge state0.sets
              state1.sets.reverse ++ remaining.flatMap State.sets) := by
            apply Separate.merge (by rw [List.length_reverse, state0.length_eq, state1.length_eq])
            refine hboth.perm ?_
            rw [List.flatMap_cons, List.flatMap_cons, ← List.append_assoc]
            exact ((List.reverse_perm _).symm.append_left _).append_right _
          dsimp only
          rw [State.merge_relabel rename ((hmerged.sumsApart hvalues).subset
            (List.subset_append_left _ _))]
          exact ih (hmerged.perm ((ItemSet.sortDescending_perm _).symm.append_right _))

theorem map_splitLengths {α β : Type} (f : α → β) (sizes : List ℕ) (items : List α) :
    (sizes.splitLengths items).map (List.map f) = sizes.splitLengths (items.map f) := by
  induction sizes generalizing items with
  | nil => rfl
  | cons size sizes ih => simp [List.splitLengths_cons, ih, List.map_drop]

/-- The queue of renamed items is the renamed queue. -/
theorem initialItems_relabel (rename : ℕ → ℕ) {seqlenList others : List ℕ} {k : ℕ}
    (hdistinct : seqlenList.Nodup)
    (hitems : ((itemsOf seqlenList).map (relabelItem rename)).Perm (itemsOf others)) :
    initialItems others k true =
      (initialItems seqlenList k true).map (List.map (relabelItem rename)) := by
  have hlength : others.length = seqlenList.length := by
    have hlength := hitems.length_eq
    rwa [List.length_map, itemsOf, itemsOf, List.length_map, List.length_map,
      List.length_zipIdx, List.length_zipIdx, eq_comm] at hlength
  have hsorted : ∀ list : List ℕ, (sortedItems list).Pairwise fun item other =>
      toLex item.swap ≤ toLex other.swap := fun list =>
    List.pairwise_insertionSort (fun item other : ℕ × ℕ => toLex item.swap ≤ toLex other.swap) _
  have hvalues : ((sortedItems seqlenList).map Prod.snd).Nodup := by
    rw [((sortedItems_perm seqlenList).map Prod.snd).nodup_iff, itemsOf, List.map_map]
    simpa [Function.comp_def] using hdistinct
  have hsame : sortedItems others = (sortedItems seqlenList).map (relabelItem rename) := by
    refine List.Perm.eq_of_pairwise ?_ (hsorted others) ?_ ?_
    · intro item other _ _ hle hge
      exact Prod.swap_injective (toLex.injective (le_antisymm hle hge))
    · rw [List.pairwise_map]
      have hstrict := (hsorted seqlenList).and (List.pairwise_map.mp hvalues)
      refine hstrict.imp fun {item other} hboth => ?_
      obtain ⟨hle, hne⟩ := hboth
      rcases Prod.Lex.toLex_le_toLex.mp hle with hlt | ⟨heq, -⟩
      · exact Prod.Lex.toLex_le_toLex.mpr (.inl hlt)
      · exact absurd heq hne
    · calc sortedItems others
          ~ itemsOf others := sortedItems_perm others
        _ ~ (itemsOf seqlenList).map (relabelItem rename) := hitems.symm
        _ ~ (sortedItems seqlenList).map (relabelItem rename) :=
            (sortedItems_perm seqlenList).symm.map _
  rw [initialItems, initialItems, if_pos rfl, if_pos rfl, map_splitLengths, hsame, hlength]

/-- The partitions are the sets of the state that is left, in order. -/
theorem getSeqlenBalancedPartitions_eq_map {seqlenList : List ℕ} {k : ℕ} {equalSize : Bool}
    {unsorted partitions : List (List ℕ)}
    (hunsorted : karmarkarKarp seqlenList k equalSize = .ok unsorted)
    (hok : getSeqlenBalancedPartitions seqlenList k equalSize = .ok partitions) :
    partitions = unsorted.map fun partition => partition.insertionSort (· ≤ ·) := by
  rw [getSeqlenBalancedPartitions, hunsorted] at hok
  split at hok
  next => contradiction
  next =>
    change (if _ then _ else if _ then _ else if _ then _ else _) = _ at hok
    split at hok
    next => contradiction
    next =>
      split at hok
      next => contradiction
      next =>
        split at hok
        next => contradiction
        next => exact (Except.ok.inj hok).symm

theorem Superincreasing.injective {values : ℕ → ℕ} (hvalues : Superincreasing values) :
    Function.Injective values := by
  intro left right heq
  by_contra hne
  refine hvalues.sum_ne (Finset.disjoint_singleton.mpr hne) (Finset.singleton_nonempty left) ?_
  simpa using heq

theorem mem_itemsOf_map {values : ℕ → ℕ} {count : ℕ} {item : ℕ × ℕ}
    (hitem : item ∈ itemsOf ((List.range count).map values)) : item.2 = values item.1 := by
  have hget := mem_itemsOf hitem
  rw [List.getElem?_map, Option.map_eq_some_iff] at hget
  obtain ⟨index, hindex, hvalue⟩ := hget
  obtain ⟨_, rfl⟩ := List.getElem?_eq_some_iff.mp hindex
  rw [List.getElem_range] at hvalue
  exact hvalue.symm

/-- The sets of the states that the queue starts with are known by their sums. -/
theorem separate_of_items {values : ℕ → ℕ} {count : ℕ} {sets : List ItemSet}
    (hsets : (sets.flatMap ItemSet.items).Subperm (itemsOf ((List.range count).map values)))
    (hnil : ∀ set ∈ sets, set.items ≠ []) : Separate values sets where
  nodup := by
    obtain ⟨middle, hperm, hsub⟩ := hsets
    have hindices : ((itemsOf ((List.range count).map values)).map Prod.fst).Nodup := by
      rw [map_fst_itemsOf]
      exact List.nodup_range
    exact (hperm.map Prod.fst).nodup_iff.mp (hindices.sublist (hsub.map Prod.fst))
  ne_nil := hnil
  value := fun set hset item hitem =>
    mem_itemsOf_map (hsets.subset (List.mem_flatMap.mpr ⟨set, hset, hitem⟩))

/-- The partitions of renamed items are the renamed partitions. -/
theorem partitions_relabel (rename : ℕ → ℕ) {values : ℕ → ℕ} (hvalues : Superincreasing values)
    {count k : ℕ} (hk : 0 < k) (hcount : 0 < count) (hdvd : k ∣ count) {others : List ℕ}
    (hitems : ((itemsOf ((List.range count).map values)).map (relabelItem rename)).Perm
      (itemsOf others)) :
    ∃ source : List (List ℕ),
      getSeqlenBalancedPartitions ((List.range count).map values) k true =
          .ok (source.map fun partition => partition.insertionSort (· ≤ ·)) ∧
        getSeqlenBalancedPartitions others k true =
          .ok (source.map fun partition =>
            (partition.map rename).insertionSort (· ≤ ·)) := by
  have hlength : ((List.range count).map values).length = count := by simp
  have hlengthOthers : others.length = count := by
    have hlengthItems := hitems.length_eq
    rw [List.length_map, itemsOf, itemsOf, List.length_map, List.length_map,
      List.length_zipIdx, List.length_zipIdx, hlength] at hlengthItems
    exact hlengthItems.symm
  have hle := Nat.le_of_dvd hcount hdvd
  have hdistinct : ((List.range count).map values).Nodup :=
    List.nodup_range.map hvalues.injective
  generalize hlist : (List.range count).map values = seqlenList at hlength hitems hdistinct ⊢
  obtain ⟨state, states, hstates, hperm, hkk⟩ := karmarkarKarp_eq_ok hk (hle.trans_eq
    hlength.symm) fun _ : true = true => hlength ▸ hdvd
  obtain ⟨state', states', hstates', -, hkk'⟩ := karmarkarKarp_eq_ok hk (hle.trans_eq
    hlengthOthers.symm) fun _ : true = true => hlengthOthers ▸ hdvd
  have hfilled := (mapM_init_filled (fun _ => hlength ▸ hdvd) hstates).2 rfl
  have hseparate : Separate values ((state :: states).flatMap State.sets) := by
    apply separate_of_items
    · rw [hlist, List.flatMap_assoc]
      exact hperm.subperm
    · intro set hset
      obtain ⟨other, hother, hset⟩ := List.mem_flatMap.mp hset
      exact List.ne_nil_of_length_eq_add_one (hfilled other hother set hset)
  -- The queue of the renamed items starts with the renamed states.
  have hgroup : ∀ group ∈ initialItems seqlenList k true, group.length = k ∧
      SumsApart (group.map ItemSet.singleton) := by
    intro group hgroup
    refine ⟨length_of_mem_initialItems (fun _ => hlength ▸ hdvd) hgroup, ?_⟩
    refine Separate.sumsApart hvalues (@separate_of_items values count _ ?_ ?_)
    · have hflatten := @flatten_initialItems seqlenList k true (by
        simp [hlength, Nat.mod_eq_zero_of_dvd hdvd])
      have hsub : group.Sublist (sortedItems seqlenList) :=
        hflatten ▸ List.sublist_flatten_of_mem hgroup
      have hone : (group.map ItemSet.singleton).flatMap ItemSet.items = group := by
        rw [List.flatMap_map]
        exact List.flatMap_singleton' group
      rw [hone, hlist]
      exact hsub.subperm.trans (sortedItems_perm seqlenList).subperm
    · intro set hset
      obtain ⟨item, -, rfl⟩ := List.mem_map.mp hset
      exact List.cons_ne_nil _ _
  have hrelabel := mapM_map_eq_ok (List.map (relabelItem rename)) (State.relabel rename)
    (fun group hmem start hinit =>
      State.init_relabel rename (hgroup group hmem).1 (hgroup group hmem).2 hinit) hstates
  rw [← initialItems_relabel rename hdistinct hitems, hstates', Except.ok.injEq,
    List.map_cons, List.cons.injEq] at hrelabel
  obtain ⟨rfl, rfl⟩ := hrelabel
  rw [List.length_map, mergeAll_relabel rename hvalues hseparate] at hkk'
  obtain ⟨partitions, hok, -⟩ := getSeqlenBalancedPartitions_isOk hk (hle.trans_eq
    hlength.symm) fun _ : true = true => hlength ▸ hdvd
  obtain ⟨partitions', hok', -⟩ := getSeqlenBalancedPartitions_isOk hk (hle.trans_eq
    hlengthOthers.symm) fun _ : true = true => hlengthOthers ▸ hdvd
  refine ⟨(mergeAll states.length state states).getPartitions, ?_, ?_⟩
  · rw [hok, getSeqlenBalancedPartitions_eq_map hkk hok]
  · rw [hok', getSeqlenBalancedPartitions_eq_map hkk' hok', State.getPartitions,
      State.getPartitions, State.relabel, List.map_map, List.map_map, List.map_map]
    congr 1
    refine List.map_congr_left fun set _ => ?_
    simp [ItemSet.relabel, relabelItem, Function.comp_def]

end OneShotOPD.SeqlenBalancing
