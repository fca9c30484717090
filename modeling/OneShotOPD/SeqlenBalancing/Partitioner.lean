import OneShotOPD.SeqlenBalancing.KarmarkarKarp
import Mathlib

/-!
# What the partitioner returns

Sets without items come last in a state.  As long as a state has such sets, no set has
more than one item, because a merge fills the last sets of one state with the first ones
of the other.  States that start with an item in every set keep sets of equal size.
-/

namespace OneShotOPD.SeqlenBalancing

open Checks Differencing
open scoped List

/-! ## Sets without items -/

/-- What is at least as large as a set with items has items. -/
theorem ItemSet.items_ne_nil_of_key_le {set other : ItemSet} (hkey : other.key ≤ set.key)
    (hother : other.items ≠ []) : set.items ≠ [] := by
  intro hset
  have hsum : set.sum = 0 := by rw [set.sum_eq, hset]; rfl
  rw [key, key, hsum, hset] at hkey
  rcases Prod.Lex.toLex_le_toLex.mp hkey with hlt | ⟨-, hrest⟩
  · exact absurd hlt (Nat.not_lt_zero _)
  · rcases Prod.Lex.toLex_le_toLex.mp hrest with hlt | ⟨heq, -⟩
    · exact absurd hlt (Nat.not_lt_zero _)
    · exact hother (List.eq_nil_of_length_eq_zero heq)

namespace State

variable {k : ℕ}

/-- The sets without items come last. -/
def EmptyLast (state : State k) : Prop :=
  state.sets.Pairwise fun set other => other.items ≠ [] → set.items ≠ []

theorem emptyLast_ofSets (sets : List ItemSet) (hlength : sets.length = k) :
    (ofSets sets hlength).EmptyLast := by
  have hsorted := List.pairwise_insertionSort
    (fun set other : ItemSet => other.key ≤ set.key) sets
  exact hsorted.imp ItemSet.items_ne_nil_of_key_le

/-- Every set has an item, or none has more than one. -/
def EvenlyFilled (state : State k) : Prop :=
  (∀ set ∈ state.sets, set.items ≠ []) ∨ ∀ set ∈ state.sets, set.items.length ≤ 1

theorem evenlyFilled_ofSets {sets : List ItemSet} {hlength : sets.length = k}
    (hsets : (∀ set ∈ sets, set.items ≠ []) ∨ ∀ set ∈ sets, set.items.length ≤ 1) :
    (ofSets sets hlength).EvenlyFilled := by
  have hperm := ItemSet.sortDescending_perm sets
  exact hsets.imp (fun hall set hset => hall set (hperm.mem_iff.mp hset))
    (fun hall set hset => hall set (hperm.mem_iff.mp hset))

/-- A merge leaves a set empty only if it puts no two items together. -/
theorem EvenlyFilled.merge {state other : State k} (hstate : state.EvenlyFilled)
    (hother : other.EvenlyFilled) (hlast : state.EmptyLast) (hotherLast : other.EmptyLast) :
    (state.merge other).EvenlyFilled := by
  apply evenlyFilled_ofSets
  have hlength : other.sets.reverse.length = state.sets.length := by
    rw [List.length_reverse, state.length_eq, other.length_eq]
  -- The set at each place of the merged state.
  have hmem : ∀ {holds : ItemSet → Prop}, (∀ i (hi : i < state.sets.length),
      holds (state.sets[i].merge other.sets.reverse[i])) →
        ∀ set ∈ List.zipWith ItemSet.merge state.sets other.sets.reverse, holds set := by
    intro holds hholds set hset
    obtain ⟨i, hi, rfl⟩ := List.mem_iff_getElem.mp hset
    rw [List.getElem_zipWith]
    exact hholds i (by rw [List.length_zipWith] at hi; omega)
  by_cases hcovered : ∀ i (hi : i < state.sets.length),
      state.sets[i].items ≠ [] ∨ other.sets.reverse[i].items ≠ []
  · left
    refine hmem fun i hi hnil => ?_
    rw [ItemSet.merge, List.append_eq_nil_iff] at hnil
    exact (hcovered i hi).elim (· hnil.1) (· hnil.2)
  · right
    push Not at hcovered
    obtain ⟨place, hplace, hempty, hotherEmpty⟩ := hcovered
    have hone : ∀ set ∈ state.sets, set.items.length ≤ 1 := by
      refine hstate.resolve_left fun hall => ?_
      exact hall _ (List.getElem_mem hplace) hempty
    have hotherOne : ∀ set ∈ other.sets, set.items.length ≤ 1 := by
      refine hother.resolve_left fun hall => ?_
      exact hall _ (List.mem_reverse.mp (List.getElem_mem _)) hotherEmpty
    have hbehind : other.sets.reverse.Pairwise fun set next =>
        set.items ≠ [] → next.items ≠ [] := List.pairwise_reverse.mpr hotherLast
    refine hmem fun i hi => ?_
    have hfirst := hone _ (List.getElem_mem hi)
    have hsecond := hotherOne _ (List.mem_reverse.mp (List.getElem_mem (by omega : i <
      other.sets.reverse.length)))
    rw [ItemSet.merge, List.length_append]
    rcases Nat.lt_or_ge i place with hlt | hge
    · have hnil : other.sets.reverse[i].items = [] := by
        by_contra hitems
        exact List.pairwise_iff_getElem.mp hbehind i place (by omega) (by omega) hlt hitems
          hotherEmpty
      rw [hnil, List.length_nil]
      exact hfirst
    · have hnil : state.sets[i].items = [] := by
        by_contra hitems
        rcases Nat.eq_or_lt_of_le hge with rfl | hlt
        · exact hitems hempty
        · exact List.pairwise_iff_getElem.mp hlast place i hplace hi hlt hitems hempty
      rw [hnil, List.length_nil, Nat.zero_add]
      exact hsecond

/-- All sets have as many items. -/
def SameSize (state : State k) (size : ℕ) : Prop :=
  ∀ set ∈ state.sets, set.items.length = size

theorem SameSize.merge {state other : State k} {size otherSize : ℕ}
    (hstate : state.SameSize size) (hother : other.SameSize otherSize) :
    (state.merge other).SameSize (size + otherSize) := by
  intro set hset
  have hset := (ItemSet.sortDescending_perm _).mem_iff.mp hset
  obtain ⟨i, hi, rfl⟩ := List.mem_iff_getElem.mp hset
  rw [List.length_zipWith] at hi
  rw [List.getElem_zipWith, ItemSet.merge, List.length_append,
    hstate _ (List.getElem_mem (by omega)),
    hother _ (List.mem_reverse.mp (List.getElem_mem (by omega)))]

theorem length_items (state : State k) :
    state.items.length = (state.sets.map fun set => set.items.length).sum := by
  rw [items, List.length_flatMap]

theorem SameSize.length_items {state : State k} {size : ℕ} (hsize : state.SameSize size) :
    state.items.length = k * size := by
  have hmap : (state.sets.map fun set => set.items.length) = List.replicate k size := by
    rw [List.eq_replicate_iff, List.length_map]
    refine ⟨state.length_eq, fun length hlength => ?_⟩
    obtain ⟨set, hset, rfl⟩ := List.mem_map.mp hlength
    exact hsize set hset
  rw [State.length_items, hmap, List.sum_replicate_nat]

/-- Enough items leave no set empty. -/
theorem EvenlyFilled.items_ne_nil {state : State k} (hfilled : state.EvenlyFilled)
    (hitems : k ≤ state.items.length) : ∀ set ∈ state.sets, set.items ≠ [] := by
  rcases hfilled with hall | hone
  · exact hall
  · intro set hset hnil
    obtain ⟨before, after, hsplit⟩ := List.append_of_mem hset
    have hbound : ∀ sets : List ItemSet, (∀ other ∈ sets, other.items.length ≤ 1) →
        (sets.map fun other => other.items.length).sum ≤ sets.length := by
      intro sets hsets
      simpa using List.sum_le_card_nsmul (sets.map fun other => other.items.length) 1
        (by simpa using hsets)
    have hlength := state.length_eq
    rw [hsplit] at hone hlength
    rw [State.length_items, hsplit, List.map_append, List.map_cons, List.sum_append,
      List.sum_cons, hnil, List.length_nil] at hitems
    have hfront := hbound before fun other hother => hone other (by simp [hother])
    have hback := hbound after fun other hother => hone other (by simp [hother])
    simp only [List.length_append, List.length_cons] at hlength
    omega

/-! ## The states that the queue starts with -/

theorem init_eq {items : List (ℕ × ℕ)} (hlength : items.length = 1 ∨ items.length = k)
    (hle : items.length ≤ k) :
    init items k = .ok (ofSets (items.map ItemSet.singleton ++
      List.replicate (k - items.length) ItemSet.empty) (by simp [hle])) := by
  rw [init, if_neg (by tauto), dif_pos hle]

theorem evenlyFilled_init {items : List (ℕ × ℕ)} {state : State k}
    (hinit : init items k = .ok state) : state.EvenlyFilled ∧ state.EmptyLast := by
  unfold init at hinit
  split at hinit
  next => contradiction
  next =>
    split at hinit
    next hlength =>
      rw [Except.ok.injEq] at hinit
      subst hinit
      refine ⟨evenlyFilled_ofSets (.inr ?_), emptyLast_ofSets _ _⟩
      intro set hset
      rcases List.mem_append.mp hset with hitem | hempty
      · obtain ⟨item, -, rfl⟩ := List.mem_map.mp hitem
        exact Nat.le_refl 1
      · rw [List.eq_of_mem_replicate hempty]
        exact Nat.zero_le 1
    next => contradiction

theorem sameSize_init {items : List (ℕ × ℕ)} {state : State k}
    (hinit : init items k = .ok state) (hlength : items.length = k) : state.SameSize 1 := by
  rw [init_eq (.inr hlength) hlength.le, Except.ok.injEq] at hinit
  subst hinit
  intro set hset
  have hset := (ItemSet.sortDescending_perm _).mem_iff.mp hset
  rw [hlength, Nat.sub_self, List.replicate_zero, List.append_nil] at hset
  obtain ⟨item, -, rfl⟩ := List.mem_map.mp hset
  rfl

end State

/-! ## The loop -/

theorem mergeAll_evenlyFilled {k : ℕ} {state : State k} {states : List (State k)}
    (hstates : ∀ other ∈ state :: states, other.EvenlyFilled ∧ other.EmptyLast) :
    (mergeAll states.length state states).EvenlyFilled := by
  have hinvariant := mergeAll_invariant
    (fun others : List (State k) => ∀ other ∈ others, other.EvenlyFilled ∧ other.EmptyLast)
    (fun hperm hothers other hother => hothers other (hperm.mem_iff.mpr hother))
    (fun state0 state1 others hothers => by
      simp only [List.forall_mem_cons] at hothers ⊢
      obtain ⟨⟨hfirst, hfirstLast⟩, ⟨hsecond, hsecondLast⟩, hrest⟩ := hothers
      exact ⟨⟨hfirst.merge hsecond hfirstLast hsecondLast, State.emptyLast_ofSets _ _⟩, hrest⟩)
    le_rfl hstates
  exact (hinvariant _ List.mem_cons_self).1

theorem mergeAll_sameSize {k : ℕ} {state : State k} {states : List (State k)}
    (hstates : ∀ other ∈ state :: states, ∃ size, other.SameSize size) :
    ∃ size, (mergeAll states.length state states).SameSize size := by
  have hinvariant := mergeAll_invariant
    (fun others : List (State k) => ∀ other ∈ others, ∃ size, other.SameSize size)
    (fun hperm hothers other hother => hothers other (hperm.mem_iff.mpr hother))
    (fun state0 state1 others hothers => by
      simp only [List.forall_mem_cons] at hothers ⊢
      obtain ⟨⟨size, hfirst⟩, ⟨otherSize, hsecond⟩, hrest⟩ := hothers
      exact ⟨⟨_, hfirst.merge hsecond⟩, hrest⟩)
    le_rfl hstates
  exact hinvariant _ List.mem_cons_self

/-- The groups that the states of the queue start with have the right sizes. -/
theorem length_of_mem_initialItems {seqlenList : List ℕ} {kPartitions : ℕ} {equalSize : Bool}
    (hdvd : equalSize = true → kPartitions ∣ seqlenList.length) {items : List (ℕ × ℕ)}
    (hitems : items ∈ initialItems seqlenList kPartitions equalSize) :
    items.length = if equalSize then kPartitions else 1 := by
  cases equalSize with
  | true =>
      rw [initialItems, if_pos rfl] at hitems
      have hlengths := List.map_splitLengths_length (sortedItems seqlenList)
        (List.replicate (seqlenList.length / kPartitions) kPartitions) (by
          rw [List.sum_replicate_nat, Nat.div_mul_cancel (hdvd rfl),
            (sortedItems_perm seqlenList).length_eq]
          simp [itemsOf])
      have hmem := List.mem_map_of_mem (f := List.length) hitems
      rw [hlengths] at hmem
      exact List.eq_of_mem_replicate hmem
  | false =>
      obtain ⟨item, -, rfl⟩ := List.mem_map.mp hitems
      rfl

/-- The states that the queue starts with are evenly filled, and of equal size where this
is asked for. -/
theorem mapM_init_filled {seqlenList : List ℕ} {kPartitions : ℕ} {equalSize : Bool}
    (hdvd : equalSize = true → kPartitions ∣ seqlenList.length)
    {statesPq : List (State kPartitions)}
    (hstates : (initialItems seqlenList kPartitions equalSize).mapM
      (fun items => State.init items kPartitions) = .ok statesPq) :
    (∀ state ∈ statesPq, state.EvenlyFilled ∧ state.EmptyLast) ∧
      (equalSize = true → ∀ state ∈ statesPq, state.SameSize 1) := by
  refine ⟨fun state hstate => ?_, fun hequal state hstate => ?_⟩
  · obtain ⟨items, -, hinit⟩ := exists_of_mem_mapM hstates hstate
    exact State.evenlyFilled_init hinit
  · obtain ⟨items, hitems, hinit⟩ := exists_of_mem_mapM hstates hstate
    have hlength := length_of_mem_initialItems hdvd hitems
    rw [if_pos hequal] at hlength
    exact State.sameSize_init hinit hlength

/-- The partitioner hands out the sets of the state that is left. -/
theorem karmarkarKarp_eq_ok {seqlenList : List ℕ} {kPartitions : ℕ} {equalSize : Bool}
    (hpos : 0 < kPartitions) (hlength : kPartitions ≤ seqlenList.length)
    (hdvd : equalSize = true → kPartitions ∣ seqlenList.length) :
    ∃ state states, (initialItems seqlenList kPartitions equalSize).mapM
        (fun items => State.init items kPartitions) = .ok (state :: states) ∧
      ((state :: states).flatMap State.items).Perm (itemsOf seqlenList) ∧
      karmarkarKarp seqlenList kPartitions equalSize =
        .ok (mergeAll states.length state states).getPartitions := by
  have hmod : ¬ (equalSize ∧ seqlenList.length % kPartitions ≠ 0) := fun hmod =>
    hmod.2 (Nat.mod_eq_zero_of_dvd (hdvd hmod.1))
  have hsize : ∀ items ∈ initialItems seqlenList kPartitions equalSize,
      (items.length = 1 ∨ items.length = kPartitions) ∧ items.length ≤ kPartitions := by
    intro items hitems
    have hlengthItems := length_of_mem_initialItems hdvd hitems
    split at hlengthItems
    next => exact ⟨.inr hlengthItems, hlengthItems.le⟩
    next => exact ⟨.inl hlengthItems, hlengthItems.trans_le hpos⟩
  obtain ⟨statesPq, hstates⟩ := exists_mapM_eq_ok fun items hitems =>
    ⟨_, State.init_eq (hsize items hitems).1 (hsize items hitems).2⟩
  have hitems := (mapM_init hstates).1
  rw [flatten_initialItems hmod] at hitems
  have hitems := hitems.trans (sortedItems_perm seqlenList)
  rw [karmarkarKarp, if_neg (fun hzero => hpos.ne' hzero.2), if_neg hmod, hstates]
  cases statesPq with
  | nil =>
      have hnil := hitems.length_eq
      simp [itemsOf] at hnil
      omega
  | cons state states =>
      refine ⟨state, states, rfl, hitems, if_neg ?_⟩
      rintro ⟨hequal, partition, hpartition, hne⟩
      have hsame := (mapM_init_filled hdvd hstates).2 hequal
      obtain ⟨size, hmerged⟩ := mergeAll_sameSize fun other hother => ⟨1, hsame other hother⟩
      obtain ⟨set, hset, rfl⟩ := List.mem_map.mp hpartition
      have htotal := ((mergeAll_items state states).trans hitems).length_eq
      rw [hmerged.length_items, itemsOf, List.length_map, List.length_zipIdx] at htotal
      exact hne (by rw [List.length_map, hmerged set hset, Nat.mul_comm, htotal])

/-! ## Items that start in one state -/

/-- Two items are in one of the states, in different sets. -/
structure Apart {k : ℕ} (first second : ℕ × ℕ) (states : List (State k)) : Prop where
  nodup : (states.flatMap State.items).Nodup
  together : ∃ state ∈ states, first ∈ state.items ∧ second ∈ state.items
  apart : ∀ state ∈ states, ∀ set ∈ state.sets, first ∈ set.items → second ∉ set.items

theorem Apart.perm {k : ℕ} {first second : ℕ × ℕ} {states others : List (State k)}
    (hperm : states.Perm others) (hapart : Apart first second states) :
    Apart first second others where
  nodup := (hperm.flatMap_right _).nodup_iff.mp hapart.nodup
  together := by
    obtain ⟨state, hstate, hitems⟩ := hapart.together
    exact ⟨state, hperm.mem_iff.mp hstate, hitems⟩
  apart := fun state hstate => hapart.apart state (hperm.mem_iff.mpr hstate)

theorem Apart.merge {k : ℕ} {first second : ℕ × ℕ} {state other : State k}
    {states : List (State k)} (hapart : Apart first second (state :: other :: states)) :
    Apart first second (state.merge other :: states) := by
  have hitems := State.merge_items state other
  have hnodup := hapart.nodup
  rw [List.flatMap_cons, List.flatMap_cons, ← List.append_assoc] at hnodup
  have hdisjoint : ∀ item ∈ state.items, item ∉ other.items := fun item hitem hother =>
    List.disjoint_of_nodup_append (List.nodup_append.mp hnodup).1 hitem hother
  refine ⟨?_, ?_, ?_⟩
  · rw [List.flatMap_cons]
    exact (hitems.append_right _).nodup_iff.mpr hnodup
  · obtain ⟨source, hsource, hfirst, hsecond⟩ := hapart.together
    have hmerged : source = state ∨ source = other → ∃ next ∈ state.merge other :: states,
        first ∈ next.items ∧ second ∈ next.items := by
      rintro (rfl | rfl)
      · exact ⟨_, List.mem_cons_self, hitems.mem_iff.mpr (List.mem_append_left _ hfirst),
          hitems.mem_iff.mpr (List.mem_append_left _ hsecond)⟩
      · exact ⟨_, List.mem_cons_self, hitems.mem_iff.mpr (List.mem_append_right _ hfirst),
          hitems.mem_iff.mpr (List.mem_append_right _ hsecond)⟩
    rcases List.mem_cons.mp hsource with heq | hsource
    · exact hmerged (.inl heq)
    · rcases List.mem_cons.mp hsource with heq | hsource
      · exact hmerged (.inr heq)
      · exact ⟨source, List.mem_cons_of_mem _ hsource, hfirst, hsecond⟩
  · rw [List.forall_mem_cons]
    refine ⟨fun set hset hfirst hsecond => ?_, fun next hnext =>
      hapart.apart next (List.mem_cons_of_mem _ (List.mem_cons_of_mem _ hnext))⟩
    have hset := (ItemSet.sortDescending_perm _).mem_iff.mp hset
    obtain ⟨i, hi, rfl⟩ := List.mem_iff_getElem.mp hset
    rw [List.length_zipWith] at hi
    rw [List.getElem_zipWith, ItemSet.merge, List.mem_append] at hfirst hsecond
    have hleft : state.sets[i] ∈ state.sets := List.getElem_mem _
    have hright : other.sets.reverse[i] ∈ other.sets :=
      List.mem_reverse.mp (List.getElem_mem _)
    -- The items cannot come from two states, since one state holds both.
    have hsplit : ∀ item item', (item = first ∧ item' = second ∨
        item = second ∧ item' = first) → item ∈ state.items → item' ∉ other.items := by
      intro item item' hcases hitem hitem'
      obtain ⟨source, hsource, hfirst, hsecond⟩ := hapart.together
      have hboth : item ∈ source.items ∧ item' ∈ source.items := by
        rcases hcases with ⟨rfl, rfl⟩ | ⟨rfl, rfl⟩
        · exact ⟨hfirst, hsecond⟩
        · exact ⟨hsecond, hfirst⟩
      rcases List.mem_cons.mp hsource with rfl | hsource
      · exact hdisjoint item' hboth.2 hitem'
      · rcases List.mem_cons.mp hsource with rfl | hsource
        · exact hdisjoint item hitem hboth.1
        · have hrest := List.disjoint_of_nodup_append hnodup
          exact hrest (List.mem_append_left _ hitem)
            (List.mem_flatMap.mpr ⟨source, hsource, hboth.1⟩)
    have hmem : ∀ {item : ℕ × ℕ} {from' : State k} {set : ItemSet}, set ∈ from'.sets →
        item ∈ set.items → item ∈ from'.items := fun hset hitem =>
      List.mem_flatMap.mpr ⟨_, hset, hitem⟩
    rcases hfirst with hfirst | hfirst <;> rcases hsecond with hsecond | hsecond
    · exact hapart.apart state List.mem_cons_self _ hleft hfirst hsecond
    · exact hsplit first second (.inl ⟨rfl, rfl⟩) (hmem hleft hfirst) (hmem hright hsecond)
    · exact hsplit second first (.inr ⟨rfl, rfl⟩) (hmem hleft hsecond) (hmem hright hfirst)
    · exact hapart.apart other (by simp) _ hright hfirst hsecond

theorem mergeAll_apart {k : ℕ} {first second : ℕ × ℕ} {state : State k}
    {states : List (State k)} (hapart : Apart first second (state :: states)) :
    Apart first second [mergeAll states.length state states] :=
  mergeAll_invariant (Apart first second) Apart.perm (fun _ _ _ => Apart.merge) le_rfl hapart

theorem drop_mem_splitLengths {α : Type} {k m : ℕ} {items : List α}
    (hlength : items.length = (m + 1) * k) :
    items.drop (m * k) ∈ (List.replicate (m + 1) k).splitLengths items := by
  induction m generalizing items with
  | zero =>
      have htake : items.take k = items := List.take_of_length_le (by omega)
      simp [List.splitLengths_cons, htake]
  | succ m ih =>
      have hrest := @ih (items.drop k) (by
        rw [List.length_drop, hlength, Nat.succ_mul, Nat.add_sub_cancel])
      rw [List.drop_drop, Nat.add_comm k, ← Nat.succ_mul] at hrest
      rw [List.replicate_succ, List.splitLengths_cons]
      exact List.mem_cons_of_mem _ hrest

/-- The last state of a queue of equal groups starts with the largest items. -/
theorem mem_last_of_heavy {seqlenList : List ℕ} {m k : ℕ} (hk : 2 ≤ k)
    (hlength : seqlenList.length = (m + 1) * k) {first second : ℕ}
    (hlight : ∀ item ∈ itemsOf seqlenList, item.1 ≠ first → item.1 ≠ second → item.2 = 0)
    {item : ℕ × ℕ} (hitem : item ∈ itemsOf seqlenList) (hheavy : 0 < item.2) :
    item ∈ (sortedItems seqlenList).drop (m * k) := by
  have hperm := sortedItems_perm seqlenList
  have hkeys : ((sortedItems seqlenList).map Prod.fst).Nodup := by
    rw [(hperm.map Prod.fst).nodup_iff, map_fst_itemsOf]
    exact List.nodup_range
  have hsorted : (sortedItems seqlenList).Pairwise fun item other => item.2 ≤ other.2 := by
    have hpairwise := List.pairwise_insertionSort
      (fun item other : ℕ × ℕ => toLex item.swap ≤ toLex other.swap) (itemsOf seqlenList)
    refine hpairwise.imp fun {item other} hle => ?_
    rcases Prod.Lex.toLex_le_toLex.mp hle with hlt | ⟨heq, -⟩
    · exact hlt.le
    · exact heq.le
  have hsplit := List.take_append_drop (m * k) (sortedItems seqlenList)
  have hback : ((sortedItems seqlenList).drop (m * k)).length = k := by
    rw [List.length_drop, hperm.length_eq, itemsOf, List.length_map, List.length_zipIdx, hlength,
      Nat.succ_mul, Nat.add_sub_cancel_left]
  generalize (sortedItems seqlenList).take (m * k) = front at hsplit
  generalize (sortedItems seqlenList).drop (m * k) = back at hsplit hback ⊢
  rw [← hsplit] at hperm hkeys hsorted
  rcases List.mem_append.mp (hperm.mem_iff.mpr hitem) with hfront | hmem
  · -- Everything behind the item would be as heavy, and be one of two items.
    obtain ⟨-, -, hle⟩ := List.pairwise_append.mp hsorted
    rw [List.map_append, List.nodup_append] at hkeys
    have hpair : ∀ other ∈ back, other.1 = first ∨ other.1 = second := by
      intro other hother
      by_contra hneither
      rw [not_or] at hneither
      have hzero := hlight other (hperm.mem_iff.mp (List.mem_append_right _ hother))
        hneither.1 hneither.2
      have hother := hle item hfront other hother
      omega
    have hitemPair : item.1 = first ∨ item.1 = second := by
      by_contra hneither
      rw [not_or] at hneither
      exact hheavy.ne' (hlight item hitem hneither.1 hneither.2)
    have hone : ∀ other ∈ back, ∀ next ∈ back, other.1 = next.1 := by
      intro other hother next hnext
      have hfresh : ∀ other ∈ back, item.1 ≠ other.1 := fun other hother =>
        hkeys.2.2 _ (List.mem_map_of_mem hfront) _ (List.mem_map_of_mem hother)
      have hotherFresh := hfresh other hother
      have hnextFresh := hfresh next hnext
      rcases hpair other hother with h1 | h1 <;> rcases hpair next hnext with h2 | h2 <;>
        rcases hitemPair with h3 | h3 <;> omega
    cases back with
    | nil => simp at hback; omega
    | cons first' rest =>
        cases rest with
        | nil => simp at hback; omega
        | cons second' rest =>
            have heq := hone first' (by simp) second' (by simp)
            simp [heq] at hkeys
  · exact hmem

/-- The two indices with lengths above zero are in different partitions, if there are at
least two partitions of equal size. -/
theorem partitions_apart {seqlenList : List ℕ} {k : ℕ} (hk : 2 ≤ k)
    (hdvd : k ∣ seqlenList.length) {first second : ℕ} (hne : first ≠ second)
    {firstSeqlen secondSeqlen : ℕ} (hfirst : (first, firstSeqlen) ∈ itemsOf seqlenList)
    (hsecond : (second, secondSeqlen) ∈ itemsOf seqlenList)
    (hfirstHeavy : 0 < firstSeqlen) (hsecondHeavy : 0 < secondSeqlen)
    (hlight : ∀ item ∈ itemsOf seqlenList, item.1 ≠ first → item.1 ≠ second → item.2 = 0)
    {partitions : List (List ℕ)}
    (hok : getSeqlenBalancedPartitions seqlenList k true = .ok partitions) :
    ∀ partition ∈ partitions, first ∈ partition → second ∉ partition := by
  have hlengthItems : (itemsOf seqlenList).length = seqlenList.length := by simp [itemsOf]
  have hpos : 0 < seqlenList.length := hlengthItems ▸ List.length_pos_of_mem hfirst
  obtain ⟨count, hcount⟩ := hdvd
  obtain ⟨m, rfl⟩ : ∃ m, count = m + 1 := ⟨count - 1, by
    have hcountPos := Nat.pos_of_mul_pos_left (hcount ▸ hpos)
    omega⟩
  rw [Nat.mul_comm] at hcount
  have hle : k ≤ seqlenList.length := by
    rw [hcount, Nat.succ_mul]
    exact Nat.le_add_left _ _
  obtain ⟨state, states, hstates, hitems, hkk⟩ := karmarkarKarp_eq_ok (by omega) hle
    fun _ => ⟨m + 1, by rw [hcount, Nat.mul_comm]⟩
  have hnodup : (itemsOf seqlenList).Nodup := by
    refine List.Nodup.of_map Prod.fst ?_
    rw [map_fst_itemsOf]
    exact List.nodup_range
  -- The state that starts with both items.
  have hgroup : (sortedItems seqlenList).drop (m * k) ∈ initialItems seqlenList k true := by
    rw [initialItems, if_pos rfl, hcount, Nat.mul_div_cancel _ (by omega)]
    apply drop_mem_splitLengths
    rw [(sortedItems_perm seqlenList).length_eq, hlengthItems, hcount]
  obtain ⟨index, hindex, hget⟩ := List.mem_iff_getElem.mp hgroup
  have hindex' : index < (state :: states).length := by
    rwa [length_of_mapM hstates]
  have hinit := getElem_of_mapM hstates hindex hindex'
  rw [hget] at hinit
  have hstart := (State.init_eq_ok hinit).1
  have hapart : Apart (first, firstSeqlen) (second, secondSeqlen) (state :: states) := by
    refine ⟨hitems.nodup_iff.mpr hnodup, ⟨_, List.getElem_mem hindex', ?_, ?_⟩, ?_⟩
    · exact hstart.mem_iff.mpr (mem_last_of_heavy hk hcount hlight hfirst hfirstHeavy)
    · exact hstart.mem_iff.mpr (mem_last_of_heavy hk hcount hlight hsecond hsecondHeavy)
    · intro other hother set hset hin hin'
      have hsize := (mapM_init_filled (fun _ => ⟨m + 1, by rw [hcount, Nat.mul_comm]⟩)
        hstates).2 rfl other hother set hset
      obtain ⟨item, heq⟩ := List.length_eq_one_iff.mp hsize
      rw [heq, List.mem_singleton] at hin hin'
      exact hne (congrArg Prod.fst (hin.trans hin'.symm))
  have hmerged := mergeAll_apart hapart
  rw [getSeqlenBalancedPartitions, if_neg (Nat.not_lt.mpr hle), hkk] at hok
  change (if _ then _ else if _ then _ else if _ then _ else _) = _ at hok
  split at hok
  next => contradiction
  next =>
    split at hok
    next => contradiction
    next =>
      split at hok
      next => contradiction
      next =>
        rw [Except.ok.injEq] at hok
        subst hok
        intro partition hpartition hmem hmem'
        obtain ⟨source, hsource, rfl⟩ := List.mem_map.mp hpartition
        obtain ⟨set, hset, rfl⟩ := List.mem_map.mp hsource
        -- An index stands for its item.
        have hitem : ∀ {idx seqlen : ℕ}, (idx, seqlen) ∈ itemsOf seqlenList →
            idx ∈ (set.items.map Prod.fst).insertionSort (· ≤ ·) →
              (idx, seqlen) ∈ set.items := by
          intro idx seqlen hidx hsorted
          obtain ⟨item, hitem, rfl⟩ := List.mem_map.mp
            ((List.perm_insertionSort _ _).mem_iff.mp hsorted)
          have hlisted : item ∈ itemsOf seqlenList :=
            ((mergeAll_items state states).trans hitems).mem_iff.mp
              (List.mem_flatMap.mpr ⟨set, hset, hitem⟩)
          have hvalue : some item.2 = some seqlen :=
            (mem_itemsOf hlisted).symm.trans (mem_itemsOf hidx)
          obtain rfl : item.2 = seqlen := Option.some.inj hvalue
          exact hitem
        exact hmerged.apart _ List.mem_cons_self set hset (hitem hfirst hmem)
          (hitem hsecond hmem')

/-! ## The partitions -/

/-- No assertion fails. -/
theorem getSeqlenBalancedPartitions_isOk {seqlenList : List ℕ} {kPartitions : ℕ}
    {equalSize : Bool} (hpos : 0 < kPartitions) (hlength : kPartitions ≤ seqlenList.length)
    (hdvd : equalSize = true → kPartitions ∣ seqlenList.length) :
    ∃ partitions, getSeqlenBalancedPartitions seqlenList kPartitions equalSize =
        .ok partitions ∧
      (equalSize = true → ∀ partition ∈ partitions,
        partition.length = seqlenList.length / kPartitions) := by
  obtain ⟨state, states, hstates, hitems, hok⟩ := karmarkarKarp_eq_ok hpos hlength hdvd
  have hbalanced := karmarkarKarp_balanced hok
  obtain ⟨hfilled, hsame⟩ := mapM_init_filled hdvd hstates
  have htotal := ((mergeAll_items state states).trans hitems).length_eq
  rw [itemsOf, List.length_map, List.length_zipIdx] at htotal
  have hempty : [] ∉ (mergeAll states.length state states).getPartitions := by
    intro hmem
    obtain ⟨set, hset, hnil⟩ := List.mem_map.mp hmem
    exact (mergeAll_evenlyFilled hfilled).items_ne_nil (hlength.trans_eq htotal.symm) set hset
      (List.map_eq_nil_iff.mp hnil)
  refine ⟨(mergeAll states.length state states).getPartitions.map fun partition =>
    partition.insertionSort (· ≤ ·), ?_, ?_⟩
  · rw [getSeqlenBalancedPartitions, if_neg (Nat.not_lt.mpr hlength), hok]
    change (if _ then _ else _) = _
    rw [if_neg (not_not.mpr hbalanced.length_eq), if_neg hempty,
      if_neg (not_not.mpr ⟨hbalanced.perm.subset, hbalanced.perm.symm.subset⟩)]
  · intro hequal partition hpartition
    obtain ⟨size, hsize⟩ := mergeAll_sameSize fun other hother =>
      ⟨1, hsame hequal other hother⟩
    obtain ⟨source, hsource, rfl⟩ := List.mem_map.mp hpartition
    obtain ⟨set, hset, rfl⟩ := List.mem_map.mp hsource
    rw [List.length_insertionSort, List.length_map, hsize set hset, ← htotal,
      hsize.length_items, Nat.mul_div_cancel_left _ hpos]

/-- Every list of at least as many lengths as partitions is partitioned: no assertion
fails, every index is in one of the partitions, none of them is empty, they have equal
sizes where this is asked for, and their sums differ by no more than the largest length. -/
theorem seqlens_partitioned (seqlenList : List ℕ) (kPartitions : ℕ) (equalSize : Bool)
    (hpos : 0 < kPartitions) (hlength : kPartitions ≤ seqlenList.length)
    (hdvd : equalSize = true → kPartitions ∣ seqlenList.length) :
    ∃ partitions, getSeqlenBalancedPartitions seqlenList kPartitions equalSize =
        .ok partitions ∧
      partitions.length = kPartitions ∧
      (∀ partition ∈ partitions, partition ≠ []) ∧
      partitions.Pairwise List.Disjoint ∧
      partitions.flatten.Perm (List.range seqlenList.length) ∧
      (equalSize = true → ∀ partition ∈ partitions,
        partition.length = seqlenList.length / kPartitions) ∧
      ∃ longest ∈ seqlenList, (∀ seqlen ∈ seqlenList, seqlen ≤ longest) ∧
        ∀ left ∈ partitions, ∀ right ∈ partitions,
          (gather left seqlenList).sum ≤ (gather right seqlenList).sum + longest := by
  obtain ⟨partitions, hok, hsize⟩ := getSeqlenBalancedPartitions_isOk hpos hlength hdvd
  obtain ⟨hbalanced, hnonempty⟩ := getSeqlenBalancedPartitions_balanced hok
  have hnodup := hbalanced.perm.nodup_iff.mpr List.nodup_range
  refine ⟨partitions, hok, hbalanced.length_eq, hnonempty, (List.nodup_flatten.mp hnodup).2,
    hbalanced.perm, hsize, ?_⟩
  have hseqlens : 0 < seqlenList.length := hpos.trans_le hlength
  have hlongest : ∀ seqlen ∈ seqlenList,
      seqlen ≤ seqlenList.maximum_of_length_pos hseqlens := fun seqlen hseqlen =>
    List.le_maximum_of_length_pos_of_mem hseqlen hseqlens
  refine ⟨_, List.maximum_of_length_pos_mem hseqlens, hlongest, ?_⟩
  intro left hleft right hright
  exact hbalanced.spreadLe _ hlongest _ (List.mem_map_of_mem hleft) _
    (List.mem_map_of_mem hright)

/-- Also with lengths of zero. -/
theorem fourSeqlens_partitioned :
    ∃ partitions, getSeqlenBalancedPartitions [5, 0, 0, 4] 2 true = .ok partitions ∧
      partitions.flatten.Perm [0, 1, 2, 3] ∧
      ∀ partition ∈ partitions, partition.length = 2 := by
  obtain ⟨partitions, hok, -, -, -, hperm, hsize, -⟩ :=
    seqlens_partitioned [5, 0, 0, 4] 2 true (by decide) (by decide) (by decide)
  exact ⟨partitions, hok, hperm, hsize rfl⟩

end OneShotOPD.SeqlenBalancing
