import OneShotOPD.Core.Checks
import OneShotOPD.Core.Differencing
import OneShotOPD.Core.Gather
import Mathlib

/-!
# The Karmarkar-Karp partitioner

A state is a tuple of item sets in decreasing order.  The two states that come
first, by their spread, are merged in opposite orders until one is left; its
sets are the partitions.  Every merge keeps the items and does not widen the
spread.
-/

namespace OneShotOPD.SeqlenBalancing

open Checks Differencing
open scoped List

/-- `Set`: items, each an index with its value, and the sum of the values. -/
structure ItemSet where
  items : List (ℕ × ℕ)
  sum : ℕ
  sum_eq : sum = (items.map Prod.snd).sum

namespace ItemSet

def empty : ItemSet := ⟨[], 0, rfl⟩

/-- `add(idx, val)` on an empty set. -/
def singleton (item : ℕ × ℕ) : ItemSet := ⟨[item], item.2, by simp⟩

def merge (set other : ItemSet) : ItemSet where
  items := set.items ++ other.items
  sum := set.sum + other.sum
  sum_eq := by rw [set.sum_eq, other.sum_eq, List.map_append, List.sum_append]

/-- What `__lt__` compares: the sum, the number of items, and the items. -/
def key (set : ItemSet) : ℕ ×ₗ ℕ ×ₗ List (ℕ ×ₗ ℕ) :=
  toLex (set.sum, toLex (set.items.length, set.items.map toLex))

/-- `sorted(sets, reverse=True)`. -/
def sortDescending (sets : List ItemSet) : List ItemSet :=
  sets.insertionSort fun set other => other.key ≤ set.key

theorem sortDescending_perm (sets : List ItemSet) : (sortDescending sets).Perm sets :=
  List.perm_insertionSort _ sets

theorem sum_le_of_key_le {set other : ItemSet} (hkey : set.key ≤ other.key) :
    set.sum ≤ other.sum := by
  rcases Prod.Lex.toLex_le_toLex.mp hkey with hlt | ⟨heq, -⟩
  · exact hlt.le
  · exact heq.le

theorem pairwise_sortDescending (sets : List ItemSet) :
    (sortDescending sets).Pairwise fun set other => other.sum ≤ set.sum := by
  have hsorted := List.pairwise_insertionSort
    (fun set other : ItemSet => other.key ≤ set.key) sets
  exact hsorted.imp sum_le_of_key_le

end ItemSet

/-- `State`: a tuple of sets, with the largest sum first. -/
structure State (k : ℕ) where
  sets : List ItemSet
  length_eq : sets.length = k
  sorted : sets.Pairwise fun set other => other.sum ≤ set.sum

namespace State

variable {k : ℕ}

def ofSets (sets : List ItemSet) (hlength : sets.length = k) : State k where
  sets := ItemSet.sortDescending sets
  length_eq := (ItemSet.sortDescending_perm sets).length_eq.trans hlength
  sorted := ItemSet.pairwise_sortDescending sets

/-- `State(items, k)`. -/
def init (items : List (ℕ × ℕ)) (k : ℕ) : Except String (State k) :=
  if items.length ≠ 1 ∧ items.length ≠ k then .error "AssertionError: not in [1, k]"
  else if hlength : items.length ≤ k then
    .ok (ofSets (items.map ItemSet.singleton ++
      List.replicate (k - items.length) ItemSet.empty) (by simp [hlength]))
  else .error "IndexError: list index out of range"

def merge (state other : State k) : State k :=
  ofSets (List.zipWith ItemSet.merge state.sets other.sets.reverse)
    (by simp [state.length_eq, other.length_eq])

def sums (state : State k) : List ℕ := state.sets.map ItemSet.sum

def items (state : State k) : List (ℕ × ℕ) := state.sets.flatMap ItemSet.items

/-- `sets[0].sum - sets[-1].sum`. -/
def spread (state : State k) : ℕ :=
  state.sums.headD 0 - state.sums.getLastD 0

/-- `__lt__`: the larger spread comes first, and then the larger first set. -/
def before (state other : State k) : Bool :=
  if state.spread ≠ other.spread then state.spread > other.spread
  else (other.sets.headD ItemSet.empty).key < (state.sets.headD ItemSet.empty).key

def getPartitions (state : State k) : List (List ℕ) :=
  state.sets.map fun set => set.items.map Prod.fst

end State

/-- The loop of the partitioner: `heappop` twice, merge, `heappush`. -/
def mergeAll {k : ℕ} : ℕ → State k → List (State k) → State k
  | 0, state, _ => state
  | count + 1, state, states =>
      let (state0, rest) := popLeast State.before state states
      match rest with
      | [] => state0
      | next :: others =>
          let (state1, remaining) := popLeast State.before next others
          mergeAll count (state0.merge state1) remaining

/-- The items that the partitioner is given: each index with its value. -/
def itemsOf (seqlenList : List ℕ) : List (ℕ × ℕ) := seqlenList.zipIdx.map Prod.swap

/-- `sorted_seqlen_list`: the items by value, and by index among equal values. -/
def sortedItems (seqlenList : List ℕ) : List (ℕ × ℕ) :=
  (itemsOf seqlenList).insertionSort fun item other =>
    toLex item.swap ≤ toLex other.swap

/-- The items that the states of the queue start with. -/
def initialItems (seqlenList : List ℕ) (kPartitions : ℕ) (equalSize : Bool) :
    List (List (ℕ × ℕ)) :=
  if equalSize then
    (List.replicate (seqlenList.length / kPartitions) kPartitions).splitLengths
      (sortedItems seqlenList)
  else (sortedItems seqlenList).map fun item => [item]

/-- `karmarkar_karp(seqlen_list, k_partitions, equal_size)`. -/
def karmarkarKarp (seqlenList : List ℕ) (kPartitions : ℕ) (equalSize : Bool) :
    Except String (List (List ℕ)) :=
  if equalSize ∧ kPartitions = 0 then .error "ZeroDivisionError"
  else if equalSize ∧ seqlenList.length % kPartitions ≠ 0 then .error "AssertionError"
  else do
    let statesPq ← (initialItems seqlenList kPartitions equalSize).mapM fun items =>
      State.init items kPartitions
    match statesPq with
    | [] => .error "IndexError: list index out of range"
    | state :: states =>
        let partitions := (mergeAll states.length state states).getPartitions
        if equalSize ∧ ∃ partition ∈ partitions,
            partition.length * kPartitions ≠ seqlenList.length then .error "AssertionError"
        else .ok partitions

/-- `get_seqlen_balanced_partitions(seqlen_list, k_partitions, equal_size)`. -/
def getSeqlenBalancedPartitions (seqlenList : List ℕ) (kPartitions : ℕ) (equalSize : Bool) :
    Except String (List (List ℕ)) :=
  if seqlenList.length < kPartitions then .error "AssertionError: number of items < k_partitions"
  else do
    let partitions ← karmarkarKarp seqlenList kPartitions equalSize
    if partitions.length ≠ kPartitions then .error "AssertionError"
    else if [] ∈ partitions then .error "AssertionError: a partition is empty"
    else if ¬ (partitions.flatten ⊆ List.range seqlenList.length ∧
        List.range seqlenList.length ⊆ partitions.flatten) then .error "AssertionError"
    else .ok (partitions.map fun partition => partition.insertionSort (· ≤ ·))

theorem perm_flatMap_items {sets others : List ItemSet} (hperm : sets.Perm others) :
    (sets.flatMap ItemSet.items).Perm (others.flatMap ItemSet.items) :=
  hperm.flatMap_right _

/-- Merging two tuples of sets, in whatever order, keeps their items. -/
theorem zipWith_merge_items {sets others : List ItemSet} (hlength : sets.length = others.length) :
    ((List.zipWith ItemSet.merge sets others).flatMap ItemSet.items).Perm
      (sets.flatMap ItemSet.items ++ others.flatMap ItemSet.items) := by
  induction sets generalizing others with
  | nil =>
      obtain rfl := List.eq_nil_of_length_eq_zero hlength.symm
      exact .refl _
  | cons set sets ih =>
      cases others with
      | nil => simp at hlength
      | cons other others =>
          have hrest := ih (Nat.succ.inj hlength)
          simp only [List.zipWith_cons_cons, List.flatMap_cons, ItemSet.merge,
            List.append_assoc]
          refine List.Perm.append_left _ ?_
          calc other.items ++ (List.zipWith ItemSet.merge sets others).flatMap ItemSet.items
              ~ other.items ++ (sets.flatMap ItemSet.items ++ others.flatMap ItemSet.items) :=
                hrest.append_left _
            _ ~ sets.flatMap ItemSet.items ++
                  (other.items ++ others.flatMap ItemSet.items) := by
                rw [← List.append_assoc, ← List.append_assoc]
                exact List.perm_append_comm.append_right _

namespace State

variable {k : ℕ}

theorem items_ofSets (sets : List ItemSet) (hlength : sets.length = k) :
    (ofSets sets hlength).items.Perm (sets.flatMap ItemSet.items) :=
  perm_flatMap_items (ItemSet.sortDescending_perm sets)

theorem sums_ofSets (sets : List ItemSet) (hlength : sets.length = k) :
    (ofSets sets hlength).sums.Perm (sets.map ItemSet.sum) :=
  (ItemSet.sortDescending_perm sets).map _

theorem merge_items (state other : State k) :
    (state.merge other).items.Perm (state.items ++ other.items) := by
  have hlength : state.sets.length = other.sets.reverse.length := by
    rw [List.length_reverse, state.length_eq, other.length_eq]
  calc (state.merge other).items
      ~ (List.zipWith ItemSet.merge state.sets other.sets.reverse).flatMap ItemSet.items :=
        items_ofSets _ _
    _ ~ state.items ++ other.sets.reverse.flatMap ItemSet.items :=
        zipWith_merge_items hlength
    _ ~ state.items ++ other.items :=
        (perm_flatMap_items (List.reverse_perm _)).append_left _

theorem sums_pairwise (state : State k) : state.sums.Pairwise (· ≥ ·) :=
  List.pairwise_map.mpr state.sorted

theorem spreadLe_merge {bound : ℕ} {state other : State k} (hstate : SpreadLe bound state.sums)
    (hother : SpreadLe bound other.sums) : SpreadLe bound (state.merge other).sums := by
  have hsums : (List.zipWith ItemSet.merge state.sets other.sets.reverse).map ItemSet.sum =
      List.zipWith (· + ·) state.sums other.sums.reverse := by
    rw [List.map_zipWith, sums, sums, ← List.map_reverse, List.zipWith_map]
    rfl
  apply SpreadLe.perm _ (sums_ofSets _ _)
  rw [hsums]
  exact spreadLe_zipWith_reverse state.sums_pairwise other.sums_pairwise hstate hother

/-- A state starts with its items, one in a set. -/
theorem init_eq_ok {items : List (ℕ × ℕ)} {state : State k}
    (hinit : init items k = .ok state) :
    state.items.Perm items ∧
      ∀ bound, (∀ item ∈ items, item.2 ≤ bound) → SpreadLe bound state.sums := by
  unfold init at hinit
  split at hinit
  next => contradiction
  next =>
    split at hinit
    next hlength =>
      rw [Except.ok.injEq] at hinit
      subst hinit
      have hitems : (items.map ItemSet.singleton ++
          List.replicate (k - items.length) ItemSet.empty).flatMap ItemSet.items = items := by
        rw [List.flatMap_append, List.flatMap_map]
        have hempty : (List.replicate (k - items.length) ItemSet.empty).flatMap
            ItemSet.items = [] := by
          rw [List.flatMap_eq_nil_iff]
          intro set hset
          rw [List.eq_of_mem_replicate hset]
          rfl
        rw [hempty, List.append_nil]
        exact List.flatMap_singleton' items
      refine ⟨(items_ofSets _ _).trans (.of_eq hitems), fun bound hbound => ?_⟩
      apply SpreadLe.perm (spreadLe_of_le _) (sums_ofSets _ _)
      intro sum hsum
      obtain ⟨set, hset, rfl⟩ := List.mem_map.mp hsum
      rcases List.mem_append.mp hset with hitem | hempty
      · obtain ⟨item, hmem, rfl⟩ := List.mem_map.mp hitem
        exact hbound item hmem
      · rw [List.eq_of_mem_replicate hempty]
        exact Nat.zero_le _
    next => contradiction

end State

/-- What does not depend on the order of the queue and is kept by a merge is kept
by the loop. -/
theorem mergeAll_invariant {k : ℕ} (holds : List (State k) → Prop)
    (hperm : ∀ {states others : List (State k)}, states.Perm others → holds states →
      holds others)
    (hmerge : ∀ (state0 state1 : State k) (states : List (State k)),
      holds (state0 :: state1 :: states) → holds (state0.merge state1 :: states))
    {count : ℕ} {state : State k} {states : List (State k)} (hcount : states.length ≤ count)
    (hholds : holds (state :: states)) : holds [mergeAll count state states] := by
  induction count generalizing state states with
  | zero =>
      obtain rfl := List.eq_nil_of_length_eq_zero (Nat.le_zero.mp hcount)
      exact hholds
  | succ count ih =>
      have hfirst := popLeast_perm State.before state states
      have hlength := length_popLeast State.before state states
      rw [mergeAll]
      generalize popLeast State.before state states = popped at hfirst hlength ⊢
      obtain ⟨state0, rest⟩ := popped
      have hpopped := hperm hfirst.symm hholds
      cases rest with
      | nil => exact hpopped
      | cons next others =>
          have hsecond := popLeast_perm State.before next others
          have hlength' := length_popLeast State.before next others
          simp only
          generalize popLeast State.before next others = popped at hsecond hlength' ⊢
          obtain ⟨state1, remaining⟩ := popped
          apply ih
          · rw [List.length_cons] at hlength
            rw [hlength']
            omega
          · exact hmerge _ _ _ (hperm (hsecond.symm.cons state0) hpopped)

theorem mergeAll_items {k : ℕ} (state : State k) (states : List (State k)) :
    (mergeAll states.length state states).items.Perm
      ((state :: states).flatMap State.items) := by
  have hinvariant := mergeAll_invariant
    (fun others => (others.flatMap State.items).Perm
      ((state :: states).flatMap State.items))
    (fun hperm hothers => (hperm.flatMap_right _).symm.trans hothers)
    (fun state0 state1 others hothers => by
      refine List.Perm.trans ?_ hothers
      rw [List.flatMap_cons, List.flatMap_cons, List.flatMap_cons, ← List.append_assoc]
      exact (State.merge_items state0 state1).append_right _)
    le_rfl (.refl _)
  simpa using hinvariant

theorem mergeAll_spreadLe {k bound : ℕ} {state : State k} {states : List (State k)}
    (hspread : ∀ other ∈ state :: states, SpreadLe bound other.sums) :
    SpreadLe bound (mergeAll states.length state states).sums := by
  have hinvariant := mergeAll_invariant
    (fun others => ∀ other ∈ others, SpreadLe bound other.sums)
    (fun hperm hothers other hother => hothers other (hperm.mem_iff.mpr hother))
    (fun state0 state1 others hothers => by
      simp only [List.forall_mem_cons] at hothers ⊢
      exact ⟨State.spreadLe_merge hothers.1 hothers.2.1, hothers.2.2⟩)
    le_rfl hspread
  exact hinvariant _ List.mem_cons_self

theorem map_fst_itemsOf (seqlenList : List ℕ) :
    (itemsOf seqlenList).map Prod.fst = List.range seqlenList.length := by
  rw [itemsOf, List.map_map]
  exact (List.zipIdx_map_snd 0 seqlenList).trans List.range_eq_range'.symm

theorem mem_itemsOf {seqlenList : List ℕ} {item : ℕ × ℕ} (hitem : item ∈ itemsOf seqlenList) :
    seqlenList[item.1]? = some item.2 := by
  obtain ⟨entry, hentry, rfl⟩ := List.mem_map.mp hitem
  exact List.mem_zipIdx_iff_getElem?.mp hentry

/-- The values at the indices of some items are the values of the items. -/
theorem gather_map_fst {seqlenList : List ℕ} {items : List (ℕ × ℕ)}
    (hitems : ∀ item ∈ items, seqlenList[item.1]? = some item.2) :
    gather (items.map Prod.fst) seqlenList = items.map Prod.snd := by
  rw [gather, List.filterMap_map]
  exact List.filterMap_eq_map_iff_forall_eq_some.mpr hitems

/-- The states that the queue is filled with. -/
theorem mapM_init {k : ℕ} {groups : List (List (ℕ × ℕ))} {states : List (State k)}
    (hstates : groups.mapM (fun group => State.init group k) = .ok states) :
    (states.flatMap State.items).Perm groups.flatten ∧
      ∀ bound, (∀ item ∈ groups.flatten, item.2 ≤ bound) →
        ∀ state ∈ states, SpreadLe bound state.sums := by
  induction groups generalizing states with
  | nil =>
      cases hstates
      exact ⟨.refl _, by simp⟩
  | cons group groups ih =>
      rw [List.mapM_cons] at hstates
      obtain ⟨state, hstate, hstates⟩ := bind_eq_ok.mp hstates
      obtain ⟨others, hothers, hstates⟩ := bind_eq_ok.mp hstates
      cases hstates
      obtain ⟨hitems, hspread⟩ := State.init_eq_ok hstate
      obtain ⟨hrest, hrestSpread⟩ := ih hothers
      refine ⟨by simpa using hitems.append hrest, fun bound hbound => ?_⟩
      rw [List.flatten_cons, List.forall_mem_append] at hbound
      rw [List.forall_mem_cons]
      exact ⟨hspread bound hbound.1, hrestSpread bound hbound.2⟩

/-- What the partitions of a list are: as many as asked for, every index in one
of them, and with sums that are at most as far apart as the largest value. -/
structure Balanced (seqlenList : List ℕ) (kPartitions : ℕ) (partitions : List (List ℕ)) :
    Prop where
  length_eq : partitions.length = kPartitions
  perm : partitions.flatten.Perm (List.range seqlenList.length)
  spreadLe : ∀ bound, (∀ seqlen ∈ seqlenList, seqlen ≤ bound) →
    SpreadLe bound (partitions.map fun partition => (gather partition seqlenList).sum)

theorem balanced_getPartitions {seqlenList : List ℕ} {k : ℕ} {state : State k}
    (hitems : state.items.Perm (itemsOf seqlenList))
    (hspread : ∀ bound, (∀ seqlen ∈ seqlenList, seqlen ≤ bound) → SpreadLe bound state.sums) :
    Balanced seqlenList k state.getPartitions where
  length_eq := by rw [State.getPartitions, List.length_map, state.length_eq]
  perm := by
    have hflatten : state.getPartitions.flatten = state.items.map Prod.fst := by
      rw [State.getPartitions, State.items, List.map_flatMap, List.flatMap_def]
    rw [hflatten, ← map_fst_itemsOf]
    exact hitems.map Prod.fst
  spreadLe := by
    intro bound hbound
    have hsums : (state.getPartitions.map fun partition => (gather partition seqlenList).sum) =
        state.sums := by
      rw [State.getPartitions, List.map_map]
      refine List.map_congr_left fun set hset => ?_
      have hvalues : ∀ item ∈ set.items, seqlenList[item.1]? = some item.2 := by
        intro item hitem
        apply mem_itemsOf
        exact hitems.mem_iff.mp (List.mem_flatMap.mpr ⟨set, hset, hitem⟩)
      simp only [Function.comp_apply]
      rw [gather_map_fst hvalues, set.sum_eq]
    rw [hsums]
    exact hspread bound hbound

theorem sortedItems_perm (seqlenList : List ℕ) :
    (sortedItems seqlenList).Perm (itemsOf seqlenList) :=
  List.perm_insertionSort _ _

theorem flatten_initialItems {seqlenList : List ℕ} {kPartitions : ℕ} {equalSize : Bool}
    (hmod : ¬ (equalSize ∧ seqlenList.length % kPartitions ≠ 0)) :
    (initialItems seqlenList kPartitions equalSize).flatten = sortedItems seqlenList := by
  cases equalSize with
  | true =>
      have hzero : seqlenList.length % kPartitions = 0 := by simpa using hmod
      have hlength : (sortedItems seqlenList).length = seqlenList.length := by
        simp [sortedItems, itemsOf]
      apply List.flatten_splitLengths
      rw [List.sum_replicate_nat, hlength, Nat.div_mul_cancel (Nat.dvd_of_mod_eq_zero hzero)]
  | false => simp [initialItems, ← List.flatMap_def]

theorem karmarkarKarp_balanced {seqlenList : List ℕ} {kPartitions : ℕ} {equalSize : Bool}
    {partitions : List (List ℕ)}
    (hok : karmarkarKarp seqlenList kPartitions equalSize = .ok partitions) :
    Balanced seqlenList kPartitions partitions := by
  rw [karmarkarKarp] at hok
  split at hok
  next => contradiction
  next =>
    split at hok
    next => contradiction
    next hmod =>
      obtain ⟨statesPq, hstates, hok⟩ := bind_eq_ok.mp hok
      obtain ⟨hitems, hspread⟩ := mapM_init hstates
      rw [flatten_initialItems hmod] at hitems hspread
      have hperm := hitems.trans (sortedItems_perm seqlenList)
      have hvalue : ∀ bound, (∀ seqlen ∈ seqlenList, seqlen ≤ bound) →
          ∀ item ∈ sortedItems seqlenList, item.2 ≤ bound := by
        intro bound hbound item hitem
        have hget := mem_itemsOf ((sortedItems_perm seqlenList).mem_iff.mp hitem)
        exact hbound item.2 (List.mem_of_getElem? hget)
      cases statesPq with
      | nil => contradiction
      | cons state states =>
          simp only at hok
          split at hok
          next => contradiction
          next =>
            rw [Except.ok.injEq] at hok
            rw [← hok]
            exact balanced_getPartitions ((mergeAll_items state states).trans hperm)
              fun bound hbound => mergeAll_spreadLe (hspread bound (hvalue bound hbound))

/-- The checks of the caller add that no partition is empty. -/
theorem getSeqlenBalancedPartitions_balanced {seqlenList : List ℕ} {kPartitions : ℕ}
    {equalSize : Bool} {partitions : List (List ℕ)}
    (hok : getSeqlenBalancedPartitions seqlenList kPartitions equalSize = .ok partitions) :
    Balanced seqlenList kPartitions partitions ∧ ∀ partition ∈ partitions, partition ≠ [] := by
  rw [getSeqlenBalancedPartitions] at hok
  split at hok
  next => contradiction
  next =>
    obtain ⟨unsorted, hunsorted, hok⟩ := bind_eq_ok.mp hok
    have hbalanced := karmarkarKarp_balanced hunsorted
    split at hok
    next => contradiction
    next =>
      split at hok
      next => contradiction
      next hempty =>
        split at hok
        next => contradiction
        next =>
          rw [Except.ok.injEq] at hok
          subst hok
          have hsort : ∀ partition : List ℕ,
              (partition.insertionSort (· ≤ ·)).Perm partition :=
            fun partition => List.perm_insertionSort _ partition
          refine ⟨⟨?_, ?_, ?_⟩, ?_⟩
          · rw [List.length_map]
            exact hbalanced.length_eq
          · have hflatten : (unsorted.map fun partition =>
                partition.insertionSort (· ≤ ·)).flatten.Perm unsorted.flatten := by
              rw [← List.flatMap_def]
              exact (List.Perm.flatMap_left unsorted fun partition _ => hsort partition).trans
                (.of_eq (by simp))
            exact hflatten.trans hbalanced.perm
          · intro bound hbound
            have hsums : (unsorted.map fun partition => partition.insertionSort (· ≤ ·)).map
                (fun partition => (gather partition seqlenList).sum) =
                  unsorted.map fun partition => (gather partition seqlenList).sum := by
              rw [List.map_map]
              refine List.map_congr_left fun partition _ => ?_
              exact ((hsort partition).filterMap _).sum_eq
            rw [hsums]
            exact hbalanced.spreadLe bound hbound
          · intro partition hpartition
            obtain ⟨source, hsource, rfl⟩ := List.mem_map.mp hpartition
            intro hnil
            have hsource' := hsort source
            rw [hnil, List.nil_perm] at hsource'
            exact hempty (hsource' ▸ hsource)

/-- There is no partition of nothing. -/
theorem ne_nil_of_getSeqlenBalancedPartitions {seqlenList : List ℕ} {kPartitions : ℕ}
    {partitions : List (List ℕ)}
    (hok : getSeqlenBalancedPartitions seqlenList kPartitions false = .ok partitions) :
    seqlenList ≠ [] := by
  rintro rfl
  rw [getSeqlenBalancedPartitions] at hok
  split at hok
  next => contradiction
  next =>
    obtain ⟨unsorted, hunsorted, -⟩ := bind_eq_ok.mp hok
    have herror : karmarkarKarp [] kPartitions false =
        .error "IndexError: list index out of range" := rfl
    rw [herror] at hunsorted
    contradiction

end OneShotOPD.SeqlenBalancing
