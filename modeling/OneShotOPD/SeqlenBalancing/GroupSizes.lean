import OneShotOPD.SeqlenBalancing.GroupPartitions
import OneShotOPD.SeqlenBalancing.Relabel
import Mathlib.Logic.Equiv.Basic

/-!
# Groups of different sizes

Partitions with equally many groups have equally many samples if the groups have the same
size.  Otherwise there are lengths for which they have not: two groups of different sizes
in different partitions are exchanged by exchanging their workloads, and not both results
can have equally many samples everywhere.
-/

namespace OneShotOPD.SeqlenBalancing

open Checks
open scoped List

variable {Uid : Type} [DecidableEq Uid]

/-- Every uid has as many samples. -/
def SameSizeGroups (uidList : List Uid) : Prop :=
  ∀ uid ∈ uidList, ∀ other ∈ uidList, uidList.count uid = uidList.count other

theorem AreRuns.length_group {uidList : List Uid} {groups : List (List ℕ)}
    (hruns : AreRuns uidList groups) (hcontiguous : Contiguous uidList) {group : List ℕ}
    (hgroup : group ∈ groups) {i : ℕ} {uid : Uid} (hi : i ∈ group) (huid : uidList[i]? = some uid) :
    group.length = uidList.count uid := by
  have hcount : uidList.count uid =
      ((List.range uidList.length).filter fun j => uidList[j]? = some uid).length := by
    have hlist : uidList.map some = (List.range uidList.length).map fun j => uidList[j]? := by
      refine List.ext_getElem (by simp) fun j hleft hright => ?_
      simp at hleft
      simp [hleft]
    rw [← List.count_map_of_injective uidList some (Option.some_injective Uid), hlist,
      List.count, List.countP_map, List.countP_eq_length_filter]
    congr 1
    refine List.filter_congr fun j _ => ?_
    rw [Function.comp_apply, Bool.eq_iff_iff]
    simp
  rw [hcount]
  have hnodup : group.Nodup :=
    (List.nodup_flatten.mp (hruns.flatten ▸ List.nodup_range)).1 group hgroup
  refine ((List.perm_ext_iff_of_nodup hnodup (List.nodup_range.filter _)).mpr fun j => ?_).length_eq
  rw [List.mem_filter, List.mem_range, decide_eq_true_iff, ← huid]
  constructor
  · intro hj
    exact ⟨hruns.mem_group_iff.mpr ⟨group, hgroup, hj⟩, hruns.uniform group hgroup j hj i hi⟩
  · rintro ⟨hj, heq⟩
    exact hruns.mem_of_contiguous hcontiguous hgroup hi hj heq

/-- The groups can be given any workloads that single samples have. -/
theorem exists_workloads {uidList : List Uid} {groups : List (List ℕ)}
    (hruns : AreRuns uidList groups) {lengths : List ℕ}
    (hlengths : lengths.length = groups.length) :
    ∃ seqlenList : List ℕ, seqlenList.length = uidList.length ∧
      uidGroupWorkloads seqlenList groups = lengths.map calculateWorkload := by
  have hpieces : ∀ {group : List ℕ} {length : ℕ}, group ∈ groups →
      (length :: List.replicate (group.length - 1) 0).length = group.length := by
    intro group length hgroup
    have hpos := List.length_pos_iff.mpr (hruns.ne_nil group hgroup)
    rw [List.length_cons, List.length_replicate]
    omega
  -- The first sample of each group has the length, and the others have no tokens.
  let pieces := List.zipWith (fun (group : List ℕ) length =>
    length :: List.replicate (group.length - 1) 0) groups lengths
  have hsizes : pieces.map List.length = groups.map List.length := by
    refine List.ext_getElem (by simp [pieces, hlengths]) fun i hleft hright => ?_
    rw [List.getElem_map, List.getElem_map, List.getElem_zipWith]
    exact hpieces (List.getElem_mem _)
  have htotal : pieces.flatten.length = uidList.length := by
    rw [List.length_flatten, hsizes, ← List.length_flatten, hruns.flatten, List.length_range]
  have hgather : groups.map (fun group => gather group pieces.flatten) = pieces := by
    rw [List.eq_iff_flatten_eq]
    constructor
    · rw [← List.flatMap_def, ← gather_flatten, hruns.flatten, ← htotal, gather_range]
    · rw [hsizes, List.map_map]
      refine List.map_congr_left fun group hgroup => length_gather_of_lt fun i hi => ?_
      rw [htotal]
      exact hruns.mem_group_iff.mpr ⟨group, hgroup, hi⟩
  refine ⟨pieces.flatten, htotal, ?_⟩
  refine List.ext_getElem (by simp [uidGroupWorkloads, hlengths]) fun i hleft hright => ?_
  have hi : i < groups.length := by simpa [uidGroupWorkloads] using hleft
  have hpiece : gather groups[i] pieces.flatten =
      lengths[i] :: List.replicate (groups[i].length - 1) 0 := by
    have hget := List.getElem_of_eq hgather (by simpa using hi)
    rwa [List.getElem_map, List.getElem_zipWith] at hget
  simp only [uidGroupWorkloads, List.getElem_map, ← map_gather, hpiece, List.map_cons,
    List.map_replicate, List.sum_cons]
  rw [show calculateWorkload 0 = 0 from rfl, List.sum_replicate_nat, Nat.mul_zero, Nat.add_zero]

def doublingWorkload (i : ℕ) : ℕ := calculateWorkload (2 ^ i)

theorem superincreasing_doublingWorkload : Superincreasing doublingWorkload := by
  intro bound
  induction bound with
  | zero => decide
  | succ bound ih =>
      have hdouble : 2 * doublingWorkload bound ≤ doublingWorkload (bound + 1) := by
        rw [doublingWorkload, doublingWorkload, calculateWorkload, calculateWorkload,
          Nat.pow_succ' (n := bound), Nat.mul_pow]
        omega
      rw [Finset.sum_range_succ]
      omega

/-- Exchanging two workloads renames the items. -/
theorem itemsOf_swap (values : ℕ → ℕ) {count x y : ℕ} (hx : x < count) (hy : y < count) :
    ((itemsOf ((List.range count).map values)).map (relabelItem (Equiv.swap x y))).Perm
      (itemsOf ((List.range count).map fun i => values (Equiv.swap x y i))) := by
  have hitems : ∀ values : ℕ → ℕ, itemsOf ((List.range count).map values) =
      (List.range count).map fun i => (i, values i) := by
    intro values
    refine List.ext_getElem (by simp [itemsOf]) fun i hleft hright => ?_
    simp [itemsOf]
  have hswap : ((List.range count).map (Equiv.swap x y)).Perm (List.range count) := by
    refine (List.perm_ext_iff_of_nodup (List.nodup_range.map (Equiv.injective _))
      List.nodup_range).mpr fun i => ?_
    rw [List.mem_map, List.mem_range]
    have hlt : ∀ {j : ℕ}, j < count → Equiv.swap x y j < count := by
      intro j hj
      by_cases hjx : j = x
      · rwa [hjx, Equiv.swap_apply_left]
      · by_cases hjy : j = y
        · rwa [hjy, Equiv.swap_apply_right]
        · rwa [Equiv.swap_apply_of_ne_of_ne hjx hjy]
    constructor
    · rintro ⟨j, hj, rfl⟩
      exact hlt (List.mem_range.mp hj)
    · intro hi
      exact ⟨Equiv.swap x y i, List.mem_range.mpr (hlt hi), Equiv.swap_apply_self x y i⟩
  rw [hitems, hitems, List.map_map]
  calc (List.range count).map (relabelItem (Equiv.swap x y) ∘ fun i => (i, values i))
      = ((List.range count).map (Equiv.swap x y)).map fun i =>
          (i, values (Equiv.swap x y i)) := by
        rw [List.map_map]
        refine List.map_congr_left fun i _ => ?_
        simp [relabelItem]
    _ ~ (List.range count).map fun i => (i, values (Equiv.swap x y i)) := hswap.map _

/-- Partitions of groups become partitions of samples. -/
theorem getGroupBalancedPartitions_of_groups {seqlenList : List ℕ} {uidList : List Uid} {k : ℕ}
    {groupPartitions : List (List ℕ)} (hlength : seqlenList.length = uidList.length)
    (hk : k ≤ numRuns uidList)
    (hgroups : getSeqlenBalancedPartitions
      (uidGroupWorkloads seqlenList (uidGroups uidList)) k true = .ok groupPartitions) :
    getGroupBalancedPartitions seqlenList uidList k =
      .ok (groupPartitions.map fun groupPartition =>
        (groupPartition.flatMap fun groupIdx =>
          (uidGroups uidList).getD groupIdx []).insertionSort (· ≤ ·)) := by
  rw [← (areRuns_uidGroups uidList).count] at hk
  rw [getGroupBalancedPartitions, if_neg (not_not.mpr hlength)]
  dsimp only
  rw [if_neg (Nat.not_lt.mpr hk), hgroups]
  rfl

theorem length_samples (groups : List (List ℕ)) (groupPartition : List ℕ) :
    ((groupPartition.flatMap fun groupIdx => groups.getD groupIdx []).insertionSort
        (· ≤ ·)).length =
      (groupPartition.map fun groupIdx => (groups.getD groupIdx []).length).sum := by
  rw [List.length_insertionSort, List.length_flatMap]

/-- Groups of one size make partitions with equally many samples. -/
theorem length_of_sameSizeGroups {seqlenList : List ℕ} {uidList : List Uid} {k : ℕ}
    {partitions : List (List ℕ)} (hcontiguous : Contiguous uidList)
    (hsame : SameSizeGroups uidList)
    (hok : getGroupBalancedPartitions seqlenList uidList k = .ok partitions) :
    ∃ size, ∀ partition ∈ partitions, partition.length = size := by
  obtain ⟨groupPartitions, hgroups, rfl⟩ := getGroupBalancedPartitions_eq_ok hok
  obtain ⟨-, hsizes⟩ := equalSizes_of_eq_ok hgroups
  obtain ⟨hbalanced, -⟩ := getSeqlenBalancedPartitions_balanced hgroups
  have hruns := areRuns_uidGroups uidList
  rw [uidGroupWorkloads, List.length_map] at hsizes
  have hperm := hbalanced.perm
  rw [uidGroupWorkloads, List.length_map] at hperm
  obtain ⟨size, hsize⟩ : ∃ size, ∀ group ∈ uidGroups uidList, group.length = size := by
    have hcount : ∀ group ∈ uidGroups uidList, ∃ uid ∈ uidList,
        group.length = uidList.count uid := by
      intro group hgroup
      obtain ⟨i, hi⟩ := List.exists_mem_of_ne_nil group (hruns.ne_nil group hgroup)
      have hlt := hruns.mem_group_iff.mpr ⟨group, hgroup, hi⟩
      exact ⟨uidList[i], List.getElem_mem hlt,
        hruns.length_group hcontiguous hgroup hi (List.getElem?_eq_getElem hlt)⟩
    cases hlist : uidGroups uidList with
    | nil => exact ⟨0, by simp⟩
    | cons first rest =>
        refine ⟨first.length, fun group hgroup => ?_⟩
        obtain ⟨uid, huid, hlength⟩ := hcount group (hlist ▸ hgroup)
        obtain ⟨other, hother, hfirst⟩ := hcount first (by simp [hlist])
        rw [hlength, hfirst]
        exact hsame uid huid other hother
  refine ⟨(uidGroups uidList).length / k * size, fun partition hpartition => ?_⟩
  obtain ⟨groupPartition, hgroupPartition, rfl⟩ := List.mem_map.mp hpartition
  have hmap : (groupPartition.map fun groupIdx => ((uidGroups uidList).getD groupIdx []).length) =
      List.replicate ((uidGroups uidList).length / k) size := by
    rw [List.eq_replicate_iff, List.length_map, hsizes groupPartition hgroupPartition]
    refine ⟨rfl, fun length hlength => ?_⟩
    obtain ⟨groupIdx, hgroupIdx, rfl⟩ := List.mem_map.mp hlength
    have hlt := List.mem_range.mp (hperm.mem_iff.mp
      (List.mem_flatten.mpr ⟨groupPartition, hgroupPartition, hgroupIdx⟩))
    rw [List.getD_eq_getElem _ _ hlt]
    exact hsize _ (List.getElem_mem hlt)
  rw [length_samples, hmap, List.sum_replicate_nat]

/-- Two indices with different sizes are in different partitions, if there are at least
two partitions and not all sizes are equal. -/
theorem exists_apart {size : ℕ → ℕ} {count k : ℕ} {source : List (List ℕ)} (hk : 2 ≤ k)
    (hlength : source.length = k) (hnonempty : ∀ part ∈ source, part ≠ [])
    (hperm : source.flatten.Perm (List.range count)) {a b : ℕ} (ha : a < count) (hb : b < count)
    (hne : size a ≠ size b) :
    ∃ part ∈ source, ∃ x ∈ part, ∃ y < count, y ∉ part ∧ size x ≠ size y := by
  obtain ⟨part, hpart, hin⟩ := List.mem_flatten.mp (hperm.mem_iff.mpr (List.mem_range.mpr ha))
  by_cases hmem : b ∈ part
  · -- Any index of another partition has not both sizes.
    obtain ⟨before, after, hsplit⟩ := List.append_of_mem hpart
    obtain ⟨other, hother⟩ : ∃ other, other ∈ before ++ after := by
      refine List.exists_mem_of_ne_nil _ fun hnil => ?_
      have hlengths := congrArg List.length hnil
      rw [hsplit] at hlength
      simp only [List.length_append, List.length_cons, List.length_nil] at hlength hlengths
      omega
    have hotherMem : other ∈ source := by
      rw [hsplit, List.mem_append, List.mem_cons]
      rcases List.mem_append.mp hother with hother | hother
      · exact .inl hother
      · exact .inr (.inr hother)
    obtain ⟨c, hc⟩ := List.exists_mem_of_ne_nil other (hnonempty other hotherMem)
    have hcount : c < count :=
      List.mem_range.mp (hperm.mem_iff.mp (List.mem_flatten.mpr ⟨other, hotherMem, hc⟩))
    have hout : c ∉ part := by
      have hnodup := (hsplit ▸ hperm.nodup_iff.mpr List.nodup_range :
        (before ++ part :: after).flatten.Nodup)
      have hmoved : (part ++ (before ++ after).flatten).Nodup := by
        refine List.Perm.nodup_iff ?_ |>.mp hnodup
        simp only [List.flatten_append, List.flatten_cons, ← List.append_assoc]
        exact List.perm_append_comm.append_right _
      intro hcpart
      exact List.disjoint_of_nodup_append hmoved hcpart
        (List.mem_flatten.mpr ⟨other, hother, hc⟩)
    by_cases hac : size a = size c
    · exact ⟨part, hpart, b, hmem, c, hcount, hout, fun heq => hne (hac.trans heq.symm)⟩
    · exact ⟨part, hpart, a, hin, c, hcount, hout, hac⟩
  · exact ⟨part, hpart, a, hin, b, hb, hmem, hne⟩

/-- Exchanging an index of a part with one outside exchanges their sizes. -/
theorem sum_map_swap (size : ℕ → ℕ) {part : List ℕ} (hnodup : part.Nodup) {x y : ℕ}
    (hx : x ∈ part) (hy : y ∉ part) :
    ((part.map (Equiv.swap x y)).map size).sum + size x = (part.map size).sum + size y := by
  have hperm := List.perm_cons_erase hx
  have hrest : ((part.erase x).map (Equiv.swap x y)).map size = (part.erase x).map size := by
    rw [List.map_map]
    refine List.map_congr_left fun i hi => ?_
    have hix : i ≠ x := fun heq => hnodup.not_mem_erase (heq ▸ hi)
    have hiy : i ≠ y := fun heq => hy (heq ▸ List.mem_of_mem_erase hi)
    rw [Function.comp_apply, Equiv.swap_apply_of_ne_of_ne hix hiy]
  rw [((hperm.map (Equiv.swap x y)).map size).sum_eq, (hperm.map size).sum_eq, List.map_cons,
    List.map_cons, List.map_cons, List.sum_cons, List.sum_cons, hrest, Equiv.swap_apply_left]
  omega

/-- Groups of different sizes have lengths for which the partitions do not have equally
many samples. -/
theorem exists_unequal_partition {uidList : List Uid} {k : ℕ} (hk : 2 ≤ k)
    (hdvd : k ∣ numRuns uidList) {group other : List ℕ} (hgroup : group ∈ uidGroups uidList)
    (hother : other ∈ uidGroups uidList) (hne : group.length ≠ other.length) (size : ℕ) :
    ∃ seqlenList partitions, seqlenList.length = uidList.length ∧
      getGroupBalancedPartitions seqlenList uidList k = .ok partitions ∧
        ∃ partition ∈ partitions, partition.length ≠ size := by
  have hruns := areRuns_uidGroups uidList
  have hcount := hruns.count
  have hpos : 0 < numRuns uidList := hcount ▸ List.length_pos_of_mem hgroup
  have hle := Nat.le_of_dvd hpos hdvd
  obtain ⟨a, ha, rfl⟩ := List.mem_iff_getElem.mp hgroup
  obtain ⟨b, hb, rfl⟩ := List.mem_iff_getElem.mp hother
  -- The lengths by which the groups have the given exponents.
  have hlengths : ∀ exponent : ℕ → ℕ, ∃ seqlenList, seqlenList.length = uidList.length ∧
      uidGroupWorkloads seqlenList (uidGroups uidList) =
        (List.range (numRuns uidList)).map fun i => doublingWorkload (exponent i) := by
    intro exponent
    obtain ⟨seqlenList, hlength, hworkloads⟩ := exists_workloads hruns
      (show ((List.range (numRuns uidList)).map fun i => 2 ^ exponent i).length = _ by
        rw [List.length_map, List.length_range, hcount])
    refine ⟨seqlenList, hlength, ?_⟩
    rw [hworkloads, List.map_map]
    rfl
  by_contra hnone
  push Not at hnone
  have hsize : ∀ {exponent : ℕ → ℕ} {groupPartitions : List (List ℕ)},
      getSeqlenBalancedPartitions ((List.range (numRuns uidList)).map fun i =>
        doublingWorkload (exponent i)) k true = .ok groupPartitions →
          ∀ part ∈ groupPartitions, (part.map fun groupIdx =>
            ((uidGroups uidList).getD groupIdx []).length).sum = size := by
    intro exponent groupPartitions hok part hpart
    obtain ⟨seqlenList, hlength, hworkloads⟩ := hlengths exponent
    rw [← hworkloads] at hok
    rw [← length_samples]
    exact hnone seqlenList _ hlength (getGroupBalancedPartitions_of_groups hlength hle hok) _
      (List.mem_map_of_mem hpart)
  have hdoubling : ((List.range (numRuns uidList)).map doublingWorkload).length =
      numRuns uidList := by simp
  obtain ⟨groupPartitions, hok, -⟩ := @getSeqlenBalancedPartitions_isOk
    ((List.range (numRuns uidList)).map doublingWorkload) k true (by omega)
    (hdoubling.symm ▸ hle) fun _ => hdoubling.symm ▸ hdvd
  obtain ⟨hbalanced, hnonempty⟩ := getSeqlenBalancedPartitions_balanced hok
  have hperm := hbalanced.perm
  rw [hdoubling] at hperm
  obtain ⟨part, hpart, x, hx, y, hycount, hy, hxy⟩ := @exists_apart
    (fun groupIdx => ((uidGroups uidList).getD groupIdx []).length) _ k groupPartitions hk
    hbalanced.length_eq hnonempty hperm a b (hcount ▸ ha) (hcount ▸ hb)
    (by simpa [ha, hb] using hne)
  have hxcount := List.mem_range.mp (hperm.mem_iff.mp (List.mem_flatten.mpr ⟨part, hpart, hx⟩))
  obtain ⟨source, hsource, hswapped⟩ := partitions_relabel (Equiv.swap x y)
    superincreasing_doublingWorkload (by omega : 0 < k) hpos hdvd
    (itemsOf_swap doublingWorkload hxcount hycount)
  rw [hok, Except.ok.injEq] at hsource
  subst hsource
  obtain ⟨unsorted, hunsorted, rfl⟩ := List.mem_map.mp hpart
  have hsorted := List.perm_insertionSort (· ≤ ·) unsorted
  rw [hsorted.mem_iff] at hx hy
  have hnodup : unsorted.Nodup := by
    rw [← hsorted.nodup_iff]
    exact (List.nodup_flatten.mp (hperm.nodup_iff.mpr List.nodup_range)).1 _ hpart
  have hfirst := @hsize id _ hok _ hpart
  have hsecond := @hsize (Equiv.swap x y) _ hswapped _ (List.mem_map_of_mem hunsorted)
  rw [(hsorted.map _).sum_eq] at hfirst
  rw [((List.perm_insertionSort _ _).map _).sum_eq] at hsecond
  have hexchange := sum_map_swap
    (fun groupIdx => ((uidGroups uidList).getD groupIdx []).length) hnodup hx hy
  omega

end OneShotOPD.SeqlenBalancing
