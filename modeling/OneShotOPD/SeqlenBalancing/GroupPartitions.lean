import OneShotOPD.SeqlenBalancing.Partitioner
import OneShotOPD.SeqlenBalancing.Rearrange
import Mathlib.Data.List.GetD

/-!
# Partitions that keep groups together

The samples are scanned for runs of one uid, and whole runs are spread over the
partitions.  A uid whose samples are not contiguous has several runs, and the runs of
such a uid can be spread over several partitions.
-/

namespace OneShotOPD.SeqlenBalancing

open Checks
open scoped List

variable {Uid : Type} [DecidableEq Uid]

/-- The scan: the runs that have ended, and the current one. -/
structure UidScan (Uid : Type) where
  groups : List (List ℕ)
  currentUid : Option Uid
  currentIndices : List ℕ

namespace UidScan

def step (scan : UidScan Uid) (entry : Uid × ℕ) : UidScan Uid :=
  if scan.currentUid ≠ some entry.1 then
    { groups := if scan.currentIndices = [] then scan.groups
        else scan.groups ++ [scan.currentIndices]
      currentUid := some entry.1
      currentIndices := [entry.2] }
  else { scan with currentIndices := scan.currentIndices ++ [entry.2] }

def ofList (uidList : List Uid) : UidScan Uid :=
  uidList.zipIdx.foldl step ⟨[], none, []⟩

/-- With the last run. -/
def allGroups (scan : UidScan Uid) : List (List ℕ) :=
  if scan.currentIndices = [] then scan.groups else scan.groups ++ [scan.currentIndices]

end UidScan

/-- The runs of one uid, as indices of samples. -/
def uidGroups (uidList : List Uid) : List (List ℕ) := (UidScan.ofList uidList).allGroups

/-- The workload of each group. -/
def uidGroupWorkloads (seqlenList : List ℕ) (groups : List (List ℕ)) : List ℕ :=
  groups.map fun indices => (gather indices (seqlenList.map calculateWorkload)).sum

/-- `get_group_balanced_partitions`. -/
def getGroupBalancedPartitions (seqlenList : List ℕ) (uidList : List Uid) (kPartitions : ℕ) :
    Except String (List (List ℕ)) :=
  if seqlenList.length ≠ uidList.length then
    .error "AssertionError: seqlen_list and uid_list must have same length"
  else
    let groups := uidGroups uidList
    if groups.length < kPartitions then
      .error "AssertionError: Number of uid groups must be >= k_partitions"
    else do
      let groupPartitions ←
        getSeqlenBalancedPartitions (uidGroupWorkloads seqlenList groups) kPartitions true
      return groupPartitions.map fun groupPartition =>
        (groupPartition.flatMap fun groupIdx => groups.getD groupIdx []).insertionSort (· ≤ ·)

/-! ## The runs -/

/-- The samples of each uid are contiguous. -/
def Contiguous (uidList : List Uid) : Prop :=
  ∀ first middle last, first < middle → middle < last → last < uidList.length →
    uidList[first]? = uidList[last]? → uidList[middle]? = uidList[first]?

/-- The number of runs of equal uids. -/
def numRuns (uidList : List Uid) : ℕ :=
  (List.range uidList.length).countP fun i => i = 0 ∨ uidList[i]? ≠ uidList[i - 1]?

/-- What the scan has found in the uids so far. -/
structure Scanned (uidList : List Uid) (scan : UidScan Uid) : Prop where
  currentUid : scan.currentUid = uidList.getLast?
  current : uidList ≠ [] → uidList.length - 1 ∈ scan.currentIndices
  flatten : scan.groups.flatten ++ scan.currentIndices = List.range uidList.length
  ne_nil : ∀ group ∈ scan.groups, group ≠ []
  uniform : ∀ group ∈ scan.groups ++ [scan.currentIndices], ∀ i ∈ group, ∀ j ∈ group,
    uidList[i]? = uidList[j]?
  closed : ∀ group ∈ scan.groups ++ [scan.currentIndices], ∀ i ∈ group,
    i + 1 < uidList.length → uidList[i + 1]? = uidList[i]? → i + 1 ∈ group
  count : scan.allGroups.length = numRuns uidList

theorem UidScan.ofList_concat (uidList : List Uid) (uid : Uid) :
    UidScan.ofList (uidList ++ [uid]) = (UidScan.ofList uidList).step (uid, uidList.length) := by
  rw [ofList, List.zipIdx_append, List.foldl_append]
  simp [ofList]

theorem numRuns_concat (uidList : List Uid) (uid : Uid) :
    numRuns (uidList ++ [uid]) =
      numRuns uidList + if uidList.getLast? = some uid then 0 else 1 := by
  have hold : (List.range uidList.length).countP (fun i =>
      decide (i = 0 ∨ (uidList ++ [uid])[i]? ≠ (uidList ++ [uid])[i - 1]?)) =
        numRuns uidList := by
    refine List.countP_congr fun i hi => ?_
    have hlt := List.mem_range.mp hi
    rw [List.getElem?_append_left hlt, List.getElem?_append_left (by omega)]
  rw [numRuns, List.length_append, List.length_singleton, List.range_succ, List.countP_append,
    hold, List.countP_singleton]
  cases uidList using List.reverseRecOn with
  | nil => simp
  | append_singleton uidList last =>
      have hlast : (uidList ++ [last] ++ [uid])[(uidList ++ [last]).length - 1]? =
          some last := by
        rw [List.getElem?_append_left (by simp), List.length_append, List.length_singleton,
          Nat.add_sub_cancel, List.getElem?_concat_length]
      rw [List.getElem?_concat_length, hlast, List.getLast?_concat]
      by_cases hlastUid : last = uid
      · simp [hlastUid]
      · simp [hlastUid, Ne.symm hlastUid]

namespace Scanned

variable {uidList : List Uid} {scan : UidScan Uid}

omit [DecidableEq Uid] in
theorem lt_length (hflatten : scan.groups.flatten ++ scan.currentIndices =
    List.range uidList.length) {group : List ℕ}
    (hgroup : group ∈ scan.groups ++ [scan.currentIndices]) {i : ℕ} (hi : i ∈ group) :
    i < uidList.length := by
  rw [← List.mem_range, ← hflatten]
  rcases List.mem_append.mp hgroup with hgroup | hgroup
  · exact List.mem_append_left _ (List.mem_flatten.mpr ⟨group, hgroup, hi⟩)
  · exact List.mem_append_right _ (List.mem_singleton.mp hgroup ▸ hi)

/-- A sample with another uid starts a run. -/
theorem step_of_ne (hscanned : Scanned uidList scan) {uid : Uid}
    (hne : scan.currentUid ≠ some uid) :
    Scanned (uidList ++ [uid]) (scan.step (uid, uidList.length)) := by
  have hlt := fun {group} hgroup {i} => @lt_length _ _ _ hscanned.flatten group hgroup i
  have hgroups : ∀ group ∈ (scan.step (uid, uidList.length)).groups,
      group ∈ scan.groups ++ [scan.currentIndices] := by
    intro group hgroup
    rw [UidScan.step, if_pos hne] at hgroup
    dsimp only at hgroup
    split at hgroup
    next => exact List.mem_append_left _ hgroup
    next => exact hgroup
  have hcurrent : (scan.step (uid, uidList.length)).currentIndices = [uidList.length] := by
    rw [UidScan.step, if_pos hne]
  constructor
  case currentUid =>
    rw [UidScan.step, if_pos hne, List.getLast?_concat]
  case current =>
    rw [hcurrent, List.length_append]
    simp
  case flatten =>
    rw [List.length_append, List.length_singleton, List.range_succ, ← hscanned.flatten,
      UidScan.step, if_pos hne]
    dsimp only
    split
    next hnil => rw [hnil, List.append_nil]
    next => simp
  case ne_nil =>
    intro group hgroup
    rw [UidScan.step, if_pos hne] at hgroup
    dsimp only at hgroup
    split at hgroup
    next => exact hscanned.ne_nil group hgroup
    next hnil =>
      rcases List.mem_append.mp hgroup with hgroup | hgroup
      · exact hscanned.ne_nil group hgroup
      · rwa [List.mem_singleton.mp hgroup]
  case uniform =>
    intro group hgroup i hi j hj
    rw [hcurrent] at hgroup
    rcases List.mem_append.mp hgroup with hgroup | hgroup
    · have hmem := hgroups group hgroup
      rw [List.getElem?_append_left (hlt hmem hi), List.getElem?_append_left (hlt hmem hj)]
      exact hscanned.uniform group hmem i hi j hj
    · rw [List.mem_singleton.mp hgroup, List.mem_singleton] at hi hj
      rw [hi, hj]
  case closed =>
    intro group hgroup i hi hnext hequal
    rw [hcurrent] at hgroup
    rw [List.length_append, List.length_singleton] at hnext
    rcases List.mem_append.mp hgroup with hgroup | hgroup
    · have hmem := hgroups group hgroup
      have hilt := hlt hmem hi
      rw [List.getElem?_append_left hilt] at hequal
      rcases Nat.lt_or_ge (i + 1) uidList.length with hbefore | hlast
      · rw [List.getElem?_append_left hbefore] at hequal
        exact hscanned.closed group hmem i hi hbefore hequal
      · -- The last sample of a run that ends has another uid than the next sample.
        obtain rfl : i = uidList.length - 1 := by omega
        rw [show uidList.length - 1 + 1 = uidList.length by omega, List.getElem?_concat_length,
          ← List.getLast?_eq_getElem?, ← hscanned.currentUid] at hequal
        exact absurd hequal.symm hne
    · rw [List.mem_singleton.mp hgroup, List.mem_singleton] at hi
      omega
  case count =>
    rw [numRuns_concat, ← hscanned.count, ← hscanned.currentUid, if_neg hne, UidScan.step,
      if_pos hne, UidScan.allGroups, UidScan.allGroups, if_neg (by simp)]
    simp

/-- A sample with the same uid goes on with the run. -/
theorem step_of_eq (hscanned : Scanned uidList scan) {uid : Uid}
    (heq : scan.currentUid = some uid) :
    Scanned (uidList ++ [uid]) (scan.step (uid, uidList.length)) := by
  have hlt := fun {group} hgroup {i} => @lt_length _ _ _ hscanned.flatten group hgroup i
  have hstep : scan.step (uid, uidList.length) =
      { scan with currentIndices := scan.currentIndices ++ [uidList.length] } := by
    rw [UidScan.step, if_neg (not_not.mpr heq)]
  have hlast : uidList[uidList.length - 1]? = some uid := by
    rw [← List.getLast?_eq_getElem?, ← hscanned.currentUid, heq]
  have hne : uidList ≠ [] := by
    rintro rfl
    simp at hlast
  have hmem := hscanned.current hne
  have hpos := List.length_pos_iff.mpr hne
  have hself : scan.currentIndices ∈ scan.groups ++ [scan.currentIndices] := by simp
  rw [hstep]
  constructor
  case currentUid => rw [heq, List.getLast?_concat]
  case current => simp
  case flatten =>
    rw [List.length_append, List.length_singleton, List.range_succ, ← hscanned.flatten,
      List.append_assoc]
  case ne_nil => exact hscanned.ne_nil
  case uniform =>
    have huid : ∀ i ∈ scan.currentIndices ++ [uidList.length],
        (uidList ++ [uid])[i]? = some uid := by
      intro i hi
      rcases List.mem_append.mp hi with hi | hi
      · rw [List.getElem?_append_left (hlt hself hi),
          hscanned.uniform _ hself i hi _ hmem, hlast]
      · rw [List.mem_singleton.mp hi, List.getElem?_concat_length]
    intro group hgroup i hi j hj
    rcases List.mem_append.mp hgroup with hgroup | hgroup
    · have hgroup := List.mem_append_left [scan.currentIndices] hgroup
      rw [List.getElem?_append_left (hlt hgroup hi), List.getElem?_append_left (hlt hgroup hj)]
      exact hscanned.uniform group hgroup i hi j hj
    · rw [List.mem_singleton.mp hgroup] at hi hj
      rw [huid i hi, huid j hj]
  case closed =>
    intro group hgroup i hi hnext hequal
    rw [List.length_append, List.length_singleton] at hnext
    rcases List.mem_append.mp hgroup with hgroup | hgroup
    · have hin := List.mem_append_left [scan.currentIndices] hgroup
      have hilt := hlt hin hi
      rcases Nat.lt_or_ge (i + 1) uidList.length with hbefore | hend
      · rw [List.getElem?_append_left hilt, List.getElem?_append_left hbefore] at hequal
        exact hscanned.closed group hin i hi hbefore hequal
      · -- The last sample is in the current run only.
        obtain rfl : i = uidList.length - 1 := by omega
        have hnodup : (scan.groups.flatten ++ scan.currentIndices).Nodup :=
          hscanned.flatten ▸ List.nodup_range
        exact absurd hmem (List.disjoint_of_nodup_append hnodup
          (List.mem_flatten.mpr ⟨group, hgroup, hi⟩))
    · obtain rfl := List.mem_singleton.mp hgroup
      rcases List.mem_append.mp hi with hi | hi
      · have hilt := hlt hself hi
        rcases Nat.lt_or_ge (i + 1) uidList.length with hbefore | hend
        · rw [List.getElem?_append_left hilt, List.getElem?_append_left hbefore] at hequal
          exact List.mem_append_left _ (hscanned.closed _ hself i hi hbefore hequal)
        · exact List.mem_append_right _ (List.mem_singleton.mpr (by omega))
      · rw [List.mem_singleton.mp hi] at hnext
        omega
  case count =>
    rw [numRuns_concat, ← hscanned.count, ← hscanned.currentUid, if_pos heq,
      UidScan.allGroups, UidScan.allGroups, if_neg (by simp),
      if_neg (List.ne_nil_of_mem hmem)]
    simp

end Scanned

theorem scanned_ofList (uidList : List Uid) : Scanned uidList (UidScan.ofList uidList) := by
  induction uidList using List.reverseRecOn with
  | nil =>
      exact ⟨rfl, fun hne => absurd rfl hne, rfl, by simp [UidScan.ofList],
        by simp [UidScan.ofList], by simp [UidScan.ofList], rfl⟩
  | append_singleton uidList uid ih =>
      rw [UidScan.ofList_concat]
      by_cases heq : (UidScan.ofList uidList).currentUid = some uid
      · exact ih.step_of_eq heq
      · exact ih.step_of_ne heq

/-- The groups of a list of uids: all samples in order, cut where the uid changes. -/
structure AreRuns (uidList : List Uid) (groups : List (List ℕ)) : Prop where
  flatten : groups.flatten = List.range uidList.length
  ne_nil : ∀ group ∈ groups, group ≠ []
  uniform : ∀ group ∈ groups, ∀ i ∈ group, ∀ j ∈ group, uidList[i]? = uidList[j]?
  closed : ∀ group ∈ groups, ∀ i ∈ group, i + 1 < uidList.length →
    uidList[i + 1]? = uidList[i]? → i + 1 ∈ group
  count : groups.length = numRuns uidList

theorem areRuns_uidGroups (uidList : List Uid) : AreRuns uidList (uidGroups uidList) := by
  have hscanned := scanned_ofList uidList
  rw [uidGroups]
  generalize UidScan.ofList uidList = scan at hscanned ⊢
  have hmem : ∀ group ∈ scan.allGroups, group ∈ scan.groups ++ [scan.currentIndices] := by
    intro group hgroup
    rw [UidScan.allGroups] at hgroup
    split at hgroup
    next => exact List.mem_append_left _ hgroup
    next => exact hgroup
  refine ⟨?_, ?_, fun group hgroup => hscanned.uniform group (hmem group hgroup),
    fun group hgroup => hscanned.closed group (hmem group hgroup), hscanned.count⟩
  · rw [← hscanned.flatten, UidScan.allGroups]
    split
    next hnil => rw [hnil, List.append_nil]
    next => simp
  · intro group hgroup
    rw [UidScan.allGroups] at hgroup
    split at hgroup
    next => exact hscanned.ne_nil group hgroup
    next hne =>
      rcases List.mem_append.mp hgroup with hgroup | hgroup
      · exact hscanned.ne_nil group hgroup
      · rwa [List.mem_singleton.mp hgroup]

namespace AreRuns

variable {uidList : List Uid} {groups : List (List ℕ)}

theorem mem_group_iff (hruns : AreRuns uidList groups) {i : ℕ} :
    i < uidList.length ↔ ∃ group ∈ groups, i ∈ group := by
  rw [← List.mem_range, ← hruns.flatten, List.mem_flatten]

/-- A sample is in one place of the groups. -/
theorem index_unique (hruns : AreRuns uidList groups) {i a b : ℕ}
    (ha : i ∈ groups.getD a []) (hb : i ∈ groups.getD b []) : a = b := by
  have hnodup : groups.flatten.Nodup := hruns.flatten ▸ List.nodup_range
  have hdisjoint := (List.nodup_flatten.mp hnodup).2
  have hlt : ∀ {c : ℕ}, i ∈ groups.getD c [] → c < groups.length := by
    intro c hc
    by_contra hge
    rw [List.getD_eq_default _ _ (by omega)] at hc
    exact absurd hc List.not_mem_nil
  have hne : ∀ {c d : ℕ}, i ∈ groups.getD c [] → i ∈ groups.getD d [] → ¬ c < d := by
    intro c d hc hd hcd
    have hclt := hlt hc
    have hdlt := hlt hd
    rw [List.getD_eq_getElem _ _ hclt] at hc
    rw [List.getD_eq_getElem _ _ hdlt] at hd
    exact List.pairwise_iff_getElem.mp hdisjoint c d hclt hdlt hcd hc hd
  have h1 := hne ha hb
  have h2 := hne hb ha
  omega

theorem group_unique (hruns : AreRuns uidList groups) {i : ℕ} {group other : List ℕ}
    (hgroup : group ∈ groups) (hother : other ∈ groups) (hi : i ∈ group) (hi' : i ∈ other) :
    group = other := by
  obtain ⟨a, ha, rfl⟩ := List.mem_iff_getElem.mp hgroup
  obtain ⟨b, hb, rfl⟩ := List.mem_iff_getElem.mp hother
  rw [← List.getD_eq_getElem groups [] ha] at hi
  rw [← List.getD_eq_getElem groups [] hb] at hi'
  obtain rfl := hruns.index_unique hi hi'
  rfl

/-- A group that holds two samples holds all between them. -/
theorem convex (hruns : AreRuns uidList groups) {group : List ℕ} (hgroup : group ∈ groups)
    {first middle last : ℕ} (hfirst : first ∈ group) (hlast : last ∈ group)
    (hbefore : first < middle) (hbehind : middle < last) : middle ∈ group := by
  obtain ⟨front, back, rfl⟩ := List.append_of_mem hgroup
  have hflatten := hruns.flatten
  rw [List.flatten_append, List.flatten_cons] at hflatten
  have hsorted : (front.flatten ++ (group ++ back.flatten)).Pairwise (· < ·) :=
    hflatten ▸ List.pairwise_lt_range
  rw [List.pairwise_append, List.pairwise_append] at hsorted
  obtain ⟨-, ⟨-, -, hback⟩, hfront⟩ := hsorted
  have hrange : middle ∈ front.flatten ++ (group ++ back.flatten) := by
    rw [hflatten, List.mem_range]
    have hlastRange : last ∈ List.range uidList.length := by
      rw [← hflatten]
      simp [hlast]
    have := List.mem_range.mp hlastRange
    omega
  rcases List.mem_append.mp hrange with hmem | hmem
  · have := hfront middle hmem first (List.mem_append_left _ hfirst)
    omega
  · rcases List.mem_append.mp hmem with hmem | hmem
    · exact hmem
    · have := hback last hlast middle hmem
      omega

/-- Contiguous samples of one uid are in one group. -/
theorem mem_of_contiguous (hruns : AreRuns uidList groups) (hcontiguous : Contiguous uidList)
    {group : List ℕ} (hgroup : group ∈ groups) {i j : ℕ} (hi : i ∈ group)
    (hj : j < uidList.length) (heq : uidList[j]? = uidList[i]?) : j ∈ group := by
  have hforward : ∀ {group : List ℕ} {i j : ℕ}, group ∈ groups → i ∈ group → i ≤ j →
      j < uidList.length → uidList[j]? = uidList[i]? → j ∈ group := by
    intro group i j hgroup hi hle hj heq
    have hall : ∀ step, i + step ≤ j → i + step ∈ group := by
      intro step
      induction step with
      | zero => exact fun _ => hi
      | succ step ih =>
          intro hstep
          have hsame : ∀ middle, i ≤ middle → middle ≤ j → uidList[middle]? = uidList[i]? := by
            intro middle hlow hhigh
            rcases Nat.eq_or_lt_of_le hlow with rfl | hlow
            · rfl
            · rcases Nat.eq_or_lt_of_le hhigh with rfl | hhigh
              · exact heq
              · exact hcontiguous i middle j hlow hhigh hj heq.symm
          have hprevious := ih (by omega)
          refine hruns.closed group hgroup (i + step) hprevious (by omega) ?_
          rw [hsame (i + step + 1) (by omega) (by omega),
            hsame (i + step) (by omega) (by omega)]
    have hend := hall (j - i) (by omega)
    rwa [Nat.add_sub_cancel' hle] at hend
  rcases Nat.le_total i j with hle | hle
  · exact hforward hgroup hi hle hj heq
  · obtain ⟨other, hother, hmem⟩ := hruns.mem_group_iff.mp hj
    have hback := hforward hother hmem hle
      (hruns.mem_group_iff.mpr ⟨group, hgroup, hi⟩) heq.symm
    rwa [hruns.group_unique hgroup hother hi hback]

end AreRuns

/-! ## The partitions -/

/-- What the documentation promises: every sample in one partition, once, together with
all samples of its uid. -/
def KeepsGroups (seqlenList : List ℕ) (uidList : List Uid) (kPartitions : ℕ) : Prop :=
  ∀ partitions, getGroupBalancedPartitions seqlenList uidList kPartitions = .ok partitions →
    partitions.length = kPartitions ∧
      partitions.flatten.Perm (List.range uidList.length) ∧
      ∀ partition ∈ partitions, ∀ i ∈ partition, ∀ j < uidList.length,
        uidList[j]? = uidList[i]? → j ∈ partition

theorem equalSize_of_eq_ok {seqlenList : List ℕ} {kPartitions : ℕ}
    {partitions : List (List ℕ)}
    (hok : getSeqlenBalancedPartitions seqlenList kPartitions true = .ok partitions) :
    0 < kPartitions ∧ kPartitions ∣ seqlenList.length := by
  rw [getSeqlenBalancedPartitions] at hok
  split at hok
  next => contradiction
  next =>
    obtain ⟨unsorted, hunsorted, -⟩ := bind_eq_ok.mp hok
    rw [karmarkarKarp] at hunsorted
    split at hunsorted
    next => contradiction
    next hzero =>
      split at hunsorted
      next => contradiction
      next hmod =>
        exact ⟨Nat.pos_of_ne_zero fun heq => hzero ⟨rfl, heq⟩,
          Nat.dvd_of_mod_eq_zero (by simpa using hmod)⟩

theorem equalSizes_of_eq_ok {seqlenList : List ℕ} {kPartitions : ℕ}
    {partitions : List (List ℕ)}
    (hok : getSeqlenBalancedPartitions seqlenList kPartitions true = .ok partitions) :
    kPartitions ≤ seqlenList.length ∧
      ∀ partition ∈ partitions, partition.length = seqlenList.length / kPartitions := by
  obtain ⟨hpos, hdvd⟩ := equalSize_of_eq_ok hok
  have hle : kPartitions ≤ seqlenList.length := by
    rw [getSeqlenBalancedPartitions] at hok
    split at hok
    next => contradiction
    next hlength => exact Nat.not_lt.mp hlength
  obtain ⟨others, hothers, hsizes⟩ := getSeqlenBalancedPartitions_isOk hpos hle
    fun _ : true = true => hdvd
  rw [hok, Except.ok.injEq] at hothers
  exact ⟨hle, hothers ▸ hsizes rfl⟩

/-- The partitions are the samples of partitions of the groups. -/
theorem getGroupBalancedPartitions_eq_ok {seqlenList : List ℕ} {uidList : List Uid}
    {kPartitions : ℕ} {partitions : List (List ℕ)}
    (hok : getGroupBalancedPartitions seqlenList uidList kPartitions = .ok partitions) :
    ∃ groupPartitions, getSeqlenBalancedPartitions
        (uidGroupWorkloads seqlenList (uidGroups uidList)) kPartitions true =
          .ok groupPartitions ∧
      partitions = groupPartitions.map fun groupPartition =>
        (groupPartition.flatMap fun groupIdx =>
          (uidGroups uidList).getD groupIdx []).insertionSort (· ≤ ·) := by
  rw [getGroupBalancedPartitions] at hok
  split at hok
  next => contradiction
  next =>
    dsimp only at hok
    split at hok
    next => contradiction
    next =>
      obtain ⟨groupPartitions, hgroups, hok⟩ := bind_eq_ok.mp hok
      exact ⟨groupPartitions, hgroups, (Except.ok.inj hok).symm⟩

theorem mem_sorted_samples {groups : List (List ℕ)} {groupPartition : List ℕ} {i : ℕ} :
    i ∈ (groupPartition.flatMap fun groupIdx => groups.getD groupIdx []).insertionSort
        (· ≤ ·) ↔ ∃ groupIdx ∈ groupPartition, i ∈ groups.getD groupIdx [] := by
  rw [(List.perm_insertionSort _ _).mem_iff, List.mem_flatMap]

/-- The partitions hold every sample once. -/
theorem groupPartitions_perm {seqlenList : List ℕ} {uidList : List Uid} {kPartitions : ℕ}
    {partitions : List (List ℕ)}
    (hok : getGroupBalancedPartitions seqlenList uidList kPartitions = .ok partitions) :
    partitions.length = kPartitions ∧
      partitions.flatten.Perm (List.range uidList.length) := by
  obtain ⟨groupPartitions, hgroups, rfl⟩ := getGroupBalancedPartitions_eq_ok hok
  obtain ⟨hbalanced, -⟩ := getSeqlenBalancedPartitions_balanced hgroups
  have hperm := hbalanced.perm
  rw [uidGroupWorkloads, List.length_map] at hperm
  refine ⟨by rw [List.length_map, hbalanced.length_eq], ?_⟩
  have hruns := areRuns_uidGroups uidList
  generalize uidGroups uidList = groups at hperm hruns ⊢
  have hall : (List.range groups.length).flatMap (fun groupIdx => groups.getD groupIdx []) =
      groups.flatten := by
    rw [List.flatMap_def]
    congr 1
    refine List.ext_getElem (by simp) fun i hleft hright => ?_
    simp [hright]
  calc (groupPartitions.map fun groupPartition =>
        (groupPartition.flatMap fun groupIdx => groups.getD groupIdx []).insertionSort
          (· ≤ ·)).flatten
      = groupPartitions.flatMap fun groupPartition =>
        (groupPartition.flatMap fun groupIdx => groups.getD groupIdx []).insertionSort
          (· ≤ ·) := List.flatMap_def.symm
    _ ~ groupPartitions.flatMap fun groupPartition =>
        groupPartition.flatMap fun groupIdx => groups.getD groupIdx [] :=
        List.Perm.flatMap_left _ fun groupPartition _ => List.perm_insertionSort _ _
    _ = groupPartitions.flatten.flatMap fun groupIdx => groups.getD groupIdx [] := by
        rw [List.flatten_eq_flatMap, List.flatMap_assoc]
        rfl
    _ ~ (List.range groups.length).flatMap fun groupIdx => groups.getD groupIdx [] :=
        hperm.flatMap_right _
    _ = List.range uidList.length := by rw [hall, hruns.flatten]

theorem keepsGroups_of_contiguous {uidList : List Uid} (hcontiguous : Contiguous uidList)
    (seqlenList : List ℕ) (kPartitions : ℕ) : KeepsGroups seqlenList uidList kPartitions := by
  intro partitions hok
  obtain ⟨hlength, hperm⟩ := groupPartitions_perm hok
  refine ⟨hlength, hperm, fun partition hpartition i hi j hj heq => ?_⟩
  obtain ⟨groupPartitions, -, rfl⟩ := getGroupBalancedPartitions_eq_ok hok
  obtain ⟨groupPartition, -, rfl⟩ := List.mem_map.mp hpartition
  obtain ⟨groupIdx, hgroupIdx, hmem⟩ := mem_sorted_samples.mp hi
  refine mem_sorted_samples.mpr ⟨groupIdx, hgroupIdx, ?_⟩
  have hruns := areRuns_uidGroups uidList
  have hlt : groupIdx < (uidGroups uidList).length := by
    by_contra hge
    rw [List.getD_eq_default _ _ (by omega)] at hmem
    exact absurd hmem List.not_mem_nil
  rw [List.getD_eq_getElem _ _ hlt] at hmem ⊢
  exact hruns.mem_of_contiguous hcontiguous (List.getElem_mem hlt) hmem hj heq

theorem keepsGroups_of_le_one (seqlenList : List ℕ) (uidList : List Uid) {kPartitions : ℕ}
    (hle : kPartitions ≤ 1) : KeepsGroups seqlenList uidList kPartitions := by
  intro partitions hok
  obtain ⟨hlength, hperm⟩ := groupPartitions_perm hok
  refine ⟨hlength, hperm, fun partition hpartition i hi j hj heq => ?_⟩
  obtain ⟨only, rfl⟩ : ∃ only, partitions = [only] := by
    apply List.length_eq_one_iff.mp
    have hpos := List.length_pos_of_mem hpartition
    omega
  obtain rfl := List.mem_singleton.mp hpartition
  rw [List.flatten_singleton] at hperm
  exact hperm.mem_iff.mpr (List.mem_range.mpr hj)

theorem keepsGroups_of_not_dvd (seqlenList : List ℕ) {uidList : List Uid} {kPartitions : ℕ}
    (hdvd : ¬ kPartitions ∣ numRuns uidList) :
    KeepsGroups seqlenList uidList kPartitions := by
  intro partitions hok
  obtain ⟨groupPartitions, hgroups, -⟩ := getGroupBalancedPartitions_eq_ok hok
  have hcount := (equalSize_of_eq_ok hgroups).2
  rw [uidGroupWorkloads, List.length_map, (areRuns_uidGroups uidList).count] at hcount
  exact absurd hcount hdvd

/-! ## Uids that are not contiguous -/

/-- Two samples with one token each, and no token in the others. -/
def twoHeavy (count first last : ℕ) : List ℕ :=
  (List.range count).map fun i => if i = first ∨ i = last then 1 else 0

/-- The groups of the two samples are the only ones with work. -/
theorem workload_twoHeavy {uidList : List Uid} {groups : List (List ℕ)}
    (hruns : AreRuns uidList groups) {first last : ℕ} {group : List ℕ} (hgroup : group ∈ groups) :
    0 < (gather group ((twoHeavy uidList.length first last).map calculateWorkload)).sum ↔
      first ∈ group ∨ last ∈ group := by
  have hvalue : ∀ value ∈ gather group
      ((twoHeavy uidList.length first last).map calculateWorkload), 0 < value ↔
        value = calculateWorkload 1 := by
    intro value hvalue
    obtain ⟨seqlen, hseqlen, rfl⟩ := List.mem_map.mp (mem_of_mem_gather hvalue)
    obtain ⟨i, -, rfl⟩ := List.mem_map.mp hseqlen
    split <;> decide
  have hget : ∀ i < uidList.length,
      ((twoHeavy uidList.length first last).map calculateWorkload)[i]? =
        some (if i = first ∨ i = last then calculateWorkload 1 else 0) := by
    intro i hi
    rw [twoHeavy, List.map_map, List.getElem?_map, List.getElem?_range hi, Option.map_some,
      Function.comp_apply]
    split <;> rfl
  have hlt : ∀ i ∈ group, i < uidList.length := fun i hi =>
    hruns.mem_group_iff.mpr ⟨group, hgroup, hi⟩
  rw [Nat.pos_iff_ne_zero, ne_eq, List.sum_eq_zero_iff]
  push Not
  constructor
  · rintro ⟨value, hmem, hne⟩
    obtain ⟨i, hi, hsome⟩ := List.mem_filterMap.mp hmem
    rw [hget i (hlt i hi), Option.some.injEq] at hsome
    split at hsome
    next heavy =>
      rcases heavy with rfl | rfl
      · exact .inl hi
      · exact .inr hi
    next => exact absurd hsome.symm hne
  · intro hheavy
    obtain ⟨i, hi, hcase⟩ : ∃ i ∈ group, i = first ∨ i = last :=
      hheavy.elim (fun hi => ⟨first, hi, .inl rfl⟩) (fun hi => ⟨last, hi, .inr rfl⟩)
    refine ⟨calculateWorkload 1, List.mem_filterMap.mpr ⟨i, hi, ?_⟩, by decide⟩
    rw [hget i (hlt i hi), if_pos hcase]

/-- Two runs of one uid can always be given lengths that put them into two partitions. -/
theorem exists_not_keepsGroups {uidList : List Uid} {kPartitions : ℕ}
    (hcontiguous : ¬ Contiguous uidList) (hk : 2 ≤ kPartitions)
    (hdvd : kPartitions ∣ numRuns uidList) :
    ∃ seqlenList, ¬ KeepsGroups seqlenList uidList kPartitions := by
  rw [Contiguous] at hcontiguous
  push Not at hcontiguous
  obtain ⟨first, middle, last, hfirst, hlast, hlength, heq, hne⟩ := hcontiguous
  have hruns := areRuns_uidGroups uidList
  have hcount := hruns.count
  obtain ⟨group, hgroup, hmem⟩ := hruns.mem_group_iff.mp (by omega : first < uidList.length)
  obtain ⟨other, hother, hmem'⟩ := hruns.mem_group_iff.mp hlength
  have hdiffer : group ≠ other := by
    rintro rfl
    exact hne (hruns.uniform group hgroup _ (hruns.convex hgroup hmem hmem' hfirst hlast) _ hmem)
  obtain ⟨a, ha, rfl⟩ := List.mem_iff_getElem.mp hgroup
  obtain ⟨b, hb, rfl⟩ := List.mem_iff_getElem.mp hother
  have hab : a ≠ b := by
    rintro rfl
    exact hdiffer rfl
  -- The groups of the two samples have work, and no other group has.
  have hworkloads : (uidGroupWorkloads (twoHeavy uidList.length first last)
      (uidGroups uidList)).length = numRuns uidList := by
    rw [uidGroupWorkloads, List.length_map, hcount]
  have hitem : ∀ {c : ℕ} (hc : c < (uidGroups uidList).length),
      (c, (gather (uidGroups uidList)[c]
        ((twoHeavy uidList.length first last).map calculateWorkload)).sum) ∈
          itemsOf (uidGroupWorkloads (twoHeavy uidList.length first last)
            (uidGroups uidList)) := by
    intro c hc
    refine List.mem_map.mpr ⟨(_, c), List.mem_zipIdx_iff_getElem?.mpr ?_, rfl⟩
    rw [uidGroupWorkloads, List.getElem?_map, List.getElem?_eq_getElem hc]
    rfl
  have hlight : ∀ item ∈ itemsOf (uidGroupWorkloads (twoHeavy uidList.length first last)
      (uidGroups uidList)), item.1 ≠ a → item.1 ≠ b → item.2 = 0 := by
    intro item hitem hnota hnotb
    have hget := mem_itemsOf hitem
    rw [uidGroupWorkloads, List.getElem?_map, Option.map_eq_some_iff] at hget
    obtain ⟨source, hsource, hsum⟩ := hget
    obtain ⟨hlt, rfl⟩ := List.getElem?_eq_some_iff.mp hsource
    by_contra hpos
    rw [← hsum, ← ne_eq, ← Nat.pos_iff_ne_zero,
      workload_twoHeavy hruns (List.getElem_mem hlt)] at hpos
    rcases hpos with hpos | hpos
    · rw [← List.getD_eq_getElem _ [] hlt] at hpos
      rw [← List.getD_eq_getElem _ [] ha] at hmem
      exact hnota (hruns.index_unique hpos hmem)
    · rw [← List.getD_eq_getElem _ [] hlt] at hpos
      rw [← List.getD_eq_getElem _ [] hb] at hmem'
      exact hnotb (hruns.index_unique hpos hmem')
  rw [← hworkloads] at hdvd
  have hpositive : 0 < (uidGroupWorkloads (twoHeavy uidList.length first last)
      (uidGroups uidList)).length := by
    rw [hworkloads, ← hcount]
    exact (Nat.zero_le a).trans_lt ha
  obtain ⟨groupPartitions, hok, -⟩ := getSeqlenBalancedPartitions_isOk (by omega)
    (Nat.le_of_dvd hpositive hdvd) fun _ => hdvd
  have hapart := partitions_apart hk hdvd hab (hitem ha) (hitem hb)
    ((workload_twoHeavy hruns (List.getElem_mem ha)).mpr (.inl hmem))
    ((workload_twoHeavy hruns (List.getElem_mem hb)).mpr (.inr hmem')) hlight hok
  have hresult : getGroupBalancedPartitions (twoHeavy uidList.length first last) uidList
      kPartitions = .ok (groupPartitions.map fun groupPartition =>
        (groupPartition.flatMap fun groupIdx =>
          (uidGroups uidList).getD groupIdx []).insertionSort (· ≤ ·)) := by
    have hle := Nat.le_of_dvd hpositive hdvd
    rw [hworkloads, ← hcount] at hle
    rw [getGroupBalancedPartitions, if_neg (by simp [twoHeavy])]
    dsimp only
    rw [if_neg (Nat.not_lt.mpr hle), hok]
    rfl
  refine ⟨twoHeavy uidList.length first last, fun hkeeps => ?_⟩
  obtain ⟨-, hperm, htogether⟩ := hkeeps _ hresult
  obtain ⟨partition, hpartition, hin⟩ := List.mem_flatten.mp
    (hperm.mem_iff.mpr (List.mem_range.mpr (by omega : first < uidList.length)))
  have hin' := htogether partition hpartition first hin last hlength heq.symm
  obtain ⟨groupPartition, hgroupPartition, rfl⟩ := List.mem_map.mp hpartition
  obtain ⟨c, hc, hcmem⟩ := mem_sorted_samples.mp hin
  obtain ⟨d, hd, hdmem⟩ := mem_sorted_samples.mp hin'
  rw [← List.getD_eq_getElem _ [] ha] at hmem
  rw [← List.getD_eq_getElem _ [] hb] at hmem'
  rw [hruns.index_unique hcmem hmem] at hc
  rw [hruns.index_unique hdmem hmem'] at hd
  exact hapart groupPartition hgroupPartition hc hd

/-- The groups of some uids are kept together, whatever the lengths, exactly if the
samples of each uid are contiguous, or there is a single partition, or the number of runs
does not divide up, which raises. -/
theorem keepsGroups_iff (uidList : List Uid) (kPartitions : ℕ) :
    (∀ seqlenList, KeepsGroups seqlenList uidList kPartitions) ↔
      Contiguous uidList ∨ kPartitions ≤ 1 ∨ ¬ kPartitions ∣ numRuns uidList := by
  constructor
  · intro hkeeps
    by_contra hnot
    push Not at hnot
    obtain ⟨hcontiguous, hk, hdvd⟩ := hnot
    obtain ⟨seqlenList, hsplit⟩ := exists_not_keepsGroups hcontiguous hk hdvd
    exact hsplit (hkeeps seqlenList)
  · rintro (hcontiguous | hle | hdvd) seqlenList
    · exact keepsGroups_of_contiguous hcontiguous seqlenList kPartitions
    · exact keepsGroups_of_le_one seqlenList uidList hle
    · exact keepsGroups_of_not_dvd seqlenList hdvd

/-- Two uids in turn, on two ranks. -/
theorem interleaved_not_keepsGroups :
    getGroupBalancedPartitions [1, 0, 1, 0] ["a", "b", "a", "b"] 2 = .ok [[1, 2], [0, 3]] ∧
      ¬ KeepsGroups [1, 0, 1, 0] ["a", "b", "a", "b"] 2 := by
  have hok : getGroupBalancedPartitions [1, 0, 1, 0] ["a", "b", "a", "b"] 2 =
      .ok [[1, 2], [0, 3]] := by decide +kernel
  refine ⟨hok, fun hkeeps => ?_⟩
  have htogether := (hkeeps _ hok).2.2 [1, 2] (by decide) 2 (by decide) 0 (by decide) rfl
  exact absurd htogether (by decide)

end OneShotOPD.SeqlenBalancing
