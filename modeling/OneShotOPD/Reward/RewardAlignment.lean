import OneShotOPD.Reward.RateLimited
import Mathlib

/-!
# When rows and reports stay aligned

A key that some rows do not report gets a list that is too short, and the reward of a response
without valid tokens lands on its last position.  Nothing else goes wrong.
-/

namespace OneShotOPD.RateLimited

open Checks

variable {α V : Type} [Zero α] [One α]

/-! ## The last valid position -/

theorem lastValid_eq_none_iff {mask : List Bool} : lastValid mask = none ↔ true ∉ mask := by
  induction mask with
  | nil => simp [lastValid]
  | cons valid mask ih =>
      rw [lastValid]
      cases hlast : lastValid mask with
      | some position =>
          have hmem : true ∈ mask := by
            by_contra habsent
            rw [ih.mpr habsent] at hlast
            cases hlast
          simp [hmem]
      | none =>
          have habsent := ih.mp hlast
          cases valid <;> simp [habsent]

theorem count_le_lastValid {mask : List Bool} {position : ℕ}
    (hlast : lastValid mask = some position) : mask.count true ≤ position + 1 := by
  induction mask generalizing position with
  | nil => cases hlast
  | cons valid mask ih =>
      rw [lastValid] at hlast
      split at hlast
      next found hfound =>
        obtain rfl := Option.some.inj hlast
        have hcount := ih hfound
        cases valid <;> simp <;> omega
      next hnone =>
        have hzero : mask.count true = 0 :=
          List.count_eq_zero_of_not_mem (lastValid_eq_none_iff.mp hnone)
        cases valid <;> simp [hzero]

theorem eq_replicate_false {mask : List Bool} (habsent : true ∉ mask) :
    mask = List.replicate mask.length false := by
  refine List.eq_replicate_iff.mpr ⟨rfl, fun valid hvalid => ?_⟩
  cases valid with
  | false => rfl
  | true => exact absurd hvalid habsent

/-- The number of valid positions gives the last one exactly for a response that is filled from
the left and not empty. -/
theorem lastValid_count_iff {mask : List Bool} :
    (0 < mask.count true ∧ lastValid mask = some (mask.count true - 1)) ↔
      RightPadded mask ∧ true ∈ mask := by
  induction mask with
  | nil => simp [lastValid]
  | cons valid mask ih =>
      by_cases hmem : true ∈ mask
      · obtain ⟨position, hposition⟩ : ∃ position, lastValid mask = some position := by
          rw [← Option.ne_none_iff_exists']
          exact fun hnone => lastValid_eq_none_iff.mp hnone hmem
        have hcount := count_le_lastValid hposition
        have hpos : 0 < mask.count true := List.count_pos_iff.mpr hmem
        have hhead : lastValid (valid :: mask) = some (position + 1) := by
          rw [lastValid, hposition]
        rw [hhead]
        constructor
        · rintro ⟨_, hlast⟩
          have hlast := Option.some.inj hlast
          cases valid with
          | false =>
              rw [List.count_cons_of_ne (by decide)] at hlast
              omega
          | true =>
              rw [List.count_cons_self, Nat.add_sub_cancel] at hlast
              obtain ⟨⟨front, padding, hmask⟩, _⟩ := ih.mp ⟨hpos, by
                rw [hposition, ← hlast, Nat.add_sub_cancel]⟩
              exact ⟨⟨front + 1, padding, by rw [hmask]; rfl⟩, List.mem_cons_self⟩
        · rintro ⟨⟨front, padding, hmask⟩, _⟩
          cases front with
          | zero =>
              have habsent : true ∉ valid :: mask := by
                rw [hmask]
                simp
              exact absurd (List.mem_cons_of_mem _ hmem) habsent
          | succ front =>
              rw [List.replicate_succ, List.cons_append, List.cons_eq_cons] at hmask
              obtain ⟨rfl, hmask⟩ := hmask
              obtain ⟨_, hlast⟩ := ih.mpr ⟨⟨front, padding, hmask⟩, hmem⟩
              rw [hposition, Option.some.injEq] at hlast
              rw [List.count_cons_self, Option.some.injEq]
              omega
      · have hzero : mask.count true = 0 := List.count_eq_zero_of_not_mem hmem
        have hnone := lastValid_eq_none_iff.mpr hmem
        cases valid with
        | false => simp [hzero, hmem]
        | true =>
            refine iff_of_true ⟨by simp, ?_⟩ ⟨⟨1, mask.length, ?_⟩, List.mem_cons_self⟩
            · rw [lastValid, hnone, List.count_cons_self, hzero]
              rfl
            · rw [← eq_replicate_false hmem]
              rfl

/-! ## The reward of a row -/

omit [One α] in
/-- A row with one value is the row that is asked for when the value is zero or at its place. -/
theorem set_eq_placedAt_iff {responseLength position : ℕ} {target : Option ℕ} {score : α}
    (hposition : position < responseLength) :
    (List.replicate responseLength 0).set position score = placedAt responseLength target score ↔
      score = 0 ∨ target = some position := by
  constructor
  · intro heq
    have hentry := congrArg (fun row : List α => row[position]?) heq
    simp only [List.getElem?_set_self', List.getElem?_replicate, placedAt, List.getElem?_map,
      List.getElem?_range hposition, hposition, if_true, Option.map_some, Option.map_eq_map,
      Option.some.injEq] at hentry
    by_cases htarget : target = some position
    · exact .inr htarget
    · rw [if_neg htarget] at hentry
      exact .inl hentry
  · intro hplace
    apply List.ext_getElem (by simp [placedAt])
    intro index hindex _
    simp only [List.getElem_set, List.getElem_replicate, placedAt, List.getElem_map,
      List.getElem_range]
    rcases hplace with rfl | rfl
    · simp
    · simp

omit [Zero α] [One α] in
theorem assignAt_empty (index : ℤ) (value : α) :
    assignAt [] index value = .error "IndexError: index is out of bounds" := by
  rw [assignAt]
  refine if_neg ?_
  simp only [List.length_nil]
  omega

omit [Zero α] [One α] in
/-- The assignment after some valid positions; without any it goes to the last position. -/
theorem assignAt_valid {row : List α} {valid : ℕ} {value : α} (hrow : 0 < row.length)
    (hvalid : valid ≤ row.length) :
    assignAt row ((valid : ℤ) - 1) value =
      .ok (row.set (if valid = 0 then row.length - 1 else valid - 1) value) := by
  rw [assignAt]
  by_cases hzero : valid = 0
  · have hnegative : ((valid : ℤ) - 1) < 0 := by omega
    simp only [if_pos hnegative, if_pos hzero]
    rw [if_pos (by omega)]
    refine congrArg (fun position => Except.ok (row.set position value)) ?_
    omega
  · have hpositive : ¬ ((valid : ℤ) - 1) < 0 := by omega
    simp only [if_neg hpositive, if_neg hzero]
    rw [if_pos (by omega)]
    refine congrArg (fun position => Except.ok (row.set position value)) ?_
    omega

omit [Zero α] [One α] in
theorem length_responseMask {responseLength : ℕ} {row : Row α V} (hpositive : 0 < responseLength)
    (hlength : responseLength ≤ row.attentionMask.length) :
    (responseMask responseLength row).length = responseLength := by
  rw [responseMask, if_neg (Nat.ne_of_gt hpositive), List.length_drop]
  omega

/-- A row whose response is filled from the left, or whose reward is zero. -/
def Row.Placed (responseLength : ℕ) (row : Row α V) : Prop :=
  ∃ score, row.scoring.score = .ok score ∧ (score = 0 ∨
    RightPadded (responseMask responseLength row) ∧ true ∈ responseMask responseLength row)

theorem rewardRow_iff {responseLength : ℕ} {row : Row α V}
    (hlength : responseLength ≤ row.attentionMask.length) :
    (∃ values, rewardRow responseLength row (runSingle row.scoring).1 = .ok values ∧
      .ok values = (runSingle row.scoring).1.toScore.map
        (placedAt responseLength (lastValid (responseMask responseLength row)))) ↔
      0 < responseLength ∧ row.Placed responseLength := by
  rw [rewardRow, Row.Placed, toScore_runSingle]
  cases hscore : row.scoring.score with
  | error error =>
      constructor
      · rintro ⟨values, hvalues, _⟩
        cases hvalues
      · rintro ⟨_, score, hscore, _⟩
        cases hscore
  | ok score =>
      change (∃ values, assignAt _ _ score = .ok values ∧ Except.ok values = Except.ok _) ↔ _
      by_cases hpositive : 0 < responseLength
      · have hmask := length_responseMask hpositive hlength
        have hvalid : validResponseLength responseLength row ≤ responseLength := by
          refine Nat.le_trans ?_ hmask.le
          exact List.count_le_length
        have hassign := @assignAt_valid α (List.replicate responseLength 0)
          (validResponseLength responseLength row) score (by rwa [List.length_replicate])
          (by rwa [List.length_replicate])
        rw [List.length_replicate] at hassign
        rw [hassign]
        have hplace : (List.replicate responseLength 0).set
            (if validResponseLength responseLength row = 0 then responseLength - 1
              else validResponseLength responseLength row - 1) score =
            placedAt responseLength (lastValid (responseMask responseLength row)) score ↔
              score = 0 ∨ RightPadded (responseMask responseLength row) ∧
                true ∈ responseMask responseLength row := by
          rw [← lastValid_count_iff]
          split
          next hzero =>
            have habsent : true ∉ responseMask responseLength row := List.count_eq_zero.mp hzero
            rw [set_eq_placedAt_iff (Nat.sub_lt hpositive Nat.one_pos),
              lastValid_eq_none_iff.mpr habsent]
            simp
          next hsome =>
            have hcount : 0 < (responseMask responseLength row).count true :=
              Nat.pos_of_ne_zero hsome
            rw [set_eq_placedAt_iff (by omega)]
            simp only [hcount, true_and]
            rfl
        simp [hplace, hpositive]
      · obtain rfl : responseLength = 0 := by omega
        rw [List.replicate_zero, assignAt_empty]
        simp

/-! ## The batch -/

/-- For a batch without scores: the report is aligned exactly when every response that gets a
reward other than zero is filled from the left and not empty, and all rows report the same keys. -/
theorem call_aligned_iff {batch : Batch α V} (hscores : batch.rmScores = none) :
    (∃ report, call batch = .ok report ∧ Aligned batch report) ↔
      (∀ row ∈ batch.rows, 0 < batch.responseLength ∧ row.Placed batch.responseLength) ∧
        ∀ first ∈ batch.rows, ∀ second ∈ batch.rows, ∀ key ∈ first.scoring.keys,
          key ∈ second.scoring.keys := by
  have hkeys := @Dict.collect_aligned_iff String (Value α V) _ _ batch.rows fun row =>
    (runSingle row.scoring).2
  simp only [keys_runSingle] at hkeys
  rw [call, hscores, ← hkeys]
  constructor
  · rintro ⟨report, hcall, haligned⟩
    obtain ⟨rewardTensor, hrewards, hreport⟩ := bind_eq_ok.mp hcall
    obtain rfl := Except.ok.inj hreport
    refine ⟨fun row hrow => ?_, haligned.columns⟩
    have hrows := (map_eq_of_mapM (fun _ _ _ hvalue => hvalue.symm) hrewards).symm.trans
      haligned.rewards
    obtain ⟨values, hvalues⟩ := eq_ok_of_mapM hrewards hrow
    refine (rewardRow_iff (batch.length_mask row hrow)).mp ⟨values, hvalues, ?_⟩
    rw [← hvalues]
    exact List.map_inj_left.mp hrows row hrow
  · rintro ⟨hplaced, hcolumns⟩
    have hrows := fun row hrow =>
      (rewardRow_iff (batch.length_mask row hrow)).mpr (hplaced row hrow)
    obtain ⟨rewardTensor, hrewards⟩ := exists_mapM_eq_ok fun row hrow =>
      (hrows row hrow).imp fun _ hvalues => hvalues.1
    rw [hrewards]
    refine ⟨_, rfl, hcolumns, map_eq_of_mapM (fun row hrow values hvalues => ?_) hrewards⟩
    obtain ⟨expected, hexpected, hplace⟩ := hrows row hrow
    obtain rfl := Except.ok.inj (hvalues.symm.trans hexpected)
    exact hplace

/-- Two rows that are scored by a number. -/
def scoredBatch : Batch ℤ Empty where
  responseLength := 2
  rows := [⟨[true, true, false], .number 1⟩, ⟨[true, true, true], .number 2⟩]
  length_mask := by decide
  rmScores := none

theorem call_aligned_scoredBatch :
    ∃ report, call scoredBatch = .ok report ∧ Aligned scoredBatch report := by
  refine (call_aligned_iff rfl).mpr ⟨fun row hrow => ⟨by decide, ?_⟩, by decide⟩
  rcases List.mem_cons.mp hrow with rfl | hrow
  · exact ⟨1, rfl, .inr ⟨⟨1, 1, rfl⟩, by decide⟩⟩
  · obtain rfl := List.mem_singleton.mp hrow
    exact ⟨2, rfl, .inr ⟨⟨2, 0, rfl⟩, by decide⟩⟩

/-- A scored row, a timeout and an empty response. -/
def mixedOutcomes : Batch ℤ Empty where
  responseLength := 2
  rows := [⟨[true, true, false], .number 1⟩, ⟨[true, true, true], .timeout⟩,
    ⟨[true, false, false], .number 1⟩]
  length_mask := by decide
  rmScores := none

/-- The only entry of the timeouts stands where the first row belongs, and the reward of the
empty response stands at its last position. -/
theorem mixedOutcomes_misaligned :
    call mixedOutcomes = .ok ⟨[[1, 0], [0, 0], [0, 1]],
      ⟨[("acc", [.number 1, .number 0, .number 1]), ("timeout", [.flag true])], by decide⟩⟩ ∧
    ¬ ∃ report, call mixedOutcomes = .ok report ∧ Aligned mixedOutcomes report := by
  have hcall : call mixedOutcomes = .ok ⟨[[1, 0], [0, 0], [0, 1]],
      ⟨[("acc", [.number 1, .number 0, .number 1]), ("timeout", [.flag true])], by decide⟩⟩ := rfl
  refine ⟨hcall, ?_⟩
  rintro ⟨report, hreport, haligned⟩
  obtain rfl := Except.ok.inj (hcall.symm.trans hreport)
  have hlength := congrArg List.length
    (haligned.columns ("timeout", [.flag true]) (by simp))
  exact absurd hlength (by decide)

end OneShotOPD.RateLimited
