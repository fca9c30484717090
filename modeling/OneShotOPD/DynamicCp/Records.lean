import OneShotOPD.DynamicCp.Collection
import Mathlib.Data.List.Nodup
import Mathlib.Data.List.Perm.Basic

/-!
# The records of the group leaders

When no sample is reported twice, the dictionary that the collection fills holds
under a key and a sample what the record of the sample reports for it.
-/

namespace OneShotOPD.DynamicCp

open Checks

variable {τ ℓ μ : Type}

def MicroOutput.toRecord (output : MicroOutput τ ℓ μ) : Record τ ℓ μ where
  sampleIds := output.sampleIds
  loss := output.loss
  metrics := output.metrics
  modelOutput := output.modelOutput.map OutputValue.parts

/-- Every value of an output is a tensor with one part for every sample. -/
def MicroOutput.WellFormed (output : MicroOutput τ ℓ μ) : Prop :=
  ∀ entry ∈ output.modelOutput.entries, ¬ entry.2.Mismatched output.sampleIds

theorem localRecord_eq_ok {output : MicroOutput τ ℓ μ} {record : Record τ ℓ μ}
    (hok : localRecord output = .ok record) :
    output.WellFormed ∧ record = output.toRecord := by
  obtain ⟨modelOutput, hdetach, hok⟩ := bind_eq_ok.mp hok
  cases hok
  obtain ⟨hwell, hdetach⟩ := raiseIfAny_bind_eq_ok.mp hdetach
  cases hdetach
  exact ⟨hwell, rfl⟩

/-- The gathered records are those of the leaders of all ranks. -/
theorem flatten_localRecords {outputLsts : List (List (MicroOutput τ ℓ μ))}
    {recordsByRank : List (List (Record τ ℓ μ))}
    (hok : outputLsts.mapM localRecords = .ok recordsByRank) :
    recordsByRank.flatten =
        (outputLsts.flatMap (List.filter MicroOutput.groupLeader)).map MicroOutput.toRecord ∧
      ∀ output ∈ outputLsts.flatMap (List.filter MicroOutput.groupLeader),
        output.WellFormed := by
  constructor
  · rw [List.map_flatMap, List.flatMap_def]
    congr 1
    apply eq_map_of_mapM _ hok
    intro outputLst _ records hrecords
    exact eq_map_of_mapM (fun output _ record hrecord => (localRecord_eq_ok hrecord).2) hrecords
  · intro output houtput
    obtain ⟨outputLst, hlst, houtput⟩ := List.mem_flatMap.mp houtput
    obtain ⟨records, hrecords⟩ := eq_ok_of_mapM hok hlst
    obtain ⟨record, hrecord⟩ := eq_ok_of_mapM hrecords houtput
    exact (localRecord_eq_ok hrecord).1

/-- A key of a well-formed output has a part for every sample. -/
theorem MicroOutput.WellFormed.get?_parts {output : MicroOutput τ ℓ μ}
    (hwell : output.WellFormed) {key : String} {parts : List τ}
    (hparts : output.toRecord.modelOutput.get? key = some parts) :
    output.modelOutput.get? key = some (.tensor parts) ∧
      parts.length = output.sampleIds.length := by
  rw [MicroOutput.toRecord, Dict.get?_map] at hparts
  obtain ⟨value, hvalue, rfl⟩ := Option.map_eq_some_iff.mp hparts
  have hmatch := hwell (key, value) ((Dict.get?_eq_some_iff _ _ _).mp hvalue)
  cases value with
  | tensor parts => exact ⟨hvalue, not_not.mp hmatch⟩
  | other typeName => exact absurd trivial hmatch

theorem orderRecords_eq_ok {records ordered : List (Record τ ℓ μ)} {batchSize : ℕ}
    (hok : orderRecords records batchSize = .ok ordered) :
    List.Perm ordered records ∧
      List.Perm (records.flatMap Record.sampleIds) ((List.range batchSize).map Int.ofNat) := by
  obtain ⟨hids, hok⟩ := raiseIf_bind_eq_ok.mp hok
  obtain ⟨-, hok⟩ := raiseIfAny_bind_eq_ok.mp hok
  cases hok
  rw [not_not] at hids
  exact ⟨List.perm_insertionSort _ _, hids ▸ (List.perm_insertionSort _ _).symm⟩

theorem get?_addParts_of_not_mem {values : Dict ℤ τ} {parts : List (ℤ × τ)} {sampleId : ℤ}
    (habsent : sampleId ∉ parts.map Prod.fst) :
    (addParts values parts).get? sampleId = values.get? sampleId := by
  induction parts generalizing values with
  | nil => rfl
  | cons part parts ih =>
      rw [List.map_cons, List.mem_cons, not_or] at habsent
      calc
        (addParts values (part :: parts)).get? sampleId =
            (values.insert part.1 part.2).get? sampleId := ih habsent.2
        _ = values.get? sampleId := Dict.get?_insert_of_ne _ _ habsent.1

/-- The parts of one record, each under its sample. -/
theorem get?_addParts_zip {values : Dict ℤ τ} {sampleIds : List ℤ} {parts : List τ}
    (hnodup : sampleIds.Nodup) (hlength : parts.length = sampleIds.length) {index : ℕ}
    {sampleId : ℤ} (hindex : sampleIds[index]? = some sampleId) :
    (addParts values (sampleIds.zip parts)).get? sampleId = parts[index]? := by
  induction sampleIds generalizing values parts index with
  | nil => simp at hindex
  | cons first sampleIds ih =>
      cases parts with
      | nil => simp at hlength
      | cons part parts =>
          obtain ⟨hfirst, hnodup⟩ := List.nodup_cons.mp hnodup
          have hlength : parts.length = sampleIds.length := by simpa using hlength
          cases index with
          | zero =>
              obtain rfl : first = sampleId := by simpa using hindex
              have habsent : first ∉ (sampleIds.zip parts).map Prod.fst := by
                rwa [List.map_fst_zip hlength.ge]
              calc
                (addParts values ((first :: sampleIds).zip (part :: parts))).get? first =
                    (values.insert first part).get? first := get?_addParts_of_not_mem habsent
                _ = some part := Dict.get?_insert_self _ _ _
          | succ index => exact ih hnodup hlength (by simpa using hindex)

theorem get?_addRecord (byKey : Dict String (Dict ℤ τ)) (record : Record τ ℓ μ)
    (key : String) :
    (addRecord byKey record).get? key =
      match record.modelOutput.get? key with
      | some parts =>
          some (addParts (byKey.getD key Dict.empty) (record.sampleIds.zip parts))
      | none => byKey.get? key := by
  rw [addRecord, Dict.get?_foldl_merge byKey record.modelOutput Dict.empty
    (fun values parts => addParts values (record.sampleIds.zip parts)) key]
  cases record.modelOutput.get? key <;> rfl

theorem getD_addRecord_of_not_mem {byKey : Dict String (Dict ℤ τ)} {record : Record τ ℓ μ}
    {sampleId : ℤ} (habsent : sampleId ∉ record.sampleIds) (key : String) :
    ((addRecord byKey record).getD key Dict.empty).get? sampleId =
      (byKey.getD key Dict.empty).get? sampleId := by
  rw [Dict.getD, get?_addRecord]
  cases record.modelOutput.get? key with
  | none => rfl
  | some parts =>
      apply get?_addParts_of_not_mem
      intro hmem
      obtain ⟨part, hpart, rfl⟩ := List.mem_map.mp hmem
      exact habsent (List.of_mem_zip hpart).1

/-- A record whose outputs have a part for every sample. -/
def Record.WellFormed (record : Record τ ℓ μ) : Prop :=
  ∀ key parts, record.modelOutput.get? key = some parts →
    parts.length = record.sampleIds.length

theorem MicroOutput.WellFormed.toRecord {output : MicroOutput τ ℓ μ}
    (hwell : output.WellFormed) : output.toRecord.WellFormed :=
  fun _ _ hparts => (hwell.get?_parts hparts).2

theorem getD_foldl_addRecord_of_not_mem {records : List (Record τ ℓ μ)} {sampleId : ℤ}
    (habsent : sampleId ∉ records.flatMap Record.sampleIds) (key : String) :
    ((records.foldl addRecord Dict.empty).getD key Dict.empty).get? sampleId = none := by
  induction records using List.reverseRecOn with
  | nil => rfl
  | append_singleton records last ih =>
      rw [List.flatMap_append, List.mem_append, not_or] at habsent
      have hlast : sampleId ∉ last.sampleIds := by simpa using habsent.2
      rw [List.foldl_append, List.foldl_cons, List.foldl_nil,
        getD_addRecord_of_not_mem hlast, ih habsent.1]

/-- What the collected dictionary holds for a sample is what its record holds. -/
theorem getD_foldl_addRecord {records : List (Record τ ℓ μ)}
    (hwell : ∀ record ∈ records, record.WellFormed)
    (hnodup : (records.flatMap Record.sampleIds).Nodup) {record : Record τ ℓ μ}
    (hrecord : record ∈ records) {index : ℕ} {sampleId : ℤ}
    (hindex : record.sampleIds[index]? = some sampleId) (key : String) :
    ((records.foldl addRecord Dict.empty).getD key Dict.empty).get? sampleId =
      (record.modelOutput.get? key).bind (fun parts => parts[index]?) := by
  induction records using List.reverseRecOn with
  | nil => simp at hrecord
  | append_singleton records last ih =>
      rw [List.flatMap_append, List.flatMap_singleton] at hnodup
      obtain ⟨hrecords, hlast, hdisjoint⟩ := List.nodup_append'.mp hnodup
      have hmem : sampleId ∈ record.sampleIds := List.mem_of_getElem? hindex
      rw [List.foldl_append, List.foldl_cons, List.foldl_nil]
      rcases List.mem_append.mp hrecord with hbefore | heq
      · have habsent : sampleId ∉ last.sampleIds :=
          hdisjoint (List.mem_flatMap.mpr ⟨record, hbefore, hmem⟩)
        rw [getD_addRecord_of_not_mem habsent]
        exact ih (fun other hother => hwell other (List.mem_append_left _ hother)) hrecords hbefore
      · obtain rfl := List.mem_singleton.mp heq
        have hnew : sampleId ∉ records.flatMap Record.sampleIds :=
          fun hold => hdisjoint hold hmem
        rw [Dict.getD, get?_addRecord]
        cases hparts : record.modelOutput.get? key with
        | none => exact getD_foldl_addRecord_of_not_mem hnew key
        | some parts =>
            exact get?_addParts_zip hlast (hwell record hrecord key parts hparts) hindex

/-- The collected keys are those of the records. -/
theorem mem_keys_foldl_addRecord {records : List (Record τ ℓ μ)} {key : String} :
    key ∈ (records.foldl addRecord Dict.empty).keys ↔
      ∃ record ∈ records, key ∈ record.modelOutput.keys := by
  induction records using List.reverseRecOn with
  | nil => simp
  | append_singleton records last ih =>
      have hstep : key ∈ (addRecord (records.foldl addRecord Dict.empty) last).keys ↔
          key ∈ (records.foldl addRecord Dict.empty).keys ∨ key ∈ last.modelOutput.keys := by
        rw [← Dict.get?_isSome_iff, get?_addRecord, ← Dict.get?_isSome_iff,
          ← Dict.get?_isSome_iff]
        cases last.modelOutput.get? key <;> simp
      rw [List.foldl_append, List.foldl_cons, List.foldl_nil, hstep, ih]
      simp [or_and_right, exists_or]

/-- A lookup that finds every index keeps the places. -/
theorem filterMap_range {find : ℕ → Option τ} {count : ℕ}
    (hfind : ∀ index < count, ∃ value, find index = some value) :
    ((List.range count).filterMap find).length = count ∧
      ∀ index < count, ((List.range count).filterMap find)[index]? = find index := by
  induction count with
  | zero => simp
  | succ count ih =>
      obtain ⟨hlength, hvalues⟩ := ih fun index hindex => hfind index (Nat.lt_succ_of_lt hindex)
      obtain ⟨value, hvalue⟩ := hfind count (Nat.lt_succ_self count)
      have hsnoc : (List.range (count + 1)).filterMap find =
          (List.range count).filterMap find ++ [value] := by
        rw [List.range_succ, List.filterMap_append, List.filterMap_cons, hvalue]
        rfl
      rw [hsnoc]
      refine ⟨by simp [hlength], ?_⟩
      intro index hindex
      rcases Nat.lt_succ_iff_lt_or_eq.mp hindex with hlt | rfl
      · rw [List.getElem?_append_left (hlt.trans_eq hlength.symm), hvalues index hlt]
      · rw [List.getElem?_append_right hlength.le, hlength, Nat.sub_self, hvalue]
        rfl

/-- The restored list of a key has every sample's part at its place. -/
theorem get?_restoreOutputs {byKey : Dict String (Dict ℤ τ)} {batchSize : ℕ}
    {restored : Dict String (List τ)} (hok : restoreOutputs byKey batchSize = .ok restored) :
    restored.keys = byKey.keys ∧
      ∀ key values, restored.get? key = some values → values.length = batchSize ∧
        ∀ sample < batchSize, ∃ part, values[sample]? = some part ∧
          (byKey.getD key Dict.empty).get? (sample : ℤ) = some part := by
  obtain ⟨hpresent, hok⟩ := raiseIfAny_bind_eq_ok.mp hok
  cases hok
  refine ⟨Dict.keys_map _ _, ?_⟩
  intro key values hvalues
  rw [Dict.get?_map] at hvalues
  obtain ⟨bySample, hbySample, rfl⟩ := Option.map_eq_some_iff.mp hvalues
  have hsome : ∀ sample < batchSize, ∃ part, bySample.get? (sample : ℤ) = some part := by
    intro sample hsample
    apply Option.isSome_iff_exists.mp
    rw [Dict.get?_isSome_iff]
    by_contra habsent
    exact hpresent (key, bySample) ((Dict.get?_eq_some_iff _ _ _).mp hbySample)
      ⟨sample, List.mem_range.mpr hsample, habsent⟩
  obtain ⟨hlength, hparts⟩ := filterMap_range hsome
  refine ⟨hlength, ?_⟩
  intro sample hsample
  obtain ⟨part, hpart⟩ := hsome sample hsample
  rw [hparts sample hsample, Dict.getD, hbySample]
  exact ⟨part, hpart, hpart⟩

/-- The collection of the outputs that the leaders report. -/
structure Collects (outputs : List (MicroOutput τ ℓ μ)) (batchSize : ℕ)
    (includeModelOutput : Bool) (result : Collected τ ℓ μ) : Prop where
  reports : ∃ order, List.Perm order outputs ∧
    result.loss = order.filterMap (fun output => output.loss) ∧
    result.metrics = order.foldl (fun metrics output => appendToDict metrics output.metrics)
      Dict.empty
  samples : List.Perm (outputs.flatMap MicroOutput.sampleIds)
    ((List.range batchSize).map Int.ofNat)
  keys : ∀ key, key ∈ result.modelOutput.keys ↔ includeModelOutput = true ∧
    ∃ output ∈ outputs, key ∈ output.modelOutput.keys
  restored : ∀ key values, result.modelOutput.get? key = some values →
    values.length = batchSize ∧
    ∀ output ∈ outputs, ∀ (place : ℕ) (sample : ℤ), output.sampleIds[place]? = some sample →
      ∃ position : ℕ, sample = position ∧ position < batchSize ∧
        ∃ parts, output.modelOutput.get? key = some (.tensor parts) ∧
          parts.length = output.sampleIds.length ∧ values[position]? = parts[place]?

/-- What is restored under a key, record by record. -/
theorem restored_of_restoreOutputs {order : List (MicroOutput τ ℓ μ)} {batchSize : ℕ}
    {restored : Dict String (List τ)} (hwell : ∀ output ∈ order, output.WellFormed)
    (hsamples : List.Perm (order.flatMap MicroOutput.sampleIds)
      ((List.range batchSize).map Int.ofNat))
    (hok : restoreOutputs ((order.map MicroOutput.toRecord).foldl addRecord Dict.empty)
      batchSize = .ok restored) {key : String} {values : List τ}
    (hvalues : restored.get? key = some values) {output : MicroOutput τ ℓ μ}
    (houtput : output ∈ order) {place : ℕ} {sample : ℤ}
    (hplace : output.sampleIds[place]? = some sample) :
    ∃ position : ℕ, sample = position ∧ position < batchSize ∧
      ∃ parts, output.modelOutput.get? key = some (.tensor parts) ∧
        parts.length = output.sampleIds.length ∧ values[position]? = parts[place]? := by
  have hmem : sample ∈ order.flatMap MicroOutput.sampleIds :=
    List.mem_flatMap.mpr ⟨output, houtput, List.mem_of_getElem? hplace⟩
  obtain ⟨position, hposition, rfl⟩ := List.mem_map.mp (hsamples.mem_iff.mp hmem)
  have hlt := List.mem_range.mp hposition
  have hids : (order.map MicroOutput.toRecord).flatMap Record.sampleIds =
      order.flatMap MicroOutput.sampleIds := List.flatMap_map _ _ _
  have hnodup : ((order.map MicroOutput.toRecord).flatMap Record.sampleIds).Nodup := by
    rw [hids, hsamples.nodup_iff]
    exact List.nodup_range.map fun _ _ heq => Int.ofNat.inj heq
  have hrecords : ∀ record ∈ order.map MicroOutput.toRecord, record.WellFormed := by
    intro record hrecord
    obtain ⟨source, hsource, rfl⟩ := List.mem_map.mp hrecord
    exact (hwell source hsource).toRecord
  obtain ⟨part, hpart, hbyKey⟩ :=
    ((get?_restoreOutputs hok).2 key values hvalues).2 position hlt
  have hlookup := getD_foldl_addRecord hrecords hnodup (List.mem_map_of_mem houtput) hplace key
  obtain ⟨parts, hparts, hpartAt⟩ := Option.bind_eq_some_iff.mp (hlookup.symm.trans hbyKey)
  obtain ⟨htensor, hlength⟩ := (hwell output houtput).get?_parts hparts
  exact ⟨position, rfl, hlt, parts, htensor, hlength, hpart.trans hpartAt.symm⟩

/-- A collection that raises nothing. -/
theorem collects_of_postprocessDynamicCpBatch {outputLsts : List (List (MicroOutput τ ℓ μ))}
    {batchSize : ℕ} {includeModelOutput : Bool} {result : Collected τ ℓ μ}
    (hok : postprocessDynamicCpBatch outputLsts batchSize includeModelOutput = .ok result) :
    Collects (outputLsts.flatMap (List.filter MicroOutput.groupLeader)) batchSize
      includeModelOutput result := by
  obtain ⟨recordsByRank, hrecords, hok⟩ := bind_eq_ok.mp hok
  obtain ⟨ordered, hordered, hok⟩ := bind_eq_ok.mp hok
  obtain ⟨modelOutput, hselect, hok⟩ := bind_eq_ok.mp hok
  cases hok
  obtain ⟨hflatten, hwell⟩ := flatten_localRecords hrecords
  obtain ⟨hperm, hids⟩ := orderRecords_eq_ok hordered
  rw [hflatten] at hperm hids
  rw [List.flatMap_map] at hids
  -- the sorted records are the records of the outputs in some order
  obtain ⟨order, rfl, horder⟩ :=
    (congrFun₂ (List.eq_map_comp_perm MicroOutput.toRecord) ordered _).mpr hperm
  have hwellOrder : ∀ output ∈ order, output.WellFormed :=
    fun output houtput => hwell output (horder.mem_iff.mp houtput)
  have hsamples : List.Perm (order.flatMap MicroOutput.sampleIds)
      ((List.range batchSize).map Int.ofNat) := (horder.flatMap_right _).trans hids
  constructor
  · refine ⟨order, horder, ?_, ?_⟩
    · exact List.filterMap_map
    · exact List.foldl_map
  · exact hids
  · intro key
    cases includeModelOutput with
    | false =>
        cases hselect
        simp
    | true =>
        rw [(get?_restoreOutputs hselect).1, mem_keys_foldl_addRecord]
        simp only [List.mem_map, exists_exists_and_eq_and, horder.mem_iff, true_and,
          MicroOutput.toRecord, Dict.keys_map]
  · intro key values hvalues
    cases includeModelOutput with
    | false =>
        cases hselect
        simp at hvalues
    | true =>
        refine ⟨((get?_restoreOutputs hselect).2 key values hvalues).1, ?_⟩
        intro output houtput place sample hplace
        exact restored_of_restoreOutputs hwellOrder hsamples hselect hvalues
          (horder.mem_iff.mpr houtput) hplace

end OneShotOPD.DynamicCp
