import OneShotOPD.Trainer.NoPadding
import Mathlib.Data.List.MinMax

/-!
# The response part of a forward pass

Removing the padding leaves every prompt with its response behind it, so the
outputs of the model for a response are the stretch of its sequence's outputs
that starts at the last prompt token.  This stretch is what the padded layout
and the nested layout have for the row.
-/

namespace OneShotOPD.NoPadding

open Segments SliceAssign Masked Checks

variable {batchSize : ℕ} {V β : Type}

section Rows

theorem maskedSelect_replicate_true {α : Type} (items : List α) :
    maskedSelect items (List.replicate items.length true) = items := by
  simpa using maskedSelect_append items []

theorem maskedSelect_leftPad {α : Type} (value : α) (width : ℕ) (items : List α) :
    maskedSelect (leftPad value width items)
      (leftPad false width (List.replicate items.length true)) = items := by
  have hpadding : ∀ count, maskedSelect (List.replicate count value)
      (List.replicate count false) = [] := fun count => by
    simpa using maskedSelect_append [] (List.replicate count value)
  rw [leftPad, leftPad, List.length_replicate, maskedSelect_append_append (by simp), hpadding,
    maskedSelect_replicate_true, List.nil_append]

theorem maskedSelect_padTo {α : Type} (value : α) {width : ℕ} {items : List α}
    (hwidth : items.length ≤ width) :
    maskedSelect (padTo value width items)
      (padTo false width (List.replicate items.length true)) = items := by
  have hmask := maskedSelect_append items (List.replicate (width - items.length) value)
  rw [List.length_replicate] at hmask
  rw [padTo_of_le _ hwidth, padTo_of_le _ (by simpa using hwidth), List.length_replicate, hmask]

theorem count_leftPad (width count : ℕ) :
    (leftPad false width (List.replicate count true)).count true = count := by
  simp [leftPad, List.count_replicate]

theorem count_padTo {width count : ℕ} (hcount : count ≤ width) :
    (padTo false width (List.replicate count true)).count true = count := by
  rw [padTo_of_le _ (by simpa using hcount)]
  simp [List.count_replicate]

end Rows

namespace LeftRightBatch

variable (batch : LeftRightBatch batchSize V)

/-- The mask of a row marks its prompt and its response. -/
theorem maskedSelect_maskRow {row : Row V} (hrow : row ∈ batch.rows) :
    maskedSelect (batch.inputRow row) (batch.maskRow row) = row.prompt ++ row.response := by
  have hprompt := batch.prompt_le row hrow
  rw [inputRow, maskRow, maskedSelect_append_append, maskedSelect_leftPad,
    maskedSelect_padTo _ (batch.response_le row hrow)]
  rw [length_leftPad _ hprompt, length_leftPad _ (by simpa using hprompt)]

/-- In front of the prompt width, the mask counts the prompt. -/
theorem count_take_maskRow {row : Row V} (hrow : row ∈ batch.rows) :
    ((batch.maskRow row).take batch.promptWidth).count true = row.prompt.length := by
  have hprompt := batch.prompt_le row hrow
  rw [maskRow, List.take_left' (length_leftPad _ (by simpa using hprompt)), count_leftPad]

theorem count_drop_maskRow {row : Row V} (hrow : row ∈ batch.rows) :
    ((batch.maskRow row).drop batch.promptWidth).count true = row.response.length := by
  have hprompt := batch.prompt_le row hrow
  rw [maskRow, List.drop_left' (length_leftPad _ (by simpa using hprompt)),
    count_padTo (batch.response_le row hrow)]

/-- The rows that the offsets of the mask cut out are the sequences. -/
theorem ofOffsets_inputIds
    (hoffsets : (offsets ((batch.rows.map batch.maskRow).map fun mask =>
      mask.count true)).length = batchSize + 1) :
    Jagged.ofOffsets
        (gather (nonzero (batch.rows.map batch.maskRow).flatten)
          (batch.rows.map batch.inputRow).flatten)
        (offsets ((batch.rows.map batch.maskRow).map fun mask => mask.count true)) hoffsets =
      batch.sequences := by
  have hlength : (batch.rows.map batch.inputRow).map List.length =
      (batch.rows.map batch.maskRow).map List.length := by
    rw [List.map_map, List.map_map]
    refine List.map_congr_left fun row hrow => ?_
    rw [Function.comp_apply, Function.comp_apply, batch.length_inputRow hrow,
      batch.length_maskRow hrow]
  rw [ofOffsets_gather (by rw [List.length_map, batch.length_rows]) hlength]
  apply Jagged.ext
  change List.zipWith maskedSelect (batch.rows.map batch.inputRow)
    (batch.rows.map batch.maskRow) = batch.rows.map fun row => row.prompt ++ row.response
  rw [List.zipWith_map, List.zipWith_self]
  exact List.map_congr_left fun row hrow => batch.maskedSelect_maskRow hrow

/-- The teacher's columns leave the others alone. -/
theorem rmpadTeacher_eq_ok {unpadded : Unpadded batchSize V} {data : TrainData batchSize V}
    {teacherLogprobs teacherIds : Option (Padded batchSize V)}
    {inputIds : Column batchSize V}
    (hlogprobs : data.teacherLogprobs = teacherLogprobs.map .padded)
    (hids : data.teacherIds = teacherIds.map .padded) (hinput : data.inputIds = inputIds) :
    ∃ output, rmpadTeacher unpadded data = .ok output ∧ output.inputIds = inputIds ∧
      output.prompts = data.prompts ∧ output.responses = data.responses ∧
      output.attentionMask = data.attentionMask := by
  subst hinput
  rw [rmpadTeacher, hlogprobs, hids]
  cases teacherLogprobs with
  | none => exact ⟨_, rfl, rfl, rfl, rfl, rfl⟩
  | some logprobs =>
      cases teacherIds with
      | none => exact ⟨_, rfl, rfl, rfl, rfl, rfl⟩
      | some ids => exact ⟨_, rfl, rfl, rfl, rfl, rfl⟩

/-- Removing the padding leaves the sequences, and the columns that the way back reads. -/
theorem leftRight2NoPadding_trainData (hbatch : batchSize ≠ 0) :
    ∃ data, leftRight2NoPadding batch.trainData = .ok data ∧
      data.inputIds = .nested batch.sequences ∧ data.prompts = batch.trainData.prompts ∧
      data.responses = batch.trainData.responses ∧
      data.attentionMask = batch.trainData.attentionMask := by
  have hcheck : ∀ error : String, raiseIf (batchSize = 0) error = .ok () := fun error =>
    if_neg hbatch
  simp only [leftRight2NoPadding, trainData, Column.asPadded, unpadInput, asNestedTensor, hcheck,
    bind, Except.bind, pure, Except.pure]
  exact rmpadTeacher_eq_ok rfl rfl (congrArg Column.nested (batch.ofOffsets_inputIds _))

end LeftRightBatch

section Shift

/-- The outputs for a response that does not fill its sequence lie in the sequence. -/
theorem shiftedResponse_row {outputs : Jagged batchSize β} {index : ℕ}
    (hindex : index < outputs.rows.length) {respLen : ℕ}
    (hlt : respLen < outputs.rows[index].length) :
    shiftedResponse outputs.values respLen
        (offset outputs.lengths index + outputs.rows[index].length) =
      slice (outputs.rows[index].length - respLen - 1) (outputs.rows[index].length - 1)
        outputs.rows[index] := by
  have hstart : ((offset outputs.lengths index + outputs.rows[index].length : ℕ) : ℤ) -
      respLen - 1 =
        (offset outputs.lengths index + (outputs.rows[index].length - respLen - 1) : ℕ) := by
    push_cast
    omega
  have hstop : ((offset outputs.lengths index + outputs.rows[index].length : ℕ) : ℤ) - 1 =
      (offset outputs.lengths index + (outputs.rows[index].length - 1) : ℕ) := by
    push_cast
    omega
  rw [shiftedResponse, pySlice_of_le hstart hstop]
  exact slice_offset hindex (Nat.sub_le _ _)

end Shift

namespace LeftRightBatch

variable (batch : LeftRightBatch batchSize V) (predict : ℕ → ℕ → β)

theorem lengths_modelOutput (inputIds : Jagged batchSize V) :
    (modelOutput predict inputIds).lengths = inputIds.lengths := by
  apply List.ext_getElem
  · simp
  · intro index hleft hright
    simp [Jagged.lengths, modelOutput]

theorem lengths_sequences :
    batch.sequences.lengths =
      batch.rows.map fun row => row.prompt.length + row.response.length := by
  simp [Jagged.lengths, sequences]

theorem lengths_nestedMask :
    batch.nestedMask.lengths = batch.rows.map fun row => row.response.length := by
  simp [Jagged.lengths, nestedMask, Row.length_mask]

/-- The shifted stretch of a sequence has the outputs for its response. -/
theorem slice_outputs (predictRow : ℕ → β) {promptLen respLen : ℕ} (hpos : 0 < promptLen) :
    slice (promptLen + respLen - respLen - 1) (promptLen + respLen - 1)
        ((List.range (promptLen + respLen)).map predictRow) =
      (List.range respLen).map fun j => predictRow (promptLen + j - 1) := by
  apply List.ext_getElem?
  intro j
  rw [getElem?_slice, List.getElem?_map, List.getElem?_map]
  by_cases hj : j < respLen
  · rw [if_pos (by omega), List.getElem?_range hj, List.getElem?_range (by omega),
      Option.map_some, Option.map_some,
      show promptLen + respLen - respLen - 1 + j = promptLen + j - 1 by omega]
  · rw [if_neg (by omega), List.getElem?_eq_none (by simpa using hj), Option.map_none]

theorem modelOutput_row {index : ℕ} (hindex : index < batch.rows.length)
    (houtput : index < (modelOutput predict batch.sequences).rows.length) :
    (modelOutput predict batch.sequences).rows[index] =
      (List.range (batch.rows[index].prompt.length + batch.rows[index].response.length)).map
        (predict index) := by
  apply List.ext_getElem
  · simp [modelOutput, sequences]
  · intro position hleft hright
    simp [modelOutput, sequences]

/-- Cut out with the shift, the model's outputs are those for the responses. -/
theorem zipWith_shiftedResponse (hprompts : ∀ row ∈ batch.rows, row.prompt ≠ []) :
    List.zipWith (shiftedResponse (modelOutput predict batch.sequences).values)
        (batch.rows.map fun row => row.response.length)
        (cumsum (modelOutput predict batch.sequences).lengths) =
      (batch.nestedResponses predict).rows := by
  apply List.ext_getElem
  · simp [batch.length_rows, (batch.nestedResponses predict).length_rows]
  · intro index hleft hright
    have hindex : index < batch.rows.length := by
      rw [batch.length_rows, ← (batch.nestedResponses predict).length_rows]
      exact hright
    have houtput : index < (modelOutput predict batch.sequences).rows.length := by
      rw [(modelOutput predict batch.sequences).length_rows, ← batch.length_rows]
      exact hindex
    have hrow := modelOutput_row batch predict hindex houtput
    have hpos := List.length_pos_iff.mpr (hprompts _ (List.getElem_mem hindex))
    have hlength : (modelOutput predict batch.sequences).rows[index].length =
        batch.rows[index].prompt.length + batch.rows[index].response.length := by
      rw [hrow, List.length_map, List.length_range]
    have hshift := shiftedResponse_row houtput
      (by omega : batch.rows[index].response.length < _)
    rw [List.getElem_zipWith, List.getElem_map, getElem_cumsum,
      List.getD_eq_getElem _ _ (by simpa [Jagged.lengths] using houtput)]
    simp only [Jagged.lengths, List.getElem_map] at hshift ⊢
    rw [hshift, hlength, hrow, slice_outputs _ hpos]
    simp [nestedResponses]

variable (zero : β)

theorem length_nestedResponses :
    (batch.nestedResponses predict).lengths =
      batch.rows.map fun row => row.response.length := by
  apply List.ext_getElem
  · simp [batch.length_rows]
  · intro index hleft hright
    simp [Jagged.lengths, nestedResponses]

/-- The padded result is the nested one, filled up. -/
theorem paddedResponses_eq :
    batch.paddedResponses zero predict =
      (batch.nestedResponses predict).toPadded zero batch.responseWidth := by
  apply Padded.ext
  · rfl
  apply List.ext_getElem
  · rw [Padded.length_rows, Padded.length_rows]
  · intro index hleft hright
    have hindex : index < batch.rows.length := by
      rw [batch.length_rows, ← (batch.paddedResponses zero predict).length_rows]
      exact hleft
    have hwidth := batch.response_le _ (List.getElem_mem hindex)
    simp only [paddedResponses, nestedResponses, Jagged.toPadded, List.getElem_mapIdx,
      List.getElem_map]
    rw [padTo_of_le _ (by simpa using hwidth)]
    apply List.ext_getElem
    · simp [hwidth]
    · intro j hj hj'
      rw [List.getElem_map, List.getElem_range, List.getElem_append]
      simp

/-- What the way back reads from the masks. -/
theorem responseLayout_trainData {data : TrainData batchSize V}
    (hprompts : data.prompts = batch.trainData.prompts)
    (hresponses : data.responses = batch.trainData.responses)
    (hmask : data.attentionMask = batch.trainData.attentionMask) :
    responseLayout data = .ok {
      promptLens := batch.rows.map fun row => row.prompt.length
      responseLens := batch.rows.map fun row => row.response.length
      maxResponseLen := batch.responseWidth
      length_promptLens := by rw [List.length_map, batch.length_rows]
      length_responseLens := by rw [List.length_map, batch.length_rows] } := by
  rw [responseLayout, hprompts, hresponses, hmask]
  refine congrArg Except.ok ?_
  have hpromptLens : ((batch.rows.map batch.maskRow).map fun mask =>
      (mask.take batch.promptWidth).count true) =
        batch.rows.map fun row => row.prompt.length := by
    rw [List.map_map]
    exact List.map_congr_left fun row hrow => batch.count_take_maskRow hrow
  have hresponseLens : ((batch.rows.map batch.maskRow).map fun mask =>
      (mask.drop batch.promptWidth).count true) =
        batch.rows.map fun row => row.response.length := by
    rw [List.map_map]
    exact List.map_congr_left fun row hrow => batch.count_drop_maskRow hrow
  simp only [column, hpromptLens, hresponseLens]

theorem values_ofNested (isNested : Bool) (tensor : Jagged batchSize β) :
    (ModelOutput.ofNested isNested tensor).values = tensor.values := by
  cases isNested <;> rfl

theorem sequenceLens_eq :
    List.zipWith (· + ·) (batch.rows.map fun row => row.prompt.length)
        (batch.rows.map fun row => row.response.length) =
      (modelOutput predict batch.sequences).lengths := by
  rw [lengths_modelOutput, lengths_sequences, List.zipWith_map, List.zipWith_self]

/-- The way back succeeds unless a prompt is empty. -/
theorem noPadding2Padding_eq_ok_iff (hbatch : batchSize ≠ 0) (isNested : Bool)
    {data : TrainData batchSize V} (hprompts : data.prompts = batch.trainData.prompts)
    (hresponses : data.responses = batch.trainData.responses)
    (hmask : data.attentionMask = batch.trainData.attentionMask)
    {output : Padded batchSize β} :
    noPadding2Padding zero (.ofNested isNested (modelOutput predict batch.sequences)) data =
        .ok output ↔
      (∀ row ∈ batch.rows, row.prompt ≠ []) ∧ output = batch.paddedResponses zero predict := by
  have hlengths : (modelOutput predict batch.sequences).lengths ≠ [] := by
    rw [← List.length_pos_iff, Jagged.length_lengths]
    omega
  have htotal : (cumsum (modelOutput predict batch.sequences).lengths).getLastD 0 =
      (modelOutput predict batch.sequences).values.length := by
    rw [getLastD_cumsum _ hlengths, Jagged.length_values]
  have hrows : ∀ hprompts : ∀ row ∈ batch.rows, row.prompt ≠ [],
      List.zipWith
          (fun respLen seqOffset => padTo zero batch.responseWidth
            (shiftedResponse (modelOutput predict batch.sequences).values respLen seqOffset))
          (batch.rows.map fun row => row.response.length)
          (cumsum (modelOutput predict batch.sequences).lengths) =
        (batch.paddedResponses zero predict).rows := by
    intro hprompts
    rw [paddedResponses_eq]
    change _ = (batch.nestedResponses predict).rows.map (padTo zero batch.responseWidth)
    rw [← batch.zipWith_shiftedResponse predict hprompts, List.map_zipWith]
  rw [← sequenceLens_eq, ← values_ofNested isNested] at htotal hrows
  have hnonempty : (0 ∉ batch.rows.map fun row => row.prompt.length) ↔
      ∀ row ∈ batch.rows, row.prompt ≠ [] := by
    simp
  rw [noPadding2Padding, batch.responseLayout_trainData hprompts hresponses hmask]
  change (raiseIf _ _ >>= fun _ => raiseIf _ _ >>= fun _ => raiseIf _ _ >>= fun _ => pure _) =
    Except.ok output ↔ _
  rw [raiseIf_bind_eq_ok, raiseIf_bind_eq_ok, raiseIf_bind_eq_ok]
  constructor
  · rintro ⟨-, -, hpositive, hok⟩
    cases hok
    have hprompts := hnonempty.mp hpositive
    exact ⟨hprompts, Padded.ext rfl (hrows hprompts)⟩
  · rintro ⟨hprompts, rfl⟩
    exact ⟨hbatch, not_not.mpr htotal, hnonempty.mpr hprompts,
      congrArg Except.ok (Padded.ext rfl (hrows hprompts))⟩

theorem asNestedTensor_eq_ok {α : Type} (hbatch : batchSize ≠ 0) {rows : List (List α)}
    (hrows : rows.length = batchSize) {nested : Jagged batchSize α} (heq : rows = nested.rows) :
    asNestedTensor rows hrows = .ok nested := by
  subst heq
  exact bind_eq_ok.mpr ⟨(), raiseIf_eq_ok.mpr hbatch, rfl⟩

/-- Cutting the padded rows to their lengths undoes the padding. -/
theorem responseToNested_toPadded (hbatch : batchSize ≠ 0) (nested : Jagged batchSize β)
    {mask : Jagged batchSize Bool} (hlengths : mask.lengths = nested.lengths) {width : ℕ}
    (hwidth : ∀ row ∈ nested.rows, row.length ≤ width) :
    responseToNested (nested.toPadded zero width) mask = .ok nested := by
  refine asNestedTensor_eq_ok hbatch _ ?_
  rw [Jagged.offsets, diff_offsets, hlengths, Jagged.toPadded, Jagged.lengths, List.zipWith_map,
    List.zipWith_self]
  calc
    nested.rows.map (fun row => (padTo zero width row).take row.length) =
        nested.rows.map id :=
      List.map_congr_left fun row hrow => take_padTo zero (hwidth row hrow)
    _ = nested.rows := List.map_id _

theorem responseFromNested_modelOutput (hbatch : batchSize ≠ 0)
    (hprompts : ∀ row ∈ batch.rows, row.prompt ≠ []) :
    responseFromNested (modelOutput predict batch.sequences) batch.nestedMask =
      .ok (batch.nestedResponses predict) := by
  refine asNestedTensor_eq_ok hbatch _ ?_
  rw [Jagged.offsets, diff_offsets, lengths_nestedMask]
  exact batch.zipWith_shiftedResponse predict hprompts

/-- A forward pass returns exactly if there are rows and every row has a prompt.  It then returns
the outputs that predict the tokens of the responses, at the response positions of the padded
layout.  Cutting the nested output gives the same outputs, also after they have been padded and
made nested again. -/
theorem forwardPass_eq_ok_iff (isNested : Bool) (output : Padded batchSize β) :
    forwardPass zero predict isNested batch.trainData = .ok output ↔
      (batchSize ≠ 0 ∧ ∀ row ∈ batch.rows, row.prompt ≠ []) ∧
        output = batch.paddedResponses zero predict ∧
        ∃ nested, responseFromNested (modelOutput predict batch.sequences) batch.nestedMask =
            .ok nested ∧
          nested = batch.nestedResponses predict ∧
          responseToNested (nested.toPaddedTensor zero) batch.nestedMask = .ok nested ∧
          responseToNested output batch.nestedMask = .ok nested := by
  by_cases hbatch : batchSize = 0
  · subst hbatch
    exact ⟨nofun, fun heq => absurd rfl heq.1.1⟩
  obtain ⟨data, hdata, hids, hprompts, hresponses, hmask⟩ :=
    batch.leftRight2NoPadding_trainData hbatch
  have hpass : forwardPass zero predict isNested batch.trainData =
      noPadding2Padding zero (.ofNested isNested (modelOutput predict batch.sequences)) data := by
    rw [forwardPass, hdata]
    simp only [bind, Except.bind, hids, Column.asNested]
  rw [hpass, batch.noPadding2Padding_eq_ok_iff predict zero hbatch isNested hprompts hresponses
    hmask]
  constructor
  · rintro ⟨hnonempty, rfl⟩
    have hmasks : batch.nestedMask.lengths = (batch.nestedResponses predict).lengths := by
      rw [lengths_nestedMask, length_nestedResponses]
    refine ⟨⟨hbatch, hnonempty⟩, rfl, _,
      batch.responseFromNested_modelOutput predict hbatch hnonempty, rfl, ?_, ?_⟩
    · refine responseToNested_toPadded zero hbatch _ hmasks fun row hrow => ?_
      exact List.le_max_of_le' 0 (List.mem_map_of_mem hrow) le_rfl
    · rw [paddedResponses_eq]
      refine responseToNested_toPadded zero hbatch _ hmasks fun row hrow => ?_
      have hlength : row.length ∈ (batch.nestedResponses predict).lengths :=
        List.mem_map_of_mem hrow
      rw [length_nestedResponses] at hlength
      obtain ⟨source, hsource, heq⟩ := List.mem_map.mp hlength
      exact heq ▸ batch.response_le source hsource
  · rintro ⟨⟨-, hnonempty⟩, rfl, -⟩
    exact ⟨hnonempty, rfl⟩

end LeftRightBatch

end OneShotOPD.NoPadding
