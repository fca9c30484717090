import OneShotOPD.AgentLoop.ToolAgentLoop
import Mathlib

/-!
# The output of the tool agent loop

While the loop runs, the token stream is the prompt followed by the response, and
the mask is that of the response.  At the end the response is cut off by the
length of the mask, which finds it as long as the mask is not empty.
-/

namespace OneShotOPD.AgentLoop

open Checks ContinuousToken Segments

variable {ℓ : Type} [Zero ℓ]

/-- The stream of a trajectory with its metadata.  The log-probabilities are known
to be aligned when every generation returned them. -/
structure Consistent (data : AgentData ℓ) (response : List (ℕ × Origin ℓ)) : Prop where
  aligned : Aligned data.initialPrompt (data.runtime none) response
  logprobs_eq : data.allReturned → data.responseLogprobs = response.map fun token =>
    token.2.logprob

theorem Consistent.mask_ne_nil_iff {data : AgentData ℓ} {response : List (ℕ × Origin ℓ)}
    (hconsistent : Consistent data response) : data.responseMask ≠ [] ↔ response ≠ [] := by
  have hmask : data.responseMask = response.map fun token => token.2.mask :=
    hconsistent.aligned.mask_eq
  rw [hmask, Ne, List.map_eq_nil_iff]

/-- What holds of the data in a state of the loop. -/
def Holds : AgentState → AgentData ℓ → Prop
  | .pending, data => data.responseMask = [] ∧ data.responseLogprobs = []
  | .generating, data => ∃ response, Consistent data response
  | _, data => ∃ response, Consistent data response ∧ response ≠ []

theorem holds_handlePendingState {config : LoopConfig} {data next : AgentData ℓ}
    {state : AgentState} (hdata : Holds .pending data)
    (hstep : handlePendingState config data = .ok (state, next)) : Holds state next := by
  obtain ⟨promptIds, -, hstep⟩ := bind_eq_ok.mp hstep
  cases hstep
  refine ⟨[], ⟨by simp [AgentData.runtime], by simp [AgentData.runtime], hdata.1⟩, fun _ => ?_⟩
  exact hdata.2

/-- A continuous-token merge, taken over into the data. -/
theorem Consistent.absorb {data : AgentData ℓ} {response extended : List (ℕ × Origin ℓ)}
    {runtime : Runtime ℓ} {logprobs : Option (List ℓ)}
    (haligned : Aligned data.initialPrompt runtime extended)
    (hafter : LogprobsAligned (data.runtime logprobs) response →
      LogprobsAligned runtime extended)
    (hsome : runtime.responseLogprobs.isSome = logprobs.isSome)
    (hlogprobs : data.allReturned →
      (∀ before ∈ logprobs, before = response.map fun token => token.2.logprob) ∧
        (logprobs = none → data.responseLogprobs = extended.map fun token =>
          token.2.logprob)) :
    Consistent (data.absorb runtime) extended where
  aligned := ⟨haligned.tokenIds_eq, haligned.origins_eq, haligned.mask_eq⟩
  logprobs_eq := by
    intro hreturned
    obtain ⟨hbefore, hnone⟩ := hlogprobs hreturned
    cases hruntime : runtime.responseLogprobs with
    | none =>
        rw [hruntime] at hsome
        have hlogprobsNone : logprobs = none := by
          rw [← Option.not_isSome_iff_eq_none, ← hsome]
          simp
        simpa [AgentData.absorb, hruntime] using hnone hlogprobsNone
    | some after =>
        have halignedAfter := hafter hbefore after hruntime
        simpa [AgentData.absorb, hruntime] using halignedAfter

omit [Zero ℓ] in
theorem length_origins (output : TokenOutput ℓ) :
    output.origins.length = output.tokenIds.length := by
  unfold TokenOutput.origins
  split
  next hreturned =>
    simpa [TokenOutput.returned, Origin.ofAssistant] using hreturned
  next => simp [Origin.ofAssistant]

omit [Zero ℓ] in
theorem map_mask_origins (output : TokenOutput ℓ) :
    output.origins.map Origin.mask = List.replicate output.tokenIds.length 1 := by
  have hlength := length_origins output
  unfold TokenOutput.origins at hlength ⊢
  split at hlength
  next hreturned => rw [if_pos hreturned, map_mask_ofAssistant hlength]
  next hreturned => rw [if_neg hreturned, map_mask_ofAssistant hlength]

omit [Zero ℓ] in
theorem getD_givenLogProbs (output : TokenOutput ℓ) :
    output.givenLogProbs.getD [] = output.logProbs.getD [] := by
  rw [TokenOutput.givenLogProbs]
  cases output.logProbs with
  | none => rfl
  | some logProbs => cases logProbs <;> rfl

theorem map_logprob_zip {tokenIds : List ℕ} {origins : List (Origin ℓ)}
    (hlength : origins.length = tokenIds.length) :
    (tokenIds.zip origins).map (fun token => token.2.logprob) =
      origins.map Origin.logprob := by
  have hsnd := List.map_snd_zip hlength.le
  calc (tokenIds.zip origins).map (fun token => token.2.logprob)
      = ((tokenIds.zip origins).map Prod.snd).map Origin.logprob := by
        rw [List.map_map]
        rfl
    _ = origins.map Origin.logprob := by rw [hsnd]

/-- A generation extends the response by its tokens. -/
theorem Consistent.generate {config : LoopConfig} {data next : AgentData ℓ}
    {response : List (ℕ × Origin ℓ)} {output : TokenOutput ℓ}
    (hgenerate : data.generate config output = .ok next)
    (haligned : Aligned data.initialPrompt (data.runtime none) response)
    (hlogprobs : data.allReturned → output.returned ∧
      data.responseLogprobs = response.map fun token => token.2.logprob) :
    ∃ extended, Consistent next extended ∧
      extended.length = response.length + output.tokenIds.length := by
  unfold AgentData.generate at hgenerate
  split at hgenerate
  next =>
    obtain ⟨runtime, hmerge, hgenerate⟩ := bind_eq_ok.mp hgenerate
    cases hgenerate
    have hruntime : Aligned data.initialPrompt (data.runtime
        (if (!data.responseLogprobs.isEmpty || output.givenLogProbs.isSome) = true
          then some data.responseLogprobs else none)) response :=
      ⟨haligned.tokenIds_eq, haligned.origins_eq, haligned.mask_eq⟩
    obtain ⟨extended, hextended, hafter, hsome, hlength⟩ := hruntime.mergeAssistant hmerge
    refine ⟨extended, Consistent.absorb hextended hafter hsome fun hreturned => ?_, hlength⟩
    obtain ⟨houtput, hdata⟩ := hlogprobs hreturned
    constructor
    · intro before hbefore
      split at hbefore
      next => rw [← Option.some.inj hbefore, hdata]
      next => contradiction
    · intro hnone
      split at hnone
      next => contradiction
      next hknown =>
        -- nothing was known and nothing came: there are no tokens at all
        simp only [Bool.or_eq_true, Bool.not_eq_true', not_or, Bool.not_eq_false,
          List.isEmpty_iff, Option.not_isSome_iff_eq_none] at hknown
        have hgiven := getD_givenLogProbs output
        rw [hknown.2, Option.getD_none] at hgiven
        have htokens : output.tokenIds = [] := by
          rw [TokenOutput.returned, ← hgiven] at houtput
          exact List.eq_nil_of_length_eq_zero (beq_iff_eq.mp houtput).symm
        have hresponse : response = [] := by
          rw [hknown.1] at hdata
          simpa using hdata.symm
        have hempty : extended = [] := by
          apply List.eq_nil_of_length_eq_zero
          rw [hlength, hresponse, htokens]
          rfl
        rw [hknown.1, hempty, List.map_nil]
  next =>
    rw [Except.ok.injEq] at hgenerate
    subst hgenerate
    have horigins := length_origins output
    refine ⟨response ++ output.tokenIds.zip output.origins, ⟨?_, fun hreturned => ?_⟩, ?_⟩
    · have happend := haligned.append horigins
      rw [map_mask_origins] at happend
      exact happend
    · obtain ⟨houtput, hdata⟩ := hlogprobs hreturned
      have hgiven : output.givenLogProbs.getD [] = output.origins.map Origin.logprob := by
        rw [getD_givenLogProbs, TokenOutput.origins, if_pos houtput]
        simp [Origin.ofAssistant, Function.comp_def, Origin.logprob]
      simp only [hdata, hgiven, List.map_append, map_logprob_zip horigins]
    · rw [List.length_append, List.length_zip, horigins, Nat.min_self]

theorem holds_handleGeneratingState {config : LoopConfig} {data next : AgentData ℓ}
    {state : AgentState} {output : TokenOutput ℓ} {content : String} {calls : List FunctionCall}
    (hdata : Holds .generating data) (hallowed : data.responseMask ≠ [] ∨ output.tokenIds ≠ [])
    (hstep : handleGeneratingState config data output content calls = .ok (state, next)) :
    Holds state next := by
  obtain ⟨response, hconsistent⟩ := hdata
  obtain ⟨generated, hgenerate, hstep⟩ := bind_eq_ok.mp hstep
  obtain ⟨extended, hextended, hlength⟩ := Consistent.generate hgenerate
    hconsistent.aligned fun hreturned => by
      rw [Bool.and_eq_true] at hreturned
      exact ⟨hreturned.2, hconsistent.logprobs_eq hreturned.1⟩
  have hne : extended ≠ [] := by
    apply List.ne_nil_of_length_pos
    rw [hlength]
    rcases hallowed with hmask | htokens
    · exact Nat.add_pos_left (List.length_pos_of_ne_nil (hconsistent.mask_ne_nil_iff.mp hmask)) _
    · exact Nat.add_pos_right _ (List.length_pos_of_ne_nil htokens)
  split at hstep
  next =>
    cases hstep
    exact ⟨extended, hextended, hne⟩
  next =>
    split at hstep
    next =>
      cases hstep
      exact ⟨extended, hextended, hne⟩
    next =>
      split at hstep
      next =>
        cases hstep
        exact ⟨extended, hextended, hne⟩
      next =>
        obtain ⟨messages, -, hstep⟩ := bind_eq_ok.mp hstep
        cases hstep
        have hnext : Consistent { generated with messages, toolCalls := calls } extended :=
          ⟨hextended.aligned, hextended.logprobs_eq⟩
        split
        next => exact ⟨extended, hnext, hne⟩
        next => exact ⟨extended, hnext, hne⟩

theorem Consistent.logprobs_isEmpty {data : AgentData ℓ} {response : List (ℕ × Origin ℓ)}
    (hconsistent : Consistent data response) (hne : response ≠ []) (hreturned : data.allReturned) :
    data.responseLogprobs.isEmpty = false := by
  rw [hconsistent.logprobs_eq hreturned]
  simpa using hne

theorem Consistent.mergeToolMessages {setup : Setup} {data next : AgentData ℓ}
    {response : List (ℕ × Origin ℓ)} (hconsistent : Consistent data response)
    (hne : response ≠ []) {messages : List Message} {state : AgentState}
    (hstep : data.mergeToolMessages setup messages = .ok (state, next)) : Holds state next := by
  obtain ⟨mergeResult, hresult, hstep⟩ := bind_eq_ok.mp hstep
  obtain ⟨runtime, hmerge, hstep⟩ := bind_eq_ok.mp hstep
  have hruntime : Aligned data.initialPrompt (data.runtime
      (if data.responseLogprobs.isEmpty = true then none else some data.responseLogprobs))
      response :=
    ⟨hconsistent.aligned.tokenIds_eq, hconsistent.aligned.origins_eq,
      hconsistent.aligned.mask_eq⟩
  obtain ⟨extended, hextended, hafter, hsome⟩ :=
    hruntime.mergeNonAssistant (.inl hne) hresult hmerge
  split at hstep
  next =>
    cases hstep
    exact ⟨response, ⟨hconsistent.aligned, hconsistent.logprobs_eq⟩, hne⟩
  next =>
    cases hstep
    have habsorb : Consistent (data.absorb runtime) extended := by
      apply Consistent.absorb hextended hafter hsome
      intro hreturned
      rw [hconsistent.logprobs_isEmpty hne hreturned]
      refine ⟨fun before hbefore => ?_, fun hnone => by contradiction⟩
      rw [← Option.some.inj hbefore, hconsistent.logprobs_eq hreturned]
    exact ⟨extended, habsorb.aligned, habsorb.logprobs_eq⟩

theorem Consistent.appendToolTokens {data : AgentData ℓ} {response : List (ℕ × Origin ℓ)}
    (hconsistent : Consistent data response) (hne : response ≠ []) (messages : List Message)
    (newImages : Bool) (responseIds : List ℕ) :
    Holds (data.appendToolTokens messages newImages responseIds).1
      (data.appendToolTokens messages newImages responseIds).2 := by
  unfold AgentData.appendToolTokens
  split
  next => exact ⟨response, ⟨hconsistent.aligned, hconsistent.logprobs_eq⟩, hne⟩
  next =>
    have hlength : (List.replicate responseIds.length (Origin.inserted : Origin ℓ)).length =
        responseIds.length := List.length_replicate
    refine ⟨response ++ responseIds.zip (List.replicate responseIds.length .inserted),
      ?_, fun hreturned => ?_⟩
    · have happend := hconsistent.aligned.append hlength
      rw [List.map_replicate] at happend
      exact happend
    · have hnonempty := hconsistent.logprobs_isEmpty hne hreturned
      have hlogprobs := hconsistent.logprobs_eq hreturned
      simp only [hnonempty, Bool.false_eq_true, if_false]
      rw [hlogprobs, List.map_append, map_logprob_zip hlength, List.map_replicate]
      rfl

theorem holds_handleProcessingToolsState {config : LoopConfig} {data next : AgentData ℓ}
    {state : AgentState} {callTool : ℕ → ToolResponse} (hdata : Holds .processingTools data)
    (hstep : handleProcessingToolsState config data callTool = .ok (state, next)) :
    Holds state next := by
  obtain ⟨response, hconsistent, hne⟩ := hdata
  obtain ⟨addMessages, -, hstep⟩ := bind_eq_ok.mp hstep
  simp only at hstep
  split at hstep
  next => exact hconsistent.mergeToolMessages hne hstep
  next =>
    obtain ⟨responseIds, -, hstep⟩ := bind_eq_ok.mp hstep
    have happend := hconsistent.appendToolTokens hne (data.messages ++ addMessages)
      ((data.toolCalls.take config.maxParallelCalls).zipIdx.any fun entry =>
        (callTool entry.2).image) responseIds
    rw [Except.ok.inj hstep] at happend
    exact happend

theorem LoopRun.holds {config : LoopConfig} {start data : AgentData ℓ} {state : AgentState}
    (hstart : Holds .pending start)
    (hrun : LoopRun config (fun data output => data.responseMask ≠ [] ∨ output.tokenIds ≠ [])
      start state data) : Holds state data := by
  induction hrun with
  | pending => exact hstart
  | render _ hstep ih => exact holds_handlePendingState ih hstep
  | generate output content calls _ hallowed hstep ih =>
      exact holds_handleGeneratingState ih hallowed hstep
  | callTools callTool _ hstep ih => exact holds_handleProcessingToolsState ih hstep

/-- What the output is to be: the prompt that was rendered, a piece of the stream
behind it within the budget, the mask of the origins of this piece, and beside its
generated tokens their log-probabilities when every generation returned them. -/
structure OutputAligned (data : AgentData ℓ) (output : AgentLoopOutput ℓ) : Prop where
  promptIds_eq : output.promptIds = data.initialPrompt
  isPrefix : (output.promptIds ++ output.responseIds) <+: data.promptIds
  length_eq : output.responseMask.length = output.responseIds.length
  length_le : output.responseIds.length ≤ data.responseLength
  mask_eq : output.responseMask = ((data.origins.drop data.initialPrompt.length).take
    output.responseIds.length).map Origin.mask
  logprobs : data.allReturned → ∃ logprobs, output.responseLogprobs = some logprobs ∧
    logprobs.length = output.responseIds.length ∧
    ∀ (index : ℕ) (logprob : ℓ), ((data.origins.drop data.initialPrompt.length).take
        output.responseIds.length)[index]? = some (Origin.generated (some logprob)) →
      logprobs[index]? = some logprob

/-- A mask that is not empty finds the response at the end of the stream. -/
theorem Consistent.outputAligned {data : AgentData ℓ} {response : List (ℕ × Origin ℓ)}
    (hconsistent : Consistent data response) (hne : response ≠ []) :
    OutputAligned data data.output := by
  have htokens : data.promptIds = data.initialPrompt ++ response.map Prod.fst :=
    hconsistent.aligned.tokenIds_eq
  have hmask : data.responseMask = response.map fun token => token.2.mask :=
    hconsistent.aligned.mask_eq
  have horigins : data.origins.drop data.initialPrompt.length = response.map Prod.snd := by
    have heq : data.origins = List.replicate data.initialPrompt.length .prompt ++
        response.map Prod.snd := hconsistent.aligned.origins_eq
    rw [heq]
    exact List.drop_left' List.length_replicate
  have hlength : data.responseMask.length = response.length := by
    rw [hmask, List.length_map]
  have hpos : response.length ≠ 0 := fun hzero => hne (List.eq_nil_of_length_eq_zero hzero)
  have hprompt : data.output.promptIds = data.initialPrompt := by
    have hcut : (data.promptIds.length : ℤ) - data.responseMask.length =
        data.initialPrompt.length := by
      rw [htokens, hlength, List.length_append, List.length_map]
      omega
    rw [AgentData.output]
    simp only
    rw [pySlice_of_le Nat.cast_zero.symm hcut, slice_zero, htokens, List.take_left]
  have hresponse : data.output.responseIds =
      (response.map Prod.fst).take data.responseLength := by
    have hlast : takeLast data.promptIds data.responseMask.length = response.map Prod.fst := by
      rw [takeLast, if_neg (by rw [hlength]; exact hpos), htokens, hlength, List.length_append,
        List.length_map, Nat.add_sub_cancel, List.drop_left]
    rw [AgentData.output]
    simp only
    rw [hlast]
  have hcount : data.output.responseIds.length = min data.responseLength response.length := by
    rw [hresponse, List.length_take, List.length_map]
  have htake : ∀ {α : Type} (f : ℕ × Origin ℓ → α), (response.map f).take
      data.output.responseIds.length = (response.map f).take data.responseLength := by
    intro α f
    rw [hcount, ← List.take_take, List.take_of_length_le (l := response.map f) (by simp)]
  constructor
  · exact hprompt
  · rw [hprompt, hresponse, htokens, List.prefix_append_right_inj]
    exact List.take_prefix _ _
  · rw [hcount, ← hlength]
    exact List.length_take
  · rw [hcount]
    exact Nat.min_le_left _ _
  · rw [horigins, htake, ← List.map_take, List.map_map, AgentData.output]
    simp only
    rw [hmask, ← List.map_take]
    rfl
  · intro hreturned
    have hlogprobs := hconsistent.logprobs_eq hreturned
    refine ⟨data.responseLogprobs.take data.responseLength, ?_, ?_, ?_⟩
    · simp [AgentData.output, hconsistent.logprobs_isEmpty hne hreturned]
    · rw [hcount, hlogprobs, List.length_take, List.length_map]
    · intro index logprob hindex
      rw [horigins, htake, ← List.map_take, List.getElem?_map, Option.map_eq_some_iff] at hindex
      obtain ⟨token, htoken, horigin⟩ := hindex
      rw [hlogprobs, ← List.map_take, List.getElem?_map, htoken, Option.map_some, horigin]
      rfl

theorem multiplyRows_of_length_eq {left right : List ℕ} (hlength : left.length = right.length) :
    multiplyRows left right = .ok (List.zipWith (· * ·) left right) := by
  unfold multiplyRows
  rw [if_pos hlength]

theorem padTokenIds_right {tokens : List ℕ} (htokens : tokens ≠ []) (padId maxLength : ℕ) :
    padTokenIds (some padId) tokens maxLength .right =
      .ok (tokens ++ List.replicate (maxLength - tokens.length) padId,
        List.replicate tokens.length 1 ++ List.replicate (maxLength - tokens.length) 0) := by
  unfold padTokenIds
  rw [if_neg htokens]

/-- Behind a padded mask stands its padding, which the attention mask removes. -/
theorem multiplyRows_padded {mask tokens maskRow : List ℕ} {padTokenId : Option ℕ}
    {maxLength : ℕ} {response paddedMask : List ℕ × List ℕ}
    (hlength : mask.length = tokens.length)
    (hresponse : padTokenIds padTokenId tokens maxLength .right = .ok response)
    (hmask : padTokenIds padTokenId mask maxLength .right = .ok paddedMask)
    (hrow : multiplyRows paddedMask.1 response.2 = .ok maskRow) :
    maskRow = mask ++ List.replicate (maxLength - mask.length) 0 := by
  have hzero : ∀ (count value : ℕ), List.zipWith (· * ·) (List.replicate count value)
      (List.replicate count 0) = List.replicate count 0 := by
    intro count value
    rw [List.zipWith_replicate, Nat.mul_zero, Nat.min_self]
  by_cases hempty : tokens = []
  · have hmaskEmpty : mask = [] := List.eq_nil_of_length_eq_zero (by rw [hlength, hempty]; rfl)
    subst hempty
    subst hmaskEmpty
    cases hresponse
    cases hmask
    rw [multiplyRows_of_length_eq (by simp), Except.ok.injEq] at hrow
    rw [← hrow, hzero]
    rfl
  · have hmaskEmpty : mask ≠ [] := by
      intro hnil
      rw [hnil] at hlength
      exact hempty (List.eq_nil_of_length_eq_zero hlength.symm)
    cases padTokenId with
    | none =>
        unfold padTokenIds at hresponse
        rw [if_neg hempty] at hresponse
        contradiction
    | some padId =>
        rw [padTokenIds_right hempty] at hresponse
        rw [padTokenIds_right hmaskEmpty] at hmask
        cases hresponse
        cases hmask
        have hones : List.zipWith (· * ·) mask (List.replicate tokens.length 1) = mask := by
          rw [← hlength]
          clear hlength hmaskEmpty hrow
          induction mask with
          | nil => rfl
          | cons entry mask ih =>
              rw [List.length_cons, List.replicate_succ, List.zipWith_cons_cons, ih,
                Nat.mul_one]
        rw [multiplyRows_of_length_eq (by simp [hlength]), Except.ok.injEq] at hrow
        rw [← hrow, List.zipWith_append (by simp [hlength]), hones, ← hlength, hzero]

/-- When no generation leaves the response empty, the output of every run is
aligned, and the padded mask is the mask with zeros behind it. -/
theorem run_outputAligned (config : LoopConfig) (messages : List Message) (hasMedia : Bool)
    (responseLength : ℕ) (data : AgentData ℓ)
    (hrun : LoopRun config (fun data output => data.responseMask ≠ [] ∨ output.tokenIds ≠ [])
      (AgentData.create messages hasMedia responseLength) .terminated data) :
    OutputAligned data data.output ∧
    ∀ (padTokenId : Option ℕ) (promptWidth responseWidth : ℕ) (padded : PaddedOutput ℓ),
      data.output.postprocess padTokenId promptWidth responseWidth = .ok padded →
        ∀ entry ∈ padded.responseMask, entry = 0 ∨ entry = 1 := by
  obtain ⟨response, hconsistent, hne⟩ := hrun.holds ⟨rfl, rfl⟩
  have haligned := hconsistent.outputAligned hne
  refine ⟨haligned, fun padTokenId promptWidth responseWidth padded hpadded entry hentry => ?_⟩
  obtain ⟨prompt, -, hpadded⟩ := bind_eq_ok.mp hpadded
  obtain ⟨row, hrow, hpadded⟩ := bind_eq_ok.mp hpadded
  obtain ⟨mask, hmask, hpadded⟩ := bind_eq_ok.mp hpadded
  obtain ⟨maskRow, hmaskRow, hpadded⟩ := bind_eq_ok.mp hpadded
  cases hpadded
  simp only at hentry
  rw [multiplyRows_padded haligned.length_eq hrow hmask hmaskRow, haligned.mask_eq] at hentry
  rcases List.mem_append.mp hentry with hmem | hmem
  · obtain ⟨origin, -, rfl⟩ := List.mem_map.mp hmem
    cases origin with
    | prompt => exact .inl rfl
    | generated logprob => exact .inr rfl
    | inserted => exact .inl rfl
  · exact .inl (List.eq_of_mem_replicate hmem)

/-- A loop without tools and without continuous tokens. -/
def plainConfig : LoopConfig where
  maxUserTurns := 0
  maxAssistantTurns := 0
  maxParallelCalls := 1
  promptLength := 8
  hasImageProcessor := false
  continuousToken := none
  toolFormat := .chatTemplate
  tokenizer := roleTokenizer
  systemPrompt := []
  turnSeparator := []
  decodesArguments _ := true

/-- A generation of two tokens, and one of none. -/
def twoTokens : TokenOutput ℕ := ⟨[7, 8], some [5, 6]⟩

def noTokens : TokenOutput ℕ := ⟨[], some []⟩

/-- The data after one generation on the prompt `[2]`. -/
def answered (output : TokenOutput ℕ) : AgentData ℕ :=
  ⟨[question], false, 3, 2 :: output.tokenIds, output.tokenIds,
    List.replicate output.tokenIds.length 1, output.logProbs.getD [], 0, 1, [],
    .prompt :: output.origins, [2], true⟩

/-- The data after a tool turn between two generations. -/
def askedTool : AgentData ℕ where
  messages := [question, toolResult]
  hasMedia := false
  responseLength := 8
  promptIds := [2, 7, 8, 1, 7, 8]
  responseIds := [7, 8]
  responseMask := [1, 1, 0, 1, 1]
  responseLogprobs := [5, 6, 0, 5, 6]
  userTurns := 1
  assistantTurns := 2
  toolCalls := []
  origins := .prompt :: (twoTokens.origins ++ .inserted :: twoTokens.origins)
  initialPrompt := [2]
  allReturned := true

theorem askedTool_outputAligned :
    OutputAligned askedTool askedTool.output ∧
    ∀ (padTokenId : Option ℕ) (promptWidth responseWidth : ℕ) (padded : PaddedOutput ℕ),
      askedTool.output.postprocess padTokenId promptWidth responseWidth = .ok padded →
        ∀ entry ∈ padded.responseMask, entry = 0 ∨ entry = 1 := by
  have hasked : LoopRun plainConfig (fun data output => data.responseMask ≠ [] ∨
      output.tokenIds ≠ []) (AgentData.create [question] false 8) .processingTools _ :=
    .generate twoTokens "" [⟨"tool", "", none⟩] (.render .pending rfl) (.inr (by decide)) rfl
  have hcalled := hasked.callTools (fun _ => ⟨some "result", false, false⟩) rfl
  exact run_outputAligned plainConfig [question] false 8 askedTool
    (hcalled.generate twoTokens "" [] (.inr (by decide)) rfl)

/-- A generation of no token makes the prompt the response, without a mask, and the
padded mask consists of padding tokens. -/
theorem noTokens_unaligned :
    ¬ ((∀ data : AgentData ℕ, LoopRun plainConfig (fun _ _ => True)
        (AgentData.create [question] false 3) .terminated data →
          OutputAligned data data.output ∧
          ∀ padded, data.output.postprocess (some 9) 1 3 = .ok padded →
            ∀ entry ∈ padded.responseMask, entry = 0 ∨ entry = 1)) := by
  intro hall
  obtain ⟨haligned, -⟩ := hall (answered noTokens)
    (.generate noTokens "" [] (.render .pending rfl) trivial rfl)
  exact absurd haligned.length_eq (by decide)

example : (answered noTokens).output.postprocess (some 9) 1 3 =
    .ok ⟨[2], [2, 9, 9], [2, 2, 9, 9], [1, 1, 0, 0], [9, 0, 0], none⟩ := rfl

end OneShotOPD.AgentLoop
