import OneShotOPD.ContinuousToken.Builder
import Mathlib

/-!
# The account of the response tokens

A trajectory alternates between turns that the model generates and messages that
are appended to them.  Every token has an origin, and the mask and the
log-probabilities are to be those of the origins of the response.  This holds as
long as no merge trims a token of the prompt, which happens when a boundary token
is dropped while the response is empty.
-/

namespace OneShotOPD.ContinuousToken

open Checks

/-- Where a token comes from; a generated one has the log-probability that the
model returned for it, if it returned any. -/
inductive Origin (ℓ : Type) where
  | prompt
  | generated (logprob : Option ℓ)
  | inserted

namespace Origin

variable {ℓ : Type}

def mask : Origin ℓ → ℕ
  | prompt => 0
  | generated _ => 1
  | inserted => 0

def logprob [Zero ℓ] : Origin ℓ → ℓ
  | prompt => 0
  | generated logprob => logprob.getD 0
  | inserted => 0

/-- The origins of the tokens of an assistant turn. -/
def ofAssistant (tokenIds : List ℕ) : Option (List ℓ) → List (Origin ℓ)
  | none => List.replicate tokenIds.length (generated none)
  | some logprobs => logprobs.map fun logprob => generated (some logprob)

end Origin

/-- The tokens of a trajectory with their metadata.  The origins are not part of
the program; they record what the metadata is about. -/
structure Runtime (ℓ : Type) where
  tokenIds : List ℕ
  responseMask : List ℕ
  responseLogprobs : Option (List ℓ)
  origins : List (Origin ℓ)

/-- What is merged next. -/
inductive Turn (ℓ : Type) where
  | assistant (tokenIds : List ℕ) (logprobs : Option (List ℓ))
  | nonAssistant (previousMessages updatedMessages : List Message)

structure Setup where
  builder : Builder
  tokenizer : Tokenizer
  allowedAppendRoles : List String

variable {ℓ : Type} [Zero ℓ]

def Runtime.start (prompt : List ℕ) (withLogprobs : Bool) : Runtime ℓ :=
  ⟨prompt, [], if withLogprobs then some [] else none, List.replicate prompt.length .prompt⟩

/-- The tokens of the runtime prefix that a merge keeps. -/
def MergeResult.keptTokenCount (mergeResult : MergeResult) : ℕ :=
  mergeResult.tokenIds.length -
    (mergeResult.insertedTokenIds.length + mergeResult.appendedTokenCount)

/-- A merge, and the metadata aligned with it. -/
def Runtime.merge (state : Runtime ℓ) (mergeResult : MergeResult)
    (appendedOrigins : List (Origin ℓ)) (assistantLogprobs : Option (List ℓ)) :
    Except String (Runtime ℓ) := do
  let (mask, logprobs) ← alignResponseMetadata mergeResult state.responseMask
    state.responseLogprobs assistantLogprobs
  return ⟨mergeResult.tokenIds, mask, logprobs,
    state.origins.take mergeResult.keptTokenCount ++
      List.replicate mergeResult.insertedTokenIds.length .inserted ++ appendedOrigins⟩

def Runtime.step (setup : Setup) (state : Runtime ℓ) : Turn ℓ → Except String (Runtime ℓ)
  | .assistant tokenIds logprobs =>
      state.merge (mergeAssistantTokens state.tokenIds tokenIds)
        (Origin.ofAssistant tokenIds logprobs) logprobs
  | .nonAssistant previousMessages updatedMessages => do
      let mergeResult ← setup.builder.mergeNonAssistantTokens setup.tokenizer
        setup.allowedAppendRoles previousMessages updatedMessages state.tokenIds
      state.merge mergeResult (List.replicate mergeResult.appendedTokenCount .inserted) none

/-- The trajectories from the prompt of some messages, by turns that are allowed. -/
inductive Run (setup : Setup) (allowed : Runtime ℓ → Turn ℓ → Prop) (prompt : List ℕ)
    (withLogprobs : Bool) : Runtime ℓ → Prop
  | start (messages : List Message)
      (hprompt : setup.builder.buildInitialTokens setup.tokenizer messages = .ok prompt) :
      Run setup allowed prompt withLogprobs (Runtime.start prompt withLogprobs)
  | step {state next : Runtime ℓ} (turn : Turn ℓ)
      (hrun : Run setup allowed prompt withLogprobs state) (hallowed : allowed state turn)
      (hstep : state.step setup turn = .ok next) : Run setup allowed prompt withLogprobs next

/-- The mask and the log-probabilities are as long as the response, the mask is 1
on the generated tokens, and beside them stand their log-probabilities. -/
structure Accounted (prompt : List ℕ) (state : Runtime ℓ) : Prop where
  length_mask : state.responseMask.length = (state.tokenIds.drop prompt.length).length
  length_logprobs : ∀ logprobs ∈ state.responseLogprobs,
    logprobs.length = (state.tokenIds.drop prompt.length).length
  mask_eq : state.responseMask = (state.origins.drop prompt.length).map Origin.mask
  logprob_eq : ∀ logprobs ∈ state.responseLogprobs, ∀ (index : ℕ) (logprob : ℓ),
    (state.origins.drop prompt.length)[index]? = some (Origin.generated (some logprob)) →
      logprobs[index]? = some logprob

/-- The builder would drop the last token. -/
def Builder.Trims (runtimeTokenIds : List ℕ) : Builder → Prop
  | glm observationId userId =>
      ∃ last ∈ runtimeTokenIds.getLast?, last ∈ ambiguousBoundaryIds observationId userId
  | _ => False

/-- No trim falls on an empty response. -/
def KeepsPrompt (builder : Builder) (state : Runtime ℓ) : Turn ℓ → Prop
  | .assistant _ _ => True
  | .nonAssistant _ _ => state.responseMask ≠ [] ∨ ¬ builder.Trims state.tokenIds

theorem trimEnd_append {α : Type} (first second : List α) {count : ℕ}
    (hcount : count ≤ second.length) :
    trimEnd (first ++ second) count = first ++ trimEnd second count := by
  have hlength : (first ++ second).length - count = first.length + (second.length - count) := by
    rw [List.length_append]
    omega
  rw [trimEnd, hlength, List.take_length_add_append, trimEnd]

theorem map_trimEnd {α β : Type} (f : α → β) (items : List α) (count : ℕ) :
    (trimEnd items count).map f = trimEnd (items.map f) count := by
  rw [trimEnd, trimEnd, List.map_take, List.length_map]

@[simp]
theorem trimEnd_zero {α : Type} (items : List α) : trimEnd items 0 = items := by
  simp [trimEnd]

/-- What a merge does to the tokens, whatever the family: it trims, inserts and
appends, and reports the counts. -/
structure MergeResult.Joins (runtimeTokenIds appendedTokenIds : List ℕ)
    (mergeResult : MergeResult) : Prop where
  tokenIds_eq : mergeResult.tokenIds =
    trimEnd runtimeTokenIds mergeResult.removedPrefixTokenCount ++
      mergeResult.insertedTokenIds ++ appendedTokenIds
  count_eq : mergeResult.appendedTokenCount = appendedTokenIds.length
  removed_le : mergeResult.removedPrefixTokenCount ≤ 1

theorem joins_mergeAssistantTokens (runtimeTokenIds assistantTokenIds : List ℕ) :
    (mergeAssistantTokens runtimeTokenIds assistantTokenIds).Joins runtimeTokenIds
      assistantTokenIds :=
  ⟨by simp [mergeAssistantTokens], rfl, Nat.zero_le 1⟩

theorem joins_mergeInserting (insert : Bool) (insertedId : ℕ)
    (runtimeTokenIds appendedTokenIds : List ℕ) :
    (mergeInserting insert insertedId runtimeTokenIds appendedTokenIds).Joins runtimeTokenIds
      appendedTokenIds :=
  ⟨by simp [mergeInserting], rfl, Nat.zero_le 1⟩

theorem joins_base (runtimeTokenIds appendedTokenIds : List ℕ) :
    (baseMergeNonAssistantTokenIds runtimeTokenIds appendedTokenIds).Joins runtimeTokenIds
      appendedTokenIds :=
  ⟨by simp [baseMergeNonAssistantTokenIds], rfl, Nat.zero_le 1⟩

/-- Every builder joins the tokens, and removes some only where it trims. -/
theorem Builder.joins (builder : Builder) (appendedMessages : List Message)
    (runtimeTokenIds appendedTokenIds : List ℕ) :
    (builder.mergeNonAssistantTokenIds appendedMessages runtimeTokenIds appendedTokenIds).Joins
        runtimeTokenIds appendedTokenIds ∧
      (builder.mergeNonAssistantTokenIds appendedMessages runtimeTokenIds
        appendedTokenIds).kind = .nonAssistant ∧
      (¬ builder.Trims runtimeTokenIds →
        (builder.mergeNonAssistantTokenIds appendedMessages runtimeTokenIds
          appendedTokenIds).removedPrefixTokenCount = 0) := by
  cases builder with
  | base => exact ⟨joins_base _ _, rfl, fun _ => rfl⟩
  | gptOss => exact ⟨joins_base _ _, rfl, fun _ => rfl⟩
  | qwen newlineId imEndId => exact ⟨joins_mergeInserting _ _ _ _, rfl, fun _ => rfl⟩
  | miniMax newlineId eosId => exact ⟨joins_mergeInserting _ _ _ _, rfl, fun _ => rfl⟩
  | glm observationId userId =>
      rw [Builder.mergeNonAssistantTokenIds, glmMergeNonAssistantTokenIds, Builder.Trims]
      split
      next htrim =>
        exact ⟨⟨by simp [trimEnd, List.dropLast_eq_take], rfl, Nat.le_refl 1⟩, rfl,
          fun hkeep => absurd htrim hkeep⟩
      next => exact ⟨joins_base _ _, rfl, fun _ => rfl⟩
  | gemma4 toolResponseId => exact ⟨joins_mergeInserting _ _ _ _, rfl, fun _ => rfl⟩
  | deepSeekV4 eosId => exact ⟨joins_mergeInserting _ _ _ _, rfl, fun _ => rfl⟩

/-- The tokens after the prompt, with their origins, and the mask of these. -/
structure Aligned (prompt : List ℕ) (state : Runtime ℓ) (response : List (ℕ × Origin ℓ)) :
    Prop where
  tokenIds_eq : state.tokenIds = prompt ++ response.map Prod.fst
  origins_eq : state.origins =
    List.replicate prompt.length .prompt ++ response.map Prod.snd
  mask_eq : state.responseMask = response.map fun token => token.2.mask

/-- The log-probabilities are those of the origins. -/
def LogprobsAligned (state : Runtime ℓ) (response : List (ℕ × Origin ℓ)) : Prop :=
  ∀ logprobs ∈ state.responseLogprobs, logprobs = response.map fun token => token.2.logprob

theorem Aligned.accounted {prompt : List ℕ} {state : Runtime ℓ}
    {response : List (ℕ × Origin ℓ)} (haligned : Aligned prompt state response)
    (hlogprobs : LogprobsAligned state response) : Accounted prompt state := by
  have htokens : (state.tokenIds.drop prompt.length).length = response.length := by
    rw [haligned.tokenIds_eq, List.drop_left, List.length_map]
  have horigins : state.origins.drop prompt.length = response.map Prod.snd := by
    rw [haligned.origins_eq]
    exact List.drop_left' List.length_replicate
  constructor
  · rw [haligned.mask_eq, htokens, List.length_map]
  · intro logprobs hmem
    rw [hlogprobs logprobs hmem, htokens, List.length_map]
  · rw [haligned.mask_eq, horigins, List.map_map]
    rfl
  · intro logprobs hmem index logprob hindex
    rw [horigins, List.getElem?_map, Option.map_eq_some_iff] at hindex
    obtain ⟨token, htoken, horigin⟩ := hindex
    rw [hlogprobs logprobs hmem, List.getElem?_map, htoken, Option.map_some,
      horigin]
    rfl

/-- The metadata of new tokens of the given origins, behind the trimmed old one. -/
def Extends (mergeResult : MergeResult) (appendedOrigins : List (Origin ℓ))
    (responseMask mask : List ℕ) (responseLogprobs logprobs : Option (List ℓ)) : Prop :=
  appendedOrigins.length = mergeResult.appendedTokenCount ∧
  mask = trimEnd responseMask mergeResult.removedPrefixTokenCount ++
    List.replicate mergeResult.insertedTokenIds.length 0 ++ appendedOrigins.map Origin.mask ∧
  logprobs = responseLogprobs.map fun before =>
    trimEnd before mergeResult.removedPrefixTokenCount ++
      List.replicate mergeResult.insertedTokenIds.length 0 ++
        appendedOrigins.map Origin.logprob

theorem extends_of_nonAssistant {mergeResult : MergeResult} {responseMask mask : List ℕ}
    {responseLogprobs logprobs : Option (List ℓ)} (hkind : mergeResult.kind = .nonAssistant)
    (hok : alignResponseMetadata mergeResult responseMask responseLogprobs none =
      .ok (mask, logprobs)) :
    Extends mergeResult (List.replicate mergeResult.appendedTokenCount .inserted) responseMask
      mask responseLogprobs logprobs := by
  rw [alignResponseMetadata, if_neg (by simp), hkind] at hok
  simp only [Except.ok.injEq, Prod.mk.injEq] at hok
  obtain ⟨rfl, rfl⟩ := hok
  refine ⟨List.length_replicate, ?_, ?_⟩
  · rw [List.map_replicate]
    rfl
  · rw [Option.map_map, List.map_replicate]
    rfl

theorem appendedLogprobs_eq_ok {tokenIds : List ℕ} {assistantLogprobs : Option (List ℓ)}
    {appended : List ℓ} (hok : appendedLogprobs tokenIds.length assistantLogprobs = .ok appended) :
    (Origin.ofAssistant tokenIds assistantLogprobs).length = tokenIds.length ∧
      appended = (Origin.ofAssistant tokenIds assistantLogprobs).map Origin.logprob := by
  unfold appendedLogprobs at hok
  split at hok
  next => contradiction
  next hnone =>
    split at hok
    next => contradiction
    next hlength =>
      rw [Except.ok.injEq] at hok
      subst hok
      rw [not_not] at hlength
      cases assistantLogprobs with
      | none =>
          have hempty : tokenIds.length = 0 := by simpa using hnone
          simp [Origin.ofAssistant, hempty]
      | some logprobs =>
          have hcount : logprobs.length = tokenIds.length := by simpa using hlength
          simp [Origin.ofAssistant, hcount, Function.comp_def, Origin.logprob]

omit [Zero ℓ] in
theorem map_mask_ofAssistant {tokenIds : List ℕ} {assistantLogprobs : Option (List ℓ)}
    (hlength : (Origin.ofAssistant tokenIds assistantLogprobs).length = tokenIds.length) :
    (Origin.ofAssistant tokenIds assistantLogprobs).map Origin.mask =
      List.replicate tokenIds.length 1 := by
  rw [List.eq_replicate_iff]
  refine ⟨by rw [List.length_map, hlength], fun mask hmask => ?_⟩
  obtain ⟨origin, horigin, rfl⟩ := List.mem_map.mp hmask
  cases assistantLogprobs with
  | none => rw [List.eq_of_mem_replicate horigin, Origin.mask]
  | some logprobs =>
      obtain ⟨logprob, -, rfl⟩ := List.mem_map.mp horigin
      rfl

theorem extends_of_assistant {mergeResult : MergeResult} {tokenIds responseMask mask : List ℕ}
    {responseLogprobs logprobs assistantLogprobs : Option (List ℓ)}
    (hkind : mergeResult.kind = .assistant)
    (hcount : mergeResult.appendedTokenCount = tokenIds.length)
    (hok : alignResponseMetadata mergeResult responseMask responseLogprobs assistantLogprobs =
      .ok (mask, logprobs)) :
    Extends mergeResult (Origin.ofAssistant tokenIds assistantLogprobs) responseMask mask
      responseLogprobs logprobs := by
  unfold alignResponseMetadata at hok
  split at hok
  next => contradiction
  next hboth =>
    rw [hkind] at hok
    cases responseLogprobs with
    | none =>
        cases assistantLogprobs with
        | some logprobs => simp at hboth
        | none =>
            cases hok
            have hlength : (Origin.ofAssistant tokenIds (none : Option (List ℓ))).length =
                tokenIds.length := List.length_replicate
            refine ⟨hlength.trans hcount.symm, ?_, rfl⟩
            rw [map_mask_ofAssistant hlength, hcount]
    | some before =>
        obtain ⟨appended, happended, hok⟩ := bind_eq_ok.mp hok
        cases hok
        rw [hcount] at happended
        obtain ⟨hlength, rfl⟩ := appendedLogprobs_eq_ok happended
        refine ⟨hlength.trans hcount.symm, ?_, rfl⟩
        rw [map_mask_ofAssistant hlength, hcount]

/-- A merge that trims nothing of the prompt keeps the response aligned. -/
theorem Aligned.merge {prompt appendedTokenIds : List ℕ} {state next : Runtime ℓ}
    {response : List (ℕ × Origin ℓ)} (haligned : Aligned prompt state response)
    {mergeResult : MergeResult} (hjoins : mergeResult.Joins state.tokenIds appendedTokenIds)
    (hremoved : mergeResult.removedPrefixTokenCount ≤ response.length)
    {appendedOrigins : List (Origin ℓ)} {assistantLogprobs : Option (List ℓ)}
    (hextends : ∀ mask logprobs,
      alignResponseMetadata mergeResult state.responseMask state.responseLogprobs
        assistantLogprobs = .ok (mask, logprobs) →
      Extends mergeResult appendedOrigins state.responseMask mask state.responseLogprobs logprobs)
    (hmerge : state.merge mergeResult appendedOrigins assistantLogprobs = .ok next) :
    ∃ extended, Aligned prompt next extended ∧
      (LogprobsAligned state response → LogprobsAligned next extended) ∧
      next.responseLogprobs.isSome = state.responseLogprobs.isSome ∧
      extended.length = response.length - mergeResult.removedPrefixTokenCount +
        mergeResult.insertedTokenIds.length + mergeResult.appendedTokenCount := by
  obtain ⟨⟨mask, logprobs⟩, halign, hmerge⟩ := bind_eq_ok.mp hmerge
  cases hmerge
  obtain ⟨hlength, hmask, hlogprobs⟩ := hextends mask logprobs halign
  let removed := mergeResult.removedPrefixTokenCount
  let inserted : List (ℕ × Origin ℓ) :=
    mergeResult.insertedTokenIds.map fun tokenId => (tokenId, .inserted)
  have hzipLength : appendedTokenIds.length = appendedOrigins.length := by
    rw [hlength, hjoins.count_eq]
  have hfst : (appendedTokenIds.zip appendedOrigins).map Prod.fst = appendedTokenIds :=
    List.map_fst_zip hzipLength.le
  have hsnd : (appendedTokenIds.zip appendedOrigins).map Prod.snd = appendedOrigins :=
    List.map_snd_zip hzipLength.ge
  have hkept : mergeResult.keptTokenCount = prompt.length + (response.length - removed) := by
    rw [MergeResult.keptTokenCount, hjoins.tokenIds_eq, hjoins.count_eq, haligned.tokenIds_eq,
      trimEnd_append _ _ (by simpa using hremoved), ← map_trimEnd]
    simp only [List.length_append, List.length_map, trimEnd, List.length_take]
    omega
  refine ⟨trimEnd response removed ++ inserted ++ appendedTokenIds.zip appendedOrigins,
    ⟨?_, ?_, ?_⟩, fun hbefore => ?_, ?_, ?_⟩
  · rw [List.map_append, List.map_append, hfst, map_trimEnd, hjoins.tokenIds_eq,
      haligned.tokenIds_eq, trimEnd_append _ _ (by simpa using hremoved)]
    simp [inserted, removed, Function.comp_def]
  · rw [List.map_append, List.map_append, hsnd, map_trimEnd]
    simp only [hkept, haligned.origins_eq]
    have htake : (List.replicate prompt.length Origin.prompt ++ response.map Prod.snd).take
        (prompt.length + (response.length - removed)) =
          List.replicate prompt.length .prompt ++ trimEnd (response.map Prod.snd) removed := by
      rw [List.take_append, trimEnd, List.length_map, List.take_of_length_le (by simp),
        List.length_replicate, Nat.add_sub_cancel_left]
    rw [htake]
    simp [inserted, Function.comp_def]
  · simp only [hmask, haligned.mask_eq]
    rw [List.map_append, List.map_append, map_trimEnd]
    have happended : (appendedTokenIds.zip appendedOrigins).map (fun token => token.2.mask) =
        appendedOrigins.map Origin.mask := by
      rw [← hsnd, List.map_map, hsnd]
      rfl
    rw [happended]
    simp [inserted, removed, Function.comp_def, Origin.mask]
  · intro after hafter
    simp only [hlogprobs, Option.mem_def, Option.map_eq_some_iff] at hafter
    obtain ⟨before, hmem, rfl⟩ := hafter
    rw [hbefore before hmem, List.map_append, List.map_append, map_trimEnd]
    have happended : (appendedTokenIds.zip appendedOrigins).map (fun token => token.2.logprob) =
        appendedOrigins.map Origin.logprob := by
      rw [← hsnd, List.map_map, hsnd]
      rfl
    rw [happended]
    simp [inserted, removed, Function.comp_def, Origin.logprob]
  · simp [hlogprobs]
  · simp only [List.length_append, List.length_zip, trimEnd, List.length_take, inserted,
      List.length_map, hlength, hjoins.count_eq]
    omega

/-- The merge of an assistant turn. -/
theorem Aligned.mergeAssistant {prompt : List ℕ} {state next : Runtime ℓ}
    {response : List (ℕ × Origin ℓ)} (haligned : Aligned prompt state response)
    {tokenIds : List ℕ} {logprobs : Option (List ℓ)}
    (hmerge : state.merge (mergeAssistantTokens state.tokenIds tokenIds)
      (Origin.ofAssistant tokenIds logprobs) logprobs = .ok next) :
    ∃ extended, Aligned prompt next extended ∧
      (LogprobsAligned state response → LogprobsAligned next extended) ∧
      next.responseLogprobs.isSome = state.responseLogprobs.isSome ∧
      extended.length = response.length + tokenIds.length :=
  haligned.merge (joins_mergeAssistantTokens state.tokenIds tokenIds) (Nat.zero_le _)
    (fun _ _ hok => extends_of_assistant rfl rfl hok) hmerge

/-- The merge of appended messages, unless it trims an empty response. -/
theorem Aligned.mergeNonAssistant {setup : Setup} {prompt : List ℕ} {state next : Runtime ℓ}
    {response : List (ℕ × Origin ℓ)} (haligned : Aligned prompt state response)
    {previousMessages updatedMessages : List Message} {mergeResult : MergeResult}
    (hkeeps : response ≠ [] ∨ ¬ setup.builder.Trims state.tokenIds)
    (hresult : setup.builder.mergeNonAssistantTokens setup.tokenizer setup.allowedAppendRoles
      previousMessages updatedMessages state.tokenIds = .ok mergeResult)
    (hmerge : state.merge mergeResult
      (List.replicate mergeResult.appendedTokenCount .inserted) none = .ok next) :
    ∃ extended, Aligned prompt next extended ∧
      (LogprobsAligned state response → LogprobsAligned next extended) ∧
      next.responseLogprobs.isSome = state.responseLogprobs.isSome := by
  obtain ⟨appendedIds, -, hresult⟩ := bind_eq_ok.mp hresult
  cases hresult
  obtain ⟨hjoins, hkind, htrims⟩ := setup.builder.joins
    (updatedMessages.drop previousMessages.length) state.tokenIds appendedIds
  have hremoved : (setup.builder.mergeNonAssistantTokenIds
      (updatedMessages.drop previousMessages.length) state.tokenIds
        appendedIds).removedPrefixTokenCount ≤ response.length := by
    rcases hkeeps with hresponse | hkeep
    · exact hjoins.removed_le.trans (List.length_pos_of_ne_nil hresponse)
    · rw [htrims hkeep]
      exact Nat.zero_le _
  obtain ⟨extended, hextended, hlogprobs, hsome, -⟩ := haligned.merge hjoins hremoved
    (fun _ _ hok => extends_of_nonAssistant hkind hok) hmerge
  exact ⟨extended, hextended, hlogprobs, hsome⟩

omit [Zero ℓ] in
/-- Tokens with their origins, appended without a merge. -/
theorem Aligned.append {prompt tokenIds : List ℕ} {state : Runtime ℓ}
    {response : List (ℕ × Origin ℓ)} (haligned : Aligned prompt state response)
    {origins : List (Origin ℓ)} (hlength : origins.length = tokenIds.length) :
    Aligned prompt ⟨state.tokenIds ++ tokenIds, state.responseMask ++ origins.map Origin.mask,
      none, state.origins ++ origins⟩ (response ++ tokenIds.zip origins) where
  tokenIds_eq := by
    rw [haligned.tokenIds_eq, List.map_append, List.map_fst_zip hlength.ge, List.append_assoc]
  origins_eq := by
    rw [haligned.origins_eq, List.map_append, List.map_snd_zip hlength.le, List.append_assoc]
  mask_eq := by
    have horigins : (tokenIds.zip origins).map (fun token => token.2.mask) =
        origins.map Origin.mask := by
      have hsnd := List.map_snd_zip hlength.le
      calc (tokenIds.zip origins).map (fun token => token.2.mask)
          = ((tokenIds.zip origins).map Prod.snd).map Origin.mask := by
            rw [List.map_map]
            rfl
        _ = origins.map Origin.mask := by rw [hsnd]
    rw [haligned.mask_eq, List.map_append, horigins]

theorem Aligned.step {setup : Setup} {prompt : List ℕ} {state next : Runtime ℓ}
    {response : List (ℕ × Origin ℓ)} (haligned : Aligned prompt state response)
    (hlogprobs : LogprobsAligned state response) {turn : Turn ℓ}
    (hkeeps : KeepsPrompt setup.builder state turn) (hstep : state.step setup turn = .ok next) :
    ∃ extended, Aligned prompt next extended ∧ LogprobsAligned next extended := by
  cases turn with
  | assistant tokenIds logprobs =>
      obtain ⟨extended, hextended, hafter, -⟩ := haligned.mergeAssistant hstep
      exact ⟨extended, hextended, hafter hlogprobs⟩
  | nonAssistant previousMessages updatedMessages =>
      obtain ⟨mergeResult, hresult, hstep⟩ := bind_eq_ok.mp hstep
      have hresponse : response ≠ [] ∨ ¬ setup.builder.Trims state.tokenIds := by
        apply hkeeps.imp_left
        rw [haligned.mask_eq]
        exact fun hmask hnil => hmask (by rw [hnil, List.map_nil])
      obtain ⟨extended, hextended, hafter, -⟩ :=
        haligned.mergeNonAssistant hresponse hresult hstep
      exact ⟨extended, hextended, hafter hlogprobs⟩

theorem Run.aligned {setup : Setup} {prompt : List ℕ} {withLogprobs : Bool} {state : Runtime ℓ}
    (hrun : Run setup (KeepsPrompt setup.builder) prompt withLogprobs state) :
    ∃ response, Aligned prompt state response ∧ LogprobsAligned state response := by
  induction hrun with
  | start messages hprompt =>
      refine ⟨[], ⟨by simp [Runtime.start], by simp [Runtime.start], rfl⟩,
        fun logprobs hlogprobs => ?_⟩
      cases withLogprobs with
      | true => exact (Option.some.inj hlogprobs).symm
      | false => simp [Runtime.start] at hlogprobs
  | step turn _ hkeeps hstep ih =>
      obtain ⟨response, haligned, hlogprobs⟩ := ih
      exact haligned.step hlogprobs hkeeps hstep

/-- As long as no trim falls on an empty response, the tokens are accounted for in
every state of every trajectory. -/
theorem run_accounted (setup : Setup) (prompt : List ℕ) (withLogprobs : Bool)
    (state : Runtime ℓ)
    (hrun : Run setup (KeepsPrompt setup.builder) prompt withLogprobs state) :
    Accounted prompt state := by
  obtain ⟨response, haligned, hlogprobs⟩ := hrun.aligned
  exact haligned.accounted hlogprobs

/-- A template that renders a message as the token of its role, and no generation
prompt. -/
def roleTokens (messages : List Message) : List ℕ :=
  messages.map fun message =>
    if message.role = "tool" then 1 else if message.role = "user" then 2
    else if message.role = "system" then 3 else 4

def roleTokenizer : Tokenizer where
  applyChatTemplate messages _ := .ok (roleTokens messages)
  encode _ := []
  convertTokensToIds token := if token = "<|observation|>" then some 1 else some 2
  encodeMessages _ messages := .ok (roleTokens messages)

def glmSetup : Setup := ⟨.glm 1 2, roleTokenizer, ["tool", "user", "system"]⟩

def question : Message := plainMessage "user" "question"

def answer : Message := plainMessage "assistant" "answer"

def toolResult : Message := plainMessage "tool" "result"

/-- A boundary token that the model generated is dropped when its tool responds. -/
theorem generatedBoundary_accounted :
    Accounted [2] (⟨[2, 7, 1], [1, 0], some [5, 0],
      [.prompt, .generated (some 5), .inserted]⟩ : Runtime ℕ) :=
  run_accounted glmSetup [2] true _
    (.step (.nonAssistant [question, answer] [question, answer, toolResult])
      (.step (.assistant [7, 1] (some [5, 6])) (.start [question] rfl) trivial rfl)
      (.inl (by decide)) rfl)

/-- After an empty generation the boundary token of the prompt is dropped, and the
mask has an entry more than the response has tokens. -/
theorem emptyGeneration_unaccounted :
    ¬ ∀ state : Runtime ℕ, Run glmSetup (fun _ _ => True) [2] true state →
      Accounted [2] state := by
  intro hall
  have haccounted := hall ⟨[1], [0], some [0], [.inserted]⟩
    (.step (.nonAssistant [question, answer] [question, answer, toolResult])
      (.step (.assistant [] (some [])) (.start [question] rfl) trivial rfl) trivial rfl)
  exact absurd haccounted.length_mask (by decide)

end OneShotOPD.ContinuousToken
