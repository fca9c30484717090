import OneShotOPD.ContinuousToken.Messages
import Mathlib.Algebra.Group.Defs

/-!
# Continuous-token builders

A builder keeps the tokens of a conversation as they were generated and appends
the tokens of new messages.  At the junction a model family may insert a token
that ends the turn, or drop one that the new turn renders again.  The response
mask and the log-probabilities are edited afterwards, from the counts that the
merge reports.
-/

namespace OneShotOPD.ContinuousToken

open Checks

/-- The builders, with the token ids that their constructors look up. -/
inductive Builder where
  | base
  | gptOss
  | qwen (newlineId imEndId : ℕ)
  | miniMax (newlineId eosId : ℕ)
  | glm (observationId userId : ℕ)
  | gemma4 (toolResponseId : ℕ)
  | deepSeekV4 (eosId : ℕ)

inductive ModelFamily where
  | default
  | gptOss
  | qwen
  | miniMax
  | glm
  | gemma4
  | deepSeekV4

def requireTokenId (tokenizer : Tokenizer) (token : String) : Except String ℕ :=
  match tokenizer.convertTokensToIds token with
  | some tokenId => .ok tokenId
  | none => .error ("Tokenizer does not define required token " ++ token)

/-- The single token of a line break. -/
def newlineTokenId (tokenizer : Tokenizer) (family : String) : Except String ℕ :=
  match tokenizer.encode newline with
  | [newlineId] => .ok newlineId
  | _ => .error ("Expected " ++ family ++ " newline to tokenize to one token")

/-- The constructor of the builder of a family. -/
def ModelFamily.createBuilder (tokenizer : Tokenizer) : ModelFamily → Except String Builder
  | default => .ok .base
  | gptOss => .ok .gptOss
  | qwen => do
      let newlineId ← newlineTokenId tokenizer "Qwen"
      let imEndId ← requireTokenId tokenizer "<|im_end|>"
      return .qwen newlineId imEndId
  | miniMax => do
      let newlineId ← newlineTokenId tokenizer "MiniMax"
      let eosId ← requireTokenId tokenizer "[e~["
      return .miniMax newlineId eosId
  | glm => do
      let observationId ← requireTokenId tokenizer "<|observation|>"
      let userId ← requireTokenId tokenizer "<|user|>"
      return .glm observationId userId
  | gemma4 => do
      let toolResponseId ← requireTokenId tokenizer "<|tool_response>"
      return .gemma4 toolResponseId
  | deepSeekV4 => do
      let eosId ← requireTokenId tokenizer "<｜end▁of▁sentence｜>"
      return .deepSeekV4 eosId

inductive MergeKind where
  | assistant
  | nonAssistant
deriving DecidableEq

/-- The merged tokens, and the edits that the metadata has to follow. -/
structure MergeResult where
  tokenIds : List ℕ
  appendedTokenCount : ℕ
  kind : MergeKind
  insertedTokenIds : List ℕ
  removedPrefixTokenCount : ℕ

def Builder.tokenizeToolGroup (tokenizer : Tokenizer)
    (toolMessages previousMessages : List Message) :
    Builder → Except String (List ℕ)
  | gptOss => formatToolGroup gptOssFormatToolResponse tokenizer toolMessages previousMessages
  | gemma4 _ => formatToolGroup gemma4FormatToolResponse tokenizer toolMessages previousMessages
  | _ => renderDeltaTokenId tokenizer [syntheticSystemMessage, syntheticUserMessage,
      syntheticAssistantForTools toolMessages] toolMessages false

def Builder.tokenizeGenerationPromptDelta (tokenizer : Tokenizer)
    (updatedMessages : List Message) : Builder → Except String (List ℕ)
  | gemma4 _ =>
      match updatedMessages.getLast? with
      | none => .error "IndexError: list index out of range"
      | some lastMessage =>
          if lastMessage.role = "user" ∨ lastMessage.role = "system" then
            renderDeltaTokenId tokenizer
              [syntheticSystemMessage, syntheticUserMessage, lastMessage] [] true
          else .ok []
  | _ => renderDeltaTokenId tokenizer updatedMessages [] true

/-- The tokens of a group of appended messages. -/
def Builder.tokenizeGroup (builder : Builder) (tokenizer : Tokenizer)
    (previousMessages : List Message) : List Message → Except String (List ℕ)
  | [] => .error "IndexError: list index out of range"
  | message :: rest =>
      if message.role = "tool" then
        builder.tokenizeToolGroup tokenizer (message :: rest) previousMessages
      else if message.role = "user" ∨ message.role = "system" then
        if rest ≠ [] then .error "Continuous Token expects one message per append group"
        else renderDeltaTokenId tokenizer [syntheticSystemMessage, syntheticUserMessage]
          [message] false
      else .error ("Unsupported Continuous Token append role: " ++ message.role)

def Builder.tokenizeNonAssistantIncrementalMessages (builder : Builder) (tokenizer : Tokenizer)
    (allowedAppendRoles : List String) (previousMessages updatedMessages : List Message) :
    Except String (List ℕ) := do
  assertAppendOnly allowedAppendRoles previousMessages updatedMessages
  let appendedMessages := updatedMessages.drop previousMessages.length
  if appendedMessages = [] then .ok []
  else match builder with
    | deepSeekV4 _ => tokenizer.encodeMessages previousMessages appendedMessages
    | _ => do
        let groups ← (iterAppendGroups appendedMessages).mapM
          (builder.tokenizeGroup tokenizer previousMessages)
        let generationPrompt ← builder.tokenizeGenerationPromptDelta tokenizer updatedMessages
        return groups.flatten ++ generationPrompt

/-- The merge that inserts a token where the turn does, or does not, end as it
should. -/
def mergeInserting (insert : Bool) (insertedId : ℕ) (runtimeTokenIds appendedTokenIds : List ℕ) :
    MergeResult :=
  let insertedTokenIds := if insert then [insertedId] else []
  ⟨runtimeTokenIds ++ insertedTokenIds ++ appendedTokenIds, appendedTokenIds.length,
    .nonAssistant, insertedTokenIds, 0⟩

/-- `_merge_non_assistant_token_ids` of the base class. -/
def baseMergeNonAssistantTokenIds (runtimeTokenIds appendedTokenIds : List ℕ) : MergeResult :=
  ⟨runtimeTokenIds ++ appendedTokenIds, appendedTokenIds.length, .nonAssistant, [], 0⟩

/-- Generation may stop at `<|im_end|>`, and the template continues with a line
break. -/
def qwenMergeNonAssistantTokenIds (newlineId imEndId : ℕ)
    (runtimeTokenIds appendedTokenIds : List ℕ) : MergeResult :=
  mergeInserting (runtimeTokenIds.getLast? = some imEndId) newlineId runtimeTokenIds
    appendedTokenIds

def miniMaxMergeNonAssistantTokenIds (newlineId eosId : ℕ)
    (runtimeTokenIds appendedTokenIds : List ℕ) : MergeResult :=
  mergeInserting (runtimeTokenIds.getLast? = some eosId) newlineId runtimeTokenIds
    appendedTokenIds

/-- The tokens that end an assistant turn and start the next message. -/
def ambiguousBoundaryIds (observationId userId : ℕ) : List ℕ := [observationId, userId]

/-- A boundary token that generation stopped at is rendered again by the next
message, and dropped here. -/
def glmMergeNonAssistantTokenIds (observationId userId : ℕ)
    (runtimeTokenIds appendedTokenIds : List ℕ) : MergeResult :=
  if ∃ last ∈ runtimeTokenIds.getLast?, last ∈ ambiguousBoundaryIds observationId userId then
    ⟨runtimeTokenIds.dropLast ++ appendedTokenIds, appendedTokenIds.length, .nonAssistant, [], 1⟩
  else baseMergeNonAssistantTokenIds runtimeTokenIds appendedTokenIds

/-- `merge_non_assistant_tokens` of the Gemma4 builder, once the messages have
their tokens. -/
def gemma4MergeNonAssistantTokens (toolResponseId : ℕ) (appendedMessages : List Message)
    (runtimeTokenIds appendedTokenIds : List ℕ) : MergeResult :=
  mergeInserting (appendedMessages ≠ [] ∧ runtimeTokenIds.getLast? ≠ some toolResponseId)
    toolResponseId runtimeTokenIds appendedTokenIds

def deepSeekMergeNonAssistantTokenIds (eosId : ℕ) (runtimeTokenIds appendedTokenIds : List ℕ) :
    MergeResult :=
  mergeInserting (appendedTokenIds ≠ [] ∧ runtimeTokenIds.getLast? ≠ some eosId) eosId
    runtimeTokenIds appendedTokenIds

/-- The merge of appended tokens, as the family of the builder does it. -/
def Builder.mergeNonAssistantTokenIds (appendedMessages : List Message)
    (runtimeTokenIds appendedTokenIds : List ℕ) : Builder → MergeResult
  | base => baseMergeNonAssistantTokenIds runtimeTokenIds appendedTokenIds
  | gptOss => baseMergeNonAssistantTokenIds runtimeTokenIds appendedTokenIds
  | qwen newlineId imEndId =>
      qwenMergeNonAssistantTokenIds newlineId imEndId runtimeTokenIds appendedTokenIds
  | miniMax newlineId eosId =>
      miniMaxMergeNonAssistantTokenIds newlineId eosId runtimeTokenIds appendedTokenIds
  | glm observationId userId =>
      glmMergeNonAssistantTokenIds observationId userId runtimeTokenIds appendedTokenIds
  | gemma4 toolResponseId =>
      gemma4MergeNonAssistantTokens toolResponseId appendedMessages runtimeTokenIds
        appendedTokenIds
  | deepSeekV4 eosId => deepSeekMergeNonAssistantTokenIds eosId runtimeTokenIds appendedTokenIds

def Builder.buildInitialTokens (tokenizer : Tokenizer) (messages : List Message) :
    Builder → Except String (List ℕ)
  | deepSeekV4 _ => tokenizer.encodeMessages [] messages
  | _ => tokenizer.applyChatTemplate messages true

def Builder.mergeNonAssistantTokens (builder : Builder) (tokenizer : Tokenizer)
    (allowedAppendRoles : List String) (previousMessages updatedMessages : List Message)
    (runtimeTokenIds : List ℕ) : Except String MergeResult := do
  let appendedIds ← builder.tokenizeNonAssistantIncrementalMessages tokenizer allowedAppendRoles
    previousMessages updatedMessages
  return builder.mergeNonAssistantTokenIds (updatedMessages.drop previousMessages.length)
    runtimeTokenIds appendedIds

def mergeAssistantTokens (runtimeTokenIds assistantTokenIds : List ℕ) : MergeResult :=
  ⟨runtimeTokenIds ++ assistantTokenIds, assistantTokenIds.length, .assistant, [], 0⟩

variable {ℓ : Type} [Zero ℓ]

/-- `items[:-count]` for a positive count, and all items for zero. -/
def trimEnd {α : Type} (items : List α) (count : ℕ) : List α :=
  items.take (items.length - count)

/-- The log-probabilities of the appended tokens of an assistant turn. -/
def appendedLogprobs (appendedTokenCount : ℕ) (assistantLogprobs : Option (List ℓ)) :
    Except String (List ℓ) :=
  if assistantLogprobs.isNone ∧ appendedTokenCount ≠ 0 then
    .error "assistant_logprobs is required for assistant Continuous Token alignment"
  else if (assistantLogprobs.getD []).length ≠ appendedTokenCount then
    .error "assistant_logprobs length must match appended assistant token count"
  else .ok (assistantLogprobs.getD [])

def alignResponseMetadata (mergeResult : MergeResult) (responseMask : List ℕ)
    (responseLogprobs assistantLogprobs : Option (List ℓ)) :
    Except String (List ℕ × Option (List ℓ)) :=
  if responseLogprobs.isNone ∧ assistantLogprobs.isSome then
    .error "response_logprobs is required when assistant_logprobs is provided"
  else
    let alignedMask := trimEnd responseMask mergeResult.removedPrefixTokenCount ++
      List.replicate mergeResult.insertedTokenIds.length 0
    let alignedLogprobs := responseLogprobs.map fun logprobs =>
      trimEnd logprobs mergeResult.removedPrefixTokenCount ++
        List.replicate mergeResult.insertedTokenIds.length 0
    match mergeResult.kind with
    | .assistant => do
        let logprobs ← match alignedLogprobs with
          | none => .ok none
          | some aligned => do
              let appended ← appendedLogprobs mergeResult.appendedTokenCount assistantLogprobs
              pure (some (aligned ++ appended))
        return (alignedMask ++ List.replicate mergeResult.appendedTokenCount 1, logprobs)
    | .nonAssistant =>
        .ok (alignedMask ++ List.replicate mergeResult.appendedTokenCount 0,
          alignedLogprobs.map fun aligned =>
            aligned ++ List.replicate mergeResult.appendedTokenCount 0)

end OneShotOPD.ContinuousToken
