import OneShotOPD.ContinuousToken.Accounting
import OneShotOPD.Core.Segments

/-!
# The tool agent loop

The loop renders the prompt, and then generates and calls tools in turn until a
limit is reached or the model calls no tool.  What is carried along is the whole
token stream with a mask for its response part; the prompt and the response are
told apart only at the end, by the length of the mask.
-/

namespace OneShotOPD.AgentLoop

open Checks ContinuousToken Segments

inductive AgentState where
  | pending
  | generating
  | processingTools
  | terminated
deriving DecidableEq

structure FunctionCall where
  name : String
  arguments : String
  toolCallId : Option String

structure TokenOutput (ℓ : Type) where
  tokenIds : List ℕ
  logProbs : Option (List ℓ)

namespace TokenOutput

variable {ℓ : Type}

/-- The log-probabilities, unless the list is empty. -/
def givenLogProbs (output : TokenOutput ℓ) : Option (List ℓ) :=
  output.logProbs.filter fun logProbs => !logProbs.isEmpty

/-- Every token has a log-probability. -/
def returned (output : TokenOutput ℓ) : Bool :=
  (output.logProbs.getD []).length == output.tokenIds.length

def origins (output : TokenOutput ℓ) : List (Origin ℓ) :=
  if output.returned then Origin.ofAssistant output.tokenIds (output.logProbs.getD [])
  else Origin.ofAssistant output.tokenIds none

end TokenOutput

/-- What a tool returns; only its text and whether it has media matter here. -/
structure ToolResponse where
  text : Option String
  image : Bool
  video : Bool

inductive ToolFormat where
  | gptOss
  | gemma4
  | chatTemplate

/-- The settings of a loop.  A turn limit of 0 is no limit. -/
structure LoopConfig where
  maxUserTurns : ℕ
  maxAssistantTurns : ℕ
  maxParallelCalls : ℕ
  promptLength : ℕ
  hasImageProcessor : Bool
  continuousToken : Option Setup
  toolFormat : ToolFormat
  tokenizer : Tokenizer
  systemPrompt : List ℕ
  turnSeparator : List ℕ
  decodesArguments : String → Bool

/-- The state of a trajectory.  The origins, the initial prompt and whether all
generations returned log-probabilities are kept for the statements only. -/
structure AgentData (ℓ : Type) where
  messages : List Message
  hasMedia : Bool
  responseLength : ℕ
  promptIds : List ℕ
  responseIds : List ℕ
  responseMask : List ℕ
  responseLogprobs : List ℓ
  userTurns : ℕ
  assistantTurns : ℕ
  toolCalls : List FunctionCall
  origins : List (Origin ℓ)
  initialPrompt : List ℕ
  allReturned : Bool

/-- `items[-count:]`. -/
def takeLast {α : Type} (items : List α) (count : ℕ) : List α :=
  if count = 0 then items else items.drop (items.length - count)

def capTextPromptLength (promptLength : ℕ) (promptIds : List ℕ) : List ℕ :=
  if promptLength < promptIds.length then takeLast promptIds promptLength else promptIds

/-- `apply_chat_template(messages)`. -/
def LoopConfig.applyChatTemplate (config : LoopConfig) (messages : List Message)
    (hasMedia removeSystemPrompt : Bool) : Except String (List ℕ) := do
  let rendered ← config.tokenizer.applyChatTemplate messages true
  let promptIds := if removeSystemPrompt then rendered.drop config.systemPrompt.length
    else rendered
  if config.promptLength < promptIds.length ∧ hasMedia then
    .error "ValueError: multimodal prompt exceeds rollout.prompt_length"
  else .ok (capTextPromptLength config.promptLength promptIds)

variable {ℓ : Type} [Zero ℓ]

/-- The tokens of the trajectory with the given log-probabilities. -/
def AgentData.runtime (data : AgentData ℓ) (logprobs : Option (List ℓ)) : Runtime ℓ :=
  ⟨data.promptIds, data.responseMask, logprobs, data.origins⟩

/-- The result of a continuous-token merge; without log-probabilities the old ones
stay. -/
def AgentData.absorb (data : AgentData ℓ) (runtime : Runtime ℓ) : AgentData ℓ :=
  { data with
    promptIds := runtime.tokenIds
    responseMask := runtime.responseMask
    responseLogprobs := runtime.responseLogprobs.getD data.responseLogprobs
    origins := runtime.origins }

/-- The state that `run` starts with. -/
def AgentData.create (messages : List Message) (hasMedia : Bool) (responseLength : ℕ) :
    AgentData ℓ :=
  ⟨messages, hasMedia, responseLength, [], [], [], [], 0, 0, [], [], [], true⟩

/-- The prompt of a trajectory. -/
def LoopConfig.renderPrompt (config : LoopConfig) (messages : List Message) (hasMedia : Bool) :
    Except String (List ℕ) :=
  match config.continuousToken with
  | some setup =>
      (setup.builder.buildInitialTokens setup.tokenizer messages).map
        (capTextPromptLength config.promptLength)
  | none => config.applyChatTemplate messages hasMedia false

def handlePendingState (config : LoopConfig) (data : AgentData ℓ) :
    Except String (AgentState × AgentData ℓ) := do
  let promptIds ← config.renderPrompt data.messages data.hasMedia
  return (.generating, { data with
    promptIds, origins := List.replicate promptIds.length .prompt, initialPrompt := promptIds })

def buildAssistantMessage (config : LoopConfig) (content : String)
    (toolCalls : List FunctionCall) : Except String Message := do
  let calls := toolCalls.take config.maxParallelCalls
  raiseIfAny calls (fun call => config.decodesArguments call.arguments = false)
    fun call => "Invalid tool call arguments for " ++ call.name
  return { plainMessage "assistant" content with
    toolCalls := calls.map fun call => ⟨call.toolCallId, some call.name⟩ }

/-- Continuous tokens need the assistant turn among the messages. -/
def recordAssistantMessage (config : LoopConfig) (messages : List Message) (content : String)
    (toolCalls : List FunctionCall) : Except String (List Message) :=
  match config.continuousToken with
  | some _ => (buildAssistantMessage config content toolCalls).map fun message =>
      messages ++ [message]
  | none => .ok messages

/-- The generated tokens joined to the trajectory. -/
def AgentData.generate (config : LoopConfig) (data : AgentData ℓ) (output : TokenOutput ℓ) :
    Except String (AgentData ℓ) :=
  match config.continuousToken with
  | some _ => do
      let known := !data.responseLogprobs.isEmpty || output.givenLogProbs.isSome
      let runtime ← (data.runtime (if known then some data.responseLogprobs else none)).merge
        (mergeAssistantTokens data.promptIds output.tokenIds)
        (Origin.ofAssistant output.tokenIds output.givenLogProbs) output.givenLogProbs
      return data.absorb runtime
  | none =>
      .ok { data with
        promptIds := data.promptIds ++ output.tokenIds
        responseMask := data.responseMask ++ List.replicate output.tokenIds.length 1
        responseLogprobs := data.responseLogprobs ++ output.givenLogProbs.getD []
        origins := data.origins ++ output.origins }

/-- `_handle_generating_state`, with the output of the server and what the parser
extracts from it. -/
def handleGeneratingState (config : LoopConfig) (data : AgentData ℓ) (output : TokenOutput ℓ)
    (content : String) (calls : List FunctionCall) :
    Except String (AgentState × AgentData ℓ) := do
  let generated ← { data with
    assistantTurns := data.assistantTurns + 1
    responseIds := output.tokenIds
    allReturned := data.allReturned && output.returned }.generate config output
  if generated.responseLength ≤ generated.responseMask.length then
    return (.terminated, generated)
  else if config.maxAssistantTurns ≠ 0 ∧
      config.maxAssistantTurns ≤ generated.assistantTurns then
    return (.terminated, generated)
  else if config.maxUserTurns ≠ 0 ∧ config.maxUserTurns ≤ generated.userTurns then
    return (.terminated, generated)
  else do
    let messages ← recordAssistantMessage config generated.messages content calls
    return (if calls = [] then .terminated else .processingTools,
      { generated with messages, toolCalls := calls })

/-- The message of a tool response. -/
def toolMessage (config : LoopConfig) (call : FunctionCall) (response : ToolResponse) :
    Except String Message :=
  if (response.image || response.video) && !config.hasImageProcessor then
    .error "ValueError: Multimedia data can only be processed by the processor"
  else if response.video then
    .error "NotImplementedError: Multimedia type video is not currently supported"
  else
    let content := if response.image then Content.parts response.text.toList
      else .text (response.text.getD "")
    .ok ⟨"tool", content, none, none, call.toolCallId, []⟩

/-- The tokens of tool responses outside of continuous tokens: formatted by hand,
or rendered behind the turn separator. -/
def legacyToolTokens (config : LoopConfig) (addMessages : List Message) (names : List String)
    (newImages : Bool) : Except String (List ℕ) :=
  let texts (formatToolResponse : Message → String → String) :=
    String.join (List.zipWith formatToolResponse addMessages names)
  match config.toolFormat with
  | .gptOss =>
      .ok (config.tokenizer.encode (texts gptOssFormatToolResponse ++ "<|start|>assistant"))
  | .gemma4 => .ok (config.tokenizer.encode (texts gemma4FormatToolResponse))
  | .chatTemplate => do
      let rendered ← config.applyChatTemplate addMessages newImages true
      return config.turnSeparator ++ rendered

/-- The tool messages merged into the continuous tokens; a response that would
become too long is left as it was. -/
def AgentData.mergeToolMessages (setup : Setup) (data : AgentData ℓ) (messages : List Message) :
    Except String (AgentState × AgentData ℓ) := do
  let mergeResult ← setup.builder.mergeNonAssistantTokens setup.tokenizer
    setup.allowedAppendRoles data.messages messages data.promptIds
  let runtime ← (data.runtime (if data.responseLogprobs.isEmpty then none
      else some data.responseLogprobs)).merge mergeResult
    (List.replicate mergeResult.appendedTokenCount .inserted) none
  if data.responseLength ≤ runtime.responseMask.length then
    return (.terminated, { data with messages })
  else
    return (.generating,
      { data.absorb runtime with messages, userTurns := data.userTurns + 1 })

/-- The tokens of the tool messages appended outside of continuous tokens. -/
def AgentData.appendToolTokens (data : AgentData ℓ) (messages : List Message)
    (newImages : Bool) (responseIds : List ℕ) : AgentState × AgentData ℓ :=
  if data.responseLength ≤ data.responseMask.length + responseIds.length then
    (.terminated, { data with messages })
  else
    (.generating, { data with
      messages
      hasMedia := data.hasMedia || newImages
      promptIds := data.promptIds ++ responseIds
      responseMask := data.responseMask ++ List.replicate responseIds.length 0
      responseLogprobs := if data.responseLogprobs.isEmpty then data.responseLogprobs
        else data.responseLogprobs ++ List.replicate responseIds.length 0
      origins := data.origins ++ List.replicate responseIds.length .inserted
      userTurns := data.userTurns + 1 })

/-- `_handle_processing_tools_state`, with what the tools return for the calls. -/
def handleProcessingToolsState (config : LoopConfig) (data : AgentData ℓ)
    (callTool : ℕ → ToolResponse) : Except String (AgentState × AgentData ℓ) := do
  let calls := data.toolCalls.take config.maxParallelCalls
  let addMessages ← calls.zipIdx.mapM fun entry =>
    toolMessage config entry.1 (callTool entry.2)
  let newImages := calls.zipIdx.any fun entry => (callTool entry.2).image
  match config.continuousToken, newImages with
  | some setup, false => data.mergeToolMessages setup (data.messages ++ addMessages)
  | _, _ => do
      let responseIds ← legacyToolTokens config addMessages (calls.map FunctionCall.name)
        newImages
      return data.appendToolTokens (data.messages ++ addMessages) newImages responseIds

/-- The states that the loop goes through, for the generations that are allowed. -/
inductive LoopRun (config : LoopConfig) (allowed : AgentData ℓ → TokenOutput ℓ → Prop)
    (start : AgentData ℓ) : AgentState → AgentData ℓ → Prop
  | pending : LoopRun config allowed start .pending start
  | render {data next : AgentData ℓ} {state : AgentState}
      (hrun : LoopRun config allowed start .pending data)
      (hstep : handlePendingState config data = .ok (state, next)) :
      LoopRun config allowed start state next
  | generate {data next : AgentData ℓ} {state : AgentState} (output : TokenOutput ℓ)
      (content : String) (calls : List FunctionCall)
      (hrun : LoopRun config allowed start .generating data) (hallowed : allowed data output)
      (hstep : handleGeneratingState config data output content calls = .ok (state, next)) :
      LoopRun config allowed start state next
  | callTools {data next : AgentData ℓ} {state : AgentState} (callTool : ℕ → ToolResponse)
      (hrun : LoopRun config allowed start .processingTools data)
      (hstep : handleProcessingToolsState config data callTool = .ok (state, next)) :
      LoopRun config allowed start state next

structure AgentLoopOutput (ℓ : Type) where
  promptIds : List ℕ
  responseIds : List ℕ
  responseMask : List ℕ
  responseLogprobs : Option (List ℓ)

/-- What `run` returns at the end. -/
def AgentData.output (data : AgentData ℓ) : AgentLoopOutput ℓ where
  promptIds := pySlice 0 ((data.promptIds.length : ℤ) - data.responseMask.length) data.promptIds
  responseIds := (takeLast data.promptIds data.responseMask.length).take data.responseLength
  responseMask := data.responseMask.take data.responseLength
  responseLogprobs := if data.responseLogprobs.isEmpty then none
    else some (data.responseLogprobs.take data.responseLength)

inductive PaddingSide where
  | left
  | right

/-- `_pad_token_ids`: the padded ids and the attention mask. -/
def padTokenIds (padTokenId : Option ℕ) (tokens : List ℕ) (maxLength : ℕ) (side : PaddingSide) :
    Except String (List ℕ × List ℕ) :=
  if tokens = [] then
    .ok (List.replicate maxLength (padTokenId.getD 0), List.replicate maxLength 0)
  else match padTokenId with
    | none => .error "ValueError: the tokenizer does not have a padding token"
    | some padId =>
        let padding := List.replicate (maxLength - tokens.length) padId
        let ones := List.replicate tokens.length 1
        let zeros := List.replicate (maxLength - tokens.length) 0
        match side with
        | .left => .ok (padding ++ tokens, zeros ++ ones)
        | .right => .ok (tokens ++ padding, ones ++ zeros)

/-- The product of two rows of a tensor. -/
def multiplyRows (left right : List ℕ) : Except String (List ℕ) :=
  if left.length = right.length then .ok (List.zipWith (· * ·) left right)
  else match left, right with
    | [value], _ => .ok (right.map (value * ·))
    | _, [value] => .ok (left.map (· * value))
    | _, _ => .error "RuntimeError: the sizes of the tensors must match"

structure PaddedOutput (ℓ : Type) where
  promptIds : List ℕ
  responseIds : List ℕ
  inputIds : List ℕ
  attentionMask : List ℕ
  responseMask : List ℕ
  responseLogprobs : Option (List ℓ)

/-- The padding of `_agent_loop_postprocess`. -/
def AgentLoopOutput.postprocess (output : AgentLoopOutput ℓ) (padTokenId : Option ℕ)
    (promptLength responseLength : ℕ) : Except String (PaddedOutput ℓ) := do
  let prompt ← padTokenIds padTokenId output.promptIds promptLength .left
  let response ← padTokenIds padTokenId output.responseIds responseLength .right
  let mask ← padTokenIds padTokenId output.responseMask responseLength .right
  let responseMask ← multiplyRows mask.1 response.2
  return {
    promptIds := prompt.1
    responseIds := response.1
    inputIds := prompt.1 ++ response.1
    attentionMask := prompt.2 ++ response.2
    responseMask
    responseLogprobs := output.responseLogprobs.map fun logprobs =>
      logprobs ++ List.replicate (responseLength - logprobs.length) 0 }

end OneShotOPD.AgentLoop
