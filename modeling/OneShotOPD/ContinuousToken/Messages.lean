import OneShotOPD.Core.Checks

/-!
# Messages and the tokens they render to

A turn that is appended to a conversation is tokenized on its own: the chat
template is applied to a prefix with and without the appended messages, and the
tokens of the difference are taken.  Some model families format the responses of
tools by hand instead.
-/

namespace OneShotOPD.ContinuousToken

open Checks

structure ToolCall where
  id : Option String
  name : Option String
deriving DecidableEq

/-- The content of a message: nothing, a text, or the texts of its parts. -/
inductive Content where
  | absent
  | text (text : String)
  | parts (texts : List String)
deriving DecidableEq

structure Message where
  role : String
  content : Content
  reasoningContent : Option String
  name : Option String
  toolCallId : Option String
  toolCalls : List ToolCall
deriving DecidableEq

/-- What a tokenizer does, for the tools of a conversation. -/
structure Tokenizer where
  applyChatTemplate : List Message → Bool → Except String (List ℕ)
  encode : String → List ℕ
  convertTokensToIds : String → Option ℕ
  encodeMessages : List Message → List Message → Except String (List ℕ)

def plainMessage (role text : String) : Message := ⟨role, .text text, none, none, none, []⟩

def syntheticSystemMessage : Message := plainMessage "system" "continuous token synthetic system"

def syntheticUserMessage : Message := plainMessage "user" "continuous token synthetic user"

/-- `message.get("name")`, when it is not empty. -/
def Message.givenName (message : Message) : Option String :=
  message.name.filter fun name => name ≠ ""

def toolMessageNameOrDummy (toolMessage : Message) : String :=
  toolMessage.givenName.getD "continuous_token_tool"

def toolCallIdOrDummy (toolMessage : Message) (index : ℕ) : String :=
  toolMessage.toolCallId.getD ("continuous_token_call_" ++ toString index)

def syntheticAssistantForTools (toolMessages : List Message) : Message where
  role := "assistant"
  content := .text ""
  reasoningContent := some "reasoning"
  name := none
  toolCallId := none
  toolCalls := toolMessages.zipIdx.map fun entry =>
    ⟨some (toolCallIdOrDummy entry.1 entry.2), some (toolMessageNameOrDummy entry.1)⟩

/-- The tool calls of the last assistant message. -/
def latestAssistantToolCalls (messages : List Message) : List ToolCall :=
  match messages.reverse.find? fun message => message.role = "assistant" with
  | some message => message.toolCalls
  | none => []

/-- `_resolve_required_tool_name`: the name in the message, or that of the call
with its id, or that of the call at its position. -/
def resolveRequiredToolName (toolMessage : Message) (index : ℕ)
    (toolMessages previousMessages : List Message) : Except String String :=
  match toolMessage.givenName with
  | some name => .ok name
  | none =>
      let toolCalls := latestAssistantToolCalls previousMessages
      let byId := toolMessage.toolCallId.bind fun toolCallId =>
        toolCalls.findSome? fun call => if call.id = some toolCallId then call.name else none
      match byId with
      | some name => .ok name
      | none =>
          if toolMessages.length ≠ toolCalls.length then
            .error "Continuous Token cannot resolve tool name by position"
          else match toolCalls[index]?.bind ToolCall.name with
            | some name => .ok name
            | none => .error "assistant tool call has no function name"

def stringifyToolContent : Content → String
  | .absent => ""
  | .text text => text
  | .parts texts => String.join texts

/-- A double quote and the two braces. -/
def quotationMark : String := String.singleton (Char.ofNat 34)

def openingBrace : String := String.singleton (Char.ofNat 123)

def closingBrace : String := String.singleton (Char.ofNat 125)

def newline : String := String.singleton (Char.ofNat 10)

/-- `GptOssContinuousTokenBuilder._format_tool_response`. -/
def gptOssFormatToolResponse (toolMessage : Message) (toolName : String) : String :=
  "<|start|>functions." ++ toolName ++ " to=assistant<|channel|>commentary<|message|>" ++
    stringifyToolContent toolMessage.content ++ "<|end|>"

/-- `Gemma4ContinuousTokenBuilder._format_tool_response`. -/
def gemma4FormatToolResponse (toolMessage : Message) (toolName : String) : String :=
  "<|tool_response>response:" ++ toolName ++ openingBrace ++ "value:<|" ++ quotationMark ++ "|>" ++
    stringifyToolContent toolMessage.content ++ "<|" ++ quotationMark ++ "|>" ++ closingBrace ++
    "<tool_response|>"

/-- The responses of a group of tools, formatted by hand. -/
def formatToolGroup (formatToolResponse : Message → String → String) (tokenizer : Tokenizer)
    (toolMessages previousMessages : List Message) : Except String (List ℕ) := do
  let texts ← toolMessages.zipIdx.mapM fun entry => do
    let name ← resolveRequiredToolName entry.1 entry.2 toolMessages previousMessages
    return formatToolResponse entry.1 name
  return tokenizer.encode (String.join texts)

/-- `render_delta_token_id(prefix_messages, appended_messages)`. -/
def renderDeltaTokenId (tokenizer : Tokenizer) (prefixMessages appendedMessages : List Message)
    (addGenerationPrompt : Bool) : Except String (List ℕ) := do
  let prefixTokenIds ← tokenizer.applyChatTemplate prefixMessages false
  let fullTokenIds ← tokenizer.applyChatTemplate (prefixMessages ++ appendedMessages)
    addGenerationPrompt
  if fullTokenIds.take prefixTokenIds.length ≠ prefixTokenIds then
    .error "Continuous Token token-id suffix diff failed"
  else .ok (fullTokenIds.drop prefixTokenIds.length)

/-- `_iter_append_groups`: the messages, with neighbouring tool messages together. -/
def iterAppendGroups (appendedMessages : List Message) : List (List Message) :=
  appendedMessages.foldr (fun message groups =>
    match groups with
    | (next :: group) :: others =>
        if message.role = "tool" ∧ next.role = "tool" then (message :: next :: group) :: others
        else [message] :: groups
    | _ => [message] :: groups) []

/-- `_assert_append_only`. -/
def assertAppendOnly (allowedAppendRoles : List String)
    (previousMessages updatedMessages : List Message) : Except String Unit := do
  raiseIf (updatedMessages.length < previousMessages.length)
    "Continuous Token messages must be append-only; updated_messages is shorter"
  raiseIf (updatedMessages.take previousMessages.length ≠ previousMessages)
    "Continuous Token messages must be append-only; prefix messages changed"
  raiseIfAny (updatedMessages.drop previousMessages.length)
    (fun message => message.role ∉ allowedAppendRoles)
    (fun message => "Continuous Token only supports appending some roles, got " ++ message.role)

end OneShotOPD.ContinuousToken
