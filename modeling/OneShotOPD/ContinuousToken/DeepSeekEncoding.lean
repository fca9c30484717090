import OneShotOPD.Core.Checks
import OneShotOPD.Core.Dict

/-!
# The DeepSeek-V4 encoder

A conversation is rendered turn by turn.  Runs of user and tool messages fold
into one user turn, tool calls are written in DSML markup, and an assistant turn
ends with the end-of-sentence token.
-/

namespace OneShotOPD.DeepSeek

open Checks

/-! ## JSON values -/

/-- What the encoder asks of a value. -/
inductive View (V : Type) where
  | text (value : List Char)
  | dict (entries : Dict (List Char) V)
  | other

/-- The values of the `json` module. -/
structure PyJson (V : Type) where
  view : V → View V
  string : List Char → V
  /-- `_to_json`. -/
  dumps : V → List Char
  loads : List Char → Option V
  dumpsDict : Dict (List Char) V → List Char

/-- Strings are told apart from other values, which survive `dumps` and `loads`. -/
structure PyJson.Lawful {V : Type} (json : PyJson V) : Prop where
  view_string : ∀ value, json.view (json.string value) = .text value
  eq_string : ∀ value text, json.view value = .text text → value = json.string text
  loads_dumps : ∀ value, json.loads (json.dumps value) = some value

/-! ## Messages -/

inductive Role where
  | system
  | developer
  | user
  | tool
  | assistant
  | latestReminder
  | other (name : String)
  deriving DecidableEq

/-- `message.get("content")`. -/
inductive Content where
  | missing
  | text (content : List Char)
  /-- The type and the text of each part. -/
  | parts (parts : List (String × List Char))
  | other (str : List Char)
  deriving DecidableEq

/-- `_text_of`. -/
def Content.textOf : Content → List Char
  | missing => []
  | text content => content
  | parts items => (items.filter fun part => part.1 = "text").flatMap Prod.snd
  | other str => str

/-- The function of a tool call. -/
structure CalledFunction (V : Type) where
  name : List Char
  arguments : V
  deriving DecidableEq

/-- The fields that the encoder reads.  Empty strings count as missing in the
reasoning fields and in the task. -/
structure Message (V : Type) where
  role : Role
  content : Content
  reasoningContent : List Char
  reasoning : List Char
  toolCalls : List (CalledFunction V)
  tools : List V
  responseFormat : Option V
  task : Option String
  deriving DecidableEq

inductive EncodeError where
  /-- "DeepSeek-V4 encoding got an unsupported role: ..." -/
  | unsupportedRole (name : String)
  /-- "DeepSeek-V4 encoding got an unsupported task: ..." -/
  | unsupportedTask (task : String)
  /-- "Continuous Token messages must be append-only; ..." -/
  | notAppendOnly
  /-- "Continuous Token only supports appending roles ..., got ..." -/
  | appendedRole (role : Role)
  /-- "DeepSeek-V4 Continuous Token cannot append after an assistant turn when
  thinking is enabled and drop_thinking is on, ..." -/
  | unstablePrefix
  deriving DecidableEq

/-! ## Tokens -/

def bosToken : List Char := "<｜begin▁of▁sentence｜>".toList

def eosToken : List Char := "<｜end▁of▁sentence｜>".toList

def userToken : List Char := "<｜User｜>".toList

def assistantToken : List Char := "<｜Assistant｜>".toList

def latestReminderToken : List Char := "<｜latest_reminder｜>".toList

def thinkStartToken : List Char := "<think>".toList

def thinkEndToken : List Char := "</think>".toList

def dsmlToken : List Char := "｜DSML｜".toList

/-- `<｜DSML｜kind`. -/
def openTag (kind : String) : List Char := '<' :: (dsmlToken ++ kind.toList)

/-- `</｜DSML｜kind`. -/
def closeTag (kind : String) : List Char := '<' :: '/' :: (dsmlToken ++ kind.toList)

def toolCallsStartToken : List Char := openTag "tool_calls>"

def toolCallsEndToken : List Char := closeTag "tool_calls>"

/-- `TASK_TOKENS`. -/
def taskToken (task : String) : Option (List Char) :=
  if task ∈ ["action", "query", "authority", "domain", "title", "read_url"] then
    some ("<｜".toList ++ task.toList ++ "｜>".toList)
  else none

/-- `REASONING_EFFORT_MAX`. -/
def reasoningEffortMax : List Char :=
  ("Reasoning Effort: Absolute maximum with no shortcuts permitted.\n"
    ++ "You MUST be very thorough in your thinking and comprehensively decompose the problem to "
    ++ "resolve the root cause, rigorously stress-testing your logic against all potential paths, "
    ++ "edge cases, and adversarial scenarios.\n"
    ++ "Explicitly write out your entire deliberation process, documenting every intermediate step, "
    ++ "considered alternative, and rejected hypothesis to ensure absolutely no assumption is left "
    ++ "unchecked.\n\n").toList

/-- `TOOLS_TEMPLATE` up to the schemas. -/
def toolsTemplateHead : List Char :=
  "## Tools\n\nYou have access to a set of tools to help answer the user's question. ".toList
    ++ "You can invoke tools by writing a \"".toList ++ toolCallsStartToken
    ++ "\" block like the following:\n\n".toList
    ++ toolCallsStartToken ++ "\n".toList
    ++ openTag "invoke name=\"$TOOL_NAME\">\n"
    ++ openTag "parameter name=\"$PARAMETER_NAME\" string=\"true|false\">$PARAMETER_VALUE"
    ++ closeTag "parameter>\n" ++ "...\n".toList ++ closeTag "invoke>\n"
    ++ openTag "invoke name=\"$TOOL_NAME2\">\n" ++ "...\n".toList ++ closeTag "invoke>\n"
    ++ toolCallsEndToken ++ "\n\n".toList
    ++ ("String parameters should be specified as is and set `string=\"true\"`. For all other types "
      ++ "(numbers, booleans, arrays, objects), pass the value in JSON format and set "
      ++ "`string=\"false\"`.\n\nIf thinking_mode is enabled (triggered by ").toList
    ++ thinkStartToken ++ "), you MUST output your complete reasoning inside ".toList
    ++ thinkStartToken ++ "...".toList ++ thinkEndToken
    ++ " BEFORE any tool calls or final response.\n\nOtherwise, output directly after ".toList
    ++ thinkEndToken
    ++ " with tool calls or final response.\n\n### Available Tool Schemas\n\n".toList

/-- `TOOLS_TEMPLATE` behind the schemas. -/
def toolsTemplateTail : List Char :=
  ("\n\nYou MUST strictly follow the above defined tool name and parameter schemas to invoke "
    ++ "tool calls.\n").toList

/-! ## Rendering -/

section Rendering

variable {V : Type} (json : PyJson V)

/-- `"\n".join(lines)`. -/
def joinLines (lines : List (List Char)) : List Char := List.intercalate ['\n'] lines

/-- `render_tools`. -/
def renderTools (tools : List V) : List Char :=
  toolsTemplateHead ++ joinLines (tools.map json.dumps) ++ toolsTemplateTail

/-- The arguments of a call as they are parsed, those that are no dictionary
under the key `arguments`. -/
def asDict (arguments : V) : Dict (List Char) V :=
  match json.view arguments with
  | .dict entries => entries
  | _ => Dict.ofList [("arguments".toList, arguments)]

def callArguments (arguments : V) : Dict (List Char) V :=
  match json.view arguments with
  | .text raw =>
      match json.loads raw with
      | some value => asDict json value
      | none => Dict.ofList [("arguments".toList, arguments)]
  | _ => asDict json arguments

/-- The text of a value and the flag that tells whether it is a string. -/
def valueText (value : V) : Bool × List Char :=
  match json.view value with
  | .text text => (true, text)
  | _ => (false, json.dumps value)

def flagText (isString : Bool) : List Char :=
  if isString then "true".toList else "false".toList

def renderParameter (entry : List Char × V) : List Char :=
  let (isString, text) := valueText json entry.2
  openTag "parameter name=\"" ++ (entry.1 ++ ("\" string=\"".toList ++ (flagText isString ++
    ("\">".toList ++ (text ++ closeTag "parameter>")))))

def renderInvoke (name : List Char) (arguments : Dict (List Char) V) : List Char :=
  openTag "invoke name=\"" ++ (name ++ ("\">".toList ++ ('\n' ::
    (joinLines (arguments.entries.map (renderParameter json)) ++ ('\n' :: closeTag "invoke>")))))

/-- `_render_tool_call`. -/
def renderToolCall (function : CalledFunction V) : List Char :=
  renderInvoke json function.name (callArguments json function.arguments)

/-- The block of tool calls behind the answer. -/
def renderToolCalls (functions : List (CalledFunction V)) : List Char :=
  "\n\n".toList ++ (toolCallsStartToken ++ ('\n' ::
    (joinLines (functions.map (renderToolCall json)) ++ ('\n' :: toolCallsEndToken))))

/-- How assistant turns are rendered. -/
structure Thinking where
  think : Bool
  drop : Bool
  lastUser : Option ℕ

def Message.inUserRun (message : Message V) : Bool :=
  message.role = .user ∨ message.role = .tool

/-- `messages[index - 1]`, for an index that is not the first. -/
def previousOf (messages : List (Message V)) : ℕ → Option (Message V)
  | 0 => none
  | index + 1 => messages[index]?

def systemText (message : Message V) : List Char :=
  message.content.textOf
    ++ (if message.tools = [] then [] else "\n\n".toList ++ renderTools json message.tools)
    ++ (match message.responseFormat with
      | none => []
      | some schema =>
          ("\n\n## Response Format:\n\nYou MUST strictly adhere to the following schema to "
            ++ "reply:\n").toList ++ json.dumps schema)

/-- What opens a message of a user run. -/
def userOpening (before : Option (Message V)) : List Char :=
  if before.any Message.inUserRun then "\n\n".toList else userToken

def assistantOpening (thinking : Thinking) (before : Option (Message V)) (index : ℕ)
    (message : Message V) : List Char :=
  if before.any fun message => message.task.isSome then []
  else
    assistantToken
      ++ (if thinking.think ∧ (thinking.drop = false ∨ ∀ last ∈ thinking.lastUser, last < index)
        then thinkStartToken ++ (if message.reasoningContent = [] then message.reasoning
          else message.reasoningContent)
        else [])
      ++ thinkEndToken

def turnText (thinking : Thinking) (before : Option (Message V)) (index : ℕ)
    (message : Message V) : Except EncodeError (List Char) :=
  match message.role with
  | .system => .ok (systemText json message)
  | .developer => .ok (userToken ++ systemText json message)
  | .latestReminder => .ok (latestReminderToken ++ message.content.textOf)
  | .user => .ok (userOpening before ++ message.content.textOf)
  | .tool =>
      .ok (userOpening before ++ ("<tool_result>".toList ++ message.content.textOf
        ++ "</tool_result>".toList))
  | .assistant =>
      .ok (assistantOpening thinking before index message ++ message.content.textOf
        ++ (if message.toolCalls = [] then [] else renderToolCalls json message.toolCalls)
        ++ eosToken)
  | .other name => .error (.unsupportedRole name)

def answerOpening (think : Bool) : List Char :=
  assistantToken ++ if think then thinkStartToken else thinkEndToken

/-- The token of a quick instruction task, where the run of the message ends. -/
def taskText (think : Bool) (following : Option (Message V)) (message : Message V) :
    Except EncodeError (List Char) :=
  match message.task with
  | none => .ok []
  | some task =>
      if following.all fun next => next.role = .assistant ∨ next.role = .latestReminder then
        match taskToken task with
        | none => .error (.unsupportedTask task)
        | some token => .ok ((if task = "action" then answerOpening think else []) ++ token)
      else .ok []

def messageText (thinking : Thinking) (messages : List (Message V))
    (entry : Message V × ℕ) : Except EncodeError (List Char) := do
  let turn ← turnText json thinking (previousOf messages entry.2) entry.2 entry.1
  let task ← taskText thinking.think messages[entry.2 + 1]? entry.1
  return turn ++ task

/-- The settings of the builder. -/
structure Settings where
  enableThinking : Bool
  dropThinking : Bool
  reasoningEffort : Option String

def Settings.think (settings : Settings) : Bool :=
  settings.enableThinking && settings.reasoningEffort ≠ some "none"

def Settings.maximalEffort (settings : Settings) : Bool :=
  settings.think && (settings.reasoningEffort = some "max" || settings.reasoningEffort = some "xhigh")

/-- `last_user`. -/
def lastUser (messages : List (Message V)) : Option ℕ :=
  ((messages.zipIdx.filter fun entry => entry.1.inUserRun || entry.1.role = .developer).map
    Prod.snd).getLast?

def thinkingOf (settings : Settings) (tools : List V) (messages : List (Message V)) : Thinking where
  think := settings.think
  drop := settings.dropThinking && !(!tools.isEmpty || messages.any fun message =>
    !message.tools.isEmpty)
  lastUser := lastUser messages

def opening (settings : Settings) (tools : List V) (addBosToken : Bool) : List Char :=
  (if addBosToken then bosToken else [])
    ++ (if settings.maximalEffort then reasoningEffortMax else [])
    ++ (if tools = [] then [] else "\n\n".toList ++ renderTools json tools)

def generationPrompt (settings : Settings) (messages : List (Message V))
    (addGenerationPrompt : Bool) : List Char :=
  if addGenerationPrompt = true ∧ messages.getLast?.any (fun message => message.task.isSome) = false
  then answerOpening settings.think else []

/-- `encode_messages`. -/
def encodeMessages (settings : Settings) (tools : List V) (addBosToken addGenerationPrompt : Bool)
    (messages : List (Message V)) : Except EncodeError (List Char) := do
  let turns ← messages.zipIdx.mapM (messageText json (thinkingOf settings tools messages) messages)
  return opening json settings tools addBosToken ++ turns.flatten
    ++ generationPrompt settings messages addGenerationPrompt

/-- `_assert_prefix_is_stable`. -/
def assertPrefixIsStable (settings : Settings) (tools : List V) (previous : List (Message V)) :
    Except EncodeError Unit :=
  if (settings.enableThinking && settings.dropThinking) = false then .ok ()
  else if (!tools.isEmpty || previous.any fun message => !message.tools.isEmpty) = true then .ok ()
  else raiseIf (previous.any fun message => message.role = .assistant) .unstablePrefix

end Rendering

section Appending

variable {V : Type} {json : PyJson V} {settings : Settings} {tools : List V}
  {previous appended : List (Message V)} {last : Message V}

/-- The roles that may be appended. -/
def supportedAppendRoles : List Role := [.tool, .user, .system]

/-- `tokenize_non_assistant_incremental_messages`, before the tokenizer. -/
def incrementalText [DecidableEq V] (json : PyJson V) (settings : Settings) (tools : List V)
    (previous updated : List (Message V)) : Except EncodeError (List Char) := do
  raiseIf (updated.take previous.length ≠ previous) .notAppendOnly
  let appended := updated.drop previous.length
  raiseIfAny appended (fun message => message.role ∉ supportedAppendRoles) fun message =>
    .appendedRole message.role
  if appended = [] then return []
  assertPrefixIsStable settings tools previous
  encodeMessages json settings [] false true appended

theorem previousOf_append_left {index : ℕ} (hindex : index < previous.length) :
    previousOf (previous ++ appended) index = previousOf previous index := by
  cases index with
  | zero => rfl
  | succ index => exact List.getElem?_append_left (Nat.lt_of_succ_lt hindex)

theorem previousOf_append_right (index : ℕ) :
    previousOf (previous ++ appended) (previous.length + (index + 1)) =
      previousOf appended (index + 1) := by
  change (previous ++ appended)[previous.length + index]? = appended[index]?
  rw [List.getElem?_append_right (Nat.le_add_right _ _), Nat.add_sub_cancel_left]

/-- Assistant turns are rendered alike when no reasoning is dropped. -/
def SameTurns (left right : Thinking) : Prop :=
  left.think = right.think ∧ (left.think = true → left.drop = false ∧ right.drop = false)

theorem assistantOpening_congr {left right : Thinking} (hsame : SameTurns left right)
    (before : Option (Message V)) (index : ℕ) (message : Message V) :
    assistantOpening left before index message = assistantOpening right before index message := by
  obtain ⟨hthink, hdrop⟩ := hsame
  by_cases hthinks : left.think = true
  · obtain ⟨hleft, hright⟩ := hdrop hthinks
    simp [assistantOpening, ← hthink, hthinks, hleft, hright]
  · simp [assistantOpening, ← hthink, hthinks]

theorem turnText_congr {left right : Thinking} (hsame : SameTurns left right)
    (before : Option (Message V)) (index : ℕ) (message : Message V) :
    turnText json left before index message = turnText json right before index message := by
  rw [turnText, turnText, assistantOpening_congr hsame]

/-- A message before the last one is rendered as it was before the append. -/
theorem messageText_append_left {left right : Thinking} (hsame : SameTurns left right)
    (hlast : previous.getLast? = some last) (htask : last.task = none)
    {entry : Message V × ℕ} (hentry : entry ∈ previous.zipIdx) :
    messageText json left (previous ++ appended) entry =
      messageText json right previous entry := by
  obtain ⟨message, index⟩ := entry
  have hmessage := List.mk_mem_zipIdx_iff_getElem?.mp hentry
  have hindex : index < previous.length := (List.getElem?_eq_some_iff.mp hmessage).1
  have htaskText : taskText left.think (previous ++ appended)[index + 1]? message =
      taskText right.think previous[index + 1]? message := by
    rw [hsame.1]
    by_cases hnext : index + 1 < previous.length
    · rw [List.getElem?_append_left hnext]
    · have hfinal : message = last := by
        rw [List.getLast?_eq_getElem?, show previous.length - 1 = index by omega, hmessage] at hlast
        exact Option.some.inj hlast
      rw [hfinal, taskText, taskText, htask]
  rw [messageText, messageText, previousOf_append_left hindex, turnText_congr hsame, htaskText]

theorem turnText_of_appended {left right : Thinking} {before : Option (Message V)}
    {message : Message V} {index other : ℕ} (hrole : message.role ∈ supportedAppendRoles) :
    turnText json left before index message = turnText json right before other message := by
  simp only [supportedAppendRoles, List.mem_cons, List.not_mem_nil, or_false] at hrole
  rcases hrole with hrole | hrole | hrole <;> simp only [turnText, hrole]

/-- What stands before a user run does not matter as long as it is none. -/
theorem turnText_of_not_inUserRun {thinking : Thinking} {before : Message V}
    {message : Message V} {index : ℕ} (hrole : message.role ∈ supportedAppendRoles)
    (hbefore : before.inUserRun = false) :
    turnText json thinking (some before) index message =
      turnText json thinking none index message := by
  have hopening : userOpening (some before) = userOpening (none : Option (Message V)) := by
    simp [userOpening, hbefore]
  simp only [supportedAppendRoles, List.mem_cons, List.not_mem_nil, or_false] at hrole
  rcases hrole with hrole | hrole | hrole <;> simp only [turnText, hrole, hopening]

/-- An appended message is rendered as it is without the messages before it. -/
theorem messageText_append_right {left right : Thinking} (hthink : left.think = right.think)
    (hlast : previous.getLast? = some last) (hrun : last.inUserRun = false)
    {message : Message V} {index : ℕ} (hrole : message.role ∈ supportedAppendRoles) :
    messageText json left (previous ++ appended) (message, previous.length + index) =
      messageText json right appended (message, index) := by
  have hfollowing : (previous ++ appended)[previous.length + index + 1]? =
      appended[index + 1]? := by
    rw [Nat.add_assoc, List.getElem?_append_right (Nat.le_add_right _ _), Nat.add_sub_cancel_left]
  have hturn : turnText json left (previousOf (previous ++ appended) (previous.length + index))
      (previous.length + index) message =
        turnText json right (previousOf appended index) index message := by
    cases index with
    | zero =>
        have hbefore : previousOf (previous ++ appended) (previous.length + 0) = some last := by
          obtain ⟨front, rfl⟩ := List.getLast?_eq_some_iff.mp hlast
          simp [previousOf]
        rw [hbefore, turnText_of_not_inUserRun hrole hrun]
        exact turnText_of_appended hrole
    | succ index =>
        rw [previousOf_append_right]
        exact turnText_of_appended hrole
  simp only [messageText, hturn, hfollowing, hthink]

/-- A stable prefix drops no reasoning, before and after the append. -/
theorem sameTurns_of_stable (hlast : last ∈ previous) (hrole : last.role = .assistant)
    (hstable : assertPrefixIsStable settings tools previous = .ok ()) :
    SameTurns (thinkingOf settings tools (previous ++ appended))
      (thinkingOf settings tools previous) := by
  refine ⟨rfl, fun hthink => ?_⟩
  have henabled : settings.enableThinking = true := (Bool.and_eq_true_iff.mp hthink).1
  rw [assertPrefixIsStable] at hstable
  split at hstable
  next hkeeps =>
      have hkeep : settings.dropThinking = false := by simpa [henabled] using hkeeps
      simp [thinkingOf, hkeep]
  next =>
      split at hstable
      next htools =>
          have hall : (!tools.isEmpty || (previous ++ appended).any fun message =>
              !message.tools.isEmpty) = true := by
            rw [List.any_append, ← Bool.or_assoc, htools, Bool.true_or]
          exact ⟨by rw [thinkingOf, hall, Bool.not_true, Bool.and_false],
            by rw [thinkingOf, htools, Bool.not_true, Bool.and_false]⟩
      next =>
          have hassistant : (previous.any fun message => decide
              (message.role = .assistant)) = true :=
            List.any_eq_true.mpr ⟨last, hlast, decide_eq_true hrole⟩
          exact absurd hassistant (raiseIf_eq_ok.mp hstable)

/-- The encoding of a conversation that grew behind an assistant turn. -/
theorem encodeMessages_append (hlast : previous.getLast? = some last)
    (hrole : last.role = .assistant)
    (htask : last.task = none) (happended : appended ≠ [])
    (hroles : ∀ message ∈ appended, message.role ∈ supportedAppendRoles)
    (hstable : assertPrefixIsStable settings tools previous = .ok ()) :
    encodeMessages json settings tools true true (previous ++ appended) = do
      let before ← encodeMessages json settings tools true false previous
      let turns ← appended.zipIdx.mapM
        (messageText json (thinkingOf settings [] appended) appended)
      return before ++ (turns.flatten ++ generationPrompt settings appended true) := by
  have hsame := @sameTurns_of_stable _ settings tools previous appended last
    (List.mem_of_getLast? hlast) hrole hstable
  have hleft : previous.zipIdx.mapM
      (messageText json (thinkingOf settings tools (previous ++ appended)) (previous ++ appended)) =
        previous.zipIdx.mapM (messageText json (thinkingOf settings tools previous) previous) :=
    mapM_congr fun entry hentry => messageText_append_left hsame hlast htask hentry
  have hright : (appended.zipIdx previous.length).mapM
      (messageText json (thinkingOf settings tools (previous ++ appended)) (previous ++ appended)) =
        appended.zipIdx.mapM (messageText json (thinkingOf settings [] appended) appended) := by
    rw [List.zipIdx_eq_map_add, List.mapM_map]
    refine mapM_congr ?_
    rintro ⟨message, index⟩ hentry
    have hmem : message ∈ appended :=
      List.mem_of_getElem? (List.mk_mem_zipIdx_iff_getElem?.mp hentry)
    have hrun : last.inUserRun = false := by simp [Message.inUserRun, hrole]
    have hthink : (thinkingOf settings tools (previous ++ appended)).think =
        (thinkingOf settings [] appended).think := rfl
    exact messageText_append_right hthink hlast hrun (hroles message hmem)
  have hgeneration : generationPrompt settings (previous ++ appended) true =
      generationPrompt settings appended true := by
    rw [generationPrompt, generationPrompt, List.getLast?_append_of_ne_nil _ happended]
  have hnone : generationPrompt settings previous false = [] := by
    simp [generationPrompt]
  simp only [encodeMessages, List.zipIdx_append, Nat.zero_add, List.mapM_append, hleft, hright,
    hgeneration, hnone, bind_assoc, pure_bind, List.flatten_append, List.append_assoc,
    List.append_nil]

theorem incrementalText_append [DecidableEq V] (happended : appended ≠ [])
    (hroles : ∀ message ∈ appended, message.role ∈ supportedAppendRoles)
    (hstable : assertPrefixIsStable settings tools previous = .ok ()) :
    incrementalText json settings tools previous (previous ++ appended) =
      encodeMessages json settings [] false true appended := by
  have hchecked : raiseIfAny appended (fun message => message.role ∉ supportedAppendRoles)
      (fun message => EncodeError.appendedRole message.role) = .ok () :=
    raiseIfAny_eq_ok.mpr fun message hmessage => not_not_intro (hroles message hmessage)
  simp only [incrementalText, List.take_left, List.drop_left, raiseIf, ne_eq, not_true_eq_false,
    if_false, hchecked, hstable, happended]
  rfl

/-- What is appended behind an assistant turn continues the rendering of the
conversation, except where the preamble of the highest reasoning effort is
rendered once more. -/
theorem incremental_continues_iff [DecidableEq V] {before full : List Char}
    (hlast : previous.getLast? = some last) (hrole : last.role = .assistant)
    (htask : last.task = none) (happended : appended ≠ [])
    (hroles : ∀ message ∈ appended, message.role ∈ supportedAppendRoles)
    (hstable : assertPrefixIsStable settings tools previous = .ok ())
    (hbefore : encodeMessages json settings tools true false previous = .ok before)
    (hfull : encodeMessages json settings tools true true (previous ++ appended) = .ok full) :
    (∃ incremental,
      incrementalText json settings tools previous (previous ++ appended) = .ok incremental ∧
        full = before ++ incremental) ↔ settings.maximalEffort = false := by
  rw [encodeMessages_append hlast hrole htask happended hroles hstable, hbefore] at hfull
  obtain ⟨_, hprevious, hfull⟩ := bind_eq_ok.mp hfull
  cases hprevious
  obtain ⟨turns, hturns, hfull⟩ := bind_eq_ok.mp hfull
  cases hfull
  have hincremental : incrementalText json settings tools previous (previous ++ appended) =
      .ok ((if settings.maximalEffort then reasoningEffortMax else []) ++
        (turns.flatten ++ generationPrompt settings appended true)) := by
    rw [incrementalText_append happended hroles hstable, encodeMessages, hturns]
    simp [bind, Except.bind, pure, Except.pure, opening]
  rw [hincremental]
  simp only [Except.ok.injEq, exists_eq_left', List.append_cancel_left_eq]
  cases settings.maximalEffort with
  | false => simp
  | true =>
      have hpreamble : reasoningEffortMax ≠ [] := by decide +kernel
      simpa using hpreamble

end Appending

/-- Numbers as the only values. -/
def numberJson : PyJson ℕ where
  view _ := .other
  string _ := 0
  dumps value := value.repr.toList
  loads _ := none
  dumpsDict _ := "\x7b\x7d".toList

def plainMessage (role : Role) (text : String) : Message ℕ where
  role := role
  content := .text text.toList
  reasoningContent := []
  reasoning := []
  toolCalls := []
  tools := []
  responseFormat := none
  task := none

/-- A question and the assistant's turn. -/
def question : List (Message ℕ) := [plainMessage .user "2 + 2?", plainMessage .assistant ""]

def thinkingSettings : Settings where
  enableThinking := true
  dropThinking := false
  reasoningEffort := none

theorem incremental_continues_toolResult :
    ∃ before full incremental,
      encodeMessages numberJson thinkingSettings [] true false question = .ok before ∧
      encodeMessages numberJson thinkingSettings [] true true
        (question ++ [plainMessage .tool "4"]) = .ok full ∧
      incrementalText numberJson thinkingSettings [] question
        (question ++ [plainMessage .tool "4"]) = .ok incremental ∧
      full = before ++ incremental := by
  have hbefore : ∃ before,
      encodeMessages numberJson thinkingSettings [] true false question = .ok before := ⟨_, rfl⟩
  have hfull : ∃ full, encodeMessages numberJson thinkingSettings [] true true
      (question ++ [plainMessage .tool "4"]) = .ok full := ⟨_, rfl⟩
  obtain ⟨before, hbefore⟩ := hbefore
  obtain ⟨full, hfull⟩ := hfull
  obtain ⟨incremental, hincremental, heq⟩ := (incremental_continues_iff rfl rfl rfl (by decide)
    (by decide) rfl hbefore hfull).mpr rfl
  exact ⟨before, full, incremental, hbefore, hfull, hincremental, heq⟩

end OneShotOPD.DeepSeek
