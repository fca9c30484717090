import OneShotOPD.ContinuousToken.DeepSeekEncoding
import OneShotOPD.Core.Pattern

/-!
# The DeepSeek-V4 tool parser

The parser looks for blocks of tool calls, in a block for invocations and in an
invocation for parameters, each time with a non-greedy pattern between markup.
It takes back what the encoder renders.
-/

namespace OneShotOPD.DeepSeek

open Pattern Text

variable {V : Type}

/-- `FunctionCall`, whose arguments are the text of a JSON object. -/
structure FunctionCall where
  name : List Char
  arguments : List Char
  deriving DecidableEq

/-! ## Patterns -/

/-- `.` with `DOTALL`. -/
def anyChar (_ : Char) : Bool := true

/-- `<｜DSML｜tool_calls>(.*?)</｜DSML｜tool_calls>`. -/
def toolCallsRegex : Pattern (List Char) := do
  literal toolCallsStartToken
  let body ← shortest anyChar
  literal toolCallsEndToken
  return body

/-- `">`. -/
def quoteClose : List Char := ['"', '>']

/-- `<｜DSML｜invoke name="(.*?)">(.*?)</｜DSML｜invoke>`. -/
def invokeRegex : Pattern (List Char × List Char) := do
  literal (openTag "invoke name=\"")
  let name ← shortest anyChar
  literal quoteClose
  let body ← shortest anyChar
  literal (closeTag "invoke>")
  return (name, body)

/-- `(true|false)`. -/
def flagRegex : Pattern Bool :=
  orElse (literal "true".toList >>= fun _ => pure true)
    (literal "false".toList >>= fun _ => pure false)

/-- `" string="`. -/
def stringFlag : List Char := '"' :: " string=\"".toList

/-- `<｜DSML｜parameter name="(.*?)" string="(true|false)">(.*?)</｜DSML｜parameter>`. -/
def parameterRegex : Pattern (List Char × Bool × List Char) := do
  literal (openTag "parameter name=\"")
  let name ← shortest anyChar
  literal stringFlag
  let isString ← flagRegex
  literal quoteClose
  let value ← shortest anyChar
  literal (closeTag "parameter>")
  return (name, isString, value)

/-! ## The parser -/

section Parser

variable (json : PyJson V)

/-- The value of a parameter.  One that is not valid JSON keeps its text. -/
def parameterValue (isString : Bool) (value : List Char) : V :=
  if isString then json.string value else (json.loads value).getD (json.string value)

def parseToolCalls (toolCallsText : List Char) : List FunctionCall :=
  (findAll invokeRegex toolCallsText).map fun call =>
    let arguments := Dict.ofList ((findAll parameterRegex call.2).map fun parameter =>
      (parameter.1, parameterValue json parameter.2.1 parameter.2.2))
    { name := call.1, arguments := json.dumpsDict arguments }

def stripReasoning (text : List Char) : List Char := (behindLast thinkEndToken text).getD text

/-- The removal of the padding and the end-of-sentence token.  A tokenizer may
have no padding token. -/
def removeSpecial (padToken : Option (List Char)) (text : List Char) : List Char :=
  removeAll eosToken (match padToken with
    | none => text
    | some token => if token = [] then text else removeAll token text)

/-- `extract_tool_calls`, of the decoded response. -/
def extractToolCalls (padToken : Option (List Char)) (decoded : List Char) :
    List Char × List FunctionCall :=
  let text := removeSpecial padToken decoded
  match beforeFirst toolCallsStartToken text with
  | none => (stripReasoning text, [])
  | some before =>
      (removeSuffix "\n\n".toList (stripReasoning before),
        (findAll toolCallsRegex text).flatMap (parseToolCalls json))

end Parser

/-! ## Markup -/

theorem dsmlToken_infix_closeTag (kind : String) : dsmlToken <:+: closeTag kind :=
  ⟨['<', '/'], kind.toList, rfl⟩

theorem closeTag_absent {kind : String} {text : List Char} (hfree : ¬ dsmlToken <:+: text) :
    ¬ closeTag kind <:+: text :=
  fun hfound => hfree ((dsmlToken_infix_closeTag kind).trans hfound)

/-- The characters that the markup around a text begins with. -/
structure Closing (kind : String) : Prop where
  open_once : '<' ∉ '/' :: (dsmlToken ++ kind.toList)
  no_quote : '"' ∉ closeTag kind
  no_newline : '\n' ∉ closeTag kind

theorem closing_toolCalls : Closing "tool_calls>" := by
  constructor <;> decide +kernel

theorem closing_invoke : Closing "invoke>" := by
  constructor <;> decide +kernel

theorem closing_parameter : Closing "parameter>" := by
  constructor <;> decide +kernel

theorem closeTag_not_prefix_openTag (kind : String) (text : List Char) :
    ¬ closeTag kind <+: '<' :: (dsmlToken ++ text) := by
  intro hstarts
  have htail := (List.cons_prefix_cons.mp hstarts).2
  have hdsml : dsmlToken = '｜' :: "DSML｜".toList := by decide +kernel
  rw [hdsml] at htail
  exact absurd (List.cons_prefix_cons.mp htail).1 (by decide)

theorem joinLines_cons (first : List Char) (lines : List (List Char)) :
    '\n' :: joinLines (first :: lines) = (first :: lines).flatMap fun line => ['\n'] ++ line := by
  rw [joinLines, intercalate_cons, List.flatMap_cons]
  rfl

/-- Lines between two line breaks are found one after the other. -/
theorem findAll_joinLines {ι α : Type} {pattern : Pattern α} {items : List ι}
    {render : ι → List Char} {capture : ι → α}
    (hgap : ∀ behind, pattern ('\n' :: behind) = [])
    (hrender : ∀ item ∈ items, render item ≠ [])
    (hmatch : ∀ item ∈ items, ∀ behind,
      (pattern (render item ++ behind)).head? = some (capture item, behind)) :
    findAll pattern ('\n' :: (joinLines (items.map render) ++ ['\n'])) = items.map capture := by
  have htail : findAll pattern ['\n'] = [] := findAll_of_fail (hgap [])
  cases items with
  | nil =>
      change findAll pattern ['\n', '\n'] = []
      rw [findAll_of_fail (hgap ['\n']), htail]
  | cons item items =>
      have hlines := @findAll_flatMap _ pattern _ (item :: items) (fun _ => ['\n']) render capture
        ['\n'] (fun _ => True)
        (fun _ _ _ _ hsplit hafter _ => fail_of_gap (by simpa using hgap) hsplit hafter _)
        (fun _ _ _ => trivial) trivial hrender fun item hitem behind _ => hmatch item hitem behind
      rw [htail, List.append_nil] at hlines
      rw [← hlines, List.map_cons, ← List.cons_append, joinLines_cons, ← List.map_cons,
        List.flatMap_map]

/-- A token without a line break that no line holds is not in the lines. -/
theorem joinLines_absent {token : List Char} {lines : List (List Char)} (htoken : token ≠ [])
    (hnewline : '\n' ∉ token) (hlines : ∀ line ∈ lines, ¬ token <:+: line) :
    ¬ token <:+: '\n' :: (joinLines lines ++ ['\n']) := by
  have hempty : ¬ token <:+: ([] : List Char) := by simpa using htoken
  have hjoined : ¬ token <:+: joinLines lines := absent_intercalate htoken hnewline hlines
  rw [← List.nil_append ('\n' :: _)]
  exact absent_append_separator hnewline hempty
    (absent_append_separator hnewline hjoined hempty)

/-! ## Single matches -/

section Matches

variable {json : PyJson V}

/-- A parameter that cannot be mistaken for markup. -/
structure ParameterFree (json : PyJson V) (entry : List Char × V) : Prop where
  no_quote : '"' ∉ entry.1
  key_free : ¬ dsmlToken <:+: entry.1
  value_free : ¬ dsmlToken <:+: (valueText json entry.2).2

/-- A call whose name and parameters cannot be mistaken for markup. -/
structure CallFree (json : PyJson V) (function : CalledFunction V) : Prop where
  no_quote : '"' ∉ function.name
  name_free : ¬ dsmlToken <:+: function.name
  parameters : ∀ entry ∈ (callArguments json function.arguments).entries, ParameterFree json entry

theorem flagRegex_flagText (isString : Bool) (behind : List Char) :
    flagRegex (flagText isString ++ behind) = [(isString, behind)] := by
  have htrue : "true".toList = ['t', 'r', 'u', 'e'] := by decide
  have hfalse : "false".toList = ['f', 'a', 'l', 's', 'e'] := by decide
  cases isString with
  | true =>
      have hother : ¬ "false".toList <+: "true".toList ++ behind := by
        rw [htrue, hfalse]
        intro hstarts
        exact absurd (List.cons_prefix_cons.mp hstarts).1 (by decide)
      change (literal "true".toList >>= fun _ => pure true) ("true".toList ++ behind) ++
        (literal "false".toList >>= fun _ => pure false) ("true".toList ++ behind) = _
      rw [literal_bind_append, literal_bind_of_not_prefix hother]
      rfl
  | false =>
      have hother : ¬ "true".toList <+: "false".toList ++ behind := by
        rw [htrue, hfalse]
        intro hstarts
        exact absurd (List.cons_prefix_cons.mp hstarts).1 (by decide)
      change (literal "true".toList >>= fun _ => pure true) ("false".toList ++ behind) ++
        (literal "false".toList >>= fun _ => pure false) ("false".toList ++ behind) = _
      rw [literal_bind_append, literal_bind_of_not_prefix hother]
      rfl

theorem quoteClose_eq : "\">".toList = quoteClose := by decide

theorem stringFlag_eq : "\" string=\"".toList = stringFlag := by decide

/-- A parameter in the tokens of its pattern. -/
theorem renderParameter_eq (entry : List Char × V) :
    renderParameter json entry = openTag "parameter name=\"" ++ (entry.1 ++ (stringFlag ++
      (flagText (valueText json entry.2).1 ++ (quoteClose ++ ((valueText json entry.2).2 ++
        closeTag "parameter>"))))) := by
  rw [renderParameter, quoteClose_eq, stringFlag_eq]

theorem forall_anyChar (text : List Char) : ∀ char ∈ text, anyChar char = true :=
  fun _ _ => rfl

theorem head?_parameterRegex {entry : List Char × V} (hentry : ParameterFree json entry)
    (behind : List Char) :
    (parameterRegex (renderParameter json entry ++ behind)).head? =
      some ((entry.1, valueText json entry.2), behind) := by
  have hvalue : ((shortest anyChar >>= fun value => literal (closeTag "parameter>") >>= fun _ =>
      (pure (entry.1, (valueText json entry.2).1, value) : Pattern _))
        ((valueText json entry.2).2 ++ (closeTag "parameter>" ++ behind))).head? =
      some ((entry.1, valueText json entry.2), behind) :=
    head?_shortest_token closing_parameter.open_once (forall_anyChar _)
      (closeTag_absent hentry.value_free) rfl
  have hflag : ((flagRegex >>= fun isString => literal quoteClose >>= fun _ =>
      shortest anyChar >>= fun value => literal (closeTag "parameter>") >>= fun _ =>
        (pure (entry.1, isString, value) : Pattern _))
          (flagText (valueText json entry.2).1 ++ (quoteClose ++ ((valueText json entry.2).2 ++
            (closeTag "parameter>" ++ behind))))).head? =
      some ((entry.1, valueText json entry.2), behind) := by
    rw [bind_apply, flagRegex_flagText, List.flatMap_singleton]
    dsimp only
    rw [literal_bind_append]
    exact hvalue
  rw [renderParameter_eq]
  simp only [List.append_assoc]
  rw [parameterRegex, literal_bind_append]
  exact head?_shortest_token_of_not_mem hentry.no_quote (forall_anyChar _) hflag

theorem renderParameter_ne_nil (entry : List Char × V) : renderParameter json entry ≠ [] :=
  List.cons_ne_nil _ _

theorem literal_openTag_newline {α : Type} (kind : String) (next : Unit → Pattern α)
    (behind : List Char) : (literal (openTag kind) >>= next) ('\n' :: behind) = [] := by
  apply literal_bind_of_not_prefix
  intro hstarts
  exact absurd (List.cons_prefix_cons.mp hstarts).1 (by decide)

/-- The parameters of an invocation, as they are found in its body. -/
theorem findAll_parameters {entries : List (List Char × V)}
    (hentries : ∀ entry ∈ entries, ParameterFree json entry) :
    findAll parameterRegex ('\n' :: (joinLines (entries.map (renderParameter json)) ++ ['\n'])) =
      entries.map fun entry => (entry.1, valueText json entry.2) :=
  findAll_joinLines (fun behind => literal_openTag_newline _ _ behind)
    (fun entry _ => renderParameter_ne_nil entry)
    fun entry hentry behind => head?_parameterRegex (hentries entry hentry) behind

/-- No other closing markup stands in a parameter. -/
theorem closeTag_absent_parameter {kind : String} (hkind : Closing kind)
    (hother : ¬ closeTag kind <:+: closeTag "parameter>") {entry : List Char × V}
    (hentry : ParameterFree json entry) : ¬ closeTag kind <:+: renderParameter json entry := by
  have hflag : '<' ∉ " string=\"".toList ++ flagText (valueText json entry.2).1 ++ quoteClose := by
    cases (valueText json entry.2).1 <;> decide +kernel
  have htail : ¬ closeTag kind <:+: (" string=\"".toList ++ flagText (valueText json entry.2).1 ++
      quoteClose) ++ (valueText json entry.2).2 :=
    absent_append_of_not_mem hflag (closeTag_absent hentry.value_free)
  have hname : ¬ closeTag kind <:+: entry.1 ++ '"' :: ((" string=\"".toList ++
      flagText (valueText json entry.2).1 ++ quoteClose) ++ (valueText json entry.2).2) :=
    absent_append_separator hkind.no_quote (closeTag_absent hentry.key_free) htail
  have hopen : '<' ∉ dsmlToken ++ "parameter name=\"".toList := by decide +kernel
  have hbefore : ¬ closeTag kind <:+: '<' :: ((dsmlToken ++ "parameter name=\"".toList) ++
      (entry.1 ++ '"' :: ((" string=\"".toList ++ flagText (valueText json entry.2).1 ++
        quoteClose) ++ (valueText json entry.2).2))) := by
    refine absent_cons ?_ (absent_append_of_not_mem hopen hname)
    rw [List.append_assoc]
    exact closeTag_not_prefix_openTag kind _
  have hrender : renderParameter json entry =
      ('<' :: ((dsmlToken ++ "parameter name=\"".toList) ++ (entry.1 ++ '"' ::
        ((" string=\"".toList ++ flagText (valueText json entry.2).1 ++ quoteClose) ++
          (valueText json entry.2).2)))) ++ closeTag "parameter>" := by
    rw [renderParameter_eq, openTag, stringFlag]
    simp only [List.append_assoc, List.cons_append]
  rw [hrender]
  exact absent_append_cons hkind.open_once hbefore hother

/-- The lines of an invocation between its markup. -/
def invokeBody (json : PyJson V) (function : CalledFunction V) : List Char :=
  '\n' :: (joinLines ((callArguments json function.arguments).entries.map (renderParameter json)) ++
    ['\n'])

theorem renderToolCall_eq (function : CalledFunction V) :
    renderToolCall json function = openTag "invoke name=\"" ++ (function.name ++ (quoteClose ++
      (invokeBody json function ++ closeTag "invoke>"))) := by
  rw [renderToolCall, renderInvoke, quoteClose_eq, invokeBody]
  simp only [List.cons_append, List.append_assoc, List.nil_append]

theorem closeTag_absent_invokeBody {kind : String} (hkind : Closing kind)
    (hother : ¬ closeTag kind <:+: closeTag "parameter>") {function : CalledFunction V}
    (hfunction : CallFree json function) : ¬ closeTag kind <:+: invokeBody json function := by
  refine joinLines_absent (List.cons_ne_nil _ _) hkind.no_newline fun line hline => ?_
  obtain ⟨entry, hentry, rfl⟩ := List.mem_map.mp hline
  exact closeTag_absent_parameter hkind hother (hfunction.parameters entry hentry)

theorem head?_invokeRegex {function : CalledFunction V} (hfunction : CallFree json function)
    (behind : List Char) :
    (invokeRegex (renderToolCall json function ++ behind)).head? =
      some ((function.name, invokeBody json function), behind) := by
  have hother : ¬ closeTag "invoke>" <:+: closeTag "parameter>" := by decide +kernel
  have hbody : ((shortest anyChar >>= fun body => literal (closeTag "invoke>") >>= fun _ =>
      (pure (function.name, body) : Pattern _))
        (invokeBody json function ++ (closeTag "invoke>" ++ behind))).head? =
      some ((function.name, invokeBody json function), behind) :=
    head?_shortest_token closing_invoke.open_once (forall_anyChar _)
      (closeTag_absent_invokeBody closing_invoke hother hfunction) rfl
  rw [renderToolCall_eq]
  simp only [List.append_assoc]
  rw [invokeRegex, literal_bind_append]
  exact head?_shortest_token_of_not_mem hfunction.no_quote (forall_anyChar _) hbody

/-- The block of tool calls does not close inside of a call. -/
theorem closeTag_absent_toolCall {function : CalledFunction V}
    (hfunction : CallFree json function) :
    ¬ closeTag "tool_calls>" <:+: renderToolCall json function := by
  have hparameter : ¬ closeTag "tool_calls>" <:+: closeTag "parameter>" := by decide +kernel
  have hinvoke : ¬ closeTag "tool_calls>" <:+: closeTag "invoke>" := by decide +kernel
  have hopen : '<' ∉ dsmlToken ++ "invoke name=\"".toList := by decide +kernel
  have hbody : ¬ closeTag "tool_calls>" <:+: ['>'] ++ invokeBody json function :=
    absent_append_of_not_mem (by decide)
      (closeTag_absent_invokeBody closing_toolCalls hparameter hfunction)
  have hname : ¬ closeTag "tool_calls>" <:+:
      function.name ++ '"' :: (['>'] ++ invokeBody json function) :=
    absent_append_separator closing_toolCalls.no_quote (closeTag_absent hfunction.name_free) hbody
  have hbefore : ¬ closeTag "tool_calls>" <:+: '<' :: ((dsmlToken ++ "invoke name=\"".toList) ++
      (function.name ++ '"' :: (['>'] ++ invokeBody json function))) := by
    refine absent_cons ?_ (absent_append_of_not_mem hopen hname)
    rw [List.append_assoc]
    exact closeTag_not_prefix_openTag _ _
  have hrender : renderToolCall json function =
      ('<' :: ((dsmlToken ++ "invoke name=\"".toList) ++ (function.name ++ '"' ::
        (['>'] ++ invokeBody json function)))) ++ closeTag "invoke>" := by
    rw [renderToolCall_eq, openTag, quoteClose]
    simp only [List.append_assoc, List.cons_append, List.nil_append]
  rw [hrender]
  exact absent_append_cons closing_toolCalls.open_once hbefore hinvoke

/-- The lines of a block between its markup. -/
def blockBody (json : PyJson V) (functions : List (CalledFunction V)) : List Char :=
  '\n' :: (joinLines (functions.map (renderToolCall json)) ++ ['\n'])

theorem renderToolCalls_eq (functions : List (CalledFunction V)) :
    renderToolCalls json functions = "\n\n".toList ++ (toolCallsStartToken ++
      (blockBody json functions ++ toolCallsEndToken)) := by
  rw [renderToolCalls, blockBody]
  simp only [List.cons_append, List.append_assoc, List.nil_append]

theorem head?_toolCallsRegex {functions : List (CalledFunction V)}
    (hfunctions : ∀ function ∈ functions, CallFree json function) :
    (toolCallsRegex (toolCallsStartToken ++ (blockBody json functions ++
      (toolCallsEndToken ++ [])))).head? = some (blockBody json functions, []) := by
  rw [toolCallsRegex, literal_bind_append]
  refine head?_shortest_token closing_toolCalls.open_once (forall_anyChar _) ?_ rfl
  refine joinLines_absent (List.cons_ne_nil _ _) closing_toolCalls.no_newline fun line hline => ?_
  obtain ⟨function, hfunction, rfl⟩ := List.mem_map.mp hline
  exact closeTag_absent_toolCall (hfunctions function hfunction)

/-! ## A turn -/

theorem parameterValue_valueText (hjson : json.Lawful) (value : V) :
    parameterValue json (valueText json value).1 (valueText json value).2 = value := by
  have hview : ∀ view, json.view value = view →
      parameterValue json (valueText json value).1 (valueText json value).2 = value := by
    intro view hview
    cases view with
    | text text =>
        rw [valueText, hview]
        exact (hjson.eq_string value text hview).symm
    | dict entries =>
        rw [valueText, hview]
        simp [parameterValue, hjson.loads_dumps]
    | other =>
        rw [valueText, hview]
        simp [parameterValue, hjson.loads_dumps]
  exact hview _ rfl

def expectedCall (json : PyJson V) (function : CalledFunction V) : FunctionCall where
  name := function.name
  arguments := json.dumpsDict (callArguments json function.arguments)

theorem parseToolCalls_blockBody (hjson : json.Lawful) {functions : List (CalledFunction V)}
    (hfunctions : ∀ function ∈ functions, CallFree json function) :
    parseToolCalls json (blockBody json functions) = functions.map (expectedCall json) := by
  have hfound : findAll invokeRegex (blockBody json functions) =
      functions.map fun function => (function.name, invokeBody json function) :=
    findAll_joinLines (fun behind => literal_openTag_newline _ _ behind)
      (fun function _ => List.cons_ne_nil _ _)
      fun function hfunction behind => head?_invokeRegex (hfunctions function hfunction) behind
  rw [parseToolCalls, hfound, List.map_map]
  refine List.map_congr_left fun function hfunction => ?_
  have harguments := findAll_parameters (hfunctions function hfunction).parameters
  simp only [Function.comp_apply, invokeBody, harguments, List.map_map, expectedCall]
  congr 2
  have hentries : (callArguments json function.arguments).entries.map
      ((fun parameter : List Char × Bool × List Char =>
        (parameter.1, parameterValue json parameter.2.1 parameter.2.2)) ∘
          fun entry => (entry.1, valueText json entry.2)) =
      (callArguments json function.arguments).entries := by
    conv_rhs => rw [← List.map_id (callArguments json function.arguments).entries]
    refine List.map_congr_left fun entry _ => ?_
    simp [parameterValue_valueText hjson]
  rw [hentries]
  exact Dict.ofList_entries _

/-- A turn behind the open thinking block of the prompt, or behind a prompt that
has closed it. -/
def completion (json : PyJson V) (reasoning : Option (List Char)) (answer : List Char)
    (functions : List (CalledFunction V)) : List Char :=
  (reasoning.map fun text => text ++ thinkEndToken).getD [] ++
    (answer ++ renderToolCalls json functions)

theorem thinkEndToken_eq : thinkEndToken = '<' :: "/think>".toList := by decide

theorem newlines_eq : "\n\n".toList = ['\n', '\n'] := by decide

theorem openTag_absent {kind : String} {text : List Char} (hfree : ¬ dsmlToken <:+: text) :
    ¬ openTag kind <:+: text := by
  have hfound : dsmlToken <:+: openTag kind := ⟨['<'], kind.toList, rfl⟩
  exact fun hopen => hfree (hfound.trans hopen)

/-- The text before the block of tool calls. -/
def beforeBlock (reasoning : Option (List Char)) (answer : List Char) : List Char :=
  (reasoning.map fun text => text ++ thinkEndToken).getD [] ++ (answer ++ "\n\n".toList)

theorem completion_eq (reasoning : Option (List Char)) (answer : List Char)
    (functions : List (CalledFunction V)) :
    completion json reasoning answer functions = beforeBlock reasoning answer ++
      (toolCallsStartToken ++ (blockBody json functions ++ toolCallsEndToken)) := by
  rw [completion, beforeBlock, renderToolCalls_eq]
  simp only [List.append_assoc]

section Turn

variable {reasoning : Option (List Char)} {answer : List Char}
  (hreasoning : ∀ text ∈ reasoning, ¬ dsmlToken <:+: text)
  (hanswer : ¬ dsmlToken <:+: answer)

include hreasoning hanswer in
theorem startToken_absent : ¬ toolCallsStartToken <:+: beforeBlock reasoning answer := by
  have hnewline : '\n' ∉ toolCallsStartToken := by decide +kernel
  have hempty : ¬ toolCallsStartToken <:+: ([] : List Char) := by decide +kernel
  have htail : ¬ toolCallsStartToken <:+: answer ++ "\n\n".toList := by
    rw [newlines_eq]
    exact absent_append_separator hnewline (openTag_absent hanswer)
      (absent_append_separator hnewline hempty hempty)
  cases reasoning with
  | none => exact htail
  | some reasoning =>
      have hclose : ¬ toolCallsStartToken <+: '<' :: ("/think>".toList ++ (answer ++
          "\n\n".toList)) := by
        have hslash : "/think>".toList = '/' :: "think>".toList := by decide
        have hdsml : dsmlToken = '｜' :: "DSML｜".toList := by decide +kernel
        intro hstarts
        have hnext := (List.cons_prefix_cons.mp hstarts).2
        rw [hslash, hdsml] at hnext
        exact absurd (List.cons_prefix_cons.mp hnext).1 (by decide)
      have hbehind : ¬ toolCallsStartToken <:+: '<' :: ("/think>".toList ++ (answer ++
          "\n\n".toList)) :=
        absent_cons hclose (absent_append_of_not_mem (by decide) htail)
      have honce : '<' ∉ dsmlToken ++ "tool_calls>".toList := by decide +kernel
      rw [beforeBlock, Option.map_some, Option.getD_some, thinkEndToken_eq, List.append_assoc]
      exact absent_append_cons honce (openTag_absent (hreasoning reasoning rfl)) hbehind

theorem stripReasoning_beforeBlock (hthink : ¬ thinkEndToken <:+: answer) :
    stripReasoning (beforeBlock reasoning answer) = answer ++ "\n\n".toList := by
  have hnewline : '\n' ∉ thinkEndToken := by decide
  have hempty : ¬ thinkEndToken <:+: ([] : List Char) := by decide
  have htail : ¬ thinkEndToken <:+: answer ++ "\n\n".toList := by
    rw [newlines_eq]
    exact absent_append_separator hnewline hthink
      (absent_append_separator hnewline hempty hempty)
  cases reasoning with
  | none =>
      change (behindLast thinkEndToken (answer ++ "\n\n".toList)).getD _ = _
      rw [behindLast_of_absent htail]
      rfl
  | some reasoning =>
      rw [thinkEndToken_eq] at htail
      rw [stripReasoning, beforeBlock, Option.map_some, Option.getD_some, thinkEndToken_eq,
        behindLast_append (by decide) htail]
      rfl

/-- The text that is left without padding and the end of the sentence. -/
theorem removeSpecial_closed {padToken : Option (List Char)} {text : List Char} (closed : Bool)
    (heos : ¬ eosToken <:+: text)
    (hpad : ∀ token ∈ padToken, token = eosToken ∨
      ¬ token <:+: text ++ if closed then eosToken else []) :
    removeSpecial padToken (text ++ if closed then eosToken else []) = text := by
  have heosToken : eosToken = '<' :: "｜end▁of▁sentence｜>".toList := by decide +kernel
  have honce : '<' ∉ "｜end▁of▁sentence｜>".toList := by decide +kernel
  have hclosed : removeAll eosToken (text ++ if closed then eosToken else []) = text := by
    cases closed with
    | false => simpa using removeAll_of_absent heos
    | true =>
        rw [heosToken] at heos ⊢
        exact removeAll_append_token honce heos
  cases padToken with
  | none => exact hclosed
  | some token =>
      rw [removeSpecial]
      split
      next => exact hclosed
      next =>
          rcases hpad token rfl with rfl | habsent
          · rw [hclosed, removeAll_of_absent heos]
          · rw [removeAll_of_absent habsent, hclosed]

include hreasoning hanswer in
/-- The parser takes back the calls that the encoder rendered, and the answer
without its reasoning. -/
theorem extractToolCalls_completion (hjson : json.Lawful) {padToken : Option (List Char)}
    {functions : List (CalledFunction V)} (closed : Bool)
    (hfunctions : ∀ function ∈ functions, CallFree json function)
    (hthink : ¬ thinkEndToken <:+: answer)
    (heos : ¬ eosToken <:+: completion json reasoning answer functions)
    (hpad : ∀ token ∈ padToken, token = eosToken ∨
      ¬ token <:+: completion json reasoning answer functions ++ if closed then eosToken else []) :
    extractToolCalls json padToken
        (completion json reasoning answer functions ++ if closed then eosToken else []) =
      (answer, functions.map (expectedCall json)) := by
  have hstart := startToken_absent hreasoning hanswer
  have honce : '<' ∉ dsmlToken ++ "tool_calls>".toList := by decide +kernel
  have hbefore : beforeFirst toolCallsStartToken (completion json reasoning answer functions) =
      some (beforeBlock reasoning answer) := by
    rw [completion_eq, ← List.append_assoc]
    exact beforeFirst_append honce hstart
  have hfound : findAll toolCallsRegex (completion json reasoning answer functions) =
      [blockBody json functions] := by
    rw [completion_eq, findAll_append_of_fail]
    · have hmatch := head?_toolCallsRegex hfunctions
      simp only [← List.append_assoc] at hmatch ⊢
      have hblock := @findAll_of_match _ toolCallsRegex _ [] _ (List.cons_ne_nil _ _) hmatch
      rw [List.append_nil] at hblock
      exact hblock
    · rintro front behind heq hbehind
      apply literal_bind_of_not_prefix
      refine not_prefix_of_append honce hbehind fun hfound => hstart ?_
      rw [heq]
      exact hfound.trans (List.suffix_append front behind).isInfix
  rw [extractToolCalls, removeSpecial_closed closed heos hpad]
  simp only [hbefore, hfound, List.flatMap_singleton]
  rw [stripReasoning_beforeBlock hthink, removeSuffix_append,
    parseToolCalls_blockBody hjson hfunctions]

end Turn

end Matches

/-! ## A call with one number -/

/-- Strings, numbers, and the object with a number under the key `x`. -/
inductive SampleValue where
  | text (value : List Char)
  | number (value : ℕ)
  | point (x : ℕ)

def sampleJson : PyJson SampleValue where
  view
    | .text value => .text value
    | .number _ => .other
    | .point x => .dict (Dict.ofList [(['x'], .number x)])
  string := .text
  dumps
    | .text value => '"' :: (value ++ ['"'])
    | .number value => value.repr.toList
    | .point x => '\x7b' :: ("\"x\": ".toList ++ (x.repr.toList ++ ['\x7d']))
  loads
    | '"' :: text => some (.text text.dropLast)
    | '\x7b' :: text => (readDigits (text.drop 5).dropLast).map .point
    | digits => (readDigits digits).map .number
  dumpsDict arguments := '\x7b' :: (List.intercalate ", ".toList (arguments.entries.map fun entry =>
    '"' :: (entry.1 ++ "\": ".toList ++ (match entry.2 with
      | .text value => '"' :: (value ++ ['"'])
      | .number value => value.repr.toList
      | .point x => x.repr.toList))) ++ ['\x7d'])

theorem sampleJson_lawful : sampleJson.Lawful where
  view_string _ := rfl
  eq_string value text hview := by
    cases value with
    | text other =>
        cases hview
        rfl
    | number other => cases hview
    | point x => cases hview
  loads_dumps value := by
    cases value with
    | text text =>
        change some (SampleValue.text (text ++ ['"']).dropLast) = _
        rw [List.dropLast_concat]
    | number value =>
        have hloads : sampleJson.loads value.repr.toList =
            (readDigits value.repr.toList).map .number := by
          cases hchars : value.repr.toList with
          | nil => rfl
          | cons first rest =>
              have hfirst : first.isDigit = true :=
                isDigit_of_mem_repr (hchars ▸ List.mem_cons_self)
              simp only [sampleJson]
              split
              next heq => cases heq; exact absurd hfirst (by decide)
              next heq => cases heq; exact absurd hfirst (by decide)
              next => rfl
        change sampleJson.loads value.repr.toList = _
        rw [hloads, readDigits_repr]
        rfl
    | point x =>
        have hhead : "\"x\": ".toList = ['"', 'x', '"', ':', ' '] := by decide
        change (readDigits ((("\"x\": ".toList ++ (x.repr.toList ++ ['\x7d'])).drop 5).dropLast)).map
          SampleValue.point = _
        rw [hhead]
        change (readDigits (x.repr.toList ++ ['\x7d']).dropLast).map SampleValue.point = _
        rw [List.dropLast_concat, readDigits_repr]
        rfl

def moveCall : CalledFunction SampleValue := ⟨"move".toList, .point 4⟩

theorem moveCall_free : CallFree sampleJson moveCall where
  no_quote := by decide +kernel
  name_free := by decide +kernel
  parameters entry hentry := by
    obtain rfl : entry = (['x'], .number 4) := List.mem_singleton.mp hentry
    constructor <;> decide +kernel

theorem extractToolCalls_moveCall :
    extractToolCalls sampleJson (some eosToken)
        (completion sampleJson (some "why".toList) "I move.".toList [moveCall] ++
          if true then eosToken else []) =
      ("I move.".toList, [expectedCall sampleJson moveCall]) :=
  extractToolCalls_completion (by decide +kernel) (by decide +kernel) sampleJson_lawful true
    (by simpa using moveCall_free) (by decide +kernel) (by decide +kernel)
    (by simp)

end OneShotOPD.DeepSeek
