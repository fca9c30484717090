import OneShotOPD.Core.Checks
import OneShotOPD.Core.Dict
import OneShotOPD.Core.Pattern

/-!
# The Qwen3 tool parser

Blocks, functions and parameters are found by patterns with a second way for
text that is cut off.  Values are converted by their declared type, and the
arguments are serialised again under one `try` around all of the calls.
-/

namespace OneShotOPD.Qwen3XML

open Pattern Text

/-! ## Values -/

/-- Conversions of the language, `json` and `ast`.  `V` are the values that
these yield and `F` the floats. -/
structure PyText (V F : Type) where
  isSpace : Char → Bool
  lower : List Char → List Char
  int : List Char → Option ℤ
  float : List Char → Option F
  /-- `int(number)`, which a float without an integer part has not. -/
  truncate : F → Option ℤ
  /-- `number - int(number) != 0`. -/
  hasFraction : F → Bool
  ofText : List Char → V
  ofInt : ℤ → V
  ofFloat : F → V
  ofBool : Bool → V
  null : V
  loads : List Char → Option V
  literalEval : List Char → Option V
  dumpText : List Char → List Char
  /-- `json.dumps` of one value, or its `TypeError`. -/
  dumpValue : V → Except String (List Char)

/-- `FunctionCall`. -/
structure FunctionCall where
  name : List Char
  arguments : List Char
  deriving DecidableEq

/-- `OpenAIFunctionToolSchema`, with the `str()` of each declared type. -/
structure ToolSchema where
  type : List Char
  name : List Char
  properties : Dict (List Char) (List Char)

/-! ## Patterns -/

def anyChar (_ : Char) : Bool := true

/-- `$`, at the end or before a line break at the end. -/
def lineEnd : Pattern Unit := fun text => if text = [] ∨ text = ['\n'] then [((), text)] else []

/-- A text between markup or, in the second group, behind the opening markup. -/
def elementRegex (openTag closeTag : List Char) (rest : Pattern (List Char)) :
    Pattern (List Char × List Char) :=
  orElse
    (literal openTag >>= fun _ => shortest anyChar >>= fun body =>
      literal closeTag >>= fun _ => pure (body, []))
    (literal openTag >>= fun _ => rest >>= fun body => lineEnd >>= fun _ => pure ([], body))

def toolCallStartToken : List Char := '<' :: "tool_call>".toList

def toolCallEndToken : List Char := '<' :: "/tool_call>".toList

def functionOpen : List Char := '<' :: "function=".toList

def functionClose : List Char := '<' :: "/function>".toList

def parameterOpen : List Char := '<' :: "parameter=".toList

def parameterClose : List Char := '<' :: "/parameter>".toList

/-- `<tool_call>(.*?)</tool_call>|<tool_call>(.*?)$`. -/
def toolCallRegex : Pattern (List Char × List Char) :=
  elementRegex toolCallStartToken toolCallEndToken (shortest anyChar)

/-- `<function=(.*?)</function>|<function=(.*)$`. -/
def toolCallFunctionRegex : Pattern (List Char × List Char) :=
  elementRegex functionOpen functionClose (longest anyChar)

/-- `<parameter=(.*?)</parameter>|<parameter=(.*?)$`. -/
def toolCallParameterRegex : Pattern (List Char × List Char) :=
  elementRegex parameterOpen parameterClose (shortest anyChar)

/-- `match[0] if match[0] else match[1]`. -/
def group (groups : List Char × List Char) : List Char :=
  if groups.1 ≠ [] then groups.1 else groups.2

/-- The texts around the first `>`, when there is one. -/
def splitAtClose (text : List Char) : Option (List Char × List Char) :=
  if '>' ∈ text then
    some (text.takeWhile (· ≠ '>'), (text.dropWhile (· ≠ '>')).tail)
  else none

/-! ## The parser -/

section Parser

variable {V F : Type} (py : PyText V F)

def strip (text : List Char) : List Char :=
  ((text.dropWhile py.isSpace).reverse.dropWhile py.isSpace).reverse

def stringTypes : List (List Char) :=
  ["string".toList, "str".toList, "text".toList, "varchar".toList, "char".toList, "enum".toList]

def integerPrefixes : List (List Char) :=
  ["int".toList, "uint".toList, "long".toList, "short".toList, "unsigned".toList]

def numberPrefixes : List (List Char) := ["num".toList, "float".toList]

def booleanTypes : List (List Char) := ["boolean".toList, "bool".toList, "binary".toList]

/-- `get_arguments_config`. -/
def getArgumentsConfig (tools : List ToolSchema) (functionName : List Char) :
    Dict (List Char) (List Char) :=
  match tools.find? fun tool => tool.type = "function".toList ∧ tool.name = functionName with
  | some tool => tool.properties
  | none => Dict.empty

/-- The conversion for a number type. -/
def convertNumber (value : List Char) : V :=
  match py.float value with
  | none => py.ofText value
  | some number =>
      match py.truncate number with
      | none => py.ofText value
      | some whole => if py.hasFraction number then py.ofFloat number else py.ofInt whole

/-- The conversion for a type that is not basic: `json` for objects, then
literals of the language, and otherwise the text. -/
def convertStructured (paramType value : List Char) : V :=
  let literal := (py.literalEval value).getD (py.ofText value)
  if paramType = "object".toList ∨ "dict".toList <+: paramType then (py.loads value).getD literal
  else literal

/-- `convert_param_value`. -/
def convertParamValue (config : Dict (List Char) (List Char)) (name value : List Char) : V :=
  if py.lower value = "null".toList then py.null
  else
    match config.get? name with
    | none => py.ofText value
    | some declared =>
        let paramType := py.lower (strip py declared)
        if paramType ∈ stringTypes then py.ofText value
        else if ∃ kind ∈ integerPrefixes, kind <+: paramType then
          (match py.int value with
            | some number => py.ofInt number
            | none => py.ofText value)
        else if ∃ kind ∈ numberPrefixes, kind <+: paramType then convertNumber py value
        else if paramType ∈ booleanTypes then py.ofBool (py.lower value = "true".toList)
        else convertStructured py paramType value

/-- The removal of one line break from each end. -/
def trimNewlines (value : List Char) : List Char :=
  removeSuffix ['\n'] (match value with
    | '\n' :: value => value
    | value => value)

/-- `json.dumps` of the arguments. -/
def dumps (arguments : Dict (List Char) V) : Except String (List Char) := do
  let parts ← arguments.entries.mapM fun entry => do
    let value ← py.dumpValue entry.2
    return py.dumpText entry.1 ++ ": ".toList ++ value
  return '\x7b' :: (List.intercalate ", ".toList parts ++ ['\x7d'])

/-- The arguments of a function, by the parameters in its text. -/
def paramDict (config : Dict (List Char) (List Char)) (parameters : List Char) :
    Dict (List Char) V :=
  Dict.ofList ((findAll toolCallParameterRegex parameters).filterMap fun groups =>
    (splitAtClose (group groups)).map fun parameter =>
      (parameter.1, convertParamValue py config parameter.1 (trimNewlines parameter.2)))

/-- `_parse_xml_function_call`. -/
def parseXmlFunctionCall (tools : List ToolSchema) (functionCallStr : List Char) :
    Except String (Option FunctionCall) :=
  match splitAtClose functionCallStr with
  | none => return none
  | some (functionName, parameters) => do
      let arguments ← dumps py (paramDict py (getArgumentsConfig tools functionName) parameters)
      return some { name := functionName, arguments }

/-- `_get_function_calls`. -/
def getFunctionCalls (modelOutput : List Char) : List (List Char) :=
  let rawToolCalls := (findAll toolCallRegex modelOutput).map group
  let rawToolCalls := if rawToolCalls = [] then [modelOutput] else rawToolCalls
  (rawToolCalls.flatMap (findAll toolCallFunctionRegex)).map group

/-- `extract_tool_calls`, of the decoded response. -/
def extractToolCalls (tools : List ToolSchema) (text : List Char) : List Char × List FunctionCall :=
  match beforeFirst toolCallStartToken text with
  | none => (text, [])
  | some content =>
      let functionCalls := getFunctionCalls text
      if functionCalls = [] then (text, [])
      else
        match functionCalls.mapM (parseXmlFunctionCall py tools) with
        | .error _ => (text, [])
        | .ok toolCalls => (content, toolCalls.filterMap id)

end Parser

/-! ## Texts of complete blocks -/

/-- A complete parameter behind other text. -/
structure Parameter where
  lead : List Char
  name : List Char
  value : List Char

def Parameter.body (parameter : Parameter) : List Char := parameter.name ++ '>' :: parameter.value

def Parameter.render (parameter : Parameter) : List Char :=
  parameterOpen ++ (parameter.body ++ parameterClose)

/-- A complete block behind other text, with one complete function and other text
around it. -/
structure Block where
  lead : List Char
  before : List Char
  name : List Char
  parameters : List Parameter
  rest : List Char
  behind : List Char

/-- The text behind the name of the function. -/
def Block.parameterText (block : Block) : List Char :=
  (block.parameters.flatMap fun parameter => parameter.lead ++ parameter.render) ++ block.rest

def Block.functionText (block : Block) : List Char := block.name ++ '>' :: block.parameterText

def Block.inner (block : Block) : List Char :=
  block.before ++ (functionOpen ++ (block.functionText ++ functionClose) ++ block.behind)

def Block.render (block : Block) : List Char :=
  toolCallStartToken ++ (block.inner ++ toolCallEndToken)

/-- A text of blocks. -/
def blocksText (blocks : List Block) (tail : List Char) : List Char :=
  (blocks.flatMap fun block => block.lead ++ block.render) ++ tail

/-- No markup but the given one. -/
structure Parameter.WellFormed (parameter : Parameter) : Prop where
  lead_open : ¬ parameterOpen <:+: parameter.lead
  name_close : '>' ∉ parameter.name
  body_close : ¬ parameterClose <:+: parameter.body

structure Block.WellFormed (block : Block) : Prop where
  lead_start : ¬ toolCallStartToken <:+: block.lead
  inner_end : ¬ toolCallEndToken <:+: block.inner
  before_open : ¬ functionOpen <:+: block.before
  name_close : '>' ∉ block.name
  function_close : ¬ functionClose <:+: block.functionText
  behind_open : ¬ functionOpen <:+: block.behind
  parameters : ∀ parameter ∈ block.parameters, parameter.WellFormed
  rest_open : ¬ parameterOpen <:+: block.rest

section Blocks

variable {V F : Type} (py : PyText V F) (tools : List ToolSchema)

/-- The converted arguments of a block; of two with one name the later is taken. -/
def Block.arguments (block : Block) : Dict (List Char) V :=
  Dict.ofList (block.parameters.map fun parameter =>
    (parameter.name, convertParamValue py (getArgumentsConfig tools block.name) parameter.name
      (trimNewlines parameter.value)))

/-- The arguments hold no value that `json` refuses. -/
def Block.Serialisable (block : Block) : Prop :=
  ∀ entry ∈ (block.arguments py tools).entries, ∃ text, py.dumpValue entry.2 = .ok text

end Blocks

/-! ## Elements -/

section Elements

variable {openRest closeRest : List Char} {rest : Pattern (List Char)}

theorem elementRegex_of_not_prefix {openTag closeTag text : List Char}
    (hopen : ¬ openTag <+: text) : elementRegex openTag closeTag rest text = [] := by
  rw [elementRegex, orElse_apply, literal_bind_of_not_prefix hopen,
    literal_bind_of_not_prefix hopen, List.append_nil]

/-- A complete element is matched up to its first closing markup. -/
theorem head?_elementRegex {openTag body : List Char} (hclose : '<' ∉ closeRest)
    (hbody : ¬ '<' :: closeRest <:+: body) (behind : List Char) :
    (elementRegex openTag ('<' :: closeRest) rest
      (openTag ++ (body ++ '<' :: closeRest) ++ behind)).head? = some ((body, []), behind) := by
  have hfirst : ((shortest anyChar >>= fun body => literal ('<' :: closeRest) >>= fun _ =>
      (pure (body, []) : Pattern (List Char × List Char)))
        (body ++ (('<' :: closeRest) ++ behind))).head? = some ((body, []), behind) :=
    head?_shortest_token hclose (fun _ _ => rfl) hbody rfl
  rw [List.append_assoc, List.append_assoc, elementRegex, orElse_apply, List.head?_append,
    literal_bind_append, hfirst]
  rfl

/-- The elements of a text with markup-free text before, between and behind them. -/
theorem findAll_elements {ι : Type} {items : List ι} {lead body : ι → List Char}
    {tail : List Char} (hopen : '<' ∉ openRest) (hclose : '<' ∉ closeRest)
    (hlead : ∀ item ∈ items, ¬ '<' :: openRest <:+: lead item)
    (hbody : ∀ item ∈ items, ¬ '<' :: closeRest <:+: body item)
    (htail : ¬ '<' :: openRest <:+: tail) :
    findAll (elementRegex ('<' :: openRest) ('<' :: closeRest) rest)
        (items.flatMap (fun item =>
          lead item ++ ('<' :: openRest ++ (body item ++ '<' :: closeRest))) ++ tail) =
      items.map fun item => (body item, []) := by
  have hnone :
      findAll (elementRegex ('<' :: openRest) ('<' :: closeRest) rest) (tail ++ []) = [] := by
    rw [findAll_append_of_fail]
    · rfl
    · rintro before after rfl -
      rw [List.append_nil]
      exact elementRegex_of_not_prefix fun hstarts =>
        htail (hstarts.isInfix.trans (List.suffix_append before after).isInfix)
  rw [List.append_nil] at hnone
  have hfound := @findAll_flatMap _ (elementRegex ('<' :: openRest) ('<' :: closeRest) rest) _ items
    lead (fun item => '<' :: openRest ++ (body item ++ '<' :: closeRest))
    (fun item => (body item, [])) tail (fun _ => True)
    (fun item hitem before after hsplit hafter behind => elementRegex_of_not_prefix ?_)
    (fun _ _ _ => trivial) trivial (fun _ _ => List.cons_ne_nil _ _)
    fun item hitem behind _ => head?_elementRegex hclose (hbody item hitem) behind
  · rw [hfound, hnone, List.append_nil]
  · exact not_prefix_of_append hopen hafter fun hfound => hlead item hitem
      (hsplit ▸ hfound.trans (List.suffix_append before after).isInfix)

theorem group_complete (body : List Char) : group (body, []) = body := by
  rw [group]
  split
  next => rfl
  next hempty => exact (not_not.mp hempty).symm

theorem splitAtClose_append {name : List Char} (hname : '>' ∉ name) (value : List Char) :
    splitAtClose (name ++ '>' :: value) = some (name, value) := by
  have hkeep : ∀ char ∈ name, decide (char ≠ '>') = true := fun char hchar =>
    decide_eq_true fun heq => hname (heq ▸ hchar)
  rw [splitAtClose, if_pos (List.mem_append_right name List.mem_cons_self),
    List.takeWhile_append_of_pos hkeep, List.dropWhile_append_of_pos hkeep]
  simp

end Elements

section Blocks

variable {V F : Type} {py : PyText V F} {tools : List ToolSchema}

/-- The parameters of a block are found and converted. -/
theorem paramDict_parameterText {block : Block} (hblock : block.WellFormed) :
    paramDict py (getArgumentsConfig tools block.name) block.parameterText =
      block.arguments py tools := by
  have hfound : findAll toolCallParameterRegex block.parameterText =
      block.parameters.map fun parameter => (parameter.body, []) :=
    findAll_elements (by decide) (by decide)
      (fun parameter h => (hblock.parameters parameter h).lead_open)
      (fun parameter h => (hblock.parameters parameter h).body_close) hblock.rest_open
  rw [paramDict, hfound, Block.arguments, List.filterMap_map]
  congr 1
  rw [← List.filterMap_eq_map]
  refine List.filterMap_congr fun parameter hparameter => ?_
  rw [Function.comp_apply, group_complete, Parameter.body,
    splitAtClose_append (hblock.parameters parameter hparameter).name_close]
  rfl

theorem parseXmlFunctionCall_functionText {block : Block} (hblock : block.WellFormed) :
    parseXmlFunctionCall py tools block.functionText = do
      let arguments ← dumps py (block.arguments py tools)
      return some { name := block.name, arguments } := by
  rw [parseXmlFunctionCall, Block.functionText, splitAtClose_append hblock.name_close]
  simp only [paramDict_parameterText hblock]

theorem getFunctionCalls_blocksText {blocks : List Block} {tail : List Char} (hne : blocks ≠ [])
    (hblocks : ∀ block ∈ blocks, block.WellFormed) (htail : ¬ toolCallStartToken <:+: tail) :
    getFunctionCalls (blocksText blocks tail) = blocks.map Block.functionText := by
  have hfound : findAll toolCallRegex (blocksText blocks tail) =
      blocks.map fun block => (block.inner, []) :=
    findAll_elements (by decide) (by decide) (fun block h => (hblocks block h).lead_start)
      (fun block h => (hblocks block h).inner_end) htail
  have hfunction : ∀ block ∈ blocks, findAll toolCallFunctionRegex block.inner =
      [(block.functionText, [])] := by
    intro block hmem
    have hsingle := @findAll_elements "function=".toList "/function>".toList (longest anyChar)
      Unit [()] (fun _ => block.before) (fun _ => block.functionText) block.behind (by decide)
      (by decide) (fun _ _ => (hblocks block hmem).before_open)
      (fun _ _ => (hblocks block hmem).function_close) (hblocks block hmem).behind_open
    rw [List.flatMap_singleton, List.append_assoc] at hsingle
    exact hsingle
  have hgroups : (blocks.map fun block => (block.inner, ([] : List Char))).map group =
      blocks.map Block.inner := by
    rw [List.map_map]
    exact List.map_congr_left fun block _ => group_complete block.inner
  rw [getFunctionCalls, hfound]
  simp only [hgroups]
  rw [if_neg (by simpa using hne), List.flatMap_map, List.flatMap_congr hfunction,
    ← List.map_eq_flatMap, List.map_map]
  exact List.map_congr_left fun block _ => group_complete block.functionText

/-! ## Calls -/

theorem dumps_isOk_iff {arguments : Dict (List Char) V} :
    (∃ text, dumps py arguments = .ok text) ↔
      ∀ entry ∈ arguments.entries, ∃ text, py.dumpValue entry.2 = .ok text := by
  rw [dumps]
  refine Checks.bind_pure_isOk_iff.trans (Checks.mapM_isOk_iff.trans ?_)
  exact forall₂_congr fun entry _ => Checks.bind_pure_isOk_iff

/-- The call of a block, when its arguments are serialised. -/
def Block.calls (py : PyText V F) (tools : List ToolSchema) (block : Block) : List FunctionCall :=
  match dumps py (block.arguments py tools) with
  | .ok arguments => [{ name := block.name, arguments }]
  | .error _ => []

theorem calls_eq_nil_iff {block : Block} :
    block.calls py tools = [] ↔ ¬ block.Serialisable py tools := by
  rw [Block.Serialisable, ← dumps_isOk_iff, Block.calls]
  split
  next arguments hdumps => simp [hdumps]
  next error hdumps => simp [hdumps]

/-- One refused value discards the calls of the whole text. -/
theorem mapM_parseXmlFunctionCall {blocks : List Block}
    (hblocks : ∀ block ∈ blocks, block.WellFormed) :
    (∀ block ∈ blocks, block.Serialisable py tools) ∧
        (∃ parsed, (blocks.map Block.functionText).mapM (parseXmlFunctionCall py tools) =
          .ok parsed ∧ parsed.filterMap id = blocks.flatMap (Block.calls py tools)) ∨
      (¬ ∀ block ∈ blocks, block.Serialisable py tools) ∧
        ∃ error, (blocks.map Block.functionText).mapM (parseXmlFunctionCall py tools) =
          .error error := by
  have hparse : ∀ block ∈ blocks,
      (∃ call, parseXmlFunctionCall py tools block.functionText = .ok call) ↔
      block.Serialisable py tools := fun block hblock => by
    rw [parseXmlFunctionCall_functionText (hblocks block hblock)]
    exact Checks.bind_pure_isOk_iff.trans dumps_isOk_iff
  have hall : (∃ parsed, (blocks.map Block.functionText).mapM (parseXmlFunctionCall py tools) =
      .ok parsed) ↔ ∀ block ∈ blocks, block.Serialisable py tools := by
    rw [Checks.mapM_isOk_iff, List.forall_mem_map]
    exact forall₂_congr hparse
  by_cases hserialisable : ∀ block ∈ blocks, block.Serialisable py tools
  · obtain ⟨parsed, hparsed⟩ := hall.mpr hserialisable
    refine .inl ⟨hserialisable, parsed, hparsed, ?_⟩
    rw [List.mapM_map] at hparsed
    rw [List.filterMap_eq_flatMap_toList]
    refine Checks.flatMap_eq_of_mapM (fun block hblock call hcall => ?_) hparsed
    rw [Function.comp_apply, parseXmlFunctionCall_functionText (hblocks block hblock)] at hcall
    obtain ⟨arguments, hdumps, hcall⟩ := Checks.bind_eq_ok.mp hcall
    obtain rfl := Except.ok.inj hcall
    rw [Block.calls, hdumps]
    rfl
  · cases hresult : (blocks.map Block.functionText).mapM (parseXmlFunctionCall py tools) with
    | ok parsed => exact absurd (hall.mp ⟨parsed, hresult⟩) hserialisable
    | error error => exact .inr ⟨hserialisable, error, rfl⟩

theorem beforeFirst_blocksText {block : Block} {blocks : List Block} {tail : List Char}
    (hblock : block.WellFormed) :
    beforeFirst toolCallStartToken (blocksText (block :: blocks) tail) = some block.lead := by
  rw [blocksText, List.flatMap_cons, Block.render, ← List.append_assoc block.lead,
    List.append_assoc _ _ tail, List.append_assoc]
  exact beforeFirst_append (by decide) hblock.lead_start

/-- The calls of a text are those of its blocks, or none when one of them holds a
refused value. -/
theorem extractToolCalls_blocksText {blocks : List Block} {tail : List Char}
    (hblocks : ∀ block ∈ blocks, block.WellFormed) (htail : ¬ toolCallStartToken <:+: tail) :
    ((∀ block ∈ blocks, block.Serialisable py tools) ∧
        (extractToolCalls py tools (blocksText blocks tail)).2 =
          blocks.flatMap (Block.calls py tools)) ∨
      (¬ ∀ block ∈ blocks, block.Serialisable py tools) ∧
        extractToolCalls py tools (blocksText blocks tail) = (blocksText blocks tail, []) := by
  cases blocks with
  | nil =>
      have hnone : beforeFirst toolCallStartToken (blocksText [] tail) = none :=
        beforeFirst_of_absent htail
      refine .inl ⟨fun _ hblock => (nomatch hblock), ?_⟩
      simp only [extractToolCalls, hnone, List.flatMap_nil]
  | cons block blocks =>
      have hbefore := @beforeFirst_blocksText block blocks tail (hblocks block List.mem_cons_self)
      have hfound := getFunctionCalls_blocksText (List.cons_ne_nil block blocks) hblocks htail
      have hne : (block :: blocks).map Block.functionText ≠ [] := List.cons_ne_nil _ _
      rcases @mapM_parseXmlFunctionCall _ _ py tools _ hblocks with
        ⟨hserialisable, parsed, hparsed, hcalls⟩ | ⟨hrefused, error, herror⟩
      · refine .inl ⟨hserialisable, ?_⟩
        simp only [extractToolCalls, hbefore, hfound, if_neg hne, hparsed]
        exact hcalls
      · refine .inr ⟨hrefused, ?_⟩
        simp only [extractToolCalls, hbefore, hfound, if_neg hne, herror]

theorem extractToolCalls_render {block : Block} (hblock : block.WellFormed) :
    (extractToolCalls py tools block.render).2 = block.calls py tools := by
  have halone : ({ block with lead := [] } : Block).WellFormed :=
    { hblock with lead_start := (by decide : ¬ toolCallStartToken <:+: []) }
  have htext : blocksText [{ block with lead := [] }] [] = block.render := by
    rw [blocksText, List.flatMap_singleton, List.nil_append, List.append_nil]
    rfl
  rw [← htext]
  rcases @extractToolCalls_blocksText _ _ py tools [{ block with lead := [] }] []
      (List.forall_mem_singleton.mpr halone) (by decide) with ⟨-, hcalls⟩ | ⟨hrefused, hcalls⟩
  · rw [hcalls, List.flatMap_singleton]
    rfl
  · have hnone : block.calls py tools = [] :=
      calls_eq_nil_iff.mpr fun hserialisable =>
        hrefused (List.forall_mem_singleton.mpr hserialisable)
    rw [hcalls, hnone]

/-- The calls of the blocks of a text are parsed independently of each other when
`json` refuses a value in none of the blocks, or in all of them. -/
theorem extractToolCalls_independent_iff {blocks : List Block} {tail : List Char}
    (hblocks : ∀ block ∈ blocks, block.WellFormed) (htail : ¬ toolCallStartToken <:+: tail) :
    (extractToolCalls py tools (blocksText blocks tail)).2 =
        (blocks.flatMap fun block => (extractToolCalls py tools block.render).2) ↔
      (∀ block ∈ blocks, block.Serialisable py tools) ∨
        ∀ block ∈ blocks, ¬ block.Serialisable py tools := by
  have halone : (blocks.flatMap fun block => (extractToolCalls py tools block.render).2) =
      blocks.flatMap (Block.calls py tools) :=
    List.flatMap_congr fun block hblock => extractToolCalls_render (hblocks block hblock)
  have hnone : blocks.flatMap (Block.calls py tools) = [] ↔
      ∀ block ∈ blocks, ¬ block.Serialisable py tools := by
    rw [List.flatMap_eq_nil_iff]
    exact forall₂_congr fun block _ => calls_eq_nil_iff
  rw [halone]
  rcases @extractToolCalls_blocksText _ _ py tools _ tail hblocks htail with
    ⟨hserialisable, hcalls⟩ | ⟨hrefused, hcalls⟩
  · exact iff_of_true hcalls (.inl hserialisable)
  · rw [hcalls, eq_comm, hnone]
    exact ⟨.inr, fun hboth => hboth.resolve_left hrefused⟩

end Blocks

/-! ## A list and a set -/

/-- The values of two blocks, with lists and sets of digits. -/
inductive SampleValue where
  | text (value : List Char)
  | integer (value : ℤ)
  | boolean (value : Bool)
  | null
  | list (digits : List Char)
  | set (digits : List Char)

def samplePy : PyText SampleValue Empty where
  isSpace char := char = ' ' ∨ char = '\n' ∨ char = '\t' ∨ char = '\r'
  lower text := text.map Char.toLower
  int digits := (readDigits digits).map Int.ofNat
  float _ := none
  truncate number := number.elim
  hasFraction number := number.elim
  ofText := .text
  ofInt := .integer
  ofFloat number := number.elim
  ofBool := .boolean
  null := .null
  loads _ := none
  literalEval
    | '[' :: text => some (.list (text.filter Char.isDigit))
    | '\x7b' :: text => some (.set (text.filter Char.isDigit))
    | _ => none
  dumpText text := '"' :: (text ++ ['"'])
  dumpValue
    | .text value => .ok ('"' :: (value ++ ['"']))
    | .integer value => .ok (toString value).toList
    | .boolean value => .ok (if value then "true".toList else "false".toList)
    | .null => .ok "null".toList
    | .list digits => .ok ('[' :: (List.intercalate ", ".toList (digits.map ([·])) ++ [']']))
    | .set _ => .error "Object of type set is not JSON serializable"

def itemsTool : ToolSchema where
  type := "function".toList
  name := "store".toList
  properties := Dict.ofList [("items".toList, "array".toList)]

def itemsParameter (items : List Char) : Parameter where
  lead := ['\n']
  name := "items".toList
  value := '\n' :: (items ++ ['\n'])

/-- A call of `store` with the given text as its items. -/
def storeBlock (items : List Char) : Block where
  lead := ['\n']
  before := ['\n']
  name := "store".toList
  parameters := [itemsParameter items]
  rest := ['\n']
  behind := ['\n']

theorem storeBlock_wellFormed {items : List Char}
    (hmarkup : ¬ parameterClose <:+: (itemsParameter items).body ∧
      ¬ functionClose <:+: (storeBlock items).functionText ∧
      ¬ toolCallEndToken <:+: (storeBlock items).inner) : (storeBlock items).WellFormed where
  lead_start := (by decide +kernel : ¬ toolCallStartToken <:+: ['\n'])
  inner_end := hmarkup.2.2
  before_open := (by decide +kernel : ¬ functionOpen <:+: ['\n'])
  name_close := (by decide +kernel : '>' ∉ "store".toList)
  function_close := hmarkup.2.1
  behind_open := (by decide +kernel : ¬ functionOpen <:+: ['\n'])
  parameters := List.forall_mem_singleton.mpr
    { lead_open := (by decide +kernel : ¬ parameterOpen <:+: ['\n'])
      name_close := (by decide +kernel : '>' ∉ "items".toList)
      body_close := hmarkup.1 }
  rest_open := (by decide +kernel : ¬ parameterOpen <:+: ['\n'])

theorem listBlock_arguments : (storeBlock "[1, 2]".toList).arguments samplePy [itemsTool] =
    Dict.ofList [("items".toList, .list ['1', '2'])] := by
  rfl

theorem setBlock_arguments : (storeBlock "\x7b1, 2\x7d".toList).arguments samplePy [itemsTool] =
    Dict.ofList [("items".toList, .set ['1', '2'])] := by
  rfl

theorem listBlock_serialisable : (storeBlock "[1, 2]".toList).Serialisable samplePy [itemsTool] := by
  intro entry hentry
  rw [listBlock_arguments] at hentry
  obtain rfl := List.mem_singleton.mp hentry
  exact ⟨_, rfl⟩

theorem setBlock_refused :
    ¬ (storeBlock "\x7b1, 2\x7d".toList).Serialisable samplePy [itemsTool] := by
  intro hserialisable
  obtain ⟨text, htext⟩ := hserialisable ("items".toList, .set ['1', '2'])
    (by rw [setBlock_arguments]; exact List.mem_cons_self)
  cases htext

/-- A set that is written as the items of one call takes the other call with it. -/
theorem extractToolCalls_not_independent_set :
    (extractToolCalls samplePy [itemsTool]
        (blocksText [storeBlock "[1, 2]".toList, storeBlock "\x7b1, 2\x7d".toList] [])).2 ≠
      [storeBlock "[1, 2]".toList, storeBlock "\x7b1, 2\x7d".toList].flatMap
        fun block => (extractToolCalls samplePy [itemsTool] block.render).2 := by
  have hlist : (storeBlock "[1, 2]".toList).WellFormed :=
    storeBlock_wellFormed (by decide +kernel)
  have hset : (storeBlock "\x7b1, 2\x7d".toList).WellFormed :=
    storeBlock_wellFormed (by decide +kernel)
  have hblocks : ∀ block ∈ [storeBlock "[1, 2]".toList, storeBlock "\x7b1, 2\x7d".toList],
      block.WellFormed :=
    List.forall_mem_cons.mpr ⟨hlist, List.forall_mem_singleton.mpr hset⟩
  intro hsame
  rcases (extractToolCalls_independent_iff hblocks (by decide)).mp hsame with hall | hnone
  · exact setBlock_refused (hall _ (List.mem_cons_of_mem _ List.mem_cons_self))
  · exact hnone _ List.mem_cons_self listBlock_serialisable

end OneShotOPD.Qwen3XML
