import OneShotOPD.Core.Dict
import OneShotOPD.Core.Pattern

/-!
# The Gemma 4 tool parser

Calls are found by their markup, arguments by a pattern that is scanned over the
text between the braces.  Its dot does not match a line break, so that a string
with a line break is read as a bare value.
-/

namespace OneShotOPD.Gemma4

open Pattern Text

/-! ## Values -/

/-- The values that `_parse_arguments` yields, with floats in a type of their
own. -/
inductive ArgValue (F : Type) where
  | text (value : List Char)
  | integer (value : ℤ)
  | boolean (value : Bool)
  | null
  | float (value : F)

/-- Character classes and conversions of the language, and `json` on the
arguments of a call. -/
structure PyText (F : Type) where
  isWord : Char → Bool
  isSpace : Char → Bool
  lower : List Char → List Char
  int : List Char → Option ℤ
  float : List Char → Option F
  dumps : Dict (List Char) (ArgValue F) → List Char
  loads : List Char → Option (Dict (List Char) (ArgValue F))

/-- `str(value)` of an integer. -/
def intText : ℤ → List Char
  | .ofNat value => value.repr.toList
  | .negSucc value => '-' :: (value + 1).repr.toList

/-- What the parser relies on. -/
structure PyText.Lawful {F : Type} (py : PyText F) : Prop where
  isWord_ascii : ∀ char : Char, char.toNat < 128 →
    py.isWord char = (char.isAlphanum || char = '_')
  isSpace_printable : ∀ char : Char, 32 < char.toNat → char.toNat < 127 → py.isSpace char = false
  lower_ascii : ∀ text : List Char, (∀ char ∈ text, char.toNat < 128) →
    py.lower text = text.map Char.toLower
  lower_head : ∀ (char : Char) (text : List Char), char.toNat < 128 →
    (py.lower (char :: text)).head? = some char.toLower
  int_intText : ∀ value, (intText value).length ≤ 4300 → py.int (intText value) = some value
  int_angle : ∀ text, py.int ('<' :: text) = none
  float_angle : ∀ text, py.float ('<' :: text) = none
  loads_dumps : ∀ arguments, py.loads (py.dumps arguments) = some arguments

/-- `FunctionCall`. -/
structure FunctionCall where
  name : List Char
  arguments : List Char

/-! ## The parser -/

section Parser

variable {F : Type} (py : PyText F)

/-- `text.strip()`. -/
def strip (text : List Char) : List Char :=
  ((text.dropWhile py.isSpace).reverse.dropWhile py.isSpace).reverse

def startToken : List Char := '<' :: "|tool_call>".toList

/-- The characters behind the angle bracket of `<tool_call|>`. -/
def endRest : List Char := "tool_call|>".toList

/-- `<|"|>`. -/
def delimiter : List Char := '<' :: "|\"|>".toList

/-- `<\|tool_call>call:(\w+)\{(.*?)\}<tool_call\|>`. -/
def toolCallRegex : Pattern (List Char × List Char) := do
  literal (startToken ++ "call:".toList)
  let name ← word py.isWord
  literal ['\x7b']
  let arguments ← shortest fun _ => true
  literal ('\x7d' :: '<' :: endRest)
  return (name, arguments)

def notNewline (char : Char) : Bool := char ≠ '\n'

def bareChar (char : Char) : Bool := char ≠ ',' ∧ char ≠ '\x7d'

/-- `<\|"\|>(.*?)<\|"\|>`. -/
def quotedRegex : Pattern (List Char ⊕ List Char) := do
  literal delimiter
  let value ← shortest notNewline
  literal delimiter
  return .inl value

/-- `([^,}]*)`. -/
def bareRegex : Pattern (List Char ⊕ List Char) := do
  let value ← longest bareChar
  return .inr value

/-- `(\w+):(?:<\|"\|>(.*?)<\|"\|>|([^,}]*))`. -/
def argRegex : Pattern (List Char × (List Char ⊕ List Char)) := do
  let key ← word py.isWord
  literal [':']
  let value ← orElse quotedRegex bareRegex
  return (key, value)

/-- The value of a bare argument. -/
def bareValue (bare : List Char) : ArgValue F :=
  let bare := strip py bare
  if py.lower bare = "true".toList then .boolean true
  else if py.lower bare = "false".toList then .boolean false
  else if py.lower bare = "null".toList then .null
  else
    match py.int bare with
    | some value => .integer value
    | none =>
        match py.float bare with
        | some value => .float value
        | none => .text bare

def capturedValue : List Char ⊕ List Char → ArgValue F
  | .inl value => .text value
  | .inr bare => bareValue py bare

/-- `_parse_arguments`. -/
def parseArguments (arguments : List Char) : Dict (List Char) (ArgValue F) :=
  Dict.ofList ((findAll (argRegex py) arguments).map fun argument =>
    (argument.1, capturedValue py argument.2))

/-- `text.replace(pad_token, "")`, when there is a padding token. -/
def removePad (padToken : Option (List Char)) (text : List Char) : List Char :=
  match padToken with
  | none => text
  | some token => if token = [] then text else removeAll token text

/-- `extract_tool_calls`, of the decoded response. -/
def extractToolCalls (padToken : Option (List Char)) (decoded : List Char) :
    List Char × List FunctionCall :=
  let text := removePad padToken decoded
  match beforeFirst startToken text with
  | none => (text, [])
  | some before =>
      match findAll (toolCallRegex py) text with
      | [] => (text, [])
      | calls =>
          (before, calls.map fun call =>
            { name := call.1, arguments := py.dumps (parseArguments py call.2) })

end Parser

/-! ## The documented format -/

section Format

variable {F : Type}

/-- The values that the format has a rendering for. -/
inductive CallValue where
  | text (value : List Char)
  | integer (value : ℤ)
  | boolean (value : Bool)

def CallValue.toArg : CallValue → ArgValue F
  | text value => .text value
  | integer value => .integer value
  | boolean value => .boolean value

def renderValue : CallValue → List Char
  | .text value => delimiter ++ (value ++ delimiter)
  | .integer value => intText value
  | .boolean value => if value then "true".toList else "false".toList

def renderArgument (argument : List Char × CallValue) : List Char :=
  argument.1 ++ ([':'] ++ renderValue argument.2)

/-- A call, with its arguments in their order. -/
structure ToolCall where
  name : List Char
  arguments : Dict (List Char) CallValue

def renderArguments (call : ToolCall) : List Char :=
  List.intercalate [','] (call.arguments.entries.map renderArgument)

/-- `<|tool_call>call:name{key:<|"|>string<|"|>,key2:5}<tool_call|>`. -/
def renderCall (call : ToolCall) : List Char :=
  (startToken ++ "call:".toList) ++ (call.name ++ (['\x7b'] ++ (renderArguments call ++
    ('\x7d' :: '<' :: endRest))))

/-- The arguments as the parser returns them. -/
def ToolCall.given (call : ToolCall) : Dict (List Char) (ArgValue F) :=
  call.arguments.map CallValue.toArg

/-- Names and keys are words, strings hold no markup and `int` takes the
numerals. -/
structure ToolCall.WellFormed (py : PyText F) (call : ToolCall) : Prop where
  name_ne_nil : call.name ≠ []
  name_word : ∀ char ∈ call.name, py.isWord char = true
  key_ne_nil : ∀ argument ∈ call.arguments.entries, argument.1 ≠ []
  key_word : ∀ argument ∈ call.arguments.entries, ∀ char ∈ argument.1, py.isWord char = true
  text_delimiter : ∀ argument ∈ call.arguments.entries, ∀ text, argument.2 = .text text →
    ¬ delimiter <:+: text
  text_end : ∀ argument ∈ call.arguments.entries, ∀ text, argument.2 = .text text →
    ¬ '<' :: endRest <:+: text
  integer_length : ∀ argument ∈ call.arguments.entries, ∀ value, argument.2 = .integer value →
    (intText value).length ≤ 4300

end Format

/-! ## Bare values -/

section Bare

variable {F : Type} {py : PyText F}

theorem strip_eq_self {text : List Char} (hhead : ∀ char ∈ text.head?, py.isSpace char = false)
    (hlast : ∀ char ∈ text.getLast?, py.isSpace char = false) : strip py text = text := by
  have hdrop : ∀ chars : List Char, (∀ char ∈ chars.head?, py.isSpace char = false) →
      chars.dropWhile py.isSpace = chars := by
    intro chars hchars
    cases chars with
    | nil => rfl
    | cons char chars => rw [List.dropWhile_cons_of_neg (by simp [hchars char rfl])]
  rw [strip, hdrop text hhead, hdrop text.reverse (by simpa using hlast), List.reverse_reverse]

/-- The characters of a numeral. -/
theorem intText_chars {value : ℤ} {char : Char} (hchar : char ∈ intText value) :
    char.isDigit = true ∨ char = '-' := by
  cases value with
  | ofNat number => exact .inl (isDigit_of_mem_repr hchar)
  | negSucc number =>
      rcases List.mem_cons.mp hchar with hminus | hchar
      · exact .inr hminus
      · exact .inl (isDigit_of_mem_repr hchar)

theorem intText_ne_nil (value : ℤ) : intText value ≠ [] := by
  cases value with
  | ofNat number =>
      change number.repr.toList ≠ []
      rw [Nat.toList_repr]
      exact Nat.toDigits_ne_nil
  | negSucc number => exact List.cons_ne_nil _ _

theorem toNat_of_numeral {char : Char} (hchar : char.isDigit = true ∨ char = '-') :
    32 < char.toNat ∧ char.toNat < 58 := by
  rcases hchar with hdigit | rfl
  · simp only [Char.isDigit, Bool.and_eq_true, decide_eq_true_eq, ge_iff_le,
      UInt32.le_iff_toNat_le] at hdigit
    have hlow : '0'.val.toNat = 48 := rfl
    have hhigh : '9'.val.toNat = 57 := rfl
    have hval : char.toNat = char.val.toNat := rfl
    omega
  · decide

theorem toLower_of_small {char : Char} (hchar : char.toNat < 65) : char.toLower = char := by
  refine dif_neg fun hupper => ?_
  have hle : 65 ≤ char.val.toNat := UInt32.le_iff_toNat_le.mp hupper.1
  have hval : char.toNat = char.val.toNat := rfl
  omega

/-- A word of letters is not what a text with another first character becomes in
lower case. -/
theorem lower_ne (hpy : py.Lawful) {char letter : Char} {text word : List Char}
    (hascii : char.toNat < 65) (hletter : 65 ≤ letter.toNat) :
    py.lower (char :: text) ≠ letter :: word := by
  intro heq
  have hhead := hpy.lower_head char text (by omega)
  rw [heq, toLower_of_small hascii] at hhead
  obtain rfl := Option.some.inj hhead
  omega

theorem true_eq : "true".toList = ['t', 'r', 'u', 'e'] := by decide

theorem false_eq : "false".toList = ['f', 'a', 'l', 's', 'e'] := by decide

theorem null_eq : "null".toList = ['n', 'u', 'l', 'l'] := by decide

/-- A bare value that starts with no letter is a number or stays a string. -/
theorem bareValue_of_head (hpy : py.Lawful) {char : Char} {text : List Char}
    (hascii : char.toNat < 65) (hstrip : strip py (char :: text) = char :: text) :
    bareValue py (char :: text) =
      match py.int (char :: text) with
      | some value => .integer value
      | none =>
          match py.float (char :: text) with
          | some value => .float value
          | none => .text (char :: text) := by
  rw [bareValue, hstrip, true_eq, false_eq, null_eq]
  simp only [lower_ne hpy hascii (show 65 ≤ 't'.toNat by decide),
    lower_ne hpy hascii (show 65 ≤ 'f'.toNat by decide),
    lower_ne hpy hascii (show 65 ≤ 'n'.toNat by decide), if_false]

theorem bareValue_intText (hpy : py.Lawful) {value : ℤ} (hlength : (intText value).length ≤ 4300) :
    bareValue py (intText value) = .integer value := by
  have hspace : ∀ char ∈ intText value, py.isSpace char = false := by
    intro char hchar
    obtain ⟨hlow, hhigh⟩ := toNat_of_numeral (intText_chars hchar)
    exact hpy.isSpace_printable char hlow (by omega)
  have hstrip : strip py (intText value) = intText value :=
    strip_eq_self (fun char hchar => hspace char (List.mem_of_head? hchar))
      fun char hchar => hspace char (List.mem_of_getLast? hchar)
  have hint := hpy.int_intText value hlength
  obtain ⟨char, text, htext⟩ := List.exists_cons_of_ne_nil (intText_ne_nil value)
  have hsmall := toNat_of_numeral
      (intText_chars (htext ▸ List.mem_cons_self : char ∈ intText value))
  rw [htext] at hstrip hint ⊢
  rw [bareValue_of_head hpy (by omega) hstrip, hint]

theorem bareValue_boolean (hpy : py.Lawful) (value : Bool) :
    bareValue py (if value then "true".toList else "false".toList) = .boolean value := by
  have hletter : ∀ char ∈ ['t', 'r', 'u', 'e', 'f', 'a', 'l', 's'], py.isSpace char = false := by
    intro char hchar
    have hbounds : 32 < char.toNat ∧ char.toNat < 127 := by
      revert char
      decide
    exact hpy.isSpace_printable char hbounds.1 hbounds.2
  have hlower : ∀ text : List Char, (∀ char ∈ text, char.toNat < 128 ∧ char.toLower = char) →
      py.lower text = text := by
    intro text htext
    rw [hpy.lower_ascii text fun char hchar => (htext char hchar).1]
    conv_rhs => rw [← List.map_id text]
    exact List.map_congr_left fun char hchar => (htext char hchar).2
  cases value with
  | true =>
      have hstrip : strip py ['t', 'r', 'u', 'e'] = ['t', 'r', 'u', 'e'] :=
        strip_eq_self (by simpa using hletter 't' (by decide))
          (by simpa using hletter 'e' (by decide))
      have htrue := hlower ['t', 'r', 'u', 'e'] (by decide)
      simp only [if_true, bareValue, true_eq, hstrip, htrue]
  | false =>
      have hstrip : strip py ['f', 'a', 'l', 's', 'e'] = ['f', 'a', 'l', 's', 'e'] :=
        strip_eq_self (by simpa using hletter 'f' (by decide))
          (by simpa using hletter 'e' (by decide))
      have hfalse := hlower ['f', 'a', 'l', 's', 'e'] (by decide)
      have hne : ['f', 'a', 'l', 's', 'e'] ≠ ['t', 'r', 'u', 'e'] := by decide
      simp only [Bool.false_eq_true, if_false, bareValue, true_eq, false_eq, hstrip, hfalse, hne,
        if_true]

/-- A string that is read with its delimiters keeps them. -/
theorem bareValue_delimited (hpy : py.Lawful) (text : List Char) :
    bareValue py (delimiter ++ (text ++ delimiter)) = .text (delimiter ++ (text ++ delimiter)) := by
  have hlast : delimiter = "<|\"|".toList ++ ['>'] := by decide
  have hstrip : strip py (delimiter ++ (text ++ delimiter)) = delimiter ++ (text ++ delimiter) := by
    refine strip_eq_self ?_ ?_
    · intro char hchar
      obtain rfl := Option.some.inj hchar
      exact hpy.isSpace_printable '<' (by decide) (by decide)
    · intro char hchar
      have hend : (delimiter ++ (text ++ delimiter)).getLast? = some '>' := by
        conv_lhs => rw [hlast, ← List.append_assoc, ← List.append_assoc]
        exact List.getLast?_concat
      rw [hend] at hchar
      obtain rfl := Option.some.inj hchar
      exact hpy.isSpace_printable '>' (by decide) (by decide)
  have hint : py.int (delimiter ++ (text ++ delimiter)) = none := hpy.int_angle _
  have hfloat : py.float (delimiter ++ (text ++ delimiter)) = none := hpy.float_angle _
  have hvalue : bareValue py (delimiter ++ (text ++ delimiter)) =
      match py.int (delimiter ++ (text ++ delimiter)) with
      | some value => .integer value
      | none =>
          match py.float (delimiter ++ (text ++ delimiter)) with
          | some value => .float value
          | none => .text (delimiter ++ (text ++ delimiter)) :=
    bareValue_of_head hpy (show '<'.toNat < 65 by decide) hstrip
  rw [hvalue, hint, hfloat]

end Bare

/-! ## Arguments -/

section Arguments

variable {F : Type} {py : PyText F}

/-- What the pattern captures of a value.  A string with a line break is taken
with its delimiters. -/
def captured : CallValue → List Char ⊕ List Char
  | .text value => if '\n' ∈ value then .inr (renderValue (.text value)) else .inl value
  | value => .inr (renderValue value)

/-- A string that a capture does not cut. -/
def CallValue.Whole : CallValue → Prop
  | .text value => '\n' ∈ value → ∀ char ∈ value, bareChar char = true
  | _ => True

/-- Arguments are separated by commas. -/
def Follows (behind : List Char) : Prop := ∀ char ∈ behind.head?, char = ','

theorem bareChar_of_ne {char : Char} (hcomma : char ≠ ',') (hbrace : char ≠ '\x7d') :
    bareChar char = true := by
  rw [bareChar]
  exact decide_eq_true ⟨hcomma, hbrace⟩

theorem bareChar_delimiter : ∀ char ∈ delimiter, bareChar char = true := by
  decide

/-- A string with a line break has no quoted capture. -/
theorem quotedRegex_newline {text behind : List Char} (htext : ¬ delimiter <:+: text)
    (hnewline : '\n' ∈ text) : quotedRegex (renderValue (.text text) ++ behind) = [] := by
  rw [quotedRegex, renderValue, List.append_assoc, literal_bind_append]
  refine shortest_bind_eq_nil fun run after hsplit hclass => ?_
  apply literal_bind_of_not_prefix
  intro hstarts
  have hrun : '\n' ∉ run := fun hmem => absurd (hclass _ hmem) (by decide)
  rw [List.append_assoc] at hsplit
  rcases List.append_eq_append_iff.mp hsplit with ⟨tail, hlong, -⟩ | ⟨tail, hshort, hafter⟩
  · exact hrun (hlong ▸ List.mem_append_left tail hnewline)
  · have htail : tail ≠ [] := by
      rintro rfl
      rw [List.append_nil] at hshort
      exact hrun (hshort ▸ hnewline)
    rw [hafter] at hstarts
    have hwithin : delimiter <+: tail :=
      @prefix_of_append '<' "|\"|>".toList tail ("|\"|>".toList ++ behind) (by decide) htail hstarts
    exact htext (hshort ▸ hwithin.isInfix.trans (List.suffix_append run tail).isInfix)

theorem quotedRegex_of_head {value behind : List Char} (hhead : '<' ∉ value.head?)
    (hvalue : value ≠ []) : quotedRegex (value ++ behind) = [] := by
  obtain ⟨char, value, rfl⟩ := List.exists_cons_of_ne_nil hvalue
  rw [quotedRegex]
  apply literal_bind_of_not_prefix
  intro hstarts
  obtain rfl := (List.cons_prefix_cons.mp hstarts).1
  exact hhead rfl

/-- A value without commas and braces is read to the next comma. -/
theorem head?_bareRegex {value behind : List Char} (hvalue : ∀ char ∈ value, bareChar char = true)
    (hbehind : Follows behind) :
    (bareRegex (value ++ behind)).head? = some (.inr value, behind) := by
  refine head?_longest_bind hvalue (fun char hchar => ?_) rfl
  obtain rfl := hbehind char hchar
  decide

theorem head?_valueRegex {value : CallValue} {behind : List Char}
    (hdelimiter : ∀ text, value = .text text → ¬ delimiter <:+: text) (hwhole : value.Whole)
    (hbehind : Follows behind) :
    (orElse quotedRegex bareRegex (renderValue value ++ behind)).head? =
      some (captured value, behind) := by
  have hbare : ∀ value : List Char, quotedRegex (value ++ behind) = [] →
      (∀ char ∈ value, bareChar char = true) →
      (orElse quotedRegex bareRegex (value ++ behind)).head? = some (.inr value, behind) := by
    intro value hquoted hchars
    rw [orElse_apply, hquoted, List.nil_append]
    exact head?_bareRegex hchars hbehind
  cases value with
  | text text =>
      by_cases hnewline : '\n' ∈ text
      · rw [captured, if_pos hnewline]
        refine hbare _ (quotedRegex_newline (hdelimiter text rfl) hnewline) fun char hchar => ?_
        rcases List.mem_append.mp hchar with hopen | hchar
        · exact bareChar_delimiter char hopen
        · rcases List.mem_append.mp hchar with htext | hclose
          · exact hwhole hnewline char htext
          · exact bareChar_delimiter char hclose
      · have hquoted : (quotedRegex (renderValue (.text text) ++ behind)).head? =
            some (.inl text, behind) := by
          rw [quotedRegex, renderValue, List.append_assoc, literal_bind_append, List.append_assoc]
          refine head?_shortest_token (by decide) (fun char hchar => ?_) (hdelimiter text rfl) rfl
          exact decide_eq_true fun heq => hnewline (heq ▸ hchar)
        rw [orElse_apply, List.head?_append, hquoted, captured, if_neg hnewline]
        rfl
  | integer value =>
      refine hbare _ (quotedRegex_of_head (fun hhead => ?_)
        (intText_ne_nil value)) fun char hchar => ?_
      · exact absurd (intText_chars (List.mem_of_head? hhead)) (by decide)
      · refine bareChar_of_ne ?_ ?_ <;>
        · rintro rfl
          exact absurd (intText_chars hchar) (by decide)
  | boolean value =>
      cases value <;>
      · refine hbare _ (quotedRegex_of_head ?_ ?_) ?_ <;> decide

theorem head?_argRegex (hpy : py.Lawful) {argument : List Char × CallValue} {behind : List Char}
    (hkey : argument.1 ≠ []) (hword : ∀ char ∈ argument.1, py.isWord char = true)
    (hdelimiter : ∀ text, argument.2 = .text text → ¬ delimiter <:+: text)
    (hwhole : argument.2.Whole) (hbehind : Follows behind) :
    (argRegex py (renderArgument argument ++ behind)).head? =
      some ((argument.1, captured argument.2), behind) := by
  rw [argRegex, renderArgument, List.append_assoc, List.append_assoc]
  refine head?_word_bind hkey hword (fun char hchar => ?_) ?_
  · obtain rfl := Option.some.inj hchar
    rw [hpy.isWord_ascii ':' (by decide)]
    decide
  · rw [literal_bind_append, bind_apply]
    obtain ⟨ways, hways⟩ := List.head?_eq_some_iff.mp (head?_valueRegex hdelimiter hwhole hbehind)
    rw [hways]
    rfl

/-- The arguments of a call are found in their order. -/
theorem findAll_renderArguments (hpy : py.Lawful) {call : ToolCall} (hcall : call.WellFormed py)
    (hwhole : ∀ argument ∈ call.arguments.entries, argument.2.Whole) :
    findAll (argRegex py) (renderArguments call) =
      call.arguments.entries.map fun argument => (argument.1, captured argument.2) := by
  have hmatch : ∀ argument ∈ call.arguments.entries, ∀ behind, Follows behind →
      (argRegex py (renderArgument argument ++ behind)).head? =
        some ((argument.1, captured argument.2), behind) := fun argument hargument behind hbehind =>
    head?_argRegex hpy (hcall.key_ne_nil argument hargument) (hcall.key_word argument hargument)
      (hcall.text_delimiter argument hargument) (hwhole argument hargument) hbehind
  have hrender : ∀ argument ∈ call.arguments.entries, renderArgument argument ≠ [] :=
    fun argument hargument => List.append_ne_nil_of_left_ne_nil
      (hcall.key_ne_nil argument hargument) _
  have hcomma : ∀ behind, argRegex py (',' :: behind) = [] := fun behind =>
    word_bind_cons (by rw [hpy.isWord_ascii ',' (by decide)]; decide) _
  rw [renderArguments]
  generalize call.arguments.entries = arguments at hmatch hrender
  cases arguments with
  | nil => rfl
  | cons first arguments =>
      obtain ⟨hfirst, hrest⟩ := List.forall_mem_cons.mp hmatch
      obtain ⟨hfirstRender, hrestRender⟩ := List.forall_mem_cons.mp hrender
      have hjoined : ∀ behind, behind = (arguments.map renderArgument).flatMap ([','] ++ ·) →
          Follows behind := by
        rintro behind rfl char hchar
        cases arguments with
        | nil => cases hchar
        | cons second arguments => exact (Option.some.inj hchar).symm
      rw [List.map_cons, intercalate_cons,
        findAll_of_match hfirstRender (hfirst _ (hjoined _ rfl)), List.flatMap_map, List.map_cons]
      congr 1
      have hfound : findAll (argRegex py)
          (arguments.flatMap (fun argument => [','] ++ renderArgument argument) ++ []) =
            arguments.map (fun argument => (argument.1, captured argument.2)) ++ [] :=
        findAll_flatMap
          (fun _ _ _ _ hsplit hafter _ => fail_of_gap (by simpa using hcomma) hsplit hafter _)
          (fun _ _ _ => by simp [Follows]) (by simp [Follows]) hrestRender hrest
      simpa only [List.append_nil] using hfound

/-- A captured text has no line break, or neither comma nor brace. -/
theorem of_mem_argRegex {text behind : List Char} {argument : List Char × (List Char ⊕ List Char)}
    (hway : (argument, behind) ∈ argRegex py text) :
    (∀ quoted, argument.2 = .inl quoted → ∀ char ∈ quoted, notNewline char = true) ∧
      ∀ bare, argument.2 = .inr bare → ∀ char ∈ bare, bareChar char = true := by
  obtain ⟨keyWay, -, hway⟩ := List.mem_flatMap.mp hway
  obtain ⟨colonWay, -, hway⟩ := List.mem_flatMap.mp hway
  obtain ⟨⟨value, rest⟩, hvalue, hway⟩ := List.mem_flatMap.mp hway
  obtain ⟨rfl, -⟩ := Prod.mk.inj (List.mem_singleton.mp hway)
  rcases List.mem_append.mp hvalue with hquoted | hbare
  · obtain ⟨openWay, -, hquoted⟩ := List.mem_flatMap.mp hquoted
    obtain ⟨⟨run, left⟩, hrun, hquoted⟩ := List.mem_flatMap.mp hquoted
    obtain ⟨closeWay, -, hquoted⟩ := List.mem_flatMap.mp hquoted
    obtain ⟨rfl, -⟩ := Prod.mk.inj (List.mem_singleton.mp hquoted)
    refine ⟨fun quoted heq => ?_, fun _ heq => (nomatch heq)⟩
    exact Sum.inl.inj heq ▸ (of_mem_lazyRun hrun).2
  · obtain ⟨⟨run, left⟩, hrun, hbare⟩ := List.mem_flatMap.mp hbare
    obtain ⟨rfl, -⟩ := Prod.mk.inj (List.mem_singleton.mp hbare)
    refine ⟨fun _ heq => (nomatch heq), fun bare heq => ?_⟩
    exact Sum.inr.inj heq ▸ (of_mem_greedyRun hrun).2

theorem mem_of_mem_strip {text : List Char} {char : Char} (hchar : char ∈ strip py text) :
    char ∈ text := by
  have hdrop := (List.dropWhile_sublist py.isSpace).subset (List.mem_reverse.mp hchar)
  exact (List.dropWhile_sublist py.isSpace).subset (List.mem_reverse.mp hdrop)

theorem eq_strip_of_bareValue {bare text : List Char} (hvalue : bareValue py bare = .text text) :
    text = strip py bare := by
  rw [bareValue] at hvalue
  split_ifs at hvalue
  split at hvalue
  · cases hvalue
  · split at hvalue <;> cases hvalue
    rfl

/-- What the parser makes of a value that is captured whole. -/
def readValue : CallValue → ArgValue F
  | .text value => .text (if '\n' ∈ value then renderValue (.text value) else value)
  | value => value.toArg

theorem capturedValue_captured (hpy : py.Lawful) {value : CallValue}
    (hlength : ∀ number, value = .integer number → (intText number).length ≤ 4300) :
    capturedValue py (captured value) = readValue value := by
  cases value with
  | text text =>
      rw [captured, readValue]
      split
      · exact bareValue_delimited hpy text
      · rfl
  | integer number => exact bareValue_intText hpy (hlength number rfl)
  | boolean value => exact bareValue_boolean hpy value

theorem parseArguments_of_whole (hpy : py.Lawful) {call : ToolCall} (hcall : call.WellFormed py)
    (hwhole : ∀ argument ∈ call.arguments.entries, argument.2.Whole) :
    parseArguments py (renderArguments call) = call.arguments.map readValue := by
  have hvalues : (call.arguments.entries.map fun argument => (argument.1, captured argument.2)).map
      (fun argument => (argument.1, capturedValue py argument.2)) =
        (call.arguments.map readValue).entries := by
    rw [List.map_map, Dict.entries_map]
    refine List.map_congr_left fun argument hargument => Prod.ext rfl ?_
    exact capturedValue_captured hpy (hcall.integer_length argument hargument)
  rw [parseArguments, findAll_renderArguments hpy hcall hwhole, hvalues, Dict.ofList_entries]

theorem readValue_eq_toArg_iff {value : CallValue} :
    (readValue value : ArgValue F) = value.toArg ↔ ∀ text, value = .text text → '\n' ∉ text := by
  cases value with
  | text text =>
      constructor
      · rintro heq _ ⟨⟩ hnewline
        rw [readValue, if_pos hnewline] at heq
        have hlength := congrArg List.length (ArgValue.text.inj heq)
        rw [renderValue, List.length_append, List.length_append] at hlength
        have hdelimiter : delimiter.length = 5 := by decide
        omega
      · intro hnewline
        rw [readValue, if_neg (hnewline text rfl)]
        rfl
  | integer number => exact ⟨fun _ _ heq => (nomatch heq), fun _ => rfl⟩
  | boolean value => exact ⟨fun _ _ heq => (nomatch heq), fun _ => rfl⟩

/-- A parsed string with a line break has neither comma nor brace. -/
theorem whole_of_parsed {key text arguments : List Char}
    (hentry : (key, .text text) ∈ (parseArguments py arguments).entries) :
    CallValue.Whole (.text text) := by
  intro hnewline char hchar
  obtain ⟨argument, hargument, heq⟩ := List.mem_map.mp (Dict.mem_of_mem_entries_ofList hentry)
  obtain ⟨start, behind, hway⟩ := exists_of_mem_findAll hargument
  obtain ⟨hquoted, hbare⟩ := of_mem_argRegex hway
  have hvalue : capturedValue py argument.2 = .text text := (Prod.mk.inj heq).2
  cases hcase : argument.2 with
  | inl quoted =>
      rw [hcase] at hvalue
      obtain rfl := ArgValue.text.inj hvalue
      exact absurd (hquoted quoted hcase _ hnewline) (by decide)
  | inr bare =>
      rw [hcase] at hvalue
      obtain rfl := eq_strip_of_bareValue hvalue
      exact hbare bare hcase char (mem_of_mem_strip hchar)

/-- The arguments are read as given when no string has a line break, and only
then. -/
theorem parseArguments_eq_given_iff (hpy : py.Lawful) {call : ToolCall}
    (hcall : call.WellFormed py) :
    parseArguments py (renderArguments call) = call.given ↔
      ∀ argument ∈ call.arguments.entries, ∀ text, argument.2 = .text text → '\n' ∉ text := by
  constructor
  · intro hparsed
    have hwhole : ∀ argument ∈ call.arguments.entries, argument.2.Whole := by
      rintro ⟨key, value⟩ hargument
      cases value with
      | text text =>
          have hgiven : (key, ArgValue.text text) ∈ (call.given : Dict _ (ArgValue F)).entries := by
            rw [ToolCall.given, Dict.entries_map]
            exact List.mem_map_of_mem hargument
          rw [← hparsed] at hgiven
          exact whole_of_parsed hgiven
      | integer number => trivial
      | boolean value => trivial
    rw [parseArguments_of_whole hpy hcall hwhole, ToolCall.given] at hparsed
    have hentries := congrArg Dict.entries hparsed
    rw [Dict.entries_map, Dict.entries_map] at hentries
    intro argument hargument
    exact readValue_eq_toArg_iff.mp
      (Prod.mk.inj (List.map_inj_left.mp hentries argument hargument)).2
  · intro hnewline
    have hwhole : ∀ argument ∈ call.arguments.entries, argument.2.Whole := by
      rintro ⟨key, value⟩ hargument
      cases value with
      | text text => exact fun hmem => absurd hmem (hnewline _ hargument text rfl)
      | integer number => trivial
      | boolean value => trivial
    rw [parseArguments_of_whole hpy hcall hwhole, ToolCall.given]
    refine Dict.ext ?_
    rw [Dict.entries_map, Dict.entries_map]
    exact List.map_congr_left fun argument hargument =>
      Prod.ext rfl (readValue_eq_toArg_iff.mpr (hnewline argument hargument))

end Arguments

/-! ## Calls -/

section Calls

variable {F : Type} {py : PyText F}

/-- The end marker occurs in no rendered argument. -/
theorem endMarker_absent (hpy : py.Lawful) {call : ToolCall} (hcall : call.WellFormed py) :
    ¬ '<' :: endRest <:+: renderArguments call := by
  refine absent_intercalate (List.cons_ne_nil _ _) (by decide) fun text htext => ?_
  obtain ⟨⟨key, value⟩, hargument, rfl⟩ := List.mem_map.mp htext
  have hword : py.isWord '<' = false := by
    rw [hpy.isWord_ascii '<' (by decide)]
    decide
  have hkey : '<' ∉ key := fun hmem => by
    rw [hcall.key_word _ hargument '<' hmem] at hword
    cases hword
  refine absent_append_of_not_mem hkey (absent_append_of_not_mem (by decide) ?_)
  cases value with
  | text text =>
      have htext := hcall.text_end _ hargument text rfl
      have hclose : ¬ '<' :: endRest <:+: text ++ delimiter :=
        absent_append_cons (by decide) htext (by decide +kernel)
      refine absent_cons (fun hstarts => ?_)
        (@absent_append_of_not_mem '<' endRest "|\"|>".toList _ (by decide) hclose)
      exact absurd (List.cons_prefix_cons.mp hstarts).2 (by
        rintro ⟨tail, htail⟩
        cases htail)
  | integer number =>
      intro hfound
      have hmem : '<' ∈ intText number := hfound.subset List.mem_cons_self
      exact absurd (intText_chars hmem) (by decide)
  | boolean value =>
      cases value with
      | true => exact (by decide +kernel : ¬ '<' :: endRest <:+: "true".toList)
      | false => exact (by decide +kernel : ¬ '<' :: endRest <:+: "false".toList)

theorem head?_toolCallRegex (hpy : py.Lawful) {call : ToolCall} (hcall : call.WellFormed py)
    (behind : List Char) :
    (toolCallRegex py (renderCall call ++ behind)).head? =
      some ((call.name, renderArguments call), behind) := by
  rw [toolCallRegex, renderCall, List.append_assoc, literal_bind_append, List.append_assoc]
  refine head?_word_bind hcall.name_ne_nil hcall.name_word (fun char hchar => ?_) ?_
  · obtain rfl := Option.some.inj hchar
    rw [hpy.isWord_ascii '\x7b' (by decide)]
    decide
  · rw [List.append_assoc, literal_bind_append, List.append_assoc]
    refine head?_shortest_bind (fun _ _ => rfl) ?_ ?_
    · intro before after hsplit hafter
      apply literal_bind_of_not_prefix
      intro hstarts
      obtain ⟨char, after, rfl⟩ := List.exists_cons_of_ne_nil hafter
      have hwithin : '<' :: endRest <+: after :=
        prefix_of_append_separator (by decide) (List.cons_prefix_cons.mp hstarts).2
      refine endMarker_absent hpy hcall (hsplit ▸ hwithin.isInfix.trans ?_)
      exact (List.suffix_append (before ++ [char]) after).isInfix.trans (by simp)
    · rw [literal_bind_append]
      rfl

/-- The calls behind an answer are found in their order. -/
theorem findAll_renderCalls (hpy : py.Lawful) {answer : List Char} {calls : List ToolCall}
    (hcalls : ∀ call ∈ calls, call.WellFormed py) (hanswer : ¬ startToken <:+: answer) :
    findAll (toolCallRegex py) (answer ++ calls.flatMap renderCall) =
      calls.map fun call => (call.name, renderArguments call) := by
  have hskip : ∀ before after, answer = before ++ after → after ≠ [] →
      toolCallRegex py (after ++ calls.flatMap renderCall) = [] := by
    rintro before after rfl hafter
    have habsent : ¬ startToken <:+: after := fun hfound =>
      hanswer (hfound.trans (List.suffix_append before after).isInfix)
    apply literal_bind_of_not_prefix
    intro hstarts
    have hstart := (List.prefix_append startToken "call:".toList).trans hstarts
    cases calls with
    | nil => exact habsent (by simpa using hstart.isInfix)
    | cons call calls =>
        exact not_prefix_of_append (by decide) hafter habsent hstart
  have hfound : findAll (toolCallRegex py)
      (calls.flatMap (fun call => [] ++ renderCall call) ++ []) =
      calls.map (fun call => (call.name, renderArguments call)) ++ [] :=
    @findAll_flatMap _ _ _ _ (fun _ => []) _ _ [] (fun _ => True)
      (fun _ _ _ _ hsplit hafter _ => absurd (List.append_eq_nil_iff.mp hsplit.symm).2 hafter)
      (fun _ _ _ => trivial) trivial (fun call _ => List.cons_ne_nil _ _)
      fun call hcall behind _ => head?_toolCallRegex hpy (hcalls call hcall) behind
  rw [findAll_append_of_fail hskip]
  simpa only [List.append_nil, List.nil_append] using hfound

end Calls

/-- Parsing undoes the documented format when no string value has a line break,
and only then; the content is the answer in every case. -/
theorem extractToolCalls_undoes_iff {F : Type} {py : PyText F} (hpy : py.Lawful)
    {padToken : Option (List Char)} {answer : List Char} {calls : List ToolCall}
    (hcalls : ∀ call ∈ calls, call.WellFormed py) (hanswer : ¬ startToken <:+: answer)
    (hpad : ∀ token, padToken = some token → token ≠ [] →
      ¬ token <:+: answer ++ calls.flatMap renderCall) :
    (extractToolCalls py padToken (answer ++ calls.flatMap renderCall)).1 = answer ∧
      ((extractToolCalls py padToken (answer ++ calls.flatMap renderCall)).2.map
          (fun call => (call.name, py.loads call.arguments)) =
        calls.map (fun call => (call.name, some call.given)) ↔
      ∀ call ∈ calls, ∀ argument ∈ call.arguments.entries, ∀ text,
        argument.2 = .text text → '\n' ∉ text) := by
  have hclean : removePad padToken (answer ++ calls.flatMap renderCall) =
      answer ++ calls.flatMap renderCall := by
    cases padToken with
    | none => rfl
    | some token =>
        rw [removePad]
        split
        next => rfl
        next htoken => exact removeAll_of_absent (hpad token rfl htoken)
  have hfound := findAll_renderCalls hpy hcalls hanswer
  have hresult : extractToolCalls py padToken (answer ++ calls.flatMap renderCall) =
      (answer, calls.map fun call =>
        { name := call.name
          arguments := py.dumps (parseArguments py (renderArguments call)) }) := by
    rw [extractToolCalls, hclean, hfound]
    cases calls with
    | nil => simp [beforeFirst_of_absent hanswer]
    | cons call calls =>
        have hbefore : beforeFirst startToken (answer ++ (call :: calls).flatMap renderCall) =
            some answer := by
          rw [List.flatMap_cons, renderCall, List.append_assoc, List.append_assoc,
            ← List.append_assoc]
          exact beforeFirst_append (by decide) hanswer
        simp only [hbefore, List.map_cons, List.map_map, Function.comp_def]
  rw [hresult, List.map_map, List.map_inj_left]
  refine ⟨rfl, forall₂_congr fun call hcall => ?_⟩
  rw [← parseArguments_eq_given_iff hpy (hcalls call hcall)]
  simp [hpy.loads_dumps]

/-! ## A call with three arguments -/

def escape (text : List Char) : List Char :=
  text.flatMap fun char => if char = '"' ∨ char = '\\' then ['\\', char] else [char]

/-- A string of `json` behind its opening quote, and the text behind it. -/
def readString : List Char → Option (List Char × List Char)
  | [] => none
  | '"' :: text => some ([], text)
  | '\\' :: char :: text => (readString text).map fun read => (char :: read.1, read.2)
  | char :: text => (readString text).map fun read => (char :: read.1, read.2)

def readInt : List Char → Option ℤ
  | '-' :: digits => (readDigits digits).map fun value => -(value : ℤ)
  | digits => (readDigits digits).map Int.ofNat

/-- A value of `json` before a comma or a brace, where no number is a float. -/
def dumpValue : ArgValue Empty → List Char
  | .text value => '"' :: (escape value ++ ['"'])
  | .integer value => intText value
  | .boolean value => if value then "true".toList else "false".toList
  | .null => "null".toList

def loadValue : List Char → Option (ArgValue Empty × List Char)
  | '"' :: text => (readString text).map fun read => (.text read.1, read.2)
  | 't' :: text => some (.boolean true, text.drop 3)
  | 'f' :: text => some (.boolean false, text.drop 4)
  | 'n' :: text => some (.null, text.drop 3)
  | text => (readInt (text.takeWhile bareChar)).map fun value =>
      (.integer value, text.dropWhile bareChar)

def dumpEntry (entry : List Char × ArgValue Empty) : List Char :=
  '"' :: (escape entry.1 ++ ('"' :: ':' :: ' ' :: dumpValue entry.2))

/-- The entries of an object, each behind the two characters of its separator. -/
def loadEntries : ℕ → List Char → Option (List (List Char × ArgValue Empty))
  | fuel + 1, _ :: _ :: '"' :: text => do
      let (key, text) ← readString text
      let (value, text) ← loadValue (text.drop 2)
      let entries ← loadEntries fuel text
      return (key, value) :: entries
  | _, _ => some []

def samplePy : PyText Empty where
  isWord char := char.isAlphanum || char = '_'
  isSpace char := char = ' ' ∨ char = '\n' ∨ char = '\t' ∨ char = '\r'
  lower text := text.map Char.toLower
  int := readInt
  float _ := none
  dumps arguments := '\x7b' :: ((arguments.entries.flatMap fun entry =>
    ", ".toList ++ dumpEntry entry).drop 2 ++ ['\x7d'])
  loads text := (loadEntries (text.length + 1) (',' :: ' ' :: text.tail)).map Dict.ofList

theorem readString_escape (text behind : List Char) :
    readString (escape text ++ '"' :: behind) = some (text, behind) := by
  induction text with
  | nil => rfl
  | cons char text ih =>
      rw [escape, List.flatMap_cons, List.append_assoc, ← escape]
      split
      next => simp [readString, ih]
      next hplain =>
          rw [not_or] at hplain
          rw [List.singleton_append, readString, ih]
          · rfl
          · exact hplain.1
          · rintro other rest rfl
            exact absurd rfl hplain.2

theorem readInt_intText (value : ℤ) : readInt (intText value) = some value := by
  cases value with
  | ofNat value =>
      have hread : readInt value.repr.toList = (readDigits value.repr.toList).map Int.ofNat := by
        cases hdigits : value.repr.toList with
        | nil => rfl
        | cons first rest =>
            have hfirst : first.isDigit = true := isDigit_of_mem_repr (hdigits ▸ List.mem_cons_self)
            rw [readInt]
            rintro rest' heq
            cases heq
            exact absurd hfirst (by decide)
      change readInt value.repr.toList = _
      rw [hread, readDigits_repr]
      rfl
  | negSucc value =>
      change (readDigits (value + 1).repr.toList).map (fun value => -(value : ℤ)) = _
      rw [readDigits_repr]
      rfl

theorem loadValue_dumpValue (value : ArgValue Empty) {behind : List Char}
    (hbehind : ∀ char ∈ behind.head?, bareChar char = false) :
    loadValue (dumpValue value ++ behind) = some (value, behind) := by
  cases value with
  | text text =>
      rw [dumpValue, List.cons_append, List.append_assoc, loadValue, List.singleton_append,
        readString_escape]
      rfl
  | integer number =>
      have hchars : ∀ char ∈ intText number, bareChar char = true := by
        intro char hchar
        refine bareChar_of_ne ?_ ?_ <;>
        · rintro rfl
          exact absurd (intText_chars hchar) (by decide)
      have htake : (intText number ++ behind).takeWhile bareChar = intText number := by
        rw [List.takeWhile_append_of_pos hchars]
        cases behind with
        | nil => exact List.append_nil _
        | cons char behind => simp [hbehind char rfl]
      have hdrop : (intText number ++ behind).dropWhile bareChar = behind := by
        rw [List.dropWhile_append_of_pos hchars]
        cases behind with
        | nil => rfl
        | cons char behind => simp [hbehind char rfl]
      obtain ⟨first, rest, hfirst⟩ := List.exists_cons_of_ne_nil (intText_ne_nil number)
      have hnumeral := intText_chars (hfirst ▸ List.mem_cons_self : first ∈ intText number)
      have hload : loadValue (intText number ++ behind) =
          (readInt ((intText number ++ behind).takeWhile bareChar)).map fun value =>
            (ArgValue.integer value, (intText number ++ behind).dropWhile bareChar) := by
        rw [hfirst, List.cons_append, loadValue]
        all_goals
          rintro text heq
          cases heq
          exact absurd hnumeral (by decide)
      change loadValue (intText number ++ behind) = _
      rw [hload, htake, hdrop, readInt_intText]
      rfl
  | boolean value => cases value <;> rfl
  | null => rfl
  | float value => exact value.elim

theorem loadEntries_dump {fuel : ℕ} {entries : List (List Char × ArgValue Empty)}
    (hfuel : entries.length ≤ fuel) :
    loadEntries fuel ((entries.flatMap fun entry => ", ".toList ++ dumpEntry entry) ++ ['\x7d']) =
      some entries := by
  induction entries generalizing fuel with
  | nil => cases fuel <;> rfl
  | cons entry entries ih =>
      obtain ⟨fuel, rfl⟩ := Nat.exists_eq_succ_of_ne_zero
        (Nat.ne_of_gt (Nat.lt_of_lt_of_le (Nat.succ_pos _) hfuel))
      have hbehind : ∀ char ∈ ((entries.flatMap fun entry => ", ".toList ++ dumpEntry entry) ++
          ['\x7d']).head?, bareChar char = false := by
        intro char hchar
        cases entries with
        | nil =>
            obtain rfl := Option.some.inj hchar
            decide
        | cons second entries =>
            obtain rfl := Option.some.inj hchar
            decide
      have hseparator : ", ".toList = [',', ' '] := by decide
      have hrest := ih (Nat.le_of_succ_le_succ hfuel)
      have hvalue := loadValue_dumpValue entry.2 hbehind
      rw [hseparator] at hrest hvalue
      rw [List.flatMap_cons, hseparator, dumpEntry]
      simp only [List.cons_append, List.nil_append, List.append_assoc, loadEntries,
        readString_escape, Option.bind_eq_bind, Option.bind_some, List.drop_succ_cons,
        List.drop_zero]
      simp only [List.cons_append, List.nil_append] at hrest hvalue
      rw [hvalue, Option.bind_some, hrest]
      rfl

theorem length_le_dump (entries : List (List Char × ArgValue Empty)) :
    entries.length ≤ (entries.flatMap fun entry => ", ".toList ++ dumpEntry entry).length := by
  induction entries with
  | nil => exact Nat.le_refl 0
  | cons entry entries ih =>
      rw [List.flatMap_cons, List.length_append, List.length_append, dumpEntry, List.length_cons,
        List.length_cons]
      omega

theorem samplePy_loads_dumps (arguments : Dict (List Char) (ArgValue Empty)) :
    samplePy.loads (samplePy.dumps arguments) = some arguments := by
  have hentries : loadEntries ((samplePy.dumps arguments).length + 1)
      (',' :: ' ' :: (samplePy.dumps arguments).tail) = some arguments.entries := by
    cases hcase : arguments.entries with
    | nil => simp [samplePy, hcase, loadEntries]
    | cons entry entries =>
        have htext : ',' :: ' ' :: (samplePy.dumps arguments).tail =
            (arguments.entries.flatMap fun entry => ", ".toList ++ dumpEntry entry) ++
              ['\x7d'] := by
          simp [samplePy, hcase]
        have hlength := congrArg List.length htext
        simp only [List.length_cons, List.length_append, List.length_tail, List.length_nil]
          at hlength
        have hfuel := length_le_dump arguments.entries
        rw [htext, ← hcase]
        exact loadEntries_dump (by omega)
  change (loadEntries _ _).map Dict.ofList = _
  rw [hentries, Option.map_some, Dict.ofList_entries]

theorem samplePy_lawful : samplePy.Lawful where
  isWord_ascii _ _ := rfl
  isSpace_printable char hlow hhigh := by
    refine decide_eq_false ?_
    rintro (rfl | rfl | rfl | rfl) <;> revert hlow <;> decide
  lower_ascii _ _ := rfl
  lower_head _ _ _ := rfl
  int_intText value _ := readInt_intText value
  int_angle text := by simp [samplePy, readInt, readDigits]
  float_angle _ := rfl
  loads_dumps := samplePy_loads_dumps

def addCall : ToolCall where
  name := "add_note".toList
  arguments := ⟨[("text".toList, .text "x, y: \x7bz\x7d".toList), ("line".toList, .integer (-5)),
    ("keep".toList, .boolean true)], by decide +kernel⟩

theorem addCall_values {argument : List Char × CallValue}
    (hargument : argument ∈ addCall.arguments.entries) :
    argument.2 = .text "x, y: \x7bz\x7d".toList ∨ argument.2 = .integer (-5) ∨
      argument.2 = .boolean true := by
  rcases List.mem_cons.mp hargument with heq | hargument
  · exact .inl (congrArg Prod.snd heq)
  rcases List.mem_cons.mp hargument with heq | hargument
  · exact .inr (.inl (congrArg Prod.snd heq))
  · exact .inr (.inr (congrArg Prod.snd (List.mem_singleton.mp hargument)))

theorem addCall_text {argument : List Char × CallValue} {text : List Char}
    (hargument : argument ∈ addCall.arguments.entries) (htext : argument.2 = .text text) :
    text = "x, y: \x7bz\x7d".toList := by
  rcases addCall_values hargument with hvalue | hvalue | hvalue <;> rw [hvalue] at htext
  · exact (CallValue.text.inj htext).symm
  · exact nomatch htext
  · exact nomatch htext

theorem addCall_wellFormed : addCall.WellFormed samplePy where
  name_ne_nil := by decide +kernel
  name_word := by decide +kernel
  key_ne_nil := by decide +kernel
  key_word := by decide +kernel
  text_delimiter argument hargument text htext := by
    rw [addCall_text hargument htext]
    decide +kernel
  text_end argument hargument text htext := by
    rw [addCall_text hargument htext]
    decide +kernel
  integer_length argument hargument value hvalue := by
    rcases addCall_values hargument with hentry | hentry | hentry <;> rw [hentry] at hvalue
    · exact nomatch hvalue
    · rw [← CallValue.integer.inj hvalue]
      decide +kernel
    · exact nomatch hvalue

/-- The call is read back from a turn with a padding token. -/
theorem extractToolCalls_undoes_addCall :
    (extractToolCalls samplePy (some "<pad>".toList)
        ("Noted.".toList ++ [addCall, addCall].flatMap renderCall)).2.map
      (fun call => (call.name, samplePy.loads call.arguments)) =
    [addCall, addCall].map (fun call => (call.name, some call.given)) := by
  refine ((extractToolCalls_undoes_iff samplePy_lawful ?_ ?_ ?_).2).mpr ?_
  · simpa using addCall_wellFormed
  · decide +kernel
  · rintro token heq -
    rw [← Option.some.inj heq]
    decide +kernel
  · intro call hcall argument hargument text htext
    obtain rfl : call = addCall := by simpa using hcall
    rw [addCall_text hargument htext]
    decide +kernel

end OneShotOPD.Gemma4
