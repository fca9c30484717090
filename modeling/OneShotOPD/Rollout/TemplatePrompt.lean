import OneShotOPD.Core.Dict
import Mathlib.Algebra.BigOperators.Group.List.Basic
import Mathlib.Algebra.Order.Floor.Div
import Mathlib.Data.Int.CardIntervalMod
import Mathlib.Data.List.Count
import Mathlib.Data.List.GetD

/-!
# Filtering oversampled texts

The model generates its own queries, more of them than a batch needs.  A text that
is empty, too short or about the conversation is rejected with a reason; the texts
that remain are cut to the size of the batch, or repeated in turn to fill it.
-/

namespace OneShotOPD.Template

/-- Methods of strings and classes of characters of the language. -/
structure TextMethods where
  strip : String → String
  lower : String → String
  isDigit : Char → Bool
  isWord : Char → Bool

/-! ## Content checks -/

/-- `pattern in text`. -/
def occursIn (text pattern : String) : Bool := pattern.toList <:+: text.toList

def mathKeywords : List String :=
  ["solve", "find", "compute", "prove", "determine", "evaluate", "calculate", "simplify",
    "show that", "how many", "what is the value", "what is", "let ", "given that", "suppose",
    "for all", "there exist", "integer", "positive", "triangle", "circle", "polynomial",
    "equation", "divisible", "modulo", "remainder", "sum of", "product of", "maximum", "minimum",
    "probability", "permutation", "combination", "求", "证明", "计算", "设", "解方程", "多少", "若",
    "已知"]

def codeKeywords : List String :=
  ["def ", "class ", "import ", "return ", "print(", "for ", "while ", "if ", "else:", "elif ",
    "try:", "except", "with ", "assert ", "input(", "sys.stdin", "stdout", "```", "solution",
    "function", "algorithm", "implement", "output", "test case"]

def metaPatterns : List String :=
  ["seems like", "clarify", "incomplete", "provide more", "more details", "i'm an ai",
    "i am an ai", "deepseek", "language model", "语言模型", "how can i help",
    "what would you like", "feel free to", "i'd be happy to help", "could you clarify",
    "your message", "your question", "i'm here to help", "qwen"]

def selfIntroKeywords : List String := ["deepseek", "语言模型", "智能助手", "qwen", "alibaba"]

/-- `_MATH_SYMBOL_RE.search(text)`. -/
def hasMathSymbol (methods : TextMethods) (text : String) : Bool :=
  (text.toList.any fun char => char ∈ "+-=^_\x7b\x7d\\".toList || methods.isDigit char) ||
    ["\\frac", "\\sqrt", "\\sum", "\\int", "\\lim", "$"].any (occursIn text)

/-- `\bword\b` somewhere in a text, of which the part before is given by its last character. -/
def hasWord (methods : TextMethods) (word : List Char) : Option Char → List Char → Bool
  | _, [] => false
  | before, char :: rest =>
      (word.isPrefixOf (char :: rest) && ! (before.any methods.isWord) &&
        ! (((char :: rest).drop word.length).head?.any methods.isWord)) ||
      hasWord methods word (some char) rest

/-- `_CODE_SYMBOL_RE.search(text)`. -/
def hasCodeSymbol (methods : TextMethods) (text : String) : Bool :=
  (text.toList.any fun char => char ∈ "()\x7b\x7d[]:;".toList) ||
    ["==", "!=", "<=", ">=", "->", "=>"].any (occursIn text) ||
    ["range", "len", "int", "str", "list"].any fun word =>
      hasWord methods word.toList none text.toList

/-- The checks that both tasks share; `none` when the text passes them. -/
def sharedRejection (methods : TextMethods) (text : String) (minCharLength : ℤ) : Option String :=
  if (text.length : ℤ) < minCharLength then some "too_short"
  else if metaPatterns.any (occursIn (methods.lower text)) then some "meta_response"
  else if selfIntroKeywords.any (occursIn (methods.lower text)) then some "self_intro"
  else none

def isValidMathContent (methods : TextMethods) (text : String) (minCharLength : ℤ) :
    Bool × String :=
  match sharedRejection methods text minCharLength with
  | some reason => (false, reason)
  | none =>
      let hasKeyword := mathKeywords.any (occursIn (methods.lower text))
      let hasDigit := text.toList.any methods.isDigit
      if ! ((hasKeyword || hasMathSymbol methods text) && hasDigit) then (false, "no_math_content")
      else (true, "")

def isValidCodeContent (methods : TextMethods) (text : String) (minCharLength : ℤ) :
    Bool × String :=
  match sharedRejection methods text minCharLength with
  | some reason => (false, reason)
  | none =>
      let hasKeyword := codeKeywords.any (occursIn (methods.lower text))
      if ! (hasKeyword || hasCodeSymbol methods text) then (false, "no_code_content")
      else (true, "")

def getContentChecker (methods : TextMethods) (task : String) : String → ℤ → Bool × String :=
  if methods.lower task = "code" then isValidCodeContent methods else isValidMathContent methods

/-! ## The filter -/

structure FilterResult where
  totalCount : ℕ
  validCount : ℕ
  rejectedCount : ℤ
  rejectReasons : Dict String ℕ
  validIndices : List ℕ

/-- What the loop over the texts has so far. -/
structure FilterState where
  validIndices : List ℕ
  rejectReasons : Dict String ℕ

/-- `reject_reasons[reason] = reject_reasons.get(reason, 0) + 1`. -/
def tally (reasons : Dict String ℕ) (reason : String) : Dict String ℕ :=
  reasons.insert reason (reasons.getD reason 0 + 1)

def filterText (methods : TextMethods) (checker : String → ℤ → Bool × String)
    (minCharLength : ℤ) (state : FilterState) (row : Option String × ℕ) : FilterState :=
  let stripped := methods.strip (row.1.getD "")
  if stripped = "" then
    { state with rejectReasons := tally state.rejectReasons "empty_response" }
  else
    let (isValid, reason) := checker stripped minCharLength
    if isValid then { state with validIndices := state.validIndices ++ [row.2] }
    else { state with rejectReasons := tally state.rejectReasons reason }

def filterValidTexts (methods : TextMethods) (texts : List (Option String)) (minCharLength : ℤ)
    (task : String) : FilterResult :=
  let state := texts.zipIdx.foldl
    (filterText methods (getContentChecker methods task) minCharLength) ⟨[], .empty⟩
  { totalCount := texts.length
    validCount := state.validIndices.length
    rejectedCount := texts.length - state.validIndices.length
    rejectReasons := state.rejectReasons
    validIndices := state.validIndices }

/-- The loop that fills a batch; it runs once for every row that is missing. -/
def fill (validIndices : List ℕ) : ℕ → List ℕ → List ℕ
  | 0, filled => filled
  | missing + 1, filled =>
      fill validIndices missing
        (filled ++ [validIndices.getD (filled.length % validIndices.length) 0])

def truncateAfterOversample (validIndices : List ℕ) (targetBatchSize : ℤ) : List ℕ :=
  if targetBatchSize ≤ 0 ∨ validIndices = [] then []
  else if targetBatchSize ≤ validIndices.length then validIndices.take targetBatchSize.toNat
  else fill validIndices (targetBatchSize - validIndices.length).toNat validIndices

/-! ## What the filter counts -/

/-- Why a text is rejected; `none` for a valid text. -/
def rejection (methods : TextMethods) (checker : String → ℤ → Bool × String) (minCharLength : ℤ)
    (text : Option String) : Option String :=
  if methods.strip (text.getD "") = "" then some "empty_response"
  else if (checker (methods.strip (text.getD "")) minCharLength).1 then none
  else some (checker (methods.strip (text.getD "")) minCharLength).2

/-- Replacing the value of a key changes the sum by the difference. -/
theorem sum_replace {entries : List (String × ℕ)} (hkeys : (entries.map Prod.fst).Nodup)
    {key : String} {value : ℕ} (hentry : (key, value) ∈ entries) (new : ℕ) :
    ((entries.map fun entry => if entry.1 = key then (key, new) else entry).map Prod.snd).sum +
      value = (entries.map Prod.snd).sum + new := by
  induction entries with
  | nil => simp at hentry
  | cons entry entries ih =>
      rw [List.map_cons, List.nodup_cons] at hkeys
      by_cases hfirst : entry.1 = key
      · have hvalue : entry = (key, value) := by
          rcases List.mem_cons.mp hentry with heq | hmem
          · exact heq.symm
          · exact absurd (List.mem_map.mpr ⟨_, hmem, rfl⟩) (hfirst ▸ hkeys.1)
        have hrest : entries.map (fun entry => if entry.1 = key then (key, new) else entry) =
            entries := by
          refine (List.map_congr_left fun other hother => if_neg fun heq => ?_).trans
            (List.map_id entries)
          exact hkeys.1 (List.mem_map.mpr ⟨other, hother, heq.trans hfirst.symm⟩)
        rw [List.map_cons, hrest, hvalue]
        simp only [if_true, List.map_cons, List.sum_cons]
        omega
      · have hmem : (key, value) ∈ entries :=
          (List.mem_cons.mp hentry).resolve_left fun heq => hfirst (by rw [← heq])
        have hsum := ih hkeys.2 hmem
        simp only [List.map_cons, if_neg hfirst, List.sum_cons]
        omega

theorem sum_tally (reasons : Dict String ℕ) (reason : String) :
    ((tally reasons reason).entries.map Prod.snd).sum =
      (reasons.entries.map Prod.snd).sum + 1 := by
  rw [tally]
  cases hcount : reasons.get? reason with
  | none =>
      rw [Dict.entries_insert_of_not_mem _ _ ((Dict.get?_eq_none_iff _ _).mp hcount)]
      simp [Dict.getD, hcount]
  | some count =>
      have hentry := (Dict.get?_eq_some_iff _ _ _).mp hcount
      have hsum := sum_replace reasons.nodup_keys hentry (count + 1)
      have hkey : reason ∈ reasons.keys := List.mem_map.mpr ⟨_, hentry, rfl⟩
      rw [Dict.entries_insert_of_mem _ _ hkey, Dict.getD, hcount, Option.getD_some]
      omega

/-- The counts of all reasons together. -/
theorem sum_foldl_tally (found : List String) (reasons : Dict String ℕ) :
    ((found.foldl tally reasons).entries.map Prod.snd).sum =
      (reasons.entries.map Prod.snd).sum + found.length := by
  induction found generalizing reasons with
  | nil => rfl
  | cons reason found ih =>
      rw [List.foldl_cons, ih, sum_tally, List.length_cons]
      omega

theorem getD_tally (reasons : Dict String ℕ) (reason other : String) :
    (tally reasons reason).getD other 0 =
      reasons.getD other 0 + if other = reason then 1 else 0 := by
  rw [tally, Dict.getD, Dict.get?_insert]
  split
  · next heq => simp [heq]
  · simp [Dict.getD]

/-- Under every reason stands how often it was found. -/
theorem getD_foldl_tally (found : List String) (reasons : Dict String ℕ) (reason : String) :
    (found.foldl tally reasons).getD reason 0 = reasons.getD reason 0 + found.count reason := by
  induction found generalizing reasons with
  | nil => rfl
  | cons first found ih =>
      rw [List.foldl_cons, ih, getD_tally, List.count_cons]
      by_cases hreason : reason = first
      · simp only [hreason, if_true, beq_self_eq_true]
        omega
      · have hne : (first == reason) = false := by simpa using Ne.symm hreason
        simp [hreason, hne]

section Filter

variable (methods : TextMethods) (checker : String → ℤ → Bool × String) (minCharLength : ℤ)

theorem filterText_eq (state : FilterState) (row : Option String × ℕ) :
    filterText methods checker minCharLength state row =
      match rejection methods checker minCharLength row.1 with
      | some reason => { state with rejectReasons := tally state.rejectReasons reason }
      | none => { state with validIndices := state.validIndices ++ [row.2] } := by
  rw [filterText, rejection]
  dsimp only
  by_cases hempty : methods.strip (row.1.getD "") = ""
  · simp only [if_pos hempty]
  · by_cases hvalid : (checker (methods.strip (row.1.getD "")) minCharLength).1
    · simp only [if_neg hempty, if_pos hvalid]
    · simp only [if_neg hempty, if_neg hvalid]

/-- The indices of the valid texts among texts counted from an offset. -/
def validFrom (offset : ℕ) (texts : List (Option String)) : List ℕ :=
  (texts.zipIdx offset).filterMap fun row =>
    if rejection methods checker minCharLength row.1 = none then some row.2 else none

/-- Every text is counted once: as an index, or under its reason. -/
theorem foldl_filterText (texts : List (Option String)) :
    ∀ (offset : ℕ) (state : FilterState),
      (texts.zipIdx offset).foldl (filterText methods checker minCharLength) state =
        { validIndices := state.validIndices ++
            validFrom methods checker minCharLength offset texts
          rejectReasons := (texts.filterMap (rejection methods checker minCharLength)).foldl tally
            state.rejectReasons } := by
  induction texts with
  | nil => intro offset state; simp [validFrom]
  | cons text texts ih =>
      intro offset state
      have hcons : validFrom methods checker minCharLength offset (text :: texts) =
          (if rejection methods checker minCharLength text = none then [offset] else []) ++
            validFrom methods checker minCharLength (offset + 1) texts := by
        simp only [validFrom, List.zipIdx_cons, List.filterMap_cons]
        split <;> simp_all
      rw [List.zipIdx_cons, List.foldl_cons, ih, filterText_eq, hcons]
      cases hrejection : rejection methods checker minCharLength text with
      | none => simp [hrejection]
      | some reason => simp [hrejection]

theorem mem_validFrom {texts : List (Option String)} {offset index : ℕ} :
    index ∈ validFrom methods checker minCharLength offset texts ↔
      ∃ text, offset ≤ index ∧ texts[index - offset]? = some text ∧
        rejection methods checker minCharLength text = none := by
  simp only [validFrom, List.mem_filterMap, Prod.exists, Option.ite_none_right_eq_some,
    Option.some.injEq, List.mem_zipIdx_iff_le_and_getElem?_sub]
  constructor
  · rintro ⟨text, found, ⟨hle, htext⟩, hvalid, rfl⟩
    exact ⟨text, hle, htext, hvalid⟩
  · rintro ⟨text, hle, htext, hvalid⟩
    exact ⟨text, index, ⟨hle, htext⟩, hvalid, rfl⟩

theorem pairwise_validFrom (offset : ℕ) (texts : List (Option String)) :
    (validFrom methods checker minCharLength offset texts).Pairwise (· < ·) := by
  have hindices : ((texts.zipIdx offset).map Prod.snd).Pairwise (· < ·) := by
    rw [List.zipIdx_map_snd]
    exact List.pairwise_lt_range'
  rw [List.pairwise_map] at hindices
  refine hindices.filterMap _ fun first second hlt left hleft right hright => ?_
  simp only [Option.ite_none_right_eq_some, Option.some.injEq] at hleft hright
  exact hleft.2 ▸ hright.2 ▸ hlt

theorem length_validFrom (offset : ℕ) (texts : List (Option String)) :
    (validFrom methods checker minCharLength offset texts).length +
      (texts.filterMap (rejection methods checker minCharLength)).length = texts.length := by
  induction texts generalizing offset with
  | nil => rfl
  | cons text texts ih =>
      have hrest := ih (offset + 1)
      rw [validFrom] at hrest ⊢
      rw [List.zipIdx_cons]
      cases hrejection : rejection methods checker minCharLength text with
      | none => simp only [List.filterMap_cons, hrejection, List.length_cons, if_true]; omega
      | some reason =>
          simp only [List.filterMap_cons, hrejection, List.length_cons, reduceCtorEq, if_false]
          omega

end Filter

/-! ## What fills the batch -/

/-- The rows in turn. -/
def cycled (validIndices : List ℕ) (count : ℕ) : List ℕ :=
  (List.range count).map fun i => validIndices.getD (i % validIndices.length) 0

theorem fill_cycled (validIndices : List ℕ) (missing count : ℕ) :
    fill validIndices missing (cycled validIndices count) =
      cycled validIndices (count + missing) := by
  induction missing generalizing count with
  | zero => rfl
  | succ missing ih =>
      have hnext : cycled validIndices count ++
          [validIndices.getD ((cycled validIndices count).length % validIndices.length) 0] =
            cycled validIndices (count + 1) := by
        simp [cycled, List.range_succ]
      rw [fill, hnext, ih, Nat.add_right_comm, Nat.add_assoc]

theorem cycled_of_le {validIndices : List ℕ} {count : ℕ} (hcount : count ≤ validIndices.length) :
    cycled validIndices count = validIndices.take count := by
  apply List.ext_getElem
  · simp [cycled, hcount]
  · intro index hleft hright
    have hlt : index < count := by simpa [cycled] using hleft
    simp [cycled, Nat.mod_eq_of_lt (hlt.trans_le hcount), hlt.trans_le hcount]

/-- The batch goes through the valid rows in turn. -/
theorem truncateAfterOversample_eq {validIndices : List ℕ} (hvalid : validIndices ≠ [])
    (targetBatchSize : ℤ) :
    truncateAfterOversample validIndices targetBatchSize =
      cycled validIndices targetBatchSize.toNat := by
  rw [truncateAfterOversample]
  by_cases hsize : targetBatchSize ≤ 0
  · rw [if_pos (.inl hsize), Int.toNat_of_nonpos hsize]
    rfl
  · rw [if_neg (not_or.mpr ⟨hsize, hvalid⟩)]
    split
    · next hle => rw [cycled_of_le (by omega)]
    · next hlt =>
        have hself : cycled validIndices validIndices.length = validIndices := by
          rw [cycled_of_le le_rfl, List.take_length]
        conv_lhs => arg 3; rw [← hself]
        rw [fill_cycled]
        congr 1
        omega

example : truncateAfterOversample [2, 5, 7] 5 = [2, 5, 7, 2, 5] := by decide

theorem mem_cycled {validIndices : List ℕ} (hvalid : validIndices ≠ []) {count row : ℕ}
    (hrow : row ∈ cycled validIndices count) : row ∈ validIndices := by
  obtain ⟨i, -, rfl⟩ := List.mem_map.mp hrow
  have hlt := Nat.mod_lt i (List.length_pos_iff.mpr hvalid)
  rw [List.getD_eq_getElem _ _ hlt]
  exact List.getElem_mem hlt

/-- How often a row comes up. -/
theorem count_cycled {validIndices : List ℕ} (hnodup : validIndices.Nodup) {position : ℕ}
    (hposition : position < validIndices.length) (count : ℕ) :
    (cycled validIndices count).count validIndices[position] =
      count / validIndices.length +
        if position < count % validIndices.length then 1 else 0 := by
  have hpos : 0 < validIndices.length := Nat.zero_lt_of_lt hposition
  have hcount := Nat.count_modEq_card count hpos position
  rw [Nat.mod_eq_of_lt hposition] at hcount
  rw [← hcount]
  clear hcount
  induction count with
  | zero => rfl
  | succ count ih =>
      have hlt := Nat.mod_lt count hpos
      have hsame : (validIndices.getD (count % validIndices.length) 0 = validIndices[position]) ↔
          count ≡ position [MOD validIndices.length] := by
        rw [List.getD_eq_getElem _ _ hlt, hnodup.getElem_inj_iff, Nat.ModEq,
          Nat.mod_eq_of_lt hposition]
      have hcycled : cycled validIndices (count + 1) = cycled validIndices count ++
          [validIndices.getD (count % validIndices.length) 0] := by
        simp [cycled, List.range_succ]
      rw [hcycled, List.count_append, ih, Nat.count_succ, List.count_singleton]
      simp only [beq_iff_eq, hsame]

theorem ceilDiv_eq_succ {count size : ℕ} (hsize : 0 < size) (hrest : 0 < count % size) :
    count ⌈/⌉ size = count / size + 1 := by
  have hsum : count + size - 1 = count % size - 1 + size * (count / size + 1) := by
    have hdiv := Nat.mod_add_div count size
    rw [Nat.mul_succ]
    omega
  have hlt : count % size - 1 < size := (Nat.sub_le _ _).trans_lt (Nat.mod_lt count hsize)
  rw [Nat.ceilDiv_eq_add_pred_div, hsum, Nat.add_mul_div_left _ _ hsize, Nat.div_eq_of_lt hlt,
    Nat.zero_add]

/-- The filter counts every text once, and the batch is made of valid rows that come up
equally often. -/
theorem filter_truncate_accounting (methods : TextMethods) (texts : List (Option String))
    (minCharLength : ℤ) (task : String) (targetBatchSize : ℤ) :
    let result := filterValidTexts methods texts minCharLength task
    let batch := truncateAfterOversample result.validIndices targetBatchSize
    result.totalCount = texts.length ∧
      (result.totalCount : ℤ) = result.validCount + result.rejectedCount ∧
      ((result.rejectReasons.entries.map Prod.snd).sum : ℤ) = result.rejectedCount ∧
      (∀ reason, result.rejectReasons.getD reason 0 =
        (texts.filterMap (rejection methods (getContentChecker methods task)
          minCharLength)).count reason) ∧
      result.validCount = result.validIndices.length ∧
      result.validIndices.Pairwise (· < ·) ∧
      (∀ row, row ∈ result.validIndices ↔ ∃ text, texts[row]? = some text ∧
        rejection methods (getContentChecker methods task) minCharLength text = none) ∧
      (0 < result.validCount →
        batch.length = targetBatchSize.toNat ∧
        (∀ row ∈ batch, row ∈ result.validIndices) ∧
        ∀ row ∈ result.validIndices,
          (batch.count row = targetBatchSize.toNat / result.validCount ∨
            batch.count row = targetBatchSize.toNat ⌈/⌉ result.validCount) ∧
          (targetBatchSize ≤ result.validCount → batch.count row ≤ 1)) := by
  have hstate := foldl_filterText methods (getContentChecker methods task) minCharLength texts 0
    ⟨[], .empty⟩
  have hlength := length_validFrom methods (getContentChecker methods task) minCharLength 0 texts
  have hpairwise :=
    pairwise_validFrom methods (getContentChecker methods task) minCharLength 0 texts
  have hmem := fun row => @mem_validFrom methods (getContentChecker methods task) minCharLength
    texts 0 row
  simp only [filterValidTexts, hstate, List.nil_append]
  generalize validFrom methods (getContentChecker methods task) minCharLength 0 texts = valid at *
  refine ⟨trivial, by omega, ?_, fun reason => ?_, trivial, hpairwise, fun row => ?_, ?_⟩
  · rw [sum_foldl_tally]
    simp only [Dict.empty, List.map_nil, List.sum_nil]
    omega
  · rw [getD_foldl_tally, Dict.getD, Dict.get?_empty]
    simp
  · simpa using hmem row
  · intro hvalid
    have hne : valid ≠ [] := List.length_pos_iff.mp hvalid
    rw [truncateAfterOversample_eq hne]
    refine ⟨by simp [cycled], fun row hrow => mem_cycled hne hrow, fun row hrow => ?_⟩
    obtain ⟨position, hposition, rfl⟩ := List.getElem_of_mem hrow
    rw [count_cycled hpairwise.nodup hposition]
    refine ⟨?_, fun hle => ?_⟩
    · split
      · next hlt => exact .inr (ceilDiv_eq_succ hvalid (Nat.zero_lt_of_lt hlt)).symm
      · exact .inl rfl
    · rcases Nat.lt_or_eq_of_le (show targetBatchSize.toNat ≤ valid.length by omega) with hlt | heq
      · rw [Nat.div_eq_of_lt hlt]
        split <;> omega
      · rw [heq, Nat.div_self hvalid, Nat.mod_self]
        simp

end OneShotOPD.Template
