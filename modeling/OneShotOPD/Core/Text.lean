import Mathlib.Data.List.Infix
import Mathlib.Tactic.Common

/-!
# Searching a text for a token

Texts are lists of characters.  A token whose first character does not come
again in it cannot overlap itself, so that an occurrence lies inside of the text
around it or is the token itself.
-/

namespace OneShotOPD.Text

/-- What holds of every character of a text is decided over the text, before the
instance that goes through every character. -/
instance (priority := 2000) decidableForallMem {p : Char → Prop} [DecidablePred p]
    (text : List Char) : Decidable (∀ char ∈ text, p char) :=
  List.decidableBAll p text

/-- `text.replace(token, "")`.  The number counts the characters that are left
of an occurrence. -/
def removeFrom (token : List Char) : ℕ → List Char → List Char
  | _, [] => []
  | skipped + 1, _ :: text => removeFrom token skipped text
  | 0, char :: text =>
      if token <+: char :: text then removeFrom token (token.length - 1) text
      else char :: removeFrom token 0 text

def removeAll (token text : List Char) : List Char := removeFrom token 0 text

/-- `text[: text.index(token)]`, where the token occurs. -/
def beforeFirst (token : List Char) : List Char → Option (List Char)
  | [] => if token = [] then some [] else none
  | char :: text =>
      if token <+: char :: text then some [] else (beforeFirst token text).map (char :: ·)

/-- `text.rpartition(token)[2]`, where the token occurs. -/
def behindLast (token : List Char) : List Char → Option (List Char)
  | [] => none
  | char :: text =>
      match behindLast token text with
      | some behind => some behind
      | none =>
          if token <+: char :: text then some ((char :: text).drop token.length) else none

/-- `text.removesuffix(ending)`. -/
def removeSuffix (ending text : List Char) : List Char :=
  if ending <:+ text then text.take (text.length - ending.length) else text

variable {first : Char} {rest before after text answer : List Char}

/-- A token whose first character does not come again lies in the text before a
further occurrence of the character, when it starts there. -/
theorem prefix_of_append (hfirst : first ∉ rest) (hbefore : before ≠ [])
    (hstarts : first :: rest <+: before ++ first :: after) : first :: rest <+: before := by
  rcases List.prefix_or_prefix_of_prefix hstarts (List.prefix_append before _) with hwithin | hover
  · exact hwithin
  · obtain ⟨tail, htail⟩ := hover
    cases tail with
    | nil =>
        rw [List.append_nil] at htail
        exact htail ▸ List.prefix_rfl
    | cons next tail =>
        have hnext : next = first := by
          rw [← htail] at hstarts
          exact (List.cons_prefix_cons.mp ((List.prefix_append_right_inj before).mp hstarts)).1
        obtain ⟨char, before, rfl⟩ := List.exists_cons_of_ne_nil hbefore
        have hrest : before ++ next :: tail = rest := (List.cons.inj htail).2
        exact absurd (hrest ▸ List.mem_append_right before (hnext ▸ List.mem_cons_self)) hfirst

theorem not_prefix_of_append (hfirst : first ∉ rest) (hbefore : before ≠ [])
    (habsent : ¬ first :: rest <:+: before) : ¬ first :: rest <+: before ++ first :: after :=
  fun hstarts => habsent (prefix_of_append hfirst hbefore hstarts).isInfix

theorem not_infix_tail {char : Char} {token : List Char} (habsent : ¬ token <:+: char :: text) :
    ¬ token <:+: text :=
  fun hfound => habsent (hfound.trans (List.suffix_cons char text).isInfix)

theorem not_prefix_of_absent {token : List Char} (habsent : ¬ token <:+: text) :
    ¬ token <+: text :=
  fun hstarts => habsent hstarts.isInfix

/-! ## Absence -/

theorem absent_cons {token : List Char} {char : Char} (hstarts : ¬ token <+: char :: text)
    (habsent : ¬ token <:+: text) : ¬ token <:+: char :: text := by
  rw [List.infix_cons_iff]
  exact not_or.mpr ⟨hstarts, habsent⟩

/-- A token is absent from a text that is cut where the first character of the
token stands. -/
theorem absent_append_cons (hfirst : first ∉ rest) (hbefore : ¬ first :: rest <:+: before)
    (hafter : ¬ first :: rest <:+: first :: after) :
    ¬ first :: rest <:+: before ++ first :: after := by
  induction before with
  | nil => exact hafter
  | cons char before ih =>
      exact absent_cons (not_prefix_of_append hfirst (List.cons_ne_nil char before) hbefore)
        (ih (not_infix_tail hbefore))

theorem absent_append_of_not_mem (hfirst : first ∉ before) (hafter : ¬ first :: rest <:+: after) :
    ¬ first :: rest <:+: before ++ after := by
  induction before with
  | nil => exact hafter
  | cons char before ih =>
      refine absent_cons (fun hstarts => ?_) (ih (List.not_mem_of_not_mem_cons hfirst))
      exact List.ne_of_not_mem_cons hfirst (List.cons_prefix_cons.mp hstarts).1

/-- A token lies in the text before a character that it does not hold, when it
starts there. -/
theorem prefix_of_append_separator {token : List Char} {separator : Char}
    (hseparator : separator ∉ token) (hstarts : token <+: before ++ separator :: after) :
    token <+: before := by
  rcases List.prefix_or_prefix_of_prefix hstarts (List.prefix_append before _) with hwithin | hover
  · exact hwithin
  · obtain ⟨tail, rfl⟩ := hover
    cases tail with
    | nil => rw [List.append_nil]
    | cons next tail =>
        obtain rfl := (List.cons_prefix_cons.mp
          ((List.prefix_append_right_inj before).mp hstarts)).1
        exact absurd (List.mem_append_right before List.mem_cons_self) hseparator

/-- A token is absent from a text that is cut where a character stands that the
token does not hold. -/
theorem absent_append_separator {token : List Char} {separator : Char}
    (hseparator : separator ∉ token) (hbefore : ¬ token <:+: before)
    (hafter : ¬ token <:+: after) : ¬ token <:+: before ++ separator :: after := by
  have hstarts : ∀ start, ¬ token <:+: start → ¬ token <+: start ++ separator :: after :=
    fun start hstart hstarts => hstart (prefix_of_append_separator hseparator hstarts).isInfix
  induction before with
  | nil => exact absent_cons (hstarts [] hbefore) hafter
  | cons char before ih =>
      exact absent_cons (hstarts (char :: before) hbefore) (ih (not_infix_tail hbefore))

/-! ## Separated texts -/

/-- `separator.join(texts)` puts a separator before every text but the first. -/
theorem intercalate_cons (separator first : List Char) (texts : List (List Char)) :
    List.intercalate separator (first :: texts) =
      first ++ texts.flatMap fun text => separator ++ text := by
  induction texts generalizing first with
  | nil => simp [List.intercalate]
  | cons second texts ih =>
      have hjoin : List.intercalate separator (first :: second :: texts) =
          first ++ (separator ++ List.intercalate separator (second :: texts)) := by
        simp [List.intercalate]
      rw [hjoin, ih, List.flatMap_cons, List.append_assoc]

/-- A token that a separator of one character cannot be part of is absent from the
separated texts when it is absent from each of them. -/
theorem absent_intercalate {token : List Char} {separator : Char} {texts : List (List Char)}
    (htoken : token ≠ []) (hseparator : separator ∉ token)
    (htexts : ∀ text ∈ texts, ¬ token <:+: text) :
    ¬ token <:+: List.intercalate [separator] texts := by
  induction texts with
  | nil => simpa [List.intercalate] using htoken
  | cons first texts ih =>
      obtain ⟨hfirst, hrest⟩ := List.forall_mem_cons.mp htexts
      cases texts with
      | nil => simpa [List.intercalate] using hfirst
      | cons second texts =>
          have hjoin : List.intercalate [separator] (first :: second :: texts) =
              first ++ separator :: List.intercalate [separator] (second :: texts) := by
            simp [List.intercalate]
          rw [hjoin]
          exact absent_append_separator hseparator hfirst (ih hrest)

/-! ## Removal -/

theorem removeFrom_of_length_le {token : List Char} {skipped : ℕ}
    (hlength : text.length ≤ skipped) :
    removeFrom token skipped text = [] := by
  induction text generalizing skipped with
  | nil => cases skipped <;> rfl
  | cons char text ih =>
      cases skipped with
      | zero => simp at hlength
      | succ skipped => exact ih (by simpa using hlength)

theorem removeAll_of_absent {token : List Char} (habsent : ¬ token <:+: text) :
    removeAll token text = text := by
  induction text with
  | nil => rfl
  | cons char text ih =>
      have hstarts := not_prefix_of_absent habsent
      have hrest := ih (not_infix_tail habsent)
      rw [removeAll] at hrest ⊢
      rw [removeFrom, if_neg hstarts, hrest]

/-- A token at the end of a text that does not hold it is cut off. -/
theorem removeAll_append_token (hfirst : first ∉ rest) (habsent : ¬ first :: rest <:+: text) :
    removeAll (first :: rest) (text ++ first :: rest) = text := by
  induction text with
  | nil =>
      rw [removeAll, List.nil_append, removeFrom, if_pos List.prefix_rfl]
      exact removeFrom_of_length_le (by simp)
  | cons char text ih =>
      have hstarts : ¬ first :: rest <+: char :: (text ++ first :: rest) :=
        not_prefix_of_append hfirst (List.cons_ne_nil char text) habsent
      have hrest := ih (not_infix_tail habsent)
      rw [removeAll] at hrest ⊢
      rw [List.cons_append, removeFrom, if_neg hstarts, hrest]

/-! ## The first and the last occurrence -/

theorem beforeFirst_of_absent {token : List Char} (habsent : ¬ token <:+: text) :
    beforeFirst token text = none := by
  induction text with
  | nil =>
      have htoken : token ≠ [] := fun hnil => habsent (by rw [hnil])
      exact if_neg htoken
  | cons char text ih =>
      rw [beforeFirst, if_neg (not_prefix_of_absent habsent), ih (not_infix_tail habsent)]
      rfl

theorem beforeFirst_append (hfirst : first ∉ rest) (habsent : ¬ first :: rest <:+: before) :
    beforeFirst (first :: rest) (before ++ (first :: rest) ++ after) = some before := by
  rw [List.append_assoc]
  induction before with
  | nil =>
      have hstarts : first :: rest <+: first :: rest ++ after := List.prefix_append _ _
      rw [List.nil_append]
      rw [List.cons_append] at hstarts ⊢
      rw [beforeFirst, if_pos hstarts]
  | cons char before ih =>
      have hstarts : ¬ first :: rest <+: char :: (before ++ first :: (rest ++ after)) :=
        not_prefix_of_append hfirst (List.cons_ne_nil char before) habsent
      have hrest := ih (not_infix_tail habsent)
      rw [List.cons_append] at hrest ⊢
      rw [List.cons_append, beforeFirst, if_neg hstarts, hrest]
      rfl

theorem behindLast_of_absent {token : List Char} (habsent : ¬ token <:+: text) :
    behindLast token text = none := by
  induction text with
  | nil => rfl
  | cons char text ih =>
      rw [behindLast, ih (not_infix_tail habsent)]
      exact if_neg (not_prefix_of_absent habsent)

theorem behindLast_append_of_not_mem (hfirst : first ∉ before)
    (habsent : behindLast (first :: rest) after = none) :
    behindLast (first :: rest) (before ++ after) = none := by
  induction before with
  | nil => exact habsent
  | cons char before ih =>
      have hchar : first ≠ char := List.ne_of_not_mem_cons hfirst
      rw [List.cons_append, behindLast, ih (List.not_mem_of_not_mem_cons hfirst)]
      exact if_neg fun hstarts => hchar (List.cons_prefix_cons.mp hstarts).1

theorem behindLast_append_of_some {token behind : List Char}
    (hbehind : behindLast token after = some behind) :
    behindLast token (before ++ after) = some behind := by
  induction before with
  | nil => exact hbehind
  | cons char before ih => rw [List.cons_append, behindLast, ih]

theorem behindLast_append (hfirst : first ∉ rest) (habsent : ¬ first :: rest <:+: answer) :
    behindLast (first :: rest) (before ++ (first :: rest) ++ answer) = some answer := by
  have htail : behindLast (first :: rest) (rest ++ answer) = none :=
    behindLast_append_of_not_mem hfirst (behindLast_of_absent habsent)
  rw [List.append_assoc]
  apply behindLast_append_of_some
  have hstarts : first :: rest <+: first :: (rest ++ answer) := ⟨answer, rfl⟩
  rw [List.cons_append, behindLast, htail]
  simp only [if_pos hstarts]
  rw [← List.cons_append, List.drop_left]

theorem removeSuffix_append (ending : List Char) : removeSuffix ending (text ++ ending) = text := by
  rw [removeSuffix, if_pos (List.suffix_append text ending), List.length_append,
    Nat.add_sub_cancel, List.take_left]

/-! ## Numerals -/

/-- The number that a text of digits writes. -/
def readDigits (digits : List Char) : Option ℕ :=
  if digits ≠ [] ∧ digits.all Char.isDigit then some (Nat.ofDigitChars 10 digits 0) else none

theorem isDigit_of_mem_repr {value : ℕ} {char : Char} (hchar : char ∈ value.repr.toList) :
    char.isDigit = true :=
  Nat.isDigit_of_mem_toDigits (by decide) (by decide) (Nat.toList_repr ▸ hchar)

theorem readDigits_repr (value : ℕ) : readDigits value.repr.toList = some value := by
  have hdigits : value.repr.toList.all Char.isDigit :=
    List.all_eq_true.mpr fun char hchar => isDigit_of_mem_repr hchar
  rw [Nat.toList_repr] at hdigits ⊢
  rw [readDigits, if_pos ⟨Nat.toDigits_ne_nil, hdigits⟩,
    Nat.ofDigitChars_toDigits (by decide) (by decide)]

end OneShotOPD.Text
