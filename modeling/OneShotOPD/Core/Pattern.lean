import OneShotOPD.Core.Text

/-!
# Backtracking patterns

A pattern gives the ways in which it matches at the start of a text, each with
what it captures and the text behind it, in the order in which a backtracking
matcher tries them.  Its match is the first way.
-/

namespace OneShotOPD

open Text

def Pattern (α : Type) := List Char → List (α × List Char)

namespace Pattern

variable {α β : Type}

instance : Monad Pattern where
  pure value := fun text => [(value, text)]
  bind pattern next := fun text => (pattern text).flatMap fun way => next way.1 way.2

/-- The token itself. -/
def literal (token : List Char) : Pattern Unit :=
  fun text => if token <+: text then [((), text.drop token.length)] else []

/-- `first|second`. -/
def orElse (first second : Pattern α) : Pattern α := fun text => first text ++ second text

/-- `[class]*?`. -/
def lazyRun (inClass : Char → Bool) : List Char → List (List Char × List Char)
  | [] => [([], [])]
  | char :: text =>
      ([], char :: text) ::
        if inClass char then (lazyRun inClass text).map fun way => (char :: way.1, way.2) else []

/-- `[class]*`. -/
def greedyRun (inClass : Char → Bool) : List Char → List (List Char × List Char)
  | [] => [([], [])]
  | char :: text =>
      (if inClass char then (greedyRun inClass text).map fun way => (char :: way.1, way.2) else [])
        ++ [([], char :: text)]

/-- `([class]*?)`. -/
def shortest (inClass : Char → Bool) : Pattern (List Char) := lazyRun inClass

/-- `([class]*)`. -/
def longest (inClass : Char → Bool) : Pattern (List Char) := greedyRun inClass

/-- `([class]+)`. -/
def word (inClass : Char → Bool) : Pattern (List Char) :=
  fun text => (greedyRun inClass text).filter fun way => way.1 ≠ []

/-- The captures of the matches that `findall` comes upon from the left.  The
number counts the characters that are left of a match. -/
def findFrom (pattern : Pattern α) : ℕ → List Char → List α
  | _, [] => []
  | skipped + 1, _ :: text => findFrom pattern skipped text
  | 0, char :: text =>
      match (pattern (char :: text)).head? with
      | some (value, behind) => value :: findFrom pattern (text.length - behind.length) text
      | none => findFrom pattern 0 text

/-- `pattern.findall(text)`, for a pattern that does not match the empty text. -/
def findAll (pattern : Pattern α) (text : List Char) : List α := findFrom pattern 0 text

/-! ## One match -/

theorem bind_apply (pattern : Pattern α) (next : α → Pattern β) (text : List Char) :
    (pattern >>= next) text = (pattern text).flatMap fun way => next way.1 way.2 := rfl

theorem literal_append (token text : List Char) : literal token (token ++ text) = [((), text)] := by
  rw [literal, if_pos (List.prefix_append token text), List.drop_left]

theorem literal_bind_append (token text : List Char) (next : Unit → Pattern α) :
    (literal token >>= next) (token ++ text) = next () text := by
  rw [bind_apply, literal_append, List.flatMap_singleton]

theorem literal_bind_of_not_prefix {token text : List Char} (hstarts : ¬ token <+: text)
    (next : Unit → Pattern α) : (literal token >>= next) text = [] := by
  rw [bind_apply, literal, if_neg hstarts, List.flatMap_nil]

theorem of_mem_lazyRun {inClass : Char → Bool} {text run behind : List Char}
    (hway : (run, behind) ∈ lazyRun inClass text) :
    text = run ++ behind ∧ ∀ char ∈ run, inClass char = true := by
  induction text generalizing run behind with
  | nil =>
      obtain ⟨rfl, rfl⟩ := Prod.mk.inj (List.mem_singleton.mp hway)
      simp
  | cons char text ih =>
      rcases List.mem_cons.mp hway with hempty | hway
      · obtain ⟨rfl, rfl⟩ := Prod.mk.inj hempty
        simp
      · split at hway
        next hchar =>
            obtain ⟨way, hinner, heq⟩ := List.mem_map.mp hway
            obtain ⟨rfl, rfl⟩ := Prod.mk.inj heq
            obtain ⟨htext, hclass⟩ := ih hinner
            exact ⟨congrArg _ htext, List.forall_mem_cons.mpr ⟨hchar, hclass⟩⟩
        next => cases hway

theorem of_mem_greedyRun {inClass : Char → Bool} {text run behind : List Char}
    (hway : (run, behind) ∈ greedyRun inClass text) :
    text = run ++ behind ∧ ∀ char ∈ run, inClass char = true := by
  induction text generalizing run behind with
  | nil =>
      obtain ⟨rfl, rfl⟩ := Prod.mk.inj (List.mem_singleton.mp hway)
      simp
  | cons char text ih =>
      rcases List.mem_append.mp hway with hway | hempty
      · split at hway
        next hchar =>
            obtain ⟨way, hinner, heq⟩ := List.mem_map.mp hway
            obtain ⟨rfl, rfl⟩ := Prod.mk.inj heq
            obtain ⟨htext, hclass⟩ := ih hinner
            exact ⟨congrArg _ htext, List.forall_mem_cons.mpr ⟨hchar, hclass⟩⟩
        next => cases hway
      · obtain ⟨rfl, rfl⟩ := Prod.mk.inj (List.mem_singleton.mp hempty)
        simp

/-- The shortest run that lets the rest of the pattern match is taken. -/
theorem head?_shortest_bind {inClass : Char → Bool} {body behind : List Char}
    {next : List Char → Pattern β} {way : β × List Char}
    (hclass : ∀ char ∈ body, inClass char = true)
    (hshorter : ∀ before after, body = before ++ after → after ≠ [] →
      next before (after ++ behind) = [])
    (hnext : (next body behind).head? = some way) :
    ((shortest inClass >>= next) (body ++ behind)).head? = some way := by
  have hways : ∀ (taken left : List Char), body = taken ++ left →
      ((lazyRun inClass (left ++ behind)).flatMap fun way =>
        next (taken ++ way.1) way.2).head? = some way := by
    intro taken left hbody
    induction left generalizing taken with
    | nil =>
        rw [List.append_nil] at hbody
        subst hbody
        cases behind with
        | nil => simpa [lazyRun] using hnext
        | cons char behind => simp [lazyRun, hnext]
    | cons char left ih =>
        have hchar : inClass char = true :=
          hclass char (hbody ▸ List.mem_append_right taken List.mem_cons_self)
        have hfail : next (taken ++ []) (char :: (left ++ behind)) = [] := by
          rw [List.append_nil]
          exact hshorter taken (char :: left) hbody (List.cons_ne_nil char left)
        have hrest := ih (taken ++ [char]) (by rw [hbody, List.append_assoc]; rfl)
        rw [List.cons_append, lazyRun, if_pos hchar, List.flatMap_cons, hfail, List.nil_append,
          List.flatMap_map]
        simpa only [List.append_assoc, List.singleton_append] using hrest
  exact hways [] body rfl

/-- A run that ends before a character outside of the class comes first. -/
theorem greedyRun_append {inClass : Char → Bool} {body behind : List Char}
    (hclass : ∀ char ∈ body, inClass char = true)
    (hbehind : ∀ char ∈ behind.head?, inClass char = false) :
    ∃ shorter, greedyRun inClass (body ++ behind) = (body, behind) :: shorter := by
  induction body with
  | nil =>
      cases behind with
      | nil => exact ⟨[], rfl⟩
      | cons char behind =>
          have hchar : inClass char = false := hbehind char rfl
          exact ⟨[], by simp [greedyRun, hchar]⟩
  | cons char body ih =>
      obtain ⟨hchar, hrest⟩ := List.forall_mem_cons.mp hclass
      obtain ⟨shorter, hways⟩ := ih hrest
      rw [List.cons_append, greedyRun, if_pos hchar, hways]
      exact ⟨_, rfl⟩

theorem head?_longest_bind {inClass : Char → Bool} {body behind : List Char}
    {next : List Char → Pattern β} {way : β × List Char}
    (hclass : ∀ char ∈ body, inClass char = true)
    (hbehind : ∀ char ∈ behind.head?, inClass char = false)
    (hnext : (next body behind).head? = some way) :
    ((longest inClass >>= next) (body ++ behind)).head? = some way := by
  obtain ⟨shorter, hways⟩ := greedyRun_append hclass hbehind
  rw [bind_apply, longest, hways, List.flatMap_cons, List.head?_append, hnext]
  rfl

theorem head?_word_bind {inClass : Char → Bool} {body behind : List Char}
    {next : List Char → Pattern β} {way : β × List Char} (hbody : body ≠ [])
    (hclass : ∀ char ∈ body, inClass char = true)
    (hbehind : ∀ char ∈ behind.head?, inClass char = false)
    (hnext : (next body behind).head? = some way) :
    ((word inClass >>= next) (body ++ behind)).head? = some way := by
  obtain ⟨shorter, hways⟩ := greedyRun_append hclass hbehind
  rw [bind_apply, word, hways, List.filter_cons_of_pos (by simpa using hbody), List.flatMap_cons,
    List.head?_append, hnext]
  rfl

/-- A word has to start with a character of its class. -/
theorem word_bind_cons {inClass : Char → Bool} {char : Char} {text : List Char}
    (hchar : inClass char = false) (next : List Char → Pattern β) :
    (word inClass >>= next) (char :: text) = [] := by
  have hways : greedyRun inClass (char :: text) = [([], char :: text)] := by
    simp [greedyRun, hchar]
  rw [bind_apply, word, hways]
  rfl

theorem orElse_apply (first second : Pattern α) (text : List Char) :
    orElse first second text = first text ++ second text := rfl

/-- A run fails when no run of its class lets the rest match. -/
theorem shortest_bind_eq_nil {inClass : Char → Bool} {text : List Char}
    {next : List Char → Pattern β}
    (hnext : ∀ run behind, text = run ++ behind → (∀ char ∈ run, inClass char = true) →
      next run behind = []) : (shortest inClass >>= next) text = [] := by
  rw [bind_apply, List.flatMap_eq_nil_iff]
  rintro ⟨run, behind⟩ hway
  obtain ⟨htext, hclass⟩ := of_mem_lazyRun hway
  exact hnext run behind htext hclass

/-- The shortest run before a token is the text before its first occurrence. -/
theorem head?_shortest_token {inClass : Char → Bool} {first : Char}
    {rest body behind : List Char} {next : List Char → Pattern β} {way : β × List Char}
    (hfirst : first ∉ rest) (hclass : ∀ char ∈ body, inClass char = true)
    (habsent : ¬ first :: rest <:+: body) (hnext : (next body behind).head? = some way) :
    ((shortest inClass >>= fun run => literal (first :: rest) >>= fun _ => next run)
      (body ++ ((first :: rest) ++ behind))).head? = some way := by
  apply head?_shortest_bind hclass
  · rintro before after rfl hafter
    apply literal_bind_of_not_prefix
    exact not_prefix_of_append hfirst hafter fun hfound =>
      habsent (hfound.trans (List.suffix_append before after).isInfix)
  · rwa [literal_bind_append]

/-- The same before a token whose first character does not occur. -/
theorem head?_shortest_token_of_not_mem {inClass : Char → Bool} {first : Char}
    {rest body behind : List Char} {next : List Char → Pattern β} {way : β × List Char}
    (hfirst : first ∉ body) (hclass : ∀ char ∈ body, inClass char = true)
    (hnext : (next body behind).head? = some way) :
    ((shortest inClass >>= fun run => literal (first :: rest) >>= fun _ => next run)
      (body ++ ((first :: rest) ++ behind))).head? = some way := by
  apply head?_shortest_bind hclass
  · rintro before after rfl hafter
    apply literal_bind_of_not_prefix
    obtain ⟨char, after, rfl⟩ := List.exists_cons_of_ne_nil hafter
    intro hstarts
    obtain rfl := (List.cons_prefix_cons.mp hstarts).1
    exact hfirst (List.mem_append_right before List.mem_cons_self)
  · rwa [literal_bind_append]

/-! ## All matches -/

variable {pattern : Pattern α}

theorem findFrom_drop (skipped : ℕ) (text : List Char) :
    findFrom pattern skipped text = findAll pattern (text.drop skipped) := by
  induction text generalizing skipped with
  | nil => cases skipped <;> rfl
  | cons char text ih =>
      cases skipped with
      | zero => rfl
      | succ skipped => exact ih skipped

theorem findAll_of_fail {char : Char} {text : List Char} (hfail : pattern (char :: text) = []) :
    findAll pattern (char :: text) = findAll pattern text := by
  rw [findAll, findFrom, hfail]
  rfl

/-- Text in which no match starts is passed over. -/
theorem findAll_append_of_fail {skipped text : List Char}
    (hfail : ∀ before after, skipped = before ++ after → after ≠ [] → pattern
    (after ++ text) = []) :
    findAll pattern (skipped ++ text) = findAll pattern text := by
  induction skipped with
  | nil => rfl
  | cons char skipped ih =>
      have hstart : pattern (char :: (skipped ++ text)) = [] :=
        hfail [] _ rfl (List.cons_ne_nil char skipped)
      rw [List.cons_append, findAll_of_fail hstart]
      exact ih fun before after heq => hfail (char :: before) after (congrArg _ heq)

theorem findAll_of_match {matched behind : List Char} {value : α} (hmatched : matched ≠ [])
    (hmatch : (pattern (matched ++ behind)).head? = some (value, behind)) :
    findAll pattern (matched ++ behind) = value :: findAll pattern behind := by
  obtain ⟨char, matched, rfl⟩ := List.exists_cons_of_ne_nil hmatched
  rw [List.cons_append] at hmatch ⊢
  rw [findAll, findFrom, hmatch]
  simp only [findFrom_drop, List.length_append, Nat.add_sub_cancel, List.drop_left]

/-- No match starts in a gap whose characters start none. -/
theorem fail_of_gap {gap : List Char} (hgap : ∀ char ∈ gap, ∀ behind, pattern (char :: behind) = [])
    {before after : List Char} (hsplit : gap = before ++ after) (hafter : after ≠ [])
    (behind : List Char) : pattern (after ++ behind) = [] := by
  obtain ⟨char, after, rfl⟩ := List.exists_cons_of_ne_nil hafter
  exact hgap char (hsplit ▸ List.mem_append_right before List.mem_cons_self) _

/-- The matches of a text that is rendered item by item, each behind a text in
which no match starts. -/
theorem findAll_flatMap {ι : Type} {items : List ι} {lead render : ι → List Char} {capture : ι → α}
    {tail : List Char} {Follows : List Char → Prop}
    (hlead : ∀ item ∈ items, ∀ before after, lead item = before ++ after → after ≠ [] →
      ∀ behind, pattern (after ++ (render item ++ behind)) = [])
    (hfollows : ∀ item ∈ items, ∀ behind, Follows (lead item ++ (render item ++ behind)))
    (htail : Follows tail) (hrender : ∀ item ∈ items, render item ≠ [])
    (hmatch : ∀ item ∈ items, ∀ behind, Follows behind →
      (pattern (render item ++ behind)).head? = some (capture item, behind)) :
    findAll pattern (items.flatMap (fun item => lead item ++ render item) ++ tail) =
      items.map capture ++ findAll pattern tail := by
  induction items with
  | nil => rfl
  | cons item items ih =>
      obtain ⟨hskip, hleads⟩ := List.forall_mem_cons.mp hlead
      obtain ⟨-, hrests⟩ := List.forall_mem_cons.mp hfollows
      obtain ⟨hfirst, hrenders⟩ := List.forall_mem_cons.mp hrender
      obtain ⟨hhere, hmatches⟩ := List.forall_mem_cons.mp hmatch
      have hrest := ih hleads hrests hrenders hmatches
      have hbehind : Follows (items.flatMap (fun item => lead item ++ render item) ++ tail) := by
        cases items with
        | nil => exact htail
        | cons next items =>
            rw [List.flatMap_cons, List.append_assoc, List.append_assoc]
            exact hrests next List.mem_cons_self _
      rw [List.flatMap_cons, List.append_assoc, List.append_assoc,
        findAll_append_of_fail fun before after hsplit hafter => hskip before after hsplit hafter _,
        findAll_of_match hfirst (hhere _ hbehind), hrest, List.map_cons, List.cons_append]

/-- Every match is one of the ways in which the pattern matches somewhere. -/
theorem exists_of_mem_findAll {text : List Char} {value : α}
    (hvalue : value ∈ findAll pattern text) :
    ∃ start behind, (value, behind) ∈ pattern start := by
  have hfrom : ∀ skipped, value ∈ findFrom pattern skipped text →
      ∃ start behind, (value, behind) ∈ pattern start := by
    clear hvalue
    induction text with
    | nil =>
        intro skipped hvalue
        cases skipped <;> cases hvalue
    | cons char text ih =>
        intro skipped hvalue
        cases skipped with
        | succ skipped => exact ih skipped hvalue
        | zero =>
            rw [findFrom] at hvalue
            split at hvalue
            next first behind hhead =>
                rcases List.mem_cons.mp hvalue with rfl | hvalue
                · exact ⟨char :: text, behind, List.mem_of_head? hhead⟩
                · exact ih _ hvalue
            next => exact ih 0 hvalue
  exact hfrom 0 hvalue

end Pattern

end OneShotOPD
