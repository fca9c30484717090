import OneShotOPD.Core.Matching
import OneShotOPD.Core.PyValue

/-!
# Scoring of function calls

Predicted calls are paired with the expected ones: every expected call takes, in
order, the first prediction that matches it and is still free.  Calls in the
`xlam` style have to agree in every argument, an entry in the `BFCL` style lists
the values that it accepts.
-/

namespace OneShotOPD.FcEval

open Matching
open PyValue (pyEq same lookup_iff pyEq_symm pyEq_trans)

variable (py : PyStrings)

def normalizeValue : PyValue → PyValue
  | .str text =>
      let stripped := py.strip text
      match py.int stripped with
      | some value => .int value
      | none =>
          match py.float stripped with
          | some value => .float value
          | none =>
              if py.lower stripped = "true" ∨ py.lower stripped = "false" then
                .bool (py.lower stripped = "true")
              else .str stripped
  | value => value

/-- `call.get("name")`. -/
def callName (call : List (String × PyValue)) : PyValue :=
  (call.lookup "name").getD .none

/-- `call.get("arguments", {})`. -/
def callArguments (call : List (String × PyValue)) : PyValue :=
  (call.lookup "arguments").getD (.dict [])

def matchCallStrict (pred gt : PyValue) : Bool :=
  match pred, gt with
  | .dict pred, .dict gt =>
      if pyEq (callName pred) (callName gt) then
        match callArguments pred, callArguments gt with
        | .dict predArgs, .dict gtArgs =>
            (gtArgs.all fun expected =>
              match predArgs.lookup expected.1 with
              | some value =>
                  pyEq (normalizeValue py value) (normalizeValue py expected.2)
              | none => false) &&
            predArgs.all fun given => (gtArgs.lookup given.1).isSome
        | _, _ => false
      else false
  | _, _ => false

/-- One of the possible values of a BFCL argument accepts the predicted one. -/
def acceptsValue (predValue possible : PyValue) : Bool :=
  match possible with
  | .str "" => false
  | possible =>
      pyEq (normalizeValue py possible) (normalizeValue py predValue) ||
        match possible, predValue with
        | .seq .list possibleItems, .seq .list predItems =>
            pyEq (.seq .list (possibleItems.map (normalizeValue py)))
              (.seq .list (predItems.map (normalizeValue py)))
        | _, _ => false

/-- The possible values of one BFCL argument accept what was predicted.  The
empty string among them allows the argument to be missing. -/
def acceptsArgument (predArgs : List (String × PyValue))
    (expected : String × PyValue) : Bool :=
  match expected.2 with
  | .seq .list possibleValues =>
      if possibleValues = [] then false
      else
        match predArgs.lookup expected.1 with
        | none => possibleValues.any fun possible =>
            match possible with
            | .str "" => true
            | _ => false
        | some value => possibleValues.any (acceptsValue py value)
  | _ => false

/-- `_match_call_bfcl`.  Further arguments of the prediction are allowed. -/
def matchCallBfcl (pred gtEntry : PyValue) : Bool :=
  match pred, gtEntry with
  | .dict pred, .dict [(gtFn, .dict gtArgsSpec)] =>
      if pyEq (callName pred) (.str gtFn) then
        match callArguments pred with
        | .dict predArgs => gtArgsSpec.all (acceptsArgument py predArgs)
        | _ => false
      else false
  | _, _ => false

/-! ## Pairing -/

section Pairing

variable {α β : Type} (matchCall : α → β → Bool)

/-- The inner loop: mark the first prediction that is free and matches. -/
def takeFree (gt : β) : List α → List Bool → Option (List Bool)
  | pred :: preds, used :: rest =>
      if used then (takeFree gt preds rest).map (true :: ·)
      else if matchCall pred gt then some (true :: rest)
      else (takeFree gt preds rest).map (false :: ·)
  | _, _ => none

/-- The outer loop. -/
def pairAll (preds : List α) : List Bool → List β → Bool
  | _, [] => true
  | used, gt :: gts =>
      match takeFree matchCall gt preds used with
      | none => false
      | some used => pairAll preds used gts

/-- The common body of `_score_xlam` and `_score_bfcl`. -/
def scoreCalls (preds : List α) (gts : List β) : Bool :=
  if preds.length ≠ gts.length then false
  else pairAll matchCall preds (List.replicate preds.length false) gts

end Pairing

def scoreXlam (predCalls gtCalls : List PyObject) : Bool :=
  scoreCalls (fun pred gt => matchCallStrict py pred.val gt.val) predCalls gtCalls

def scoreBfcl (predCalls gtEntries : List PyObject) : Bool :=
  scoreCalls (fun pred gt => matchCallBfcl py pred.val gt.val) predCalls gtEntries

/-! ## The loop is a first-fit assignment -/

section Loop

variable {α β : Type} (matchCall : α → β → Bool)

/-- The predictions that are not marked. -/
def freeCalls : List α → List Bool → List α
  | pred :: preds, used :: rest =>
      if used then freeCalls preds rest else pred :: freeCalls preds rest
  | _, _ => []

theorem takeFree_spec (gt : β) {preds : List α} {used : List Bool}
    (hlength : preds.length = used.length) :
    if (freeCalls preds used).any fun pred => matchCall pred gt then
      ∃ marked, takeFree matchCall gt preds used = some marked ∧
        preds.length = marked.length ∧
        freeCalls preds marked =
          (freeCalls preds used).eraseP fun pred => matchCall pred gt
    else takeFree matchCall gt preds used = none := by
  induction preds generalizing used with
  | nil => cases used <;> simp [freeCalls, takeFree]
  | cons pred preds ih =>
      cases used with
      | nil => simp at hlength
      | cons flag used =>
          have hrest := @ih used (by simpa using hlength)
          cases flag with
          | true =>
              simp only [freeCalls, if_true, takeFree]
              split at hrest
              next hany =>
                obtain ⟨marked, htake, hmarked, hfree⟩ := hrest
                rw [if_pos hany]
                exact ⟨true :: marked, by simp [htake], by simp [hmarked],
                  by simp [freeCalls, hfree]⟩
              next hany =>
                rw [if_neg hany]
                simp [hrest]
          | false =>
              by_cases hpred : matchCall pred gt = true
              · have hlengths : preds.length = used.length := by simpa using hlength
                simp [freeCalls, takeFree, hpred, hlengths]
              · simp only [freeCalls, Bool.false_eq_true, if_false, takeFree, hpred,
                  List.any_cons, Bool.false_or]
                have herase : (pred :: freeCalls preds used).eraseP
                    (fun pred => matchCall pred gt) =
                      pred :: (freeCalls preds used).eraseP
                        fun pred => matchCall pred gt :=
                  List.eraseP_cons_of_neg hpred
                rw [herase]
                split at hrest
                next hany =>
                  obtain ⟨marked, htake, hmarked, hfree⟩ := hrest
                  rw [if_pos hany]
                  exact ⟨false :: marked, by simp [htake], by simp [hmarked],
                    by simp [freeCalls, hfree]⟩
                next hany =>
                  rw [if_neg hany]
                  simp [hrest]

theorem pairAll_eq_firstFit {preds : List α} {used : List Bool}
    (hlength : preds.length = used.length) (gts : List β) :
    pairAll matchCall preds used gts =
      firstFit matchCall (freeCalls preds used) gts := by
  induction gts generalizing used with
  | nil => rfl
  | cons gt gts ih =>
      have hspec := takeFree_spec matchCall gt hlength
      rw [firstFit]
      split at hspec
      next hany =>
        obtain ⟨marked, htake, hmarked, hfree⟩ := hspec
        rw [if_pos hany, pairAll, htake, ← hfree]
        exact ih hmarked
      next hany => rw [if_neg hany, pairAll, hspec]

theorem freeCalls_unmarked (preds : List α) :
    freeCalls preds (List.replicate preds.length false) = preds := by
  induction preds with
  | nil => rfl
  | cons pred preds ih => simp [freeCalls, List.replicate_succ, ih]

theorem scoreCalls_eq (preds : List α) (gts : List β) :
    scoreCalls matchCall preds gts =
      (decide (preds.length = gts.length) && firstFit matchCall preds gts) := by
  by_cases hlength : preds.length = gts.length
  · rw [scoreCalls, if_neg (by simp [hlength]), pairAll_eq_firstFit matchCall (by simp),
      freeCalls_unmarked]
    simp [hlength]
  · simp [scoreCalls, hlength]

end Loop

/-! ## The strict matcher is symmetric and transitive -/

section Strict

theorem normalizeValue_wellFormed {value : PyValue} (hvalue : value.WellFormed) :
    (normalizeValue py value).WellFormed := by
  cases hvalue with
  | str text =>
      simp only [normalizeValue]
      split
      · exact .int _
      · split
        · exact .float _
        · split
          · exact .bool _
          · exact .str _
  | none => exact .none
  | bool value => exact .bool value
  | int value => exact .int value
  | float value => exact .float value
  | seq hitems => exact .seq hitems
  | dict hkeys hvalues => exact .dict hkeys hvalues

/-- The value under a key of a well-formed dictionary. -/
theorem lookup_wellFormed {entries : List (String × PyValue)}
    (hentries : (PyValue.dict entries).WellFormed) {key : String} {value : PyValue}
    (hlookup : entries.lookup key = some value) : value.WellFormed := by
  cases hentries with
  | dict hkeys hvalues => exact hvalues _ ((lookup_iff hkeys key value).mp hlookup)

theorem callName_wellFormed {call : List (String × PyValue)}
    (hcall : (PyValue.dict call).WellFormed) : (callName call).WellFormed := by
  unfold callName
  cases hlookup : call.lookup "name" with
  | none => exact .none
  | some value => exact lookup_wellFormed hcall hlookup

theorem callArguments_wellFormed {call : List (String × PyValue)}
    (hcall : (PyValue.dict call).WellFormed) : (callArguments call).WellFormed := by
  unfold callArguments
  cases hlookup : call.lookup "arguments" with
  | none => exact .dict List.nodup_nil (by simp)
  | some value => exact lookup_wellFormed hcall hlookup

/-- Two calls match when their names are equal, every expected argument is given
with an equal value, and no other argument is given. -/
theorem matchCallStrict_iff (pred gt : PyValue) :
    matchCallStrict py pred gt ↔ ∃ predCall gtCall predArgs gtArgs,
      pred = .dict predCall ∧ gt = .dict gtCall ∧
      pyEq (callName predCall) (callName gtCall) ∧
      callArguments predCall = .dict predArgs ∧ callArguments gtCall = .dict gtArgs ∧
      (∀ expected ∈ gtArgs, ∃ value, predArgs.lookup expected.1 = some value ∧
        pyEq (normalizeValue py value) (normalizeValue py expected.2)) ∧
      ∀ given ∈ predArgs, (gtArgs.lookup given.1).isSome := by
  have hoption : ∀ (found : Option PyValue) (expected : PyValue),
      (match found with
        | some value => pyEq (normalizeValue py value) (normalizeValue py expected)
        | none => false) = true ↔
      ∃ value, found = some value ∧
        pyEq (normalizeValue py value) (normalizeValue py expected) := by
    intro found expected
    cases found <;> simp
  unfold matchCallStrict
  constructor
  · intro hmatch
    split at hmatch
    next predCall gtCall =>
      split at hmatch
      next hname =>
        split at hmatch
        next predArgs gtArgs hpred hgt =>
          rw [Bool.and_eq_true, List.all_eq_true, List.all_eq_true] at hmatch
          simp only [hoption] at hmatch
          exact ⟨predCall, gtCall, predArgs, gtArgs, rfl, rfl, hname, hpred, hgt,
            hmatch.1, hmatch.2⟩
        next => cases hmatch
      next => cases hmatch
    next => cases hmatch
  · rintro ⟨predCall, gtCall, predArgs, gtArgs, rfl, rfl, hname, hpred, hgt, hall, hno⟩
    simp only [hname, if_true, hpred, hgt, Bool.and_eq_true, List.all_eq_true, hoption]
    exact ⟨hall, hno⟩

theorem matchCallStrict_symm {pred gt : PyObject}
    (hmatch : matchCallStrict py pred.val gt.val) :
    matchCallStrict py gt.val pred.val := by
  obtain ⟨pred, hpredFormed⟩ := pred
  obtain ⟨gt, hgtFormed⟩ := gt
  obtain ⟨predCall, gtCall, predArgs, gtArgs, rfl, rfl, hname, hpred, hgt, hall, hno⟩ :=
    (matchCallStrict_iff py _ _).mp hmatch
  have hpredArgs := hpred ▸ callArguments_wellFormed hpredFormed
  have hgtArgs := hgt ▸ callArguments_wellFormed hgtFormed
  obtain ⟨hpredKeys, hgtKeys⟩ : (predArgs.map Prod.fst).Nodup ∧
      (gtArgs.map Prod.fst).Nodup := by
    cases hpredArgs with
    | dict hpredKeys _ =>
        cases hgtArgs with
        | dict hgtKeys _ => exact ⟨hpredKeys, hgtKeys⟩
  refine (matchCallStrict_iff py _ _).mpr ⟨gtCall, predCall, gtArgs, predArgs, rfl, rfl,
    pyEq_symm (callName_wellFormed hpredFormed) (callName_wellFormed hgtFormed) hname,
    hgt, hpred, ?_, ?_⟩
  · rintro ⟨key, value⟩ hgiven
    obtain ⟨expected, hexpected⟩ := Option.isSome_iff_exists.mp (hno _ hgiven)
    refine ⟨expected, hexpected, ?_⟩
    obtain ⟨found, hfound, hequal⟩ :=
      hall _ ((lookup_iff hgtKeys key expected).mp hexpected)
    have hlookup := (lookup_iff hpredKeys key value).mpr hgiven
    obtain rfl : found = value := Option.some.inj (hfound.symm.trans hlookup)
    exact pyEq_symm
      (normalizeValue_wellFormed py (lookup_wellFormed hpredArgs hlookup))
      (normalizeValue_wellFormed py (lookup_wellFormed hgtArgs hexpected)) hequal
  · intro expected hexpected
    obtain ⟨value, hvalue, _⟩ := hall expected hexpected
    simp [hvalue]

theorem matchCallStrict_trans {first second third : PyObject}
    (hfirst : matchCallStrict py first.val second.val)
    (hsecond : matchCallStrict py second.val third.val) :
    matchCallStrict py first.val third.val := by
  obtain ⟨first, hfirstFormed⟩ := first
  obtain ⟨second, hsecondFormed⟩ := second
  obtain ⟨third, hthirdFormed⟩ := third
  obtain ⟨firstCall, secondCall, firstArgs, secondArgs, rfl, rfl, hname, hargs, hargs2,
    hall, hno⟩ := (matchCallStrict_iff py _ _).mp hfirst
  obtain ⟨secondCall', thirdCall, secondArgs', thirdArgs, heq, rfl, hname', hargs2',
    hargs3, hall', hno'⟩ := (matchCallStrict_iff py _ _).mp hsecond
  cases heq
  obtain rfl : secondArgs = secondArgs' := by
    rw [hargs2] at hargs2'
    cases hargs2'
    rfl
  have hfirstArgs := hargs ▸ callArguments_wellFormed hfirstFormed
  have hsecondArgs := hargs2 ▸ callArguments_wellFormed hsecondFormed
  have hsecondKeys : (secondArgs.map Prod.fst).Nodup := by
    cases hsecondArgs with
    | dict hkeys _ => exact hkeys
  refine (matchCallStrict_iff py _ _).mpr ⟨firstCall, thirdCall, firstArgs, thirdArgs, rfl,
    rfl, pyEq_trans (callName_wellFormed hfirstFormed) (callName_wellFormed hsecondFormed)
      hname hname', hargs, hargs3, ?_, ?_⟩
  · intro expected hexpected
    obtain ⟨middle, hmiddle, hequal'⟩ := hall' expected hexpected
    obtain ⟨value, hvalue, hequal⟩ :=
      hall _ ((lookup_iff hsecondKeys expected.1 middle).mp hmiddle)
    exact ⟨value, hvalue, pyEq_trans
      (normalizeValue_wellFormed py (lookup_wellFormed hfirstArgs hvalue))
      (normalizeValue_wellFormed py (lookup_wellFormed hsecondArgs hmiddle))
      hequal hequal'⟩
  · intro given hgiven
    obtain ⟨middle, hmiddle⟩ := Option.isSome_iff_exists.mp (hno given hgiven)
    exact hno' (given.1, middle) ((lookup_iff hsecondKeys given.1 middle).mp hmiddle)

/-- Strict matching splits any two lists of calls into complete blocks. -/
theorem strict_blocks (predCalls gtCalls : List PyObject) :
    Blocks (fun pred gt : PyObject => matchCallStrict py pred.val gt.val) predCalls
      gtCalls := by
  intro left _ right _ first _ second _ hleftFirst hleftSecond hrightFirst
  have hback := matchCallStrict_symm py hleftFirst
  exact matchCallStrict_trans py (matchCallStrict_trans py hrightFirst hback) hleftSecond

end Strict

/-! ## Verdicts and perfect matchings -/

/-- The verdict on two lists says whether they have one length and can be matched
perfectly, and no reordering changes it. -/
def DecidesMatching {α β : Type} (score : List α → List β → Bool)
    (matchCall : α → β → Bool) (preds : List α) (gts : List β) : Prop :=
  (score preds gts = true ↔ preds.length = gts.length ∧ Matched matchCall preds gts) ∧
  ∀ others, others.Perm preds → ∀ moved, moved.Perm gts →
    score others moved = score preds gts

theorem decidesMatching_iff {α β : Type} (matchCall : α → β → Bool) (preds : List α)
    (gts : List β) :
    DecidesMatching (scoreCalls matchCall) matchCall preds gts ↔
      (Matched matchCall preds gts → Blocks matchCall preds gts) := by
  by_cases hlength : preds.length = gts.length
  · rw [← firstFit_exact_iff hlength]
    have hscore : ∀ others, others.Perm preds → ∀ moved, moved.Perm gts →
        scoreCalls matchCall others moved = firstFit matchCall others moved := by
      intro others hothers moved hmoved
      rw [scoreCalls_eq]
      simp [hothers.length_eq, hmoved.length_eq, hlength]
    constructor
    · rintro ⟨hverdict, hinvariant⟩ others hothers moved hmoved
      rw [← hscore others hothers moved hmoved, hinvariant others hothers moved hmoved,
        hverdict]
      simp [hlength]
    · intro hexact
      have hverdict := hexact preds (.refl _) gts (.refl _)
      refine ⟨?_, fun others hothers moved hmoved => ?_⟩
      · rw [hscore preds (.refl _) gts (.refl _), hverdict]
        simp [hlength]
      · rw [hscore others hothers moved hmoved, hscore preds (.refl _) gts (.refl _),
          Bool.eq_iff_iff, hexact others hothers moved hmoved, hverdict]
  · have hunmatched : ¬ Matched matchCall preds gts := fun hmatched =>
      hlength hmatched.length_eq
    have hfalse : ∀ others, others.Perm preds → ∀ moved, moved.Perm gts →
        scoreCalls matchCall others moved = false := by
      intro others hothers moved hmoved
      rw [scoreCalls_eq]
      simp [hothers.length_eq, hmoved.length_eq, hlength]
    simp only [hunmatched, false_implies, iff_true, DecidesMatching]
    refine ⟨?_, fun others hothers moved hmoved => ?_⟩
    · simp [hfalse preds (.refl _) gts (.refl _), hlength]
    · rw [hfalse others hothers moved hmoved, hfalse preds (.refl _) gts (.refl _)]

/-- The verdict on strict calls is always the existence of a perfect matching.
The verdict on BFCL entries is, exactly for the lists on which there is none or
on which entries that accept a common prediction accept the same ones. -/
theorem scores_decide_matching :
    (∀ predCalls gtCalls : List PyObject, DecidesMatching (scoreXlam py)
      (fun pred gt => matchCallStrict py pred.val gt.val) predCalls gtCalls) ∧
    ∀ predCalls gtEntries : List PyObject,
      let matchCall := fun pred gt : PyObject => matchCallBfcl py pred.val gt.val
      DecidesMatching (scoreBfcl py) matchCall predCalls gtEntries ↔
        (Matched matchCall predCalls gtEntries →
          Blocks matchCall predCalls gtEntries) :=
  ⟨fun predCalls gtCalls => (decidesMatching_iff _ predCalls gtCalls).mpr
    fun _ => strict_blocks py predCalls gtCalls,
    fun predCalls gtEntries => decidesMatching_iff _ predCalls gtEntries⟩

/-- The call `f(x=value)`. -/
def callWith (value : ℤ) : PyObject where
  val := .dict [("name", .str "f"), ("arguments", .dict [("x", .int value)])]
  property := by
    refine .dict (by simp) fun entry hentry => ?_
    rcases List.mem_pair.mp hentry with rfl | rfl
    · exact .str _
    · exact .dict (by simp) fun entry hentry => by
        obtain rfl := List.mem_singleton.mp hentry
        exact .int value

/-- The entry that accepts `f` with `x` among the values. -/
def entryWith (values : List ℤ) : PyObject where
  val := .dict [("f", .dict [("x", .seq .list (values.map .int))])]
  property := by
    refine .dict (by simp) fun entry hentry => ?_
    obtain rfl := List.mem_singleton.mp hentry
    refine .dict (by simp) fun entry hentry => ?_
    obtain rfl := List.mem_singleton.mp hentry
    refine .seq fun item hitem => ?_
    obtain ⟨value, _, rfl⟩ := List.mem_map.mp hitem
    exact .int value

/-- String methods on strings without spaces, capitals or digits. -/
def wordStrings : PyStrings where
  strip := id
  lower := id
  int := fun _ => none
  float := fun _ => none

/-- The first entry takes the only prediction that the second one accepts,
although the other way round both are served; in the other order of the entries
the verdict is positive. -/
theorem overlapping_entries_misjudged :
    Matched (fun pred gt : PyObject => matchCallBfcl wordStrings pred.val gt.val)
        [callWith 1, callWith 2] [entryWith [1, 2], entryWith [1]] ∧
      scoreBfcl wordStrings [callWith 1, callWith 2] [entryWith [1, 2], entryWith [1]] =
        false ∧
      scoreBfcl wordStrings [callWith 1, callWith 2] [entryWith [1], entryWith [1, 2]] =
        true := by
  refine ⟨⟨[callWith 2, callWith 1], .swap _ _ _, ?_⟩, by decide, by decide⟩
  exact .cons (by decide) (.cons (by decide) .nil)

end OneShotOPD.FcEval
