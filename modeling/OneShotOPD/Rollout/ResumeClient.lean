import OneShotOPD.Core.Dict
import OneShotOPD.Core.Checks
import Mathlib.Data.Int.Notation

/-!
# Resuming an aborted generation

A server may abort a generation at any token.  The client then asks again, with
the tokens so far behind the prompt and the rest of the budget, and joins what the
attempts return.  The sampling parameters are a dictionary of the caller, and every
attempt writes its budget into a copy.
-/

namespace OneShotOPD.Rollout

open Checks

variable {A ℓ ρ : Type}

/-- A sampling parameter; of the values only integers are computed with. -/
inductive ParamValue (A : Type) where
  | none
  | int (value : ℤ)
  | other (value : A)

abbrev SamplingParams (A : Type) := Dict String (ParamValue A)

/-- The dictionaries of the program, by reference. -/
structure Heap (A : Type) where
  objects : List (SamplingParams A)

namespace Heap

def read (heap : Heap A) (reference : ℕ) : SamplingParams A :=
  heap.objects.getD reference .empty

/-- `dict(params)`: the reference of a new dictionary. -/
def copy (heap : Heap A) (reference : ℕ) : Heap A × ℕ :=
  (⟨heap.objects ++ [heap.read reference]⟩, heap.objects.length)

/-- `params[key] = value`. -/
def assign (heap : Heap A) (reference : ℕ) (key : String) (value : ParamValue A) : Heap A :=
  ⟨heap.objects.modify reference fun params => params.insert key value⟩

end Heap

/-- What a server returns; the version of its weights is an extra field. -/
structure TokenOutput (ℓ ρ : Type) where
  tokenIds : List ℕ
  logProbs : Option (List ℓ)
  routedExperts : Option (List ρ)
  stopReason : Option String
  numPreempted : Option ℕ
  globalSteps : Option ℤ

structure FinalOutput (ℓ ρ : Type) where
  tokenIds : List ℕ
  logProbs : List ℓ
  routedExperts : Option (List ρ)
  stopReason : Option String
  numPreempted : ℕ
  globalSteps : Option ℤ
  minGlobalSteps : Option ℤ
  maxGlobalSteps : Option ℤ

/-- The parts of the configuration that are read.  `partialRollout` is missing where there is no
`async_training` section. -/
structure ClientConfig (A : Type) where
  rolloutResponseLength : ParamValue A
  partialRollout : Option Bool

def ClientConfig.configuredResponseLength (config : ClientConfig A) : Option ℤ :=
  match config.rolloutResponseLength with
  | .int responseLength => if 0 < responseLength then some responseLength else none
  | _ => none

structure Request (A : Type) where
  promptIds : List ℕ
  samplingParams : SamplingParams A

/-- `limit_key`, as the caller names it. -/
def limitKey (params : SamplingParams A) : Option String :=
  if (params.get? "max_tokens").isSome then some "max_tokens"
  else if (params.get? "max_new_tokens").isSome then some "max_new_tokens"
  else none

/-- `sampling_params.get(limit_key) if limit_key else None`. -/
def originalMaxTokens (params : SamplingParams A) : ParamValue A :=
  ((limitKey params).bind fun key => params.get? key).getD .none

structure ResumeState (A ℓ ρ : Type) where
  heap : Heap A
  requests : List (Request A)
  final : FinalOutput ℓ ρ

/-- `np.concatenate` of the routing so far and the rows of the new tokens. -/
def mergeRoutedExperts (final : Option (List ρ)) (output : TokenOutput ℓ ρ) : Option (List ρ) :=
  match output.routedExperts with
  | none => final
  | some rows =>
      if output.tokenIds.length > 0 then
        match final with
        | none => some rows
        | some routed => some (routed ++ rows.drop (rows.length - output.tokenIds.length))
      else final

/-- Step 2 of an attempt. -/
def FinalOutput.merge (final : FinalOutput ℓ ρ) (output : TokenOutput ℓ ρ) :
    FinalOutput ℓ ρ where
  tokenIds := final.tokenIds ++ output.tokenIds
  logProbs := final.logProbs ++ output.logProbs.getD []
  routedExperts := mergeRoutedExperts final.routedExperts output
  stopReason := output.stopReason
  numPreempted := final.numPreempted + output.numPreempted.getD 0
  globalSteps := output.globalSteps
  minGlobalSteps := final.minGlobalSteps.or output.globalSteps
  maxGlobalSteps := output.globalSteps

/-- Step 3: the budget that is left, and whether there is none. -/
def updateBudget (limitKey : String) (originalMaxTokens : ParamValue A) (params : ℕ)
    (state : ResumeState A ℓ ρ) : Except String (ResumeState A ℓ ρ × Bool) :=
  match originalMaxTokens with
  | .none => .ok (state, false)
  | .other _ => .error "TypeError: unsupported operand type(s) for -"
  | .int budget =>
      let charged := { state with
        heap := state.heap.assign params limitKey
          (.int (budget - state.final.tokenIds.length)) }
      if budget ≤ state.final.tokenIds.length then
        .ok ({ charged with final := { charged.final with stopReason := some "length" } }, true)
      else .ok (charged, false)

/-- `should_retry` and the stop reason of the last attempt. -/
def ClientConfig.stops (config : ClientConfig A) (output : TokenOutput ℓ ρ) : Bool :=
  (output.stopReason != some "aborted" && output.stopReason != some "abort") ||
    config.partialRollout == some false

/-- Step 1 of an attempt. -/
def ResumeState.send (state : ResumeState A ℓ ρ) (promptIds : List ℕ) (params : ℕ) :
    ResumeState A ℓ ρ :=
  { state with requests :=
      state.requests ++ [⟨promptIds ++ state.final.tokenIds, state.heap.read params⟩] }

/-- The loop, on what the servers return; an attempt that is not answered is waited for. -/
def attempts (config : ClientConfig A) (limitKey : String) (originalMaxTokens : ParamValue A)
    (promptIds : List ℕ) (params : ℕ) :
    List (TokenOutput ℓ ρ) → ResumeState A ℓ ρ →
      Except String (ResumeState A ℓ ρ × Option (FinalOutput ℓ ρ))
  | [], state => .ok (state.send promptIds params, none)
  | output :: outputs, state => do
      let sent := state.send promptIds params
      let merged := { sent with final := sent.final.merge output }
      let (charged, exhausted) ← updateBudget limitKey originalMaxTokens params merged
      if exhausted || config.stops output then return (charged, some charged.final)
      else attempts config limitKey originalMaxTokens promptIds params outputs charged

/-- `generate`, with the reference of the caller's dictionary. -/
def generate (config : ClientConfig A) (heap : Heap A) (samplingParams : Fin heap.objects.length)
    (promptIds : List ℕ) (outputs : List (TokenOutput ℓ ρ)) :
    Except String (ResumeState A ℓ ρ × Option (FinalOutput ℓ ρ)) :=
  let key := (limitKey (heap.read samplingParams)).getD "max_tokens"
  let original := originalMaxTokens (heap.read samplingParams)
  let (heap, params) := heap.copy samplingParams
  let start : FinalOutput ℓ ρ := ⟨[], [], none, none, 0, none, none, none⟩
  match original, config.configuredResponseLength with
  | .none, some responseLength =>
      attempts config "max_tokens" (.int responseLength) promptIds params outputs
        ⟨heap.assign params "max_tokens" (.int responseLength), [], start⟩
  | _, _ => attempts config key original promptIds params outputs ⟨heap, [], start⟩

/-! ## What is kept -/

namespace Heap

variable (heap : Heap A) (reference : ℕ)

theorem read_assign_self {reference : ℕ} (hreference : reference < heap.objects.length)
    (key : String) (value : ParamValue A) :
    (heap.assign reference key value).read reference =
      (heap.read reference).insert key value := by
  simp [read, assign, hreference]

theorem read_assign_of_ne {reference other : ℕ} (hne : other ≠ reference) (key : String)
    (value : ParamValue A) : (heap.assign reference key value).read other = heap.read other := by
  simp only [read, assign, List.getD_eq_getElem?_getD, List.getElem?_modify]
  simp only [if_neg (Ne.symm hne)]
  simp

theorem length_assign (key : String) (value : ParamValue A) :
    (heap.assign reference key value).objects.length = heap.objects.length := by
  simp [assign]

theorem read_copy_self : (heap.copy reference).1.read (heap.copy reference).2 =
    heap.read reference := by
  simp [copy, read]

theorem read_copy_of_lt {other : ℕ} (hother : other < heap.objects.length) :
    (heap.copy reference).1.read other = heap.read other := by
  simp [copy, read, List.getElem?_append_left hother, hother]

end Heap

/-- Where the budget of a call is given, and which it is. -/
inductive GivesBudget (config : ClientConfig A) (params : SamplingParams A) :
    String → ℤ → Prop
  | maxTokens {budget : ℤ} (hgiven : params.get? "max_tokens" = some (.int budget)) :
      GivesBudget config params "max_tokens" budget
  | maxNewTokens {budget : ℤ} (habsent : params.get? "max_tokens" = none)
      (hgiven : params.get? "max_new_tokens" = some (.int budget)) :
      GivesBudget config params "max_new_tokens" budget
  | pinned {budget : ℤ} (hmissing : originalMaxTokens params = .none)
      (hconfigured : config.configuredResponseLength = some budget) :
      GivesBudget config params "max_tokens" budget

def tokensOf (answered : List (TokenOutput ℓ ρ)) : List ℕ :=
  answered.flatMap TokenOutput.tokenIds

/-- An attempt behind some others ends the call: it is final, or it uses up the
budget. -/
def ClientConfig.Ends (config : ClientConfig A) (budget : ℤ) (answered : List (TokenOutput ℓ ρ))
    (output : TokenOutput ℓ ρ) : Prop :=
  config.stops output ∨ budget ≤ (tokensOf (answered ++ [output])).length

/-- The final output after some attempts. -/
def joined (answered : List (TokenOutput ℓ ρ)) : FinalOutput ℓ ρ :=
  answered.foldl FinalOutput.merge ⟨[], [], none, none, 0, none, none, none⟩

/-- The loop waits for an attempt, after those that were answered. -/
structure Resuming (heap : Heap A) (samplingParams : ℕ) (promptIds : List ℕ) (key : String)
    (budget : ℤ) (params : ℕ) (answered : List (TokenOutput ℓ ρ))
    (state : ResumeState A ℓ ρ) : Prop where
  params_lt : params < state.heap.objects.length
  params_ne : samplingParams ≠ params
  caller : state.heap.read samplingParams = heap.read samplingParams
  remaining : (state.heap.read params).get? key = some (.int (budget - (tokensOf answered).length))
  others : ∀ other, other ≠ key →
    (state.heap.read params).get? other = (heap.read samplingParams).get? other
  positive : (tokensOf answered).length < budget
  final : state.final = joined answered
  length_requests : state.requests.length = answered.length

/-- A request as it is sent behind some attempts. -/
structure SentBehind (heap : Heap A) (samplingParams : ℕ) (promptIds : List ℕ) (key : String)
    (budget : ℤ) (answered : List (TokenOutput ℓ ρ)) (request : Request A) : Prop where
  promptIds_eq : request.promptIds = promptIds ++ tokensOf answered
  remaining : request.samplingParams.get? key = some (.int (budget - (tokensOf answered).length))
  remaining_pos : 0 < budget - (tokensOf answered).length
  others : ∀ other, other ≠ key →
    request.samplingParams.get? other = (heap.read samplingParams).get? other

@[simp]
theorem tokensOf_concat (answered : List (TokenOutput ℓ ρ)) (output : TokenOutput ℓ ρ) :
    tokensOf (answered ++ [output]) = tokensOf answered ++ output.tokenIds := by
  simp [tokensOf]

theorem joined_concat (answered : List (TokenOutput ℓ ρ)) (output : TokenOutput ℓ ρ) :
    joined (answered ++ [output]) = (joined answered).merge output := by
  rw [joined, List.foldl_append]
  rfl

theorem tokenIds_joined (answered : List (TokenOutput ℓ ρ)) :
    (joined answered).tokenIds = tokensOf answered := by
  induction answered using List.reverseRecOn with
  | nil => rfl
  | append_singleton answered output ih =>
      rw [joined_concat, tokensOf_concat, ← ih]
      rfl

section Run

variable {config : ClientConfig A} {heap : Heap A} {samplingParams : ℕ} {promptIds : List ℕ}
  {key : String} {budget : ℤ} {params : ℕ} {answered : List (TokenOutput ℓ ρ)}
  {state : ResumeState A ℓ ρ}

/-- The request of a waiting loop. -/
theorem Resuming.sentBehind
    (hresuming : Resuming heap samplingParams promptIds key budget params answered state) :
    SentBehind heap samplingParams promptIds key budget answered
      ⟨promptIds ++ state.final.tokenIds, state.heap.read params⟩ where
  promptIds_eq := by rw [hresuming.final, tokenIds_joined]
  remaining := hresuming.remaining
  remaining_pos := by
    have hpositive := hresuming.positive
    omega
  others := hresuming.others

/-- The state after an attempt, with the budget charged. -/
def ResumeState.charge (state : ResumeState A ℓ ρ) (promptIds : List ℕ) (key : String)
    (budget : ℤ) (params : ℕ) (output : TokenOutput ℓ ρ) : ResumeState A ℓ ρ where
  heap := state.heap.assign params key
    (.int (budget - (state.final.merge output).tokenIds.length))
  requests := (state.send promptIds params).requests
  final := state.final.merge output

/-- An attempt ends the loop, by its tokens or by its stop reason, or the loop goes on. -/
theorem attempts_cons (output : TokenOutput ℓ ρ) (outputs : List (TokenOutput ℓ ρ)) :
    attempts config key (.int budget) promptIds params (output :: outputs) state =
      if budget ≤ (state.final.merge output).tokenIds.length then
        .ok ({ state.charge promptIds key budget params output with
            final := { state.final.merge output with stopReason := some "length" } },
          some { state.final.merge output with stopReason := some "length" })
      else if config.stops output then
        .ok (state.charge promptIds key budget params output, some (state.final.merge output))
      else attempts config key (.int budget) promptIds params outputs
        (state.charge promptIds key budget params output) := by
  rw [attempts]
  dsimp only [ResumeState.send]
  rw [updateBudget]
  by_cases hexhausted : budget ≤ (state.final.merge output).tokenIds.length
  · simp only [hexhausted, if_true]
    rfl
  · simp only [hexhausted, if_false]
    by_cases hstops : config.stops output = true
    · simp only [hstops, if_true]
      rfl
    · simp only [hstops]
      rfl

theorem Resuming.charge
    (hresuming : Resuming heap samplingParams promptIds key budget params answered state)
    {output : TokenOutput ℓ ρ}
    (hpositive : (tokensOf (answered ++ [output])).length < budget) :
    Resuming heap samplingParams promptIds key budget params (answered ++ [output])
      (state.charge promptIds key budget params output) := by
  have hfinal : state.final.merge output = joined (answered ++ [output]) := by
    rw [joined_concat, hresuming.final]
  have hread : (state.charge promptIds key budget params output).heap.read params =
      (state.heap.read params).insert key
        (.int (budget - (tokensOf (answered ++ [output])).length)) := by
    rw [ResumeState.charge, Heap.read_assign_self _ hresuming.params_lt, hfinal, tokenIds_joined]
  exact {
    params_lt := by
      rw [ResumeState.charge, Heap.length_assign]
      exact hresuming.params_lt
    params_ne := hresuming.params_ne
    caller := by
      rw [ResumeState.charge, Heap.read_assign_of_ne _ hresuming.params_ne]
      exact hresuming.caller
    remaining := by rw [hread, Dict.get?_insert_self]
    others := fun other hother => by
      rw [hread, Dict.get?_insert_of_ne _ _ hother, hresuming.others other hother]
    positive := hpositive
    final := hfinal
    length_requests := by
      simp [ResumeState.charge, ResumeState.send, hresuming.length_requests] }

/-- What a run of the loop comes to. -/
structure Resumed (config : ClientConfig A) (heap : Heap A) (samplingParams : ℕ)
    (promptIds : List ℕ) (key : String) (budget : ℤ) (before : ℕ) (outputs : List (TokenOutput ℓ ρ))
    (state : ResumeState A ℓ ρ) (result : Option (FinalOutput ℓ ρ)) : Prop where
  caller : state.heap.read samplingParams = heap.read samplingParams
  sent : ∀ k request, before ≤ k → state.requests[k]? = some request →
    SentBehind heap samplingParams promptIds key budget (outputs.take k) request
  resumed : ∀ k output, before ≤ k → k + 1 < state.requests.length → outputs[k]? = some output →
    ¬ config.Ends budget (outputs.take k) output
  returned : ∀ final, result = some final → ∃ answered output,
    outputs.take state.requests.length = answered ++ [output] ∧
      state.requests.length = answered.length + 1 ∧ config.Ends budget answered output ∧
        ∃ stopReason, final = { joined (answered ++ [output]) with stopReason := stopReason }
  waiting : result = none → state.requests.length = outputs.length + 1

theorem Resuming.length_send
    (hresuming : Resuming heap samplingParams promptIds key budget params answered state) :
    (state.send promptIds params).requests.length = answered.length + 1 := by
  simp [ResumeState.send, hresuming.length_requests]

/-- The requests of a state that has sent one more. -/
theorem Resuming.sent
    (hresuming : Resuming heap samplingParams promptIds key budget params answered state)
    {k : ℕ} {request : Request A} (hk : answered.length ≤ k)
    (hrequest : (state.send promptIds params).requests[k]? = some request)
    (outputs : List (TokenOutput ℓ ρ)) :
    SentBehind heap samplingParams promptIds key budget ((answered ++ outputs).take k) request := by
  have hlt := (List.getElem?_eq_some_iff.mp hrequest).1
  have hlength := hresuming.length_send
  obtain rfl : k = answered.length := by omega
  simp only [ResumeState.send] at hrequest
  rw [List.getElem?_append_right (Nat.le_of_eq hresuming.length_requests),
    hresuming.length_requests,
    Nat.sub_self, List.getElem?_cons_zero] at hrequest
  obtain rfl := Option.some.inj hrequest
  rw [List.take_left]
  exact hresuming.sentBehind

/-- Nothing is between the attempts before and the next one. -/
theorem not_ends_of_lt {outputs : List (TokenOutput ℓ ρ)} {requests : List (Request A)}
    (hlength : requests.length = answered.length + 1) (k : ℕ) (output : TokenOutput ℓ ρ)
    (hk : answered.length ≤ k) (hlt : k + 1 < requests.length)
    (_ : outputs[k]? = some output) : ¬ config.Ends budget (outputs.take k) output := by
  omega

/-- The loop waits for an attempt that is not answered. -/
theorem Resuming.waiting
    (hresuming : Resuming heap samplingParams promptIds key budget params answered state) :
    Resumed config heap samplingParams promptIds key budget answered.length answered
      (state.send promptIds params) none where
  caller := hresuming.caller
  sent k request hk hrequest := by simpa using hresuming.sent hk hrequest []
  resumed := not_ends_of_lt hresuming.length_send
  returned final hfinal := by cases hfinal
  waiting _ := hresuming.length_send

/-- The loop returns after an attempt that ends it. -/
theorem Resuming.ended
    (hresuming : Resuming heap samplingParams promptIds key budget params answered state)
    {output : TokenOutput ℓ ρ} {last : ResumeState A ℓ ρ}
    (hheap : last.heap = (state.charge promptIds key budget params output).heap)
    (hrequests : last.requests = (state.send promptIds params).requests)
    (hends : config.Ends budget answered output) (stopReason : Option String)
    (outputs : List (TokenOutput ℓ ρ)) :
    Resumed config heap samplingParams promptIds key budget answered.length
      (answered ++ output :: outputs) last
      (some { joined (answered ++ [output]) with stopReason := stopReason }) := by
  have hlength : last.requests.length = answered.length + 1 := by
    rw [hrequests, hresuming.length_send]
  exact {
    caller := by
      rw [hheap, ResumeState.charge, Heap.read_assign_of_ne _ hresuming.params_ne]
      exact hresuming.caller
    sent := fun k request hk hrequest => by
      rw [hrequests] at hrequest
      exact hresuming.sent hk hrequest _
    resumed := not_ends_of_lt hlength
    returned := fun final hfinal => by
      obtain rfl := Option.some.inj hfinal
      refine ⟨answered, output, ?_, hlength, hends, stopReason, rfl⟩
      rw [hlength, List.append_cons, List.take_left' (by simp)]
    waiting := fun hnone => by cases hnone }

/-- A run behind an attempt that does not end the loop is a run with it. -/
theorem Resumed.of_charge
    (hresuming : Resuming heap samplingParams promptIds key budget params answered state)
    {output : TokenOutput ℓ ρ} {outputs : List (TokenOutput ℓ ρ)} {last : ResumeState A ℓ ρ}
    {result : Option (FinalOutput ℓ ρ)} (hends : ¬ config.Ends budget answered output)
    (hextends : (state.send promptIds params).requests <+: last.requests)
    (hresumed : Resumed config heap samplingParams promptIds key budget (answered.length + 1)
      (answered ++ output :: outputs) last result) :
    Resumed config heap samplingParams promptIds key budget answered.length
      (answered ++ output :: outputs) last result where
  caller := hresumed.caller
  sent k request hk hrequest := by
    rcases Nat.lt_or_eq_of_le hk with hlt | rfl
    · exact hresumed.sent k request hlt hrequest
    · have hlength := hresuming.length_send
      obtain ⟨more, hmore⟩ := hextends
      rw [← hmore, List.getElem?_append_left (by omega)] at hrequest
      exact hresuming.sent (Nat.le_refl _) hrequest _
  resumed k other hk hlt hother := by
    rcases Nat.lt_or_eq_of_le hk with hmore | rfl
    · exact hresumed.resumed k other hmore hlt hother
    · -- The attempt that has just been answered.
      rw [List.getElem?_append_right (Nat.le_refl _), Nat.sub_self,
        List.getElem?_cons_zero] at hother
      obtain rfl := Option.some.inj hother
      rwa [List.take_left]
  returned := hresumed.returned
  waiting := hresumed.waiting

variable (config) in
theorem attempts_resumed (outputs : List (TokenOutput ℓ ρ)) :
    ∀ {answered : List (TokenOutput ℓ ρ)} {state : ResumeState A ℓ ρ},
      Resuming heap samplingParams promptIds key budget params answered state →
      ∃ last result, attempts config key (.int budget) promptIds params outputs state =
          .ok (last, result) ∧
        (state.send promptIds params).requests <+: last.requests ∧
        Resumed config heap samplingParams promptIds key budget answered.length
          (answered ++ outputs) last result := by
  induction outputs with
  | nil =>
      intro answered state hresuming
      rw [List.append_nil]
      exact ⟨state.send promptIds params, none, rfl, List.prefix_rfl, hresuming.waiting⟩
  | cons output outputs ih =>
      intro answered state hresuming
      have hfinal : state.final.merge output = joined (answered ++ [output]) := by
        rw [joined_concat, hresuming.final]
      rw [attempts_cons]
      split
      · next hexhausted =>
        rw [hfinal, tokenIds_joined] at hexhausted
        refine ⟨_, _, rfl, List.prefix_rfl, ?_⟩
        rw [hfinal]
        refine hresuming.ended ?_ ?_ (.inr hexhausted) (some "length") outputs
        · rfl
        · rfl
      · next hbudget =>
        rw [hfinal, tokenIds_joined] at hbudget
        split
        · next hstops =>
          refine ⟨_, _, rfl, List.prefix_rfl, ?_⟩
          rw [hfinal]
          exact hresuming.ended rfl rfl (.inl hstops) _ outputs
        · next hstops =>
          obtain ⟨last, result, hrun, hrequests, hresumed⟩ :=
            ih (hresuming.charge (Int.not_le.mp hbudget))
          rw [List.append_assoc, List.singleton_append, List.length_append,
            List.length_singleton] at hresumed
          have hextends : (state.send promptIds params).requests <+: last.requests :=
            (List.prefix_append _ _).trans hrequests
          have hends : ¬ config.Ends budget answered output := by
            rw [ClientConfig.Ends, not_or]
            exact ⟨hstops, hbudget⟩
          exact ⟨last, result, hrun, hextends, .of_charge hresuming hends hextends hresumed⟩

end Run

/-! ## What the attempts come to -/

theorem logProbs_joined (answered : List (TokenOutput ℓ ρ)) :
    (joined answered).logProbs = answered.flatMap fun output => output.logProbs.getD [] := by
  induction answered using List.reverseRecOn with
  | nil => rfl
  | append_singleton answered output ih =>
      rw [joined_concat, List.flatMap_append, ← ih]
      simp [FinalOutput.merge]

theorem minGlobalSteps_joined (answered : List (TokenOutput ℓ ρ)) :
    (joined answered).minGlobalSteps = (answered.filterMap TokenOutput.globalSteps).head? := by
  induction answered using List.reverseRecOn with
  | nil => rfl
  | append_singleton answered output ih =>
      rw [joined_concat, FinalOutput.merge, ih, List.filterMap_append]
      cases answered.filterMap TokenOutput.globalSteps with
      | nil => cases hsteps : output.globalSteps <;> simp [hsteps]
      | cons steps rest => simp

theorem maxGlobalSteps_joined (answered : List (TokenOutput ℓ ρ)) :
    (joined answered).maxGlobalSteps = answered.getLast?.bind TokenOutput.globalSteps := by
  induction answered using List.reverseRecOn with
  | nil => rfl
  | append_singleton answered output _ =>
      rw [joined_concat]
      simp [FinalOutput.merge]

/-- Every attempt with tokens has a row for each position of its input and output, or, for all
attempts alike, for each but the last one. -/
def RowsPerPosition (promptIds : List ℕ) (dropsLast : Bool) (answered : List (TokenOutput ℓ ρ)) :
    Prop :=
  ∀ before output after, answered = before ++ output :: after → output.tokenIds ≠ [] →
    ∃ rows, output.routedExperts = some rows ∧
      rows.length = promptIds.length + (tokensOf (before ++ [output])).length -
        dropsLast.toNat

/-- One row for every position of the prompt and the tokens, each from an attempt that has it for
this position. -/
structure CoversOnce (promptIds : List ℕ) (dropsLast : Bool) (answered : List (TokenOutput ℓ ρ))
    (rows : List ρ) : Prop where
  length_eq : rows.length = promptIds.length + (tokensOf answered).length - dropsLast.toNat
  own_row : ∀ (position : ℕ) (row : ρ), rows[position]? = some row →
    ∃ output ∈ answered, ∃ own : List ρ,
      output.routedExperts = some own ∧ own[position]? = some row

theorem routedExperts_joined {promptIds : List ℕ} {dropsLast : Bool}
    {answered : List (TokenOutput ℓ ρ)}
    (hrows : RowsPerPosition promptIds dropsLast answered) :
    if tokensOf answered = [] then (joined answered).routedExperts = none
    else ∃ rows, (joined answered).routedExperts = some rows ∧
      CoversOnce promptIds dropsLast answered rows := by
  induction answered using List.reverseRecOn with
  | nil => rfl
  | append_singleton answered output ih =>
      have hbefore := ih fun before other after heq hother =>
        hrows before other (after ++ [output]) (by rw [heq]; simp) hother
      rw [joined_concat]
      by_cases htokens : output.tokenIds = []
      · have hsame : mergeRoutedExperts (joined answered).routedExperts output =
            (joined answered).routedExperts := by
          rw [mergeRoutedExperts]
          cases output.routedExperts <;> simp [htokens]
        simp only [FinalOutput.merge, hsame, tokensOf_concat, htokens, List.append_nil]
        split at hbefore
        · next hempty => simpa [hempty] using hbefore
        · next hempty =>
            rw [if_neg hempty]
            obtain ⟨rows, hrouted, hlength, hcover⟩ := hbefore
            refine ⟨rows, hrouted, ?_, fun position row hrow => ?_⟩
            · rw [hlength, tokensOf_concat, htokens, List.append_nil]
            · obtain ⟨other, hother, hown⟩ := hcover position row hrow
              exact ⟨other, List.mem_append_left _ hother, hown⟩
      · obtain ⟨own, hown, hownLength⟩ := hrows answered output [] rfl htokens
        have hpos : 0 < output.tokenIds.length := List.length_pos_iff.mpr htokens
        have hself : ∀ (position : ℕ) (row : ρ), own[position]? = some row →
            ∃ other ∈ answered ++ [output], ∃ rows : List ρ,
              other.routedExperts = some rows ∧ rows[position]? = some row :=
          fun position row hrow => ⟨output, by simp, own, hown, hrow⟩
        rw [if_neg (by simp [htokens])]
        split at hbefore
        · next hempty =>
            refine ⟨own, ?_, hownLength, hself⟩
            simp [FinalOutput.merge, mergeRoutedExperts, hown, hbefore, hpos]
        · next hempty =>
            obtain ⟨rows, hrouted, hlength, hcover⟩ := hbefore
            have htokensPos : 0 < (tokensOf answered).length := List.length_pos_iff.mpr hempty
            have hdrops := Bool.toNat_le dropsLast
            rw [tokensOf_concat, List.length_append] at hownLength
            have hstart : own.length - output.tokenIds.length = rows.length := by omega
            refine ⟨rows ++ own.drop rows.length, ?_, ?_, fun position row hrow => ?_⟩
            · simp [FinalOutput.merge, mergeRoutedExperts, hown, hrouted, hpos, hstart]
            · rw [List.length_append, List.length_drop, tokensOf_concat, List.length_append]
              omega
            · rcases Nat.lt_or_ge position rows.length with hlt | hge
              · rw [List.getElem?_append_left hlt] at hrow
                obtain ⟨other, hother, hown⟩ := hcover position row hrow
                exact ⟨other, List.mem_append_left _ hother, hown⟩
              · rw [List.getElem?_append_right hge, List.getElem?_drop,
                  Nat.add_sub_cancel' hge] at hrow
                exact hself position row hrow

/-! ## The call -/

/-- Every attempt returns at most the budget that it was given. -/
def WithinBudget (key : String) (requests : List (Request A)) (outputs : List (TokenOutput ℓ ρ)) :
    Prop :=
  ∀ (k : ℕ) (request : Request A) (output : TokenOutput ℓ ρ) (remaining : ℤ),
    requests[k]? = some request → outputs[k]? = some output →
    request.samplingParams.get? key = some (.int remaining) →
      (output.tokenIds.length : ℤ) ≤ remaining

theorem resuming_copy {heap : Heap A} (samplingParams : Fin heap.objects.length)
    (promptIds : List ℕ) {key : String} {budget : ℤ} (hpos : 0 < budget)
    (hgiven : (heap.read samplingParams).get? key = some (.int budget)) :
    Resuming heap samplingParams promptIds key budget (heap.copy samplingParams).2 []
      (⟨(heap.copy samplingParams).1, [], joined []⟩ : ResumeState A ℓ ρ) where
  params_lt := by simp [Heap.copy]
  params_ne := Nat.ne_of_lt samplingParams.isLt
  caller := Heap.read_copy_of_lt heap _ samplingParams.isLt
  remaining := by
    rw [Heap.read_copy_self, hgiven]
    simp [tokensOf]
  others other _ := by rw [Heap.read_copy_self]
  positive := by simpa [tokensOf] using hpos
  final := rfl
  length_requests := rfl

theorem resuming_pinned {heap : Heap A} (samplingParams : Fin heap.objects.length)
    (promptIds : List ℕ) {key : String} {budget : ℤ} (hpos : 0 < budget) :
    Resuming heap samplingParams promptIds key budget (heap.copy samplingParams).2 []
      (⟨(heap.copy samplingParams).1.assign (heap.copy samplingParams).2 key (.int budget), [],
        joined []⟩ : ResumeState A ℓ ρ) := by
  have hlt : (heap.copy samplingParams).2 < (heap.copy samplingParams).1.objects.length := by
    simp [Heap.copy]
  have hne : (samplingParams : ℕ) ≠ (heap.copy samplingParams).2 :=
    Nat.ne_of_lt samplingParams.isLt
  exact {
    params_lt := by rwa [Heap.length_assign]
    params_ne := hne
    caller := by
      rw [Heap.read_assign_of_ne _ hne]
      exact Heap.read_copy_of_lt heap _ samplingParams.isLt
    remaining := by
      rw [Heap.read_assign_self _ hlt, Dict.get?_insert_self]
      simp [tokensOf]
    others := fun other hother => by
      rw [Heap.read_assign_self _ hlt, Dict.get?_insert_of_ne _ _ hother, Heap.read_copy_self]
    positive := by simpa [tokensOf] using hpos
    final := rfl
    length_requests := rfl }

/-- Every way to give the budget starts the loop with it. -/
theorem generate_eq_attempts {config : ClientConfig A} {heap : Heap A}
    (samplingParams : Fin heap.objects.length) (promptIds : List ℕ)
    (outputs : List (TokenOutput ℓ ρ)) {key : String} {budget : ℤ}
    (hbudget : GivesBudget config (heap.read samplingParams) key budget) (hpos : 0 < budget) :
    ∃ params start, generate config heap samplingParams promptIds outputs =
        attempts config key (.int budget) promptIds params outputs start ∧
      Resuming heap samplingParams promptIds key budget params [] start := by
  cases hbudget with
  | maxTokens hgiven =>
      refine ⟨_, _, ?_, resuming_copy samplingParams promptIds hpos hgiven⟩
      simp only [generate, originalMaxTokens, limitKey, hgiven, Option.isSome_some, if_true,
        Option.bind_some, Option.getD_some]
      rfl
  | maxNewTokens habsent hgiven =>
      refine ⟨_, _, ?_, resuming_copy samplingParams promptIds hpos hgiven⟩
      simp only [generate, originalMaxTokens, limitKey, habsent, hgiven, Option.isSome_none,
        Bool.false_eq_true, if_false, Option.isSome_some, if_true, Option.bind_some,
        Option.getD_some]
      rfl
  | pinned hmissing hconfigured =>
      refine ⟨_, _, ?_, resuming_pinned samplingParams promptIds hpos⟩
      simp only [generate, hmissing, hconfigured]
      rfl

/-- Attempts within their budgets return no more than the budget altogether. -/
theorem tokensOf_le_budget {heap : Heap A} {samplingParams : ℕ} {promptIds : List ℕ}
    {key : String} {budget : ℤ} {requests : List (Request A)} {outputs : List (TokenOutput ℓ ρ)}
    (hsent : ∀ k request, requests[k]? = some request →
      SentBehind heap samplingParams promptIds key budget (outputs.take k) request)
    (hle : requests.length ≤ outputs.length) (hwithin : WithinBudget key requests outputs)
    (hpos : 0 ≤ budget) : ((tokensOf (outputs.take requests.length)).length : ℤ) ≤ budget := by
  cases hlength : requests.length with
  | zero => simpa [tokensOf] using hpos
  | succ last =>
      have hlast : last < requests.length := by omega
      have houtput : last < outputs.length := by omega
      have hlastSent := hsent last _ (List.getElem?_eq_getElem hlast)
      have hreturned := hwithin last _ _ _ (List.getElem?_eq_getElem hlast)
        (List.getElem?_eq_getElem houtput) hlastSent.remaining
      rw [List.take_add_one, List.getElem?_eq_getElem houtput, Option.toList_some,
        tokensOf_concat, List.length_append]
      omega

/-- An aborted generation is resumed without the caller noticing.  Whatever the servers answer,
attempt `k` is sent the prompt with all tokens so far and what is left of the budget, which is
positive; each attempt that is neither final nor uses up the budget is followed by another one;
and what is returned, after the first one that is, joins the answers. -/
theorem generate_resumes (config : ClientConfig A) (heap : Heap A)
    (samplingParams : Fin heap.objects.length) (promptIds : List ℕ)
    (outputs : List (TokenOutput ℓ ρ)) {key : String} {budget : ℤ}
    (hbudget : GivesBudget config (heap.read samplingParams) key budget) (hpos : 0 < budget) :
    ∃ state result, generate config heap samplingParams promptIds outputs = .ok (state, result) ∧
      state.requests ≠ [] ∧
      state.heap.read samplingParams = heap.read samplingParams ∧
      (∀ k request, state.requests[k]? = some request →
        SentBehind heap samplingParams promptIds key budget (outputs.take k) request) ∧
      (∀ k output, k + 1 < state.requests.length → outputs[k]? = some output →
        ¬ config.Ends budget (outputs.take k) output) ∧
      (result = none → state.requests.length = outputs.length + 1) ∧
      ((∃ output ∈ outputs, config.stops output) → result.isSome) ∧
      ∀ final, result = some final → ∃ answered last,
        answered ++ [last] = outputs.take state.requests.length ∧
        answered.length + 1 = state.requests.length ∧
        config.Ends budget answered last ∧
        final.tokenIds = tokensOf (answered ++ [last]) ∧
        (WithinBudget key state.requests outputs → (final.tokenIds.length : ℤ) ≤ budget) ∧
        final.logProbs = (answered ++ [last]).flatMap (fun output => output.logProbs.getD []) ∧
        ((∀ output ∈ answered ++ [last], ∃ logProbs, output.logProbs = some logProbs ∧
            logProbs.length = output.tokenIds.length) →
          final.logProbs.length = final.tokenIds.length) ∧
        (∀ dropsLast, RowsPerPosition promptIds dropsLast (answered ++ [last]) →
          final.tokenIds ≠ [] → ∃ rows, final.routedExperts = some rows ∧
            CoversOnce promptIds dropsLast (answered ++ [last]) rows) ∧
        final.minGlobalSteps =
          ((answered ++ [last]).filterMap TokenOutput.globalSteps).head? ∧
        final.maxGlobalSteps = last.globalSteps := by
  obtain ⟨params, start, hgenerate, hresuming⟩ :=
    generate_eq_attempts samplingParams promptIds outputs hbudget hpos
  obtain ⟨state, result, hrun, hextends, hresumed⟩ :=
    attempts_resumed config outputs hresuming
  simp only [List.nil_append, List.length_nil] at hresumed
  have hsent : ∀ k request, state.requests[k]? = some request →
      SentBehind heap samplingParams promptIds key budget (outputs.take k) request :=
    fun k request hrequest => hresumed.sent k request (Nat.zero_le _) hrequest
  have hgoes : ∀ k output, k + 1 < state.requests.length → outputs[k]? = some output →
      ¬ config.Ends budget (outputs.take k) output :=
    fun k output hlt houtput => hresumed.resumed k output (Nat.zero_le _) hlt houtput
  refine ⟨state, result, hgenerate.trans hrun, ?_, hresumed.caller, hsent, hgoes,
    hresumed.waiting, ?_, ?_⟩
  · have hasked : (start.send promptIds params).requests ≠ [] :=
      List.append_ne_nil_of_right_ne_nil _ (List.cons_ne_nil _ _)
    exact hextends.ne_nil hasked
  · rintro ⟨output, houtput, hstops⟩
    cases result with
    | some final => rfl
    | none =>
        obtain ⟨k, hk, rfl⟩ := List.getElem_of_mem houtput
        have hlength := hresumed.waiting rfl
        exact absurd (.inl hstops) (hgoes k _ (by omega) (List.getElem?_eq_getElem hk))
  · intro final hfinal
    obtain ⟨answered, last, htake, hlength, hends, stopReason, rfl⟩ :=
      hresumed.returned final hfinal
    refine ⟨answered, last, htake.symm, hlength.symm, hends, tokenIds_joined _, ?_,
      logProbs_joined _, ?_, ?_, minGlobalSteps_joined _, ?_⟩
    · intro hwithin
      change ((joined _).tokenIds.length : ℤ) ≤ budget
      have hle : state.requests.length ≤ outputs.length := by
        have hsame := congrArg List.length htake
        rw [List.length_take, List.length_append, List.length_singleton] at hsame
        omega
      rw [tokenIds_joined, ← htake]
      exact tokensOf_le_budget hsent hle hwithin (Int.le_of_lt hpos)
    · intro hlogProbs
      change (joined _).logProbs.length = (joined _).tokenIds.length
      rw [logProbs_joined, tokenIds_joined, tokensOf, List.length_flatMap, List.length_flatMap]
      congr 1
      refine List.map_congr_left fun output houtput => ?_
      obtain ⟨logProbs, hsome, hsame⟩ := hlogProbs output houtput
      rw [hsome]
      exact hsame
    · intro dropsLast hrows hne
      have hcover := routedExperts_joined hrows
      rw [if_neg fun hempty => hne ((tokenIds_joined _).trans hempty)] at hcover
      exact hcover
    · exact (maxGlobalSteps_joined _).trans (by simp)

/-! ## A weight update between two attempts -/

def fourTokens : Heap Unit := ⟨[Dict.empty.insert "max_tokens" (.int 4)]⟩

def plainConfig : ClientConfig Unit := ⟨.none, none⟩

/-- Every row names its position.  The first attempt has the row of its last position and no
version, the second one has a version and not the row. -/
def interrupted : List (TokenOutput ℕ ℕ) :=
  [⟨[11], some [0], some [0, 1], some "aborted", none, none⟩,
    ⟨[12], some [0], some [0, 1], some "completed", none, some 3⟩]

/-- A position is covered twice, and the version of the first attempt is not reported. -/
theorem interrupted_rows :
    ∃ state final, generate plainConfig fourTokens ⟨0, by decide⟩ [10] interrupted =
        .ok (state, some final) ∧
      final.tokenIds = [11, 12] ∧ final.routedExperts = some [0, 1, 1] ∧
      final.minGlobalSteps = some 3 ∧ interrupted.map TokenOutput.globalSteps = [none, some 3] :=
  ⟨_, _, rfl, rfl, rfl, rfl, rfl⟩

/-- The interrupted generation returns, within its budget. -/
theorem interrupted_resumes :
    ∃ state final, generate plainConfig fourTokens ⟨0, by decide⟩ [10] interrupted =
        .ok (state, some final) ∧
      state.heap.read 0 = fourTokens.read 0 ∧
      (WithinBudget "max_tokens" state.requests interrupted → (final.tokenIds.length : ℤ) ≤ 4) := by
  obtain ⟨state, result, hgenerate, -, hcaller, -, -, -, hreturns, hreturned⟩ :=
    @generate_resumes Unit ℕ ℕ plainConfig fourTokens ⟨0, by decide⟩ [10] interrupted
      "max_tokens" 4 (.maxTokens rfl) (by decide)
  obtain ⟨final, rfl⟩ := Option.isSome_iff_exists.mp
    (hreturns ⟨_, List.mem_cons_of_mem _ List.mem_cons_self, rfl⟩)
  obtain ⟨answered, last, -, -, -, -, hwithin, -⟩ := hreturned final rfl
  exact ⟨state, final, hgenerate, hcaller, hwithin⟩

end OneShotOPD.Rollout
