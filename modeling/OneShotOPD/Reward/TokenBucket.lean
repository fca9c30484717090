import Mathlib.Algebra.Order.Field.Basic
import Mathlib.Algebra.Order.BigOperators.Group.Finset
import Mathlib.Tactic.Linarith
import Mathlib.Tactic.Ring

/-!
# The token bucket of the rate-limited rewards

Concurrent calls draw on one bucket that refills with time.  A request that fits the bucket
retries until the tokens are there; a larger one takes its tokens at once, leaves the balance
negative and sleeps the debt off.  The lock is never held across an await, so what a call does
between two awaits is one step at one reading of the clock.
-/

namespace OneShotOPD.TokenBucket

open Function

variable {K ι : Type} [Field K] [LinearOrder K] [IsStrictOrderedRing K] [DecidableEq ι]

/-- A rate and a capacity, both positive. -/
structure Limits (K : Type) [Field K] [LinearOrder K] where
  rateLimit : K
  maxTokens : K
  rate_pos : 0 < rateLimit
  capacity_pos : 0 < maxTokens

/-- `max_tokens or rate_limit`. -/
def maxTokensOr (rateLimit : K) : Option K → K
  | some maxTokens => if maxTokens = 0 then rateLimit else maxTokens
  | none => rateLimit

/-- The limits that `__init__` stores. -/
def Limits.create (rateLimit : K) (maxTokens : Option K) (hrate : 0 < rateLimit)
    (hcapacity : ∀ capacity ∈ maxTokens, 0 < capacity) : Limits K where
  rateLimit := rateLimit
  maxTokens := maxTokensOr rateLimit maxTokens
  rate_pos := hrate
  capacity_pos := by
    cases maxTokens with
    | none => exact hrate
    | some capacity =>
        have hpos := hcapacity capacity rfl
        rw [maxTokensOr, if_neg hpos.ne']
        exact hpos

/-- How far a call of `acquire` is.  A sleeping call may go on from the time it wakes. -/
inductive Status (K : Type)
  | idle
  | retrying (wake : K)
  | draining (wake : K)
  | returned (time : K)
  deriving DecidableEq

/-- The time from which a call that has its tokens may be back. -/
def Status.ready : Status K → Option K
  | .idle => none
  | .retrying _ => none
  | .draining wake => some wake
  | .returned time => some time

structure State (ι K : Type) where
  clock : K
  tokens : K
  lastUpdate : Option K
  status : ι → Status K

def State.initial (limits : Limits K) (clock : K) : State ι K :=
  ⟨clock, limits.maxTokens, none, fun _ => .idle⟩

/-- The balance after the refill, capped. -/
def refill (limits : Limits K) (state : State ι K) (now : K) : K :=
  min limits.maxTokens
    (state.tokens + (now - state.lastUpdate.getD now) * limits.rateLimit)

/-- The section of a request that is larger than the bucket. -/
def acquireOversize (limits : Limits K) (numTokens : K) (state : State ι K) (call : ι) (now : K) :
    State ι K :=
  let tokens := refill limits state now
  let tokensNeeded := numTokens - tokens
  let waitTime := if 0 < tokensNeeded then tokensNeeded / limits.rateLimit else 0
  ⟨now, tokens - numTokens, some now, update state.status call
    (if 0 < waitTime then .draining (now + waitTime) else .returned now)⟩

/-- One round of the loop of an ordinary request.  The time it waits is positive, so it always
sleeps before the next round. -/
def acquireStandard (limits : Limits K) (numTokens : K) (state : State ι K) (call : ι) (now : K) :
    State ι K :=
  let tokens := refill limits state now
  if numTokens ≤ tokens then
    ⟨now, tokens - numTokens, some now, update state.status call (.returned now)⟩
  else
    ⟨now, tokens, some now, update state.status call
      (.retrying (now + (numTokens - tokens) / limits.rateLimit))⟩

/-- A call runs to its next await, or to its end, when the clock shows `now`. -/
def resume (limits : Limits K) (amount : ι → K) (state : State ι K) (call : ι) (now : K) :
    Option (State ι K) :=
  if now < state.clock then none
  else
    match state.status call with
    | .idle =>
        if limits.maxTokens < amount call then
          some (acquireOversize limits (amount call) state call now)
        else some (acquireStandard limits (amount call) state call now)
    | .retrying wake =>
        if wake ≤ now then some (acquireStandard limits (amount call) state call now) else none
    | .draining wake =>
        if wake ≤ now then
          some { state with clock := now, status := update state.status call (.returned now) }
        else none
    | .returned _ => none

/-- The calls go on in the given order, at the given times. -/
def run (limits : Limits K) (amount : ι → K) (state : State ι K) :
    List (ι × K) → Option (State ι K)
  | [] => some state
  | (call, now) :: events =>
      match resume limits amount state call now with
      | some next => run limits amount next events
      | none => none

/-! ## One step -/

/-- What a step can do: a call gets its tokens, an ordinary call goes to sleep, or a call that
has its tokens is back. -/
inductive Resumed (limits : Limits K) (amount : ι → K) (state : State ι K) (call : ι) (now : K) :
    State ι K → Prop
  | admitted (status : Status K) (ready : K) (hnew : (state.status call).ready = none)
      (hready : status.ready = some ready)
      (hlater : -(refill limits state now - amount call) ≤ limits.rateLimit * (ready - now))
      (hsince : now ≤ ready)
      (hfits : amount call ≤ limits.maxTokens →
        status = .returned now ∧ 0 ≤ refill limits state now - amount call) :
      Resumed limits amount state call now ⟨now, refill limits state now - amount call, some now,
        update state.status call status⟩
  | slept (wake : K) (hnew : (state.status call).ready = none) :
      Resumed limits amount state call now
        ⟨now, refill limits state now, some now, update state.status call (.retrying wake)⟩
  | woken (wake : K) (hstatus : state.status call = .draining wake) (hwake : wake ≤ now) :
      Resumed limits amount state call now
        { state with clock := now, status := update state.status call (.returned now) }

variable {limits : Limits K} {amount : ι → K} {state next : State ι K} {call : ι} {now : K}

omit [IsStrictOrderedRing K] [DecidableEq ι] in
theorem refill_le : refill limits state now ≤ limits.maxTokens := min_le_left _ _

theorem resumed_oversize (hnew : (state.status call).ready = none)
    (hlarge : limits.maxTokens < amount call) :
    Resumed limits amount state call now
      (acquireOversize limits (amount call) state call now) := by
  have hneeded : 0 < amount call - refill limits state now := by
    have hcap := @refill_le _ _ _ _ limits state now
    linarith
  have hwait : 0 < (amount call - refill limits state now) / limits.rateLimit :=
    div_pos hneeded limits.rate_pos
  rw [acquireOversize]
  simp only [if_pos hneeded, if_pos hwait]
  refine .admitted _ (now + (amount call - refill limits state now) / limits.rateLimit) hnew rfl
    ?_ ?_ fun hfits => absurd hlarge (not_lt.mpr hfits)
  · rw [add_sub_cancel_left, mul_div_cancel₀ _ limits.rate_pos.ne', neg_sub]
  · linarith

theorem resumed_standard (hnew : (state.status call).ready = none) :
    Resumed limits amount state call now
      (acquireStandard limits (amount call) state call now) := by
  rw [acquireStandard]
  split
  next henough =>
    have hrest : 0 ≤ refill limits state now - amount call := sub_nonneg.mpr henough
    refine .admitted _ now hnew rfl ?_ le_rfl fun _ => ⟨rfl, hrest⟩
    rw [sub_self, mul_zero]
    linarith
  next => exact .slept _ hnew

theorem resumed_of_resume (hresume : resume limits amount state call now = some next) :
    state.clock ≤ now ∧ Resumed limits amount state call now next := by
  rw [resume] at hresume
  split at hresume
  next => cases hresume
  next hclock =>
    refine ⟨not_lt.mp hclock, ?_⟩
    split at hresume
    next hstatus =>
      have hnew : (state.status call).ready = none := by rw [hstatus]; rfl
      split at hresume
      next hlarge =>
        cases hresume
        exact resumed_oversize hnew hlarge
      next =>
        cases hresume
        exact resumed_standard hnew
    next wake hstatus =>
      have hnew : (state.status call).ready = none := by rw [hstatus]; rfl
      split at hresume
      next =>
        cases hresume
        exact resumed_standard hnew
      next => cases hresume
    next wake hstatus =>
      split at hresume
      next hwake =>
        cases hresume
        exact .woken wake hstatus hwake
      next => cases hresume
    next => cases hresume

end OneShotOPD.TokenBucket
