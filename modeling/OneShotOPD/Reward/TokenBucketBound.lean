import OneShotOPD.Reward.TokenBucket

/-!
# The bucket never over-admits

The balance and what has been taken stay within the capacity and what has flowed in.  A call
that leaves the balance negative comes back only when the debt has flowed in too, so the bound
holds for the calls that are back.  Without such calls the balance is never negative and no
call sleeps with its tokens, which gives the bound for every window.
-/

namespace OneShotOPD.TokenBucket

open Function

variable {K ι : Type} [Field K] [LinearOrder K] [IsStrictOrderedRing K] [DecidableEq ι]
variable {limits : Limits K} {amount : ι → K} {state next : State ι K} {call : ι}
variable {start last now : K}

/-- What has flowed in since a time, with a full bucket at that time. -/
def Limits.budget (limits : Limits K) (start now : K) : K :=
  limits.maxTokens + limits.rateLimit * (now - start)

omit [IsStrictOrderedRing K] in
theorem budget_eq_add (limits : Limits K) (start last now : K) :
    limits.budget start now = limits.budget start last + limits.rateLimit * (now - last) := by
  rw [Limits.budget, Limits.budget]
  ring

theorem budget_mono (limits : Limits K) (start : K) {first second : K} (hle : first ≤ second) :
    limits.budget start first ≤ limits.budget start second := by
  rw [budget_eq_add limits start first second]
  have hflow := mul_nonneg limits.rate_pos.le (sub_nonneg.mpr hle)
  linarith

theorem maxTokens_le_budget (hle : start ≤ now) : limits.maxTokens ≤ limits.budget start now := by
  have hflow := mul_nonneg limits.rate_pos.le (sub_nonneg.mpr hle)
  rw [Limits.budget]
  linarith

omit [IsStrictOrderedRing K] [DecidableEq ι] in
theorem refill_le_add (hlast : state.lastUpdate = some last) :
    refill limits state now ≤ state.tokens + limits.rateLimit * (now - last) := by
  refine le_trans (min_le_right _ _) (le_of_eq ?_)
  rw [hlast, Option.getD_some, mul_comm]

theorem sum_le_erase {calls : Finset ι} (hamount : 0 ≤ amount call) :
    ∑ other ∈ calls, amount other ≤ (∑ other ∈ calls.erase call, amount other) + amount call := by
  by_cases hcall : call ∈ calls
  · exact (Finset.sum_erase_add calls amount hcall).ge
  · rw [Finset.erase_eq_of_notMem hcall]
    linarith

/-! ## From the first call on -/

/-- The calls that have their tokens and may be back at a time. -/
def Status.ReadyBy (status : Status K) (time : K) : Prop :=
  ∃ ready ≤ time, status.ready = some ready

/-- What holds from the first call on. -/
structure Paced (limits : Limits K) (amount : ι → K) (start last : K) (state : State ι K) :
    Prop where
  lastUpdate : state.lastUpdate = some last
  start_le : start ≤ last
  last_le : last ≤ state.clock
  balance : ∀ calls : Finset ι, (∀ call ∈ calls, (state.status call).ready ≠ none) →
    state.tokens + ∑ call ∈ calls, amount call ≤ limits.budget start last
  ready : ∀ (calls : Finset ι) (time : K), start ≤ time →
    (∀ call ∈ calls, (state.status call).ReadyBy time) →
      ∑ call ∈ calls, amount call ≤ limits.budget start time

/-- Taking tokens or going to sleep keeps the balance within the budget. -/
theorem Paced.balance_update (hpaced : Paced limits amount start last state)
    (hamount : 0 ≤ amount call) {status : Status K} {calls : Finset ι}
    (hcalls : ∀ other ∈ calls, (update state.status call status other).ready ≠ none) :
    refill limits state now - amount call + ∑ other ∈ calls, amount other ≤
      limits.budget start now := by
  have hothers : ∀ other ∈ calls.erase call, (state.status other).ready ≠ none := by
    intro other hother
    obtain ⟨hne, hmem⟩ := Finset.mem_erase.mp hother
    have hready := hcalls other hmem
    rwa [update_of_ne hne] at hready
  have hbalance := hpaced.balance _ hothers
  have hrefill := @refill_le_add _ _ _ _ limits state last now hpaced.lastUpdate
  have hsum := @sum_le_erase _ _ _ _ _ _ amount call calls hamount
  have hbudget := budget_eq_add limits start last now
  linarith

theorem Paced.resume (hpaced : Paced limits amount start last state)
    (hamount : 0 ≤ amount call) (hclock : state.clock ≤ now)
    (hresumed : Resumed limits amount state call now next) :
    ∃ last, Paced limits amount start last next := by
  have hstart : start ≤ now := (hpaced.start_le.trans hpaced.last_le).trans hclock
  cases hresumed with
  | admitted status ready hnew hready hlater hsince hfits =>
      refine ⟨now, rfl, hstart, le_rfl, fun calls => hpaced.balance_update hamount, ?_⟩
      intro calls time htime hcalls
      by_cases hcall : call ∈ calls
      · -- The debt that this call left has flowed in when it may be back.
        have hbalance := @Paced.balance_update _ _ _ _ _ _ _ _ _ call start last now hpaced hamount
          status calls fun other hother => by
            obtain ⟨found, _, hfound⟩ := hcalls other hother
            rw [hfound]
            exact Option.some_ne_none found
        obtain ⟨found, hle, hfound⟩ := hcalls call hcall
        simp only [update_self] at hfound
        obtain rfl := Option.some.inj (hready.symm.trans hfound)
        have hmono := budget_mono limits start hle
        rw [budget_eq_add limits start now ready] at hmono
        linarith
      · refine hpaced.ready calls time htime fun other hother => ?_
        obtain ⟨found, hle, hfound⟩ := hcalls other hother
        have hne : other ≠ call := fun heq => hcall (heq ▸ hother)
        simp only [update_of_ne hne] at hfound
        exact ⟨found, hle, hfound⟩
  | slept wake hnew =>
      have hothers : ∀ calls : Finset ι, ∀ other ∈ calls,
          (update state.status call (.retrying wake) other).ready ≠ none → other ≠ call := by
        rintro calls other hother hready rfl
        rw [update_self] at hready
        exact hready rfl
      refine ⟨now, rfl, hstart, le_rfl, fun calls hcalls => ?_, ?_⟩
      · have hbalance := hpaced.balance calls fun other hother => by
          have hready := hcalls other hother
          simpa only [update_of_ne (hothers calls other hother hready)] using hready
        have hrefill := @refill_le_add _ _ _ _ limits state last now hpaced.lastUpdate
        have hbudget := budget_eq_add limits start last now
        linarith
      · intro calls time htime hcalls
        refine hpaced.ready calls time htime fun other hother => ?_
        obtain ⟨found, hle, hfound⟩ := hcalls other hother
        have hne : other ≠ call := hothers calls other hother (by
          rw [hfound]
          exact Option.some_ne_none found)
        simp only [update_of_ne hne] at hfound
        exact ⟨found, hle, hfound⟩
  | woken wake hstatus hwake =>
      have hready : ∀ other time, (update state.status call (.returned now) other).ReadyBy time →
          (state.status other).ReadyBy time := by
        rintro other time ⟨found, hle, hfound⟩
        by_cases heq : other = call
        · subst heq
          rw [update_self] at hfound
          obtain rfl := Option.some.inj hfound
          exact ⟨wake, hwake.trans hle, by rw [hstatus]; rfl⟩
        · rw [update_of_ne heq] at hfound
          exact ⟨found, hle, hfound⟩
      refine ⟨last, hpaced.lastUpdate, hpaced.start_le, hpaced.last_le.trans hclock, ?_, ?_⟩
      · intro calls hcalls
        refine hpaced.balance calls fun other hother => ?_
        obtain ⟨found, hfound⟩ := Option.ne_none_iff_exists'.mp (hcalls other hother)
        obtain ⟨old, _, hold⟩ := hready other found ⟨found, le_rfl, hfound⟩
        rw [hold]
        exact Option.some_ne_none old
      · intro calls time htime hcalls
        exact hpaced.ready calls time htime fun other hother =>
          hready other time (hcalls other hother)

theorem Paced.run {events : List (ι × K)} (hpaced : Paced limits amount start last state)
    (hamount : ∀ call, 0 < amount call) (hrun : run limits amount state events = some next) :
    ∃ last, Paced limits amount start last next := by
  induction events generalizing state last with
  | nil =>
      cases hrun
      exact ⟨last, hpaced⟩
  | cons event events ih =>
      obtain ⟨call, now⟩ := event
      rw [TokenBucket.run] at hrun
      split at hrun
      next middle hresume =>
        obtain ⟨hclock, hresumed⟩ := resumed_of_resume hresume
        obtain ⟨last, hmiddle⟩ := hpaced.resume (hamount call).le hclock hresumed
        exact ih hmiddle hrun
      next => cases hrun

/-! ## Without oversize requests -/

/-- The calls that were back in a window. -/
def Status.ReturnedIn (status : Status K) (first final : K) : Prop :=
  ∃ time, status = .returned time ∧ first ≤ time ∧ time ≤ final

/-- What holds while no request is larger than the bucket. -/
structure Windowed (limits : Limits K) (amount : ι → K) (last : K) (state : State ι K) :
    Prop where
  lastUpdate : state.lastUpdate = some last
  undrained : ∀ call wake, state.status call ≠ .draining wake
  returned_le : ∀ call time, state.status call = .returned time → time ≤ last
  balance : ∀ (calls : Finset ι) (first : K), first ≤ last →
    (∀ call ∈ calls, (state.status call).ReturnedIn first last) →
      state.tokens + ∑ call ∈ calls, amount call ≤ limits.budget first last
  window : ∀ (calls : Finset ι) (first final : K), first ≤ final →
    (∀ call ∈ calls, (state.status call).ReturnedIn first final) →
      ∑ call ∈ calls, amount call ≤ limits.budget first final

omit [DecidableEq ι] in
/-- After the refill the balance and what came back since some time are within the budget. -/
theorem Windowed.refill_add_le (hwindowed : Windowed limits amount last state)
    {calls : Finset ι} {first final : K} (hfirst : first ≤ now)
    (hcalls : ∀ call ∈ calls, (state.status call).ReturnedIn first final) :
    refill limits state now + ∑ call ∈ calls, amount call ≤ limits.budget first now := by
  by_cases hbefore : first ≤ last
  · have hbalance := hwindowed.balance calls first hbefore fun call hcall => by
      obtain ⟨time, hstatus, hsince, _⟩ := hcalls call hcall
      exact ⟨time, hstatus, hsince, hwindowed.returned_le call time hstatus⟩
    have hrefill := @refill_le_add _ _ _ _ limits state last now hwindowed.lastUpdate
    have hbudget := budget_eq_add limits first last now
    linarith
  · -- Nothing came back after the last refill.
    have hnone : calls = ∅ := by
      refine Finset.eq_empty_of_forall_notMem fun call hcall => ?_
      obtain ⟨time, hstatus, hsince, _⟩ := hcalls call hcall
      exact hbefore (hsince.trans (hwindowed.returned_le call time hstatus))
    rw [hnone, Finset.sum_empty, add_zero]
    exact refill_le.trans (maxTokens_le_budget hfirst)

omit [Field K] [IsStrictOrderedRing K] in
theorem returnedIn_of_update {status : ι → Status K} {changed : Status K} {other : ι}
    {first final : K} (hne : other ≠ call)
    (hreturned : (update status call changed other).ReturnedIn first final) :
    (status other).ReturnedIn first final := by
  rwa [update_of_ne hne] at hreturned

omit [IsStrictOrderedRing K] in
theorem Windowed.status_update (hwindowed : Windowed limits amount last state) (hlast : last ≤ now)
    {changed : Status K} (hchanged : changed = .returned now ∨ ∃ wake, changed = .retrying wake) :
    (∀ other wake, update state.status call changed other ≠ .draining wake) ∧
      ∀ other time, update state.status call changed other = .returned time → time ≤ now := by
  refine ⟨fun other wake hstatus => ?_, fun other time hstatus => ?_⟩
  · by_cases hother : other = call
    · rw [hother, update_self] at hstatus
      rcases hchanged with rfl | ⟨_, rfl⟩ <;> cases hstatus
    · rw [update_of_ne hother] at hstatus
      exact hwindowed.undrained other wake hstatus
  · by_cases hother : other = call
    · rw [hother, update_self] at hstatus
      rcases hchanged with rfl | ⟨_, rfl⟩
      · exact (Status.returned.inj hstatus).ge
      · cases hstatus
    · rw [update_of_ne hother] at hstatus
      exact (hwindowed.returned_le other time hstatus).trans hlast

theorem Windowed.resume (hwindowed : Windowed limits amount last state)
    (hpositive : 0 ≤ amount call) (hamount : amount call ≤ limits.maxTokens) (hlast : last ≤ now)
    (hresumed : Resumed limits amount state call now next) :
    Windowed limits amount now next := by
  cases hresumed with
  | admitted status ready hnew hready hlater hsince hfits =>
      obtain ⟨rfl, hrest⟩ := hfits hamount
      have hbalance : ∀ (calls : Finset ι) (first final : K), first ≤ now →
          (∀ other ∈ calls, (update state.status call (.returned now) other).ReturnedIn
            first final) →
          refill limits state now - amount call + ∑ other ∈ calls, amount other ≤
            limits.budget first now := by
        intro calls first final hfirst hcalls
        have hothers := @Windowed.refill_add_le _ _ _ _ _ limits amount state last now hwindowed
          (calls.erase call) first final hfirst fun other hother =>
            returnedIn_of_update (Finset.mem_erase.mp hother).1
              (hcalls other (Finset.mem_erase.mp hother).2)
        have hsum := @sum_le_erase _ _ _ _ _ _ amount call calls hpositive
        linarith
      obtain ⟨hundrained, hreturned⟩ := hwindowed.status_update hlast (.inl rfl)
      refine ⟨rfl, hundrained, hreturned,
        fun calls first hfirst => hbalance calls first now hfirst, ?_⟩
      · intro calls first final hfirst hcalls
        by_cases hcall : call ∈ calls
        · obtain ⟨time, hstatus, hsince, huntil⟩ := hcalls call hcall
          simp only [update_self, Status.returned.injEq] at hstatus
          subst hstatus
          have hsum := hbalance calls first final hsince hcalls
          have hmono := budget_mono limits first huntil
          linarith
        · refine hwindowed.window calls first final hfirst fun other hother => ?_
          exact returnedIn_of_update (ne_of_mem_of_not_mem hother hcall) (hcalls other hother)
  | slept wake hnew =>
      have hold : ∀ {other : ι} {first final : K},
          (update state.status call (.retrying wake) other).ReturnedIn first final →
            (state.status other).ReturnedIn first final := by
        intro other first final hreturned
        refine returnedIn_of_update ?_ hreturned
        rintro rfl
        obtain ⟨time, hstatus, _⟩ := hreturned
        rw [update_self] at hstatus
        cases hstatus
      obtain ⟨hundrained, hreturned⟩ := hwindowed.status_update hlast (.inr ⟨wake, rfl⟩)
      refine ⟨rfl, hundrained, hreturned, ?_, ?_⟩
      · intro calls first hfirst hcalls
        exact hwindowed.refill_add_le hfirst fun other hother => hold (hcalls other hother)
      · intro calls first final hfirst hcalls
        exact hwindowed.window calls first final hfirst fun other hother =>
          hold (hcalls other hother)
  | woken wake hstatus => exact absurd hstatus (hwindowed.undrained call wake)

theorem Windowed.run {events : List (ι × K)} (hwindowed : Windowed limits amount last state)
    (hlast : last ≤ state.clock) (hpositive : ∀ call, 0 < amount call)
    (hamount : ∀ call, amount call ≤ limits.maxTokens)
    (hrun : run limits amount state events = some next) :
    ∃ last, Windowed limits amount last next := by
  induction events generalizing state last with
  | nil =>
      cases hrun
      exact ⟨last, hwindowed⟩
  | cons event events ih =>
      obtain ⟨call, now⟩ := event
      rw [TokenBucket.run] at hrun
      split at hrun
      next middle hresume =>
        obtain ⟨hclock, hresumed⟩ := resumed_of_resume hresume
        have hmiddle := hwindowed.resume (hpositive call).le (hamount call) (hlast.trans hclock)
          hresumed
        refine ih hmiddle ?_ hrun
        cases hresumed with
        | admitted => exact le_rfl
        | slept => exact le_rfl
        | woken wake hstatus => exact absurd hstatus (hwindowed.undrained call wake)
      next => cases hrun

/-! ## Runs -/

/-- The bucket as the first call finds it: full, and its first refill adds nothing. -/
def State.begun (limits : Limits K) (now : K) : State ι K :=
  ⟨now, limits.maxTokens, some now, fun _ => .idle⟩

theorem run_begun {clock : K} {events : List (ι × K)}
    (hrun : run limits amount (.initial limits clock) ((call, now) :: events) = some state) :
    run limits amount (.begun limits now) ((call, now) :: events) = some state := by
  rw [run] at hrun ⊢
  split at hrun
  next middle hresume =>
    have hclock : clock ≤ now := (resumed_of_resume hresume).1
    have hbegun : resume limits amount (.begun limits now) call now = some middle := by
      have hnow : ¬ now < (State.begun limits now : State ι K).clock := lt_irrefl now
      have hfirst : ¬ now < (State.initial limits clock : State ι K).clock := not_lt.mpr hclock
      rw [← hresume, resume, resume, if_neg hnow, if_neg hfirst]
      rfl
    rw [hbegun]
    exact hrun
  next => cases hrun

omit [DecidableEq ι] in
theorem paced_begun : Paced limits amount now now (.begun limits now : State ι K) where
  lastUpdate := rfl
  start_le := le_rfl
  last_le := le_rfl
  balance := by
    intro calls hcalls
    have hnone : calls = ∅ := Finset.eq_empty_of_forall_notMem fun call hcall =>
      hcalls call hcall rfl
    rw [hnone, Finset.sum_empty, add_zero]
    exact maxTokens_le_budget le_rfl
  ready := by
    intro calls time htime hcalls
    have hnone : calls = ∅ := by
      refine Finset.eq_empty_of_forall_notMem fun call hcall => ?_
      obtain ⟨_, _, hready⟩ := hcalls call hcall
      cases hready
    rw [hnone, Finset.sum_empty]
    exact limits.capacity_pos.le.trans (maxTokens_le_budget htime)

omit [DecidableEq ι] in
theorem windowed_begun : Windowed limits amount now (.begun limits now : State ι K) where
  lastUpdate := rfl
  undrained := fun _ _ hstatus => nomatch hstatus
  returned_le := fun _ _ hstatus => nomatch hstatus
  balance := by
    intro calls first hfirst hcalls
    have hnone : calls = ∅ := by
      refine Finset.eq_empty_of_forall_notMem fun call hcall => ?_
      obtain ⟨_, hstatus, _⟩ := hcalls call hcall
      cases hstatus
    rw [hnone, Finset.sum_empty, add_zero]
    exact maxTokens_le_budget hfirst
  window := by
    intro calls first final hfirst hcalls
    have hnone : calls = ∅ := by
      refine Finset.eq_empty_of_forall_notMem fun call hcall => ?_
      obtain ⟨_, hstatus, _⟩ := hcalls call hcall
      cases hstatus
    rw [hnone, Finset.sum_empty]
    exact limits.capacity_pos.le.trans (maxTokens_le_budget hfirst)

/-- In every run the calls that are back at a time took at most the capacity and what has flowed
in since the first call; without oversize requests this holds for every window. -/
theorem never_over_admits {clock start : K} {first : ι} {events : List (ι × K)}
    (hamount : ∀ call, 0 < amount call)
    (hrun : run limits amount (.initial limits clock) ((first, start) :: events) = some state) :
    (∀ (calls : Finset ι) (time : K), start ≤ time →
      (∀ call ∈ calls, ∃ back ≤ time, state.status call = .returned back) →
        ∑ call ∈ calls, amount call ≤ limits.maxTokens + limits.rateLimit * (time - start)) ∧
    ((∀ call, amount call ≤ limits.maxTokens) →
      ∀ (calls : Finset ι) (low high : K), low ≤ high →
        (∀ call ∈ calls, ∃ back, state.status call = .returned back ∧ low ≤ back ∧ back ≤ high) →
          ∑ call ∈ calls, amount call ≤ limits.maxTokens + limits.rateLimit * (high - low)) := by
  have hbegun := run_begun hrun
  constructor
  · intro calls time htime hcalls
    obtain ⟨last, hpaced⟩ := paced_begun.run hamount hbegun
    refine hpaced.ready calls time htime fun call hcall => ?_
    obtain ⟨back, hle, hstatus⟩ := hcalls call hcall
    exact ⟨back, hle, by rw [hstatus]; rfl⟩
  · intro hfits calls low high hle hcalls
    obtain ⟨last, hwindowed⟩ := windowed_begun.run le_rfl hamount hfits hbegun
    exact hwindowed.window calls low high hle hcalls

/-- A bucket of two tokens that refills by one.  The first call takes three tokens at once and
sleeps for one, the second one waits until the debt and its own token have flowed in. -/
theorem never_over_admits_two :
    ∃ state : State ℕ ℚ,
      run ⟨1, 2, one_pos, two_pos⟩ (fun call => if call = 0 then 3 else 1)
        (.initial ⟨1, 2, one_pos, two_pos⟩ 0) [(0, 0), (1, 0), (0, 1), (1, 2)] = some state ∧
      state.status 0 = .returned 1 ∧ state.status 1 = .returned 2 ∧
      ∑ call ∈ {0, 1}, (if call = 0 then 3 else 1 : ℚ) ≤ 2 + 1 * (2 - 0) := by
  have htimes : (run ⟨1, 2, one_pos, two_pos⟩ (fun call => if call = 0 then 3 else 1)
      (.initial ⟨1, 2, one_pos, two_pos⟩ 0) [(0, 0), (1, 0), (0, 1), (1, 2)] :
        Option (State ℕ ℚ)).map (fun state => (state.status 0, state.status 1)) =
      some (.returned 1, .returned 2) := by decide +kernel
  obtain ⟨state, hrun, hstatus⟩ := Option.map_eq_some_iff.mp htimes
  obtain ⟨hfirst, hsecond⟩ := Prod.mk.inj hstatus
  refine ⟨state, hrun, hfirst, hsecond, ?_⟩
  refine (never_over_admits (fun call => ?_) hrun).1 {0, 1} 2 (by norm_num) fun call hcall => ?_
  · split_ifs <;> norm_num
  · rcases Finset.mem_insert.mp hcall with rfl | hcall
    · exact ⟨1, by norm_num, hfirst⟩
    · rw [Finset.mem_singleton.mp hcall]
      exact ⟨2, le_rfl, hsecond⟩

end OneShotOPD.TokenBucket
