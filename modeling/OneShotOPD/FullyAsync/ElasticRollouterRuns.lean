import OneShotOPD.FullyAsync.ElasticRollouter
import OneShotOPD.FullyAsync.ServerManagerRuns

/-!
# The capacity wait

The wait starves if the pool of replicas is empty and no task is left that could end it.
No other coroutine runs any more then, also none that would add a replica.  It comes to
this only in two of the steps of the processor: when it takes a sample, and when the last
task of a full pool has ended.
-/

namespace OneShotOPD.FullyAsync.ElasticState

open Rollouter

variable {RequestId Replica Handle Sample : Type} [DecidableEq Replica]
variable {config : ElasticConfig} {deployment : Deployment Replica Handle}
variable {state next : ElasticState RequestId Replica Handle Sample}
variable {event : ElasticEvent Sample}

/-- The processor waits for capacity, with no task and no capacity. -/
def Starved (state : ElasticState RequestId Replica Handle Sample) : Prop :=
  state.InCapacityWait ∧ state.rollouter.activeTasks = [] ∧
    state.rollouter.maxConcurrentSamples = 0

/-- There is capacity where the processor takes a sample without any task, and where the
last task of the capacity wait ends. -/
def KeepsCapacity (state : ElasticState RequestId Replica Handle Sample) :
    ElasticEvent Sample → Prop
  | .rollouter .take _ => state.rollouter.activeTasks = [] →
      (∃ sample, state.rollouter.pendingQueue.head? = some (some sample)) →
        0 < state.rollouter.maxConcurrentSamples
  | .rollouter .reap remaining => state.InCapacityWait → remaining = [] →
      0 < state.rollouter.maxConcurrentSamples
  | _ => True

/-! ## What the steps of the rollouter do to the wait -/

/-- A step leaves the wait alone, ends it or goes through it. -/
inductive WaitStep (state : State Sample) : Event → State Sample → Prop
  | alone {event : Event} {next : State Sample} (hprocessor : next.processor = state.processor)
      (hactive : next.activeTasks = [] ↔ state.activeTasks = []) : WaitStep state event next
  | outside {event : Event} {next : State Sample}
      (hbefore : ∀ sample, state.processor = .throttled sample false → event = .pass)
      (hprocessor : ∀ sample locked, next.processor ≠ .throttled sample locked) :
      WaitStep state event next
  | take {sample : Sample} {next : State Sample}
      (hbefore : state.processor = .taking)
      (hpending : state.pendingQueue.head? = some (some sample))
      (hprocessor : next.processor = .throttled sample false)
      (hactive : next.activeTasks = state.activeTasks) : WaitStep state .take next
  | acquire {sample : Sample} {next : State Sample}
      (hbefore : state.processor = .throttled sample false)
      (hprocessor : next.processor = .throttled sample true)
      (hactive : next.activeTasks = state.activeTasks) (htasks : state.activeTasks ≠ []) :
      WaitStep state .acquire next
  | reap {sample : Sample} {next : State Sample}
      (hbefore : state.processor = .throttled sample true)
      (hprocessor : next.processor = .throttled sample false) : WaitStep state .reap next

theorem waitStep {config : Config} {state next : State Sample} {event : Event}
    (hstep : Rollouter.Step config state event next) (hscale : event ≠ .rescale) :
    WaitStep state event next ∧ next.maxConcurrentSamples = state.maxConcurrentSamples := by
  cases hstep with
  | rescale hmax => exact absurd rfl hscale
  | feed sample hfed hroom | endFeed hfed hroom | get hqueue | resetStaleness hlock
  | answerQueueSize hreset | writeStaleness hreset | monitor hlock =>
      exact ⟨.alone rfl Iff.rfl, rfl⟩
  | put hactive => exact ⟨.alone rfl (by simp [hactive]), rfl⟩
  | loop hprocessor | decide hprocessor | pass hprocessor hroom =>
      refine ⟨.outside (by simp [hprocessor]) fun sample locked => ?_, rfl⟩
      dsimp only
      split <;> simp
  | answerStatistics hprocessor | pause hprocessor hlock | resume hprocessor hresume
  | unpark hprocessor hresume | submit hprocessor hlock | finish hprocessor hactive
  | acquireFinishing hprocessor hactive hlock | reapFinishing hprocessor hreaps
  | close hprocessor hfed =>
      exact ⟨.outside (by simp [hprocessor]) fun sample locked => by simp, rfl⟩
  | drain hprocessor hlock hreaps =>
      exact ⟨.outside (by simp [hprocessor]) fun sample locked => by simp [hprocessor], rfl⟩
  | acquireThrottled hprocessor hactive hlock =>
      exact ⟨.acquire hprocessor rfl rfl hactive, rfl⟩
  | reapThrottled hprocessor hreaps => exact ⟨.reap hprocessor rfl, rfl⟩
  | @take entry rest hprocessor hpending =>
      refine ⟨?_, rfl⟩
      cases entry with
      | none =>
          exact .outside (by simp [hprocessor]) fun sample locked => by
            simp [Processor.ofTaken]
      | some sample => exact .take hprocessor (by rw [hpending]; rfl) rfl rfl

/-- Calls to the manager leave the coroutines where they are. -/
theorem scale_eq (config : ElasticConfig) (deployment : Deployment Replica Handle)
    (state : ElasticState RequestId Replica Handle Sample) (call : ServerManager.Call) :
    (state.scale config deployment call).rollouter.processor = state.rollouter.processor ∧
      (state.scale config deployment call).rollouter.activeTasks =
        state.rollouter.activeTasks ∧
      (state.scale config deployment call).awaitsLock = state.awaitsLock := by
  cases call <;> simp only [scale, scaled] <;> split <;> exact ⟨rfl, rfl, rfl⟩

/-! ## Runs -/

/-- Where the processor waits for the lock or for a task, there is a task. -/
structure Attended (state : ElasticState RequestId Replica Handle Sample) : Prop where
  notStarved : ¬ state.Starved
  waiting : ∀ sample, state.rollouter.processor = .throttled sample true →
    state.rollouter.activeTasks ≠ []
  awaiting : state.awaitsLock = true → state.rollouter.activeTasks ≠ [] ∧
    ∃ sample, state.rollouter.processor = .throttled sample false

omit [DecidableEq Replica] in
/-- No other coroutine runs with an empty set of tasks while the processor is in the loop. -/
theorem Attended.activeTasks_ne_nil (hattended : Attended state) (hsuspended : state.Suspended)
    (hwait : state.InCapacityWait) : state.rollouter.activeTasks ≠ [] := by
  obtain ⟨sample, locked, hprocessor⟩ := hwait
  cases locked with
  | true => exact hattended.waiting sample hprocessor
  | false => exact (hattended.awaiting (hsuspended sample hprocessor)).1

omit [DecidableEq Replica] in
theorem Attended.not_full_empty (hattended : Attended state) {sample : Sample}
    (hprocessor : state.rollouter.processor = .throttled sample false) (hfull : state.Full) :
    state.rollouter.activeTasks ≠ [] := by
  intro hactive
  rw [Full, hactive, List.length_nil, Nat.le_zero] at hfull
  exact hattended.notStarved ⟨⟨sample, false, hprocessor⟩, hactive, hfull⟩

theorem Attended.step (hattended : Attended state) (hkeeps : state.KeepsCapacity event)
    (hstep : Step config deployment state event next) : Attended next := by
  cases hstep with
  | @rollouter event next hsuspended hscale hprocessor hstep =>
      obtain ⟨hwait, hmax⟩ := waitStep hstep hscale
      cases hwait with
      | alone hsame hactive =>
          refine ⟨?_, fun sample => ?_, fun hawaits => ?_⟩
          · rintro ⟨hin, hempty, hzero⟩
            refine hattended.notStarved ⟨?_, hactive.mp hempty, hmax ▸ hzero⟩
            simpa only [InCapacityWait, hsame] using hin
          · rw [hsame, ne_eq, hactive]
            exact hattended.waiting sample
          · rw [hsame, ne_eq, hactive]
            exact hattended.awaiting hawaits
      | outside hbefore hout =>
          refine ⟨?_, fun sample heq => absurd heq (hout sample true), fun hawaits => ?_⟩
          · rintro ⟨⟨sample, locked, hin⟩, _⟩
            exact hout sample locked hin
          · obtain ⟨_, sample, hthrottled⟩ := hattended.awaiting hawaits
            exact absurd (hbefore sample hthrottled) (hprocessor sample hthrottled).1
      | take hbefore hpending hthrottled hactive =>
          refine ⟨?_, fun sample heq => ?_, fun hawaits => ?_⟩
          · rintro ⟨_, hempty, hzero⟩
            have hpos := hkeeps (hactive ▸ hempty) ⟨_, hpending⟩
            exact absurd (hmax ▸ hzero) hpos.ne'
          · rw [hthrottled] at heq
            simp at heq
          · obtain ⟨_, sample, heq⟩ := hattended.awaiting hawaits
            simp [hbefore] at heq
      | acquire hbefore => exact absurd rfl (hprocessor _ hbefore).2
      | reap hbefore hthrottled =>
          refine ⟨?_, fun sample heq => ?_, fun hawaits => ?_⟩
          · rintro ⟨_, hempty, hzero⟩
            have hpos := hkeeps ⟨_, _, hbefore⟩ hempty
            exact absurd (hmax ▸ hzero) hpos.ne'
          · rw [hthrottled] at heq
            simp at heq
          · obtain ⟨_, sample, heq⟩ := hattended.awaiting hawaits
            simp [hbefore] at heq
  | pass hrunning hstep =>
      cases hstep with
      | pass hprocessor hroom =>
          refine ⟨?_, fun sample heq => ?_, fun hawaits => ?_⟩
          · rintro ⟨⟨sample, locked, hin⟩, _⟩
            dsimp only at hin
            split at hin <;> simp at hin
          · dsimp only at heq
            split at heq <;> simp at heq
          · simp [hrunning] at hawaits
  | acquire hprocessor hfull hstep =>
      cases hstep with
      | acquireThrottled _ hactive hlock =>
          exact ⟨fun hstarved => hactive hstarved.2.1, fun _ _ => hactive, by simp⟩
      | acquireFinishing hfinishing => simp [hprocessor] at hfinishing
  | awaitLock hprocessor hrunning hfull hlock =>
      exact ⟨hattended.notStarved, hattended.waiting, fun _ =>
        ⟨hattended.not_full_empty hprocessor hfull, _, hprocessor⟩⟩
  | recheck hawaits hactive hlock => exact absurd hactive (hattended.awaiting hawaits).1
  | spin hprocessor hrunning hfull hactive hlock =>
      exact absurd hactive (hattended.not_full_empty hprocessor hfull)
  | scale call hsuspended =>
      obtain ⟨hprocessor, hactive, hawaits⟩ := scale_eq config deployment state call
      refine ⟨?_, ?_, ?_⟩
      · rintro ⟨hin, hempty, _⟩
        rw [InCapacityWait, hprocessor] at hin
        exact hattended.activeTasks_ne_nil hsuspended hin (hactive ▸ hempty)
      · rw [hprocessor, hactive]
        exact hattended.waiting
      · rw [hprocessor, hactive, hawaits]
        exact hattended.awaiting

/-- The condition fails only in steps that make the wait starve. -/
theorem keepsCapacity_of_not_starved (hnext : ¬ next.Starved)
    (hstep : Step config deployment state event next) : state.KeepsCapacity event := by
  cases hstep with
  | @rollouter event next hsuspended hscale hprocessor hstep =>
      cases hstep with
      | @take entry rest htaking hpending =>
          rintro hempty ⟨sample, hhead⟩
          rw [hpending] at hhead
          obtain rfl : entry = some sample := Option.some.inj hhead
          by_contra hzero
          exact hnext ⟨⟨sample, false, rfl⟩, hempty, Nat.eq_zero_of_not_pos hzero⟩
      | @reapThrottled sample done rest hthrottled hreaps =>
          intro _ hempty
          by_contra hzero
          exact hnext ⟨⟨sample, false, rfl⟩, hempty, Nat.eq_zero_of_not_pos hzero⟩
      | reapFinishing hfinishing hreaps =>
          rintro ⟨sample, locked, hthrottled⟩
          simp [hfinishing] at hthrottled
      | _ => trivial
  | _ => trivial

omit [DecidableEq Replica] in
theorem initial_attended (config : ElasticConfig) (deployment : Deployment Replica Handle)
    (maxCacheSize : ℕ) : Attended (initial config deployment maxCacheSize :
      ElasticState RequestId Replica Handle Sample) := by
  refine ⟨?_, ?_, ?_⟩
  · rintro ⟨⟨sample, locked, hthrottled⟩, _⟩
    simp [initial, State.initial] at hthrottled
  · simp [initial, State.initial]
  · simp [initial]

theorem Run.attended
    {trace : List (ElasticState RequestId Replica Handle Sample × ElasticEvent Sample)}
    (hrun : Run config deployment trace state)
    (hkeeps : ∀ visited ∈ trace, visited.1.KeepsCapacity visited.2) :
    Attended state ∧ ∀ visited ∈ trace, Attended visited.1 := by
  induction hrun with
  | start maxCacheSize => exact ⟨initial_attended config deployment maxCacheSize, by simp⟩
  | step hrun hstep ih =>
      rw [List.forall_mem_append, List.forall_mem_singleton] at hkeeps
      obtain ⟨hattended, hbefore⟩ := ih hkeeps.1
      refine ⟨hattended.step hkeeps.2 hstep, ?_⟩
      rw [List.forall_mem_append, List.forall_mem_singleton]
      exact ⟨hbefore, hattended⟩

/-- The capacity wait starves in no state of a run exactly when there is capacity where the
processor takes a sample without any task, and where the last task of the wait ends. -/
theorem not_starved_iff
    {trace : List (ElasticState RequestId Replica Handle Sample × ElasticEvent Sample)}
    (hrun : Run config deployment trace state) :
    (¬ state.Starved ∧ ∀ visited ∈ trace, ¬ visited.1.Starved) ↔
      ∀ visited ∈ trace, visited.1.KeepsCapacity visited.2 := by
  constructor
  · rintro ⟨hstate, htrace⟩
    induction hrun with
    | start maxCacheSize => simp
    | step hrun hstep ih =>
        rw [List.forall_mem_append, List.forall_mem_singleton] at htrace ⊢
        exact ⟨ih htrace.2 htrace.1, keepsCapacity_of_not_starved hstate hstep⟩
  · intro hkeeps
    obtain ⟨hattended, htrace⟩ := hrun.attended hkeeps
    exact ⟨hattended.notStarved, fun visited hmem => (htrace visited hmem).notStarved⟩

/-- The loop goes round and nothing else happens once the wait starves with the lock free. -/
theorem Starved.spins (hstarved : state.Starved) (hrunning : state.awaitsLock = false)
    (hlock : ¬ state.rollouter.Locked) (hstep : Step config deployment state event next) :
    event = .spin ∧ next = state := by
  obtain ⟨⟨sample, locked, hthrottled⟩, hactive, hzero⟩ := hstarved
  have hhead : state.rollouter.processor = .throttled sample false := by
    cases locked with
    | false => exact hthrottled
    | true => exact absurd (.inl (by rw [hthrottled]; trivial)) hlock
  have hnot : ¬ state.Suspended := fun hsuspended => by
    simpa [hrunning] using hsuspended sample hhead
  cases hstep with
  | rollouter hsuspended => exact absurd hsuspended hnot
  | scale call hsuspended => exact absurd hsuspended hnot
  | spin => exact ⟨rfl, rfl⟩
  | recheck hawaits => simp [hrunning] at hawaits
  | awaitLock _ _ _ hlocked => exact absurd hlocked hlock
  | pass _ hstep =>
      cases hstep with
      | pass _ hroom => simp [hzero] at hroom
  | acquire hprocessor _ hstep =>
      cases hstep with
      | acquireThrottled _ htasks => exact absurd hactive htasks
      | acquireFinishing hfinishing => simp [hhead] at hfinishing

/-- No replica is added any more, and no task submitted. -/
theorem Starved.forever (hstarved : state.Starved) (hrunning : state.awaitsLock = false)
    (hlock : ¬ state.rollouter.Locked)
    (hsteps : Relation.ReflTransGen
      (fun state next => ∃ event, Step config deployment state event next) state next) :
    next = state := by
  induction hsteps with
  | refl => rfl
  | tail _ hstep ih =>
      obtain ⟨event, hstep⟩ := hstep
      subst ih
      exact (hstarved.spins hrunning hlock hstep).2

/-! ## Standalone replicas -/

theorem scale_manager (config : ElasticConfig) (deployment : Deployment Replica Handle)
    (state : ElasticState RequestId Replica Handle Sample) (call : ServerManager.Call) :
    (state.scale config deployment call).manager = state.manager.call deployment call ∧
      ((state.scale config deployment call).rollouter.maxConcurrentSamples =
          capacity config (state.manager.call deployment call) ∨
        (state.scale config deployment call).rollouter.maxConcurrentSamples =
          state.rollouter.maxConcurrentSamples) := by
  cases call <;> simp only [scale, scaled] <;> split
  all_goals first
    | exact ⟨rfl, .inl rfl⟩
    | exact ⟨rfl, .inr rfl⟩

omit [DecidableEq Replica] in
theorem capacity_pos {manager : ServerManager RequestId Replica Handle}
    (htracked : ServerManager.Tracked deployment manager)
    (hstandalone : deployment.standalone ≠ [])
    (hsamples : 0 < config.concurrentSamplesPerReplica)
    (hrequired : 0 < config.config.maxRequiredSamples) : 0 < capacity config manager := by
  have hlength : 0 < manager.rolloutReplicas.length := by
    rw [htracked.rolloutReplicas, ServerManager.active, List.length_append]
    exact Nat.add_pos_left (List.length_pos_iff.mpr hstandalone) _
  exact Nat.lt_min.mpr ⟨Nat.mul_pos hlength hsamples, hrequired⟩

theorem Run.capacity_pos
    {trace : List (ElasticState RequestId Replica Handle Sample × ElasticEvent Sample)}
    (hrun : Run config deployment trace state) (hstandalone : deployment.standalone ≠ [])
    (hsamples : 0 < config.concurrentSamplesPerReplica)
    (hrequired : 0 < config.config.maxRequiredSamples) :
    ServerManager.Tracked deployment state.manager ∧
      0 < state.rollouter.maxConcurrentSamples := by
  induction hrun with
  | start maxCacheSize =>
      have htracked := (@ServerManager.create_consistent RequestId _ _ deployment
        maxCacheSize).tracked
      exact ⟨htracked, ElasticState.capacity_pos htracked hstandalone hsamples hrequired⟩
  | step hrun hstep ih =>
      obtain ⟨htracked, hpos⟩ := ih
      cases hstep with
      | rollouter _ hscale _ hstep => exact ⟨htracked, (waitStep hstep hscale).2 ▸ hpos⟩
      | pass _ hstep => exact ⟨htracked, (waitStep hstep (by decide)).2 ▸ hpos⟩
      | acquire _ _ hstep => exact ⟨htracked, (waitStep hstep (by decide)).2 ▸ hpos⟩
      | awaitLock | recheck | spin => exact ⟨htracked, hpos⟩
      | scale call hsuspended =>
          obtain ⟨hmanager, hmax⟩ := scale_manager config deployment _ call
          rw [hmanager]
          refine ⟨htracked.call call, ?_⟩
          rcases hmax with hmax | hmax
          · rw [hmax]
            exact ElasticState.capacity_pos (htracked.call call) hstandalone hsamples hrequired
          · rwa [hmax]

/-- With a standalone replica the capacity wait never starves. -/
theorem not_starved_of_standalone
    {trace : List (ElasticState RequestId Replica Handle Sample × ElasticEvent Sample)}
    (hrun : Run config deployment trace state) (hstandalone : deployment.standalone ≠ [])
    (hsamples : 0 < config.concurrentSamplesPerReplica)
    (hrequired : 0 < config.config.maxRequiredSamples) : ¬ state.Starved := by
  intro hstarved
  exact absurd hstarved.2.2 (hrun.capacity_pos hstandalone hsamples hrequired).2.ne'

/-! ## A hybrid replica alone -/

def onlyHybrid : Deployment ℕ ℕ where
  serverAddress := fun _ => "hybrid"
  serverHandle := id
  standalone := []
  hybridReplicas := .ofList [("hybrid_0", 0)]
  addresses_nodup := by decide

/-- The replica is removed while the processor waits for the next sample.  Nothing can
add it again. -/
theorem onlyHybrid_starves :
    ∃ trace, ∃ state : ElasticState ℕ ℕ ℕ ℕ,
      Run ⟨⟨1⟩, 1⟩ onlyHybrid trace state ∧ state.Starved ∧
        ∀ event next, Step ⟨⟨1⟩, 1⟩ onlyHybrid state event next → next = state := by
  have hstart : Run ⟨⟨1⟩, 1⟩ onlyHybrid [] (initial ⟨⟨1⟩, 1⟩ onlyHybrid 1 :
    ElasticState ℕ ℕ ℕ ℕ) := .start 1
  have hadd := hstart.step (.scale (.addReplicas ["hybrid_0"] true)
    (fun sample heq => by simp [initial, State.initial] at heq))
  have hloop := hadd.step (.rollouter (fun _ heq => nomatch heq) (by decide)
    (fun _ heq => nomatch heq) (.loop rfl))
  have hanswer := hloop.step (.rollouter (fun _ heq => nomatch heq) (by decide)
    (fun _ heq => nomatch heq) (.answerStatistics rfl))
  have hdecide := hanswer.step (.rollouter (fun _ heq => nomatch heq) (by decide)
    (fun _ heq => nomatch heq) (.decide rfl))
  have hremove := hdecide.step (.scale (.removeReplicas ["hybrid_0"] true)
    (fun _ heq => nomatch heq))
  have hfeed := hremove.step (.rollouter (fun _ heq => nomatch heq) (by decide)
    (fun _ heq => nomatch heq) (.feed 1 rfl (by decide)))
  have htake := hfeed.step (.rollouter (fun _ heq => nomatch heq) (by decide)
    (fun _ heq => nomatch heq) (.take rfl rfl))
  refine ⟨_, _, htake, ?_, ?_⟩
  · exact ⟨⟨1, false, rfl⟩, rfl, rfl⟩
  · intro event next hstep
    refine (Starved.spins ⟨⟨1, false, rfl⟩, rfl, rfl⟩ rfl ?_ hstep).2
    rintro (hheld | hreset)
    · exact hheld
    · exact hreset rfl

/-- It does not starve when it takes the sample before the replica is removed. -/
theorem onlyHybrid_not_starved :
    ∃ trace, ∃ state : ElasticState ℕ ℕ ℕ ℕ, Run ⟨⟨1⟩, 1⟩ onlyHybrid trace state ∧
      state.rollouter.processor = .throttled 1 false ∧
      ¬ state.Starved ∧ ∀ visited ∈ trace, ¬ visited.1.Starved := by
  have hstart : Run ⟨⟨1⟩, 1⟩ onlyHybrid [] (initial ⟨⟨1⟩, 1⟩ onlyHybrid 1 :
    ElasticState ℕ ℕ ℕ ℕ) := .start 1
  have hadd := hstart.step (.scale (.addReplicas ["hybrid_0"] true)
    (fun sample heq => by simp [initial, State.initial] at heq))
  have hfeed := hadd.step (.rollouter (fun _ heq => nomatch heq) (by decide)
    (fun _ heq => nomatch heq) (.feed 1 rfl (by decide)))
  have hloop := hfeed.step (.rollouter (fun _ heq => nomatch heq) (by decide)
    (fun _ heq => nomatch heq) (.loop rfl))
  have hanswer := hloop.step (.rollouter (fun _ heq => nomatch heq) (by decide)
    (fun _ heq => nomatch heq) (.answerStatistics rfl))
  have hdecide := hanswer.step (.rollouter (fun _ heq => nomatch heq) (by decide)
    (fun _ heq => nomatch heq) (.decide rfl))
  have htake := hdecide.step (.rollouter (fun _ heq => nomatch heq) (by decide)
    (fun _ heq => nomatch heq) (.take rfl rfl))
  refine ⟨_, _, htake, rfl, (not_starved_iff htake).mpr ?_⟩
  simp only [List.forall_mem_append, List.forall_mem_singleton]
  refine ⟨⟨⟨⟨⟨⟨by simp, trivial⟩, trivial⟩, trivial⟩, trivial⟩, trivial⟩, ?_⟩
  exact fun _ _ => by decide

end OneShotOPD.FullyAsync.ElasticState
