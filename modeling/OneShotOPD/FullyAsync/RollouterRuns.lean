import OneShotOPD.FullyAsync.Rollouter

/-!
# No sample is dropped

The counter of `reset_staleness` misses a sample that has been taken from the pending
queue and not been submitted.  As long as it is not written then, it covers all
samples that are ahead of the trainer, and the message queue never overflows.
-/

namespace OneShotOPD.FullyAsync.Rollouter

variable {Sample : Type} {config : Config} {state next : State Sample} {event : Event}

/-! ## The samples in flight -/

/-- The samples of the tasks that have not put them yet. -/
def generating (tasks : List (Task Sample)) : List Sample :=
  (tasks.filter fun task => !task.isPut).map Task.sample

def Processor.held : Processor Sample → List Sample
  | .throttled sample _ => [sample]
  | .parked sample => [sample]
  | .submitting sample => [sample]
  | _ => []

def State.inFlight (state : State Sample) : List Sample :=
  state.processor.held ++ generating state.activeTasks

def State.load (state : State Sample) : ℕ := state.inFlight.length + state.queue.length

theorem load_eq (state : State Sample) :
    state.load = state.processor.held.length + (generating state.activeTasks).length +
      state.queue.length := by
  rw [State.load, State.inFlight, List.length_append]

@[simp]
theorem generating_append (first second : List (Task Sample)) :
    generating (first ++ second) = generating first ++ generating second := by
  simp [generating]

@[simp]
theorem generating_cons_false (sample : Sample) (tasks : List (Task Sample)) :
    generating (⟨sample, false⟩ :: tasks) = sample :: generating tasks := by
  simp [generating]

@[simp]
theorem generating_cons_true (sample : Sample) (tasks : List (Task Sample)) :
    generating (⟨sample, true⟩ :: tasks) = generating tasks := by
  simp [generating]

@[simp]
theorem generating_nil : generating ([] : List (Task Sample)) = [] := rfl

/-- Only tasks that have put their samples are reaped. -/
theorem Reaps.generating_perm {tasks done rest : List (Task Sample)}
    (hreaps : Reaps tasks done rest) : (generating tasks).Perm (generating rest) := by
  have hdone : generating done = [] := by
    simpa [generating, List.filter_eq_nil_iff] using hreaps.isPut
  have hperm := (hreaps.perm.filter fun task => !task.isPut).map Task.sample
  change (generating tasks).Perm (generating (done ++ rest)) at hperm
  rwa [generating_append, hdone, List.nil_append] at hperm

theorem Reaps.length_generating {tasks done rest : List (Task Sample)}
    (hreaps : Reaps tasks done rest) : (generating tasks).length = (generating rest).length :=
  hreaps.generating_perm.length_eq

theorem length_generating_le (tasks : List (Task Sample)) :
    (generating tasks).length ≤ tasks.length := by
  rw [generating, List.length_map]
  exact List.length_filter_le _ _

theorem putSample_of_lt {maxQueueSize : ℕ} {queue : List (Option Sample)}
    (sample : Option Sample) (hroom : queue.length < maxQueueSize) :
    putSample maxQueueSize queue sample = (queue ++ [sample], true) := by
  rw [putSample, if_neg (Nat.not_le.mpr hroom)]

/-! ## The bound -/

/-- The end signal has been taken. -/
def Processor.Ending : Processor Sample → Prop
  | .finishing _ => True
  | .finished => True
  | .closed => True
  | _ => False

/-- The processor is going to add an entry. -/
def Processor.Spare : Processor Sample → Prop
  | .taking => True
  | .finishing _ => True
  | .finished => True
  | _ => False

/-- The counter covers what is ahead of the trainer, and so does what
`reset_staleness` is going to write. -/
structure Bounded (config : Config) (state : State Sample) : Prop where
  covered : ¬ state.processor.Ending → state.load ≤ state.stalenessSamples
  bounded : state.load ≤ config.maxRequiredSamples
  spare : state.processor.Spare → state.load < config.maxRequiredSamples
  asked : ∀ activeTasks, state.reset = .asking activeTasks →
    (generating state.activeTasks).length ≤ activeTasks
  answered : ∀ activeTasks queueSize, state.reset = .answered activeTasks queueSize →
    ¬ state.processor.Ending →
      (generating state.activeTasks).length + state.queue.length ≤ activeTasks + queueSize

/-- The counter is not written while the processor holds a sample. -/
def Settled (state : State Sample) (event : Event) : Prop :=
  event = .writeStaleness → state.processor.held = []

/-- The steps that leave the samples, the queue and the counter as they are. -/
theorem Bounded.move (hbounded : Bounded config state)
    (hheld : next.processor.held = state.processor.held)
    (hactive : (generating next.activeTasks).length = (generating state.activeTasks).length)
    (hqueue : next.queue = state.queue)
    (hstaleness : next.stalenessSamples = state.stalenessSamples)
    (hreset : next.reset = state.reset)
    (hending : state.processor.Ending → next.processor.Ending)
    (hspare : next.processor.Spare → state.load < config.maxRequiredSamples) :
    Bounded config next := by
  have hload : next.load = state.load := by rw [load_eq, load_eq, hheld, hactive, hqueue]
  constructor
  case covered =>
    rw [hload, hstaleness]
    exact fun hopen => hbounded.covered fun hended => hopen (hending hended)
  case bounded => exact hload ▸ hbounded.bounded
  case spare => exact hload ▸ hspare
  case asked => exact hactive ▸ hreset ▸ hbounded.asked
  case answered =>
    rw [hreset, hactive, hqueue]
    exact fun activeTasks queueSize hanswered hopen =>
      hbounded.answered activeTasks queueSize hanswered fun hended => hopen (hending hended)

theorem Bounded.take (hbounded : Bounded config state) {entry : Option Sample}
    {rest : List (Option Sample)} (hprocessor : state.processor = .taking) :
    Bounded config { state with
      pendingQueue := rest
      stalenessSamples := state.stalenessSamples + 1
      processor := .ofTaken entry
      taken := state.taken ++ entry.toList } := by
  obtain ⟨hcovered, hmax, hspare, hasked, hanswered⟩ := hbounded
  simp only [load_eq, hprocessor] at hcovered hmax hspare hanswered
  have hroom := hspare trivial
  have hopen := hcovered id
  cases entry <;> constructor <;>
    simp only [load_eq, Processor.ofTaken, Processor.held, Processor.Ending, Processor.Spare,
      List.length_nil, List.length_singleton] at * <;> first | omega | assumption | tauto

theorem Bounded.submit (hbounded : Bounded config state) {sample : Sample}
    (hprocessor : state.processor = .submitting sample) (hlock : ¬ state.Locked) :
    Bounded config { state with
      activeTasks := state.activeTasks ++ [⟨sample, false⟩]
      processor := .looping } := by
  obtain ⟨hcovered, hmax, hspare, hasked, hanswered⟩ := hbounded
  have hidle : state.reset = .idle := by
    by_contra hbusy
    exact hlock (.inr hbusy)
  simp only [load_eq, hprocessor] at hcovered hmax
  have hopen := hcovered id
  constructor <;>
    simp only [load_eq, generating_append, generating_cons_false, generating_nil, Processor.held,
      List.length_append, List.length_nil, List.length_singleton] at *
  case covered => omega
  case bounded => omega
  case spare => exact fun hgoing => hgoing.elim
  case asked => simp [hidle]
  case answered => simp [hidle]

/-- A task that puts its sample finds room. -/
theorem Bounded.queue_lt_of_generating (hbounded : Bounded config state)
    (hgenerating : generating state.activeTasks ≠ []) :
    state.queue.length < config.maxQueueSize := by
  have hmax := hbounded.bounded
  have hpos := List.length_pos_iff.mpr hgenerating
  rw [load_eq] at hmax
  rw [Config.maxQueueSize]
  omega

theorem Bounded.put (hbounded : Bounded config state) {before after : List (Task Sample)}
    {sample : Sample} (hactive : state.activeTasks = before ++ ⟨sample, false⟩ :: after) :
    Bounded config { state with
      activeTasks := before ++ ⟨sample, true⟩ :: after
      queue := (putSample config.maxQueueSize state.queue (some sample)).1
      droppedStaleSamples := state.droppedStaleSamples +
        if (putSample config.maxQueueSize state.queue (some sample)).2 then 0 else 1 } := by
  have hroom := hbounded.queue_lt_of_generating (by simp [hactive])
  obtain ⟨hcovered, hmax, hspare, hasked, hanswered⟩ := hbounded
  simp only [load_eq, hactive, generating_append, generating_cons_false, List.length_append,
    List.length_cons] at hcovered hmax hspare hasked hanswered
  rw [putSample_of_lt _ hroom]
  constructor <;>
    simp only [load_eq, generating_append, generating_cons_true, List.length_append,
      List.length_singleton]
  case covered => intro hopen; have := hcovered hopen; omega
  case bounded => omega
  case spare => intro hgoing; have := hspare hgoing; omega
  case asked => intro activeTasks hreset; have := hasked activeTasks hreset; omega
  case answered =>
    intro activeTasks queueSize hreset hopen
    have := hanswered activeTasks queueSize hreset hopen
    omega

theorem Bounded.get (hbounded : Bounded config state) {entry : Option Sample}
    {rest : List (Option Sample)} (hqueue : state.queue = entry :: rest) :
    Bounded config { state with
      queue := rest
      consumed := state.consumed ++ [entry] } := by
  obtain ⟨hcovered, hmax, hspare, hasked, hanswered⟩ := hbounded
  simp only [load_eq, hqueue, List.length_cons] at hcovered hmax hspare hanswered
  constructor <;> simp only [load_eq]
  case covered => intro hopen; have := hcovered hopen; omega
  case bounded => omega
  case spare => intro hgoing; have := hspare hgoing; omega
  case asked => exact hasked
  case answered =>
    intro activeTasks queueSize hreset hopen
    have := hanswered activeTasks queueSize hreset hopen
    omega

theorem Bounded.close (hbounded : Bounded config state)
    (hprocessor : state.processor = .finished) :
    Bounded config { state with
      queue := (putSample config.maxQueueSize state.queue none).1
      processor := .closed } := by
  obtain ⟨hcovered, hmax, hspare, hasked, hanswered⟩ := hbounded
  simp only [load_eq, hprocessor] at hspare
  have hroom := hspare trivial
  rw [putSample_of_lt _ (by rw [Config.maxQueueSize]; omega)]
  constructor
  case covered => exact fun hopen => absurd trivial hopen
  case bounded =>
    simp only [load_eq, Processor.held, List.length_append, List.length_singleton] at *
    omega
  case spare => exact fun hgoing => hgoing.elim
  case asked => exact hasked
  case answered => exact fun _ _ _ hopen => absurd trivial hopen

theorem settled_of_ne (hne : event ≠ .writeStaleness) : Settled state event :=
  fun heq => absurd heq hne

theorem Bounded.step (hbounded : Bounded config state) (hsettled : Settled state event)
    (hstep : Step config state event next) : Bounded config next := by
  cases hstep with
  | feed sample hfed hroom => exact hbounded.move rfl rfl rfl rfl rfl id hbounded.spare
  | endFeed hfed hroom => exact hbounded.move rfl rfl rfl rfl rfl id hbounded.spare
  | monitor hlock => exact hbounded.move rfl rfl rfl rfl rfl id hbounded.spare
  | rescale hmax => exact hbounded.move rfl rfl rfl rfl rfl id hbounded.spare
  | loop hprocessor =>
      refine hbounded.move ?_ rfl rfl rfl rfl (by simp [hprocessor, Processor.Ending]) ?_ <;>
        split <;> simp [hprocessor, Processor.held, Processor.Spare]
  | answerStatistics hprocessor =>
      exact hbounded.move (by simp [hprocessor, Processor.held]) rfl rfl rfl rfl
        (by simp [hprocessor, Processor.Ending]) (by simp [Processor.Spare])
  | decide hprocessor =>
      refine hbounded.move ?_ rfl rfl rfl rfl (by simp [hprocessor, Processor.Ending]) ?_
      · split <;> simp [hprocessor, Processor.held]
      · split
        next => simp [Processor.Spare]
        next hgo =>
          have hcovered := hbounded.covered (by simp [hprocessor, Processor.Ending])
          simp only [shouldPauseGeneration, not_or, Nat.not_le] at hgo
          exact fun _ => Nat.lt_of_le_of_lt hcovered hgo.2
  | pause hprocessor hlock =>
      exact hbounded.move (by simp [hprocessor, Processor.held]) rfl rfl rfl rfl
        (by simp [hprocessor, Processor.Ending]) (by simp [Processor.Spare])
  | drain hprocessor hlock hreaps =>
      exact hbounded.move rfl hreaps.length_generating.symm rfl rfl rfl id hbounded.spare
  | resume hprocessor hresume =>
      exact hbounded.move (by simp [hprocessor, Processor.held]) rfl rfl rfl rfl
        (by simp [hprocessor, Processor.Ending]) (by simp [Processor.Spare])
  | take hprocessor hpending => exact hbounded.take hprocessor
  | pass hprocessor hroom =>
      refine hbounded.move ?_ rfl rfl rfl rfl (by simp [hprocessor, Processor.Ending]) ?_ <;>
        split <;> simp [hprocessor, Processor.held, Processor.Spare]
  | acquireThrottled hprocessor hactive hlock =>
      exact hbounded.move (by simp [hprocessor, Processor.held]) rfl rfl rfl rfl
        (by simp [hprocessor, Processor.Ending]) (by simp [Processor.Spare])
  | reapThrottled hprocessor hreaps =>
      exact hbounded.move (by simp [hprocessor, Processor.held]) hreaps.length_generating.symm
        rfl rfl rfl (by simp [hprocessor, Processor.Ending]) (by simp [Processor.Spare])
  | unpark hprocessor hresume =>
      exact hbounded.move (by simp [hprocessor, Processor.held]) rfl rfl rfl rfl
        (by simp [hprocessor, Processor.Ending]) (by simp [Processor.Spare])
  | submit hprocessor hlock => exact hbounded.submit hprocessor hlock
  | acquireFinishing hprocessor hactive hlock =>
      exact hbounded.move (by simp [hprocessor, Processor.held]) rfl rfl rfl rfl
        (by simp [Processor.Ending]) fun _ => hbounded.spare (by simp [hprocessor, Processor.Spare])
  | reapFinishing hprocessor hreaps =>
      exact hbounded.move (by simp [hprocessor, Processor.held]) hreaps.length_generating.symm
        rfl rfl rfl (by simp [Processor.Ending])
        fun _ => hbounded.spare (by simp [hprocessor, Processor.Spare])
  | finish hprocessor hactive =>
      exact hbounded.move (by simp [hprocessor, Processor.held]) rfl rfl rfl rfl
        (by simp [Processor.Ending]) fun _ => hbounded.spare (by simp [hprocessor, Processor.Spare])
  | close hprocessor hfed => exact hbounded.close hprocessor
  | put hactive => exact hbounded.put hactive
  | get hqueue => exact hbounded.get hqueue
  | resetStaleness hlock =>
      refine { hbounded with asked := fun activeTasks heq => ?_, answered := nofun }
      exact Reset.asking.inj heq ▸ length_generating_le state.activeTasks
  | answerQueueSize hreset =>
      refine { hbounded with asked := nofun, answered := fun activeTasks queueSize heq _ => ?_ }
      obtain ⟨rfl, rfl⟩ := Reset.answered.inj heq
      exact Nat.add_le_add_right (hbounded.asked _ hreset) _
  | writeStaleness hreset =>
      refine { hbounded with covered := fun hopen => ?_, asked := nofun, answered := nofun }
      have hheld := hsettled rfl
      have hanswered := hbounded.answered _ _ hreset hopen
      simpa [load_eq, hheld] using hanswered

/-! ## What becomes of the samples -/

/-- The entry that follows all samples. -/
def Processor.signal : Processor Sample → List (Option Sample)
  | .closed => [none]
  | _ => []

/-- All tasks are over. -/
def Processor.Over : Processor Sample → Prop
  | .finished => True
  | .closed => True
  | _ => False

/-- Every sample that has been taken is in flight, queued or consumed, once. -/
structure Conserved (state : State Sample) : Prop where
  delivered : ∃ samples, state.consumed ++ state.queue =
      samples.map some ++ state.processor.signal ∧
    state.taken.Perm (samples ++ state.inFlight)
  kept : state.droppedStaleSamples = 0
  idle : state.processor.Over → state.activeTasks = []

/-- The steps that neither take nor put a sample. -/
theorem Conserved.move (hconserved : Conserved state)
    (hheld : next.processor.held = state.processor.held)
    (hactive : (generating state.activeTasks).Perm (generating next.activeTasks))
    (hentries : next.consumed ++ next.queue = state.consumed ++ state.queue)
    (hsignal : next.processor.signal = state.processor.signal)
    (htaken : next.taken = state.taken)
    (hdropped : next.droppedStaleSamples = state.droppedStaleSamples)
    (hidle : next.processor.Over → next.activeTasks = []) : Conserved next := by
  obtain ⟨samples, heq, hperm⟩ := hconserved.delivered
  refine ⟨⟨samples, ?_, ?_⟩, hdropped ▸ hconserved.kept, hidle⟩
  · rw [hentries, hsignal, heq]
  · rw [htaken, State.inFlight, hheld]
    exact hperm.trans ((hactive.append_left _).append_left _)

theorem Conserved.take (hconserved : Conserved state) {entry : Option Sample}
    {rest : List (Option Sample)} (hprocessor : state.processor = .taking) :
    Conserved { state with
      pendingQueue := rest
      stalenessSamples := state.stalenessSamples + 1
      processor := .ofTaken entry
      taken := state.taken ++ entry.toList } := by
  obtain ⟨samples, heq, hperm⟩ := hconserved.delivered
  simp only [State.inFlight, hprocessor, Processor.held, Processor.signal,
    List.nil_append] at heq hperm
  refine ⟨⟨samples, ?_, ?_⟩, hconserved.kept, ?_⟩ <;>
    cases entry <;>
    simp only [Processor.ofTaken, Processor.signal, State.inFlight, Processor.held,
      Processor.Over, Option.toList, List.append_nil, List.nil_append, false_implies]
  · rw [heq, List.append_nil]
  · rw [heq, List.append_nil]
  · exact hperm
  · refine (hperm.append_right _).trans ?_
    rw [List.append_assoc]
    exact List.perm_append_comm.append_left _

theorem Conserved.submit (hconserved : Conserved state) {sample : Sample}
    (hprocessor : state.processor = .submitting sample) :
    Conserved { state with
      activeTasks := state.activeTasks ++ [⟨sample, false⟩]
      processor := .looping } := by
  obtain ⟨samples, heq, hperm⟩ := hconserved.delivered
  simp only [State.inFlight, hprocessor, Processor.held, Processor.signal] at heq hperm
  refine ⟨⟨samples, heq, ?_⟩, hconserved.kept, fun hover => hover.elim⟩
  simp only [State.inFlight, Processor.held, generating_append, generating_cons_false,
    generating_nil, List.nil_append]
  exact hperm.trans (List.perm_append_comm.append_left _)

theorem Conserved.put (hconserved : Conserved state) (hbounded : Bounded config state)
    {before after : List (Task Sample)} {sample : Sample}
    (hactive : state.activeTasks = before ++ ⟨sample, false⟩ :: after) :
    Conserved { state with
      activeTasks := before ++ ⟨sample, true⟩ :: after
      queue := (putSample config.maxQueueSize state.queue (some sample)).1
      droppedStaleSamples := state.droppedStaleSamples +
        if (putSample config.maxQueueSize state.queue (some sample)).2 then 0 else 1 } := by
  have hroom := hbounded.queue_lt_of_generating (by simp [hactive])
  have hnot : ¬ state.processor.Over := fun hover => by simp [hconserved.idle hover] at hactive
  have hsignal : state.processor.signal = [] := by
    cases hprocessor : state.processor <;> simp_all [Processor.signal, Processor.Over]
  obtain ⟨samples, heq, hperm⟩ := hconserved.delivered
  rw [putSample_of_lt _ hroom]
  refine ⟨⟨samples ++ [sample], ?_, ?_⟩, hconserved.kept, fun hover => absurd hover hnot⟩
  · rw [← List.append_assoc, heq, hsignal]
    simp
  · simp only [State.inFlight, hactive, generating_append, generating_cons_false,
      generating_cons_true] at hperm ⊢
    refine hperm.trans ?_
    rw [List.append_assoc samples, ← List.append_assoc state.processor.held,
      ← List.append_assoc state.processor.held]
    exact List.perm_middle.append_left _

theorem Conserved.close (hconserved : Conserved state) (hbounded : Bounded config state)
    (hprocessor : state.processor = .finished) :
    Conserved { state with
      queue := (putSample config.maxQueueSize state.queue none).1
      processor := .closed } := by
  have hroom : state.queue.length < config.maxQueueSize := by
    have hspare := hbounded.spare (by simp [hprocessor, Processor.Spare])
    rw [load_eq] at hspare
    rw [Config.maxQueueSize]
    omega
  obtain ⟨samples, heq, hperm⟩ := hconserved.delivered
  rw [putSample_of_lt _ hroom]
  refine ⟨⟨samples, ?_, ?_⟩, hconserved.kept, fun _ => hconserved.idle ?_⟩
  · rw [← List.append_assoc, heq]
    simp [hprocessor, Processor.signal]
  · simpa [State.inFlight, hprocessor, Processor.held] using hperm
  · simp [hprocessor, Processor.Over]

theorem Conserved.step (hconserved : Conserved state) (hbounded : Bounded config state)
    (hstep : Step config state event next) : Conserved next := by
  cases hstep with
  | feed sample hfed hroom => exact { hconserved with }
  | endFeed hfed hroom => exact { hconserved with }
  | monitor hlock => exact { hconserved with }
  | rescale hmax => exact { hconserved with }
  | resetStaleness hlock => exact { hconserved with }
  | answerQueueSize hreset => exact { hconserved with }
  | writeStaleness hreset => exact { hconserved with }
  | take hprocessor hpending => exact hconserved.take hprocessor
  | submit hprocessor hlock => exact hconserved.submit hprocessor
  | put hactive => exact hconserved.put hbounded hactive
  | close hprocessor hfed => exact hconserved.close hbounded hprocessor
  | get hqueue =>
      exact hconserved.move rfl (List.Perm.refl _) (by simp [hqueue]) rfl rfl rfl hconserved.idle
  | drain hprocessor hlock hreaps =>
      exact hconserved.move rfl hreaps.generating_perm rfl rfl rfl rfl
        (by simp [hprocessor, Processor.Over])
  | reapThrottled hprocessor hreaps =>
      exact hconserved.move (by simp [hprocessor, Processor.held]) hreaps.generating_perm rfl
        (by simp [hprocessor, Processor.signal]) rfl rfl (by simp [Processor.Over])
  | reapFinishing hprocessor hreaps =>
      exact hconserved.move (by simp [hprocessor, Processor.held]) hreaps.generating_perm rfl
        (by simp [hprocessor, Processor.signal]) rfl rfl (by simp [Processor.Over])
  | finish hprocessor hactive =>
      exact hconserved.move (by simp [hprocessor, Processor.held]) (List.Perm.refl _) rfl
        (by simp [hprocessor, Processor.signal]) rfl rfl fun _ => hactive
  | loop hprocessor | decide hprocessor | pass hprocessor hroom =>
      refine hconserved.move ?_ (List.Perm.refl _) rfl ?_ rfl rfl ?_ <;> dsimp only <;> split <;>
        simp [hprocessor, Processor.held, Processor.signal, Processor.Over]
  | answerStatistics hprocessor | pause hprocessor hlock | resume hprocessor hresume
  | acquireThrottled hprocessor hactive hlock | unpark hprocessor hresume
  | acquireFinishing hprocessor hactive hlock =>
      exact hconserved.move (by simp [hprocessor, Processor.held]) (List.Perm.refl _) rfl
        (by simp [hprocessor, Processor.signal]) rfl rfl (by simp [Processor.Over])

theorem Run.invariants (hrun : Run config Settled state) :
    Bounded config state ∧ Conserved state := by
  induction hrun with
  | start hmax =>
      refine ⟨⟨?_, ?_, fun hgoing => hgoing.elim, nofun, nofun⟩,
        ⟨⟨[], rfl, List.Perm.refl _⟩, rfl, fun _ => rfl⟩⟩
      · exact fun _ => Nat.le_refl 0
      · exact Nat.zero_le _
  | step _ hsettled hstep ih =>
      exact ⟨ih.1.step hsettled hstep, ih.2.step ih.1 hstep⟩

/-- As long as the counter is not written while the processor holds a sample, there
are never more samples ahead of the trainer than required, every put finds room, and
so does the end signal, which comes after all samples. -/
theorem never_drops (config : Config) (hrun : Run config Settled state) :
    state.inFlight.length + state.queue.length ≤ config.maxRequiredSamples ∧
    (generating state.activeTasks ≠ [] ∨ state.processor = .finished →
      state.queue.length < config.maxQueueSize) ∧
    state.droppedStaleSamples = 0 ∧
    ∃ samples, state.consumed ++ state.queue = samples.map some ++ state.processor.signal ∧
      state.taken.Perm (samples ++ state.inFlight) := by
  obtain ⟨hbounded, hconserved⟩ := hrun.invariants
  refine ⟨hbounded.bounded, ?_, hconserved.kept, hconserved.delivered⟩
  rintro (hgenerating | hprocessor)
  · exact hbounded.queue_lt_of_generating hgenerating
  · have hspare := hbounded.spare (by simp [hprocessor, Processor.Spare])
    rw [load_eq] at hspare
    rw [Config.maxQueueSize]
    omega

/-! ## One required sample -/

/-- A state of the rollouter with one required sample that is not paused. -/
def oneSlot (stalenessSamples : ℕ) (pendingQueue : List (Option ℕ))
    (activeTasks : List (Task ℕ)) (queue : List (Option ℕ)) (processor : Processor ℕ)
    (reset : Reset) (taken : List ℕ) : State ℕ where
  paused := false
  resumeEvent := true
  stalenessSamples := stalenessSamples
  maxConcurrentSamples := 1
  fed := false
  pendingQueue := pendingQueue
  activeTasks := activeTasks
  queue := queue
  droppedStaleSamples := 0
  processor := processor
  reset := reset
  taken := taken
  consumed := []

/-- The processor has taken the first of two samples. -/
theorem oneSlot_submitting {allowed : State ℕ → Event → Prop}
    (hallowed : ∀ state event, event ≠ .writeStaleness → allowed state event) :
    Run ⟨1⟩ allowed (oneSlot 1 [some 2] [] [] (.submitting 1) .idle [1]) := by
  have hstart : Run ⟨1⟩ allowed (oneSlot 0 [] [] [] .looping .idle []) :=
    .start (Nat.le_refl 1)
  have hfirst := hstart.step (hallowed _ _ (by decide)) (.feed 1 rfl (by decide))
  have hsecond := hfirst.step (hallowed _ _ (by decide)) (.feed 2 rfl (by decide))
  have hloop := hsecond.step (hallowed _ _ (by decide)) (.loop rfl)
  have hanswer := hloop.step (hallowed _ _ (by decide)) (.answerStatistics rfl)
  have hdecide := hanswer.step (hallowed _ _ (by decide)) (.decide rfl)
  have htake := hdecide.step (hallowed _ _ (by decide)) (.take rfl rfl)
  exact htake.step (hallowed _ _ (by decide)) (.pass rfl (by decide))

theorem oneSlot_never_drops :
    ∃ state : State ℕ, Run ⟨1⟩ Settled state ∧ state.queue = [some 1] ∧
      state.droppedStaleSamples = 0 := by
  have hsubmitting := @oneSlot_submitting Settled fun _ _ hne => settled_of_ne hne
  have hsubmit := hsubmitting.step (settled_of_ne (by decide))
    (.submit rfl (by simp [State.Locked, oneSlot, Processor.HoldsLock]))
  have hput := hsubmit.step (settled_of_ne (by decide)) (.put (List.nil_append _).symm)
  exact ⟨_, hput, rfl, (never_drops ⟨1⟩ hput).2.2.1⟩

/-- The counter is reset while the processor waits for the lock with the first
sample, which it then misses.  The second sample drops the first one from the queue. -/
theorem reset_drops_sample :
    ∃ state next : State ℕ, Run ⟨1⟩ (fun _ _ => True) state ∧ Step ⟨1⟩ state .put next ∧
      1 < state.inFlight.length + state.queue.length ∧ next.droppedStaleSamples = 1 ∧
        1 ∈ next.taken ∧ some 1 ∉ next.consumed ++ next.queue ∧ 1 ∉ next.inFlight := by
  have hsubmitting := @oneSlot_submitting (fun _ _ => True) fun _ _ _ => trivial
  have hreset := hsubmitting.step trivial
    (.resetStaleness (by simp [State.Locked, oneSlot, Processor.HoldsLock]))
  have hanswer := hreset.step trivial (.answerQueueSize rfl)
  have hwrite := hanswer.step trivial (.writeStaleness rfl)
  have hsubmit := hwrite.step trivial
    (.submit rfl (by simp [State.Locked, oneSlot, Processor.HoldsLock]))
  have hsubmitted : Run ⟨1⟩ (fun _ _ => True)
      (oneSlot 0 [some 2] [⟨1, false⟩] [] .looping .idle [1]) := hsubmit
  have hloop := hsubmitted.step trivial (.loop rfl)
  have hstatistics := hloop.step trivial (.answerStatistics rfl)
  have hdecide := hstatistics.step trivial (.decide rfl)
  have htake := hdecide.step trivial (.take rfl rfl)
  have hacquire := htake.step trivial (.acquireThrottled rfl (by decide)
    (by simp [State.Locked, oneSlot, Processor.HoldsLock, Processor.ofTaken]))
  have hput := hacquire.step trivial (.put (List.nil_append _).symm)
  have hqueued : Run ⟨1⟩ (fun _ _ => True)
      (oneSlot 1 [] [⟨1, true⟩] [some 1] (.throttled 2 true) .idle [1, 2]) := hput
  have hreaps : Reaps [(⟨1, true⟩ : Task ℕ)] [⟨1, true⟩] [] :=
    ⟨List.Perm.refl _, by simp, by simp⟩
  have hreap := hqueued.step trivial (.reapThrottled rfl hreaps)
  have hpass := hreap.step trivial (.pass rfl (by decide))
  have hsecond := hpass.step trivial
    (.submit rfl (by simp [State.Locked, oneSlot, Processor.HoldsLock]))
  exact ⟨_, _, hsecond, .put (List.nil_append _).symm, by decide, rfl, by decide, by decide,
    by decide⟩

end OneShotOPD.FullyAsync.Rollouter
