import Mathlib.Data.List.Perm.Basic
import Mathlib.Data.List.ReduceOption
import Mathlib.Tactic.Common

/-!
# The fully asynchronous rollouter

A feeder fills the pending queue, and the processor submits one task for each
sample, as long as the message queue has room and not too many samples are ahead
of the trainer.  A task generates its sample and puts it into the message queue,
from which the trainer takes it.  The steps are the stretches of code between two
await points.
-/

namespace OneShotOPD.FullyAsync

variable {Sample : Type}

/-! ## The message queue -/

/-- `put_sample`: a full queue drops its oldest sample. -/
def putSample (maxQueueSize : ℕ) (queue : List (Option Sample)) (sample : Option Sample) :
    List (Option Sample) × Bool :=
  if maxQueueSize ≤ queue.length then (queue.tail ++ [sample], false)
  else (queue ++ [sample], true)

namespace Rollouter

structure Config where
  maxRequiredSamples : ℕ

def Config.maxQueueSize (config : Config) : ℕ := config.maxRequiredSamples

def pendingQueueSize : ℕ := 128

structure Task (Sample : Type) where
  sample : Sample
  isPut : Bool

/-- Where `_processor_worker` stands, and after it the end of
`_streaming_generation_main`. -/
inductive Processor (Sample : Type) where
  | looping
  /-- `_should_pause_generation` waits for the size of the message queue. -/
  | statistics (queueSize : Option ℕ)
  | pausing
  | draining
  | taking
  /-- The number of active tasks has to be below its limit. -/
  | throttled (sample : Sample) (locked : Bool)
  | parked (sample : Sample)
  | submitting (sample : Sample)
  | finishing (locked : Bool)
  | finished
  | closed

/-- Where `reset_staleness` stands, which holds the lock unless it is idle. -/
inductive Reset where
  | idle
  | asking (activeTasks : ℕ)
  | answered (activeTasks queueSize : ℕ)

structure State (Sample : Type) where
  paused : Bool
  resumeEvent : Bool
  stalenessSamples : ℕ
  maxConcurrentSamples : ℕ
  fed : Bool
  pendingQueue : List (Option Sample)
  activeTasks : List (Task Sample)
  queue : List (Option Sample)
  droppedStaleSamples : ℕ
  processor : Processor Sample
  reset : Reset
  /-- The samples that have been taken from the pending queue. -/
  taken : List Sample
  /-- What the trainer has got. -/
  consumed : List (Option Sample)

def State.initial (maxConcurrentSamples : ℕ) : State Sample where
  paused := false
  resumeEvent := true
  stalenessSamples := 0
  maxConcurrentSamples := maxConcurrentSamples
  fed := false
  pendingQueue := []
  activeTasks := []
  queue := []
  droppedStaleSamples := 0
  processor := .looping
  reset := .idle
  taken := []
  consumed := []

def Processor.HoldsLock : Processor Sample → Prop
  | .throttled _ true => True
  | .finishing true => True
  | _ => False

/-- `self.lock` is held across an await point. -/
def State.Locked (state : State Sample) : Prop :=
  state.processor.HoldsLock ∨ state.reset ≠ .idle

def shouldPauseGeneration (config : Config) (queueSize stalenessSamples : ℕ) : Prop :=
  config.maxQueueSize ≤ queueSize ∨ config.maxRequiredSamples ≤ stalenessSamples

instance (config : Config) (queueSize stalenessSamples : ℕ) :
    Decidable (shouldPauseGeneration config queueSize stalenessSamples) :=
  inferInstanceAs (Decidable (_ ∨ _))

/-- Tasks that are done are removed from the active ones.  A task whose put has not
been answered yet may stay. -/
structure Reaps (tasks done rest : List (Task Sample)) : Prop where
  perm : tasks.Perm (done ++ rest)
  isPut : ∀ task ∈ done, task.isPut = true
  ne_nil : done ≠ []

inductive Event where
  | feed
  | endFeed
  | loop
  | answerStatistics
  | decide
  | pause
  | drain
  | resume
  | take
  | pass
  | acquire
  | reap
  | unpark
  | submit
  | finish
  | close
  | put
  | get
  | resetStaleness
  | answerQueueSize
  | writeStaleness
  | monitor
  | rescale
  deriving DecidableEq

def Processor.ofTaken : Option Sample → Processor Sample
  | some sample => .throttled sample false
  | none => .finishing false

inductive Step (config : Config) (state : State Sample) : Event → State Sample → Prop
  | feed (sample : Sample) (hfed : state.fed = false)
      (hroom : state.pendingQueue.length < pendingQueueSize) :
      Step config state .feed { state with
        pendingQueue := state.pendingQueue ++ [some sample] }
  | endFeed (hfed : state.fed = false)
      (hroom : state.pendingQueue.length < pendingQueueSize) :
      Step config state .endFeed { state with
        pendingQueue := state.pendingQueue ++ [none]
        fed := true }
  | loop (hprocessor : state.processor = .looping) :
      Step config state .loop { state with
        processor := if state.paused then .pausing else .statistics none }
  | answerStatistics (hprocessor : state.processor = .statistics none) :
      Step config state .answerStatistics { state with
        processor := .statistics (some state.queue.length) }
  | decide {queueSize : ℕ} (hprocessor : state.processor = .statistics (some queueSize)) :
      Step config state .decide { state with
        processor := if shouldPauseGeneration config queueSize state.stalenessSamples
          then .pausing else .taking }
  | pause (hprocessor : state.processor = .pausing) (hlock : ¬ state.Locked) :
      Step config state .pause { state with
        paused := true
        resumeEvent := false
        processor := .draining }
  | drain {done rest : List (Task Sample)} (hprocessor : state.processor = .draining)
      (hlock : ¬ state.Locked) (hreaps : Reaps state.activeTasks done rest) :
      Step config state .drain { state with activeTasks := rest }
  | resume (hprocessor : state.processor = .draining) (hresume : state.resumeEvent = true) :
      Step config state .resume { state with processor := .looping }
  | take {entry : Option Sample} {rest : List (Option Sample)}
      (hprocessor : state.processor = .taking) (hpending : state.pendingQueue = entry :: rest) :
      Step config state .take { state with
        pendingQueue := rest
        stalenessSamples := state.stalenessSamples + 1
        processor := .ofTaken entry
        taken := state.taken ++ entry.toList }
  | pass {sample : Sample} (hprocessor : state.processor = .throttled sample false)
      (hroom : state.activeTasks.length < state.maxConcurrentSamples) :
      Step config state .pass { state with
        processor := if state.paused then .parked sample else .submitting sample }
  /-- Replicas may have come while the processor was waiting for the lock. -/
  | acquireThrottled {sample : Sample} (hprocessor : state.processor = .throttled sample false)
      (hactive : state.activeTasks ≠ []) (hlock : ¬ state.Locked) :
      Step config state .acquire { state with processor := .throttled sample true }
  | reapThrottled {sample : Sample} {done rest : List (Task Sample)}
      (hprocessor : state.processor = .throttled sample true)
      (hreaps : Reaps state.activeTasks done rest) :
      Step config state .reap { state with
        activeTasks := rest
        processor := .throttled sample false }
  | unpark {sample : Sample} (hprocessor : state.processor = .parked sample)
      (hresume : state.resumeEvent = true) :
      Step config state .unpark { state with processor := .submitting sample }
  | submit {sample : Sample} (hprocessor : state.processor = .submitting sample)
      (hlock : ¬ state.Locked) :
      Step config state .submit { state with
        activeTasks := state.activeTasks ++ [⟨sample, false⟩]
        processor := .looping }
  | acquireFinishing (hprocessor : state.processor = .finishing false)
      (hactive : state.activeTasks ≠ []) (hlock : ¬ state.Locked) :
      Step config state .acquire { state with processor := .finishing true }
  | reapFinishing {done rest : List (Task Sample)}
      (hprocessor : state.processor = .finishing true)
      (hreaps : Reaps state.activeTasks done rest) :
      Step config state .reap { state with
        activeTasks := rest
        processor := .finishing false }
  | finish (hprocessor : state.processor = .finishing false)
      (hactive : state.activeTasks = []) :
      Step config state .finish { state with processor := .finished }
  /-- The end signal. -/
  | close (hprocessor : state.processor = .finished) (hfed : state.fed = true) :
      Step config state .close { state with
        queue := (putSample config.maxQueueSize state.queue none).1
        processor := .closed }
  | put {before after : List (Task Sample)} {sample : Sample}
      (hactive : state.activeTasks = before ++ ⟨sample, false⟩ :: after) :
      Step config state .put { state with
        activeTasks := before ++ ⟨sample, true⟩ :: after
        queue := (putSample config.maxQueueSize state.queue (some sample)).1
        droppedStaleSamples := state.droppedStaleSamples +
          if (putSample config.maxQueueSize state.queue (some sample)).2 then 0 else 1 }
  | get {entry : Option Sample} {rest : List (Option Sample)}
      (hqueue : state.queue = entry :: rest) :
      Step config state .get { state with
        queue := rest
        consumed := state.consumed ++ [entry] }
  | resetStaleness (hlock : ¬ state.Locked) :
      Step config state .resetStaleness { state with
        paused := false
        resumeEvent := true
        reset := .asking state.activeTasks.length }
  | answerQueueSize {activeTasks : ℕ} (hreset : state.reset = .asking activeTasks) :
      Step config state .answerQueueSize { state with
        reset := .answered activeTasks state.queue.length }
  | writeStaleness {activeTasks queueSize : ℕ}
      (hreset : state.reset = .answered activeTasks queueSize) :
      Step config state .writeStaleness { state with
        stalenessSamples := activeTasks + queueSize
        reset := .idle }
  /-- The monitor has read the counter and the queue at some time before. -/
  | monitor (hlock : ¬ state.Locked) :
      Step config state .monitor { state with
        paused := false
        resumeEvent := true }
  /-- Replicas come and go. -/
  | rescale {maxConcurrentSamples : ℕ}
      (hmax : maxConcurrentSamples ≤ config.maxRequiredSamples) :
      Step config state .rescale { state with maxConcurrentSamples }

/-- The runs in which every step is allowed. -/
inductive Run (config : Config) (allowed : State Sample → Event → Prop) :
    State Sample → Prop
  | start {maxConcurrentSamples : ℕ} (hmax : maxConcurrentSamples ≤ config.maxRequiredSamples) :
      Run config allowed (.initial maxConcurrentSamples)
  | step {state next : State Sample} {event : Event} (hrun : Run config allowed state)
      (hallowed : allowed state event) (hstep : Step config state event next) :
      Run config allowed next

end Rollouter

end OneShotOPD.FullyAsync
