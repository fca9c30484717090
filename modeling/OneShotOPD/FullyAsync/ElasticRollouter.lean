import OneShotOPD.FullyAsync.Rollouter
import OneShotOPD.FullyAsync.ServerManager

/-!
# The rollouter with replicas that come and go

Each change of the replicas changes the number of samples that may be generated at a
time.  The processor waits while the pool is full: in each round it takes the lock and
waits for a task to end, if there is one.  A round that finds neither a lock to wait for
nor a task gives no other coroutine the chance to run.
-/

namespace OneShotOPD.FullyAsync

open Rollouter

structure ElasticConfig where
  config : Config
  concurrentSamplesPerReplica : ℕ

structure ElasticState (RequestId Replica Handle Sample : Type) where
  rollouter : State Sample
  manager : ServerManager RequestId Replica Handle
  /-- The processor found the pool full, and waits for the lock. -/
  awaitsLock : Bool

namespace ElasticState

variable {RequestId Replica Handle Sample : Type} [DecidableEq Replica]

/-- `max_concurrent_samples` for the replicas of the manager. -/
def capacity (config : ElasticConfig) (manager : ServerManager RequestId Replica Handle) : ℕ :=
  min (manager.rolloutReplicas.length * config.concurrentSamplesPerReplica)
    config.config.maxRequiredSamples

def initial (config : ElasticConfig) (deployment : Deployment Replica Handle)
    (maxCacheSize : ℕ) : ElasticState RequestId Replica Handle Sample where
  rollouter := .initial (capacity config
    (ServerManager.create deployment maxCacheSize : ServerManager RequestId Replica Handle))
  manager := .create deployment maxCacheSize
  awaitsLock := false

variable (state : ElasticState RequestId Replica Handle Sample)

def updateMaxConcurrentSamples (config : ElasticConfig) :
    ElasticState RequestId Replica Handle Sample :=
  { state with rollouter := { state.rollouter with
      maxConcurrentSamples := capacity config state.manager } }

/-- The manager after a call, which has changed `n` replicas. -/
def scaled (config : ElasticConfig)
    (outcome : ℕ × ServerManager RequestId Replica Handle) :
    ElasticState RequestId Replica Handle Sample :=
  if 0 < outcome.1 then
    updateMaxConcurrentSamples { state with manager := outcome.2 } config
  else { state with manager := outcome.2 }

def scale (config : ElasticConfig) (deployment : Deployment Replica Handle) :
    ServerManager.Call → ElasticState RequestId Replica Handle Sample
  | .addReplicas resourceIds rpc =>
      scaled state config (state.manager.addReplicas deployment rpc resourceIds)
  | .removeReplicas resourceIds rpc =>
      scaled state config (state.manager.removeReplicas rpc resourceIds)

/-- The processor is in the loop that waits for capacity. -/
def InCapacityWait : Prop :=
  ∃ sample locked, state.rollouter.processor = .throttled sample locked

/-- Other coroutines run only while the processor awaits something. -/
def Suspended : Prop :=
  ∀ sample, state.rollouter.processor = .throttled sample false → state.awaitsLock = true

def Full : Prop := state.rollouter.maxConcurrentSamples ≤ state.rollouter.activeTasks.length

end ElasticState

inductive ElasticEvent (Sample : Type) where
  /-- With the tasks that are active behind it. -/
  | rollouter (event : Event) (activeTasks : List (Rollouter.Task Sample))
  | pass
  | acquire
  | awaitLock
  | recheck
  | spin
  | scale (call : ServerManager.Call)

namespace ElasticState

variable {RequestId Replica Handle Sample : Type} [DecidableEq Replica]

inductive Step (config : ElasticConfig) (deployment : Deployment Replica Handle)
    (state : ElasticState RequestId Replica Handle Sample) :
    ElasticEvent Sample → ElasticState RequestId Replica Handle Sample → Prop
  /-- The other coroutines, and the processor outside of the head of the loop. -/
  | rollouter {event : Event} {next : State Sample} (hsuspended : state.Suspended)
      (hscale : event ≠ .rescale)
      (hprocessor : ∀ sample, state.rollouter.processor = .throttled sample false →
        event ≠ .pass ∧ event ≠ .acquire)
      (hstep : Rollouter.Step config.config state.rollouter event next) :
      Step config deployment state (.rollouter event next.activeTasks)
        { state with rollouter := next }
  | pass {next : State Sample} (hrunning : state.awaitsLock = false)
      (hstep : Rollouter.Step config.config state.rollouter .pass next) :
      Step config deployment state .pass { state with rollouter := next }
  | acquire {sample : Sample} {next : State Sample}
      (hprocessor : state.rollouter.processor = .throttled sample false)
      (hfull : state.awaitsLock = true ∨ state.Full)
      (hstep : Rollouter.Step config.config state.rollouter .acquire next) :
      Step config deployment state .acquire
        { state with rollouter := next, awaitsLock := false }
  | awaitLock {sample : Sample}
      (hprocessor : state.rollouter.processor = .throttled sample false)
      (hrunning : state.awaitsLock = false) (hfull : state.Full)
      (hlock : state.rollouter.Locked) :
      Step config deployment state .awaitLock { state with awaitsLock := true }
  /-- The lock is there, and all tasks are gone. -/
  | recheck (hawaits : state.awaitsLock = true) (hactive : state.rollouter.activeTasks = [])
      (hlock : ¬ state.rollouter.Locked) :
      Step config deployment state .recheck { state with awaitsLock := false }
  /-- A round that awaits nothing. -/
  | spin {sample : Sample}
      (hprocessor : state.rollouter.processor = .throttled sample false)
      (hrunning : state.awaitsLock = false) (hfull : state.Full)
      (hactive : state.rollouter.activeTasks = []) (hlock : ¬ state.rollouter.Locked) :
      Step config deployment state .spin state
  | scale (call : ServerManager.Call) (hsuspended : state.Suspended) :
      Step config deployment state (.scale call) (state.scale config deployment call)

/-- The runs, with the states that they pass and the events there. -/
inductive Run (config : ElasticConfig) (deployment : Deployment Replica Handle) :
    List (ElasticState RequestId Replica Handle Sample × ElasticEvent Sample) →
      ElasticState RequestId Replica Handle Sample → Prop
  | start (maxCacheSize : ℕ) : Run config deployment [] (initial config deployment maxCacheSize)
  | step {trace : List (ElasticState RequestId Replica Handle Sample × ElasticEvent Sample)}
      {state next : ElasticState RequestId Replica Handle Sample} {event : ElasticEvent Sample}
      (hrun : Run config deployment trace state)
      (hstep : Step config deployment state event next) :
      Run config deployment (trace ++ [(state, event)]) next

end ElasticState

end OneShotOPD.FullyAsync
