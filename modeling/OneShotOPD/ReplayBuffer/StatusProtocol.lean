import OneShotOPD.ReplayBuffer.Async
import OneShotOPD.ReplayBuffer.Sync

/-!
# The status of a prompt

A worker runs the sessions of a prompt concurrently and publishes a terminal
status when all of them have settled.  The buffer polls the statuses, and a
group that it selects or clears is one whose sessions write nothing any more.
-/

namespace OneShotOPD.ReplayBuffer.StatusProtocol

open Checks

variable {Uid Tag R : Type} [DecidableEq Uid]

/-- A session writes the trajectories of its outputs, if it has any, and
returns. -/
inductive Session where
  | active
  | wrote (count : ℕ)
  | succeeded (count : ℕ)
  | failed
  deriving DecidableEq

def Session.Settled : Session → Prop
  | .succeeded _ => True
  | .failed => True
  | _ => False

instance : DecidablePred Session.Settled := fun session => by
  cases session <;> unfold Session.Settled <;> infer_instance

/-- The trajectories that the session has written and not lost. -/
def Session.written : Session → ℕ
  | .wrote count => count
  | .succeeded count => count
  | _ => 0

/-- Where the worker stands in `_run_prompt`.  It is aborted when an exception
is raised before all sessions are created. -/
inductive Stage where
  | unsubmitted
  | submitted
  | running (aborted : Bool) (sessions : List Session)
  | published (aborted : Bool) (sessions : List Session)

/-- The status that `_run_prompt` publishes in the end. -/
def finalStatus (aborted : Bool) (sessions : List Session) : Status :=
  if aborted ∨ .failed ∈ sessions then .failure else .finished

/-- `kv_put` of a status on a prompt that is there. -/
def putStatus (partition : Partition Uid Tag R) (uid : Uid) (status : Status) :
    Partition Uid Tag R :=
  match partition.prompts.get? uid with
  | some prompt => { partition with
      prompts := partition.prompts.insert uid { prompt with status } }
  | none => partition

/-- `kv_batch_put` of the trajectories of a session. -/
def putTrajectories (partition : Partition Uid Tag R) (uid : Uid) (sessionId : ℕ)
    (trajectories : List (Trajectory Tag R)) : Partition Uid Tag R :=
  { partition with
    trajectories := trajectories.zipIdx.foldl (fun dict trajectory =>
      dict.insert ⟨uid, sessionId, trajectory.2⟩ trajectory.1) partition.trajectories }

/-! ## What the buffer decides in a poll -/

/-- The groups that a poll evicts, selects and discards. -/
structure Decision (Uid Tag : Type) where
  evicted : Finset Uid
  selected : List Uid
  surplus : Finset Uid
  batch : Option (KVBatchMeta Uid Tag)

namespace Decision

def ofAsync : Async.Outcome Uid Tag → Decision Uid Tag
  | .evicted uids _ => ⟨uids, [], ∅, none⟩
  | .returned selected batch => ⟨∅, selected, ∅, some batch⟩
  | .waiting => ⟨∅, [], ∅, none⟩

def ofSync (polled : Sync.Polled Uid Tag R) : Decision Uid Tag :=
  match polled.outcome with
  | .returned selected batch surplus => ⟨polled.evicted, selected, surplus, some batch⟩
  | _ => ⟨polled.evicted, [], ∅, none⟩

def uids (decision : Decision Uid Tag) : Finset Uid :=
  decision.evicted ∪ decision.surplus ∪ decision.selected.toFinset

/-- The removal of the groups, with the trajectories that the snapshot knows of
those that are not selected. -/
def clear (snapshot : Partition Uid Tag R) (decision : Decision Uid Tag)
    (partition : Partition Uid Tag R) : Partition Uid Tag R :=
  (Partition.clearGroups snapshot (Partition.clearGroups snapshot partition decision.evicted)
    decision.surplus).kvClear decision.selected.toFinset []

end Decision

/-- A poll of either buffer, in any state of its own. -/
inductive Decides (config : BufferConfig Uid R) (args : SampleArgs)
    (snapshot : Partition Uid Tag R) : Decision Uid Tag → Prop
  | async {cache kept : Classifications Uid R} {outcome : Async.Outcome Uid Tag}
      (hpoll : Async.poll config args snapshot cache = .ok (outcome, kept)) :
      Decides config args snapshot (.ofAsync outcome)
  | sync {cache : Classifications Uid R} {loop : Sync.LoopState}
      {polled : Sync.Polled Uid Tag R}
      (hpoll : Sync.poll config args snapshot cache loop = .ok polled) :
      Decides config args snapshot (.ofSync polled)

/-! ## The system -/

structure State (Uid Tag R : Type) where
  queue : Partition Uid Tag R
  stages : Uid → Stage
  /-- A poll between its snapshot and the removal of its groups. -/
  decided : Option (Partition Uid Tag R × Decision Uid Tag)
  cleared : Finset Uid

/-- Nothing has been submitted yet. -/
def State.initial : State Uid Tag R := ⟨⟨.empty, .empty⟩, fun _ => .unsubmitted, none, ∅⟩

inductive Event (Uid : Type) where
  | submit (uid : Uid)
  | start (uid : Uid)
  | write (uid : Uid) (sessionId count : ℕ)
  | settle (uid : Uid) (sessionId : ℕ)
  | publish (uid : Uid)
  | poll
  | clear

inductive Step (config : BufferConfig Uid R) (state : State Uid Tag R) :
    Event Uid → State Uid Tag R → Prop
  | submit {uid : Uid} (globalSteps : ℤ) (hstage : state.stages uid = .unsubmitted) :
      Step config state (.submit uid) { state with
        queue := { state.queue with
          prompts := state.queue.prompts.insert uid ⟨.pending, globalSteps⟩ }
        stages := Function.update state.stages uid .submitted }
  | start {uid : Uid} (aborted : Bool) (sessions : ℕ)
      (hstage : state.stages uid = .submitted) :
      Step config state (.start uid) { state with
        queue := putStatus state.queue uid .running
        stages := Function.update state.stages uid
          (.running aborted (List.replicate sessions .active)) }
  | write {uid : Uid} {aborted : Bool} {sessions : List Session} {sessionId : ℕ}
      (trajectories : List (Trajectory Tag R))
      (hstage : state.stages uid = .running aborted sessions)
      (hsession : sessions[sessionId]? = some .active) :
      Step config state (.write uid sessionId trajectories.length) { state with
        queue := putTrajectories state.queue uid sessionId trajectories
        stages := Function.update state.stages uid
          (.running aborted (sessions.set sessionId (.wrote trajectories.length))) }
  | succeed {uid : Uid} {aborted : Bool} {sessions : List Session} {sessionId : ℕ}
      {session : Session} (hstage : state.stages uid = .running aborted sessions)
      (hsession : sessions[sessionId]? = some session) (hopen : ¬ session.Settled) :
      Step config state (.settle uid sessionId) { state with
        stages := Function.update state.stages uid
          (.running aborted (sessions.set sessionId (.succeeded session.written))) }
  | fail {uid : Uid} {aborted : Bool} {sessions : List Session} {sessionId : ℕ}
      {session : Session} (hstage : state.stages uid = .running aborted sessions)
      (hsession : sessions[sessionId]? = some session) (hopen : ¬ session.Settled) :
      Step config state (.settle uid sessionId) { state with
        stages := Function.update state.stages uid
          (.running aborted (sessions.set sessionId .failed)) }
  | publish {uid : Uid} {aborted : Bool} {sessions : List Session}
      (hstage : state.stages uid = .running aborted sessions)
      (hsettled : ∀ session ∈ sessions, session.Settled) :
      Step config state (.publish uid) { state with
        queue := putStatus state.queue uid (finalStatus aborted sessions)
        stages := Function.update state.stages uid (.published aborted sessions) }
  | poll (args : SampleArgs) {decision : Decision Uid Tag} (hidle : state.decided = none)
      (hdecides : Decides config args state.queue decision) :
      Step config state .poll { state with decided := some (state.queue, decision) }
  | clear {snapshot : Partition Uid Tag R} {decision : Decision Uid Tag}
      (hdecided : state.decided = some (snapshot, decision)) :
      Step config state .clear { state with
        queue := decision.clear snapshot state.queue
        decided := none
        cleared := state.cleared ∪ decision.uids }

inductive Run (config : BufferConfig Uid R) : State Uid Tag R → Prop
  | start : Run config .initial
  | step {state next : State Uid Tag R} {event : Event Uid} (hrun : Run config state)
      (hstep : Step config state event next) : Run config next

/-! ## What a poll decides -/

section Decisions

variable {config : BufferConfig Uid R} {args : SampleArgs} {snapshot : Partition Uid Tag R}
  {decision : Decision Uid Tag}

/-- Only groups with a terminal status are evicted, selected or discarded. -/
theorem Decides.uids_subset (hdecides : Decides config args snapshot decision) :
    decision.uids ⊆ snapshot.terminal := by
  cases hdecides with
  | @async _ _ outcome hpoll =>
      have hcleared := Async.cleared_subset_terminal hpoll
      cases outcome with
      | evicted uids refill =>
        simpa [Decision.uids, Decision.ofAsync, Async.Outcome.cleared] using hcleared
      | returned selected batch =>
        simpa [Decision.uids, Decision.ofAsync, Async.Outcome.cleared] using hcleared
      | waiting => simp [Decision.uids, Decision.ofAsync]
  | @sync _ _ polled hpoll =>
      obtain ⟨hevicted, hreturned⟩ := Sync.poll_eq_ok hpoll
      cases houtcome : polled.outcome with
      | returned selected batch surplus =>
          have hsubset := (hreturned _ _ _ houtcome).1.trans Finset.sdiff_subset
          simp only [Decision.uids, Decision.ofSync, houtcome]
          rw [Finset.union_assoc, Finset.union_comm surplus]
          exact Finset.union_subset hevicted hsubset
      | refill count => simpa [Decision.uids, Decision.ofSync, houtcome] using hevicted
      | waiting => simpa [Decision.uids, Decision.ofSync, houtcome] using hevicted

/-- The batch has every trajectory that the snapshot has of a selected group. -/
theorem Decides.mem_batch (hdecides : Decides config args snapshot decision)
    {batch : KVBatchMeta Uid Tag} (hbatch : decision.batch = some batch)
    {key : TrajectoryKey Uid} (hkey : key ∈ snapshot.trajectories.keys)
    (hselected : key.uid ∈ decision.selected) : key ∈ batch.keys := by
  cases hdecides with
  | @async _ _ outcome hpoll =>
      cases outcome with
      | returned selected found =>
          obtain rfl := Option.some.inj hbatch
          rw [(Async.poll_eq_ok hpoll).2]
          exact mem_keys_materializeBatch.mpr ⟨hkey, hselected⟩
      | evicted uids refill => cases hbatch
      | waiting => cases hbatch
  | @sync _ _ polled hpoll =>
      cases houtcome : polled.outcome with
      | returned selected found surplus =>
          simp only [Decision.ofSync, houtcome] at hbatch hselected
          obtain rfl := Option.some.inj hbatch
          obtain ⟨hsubset, rfl⟩ := (Sync.poll_eq_ok hpoll).2 _ _ _ houtcome
          have hkept := (Finset.mem_sdiff.mp (hsubset (Finset.mem_union_left _
            (List.mem_toFinset.mpr hselected)))).2
          refine mem_keys_materializeBatch.mpr ⟨?_, hselected⟩
          simp [Partition.clearGroups, Partition.kvClear, Partition.trajectoryKeys, hkey, hkept]
      | refill count => simp [Decision.ofSync, houtcome] at hbatch
      | waiting => simp [Decision.ofSync, houtcome] at hbatch

end Decisions

/-! ## What a write does to the queue -/

theorem get?_putStatus_of_ne (partition : Partition Uid Tag R) {uid other : Uid}
    (status : Status) (hne : other ≠ uid) :
    (putStatus partition uid status).prompts.get? other = partition.prompts.get? other := by
  rw [putStatus]
  split
  next => exact Dict.get?_insert_of_ne _ _ hne
  next => rfl

theorem mem_keys_putStatus (partition : Partition Uid Tag R) (uid other : Uid)
    (status : Status) :
    other ∈ (putStatus partition uid status).prompts.keys ↔ other ∈ partition.prompts.keys := by
  rw [putStatus]
  split
  next prompt hprompt =>
    have hmem := (Dict.get?_isSome_iff _ _).mp (Option.isSome_iff_exists.mpr ⟨_, hprompt⟩)
    rw [Dict.keys_insert_of_mem _ _ hmem]
  next => rfl

theorem trajectories_putStatus (partition : Partition Uid Tag R) (uid : Uid) (status : Status) :
    (putStatus partition uid status).trajectories = partition.trajectories := by
  rw [putStatus]
  split <;> rfl

/-- A prompt with a status that is not terminal is not terminal. -/
theorem isTerminal_of_mem_terminal_putStatus {partition : Partition Uid Tag R} {uid : Uid}
    {status : Status} (hmem : uid ∈ partition.prompts.keys)
    (hterminal : uid ∈ (putStatus partition uid status).terminal) : status.IsTerminal := by
  obtain ⟨prompt, hentry, hprompt⟩ := Partition.mem_terminal.mp hterminal
  obtain ⟨old, hold⟩ := Option.isSome_iff_exists.mp ((Dict.get?_isSome_iff _ _).mpr hmem)
  rw [← Dict.get?_eq_some_iff, putStatus, hold] at hentry
  simp only [Dict.get?_insert_self, Option.some.injEq] at hentry
  rwa [← hentry] at hprompt

theorem mem_keys_putTrajectories (partition : Partition Uid Tag R) (uid : Uid) (sessionId : ℕ)
    (trajectories : List (Trajectory Tag R)) (key : TrajectoryKey Uid) :
    key ∈ (putTrajectories partition uid sessionId trajectories).trajectories.keys ↔
      (∃ index < trajectories.length, key = ⟨uid, sessionId, index⟩) ∨
        key ∈ partition.trajectories.keys := by
  have hfold : ∀ (pairs : List (Trajectory Tag R × ℕ))
      (dict : Dict (TrajectoryKey Uid) (Trajectory Tag R)),
      key ∈ (pairs.foldl (fun dict trajectory =>
        dict.insert ⟨uid, sessionId, trajectory.2⟩ trajectory.1) dict).keys ↔
        (∃ pair ∈ pairs, key = ⟨uid, sessionId, pair.2⟩) ∨ key ∈ dict.keys := by
    intro pairs
    induction pairs with
    | nil => simp
    | cons pair pairs ih =>
        intro dict
        rw [List.foldl_cons, ih, Dict.mem_keys_insert, List.exists_mem_cons_iff,
          or_assoc]
        exact or_left_comm
  rw [putTrajectories, hfold]
  refine or_congr_left ⟨?_, ?_⟩
  · rintro ⟨⟨trajectory, index⟩, hpair, rfl⟩
    exact ⟨index, (List.mem_zipIdx_iff_getElem?.mp hpair |> fun hget =>
      (List.getElem?_eq_some_iff.mp hget).1), rfl⟩
  · rintro ⟨index, hindex, rfl⟩
    exact ⟨⟨trajectories[index], index⟩,
      List.mem_zipIdx_iff_getElem?.mpr (List.getElem?_eq_getElem hindex), rfl⟩

theorem mem_keys_clear {snapshot partition : Partition Uid Tag R} {decision : Decision Uid Tag}
    {uid : Uid} :
    uid ∈ (decision.clear snapshot partition).prompts.keys ↔
      uid ∈ partition.prompts.keys ∧ uid ∉ decision.uids := by
  simp only [Decision.clear, Decision.uids, Partition.clearGroups, Partition.mem_keys_kvClear,
    Finset.mem_union, not_or, and_assoc]

theorem terminal_clear (snapshot partition : Partition Uid Tag R)
    (decision : Decision Uid Tag) :
    (decision.clear snapshot partition).terminal = partition.terminal \ decision.uids := by
  simp only [Decision.clear, Decision.uids, Partition.clearGroups, Partition.terminal,
    Partition.withStatus_kvClear, ← Finset.union_sdiff_distrib, sdiff_sdiff, Finset.sup_eq_union]

/-- The removal of groups leaves the trajectories of the others. -/
theorem mem_trajectories_clear {snapshot partition : Partition Uid Tag R}
    {decision : Decision Uid Tag} {key : TrajectoryKey Uid} (huid : key.uid ∉ decision.uids)
    (hkey : key ∈ partition.trajectories.keys) :
    key ∈ (decision.clear snapshot partition).trajectories.keys := by
  simp only [Decision.uids, Finset.mem_union, not_or] at huid
  simp [Decision.clear, Partition.clearGroups, Partition.kvClear, Partition.trajectoryKeys,
    hkey, huid]

/-! ## The invariant -/

def Stage.sessions : Stage → List Session
  | .running _ sessions => sessions
  | .published _ sessions => sessions
  | _ => []

/-- The worker has published the status, and all sessions have settled. -/
def Stage.Done : Stage → Prop
  | .published _ sessions => ∀ session ∈ sessions, session.Settled
  | _ => False

def Stage.Open : Stage → Prop
  | .submitted => True
  | .running _ _ => True
  | _ => False

theorem Stage.Open.not_done {stage : Stage} (hopen : stage.Open) : ¬ stage.Done := by
  cases stage <;> simp [Stage.Open, Stage.Done] at *

/-- The trajectories that a group has written are among the keys. -/
def Stage.Kept (uid : Uid) (keys : List (TrajectoryKey Uid)) (stage : Stage) : Prop :=
  ∀ sessionId session, stage.sessions[sessionId]? = some session →
    ∀ index < session.written, (⟨uid, sessionId, index⟩ : TrajectoryKey Uid) ∈ keys

/-- What is true of every prompt group. -/
structure Coherent (state : State Uid Tag R) (uid : Uid) : Prop where
  terminal : uid ∈ state.queue.terminal → (state.stages uid).Done
  present : (state.stages uid).Open → uid ∈ state.queue.prompts.keys
  cleared : uid ∈ state.cleared →
    (state.stages uid).Done ∧ uid ∉ state.queue.prompts.keys
  kept : uid ∉ state.cleared →
    (state.stages uid).Kept uid state.queue.trajectories.keys
  decided : ∀ snapshot decision, state.decided = some (snapshot, decision) →
    (uid ∈ decision.uids → (state.stages uid).Done) ∧
    (uid ∈ decision.selected → ∀ batch, decision.batch = some batch →
      (state.stages uid).Kept uid batch.keys)

/-! ## Every step keeps it -/

section Preserved

variable {config : BufferConfig Uid R} {state next : State Uid Tag R}

/-- A group that no event is about stays as it is. -/
theorem Coherent.frame {uid : Uid} (hcoherent : Coherent state uid)
    {queue : Partition Uid Tag R} {stages : Uid → Stage}
    (hstage : stages uid = state.stages uid)
    (hprompt : queue.prompts.get? uid = state.queue.prompts.get? uid)
    (htrajectories : ∀ key ∈ state.queue.trajectories.keys, key ∈ queue.trajectories.keys) :
    Coherent { state with queue, stages } uid := by
  constructor <;> dsimp only <;> rw [hstage]
  case terminal =>
    intro hterminal
    obtain ⟨prompt, hentry, hstatus⟩ := Partition.mem_terminal.mp hterminal
    rw [← Dict.get?_eq_some_iff, hprompt, Dict.get?_eq_some_iff] at hentry
    exact hcoherent.terminal (Partition.mem_terminal.mpr ⟨prompt, hentry, hstatus⟩)
  case present =>
    rw [← Dict.get?_isSome_iff, hprompt, Dict.get?_isSome_iff]
    exact hcoherent.present
  case cleared =>
    rw [← Dict.get?_isSome_iff, hprompt, Dict.get?_isSome_iff]
    exact hcoherent.cleared
  case kept =>
    intro huid sessionId session hsession index hindex
    exact htrajectories _ (hcoherent.kept huid sessionId session hsession index hindex)
  case decided => exact hcoherent.decided

/-- A group whose sessions may still write is neither cleared nor decided on. -/
theorem Coherent.advance {uid : Uid} (hcoherent : Coherent state uid)
    (hopen : ¬ (state.stages uid).Done) {queue : Partition Uid Tag R} {stages : Uid → Stage}
    (hterminal : uid ∈ queue.terminal → (stages uid).Done)
    (hpresent : uid ∈ queue.prompts.keys)
    (hkept : (stages uid).Kept uid queue.trajectories.keys) :
    Coherent { state with queue, stages } uid where
  terminal := hterminal
  present := fun _ => hpresent
  cleared := fun huid => absurd (hcoherent.cleared huid).1 hopen
  kept := fun _ => hkept
  decided := fun snapshot decision hdecided => by
    have huids : uid ∉ decision.uids := fun huid =>
      hopen ((hcoherent.decided snapshot decision hdecided).1 huid)
    refine ⟨fun huid => absurd huid huids, fun hselected => absurd ?_ huids⟩
    exact Finset.mem_union_right _ (List.mem_toFinset.mpr hselected)

/-- The worker advances one group: what it has to show is about this group. -/
theorem coherent_work (hcoherent : ∀ uid, Coherent state uid) {uid : Uid}
    (hopen : ¬ (state.stages uid).Done) (queue : Partition Uid Tag R) (stage : Stage)
    (hframe : ∀ other, other ≠ uid → queue.prompts.get? other = state.queue.prompts.get? other)
    (htrajectories : ∀ key ∈ state.queue.trajectories.keys, key ∈ queue.trajectories.keys)
    (hterminal : uid ∈ queue.terminal → stage.Done) (hpresent : uid ∈ queue.prompts.keys)
    (hkept : stage.Kept uid queue.trajectories.keys) (other : Uid) :
    Coherent { state with queue, stages := Function.update state.stages uid stage } other := by
  by_cases hother : other = uid
  · subst hother
    apply (hcoherent other).advance hopen _ hpresent <;> rw [Function.update_self]
    · exact hkept
    · exact hterminal
  · exact (hcoherent other).frame (Function.update_of_ne hother _ _) (hframe other hother)
      htrajectories

/-- A status that is not terminal, or published at the end. -/
theorem coherent_putStatus (hcoherent : ∀ uid, Coherent state uid) {uid : Uid}
    (hopen : (state.stages uid).Open) (status : Status) (stage : Stage)
    (hstatus : status.IsTerminal → stage.Done)
    (hsessions : stage.Kept uid state.queue.trajectories.keys) (other : Uid) :
    Coherent { state with
      queue := putStatus state.queue uid status
      stages := Function.update state.stages uid stage } other := by
  have hpresent := (hcoherent uid).present hopen
  refine coherent_work hcoherent hopen.not_done _ _
    (fun other hother => get?_putStatus_of_ne _ _ hother) ?_
    (fun hterminal => hstatus (isTerminal_of_mem_terminal_putStatus hpresent hterminal))
    ((mem_keys_putStatus _ _ _ _).mpr hpresent) ?_ other
  · rw [trajectories_putStatus]
    exact fun _ hkey => hkey
  · rwa [trajectories_putStatus]

omit [DecidableEq Uid] in
/-- A session that moves keeps what the others have written. -/
theorem Stage.Kept.set {uid : Uid} {keys : List (TrajectoryKey Uid)} {aborted : Bool}
    {sessions : List Session} {sessionId : ℕ} {session : Session}
    (hkept : (Stage.running aborted sessions).Kept uid keys)
    (hwritten : ∀ index < session.written, (⟨uid, sessionId, index⟩ : TrajectoryKey Uid) ∈ keys) :
    (Stage.running aborted (sessions.set sessionId session)).Kept uid keys := by
  intro other found hfound
  simp only [Stage.sessions, List.getElem?_set] at hfound
  split at hfound
  next heq =>
    subst heq
    split at hfound
    next =>
      obtain rfl := Option.some.inj hfound
      exact hwritten
    next => cases hfound
  next => exact hkept other found hfound

theorem Coherent.submit (hcoherent : ∀ uid, Coherent state uid) {uid : Uid} (globalSteps : ℤ)
    (hstage : state.stages uid = .unsubmitted) (other : Uid) :
    Coherent { state with
      queue := { state.queue with
        prompts := state.queue.prompts.insert uid ⟨.pending, globalSteps⟩ }
      stages := Function.update state.stages uid .submitted } other := by
  have hopen : ¬ (state.stages uid).Done := by simp [hstage, Stage.Done]
  refine coherent_work hcoherent hopen { state.queue with
      prompts := state.queue.prompts.insert uid ⟨.pending, globalSteps⟩ } .submitted
    (fun other hother => Dict.get?_insert_of_ne _ _ hother) (fun _ hkey => hkey)
    (fun hterminal => ?_) ((Dict.mem_keys_insert _ _ _ _).mpr (.inl rfl))
    (by simp [Stage.Kept, Stage.sessions]) other
  obtain ⟨prompt, hentry, hprompt⟩ := Partition.mem_terminal.mp hterminal
  rw [← Dict.get?_eq_some_iff, Dict.get?_insert_self] at hentry
  obtain rfl := Option.some.inj hentry
  simp [Status.IsTerminal] at hprompt

theorem Coherent.write (hcoherent : ∀ uid, Coherent state uid) {uid : Uid} {aborted : Bool}
    {sessions : List Session} {sessionId : ℕ} (trajectories : List (Trajectory Tag R))
    (hstage : state.stages uid = .running aborted sessions) (other : Uid) :
    Coherent { state with
      queue := putTrajectories state.queue uid sessionId trajectories
      stages := Function.update state.stages uid
        (.running aborted (sessions.set sessionId (.wrote trajectories.length))) } other := by
  have hopen : (state.stages uid).Open := by simp [hstage, Stage.Open]
  have hkeys : ∀ key ∈ state.queue.trajectories.keys,
      key ∈ (putTrajectories state.queue uid sessionId trajectories).trajectories.keys :=
    fun key hkey => (mem_keys_putTrajectories _ _ _ _ _).mpr (.inr hkey)
  have hkept := (hcoherent uid).kept fun huid =>
    hopen.not_done ((hcoherent uid).cleared huid).1
  rw [hstage] at hkept
  refine coherent_work hcoherent hopen.not_done
    (putTrajectories state.queue uid sessionId trajectories) _ (fun _ _ => rfl) hkeys
    (fun hterminal => absurd ((hcoherent uid).terminal hterminal) hopen.not_done)
    ((hcoherent uid).present hopen) (Stage.Kept.set ?_ fun index hindex => ?_) other
  · exact fun sessionId session hsession index hindex =>
      hkeys _ (hkept sessionId session hsession index hindex)
  · exact (mem_keys_putTrajectories _ _ _ _ _).mpr (.inl ⟨index, hindex, rfl⟩)

/-- A session that settles has written no more than before. -/
theorem Coherent.settle (hcoherent : ∀ uid, Coherent state uid) {uid : Uid} {aborted : Bool}
    {sessions : List Session} {sessionId : ℕ} {session settled : Session}
    (hstage : state.stages uid = .running aborted sessions)
    (hsession : sessions[sessionId]? = some session)
    (hwritten : settled.written ≤ session.written) (other : Uid) :
    Coherent { state with
      stages := Function.update state.stages uid
        (.running aborted (sessions.set sessionId settled)) } other := by
  have hopen : (state.stages uid).Open := by simp [hstage, Stage.Open]
  have hkept := (hcoherent uid).kept fun huid =>
    hopen.not_done ((hcoherent uid).cleared huid).1
  rw [hstage] at hkept
  exact coherent_work hcoherent hopen.not_done _ _ (fun _ _ => rfl) (fun _ hkey => hkey)
    (fun hterminal => absurd ((hcoherent uid).terminal hterminal) hopen.not_done)
    ((hcoherent uid).present hopen) (hkept.set fun index hindex =>
      hkept sessionId session hsession index (hindex.trans_le hwritten)) other

theorem Coherent.poll {args : SampleArgs} {decision : Decision Uid Tag}
    (hcoherent : ∀ uid, Coherent state uid)
    (hdecides : Decides config args state.queue decision) (uid : Uid) :
    Coherent { state with decided := some (state.queue, decision) } uid := by
  refine { hcoherent uid with decided := fun snapshot found hfound => ?_ }
  obtain ⟨rfl, rfl⟩ := Prod.mk.inj (Option.some.inj hfound)
  refine ⟨fun huid => (hcoherent uid).terminal (hdecides.uids_subset huid),
    fun hselected batch hbatch sessionId session hsession index hindex => ?_⟩
  have hterminal := hdecides.uids_subset
    (Finset.mem_union_right _ (List.mem_toFinset.mpr hselected))
  have hcleared : uid ∉ state.cleared := fun huid =>
    ((hcoherent uid).cleared huid).2 (Partition.mem_keys_of_mem_terminal hterminal)
  exact hdecides.mem_batch hbatch
    ((hcoherent uid).kept hcleared sessionId session hsession index hindex) hselected

theorem Coherent.clear {snapshot : Partition Uid Tag R} {decision : Decision Uid Tag}
    (hcoherent : ∀ uid, Coherent state uid)
    (hdecided : state.decided = some (snapshot, decision)) (uid : Uid) :
    Coherent { state with
      queue := decision.clear snapshot state.queue
      decided := none
      cleared := state.cleared ∪ decision.uids } uid where
  terminal := fun hterminal => by
    rw [terminal_clear] at hterminal
    exact (hcoherent uid).terminal (Finset.mem_sdiff.mp hterminal).1
  present := fun hopen => mem_keys_clear.mpr ⟨(hcoherent uid).present hopen, fun huid =>
    hopen.not_done (((hcoherent uid).decided _ _ hdecided).1 huid)⟩
  cleared := fun huid => by
    rw [mem_keys_clear]
    rcases Finset.mem_union.mp huid with hcleared | hnew
    · exact ⟨((hcoherent uid).cleared hcleared).1,
        fun hmem => ((hcoherent uid).cleared hcleared).2 hmem.1⟩
    · exact ⟨((hcoherent uid).decided _ _ hdecided).1 hnew, fun hmem => hmem.2 hnew⟩
  kept := fun huid sessionId session hsession index hindex => by
    rw [Finset.mem_union, not_or] at huid
    exact mem_trajectories_clear huid.2
      ((hcoherent uid).kept huid.1 sessionId session hsession index hindex)
  decided := fun _ _ hnone => nomatch hnone

theorem Coherent.step {event : Event Uid} (hcoherent : ∀ uid, Coherent state uid)
    (hstep : Step config state event next) (uid : Uid) : Coherent next uid := by
  cases hstep with
  | submit globalSteps hstage => exact Coherent.submit hcoherent globalSteps hstage uid
  | start aborted sessions hstage =>
      have hnot : ¬ Status.IsTerminal .running := by decide
      refine coherent_putStatus hcoherent (by simp [hstage, Stage.Open]) .running
        (.running aborted _) (fun hterminal => absurd hterminal hnot) ?_ uid
      intro sessionId session hsession index hindex
      obtain rfl := List.eq_of_mem_replicate (List.mem_of_getElem? hsession)
      exact absurd hindex (Nat.not_lt_zero index)
  | write trajectories hstage hsession => exact Coherent.write hcoherent trajectories hstage uid
  | @succeed _ _ _ _ session hstage hsession hopen =>
      have hwritten : (Session.succeeded session.written).written ≤ session.written := le_rfl
      exact Coherent.settle hcoherent hstage hsession hwritten uid
  | fail hstage hsession hopen =>
      exact Coherent.settle hcoherent hstage hsession (Nat.zero_le _) uid
  | @publish uid aborted sessions hstage hsettled =>
      have hopen : (state.stages uid).Open := by simp [hstage, Stage.Open]
      have hkept := (hcoherent uid).kept fun huid =>
        hopen.not_done ((hcoherent uid).cleared huid).1
      rw [hstage] at hkept
      exact coherent_putStatus hcoherent hopen _ (.published aborted sessions)
        (fun _ => hsettled) hkept _
  | poll args hidle hdecides => exact Coherent.poll hcoherent hdecides uid
  | clear hdecided => exact Coherent.clear hcoherent hdecided uid

theorem Run.coherent (hrun : Run config state) (uid : Uid) : Coherent state uid := by
  induction hrun generalizing uid with
  | start =>
      constructor
      case terminal =>
        intro hterminal
        exact absurd (Partition.mem_keys_of_mem_terminal hterminal) List.not_mem_nil
      case present => exact fun hopen => False.elim hopen
      case cleared => exact fun huid => absurd huid (Finset.notMem_empty uid)
      case kept => simp [Stage.Kept, State.initial, Stage.sessions]
      case decided => exact fun _ _ hnone => nomatch hnone
  | step _ hstep ih => exact Coherent.step ih hstep uid

end Preserved

/-- In every state of every run, the groups that a poll evicts, selects or discards
and those that are cleared have a published status and only settled sessions.  So
no trajectory of a cleared group is written, and the batch has all trajectories of
the successful sessions of a selected group. -/
theorem settled_before_cleared (config : BufferConfig Uid R) {state : State Uid Tag R}
    (hrun : Run config state) :
    (∀ snapshot decision, state.decided = some (snapshot, decision) →
      ∀ uid ∈ decision.uids, (state.stages uid).Done) ∧
    (∀ uid ∈ state.cleared, (state.stages uid).Done) ∧
    (∀ uid sessionId count next, Step config state (.write uid sessionId count) next →
      uid ∉ state.cleared) ∧
    ∀ snapshot decision batch, state.decided = some (snapshot, decision) →
      decision.batch = some batch → ∀ uid ∈ decision.selected, ∀ sessionId count,
        (state.stages uid).sessions[sessionId]? = some (.succeeded count) →
          ∀ index < count, (⟨uid, sessionId, index⟩ : TrajectoryKey Uid) ∈ batch.keys := by
  refine ⟨fun snapshot decision hdecided uid => ((hrun.coherent uid).decided _ _ hdecided).1,
    fun uid huid => ((hrun.coherent uid).cleared huid).1, ?_, ?_⟩
  · intro uid sessionId count next hstep huid
    have hdone := ((hrun.coherent uid).cleared huid).1
    cases hstep with
    | write trajectories hstage hsession => simp [hstage, Stage.Done] at hdone
  · intro snapshot decision batch hdecided hbatch uid hselected sessionId count hsession
    exact ((hrun.coherent uid).decided _ _ hdecided).2 hselected batch hbatch sessionId _ hsession

/-- A failed group, one of whose sessions has succeeded. -/
def failedQueue (status : Status) : Partition Bool Unit ℕ where
  prompts := ⟨[(true, ⟨status, 0⟩)], List.nodup_singleton _⟩
  trajectories := ⟨[(⟨true, 0, 0⟩, ⟨(), none⟩)], List.nodup_singleton _⟩

/-- One session of the prompt writes and succeeds, and the other one fails. -/
theorem failedSession_settled_before_cleared :
    ∃ (state : State Bool Unit ℕ) (snapshot : Partition Bool Unit ℕ)
      (decision : Decision Bool Unit) (batch : KVBatchMeta Bool Unit),
      Run Async.twoGroupsConfig state ∧ state.decided = some (snapshot, decision) ∧
        decision.batch = some batch ∧ (state.stages true).sessions = [.succeeded 1, .failed] ∧
          (⟨true, 0, 0⟩ : TrajectoryKey Bool) ∈ batch.keys := by
  let args : SampleArgs := ⟨0, "val", 1⟩
  obtain ⟨running, hrunning, hstage, hqueue, hidle⟩ : ∃ state : State Bool Unit ℕ,
      Run Async.twoGroupsConfig state ∧
        state.stages true = .running false [.succeeded 1, .failed] ∧
          state.queue = failedQueue .running ∧ state.decided = none := by
    have hstart : Run Async.twoGroupsConfig (State.initial : State Bool Unit ℕ) := .start
    have hsubmit := hstart.step (.submit 0 rfl : Step _ _ (.submit true) _)
    have hrun := hsubmit.step (.start false 2 rfl : Step _ _ (.start true) _)
    have hwrite := hrun.step (.write [⟨(), none⟩] rfl rfl : Step _ _ (.write true 0 1) _)
    have hsucceed := hwrite.step (.succeed rfl rfl (by decide) : Step _ _ (.settle true 0) _)
    have hfail := hsucceed.step (.fail rfl rfl (by decide) : Step _ _ (.settle true 1) _)
    exact ⟨_, hfail, rfl, rfl, rfl⟩
  have hfailed : putStatus running.queue true
      (finalStatus false [.succeeded 1, .failed]) = failedQueue .failure := by
    rw [hqueue]
    rfl
  let selected := selectPromptUids Async.twoGroupsConfig (failedQueue .failure) {true} 1
  have hselected : selected = [true] := by
    simp [selected, selectPromptUids, Async.twoGroupsConfig]
  have hsample : Sync.poll Async.twoGroupsConfig args (failedQueue .failure) .empty ⟨0, false⟩ =
      .ok ⟨∅, {true}, 0, (failedQueue .failure).materializableUids, .returned selected
        (materializeBatch "val" selected (failedQueue .failure)) ∅, ⟨0, false⟩, .empty⟩ := rfl
  have hpublish := hrunning.step (.publish hstage (by decide))
  rw [hfailed] at hpublish
  have hpoll := hpublish.step (.poll args hidle (.sync hsample))
  refine ⟨_, _, _, _, hpoll, rfl, rfl, by simp [Stage.sessions], ?_⟩
  refine (settled_before_cleared _ hpoll).2.2.2 _ _ _ rfl rfl true ?_ 0 1 ?_ 0 (by decide)
  · simp [Decision.ofSync, hselected]
  · simp [Stage.sessions]

end OneShotOPD.ReplayBuffer.StatusProtocol
