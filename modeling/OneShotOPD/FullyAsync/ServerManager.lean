import OneShotOPD.Rollout.LoadBalancer

/-!
# The elastic server manager

Hybrid replicas are bound at the start and sleep.  Adding one registers its server with
the load balancer and enters it into the lists of the manager, removing it takes it out
of them again.  The calls to the balancer may fail.
-/

namespace OneShotOPD.FullyAsync

open Rollout

/-- The replicas of a job.  All servers have addresses of their own. -/
structure Deployment (Replica Handle : Type) where
  serverAddress : Replica → String
  serverHandle : Replica → Handle
  standalone : List Replica
  hybridReplicas : Dict String Replica
  addresses_nodup :
    ((standalone ++ hybridReplicas.entries.map Prod.snd).map serverAddress).Nodup

/-- `FullyAsyncLLMServerManager`, with the load balancer that it talks to. -/
structure ServerManager (RequestId Replica Handle : Type) where
  rolloutReplicas : List Replica
  serverHandles : List Handle
  serverAddresses : List String
  aliveReplicas : Dict String Replica
  aliveAddresses : Dict String String
  globalLoadBalancer : LoadBalancer RequestId String Handle

namespace ServerManager

variable {RequestId Replica Handle : Type} [DecidableEq Replica]
variable (deployment : Deployment Replica Handle)

/-- `create`: the standalone servers, and sleeping hybrid replicas. -/
def create (maxCacheSize : ℕ) : ServerManager RequestId Replica Handle where
  rolloutReplicas := deployment.standalone
  serverHandles := deployment.standalone.map deployment.serverHandle
  serverAddresses := deployment.standalone.map deployment.serverAddress
  aliveReplicas := .empty
  aliveAddresses := .empty
  globalLoadBalancer := .new (.ofList
    ((deployment.standalone.map deployment.serverAddress).zip
      (deployment.standalone.map deployment.serverHandle))) maxCacheSize

variable (manager : ServerManager RequestId Replica Handle)

/-- A loop inside of a `try`, which ends at the first `KeyError`.  What was done before
stays done. -/
def untilKeyError (step : ServerManager RequestId Replica Handle → String →
    Option (ServerManager RequestId Replica Handle)) :
    ServerManager RequestId Replica Handle → List String →
      Bool × ServerManager RequestId Replica Handle
  | manager, [] => (true, manager)
  | manager, rid :: rids =>
      match step manager rid with
      | none => (false, manager)
      | some next => untilKeyError step next rids

/-- Neither active nor unknown. -/
def Addable (rid : String) : Prop :=
  rid ∉ manager.aliveReplicas.keys ∧ rid ∈ deployment.hybridReplicas.keys

instance (rid : String) : Decidable (manager.Addable deployment rid) :=
  inferInstanceAs (Decidable (_ ∧ _))

/-- The servers of the listed replicas that can be added. -/
def serversToAdd (rids : List String) : Dict String Handle :=
  rids.foldl (fun servers rid =>
    match deployment.hybridReplicas.get? rid with
    | some replica =>
        servers.insert (deployment.serverAddress replica) (deployment.serverHandle replica)
    | none => servers) .empty

/-- The manager with a replica entered into its lists. -/
def enter (rid : String) (replica : Replica) : ServerManager RequestId Replica Handle :=
  let serverAddress := deployment.serverAddress replica
  { manager with
    serverHandles := if serverAddress ∈ manager.serverAddresses then manager.serverHandles
      else manager.serverHandles ++ [deployment.serverHandle replica]
    serverAddresses := if serverAddress ∈ manager.serverAddresses then manager.serverAddresses
      else manager.serverAddresses ++ [serverAddress]
    rolloutReplicas := if replica ∈ manager.rolloutReplicas then manager.rolloutReplicas
      else manager.rolloutReplicas ++ [replica]
    aliveReplicas := manager.aliveReplicas.insert rid replica
    aliveAddresses := manager.aliveAddresses.insert rid serverAddress }

/-- One round of the loop behind the call that adds servers. -/
def track (rid : String) : Option (ServerManager RequestId Replica Handle) :=
  (deployment.hybridReplicas.get? rid).map (enter deployment manager rid)

/-- `add_replicas`; `rpc` says whether the balancer answers. -/
def addReplicas (rpc : Bool) (resourceIds : List String) :
    ℕ × ServerManager RequestId Replica Handle :=
  let validResourceIds := resourceIds.filter fun rid => manager.Addable deployment rid
  let servers := serversToAdd deployment validResourceIds
  if servers.entries = [] then (0, manager)
  else if rpc then
    let registered := { manager with
      globalLoadBalancer := manager.globalLoadBalancer.addServers servers }
    match untilKeyError (fun manager rid => track deployment manager rid) registered
        validResourceIds with
    | (true, next) => (validResourceIds.length, next)
    | (false, next) => (0, next)
  else (0, manager)

/-- The manager with a replica taken out of its lists. -/
def leave (rid : String) (serverAddress : String) (replica : Replica) :
    ServerManager RequestId Replica Handle :=
  let idx := manager.serverAddresses.idxOf serverAddress
  { manager with
    serverAddresses := if serverAddress ∈ manager.serverAddresses
      then manager.serverAddresses.eraseIdx idx else manager.serverAddresses
    serverHandles := if serverAddress ∈ manager.serverAddresses
      then manager.serverHandles.eraseIdx idx else manager.serverHandles
    rolloutReplicas := manager.rolloutReplicas.erase replica
    aliveReplicas := manager.aliveReplicas.filter fun other => other ≠ rid
    aliveAddresses := manager.aliveAddresses.filter fun other => other ≠ rid }

/-- One round of the loop behind the call that removes servers. -/
def untrack (rid : String) : Option (ServerManager RequestId Replica Handle) :=
  match manager.aliveAddresses.get? rid, manager.aliveReplicas.get? rid with
  | some serverAddress, some replica => some (leave manager rid serverAddress replica)
  | _, _ => none

/-- `remove_replicas`.  The addresses are looked up before anything is removed. -/
def removeReplicas (rpc : Bool) (resourceIds : List String) :
    ℕ × ServerManager RequestId Replica Handle :=
  let validResourceIds := resourceIds.filter fun rid => rid ∈ manager.aliveReplicas.keys
  let serverIds := validResourceIds.filterMap manager.aliveAddresses.get?
  if serverIds = [] then (0, manager)
  else if rpc then
    let deregistered := { manager with
      globalLoadBalancer := manager.globalLoadBalancer.removeServers serverIds }
    match untilKeyError untrack deregistered validResourceIds with
    | (true, next) => (validResourceIds.length, next)
    | (false, next) => (0, next)
  else (0, manager)

def getActiveServerCount : ℕ :=
  manager.rolloutReplicas.length + manager.aliveReplicas.entries.length

def getStandaloneReplicas : List Replica := manager.rolloutReplicas

/-! ## Runs -/

/-- A call with the ids that it names, and whether the balancer answers it. -/
inductive Call where
  | addReplicas (resourceIds : List String) (rpc : Bool)
  | removeReplicas (resourceIds : List String) (rpc : Bool)

def Call.rpc : Call → Bool
  | .addReplicas _ rpc => rpc
  | .removeReplicas _ rpc => rpc

def call : Call → ServerManager RequestId Replica Handle
  | .addReplicas resourceIds rpc => (manager.addReplicas deployment rpc resourceIds).2
  | .removeReplicas resourceIds rpc => (manager.removeReplicas rpc resourceIds).2

def run (maxCacheSize : ℕ) (calls : List Call) : ServerManager RequestId Replica Handle :=
  calls.foldl (call deployment) (create deployment maxCacheSize)

/-- An addition that names a hybrid replica, and that the balancer answers. -/
def Activates : Call → Prop
  | .addReplicas resourceIds rpc =>
      rpc = true ∧ ∃ rid ∈ resourceIds, rid ∈ deployment.hybridReplicas.keys
  | .removeReplicas _ _ => False

/-- No active replica is named twice in a removal. -/
def RemovesOnce : Call → Prop
  | .addReplicas _ _ => True
  | .removeReplicas resourceIds _ =>
      (resourceIds.filter fun rid => rid ∈ manager.aliveReplicas.keys).Nodup

end ServerManager

end OneShotOPD.FullyAsync
