import OneShotOPD.Core.Dict
import Mathlib.Data.List.MinMax

/-!
# The global load balancer

A request goes to the server that its id was routed to before, and otherwise to the
one with the fewest requests in flight.  Servers come and go while their requests
are in flight, and a client releases a server by its id only.
-/

namespace OneShotOPD.Rollout

variable {RequestId ServerId Handle : Type}

inductive BalancerError (ServerId : Type) where
  /-- "No available servers in load balancer" -/
  | noServers
  | keyError (serverId : ServerId)
  | zeroDivision
  /-- "value too large" -/
  | valueTooLarge

/-! ## The sticky cache -/

/-- An `LRUCache`, whose first entry is the one that was used least recently. -/
structure LruCache (RequestId ServerId : Type) where
  maxSize : ℕ
  dict : Dict RequestId ServerId

namespace LruCache

variable [DecidableEq RequestId]

def lookup (cache : LruCache RequestId ServerId) (requestId : RequestId) : Option ServerId :=
  cache.dict.get? requestId

def delItem (cache : LruCache RequestId ServerId) (requestId : RequestId) :
    LruCache RequestId ServerId :=
  { cache with dict := cache.dict.filter fun other => other ≠ requestId }

/-- The entry is used. -/
def touch (cache : LruCache RequestId ServerId) (requestId : RequestId)
    (serverId : ServerId) : LruCache RequestId ServerId :=
  { cache with dict := (cache.delItem requestId).dict.insert requestId serverId }

/-- A new entry makes room for itself. -/
def setItem (cache : LruCache RequestId ServerId) (requestId : RequestId)
    (serverId : ServerId) : Option (LruCache RequestId ServerId) :=
  if cache.maxSize = 0 then none
  else if requestId ∈ cache.dict.keys then some (cache.touch requestId serverId)
  else
    let oldest := cache.dict.keys.take (cache.dict.keys.length + 1 - cache.maxSize)
    some { cache with
      dict := (cache.dict.filter fun other => other ∉ oldest).insert requestId serverId }

def clear (cache : LruCache RequestId ServerId) : LruCache RequestId ServerId :=
  { cache with dict := .empty }

end LruCache

/-! ## The balancer -/

structure BalancerConfig (RequestId : Type) where
  fullDeterminism : Bool
  hash : RequestId → ℤ

/-- `GlobalRequestLoadBalancer`. -/
structure LoadBalancer (RequestId ServerId Handle : Type) where
  servers : Dict ServerId Handle
  inflightRequests : Dict ServerId ℕ
  requestIdToServer : LruCache RequestId ServerId

namespace LoadBalancer

variable [DecidableEq RequestId] [DecidableEq ServerId]

def new (servers : Dict ServerId Handle) (maxCacheSize : ℕ) :
    LoadBalancer RequestId ServerId Handle where
  servers := servers
  inflightRequests := servers.map fun _ => 0
  requestIdToServer := ⟨maxCacheSize, .empty⟩

/-- The first of the servers with the fewest requests in flight. -/
def leastLoaded (inflightRequests : Dict ServerId ℕ) : Option ServerId :=
  (inflightRequests.entries.map Prod.snd).min?.bind fun minCount =>
    ((inflightRequests.entries.filter fun entry => entry.2 = minCount).map Prod.fst).head?

/-- The count of the server goes up, and its handle is returned. -/
def assign (balancer : LoadBalancer RequestId ServerId Handle) (serverId : ServerId) :
    Except (BalancerError ServerId) (ServerId × Handle) ×
      LoadBalancer RequestId ServerId Handle :=
  match balancer.inflightRequests.get? serverId with
  | none => (.error (.keyError serverId), balancer)
  | some count =>
      let balancer := { balancer with
        inflightRequests := balancer.inflightRequests.insert serverId (count + 1) }
      match balancer.servers.get? serverId with
      | none => (.error (.keyError serverId), balancer)
      | some handle => (.ok (serverId, handle), balancer)

/-- The server of a request that is not sticky. -/
def select (config : BalancerConfig RequestId)
    (balancer : LoadBalancer RequestId ServerId Handle) (requestId : RequestId) :
    Option ServerId :=
  if config.fullDeterminism then
    balancer.servers.keys[(config.hash requestId % balancer.servers.keys.length).toNat]?
  else leastLoaded balancer.inflightRequests

def acquireNew (config : BalancerConfig RequestId)
    (balancer : LoadBalancer RequestId ServerId Handle) (requestId : RequestId) :
    Except (BalancerError ServerId) (ServerId × Handle) ×
      LoadBalancer RequestId ServerId Handle :=
  if balancer.inflightRequests.keys = [] then (.error .noServers, balancer)
  else match select config balancer requestId with
  | none => (.error .zeroDivision, balancer)
  | some serverId =>
      match balancer.requestIdToServer.setItem requestId serverId with
      | none => (.error .valueTooLarge, balancer)
      | some requestIdToServer => assign { balancer with requestIdToServer } serverId

def acquireServer (config : BalancerConfig RequestId)
    (balancer : LoadBalancer RequestId ServerId Handle) (requestId : RequestId) :
    Except (BalancerError ServerId) (ServerId × Handle) ×
      LoadBalancer RequestId ServerId Handle :=
  match balancer.requestIdToServer.lookup requestId with
  | none => acquireNew config balancer requestId
  | some serverId =>
      if serverId ∈ balancer.inflightRequests.keys then
        assign { balancer with
          requestIdToServer := balancer.requestIdToServer.touch requestId serverId } serverId
      else
        acquireNew config { balancer with
          requestIdToServer := balancer.requestIdToServer.delItem requestId } requestId

def releaseServer (balancer : LoadBalancer RequestId ServerId Handle) (serverId : ServerId) :
    LoadBalancer RequestId ServerId Handle :=
  match balancer.inflightRequests.get? serverId with
  | none => balancer
  | some count =>
      if 0 < count then { balancer with
        inflightRequests := balancer.inflightRequests.insert serverId (count - 1) }
      else balancer

def addServers (balancer : LoadBalancer RequestId ServerId Handle)
    (servers : Dict ServerId Handle) : LoadBalancer RequestId ServerId Handle :=
  servers.entries.foldl (fun balancer entry => { balancer with
    inflightRequests := balancer.inflightRequests.insert entry.1 0
    servers := balancer.servers.insert entry.1 entry.2 }) balancer

def removeServers (balancer : LoadBalancer RequestId ServerId Handle)
    (serverIds : List ServerId) : LoadBalancer RequestId ServerId Handle :=
  serverIds.foldl (fun balancer serverId => { balancer with
    inflightRequests := balancer.inflightRequests.filter fun other => other ≠ serverId
    servers := balancer.servers.filter fun other => other ≠ serverId }) balancer

def clearStickyCache (balancer : LoadBalancer RequestId ServerId Handle) :
    LoadBalancer RequestId ServerId Handle :=
  { balancer with requestIdToServer := balancer.requestIdToServer.clear }

/-- The request goes to a server that it was routed to before. -/
def Sticky (balancer : LoadBalancer RequestId ServerId Handle) (requestId : RequestId) : Prop :=
  ∃ serverId, balancer.requestIdToServer.lookup requestId = some serverId ∧
    serverId ∈ balancer.inflightRequests.keys

end LoadBalancer

/-! ## The clients -/

/-- A request that has not been released. -/
structure Outstanding (ServerId : Type) where
  serverId : ServerId
  /-- It has been acquired since the server was last registered. -/
  isCurrent : Bool

/-- The outstanding requests that were acquired since the server was registered. -/
def outstandingFrom [DecidableEq ServerId] (outstanding : List (Outstanding ServerId))
    (serverId : ServerId) : ℕ :=
  outstanding.countP fun request => request.serverId = serverId ∧ request.isCurrent

structure BalancerState (RequestId ServerId Handle : Type) where
  balancer : LoadBalancer RequestId ServerId Handle
  outstanding : List (Outstanding ServerId)
  /-- The handle that a server is registered with. -/
  registered : ServerId → Option Handle

inductive BalancerEvent (RequestId ServerId Handle : Type) where
  | acquire (requestId : RequestId)
  | release (request : Outstanding ServerId)
  | addServers (servers : Dict ServerId Handle)
  | removeServers (serverIds : List ServerId)
  | clearStickyCache

namespace BalancerState

open LoadBalancer

variable [DecidableEq RequestId] [DecidableEq ServerId]

inductive Step (config : BalancerConfig RequestId)
    (state : BalancerState RequestId ServerId Handle) :
    BalancerEvent RequestId ServerId Handle → BalancerState RequestId ServerId Handle → Prop
  | acquire (requestId : RequestId) {serverId : ServerId} {handle : Handle}
      {balancer : LoadBalancer RequestId ServerId Handle}
      (hacquire : acquireServer config state.balancer requestId =
        (.ok (serverId, handle), balancer)) :
      Step config state (.acquire requestId) { state with
        balancer
        outstanding := state.outstanding ++ [⟨serverId, true⟩] }
  | raise (requestId : RequestId) {error : BalancerError ServerId}
      {balancer : LoadBalancer RequestId ServerId Handle}
      (hacquire : acquireServer config state.balancer requestId = (.error error, balancer)) :
      Step config state (.acquire requestId) { state with balancer }
  | release {before after : List (Outstanding ServerId)} {request : Outstanding ServerId}
      (houtstanding : state.outstanding = before ++ request :: after) :
      Step config state (.release request) { state with
        balancer := releaseServer state.balancer request.serverId
        outstanding := before ++ after }
  | addServers (servers : Dict ServerId Handle) :
      Step config state (.addServers servers) {
        balancer := LoadBalancer.addServers state.balancer servers
        outstanding := state.outstanding.map fun request =>
          if request.serverId ∈ servers.keys then { request with isCurrent := false }
          else request
        registered := fun serverId => (servers.get? serverId).or (state.registered serverId) }
  | removeServers (serverIds : List ServerId) :
      Step config state (.removeServers serverIds) { state with
        balancer := LoadBalancer.removeServers state.balancer serverIds
        registered := fun serverId =>
          if serverId ∈ serverIds then none else state.registered serverId }
  | clearStickyCache :
      Step config state .clearStickyCache { state with
        balancer := LoadBalancer.clearStickyCache state.balancer }

/-- The runs from an initial server set in which every step is allowed. -/
inductive Run (config : BalancerConfig RequestId) (servers : Dict ServerId Handle)
    (allowed : BalancerState RequestId ServerId Handle →
      BalancerEvent RequestId ServerId Handle → Prop) :
    BalancerState RequestId ServerId Handle → Prop
  | start (maxCacheSize : ℕ) :
      Run config servers allowed ⟨.new servers maxCacheSize, [], servers.get?⟩
  | step {state next : BalancerState RequestId ServerId Handle}
      {event : BalancerEvent RequestId ServerId Handle} (hrun : Run config servers allowed state)
      (hallowed : allowed state event) (hstep : Step config state event next) :
      Run config servers allowed next

end BalancerState

end OneShotOPD.Rollout
