import OneShotOPD.Rollout.LoadBalancer

/-!
# The counts of the load balancer

The count of a server is the number of the requests that were acquired from it since
it was last registered.  A release names the server only, so a request from before
must not be released while the count is of other requests.
-/

namespace OneShotOPD.Rollout

namespace LoadBalancer

variable {RequestId ServerId Handle : Type} [DecidableEq ServerId]
  {config : BalancerConfig RequestId} {balancer next : LoadBalancer RequestId ServerId Handle}
  {requestId : RequestId} {serverId : ServerId} {handle : Handle}

/-! ## Servers come and go -/

theorem get?_servers_addServers (balancer : LoadBalancer RequestId ServerId Handle)
    (servers : Dict ServerId Handle) (serverId : ServerId) :
    (addServers balancer servers).servers.get? serverId =
      (servers.get? serverId).or (balancer.servers.get? serverId) := by
  have hfold : ∀ (entries : List (ServerId × Handle))
      (balancer : LoadBalancer RequestId ServerId Handle),
      (entries.foldl (fun balancer entry => { balancer with
        inflightRequests := balancer.inflightRequests.insert entry.1 0
        servers := balancer.servers.insert entry.1 entry.2 }) balancer).servers =
        entries.foldl (fun dict entry => dict.insert entry.1 entry.2) balancer.servers := by
    intro entries
    induction entries with
    | nil => exact fun _ => rfl
    | cons entry entries ih => exact fun _ => ih _
  rw [addServers, hfold, Dict.get?_foldl_insert_entries]

theorem get?_inflight_addServers (balancer : LoadBalancer RequestId ServerId Handle)
    (servers : Dict ServerId Handle) (serverId : ServerId) :
    (addServers balancer servers).inflightRequests.get? serverId =
      if serverId ∈ servers.keys then some 0
      else balancer.inflightRequests.get? serverId := by
  have hfold : ∀ (entries : List (ServerId × Handle))
      (balancer : LoadBalancer RequestId ServerId Handle),
      (entries.foldl (fun balancer entry => { balancer with
        inflightRequests := balancer.inflightRequests.insert entry.1 0
        servers := balancer.servers.insert entry.1 entry.2 }) balancer).inflightRequests =
        (entries.map Prod.fst).foldl (fun dict key => dict.insert key 0)
          balancer.inflightRequests := by
    intro entries
    induction entries with
    | nil => exact fun _ => rfl
    | cons entry entries ih => exact fun _ => ih _
  rw [addServers, hfold, Dict.get?_foldl_insert]
  rfl

theorem get?_removeServers (balancer : LoadBalancer RequestId ServerId Handle)
    (serverIds : List ServerId) (serverId : ServerId) :
    (removeServers balancer serverIds).servers.get? serverId =
        (if serverId ∈ serverIds then none else balancer.servers.get? serverId) ∧
      (removeServers balancer serverIds).inflightRequests.get? serverId =
        if serverId ∈ serverIds then none else balancer.inflightRequests.get? serverId := by
  rw [removeServers]
  induction serverIds generalizing balancer with
  | nil => simp
  | cons first serverIds ih =>
      rw [List.foldl_cons, (ih _).1, (ih _).2, Dict.get?_filter, Dict.get?_filter]
      by_cases hmem : serverId ∈ serverIds
      · simp [hmem]
      · by_cases hfirst : serverId = first <;> simp [hmem, hfirst]

theorem get?_releaseServer (balancer : LoadBalancer RequestId ServerId Handle)
    (released serverId : ServerId) :
    (releaseServer balancer released).inflightRequests.get? serverId =
      (balancer.inflightRequests.get? serverId).map fun count =>
        if serverId = released then count - 1 else count := by
  rw [releaseServer]
  split
  next hnone =>
    by_cases heq : serverId = released
    · simp [heq, hnone]
    · simp [heq]
  next count hcount =>
    split
    next hpos =>
      rw [Dict.get?_insert]
      by_cases heq : serverId = released
      · simp [heq, hcount]
      · simp [heq]
    next hzero =>
      by_cases heq : serverId = released
      · simp only [heq, hcount, Option.map_some, if_true]
        congr 1
        omega
      · simp [heq]

theorem servers_releaseServer (balancer : LoadBalancer RequestId ServerId Handle)
    (released : ServerId) : (releaseServer balancer released).servers = balancer.servers := by
  rw [releaseServer]
  split
  next => rfl
  next => split <;> rfl

/-! ## Acquiring a server -/

/-- A server has a count when it has a handle. -/
def SameKeys (balancer : LoadBalancer RequestId ServerId Handle) : Prop :=
  ∀ serverId, serverId ∈ balancer.servers.keys ↔ serverId ∈ balancer.inflightRequests.keys

/-- What a successful call has done. -/
structure Grants (balancer next : LoadBalancer RequestId ServerId Handle) (serverId : ServerId)
    (handle : Handle) : Prop where
  handle_eq : balancer.servers.get? serverId = some handle
  servers_eq : next.servers = balancer.servers
  counted : ∃ count, balancer.inflightRequests.get? serverId = some count ∧
    next.inflightRequests = balancer.inflightRequests.insert serverId (count + 1)

theorem assign_eq_ok {other : ServerId}
    (hassign : assign balancer other = (.ok (serverId, handle), next)) :
    serverId = other ∧ Grants balancer next serverId handle := by
  rw [assign] at hassign
  split at hassign
  next => cases hassign
  next count hcount =>
    dsimp only at hassign
    split at hassign
    next => cases hassign
    next hhandle =>
      cases hassign
      exact ⟨rfl, hhandle, rfl, count, hcount, rfl⟩

/-- A registered server is assigned, so nothing has been counted in an error. -/
theorem assign_eq_error {error : BalancerError ServerId}
    (hassign : assign balancer serverId = (.error error, next))
    (hkeys : SameKeys balancer) :
    next = balancer := by
  rw [assign] at hassign
  split at hassign
  next => exact (Prod.mk.inj hassign).2.symm
  next count hcount =>
    dsimp only at hassign
    split at hassign
    next hnone =>
      have hmem := (Dict.get?_isSome_iff _ _).mp (Option.isSome_iff_exists.mpr ⟨_, hcount⟩)
      exact absurd ((hkeys serverId).mpr hmem) ((Dict.get?_eq_none_iff _ _).mp hnone)
    next => cases hassign

/-- No server has fewer requests in flight than the selected one. -/
theorem leastLoaded_le {inflightRequests : Dict ServerId ℕ} {count other : ℕ}
    {otherId : ServerId} (hselect : leastLoaded inflightRequests = some serverId)
    (hcount : inflightRequests.get? serverId = some count)
    (hother : inflightRequests.get? otherId = some other) : count ≤ other := by
  obtain ⟨minCount, hmin, hhead⟩ := Option.bind_eq_some_iff.mp hselect
  obtain ⟨entry, hentry, rfl⟩ := List.mem_map.mp (List.mem_of_mem_head? hhead)
  obtain ⟨hmem, heq⟩ := List.mem_filter.mp hentry
  rw [Dict.get?_eq_some_iff] at hcount hother
  rw [Dict.eq_of_mem_entries hcount hmem, of_decide_eq_true heq]
  exact (List.min?_eq_some_iff.mp hmin).2 other (List.mem_map_of_mem hother)

variable [DecidableEq RequestId]

theorem acquireNew_eq_ok
    (hacquire : acquireNew config balancer requestId = (.ok (serverId, handle), next)) :
    select config balancer requestId = some serverId ∧ Grants balancer next serverId handle := by
  rw [acquireNew] at hacquire
  split at hacquire
  next => cases hacquire
  next =>
    split at hacquire
    next => cases hacquire
    next selected hselect =>
      split at hacquire
      next => cases hacquire
      next =>
        obtain ⟨rfl, hgrants⟩ := assign_eq_ok hacquire
        exact ⟨hselect, { hgrants with }⟩

theorem acquireServer_eq_ok
    (hacquire : acquireServer config balancer requestId = (.ok (serverId, handle), next)) :
    Grants balancer next serverId handle ∧
      (¬ Sticky balancer requestId → select config balancer requestId = some serverId) := by
  rw [acquireServer] at hacquire
  split at hacquire
  next =>
    obtain ⟨hselect, hgrants⟩ := acquireNew_eq_ok hacquire
    exact ⟨hgrants, fun _ => hselect⟩
  next cached hlookup =>
    split at hacquire
    next hmem =>
      obtain ⟨rfl, hgrants⟩ := assign_eq_ok hacquire
      exact ⟨{ hgrants with }, fun hnot => absurd ⟨_, hlookup, hmem⟩ hnot⟩
    next =>
      obtain ⟨hselect, hgrants⟩ := acquireNew_eq_ok hacquire
      exact ⟨{ hgrants with }, fun _ => hselect⟩

theorem acquireNew_eq_error {error : BalancerError ServerId}
    (hacquire : acquireNew config balancer requestId = (.error error, next))
    (hkeys : SameKeys balancer) :
    next.servers = balancer.servers ∧ next.inflightRequests = balancer.inflightRequests := by
  rw [acquireNew] at hacquire
  split at hacquire
  next =>
    cases hacquire
    exact ⟨rfl, rfl⟩
  next =>
    split at hacquire
    next =>
      cases hacquire
      exact ⟨rfl, rfl⟩
    next =>
      split at hacquire
      next =>
        cases hacquire
        exact ⟨rfl, rfl⟩
      next =>
        rw [assign_eq_error hacquire hkeys]
        exact ⟨rfl, rfl⟩

theorem acquireServer_eq_error {error : BalancerError ServerId}
    (hacquire : acquireServer config balancer requestId = (.error error, next))
    (hkeys : SameKeys balancer) :
    next.servers = balancer.servers ∧ next.inflightRequests = balancer.inflightRequests := by
  rw [acquireServer] at hacquire
  split at hacquire
  next => exact acquireNew_eq_error hacquire hkeys
  next =>
    split at hacquire
    next =>
      rw [assign_eq_error hacquire hkeys]
      exact ⟨rfl, rfl⟩
    next =>
      have hkept := acquireNew_eq_error hacquire hkeys
      exact hkept

end LoadBalancer

namespace BalancerState

open LoadBalancer

variable {RequestId ServerId Handle : Type} [DecidableEq ServerId]
  {state next : BalancerState RequestId ServerId Handle}
  {event : BalancerEvent RequestId ServerId Handle}

/-- The tables have the same keys, the handles are those that the servers were
registered with, and the counts are those of the outstanding requests. -/
structure Accurate (state : BalancerState RequestId ServerId Handle) : Prop where
  sameKeys : state.balancer.SameKeys
  registered : ∀ serverId, state.balancer.servers.get? serverId = state.registered serverId
  count_eq : ∀ serverId count, state.balancer.inflightRequests.get? serverId = some count →
    count = outstandingFrom state.outstanding serverId

/-- A request from before the last registration of its server is released only when
there is no count that it could lower. -/
def Current (state : BalancerState RequestId ServerId Handle)
    (event : BalancerEvent RequestId ServerId Handle) : Prop :=
  ∀ request, event = .release request → request.isCurrent ∨
    request.serverId ∉ state.balancer.inflightRequests.keys ∨
      outstandingFrom state.outstanding request.serverId = 0

theorem outstandingFrom_middle (before after : List (Outstanding ServerId))
    (request : Outstanding ServerId) (serverId : ServerId) :
    outstandingFrom (before ++ request :: after) serverId =
      outstandingFrom (before ++ after) serverId +
        if request.serverId = serverId ∧ request.isCurrent then 1 else 0 := by
  simp only [outstandingFrom, List.countP_append, List.countP_cons, decide_eq_true_eq]
  omega

/-- Registering servers anew forgets their requests. -/
theorem outstandingFrom_map (outstanding : List (Outstanding ServerId))
    (keys : List ServerId) (serverId : ServerId) :
    outstandingFrom (outstanding.map fun request =>
        if request.serverId ∈ keys then { request with isCurrent := false } else request)
        serverId =
      if serverId ∈ keys then 0 else outstandingFrom outstanding serverId := by
  simp only [outstandingFrom, List.countP_map]
  split
  next hmem =>
    refine List.countP_eq_zero.mpr fun request _ => ?_
    by_cases heq : request.serverId = serverId
    · simp [heq, hmem]
    · by_cases hkey : request.serverId ∈ keys <;> simp [heq, hkey]
  next hmem =>
    refine List.countP_congr fun request _ => ?_
    by_cases heq : request.serverId = serverId
    · simp [heq, hmem]
    · by_cases hkey : request.serverId ∈ keys <;> simp [heq, hkey]

theorem Accurate.release (haccurate : Accurate state) {before after : List (Outstanding ServerId)}
    {request : Outstanding ServerId}
    (houtstanding : state.outstanding = before ++ request :: after)
    (hcurrent : Current state (.release request)) :
    Accurate { state with
      balancer := releaseServer state.balancer request.serverId
      outstanding := before ++ after } := by
  constructor
  case sameKeys =>
    intro serverId
    rw [servers_releaseServer, haccurate.sameKeys serverId, ← Dict.get?_isSome_iff,
      ← Dict.get?_isSome_iff, get?_releaseServer, Option.isSome_map]
  case registered => rw [servers_releaseServer]; exact haccurate.registered
  case count_eq =>
    intro serverId count hcount
    rw [get?_releaseServer, Option.map_eq_some_iff] at hcount
    obtain ⟨old, hold, rfl⟩ := hcount
    have heq := haccurate.count_eq serverId old hold
    rw [houtstanding, outstandingFrom_middle] at heq
    by_cases hserver : serverId = request.serverId
    · subst hserver
      rw [if_pos rfl]
      rcases hcurrent request rfl with hflag | hgone | hnone
      · rw [heq, if_pos ⟨rfl, hflag⟩, Nat.add_sub_cancel]
      · exact absurd ((Dict.get?_isSome_iff _ _).mp (Option.isSome_iff_exists.mpr ⟨_, hold⟩)) hgone
      · rw [houtstanding, outstandingFrom_middle] at hnone
        dsimp only
        omega
    · rw [if_neg hserver, heq, if_neg fun hboth => hserver hboth.1.symm, Nat.add_zero]

theorem Accurate.addServers (haccurate : Accurate state) (servers : Dict ServerId Handle) :
    Accurate {
      balancer := LoadBalancer.addServers state.balancer servers
      outstanding := state.outstanding.map fun request =>
        if request.serverId ∈ servers.keys then { request with isCurrent := false }
        else request
      registered := fun serverId => (servers.get? serverId).or (state.registered serverId) } := by
  constructor
  case sameKeys =>
    intro serverId
    have hsame := haccurate.sameKeys serverId
    rw [← Dict.get?_isSome_iff, ← Dict.get?_isSome_iff] at hsame ⊢
    rw [get?_servers_addServers, get?_inflight_addServers, Option.isSome_or, Bool.or_eq_true,
      Dict.get?_isSome_iff servers, hsame]
    by_cases hmem : serverId ∈ servers.keys <;> simp [hmem]
  case registered =>
    intro serverId
    rw [get?_servers_addServers, haccurate.registered]
  case count_eq =>
    intro serverId count hcount
    rw [get?_inflight_addServers] at hcount
    rw [outstandingFrom_map]
    split at hcount
    next hmem => rw [if_pos hmem, Option.some.inj hcount]
    next hmem =>
      rw [if_neg hmem]
      exact haccurate.count_eq serverId count hcount

theorem Accurate.removeServers (haccurate : Accurate state) (serverIds : List ServerId) :
    Accurate { state with
      balancer := LoadBalancer.removeServers state.balancer serverIds
      registered := fun serverId =>
        if serverId ∈ serverIds then none else state.registered serverId } := by
  constructor
  case sameKeys =>
    intro serverId
    have hsame := haccurate.sameKeys serverId
    rw [← Dict.get?_isSome_iff, ← Dict.get?_isSome_iff] at hsame ⊢
    rw [(get?_removeServers _ _ _).1, (get?_removeServers _ _ _).2]
    by_cases hmem : serverId ∈ serverIds <;> simp [hmem, hsame]
  case registered =>
    intro serverId
    rw [(get?_removeServers _ _ _).1, haccurate.registered]
  case count_eq =>
    intro serverId count hcount
    rw [(get?_removeServers _ _ _).2] at hcount
    split at hcount
    next => cases hcount
    next => exact haccurate.count_eq serverId count hcount

variable [DecidableEq RequestId] {config : BalancerConfig RequestId}

theorem Accurate.acquire (haccurate : Accurate state) {requestId : RequestId}
    {serverId : ServerId} {handle : Handle} {balancer : LoadBalancer RequestId ServerId Handle}
    (hacquire : acquireServer config state.balancer requestId =
      (.ok (serverId, handle), balancer)) :
    Accurate { state with
      balancer
      outstanding := state.outstanding ++ [⟨serverId, true⟩] } := by
  obtain ⟨⟨hhandle, hservers, count, hcount, hinflight⟩, _⟩ := acquireServer_eq_ok hacquire
  have hmem := (Dict.get?_isSome_iff _ _).mp (Option.isSome_iff_exists.mpr ⟨_, hcount⟩)
  constructor
  case sameKeys =>
    intro other
    rw [hservers, hinflight, Dict.keys_insert_of_mem _ _ hmem]
    exact haccurate.sameKeys other
  case registered => exact hservers ▸ haccurate.registered
  case count_eq =>
    intro other found hfound
    rw [hinflight, Dict.get?_insert] at hfound
    rw [outstandingFrom_middle, List.append_nil]
    split at hfound
    next heq =>
      subst heq
      rw [if_pos ⟨rfl, rfl⟩, ← haccurate.count_eq other count hcount]
      exact (Option.some.inj hfound).symm
    next hne =>
      rw [if_neg fun hboth => hne hboth.1.symm, Nat.add_zero]
      exact haccurate.count_eq other found hfound

theorem Accurate.step (haccurate : Accurate state) (hcurrent : Current state event)
    (hstep : Step config state event next) : Accurate next := by
  cases hstep with
  | acquire requestId hacquire => exact haccurate.acquire hacquire
  | raise requestId hacquire =>
      obtain ⟨hservers, hinflight⟩ := acquireServer_eq_error hacquire haccurate.sameKeys
      constructor
      case sameKeys =>
        intro serverId
        rw [hservers, hinflight]
        exact haccurate.sameKeys serverId
      case registered => exact hservers ▸ haccurate.registered
      case count_eq => exact hinflight ▸ haccurate.count_eq
  | release houtstanding => exact haccurate.release houtstanding hcurrent
  | addServers servers => exact haccurate.addServers servers
  | removeServers serverIds => exact haccurate.removeServers serverIds
  | clearStickyCache => exact { haccurate with }

theorem Run.accurate {servers : Dict ServerId Handle} (hrun : Run config servers Current state) :
    Accurate state := by
  induction hrun with
  | start maxCacheSize =>
      refine ⟨fun serverId => ?_, fun serverId => rfl, fun serverId count hcount => ?_⟩
      · simp [LoadBalancer.new]
      · simp only [LoadBalancer.new, Dict.get?_map, Option.map_eq_some_iff] at hcount
        obtain ⟨_, _, rfl⟩ := hcount
        rfl
  | step _ hcurrent hstep ih => exact ih.step hcurrent hstep

/-- As long as no release is of a request from before the last registration of its
server while others count, the counts are right, and a request that is not sticky
goes to a server with the fewest outstanding requests.  Any other release makes a
count wrong. -/
theorem inflight_accounting (config : BalancerConfig RequestId)
    {servers : Dict ServerId Handle} (hrun : Run config servers Current state) :
    (∀ serverId count, state.balancer.inflightRequests.get? serverId = some count →
      count = outstandingFrom state.outstanding serverId) ∧
    (∀ serverId, serverId ∈ state.balancer.servers.keys ↔
      serverId ∈ state.balancer.inflightRequests.keys) ∧
    (∀ requestId serverId handle balancer, acquireServer config state.balancer requestId =
        (.ok (serverId, handle), balancer) → state.registered serverId = some handle ∧
      (config.fullDeterminism = false → ¬ Sticky state.balancer requestId →
        ∀ other ∈ state.balancer.inflightRequests.keys,
          outstandingFrom state.outstanding serverId ≤
            outstandingFrom state.outstanding other)) ∧
    ∀ event next, Step config state event next → ¬ Current state event →
      ¬ ∀ serverId count, next.balancer.inflightRequests.get? serverId = some count →
        count = outstandingFrom next.outstanding serverId := by
  have haccurate := hrun.accurate
  refine ⟨haccurate.count_eq, haccurate.sameKeys, ?_, ?_⟩
  · intro requestId serverId handle balancer hacquire
    obtain ⟨hgrants, hselect⟩ := acquireServer_eq_ok hacquire
    refine ⟨haccurate.registered serverId ▸ hgrants.handle_eq, ?_⟩
    intro hrandom hsticky other hother
    obtain ⟨count, hcount, _⟩ := hgrants.counted
    obtain ⟨otherCount, hotherCount⟩ :=
      Option.isSome_iff_exists.mp ((Dict.get?_isSome_iff _ _).mpr hother)
    have hleast := hselect hsticky
    rw [select, hrandom, if_neg Bool.false_ne_true] at hleast
    rw [← haccurate.count_eq _ _ hcount, ← haccurate.count_eq _ _ hotherCount]
    exact leastLoaded_le hleast hcount hotherCount
  · intro event next hstep hstale hcounts
    cases hstep with
    | @release before after request houtstanding =>
        simp only [Current, not_forall, not_or, not_not] at hstale
        obtain ⟨_, heq, hflag, hmem, hsome⟩ := hstale
        obtain rfl := BalancerEvent.release.inj heq
        obtain ⟨count, hcount⟩ := Option.isSome_iff_exists.mp ((Dict.get?_isSome_iff _ _).mpr hmem)
        have hbefore := haccurate.count_eq _ _ hcount
        have hafter := hcounts request.serverId (count - 1) (by
          rw [get?_releaseServer, hcount, Option.map_some, if_pos rfl])
        rw [houtstanding, outstandingFrom_middle, if_neg fun hboth => hflag hboth.2,
          Nat.add_zero] at hbefore hsome
        dsimp only at hafter
        omega
    | _ => exact hstale nofun

/-! ## One server -/

def leastLoadedConfig : BalancerConfig ℕ := ⟨false, fun requestId => requestId⟩

def oneServer : Dict Bool ℕ := ⟨[(true, 7)], List.nodup_singleton _⟩

theorem oneServer_inflight_accounting :
    ∃ state : BalancerState ℕ Bool ℕ, Run leastLoadedConfig oneServer Current state ∧
      state.balancer.inflightRequests.get? true = some 1 ∧
        1 = outstandingFrom state.outstanding true := by
  have hstart : Run leastLoadedConfig oneServer Current
      ⟨LoadBalancer.new oneServer 4, [], oneServer.get?⟩ := .start 4
  have hfirst := hstart.step (show Current _ (.acquire 0) from nofun) (.acquire 0 rfl)
  have hsecond := hfirst.step (show Current _ (.acquire 1) from nofun) (.acquire 1 rfl)
  have hcurrent : ∀ state : BalancerState ℕ Bool ℕ, Current state (.release ⟨true, true⟩) :=
    fun _ request heq => .inl (BalancerEvent.release.inj heq ▸ rfl)
  have hrelease := hsecond.step (hcurrent _)
    (.release (show _ = [] ++ (⟨true, true⟩ : Outstanding Bool) :: _ from rfl))
  exact ⟨_, hrelease, rfl, (inflight_accounting _ hrelease).1 true 1 rfl⟩

/-- The first request is released after its server has been removed and added again,
and takes away the count of the second one. -/
theorem staleRelease_miscounts :
    ∃ state : BalancerState ℕ Bool ℕ,
      Run leastLoadedConfig oneServer (fun _ _ => True) state ∧
        state.balancer.inflightRequests.get? true = some 0 ∧
          outstandingFrom state.outstanding true = 1 := by
  have hstart : Run leastLoadedConfig oneServer (fun _ _ => True)
      ⟨(LoadBalancer.new oneServer 4 : LoadBalancer ℕ Bool ℕ), [], oneServer.get?⟩ := .start 4
  have hfirst := hstart.step trivial (.acquire 0 rfl)
  have hremove := hfirst.step trivial (.removeServers [true])
  have hadd := hremove.step trivial (.addServers oneServer)
  have hsecond := hadd.step trivial (.acquire 1 rfl)
  have hrelease := hsecond.step trivial
    (.release (show _ = [] ++ (⟨true, false⟩ : Outstanding Bool) :: _ from rfl))
  exact ⟨_, hrelease, rfl, rfl⟩

end BalancerState

end OneShotOPD.Rollout
