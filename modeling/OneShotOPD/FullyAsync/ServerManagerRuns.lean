import OneShotOPD.FullyAsync.ServerManager
import OneShotOPD.Rollout.LoadBalancerRuns
import Mathlib

/-!
# What the server manager keeps track of

The lists of the manager and the pool of the balancer hold the standalone replicas and,
behind them, the active hybrid ones in the order of their activation.  Active hybrid
replicas therefore stand in `rollout_replicas` as well, which two of the readers take for
the standalone replicas alone.
-/

namespace OneShotOPD.FullyAsync

open Rollout LoadBalancer

namespace Deployment

variable {Replica Handle : Type} (deployment : Deployment Replica Handle)

def replicas : List Replica :=
  deployment.standalone ++ deployment.hybridReplicas.entries.map Prod.snd

theorem mem_replicas_of_get? {rid : String} {replica : Replica}
    (hreplica : deployment.hybridReplicas.get? rid = some replica) :
    replica ∈ deployment.replicas :=
  List.mem_append_right _
    (List.mem_map_of_mem ((Dict.get?_eq_some_iff _ _ _).mp hreplica))

/-- A replica is known by the address of its server. -/
theorem eq_of_serverAddress_eq {first second : Replica} (hfirst : first ∈ deployment.replicas)
    (hsecond : second ∈ deployment.replicas)
    (heq : deployment.serverAddress first = deployment.serverAddress second) :
    first = second :=
  List.inj_on_of_nodup_map deployment.addresses_nodup hfirst hsecond heq

/-- A hybrid replica has one id. -/
theorem eq_of_get?_eq {first second : String} {replica : Replica}
    (hfirst : deployment.hybridReplicas.get? first = some replica)
    (hsecond : deployment.hybridReplicas.get? second = some replica) : first = second := by
  have hnodup := deployment.addresses_nodup
  rw [List.map_append, List.map_map] at hnodup
  have hinj := List.inj_on_of_nodup_map (List.nodup_append.mp hnodup).2.1
    ((Dict.get?_eq_some_iff _ _ _).mp hfirst) ((Dict.get?_eq_some_iff _ _ _).mp hsecond) rfl
  exact (Prod.mk.inj hinj).1

theorem not_mem_standalone_of_get? {rid : String} {replica : Replica}
    (hreplica : deployment.hybridReplicas.get? rid = some replica) :
    replica ∉ deployment.standalone := by
  intro hstandalone
  have hnodup := deployment.addresses_nodup
  rw [List.map_append, List.nodup_append] at hnodup
  refine hnodup.2.2 _ (List.mem_map_of_mem hstandalone) _ ?_ rfl
  exact List.mem_map_of_mem
    (List.mem_map_of_mem ((Dict.get?_eq_some_iff _ _ _).mp hreplica))

end Deployment

namespace ServerManager

variable {RequestId Replica Handle : Type} [DecidableEq Replica]
variable {deployment : Deployment Replica Handle}
variable {manager : ServerManager RequestId Replica Handle}

/-! ## The lists -/

/-- The replicas in use: the standalone ones and the active hybrid ones. -/
def active (deployment : Deployment Replica Handle)
    (manager : ServerManager RequestId Replica Handle) : List Replica :=
  deployment.standalone ++ manager.aliveReplicas.entries.map Prod.snd

/-- The lists of the manager hold the replicas in use. -/
structure Tracked (deployment : Deployment Replica Handle)
    (manager : ServerManager RequestId Replica Handle) : Prop where
  alive_hybrid : ∀ rid replica, manager.aliveReplicas.get? rid = some replica →
    deployment.hybridReplicas.get? rid = some replica
  aliveAddresses : manager.aliveAddresses =
    manager.aliveReplicas.map deployment.serverAddress
  rolloutReplicas : manager.rolloutReplicas = active deployment manager
  serverAddresses : manager.serverAddresses =
    (active deployment manager).map deployment.serverAddress
  serverHandles : manager.serverHandles =
    (active deployment manager).map deployment.serverHandle

omit [DecidableEq Replica] in
theorem mem_active {replica : Replica} :
    replica ∈ active deployment manager ↔ replica ∈ deployment.standalone ∨
      ∃ rid, manager.aliveReplicas.get? rid = some replica := by
  rw [active, List.mem_append, List.mem_map]
  refine or_congr_right ⟨?_, ?_⟩
  · rintro ⟨⟨rid, found⟩, hentry, rfl⟩
    exact ⟨rid, (Dict.get?_eq_some_iff _ _ _).mpr hentry⟩
  · rintro ⟨rid, hget⟩
    exact ⟨(rid, replica), (Dict.get?_eq_some_iff _ _ _).mp hget, rfl⟩

omit [DecidableEq Replica] in
theorem Tracked.mem_replicas (htracked : Tracked deployment manager) {replica : Replica}
    (hactive : replica ∈ active deployment manager) : replica ∈ deployment.replicas := by
  rcases mem_active.mp hactive with hstandalone | ⟨rid, halive⟩
  · exact List.mem_append_left _ hstandalone
  · exact deployment.mem_replicas_of_get? (htracked.alive_hybrid rid replica halive)

omit [DecidableEq Replica] in
/-- A hybrid replica that is not active is in none of the lists. -/
theorem Tracked.serverAddress_not_mem (htracked : Tracked deployment manager) {rid : String}
    {replica : Replica} (hreplica : deployment.hybridReplicas.get? rid = some replica)
    (hsleeping : rid ∉ manager.aliveReplicas.keys) :
    deployment.serverAddress replica ∉
      (active deployment manager).map deployment.serverAddress := by
  rintro hmem
  obtain ⟨other, hother, heq⟩ := List.mem_map.mp hmem
  obtain rfl := deployment.eq_of_serverAddress_eq (htracked.mem_replicas hother)
    (deployment.mem_replicas_of_get? hreplica) heq
  rcases mem_active.mp hother with hstandalone | ⟨otherRid, halive⟩
  · exact deployment.not_mem_standalone_of_get? hreplica hstandalone
  · obtain rfl := deployment.eq_of_get?_eq hreplica (htracked.alive_hybrid _ _ halive)
    exact hsleeping ((Dict.get?_isSome_iff _ _).mp (by rw [halive]; rfl))

/-- Tracking a replica once more changes nothing. -/
theorem track_of_alive (htracked : Tracked deployment manager) {rid : String}
    {replica : Replica} (halive : manager.aliveReplicas.get? rid = some replica) :
    track deployment manager rid = some manager := by
  have hactive : replica ∈ active deployment manager := mem_active.mpr (.inr ⟨rid, halive⟩)
  have haddress : manager.aliveAddresses.get? rid =
      some (deployment.serverAddress replica) := by
    rw [htracked.aliveAddresses, Dict.get?_map, halive]
    rfl
  have hknown : deployment.serverAddress replica ∈ manager.serverAddresses := by
    rw [htracked.serverAddresses]
    exact List.mem_map_of_mem hactive
  rw [← htracked.rolloutReplicas] at hactive
  rw [track, htracked.alive_hybrid rid replica halive, Option.map_some, enter]
  simp only [hknown, hactive, if_true, Dict.insert_eq_self halive,
    Dict.insert_eq_self haddress]

theorem track_of_sleeping (htracked : Tracked deployment manager) {rid : String}
    {replica : Replica} (hreplica : deployment.hybridReplicas.get? rid = some replica)
    (hsleeping : rid ∉ manager.aliveReplicas.keys) :
    track deployment manager rid = some (enter deployment manager rid replica) ∧
      Tracked deployment (enter deployment manager rid replica) := by
  have hunknown := htracked.serverAddress_not_mem hreplica hsleeping
  have habsent : replica ∉ active deployment manager := fun hmem =>
    hunknown (List.mem_map_of_mem hmem)
  have hentries := Dict.entries_insert_of_not_mem manager.aliveReplicas replica hsleeping
  have hactive : deployment.standalone ++
      (manager.aliveReplicas.insert rid replica).entries.map Prod.snd =
        active deployment manager ++ [replica] := by
    rw [hentries, List.map_append, active, List.append_assoc]
    rfl
  rw [← htracked.serverAddresses] at hunknown
  rw [← htracked.rolloutReplicas] at habsent
  refine ⟨by rw [track, hreplica, Option.map_some], ?_⟩
  constructor
  · intro other found hget
    simp only [enter, Dict.get?_insert] at hget
    split at hget
    next hkey => rwa [hkey, ← Option.some.inj hget]
    next => exact htracked.alive_hybrid other found hget
  · simp only [enter]
    rw [htracked.aliveAddresses, ← Dict.map_insert]
  · simp only [enter, active, habsent, if_false]
    rw [hactive, htracked.rolloutReplicas]
  · simp only [enter, active, hunknown, if_false]
    rw [hactive, htracked.serverAddresses, List.map_append]
    rfl
  · simp only [enter, active, hunknown, if_false]
    rw [hactive, htracked.serverHandles, List.map_append]
    rfl

/-- The loop of an addition tracks all replicas that it is given. -/
theorem untilKeyError_track (htracked : Tracked deployment manager) {rids : List String}
    (hrids : ∀ rid ∈ rids, rid ∈ deployment.hybridReplicas.keys) :
    ∃ next, untilKeyError (fun manager rid => track deployment manager rid) manager rids =
        (true, next) ∧ Tracked deployment next ∧
      next.globalLoadBalancer = manager.globalLoadBalancer ∧
      ∀ rid, next.aliveReplicas.get? rid =
        if rid ∈ rids then deployment.hybridReplicas.get? rid
        else manager.aliveReplicas.get? rid := by
  induction rids generalizing manager with
  | nil => exact ⟨manager, rfl, htracked, rfl, fun rid => by simp⟩
  | cons first rids ih =>
      obtain ⟨hfirst, hrest⟩ := List.forall_mem_cons.mp hrids
      obtain ⟨replica, hreplica⟩ := Option.isSome_iff_exists.mp
        ((Dict.get?_isSome_iff _ _).mpr hfirst)
      obtain ⟨next, hnext, htracked', hbalancer, halive⟩ : ∃ next,
          track deployment manager first = some next ∧ Tracked deployment next ∧
            next.globalLoadBalancer = manager.globalLoadBalancer ∧
            ∀ rid, next.aliveReplicas.get? rid =
              if rid = first then some replica else manager.aliveReplicas.get? rid := by
        by_cases hkey : first ∈ manager.aliveReplicas.keys
        · obtain ⟨found, hfound⟩ := Option.isSome_iff_exists.mp
            ((Dict.get?_isSome_iff _ _).mpr hkey)
          obtain rfl := Option.some.inj
            ((htracked.alive_hybrid first found hfound).symm.trans hreplica)
          refine ⟨manager, track_of_alive htracked hfound, htracked, rfl, fun rid => ?_⟩
          split
          next heq => rw [heq, hfound]
          next => rfl
        · obtain ⟨hnext, htracked'⟩ := track_of_sleeping htracked hreplica hkey
          exact ⟨_, hnext, htracked', rfl, fun rid => Dict.get?_insert _ _ _ _⟩
      obtain ⟨final, hfinal, hall, hsame, hget⟩ := ih htracked' hrest
      refine ⟨final, by rw [untilKeyError, hnext]; exact hfinal, hall, hsame.trans hbalancer,
        fun rid => ?_⟩
      rw [hget, halive]
      by_cases hmem : rid ∈ rids
      · simp [hmem]
      · by_cases heq : rid = first <;> simp [hmem, heq, hreplica]

omit [DecidableEq Replica] in
theorem Tracked.active_nodup (htracked : Tracked deployment manager) :
    (active deployment manager).Nodup := by
  have hstandalone : deployment.standalone.Nodup :=
    (List.nodup_append.mp (List.Nodup.of_map _ deployment.addresses_nodup)).1
  have halive : (manager.aliveReplicas.entries.map Prod.snd).Nodup := by
    refine List.Nodup.map_on ?_ (List.Nodup.of_map _ manager.aliveReplicas.nodup_keys)
    rintro ⟨rid, replica⟩ hentry ⟨other, found⟩ hother (rfl : replica = found)
    have hrid := deployment.eq_of_get?_eq
      (htracked.alive_hybrid _ _ ((Dict.get?_eq_some_iff _ _ _).mpr hentry))
      (htracked.alive_hybrid _ _ ((Dict.get?_eq_some_iff _ _ _).mpr hother))
    rw [hrid]
  refine List.nodup_append.mpr ⟨hstandalone, halive, ?_⟩
  rintro replica hreplica found hfound rfl
  obtain ⟨⟨rid, _⟩, hentry, rfl⟩ := List.mem_map.mp hfound
  exact deployment.not_mem_standalone_of_get?
    (htracked.alive_hybrid _ _ ((Dict.get?_eq_some_iff _ _ _).mpr hentry)) hreplica

omit [DecidableEq Replica] in
theorem Tracked.addresses_nodup (htracked : Tracked deployment manager) :
    ((active deployment manager).map deployment.serverAddress).Nodup :=
  htracked.active_nodup.map_on fun _ hfirst _ hsecond =>
    deployment.eq_of_serverAddress_eq (htracked.mem_replicas hfirst)
      (htracked.mem_replicas hsecond)

/-- Untracking an active replica takes it out of all lists, and nothing else. -/
theorem untrack_of_alive (htracked : Tracked deployment manager) {rid : String}
    {replica : Replica} (halive : manager.aliveReplicas.get? rid = some replica) :
    untrack manager rid =
        some (leave manager rid (deployment.serverAddress replica) replica) ∧
      Tracked deployment (leave manager rid (deployment.serverAddress replica) replica) := by
  have haddress : manager.aliveAddresses.get? rid =
      some (deployment.serverAddress replica) := by
    rw [htracked.aliveAddresses, Dict.get?_map, halive]
    rfl
  refine ⟨by rw [untrack, haddress, halive], ?_⟩
  obtain ⟨front, back, hentries⟩ :=
    List.append_of_mem ((Dict.get?_eq_some_iff _ _ _).mp halive)
  have hkeys := manager.aliveReplicas.nodup_keys
  rw [hentries, List.map_append, List.map_cons, List.nodup_middle, List.nodup_cons,
    List.mem_append, not_or] at hkeys
  have hfiltered : (manager.aliveReplicas.filter fun other => other ≠ rid).entries =
      front ++ back := by
    have hother : ∀ entries : List (String × Replica), rid ∉ entries.map Prod.fst →
        entries.filter (fun entry => decide (entry.1 ≠ rid)) = entries := by
      intro entries hnot
      refine List.filter_eq_self.mpr fun entry hentry => decide_eq_true ?_
      rintro rfl
      exact hnot (List.mem_map_of_mem hentry)
    simp only [Dict.filter]
    rw [hentries, List.filter_append, List.filter_cons_of_neg (by simp),
      hother front hkeys.1.1, hother back hkeys.1.2]
  -- The lists hold the replica at one place, behind the same number of others.
  have hactive : active deployment manager =
      (deployment.standalone ++ front.map Prod.snd) ++ replica :: back.map Prod.snd := by
    rw [active, hentries, List.map_append, List.map_cons, List.append_assoc]
  generalize hbefore : deployment.standalone ++ front.map Prod.snd = before at hactive
  have hnext : deployment.standalone ++
      (manager.aliveReplicas.filter fun other => other ≠ rid).entries.map Prod.snd =
        before ++ back.map Prod.snd := by
    rw [hfiltered, List.map_append, ← List.append_assoc, hbefore]
  have hunknown : deployment.serverAddress replica ∉ before.map deployment.serverAddress := by
    have hnodup := htracked.addresses_nodup
    rw [hactive, List.map_append, List.map_cons, List.nodup_middle, List.nodup_cons,
      List.mem_append, not_or] at hnodup
    exact hnodup.1.1
  have hmem : deployment.serverAddress replica ∈ manager.serverAddresses := by
    rw [htracked.serverAddresses, hactive]
    simp
  have hidx : manager.serverAddresses.idxOf (deployment.serverAddress replica) =
      before.length := by
    rw [htracked.serverAddresses, hactive, List.map_append,
      List.idxOf_append_of_notMem hunknown, List.map_cons, List.idxOf_cons_self,
      List.length_map, Nat.add_zero]
  have herase : ∀ {β : Type} (f : Replica → β),
      ((active deployment manager).map f).eraseIdx before.length =
        (before ++ back.map Prod.snd).map f := by
    intro β f
    rw [hactive, List.map_append, List.eraseIdx_append_of_length_le (by simp)]
    simp
  constructor
  · intro other found hget
    simp only [leave, Dict.get?_filter] at hget
    split at hget
    next => exact htracked.alive_hybrid other found hget
    next => simp at hget
  · simp only [leave]
    rw [htracked.aliveAddresses, Dict.filter_map]
  · simp only [leave, active]
    rw [hnext, htracked.rolloutReplicas, hactive, List.erase_append_right _ (fun hin =>
      hunknown (List.mem_map_of_mem hin)), List.erase_cons_head]
  · simp only [leave, active, hmem, if_true, hidx]
    rw [hnext, htracked.serverAddresses, herase]
  · simp only [leave, active, hmem, if_true, hidx]
    rw [hnext, htracked.serverHandles, herase]

/-- The loop of a removal untracks active replicas that it is given once each. -/
theorem untilKeyError_untrack (htracked : Tracked deployment manager) {rids : List String}
    (hnodup : rids.Nodup) (hrids : ∀ rid ∈ rids, rid ∈ manager.aliveReplicas.keys) :
    ∃ next, untilKeyError untrack manager rids = (true, next) ∧ Tracked deployment next ∧
      next.globalLoadBalancer = manager.globalLoadBalancer ∧
      ∀ rid, next.aliveReplicas.get? rid =
        if rid ∈ rids then none else manager.aliveReplicas.get? rid := by
  induction rids generalizing manager with
  | nil => exact ⟨manager, rfl, htracked, rfl, fun rid => by simp⟩
  | cons first rids ih =>
      obtain ⟨hnew, hnodup⟩ := List.nodup_cons.mp hnodup
      obtain ⟨hfirst, hrest⟩ := List.forall_mem_cons.mp hrids
      obtain ⟨replica, hreplica⟩ := Option.isSome_iff_exists.mp
        ((Dict.get?_isSome_iff _ _).mpr hfirst)
      obtain ⟨hnext, htracked'⟩ := untrack_of_alive htracked hreplica
      have hrest' : ∀ rid ∈ rids, rid ∈ (leave manager first
          (deployment.serverAddress replica) replica).aliveReplicas.keys := fun rid hrid =>
        Dict.mem_keys_filter.mpr ⟨hrest rid hrid, fun heq => hnew (heq ▸ hrid)⟩
      obtain ⟨final, hfinal, hall, hsame, hget⟩ := ih htracked' hnodup hrest'
      refine ⟨final, by rw [untilKeyError, hnext]; exact hfinal, hall, hsame, fun rid => ?_⟩
      rw [hget]
      simp only [leave, Dict.get?_filter]
      by_cases hmem : rid ∈ rids
      · simp [hmem]
      · by_cases heq : rid = first <;> simp [hmem, heq]

/-! ## The pool of the balancer -/

/-- The balancer has the servers of the replicas in use. -/
def Registered (deployment : Deployment Replica Handle)
    (manager : ServerManager RequestId Replica Handle) : Prop :=
  ∀ address handle, manager.globalLoadBalancer.servers.get? address = some handle ↔
    ∃ replica ∈ active deployment manager,
      deployment.serverAddress replica = address ∧ deployment.serverHandle replica = handle

omit [DecidableEq Replica] in
theorem get?_serversToAdd (rids : List String) (address : String) (handle : Handle) :
    (serversToAdd deployment rids).get? address = some handle ↔
      ∃ rid ∈ rids, ∃ replica, deployment.hybridReplicas.get? rid = some replica ∧
        deployment.serverAddress replica = address ∧
          deployment.serverHandle replica = handle := by
  induction rids using List.reverseRecOn with
  | nil => simp [serversToAdd]
  | append_singleton rids last ih =>
      have hlater : (∃ rid ∈ rids, ∃ replica,
          deployment.hybridReplicas.get? rid = some replica ∧
            deployment.serverAddress replica = address ∧
              deployment.serverHandle replica = handle) →
          ∃ rid ∈ rids ++ [last], ∃ replica,
            deployment.hybridReplicas.get? rid = some replica ∧
              deployment.serverAddress replica = address ∧
                deployment.serverHandle replica = handle := by
        rintro ⟨rid, hmem, hrest⟩
        exact ⟨rid, List.mem_append_left _ hmem, hrest⟩
      cases hlast : deployment.hybridReplicas.get? last with
      | none =>
          have hstep : serversToAdd deployment (rids ++ [last]) = serversToAdd deployment rids := by
            rw [serversToAdd, List.foldl_append, List.foldl_cons, List.foldl_nil, hlast]
            rfl
          rw [hstep]
          refine ⟨fun hget => hlater (ih.mp hget), ?_⟩
          rintro ⟨rid, hmem, replica, hreplica, hrest⟩
          rcases List.mem_append.mp hmem with hmem | hmem
          · exact ih.mpr ⟨rid, hmem, replica, hreplica, hrest⟩
          · rw [List.mem_singleton.mp hmem, hlast] at hreplica
            simp at hreplica
      | some replica =>
          have hstep : serversToAdd deployment (rids ++ [last]) =
              (serversToAdd deployment rids).insert (deployment.serverAddress replica)
                (deployment.serverHandle replica) := by
            rw [serversToAdd, List.foldl_append, List.foldl_cons, List.foldl_nil, hlast]
            rfl
          simp only [hstep, Dict.get?_insert]
          split
          next heq =>
            constructor
            · intro hhandle
              exact ⟨last, by simp, replica, hlast, heq.symm, Option.some.inj hhandle⟩
            · rintro ⟨rid, _, found, hfound, haddress, rfl⟩
              rw [deployment.eq_of_serverAddress_eq
                (deployment.mem_replicas_of_get? hfound)
                (deployment.mem_replicas_of_get? hlast) (haddress.trans heq)]
          next hne =>
            refine ⟨fun hget => hlater (ih.mp hget), ?_⟩
            rintro ⟨rid, hmem, found, hfound, haddress, hhandle⟩
            rcases List.mem_append.mp hmem with hmem | hmem
            · exact ih.mpr ⟨rid, hmem, found, hfound, haddress, hhandle⟩
            · rw [List.mem_singleton.mp hmem, hlast] at hfound
              obtain rfl := Option.some.inj hfound
              exact absurd haddress.symm hne

omit [DecidableEq Replica] in
/-- The pool is as large as the number of replicas in use. -/
theorem Tracked.length_servers (htracked : Tracked deployment manager)
    (hregistered : Registered deployment manager) :
    manager.globalLoadBalancer.servers.entries.length =
      (active deployment manager).length := by
  have hperm : List.Perm manager.globalLoadBalancer.servers.keys
      ((active deployment manager).map deployment.serverAddress) := by
    refine (List.perm_ext_iff_of_nodup (Dict.keys_nodup _) htracked.addresses_nodup).mpr
      fun address => ?_
    rw [← Dict.get?_isSome_iff, Option.isSome_iff_exists, List.mem_map]
    simp only [hregistered address]
    constructor
    · rintro ⟨_, replica, hmem, haddress, _⟩
      exact ⟨replica, hmem, haddress⟩
    · rintro ⟨replica, hmem, haddress⟩
      exact ⟨_, replica, hmem, haddress, rfl⟩
  simpa [Dict.keys] using hperm.length_eq

/-! ## The calls -/

/-- The manager and the balancer agree on the replicas in use. -/
structure Consistent (deployment : Deployment Replica Handle)
    (manager : ServerManager RequestId Replica Handle) : Prop where
  tracked : Tracked deployment manager
  registered : Registered deployment manager

omit [DecidableEq Replica] in
theorem Tracked.get?_of_not_addable (htracked : Tracked deployment manager) {rid : String}
    (hrid : ¬ manager.Addable deployment rid) :
    manager.aliveReplicas.get? rid = deployment.hybridReplicas.get? rid := by
  cases halive : manager.aliveReplicas.get? rid with
  | some replica => exact (htracked.alive_hybrid rid replica halive).symm
  | none =>
      refine ((Dict.get?_eq_none_iff _ _).mpr fun hkey => hrid ⟨?_, hkey⟩).symm
      exact (Dict.get?_eq_none_iff _ _).mp halive

omit [DecidableEq Replica] in
theorem Tracked.withBalancer (htracked : Tracked deployment manager)
    (balancer : LoadBalancer RequestId String Handle) :
    Tracked deployment { manager with globalLoadBalancer := balancer } :=
  ⟨htracked.alive_hybrid, htracked.aliveAddresses, htracked.rolloutReplicas,
    htracked.serverAddresses, htracked.serverHandles⟩

/-- An answered addition activates the hybrid replicas that it names. -/
theorem addReplicas_tracked (htracked : Tracked deployment manager) (resourceIds : List String) :
    Tracked deployment (manager.addReplicas deployment true resourceIds).2 ∧
      (manager.addReplicas deployment true resourceIds).2.globalLoadBalancer =
        manager.globalLoadBalancer.addServers (serversToAdd deployment
          (resourceIds.filter fun rid => manager.Addable deployment rid)) ∧
      ∀ rid, (manager.addReplicas deployment true resourceIds).2.aliveReplicas.get? rid =
        if rid ∈ resourceIds then deployment.hybridReplicas.get? rid
        else manager.aliveReplicas.get? rid := by
  rw [addReplicas]
  split
  next hempty =>
    have hnone : ∀ rid ∈ resourceIds, ¬ manager.Addable deployment rid := by
      intro rid hrid haddable
      obtain ⟨replica, hreplica⟩ := Option.isSome_iff_exists.mp
        ((Dict.get?_isSome_iff _ _).mpr haddable.2)
      have hvalid : rid ∈ resourceIds.filter fun rid => manager.Addable deployment rid :=
        List.mem_filter.mpr ⟨hrid, decide_eq_true haddable⟩
      have hget := (get?_serversToAdd _ _ _).mpr ⟨rid, hvalid, replica, hreplica, rfl, rfl⟩
      rw [Dict.get?, hempty] at hget
      simp at hget
    refine ⟨htracked, ?_, fun rid => ?_⟩
    · rw [LoadBalancer.addServers, hempty, List.foldl_nil]
    · split
      next hrid => exact htracked.get?_of_not_addable (hnone rid hrid)
      next => rfl
  next =>
    have hhybrid : ∀ rid ∈ resourceIds.filter fun rid => manager.Addable deployment rid,
        rid ∈ deployment.hybridReplicas.keys := fun rid hrid =>
      (of_decide_eq_true (List.mem_filter.mp hrid).2).2
    obtain ⟨next, hnext, htracked', hbalancer, hget⟩ := untilKeyError_track
      (htracked.withBalancer (manager.globalLoadBalancer.addServers (serversToAdd deployment
        (resourceIds.filter fun rid => manager.Addable deployment rid)))) hhybrid
    simp only [if_true, hnext]
    refine ⟨htracked', hbalancer, fun rid => ?_⟩
    rw [hget]
    by_cases hrid : rid ∈ resourceIds
    · by_cases haddable : manager.Addable deployment rid
      · simp [hrid, haddable]
      · simp [hrid, haddable, htracked.get?_of_not_addable haddable]
    · simp [hrid]

omit [DecidableEq Replica] in
/-- A loop keeps what its rounds keep. -/
theorem untilKeyError_induction (keeps : ServerManager RequestId Replica Handle → Prop)
    {step : ServerManager RequestId Replica Handle → String →
      Option (ServerManager RequestId Replica Handle)}
    (hstep : ∀ manager rid next, step manager rid = some next → keeps manager → keeps next)
    (rids : List String) (manager : ServerManager RequestId Replica Handle)
    (hkeeps : keeps manager) : keeps (untilKeyError step manager rids).2 := by
  induction rids generalizing manager with
  | nil => exact hkeeps
  | cons first rids ih =>
      rw [untilKeyError]
      split
      next => exact hkeeps
      next next hnext => exact ih next (hstep _ _ _ hnext hkeeps)

theorem untrack_tracked (manager : ServerManager RequestId Replica Handle) (rid : String)
    (next : ServerManager RequestId Replica Handle) (hnext : untrack manager rid = some next)
    (htracked : Tracked deployment manager) : Tracked deployment next := by
  cases halive : manager.aliveReplicas.get? rid with
  | none =>
      rw [untrack, halive] at hnext
      split at hnext
      next heq => simp at heq
      next => simp at hnext
  | some replica =>
      obtain ⟨huntrack, htracked'⟩ := untrack_of_alive htracked halive
      rw [huntrack] at hnext
      rwa [← Option.some.inj hnext]

/-- The lists stay right also when a removal breaks off. -/
theorem removeReplicas_tracked (htracked : Tracked deployment manager) (rpc : Bool)
    (resourceIds : List String) :
    Tracked deployment (manager.removeReplicas rpc resourceIds).2 := by
  rw [removeReplicas]
  split
  next => exact htracked
  next =>
    split
    next =>
      have hkept := untilKeyError_induction (Tracked deployment) untrack_tracked
        (resourceIds.filter fun rid => rid ∈ manager.aliveReplicas.keys) _
        (htracked.withBalancer (manager.globalLoadBalancer.removeServers
          ((resourceIds.filter fun rid => rid ∈ manager.aliveReplicas.keys).filterMap
            manager.aliveAddresses.get?)))
      dsimp only
      split
      next heq => rwa [heq] at hkept
      next heq => rwa [heq] at hkept
    next => exact htracked

omit [DecidableEq Replica] in
/-- The addresses that a removal hands to the balancer. -/
theorem Tracked.mem_serverIds (htracked : Tracked deployment manager) (resourceIds : List String)
    (address : String) :
    address ∈ (resourceIds.filter fun rid => rid ∈ manager.aliveReplicas.keys).filterMap
        manager.aliveAddresses.get? ↔
      ∃ rid ∈ resourceIds, ∃ replica, manager.aliveReplicas.get? rid = some replica ∧
        deployment.serverAddress replica = address := by
  rw [List.mem_filterMap, htracked.aliveAddresses]
  simp only [List.mem_filter, decide_eq_true_eq, Dict.get?_map, Option.map_eq_some_iff,
    ← Dict.get?_isSome_iff]
  constructor
  · rintro ⟨rid, ⟨hmem, _⟩, replica, hreplica, haddress⟩
    exact ⟨rid, hmem, replica, hreplica, haddress⟩
  · rintro ⟨rid, hmem, replica, hreplica, haddress⟩
    exact ⟨rid, ⟨hmem, by rw [hreplica]; rfl⟩, replica, hreplica, haddress⟩

/-- An answered removal deactivates the replicas that it names, where it names none twice. -/
theorem removeReplicas_once (htracked : Tracked deployment manager) {resourceIds : List String}
    (honce : (resourceIds.filter fun rid => rid ∈ manager.aliveReplicas.keys).Nodup) :
    (manager.removeReplicas true resourceIds).2.globalLoadBalancer =
        manager.globalLoadBalancer.removeServers
          ((resourceIds.filter fun rid => rid ∈ manager.aliveReplicas.keys).filterMap
            manager.aliveAddresses.get?) ∧
      ∀ rid, (manager.removeReplicas true resourceIds).2.aliveReplicas.get? rid =
        if rid ∈ resourceIds then none else manager.aliveReplicas.get? rid := by
  rw [removeReplicas]
  split
  next hempty =>
    refine ⟨by rw [hempty]; rfl, fun rid => ?_⟩
    split
    next hrid =>
      cases halive : manager.aliveReplicas.get? rid with
      | none => rfl
      | some replica =>
          have hmem := (htracked.mem_serverIds resourceIds _).mpr
            ⟨rid, hrid, replica, halive, rfl⟩
          rw [hempty] at hmem
          simp at hmem
    next => rfl
  next =>
    have hkeys : ∀ rid ∈ resourceIds.filter fun rid => rid ∈ manager.aliveReplicas.keys,
        rid ∈ manager.aliveReplicas.keys := fun rid hrid =>
      of_decide_eq_true (List.mem_filter.mp hrid).2
    obtain ⟨next, hnext, _, hbalancer, hget⟩ := untilKeyError_untrack
      (htracked.withBalancer (manager.globalLoadBalancer.removeServers
        ((resourceIds.filter fun rid => rid ∈ manager.aliveReplicas.keys).filterMap
          manager.aliveAddresses.get?))) honce hkeys
    simp only [if_true, hnext]
    refine ⟨hbalancer, fun rid => ?_⟩
    rw [hget]
    by_cases hrid : rid ∈ resourceIds
    · by_cases hkey : rid ∈ manager.aliveReplicas.keys
      · simp [hrid, hkey]
      · simp [hrid, hkey, (Dict.get?_eq_none_iff _ _).mpr hkey]
    · simp [hrid]

theorem Consistent.addReplicas (hconsistent : Consistent deployment manager)
    (resourceIds : List String) :
    Consistent deployment (manager.addReplicas deployment true resourceIds).2 := by
  obtain ⟨htracked, hbalancer, halive⟩ :=
    addReplicas_tracked hconsistent.tracked resourceIds
  refine ⟨htracked, fun address handle => ?_⟩
  rw [hbalancer, get?_servers_addServers, Option.or_eq_some_iff, get?_serversToAdd,
    hconsistent.registered]
  simp only [mem_active, halive]
  constructor
  · rintro (⟨rid, hvalid, replica, hreplica, haddress⟩ | ⟨_, replica, hactive, haddress⟩)
    · refine ⟨replica, .inr ⟨rid, ?_⟩, haddress⟩
      rw [if_pos (List.mem_filter.mp hvalid).1, hreplica]
    · refine ⟨replica, hactive.imp_right ?_, haddress⟩
      rintro ⟨rid, hrid⟩
      refine ⟨rid, ?_⟩
      split
      next => exact hconsistent.tracked.alive_hybrid rid replica hrid
      next => exact hrid
  · rintro ⟨replica, hactive, haddress, hhandle⟩
    by_cases hadded : ∃ rid ∈ resourceIds, manager.Addable deployment rid ∧
        deployment.hybridReplicas.get? rid = some replica
    · obtain ⟨rid, hrid, haddable, hreplica⟩ := hadded
      exact .inl ⟨rid, List.mem_filter.mpr ⟨hrid, decide_eq_true haddable⟩, replica,
        hreplica, haddress, hhandle⟩
    · refine .inr ⟨?_, replica, hactive.imp_right ?_, haddress, hhandle⟩
      · refine Option.eq_none_iff_forall_ne_some.mpr fun found hfound => hadded ?_
        obtain ⟨rid, hvalid, other, hother, hsame, _⟩ := (get?_serversToAdd _ _ _).mp hfound
        obtain ⟨hrid, haddable⟩ := List.mem_filter.mp hvalid
        have hreplica : replica ∈ deployment.replicas :=
          htracked.mem_replicas (mem_active.mpr (by simpa only [halive] using hactive))
        rw [deployment.eq_of_serverAddress_eq (deployment.mem_replicas_of_get? hother)
          hreplica (hsame.trans haddress.symm)] at hother
        exact ⟨rid, hrid, of_decide_eq_true haddable, hother⟩
      · rintro ⟨rid, hget⟩
        refine ⟨rid, ?_⟩
        split at hget
        next hrid =>
          rwa [hconsistent.tracked.get?_of_not_addable fun haddable =>
            hadded ⟨rid, hrid, haddable, hget⟩]
        next => exact hget

theorem Consistent.removeReplicas (hconsistent : Consistent deployment manager)
    {resourceIds : List String}
    (honce : (resourceIds.filter fun rid => rid ∈ manager.aliveReplicas.keys).Nodup) :
    Consistent deployment (manager.removeReplicas true resourceIds).2 := by
  obtain ⟨hbalancer, halive⟩ := removeReplicas_once hconsistent.tracked honce
  refine ⟨removeReplicas_tracked hconsistent.tracked true resourceIds,
    fun address handle => ?_⟩
  rw [hbalancer, (get?_removeServers _ _ _).1]
  simp only [mem_active, halive, hconsistent.tracked.mem_serverIds]
  split
  next hremoved =>
    obtain ⟨rid, hrid, replica, hreplica, haddress⟩ := hremoved
    have hhybrid := hconsistent.tracked.alive_hybrid rid replica hreplica
    refine iff_of_false (by simp) ?_
    rintro ⟨other, hactive, hother, _⟩
    have hmem : other ∈ active deployment manager := by
      refine mem_active.mpr (hactive.imp_right ?_)
      rintro ⟨otherRid, hget⟩
      exact ⟨otherRid, (Option.ite_none_left_eq_some.mp hget).2⟩
    obtain rfl := deployment.eq_of_serverAddress_eq (hconsistent.tracked.mem_replicas hmem)
      (deployment.mem_replicas_of_get? hhybrid) (hother.trans haddress.symm)
    rcases hactive with hstandalone | ⟨otherRid, hget⟩
    · exact deployment.not_mem_standalone_of_get? hhybrid hstandalone
    · obtain ⟨hkept, hget⟩ := Option.ite_none_left_eq_some.mp hget
      rw [deployment.eq_of_get?_eq (hconsistent.tracked.alive_hybrid _ _ hget) hhybrid]
        at hkept
      exact hkept hrid
  next hkept =>
    rw [hconsistent.registered]
    simp only [mem_active]
    constructor
    · rintro ⟨replica, hactive, haddress, hhandle⟩
      refine ⟨replica, hactive.imp_right ?_, haddress, hhandle⟩
      rintro ⟨rid, hget⟩
      exact ⟨rid, Option.ite_none_left_eq_some.mpr
        ⟨fun hrid => hkept ⟨rid, hrid, replica, hget, haddress⟩, hget⟩⟩
    · rintro ⟨replica, hactive, haddress⟩
      refine ⟨replica, hactive.imp_right ?_, haddress⟩
      rintro ⟨rid, hget⟩
      exact ⟨rid, (Option.ite_none_left_eq_some.mp hget).2⟩

/-- A call that the balancer does not answer changes nothing. -/
theorem call_of_rpc_eq_false (manager : ServerManager RequestId Replica Handle) {call : Call}
    (hrpc : call.rpc = false) : manager.call deployment call = manager := by
  cases call with
  | addReplicas resourceIds rpc =>
      obtain rfl : rpc = false := hrpc
      simp only [ServerManager.call, ServerManager.addReplicas, Bool.false_eq_true, if_false,
        ite_self]
  | removeReplicas resourceIds rpc =>
      obtain rfl : rpc = false := hrpc
      simp only [ServerManager.call, ServerManager.removeReplicas, Bool.false_eq_true, if_false,
        ite_self]

theorem Tracked.call (htracked : Tracked deployment manager) (call : Call) :
    Tracked deployment (manager.call deployment call) := by
  cases call with
  | addReplicas resourceIds rpc =>
      cases rpc with
      | true => exact (addReplicas_tracked htracked resourceIds).1
      | false => rwa [call_of_rpc_eq_false manager rfl]
  | removeReplicas resourceIds rpc => exact removeReplicas_tracked htracked rpc resourceIds

theorem Consistent.call (hconsistent : Consistent deployment manager) {call : Call}
    (honce : manager.RemovesOnce call) :
    Consistent deployment (manager.call deployment call) := by
  cases hrpc : call.rpc with
  | false => rwa [call_of_rpc_eq_false manager hrpc]
  | true =>
      cases call with
      | addReplicas resourceIds rpc =>
          obtain rfl : rpc = true := hrpc
          exact hconsistent.addReplicas resourceIds
      | removeReplicas resourceIds rpc =>
          obtain rfl : rpc = true := hrpc
          exact hconsistent.removeReplicas honce

/-! ## Runs -/

omit [DecidableEq Replica] in
theorem create_consistent (deployment : Deployment Replica Handle) (maxCacheSize : ℕ) :
    Consistent deployment
      (create deployment maxCacheSize : ServerManager RequestId Replica Handle) := by
  have hactive : active deployment
      (create deployment maxCacheSize : ServerManager RequestId Replica Handle) =
        deployment.standalone := List.append_nil _
  have htracked : Tracked deployment
      (create deployment maxCacheSize : ServerManager RequestId Replica Handle) :=
    ⟨fun _ _ hget => by simp [create] at hget, rfl, hactive.symm, by rw [hactive]; rfl,
      by rw [hactive]; rfl⟩
  refine ⟨htracked, fun address handle => ?_⟩
  have hkeys := htracked.addresses_nodup
  rw [hactive] at hkeys ⊢
  rw [Dict.get?_eq_some_iff, create, LoadBalancer.new, List.zip_map',
    Dict.entries_ofList (by simpa [Function.comp_def] using hkeys), List.mem_map]
  simp only [Prod.mk.injEq]

theorem run_concat (deployment : Deployment Replica Handle) (maxCacheSize : ℕ)
    (calls : List Call) (call : Call) :
    (run deployment maxCacheSize (calls ++ [call]) : ServerManager RequestId Replica Handle) =
      (run deployment maxCacheSize calls).call deployment call := by
  rw [run, List.foldl_append]
  rfl

/-- The lists hold the replicas in use after every run. -/
theorem run_tracked (deployment : Deployment Replica Handle) (maxCacheSize : ℕ)
    (calls : List Call) :
    Tracked deployment
      (run deployment maxCacheSize calls : ServerManager RequestId Replica Handle) := by
  induction calls using List.reverseRecOn with
  | nil => exact (create_consistent deployment maxCacheSize).tracked
  | append_singleton calls last ih =>
      rw [run_concat]
      exact ih.call last

/-- The pool of the balancer is right where no removal names an active replica twice. -/
theorem run_consistent (deployment : Deployment Replica Handle) (maxCacheSize : ℕ)
    {calls : List Call} (honce : ∀ before call after, calls = before ++ call :: after →
      RemovesOnce (run deployment maxCacheSize before : ServerManager RequestId Replica Handle)
        call) :
    Consistent deployment
      (run deployment maxCacheSize calls : ServerManager RequestId Replica Handle) := by
  induction calls using List.reverseRecOn with
  | nil => exact create_consistent deployment maxCacheSize
  | append_singleton calls last ih =>
      rw [run_concat]
      refine (ih fun before call after hcalls => ?_).call (honce calls last [] rfl)
      exact honce before call (after ++ [last]) (by rw [hcalls, List.append_assoc]; rfl)

omit [DecidableEq Replica] in
/-- The count of active servers counts the active hybrid ones twice. -/
theorem Consistent.getActiveServerCount_eq (hconsistent : Consistent deployment manager) :
    manager.getActiveServerCount =
      manager.globalLoadBalancer.servers.entries.length +
        manager.aliveReplicas.entries.length := by
  rw [getActiveServerCount, hconsistent.tracked.length_servers hconsistent.registered,
    hconsistent.tracked.rolloutReplicas]

/-- Nothing is activated. -/
theorem run_idle (deployment : Deployment Replica Handle) (maxCacheSize : ℕ)
    {calls : List Call} (hidle : ∀ call ∈ calls, ¬ Activates deployment call) :
    Consistent deployment
        (run deployment maxCacheSize calls : ServerManager RequestId Replica Handle) ∧
      ∀ rid, (run deployment maxCacheSize calls :
        ServerManager RequestId Replica Handle).aliveReplicas.get? rid = none := by
  induction calls using List.reverseRecOn with
  | nil => exact ⟨create_consistent deployment maxCacheSize, fun rid => Dict.get?_empty rid⟩
  | append_singleton calls last ih =>
      obtain ⟨hconsistent, hnone⟩ := ih fun call hcall =>
        hidle call (List.mem_append_left _ hcall)
      have hlast := hidle last (by simp)
      have hnot : ∀ rid, rid ∉ (run deployment maxCacheSize calls :
          ServerManager RequestId Replica Handle).aliveReplicas.keys := fun rid =>
        (Dict.get?_eq_none_iff _ _).mp (hnone rid)
      rw [run_concat]
      generalize (run deployment maxCacheSize calls :
        ServerManager RequestId Replica Handle) = manager at hconsistent hnone hnot ⊢
      have honce : manager.RemovesOnce last := by
        cases last with
        | addReplicas resourceIds rpc => trivial
        | removeReplicas resourceIds rpc => simp [RemovesOnce, hnot]
      refine ⟨hconsistent.call honce, fun rid => ?_⟩
      cases hrpc : last.rpc with
      | false => rw [call_of_rpc_eq_false manager hrpc, hnone]
      | true =>
          cases last with
          | addReplicas resourceIds rpc =>
              obtain rfl : rpc = true := hrpc
              rw [ServerManager.call, (addReplicas_tracked hconsistent.tracked _).2.2, hnone]
              split
              next hrid =>
                exact (Dict.get?_eq_none_iff _ _).mpr fun hkey => hlast ⟨rfl, rid, hrid, hkey⟩
              next => rfl
          | removeReplicas resourceIds rpc =>
              obtain rfl : rpc = true := hrpc
              rw [ServerManager.call, (removeReplicas_once hconsistent.tracked honce).2, hnone,
                ite_self]

/-! ## The bookkeeping that the readers rely on -/

/-- What is promised of the manager between two calls. -/
structure BookkeepingRight (deployment : Deployment Replica Handle)
    (manager : ServerManager RequestId Replica Handle) : Prop where
  servers : Registered deployment manager
  activeServerCount : manager.getActiveServerCount =
    manager.globalLoadBalancer.servers.entries.length
  standaloneReplicas : manager.getStandaloneReplicas = deployment.standalone
  parallel : ∃ replicas : List Replica,
    manager.serverAddresses = replicas.map deployment.serverAddress ∧
      manager.serverHandles = replicas.map deployment.serverHandle

/-- The bookkeeping is right all along a run, and failed calls change nothing. -/
def BookkeepingHolds (RequestId : Type) (deployment : Deployment Replica Handle)
    (maxCacheSize : ℕ) (calls : List Call) : Prop :=
  (∀ n, BookkeepingRight deployment (run deployment maxCacheSize (calls.take n) :
      ServerManager RequestId Replica Handle)) ∧
    ∀ n call, calls[n]? = some call → call.rpc = false →
      (run deployment maxCacheSize (calls.take (n + 1)) :
        ServerManager RequestId Replica Handle) =
          run deployment maxCacheSize (calls.take n)

/-- A run keeps the bookkeeping right exactly when it activates no hybrid replica. -/
theorem bookkeepingHolds_iff (deployment : Deployment Replica Handle) (maxCacheSize : ℕ)
    (calls : List Call) :
    BookkeepingHolds RequestId deployment maxCacheSize calls ↔
      ∀ call ∈ calls, ¬ Activates deployment call := by
  constructor
  · rintro ⟨hright, _⟩ call hcall hactivates
    obtain ⟨before, after, rfl⟩ := List.append_of_mem hcall
    have hnext := hright (before.length + 1)
    rw [List.take_length_add_append, List.take_succ_cons, List.take_zero, run_concat] at hnext
    have htracked : Tracked deployment (run deployment maxCacheSize before :
      ServerManager RequestId Replica Handle) := run_tracked deployment maxCacheSize before
    cases call with
    | removeReplicas resourceIds rpc => exact hactivates
    | addReplicas resourceIds rpc =>
        obtain ⟨rfl, rid, hrid, hkey⟩ := hactivates
        have hstandalone := hnext.standaloneReplicas
        rw [getStandaloneReplicas, (htracked.call _).rolloutReplicas, active,
          List.append_right_eq_self, List.map_eq_nil_iff] at hstandalone
        have halive := (addReplicas_tracked htracked resourceIds).2.2 rid
        rw [if_pos hrid, Dict.get?] at halive
        rw [ServerManager.call] at hstandalone
        rw [hstandalone, List.lookup_nil] at halive
        exact (Dict.get?_eq_none_iff _ _).mp halive.symm hkey
  · intro hidle
    refine ⟨fun n => ?_, fun n call hcall hrpc => ?_⟩
    · have hidle' : ∀ call ∈ calls.take n, ¬ Activates deployment call := fun call hcall =>
        hidle call (List.mem_of_mem_take hcall)
      obtain ⟨hconsistent, hnone⟩ := @run_idle RequestId _ _ _ deployment maxCacheSize _ hidle'
      generalize (run deployment maxCacheSize (calls.take n) :
        ServerManager RequestId Replica Handle) = manager at hconsistent hnone ⊢
      have hempty : manager.aliveReplicas.entries = [] := by
        refine List.eq_nil_iff_forall_not_mem.mpr fun entry hentry => ?_
        have hget := (Dict.get?_eq_some_iff _ entry.1 entry.2).mpr hentry
        rw [hnone] at hget
        exact absurd hget (by simp)
      refine ⟨hconsistent.registered, ?_, ?_, active deployment manager,
        hconsistent.tracked.serverAddresses, hconsistent.tracked.serverHandles⟩
      · rw [hconsistent.getActiveServerCount_eq, hempty, List.length_nil, Nat.add_zero]
      · rw [getStandaloneReplicas, hconsistent.tracked.rolloutReplicas, active, hempty,
          List.map_nil, List.append_nil]
    · rw [List.take_add_one, hcall, Option.toList_some, run_concat,
        call_of_rpc_eq_false _ hrpc]

/-- A standalone replica and a hybrid one. -/
def oneHybrid : Deployment ℕ ℕ where
  serverAddress := fun replica => if replica = 0 then "standalone" else "hybrid"
  serverHandle := id
  standalone := [0]
  hybridReplicas := .ofList [("hybrid_0", 1)]
  addresses_nodup := by decide

/-- Its activation makes three active servers out of two, and two standalone replicas out
of one. -/
theorem oneHybrid_not_bookkeepingHolds :
    (run oneHybrid 10 [.addReplicas ["hybrid_0"] true] :
        ServerManager ℕ ℕ ℕ).getActiveServerCount = 3 ∧
      (run oneHybrid 10 [.addReplicas ["hybrid_0"] true] :
        ServerManager ℕ ℕ ℕ).globalLoadBalancer.servers.keys = ["standalone", "hybrid"] ∧
      (run oneHybrid 10 [.addReplicas ["hybrid_0"] true] :
        ServerManager ℕ ℕ ℕ).getStandaloneReplicas = [0, 1] ∧
      ¬ BookkeepingHolds ℕ oneHybrid 10 [.addReplicas ["hybrid_0"] true] := by
  refine ⟨by decide, by decide, by decide, fun hholds => ?_⟩
  have hcount := (hholds.1 1).activeServerCount
  revert hcount
  decide

end ServerManager

end OneShotOPD.FullyAsync
