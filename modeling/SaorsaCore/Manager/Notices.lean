import SaorsaCore.Manager.Events
import SaorsaCore.Routing.Refusal

/-!
# Notices of close group changes

A critical section that changes the `K` closest peers leaves a
`KClosestPeersChanged` event among its events.  A retried admission that is refused
is the exception: its evictions stay and its events are dropped.
-/

namespace SaorsaCore.Manager

open Routing Closest List RoutingTable EngineConfig KBucket RoutingOp

def isCloseGroupChange : RoutingTableEvent → Bool
  | .kClosestPeersChanged _ _ => true
  | _ => false

/-! ## The closest peers and the membership -/

section Membership

variable {localId : PeerId} {k : ℕ} {before after : RoutingTable}

theorem mem_ids_iff_members {table : RoutingTable} (hvalid : table.Valid localId k)
    (peer : PeerId) :
    peer ∈ table.allNodes.map NodeInfo.id ↔ members table peer = true := by
  rw [members, ← hvalid.mem_ids_iff, mem_map]
  constructor
  · rintro ⟨node, hnode, rfl⟩
    obtain ⟨index, hmem⟩ := RoutingTable.Valid.mem_allNodes_iff.mp hnode
    exact ⟨index, mem_map_of_mem hmem⟩
  · rintro ⟨index, hmem⟩
    obtain ⟨node, hnode, rfl⟩ := mem_map.mp hmem
    exact ⟨node, RoutingTable.Valid.mem_allNodes_iff.mpr ⟨index, hnode⟩, rfl⟩

theorem kClosestIds_eq_closest (table : RoutingTable) (count : ℕ) :
    table.kClosestIds count = closest (fun peer => xorDistance peer table.nodeId)
      count (table.allNodes.map NodeInfo.id) :=
  map_closest (fun peer => xorDistance peer table.nodeId) NodeInfo.id count
    table.allNodes

/-- Peers that are not among the closest may leave without a change. -/
theorem kClosestIds_eq_of_members (hbefore : before.Valid localId k)
    (hafter : after.Valid localId k) {count : ℕ}
    (hfewer : ∀ peer, members after peer = true → members before peer = true)
    (hclosest : ∀ peer ∈ before.kClosestIds count, members after peer = true) :
    after.kClosestIds count = before.kClosestIds count := by
  have hperm : (after.allNodes.map NodeInfo.id).Perm
      ((before.allNodes.map NodeInfo.id).filter (members after)) := by
    rw [perm_ext_iff_of_nodup hafter.nodup_allNodes_ids (hbefore.nodup_allNodes_ids.filter _)]
    intro peer
    rw [mem_filter, mem_ids_iff_members hafter, mem_ids_iff_members hbefore]
    exact ⟨fun hmem => ⟨hfewer peer hmem, hmem⟩, And.right⟩
  have hnodup {table : RoutingTable} (hvalid : table.Valid localId k) :
      ((table.allNodes.map NodeInfo.id).map fun peer =>
        xorDistance peer localId).Nodup :=
    hvalid.nodup_allNodes_ids.map (xorDistance_left_injective localId)
  rw [kClosestIds_eq_closest before, hbefore.nodeId] at hclosest ⊢
  rw [kClosestIds_eq_closest, hafter.nodeId, closest_perm (hnodup hafter) hperm]
  exact closest_filter (hnodup hbefore) hclosest

theorem kClosestIds_eq_of_members_eq (hbefore : before.Valid localId k)
    (hafter : after.Valid localId k) (hmembers : members after = members before)
    (count : ℕ) : after.kClosestIds count = before.kClosestIds count := by
  apply kClosestIds_eq_of_members hbefore hafter
  · intro peer hmem
    rwa [hmembers] at hmem
  · intro peer hpeer
    rw [hmembers, ← mem_ids_iff_members hbefore]
    rw [kClosestIds_eq_closest] at hpeer
    exact closest_subset count _ hpeer

/-- The operations that rewrite the record of one peer at most. -/
def rewritesRecord {Score : Type*} : RoutingOp Score → Bool
  | .touch _ _ _ _ => true
  | .touchFast _ _ _ _ => true
  | .legacyRelayHint _ _ _ => true
  | .upgradeOnly _ _ _ => true
  | .replace _ _ _ _ _ => true
  | .storeTransport _ _ _ _ _ => true
  | _ => false

theorem members_apply_of_rewritesRecord {Score : Type*} [LinearOrder Score]
    {table : RoutingTable} (hvalid : table.Valid localId k) (codec : AddressCodec)
    (config : EngineConfig Score) {op : RoutingOp Score}
    (hrewrites : rewritesRecord op = true) :
    members (op.apply codec config table) = members table := by
  funext other
  cases op with
  | touch peer address addressType now =>
    exact congrFun (touchNode_members hvalid peer address addressType now) other
  | touchFast peer address addressType now =>
    exact (tryTouchLastSeen_rewrites table peer address addressType now).isSome_findNode other
  | legacyRelayHint peer address now =>
    rw [apply, touchLegacyRelayHintIfUnsequenced]
    split
    · rfl
    · exact congrFun (touchNode_members hvalid peer (some address) .relay now) other
  | upgradeOnly peer address addressType =>
    exact (mergeTypedAddressUpgradeOnly_rewrites table peer address
      addressType).isSome_findNode other
  | replace peer typed seq mode now =>
    by_cases haccepts : table.AcceptsV1 peer typed seq
    · exact (replaceNodeAddressesWithMode_applied
        hvalid.nodup haccepts mode now).1.isSome_findNode other
    · rw [apply, replaceNodeAddressesWithMode_refused haccepts mode now]
  | storeTransport peer set native mode now =>
    by_cases haccepts : table.AcceptsV2 peer native set
    · exact (storeTransportAddressSet_applied
        hvalid.nodup haccepts codec mode now).1.isSome_findNode other
    · rw [apply, storeTransportAddressSet_refused haccepts codec mode now]
  | _ => cases hrewrites

end Membership

/-! ## Critical sections -/

section Sections

variable {Score : Type*} {config : EngineConfig Score} {localId : PeerId} {k : ℕ}
  {table : RoutingTable}

/-- The closest peers are the same, or the events say that they are not. -/
def Announces (config : EngineConfig Score) (before : RoutingTable)
    (result : RoutingTable × List RoutingTableEvent) : Prop :=
  result.1.kClosestIds config.kValue = before.kClosestIds config.kValue ∨
    result.2.any isCloseGroupChange = true

theorem mutationEvents_announces (before after : RoutingTable) (changes : List RoutingTableEvent) :
    Announces config before (after, config.mutationEvents before after changes) := by
  by_cases hsame : before.kClosestIds config.kValue = after.kClosestIds config.kValue
  · exact Or.inl hsame.symm
  · apply Or.inr
    simp [mutationEvents, hsame, isCloseGroupChange]

theorem announces_rule (config : EngineConfig Score) (localId : PeerId) (k : ℕ) :
    SectionRule config localId k (Announces config) where
  touched hbefore hafter hmembers :=
    Or.inl (kClosestIds_eq_of_members_eq hbefore hafter hmembers config.kValue)
  removed {before} peer _ := by
    rw [removeNodeById]
    split
    · exact Or.inl rfl
    · exact mutationEvents_announces before _ _
  admitted _ _ hresult := by
    simp only [executeAdmission] at hresult ⊢
    split at hresult
    · cases hresult
    · cases hresult
      exact mutationEvents_announces _ _ _
  append hfirst hsecond := by
    rw [Announces] at hfirst hsecond ⊢
    rw [any_append, Bool.or_eq_true]
    rcases hsecond with hsame | hnotice
    · exact hfirst.imp hsame.trans Or.inl
    · exact Or.inr (Or.inr hnotice)

theorem members_removeNodeById (table : RoutingTable) (peer other : PeerId) :
    members (config.removeNodeById table peer).1 other =
      (decide (other ≠ peer) && members table other) := by
  rw [removeNodeById]
  by_cases hother : other = peer
  · subst hother
    split
    · next habsent => simpa [members] using habsent
    · simp [members, findNodeById_removeNode]
  · split
    · simp [hother]
    · simp [members, findNodeById_removeNode, hother]

theorem members_removeAll (config : EngineConfig Score) (table : RoutingTable)
    (peers : List PeerId) (peer : PeerId) :
    members (removeAll config table peers).1 peer =
      (decide (peer ∉ peers) && members table peer) := by
  induction peers using reverseRecOn with
  | nil => simp [removeAll]
  | append_singleton peers last ih =>
    have hstep : (removeAll config table (peers ++ [last])).1 =
        (config.removeNodeById (removeAll config table peers).1 last).1 := by
      rw [removeAll, foldl_append]
      rfl
    rw [hstep, members_removeNodeById, ih, ← Bool.and_assoc, Bool.eq_iff_iff]
    simp [and_comm]

end Sections

/-! ## Refused admissions -/

section Refusals

variable {Score : Type*} [LinearOrder Score] {config : EngineConfig Score}
  {localId : PeerId} {k : ℕ}

/-- The peers that did not answer. -/
def DeferredAdmission.nonResponders (deferred : DeferredAdmission)
    (responds : PeerId → Bool) : List PeerId :=
  (deferred.stalePeers.map Prod.fst).filter fun peer => !responds peer

/-- The table after a retry that is refused, `none` if it is not: the evictions stay. -/
def refusedRetry (config : EngineConfig Score) (table : RoutingTable)
    (deferred : DeferredAdmission) (responds : PeerId → Bool)
    (observation : EngineConfig.Observation Score) : Option RoutingTable :=
  let evicted := deferred.nonResponders responds
  if evicted.isEmpty then some table
  else
    match config.reEvaluateAdmission observation (removeAll config table evicted).1
        deferred.candidate deferred.candidateIps with
    | (_, .ok _) => none
    | (after, .error _) => some after

variable {observation : EngineConfig.Observation Score}

theorem refusedRetry_eq_some {table after : RoutingTable}
    {deferred : DeferredAdmission} {responds : PeerId → Bool} (hvalid : table.Valid localId k)
    (hstorable : storableTyped deferred.candidate ≠ [])
    (hrefused : refusedRetry config table deferred responds observation = some after) :
    after = (removeAll config table (deferred.nonResponders responds)).1 := by
  simp only [refusedRetry] at hrefused
  split at hrefused
  · next hnone =>
      cases hrefused
      rw [isEmpty_iff.mp hnone]
      rfl
  · split at hrefused
    · cases hrefused
    · next refused refusal herror =>
        cases hrefused
        have hremoved := ((tracks_rule config localId k).removeAll hvalid
          (deferred.nonResponders responds)).1
        have hsame := reEvaluateAdmission_of_error hremoved hstorable (congrArg Prod.snd herror)
        rw [herror] at hsame
        exact hsame

/-- A refused retry leaves the closest peers alone if the peers that did not answer
are not among them. -/
theorem kClosestIds_refusedRetry {table after : RoutingTable}
    {deferred : DeferredAdmission} {responds : PeerId → Bool} (hvalid : table.Valid localId k)
    (hstorable : storableTyped deferred.candidate ≠ [])
    (hrefused : refusedRetry config table deferred responds observation = some after) {count : ℕ}
    (hfar : ∀ peer ∈ deferred.nonResponders responds, peer ∉ table.kClosestIds count) :
    after.Valid localId k ∧ after.kClosestIds count = table.kClosestIds count := by
  rw [refusedRetry_eq_some hvalid hstorable hrefused]
  have hafter := ((tracks_rule config localId k).removeAll hvalid
    (deferred.nonResponders responds)).1
  refine ⟨hafter, kClosestIds_eq_of_members hvalid hafter ?_ ?_⟩
  · intro peer hpeer
    rw [members_removeAll, Bool.and_eq_true] at hpeer
    exact hpeer.2
  · intro peer hpeer
    rw [members_removeAll, Bool.and_eq_true, decide_eq_true_eq]
    refine ⟨fun hgone => hfar peer hgone hpeer, ?_⟩
    rw [← mem_ids_iff_members hvalid]
    rw [kClosestIds_eq_closest] at hpeer
    exact closest_subset count _ hpeer

/-- Only candidates with a storable address are deferred. -/
theorem eventStep_deferred {state next : EventState} {action : EventStep Score}
    (hstorable : ∀ deferred ∈ state.deferred, storableTyped deferred.candidate ≠ [])
    (hstep : eventStep config state action = some next) :
    ∀ deferred ∈ next.deferred, storableTyped deferred.candidate ≠ [] := by
  intro deferred hmem
  cases action with
  | peerConnected order observation node =>
    simp only [eventStep] at hstep
    split at hstep
    · cases hstep
      exact hstorable deferred hmem
    · next hstale =>
        cases hstep
        rcases mem_append.mp hmem with hold | hnew
        · exact hstorable deferred hold
        · rw [mem_singleton.mp hnew]
          exact storableTyped_of_stale (congrArg Prod.snd hstale)
    · cases hstep
  | retryAdmission position responds observation =>
    simp only [eventStep] at hstep
    split at hstep
    · cases hstep
    · split at hstep <;> cases hstep
      exact hstorable deferred (mem_of_mem_eraseIdx hmem)
  | identityMismatch peer =>
    cases hstep
    exact hstorable deferred hmem
  | readStale observation =>
    simp only [eventStep] at hstep
    split at hstep <;> cases hstep
    exact hstorable deferred hmem
  | evictStale position responds =>
    simp only [eventStep] at hstep
    split at hstep
    · cases hstep
    · split at hstep <;> cases hstep
      · exact hstorable deferred hmem
      · exact hstorable deferred hmem
  | broadcast position =>
    simp only [eventStep] at hstep
    split at hstep <;> cases hstep
    exact hstorable deferred hmem

end Refusals

end SaorsaCore.Manager
