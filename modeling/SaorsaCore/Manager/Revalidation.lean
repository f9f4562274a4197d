import SaorsaCore.Manager.Notices

/-!
# Revalidation of stale peers before a retried admission

A candidate that was put off is tried again after the stale peers have been pinged.  The
peers that did not respond are evicted first.  If the retried admission is refused after
that, the error leaves the function early and takes the collected events with it: the
evictions stay and no subscriber hears of them.
-/

namespace SaorsaCore.Manager

open Routing Replay EngineConfig DeferredAdmission List

def maxConcurrentRevalidations : ℕ := 8

/-- The permits of the semaphore that are taken, and `bucket_revalidation_active`. -/
structure Revalidations where
  running : ℕ
  activeBuckets : List (Fin 256)

inductive RevalidationError where
  | noStalePeers
  | globalLimit
  | inProgress (bucketIndex : Fin 256)
  | allResponded
  | refused (refusal : RoutingError)
  deriving DecidableEq, Repr

section Retry

variable {Score : Type*} [LinearOrder Score] (config : EngineConfig Score)

/-- `revalidate_and_retry_admission`; `table` is the one found when the lock is taken
again after the pings.  The pings go out in chunks, and the answers are read in the order
of the stale peers. -/
def revalidateAndRetryAdmission (progress : Revalidations) (table : RoutingTable)
    (bucketIndex : Fin 256) (deferred : DeferredAdmission) (responds : PeerId → Bool)
    (observation : EngineConfig.Observation Score) :
    RoutingTable × Except RevalidationError (List RoutingTableEvent) :=
  if deferred.stalePeers.isEmpty then (table, .error .noStalePeers)
  else if maxConcurrentRevalidations ≤ progress.running then (table, .error .globalLimit)
  else if progress.activeBuckets.contains bucketIndex then
    (table, .error (.inProgress bucketIndex))
  else
    let evicted := deferred.nonResponders responds
    if evicted.isEmpty then (table, .error .allResponded)
    else
      let removed := removeAll config table evicted
      match config.reEvaluateAdmission observation removed.1 deferred.candidate
          deferred.candidateIps with
      | (after, .ok events) => (after, .ok (removed.2 ++ events))
      | (after, .error refusal) => (after, .error (.refused refusal))

/-- What `spawn_revalidate_and_retry_admission` broadcasts. -/
def broadcastAfterRetry : Except RevalidationError (List RoutingTableEvent) → List RoutingTableEvent
  | .ok events => events
  | .error _ => []

/-- Every peer that has left the table is in a `PeerRemoved` event. -/
def EvictionsReported (before after : RoutingTable) (events : List RoutingTableEvent) : Prop :=
  ∀ peer, members before peer = true → members after peer = false → .peerRemoved peer ∈ events

variable {config} {localId : PeerId} {k : ℕ} {table after : RoutingTable}
  {events : List RoutingTableEvent} {progress : Revalidations} {bucketIndex : Fin 256}
  {deferred : DeferredAdmission} {responds : PeerId → Bool}
  {observation : EngineConfig.Observation Score}

/-- Events that replay to the membership after mention every peer that has left. -/
theorem Tracks.evictionsReported (htracks : Tracks table (after, events)) :
    EvictionsReported table after events := by
  intro peer hbefore hafter
  have hreplay : replay membershipChange (members table) events peer = false :=
    (congrFun htracks peer).trans hafter
  -- The last event about the peer sets its membership to `false`.
  clear htracks hafter
  induction events using reverseRecOn with
  | nil =>
    rw [replay_nil, hbefore] at hreplay
    cases hreplay
  | append_singleton events last ih =>
    rw [replay_append] at hreplay
    by_cases hlast : last = .peerRemoved peer
    · exact mem_append_right events (mem_singleton.mpr hlast.symm)
    · apply mem_append_left
      apply ih
      cases last with
      | peerAdded other =>
        by_cases hother : peer = other
        · subst hother
          have hadded : replay membershipChange (replay membershipChange
              (members table) events) [.peerAdded peer] peer = true :=
            Function.update_self _ _ _
          rw [hadded] at hreplay
          cases hreplay
        · rw [← hreplay]
          exact (Function.update_of_ne hother _ _).symm
      | peerRemoved other =>
        have hother : peer ≠ other := fun heq => hlast (by rw [heq])
        rw [← hreplay]
        exact (Function.update_of_ne hother _ _).symm
      | kClosestPeersChanged old new => exact hreplay

omit [LinearOrder Score] in
/-- Evictions that no event mentions are reported only if there were none. -/
theorem evictionsReported_nil_iff (evicted : List PeerId) :
    EvictionsReported table (removeAll config table evicted).1 [] ↔
      ∀ peer ∈ evicted, members table peer = false := by
  constructor
  · intro hreported peer hpeer
    cases hmember : members table peer with
    | false => rfl
    | true =>
      have hgone : members (removeAll config table evicted).1 peer = false := by
        simp [members_removeAll, hpeer]
      exact absurd (hreported peer hmember hgone) not_mem_nil
  · intro habsent peer hbefore hafter
    rw [members_removeAll, hbefore, Bool.and_true, decide_eq_false_iff_not, not_not] at hafter
    rw [habsent peer hafter] at hbefore
    cases hbefore

/-- A revalidation ends before the retry and leaves the table alone, or it evicts the peers
that did not respond and does what the retry does. -/
theorem revalidate_cases {result : Except RevalidationError (List RoutingTableEvent)}
    (hresult : revalidateAndRetryAdmission config progress table bucketIndex deferred
      responds observation = (after, result)) :
    (after = table ∧ (maxConcurrentRevalidations ≤ progress.running ∨
        bucketIndex ∈ progress.activeBuckets ∨ deferred.nonResponders responds = [])) ∨
      (¬maxConcurrentRevalidations ≤ progress.running ∧ bucketIndex ∉ progress.activeBuckets ∧
        ∃ answer, (config.reEvaluateAdmission observation
            (removeAll config table (deferred.nonResponders responds)).1
            deferred.candidate deferred.candidateIps).2 = answer ∧
          match answer with
          | .ok _ => ∃ events, result = .ok events ∧
              retryAdmission config table deferred responds observation = some (after, events)
          | .error refusal => result = .error (.refused refusal) ∧
              refusedRetry config table deferred responds observation = some after) := by
  rw [revalidateAndRetryAdmission] at hresult
  split at hresult
  · next hstale =>
      cases hresult
      have hnone : deferred.nonResponders responds = [] := by
        rw [nonResponders, isEmpty_iff.mp hstale]
        rfl
      exact .inl ⟨rfl, .inr (.inr hnone)⟩
  split at hresult
  · next hlimit =>
      cases hresult
      exact .inl ⟨rfl, .inl hlimit⟩
  next hlimit =>
  split at hresult
  · next hactive =>
      cases hresult
      exact .inl ⟨rfl, .inr (.inl (by simpa using hactive))⟩
  next hactive =>
  by_cases hnone : (deferred.nonResponders responds).isEmpty = true
  · rw [if_pos hnone] at hresult
    cases hresult
    exact .inl ⟨rfl, .inr (.inr (isEmpty_iff.mp hnone))⟩
  · refine .inr ⟨hlimit, by simpa using hactive, _, rfl, ?_⟩
    simp only [if_neg hnone] at hresult
    rw [nonResponders] at hnone hresult
    simp only [retryAdmission, refusedRetry, nonResponders, if_neg hnone]
    cases hretried : config.reEvaluateAdmission observation (removeAll config table
        ((deferred.stalePeers.map Prod.fst).filter fun peer => !responds peer)).1
        deferred.candidate deferred.candidateIps with
    | mk retried answer =>
      rw [hretried] at hresult
      cases answer with
      | ok admission =>
        cases hresult
        exact ⟨_, rfl, rfl⟩
      | error refusal =>
        cases hresult
        exact ⟨rfl, if_neg hnone⟩

/-! ## The checks of a retry -/

/-- The checks of `add_with_diversity` that look at the candidate's IPs only. -/
structure AddressesPass (config : EngineConfig Score) (ips : List IpAddr) : Prop where
  routable : (ips.any fun ip => ip.isUnspecified || ip.isMulticast) = false
  loopback : (!config.allowLoopback && ips.any IpAddr.isLoopback) = false
  checked : ips.all IpAddr.isLoopback = false

/-- The candidate is known, or everyone in its way gives way to it and its bucket has a
slot. -/
def TableAccepts (config : EngineConfig Score)
    (observation : EngineConfig.Observation Score) (table : RoutingTable)
    (candidate : NodeInfo) (ips : List IpAddr) (index : Fin 256) : Prop :=
  members table candidate.id = true ∨
    config.HasPlace table index observation candidate.id ips

/-- A candidate that is put off has passed the checks of its IPs. -/
theorem addressesPass_of_stale {node candidate : NodeInfo} {order : HashOrder IpAddr}
    {ips : List IpAddr} {stale : List (PeerId × Fin 256)}
    (hstale : (config.addNode observation order table node).2 =
      .ok (.staleRevalidationNeeded candidate ips bucketIndex stale)) :
    AddressesPass config ips ∧ table.bucketIndex candidate.id = some bucketIndex := by
  simp only [addNode] at hstale
  split at hstale
  · cases hstale
  split at hstale
  · cases hstale
  split at hstale
  · exact absurd hstale (config.addUnchecked_ne_stale table _ _)
  simp only [addWithDiversity] at hstale
  split at hstale
  · cases hstale
  next hroutable =>
  split at hstale
  · cases hstale
  next hloopback =>
  split at hstale
  · split at hstale
    · exact absurd hstale (config.addUnchecked_ne_stale table _ _)
    · cases hstale
  next hchecked =>
  split at hstale
  · cases hstale
  next index hindex =>
  split at hstale
  · cases hstale
  split at hstale
  · cases hstale
  · cases hstale
    exact ⟨⟨Bool.eq_false_of_not_eq_true hroutable, Bool.eq_false_of_not_eq_true hloopback,
      Bool.eq_false_of_not_eq_true hchecked⟩, hindex⟩
  · exact absurd hstale (config.executeAdmission_ne_stale table _ _ _)

/-- A retry without a further revalidation is refused only by its checks. -/
theorem reEvaluateAdmission_accepts_iff {candidate : NodeInfo} {ips : List IpAddr}
    (hvalid : table.Valid localId k) (hstorable : KBucket.storableTyped candidate ≠ [])
    (haddresses : AddressesPass config ips)
    (hindex : table.bucketIndex candidate.id = some bucketIndex) :
    (∃ events, (config.reEvaluateAdmission observation table candidate ips).2 = .ok events) ↔
      TableAccepts config observation table candidate ips bucketIndex := by
  have hmember : ((table.buckets bucketIndex).nodes.any fun other =>
      other.id == candidate.id) = members table candidate.id := by
    rw [members, RoutingTable.findNodeById_eq hindex, Bool.eq_iff_iff,
      KBucket.isSome_findNode_iff, KBucket.ids]
    simp
  simp only [reEvaluateAdmission, addWithDiversity,
    haddresses.routable, haddresses.loopback, haddresses.checked, hindex, hmember,
    TableAccepts]
  cases hpresent : members table candidate.id with
  | true => simp
  | false =>
    have habsent : table.findNodeById candidate.id = none := by
      simpa [members] using hpresent
    rw [← exists_insert_iff_hasPlace false hvalid habsent hindex]
    cases hplan : config.planAdmission observation table bucketIndex candidate ips false with
    | error refusal => simp
    | ok plan =>
      cases plan with
      | revalidate stale => simp
      | insert swaps =>
        obtain ⟨events, hadmitted⟩ := executeAdmission_admits hvalid
          habsent hindex hstorable (plan_leaves_slot hvalid habsent hindex hplan)
        cases hdone : config.executeAdmission table candidate swaps observation.now with
        | mk after answer =>
          rw [hdone] at hadmitted
          cases hadmitted
          simp [hdone]

end Retry

section Example

private def sharedSubnet : RoutingTable :=
  (RoutingTable.new 0 4 0).run { decode := fun _ => none } (EngineConfig.withDefaults 4)
    ([exampleNode 1 [0xcb007101], exampleNode 8 [0xcb007201],
      { exampleNode 9 [0xcb007301] with lastSeen := 500 },
      { exampleNode 10 [0xcb007401] with lastSeen := 500 },
      { exampleNode 12 [0xcb007501] with lastSeen := 500 }].map fun node =>
        .admission (HashOrder.insertion _) { trustScore := fun _ => 50, now := 500 } node)

private theorem sharedSubnet_valid : sharedSubnet.Valid 0 4 :=
  RoutingTable.run_valid _ _ _ (RoutingTable.Valid.new 0 4 0)

private def muchLater : EngineConfig.Observation ℕ :=
  { trustScore := fun _ => 50, now := 1000 }

/-- A candidate as it was put off, with this address. -/
private def putOff (ip : Ipv4Addr) : DeferredAdmission :=
  { candidate := exampleNode 11 [ip]
    candidateIps := [.v4 ip]
    stalePeers := [(8, 252)] }

private def revalidated (ip : Ipv4Addr) :
    RoutingTable × Except RevalidationError (List RoutingTableEvent) :=
  revalidateAndRetryAdmission (EngineConfig.withDefaults 4)
    { running := 0, activeBuckets := [] } sharedSubnet 252 (putOff ip)
    (fun _ => false) muchLater

private theorem revalidated_eq (ip : Ipv4Addr) :
    revalidateAndRetryAdmission (EngineConfig.withDefaults 4)
        { running := 0, activeBuckets := [] } sharedSubnet 252 (putOff ip)
        (fun _ => false) muchLater = ((revalidated ip).1, (revalidated ip).2) :=
  rfl

end Example

end SaorsaCore.Manager
