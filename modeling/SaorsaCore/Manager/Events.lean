import SaorsaCore.Core.Replay
import SaorsaCore.Core.Transition
import SaorsaCore.Routing.AddressView

/-!
# Membership events of the DHT manager

Every change of the routing table happens under the write lock of the DHT, and the
call that made it broadcasts the events once it has released the lock.  The changes
are ordered by the lock, the broadcasts are not: two calls may broadcast in the
other order.  An observer that replays the events ends with the right membership
if the calls about one peer broadcast in the order of their critical sections.
-/

namespace SaorsaCore.Manager

open Routing Replay Transition EngineConfig RoutingTable RoutingOp List

/-- A deferred admission: `add_node` asked for stale peers to be pinged first. -/
structure DeferredAdmission where
  candidate : NodeInfo
  candidateIps : List IpAddr
  stalePeers : List (PeerId × Fin 256)

/-- The routing table and the calls in progress.  `waiting` holds, in the order of
their critical sections, the events of the calls that have not broadcast yet. -/
structure EventState where
  table : RoutingTable
  deferred : List DeferredAdmission
  revalidating : List (List PeerId)
  waiting : List (List RoutingTableEvent)
  broadcast : List RoutingTableEvent

/-- A critical section under the DHT lock, or the broadcast of one call. -/
inductive EventStep (Score : Type*) where
  /-- `handle_peer_connected` up to the release of the lock. -/
  | peerConnected (order : HashOrder IpAddr)
      (observation : EngineConfig.Observation Score) (node : NodeInfo)
  /-- The second critical section of `revalidate_and_retry_admission`. -/
  | retryAdmission (position : ℕ) (responds : PeerId → Bool)
      (observation : EngineConfig.Observation Score)
  /-- `ensure_peer_channel` after an identity mismatch, and `forget_rejecting_peer`: both
  remove the peer by its id. -/
  | identityMismatch (peer : PeerId)
  /-- The first critical section of `revalidate_stale_k_closest`. -/
  | readStale (observation : EngineConfig.Observation Score)
  /-- The second critical section of `revalidate_stale_k_closest`. -/
  | evictStale (position : ℕ) (responds : PeerId → Bool)
  /-- `broadcast_routing_events` of a waiting call. -/
  | broadcast (position : ℕ)

namespace EventState

/-- No call is in progress. -/
def idle (table : RoutingTable) : EventState :=
  { table := table
    deferred := []
    revalidating := []
    waiting := []
    broadcast := [] }

/-- A critical section ends: the table has changed and the call is left with its
events. -/
def finishSection (state : EventState)
    (result : RoutingTable × List RoutingTableEvent) : EventState :=
  { state with
    table := result.1
    waiting := state.waiting ++ [result.2] }

end EventState

section Steps

variable {Score : Type*} (config : EngineConfig Score)

/-- Remove the given peers one after the other and collect the events. -/
def removeAll (table : RoutingTable) (peers : List PeerId) :
    RoutingTable × List RoutingTableEvent :=
  peers.foldl (fun state peer =>
    ((config.removeNodeById state.1 peer).1,
      state.2 ++ (config.removeNodeById state.1 peer).2)) (table, [])

variable [LinearOrder Score]

/-- Evict the peers that did not respond and retry the admission.  If all of them
responded, or if the retry is refused, the admission has failed. -/
def retryAdmission (table : RoutingTable) (deferred : DeferredAdmission) (responds : PeerId → Bool)
    (observation : EngineConfig.Observation Score) :
    Option (RoutingTable × List RoutingTableEvent) :=
  let evicted := (deferred.stalePeers.map Prod.fst).filter fun peer =>
    !responds peer
  if evicted.isEmpty then none
  else
    let removed := removeAll config table evicted
    match config.reEvaluateAdmission observation removed.1 deferred.candidate
        deferred.candidateIps with
    | (admitted, .ok events) => some (admitted, removed.2 ++ events)
    | (_, .error _) => none

/-- One step; `none` if it is not enabled or the admission in it fails. -/
def eventStep (state : EventState) : EventStep Score → Option EventState
  | .peerConnected order observation node =>
    match config.addNode observation order state.table node with
    | (admitted, .ok (.admitted events)) =>
      some (state.finishSection (admitted, events))
    | (_, .ok (.staleRevalidationNeeded candidate candidateIps _ stalePeers)) =>
      some { state with
        deferred := state.deferred ++ [⟨candidate, candidateIps, stalePeers⟩] }
    | (_, .error _) => none
  | .retryAdmission position responds observation =>
    match state.deferred[position]? with
    | none => none
    | some deferred =>
      match retryAdmission config state.table deferred responds observation with
      | none => none
      | some result =>
        some ({ state with
          deferred := state.deferred.eraseIdx position }.finishSection result)
  | .identityMismatch peer =>
    some (state.finishSection (config.removeNodeById state.table peer))
  | .readStale observation =>
    let stale := config.staleKClosest observation state.table
    if stale.isEmpty then none
    else some { state with revalidating := state.revalidating ++ [stale] }
  | .evictStale position responds =>
    match state.revalidating[position]? with
    | none => none
    | some stale =>
      let nonResponders := stale.filter fun peer => !responds peer
      let rest := { state with
        revalidating := state.revalidating.eraseIdx position }
      if nonResponders.isEmpty then some rest
      else some (rest.finishSection (removeAll config state.table nonResponders))
  | .broadcast position =>
    match state.waiting[position]? with
    | none => none
    | some events =>
      some { state with
        waiting := state.waiting.eraseIdx position
        broadcast := state.broadcast ++ events }

end Steps

/-! ## The events of one critical section -/

/-- How an observer reads an event. -/
def membershipChange : RoutingTableEvent → Option (PeerId × Bool)
  | .peerAdded peer => some (peer, true)
  | .peerRemoved peer => some (peer, false)
  | .kClosestPeersChanged _ _ => none

/-- The membership of the routing table. -/
def members (table : RoutingTable) (peer : PeerId) : Bool :=
  (table.findNodeById peer).isSome

/-- Replaying the events turns the membership before into the membership after. -/
def Tracks (before : RoutingTable) (result : RoutingTable × List RoutingTableEvent) : Prop :=
  replay membershipChange (members before) result.2 = members result.1

theorem Tracks.append {before middle after : RoutingTable}
    {first second : List RoutingTableEvent} (hfirst : Tracks before (middle, first))
    (hsecond : Tracks middle (after, second)) :
    Tracks before (after, first ++ second) := by
  rw [Tracks] at hfirst hsecond ⊢
  rw [replay_append, hfirst, hsecond]

theorem replay_removals (view : PeerId → Bool) (peers : List PeerId) (peer : PeerId) :
    replay membershipChange view (peers.map .peerRemoved) peer =
      if peer ∈ peers then false else view peer := by
  induction peers generalizing view with
  | nil => simp
  | cons head peers ih =>
    have hcons : replay membershipChange view ((head :: peers).map .peerRemoved) peer =
          replay membershipChange (Function.update view head false)
            (peers.map .peerRemoved) peer := rfl
    rw [hcons, ih]
    by_cases hhead : peer = head
    · simp [hhead]
    · simp [hhead]

section Sections

variable {Score : Type*} {config : EngineConfig Score} {localId : PeerId} {k : ℕ}
  {table : RoutingTable}

theorem replay_mutationEvents (view : PeerId → Bool) (before after : RoutingTable)
    (changes : List RoutingTableEvent) :
    replay membershipChange view (config.mutationEvents before after changes) =
      replay membershipChange view changes := by
  rw [mutationEvents, replay_append]
  split <;> rfl

theorem removeNodeById_tracks (table : RoutingTable) (peer : PeerId) :
    Tracks table (config.removeNodeById table peer) := by
  rw [Tracks, removeNodeById]
  split
  · rfl
  · rw [replay_mutationEvents]
    funext other
    have hreplay := replay_removals (members table) [peer] other
    simp only [map_singleton, mem_singleton] at hreplay
    rw [hreplay, members, members, findNodeById_removeNode]
    split <;> rfl

/-- Evictions and the insertion of an absent peer, as the events list them. -/
theorem executeAdmission_tracks {node : NodeInfo} {swaps : List PeerId} {now : ℕ}
    {events : List RoutingTableEvent} (hvalid : table.Valid localId k)
    (habsent : table.findNodeById node.id = none)
    (hresult : (config.executeAdmission table node swaps now).2 = .ok (.admitted events)) :
    Tracks table ((config.executeAdmission table node swaps now).1, events) := by
  have hevicts := executeSwaps_evicts hvalid swaps
  simp only [executeAdmission] at hresult ⊢
  split at hresult
  · cases hresult
  · next inserted hinserted =>
      cases hresult
      have hgone : (executeSwaps table swaps).1.findNodeById node.id = none := by
        rw [hevicts.findNode, habsent]
        simp
      have hpresent : (inserted.findNodeById node.id).isSome := by
        obtain ⟨index, bucket, -, hnodes, heq⟩ :=
          hevicts.valid.addNode_of_absent hgone hinserted
        rw [← (hevicts.valid.addNode hinserted).mem_ids_iff]
        refine ⟨index, ?_⟩
        rw [heq, buckets_setBucket, if_pos rfl, KBucket.ids, hnodes]
        simp
      rw [Tracks, replay_mutationEvents, replay_append]
      funext peer
      by_cases hpeer : peer = node.id
      · have hadded : replay membershipChange (replay membershipChange
            (members table) ((executeSwaps table swaps).2.map
              .peerRemoved)) [.peerAdded node.id] peer = true := by
          rw [hpeer]
          exact Function.update_self _ _ _
        rw [hadded, members, hpeer, hpresent]
      · have hkept : replay membershipChange (replay membershipChange
            (members table) ((executeSwaps table swaps).2.map
              .peerRemoved)) [.peerAdded node.id] peer = replay membershipChange
            (members table) ((executeSwaps table swaps).2.map
              .peerRemoved) peer := Function.update_of_ne hpeer _ _
        rw [hkept, replay_removals, members, members,
          findNodeById_addNode_of_ne hevicts.valid.nodup hinserted
            hpeer, hevicts.findNode]
        simp only [hevicts.mem_executed peer]
        split <;> rfl

/-- Touching peers changes no membership. -/
theorem touchNode_members (hvalid : table.Valid localId k) (peer : PeerId)
    (address : Option MultiAddr) (addressType : AddressType) (now : ℕ) :
    members (table.touchNode peer address addressType now).1 = members table := by
  funext other
  exact (touchNode_rewrites table peer hvalid.nodup address addressType now).isSome_findNode other

theorem touchAddresses_spec (hvalid : table.Valid localId k) (node : NodeInfo) (now : ℕ) :
    (EngineConfig.touchAddresses table node now).Valid localId k ∧
      members (EngineConfig.touchAddresses table node now) = members table :=
  EngineConfig.touchAddresses_preserves
    (fun touched => touched.Valid localId k ∧ members touched = members table)
    (fun _ address addressType now _ hkept =>
      ⟨hkept.1.touchNode node.id address addressType now,
        (touchNode_members hkept.1 node.id address addressType now).trans
          hkept.2⟩) table now ⟨hvalid, rfl⟩

end Sections

/-- A relation between the table before a critical section and what the section
leaves, given on the elementary changes of the engine. -/
structure SectionRule {Score : Type*} (config : EngineConfig Score)
    (localId : PeerId) (k : ℕ)
    (Rel : RoutingTable → RoutingTable × List RoutingTableEvent → Prop) : Prop where
  touched : ∀ {before after : RoutingTable}, before.Valid localId k →
    after.Valid localId k → members after = members before → Rel before (after, [])
  removed : ∀ {before : RoutingTable} (peer : PeerId), before.Valid localId k →
    Rel before (config.removeNodeById before peer)
  admitted : ∀ {before : RoutingTable} {node : NodeInfo} {swaps : List PeerId}
    {now : ℕ} {events : List RoutingTableEvent}, before.Valid localId k →
      before.findNodeById node.id = none →
      (config.executeAdmission before node swaps now).2 = .ok (.admitted events) →
        Rel before ((config.executeAdmission before node swaps now).1, events)
  append : ∀ {before middle after : RoutingTable}
    {first second : List RoutingTableEvent}, Rel before (middle, first) →
      Rel middle (after, second) → Rel before (after, first ++ second)

theorem tracks_rule {Score : Type*} (config : EngineConfig Score) (localId : PeerId)
    (k : ℕ) : SectionRule config localId k Tracks where
  touched _ _ hmembers := hmembers.symm
  removed peer _ := removeNodeById_tracks _ peer
  admitted := executeAdmission_tracks
  append := Tracks.append

namespace SectionRule

variable {Score : Type*} {config : EngineConfig Score} {localId : PeerId} {k : ℕ}
  {Rel : RoutingTable → RoutingTable × List RoutingTableEvent → Prop}
  (rule : SectionRule config localId k Rel) {table : RoutingTable}

include rule

variable {events : List RoutingTableEvent}

theorem addUnchecked {node : NodeInfo} {now : ℕ} (hvalid : table.Valid localId k)
    (hresult : (config.addUnchecked table node now).2 = .ok (.admitted events)) :
    Rel table ((config.addUnchecked table node now).1, events) := by
  rw [EngineConfig.addUnchecked] at hresult ⊢
  split at hresult
  · next hpresent =>
      cases hresult
      rw [if_pos hpresent]
      obtain ⟨hafter, hmembers⟩ := touchAddresses_spec hvalid node now
      exact rule.touched hvalid hafter hmembers
  · next habsent =>
      rw [if_neg habsent]
      exact rule.admitted hvalid (by simpa using habsent) hresult

variable [LinearOrder Score] {observation : EngineConfig.Observation Score}

variable (hvalid : table.Valid localId k)
include hvalid

theorem addWithDiversity {node : NodeInfo} {ips : List IpAddr} {allowStaleRevalidation : Bool}
    (hresult : (config.addWithDiversity observation table node ips
      allowStaleRevalidation).2 = .ok (.admitted events)) :
    Rel table ((config.addWithDiversity observation table node ips
      allowStaleRevalidation).1, events) := by
  rcases config.addWithDiversity_cases observation table node ips
    allowStaleRevalidation rfl with
    ⟨-, hrefused⟩ | ⟨-, hdone⟩ | ⟨-, hdone⟩ | ⟨index, swaps, hindex, habsent, -, hdone⟩
  · exact absurd hresult (hrefused events)
  · rw [hdone] at hresult ⊢
    exact rule.addUnchecked hvalid hresult
  · rw [hdone] at hresult ⊢
    cases hresult
    have htouched := hvalid.touchNode node.id none .unverified observation.now
    obtain ⟨hafter, hmembers⟩ := touchAddresses_spec htouched node observation.now
    exact rule.touched hvalid hafter (hmembers.trans
      (touchNode_members hvalid node.id none .unverified observation.now))
  · rw [hdone] at hresult ⊢
    rw [← findNodeById_eq hindex] at habsent
    exact rule.admitted hvalid habsent hresult

theorem addNode {order : HashOrder IpAddr} {incoming : NodeInfo}
    (hresult : (config.addNode observation order table incoming).2 = .ok (.admitted events)) :
    Rel table ((config.addNode observation order table incoming).1, events) := by
  simp only [EngineConfig.addNode] at hresult ⊢
  split at hresult
  · cases hresult
  · split at hresult
    · cases hresult
    · next hself hstorable =>
        rw [if_neg hself, if_neg hstorable]
        split at hresult
        · next hnone =>
            rw [if_pos hnone]
            exact rule.addUnchecked hvalid hresult
        · next hsome =>
            rw [if_neg hsome]
            exact rule.addWithDiversity hvalid hresult

theorem reEvaluateAdmission {candidate : NodeInfo} {ips : List IpAddr}
    (hresult : (config.reEvaluateAdmission observation table candidate ips).2 = .ok events) :
    Rel table ((config.reEvaluateAdmission observation table candidate ips).1, events) := by
  rw [EngineConfig.reEvaluateAdmission] at hresult ⊢
  split at hresult
  · cases hresult
  · next after admitted hadmitted =>
      cases hresult
      have hrel := rule.addWithDiversity hvalid (congrArg Prod.snd hadmitted)
      rw [hadmitted] at hrel
      exact hrel
  · cases hresult

theorem removeAll (peers : List PeerId) : (removeAll config table peers).1.Valid localId k ∧
      Rel table (removeAll config table peers) := by
  rw [Manager.removeAll]
  refine foldlRecOn (motive := fun result =>
    result.1.Valid localId k ∧ Rel table result) peers _ ⟨hvalid, rule.touched hvalid hvalid rfl⟩ ?_
  rintro result ⟨hafter, hrel⟩ peer -
  exact ⟨(remove peer).apply_valid { decode := fun _ => none } config hafter,
    rule.append hrel (rule.removed peer hafter)⟩

theorem retryAdmission {deferred : DeferredAdmission} {responds : PeerId → Bool}
    {result : RoutingTable × List RoutingTableEvent}
    (hretry : retryAdmission config table deferred responds observation =
      some result) : result.1.Valid localId k ∧ Rel table result := by
  simp only [Manager.retryAdmission] at hretry
  split at hretry
  · cases hretry
  · split at hretry
    · next admitted events hevaluated =>
        cases hretry
        obtain ⟨hremoved, hrel⟩ := rule.removeAll hvalid
          ((deferred.stalePeers.map Prod.fst).filter fun peer => !responds peer)
        have hafter := (reEvaluate observation deferred.candidate
          deferred.candidateIps).apply_valid { decode := fun _ => none } config
            hremoved
        have hretried := rule.reEvaluateAdmission hremoved (congrArg Prod.snd hevaluated)
        rw [apply, hevaluated] at hafter
        rw [hevaluated] at hretried
        exact ⟨hafter, rule.append hrel hretried⟩
    · cases hretry

end SectionRule

/-! ## What a step can do -/

/-- A critical section leaves its events waiting, a call is put off without a change,
or a call broadcasts. -/
inductive EventMove {Score : Type*} (localId : PeerId) (k : ℕ)
    (Rel : RoutingTable → RoutingTable × List RoutingTableEvent → Prop)
    (state : EventState) : EventStep Score → EventState → Prop where
  | finished {action : EventStep Score} {next : EventState}
      (result : RoutingTable × List RoutingTableEvent)
      (hvalid : result.1.Valid localId k) (hrel : Rel state.table result)
      (htable : next.table = result.1)
      (hwaiting : next.waiting = state.waiting ++ [result.2])
      (hbroadcast : next.broadcast = state.broadcast) :
      EventMove localId k Rel state action next
  | pending {action : EventStep Score} {next : EventState}
      (htable : next.table = state.table) (hwaiting : next.waiting = state.waiting)
      (hbroadcast : next.broadcast = state.broadcast) :
      EventMove localId k Rel state action next
  | broadcast {position : ℕ} {events : List RoutingTableEvent}
      (hevents : state.waiting[position]? = some events) :
      EventMove localId k Rel state (.broadcast position)
        { state with
          waiting := state.waiting.eraseIdx position
          broadcast := state.broadcast ++ events }

theorem SectionRule.eventStep_move {Score : Type*} [LinearOrder Score]
    {config : EngineConfig Score} {localId : PeerId} {k : ℕ}
    {Rel : RoutingTable → RoutingTable × List RoutingTableEvent → Prop}
    (rule : SectionRule config localId k Rel) {state next : EventState}
    {action : EventStep Score} (hvalid : state.table.Valid localId k)
    (hstep : eventStep config state action = some next) :
    EventMove localId k Rel state action next := by
  cases action with
  | peerConnected order observation node =>
    simp only [eventStep] at hstep
    split at hstep
    · next admitted events hadded =>
        cases hstep
        have hafter := (admission order observation node).apply_valid
          { decode := fun _ => none } config hvalid
        have hrel := rule.addNode hvalid (congrArg Prod.snd hadded)
        rw [apply, hadded] at hafter
        rw [hadded] at hrel
        exact .finished (admitted, events) hafter hrel rfl rfl rfl
    · cases hstep
      exact .pending rfl rfl rfl
    · cases hstep
  | retryAdmission position responds observation =>
    simp only [eventStep] at hstep
    split at hstep
    · cases hstep
    · split at hstep
      · cases hstep
      · next result hretry =>
          cases hstep
          obtain ⟨hafter, hrel⟩ := rule.retryAdmission hvalid hretry
          exact .finished result hafter hrel rfl rfl rfl
  | identityMismatch peer =>
    cases hstep
    exact .finished _ ((remove peer).apply_valid
      { decode := fun _ => none } config hvalid) (rule.removed peer hvalid) rfl rfl rfl
  | readStale observation =>
    simp only [eventStep] at hstep
    split at hstep <;> cases hstep
    exact .pending rfl rfl rfl
  | evictStale position responds =>
    simp only [eventStep] at hstep
    split at hstep
    · cases hstep
    · next stale _ =>
        split at hstep <;> cases hstep
        · exact .pending rfl rfl rfl
        · obtain ⟨hafter, hrel⟩ := rule.removeAll hvalid (stale.filter fun peer => !responds peer)
          exact .finished _ hafter hrel rfl rfl rfl
  | broadcast position =>
    simp only [eventStep] at hstep
    split at hstep
    · cases hstep
    · next events hevents =>
        cases hstep
        exact .broadcast hevents

/-! ## Runs -/

section Runs

variable {Score : Type*} [LinearOrder Score] {config : EngineConfig Score}
  {localId : PeerId} {k : ℕ} {initial : RoutingTable} {state : EventState}

/-- A call broadcasts only when no call with an earlier critical section still has
a waiting event about one of the same peers. -/
def InOrder (state : EventState) : EventStep Score → Prop
  | .broadcast position =>
    ∀ events ∈ state.waiting[position]?, ∀ earlier ∈ state.waiting.take position,
      ∀ peer ∈ keys membershipChange events, peer ∉ keys membershipChange earlier
  | _ => True

instance (state : EventState) (action : EventStep Score) : Decidable (InOrder state action) :=
  match action with
  | .broadcast _ => inferInstanceAs (Decidable (∀ _ ∈ _, _))
  | .peerConnected _ _ _ => inferInstanceAs (Decidable True)
  | .retryAdmission _ _ _ => inferInstanceAs (Decidable True)
  | .identityMismatch _ => inferInstanceAs (Decidable True)
  | .readStale _ => inferInstanceAs (Decidable True)
  | .evictStale _ _ => inferInstanceAs (Decidable True)

/-- The events sent, followed by those that wait in the order of their critical
sections, lead from the initial membership to the present one. -/
structure Consistent (localId : PeerId) (k : ℕ) (initial : RoutingTable)
    (state : EventState) : Prop where
  valid : state.table.Valid localId k
  replayed : replay membershipChange (replay membershipChange (members initial) state.broadcast)
      state.waiting.flatten = members state.table

omit [LinearOrder Score] in
/-- Batches may overtake others that are about other peers. -/
theorem Consistent.broadcast (hstate : Consistent localId k initial state)
    {position : ℕ} {events : List RoutingTableEvent}
    (hevents : state.waiting[position]? = some events)
    (horder : InOrder state (.broadcast position : EventStep Score)) :
    Consistent localId k initial { state with
      waiting := state.waiting.eraseIdx position
      broadcast := state.broadcast ++ events } where
  valid := hstate.valid
  replayed := by
    obtain ⟨hlength, hget⟩ := List.getElem?_eq_some_iff.mp hevents
    have hsplit : state.waiting = state.waiting.take position ++
        events :: state.waiting.drop (position + 1) := by
      rw [← hget, ← List.drop_eq_getElem_cons hlength, List.take_append_drop]
    have hreplayed := hstate.replayed
    rw [hsplit, replay_overtake _ _ (horder events hevents)] at hreplayed
    rw [replay_append, List.eraseIdx_eq_take_drop_succ]
    exact hreplayed

theorem Consistent.step (hstate : Consistent localId k initial state)
    {action : EventStep Score} {next : EventState} (horder : InOrder state action)
    (hstep : eventStep config state action = some next) :
    Consistent localId k initial next := by
  cases (tracks_rule config localId k).eventStep_move hstate.valid hstep with
  | finished result hvalid hrel htable hwaiting hbroadcast =>
    refine ⟨htable ▸ hvalid, ?_⟩
    rw [htable, hwaiting, hbroadcast, flatten_append, flatten_singleton,
      replay_append, hstate.replayed]
    exact hrel
  | pending htable hwaiting hbroadcast =>
    refine ⟨htable ▸ hstate.valid, ?_⟩
    rw [htable, hwaiting, hbroadcast]
    exact hstate.replayed
  | broadcast hevents => exact hstate.broadcast hevents horder

/-- In a run in which the calls about one peer broadcast in the order of their
critical sections, replaying the broadcast events gives the membership of the
routing table whenever no call is left with events. -/
theorem replay_broadcast_eq_members {final : EventState}
    (hvalid : initial.Valid localId k)
    (hreaches : Reaches (eventStep config) InOrder (EventState.idle initial)
      final) (hfinished : final.waiting = []) :
    replay membershipChange (members initial) final.broadcast =
      members final.table := by
  have hstart : Consistent localId k initial (EventState.idle initial) :=
    ⟨hvalid, rfl⟩
  have hfinal := hreaches.invariant hstart fun _ _ _ hstate horder hstep =>
    hstate.step horder hstep
  have hreplayed := hfinal.replayed
  rw [hfinished] at hreplayed
  exact hreplayed

end Runs

/-! Peer `1` connects and is admitted; before that call broadcasts, an identity
mismatch removes the peer again.  If the removal is broadcast first, an observer
keeps a peer that is not in the table. -/

section Example

/-- The two critical sections, and then the two broadcasts at these positions. -/
private def connectAndMismatch (first second : ℕ) : List (EventStep ℕ) :=
  [.peerConnected (HashOrder.insertion _) { trustScore := fun _ => 50, now := 0 }
      { id := 1
        addresses := [.quic (.v4 0xcb007101 9000)]
        addressTypes := [.unverified]
        lastSeen := 0 },
    .identityMismatch 1, .broadcast first, .broadcast second]

private def afterRun (allowed : EventState → EventStep ℕ → Prop)
    [∀ state action, Decidable (allowed state action)] (first second : ℕ) :
    Option EventState :=
  run (eventStep (EngineConfig.withDefaults 4)) allowed
    (EventState.idle (RoutingTable.new 0 4 0)) (connectAndMismatch first second)

private theorem isSome_afterRun_reordered : (afterRun (fun _ _ => True) 1 0).isSome := by
  decide +kernel

theorem reordered_broadcasts_diverge :
    ∃ final, Reaches (eventStep (EngineConfig.withDefaults 4)) (fun _ _ => True)
        (EventState.idle (RoutingTable.new 0 4 0)) final ∧
      final.waiting = [] ∧
      replay membershipChange (members (RoutingTable.new 0 4 0)) final.broadcast
        1 = true ∧
      members final.table 1 = false :=
  ⟨(afterRun (fun _ _ => True) 1 0).get isSome_afterRun_reordered,
    reaches_of_run (Option.some_get isSome_afterRun_reordered).symm,
    by decide +kernel, by decide +kernel, by decide +kernel⟩

private theorem isSome_afterRun_inOrder : (afterRun InOrder 0 0).isSome := by
  decide +kernel

theorem ordered_broadcasts_agree :
    ∃ final, Reaches (eventStep (EngineConfig.withDefaults 4)) InOrder
        (EventState.idle (RoutingTable.new 0 4 0)) final ∧
      final.broadcast ≠ [] ∧
      replay membershipChange (members (RoutingTable.new 0 4 0))
        final.broadcast = members final.table := by
  have hreaches := reaches_of_run (Option.some_get isSome_afterRun_inOrder).symm
  exact ⟨_, hreaches, by decide +kernel,
    replay_broadcast_eq_members (RoutingTable.Valid.new 0 4 0) hreaches (by decide +kernel)⟩

end Example

end SaorsaCore.Manager
