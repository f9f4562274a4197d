import SaorsaCore.Manager.Notices
import SaorsaCore.Reachability.Loss

/-!
# Coverage of the close group

A publication reads the close group from the routing table, and the subscription of
`hold_until_lost` tells of its changes.  The subscription is opened after the first
publication of the relay, so a change that is broadcast between the two is missed.
If there is none, every peer of the close group is a target of the last publication
whenever the events are processed.
-/

namespace SaorsaCore.Reachability

open DriverState Manager Routing Transition List EngineConfig

/-- The driver, the DHT manager, and the events that the subscription of
`hold_until_lost` has not returned yet. -/
structure CoverageState where
  driver : DriverState
  manager : EventState
  queue : List RoutingTableEvent

inductive CoverageStep (Score : Type*) where
  /-- A critical section of the manager, or a broadcast. -/
  | manager (action : EventStep Score)
  /-- A call that rewrites the record of a peer. -/
  | rewrite (op : RoutingOp Score)
  /-- `handle_peer_connected` with an admission that is refused. -/
  | refuseAdmission (order : HashOrder IpAddr)
      (observation : EngineConfig.Observation Score) (node : NodeInfo)
  /-- `revalidate_and_retry_admission` with a retry that is refused. -/
  | refuseRetry (position : ℕ) (responds : PeerId → Bool)
      (observation : EngineConfig.Observation Score)
  | driver (input : DriverInput)

/-- What the publication in an input reads. -/
def DriverInput.reads : DriverInput → Option Snapshot
  | .publish snapshot => some snapshot
  | .recvAddress _ snapshot => some snapshot
  | .recvDht _ snapshot => some snapshot
  | _ => none

namespace CoverageState

def start (table : RoutingTable) : CoverageState :=
  { driver := DriverState.initial
    manager := EventState.idle table
    queue := [] }

def setTable (state : CoverageState) (table : RoutingTable) : CoverageState :=
  { state with manager := { state.manager with table := table } }

/-- Is `hold_until_lost` subscribed? -/
def subscribed (state : CoverageState) : Bool :=
  state.driver.phase.watched.isSome

/-- What the subscription has left once it has returned a signal.  A lagging receiver
skips the oldest events. -/
def receive (queue : List RoutingTableEvent) : DhtSignal → Option (List RoutingTableEvent)
  | .kClosestPeersChanged =>
    match queue with
    | event :: rest => if isCloseGroupChange event then some rest else none
    | [] => none
  | .other =>
    match queue with
    | event :: rest => if isCloseGroupChange event then none else some rest
    | [] => none
  | .lagged skipped =>
    if 0 < skipped ∧ skipped ≤ queue.length then some (queue.drop skipped) else none
  | .closed => some queue

/-- The queue after an input of the driver. -/
def feed (state : CoverageState) : DriverInput → Option (List RoutingTableEvent)
  | .subscribe => some []
  | .recvDht signal _ =>
    if state.subscribed then receive state.queue signal else some state.queue
  | _ => some state.queue

end CoverageState

section Steps

variable {Score : Type*} [LinearOrder Score] (env : DriverEnv) (codec : AddressCodec)
  (config : EngineConfig Score)

/-- The identities of `find_closest_nodes_local` at the node's own key. -/
def closestLocal (table : RoutingTable) : List PeerId :=
  ((table.findClosestNodes env.own config.kValue).filter fun node =>
    node.id != env.own).map NodeInfo.id

def coverageStep (state : CoverageState) : CoverageStep Score → Option CoverageState
  | .manager action =>
    (eventStep config state.manager action).map fun manager =>
      { state with
        manager := manager
        queue :=
          if state.subscribed then
            state.queue ++ manager.broadcast.drop state.manager.broadcast.length
          else state.queue }
  | .rewrite op =>
    if rewritesRecord op then
      some (state.setTable (op.apply codec config state.manager.table))
    else none
  | .refuseAdmission order observation node =>
    match config.addNode observation order state.manager.table node with
    | (_, .ok _) => none
    | (after, .error _) => some (state.setTable after)
  | .refuseRetry position responds observation =>
    match state.manager.deferred[position]? with
    | none => none
    | some deferred =>
      (refusedRetry config state.manager.table deferred responds observation).map
        fun after =>
          { state with
            manager :=
              { state.manager with
                table := after
                deferred := state.manager.deferred.eraseIdx position } }
  | .driver input =>
    if input.reads.all fun snapshot =>
        snapshot.closest == closestLocal env config state.manager.table then
      match state.feed input, driverStep env state.driver input with
      | some queue, some driver => some { state with driver := driver, queue := queue }
      | _, _ => none
    else none

/-- The relay a publication in this state announces. -/
def DriverState.relayOf (state : DriverState) : Option SocketAddr :=
  match state.phase with
  | .announcing relay => some relay.allocation.publicAddr
  | .holding _ => state.relayAddress
  | _ => none

/-- The self records are valid, and there is one. -/
def publishable (relay : Option SocketAddr) (snapshot : Snapshot) : Bool :=
  match completeTransportAddressRecords env.encode env.own snapshot.supplemental
      (typedSet env relay snapshot) with
  | .ok records => !records.isEmpty
  | .error _ => false

omit [LinearOrder Score] in
/-- Every publication has valid self records. -/
def publishes (state : CoverageState) : CoverageStep Score → Bool
  | .driver input => input.reads.all (publishable env state.driver.relayOf)
  | _ => true

omit [LinearOrder Score] in
/-- No change of the close group is broadcast between the first publication of a
relay and the subscription, and a retry that is refused has evicted no peer of the
close group. -/
def heard (state : CoverageState) : CoverageStep Score → Bool
  | .manager (.broadcast position) =>
    match state.driver.phase with
    | .subscribing _ =>
      state.manager.waiting[position]?.all fun events => !events.any isCloseGroupChange
    | _ => true
  | .refuseRetry position responds _ =>
    state.manager.deferred[position]?.all fun deferred =>
      (deferred.nonResponders responds).all fun peer =>
        !(state.manager.table.kClosestIds config.kValue).contains peer
  | _ => true

end Steps

/-! ## The invariant -/

/-- Every peer of the close group is a target of the last attempt. -/
def Covered {Score : Type*} (config : EngineConfig Score) (state : CoverageState) : Prop :=
  ∃ attempt, state.driver.publisher.lastPublicationAttempt = some attempt ∧
    ∀ peer ∈ state.manager.table.kClosestIds config.kValue, peer ∈ attempt.targetPeers

/-- A change of the close group waits for its broadcast, or in the queue. -/
def Noticed (state : CoverageState) : Prop :=
  (∃ events ∈ state.manager.waiting, events.any isCloseGroupChange = true) ∨
    (state.subscribed = true ∧ state.queue.any isCloseGroupChange = true)

structure Informed {Score : Type*} (env : DriverEnv) (config : EngineConfig Score) (k : ℕ)
    (state : CoverageState) : Prop where
  valid : state.manager.table.Valid env.own k
  storable : ∀ deferred ∈ state.manager.deferred, KBucket.storableTyped deferred.candidate ≠ []
  chained : state.driver.publisher.Chained
  informed : ∀ relay, state.driver.phase.Holds relay → Covered config state ∨ Noticed state

variable {env : DriverEnv}

theorem closestLocal_eq {Score : Type*} {config : EngineConfig Score} {k : ℕ}
    {table : RoutingTable} (hvalid : table.Valid env.own k) :
    closestLocal env config table = table.kClosestIds config.kValue := by
  rw [closestLocal, RoutingTable.kClosestIds, hvalid.nodeId, filter_eq_self.mpr]
  intro node hnode
  have hmem : node ∈ table.allNodes := Closest.closest_subset _ _ hnode
  simpa using hvalid.wellFormed.self_absent node hmem

/-- A publication with valid records covers the close group it has read. -/
theorem publishTypedSet_covers {Score : Type*} {config : EngineConfig Score} {k : ℕ}
    {table : RoutingTable} (hvalid : table.Valid env.own k) {relay : Option SocketAddr}
    {snapshot : Snapshot} (hpublishable : publishable env relay snapshot = true)
    (hclosest : snapshot.closest = closestLocal env config table) (force : Bool)
    (state : DriverState) :
    ∃ attempt, (publishTypedSet env relay force snapshot
        state).publisher.lastPublicationAttempt = some attempt ∧
      ∀ peer ∈ table.kClosestIds config.kValue, peer ∈ attempt.targetPeers := by
  rw [publishable] at hpublishable
  split at hpublishable
  · next records hrecords =>
      have hnonempty : ¬records.isEmpty = true := by simpa using hpublishable
      refine ⟨{ records := records
                targetPeers := (snapshot.closest.filter (· != env.own)).toFinset },
        ?_, ?_⟩
      · simp only [publishTypedSet, hrecords, Publisher.publish, if_neg hnonempty]
      · intro peer hpeer
        rw [mem_toFinset, mem_filter, hclosest, closestLocal_eq hvalid]
        obtain ⟨node, hnode, rfl⟩ := mem_map.mp hpeer
        have hmem : node ∈ table.allNodes := Closest.closest_subset _ _ hnode
        exact ⟨hpeer, by simpa using hvalid.wellFormed.self_absent node hmem⟩
  · cases hpublishable

/-! ## Steps of the driver -/

/-- A step of the driver publishes once or not at all. -/
theorem DriverMove.publisher {state next : DriverState} {input : DriverInput}
    (hmove : DriverMove env state input next) :
    next.publisher = state.publisher ∨ ∃ relay force snapshot, next.publisher =
        (publishTypedSet env relay force snapshot state).publisher := by
  cases hmove with
  | startup => exact Or.inr ⟨_, _, _, rfl⟩
  | announce => exact Or.inr ⟨_, _, _, rfl⟩
  | withdrawLost => exact Or.inr ⟨_, _, _, rfl⟩
  | withdraw => exact Or.inr ⟨_, _, _, rfl⟩
  | backoffRefresh => exact Or.inr ⟨_, _, _, rfl⟩
  | @admission _ verdict => cases verdict <;> exact Or.inl rfl
  | @commit _ success => cases success <;> exact Or.inl rfl
  | hold _ hmove =>
    cases hmove with
    | addressSignal => exact Or.inr ⟨_, _, _, rfl⟩
    | dhtSignal => exact Or.inr ⟨_, _, _, rfl⟩
    | _ => exact Or.inl rfl
  | _ => exact Or.inl rfl

/-- The step of a hold publishes what it has read, begins the subscription, or leaves
the publisher alone; then it takes no change of the close group from the queue. -/
inductive HoldStep (env : DriverEnv) (state next : DriverState) (input : DriverInput) :
    Prop where
  | publishes (force : Bool) (snapshot : Snapshot) (hreads : input.reads = some snapshot)
      (hpublisher : next.publisher =
        (publishTypedSet env state.relayOf force snapshot state).publisher)
  | subscribes (relay : AcquiredRelay) (hinput : input = .subscribe)
      (hphase : state.phase = .subscribing relay)
      (hpublisher : next.publisher = state.publisher)
  | waits (relay : AcquiredRelay) (hwatched : state.phase.watched = some relay)
      (hnext : next.phase.watched = some relay)
      (hinput : input ≠ .subscribe)
      (hsignal : ∀ signal snapshot, input = .recvDht signal snapshot → signal = .other)
      (hpublisher : next.publisher = state.publisher)

theorem DriverMove.holdStep {state next : DriverState} {input : DriverInput}
    (hmove : DriverMove env state input next) {relay : AcquiredRelay}
    (hholds : next.phase.Holds relay) : HoldStep env state next input := by
  cases hmove with
  | announce hphase =>
    refine .publishes true _ rfl ?_
    rw [DriverState.relayOf, hphase]
    rfl
  | subscribe hphase => exact .subscribes _ rfl hphase rfl
  | hold hphase hmove =>
    have hwatched := congrArg Phase.watched hphase
    cases hmove with
    | addressSignal =>
      refine .publishes false _ rfl ?_
      rw [DriverState.relayOf, hphase]
    | dhtSignal =>
      refine .publishes false _ rfl ?_
      rw [DriverState.relayOf, hphase]
    | ignore =>
      refine .waits _ hwatched hwatched (by simp) ?_ rfl
      rintro signal snapshot ⟨⟩
      rfl
    | healthy => exact .waits _ hwatched hwatched (by simp) (by simp) rfl
    | revalidate => exact .waits _ hwatched rfl (by simp) (by simp) rfl
    | _ => cases hholds
  | maintained hphase =>
    exact .waits _ (congrArg Phase.watched hphase) rfl (by simp) (by simp) rfl
  | @admission _ verdict => cases verdict <;> cases hholds
  | @commit _ success => cases success <;> cases hholds
  | @withdrawLost _ aborted => cases aborted <;> cases hholds
  | @abortLost _ published => cases published <;> cases hholds
  | backoffRefresh hphase =>
    rw [show (publishTypedSet env none false _ state).phase = .backoff from hphase] at hholds
    cases hholds
  | backoffIgnore hphase =>
    rw [hphase] at hholds
    cases hholds
  | _ => cases hholds

/-! ## Steps of the whole -/

namespace Informed

variable {Score : Type*} {env : DriverEnv} {config : EngineConfig Score} {k : ℕ}
  {state : CoverageState}

theorem start {table : RoutingTable} (hvalid : table.Valid env.own k) :
    Informed env config k (CoverageState.start table) where
  valid := hvalid
  storable _ hdeferred := by cases hdeferred
  chained := ⟨rfl, by simp [CoverageState.start, DriverState.initial, Publisher.new]⟩
  informed _ hholds := by cases hholds

/-- A silent change of the table that leaves the closest peers as they are. -/
theorem setTable (hinformed : Informed env config k state) {after : RoutingTable}
    (hvalid : after.Valid env.own k)
    (hsame : after.kClosestIds config.kValue = state.manager.table.kClosestIds config.kValue) :
    Informed env config k (state.setTable after) where
  valid := hvalid
  storable := hinformed.storable
  chained := hinformed.chained
  informed relay hholds := by
    refine (hinformed.informed relay hholds).imp_left ?_
    rintro ⟨attempt, hlast, htargets⟩
    exact ⟨attempt, hlast, fun peer hpeer => htargets peer (hsame ▸ hpeer)⟩

/-- A hold that is not subscribed yet is about to subscribe. -/
theorem subscribing_of_not_subscribed {relay : AcquiredRelay}
    (hholds : state.driver.phase.Holds relay) (hsubscribed : state.subscribed = false) :
    state.driver.phase = .subscribing relay := by
  rw [CoverageState.subscribed] at hsubscribed
  cases hphase : state.driver.phase with
  | subscribing held =>
    rw [hphase] at hholds
    rw [show held = relay from hholds]
  | holding held =>
    rw [hphase] at hsubscribed
    cases hsubscribed
  | revalidating held relayer address =>
    rw [hphase] at hsubscribed
    cases hsubscribed
  | _ =>
    rw [hphase] at hholds
    cases hholds

/-- A step of the driver that is not a publication takes no notice away. -/
theorem noticed_of_feed {input : DriverInput} {queue : List RoutingTableEvent}
    {driver : DriverState} {relay : AcquiredRelay} (hnoticed : Noticed state)
    (hfeed : state.feed input = some queue)
    (hnext : driver.phase.watched = some relay) (hinput : input ≠ .subscribe)
    (hsignal : ∀ signal snapshot, input = .recvDht signal snapshot → signal = .other) :
    Noticed { state with driver := driver, queue := queue } := by
  refine hnoticed.imp_right ?_
  rintro ⟨hsubscribed, hqueue⟩
  refine ⟨by rw [CoverageState.subscribed, hnext]; rfl, ?_⟩
  unfold CoverageState.feed at hfeed
  split at hfeed
  · exact absurd rfl hinput
  · next signal snapshot =>
      obtain rfl := hsignal signal snapshot rfl
      rw [if_pos hsubscribed] at hfeed
      cases hevents : state.queue with
      | nil =>
        rw [hevents] at hfeed
        cases hfeed
      | cons event rest =>
        rw [hevents] at hfeed hqueue
        simp only [CoverageState.receive] at hfeed
        split at hfeed <;> cases hfeed
        next hother => simpa [hother] using hqueue
  · cases hfeed
    exact hqueue

theorem driver (hinformed : Informed env config k state) {input : DriverInput}
    {queue : List RoutingTableEvent} {after : DriverState}
    (hreads : ∀ snapshot ∈ input.reads,
      snapshot.closest = closestLocal env config state.manager.table)
    (hpublishes : ∀ snapshot ∈ input.reads, publishable env state.driver.relayOf snapshot = true)
    (hfeed : state.feed input = some queue)
    (hstep : driverStep env state.driver input = some after) :
    Informed env config k { state with driver := after, queue := queue } := by
  unfold driverStep at hstep
  split at hstep
  · cases hstep
    cases hfeed
    exact ⟨hinformed.valid, hinformed.storable, hinformed.chained, hinformed.informed⟩
  · cases hstep
    cases hfeed
    exact ⟨hinformed.valid, hinformed.storable, hinformed.chained, hinformed.informed⟩
  · have hmove := phaseStep_move hstep
    refine ⟨hinformed.valid, hinformed.storable, ?_, ?_⟩
    · rcases hmove.publisher with hsame | ⟨relay, force, snapshot, hpublished⟩
      · exact (hsame ▸ hinformed.chained : after.publisher.Chained)
      · have hchained := hinformed.chained.publish env.own
          (completeTransportAddressRecords env.encode env.own snapshot.supplemental
            (typedSet env relay snapshot)) snapshot.closest force
        exact (hpublished ▸ hchained : after.publisher.Chained)
    · intro relay hholds
      cases hmove.holdStep hholds with
      | publishes force snapshot hsnapshot hpublisher =>
        left
        rw [Covered]
        simp only [hpublisher]
        exact publishTypedSet_covers hinformed.valid (hpublishes snapshot hsnapshot)
          (hreads snapshot hsnapshot) force state.driver
      | subscribes held hinput hphase hpublisher =>
        rcases hinformed.informed held (by rw [hphase]; rfl) with
          ⟨attempt, hlast, htargets⟩ | hwaiting | ⟨hsubscribed, -⟩
        · exact Or.inl ⟨attempt, hpublisher ▸ hlast, htargets⟩
        · exact Or.inr (Or.inl hwaiting)
        · rw [CoverageState.subscribed, hphase] at hsubscribed
          cases hsubscribed
      | waits held hwatched hnext hinput hsignal hpublisher =>
        have hbefore : state.driver.phase.Holds held := by
          cases hphase : state.driver.phase with
          | holding other =>
            rw [hphase] at hwatched
            cases hwatched
            rfl
          | revalidating other relayer address =>
            rw [hphase] at hwatched
            cases hwatched
            rfl
          | _ =>
            rw [hphase] at hwatched
            cases hwatched
        rcases hinformed.informed held hbefore with
          ⟨attempt, hlast, htargets⟩ | hnoticed
        · exact Or.inl ⟨attempt, hpublisher ▸ hlast, htargets⟩
        · exact Or.inr (noticed_of_feed hnoticed hfeed hnext hinput hsignal)

variable [LinearOrder Score] {next : CoverageState}

theorem manager (hinformed : Informed env config k state) {action : EventStep Score}
    {after : EventState} (hstep : eventStep config state.manager action = some after)
    (hheard : heard config state (.manager action) = true) :
    Informed env config k
      { state with
        manager := after
        queue :=
          if state.subscribed then
            state.queue ++ after.broadcast.drop state.manager.broadcast.length
          else state.queue } := by
  have hstorable := eventStep_deferred hinformed.storable hstep
  cases (announces_rule config env.own k).eventStep_move hinformed.valid hstep with
  | finished result hvalid hrel htable hwaiting hbroadcast =>
    refine ⟨htable ▸ hvalid, hstorable, hinformed.chained, ?_⟩
    intro relay hholds
    rw [hbroadcast, drop_length, append_nil, ite_self]
    rcases hrel with hsame | hnotice
    · rcases hinformed.informed relay hholds with ⟨attempt, hlast, htargets⟩ | hnoticed
      · refine Or.inl ⟨attempt, hlast, fun peer hpeer => htargets peer ?_⟩
        rw [← hsame, ← htable]
        exact hpeer
      · refine Or.inr (hnoticed.imp_left ?_)
        rintro ⟨events, hmem, hevents⟩
        refine ⟨events, ?_, hevents⟩
        rw [hwaiting]
        exact mem_append_left _ hmem
    · refine Or.inr (Or.inl ⟨result.2, ?_, hnotice⟩)
      rw [hwaiting]
      exact mem_append_right _ (mem_singleton_self _)
  | pending htable hwaiting hbroadcast =>
    refine ⟨htable ▸ hinformed.valid, hstorable, hinformed.chained, ?_⟩
    intro relay hholds
    rw [hbroadcast, drop_length, append_nil, ite_self]
    rcases hinformed.informed relay hholds with ⟨attempt, hlast, htargets⟩ | hnoticed
    · exact Or.inl ⟨attempt, hlast, by simpa only [htable] using htargets⟩
    · refine Or.inr (hnoticed.imp_left ?_)
      rw [hwaiting]
      exact id
  | @broadcast position events hevents =>
    refine ⟨hinformed.valid, hstorable, hinformed.chained, ?_⟩
    intro relay hholds
    rw [drop_left]
    rcases hinformed.informed relay hholds with hcovered | hnoticed
    · exact Or.inl hcovered
    · apply Or.inr
      -- A notice is broadcast into the queue, or it stays where it is.
      rcases hnoticed with ⟨notice, hmem, hnotice⟩ | ⟨hsubscribed, hqueue⟩
      · obtain ⟨place, hplace⟩ := mem_iff_getElem?.mp hmem
        by_cases hhere : place = position
        · subst hhere
          rw [hevents, Option.some.injEq] at hplace
          subst hplace
          cases hsubscribed : state.subscribed with
          | true =>
            refine Or.inr ⟨hsubscribed, ?_⟩
            rw [if_pos rfl, any_append, hnotice, Bool.or_true]
          | false =>
            rw [heard, subscribing_of_not_subscribed hholds hsubscribed, hevents] at hheard
            simp [hnotice] at hheard
        · exact Or.inl ⟨notice, mem_eraseIdx_iff_getElem?.mpr ⟨place, hhere, hplace⟩, hnotice⟩
      · refine Or.inr ⟨hsubscribed, ?_⟩
        rw [hsubscribed, if_pos rfl, any_append, hqueue, Bool.true_or]

theorem step (hinformed : Informed env config k state) {codec : AddressCodec}
    {action : CoverageStep Score} (hpublishes : publishes env state action = true)
    (hheard : heard config state action = true)
    (hstep : coverageStep env codec config state action = some next) :
    Informed env config k next := by
  cases action with
  | manager action =>
    obtain ⟨after, hafter, rfl⟩ := Option.map_eq_some_iff.mp hstep
    exact hinformed.manager hafter hheard
  | rewrite op =>
    simp only [coverageStep] at hstep
    split at hstep <;> cases hstep
    next hrewrites =>
      have hafter := op.apply_valid codec config hinformed.valid
      exact hinformed.setTable hafter (kClosestIds_eq_of_members_eq hinformed.valid
        hafter (members_apply_of_rewritesRecord hinformed.valid codec config hrewrites)
        config.kValue)
  | refuseAdmission order observation node =>
    simp only [coverageStep] at hstep
    split at hstep <;> cases hstep
    next after refusal hrefused =>
      have hsame : (config.addNode observation order state.manager.table node).1 =
          state.manager.table := by
        apply addNode_unchanged hinformed.valid
        intro events hadmitted
        rw [hrefused] at hadmitted
        cases hadmitted
      rw [hrefused] at hsame
      cases hsame
      exact hinformed.setTable hinformed.valid rfl
  | refuseRetry position responds observation =>
    simp only [coverageStep] at hstep
    split at hstep
    · cases hstep
    · next deferred hdeferred =>
        obtain ⟨after, hafter, rfl⟩ := Option.map_eq_some_iff.mp hstep
        have hfar : ∀ peer ∈ deferred.nonResponders responds,
            peer ∉ state.manager.table.kClosestIds config.kValue := by
          rw [heard, hdeferred] at hheard
          simpa using hheard
        obtain ⟨hvalid, hsame⟩ := kClosestIds_refusedRetry hinformed.valid
          (hinformed.storable deferred (mem_of_getElem? hdeferred)) hafter hfar
        have hrest : Informed env config k
            { state with
              manager :=
                { state.manager with
                  deferred := state.manager.deferred.eraseIdx position } } :=
          ⟨hinformed.valid,
            fun other hother => hinformed.storable other (mem_of_mem_eraseIdx hother),
            hinformed.chained, hinformed.informed⟩
        exact hrest.setTable hvalid hsame
  | driver input =>
    simp only [coverageStep] at hstep
    split at hstep
    · next hreads =>
        split at hstep
        · next queue after hfeed hafter =>
            cases hstep
            refine hinformed.driver ?_ ?_ hfeed hafter
            · intro snapshot hsnapshot
              rw [Option.mem_def.mp hsnapshot] at hreads
              exact eq_of_beq hreads
            · intro snapshot hsnapshot
              rw [publishes, Option.mem_def.mp hsnapshot] at hpublishes
              exact hpublishes
        · cases hstep
    · cases hstep

end Informed

/-- In every run with valid self records in which the driver hears of every change of
the close group, when it waits in `hold_until_lost` with its events processed and no
call has a change left to broadcast, every peer of the close group is a target of the
last publication and has been sent its records. -/
theorem close_group_covered {Score : Type*} [LinearOrder Score] (env : DriverEnv)
    (codec : AddressCodec) (config : EngineConfig Score) {k : ℕ} {initial : RoutingTable}
    {state : CoverageState} {relay : AcquiredRelay} (hinitial : initial.Valid env.own k)
    (hreaches : Reaches (coverageStep env codec config)
      (fun state action => (publishes env state action && heard config state action) = true)
      (CoverageState.start initial) state)
    (hphase : state.driver.phase = .holding relay) (hprocessed : state.queue = [])
    (hbroadcast : ∀ events ∈ state.manager.waiting,
      events.any isCloseGroupChange = false) :
    ∃ attempt, state.driver.publisher.lastPublicationAttempt = some attempt ∧
      ∀ peer ∈ state.manager.table.kClosestIds config.kValue,
        peer ∈ attempt.targetPeers ∧
          ∃ delivery ∈ state.driver.publisher.deliveries,
            delivery.attempt.records = attempt.records ∧
              peer ∈ delivery.destinations := by
  have hinformed : Informed env config k state := by
    apply hreaches.invariant (Informed.start hinitial)
    intro before action next hbefore hallowed hstep
    obtain ⟨hpublishes, hheard⟩ := Bool.and_eq_true_iff.mp hallowed
    exact hbefore.step hpublishes hheard hstep
  rcases hinformed.informed relay (by rw [hphase]; rfl) with
    ⟨attempt, hlast, htargets⟩ | ⟨events, hmem, hnotice⟩ | ⟨-, hqueue⟩
  · refine ⟨attempt, hlast, fun peer hpeer => ⟨htargets peer hpeer, ?_⟩⟩
    rw [hinformed.chained.last, Option.map_eq_some_iff] at hlast
    obtain ⟨last, hlast, rfl⟩ := hlast
    rw [getLast?_eq_getElem?] at hlast
    obtain ⟨reached, hle, ⟨earlier, hearlier, hsent⟩, hunchanged⟩ :=
      hinformed.chained.covered hlast (htargets peer hpeer)
    exact ⟨earlier, mem_of_getElem? hearlier,
      (hunchanged reached earlier le_rfl hle hearlier).2, hsent⟩
  · rw [hbroadcast events hmem] at hnotice
    cases hnotice
  · rw [hprocessed] at hqueue
    cases hqueue

/-! With `K = 4` the close group is `1`, `4`, `5` and `6`.  Peer `1` has published a direct
address and is the relayer; the peers `64`, `65` and `66` are known outside of the group and
witness the relay.  Peer `2` joins once the relay is announced.  If the change is broadcast
before the driver subscribes, the peer is never sent the relay address. -/

section Example

private def peerAt (id : PeerId) (ip : Ipv4Addr) : NodeInfo :=
  { id := id
    addresses := [.quic (.v4 ip 9000)]
    addressTypes := [.unverified]
    lastSeen := 0 }

private def seenAtStart : EngineConfig.Observation ℕ :=
  { trustScore := fun _ => 50, now := 0 }

private def knownPeersOps : List (RoutingOp ℕ) :=
  [peerAt 1 0xcb007107, peerAt 4 0xcb007201, peerAt 5 0xcb007301, peerAt 6 0xcb007401,
    peerAt 64 0xcb007501, peerAt 65 0xcb007601, peerAt 66 0xcb007701].map
      (.admission (HashOrder.insertion _) seenAtStart) ++
    [.replace 1 [(.quic (.v4 0xcb007107 9000), .direct)] 1 .authenticatedSelfPublish 0]

private def knownTable : RoutingTable :=
  (RoutingTable.new 0 4 0).run { decode := fun _ => none } (EngineConfig.withDefaults 4)
    knownPeersOps

private theorem knownTable_valid : knownTable.Valid exampleEnv.own 4 :=
  RoutingTable.run_valid _ _ knownPeersOps (RoutingTable.Valid.new 0 4 0)

private def joiningSnapshot (closest : List PeerId) : Snapshot :=
  { exampleSnapshot with closest := closest }

/-- The startup and the first publication of the relay. -/
private def announceSteps : List (CoverageStep ℕ) :=
  [.publish (joiningSnapshot [1, 4, 5, 6]), .proceed,
    .acquisition (.acquired (exampleRelay 1)), .admission (.verified 3 3), .commit true,
    .publish (joiningSnapshot [1, 4, 5, 6])].map .driver

private def joinStep : CoverageStep ℕ :=
  .manager (.peerConnected (HashOrder.insertion _) seenAtStart (peerAt 2 0xcb007801))

private def coverageRun (allowed : CoverageState → CoverageStep ℕ → Bool)
    (steps : List (CoverageStep ℕ)) : Option CoverageState :=
  run (coverageStep exampleEnv { decode := fun _ => none } (EngineConfig.withDefaults 4))
    (fun state action => allowed state action = true) (CoverageState.start knownTable) steps

/-- The change is broadcast after the driver has subscribed. -/
theorem late_join_covered :
    ∃ state attempt, Reaches (coverageStep exampleEnv { decode := fun _ => none }
          (EngineConfig.withDefaults 4))
        (fun state action => (publishes exampleEnv state action &&
          heard (EngineConfig.withDefaults 4) state action) = true)
        (CoverageState.start knownTable) state ∧
      state.manager.table.kClosestIds 4 = [1, 2, 4, 5] ∧
      state.driver.publisher.lastPublicationAttempt = some attempt ∧
      2 ∈ attempt.targetPeers := by
  have hrun : (coverageRun (fun state action => publishes exampleEnv state action &&
      heard (withDefaults 4) state action)
      (announceSteps ++ [joinStep, .driver .subscribe, .manager (.broadcast 0),
        .driver (.recvDht .other (joiningSnapshot [1, 2, 4, 5])),
        .driver (.recvDht .kClosestPeersChanged (joiningSnapshot [1, 2, 4, 5]))])).map
          (fun state => (state.driver.phase, state.queue, state.manager.waiting,
            state.manager.table.kClosestIds 4)) =
      some (.holding (exampleRelay 1), [], [], [1, 2, 4, 5]) := by
    decide +kernel
  obtain ⟨state, hstate, hvalues⟩ := Option.map_eq_some_iff.mp hrun
  simp only [Prod.mk.injEq] at hvalues
  obtain ⟨hphase, hqueue, hwaiting, hclosest⟩ := hvalues
  have hreaches := reaches_of_run hstate
  obtain ⟨attempt, hlast, htargets⟩ := close_group_covered exampleEnv
    { decode := fun _ => none } (withDefaults 4) knownTable_valid hreaches hphase hqueue
    (by simp [hwaiting])
  exact ⟨state, attempt, hreaches, hclosest, hlast,
    (htargets 2 (by rw [show (withDefaults 4 : EngineConfig ℕ).kValue = 4
      from rfl, hclosest]; decide)).1⟩

/-- The change is broadcast between the publication and the subscription. -/
theorem early_join_not_covered :
    (knownTable.findNodeById 1).map (fun node => (node.addresses, node.addressTypes)) =
        some ([.quic (.v4 0xcb007107 9000)], [.direct]) ∧
      knownTable.allNodes.map NodeInfo.id = [64, 65, 66, 4, 5, 6, 1] ∧
      knownTable.kClosestIds 4 = [1, 4, 5, 6] ∧
      ∃ state attempt, Reaches (coverageStep exampleEnv { decode := fun _ => none }
          (EngineConfig.withDefaults 4))
        (fun state action => publishes exampleEnv state action = true)
        (CoverageState.start knownTable) state ∧
      state.driver.phase = .holding (exampleRelay 1) ∧ state.queue = [] ∧
      state.manager.waiting = [] ∧ state.manager.table.kClosestIds 4 = [1, 2, 4, 5] ∧
      state.driver.publisher.lastPublicationAttempt = some attempt ∧
      2 ∉ attempt.targetPeers ∧
      ∀ delivery ∈ state.driver.publisher.deliveries, 2 ∉ delivery.destinations := by
  have hrun : (coverageRun (publishes exampleEnv)
      (announceSteps ++ [joinStep, .manager (.broadcast 0), .driver .subscribe])).map
          (fun state => (state.driver.phase, state.manager.table.kClosestIds 4,
            state.driver.publisher.lastPublicationAttempt.map fun attempt =>
              decide (2 ∈ attempt.targetPeers),
            state.queue.isEmpty && state.manager.waiting.isEmpty &&
              state.driver.publisher.deliveries.all fun delivery =>
                decide (2 ∉ delivery.destinations))) =
      some (.holding (exampleRelay 1), [1, 2, 4, 5], some false, true) := by
    decide +kernel
  obtain ⟨state, hstate, hvalues⟩ := Option.map_eq_some_iff.mp hrun
  simp only [Prod.mk.injEq, Bool.and_eq_true, List.isEmpty_iff] at hvalues
  obtain ⟨hphase, hclosest, hlast, ⟨hqueue, hwaiting⟩, hdeliveries⟩ := hvalues
  obtain ⟨attempt, hattempt, htargets⟩ := Option.map_eq_some_iff.mp hlast
  refine ⟨by decide +kernel, by decide +kernel, by decide +kernel, state, attempt,
    reaches_of_run hstate, hphase, hqueue, hwaiting, hclosest, hattempt,
    of_decide_eq_false htargets, ?_⟩
  intro delivery hdelivery
  exact of_decide_eq_true (List.all_eq_true.mp hdeliveries delivery hdelivery)

end Example

end SaorsaCore.Reachability
