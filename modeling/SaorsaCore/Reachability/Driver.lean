import SaorsaCore.Core.Transition
import SaorsaCore.Reachability.Announcement

/-!
# The relay acquisition driver

The driver is one task.  Between two of its await points nothing else writes its
state, so a run is a sequence of steps, one for each answer it waits for: an
acquisition outcome, a canary verdict, a commit result, a transport or DHT event.
What it does is logged in cycles, one for each acquisition.
-/

namespace SaorsaCore.Reachability

/-- The transport's handle of an allocation: its public address, and an identity that
tells it from any other allocation. -/
structure PreparedRelay where
  publicAddr : SocketAddr
  identity : ℕ
  deriving DecidableEq, Repr

structure AcquiredRelay where
  relayer : PeerId
  allocation : PreparedRelay
  deriving DecidableEq, Repr

inductive RelayAcquisitionOutcome where
  | acquired (relay : AcquiredRelay)
  | failed (reason : String)
  deriving DecidableEq, Repr

inductive RelayCanaryVerdict where
  | verified (successes attempts : ℕ)
  | rejected (successes attempts : ℕ)
  | inconclusive (successes failures unavailable : ℕ)
  deriving DecidableEq, Repr

def RelayCanaryVerdict.isVerified : RelayCanaryVerdict → Bool
  | .verified _ _ => true
  | _ => false

inductive CanaryRejectionEvent where
  | verified
  | rejected (relayer : PeerId)
  | insufficientWitnesses
  | acquisitionFailed
  deriving DecidableEq, Repr

def applyCanaryRejectionEvent (rejectedRelayers : Finset PeerId) :
    CanaryRejectionEvent → Finset PeerId
  | .verified => ∅
  | .insufficientWitnesses => ∅
  | .acquisitionFailed => ∅
  | .rejected relayer => insert relayer rejectedRelayers

/-- `BACKOFF_INITIAL`, in seconds -/
def backoffInitial : ℕ := 30

/-- `BACKOFF_MAX`, in seconds -/
def backoffMax : ℕ := 300

def backoffFactor : ℕ := 2

/-! ## The state -/

/-- The await point at which the driver is. -/
inductive Phase where
  /-- The relay-free publication at startup is due. -/
  | starting
  /-- The head of the loop of `run`. -/
  | loopHead
  /-- In `run_relay_acquisition`. -/
  | acquiring
  /-- In the admission round of `verify_relay_with_canaries`. -/
  | verifying (relay : AcquiredRelay)
  /-- In `commit_verified_relay`. -/
  | committing (relay : AcquiredRelay)
  /-- The relay state is set and its first publication is due. -/
  | announcing (relay : AcquiredRelay)
  /-- At the beginning of `hold_until_lost`, before it subscribes to DHT events. -/
  | subscribing (relay : AcquiredRelay)
  /-- In the `select!` of `hold_until_lost`. -/
  | holding (relay : AcquiredRelay)
  /-- In the maintenance round of `verify_relay_with_canaries`. -/
  | revalidating (relay : AcquiredRelay) (relayer : PeerId) (address : SocketAddr)
  /-- In the `join!` of `lose_relay_and_republish`: which of its halves have run. -/
  | losing (relay : AcquiredRelay) (aborted published : Bool)
  /-- In `clear_unpublished_relay_state`. -/
  | discarding (relay : AcquiredRelay)
  /-- The relay-free publication before a backoff is due. -/
  | withdrawing
  /-- In `wait_backoff_or_event`. -/
  | backoff
  | stopped
  deriving DecidableEq, Repr

/-- What the driver did. -/
inductive DriverEvent where
  | acquired (relay : AcquiredRelay)
  | admission (relay : AcquiredRelay) (verdict : RelayCanaryVerdict)
  | commit (relay : AcquiredRelay) (success : Bool)
  | published (typed : List (MultiAddr × AddressType))
  | lost (relay : AcquiredRelay)
  | aborted (allocation : PreparedRelay)
  deriving DecidableEq, Repr

structure DriverState where
  phase : Phase
  relayerPeerId : Option PeerId
  relayAddress : Option SocketAddr
  currentBackoff : ℕ
  publisher : Publisher
  canaryRejectedRelayers : Finset PeerId
  /-- Has the shutdown token been cancelled? -/
  shutdown : Bool
  /-- The queue behind `recv_relay_lost`. -/
  relayLost : List SocketAddr
  /-- What the driver did up to each acquisition but the last, and since. -/
  past : List (List DriverEvent)
  current : List DriverEvent
  deriving DecidableEq

def DriverState.initial : DriverState :=
  { phase := .starting
    relayerPeerId := none
    relayAddress := none
    currentBackoff := backoffInitial
    publisher := Publisher.new
    canaryRejectedRelayers := ∅
    shutdown := false
    relayLost := []
    past := []
    current := [] }

/-! ## Inputs -/

/-- What one publication reads from the transport and from the DHT. -/
structure Snapshot where
  observed : List SocketAddr
  listen : List MultiAddr
  isExternalProven : SocketAddr → Bool
  supplemental : List MultiAddr
  closest : List PeerId

/-- What `recv_direct_address_promoted` or `recv_self_address_updated` returns. -/
inductive AddressSignal where
  | promoted (address : SocketAddr)
  | updated (address : SocketAddr)
  | closed
  deriving DecidableEq, Repr

/-- What the subscription to DHT events returns. -/
inductive DhtSignal where
  | kClosestPeersChanged
  | other
  | lagged (skipped : ℕ)
  | closed
  deriving DecidableEq, Repr

inductive DriverInput where
  /-- The shutdown token is cancelled. -/
  | cancel
  /-- The transport queues a `RelayLost` event. -/
  | queueRelayLost (address : SocketAddr)
  | proceed
  | acquisition (outcome : RelayAcquisitionOutcome)
  | admission (verdict : RelayCanaryVerdict)
  | commit (success : Bool)
  | publish (snapshot : Snapshot)
  | subscribe
  | abort
  | noticeShutdown
  | recvRelayLost
  | relayLostClosed
  | recvAddress (signal : AddressSignal) (snapshot : Snapshot)
  | recvDht (signal : DhtSignal) (snapshot : Snapshot)
  | healthTick (healthy : Bool)
  | revalidation
  | maintenance (verdict : RelayCanaryVerdict)
  | backoffElapsed

/-! ## Steps -/

/-- The node's own identity, and the functions of third-party libraries the driver
rests on. -/
structure DriverEnv where
  own : PeerId
  normalize : SocketAddr → SocketAddr
  encode : MultiAddr → Option (List Byte)

namespace DriverState

def log (state : DriverState) (event : DriverEvent) : DriverState :=
  { state with current := state.current ++ [event] }

def goTo (state : DriverState) (phase : Phase) : DriverState :=
  { state with phase := phase }

/-- The set `publish_typed_set_with_policy` asks to publish. -/
def typedSet (env : DriverEnv) (relay : Option SocketAddr) (snapshot : Snapshot) :
    List (MultiAddr × AddressType) :=
  (buildSelfAddressSet env.normalize snapshot.isExternalProven snapshot.observed
    snapshot.listen relay).intoTypedVec

/-- `publish_typed_set_with_policy` -/
def publishTypedSet (env : DriverEnv) (relay : Option SocketAddr) (force : Bool)
    (snapshot : Snapshot) (state : DriverState) : DriverState :=
  let typed := typedSet env relay snapshot
  let records := completeTransportAddressRecords env.encode env.own
    snapshot.supplemental typed
  { state with
    publisher := state.publisher.publish env.own records snapshot.closest force
    current := state.current ++ [.published typed] }

def clearRelay (state : DriverState) : DriverState :=
  { state with
    relayerPeerId := none
    relayAddress := none }

def setRelay (state : DriverState) (relay : AcquiredRelay) : DriverState :=
  { state with
    relayerPeerId := some relay.relayer
    relayAddress := some relay.allocation.publicAddr }

def canary (state : DriverState) (event : CanaryRejectionEvent) : DriverState :=
  { state with
    canaryRejectedRelayers :=
      applyCanaryRejectionEvent state.canaryRejectedRelayers event }

def advanceBackoff (state : DriverState) : DriverState :=
  { state with
    currentBackoff := min (state.currentBackoff * backoffFactor) backoffMax }

/-- `hold_until_lost` returns `false`, and `lose_relay_and_republish` begins. -/
def lose (state : DriverState) (relay : AcquiredRelay) : DriverState :=
  ((state.log (.lost relay)).clearRelay).goTo (.losing relay false false)

/-- Both halves of the `join!` have run, or one is left. -/
def loseNext (state : DriverState) (relay : AcquiredRelay) (aborted published : Bool) :
    DriverState :=
  state.goTo (if aborted && published then .loopHead
    else .losing relay aborted published)

end DriverState

open DriverState

/-- What `run` does with the verdict of the admission round. -/
def admissionStep (state : DriverState) (relay : AcquiredRelay)
    (verdict : RelayCanaryVerdict) : DriverState :=
  let logged := state.log (.admission relay verdict)
  match verdict with
  | .verified _ _ => logged.goTo (.committing relay)
  | .rejected _ _ =>
    (logged.canary (.rejected relay.relayer)).goTo (.discarding relay)
  | .inconclusive _ _ _ =>
    (logged.canary .insufficientWitnesses).goTo (.discarding relay)

/-- What `run` does with the result of `commit_verified_relay`. -/
def commitStep (state : DriverState) (relay : AcquiredRelay) (success : Bool) : DriverState :=
  let logged := state.log (.commit relay success)
  if success then
    ({ logged.canary .verified with
      currentBackoff := backoffInitial }.setRelay relay).goTo (.announcing relay)
  else (logged.canary .acquisitionFailed).goTo (.discarding relay)

/-- `hold_until_lost`.  Its `select!` is biased: shutdown and `RelayLost` come before
the other arms. -/
def holdStep (env : DriverEnv) (state : DriverState) (relay : AcquiredRelay) :
    DriverInput → Option DriverState
  | .noticeShutdown => if state.shutdown then some (state.goTo .stopped) else none
  | .recvRelayLost =>
    if state.shutdown then none
    else
      match state.relayLost with
      | [] => none
      | _ :: rest => some ({ state with relayLost := rest }.lose relay)
  | .relayLostClosed => if state.shutdown then none else some (state.goTo .stopped)
  | .recvAddress signal snapshot =>
    if state.shutdown || !state.relayLost.isEmpty then none
    else
      match signal with
      | .closed => some (state.goTo .stopped)
      | _ => some (publishTypedSet env state.relayAddress false snapshot state)
  | .recvDht signal snapshot =>
    if state.shutdown || !state.relayLost.isEmpty then none
    else
      match signal with
      | .closed => some (state.goTo .stopped)
      | .other => some state
      | _ => some (publishTypedSet env state.relayAddress false snapshot state)
  | .healthTick healthy =>
    if state.shutdown || !state.relayLost.isEmpty then none
    else if healthy then some state
    else some (state.lose relay)
  | .revalidation =>
    if state.shutdown || !state.relayLost.isEmpty then none
    else
      match state.relayerPeerId, state.relayAddress with
      | some relayer, some address =>
        some (state.goTo (.revalidating relay relayer address))
      | _, _ => some (state.lose relay)
  | _ => none

/-- The verdict of a maintenance round; only a rejection ends the hold. -/
def maintenanceStep (state : DriverState) (relay : AcquiredRelay) (relayer : PeerId) :
    RelayCanaryVerdict → DriverState
  | .rejected _ _ => (state.canary (.rejected relayer)).lose relay
  | _ => state.goTo (.holding relay)

/-- `wait_backoff_or_event`, and `advance_backoff` after it. -/
def backoffStep (env : DriverEnv) (state : DriverState) : DriverInput → Option DriverState
  | .noticeShutdown => if state.shutdown then some (state.goTo .stopped) else none
  | .backoffElapsed =>
    if state.shutdown then none else some (state.advanceBackoff.goTo .loopHead)
  | .recvAddress signal snapshot =>
    if state.shutdown then none
    else
      match signal with
      | .closed => some (state.goTo .stopped)
      | _ => some (publishTypedSet env none false snapshot state)
  | .recvDht signal snapshot =>
    if state.shutdown then none
    else
      match signal with
      | .kClosestPeersChanged => some (state.advanceBackoff.goTo .loopHead)
      | .other => some state
      | .lagged _ => some (publishTypedSet env none false snapshot state)
      | .closed => some (state.goTo .stopped)
  | _ => none

/-- `run`, from one await point to the next. -/
def phaseStep (env : DriverEnv) (state : DriverState) : Phase → DriverInput → Option DriverState
  | .starting, .publish snapshot =>
    some ((publishTypedSet env none true snapshot state).goTo .loopHead)
  | .loopHead, .proceed =>
    if state.shutdown then some (state.goTo .stopped)
    else
      some
        { state with
          phase := .acquiring
          past := state.past ++ [state.current]
          current := [] }
  | .acquiring, .acquisition (.acquired relay) =>
    some ((state.log (.acquired relay)).goTo (.verifying relay))
  | .acquiring, .acquisition (.failed _) =>
    some ((state.canary .acquisitionFailed).clearRelay.goTo .withdrawing)
  | .verifying relay, .admission verdict => some (admissionStep state relay verdict)
  | .committing relay, .commit success => some (commitStep state relay success)
  | .announcing relay, .publish snapshot =>
    some ((publishTypedSet env (some relay.allocation.publicAddr) true snapshot
      state).goTo (.subscribing relay))
  | .subscribing relay, .subscribe => some (state.goTo (.holding relay))
  | .holding relay, input => holdStep env state relay input
  | .revalidating relay relayer _, .maintenance verdict =>
    some (maintenanceStep state relay relayer verdict)
  | .losing relay aborted false, .publish snapshot =>
    some ((publishTypedSet env none true snapshot state).loseNext relay aborted true)
  | .losing relay false published, .abort =>
    some ((state.log (.aborted relay.allocation)).loseNext relay true published)
  | .discarding relay, .abort =>
    some ((state.log (.aborted relay.allocation)).clearRelay.goTo .withdrawing)
  | .withdrawing, .publish snapshot =>
    some ((publishTypedSet env none false snapshot state).goTo .backoff)
  | .backoff, input => backoffStep env state input
  | _, _ => none

/-- The driver moves on, or something happens around it. -/
def driverStep (env : DriverEnv) (state : DriverState) : DriverInput → Option DriverState
  | .cancel => some { state with shutdown := true }
  | .queueRelayLost address =>
    some { state with relayLost := state.relayLost ++ [address] }
  | input => phaseStep env state state.phase input

/-! ## What a step can do -/

/-- The moves of `hold_until_lost` inside its `select!`. -/
inductive HoldMove (env : DriverEnv) (state : DriverState) (relay : AcquiredRelay) :
    DriverInput → DriverState → Prop where
  | stop {input : DriverInput} : HoldMove env state relay input (state.goTo .stopped)
  | ignore {snapshot : Snapshot} :
      HoldMove env state relay (.recvDht .other snapshot) state
  | healthy : HoldMove env state relay (.healthTick true) state
  | addressSignal {signal : AddressSignal} {snapshot : Snapshot} :
      HoldMove env state relay (.recvAddress signal snapshot)
        (publishTypedSet env state.relayAddress false snapshot state)
  | dhtSignal {signal : DhtSignal} {snapshot : Snapshot} :
      HoldMove env state relay (.recvDht signal snapshot)
        (publishTypedSet env state.relayAddress false snapshot state)
  | relayLost {address : SocketAddr} {rest : List SocketAddr}
      (hqueue : state.relayLost = address :: rest) :
      HoldMove env state relay .recvRelayLost ({ state with relayLost := rest }.lose relay)
  | unhealthy : HoldMove env state relay (.healthTick false) (state.lose relay)
  | revalidate {relayer : PeerId} {address : SocketAddr}
      (hrelayer : state.relayerPeerId = some relayer)
      (haddress : state.relayAddress = some address) :
      HoldMove env state relay .revalidation (state.goTo (.revalidating relay relayer address))
  | vanished (hvanished : state.relayerPeerId = none ∨ state.relayAddress = none) :
      HoldMove env state relay .revalidation (state.lose relay)

variable {env : DriverEnv} {state next : DriverState} {input : DriverInput}

theorem holdStep_move {relay : AcquiredRelay} (hstep : holdStep env state relay input = some next) :
    HoldMove env state relay input next := by
  unfold holdStep at hstep
  split at hstep
  · split at hstep <;> cases hstep
    exact .stop
  · split at hstep
    · cases hstep
    · split at hstep <;> cases hstep
      next hqueue => exact .relayLost hqueue
  · split at hstep <;> cases hstep
    exact .stop
  · split at hstep
    · cases hstep
    · split at hstep <;> cases hstep
      · exact .stop
      · exact .addressSignal
  · split at hstep
    · cases hstep
    · split at hstep <;> cases hstep
      · exact .stop
      · exact .ignore
      · exact .dhtSignal
  · next healthy =>
      split at hstep
      · cases hstep
      · cases healthy <;> cases hstep
        · exact .unhealthy
        · exact .healthy
  · split at hstep
    · cases hstep
    · split at hstep <;> cases hstep
      · next hrelayer haddress => exact .revalidate hrelayer haddress
      · next hmissing =>
          apply HoldMove.vanished
          cases hrelayer : state.relayerPeerId with
          | none => exact Or.inl rfl
          | some relayer =>
            cases haddress : state.relayAddress with
            | none => exact Or.inr rfl
            | some address => exact absurd haddress (hmissing relayer address hrelayer)
  · cases hstep

/-- The moves of `run` between its await points. -/
inductive DriverMove (env : DriverEnv) (state : DriverState) :
    DriverInput → DriverState → Prop where
  | startup {snapshot : Snapshot} (hphase : state.phase = .starting) :
      DriverMove env state (.publish snapshot)
        ((publishTypedSet env none true snapshot state).goTo .loopHead)
  | stop {input : DriverInput} : DriverMove env state input (state.goTo .stopped)
  | acquire (hphase : state.phase = .loopHead) :
      DriverMove env state .proceed
        { state with
          phase := .acquiring
          past := state.past ++ [state.current]
          current := [] }
  | acquired {relay : AcquiredRelay} (hphase : state.phase = .acquiring) :
      DriverMove env state (.acquisition (.acquired relay))
        ((state.log (.acquired relay)).goTo (.verifying relay))
  | failed {reason : String} (hphase : state.phase = .acquiring) :
      DriverMove env state (.acquisition (.failed reason))
        ((state.canary .acquisitionFailed).clearRelay.goTo .withdrawing)
  | admission {relay : AcquiredRelay} {verdict : RelayCanaryVerdict}
      (hphase : state.phase = .verifying relay) :
      DriverMove env state (.admission verdict) (admissionStep state relay verdict)
  | commit {relay : AcquiredRelay} {success : Bool}
      (hphase : state.phase = .committing relay) :
      DriverMove env state (.commit success) (commitStep state relay success)
  | announce {relay : AcquiredRelay} {snapshot : Snapshot}
      (hphase : state.phase = .announcing relay) :
      DriverMove env state (.publish snapshot)
        ((publishTypedSet env (some relay.allocation.publicAddr) true snapshot
          state).goTo (.subscribing relay))
  | subscribe {relay : AcquiredRelay} (hphase : state.phase = .subscribing relay) :
      DriverMove env state .subscribe (state.goTo (.holding relay))
  | hold {relay : AcquiredRelay} {input : DriverInput} {next : DriverState}
      (hphase : state.phase = .holding relay)
      (hmove : HoldMove env state relay input next) : DriverMove env state input next
  | maintained {relay : AcquiredRelay} {relayer : PeerId} {address : SocketAddr}
      {verdict : RelayCanaryVerdict}
      (hphase : state.phase = .revalidating relay relayer address) :
      DriverMove env state (.maintenance verdict) (state.goTo (.holding relay))
  | refuted {relay : AcquiredRelay} {relayer : PeerId} {address : SocketAddr}
      {successes attempts : ℕ}
      (hphase : state.phase = .revalidating relay relayer address) :
      DriverMove env state (.maintenance (.rejected successes attempts))
        ((state.canary (.rejected relayer)).lose relay)
  | withdrawLost {relay : AcquiredRelay} {aborted : Bool} {snapshot : Snapshot}
      (hphase : state.phase = .losing relay aborted false) :
      DriverMove env state (.publish snapshot)
        ((publishTypedSet env none true snapshot state).loseNext relay aborted true)
  | abortLost {relay : AcquiredRelay} {published : Bool}
      (hphase : state.phase = .losing relay false published) :
      DriverMove env state .abort
        ((state.log (.aborted relay.allocation)).loseNext relay true published)
  | discard {relay : AcquiredRelay} (hphase : state.phase = .discarding relay) :
      DriverMove env state .abort
        ((state.log (.aborted relay.allocation)).clearRelay.goTo .withdrawing)
  | withdraw {snapshot : Snapshot} (hphase : state.phase = .withdrawing) :
      DriverMove env state (.publish snapshot)
        ((publishTypedSet env none false snapshot state).goTo .backoff)
  | backoffRefresh {input : DriverInput} {snapshot : Snapshot}
      (hphase : state.phase = .backoff) :
      DriverMove env state input (publishTypedSet env none false snapshot state)
  | backoffIgnore {input : DriverInput} (hphase : state.phase = .backoff) :
      DriverMove env state input state
  | backoffEnd {input : DriverInput} (hphase : state.phase = .backoff) :
      DriverMove env state input (state.advanceBackoff.goTo .loopHead)

theorem backoffStep_move (hphase : state.phase = .backoff)
    (hstep : backoffStep env state input = some next) : DriverMove env state input next := by
  unfold backoffStep at hstep
  split at hstep
  · split at hstep <;> cases hstep
    exact .stop
  · split at hstep <;> cases hstep
    exact .backoffEnd hphase
  · split at hstep
    · cases hstep
    · split at hstep <;> cases hstep
      · exact .stop
      · exact .backoffRefresh hphase
  · split at hstep
    · cases hstep
    · split at hstep <;> cases hstep
      · exact .backoffEnd hphase
      · exact .backoffIgnore hphase
      · exact .backoffRefresh hphase
      · exact .stop
  · cases hstep

theorem phaseStep_move (hstep : phaseStep env state state.phase input = some next) :
    DriverMove env state input next := by
  generalize hphase : state.phase = phase at hstep
  unfold phaseStep at hstep
  split at hstep
  · cases hstep
    exact .startup hphase
  · split at hstep <;> cases hstep
    · exact .stop
    · exact .acquire hphase
  · cases hstep
    exact .acquired hphase
  · cases hstep
    exact .failed hphase
  · cases hstep
    exact .admission hphase
  · cases hstep
    exact .commit hphase
  · cases hstep
    exact .announce hphase
  · cases hstep
    exact .subscribe hphase
  · exact .hold hphase (holdStep_move hstep)
  · next verdict =>
      cases hstep
      cases verdict with
      | verified successes attempts => exact .maintained hphase
      | rejected successes attempts => exact .refuted hphase
      | inconclusive successes failures unavailable => exact .maintained hphase
  · cases hstep
    exact .withdrawLost hphase
  · cases hstep
    exact .abortLost hphase
  · cases hstep
    exact .discard hphase
  · cases hstep
    exact .withdraw hphase
  · exact backoffStep_move hphase hstep
  · cases hstep

end SaorsaCore.Reachability
