import SaorsaCore.Core.Transition
import SaorsaCore.Identity

/-!
# Shared dials

Concurrent calls of `ensure_peer_channel` for one peer share a dial.  The call that
finds no entry in `pending_peer_dials` owns the dial; the calls that find one wait on
its broadcast channel.  A call can be cancelled wherever it awaits; an owner that is
cancelled removes its entry and drops its sender.  A step of the model is one
operation on the map, the dial, or one operation on a channel.
-/

namespace SaorsaCore.Manager

/-- The errors of `ensure_peer_channel`. -/
inductive P2PError where
  /-- `NetworkError::PeerNotFound` -/
  | peerNotFound (text : String)
  /-- `NetworkError::ProtocolError` -/
  | protocolError (text : String)
  /-- `IdentityError::IdentityMismatch` -/
  | identityMismatch (expected actual : String)
  deriving DecidableEq, Repr

inductive PendingDialOutcome where
  | connected
  | dialFailed (candidatesCount : ℕ)
  | identityFailed (err : String)
  | identityMismatch (actual : PeerId)
  deriving DecidableEq, Repr

abbrev DialResult := Except P2PError Unit

def PendingDialOutcome.intoResult (peer : PeerId) : PendingDialOutcome → DialResult
  | .connected => .ok ()
  | .dialFailed candidatesCount =>
    .error (.peerNotFound ("failed to dial " ++ peer.toHex ++ " at any of " ++
      toString candidatesCount ++ " candidate address(es)"))
  | .identityFailed err =>
    .error (.protocolError ("identity exchange with " ++ peer.toHex ++ " failed: " ++ err))
  | .identityMismatch actual => .error (.identityMismatch peer.toHex actual.toHex)

/-- The error of a call whose dial was dropped. -/
def droppedDial (peer : PeerId) : DialResult :=
  .error (.peerNotFound ("in-flight dial to " ++ peer.toHex ++
    " dropped before producing a result"))

/-- The error of a call that the identity-failure cache suppresses. -/
def suppressedDial (peer : PeerId) : DialResult :=
  .error (.protocolError ("identity exchange with " ++ peer.toHex ++
    " suppressed (recent failure)"))

/-- What the transport answers to the owner of a dial. -/
inductive DialAnswer where
  /-- `dial_addresses` opened no channel. -/
  | noChannel
  /-- `wait_for_peer_identity` on the channel. -/
  | authenticated (peer : PeerId)
  | identityError (err : String)
  deriving DecidableEq, Repr

/-- The outcome of `run_owned_dial`. -/
def runOwnedDial (peer : PeerId) (candidatesCount : ℕ) : DialAnswer → PendingDialOutcome
  | .noChannel => .dialFailed candidatesCount
  | .authenticated authenticated =>
    if authenticated = peer then .connected else .identityMismatch authenticated
  | .identityError err => .identityFailed err

/-! ## Calls -/

abbrev CallId := ℕ

/-- Where a call of `ensure_peer_channel` stands. -/
inductive DialPhase where
  /-- At `is_peer_connected`. -/
  | checking
  /-- At the entry of `pending_peer_dials`. -/
  | claiming
  /-- At `rx.recv()`, subscribed to the dial of `owner`. -/
  | joined (owner : CallId)
  /-- In `run_owned_dial`. -/
  | dialing
  /-- Removing a peer that is not at its address from the routing table. -/
  | evicting (outcome : PendingDialOutcome)
  /-- Before `pending_peer_dials.remove`. -/
  | clearing (outcome : PendingDialOutcome)
  /-- The entry is removed and the outcome not sent. -/
  | sending (outcome : PendingDialOutcome)
  /-- Cancelled as the owner of a dial: the guard has removed the entry, and the sender
  is still there. -/
  | dropping
  | returned (result : DialResult)
  | cancelled
  deriving DecidableEq

structure DialCall where
  peer : PeerId
  candidatesCount : ℕ
  phase : DialPhase
  /-- The owner of the dial the call joined. -/
  joinedDial : Option CallId
  /-- The outcome of the dial the call owned. -/
  outcome : Option PendingDialOutcome
  deriving DecidableEq

/-- A broadcast channel: what was sent on it, and whether all senders are gone. -/
structure DialChannel where
  message : Option PendingDialOutcome
  closed : Bool
  deriving DecidableEq

/-- Senders and channels are named by the call that created them. -/
structure DialState where
  pendingPeerDials : PeerId → Option CallId
  channels : CallId → Option DialChannel
  calls : CallId → Option DialCall

namespace DialState

def idle : DialState :=
  { pendingPeerDials := fun _ => none
    channels := fun _ => none
    calls := fun _ => none }

def setCall (state : DialState) (id : CallId) (call : DialCall) : DialState :=
  { state with calls := Function.update state.calls id (some call) }

def setEntry (state : DialState) (peer : PeerId) (entry : Option CallId) : DialState :=
  { state with pendingPeerDials := Function.update state.pendingPeerDials peer entry }

def setChannel (state : DialState) (id : CallId) (channel : DialChannel) : DialState :=
  { state with channels := Function.update state.channels id (some channel) }

end DialState

/-- One operation of a call. -/
inductive DialAction where
  | check (connected : Bool)
  /-- The entry operation, with the answer of the identity-failure cache. -/
  | claim (isFailed : Bool)
  | dial (answer : DialAnswer)
  | evict
  | clear
  | send
  | receive
  | cancel
  | dropSender
  deriving DecidableEq

inductive DialStep where
  | call (id : CallId) (peer : PeerId) (candidatesCount : ℕ)
  | act (id : CallId) (action : DialAction)
  deriving DecidableEq

open DialState

/-- `ensure_peer_channel`, from one operation to the next. -/
def ensurePeerChannel (state : DialState) (id : CallId) (call : DialCall) :
    DialPhase → DialAction → Option DialState
  | .checking, .check connected =>
    some (state.setCall id
      { call with phase := if connected then .returned (.ok ()) else .claiming })
  | .claiming, .claim isFailed =>
    match state.pendingPeerDials call.peer with
    | some owner =>
      some (state.setCall id
        { call with phase := .joined owner, joinedDial := some owner })
    | none =>
      if isFailed then
        some (state.setCall id { call with phase := .returned (suppressedDial call.peer) })
      else
        some (((state.setEntry call.peer (some id)).setChannel id
          { message := none, closed := false }).setCall id { call with phase := .dialing })
  | .joined owner, .receive =>
    match state.channels owner with
    | none => none
    | some channel =>
      match channel.message with
      | some outcome =>
        some (state.setCall id
          { call with phase := .returned (outcome.intoResult call.peer) })
      | none =>
        if channel.closed then
          some (state.setCall id { call with phase := .returned (droppedDial call.peer) })
        else none
  | .dialing, .dial answer =>
    let outcome := runOwnedDial call.peer call.candidatesCount answer
    some (state.setCall id
      { call with
        outcome := some outcome
        phase :=
          match outcome with
          | .identityMismatch _ => .evicting outcome
          | _ => .clearing outcome })
  | .evicting outcome, .evict =>
    some (state.setCall id { call with phase := .clearing outcome })
  | .clearing outcome, .clear =>
    some ((state.setEntry call.peer none).setCall id
      { call with phase := .sending outcome })
  | .sending outcome, .send =>
    some ((state.setChannel id { message := some outcome, closed := true }).setCall id
      { call with phase := .returned (outcome.intoResult call.peer) })
  | .checking, .cancel => some (state.setCall id { call with phase := .cancelled })
  | .joined _, .cancel => some (state.setCall id { call with phase := .cancelled })
  | .dialing, .cancel =>
    some ((state.setEntry call.peer none).setCall id { call with phase := .dropping })
  | .evicting _, .cancel =>
    some ((state.setEntry call.peer none).setCall id { call with phase := .dropping })
  | .dropping, .dropSender =>
    some ((state.setChannel id { message := none, closed := true }).setCall id
      { call with phase := .cancelled })
  | _, _ => none

def dialStep (state : DialState) : DialStep → Option DialState
  | .call id peer candidatesCount =>
    match state.calls id with
    | some _ => none
    | none =>
      some (state.setCall id
        { peer := peer
          candidatesCount := candidatesCount
          phase := .checking
          joinedDial := none
          outcome := none })
  | .act id action =>
    match state.calls id with
    | none => none
    | some call => ensurePeerChannel state id call call.phase action

end SaorsaCore.Manager
