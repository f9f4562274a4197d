import SaorsaCore.Core.Transition
import SaorsaCore.Manager.AddressStore
import SaorsaCore.Routing.Invariant

/-!
# Requests and responses of the DHT manager

A request is registered under a fresh message id together with the sending half of a
oneshot channel; the receiving half waits in the function that sent the request.  Every
inbound message is handled by a task of its own.  The handler of a response claims the
sending half under the lock of the active operations, normalizes the answer, which may
write addresses to the routing table, and only then sends it.
-/

namespace SaorsaCore.Manager

open Routing Transition

inductive DhtMessageType where
  | request
  | response
  | broadcast
  | error
  deriving DecidableEq, Repr

/-- `DHT_V1_TOPIC` and `DHT_V2_TOPIC` -/
inductive DhtTopic where
  | v1
  | v2
  deriving DecidableEq, Repr

inductive DhtNetworkOperation where
  | findNode (key : PeerId)
  | ping
  | join
  | leave
  | publishAddressSet (seq : ℕ) (addresses : List (MultiAddr × AddressType))
  | publishAddressSetV2 (record : SignedAddressRecord)
  deriving DecidableEq, Repr

inductive DhtNetworkResult (Score : Type) where
  | nodesFound (key : PeerId) (nodes : List (DHTNode Score))
  | pongReceived (responder : PeerId) (latency : ℕ)
  | joinSuccess (assignedKey : PeerId) (bootstrapPeers : ℕ)
  | leaveSuccess
  | peerRejected
  | publishAddressAck
  | error (operation error : String)
  deriving DecidableEq, Repr

/-- The records in a result. -/
def DhtNetworkResult.nodes {Score : Type} : DhtNetworkResult Score → List (DHTNode Score)
  | .nodesFound _ nodes => nodes
  | _ => []

/-- The fields of a decoded message that its handler reads; `signedRecords` are those
of the lookup trailer. -/
structure DhtNetworkMessage (Score : Type) where
  messageId : String
  messageType : DhtMessageType
  payload : DhtNetworkOperation
  result : Option (DhtNetworkResult Score)
  signedRecords : List SignedAddressRecord
  deriving DecidableEq, Repr

/-- The messages accepted on the topic of signed publications. -/
def DhtNetworkMessage.allowedOn {Score : Type} (message : DhtNetworkMessage Score) : DhtTopic → Bool
  | .v1 => true
  | .v2 =>
    match message.messageType, message.payload, message.result with
    | .request, .publishAddressSetV2 _, none => true
    | .response, .publishAddressSetV2 _, some .peerRejected => true
    | .response, .ping, some .publishAddressAck => true
    | _, _, _ => false

variable {Score : Type} [LinearOrder Score] (config : ManagerConfig Score)

/-! ## Requests of other peers -/

/-- `handle_dht_request`; `sender` is the authenticated peer, not the one the message
names. -/
def handleDhtRequest (operation : DhtNetworkOperation) (sender : PeerId)
    (transportSource : Option MultiAddr) :
    StoreTask (Except RecordError (DhtNetworkResult Score)) :=
  match operation with
  | .findNode key => do
    let nodes ← findClosestNodesLocal config key config.engine.kValue
    return .ok (.nodesFound key (nodes.filter fun node => node.peerId ≠ sender))
  | .publishAddressSetV2 record =>
    match record.verify config.wire config.signatures with
    | .error cause => return .error cause
    | .ok proof => do
      if proof.owner ≠ sender then
        return .error (.invalid "publication sender is not the record owner")
      let known ← Task.read fun store => (store.table.findNodeById sender).isSome
      if !known then
        return .ok .peerRejected
      let _ ← applySignedAddressSet config proof transportSource true
      return .ok .publishAddressAck
  | .ping => return .ok (.pongReceived config.peerId 0)
  | .join => return .ok (.joinSuccess sender 1)
  | .leave => return .ok .leaveSuccess
  | .publishAddressSet seq addresses => do
    let filtered ← filterLanAddressesForStore addresses transportSource
    replaceAddresses config sender filtered seq .authenticatedSelfPublish
    return .ok .publishAddressAck

/-! ## Correlation of responses -/

/-- `DhtOperationContext`; the sending half of the channel is named by the number of
the request that holds the receiving half. -/
structure DhtOperationContext where
  operation : DhtNetworkOperation
  peerId : PeerId
  startedAt : ℕ
  timeout : ℕ
  contactedNodes : List PeerId
  responseTx : Option ℕ
  deriving DecidableEq, Repr

def sweepExpiredOperations (operations : String → Option DhtOperationContext) (now : ℕ) :
    String → Option DhtOperationContext :=
  fun messageId => (operations messageId).filter fun context =>
    ¬context.timeout * 2 < now - context.startedAt

/-- Why a message is not delivered. -/
inductive Refusal where
  | invalidTopic
  | noResult
  | unauthenticated
  | unsolicited
  | wrongSender
  | wrongOperationOrKey
  | duplicate
  | cancelled
  | closedDuringProcessing
  deriving DecidableEq, Repr

/-- A lookup answer has to be for the operation and the key that were asked. -/
def DhtNetworkOperation.accepts (operation : DhtNetworkOperation) : DhtNetworkResult Score → Bool
  | .nodesFound key _ => operation = .findNode key
  | _ => true

/-- The section of `handle_dht_response` under the lock of the active operations: the
operations left, and the request whose sender was taken or the reason to ignore the
message. -/
def claimResponse (operations : String → Option DhtOperationContext)
    (isClosed : ℕ → Bool) (messageId : String) (sender : PeerId)
    (result : DhtNetworkResult Score) :
    (String → Option DhtOperationContext) × Except Refusal ℕ :=
  match operations messageId with
  | none => (operations, .error .unsolicited)
  | some context =>
    if ¬(context.peerId = sender ∨ sender ∈ context.contactedNodes) then
      (operations, .error .wrongSender)
    else if !context.operation.accepts result then
      (operations, .error .wrongOperationOrKey)
    else
      match context.responseTx with
      | none => (operations, .error .duplicate)
      | some request =>
        let taken := Function.update operations messageId (some { context with responseTx := none })
        if isClosed request then (taken, .error .cancelled) else (taken, .ok request)

/-! ## The state of the manager -/

/-- How far the handler of a message is. -/
inductive HandlerPhase (Score : Type) where
  /-- Before the topic is checked. -/
  | arrived (topic : DhtTopic)
  /-- `update_peer_info` has found the identity of the sender. -/
  | updating (appPeer : PeerId)
  | dispatching
  /-- In `handle_dht_request`. -/
  | serving (task : StoreTask (Except RecordError (DhtNetworkResult Score)))
  /-- In `handle_dht_response`, with a result and the identity of the sender. -/
  | claiming (appPeer : PeerId) (result : DhtNetworkResult Score)
  /-- In `normalize_lookup_answer`, holding the sending half of a request. -/
  | normalizing (appPeer : PeerId) (request : ℕ) (key : PeerId)
      (task : StoreTask (List (DHTNode Score)))
  | answering (appPeer : PeerId) (request : ℕ) (result : DhtNetworkResult Score)
  | delivered (request : ℕ)
  | refused (reason : Refusal)
  /-- A request was answered, or nothing is done about the message. -/
  | finished
  /-- Dropped when its time was up. -/
  | abandoned

structure Handler (Score : Type) where
  message : DhtNetworkMessage Score
  sender : PeerId
  transportSource : Option MultiAddr
  phase : HandlerPhase Score

/-- The request whose sending half the handler holds. -/
def HandlerPhase.holds : HandlerPhase Score → Option ℕ
  | .normalizing _ request _ _ => some request
  | .answering _ request _ => some request
  | _ => none

/-- A response as it arrives at the waiting request, with the authenticated identity
it came from. -/
structure Delivery (Score : Type) where
  appPeer : PeerId
  message : DhtNetworkMessage Score
  result : DhtNetworkResult Score
  deriving DecidableEq, Repr

/-- The waiting side of a request: whether the receiver is still there, and what has
been sent to it. -/
structure PendingRequest (Score : Type) where
  messageId : String
  peerId : PeerId
  operation : DhtNetworkOperation
  isOpen : Bool
  inbox : List (Delivery Score)
  deriving DecidableEq, Repr

/-- A use of peer records outside the message handlers. -/
inductive Job (Score : Type) where
  /-- `find_closest_nodes_local` -/
  | closestLocal (key : PeerId) (count : ℕ)
  /-- `routing_table_peers` -/
  | tablePeers (score : PeerId → Score)
  /-- `decode_closer_peers`, with a payload from the authenticated `responder`. -/
  | closerPeers (responder : PeerId) (nodes : List (DHTNode Score))
      (signedRecords : List SignedAddressRecord) (transportSource : Option MultiAddr)
  /-- `gossiped_node_with_trusted_addresses` -/
  | trusted (node : DHTNode Score) (transportSource : Option MultiAddr)
  /-- `merge_trusted_gossiped_typed_addresses_from_source` -/
  | mergeTrusted (node : DHTNode Score) (source : Option MultiAddr)
  /-- `merge_gossiped_typed_addresses` -/
  | mergeGossiped (node : DHTNode Score)
  /-- `compute_winner` -/
  | winner (subject : PeerId) (reports : SubjectReports Score)
  /-- `apply_lookup_report_winners` -/
  | lookupResults (bestNodes : List (DHTNode Score))
      (reports : List (PeerId × SubjectReports Score)) (key : PeerId) (count : ℕ)
  /-- `sort_dedup_witnessed_nodes` -/
  | dedup (nodes : List (DHTNode Score)) (key : PeerId) (count : ℕ)
  /-- `self_inclusive_responder_view` -/
  | responderView (responder : PeerId) (closest knownNodes : List (DHTNode Score))
      (key : PeerId) (count : ℕ)

/-- The manager with everything in progress.  `held` collects the records that lookups
and callers keep in memory. -/
structure ManagerState (Score : Type) where
  store : AddressStore
  authenticated : PeerId → Bool
  operations : String → Option DhtOperationContext
  requests : ℕ → Option (PendingRequest Score)
  requestCount : ℕ
  handlers : ℕ → Option (Handler Score)
  handlerCount : ℕ
  jobs : ℕ → Option (StoreTask (List (DHTNode Score)))
  jobCount : ℕ
  held : List (DHTNode Score)

/-- A manager with an empty routing table. -/
def ManagerState.initial (context : DialAddressContext) (now : ℕ) : ManagerState Score :=
  { store :=
      { table := RoutingTable.new config.peerId config.engine.kValue now
        context := context
        now := now
        statements := [] }
    authenticated := fun _ => false
    operations := fun _ => none
    requests := fun _ => none
    requestCount := 0
    handlers := fun _ => none
    handlerCount := 0
    jobs := fun _ => none
    jobCount := 0
    held := [] }

/-! ## What owners say -/

/-- The self-reports in a lookup answer: nodes under the responder's own id that claim
a sequence. -/
def selfReports (responder : PeerId) (nodes : List (DHTNode Score)) : List OwnerStatement :=
  (nodes.filter fun node =>
    node.peerId = responder ∧ node.advertisedPublishSeq ≠ 0).map fun node =>
      { owner := responder
        seq := node.advertisedPublishSeq
        offered := recordPairs config.wire (selfReportRecords config node) }

/-- The statements in a request. -/
def publications (sender : PeerId) : DhtNetworkOperation → List OwnerStatement
  | .publishAddressSet seq addresses =>
    [{ owner := sender, seq := seq, offered := addresses }]
  | _ => []

/-! ## Steps -/

namespace ManagerState

variable (state : ManagerState Score)

def setPhase (number : ℕ) (handler : Handler Score) (phase : HandlerPhase Score) :
    ManagerState Score :=
  { state with
    handlers := Function.update state.handlers number (some { handler with phase := phase }) }

/-- The receiver of a request is gone. -/
def isClosed (request : ℕ) : Bool :=
  (state.requests request).all fun pending => !pending.isOpen

def addStatements (statements : List OwnerStatement) : ManagerState Score :=
  { state with
    store := { state.store with statements := statements ++ state.store.statements } }

def canonicalAppPeerId (peer : PeerId) : Option PeerId :=
  if state.authenticated peer then some peer else none

/-- `tx.send`; the nodes of an answer are then in the hands of the lookup. -/
def sendResponse (number : ℕ) (handler : Handler Score) (appPeer : PeerId)
    (request : ℕ) (result : DhtNetworkResult Score) : ManagerState Score :=
  match state.requests request with
  | none => state.setPhase number handler (.refused .closedDuringProcessing)
  | some pending =>
    if pending.isOpen then
      { state with
        requests := Function.update state.requests request (some { pending with
            inbox := { appPeer := appPeer
                       message := handler.message
                       result := result } :: pending.inbox })
        held := result.nodes ++ state.held }.setPhase number handler
        (.delivered request)
    else state.setPhase number handler (.refused .closedDuringProcessing)

/-- What a handler does once the peer information is updated. -/
def dispatch (number : ℕ) (handler : Handler Score) : ManagerState Score :=
  match handler.message.messageType with
  | .request =>
    (state.addStatements (publications handler.sender handler.message.payload)).setPhase
      number handler (.serving (handleDhtRequest config handler.message.payload
        handler.sender handler.transportSource))
  | .response =>
    match handler.message.result with
    | none => state.setPhase number handler (.refused .noResult)
    | some result =>
      match state.canonicalAppPeerId handler.sender with
      | some appPeer => state.setPhase number handler (.claiming appPeer result)
      | none => state.setPhase number handler (.refused .unauthenticated)
  | .broadcast => state.setPhase number handler .finished
  | .error => state.setPhase number handler .finished

/-- The handler tries to take the sending half of the request its message names. -/
def claim (number : ℕ) (handler : Handler Score) (appPeer : PeerId)
    (result : DhtNetworkResult Score) : ManagerState Score :=
  let claimed := claimResponse state.operations state.isClosed handler.message.messageId
    appPeer result
  let state := { state with operations := claimed.1 }
  match claimed.2 with
  | .error reason => state.setPhase number handler (.refused reason)
  | .ok request =>
    match result with
    | .nodesFound key nodes =>
      (state.addStatements (selfReports config appPeer nodes)).setPhase number handler
        (.normalizing appPeer request key (normalizeLookupAnswer config nodes
          handler.message.signedRecords appPeer handler.transportSource))
    | result => state.setPhase number handler (.answering appPeer request result)

/-- One action of the handler of a message. -/
def handle (number : ℕ) (handler : Handler Score) : Option (ManagerState Score) :=
  match handler.phase with
  | .arrived topic =>
    some <| if !handler.message.allowedOn topic then
        state.setPhase number handler (.refused .invalidTopic)
      else
        match state.canonicalAppPeerId handler.sender with
        | some appPeer => state.setPhase number handler (.updating appPeer)
        | none => state.setPhase number handler .dispatching
  | .updating appPeer =>
    some <|
      { state with
        store := { state.store with
          table := (touchNodeTyped state.store.table appPeer none .unverified
            state.store.now).1 } }.setPhase number handler .dispatching
  | .dispatching => some (state.dispatch config number handler)
  | .serving task =>
    match task with
    | .done _ => some (state.setPhase number handler .finished)
    | .act update next =>
      some ({ state with store := update state.store }.setPhase number handler
        (.serving (next state.store)))
  | .claiming appPeer result => some (state.claim config number handler appPeer result)
  | .normalizing appPeer request key task =>
    match task with
    | .done nodes =>
      some (state.setPhase number handler (.answering appPeer request (.nodesFound key nodes)))
    | .act update next =>
      some ({ state with store := update state.store }.setPhase number handler
        (.normalizing appPeer request key (next state.store)))
  | .answering appPeer request result =>
    some (state.sendResponse number handler appPeer request result)
  | .delivered _ | .refused _ | .finished | .abandoned => none

end ManagerState

namespace Job

/-- The records a job takes from memory. -/
def inputs : Job Score → List (DHTNode Score)
  | .closestLocal _ _ | .tablePeers _ | .closerPeers _ _ _ _ | .mergeGossiped _ => []
  | .trusted node _ | .mergeTrusted node _ => [node]
  | .winner _ reports => reports.map Prod.snd
  | .lookupResults bestNodes reports _ _ =>
    bestNodes ++ reports.flatMap fun entry => entry.2.map Prod.snd
  | .dedup nodes _ _ => nodes
  | .responderView _ closest knownNodes _ _ => closest ++ knownNodes

def statements : Job Score → List OwnerStatement
  | .closerPeers responder nodes _ _ => selfReports config responder nodes
  | _ => []

def task : Job Score → StoreTask (List (DHTNode Score))
  | .closestLocal key count => findClosestNodesLocal config key count
  | .tablePeers score => routingTablePeers config score
  | .closerPeers responder nodes signedRecords transportSource =>
    normalizeLookupAnswer config nodes signedRecords responder transportSource
  | .trusted node transportSource => do
    return [← gossipedNodeWithTrustedAddresses node transportSource]
  | .mergeTrusted node source => do
    mergeTrustedGossipedTypedAddresses config node source
    return []
  | .mergeGossiped node => do
    mergeGossipedTypedAddresses config node
    return []
  | .winner subject reports =>
    return ((computeWinner config.display subject reports).map Prod.snd).toList
  | .lookupResults bestNodes reports key count =>
    return applyLookupReportWinners config.display bestNodes
      (fun peer => (reports.find? fun entry => entry.1 = peer).map Prod.snd) key count
  | .dedup nodes key count => return sortDedupWitnessedNodes nodes key count
  | .responderView responder closest knownNodes key count =>
    return selfInclusiveResponderView responder closest knownNodes key count

end Job

/-- One step of the manager or of what surrounds it. -/
inductive ManagerStep (Score : Type) where
  | tick (now : ℕ)
  | readdress (context : DialAddressContext)
  | authenticate (authenticated : PeerId → Bool)
  /-- A call on the routing table that delivers no publication. -/
  | routing (op : RoutingOp Score)
  /-- `send_dht_request_inner` up to the registration of the request. -/
  | sendRequest (peer : PeerId) (operation : DhtNetworkOperation) (messageId : String)
  /-- The receiver of a request goes away: cancelled, timed out or answered. -/
  | dropReceiver (request : ℕ)
  /-- `DhtOperationGuard::drop` -/
  | dropGuard (request : ℕ)
  | receive (topic : DhtTopic) (message : DhtNetworkMessage Score) (sender : PeerId)
      (transportSource : Option MultiAddr)
  | handle (number : ℕ)
  /-- The time limit of a handler is up. -/
  | abandon (number : ℕ)
  | start (job : Job Score)
  | run (number : ℕ)
  /-- A caller brings a record of its own. -/
  | hold (node : DHTNode Score)

/-- Publications reach the table only through the functions above. -/
def isPublication : RoutingOp Score → Bool
  | .replace _ _ _ _ _ | .storeTransport _ _ _ _ _ => true
  | _ => false

/-- A handler that has come to its end. -/
def HandlerPhase.isOver : HandlerPhase Score → Bool
  | .delivered _ | .refused _ | .finished | .abandoned => true
  | _ => false

/-- The records a caller can build: it may verify a signed record, but only the manager
establishes that an owner spoke over its own connection. -/
def isExternal (node : DHTNode Score) : Bool :=
  match node.addressAuthority with
  | none => true
  | some (.authenticatedOwner _) => false
  | some (.signed proof) =>
    match proof.signed.verify config.wire config.signatures with
    | .ok verified => verified = proof
    | .error _ => false

/-- The context and the waiting side of a new request. -/
def ManagerState.register (state : ManagerState Score) (peer : PeerId)
    (operation : DhtNetworkOperation) (messageId : String) : ManagerState Score :=
  { state with
    operations := Function.update
      (sweepExpiredOperations state.operations state.store.now) messageId
      (some { operation := operation
              peerId := peer
              startedAt := state.store.now
              timeout := config.requestTimeout
              contactedNodes := [peer]
              responseTx := some state.requestCount })
    requests := Function.update state.requests state.requestCount
      (some { messageId := messageId
              peerId := peer
              operation := operation
              isOpen := true
              inbox := [] })
    requestCount := state.requestCount + 1 }

def managerStep (state : ManagerState Score) : ManagerStep Score → Option (ManagerState Score)
  | .tick now => some { state with store := { state.store with now := now } }
  | .readdress context => some { state with store := { state.store with context := context } }
  | .authenticate authenticated => some { state with authenticated := authenticated }
  | .routing op =>
    if isPublication op then none
    else
      some { state with
        store := { state.store with
          table := op.apply config.wire.toAddressCodec config.engine state.store.table } }
  | .sendRequest peer operation messageId =>
    some (state.register config peer operation messageId)
  | .dropReceiver request =>
    (state.requests request).map fun pending =>
      { state with
        requests := Function.update state.requests request (some { pending with isOpen := false }) }
  | .dropGuard request =>
    (state.requests request).map fun pending =>
      { state with
        operations := Function.update state.operations pending.messageId none }
  | .receive topic message sender transportSource =>
    some { state with
      handlers := Function.update state.handlers state.handlerCount
        (some { message := message
                sender := sender
                transportSource := transportSource
                phase := .arrived topic })
      handlerCount := state.handlerCount + 1 }
  | .handle number => (state.handlers number).bind (state.handle config number)
  | .abandon number =>
    (state.handlers number).bind fun handler =>
      if handler.phase.isOver then none
      else some (state.setPhase number handler .abandoned)
  | .start job =>
    if ∀ node ∈ job.inputs, node ∈ state.held then
      some { state.addStatements (job.statements config) with
        jobs := Function.update state.jobs state.jobCount (some (job.task config))
        jobCount := state.jobCount + 1 }
    else none
  | .run number =>
    match state.jobs number with
    | none => none
    | some (.done nodes) =>
      some { state with
        jobs := Function.update state.jobs number none
        held := nodes ++ state.held }
    | some (.act update next) =>
      some { state with
        store := update state.store
        jobs := Function.update state.jobs number (some (next state.store)) }
  | .hold node =>
    if isExternal config node then some { state with held := node :: state.held }
    else none

/-- A request is not cancelled while the handler of one of its messages holds its
sending half. -/
def patient (state : ManagerState Score) : ManagerStep Score → Prop
  | .dropReceiver request => ∀ number < state.handlerCount,
      (state.handlers number).bind (fun handler => handler.phase.holds) ≠ some request
  | _ => True

instance (state : ManagerState Score) (step : ManagerStep Score) : Decidable (patient state step) :=
  match step with
  | .dropReceiver request => inferInstanceAs (Decidable (∀ number < state.handlerCount,
      (state.handlers number).bind (fun handler => handler.phase.holds) ≠ some request))
  | .tick _ | .readdress _ | .authenticate _ | .routing _ | .sendRequest _ _ _
  | .dropGuard _ | .receive _ _ _ _ | .handle _ | .abandon _ | .start _ | .run _
  | .hold _ => .isTrue trivial

end SaorsaCore.Manager
