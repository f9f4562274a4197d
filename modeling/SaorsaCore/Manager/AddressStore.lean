import SaorsaCore.Core.Task
import SaorsaCore.Manager.AddressPolicy
import SaorsaCore.Manager.ClientRouting
import SaorsaCore.Routing.Engine

/-!
# The address store of the DHT manager

The functions of `dht_network_manager.rs` that read and write the addresses of peers.
Each is a task over the routing table: what it does under one hold of the DHT lock is
one action, and other tasks run in between.  The local addresses that the policy
compares with and the clock change on their own.
-/

namespace SaorsaCore.Manager

open Routing

/-- An address set that its owner sent over its own authenticated connection. -/
structure OwnerStatement where
  owner : PeerId
  seq : ℕ
  offered : List (MultiAddr × AddressType)
  deriving DecidableEq, Repr

/-- The shared state of the tasks.  `statements` only records what owners have sent;
no task reads it. -/
structure AddressStore where
  table : RoutingTable
  context : DialAddressContext
  now : ℕ
  statements : List OwnerStatement

/-- The settings and the library functions that the manager uses. -/
structure ManagerConfig (Score : Type) where
  peerId : PeerId
  engine : EngineConfig Score
  wire : AddressWire
  signatures : AddressSignatures
  display : MultiAddr → String
  selfReliability : Score
  requestTimeout : ℕ

variable {Score : Type} [LinearOrder Score] (config : ManagerConfig Score)

abbrev StoreTask := Task AddressStore

/-! ## Owner views -/

/-- `get_node_addresses_typed` -/
def nodeAddressesTyped (table : RoutingTable) (peer : PeerId) : List (MultiAddr × AddressType) :=
  match table.findNodeById peer with
  | none => []
  | some node => node.addresses.mapIdx fun index address =>
    (address, node.addressTypeAt index)

/-- The authority of what the table stores for a peer. -/
def storedAuthority (table : RoutingTable) (peer : PeerId) : Option AddressAuthority :=
  (((table.transportAddressSet peer).bind TransportAddressSet.proof).map
    AddressAuthority.signed).or (if table.publishSeqFor peer ≠ 0 then
        some (.authenticatedOwner (table.publishSeqFor peer))
      else none)

/-- The hint, or what the owner has published if anything is stored. -/
def ownerView (table : RoutingTable) (hint : DHTNode Score) : DHTNode Score :=
  if table.publishSeqFor hint.peerId = 0 ∧ table.transportAddressSet hint.peerId = none then hint
  else
    { hint.withTyped (nodeAddressesTyped table hint.peerId) with
      addressAuthority := storedAuthority table hint.peerId
      distance := encodePublishSeqDistance
        (((storedAuthority table hint.peerId).map AddressAuthority.sequence).getD 0) }

def protectOwnerView (hint : DHTNode Score) : StoreTask (DHTNode Score) :=
  Task.read fun store => ownerView store.table hint

/-! ## Publications -/

def filterLanAddressesForStore (typed : List (MultiAddr × AddressType))
    (transportSource : Option MultiAddr) : StoreTask (List (MultiAddr × AddressType)) :=
  Task.read fun store => store.context.filterLanAddressesForStore typed transportSource

/-- `validate_transport_address_records` in the present context. -/
def validateRecords (owner : PeerId) (records : List TransportAddressRecord)
    (transportSource : Option MultiAddr) :
    StoreTask (Option (List TransportAddressRecord × List (MultiAddr × AddressType))) :=
  Task.read fun store =>
    validateTransportAddressRecords config.wire config.engine.allowLoopback store.context
      owner records transportSource

/-- `replace_node_addresses` under the write lock. -/
def replaceAddresses (peer : PeerId) (typed : List (MultiAddr × AddressType)) (seq : ℕ)
    (mode : AddressReplaceMode) : StoreTask Unit :=
  Task.modify fun store =>
    ({ store with
        table := (config.engine.replaceNodeAddresses store.table peer typed seq mode
          store.now).1 }, ())

/-- `store_transport_address_set` under the write lock. -/
def storeTransportAddressSet (owner : PeerId) (set : TransportAddressSet)
    (native : List (MultiAddr × AddressType)) (authoritative : Bool) : StoreTask Bool :=
  Task.modify fun store =>
    let stored := store.table.storeTransportAddressSet config.wire.toAddressCodec owner
      set native (if authoritative then .authenticatedSelfPublish else .gossipedRecord)
      store.now
    ({ store with table := stored.1 }, stored.2)

/-- The records that a self-report is read as. -/
def selfReportRecords (node : DHTNode Score) : List TransportAddressRecord :=
  (node.typedAddresses.filter fun pair => pair.1.isQuic).filterMap fun pair =>
    (TransportAddressRecord.fromMultiaddr config.wire.encode pair.1 pair.2).join

def applyNativeSelfReport (node : DHTNode Score) (sequence : ℕ)
    (transportSource : Option MultiAddr) :
    StoreTask (Option (List (MultiAddr × AddressType))) := do
  let signed ← Task.read fun store =>
    (store.table.transportAddressSet node.peerId).isSome
  if signed then
    return none
  match ← validateRecords config node.peerId (selfReportRecords config node) transportSource with
  | none => return none
  | some (_, native) =>
    replaceAddresses config node.peerId native sequence .authenticatedSelfPublish
    return some native

def applySignedAddressSet (proof : VerifiedAddressRecord)
    (transportSource : Option MultiAddr) (authoritative : Bool) : StoreTask Bool := do
  match ← validateRecords config proof.owner proof.records transportSource with
  | none => return false
  | some (records, native) =>
    storeTransportAddressSet config proof.owner
      { seq := proof.sequence, records := records, proof := some proof } native
      authoritative

/-! ## Answers to lookups -/

/-- One pass of `normalize_signed_lookup_nodes`. -/
def normalizeSignedLookupNode (transportSource : Option MultiAddr)
    (verified : VerifiedAddressRecord × Score) : StoreTask (Option (DHTNode Score)) := do
  match ← validateRecords config verified.1.owner verified.1.records transportSource with
  | none => return none
  | some (_, native) =>
    let _ ← applySignedAddressSet config verified.1 transportSource false
    let view ← protectOwnerView
      { peerId := verified.1.owner
        addresses := native.map Prod.fst
        addressTypes := native.map Prod.snd
        distance := none
        reliability := verified.2
        addressAuthority := some (.signed verified.1) }
    return some view

def normalizeSignedLookupNodes (nodes : List (VerifiedAddressRecord × Score))
    (transportSource : Option MultiAddr) : StoreTask (List (DHTNode Score)) :=
  Task.collect (normalizeSignedLookupNode config transportSource) nodes

/-- The records that verify, with the reliability claimed for their owners; a record
about a peer the answer does not mention is dropped. -/
def verifiedRecords (nodes : List (DHTNode Score)) (signedRecords : List SignedAddressRecord) :
    List (VerifiedAddressRecord × Score) :=
  signedRecords.filterMap fun record =>
    match record.verify config.wire config.signatures with
    | .error _ => none
    | .ok proof =>
      (nodes.reverse.find? fun node => node.peerId = proof.owner).map fun node =>
        (proof, node.reliability)

/-- A node of an answer, with the claims about its authority replaced by what the
responder may say about itself. -/
def normalizeReportedNode (node : DHTNode Score) (responder : PeerId)
    (transportSource : Option MultiAddr) : StoreTask (DHTNode Score) := do
  let hint := { node with addressAuthority := none, distance := none }
  if node.peerId = responder ∧ node.advertisedPublishSeq ≠ 0 then
    match ← applyNativeSelfReport config hint node.advertisedPublishSeq transportSource with
    | some typed =>
      return { hint.withTyped typed with
        addressAuthority := some (.authenticatedOwner node.advertisedPublishSeq) }
    | none => return hint.withTyped []
  else
    return hint

/-- The loop over the nodes of an answer; `signed` holds the signed views that no node
has taken yet. -/
def normalizeReportedNodes (responder : PeerId) (transportSource : Option MultiAddr) :
    List (DHTNode Score) → List (DHTNode Score) → StoreTask (List (DHTNode Score))
  | _, [] => return []
  | signed, node :: nodes => do
    let reported ← normalizeReportedNode config node responder transportSource
    let merged :=
      match signed.find? fun view => view.peerId = node.peerId with
      | some view => reported.mergeFrom view
      | none => reported
    let view ← protectOwnerView merged
    let rest ← normalizeReportedNodes responder transportSource
      (signed.eraseP fun view => view.peerId = node.peerId) nodes
    return view :: rest

def normalizeLookupAnswer (nodes : List (DHTNode Score))
    (signedRecords : List SignedAddressRecord) (responder : PeerId)
    (transportSource : Option MultiAddr) : StoreTask (List (DHTNode Score)) := do
  let signed ← normalizeSignedLookupNodes config
    (verifiedRecords config nodes signedRecords) transportSource
  normalizeReportedNodes config responder transportSource (mergeWitnessedNodes [] signed)
    nodes

/-! ## Gossip -/

def gossipedNodeWithTrustedAddresses (node : DHTNode Score)
    (transportSource : Option MultiAddr) : StoreTask (DHTNode Score) := do
  let typed ← filterLanAddressesForStore node.typedAddresses transportSource
  return node.withTyped typed

/-- The table after the unsigned part of a gossip merge: a replacement by an
established view, or promotions while the owner has published nothing. -/
def mergeUnsigned (store : AddressStore) (node : DHTNode Score) : RoutingTable :=
  let typed := node.typedAddresses.filter fun pair => pair.1.isQuic
  let publishSeq := (node.addressAuthority.map AddressAuthority.quicSequence).getD 0
  if publishSeq ≠ 0 then
    (config.engine.replaceNodeAddresses store.table node.peerId typed publishSeq
      .gossipedRecord store.now).1
  else if store.table.publishSeqFor node.peerId ≠ 0
      ∨ (store.table.transportAddressSet node.peerId).isSome then store.table
  else
    typed.foldl (fun table pair =>
      (table.mergeTypedAddressUpgradeOnly node.peerId pair.1 pair.2).1) store.table

/-- `merge_trusted_gossiped_typed_addresses_from_source` -/
def mergeTrustedGossipedTypedAddresses (node : DHTNode Score)
    (source : Option MultiAddr) : StoreTask Unit :=
  match node.publication with
  | some proof => do
    let _ ← applySignedAddressSet config proof source false
  | none => Task.modify fun store =>
    ({ store with table := mergeUnsigned config store node }, ())

def mergeGossipedTypedAddresses (node : DHTNode Score) : StoreTask Unit := do
  let trusted ← gossipedNodeWithTrustedAddresses
    { node with addressAuthority := none, distance := none } none
  mergeTrustedGossipedTypedAddresses config trusted none

/-! ## Local lookups -/

/-- The record of a table entry, read together with the sequence stored for it. -/
def routingNode (table : RoutingTable) (node : NodeInfo) : DHTNode Score :=
  { peerId := node.id
    addresses := node.addresses
    addressTypes := node.addressTypes
    distance := encodePublishSeqDistance (table.publishSeqFor node.id)
    reliability := config.selfReliability
    addressAuthority :=
      if table.publishSeqFor node.id ≠ 0 then
        some (.authenticatedOwner (table.publishSeqFor node.id))
      else none }

/-- `protect_owner_view` for each node in turn. -/
def protectOwnerViews (nodes : List (DHTNode Score)) : StoreTask (List (DHTNode Score)) :=
  Task.collect (fun node => do return some (← protectOwnerView node)) nodes

def findClosestNodesLocal (key : PeerId) (count : ℕ) : StoreTask (List (DHTNode Score)) := do
  let nodes ← Task.read fun store =>
    ((store.table.findClosestNodes key count).filter fun node =>
      node.id ≠ config.peerId).map (routingNode config store.table)
  protectOwnerViews nodes

/-- `routing_table_peers`, with the scores of the trust engine. -/
def routingTablePeers (score : PeerId → Score) : StoreTask (List (DHTNode Score)) := do
  let nodes ← Task.read fun store =>
    store.table.allNodes.map fun node =>
      { routingNode config store.table node with reliability := score node.id }
  protectOwnerViews nodes

end SaorsaCore.Manager
