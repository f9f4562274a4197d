import SaorsaCore.Routing.Invariant

/-!
# Address views and the operations that keep them

The view of a peer is everything the table stores about its addresses: the
addresses and tags of its record, and its publication entry.  Once the owner has
published, nothing but a further publication changes the view while the peer
stays in the table: touches, relay hints, gossip merges and re-admissions only
refresh the time of contact.
-/

namespace SaorsaCore.Routing

open KeyedList RoutingTable RoutingOp KBucket

/-- A publication of one peer as it is delivered to the table. -/
inductive Publication where
  | v1 (seq : ℕ) (typed : List (MultiAddr × AddressType))
  | v2 (set : TransportAddressSet) (native : List (MultiAddr × AddressType))
  deriving DecidableEq, Repr

namespace Publication

def seq : Publication → ℕ
  | v1 seq _ => seq
  | v2 set _ => set.seq

/-- The native address list of a publication. -/
def native : Publication → List (MultiAddr × AddressType)
  | v1 _ typed => typed
  | v2 _ native => native

/-- Protocol first, then sequence. -/
def version : Publication → ℕ ×ₗ ℕ
  | v1 seq _ => toLex (1, seq)
  | v2 set _ => toLex (2, set.seq)

/-- The address list is empty or keeps at least one storable address. -/
def isAcceptable (publication : Publication) : Bool :=
  publication.native.isEmpty
    || publication.native.any fun pair => pair.1.isStorable

theorem isAcceptable_eq (publication : Publication) : publication.isAcceptable =
      acceptsPublication publication.native := by
  rw [isAcceptable, acceptsPublication, publishedTyped]
  congr 1
  rw [Bool.eq_iff_iff]
  simp

/-- The entry the table keeps for an applied publication. -/
def entry (codec : AddressCodec) : Publication → AddressPublication
  | v1 seq _ => { seq := seq, transport := none }
  | v2 set native =>
    { seq := set.seq
      transport := some (RoutingTable.storedSet codec native set) }

end Publication

/-- Everything the table stores about the addresses of a peer. -/
structure AddressView where
  addresses : List MultiAddr
  addressTypes : List AddressType
  seq : ℕ
  transport : Option TransportAddressSet
  deriving DecidableEq, Repr

def RoutingTable.addressView (table : RoutingTable) (peer : PeerId) : Option AddressView :=
  (table.findNodeById peer).map fun node =>
    { addresses := node.addresses
      addressTypes := node.addressTypes
      seq := table.publishSeqFor peer
      transport := table.transportAddressSet peer }

/-- The view that is exactly one publication. -/
def Publication.view (codec : AddressCodec) (publication : Publication) : AddressView :=
  { addresses := (KBucket.publishedAddresses publication.native).1
    addressTypes := (KBucket.publishedAddresses publication.native).2
    seq := publication.seq
    transport := (publication.entry codec).transport }

/-- The publication of `peer` that an operation delivers, if any. -/
def RoutingOp.delivery {Score : Type*} (peer : PeerId) : RoutingOp Score → Option Publication
  | .replace target typed seq _ _ =>
    if target = peer then some (.v1 seq typed) else none
  | .storeTransport target set native _ _ =>
    if target = peer then some (.v2 set native) else none
  | _ => none

def deliveries {Score : Type*} (peer : PeerId) (ops : List (RoutingOp Score)) : List Publication :=
  ops.filterMap (RoutingOp.delivery peer)

/-! ## Operations that deliver nothing -/

namespace RoutingTable

/-- The publication entry of `peer` is kept, and with a publication stored so
are the addresses and tags. -/
structure KeepsView (before after : RoutingTable) (peer : PeerId) : Prop where
  entry : after.addressPublications peer = before.addressPublications peer
  record : before.hasAddressPublication peer = true →
    (after.findNodeById peer).map (fun node => (node.addresses, node.addressTypes)) =
      (before.findNodeById peer).map fun node => (node.addresses, node.addressTypes)

namespace KeepsView

variable {before middle after : RoutingTable} {peer : PeerId}

theorem refl (table : RoutingTable) (peer : PeerId) : KeepsView table table peer :=
  ⟨rfl, fun _ => rfl⟩

theorem hasAddressPublication_eq (hkeeps : KeepsView before after peer) :
    after.hasAddressPublication peer = before.hasAddressPublication peer := by
  simp only [hasAddressPublication, publishSeqFor, transportAddressSet, hkeeps.entry]

theorem trans (hfirst : KeepsView before middle peer)
    (hsecond : KeepsView middle after peer) : KeepsView before after peer where
  entry := hsecond.entry.trans hfirst.entry
  record hpublication := by
    have hmiddle := hfirst.hasAddressPublication_eq.trans hpublication
    exact (hsecond.record hmiddle).trans (hfirst.record hpublication)

/-- A rewritten record keeps the view of another peer, and that of its own peer
if the update leaves addresses and tags alone. -/
theorem of_rewrites {target : PeerId} {update : NodeInfo → NodeInfo}
    (hrewrites : Rewrites before after target update)
    (hentry : after.addressPublications peer = before.addressPublications peer)
    (hupdate : peer = target → before.hasAddressPublication target = true →
      ∀ node, (update node).addresses = node.addresses ∧
        (update node).addressTypes = node.addressTypes) :
    KeepsView before after peer where
  entry := hentry
  record hpublication := by
    rw [hrewrites.findNode peer]
    split
    · next hpeer =>
        subst hpeer
        cases before.findNodeById peer with
        | none => rfl
        | some node => simp [hupdate rfl hpublication node]
    · rfl

/-- The same for an operation that stores a publication of another peer. -/
theorem of_rewrites_of_update {target : PeerId}
    {update : NodeInfo → NodeInfo} {publication : Option AddressPublication}
    (hrewrites : Rewrites before after target update)
    (hupdate : after.addressPublications =
      Function.update before.addressPublications target publication)
    (hother : target ≠ peer) : KeepsView before after peer := by
  apply of_rewrites hrewrites
  · rw [hupdate, Function.update_of_ne hother.symm]
  · intro hpeer
    exact absurd hpeer.symm hother

end KeepsView

section Observations

variable (table : RoutingTable) (peer : PeerId)

theorem touchNode_keepsView (hnodup : table.NodupIds) (target : PeerId)
    (address : Option MultiAddr) (addressType : AddressType) (now : ℕ) :
    KeepsView table (table.touchNode target address addressType now).1 peer := by
  refine KeepsView.of_rewrites (touchNode_rewrites table target hnodup address addressType now)
    (congrFun (addressPublications_touchNode table target address addressType now) peer) ?_
  intro _ hpublication node
  simp [observedAddress, hpublication, touchedNode]

theorem tryTouchLastSeen_keepsView (target : PeerId)
    (address : Option MultiAddr) (addressType : AddressType) (now : ℕ) :
    KeepsView table (table.tryTouchLastSeen target address addressType now).1
      peer := by
  refine KeepsView.of_rewrites (tryTouchLastSeen_rewrites table target address addressType now)
    (congrFun (addressPublications_tryTouchLastSeen table target address addressType now) peer) ?_
  intro _ hpublication node
  simp [observedAddress, hpublication, seenNode, mergeIsNoop]

/-- A touch without an address never needs the slow path. -/
theorem touchNodeTyped_none (target : PeerId) (addressType : AddressType) (now : ℕ) :
    (touchNodeTyped table target none addressType now).1 =
      (table.tryTouchLastSeen target none addressType now).1 := by
  have hobserved : table.observedAddress target none = none := by
    simp [observedAddress]
  cases hindex : table.bucketIndex target with
  | none => simp [touchNodeTyped, tryTouchLastSeen, touchNode, hindex]
  | some index =>
    simp only [touchNodeTyped, tryTouchLastSeen, hindex, hobserved, touchLastSeenIfMergeNoop]
    cases (table.buckets index).findNode target <;> simp [mergeIsNoop]

theorem touchLegacyRelayHintIfUnsequenced_keepsView (hnodup : table.NodupIds)
    (target : PeerId) (address : MultiAddr) (now : ℕ) :
    KeepsView table (table.touchLegacyRelayHintIfUnsequenced target address now).1 peer := by
  rw [touchLegacyRelayHintIfUnsequenced]
  split
  · exact KeepsView.refl table peer
  · exact touchNode_keepsView table peer hnodup target (some address) .relay now

theorem mergeTypedAddressUpgradeOnly_keepsView (target : PeerId)
    (address : MultiAddr) (addressType : AddressType) :
    KeepsView table (table.mergeTypedAddressUpgradeOnly target address addressType).1 peer := by
  refine KeepsView.of_rewrites
    (mergeTypedAddressUpgradeOnly_rewrites table target address addressType)
    (congrFun (addressPublications_mergeTypedAddressUpgradeOnly table target
      address addressType) peer) ?_
  intro _ hpublication node
  simp [upgraded, hpublication]

end Observations

section Membership

variable {table after : RoutingTable} {peer : PeerId}

theorem removeNode_keepsView {target : PeerId} (hother : target ≠ peer) :
    KeepsView table (table.removeNode target) peer where
  entry := by
    rw [addressPublications_removeNode, Function.update_of_ne hother.symm]
  record _ := by rw [findNodeById_removeNode, if_neg hother.symm]

/-- An insertion leaves the records of all other peers alone. -/
theorem findNodeById_addNode_of_ne {node : NodeInfo} {now : ℕ}
    (hnodup : table.NodupIds) (hadd : table.addNode node now = .ok after)
    (hother : peer ≠ node.id) :
    after.findNodeById peer = table.findNodeById peer := by
  rcases addNode_eq_ok hadd with ⟨-, rfl⟩ | ⟨-, index, bucket, hindex, hbucket, rfl⟩
  · rw [(touchNode_rewrites table node.id hnodup none .unverified now).findNode, if_neg hother]
  · rw [findNodeById_setBucket]
    split
    · next hsame =>
        rw [findNodeById_eq hsame]
        rcases KBucket.addNode_eq_ok hbucket with ⟨-, rfl⟩ | ⟨-, -, rfl⟩
        · rw [KBucket.findNode, lookup_moveToTail (KBucket.id_mergedNode node) _
            (hnodup index), if_neg hother]
          rfl
        · simp [KBucket.findNode, lookup_append, lookup_cons, hother.symm]
    · rfl

theorem addNode_keepsView {node : NodeInfo} {now : ℕ}
    (hnodup : table.NodupIds) (hadd : table.addNode node now = .ok after) :
    KeepsView table after peer := by
  rcases addNode_eq_ok hadd with ⟨-, rfl⟩ | ⟨hnone, index, bucket, -, -, rfl⟩
  · exact touchNode_keepsView table peer hnodup node.id none .unverified now
  · refine ⟨rfl, fun hpublication => ?_⟩
    -- Only a peer without a publication gets new addresses by an insertion.
    have hother : peer ≠ node.id := by
      rintro rfl
      rw [hnone] at hpublication
      cases hpublication
    rw [findNodeById_addNode_of_ne hnodup hadd hother]

end Membership

section Publications

variable {table : RoutingTable} {target peer : PeerId}

theorem replaceNodeAddressesWithMode_keepsView (hnodup : table.NodupIds)
    (hother : target ≠ peer) (typed : List (MultiAddr × AddressType)) (seq : ℕ)
    (mode : AddressReplaceMode) (now : ℕ) :
    KeepsView table (table.replaceNodeAddressesWithMode target typed seq mode now).1
      peer := by
  by_cases haccepts : table.AcceptsV1 target typed seq
  · obtain ⟨hrewrites, hupdate⟩ :=
      replaceNodeAddressesWithMode_applied hnodup haccepts mode now
    exact KeepsView.of_rewrites_of_update hrewrites hupdate hother
  · rw [replaceNodeAddressesWithMode_refused haccepts]
    exact KeepsView.refl table peer

theorem storeTransportAddressSet_keepsView (codec : AddressCodec)
    (hnodup : table.NodupIds) (hother : target ≠ peer) (set : TransportAddressSet)
    (native : List (MultiAddr × AddressType)) (mode : AddressReplaceMode) (now : ℕ) :
    KeepsView table (table.storeTransportAddressSet codec target set native mode now).1
      peer := by
  by_cases haccepts : table.AcceptsV2 target native set
  · obtain ⟨hrewrites, hupdate⟩ :=
      storeTransportAddressSet_applied hnodup haccepts codec mode now
    exact KeepsView.of_rewrites_of_update hrewrites hupdate hother
  · rw [storeTransportAddressSet_refused haccepts]
    exact KeepsView.refl table peer

end Publications

end RoutingTable

section Histories

variable {Score : Type*} [LinearOrder Score] (codec : AddressCodec)
  (config : EngineConfig Score) {localId : PeerId} {k : ℕ}
  {table : RoutingTable} {peer : PeerId}

/-- While `peer` is in the table, what happened so far has kept its view. -/
private def KeptSoFar (localId : PeerId) (k : ℕ) (before : RoutingTable)
    (peer : PeerId) (table : RoutingTable) : Prop :=
  table.Valid localId k ∧ ((table.findNodeById peer).isSome → before.KeepsView table peer)

private theorem keptSoFar_touchNode (before : RoutingTable) (node : NodeInfo) :
    ∀ table (address : Option MultiAddr) addressType now,
      (∀ taken ∈ address, taken ∈ node.addresses) → KeptSoFar localId k before peer table →
        KeptSoFar localId k before peer (table.touchNode node.id address addressType now).1 := by
  rintro table address addressType now - ⟨hvalid, hkept⟩
  refine ⟨hvalid.touchNode node.id address addressType now, ?_⟩
  intro hpresent
  rw [(touchNode_rewrites table node.id hvalid.nodup address
    addressType now).isSome_findNode] at hpresent
  exact (hkept hpresent).trans (touchNode_keepsView table peer
    hvalid.nodup node.id address addressType now)

private theorem keptSoFar_removeNode (before : RoutingTable) :
    ∀ table target, KeptSoFar localId k before peer table →
      KeptSoFar localId k before peer (table.removeNode target) := by
  rintro table target ⟨hvalid, hkept⟩
  refine ⟨hvalid.removeNode target, ?_⟩
  intro hpresent
  rw [findNodeById_removeNode] at hpresent
  by_cases htarget : peer = target
  · simp [htarget] at hpresent
  · rw [if_neg htarget] at hpresent
    exact (hkept hpresent).trans (removeNode_keepsView (Ne.symm htarget))

private theorem keptSoFar_addNode (before : RoutingTable) (node : NodeInfo)
    (hother : peer ≠ node.id) :
    ∀ table now after, KeptSoFar localId k before peer table → table.addNode node now = .ok after →
        KeptSoFar localId k before peer after := by
  rintro table now after ⟨hvalid, hkept⟩ hadd
  refine ⟨hvalid.addNode hadd, ?_⟩
  intro hpresent
  rw [findNodeById_addNode_of_ne hvalid.nodup hadd hother] at hpresent
  exact (hkept hpresent).trans (addNode_keepsView hvalid.nodup hadd)

/-- An operation that delivers no publication of a peer keeps the view of that
peer, as long as the peer stays in the table. -/
theorem RoutingOp.apply_keepsView (op : RoutingOp Score)
    (hvalid : table.Valid localId k) (hdelivery : op.delivery peer = none)
    (hbefore : (table.findNodeById peer).isSome)
    (hafter : ((op.apply codec config table).findNodeById peer).isSome) :
    table.KeepsView (op.apply codec config table) peer := by
  have hstart : KeptSoFar localId k table peer table :=
    ⟨hvalid, fun _ => RoutingTable.KeepsView.refl table peer⟩
  have hother {id : PeerId} (habsent : table.findNodeById id = none) : peer ≠ id := by
    rintro rfl
    rw [habsent] at hbefore
    cases hbefore
  cases op with
  | admission order observation incoming =>
    exact (config.addNode_preserves (KeptSoFar localId k table peer)
      (keptSoFar_touchNode table _) (keptSoFar_removeNode table)
        (fun habsent => keptSoFar_addNode table incoming.retainStorableAddresses
          (hother habsent)) observation order incoming rfl hstart).2 hafter
  | reEvaluate observation candidate ips =>
    exact (config.reEvaluateAdmission_preserves (KeptSoFar localId k table peer)
      (keptSoFar_touchNode table _) (keptSoFar_removeNode table)
        (fun habsent => keptSoFar_addNode table _ (hother habsent)) observation ips
          hstart).2 hafter
  | insert node now =>
    simp only [apply]
    split
    · next after hadd => exact addNode_keepsView hvalid.nodup hadd
    · exact RoutingTable.KeepsView.refl table peer
  | remove target =>
    simp only [apply, EngineConfig.removeNodeById] at hafter ⊢
    split
    · exact RoutingTable.KeepsView.refl table peer
    · next hfound =>
        rw [if_neg hfound] at hafter
        exact (keptSoFar_removeNode table table target hstart).2 hafter
  | touch target address addressType now =>
    exact touchNode_keepsView table peer hvalid.nodup target address addressType now
  | touchFast target address addressType now =>
    exact tryTouchLastSeen_keepsView table peer target address addressType now
  | legacyRelayHint target address now =>
    exact touchLegacyRelayHintIfUnsequenced_keepsView table peer hvalid.nodup target address now
  | upgradeOnly target address addressType =>
    exact mergeTypedAddressUpgradeOnly_keepsView table peer target address addressType
  | replace target typed seq mode now =>
    have hother : target ≠ peer := by simpa [delivery] using hdelivery
    exact replaceNodeAddressesWithMode_keepsView hvalid.nodup hother typed seq mode now
  | storeTransport target set native mode now =>
    have hother : target ≠ peer := by simpa [delivery] using hdelivery
    exact storeTransportAddressSet_keepsView codec hvalid.nodup hother set native mode now

/-- An operation that delivers no publication of a peer stores none. -/
theorem RoutingOp.apply_unpublished (op : RoutingOp Score)
    (hvalid : table.Valid localId k) (hdelivery : op.delivery peer = none)
    (hnone : table.addressPublications peer = none) :
    (op.apply codec config table).addressPublications peer = none := by
  have htouch (node : NodeInfo) : ∀ (table : RoutingTable) (address : Option MultiAddr)
      addressType now, (∀ taken ∈ address, taken ∈ node.addresses) →
        table.addressPublications peer = none →
          (table.touchNode node.id address addressType now).1.addressPublications peer = none := by
    intro table address addressType now _ hnone
    rw [addressPublications_touchNode, hnone]
  have hremove : ∀ (table : RoutingTable) target, table.addressPublications peer = none →
      (table.removeNode target).addressPublications peer = none := by
    intro table target hnone
    rw [addressPublications_removeNode, Function.update_apply]
    split
    · rfl
    · exact hnone
  have hadd (node : NodeInfo) : ∀ (table : RoutingTable) now after,
      table.addressPublications peer = none → table.addNode node now = .ok after →
        after.addressPublications peer = none := by
    intro table now after hnone hadd
    rcases addNode_eq_ok hadd with ⟨-, rfl⟩ | ⟨-, index, bucket, -, -, rfl⟩
    · exact htouch node table none .unverified now (by simp) hnone
    · exact hnone
  cases op with
  | admission order observation incoming =>
    exact config.addNode_preserves (fun table => table.addressPublications peer = none)
      (htouch _) hremove (fun _ => hadd _) observation order incoming rfl hnone
  | reEvaluate observation candidate ips =>
    exact config.reEvaluateAdmission_preserves
      (fun table => table.addressPublications peer = none) (htouch _) hremove
        (fun _ => hadd _) observation ips hnone
  | insert node now =>
    simp only [apply]
    split
    · next after hafter => exact hadd node table now after hnone hafter
    · exact hnone
  | remove target =>
    simp only [apply, EngineConfig.removeNodeById]
    split
    · exact hnone
    · exact hremove table target hnone
  | touch target address addressType now =>
    simpa [apply] using hnone
  | touchFast target address addressType now =>
    simpa [apply] using hnone
  | legacyRelayHint target address now =>
    rw [apply, touchLegacyRelayHintIfUnsequenced]
    split
    · exact hnone
    · simpa using hnone
  | upgradeOnly target address addressType =>
    simpa [apply] using hnone
  | replace target typed seq mode now =>
    have hother : target ≠ peer := by simpa [delivery] using hdelivery
    exact (replaceNodeAddressesWithMode_keepsView hvalid.nodup hother typed
      seq mode now).entry.trans hnone
  | storeTransport target set native mode now =>
    have hother : target ≠ peer := by simpa [delivery] using hdelivery
    exact (storeTransportAddressSet_keepsView codec hvalid.nodup hother set
      native mode now).entry.trans hnone

/-- A publication that is stored after an operation that delivered none was stored
before it, with the same view. -/
theorem RoutingOp.apply_keepsView_of_published (op : RoutingOp Score)
    (hvalid : table.Valid localId k) (hdelivery : op.delivery peer = none)
    {entry : AddressPublication}
    (hentry : (op.apply codec config table).addressPublications peer = some entry) :
    table.KeepsView (op.apply codec config table) peer := by
  have hafter := (op.apply_valid codec config hvalid).published peer entry hentry
  cases hstored : table.addressPublications peer with
  | none =>
    rw [op.apply_unpublished codec config hvalid hdelivery hstored] at hentry
    cases hentry
  | some stored =>
    have hbefore := hvalid.published peer stored hstored
    exact op.apply_keepsView codec config hvalid hdelivery hbefore hafter

end Histories

end SaorsaCore.Routing
