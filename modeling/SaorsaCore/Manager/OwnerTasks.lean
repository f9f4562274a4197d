import SaorsaCore.Manager.Provenance

/-!
# Tasks that respect owners

A record in memory is proven if what its authority claims has been established: the
owner sent the addresses under that sequence, or the signature was verified.  Records
from the wire lose their claims, merging never mixes a claim with other addresses, and
every task that writes to the table writes what a proven record or the owner itself
vouches for.
-/

namespace SaorsaCore.Manager

open Routing RoutingTable List Publication SaorsaCore.Task

/-! ## Proven records -/

section Records

variable {Score : Type} (config : ManagerConfig Score)

/-- What the authority of a record claims has been established. -/
def Proven (statements : List OwnerStatement) (node : DHTNode Score) : Prop :=
  match node.addressAuthority with
  | none => True
  | some (.authenticatedOwner seq) =>
    seq ≠ 0 ∧ Warranted config statements node.peerId seq node.typedAddresses
  | some (.signed proof) => Verified config proof

variable {config} {statements more : List OwnerStatement} {node other : DHTNode Score}

theorem proven_of_none (hnone : node.addressAuthority = none) : Proven config statements node := by
  rw [Proven, hnone]
  trivial

theorem Proven.mono (hproven : Proven config statements node) (hmore : statements ⊆ more) :
    Proven config more node := by
  rw [Proven] at hproven ⊢
  split
  · trivial
  · next seq hauthority =>
      rw [hauthority] at hproven
      exact ⟨hproven.1, hproven.2.mono hmore⟩
  · next proof hauthority =>
      rw [hauthority] at hproven
      exact hproven

/-- A proven record without a sequence claims nothing. -/
theorem Proven.authority_eq_none (hproven : Proven config statements node)
    (hseq : node.publishSeq = 0) : node.addressAuthority = none := by
  rw [Proven] at hproven
  rw [DHTNode.publishSeq] at hseq
  cases hauthority : node.addressAuthority with
  | none => rfl
  | some authority =>
    rw [hauthority] at hproven hseq
    cases authority with
    | authenticatedOwner seq => exact absurd hseq hproven.1
    | signed proof =>
      obtain ⟨record, hverify⟩ := hproven
      exact absurd hseq (SignedAddressRecord.verify_eq_ok hverify).2

theorem Proven.mergeFrom [LT Score] [DecidableLT Score]
    (hnode : Proven config statements node) (hother : Proven config statements other) :
    Proven config statements (node.mergeFrom other) := by
  rcases node.mergeFrom_eq_or other with heq | heq | ⟨hseq, heq⟩
  · rw [heq]
    exact hnode
  · rw [heq]
    exact hother
  · rw [heq]
    exact proven_of_none (hnode.authority_eq_none hseq)

/-- Dropping addresses keeps a record proven. -/
theorem Proven.withTyped (hproven : Proven config statements node)
    {typed : List (MultiAddr × AddressType)} (hdrawn : Drawn node.typedAddresses typed) :
    Proven config statements (node.withTyped typed) := by
  have hfewer := node.typedAddresses_withTyped_drawn hdrawn
  have hauthority : (node.withTyped typed).addressAuthority = node.addressAuthority := rfl
  rw [Proven, hauthority]
  rw [Proven] at hproven
  split
  · trivial
  · next seq hsome =>
      rw [hsome] at hproven
      exact ⟨hproven.1, hproven.2.draw hfewer⟩
  · next proof hsome =>
      rw [hsome] at hproven
      exact hproven

/-! ## Records read from the table -/

variable {table : RoutingTable}

theorem proven_ownerView (hattested : Attested config statements table)
    {hint : DHTNode Score} (hhint : Proven config statements hint) :
    Proven config statements (ownerView table hint) := by
  rw [ownerView]
  split
  · exact hhint
  · next hstored =>
      have hpublished : table.hasAddressPublication hint.peerId = true := by
        rw [not_and_or] at hstored
        simpa [hasAddressPublication, Option.isSome_iff_ne_none] using hstored
      obtain ⟨publication, hrepresents, hvouched⟩ :=
        hattested.exists_publication hpublished
      have hdrawn := hint.typedAddresses_withTyped_drawn (nodeAddressesTyped_drawn hrepresents)
      rw [Proven]
      cases publication with
      | v1 seq typed =>
        have hauthority : storedAuthority table hint.peerId = some (.authenticatedOwner seq) := by
          have hseq : seq ≠ 0 := hrepresents.nonzero
          simp [storedAuthority, transportAddressSet, publishSeqFor, hrepresents.entry, entry, hseq]
        simp only [hauthority]
        exact ⟨hrepresents.nonzero, hvouched.warranted.draw hdrawn⟩
      | v2 set native =>
        obtain ⟨proof, hproof, hverified, -⟩ := hvouched
        have hauthority : storedAuthority table hint.peerId = some (.signed proof) := by
          simp [storedAuthority, transportAddressSet, hrepresents.entry, entry, storedSet, hproof]
        simp only [hauthority]
        exact hverified

theorem proven_routingNode (hattested : Attested config statements table)
    {entry : NodeInfo} (hentry : entry ∈ table.allNodes) (score : Score) :
    Proven config statements
      { routingNode config table entry with reliability := score } := by
  rw [Proven]
  simp only [routingNode]
  by_cases hseq : table.publishSeqFor entry.id = 0
  · simp [hseq]
  · have hpublished : table.hasAddressPublication entry.id = true := by
      simp [hasAddressPublication, hseq]
    obtain ⟨publication, hrepresents, hvouched⟩ := hattested.exists_publication hpublished
    have hstored : table.publishSeqFor entry.id = publication.seq := by
      simp [publishSeqFor, hrepresents.entry, seq_entry]
    have hdrawn := nodeAddressesTyped_drawn hrepresents
    rw [nodeAddressesTyped, hattested.valid.findNodeById_of_mem hentry] at hdrawn
    simp only at hdrawn
    rw [mapIdx_addressTypeAt] at hdrawn
    rw [if_pos hseq]
    exact ⟨hseq, hstored ▸ hvouched.warranted.draw hdrawn⟩

end Records

/-! ## Writing to the table -/

section Tasks

variable {Score : Type} [LinearOrder Score] {config : ManagerConfig Score}
  {store : AddressStore}

variable {typed : List (MultiAddr × AddressType)}

omit [LinearOrder Score] in
theorem filterPublishAddressSet_drawn (engine : EngineConfig Score)
    {filtered : List (MultiAddr × AddressType)}
    (hfiltered : engine.filterPublishAddressSet typed = some filtered) :
    Drawn typed filtered := by
  rw [EngineConfig.filterPublishAddressSet, Option.ite_none_left_eq_some] at hfiltered
  rw [← Option.some.inj hfiltered.2]
  exact Drawn.of_canonical (filter_sublist.map _).subset

variable {statements : List OwnerStatement}

theorem change_replaceNodeAddresses {table : RoutingTable}
    (hattested : Attested config statements table) {peer : PeerId} {seq : ℕ}
    (hwarranted : Warranted config statements peer seq typed) (mode : AddressReplaceMode)
    (now : ℕ) :
    TableChange config statements table
      (config.engine.replaceNodeAddresses table peer typed seq mode now).1 := by
  rw [EngineConfig.replaceNodeAddresses]
  split
  · exact .keeps hattested.valid fun other => .refl table other
  · next filtered hfiltered =>
      exact .published peer filtered seq mode now
        (hwarranted.draw (filterPublishAddressSet_drawn config.engine hfiltered))

theorem sound_read {Value : Type} {observe : AddressStore → Value} :
    (read observe).Sound (ownerDiscipline config) (fun _ _ => True) store := by
  apply Sound.read
  · intro found hattested
    exact guarantee_refl hattested
  · intro found later _ _ _ _
    trivial

theorem sound_replaceAddresses {peer : PeerId} {seq : ℕ} {mode : AddressReplaceMode}
    (hwarranted : Warranted config store.statements peer seq typed) :
    (replaceAddresses config peer typed seq mode).Sound (ownerDiscipline config)
      (fun _ _ => True) store := by
  apply Sound.modify
  · intro found hrely hattested
    exact ⟨rfl, change_replaceNodeAddresses hattested (hwarranted.mono hrely) mode found.now⟩
  · intro found later _ _ _ _
    trivial

theorem sound_storeTransportAddressSet {owner : PeerId} {set : TransportAddressSet}
    {native : List (MultiAddr × AddressType)} {authoritative : Bool}
    (hvouched : Vouched config store.statements owner (.v2 set native)) :
    (storeTransportAddressSet config owner set native authoritative).Sound
      (ownerDiscipline config) (fun _ _ => True) store := by
  apply Sound.modify
  · intro found hrely _
    exact ⟨rfl, .signed owner set native _ found.now (hvouched.mono hrely)⟩
  · intro found later _ _ _ _
    trivial

variable {transportSource : Option MultiAddr}

theorem sound_validateRecords {owner : PeerId} {records : List TransportAddressRecord} :
    (validateRecords config owner records transportSource).Sound (ownerDiscipline config)
      (fun _ answer => ∀ kept native, answer = some (kept, native) →
        Drawn (recordPairs config.wire records) native) store := by
  apply Sound.read
  · intro found hattested
    exact guarantee_refl hattested
  · intro found later _ _ _ _ kept native hvalid
    exact validateTransportAddressRecords_drawn hvalid

theorem sound_filterLanAddressesForStore :
    (filterLanAddressesForStore typed transportSource).Sound (ownerDiscipline config)
      (fun _ filtered => Drawn typed filtered) store := by
  apply Sound.read
  · intro found hattested
    exact guarantee_refl hattested
  · intro found later _ _ _ _
    exact found.context.filterLanAddressesForStore_drawn typed transportSource

variable {node : DHTNode Score}

/-- A self-report is stored under the sequence the owner gave it. -/
theorem sound_applyNativeSelfReport {sequence : ℕ} {statement : OwnerStatement}
    (hstated : statement ∈ store.statements) (howner : statement.owner = node.peerId)
    (hseq : statement.seq = sequence)
    (hoffered : statement.offered = recordPairs config.wire (selfReportRecords config node)) :
    (applyNativeSelfReport config node sequence transportSource).Sound (ownerDiscipline config)
      (fun _ answer => ∀ native, answer = some native → Drawn statement.offered native)
      store := by
  rw [applyNativeSelfReport]
  apply Sound.bind sound_read
  intro found signed hrely _ _
  cases signed with
  | true =>
    intro later _ _ native hnative
    cases hnative
  | false =>
    apply Sound.bind sound_validateRecords
    intro checked answer hchecked _ hdrawn
    cases answer with
    | none =>
      intro later _ _ native hnative
      cases hnative
    | some validated =>
      obtain ⟨kept, native⟩ := validated
      have hnative : Drawn statement.offered native := hoffered ▸ hdrawn kept native rfl
      have hwarranted : Warranted config checked.statements node.peerId sequence native :=
        .stated statement (hchecked (hrely hstated)) howner hseq hnative
      apply Sound.bind (sound_replaceAddresses hwarranted)
      intro _ _ _ _ _ later _ _ other hother
      rw [← Option.some.inj hother]
      exact hnative

/-- A verified set is stored with its proof. -/
theorem sound_applySignedAddressSet {proof : VerifiedAddressRecord} {authoritative : Bool}
    (hverified : Verified config proof) :
    (applySignedAddressSet config proof transportSource authoritative).Sound
      (ownerDiscipline config) (fun _ _ => True) store := by
  rw [applySignedAddressSet]
  apply Sound.bind sound_validateRecords
  intro found answer _ _ hdrawn
  cases answer with
  | none => exact fun _ _ _ => trivial
  | some validated =>
    obtain ⟨kept, native⟩ := validated
    exact sound_storeTransportAddressSet ⟨proof, rfl, hverified, rfl, rfl, hdrawn kept native rfl⟩

theorem sound_protectOwnerView {hint : DHTNode Score}
    (hhint : Proven config store.statements hint) :
    (protectOwnerView hint).Sound (ownerDiscipline config)
      (fun store node => Proven config store.statements node) store := by
  apply Sound.read
  · intro found hattested
    exact guarantee_refl hattested
  · intro found later hrely hattested hlater _
    exact (proven_ownerView hattested (hhint.mono hrely)).mono hlater

/-! ## Answers to lookups -/

variable {nodes : List (DHTNode Score)} {signedRecords : List SignedAddressRecord}

omit [LinearOrder Score] in
theorem verified_of_mem_verifiedRecords {entry : VerifiedAddressRecord × Score}
    (hentry : entry ∈ verifiedRecords config nodes signedRecords) :
    Verified config entry.1 := by
  obtain ⟨record, -, hrecord⟩ := mem_filterMap.mp hentry
  split at hrecord
  · cases hrecord
  · next proof hverify =>
      obtain ⟨node, -, rfl⟩ := Option.map_eq_some_iff.mp hrecord
      exact ⟨record, hverify⟩

theorem sound_normalizeSignedLookupNode {verified : VerifiedAddressRecord × Score}
    (hverified : Verified config verified.1) :
    (normalizeSignedLookupNode config transportSource verified).Sound (ownerDiscipline config)
      (fun store answer => ∀ node ∈ answer, Proven config store.statements node) store := by
  rw [normalizeSignedLookupNode]
  apply Sound.bind sound_validateRecords
  intro found answer _ _ _
  cases answer with
  | none =>
    intro later _ _ node hnode
    cases hnode
  | some validated =>
    obtain ⟨kept, native⟩ := validated
    apply Sound.bind (sound_applySignedAddressSet hverified)
    intro stored _ _ _ _
    refine Sound.bind (sound_protectOwnerView ?_) ?_
    · exact hverified
    · intro shown view _ _ hview later hlater _ node hnode
      rw [← Option.some.inj hnode]
      exact hview.mono hlater

/-- The records a task returns are proven. -/
abbrev YieldsProven (config : ManagerConfig Score) (task : StoreTask (List (DHTNode Score)))
    (store : AddressStore) : Prop :=
  task.Sound (ownerDiscipline config)
    (fun store views => ∀ view ∈ views, Proven config store.statements view) store

theorem sound_normalizeSignedLookupNodes {nodes : List (VerifiedAddressRecord × Score)}
    (hverified : ∀ entry ∈ nodes, Verified config entry.1) :
    YieldsProven config (normalizeSignedLookupNodes config nodes transportSource) store := by
  apply Sound.of_settled
  intro settled _ hattested
  apply Sound.collect
  · intro state later node hrely hproven
    exact hproven.mono hrely
  · intro entry hentry found _ _
    exact sound_normalizeSignedLookupNode (hverified entry hentry)
  · exact hattested

/-- The statement that the self-report in an answer makes. -/
def selfReport (config : ManagerConfig Score) (node : DHTNode Score) : OwnerStatement :=
  { owner := node.peerId
    seq := node.advertisedPublishSeq
    offered := recordPairs config.wire (selfReportRecords config node) }

variable {responder : PeerId}

omit [LinearOrder Score] in
theorem selfReport_mem_selfReports (hnode : node ∈ nodes) (hpeer : node.peerId = responder)
    (hseq : node.advertisedPublishSeq ≠ 0) :
    selfReport config node ∈ selfReports config responder nodes := by
  apply mem_map.mpr
  refine ⟨node, mem_filter.mpr ⟨hnode, by simp [hpeer, hseq]⟩, ?_⟩
  rw [selfReport, hpeer]

theorem sound_normalizeReportedNode
    (hstated : node.peerId = responder → node.advertisedPublishSeq ≠ 0 →
      selfReport config node ∈ store.statements) :
    (normalizeReportedNode config node responder transportSource).Sound (ownerDiscipline config)
      (fun store reported => Proven config store.statements reported) store := by
  rw [normalizeReportedNode]
  split
  · next hself =>
      obtain ⟨hpeer, hseq⟩ := hself
      have hmem := hstated hpeer hseq
      apply Sound.bind (sound_applyNativeSelfReport hmem rfl rfl rfl)
      intro found answer hrely _ hdrawn
      cases answer with
      | none =>
        intro later _ _
        exact proven_of_none rfl
      | some typed =>
        intro later hlater _
        refine ⟨hseq, .stated (selfReport config node) (hlater (hrely hmem)) rfl rfl ?_⟩
        exact node.typedAddresses_withTyped_drawn (hdrawn typed rfl)
  · intro later _ _
    exact proven_of_none rfl

/-- A report is merged with what is proven about its peer, if anything is. -/
theorem Proven.mergeFrom_find {reported : DHTNode Score}
    {signed : List (DHTNode Score)} (hreported : Proven config statements reported)
    (peer : PeerId) (hsigned : ∀ view ∈ signed, Proven config statements view) :
    Proven config statements (match signed.find? fun view => view.peerId = peer with
        | some view => reported.mergeFrom view
        | none => reported) := by
  split
  · next view hview =>
      exact hreported.mergeFrom (hsigned view (mem_of_find?_eq_some hview))
  · exact hreported

theorem sound_normalizeReportedNodes {signed : List (DHTNode Score)}
    (hsigned : ∀ view ∈ signed, Proven config store.statements view)
    (hstated : ∀ node ∈ nodes, node.peerId = responder → node.advertisedPublishSeq ≠ 0 →
      selfReport config node ∈ store.statements) :
    YieldsProven config
      (normalizeReportedNodes config responder transportSource signed nodes) store := by
  induction nodes generalizing store signed with
  | nil =>
    intro later _ _ view hview
    cases hview
  | cons node nodes ih =>
    rw [normalizeReportedNodes]
    apply Sound.bind (sound_normalizeReportedNode (hstated node mem_cons_self))
    intro found reported hfound _ hreported
    have hmerged := hreported.mergeFrom_find node.peerId fun view hview =>
      (hsigned view hview).mono hfound
    apply Sound.bind (sound_protectOwnerView hmerged)
    intro shown view hshown _ hview
    have hrest : ∀ other ∈ signed.eraseP fun view => view.peerId = node.peerId,
        Proven config shown.statements other := by
      intro other hother
      exact ((hsigned other (mem_of_mem_eraseP hother)).mono hfound).mono hshown
    apply Sound.bind (ih hrest fun other hother hpeer hseq =>
      hshown (hfound (hstated other (mem_cons_of_mem node hother) hpeer hseq)))
    intro reached rest hreached _ hproven later hlater _ other hother
    rcases mem_cons.mp hother with rfl | hmem
    · exact (hview.mono hreached).mono hlater
    · exact (hproven other hmem).mono hlater

/-- Whatever an answer claims, the records read from it are proven. -/
theorem sound_normalizeLookupAnswer
    (hstated : selfReports config responder nodes ⊆ store.statements) :
    YieldsProven config
      (normalizeLookupAnswer config nodes signedRecords responder transportSource) store := by
  rw [normalizeLookupAnswer]
  apply Sound.bind (sound_normalizeSignedLookupNodes fun _ => verified_of_mem_verifiedRecords)
  intro found signed hfound _ hsigned
  apply sound_normalizeReportedNodes
  · apply good_mergeWitnessedNodes
    · intro node other hnode hother
      exact hnode.mergeFrom hother
    · intro entry hentry
      cases hentry
    · exact hsigned
  · intro node hnode hpeer hseq
    exact hfound (hstated (selfReport_mem_selfReports hnode hpeer hseq))

/-! ## Gossip -/

theorem sound_gossipedNodeWithTrustedAddresses (hproven : Proven config store.statements node) :
    (gossipedNodeWithTrustedAddresses node transportSource).Sound (ownerDiscipline config)
      (fun store trusted => Proven config store.statements trusted) store := by
  rw [gossipedNodeWithTrustedAddresses]
  apply Sound.bind sound_filterLanAddressesForStore
  intro found typed hfound _ hdrawn later hlater _
  exact ((hproven.mono hfound).mono hlater).withTyped hdrawn

omit [LinearOrder Score] in
/-- Promotions keep what is stored for every peer that has published. -/
theorem foldl_upgradeOnly_keeps {table : RoutingTable}
    (hvalid : table.Valid config.peerId config.engine.kValue) (peer : PeerId)
    (typed : List (MultiAddr × AddressType)) :
    (typed.foldl (fun table pair =>
        (table.mergeTypedAddressUpgradeOnly peer pair.1 pair.2).1) table).Valid
          config.peerId config.engine.kValue ∧
      ∀ other, table.KeepsView (typed.foldl (fun table pair =>
        (table.mergeTypedAddressUpgradeOnly peer pair.1 pair.2).1) table) other := by
  induction typed generalizing table with
  | nil => exact ⟨hvalid, fun other => .refl table other⟩
  | cons pair typed ih =>
    obtain ⟨hafter, hkeeps⟩ := ih (hvalid.mergeTypedAddressUpgradeOnly peer pair.1 pair.2)
    refine ⟨hafter, fun other => ?_⟩
    exact (mergeTypedAddressUpgradeOnly_keepsView table other peer pair.1
      pair.2).trans (hkeeps other)

theorem change_mergeUnsigned {found : AddressStore}
    (hattested : Attested config found.statements found.table)
    (hproven : Proven config found.statements node) (hunsigned : node.publication = none) :
    TableChange config found.statements found.table (mergeUnsigned config found node) := by
  rw [mergeUnsigned]
  split
  · next hseq =>
      -- An established sequence without a signature is that of the owner's connection.
      cases hauthority : node.addressAuthority with
      | none => simp [hauthority] at hseq
      | some authority =>
        cases authority with
        | signed proof =>
          simp [DHTNode.publication, hauthority, AddressAuthority.publication] at hunsigned
        | authenticatedOwner seq =>
          rw [Proven, hauthority] at hproven
          apply change_replaceNodeAddresses hattested
          exact hproven.2.draw (node.typedAddresses_drawn_self.subset filter_sublist.subset)
  · split
    · exact .keeps hattested.valid fun other => .refl found.table other
    · obtain ⟨hvalid, hkeeps⟩ := foldl_upgradeOnly_keeps hattested.valid node.peerId
        (node.typedAddresses.filter fun pair => pair.1.isQuic)
      exact .keeps hvalid hkeeps

theorem sound_mergeTrustedGossipedTypedAddresses {source : Option MultiAddr}
    (hproven : Proven config store.statements node) :
    (mergeTrustedGossipedTypedAddresses config node source).Sound (ownerDiscipline config)
      (fun _ _ => True) store := by
  rw [mergeTrustedGossipedTypedAddresses]
  split
  · next proof hproof =>
      have hverified : Verified config proof := by
        obtain ⟨authority, hauthority, hpublication⟩ := Option.bind_eq_some_iff.mp hproof
        rw [Proven, hauthority] at hproven
        cases authority with
        | authenticatedOwner seq => cases hpublication
        | signed record =>
          cases hpublication
          exact hproven
      apply Sound.bind (sound_applySignedAddressSet hverified)
      intro found _ _ _ _ later _ _
      trivial
  · next hunsigned =>
      apply Sound.modify
      · intro found hrely hattested
        exact ⟨rfl, change_mergeUnsigned hattested (hproven.mono hrely) hunsigned⟩
      · intro found later _ _ _ _
        trivial

theorem sound_mergeGossipedTypedAddresses :
    (mergeGossipedTypedAddresses config node).Sound (ownerDiscipline config)
      (fun _ _ => True) store := by
  rw [mergeGossipedTypedAddresses]
  apply Sound.bind (sound_gossipedNodeWithTrustedAddresses (proven_of_none rfl))
  intro found trusted _ _ htrusted
  exact sound_mergeTrustedGossipedTypedAddresses htrusted

/-! ## Local lookups -/

theorem sound_protectOwnerViews (hnodes : ∀ node ∈ nodes, Proven config store.statements node) :
    YieldsProven config (protectOwnerViews nodes) store := by
  apply Sound.of_settled
  intro settled hsettled hattested
  apply Sound.collect
  · intro state later node hrely hproven
    exact hproven.mono hrely
  · intro node hnode found hfound _
    apply Sound.bind (sound_protectOwnerView (((hnodes node hnode).mono hsettled).mono hfound))
    intro shown view _ _ hview later hlater _ other hother
    rw [← Option.some.inj hother]
    exact hview.mono hlater
  · exact hattested

theorem sound_readRecords {observe : AddressStore → List (DHTNode Score)}
    (hobserve : ∀ found : AddressStore, Attested config found.statements found.table →
      ∀ node ∈ observe found, Proven config found.statements node) :
    (read observe).Sound (ownerDiscipline config)
      (fun store nodes => ∀ node ∈ nodes, Proven config store.statements node) store := by
  apply Sound.read
  · intro found hattested
    exact guarantee_refl hattested
  · intro found later _ hattested hlater _ node hnode
    exact (hobserve found hattested node hnode).mono hlater

theorem sound_findClosestNodesLocal {key : PeerId} {count : ℕ} :
    YieldsProven config (findClosestNodesLocal config key count) store := by
  refine Sound.bind (sound_readRecords ?_) ?_
  · intro found hattested node hnode
    obtain ⟨entry, hentry, rfl⟩ := mem_map.mp hnode
    have hmem : entry ∈ found.table.allNodes :=
      (perm_insertionSort _ _).mem_iff.mp (mem_of_mem_take (mem_of_mem_filter hentry))
    exact proven_routingNode hattested hmem config.selfReliability
  · intro found nodes _ _ hproven
    exact sound_protectOwnerViews hproven

theorem sound_routingTablePeers {score : PeerId → Score} :
    YieldsProven config (routingTablePeers config score) store := by
  refine Sound.bind (sound_readRecords ?_) ?_
  · intro found hattested node hnode
    obtain ⟨entry, hentry, rfl⟩ := mem_map.mp hnode
    exact proven_routingNode hattested hentry (score entry.id)
  · intro found nodes _ _ hproven
    exact sound_protectOwnerViews hproven

/-! ## Requests and jobs -/

/-- Serving a request stores at most what its sender says about itself. -/
theorem sound_handleDhtRequest {operation : DhtNetworkOperation} {sender : PeerId}
    (hstated : publications sender operation ⊆ store.statements) :
    (handleDhtRequest config operation sender transportSource).Sound (ownerDiscipline config)
      (fun _ _ => True) store := by
  have hanswer : ∀ (answer : Except RecordError (DhtNetworkResult Score)) found,
      (done answer).Sound (ownerDiscipline config) (fun _ _ => True) found := by
    intro answer found later _ _
    trivial
  cases operation with
  | findNode key =>
    apply Sound.bind sound_findClosestNodesLocal
    intro found nodes _ _ _
    exact hanswer _ found
  | ping => exact hanswer _ store
  | join => exact hanswer _ store
  | leave => exact hanswer _ store
  | publishAddressSet seq addresses =>
    have hmem : (⟨sender, seq, addresses⟩ : OwnerStatement) ∈ store.statements :=
      hstated mem_cons_self
    apply Sound.bind sound_filterLanAddressesForStore
    intro found filtered hfound _ hdrawn
    apply Sound.bind (sound_replaceAddresses (.stated _ (hfound hmem) rfl rfl hdrawn))
    intro replaced _ _ _ _
    exact hanswer _ replaced
  | publishAddressSetV2 record =>
    rw [handleDhtRequest]
    split
    · exact hanswer _ store
    · next proof hverify =>
        split
        · exact hanswer _ store
        · apply Sound.bind sound_read
          intro found known _ _ _
          cases known with
          | false => exact hanswer _ found
          | true =>
            apply Sound.bind (sound_applySignedAddressSet ⟨record, hverify⟩)
            intro stored _ _ _ _
            exact hanswer _ stored

/-- A job that selects among proven records has proven results. -/
theorem sound_done_proven (hnodes : ∀ node ∈ nodes, Proven config store.statements node) :
    YieldsProven config (done nodes) store := by
  intro later hlater _ node hnode
  exact (hnodes node hnode).mono hlater

theorem sound_jobTask {job : Job Score}
    (hinputs : ∀ node ∈ job.inputs, Proven config store.statements node)
    (hstated : job.statements config ⊆ store.statements) :
    YieldsProven config (job.task config) store := by
  have hmerge : ∀ node other, Proven config store.statements node →
      Proven config store.statements other →
        Proven config store.statements (node.mergeFrom other) := by
    intro node other hnode hother
    exact hnode.mergeFrom hother
  have hnothing : ∀ found, YieldsProven config (done []) found := by
    intro found
    apply sound_done_proven
    simp
  cases job with
  | closestLocal key count => exact sound_findClosestNodesLocal
  | tablePeers score => exact sound_routingTablePeers
  | closerPeers responder nodes signedRecords transportSource =>
    exact sound_normalizeLookupAnswer hstated
  | trusted node transportSource =>
    apply Sound.bind (sound_gossipedNodeWithTrustedAddresses (hinputs node mem_cons_self))
    intro found trusted _ _ htrusted
    apply sound_done_proven
    simpa using htrusted
  | mergeTrusted node source =>
    apply Sound.bind (sound_mergeTrustedGossipedTypedAddresses (hinputs node mem_cons_self))
    intro found _ _ _ _
    exact hnothing found
  | mergeGossiped node =>
    apply Sound.bind sound_mergeGossipedTypedAddresses
    intro found _ _ _ _
    exact hnothing found
  | winner subject reports =>
    apply sound_done_proven
    intro node hnode
    obtain ⟨winner, hwinner, rfl⟩ :=
      Option.map_eq_some_iff.mp (Option.mem_toList.mp hnode)
    apply good_computeWinner hmerge _ hwinner
    intro report hreport
    exact hinputs report.2 (mem_map_of_mem hreport)
  | lookupResults bestNodes reports key count =>
    apply sound_done_proven
    apply good_applyLookupReportWinners hmerge
    · intro node hnode
      exact hinputs node (mem_append_left _ hnode)
    · intro peer subjectReports hsubject report hreport
      obtain ⟨entry, hentry, rfl⟩ := Option.map_eq_some_iff.mp hsubject
      apply hinputs
      apply mem_append_right
      exact mem_flatMap.mpr ⟨entry, mem_of_find?_eq_some hentry, mem_map_of_mem hreport⟩
  | dedup nodes key count =>
    apply sound_done_proven
    exact good_sortDedupWitnessedNodes hmerge hinputs
  | responderView responder closest knownNodes key count =>
    apply sound_done_proven
    apply good_selfInclusiveResponderView hmerge
    · intro node hnode
      exact hinputs node (mem_append_left _ hnode)
    · intro node hnode
      exact hinputs node (mem_append_right _ hnode)

end Tasks

end SaorsaCore.Manager
