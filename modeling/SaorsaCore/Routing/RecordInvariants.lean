import SaorsaCore.Routing.Records

/-!
# Invariants of the stored records

A property of address lists is kept by every operation of the engine if the three
writers establish it on their drafts: it may depend on what a first insertion, a
publication and a merge are given.
-/

namespace SaorsaCore.Routing

open List KBucket RoutingTable NodeInfo EngineConfig Option AddressType RoutingOp

/-- The record of a peer within the limits, with a property of its address list. -/
structure NodeInfo.Stored (Draft : List (MultiAddr × AddressType) → Prop)
    (node : NodeInfo) : Prop where
  parallel : node.Parallel
  length_le : node.typed.length ≤ maxAddressesPerNode
  exclusive : Exclusive node.typed
  draft : Draft node.typed

variable {node : NodeInfo}

theorem NodeInfo.Stored.seen {Draft : List (MultiAddr × AddressType) → Prop}
    (hstored : node.Stored Draft) (now : ℕ) :
    ({ node with lastSeen := now } : NodeInfo).Stored Draft :=
  ⟨hstored.parallel, hstored.length_le, hstored.exclusive, hstored.draft⟩

/-! ## What the writers are given -/

theorem NodeInfo.fst_mem_of_mem_storable {pair : MultiAddr × AddressType}
    (hpair : pair ∈ (node.addresses.zip node.paddedTypes).filter fun pair =>
      pair.1.isStorable) : pair.1 ∈ node.addresses ∧ pair.1.isStorable = true := by
  obtain ⟨hzip, hstorable⟩ := mem_filter.mp hpair
  exact ⟨(of_mem_zip hzip).1, hstorable⟩

variable {entry : MultiAddr × AddressType}

theorem KBucket.mem_storableTyped (hentry : entry ∈ storableTyped node) :
    entry.1 ∈ node.addresses ∧ entry.1.isStorable = true := by
  obtain ⟨pair, hpair, rfl⟩ := mem_map.mp hentry
  have hsource := fst_mem_of_mem_storable ((take_sublist _ _).subset hpair)
  exact hsource

variable {typed : List (MultiAddr × AddressType)}

theorem KBucket.mem_publishedTyped (hentry : entry ∈ publishedTyped typed) :
    entry.1 ∈ typed.map Prod.fst ∧ entry.1.isStorable = true := by
  obtain ⟨pair, hpair, rfl⟩ := mem_map.mp hentry
  obtain ⟨hmem, hstorable⟩ := mem_filter.mp hpair
  exact ⟨mem_map.mpr ⟨pair, hmem, rfl⟩, hstorable⟩

/-- The addresses of a record that may be stored are all mergeable. -/
def NodeInfo.Offers (mergeable : MultiAddr → Prop) (node : NodeInfo) : Prop :=
  ∀ address ∈ node.addresses, address.isStorable = true → mergeable address

theorem NodeInfo.Offers.retainStorableAddresses {mergeable : MultiAddr → Prop}
    (hoffers : node.Offers mergeable) : node.retainStorableAddresses.Offers mergeable := by
  intro address haddress
  obtain ⟨pair, hpair, rfl⟩ := mem_map.mp haddress
  exact hoffers pair.1 (fst_mem_of_mem_storable hpair).1

/-- An address that is merged into the record, not skipped, is mergeable. -/
def NodeInfo.Takes (mergeable : MultiAddr → Prop) (node : NodeInfo)
    (address : Option MultiAddr) : Prop :=
  ∀ taken ∈ address, taken.isStorable = true → node.skipsLoopback taken = false → mergeable taken

/-- What the writers of a record owe, if first insertions are given `insertable`
lists, publications `publishable` ones and merges `mergeable` addresses. -/
structure RecordRule (mergeable : MultiAddr → Prop)
    (Draft insertable publishable : List (MultiAddr × AddressType) → Prop) : Prop where
  sublist : ∀ {fewer typed}, Draft typed → fewer.Sublist typed → Draft fewer
  inserted : ∀ node, insertable (KBucket.storableTyped node) → Draft (KBucket.storableTyped node)
  published : ∀ typed, publishable (KBucket.publishedTyped typed) →
    Draft ((KBucket.publishedTyped typed).insertionSort fun left right =>
      left.2.priority ≤ right.2.priority)
  merged : ∀ {typed front back} address advertised, mergeable address →
    address.isStorable = true → Draft typed → Exclusive typed →
    front ++ back = typed.eraseP (fun entry => entry.1 == address) →
    (∀ entry ∈ front, entry.2.priority ≤
      (AddressType.forAdvertisedAddress address advertised).priority) →
    (Ranked (front ++ back) → ∀ entry ∈ back,
      (AddressType.forAdvertisedAddress address advertised).priority ≤ entry.2.priority) →
    Draft (front ++ (address, AddressType.forAdvertisedAddress address advertised) :: back)

namespace RecordRule

variable {mergeable : MultiAddr → Prop}
  {Draft insertable publishable : List (MultiAddr × AddressType) → Prop}
  (rule : RecordRule mergeable Draft insertable publishable)

include rule

/-! ## Records -/

theorem stored_of_cutFrom {draft : List (MultiAddr × AddressType)} {node : NodeInfo}
    (hcut : node.CutFrom draft) (hdraft : Draft draft) : node.Stored Draft :=
  ⟨hcut.parallel, hcut.length_le, hcut.exclusive, rule.sublist hdraft hcut.sublist⟩

variable {node : NodeInfo} (hstored : node.Stored Draft)

include hstored

variable {address : MultiAddr}

theorem mergeTypedAddress (hmergeable : address.isStorable = true → mergeable address)
    (advertised : AddressType) : (node.mergeTypedAddress address advertised).Stored Draft := by
  cases hstorable : address.isStorable with
  | false =>
    have hsame : node.mergeTypedAddress address advertised = node := by
      simp [NodeInfo.mergeTypedAddress, hstorable]
    rw [hsame]
    exact hstored
  | true =>
    obtain ⟨front, back, hsplit, hcut, hfront, hback⟩ :=
      hstored.parallel.mergeTypedAddress hstorable advertised
    exact rule.stored_of_cutFrom hcut (rule.merged address advertised
      (hmergeable hstorable) hstorable hstored.draft hstored.exclusive hsplit hfront hback)

theorem mergeTypedAddressUpgradeOnly
    (hmergeable : address.isStorable = true → mergeable address) (advertised : AddressType) :
    (node.mergeTypedAddressUpgradeOnly address advertised).1.Stored Draft := by
  have hmerged := rule.mergeTypedAddress hstored hmergeable
    (forAdvertisedAddress address advertised)
  simp only [NodeInfo.mergeTypedAddressUpgradeOnly]
  split
  · split
    · split
      · exact hstored
      · exact hmerged
    · exact hmerged
  · exact hstored

theorem touchedNode {address : Option MultiAddr} (htakes : node.Takes mergeable address)
    (addressType : AddressType) (now : ℕ) :
    (KBucket.touchedNode address addressType now node).Stored Draft := by
  cases address with
  | none => exact hstored.seen now
  | some address =>
    rw [KBucket.touchedNode]
    split
    · exact hstored.seen now
    · next hskips =>
        exact rule.mergeTypedAddress (hstored.seen now)
          (fun hstorable => htakes address rfl hstorable (eq_false_of_ne_true hskips))
          addressType

omit rule in
theorem seenNode (address : Option MultiAddr) (addressType : AddressType)
    (now : ℕ) : (KBucket.seenNode address addressType now node).Stored Draft := by
  rw [KBucket.seenNode]
  split
  · exact hstored.seen now
  · exact hstored

theorem upgraded {table : RoutingTable} {peer : PeerId}
    (htakes : node.Takes mergeable (table.observedAddress peer (some address)))
    (addressType : AddressType) :
    (table.upgraded peer address addressType node).Stored Draft := by
  rw [RoutingTable.upgraded]
  split
  · exact hstored
  · next hunpublished =>
      rw [RoutingTable.observedAddress, if_neg hunpublished] at htakes
      rw [KBucket.upgradedNode]
      split
      · exact hstored
      · next hskips =>
          exact rule.mergeTypedAddressUpgradeOnly hstored
            (fun hstorable => htakes address rfl hstorable (eq_false_of_ne_true hskips))
            addressType

theorem mergedNode {incoming : NodeInfo} (hoffers : incoming.Offers mergeable) :
    (KBucket.mergedNode incoming node).Stored Draft := by
  rw [KBucket.mergedNode, KBucket.mergeAll]
  refine List.foldlRecOn _ _ (hstored.seen incoming.lastSeen) ?_
  intro merged hmerged entry hentry
  exact rule.mergeTypedAddress hmerged
    (hoffers entry.1 (KBucket.mem_storableTyped hentry).1) entry.2

omit hstored

theorem insertedNode (hinsertable : insertable (KBucket.storableTyped node)) :
    (KBucket.insertedNode node).Stored Draft := by
  have hlength : (storableTyped node).length ≤ maxAddressesPerNode := by
    rw [storableTyped, length_map]
    exact length_take_le _ _
  exact rule.stored_of_cutFrom (node.cutFrom_enforcePerIpFamilyCap _ hlength (List.Sublist.refl _))
    (rule.inserted node hinsertable)

theorem republishedNode {typed : List (MultiAddr × AddressType)}
    (hpublishable : publishable (KBucket.publishedTyped typed))
    (mode : AddressReplaceMode) (now : ℕ) :
    (KBucket.republishedNode typed mode now node).Stored Draft := by
  apply NodeInfo.Stored.seen
  exact rule.stored_of_cutFrom (node.cutFrom_enforcePerIpFamilyCap _ (length_take_le _ _)
      (take_sublist _ _))
    (rule.published typed hpublishable)

end RecordRule

/-! ## Tables -/

namespace RoutingTable

/-- A merge of the address into the record of the peer takes a mergeable address. -/
def Takes (mergeable : MultiAddr → Prop) (table : RoutingTable) (peer : PeerId)
    (address : Option MultiAddr) : Prop :=
  ∀ node, table.findNodeById peer = some node →
    node.Takes mergeable (table.observedAddress peer address)

theorem takes_of_forall {mergeable : MultiAddr → Prop} {table : RoutingTable}
    {peer : PeerId} {address : Option MultiAddr}
    (hmergeable : ∀ taken ∈ address, taken.isStorable = true → mergeable taken) :
    table.Takes mergeable peer address := by
  intro node _ taken htaken hstorable _
  rw [observedAddress] at htaken
  split at htaken
  · cases htaken
  · exact hmergeable taken htaken hstorable

/-- A valid table whose records all have the property. -/
structure Keeps (Draft : List (MultiAddr × AddressType) → Prop) (localId : PeerId)
    (k : ℕ) (table : RoutingTable) : Prop where
  valid : table.Valid localId k
  stored : ∀ peer node, table.findNodeById peer = some node → node.Stored Draft

variable {mergeable : MultiAddr → Prop}
  {Draft insertable publishable : List (MultiAddr × AddressType) → Prop}
  {localId : PeerId} {k : ℕ} {table after : RoutingTable}

theorem keeps_new (now : ℕ) : (RoutingTable.new localId k now).Keeps Draft localId k where
  valid := Valid.new localId k now
  stored peer node hfind := by
    cases hindex : (new localId k now).bucketIndex peer with
    | none =>
      rw [findNodeById_eq_none hindex] at hfind
      cases hfind
    | some index =>
      rw [findNodeById_eq hindex] at hfind
      cases hfind

namespace Keeps

theorem mem_allNodes (hkeeps : table.Keeps Draft localId k) {node : NodeInfo}
    (hmem : node ∈ table.allNodes) : node.Stored Draft := by
  obtain ⟨index, hnode⟩ := Valid.mem_allNodes_iff.mp hmem
  have hindex := hkeeps.valid.placed index node.id (mem_map_of_mem hnode)
  apply hkeeps.stored node.id
  rw [findNodeById_eq hindex]
  exact (KeyedList.lookup_eq_some_iff (hkeeps.valid.nodup index)).mpr ⟨hnode, rfl⟩

variable {peer : PeerId}

theorem of_rewrites {update : NodeInfo → NodeInfo} (hkeeps : table.Keeps Draft localId k)
    (hvalid : after.Valid localId k) (hrewrites : Rewrites table after peer update)
    (hupdate : ∀ node, table.findNodeById peer = some node → node.Stored Draft →
      (update node).Stored Draft) : after.Keeps Draft localId k := by
  refine ⟨hvalid, ?_⟩
  intro other node hfind
  rw [hrewrites.findNode] at hfind
  split at hfind
  · obtain ⟨old, hold, rfl⟩ := map_eq_some_iff.mp hfind
    exact hupdate old hold (hkeeps.stored peer old hold)
  · exact hkeeps.stored other node hfind

variable (rule : RecordRule mergeable Draft insertable publishable)
  (hkeeps : table.Keeps Draft localId k)

include hkeeps

theorem removeNode (peer : PeerId) : (table.removeNode peer).Keeps Draft localId k := by
  refine ⟨hkeeps.valid.removeNode peer, ?_⟩
  intro other node hfind
  rw [findNodeById_removeNode] at hfind
  split at hfind
  · cases hfind
  · exact hkeeps.stored other node hfind

theorem tryTouchLastSeen (peer : PeerId) (address : Option MultiAddr)
    (addressType : AddressType) (now : ℕ) :
    (table.tryTouchLastSeen peer address addressType now).1.Keeps Draft localId k :=
  hkeeps.of_rewrites (hkeeps.valid.tryTouchLastSeen peer address addressType now)
    (tryTouchLastSeen_rewrites table peer address addressType now)
    fun _ _ hstored => RecordRule.seenNode hstored _ addressType now

include rule

theorem touchNode {address : Option MultiAddr} (htakes : table.Takes mergeable peer address)
    (addressType : AddressType) (now : ℕ) :
    (table.touchNode peer address addressType now).1.Keeps Draft localId k :=
  hkeeps.of_rewrites (hkeeps.valid.touchNode peer address addressType now)
    (touchNode_rewrites table peer hkeeps.valid.nodup address addressType now)
    fun node hfind hstored => rule.touchedNode hstored (htakes node hfind) addressType now

theorem touchLegacyRelayHintIfUnsequenced {address : MultiAddr}
    (htakes : table.Takes mergeable peer (some address)) (now : ℕ) :
    (table.touchLegacyRelayHintIfUnsequenced peer address now).1.Keeps
      Draft localId k := by
  rw [RoutingTable.touchLegacyRelayHintIfUnsequenced]
  split
  · exact hkeeps
  · exact hkeeps.touchNode rule htakes .relay now

theorem mergeTypedAddressUpgradeOnly {address : MultiAddr}
    (htakes : table.Takes mergeable peer (some address)) (addressType : AddressType) :
    (table.mergeTypedAddressUpgradeOnly peer address addressType).1.Keeps
      Draft localId k :=
  hkeeps.of_rewrites (hkeeps.valid.mergeTypedAddressUpgradeOnly peer address addressType)
    (mergeTypedAddressUpgradeOnly_rewrites table peer address addressType)
    fun node hfind hstored => rule.upgraded hstored (htakes node hfind) addressType

theorem replaceNodeAddressesWithMode (peer : PeerId)
    {typed : List (MultiAddr × AddressType)}
    (hpublishable : publishable (KBucket.publishedTyped typed)) (seq : ℕ)
    (mode : AddressReplaceMode) (now : ℕ) :
    (table.replaceNodeAddressesWithMode peer typed seq mode now).1.Keeps
      Draft localId k := by
  by_cases haccepts : table.AcceptsV1 peer typed seq
  · exact hkeeps.of_rewrites (hkeeps.valid.replaceNodeAddressesWithMode peer typed seq mode now)
      (replaceNodeAddressesWithMode_applied hkeeps.valid.nodup haccepts mode now).1
      fun _ _ _ => rule.republishedNode hpublishable mode now
  · rw [replaceNodeAddressesWithMode_refused haccepts]
    exact hkeeps

theorem storeTransportAddressSet (codec : AddressCodec) (peer : PeerId)
    (set : TransportAddressSet) {native : List (MultiAddr × AddressType)}
    (hpublishable : publishable (KBucket.publishedTyped native))
    (mode : AddressReplaceMode) (now : ℕ) :
    (table.storeTransportAddressSet codec peer set native mode now).1.Keeps
      Draft localId k := by
  by_cases haccepts : table.AcceptsV2 peer native set
  · exact hkeeps.of_rewrites (hkeeps.valid.storeTransportAddressSet codec peer set native mode now)
      (storeTransportAddressSet_applied hkeeps.valid.nodup haccepts codec mode now).1
      fun _ _ _ => rule.republishedNode hpublishable mode now
  · rw [storeTransportAddressSet_refused haccepts]
    exact hkeeps

/-- `add_node` merges into a record that is already here, so only a peer that enters
needs an insertable list. -/
theorem addNode {node : NodeInfo} {now : ℕ} (hoffers : node.Offers mergeable)
    (hinsertable : table.findNodeById node.id = none → insertable (KBucket.storableTyped node))
    (hadd : table.addNode node now = .ok after) : after.Keeps Draft localId k := by
  have hvalid := hkeeps.valid.addNode hadd
  rcases addNode_eq_ok hadd with ⟨-, rfl⟩ | ⟨-, index, bucket, hindex, hbucket, rfl⟩
  · exact hkeeps.touchNode rule (takes_of_forall (by simp)) .unverified now
  · rcases KBucket.addNode_eq_ok hbucket with ⟨-, rfl⟩ | ⟨habsent, -, rfl⟩
    · exact hkeeps.of_rewrites hvalid (Rewrites.setBucket hindex
        (KBucket.rewrites_moveToTail (KBucket.id_mergedNode node)
          (hkeeps.valid.nodup index) rfl rfl))
        fun _ _ hstored => rule.mergedNode hstored hoffers
    · refine ⟨hvalid, ?_⟩
      intro other found hfind
      have hnew := hinsertable (by rw [findNodeById_eq hindex, habsent])
      rw [findNodeById_setBucket] at hfind
      split at hfind
      · next hother =>
          rw [KBucket.findNode, KeyedList.lookup_append, or_eq_some_iff] at hfind
          rcases hfind with hold | ⟨-, hlast⟩
          · exact hkeeps.stored other found (by rwa [findNodeById_eq hother])
          · have hmem := KeyedList.mem_of_lookup hlast
            rw [List.mem_singleton.mp hmem]
            exact rule.insertedNode hnew
      · exact hkeeps.stored other found hfind

end Keeps

end RoutingTable

/-! ## Histories -/

section Histories

variable {Score : Type*} (insertable publishable : List (MultiAddr × AddressType) → Prop)

/-- The lists a call writes without a merge: those of a peer that is not in the
table, and those of a publication. -/
def RoutingOp.Writes (table : RoutingTable) : RoutingOp Score → Prop
  | .admission _ _ incoming => table.findNodeById incoming.id = none →
    insertable (KBucket.storableTyped incoming.retainStorableAddresses)
  | .reEvaluate _ candidate _ => table.findNodeById candidate.id = none →
    insertable (KBucket.storableTyped candidate)
  | .insert node _ => table.findNodeById node.id = none →
    insertable (KBucket.storableTyped node)
  | .replace _ typed _ _ _ => publishable (KBucket.publishedTyped typed)
  | .storeTransport _ _ native _ _ => publishable (KBucket.publishedTyped native)
  | _ => True

/-- The addresses a call merges into a record are all mergeable. -/
def RoutingOp.Merges (mergeable : MultiAddr → Prop) (table : RoutingTable) : RoutingOp Score → Prop
  | .admission _ _ incoming => incoming.Offers mergeable
  | .reEvaluate _ candidate _ => candidate.Offers mergeable
  | .insert node _ => node.Offers mergeable
  | .touch peer address _ _ => table.Takes mergeable peer address
  | .legacyRelayHint peer address _ => table.Takes mergeable peer (some address)
  | .upgradeOnly peer address _ => table.Takes mergeable peer (some address)
  | _ => True

theorem RoutingOp.merges_true (table : RoutingTable) (op : RoutingOp Score) :
    op.Merges (fun _ => True) table := by
  cases op <;> simp [RoutingOp.Merges, NodeInfo.Offers, NodeInfo.Takes, RoutingTable.Takes]

variable {insertable publishable} [LinearOrder Score] (codec : AddressCodec)
  (config : EngineConfig Score) {mergeable : MultiAddr → Prop}
  {Draft : List (MultiAddr × AddressType) → Prop}
  (rule : RecordRule mergeable Draft insertable publishable)
  {localId : PeerId} {k : ℕ} {table : RoutingTable}

include rule

theorem RoutingOp.apply_keeps (op : RoutingOp Score)
    (hwrites : op.Writes insertable publishable table)
    (hmerges : op.Merges mergeable table) (hkeeps : table.Keeps Draft localId k) :
    (op.apply codec config table).Keeps Draft localId k := by
  have htouch {node : NodeInfo} (hoffers : node.Offers mergeable) :
      ∀ (table : RoutingTable) (address : Option MultiAddr) addressType now,
        (∀ taken ∈ address, taken ∈ node.addresses) → table.Keeps Draft localId k →
          (table.touchNode node.id address addressType now).1.Keeps Draft localId k := by
    intro table address addressType now hnamed hkeeps
    have htakes : table.Takes mergeable node.id address := takes_of_forall
      fun taken htaken => hoffers taken (hnamed taken htaken)
    exact hkeeps.touchNode rule htakes addressType now
  have hremove : ∀ (table : RoutingTable) peer, table.Keeps Draft localId k →
      (table.removeNode peer).Keeps Draft localId k :=
    fun _ peer hkeeps => hkeeps.removeNode peer
  have hadd {node : NodeInfo} (hoffers : node.Offers mergeable)
      (hinsertable : insertable (storableTyped node)) :
      ∀ (table : RoutingTable) now after, table.Keeps Draft localId k →
        table.addNode node now = .ok after → after.Keeps Draft localId k :=
    fun _ _ _ hkeeps hadd => hkeeps.addNode rule hoffers (fun _ => hinsertable) hadd
  cases op with
  | admission order observation incoming =>
    have hoffers : incoming.retainStorableAddresses.Offers mergeable :=
      hmerges.retainStorableAddresses
    exact config.addNode_preserves _ (htouch hoffers) hremove
      (fun habsent => hadd hoffers (hwrites habsent)) observation order incoming rfl hkeeps
  | reEvaluate observation candidate ips =>
    exact config.reEvaluateAdmission_preserves _ (htouch hmerges) hremove
      (fun habsent => hadd hmerges (hwrites habsent)) observation ips hkeeps
  | insert node now =>
    simp only [apply]
    split
    · next after hafter => exact hkeeps.addNode rule hmerges hwrites hafter
    · exact hkeeps
  | remove peer =>
    simp only [apply, removeNodeById]
    split
    · exact hkeeps
    · exact hkeeps.removeNode peer
  | touch peer address addressType now =>
    exact hkeeps.touchNode rule hmerges addressType now
  | touchFast peer address addressType now =>
    exact hkeeps.tryTouchLastSeen peer address addressType now
  | legacyRelayHint peer address now =>
    exact hkeeps.touchLegacyRelayHintIfUnsequenced rule hmerges now
  | upgradeOnly peer address addressType =>
    exact hkeeps.mergeTypedAddressUpgradeOnly rule hmerges addressType
  | replace peer typed seq mode now =>
    exact hkeeps.replaceNodeAddressesWithMode rule peer hwrites seq mode now
  | storeTransport peer set native mode now =>
    exact hkeeps.storeTransportAddressSet rule codec peer set hwrites mode now

/-- A table reached by calls that meet the rule's conditions has the rule's property
in every record. -/
theorem RecordRule.reaches_keeps {now : ℕ} {allowed : RoutingTable → RoutingOp Score → Prop}
    (hallowed : ∀ table op, allowed table op →
      op.Writes insertable publishable table ∧ op.Merges mergeable table)
    (hreaches : Transition.Reaches (fun table op => some (apply codec config table op)) allowed
      (RoutingTable.new localId k now) table) :
    table.Keeps Draft localId k := by
  apply hreaches.invariant (keeps_new now)
  intro table op next hkeeps hop hnext
  cases hnext
  obtain ⟨hwrites, hmerges⟩ := hallowed table op hop
  exact op.apply_keeps codec config rule hwrites hmerges hkeeps

theorem RecordRule.run_keeps (localId : PeerId) (k now : ℕ) {ops : List (RoutingOp Score)}
    (hops : ∀ op ∈ ops, ∀ table : RoutingTable,
      op.Writes insertable publishable table ∧ op.Merges mergeable table) :
    ((RoutingTable.new localId k now).run codec config ops).Keeps Draft localId k := by
  refine foldlRecOn ops _ (keeps_new now) ?_
  intro table hkeeps op hop
  obtain ⟨hwrites, hmerges⟩ := hops op hop table
  exact op.apply_keeps codec config rule hwrites hmerges hkeeps

end Histories

/-! ## Tags of local addresses -/

/-- Every local-scope address is tagged as such. -/
def LanTagged (typed : List (MultiAddr × AddressType)) : Prop :=
  ∀ entry ∈ typed, entry.1.ip.any IpAddr.isLan = true → entry.2 = .lan

theorem forAdvertisedAddress_of_isLan {address : MultiAddr}
    (hlan : address.ip.any IpAddr.isLan = true) (advertised : AddressType) :
    forAdvertisedAddress address advertised = .lan :=
  if_pos hlan

theorem lanTagged_map (typed : List (MultiAddr × AddressType)) : LanTagged (typed.map fun pair =>
      (pair.1, forAdvertisedAddress pair.1 pair.2)) := by
  intro entry hentry hlan
  obtain ⟨pair, -, rfl⟩ := mem_map.mp hentry
  exact forAdvertisedAddress_of_isLan hlan pair.2

theorem lanTagged_rule : RecordRule (fun _ => True) LanTagged (fun _ => True) (fun _ => True) where
  sublist htagged hsublist entry hentry := htagged entry (hsublist.subset hentry)
  inserted _ _ := lanTagged_map _
  published typed _ := by
    intro entry hentry
    exact lanTagged_map _ entry ((mem_insertionSort _).mp hentry)
  merged address advertised _ _ htagged _ hsplit _ _ := by
    intro entry hentry hlan
    rw [perm_middle.mem_iff, mem_cons, hsplit] at hentry
    rcases hentry with rfl | hkept
    · exact forAdvertisedAddress_of_isLan hlan advertised
    · exact htagged entry (mem_of_mem_eraseP hkept) hlan

/-- Nothing is asked of the calls, so every record of every history has the property. -/
theorem RoutingTable.run_new_keeps_lanTagged {Score : Type*} [LinearOrder Score]
    (codec : AddressCodec) (config : EngineConfig Score) (localId : PeerId) (k now : ℕ)
    (ops : List (RoutingOp Score)) :
    ((RoutingTable.new localId k now).run codec config ops).Keeps LanTagged localId k :=
  lanTagged_rule.run_keeps codec config localId k now fun op _ table =>
    ⟨by cases op <;> simp [RoutingOp.Writes], op.merges_true table⟩

/-- The limits on the record of a peer. -/
structure NodeInfo.WithinLimits (node : NodeInfo) : Prop where
  length_eq : node.addressTypes.length = node.addresses.length
  length_le : node.addresses.length ≤ 8
  lanTagged : LanTagged node.typed
  relay_le_one : ∀ family, node.typed.countP (fun entry =>
    familyMatches entry.1 family && entry.2 == .relay) ≤ 1
  wan_le_one : ∀ family, node.typed.countP (fun entry =>
    familyMatches entry.1 family && (entry.2 == .direct || entry.2 == .unverified)) ≤ 1
  lan_le_one : ∀ family, node.typed.countP (fun entry =>
    familyMatches entry.1 family && entry.2 == .lan) ≤ 1

theorem slotOf_eq_some {family : Bool} (hfamily : familyMatches entry.1 family = true) :
    slotOf entry = some (family, slotOfType entry.2) := by
  rw [familyMatches] at hfamily
  cases hip : entry.1.canonicalIp with
  | none =>
    rw [hip] at hfamily
    cases hfamily
  | some ip =>
    rw [hip, any_some, beq_iff_eq] at hfamily
    rw [slotOf, hip, map_some, hfamily]

/-- The members of a slot, counted by their tags. -/
theorem Exclusive.countP_tagged_le_one (hexclusive : Exclusive typed) (family : Bool)
    (tagged : AddressType → Bool) (slot : AddressSlot)
    (htagged : ∀ tag, tagged tag = true → slotOfType tag = slot) :
    typed.countP (fun entry =>
      familyMatches entry.1 family && tagged entry.2) ≤ 1 := by
  refine le_trans (countP_mono_left ?_) (hexclusive.countP_le_one family slot)
  intro entry _ hcounted
  obtain ⟨hfamily, htag⟩ := (Bool.and_eq_true _ _).mp hcounted
  rw [slotOf_eq_some hfamily, htagged entry.2 htag, beq_self_eq_true]

theorem NodeInfo.Stored.withinLimits (hstored : node.Stored LanTagged) : node.WithinLimits where
  length_eq := hstored.parallel
  length_le := by
    rw [← hstored.parallel.map_fst_typed, length_map]
    exact hstored.length_le
  lanTagged := hstored.draft
  relay_le_one family := hstored.exclusive.countP_tagged_le_one family
    (· == .relay) .relay (by rintro (_ | _ | _ | _) <;> decide)
  wan_le_one family := hstored.exclusive.countP_tagged_le_one family
    (fun tag => tag == .direct || tag == .unverified) .wan (by rintro (_ | _ | _ | _) <;> decide)
  lan_le_one family := hstored.exclusive.countP_tagged_le_one family
    (· == .lan) .lan (by rintro (_ | _ | _ | _) <;> decide)

/-! ## Order of the addresses -/

instance : Std.Total fun left right : MultiAddr × AddressType =>
    left.2.priority ≤ right.2.priority :=
  ⟨fun left right => Nat.le_total left.2.priority right.2.priority⟩

instance : IsTrans (MultiAddr × AddressType) fun left right =>
    left.2.priority ≤ right.2.priority :=
  ⟨fun _ _ _ => Nat.le_trans⟩

theorem Ranked.insert {front back : List (MultiAddr × AddressType)}
    (hranked : Ranked (front ++ back))
    (hfront : ∀ earlier ∈ front, earlier.2.priority ≤ entry.2.priority)
    (hback : ∀ later ∈ back, entry.2.priority ≤ later.2.priority) :
    Ranked (front ++ entry :: back) := by
  obtain ⟨hfronts, hbacks, hacross⟩ := pairwise_append.mp hranked
  apply pairwise_append.mpr
  refine ⟨hfronts, pairwise_cons.mpr ⟨hback, hbacks⟩, ?_⟩
  intro left hleft right hright
  rcases mem_cons.mp hright with rfl | hlater
  · exact hfront left hleft
  · exact hacross left hleft right hlater

/-- A merge and a publication order the list; a first insertion takes the list as it
comes. -/
theorem ranked_rule : RecordRule (fun _ => True) Ranked Ranked (fun _ => True) where
  sublist hranked hsublist := List.Pairwise.sublist hsublist hranked
  inserted _ hranked := hranked
  published typed _ := List.pairwise_insertionSort _ _
  merged address advertised _ _ hranked _ hsplit hfront hback := by
    have hkept := List.Pairwise.sublist
      (eraseP_sublist (p := fun entry => entry.1 == address)) hranked
    rw [← hsplit] at hkept
    exact Ranked.insert hkept hfront (hback hkept)

/-! ## Repeated addresses -/

/-- An address that occurs again competes with itself for one slot. -/
def RepeatsCompete (typed : List (MultiAddr × AddressType)) : Prop :=
  typed.Pairwise fun left right =>
    left.1 = right.1 → slotOf left = slotOf right ∧ slotOf left ≠ none

theorem compete_symm {left right : MultiAddr × AddressType}
    (hcompete : left.1 = right.1 → slotOf left = slotOf right ∧ slotOf left ≠ none) :
    right.1 = left.1 → slotOf right = slotOf left ∧ slotOf right ≠ none := by
  intro hsame
  obtain ⟨hslot, hsome⟩ := hcompete hsame.symm
  exact ⟨hslot.symm, hslot ▸ hsome⟩

theorem RepeatsCompete.nodup (hrepeats : RepeatsCompete typed) (hexclusive : Exclusive typed) :
    (typed.map Prod.fst).Nodup := by
  rw [List.Nodup, pairwise_map]
  refine (List.Pairwise.and hrepeats hexclusive).imp ?_
  rintro left right ⟨hcompete, halone⟩ hsame
  obtain ⟨hslot, hsome⟩ := hcompete hsame
  exact hsome (halone hslot)

/-- Erasing an address from a list without repetitions removes it. -/
theorem fst_ne_of_mem_eraseP (hnodup : (typed.map Prod.fst).Nodup) {address : MultiAddr}
    (hentry : entry ∈ typed.eraseP fun entry => entry.1 == address) : address ≠ entry.1 := by
  have herase : (typed.map Prod.fst).erase address =
      (typed.eraseP fun entry => entry.1 == address).map Prod.fst := by
    rw [erase_eq_eraseP', eraseP_map]
    rfl
  have hmem : entry.1 ∈ (typed.map Prod.fst).erase address := by
    rw [herase]
    exact mem_map_of_mem hentry
  exact (hnodup.mem_erase_iff.mp hmem).1.symm

/-- A merge removes the address before it inserts it; the other writers leave
repetitions to the cap. -/
theorem repeatsCompete_rule :
    RecordRule (fun _ => True) RepeatsCompete RepeatsCompete RepeatsCompete where
  sublist hrepeats hsublist := List.Pairwise.sublist hsublist hrepeats
  inserted _ hrepeats := hrepeats
  published typed hrepeats :=
    ((List.perm_insertionSort _ _).pairwise_iff compete_symm).mpr hrepeats
  merged address advertised _ _ hrepeats hexclusive hsplit _ _ := by
    have hkept := List.Pairwise.sublist
      (eraseP_sublist (p := fun entry => entry.1 == address)) hrepeats
    refine (pairwise_middle compete_symm).mpr ?_
    rw [hsplit]
    refine pairwise_cons.mpr ⟨?_, hkept⟩
    intro entry hentry hsame
    exact absurd hsame (fst_ne_of_mem_eraseP (hrepeats.nodup hexclusive) hentry)

/-! ## Every history -/

instance (typed : List (MultiAddr × AddressType)) : Decidable (Ranked typed) :=
  inferInstanceAs (Decidable (typed.Pairwise _))

instance (typed : List (MultiAddr × AddressType)) : Decidable (RepeatsCompete typed) :=
  inferInstanceAs (Decidable (typed.Pairwise _))

/-- IPv4 addresses on one QUIC port, with their tags. -/
def quicTyped (typed : List (Ipv4Addr × AddressType)) : List (MultiAddr × AddressType) :=
  typed.map fun entry => (.quic (.v4 entry.1 9000), entry.2)

/-- The admission of a peer with the given addresses. -/
def entering (typed : List (Ipv4Addr × AddressType)) : RoutingOp ℕ :=
  .admission (HashOrder.insertion _) { trustScore := fun _ => 50, now := 0 }
    { id := 1
      addresses := (quicTyped typed).map Prod.fst
      addressTypes := (quicTyped typed).map Prod.snd
      lastSeen := 0 }

/-- The first publication of that peer. -/
def publishing (typed : List (Ipv4Addr × AddressType)) : RoutingOp ℕ :=
  .replace 1 (quicTyped typed) 1 .authenticatedSelfPublish 0

def exampleApply (table : RoutingTable) (op : RoutingOp ℕ) : RoutingTable :=
  op.apply { decode := fun _ => none } (EngineConfig.withDefaults 20) table

section Results

variable {Score : Type*} [LinearOrder Score] (codec : AddressCodec)
  (config : EngineConfig Score) {localId : PeerId} {k now : ℕ} {table : RoutingTable}

/-- Whatever the calls and their arguments are, every record is within the limits. -/
theorem RoutingTable.run_new_withinLimits (localId : PeerId) (k now : ℕ)
    (ops : List (RoutingOp Score)) :
    ∀ node ∈ ((RoutingTable.new localId k now).run codec config ops).allNodes,
      node.WithinLimits := by
  intro node hmem
  have hkeeps := run_new_keeps_lanTagged codec config localId k now ops
  exact (hkeeps.mem_allNodes hmem).withinLimits

theorem entering_withinLimits :
    (exampleApply (RoutingTable.new 0 20 0)
        (entering [(0xcb007109, .direct), (0xcb00710a, .direct)])).allNodes.map
          NodeInfo.addresses = [[.quic (.v4 0xcb007109 9000)]] ∧
      ∀ node ∈ (exampleApply (RoutingTable.new 0 20 0)
        (entering [(0xcb007109, .direct), (0xcb00710a, .direct)])).allNodes,
        node.WithinLimits :=
  ⟨by decide +kernel, RoutingTable.run_new_withinLimits { decode := fun _ => none }
    (withDefaults 20) 0 20 0 [entering _]⟩

/-- If every peer enters with an ordered list, every record stays ordered. -/
theorem RoutingTable.reaches_ranked
    (hreaches : Transition.Reaches
      (fun table op => some (RoutingOp.apply codec config table op))
      (fun table op => op.Writes Ranked (fun _ => True) table)
      (RoutingTable.new localId k now) table) :
    ∀ node ∈ table.allNodes, Ranked node.typed := by
  intro node hmem
  have hkeeps := ranked_rule.reaches_keeps codec config
    (fun table op hwrites => ⟨hwrites, op.merges_true table⟩) hreaches
  exact (hkeeps.mem_allNodes hmem).draft

theorem relay_first_ranked :
    (exampleApply (RoutingTable.new 0 20 0)
        (entering [(0xcb007109, .relay), (0xcb00710a, .direct)])).allNodes.length = 1 ∧
      ∀ node ∈ (exampleApply (RoutingTable.new 0 20 0)
        (entering [(0xcb007109, .relay), (0xcb00710a, .direct)])).allNodes,
        Ranked node.typed := by
  have hwrites : (entering [(0xcb007109, .relay), (0xcb00710a, .direct)]).Writes
      Ranked (fun _ => True) (new 0 20 0) := fun _ => by decide +kernel
  exact ⟨by decide +kernel, reaches_ranked { decode := fun _ => none }
    (withDefaults 20) (Transition.Reaches.refl.tail hwrites rfl)⟩

/-- A peer that enters with a direct address before its relay keeps that order. -/
theorem direct_first_not_ranked :
    ¬∀ node ∈ (exampleApply (RoutingTable.new 0 20 0)
        (entering [(0xcb007109, .direct), (0xcb00710a, .relay)])).allNodes,
      Ranked node.typed := by
  decide +kernel

/-- If in the lists of entering peers and of publications an address is repeated only
where the cap removes it, no record repeats an address. -/
theorem RoutingTable.reaches_nodup
    (hreaches : Transition.Reaches
      (fun table op => some (RoutingOp.apply codec config table op))
      (fun table op => op.Writes RepeatsCompete RepeatsCompete table)
      (RoutingTable.new localId k now) table) :
    ∀ node ∈ table.allNodes, node.addresses.Nodup := by
  intro node hmem
  have hkeeps := repeatsCompete_rule.reaches_keeps codec config
    (fun table op hwrites => ⟨hwrites, op.merges_true table⟩) hreaches
  have hstored := hkeeps.mem_allNodes hmem
  rw [← hstored.parallel.map_fst_typed]
  exact hstored.draft.nodup hstored.exclusive

theorem repeated_relay_nodup :
    (exampleApply (RoutingTable.new 0 20 0)
        (entering [(0xcb007109, .relay), (0xcb007109, .relay)])).allNodes.length = 1 ∧
      ∀ node ∈ (exampleApply (RoutingTable.new 0 20 0)
        (entering [(0xcb007109, .relay), (0xcb007109, .relay)])).allNodes,
        node.addresses.Nodup := by
  have hwrites : (entering [(0xcb007109, .relay), (0xcb007109, .relay)]).Writes
      RepeatsCompete RepeatsCompete (new 0 20 0) :=
    fun _ => by decide +kernel
  exact ⟨by decide +kernel, reaches_nodup { decode := fun _ => none }
    (withDefaults 20) (Transition.Reaches.refl.tail hwrites rfl)⟩

/-- One address published as relay and as direct is stored twice. -/
theorem two_tags_not_nodup :
    ¬∀ node ∈ (exampleApply
        (exampleApply (RoutingTable.new 0 20 0) (entering [(0xcb007109, .direct)]))
        (publishing [(0xcb007109, .relay), (0xcb007109, .direct)])).allNodes,
      node.addresses.Nodup := by
  decide +kernel

end Results

end SaorsaCore.Routing
