import SaorsaCore.Manager.Messages
import SaorsaCore.Routing.Publication
import SaorsaCore.Routing.Records

/-!
# Where stored addresses come from

What the table stores for a peer that has published is what the peer itself said, over
its own authenticated connection or under its signature.  Every change of the table
either keeps what is stored for the peers that stay in it, or delivers a publication
that its owner vouches for; `ownerDiscipline` makes that the rule of all tasks.
-/

namespace SaorsaCore.Manager

open Routing NodeInfo RoutingTable KBucket AddressType

/-! ## Lists of addresses and tags -/

/-- Reading parallel lists as pairs corrects tags at most. -/
theorem Drawn.of_parallel {offered : List (MultiAddr × AddressType)}
    {addresses : List MultiAddr} {types : List AddressType}
    (hlength : types.length = addresses.length) (hdrawn : Drawn offered (addresses.zip types)) :
    Drawn offered (addresses.mapIdx fun index address =>
      (address, forAdvertisedAddress address (types.getD index .unverified))) := by
  intro pair hpair
  obtain ⟨index, hindex, rfl⟩ := List.mem_mapIdx.mp hpair
  have htypes : index < types.length := hlength ▸ hindex
  have hzip : (addresses[index], types[index]) ∈ addresses.zip types := by
    apply List.mem_iff_getElem.mpr
    exact ⟨index, by simp [hindex, htypes], by simp⟩
  obtain ⟨advertised, hoffered, htag⟩ := hdrawn _ hzip
  refine ⟨advertised, hoffered, ?_⟩
  simp only at htag
  rw [List.getD_eq_getElem _ _ htypes, htag, forAdvertisedAddress_idem]

theorem DHTNode.typedAddresses_withTyped_drawn {Score : Type*} (node : DHTNode Score)
    {offered typed : List (MultiAddr × AddressType)} (hdrawn : Drawn offered typed) :
    Drawn offered (node.withTyped typed).typedAddresses := by
  apply Drawn.of_parallel
  · simp [DHTNode.withTyped]
  · rw [DHTNode.withTyped, ← List.unzip_fst, ← List.unzip_snd, List.zip_unzip]
    exact hdrawn

/-- The tags of a record read as pairs are already corrected. -/
theorem DHTNode.typedAddresses_drawn_self {Score : Type*} (node : DHTNode Score) :
    Drawn node.typedAddresses node.typedAddresses := by
  intro pair hpair
  refine ⟨pair.2, hpair, ?_⟩
  obtain ⟨index, _, rfl⟩ := List.mem_mapIdx.mp hpair
  rw [forAdvertisedAddress_idem]

theorem publishedAddresses_drawn (typed : List (MultiAddr × AddressType)) :
    (publishedAddresses typed).2.length = (publishedAddresses typed).1.length ∧
      Drawn typed ((publishedAddresses typed).1.zip (publishedAddresses typed).2) := by
  let sorted := (publishedTyped typed).insertionSort fun left right =>
    left.2.priority ≤ right.2.priority
  let listed : NodeInfo := withTyped
    { id := 0, addresses := [], addressTypes := [], lastSeen := 0 }
    (sorted.take maxAddressesPerNode)
  have hparallel : listed.Parallel := parallel_withTyped _ _
  refine ⟨parallel_enforcePerIpFamilyCap hparallel, ?_⟩
  -- The cap and the truncation drop pairs of the published list.
  apply Drawn.of_canonical
  intro pair hpair
  have hlisted : pair ∈ listed.typed :=
    (typed_enforcePerIpFamilyCap_sublist hparallel).subset hpair
  rw [typed_withTyped] at hlisted
  have hpublished : pair ∈ publishedTyped typed :=
    (List.perm_insertionSort _ _).mem_iff.mp (List.mem_of_mem_take hlisted)
  rw [publishedTyped] at hpublished
  exact (List.filter_sublist.map _).subset hpublished

theorem mapIdx_addressTypeAt (node : NodeInfo) :
    (node.addresses.mapIdx fun index address => (address, node.addressTypeAt index)) =
      node.addresses.mapIdx fun index address =>
        (address, forAdvertisedAddress address (node.addressTypes.getD index .unverified)) := by
  apply List.ext_getElem
  · simp
  · intro index hleft _
    rw [List.length_mapIdx] at hleft
    simp [addressTypeAt, hleft]

/-- The addresses stored for a publication are among those published. -/
theorem nodeAddressesTyped_drawn {codec : AddressCodec} {table : RoutingTable} {peer : PeerId}
    {publication : Publication} (hrepresents : table.Represents codec peer publication) :
    Drawn publication.native (nodeAddressesTyped table peer) := by
  obtain ⟨node, hnode, hrecord⟩ := Option.map_eq_some_iff.mp hrepresents.record
  obtain ⟨hlength, hdrawn⟩ := publishedAddresses_drawn publication.native
  rw [← hrecord] at hlength hdrawn
  rw [nodeAddressesTyped, hnode]
  simp only
  rw [mapIdx_addressTypeAt]
  exact Drawn.of_parallel hlength hdrawn

/-! ## What owners vouch for -/

section Vouching

variable {Score : Type} (config : ManagerConfig Score)

/-- The record is the result of a verification. -/
def Verified (proof : VerifiedAddressRecord) : Prop :=
  ∃ record : SignedAddressRecord, record.verify config.wire config.signatures = .ok proof

/-- The peer itself has said, under this sequence, that it has these addresses. -/
inductive Warranted (statements : List OwnerStatement) (peer : PeerId) (seq : ℕ)
    (typed : List (MultiAddr × AddressType)) : Prop where
  | stated (statement : OwnerStatement) (hmem : statement ∈ statements)
      (howner : statement.owner = peer) (hseq : statement.seq = seq)
      (hdrawn : Drawn statement.offered typed)
  | signed (proof : VerifiedAddressRecord) (hverified : Verified config proof)
      (howner : proof.owner = peer) (hseq : proof.sequence = seq)
      (hdrawn : Drawn (recordPairs config.wire proof.records) typed)

/-- The peer itself is behind the publication; a signed set carries its proof. -/
def Vouched (statements : List OwnerStatement) (peer : PeerId) : Publication → Prop
  | .v1 seq typed => Warranted config statements peer seq typed
  | .v2 set native => ∃ proof, set.proof = some proof ∧ Verified config proof ∧
      proof.owner = peer ∧ proof.sequence = set.seq ∧
        Drawn (recordPairs config.wire proof.records) native

variable {config} {statements more : List OwnerStatement} {peer : PeerId}

theorem Warranted.mono {seq : ℕ} {typed : List (MultiAddr × AddressType)}
    (hwarranted : Warranted config statements peer seq typed) (hmore : statements ⊆ more) :
    Warranted config more peer seq typed := by
  cases hwarranted with
  | stated statement hmem howner hseq hdrawn =>
    exact .stated statement (hmore hmem) howner hseq hdrawn
  | signed proof hverified howner hseq hdrawn =>
    exact .signed proof hverified howner hseq hdrawn

/-- What is warranted may be cut down. -/
theorem Warranted.draw {seq : ℕ} {typed fewer : List (MultiAddr × AddressType)}
    (hwarranted : Warranted config statements peer seq typed) (hfewer : Drawn typed fewer) :
    Warranted config statements peer seq fewer := by
  cases hwarranted with
  | stated statement hmem howner hseq hdrawn =>
    exact .stated statement hmem howner hseq (hdrawn.trans hfewer)
  | signed proof hverified howner hseq hdrawn =>
    exact .signed proof hverified howner hseq (hdrawn.trans hfewer)

theorem Vouched.mono {publication : Publication}
    (hvouched : Vouched config statements peer publication) (hmore : statements ⊆ more) :
    Vouched config more peer publication := by
  cases publication with
  | v1 seq typed => exact Warranted.mono hvouched hmore
  | v2 set native => exact hvouched

theorem Vouched.warranted {publication : Publication}
    (hvouched : Vouched config statements peer publication) :
    Warranted config statements peer publication.seq publication.native := by
  cases publication with
  | v1 seq typed => exact hvouched
  | v2 set native =>
    obtain ⟨proof, -, hverified, howner, hseq, hdrawn⟩ := hvouched
    exact .signed proof hverified howner hseq hdrawn

variable (config) in
/-- Everything stored is vouched for by the peer it is stored for. -/
structure Attested (statements : List OwnerStatement) (table : RoutingTable) : Prop where
  valid : table.Valid config.peerId config.engine.kValue
  register : ∀ peer, ∃ register, table.Holds config.wire.toAddressCodec peer register ∧
    ∀ publication, register = some publication → Vouched config statements peer publication

theorem Attested.mono {table : RoutingTable} (hattested : Attested config statements table)
    (hmore : statements ⊆ more) : Attested config more table where
  valid := hattested.valid
  register peer := by
    obtain ⟨register, hholds, hvouched⟩ := hattested.register peer
    exact ⟨register, hholds, fun publication hregister =>
      (hvouched publication hregister).mono hmore⟩

/-- What is stored for a peer with a publication. -/
theorem Attested.exists_publication {table : RoutingTable}
    (hattested : Attested config statements table)
    (hpublished : table.hasAddressPublication peer = true) :
    ∃ publication, table.Represents config.wire.toAddressCodec peer publication ∧
      Vouched config statements peer publication := by
  obtain ⟨register, hholds, hvouched⟩ := hattested.register peer
  cases register with
  | none =>
    have hnone : table.addressPublications peer = none := hholds
    simp [hasAddressPublication, publishSeqFor, transportAddressSet, hnone] at hpublished
  | some publication => exact ⟨publication, hholds, hvouched publication rfl⟩

end Vouching

/-! ## Changes of the table -/

section Changes

variable {Score : Type} [LinearOrder Score] (config : ManagerConfig Score)

/-- What may happen to the table while it is locked for writing. -/
inductive TableChange (statements : List OwnerStatement) (before : RoutingTable) :
    RoutingTable → Prop where
  | keeps {after : RoutingTable}
      (hvalid : after.Valid config.peerId config.engine.kValue)
      (hkeeps : ∀ peer, before.KeepsView after peer) : TableChange statements before after
  | routing (op : RoutingOp Score) (hquiet : isPublication op = false) :
      TableChange statements before (op.apply config.wire.toAddressCodec config.engine before)
  | published (peer : PeerId) (typed : List (MultiAddr × AddressType)) (seq : ℕ)
      (mode : AddressReplaceMode) (now : ℕ)
      (hvouched : Vouched config statements peer (.v1 seq typed)) :
      TableChange statements before (before.replaceNodeAddressesWithMode peer typed seq mode now).1
  | signed (peer : PeerId) (set : TransportAddressSet)
      (native : List (MultiAddr × AddressType)) (mode : AddressReplaceMode) (now : ℕ)
      (hvouched : Vouched config statements peer (.v2 set native)) :
      TableChange statements before
        (before.storeTransportAddressSet config.wire.toAddressCodec peer set native mode
          now).1

variable {config} {statements : List OwnerStatement} {before after : RoutingTable}
  {peer : PeerId}

omit [LinearOrder Score] in
theorem delivery_of_quiet {op : RoutingOp Score} (hquiet : isPublication op = false)
    (peer : PeerId) : op.delivery peer = none := by
  cases op with
  | replace target typed seq mode now => cases hquiet
  | storeTransport target set native mode now => cases hquiet
  | _ => rfl

/-- A quiet operation keeps what is stored for the peers that stay, and stores nothing
for those that come. -/
theorem Attested.routing (hattested : Attested config statements before)
    {op : RoutingOp Score} (hquiet : isPublication op = false) :
    Attested config statements (op.apply config.wire.toAddressCodec config.engine before) := by
  have hvalid := op.apply_valid config.wire.toAddressCodec config.engine hattested.valid
  refine ⟨hvalid, fun peer => ?_⟩
  have hdelivery := delivery_of_quiet hquiet peer
  obtain ⟨register, hholds, hvouched⟩ := hattested.register peer
  cases hentry : (op.apply config.wire.toAddressCodec config.engine
      before).addressPublications peer with
  | none => exact ⟨none, hentry, nofun⟩
  | some publication =>
    exact ⟨register, hholds.of_keepsView (op.apply_keepsView_of_published
      config.wire.toAddressCodec config.engine hattested.valid hdelivery hentry), hvouched⟩

/-- The publication is one that the table applies to the peer. -/
def Overwrites (table : RoutingTable) (peer : PeerId) : Publication → Prop
  | .v1 seq typed => table.AcceptsV1 peer typed seq
  | .v2 set native => table.AcceptsV2 peer native set

variable (config statements before after peer) in
/-- The table now stores a newer publication that the peer vouches for. -/
def Republished : Prop :=
  ∃ publication, Vouched config statements peer publication ∧ Overwrites before peer publication ∧
      after.Represents config.wire.toAddressCodec peer publication

omit [LinearOrder Score] in
theorem keepsView_or_republished_replace (hnodup : before.NodupIds) {target : PeerId}
    {typed : List (MultiAddr × AddressType)} {seq : ℕ}
    (hvouched : Vouched config statements target (.v1 seq typed))
    (mode : AddressReplaceMode) (now : ℕ) (peer : PeerId) :
    before.KeepsView (before.replaceNodeAddressesWithMode target typed seq mode now).1 peer ∨
      Republished config statements before
        (before.replaceNodeAddressesWithMode target typed seq mode now).1 peer := by
  by_cases hother : target = peer
  · subst hother
    by_cases haccepts : before.AcceptsV1 target typed seq
    · exact .inr ⟨.v1 seq typed, hvouched, haccepts, haccepts.represents hnodup mode now⟩
    · rw [replaceNodeAddressesWithMode_refused haccepts]
      exact .inl (.refl before target)
  · exact .inl (replaceNodeAddressesWithMode_keepsView hnodup hother typed seq mode now)

omit [LinearOrder Score] in
theorem keepsView_or_republished_store (hnodup : before.NodupIds) {target : PeerId}
    {set : TransportAddressSet} {native : List (MultiAddr × AddressType)}
    (hvouched : Vouched config statements target (.v2 set native))
    (mode : AddressReplaceMode) (now : ℕ) (peer : PeerId) :
    before.KeepsView (before.storeTransportAddressSet config.wire.toAddressCodec target set
        native mode now).1 peer ∨
      Republished config statements before (before.storeTransportAddressSet
        config.wire.toAddressCodec target set native mode now).1 peer := by
  by_cases hother : target = peer
  · subst hother
    by_cases haccepts : before.AcceptsV2 target native set
    · exact .inr ⟨.v2 set native, hvouched, haccepts, haccepts.represents hnodup mode now⟩
    · rw [storeTransportAddressSet_refused haccepts]
      exact .inl (.refl before target)
  · exact .inl (storeTransportAddressSet_keepsView _ hnodup hother set native mode now)

omit [LinearOrder Score] in
theorem Attested.of_view (hattested : Attested config statements before)
    (hvalid : after.Valid config.peerId config.engine.kValue)
    (hview : ∀ peer, before.KeepsView after peer ∨
      Republished config statements before after peer) :
    Attested config statements after where
  valid := hvalid
  register peer := by
    rcases hview peer with hkeeps | ⟨publication, hvouched, -, hrepresents⟩
    · obtain ⟨register, hholds, hvouched⟩ := hattested.register peer
      exact ⟨register, hholds.of_keepsView hkeeps, hvouched⟩
    · refine ⟨some publication, hrepresents, ?_⟩
      rintro other ⟨⟩
      exact hvouched

/-- The rule is kept by every change. -/
theorem Attested.change (hattested : Attested config statements before)
    (hchange : TableChange config statements before after) :
    Attested config statements after := by
  cases hchange with
  | keeps hvalid hkeeps =>
    exact hattested.of_view hvalid fun peer => .inl (hkeeps peer)
  | routing op hquiet => exact hattested.routing hquiet
  | published target typed seq mode now hvouched =>
    exact hattested.of_view (hattested.valid.replaceNodeAddressesWithMode target typed seq mode now)
      (keepsView_or_republished_replace hattested.valid.nodup hvouched mode now)
  | signed target set native mode now hvouched =>
    exact hattested.of_view (hattested.valid.storeTransportAddressSet _ target set native mode now)
      (keepsView_or_republished_store hattested.valid.nodup hvouched mode now)

/-- What is stored for a peer that stays in the table is kept, or replaced by a newer
publication that the peer vouches for. -/
theorem TableChange.keepsView_or_republished (hchange : TableChange config statements before after)
    (hattested : Attested config statements before)
    (hbefore : (before.findNodeById peer).isSome)
    (hafter : (after.findNodeById peer).isSome) :
    before.KeepsView after peer ∨ Republished config statements before after peer := by
  cases hchange with
  | keeps hvalid hkeeps => exact .inl (hkeeps peer)
  | routing op hquiet =>
    exact .inl (op.apply_keepsView config.wire.toAddressCodec config.engine
      hattested.valid (delivery_of_quiet hquiet peer) hbefore hafter)
  | published target typed seq mode now hvouched =>
    exact keepsView_or_republished_replace hattested.valid.nodup hvouched mode now peer
  | signed target set native mode now hvouched =>
    exact keepsView_or_republished_store hattested.valid.nodup hvouched mode now peer

variable (config) in
/-- The rule all tasks live by: the store is attested, statements are only added, and
an action changes the table as `TableChange` allows. -/
def ownerDiscipline : Discipline AddressStore where
  invariant store := Attested config store.statements store.table
  rely store later := store.statements ⊆ later.statements
  guarantee store next := next.statements = store.statements ∧
    TableChange config store.statements store.table next.table
  refl _ := List.Subset.refl _
  trans := List.Subset.trans
  kept := by
    rintro store next hattested ⟨hstatements, hchange⟩
    rw [hstatements]
    exact ⟨hattested.change hchange, List.Subset.refl _⟩

theorem guarantee_refl {store : AddressStore}
    (hattested : (ownerDiscipline config).invariant store) :
    (ownerDiscipline config).guarantee store store :=
  ⟨rfl, .keeps hattested.valid fun peer => .refl store.table peer⟩

end Changes

end SaorsaCore.Manager
