import SaorsaCore.Routing.AddressView

/-!
# Convergence of address publications

A peer publishes its addresses in two protocol versions, each with its own
sequence numbers, and the publications may reach the table in any order and mixed
with any other operation.  Read abstractly, the table keeps for each peer a
register that a publication overwrites exactly when its version is greater, where
versions are compared first by protocol and then by sequence.  The register of a
history is therefore the `argmax` of the versions delivered in it.  This file
shows that the table refines that register.
-/

namespace SaorsaCore.Routing

open RoutingTable Publication Prod.Lex RoutingOp List Option KBucket

section Histories

variable {Score : Type*} [LinearOrder Score] {codec : AddressCodec}
  (config : EngineConfig Score) {localId : PeerId} {k : ℕ}
  {table : RoutingTable} {peer : PeerId} {publication : Publication}

/-! ## The register of a peer -/

/-- The table stores exactly this publication for the peer. -/
structure RoutingTable.Represents (codec : AddressCodec) (table : RoutingTable)
    (peer : PeerId) (publication : Publication) : Prop where
  entry : table.addressPublications peer = some (publication.entry codec)
  record : (table.findNodeById peer).map (fun node => (node.addresses, node.addressTypes)) =
    some (KBucket.publishedAddresses publication.native)
  nonzero : publication.seq ≠ 0

/-- The abstract register of a peer: empty, or the publication stored. -/
def RoutingTable.Holds (codec : AddressCodec) (table : RoutingTable)
    (peer : PeerId) : Option Publication → Prop
  | none => table.addressPublications peer = none
  | some publication => table.Represents codec peer publication

/-- Writing to the register: a greater version wins. -/
def Publication.write (publication : Publication) : Option Publication → Option Publication
  | none => some publication
  | some current =>
    if current.version < publication.version then some publication
    else some current

theorem Publication.seq_entry (codec : AddressCodec) (publication : Publication) :
    (publication.entry codec).seq = publication.seq := by
  cases publication <;> rfl

namespace RoutingTable

theorem Represents.addressView (hrepresents : table.Represents codec peer publication) :
    table.addressView peer = some (publication.view codec) := by
  obtain ⟨node, hnode, hrecord⟩ := map_eq_some_iff.mp hrepresents.record
  rw [RoutingTable.addressView, hnode]
  simp only [publishSeqFor, transportAddressSet, hrepresents.entry, map_some, getD_some, bind_some,
    Publication.seq_entry, Publication.view, ← hrecord]

theorem Represents.hasAddressPublication (hrepresents : table.Represents codec peer publication) :
    table.hasAddressPublication peer = true := by
  simp [RoutingTable.hasAddressPublication, publishSeqFor, hrepresents.entry,
    Publication.seq_entry, hrepresents.nonzero]

variable {register : Option Publication}

theorem Holds.of_keepsView {after : RoutingTable} (hholds : table.Holds codec peer register)
    (hkeeps : table.KeepsView after peer) : after.Holds codec peer register := by
  cases register with
  | none => exact hkeeps.entry.trans hholds
  | some publication =>
    exact ⟨hkeeps.entry.trans hholds.entry,
      (hkeeps.record hholds.hasAddressPublication).trans hholds.record,
      hholds.nonzero⟩

variable {typed : List (MultiAddr × AddressType)}

/-- The record of the peer after a publication was applied. -/
private theorem record_of_rewrites {after : RoutingTable} {mode : AddressReplaceMode}
    {now : ℕ}
    (hrewrites : Rewrites table after peer (republishedNode typed mode now))
    (hpresent : (table.findNodeById peer).isSome) :
    (after.findNodeById peer).map (fun node => (node.addresses, node.addressTypes)) =
      some (publishedAddresses typed) := by
  obtain ⟨node, hnode⟩ := isSome_iff_exists.mp hpresent
  rw [hrewrites.findNode, if_pos rfl, hnode]
  rfl

/-- An accepted publication is what the table stores. -/
theorem AcceptsV1.represents {seq : ℕ}
    (haccepts : table.AcceptsV1 peer typed seq) (hnodup : table.NodupIds)
    (mode : AddressReplaceMode) (now : ℕ) :
    (table.replaceNodeAddressesWithMode peer typed seq mode now).1.Represents codec peer
      (.v1 seq typed) := by
  obtain ⟨hrewrites, hupdate⟩ := replaceNodeAddressesWithMode_applied hnodup haccepts mode now
  refine ⟨?_, record_of_rewrites hrewrites haccepts.2.2.1, haccepts.1⟩
  rw [hupdate, Function.update_self]
  rfl

theorem AcceptsV2.represents {native : List (MultiAddr × AddressType)}
    {set : TransportAddressSet} (haccepts : table.AcceptsV2 peer native set)
    (hnodup : table.NodupIds) (mode : AddressReplaceMode) (now : ℕ) :
    (table.storeTransportAddressSet codec peer set native mode now).1.Represents codec peer
      (.v2 set native) := by
  obtain ⟨hrewrites, hupdate⟩ :=
    storeTransportAddressSet_applied hnodup haccepts codec mode now
  refine ⟨?_, record_of_rewrites hrewrites haccepts.2.2.1, haccepts.1⟩
  rw [hupdate, Function.update_self]
  rfl

/-- A V1 publication is applied exactly when it is acceptable and overwrites the
register. -/
theorem Holds.acceptsV1_iff (hholds : table.Holds codec peer register)
    (hpresent : (table.findNodeById peer).isSome) {seq : ℕ} (hseq : seq ≠ 0)
    (typed : List (MultiAddr × AddressType)) :
    table.AcceptsV1 peer typed seq ↔ acceptsPublication typed = true ∧
        ∀ current, register = some current →
          current.version < (Publication.v1 seq typed).version := by
  rw [AcceptsV1]
  cases register with
  | none =>
    have hentry : table.addressPublications peer = none := hholds
    simp [hentry, hpresent, hseq]
  | some current =>
    rw [hholds.entry]
    cases current with
    | v1 stored other =>
      simp [hpresent, hseq, entry, version, toLex_lt_toLex, and_comm]
    | v2 set native =>
      simp [hpresent, hseq, entry, version, toLex_lt_toLex]

/-- The same for a V2 publication, which overwrites every V1 publication. -/
theorem Holds.acceptsV2_iff (hholds : table.Holds codec peer register)
    (hpresent : (table.findNodeById peer).isSome) {set : TransportAddressSet}
    (hseq : set.seq ≠ 0) (native : List (MultiAddr × AddressType)) :
    table.AcceptsV2 peer native set ↔ acceptsPublication native = true ∧
        ∀ current, register = some current →
          current.version < (Publication.v2 set native).version := by
  rw [AcceptsV2, transportAddressSet]
  cases register with
  | none =>
    have hentry : table.addressPublications peer = none := hholds
    simp [hentry, hpresent, hseq]
  | some current =>
    rw [hholds.entry]
    cases current with
    | v1 stored other =>
      simp [hpresent, hseq, entry, version, toLex_lt_toLex]
    | v2 stored other =>
      simp [hpresent, hseq, entry, version, toLex_lt_toLex, storedSet, and_comm]

end RoutingTable

variable {register : Option Publication}

theorem Publication.write_of_overwrites (hoverwrites : ∀ current, register = some current →
      current.version < publication.version) :
    publication.write register = some publication := by
  cases register with
  | none => rfl
  | some current => rw [write, if_pos (hoverwrites current rfl)]

theorem Publication.write_of_not_overwrites (hkept : ¬∀ current, register = some current →
      current.version < publication.version) : publication.write register = register := by
  cases register with
  | none => simp at hkept
  | some current =>
    rw [write, if_neg]
    intro hlt
    apply hkept
    rintro other ⟨⟩
    exact hlt

/-- Delivering a publication writes it to the register if it is acceptable. -/
theorem RoutingOp.apply_delivery (op : RoutingOp Score) (hvalid : table.Valid localId k)
    (hpresent : (table.findNodeById peer).isSome)
    (hdelivery : op.delivery peer = some publication) (hseq : publication.seq ≠ 0)
    (hholds : table.Holds codec peer register) :
    (op.apply codec config table).Holds codec peer
      (if publication.isAcceptable then publication.write register
        else register) := by
  -- Both protocols share one argument: applied means written, refused means
  -- that the table and the register stay as they are.
  have hrefused : ¬(acceptsPublication publication.native = true ∧
      ∀ current, register = some current → current.version < publication.version) →
      (if publication.isAcceptable then publication.write register
        else register) = register := by
    intro hnot
    rw [isAcceptable_eq]
    split
    · next hacceptable =>
        exact write_of_not_overwrites fun hoverwrites =>
          hnot ⟨hacceptable, hoverwrites⟩
    · rfl
  have happlied : (acceptsPublication publication.native = true ∧
      ∀ current, register = some current → current.version < publication.version) →
      (if publication.isAcceptable then publication.write register
        else register) = some publication := by
    rintro ⟨hacceptable, hoverwrites⟩
    rw [isAcceptable_eq, if_pos hacceptable, write_of_overwrites hoverwrites]
  cases op with
  | replace target typed seq mode now =>
    simp only [delivery, ite_none_right_eq_some, some.injEq] at hdelivery
    obtain ⟨rfl, rfl⟩ := hdelivery
    have hiff := hholds.acceptsV1_iff hpresent hseq typed
    simp only [apply]
    by_cases haccepts : table.AcceptsV1 target typed seq
    · rw [happlied (hiff.mp haccepts)]
      exact haccepts.represents hvalid.nodup mode now
    · rw [replaceNodeAddressesWithMode_refused haccepts, hrefused (haccepts ∘ hiff.mpr)]
      exact hholds
  | storeTransport target set native mode now =>
    simp only [delivery, ite_none_right_eq_some, some.injEq] at hdelivery
    obtain ⟨rfl, rfl⟩ := hdelivery
    have hiff := hholds.acceptsV2_iff hpresent hseq native
    simp only [apply]
    by_cases haccepts : table.AcceptsV2 target native set
    · rw [happlied (hiff.mp haccepts)]
      exact haccepts.represents hvalid.nodup mode now
    · rw [storeTransportAddressSet_refused haccepts, hrefused (haccepts ∘ hiff.mpr)]
      exact hholds
  | _ => cases hdelivery

/-- A publication that is stored after an operation was delivered by it or was stored
before, with the same view. -/
theorem RoutingOp.apply_represents (op : RoutingOp Score) (hvalid : table.Valid localId k)
    {entry : AddressPublication}
    (hentry : (op.apply codec config table).addressPublications peer = some entry) :
    (∃ publication, op.delivery peer = some publication ∧
      (op.apply codec config table).Represents codec peer publication) ∨
    table.KeepsView (op.apply codec config table) peer := by
  cases hdelivery : op.delivery peer with
  | none =>
    exact .inr (op.apply_keepsView_of_published codec config hvalid hdelivery hentry)
  | some publication =>
    cases op with
    | replace target typed seq mode now =>
      simp only [delivery, ite_none_right_eq_some, some.injEq] at hdelivery
      obtain ⟨rfl, rfl⟩ := hdelivery
      by_cases haccepts : table.AcceptsV1 target typed seq
      · exact .inl ⟨_, rfl, haccepts.represents hvalid.nodup mode now⟩
      · right
        rw [apply, replaceNodeAddressesWithMode_refused haccepts]
        exact .refl table target
    | storeTransport target set native mode now =>
      simp only [delivery, ite_none_right_eq_some, some.injEq] at hdelivery
      obtain ⟨rfl, rfl⟩ := hdelivery
      by_cases haccepts : table.AcceptsV2 target native set
      · exact .inl ⟨_, rfl, haccepts.represents hvalid.nodup mode now⟩
      · right
        rw [apply, storeTransportAddressSet_refused haccepts]
        exact .refl table target
    | _ => cases hdelivery

/-- Whatever publication a table stores was delivered to it, and is what the table
holds of the peer. -/
theorem RoutingTable.run_represents (localId : PeerId) (k now : ℕ)
    (ops : List (RoutingOp Score)) {entry : AddressPublication}
    (hentry : ((RoutingTable.new localId k now).run codec config ops).addressPublications
      peer = some entry) :
    ∃ op ∈ ops, ∃ publication, op.delivery peer = some publication ∧
      ((RoutingTable.new localId k now).run codec config ops).Represents codec peer
        publication := by
  induction ops using reverseRecOn generalizing entry with
  | nil => cases hentry
  | append_singleton ops op ih =>
    have hrun : (new localId k now).run codec config (ops ++ [op]) =
        op.apply codec config ((new localId k now).run codec config ops) := by
      simp [run]
    have hvalid := run_valid codec config ops (Valid.new localId k now)
    rw [hrun] at hentry ⊢
    rcases op.apply_represents config hvalid hentry with
      ⟨publication, hdelivery, hrepresents⟩ | hkeeps
    · exact ⟨op, by simp, publication, hdelivery, hrepresents⟩
    · obtain ⟨earlier, hearlier, publication, hdelivery, hrepresents⟩ :=
        ih (hkeeps.entry.symm.trans hentry)
      have hholds : (((new localId k now).run codec config ops)).Holds codec
        peer (some publication) := hrepresents
      exact ⟨earlier, mem_append_left _ hearlier, publication, hdelivery,
        hholds.of_keepsView hkeeps⟩

variable (codec)

/-- A history in which `peer` enters without a publication, never leaves, and
publishes with distinct nonzero sequences in each protocol version. -/
structure PeerHistory (peer : PeerId) (start : RoutingTable)
    (ops : List (RoutingOp Score)) : Prop where
  valid : ∃ localId k, start.Valid localId k
  fresh : start.addressPublications peer = none
  stays : ∀ earlier, earlier <+: ops → ((start.run codec config earlier).findNodeById peer).isSome
  nonzero : ∀ publication ∈ deliveries peer ops, publication.seq ≠ 0
  distinct : ((deliveries peer ops).map Publication.version).Nodup

/-- The acceptable publications of a history, in order of delivery. -/
def acceptable (peer : PeerId) (ops : List (RoutingOp Score)) : List Publication :=
  (deliveries peer ops).filter Publication.isAcceptable

variable {config codec} {start : RoutingTable} {ops : List (RoutingOp Score)}

section

variable (hhistory : PeerHistory codec config peer start ops)
include hhistory

/-- The refinement: along a history the register is the greatest acceptable
version delivered so far. -/
theorem PeerHistory.holds : (start.run codec config ops).Holds codec peer
      ((acceptable peer ops).argmax Publication.version) := by
  obtain ⟨⟨localId, k, hvalid⟩, hfresh, hstays, hnonzero, -⟩ := hhistory
  induction ops using reverseRecOn with
  | nil => exact hfresh
  | append_singleton ops op ih =>
    have hbefore := hstays ops (prefix_append ops [op])
    have hafter := hstays (ops ++ [op]) prefix_rfl
    have hrun : start.run codec config (ops ++ [op]) =
        op.apply codec config (start.run codec config ops) := by
      simp [run]
    have hreached := run_valid codec config ops hvalid
    have hholds := ih (fun earlier hearlier =>
        hstays earlier (hearlier.trans (prefix_append ops [op])))
      (fun publication hmem => hnonzero publication (by
        rw [deliveries, filterMap_append]
        exact mem_append_left _ hmem))
    rw [hrun] at hafter ⊢
    cases hdelivery : op.delivery peer with
    | none =>
      have hsame : acceptable peer (ops ++ [op]) = acceptable peer ops := by
        simp [acceptable, deliveries, hdelivery]
      rw [hsame]
      exact hholds.of_keepsView (op.apply_keepsView codec config hreached hdelivery hbefore hafter)
    | some publication =>
      have hseq : publication.seq ≠ 0 := hnonzero publication (by
        simp [deliveries, hdelivery])
      have happlied := op.apply_delivery config hreached hbefore hdelivery hseq hholds
      by_cases hacceptable : publication.isAcceptable
      · have happend : acceptable peer (ops ++ [op]) = acceptable peer ops ++ [publication] := by
          simp [acceptable, deliveries, hdelivery, hacceptable]
        rw [if_pos hacceptable] at happlied
        rw [happend, argmax_concat]
        cases hregister : (acceptable peer ops).argmax version with
        | none => simpa [hregister, write] using happlied
        | some current =>
          simpa [hregister, write] using happlied
      · have hsame : acceptable peer (ops ++ [op]) = acceptable peer ops := by
          simp [acceptable, deliveries, hdelivery, hacceptable]
        rw [if_neg hacceptable] at happlied
        rw [hsame]
        exact happlied

/-- With an acceptable publication delivered, the final view is that of the
greatest version. -/
theorem PeerHistory.exists_newest (hdelivered : acceptable peer ops ≠ []) :
    ∃ newest ∈ acceptable peer ops,
      (∀ other ∈ acceptable peer ops, other.version ≤ newest.version) ∧
        (start.run codec config ops).addressView peer = some (newest.view codec) := by
  have hholds := hhistory.holds
  cases hregister : (acceptable peer ops).argmax version with
  | none => exact absurd (argmax_eq_none.mp hregister) hdelivered
  | some newest =>
    rw [hregister] at hholds
    exact ⟨newest, argmax_mem hregister, fun other hother => le_of_mem_argmax hother hregister,
      hholds.addressView⟩

/-- Of two publications of a history with one version there is only one. -/
theorem PeerHistory.eq_of_version_eq
    {left right : Publication} (hleft : left ∈ acceptable peer ops)
    (hright : right ∈ acceptable peer ops)
    (hversion : left.version = right.version) : left = right :=
  List.inj_on_of_nodup_map hhistory.distinct (List.mem_of_mem_filter hleft)
    (List.mem_of_mem_filter hright) hversion

end

/-- The newest acceptable V2 publication, or without one the newest acceptable
V1 publication, decides the final view of a peer, so that the order of delivery
and all other operations in between do not matter. -/
theorem PeerHistory.addressView_eq_newest
    (hhistory : PeerHistory codec config peer start ops) :
    ((∃ set native, Publication.v2 set native ∈ acceptable peer ops) →
      ∃ set native, Publication.v2 set native ∈ acceptable peer ops ∧
        (∀ other otherNative,
          Publication.v2 other otherNative ∈ acceptable peer ops →
            other.seq ≤ set.seq) ∧
        (start.run codec config ops).addressView peer =
          some ((Publication.v2 set native).view codec)) ∧
    ((¬∃ set native, Publication.v2 set native ∈ acceptable peer ops) →
      (∃ seq typed, Publication.v1 seq typed ∈ acceptable peer ops) →
      ∃ seq typed, Publication.v1 seq typed ∈ acceptable peer ops ∧
        (∀ other otherTyped,
          Publication.v1 other otherTyped ∈ acceptable peer ops →
            other ≤ seq) ∧
        (start.run codec config ops).addressView peer =
          some ((Publication.v1 seq typed).view codec)) ∧
    (∀ (start' : RoutingTable) (ops' : List (RoutingOp Score)),
      PeerHistory codec config peer start' ops' →
      (deliveries peer ops').Perm (deliveries peer ops) →
      acceptable peer ops ≠ [] →
        (start'.run codec config ops').addressView peer =
          (start.run codec config ops).addressView peer) := by
  refine ⟨?_, ?_, ?_⟩
  · rintro ⟨set, native, hmem⟩
    obtain ⟨newest, hnewest, hgreatest, hview⟩ :=
      hhistory.exists_newest (ne_nil_of_mem hmem)
    cases newest with
    | v1 seq typed =>
      have hle := hgreatest _ hmem
      simp [version, toLex_le_toLex] at hle
    | v2 newestSet newestNative =>
      refine ⟨newestSet, newestNative, hnewest, ?_, hview⟩
      intro other otherNative hother
      have hle := hgreatest _ hother
      simpa [version, toLex_le_toLex] using hle
  · rintro hnone ⟨seq, typed, hmem⟩
    obtain ⟨newest, hnewest, hgreatest, hview⟩ :=
      hhistory.exists_newest (ne_nil_of_mem hmem)
    cases newest with
    | v1 newestSeq newestTyped =>
      refine ⟨newestSeq, newestTyped, hnewest, ?_, hview⟩
      intro other otherTyped hother
      have hle := hgreatest _ hother
      simpa [version, toLex_le_toLex] using hle
    | v2 set native => exact absurd ⟨set, native, hnewest⟩ hnone
  · intro start' ops' hhistory' hperm hdelivered
    have hacceptable : (acceptable peer ops').Perm (acceptable peer ops) :=
      hperm.filter _
    have hdelivered' : acceptable peer ops' ≠ [] := by
      intro hnil
      rw [hnil] at hacceptable
      exact hdelivered hacceptable.nil_eq.symm
    obtain ⟨newest, hnewest, hgreatest, hview⟩ :=
      hhistory.exists_newest hdelivered
    obtain ⟨newest', hnewest', hgreatest', hview'⟩ :=
      hhistory'.exists_newest hdelivered'
    have hmem := hacceptable.mem_iff.mp hnewest'
    have hversion : newest'.version = newest.version :=
      le_antisymm (hgreatest _ hmem) (hgreatest' _ (hacceptable.mem_iff.mpr hnewest))
    rw [hview, hview', hhistory.eq_of_version_eq hmem hnewest hversion]

end Histories

/-! A peer publishes `203.0.113.9` in V1, then `203.0.113.10` in V2 with a lower
sequence, and is touched and published again in V1 in between. -/

section Example

private def exampleAddress (lastOctet : BitVec 8) : MultiAddr :=
  .quic (.v4 (0xcb0071#24 ++ lastOctet) 9000)

private def exampleCodec : AddressCodec :=
  { decode := fun bytes => if bytes = [10] then some (exampleAddress 10) else none }

private def exampleSet : TransportAddressSet :=
  { seq := 3
    records := [{ transport := 1, reachability := 2, address := [10] }]
    proof := none }

private def exampleStart : RoutingTable :=
  (RoutingTable.new 0 4 0).run exampleCodec (.withDefaults 4)
    [.insert { id := 1, addresses := [exampleAddress 8], addressTypes := [],
               lastSeen := 0 } 0]

private def exampleOps : List (RoutingOp ℕ) :=
  [.replace 1 [(exampleAddress 9, .direct)] 5 .authenticatedSelfPublish 1,
    .touch 1 (some (exampleAddress 8)) .unverified 2,
    .storeTransport 1 exampleSet [(exampleAddress 10, .direct)] .authenticatedSelfPublish 3,
    .replace 1 [(exampleAddress 11, .relay)] 9 .gossipedRecord 4]

private theorem exampleHistory :
    PeerHistory exampleCodec (.withDefaults 4) 1 exampleStart exampleOps where
  valid := ⟨0, 4, RoutingTable.run_valid exampleCodec (.withDefaults 4) _
    (RoutingTable.Valid.new 0 4 0)⟩
  fresh := by decide +kernel
  stays earlier hearlier := by
    have hall : ∀ ops ∈ exampleOps.inits,
        ((exampleStart.run exampleCodec (.withDefaults 4) ops).findNodeById
          1).isSome := by decide +kernel
    exact hall earlier ((mem_inits _ _).mpr hearlier)
  nonzero := by decide +kernel
  distinct := by decide +kernel

theorem exampleHistory_addressView :
    ∃ set native,
      Publication.v2 set native ∈ acceptable (1 : PeerId) exampleOps ∧
        (∀ other otherNative,
          Publication.v2 other otherNative ∈ acceptable (1 : PeerId) exampleOps →
            other.seq ≤ set.seq) ∧
        (exampleStart.run exampleCodec (.withDefaults 4) exampleOps).addressView 1 =
          some ((Publication.v2 set native).view exampleCodec) :=
  exampleHistory.addressView_eq_newest.1
    ⟨exampleSet, [(exampleAddress 10, .direct)], by decide +kernel⟩

end Example

end SaorsaCore.Routing
