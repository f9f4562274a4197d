import SaorsaCore.Routing.RecordInvariants

/-!
# Which addresses a record can hold

Two filters are meant to keep addresses out of the table: wildcard addresses and port
zero at every store, loopback addresses at the entrance of an engine that does not
allow them.  The first one looks at the raw address although every reader compares
canonical ones, and the second one leaves merges to a guard that compares the address
with the others of its record.  This file says what the two filters do keep out.
-/

namespace SaorsaCore

open List IpAddr MultiAddr

/-- `::ffff:0.0.0.0`, which canonicalisation turns into `0.0.0.0`. -/
def IpAddr.mappedUnspecified : IpAddr := .v6 0xffff00000000#128

theorem Ipv6Addr.eq_of_toIpv4Mapped_eq_zero {ip : Ipv6Addr}
    (hmapped : ip.toIpv4Mapped = some 0#32) : ip = 0xffff00000000#128 := by
  rw [toIpv4Mapped, Option.ite_none_right_eq_some, Option.some.injEq, beq_iff_eq] at hmapped
  obtain ⟨hhigh, hlow⟩ := hmapped
  have hhigh := congrArg BitVec.toNat hhigh
  have hlow := congrArg BitVec.toNat hlow
  simp only [BitVec.extractLsb'_toNat, BitVec.toNat_ofNat, Nat.shiftRight_eq_div_pow] at hhigh hlow
  apply BitVec.eq_of_toNat_eq
  simp only [BitVec.toNat_ofNat]
  have hbound := ip.isLt
  omega

/-- Only the mapped wildcard becomes unspecified by canonicalisation. -/
theorem IpAddr.isUnspecified_canonicalize {ip : IpAddr}
    (hunspecified : ip.canonicalize.isUnspecified = true) :
    ip.isUnspecified = true ∨ ip = mappedUnspecified := by
  cases ip with
  | v4 ip => exact .inl hunspecified
  | v6 ip =>
    rw [canonicalize] at hunspecified
    cases hmapped : ip.toIpv4Mapped with
    | none =>
      rw [hmapped] at hunspecified
      exact .inl hunspecified
    | some low =>
      rw [hmapped] at hunspecified
      have hlow : low = 0#32 := beq_iff_eq.mp hunspecified
      rw [hlow] at hmapped
      exact .inr (congrArg v6 (Ipv6Addr.eq_of_toIpv4Mapped_eq_zero hmapped))

/-- The address is a loopback address to the readers of the table. -/
def MultiAddr.reachesLoopback (address : MultiAddr) : Bool :=
  address.canonicalIp.any IpAddr.isLoopback

namespace Routing

/-! ## Address by address -/

/-- All addresses of a list have a property. -/
def AllAddresses (good : MultiAddr → Prop) (typed : List (MultiAddr × AddressType)) : Prop :=
  ∀ entry ∈ typed, good entry.1

/-- Storable addresses that are mergeable everywhere stay so in the records. -/
theorem allAddresses_rule {good mergeable : MultiAddr → Prop}
    (hgood : ∀ address, mergeable address → address.isStorable = true → good address) :
    RecordRule mergeable (AllAddresses good) (AllAddresses mergeable) (AllAddresses mergeable) where
  sublist hall hsublist entry hentry := hall entry (hsublist.subset hentry)
  inserted node hmergeable entry hentry :=
    hgood entry.1 (hmergeable entry hentry) (KBucket.mem_storableTyped hentry).2
  published typed hmergeable entry hentry := by
    have hpublished := (mem_insertionSort _).mp hentry
    exact hgood entry.1 (hmergeable entry hpublished) (KBucket.mem_publishedTyped hpublished).2
  merged address advertised hmergeable hstorable hall _ hsplit _ _ := by
    intro entry hentry
    rw [perm_middle.mem_iff, mem_cons, hsplit] at hentry
    rcases hentry with rfl | hkept
    · exact hgood address hmergeable hstorable
    · exact hall entry (mem_of_mem_eraseP hkept)

theorem NodeInfo.Stored.good {good : MultiAddr → Prop} {node : NodeInfo}
    (hstored : node.Stored (AllAddresses good)) {address : MultiAddr}
    (haddress : address ∈ node.addresses) : good address := by
  rw [← hstored.parallel.map_fst_typed] at haddress
  obtain ⟨entry, hentry, rfl⟩ := mem_map.mp haddress
  exact hstored.draft entry hentry

theorem NodeInfo.mem_retainStorableAddresses {node : NodeInfo} {address : MultiAddr}
    (haddress : address ∈ node.addresses) (hstorable : address.isStorable = true) :
    address ∈ node.retainStorableAddresses.addresses := by
  have hlength : node.addresses.length ≤ node.paddedTypes.length := by
    rw [paddedTypes, length_append, length_replicate]
    omega
  rw [← map_fst_zip hlength] at haddress
  obtain ⟨pair, hpair, rfl⟩ := mem_map.mp haddress
  exact mem_map_of_mem (mem_filter.mpr ⟨hpair, hstorable⟩)

section Results

variable {Score : Type*}

/-- The addresses among the arguments of a call. -/
def RoutingOp.addresses : RoutingOp Score → List MultiAddr
  | .admission _ _ incoming => incoming.addresses
  | .reEvaluate _ candidate _ => candidate.addresses
  | .insert node _ => node.addresses
  | .remove _ => []
  | .touch _ address _ _ => address.toList
  | .touchFast _ address _ _ => address.toList
  | .legacyRelayHint _ address _ => [address]
  | .upgradeOnly _ address _ => [address]
  | .replace _ typed _ _ _ => typed.map Prod.fst
  | .storeTransport _ _ native _ _ => native.map Prod.fst

/-- Whatever the table, a call writes and merges addresses of its arguments only. -/
theorem RoutingOp.writes_merges {mergeable : MultiAddr → Prop} {op : RoutingOp Score}
    (hmergeable : ∀ address ∈ op.addresses, mergeable address) (table : RoutingTable) :
    op.Writes (AllAddresses mergeable) (AllAddresses mergeable) table ∧
      op.Merges mergeable table := by
  have hoffers {node : NodeInfo} (hnode : ∀ address ∈ node.addresses, mergeable address) :
      node.Offers mergeable := fun address haddress _ => hnode address haddress
  have hinserted {node : NodeInfo} (hnode : ∀ address ∈ node.addresses, mergeable address) :
      AllAddresses mergeable (KBucket.storableTyped node) :=
    fun entry hentry => hnode entry.1 (KBucket.mem_storableTyped hentry).1
  have hpublished {typed : List (MultiAddr × AddressType)}
      (htyped : ∀ address ∈ typed.map Prod.fst, mergeable address) :
      AllAddresses mergeable (KBucket.publishedTyped typed) :=
    fun entry hentry => htyped entry.1 (KBucket.mem_publishedTyped hentry).1
  have hmerged {peer : PeerId} {address : MultiAddr} (haddress : mergeable address) :
      table.Takes mergeable peer (some address) :=
    RoutingTable.takes_of_forall (by rintro taken ⟨⟩ _; exact haddress)
  cases op with
  | admission order observation incoming =>
    refine ⟨fun _ => hinserted ?_, hoffers hmergeable⟩
    intro address haddress
    obtain ⟨pair, hpair, rfl⟩ := mem_map.mp haddress
    exact hmergeable pair.1 (NodeInfo.fst_mem_of_mem_storable hpair).1
  | reEvaluate observation candidate ips =>
    exact ⟨fun _ => hinserted hmergeable, hoffers hmergeable⟩
  | insert node now => exact ⟨fun _ => hinserted hmergeable, hoffers hmergeable⟩
  | remove peer => exact ⟨trivial, trivial⟩
  | touch peer address addressType now =>
    refine ⟨trivial, RoutingTable.takes_of_forall fun taken htaken _ => ?_⟩
    exact hmergeable taken (Option.mem_toList.mpr htaken)
  | touchFast peer address addressType now => exact ⟨trivial, trivial⟩
  | legacyRelayHint peer address now =>
    exact ⟨trivial, hmerged (hmergeable address (mem_singleton_self _))⟩
  | upgradeOnly peer address addressType =>
    exact ⟨trivial, hmerged (hmergeable address (mem_singleton_self _))⟩
  | replace peer typed seq mode now => exact ⟨hpublished hmergeable, trivial⟩
  | storeTransport peer set native mode now => exact ⟨hpublished hmergeable, trivial⟩

variable [LinearOrder Score] (codec : AddressCodec) (config : EngineConfig Score)

/-! ## Wildcard addresses -/

/-- An IP address with a nonzero port and a canonical IP that is not the wildcard. -/
def Specified (address : MultiAddr) : Prop :=
  ∀ socket, address.socketAddr = some socket →
    socket.port ≠ 0 ∧ socket.ip.canonicalize.isUnspecified = false

theorem specified_of_isStorable {address : MultiAddr}
    (hunmapped : address.ip ≠ some mappedUnspecified)
    (hstorable : address.isStorable = true) : Specified address := by
  intro socket hsocket
  rw [isStorable, hsocket, Bool.and_eq_true, Bool.not_eq_true', bne_iff_ne] at hstorable
  obtain ⟨hspecified, hport⟩ := hstorable
  refine ⟨hport, Bool.eq_false_iff.mpr fun hunspecified => ?_⟩
  rcases isUnspecified_canonicalize hunspecified with hraw | hmapped
  · rw [hspecified] at hraw
    cases hraw
  · exact hunmapped (by rw [ip, hsocket, Option.map_some, hmapped])

/-- If no call is given the mapped wildcard, no record holds a wildcard or a port
zero. -/
theorem RoutingTable.run_new_specified (localId : PeerId) (k now : ℕ)
    (ops : List (RoutingOp Score))
    (hunmapped : ∀ op ∈ ops, ∀ address ∈ op.addresses,
      address.ip ≠ some IpAddr.mappedUnspecified) :
    ∀ node ∈ ((RoutingTable.new localId k now).run codec config ops).allNodes,
      ∀ address ∈ node.addresses, Specified address := by
  intro node hmem address haddress
  have hrule := allAddresses_rule fun _ => specified_of_isStorable
  have hkeeps := hrule.run_keeps codec config localId k now
    fun op hop table => RoutingOp.writes_merges (hunmapped op hop) table
  exact (hkeeps.mem_allNodes hmem).good haddress

theorem entering_specified :
    (exampleApply (RoutingTable.new 0 20 0)
        (entering [(0xcb007109, .direct)])).allNodes.map NodeInfo.addresses =
          [[.quic (.v4 0xcb007109 9000)]] ∧
      ∀ node ∈ (exampleApply (RoutingTable.new 0 20 0)
        (entering [(0xcb007109, .direct)])).allNodes,
        ∀ address ∈ node.addresses, Specified address :=
  ⟨by decide +kernel, RoutingTable.run_new_specified { decode := fun _ => none }
    (EngineConfig.withDefaults 20) 0 20 0 [entering [(0xcb007109, .direct)]]
    (by decide +kernel)⟩

/-- A touch merges the mapped wildcard. -/
theorem mapped_wildcard_stored :
    ¬∀ node ∈ ((RoutingTable.new 0 20 0).run { decode := fun _ => none }
        (EngineConfig.withDefaults 20)
        [entering [(0xcb007109, .unverified)],
          .touch 1 (some (.quic (.v6 0xffff00000000 9000 0 0))) .unverified 1]).allNodes,
      ∀ address ∈ node.addresses, Specified address := by
  intro hall
  have hstored : ((RoutingTable.new 0 20 0).run { decode := fun _ => none }
      (EngineConfig.withDefaults 20)
      [entering [(0xcb007109, .unverified)],
        .touch 1 (some (.quic (.v6 0xffff00000000 9000 0 0))) .unverified 1]).allNodes.any
      (fun node => node.addresses.contains (.quic (.v6 0xffff00000000 9000 0 0))) = true := by
    decide +kernel
  obtain ⟨node, hmem, haddress⟩ := any_eq_true.mp hstored
  have hspecified := hall node hmem _ (contains_iff_mem.mp haddress) _ rfl
  exact absurd hspecified.2 (by decide)

/-! ## Loopback addresses -/

/-- The calls of the engine on its table that publish in V1 or not at all: only
`filter_publish_address_set` passes lists to `replace_node_addresses`, and a candidate
is evaluated again with the IPs it was first evaluated with.  `touch_node_typed` is
the fast path and, if that does not suffice, the slow path; other calls may come in
between. -/
def RoutingOp.IsEngineCall : RoutingOp Score → Prop
  | .reEvaluate _ candidate ips => ∃ order : HashOrder IpAddr,
    ips = order.arrange candidate.allIps
  | .replace _ typed _ _ _ => ∃ offered, config.filterPublishAddressSet offered = some typed
  | .insert _ _ => False
  | .storeTransport _ _ _ _ _ => False
  | _ => True

/-- A loopback address is offered only for a peer that has published, or whose record
names another IP. -/
def RoutingTable.GuardsLoopback (table : RoutingTable) (peer : PeerId)
    (address : Option MultiAddr) : Prop :=
  ∀ offered ∈ address, offered.reachesLoopback = true → table.hasAddressPublication peer = true ∨
      ∀ node, table.findNodeById peer = some node →
        ∃ known ∈ node.addresses, known.canonicalIp.any (fun ip => !ip.isLoopback) = true

def RoutingOp.GuardsLoopback (table : RoutingTable) : RoutingOp Score → Prop
  | .touch peer address _ _ => table.GuardsLoopback peer address
  | .legacyRelayHint peer address _ => table.GuardsLoopback peer (some address)
  | .upgradeOnly peer address _ => table.GuardsLoopback peer (some address)
  | _ => True

omit [LinearOrder Score] in
theorem RoutingTable.GuardsLoopback.takes {table : RoutingTable} {peer : PeerId}
    {address : Option MultiAddr} (hguards : table.GuardsLoopback peer address) :
    table.Takes (fun taken => taken.reachesLoopback = false) peer address := by
  intro node hfind taken htaken _ hskips
  rw [observedAddress] at htaken
  split at htaken
  · cases htaken
  · next hunpublished =>
      rw [Bool.eq_false_iff]
      intro hloopback
      rcases hguards taken htaken hloopback with hpublished | hnamed
      · exact hunpublished hpublished
      · obtain ⟨known, hknown, hother⟩ := hnamed node hfind
        -- The guard of the merge would have skipped the address.
        rw [NodeInfo.skipsLoopback, Bool.and_eq_false_iff] at hskips
        rcases hskips with hskips | hskips
        · rw [← reachesLoopback, hloopback] at hskips
          cases hskips
        · exact any_eq_false.mp hskips known hknown hother

section

variable (hdisallowed : config.allowLoopback = false)
include hdisallowed

omit [LinearOrder Score] in
theorem EngineConfig.filterPublishAddressSet_loopback
    {offered typed : List (MultiAddr × AddressType)}
    (hfiltered : config.filterPublishAddressSet offered = some typed) :
    ∀ address ∈ typed.map Prod.fst, address.reachesLoopback = false := by
  rw [filterPublishAddressSet, Option.ite_none_left_eq_some, Option.some.injEq] at hfiltered
  obtain ⟨-, rfl⟩ := hfiltered
  intro address haddress
  simp only [map_map, mem_map, mem_filter, hdisallowed, Bool.false_or,
    Bool.not_eq_true'] at haddress
  obtain ⟨pair, ⟨-, hother⟩, rfl⟩ := haddress
  exact hother

/-- A candidate with a loopback address is turned away. -/
theorem EngineConfig.addWithDiversity_loopback
    (observation : Observation Score) (table : RoutingTable) (node : NodeInfo)
    {ips : List IpAddr} (hloopback : ips.any isLoopback = true)
    (allowStaleRevalidation : Bool) :
    (config.addWithDiversity observation table node ips allowStaleRevalidation).1 = table := by
  simp only [addWithDiversity, hdisallowed, hloopback]
  split <;> rfl

theorem EngineConfig.addNode_loopback
    (observation : Observation Score) (order : HashOrder IpAddr) (table : RoutingTable)
    (incoming : NodeInfo)
    (hloopback : incoming.retainStorableAddresses.allIps.any isLoopback = true) :
    (config.addNode observation order table incoming).1 = table := by
  have hips : (order.arrange incoming.retainStorableAddresses.allIps).any isLoopback = true := by
    rw [(order.perm _).any_eq]
    exact hloopback
  simp only [addNode]
  split
  · rfl
  · split
    · rfl
    · split
      · next hempty =>
          rw [isEmpty_iff.mp hempty] at hips
          cases hips
      · exact config.addWithDiversity_loopback hdisallowed observation table _ hips true

theorem EngineConfig.reEvaluateAdmission_loopback
    (observation : Observation Score) (table : RoutingTable) (candidate : NodeInfo)
    {ips : List IpAddr} (hloopback : ips.any isLoopback = true) :
    (config.reEvaluateAdmission observation table candidate ips).1 = table := by
  have hsame := config.addWithDiversity_loopback hdisallowed observation table candidate
    hloopback false
  rw [reEvaluateAdmission]
  split <;> next heq => simpa [heq] using hsame

end

omit [LinearOrder Score] in
theorem NodeInfo.reachesLoopback_of_allIps {node : NodeInfo}
    (hother : node.allIps.any isLoopback = false) :
    ∀ address ∈ node.addresses, address.reachesLoopback = false := by
  intro address haddress
  rw [Bool.eq_false_iff]
  intro hloopback
  obtain ⟨ip, hip, hloopback⟩ := (Option.any_eq_true _ _).mp hloopback
  have hmem : ip ∈ node.allIps :=
    mem_dedup.mpr (mem_filterMap.mpr ⟨address, haddress, hip⟩)
  exact any_eq_false.mp hother ip hmem hloopback

/-- A call of the engine leaves the table alone, or writes and merges no loopback
address. -/
theorem RoutingOp.IsEngineCall.writes_merges (hdisallowed : config.allowLoopback = false)
    {op : RoutingOp Score} (hcall : op.IsEngineCall config) {table : RoutingTable}
    (hguards : op.GuardsLoopback table) :
    op.apply codec config table = table ∨
      op.Writes (AllAddresses fun address => address.reachesLoopback = false)
          (AllAddresses fun address => address.reachesLoopback = false) table ∧
        op.Merges (fun address => address.reachesLoopback = false) table := by
  cases op with
  | admission order observation incoming =>
    cases hloopback : incoming.retainStorableAddresses.allIps.any isLoopback with
    | true =>
      exact .inl (config.addNode_loopback hdisallowed observation order table incoming hloopback)
    | false =>
      have hother := NodeInfo.reachesLoopback_of_allIps hloopback
      refine .inr ⟨fun _ entry hentry => ?_, fun address haddress hstorable => ?_⟩
      · exact hother entry.1 (KBucket.mem_storableTyped hentry).1
      · exact hother address (NodeInfo.mem_retainStorableAddresses haddress hstorable)
  | reEvaluate observation candidate ips =>
    obtain ⟨order, rfl⟩ := hcall
    cases hloopback : candidate.allIps.any isLoopback with
    | true =>
      rw [← (order.perm candidate.allIps).any_eq] at hloopback
      exact .inl (config.reEvaluateAdmission_loopback hdisallowed observation table candidate
        hloopback)
    | false =>
      refine .inr (RoutingOp.writes_merges ?_ table)
      exact NodeInfo.reachesLoopback_of_allIps hloopback
  | replace peer typed seq mode now =>
    obtain ⟨offered, hfiltered⟩ := hcall
    refine .inr (RoutingOp.writes_merges ?_ table)
    exact config.filterPublishAddressSet_loopback hdisallowed hfiltered
  | touch peer address addressType now => exact .inr ⟨trivial, hguards.takes⟩
  | legacyRelayHint peer address now => exact .inr ⟨trivial, hguards.takes⟩
  | upgradeOnly peer address addressType => exact .inr ⟨trivial, hguards.takes⟩
  | touchFast peer address addressType now => exact .inr ⟨trivial, trivial⟩
  | remove peer => exact .inr ⟨trivial, trivial⟩
  | insert node now => exact hcall.elim
  | storeTransport peer set native mode now => exact hcall.elim

/-- If loopback addresses are offered only where the guard of the merge skips them, no
record holds one. -/
theorem RoutingTable.reaches_no_loopback (hdisallowed : config.allowLoopback = false)
    {localId : PeerId} {k now : ℕ} {table : RoutingTable}
    (hreaches : Transition.Reaches
      (fun table op => some (RoutingOp.apply codec config table op))
      (fun table op => op.IsEngineCall config ∧ op.GuardsLoopback table)
      (RoutingTable.new localId k now) table) :
    ∀ node ∈ table.allNodes, ∀ address ∈ node.addresses, address.reachesLoopback = false := by
  have hkeeps : table.Keeps (AllAddresses fun address => address.reachesLoopback = false)
      localId k := by
    apply hreaches.invariant (keeps_new now)
    rintro table op next hkeeps ⟨hcall, hguards⟩ ⟨⟩
    rcases hcall.writes_merges codec config hdisallowed hguards with hsame | ⟨hwrites, hmerges⟩
    · rw [hsame]
      exact hkeeps
    · exact op.apply_keeps codec config (allAddresses_rule fun _ hother _ => hother) hwrites
        hmerges hkeeps
  intro node hmem address haddress
  exact (hkeeps.mem_allNodes hmem).good haddress

/-- `127.0.0.1` on the QUIC port. -/
def loopbackAddress : MultiAddr := .quic (.v4 0x7f000001 9000)

/-- A peer with a public address is offered a loopback address. -/
theorem offered_loopback_skipped :
    (EngineConfig.withDefaults 20).allowLoopback = false ∧
      ∀ node ∈ (exampleApply (exampleApply (RoutingTable.new 0 20 0)
          (entering [(0xcb007109, .direct)]))
          (.touch 1 (some loopbackAddress) .unverified 1)).allNodes,
        ∀ address ∈ node.addresses, address.reachesLoopback = false := by
  have hguards : (exampleApply (RoutingTable.new 0 20 0)
      (entering [(0xcb007109, .direct)])).GuardsLoopback 1 (some loopbackAddress) := by
    intro offered _ _
    right
    intro node hfind
    have hrecord : ((exampleApply (RoutingTable.new 0 20 0)
        (entering [(0xcb007109, .direct)])).findNodeById 1).map NodeInfo.addresses =
          some [.quic (.v4 0xcb007109 9000)] := by
      decide +kernel
    rw [hfind, Option.map_some, Option.some.injEq] at hrecord
    exact ⟨_, hrecord ▸ mem_singleton_self _, by decide⟩
  have hentering : (entering [(0xcb007109, .direct)]).IsEngineCall
      (EngineConfig.withDefaults 20) ∧ (entering [(0xcb007109, .direct)]).GuardsLoopback
        (RoutingTable.new 0 20 0) := ⟨trivial, trivial⟩
  have htouch : (RoutingOp.touch 1 (some loopbackAddress) .unverified 1).IsEngineCall
      (EngineConfig.withDefaults 20) := trivial
  refine ⟨rfl, ?_⟩
  apply RoutingTable.reaches_no_loopback { decode := fun _ => none }
    (EngineConfig.withDefaults 20) rfl
  exact .tail (.tail .refl hentering rfl) ⟨htouch, hguards⟩ rfl

/-- The admission of a peer that is reached over Bluetooth. -/
def enteringOverBluetooth : RoutingOp ℕ :=
  .admission (HashOrder.insertion _) { trustScore := fun _ => 50, now := 0 }
    { id := 1
      addresses := [{ transport := .bluetooth 1 1, peerId := none }]
      addressTypes := [.direct]
      lastSeen := 0 }

/-- A record without an IP address takes a loopback address, though the engine does not
allow any. -/
theorem loopback_stored_without_ip :
    (EngineConfig.withDefaults 20).allowLoopback = false ∧
      enteringOverBluetooth.IsEngineCall (EngineConfig.withDefaults 20) ∧
      (RoutingOp.touch 1 (some loopbackAddress) .unverified 1).IsEngineCall
        (EngineConfig.withDefaults 20) ∧
      ¬∀ node ∈ (exampleApply (exampleApply (RoutingTable.new 0 20 0) enteringOverBluetooth)
          (.touch 1 (some loopbackAddress) .unverified 1)).allNodes,
        ∀ address ∈ node.addresses, address.reachesLoopback = false := by
  refine ⟨rfl, trivial, trivial, ?_⟩
  decide +kernel

end Results

end Routing

end SaorsaCore
