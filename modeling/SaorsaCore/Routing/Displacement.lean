import SaorsaCore.Routing.Refusal

/-!
# Who loses a slot to whom

An admission evicts peers for two reasons.  A closer candidate takes the slot of a peer
in its subnet, unless that peer is alive and well trusted; and a candidate with enough
trust takes the slot of the least trusted peer of a full bucket.  The plan is made in
three phases over different groups of peers, and every eviction of every phase has one
of the two reasons.
-/

namespace SaorsaCore.Routing

open List RoutingTable HashOrder

namespace EngineConfig

variable {Score : Type*} [LinearOrder Score] (config : EngineConfig Score)
  (observation : Observation Score)

/-- The peer is farther than the candidate, on the same IP or in the same subnet, and not
protected by its trust. -/
structure InTheWay (localId : PeerId) (candidate peer : NodeInfo) : Prop where
  shares : ∃ ip ∈ candidate.allIps, ∃ existing ∈ peer.allIps,
    ip.isLoopback = false ∧ existing.isLoopback = false ∧
      (existing = ip ∨ existing.subnet = ip.subnet)
  farther : xorDistance localId candidate.id < xorDistance localId peer.id
  unprotected : observation.trustScore peer.id < config.protectionThreshold ∨
    config.isStale observation peer = true

/-- The peer is the least trusted one of the full bucket that the trusted candidate
belongs to. -/
structure Distrusted (bucket : KBucket) (candidate peer : NodeInfo) : Prop where
  mem : peer ∈ bucket.nodes
  full : bucket.nodes.length = bucket.maxSize
  minimal : ∀ other ∈ bucket.nodes, observation.trustScore peer.id ≤ observation.trustScore other.id
  low : observation.trustScore peer.id < config.swapThreshold
  trusted : config.swapThreshold ≤ observation.trustScore candidate.id

/-- The two reasons to evict a peer in favour of a candidate. -/
def Displaces (table : RoutingTable) (candidate peer : NodeInfo) : Prop :=
  config.InTheWay observation table.nodeId candidate peer ∨
    ∃ index, table.bucketIndex candidate.id = some index ∧
      config.Distrusted observation (table.buckets index) candidate peer

variable {config observation} {localId : PeerId} {k : ℕ} {table : RoutingTable}
  {node candidate : NodeInfo} {index : Fin 256} {ips : List IpAddr}
  {swaps : List PeerId} {peer : PeerId}

/-! ## The reasons of a plan -/

/-- A peer that yields to the candidate and shares a subnet with it is in its way. -/
theorem Yields.inTheWay {other : NodeInfo}
    (hyields : config.Yields observation table.nodeId node.id other) (hips : ips ⊆ node.allIps)
    (hshares : ∃ ip ∈ ips, ip.isLoopback = false ∧ other.hasSubnet ip = true) :
    config.InTheWay observation table.nodeId node other := by
  obtain ⟨hfarther, hunprotected⟩ := hyields
  obtain ⟨ip, hip, hloopback, hsubnet⟩ := hshares
  obtain ⟨existing, hexisting, hpublic, hsame⟩ := (other.hasSubnet_iff ip).mp hsubnet
  rw [isUnprotected, Bool.or_eq_true, decide_eq_true_eq] at hunprotected
  exact
    { shares := ⟨ip, hips hip, existing, hexisting, hloopback, hpublic, .inr hsame⟩
      farther := hfarther
      unprotected := hunprotected }

/-- What the capacity check evicts is the least trusted peer of the bucket. -/
theorem distrusted_of_trustSwap {bucket : KBucket} (hsize : bucket.nodes.length ≤ bucket.maxSize)
    (hfull : bucket.maxSize ≤ bucket.nodes.length)
    (hswap : config.trustSwap observation bucket node.id = some peer) :
    ∃ other, other.id = peer ∧ config.Distrusted observation bucket node other := by
  rw [trustSwap] at hswap
  split at hswap
  · next htrusted =>
      obtain ⟨other, hargmin, rfl⟩ := Option.map_eq_some_iff.mp hswap
      obtain ⟨hmem, hlow⟩ := mem_filter.mp (argmin_mem hargmin)
      rw [decide_eq_true_eq] at hlow
      refine ⟨other, rfl, hmem, Nat.le_antisymm hsize hfull, ?_, hlow, htrusted.2⟩
      -- Peers at or above the threshold are more trusted than the one below it.
      intro rival hrival
      by_cases hbelow : observation.trustScore rival.id < config.swapThreshold
      · apply le_of_mem_argmin (f := fun node => observation.trustScore node.id)
          (mem_filter.mpr ⟨hrival, ?_⟩) hargmin
        exact decide_eq_true hbelow
      · exact (hlow.trans_le (not_lt.mp hbelow)).le
  · cases hswap

theorem displaces_of_plan (hvalid : table.Valid localId k)
    (habsent : table.findNodeById node.id = none)
    (hindex : table.bucketIndex node.id = some index) (hips : ips ⊆ node.allIps)
    {allowStaleRevalidation : Bool}
    (hplan : config.planAdmission observation table index node ips
      allowStaleRevalidation = .ok (.insert swaps)) (hpeer : peer ∈ swaps) :
    ∃ other ∈ table.allNodes, other.id = peer ∧ config.Displaces observation table node other := by
  obtain ⟨hplace, rfl⟩ := (planAdmission_eq_insert_iff hvalid habsent hindex).mp hplan
  rw [evictions, mem_append, mem_append] at hpeer
  rcases hpeer with (hbucket | htrust) | hclose
  · obtain ⟨other, hother, hid, hyields, hshares⟩ := hplace.bucket.of_mem_displaced hbucket
    exact ⟨other, RoutingTable.Valid.mem_allNodes_iff.mpr ⟨index, hother⟩, hid,
      .inl (hyields.inTheWay hips hshares)⟩
  · split at htrust
    · cases htrust
    · next hfull =>
        have hsize : (table.buckets index).nodes.length ≤ (table.buckets index).maxSize := by
          rw [hvalid.maxSize index]
          exact hvalid.length_le index
        obtain ⟨other, hid, hreason⟩ := distrusted_of_trustSwap hsize
          (Nat.le_of_not_lt fun hfree => hfull (.inl hfree)) (Option.mem_toList.mp htrust)
        exact ⟨other, RoutingTable.Valid.mem_allNodes_iff.mpr ⟨index, hreason.mem⟩, hid,
          .inr ⟨index, hindex, hreason⟩⟩
  · obtain ⟨other, hother, hid, hyields, hshares⟩ := hplace.of_mem_closeDisplaced hclose
    exact ⟨other, hother, hid, .inl (hyields.inTheWay hips hshares)⟩

/-! ## What an admission has done -/

variable (config observation) in
/-- An admission that was carried out: the peer was in the table and has been touched, or
it was not and has entered in the place of other peers. -/
inductive Admitted (table : RoutingTable) (node : NodeInfo) :
    RoutingTable → List RoutingTableEvent → Prop
  | touched {after : RoutingTable}
      (keeps : ∀ Property : RoutingTable → Prop, (∀ table address addressType now, Property table →
          Property (table.touchNode node.id address addressType now).1) →
        Property table → Property after) :
      Admitted table node after []
  | entered {after : RoutingTable} {events : List RoutingTableEvent} (swaps : List PeerId)
      (absent : table.findNodeById node.id = none)
      (displaces : ∀ peer ∈ swaps, ∃ other ∈ table.allNodes, other.id = peer ∧
        config.Displaces observation table node other)
      (result : config.executeAdmission table node swaps observation.now =
        (after, .ok (.admitted events))) :
      Admitted table node after events

theorem admitted_touchAddresses {touched : RoutingTable} {now : ℕ}
    (hkeeps : ∀ Property : RoutingTable → Prop, (∀ table address addressType now, Property table →
        Property (table.touchNode node.id address addressType now).1) →
      Property table → Property touched) :
    config.Admitted observation table node (touchAddresses touched node now) [] := by
  apply Admitted.touched
  intro Property htouch hproperty
  apply touchAddresses_preserves Property _ touched now (hkeeps Property htouch hproperty)
  intro table address addressType now _
  exact htouch table address addressType now

variable {events : List RoutingTableEvent} {after : RoutingTable}

theorem addUnchecked_admitted (hresult : config.addUnchecked table node observation.now =
      (after, .ok (.admitted events))) :
    config.Admitted observation table node after events := by
  rw [addUnchecked] at hresult
  split at hresult
  · cases hresult
    exact admitted_touchAddresses fun _ _ hproperty => hproperty
  · next habsent =>
      exact .entered [] (by simpa using habsent) (by simp) hresult

theorem addWithDiversity_admitted (hvalid : table.Valid localId k) (hips : ips ⊆ node.allIps)
    {allowStaleRevalidation : Bool}
    (hresult : config.addWithDiversity observation table node ips allowStaleRevalidation =
      (after, .ok (.admitted events))) :
    config.Admitted observation table node after events := by
  rcases config.addWithDiversity_cases observation table node ips
    allowStaleRevalidation hresult with
    ⟨-, hrefused⟩ | ⟨-, hdone⟩ | ⟨-, hdone⟩ | ⟨index, swaps, hindex, habsent, hplan, hdone⟩
  · exact absurd rfl (hrefused events)
  · exact addUnchecked_admitted hdone.symm
  · cases hdone
    apply admitted_touchAddresses
    intro Property htouch hproperty
    exact htouch table none .unverified observation.now hproperty
  · rw [← findNodeById_eq hindex] at habsent
    exact .entered swaps habsent (fun _ => displaces_of_plan hvalid habsent hindex hips hplan)
      hdone.symm

theorem addNode_admitted (hvalid : table.Valid localId k) {order : HashOrder IpAddr}
    {incoming : NodeInfo} (hresult : config.addNode observation order table incoming =
      (after, .ok (.admitted events))) :
    config.Admitted observation table incoming.retainStorableAddresses after events := by
  simp only [addNode] at hresult
  split at hresult
  · cases hresult
  · split at hresult
    · cases hresult
    · split at hresult
      · exact addUnchecked_admitted hresult
      · exact addWithDiversity_admitted hvalid (order.perm _).subset hresult

theorem reEvaluateAdmission_admitted (hvalid : table.Valid localId k)
    (hips : ips ⊆ candidate.allIps)
    (hresult : config.reEvaluateAdmission observation table candidate ips =
      (after, .ok events)) : config.Admitted observation table candidate after events := by
  rw [reEvaluateAdmission] at hresult
  split at hresult
  · cases hresult
  · next admitted =>
      cases hresult
      exact addWithDiversity_admitted hvalid hips admitted
  · cases hresult

/-- Whoever is gone after an admission has been displaced by it. -/
theorem Admitted.displaces (hadmitted : config.Admitted observation table node after events)
    (hvalid : table.Valid localId k) {evicted : NodeInfo} (hmem : evicted ∈ table.allNodes)
    (hgone : after.findNodeById evicted.id = none) :
    config.Displaces observation table node evicted := by
  have hfound := hvalid.findNodeById_of_mem hmem
  cases hadmitted with
  | touched keeps =>
    -- A touch keeps every member.
    have hkept : after.Valid localId k ∧ (after.findNodeById evicted.id).isSome := by
      apply keeps fun touched =>
        touched.Valid localId k ∧ (touched.findNodeById evicted.id).isSome
      · rintro touched address addressType now ⟨htouched, hpresent⟩
        have hrewrites := touchNode_rewrites touched node.id htouched.nodup address addressType now
        exact ⟨htouched.touchNode node.id address addressType now,
          (hrewrites.isSome_findNode evicted.id).trans hpresent⟩
      · exact ⟨hvalid, by rw [hfound, Option.isSome_some]⟩
    rw [hgone] at hkept
    cases hkept.2
  | entered swaps absent displaces result =>
    have hreplaces := executeAdmission_replaces hvalid absent (congrArg Prod.snd result)
    rw [result] at hreplaces
    have hswapped : evicted.id ∈ swaps := by
      by_contra hkept
      have hstill := hreplaces.valid.findNodeById_of_mem
        (hreplaces.mem_allNodes_iff.mpr (.inl ⟨hmem, hkept⟩))
      rw [hgone] at hstill
      cases hstill
    obtain ⟨other, hother, hid, hreason⟩ := displaces evicted.id hswapped
    have hsame := hvalid.findNodeById_of_mem hother
    rw [hid, hfound, Option.some.injEq] at hsame
    rwa [hsame]

variable (config observation) in
/-- A candidate is put to the table: it is offered, or it is tried again after an earlier
call had put it off, on whatever the table was then. -/
inductive Attempt (table : RoutingTable) : NodeInfo → RoutingTable → Prop
  | offered (order : HashOrder IpAddr) (incoming : NodeInfo) :
      Attempt table incoming.retainStorableAddresses
        (config.addNode observation order table incoming).1
  | retried {earlier : RoutingTable} {seen : Observation Score} {order : HashOrder IpAddr}
      {incoming candidate : NodeInfo} {ips : List IpAddr} {index : Fin 256}
      {stale : List (PeerId × Fin 256)}
      (putOff : (config.addNode seen order earlier incoming).2 =
        .ok (.staleRevalidationNeeded candidate ips index stale)) :
      Attempt table candidate (config.reEvaluateAdmission observation table candidate ips).1

/-- An attempt is carried out, or it leaves the table as it is. -/
theorem Attempt.unchanged_or_admitted (hattempt : config.Attempt observation table candidate after)
    (hvalid : table.Valid localId k) :
    after = table ∨ ∃ events, config.Admitted observation table candidate after events := by
  cases hattempt with
  | offered order incoming =>
    by_cases hadmitted : ∃ events, (config.addNode observation order table incoming).2 =
        .ok (.admitted events)
    · obtain ⟨events, hevents⟩ := hadmitted
      exact .inr ⟨events, addNode_admitted hvalid (Prod.ext rfl hevents)⟩
    · exact .inl (addNode_unchanged hvalid (not_exists.mp hadmitted))
  | @retried earlier seen order incoming _ ips index stale putOff =>
    cases hresult : (config.reEvaluateAdmission observation table candidate ips).2 with
    | error refusal =>
      exact .inl (reEvaluateAdmission_of_error hvalid (storableTyped_of_stale putOff) hresult)
    | ok events =>
      obtain ⟨-, rfl⟩ := config.addNode_eq_stale seen putOff
      exact .inr ⟨events, reEvaluateAdmission_admitted hvalid (order.perm _).subset
        (Prod.ext rfl hresult)⟩

/-- A peer with a reason to be displaced is not both alive and well trusted. -/
theorem Displaces.not_protected {evicted : NodeInfo}
    (hdisplaces : config.Displaces observation table candidate evicted)
    (hthresholds : config.swapThreshold ≤ config.protectionThreshold)
    (htrusted : config.protectionThreshold ≤ observation.trustScore evicted.id) :
    config.isStale observation evicted = true := by
  rcases hdisplaces with hway | ⟨index, -, hdistrusted⟩
  · exact hway.unprotected.resolve_left (not_lt.mpr htrusted)
  · have hlow := hdistrusted.low.trans_le hthresholds
    exact absurd htrusted (not_le.mpr hlow)

end EngineConfig

/-- Whoever an attempt evicts from a table that the engine can reach was displaced for one
of the two reasons, and live peers with enough trust stay. -/
theorem RoutingTable.run_evicted_displaced {Score : Type*} [LinearOrder Score]
    (codec : AddressCodec) (config : EngineConfig Score) {localId : PeerId} {k now : ℕ}
    {ops : List (RoutingOp Score)} {table after : RoutingTable}
    (hrun : (RoutingTable.new localId k now).run codec config ops = table)
    {observation : EngineConfig.Observation Score} {candidate evicted : NodeInfo}
    (hattempt : config.Attempt observation table candidate after)
    (hmem : evicted ∈ table.allNodes) (hgone : after.findNodeById evicted.id = none) :
    config.Displaces observation table candidate evicted ∧
      (config.swapThreshold ≤ config.protectionThreshold →
        ¬(config.protectionThreshold ≤ observation.trustScore evicted.id ∧
          config.isStale observation evicted = false)) := by
  have hvalid : table.Valid localId k := by
    rw [← hrun]
    exact run_valid codec config ops (RoutingTable.Valid.new localId k now)
  have hdisplaces : config.Displaces observation table candidate evicted := by
    rcases hattempt.unchanged_or_admitted hvalid with rfl | ⟨events, hadmitted⟩
    · rw [hvalid.findNodeById_of_mem hmem] at hgone
      cases hgone
    · exact hadmitted.displaces hvalid hmem hgone
  refine ⟨hdisplaces, ?_⟩
  rintro hthresholds ⟨htrusted, hlive⟩
  rw [hdisplaces.not_protected hthresholds htrusted] at hlive
  cases hlive

/-! Peer `11` has trust 50 and takes the slot of peer `8` with trust 10 in their bucket,
which is full with `K = 4`. -/

section Example

def doubts : EngineConfig.Observation ℕ :=
  { trustScore := fun peer => if peer = 8 then 10 else 50, now := 1 }

theorem fullBucket_displaced :
    ∃ evicted ∈ fullBucket.allNodes, evicted.id = 8 ∧
      (EngineConfig.withDefaults 4).Displaces doubts fullBucket
        (exampleNode 11 [0xcb007501]).retainStorableAddresses evicted := by
  have hfound : ∃ evicted ∈ fullBucket.allNodes, evicted.id = 8 := by
    decide +kernel
  have hgone : ((EngineConfig.withDefaults 4).addNode doubts (insertion _) fullBucket
      (exampleNode 11 [0xcb007501])).1.findNodeById 8 = none := by
    decide +kernel
  obtain ⟨evicted, hmem, hid⟩ := hfound
  rw [← hid] at hgone
  exact ⟨evicted, hmem, hid, (run_evicted_displaced _ _ fullBucket_eq_run
    (.offered (insertion _) _) hmem hgone).1⟩

end Example

end SaorsaCore.Routing
