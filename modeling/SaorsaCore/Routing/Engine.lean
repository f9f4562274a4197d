import SaorsaCore.Core.Collections
import SaorsaCore.Routing.Table

/-!
# Admission of peers

The part of `DhtCoreEngine` that decides which peers enter the routing table.
An admission plans evictions in three phases (IP diversity inside the bucket, IP
diversity among the `K` peers closest to the local node, capacity) and then
executes the planned evictions and the insertion.  Trust scores are floating
point numbers in the source; the engine only compares them, so they range over
an arbitrary linear order here.
-/

namespace SaorsaCore.Routing

def ipExactLimit : ℕ := 2

def ipSubnetLimit (k : ℕ) : ℕ :=
  if k / 4 > 0 then k / 4 else 1

/-- Overrides of the diversity limits. -/
structure IPDiversityConfig where
  maxPerIp : Option ℕ
  maxPerSubnet : Option ℕ
  deriving DecidableEq, Repr

/-- The settings of `DhtCoreEngine`.  `zeroTrust` and `protectionThreshold` are
the literals `0.0` and `TRUST_PROTECTION_THRESHOLD` of the source. -/
structure EngineConfig (Score : Type*) where
  kValue : ℕ
  ipDiversity : IPDiversityConfig
  allowLoopback : Bool
  swapThreshold : Score
  liveThreshold : ℕ
  zeroTrust : Score
  protectionThreshold : Score

/-- The settings of `DhtCoreEngine::new` for a given `K`, with trust scores in
percent. -/
def EngineConfig.withDefaults (kValue : ℕ) : EngineConfig ℕ :=
  { kValue := kValue
    ipDiversity := { maxPerIp := none, maxPerSubnet := none }
    allowLoopback := false
    swapThreshold := 35
    liveThreshold := 900
    zeroTrust := 0
    protectionThreshold := 70 }

inductive RoutingTableEvent where
  | peerAdded (peer : PeerId)
  | peerRemoved (peer : PeerId)
  | kClosestPeersChanged (old new : List PeerId)
  deriving DecidableEq, Repr

inductive AdmissionResult where
  | admitted (events : List RoutingTableEvent)
  | staleRevalidationNeeded (candidate : NodeInfo) (candidateIps : List IpAddr)
      (candidateBucketIndex : Fin 256) (stalePeers : List (PeerId × Fin 256))
  deriving DecidableEq, Repr

namespace NodeInfo

/-- Some non-loopback address of the peer has exactly this IP. -/
def hasIp (node : NodeInfo) (ip : IpAddr) : Bool :=
  node.allIps.any fun existing => !existing.isLoopback && existing == ip

/-- Some non-loopback address of the peer is in the subnet of this IP. -/
def hasSubnet (node : NodeInfo) (ip : IpAddr) : Bool :=
  node.allIps.any fun existing =>
    !existing.isLoopback && existing.subnet == ip.subnet

end NodeInfo

namespace EngineConfig

variable {Score : Type*} [LinearOrder Score] (config : EngineConfig Score)

def limitIp : ℕ := config.ipDiversity.maxPerIp.getD ipExactLimit

def limitSubnet : ℕ :=
  config.ipDiversity.maxPerSubnet.getD (ipSubnetLimit config.kValue)

/-- The data an admission reads besides the table: the trust function and the
current instant. -/
structure Observation (Score : Type*) where
  trustScore : PeerId → Score
  now : ℕ

variable (observation : Observation Score)

def isStale (node : NodeInfo) : Bool :=
  node.isStale config.liveThreshold observation.now

/-! ## One diversity check -/

/-- A peer that may lose its slot to a closer candidate. -/
def isUnprotected (node : NodeInfo) : Bool :=
  decide (observation.trustScore node.id < config.protectionThreshold)
    || config.isStale observation node

/-- One tier of `find_ip_swap_in_scope`: nothing while the limit leaves room,
else the farthest matching peer or a refusal. -/
def tierSwap (self candidate : PeerId) (scope : DiversityScope)
    (tier : DiversityTier) (limit : ℕ) (matching : List NodeInfo) :
    Except RoutingError (Option PeerId) :=
  if matching.length ≥ limit then
    match matching.argmax fun node => xorDistance self node.id with
    | some farthest =>
      if xorDistance self candidate < xorDistance self farthest.id
          ∧ config.isUnprotected observation farthest then
        .ok (some farthest.id)
      else .error (.diversityExceeded tier limit scope)
    | none => .error (.diversityExceeded tier limit scope)
  else .ok none

def subnetTier : IpAddr → DiversityTier
  | .v4 _ => .subnetV4
  | .v6 _ => .subnetV6

/-- `find_ip_swap_in_scope`: the exact-IP tier is checked before the subnet
tier, and loopback candidates bypass both. -/
def findIpSwapInScope (self : PeerId) (nodes : List NodeInfo)
    (candidate : PeerId) (ip : IpAddr) (scope : DiversityScope) :
    Except RoutingError (Option PeerId) :=
  if ip.isLoopback then .ok none
  else do
    let others := nodes.filter fun node => node.id != candidate
    let exact ← config.tierSwap observation self candidate scope .exactIp
      config.limitIp (others.filter fun node => node.hasIp ip)
    match exact with
    | some peer => .ok (some peer)
    | none =>
      config.tierSwap observation self candidate scope (subnetTier ip)
        config.limitSubnet (others.filter fun node => node.hasSubnet ip)

/-- The loop over the candidate's addresses.  Peers whose eviction is already
planned are left out of each further check. -/
def planSwaps (self candidate : PeerId) (scope : DiversityScope)
    (nodes : List NodeInfo) (earlier : List PeerId) :
    List IpAddr → List PeerId → Except RoutingError (List PeerId)
  | [], swaps => .ok swaps
  | ip :: ips, swaps =>
    if ip.isLoopback then planSwaps self candidate scope nodes earlier ips swaps
    else do
      let view := nodes.filter fun node => !swaps.contains node.id
      let swap ← config.findIpSwapInScope observation self view candidate ip scope
      match swap with
      | none => planSwaps self candidate scope nodes earlier ips swaps
      | some peer =>
        if earlier.contains peer || swaps.contains peer then
          planSwaps self candidate scope nodes earlier ips swaps
        else planSwaps self candidate scope nodes earlier ips (swaps ++ [peer])

/-! ## The close group -/

/-- Would the candidate be among the `K` closest once the planned evictions are
carried out?  `remaining` is the close group without them. -/
def candidateInClose (self candidate : PeerId) (remaining : List NodeInfo) : Bool :=
  decide (remaining.length < config.kValue)
    || match remaining.getLast? with
      | none => true
      | some last =>
        decide (xorDistance self candidate < xorDistance self last.id)

/-- The close group as it would be with the candidate in it. -/
def hypotheticalClose (self : PeerId) (node : NodeInfo)
    (remaining : List NodeInfo) : List NodeInfo :=
  (((remaining.filter fun other => other.id != node.id) ++ [node]).insertionSort
    fun left right => xorDistance self left.id ≤ xorDistance self right.id).take
      config.kValue

def planCloseSwaps (table : RoutingTable) (node : NodeInfo)
    (ips : List IpAddr) (bucketSwaps : List PeerId) :
    Except RoutingError (List PeerId) :=
  let closeGroup := table.findClosestNodes table.nodeId config.kValue
  let remaining := closeGroup.filter fun other => !bucketSwaps.contains other.id
  if config.candidateInClose table.nodeId node.id remaining then
    config.planSwaps observation table.nodeId node.id .closeGroup
      (config.hypotheticalClose table.nodeId node remaining) bucketSwaps ips []
  else .ok []

/-! ## Capacity -/

/-- The least trusted peer of the bucket below the swap threshold, if the
candidate itself reaches the threshold. -/
def trustSwap (bucket : KBucket) (candidate : PeerId) : Option PeerId :=
  if config.zeroTrust < config.swapThreshold
      ∧ config.swapThreshold ≤ observation.trustScore candidate then
    ((bucket.nodes.filter fun node =>
        decide (observation.trustScore node.id < config.swapThreshold)).argmin
      fun node => observation.trustScore node.id).map NodeInfo.id
  else none

/-- Stale peers of the bucket, then stale close-group violators. -/
def stalePeers (table : RoutingTable) (index : Fin 256)
    (closeSwaps : List PeerId) : List (PeerId × Fin 256) :=
  let inBucket := ((table.buckets index).nodes.filter fun node =>
    config.isStale observation node).map fun node => (node.id, index)
  closeSwaps.foldl (fun stale swap =>
    if stale.any fun entry => entry.1 == swap then stale
    else
      match table.bucketIndex swap, table.findNodeById swap with
      | some swapIndex, some node =>
        if config.isStale observation node then stale ++ [(swap, swapIndex)]
        else stale
      | _, _ => stale) inBucket

/-- What an admission has decided to do once its checks have passed. -/
inductive AdmissionPlan where
  | insert (swaps : List PeerId)
  | revalidate (stalePeers : List (PeerId × Fin 256))
  deriving DecidableEq, Repr

/-- The capacity pre-check: a full bucket needs a planned eviction of its own,
a trust-based one, or a revalidation of stale peers. -/
def capacityPlan (table : RoutingTable) (index : Fin 256) (candidate : PeerId)
    (bucketSwaps closeSwaps : List PeerId) (allowStaleRevalidation : Bool) :
    Except RoutingError AdmissionPlan :=
  let bucket := table.buckets index
  let closeFreesSlot := closeSwaps.any fun swap =>
    table.bucketIndex swap == some index
  if bucket.nodes.length < bucket.maxSize || !bucketSwaps.isEmpty
      || closeFreesSlot then
    .ok (.insert (bucketSwaps ++ closeSwaps))
  else
    match config.trustSwap observation bucket candidate with
    | some peer => .ok (.insert (bucketSwaps ++ [peer] ++ closeSwaps))
    | none =>
      let stale := config.stalePeers observation table index closeSwaps
      if allowStaleRevalidation && !stale.isEmpty then .ok (.revalidate stale)
      else .error (.noStalePeers bucket.nodes.length bucket.maxSize)

/-- All checks of `add_with_diversity` for a peer that is not in its bucket. -/
def planAdmission (table : RoutingTable) (index : Fin 256) (node : NodeInfo)
    (ips : List IpAddr) (allowStaleRevalidation : Bool) :
    Except RoutingError AdmissionPlan := do
  let bucketSwaps ← config.planSwaps observation table.nodeId node.id .bucket
    (table.buckets index).nodes [] ips []
  let closeSwaps ← config.planCloseSwaps observation table node ips bucketSwaps
  config.capacityPlan observation table index node.id bucketSwaps closeSwaps
    allowStaleRevalidation

/-! ## Execution -/

/-- Carry out the planned evictions, each peer once.  The second component lists
the peers evicted, in order. -/
def executeSwaps (table : RoutingTable) (swaps : List PeerId) : RoutingTable × List PeerId :=
  swaps.foldl (fun state peer =>
    if state.2.contains peer then state
    else (state.1.removeNode peer, state.2 ++ [peer])) (table, [])

/-- The events of a mutation: evictions, the insertion, and the change of the
`K` closest peers if there is one. -/
def mutationEvents (before after : RoutingTable)
    (changes : List RoutingTableEvent) : List RoutingTableEvent :=
  let old := before.kClosestIds config.kValue
  let new := after.kClosestIds config.kValue
  changes ++ if old != new then [.kClosestPeersChanged old new] else []

/-- Evict, then insert.  A failing insertion leaves the evictions in place. -/
def executeAdmission (table : RoutingTable) (node : NodeInfo) (swaps : List PeerId) (now : ℕ) :
    RoutingTable × Except RoutingError AdmissionResult :=
  let (evicted, executed) := executeSwaps table swaps
  match evicted.addNode node now with
  | .error refusal => (evicted, .error refusal)
  | .ok inserted =>
    (inserted, .ok (.admitted (config.mutationEvents table inserted
      (executed.map .peerRemoved ++ [.peerAdded node.id]))))

/-- Touch a present peer with every address of the incoming record. -/
def touchAddresses (table : RoutingTable) (node : NodeInfo) (now : ℕ) : RoutingTable :=
  node.addresses.zipIdx.foldl (fun table entry =>
    (table.touchNode node.id (some entry.1) (node.addressTypeAt entry.2) now).1)
    table

/-- Admission without diversity checks, for peers without an IP address and for
loopback peers. -/
def addUnchecked (table : RoutingTable) (node : NodeInfo) (now : ℕ) :
    RoutingTable × Except RoutingError AdmissionResult :=
  if (table.findNodeById node.id).isSome then
    (touchAddresses table node now, .ok (.admitted []))
  else config.executeAdmission table node [] now

def addWithDiversity (table : RoutingTable) (node : NodeInfo)
    (ips : List IpAddr) (allowStaleRevalidation : Bool) :
    RoutingTable × Except RoutingError AdmissionResult :=
  let now := observation.now
  if ips.any fun ip => ip.isUnspecified || ip.isMulticast then
    (table, .error .multicastOrUnspecified)
  else if !config.allowLoopback && ips.any IpAddr.isLoopback then
    (table, .error .loopbackRejected)
  else if ips.all IpAddr.isLoopback then
    if config.allowLoopback then config.addUnchecked table node now
    else (table, .error .loopbackRejected)
  else
    match table.bucketIndex node.id with
    | none => (table, .error .insertSelf)
    | some index =>
      if (table.buckets index).nodes.any fun other => other.id == node.id then
        (touchAddresses (table.touchNode node.id none .unverified now).1 node now,
          .ok (.admitted []))
      else
        match config.planAdmission observation table index node ips allowStaleRevalidation with
        | .error refusal => (table, .error refusal)
        | .ok (.revalidate stale) =>
          (table, .ok (.staleRevalidationNeeded node ips index stale))
        | .ok (.insert swaps) => config.executeAdmission table node swaps now

/-- What `add_with_diversity` can do: leave the table alone, bypass the checks
for a loopback peer, touch a peer that is already present, or carry out a plan
for an absent one. -/
theorem addWithDiversity_cases (table : RoutingTable) (node : NodeInfo)
    (ips : List IpAddr) (allowStaleRevalidation : Bool)
    {result : RoutingTable × Except RoutingError AdmissionResult}
    (hresult : config.addWithDiversity observation table node ips
      allowStaleRevalidation = result) :
    (result.1 = table ∧ ∀ events, result.2 ≠ .ok (.admitted events)) ∨
    (ips.all IpAddr.isLoopback = true ∧ result = config.addUnchecked table node observation.now) ∨
    ((table.findNodeById node.id).isSome ∧ result = (touchAddresses
        (table.touchNode node.id none .unverified observation.now).1 node
          observation.now, .ok (.admitted []))) ∨
    (∃ index swaps, table.bucketIndex node.id = some index ∧
      (table.buckets index).findNode node.id = none ∧
      config.planAdmission observation table index node ips
        allowStaleRevalidation = .ok (.insert swaps) ∧
      result = config.executeAdmission table node swaps observation.now) := by
  subst hresult
  simp only [addWithDiversity]
  split
  · exact Or.inl ⟨rfl, by simp⟩
  · split
    · exact Or.inl ⟨rfl, by simp⟩
    · split
      · next hloopback =>
          split
          · exact Or.inr (Or.inl ⟨hloopback, rfl⟩)
          · exact Or.inl ⟨rfl, by simp⟩
      · split
        · exact Or.inl ⟨rfl, by simp⟩
        · next index hindex =>
            have hmember : ((table.buckets index).nodes.any fun other =>
                other.id == node.id) = ((table.buckets index).findNode node.id).isSome := by
              rw [Bool.eq_iff_iff, KBucket.isSome_findNode_iff, KBucket.ids]
              simp
            split
            · next hpresent =>
                rw [hmember, ← RoutingTable.findNodeById_eq hindex] at hpresent
                exact Or.inr (Or.inr (Or.inl ⟨hpresent, rfl⟩))
            · next habsent =>
                rw [hmember] at habsent
                split
                · exact Or.inl ⟨rfl, by simp⟩
                · exact Or.inl ⟨rfl, by simp⟩
                · next swaps hplan =>
                    exact Or.inr (Or.inr (Or.inr ⟨index, swaps, hindex,
                      by simpa using habsent, hplan, rfl⟩))

/-- `DhtCoreEngine::add_node`.  The candidate's IPs pass through a hash set, so
their order is the one `order` chooses. -/
def addNode (order : HashOrder IpAddr) (table : RoutingTable)
    (incoming : NodeInfo) : RoutingTable × Except RoutingError AdmissionResult :=
  if incoming.id = table.nodeId then (table, .error .addSelf)
  else
    let node := incoming.retainStorableAddresses
    if node.addresses.isEmpty then (table, .error .nothingStorable)
    else
      let ips := order.arrange node.allIps
      if ips.isEmpty then config.addUnchecked table node observation.now
      else config.addWithDiversity observation table node ips true

variable {candidate : NodeInfo} {candidateIps : List IpAddr} {index : Fin 256}
  {stale : List (PeerId × Fin 256)}

omit [LinearOrder Score] in
theorem executeAdmission_ne_stale (table : RoutingTable) (node : NodeInfo)
    (swaps : List PeerId) (now : ℕ) :
    (config.executeAdmission table node swaps now).2 ≠
      .ok (.staleRevalidationNeeded candidate candidateIps index stale) := by
  simp only [executeAdmission]
  split <;> simp

omit [LinearOrder Score] in
theorem addUnchecked_ne_stale (table : RoutingTable) (node : NodeInfo) (now : ℕ) :
    (config.addUnchecked table node now).2 ≠
      .ok (.staleRevalidationNeeded candidate candidateIps index stale) := by
  rw [addUnchecked]
  split
  · simp
  · exact config.executeAdmission_ne_stale table node [] now

/-- A revalidation request carries the candidate and the list of IPs that were
checked. -/
theorem addWithDiversity_eq_stale {table : RoutingTable} {node : NodeInfo} {ips : List IpAddr}
    {allowStaleRevalidation : Bool}
    (hresult : (config.addWithDiversity observation table node ips
      allowStaleRevalidation).2 =
        .ok (.staleRevalidationNeeded candidate candidateIps index stale)) :
    candidate = node ∧ candidateIps = ips := by
  simp only [addWithDiversity] at hresult
  split at hresult
  · cases hresult
  · split at hresult
    · cases hresult
    · split at hresult
      · split at hresult
        · exact absurd hresult (config.addUnchecked_ne_stale table node _)
        · cases hresult
      · split at hresult
        · cases hresult
        · split at hresult
          · cases hresult
          · split at hresult
            · cases hresult
            · cases hresult
              exact ⟨rfl, rfl⟩
            · exact absurd hresult (config.executeAdmission_ne_stale table node _ _)

theorem addNode_eq_stale {order : HashOrder IpAddr} {table : RoutingTable}
    {incoming : NodeInfo} (hresult : (config.addNode observation order table incoming).2 =
      .ok (.staleRevalidationNeeded candidate candidateIps index stale)) :
    candidate = incoming.retainStorableAddresses ∧
      candidateIps = order.arrange candidate.allIps := by
  simp only [addNode] at hresult
  split at hresult
  · cases hresult
  · split at hresult
    · cases hresult
    · split at hresult
      · exact absurd hresult (config.addUnchecked_ne_stale table _ _)
      · obtain ⟨rfl, rfl⟩ := config.addWithDiversity_eq_stale observation hresult
        exact ⟨rfl, rfl⟩

def reEvaluateAdmission (table : RoutingTable) (candidate : NodeInfo) (ips : List IpAddr) :
    RoutingTable × Except RoutingError (List RoutingTableEvent) :=
  match config.addWithDiversity observation table candidate ips false with
  | (table, .error refusal) => (table, .error refusal)
  | (table, .ok (.admitted events)) => (table, .ok events)
  | (table, .ok (.staleRevalidationNeeded _ _ _ _)) =>
    (table, .error .stillAtCapacity)

def removeNodeById (table : RoutingTable) (peer : PeerId) : RoutingTable × List RoutingTableEvent :=
  if (table.findNodeById peer).isNone then (table, [])
  else
    let removed := table.removeNode peer
    (removed, config.mutationEvents table removed [.peerRemoved peer])

def staleKClosest (table : RoutingTable) : List PeerId :=
  ((table.findClosestNodes table.nodeId config.kValue).filter fun node =>
    config.isStale observation node).map NodeInfo.id

/-! ## Publications and observations -/

/-- `filter_publish_address_set`: refuse an empty list, and drop loopback
addresses unless they are allowed. -/
def filterPublishAddressSet (typed : List (MultiAddr × AddressType)) :
    Option (List (MultiAddr × AddressType)) :=
  if typed.isEmpty then none
  else
    some ((typed.filter fun pair =>
        config.allowLoopback || !pair.1.canonicalIp.any IpAddr.isLoopback).map
      fun pair => (pair.1, AddressType.forAdvertisedAddress pair.1 pair.2))

/-- `replace_node_addresses` and `replace_node_addresses_from_gossip` -/
def replaceNodeAddresses (table : RoutingTable) (nodeId : PeerId)
    (typed : List (MultiAddr × AddressType)) (seq : ℕ)
    (mode : AddressReplaceMode) (now : ℕ) : RoutingTable × Bool :=
  match config.filterPublishAddressSet typed with
  | none => (table, false)
  | some filtered =>
    table.replaceNodeAddressesWithMode nodeId filtered seq mode now

end EngineConfig

/-- `touch_node_typed`: the fast path, and the slow path if it does not
suffice. -/
def touchNodeTyped (table : RoutingTable) (nodeId : PeerId)
    (address : Option MultiAddr) (addressType : AddressType) (now : ℕ) :
    RoutingTable × Bool :=
  match table.tryTouchLastSeen nodeId address addressType now with
  | (touched, some found) => (touched, found)
  | (untouched, none) => untouched.touchNode nodeId address addressType now

end SaorsaCore.Routing
