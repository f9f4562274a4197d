import SaorsaCore.Routing.MergeEffect

/-!
# The fast path of a touch

A touch that names an address the record already has, under the same tag, takes a fast path
that only stores the time of contact.  The slow path would take the address out and put it
in again at the front of its tier, or at the end for a LAN address.  The list stays as it
is only if the address already stands there.
-/

namespace SaorsaCore.Routing

open List NodeInfo KBucket RoutingTable Option

variable {before behind typed : List (MultiAddr × AddressType)}
  {entry : MultiAddr × AddressType} {address : MultiAddr}

/-! ## The place of an entry -/

theorem concat_eq_cons_iff :
    behind ++ [entry] = entry :: behind ↔ ∀ later ∈ behind, later = entry := by
  induction behind with
  | nil => simp
  | cons head behind ih =>
    rw [cons_append, cons.injEq, forall_mem_cons]
    constructor
    · rintro ⟨rfl, hrest⟩
      exact ⟨rfl, ih.mp hrest⟩
    · rintro ⟨rfl, hrest⟩
      exact ⟨rfl, ih.mpr hrest⟩

theorem takeWhile_eq_left_iff {ahead : MultiAddr × AddressType → Bool} :
    (before ++ behind).takeWhile ahead = before ↔ (∀ earlier ∈ before, ahead earlier = true) ∧
        ∀ next ∈ behind.head?, ahead next = false := by
  constructor
  · intro htake
    have hbefore : ∀ earlier ∈ before, ahead earlier = true := by
      intro earlier hmem
      rw [← htake] at hmem
      exact mem_takeWhile_imp hmem
    rw [takeWhile_append_of_pos hbefore, append_right_eq_self] at htake
    refine ⟨hbefore, ?_⟩
    cases behind with
    | nil => simp
    | cons next behind => simpa [takeWhile_cons] using htake
  · rintro ⟨hbefore, hnext⟩
    rw [takeWhile_append_of_pos hbefore, append_right_eq_self]
    cases behind with
    | nil => rfl
    | cons next behind => exact takeWhile_cons_of_neg (by simpa using hnext)

/-- Where an entry is put if it was the first of its address: the same place exactly if
every tag before it is stronger and the next one is not, or, for a LAN address, if nothing
else follows. -/
theorem placed_eq_iff (habsent : entry ∉ before) :
    placed (before ++ behind) entry = before ++ entry :: behind ↔
      if entry.2 = .lan then ∀ later ∈ behind, later = entry
      else (∀ earlier ∈ before, earlier.2.priority < entry.2.priority) ∧
        ∀ next ∈ behind.head?, entry.2.priority ≤ next.2.priority := by
  have hsplit := takeWhile_append_dropWhile (p := isAhead entry.2) (l := before ++ behind)
  by_cases hlan : entry.2 = .lan
  · rw [if_pos hlan, ← concat_eq_cons_iff]
    rw [dropWhile_isAhead_lan _ _ hlan, append_nil] at hsplit
    rw [placed, dropWhile_isAhead_lan _ _ hlan, hsplit, append_assoc, append_cancel_left_eq]
  · have hahead := isAhead_of_ne_lan hlan
    have hfront := priority_lt_of_mem_takeWhile (before ++ behind) entry.2 hlan
    have hplace : placed (before ++ behind) entry = before ++ entry :: behind ↔
        (before ++ behind).takeWhile (isAhead entry.2) = before := by
      constructor
      · intro hplaced
        rcases append_eq_append_iff.mp hplaced with
          ⟨between, hbefore, hrest⟩ | ⟨between, htake, hrest⟩
        · -- The entry would stand among those before it.
          cases between with
          | nil => simpa using hbefore.symm
          | cons head between =>
            have hhead : entry = head := (cons.inj hrest).1
            have hmem : entry ∈ before := by
              rw [hbefore, hhead]
              exact mem_append_right _ mem_cons_self
            exact absurd hmem habsent
        · -- The entry would be ahead of itself.
          cases between with
          | nil => simpa using htake
          | cons head between =>
            have hhead : entry = head := (cons.inj hrest).1
            have hmem : entry ∈ before ++ head :: between := by
              rw [hhead]
              exact mem_append_right _ mem_cons_self
            exact absurd (hfront entry (htake ▸ hmem)) (lt_irrefl _)
      · intro htake
        rw [htake, append_cancel_left_eq] at hsplit
        rw [placed, htake, hsplit]
    rw [if_neg hlan, hplace, takeWhile_eq_left_iff]
    simp [hahead]

namespace NodeInfo

/-- The address stands where a merge under the tag would put it. -/
def InPlace (node : NodeInfo) (address : MultiAddr) (tag : AddressType) : Prop :=
  let before := node.typed.takeWhile fun entry => entry.1 != address
  let behind := (node.typed.dropWhile fun entry => entry.1 != address).tail
  if tag = .lan then ∀ later ∈ behind, later = (address, tag)
  else (∀ earlier ∈ before, earlier.2.priority < tag.priority) ∧
    ∀ next ∈ behind.head?, tag.priority ≤ next.2.priority

instance (node : NodeInfo) (address : MultiAddr) (tag : AddressType) :
    Decidable (node.InPlace address tag) :=
  inferInstanceAs (Decidable (if tag = .lan then _ else _))

/-- A touch has nothing to merge, or finds the address in its place. -/
def TouchInPlace (node : NodeInfo) (address : Option MultiAddr) (addressType : AddressType) :
    Prop :=
  ∀ observed ∈ address, observed.isStorable = true → node.skipsLoopback observed = false →
    node.InPlace observed (AddressType.forAdvertisedAddress observed addressType)

instance (node : NodeInfo) (address : Option MultiAddr) (addressType : AddressType) :
    Decidable (node.TouchInPlace address addressType) :=
  inferInstanceAs (Decidable (∀ observed ∈ address, _))

variable {node : NodeInfo} {tag : AddressType}

/-- An address that is merged again under its own tag meets no rival, so only its place
can change. -/
theorem Stored.typed_merge_known_iff (hstored : node.Stored LanTagged)
    (hstorable : address.isStorable = true) {advertised : AddressType}
    (htag : AddressType.forAdvertisedAddress address advertised = tag)
    (hfind : node.typed.find? (fun entry => entry.1 == address) = some (address, tag)) :
    (node.mergeTypedAddress address advertised).typed = node.typed ↔ node.InPlace address tag := by
  obtain ⟨-, before, behind, htyped, hbefore⟩ := find?_eq_some_iff_append.mp hfind
  have hapart : ∀ earlier ∈ before, (earlier.1 != address) = true := by
    intro earlier hmem
    simpa using hbefore earlier hmem
  have hothers : node.others address = before ++ behind := by
    rw [others, htyped, eraseP_append_right _ (by simpa using hbefore)]
    simp
  have hfree : rivalOf (node.others address) (address, tag) = none := by
    have hexclusive := hstored.exclusive
    rw [htyped] at hexclusive
    rw [hothers]
    exact (hexclusive.perm perm_middle).rivalOf_eq_none
  have hplace : node.InPlace address tag ↔
      placed (before ++ behind) (address, tag) = before ++ (address, tag) :: behind := by
    have habsent : (address, tag) ∉ before := fun hmem => by simpa using hapart _ hmem
    have htake : node.typed.takeWhile (fun entry => entry.1 != address) = before := by
      rw [htyped, takeWhile_eq_left_iff]
      exact ⟨hapart, by simp⟩
    have hdrop : node.typed.dropWhile (fun entry => entry.1 != address) =
        (address, tag) :: behind := by
      rw [htyped, dropWhile_append_of_pos hapart]
      exact dropWhile_cons_of_neg (by simp)
    rw [placed_eq_iff habsent, InPlace, htake, hdrop]
    exact Iff.rfl
  have hlength : (placed (before ++ behind) (address, tag)).length ≤ maxAddressesPerNode := by
    have hperm := (placed_perm (before ++ behind) (address, tag)).trans perm_middle.symm
    rw [hperm.length_eq, ← htyped]
    exact hstored.length_le
  rw [hstored.typed_merge_of_free hstorable htag hfree, hplace, hothers,
    take_of_length_le hlength, ← htyped]

/-- The two paths leave the same list exactly if the address stands in its place. -/
theorem Stored.typed_touchedNode_iff (hstored : node.Stored LanTagged)
    {address : Option MultiAddr} {addressType : AddressType}
    (hnoop : mergeIsNoop node address addressType = true) (now : ℕ) :
    (touchedNode address addressType now node).typed = node.typed ↔
      node.TouchInPlace address addressType := by
  cases address with
  | none => exact iff_of_true rfl (by simp [TouchInPlace])
  | some observed =>
    simp only [TouchInPlace, mem_def, some.injEq, forall_eq']
    rw [touchedNode]
    cases hskips : node.skipsLoopback observed with
    | true => exact iff_of_true rfl (by simp)
    | false =>
      rw [if_neg Bool.false_ne_true]
      cases hstorable : observed.isStorable with
      | false =>
        exact iff_of_true (by simp [mergeTypedAddress, hstorable, typed]) (by simp)
      | true =>
        simp only [forall_const]
        rw [mergeIsNoop] at hnoop
        cases hposition : node.addresses.findIdx? (· == observed) with
        | none => simp [hposition, hskips] at hnoop
        | some position =>
          have hfind := hstored.find?_typed hposition
          rw [hposition] at hnoop
          rw [beq_iff_eq.mp hnoop] at hfind
          exact (hstored.seen now).typed_merge_known_iff hstorable rfl hfind

end NodeInfo

/-! ## Buckets -/

theorem KBucket.mergeIsNoop_of_fast {bucket : KBucket} {peer : PeerId}
    {address : Option MultiAddr} {addressType : AddressType} {now : ℕ} {node : NodeInfo}
    (hfast : (bucket.touchLastSeenIfMergeNoop peer address addressType now).2 = some true)
    (hfind : bucket.findNode peer = some node) :
    mergeIsNoop node address addressType = true := by
  by_contra hslow
  simp [touchLastSeenIfMergeNoop, hfind, hslow] at hfast

section Histories

variable {Score : Type*} [LinearOrder Score] (codec : AddressCodec)
  (config : EngineConfig Score) (localId : PeerId) (k start : ℕ)
  (ops : List (RoutingOp Score))

/-- Whenever the fast path answers for a peer of a bucket, the slow path would have kept
the peer's list exactly if the touch finds the address in its place. -/
theorem RoutingTable.touch_paths_agree_iff {bucket : KBucket} {index : Fin 256}
    (hbucket : ((RoutingTable.new localId k start).run codec config ops).buckets index =
      bucket)
    {peer : PeerId} {address : Option MultiAddr} {addressType : AddressType} {now : ℕ}
    (hfast : (bucket.touchLastSeenIfMergeNoop peer address addressType now).2 = some true) :
    ((bucket.touchNodeTyped peer address addressType now).1.findNode peer).map
        NodeInfo.typed = (bucket.findNode peer).map NodeInfo.typed ↔
      ∀ node ∈ bucket.findNode peer, node.TouchInPlace address addressType := by
  have hkeeps := run_new_keeps_lanTagged codec config localId k start ops
  have hrewrites := bucket.touchNodeTyped_rewrites (hbucket ▸ hkeeps.valid.nodup index) peer
    address addressType now
  rw [hrewrites.findNode, if_pos rfl]
  cases hfind : bucket.findNode peer with
  | none => simp
  | some node =>
    have hmem : node ∈ ((new localId k start).run codec config ops).allNodes :=
      Valid.mem_allNodes_iff.mpr ⟨index, hbucket ▸ KeyedList.mem_of_lookup hfind⟩
    have hstored := hkeeps.mem_allNodes hmem
    have hnoop := mergeIsNoop_of_fast hfast hfind
    simp only [map_some, some.injEq, mem_def, forall_eq']
    exact hstored.typed_touchedNode_iff hnoop now

end Histories

/-- A peer that is reachable directly over both IP families. -/
def dualStack : RoutingOp ℕ :=
  .admission (HashOrder.insertion _) { trustScore := fun _ => 50, now := 0 }
    { id := 1
      addresses := [.quic (.v4 0xcb007109 9000),
        .quic (.v6 0x2a020000000000000000000000000001 9000 0 0)]
      addressTypes := [.direct, .direct]
      lastSeen := 0 }

/-- The bucket of that peer after its admission. -/
def dualStackBucket : KBucket :=
  ((RoutingTable.new 0 20 0).run { decode := fun _ => none } (EngineConfig.withDefaults 20)
    [dualStack]).buckets (Fin.last 255)

theorem touch_paths_agree_first :
    ((dualStackBucket.touchNodeTyped 1 (some (.quic (.v4 0xcb007109 9000))) .direct
        1).1.findNode 1).map NodeInfo.typed =
      (dualStackBucket.findNode 1).map NodeInfo.typed :=
  (touch_paths_agree_iff { decode := fun _ => none }
    (EngineConfig.withDefaults 20) 0 20 0 [dualStack] rfl (by decide +kernel)).mpr
      (by decide +kernel)

/-- Touched at its second address, the peer would get that address in front. -/
theorem touch_paths_disagree_second :
    (dualStackBucket.touchLastSeenIfMergeNoop 1
        (some (.quic (.v6 0x2a020000000000000000000000000001 9000 0 0))) .direct 1).2 =
      some true ∧
    ((dualStackBucket.touchNodeTyped 1
        (some (.quic (.v6 0x2a020000000000000000000000000001 9000 0 0))) .direct
          1).1.findNode 1).map NodeInfo.typed ≠
      (dualStackBucket.findNode 1).map NodeInfo.typed := by
  decide +kernel

end SaorsaCore.Routing
