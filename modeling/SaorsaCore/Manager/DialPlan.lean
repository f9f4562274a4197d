import SaorsaCore.Manager.AddressPolicy
import SaorsaCore.Reachability.SelfAddress

/-!
# Which addresses of a peer are dialed

A dial plan has at most five addresses.  One pass over the published addresses fills five
slots: a relay, and for each IP family the best WAN address and the best local one.  Local
addresses are worth a dial only if the peer seems to be behind the same WAN address, or if
there is nothing else.  The slots are the first addresses of least rank of their class, so
that the plan is described without the pass.
-/

namespace SaorsaCore.Manager

open List AddressType MultiAddr

/-! ## The plan of the source -/

def isDialable (address : MultiAddr) : Bool :=
  match address.dialableSocketAddr with
  | none => false
  | some socket => !socket.ip.isUnspecified

def sameLanPrefix (left right : IpAddr) : Bool :=
  match left.canonicalize, right.canonicalize with
  | .v4 left, .v4 right =>
    (IpAddr.v4 left).isLan && (IpAddr.v4 right).isLan
      && (List.range 3).all fun index => left.octet index == right.octet index
  | .v6 left, .v6 right =>
    (IpAddr.v6 left).isLan && (IpAddr.v6 right).isLan
      && (List.range 8).all fun index => left.octet index == right.octet index
  | _, _ => false

/-- `DialAddressContext` with the fields that rate local addresses. -/
structure DialPlanContext extends DialAddressContext where
  localLanIps : List IpAddr
  allowLoopback : Bool
  deriving DecidableEq, Repr

namespace DialPlanContext

variable (context : DialPlanContext)

def addressSharesLocalWan (address : MultiAddr) : Bool :=
  address.ip.any context.ipSharesLocalWan

/-- `lan_match_score`: the less the nearer. -/
def lanMatchScore (ip : IpAddr) : ℕ :=
  let ip := ip.canonicalize
  if !ip.isLan then 4
  else if ip.isLoopback then if context.allowLoopback then 0 else 4
  else if context.localLanIps.contains ip then 0
  else if context.localLanIps.any fun localIp => sameLanPrefix localIp ip then 1
  else 3

end DialPlanContext

structure WanChoice where
  index : ℕ
  address : MultiAddr
  type : AddressType
  deriving DecidableEq, Repr

structure LanChoice where
  index : ℕ
  score : ℕ
  address : MultiAddr
  type : AddressType
  deriving DecidableEq, Repr

def WanChoice.entry (choice : WanChoice) : MultiAddr × AddressType :=
  (choice.address, choice.type)

def LanChoice.entry (choice : LanChoice) : MultiAddr × AddressType :=
  (choice.address, choice.type)

/-- A WAN address replaces one of a weaker type. -/
def WanChoice.placeIn (candidate : WanChoice) (slot : Option WanChoice) : Option WanChoice :=
  if slot.all fun existing => candidate.type.priority < existing.type.priority then
    some candidate
  else slot

/-- A local address replaces one that is farther, or as far and behind it in the list. -/
def LanChoice.placeIn (candidate : LanChoice) (slot : Option LanChoice) : Option LanChoice :=
  if slot.all fun existing => candidate.score < existing.score
      || (candidate.score == existing.score && candidate.index < existing.index) then
    some candidate
  else slot

structure DialSlots where
  relay : Option (MultiAddr × AddressType)
  wanV4 : Option WanChoice
  wanV6 : Option WanChoice
  lanV4 : Option LanChoice
  lanV6 : Option LanChoice
  deriving DecidableEq, Repr

namespace DialSlots

def empty : DialSlots :=
  { relay := none, wanV4 := none, wanV6 := none, lanV4 := none, lanV6 := none }

/-- The slots of an IP family. -/
def wan (slots : DialSlots) (ipv4 : Bool) : Option WanChoice :=
  if ipv4 then slots.wanV4 else slots.wanV6

def lan (slots : DialSlots) (ipv4 : Bool) : Option LanChoice :=
  if ipv4 then slots.lanV4 else slots.lanV6

def placeWan (slots : DialSlots) (ipv4 : Bool) (candidate : WanChoice) : DialSlots :=
  if ipv4 then { slots with wanV4 := candidate.placeIn slots.wanV4 }
  else { slots with wanV6 := candidate.placeIn slots.wanV6 }

def placeLan (slots : DialSlots) (ipv4 : Bool) (candidate : LanChoice) : DialSlots :=
  if ipv4 then { slots with lanV4 := candidate.placeIn slots.lanV4 }
  else { slots with lanV6 := candidate.placeIn slots.lanV6 }

end DialSlots

section Select

-- `saorsa_transport::shared::normalize_socket_addr`
variable (normalize : SocketAddr → SocketAddr) (context : DialPlanContext)

/-- One pass of the loop of `select_dial_candidates_with_context`. -/
def DialSlots.consider (slots : DialSlots) (index : ℕ) (pair : MultiAddr × AddressType) :
    DialSlots :=
  if !isDialable pair.1 then slots
  else
    let type := AddressType.forAdvertisedAddress pair.1 pair.2
    if type = .relay then
      if slots.relay.isNone && !context.addressSharesLocalWan pair.1 then
        { slots with relay := some (pair.1, type) }
      else slots
    else
      match pair.1.dialableSocketAddr with
      | none => slots
      | some socket =>
        let ip := (normalize socket).ip
        if type = .lan then
          slots.placeLan ip.isIpv4
            { index := index
              score := context.lanMatchScore ip
              address := pair.1
              type := type }
        else slots.placeWan ip.isIpv4 { index := index, address := pair.1, type := type }

/-- The local addresses, the nearest first. -/
def DialSlots.lanEntries (slots : DialSlots) : List (MultiAddr × AddressType) :=
  ([slots.lanV4, slots.lanV6].reduceOption.insertionSort fun left right =>
    toLex (left.score, left.index) ≤ toLex (right.score, right.index)).map LanChoice.entry

/-- The WAN addresses in the order of the list. -/
def DialSlots.wanEntries (slots : DialSlots) : List (MultiAddr × AddressType) :=
  ([slots.wanV4, slots.wanV6].reduceOption.insertionSort fun left right =>
    left.index ≤ right.index).map WanChoice.entry

/-- The slots in the order of the dials. -/
def DialSlots.plan (slots : DialSlots) (sharesWan : Bool) : List (MultiAddr × AddressType) :=
  let hasWanOrRelay := slots.relay.isSome || !slots.wanEntries.isEmpty
  let preferLan := !slots.lanEntries.isEmpty && sharesWan
  (if preferLan then slots.lanEntries else []) ++ slots.relay.toList ++ slots.wanEntries
    ++ if !preferLan && !hasWanOrRelay then slots.lanEntries else []

/-- The slots after the pass over the addresses. -/
def fillSlots (typed : List (MultiAddr × AddressType)) : DialSlots :=
  typed.zipIdx.foldl (fun slots entry => slots.consider normalize context entry.2 entry.1)
    DialSlots.empty

def selectDialCandidatesWithContext (typed : List (MultiAddr × AddressType)) :
    List (MultiAddr × AddressType) :=
  (fillSlots normalize context typed).plan (context.peerSharesWan typed)

end Select

/-! ## The plan without the pass -/

/-- The dialable addresses under their canonical types. -/
def dialable (typed : List (MultiAddr × AddressType)) : List (MultiAddr × AddressType) :=
  (typed.filter fun pair => isDialable pair.1).map fun pair =>
    (pair.1, AddressType.forAdvertisedAddress pair.1 pair.2)

/-- An IPv4-mapped address counts as IPv4. -/
def isFamilyV4 (entry : MultiAddr × AddressType) : Bool :=
  entry.1.canonicalIp.any IpAddr.isIpv4

def isWanOf (ipv4 : Bool) (entry : MultiAddr × AddressType) : Bool :=
  entry.2 != .relay && entry.2 != .lan && isFamilyV4 entry == ipv4

def isLanOf (ipv4 : Bool) (entry : MultiAddr × AddressType) : Bool :=
  entry.2 == .lan && isFamilyV4 entry == ipv4

namespace DialPlanContext

variable (context : DialPlanContext)

def onLocalWan (address : MultiAddr) : Bool :=
  address.canonicalIp.any context.localWanIps.contains

def isUsableRelay (entry : MultiAddr × AddressType) : Bool :=
  entry.2 == .relay && !context.onLocalWan entry.1

def lanScore (entry : MultiAddr × AddressType) : ℕ :=
  (entry.1.ip.map context.lanMatchScore).getD 4

/-- Something other than a local address can be dialed. -/
def hasWanOrRelay (typed : List (MultiAddr × AddressType)) : Bool :=
  (dialable typed).any fun entry =>
    context.isUsableRelay entry || isWanOf true entry || isWanOf false entry

end DialPlanContext

/-- What a dial plan is, for the addresses of a peer. -/
structure IsDialPlan (context : DialPlanContext)
    (typed plan : List (MultiAddr × AddressType)) : Prop where
  /-- Only dialable addresses of the peer, under their canonical types. -/
  drawn : ∀ entry ∈ plan, entry ∈ dialable typed
  /-- One relay in all, the first that is not on a local WAN IP. -/
  relay : plan.filter (fun entry => entry.2 == .relay) =
    ((dialable typed).find? context.isUsableRelay).toList
  /-- One WAN address of each family, the first of the strongest type. -/
  wan : ∀ ipv4, plan.filter (isWanOf ipv4) =
    (((dialable typed).filter (isWanOf ipv4)).argmin fun entry => entry.2.priority).toList
  /-- One local address of each family, the first of least score, if the peer shares a WAN IP
  or nothing else can be dialed; otherwise none. -/
  lan : ∀ ipv4, plan.filter (isLanOf ipv4) =
    if context.peerSharesWan typed || !context.hasWanOrRelay typed then
      (((dialable typed).filter (isLanOf ipv4)).argmin context.lanScore).toList
    else []
  /-- Local addresses come first; where the peer shares no WAN IP they are alone. -/
  order : ∃ lans others, plan = lans ++ others ∧ (∀ entry ∈ lans, entry.2 = .lan) ∧
    (∀ entry ∈ others, entry.2 ≠ .lan) ∧
    (context.peerSharesWan typed = false → lans = [] ∨ others = [])
  /-- Only relays on a local WAN IP are dialable and not dialed. -/
  eq_nil_iff : plan = [] ↔
    ∀ entry ∈ dialable typed, entry.2 = .relay ∧ context.onLocalWan entry.1 = true

/-! ## One pass -/

variable {normalize : SocketAddr → SocketAddr} {context : DialPlanContext}
  {typed : List (MultiAddr × AddressType)} {pair entry : MultiAddr × AddressType}

namespace DialSlots

variable (slots : DialSlots) (ipv4 family : Bool)

@[simp]
theorem wan_placeWan (candidate : WanChoice) : (slots.placeWan ipv4 candidate).wan family =
    if ipv4 = family then candidate.placeIn (slots.wan family) else slots.wan family := by
  cases ipv4 <;> cases family <;> rfl

@[simp]
theorem lan_placeWan (candidate : WanChoice) :
    (slots.placeWan ipv4 candidate).lan family = slots.lan family := by
  cases ipv4 <;> rfl

@[simp]
theorem relay_placeWan (candidate : WanChoice) :
    (slots.placeWan ipv4 candidate).relay = slots.relay := by
  cases ipv4 <;> rfl

@[simp]
theorem lan_placeLan (candidate : LanChoice) : (slots.placeLan ipv4 candidate).lan family =
    if ipv4 = family then candidate.placeIn (slots.lan family) else slots.lan family := by
  cases ipv4 <;> cases family <;> rfl

@[simp]
theorem wan_placeLan (candidate : LanChoice) :
    (slots.placeLan ipv4 candidate).wan family = slots.wan family := by
  cases ipv4 <;> rfl

@[simp]
theorem relay_placeLan (candidate : LanChoice) :
    (slots.placeLan ipv4 candidate).relay = slots.relay := by
  cases ipv4 <;> rfl

end DialSlots

/-- The slots hold the best of the addresses seen so far.  Positions only matter for local
addresses of the same score, and then the one in the slot came first. -/
structure DialSlots.Filled (context : DialPlanContext)
    (typed : List (MultiAddr × AddressType)) (slots : DialSlots) : Prop where
  relay : slots.relay = (dialable typed).find? context.isUsableRelay
  wan : ∀ ipv4, (slots.wan ipv4).map WanChoice.entry =
    ((dialable typed).filter (isWanOf ipv4)).argmin fun entry => entry.2.priority
  lan : ∀ ipv4, (slots.lan ipv4).map LanChoice.entry =
    ((dialable typed).filter (isLanOf ipv4)).argmin context.lanScore
  placed : ∀ ipv4, ∀ choice ∈ slots.lan ipv4,
    choice.score = context.lanScore choice.entry ∧ choice.index < typed.length

variable {seen : List (MultiAddr × AddressType)}

theorem map_entry_placeIn (candidate : WanChoice) (slot : Option WanChoice)
    (hslot : slot.map WanChoice.entry = seen.argmin fun entry => entry.2.priority) :
    (candidate.placeIn slot).map WanChoice.entry =
      (seen ++ [candidate.entry]).argmin fun entry => entry.2.priority := by
  rw [argmin_concat, ← hslot, WanChoice.placeIn]
  cases slot with
  | none => rfl
  | some existing =>
    by_cases hbetter : candidate.type.priority < existing.type.priority
    · simp [WanChoice.entry, hbetter]
    · simp [WanChoice.entry, hbetter]

theorem map_entry_placeIn_lan (candidate : LanChoice) (slot : Option LanChoice)
    (hslot : slot.map LanChoice.entry = seen.argmin context.lanScore)
    (hplaced : ∀ choice ∈ slot, choice.score = context.lanScore choice.entry ∧
      choice.index < candidate.index)
    (hscore : candidate.score = context.lanScore candidate.entry) :
    (candidate.placeIn slot).map LanChoice.entry =
      (seen ++ [candidate.entry]).argmin context.lanScore := by
  rw [argmin_concat, ← hslot, LanChoice.placeIn]
  cases slot with
  | none => rfl
  | some existing =>
    obtain ⟨hexisting, hindex⟩ := hplaced existing rfl
    have hlater : ¬candidate.index < existing.index := Nat.not_lt.mpr hindex.le
    by_cases hbetter : candidate.score < existing.score
    · simp [hbetter, ← hexisting, ← hscore]
    · simp [hbetter, hlater, ← hexisting, ← hscore]

theorem dialable_concat (hdialable : isDialable pair.1 = true) : dialable (typed ++ [pair]) =
      dialable typed ++ [(pair.1, forAdvertisedAddress pair.1 pair.2)] := by
  simp [dialable, hdialable]

theorem dialable_concat_of_not (hdialable : isDialable pair.1 = false) :
    dialable (typed ++ [pair]) = dialable typed := by
  simp [dialable, hdialable]

/-- A dialable address has a socket. -/
theorem exists_socket_of_isDialable {address : MultiAddr} (hdialable : isDialable address = true) :
    ∃ socket, address.dialableSocketAddr = some socket ∧ address.ip = some socket.ip := by
  obtain ⟨transport, peer⟩ := address
  cases transport with
  | quic socket => exact ⟨socket, rfl, rfl⟩
  | _ => cases hdialable

/-- A relay that keeps its type is not of local scope. -/
theorem addressSharesLocalWan_eq {address : MultiAddr} {advertised : AddressType}
    (htype : forAdvertisedAddress address advertised = .relay) :
    context.addressSharesLocalWan address = context.onLocalWan address := by
  cases hip : address.ip with
  | none =>
    simp [DialPlanContext.addressSharesLocalWan, DialPlanContext.onLocalWan, canonicalIp, hip]
  | some ip =>
    have hlan : ip.isLan = false := by
      cases hlan : ip.isLan with
      | false => rfl
      | true => simp [forAdvertisedAddress, hip, hlan] at htype
    simp [DialPlanContext.addressSharesLocalWan, DialPlanContext.onLocalWan,
      DialAddressContext.ipSharesLocalWan, canonicalIp, hip, hlan]

theorem lanMatchScore_canonicalize (ip : IpAddr) :
    context.lanMatchScore ip.canonicalize = context.lanMatchScore ip := by
  simp only [DialPlanContext.lanMatchScore, IpAddr.canonicalize_canonicalize]

namespace DialSlots.Filled

variable {slots next : DialSlots}

theorem empty : DialSlots.empty.Filled context [] := by
  refine ⟨rfl, ?_, ?_, ?_⟩
  · intro ipv4
    cases ipv4 <;> rfl
  · intro ipv4
    cases ipv4 <;> rfl
  · intro ipv4 choice hchoice
    cases ipv4 <;> cases hchoice

/-- An address that is not dialable changes nothing. -/
theorem skip (hfilled : slots.Filled context typed)
    (hdialable : isDialable pair.1 = false) : slots.Filled context (typed ++ [pair]) := by
  have hsame : dialable (typed ++ [pair]) = dialable typed := dialable_concat_of_not hdialable
  refine ⟨hsame ▸ hfilled.relay, hsame ▸ hfilled.wan, hsame ▸ hfilled.lan, ?_⟩
  intro ipv4 choice hchoice
  obtain ⟨hscore, hindex⟩ := hfilled.placed ipv4 choice hchoice
  exact ⟨hscore, by rw [length_append]; omega⟩

/-- A dialable address is offered to the slots of its class and leaves the others alone. -/
theorem concat (hfilled : slots.Filled context typed)
    (hentry : dialable (typed ++ [pair]) = dialable typed ++ [entry])
    (hrelay : next.relay = slots.relay.or ([entry].find? context.isUsableRelay))
    (hwan : ∀ ipv4, next.wan ipv4 = if isWanOf ipv4 entry then
      WanChoice.placeIn ⟨typed.length, entry.1, entry.2⟩ (slots.wan ipv4)
      else slots.wan ipv4)
    (hlan : ∀ ipv4, next.lan ipv4 = if isLanOf ipv4 entry then
      LanChoice.placeIn ⟨typed.length, context.lanScore entry, entry.1, entry.2⟩ (slots.lan ipv4)
      else slots.lan ipv4) :
    next.Filled context (typed ++ [pair]) := by
  have hlength : (typed ++ [pair]).length = typed.length + 1 := by simp
  refine ⟨?_, ?_, ?_, ?_⟩
  · rw [hrelay, hentry, find?_append, hfilled.relay]
  · intro ipv4
    rw [hwan, hentry, filter_append]
    by_cases hclass : isWanOf ipv4 entry = true
    · rw [if_pos hclass, filter_singleton, hclass]
      exact map_entry_placeIn _ _ (hfilled.wan ipv4)
    · rw [if_neg hclass, filter_singleton, eq_false_of_ne_true hclass]
      simpa using hfilled.wan ipv4
  · intro ipv4
    rw [hlan, hentry, filter_append]
    by_cases hclass : isLanOf ipv4 entry = true
    · rw [if_pos hclass, filter_singleton, hclass]
      exact map_entry_placeIn_lan _ _ (hfilled.lan ipv4) (hfilled.placed ipv4) rfl
    · rw [if_neg hclass, filter_singleton, eq_false_of_ne_true hclass]
      simpa using hfilled.lan ipv4
  · intro ipv4 choice hchoice
    have hold : choice ∈ slots.lan ipv4 → choice.score = context.lanScore choice.entry ∧
          choice.index < (typed ++ [pair]).length := by
      intro hchoice
      obtain ⟨hscore, hindex⟩ := hfilled.placed ipv4 choice hchoice
      exact ⟨hscore, by omega⟩
    rw [hlan] at hchoice
    by_cases hclass : isLanOf ipv4 entry = true
    · rw [if_pos hclass, LanChoice.placeIn] at hchoice
      split at hchoice
      · rw [Option.mem_some_iff] at hchoice
        subst hchoice
        exact ⟨rfl, by rw [hlength]; exact Nat.lt_succ_self _⟩
      · exact hold hchoice
    · rw [if_neg hclass] at hchoice
      exact hold hchoice

theorem consider (hnormalize : Unmaps normalize)
    (hfilled : slots.Filled context typed) (pair : MultiAddr × AddressType) :
    (slots.consider normalize context typed.length pair).Filled context (typed ++ [pair]) := by
  by_cases hdialable : isDialable pair.1 = true
  swap
  · rw [DialSlots.consider, if_pos (by simp [hdialable])]
    exact hfilled.skip (eq_false_of_ne_true hdialable)
  obtain ⟨socket, hsocket, hip⟩ := exists_socket_of_isDialable hdialable
  have hentry : dialable (typed ++ [pair]) = dialable typed ++ [_] :=
    dialable_concat hdialable
  generalize htype : forAdvertisedAddress pair.1 pair.2 = type at hentry
  have hfamily : isFamilyV4 (pair.1, type) = (normalize socket).ip.isIpv4 := by
    rw [hnormalize.ip, isFamilyV4, canonicalIp, hip]
    rfl
  have hscore : context.lanMatchScore (normalize socket).ip = context.lanScore (pair.1, type) := by
    rw [hnormalize.ip, lanMatchScore_canonicalize, DialPlanContext.lanScore, hip]
    rfl
  simp only [DialSlots.consider, hdialable, htype, hsocket, hscore, Bool.not_true,
    Bool.false_eq_true, if_false]
  by_cases hrelay : type = .relay
  · subst hrelay
    rw [if_pos rfl, addressSharesLocalWan_eq htype]
    apply hfilled.concat hentry
    · cases hslot : slots.relay <;> cases honWan : context.onLocalWan pair.1 <;>
        simp [DialPlanContext.isUsableRelay, honWan, hslot]
    · intro ipv4
      have hother : ¬isWanOf ipv4 (pair.1, .relay) = true := by simp [isWanOf]
      rw [if_neg hother]
      split <;> rfl
    · intro ipv4
      have hother : ¬isLanOf ipv4 (pair.1, .relay) = true := by simp [isLanOf]
      rw [if_neg hother]
      split <;> rfl
  by_cases hlan : type = .lan
  · subst hlan
    apply hfilled.concat hentry
    · simp [DialPlanContext.isUsableRelay]
    · intro ipv4
      simp [isWanOf]
    · intro ipv4
      simp [isLanOf, hfamily]
  · apply hfilled.concat hentry
    · simp [DialPlanContext.isUsableRelay, hrelay, hlan]
    · intro ipv4
      simp [isWanOf, hfamily, hrelay, hlan]
    · intro ipv4
      simp [isLanOf, hrelay, hlan]

end DialSlots.Filled

theorem fillSlots_filled (hnormalize : Unmaps normalize) (typed : List (MultiAddr × AddressType)) :
    (fillSlots normalize context typed).Filled context typed := by
  induction typed using reverseRecOn with
  | nil => exact DialSlots.Filled.empty
  | append_singleton typed pair ih =>
    have hstep : fillSlots normalize context (typed ++ [pair]) =
        (fillSlots normalize context typed).consider normalize context typed.length pair := by
      simp [fillSlots, zipIdx_append]
    rw [hstep]
    exact ih.consider hnormalize pair

/-! ## The order of the slots -/

/-- Sorting two slots and picking one class out again gives the slot of the class. -/
theorem filter_eq_toList {E : Type*} {slot : Bool → Option E} {member : Bool → E → Bool}
    {entries : List E} (hperm : entries.Perm ((slot true).toList ++ (slot false).toList))
    (hmember : ∀ family other, ∀ entry ∈ slot family, member other entry = (family == other))
    (family : Bool) : entries.filter (member family) = (slot family).toList := by
  have hslot (other : Bool) : (slot other).toList.filter (member family) =
      if other = family then (slot other).toList else [] := by
    cases hentry : slot other with
    | none => simp
    | some entry => cases other <;> cases family <;> simp [hmember _ _ entry hentry]
  have hfiltered := hperm.filter (member family)
  rw [filter_append, hslot, hslot] at hfiltered
  have hone : (entries.filter (member family)).Perm (slot family).toList := by
    cases family <;> simpa using hfiltered
  cases hentry : slot family with
  | none =>
    rw [hentry] at hone
    exact perm_nil.mp hone
  | some entry =>
    rw [hentry] at hone
    exact perm_singleton.mp hone

namespace DialSlots

theorem lanEntries_perm (slots : DialSlots) : slots.lanEntries.Perm
    (((slots.lan true).map LanChoice.entry).toList ++
      ((slots.lan false).map LanChoice.entry).toList) := by
  apply ((perm_insertionSort _ _).map LanChoice.entry).trans
  cases hv4 : slots.lanV4 <;> cases hv6 : slots.lanV6 <;> simp [lan, hv4, hv6]

theorem wanEntries_perm (slots : DialSlots) : slots.wanEntries.Perm
    (((slots.wan true).map WanChoice.entry).toList ++
      ((slots.wan false).map WanChoice.entry).toList) := by
  apply ((perm_insertionSort _ _).map WanChoice.entry).trans
  cases hv4 : slots.wanV4 <;> cases hv6 : slots.wanV6 <;> simp [wan, hv4, hv6]

/-- The local addresses stand in front, if they are in the plan. -/
theorem plan_eq (slots : DialSlots) (sharesWan : Bool) : slots.plan sharesWan =
      (if sharesWan || !(slots.relay.isSome || !slots.wanEntries.isEmpty) then
        slots.lanEntries else []) ++ (slots.relay.toList ++ slots.wanEntries) := by
  rw [plan]
  cases slots.lanEntries with
  | nil => simp
  | cons entry rest =>
    cases sharesWan with
    | true => simp
    | false =>
      cases slots.relay with
      | some relay => simp
      | none => cases slots.wanEntries <;> simp

namespace Filled

variable {slots : DialSlots} (hfilled : slots.Filled context typed)

include hfilled

theorem mem_of_mem_lan {ipv4 : Bool} (hentry : entry ∈ (slots.lan ipv4).map LanChoice.entry) :
    entry ∈ dialable typed ∧ entry.2 = .lan ∧ isFamilyV4 entry = ipv4 := by
  rw [hfilled.lan] at hentry
  have hmem := mem_filter.mp (argmin_mem hentry)
  simpa [isLanOf] using hmem

theorem mem_of_mem_wan {ipv4 : Bool} (hentry : entry ∈ (slots.wan ipv4).map WanChoice.entry) :
    entry ∈ dialable typed ∧ (entry.2 ≠ .relay ∧ entry.2 ≠ .lan) ∧ isFamilyV4 entry = ipv4 := by
  rw [hfilled.wan] at hentry
  have hmem := mem_filter.mp (argmin_mem hentry)
  simpa [isWanOf] using hmem

theorem mem_of_mem_relay (hentry : entry ∈ slots.relay) :
    entry ∈ dialable typed ∧ entry.2 = .relay := by
  rw [hfilled.relay] at hentry
  have husable := find?_some hentry
  simp only [DialPlanContext.isUsableRelay, Bool.and_eq_true, beq_iff_eq] at husable
  exact ⟨mem_of_find?_eq_some hentry, husable.1⟩

theorem mem_of_mem_lanEntries (hentry : entry ∈ slots.lanEntries) :
    entry ∈ dialable typed ∧ entry.2 = .lan := by
  rw [slots.lanEntries_perm.mem_iff, mem_append, Option.mem_toList, Option.mem_toList] at hentry
  rcases hentry with hentry | hentry
  · exact (hfilled.mem_of_mem_lan hentry).imp_right And.left
  · exact (hfilled.mem_of_mem_lan hentry).imp_right And.left

theorem mem_of_mem_wanEntries (hentry : entry ∈ slots.wanEntries) :
    entry ∈ dialable typed ∧ entry.2 ≠ .relay ∧ entry.2 ≠ .lan := by
  rw [slots.wanEntries_perm.mem_iff, mem_append, Option.mem_toList, Option.mem_toList] at hentry
  rcases hentry with hentry | hentry
  · exact (hfilled.mem_of_mem_wan hentry).imp_right And.left
  · exact (hfilled.mem_of_mem_wan hentry).imp_right And.left

theorem lanEntries_filter (ipv4 : Bool) : slots.lanEntries.filter (isLanOf ipv4) =
    (((dialable typed).filter (isLanOf ipv4)).argmin context.lanScore).toList := by
  rw [← hfilled.lan]
  apply filter_eq_toList slots.lanEntries_perm
  intro family other entry hentry
  obtain ⟨-, htype, hfamily⟩ := hfilled.mem_of_mem_lan hentry
  simp [isLanOf, htype, hfamily]

theorem wanEntries_filter (ipv4 : Bool) : slots.wanEntries.filter (isWanOf ipv4) =
    (((dialable typed).filter (isWanOf ipv4)).argmin fun entry =>
      entry.2.priority).toList := by
  rw [← hfilled.wan]
  apply filter_eq_toList slots.wanEntries_perm
  intro family other entry hentry
  obtain ⟨-, ⟨hrelay, hlan⟩, hfamily⟩ := hfilled.mem_of_mem_wan hentry
  simp [isWanOf, hrelay, hlan, hfamily]

/-- A class of WAN addresses is empty if its slot is. -/
theorem wanEntries_eq_nil_iff : slots.wanEntries = [] ↔
    ∀ entry ∈ dialable typed, ∀ ipv4, isWanOf ipv4 entry = false := by
  constructor
  · intro hnil entry hentry ipv4
    have hslot := hfilled.wanEntries_filter ipv4
    rw [hnil, filter_nil, eq_comm, Option.toList_eq_nil_iff, argmin_eq_none,
      filter_eq_nil_iff] at hslot
    exact eq_false_of_ne_true (hslot entry hentry)
  · intro hnone
    rw [eq_nil_iff_forall_not_mem]
    intro entry hentry
    obtain ⟨hmem, hrelay, hlan⟩ := hfilled.mem_of_mem_wanEntries hentry
    have hclass := hnone entry hmem (isFamilyV4 entry)
    simp [isWanOf, hrelay, hlan] at hclass

theorem lanEntries_eq_nil_iff : slots.lanEntries = [] ↔
    ∀ entry ∈ dialable typed, entry.2 ≠ .lan := by
  constructor
  · intro hnil entry hentry hlan
    have hslot := hfilled.lanEntries_filter (isFamilyV4 entry)
    rw [hnil, filter_nil, eq_comm, Option.toList_eq_nil_iff, argmin_eq_none,
      filter_eq_nil_iff] at hslot
    exact hslot entry hentry (by simp [isLanOf, hlan])
  · intro hnone
    rw [eq_nil_iff_forall_not_mem]
    intro entry hentry
    obtain ⟨hmem, hlan⟩ := hfilled.mem_of_mem_lanEntries hentry
    exact hnone entry hmem hlan

theorem relay_eq_none_iff : slots.relay = none ↔
    ∀ entry ∈ dialable typed, context.isUsableRelay entry = false := by
  rw [hfilled.relay, find?_eq_none]
  simp

theorem hasWanOrRelay_eq :
    (slots.relay.isSome || !slots.wanEntries.isEmpty) = context.hasWanOrRelay typed := by
  rw [Bool.eq_iff_iff, ← not_iff_not]
  have hothers : ¬(slots.relay.isSome || !slots.wanEntries.isEmpty) = true ↔
      slots.relay = none ∧ slots.wanEntries = [] := by
    simp
  rw [hothers, hfilled.relay_eq_none_iff, hfilled.wanEntries_eq_nil_iff]
  simp only [DialPlanContext.hasWanOrRelay, any_eq_true, not_exists, not_and,
    Bool.or_eq_true, not_or, Bool.not_eq_true, Bool.forall_bool]
  constructor
  · rintro ⟨hrelay, hwan⟩ entry hentry
    exact ⟨⟨hrelay entry hentry, (hwan entry hentry).2⟩, (hwan entry hentry).1⟩
  · intro hnone
    exact ⟨fun entry hentry => (hnone entry hentry).1.1,
      fun entry hentry => ⟨(hnone entry hentry).2, (hnone entry hentry).1.2⟩⟩

end Filled

end DialSlots

theorem filter_of_forall {E : Type*} {entries : List E} {member : E → Bool} (value : Bool)
    (hmember : ∀ entry ∈ entries, member entry = value) :
    entries.filter member = if value then entries else [] := by
  cases value with
  | true => exact filter_eq_self.mpr hmember
  | false => exact filter_eq_nil_iff.mpr fun entry hentry => by simp [hmember entry hentry]

section Plan

variable (hnormalize : Unmaps normalize) (context : DialPlanContext)
  (typed : List (MultiAddr × AddressType))

include hnormalize

/-- The parts of the plan, with what they consist of. -/
theorem selectDialCandidatesWithContext_eq : ∃ slots : DialSlots, slots.Filled context typed ∧
      selectDialCandidatesWithContext normalize context typed =
        (if context.peerSharesWan typed || !context.hasWanOrRelay typed then
          slots.lanEntries else []) ++ (slots.relay.toList ++ slots.wanEntries) := by
  have hfilled : (fillSlots normalize context typed).Filled context typed :=
    fillSlots_filled hnormalize typed
  refine ⟨_, hfilled, ?_⟩
  rw [selectDialCandidatesWithContext, DialSlots.plan_eq, hfilled.hasWanOrRelay_eq]

theorem selectDialCandidatesWithContext_subset :
    selectDialCandidatesWithContext normalize context typed ⊆ dialable typed := by
  obtain ⟨slots, hfilled, hplan⟩ := selectDialCandidatesWithContext_eq hnormalize context typed
  rw [hplan]
  intro entry hentry
  rw [mem_append, mem_append] at hentry
  rcases hentry with hentry | hentry | hentry
  · split at hentry
    · exact (hfilled.mem_of_mem_lanEntries hentry).1
    · cases hentry
  · exact (hfilled.mem_of_mem_relay (Option.mem_toList.mp hentry)).1
  · exact (hfilled.mem_of_mem_wanEntries hentry).1

theorem selectDialCandidatesWithContext_eq_nil_iff :
    selectDialCandidatesWithContext normalize context typed = [] ↔
      ∀ entry ∈ dialable typed, entry.2 = .relay ∧ context.onLocalWan entry.1 = true := by
  obtain ⟨slots, hfilled, hplan⟩ := selectDialCandidatesWithContext_eq hnormalize context typed
  rw [hplan, append_eq_nil_iff, append_eq_nil_iff, Option.toList_eq_nil_iff]
  constructor
  · rintro ⟨hlan, hnone, hnil⟩ entry hentry
    have hall : slots.lanEntries = [] := by
      rw [← hfilled.hasWanOrRelay_eq, hnone, hnil] at hlan
      simpa using hlan
    have husable := hfilled.relay_eq_none_iff.mp hnone entry hentry
    have hother := hfilled.wanEntries_eq_nil_iff.mp hnil entry hentry (isFamilyV4 entry)
    have hlocal := hfilled.lanEntries_eq_nil_iff.mp hall entry hentry
    cases htype : entry.2 <;>
      simp_all [DialPlanContext.isUsableRelay, isWanOf]
  · intro honly
    have hlan : slots.lanEntries = [] := hfilled.lanEntries_eq_nil_iff.mpr
      fun entry hentry => by rw [(honly entry hentry).1]; decide
    refine ⟨by rw [hlan]; split <;> rfl, hfilled.relay_eq_none_iff.mpr ?_,
      hfilled.wanEntries_eq_nil_iff.mpr ?_⟩
    · intro entry hentry
      simp [DialPlanContext.isUsableRelay, honly entry hentry]
    · intro entry hentry ipv4
      simp [isWanOf, (honly entry hentry).1]

end Plan

/-- For every list of addresses and every context the pass yields the dial plan. -/
theorem selectDialCandidatesWithContext_isDialPlan (hnormalize : Unmaps normalize)
    (context : DialPlanContext) (typed : List (MultiAddr × AddressType)) :
    IsDialPlan context typed (selectDialCandidatesWithContext normalize context typed) := by
  have hsubset := selectDialCandidatesWithContext_subset hnormalize context typed
  have hnil := selectDialCandidatesWithContext_eq_nil_iff hnormalize context typed
  obtain ⟨slots, hfilled, hplan⟩ := selectDialCandidatesWithContext_eq hnormalize context typed
  rw [hplan] at hsubset hnil ⊢
  generalize hkept : (context.peerSharesWan typed || !context.hasWanOrRelay typed) = kept
    at hsubset hnil
  have hlans : ∀ entry ∈ (if kept then slots.lanEntries else []), entry.2 = .lan := by
    intro entry hentry
    cases kept with
    | true => exact (hfilled.mem_of_mem_lanEntries hentry).2
    | false => cases hentry
  have hrelay : ∀ entry ∈ slots.relay.toList, entry.2 = .relay :=
    fun entry hentry => (hfilled.mem_of_mem_relay (Option.mem_toList.mp hentry)).2
  have hwan : ∀ entry ∈ slots.wanEntries, entry.2 ≠ .relay ∧ entry.2 ≠ .lan :=
    fun entry hentry => (hfilled.mem_of_mem_wanEntries hentry).2
  -- Each part has one kind of addresses, so that picking a kind picks a part.
  refine ⟨hsubset, ?_, ?_, ?_, ?_, hnil⟩
  · rw [filter_append, filter_append,
      filter_of_forall false fun entry hentry => by simp [hlans entry hentry],
      filter_of_forall true fun entry hentry => by simp [hrelay entry hentry],
      filter_of_forall false fun entry hentry => by simp [hwan entry hentry],
      hfilled.relay]
    simp
  · intro ipv4
    rw [filter_append, filter_append,
      filter_of_forall false fun entry hentry => by simp [isWanOf, hlans entry hentry],
      filter_of_forall false fun entry hentry => by simp [isWanOf, hrelay entry hentry],
      hfilled.wanEntries_filter]
    rfl
  · intro ipv4
    have hnoRelay : slots.relay.toList.filter (isLanOf ipv4) = [] :=
      filter_of_forall false fun entry hentry => by simp [isLanOf, hrelay entry hentry]
    have hnoWan : slots.wanEntries.filter (isLanOf ipv4) = [] :=
      filter_of_forall false fun entry hentry => by simp [isLanOf, hwan entry hentry]
    rw [filter_append, filter_append, hnoRelay, hnoWan, hkept]
    cases kept with
    | true => simpa using hfilled.lanEntries_filter ipv4
    | false => rfl
  · refine ⟨_, _, rfl, hlans, ?_, ?_⟩
    · intro entry hentry
      rcases mem_append.mp hentry with hentry | hentry
      · rw [hrelay entry hentry]
        decide
      · exact (hwan entry hentry).2
    · intro hshares
      rw [hshares, ← hfilled.hasWanOrRelay_eq] at hkept
      rw [← hkept]
      cases slots.relay <;> cases slots.wanEntries <;> simp

/-- A peer behind the local WAN address: its local address is dialed first, and of its relays
the one that is not on that address. -/
def neighbour : List (MultiAddr × AddressType) :=
  [(.quic (.v4 0x05050505 1), .relay), (.quic (.v4 0x06060606 1), .relay),
    (.quic (.v4 0x05050505 2), .direct), (.quic (.v4 0xC0A80107 3), .direct)]

def homeContext : DialPlanContext :=
  { localWanIps := [.v4 0x05050505], localLanIps := [.v4 0xC0A80101], allowLoopback := false }

theorem neighbour_isDialPlan :
    selectDialCandidatesWithContext SocketAddr.unmap homeContext neighbour =
        [(.quic (.v4 0xC0A80107 3), .lan), (.quic (.v4 0x06060606 1), .relay),
          (.quic (.v4 0x05050505 2), .direct)] ∧
      IsDialPlan homeContext neighbour
        (selectDialCandidatesWithContext SocketAddr.unmap homeContext neighbour) :=
  ⟨by decide +kernel, selectDialCandidatesWithContext_isDialPlan SocketAddr.unmaps_unmap _ _⟩

end SaorsaCore.Manager
