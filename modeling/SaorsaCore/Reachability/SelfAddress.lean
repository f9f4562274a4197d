import Mathlib.Data.List.Sort
import Mathlib.Data.Prod.Lex
import SaorsaCore.Address.TransportRecord

/-!
# The addresses a node announces for itself

One relay address, one WAN address and one LAN address for each IP family.  Observed
addresses come before listen addresses, a better tag replaces a worse one, and only
the relay address is ever tagged as a relay.
-/

namespace SaorsaCore

open List

/-- `dialable_socket_addr`: only QUIC can be dialed. -/
def MultiAddr.dialableSocketAddr (address : MultiAddr) : Option SocketAddr :=
  match address.transport with
  | .quic socket => some socket
  | _ => none

namespace Reachability

structure FamilyAddressChoice where
  firstSeenIndex : ℕ
  socketAddr : SocketAddr
  tag : AddressType
  deriving DecidableEq, Repr

structure SelfAddressSet where
  relay : Option SocketAddr
  wanV4 : Option FamilyAddressChoice
  wanV6 : Option FamilyAddressChoice
  lanV4 : Option FamilyAddressChoice
  lanV6 : Option FamilyAddressChoice
  deriving DecidableEq, Repr

inductive AddressSource where
  | observed
  | listen
  deriving DecidableEq, Repr

/-- A new observation supersedes one of the same tier; a listen address does not. -/
def AddressSource.replaceSameTier : AddressSource → Bool
  | .observed => true
  | .listen => false

/-- The choice of one slot after another candidate.  The index of the first candidate
stays. -/
def FamilyAddressChoice.replace (candidate : FamilyAddressChoice)
    (replaceSameTier : Bool) : Option FamilyAddressChoice → FamilyAddressChoice
  | none => candidate
  | some existing =>
    if candidate.tag.priority < existing.tag.priority
        || (replaceSameTier && candidate.tag.priority == existing.tag.priority) then
      { existing with
        socketAddr := candidate.socketAddr
        tag := candidate.tag }
    else existing

namespace SelfAddressSet

def empty : SelfAddressSet :=
  { relay := none, wanV4 := none, wanV6 := none, lanV4 := none, lanV6 := none }

/-- The choices of the four slots, in the order in which the source collects them. -/
def choices (set : SelfAddressSet) : List FamilyAddressChoice :=
  [set.wanV4, set.wanV6, set.lanV4, set.lanV6].reduceOption

def containsSelected (set : SelfAddressSet) (socketAddr : SocketAddr) : Bool :=
  set.relay == some socketAddr
    || set.choices.any fun choice => choice.socketAddr == socketAddr

def recordNonRelayChoice (set : SelfAddressSet) (candidate : FamilyAddressChoice)
    (replaceSameTier : Bool) : SelfAddressSet :=
  let replace := candidate.replace replaceSameTier
  match candidate.tag, candidate.socketAddr.ip.isIpv4 with
  | .lan, true => { set with lanV4 := some (replace set.lanV4) }
  | .lan, false => { set with lanV6 := some (replace set.lanV6) }
  | _, true => { set with wanV4 := some (replace set.wanV4) }
  | _, false => { set with wanV6 := some (replace set.wanV6) }

/-- The relay address, then the choices by tag and by first appearance. -/
def intoTypedVec (set : SelfAddressSet) : List (MultiAddr × AddressType) :=
  (set.relay.map fun relay => (MultiAddr.quic relay, AddressType.relay)).toList
    ++ (set.choices.insertionSort fun left right =>
        toLex (left.tag.priority, left.firstSeenIndex)
          ≤ toLex (right.tag.priority, right.firstSeenIndex)).map
      fun choice => (MultiAddr.quic choice.socketAddr, choice.tag)

end SelfAddressSet

section Build

-- `saorsa_transport::shared::normalize_socket_addr`, and the transport's proof that an
-- external address is reachable.
variable (normalize : SocketAddr → SocketAddr) (isExternalProven : SocketAddr → Bool)

def selfAddressTag (socketAddr : SocketAddr) : AddressType :=
  if socketAddr.ip.isLan then .lan
  else if isExternalProven socketAddr then .direct
  else .unverified

/-- One candidate; the second component counts the candidates that reached a slot. -/
def recordNonRelaySelfAddress (source : AddressSource)
    (state : SelfAddressSet × ℕ) (socketAddr : SocketAddr) : SelfAddressSet × ℕ :=
  if socketAddr.ip.isUnspecified || socketAddr.port == 0 then state
  else
    let normalized := normalize socketAddr
    if state.1.containsSelected normalized then state
    else
      (state.1.recordNonRelayChoice
        { firstSeenIndex := state.2
          socketAddr := normalized
          tag := selfAddressTag isExternalProven normalized }
        source.replaceSameTier, state.2 + 1)

def buildSelfAddressSet (observed : List SocketAddr) (listen : List MultiAddr)
    (relay : Option SocketAddr) : SelfAddressSet :=
  let start := { SelfAddressSet.empty with relay := relay.map normalize }
  let afterObserved := observed.foldl
    (recordNonRelaySelfAddress normalize isExternalProven .observed) (start, 0)
  ((listen.filterMap MultiAddr.dialableSocketAddr).foldl
    (recordNonRelaySelfAddress normalize isExternalProven .listen) afterObserved).1

/-! ## Only the relay is tagged as a relay -/

/-- The relay of the set is the given one, and no slot is tagged as a relay. -/
structure SelfAddressSet.RelayIs (relay : Option SocketAddr) (set : SelfAddressSet) :
    Prop where
  relay : set.relay = relay
  wanV4 : ∀ choice ∈ set.wanV4, choice.tag ≠ .relay
  wanV6 : ∀ choice ∈ set.wanV6, choice.tag ≠ .relay
  lanV4 : ∀ choice ∈ set.lanV4, choice.tag ≠ .relay
  lanV6 : ∀ choice ∈ set.lanV6, choice.tag ≠ .relay

theorem FamilyAddressChoice.tag_replace {candidate : FamilyAddressChoice}
    (hcandidate : candidate.tag ≠ .relay) (replaceSameTier : Bool)
    {slot : Option FamilyAddressChoice} (hslot : ∀ choice ∈ slot, choice.tag ≠ .relay) :
    ∀ choice ∈ some (candidate.replace replaceSameTier slot), choice.tag ≠ .relay := by
  intro choice hchoice
  rw [Option.mem_some_iff] at hchoice
  subst hchoice
  cases slot with
  | none => exact hcandidate
  | some existing =>
    rw [FamilyAddressChoice.replace]
    split
    · exact hcandidate
    · exact hslot existing rfl

variable {relay : Option SocketAddr}

theorem SelfAddressSet.RelayIs.recordNonRelayChoice {set : SelfAddressSet}
    (hset : set.RelayIs relay) {candidate : FamilyAddressChoice}
    (hcandidate : candidate.tag ≠ .relay) (replaceSameTier : Bool) :
    (set.recordNonRelayChoice candidate replaceSameTier).RelayIs relay := by
  have hreplace {slot : Option FamilyAddressChoice} :=
    @FamilyAddressChoice.tag_replace candidate hcandidate replaceSameTier slot
  simp only [SelfAddressSet.recordNonRelayChoice]
  split
  · exact { hset with lanV4 := hreplace hset.lanV4 }
  · exact { hset with lanV6 := hreplace hset.lanV6 }
  · exact { hset with wanV4 := hreplace hset.wanV4 }
  · exact { hset with wanV6 := hreplace hset.wanV6 }

theorem selfAddressTag_ne_relay (socketAddr : SocketAddr) :
    selfAddressTag isExternalProven socketAddr ≠ .relay := by
  rw [selfAddressTag]
  split
  · decide
  · split <;> decide

theorem recordAll_relayIs (source : AddressSource) (candidates : List SocketAddr)
    {state : SelfAddressSet × ℕ} (hstate : state.1.RelayIs relay) :
    (candidates.foldl (recordNonRelaySelfAddress normalize isExternalProven source)
      state).1.RelayIs relay := by
  refine foldlRecOn (motive := fun state : SelfAddressSet × ℕ =>
    state.1.RelayIs relay) candidates _ hstate ?_
  intro state hstate candidate _
  simp only [recordNonRelaySelfAddress]
  split
  · exact hstate
  · split
    · exact hstate
    · exact hstate.recordNonRelayChoice (selfAddressTag_ne_relay _ _) _

theorem buildSelfAddressSet_relayIs (observed : List SocketAddr)
    (listen : List MultiAddr) (relay : Option SocketAddr) :
    (buildSelfAddressSet normalize isExternalProven observed listen relay).RelayIs
      (relay.map normalize) := by
  apply recordAll_relayIs
  apply recordAll_relayIs
  exact ⟨rfl, by simp [SelfAddressSet.empty], by simp [SelfAddressSet.empty],
    by simp [SelfAddressSet.empty], by simp [SelfAddressSet.empty]⟩

/-- A typed set names a relay exactly when it was built with one. -/
theorem mem_intoTypedVec_relay_iff {observed : List SocketAddr} {listen : List MultiAddr}
    {address : MultiAddr} :
    (address, AddressType.relay) ∈ (buildSelfAddressSet normalize isExternalProven observed listen
          relay).intoTypedVec ↔
      ∃ socket, relay = some socket ∧ address = MultiAddr.quic (normalize socket) := by
  have hset := buildSelfAddressSet_relayIs normalize isExternalProven observed listen relay
  have hchoices : ∀ choice ∈ (buildSelfAddressSet normalize isExternalProven observed
      listen relay).choices, choice.tag ≠ .relay := by
    intro choice hchoice
    rw [SelfAddressSet.choices, reduceOption_mem_iff] at hchoice
    simp only [mem_cons, not_mem_nil, or_false] at hchoice
    rcases hchoice with hslot | hslot | hslot | hslot
    · exact hset.wanV4 choice hslot.symm
    · exact hset.wanV6 choice hslot.symm
    · exact hset.lanV4 choice hslot.symm
    · exact hset.lanV6 choice hslot.symm
  rw [SelfAddressSet.intoTypedVec, mem_append, hset.relay]
  constructor
  · rintro (hrelay | hother)
    · simp only [Option.map_map, Option.mem_toList, Option.map_eq_some_iff,
        Function.comp_apply, Prod.mk.injEq] at hrelay
      obtain ⟨socket, hsocket, haddress, -⟩ := hrelay
      exact ⟨socket, hsocket, haddress.symm⟩
    · obtain ⟨choice, hchoice, hpair⟩ := mem_map.mp hother
      have htag := hchoices choice ((mem_insertionSort _).mp hchoice)
      exact absurd (congrArg Prod.snd hpair) htag
  · rintro ⟨socket, rfl, rfl⟩
    exact Or.inl (by simp)

end Build

end Reachability

end SaorsaCore
