import Mathlib.Data.Finset.Card
import Mathlib.Logic.Function.Basic
import SaorsaCore.Address.MultiAddr
import SaorsaCore.Core.Collections

/-!
# Observers of the node's external addresses

An external address counts as directly reachable once two peers that the node neither
dialed nor met before have connected to it and reported it.  The report, the connection
and the pin of the address arrive in any order as separate events, and whichever comes
last gives the credit.
-/

namespace SaorsaCore.Reachability

open List Function

def maxDirectAddresses : ℕ := 16

def maxUnverifiedAddresses : ℕ := 16

def maxObservationsPerPeer : ℕ := 8

def minDistinctObserversForDirect : ℕ := 2

structure ExternalAddresses where
  direct : List SocketAddr
  unverified : List SocketAddr
  relay : Option SocketAddr
  deriving DecidableEq, Repr

/-- Which end opened a connection. -/
inductive Side where
  | client
  | server
  deriving DecidableEq, Repr

/-- What the two publishers of address events were given. -/
inductive AddressEvent where
  | directAddressPromoted (address : SocketAddr)
  | selfAddressUpdated (address : SocketAddr)
  deriving DecidableEq, Repr

/-- The maps that the classifier and the address forwarder share.  `observers` are the
keys of `peerObservations`, and `emitted` is what was published so far. -/
structure ProofState where
  dialedAddrs : List SocketAddr
  knownPeerIps : List IpAddr
  externalAddresses : ExternalAddresses
  observers : List IpAddr
  peerObservations : IpAddr → List SocketAddr
  proofEligiblePeers : List IpAddr
  provenExternals : SocketAddr → List IpAddr
  emitted : List AddressEvent

structure ObservedExternalOutcome where
  promoted : Option SocketAddr
  publishableAdded : Option SocketAddr
  deriving DecidableEq, Repr

def ProofState.new : ProofState :=
  { dialedAddrs := []
    knownPeerIps := []
    externalAddresses := { direct := [], unverified := [], relay := none }
    observers := []
    peerObservations := fun _ => []
    proofEligiblePeers := []
    provenExternals := fun _ => []
    emitted := [] }

/-! ## The handlers -/

section Handlers

-- `saorsa_transport::shared::normalize_socket_addr`
variable (normalize : SocketAddr → SocketAddr)

namespace ExternalAddresses

/-- The oldest direct address gives way to a new one. -/
def pinDirect (external : ExternalAddresses) (addr : SocketAddr) : ExternalAddresses × Bool :=
  let addr := normalize addr
  if some addr = external.relay ∨ addr ∈ external.direct then (external, false)
  else
    let kept := if external.direct.length ≥ maxDirectAddresses
      then external.direct.tail else external.direct
    ({ external with
        unverified := external.unverified.filter fun unverified => unverified != addr
        direct := kept ++ [addr] }, true)

/-- The answer tells whether the publishable set changed. -/
def recordUnverified (external : ExternalAddresses) (addr : SocketAddr) :
    ExternalAddresses × Bool :=
  let addr := normalize addr
  if some addr = external.relay ∨ addr ∈ external.direct then (external, false)
  else if addr ∈ external.unverified then
    ({ external with unverified := external.unverified.erase addr ++ [addr] }, false)
  else
    let kept := if external.unverified.length ≥ maxUnverifiedAddresses
      then external.unverified.tail else external.unverified
    ({ external with unverified := kept ++ [addr] }, true)

def setRelay (external : ExternalAddresses) (addr : SocketAddr) : ExternalAddresses :=
  let addr := normalize addr
  { direct := external.direct.filter fun direct => direct != addr
    unverified := external.unverified.filter fun unverified => unverified != addr
    relay := some addr }

def clearRelay (external : ExternalAddresses) : ExternalAddresses :=
  { external with relay := none }

end ExternalAddresses

/-- The IP under which a remote socket is booked. -/
def remoteIp (socketAddr : SocketAddr) : IpAddr :=
  (normalize socketAddr).ip.canonicalize

namespace ProofState

/-- The answer is the address if this observer makes it reach the threshold. -/
def recordAttributedObserver (peerIp : IpAddr) (normalizedExt : SocketAddr)
    (state : ProofState) : ProofState × Option SocketAddr :=
  let entry := state.provenExternals normalizedExt
  let inserted := !entry.contains peerIp
  let count := (entry.insert peerIp).length
  ({ state with
      provenExternals :=
        Function.update state.provenExternals normalizedExt (entry.insert peerIp) },
    if inserted && count == minDistinctObserversForDirect then some normalizedExt
    else none)

def creditObservation (peerIp : IpAddr) (external : SocketAddr)
    (pinnedDirect : List SocketAddr) (state : ProofState) :
    ProofState × Option SocketAddr :=
  let normalizedExt := normalize external
  if normalizedExt ∈ pinnedDirect then state.recordAttributedObserver peerIp normalizedExt
  else (state, none)

/-- A loop that keeps the addresses its passes promote. -/
def promoteEach {A : Type*} (pass : A → ProofState → ProofState × Option SocketAddr) :
    List A → ProofState → ProofState × List SocketAddr
  | [], state => (state, [])
  | item :: items, state =>
    let first := pass item state
    let rest := promoteEach pass items first.1
    (rest.1, first.2.toList ++ rest.2)

/-- `handle_peer_connected_for_proof`; the address is `none` for a transport without
sockets. -/
def handlePeerConnectedForProof (order : HashOrder SocketAddr)
    (addr : Option SocketAddr) (side : Side) (state : ProofState) :
    ProofState × List SocketAddr :=
  match addr with
  | none => (state, [])
  | some socketAddr =>
    let normalized := normalize socketAddr
    let peerIp := remoteIp normalize socketAddr
    let wasKnownBefore :=
      state.knownPeerIps.contains peerIp || state.dialedAddrs.contains normalized
    let recorded := { state with knownPeerIps := state.knownPeerIps.insert peerIp }
    if side ≠ .server then (recorded, [])
    else if wasKnownBefore then (recorded, [])
    else
      let pinnedDirect := recorded.externalAddresses.direct
      if pinnedDirect.any fun own => own.ip.canonicalize == peerIp then (recorded, [])
      else
        let eligible := { recorded with
          proofEligiblePeers := recorded.proofEligiblePeers.insert peerIp }
        promoteEach (fun ext => creditObservation normalize peerIp ext pinnedDirect)
          (order.arrange (eligible.peerObservations peerIp)) eligible

/-- Is the report new, and is there room for it? -/
def accepts (state : ProofState) (peerIp : IpAddr) (normalizedExt : SocketAddr) : Bool :=
  let entry := state.peerObservations peerIp
  !entry.contains normalizedExt && entry.length < maxObservationsPerPeer

def recordObservation (peerIp : IpAddr) (normalizedExt : SocketAddr)
    (state : ProofState) : ProofState :=
  { state with
    observers := state.observers.insert peerIp
    peerObservations := Function.update state.peerObservations peerIp
      (state.peerObservations peerIp ++ [normalizedExt]) }

def handlePeerObservedExternal (peerAddr observedExternal : SocketAddr)
    (state : ProofState) : ProofState × ObservedExternalOutcome :=
  let peerIp := remoteIp normalize peerAddr
  let normalizedExt := normalize observedExternal
  if state.accepts peerIp normalizedExt then
    let recorded := state.recordObservation peerIp normalizedExt
    let noted := recorded.externalAddresses.recordUnverified normalize normalizedExt
    let publishableAdded := if noted.2 then some normalizedExt else none
    let state := { recorded with externalAddresses := noted.1 }
    if peerIp ∈ state.proofEligiblePeers then
      let credited := state.creditObservation normalize peerIp normalizedExt
        state.externalAddresses.direct
      (credited.1, { promoted := credited.2, publishableAdded := publishableAdded })
    else (state, { promoted := none, publishableAdded := publishableAdded })
  else (state, { promoted := none, publishableAdded := none })

def backFillProofOnPin (order : HashOrder IpAddr) (external : SocketAddr)
    (state : ProofState) : ProofState × List SocketAddr :=
  let normalizedExt := normalize external
  promoteEach (fun peerIp state =>
      if peerIp ∈ state.proofEligiblePeers ∧ normalizedExt ∈ state.peerObservations peerIp then
        state.recordAttributedObserver peerIp normalizedExt
      else (state, none))
    (order.arrange state.observers) state

def emit (events : List AddressEvent) (state : ProofState) : ProofState :=
  { state with emitted := state.emitted ++ events }

/-- The forwarder's answer to `ExternalAddressDiscovered`. -/
def handleExternalAddressDiscovered (order : HashOrder IpAddr)
    (addr : Option SocketAddr) (state : ProofState) : ProofState :=
  match addr with
  | none => state
  | some socketAddr =>
    let normalized := normalize socketAddr
    let pinned := state.externalAddresses.pinDirect normalize normalized
    if pinned.2 then
      let filled := { state with externalAddresses := pinned.1 }.backFillProofOnPin
        normalize order normalized
      if filled.2.isEmpty then filled.1.emit [.selfAddressUpdated normalized]
      else filled.1.emit (filled.2.map .directAddressPromoted)
    else state

/-- `connect_peer` books the target before it dials. -/
def registerDial (target : SocketAddr) (state : ProofState) : ProofState :=
  { state with
    dialedAddrs := state.dialedAddrs.insert (normalize target)
    knownPeerIps := state.knownPeerIps.insert (remoteIp normalize target) }

end ProofState

def externalMeetsProofThreshold (external : SocketAddr)
    (provenExternals : SocketAddr → List IpAddr) : Bool :=
  decide ((provenExternals (normalize external)).length ≥ minDistinctObserversForDirect)

/-- What happens to the node.  The hash orders are those in which a handler finds the
entries of the map it iterates over. -/
inductive ReachabilityEvent where
  | dialRegistered (target : SocketAddr)
  | peerConnected (addr : Option SocketAddr) (side : Side)
      (order : HashOrder SocketAddr)
  | peerObservedExternal (peerAddr observedExternal : SocketAddr)
  | externalAddressDiscovered (addr : Option SocketAddr) (order : HashOrder IpAddr)
  | relaySet (addr : SocketAddr)
  | relayCleared

/-- One event, handled without interruption. -/
def ProofState.handle (state : ProofState) : ReachabilityEvent → ProofState
  | .dialRegistered target => state.registerDial normalize target
  | .peerConnected addr side order =>
    let handled := state.handlePeerConnectedForProof normalize order addr side
    handled.1.emit (handled.2.map .directAddressPromoted)
  | .peerObservedExternal peerAddr observedExternal =>
    let handled := state.handlePeerObservedExternal normalize peerAddr observedExternal
    handled.1.emit (handled.2.publishableAdded.toList.map .selfAddressUpdated
      ++ handled.2.promoted.toList.map .directAddressPromoted)
  | .externalAddressDiscovered addr order =>
    state.handleExternalAddressDiscovered normalize order addr
  | .relaySet addr =>
    { state with externalAddresses := state.externalAddresses.setRelay normalize addr }
  | .relayCleared =>
    { state with externalAddresses := state.externalAddresses.clearRelay }

/-- The state of a node after a sequence of events. -/
def ProofState.after (events : List ReachabilityEvent) : ProofState :=
  events.foldl (ProofState.handle normalize) ProofState.new

end Handlers

/-! ## What a handler may change -/

/-- An unverified candidate changes neither the relay nor the pins. -/
theorem ExternalAddresses.recordUnverified_frame (normalize : SocketAddr → SocketAddr)
    (external : ExternalAddresses) (addr : SocketAddr) :
    (external.recordUnverified normalize addr).1.relay = external.relay
      ∧ (external.recordUnverified normalize addr).1.direct = external.direct := by
  simp only [recordUnverified]
  split
  · exact ⟨rfl, rfl⟩
  · split <;> exact ⟨rfl, rfl⟩

/-- A pin that succeeds adds the address. -/
theorem ExternalAddresses.mem_direct_pinDirect {normalize : SocketAddr → SocketAddr}
    {external : ExternalAddresses} {addr ext : SocketAddr}
    (hmem : ext ∈ (external.pinDirect normalize addr).1.direct) :
    ext ∈ external.direct
      ∨ ext = normalize addr ∧ (external.pinDirect normalize addr).2 = true := by
  simp only [ExternalAddresses.pinDirect] at hmem ⊢
  split at hmem
  · exact .inl hmem
  · next hfresh =>
      rcases mem_append.mp hmem with hkept | hadded
      · left
        split at hkept
        · exact mem_of_mem_tail hkept
        · exact hkept
      · right
        rw [if_neg hfresh]
        exact ⟨mem_singleton.mp hadded, rfl⟩

section Credit

namespace ProofState

variable {state next last : ProofState} {peerIp : IpAddr} {ext : SocketAddr}

/-- Only observers were added, each with a warrant, and none of them twice. -/
structure Credited (warrant : IpAddr → SocketAddr → Prop) (state next : ProofState) :
    Prop where
  frame : next = { state with provenExternals := next.provenExternals }
  warranted : ∀ ext, ∀ peerIp ∈ next.provenExternals ext,
    peerIp ∈ state.provenExternals ext ∨ warrant peerIp ext
  nodup : ∀ ext, (state.provenExternals ext).Nodup → (next.provenExternals ext).Nodup
  grows : ∀ ext, (state.provenExternals ext).length ≤ (next.provenExternals ext).length

variable {warrant : IpAddr → SocketAddr → Prop}

namespace Credited

theorem refl (state : ProofState) : state.Credited warrant state :=
  { frame := rfl
    warranted := fun _ _ hproven => .inl hproven
    nodup := fun _ hnodup => hnodup
    grows := fun _ => le_rfl }

theorem trans (hfirst : state.Credited warrant next) (hsecond : next.Credited warrant last) :
    state.Credited warrant last :=
  { frame := by
      rw [hsecond.frame, hfirst.frame]
    warranted := by
      intro ext peerIp hproven
      rcases hsecond.warranted ext peerIp hproven with hproven | hwarrant
      · exact hfirst.warranted ext peerIp hproven
      · exact .inr hwarrant
    nodup := fun ext hnodup => hsecond.nodup ext (hfirst.nodup ext hnodup)
    grows := fun ext => (hfirst.grows ext).trans (hsecond.grows ext) }

end Credited

theorem recordAttributedObserver_credited (hwarrant : warrant peerIp ext) :
    state.Credited warrant (state.recordAttributedObserver peerIp ext).1 := by
  constructor
  · rfl
  · intro other otherIp hproven
    simp only [recordAttributedObserver, update_apply] at hproven
    split at hproven
    · next heq =>
        subst heq
        rcases mem_insert_iff.mp hproven with rfl | hproven
        · exact .inr hwarrant
        · exact .inl hproven
    · exact .inl hproven
  · intro other hnodup
    simp only [recordAttributedObserver, update_apply]
    split
    · next heq =>
        subst heq
        exact hnodup.insert
    · exact hnodup
  · intro other
    simp only [recordAttributedObserver, update_apply]
    split
    · next heq =>
        subst heq
        exact length_le_length_insert
    · exact le_rfl

/-- The addresses of the list have enough observers. -/
def Reached (promoted : List SocketAddr) (state : ProofState) : Prop :=
  ∀ ext ∈ promoted, minDistinctObserversForDirect ≤ (state.provenExternals ext).length

/-- Enough observers are two different ones. -/
theorem two_observers_iff {observers : List IpAddr} (hnodup : observers.Nodup) :
    minDistinctObserversForDirect ≤ observers.length
      ↔ ∃ first second, first ≠ second ∧ first ∈ observers ∧ second ∈ observers := by
  rw [← toFinset_card_of_nodup hnodup]
  have hcard := Finset.one_lt_card (s := observers.toFinset)
  simp only [mem_toFinset] at hcard
  refine hcard.trans ⟨?_, ?_⟩
  · rintro ⟨first, hfirst, second, hsecond, hne⟩
    exact ⟨first, second, hne, hfirst, hsecond⟩
  · rintro ⟨first, second, hne, hfirst, hsecond⟩
    exact ⟨first, hfirst, second, hsecond, hne⟩

theorem recordAttributedObserver_reached (peerIp : IpAddr) (ext : SocketAddr) (state : ProofState) :
    (state.recordAttributedObserver peerIp ext).1.Reached
      (state.recordAttributedObserver peerIp ext).2.toList := by
  intro promoted hpromoted
  simp only [recordAttributedObserver, Option.mem_toList] at hpromoted ⊢
  split at hpromoted
  · next hcount =>
      cases hpromoted
      rw [update_self]
      have hcount := (Bool.and_eq_true_iff.mp hcount).2
      exact (beq_iff_eq.mp hcount).ge
  · cases hpromoted

theorem creditObservation_reached (normalize : SocketAddr → SocketAddr) (peerIp : IpAddr)
    (ext : SocketAddr) (pinnedDirect : List SocketAddr) (state : ProofState) :
    (state.creditObservation normalize peerIp ext pinnedDirect).1.Reached
      (state.creditObservation normalize peerIp ext pinnedDirect).2.toList := by
  rw [creditObservation]
  split
  · exact recordAttributedObserver_reached peerIp (normalize ext) state
  · exact fun promoted hpromoted => nomatch hpromoted

variable {normalize : SocketAddr → SocketAddr}

theorem creditObservation_credited {pinnedDirect : List SocketAddr}
    (hwarrant : normalize ext ∈ pinnedDirect → warrant peerIp (normalize ext)) :
    state.Credited warrant (state.creditObservation normalize peerIp ext pinnedDirect).1 := by
  rw [creditObservation]
  split
  · next hpinned => exact recordAttributedObserver_credited (hwarrant hpinned)
  · exact Credited.refl state

/-- A loop credits what its passes credit.  The passes may read the maps that no
credit changes. -/
theorem promoteEach_credited {A : Type*}
    {pass : A → ProofState → ProofState × Option SocketAddr} {items : List A}
    (hpass : ∀ item ∈ items, ∀ found, state.Credited warrant found →
      found.Credited warrant (pass item found).1) :
    state.Credited warrant (promoteEach pass items state).1 := by
  have hloop : ∀ found, state.Credited warrant found →
      state.Credited warrant (promoteEach pass items found).1 := by
    induction items with
    | nil => exact fun found hfound => hfound
    | cons item items ih =>
      intro found hfound
      have hfirst := hfound.trans (hpass item mem_cons_self found hfound)
      exact ih (fun other hother => hpass other (mem_cons_of_mem item hother)) _ hfirst
  exact hloop state (Credited.refl state)

/-- What a loop promotes has enough observers when the loop ends: later passes take no
observer away. -/
theorem promoteEach_reached {A : Type*}
    {pass : A → ProofState → ProofState × Option SocketAddr}
    (hgrows : ∀ item (found : ProofState), found.Credited (fun _ _ => True) (pass item found).1)
    (hreached : ∀ item found, (pass item found).1.Reached (pass item found).2.toList)
    (items : List A) (state : ProofState) :
    (promoteEach pass items state).1.Reached (promoteEach pass items state).2 := by
  induction items generalizing state with
  | nil => exact fun promoted hpromoted => nomatch hpromoted
  | cons item items ih =>
    intro promoted hpromoted
    rcases mem_append.mp hpromoted with hfirst | hrest
    · have hloop : (pass item state).1.Credited (fun _ _ => True)
          (promoteEach pass items (pass item state).1).1 :=
        promoteEach_credited fun other _ found _ => hgrows other found
      exact (hreached item state promoted hfirst).trans (hloop.grows promoted)
    · exact ih (pass item state).1 promoted hrest

/-- The back-fill credits the eligible peers that reported the address. -/
theorem backFillProofOnPin_credited {order : HashOrder IpAddr}
    (hwarrant : ∀ peerIp ∈ state.proofEligiblePeers,
      normalize ext ∈ state.peerObservations peerIp → warrant peerIp (normalize ext)) :
    state.Credited warrant (state.backFillProofOnPin normalize order ext).1 := by
  apply promoteEach_credited
  intro peerIp _ found hfound
  split
  · next hobserver =>
      rw [hfound.frame] at hobserver
      exact recordAttributedObserver_credited (hwarrant peerIp hobserver.1 hobserver.2)
  · exact Credited.refl found

theorem backFillProofOnPin_reached (normalize : SocketAddr → SocketAddr)
    (order : HashOrder IpAddr) (ext : SocketAddr) (state : ProofState) :
    (state.backFillProofOnPin normalize order ext).1.Reached
      (state.backFillProofOnPin normalize order ext).2 := by
  apply promoteEach_reached
  · intro peerIp found
    split
    · exact recordAttributedObserver_credited trivial
    · exact Credited.refl found
  · intro peerIp found
    split
    · exact recordAttributedObserver_reached peerIp (normalize ext) found
    · exact fun promoted hpromoted => nomatch hpromoted

theorem handlePeerConnectedForProof_reached (normalize : SocketAddr → SocketAddr)
    (order : HashOrder SocketAddr) (addr : Option SocketAddr) (side : Side)
    (state : ProofState) :
    (state.handlePeerConnectedForProof normalize order addr side).1.Reached
      (state.handlePeerConnectedForProof normalize order addr side).2 := by
  have hnone : ∀ state : ProofState, state.Reached [] :=
    fun state promoted hpromoted => nomatch hpromoted
  simp only [handlePeerConnectedForProof]
  split
  · exact hnone state
  · split
    · exact hnone _
    · split
      · exact hnone _
      · split
        · exact hnone _
        · apply promoteEach_reached
          · exact fun reported found => creditObservation_credited fun _ => trivial
          · exact fun reported found => creditObservation_reached normalize _ reported _ found

theorem handlePeerObservedExternal_reached (normalize : SocketAddr → SocketAddr)
    (peerAddr observedExternal : SocketAddr) (state : ProofState) :
    (state.handlePeerObservedExternal normalize peerAddr observedExternal).1.Reached
      (state.handlePeerObservedExternal normalize peerAddr
        observedExternal).2.promoted.toList := by
  simp only [handlePeerObservedExternal]
  split
  · split
    · exact creditObservation_reached normalize _ _ _ _
    · exact fun promoted hpromoted => nomatch hpromoted
  · exact fun promoted hpromoted => nomatch hpromoted

end ProofState

end Credit

end SaorsaCore.Reachability
