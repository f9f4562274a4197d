import SaorsaCore.Reachability.Observers

/-!
# Where the observers of an address come from

Whatever the order of the events, an observer that was booked for an external address
has connected without being known and has reported the address, and the address was
pinned.  The filter against peers behind the node's own address looks at the pins only
when a peer connects; it does what it is for as long as no later pin has the address of
an eligible peer.
-/

namespace SaorsaCore.Reachability

open ProofState List ExternalAddresses

/-! ## Every observer has its history -/

section History

variable (normalize : SocketAddr → SocketAddr)

/-- A connection from an address that the node neither dialed nor knew. -/
def Unsolicited (peerIp : IpAddr) (state : ProofState) : ReachabilityEvent → Prop
  | .peerConnected (some socketAddr) .server _ =>
    remoteIp normalize socketAddr = peerIp ∧ peerIp ∉ state.knownPeerIps
      ∧ normalize socketAddr ∉ state.dialedAddrs
  | _ => False

/-- A report that is new and within the cap of its peer. -/
def Reports (peerIp : IpAddr) (ext : SocketAddr) (state : ProofState) : ReachabilityEvent → Prop
  | .peerObservedExternal peerAddr observedExternal =>
    remoteIp normalize peerAddr = peerIp ∧ normalize observedExternal = ext
      ∧ ext ∉ state.peerObservations peerIp
      ∧ (state.peerObservations peerIp).length < maxObservationsPerPeer
  | _ => False

/-- The discovery of an address that was not yet pinned. -/
def Pins (ext : SocketAddr) (state : ProofState) : ReachabilityEvent → Prop
  | .externalAddressDiscovered (some socketAddr) _ =>
    normalize socketAddr = ext ∧ (state.externalAddresses.pinDirect normalize ext).2 = true
  | _ => False

/-- At some point of the sequence the fact held of the state and the next event. -/
def Occurred (fact : ProofState → ReachabilityEvent → Prop)
    (events : List ReachabilityEvent) : Prop :=
  ∃ earlier event later, events = earlier ++ event :: later
    ∧ fact (ProofState.after normalize earlier) event

variable {normalize} {events : List ReachabilityEvent} {event : ReachabilityEvent}
  {state next : ProofState} {fact : ProofState → ReachabilityEvent → Prop}

theorem Occurred.mono (hoccurred : Occurred normalize fact events)
    (event : ReachabilityEvent) : Occurred normalize fact (events ++ [event]) := by
  obtain ⟨earlier, first, later, rfl, hfact⟩ := hoccurred
  exact ⟨earlier, first, later ++ [event], by simp, hfact⟩

theorem Occurred.last (hfact : fact (ProofState.after normalize events) event) :
    Occurred normalize fact (events ++ [event]) :=
  ⟨events, event, [], rfl, hfact⟩

theorem ProofState.after_concat (events : List ReachabilityEvent) (event : ReachabilityEvent) :
    ProofState.after normalize (events ++ [event])
      = (ProofState.after normalize events).handle normalize event := by
  simp [after]

variable (normalize) in
/-- Everything the maps hold was brought about by an event of its kind. -/
structure Justified (events : List ReachabilityEvent) (state : ProofState) : Prop where
  eligible : ∀ peerIp ∈ state.proofEligiblePeers,
    Occurred normalize (Unsolicited normalize peerIp) events
  observed : ∀ peerIp, ∀ ext ∈ state.peerObservations peerIp,
    Occurred normalize (Reports normalize peerIp ext) events
  pinned : ∀ ext ∈ state.externalAddresses.direct, Occurred normalize (Pins normalize ext) events
  proven : ∀ ext, ∀ peerIp ∈ state.provenExternals ext,
    peerIp ∈ state.proofEligiblePeers ∧ ext ∈ state.peerObservations peerIp
      ∧ Occurred normalize (Pins normalize ext) events
  nodup : ∀ ext, (state.provenExternals ext).Nodup
  promoted : ∀ ext, .directAddressPromoted ext ∈ state.emitted →
    minDistinctObserversForDirect ≤ (state.provenExternals ext).length

namespace Justified

theorem new : Justified normalize [] ProofState.new :=
  { eligible := fun _ hmem => nomatch hmem
    observed := fun _ _ hmem => nomatch hmem
    pinned := fun _ hmem => nomatch hmem
    proven := fun _ _ hmem => nomatch hmem
    nodup := fun _ => List.nodup_nil
    promoted := fun _ hmem => nomatch hmem }

variable (hjustified : Justified normalize events state)
include hjustified

theorem mono (event : ReachabilityEvent) : Justified normalize (events ++ [event]) state :=
  { eligible := fun peerIp hmem => (hjustified.eligible peerIp hmem).mono event
    observed := fun peerIp ext hmem => (hjustified.observed peerIp ext hmem).mono event
    pinned := fun ext hmem => (hjustified.pinned ext hmem).mono event
    proven := fun ext peerIp hmem =>
      have hproven := hjustified.proven ext peerIp hmem
      ⟨hproven.1, hproven.2.1, hproven.2.2.mono event⟩
    nodup := hjustified.nodup
    promoted := hjustified.promoted }

/-- Credit keeps the history if whatever it credits has one. -/
theorem credited (hcredited : state.Credited (fun peerIp ext => peerIp ∈ state.proofEligiblePeers
      ∧ ext ∈ state.peerObservations peerIp
      ∧ Occurred normalize (Pins normalize ext) events) next) :
    Justified normalize events next := by
  have hframe := hcredited.frame
  constructor
  · rw [hframe]
    exact hjustified.eligible
  · rw [hframe]
    exact hjustified.observed
  · rw [hframe]
    exact hjustified.pinned
  · intro ext peerIp hmem
    have hstate : peerIp ∈ state.proofEligiblePeers ∧ ext ∈ state.peerObservations peerIp
        ∧ Occurred normalize (Pins normalize ext) events := by
      rcases hcredited.warranted ext peerIp hmem with hproven | hwarrant
      · exact hjustified.proven ext peerIp hproven
      · exact hwarrant
    rw [hframe]
    exact hstate
  · exact fun ext => hcredited.nodup ext (hjustified.nodup ext)
  · intro ext hmem
    rw [hframe] at hmem
    exact (hjustified.promoted ext hmem).trans (hcredited.grows ext)

/-- Promotions of addresses with enough observers may be published, and anything else
that is no promotion. -/
theorem emit
    {published : List AddressEvent}
    (hpublished : ∀ ext, .directAddressPromoted ext ∈ published →
      minDistinctObserversForDirect ≤ (state.provenExternals ext).length) :
    Justified normalize events (state.emit published) :=
  { hjustified with
    promoted := by
      intro ext hmem
      rcases mem_append.mp hmem with hbefore | hadded
      · exact hjustified.promoted ext hbefore
      · exact hpublished ext hadded }

theorem emit_promoted
    {promoted : List SocketAddr} (hreached : state.Reached promoted) :
    Justified normalize events (state.emit (promoted.map .directAddressPromoted)) := by
  apply hjustified.emit
  intro ext hmem
  apply hreached
  simpa using hmem

/-- A change of the pins that adds none. -/
theorem external
    {external : ExternalAddresses}
    (hdirect : ∀ ext ∈ external.direct, ext ∈ state.externalAddresses.direct) :
    Justified normalize events { state with externalAddresses := external } :=
  { hjustified with pinned := fun ext hmem => hjustified.pinned ext (hdirect ext hmem) }

/-- Whatever was reported is in normal form. -/
theorem normalize_observed (hnormalize : ∀ addr, normalize (normalize addr) = normalize addr)
    {peerIp : IpAddr} {ext : SocketAddr} (hmem : ext ∈ state.peerObservations peerIp) :
    normalize ext = ext := by
  obtain ⟨earlier, event, later, -, hreports⟩ := hjustified.observed peerIp ext hmem
  cases event with
  | peerObservedExternal peerAddr observedExternal =>
    rw [← hreports.2.1]
    exact hnormalize observedExternal
  | _ => exact hreports.elim

end Justified

section Step

variable (hnormalize : ∀ addr, normalize (normalize addr) = normalize addr)
include hnormalize

section

variable (hjustified : Justified normalize events (ProofState.after normalize events))
include hjustified

theorem Justified.peerConnected
    (addr : Option SocketAddr) (side : Side) (order : HashOrder SocketAddr) :
    Justified normalize (events ++ [.peerConnected addr side order])
      ((ProofState.after normalize events).handlePeerConnectedForProof normalize order
        addr side).1 := by
  have hmono := hjustified.mono (.peerConnected addr side order)
  set state := after normalize events with hstate
  simp only [handlePeerConnectedForProof]
  split
  · exact hmono
  · next socketAddr =>
      generalize hpeerIp : remoteIp normalize socketAddr = peerIp
      -- Recording the peer as known touches nothing that needs a history.
      have hrecorded : Justified normalize (events ++ [.peerConnected (some socketAddr) side order])
          { state with knownPeerIps := state.knownPeerIps.insert peerIp } :=
        { hmono with }
      split
      · exact hrecorded
      · next hserver =>
          split
          · exact hrecorded
          · next hunknown =>
              split
              · exact hrecorded
              · have hunsolicited : Unsolicited normalize peerIp state
                    (.peerConnected (some socketAddr) side order) := by
                  rw [not_not.mp hserver]
                  have hstranger : peerIp ∉ state.knownPeerIps
                      ∧ normalize socketAddr ∉ state.dialedAddrs := by
                    simpa using hunknown
                  exact ⟨hpeerIp, hstranger⟩
                have heligible : Justified normalize
                    (events ++ [.peerConnected (some socketAddr) side order])
                    { state with
                      knownPeerIps := state.knownPeerIps.insert peerIp
                      proofEligiblePeers := state.proofEligiblePeers.insert peerIp } := by
                  refine ⟨?_, hmono.observed, hmono.pinned, ?_, hmono.nodup, hmono.promoted⟩
                  · intro otherIp hmem
                    rcases mem_insert_iff.mp hmem with rfl | hmem
                    · exact Occurred.last hunsolicited
                    · exact hmono.eligible otherIp hmem
                  · intro ext otherIp hmem
                    have hproven := hmono.proven ext otherIp hmem
                    exact ⟨mem_insert_of_mem hproven.1, hproven.2⟩
                apply heligible.credited
                apply promoteEach_credited
                intro ext hext found _
                have hobserved : ext ∈ state.peerObservations peerIp :=
                  (order.perm _).mem_iff.mp hext
                apply creditObservation_credited
                intro hpinned
                rw [hjustified.normalize_observed hnormalize hobserved] at hpinned ⊢
                exact ⟨mem_insert_self, hobserved, hmono.pinned ext hpinned⟩

theorem Justified.peerObservedExternal (peerAddr observedExternal : SocketAddr) :
    Justified normalize (events ++ [.peerObservedExternal peerAddr observedExternal])
      ((ProofState.after normalize events).handlePeerObservedExternal normalize peerAddr
        observedExternal).1 := by
  have hmono := hjustified.mono (.peerObservedExternal peerAddr observedExternal)
  set state := after normalize events with hstate
  simp only [handlePeerObservedExternal]
  generalize hpeerIp : remoteIp normalize peerAddr = peerIp
  generalize hext : normalize observedExternal = ext
  have hnormal : normalize ext = ext := by
    rw [← hext, hnormalize]
  split
  · next haccepts =>
      have hreports : Reports normalize peerIp ext state
          (.peerObservedExternal peerAddr observedExternal) := by
        simpa [Reports, accepts, hpeerIp, hext] using haccepts
      have hrecorded : Justified normalize
          (events ++ [.peerObservedExternal peerAddr observedExternal])
          { state.recordObservation peerIp ext with
            externalAddresses :=
              (state.externalAddresses.recordUnverified normalize ext).1 } := by
        have hkept : ∀ otherIp, ∀ other ∈ state.peerObservations otherIp,
            other ∈ (state.recordObservation peerIp ext).peerObservations otherIp := by
          intro otherIp other hmem
          simp only [recordObservation, Function.update_apply]
          split
          · next heq =>
              rw [heq] at hmem
              exact mem_append_left _ hmem
          · exact hmem
        refine ⟨hmono.eligible, ?_, ?_, ?_, hmono.nodup, hmono.promoted⟩
        · intro otherIp other hmem
          simp only [recordObservation, Function.update_apply] at hmem
          split at hmem
          · next heq =>
              rw [heq]
              rcases mem_append.mp hmem with hmem | hadded
              · exact hmono.observed peerIp other hmem
              · rw [mem_singleton.mp hadded]
                exact Occurred.last hreports
          · exact hmono.observed otherIp other hmem
        · intro other hmem
          rw [(recordUnverified_frame normalize _ _).2] at hmem
          exact hmono.pinned other hmem
        · intro other otherIp hmem
          have hproven := hmono.proven other otherIp hmem
          exact ⟨hproven.1, hkept otherIp other hproven.2.1, hproven.2.2⟩
      split
      · next heligible =>
          apply hrecorded.credited
          apply creditObservation_credited
          intro hpinned
          rw [hnormal] at hpinned ⊢
          refine ⟨heligible, ?_, hrecorded.pinned ext hpinned⟩
          simp [recordObservation]
      · exact hrecorded
  · exact hmono

theorem Justified.externalAddressDiscovered (addr : Option SocketAddr) (order : HashOrder IpAddr) :
    Justified normalize (events ++ [.externalAddressDiscovered addr order])
      ((ProofState.after normalize events).handleExternalAddressDiscovered normalize
        order addr) := by
  have hmono := hjustified.mono (.externalAddressDiscovered addr order)
  set state := after normalize events with hstate
  simp only [handleExternalAddressDiscovered]
  split
  · exact hmono
  · next socketAddr =>
      split
      · next hpin =>
          have hpins : Occurred normalize (Pins normalize (normalize socketAddr))
              (events ++ [.externalAddressDiscovered (some socketAddr) order]) :=
            Occurred.last ⟨rfl, hpin⟩
          have hpinned : Justified normalize
              (events ++ [.externalAddressDiscovered (some socketAddr) order])
              { state with
                externalAddresses := (state.externalAddresses.pinDirect normalize
                  (normalize socketAddr)).1 } := by
            refine { hmono with pinned := ?_ }
            intro ext hmem
            rcases mem_direct_pinDirect hmem with hmem | ⟨heq, -⟩
            · exact hmono.pinned ext hmem
            · rw [heq, hnormalize]
              exact hpins
          generalize hpinnedState : { state with
            externalAddresses := (state.externalAddresses.pinDirect normalize
              (normalize socketAddr)).1 } = pinnedState at hpinned ⊢
          have hfilled : Justified normalize
              (events ++ [.externalAddressDiscovered (some socketAddr) order])
              (pinnedState.backFillProofOnPin normalize order (normalize socketAddr)).1 := by
            apply hpinned.credited
            apply backFillProofOnPin_credited
            intro peerIp heligible hobserved
            rw [hnormalize] at hobserved ⊢
            exact ⟨heligible, hobserved, hpins⟩
          split
          · apply hfilled.emit
            intro ext hmem
            cases mem_singleton.mp hmem
          · exact hfilled.emit_promoted (backFillProofOnPin_reached normalize order _ pinnedState)
      · exact hmono

theorem Justified.handle (event : ReachabilityEvent) : Justified normalize (events ++ [event])
      ((ProofState.after normalize events).handle normalize event) := by
  have hmono := hjustified.mono event
  cases event with
  | dialRegistered target =>
    exact { hmono with }
  | peerConnected addr side order =>
    exact (hjustified.peerConnected hnormalize addr side order).emit_promoted
      (handlePeerConnectedForProof_reached normalize order addr side _)
  | peerObservedExternal peerAddr observedExternal =>
    apply (hjustified.peerObservedExternal hnormalize peerAddr observedExternal).emit
    intro ext hmem
    apply handlePeerObservedExternal_reached normalize peerAddr
      observedExternal (after normalize events) ext
    simpa using hmem
  | externalAddressDiscovered addr order =>
    exact hjustified.externalAddressDiscovered hnormalize addr order
  | relaySet addr =>
    exact hmono.external fun ext hmem => mem_of_mem_filter hmem
  | relayCleared => exact hmono.external fun ext hmem => hmem

end

/-- The history of every reachable state. -/
theorem justified_after (events : List ReachabilityEvent) :
    Justified normalize events (ProofState.after normalize events) := by
  induction events using reverseRecOn with
  | nil => exact Justified.new
  | append_singleton events event ih =>
    rw [after_concat]
    exact ih.handle hnormalize event

end Step

variable (normalize) in
/-- The peer connected without being known, reported the address within its cap, and
the address was pinned. -/
def Observes (events : List ReachabilityEvent) (peerIp : IpAddr) (ext : SocketAddr) : Prop :=
  Occurred normalize (Unsolicited normalize peerIp) events
    ∧ Occurred normalize (Reports normalize peerIp ext) events
    ∧ Occurred normalize (Pins normalize ext) events

theorem Justified.observes (hjustified : Justified normalize events state)
    {peerIp : IpAddr} {ext : SocketAddr} (hproven : peerIp ∈ state.provenExternals ext) :
    Observes normalize events peerIp ext := by
  obtain ⟨heligible, hobserved, hpinned⟩ := hjustified.proven ext peerIp hproven
  exact ⟨hjustified.eligible peerIp heligible, hjustified.observed peerIp ext hobserved, hpinned⟩

theorem Justified.two_observers (hjustified : Justified normalize events state)
    {ext : SocketAddr}
    (hreached : minDistinctObserversForDirect ≤ (state.provenExternals ext).length) :
    ∃ first second, first ≠ second ∧ Observes normalize events first ext
      ∧ Observes normalize events second ext := by
  obtain ⟨first, second, hne, hfirst, hsecond⟩ :=
    (two_observers_iff (hjustified.nodup ext)).mp hreached
  exact ⟨first, second, hne, hjustified.observes hfirst, hjustified.observes hsecond⟩

/-- Every observer that any sequence of events has booked for an address connected
without being known, reported the address within its cap, and the address was pinned.
An address passes for proven, or is promoted, only with two such observers. -/
theorem provenExternals_observed
    (hnormalize : ∀ addr, normalize (normalize addr) = normalize addr)
    (events : List ReachabilityEvent) (ext : SocketAddr) :
    (∀ peerIp ∈ (ProofState.after normalize events).provenExternals ext,
        Observes normalize events peerIp ext)
      ∧ (externalMeetsProofThreshold normalize ext
          (ProofState.after normalize events).provenExternals = true →
        ∃ first second, first ≠ second ∧ Observes normalize events first (normalize ext)
          ∧ Observes normalize events second (normalize ext))
      ∧ (.directAddressPromoted ext ∈ (ProofState.after normalize events).emitted →
        ∃ first second, first ≠ second ∧ Observes normalize events first ext
          ∧ Observes normalize events second ext) := by
  have hjustified := justified_after hnormalize events
  refine ⟨fun peerIp hproven => hjustified.observes hproven, fun hthreshold => ?_,
    fun hpromoted => ?_⟩
  · exact hjustified.two_observers (of_decide_eq_true hthreshold)
  · exact hjustified.two_observers (hjustified.promoted ext hpromoted)

/-- Two strangers, `10.0.0.1` and `10.0.0.2`, and an external address of the node.  The
first connects before it reports, the second reports before it connects, and the pin
comes in between. -/
def observedEvents : List ReachabilityEvent :=
  [.peerConnected (some (.v4 0x0a000001 9000)) .server (HashOrder.insertion _),
    .peerObservedExternal (.v4 0x0a000001 9000) (.v4 0x05060708 4000),
    .peerObservedExternal (.v4 0x0a000002 9000) (.v4 0x05060708 4000),
    .externalAddressDiscovered (some (.v4 0x05060708 4000)) (HashOrder.insertion _),
    .peerConnected (some (.v4 0x0a000002 9000)) .server (HashOrder.insertion _)]

theorem observedEvents_proven :
    externalMeetsProofThreshold id (.v4 0x05060708 4000)
        (ProofState.after id observedEvents).provenExternals = true
      ∧ ∃ first second, first ≠ second
        ∧ Observes id observedEvents first (.v4 0x05060708 4000)
        ∧ Observes id observedEvents second (.v4 0x05060708 4000) := by
  have hthreshold : externalMeetsProofThreshold id (.v4 0x05060708 4000)
      (after id observedEvents).provenExternals = true := by
    decide +kernel
  exact ⟨hthreshold,
    (provenExternals_observed (fun _ => rfl) observedEvents (.v4 0x05060708 4000)).2.1
      hthreshold⟩

end History

/-! ## Peers behind the node's own address -/

section Hairpin

variable {normalize : SocketAddr → SocketAddr} {state next : ProofState}
  {event : ReachabilityEvent}

/-- No eligible peer has the IP of a pinned address. -/
def ProofState.Apart (state : ProofState) : Prop :=
  ∀ peerIp ∈ state.proofEligiblePeers, ∀ own ∈ state.externalAddresses.direct,
    own.ip.canonicalize ≠ peerIp

variable (normalize) in
/-- A pin whose address has the IP of a peer that is already eligible. -/
def PinsEligible (state : ProofState) : ReachabilityEvent → Prop
  | .externalAddressDiscovered (some socketAddr) _ =>
    (state.externalAddresses.pinDirect normalize (normalize socketAddr)).2 = true
      ∧ remoteIp normalize socketAddr ∈ state.proofEligiblePeers
  | _ => False

namespace ProofState.Apart

theorem credited (hapart : state.Apart)
    (hcredited : state.Credited (fun _ _ => True) next) : next.Apart := by
  rw [hcredited.frame]
  exact hapart

theorem peerConnected (hapart : state.Apart) (addr : Option SocketAddr) (side : Side)
    (order : HashOrder SocketAddr) :
    (state.handlePeerConnectedForProof normalize order addr side).1.Apart := by
  simp only [handlePeerConnectedForProof]
  split
  · exact hapart
  · split
    · exact hapart
    · split
      · exact hapart
      · split
        · exact hapart
        · next hforeign =>
            refine Apart.credited ?_ (promoteEach_credited fun reported _ found _ =>
              creditObservation_credited fun _ => trivial)
            intro peerIp hpeerIp own hown
            rcases mem_insert_iff.mp hpeerIp with rfl | hpeerIp
            · intro hsame
              apply hforeign
              exact any_eq_true.mpr ⟨own, hown, beq_iff_eq.mpr hsame⟩
            · exact hapart peerIp hpeerIp own hown

theorem peerObservedExternal (hapart : state.Apart) (peerAddr observedExternal : SocketAddr) :
    (state.handlePeerObservedExternal normalize peerAddr observedExternal).1.Apart := by
  have hrecorded : ∀ peerIp ext, Apart
      { state.recordObservation peerIp ext with
        externalAddresses :=
          (state.externalAddresses.recordUnverified normalize ext).1 } := by
    intro peerIp ext eligible heligible own hown
    rw [(recordUnverified_frame normalize _ _).2] at hown
    exact hapart eligible heligible own hown
  simp only [handlePeerObservedExternal]
  split
  · split
    · exact (hrecorded _ _).credited (creditObservation_credited fun _ => trivial)
    · exact hrecorded _ _
  · exact hapart

theorem externalAddressDiscovered (hnormalize : ∀ addr, normalize (normalize addr) = normalize addr)
    (hapart : state.Apart) {addr : Option SocketAddr} {order : HashOrder IpAddr}
    (hpins : ¬ PinsEligible normalize state (.externalAddressDiscovered addr order)) :
    (state.handleExternalAddressDiscovered normalize order addr).Apart := by
  simp only [handleExternalAddressDiscovered]
  split
  · exact hapart
  · next socketAddr =>
      split
      · next hpinned =>
          have hpinnedApart : Apart { state with
              externalAddresses := (state.externalAddresses.pinDirect normalize
                (normalize socketAddr)).1 } := by
            intro peerIp hpeerIp own hown
            rcases mem_direct_pinDirect hown with hown | ⟨rfl, -⟩
            · exact hapart peerIp hpeerIp own hown
            · intro hsame
              rw [hnormalize] at hsame
              apply hpins
              refine ⟨hpinned, ?_⟩
              rw [remoteIp, hsame]
              exact hpeerIp
          have hfilled : (backFillProofOnPin normalize order (normalize socketAddr)
              { state with
                externalAddresses := (state.externalAddresses.pinDirect normalize
                  (normalize socketAddr)).1 }).1.Apart :=
            hpinnedApart.credited (backFillProofOnPin_credited fun _ _ _ => trivial)
          split
          · exact hfilled
          · exact hfilled
      · exact hapart

theorem handle (hnormalize : ∀ addr, normalize (normalize addr) = normalize addr)
    (hapart : state.Apart) (hpins : ¬ PinsEligible normalize state event) :
    (state.handle normalize event).Apart := by
  cases event with
  | dialRegistered target => exact hapart
  | peerConnected addr side order => exact hapart.peerConnected addr side order
  | peerObservedExternal peerAddr observedExternal =>
    exact hapart.peerObservedExternal peerAddr observedExternal
  | externalAddressDiscovered addr order =>
    exact externalAddressDiscovered hnormalize hapart hpins
  | relaySet addr =>
    exact fun peerIp hpeerIp own hown =>
      hapart peerIp hpeerIp own (mem_of_mem_filter hown)
  | relayCleared => exact hapart

end ProofState.Apart

/-- As long as no address is pinned whose IP is that of an eligible peer, no observer
has the IP of a pinned address. -/
theorem provenExternals_apart
    (hnormalize : ∀ addr, normalize (normalize addr) = normalize addr)
    {events : List ReachabilityEvent}
    (hpins : ¬ Occurred normalize (PinsEligible normalize) events)
    (ext : SocketAddr) :
    ∀ peerIp ∈ (ProofState.after normalize events).provenExternals ext,
      ∀ own ∈ (ProofState.after normalize events).externalAddresses.direct,
        own.ip.canonicalize ≠ peerIp := by
  have hapart : (after normalize events).Apart := by
    induction events using reverseRecOn with
    | nil => exact fun peerIp hpeerIp => nomatch hpeerIp
    | append_singleton events event ih =>
      rw [after_concat]
      apply (ih fun hearlier => hpins (hearlier.mono event)).handle hnormalize
      exact fun hevent => hpins (Occurred.last hevent)
  intro peerIp hproven
  exact hapart peerIp ((justified_after hnormalize events).proven ext peerIp hproven).1

/-- The pin comes first, and the observer has another address. -/
def pinnedFirst : List ReachabilityEvent :=
  [.externalAddressDiscovered (some (.v4 0x05060708 4000)) (HashOrder.insertion _),
    .peerConnected (some (.v4 0x0a000001 9000)) .server (HashOrder.insertion _),
    .peerObservedExternal (.v4 0x0a000001 9000) (.v4 0x05060708 4000)]

theorem pinnedFirst_apart :
    (ProofState.after id pinnedFirst).provenExternals (.v4 0x05060708 4000)
        = [.v4 0x0a000001]
      ∧ ∀ peerIp ∈ (ProofState.after id pinnedFirst).provenExternals (.v4 0x05060708 4000),
        ∀ own ∈ (ProofState.after id pinnedFirst).externalAddresses.direct,
          own.ip.canonicalize ≠ peerIp := by
  refine ⟨by decide +kernel, provenExternals_apart (fun _ => rfl) ?_ _⟩
  rintro ⟨earlier, event, later, hevents, hpins⟩
  match earlier, hevents with
  | [], hevents =>
    cases hevents
    exact nomatch hpins.2
  | [_], hevents =>
    cases hevents
    exact hpins
  | [_, _], hevents =>
    cases hevents
    exact hpins
  | _ :: _ :: _ :: _, hevents => simp [pinnedFirst] at hevents

/-- A sibling behind the same NAT connects from `5.6.7.8` and reports `5.6.7.8:4000`
before that address is pinned.  The pin credits it without asking for its IP. -/
def siblingEvents : List ReachabilityEvent :=
  [.peerConnected (some (.v4 0x05060708 9000)) .server (HashOrder.insertion _),
    .peerObservedExternal (.v4 0x05060708 9000) (.v4 0x05060708 4000),
    .externalAddressDiscovered (some (.v4 0x05060708 4000)) (HashOrder.insertion _)]

theorem sibling_credited :
    .v4 0x05060708 4000 ∈ (ProofState.after id siblingEvents).externalAddresses.direct
      ∧ (SocketAddr.v4 0x05060708 4000).ip.canonicalize
        ∈ (ProofState.after id siblingEvents).provenExternals (.v4 0x05060708 4000) := by
  decide +kernel

end Hairpin

end SaorsaCore.Reachability
