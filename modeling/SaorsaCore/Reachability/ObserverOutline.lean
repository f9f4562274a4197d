import SaorsaCore.Reachability.ObserverThreads

/-!
# Proof outlines of the observer handlers

Connections, reports and pins are handled at the same time, one thread each.  Nothing is
ever taken out of the shared maps as long as the caps are kept, so that whatever a
handler has seen there stays true.  Two assertions need more than that: that a peer is
not yet known, which only its own connection changes, and that a snapshot of the pins is
up to date.
-/

namespace SaorsaCore.Reachability

open List MapWrite ProofState ExternalAddresses Function Option

/-- An inbound connection, a report or the discovery of an external address. -/
inductive ObserverEvent where
  | connected (socketAddr : SocketAddr) (order : HashOrder SocketAddr)
  | reported (peerAddr observedExternal : SocketAddr)
  | discovered (socketAddr : SocketAddr) (sweep : Sweep)

namespace ObserverEvent

/-- The handler of the event before its first move. -/
def handler : ObserverEvent → Handler
  | connected socketAddr order => .connect socketAddr .server order .start
  | reported peerAddr observedExternal => .report peerAddr observedExternal .start
  | discovered socketAddr sweep => .pin socketAddr sweep .start

variable (normalize : SocketAddr → SocketAddr)

def Connects (peerIp : IpAddr) : ObserverEvent → Prop
  | connected socketAddr _ => remoteIp normalize socketAddr = peerIp
  | _ => False

def ReportsTo (peerIp : IpAddr) (ext : SocketAddr) : ObserverEvent → Prop
  | reported peerAddr observedExternal =>
    remoteIp normalize peerAddr = peerIp ∧ normalize observedExternal = ext
  | _ => False

def Discovers (ext : SocketAddr) : ObserverEvent → Prop
  | discovered socketAddr _ => normalize socketAddr = ext
  | _ => False

end ObserverEvent

section Races

variable {Index : Type*} (normalize : SocketAddr → SocketAddr)
  (events : Index → ObserverEvent) (dialed : List SocketAddr) (known : List IpAddr)

/-- The connections come from different addresses that were neither dialed nor known
and are not those of discovered addresses; reports and pins stay within their caps. -/
structure Admissible : Prop where
  distinct : ∀ first second, first ≠ second → ∀ peerIp,
    (events first).Connects normalize peerIp → ¬ (events second).Connects normalize peerIp
  unknown : ∀ index peerIp, (events index).Connects normalize peerIp → peerIp ∉ known
  undialed : ∀ index socketAddr order, events index = .connected socketAddr order →
    normalize socketAddr ∉ dialed
  foreign : ∀ index peerIp, (events index).Connects normalize peerIp →
    ∀ other ext, (events other).Discovers normalize ext → ext.ip.canonicalize ≠ peerIp
  reports : ∀ peerIp, AtMost maxObservationsPerPeer fun ext =>
    ∃ index, (events index).ReportsTo normalize peerIp ext
  pins : AtMost maxDirectAddresses fun ext =>
    ∃ index, (events index).Discovers normalize ext

/-- The node has dialed and met peers before, and nothing else has happened yet. -/
def raceStart : Threads Index ProofState Handler :=
  { state := { ProofState.new with
      dialedAddrs := dialed
      knownPeerIps := known }
    threads := fun index => (events index).handler }

/-- A connection handler that has read the pins and not yet marked its peer. -/
def Handler.holdsSnapshot : Handler → Bool
  | connect _ _ _ (.mark _) => true
  | _ => false

/-- No pin takes effect while a connection handler holds a snapshot of the pins. -/
def Undisturbed (system : Threads Index ProofState Handler) (index : Index) : Prop :=
  (∃ other, (system.threads other).holdsSnapshot = true) →
    ∀ made ∈ (system.threads index).move normalize system.state,
      made.1.externalAddresses.direct = system.state.externalAddresses.direct

/-- The peer connected, reported the address, and the address was discovered. -/
def Qualifies (peerIp : IpAddr) (ext : SocketAddr) : Prop :=
  (∃ index, (events index).Connects normalize peerIp)
    ∧ (∃ index, (events index).ReportsTo normalize peerIp ext)
    ∧ ∃ index, (events index).Discovers normalize ext

/-! ## What the maps hold -/

/-- Everything in the maps stems from an event, and nobody is credited who is not
due. -/
structure Accounted (state : ProofState) : Prop where
  dialed : state.dialedAddrs = dialed
  relay : state.externalAddresses.relay = none
  directNodup : state.externalAddresses.direct.Nodup
  direct : ∀ ext ∈ state.externalAddresses.direct, ∃ index, (events index).Discovers normalize ext
  observedNodup : ∀ peerIp, (state.peerObservations peerIp).Nodup
  observed : ∀ peerIp, ∀ ext ∈ state.peerObservations peerIp,
    peerIp ∈ state.observers ∧ ∃ index, (events index).ReportsTo normalize peerIp ext
  eligible : ∀ peerIp ∈ state.proofEligiblePeers, ∃ index, (events index).Connects normalize peerIp
  provenNodup : ∀ ext, (state.provenExternals ext).Nodup
  proven : ∀ ext, ∀ peerIp ∈ state.provenExternals ext,
    peerIp ∈ state.proofEligiblePeers ∧ ext ∈ state.peerObservations peerIp
      ∧ ext ∈ state.externalAddresses.direct

/-- When a write on behalf of an event is in order. -/
def MapWrite.Warranted (event : ObserverEvent) (state : ProofState) : MapWrite → Prop
  | noteKnown peerIp => event.Connects normalize peerIp
  | markEligible peerIp => event.Connects normalize peerIp
  | recordReport peerIp ext => state.accepts peerIp ext = true
      ∧ event.ReportsTo normalize peerIp ext
  | pinDirect addr => event.Discovers normalize (normalize addr)
  | recordObserver peerIp ext => peerIp ∈ state.proofEligiblePeers
      ∧ ext ∈ state.peerObservations peerIp ∧ ext ∈ state.externalAddresses.direct
  | _ => True

/-- The later state has everything that the first one has. -/
structure ProofState.Grows (state later : ProofState) : Prop where
  observers : ∀ peerIp ∈ state.observers, peerIp ∈ later.observers
  observed : ∀ peerIp, ∀ ext ∈ state.peerObservations peerIp, ext ∈ later.peerObservations peerIp
  eligible : ∀ peerIp ∈ state.proofEligiblePeers, peerIp ∈ later.proofEligiblePeers
  direct : ∀ ext ∈ state.externalAddresses.direct, ext ∈ later.externalAddresses.direct
  proven : ∀ ext, ∀ peerIp ∈ state.provenExternals ext, peerIp ∈ later.provenExternals ext

theorem ProofState.Grows.refl (state : ProofState) : state.Grows state :=
  ⟨fun _ hmem => hmem, fun _ _ hmem => hmem, fun _ hmem => hmem, fun _ hmem => hmem,
    fun _ _ hmem => hmem⟩

variable {normalize events dialed known} {state : ProofState} {write : MapWrite}
  {index : Index}

/-- Without a relay and below the cap, a pin only adds its address. -/
theorem ExternalAddresses.pinDirect_of_room {external : ExternalAddresses}
    {addr : SocketAddr} (hrelay : external.relay = none)
    (hroom : normalize addr ∉ external.direct → external.direct.length < maxDirectAddresses) :
    (external.pinDirect normalize addr).1.relay = none
      ∧ (external.pinDirect normalize addr).1.direct
        = if normalize addr ∈ external.direct then external.direct
          else external.direct ++ [normalize addr] := by
  have hnotRelay : some (normalize addr) ≠ external.relay := by
    rw [hrelay]
    exact some_ne_none _
  simp only [pinDirect]
  by_cases hmem : normalize addr ∈ external.direct
  · rw [if_pos (.inr hmem), if_pos hmem]
    exact ⟨hrelay, rfl⟩
  · rw [if_neg (not_or.mpr ⟨hnotRelay, hmem⟩), if_neg (hroom hmem).not_ge, if_neg hmem]
    exact ⟨hrelay, rfl⟩

section Writes

variable (hadmissible : Admissible normalize events dialed known)
include hadmissible

variable (haccounted : Accounted normalize events dialed state)
include haccounted

/-- There is room for every discovered address. -/
theorem Accounted.direct_room
    {ext : SocketAddr} (hdiscovered : ∃ index, (events index).Discovers normalize ext)
    (hnew : ext ∉ state.externalAddresses.direct) :
    state.externalAddresses.direct.length < maxDirectAddresses :=
  hadmissible.pins.length_lt haccounted.directNodup haccounted.direct hdiscovered hnew

/-- There is room for every report. -/
theorem Accounted.observed_room
    {peerIp : IpAddr} {ext : SocketAddr}
    (hreported : ∃ index, (events index).ReportsTo normalize peerIp ext)
    (hnew : ext ∉ state.peerObservations peerIp) :
    (state.peerObservations peerIp).length < maxObservationsPerPeer :=
  (hadmissible.reports peerIp).length_lt (haccounted.observedNodup peerIp)
    (fun other hother => (haccounted.observed peerIp other hother).2) hreported hnew

theorem Accounted.pin_direct
    {addr : SocketAddr}
    (hdiscovered : ∃ index, (events index).Discovers normalize (normalize addr)) :
    (state.externalAddresses.pinDirect normalize addr).1.relay = none
      ∧ (state.externalAddresses.pinDirect normalize addr).1.direct
        = if normalize addr ∈ state.externalAddresses.direct
          then state.externalAddresses.direct
          else state.externalAddresses.direct ++ [normalize addr] :=
  pinDirect_of_room haccounted.relay (haccounted.direct_room hadmissible hdiscovered)

/-- No warranted write takes anything away. -/
theorem Accounted.grows (hwarranted : write.Warranted normalize (events index) state) :
    state.Grows (write.apply normalize state) := by
  have hrefl := ProofState.Grows.refl state
  cases write with
  | nothing => exact hrefl
  | noteKnown peerIp => exact { hrefl with }
  | markEligible peerIp =>
    exact { hrefl with eligible := fun other hmem => mem_insert_of_mem hmem }
  | recordReport peerIp ext =>
    refine { hrefl with
      observers := fun other hmem => mem_insert_of_mem hmem
      observed := ?_ }
    intro other reported hmem
    simp only [apply, recordObservation, update_apply]
    split
    · next heq =>
        subst heq
        exact mem_append_left _ hmem
    · exact hmem
  | recordUnverified ext =>
    refine { hrefl with direct := ?_ }
    intro other hmem
    simp only [apply]
    rwa [(recordUnverified_frame normalize _ _).2]
  | pinDirect addr =>
    refine { hrefl with direct := ?_ }
    intro other hmem
    simp only [apply]
    rw [(haccounted.pin_direct hadmissible ⟨index, hwarranted⟩).2]
    split
    · exact hmem
    · exact mem_append_left _ hmem
  | recordObserver peerIp ext =>
    refine { hrefl with proven := ?_ }
    intro other otherIp hmem
    simp only [apply, recordAttributedObserver, update_apply]
    split
    · next heq =>
        subst heq
        exact mem_insert_of_mem hmem
    · exact hmem
  | emit event => exact { hrefl with }

/-- A warranted write keeps the account. -/
theorem Accounted.apply (hwarranted : write.Warranted normalize (events index) state) :
    Accounted normalize events dialed (write.apply normalize state) := by
  have hgrows := haccounted.grows hadmissible hwarranted
  -- The credits already given stay due because nothing is taken away.
  have hproven : ∀ ext, ∀ peerIp ∈ state.provenExternals ext,
      peerIp ∈ (write.apply normalize state).proofEligiblePeers
        ∧ ext ∈ (write.apply normalize state).peerObservations peerIp
        ∧ ext ∈ (write.apply normalize state).externalAddresses.direct := by
    intro ext peerIp hmem
    obtain ⟨heligible, hobserved, hdirect⟩ := haccounted.proven ext peerIp hmem
    exact ⟨hgrows.eligible peerIp heligible, hgrows.observed peerIp ext hobserved,
      hgrows.direct ext hdirect⟩
  cases write with
  | nothing => exact haccounted
  | noteKnown peerIp => exact { haccounted with }
  | markEligible peerIp =>
    refine { haccounted with
      eligible := ?_
      proven := hproven }
    intro other hmem
    rcases mem_insert_iff.mp hmem with rfl | hmem
    · exact ⟨index, hwarranted⟩
    · exact haccounted.eligible other hmem
  | recordReport peerIp ext =>
    obtain ⟨haccepts, hreported⟩ := hwarranted
    refine { haccounted with
      observedNodup := ?_
      observed := ?_
      proven := hproven }
    · intro other
      simp only [apply, recordObservation, update_apply]
      split
      · next heq =>
          have hnew : ext ∉ state.peerObservations peerIp := by
            intro hmem
            simp [accepts, hmem] at haccepts
          simpa using (haccounted.observedNodup peerIp).concat hnew
      · exact haccounted.observedNodup other
    · intro other reported hmem
      simp only [apply, recordObservation, update_apply] at hmem
      split at hmem
      · next heq =>
          subst heq
          refine ⟨mem_insert_self, ?_⟩
          rcases mem_append.mp hmem with hmem | hadded
          · exact (haccounted.observed other reported hmem).2
          · rw [mem_singleton.mp hadded]
            exact ⟨index, hreported⟩
      · obtain ⟨hkey, hreport⟩ := haccounted.observed other reported hmem
        exact ⟨mem_insert_of_mem hkey, hreport⟩
  | recordUnverified ext =>
    have hframe := recordUnverified_frame normalize state.externalAddresses ext
    refine { haccounted with
      relay := hframe.1.trans haccounted.relay
      directNodup := ?_
      direct := ?_
      proven := hproven }
    · simp only [apply]
      rw [hframe.2]
      exact haccounted.directNodup
    · intro other hmem
      simp only [apply] at hmem
      rw [hframe.2] at hmem
      exact haccounted.direct other hmem
  | pinDirect addr =>
    have hpin := haccounted.pin_direct hadmissible ⟨index, hwarranted⟩
    refine { haccounted with
      relay := hpin.1
      directNodup := ?_
      direct := ?_
      proven := hproven }
    · simp only [apply]
      rw [hpin.2]
      split
      · exact haccounted.directNodup
      · next hnew => simpa using haccounted.directNodup.concat hnew
    · intro other hmem
      simp only [apply] at hmem
      rw [hpin.2] at hmem
      split at hmem
      · exact haccounted.direct other hmem
      · rcases mem_append.mp hmem with hmem | hadded
        · exact haccounted.direct other hmem
        · rw [mem_singleton.mp hadded]
          exact ⟨index, hwarranted⟩
  | recordObserver peerIp ext =>
    have hcredited : state.Credited (fun creditedIp credited =>
        creditedIp ∈ state.proofEligiblePeers ∧ credited ∈ state.peerObservations creditedIp
          ∧ credited ∈ state.externalAddresses.direct)
        (state.recordAttributedObserver peerIp ext).1 :=
      recordAttributedObserver_credited hwarranted
    refine { haccounted with
      provenNodup := fun other => hcredited.nodup other (haccounted.provenNodup other)
      proven := ?_ }
    intro other otherIp hmem
    rcases hcredited.warranted other otherIp hmem with hbefore | hwarrant
    · exact haccounted.proven other otherIp hbefore
    · exact hwarrant
  | emit event => exact { haccounted with }

end Writes

/-! ## Where a handler stands -/

/-- What a connection handler may count on. -/
def ConnectStage.Holds (peerIp : IpAddr) (state : ProofState) : ConnectStage → Prop
  | start => peerIp ∉ state.knownPeerIps
  | unlisted => peerIp ∉ state.knownPeerIps
  | checked wasKnownBefore => wasKnownBefore = false
  | readPins => True
  | mark pinnedDirect => pinnedDirect = state.externalAddresses.direct
  | readReports pinnedDirect => peerIp ∈ state.proofEligiblePeers
      ∧ ∀ ext ∈ pinnedDirect, ext ∈ state.externalAddresses.direct
  | credit pinnedDirect prior _ => peerIp ∈ state.proofEligiblePeers
      ∧ (∀ ext ∈ pinnedDirect, ext ∈ state.externalAddresses.direct)
      ∧ ∀ ext ∈ prior, ext ∈ state.peerObservations peerIp
  | publish _ => peerIp ∈ state.proofEligiblePeers

/-- What a report handler may count on. -/
def ReportStage.Holds (peerIp : IpAddr) (ext : SocketAddr) (state : ProofState) : ReportStage → Prop
  | start => True
  | readPins _ => ext ∈ state.peerObservations peerIp ∧ peerIp ∈ state.proofEligiblePeers
  | credit pinnedDirect _ => ext ∈ state.peerObservations peerIp
      ∧ peerIp ∈ state.proofEligiblePeers
      ∧ ∀ pinned ∈ pinnedDirect, pinned ∈ state.externalAddresses.direct
  | _ => ext ∈ state.peerObservations peerIp

/-- What the forwarder may count on. -/
def PinStage.Holds (ext : SocketAddr) (state : ProofState) : PinStage → Prop
  | start => True
  | inspect peerIp _ _ => ext ∈ state.externalAddresses.direct
      ∧ peerIp ∈ state.proofEligiblePeers
  | credit peerIp _ _ => ext ∈ state.externalAddresses.direct
      ∧ peerIp ∈ state.proofEligiblePeers ∧ ext ∈ state.peerObservations peerIp
  | _ => ext ∈ state.externalAddresses.direct

variable (normalize) in
/-- The handler is at work on the event and stands where its assertion holds. -/
inductive Outline : ObserverEvent → Handler → ProofState → Prop where
  | connected {socketAddr : SocketAddr} {order : HashOrder SocketAddr}
      {stage : ConnectStage} {state : ProofState}
      (hstage : stage.Holds (remoteIp normalize socketAddr) state) :
      Outline (.connected socketAddr order) (.connect socketAddr .server order stage) state
  | reported {peerAddr observedExternal : SocketAddr} {stage : ReportStage}
      {state : ProofState} (hstage : stage.Holds (remoteIp normalize peerAddr)
        (normalize observedExternal) state) :
      Outline (.reported peerAddr observedExternal) (.report peerAddr observedExternal stage) state
  | discovered {socketAddr : SocketAddr} {sweep : Sweep} {stage : PinStage}
      {state : ProofState} (hstage : stage.Holds (normalize socketAddr) state) :
      Outline (.discovered socketAddr sweep) (.pin socketAddr sweep stage) state

variable {later : ProofState}

variable {peerIp : IpAddr}

/-- The assertion of a connection handler survives as long as nobody else lists its
peer and no pin falls between its snapshot and its mark. -/
theorem ConnectStage.Holds.stable {stage : ConnectStage} (hholds : stage.Holds peerIp state)
    (hgrows : state.Grows later)
    (hknown : peerIp ∈ later.knownPeerIps → peerIp ∈ state.knownPeerIps)
    (hpins : ∀ pinnedDirect, stage = mark pinnedDirect →
      later.externalAddresses.direct = state.externalAddresses.direct) :
    stage.Holds peerIp later := by
  cases stage with
  | start => exact fun hmem => hholds (hknown hmem)
  | unlisted => exact fun hmem => hholds (hknown hmem)
  | checked wasKnownBefore => exact hholds
  | readPins => trivial
  | mark pinnedDirect => exact hholds.trans (hpins pinnedDirect rfl).symm
  | readReports pinnedDirect =>
    exact ⟨hgrows.eligible _ hholds.1, fun ext hmem => hgrows.direct ext (hholds.2 ext hmem)⟩
  | credit pinnedDirect prior promoted =>
    obtain ⟨heligible, hdirect, hprior⟩ := hholds
    exact ⟨hgrows.eligible _ heligible, fun ext hmem => hgrows.direct ext (hdirect ext hmem),
      fun ext hmem => hgrows.observed _ ext (hprior ext hmem)⟩
  | publish events => exact hgrows.eligible _ hholds

theorem ReportStage.Holds.stable {ext : SocketAddr} {stage : ReportStage}
    (hholds : stage.Holds peerIp ext state) (hgrows : state.Grows later) :
    stage.Holds peerIp ext later := by
  cases stage with
  | start => trivial
  | recorded => exact hgrows.observed _ _ hholds
  | noted publishableAdded => exact hgrows.observed _ _ hholds
  | readPins publishableAdded =>
    exact ⟨hgrows.observed _ _ hholds.1, hgrows.eligible _ hholds.2⟩
  | credit pinnedDirect publishableAdded =>
    obtain ⟨hobserved, heligible, hdirect⟩ := hholds
    exact ⟨hgrows.observed _ _ hobserved, hgrows.eligible _ heligible,
      fun pinned hmem => hgrows.direct pinned (hdirect pinned hmem)⟩
  | publish events => exact hgrows.observed _ _ hholds

theorem PinStage.Holds.stable {ext : SocketAddr} {stage : PinStage}
    (hholds : stage.Holds ext state) (hgrows : state.Grows later) :
    stage.Holds ext later := by
  cases stage with
  | start => trivial
  | iterate => exact hgrows.direct _ hholds
  | visit rest promoted => exact hgrows.direct _ hholds
  | inspect peerIp rest promoted =>
    exact ⟨hgrows.direct _ hholds.1, hgrows.eligible _ hholds.2⟩
  | credit peerIp rest promoted =>
    obtain ⟨hdirect, heligible, hobserved⟩ := hholds
    exact ⟨hgrows.direct _ hdirect, hgrows.eligible _ heligible, hgrows.observed _ _ hobserved⟩
  | publish events => exact hgrows.direct _ hholds

section Moves

variable (hnormalize : ∀ addr, normalize (normalize addr) = normalize addr)
  (hadmissible : Admissible normalize events dialed known)
include hnormalize hadmissible

omit hadmissible in
/-- Reported addresses are in normal form. -/
theorem Accounted.normalize_observed (haccounted : Accounted normalize events dialed state)
    {peerIp : IpAddr} {ext : SocketAddr} (hmem : ext ∈ state.peerObservations peerIp) :
    normalize ext = ext := by
  obtain ⟨-, index, hreports⟩ := haccounted.observed peerIp ext hmem
  cases hevent : events index with
  | reported peerAddr observedExternal =>
    rw [hevent] at hreports
    rw [← hreports.2]
    exact hnormalize observedExternal
  | connected socketAddr order =>
    rw [hevent] at hreports
    exact hreports.elim
  | discovered socketAddr sweep =>
    rw [hevent] at hreports
    exact hreports.elim

theorem ConnectStage.Holds.next (haccounted : Accounted normalize events dialed state)
    {socketAddr : SocketAddr} {order : HashOrder SocketAddr}
    (hevent : events index = .connected socketAddr order)
    {stage next : ConnectStage}
    (hholds : stage.Holds (remoteIp normalize socketAddr) state)
    (hnext : stage.next normalize socketAddr .server order state = some (write, next)) :
    write.Warranted normalize (events index) state
      ∧ next.Holds (remoteIp normalize socketAddr) (write.apply normalize state) := by
  have hconnects : (events index).Connects normalize (remoteIp normalize socketAddr) := by
    rw [hevent]
    rfl
  cases stage with
  | start =>
    have hunknown : state.knownPeerIps.contains (remoteIp normalize socketAddr) = false := by
      simpa [ConnectStage.Holds] using hholds
    simp only [ConnectStage.next, hunknown, Bool.false_eq_true, if_false] at hnext
    cases hnext
    exact ⟨trivial, hholds⟩
  | unlisted =>
    cases hnext
    refine ⟨trivial, ?_⟩
    have hundialed := hadmissible.undialed index socketAddr order hevent
    rw [← haccounted.dialed] at hundialed
    simpa [ConnectStage.Holds] using hundialed
  | checked wasKnownBefore =>
    cases hholds
    cases hnext
    exact ⟨hconnects, trivial⟩
  | readPins =>
    -- The peer's address is none of the pinned ones.
    have hforeign : state.externalAddresses.direct.any
        (fun own => own.ip.canonicalize == remoteIp normalize socketAddr) = false := by
      apply any_eq_false.mpr
      intro own hown hsame
      obtain ⟨other, hdiscovers⟩ := haccounted.direct own hown
      exact hadmissible.foreign index _ hconnects other own hdiscovers (beq_iff_eq.mp hsame)
    simp only [ConnectStage.next, hforeign, Bool.false_eq_true, if_false] at hnext
    cases hnext
    exact ⟨trivial, rfl⟩
  | mark pinnedDirect =>
    cases hholds
    cases hnext
    exact ⟨hconnects, mem_insert_self, fun ext hmem => hmem⟩
  | readReports pinnedDirect =>
    cases hnext
    exact ⟨trivial, hholds.1, hholds.2, fun ext hmem => (order.perm _).mem_iff.mp hmem⟩
  | credit pinnedDirect prior promoted =>
    obtain ⟨heligible, hdirect, hprior⟩ := hholds
    cases prior with
    | nil =>
      cases hnext
      exact ⟨trivial, heligible⟩
    | cons ext prior =>
      have hrest : ∀ other ∈ prior, other
          ∈ state.peerObservations (remoteIp normalize socketAddr) :=
        fun other hmem => hprior other (mem_cons_of_mem ext hmem)
      have hobserved := hprior ext mem_cons_self
      simp only [ConnectStage.next] at hnext
      split at hnext
      · next hpinned =>
          cases hnext
          rw [haccounted.normalize_observed hnormalize hobserved] at hpinned ⊢
          exact ⟨⟨heligible, hobserved, hdirect ext hpinned⟩, heligible, hdirect, hrest⟩
      · cases hnext
        exact ⟨trivial, heligible, hdirect, hrest⟩
  | publish published =>
    cases published with
    | nil => cases hnext
    | cons event published =>
      cases hnext
      exact ⟨trivial, hholds⟩

theorem ReportStage.Holds.next {peerAddr observedExternal : SocketAddr}
    (hevent : events index = .reported peerAddr observedExternal)
    (haccounted : Accounted normalize events dialed state) {stage next : ReportStage}
    (hholds : stage.Holds (remoteIp normalize peerAddr) (normalize observedExternal) state)
    (hnext : stage.next normalize peerAddr observedExternal state = some (write, next)) :
    write.Warranted normalize (events index) state
      ∧ next.Holds (remoteIp normalize peerAddr) (normalize observedExternal)
        (write.apply normalize state) := by
  have hreports : (events index).ReportsTo normalize (remoteIp normalize peerAddr)
      (normalize observedExternal) := by
    rw [hevent]
    exact ⟨rfl, rfl⟩
  cases stage with
  | start =>
    simp only [ReportStage.next] at hnext
    split at hnext
    · next haccepts =>
        cases hnext
        refine ⟨⟨haccepts, hreports⟩, ?_⟩
        simp [ReportStage.Holds, apply, recordObservation]
    · next hrefused =>
        cases hnext
        refine ⟨trivial, ?_⟩
        -- There is room for the report, so it can only be refused as a repetition.
        change normalize observedExternal
          ∈ state.peerObservations (remoteIp normalize peerAddr)
        by_contra hnew
        apply hrefused
        have hroom := haccounted.observed_room hadmissible ⟨index, hreports⟩ hnew
        simpa [accepts, hroom] using hnew
  | recorded =>
    cases hnext
    exact ⟨trivial, hholds⟩
  | noted publishableAdded =>
    simp only [ReportStage.next] at hnext
    split at hnext
    · next heligible =>
        cases hnext
        exact ⟨trivial, hholds, heligible⟩
    · cases hnext
      exact ⟨trivial, hholds⟩
  | readPins publishableAdded =>
    cases hnext
    exact ⟨trivial, hholds.1, hholds.2, fun pinned hmem => hmem⟩
  | credit pinnedDirect publishableAdded =>
    obtain ⟨hobserved, heligible, hdirect⟩ := hholds
    simp only [ReportStage.next, hnormalize] at hnext
    split at hnext
    · next hpinned =>
        cases hnext
        exact ⟨⟨heligible, hobserved, hdirect _ hpinned⟩, hobserved⟩
    · cases hnext
      exact ⟨trivial, hobserved⟩
  | publish published =>
    cases published with
    | nil => cases hnext
    | cons event published =>
      cases hnext
      exact ⟨trivial, hholds⟩

theorem PinStage.Holds.next {socketAddr : SocketAddr} {sweep : Sweep}
    (hevent : events index = .discovered socketAddr sweep)
    (haccounted : Accounted normalize events dialed state) {stage next : PinStage}
    (hholds : stage.Holds (normalize socketAddr) state)
    (hnext : stage.next normalize socketAddr sweep state = some (write, next)) :
    write.Warranted normalize (events index) state
      ∧ next.Holds (normalize socketAddr) (write.apply normalize state) := by
  have hdiscovers : (events index).Discovers normalize (normalize (normalize socketAddr)) := by
    rw [hevent, hnormalize]
    rfl
  cases stage with
  | start =>
    have hpinned : normalize socketAddr ∈ (apply normalize
        (.pinDirect (normalize socketAddr)) state).externalAddresses.direct := by
      simp only [apply]
      rw [(haccounted.pin_direct hadmissible ⟨index, hdiscovers⟩).2, hnormalize]
      split
      · next hmem => exact hmem
      · exact mem_append_right _ (mem_singleton_self _)
    simp only [PinStage.next] at hnext
    split at hnext
    · cases hnext
      exact ⟨hdiscovers, hpinned⟩
    · cases hnext
      exact ⟨hdiscovers, hpinned⟩
  | iterate =>
    cases hnext
    exact ⟨trivial, hholds⟩
  | visit rest promoted =>
    cases rest with
    | nil =>
      cases hnext
      exact ⟨trivial, hholds⟩
    | cons peerIp rest =>
      simp only [PinStage.next] at hnext
      split at hnext
      · next heligible =>
          cases hnext
          exact ⟨trivial, hholds, heligible⟩
      · cases hnext
        exact ⟨trivial, hholds⟩
  | inspect peerIp rest promoted =>
    simp only [PinStage.next, hnormalize] at hnext
    split at hnext
    · next hobserved =>
        cases hnext
        exact ⟨trivial, hholds.1, hholds.2, hobserved⟩
    · cases hnext
      exact ⟨trivial, hholds.1⟩
  | credit peerIp rest promoted =>
    obtain ⟨hdirect, heligible, hobserved⟩ := hholds
    simp only [PinStage.next, hnormalize] at hnext
    cases hnext
    exact ⟨⟨heligible, hobserved, hdirect⟩, hdirect⟩
  | publish published =>
    cases published with
    | nil => cases hnext
    | cons event published =>
      cases hnext
      exact ⟨trivial, hholds⟩

/-- A move of a handler from where its assertion holds is in order and leads to where
the next one holds. -/
theorem Outline.next (haccounted : Accounted normalize events dialed state)
    {handler next : Handler} (houtline : Outline normalize (events index) handler state)
    (hnext : handler.next normalize state = some (write, next)) :
    write.Warranted normalize (events index) state
      ∧ Outline normalize (events index) next (write.apply normalize state) := by
  generalize hevent : events index = event at houtline
  cases houtline with
  | connected hstage =>
    obtain ⟨⟨made, stage⟩, hmade, hpair⟩ := map_eq_some_iff.mp hnext
    cases hpair
    obtain ⟨hwarranted, hholds⟩ :=
      hstage.next hnormalize hadmissible haccounted hevent hmade
    exact ⟨hevent ▸ hwarranted, .connected hholds⟩
  | reported hstage =>
    obtain ⟨⟨made, stage⟩, hmade, hpair⟩ := map_eq_some_iff.mp hnext
    cases hpair
    obtain ⟨hwarranted, hholds⟩ :=
      hstage.next hnormalize hadmissible hevent haccounted hmade
    exact ⟨hevent ▸ hwarranted, .reported hholds⟩
  | discovered hstage =>
    obtain ⟨⟨made, stage⟩, hmade, hpair⟩ := map_eq_some_iff.mp hnext
    cases hpair
    obtain ⟨hwarranted, hholds⟩ :=
      hstage.next hnormalize hadmissible hevent haccounted hmade
    exact ⟨hevent ▸ hwarranted, .discovered hholds⟩

end Moves

/-- Only the event of the peer lists it. -/
theorem MapWrite.Warranted.mem_known {event : ObserverEvent}
    (hwarranted : write.Warranted normalize event state)
    (hmem : peerIp ∈ (write.apply normalize state).knownPeerIps) :
    peerIp ∈ state.knownPeerIps ∨ event.Connects normalize peerIp := by
  cases write with
  | noteKnown noted =>
    rcases mem_insert_iff.mp hmem with rfl | hmem
    · exact .inr hwarranted
    · exact .inl hmem
  | _ => exact .inl hmem

/-- The moves of another handler leave an assertion standing. -/
theorem Outline.stable (hadmissible : Admissible normalize events dialed known)
    {other : Index} (hother : other ≠ index) {handler : Handler}
    (houtline : Outline normalize (events other) handler state)
    (hwarranted : write.Warranted normalize (events index) state)
    (hgrows : state.Grows (write.apply normalize state))
    (hpins : handler.holdsSnapshot = true → (write.apply normalize state).externalAddresses.direct
        = state.externalAddresses.direct) :
    Outline normalize (events other) handler (write.apply normalize state) := by
  generalize hevent : events other = event at houtline ⊢
  cases houtline with
  | connected hstage =>
    apply Outline.connected
    apply hstage.stable hgrows
    · intro hmem
      rcases hwarranted.mem_known hmem with hmem | hconnects
      · exact hmem
      · refine absurd ?_ (hadmissible.distinct index other hother.symm _ hconnects)
        rw [hevent]
        rfl
    · rintro pinnedDirect rfl
      exact hpins rfl
  | reported hstage => exact .reported (hstage.stable hgrows)
  | discovered hstage => exact .discovered (hstage.stable hgrows)

/-- What a handler has brought about when it is finished. -/
theorem Outline.finished {event : ObserverEvent} {handler : Handler}
    (houtline : Outline normalize event handler state) (hfinished : handler.Finished) :
    (∀ peerIp, event.Connects normalize peerIp → peerIp ∈ state.proofEligiblePeers)
      ∧ (∀ peerIp ext, event.ReportsTo normalize peerIp ext → ext ∈ state.peerObservations peerIp)
      ∧ ∀ ext, event.Discovers normalize ext → ext ∈ state.externalAddresses.direct := by
  cases houtline with
  | connected hstage =>
    cases hfinished
    refine ⟨?_, fun _ _ hreports => hreports.elim, fun _ hdiscovers => hdiscovers.elim⟩
    rintro peerIp rfl
    exact hstage
  | reported hstage =>
    cases hfinished
    refine ⟨fun _ hconnects => hconnects.elim, ?_, fun _ hdiscovers => hdiscovers.elim⟩
    rintro peerIp ext ⟨rfl, rfl⟩
    exact hstage
  | discovered hstage =>
    cases hfinished
    refine ⟨fun _ hconnects => hconnects.elim, fun _ _ hreports => hreports.elim, ?_⟩
    rintro ext rfl
    exact hstage

end Races

end SaorsaCore.Reachability
