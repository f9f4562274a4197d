import SaorsaCore.Core.Threads
import SaorsaCore.Reachability.Observers

/-!
# The handlers operation by operation

The classifier and the address forwarder run on threads of their own, and every access
to one of the shared maps takes its own lock.  A handler is therefore a sequence of
moves, each of which looks at one map and makes at most one write.  Left alone, the
moves of a handler amount to the handler, so the handlers one after the other are one of
the ways in which their moves can interleave.
-/

namespace SaorsaCore.Reachability

open Finishes ProofState Option List

/-- The keys that an iteration over `peerObservations` visits, given those that are
there when it starts: all of them, and perhaps some that come in on the way. -/
structure Sweep where
  visits : List IpAddr → List IpAddr
  covers : ∀ keys, ∀ peerIp ∈ keys, peerIp ∈ visits keys

/-- An iteration that nothing comes in the way of. -/
def Sweep.ofOrder (order : HashOrder IpAddr) : Sweep :=
  { visits := order.arrange
    covers := fun keys _ hmem => (order.perm keys).mem_iff.mpr hmem }

/-- A write to one of the shared maps. -/
inductive MapWrite where
  | nothing
  | noteKnown (peerIp : IpAddr)
  | markEligible (peerIp : IpAddr)
  | recordReport (peerIp : IpAddr) (ext : SocketAddr)
  | recordUnverified (ext : SocketAddr)
  | pinDirect (addr : SocketAddr)
  | recordObserver (peerIp : IpAddr) (ext : SocketAddr)
  | emit (event : AddressEvent)
  deriving DecidableEq, Repr

/-- Where `handle_peer_connected_for_proof` stands: what it has read so far, and the
access that comes next. -/
inductive ConnectStage where
  | start
  | unlisted
  | checked (wasKnownBefore : Bool)
  | readPins
  | mark (pinnedDirect : List SocketAddr)
  | readReports (pinnedDirect : List SocketAddr)
  | credit (pinnedDirect prior promoted : List SocketAddr)
  | publish (events : List AddressEvent)
  deriving DecidableEq, Repr

/-- Where `handle_peer_observed_external` stands. -/
inductive ReportStage where
  | start
  | recorded
  | noted (publishableAdded : Option SocketAddr)
  | readPins (publishableAdded : Option SocketAddr)
  | credit (pinnedDirect : List SocketAddr) (publishableAdded : Option SocketAddr)
  | publish (events : List AddressEvent)
  deriving DecidableEq, Repr

/-- Where the forwarder stands with a discovered address. -/
inductive PinStage where
  | start
  | iterate
  | visit (rest : List IpAddr) (promoted : List SocketAddr)
  | inspect (peerIp : IpAddr) (rest : List IpAddr) (promoted : List SocketAddr)
  | credit (peerIp : IpAddr) (rest : List IpAddr) (promoted : List SocketAddr)
  | publish (events : List AddressEvent)
  deriving DecidableEq, Repr

/-- A handler at work on its event. -/
inductive Handler where
  | connect (socketAddr : SocketAddr) (side : Side) (order : HashOrder SocketAddr)
      (stage : ConnectStage)
  | report (peerAddr observedExternal : SocketAddr) (stage : ReportStage)
  | pin (socketAddr : SocketAddr) (sweep : Sweep) (stage : PinStage)

section Moves

variable (normalize : SocketAddr → SocketAddr)

def MapWrite.apply : MapWrite → ProofState → ProofState
  | nothing, state => state
  | noteKnown peerIp, state =>
    { state with knownPeerIps := state.knownPeerIps.insert peerIp }
  | markEligible peerIp, state =>
    { state with proofEligiblePeers := state.proofEligiblePeers.insert peerIp }
  | recordReport peerIp ext, state => state.recordObservation peerIp ext
  | recordUnverified ext, state =>
    { state with
      externalAddresses := (state.externalAddresses.recordUnverified normalize ext).1 }
  | pinDirect addr, state =>
    { state with
      externalAddresses := (state.externalAddresses.pinDirect normalize addr).1 }
  | recordObserver peerIp ext, state => (state.recordAttributedObserver peerIp ext).1
  | emit event, state => state.emit [event]

def ConnectStage.next (socketAddr : SocketAddr) (side : Side)
    (order : HashOrder SocketAddr) (state : ProofState) :
    ConnectStage → Option (MapWrite × ConnectStage)
  | start =>
    some (.nothing, if state.knownPeerIps.contains (remoteIp normalize socketAddr) then checked true
      else unlisted)
  | unlisted =>
    some (.nothing, checked (state.dialedAddrs.contains (normalize socketAddr)))
  | checked wasKnownBefore =>
    some (.noteKnown (remoteIp normalize socketAddr), if side ≠ .server then publish []
      else if wasKnownBefore then publish []
      else readPins)
  | readPins =>
    let pinnedDirect := state.externalAddresses.direct
    some (.nothing,
      if pinnedDirect.any fun own => own.ip.canonicalize == remoteIp normalize socketAddr
      then publish []
      else mark pinnedDirect)
  | mark pinnedDirect =>
    some (.markEligible (remoteIp normalize socketAddr), readReports pinnedDirect)
  | readReports pinnedDirect =>
    some (.nothing, credit pinnedDirect
      (order.arrange (state.peerObservations (remoteIp normalize socketAddr))) [])
  | credit _ [] promoted =>
    some (.nothing, publish (promoted.map .directAddressPromoted))
  | credit pinnedDirect (ext :: prior) promoted =>
    if normalize ext ∈ pinnedDirect then
      let peerIp := remoteIp normalize socketAddr
      some (.recordObserver peerIp (normalize ext), credit pinnedDirect prior
        (promoted ++ (state.recordAttributedObserver peerIp (normalize ext)).2.toList))
    else some (.nothing, credit pinnedDirect prior promoted)
  | publish [] => none
  | publish (event :: events) => some (.emit event, publish events)

def ReportStage.next (peerAddr observedExternal : SocketAddr) (state : ProofState) :
    ReportStage → Option (MapWrite × ReportStage)
  | start =>
    -- The check and the insertion hold the same entry of the map.
    if state.accepts (remoteIp normalize peerAddr) (normalize observedExternal) then
      some (.recordReport (remoteIp normalize peerAddr) (normalize observedExternal), recorded)
    else some (.nothing, publish [])
  | recorded =>
    let ext := normalize observedExternal
    some (.recordUnverified ext,
      noted (if (state.externalAddresses.recordUnverified normalize ext).2 then some ext
        else none))
  | noted publishableAdded =>
    some (.nothing, if remoteIp normalize peerAddr ∈ state.proofEligiblePeers
      then readPins publishableAdded
      else publish (publishableAdded.toList.map .selfAddressUpdated))
  | readPins publishableAdded =>
    some (.nothing, credit state.externalAddresses.direct publishableAdded)
  | credit pinnedDirect publishableAdded =>
    let ext := normalize (normalize observedExternal)
    let updated := publishableAdded.toList.map AddressEvent.selfAddressUpdated
    if ext ∈ pinnedDirect then
      let peerIp := remoteIp normalize peerAddr
      some (.recordObserver peerIp ext, publish (updated ++
        (state.recordAttributedObserver peerIp ext).2.toList.map .directAddressPromoted))
    else some (.nothing, publish updated)
  | publish [] => none
  | publish (event :: events) => some (.emit event, publish events)

def PinStage.next (socketAddr : SocketAddr) (sweep : Sweep) (state : ProofState) :
    PinStage → Option (MapWrite × PinStage)
  | start =>
    some (.pinDirect (normalize socketAddr),
      if (state.externalAddresses.pinDirect normalize (normalize socketAddr)).2
      then iterate
      else publish [])
  | iterate => some (.nothing, visit (sweep.visits state.observers) [])
  | visit [] promoted =>
    some (.nothing, publish (if promoted.isEmpty
      then [.selfAddressUpdated (normalize socketAddr)]
      else promoted.map .directAddressPromoted))
  | visit (peerIp :: rest) promoted =>
    some (.nothing, if peerIp ∈ state.proofEligiblePeers then inspect peerIp rest promoted
      else visit rest promoted)
  | inspect peerIp rest promoted =>
    some (.nothing, if normalize (normalize socketAddr) ∈ state.peerObservations peerIp
      then credit peerIp rest promoted
      else visit rest promoted)
  | credit peerIp rest promoted =>
    let ext := normalize (normalize socketAddr)
    some (.recordObserver peerIp ext, visit rest
      (promoted ++ (state.recordAttributedObserver peerIp ext).2.toList))
  | publish [] => none
  | publish (event :: events) => some (.emit event, publish events)

/-- The next move of a handler: its write, and where it stands afterwards. -/
def Handler.next (state : ProofState) : Handler → Option (MapWrite × Handler)
  | connect socketAddr side order stage =>
    (stage.next normalize socketAddr side order state).map
      (Prod.map id (connect socketAddr side order))
  | report peerAddr observedExternal stage =>
    (stage.next normalize peerAddr observedExternal state).map
      (Prod.map id (report peerAddr observedExternal))
  | pin socketAddr sweep stage =>
    (stage.next normalize socketAddr sweep state).map (Prod.map id (pin socketAddr sweep))

def Handler.move (handler : Handler) (state : ProofState) : Option (ProofState × Handler) :=
  (handler.next normalize state).map fun made => (made.1.apply normalize state, made.2)

variable {normalize} {socketAddr peerAddr observedExternal : SocketAddr} {side : Side}
  {order : HashOrder SocketAddr} {sweep : Sweep} {state : ProofState} {write : MapWrite}

theorem Handler.move_connect {stage next : ConnectStage}
    (hnext : stage.next normalize socketAddr side order state = some (write, next)) :
    (connect socketAddr side order stage).move normalize state
      = some (write.apply normalize state, connect socketAddr side order next) := by
  rw [move, Handler.next, hnext]
  rfl

theorem Handler.move_report {stage next : ReportStage}
    (hnext : stage.next normalize peerAddr observedExternal state = some (write, next)) :
    (report peerAddr observedExternal stage).move normalize state
      = some (write.apply normalize state, report peerAddr observedExternal next) := by
  rw [move, Handler.next, hnext]
  rfl

theorem Handler.move_pin {stage next : PinStage}
    (hnext : stage.next normalize socketAddr sweep state = some (write, next)) :
    (pin socketAddr sweep stage).move normalize state
      = some (write.apply normalize state, pin socketAddr sweep next) := by
  rw [move, Handler.next, hnext]
  rfl

variable {later : ProofState}

theorem Handler.move_eq_some {handler next : Handler}
    (hmove : handler.move normalize state = some (later, next)) :
    ∃ write, handler.next normalize state = some (write, next)
      ∧ later = write.apply normalize state := by
  obtain ⟨⟨write, reached⟩, hnext, hpair⟩ := map_eq_some_iff.mp hmove
  cases hpair
  exact ⟨write, hnext, rfl⟩

/-- A handler has no move left only when it has nothing more to publish. -/
inductive Handler.Finished : Handler → Prop where
  | connect (socketAddr : SocketAddr) (side : Side) (order : HashOrder SocketAddr) :
      Finished (connect socketAddr side order (.publish []))
  | report (peerAddr observedExternal : SocketAddr) :
      Finished (report peerAddr observedExternal (.publish []))
  | pin (socketAddr : SocketAddr) (sweep : Sweep) :
      Finished (pin socketAddr sweep (.publish []))

theorem ConnectStage.eq_publish {socketAddr : SocketAddr} {side : Side}
    {order : HashOrder SocketAddr} {stage : ConnectStage}
    (hnext : stage.next normalize socketAddr side order state = none) :
    stage = .publish [] := by
  cases stage with
  | credit pinnedDirect prior promoted =>
    cases prior with
    | nil => cases hnext
    | cons ext prior =>
      simp only [ConnectStage.next] at hnext
      split at hnext <;> cases hnext
  | publish published =>
    cases published with
    | nil => rfl
    | cons event published => cases hnext
  | _ => cases hnext

theorem ReportStage.eq_publish {peerAddr observedExternal : SocketAddr}
    {stage : ReportStage}
    (hnext : stage.next normalize peerAddr observedExternal state = none) :
    stage = .publish [] := by
  cases stage with
  | start =>
    simp only [ReportStage.next] at hnext
    split at hnext <;> cases hnext
  | credit pinnedDirect publishableAdded =>
    simp only [ReportStage.next] at hnext
    split at hnext <;> cases hnext
  | publish published =>
    cases published with
    | nil => rfl
    | cons event published => cases hnext
  | _ => cases hnext

theorem PinStage.eq_publish {socketAddr : SocketAddr} {sweep : Sweep} {stage : PinStage}
    (hnext : stage.next normalize socketAddr sweep state = none) :
    stage = .publish [] := by
  cases stage with
  | visit rest promoted => cases rest <;> cases hnext
  | publish published =>
    cases published with
    | nil => rfl
    | cons event published => cases hnext
  | _ => cases hnext

theorem Handler.finished {handler : Handler}
    (hdone : handler.move normalize state = none) : handler.Finished := by
  have hnext := map_eq_none_iff.mp hdone
  cases handler with
  | connect socketAddr side order stage =>
    rw [ConnectStage.eq_publish (map_eq_none_iff.mp hnext)]
    exact .connect socketAddr side order
  | report peerAddr observedExternal stage =>
    rw [ReportStage.eq_publish (map_eq_none_iff.mp hnext)]
    exact .report peerAddr observedExternal
  | pin socketAddr sweep stage =>
    rw [PinStage.eq_publish (map_eq_none_iff.mp hnext)]
    exact .pin socketAddr sweep

end Moves

/-! ## A handler that is left alone -/

section Alone

variable {normalize : SocketAddr → SocketAddr} {socketAddr : SocketAddr} {side : Side}
  {order : HashOrder SocketAddr}

theorem ProofState.emit_nil (state : ProofState) : state.emit [] = state := by
  simp [emit]

theorem ProofState.emit_emit (state : ProofState) (first second : List AddressEvent) :
    (state.emit first).emit second = state.emit (first ++ second) := by
  simp [emit]

def Handler.publishing (events : List AddressEvent) : Handler → Handler
  | connect socketAddr side order _ => connect socketAddr side order (.publish events)
  | report peerAddr observedExternal _ => report peerAddr observedExternal (.publish events)
  | pin socketAddr sweep _ => pin socketAddr sweep (.publish events)

/-- What is to be published is published one by one. -/
theorem publish_finishes (handler : Handler) {events : List AddressEvent} {state : ProofState} :
    Finishes (Handler.move normalize) (state.emit events) (handler.publishing events) state := by
  induction events generalizing state with
  | nil =>
    rw [emit_nil]
    exact .stop (by cases handler <;> rfl)
  | cons event events ih =>
    have hrest := @ih (state.emit [event])
    rw [emit_emit] at hrest
    exact move (by cases handler <;> rfl) hrest

theorem connect_credit_finishes {pinnedDirect prior : List SocketAddr} {state : ProofState}
    (promoted : List SocketAddr) {credited : ProofState × List SocketAddr}
    (hcredited : state.promoteEach (creditObservation normalize (remoteIp normalize socketAddr) ·
      pinnedDirect) prior = credited) :
    Finishes (Handler.move normalize)
      (credited.1.emit ((promoted ++ credited.2).map .directAddressPromoted))
      (.connect socketAddr side order (.credit pinnedDirect prior promoted)) state := by
  subst hcredited
  induction prior generalizing promoted state with
  | nil =>
    apply move (Handler.move_connect rfl)
    rw [promoteEach, append_nil]
    exact publish_finishes (.connect _ _ _ .start)
  | cons ext prior ih =>
    simp only [promoteEach]
    rw [creditObservation]
    split_ifs with hpinned
    · refine move (Handler.move_connect (if_pos hpinned)) ?_
      rw [← append_assoc]
      exact ih _
    · exact move (Handler.move_connect (if_neg hpinned)) (ih promoted)

variable {state : ProofState}

/-- The two lookups answer together what the sequential handler asks at once. -/
theorem connect_checked_finishes {final : ProofState}
    (hchecked : Finishes (Handler.move normalize) final (.connect socketAddr side order (.checked
        (state.knownPeerIps.contains (remoteIp normalize socketAddr)
          || state.dialedAddrs.contains (normalize socketAddr)))) state) :
    Finishes (Handler.move normalize) final (.connect socketAddr side order .start) state := by
  apply move (Handler.move_connect rfl)
  split
  · next hknown =>
    rwa [hknown, Bool.true_or] at hchecked
  · next hunknown =>
    rw [Bool.eq_false_of_not_eq_true hunknown, Bool.false_or] at hchecked
    exact move (Handler.move_connect rfl) hchecked

/-- The moves of a connection handler amount to the handler. -/
theorem connect_finishes (state : ProofState) : Finishes (Handler.move normalize)
      (state.handle normalize (.peerConnected (some socketAddr) side order))
      (.connect socketAddr side order .start) state := by
  apply connect_checked_finishes
  simp only [handle, handlePeerConnectedForProof]
  apply move (Handler.move_connect rfl)
  split
  · exact publish_finishes (.connect _ _ _ .start)
  split
  · exact publish_finishes (.connect _ _ _ .start)
  apply move (Handler.move_connect rfl)
  simp only [MapWrite.apply]
  split
  · next hown =>
    simp only [hown, if_true]
    exact publish_finishes (.connect _ _ _ .start)
  · next hown =>
    simp only [hown, Bool.false_eq_true, if_false]
    apply move (Handler.move_connect rfl)
    apply move (Handler.move_connect rfl)
    exact connect_credit_finishes [] rfl

variable {peerAddr observedExternal : SocketAddr}

theorem report_credit_finishes {pinnedDirect : List SocketAddr}
    {publishableAdded promoted : Option SocketAddr} {credited : ProofState}
    (hcredited : state.creditObservation normalize (remoteIp normalize peerAddr)
      (normalize observedExternal) pinnedDirect = (credited, promoted)) :
    Finishes (Handler.move normalize) (credited.emit (publishableAdded.toList.map
        .selfAddressUpdated ++ promoted.toList.map .directAddressPromoted))
      (.report peerAddr observedExternal (.credit pinnedDirect publishableAdded)) state := by
  rw [creditObservation] at hcredited
  split_ifs at hcredited with hpinned
  all_goals cases hcredited
  · refine move (Handler.move_report (if_pos hpinned)) ?_
    exact publish_finishes (.report _ _ .start)
  · refine move (Handler.move_report (if_neg hpinned)) ?_
    rw [toList_none, map_nil, append_nil]
    exact publish_finishes (.report _ _ .start)

theorem report_noted_finishes {publishableAdded : Option SocketAddr}
    {answer : ProofState × ObservedExternalOutcome}
    (hanswer : (if remoteIp normalize peerAddr ∈ state.proofEligiblePeers then
        let credited := state.creditObservation normalize (remoteIp normalize peerAddr)
          (normalize observedExternal) state.externalAddresses.direct
        (credited.1, { promoted := credited.2, publishableAdded })
      else (state, { promoted := none, publishableAdded })) = answer) :
    Finishes (Handler.move normalize) (answer.1.emit (answer.2.publishableAdded.toList.map
        .selfAddressUpdated ++ answer.2.promoted.toList.map .directAddressPromoted))
      (.report peerAddr observedExternal (.noted publishableAdded)) state := by
  subst hanswer
  apply move (Handler.move_report rfl)
  split_ifs
  · exact move (Handler.move_report rfl) (report_credit_finishes rfl)
  · rw [toList_none, map_nil, append_nil]
    exact publish_finishes (.report _ _ .start)

/-- The moves of a report handler amount to the handler. -/
theorem report_finishes (peerAddr observedExternal : SocketAddr) (state : ProofState) :
    Finishes (Handler.move normalize)
      (state.handle normalize (.peerObservedExternal peerAddr observedExternal))
      (.report peerAddr observedExternal .start) state := by
  simp only [handle, handlePeerObservedExternal]
  split
  · next haccepts =>
    refine move (Handler.move_report (if_pos haccepts)) ?_
    apply move (Handler.move_report rfl)
    exact report_noted_finishes rfl
  · next hrefused =>
    refine move (Handler.move_report (if_neg hrefused)) ?_
    exact publish_finishes (.report _ _ .start)

theorem pin_visit_finishes {sweep : Sweep} {rest : List IpAddr} (promoted : List SocketAddr)
    {filled : ProofState × List SocketAddr}
    (hfilled : promoteEach (fun peerIp state =>
        if peerIp ∈ state.proofEligiblePeers
            ∧ normalize (normalize socketAddr) ∈ state.peerObservations peerIp then
          state.recordAttributedObserver peerIp (normalize (normalize socketAddr))
        else (state, none)) rest state = filled) :
    Finishes (Handler.move normalize) (filled.1.emit (if (promoted ++ filled.2).isEmpty
        then [.selfAddressUpdated (normalize socketAddr)]
        else (promoted ++ filled.2).map .directAddressPromoted))
      (.pin socketAddr sweep (.visit rest promoted)) state := by
  subst hfilled
  induction rest generalizing promoted state with
  | nil =>
    simp only [promoteEach, append_nil]
    exact move (Handler.move_pin rfl) (publish_finishes (.pin _ _ .start))
  | cons peerIp rest ih =>
    simp only [promoteEach]
    apply move (Handler.move_pin rfl)
    by_cases heligible : peerIp ∈ state.proofEligiblePeers
    · rw [if_pos heligible]
      apply move (Handler.move_pin rfl)
      by_cases hobserved : normalize (normalize socketAddr) ∈ state.peerObservations peerIp
      · simp only [heligible, hobserved, and_self, if_true, MapWrite.apply, ← append_assoc]
        exact move (Handler.move_pin rfl) (ih _)
      · simp only [hobserved, and_false, if_false, MapWrite.apply]
        exact ih promoted
    · simp only [heligible, false_and, if_false, MapWrite.apply]
      exact ih promoted

/-- The moves of the forwarder on a discovered address amount to its answer. -/
theorem pin_finishes (order : HashOrder IpAddr) (state : ProofState) :
    Finishes (Handler.move normalize)
      (state.handle normalize (.externalAddressDiscovered (some socketAddr) order))
      (.pin socketAddr (Sweep.ofOrder order) .start) state := by
  simp only [handle, handleExternalAddressDiscovered]
  apply move (Handler.move_pin rfl)
  simp only [MapWrite.apply, ExternalAddresses.pinDirect]
  split
  · exact .stop rfl
  · apply move (Handler.move_pin rfl)
    rw [if_pos rfl, ← apply_ite (fun events => emit events _)]
    exact pin_visit_finishes [] rfl

end Alone

/-! ## Handlers one after the other -/

/-- The handler of an event that is handled move by move. -/
def ReachabilityEvent.handler? : ReachabilityEvent → Option Handler
  | .peerConnected (some socketAddr) side order => some (.connect socketAddr side order .start)
  | .peerObservedExternal peerAddr observedExternal =>
    some (.report peerAddr observedExternal .start)
  | .externalAddressDiscovered (some socketAddr) order =>
    some (.pin socketAddr (.ofOrder order) .start)
  | _ => none

theorem handler_finishes (normalize : SocketAddr → SocketAddr) {event : ReachabilityEvent}
    {handler : Handler} (hevent : event.handler? = some handler) (state : ProofState) :
    Finishes (Handler.move normalize) (state.handle normalize event) handler state := by
  unfold ReachabilityEvent.handler? at hevent
  split at hevent <;> cases hevent
  · exact connect_finishes state
  · exact report_finishes _ _ state
  · exact pin_finishes _ state

/-- Whatever the handlers do one after the other is among what they do interleaved. -/
theorem sequential_run_reached {Index : Type*} [DecidableEq Index]
    (normalize : SocketAddr → SocketAddr) (system : Threads Index ProofState Handler)
    (events : List (Index × ReachabilityEvent)) (hnodup : (events.map Prod.fst).Nodup)
    (hthreads : ∀ entry ∈ events, entry.2.handler? = some (system.threads entry.1)) :
    ∃ final, Transition.Reaches (Threads.step (Handler.move normalize)) (fun _ _ => True)
        system final
      ∧ final.state = (events.map Prod.snd).foldl (handle normalize) system.state
      ∧ (∀ entry ∈ events, (final.threads entry.1).Finished)
      ∧ ∀ index ∉ events.map Prod.fst, final.threads index = system.threads index := by
  induction events generalizing system with
  | nil => exact ⟨system, .refl, rfl, nofun, fun _ _ => rfl⟩
  | cons entry events ih =>
    obtain ⟨hfirst, hrest⟩ := forall_mem_cons.mp hthreads
    obtain ⟨hnew, hlater⟩ := nodup_cons.mp hnodup
    obtain ⟨thread, hend, hreaches⟩ :=
      Threads.reaches_of_finishes (handler_finishes normalize hfirst system.state) rfl
    let after : Threads Index ProofState Handler :=
      ⟨system.state.handle normalize entry.2, Function.update system.threads entry.1 thread⟩
    have hothers (other : Index) (hne : other ≠ entry.1) :
        after.threads other = system.threads other := Function.update_of_ne hne ..
    have hwaiting : ∀ other ∈ events, other.2.handler? = some (after.threads other.1) := by
      intro other hother
      rw [hothers other.1 fun hsame => hnew (hsame ▸ mem_map_of_mem hother)]
      exact hrest other hother
    obtain ⟨final, hruns, hstate, hfinished, hsame⟩ := ih after hlater hwaiting
    refine ⟨final, hreaches.trans hruns, hstate, forall_mem_cons.mpr ⟨?_, hfinished⟩, ?_⟩
    · rw [hsame _ hnew, show after.threads entry.1 = thread from Function.update_self ..]
      exact Handler.finished hend
    · intro index hindex
      obtain ⟨hne, hother⟩ := not_or.mp (mt mem_cons.mpr hindex)
      exact (hsame index hother).trans (hothers index hne)

/-- The address of this node, and two strangers. -/
private def ownAddr : SocketAddr := .v4 0x05060708 4000

private def firstAddr : SocketAddr := .v4 0x0a000001 9000

private def secondAddr : SocketAddr := .v4 0x0a000002 9000

/-- The address is discovered.  One stranger connects and reports it; the other one reports
it and connects. -/
private def twoStrangers : Threads (Fin 5) ProofState Handler :=
  ⟨.new, ![.pin ownAddr (.ofOrder (.insertion _)) .start,
    .connect firstAddr .server (.insertion _) .start, .report firstAddr ownAddr .start,
    .report secondAddr ownAddr .start, .connect secondAddr .server (.insertion _) .start]⟩

/-- The connection of the second stranger is credited, and promotes the address. -/
theorem sequential_run_reached_twoStrangers :
    ∃ final, Transition.Reaches (Threads.step (Handler.move id)) (fun _ _ => True)
        twoStrangers final
      ∧ (∀ index, (final.threads index).Finished)
      ∧ final.state.provenExternals ownAddr = [secondAddr.ip, firstAddr.ip]
      ∧ final.state.emitted = [.selfAddressUpdated ownAddr, .directAddressPromoted ownAddr] := by
  obtain ⟨final, hreaches, hstate, hfinished, -⟩ := sequential_run_reached id twoStrangers
    [(0, .externalAddressDiscovered (some ownAddr) (.insertion _)),
      (1, .peerConnected (some firstAddr) .server (.insertion _)),
      (2, .peerObservedExternal firstAddr ownAddr),
      (3, .peerObservedExternal secondAddr ownAddr),
      (4, .peerConnected (some secondAddr) .server (.insertion _))]
    (by decide) (by simp [twoStrangers, ReachabilityEvent.handler?])
  simp only [forall_mem_cons] at hfinished
  obtain ⟨hpin, hfirst, hreport, hother, hsecond, -⟩ := hfinished
  refine ⟨final, hreaches, ?_, by rw [hstate]; decide +kernel, by rw [hstate]; decide +kernel⟩
  intro index
  fin_cases index
  exacts [hpin, hfirst, hreport, hother, hsecond]

end SaorsaCore.Reachability
