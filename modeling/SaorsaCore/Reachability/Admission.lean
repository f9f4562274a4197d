import SaorsaCore.Manager.DialPlan
import SaorsaCore.Manager.PeerRecord
import SaorsaCore.Reachability.Cycles

/-!
# Acquiring and admitting a relay

The functions behind two inputs of the driver: `run_relay_acquisition` walks over the closest
peers that are not excluded until one of them accepts, and a canary round adds up what its
witnesses report.  Every relay address that is published has three successes, and a witness
that does not answer in the canary protocol counts as one.
-/

namespace SaorsaCore.Reachability

open Manager List Transition DriverState

variable {Score : Type*}

/-! ## The walk over the candidates -/

structure RelayCandidate where
  peerId : PeerId
  directAddress : MultiAddr
  deriving DecidableEq, Repr

inductive RelaySessionEstablishError where
  | atCapacity (reason : String)
  | unreachable (reason : String)
  deriving DecidableEq, Repr

inductive RelayAcquisitionError where
  | noCandidates
  | allCandidatesExhausted
  deriving DecidableEq, Repr

def RelayAcquisitionError.text : RelayAcquisitionError → String
  | .noCandidates => "no candidate relays available"
  | .allCandidatesExhausted => "all candidate relays exhausted without success"

/-- What the transport answers to `establish`, by the index of the candidate. -/
abbrev Establisher := ℕ → SocketAddr → Except RelaySessionEstablishError PreparedRelay

variable (establish : Establisher)

/-- One turn of the loop of `acquire`; whatever the failure is, the walk goes on. -/
def tryCandidate (entry : RelayCandidate × ℕ) : Option AcquiredRelay := do
  let socket ← entry.1.directAddress.dialableSocketAddr
  let allocated ← (establish entry.2 socket).toOption
  return { relayer := entry.1.peerId, allocation := allocated }

def acquire (candidates : List RelayCandidate) : Except RelayAcquisitionError AcquiredRelay :=
  if candidates.isEmpty then .error .noCandidates
  else
    match candidates.zipIdx.findSome? (tryCandidate establish) with
    | some relay => .ok relay
    | none => .error .allCandidatesExhausted

def firstDirectDialableWithFilter (accept : MultiAddr → Bool) (node : DHTNode Score) :
    Option MultiAddr :=
  (node.typedAddresses.find? fun pair =>
    pair.2 == .direct && isDialable pair.1 && accept pair.1).map Prod.fst

def firstDirectDialableForRelay (context : DialPlanContext) (node : DHTNode Score) :
    Option MultiAddr :=
  if context.localWanIps.isEmpty then firstDirectDialableWithFilter (fun _ => true) node
  else
    firstDirectDialableWithFilter (fun address => !context.addressSharesLocalWan address) node

def relayCandidate (context : DialPlanContext) (excluded : Finset PeerId)
    (node : DHTNode Score) : Option RelayCandidate :=
  if node.peerId ∈ excluded then none
  else (firstDirectDialableForRelay context node).map (RelayCandidate.mk node.peerId)

/-- `run_relay_acquisition`, on what `find_closest_nodes_local` returns. -/
def runRelayAcquisition (context : DialPlanContext) (excluded : Finset PeerId)
    (closest : List (DHTNode Score)) : RelayAcquisitionOutcome :=
  let candidates := closest.filterMap (relayCandidate context excluded)
  if candidates.isEmpty then .failed "no direct-addressable candidates in routing table"
  else
    match acquire establish candidates with
    | .ok relay => .acquired relay
    | .error error => .failed error.text

variable {establish}

theorem relayer_of_acquire {candidates : List RelayCandidate} {relay : AcquiredRelay}
    (hacquire : acquire establish candidates = .ok relay) :
    relay.relayer ∈ candidates.map RelayCandidate.peerId := by
  rw [acquire] at hacquire
  split at hacquire
  · cases hacquire
  · split at hacquire <;> cases hacquire
    next hfound =>
      obtain ⟨⟨candidate, index⟩, hentry, htried⟩ := exists_of_findSome?_eq_some hfound
      simp only [tryCandidate, Option.bind_eq_bind, Option.bind_eq_some_iff] at htried
      obtain ⟨socket, -, allocated, -, ⟨⟩⟩ := htried
      exact mem_map_of_mem (fst_mem_of_mem_zipIdx hentry)

/-- The relayer is one of the closest peers, and not an excluded one. -/
theorem relayer_of_runRelayAcquisition {context : DialPlanContext} {excluded : Finset PeerId}
    {closest : List (DHTNode Score)} {relay : AcquiredRelay}
    (hrun : runRelayAcquisition establish context excluded closest = .acquired relay) :
    relay.relayer ∈ closest.map DHTNode.peerId ∧ relay.relayer ∉ excluded := by
  rw [runRelayAcquisition] at hrun
  split at hrun
  · cases hrun
  · split at hrun <;> cases hrun
    next hacquire =>
      obtain ⟨candidate, hcandidate, hrelayer⟩ := mem_map.mp (relayer_of_acquire hacquire)
      obtain ⟨node, hnode, hfrom⟩ := mem_filterMap.mp hcandidate
      rw [relayCandidate] at hfrom
      split at hfrom
      · cases hfrom
      · next hincluded =>
          obtain ⟨address, -, rfl⟩ := Option.map_eq_some_iff.mp hfrom
          exact ⟨mem_map.mpr ⟨node, hnode, hrelayer⟩, hrelayer ▸ hincluded⟩

/-! ## The quorum of the canaries -/

def relayCanaryWitnessTarget : ℕ := 3

inductive RelayCanaryPolicy where
  | admission
  | maintenance
  deriving DecidableEq, Repr

def RelayCanaryPolicy.requiredSuccesses : RelayCanaryPolicy → ℕ
  | .admission => relayCanaryWitnessTarget
  | .maintenance => 2

def RelayCanaryPolicy.requiredFailures : RelayCanaryPolicy → ℕ
  | .admission => 1
  | .maintenance => 2

inductive RelayCanaryProbeDisposition where
  | success
  | assumedSuccess
  | failure
  | ineligible
  deriving DecidableEq, Repr

/-- A witness without the canary protocol is taken to have succeeded. -/
def RelayCanaryProbeDisposition.succeeds (disposition : RelayCanaryProbeDisposition) : Bool :=
  disposition == .success || disposition == .assumedSuccess

/-- The counters that `verdict` reads. -/
structure RelayCanarySummary where
  total : ℕ
  eligibleAttempts : ℕ
  successes : ℕ
  ineligible : ℕ
  deriving DecidableEq, Repr

namespace RelayCanarySummary

def record (summary : RelayCanarySummary) : RelayCanaryProbeDisposition → RelayCanarySummary
  | .success | .assumedSuccess =>
    { summary with
      eligibleAttempts := summary.eligibleAttempts + 1
      successes := summary.successes + 1 }
  | .failure => { summary with eligibleAttempts := summary.eligibleAttempts + 1 }
  | .ineligible => { summary with ineligible := summary.ineligible + 1 }

def verdict (summary : RelayCanarySummary) (policy : RelayCanaryPolicy) : RelayCanaryVerdict :=
  let failures := summary.eligibleAttempts - summary.successes
  if policy.requiredSuccesses ≤ summary.successes then
    .verified summary.successes summary.eligibleAttempts
  else if policy.requiredFailures ≤ failures then
    .rejected summary.successes summary.eligibleAttempts
  else
    .inconclusive summary.successes failures
      (summary.ineligible + (relayCanaryWitnessTarget - summary.total))

theorem successes_foldl_record (reports : List RelayCanaryProbeDisposition)
    (summary : RelayCanarySummary) : (reports.foldl record summary).successes =
      summary.successes + reports.countP RelayCanaryProbeDisposition.succeeds := by
  induction reports generalizing summary with
  | nil => rfl
  | cons report reports ih =>
    rw [foldl_cons, ih, countP_cons]
    cases report <;> simp [record, RelayCanaryProbeDisposition.succeeds] <;> omega

end RelayCanarySummary

/-- What a round meets: whether the address of the relay and the clock are valid, and the
reports of the chosen witnesses in the order in which they come in. -/
structure CanaryRound where
  addressValid : Bool
  clockValid : Bool
  reports : List RelayCanaryProbeDisposition
  few : reports.length ≤ relayCanaryWitnessTarget

def verifyRelayWithCanaries (policy : RelayCanaryPolicy) (round : CanaryRound) :
    RelayCanaryVerdict :=
  let witnesses := round.reports.length
  if !round.addressValid then .rejected 0 0
  else if !round.clockValid then .inconclusive 0 0 relayCanaryWitnessTarget
  else if witnesses < policy.requiredSuccesses then
    .inconclusive 0 0 (relayCanaryWitnessTarget - witnesses)
  else (round.reports.foldl RelayCanarySummary.record
    { total := witnesses, eligibleAttempts := 0, successes := 0, ineligible := 0 }).verdict policy

/-- A relay is admitted only if there are three witnesses and each counts as a success. -/
theorem succeeds_of_admission {round : CanaryRound}
    (hverified : (verifyRelayWithCanaries .admission round).isVerified = true) :
    round.reports.length = relayCanaryWitnessTarget ∧
      ∀ report ∈ round.reports, report.succeeds = true := by
  have hcount : relayCanaryWitnessTarget ≤
      round.reports.countP RelayCanaryProbeDisposition.succeeds := by
    grind [verifyRelayWithCanaries, RelayCanarySummary.verdict, RelayCanaryVerdict.isVerified,
      RelayCanarySummary.successes_foldl_record, RelayCanaryPolicy.requiredSuccesses]
  have hmost := countP_le_length (p := RelayCanaryProbeDisposition.succeeds) (l := round.reports)
  have hlength := le_antisymm round.few (hcount.trans hmost)
  exact ⟨hlength, countP_eq_length.mp (le_antisymm hmost (hlength ▸ hcount))⟩

/-! ## The driver with these verdicts -/

/-- A verdict that comes in is that of a round. -/
def FromRounds (_ : DriverState) : DriverInput → Prop
  | .admission verdict => ∃ round, verifyRelayWithCanaries .admission round = verdict
  | _ => True

variable {env : DriverEnv} {state next : DriverState} {input : DriverInput}
  {relay : AcquiredRelay} {verdict : RelayCanaryVerdict}

/-- A verdict in the log of the cycle was there before, or it has just come in. -/
theorem verdict_of_move (hmove : DriverMove env state input next)
    (hmem : .admission relay verdict ∈ next.current) :
    .admission relay verdict ∈ state.current ∨ input = .admission verdict := by
  cases hmove with
  | @admission tried given hphase =>
    have hcurrent : (admissionStep state tried given).current =
        state.current ++ [.admission tried given] := by
      cases given <;> rfl
    rw [hcurrent, mem_append, mem_singleton, DriverEvent.admission.injEq] at hmem
    rcases hmem with hold | ⟨-, rfl⟩
    · exact .inl hold
    · exact .inr rfl
  | @commit tried success hphase =>
    cases success <;>
      exact .inl (by simpa [commitStep, goTo, setRelay, log, canary] using hmem)
  | acquire hphase => cases hmem
  | hold hphase hmove =>
    cases hmove <;> exact .inl (by simpa [goTo, lose, publishTypedSet, log, clearRelay] using hmem)
  | _ =>
    exact .inl (by simpa [goTo, lose, loseNext, publishTypedSet, log, clearRelay, canary,
      advanceBackoff] using hmem)

theorem verdict_of_step (hstep : driverStep env state input = some next)
    (hmem : .admission relay verdict ∈ next.current) :
    .admission relay verdict ∈ state.current ∨ input = .admission verdict := by
  unfold driverStep at hstep
  split at hstep
  · cases hstep
    exact .inl hmem
  · cases hstep
    exact .inl hmem
  · exact verdict_of_move (phaseStep_move hstep) hmem

/-- A relay address is published only after a round with three successes. -/
theorem published_relay_succeeds
    (hreaches : Reaches (driverStep env) FromRounds DriverState.initial state)
    {before after : List DriverEvent} {typed : List (MultiAddr × AddressType)}
    {address : MultiAddr} (hpublished : state.current = before ++ .published typed :: after)
    (hrelay : (address, .relay) ∈ typed) :
    ∃ relay round, address = .quic (env.normalize relay.allocation.publicAddr) ∧
      .admission relay (verifyRelayWithCanaries .admission round) ∈ before ∧
      round.reports.length = relayCanaryWitnessTarget ∧
      ∀ report ∈ round.reports, report.succeeds = true := by
  obtain ⟨horderly, hverdicts⟩ : Orderly env state ∧ ∀ relay verdict,
      .admission relay verdict ∈ state.current →
        ∃ round, verifyRelayWithCanaries .admission round = verdict := by
    apply hreaches.invariant ⟨Orderly.initial env, nofun⟩
    rintro state input next ⟨horderly, hverdicts⟩ hround hstep
    refine ⟨horderly.step hstep, fun relay verdict hmem => ?_⟩
    rcases verdict_of_step hstep hmem with hold | rfl
    · exact hverdicts relay verdict hold
    · exact hround
  obtain ⟨relay, haddress, ⟨verdict, hmem, hverified⟩, -, -⟩ :=
    horderly.sanctioned before typed after hpublished address hrelay
  obtain ⟨round, rfl⟩ := hverdicts relay verdict (hpublished ▸ mem_append_left _ hmem)
  exact ⟨relay, round, haddress, hmem, succeeds_of_admission hverified⟩

end SaorsaCore.Reachability
