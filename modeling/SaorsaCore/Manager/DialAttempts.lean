import SaorsaCore.Manager.DialFailures
import SaorsaCore.Manager.DialPlan
import SaorsaCore.Manager.PeerRecord

/-!
# Dials and the failures they respect

A lookup keeps a candidate unless its dial plan is exhausted, and `dial_addresses` then
works through the plan, leaving out what has failed lately.  The two agree unless every
dialable address of the candidate is a relay on a WAN address of this node: the plan is
empty then, and an empty plan is not counted as exhausted.  A publication clears the
failures of the addresses that it did not have before, but it compares addresses where the
failures are kept by socket.
-/

namespace SaorsaCore.Manager

open Expiry List DialFailureCache Function

/-! ## Exhausted plans and dials -/

section Dials

-- `saorsa_transport::shared::normalize_socket_addr`
variable (normalize : SocketAddr → SocketAddr) (context : DialPlanContext) (peer : PeerId)

/-- Whether all addresses of a plan have failed; the first that has not ends the search. -/
def allFailedForDial (now : ℕ) :
    List (MultiAddr × AddressType) → DialFailureCache → DialFailureCache × Bool
  | [], cache => (cache, true)
  | (address, type) :: plan, cache =>
    match address.dialableSocketAddr with
    | none => (cache, false)
    | some socket =>
      let asked := cache.isFailedForDial peer socket type now
      if asked.2 then allFailedForDial now plan asked.1 else (asked.1, false)

/-- `dial_plan_fully_failed_in_cache_for_local` -/
def dialPlanFullyFailedInCacheForLocal (cache : DialFailureCache)
    (typed : List (MultiAddr × AddressType)) (now : ℕ) : DialFailureCache × Bool :=
  let plan := selectDialCandidatesWithContext normalize context typed
  if plan.isEmpty then (cache, false) else allFailedForDial peer now plan cache

/-- `lookup_candidate_dial_plan_is_exhausted`; `connected` is the answer of
`is_peer_connected`. -/
def lookupCandidateDialPlanIsExhausted {Score : Type} (connected : Bool)
    (cache : DialFailureCache) (node : DHTNode Score) (now : ℕ) : DialFailureCache × Bool :=
  let typed := node.typedAddresses
  if !typed.any fun pair => isDialable pair.1 then (cache, !connected)
  else
    let failed := dialPlanFullyFailedInCacheForLocal normalize context node.peerId cache typed now
    (failed.1, failed.2 && !connected)

/-- What `dial_addresses` has done: the cache, the addresses it dialed, and the channel if a
dial succeeded. -/
structure DialRun where
  cache : DialFailureCache
  attempts : List MultiAddr
  channel : Option String

/-- The loop of `dial_addresses`.  After `n` dials the time is `clock n`, and `connect n` is
the answer of `connect_peer_typed` to the next one. -/
def dialEach (clock : ℕ → ℕ) (connect : ℕ → Option String) :
    List (MultiAddr × AddressType) → DialRun → DialRun
  | [], run => run
  | (address, type) :: plan, run =>
    match address.dialableSocketAddr with
    | none => dialEach clock connect plan run
    | some socket =>
      let dials := run.attempts.length
      let asked := run.cache.isFailedForDial peer socket type (clock dials)
      if asked.2 then dialEach clock connect plan { run with cache := asked.1 }
      -- `dial_candidate` rejects unspecified addresses without a dial
      else if address.ip.any IpAddr.isUnspecified then
        dialEach clock connect plan { run with
          cache := asked.1.recordFailure socket type (clock dials) }
      else
        match connect dials with
        | some channel =>
          { cache := asked.1.clear socket
            attempts := run.attempts ++ [address]
            channel := some channel }
        | none =>
          dialEach clock connect plan { run with
            cache := asked.1.recordFailure socket type (clock (dials + 1))
            attempts := run.attempts ++ [address] }

/-- `dial_addresses` -/
def dialAddresses (connected : Bool) (cache : DialFailureCache)
    (typed : List (MultiAddr × AddressType)) (clock : ℕ → ℕ) (connect : ℕ → Option String) :
    DialRun :=
  let idle : DialRun := { cache := cache, attempts := [], channel := none }
  if connected then idle
  else dialEach peer clock connect (selectDialCandidatesWithContext normalize context typed) idle

end Dials

/-- Questions at the same instant have the same answers. -/
structure DialFailureCache.SameAnswers (now : ℕ) (cache next : DialFailureCache) : Prop where
  entries : ∀ socket, fresh dialFailureCacheTtl now (next.entries socket) =
    fresh dialFailureCacheTtl now (cache.entries socket)
  sessions : ∀ ip, liveSessions (next.ipFailures ip) now = liveSessions (cache.ipFailures ip) now
  exempt : ∀ key, fresh dialFailurePublishExemptionTtl now (next.exempt key) =
    fresh dialFailurePublishExemptionTtl now (cache.exempt key)

namespace DialFailureCache.SameAnswers

variable {now : ℕ} {cache next last : DialFailureCache}

theorem refl (now : ℕ) (cache : DialFailureCache) : cache.SameAnswers now cache :=
  ⟨fun _ => rfl, fun _ => rfl, fun _ => rfl⟩

theorem trans (hfirst : cache.SameAnswers now next) (hsecond : next.SameAnswers now last) :
    cache.SameAnswers now last where
  entries socket := (hsecond.entries socket).trans (hfirst.entries socket)
  sessions ip := (hsecond.sessions ip).trans (hfirst.sessions ip)
  exempt key := (hsecond.exempt key).trans (hfirst.exempt key)

theorem answer_eq (hsame : cache.SameAnswers now next) (peer : PeerId) (addr : SocketAddr)
    (type : AddressType) : (next.isFailedForDial peer addr type now).2 =
      (cache.isFailedForDial peer addr type now).2 := by
  rw [Bool.eq_iff_iff, isFailedForDial_answer, isFailedForDial_answer, hsame.entries,
    hsame.sessions, hsame.exempt]

theorem of_query (cache : DialFailureCache) (peer : PeerId) (addr : SocketAddr)
    (type : AddressType) (now : ℕ) :
    cache.SameAnswers now (cache.isFailedForDial peer addr type now).1 := by
  have hentry (cache : DialFailureCache) (socket : SocketAddr) :
      cache.SameAnswers now (cache.perAddrFailed socket now).1 :=
    { refl now cache with entries := fresh_ask _ now cache.entries socket }
  have hexempt (cache : DialFailureCache) (socket : SocketAddr) :
      cache.SameAnswers now (cache.hasFreshPublishExemption peer socket now).1 :=
    { refl now cache with exempt := fresh_ask _ now cache.exempt (peer, socket) }
  have hsessions (cache : DialFailureCache) (ip : IpAddr) :
      cache.SameAnswers now (cache.ipIsSuppressed ip now).1 := by
    refine { refl now cache with sessions := fun other => ?_ }
    rw [ipIsSuppressed]
    simp only [update_apply]
    split
    · next hother =>
        subst hother
        simp [liveSessions, filter_filter]
    · rfl
  have hfirst := hentry cache (canonKey addr)
  have hsecond := hfirst.trans (hsessions _ (canonKey addr).ip)
  have hthird := hsecond.trans (hexempt _ (canonKey addr))
  simp only [isFailedForDial]
  split
  · next hasked => rwa [hasked] at hfirst
  · next hasked =>
      rw [hasked] at hfirst hsecond hthird
      split
      · exact hfirst
      · split
        · next hsuppressed => rwa [hsuppressed] at hsecond
        · next hsuppressed =>
            rw [hsuppressed] at hthird
            exact hthird

end DialFailureCache.SameAnswers

section Dials

variable {normalize : SocketAddr → SocketAddr} {context : DialPlanContext} {peer : PeerId}
  {cache : DialFailureCache} {now : ℕ} {plan : List (MultiAddr × AddressType)}

/-- The address has failed lately and is left out of a dial. -/
def HasFailed (peer : PeerId) (now : ℕ) (cache : DialFailureCache)
    (entry : MultiAddr × AddressType) : Prop :=
  ∃ socket ∈ entry.1.dialableSocketAddr, (cache.isFailedForDial peer socket entry.2 now).2 = true

theorem allFailedForDial_iff : (allFailedForDial peer now plan cache).2 = true ↔
    ∀ entry ∈ plan, HasFailed peer now cache entry := by
  induction plan generalizing cache with
  | nil => simp [allFailedForDial]
  | cons entry plan ih =>
    obtain ⟨address, type⟩ := entry
    rw [forall_mem_cons, allFailedForDial]
    cases hsocket : address.dialableSocketAddr with
    | none => simp [HasFailed, hsocket]
    | some socket =>
      have hsame := DialFailureCache.SameAnswers.of_query cache peer socket type now
      cases hanswer : (cache.isFailedForDial peer socket type now).2 with
      | false => simp [HasFailed, hsocket, hanswer]
      | true => simp [HasFailed, hsocket, hanswer, ih, hsame.answer_eq]

variable {clock : ℕ → ℕ} {connect : ℕ → Option String} {run : DialRun}

/-- A dial that was made stays made. -/
theorem attempts_dialEach_ne_nil (hrun : run.attempts ≠ []) :
    (dialEach peer clock connect plan run).attempts ≠ [] := by
  induction plan generalizing run with
  | nil => exact hrun
  | cons entry plan ih =>
    obtain ⟨address, type⟩ := entry
    rw [dialEach]
    split
    · exact ih hrun
    · simp only
      split
      · exact ih hrun
      · split
        · exact ih hrun
        · split
          · simp
          · exact ih (by simp)

/-- Nothing is dialed if everything in the plan has failed. -/
theorem attempts_dialEach_eq_nil_iff (hplan : ∀ entry ∈ plan, isDialable entry.1 = true)
    (hrun : run.attempts = []) :
    (dialEach peer clock connect plan run).attempts = [] ↔
      ∀ entry ∈ plan, HasFailed peer (clock 0) run.cache entry := by
  induction plan generalizing run with
  | nil => simp [dialEach, hrun]
  | cons entry plan ih =>
    obtain ⟨address, type⟩ := entry
    obtain ⟨hdialable, hrest⟩ := forall_mem_cons.mp hplan
    obtain ⟨socket, hsocket, hip⟩ := exists_socket_of_isDialable hdialable
    have hspecified : address.ip.any IpAddr.isUnspecified = false := by
      simpa [isDialable, hsocket, hip] using hdialable
    have hsame := DialFailureCache.SameAnswers.of_query run.cache peer socket type (clock 0)
    rw [forall_mem_cons, dialEach]
    simp only [hsocket, hrun, length_nil, hspecified]
    cases hanswer : (run.cache.isFailedForDial peer socket type (clock 0)).2 with
    | true => simp [HasFailed, hsocket, hanswer, ih hrest, hsame.answer_eq]
    | false =>
      have hnot : ¬HasFailed peer (clock 0) run.cache (address, type) := by
        simp [HasFailed, hsocket, hanswer]
      rw [if_neg Bool.false_ne_true, if_neg Bool.false_ne_true, iff_false_intro hnot, false_and,
        iff_false]
      split
      · simp
      · exact attempts_dialEach_ne_nil (by simp)

/-- For a candidate that is not connected, exhaustion of its plan and the dials agree exactly
if it has no dialable address at all, or one that is not a relay on a local WAN address. -/
theorem exhausted_agrees_iff {Score : Type} (hnormalize : Unmaps normalize)
    (context : DialPlanContext) (cache : DialFailureCache) (node : DHTNode Score)
    (clock : ℕ → ℕ) (connect : ℕ → Option String) :
    ((lookupCandidateDialPlanIsExhausted normalize context false cache node (clock 0)).2 = false ↔
      (dialAddresses normalize context node.peerId false cache node.typedAddresses clock
        connect).attempts ≠ []) ↔
    (dialable node.typedAddresses = [] ∨ ∃ entry ∈ dialable node.typedAddresses,
      ¬(entry.2 = .relay ∧ context.onLocalWan entry.1 = true)) := by
  have hsubset := selectDialCandidatesWithContext_subset hnormalize context node.typedAddresses
  have hnil := selectDialCandidatesWithContext_eq_nil_iff hnormalize context node.typedAddresses
  have hplan : ∀ entry ∈ selectDialCandidatesWithContext normalize context node.typedAddresses,
      isDialable entry.1 = true := by
    intro entry hentry
    obtain ⟨pair, hpair, rfl⟩ := mem_map.mp (hsubset hentry)
    exact (mem_filter.mp hpair).2
  have hany : (!node.typedAddresses.any fun pair => isDialable pair.1) = true ↔
      dialable node.typedAddresses = [] := by
    simp [dialable]
  rw [lookupCandidateDialPlanIsExhausted, dialAddresses, dialPlanFullyFailedInCacheForLocal,
    if_neg Bool.false_ne_true, Bool.not_false, ne_eq, attempts_dialEach_eq_nil_iff hplan rfl]
  simp only [Bool.and_true]
  by_cases hnone : dialable node.typedAddresses = []
  · have hempty := hnil.mpr (by simp [hnone])
    rw [if_pos (hany.mpr hnone), hempty]
    simp [hnone]
  rw [if_neg fun hall => hnone (hany.mp hall), or_iff_right hnone]
  cases hchosen : selectDialCandidatesWithContext normalize context node.typedAddresses with
  | nil =>
    have hrelays := hnil.mp hchosen
    refine iff_of_false (by simp) ?_
    rintro ⟨entry, hentry, hother⟩
    exact hother (hrelays entry hentry)
  | cons entry plan =>
    rw [isEmpty_cons, if_neg Bool.false_ne_true, ← Bool.not_eq_true, allFailedForDial_iff]
    refine iff_of_true Iff.rfl ?_
    by_contra! hrelays
    exact cons_ne_nil entry plan (hchosen.symm.trans (hnil.mpr hrelays))

end Dials

/-- A peer with one address. -/
def candidateAt (address : MultiAddr) (type : AddressType) : DHTNode ℕ :=
  { peerId := 1
    addresses := [address]
    addressTypes := [type]
    distance := none
    reliability := 0
    addressAuthority := none }

/-- A relay elsewhere is dialed. -/
theorem exhausted_agrees_relay_elsewhere :
    (lookupCandidateDialPlanIsExhausted SocketAddr.unmap homeContext false .new
      (candidateAt (.quic (.v4 0x06060606 1)) .relay) 0).2 = false ↔
    (dialAddresses SocketAddr.unmap homeContext 1 false .new
      [(.quic (.v4 0x06060606 1), .relay)] (fun _ => 0) fun _ => none).attempts ≠ [] :=
  (exhausted_agrees_iff SocketAddr.unmaps_unmap homeContext .new
    (candidateAt (.quic (.v4 0x06060606 1)) .relay) (fun _ => 0) fun _ => none).mpr
    (.inr (by decide))

/-- The only address is a relay on the WAN address of this node: the candidate is kept, and
nothing is dialed. -/
theorem exhausted_disagrees_local_relay :
    ¬∀ (context : DialPlanContext) (cache : DialFailureCache) (node : DHTNode ℕ)
      (clock : ℕ → ℕ) (connect : ℕ → Option String),
      (lookupCandidateDialPlanIsExhausted SocketAddr.unmap context false cache node
        (clock 0)).2 = false ↔
      (dialAddresses SocketAddr.unmap context node.peerId false cache node.typedAddresses clock
        connect).attempts ≠ [] := by
  intro hclaim
  have hagree := hclaim homeContext .new (candidateAt (.quic (.v4 0x05050505 1)) .relay)
    (fun _ => 0) fun _ => none
  exact absurd hagree (by decide +kernel)

/-! ## Failures that a publication clears -/

section Publications

variable (publisher : PeerId) (clock : ℕ → ℕ) (previous : List (MultiAddr × AddressType))

/-- One pass of the loop of `clear_dial_failures_for_published`; the `n`-th call of
`note_republished` is at `clock n`. -/
def clearRepublished (state : DialFailureCache × ℕ) (pair : MultiAddr × AddressType) :
    DialFailureCache × ℕ :=
  if previous.any fun old => old.1 == pair.1 then state
  else
    match pair.1.dialableSocketAddr with
    | none => state
    | some socket => (state.1.noteRepublished publisher socket (clock state.2), state.2 + 1)

/-- `clear_dial_failures_for_published` -/
def clearDialFailuresForPublished (cache : DialFailureCache) (applied : Bool)
    (addresses : List (MultiAddr × AddressType)) : DialFailureCache × ℕ :=
  if !applied then (cache, 0)
  else addresses.foldl (clearRepublished publisher clock previous) (cache, 0)

/-- An address at this socket that the previous list does not have literally. -/
def isRepublished (socket : SocketAddr) (pair : MultiAddr × AddressType) : Bool :=
  !(previous.any fun old => old.1 == pair.1)
    && pair.1.dialableSocketAddr.any fun dialed => canonKey dialed == socket

/-- No failure of the socket is cleared and no exemption granted for it. -/
structure Untouched (cache next : DialFailureCache) (socket : SocketAddr) : Prop where
  entries : next.entries socket = cache.entries socket
  exempt : ∀ peer granted, next.exempt (peer, socket) = some granted →
    cache.exempt (peer, socket) = some granted

variable {publisher clock previous} {cache next : DialFailureCache} {socket : SocketAddr}
  {addresses : List (MultiAddr × AddressType)}

theorem Untouched.noteRepublished (huntouched : Untouched cache next socket)
    {dialed : SocketAddr} (hother : socket ≠ canonKey dialed) (now : ℕ) :
    Untouched cache (next.noteRepublished publisher dialed now) socket where
  entries := (update_of_ne hother _ _).trans huntouched.entries
  exempt peer granted hgranted := by
    have hkey : (peer, socket) ≠ (publisher, canonKey dialed) := by simp [hother]
    simp only [DialFailureCache.noteRepublished, update_of_ne hkey] at hgranted
    exact huntouched.exempt peer granted (Option.filter_eq_some_iff.mp hgranted).1

/-- A socket is left alone if it is not republished, and cleared if it is. -/
theorem clearRepublished_cases :
    (addresses.any (isRepublished previous socket) = false ∧ Untouched cache
      (addresses.foldl (clearRepublished publisher clock previous) (cache, 0)).1 socket) ∨
    (addresses.any (isRepublished previous socket) = true ∧
      (addresses.foldl (clearRepublished publisher clock previous) (cache, 0)).1.entries
        socket = none) := by
  induction addresses using reverseRecOn with
  | nil => exact .inl ⟨rfl, rfl, fun _ _ hgranted => hgranted⟩
  | append_singleton addresses pair ih =>
    rw [foldl_concat, any_append, any_cons, any_nil, Bool.or_false]
    generalize addresses.foldl (clearRepublished publisher clock previous) (cache, 0) = state
      at ih ⊢
    rw [clearRepublished]
    by_cases hold : previous.any (fun old => old.1 == pair.1) = true
    · simpa [isRepublished, hold] using ih
    rw [if_neg hold]
    cases hdialed : pair.1.dialableSocketAddr with
    | none => simpa [isRepublished, hdialed] using ih
    | some dialed =>
      by_cases hsocket : canonKey dialed = socket
      · subst hsocket
        exact .inr ⟨by simp [isRepublished, hold, hdialed], update_self ..⟩
      · have hother : isRepublished previous socket pair = false := by
          simp [isRepublished, hdialed, hsocket]
        rw [hother, Bool.or_false]
        refine ih.imp (And.imp_right ?_) (And.imp_right ?_)
        · intro huntouched
          exact huntouched.noteRepublished (Ne.symm hsocket) _
        · intro hcleared
          exact (update_of_ne (Ne.symm hsocket) _ _).trans hcleared

/-- A publication leaves the endpoints of the previous list alone exactly if it is not applied
or has these endpoints in the same form. -/
theorem published_endpoints_untouched_iff (publisher : PeerId) (applied : Bool)
    (previous addresses : List (MultiAddr × AddressType)) :
    (∀ cache clock, ∀ old ∈ previous, ∀ socket ∈ old.1.dialableSocketAddr,
      Untouched cache (clearDialFailuresForPublished publisher clock previous cache applied
        addresses).1 (canonKey socket)) ↔
    (applied = false ∨ ∀ pair ∈ addresses, ∀ dialed ∈ pair.1.dialableSocketAddr,
      ∀ old ∈ previous, ∀ socket ∈ old.1.dialableSocketAddr,
        canonKey dialed = canonKey socket → ∃ same ∈ previous, same.1 = pair.1) := by
  cases applied with
  | false =>
    refine iff_of_true ?_ (.inl rfl)
    intro cache clock old _ socket _
    exact ⟨rfl, fun _ _ hgranted => hgranted⟩
  | true =>
    simp only [Bool.true_eq_false, false_or]
    constructor
    · intro huntouched pair hpair dialed hdialed old hold socket hsocket hkey
      by_contra! hnew
      have hunlisted : previous.any (fun old => old.1 == pair.1) = false :=
        any_eq_false.mpr fun old hold => by simpa using hnew old hold
      have hrepublished : addresses.any (isRepublished previous (canonKey socket)) = true :=
        any_eq_true.mpr ⟨pair, hpair, by
          simp [isRepublished, hunlisted, Option.mem_def.mp hdialed, hkey]⟩
      have hkept := (huntouched { new with entries := fun _ => some 0 }
        (fun _ => 0) old hold socket hsocket).entries
      rcases clearRepublished_cases with ⟨hnone, -⟩ | ⟨-, hcleared⟩
      · rw [hrepublished] at hnone
        cases hnone
      · cases hcleared.symm.trans hkept
    · intro hsame cache clock old hold socket hsocket
      rcases clearRepublished_cases with ⟨-, huntouched⟩ | ⟨hrepublished, -⟩
      · exact huntouched
      · obtain ⟨pair, hpair, hnew⟩ := any_eq_true.mp hrepublished
        simp only [isRepublished, Bool.and_eq_true, Bool.not_eq_true', Option.any_eq_true,
          beq_iff_eq] at hnew
        obtain ⟨hunlisted, dialed, hdialed, hkey⟩ := hnew
        obtain ⟨same, hlisted, heq⟩ := hsame pair hpair dialed hdialed old hold socket hsocket hkey
        exact absurd (beq_iff_eq.mpr heq) (any_eq_false.mp hunlisted same hlisted)

end Publications

/-- The endpoint is published again as an IPv4-mapped address, and its failure is cleared. -/
theorem published_endpoint_cleared_mapped :
    ¬∀ (publisher : PeerId) (applied : Bool) (previous addresses : List (MultiAddr × AddressType))
      (cache : DialFailureCache) (clock : ℕ → ℕ), ∀ old ∈ previous,
      ∀ socket ∈ old.1.dialableSocketAddr,
      Untouched cache (clearDialFailuresForPublished publisher clock previous cache applied
        addresses).1 (canonKey socket) := by
  intro hclaim
  have huntouched := hclaim 1 true [(.quic (.v4 0x05050505 1), .direct)]
    [(.quic (.v6 0xFFFF05050505 1 0 0), .direct)]
    (new.recordFailure (.v4 0x05050505 1) .direct 0) (fun _ => 1) _
    mem_cons_self _ rfl
  exact absurd huntouched.entries (by decide +kernel)

end SaorsaCore.Manager
