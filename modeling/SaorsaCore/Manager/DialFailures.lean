import SaorsaCore.Address.MultiAddr
import SaorsaCore.Core.Expiry
import SaorsaCore.Core.KeyedList

/-!
# Failed dials

A socket that failed is not dialed again for a while.  A relay whose sessions keep failing
is avoided as a whole: once enough distinct sessions at one IP have failed, no relay
session there is dialed, except by a dial to a peer that has just published the socket
anew.  Entries expire, and expired ones are removed when somebody asks for them.  The
answers are nevertheless those of the whole history of failures, successes and
publications.
-/

namespace SaorsaCore.Manager

open Expiry List KeyedList Function Effect

/-- `DIAL_FAILURE_CACHE_TTL`, in nanoseconds. -/
def dialFailureCacheTtl : ℕ := 30 * 60 * 10 ^ 9

/-- `DIAL_FAILURE_PUBLISH_EXEMPTION_TTL`, in nanoseconds. -/
def dialFailurePublishExemptionTtl : ℕ := 2 * 60 * 10 ^ 9

def dialFailureIpSuppressThreshold : ℕ := 4

/-- An IP without an entry in `ip_failures` has no sessions. -/
structure DialFailureCache where
  entries : SocketAddr → Option ℕ
  ipFailures : IpAddr → List (SocketAddr × ℕ)
  exempt : PeerId × SocketAddr → Option ℕ

def canonKey (addr : SocketAddr) : SocketAddr :=
  match addr.ip.canonicalize with
  | .v4 ip => .v4 ip addr.port
  | .v6 ip => .v6 ip addr.port 0 0

namespace DialFailureCache

def new : DialFailureCache :=
  { entries := fun _ => none
    ipFailures := fun _ => []
    exempt := fun _ => none }

def perAddrFailed (cache : DialFailureCache) (addr : SocketAddr) (now : ℕ) :
    DialFailureCache × Bool :=
  let result := ask dialFailureCacheTtl now cache.entries addr
  ({ cache with entries := result.1 }, result.2)

def hasFreshPublishExemption (cache : DialFailureCache) (peer : PeerId)
    (addr : SocketAddr) (now : ℕ) : DialFailureCache × Bool :=
  let result := ask dialFailurePublishExemptionTtl now cache.exempt (peer, addr)
  ({ cache with exempt := result.1 }, result.2)

/-- The sessions that failed within the TTL. -/
def liveSessions (sessions : List (SocketAddr × ℕ)) (now : ℕ) : List (SocketAddr × ℕ) :=
  sessions.filter fun session => now - session.2 < dialFailureCacheTtl

def ipIsSuppressed (cache : DialFailureCache) (ip : IpAddr) (now : ℕ) : DialFailureCache × Bool :=
  let sessions := liveSessions (cache.ipFailures ip) now
  ({ cache with ipFailures := Function.update cache.ipFailures ip sessions },
    dialFailureIpSuppressThreshold ≤ sessions.length)

def isFailedForDial (cache : DialFailureCache) (peer : PeerId) (addr : SocketAddr)
    (type : AddressType) (now : ℕ) : DialFailureCache × Bool :=
  let addr := canonKey addr
  match cache.perAddrFailed addr now with
  | (cache, true) => (cache, true)
  | (cache, false) =>
    if type ≠ .relay then (cache, false)
    else
      match cache.ipIsSuppressed addr.ip now with
      | (cache, false) => (cache, false)
      | (cache, true) =>
        let result := cache.hasFreshPublishExemption peer addr now
        (result.1, !result.2)

def recordFailure (cache : DialFailureCache) (addr : SocketAddr) (type : AddressType)
    (now : ℕ) : DialFailureCache :=
  let addr := canonKey addr
  let failed := { cache with entries := Function.update cache.entries addr (some now) }
  if type = .relay then
    { failed with
      ipFailures := Function.update failed.ipFailures addr.ip
        (KeyedList.remove Prod.fst addr (failed.ipFailures addr.ip) ++ [(addr, now)]) }
  else failed

def clear (cache : DialFailureCache) (addr : SocketAddr) : DialFailureCache :=
  let addr := canonKey addr
  { cache with
    entries := Function.update cache.entries addr none
    ipFailures := Function.update cache.ipFailures addr.ip [] }

def noteRepublished (cache : DialFailureCache) (peer : PeerId) (addr : SocketAddr)
    (now : ℕ) : DialFailureCache :=
  let addr := canonKey addr
  let kept := fun key => prune dialFailurePublishExemptionTtl now (cache.exempt key)
  { cache with
    entries := Function.update cache.entries addr none
    exempt := Function.update kept (peer, addr) (some now) }

end DialFailureCache

/-- A call on the cache. -/
inductive DialEvent where
  | failure (addr : SocketAddr) (type : AddressType)
  | clear (addr : SocketAddr)
  | republished (peer : PeerId) (addr : SocketAddr)
  | query (peer : PeerId) (addr : SocketAddr) (type : AddressType)
  deriving DecidableEq, Repr

namespace DialEvent

def apply (cache : DialFailureCache) (now : ℕ) : DialEvent → DialFailureCache
  | .failure addr type => cache.recordFailure addr type now
  | .clear addr => cache.clear addr
  | .republished peer addr => cache.noteRepublished peer addr now
  | .query peer addr type => (cache.isFailedForDial peer addr type now).1

def isQuery : DialEvent → Bool
  | .query _ _ _ => true
  | _ => false

/-- Failures of a socket, successes and publications anew. -/
def onSocket (socket : SocketAddr) : DialEvent → Effect
  | .failure addr _ => if canonKey addr = socket then .set else .keep
  | .clear addr => if canonKey addr = socket then .unset else .keep
  | .republished _ addr => if canonKey addr = socket then .unset else .keep
  | .query _ _ _ => .keep

/-- Failures of a relay session, and successes at its IP. -/
def onSession (socket : SocketAddr) : DialEvent → Effect
  | .failure addr type =>
    if type = .relay ∧ canonKey addr = socket then .set else .keep
  | .clear addr => if (canonKey addr).ip = socket.ip then .unset else .keep
  | _ => .keep

/-- Publications of a socket by a peer. -/
def onExemption (peer : PeerId) (socket : SocketAddr) : DialEvent → Effect
  | .republished owner addr =>
    if owner = peer ∧ canonKey addr = socket then .set else .keep
  | _ => .keep

end DialEvent

/-- The cache after the calls, each with its time. -/
def DialFailureCache.run (history : List (ℕ × DialEvent)) : DialFailureCache :=
  history.foldl (fun cache entry => entry.2.apply cache entry.1) DialFailureCache.new

/-- When a session of an IP has failed. -/
def sessionStamp (sessions : List (SocketAddr × ℕ)) (socket : SocketAddr) : Option ℕ :=
  (KeyedList.lookup Prod.fst socket sessions).map Prod.snd

/-- Each IP lists its own sessions, each of them once. -/
def Indexed (ipFailures : IpAddr → List (SocketAddr × ℕ)) : Prop :=
  ∀ ip, ((ipFailures ip).map Prod.fst).Nodup ∧ ∀ session ∈ ipFailures ip, session.1.ip = ip

/-- From now on the cache says what the history says. -/
structure DialFailureCache.Mirrors (now : ℕ) (history : List (ℕ × DialEvent))
    (cache : DialFailureCache) : Prop where
  entries : ∀ socket, Agrees dialFailureCacheTtl now (cache.entries socket)
    (stampAfter (DialEvent.onSocket socket) history)
  indexed : Indexed cache.ipFailures
  sessions : ∀ socket, Agrees dialFailureCacheTtl now
    (sessionStamp (cache.ipFailures socket.ip) socket)
    (stampAfter (DialEvent.onSession socket) history)
  exempt : ∀ peer socket, Agrees dialFailurePublishExemptionTtl now
    (cache.exempt (peer, socket)) (stampAfter (DialEvent.onExemption peer socket) history)

/-! ## Sessions of one IP -/

section Sessions

variable {sessions : List (SocketAddr × ℕ)} {socket other : SocketAddr} {now recorded : ℕ}

section

variable (hnodup : (sessions.map Prod.fst).Nodup)
include hnodup

theorem sessionStamp_eq_some_iff :
    sessionStamp sessions socket = some recorded ↔ (socket, recorded) ∈ sessions := by
  rw [sessionStamp, Option.map_eq_some_iff]
  constructor
  · rintro ⟨session, hlookup, rfl⟩
    obtain ⟨hmem, rfl⟩ := (lookup_eq_some_iff hnodup).mp hlookup
    exact hmem
  · intro hmem
    exact ⟨(socket, recorded), (lookup_eq_some_iff hnodup).mpr ⟨hmem, rfl⟩, rfl⟩

theorem nodup_liveSessions : ((DialFailureCache.liveSessions sessions now).map Prod.fst).Nodup :=
  hnodup.sublist (filter_sublist.map Prod.fst)

theorem sessionStamp_liveSessions :
    sessionStamp (DialFailureCache.liveSessions sessions now) socket =
      prune dialFailureCacheTtl now (sessionStamp sessions socket) := by
  apply Option.ext
  intro recorded
  rw [sessionStamp_eq_some_iff (nodup_liveSessions hnodup), prune, Option.filter_eq_some_iff,
    sessionStamp_eq_some_iff hnodup, DialFailureCache.liveSessions, mem_filter]

theorem nodup_insertSession : ((remove Prod.fst socket sessions ++ [(socket, now)]).map
      Prod.fst).Nodup := by
  rw [map_append, map_singleton, nodup_append_comm, singleton_append, nodup_cons]
  refine ⟨?_, hnodup.sublist (filter_sublist.map Prod.fst)⟩
  simp [remove]

theorem sessionStamp_insertSession :
    sessionStamp (remove Prod.fst socket sessions ++ [(socket, now)]) other =
      if socket = other then some now else sessionStamp sessions other := by
  apply Option.ext
  intro recorded
  rw [sessionStamp_eq_some_iff (nodup_insertSession hnodup), mem_append,
    mem_singleton, remove, mem_filter]
  by_cases hsame : socket = other
  · subst hsame
    simp [eq_comm]
  · rw [if_neg hsame, sessionStamp_eq_some_iff hnodup]
    have hother : other ≠ socket := Ne.symm hsame
    simp [hother]

end

variable {ipFailures : IpAddr → List (SocketAddr × ℕ)}

theorem Indexed.update (hindexed : Indexed ipFailures) {ip : IpAddr}
    (hnodup : (sessions.map Prod.fst).Nodup)
    (hplaced : ∀ session ∈ sessions, session.1.ip = ip) :
    Indexed (update ipFailures ip sessions) := by
  intro place
  rw [update_apply]
  split
  · next hplace =>
      subst hplace
      exact ⟨hnodup, hplaced⟩
  · exact hindexed place

theorem Indexed.insertSession (hindexed : Indexed ipFailures) (socket : SocketAddr) (now : ℕ) :
    Indexed (Function.update ipFailures socket.ip
      (remove Prod.fst socket (ipFailures socket.ip) ++ [(socket, now)])) := by
  apply hindexed.update (nodup_insertSession (hindexed socket.ip).1)
  intro session hsession
  rcases mem_append.mp hsession with hold | hnew
  · exact (hindexed socket.ip).2 session (mem_of_mem_filter hold)
  · rw [mem_singleton.mp hnew]

/-- Enough sessions have failed lately if there are enough sockets whose stamp is fresh. -/
theorem threshold_le_length_liveSessions_iff {ip : IpAddr} (hnodup : (sessions.map Prod.fst).Nodup)
    (hplaced : ∀ session ∈ sessions, session.1.ip = ip) (threshold : ℕ) :
    threshold ≤ (DialFailureCache.liveSessions sessions now).length ↔
      ∃ sockets : Finset SocketAddr, threshold ≤ sockets.card ∧ ∀ socket ∈ sockets, socket.ip = ip ∧
          fresh dialFailureCacheTtl now (sessionStamp sessions socket) = true := by
  have hmem (socket : SocketAddr) :
      socket ∈ (DialFailureCache.liveSessions sessions now).map Prod.fst ↔
        socket.ip = ip ∧ fresh dialFailureCacheTtl now (sessionStamp sessions socket) = true := by
    rw [fresh, Option.any_eq_true, mem_map]
    simp only [sessionStamp_eq_some_iff hnodup, DialFailureCache.liveSessions, mem_filter]
    constructor
    · rintro ⟨⟨socket, recorded⟩, ⟨hsession, hyoung⟩, rfl⟩
      exact ⟨hplaced _ hsession, recorded, hsession, hyoung⟩
    · rintro ⟨-, recorded, hsession, hyoung⟩
      exact ⟨(socket, recorded), ⟨hsession, hyoung⟩, rfl⟩
  have hcard : ((DialFailureCache.liveSessions sessions now).map Prod.fst).toFinset.card =
      (DialFailureCache.liveSessions sessions now).length := by
    rw [toFinset_card_of_nodup (nodup_liveSessions hnodup), length_map]
  constructor
  · intro henough
    refine ⟨((DialFailureCache.liveSessions sessions now).map Prod.fst).toFinset, ?_, ?_⟩
    · rwa [hcard]
    · intro socket hsocket
      exact (hmem socket).mp (mem_toFinset.mp hsocket)
  · rintro ⟨sockets, henough, hfailed⟩
    have hsubset : sockets ⊆
        ((DialFailureCache.liveSessions sessions now).map Prod.fst).toFinset := by
      intro socket hsocket
      exact mem_toFinset.mpr ((hmem socket).mpr (hfailed socket hsocket))
    calc threshold ≤ sockets.card := henough
      _ ≤ _ := Finset.card_le_card hsubset
      _ = (DialFailureCache.liveSessions sessions now).length := hcard

end Sessions

namespace DialFailureCache

variable {cache : DialFailureCache} {history : List (ℕ × DialEvent)} {now : ℕ}
  {peer : PeerId} {addr : SocketAddr} {type : AddressType}

/-! ## Questions -/

/-- The answer, in terms of what is stored when the question comes. -/
theorem isFailedForDial_answer : (cache.isFailedForDial peer addr type now).2 = true ↔
      fresh dialFailureCacheTtl now (cache.entries (canonKey addr)) = true ∨ type = .relay ∧
          dialFailureIpSuppressThreshold ≤
            (liveSessions (cache.ipFailures (canonKey addr).ip) now).length ∧
          ¬fresh dialFailurePublishExemptionTtl now
            (cache.exempt (peer, canonKey addr)) = true := by
  simp only [isFailedForDial, perAddrFailed, hasFreshPublishExemption, ask_eq]
  cases hentry : fresh dialFailureCacheTtl now (cache.entries (canonKey addr)) with
  | true => simp
  | false =>
    by_cases htype : type = .relay
    · by_cases henough : dialFailureIpSuppressThreshold ≤
          (liveSessions (cache.ipFailures (canonKey addr).ip) now).length
      · simp [htype, ipIsSuppressed, henough]
      · simp [htype, ipIsSuppressed, henough]
    · simp [htype]

namespace Mirrors

section

variable (hmirrors : cache.Mirrors now history)
include hmirrors

theorem later {next : ℕ} (hle : now ≤ next) : cache.Mirrors next history where
  entries socket := (hmirrors.entries socket).later hle
  indexed := hmirrors.indexed
  sessions socket := (hmirrors.sessions socket).later hle
  exempt peer socket := (hmirrors.exempt peer socket).later hle

theorem perAddrFailed (addr : SocketAddr) : (cache.perAddrFailed addr now).1.Mirrors now history :=
  { hmirrors with entries := Agrees.ask hmirrors.entries addr }

theorem hasFreshPublishExemption (peer : PeerId) (addr : SocketAddr) :
    (cache.hasFreshPublishExemption peer addr now).1.Mirrors now history := by
  have hexempt : ∀ key : PeerId × SocketAddr, Agrees dialFailurePublishExemptionTtl now
      (cache.exempt key) (stampAfter (DialEvent.onExemption key.1 key.2) history) :=
    fun key => hmirrors.exempt key.1 key.2
  exact { hmirrors with
    exempt := fun owner socket => Agrees.ask hexempt (peer, addr) (owner, socket) }

theorem ipIsSuppressed (ip : IpAddr) : (cache.ipIsSuppressed ip now).1.Mirrors now history := by
  obtain ⟨hnodup, hplaced⟩ := hmirrors.indexed ip
  rw [DialFailureCache.ipIsSuppressed]
  refine { hmirrors with indexed := ?_, sessions := ?_ }
  · apply hmirrors.indexed.update (nodup_liveSessions hnodup)
    intro session hsession
    exact hplaced session (mem_of_mem_filter hsession)
  · intro socket
    simp only [update_apply]
    split
    · next hip =>
        subst hip
        rw [sessionStamp_liveSessions hnodup]
        exact (hmirrors.sessions socket).prune
    · exact hmirrors.sessions socket

/-- A question removes only what has expired. -/
theorem isFailedForDial (peer : PeerId) (addr : SocketAddr) (type : AddressType) :
    (cache.isFailedForDial peer addr type now).1.Mirrors now history := by
  have hfirst := hmirrors.perAddrFailed (canonKey addr)
  rw [DialFailureCache.isFailedForDial]
  cases hanswer : cache.perAddrFailed (canonKey addr) now with
  | mk asked failed =>
    rw [hanswer] at hfirst
    cases failed with
    | true => exact hfirst
    | false =>
      by_cases htype : type = .relay
      · have hsecond := hfirst.ipIsSuppressed (canonKey addr).ip
        cases hsuppressed : asked.ipIsSuppressed (canonKey addr).ip now with
        | mk pruned suppressed =>
          rw [hsuppressed] at hsecond
          cases suppressed with
          | true =>
            simpa [htype, hsuppressed] using hsecond.hasFreshPublishExemption peer (canonKey addr)
          | false => simpa [htype, hsuppressed] using hsecond
      · simpa [htype] using hfirst

end

/-! ## Failures, successes and publications -/

variable (hmirrors : cache.Mirrors now history)
include hmirrors

/-- The cache after an event mirrors the longer history if each stamp is what the event
makes of it. -/
theorem concat (event : DialEvent)
    {next : DialFailureCache}
    (hentries : ∀ socket, next.entries socket =
      (event.onSocket socket).apply now (cache.entries socket))
    (hindexed : Indexed next.ipFailures)
    (hsessions : ∀ socket, sessionStamp (next.ipFailures socket.ip) socket =
      (event.onSession socket).apply now (sessionStamp (cache.ipFailures socket.ip) socket))
    (hexempt : ∀ peer socket, next.exempt (peer, socket) =
      (event.onExemption peer socket).apply now (cache.exempt (peer, socket))) :
    next.Mirrors now (history ++ [(now, event)]) where
  entries socket := by
    rw [hentries socket]
    exact (hmirrors.entries socket).concat event
  indexed := hindexed
  sessions socket := by
    rw [hsessions socket]
    exact (hmirrors.sessions socket).concat event
  exempt peer socket := by
    rw [hexempt peer socket]
    exact (hmirrors.exempt peer socket).concat event

theorem recordFailure (addr : SocketAddr) (type : AddressType) :
    (cache.recordFailure addr type now).Mirrors now (history ++ [(now, .failure addr type)]) := by
  by_cases htype : type = .relay
  · subst htype
    apply hmirrors.concat
    · intro socket
      exact update_apply_eq cache.entries (canonKey addr) socket now .set
    · exact hmirrors.indexed.insertSession (canonKey addr) now
    · intro socket
      simp only [DialFailureCache.recordFailure, if_true, update_apply,
        DialEvent.onSession, true_and]
      by_cases hip : socket.ip = (canonKey addr).ip
      · rw [if_pos hip, sessionStamp_insertSession (hmirrors.indexed _).1, hip]
        by_cases hsocket : canonKey addr = socket
        · rw [if_pos hsocket, if_pos hsocket, apply]
        · rw [if_neg hsocket, if_neg hsocket, apply]
      · have hsocket : canonKey addr ≠ socket := by
          rintro rfl
          exact hip rfl
        rw [if_neg hip, if_neg hsocket, apply]
    · intro peer socket
      rfl
  · rw [DialFailureCache.recordFailure, if_neg htype]
    apply hmirrors.concat
    · intro socket
      exact update_apply_eq cache.entries (canonKey addr) socket now .set
    · exact hmirrors.indexed
    · intro socket
      simp [DialEvent.onSession, htype, apply]
    · intro peer socket
      rfl

theorem clear (addr : SocketAddr) :
    (cache.clear addr).Mirrors now (history ++ [(now, .clear addr)]) := by
  apply hmirrors.concat
  · intro socket
    exact update_apply_eq cache.entries (canonKey addr) socket now .unset
  · exact hmirrors.indexed.update nodup_nil (by simp)
  · intro socket
    by_cases hip : socket.ip = (canonKey addr).ip
    · simp [DialFailureCache.clear, DialEvent.onSession, apply, sessionStamp, hip, KeyedList.lookup]
    · simp [DialFailureCache.clear, DialEvent.onSession, apply, update_of_ne hip, Ne.symm hip]
  · intro peer socket
    rfl

theorem noteRepublished (peer : PeerId) (addr : SocketAddr) :
    (cache.noteRepublished peer addr now).Mirrors now
      (history ++ [(now, .republished peer addr)]) := by
  -- What has expired is dropped first.
  have hkept : Mirrors now history
      { cache with
        exempt := fun key => prune dialFailurePublishExemptionTtl now (cache.exempt key) } :=
    { hmirrors with exempt := fun owner socket => (hmirrors.exempt owner socket).prune }
  apply hkept.concat
  · intro socket
    exact update_apply_eq cache.entries (canonKey addr) socket now .unset
  · exact hmirrors.indexed
  · intro socket
    rfl
  · intro owner socket
    simp only [DialEvent.onExemption, ← Prod.mk.injEq]
    exact update_apply_eq (fun key => prune dialFailurePublishExemptionTtl now (cache.exempt key))
      (peer, canonKey addr) (owner, socket) now .set

theorem step (event : DialEvent) :
    (event.apply cache now).Mirrors now (history ++ [(now, event)]) := by
  cases event with
  | failure addr type => exact hmirrors.recordFailure addr type
  | clear addr => exact hmirrors.clear addr
  | republished peer addr => exact hmirrors.noteRepublished peer addr
  | query peer addr type =>
    have hasked := hmirrors.isFailedForDial peer addr type
    apply hasked.concat
    · intro socket
      rfl
    · exact hasked.indexed
    · intro socket
      rfl
    · intro peer socket
      rfl

end Mirrors

theorem mirrors_new (now : ℕ) : new.Mirrors now [] where
  entries _ := Agrees.refl _ _ none
  indexed _ := ⟨nodup_nil, by simp [new]⟩
  sessions _ := Agrees.refl _ _ none
  exempt _ _ := Agrees.refl _ _ none

theorem run_concat (history : List (ℕ × DialEvent)) (recorded : ℕ) (event : DialEvent) :
    run (history ++ [(recorded, event)]) = event.apply (run history) recorded := by
  simp [run]

/-- As long as time does not run backwards, the cache mirrors the whole history. -/
theorem run_mirrors (hsorted : (history.map Prod.fst ++ [now]).Pairwise (· ≤ ·)) :
    (run history).Mirrors now history := by
  induction history using reverseRecOn generalizing now with
  | nil => exact mirrors_new now
  | append_singleton history last ih =>
    obtain ⟨recorded, event⟩ := last
    rw [map_append, map_singleton, pairwise_append] at hsorted
    obtain ⟨hhistory, -, hnow⟩ := hsorted
    have hle : recorded ≤ now := hnow recorded (by simp) now (by simp)
    rw [run_concat]
    exact ((ih hhistory).step event).later hle

end DialFailureCache

/-! ## What the history says -/

/-- The socket has failed since it last answered or was published anew, and not long ago;
or it is a relay session at an IP where enough sessions have failed lately, without a
success at that IP since, and the peer has not just published it. -/
def FailedLately (history : List (ℕ × DialEvent)) (peer : PeerId) (addr : SocketAddr)
    (type : AddressType) (now : ℕ) : Prop :=
  fresh dialFailureCacheTtl now (stampAfter (DialEvent.onSocket (canonKey addr)) history) ∨
    type = .relay ∧ (∃ sockets : Finset SocketAddr, dialFailureIpSuppressThreshold ≤ sockets.card ∧
        ∀ socket ∈ sockets, socket.ip = (canonKey addr).ip ∧
          fresh dialFailureCacheTtl now (stampAfter (DialEvent.onSession socket) history)) ∧
      ¬∃ published, ∃ attested, (attested, DialEvent.republished peer published) ∈ history ∧
        canonKey published = canonKey addr ∧
        now - attested < dialFailurePublishExemptionTtl

variable {history : List (ℕ × DialEvent)} {now : ℕ}

theorem fresh_exemption_iff (hsorted : (history.map Prod.fst).Pairwise (· ≤ ·))
    (peer : PeerId) (socket : SocketAddr) :
    fresh dialFailurePublishExemptionTtl now
        (stampAfter (DialEvent.onExemption peer socket) history) = true ↔
      ∃ published, ∃ attested, (attested, DialEvent.republished peer published) ∈ history ∧
        canonKey published = socket ∧ now - attested < dialFailurePublishExemptionTtl := by
  rw [fresh_stampAfter_iff hsorted]
  · constructor
    · rintro ⟨⟨attested, event⟩, hentry, hset, hyoung⟩
      cases event with
      | republished owner published =>
        by_cases hpublished : owner = peer ∧ canonKey published = socket
        · obtain ⟨rfl, hsocket⟩ := hpublished
          exact ⟨published, attested, hentry, hsocket, hyoung⟩
        · simp [DialEvent.onExemption, hpublished] at hset
      | _ => simp [DialEvent.onExemption] at hset
    · rintro ⟨published, attested, hentry, hsocket, hyoung⟩
      exact ⟨_, hentry, by simp [DialEvent.onExemption, hsocket], hyoung⟩
  · intro event
    cases event with
    | republished owner published =>
      rw [DialEvent.onExemption]
      split <;> simp
    | _ => simp [DialEvent.onExemption]

theorem isFailedForDial_run_iff (hsorted : (history.map Prod.fst ++ [now]).Pairwise (· ≤ ·))
    (peer : PeerId) (addr : SocketAddr) (type : AddressType) :
    ((DialFailureCache.run history).isFailedForDial peer addr type now).2 = true ↔
      FailedLately history peer addr type now := by
  have hmirrors := DialFailureCache.run_mirrors hsorted
  obtain ⟨hnodup, hplaced⟩ := hmirrors.indexed (canonKey addr).ip
  have hentries := hmirrors.entries (canonKey addr) now le_rfl
  have hexempt := hmirrors.exempt peer (canonKey addr) now le_rfl
  have hsessions (sockets : Finset SocketAddr) :
      (∀ socket ∈ sockets, socket.ip = (canonKey addr).ip ∧
        fresh dialFailureCacheTtl now (sessionStamp
          ((DialFailureCache.run history).ipFailures (canonKey addr).ip) socket) = true) ↔
      ∀ socket ∈ sockets, socket.ip = (canonKey addr).ip ∧ fresh dialFailureCacheTtl now
          (stampAfter (DialEvent.onSession socket) history) = true := by
    apply forall₂_congr
    intro socket _
    apply and_congr_right
    intro hip
    rw [← hip, hmirrors.sessions socket now le_rfl]
  rw [DialFailureCache.isFailedForDial_answer, hentries, hexempt,
    threshold_le_length_liveSessions_iff hnodup hplaced,
    fresh_exemption_iff (pairwise_append.mp hsorted).1]
  simp only [hsessions, FailedLately]

/-- The history without the questions. -/
def withoutQueries (history : List (ℕ × DialEvent)) : List (ℕ × DialEvent) :=
  history.filter fun entry => !entry.2.isQuery

theorem stampAfter_withoutQueries {effect : DialEvent → Effect}
    (hquery : ∀ peer addr type, effect (.query peer addr type) = .keep) :
    stampAfter effect (withoutQueries history) = stampAfter effect history := by
  have hkept : ∀ event, effect event ≠ .keep → (!event.isQuery) = true := by
    intro event heffect
    cases event with
    | query peer addr type => exact absurd (hquery peer addr type) heffect
    | _ => rfl
  exact stampAfter_filter hkept

theorem failedLately_withoutQueries {peer : PeerId} {addr : SocketAddr}
    {type : AddressType} :
    FailedLately (withoutQueries history) peer addr type now ↔
      FailedLately history peer addr type now := by
  have hsocket (socket : SocketAddr) :
      stampAfter (DialEvent.onSocket socket) (withoutQueries history) =
        stampAfter (DialEvent.onSocket socket) history :=
    stampAfter_withoutQueries fun _ _ _ => rfl
  have hsession (socket : SocketAddr) :
      stampAfter (DialEvent.onSession socket) (withoutQueries history) =
        stampAfter (DialEvent.onSession socket) history :=
    stampAfter_withoutQueries fun _ _ _ => rfl
  have hpublished (published : SocketAddr) (attested : ℕ) :
      (attested, DialEvent.republished peer published) ∈ withoutQueries history ↔
        (attested, DialEvent.republished peer published) ∈ history := by
    simp [withoutQueries, DialEvent.isQuery]
  simp only [FailedLately, hsocket, hsession, hpublished]

/-- The cache answers from the whole history, and the questions asked before do not
matter. -/
theorem isFailedForDial_run
    (hsorted : (history.map Prod.fst ++ [now]).Pairwise (· ≤ ·))
    (peer : PeerId) (addr : SocketAddr) (type : AddressType) :
    (((DialFailureCache.run history).isFailedForDial peer addr type now).2 = true ↔
      FailedLately history peer addr type now) ∧
    ((DialFailureCache.run (withoutQueries history)).isFailedForDial peer addr type now).2 =
      ((DialFailureCache.run history).isFailedForDial peer addr type now).2 := by
  have hfiltered : ((withoutQueries history).map Prod.fst ++ [now]).Pairwise (· ≤ ·) :=
    hsorted.sublist ((filter_sublist.map Prod.fst).append_right [now])
  constructor
  · exact isFailedForDial_run_iff hsorted peer addr type
  · rw [Bool.eq_iff_iff, isFailedForDial_run_iff hfiltered, isFailedForDial_run_iff hsorted]
    exact failedLately_withoutQueries

/-- A port of one relay. -/
def relaySession (port : BitVec 16) : SocketAddr := .v4 0x05050505 port

/-- Four sessions of a relay fail, and somebody asks about a fifth one. -/
def fourSessionsFailed : List (ℕ × DialEvent) :=
  [(0, .failure (relaySession 1) .relay), (1, .failure (relaySession 2) .relay),
    (1, .failure (relaySession 3) .relay), (2, .failure (relaySession 4) .relay),
    (3, .query 1 (relaySession 5) .relay), (4, .republished 1 (relaySession 5))]

theorem fifthSession_avoided :
    ((DialFailureCache.run fourSessionsFailed).isFailedForDial 2 (relaySession 5)
        .relay 5).2 = true ∧
      ((DialFailureCache.run fourSessionsFailed).isFailedForDial 1 (relaySession 5)
        .relay 5).2 = false := by
  have hsorted : (fourSessionsFailed.map Prod.fst ++ [5]).Pairwise (· ≤ ·) := by decide
  constructor
  · apply (isFailedForDial_run hsorted 2 (relaySession 5) .relay).1.mpr
    refine .inr ⟨rfl, ⟨{relaySession 1, relaySession 2, relaySession 3, relaySession 4},
      by decide +kernel, by decide +kernel⟩, ?_⟩
    rintro ⟨published, attested, hpublished, -⟩
    simp [fourSessionsFailed] at hpublished
  · rw [Bool.eq_false_iff, Ne, (isFailedForDial_run hsorted 1 (relaySession 5) .relay).1]
    rintro (hfailed | ⟨-, -, hunpublished⟩)
    · revert hfailed
      decide +kernel
    · exact hunpublished ⟨relaySession 5, 4, by decide, rfl, by decide⟩

end SaorsaCore.Manager
