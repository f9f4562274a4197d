import Mathlib.Data.Finset.Basic
import SaorsaCore.Address.SignedRecord
import SaorsaCore.Reachability.SelfAddress

/-!
# Publication of the node's own records

The driver remembers only its last publication attempt and sends unchanged records to
new targets alone.  Over a whole sequence of calls this still reaches every target:
a target that is skipped was reached by the chain of attempts that ends in the last
one.
-/

namespace SaorsaCore.Reachability

open List Option

/-! ## Records -/

inductive PublicationError where
  /-- publication address belongs to another peer -/
  | foreignOwner (address : MultiAddr)
  /-- unsupported publication transport -/
  | unsupportedTransport (address : MultiAddr)
  /-- invalid publication destination or payload -/
  | invalidDestination (address : MultiAddr)
  /-- address publication exceeds 16 records -/
  | tooManyRecords
  | postcard
  deriving DecidableEq, Repr

section Records

-- `postcard::to_stdvec` at type `MultiAddr`; `none` is an encoding error.
variable (encode : MultiAddr → Option (List Byte)) (own : PeerId)

/-- One round of the loop of `complete_transport_address_records`. -/
def addRecord (records : List TransportAddressRecord) (address : MultiAddr)
    (reachability : AddressType) :
    Except PublicationError (List TransportAddressRecord) :=
  if address.peerId.any (· != own) then .error (.foreignOwner address)
  else
    let address := if address.isWebRtcDirect then { address with peerId := some own }
      else address
    match TransportAddressRecord.fromMultiaddr encode address reachability with
    | none => .error .postcard
    | some none => .error (.unsupportedTransport address)
    | some (some record) =>
      if !address.isStorable || !record.isWithinWireBounds then
        .error (.invalidDestination address)
      else if records.contains record then .ok records
      else if records.length + 1 > maxTransportAddressRecords then
        .error .tooManyRecords
      else .ok (records ++ [record])

/-- `complete_transport_address_records`: the supplied addresses, and the registered
supplemental ones as unverified. -/
def completeTransportAddressRecords (supplemental : List MultiAddr)
    (supplied : List (MultiAddr × AddressType)) :
    Except PublicationError (List TransportAddressRecord) :=
  (supplied ++ supplemental.map fun address =>
      (address, AddressType.unverified)).foldlM
    (fun records entry => addRecord encode own records entry.1 entry.2) []

end Records

/-! ## Attempts -/

structure PublicationAttempt where
  records : List TransportAddressRecord
  targetPeers : Finset PeerId
  deriving DecidableEq

def publicationTargets (previous : Option PublicationAttempt)
    (records : List TransportAddressRecord) (targetPeers : Finset PeerId)
    (force : Bool) : Finset PeerId :=
  match previous.filter fun previous => !force && previous.records == records with
  | none => targetPeers
  | some previous => targetPeers \ previous.targetPeers

/-- A recorded attempt, and the peers the records were handed out for. -/
structure Delivery where
  attempt : PublicationAttempt
  force : Bool
  destinations : List PeerId
  deriving DecidableEq

/-- The last attempt, and all attempts so far. -/
structure Publisher where
  lastPublicationAttempt : Option PublicationAttempt
  deliveries : List Delivery
  deriving DecidableEq

def Publisher.new : Publisher :=
  { lastPublicationAttempt := none, deliveries := [] }

/-- `publish_typed_set_with_policy` once the records are there.  Rejected and empty
snapshots are not attempts. -/
def Publisher.publish (publisher : Publisher) (own : PeerId)
    (records : Except PublicationError (List TransportAddressRecord))
    (closest : List PeerId) (force : Bool) : Publisher :=
  match records with
  | .error _ => publisher
  | .ok records =>
    if records.isEmpty then publisher
    else
      let targetPeers := (closest.filter (· != own)).toFinset
      let attemptedPeers := publicationTargets publisher.lastPublicationAttempt
        records targetPeers force
      let attempt := { records := records, targetPeers := targetPeers }
      { lastPublicationAttempt := some attempt
        deliveries := publisher.deliveries ++ [
          { attempt := attempt
            force := force
            destinations := closest.filter (· ∈ attemptedPeers) }] }

/-- A call of the driver, with the snapshots it reads. -/
structure PublicationCall where
  records : Except PublicationError (List TransportAddressRecord)
  closest : List PeerId
  force : Bool

def Publisher.run (own : PeerId) (calls : List PublicationCall) : Publisher :=
  calls.foldl (fun publisher call =>
    publisher.publish own call.records call.closest call.force) Publisher.new

variable {peer : PeerId}

theorem mem_publicationTargets_iff {previous : Option PublicationAttempt}
    {records : List TransportAddressRecord} {targetPeers : Finset PeerId} {force : Bool} :
    peer ∈ publicationTargets previous records targetPeers force ↔
      peer ∈ targetPeers ∧ (force = true ∨ ∀ attempt ∈ previous,
        attempt.records = records → peer ∉ attempt.targetPeers) := by
  cases previous with
  | none => simp [publicationTargets]
  | some attempt =>
    by_cases hsame : force = false ∧ attempt.records = records
    · have hfilter : (some attempt).filter (fun previous =>
          !force && previous.records == records) = some attempt := by
        simpa [filter] using hsame
      rw [publicationTargets, hfilter, Finset.mem_sdiff]
      simp [hsame]
    · have hfilter : (some attempt).filter (fun previous =>
          !force && previous.records == records) = none := by
        simpa [filter] using hsame
      rw [publicationTargets, hfilter]
      cases force <;> simp_all

/-! ## Sequences of attempts -/

/-- The attempt before the one at a position. -/
def previousDelivery (deliveries : List Delivery) : ℕ → Option Delivery
  | 0 => none
  | position + 1 => deliveries[position]?

/-- The last attempt is the one that was recorded last, and each attempt went to the
targets that its predecessor did not cover with the same records. -/
structure Publisher.Chained (publisher : Publisher) : Prop where
  last : publisher.lastPublicationAttempt = publisher.deliveries.getLast?.map Delivery.attempt
  destinations : ∀ position delivery, publisher.deliveries[position]? = some delivery →
    ∀ peer, peer ∈ delivery.destinations ↔ peer ∈ publicationTargets
        ((previousDelivery publisher.deliveries position).map Delivery.attempt)
        delivery.attempt.records delivery.attempt.targetPeers delivery.force

theorem previousDelivery_append (deliveries : List Delivery) (delivery : Delivery)
    {position : ℕ} (hposition : position ≤ deliveries.length) :
    previousDelivery (deliveries ++ [delivery]) position =
      previousDelivery deliveries position := by
  cases position with
  | zero => rfl
  | succ position => exact getElem?_append_left hposition

theorem previousDelivery_length (deliveries : List Delivery) :
    previousDelivery deliveries deliveries.length = deliveries.getLast? := by
  cases deliveries with
  | nil => rfl
  | cons delivery deliveries => rw [getLast?_eq_getElem?]; rfl

variable {publisher : Publisher}

theorem Publisher.Chained.publish (hchained : publisher.Chained) (own : PeerId)
    (records : Except PublicationError (List TransportAddressRecord)) (closest : List PeerId)
    (force : Bool) : (publisher.publish own records closest force).Chained := by
  simp only [Publisher.publish]
  split
  · exact hchained
  · next records =>
      split
      · exact hchained
      · refine ⟨by simp, ?_⟩
        intro position delivery hdelivery peer
        rcases Nat.lt_trichotomy position publisher.deliveries.length with
          hearlier | hlast | hlater
        · rw [getElem?_append_left hearlier] at hdelivery
          rw [previousDelivery_append _ _ hearlier.le]
          exact hchained.destinations position delivery hdelivery peer
        · subst hlast
          rw [getElem?_append_right le_rfl, Nat.sub_self] at hdelivery
          cases hdelivery
          rw [previousDelivery_append _ _ le_rfl, previousDelivery_length,
            ← hchained.last, mem_filter, decide_eq_true_eq]
          refine ⟨And.right, fun hattempted => ⟨?_, hattempted⟩⟩
          have htarget := (mem_publicationTargets_iff.mp hattempted).1
          exact mem_of_mem_filter (mem_toFinset.mp htarget)
        · rw [getElem?_append_right hlater.le, getElem?_eq_none (by simp; omega)] at hdelivery
          cases hdelivery

theorem Publisher.run_chained (own : PeerId) (calls : List PublicationCall) :
    (Publisher.run own calls).Chained := by
  refine foldlRecOn calls _ ⟨rfl, by simp [Publisher.new]⟩ ?_
  intro publisher hchained call _
  exact hchained.publish own call.records call.closest call.force

namespace Publisher.Chained

variable {publisher : Publisher} (hchained : publisher.Chained) {position : ℕ}
  {delivery : Delivery} (hdelivery : publisher.deliveries[position]? = some delivery)
  {peer : PeerId}

include hchained hdelivery

/-- A target that is not a destination was a target of the attempt before, which
carried the same records. -/
theorem sent_or_previous (htarget : peer ∈ delivery.attempt.targetPeers) :
    peer ∈ delivery.destinations ∨ ∃ before previous, position = before + 1 ∧
        publisher.deliveries[before]? = some previous ∧
        previous.attempt.records = delivery.attempt.records ∧
        peer ∈ previous.attempt.targetPeers := by
  by_cases hsent : peer ∈ delivery.destinations
  · exact Or.inl hsent
  · rw [hchained.destinations position delivery hdelivery, mem_publicationTargets_iff] at hsent
    push Not at hsent
    obtain ⟨-, attempt, hattempt, hrecords, hpeer⟩ := hsent htarget
    obtain ⟨previous, hprevious, rfl⟩ := map_eq_some_iff.mp hattempt
    cases position with
    | zero => cases hprevious
    | succ before => exact Or.inr ⟨before, previous, rfl, hprevious, hrecords, hpeer⟩

/-- Without force, a destination was not a target of an attempt just before that
carried the same records. -/
theorem not_previous_of_sent (hforce : delivery.force = false)
    (hsent : peer ∈ delivery.destinations) {before : ℕ} {previous : Delivery}
    (hbefore : position = before + 1)
    (hprevious : publisher.deliveries[before]? = some previous)
    (hrecords : previous.attempt.records = delivery.attempt.records) :
    peer ∉ previous.attempt.targetPeers := by
  subst hbefore
  rw [hchained.destinations _ delivery hdelivery, mem_publicationTargets_iff, hforce] at hsent
  rcases hsent.2 with hforced | hnew
  · cases hforced
  · exact hnew previous.attempt (mem_map_of_mem _ hprevious) hrecords

theorem target_of_sent (hsent : peer ∈ delivery.destinations) :
    peer ∈ delivery.attempt.targetPeers := by
  rw [hchained.destinations position delivery hdelivery, mem_publicationTargets_iff] at hsent
  exact hsent.1

end Publisher.Chained

/-- In the attempts from `first` to `last` the peer is a target and the records are
the same. -/
def Unchanged (deliveries : List Delivery) (peer : PeerId)
    (records : List TransportAddressRecord) (first last : ℕ) : Prop :=
  ∀ position delivery, first ≤ position → position ≤ last → deliveries[position]? = some delivery →
      peer ∈ delivery.attempt.targetPeers ∧ delivery.attempt.records = records

theorem Publisher.Chained.covered (hchained : publisher.Chained) {position : ℕ}
    {delivery : Delivery} (hdelivery : publisher.deliveries[position]? = some delivery)
    (htarget : peer ∈ delivery.attempt.targetPeers) :
    ∃ reached ≤ position, (∃ earlier, publisher.deliveries[reached]? = some earlier ∧
        peer ∈ earlier.destinations) ∧
      Unchanged publisher.deliveries peer delivery.attempt.records reached position := by
  -- Induction along the chain: a target is sent to, or the attempt before covers it.
  induction position generalizing delivery with
  | zero =>
    rcases hchained.sent_or_previous hdelivery htarget with hsent | ⟨_, _, hzero, -⟩
    · refine ⟨0, le_rfl, ⟨delivery, hdelivery, hsent⟩, ?_⟩
      intro position other _ hle hother
      rw [Nat.le_zero.mp hle, hdelivery, some.injEq] at hother
      exact hother ▸ ⟨htarget, rfl⟩
    · cases hzero
  | succ position ih =>
    have hhere : ∀ other, publisher.deliveries[position + 1]? = some other →
        peer ∈ other.attempt.targetPeers ∧ other.attempt.records = delivery.attempt.records := by
      intro other hother
      rw [hdelivery, some.injEq] at hother
      exact hother ▸ ⟨htarget, rfl⟩
    rcases hchained.sent_or_previous hdelivery htarget with
      hsent | ⟨before, previous, hbefore, hprevious, hrecords, hpeer⟩
    · refine ⟨position + 1, le_rfl, ⟨delivery, hdelivery, hsent⟩, ?_⟩
      intro between other hge hle hother
      rw [Nat.le_antisymm hle hge] at hother
      exact hhere other hother
    · obtain rfl := Nat.succ.inj hbefore
      obtain ⟨reached, hle, hreached, hunchanged⟩ := ih hprevious hpeer
      refine ⟨reached, hle.trans (Nat.le_succ position), hreached, ?_⟩
      intro between other hge hbetween hother
      rcases Nat.le_succ_iff.mp hbetween with hearlier | hlast
      · exact hrecords ▸ hunchanged between other hge hearlier hother
      · rw [hlast] at hother
        exact hhere other hother

/-- The attempt just before the second one shows what changed. -/
theorem Publisher.Chained.changed_between (hchained : publisher.Chained) {first second : ℕ}
    (hlt : first < second) {earlier later : Delivery}
    (hearlier : publisher.deliveries[first]? = some earlier)
    (hlater : publisher.deliveries[second]? = some later) (hforce : later.force = false)
    (hrecords : earlier.attempt.records = later.attempt.records)
    (hpeer : peer ∈ earlier.destinations) (hagain : peer ∈ later.destinations) :
    ∃ between other, first < between ∧ between < second ∧
      publisher.deliveries[between]? = some other ∧
      (peer ∉ other.attempt.targetPeers ∨ other.attempt.records ≠ later.attempt.records) := by
  obtain ⟨before, rfl⟩ := Nat.exists_eq_add_one_of_ne_zero (Nat.ne_zero_of_lt hlt)
  have hfresh {previous : Delivery} (hprevious : publisher.deliveries[before]? = some previous)
      (hsame : previous.attempt.records = later.attempt.records) :
      peer ∉ previous.attempt.targetPeers :=
    hchained.not_previous_of_sent hlater hforce hagain rfl hprevious hsame
  rcases Nat.lt_succ_iff_lt_or_eq.mp hlt with hbetween | rfl
  · have hlength := (List.getElem?_eq_some_iff.mp hlater).1
    have hprevious := List.getElem?_eq_getElem (Nat.lt_of_succ_lt hlength)
    refine ⟨before, _, hbetween, Nat.lt_succ_self before, hprevious, ?_⟩
    by_cases hsame : (publisher.deliveries[before]).attempt.records = later.attempt.records
    · exact Or.inl (hfresh hprevious hsame)
    · exact Or.inr hsame
  · exact absurd (hchained.target_of_sent hearlier hpeer) (hfresh hearlier hrecords)

/-- After every sequence of calls, each target of a recorded attempt was a destination
with the same records since it last became a target and since the records last
changed; and without force it was a destination again only after it had left or the
records had changed. -/
theorem Publisher.run_targets_reached (own : PeerId) (calls : List PublicationCall) :
    (∀ (position : ℕ) (delivery : Delivery),
      (Publisher.run own calls).deliveries[position]? = some delivery →
        ∀ peer ∈ delivery.attempt.targetPeers, ∃ reached ≤ position,
          (∃ earlier, (Publisher.run own calls).deliveries[reached]? = some earlier ∧
            peer ∈ earlier.destinations) ∧
          Unchanged (Publisher.run own calls).deliveries peer
            delivery.attempt.records reached position) ∧
    (∀ (first second : ℕ) (earlier later : Delivery), first < second →
      (Publisher.run own calls).deliveries[first]? = some earlier →
      (Publisher.run own calls).deliveries[second]? = some later →
      later.force = false → earlier.attempt.records = later.attempt.records →
      ∀ peer ∈ earlier.destinations, peer ∈ later.destinations →
        ∃ (between : ℕ) (other : Delivery), first < between ∧ between < second ∧
          (Publisher.run own calls).deliveries[between]? = some other ∧
          (peer ∉ other.attempt.targetPeers ∨
            other.attempt.records ≠ later.attempt.records)) := by
  have hchained := Publisher.run_chained own calls
  constructor
  · intro position delivery hdelivery peer htarget
    exact hchained.covered hdelivery htarget
  · intro first second earlier later hlt hearlier hlater hforce hrecords peer hpeer hagain
    exact hchained.changed_between hlt hearlier hlater hforce hrecords hpeer hagain

/-- Peer `2` joins while the records stay the same: only peer `2` is sent to, and
peer `1` had been reached by the call before. -/
def joiningCalls : List PublicationCall :=
  let records := [{ transport := 1, reachability := 2, address := [7] }]
  [{ records := .ok records, closest := [1], force := true },
    { records := .ok records, closest := [1, 2], force := false }]

theorem joiningCalls_targets_reached :
    ((Publisher.run 0 joiningCalls).deliveries.map Delivery.destinations = [[1], [2]]) ∧
      ∃ reached ≤ 1, ∃ earlier,
        (Publisher.run 0 joiningCalls).deliveries[reached]? = some earlier ∧
          (1 : PeerId) ∈ earlier.destinations := by
  have hdelivery : (Publisher.run 0 joiningCalls).deliveries[1]? =
      some { attempt :=
              { records := [{ transport := 1, reachability := 2, address := [7] }]
                targetPeers := {1, 2} }
             force := false
             destinations := [2] } := by
    decide +kernel
  obtain ⟨reached, hle, hreached, -⟩ :=
    (Publisher.run_targets_reached 0 joiningCalls).1 1 _ hdelivery 1 (by decide +kernel)
  exact ⟨by decide +kernel, reached, hle, hreached⟩

end SaorsaCore.Reachability
