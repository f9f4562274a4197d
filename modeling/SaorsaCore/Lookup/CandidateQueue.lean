import SaorsaCore.Lookup.Consistency

/-!
# The queue of candidates as the closest of all offers

`add_candidate` sees one candidate at a time and keeps a bounded queue.  Between two
rounds no peer changes its state, so the queue that a sequence of offers leaves is the
one that sorting all of them would give, and whoever is missing was reported.
-/

namespace SaorsaCore.Lookup

open OrderedBy List IterativeLookup CandidateInsertion Closest

variable {N : Type*} [LookupNode N] {lookup : IterativeLookup N}

/-- The peer that a call of `add_candidate` reports as left out of the queue. -/
def CandidateInsertion.leftOut (offered : PeerId) : CandidateInsertion → Option PeerId
  | .inserted evicted => evicted
  | .replaced => none
  | .alreadyContacted => none
  | .tooFar => some offered

namespace IterativeLookup

/-- The lookup after some offers, and the peers reported as evicted or too far. -/
def addCandidates (lookup : IterativeLookup N) : List N → IterativeLookup N × List PeerId
  | [] => (lookup, [])
  | node :: nodes =>
    let added := lookup.addCandidate node
    let rest := added.1.addCandidates nodes
    (rest.1, (added.2.leftOut (lookupPeerId node)).toList ++ rest.2)

/-- The different peers among some offers that have no state. -/
def uncontacted (lookup : IterativeLookup N) (nodes : List N) : List PeerId :=
  ((nodes.map lookupPeerId).filter lookup.isContactable).dedup

end IterativeLookup

theorem pairwise_map_lookupPeerId {target : PeerId}
    (candidates : OrderedBy (distanceTo (N := N) target)) :
    (candidates.values.map lookupPeerId).Pairwise fun left right =>
      xorDistance left target < xorDistance right target :=
  List.pairwise_map.mpr candidates.sorted

theorem contains_iff_mem_queuedPeers {node : N} :
    lookup.candidates.contains node = true ↔ lookupPeerId node ∈ lookup.queuedPeers := by
  rw [OrderedBy.contains, List.any_eq_true, IterativeLookup.queuedPeers, List.mem_map]
  constructor
  · rintro ⟨other, hmem, hsame⟩
    exact ⟨other, hmem, distanceTo_injective (of_decide_eq_true hsame)⟩
  · rintro ⟨other, hmem, hsame⟩
    refine ⟨other, hmem, decide_eq_true ?_⟩
    rw [distanceTo, distanceTo, hsame]

/-! ## One offer -/

/-- The queue holds the closest of the peers offered so far, and those it does not hold
were reported. -/
structure Sifted (lookup : IterativeLookup N) (offered reported : List PeerId) : Prop where
  nearest : Closest.Nearest (fun peer => xorDistance peer lookup.target)
    lookup.config.maxCandidates offered lookup.queuedPeers
  complete : ∀ peer, peer ∈ offered ↔ peer ∈ lookup.queuedPeers ∨ peer ∈ reported

/-- The peers offered after one more offer. -/
def IterativeLookup.offer (lookup : IterativeLookup N) (node : N) (offered : List PeerId) :
    List PeerId :=
  if lookup.isContactable (lookupPeerId node) then lookupPeerId node :: offered else offered

namespace Sifted

variable {offered reported : List PeerId} {node : N}
  {candidates : OrderedBy (distanceTo (N := N) lookup.target)}

theorem withCandidates (hnearest : Closest.Nearest (fun peer => xorDistance peer lookup.target)
      lookup.config.maxCandidates offered (candidates.values.map lookupPeerId))
    (hcomplete : ∀ peer, peer ∈ offered ↔
      peer ∈ candidates.values.map lookupPeerId ∨ peer ∈ reported) :
    Sifted { lookup with candidates := candidates } offered reported :=
  ⟨hnearest, hcomplete⟩

variable (hsifted : Sifted lookup offered reported)
include hsifted

/-- The offered peer is in the queue already. -/
theorem replaced (hqueued : lookupPeerId node ∈ lookup.queuedPeers) :
    Sifted { lookup with candidates := lookup.candidates.insert node }
      (lookupPeerId node :: offered) reported := by
  have hsame : (lookup.candidates.insert node).values.map lookupPeerId = lookup.queuedPeers := by
    apply eq_of_mem_iff (pairwise_map_lookupPeerId _) (pairwise_map_lookupPeerId _)
    intro peer
    rw [mem_peers_insert_iff, or_iff_right_of_imp]
    rintro rfl
    exact hqueued
  apply withCandidates
  · rw [hsame]
    exact hsifted.nearest.again hqueued
  · intro peer
    rw [mem_cons, hsifted.complete, hsame, or_iff_right_of_imp]
    rintro rfl
    exact .inl hqueued

theorem tooFar (hfull : lookup.config.maxCandidates ≤ lookup.candidates.values.length)
    (hbehind : ∀ peer ∈ lookup.queuedPeers,
      xorDistance peer lookup.target < distanceTo lookup.target node) :
    Sifted lookup (lookupPeerId node :: offered) (reported ++ [lookupPeerId node]) := by
  constructor
  · apply hsifted.nearest.pass _ hbehind
    rwa [queuedPeers, length_map]
  · intro peer
    rw [mem_cons, hsifted.complete, mem_append, mem_singleton]
    tauto

theorem inserted (hroom : lookup.candidates.values.length < lookup.config.maxCandidates)
    (hnew : lookup.candidates.contains node = false) :
    Sifted { lookup with candidates := lookup.candidates.insert node }
      (lookupPeerId node :: offered) reported := by
  apply withCandidates
  · apply hsifted.nearest.add _ ((insert_perm hnew).map lookupPeerId) (pairwise_map_lookupPeerId _)
    rwa [queuedPeers, length_map]
  · intro peer
    rw [mem_cons, hsifted.complete, mem_peers_insert_iff, or_assoc]
    rfl

theorem displaced {farthest : N}
    (hfull : lookup.config.maxCandidates ≤ lookup.candidates.values.length)
    (hlast : lookup.candidates.values.getLast? = some farthest)
    (hcloser : distanceTo lookup.target node < distanceTo lookup.target farthest)
    (hnew : lookup.candidates.contains node = false) :
    Sifted { lookup with candidates := lookup.candidates.dropLast.insert node }
      (lookupPeerId node :: offered) (reported ++ [lookupPeerId farthest]) := by
  have hdropped : lookup.candidates.dropLast.contains node = false := by
    rw [OrderedBy.contains, List.any_eq_false] at hnew ⊢
    exact fun other hother => hnew other (OrderedBy.mem_of_mem_dropLast hother)
  have hlastPeer : lookup.queuedPeers.getLast? = some (lookupPeerId farthest) := by
    rw [IterativeLookup.queuedPeers, List.getLast?_map, hlast, Option.map_some]
  have hqueue : lookup.queuedPeers =
      lookup.candidates.dropLast.values.map lookupPeerId ++ [lookupPeerId farthest] := by
    obtain ⟨front, hfront⟩ := List.getLast?_eq_some_iff.mp hlast
    rw [IterativeLookup.queuedPeers, OrderedBy.values_dropLast, hfront,
      List.dropLast_concat, List.map_append, List.map_singleton]
  apply withCandidates
  · refine hsifted.nearest.displace ?_ hlastPeer hcloser ?_ (pairwise_map_lookupPeerId _)
    · rwa [IterativeLookup.queuedPeers, List.length_map]
    · rw [hqueue, List.dropLast_concat]
      exact (OrderedBy.insert_perm hdropped).map lookupPeerId
  · intro peer
    rw [List.mem_cons, hsifted.complete, hqueue, mem_peers_insert_iff, List.mem_append,
      List.mem_append]
    tauto

theorem addCandidate (node : N) : Sifted (lookup.addCandidate node).1 (lookup.offer node offered)
      (reported ++ ((lookup.addCandidate node).2.leftOut (lookupPeerId node)).toList) := by
  rw [IterativeLookup.addCandidate, IterativeLookup.offer]
  cases hcontactable : lookup.isContactable (lookupPeerId node) with
  | false => simpa [leftOut] using hsifted
  | true =>
    rw [if_pos rfl, if_neg (by simp)]
    split
    · next hcontains =>
        simpa [leftOut] using hsifted.replaced (contains_iff_mem_queuedPeers.mp hcontains)
    · next hcontains =>
        have hnew : lookup.candidates.contains node = false := by simpa using hcontains
        have hne : ∀ other ∈ lookup.candidates.values,
            distanceTo lookup.target other ≠ distanceTo lookup.target node := by
          simpa [OrderedBy.contains] using hnew
        split
        · next hfull =>
            cases hlast : lookup.candidates.values.getLast? with
            | none =>
              apply hsifted.tooFar hfull
              simp [IterativeLookup.queuedPeers, List.getLast?_eq_none_iff.mp hlast]
            | some farthest =>
              dsimp only
              split
              · next hfar =>
                  apply hsifted.tooFar hfull
                  rw [IterativeLookup.queuedPeers, List.forall_mem_map]
                  intro other hother
                  have hle := le_getLast_of_pairwise lookup.candidates.sorted hlast hother
                  exact lt_of_le_of_ne (hle.trans hfar) (hne other hother)
              · next hcloser =>
                  exact hsifted.displaced hfull hlast (Nat.lt_of_not_le hcloser) hnew
        · next hroom =>
            simpa [leftOut] using hsifted.inserted (Nat.lt_of_not_le hroom) hnew

end Sifted

/-! ## All offers -/

theorem mem_uncontacted_iff {nodes : List N} {peer : PeerId} : peer ∈ lookup.uncontacted nodes ↔
      peer ∈ nodes.map lookupPeerId ∧ lookup.isContactable peer = true := by
  rw [uncontacted, mem_dedup, mem_filter]

variable {offered : List PeerId}

/-- Only the set of the offered peers counts. -/
theorem Sifted.congr {others reported : List PeerId} (hsifted : Sifted lookup offered reported)
    (hmem : ∀ peer, peer ∈ others ↔ peer ∈ offered) : Sifted lookup others reported where
  nearest := hsifted.nearest.congr hmem
  complete peer := (hmem peer).trans (hsifted.complete peer)

theorem mem_offer_append_iff {node : N} {nodes : List N} {peer : PeerId} :
    peer ∈ offered ++ lookup.uncontacted (node :: nodes) ↔
      peer ∈ lookup.offer node offered ++ (lookup.addCandidate node).1.uncontacted nodes := by
  have hstates : (lookup.addCandidate node).1.isContactable peer = lookup.isContactable peer := by
    rw [isContactable, (addCandidate_frame lookup node).2]
    rfl
  rw [mem_append, mem_append, mem_uncontacted_iff, mem_uncontacted_iff, hstates,
    map_cons, mem_cons, offer]
  split
  · next hcontactable =>
      rw [mem_cons]
      constructor
      · rintro (hoffered | ⟨rfl | hlater, hcontact⟩)
        · exact .inl (.inr hoffered)
        · exact .inl (.inl rfl)
        · exact .inr ⟨hlater, hcontact⟩
      · rintro ((rfl | hoffered) | ⟨hlater, hcontact⟩)
        · exact .inr ⟨.inl rfl, hcontactable⟩
        · exact .inl hoffered
        · exact .inr ⟨.inr hlater, hcontact⟩
  · next hcontacted =>
      apply or_congr_right
      apply and_congr_left
      intro hcontact
      rw [or_iff_right_of_imp]
      rintro rfl
      exact absurd hcontact hcontacted

theorem Sifted.addCandidates {reported : List PeerId}
    (hsifted : Sifted lookup offered reported) (nodes : List N) :
    Sifted (lookup.addCandidates nodes).1 (offered ++ lookup.uncontacted nodes)
      (reported ++ (lookup.addCandidates nodes).2) := by
  induction nodes generalizing lookup offered reported with
  | nil => simpa [addCandidates, uncontacted] using hsifted
  | cons node nodes ih =>
    have hrest := ih (hsifted.addCandidate node)
    rw [append_assoc] at hrest
    exact hrest.congr fun peer => mem_offer_append_iff

theorem addCandidates_frame (lookup : IterativeLookup N) (nodes : List N) :
    (lookup.addCandidates nodes).1.target = lookup.target ∧
      (lookup.addCandidates nodes).1.config = lookup.config := by
  induction nodes generalizing lookup with
  | nil => exact ⟨rfl, rfl⟩
  | cons node nodes ih =>
    obtain ⟨htarget, hconfig⟩ := ih (lookup.addCandidate node).1
    have hframe := (addCandidate_frame lookup node).1
    exact ⟨htarget.trans hframe.target, hconfig.trans hframe.config⟩

/-- An empty queue that receives some offers ends with the closest of the peers without a
state, in any order of the offers; the others are those that were reported. -/
theorem addCandidates_queue (lookup : IterativeLookup N) (nodes : List N)
    (hempty : lookup.candidates.values = []) :
    (lookup.addCandidates nodes).1.queuedPeers =
        Closest.closest (fun peer => xorDistance peer lookup.target)
          lookup.config.maxCandidates (lookup.uncontacted nodes) ∧
      (∀ others : List N, others.Perm nodes →
        (lookup.addCandidates others).1.queuedPeers =
          (lookup.addCandidates nodes).1.queuedPeers) ∧
      ∀ peer, peer ∈ lookup.uncontacted nodes ↔
        peer ∈ (lookup.addCandidates nodes).1.queuedPeers ∨
          peer ∈ (lookup.addCandidates nodes).2 := by
  have hstart : Sifted lookup [] [] := by
    constructor
    · rw [queuedPeers, hempty]
      exact .nil
    · simp [queuedPeers, hempty]
  have hdistinct (offers : List N) : ((lookup.uncontacted offers).map fun peer =>
      xorDistance peer lookup.target).Nodup :=
    (nodup_dedup _).map (xorDistance_left_injective lookup.target)
  have hclosest (offers : List N) : (lookup.addCandidates offers).1.queuedPeers =
      closest (fun peer => xorDistance peer lookup.target)
        lookup.config.maxCandidates (lookup.uncontacted offers) := by
    have hnearest := (hstart.addCandidates offers).nearest
    rw [(addCandidates_frame lookup offers).1, (addCandidates_frame lookup offers).2,
      nil_append] at hnearest
    exact hnearest.eq_closest (hdistinct offers)
  refine ⟨hclosest nodes, ?_, ?_⟩
  · intro others hperm
    rw [hclosest others, hclosest nodes]
    exact closest_perm (hdistinct others)
      ((hperm.map lookupPeerId).filter lookup.isContactable).dedup _
  · simpa using (hstart.addCandidates nodes).complete

/-- A queue of two places that is offered four candidates. -/
theorem addCandidates_queue_two :
    (IterativeLookup.addCandidates
        { exampleLookup with config := ⟨2, 3, 20, 2⟩ } [40, 7, 12, 40]).1.queuedPeers =
        [7, 12] ∧
      Closest.closest (fun peer => xorDistance peer 0) 2
        (exampleLookup.uncontacted [40, 7, 12, 40]) = [7, 12] := by
  have hqueue := (addCandidates_queue
    { exampleLookup with config := ⟨2, 3, 20, 2⟩ } [40, 7, 12, 40] rfl).1
  have hclosest : closest (fun peer => xorDistance peer 0) 2
      (exampleLookup.uncontacted [40, 7, 12, 40]) = [7, 12] := by decide +kernel
  exact ⟨hqueue.trans hclosest, hclosest⟩

end SaorsaCore.Lookup
