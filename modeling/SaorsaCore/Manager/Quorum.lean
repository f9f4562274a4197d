import SaorsaCore.Address.Tags
import SaorsaCore.Manager.Winners

/-!
# Quorums of hints

Responders agree if their reports have one signature: the addresses with the priorities
of their tags, sorted by the printed address.  The sort is stable, so two reports with the
same pairs have one signature exactly if they list the pairs of every printed address in
one order.  A pair of responders that agree in substance is recognised only then.
-/

namespace SaorsaCore.Manager

open List Closest

variable {Score : Type*} {display : MultiAddr → String}

open DHTNode

/-! ## Signatures -/

/-- The two reports list the pairs of every printed address in the same order. -/
def SameOrder (display : MultiAddr → String) (left right : DHTNode Score) : Prop :=
  ∀ text, left.typedAddresses.filter (fun pair => display pair.1 = text) =
    right.typedAddresses.filter fun pair => display pair.1 = text

/-- What the signature keeps of a pair. -/
def prioritised (pair : MultiAddr × AddressType) : MultiAddr × ℕ :=
  (pair.1, pair.2.priority)

theorem prioritised_injective : Function.Injective prioritised := by
  intro left right heq
  obtain ⟨haddress, hpriority⟩ := Prod.mk.inj heq
  exact Prod.ext haddress (priority_injective hpriority)

theorem reportSignature_eq_iff (left right : DHTNode Score) :
    reportSignature display left = reportSignature display right ↔
      SameOrder display left right := by
  have hsort := Grouping.insertionSort_eq_iff (fun pair : MultiAddr × ℕ => display pair.1)
    (left.typedAddresses.map prioritised) (right.typedAddresses.map prioritised)
  refine hsort.trans (forall_congr' fun text => ?_)
  rw [filter_map, filter_map]
  exact (map_injective_iff.mpr prioritised_injective).eq_iff

/-- Reports with one signature have the same pairs. -/
theorem perm_of_reportSignature_eq {left right : DHTNode Score}
    (hsignature : reportSignature display left = reportSignature display right) :
    left.typedAddresses.Perm right.typedAddresses := by
  have hsorted (node : DHTNode Score) :
      (reportSignature display node).Perm (node.typedAddresses.map prioritised) :=
    perm_insertionSort _ _
  have hpairs : (left.typedAddresses.map prioritised).Perm
      (right.typedAddresses.map prioritised) := by
    refine (hsorted left).symm.trans ?_
    rw [hsignature]
    exact hsorted right
  exact (map_perm_map_iff prioritised_injective).mp hpairs

/-! ## Two of three -/

section Winner

variable [LT Score] [DecidableLT Score] {subject : PeerId} {reports : SubjectReports Score}

omit [LT Score] [DecidableLT Score] in
theorem take_reportsByDistance (hnodup : (reports.map Prod.fst).Nodup) (count : ℕ) :
    (reportsByDistance subject reports).take count =
      closest (reportDistance subject) count reports := by
  have hsort : reportsByDistance subject reports = reports.insertionSort fun left right =>
        reportDistance subject left ≤ reportDistance subject right := by
    apply eq_of_mem_iff (pairwise_reportsByDistance subject hnodup)
      (pairwise_lt_insertionSort (nodup_map_reportDistance hnodup))
    intro report
    rw [(perm_reportsByDistance subject reports).mem_iff, mem_insertionSort]
  rw [hsort, closest]

variable {signature : List (MultiAddr × ℕ)}

omit [LT Score] [DecidableLT Score] in
/-- A quorum among three misses at most one of them. -/
theorem quorum_meets {closest : SubjectReports Score} (hlength : closest.length ≤ quorumTopN)
    (hquorum : quorumThreshold ≤ (agreeing display closest signature).length)
    {left right : PeerId × DHTNode Score} (hleft : left ∈ closest) (hright : right ∈ closest)
    (hne : left ≠ right) : reportSignature display left.2 = signature ∨
      reportSignature display right.2 = signature := by
  by_contra hboth
  obtain ⟨hfirst, hsecond⟩ := not_or.mp hboth
  have hpair : [left, right].Subperm (closest.filter fun report =>
      !decide (reportSignature display report.2 = signature)) := by
    apply subperm_of_subset (by simpa using hne)
    intro report hreport
    rw [mem_filter]
    rcases mem_pair.mp hreport with rfl | rfl
    · simpa [hfirst] using hleft
    · simpa [hsecond] using hright
  have htwo : 2 ≤ (closest.filter fun report =>
      !decide (reportSignature display report.2 = signature)).length := hpair.length_le
  have hsplit := length_eq_length_filter_add (l := closest) fun report =>
    decide (reportSignature display report.2 = signature)
  rw [quorumTopN] at hlength
  rw [quorumThreshold, agreeing] at hquorum
  omega

/-- Among hints of other peers: the closest member of a quorum, or the closest report. -/
theorem computeWinner_of_hints (hhints : ∀ report ∈ reports, ¬report.2.OwnerProven)
    (hothers : ∀ report ∈ reports, report.1 ≠ subject) :
    computeWinner display subject reports =
      ((quorumGroup display ((reportsByDistance subject reports).take quorumTopN)).argmin
        fun report => xorDistance report.1 subject).or
          (reportsByDistance subject reports).head? := by
  have hown : reports.find? (fun report => report.1 = subject) = none := by
    rw [find?_eq_none]
    intro report hreport heq
    exact hothers report hreport (of_decide_eq_true heq)
  simp only [computeWinner, filter_proven_eq_nil hhints, maxBy, hown]
  cases (quorumGroup display ((reportsByDistance subject reports).take quorumTopN)).argmin
      fun report => xorDistance report.1 subject with
  | none => rfl
  | some member => rfl

theorem computeWinner_of_quorum (hnodup : (reports.map Prod.fst).Nodup)
    (hhints : ∀ report ∈ reports, ¬report.2.OwnerProven)
    (hothers : ∀ report ∈ reports, report.1 ≠ subject)
    (hquorum : quorumThreshold ≤ (agreeing display
      ((reportsByDistance subject reports).take quorumTopN) signature).length) :
    ∃ member, computeWinner display subject reports = some member ∧
      reportSignature display member.2 = signature := by
  have hsorted : ((reportsByDistance subject reports).take quorumTopN).Pairwise
      fun first second => reportDistance subject first < reportDistance subject second :=
    (pairwise_reportsByDistance subject hnodup).sublist (take_sublist _ _)
  obtain ⟨member, -, hmember, -⟩ := exists_representative hsorted hquorum
  refine ⟨member, ?_, of_decide_eq_true (mem_filter.mp (argmin_mem hmember)).2⟩
  rw [computeWinner_of_hints hhints hothers,
    quorumGroup_eq (length_take_le _ _) hquorum, hmember, Option.some_or]

theorem computeWinner_of_no_quorum (hhints : ∀ report ∈ reports, ¬report.2.OwnerProven)
    (hothers : ∀ report ∈ reports, report.1 ≠ subject)
    (hnone : ∀ signature, ¬quorumThreshold ≤ (agreeing display
      ((reportsByDistance subject reports).take quorumTopN) signature).length) :
    computeWinner display subject reports = (reportsByDistance subject reports).head? := by
  rw [computeWinner_of_hints hhints hothers, quorumGroup_eq_nil hnone]
  rfl

omit [LT Score] [DecidableLT Score] in
/-- The report of the closest responder stands first. -/
theorem exists_nearest (subject : PeerId) (hnodup : (reports.map Prod.fst).Nodup)
    {report : PeerId × DHTNode Score} (hreport : report ∈ reports) :
    ∃ nearest rest, reportsByDistance subject reports = nearest :: rest ∧ nearest ∈ reports ∧
      ∀ other ∈ reports, xorDistance nearest.1 subject ≤ xorDistance other.1 subject := by
  have hperm := perm_reportsByDistance subject reports
  have hsorted := pairwise_reportsByDistance subject hnodup
  cases hfirst : reportsByDistance subject reports with
  | nil =>
    rw [hfirst] at hperm
    rw [hperm.symm.eq_nil] at hreport
    exact absurd hreport not_mem_nil
  | cons nearest rest =>
    rw [hfirst] at hperm hsorted
    refine ⟨nearest, rest, rfl, hperm.mem_iff.mp mem_cons_self, fun other hother => ?_⟩
    rcases mem_cons.mp (hperm.mem_iff.mpr hother) with rfl | hlater
    · rfl
    · exact ((pairwise_cons.mp hsorted).1 other hlater).le

omit [LT Score] [DecidableLT Score] in
theorem nearest_unique (hnodup : (reports.map Prod.fst).Nodup)
    {nearest other : PeerId × DHTNode Score} (hnearest : nearest ∈ reports)
    (hother : other ∈ reports)
    (hfirst : xorDistance nearest.1 subject ≤ xorDistance other.1 subject)
    (hsecond : xorDistance other.1 subject ≤ xorDistance nearest.1 subject) :
    nearest = other :=
  List.inj_on_of_nodup_map (nodup_map_reportDistance hnodup) hnearest hother
    (Nat.le_antisymm hfirst hsecond)

section Agreement

variable {left right : PeerId × DHTNode Score}

omit [LT Score] [DecidableLT Score] in
/-- A quorum among the closest responders, two of which have the same pairs, has these
pairs. -/
theorem perm_of_quorum {closest : SubjectReports Score} {signature : List (MultiAddr × ℕ)}
    (hlength : closest.length ≤ quorumTopN)
    (hquorum : quorumThreshold ≤ (agreeing display closest signature).length)
    (hleft : left ∈ closest) (hright : right ∈ closest) (hne : left ≠ right)
    (hagree : left.2.typedAddresses.Perm right.2.typedAddresses)
    {member : PeerId × DHTNode Score} (hmember : reportSignature display member.2 = signature) :
    member.2.typedAddresses.Perm left.2.typedAddresses := by
  rcases quorum_meets hlength hquorum hleft hright hne with hsame | hsame
  · exact perm_of_reportSignature_eq (hmember.trans hsame.symm)
  · exact (perm_of_reportSignature_eq (hmember.trans hsame.symm)).trans hagree.symm

omit [LT Score] [DecidableLT Score] in
theorem quorum_of_signature_eq {closest : SubjectReports Score} (hleft : left ∈ closest)
    (hright : right ∈ closest) (hne : left ≠ right)
    (hsame : reportSignature display left.2 = reportSignature display right.2) :
    quorumThreshold ≤ (agreeing display closest (reportSignature display left.2)).length := by
  have hpair : [left, right].Subperm
      (agreeing display closest (reportSignature display left.2)) := by
    apply subperm_of_subset (by simpa using hne)
    intro report hreport
    rw [agreeing, mem_filter]
    rcases mem_pair.mp hreport with rfl | rfl
    · simpa using hleft
    · simpa [hsame] using hright
  exact hpair.length_le

/-- Two of the three closest responders have the same pairs.  The winner has them exactly
if the two list the pairs of every printed address in one order, or the closest responder
of all has them. -/
theorem winner_perm_iff (display : MultiAddr → String) (subject : PeerId)
    (reports : SubjectReports Score) (left right : PeerId × DHTNode Score)
    (hnodup : (reports.map Prod.fst).Nodup)
    (hhints : ∀ report ∈ reports, ¬report.2.OwnerProven)
    (hothers : ∀ report ∈ reports, report.1 ≠ subject)
    (hleft : left ∈ Closest.closest (reportDistance subject) quorumTopN reports)
    (hright : right ∈ Closest.closest (reportDistance subject) quorumTopN reports)
    (hne : left ≠ right) (hagree : left.2.typedAddresses.Perm right.2.typedAddresses) :
    (∃ winner, computeWinner display subject reports = some winner ∧
        winner.2.typedAddresses.Perm left.2.typedAddresses) ↔
      SameOrder display left.2 right.2 ∨
        ∃ nearest ∈ reports,
          (∀ report ∈ reports, xorDistance nearest.1 subject ≤ xorDistance report.1 subject) ∧
            nearest.2.typedAddresses.Perm left.2.typedAddresses := by
  obtain ⟨nearest, rest, hfirst, hnearest, hclosest⟩ :=
    exists_nearest subject hnodup (closest_subset _ _ hleft)
  rw [← take_reportsByDistance hnodup] at hleft hright
  set topN := (reportsByDistance subject reports).take quorumTopN with htopN
  have hlength : topN.length ≤ quorumTopN := length_take_le _ _
  have hfirstMem : nearest ∈ topN := by
    rw [htopN, hfirst]
    exact mem_cons_self
  have hnearestIff : (∃ nearest ∈ reports,
      (∀ report ∈ reports, xorDistance nearest.1 subject ≤ xorDistance report.1 subject) ∧
        nearest.2.typedAddresses.Perm left.2.typedAddresses) ↔
      nearest.2.typedAddresses.Perm left.2.typedAddresses := by
    constructor
    · rintro ⟨other, hother, hless, hperm⟩
      rwa [nearest_unique hnodup hnearest hother (hclosest other hother) (hless nearest hnearest)]
    · intro hperm
      exact ⟨nearest, hnearest, hclosest, hperm⟩
  rw [hnearestIff, ← reportSignature_eq_iff]
  by_cases hquorum : ∃ signature, quorumThreshold ≤ (agreeing display topN signature).length
  · obtain ⟨signature, hquorum⟩ := hquorum
    obtain ⟨member, hwinner, hsignature⟩ :=
      computeWinner_of_quorum hnodup hhints hothers hquorum
    have hmemberPerm := perm_of_quorum hlength hquorum hleft hright hne hagree hsignature
    refine iff_of_true ⟨member, hwinner, hmemberPerm⟩ ?_
    rw [or_iff_not_imp_right]
    intro hnot
    -- the closest responder is outside of the quorum, so the other two are in it
    have houtside : reportSignature display nearest.2 ≠ signature := fun heq =>
      hnot (perm_of_quorum hlength hquorum hleft hright hne hagree heq)
    have hinside {report : PeerId × DHTNode Score} (hreport : report ∈ topN)
        (hperm : report.2.typedAddresses.Perm left.2.typedAddresses) :
        reportSignature display report.2 = signature := by
      have hother : report ≠ nearest := by
        rintro rfl
        exact hnot hperm
      exact (quorum_meets hlength hquorum hreport hfirstMem hother).resolve_right houtside
    rw [hinside hleft (List.Perm.refl _), hinside hright hagree.symm]
  · rw [not_exists] at hquorum
    have hwinner : computeWinner display subject reports = some nearest := by
      rw [computeWinner_of_no_quorum hhints hothers hquorum, hfirst, head?_cons]
    constructor
    · rintro ⟨winner, hwins, hperm⟩
      rw [hwinner] at hwins
      cases hwins
      exact .inr hperm
    · rintro (hsame | hperm)
      · exact absurd (quorum_of_signature_eq hleft hright hne hsame) (hquorum _)
      · exact ⟨nearest, hwinner, hperm⟩

end Agreement

end Winner

/-! ## One address with two tags -/

/-- A hint about peer 1 that lists one address with two tags. -/
def twiceTagged (types : List AddressType) : DHTNode ℕ :=
  { viewAt 1 none with
    addresses := (viewAt 1 none).addresses ++ (viewAt 1 none).addresses
    addressTypes := types }

/-- The closest responder stands against two that have the same pairs. -/
def outvotedReports : SubjectReports ℕ :=
  [(0, viewAt 7 none), (2, twiceTagged [.relay, .direct]), (3, twiceTagged [.direct, .relay])]

theorem reportSignature_twiceTagged (display : MultiAddr → String) :
    reportSignature display (twiceTagged [.direct, .relay]) ≠
      reportSignature display (twiceTagged [.relay, .direct]) := by
  rw [ne_eq, reportSignature_eq_iff]
  intro hsame
  have hall (types : List AddressType) : (twiceTagged types).typedAddresses.filter (fun pair =>
        display pair.1 = display ⟨.quic (.v4 0x05050505 1), none⟩) =
          (twiceTagged types).typedAddresses := by
    apply filter_eq_self.mpr
    simp [twiceTagged, typedAddresses, viewAt]
  have hlists := hsame (display ⟨.quic (.v4 0x05050505 1), none⟩)
  rw [hall, hall] at hlists
  revert hlists
  decide

theorem reportSignature_viewAt (display : MultiAddr → String) (types : List AddressType) :
    reportSignature display (viewAt 7 none) ≠ reportSignature display (twiceTagged types) := by
  intro hsame
  have hlength := (perm_of_reportSignature_eq hsame).length_eq
  simp [twiceTagged, typedAddresses, viewAt] at hlength

theorem computeWinner_outvotedReports (display : MultiAddr → String) :
    computeWinner display 1 outvotedReports = some (0, viewAt 7 none) := by
  have hsorted : reportsByDistance 1 outvotedReports =
      [(0, viewAt 7 none), (3, twiceTagged [.direct, .relay]),
        (2, twiceTagged [.relay, .direct])] := by
    decide +kernel
  have hpairs := reportSignature_twiceTagged display
  have hdirect := reportSignature_viewAt display [.direct, .relay]
  have hrelay := reportSignature_viewAt display [.relay, .direct]
  rw [computeWinner_of_no_quorum (by decide) (by decide) _, hsorted]
  · rfl
  · intro signature
    rw [hsorted]
    simp only [agreeing, quorumTopN, quorumThreshold, take_succ_cons, take_zero,
      filter_cons, filter_nil]
    grind

/-- However addresses are printed, two of three responders that agree on the pairs do not
always prevail. -/
theorem outvoted_by_closest : ¬∃ display : MultiAddr → String,
    ∀ (subject : PeerId) (reports : SubjectReports ℕ), (reports.map Prod.fst).Nodup →
      (∀ report ∈ reports, ¬report.2.OwnerProven) →
      (∀ report ∈ reports, report.1 ≠ subject) →
      ∀ left ∈ Closest.closest (reportDistance subject) quorumTopN reports,
        ∀ right ∈ Closest.closest (reportDistance subject) quorumTopN reports, left ≠ right →
          left.2.typedAddresses.Perm right.2.typedAddresses →
            ∃ winner, computeWinner display subject reports = some winner ∧
              winner.2.typedAddresses.Perm left.2.typedAddresses := by
  rintro ⟨display, hclaim⟩
  obtain ⟨winner, hwinner, hperm⟩ := hclaim 1 outvotedReports (by decide) (by decide) (by decide)
    (2, twiceTagged [.relay, .direct]) (by decide +kernel)
    (3, twiceTagged [.direct, .relay]) (by decide +kernel) (by decide) (by decide)
  rw [computeWinner_outvotedReports] at hwinner
  cases hwinner
  exact absurd hperm (by decide)

/-- Two responders that list their pairs in one order prevail. -/
theorem winner_perm_sameOrder :
    ∃ winner, computeWinner (fun _ => "") 1
        [(0, viewAt 7 none), (2, twiceTagged [.relay, .direct]),
          (3, twiceTagged [.relay, .direct])] = some winner ∧
      winner.2.typedAddresses.Perm (twiceTagged [.relay, .direct]).typedAddresses :=
  (winner_perm_iff (fun _ => "") 1 _ (2, twiceTagged [.relay, .direct])
    (3, twiceTagged [.relay, .direct]) (by decide) (by decide) (by decide)
    (by decide +kernel) (by decide +kernel) (by decide) (List.Perm.refl _)).mpr (.inl fun _ => rfl)

end SaorsaCore.Manager
