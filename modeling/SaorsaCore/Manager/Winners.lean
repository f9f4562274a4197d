import SaorsaCore.Core.Closest
import SaorsaCore.Core.Grouping
import SaorsaCore.Manager.OwnerViews

/-!
# The winning report

`compute_winner` sorts the reports about a peer by the distance of their responders,
looks for the newest established view, for the peer's own report and for a quorum.  The
reports are in a hash map, and so are the groups of responders that agree.  Responders
are different, so their distances are, and nothing depends on the order of either map.
-/

namespace SaorsaCore.Manager

open List KeyedList Grouping Ordering OrderDual

variable {Score : Type*}

open DHTNode

/-! ## The source's groups -/

/-- A group of responders with the signature of their reports. -/
abbrev SignatureGroup := List (MultiAddr × ℕ) × List PeerId

/-- `compute_winner` with the groups in a hash map, in any order of iteration. -/
def computeWinnerIn [LT Score] [DecidableLT Score] (order : HashOrder SignatureGroup)
    (display : MultiAddr → String) (subject : PeerId) (reports : SubjectReports Score) :
    Option (PeerId × DHTNode Score) :=
  let byDist := reportsByDistance subject reports
  match maxBy (compareViews subject) (byDist.filter fun report =>
      report.2.publishSeq ≠ 0) with
  | some best =>
    some (best.1, (byDist.map Prod.snd).foldl DHTNode.mergeFrom best.2)
  | none =>
    match KeyedList.lookup Prod.fst subject reports with
    | some own => some (subject, own.2)
    | none =>
      let topN := byDist.take quorumTopN
      let buckets := order.arrange
        (Grouping.groups (fun report => reportSignature display report.2) Prod.fst topN)
      let group :=
        if quorumThreshold ≤ topN.length then
          buckets.find? fun bucket => quorumThreshold ≤ bucket.2.length
        else none
      match group.bind fun bucket => bucket.2.argmin fun responder =>
          xorDistance responder subject with
      | some responder => KeyedList.lookup Prod.fst responder reports
      | none => byDist.head?

/-! ## The order of the responders -/

/-- The distance of a report's responder to the subject. -/
def reportDistance (subject : PeerId) (report : PeerId × DHTNode Score) : ℕ :=
  xorDistance report.1 subject

variable {subject : PeerId} {reports : SubjectReports Score}

theorem nodup_map_reportDistance (hnodup : (reports.map Prod.fst).Nodup) :
    (reports.map (reportDistance subject)).Nodup := by
  have hmap := hnodup.map (xorDistance_left_injective subject)
  rwa [map_map] at hmap

theorem then_compare_ne_gt_iff {a b c d : ℕ} :
    (compare a b).then (compare c d) ≠ .gt ↔ a < b ∨ (a = b ∧ c ≤ d) := by
  rw [ne_eq, then_eq_gt, compare_gt_iff_gt, compare_eq_iff_eq, compare_gt_iff_gt]
  omega

theorem perm_reportsByDistance (subject : PeerId) (reports : SubjectReports Score) :
    (reportsByDistance subject reports).Perm reports :=
  List.perm_insertionSort _ reports

/-- Distances decide alone: no two responders share one. -/
theorem pairwise_reportsByDistance (subject : PeerId) (hnodup : (reports.map Prod.fst).Nodup) :
    (reportsByDistance subject reports).Pairwise fun left right =>
      reportDistance subject left < reportDistance subject right := by
  have hperm := perm_reportsByDistance subject reports
  have hdistinct := (hperm.map (reportDistance subject)).nodup_iff.mpr
    (nodup_map_reportDistance hnodup)
  rw [List.Nodup, pairwise_map] at hdistinct
  have hsorted : (reportsByDistance subject reports).Pairwise fun left right =>
      (compare (xorDistance left.1 subject) (xorDistance right.1 subject)).then
        (compare (bestTierPriority left.2) (bestTierPriority right.2)) ≠ .gt := by
    have : Std.Total fun left right : PeerId × DHTNode Score =>
        (compare (xorDistance left.1 subject) (xorDistance right.1 subject)).then
          (compare (bestTierPriority left.2) (bestTierPriority right.2)) ≠ .gt := by
      constructor
      intro left right
      rw [then_compare_ne_gt_iff, then_compare_ne_gt_iff]
      omega
    have : IsTrans (PeerId × DHTNode Score) fun left right =>
        (compare (xorDistance left.1 subject) (xorDistance right.1 subject)).then
          (compare (bestTierPriority left.2) (bestTierPriority right.2)) ≠ .gt := by
      constructor
      intro left middle right
      rw [then_compare_ne_gt_iff, then_compare_ne_gt_iff, then_compare_ne_gt_iff]
      omega
    exact pairwise_insertionSort _ reports
  refine (hsorted.and hdistinct).imp fun hboth => ?_
  rcases then_compare_ne_gt_iff.mp hboth.1 with hless | ⟨heq, -⟩
  · exact hless
  · exact absurd heq hboth.2

theorem reportsByDistance_perm {others : SubjectReports Score}
    (hnodup : (reports.map Prod.fst).Nodup) (hperm : others.Perm reports) :
    reportsByDistance subject others = reportsByDistance subject reports := by
  have hothers : (others.map Prod.fst).Nodup := (hperm.map Prod.fst).nodup_iff.mpr hnodup
  apply Closest.eq_of_mem_iff (pairwise_reportsByDistance subject hothers)
    (pairwise_reportsByDistance subject hnodup)
  intro report
  rw [(perm_reportsByDistance subject others).mem_iff,
    (perm_reportsByDistance subject reports).mem_iff, hperm.mem_iff]

/-! ## The newest view -/

/-- Where the comparison ranks a report: by version, then the closer responder, then the
better tag. -/
def viewRank (subject : PeerId) (report : PeerId × DHTNode Score) : (Bool ×ₗ ℕ) ×ₗ ℕᵒᵈ ×ₗ ℕᵒᵈ :=
  toLex (report.2.ownerVersion, toLex (OrderDual.toDual (reportDistance subject report),
    OrderDual.toDual (bestTierPriority report.2)))

theorem compareViews_eq_gt_iff (subject : PeerId) (left right : PeerId × DHTNode Score) :
    compareViews subject left right = .gt ↔ viewRank subject right < viewRank subject left := by
  have hbool : ∀ first second : Bool, compare first second = .gt ↔ second < first := by decide
  have hsame : ∀ first second : Bool, compare first second = .eq ↔ first = second := by decide
  rw [compareViews, then_eq_gt, then_eq_gt, then_eq_gt, hbool, hsame]
  simp only [compare_gt_iff_gt, compare_eq_iff_eq, viewRank, ownerVersion, reportDistance,
    Prod.Lex.toLex_lt_toLex, toDual_lt_toDual, EmbeddingLike.apply_eq_iff_eq,
    Prod.ext_iff]
  grind

theorem newer_or_closer {report best : PeerId × DHTNode Score}
    (hrank : viewRank subject report ≤ viewRank subject best) :
    report.2.ownerVersion ≤ best.2.ownerVersion ∧ (report.2.ownerVersion = best.2.ownerVersion →
        xorDistance best.1 subject ≤ xorDistance report.1 subject) := by
  rw [viewRank, viewRank, Prod.Lex.toLex_le_toLex] at hrank
  rcases hrank with hless | ⟨hsame, hrest⟩
  · exact ⟨hless.le, fun heq => absurd heq hless.ne⟩
  · refine ⟨hsame.le, fun _ => ?_⟩
    rcases Prod.Lex.toLex_le_toLex.mp hrest with hcloser | ⟨hequal, -⟩
    · exact (toDual_lt_toDual.mp hcloser).le
    · exact (toDual_inj.mp hequal).ge

section MaxBy

variable {A K : Type*} [LinearOrder K] {order : A → A → Ordering} {key : A → K}

theorem le_foldl_maxBy (horder : ∀ left right, order left right = .gt ↔ key right < key left)
    (first : A) (rest : List A) :
    ∀ item ∈ first :: rest, key item ≤ key (rest.foldl
      (fun best next => if order best next = .gt then best else next) first) := by
  induction rest generalizing first with
  | nil => simp
  | cons next rest ih =>
    have hbetter := ih (if order first next = .gt then first else next)
    rw [forall_mem_cons] at hbetter
    rw [foldl_cons]
    intro item hitem
    rcases mem_cons.mp hitem with rfl | hitem
    · refine le_trans ?_ hbetter.1
      split
      · rfl
      · next hle => exact not_lt.mp fun hless => hle ((horder _ _).mpr hless)
    · rcases mem_cons.mp hitem with rfl | hlater
      · refine le_trans ?_ hbetter.1
        split
        · next hgreater => exact ((horder _ _).mp hgreater).le
        · rfl
      · exact hbetter.2 item hlater

/-- `max_by` returns an element that no other exceeds. -/
theorem le_of_maxBy (horder : ∀ left right, order left right = .gt ↔ key right < key left)
    {items : List A} {best : A} (hbest : maxBy order items = some best) :
    ∀ item ∈ items, key item ≤ key best := by
  cases items with
  | nil => cases hbest
  | cons first rest =>
    cases hbest
    exact le_foldl_maxBy horder first rest

omit [LinearOrder K] in
theorem maxBy_eq_none_iff {items : List A} : maxBy order items = none ↔ items = [] := by
  cases items with
  | nil => simp [maxBy]
  | cons first rest => simp [maxBy]

end MaxBy

variable [LT Score] [DecidableLT Score]

/-- Reports that are not newer change nothing in an established view. -/
theorem foldl_mergeFrom_newest {newest : DHTNode Score} {views : List (DHTNode Score)}
    (hproven : newest.OwnerProven) (hpeer : ∀ view ∈ views, view.peerId = newest.peerId)
    (hgreatest : ∀ view ∈ views, view.OwnerProven → view.ownerVersion ≤ newest.ownerVersion) :
    views.foldl mergeFrom newest = newest := by
  induction views with
  | nil => rfl
  | cons view views ih =>
    rw [forall_mem_cons] at hpeer hgreatest
    have hkept : newest.mergeFrom view = newest := by
      by_cases hview : view.OwnerProven
      · rw [mergeFrom_of_proven hpeer.1 hproven hview, if_neg (not_lt.mpr (hgreatest.1 hview))]
      · exact mergeFrom_hint hpeer.1 hproven hview
    rw [foldl_cons, hkept]
    exact ih hpeer.2 hgreatest.2

section Rules

variable {display : MultiAddr → String} {subject : PeerId} {reports : SubjectReports Score}

omit [LT Score] [DecidableLT Score] in
theorem filter_proven_eq_nil (hhints : ∀ report ∈ reports, ¬report.2.OwnerProven) :
    (reportsByDistance subject reports).filter (fun report =>
      decide (report.2.publishSeq ≠ 0)) = [] := by
  rw [filter_eq_nil_iff]
  intro report hreport hproven
  exact hhints report ((perm_reportsByDistance subject reports).mem_iff.mp hreport)
    (of_decide_eq_true hproven)

/-- The first rule: the report of the greatest version, from the closest of its
responders, as it is. -/
theorem computeWinner_of_proven (display : MultiAddr → String)
    (hsubject : ∀ report ∈ reports, report.2.peerId = subject)
    (hproven : ∃ report ∈ reports, report.2.OwnerProven) :
    ∃ best ∈ reports, best.2.OwnerProven ∧ computeWinner display subject reports = some best ∧
      ∀ report ∈ reports, report.2.OwnerProven → report.2.ownerVersion ≤ best.2.ownerVersion ∧
          (report.2.ownerVersion = best.2.ownerVersion →
            xorDistance best.1 subject ≤ xorDistance report.1 subject) := by
  have hperm := perm_reportsByDistance subject reports
  have hfilter (report : PeerId × DHTNode Score) :
      report ∈ (reportsByDistance subject reports).filter (fun report =>
        decide (report.2.publishSeq ≠ 0)) ↔ report ∈ reports ∧ report.2.OwnerProven := by
    rw [mem_filter, hperm.mem_iff, decide_eq_true_iff]
    rfl
  cases hmax : maxBy (compareViews subject) ((reportsByDistance subject reports).filter
      fun report => decide (report.2.publishSeq ≠ 0)) with
  | none =>
    obtain ⟨report, hmem, hreport⟩ := hproven
    have hkept := (hfilter report).mpr ⟨hmem, hreport⟩
    rw [maxBy_eq_none_iff.mp hmax] at hkept
    exact absurd hkept not_mem_nil
  | some best =>
    obtain ⟨hmem, hbest⟩ := (hfilter best).mp (maxBy_mem hmax)
    have hrank : ∀ report ∈ reports, report.2.OwnerProven →
        viewRank subject report ≤ viewRank subject best := fun report hreport hestablished =>
      le_of_maxBy (compareViews_eq_gt_iff subject) hmax report
        ((hfilter report).mpr ⟨hreport, hestablished⟩)
    have hgreatest : ∀ report ∈ reports, report.2.OwnerProven →
        report.2.ownerVersion ≤ best.2.ownerVersion ∧ (report.2.ownerVersion = best.2.ownerVersion →
            xorDistance best.1 subject ≤ xorDistance report.1 subject) := by
      intro report hreport hestablished
      exact newer_or_closer (hrank report hreport hestablished)
    have hmerged : ((reportsByDistance subject reports).map Prod.snd).foldl mergeFrom best.2 =
        best.2 := by
      apply foldl_mergeFrom_newest hbest
      · rw [forall_mem_map]
        intro report hreport
        rw [hsubject report (hperm.mem_iff.mp hreport), hsubject best hmem]
      · rw [forall_mem_map]
        intro report hreport hestablished
        exact (hgreatest report (hperm.mem_iff.mp hreport) hestablished).1
    refine ⟨best, hmem, hbest, ?_, hgreatest⟩
    simp only [computeWinner, hmax, hmerged]

/-- The second rule: without an established view, the peer's own report. -/
theorem computeWinner_of_own (hnodup : (reports.map Prod.fst).Nodup)
    (hhints : ∀ report ∈ reports, ¬report.2.OwnerProven) {own : DHTNode Score}
    (hown : (subject, own) ∈ reports) :
    computeWinner display subject reports = some (subject, own) := by
  have hlookup : KeyedList.lookup Prod.fst subject reports = some (subject, own) :=
    (KeyedList.lookup_eq_some_iff hnodup).mpr ⟨hown, rfl⟩
  rw [KeyedList.lookup] at hlookup
  simp only [computeWinner, filter_proven_eq_nil hhints, maxBy, hlookup]

theorem computeWinner_eq_none_iff : computeWinner display subject reports = none ↔
    reports = [] := by
  constructor
  · intro hnone
    simp only [computeWinner] at hnone
    split at hnone
    · cases hnone
    · split at hnone
      · cases hnone
      · split at hnone
        · cases hnone
        · rw [head?_eq_none_iff] at hnone
          have hperm := perm_reportsByDistance subject reports
          rw [hnone] at hperm
          exact hperm.symm.eq_nil
  · rintro rfl
    rfl

/-! ## The order of the maps -/

omit [LT Score] [DecidableLT Score] in
/-- The reports with one signature. -/
def agreeing (display : MultiAddr → String) (closest : SubjectReports Score)
    (signature : List (MultiAddr × ℕ)) : SubjectReports Score :=
  closest.filter fun report => reportSignature display report.2 = signature

section Quorum

omit [LT Score] [DecidableLT Score]

variable {closest : SubjectReports Score} {signature : List (MultiAddr × ℕ)}

theorem exists_mem_of_quorum
    (hquorum : quorumThreshold ≤ (agreeing display closest signature).length) :
    ∃ report ∈ closest, reportSignature display report.2 = signature := by
  have hpos : 0 < (agreeing display closest signature).length :=
    Nat.lt_of_lt_of_le Nat.zero_lt_two hquorum
  obtain ⟨report, hreport⟩ := exists_mem_of_length_pos hpos
  obtain ⟨hmem, hsame⟩ := mem_filter.mp hreport
  exact ⟨report, hmem, of_decide_eq_true hsame⟩

theorem quorumGroup_eq_getD (display : MultiAddr → String) (closest : SubjectReports Score) :
    quorumGroup display closest = ((closest.find? fun report => quorumThreshold ≤
        (agreeing display closest (reportSignature display report.2)).length).map fun report =>
          agreeing display closest (reportSignature display report.2)).getD [] := by
  have hagree (report : PeerId × DHTNode Score) : (closest.filter fun other =>
        reportSignature display other.2 == reportSignature display report.2) =
          agreeing display closest (reportSignature display report.2) := by
    apply filter_congr
    intro other _
    rw [Bool.eq_iff_iff, beq_iff_eq, decide_eq_true_iff]
  simp only [quorumGroup, hagree]
  cases closest.find? fun report => quorumThreshold ≤
    (agreeing display closest (reportSignature display report.2)).length <;> rfl

section

variable (hlength : closest.length ≤ quorumTopN)
  (hquorum : quorumThreshold ≤ (agreeing display closest signature).length)
include hlength hquorum

/-- Two groups of two do not fit among three reports. -/
theorem signature_unique {other : List (MultiAddr × ℕ)}
    (hother : quorumThreshold ≤ (agreeing display closest other).length) :
    other = signature := by
  apply label_unique (fun report : PeerId × DHTNode Score =>
    reportSignature display report.2) closest
  rw [quorumTopN] at hlength
  rw [quorumThreshold, agreeing] at hquorum hother
  omega

theorem quorumGroup_eq :
    quorumGroup display closest = agreeing display closest signature := by
  rw [quorumGroup_eq_getD]
  cases hfind : closest.find? fun report => quorumThreshold ≤
      (agreeing display closest (reportSignature display report.2)).length with
  | some report =>
    have hfound : quorumThreshold ≤ (agreeing display closest
        (reportSignature display report.2)).length := by
      simpa using find?_some hfind
    rw [Option.map_some, Option.getD_some, signature_unique hlength hquorum hfound]
  | none =>
    obtain ⟨report, hmem, rfl⟩ := exists_mem_of_quorum hquorum
    have habsent := find?_eq_none.mp hfind report hmem
    exact absurd (decide_eq_true hquorum) habsent

end

theorem quorumGroup_eq_nil
    (hnone : ∀ signature, ¬quorumThreshold ≤ (agreeing display closest signature).length) :
    quorumGroup display closest = [] := by
  rw [quorumGroup_eq_getD]
  cases hfind : closest.find? fun report => quorumThreshold ≤
      (agreeing display closest (reportSignature display report.2)).length with
  | some report =>
    have hfound : quorumThreshold ≤ (agreeing display closest
        (reportSignature display report.2)).length := by
      simpa using find?_some hfind
    exact absurd hfound (hnone _)
  | none => rfl

/-- The groups as the hash map has them. -/
theorem grouped_closest (display : MultiAddr → String) (closest : SubjectReports Score) :
    Grouping.Grouped (fun report => reportSignature display report.2) Prod.fst closest
      (groups (fun report => reportSignature display report.2) Prod.fst closest) :=
  grouped _ _ _

theorem mem_arrange_iff (order : HashOrder SignatureGroup) {buckets : List SignatureGroup}
    {bucket : SignatureGroup} : bucket ∈ order.arrange buckets ↔ bucket ∈ buckets :=
  (order.perm buckets).mem_iff

/-- Whatever the order of the groups, the one with a quorum is found. -/
theorem find_bucket (order : HashOrder SignatureGroup) (hlength : closest.length ≤ quorumTopN)
    (hquorum : quorumThreshold ≤ (agreeing display closest signature).length) :
    (order.arrange (groups (fun report => reportSignature display report.2) Prod.fst
        closest)).find? (fun bucket => quorumThreshold ≤ bucket.2.length) =
      some (signature, (agreeing display closest signature).map Prod.fst) := by
  have hgrouped := grouped_closest display closest
  cases hfind : (order.arrange (groups (fun report =>
      reportSignature display report.2) Prod.fst closest)).find? fun bucket =>
        quorumThreshold ≤ bucket.2.length with
  | none =>
    obtain ⟨report, hmem, hsame⟩ := exists_mem_of_quorum hquorum
    obtain ⟨bucket, hbucket, hlabel⟩ := mem_map.mp
      ((hgrouped.complete signature).mpr (mem_map.mpr ⟨report, hmem, hsame⟩))
    have hshort := find?_eq_none.mp hfind bucket ((mem_arrange_iff order).mpr hbucket)
    rw [hgrouped.members bucket hbucket, hlabel, length_map] at hshort
    exact absurd (decide_eq_true hquorum) hshort
  | some bucket =>
    have hbucket := (mem_arrange_iff order).mp (mem_of_find?_eq_some hfind)
    have hmembers := hgrouped.members bucket hbucket
    have hlong : quorumThreshold ≤ bucket.2.length := by simpa using find?_some hfind
    rw [hmembers, length_map] at hlong
    have hlabel : bucket.1 = signature := signature_unique hlength hquorum hlong
    rw [hlabel] at hmembers
    exact congrArg some (Prod.ext hlabel hmembers)

theorem find_bucket_eq_none (order : HashOrder SignatureGroup)
    (hnone : ∀ signature, ¬quorumThreshold ≤ (agreeing display closest signature).length) :
    (order.arrange (groups (fun report => reportSignature display report.2) Prod.fst
      closest)).find? (fun bucket => quorumThreshold ≤ bucket.2.length) = none := by
  rw [find?_eq_none]
  intro bucket hbucket hlong
  have hlong := of_decide_eq_true hlong
  rw [(grouped_closest display closest).members bucket ((mem_arrange_iff order).mp hbucket),
    length_map] at hlong
  exact hnone _ hlong

/-- The closest member of a group, by the reports and by their responders. -/
theorem exists_representative (hsorted : closest.Pairwise fun left right =>
      reportDistance subject left < reportDistance subject right)
    (hquorum : quorumThreshold ≤ (agreeing display closest signature).length) :
    ∃ member ∈ closest,
      (agreeing display closest signature).argmin (fun report => xorDistance report.1 subject) =
        some member ∧
      ((agreeing display closest signature).map Prod.fst).argmin
        (fun responder => xorDistance responder subject) = some member.1 := by
  have hgroup : (agreeing display closest signature).Pairwise fun left right =>
      xorDistance left.1 subject < xorDistance right.1 subject :=
    List.Pairwise.filter _ hsorted
  have hresponders : ((agreeing display closest signature).map Prod.fst).Pairwise
      fun left right => xorDistance left subject < xorDistance right subject :=
    pairwise_map.mpr hgroup
  rw [Closest.argmin_eq_head? hgroup, Closest.argmin_eq_head? hresponders]
  cases hmembers : agreeing display closest signature with
  | nil =>
    rw [hmembers] at hquorum
    exact absurd hquorum (Nat.not_succ_le_zero 1)
  | cons member rest =>
    refine ⟨member, ?_, rfl, rfl⟩
    have hmem : member ∈ agreeing display closest signature := by
      rw [hmembers]
      exact mem_cons_self
    exact mem_of_mem_filter hmem

end Quorum

/-- Neither the order of the reports nor that of the groups matters. -/
theorem computeWinnerIn_eq (order : HashOrder SignatureGroup) {iterated : SubjectReports Score}
    (hnodup : (reports.map Prod.fst).Nodup) (hperm : iterated.Perm reports) :
    computeWinnerIn order display subject iterated = computeWinner display subject reports := by
  have hlookup (peer : PeerId) : lookup Prod.fst peer iterated =
      lookup Prod.fst peer reports := lookup_perm hnodup hperm
  have hown : reports.find? (fun report => report.1 = subject) =
      lookup Prod.fst subject reports := rfl
  simp only [computeWinnerIn, computeWinner, reportsByDistance_perm hnodup hperm, hlookup, hown]
  cases maxBy (compareViews subject) ((reportsByDistance subject reports).filter fun report =>
      report.2.publishSeq ≠ 0) with
  | some best => rfl
  | none =>
    cases lookup Prod.fst subject reports with
    | some own => rfl
    | none =>
      dsimp only
      set topN := (reportsByDistance subject reports).take quorumTopN with htopN
      have hlength : topN.length ≤ quorumTopN := length_take_le _ _
      by_cases hquorum : ∃ signature, quorumThreshold ≤ (agreeing display topN signature).length
      · obtain ⟨signature, hquorum⟩ := hquorum
        have hsorted : topN.Pairwise fun left right =>
            reportDistance subject left < reportDistance subject right :=
          (pairwise_reportsByDistance subject hnodup).sublist (take_sublist _ _)
        obtain ⟨member, hmember, hreport, hresponder⟩ := exists_representative hsorted hquorum
        have hmem : member ∈ reports :=
          (perm_reportsByDistance subject reports).mem_iff.mp (mem_of_mem_take hmember)
        have hlong : quorumThreshold ≤ topN.length :=
          hquorum.trans (length_filter_le _ _)
        rw [if_pos hlong, find_bucket order hlength hquorum, Option.bind_some, hresponder,
          quorumGroup_eq hlength hquorum, hreport]
        exact (lookup_eq_some_iff hnodup).mpr ⟨hmem, rfl⟩
      · rw [not_exists] at hquorum
        rw [find_bucket_eq_none order hquorum, ite_self, quorumGroup_eq_nil hquorum]
        rfl

/-- The winner does not depend on the order of the maps.  It is the newest established
report, from the closest responder that has it and as it is; else the peer's own report;
and there is one as soon as there is a report. -/
theorem computeWinner_spec (display : MultiAddr → String) (subject : PeerId)
    (reports : SubjectReports Score) (hnodup : (reports.map Prod.fst).Nodup)
    (hsubject : ∀ report ∈ reports, report.2.peerId = subject) :
    (∀ (order : HashOrder SignatureGroup) (iterated : SubjectReports Score),
      iterated.Perm reports →
        computeWinnerIn order display subject iterated =
          computeWinner display subject reports) ∧
      ((∃ report ∈ reports, report.2.OwnerProven) →
        ∃ best ∈ reports, best.2.OwnerProven ∧
          computeWinner display subject reports = some best ∧
          ∀ report ∈ reports, report.2.OwnerProven →
            report.2.ownerVersion ≤ best.2.ownerVersion ∧
              (report.2.ownerVersion = best.2.ownerVersion →
                xorDistance best.1 subject ≤ xorDistance report.1 subject)) ∧
      ((∀ report ∈ reports, ¬report.2.OwnerProven) →
        ∀ own, (subject, own) ∈ reports →
          computeWinner display subject reports = some (subject, own)) ∧
      (computeWinner display subject reports = none → reports = []) := by
  refine ⟨?_, computeWinner_of_proven display hsubject, ?_, computeWinner_eq_none_iff.mp⟩
  · intro order iterated hperm
    exact computeWinnerIn_eq order hnodup hperm
  · intro hhints own hown
    exact computeWinner_of_own hnodup hhints hown

end Rules

/-- Two hints and a signed view of peer 1, from three responders. -/
def mixedReports : SubjectReports ℕ :=
  [(2, viewAt 1 none), (3, signedView), (4, viewAt 9 (some (.authenticatedOwner 9)))]

/-- The signed view wins against a greater sequence of the owner's connection. -/
theorem computeWinner_mixedReports :
    computeWinner (fun _ => "") 1 mixedReports = some (3, signedView) := by
  have hsigned : ∀ report ∈ mixedReports,
      signedView.ownerVersion ≤ report.2.ownerVersion → report = (3, signedView) := by
    decide +kernel
  obtain ⟨-, hnewest, -, -⟩ := computeWinner_spec (fun _ => "") 1 mixedReports
    (by decide) (by decide +kernel)
  obtain ⟨best, hmem, -, hwinner, hgreatest⟩ :=
    hnewest ⟨(3, signedView), by decide, by decide⟩
  rw [hwinner, hsigned best hmem (hgreatest (3, signedView) (by decide) (by decide)).1]

end SaorsaCore.Manager
