import SaorsaCore.Manager.PeerRecord

/-!
# Selection among reports

During a lookup several responders report the same peer.  The functions below choose
what the lookup goes on with: the newest established view, else the peer's own report,
else a quorum of the closest responders, else the closest one.  Hash maps of the source
are association lists in the order of iteration.
-/

namespace SaorsaCore.Manager

open List

variable {Score : Type*} [LT Score] [DecidableLT Score]

def quorumTopN : ℕ := 3

def quorumThreshold : ℕ := 2

/-- The reports about one peer by responder. -/
abbrev SubjectReports (Score : Type*) := List (PeerId × DHTNode Score)

omit [LT Score] [DecidableLT Score] in
/-- The best priority among the tags, and `u8::MAX` without addresses. -/
def bestTierPriority (node : DHTNode Score) : ℕ :=
  ((node.typedAddresses.map fun pair => pair.2.priority).min?).getD 255

/-- The address set of a report, independent of the order of the addresses; `display` is
the printed form of an address. -/
def reportSignature (display : MultiAddr → String) (node : DHTNode Score) : List (MultiAddr × ℕ) :=
  (node.typedAddresses.map fun pair => (pair.1, pair.2.priority)).insertionSort
    fun left right => display left.1 ≤ display right.1

/-- `owner_view_version`: protocol first, then sequence. -/
def ownerViewVersion (node : DHTNode Score) : Bool × ℕ :=
  match node.publication with
  | some proof => (true, proof.sequence)
  | none => (false, node.publishSeq)

/-- The comparison of `max_by` in the first rule. -/
def compareViews (subject : PeerId) (left right : PeerId × DHTNode Score) : Ordering :=
  (compare (ownerViewVersion left.2).1 (ownerViewVersion right.2).1).then <|
    (compare (ownerViewVersion left.2).2 (ownerViewVersion right.2).2).then <|
      (compare (xorDistance right.1 subject) (xorDistance left.1 subject)).then <|
        compare (bestTierPriority right.2) (bestTierPriority left.2)

/-- `Iterator::max_by`, which keeps the last of several greatest elements. -/
def maxBy {A : Type*} (order : A → A → Ordering) : List A → Option A
  | [] => none
  | first :: rest =>
    some (rest.foldl (fun best next => if order best next = .gt then best else next) first)

/-- The responders from the closest one on, ties broken by the better tag. -/
def reportsByDistance (subject : PeerId) (reports : SubjectReports Score) : SubjectReports Score :=
  reports.insertionSort fun left right =>
    (compare (xorDistance left.1 subject) (xorDistance right.1 subject)).then
      (compare (bestTierPriority left.2) (bestTierPriority right.2)) ≠ .gt

/-- The members of a quorum among the closest responders.  At most one group can have
one, so the order of the groups does not matter. -/
def quorumGroup (display : MultiAddr → String) (closest : SubjectReports Score) :
    SubjectReports Score :=
  let agreeing (report : PeerId × DHTNode Score) : SubjectReports Score :=
    closest.filter fun other =>
      reportSignature display other.2 == reportSignature display report.2
  match closest.find? fun report => quorumThreshold ≤ (agreeing report).length with
  | some report => agreeing report
  | none => []

def computeWinner (display : MultiAddr → String) (subject : PeerId)
    (reports : SubjectReports Score) : Option (PeerId × DHTNode Score) :=
  let byDist := reportsByDistance subject reports
  match maxBy (compareViews subject) (byDist.filter fun report =>
      report.2.publishSeq ≠ 0) with
  | some best =>
    some (best.1, (byDist.map Prod.snd).foldl DHTNode.mergeFrom best.2)
  | none =>
    match reports.find? fun report => report.1 = subject with
    | some own => some (subject, own.2)
    | none =>
      match (quorumGroup display (byDist.take quorumTopN)).argmin fun report =>
          xorDistance report.1 subject with
      | some member => some member
      | none => byDist.head?

def preferLookupRecord (candidate existing : DHTNode Score) : Bool :=
  existing.publishSeq < candidate.publishSeq
    || (candidate.publishSeq = existing.publishSeq
      && bestTierPriority candidate < bestTierPriority existing)

/-- Combine a record with the one kept for its peer, or keep it as the first. -/
def upsert (combine : DHTNode Score → DHTNode Score → DHTNode Score)
    (node : DHTNode Score) : List (DHTNode Score) → List (DHTNode Score)
  | [] => [node]
  | entry :: entries =>
    if entry.peerId = node.peerId then combine entry node :: entries
    else entry :: upsert combine node entries

/-- The first `count` records by distance to the key. -/
def closestRecords (key : PeerId) (count : ℕ) (nodes : List (DHTNode Score)) :
    List (DHTNode Score) :=
  (nodes.insertionSort fun left right =>
    xorDistance left.peerId key ≤ xorDistance right.peerId key).take count

/-- A lookup result after the reports about its peer were taken into account. -/
def refreshedResult (display : MultiAddr → String)
    (subjectReports : PeerId → Option (SubjectReports Score)) (node : DHTNode Score) :
    DHTNode Score :=
  match (subjectReports node.peerId).bind (computeWinner display node.peerId) with
  | none => node
  | some winner =>
    if node.publishSeq ≠ 0 || winner.2.publishSeq ≠ 0 then node.mergeFrom winner.2
    else winner.2

/-- How a refreshed result joins an earlier one of the same peer. -/
def joinResults (entry node : DHTNode Score) : DHTNode Score :=
  if node.publishSeq ≠ 0 || entry.publishSeq ≠ 0 then entry.mergeFrom node
  else if preferLookupRecord node entry then node
  else entry

def applyLookupReportWinners (display : MultiAddr → String) (bestNodes : List (DHTNode Score))
    (subjectReports : PeerId → Option (SubjectReports Score)) (key : PeerId)
    (count : ℕ) : List (DHTNode Score) :=
  closestRecords key count <| (bestNodes.map (refreshedResult display subjectReports)).foldl
      (fun entries node => upsert joinResults node entries) []

/-- `merge_witnessed_node` for each node in turn. -/
def mergeWitnessedNodes (entries nodes : List (DHTNode Score)) : List (DHTNode Score) :=
  nodes.foldl (fun entries node => upsert DHTNode.mergeFrom node entries) entries

def sortDedupWitnessedNodes (nodes : List (DHTNode Score)) (key : PeerId) (count : ℕ) :
    List (DHTNode Score) :=
  closestRecords key count (mergeWitnessedNodes [] nodes)

def selfInclusiveResponderView (responder : PeerId) (closest : List (DHTNode Score))
    (knownNodes : List (DHTNode Score)) (key : PeerId) (count : ℕ) :
    List (DHTNode Score) :=
  closestRecords key count <| mergeWitnessedNodes (mergeWitnessedNodes [] closest)
      (knownNodes.find? fun node => node.peerId = responder).toList

/-! ## What selection preserves -/

section Preservation

variable {good : DHTNode Score → Prop}
  (hmerge : ∀ node other, good node → good other → good (node.mergeFrom other))
include hmerge

omit hmerge [LT Score] [DecidableLT Score] in
theorem maxBy_mem {A : Type*} {order : A → A → Ordering} {items : List A} {best : A}
    (hbest : maxBy order items = some best) : best ∈ items := by
  cases items with
  | nil => cases hbest
  | cons first rest =>
    cases hbest
    apply foldlRecOn (motive := fun best => best ∈ first :: rest)
    · exact mem_cons_self
    · intro best hbest next hnext
      split
      · exact hbest
      · exact mem_cons_of_mem first hnext

variable {node : DHTNode Score}

theorem good_foldl_mergeFrom {others : List (DHTNode Score)} (hnode : good node)
    (hothers : ∀ other ∈ others, good other) : good (others.foldl DHTNode.mergeFrom node) := by
  apply foldlRecOn (motive := good)
  · exact hnode
  · intro merged hmerged other hother
    exact hmerge merged other hmerged (hothers other hother)

variable {display : MultiAddr → String}

/-- The winner is a report or is merged from reports. -/
theorem good_computeWinner {subject : PeerId} {reports : SubjectReports Score}
    {winner : PeerId × DHTNode Score} (hreports : ∀ report ∈ reports, good report.2)
    (hwinner : computeWinner display subject reports = some winner) : good winner.2 := by
  have hbyDist : ∀ report ∈ reportsByDistance subject reports, good report.2 := by
    intro report hreport
    exact hreports report ((perm_insertionSort _ reports).mem_iff.mp hreport)
  rw [computeWinner] at hwinner
  split at hwinner
  · next best hbest =>
      cases hwinner
      apply good_foldl_mergeFrom hmerge
      · exact hbyDist best (mem_of_mem_filter (maxBy_mem hbest))
      · intro other hother
        obtain ⟨report, hreport, rfl⟩ := mem_map.mp hother
        exact hbyDist report hreport
  · split at hwinner
    · next own hown =>
        cases hwinner
        exact hreports own (mem_of_find?_eq_some hown)
    · split at hwinner
      · next member hmember =>
          cases hwinner
          have hgroup := argmin_mem hmember
          rw [quorumGroup] at hgroup
          simp only at hgroup
          split at hgroup
          · exact hbyDist _ (mem_of_mem_take (mem_of_mem_filter hgroup))
          · cases hgroup
      · exact hbyDist winner (mem_of_mem_head? hwinner)

variable {entries : List (DHTNode Score)} {combine : DHTNode Score → DHTNode Score → DHTNode Score}

omit hmerge [LT Score] [DecidableLT Score] in
theorem good_upsert (hcombine : ∀ entry node, good entry → good node → good (combine entry node))
    (hnode : good node) (hentries : ∀ entry ∈ entries, good entry) :
    ∀ entry ∈ upsert combine node entries, good entry := by
  induction entries with
  | nil => simpa [upsert] using hnode
  | cons entry entries ih =>
    rw [forall_mem_cons] at hentries
    rw [upsert]
    split
    · exact forall_mem_cons.mpr ⟨hcombine entry node hentries.1 hnode, hentries.2⟩
    · exact forall_mem_cons.mpr ⟨hentries.1, ih hentries.2⟩

variable {nodes : List (DHTNode Score)}

omit hmerge [LT Score] [DecidableLT Score] in
theorem good_foldl_upsert
    (hcombine : ∀ entry node, good entry → good node → good (combine entry node))
    (hnodes : ∀ node ∈ nodes, good node) (hentries : ∀ entry ∈ entries, good entry) :
    ∀ entry ∈ nodes.foldl (fun entries node => upsert combine node entries) entries,
      good entry := by
  apply foldlRecOn (motive := fun entries => ∀ entry ∈ entries, good entry)
  · exact hentries
  · intro merged hmerged node hnode
    exact good_upsert hcombine (hnodes node hnode) hmerged

variable {key : PeerId} {count : ℕ}

omit hmerge [LT Score] [DecidableLT Score] in
theorem good_closestRecords (hnodes : ∀ node ∈ nodes, good node) :
    ∀ node ∈ closestRecords key count nodes, good node := by
  intro node hnode
  exact hnodes node ((perm_insertionSort _ nodes).mem_iff.mp (mem_of_mem_take hnode))

variable {subjectReports : PeerId → Option (SubjectReports Score)}

theorem good_refreshedResult (hreports : ∀ peer reports, subjectReports peer = some reports →
      ∀ report ∈ reports, good report.2) (hnode : good node) :
    good (refreshedResult display subjectReports node) := by
  rw [refreshedResult]
  split
  · exact hnode
  · next winner hwinner =>
      obtain ⟨reports, hsubject, hcompute⟩ := Option.bind_eq_some_iff.mp hwinner
      have hgood := good_computeWinner hmerge (hreports _ _ hsubject) hcompute
      split
      · exact hmerge node winner.2 hnode hgood
      · exact hgood

theorem good_applyLookupReportWinners {bestNodes : List (DHTNode Score)}
    (hnodes : ∀ node ∈ bestNodes, good node)
    (hreports : ∀ peer reports, subjectReports peer = some reports →
      ∀ report ∈ reports, good report.2) :
    ∀ node ∈ applyLookupReportWinners display bestNodes subjectReports key count, good node := by
  apply good_closestRecords
  apply good_foldl_upsert
  · intro entry node hentry hnode
    rw [joinResults]
    split_ifs
    · exact hmerge entry node hentry hnode
    · exact hnode
    · exact hentry
  · intro node hnode
    obtain ⟨best, hbest, rfl⟩ := mem_map.mp hnode
    exact good_refreshedResult hmerge hreports (hnodes best hbest)
  · simp

theorem good_mergeWitnessedNodes (hentries : ∀ entry ∈ entries, good entry)
    (hnodes : ∀ node ∈ nodes, good node) :
    ∀ node ∈ mergeWitnessedNodes entries nodes, good node :=
  good_foldl_upsert hmerge hnodes hentries

theorem good_sortDedupWitnessedNodes (hnodes : ∀ node ∈ nodes, good node) :
    ∀ node ∈ sortDedupWitnessedNodes nodes key count, good node := by
  apply good_closestRecords
  apply good_mergeWitnessedNodes hmerge _ hnodes
  simp

theorem good_selfInclusiveResponderView {responder : PeerId}
    {closest knownNodes : List (DHTNode Score)} (hclosest : ∀ node ∈ closest, good node)
    (hknown : ∀ node ∈ knownNodes, good node) :
    ∀ node ∈ selfInclusiveResponderView responder closest knownNodes key count, good node := by
  apply good_closestRecords
  apply good_mergeWitnessedNodes hmerge
  · apply good_mergeWitnessedNodes hmerge _ hclosest
    simp
  · intro node hnode
    exact hknown node (mem_of_find?_eq_some (Option.mem_toList.mp hnode))

end Preservation

end SaorsaCore.Manager
