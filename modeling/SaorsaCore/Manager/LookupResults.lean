import SaorsaCore.Manager.Winners

/-!
# What a lookup hands out

`apply_lookup_report_winners` brings the results of a lookup up to date with the reports
it collected, and `build_witnessed_close_group` turns the answers of several responders
into one transcript.  Both collect records by peer, sort the peers by distance and cut the
list, so what they return is described by the closest peers of what they were given.
-/

namespace SaorsaCore.Manager

open Closest List KeyedList

variable {Score : Type*}

open DHTNode

/-! ## Peers -/

/-- The distance of a peer to a key. -/
def distanceToKey (key peer : PeerId) : ℕ :=
  xorDistance peer key

theorem nodup_map_distanceToKey (key : PeerId) {peers : List PeerId} (hnodup : peers.Nodup) :
    (peers.map (distanceToKey key)).Nodup :=
  hnodup.map (xorDistance_left_injective key)

theorem map_peerId_closestRecords (key : PeerId) (count : ℕ) (nodes : List (DHTNode Score)) :
    (closestRecords key count nodes).map peerId =
      Closest.closest (distanceToKey key) count (nodes.map peerId) :=
  Closest.map_closest (distanceToKey key) peerId count nodes

/-- Peers that are collected once each are the closest different ones. -/
theorem closest_foldl_pushNew (key : PeerId) (count : ℕ) (listed peers : List PeerId)
    (hlisted : listed.Nodup) :
    Closest.closest (distanceToKey key) count (peers.foldl pushNew listed) =
      Closest.closest (distanceToKey key) count (listed ++ peers).dedup := by
  have hnodup := nodup_foldl_pushNew hlisted peers
  apply closest_perm (nodup_map_distanceToKey key hnodup)
  rw [perm_ext_iff_of_nodup hnodup (nodup_dedup _)]
  intro peer
  rw [mem_foldl_pushNew, mem_dedup, mem_append]

/-! ## Versions -/

namespace DHTNode

variable {node other : DHTNode Score}

/-- The signed publication of a record, if it has one, was verified by this process. -/
def Verified (wire : AddressWire) (signatures : AddressSignatures) (node : DHTNode Score) : Prop :=
  ∀ proof, node.publication = some proof →
    ∃ record : SignedAddressRecord, record.verify wire signatures = .ok proof

/-- A record with a signed publication has its sequence. -/
def Sequenced (node : DHTNode Score) : Prop :=
  node.publication.isSome → node.OwnerProven

theorem Verified.sequenced {wire : AddressWire} {signatures : AddressSignatures}
    (hverified : node.Verified wire signatures) : node.Sequenced := by
  intro hsome
  obtain ⟨proof, hproof⟩ := Option.isSome_iff_exists.mp hsome
  obtain ⟨record, hrecord⟩ := hverified proof hproof
  have hsequence := publicationSequence_eq node
  rw [hsome, if_pos rfl, publicationSequence, hproof, Option.map_some, Option.getD_some]
    at hsequence
  rw [OwnerProven, ← hsequence]
  exact (SignedAddressRecord.verify_eq_ok hrecord).2

/-- Nothing established means the least version. -/
theorem Sequenced.version_le (hsequenced : node.Sequenced) (hhint : ¬node.OwnerProven)
    (version : Bool ×ₗ ℕ) : node.ownerVersion ≤ version := by
  have hunsigned : node.publication.isSome = false := by
    rw [← Bool.not_eq_true]
    exact fun hsigned => hhint (hsequenced hsigned)
  have hzero : node.publishSeq = 0 := not_not.mp hhint
  rw [ownerVersion_eq, hunsigned, hzero]
  exact bot_le

variable [LT Score] [DecidableLT Score]

/-- A merge is at least as new as either record. -/
theorem le_ownerVersion_mergeFrom (hpeer : other.peerId = node.peerId)
    (hnode : node.Sequenced) (hother : other.Sequenced) :
    node.ownerVersion ≤ (node.mergeFrom other).ownerVersion ∧
      other.ownerVersion ≤ (node.mergeFrom other).ownerVersion := by
  by_cases hfirst : node.OwnerProven
  · by_cases hsecond : other.OwnerProven
    · rw [mergeFrom_of_proven hpeer hfirst hsecond]
      split
      · next hless => exact ⟨hless.le, le_rfl⟩
      · next hnot => exact ⟨le_rfl, not_lt.mp hnot⟩
    · rw [mergeFrom_hint hpeer hfirst hsecond]
      exact ⟨le_rfl, hother.version_le hsecond _⟩
  · by_cases hsecond : other.OwnerProven
    · rw [mergeFrom_first_proven hpeer hfirst hsecond]
      exact ⟨hnode.version_le hfirst _, le_rfl⟩
    · exact ⟨hnode.version_le hfirst _, hother.version_le hsecond _⟩

theorem Sequenced.mergeFrom (hnode : node.Sequenced) (hother : other.Sequenced) :
    (node.mergeFrom other).Sequenced := by
  rcases node.mergeFrom_eq_or other with heq | heq | ⟨-, heq⟩
  · rwa [heq]
  · rwa [heq]
  · rw [heq]
    exact hnode

end DHTNode

/-! ## The map by peer -/

/-- The map has a record of the peer that is at least as new. -/
def Covered (entries : List (DHTNode Score)) (peer : PeerId) (version : Bool ×ₗ ℕ) : Prop :=
  ∃ entry ∈ entries, entry.peerId = peer ∧ version ≤ entry.ownerVersion

theorem Covered.version_le {entries : List (DHTNode Score)} {node : DHTNode Score}
    {version : Bool ×ₗ ℕ} (hcovered : Covered entries node.peerId version)
    (hnodup : (entries.map peerId).Nodup) (hmem : node ∈ entries) :
    version ≤ node.ownerVersion := by
  obtain ⟨entry, hentry, hpeer, hle⟩ := hcovered
  rwa [inj_on_of_nodup_map hnodup hentry hmem hpeer] at hle

section Upsert

variable {combine : DHTNode Score → DHTNode Score → DHTNode Score}
  (hpeer : ∀ entry node, entry.peerId = node.peerId → (combine entry node).peerId = entry.peerId)
  (hsequenced : ∀ entry node : DHTNode Score, entry.Sequenced → node.Sequenced →
    (combine entry node).Sequenced)
  (hnewer : ∀ entry node : DHTNode Score, entry.peerId = node.peerId → entry.Sequenced →
    node.Sequenced → entry.ownerVersion ≤ (combine entry node).ownerVersion ∧
      node.ownerVersion ≤ (combine entry node).ownerVersion)
include hpeer hnewer

/-- One more record keeps what is covered and is covered itself. -/
theorem covered_upsert {node : DHTNode Score} {entries : List (DHTNode Score)}
    (hnode : node.Sequenced) (hentries : ∀ entry ∈ entries, entry.Sequenced) :
    Covered (upsert combine node entries) node.peerId node.ownerVersion ∧
      ∀ peer version, Covered entries peer version →
        Covered (upsert combine node entries) peer version := by
  induction entries with
  | nil =>
    refine ⟨⟨node, mem_cons_self, rfl, le_rfl⟩, ?_⟩
    rintro peer version ⟨entry, hentry, -⟩
    exact absurd hentry not_mem_nil
  | cons entry entries ih =>
    rw [forall_mem_cons] at hentries
    rw [upsert]
    split
    · next hsame =>
        obtain ⟨hfirst, hsecond⟩ := hnewer entry node hsame hentries.1 hnode
        refine ⟨⟨_, mem_cons_self, (hpeer entry node hsame).trans hsame, hsecond⟩, ?_⟩
        rintro peer version ⟨known, hknown, hknownPeer, hle⟩
        rcases mem_cons.mp hknown with rfl | hknown
        · exact ⟨_, mem_cons_self, (hpeer known node hsame).trans hknownPeer, hle.trans hfirst⟩
        · exact ⟨known, mem_cons_of_mem _ hknown, hknownPeer, hle⟩
    · obtain ⟨hself, hkept⟩ := ih hentries.2
      constructor
      · obtain ⟨found, hfound, hrest⟩ := hself
        exact ⟨found, mem_cons_of_mem _ hfound, hrest⟩
      · rintro peer version ⟨known, hknown, hrest⟩
        rcases mem_cons.mp hknown with rfl | hknown
        · exact ⟨known, mem_cons_self, hrest⟩
        · obtain ⟨found, hfound, hfoundRest⟩ := hkept peer version ⟨known, hknown, hrest⟩
          exact ⟨found, mem_cons_of_mem _ hfound, hfoundRest⟩

include hsequenced

theorem covered_foldl_upsert {nodes entries : List (DHTNode Score)}
    (hnodes : ∀ node ∈ nodes, node.Sequenced) (hentries : ∀ entry ∈ entries, entry.Sequenced) :
    (∀ node ∈ nodes, Covered (nodes.foldl (fun entries node => upsert combine node entries) entries)
          node.peerId node.ownerVersion) ∧
      ∀ peer version, Covered entries peer version →
        Covered (nodes.foldl (fun entries node => upsert combine node entries) entries)
          peer version := by
  induction nodes generalizing entries with
  | nil => exact ⟨fun _ hmem => absurd hmem not_mem_nil, fun _ _ hcovered => hcovered⟩
  | cons node nodes ih =>
    rw [forall_mem_cons] at hnodes
    obtain ⟨hself, hkept⟩ := covered_upsert hpeer hnewer hnodes.1 hentries
    obtain ⟨hlater, hrest⟩ := ih hnodes.2 (good_upsert hsequenced hnodes.1 hentries)
    rw [foldl_cons, forall_mem_cons]
    exact ⟨⟨hrest _ _ hself, hlater⟩, fun peer version hcovered =>
      hrest peer version (hkept peer version hcovered)⟩

end Upsert

/-! ## Refreshed results -/

section Refresh

variable [LT Score] [DecidableLT Score] {display : MultiAddr → String}
  {subjectReports : PeerId → Option (SubjectReports Score)}

/-- The winner is a record of the subject, at least as new as every report. -/
theorem computeWinner_newest {subject : PeerId} {reports : SubjectReports Score}
    {winner : PeerId × DHTNode Score}
    (hfiled : ∀ report ∈ reports, report.2.peerId = subject ∧ report.2.Sequenced)
    (hwinner : computeWinner display subject reports = some winner) :
    winner.2.peerId = subject ∧ winner.2.Sequenced ∧
      ∀ report ∈ reports, report.2.ownerVersion ≤ winner.2.ownerVersion := by
  have hmerge (node other : DHTNode Score) (hnode : node.peerId = subject ∧ node.Sequenced)
      (hother : other.peerId = subject ∧ other.Sequenced) :
      (node.mergeFrom other).peerId = subject ∧ (node.mergeFrom other).Sequenced :=
    ⟨peerId_mergeFrom.trans hnode.1, hnode.2.mergeFrom hother.2⟩
  have hgood := good_computeWinner hmerge hfiled hwinner
  refine ⟨hgood.1, hgood.2, fun report hreport => ?_⟩
  by_cases hestablished : report.2.OwnerProven
  · obtain ⟨best, -, -, hbest, hgreatest⟩ := computeWinner_of_proven display
      (fun other hother => (hfiled other hother).1) ⟨report, hreport, hestablished⟩
    rw [hbest, Option.some.injEq] at hwinner
    rw [← hwinner]
    exact (hgreatest report hreport hestablished).1
  · exact (hfiled report hreport).2.version_le hestablished _

theorem refreshedResult_newest {node : DHTNode Score} (hnode : node.Sequenced)
    (hreports : ∀ peer reports, subjectReports peer = some reports →
      ∀ report ∈ reports, report.2.peerId = peer ∧ report.2.Sequenced) :
    (refreshedResult display subjectReports node).peerId = node.peerId ∧
      (refreshedResult display subjectReports node).Sequenced ∧
      node.ownerVersion ≤ (refreshedResult display subjectReports node).ownerVersion ∧
      ∀ reports, subjectReports node.peerId = some reports → ∀ report ∈ reports,
        report.2.ownerVersion ≤ (refreshedResult display subjectReports node).ownerVersion := by
  rw [refreshedResult]
  cases hsubject : subjectReports node.peerId with
  | none => exact ⟨rfl, hnode, le_rfl, fun _ hnone => by cases hnone⟩
  | some reports =>
    rw [Option.bind_some]
    have hfiled := hreports node.peerId reports hsubject
    cases hwinner : computeWinner display node.peerId reports with
    | none =>
      rw [computeWinner_eq_none_iff.mp hwinner]
      refine ⟨rfl, hnode, le_rfl, ?_⟩
      rintro _ ⟨⟩ report hreport
      exact absurd hreport not_mem_nil
    | some winner =>
      obtain ⟨hpeer, hsequenced, hgreatest⟩ := computeWinner_newest hfiled hwinner
      dsimp only
      split
      · obtain ⟨hfirst, hsecond⟩ := le_ownerVersion_mergeFrom hpeer hnode hsequenced
        refine ⟨peerId_mergeFrom, hnode.mergeFrom hsequenced, hfirst, ?_⟩
        rintro _ ⟨⟩ report hreport
        exact (hgreatest report hreport).trans hsecond
      · next hhints =>
          have hhint : ¬node.OwnerProven := by
            intro hproven
            rw [OwnerProven] at hproven
            exact hhints (by simp [hproven])
          refine ⟨hpeer, hsequenced, hnode.version_le hhint _, ?_⟩
          rintro _ ⟨⟩
          exact hgreatest

theorem peerId_joinResults (entry node : DHTNode Score) (hpeer : entry.peerId = node.peerId) :
    (joinResults entry node).peerId = entry.peerId := by
  rw [joinResults]
  split
  · exact peerId_mergeFrom
  · split
    · exact hpeer.symm
    · rfl

theorem sequenced_joinResults (entry node : DHTNode Score) (hentry : entry.Sequenced)
    (hnode : node.Sequenced) : (joinResults entry node).Sequenced := by
  rw [joinResults]
  split
  · exact hentry.mergeFrom hnode
  · split
    · exact hnode
    · exact hentry

theorem le_ownerVersion_joinResults (entry node : DHTNode Score)
    (hpeer : entry.peerId = node.peerId) (hentry : entry.Sequenced) (hnode : node.Sequenced) :
    entry.ownerVersion ≤ (joinResults entry node).ownerVersion ∧
      node.ownerVersion ≤ (joinResults entry node).ownerVersion := by
  rw [joinResults]
  split
  · exact le_ownerVersion_mergeFrom hpeer.symm hentry hnode
  · next hhints =>
      have hunproven : ¬node.OwnerProven ∧ ¬entry.OwnerProven := by
        simpa [OwnerProven] using hhints
      exact ⟨hentry.version_le hunproven.2 _, hnode.version_le hunproven.1 _⟩

/-- The map of `apply_lookup_report_winners` before it is sorted. -/
def refreshedEntries (display : MultiAddr → String) (bestNodes : List (DHTNode Score))
    (subjectReports : PeerId → Option (SubjectReports Score)) : List (DHTNode Score) :=
  (bestNodes.map (refreshedResult display subjectReports)).foldl
    (fun entries node => upsert joinResults node entries) []

section Entries

variable {bestNodes : List (DHTNode Score)} (hnodes : ∀ node ∈ bestNodes, node.Sequenced)
  (hreports : ∀ peer reports, subjectReports peer = some reports →
    ∀ report ∈ reports, report.2.peerId = peer ∧ report.2.Sequenced)
include hnodes hreports

theorem map_peerId_refreshedEntries (display : MultiAddr → String) :
    (refreshedEntries display bestNodes subjectReports).map peerId =
      (bestNodes.map peerId).foldl pushNew [] := by
  have hpeers : (bestNodes.map (refreshedResult display subjectReports)).map peerId =
      bestNodes.map peerId := by
    rw [map_map]
    apply map_congr_left
    intro node hnode
    exact (refreshedResult_newest (hnodes node hnode) hreports).1
  rw [refreshedEntries, map_peerId_foldl_upsert peerId_joinResults, hpeers, map_nil]

theorem covered_refreshedEntries (display : MultiAddr → String) {node : DHTNode Score}
    (hnode : node ∈ bestNodes) :
    Covered (refreshedEntries display bestNodes subjectReports) node.peerId
        (refreshedResult display subjectReports node).ownerVersion := by
  have hsequenced : ∀ refreshed ∈ bestNodes.map (refreshedResult display subjectReports),
      refreshed.Sequenced := by
    rw [forall_mem_map]
    intro node hnode
    exact (refreshedResult_newest (hnodes node hnode) hreports).2.1
  have hempty : ∀ entry ∈ ([] : List (DHTNode Score)), entry.Sequenced := fun _ hmem =>
    absurd hmem not_mem_nil
  have hcovered := (covered_foldl_upsert peerId_joinResults sequenced_joinResults
    le_ownerVersion_joinResults hsequenced hempty).1 _ (mem_map_of_mem hnode)
  rwa [(refreshedResult_newest (hnodes node hnode) hreports).1] at hcovered

theorem nodup_refreshedEntries (display : MultiAddr → String) :
    ((refreshedEntries display bestNodes subjectReports).map peerId).Nodup := by
  rw [map_peerId_refreshedEntries hnodes hreports]
  exact nodup_foldl_pushNew nodup_nil _

/-- An entry is at least as new as every copy of its peer and every report about it. -/
theorem refreshedEntries_newest {display : MultiAddr → String} {node : DHTNode Score}
    (hentry : node ∈ refreshedEntries display bestNodes subjectReports) :
    (∀ copy ∈ bestNodes, copy.peerId = node.peerId → copy.ownerVersion ≤ node.ownerVersion) ∧
      ∀ reports, subjectReports node.peerId = some reports → ∀ report ∈ reports,
        report.2.ownerVersion ≤ node.ownerVersion := by
  have hrefreshed : ∀ copy ∈ bestNodes, copy.peerId = node.peerId →
      (refreshedResult display subjectReports copy).ownerVersion ≤ node.ownerVersion := by
    intro copy hcopy hsame
    have hcovered := covered_refreshedEntries hnodes hreports display hcopy
    rw [hsame] at hcovered
    exact hcovered.version_le (nodup_refreshedEntries hnodes hreports display) hentry
  constructor
  · intro copy hcopy hsame
    exact (refreshedResult_newest (hnodes copy hcopy) hreports).2.2.1.trans
      (hrefreshed copy hcopy hsame)
  · intro reports hsubject report hreport
    have hmem : node.peerId ∈ bestNodes.map peerId := by
      have hlisted := mem_map_of_mem (f := peerId) hentry
      rw [map_peerId_refreshedEntries hnodes hreports, mem_foldl_pushNew] at hlisted
      exact hlisted.resolve_left not_mem_nil
    obtain ⟨copy, hcopy, hsame⟩ := mem_map.mp hmem
    rw [← hsame] at hsubject
    exact ((refreshedResult_newest (hnodes copy hcopy) hreports).2.2.2 reports hsubject report
      hreport).trans (hrefreshed copy hcopy hsame)

end Entries

/-- The results are the closest different peers that were handed in, and no record is older
than a copy of it that was handed in or a report about its peer. -/
theorem applyLookupReportWinners_spec (wire : AddressWire) (signatures : AddressSignatures)
    (display : MultiAddr → String) (bestNodes : List (DHTNode Score))
    (subjectReports : PeerId → Option (SubjectReports Score)) (key : PeerId) (count : ℕ)
    (hnodes : ∀ node ∈ bestNodes, node.Verified wire signatures)
    (hreports : ∀ peer reports, subjectReports peer = some reports →
      ∀ report ∈ reports, report.2.peerId = peer ∧ report.2.Verified wire signatures) :
    let results := applyLookupReportWinners display bestNodes subjectReports key count
    results.length ≤ count ∧ (results.map peerId).Nodup ∧
      (results.Pairwise fun left right =>
        xorDistance left.peerId key < xorDistance right.peerId key) ∧
      results.map peerId =
        Closest.closest (distanceToKey key) count (bestNodes.map peerId).dedup ∧
      ∀ node ∈ results,
        (∀ copy ∈ bestNodes, copy.peerId = node.peerId →
          copy.ownerVersion ≤ node.ownerVersion) ∧
        ∀ reports, subjectReports node.peerId = some reports → ∀ report ∈ reports,
          report.2.ownerVersion ≤ node.ownerVersion := by
  intro results
  have hcopies : ∀ node ∈ bestNodes, node.Sequenced := fun node hnode =>
    (hnodes node hnode).sequenced
  have hfiled : ∀ peer reports, subjectReports peer = some reports →
      ∀ report ∈ reports, report.2.peerId = peer ∧ report.2.Sequenced := by
    intro peer reports hsubject report hreport
    obtain ⟨hpeer, hverified⟩ := hreports peer reports hsubject report hreport
    exact ⟨hpeer, hverified.sequenced⟩
  have hpeers := map_peerId_refreshedEntries hcopies hfiled display
  have hclosest : results.map peerId =
      closest (distanceToKey key) count (bestNodes.map peerId).dedup := by
    change (closestRecords key count (refreshedEntries display bestNodes
      subjectReports)).map peerId = _
    rw [map_peerId_closestRecords, hpeers, closest_foldl_pushNew key count [] _ nodup_nil,
      nil_append]
  have hsorted := pairwise_closest
    (nodup_map_distanceToKey key (nodup_dedup (bestNodes.map peerId))) count
  rw [← hclosest] at hsorted
  have hnodup := nodup_of_pairwise_lt hsorted
  rw [pairwise_map] at hsorted
  refine ⟨length_take_le _ _, hnodup, hsorted, hclosest, fun node hnode => ?_⟩
  have hentry : node ∈ refreshedEntries display bestNodes subjectReports :=
    (mem_insertionSort _).mp (mem_of_mem_take hnode)
  exact refreshedEntries_newest hcopies hfiled hentry

end Refresh

/-- A record of peer 1 for a transport this process does not know. -/
def foreignRecord : SignedAddressRecord :=
  { owner := 1
    sequence := 3
    records := [{ transport := 99, reachability := 2, address := [0] }]
    publicKey := []
    signature := [] }

/-- Signatures that are always accepted. -/
def anySignature : AddressSignatures :=
  { signableBytes := fun _ _ _ _ => some []
    peerIdFromPublicKey := fun _ => some 1
    isSignature := fun _ => true
    mlDsaVerify := fun _ _ _ => some true }

/-- A copy of a lookup result without authority gives way to a signed report. -/
theorem applyLookupReportWinners_signed :
    ∃ node ∈ applyLookupReportWinners (fun _ => "") [viewAt 1 none]
        (fun peer => if peer = 1 then
          some [(3, viewAt 2 (some (.signed ⟨foreignRecord⟩)))] else none) 0 5,
      (viewAt 2 (some (.signed ⟨foreignRecord⟩))).ownerVersion ≤ node.ownerVersion := by
  have hverified : (viewAt 2 (some (.signed ⟨foreignRecord⟩))).Verified
      { decode := fun _ => none, encode := fun _ => none } anySignature := by
    rintro proof ⟨⟩
    exact ⟨foreignRecord, rfl⟩
  obtain ⟨-, -, -, hpeers, hversions⟩ := applyLookupReportWinners_spec
    { decode := fun _ => none, encode := fun _ => none } anySignature (fun _ => "")
    [viewAt 1 none] (fun peer => if peer = 1 then
      some [(3, viewAt 2 (some (.signed ⟨foreignRecord⟩)))] else none) 0 5
    (by
      rintro node hnode proof hproof
      cases mem_singleton.mp hnode
      cases hproof)
    (by
      intro peer reports hreports report hreport
      split at hreports
      · next hpeer =>
          cases hreports
          cases mem_singleton.mp hreport
          exact ⟨hpeer.symm, hverified⟩
      · cases hreports)
  have hpresent : (1 : PeerId) ∈ closest (distanceToKey 0) 5
      ([viewAt 1 none].map peerId).dedup := by
    decide +kernel
  rw [← hpeers] at hpresent
  obtain ⟨node, hnode, hpeer⟩ := mem_map.mp hpresent
  exact ⟨node, hnode, (hversions node hnode).2 _ (if_pos hpeer) _ mem_cons_self⟩

/-! ## The witnessed close group -/

/-- What one responder sees around the key. -/
structure ResponderView (Score : Type*) where
  responder : PeerId
  closest : List (DHTNode Score)

structure WitnessedCloseGroup (Score : Type*) where
  target : PeerId
  k : ℕ
  initialClosest : List (DHTNode Score)
  responderViews : List (ResponderView Score)

section Group

variable [LT Score] [DecidableLT Score]

/-- The records that the initial list and the answers have of each peer. -/
def knownNodes (initialClosest : List (DHTNode Score))
    (responderNodeViews : List (PeerId × List (DHTNode Score))) : List (DHTNode Score) :=
  mergeWitnessedNodes (mergeWitnessedNodes [] initialClosest) (responderNodeViews.flatMap Prod.snd)

def buildWitnessedCloseGroup (key : PeerId) (count viewCount : ℕ)
    (initialClosest : List (DHTNode Score))
    (responderNodeViews : List (PeerId × List (DHTNode Score))) :
    WitnessedCloseGroup Score :=
  let initialClosest := sortDedupWitnessedNodes initialClosest key count
  let known := knownNodes initialClosest responderNodeViews
  let views : List (ResponderView Score) := responderNodeViews.map fun entry =>
    { responder := entry.1
      closest := selfInclusiveResponderView entry.1 entry.2 known key viewCount }
  { target := key
    k := count
    initialClosest := initialClosest
    responderViews := views.insertionSort fun left right =>
      xorDistance left.responder key ≤ xorDistance right.responder key }

theorem map_peerId_sortDedupWitnessedNodes (nodes : List (DHTNode Score)) (key : PeerId)
    (count : ℕ) :
    (sortDedupWitnessedNodes nodes key count).map peerId =
      Closest.closest (distanceToKey key) count (nodes.map peerId).dedup := by
  rw [sortDedupWitnessedNodes, map_peerId_closestRecords, map_peerId_mergeWitnessedNodes,
    map_nil, closest_foldl_pushNew key count [] _ nodup_nil, nil_append]

theorem mem_map_peerId_knownNodes {initialClosest : List (DHTNode Score)}
    {responderNodeViews : List (PeerId × List (DHTNode Score))} {peer : PeerId} :
    peer ∈ (knownNodes initialClosest responderNodeViews).map peerId ↔
      peer ∈ initialClosest.map peerId ∨
        ∃ entry ∈ responderNodeViews, peer ∈ entry.2.map peerId := by
  rw [knownNodes, map_peerId_mergeWitnessedNodes, mem_foldl_pushNew,
    map_peerId_mergeWitnessedNodes, mem_foldl_pushNew, map_nil, map_flatMap,
    mem_flatMap]
  simp

/-- The peers of a responder's list, and the responder if there is a record of it. -/
def voters (known : List PeerId) (entry : PeerId × List (DHTNode Score)) : List PeerId :=
  (entry.2.map peerId ++ if known.contains entry.1 then [entry.1] else []).dedup

theorem map_peerId_selfInclusiveResponderView (known : List (DHTNode Score))
    (entry : PeerId × List (DHTNode Score)) (key : PeerId) (count : ℕ) :
    (selfInclusiveResponderView entry.1 entry.2 known key count).map peerId =
      Closest.closest (distanceToKey key) count (voters (known.map peerId) entry) := by
  have hself : (KeyedList.lookup peerId entry.1 known).toList.map peerId =
      if (known.map peerId).contains entry.1 then [entry.1] else [] := by
    cases hlookup : KeyedList.lookup peerId entry.1 known with
    | none =>
      have habsent := mt List.contains_iff_mem.mp (KeyedList.lookup_eq_none_iff.mp hlookup)
      rw [if_neg habsent]
      rfl
    | some node =>
      have hmem := List.mem_map_of_mem (f := peerId) (KeyedList.mem_of_lookup hlookup)
      rw [KeyedList.key_of_lookup hlookup] at hmem
      rw [if_pos (List.contains_iff_mem.mpr hmem)]
      simp [KeyedList.key_of_lookup hlookup]
  have hlisted : (mergeWitnessedNodes [] entry.2).map peerId =
      (entry.2.map peerId).foldl pushNew [] := map_peerId_mergeWitnessedNodes [] entry.2
  rw [KeyedList.lookup] at hself
  rw [selfInclusiveResponderView, map_peerId_closestRecords, map_peerId_mergeWitnessedNodes,
    hself, hlisted, ← List.foldl_append,
    closest_foldl_pushNew key count [] _ List.nodup_nil, List.nil_append, voters]

omit [LT Score] [DecidableLT Score] in
/-- Only the set of known peers matters for a responder's vote. -/
theorem voters_congr {known others : List PeerId} (hmem : ∀ peer, peer ∈ known ↔ peer ∈ others)
    (entry : PeerId × List (DHTNode Score)) : voters known entry = voters others entry := by
  have hcontains : known.contains entry.1 = others.contains entry.1 := by
    rw [Bool.eq_iff_iff, contains_iff_mem, contains_iff_mem, hmem]
  rw [voters, voters, hcontains]

/-- There is a view for each answer, by the distance of the responders.  The peers of a view
are the closest of the responder's list, with the responder itself if the initial list or
any answer has it, and the initial list is cut to the closest different peers. -/
theorem buildWitnessedCloseGroup_spec (key : PeerId) (count viewCount : ℕ)
    (initialClosest : List (DHTNode Score))
    (responderNodeViews : List (PeerId × List (DHTNode Score))) :
    let group := buildWitnessedCloseGroup key count viewCount initialClosest responderNodeViews
    let known := group.initialClosest.map peerId ++
      responderNodeViews.flatMap fun entry => entry.2.map peerId
    group.initialClosest.map peerId =
        Closest.closest (distanceToKey key) count (initialClosest.map peerId).dedup ∧
      (group.responderViews.map fun view => (view.responder, view.closest.map peerId)).Perm
        (responderNodeViews.map fun entry => (entry.1,
          Closest.closest (distanceToKey key) viewCount (voters known entry))) ∧
      (group.responderViews.Pairwise fun left right =>
        xorDistance left.responder key ≤ xorDistance right.responder key) ∧
      ∀ view ∈ group.responderViews, view.closest.Pairwise fun left right =>
        xorDistance left.peerId key < xorDistance right.peerId key := by
  intro group known
  have hknown (peer : PeerId) :
      peer ∈ (knownNodes group.initialClosest responderNodeViews).map peerId ↔ peer ∈ known := by
    rw [mem_map_peerId_knownNodes, mem_append, mem_flatMap]
  have hview (entry : PeerId × List (DHTNode Score)) : (selfInclusiveResponderView entry.1 entry.2
        (knownNodes group.initialClosest responderNodeViews) key viewCount).map peerId =
          closest (distanceToKey key) viewCount (voters known entry) := by
    rw [map_peerId_selfInclusiveResponderView, voters_congr hknown]
  have hviews : group.responderViews.Perm (responderNodeViews.map fun entry =>
      { responder := entry.1
        closest := selfInclusiveResponderView entry.1 entry.2
          (knownNodes group.initialClosest responderNodeViews) key viewCount }) :=
    perm_insertionSort _ _
  refine ⟨map_peerId_sortDedupWitnessedNodes initialClosest key count, ?_,
    Grouping.pairwise_insertionSort _, ?_⟩
  · refine (hviews.map _).trans (List.Perm.of_eq ?_)
    rw [map_map]
    apply map_congr_left
    intro entry _
    exact Prod.ext rfl (hview entry)
  · intro view hmem
    obtain ⟨entry, -, rfl⟩ := mem_map.mp (hviews.mem_iff.mp hmem)
    have hnodup : (voters known entry).Nodup := nodup_dedup _
    have hsorted := pairwise_closest (nodup_map_distanceToKey key hnodup) viewCount
    rw [← hview entry, pairwise_map] at hsorted
    exact hsorted

end Group

end SaorsaCore.Manager
