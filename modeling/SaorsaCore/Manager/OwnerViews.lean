import SaorsaCore.Core.Collections
import SaorsaCore.Core.KeyedList
import SaorsaCore.Manager.ClientRouting

/-!
# Views of one peer

The views of a peer that a lookup collects are merged one after the other, in the order
in which they arrive.  The merge is not symmetric: hints mix, an established view replaces
hints, and a newer established view replaces an older one.  Over a whole list this is a
maximum: as soon as one view is established, the result is the first of the newest
established ones, unchanged.
-/

namespace SaorsaCore.Manager

open List

variable {Score : Type*}

namespace DHTNode

/-- The owner has a part in the view: there is an authority, with a sequence. -/
def OwnerProven (node : DHTNode Score) : Prop :=
  node.publishSeq ≠ 0

instance (node : DHTNode Score) : Decidable node.OwnerProven :=
  inferInstanceAs (Decidable (node.publishSeq ≠ 0))

/-- `owner_view_version` in the order of the source: signed publications come after the
others, then the sequence counts. -/
def ownerVersion (node : DHTNode Score) : Bool ×ₗ ℕ :=
  toLex (ownerViewVersion node)

/-! ## One merge -/

section OneMerge

variable {node other : DHTNode Score}

/-- The sequence of a signed publication is the established one. -/
theorem publicationSequence_eq (node : DHTNode Score) :
    node.publicationSequence = if node.publication.isSome then node.publishSeq else 0 := by
  rw [publicationSequence, publication, publishSeq]
  cases hauthority : node.addressAuthority with
  | none => rfl
  | some authority =>
    cases authority with
    | authenticatedOwner seq => rfl
    | signed record => rfl

theorem ownerVersion_eq (node : DHTNode Score) :
    node.ownerVersion = toLex (node.publication.isSome, node.publishSeq) := by
  rw [ownerVersion, ownerViewVersion, publication, publishSeq]
  cases hauthority : node.addressAuthority with
  | none => rfl
  | some authority =>
    cases authority with
    | authenticatedOwner seq => rfl
    | signed record => rfl

/-- Between established views the newer one stays. -/
theorem mergeOwnerViews_of_proven (hnode : node.OwnerProven) (hother : other.OwnerProven) :
    node.mergeOwnerViews other = if node.ownerVersion < other.ownerVersion then other
      else node := by
  rw [OwnerProven] at hnode hother
  rw [mergeOwnerViews, ownerVersion_eq, ownerVersion_eq, publicationSequence_eq,
    publicationSequence_eq]
  cases hfirst : node.publication.isSome <;> cases hsecond : other.publication.isSome <;>
    simp [Prod.Lex.toLex_lt_toLex, hnode, hother, Nat.pos_of_ne_zero]

variable [LT Score] [DecidableLT Score]

theorem mergeFrom_of_proven (hpeer : other.peerId = node.peerId) (hnode : node.OwnerProven)
    (hother : other.OwnerProven) :
    node.mergeFrom other = if node.ownerVersion < other.ownerVersion then other
      else node := by
  rw [← mergeOwnerViews_of_proven hnode hother, mergeFrom]
  rw [OwnerProven] at hnode
  simp [hpeer, hnode]

/-- A hint changes nothing in an established view. -/
theorem mergeFrom_hint (hpeer : other.peerId = node.peerId) (hnode : node.OwnerProven)
    (hother : ¬other.OwnerProven) : node.mergeFrom other = node := by
  rw [OwnerProven, not_not] at hother
  rw [OwnerProven] at hnode
  have hseq : other.publicationSequence = 0 := by
    rw [publicationSequence_eq, hother, ite_self]
  simp [mergeFrom, mergeOwnerViews, hpeer, hnode, hother, hseq]

/-- An established view replaces hints. -/
theorem mergeFrom_first_proven (hpeer : other.peerId = node.peerId)
    (hnode : ¬node.OwnerProven) (hother : other.OwnerProven) :
    node.mergeFrom other = other := by
  rw [OwnerProven, not_not] at hnode
  rw [OwnerProven] at hother
  have hseq : node.publicationSequence = 0 := by
    rw [publicationSequence_eq, hnode, ite_self]
  rw [mergeFrom, mergeOwnerViews, publicationSequence_eq other]
  cases hsigned : other.publication.isSome <;>
    simp [hpeer, hnode, hother, hseq, Nat.pos_of_ne_zero]

/-- Hints stay hints. -/
theorem not_ownerProven_mergeFrom (hnode : ¬node.OwnerProven) (hother : ¬other.OwnerProven) :
    ¬(node.mergeFrom other).OwnerProven := by
  rcases node.mergeFrom_eq_or other with heq | heq | ⟨-, heq⟩
  · rwa [heq]
  · rwa [heq]
  · rwa [heq]

theorem peerId_mergeFrom : (node.mergeFrom other).peerId = node.peerId := by
  rw [mergeFrom]
  by_cases hpeer : node.peerId = other.peerId
  · rw [if_neg (not_not_intro hpeer)]
    split
    · rcases node.mergeOwnerViews_eq_or other with heq | heq
      · rw [heq, hpeer]
      · rw [heq]
    · rfl
  · rw [if_pos hpeer]

end OneMerge

end DHTNode

/-! ## All views -/

open DHTNode

/-- The first of the newest established views. -/
def newestView (views : List (DHTNode Score)) : Option (DHTNode Score) :=
  (views.filter fun view => view.OwnerProven).argmax ownerVersion

/-- What a merge of the views so far can be. -/
inductive Settled (views : List (DHTNode Score)) (merged : DHTNode Score) : Prop where
  | newest (hnewest : newestView views = some merged)
  | hints (hnone : newestView views = none) (hmerged : ¬merged.OwnerProven)

theorem newestView_concat (views : List (DHTNode Score)) (view : DHTNode Score) :
    newestView (views ++ [view]) = if view.OwnerProven then
        match newestView views with
        | none => some view
        | some newest =>
          if newest.ownerVersion < view.ownerVersion then some view else some newest
      else newestView views := by
  rw [newestView, filter_append]
  by_cases hview : view.OwnerProven
  · rw [if_pos hview, filter_singleton, decide_eq_true hview, cond_true, argmax_concat, newestView]
    cases (views.filter fun view => view.OwnerProven).argmax ownerVersion <;> rfl
  · rw [if_neg hview, filter_singleton, decide_eq_false hview]
    simp [newestView]

variable {views : List (DHTNode Score)}

theorem mem_of_newestView {newest : DHTNode Score} (hnewest : newestView views = some newest) :
    newest ∈ views ∧ newest.OwnerProven := by
  have hmem := mem_filter.mp (argmax_mem hnewest)
  exact ⟨hmem.1, of_decide_eq_true hmem.2⟩

theorem le_newestView {newest view : DHTNode Score} (hnewest : newestView views = some newest)
    (hmem : view ∈ views) (hview : view.OwnerProven) :
    view.ownerVersion ≤ newest.ownerVersion :=
  List.le_of_mem_argmax (List.mem_filter.mpr ⟨hmem, decide_eq_true hview⟩) hnewest

theorem exists_newestView (hproven : ∃ view ∈ views, view.OwnerProven) :
    ∃ newest, newestView views = some newest := by
  obtain ⟨proven, hmem, hproven⟩ := hproven
  have hkept : proven ∈ views.filter fun view => view.OwnerProven :=
    mem_filter.mpr ⟨hmem, decide_eq_true hproven⟩
  cases hnewest : newestView views with
  | some newest => exact ⟨newest, rfl⟩
  | none =>
    rw [newestView, argmax_eq_none] at hnewest
    rw [hnewest] at hkept
    exact absurd hkept not_mem_nil

section Folds

variable [LT Score] [DecidableLT Score] {views : List (DHTNode Score)}
  {view merged : DHTNode Score}

/-- The views merged in this order, as `merge_witnessed_node` does it for one peer. -/
def mergeViews : List (DHTNode Score) → Option (DHTNode Score)
  | [] => none
  | first :: rest => some (rest.foldl mergeFrom first)

theorem Settled.step (hsettled : Settled views merged) (hpeer : view.peerId = merged.peerId) :
    Settled (views ++ [view]) (merged.mergeFrom view) := by
  cases hsettled with
  | newest hnewest =>
    have hmerged : merged.OwnerProven := (mem_of_newestView hnewest).2
    apply Settled.newest
    rw [newestView_concat, hnewest]
    by_cases hview : view.OwnerProven
    · rw [if_pos hview, mergeFrom_of_proven hpeer hmerged hview]
      exact (apply_ite some _ _ _).symm
    · rw [if_neg hview, mergeFrom_hint hpeer hmerged hview]
  | hints hnone hmerged =>
    by_cases hview : view.OwnerProven
    · apply Settled.newest
      rw [newestView_concat, hnone, if_pos hview, mergeFrom_first_proven hpeer hmerged hview]
    · apply Settled.hints
      · rw [newestView_concat, hnone, if_neg hview]
      · exact not_ownerProven_mergeFrom hmerged hview

/-- However many views there are, the merge is the newest established one, or nothing is
established. -/
theorem settled_foldl (first : DHTNode Score) (rest : List (DHTNode Score))
    (hpeer : ∀ view ∈ rest, view.peerId = first.peerId) :
    Settled (first :: rest) (rest.foldl mergeFrom first) ∧
      (rest.foldl mergeFrom first).peerId = first.peerId := by
  induction rest using reverseRecOn with
  | nil =>
    constructor
    · by_cases hfirst : first.OwnerProven
      · exact .newest (by simp [newestView, hfirst])
      · exact .hints (by simp [newestView, hfirst]) hfirst
    · rfl
  | append_singleton rest view ih =>
    obtain ⟨hsettled, hsame⟩ := ih fun earlier hmem =>
      hpeer earlier (mem_append_left [view] hmem)
    have hview : view.peerId = first.peerId := hpeer view (by simp)
    rw [foldl_append, foldl_cons, foldl_nil, ← cons_append]
    constructor
    · exact hsettled.step (hview.trans hsame.symm)
    · rw [peerId_mergeFrom, hsame]

theorem mergeViews_eq_newestView {peer : PeerId} (hpeer : ∀ view ∈ views, view.peerId = peer)
    (hproven : ∃ view ∈ views, view.OwnerProven) :
    mergeViews views = newestView views := by
  obtain ⟨newest, hsome⟩ := exists_newestView hproven
  cases views with
  | nil => simp [newestView] at hsome
  | cons first rest =>
    have hrest : ∀ view ∈ rest, view.peerId = first.peerId := by
      intro view hview
      rw [hpeer view (mem_cons_of_mem first hview), hpeer first (by simp)]
    cases (settled_foldl first rest hrest).1 with
    | newest hnewest => rw [mergeViews, hnewest]
    | hints hnone _ => simp [hnone] at hsome

/-! ## Reports about several peers -/

variable {combine : DHTNode Score → DHTNode Score → DHTNode Score}

omit [LT Score] [DecidableLT Score] in
theorem map_peerId_upsert (hcombine : ∀ entry node, entry.peerId = node.peerId →
      (combine entry node).peerId = entry.peerId)
    (node : DHTNode Score) (entries : List (DHTNode Score)) :
    (upsert combine node entries).map peerId = pushNew (entries.map peerId) node.peerId := by
  rw [pushNew]
  induction entries with
  | nil => rfl
  | cons entry entries ih =>
    rw [upsert]
    by_cases hentry : entry.peerId = node.peerId
    · simp [hentry, hcombine entry node hentry]
    · rw [if_neg hentry, map_cons, ih]
      have hother : node.peerId ≠ entry.peerId := Ne.symm hentry
      by_cases hnode : node.peerId ∈ entries.map peerId
      · simp [hnode]
      · simp [hnode, hother]

omit [LT Score] [DecidableLT Score] in
/-- The peers of the map are those of the records, once each. -/
theorem map_peerId_foldl_upsert (hcombine : ∀ entry node, entry.peerId = node.peerId →
      (combine entry node).peerId = entry.peerId)
    (nodes entries : List (DHTNode Score)) :
    (nodes.foldl (fun entries node => upsert combine node entries) entries).map peerId =
      (nodes.map peerId).foldl pushNew (entries.map peerId) := by
  induction nodes generalizing entries with
  | nil => rfl
  | cons node nodes ih =>
    rw [foldl_cons, ih, map_peerId_upsert hcombine, map_cons, foldl_cons]

theorem map_peerId_mergeWitnessedNodes (entries nodes : List (DHTNode Score)) :
    (mergeWitnessedNodes entries nodes).map peerId =
      (nodes.map peerId).foldl pushNew (entries.map peerId) :=
  map_peerId_foldl_upsert (fun _ _ _ => peerId_mergeFrom) nodes entries

/-- In whatever order the views of a peer arrive, the result is one of the newest
established views, unchanged, and all orders give the same addresses and tags. -/
theorem mergeViews_of_perm {peer : PeerId} (hpeer : ∀ view ∈ views, view.peerId = peer)
    (hproven : ∃ view ∈ views, view.OwnerProven)
    (hagree : ∀ left ∈ views, ∀ right ∈ views, left.OwnerProven → right.OwnerProven →
      left.ownerVersion = right.ownerVersion →
        left.addresses = right.addresses ∧ left.addressTypes = right.addressTypes) :
    ∃ newest ∈ views, newest.OwnerProven ∧
      (∀ view ∈ views, view.OwnerProven → view.ownerVersion ≤ newest.ownerVersion) ∧
      ∀ order, order.Perm views →
        ∃ merged ∈ views, mergeViews order = some merged ∧ merged.OwnerProven ∧
          merged.ownerVersion = newest.ownerVersion ∧
          merged.addresses = newest.addresses ∧
          merged.addressTypes = newest.addressTypes := by
  have hmerged (order : List (DHTNode Score)) (hperm : order.Perm views) :
      ∃ merged ∈ views, mergeViews order = some merged ∧ merged.OwnerProven ∧
        ∀ view ∈ views, view.OwnerProven → view.ownerVersion ≤ merged.ownerVersion := by
    have hsome : ∃ view ∈ order, view.OwnerProven := by
      simpa only [hperm.mem_iff] using hproven
    obtain ⟨merged, hnewest⟩ := exists_newestView hsome
    have hmem := mem_of_newestView hnewest
    refine ⟨merged, hperm.mem_iff.mp hmem.1, ?_, hmem.2, ?_⟩
    · rw [← hnewest]
      exact mergeViews_eq_newestView (fun view hview => hpeer view (hperm.mem_iff.mp hview)) hsome
    · intro view hview
      exact le_newestView hnewest (hperm.mem_iff.mpr hview)
  obtain ⟨newest, hmem, -, hnewest, hgreatest⟩ := hmerged views (List.Perm.refl views)
  refine ⟨newest, hmem, hnewest, hgreatest, ?_⟩
  intro order hperm
  obtain ⟨merged, hmember, hmerge, hestablished, hlatest⟩ := hmerged order hperm
  have hversion : merged.ownerVersion = newest.ownerVersion :=
    le_antisymm (hgreatest merged hmember hestablished) (hlatest newest hmem hnewest)
  exact ⟨merged, hmember, hmerge, hestablished, hversion,
    hagree merged hmember newest hmem hestablished hnewest hversion⟩

/-- A view of peer 1 at one port. -/
def viewAt (port : BitVec 16) (authority : Option AddressAuthority) : DHTNode ℕ :=
  { peerId := 1
    addresses := [{ transport := .quic (.v4 0x05050505 port), peerId := none }]
    addressTypes := [.direct]
    distance := none
    reliability := 0
    addressAuthority := authority }

/-- A signed view, with sequence 3. -/
def signedView : DHTNode ℕ :=
  viewAt 3 (some (.signed
    ⟨{ owner := 1, sequence := 3, records := [], publicKey := [], signature := [] }⟩))

/-- Two hints, a view from the owner's connection with sequence 9, and a signed one. -/
def mixedViews : List (DHTNode ℕ) :=
  [viewAt 1 none, viewAt 9 (some (.authenticatedOwner 9)), viewAt 2 none, signedView]

/-- The signed view wins, although its sequence is smaller and it comes first. -/
theorem mergeViews_mixedViews :
    (mergeViews mixedViews.reverse).map addresses = some signedView.addresses := by
  have hsigned : ∀ view ∈ mixedViews, view.OwnerProven →
      signedView.ownerVersion ≤ view.ownerVersion → view = signedView := by
    decide +kernel
  obtain ⟨newest, hmem, hnewest, hgreatest, hmerge⟩ :=
    mergeViews_of_perm (show ∀ view ∈ mixedViews, view.peerId = 1 by decide)
      ⟨signedView, by decide, by decide⟩ (by decide +kernel)
  obtain ⟨merged, -, hmerged, -, -, haddresses, -⟩ :=
    hmerge mixedViews.reverse (reverse_perm mixedViews)
  rw [hmerged, Option.map_some, haddresses, hsigned newest hmem hnewest
    (hgreatest signedView (by decide) (by decide))]

end Folds

end SaorsaCore.Manager
