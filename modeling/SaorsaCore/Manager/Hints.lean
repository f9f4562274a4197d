import SaorsaCore.Manager.Quorum

/-!
# Merging hints

`merge_from` mixes two records of one peer while nothing is established about either.  It
keeps addresses and tags in two lists that it pads, extends and zips again.  A record with
fewer tags than addresses is padded first.  One with more tags than addresses is not cut:
an address that is pushed then lands beside a surplus tag of the record, and its own tag
further back.  `mergeFrom_tags_iff` says for which pairs of records this is harmless.
-/

namespace SaorsaCore.Manager

open List AddressType Function IpAddr

variable {Score : Type*}

open DHTNode

/-! ## One pass over the hints -/

/-- The tag of a known address after another one was received for it. -/
def promote (current incoming : AddressType) : AddressType :=
  if incoming.priority < current.priority then incoming else current

theorem strongest_cons (tag : AddressType) (tags : List AddressType) :
    strongest (tag :: tags) = some (tags.foldl promote tag) := by
  induction tags using reverseRecOn with
  | nil => rfl
  | append_singleton tags last ih =>
    rw [strongest] at ih
    rw [foldl_concat, ← cons_append, strongest, argmin_concat, ih, promote]
    exact (apply_ite some _ _ _).symm

theorem mergeHint_known {addresses : List MultiAddr} {types : List AddressType}
    {pair : MultiAddr × AddressType} (hlength : addresses.length ≤ types.length)
    (hknown : pair.1 ∈ addresses) :
    mergeHint (addresses, types) pair =
      (addresses, types.modify (addresses.idxOf pair.1) fun tag => promote tag pair.2) := by
  have hindex := idxOf_lt_length_of_mem hknown
  have hfound : addresses.findIdx? (· == pair.1) = some (addresses.idxOf pair.1) :=
    findIdx?_eq_some_iff_findIdx_eq.mpr ⟨hindex, rfl⟩
  have hbound : addresses.idxOf pair.1 < types.length := hindex.trans_le hlength
  rw [mergeHint]
  simp only [hfound, getD_eq_getElem?_getD, getElem?_eq_getElem hbound, Option.getD_some]
  rw [modify_eq_set_get _ hbound, promote, get_eq_getElem]
  by_cases hbetter : pair.2.priority < types[addresses.idxOf pair.1].priority
  · rw [if_pos hbetter, if_pos hbetter]
  · rw [if_neg hbetter, if_neg hbetter, set_getElem_self]

theorem mergeHint_new {addresses : List MultiAddr} {types : List AddressType}
    {pair : MultiAddr × AddressType} (hnew : pair.1 ∉ addresses) :
    mergeHint (addresses, types) pair = (addresses ++ [pair.1], types ++ [pair.2]) := by
  have hfound : addresses.findIdx? (· == pair.1) = none := by
    rw [findIdx?_eq_none_iff]
    intro address hmem
    exact beq_false_of_ne fun heq => hnew (heq ▸ hmem)
  rw [mergeHint]
  simp only [hfound]

section Pass

variable (known : List MultiAddr) (types : List AddressType)
variable (hints : List (MultiAddr × AddressType))

/-- The addresses after a pass over the hints. -/
def heard : List MultiAddr :=
  (hints.map Prod.fst).foldl pushNew known

/-- The tag that is pushed together with an address. -/
def pushedTag (address : MultiAddr) : AddressType :=
  (tagsOf hints address).headD .unverified

/-- The tags as they first enter the list: the record's own, and one for each address
that is pushed. -/
def enteredTags : List AddressType :=
  types ++ ((heard known hints).drop known.length).map (pushedTag hints)

/-- The tags that are compared with the one at an index.  A repeated address of the record
is only found at its first index, and the first tag of a new address is not compared. -/
def compared (index : ℕ) : List AddressType :=
  match (heard known hints)[index]? with
  | none => []
  | some address =>
    if index < known.length then
      if known.idxOf address = index then tagsOf hints address else []
    else (tagsOf hints address).tail

/-- The tags after a pass over the hints. -/
def finalTags : List AddressType :=
  (enteredTags known types hints).mapIdx fun index tag =>
    (compared known hints index).foldl promote tag

theorem heard_eq : heard known hints = known ++ (heard known hints).drop known.length := by
  rw [heard, foldl_pushNew, drop_left]

variable {address : MultiAddr}

theorem mem_heard : address ∈ heard known hints ↔ address ∈ known ∨ address ∈ hints.map Prod.fst :=
  mem_foldl_pushNew

theorem heard_concat (pair : MultiAddr × AddressType) :
    heard known (hints ++ [pair]) = pushNew (heard known hints) pair.1 := by
  rw [heard, map_append, foldl_append]
  rfl

theorem length_known_le : known.length ≤ (heard known hints).length := by
  rw [heard_eq, length_append]
  exact Nat.le_add_right _ _

/-- Addresses that are pushed are new and were received. -/
theorem mem_fresh : address ∈ (heard known hints).drop known.length ↔
      address ∉ known ∧ address ∈ hints.map Prod.fst := by
  rw [heard, foldl_pushNew, drop_left, mem_eraseDups]
  simp [and_comm]

theorem nodup_fresh : ((heard known hints).drop known.length).Nodup := by
  rw [heard, foldl_pushNew, drop_left, ← nil_append (eraseDups _)]
  have heq := foldl_pushNew [] ((hints.map Prod.fst).filter fun address => address ∉ known)
  simp only [not_mem_nil, not_false_eq_true, decide_true, filter_true] at heq
  rw [← heq]
  exact nodup_foldl_pushNew nodup_nil _

theorem length_heard_le (hlength : known.length ≤ types.length) :
    (heard known hints).length ≤ (finalTags known types hints).length := by
  have hle := length_known_le known hints
  simp only [finalTags, enteredTags, length_mapIdx, length_append, length_map, length_drop]
  omega

/-- An address that is pushed stands at one index only. -/
theorem getElem_fresh {index : ℕ} (hindex : index < (heard known hints).length)
    (hfresh : known.length ≤ index) :
    (heard known hints)[index] ∉ known ∧ (heard known hints)[index] ∈ hints.map Prod.fst ∧
      (heard known hints).idxOf (heard known hints)[index] = index := by
  obtain ⟨offset, rfl⟩ := Nat.exists_eq_add_of_le hfresh
  have hoffset : offset < ((heard known hints).drop known.length).length := by
    rw [length_drop]
    omega
  have hget : (heard known hints)[known.length + offset] =
      ((heard known hints).drop known.length)[offset] := by
    rw [getElem_drop]
  have hmem := (mem_fresh known hints).mp (getElem_mem hoffset)
  rw [hget]
  refine ⟨hmem.1, hmem.2, ?_⟩
  nth_rewrite 2 [heard_eq]
  rw [idxOf_append_of_notMem hmem.1, List.Nodup.idxOf_getElem (nodup_fresh known hints)]

variable {known hints} in
theorem pushedTag_concat (pair : MultiAddr × AddressType) (hmem : address ∈ hints.map Prod.fst) :
    pushedTag (hints ++ [pair]) address = pushedTag hints address := by
  have hne : tagsOf hints address ≠ [] := fun hnil => tagsOf_eq_nil_iff.mp hnil hmem
  rw [pushedTag, tagsOf_concat, pushedTag]
  cases htags : tagsOf hints address with
  | nil => exact absurd htags hne
  | cons tag tags => rfl

variable {known hints} in
theorem enteredTags_known {pair : MultiAddr × AddressType} (hknown : pair.1 ∈ heard known hints) :
    enteredTags known types (hints ++ [pair]) = enteredTags known types hints := by
  rw [enteredTags, heard_concat, pushNew, if_pos hknown, enteredTags]
  congr 1
  apply map_congr_left
  intro address hmem
  exact pushedTag_concat pair ((mem_fresh known hints).mp hmem).2

variable {known hints} in
theorem enteredTags_new {pair : MultiAddr × AddressType} (hnew : pair.1 ∉ heard known hints) :
    enteredTags known types (hints ++ [pair]) = enteredTags known types hints ++ [pair.2] := by
  have hunheard : pair.1 ∉ hints.map Prod.fst :=
    fun hmem => hnew ((mem_heard known hints).mpr (.inr hmem))
  have hpushed : pushedTag (hints ++ [pair]) pair.1 = pair.2 := by
    rw [pushedTag, tagsOf_concat, tagsOf_eq_nil_iff.mpr hunheard, if_pos rfl]
    rfl
  rw [enteredTags, heard_concat, pushNew, if_neg hnew,
    drop_append_of_le_length (length_known_le known hints), map_append, enteredTags,
    map_singleton, hpushed, ← append_assoc]
  congr 2
  apply map_congr_left
  intro address hmem
  exact pushedTag_concat pair ((mem_fresh known hints).mp hmem).2

variable {known hints} in
theorem compared_new {pair : MultiAddr × AddressType} (hnew : pair.1 ∉ heard known hints)
    (index : ℕ) : compared known (hints ++ [pair]) index = compared known hints index := by
  have hle := length_known_le known hints
  have hunheard : tagsOf hints pair.1 = [] :=
    tagsOf_eq_nil_iff.mpr fun hmem => hnew ((mem_heard known hints).mpr (.inr hmem))
  rw [compared, heard_concat, pushNew, if_neg hnew, compared]
  rcases lt_trichotomy index (heard known hints).length with hlt | heq | hgt
  · have hmem := getElem_mem hlt
    have hne : pair.1 ≠ (heard known hints)[index] := fun heq => hnew (heq ▸ hmem)
    rw [getElem?_append_left hlt, getElem?_eq_getElem hlt]
    simp only [tagsOf_concat, if_neg hne, append_nil]
  · subst heq
    simp [tagsOf_concat, hunheard, hle]
  · rw [getElem?_eq_none (by simp; omega), getElem?_eq_none hgt.le]

variable {known hints} in
/-- A known address is compared where it is found. -/
theorem compared_known {pair : MultiAddr × AddressType} (hknown : pair.1 ∈ heard known hints)
    (index : ℕ) :
    compared known (hints ++ [pair]) index = compared known hints index ++
        if (heard known hints).idxOf pair.1 = index then [pair.2] else [] := by
  have hfirst := idxOf_lt_length_of_mem hknown
  rw [compared, heard_concat, pushNew, if_pos hknown, compared]
  by_cases hindex : index < (heard known hints).length
  · rw [getElem?_eq_getElem hindex]
    simp only [tagsOf_concat]
    by_cases heq : pair.1 = (heard known hints)[index]
    · rw [if_pos heq, ← heq]
      by_cases howned : index < known.length
      · have hmem : pair.1 ∈ known := by
          have hget : (heard known hints)[index] = known[index] := by
            simp only [heard, foldl_pushNew, getElem_append_left howned]
          exact heq.trans hget ▸ getElem_mem howned
        have hidx : (heard known hints).idxOf pair.1 = known.idxOf pair.1 := by
          rw [heard_eq, idxOf_append_of_mem hmem]
        rw [hidx, if_pos howned, if_pos howned]
        split <;> simp
      · obtain ⟨-, hheard, hidx⟩ := getElem_fresh known hints hindex (not_lt.mp howned)
        have hne : tagsOf hints pair.1 ≠ [] :=
          fun hnil => tagsOf_eq_nil_iff.mp hnil (heq ▸ hheard)
        rw [if_neg howned, if_neg howned, if_pos (heq ▸ hidx), tail_append_of_ne_nil hne]
    · have hidx : (heard known hints).idxOf pair.1 ≠ index := by
        rintro rfl
        exact heq (getElem_idxOf hfirst).symm
      rw [if_neg heq, if_neg hidx, append_nil, append_nil]
  · have hidx : (heard known hints).idxOf pair.1 ≠ index := by omega
    rw [getElem?_eq_none (not_lt.mp hindex), if_neg hidx]
    rfl

variable {types} in
/-- What a pass over the hints leaves. -/
theorem foldl_mergeHint (hlength : known.length ≤ types.length) :
    hints.foldl mergeHint (known, types) = (heard known hints, finalTags known types hints) := by
  induction hints using reverseRecOn with
  | nil =>
    have hnone : ∀ index, compared known [] index = [] := by
      intro index
      simp only [compared, tagsOf]
      split <;> simp
    simp only [heard, finalTags, enteredTags, hnone, map_nil, foldl_nil, drop_length, append_nil]
    rw [mapIdx_eq_ofFn, ofFn_get]
  | append_singleton hints pair ih =>
    have hle := length_heard_le known types hints hlength
    rw [foldl_concat, ih, heard_concat]
    by_cases hknown : pair.1 ∈ heard known hints
    · rw [mergeHint_known hle hknown, pushNew, if_pos hknown]
      congr 1
      apply ext_getElem?
      intro index
      rw [getElem?_modify]
      simp only [finalTags, enteredTags_known types hknown, getElem?_mapIdx,
        compared_known hknown, Option.map_eq_map, Option.map_map]
      congr 1
      funext tag
      by_cases hindex : (heard known hints).idxOf pair.1 = index <;> simp [hindex]
    · rw [mergeHint_new hknown, pushNew, if_neg hknown]
      congr 1
      have hlast : compared known hints (enteredTags known types hints).length = [] := by
        rw [compared, getElem?_eq_none (by simpa [finalTags] using hle)]
      simp only [finalTags, enteredTags_new types hknown, compared_new hknown,
        mapIdx_concat, hlast, foldl_nil]

/-- The pairs a pass leaves, by index. -/
theorem mem_zip_finalTags {pair : MultiAddr × AddressType} :
    pair ∈ (heard known hints).zip (finalTags known types hints) ↔
      ∃ index tag, (heard known hints)[index]? = some pair.1 ∧
        (enteredTags known types hints)[index]? = some tag ∧
        (compared known hints index).foldl promote tag = pair.2 := by
  rw [mem_iff_getElem?]
  simp only [getElem?_zip_eq_some, finalTags, getElem?_mapIdx, Option.map_eq_some_iff]
  grind

end Pass

theorem foldl_promote_mem (tag : AddressType) (tags : List AddressType) :
    tags.foldl promote tag ∈ tag :: tags :=
  List.argmin_mem (strongest_cons tag tags)

theorem foldl_promote_le {tag other : AddressType} {tags : List AddressType}
    (hmem : other ∈ tag :: tags) : (tags.foldl promote tag).priority ≤ other.priority :=
  List.le_of_mem_argmin hmem (strongest_cons tag tags)

/-! ## Two records -/

namespace DHTNode

/-- The addresses that only the other record has. -/
def freshAddresses (node other : DHTNode Score) : List MultiAddr :=
  (other.addresses.filter fun address => address ∉ node.addresses).eraseDups

/-- The tags these addresses land beside: the surplus tags of the record, and then the
tags that are pushed with them. -/
def landingTags (node other : DHTNode Score) : List AddressType :=
  node.addressTypes.drop node.addresses.length ++
    (node.freshAddresses other).map (pushedTag other.typedAddresses)

/-- Each fresh address has local scope, or it lands beside its own first tag, or the other
record repeats it with a tag that outranks both. -/
def TagsLand (node other : DHTNode Score) : Prop :=
  ∀ entry ∈ (node.freshAddresses other).zip (node.landingTags other), entry.1.ip.any IpAddr.isLan ∨
    entry.2 = pushedTag other.typedAddresses entry.1 ∨
    ∃ tag ∈ (tagsOf other.typedAddresses entry.1).tail, tag.priority ≤ entry.2.priority ∧
      tag.priority ≤ (pushedTag other.typedAddresses entry.1).priority

instance (node other : DHTNode Score) : Decidable (node.TagsLand other) :=
  inferInstanceAs (Decidable (∀ entry ∈ _, _))

/-- A record with the addresses of two others, each with the strongest tag that one of
them gives it. -/
structure Joins (merged node other : DHTNode Score) : Prop where
  addresses : ∀ address, address ∈ merged.addresses ↔
    address ∈ node.addresses ∨ address ∈ other.addresses
  tags : ∀ address ∈ merged.addresses, strongestTag merged.typedAddresses address =
    strongestTag (node.typedAddresses ++ other.typedAddresses) address

theorem map_fst_typedAddresses (node : DHTNode Score) :
    node.typedAddresses.map Prod.fst = node.addresses := by
  apply ext_getElem?
  intro index
  simp [typedAddresses, comp_def]

theorem map_canonical_typedAddresses (node : DHTNode Score) :
    node.typedAddresses.map canonical = node.typedAddresses := by
  apply ext_getElem?
  intro index
  simp [typedAddresses, canonical, comp_def]

theorem tagsOf_map_canonical (typed : List (MultiAddr × AddressType)) (address : MultiAddr) :
    tagsOf (typed.map canonical) address =
      (tagsOf typed address).map (forAdvertisedAddress address) := by
  rw [tagsOf, filter_map, map_map, tagsOf, map_map]
  apply map_congr_left
  intro pair hmem
  have heq : pair.1 = address := of_decide_eq_true (mem_filter.mp hmem).2
  rw [comp_apply, comp_apply, canonical, heq]

variable {address : MultiAddr}

/-- Local-scope addresses have one tag only. -/
theorem strongestTag_of_isLan (hlan : address.ip.any isLan)
    {typed others : List (MultiAddr × AddressType)} (htyped : address ∈ typed.map Prod.fst)
    (hothers : address ∈ others.map Prod.fst) :
    strongestTag (typed.map canonical) address = strongestTag (others.map canonical) address := by
  have hmatched {left right : List (MultiAddr × AddressType)}
      (hright : address ∈ right.map Prod.fst) :
      Matched (tagsOf (left.map canonical) address) (tagsOf (right.map canonical) address) := by
    intro tag htag
    rw [tagsOf_map_canonical] at htag ⊢
    obtain ⟨advertised, -, rfl⟩ := mem_map.mp htag
    obtain ⟨⟨_, other⟩, hother, rfl⟩ := mem_map.mp hright
    refine ⟨_, mem_map_of_mem (mem_tagsOf.mpr hother), ?_⟩
    simp [forAdvertisedAddress, hlan]
  exact strongest_congr (hmatched hothers) (hmatched htyped)

theorem strongestTag_of_not_isLan (hlan : ¬address.ip.any isLan)
    (typed : List (MultiAddr × AddressType)) :
    strongestTag (typed.map canonical) address = strongestTag typed address := by
  have hid : forAdvertisedAddress address = id := by
    funext advertised
    rw [forAdvertisedAddress, if_neg hlan, id]
  rw [strongestTag, tagsOf_map_canonical, hid, map_id, strongestTag]

variable (node other : DHTNode Score)

/-- The pairs before they are sorted. -/
def hinted : List (MultiAddr × AddressType) :=
  (heard node.addresses other.typedAddresses).zip
    (finalTags node.addresses node.mergeableTypes other.typedAddresses)

theorem length_le_mergeableTypes : node.addresses.length ≤ node.mergeableTypes.length := by
  simp [mergeableTypes, typedAddresses]

theorem drop_heard : (heard node.addresses other.typedAddresses).drop node.addresses.length =
      node.freshAddresses other := by
  rw [heard, map_fst_typedAddresses, foldl_pushNew, drop_left, freshAddresses]

theorem enteredTags_eq : enteredTags node.addresses node.mergeableTypes other.typedAddresses =
      node.typedAddresses.map Prod.snd ++ node.landingTags other := by
  rw [enteredTags, drop_heard, mergeableTypes, landingTags, append_assoc]

theorem map_fst_hinted :
    (node.hinted other).map Prod.fst = heard node.addresses other.typedAddresses :=
  List.map_fst_zip (length_heard_le _ _ _ node.length_le_mergeableTypes)

/-- A merged record lists these pairs, in order of their tags. -/
theorem mergeHints_perm [LT Score] [DecidableLT Score] :
    (node.mergeHints other).addresses.Perm (heard node.addresses other.typedAddresses) ∧
      (node.mergeHints other).typedAddresses.Perm ((node.hinted other).map canonical) := by
  have hpairs := perm_insertionSort
    (fun left right : MultiAddr × AddressType => left.2.priority ≤ right.2.priority)
    (node.hinted other)
  have hpass := foldl_mergeHint node.addresses other.typedAddresses node.length_le_mergeableTypes
  have htyped : (node.mergeHints other).typedAddresses =
      ((node.hinted other).insertionSort fun left right =>
        left.2.priority ≤ right.2.priority).map canonical := by
    have hread (pairs : List (MultiAddr × AddressType)) :
        pairs.map canonical = (node.withTyped pairs).typedAddresses :=
      (typedAddresses_withTyped node pairs).symm
    rw [hread, hinted, mergeHints]
    simp only [hpass]
    rfl
  constructor
  · rw [← map_fst_typedAddresses, htyped, map_map, ← map_fst_hinted]
    exact hpairs.map _
  · rw [htyped]
    exact hpairs.map _

variable {node other}

theorem getElem?_heard_known {index : ℕ} (hknown : address ∈ node.addresses) :
    (heard node.addresses other.typedAddresses)[index]? = some address ↔
      node.addresses[index]? = some address := by
  by_cases hindex : index < node.addresses.length
  · rw [heard_eq, List.getElem?_append_left hindex]
  · rw [List.getElem?_eq_none (not_lt.mp hindex)]
    constructor
    · intro hget
      obtain ⟨hbound, heq⟩ := List.getElem?_eq_some_iff.mp hget
      have hfresh := getElem_fresh node.addresses other.typedAddresses hbound (not_lt.mp hindex)
      exact absurd hknown (heq ▸ hfresh.1)
    · intro hnone
      exact absurd hnone.symm (Option.some_ne_none _)

theorem getElem?_heard_fresh {index : ℕ} (hfresh : address ∉ node.addresses)
    (hget : (heard node.addresses other.typedAddresses)[index]? = some address) :
    (heard node.addresses other.typedAddresses).idxOf address = index := by
  obtain ⟨hbound, rfl⟩ := List.getElem?_eq_some_iff.mp hget
  by_cases hindex : index < node.addresses.length
  · have hmem : node.addresses[index] = (heard node.addresses other.typedAddresses)[index] := by
      simp only [heard, foldl_pushNew, List.getElem_append_left hindex]
    exact absurd (List.getElem_mem hindex) (hmem ▸ hfresh)
  · exact (getElem_fresh node.addresses other.typedAddresses hbound (not_lt.mp hindex)).2.2

/-- An address of the record keeps its tags, and the one at its first index is compared with
all that the other record has for it. -/
theorem mem_hinted_known {tag : AddressType} (hknown : address ∈ node.addresses) :
    (address, tag) ∈ node.hinted other ↔
      ∃ index own, node.typedAddresses[index]? = some (address, own) ∧
        (if node.addresses.idxOf address = index then tagsOf other.typedAddresses address
          else []).foldl promote own = tag := by
  rw [hinted, mem_zip_finalTags, enteredTags_eq]
  simp only [getElem?_heard_known hknown]
  refine exists_congr fun index => exists_congr fun own => ?_
  rw [← and_assoc]
  by_cases hget : node.addresses[index]? = some address
  · have hindex : index < node.addresses.length := (List.getElem?_eq_some_iff.mp hget).1
    have hlength : index < (node.typedAddresses.map Prod.snd).length := by
      simpa [typedAddresses] using hindex
    have hcompared : compared node.addresses other.typedAddresses index =
        if node.addresses.idxOf address = index then tagsOf other.typedAddresses address
        else [] := by
      rw [compared, (getElem?_heard_known hknown).mpr hget]
      simp only [if_pos hindex]
    rw [List.getElem?_append_left hlength, hcompared]
    simp [typedAddresses, hget]
  · have htyped : node.typedAddresses[index]? ≠ some (address, own) := by
      intro htyped
      apply hget
      rw [← map_fst_typedAddresses, List.getElem?_map, htyped]
      rfl
    simp only [hget, htyped, false_and]

/-- The tags of an address of the record itself are never wrong. -/
theorem strongestTag_hinted_known (hknown : address ∈ node.addresses) :
    strongestTag (node.hinted other) address =
      strongestTag (node.typedAddresses ++ other.typedAddresses) address := by
  rw [strongestTag, strongestTag, tagsOf_append]
  apply strongest_congr
  · apply Matched.of_subset
    intro tag htag
    obtain ⟨index, own, hown, rfl⟩ := (mem_hinted_known hknown).mp (mem_tagsOf.mp htag)
    have hmem : own ∈ tagsOf node.typedAddresses address :=
      mem_tagsOf.mpr (mem_of_getElem? hown)
    rw [mem_append]
    split
    · rcases mem_cons.mp (foldl_promote_mem own (tagsOf other.typedAddresses address))
        with heq | hother
      · rw [heq]
        exact .inl hmem
      · exact .inr hother
    · exact .inl hmem
  · intro tag htag
    rcases mem_append.mp htag with howned | hother
    · obtain ⟨index, hget⟩ := mem_iff_getElem?.mp (mem_tagsOf.mp howned)
      exact ⟨_, mem_tagsOf.mpr ((mem_hinted_known hknown).mpr ⟨index, tag, hget, rfl⟩),
        foldl_promote_le mem_cons_self⟩
    · have hindex := idxOf_lt_length_of_mem hknown
      have hget : node.typedAddresses[node.addresses.idxOf address]? =
          some (address, forAdvertisedAddress address
            (node.addressTypes.getD (node.addresses.idxOf address) .unverified)) := by
        simp [typedAddresses, hindex]
      refine ⟨_, mem_tagsOf.mpr ((mem_hinted_known hknown).mpr ⟨_, _, hget, rfl⟩), ?_⟩
      rw [if_pos rfl]
      exact foldl_promote_le (mem_cons_of_mem _ hother)

/-- The pair of an address that is pushed: the tag it landed beside, compared with those of
its repetitions. -/
theorem mem_hinted_fresh {landed tag : AddressType}
    (hlands : (address, landed) ∈ (node.freshAddresses other).zip (node.landingTags other)) :
    (address, tag) ∈ node.hinted other ↔
      (tagsOf other.typedAddresses address).tail.foldl promote landed = tag := by
  obtain ⟨offset, hoffset⟩ := List.mem_iff_getElem?.mp hlands
  obtain ⟨haddress, hlanded⟩ := List.getElem?_zip_eq_some.mp hoffset
  have hheard : (heard node.addresses other.typedAddresses)[node.addresses.length + offset]? =
      some address := by
    rw [← List.getElem?_drop, drop_heard, haddress]
  obtain ⟨hbound, hget⟩ := List.getElem?_eq_some_iff.mp hheard
  have hfresh := getElem_fresh node.addresses other.typedAddresses hbound (Nat.le_add_right _ _)
  rw [hget] at hfresh
  have hentered : (enteredTags node.addresses node.mergeableTypes
      other.typedAddresses)[node.addresses.length + offset]? = some landed := by
    have hlength : (node.typedAddresses.map Prod.snd).length = node.addresses.length := by
      simp [typedAddresses]
    rw [enteredTags_eq, List.getElem?_append_right (hlength ▸ Nat.le_add_right _ _), hlength,
      Nat.add_sub_cancel_left, hlanded]
  have hcompared : compared node.addresses other.typedAddresses
      (node.addresses.length + offset) = (tagsOf other.typedAddresses address).tail := by
    rw [compared, hheard]
    simp
  rw [hinted, mem_zip_finalTags, ← hcompared]
  constructor
  · rintro ⟨index, entered, hindex, htag, hfinal⟩
    have heq : index = node.addresses.length + offset := by
      rw [← hfresh.2.2]
      exact (getElem?_heard_fresh hfresh.1 hindex).symm
    subst heq
    rw [hentered] at htag
    rw [Option.some.inj htag, hfinal]
  · intro hfinal
    exact ⟨_, landed, hheard, hentered, hfinal⟩

theorem strongestTag_hinted_fresh {landed : AddressType}
    (hlands : (address, landed) ∈ (node.freshAddresses other).zip (node.landingTags other)) :
    strongestTag (node.hinted other) address =
      strongest (landed :: (tagsOf other.typedAddresses address).tail) := by
  rw [strongest_cons]
  change strongest _ = strongest [_]
  apply strongest_congr <;> apply Matched.of_subset <;> intro tag htag
  · exact mem_singleton.mpr ((mem_hinted_fresh hlands).mp (mem_tagsOf.mp htag)).symm
  · exact mem_tagsOf.mpr ((mem_hinted_fresh hlands).mpr (mem_singleton.mp htag).symm)

/-- What an address that is pushed should have. -/
theorem strongestTag_fresh (hfresh : address ∈ node.freshAddresses other) :
    strongestTag (node.typedAddresses ++ other.typedAddresses) address =
      strongest (pushedTag other.typedAddresses address ::
        (tagsOf other.typedAddresses address).tail) := by
  rw [freshAddresses, mem_eraseDups, mem_filter, decide_eq_true_eq] at hfresh
  have hnil : tagsOf node.typedAddresses address = [] := by
    rw [tagsOf_eq_nil_iff, map_fst_typedAddresses]
    exact hfresh.2
  have hne : tagsOf other.typedAddresses address ≠ [] := by
    rw [ne_eq, tagsOf_eq_nil_iff, map_fst_typedAddresses, not_not]
    exact hfresh.1
  rw [strongestTag, tagsOf_append, hnil, nil_append, pushedTag]
  cases htags : tagsOf other.typedAddresses address with
  | nil => exact absurd htags hne
  | cons tag tags => rfl

/-- Every fresh address lands somewhere. -/
theorem exists_landed (hfresh : address ∈ node.freshAddresses other) : ∃ landed,
      (address, landed) ∈ (node.freshAddresses other).zip (node.landingTags other) := by
  have hlength : (node.freshAddresses other).length ≤ (node.landingTags other).length := by
    simp [landingTags]
  have hmem : address ∈ ((node.freshAddresses other).zip (node.landingTags other)).map
      Prod.fst := by
    rw [map_fst_zip hlength]
    exact hfresh
  obtain ⟨⟨_, landed⟩, hlanded, rfl⟩ := mem_map.mp hmem
  exact ⟨landed, hlanded⟩

variable (node other) in
theorem mem_heard_iff {address : MultiAddr} : address ∈ heard node.addresses other.typedAddresses ↔
      address ∈ node.addresses ∨ address ∈ other.addresses := by
  rw [mem_heard, map_fst_typedAddresses]

theorem strongestTag_mergeHints [LT Score] [DecidableLT Score]
    (hmem : address ∈ heard node.addresses other.typedAddresses) :
    strongestTag (node.mergeHints other).typedAddresses address =
        strongestTag (node.typedAddresses ++ other.typedAddresses) address ↔
      address.ip.any isLan ∨ strongestTag (node.hinted other) address =
        strongestTag (node.typedAddresses ++ other.typedAddresses) address := by
  rw [strongestTag_perm (node.mergeHints_perm other).2]
  have hcanonical : (node.typedAddresses ++ other.typedAddresses).map canonical =
      node.typedAddresses ++ other.typedAddresses := by
    rw [map_append, map_canonical_typedAddresses, map_canonical_typedAddresses]
  by_cases hlan : address.ip.any isLan
  · have hboth : address ∈ (node.typedAddresses ++ other.typedAddresses).map Prod.fst := by
      rw [map_append, map_fst_typedAddresses, map_fst_typedAddresses, mem_append]
      exact (mem_heard_iff node other).mp hmem
    have heq := strongestTag_of_isLan hlan ((node.map_fst_hinted other).symm ▸ hmem) hboth
    rw [hcanonical] at heq
    simp only [heq, hlan, true_or]
  · rw [strongestTag_of_not_isLan hlan]
    simp only [hlan, Bool.false_eq_true, false_or]

theorem joins_mergeHints_iff [LT Score] [DecidableLT Score] :
    (node.mergeHints other).Joins node other ↔ node.TagsLand other := by
  have haddresses (address : MultiAddr) : address ∈ (node.mergeHints other).addresses ↔
      address ∈ heard node.addresses other.typedAddresses :=
    (node.mergeHints_perm other).1.mem_iff
  constructor
  · rintro ⟨-, htags⟩ ⟨address, landed⟩ hlands
    have hfresh := (of_mem_zip hlands).1
    have hmem : address ∈ heard node.addresses other.typedAddresses := by
      rw [← drop_heard] at hfresh
      exact mem_of_mem_drop hfresh
    have htag := (strongestTag_mergeHints hmem).mp (htags address ((haddresses address).mpr hmem))
    rwa [strongestTag_hinted_fresh hlands, strongestTag_fresh hfresh, strongest_cons_eq_iff] at htag
  · intro hland
    constructor
    · intro address
      rw [haddresses, mem_heard_iff]
    · intro address hmem
      rw [haddresses] at hmem
      rw [strongestTag_mergeHints hmem]
      by_cases hknown : address ∈ node.addresses
      · exact .inr (strongestTag_hinted_known hknown)
      · have hfresh : address ∈ node.freshAddresses other := by
          rw [← drop_heard, mem_fresh, map_fst_typedAddresses]
          exact ⟨hknown, ((mem_heard_iff node other).mp hmem).resolve_left hknown⟩
        obtain ⟨landed, hlands⟩ := exists_landed hfresh
        rw [strongestTag_hinted_fresh hlands, strongestTag_fresh hfresh, strongest_cons_eq_iff]
        exact hland _ hlands

/-- `merge_from` gives every address the strongest tag the two records hold for it, exactly
when the tag that lands beside each added address makes no difference to this. -/
theorem mergeFrom_tags_iff [LT Score] [DecidableLT Score] (node other : DHTNode Score)
    (hpeer : node.peerId = other.peerId) (hnode : ¬node.OwnerProven)
    (hother : ¬other.OwnerProven) :
    (node.mergeFrom other).Joins node other ↔ node.TagsLand other := by
  have hmerge : node.mergeFrom other = node.mergeHints other := by
    simp only [OwnerProven, not_not] at hnode hother
    simp [mergeFrom, hpeer, hnode, hother]
  rw [hmerge, joins_mergeHints_iff]

/-- A hint about peer 1 with one address and these tags. -/
def tagged (port : BitVec 16) (types : List AddressType) : DHTNode ℕ :=
  { viewAt port none with addressTypes := types }

theorem mergeFrom_tags_padded :
    ((tagged 1 []).mergeFrom (tagged 2 [.relay, .direct])).Joins (tagged 1 [])
      (tagged 2 [.relay, .direct]) :=
  (mergeFrom_tags_iff (tagged 1 []) (tagged 2 [.relay, .direct]) rfl (by decide)
    (by decide)).mpr (by decide +kernel)

/-- The surplus tag of one record is given to the address of the other. -/
theorem surplus_tag_misplaced :
    ¬∀ node other : DHTNode ℕ, node.peerId = other.peerId → ¬node.OwnerProven →
      ¬other.OwnerProven → (node.mergeFrom other).Joins node other := by
  intro hclaim
  have hjoins := hclaim (tagged 1 [.direct, .relay]) (tagged 2 [.unverified]) rfl (by decide)
    (by decide)
  have htags := hjoins.tags { transport := .quic (.v4 0x05050505 2), peerId := none }
    (by decide +kernel)
  exact absurd htags (by decide +kernel)

end DHTNode

end SaorsaCore.Manager
