import SaorsaCore.Address.Tags
import SaorsaCore.Routing.Slots

/-!
# What one merge does to a list

A record keeps at most one address for each slot, so a merged address meets at most one
rival.  Without a rival the cap keeps the whole list and only its length can cut it.  With
one, the cap drops exactly one of the two: the merged address if it is unverified and the
rival direct, the rival otherwise.
-/

namespace SaorsaCore.Routing

open List Positions

variable {typed front back : List (MultiAddr × AddressType)}
  {entry rival : MultiAddr × AddressType} {key : Bool × AddressSlot}

/-! ## Positions of a slot -/

variable {left right : MultiAddr × AddressType}

theorem Exclusive.position_unique (hexclusive : Exclusive typed) {first second : ℕ}
    (hfirst : typed[first]? = some left) (hsecond : typed[second]? = some right)
    (hleft : slotOf left = some key) (hright : slotOf right = some key) : first = second := by
  obtain ⟨hfirstBound, rfl⟩ := List.getElem?_eq_some_iff.mp hfirst
  obtain ⟨hsecondBound, rfl⟩ := List.getElem?_eq_some_iff.mp hsecond
  have hpairwise := List.pairwise_iff_getElem.mp hexclusive
  rcases Nat.lt_trichotomy first second with hlt | heq | hlt
  · have hvacant := hpairwise first second hfirstBound hsecondBound hlt (hleft.trans hright.symm)
    rw [hleft] at hvacant
    cases hvacant
  · exact heq
  · have hvacant := hpairwise second first hsecondBound hfirstBound hlt (hright.trans hleft.symm)
    rw [hright] at hvacant
    cases hvacant

/-- Apart from one entry, no two compete. -/
theorem Exclusive.position_unique_of_ne {spare : ℕ}
    (hexclusive : Exclusive (typed.eraseIdx spare)) {first second : ℕ}
    (hfirst : typed[first]? = some left) (hsecond : typed[second]? = some right)
    (hleft : slotOf left = some key) (hright : slotOf right = some key)
    (hfirstNe : first ≠ spare) (hsecondNe : second ≠ spare) : first = second := by
  have hplace := hexclusive.position_unique ((getElem?_eraseIdx_of_ne hfirstNe).trans hfirst)
    ((getElem?_eraseIdx_of_ne hsecondNe).trans hsecond) hleft hright
  split_ifs at hplace <;> omega

variable {few : List (MultiAddr × AddressType)}

theorem preferred_ne_none {slot : AddressSlot} (hfew : few ≠ []) : preferred slot few ≠ none := by
  cases slot with
  | relay => simpa [preferred] using hfew
  | wan => simp [preferred, hfew]
  | lan => simpa [preferred] using hfew

theorem mem_claimants_of_preferred {slot : AddressSlot}
    (hpreferred : preferred slot few = some entry) : entry ∈ few := by
  cases slot with
  | relay => exact mem_of_head? hpreferred
  | wan =>
    rcases Option.or_eq_some_iff.mp hpreferred with hdirect | ⟨-, hfirst⟩
    · exact mem_of_find?_eq_some hdirect
    · exact mem_of_head? hfirst
  | lan => exact mem_of_getLast? hpreferred

namespace NodeInfo

variable {node : NodeInfo}

/-! ## What the cap drops -/

theorem mem_keptPositions_iff (hparallel : node.Parallel) {position : ℕ}
    (hentry : node.typed[position]? = some entry) :
    position ∈ node.keptPositions ↔ ∀ key, slotOf entry = some key →
      slotHolder node.addresses node.addressTypes key.1 key.2 = some position := by
  have hbound : position < node.addresses.length :=
    hparallel.length_typed ▸ (List.getElem?_eq_some_iff.mp hentry).1
  constructor
  · intro hkept key hslot
    exact slotHolder_of_mem_keptPositions hparallel hkept hentry hslot
  · intro hholder
    cases hslot : slotOf entry with
    | some key => exact mem_keptPositions_of_slotHolder hparallel (hholder key hslot) hbound
    | none =>
      have haddress := (List.getElem?_zip_eq_some.mp hentry).1
      rw [keptPositions, List.mem_filter]
      exact ⟨List.mem_range.mpr hbound, by simp [haddress, slotOf_eq_none_iff.mp hslot]⟩

/-- Every slot that is asked for has a holder. -/
theorem exists_slotHolder (hparallel : node.Parallel) (hentry : entry ∈ node.typed)
    (hslot : slotOf entry = some key) :
    ∃ holder value, slotHolder node.addresses node.addressTypes key.1 key.2 = some holder ∧
      node.typed[holder]? = some value ∧ slotOf value = some key ∧
      preferred key.2 (claimants node.typed key) = some value := by
  have hclaims : entry ∈ claimants node.typed key :=
    mem_filter.mpr ⟨hentry, by simp [hslot]⟩
  have hsome : preferred key.2 (claimants node.typed key) ≠ none :=
    preferred_ne_none (ne_nil_of_mem hclaims)
  obtain ⟨value, hvalue⟩ := Option.ne_none_iff_exists'.mp hsome
  have hholder := bind_slotHolder hparallel key.1 key.2
  rw [Prod.mk.eta, hvalue] at hholder
  obtain ⟨holder, hposition, hfound⟩ := Option.bind_eq_some_iff.mp hholder
  exact ⟨holder, value, hposition, hfound,
    slotOf_of_mem_claimants (mem_claimants_of_preferred hvalue), hvalue⟩

theorem typed_enforcePerIpFamilyCap_of_exclusive (hparallel : node.Parallel)
    (hexclusive : Exclusive node.typed) : node.enforcePerIpFamilyCap.typed = node.typed := by
  have hall : node.keptPositions = range node.addresses.length := by
    apply filter_eq_self.mpr
    intro position hrange
    have hbound : position < node.typed.length :=
      hparallel.length_typed.symm ▸ mem_range.mp hrange
    have hentry := getElem?_eq_getElem hbound
    have hkept : position ∈ node.keptPositions := by
      rw [mem_keptPositions_iff hparallel hentry]
      intro key hslot
      obtain ⟨holder, value, hholder, hvalue, hsame, -⟩ :=
        exists_slotHolder hparallel (mem_of_getElem? hentry) hslot
      rw [hholder, hexclusive.position_unique hvalue hentry hsame hslot]
    exact (mem_filter.mp hkept).2
  rw [typed_enforcePerIpFamilyCap hparallel, hall, ← hparallel.length_typed, select_range_length]

/-- If the cap keeps all positions but one, it erases that one. -/
theorem typed_enforcePerIpFamilyCap_of_loser (hparallel : node.Parallel) {loser : ℕ}
    (hkept : ∀ position entry, node.typed[position]? = some entry →
      (position ∈ node.keptPositions ↔ position ≠ loser)) :
    node.enforcePerIpFamilyCap.typed = node.typed.eraseIdx loser := by
  have hfilter : node.keptPositions =
      (range node.addresses.length).filter fun position => position ≠ loser := by
    apply filter_congr
    intro position hrange
    have hbound : position < node.typed.length :=
      hparallel.length_typed.symm ▸ mem_range.mp hrange
    have hiff := hkept position _ (getElem?_eq_getElem hbound)
    rw [keptPositions, mem_filter] at hiff
    rw [Bool.eq_iff_iff, decide_eq_true_eq, ← hiff]
    exact (and_iff_right hrange).symm
  rw [typed_enforcePerIpFamilyCap hparallel, hfilter, ← hparallel.length_typed, select_filter_ne]

/-! ## One address too many -/

section Spare

variable (hparallel : node.Parallel) {spare : ℕ} (hspare : Exclusive (node.typed.eraseIdx spare))
  (hentry : node.typed[spare]? = some entry) (hslot : slotOf entry = some key)

include hparallel hspare hentry hslot

/-- One entry too many only matters for its own slot. -/
theorem mem_keptPositions_of_slotOf_ne {position : ℕ} {other : MultiAddr × AddressType}
    (hposition : node.typed[position]? = some other) (hother : slotOf other ≠ some key) :
    position ∈ node.keptPositions := by
  rw [mem_keptPositions_iff hparallel hposition]
  intro asked hasked
  have hapart : ∀ place claimant, node.typed[place]? = some claimant →
      slotOf claimant = some asked → place ≠ spare := by
    rintro _ claimant hplace hclaimant rfl
    rw [hentry, Option.some.injEq] at hplace
    rw [← hplace, hslot] at hclaimant
    exact hother (hasked.trans hclaimant.symm)
  obtain ⟨holder, value, hholder, hvalue, hsame, -⟩ :=
    exists_slotHolder hparallel (mem_of_getElem? hposition) hasked
  rw [hholder, hspare.position_unique_of_ne hvalue hposition hsame hasked
    (hapart holder value hvalue hsame) (hapart position other hposition hasked)]

/-- Of two entries that ask for the slot, the cap erases the one that does not hold it. -/
theorem typed_cap_of_slotHolder {winner loser : ℕ} (hne : loser ≠ winner)
    (hwinner : slotHolder node.addresses node.addressTypes key.1 key.2 = some winner)
    (hloser : ∃ value, node.typed[loser]? = some value ∧ slotOf value = some key)
    (honly : ∀ position claimant, node.typed[position]? = some claimant →
      slotOf claimant = some key → position = winner ∨ position = loser) :
    node.enforcePerIpFamilyCap.typed = node.typed.eraseIdx loser := by
  apply typed_enforcePerIpFamilyCap_of_loser hparallel
  intro position claimant hposition
  constructor
  · rintro hkept rfl
    obtain ⟨value, hvalue, hsame⟩ := hloser
    have hagain := (mem_keptPositions_iff hparallel hvalue).mp hkept key hsame
    rw [hwinner, Option.some.injEq] at hagain
    exact hne hagain.symm
  · intro hkept
    by_cases hclaims : slotOf claimant = some key
    · have hplace := (honly position claimant hposition hclaims).resolve_right hkept
      rw [mem_keptPositions_iff hparallel hposition]
      intro asked hasked
      rw [hclaims, Option.some.injEq] at hasked
      rw [← hasked, hwinner, hplace]
    · exact mem_keptPositions_of_slotOf_ne hparallel hspare hentry hslot hposition hclaims

/-- The holder of the slot and the other one that asks for it. -/
theorem exists_winner {other : ℕ} (hother : node.typed[other]? = some rival)
    (hrival : slotOf rival = some key) (hne : other ≠ spare) :
    ∃ winner loser, node.typed[winner]? = preferred key.2 (claimants node.typed key) ∧
      (winner = spare ∧ loser = other ∨ winner = other ∧ loser = spare) ∧
      node.enforcePerIpFamilyCap.typed = node.typed.eraseIdx loser := by
  obtain ⟨winner, value, hholder, hwinner, hvalue, hpreferred⟩ :=
    exists_slotHolder hparallel (mem_of_getElem? hentry) hslot
  have honly : ∀ position claimant, node.typed[position]? = some claimant →
      slotOf claimant = some key → position = spare ∨ position = other := by
    intro position claimant hposition hclaimant
    by_cases hplace : position = spare
    · exact .inl hplace
    · exact .inr (hspare.position_unique_of_ne hposition hother hclaimant hrival hplace hne)
  rcases honly winner value hwinner hvalue with rfl | rfl
  · exact ⟨winner, other, hwinner.trans hpreferred.symm, .inl ⟨rfl, rfl⟩,
      typed_cap_of_slotHolder hparallel hspare hentry hslot hne hholder
        ⟨rival, hother, hrival⟩ honly⟩
  · exact ⟨winner, spare, hwinner.trans hpreferred.symm, .inr ⟨rfl, rfl⟩,
      typed_cap_of_slotHolder hparallel hspare hentry hslot hne.symm hholder
        ⟨entry, hentry, hslot⟩ fun position claimant hposition hclaimant =>
          (honly position claimant hposition hclaimant).symm⟩

end Spare

section Insertion

variable (node) (hexclusive : Exclusive (front ++ back)) (hlast : entry.2 = .lan → back = [])
  (hfirst : entry.2 ≠ .lan → ∀ other ∈ front, other.2.priority < entry.2.priority)
  (hslot : slotOf entry = some key) (hrival : slotsOf (front ++ back) key = some rival)

include hexclusive hslot hrival in
/-- Of the new entry and its rival one position loses, and the cap erases it. -/
theorem exists_loser : ∃ winner loser, (front ++ entry :: back)[winner]? =
        preferred key.2 (claimants (front ++ entry :: back) key) ∧
      (winner = front.length ∧ (front ++ entry :: back)[loser]? = some rival ∨
        (front ++ entry :: back)[winner]? = some rival ∧ loser = front.length) ∧
      (node.withTyped (front ++ entry :: back)).enforcePerIpFamilyCap.typed =
        (front ++ entry :: back).eraseIdx loser := by
  have hparallel := parallel_withTyped node (front ++ entry :: back)
  have htyped := typed_withTyped node (front ++ entry :: back)
  have hentry : (front ++ entry :: back)[front.length]? = some entry := by simp
  have hspare : Exclusive ((front ++ entry :: back).eraseIdx front.length) := by
    rwa [eraseIdx_length_append]
  -- The rival stands somewhere else in the list.
  obtain ⟨hrivalMem, hrivalSlot⟩ := hexclusive.slotsOf_eq_some_iff.mp hrival
  obtain ⟨other, hne, hother⟩ : ∃ other, other ≠ front.length ∧
      (front ++ entry :: back)[other]? = some rival := by
    rcases mem_append.mp hrivalMem with hmem | hmem
    · obtain ⟨place, hbound, rfl⟩ := mem_iff_getElem.mp hmem
      exact ⟨place, hbound.ne, by simp [getElem?_append_left hbound]⟩
    · obtain ⟨place, hbound, rfl⟩ := mem_iff_getElem.mp hmem
      exact ⟨front.length + (place + 1), by omega, by simp [getElem?_append_right]⟩
  rw [← htyped] at hspare hentry hother
  obtain ⟨winner, loser, hwinner, hsides, hcapped⟩ :=
    exists_winner hparallel hspare hentry hslot hother hrivalSlot hne
  rw [htyped] at hwinner hcapped hother
  refine ⟨winner, loser, hwinner, ?_, hcapped⟩
  rcases hsides with ⟨rfl, rfl⟩ | ⟨rfl, rfl⟩
  · exact .inl ⟨rfl, hother⟩
  · exact .inr ⟨hother, rfl⟩

include hexclusive hlast hfirst hslot hrival

/-- A direct rival stays, and the unverified entry is dropped again. -/
theorem typed_cap_refused (hweak : entry.2 = .unverified ∧ rival.2 = .direct) :
    (node.withTyped (front ++ entry :: back)).enforcePerIpFamilyCap.typed = front ++ back := by
  obtain ⟨winner, loser, hwinner, hsides, hcapped⟩ :=
    exists_loser node hexclusive hslot hrival
  rw [preferred_claimants_insert hexclusive hlast hfirst, Slots.put_of_slotOf _ hslot,
    hrival, if_pos (by simpa using hweak)] at hwinner
  rcases hsides with ⟨rfl, -⟩ | ⟨-, rfl⟩
  · have hsame : entry = rival := by simpa using hwinner
    rw [hsame, hweak.2] at hweak
    cases hweak.1
  · rw [hcapped, eraseIdx_length_append]

/-- Any other rival gives way. -/
theorem typed_cap_displaced (hstrong : ¬(entry.2 = .unverified ∧ rival.2 = .direct)) :
    (node.withTyped (front ++ entry :: back)).enforcePerIpFamilyCap.typed.Perm
      (entry :: (front ++ back).erase rival) := by
  obtain ⟨winner, loser, hwinner, hsides, hcapped⟩ :=
    exists_loser node hexclusive hslot hrival
  rw [preferred_claimants_insert hexclusive hlast hfirst, Slots.put_of_slotOf _ hslot,
    hrival, if_neg (by simpa using hstrong)] at hwinner
  have hloser : (front ++ entry :: back)[loser]? = some rival := by
    rcases hsides with ⟨-, hloser⟩ | ⟨hrivalWins, rfl⟩
    · exact hloser
    · rw [← hrivalWins, hwinner]
      simp
  have hmem := (hexclusive.slotsOf_eq_some_iff.mp hrival).1
  apply List.Perm.cons_inv (a := rival)
  calc rival :: (node.withTyped (front ++ entry :: back)).enforcePerIpFamilyCap.typed
      = rival :: (front ++ entry :: back).eraseIdx loser := by rw [hcapped]
    _ |>.Perm (front ++ entry :: back) := (perm_cons_eraseIdx hloser).symm
    _ |>.Perm (entry :: (front ++ back)) := perm_middle
    _ |>.Perm (entry :: rival :: (front ++ back).erase rival) :=
        (perm_cons_erase hmem).cons entry
    _ |>.Perm (rival :: entry :: (front ++ back).erase rival) := List.Perm.swap _ _ _

end Insertion

end NodeInfo

/-! ## Merging into a stored record -/

/-- The entry that already has the slot another one asks for. -/
def rivalOf (typed : List (MultiAddr × AddressType)) (entry : MultiAddr × AddressType) :
    Option (MultiAddr × AddressType) :=
  (slotOf entry).bind (slotsOf typed)

/-- The list with an entry put where its tag belongs. -/
def placed (typed : List (MultiAddr × AddressType)) (entry : MultiAddr × AddressType) :
    List (MultiAddr × AddressType) :=
  typed.takeWhile (NodeInfo.isAhead entry.2) ++ entry :: typed.dropWhile (NodeInfo.isAhead entry.2)

theorem placed_perm (typed : List (MultiAddr × AddressType))
    (entry : MultiAddr × AddressType) : (placed typed entry).Perm (entry :: typed) := by
  have hperm : (placed typed entry).Perm (entry :: (typed.takeWhile _ ++ typed.dropWhile _)) :=
    perm_middle
  rwa [takeWhile_append_dropWhile] at hperm

theorem alone_symm (halone : slotOf left = slotOf right → slotOf left = none) :
    slotOf right = slotOf left → slotOf right = none := by
  intro hsame
  rw [hsame, halone hsame.symm]

theorem Exclusive.perm {listed : List (MultiAddr × AddressType)}
    (hexclusive : Exclusive typed) (hperm : typed.Perm listed) : Exclusive listed :=
  (hperm.pairwise_iff alone_symm).mp hexclusive

/-- Nobody competes with an entry that has no rival. -/
theorem Exclusive.placed_of_free (hexclusive : Exclusive typed)
    (hfree : rivalOf typed entry = none) : Exclusive (placed typed entry) := by
  have hpairwise : Exclusive (entry :: typed) := by
    refine pairwise_cons.mpr ⟨?_, hexclusive⟩
    intro other hother hsame
    cases hslot : slotOf entry with
    | none => rfl
    | some key =>
      have hholder := hexclusive.slotsOf_eq_some_iff.mpr ⟨hother, hsame ▸ hslot⟩
      rw [rivalOf, hslot, Option.bind_some, hholder] at hfree
      cases hfree
  exact hpairwise.perm (placed_perm typed entry).symm

theorem Exclusive.rivalOf_eq_none (hexclusive : Exclusive (entry :: typed)) :
    rivalOf typed entry = none := by
  have hhead := (pairwise_cons.mp hexclusive).1
  have htail : Exclusive typed := hexclusive.sublist (sublist_cons_self entry typed)
  apply Option.eq_none_iff_forall_ne_some.mpr
  intro rival hrival
  obtain ⟨key, hslot, hholder⟩ := Option.bind_eq_some_iff.mp hrival
  obtain ⟨hmem, hsame⟩ := htail.slotsOf_eq_some_iff.mp hholder
  have hvacant := hhead rival hmem (hslot.trans hsame.symm)
  rw [hslot] at hvacant
  cases hvacant

theorem slotOf_of_rivalOf (hrival : rivalOf typed entry = some rival) :
    ∃ key, slotOf entry = some key ∧ slotsOf typed key = some rival :=
  Option.bind_eq_some_iff.mp hrival

theorem mem_of_rivalOf (hrival : rivalOf typed entry = some rival) : rival ∈ typed := by
  obtain ⟨key, -, hholder⟩ := slotOf_of_rivalOf hrival
  exact mem_of_find?_eq_some hholder

namespace NodeInfo

/-- The list without the first entry of an address, which a merge puts in again. -/
def others (node : NodeInfo) (address : MultiAddr) : List (MultiAddr × AddressType) :=
  node.typed.eraseP fun entry => entry.1 == address

variable {node : NodeInfo} {address : MultiAddr}

theorem others_of_find?_eq_none
    (habsent : node.typed.find? (fun entry => entry.1 == address) = none) :
    node.others address = node.typed :=
  List.eraseP_of_forall_not (List.find?_eq_none.mp habsent)

theorem Parallel.find?_typed_eq_none_iff (hparallel : node.Parallel) :
    node.typed.find? (fun entry => entry.1 == address) = none ↔ address ∉ node.addresses := by
  rw [← hparallel.map_fst_typed, find?_eq_none, mem_map]
  constructor
  · rintro hapart ⟨entry, hmem, hsame⟩
    exact hapart entry hmem (beq_iff_eq.mpr hsame)
  · intro habsent entry hmem hsame
    exact habsent ⟨entry, hmem, beq_iff_eq.mp hsame⟩

/-- The first entry of an address and the others are the whole list. -/
theorem typed_perm_others
    (hfind : node.typed.find? (fun entry => entry.1 == address) = some entry) :
    node.typed.Perm (entry :: node.others address) := by
  obtain ⟨hfound, front, back, htyped, hfront⟩ := find?_eq_some_iff_append.mp hfind
  have hapart : ∀ other ∈ front, ¬(other.1 == address) = true := by simpa using hfront
  rw [others, htyped, eraseP_append_right _ hapart, eraseP_cons, hfound]
  exact perm_middle

/-- The first entry of an address, under the tag the code reads for it. -/
theorem Stored.find?_typed (hstored : node.Stored LanTagged) {position : ℕ}
    (hposition : node.addresses.findIdx? (· == address) = some position) :
    node.typed.find? (fun entry => entry.1 == address) =
      some (address, node.addressTypeAt position) := by
  rw [← hstored.parallel.map_fst_typed, findIdx?_map] at hposition
  obtain ⟨hbound, hfound, hfirst⟩ := findIdx?_eq_some_iff_getElem.mp hposition
  have haddress : node.typed[position].1 = address := by simpa using hfound
  have htyped : node.typed[position]? = some node.typed[position] :=
    getElem?_eq_getElem hbound
  obtain ⟨hat, htypeAt⟩ := getElem?_zip_eq_some.mp htyped
  have htag : node.addressTypeAt position = node.typed[position].2 := by
    rw [addressTypeAt, hat, getD_eq_getElem?_getD, htypeAt]
    simp only [Option.getD_some, AddressType.forAdvertisedAddress]
    split
    · next hlan => exact (hstored.draft _ (getElem_mem hbound) hlan).symm
    · rfl
  rw [find?_eq_some_iff_getElem, htag]
  refine ⟨by simp, position, hbound, Prod.ext haddress rfl, ?_⟩
  intro earlier hearlier
  simpa using hfirst earlier hearlier

namespace Stored

variable {node : NodeInfo} {Draft : List (MultiAddr × AddressType) → Prop}
  {address : MultiAddr} {advertised tag : AddressType} (hstored : node.Stored Draft)
  (hstorable : address.isStorable = true)
  (htag : AddressType.forAdvertisedAddress address advertised = tag)

include hstored

theorem exclusive_others : Exclusive (node.others address) :=
  hstored.exclusive.sublist List.eraseP_sublist

theorem length_others_le : (node.others address).length ≤ maxAddressesPerNode :=
  List.eraseP_sublist.length_le.trans hstored.length_le

include hstorable htag

theorem typed_mergeTypedAddress : (node.mergeTypedAddress address advertised).typed =
      ((node.withTyped (placed (node.others address)
        (address, tag))).enforcePerIpFamilyCap.typed).take maxAddressesPerNode := by
  have hparallel := parallel_withTyped node (placed (node.others address) (address, tag))
  have hmerged : node.mergeTypedAddress address advertised =
      (node.withTyped (placed (node.others address)
        (address, tag))).enforcePerIpFamilyCap.truncateAddresses := by
    rw [hstored.parallel.mergeTypedAddress_inserted hstorable, htag, insertTyped_eq]
    rfl
  rw [hmerged, (parallel_enforcePerIpFamilyCap hparallel).truncateAddresses_eq, typed_withTyped]

theorem typed_merge_of_free (hfree : rivalOf (node.others address) (address, tag) = none) :
    (node.mergeTypedAddress address advertised).typed =
      (placed (node.others address) (address, tag)).take maxAddressesPerNode := by
  have hexclusive := hstored.exclusive_others.placed_of_free hfree
  rw [hstored.typed_mergeTypedAddress hstorable htag,
    typed_enforcePerIpFamilyCap_of_exclusive (parallel_withTyped _ _)
      (by rwa [typed_withTyped]), typed_withTyped]

variable {rival : MultiAddr × AddressType}
  (hrival : rivalOf (node.others address) (address, tag) = some rival)

include hrival

theorem typed_merge_of_refused (hweak : tag = .unverified ∧ rival.2 = .direct) :
    (node.mergeTypedAddress address advertised).typed = node.others address := by
  obtain ⟨key, hslot, hholder⟩ := slotOf_of_rivalOf hrival
  have hsplit := takeWhile_append_dropWhile (p := isAhead tag) (l := node.others address)
  have hcapped := typed_cap_refused node (hsplit.symm ▸ hstored.exclusive_others)
    (dropWhile_isAhead_lan _ tag) (priority_lt_of_mem_takeWhile _ tag) hslot
    (hsplit.symm ▸ hholder) hweak
  rw [hstored.typed_mergeTypedAddress hstorable htag]
  calc _ = (node.others address).take maxAddressesPerNode := by
        rw [placed, hcapped, hsplit]
    _ = node.others address := take_of_length_le hstored.length_others_le

theorem typed_merge_of_displaced (hstrong : ¬(tag = .unverified ∧ rival.2 = .direct)) :
    (node.mergeTypedAddress address advertised).typed.Perm
      ((address, tag) :: (node.others address).erase rival) := by
  obtain ⟨key, hslot, hholder⟩ := slotOf_of_rivalOf hrival
  have hsplit := takeWhile_append_dropWhile (p := isAhead tag) (l := node.others address)
  have hcapped := typed_cap_displaced node (hsplit.symm ▸ hstored.exclusive_others)
    (dropWhile_isAhead_lan _ tag) (priority_lt_of_mem_takeWhile _ tag) hslot
    (hsplit.symm ▸ hholder) hstrong
  rw [hsplit] at hcapped
  have hlength : ((address, tag) :: (node.others address).erase rival).length ≤
      maxAddressesPerNode := by
    have hpositive := length_pos_of_mem (mem_of_rivalOf hrival)
    have hle : (node.others address).length ≤ maxAddressesPerNode :=
      hstored.length_others_le
    rw [length_cons, length_erase_of_mem (mem_of_rivalOf hrival)]
    omega
  rw [hstored.typed_mergeTypedAddress hstorable htag, placed,
    take_of_length_le (hcapped.length_eq ▸ hlength)]
  exact hcapped

end Stored

end NodeInfo

end SaorsaCore.Routing
