import SaorsaCore.Routing.RecordInvariants

/-!
# A record as a map of slots

A capped record is a map from the slots of an IP family, relay, WAN and LAN, to a tagged
address.  Merging an address is one update of that map: the address leaves its old slot
and takes the slot of its tag, unless an unverified address meets a direct one.  The
source has no such map; it keeps lists, finds the newest address by its place in the list,
and looks for it from the front or from the back depending on the tag.
-/

namespace SaorsaCore.Routing

open List Positions AddressType NodeInfo

/-! ## The map -/

instance : Fintype AddressSlot :=
  ⟨{.relay, .wan, .lan}, fun slot => by cases slot <;> decide⟩

/-- The tagged address in each slot of the IP families. -/
abbrev Slots := Bool × AddressSlot → Option (MultiAddr × AddressType)

namespace Slots

def remove (slots : Slots) (address : MultiAddr) : Slots :=
  fun key => (slots key).filter fun entry => entry.1 ≠ address

/-- A direct address is not displaced by an unverified one; addresses without an IP have
no slot. -/
def put (slots : Slots) (entry : MultiAddr × AddressType) : Slots :=
  match slotOf entry with
  | none => slots
  | some key =>
    if entry.2 = .unverified ∧ (slots key).any (fun holder => holder.2 = .direct) then slots
    else Function.update slots key (some entry)

def merge (slots : Slots) (entry : MultiAddr × AddressType) : Slots :=
  (slots.remove entry.1).put entry

end Slots

def slotsOf (typed : List (MultiAddr × AddressType)) : Slots :=
  fun key => typed.find? fun entry => slotOf entry == some key

variable {typed front back : List (MultiAddr × AddressType)}
  {entry : MultiAddr × AddressType} {key : Bool × AddressSlot}

/-- Where no two addresses compete, each is in its slot. -/
theorem Exclusive.slotsOf_eq_some_iff (hexclusive : Exclusive typed) :
    slotsOf typed key = some entry ↔ entry ∈ typed ∧ slotOf entry = some key := by
  constructor
  · intro hslot
    exact ⟨mem_of_find?_eq_some hslot, by simpa using find?_some hslot⟩
  · rintro ⟨hmem, hslot⟩
    induction typed with
    | nil => simp at hmem
    | cons head typed ih =>
      obtain ⟨hhead, htail⟩ := pairwise_cons.mp hexclusive
      rw [slotsOf, find?_cons]
      rcases mem_cons.mp hmem with rfl | hrest
      · simp [hslot]
      · have hother : (slotOf head == some key) = false := by
          rw [beq_eq_false_iff_ne]
          intro hsame
          have hvacant := hhead entry hrest (hsame.trans hslot.symm)
          rw [hsame] at hvacant
          cases hvacant
        rw [hother]
        exact ih htail hrest

/-! ## What the cap keeps -/

/-- The addresses that compete for a slot. -/
def claimants (typed : List (MultiAddr × AddressType)) (key : Bool × AddressSlot) :
    List (MultiAddr × AddressType) :=
  typed.filter fun entry => slotOf entry == some key

/-- The one among them that the cap keeps. -/
def preferred (slot : AddressSlot) (claimants : List (MultiAddr × AddressType)) :
    Option (MultiAddr × AddressType) :=
  match slot with
  | .relay => claimants.head?
  | .wan => (claimants.find? fun entry => entry.2 == .direct).or claimants.head?
  | .lan => claimants.getLast?

theorem slotOf_eq_some_iff : slotOf entry = some key ↔
      familyMatches entry.1 key.1 = true ∧ slotOfType entry.2 = key.2 := by
  obtain ⟨family, slot⟩ := key
  rw [slotOf, familyMatches]
  cases entry.1.canonicalIp with
  | none => simp
  | some ip => simp

theorem slotOf_of_mem_claimants (hmem : entry ∈ claimants typed key) : slotOf entry = some key :=
  beq_iff_eq.mp (List.mem_filter.mp hmem).2

/-- The addresses of a family with a tag compete for the slot of the tag. -/
theorem filter_tagged (typed : List (MultiAddr × AddressType)) (family : Bool)
    (tag : AddressType) (slot : AddressSlot) (hslot : slotOfType tag = slot) :
    typed.filter (fun entry => familyMatches entry.1 family && entry.2 == tag) =
      (claimants typed (family, slot)).filter fun entry => entry.2 == tag := by
  rw [claimants, filter_filter]
  apply filter_congr
  intro entry _
  rw [Bool.eq_iff_iff]
  simp only [Bool.and_eq_true, beq_iff_eq, slotOf_eq_some_iff]
  constructor
  · rintro ⟨hfamily, rfl⟩
    exact ⟨rfl, hfamily, hslot⟩
  · rintro ⟨rfl, hfamily, -⟩
    exact ⟨hfamily, rfl⟩

variable {slot : AddressSlot}

/-- If all that compete for a slot have one tag, they are the addresses with that tag. -/
theorem filter_tagged_eq_claimants {family : Bool} {tag : AddressType}
    (honly : ∀ entry ∈ claimants typed (family, slot), entry.2 = tag)
    (hslot : slotOfType tag = slot) :
    typed.filter (fun entry => familyMatches entry.1 family && entry.2 == tag) =
      claimants typed (family, slot) := by
  rw [filter_tagged typed family tag slot hslot, filter_eq_self]
  intro entry hmem
  exact beq_iff_eq.mpr (honly entry hmem)

theorem tag_of_mem_claimants {family : Bool} (hmem : entry ∈ claimants typed (family, slot)) :
    slotOfType entry.2 = slot :=
  (slotOf_eq_some_iff.mp (slotOf_of_mem_claimants hmem)).2

namespace NodeInfo

variable {node : NodeInfo} {address : MultiAddr}

/-- The positions of a family with a tag. -/
def taggedPositions (node : NodeInfo) (family : Bool) (tag : AddressType) : List ℕ :=
  Positions.positionsWhere (fun entry => familyMatches entry.1 family && entry.2 == tag)
    node.typed

theorem taggedPositions_eq (hparallel : node.Parallel) (family : Bool) (tag : AddressType) :
    node.taggedPositions family tag = ((List.range node.addresses.length).filter fun index =>
        node.addresses[index]?.any fun address => familyMatches address family).filter
          fun index => node.addressTypes[index]? == some tag := by
  rw [taggedPositions, positionsWhere, filter_filter, hparallel.length_typed]
  apply filter_congr
  intro index hindex
  have hbound : index < node.addresses.length := mem_range.mp hindex
  have htype : index < node.addressTypes.length := hparallel ▸ hbound
  have hpair : node.typed[index]? = some (node.addresses[index], node.addressTypes[index]) := by
    rw [typed, getElem?_zip_eq_some]
    exact ⟨getElem?_eq_getElem hbound, getElem?_eq_getElem htype⟩
  rw [hpair, getElem?_eq_getElem hbound, getElem?_eq_getElem htype]
  simp [Bool.and_comm]

theorem head?_taggedPositions (node : NodeInfo) (family : Bool) (tag : AddressType)
    (slot : AddressSlot) (hslot : slotOfType tag = slot) :
    ((node.taggedPositions family tag).head?.bind fun position => node.typed[position]?) =
      (claimants node.typed (family, slot)).find? fun entry => entry.2 == tag := by
  rw [taggedPositions, head?_positionsWhere, ← head?_filter,
    filter_tagged node.typed family tag slot hslot, head?_filter]

theorem slotHolder_eq (hparallel : node.Parallel) (family : Bool) (slot : AddressSlot) :
    slotHolder node.addresses node.addressTypes family slot = match slot with
      | .relay => (node.taggedPositions family .relay).head?
      | .wan => (node.taggedPositions family .direct).head?.or
          (node.taggedPositions family .unverified).head?
      | .lan => (node.taggedPositions family .lan).getLast? := by
  simp only [taggedPositions_eq hparallel]
  rfl

/-- The holder of a slot is the preferred one of those that compete for it. -/
theorem bind_slotHolder (hparallel : node.Parallel) (family : Bool) (slot : AddressSlot) :
    ((slotHolder node.addresses node.addressTypes family slot).bind fun position =>
      node.typed[position]?) = preferred slot (claimants node.typed (family, slot)) := by
  rw [slotHolder_eq hparallel]
  cases slot with
  | relay =>
    have honly : ∀ entry ∈ claimants node.typed (family, .relay), entry.2 = .relay :=
      fun entry hmem => slotOfType_eq_relay_iff.mp (tag_of_mem_claimants hmem)
    rw [preferred, ← filter_tagged_eq_claimants honly rfl, head?_filter, ← head?_positionsWhere]
    rfl
  | lan =>
    have honly : ∀ entry ∈ claimants node.typed (family, .lan), entry.2 = .lan :=
      fun entry hmem => slotOfType_eq_lan_iff.mp (tag_of_mem_claimants hmem)
    rw [preferred, ← filter_tagged_eq_claimants honly rfl, ← getLast?_positionsWhere]
    rfl
  | wan =>
    have hdirect := node.head?_taggedPositions family .direct .wan rfl
    cases hfirst : (node.taggedPositions family .direct).head? with
    | some position =>
      have hbound : position < node.typed.length :=
        lt_length_of_mem_positionsWhere (mem_of_head? hfirst)
      rw [hfirst, Option.bind_some, getElem?_eq_getElem hbound] at hdirect
      rw [preferred, ← hdirect]
      exact getElem?_eq_getElem hbound
    | none =>
      rw [hfirst, Option.bind_none] at hdirect
      have hnone := find?_eq_none.mp hdirect.symm
      -- Without a direct address all that compete are unverified.
      have honly : ∀ entry ∈ claimants node.typed (family, .wan), entry.2 = .unverified := by
        intro entry hmem
        have hwan := slotOfType_eq_wan_iff.mp (tag_of_mem_claimants hmem)
        have hother : entry.2 ≠ .direct := by simpa using hnone entry hmem
        exact hwan.resolve_left hother
      rw [preferred, ← hdirect, Option.none_or, ← filter_tagged_eq_claimants honly rfl,
        head?_filter, ← head?_positionsWhere]
      rfl

theorem mem_keptPositions_of_slotHolder (hparallel : node.Parallel) {position : ℕ}
    (hholder : slotHolder node.addresses node.addressTypes key.1 key.2 = some position)
    (hbound : position < node.addresses.length) : position ∈ node.keptPositions := by
  rw [keptPositions, mem_filter, hparallel.take_paddedTypes]
  refine ⟨mem_range.mpr hbound, ?_⟩
  rw [Bool.or_eq_true, contains_iff_mem, mem_append, mem_familyKeeps_iff, mem_familyKeeps_iff]
  right
  cases hfamily : key.1 with
  | true => exact .inl ⟨key.2, hfamily ▸ hholder⟩
  | false => exact .inr ⟨key.2, hfamily ▸ hholder⟩

/-- Each slot goes to the preferred one of those that compete for it. -/
theorem slotsOf_enforcePerIpFamilyCap (hparallel : node.Parallel) (key : Bool × AddressSlot) :
    slotsOf node.enforcePerIpFamilyCap.typed key = preferred key.2 (claimants node.typed key) := by
  apply Option.ext
  intro entry
  rw [(exclusive_enforcePerIpFamilyCap hparallel).slotsOf_eq_some_iff,
    typed_enforcePerIpFamilyCap hparallel, Positions.mem_select,
    ← bind_slotHolder hparallel key.1 key.2, Option.bind_eq_some_iff]
  constructor
  · rintro ⟨⟨position, hkept, hentry⟩, hslot⟩
    exact ⟨position, slotHolder_of_mem_keptPositions hparallel hkept hentry hslot, hentry⟩
  · rintro ⟨position, hholder, hentry⟩
    have hbound : position < node.addresses.length :=
      hparallel.length_typed ▸ (List.getElem?_eq_some_iff.mp hentry).1
    obtain ⟨haddress, htype⟩ := List.getElem?_zip_eq_some.mp hentry
    exact ⟨⟨position, mem_keptPositions_of_slotHolder hparallel hholder hbound, hentry⟩,
      slotOf_slotHolder hholder haddress htype⟩

end NodeInfo

/-! ## One more address -/

theorem claimants_append :
    claimants (front ++ back) key = claimants front key ++ claimants back key :=
  List.filter_append front back

theorem slotsOf_eq_head? : slotsOf typed key = (claimants typed key).head? :=
  List.head?_filter.symm

/-- Nobody competes: the cap has nothing to choose. -/
theorem preferred_of_length_le_one {few : List (MultiAddr × AddressType)}
    (hfew : few.length ≤ 1) : preferred slot few = few.head? := by
  cases few with
  | nil => cases slot <;> rfl
  | cons first rest =>
    cases rest with
    | nil =>
      cases slot with
      | wan =>
        cases hdirect : first.2 == .direct <;> simp [preferred, hdirect]
      | _ => rfl
    | cons second rest => simp at hfew

/-- The newest address takes its slot, except from a direct address if it is
unverified. -/
theorem preferred_newest {entry : MultiAddr × AddressType} (hentry : slotOfType entry.2 = slot)
    (hslot : ∀ other ∈ front ++ back, slotOfType other.2 = slot)
    (hfew : (front ++ back).length ≤ 1) (hlast : entry.2 = .lan → back = [])
    (hfirst : entry.2 ≠ .lan → ∀ other ∈ front, other.2.priority < entry.2.priority) :
    preferred slot (front ++ entry :: back) =
      if entry.2 = .unverified ∧ (front ++ back).head?.any (fun other => other.2 = .direct)
      then (front ++ back).head? else some entry := by
  obtain ⟨address, tag⟩ := entry
  subst hentry
  cases front with
  | nil =>
    cases back with
    | nil => cases tag <;> simp [preferred, slotOfType]
    | cons other rest =>
      obtain ⟨otherAddress, otherTag⟩ := other
      have hnil : rest = [] := by simpa using hfew
      have hsame := hslot (otherAddress, otherTag) (by simp)
      subst hnil
      cases tag <;> cases otherTag <;> simp_all [preferred, slotOfType]
  | cons other rest =>
    obtain ⟨otherAddress, otherTag⟩ := other
    have hnil : rest = [] ∧ back = [] := by simpa using hfew
    have hsame := hslot (otherAddress, otherTag) (by simp)
    obtain ⟨rfl, rfl⟩ := hnil
    cases tag <;> cases otherTag <;>
      simp_all [preferred, slotOfType, priority]

theorem Slots.put_of_slotOf_ne (slots : Slots) (hentry : slotOf entry ≠ some key) :
    slots.put entry key = slots key := by
  rw [Slots.put]
  cases hslot : slotOf entry with
  | none => rfl
  | some taken =>
    have hother : key ≠ taken := by
      rintro rfl
      exact hentry hslot
    simp only
    split
    · rfl
    · rw [Function.update_of_ne hother]

theorem Slots.put_of_slotOf (slots : Slots) (hentry : slotOf entry = some key) :
    slots.put entry key =
      if entry.2 = .unverified ∧ (slots key).any (fun holder => holder.2 = .direct)
      then slots key else some entry := by
  rw [Slots.put, hentry]
  simp only
  split
  · rfl
  · rw [Function.update_self]

theorem Exclusive.length_claimants_le_one (hexclusive : Exclusive typed) :
    (claimants typed key).length ≤ 1 := by
  rw [claimants, ← countP_eq_length_filter]
  exact hexclusive.countP_le_one key.1 key.2

/-- What the cap makes of a list with one address too many. -/
theorem preferred_claimants_insert (hexclusive : Exclusive (front ++ back))
    (hlast : entry.2 = .lan → back = [])
    (hfirst : entry.2 ≠ .lan → ∀ other ∈ front, other.2.priority < entry.2.priority) :
    preferred key.2 (claimants (front ++ entry :: back) key) =
      (slotsOf (front ++ back)).put entry key := by
  have hfew : (claimants (front ++ back) key).length ≤ 1 :=
    hexclusive.length_claimants_le_one
  by_cases hentry : slotOf entry = some key
  · have hcons : claimants (entry :: back) key = entry :: claimants back key :=
      filter_cons_of_pos (by simp [hentry])
    rw [Slots.put_of_slotOf _ hentry, slotsOf_eq_head?, claimants_append, hcons, claimants_append]
    apply preferred_newest
    · exact (slotOf_eq_some_iff.mp hentry).2
    · rw [← claimants_append]
      intro other hother
      exact (slotOf_eq_some_iff.mp (slotOf_of_mem_claimants hother)).2
    · rwa [← claimants_append]
    · intro hlan
      rw [hlast hlan]
      rfl
    · intro hlan other hother
      exact hfirst hlan other (mem_of_mem_filter hother)
  · have hcons : claimants (entry :: back) key = claimants back key :=
      filter_cons_of_neg (by simp [hentry])
    rw [Slots.put_of_slotOf_ne _ hentry, slotsOf_eq_head?, claimants_append, hcons,
      ← claimants_append]
    exact preferred_of_length_le_one hfew

/-! ## Merging an address -/

namespace NodeInfo

/-- The slots of a record; trailing addresses without a tag count as unverified. -/
def slots (node : NodeInfo) : Slots :=
  slotsOf node.padTypes.typed

/-- A record within the cap for IP families: every tag belongs to an address, no two
addresses compete for a slot, none is listed twice, and all of them have an IP. -/
structure Capped (node : NodeInfo) : Prop where
  tags_le : node.addressTypes.length ≤ node.addresses.length
  exclusive : Exclusive node.padTypes.typed
  nodup : node.addresses.Nodup
  ip : ∀ address ∈ node.addresses, address.ip.isSome

variable {node : NodeInfo}

theorem Capped.parallel (hcapped : node.Capped) : node.padTypes.Parallel := by
  have hle := hcapped.tags_le
  rw [Parallel, padTypes, paddedTypes, length_append, length_replicate]
  simp only
  omega

theorem Parallel.slots_eq (hparallel : node.Parallel) : node.slots = slotsOf node.typed := by
  rw [slots, hparallel.padTypes_eq]

/-- The merge begins with padding. -/
theorem mergeTypedAddress_padTypes {address : MultiAddr} (hparallel : node.padTypes.Parallel)
    (hstorable : address.isStorable = true) (advertised : AddressType) :
    node.padTypes.mergeTypedAddress address advertised =
      node.mergeTypedAddress address advertised := by
  simp only [mergeTypedAddress, hstorable, if_true, hparallel.padTypes_eq]

/-- The address leaves its slot, and every other slot stays. -/
theorem slotsOf_eraseP (hexclusive : Exclusive typed)
    (hnodup : (typed.map Prod.fst).Nodup) (address : MultiAddr) :
    slotsOf (typed.eraseP fun entry => entry.1 == address) = (slotsOf typed).remove address := by
  funext key
  apply Option.ext
  intro entry
  have hkept : Exclusive (typed.eraseP fun entry => entry.1 == address) :=
    hexclusive.sublist eraseP_sublist
  rw [hkept.slotsOf_eq_some_iff, Slots.remove, Option.filter_eq_some_iff,
    hexclusive.slotsOf_eq_some_iff, decide_eq_true_eq]
  constructor
  · rintro ⟨hmem, hslot⟩
    exact ⟨⟨mem_of_mem_eraseP hmem, hslot⟩, (fst_ne_of_mem_eraseP hnodup hmem).symm⟩
  · rintro ⟨⟨hmem, hslot⟩, hother⟩
    exact ⟨(mem_eraseP_of_neg (by simpa using hother)).mpr hmem, hslot⟩

/-- With one slot for each address there are few addresses. -/
theorem length_le_of_exclusive (hexclusive : Exclusive typed) (hnodup : typed.Nodup)
    (entry : MultiAddr × AddressType)
    (hslot : ∀ other ∈ typed, slotOf other = none → other = entry) :
    typed.length ≤ maxAddressesPerNode := by
  have hdistinct : (typed.map slotOf).Nodup := by
    rw [List.Nodup, pairwise_map]
    refine (List.Pairwise.and hnodup hexclusive).imp_of_mem ?_
    rintro left right hleft hright ⟨hne, halone⟩ hsame
    have hvacant := halone hsame
    exact hne ((hslot left hleft hvacant).trans (hslot right hright (hsame ▸ hvacant)).symm)
  calc typed.length = (typed.map slotOf).length := (length_map slotOf).symm
    _ ≤ Fintype.card (Option (Bool × AddressSlot)) := hdistinct.length_le_card
    _ ≤ maxAddressesPerNode := by decide

theorem slotOf_eq_none_iff : slotOf entry = none ↔ entry.1.ip = none := by
  rw [slotOf, MultiAddr.canonicalIp, Option.map_eq_none_iff, Option.map_eq_none_iff]

/-- An address that was erased may be inserted anywhere. -/
theorem nodup_insert {address : MultiAddr} (hnodup : (typed.map Prod.fst).Nodup)
    (hsplit : front ++ back = typed.eraseP fun entry => entry.1 == address)
    (tag : AddressType) : ((front ++ (address, tag) :: back).map Prod.fst).Nodup := by
  have hperm : ((front ++ (address, tag) :: back).map Prod.fst).Perm
      (address :: (front ++ back).map Prod.fst) :=
    perm_middle.map Prod.fst
  rw [hperm.nodup_iff, hsplit, nodup_cons]
  constructor
  · intro hmem
    obtain ⟨entry, hentry, hsame⟩ := mem_map.mp hmem
    exact fst_ne_of_mem_eraseP hnodup hentry hsame.symm
  · exact hnodup.sublist (eraseP_sublist.map Prod.fst)

namespace Capped

variable {node : NodeInfo} {address : MultiAddr} (hcapped : node.Capped)
include hcapped

theorem map_fst_typed : node.padTypes.typed.map Prod.fst = node.addresses :=
  hcapped.parallel.map_fst_typed

theorem nodup_typed : (node.padTypes.typed.map Prod.fst).Nodup := by
  rw [hcapped.map_fst_typed]
  exact hcapped.nodup

theorem mem_insert {other : MultiAddr × AddressType} {tag : AddressType} (hsplit : front ++ back =
      node.padTypes.typed.eraseP fun entry => entry.1 == address)
    (hmem : other ∈ front ++ (address, tag) :: back) :
    other = (address, tag) ∨ other.1.ip.isSome := by
  rcases mem_cons.mp (perm_middle.mem_iff.mp hmem) with hsame | hold
  · exact .inl hsame
  · right
    rw [hsplit] at hold
    apply hcapped.ip
    rw [← hcapped.map_fst_typed]
    exact mem_map_of_mem (mem_of_mem_eraseP hold)

/-- Few addresses are left by the cap, so nothing is cut off behind it. -/
theorem mergeTypedAddress_eq (hstorable : address.isStorable = true) (advertised : AddressType) :
    ∃ front back, front ++ back = node.padTypes.typed.eraseP (fun entry => entry.1 == address) ∧
      node.mergeTypedAddress address advertised = (node.padTypes.withTyped (front ++ (address,
          forAdvertisedAddress address advertised) :: back)).enforcePerIpFamilyCap ∧
      CutFrom (front ++ (address, forAdvertisedAddress address advertised) :: back)
        (node.mergeTypedAddress address advertised) ∧
      (forAdvertisedAddress address advertised = .lan → back = []) ∧
      (forAdvertisedAddress address advertised ≠ .lan → ∀ entry ∈ front, entry.2.priority <
          (forAdvertisedAddress address advertised).priority) := by
  obtain ⟨front, back, hsplit, hmerged, hlast, hfirst, -⟩ :=
    hcapped.parallel.mergeTypedAddress_eq hstorable advertised
  rw [← mergeTypedAddress_padTypes hcapped.parallel hstorable, hmerged]
  refine ⟨front, back, hsplit, ?_, cutFrom_truncateAddresses _ _, hlast, hfirst⟩
  have hparallel := parallel_withTyped node.padTypes
    (front ++ (address, forAdvertisedAddress address advertised) :: back)
  have hsublist := typed_enforcePerIpFamilyCap_sublist hparallel
  rw [typed_withTyped] at hsublist
  have hnodup := (nodup_insert hcapped.nodup_typed hsplit
    (forAdvertisedAddress address advertised)).of_map
  have hlength := length_le_of_exclusive (exclusive_enforcePerIpFamilyCap hparallel)
    (hnodup.sublist hsublist) (address,
      forAdvertisedAddress address advertised) fun other hother hvacant => by
        rcases hcapped.mem_insert hsplit (hsublist.subset hother) with hsame | hip
        · exact hsame
        · rw [slotOf_eq_none_iff.mp hvacant] at hip
          cases hip
  rw [(parallel_enforcePerIpFamilyCap hparallel).truncateAddresses_eq, take_of_length_le hlength,
    (parallel_enforcePerIpFamilyCap hparallel).withTyped_typed]

end Capped

/-- Merging an address is one update of the slots. -/
theorem slots_mergeTypedAddress {node : NodeInfo} {address : MultiAddr}
    (hcapped : node.Capped) (hstorable : address.isStorable = true)
    (advertised : AddressType) :
    (node.mergeTypedAddress address advertised).slots =
        node.slots.merge (address, AddressType.forAdvertisedAddress address advertised) ∧
      (address.ip.isSome → (node.mergeTypedAddress address advertised).Capped) := by
  obtain ⟨front, back, hsplit, hmerged, hcut, hlast, hfirst⟩ :=
    hcapped.mergeTypedAddress_eq hstorable advertised
  have hkept : Exclusive (front ++ back) := by
    rw [hsplit]
    exact hcapped.exclusive.sublist eraseP_sublist
  constructor
  · rw [hcut.parallel.slots_eq, hmerged]
    funext key
    rw [slotsOf_enforcePerIpFamilyCap (parallel_withTyped _ _), typed_withTyped,
      preferred_claimants_insert hkept hlast hfirst, hsplit,
      slotsOf_eraseP hcapped.exclusive hcapped.nodup_typed]
    rfl
  · intro hip
    constructor
    · exact hcut.parallel.le
    · rw [hcut.parallel.padTypes_eq]
      exact hcut.exclusive
    · rw [← hcut.parallel.map_fst_typed]
      exact (nodup_insert hcapped.nodup_typed hsplit _).sublist (hcut.sublist.map Prod.fst)
    · rw [← hcut.parallel.map_fst_typed]
      intro known hknown
      obtain ⟨entry, hentry, rfl⟩ := mem_map.mp hknown
      rcases hcapped.mem_insert hsplit (hcut.sublist.subset hentry) with rfl | hold
      · exact hip
      · exact hold

/-- A record with a direct address and a LAN address. -/
def directAndLan : NodeInfo :=
  { id := 1
    addresses := [.quic (.v4 0xcb007109 9000), .quic (.v4 0xc0a80001 9000)]
    addressTypes := [.direct, .lan]
    lastSeen := 0 }

theorem capped_directAndLan : directAndLan.Capped :=
  ⟨by decide, by rw [Exclusive]; decide +kernel, by decide, by decide⟩

/-- The direct address leaves its slot when it turns out to be relayed, and keeps it
against an unverified one. -/
theorem directAndLan_relayed :
    (directAndLan.mergeTypedAddress (.quic (.v4 0xcb007109 9000)) .relay).slots
        (true, .wan) = none ∧
      (directAndLan.mergeTypedAddress (.quic (.v4 0xcb00710a 9000)) .unverified).slots
        (true, .wan) = some (.quic (.v4 0xcb007109 9000), .direct) := by
  rw [(slots_mergeTypedAddress capped_directAndLan (by decide) .relay).1,
    (slots_mergeTypedAddress capped_directAndLan (by decide) .unverified).1]
  decide +kernel

end NodeInfo

end SaorsaCore.Routing
