import SaorsaCore.Core.Positions
import SaorsaCore.Core.Transition
import SaorsaCore.Routing.Invariant

/-!
# What is stored about a peer

The address and tag lists of a record are parallel, and the cap leaves one address
for each slot of an IP family.  Three writers build the lists: the first insertion of
a peer, the merge of one address, and the replacement by a publication.  Properties
of records that all three establish or keep hold of every record of the table.
-/

namespace SaorsaCore.Routing

open List Positions AddressType Option

/-! ## Slots -/

inductive AddressSlot where
  | relay
  | wan
  | lan
  deriving DecidableEq, Repr

def slotOfType : AddressType → AddressSlot
  | .relay => .relay
  | .direct => .wan
  | .unverified => .wan
  | .lan => .lan

variable {tag : AddressType}

@[simp]
theorem slotOfType_eq_relay_iff : slotOfType tag = .relay ↔ tag = .relay := by
  cases tag <;> decide

@[simp]
theorem slotOfType_eq_wan_iff : slotOfType tag = .wan ↔ tag = .direct ∨ tag = .unverified := by
  cases tag <;> decide

@[simp]
theorem slotOfType_eq_lan_iff : slotOfType tag = .lan ↔ tag = .lan := by
  cases tag <;> decide

/-- The IP family of an address, whether it is IPv4, and the slot of its tag. -/
def slotOf (entry : MultiAddr × AddressType) : Option (Bool × AddressSlot) :=
  entry.1.canonicalIp.map fun ip => (ip.isIpv4, slotOfType entry.2)

/-- No two addresses compete for one slot of an IP family. -/
def Exclusive (typed : List (MultiAddr × AddressType)) : Prop :=
  typed.Pairwise fun left right => slotOf left = slotOf right → slotOf left = none

theorem Exclusive.sublist {fewer typed : List (MultiAddr × AddressType)}
    (hexclusive : Exclusive typed) (hsublist : fewer.Sublist typed) :
    Exclusive fewer :=
  List.Pairwise.sublist hsublist hexclusive

theorem Exclusive.countP_le_one {typed : List (MultiAddr × AddressType)}
    (hexclusive : Exclusive typed) (family : Bool) (slot : AddressSlot) :
    typed.countP (fun entry => slotOf entry == some (family, slot)) ≤ 1 := by
  induction typed with
  | nil => exact Nat.zero_le 1
  | cons entry typed ih =>
    obtain ⟨hhead, htail⟩ := pairwise_cons.mp hexclusive
    rw [countP_cons]
    split
    · next hentry =>
        have hslot : slotOf entry = some (family, slot) := beq_iff_eq.mp hentry
        have hnone : typed.countP (fun entry => slotOf entry == some (family, slot)) = 0 := by
          rw [countP_eq_zero]
          intro other hother hsame
          have hvacant := hhead other hother (hslot.trans (beq_iff_eq.mp hsame).symm)
          rw [hslot] at hvacant
          cases hvacant
        rw [hnone]
    · exact ih htail

/-! ## Order -/

/-- Addresses are listed from the most to the least preferred tag. -/
def Ranked (typed : List (MultiAddr × AddressType)) : Prop :=
  typed.Pairwise fun left right => left.2.priority ≤ right.2.priority

/-- The tier of a tag begins where the more preferred tags end. -/
theorem Ranked.le_of_mem_dropWhile {typed : List (MultiAddr × AddressType)}
    (hranked : Ranked typed) {rank : ℕ} {entry : MultiAddr × AddressType}
    (hentry : entry ∈ typed.dropWhile fun entry => decide (entry.2.priority < rank)) :
    rank ≤ entry.2.priority := by
  induction typed with
  | nil => cases hentry
  | cons head typed ih =>
    obtain ⟨hhead, htail⟩ := pairwise_cons.mp hranked
    rw [dropWhile_cons] at hentry
    split at hentry
    · exact ih htail hentry
    · next hrank =>
        have hle : rank ≤ head.2.priority := by simpa using hrank
        rcases mem_cons.mp hentry with rfl | hmem
        · exact hle
        · exact hle.trans (hhead entry hmem)

/-! ## Parallel lists -/

namespace NodeInfo

def typed (node : NodeInfo) : List (MultiAddr × AddressType) :=
  node.addresses.zip node.addressTypes

/-- Every address has its tag. -/
def Parallel (node : NodeInfo) : Prop :=
  node.addressTypes.length = node.addresses.length

namespace Parallel

variable {node : NodeInfo}

variable (hparallel : node.Parallel)
include hparallel

theorem map_fst_typed : node.typed.map Prod.fst = node.addresses :=
  List.map_fst_zip hparallel.ge

theorem map_snd_typed : node.typed.map Prod.snd = node.addressTypes :=
  List.map_snd_zip hparallel.le

theorem length_typed : node.typed.length = node.addresses.length := by
  rw [← hparallel.map_fst_typed, length_map]

theorem padTypes_eq : node.padTypes = node := by
  rw [padTypes, paddedTypes, hparallel, Nat.sub_self]
  simp

theorem take_paddedTypes : node.paddedTypes.take node.addresses.length = node.addressTypes := by
  rw [paddedTypes, hparallel, Nat.sub_self, replicate_zero, append_nil, ← hparallel, take_length]

end Parallel

theorem parallel_withTyped (node : NodeInfo)
    (typed : List (MultiAddr × AddressType)) : (node.withTyped typed).Parallel := by
  simp [Parallel, withTyped]

theorem typed_withTyped (node : NodeInfo)
    (typed : List (MultiAddr × AddressType)) : (node.withTyped typed).typed = typed := by
  rw [NodeInfo.typed, withTyped, ← unzip_fst, ← unzip_snd, zip_unzip]

/-! ## The cap -/

/-- The positions the cap keeps. -/
def keptPositions (node : NodeInfo) : List ℕ :=
  let types := node.paddedTypes.take node.addresses.length
  let kept := familyKeeps node.addresses types true ++ familyKeeps node.addresses types false
  (List.range node.addresses.length).filter fun index =>
    node.addresses[index]?.any (fun address => address.ip.isNone)
      || kept.contains index

variable {node : NodeInfo}

theorem enforcePerIpFamilyCap_eq (hparallel : node.Parallel) : node.enforcePerIpFamilyCap =
      { node with
        addresses := Positions.select node.keptPositions node.addresses
        addressTypes := Positions.select node.keptPositions node.addressTypes } := by
  rw [enforcePerIpFamilyCap, keptPositions, hparallel.take_paddedTypes]
  rfl

theorem keptPositions_sublist (node : NodeInfo) :
    node.keptPositions.Sublist (List.range node.addresses.length) :=
  List.filter_sublist

variable {position : ℕ}

theorem lt_length_of_mem_keptPositions (hkept : position ∈ node.keptPositions) :
    position < node.addresses.length :=
  List.mem_range.mp (node.keptPositions_sublist.subset hkept)

theorem parallel_enforcePerIpFamilyCap (hparallel : node.Parallel) :
    node.enforcePerIpFamilyCap.Parallel := by
  rw [enforcePerIpFamilyCap_eq hparallel, Parallel, length_select, length_select]
  · exact fun _ hkept => lt_length_of_mem_keptPositions hkept
  · intro _ hkept
    rw [hparallel]
    exact lt_length_of_mem_keptPositions hkept

theorem typed_enforcePerIpFamilyCap (hparallel : node.Parallel) :
    node.enforcePerIpFamilyCap.typed = Positions.select node.keptPositions node.typed := by
  rw [enforcePerIpFamilyCap_eq hparallel]
  exact zip_select hparallel fun _ hkept =>
    lt_length_of_mem_keptPositions hkept

theorem typed_enforcePerIpFamilyCap_sublist (hparallel : node.Parallel) :
    node.enforcePerIpFamilyCap.typed.Sublist node.typed := by
  rw [typed_enforcePerIpFamilyCap hparallel]
  apply select_sublist
  rw [hparallel.length_typed]
  exact node.keptPositions_sublist

/-- The position the cap keeps for a slot of an IP family. -/
def slotHolder (addresses : List MultiAddr) (types : List AddressType)
    (family : Bool) (slot : AddressSlot) : Option ℕ :=
  let members := (List.range addresses.length).filter fun index =>
    addresses[index]?.any fun address => familyMatches address family
  let tagged (addressType : AddressType) : List ℕ :=
    members.filter fun index => types[index]? == some addressType
  match slot with
  | .relay => (tagged .relay).head?
  | .wan => (tagged .direct).head?.or (tagged .unverified).head?
  | .lan => (tagged .lan).getLast?

theorem mem_familyKeeps_iff {addresses : List MultiAddr} {types : List AddressType}
    {family : Bool} :
    position ∈ familyKeeps addresses types family ↔
      ∃ slot, slotHolder addresses types family slot = some position := by
  simp only [familyKeeps, slotHolder, mem_append, mem_toList]
  constructor
  · rintro ((hrelay | hwan) | hlan)
    · exact ⟨.relay, hrelay⟩
    · exact ⟨.wan, hwan⟩
    · exact ⟨.lan, hlan⟩
  · rintro ⟨slot, hholder⟩
    cases slot with
    | relay => exact Or.inl (Or.inl hholder)
    | wan => exact Or.inl (Or.inr hholder)
    | lan => exact Or.inr hholder

variable {addressType : AddressType}

/-- The holder of a slot is an address of that slot. -/
theorem slotOf_slotHolder {addresses : List MultiAddr} {types : List AddressType}
    {family : Bool} {slot : AddressSlot}
    (hholder : slotHolder addresses types family slot = some position)
    {address : MultiAddr}
    (haddress : addresses[position]? = some address)
    (htype : types[position]? = some addressType) :
    slotOf (address, addressType) = some (family, slot) := by
  have htagged : ∀ tag, position ∈ ((range addresses.length).filter fun index =>
      addresses[index]?.any fun address => familyMatches address family).filter
        (fun index => types[index]? == some tag) →
      slotOf (address, addressType) = some (family, slotOfType tag) := by
    intro tag hmem
    obtain ⟨hmember, htag⟩ := mem_filter.mp hmem
    obtain ⟨-, hfamily⟩ := mem_filter.mp hmember
    rw [htype, beq_iff_eq, some.injEq] at htag
    subst htag
    rw [haddress, any_some, familyMatches] at hfamily
    cases hip : address.canonicalIp with
    | none =>
      rw [hip] at hfamily
      cases hfamily
    | some ip =>
      rw [hip, any_some, beq_iff_eq] at hfamily
      rw [slotOf, hip, map_some, hfamily]
  cases slot with
  | relay => exact htagged .relay (mem_of_head? hholder)
  | wan =>
    rcases or_eq_some_iff.mp hholder with hdirect | ⟨-, hunverified⟩
    · exact htagged .direct (mem_of_head? hdirect)
    · exact htagged .unverified (mem_of_head? hunverified)
  | lan => exact htagged .lan (mem_of_getLast? hholder)

/-- A kept address with a slot is the holder of the slot. -/
theorem slotHolder_of_mem_keptPositions (hparallel : node.Parallel)
    (hkept : position ∈ node.keptPositions)
    {entry : MultiAddr × AddressType} (hentry : node.typed[position]? = some entry)
    {family : Bool} {slot : AddressSlot} (hslot : slotOf entry = some (family, slot)) :
    slotHolder node.addresses node.addressTypes family slot = some position := by
  obtain ⟨haddress, htype⟩ := getElem?_zip_eq_some.mp hentry
  have hip : entry.1.ip.isNone = false := by
    cases hnone : entry.1.ip with
    | none => simp [slotOf, MultiAddr.canonicalIp, hnone] at hslot
    | some ip => rfl
  have hmem := (mem_filter.mp hkept).2
  rw [hparallel.take_paddedTypes, haddress, any_some, hip, Bool.false_or,
    contains_iff_mem, mem_append, mem_familyKeeps_iff,
    mem_familyKeeps_iff] at hmem
  obtain ⟨holderFamily, holderSlot, hholder⟩ : ∃ holderFamily holderSlot,
      slotHolder node.addresses node.addressTypes holderFamily holderSlot = some position := by
    rcases hmem with ⟨holderSlot, hholder⟩ | ⟨holderSlot, hholder⟩
    · exact ⟨true, holderSlot, hholder⟩
    · exact ⟨false, holderSlot, hholder⟩
  have hsame := slotOf_slotHolder hholder haddress htype
  rw [Prod.eta, hslot] at hsame
  cases hsame
  exact hholder

theorem exclusive_enforcePerIpFamilyCap (hparallel : node.Parallel) :
    Exclusive node.enforcePerIpFamilyCap.typed := by
  rw [typed_enforcePerIpFamilyCap hparallel]
  apply pairwise_select
  · exact (pairwise_lt_range).sublist node.keptPositions_sublist
  · intro left hleft right hright hlt first second hfirst hsecond hsame
    cases hslot : slotOf first with
    | none => rfl
    | some slot =>
      have hholder := slotHolder_of_mem_keptPositions hparallel hleft hfirst hslot
      rw [slotHolder_of_mem_keptPositions hparallel hright hsecond
        (hsame ▸ hslot), some.injEq] at hholder
      omega

/-! ## Merging one address -/

theorem Parallel.withTyped_typed (hparallel : node.Parallel) :
    node.withTyped node.typed = node := by
  rw [withTyped, hparallel.map_fst_typed, hparallel.map_snd_typed]

variable (node : NodeInfo) (typed : List (MultiAddr × AddressType)) (address : MultiAddr)

theorem removeDuplicate_withTyped : (node.withTyped typed).removeDuplicate address =
      node.withTyped (typed.eraseP fun entry => entry.1 == address) := by
  have hfind : (typed.map Prod.fst).findIdx? (· == address) =
      typed.findIdx? fun entry => entry.1 == address := findIdx?_map
  rw [removeDuplicate, eraseP_eq_eraseIdx]
  simp only [withTyped, hfind]
  cases typed.findIdx? fun entry => entry.1 == address with
  | none => rfl
  | some position => simp only [eraseIdx_map]

theorem insertAt_withTyped (front back : List (MultiAddr × AddressType))
    (addressType : AddressType) (hposition : position = front.length) :
    (node.withTyped (front ++ back)).insertAt position address addressType =
      node.withTyped (front ++ (address, addressType) :: back) := by
  have hfst := insertIdx_length_append (front.map Prod.fst) (back.map Prod.fst) address
  have hsnd := insertIdx_length_append (front.map Prod.snd) (back.map Prod.snd) addressType
  rw [length_map] at hfst hsnd
  simp only [insertAt, withTyped, map_append, hposition, hfst, hsnd, map_cons]

/-- The entries that stay in front of an address merged with a tag: those with a more
preferred one, and all of them before a LAN address. -/
def isAhead (addressType : AddressType) (entry : MultiAddr × AddressType) : Bool :=
  addressType == .lan || decide (entry.2.priority < addressType.priority)

theorem isAhead_of_ne_lan (hlan : addressType ≠ .lan) (entry : MultiAddr × AddressType) :
    isAhead addressType entry = decide (entry.2.priority < addressType.priority) := by
  rw [isAhead, beq_eq_false_iff_ne.mpr hlan, Bool.false_or]

theorem isAhead_lan (entry : MultiAddr × AddressType) : isAhead .lan entry = true :=
  rfl

theorem dropWhile_isAhead_lan (addressType : AddressType) (hlan : addressType = .lan) :
    typed.dropWhile (isAhead addressType) = [] := by
  subst hlan
  exact dropWhile_eq_nil_iff.mpr fun entry _ => isAhead_lan entry

theorem priority_lt_of_mem_takeWhile (addressType : AddressType) (hlan : addressType ≠ .lan) :
    ∀ entry ∈ typed.takeWhile (isAhead addressType), entry.2.priority < addressType.priority := by
  intro entry hentry
  have hahead := mem_takeWhile_imp hentry
  rw [isAhead_of_ne_lan hlan] at hahead
  exact of_decide_eq_true hahead

/-- The insertion at the front of a tier. -/
theorem insertAt_tier (hlan : addressType ≠ .lan) (test : AddressType → Bool)
    (htest : ∀ tag, (!test tag) = decide (tag.priority < addressType.priority)) :
    (node.withTyped typed).insertAt (((node.withTyped typed).addressTypes.findIdx? test).getD
          (node.withTyped typed).addresses.length) address addressType =
      node.withTyped (typed.takeWhile (isAhead addressType) ++
        (address, addressType) :: typed.dropWhile (isAhead addressType)) := by
  have hposition : ((node.withTyped typed).addressTypes.findIdx? test).getD
      (node.withTyped typed).addresses.length = (typed.takeWhile (isAhead addressType)).length := by
    have hlength : (node.withTyped typed).addresses.length = typed.length :=
      length_map _
    have hfind : (node.withTyped typed).addressTypes.findIdx? test =
        typed.findIdx? fun entry => test entry.2 := findIdx?_map
    have hahead : isAhead addressType = fun entry => !test entry.2 := by
      funext entry
      rw [isAhead_of_ne_lan hlan, htest]
    rw [hlength, hfind, findIdx?_getD_length, hahead]
  have hinsert := insertAt_withTyped node address (typed.takeWhile (isAhead addressType))
    (typed.dropWhile (isAhead addressType)) addressType hposition
  rwa [takeWhile_append_dropWhile] at hinsert

/-- The place of a merged address. -/
theorem insertTyped_eq (addressType : AddressType) :
    (node.withTyped typed).insertTyped address addressType =
      node.withTyped (typed.takeWhile (isAhead addressType) ++
        (address, addressType) :: typed.dropWhile (isAhead addressType)) := by
  cases addressType with
  | relay =>
    have hnone : typed.takeWhile (isAhead .relay) = [] := by
      cases typed with
      | nil => rfl
      | cons entry typed =>
        exact takeWhile_cons_of_neg (by simp [isAhead, priority])
    have hsplit := takeWhile_append_dropWhile (p := isAhead .relay) (l := typed)
    rw [hnone, nil_append] at hsplit ⊢
    rw [hsplit]
    exact insertAt_withTyped node address [] typed .relay rfl
  | direct =>
    exact insertAt_tier node typed address (by decide) (· != .relay) fun tag => by
      cases tag <;> rfl
  | unverified =>
    exact insertAt_tier node typed address (by decide)
      (fun tag => tag != .relay && tag != .direct) fun tag => by cases tag <;> rfl
  | lan =>
    have hall : typed.takeWhile (isAhead .lan) = typed :=
      takeWhile_eq_self_iff.mpr fun entry _ => isAhead_lan entry
    rw [hall, dropWhile_isAhead_lan typed .lan rfl]
    simp [insertTyped, withTyped]

/-- An address is merged right behind more preferred tags, a LAN address at the end; if
the list was ranked, the tags behind it are at most as preferred. -/
theorem insertTyped_withTyped (addressType : AddressType) : ∃ front back, typed = front ++ back ∧
      (node.withTyped typed).insertTyped address addressType =
        node.withTyped (front ++ (address, addressType) :: back) ∧
      (addressType = .lan → back = []) ∧
      (addressType ≠ .lan → ∀ entry ∈ front, entry.2.priority < addressType.priority) ∧
      (Ranked typed → ∀ entry ∈ back, addressType.priority ≤ entry.2.priority) := by
  refine ⟨_, _, takeWhile_append_dropWhile.symm,
    insertTyped_eq node typed address addressType, dropWhile_isAhead_lan typed addressType,
    priority_lt_of_mem_takeWhile typed addressType, ?_⟩
  intro hranked entry hentry
  by_cases hlan : addressType = .lan
  · rw [dropWhile_isAhead_lan typed addressType hlan] at hentry
    cases hentry
  · rw [funext (isAhead_of_ne_lan hlan)] at hentry
    exact hranked.le_of_mem_dropWhile hentry

theorem Parallel.truncateAddresses_eq (hparallel : node.Parallel) :
    node.truncateAddresses = node.withTyped (node.typed.take maxAddressesPerNode) := by
  have hfst := congrArg (take maxAddressesPerNode) hparallel.map_fst_typed
  have hsnd := congrArg (take maxAddressesPerNode) hparallel.map_snd_typed
  have htake : node.addressTypes.take (node.addresses.take maxAddressesPerNode).length =
      node.addressTypes.take maxAddressesPerNode := by
    rw [take_eq_take_iff, length_take, hparallel]
    omega
  rw [← map_take] at hfst hsnd
  rw [NodeInfo.truncateAddresses, withTyped, hfst, hsnd, htake]

/-- What a writer leaves in a record: parallel lists within the limits, cut down from
a draft. -/
structure CutFrom (draft : List (MultiAddr × AddressType)) (node : NodeInfo) : Prop where
  parallel : node.Parallel
  length_le : node.typed.length ≤ maxAddressesPerNode
  exclusive : Exclusive node.typed
  sublist : node.typed.Sublist draft

/-- First insertion and publication truncate before they cap. -/
theorem cutFrom_enforcePerIpFamilyCap {draft : List (MultiAddr × AddressType)}
    (hlength : typed.length ≤ maxAddressesPerNode) (hsublist : typed.Sublist draft) :
    CutFrom draft (node.withTyped typed).enforcePerIpFamilyCap := by
  have hparallel := parallel_withTyped node typed
  have hcapped := typed_enforcePerIpFamilyCap_sublist hparallel
  rw [typed_withTyped] at hcapped
  exact ⟨parallel_enforcePerIpFamilyCap hparallel, hcapped.length_le.trans hlength,
    exclusive_enforcePerIpFamilyCap hparallel, hcapped.trans hsublist⟩

/-- A merge caps before it truncates. -/
theorem cutFrom_truncateAddresses :
    CutFrom typed (node.withTyped typed).enforcePerIpFamilyCap.truncateAddresses := by
  have hparallel := parallel_withTyped node typed
  have hcapped := typed_enforcePerIpFamilyCap_sublist hparallel
  rw [typed_withTyped] at hcapped
  rw [(parallel_enforcePerIpFamilyCap hparallel).truncateAddresses_eq]
  refine ⟨parallel_withTyped _ _, ?_, ?_, ?_⟩
  · rw [typed_withTyped]
    exact length_take_le _ _
  · rw [typed_withTyped]
    exact (exclusive_enforcePerIpFamilyCap hparallel).sublist (take_sublist _ _)
  · rw [typed_withTyped]
    exact (take_sublist _ _).trans hcapped

variable {node address} in
/-- A merge drops the address, puts it where its tag belongs, and cuts the list
down. -/
theorem Parallel.mergeTypedAddress_inserted (hparallel : node.Parallel)
    (hstorable : address.isStorable = true) (advertised : AddressType) :
    node.mergeTypedAddress address advertised =
      ((node.withTyped (node.typed.eraseP fun entry => entry.1 == address)).insertTyped
        address (forAdvertisedAddress address advertised)
          ).enforcePerIpFamilyCap.truncateAddresses := by
  have hremoved : node.removeDuplicate address =
      node.withTyped (node.typed.eraseP fun entry => entry.1 == address) := by
    rw [← removeDuplicate_withTyped, hparallel.withTyped_typed]
  simp only [NodeInfo.mergeTypedAddress, hstorable, if_true, hparallel.padTypes_eq, hremoved]

variable {node address} in
theorem Parallel.mergeTypedAddress_eq (hparallel : node.Parallel)
    (hstorable : address.isStorable = true) (advertised : AddressType) :
    ∃ front back, front ++ back = node.typed.eraseP (fun entry => entry.1 == address) ∧
      node.mergeTypedAddress address advertised = (node.withTyped (front ++
          (address, forAdvertisedAddress address advertised) ::
            back)).enforcePerIpFamilyCap.truncateAddresses ∧
      (forAdvertisedAddress address advertised = .lan → back = []) ∧
      (forAdvertisedAddress address advertised ≠ .lan → ∀ entry ∈ front, entry.2.priority <
          (forAdvertisedAddress address advertised).priority) ∧
      (Ranked (front ++ back) → ∀ entry ∈ back,
        (forAdvertisedAddress address advertised).priority ≤ entry.2.priority) := by
  obtain ⟨front, back, hsplit, hinserted, hlast, hfront, hback⟩ :=
    insertTyped_withTyped node (node.typed.eraseP fun entry => entry.1 == address)
      address (forAdvertisedAddress address advertised)
  refine ⟨front, back, hsplit.symm, ?_, hlast, hfront, hsplit ▸ hback⟩
  rw [hparallel.mergeTypedAddress_inserted hstorable, hinserted]

variable {node address} in
theorem Parallel.mergeTypedAddress (hparallel : node.Parallel)
    (hstorable : address.isStorable = true) (advertised : AddressType) :
    ∃ front back, front ++ back = node.typed.eraseP (fun entry => entry.1 == address) ∧
      CutFrom (front ++ (address, forAdvertisedAddress address advertised) :: back)
        (node.mergeTypedAddress address advertised) ∧
      (∀ entry ∈ front, entry.2.priority ≤ (forAdvertisedAddress address advertised).priority) ∧
      (Ranked (front ++ back) → ∀ entry ∈ back,
        (forAdvertisedAddress address advertised).priority ≤ entry.2.priority) := by
  obtain ⟨front, back, hsplit, hmerged, -, hfront, hback⟩ :=
    hparallel.mergeTypedAddress_eq hstorable advertised
  refine ⟨front, back, hsplit, ?_, ?_, hback⟩
  · rw [hmerged]
    exact cutFrom_truncateAddresses node _
  · intro entry hentry
    by_cases hlan : forAdvertisedAddress address advertised = .lan
    · rw [hlan]
      cases entry.2 <;> decide
    · exact (hfront hlan entry hentry).le

end NodeInfo

end SaorsaCore.Routing
