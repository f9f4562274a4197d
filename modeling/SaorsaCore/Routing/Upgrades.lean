import SaorsaCore.Routing.MergeEffect

/-!
# Upgrades by gossip

Gossip about a peer may add an address to its record or improve a tag.  The merge reports a
change whenever it was carried out, but the cap and the limit on the list come after it: a
new address may be dropped again, and it may take the place of another entry.  If that
entry was the best one of an address that is listed more than once, the address stays with
a weaker tag.
-/

namespace SaorsaCore.Routing

open List AddressType

variable {before after : List (MultiAddr × AddressType)}

/-! ## Weaker tags -/

/-- No address of both lists has a weaker tag in the second. -/
def NeverWeakens (before after : List (MultiAddr × AddressType)) : Prop :=
  ∀ address old new, strongestTag before address = some old →
    strongestTag after address = some new → new.priority ≤ old.priority

theorem neverWeakens_iff : NeverWeakens before after ↔
    ∀ address old kept, (address, old) ∈ before → (address, kept) ∈ after →
      ∃ new, (address, new) ∈ after ∧ new.priority ≤ old.priority := by
  constructor
  · intro hnever address old kept hold hkept
    obtain ⟨worst, -, hworst, hle⟩ := exists_strongest (mem_tagsOf.mpr hold)
    obtain ⟨new, hnew, hbest, -⟩ := exists_strongest (mem_tagsOf.mpr hkept)
    exact ⟨new, mem_tagsOf.mp hnew, (hnever address worst new hworst hbest).trans hle⟩
  · intro hmatched address old new hold hnew
    obtain ⟨better, hbetter, hle⟩ := hmatched address old new
      (mem_tagsOf.mp (argmin_mem hold)) (mem_tagsOf.mp (argmin_mem hnew))
    exact (le_of_mem_argmin (mem_tagsOf.mpr hbetter) hnew).trans hle

namespace NodeInfo

/-! ## What an upgrade does -/

/-- The address may be stored, and the tag is better than the one the record has. -/
def Improves (node : NodeInfo) (address : MultiAddr) (tag : AddressType) : Prop :=
  address.isStorable = true ∧ ∀ first ∈ node.typed.find? (fun entry => entry.1 == address),
      tag.priority < first.2.priority

/-- The merged address does not survive the merge: an unverified one meets a direct one, or
a new one comes last in a full list. -/
def Bounces (node : NodeInfo) (address : MultiAddr) (tag : AddressType) : Prop :=
  match rivalOf (node.others address) (address, tag) with
  | some rival => tag = .unverified ∧ rival.2 = .direct
  | none => address ∉ node.addresses ∧ node.typed.length = maxAddressesPerNode ∧
    ∀ entry ∈ node.typed, isAhead tag entry = true

/-- The other entry that the merged address takes the place of: its rival, or the last
entry of a full list. -/
def displaced (node : NodeInfo) (address : MultiAddr) (tag : AddressType) :
    Option (MultiAddr × AddressType) :=
  match rivalOf (node.others address) (address, tag) with
  | some rival => if tag = .unverified ∧ rival.2 = .direct then none else some rival
  | none =>
    if address ∉ node.addresses ∧ node.typed.length = maxAddressesPerNode ∧
        ∃ entry ∈ node.typed, isAhead tag entry = false
    then node.typed.getLast? else none

/-- The three ways a merge can end. -/
inductive Outcome (node : NodeInfo) (address : MultiAddr) (tag : AddressType)
    (merged : List (MultiAddr × AddressType)) : Prop where
  | joins (hstays : ¬node.Bounces address tag) (hnone : node.displaced address tag = none)
    (hmerged : merged.Perm ((address, tag) :: node.others address))
  | bounces (hbounces : node.Bounces address tag)
    (hnone : node.displaced address tag = none)
    (hweak : address ∈ node.addresses → tag = .unverified)
    (hmerged : merged = node.others address)
  | replaces (lost : MultiAddr × AddressType) (hstays : ¬node.Bounces address tag)
    (hlost : node.displaced address tag = some lost) (hmem : lost ∈ node.others address)
    (hweaker : lost.1 = address → tag.priority ≤ lost.2.priority)
    (hmerged : merged.Perm ((address, tag) :: (node.others address).erase lost))

variable {node : NodeInfo} {address : MultiAddr} {advertised tag : AddressType}
  {typed : List (MultiAddr × AddressType)}

/-- Within one slot only an unverified entry can meet a stronger one. -/
theorem priority_le_of_rivalOf {rival : MultiAddr × AddressType}
    (hrival : rivalOf typed (address, tag) = some rival)
    (hstrong : ¬(tag = .unverified ∧ rival.2 = .direct)) :
    tag.priority ≤ rival.2.priority := by
  obtain ⟨key, hslot, hholder⟩ := slotOf_of_rivalOf hrival
  have hrivalSlot : slotOf rival = some key := by simpa using find?_some hholder
  have hsame := (slotOf_eq_some_iff.mp hslot).2.trans (slotOf_eq_some_iff.mp hrivalSlot).2.symm
  revert hsame hstrong
  cases tag <;> cases rival.2 <;> simp [slotOfType, priority]

/-- A full list loses its last entry to a new address, or the new address itself. -/
theorem take_placed {limit : ℕ} (entry : MultiAddr × AddressType) (hfull : typed.length = limit) :
    ((∀ other ∈ typed, isAhead entry.2 other = true) ∧ (placed typed entry).take limit = typed) ∨
      ∃ other ∈ typed, isAhead entry.2 other = false ∧ ∃ last, typed.getLast? = some last ∧
        ((placed typed entry).take limit).Perm (entry :: typed.erase last) := by
  have hsplit := takeWhile_append_dropWhile (p := isAhead entry.2) (l := typed)
  have hbehind := head_dropWhile_not (isAhead entry.2) (l := typed)
  rw [placed]
  generalize typed.takeWhile (isAhead entry.2) = front at hsplit ⊢
  cases hback : typed.dropWhile (isAhead entry.2) with
  | nil =>
    rw [hback, append_nil] at hsplit
    refine .inl ⟨dropWhile_eq_nil_iff.mp hback, ?_⟩
    rw [hsplit, ← hfull, take_left]
  | cons next back =>
    rw [hback] at hsplit
    have hlast : ∃ last, typed.getLast? = some last := by
      rw [← Option.ne_none_iff_exists', Ne, getLast?_eq_none_iff, ← hsplit]
      simp
    obtain ⟨last, hlast⟩ := hlast
    have hnext : next ∈ typed := by
      rw [← hsplit]
      simp
    have hlasts : (front ++ entry :: next :: back).getLast? = some last := by
      rw [← hlast, ← hsplit]
      simp
    have hcut : (front ++ entry :: next :: back).take limit =
        (front ++ entry :: next :: back).dropLast := by
      rw [dropLast_eq_take, ← hfull, ← hsplit]
      simp
    refine .inr ⟨next, hnext, by simpa [hback] using hbehind, last, hlast, ?_⟩
    apply List.Perm.cons_inv (a := last)
    calc last :: (front ++ entry :: next :: back).take limit
        = last :: (front ++ entry :: next :: back).dropLast := by rw [hcut]
      _ |>.Perm ((front ++ entry :: next :: back).dropLast ++ [last]) :=
          (perm_append_singleton _ _).symm
      _ = front ++ entry :: next :: back := dropLast_append_getLast? last hlasts
      _ |>.Perm (entry :: typed) := hsplit ▸ perm_middle
      _ |>.Perm (entry :: last :: typed.erase last) :=
          (perm_cons_erase (mem_of_getLast? hlast)).cons entry
      _ |>.Perm (last :: entry :: typed.erase last) := List.Perm.swap _ _ _

namespace Stored

variable {Draft : List (MultiAddr × AddressType) → Prop} (hstored : node.Stored Draft)
  (hstorable : address.isStorable = true)
  (htag : AddressType.forAdvertisedAddress address advertised = tag)

include hstored hstorable htag

theorem outcome_of_rival {rival : MultiAddr × AddressType}
    (hrival : rivalOf (node.others address) (address, tag) = some rival) :
    Outcome node address tag (node.mergeTypedAddress address advertised).typed := by
  by_cases hweak : tag = .unverified ∧ rival.2 = .direct
  · apply Outcome.bounces
    · rwa [Bounces, hrival]
    · rw [displaced, hrival]
      exact if_pos hweak
    · exact fun _ => hweak.1
    · exact hstored.typed_merge_of_refused hstorable htag hrival hweak
  · apply Outcome.replaces rival
    · rwa [Bounces, hrival]
    · rw [displaced, hrival]
      exact if_neg hweak
    · exact mem_of_rivalOf hrival
    · exact fun _ => priority_le_of_rivalOf hrival hweak
    · exact hstored.typed_merge_of_displaced hstorable htag hrival hweak

/-- A new address without a rival in a full list. -/
theorem outcome_of_full (hfree : rivalOf (node.others address) (address, tag) = none)
    (habsent : address ∉ node.addresses) (hlength : node.typed.length = maxAddressesPerNode) :
    Outcome node address tag (node.mergeTypedAddress address advertised).typed := by
  have hothers : node.others address = node.typed := others_of_find?_eq_none
    (hstored.parallel.find?_typed_eq_none_iff.mpr habsent)
  have hmerged := hstored.typed_merge_of_free hstorable htag hfree
  rw [hothers] at hmerged
  rcases take_placed (address, tag) hlength with
    ⟨hahead, hcut⟩ | ⟨other, hother, hbehind, last, hlast, hcut⟩
  · apply Outcome.bounces
    · rw [Bounces, hfree]
      exact ⟨habsent, hlength, hahead⟩
    · rw [displaced, hfree]
      refine if_neg fun hroom => ?_
      obtain ⟨-, -, other, hother, hbehind⟩ := hroom
      exact Bool.false_ne_true (hbehind.symm.trans (hahead other hother))
    · exact fun hpresent => absurd hpresent habsent
    · rw [hmerged, hcut, hothers]
  · have hmem : last ∈ node.typed := mem_of_getLast? hlast
    apply Outcome.replaces last
    · rw [Bounces, hfree]
      rintro ⟨-, -, hahead⟩
      exact Bool.false_ne_true (hbehind.symm.trans (hahead other hother))
    · rw [displaced, hfree]
      exact (if_pos ⟨habsent, hlength, other, hother, hbehind⟩).trans hlast
    · rwa [hothers]
    · rintro rfl
      exact absurd (of_mem_zip hmem).1 habsent
    · rwa [hothers, hmerged]

omit hstorable htag in
/-- Otherwise the list has room for the address. -/
theorem length_placed_le
    (hroom : ¬(address ∉ node.addresses ∧ node.typed.length = maxAddressesPerNode)) :
    (placed (node.others address) (address, tag)).length ≤ maxAddressesPerNode := by
  rw [(placed_perm _ _).length_eq, length_cons]
  have hle := hstored.length_le
  cases hfind : node.typed.find? (fun entry => entry.1 == address) with
  | none =>
    have habsent := hstored.parallel.find?_typed_eq_none_iff.mp hfind
    have hshort : node.typed.length ≠ maxAddressesPerNode :=
      fun hlength => hroom ⟨habsent, hlength⟩
    rw [others_of_find?_eq_none hfind]
    omega
  | some first =>
    have hlength := (typed_perm_others hfind).length_eq
    rw [length_cons] at hlength
    omega

theorem outcome : Outcome node address tag (node.mergeTypedAddress address advertised).typed := by
  cases hrival : rivalOf (node.others address) (address, tag) with
  | some rival => exact hstored.outcome_of_rival hstorable htag hrival
  | none =>
    by_cases hfull : address ∉ node.addresses ∧ node.typed.length = maxAddressesPerNode
    · exact hstored.outcome_of_full hstorable htag hrival hfull.1 hfull.2
    · apply Outcome.joins
      · rw [Bounces, hrival]
        exact fun hbounces => hfull ⟨hbounces.1, hbounces.2.1⟩
      · rw [displaced, hrival]
        exact if_neg fun hroom => hfull ⟨hroom.1, hroom.2.1⟩
      · rw [hstored.typed_merge_of_free hstorable htag hrival,
          take_of_length_le (hstored.length_placed_le hfull)]
        exact placed_perm _ _

end Stored

/-! ## What it reports, and what it weakens -/

instance (node : NodeInfo) (address : MultiAddr) (tag : AddressType) :
    Decidable (node.Improves address tag) :=
  inferInstanceAs (Decidable (_ ∧ ∀ first ∈ node.typed.find? _, _))

section Tagged

variable (hstored : node.Stored LanTagged)
  (htag : AddressType.forAdvertisedAddress address advertised = tag)
include hstored htag

theorem Stored.upgradeOnly_of_improves (himproves : node.Improves address tag) :
    node.mergeTypedAddressUpgradeOnly address advertised =
      (node.mergeTypedAddress address tag, true) := by
  obtain ⟨hstorable, hbetter⟩ := himproves
  simp only [mergeTypedAddressUpgradeOnly, htag, hstorable, if_true]
  cases hposition : node.addresses.findIdx? (· == address) with
  | none => rfl
  | some position => exact if_neg (not_le.mpr (hbetter _ (hstored.find?_typed hposition)))

theorem Stored.upgradeOnly_of_not_improves (hworse : ¬node.Improves address tag) :
    node.mergeTypedAddressUpgradeOnly address advertised = (node, false) := by
  cases hstorable : address.isStorable with
  | false => simp [mergeTypedAddressUpgradeOnly, hstorable]
  | true =>
    simp only [mergeTypedAddressUpgradeOnly, htag, hstorable, if_true]
    cases hposition : node.addresses.findIdx? (· == address) with
    | none =>
      have habsent : address ∉ node.addresses := fun hmem => by
        simpa using findIdx?_eq_none_iff.mp hposition address hmem
      have hfind := hstored.parallel.find?_typed_eq_none_iff.mpr habsent
      exact absurd ⟨hstorable, by simp [hfind]⟩ hworse
    | some position =>
      refine if_pos (not_lt.mp fun hbetter => hworse ⟨hstorable, ?_⟩)
      simpa [hstored.find?_typed hposition] using hbetter

end Tagged

variable {merged : List (MultiAddr × AddressType)} (houtcome : Outcome node address tag merged)
  (himproves : node.Improves address tag)

include houtcome himproves

/-- A merge that was carried out changes the list, unless a new address bounces. -/
theorem Outcome.ne_typed_iff (hparallel : node.Parallel) :
    merged ≠ node.typed ↔ (address ∉ node.addresses → ¬node.Bounces address tag) := by
  cases hfind : node.typed.find? (fun entry => entry.1 == address) with
  | none =>
    have habsent := hparallel.find?_typed_eq_none_iff.mp hfind
    have hothers := others_of_find?_eq_none hfind
    cases houtcome with
    | joins hstays hnone hmerged =>
      refine iff_of_true ?_ fun _ => hstays
      intro hsame
      have hlength := hmerged.length_eq
      rw [hsame, hothers, length_cons] at hlength
      omega
    | bounces hbounces hnone hweak hmerged =>
      rw [hmerged, hothers]
      exact iff_of_false (fun hne => hne rfl) fun hstays => hstays habsent hbounces
    | replaces lost hstays hlost hmem hweaker hmerged =>
      refine iff_of_true ?_ fun _ => hstays
      intro hsame
      have hlisted : (address, tag) ∈ node.typed :=
        hsame ▸ hmerged.mem_iff.mpr mem_cons_self
      exact habsent (hparallel.map_fst_typed ▸ mem_map_of_mem hlisted)
  | some first =>
    have hperm := typed_perm_others hfind
    have hlength := hperm.length_eq
    rw [length_cons] at hlength
    refine iff_of_true ?_ fun habsent => ?_
    · rintro rfl
      cases houtcome with
      | joins hstays hnone hmerged =>
        have hcount := (hmerged.symm.trans hperm).count_eq first
        have hbetter := himproves.2 first hfind
        have hne : (address, tag) ≠ first := by
          rintro rfl
          exact lt_irrefl _ hbetter
        simp [hne] at hcount
      | bounces hbounces hnone hweak hmerged => rw [hmerged] at hlength; omega
      | replaces lost hstays hlost hmem hweaker hmerged =>
        have hshort := hmerged.length_eq
        have hpositive := length_pos_of_mem hmem
        rw [length_cons, length_erase_of_mem hmem] at hshort
        omega
    · rw [hparallel.find?_typed_eq_none_iff.mpr habsent] at hfind
      cases hfind

/-- An entry can go without harm to its address: no other copy of it stays, or one that is
as strong does. -/
def Replaceable (typed : List (MultiAddr × AddressType)) (lost : MultiAddr × AddressType) : Prop :=
  ∀ copy ∈ typed.erase lost, copy.1 = lost.1 →
    ∃ strong ∈ typed.erase lost, strong.1 = lost.1 ∧ strong.2.priority ≤ lost.2.priority

omit houtcome in
/-- Every entry is one of the others, or its tag is improved. -/
theorem Improves.mem_others_or {entry : MultiAddr × AddressType} (hmem : entry ∈ node.typed) :
    entry ∈ node.others address ∨ entry.1 = address ∧ tag.priority < entry.2.priority := by
  cases hfind : node.typed.find? (fun entry => entry.1 == address) with
  | none =>
    rw [others_of_find?_eq_none hfind]
    exact .inl hmem
  | some first =>
    rcases mem_cons.mp ((typed_perm_others hfind).mem_iff.mp hmem) with rfl | hother
    · exact .inr ⟨by simpa using find?_some hfind, himproves.2 entry hfind⟩
    · exact .inl hother

omit houtcome himproves in
/-- Entries of other addresses are among the others. -/
theorem mem_erase_others_iff {entry lost : MultiAddr × AddressType}
    (hentry : entry.1 ≠ address) (hlost : lost.1 ≠ address) :
    entry ∈ (node.others address).erase lost ↔ entry ∈ node.typed.erase lost := by
  cases hfind : node.typed.find? (fun entry => entry.1 == address) with
  | none => rw [others_of_find?_eq_none hfind]
  | some first =>
    have hfirst : first.1 = address := by simpa using find?_some hfind
    have hne : first ≠ lost := by
      rintro rfl
      exact hlost hfirst
    rw [((typed_perm_others hfind).erase lost).mem_iff,
      erase_cons_tail (by simpa using hne), mem_cons]
    constructor
    · exact .inr
    · rintro (rfl | hmem)
      · exact absurd hfirst hentry
      · exact hmem

omit houtcome in
/-- The loss of one of the others shows only at its own address. -/
theorem Improves.neverWeakens_replaced_iff {lost : MultiAddr × AddressType}
    (hmem : lost ∈ node.others address)
    (hweaker : lost.1 = address → tag.priority ≤ lost.2.priority)
    (hmerged : merged.Perm ((address, tag) :: (node.others address).erase lost)) :
    NeverWeakens node.typed merged ↔ (lost.1 ≠ address → Replaceable node.typed lost) := by
  have hfresh : (address, tag) ∈ merged := hmerged.mem_iff.mpr mem_cons_self
  have hrest : lost.1 ≠ address → ∀ tagged, (lost.1, tagged) ∈ merged ↔
      (lost.1, tagged) ∈ node.typed.erase lost := by
    intro hne tagged
    have hentry : (lost.1, tagged).1 ≠ address := hne
    rw [hmerged.mem_iff, mem_cons, ← mem_erase_others_iff hentry hne]
    simp [hne]
  rw [Routing.neverWeakens_iff]
  constructor
  · intro hnever hne copy hcopy hsame
    obtain ⟨new, hnew, hle⟩ := hnever lost.1 lost.2 copy.2 (eraseP_sublist.subset hmem)
      ((hrest hne copy.2).mpr (hsame ▸ hcopy))
    exact ⟨(lost.1, new), (hrest hne new).mp hnew, rfl, hle⟩
  · intro hreplaceable known old kept hold hkept
    rcases himproves.mem_others_or hold with hother | ⟨rfl, hbetter⟩
    · by_cases hgone : (known, old) = lost
      · subst hgone
        by_cases hsame : known = address
        · exact ⟨tag, hsame ▸ hfresh, hweaker hsame⟩
        · obtain ⟨strong, hstrong, rfl, hle⟩ := hreplaceable hsame (known, kept)
            ((hrest hsame kept).mp hkept) rfl
          exact ⟨strong.2, (hrest hsame strong.2).mpr hstrong, hle⟩
      · exact ⟨old, hmerged.mem_iff.mpr (mem_cons_of_mem _
          ((mem_erase_of_ne hgone).mpr hother)), le_rfl⟩
    · exact ⟨tag, hfresh, hbetter.le⟩

/-- The first tag of the merged address is improved; only an entry that is replaced can
leave another address with a weaker tag. -/
theorem Outcome.neverWeakens_iff :
    NeverWeakens node.typed merged ↔ ∀ lost ∈ node.displaced address tag,
      lost.1 ≠ address → Replaceable node.typed lost := by
  cases houtcome with
  | joins hstays hnone hmerged =>
    refine iff_of_true (Routing.neverWeakens_iff.mpr ?_) (by simp [hnone])
    intro known old kept hmem _
    rcases himproves.mem_others_or hmem with hother | ⟨rfl, hbetter⟩
    · exact ⟨old, hmerged.mem_iff.mpr (mem_cons_of_mem _ hother), le_rfl⟩
    · exact ⟨tag, hmerged.mem_iff.mpr mem_cons_self, hbetter.le⟩
  | bounces hbounces hnone hweak hmerged =>
    refine iff_of_true (Routing.neverWeakens_iff.mpr ?_) (by simp [hnone])
    intro known old kept hmem hkept
    rcases himproves.mem_others_or hmem with hother | ⟨rfl, hbetter⟩
    · exact ⟨old, hmerged ▸ hother, le_rfl⟩
    · -- The address had a LAN tag, and no tag is weaker.
      refine ⟨kept, hkept, ?_⟩
      rw [hweak (of_mem_zip hmem).1] at hbetter
      have hlan : lan.priority ≤ old.priority := hbetter
      have hweakest : kept.priority ≤ lan.priority := by cases kept <;> decide
      exact hweakest.trans hlan
  | replaces lost hstays hlost hmem hweaker hmerged =>
    rw [himproves.neverWeakens_replaced_iff hmem hweaker hmerged, hlost]
    simp

omit houtcome himproves

/-- An upgrade that is carried out finds a place for a new address, and the entry it
replaces is no loss to another address. -/
def UpgradeFits (node : NodeInfo) (address : MultiAddr) (tag : AddressType) : Prop :=
  node.Improves address tag → (address ∉ node.addresses → ¬node.Bounces address tag) ∧
      ∀ lost ∈ node.displaced address tag, lost.1 ≠ address → Replaceable node.typed lost

theorem Stored.upgradeOnly_honest_iff (hstored : node.Stored LanTagged)
    (address : MultiAddr) (advertised : AddressType) :
    (((node.mergeTypedAddressUpgradeOnly address advertised).2 = true ↔
        (node.mergeTypedAddressUpgradeOnly address advertised).1.typed ≠ node.typed) ∧
      NeverWeakens node.typed (node.mergeTypedAddressUpgradeOnly address advertised).1.typed) ↔
      node.UpgradeFits address (AddressType.forAdvertisedAddress address advertised) := by
  by_cases himproves : node.Improves address (forAdvertisedAddress address advertised)
  · have houtcome := hstored.outcome himproves.1 (forAdvertisedAddress_idem address advertised)
    rw [hstored.upgradeOnly_of_improves rfl himproves, UpgradeFits,
      imp_iff_right himproves, ← houtcome.ne_typed_iff himproves hstored.parallel,
      ← houtcome.neverWeakens_iff himproves]
    simp
  · have hrefl : NeverWeakens node.typed node.typed := by
      intro known old new hold hnew
      rw [hold, Option.some.injEq] at hnew
      rw [hnew]
    rw [hstored.upgradeOnly_of_not_improves rfl himproves]
    exact iff_of_true ⟨by simp, hrefl⟩ fun hbetter => absurd hbetter himproves

end NodeInfo

/-! ## Every history -/

/-- For every record of every table that the engine can reach, an upgrade reports exactly
the changes and weakens no tag if and only if it fits. -/
theorem RoutingTable.upgrade_honest_iff {Score : Type*} [LinearOrder Score]
    (codec : AddressCodec) (config : EngineConfig Score) (localId : PeerId) (k start : ℕ)
    (ops : List (RoutingOp Score)) (node : NodeInfo)
    (hmem : node ∈ ((RoutingTable.new localId k start).run codec config ops).allNodes)
    (address : MultiAddr) (advertised : AddressType) :
    (((node.mergeTypedAddressUpgradeOnly address advertised).2 = true ↔
        (node.mergeTypedAddressUpgradeOnly address advertised).1.typed ≠ node.typed) ∧
      NeverWeakens node.typed
        (node.mergeTypedAddressUpgradeOnly address advertised).1.typed) ↔
      node.UpgradeFits address (AddressType.forAdvertisedAddress address advertised) := by
  have hkeeps := RoutingTable.run_new_keeps_lanTagged codec config localId k start ops
  exact (hkeeps.mem_allNodes hmem).upgradeOnly_honest_iff address advertised

/-- The record of the peer that enters with one IPv4 address. -/
def enteredWith (tag : AddressType) : NodeInfo :=
  { id := 1
    addresses := [.quic (.v4 0xcb007109 9000)]
    addressTypes := [tag]
    lastSeen := 0 }

/-- Gossip that promotes an address from unverified to direct. -/
theorem upgrade_honest_promoted :
    ((enteredWith .unverified).mergeTypedAddressUpgradeOnly
        (.quic (.v4 0xcb007109 9000)) .direct).2 = true ∧
      NeverWeakens (enteredWith .unverified).typed
        ((enteredWith .unverified).mergeTypedAddressUpgradeOnly
          (.quic (.v4 0xcb007109 9000)) .direct).1.typed := by
  have hnone : (enteredWith .unverified).displaced (.quic (.v4 0xcb007109 9000)) .direct =
      none := by decide +kernel
  have hhonest := (RoutingTable.upgrade_honest_iff { decode := fun _ => none }
    (EngineConfig.withDefaults 20) 0 20 0 [entering [(0xcb007109, .unverified)]]
    (enteredWith .unverified) (by decide +kernel)
    (.quic (.v4 0xcb007109 9000)) .direct).mpr
      fun _ => ⟨fun habsent => absurd (by decide +kernel) habsent, by
        rintro lost hlost
        have hlost' := hnone.symm.trans hlost
        cases hlost'⟩
  exact ⟨hhonest.1.mpr (by decide +kernel), hhonest.2⟩

/-- Gossip of an unverified address for a peer with a direct one: the cap drops it again,
and the merge reports a change. -/
theorem upgrade_reports_bounced :
    enteredWith .direct ∈ ((RoutingTable.new 0 20 0).run { decode := fun _ => none }
        (EngineConfig.withDefaults 20) [entering [(0xcb007109, .direct)]]).allNodes ∧
      ((enteredWith .direct).mergeTypedAddressUpgradeOnly
        (.quic (.v4 0xcb00710a 9000)) .unverified).2 = true ∧
      ((enteredWith .direct).mergeTypedAddressUpgradeOnly
        (.quic (.v4 0xcb00710a 9000)) .unverified).1.typed = (enteredWith .direct).typed := by
  decide +kernel

-- A peer may enter with one address under two tags.  A new direct address then takes the
-- place of the direct copy, and the address stays as a LAN address.
example : ((((RoutingTable.new 0 20 0).run { decode := fun _ => none }
        (EngineConfig.withDefaults 20)
        [entering [(0xcb007109, .direct), (0xcb007109, .lan)]]).allNodes.map fun node =>
          ((node.mergeTypedAddressUpgradeOnly (.quic (.v4 0xcb00710a 9000)) .direct).1.typed)) =
      [quicTyped [(0xcb00710a, .direct), (0xcb007109, .lan)]]) := by
  decide +kernel

end SaorsaCore.Routing
