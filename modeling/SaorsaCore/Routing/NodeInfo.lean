import SaorsaCore.Address.TransportRecord

/-!
# Peer records of the routing table

`NodeInfo` keeps the addresses of a peer and, in a parallel list, one type tag
for each of them.  Records that arrive from the wire may carry fewer tags than
addresses; the missing ones count as `unverified`.  The functions below follow
`NodeInfo` of `core_engine.rs`: merging one typed address at the place its tag
asks for, and the cap of one relay, one WAN and one LAN address for each IP
family.
-/

namespace SaorsaCore.Routing

def maxAddressesPerNode : ℕ := 8

structure NodeInfo where
  id : PeerId
  addresses : List MultiAddr
  addressTypes : List AddressType
  lastSeen : ℕ
  deriving DecidableEq, Repr

namespace NodeInfo

/-- `all_ips`: the canonical IPs of all addresses.  The source collects them
into a set; here the order of the addresses is kept. -/
def allIps (node : NodeInfo) : List IpAddr :=
  (node.addresses.filterMap MultiAddr.canonicalIp).dedup

/-- The tags, with `unverified` for every trailing untagged address. -/
def paddedTypes (node : NodeInfo) : List AddressType :=
  node.addressTypes ++ List.replicate (node.addresses.length - node.addressTypes.length) .unverified

def padTypes (node : NodeInfo) : NodeInfo :=
  { node with addressTypes := node.paddedTypes }

/-- Replace addresses and tags by a list of pairs. -/
def withTyped (node : NodeInfo) (typed : List (MultiAddr × AddressType)) : NodeInfo :=
  { node with
    addresses := typed.map Prod.fst
    addressTypes := typed.map Prod.snd }

/-- Drop every non-storable address together with its tag. -/
def retainStorableAddresses (node : NodeInfo) : NodeInfo :=
  node.withTyped ((node.addresses.zip node.paddedTypes).filter fun pair => pair.1.isStorable)

def addressTypeAt (node : NodeInfo) (index : ℕ) : AddressType :=
  let advertised := node.addressTypes.getD index .unverified
  match node.addresses[index]? with
  | some address => AddressType.forAdvertisedAddress address advertised
  | none => advertised

/-! ## The cap for each IP family -/

def familyMatches (address : MultiAddr) (wantV4 : Bool) : Bool :=
  address.canonicalIp.any fun ip => ip.isIpv4 == wantV4

/-- The indices one IP family may keep: its first relay, its first direct
address or else its first unverified one, and its last LAN address. -/
def familyKeeps (addresses : List MultiAddr) (types : List AddressType) (wantV4 : Bool) : List ℕ :=
  let family := (List.range addresses.length).filter fun index =>
    addresses[index]?.any fun address => familyMatches address wantV4
  let tagged (addressType : AddressType) : List ℕ :=
    family.filter fun index => types[index]? == some addressType
  (tagged .relay).head?.toList ++ ((tagged .direct).head?.or (tagged .unverified).head?).toList
    ++ (tagged .lan).getLast?.toList

/-- `enforce_per_ip_family_cap`; addresses without an IP are exempt. -/
def enforcePerIpFamilyCap (node : NodeInfo) : NodeInfo :=
  let types := node.paddedTypes.take node.addresses.length
  let kept := familyKeeps node.addresses types true ++ familyKeeps node.addresses types false
  let keep := (List.range node.addresses.length).filter fun index =>
    node.addresses[index]?.any (fun address => address.ip.isNone)
      || kept.contains index
  { node with
    addresses := keep.filterMap fun index => node.addresses[index]?
    addressTypes := keep.filterMap fun index => types[index]? }

/-! ## Merging one address -/

/-- The same address may be re-classified: drop its first occurrence. -/
def removeDuplicate (node : NodeInfo) (address : MultiAddr) : NodeInfo :=
  match node.addresses.findIdx? (· == address) with
  | some position =>
    { node with
      addresses := node.addresses.eraseIdx position
      addressTypes := node.addressTypes.eraseIdx position }
  | none => node

def insertAt (node : NodeInfo) (position : ℕ) (address : MultiAddr)
    (addressType : AddressType) : NodeInfo :=
  { node with
    addresses := node.addresses.insertIdx position address
    addressTypes := node.addressTypes.insertIdx position addressType }

/-- Insert at the front of the tier of the tag; LAN addresses go to the end. -/
def insertTyped (node : NodeInfo) (address : MultiAddr) (addressType : AddressType) : NodeInfo :=
  match addressType with
  | .relay => node.insertAt 0 address .relay
  | .direct =>
    let position :=
      (node.addressTypes.findIdx? (· != .relay)).getD node.addresses.length
    node.insertAt position address .direct
  | .unverified =>
    let position :=
      (node.addressTypes.findIdx? fun tag => tag != .relay && tag != .direct).getD
        node.addresses.length
    node.insertAt position address .unverified
  | .lan =>
    { node with
      addresses := node.addresses ++ [address]
      addressTypes := node.addressTypes ++ [.lan] }

def truncateAddresses (node : NodeInfo) : NodeInfo :=
  let addresses := node.addresses.take maxAddressesPerNode
  { node with
    addresses := addresses
    addressTypes := node.addressTypes.take addresses.length }

def mergeTypedAddress (node : NodeInfo) (address : MultiAddr)
    (advertised : AddressType) : NodeInfo :=
  if address.isStorable then
    let addressType := AddressType.forAdvertisedAddress address advertised
    let merged := (node.padTypes.removeDuplicate address).insertTyped
      address addressType
    merged.enforcePerIpFamilyCap.truncateAddresses
  else node

/-- `merge_typed_address_upgrade_only`: refuse to replace a tag by one of equal
or lower preference.  The flag says whether the merge was carried out. -/
def mergeTypedAddressUpgradeOnly (node : NodeInfo) (address : MultiAddr)
    (advertised : AddressType) : NodeInfo × Bool :=
  if address.isStorable then
    let addressType := AddressType.forAdvertisedAddress address advertised
    match node.addresses.findIdx? (· == address) with
    | some position =>
      if (node.addressTypeAt position).priority ≤ addressType.priority then
        (node, false)
      else (node.mergeTypedAddress address addressType, true)
    | none => (node.mergeTypedAddress address addressType, true)
  else (node, false)

/-- The loopback-injection guard: a loopback address is never merged into a
record that already has a non-loopback one. -/
def skipsLoopback (node : NodeInfo) (address : MultiAddr) : Bool :=
  address.canonicalIp.any IpAddr.isLoopback && node.addresses.any fun known =>
      known.canonicalIp.any fun ip => !ip.isLoopback

/-- Not seen for longer than the live threshold. -/
def isStale (node : NodeInfo) (threshold now : ℕ) : Bool :=
  decide (now - node.lastSeen > threshold)

/-! ## None of these functions touches the identity -/

@[simp]
theorem id_retainStorableAddresses (node : NodeInfo) :
    node.retainStorableAddresses.id = node.id := rfl

@[simp]
theorem id_removeDuplicate (node : NodeInfo) (address : MultiAddr) :
    (node.removeDuplicate address).id = node.id := by
  rw [removeDuplicate]
  split <;> rfl

@[simp]
theorem id_insertTyped (node : NodeInfo) (address : MultiAddr) (addressType : AddressType) :
    (node.insertTyped address addressType).id = node.id := by
  cases addressType <;> rfl

@[simp]
theorem id_mergeTypedAddress (node : NodeInfo) (address : MultiAddr) (advertised : AddressType) :
    (node.mergeTypedAddress address advertised).id = node.id := by
  rw [mergeTypedAddress]
  split
  · calc
      _ = ((node.padTypes.removeDuplicate address).insertTyped address
            (AddressType.forAdvertisedAddress address advertised)).id := rfl
      _ = node.id := by
        rw [id_insertTyped, id_removeDuplicate]
        rfl
  · rfl

@[simp]
theorem id_mergeTypedAddressUpgradeOnly (node : NodeInfo)
    (address : MultiAddr) (advertised : AddressType) :
    (node.mergeTypedAddressUpgradeOnly address advertised).1.id = node.id := by
  simp only [mergeTypedAddressUpgradeOnly]
  split
  · split
    · split <;> simp
    · simp
  · rfl

/-! ## Capping and truncating only drops addresses -/

theorem addresses_enforcePerIpFamilyCap_subset (node : NodeInfo) :
    node.enforcePerIpFamilyCap.addresses ⊆ node.addresses := by
  intro address hmem
  simp only [enforcePerIpFamilyCap, List.mem_filterMap] at hmem
  obtain ⟨index, -, haddress⟩ := hmem
  exact List.mem_of_getElem? haddress

theorem allIps_subset {left right : NodeInfo} (hsubset : left.addresses ⊆ right.addresses) :
    left.allIps ⊆ right.allIps := by
  intro ip hmem
  rw [allIps, List.mem_dedup, List.mem_filterMap] at hmem ⊢
  obtain ⟨address, haddress, hip⟩ := hmem
  exact ⟨address, hsubset haddress, hip⟩

end NodeInfo

end SaorsaCore.Routing
