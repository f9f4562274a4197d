import SaorsaCore.Manager.FindNodeAnswer

/-!
# Paths through the network

Where no table leaves a bucket empty that has members, a chain of answers to FIND_NODE leads
from every member to the one closest to a key.  Each link has one more leading bit of it.
-/

namespace SaorsaCore

/-! ## Leading bits -/

theorem leading_mono {few many : ℕ} (hle : few ≤ many) {left right : DhtKey}
    (hsame : left >>> few = right >>> few) : left >>> many = right >>> many := by
  obtain ⟨more, rfl⟩ := Nat.exists_eq_add_of_le hle
  simp only [BitVec.shiftRight_add, hsame]

/-- What is at a distance between two keys with the same leading bits has them too. -/
theorem leading_eq_of_between {rest : ℕ} {least peer most key : DhtKey}
    (hleast : xorDistance least key ≤ xorDistance peer key)
    (hmost : xorDistance peer key ≤ xorDistance most key)
    (hsame : most >>> rest = least >>> rest) : peer >>> rest = least >>> rest := by
  have hleading (left : DhtKey) :
      xorDistance left key / 2 ^ rest = xorDistance (left >>> rest) (key >>> rest) := by
    rw [xorDistance, xorDistance, ← BitVec.ushiftRight_xor_distrib, BitVec.toNat_ushiftRight,
      Nat.shiftRight_eq_div_pow]
  have hlower := Nat.div_le_div_right (c := 2 ^ rest) hleast
  have hupper := Nat.div_le_div_right (c := 2 ^ rest) hmost
  rw [hleading, hleading] at hlower hupper
  rw [hsame] at hupper
  exact xorDistance_left_injective _ (hupper.antisymm hlower)

/-- The keys of a bucket have their bits up to the index of the bucket in common, and the node
differs from them there. -/
theorem leading_of_bucketIndexForKey {self peer other : DhtKey} {index : Fin 256}
    (hpeer : bucketIndexForKey self peer = some index)
    (hother : bucketIndexForKey self other = some index) :
    peer >>> (255 - index : ℕ) = other >>> (255 - index : ℕ) ∧
      self >>> (255 - index : ℕ) ≠ other >>> (255 - index : ℕ) := by
  rw [bucketIndexForKey_eq_some_iff] at hpeer hother
  constructor
  · apply BitVec.eq_of_getMsbD_eq
    intro position hposition
    simp only [BitVec.getMsbD_ushiftRight]
    congr 2
    rcases (show position - (255 - index) ≤ index by omega).lt_or_eq with hearlier | hat
    · exact (hpeer.2 ⟨_, hearlier.trans index.isLt⟩ hearlier).symm.trans
        (hother.2 ⟨_, hearlier.trans index.isLt⟩ hearlier)
    · rw [hat, Bool.eq_not.mpr hpeer.1.symm, Bool.eq_not.mpr hother.1.symm]
  · intro hsame
    have hbit := congrArg (BitVec.getMsbD · 255) hsame
    have hindex : 255 - (255 - index : ℕ) = index ∧ ¬255 < 255 - (index : ℕ) := by omega
    simp [BitVec.getMsbD_ushiftRight, hindex, hother.1] at hbit

namespace Manager

open Routing Closest List

/-! ## The network -/

/-- Every member has a table of members, with one of each bucket that has members. -/
structure Network (Score : Type) where
  members : List PeerId
  /-- The settings that the members share. -/
  config : ManagerConfig Score
  /-- What the visits of a member to its store find. -/
  found : PeerId → ℕ → AddressStore
  kValue_pos : 0 < config.engine.kValue
  valid : ∀ member ∈ members, (found member 0).table.Valid member config.engine.kValue
  known : ∀ member ∈ members, (found member 0).table.allNodes.map NodeInfo.id ⊆ members
  buckets : ∀ member ∈ members, ∀ other ∈ members, other ≠ member →
    ∃ peer ∈ (found member 0).table.allNodes.map NodeInfo.id,
      bucketIndexForKey member peer = bucketIndexForKey member other

variable {Score : Type} (network : Network Score) (key requester : PeerId)

def Network.settings (member : PeerId) : ManagerConfig Score :=
  { network.config with peerId := member }

/-- Asked for the key, a member names the peer, or knows it and leaves it out as the one
that asks. -/
def Network.Names (member named : PeerId) : Prop :=
  named ∈ ((findNodeAnswer (network.settings member) key requester).answer
      (network.found member)).map DHTNode.peerId ∨
    (named = requester ∧ named ∈ (network.found member 0).table.allNodes.map NodeInfo.id)

section

variable {network} {member : PeerId} (hmember : member ∈ network.members)
include hmember

theorem Network.exists_names {peer : PeerId}
    (hpeer : peer ∈ (network.found member 0).table.allNodes.map NodeInfo.id) :
    ∃ named ∈ network.members, network.Names key requester member named ∧
      xorDistance named key ≤ xorDistance peer key := by
  have hvalid : (network.found member 0).table.Valid (network.settings member).peerId _ :=
    network.valid member hmember
  obtain ⟨named, hnamed, hleast⟩ := Finset.exists_min_image
    ((network.found member 0).table.allNodes.map NodeInfo.id).toFinset (xorDistance · key)
    ⟨peer, mem_toFinset.mpr hpeer⟩
  simp only [mem_toFinset] at hnamed hleast
  have hfirst : named ∈ closestPeers (network.found member 0).table key
      (network.settings member).engine.kValue := by
    rw [closestPeers, mem_closest_iff (hvalid.nodup_allNodes_ids.map
      (xorDistance_left_injective key)), rank, countP_eq_zero.mpr (by simpa using hleast)]
    exact ⟨hnamed, network.kValue_pos⟩
  refine ⟨named, network.known member hmember hnamed, ?_, hleast peer hpeer⟩
  rw [Names, peerIds_findNodeAnswer hvalid, mem_filter, decide_eq_true_iff]
  by_cases hasks : named = requester
  · exact .inr ⟨hasks, hnamed⟩
  · exact .inl ⟨hfirst, hasks⟩

variable {closest : PeerId} (hclosest : closest ∈ network.members)
  (hleast : ∀ other ∈ network.members, xorDistance closest key ≤ xorDistance other key)
include hclosest hleast

/-- A member names somebody who is closer and has one more leading bit of the closest one. -/
theorem Network.exists_link {rest : ℕ} (hsame : member >>> (rest + 1) = closest >>> (rest + 1))
    (hne : closest ≠ member) :
    ∃ named ∈ network.members, network.Names key requester member named ∧
      xorDistance named key < xorDistance member key ∧ named >>> rest = closest >>> rest := by
  obtain ⟨peer, hpeer, hbucket⟩ := network.buckets member hmember closest hclosest hne
  obtain ⟨named, hnamed, hnames, hcloser⟩ := exists_names key requester hmember hpeer
  obtain ⟨index, hindex⟩ := Option.ne_none_iff_exists'.mp
    (mt (bucketIndexForKey_eq_none_iff _ _).mp hne)
  obtain ⟨hpeers, hdiffers⟩ := leading_of_bucketIndexForKey (hbucket.trans hindex) hindex
  have hleading := leading_eq_of_between (hleast named hnamed) hcloser hpeers
  refine ⟨named, hnamed, hnames, lt_of_not_ge fun hfarther => ?_, ?_⟩
  · exact hdiffers (leading_eq_of_between (hleast member hmember) hfarther hleading)
  · apply leading_mono _ hleading
    by_contra hless
    exact hdiffers (leading_mono (not_le.mp hless) hsame)

/-- A chain of answers leads from every member to the closest one.  Each link comes closer to
the key, and there are no more links than bits behind those that the two have in common. -/
theorem exists_path_to_closest {rest : ℕ} (hsame : member >>> rest = closest >>> rest) :
    ∃ path : List PeerId, path.length ≤ rest ∧ (member :: path).getLast? = some closest ∧
      (member :: path).IsChain fun asked named => network.Names key requester asked named ∧
        xorDistance named key < xorDistance asked key := by
  induction rest generalizing member with
  | zero => exact ⟨[], le_rfl, by simpa using hsame, .singleton member⟩
  | succ rest ih =>
    by_cases hne : closest = member
    · exact ⟨[], Nat.zero_le _, by simp [hne], .singleton member⟩
    · obtain ⟨named, hnamed, hnames, hcloser, hmore⟩ :=
        Network.exists_link key requester hmember hclosest hleast hsame hne
      obtain ⟨path, hlength, hlast, hchain⟩ := ih hnamed hmore
      exact ⟨named :: path, Nat.succ_le_succ hlength, by simpa using hlast,
        .cons_cons ⟨hnames, hcloser⟩ hchain⟩

end

/-! Peer `0` knows peer `8` only, and the peers `8` and `12` know each other and peer `0`. -/

private def neighbours (self : PeerId) : List PeerId :=
  if self = 0 then [8] else [0, if self = 8 then 12 else 8]

private def tripleTable (self : PeerId) : RoutingTable :=
  (RoutingTable.new self 4 0).run { decode := fun _ => none } (EngineConfig.withDefaults 4)
    ((neighbours self).map fun peer =>
      .admission (.insertion _) { trustScore := fun _ => 50, now := 0 }
        (exampleNode peer [BitVec.ofNat 32 (0xcb007101 + 256 * peer.toNat)]))

private theorem ids_tripleTable : (tripleTable 0).allNodes.map NodeInfo.id = [8] ∧
    (tripleTable 8).allNodes.map NodeInfo.id = [0, 12] ∧
    (tripleTable 12).allNodes.map NodeInfo.id = [0, 8] := by
  decide +kernel

private theorem bucket_neighbours :
    bucketIndexForKey 0 8 = bucketIndexForKey 0 12 := by
  decide +kernel

private def tripleNetwork : Network ℕ where
  members := [0, 8, 12]
  config := lonelyManager
  found self _ :=
    { table := tripleTable self, context := { localWanIps := [] }, now := 0, statements := [] }
  kValue_pos := Nat.succ_pos _
  valid self _ := RoutingTable.run_valid _ _ _ (.new self 4 0)
  known := by simp only [forall_mem_cons, ids_tripleTable]; simp
  buckets := by simp only [forall_mem_cons, ids_tripleTable]; simpa using bucket_neighbours

theorem exists_path_to_closest_triple : ∃ path : List PeerId, path.length ≤ 4 ∧
    (0 :: path).getLast? = some 12 ∧ (0 :: path).IsChain fun asked named =>
      tripleNetwork.Names 12 0 asked named ∧ xorDistance named 12 < xorDistance asked 12 := by
  have hmembers : tripleNetwork.members = [0, 8, 12] := rfl
  apply exists_path_to_closest
  all_goals simp [hmembers, xorDistance]

end Manager

end SaorsaCore
