import SaorsaCore.Identity

/-!
# The range of a bucket

The bucket of a key is the position of the first bit in which the key differs from the
node.  Buckets therefore order the peers by their distance from the node, and the peers in
the bucket of a key are closer to the key than the node is.  The refresh of a bucket looks
up a key with random bits behind that position, which is a key of the bucket, and every key
of the bucket can be drawn.
-/

namespace SaorsaCore

/-! ## Buckets and distances -/

/-- Numbers are ordered by the first bit in which they differ. -/
theorem toNat_lt_of_getMsbD {width index : ℕ} {left right : BitVec width} (hindex : index < width)
    (hleft : left.getMsbD index = false) (hright : right.getMsbD index = true)
    (hearlier : ∀ earlier < index, left.getMsbD earlier = right.getMsbD earlier) :
    left.toNat < right.toNat := by
  have hbit (value : BitVec width) {position : ℕ} (hposition : position < width) :
      value.toNat.testBit (width - 1 - position) = value.getMsbD position := by
    simp [BitVec.getMsbD_eq_getLsbD, BitVec.testBit_toNat, hposition]
  apply Nat.lt_of_testBit (width - 1 - index)
  · rw [hbit left hindex, hleft]
  · rw [hbit right hindex, hright]
  · intro position hposition
    by_cases hwithin : position < width
    · have hback : width - 1 - (width - 1 - position) = position := by omega
      have hsame := hearlier (width - 1 - position) (by omega)
      rwa [← hbit left (by omega), ← hbit right (by omega), hback] at hsame
    · rw [BitVec.testBit_toNat, BitVec.testBit_toNat, BitVec.getLsbD_of_ge _ _ (by omega),
        BitVec.getLsbD_of_ge _ _ (by omega)]

/-- The peers in the bucket of a key are closer to it than the node, and the peers of an
earlier bucket are farther from the node than those of a later one. -/
theorem buckets_order_distances (self : DhtKey) :
    (∀ key peer index, bucketIndexForKey self key = some index →
      bucketIndexForKey self peer = some index → xorDistance peer key < xorDistance self key) ∧
    ∀ far near earlier later, bucketIndexForKey self far = some earlier →
      bucketIndexForKey self near = some later → earlier < later →
        xorDistance self near < xorDistance self far := by
  simp only [bucketIndexForKey_eq_some_iff]
  constructor
  · rintro key peer index ⟨hkey, hkeyEarlier⟩ ⟨hpeer, hpeerEarlier⟩
    apply toNat_lt_of_getMsbD index.isLt
    · -- both differ from the node at this bit
      rw [BitVec.getMsbD_xor, Bool.eq_not.mpr hkey.symm, Bool.eq_not.mpr hpeer.symm]
      simp
    · rw [BitVec.getMsbD_xor]
      simpa using hkey
    · intro position hposition
      have hpeerBit := hpeerEarlier ⟨position, hposition.trans index.isLt⟩ hposition
      rw [BitVec.getMsbD_xor, BitVec.getMsbD_xor, hpeerBit]
  · rintro far near earlier later ⟨hfar, hfarEarlier⟩ ⟨-, hnearEarlier⟩ hless
    apply toNat_lt_of_getMsbD earlier.isLt
    · rw [BitVec.getMsbD_xor, hnearEarlier earlier hless]
      simp
    · rw [BitVec.getMsbD_xor]
      simpa using hfar
    · intro position hposition
      have hfarBit := hfarEarlier ⟨position, hposition.trans earlier.isLt⟩ hposition
      have hnearBit := hnearEarlier ⟨position, hposition.trans earlier.isLt⟩
        (lt_trans (Fin.mk_lt_of_lt_val hposition) hless)
      rw [BitVec.getMsbD_xor, BitVec.getMsbD_xor, ← hfarBit, ← hnearBit]

/-- Both sides, for the node 0 and the keys 2 and 3 of its bucket 254. -/
theorem buckets_order_distances_smallKeys :
    xorDistance 3 2 < xorDistance 0 2 ∧ xorDistance 0 1 < xorDistance 0 2 := by
  have hbucket (key : DhtKey) (index : Fin 256) (hdiffers : (0 : DhtKey).getMsbD index ≠
      key.getMsbD index ∧ ∀ earlier < index, (0 : DhtKey).getMsbD earlier = key.getMsbD earlier) :
      bucketIndexForKey 0 key = some index :=
    (bucketIndexForKey_eq_some_iff 0 key index).mpr hdiffers
  obtain ⟨hcloser, hfarther⟩ := buckets_order_distances 0
  exact ⟨hcloser 2 3 254 (hbucket _ _ (by decide +kernel)) (hbucket _ _ (by decide +kernel)),
    hfarther 2 1 254 255 (hbucket _ _ (by decide +kernel)) (hbucket _ _ (by decide +kernel))
      (by decide)⟩

/-! ## Random keys -/

/-- `KADEMLIA_BUCKET_COUNT` -/
def kademliaBucketCount : ℕ := 256

/-- `DhtKey::from_bytes` -/
def keyFromBytes (bytes : ℕ → BitVec 8) : DhtKey :=
  BitVec.ofFnBE fun index : Fin 256 => (bytes (index / 8)).getMsbD (index % 8)

/-- The distance bytes of `generate_random_key_for_bucket`: the leading bit, random bits
below it in its byte, and random bytes behind it. -/
def randomDistance (bucketIdx : ℕ) (randomBytes : PeerId) (index : ℕ) : BitVec 8 :=
  let byteIdx := bucketIdx / 8
  let leading : BitVec 8 := 1#8 <<< (7 - bucketIdx % 8)
  let belowMask := leading - 1#8
  if index < byteIdx then 0#8
  else if index = byteIdx then leading ||| byteAt randomBytes index &&& belowMask
  else byteAt randomBytes index

/-- The random bytes are those of `PeerId::random`. -/
def generateRandomKeyForBucket (self : DhtKey) (bucketIdx : ℕ) (randomBytes : PeerId) :
    Option DhtKey :=
  if bucketIdx ≥ kademliaBucketCount then none
  else some (keyFromBytes fun index =>
    byteAt self index ^^^ randomDistance bucketIdx randomBytes index)

theorem getMsbD_byteAt (key : DhtKey) {position : ℕ} (hposition : position < 256) :
    (byteAt key (position / 8)).getMsbD (position % 8) = key.getMsbD position := by
  rw [byteAt, BitVec.getMsbD_eq_getLsbD, BitVec.getMsbD_eq_getLsbD, BitVec.getLsbD_extractLsb']
  have hoffset : 8 * (31 - position / 8) + (7 - position % 8) = 255 - position := by omega
  simp [hoffset, hposition, Nat.mod_lt, show 7 - position % 8 < 8 by omega]

/-- The bits of one byte around the leading bit. -/
private theorem getMsbD_leading (byte : BitVec 8) {bit position : ℕ} (hbit : bit < 8)
    (hposition : position < 8) :
    (1#8 <<< (7 - bit) ||| byte &&& (1#8 <<< (7 - bit) - 1#8)).getMsbD position =
      (decide (position = bit) || decide (bit < position) && byte.getMsbD position) := by
  interval_cases bit <;> interval_cases position <;> revert byte <;> decide +kernel

theorem getMsbD_randomDistance {bucketIdx position : ℕ} (randomBytes : PeerId)
    (hposition : position < 256) :
    (randomDistance bucketIdx randomBytes (position / 8)).getMsbD (position % 8) =
      (decide (position = bucketIdx) ||
        decide (bucketIdx < position) && randomBytes.getMsbD position) := by
  rw [randomDistance]
  split_ifs with hbefore hsame
  · rw [decide_eq_false (by omega : position ≠ bucketIdx),
      decide_eq_false (by omega : ¬bucketIdx < position)]
    simp
  · rw [getMsbD_leading _ (by omega) (by omega), getMsbD_byteAt _ hposition]
    congr 1
    · exact decide_eq_decide.mpr (by omega)
    · congr 1
      exact decide_eq_decide.mpr (by omega)
  · rw [getMsbD_byteAt _ hposition, decide_eq_false (by omega : position ≠ bucketIdx),
      decide_eq_true (by omega : bucketIdx < position)]
    simp

/-- Bit by bit: as the node before the bucket's position, different there, random behind. -/
theorem generateRandomKeyForBucket_eq_some_iff (self key : DhtKey) (index : Fin 256)
    (randomBytes : PeerId) :
    generateRandomKeyForBucket self index randomBytes = some key ↔
      ∀ position : Fin 256, key.getMsbD position = (self.getMsbD position ^^
        (decide (position = index) || decide (index < position) &&
          randomBytes.getMsbD position)) := by
  rw [generateRandomKeyForBucket, if_neg (by rw [kademliaBucketCount]; omega), Option.some.injEq]
  have hbits (position : Fin 256) : (keyFromBytes fun index' => byteAt self index' ^^^
      randomDistance index randomBytes index').getMsbD position = (self.getMsbD position ^^
        (decide (position = index) || decide (index < position) &&
          randomBytes.getMsbD position)) := by
    rw [keyFromBytes, BitVec.getMsbD_ofFnBE, dif_pos position.isLt, BitVec.getMsbD_xor,
      getMsbD_byteAt _ position.isLt, getMsbD_randomDistance _ position.isLt]
    simp only [Fin.ext_iff, Fin.lt_def]
  constructor
  · rintro rfl position
    exact hbits position
  · intro hkey
    apply BitVec.eq_of_getMsbD_eq
    intro position hposition
    exact (hbits ⟨position, hposition⟩).trans (hkey ⟨position, hposition⟩).symm

/-- The keys that can be drawn for a bucket are the keys of the bucket. -/
theorem randomKeys_fill_bucket (self : DhtKey) (index : Fin 256) :
    (∀ randomBytes, ∃ key, generateRandomKeyForBucket self index randomBytes = some key ∧
      bucketIndexForKey self key = some index) ∧
    ∀ key, bucketIndexForKey self key = some index →
      ∃ randomBytes, generateRandomKeyForBucket self index randomBytes = some key := by
  constructor
  · intro randomBytes
    obtain ⟨key, hkey⟩ : ∃ key, generateRandomKeyForBucket self index randomBytes = some key := by
      rw [generateRandomKeyForBucket, if_neg (by rw [kademliaBucketCount]; omega)]
      exact ⟨_, rfl⟩
    refine ⟨key, hkey, ?_⟩
    rw [generateRandomKeyForBucket_eq_some_iff] at hkey
    rw [bucketIndexForKey_eq_some_iff]
    constructor
    · rw [hkey index]
      simp
    · intro earlier hearlier
      rw [hkey earlier]
      simp [hearlier.ne, hearlier.asymm]
  · intro key hbucket
    rw [bucketIndexForKey_eq_some_iff] at hbucket
    obtain ⟨hdiffers, hagrees⟩ := hbucket
    refine ⟨self ^^^ key, ?_⟩
    rw [generateRandomKeyForBucket_eq_some_iff]
    intro position
    rw [BitVec.getMsbD_xor]
    rcases lt_trichotomy position index with hbefore | rfl | hbehind
    · simp [hagrees position hbefore, hbefore.ne, hbefore.asymm]
    · revert hdiffers
      cases self.getMsbD position <;> cases key.getMsbD position <;> simp
    · simp [hbehind, hbehind.ne']

end SaorsaCore
