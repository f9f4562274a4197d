import Mathlib

/-!
# Peer identities and the XOR metric

A `PeerId` is a 32-byte string; DHT keys use the same type.  It is represented
here by the 256-bit big-endian number of those bytes, so that the byte-wise
lexicographic order in which the Rust code compares two distances is the order
of the numbers.  Bucket indices are computed bit by bit from the distance bytes,
as `get_bucket_index_for_key` does, and then shown to be the position of the
first bit in which the two identities differ.
-/

namespace SaorsaCore

/-- A 32-byte peer identity; byte `0` is the most significant one. -/
abbrev PeerId := BitVec 256

/-- A DHT key is a direct alias for a peer identity. -/
abbrev DhtKey := PeerId

/-- The byte at position `index` of the 32-byte string. -/
def byteAt (key : DhtKey) (index : ℕ) : BitVec 8 :=
  key.extractLsb' (8 * (31 - index)) 8

namespace PeerId

/-- The digit at a position of the hexadecimal text, the most significant first. -/
def nibbleAt (peer : PeerId) (index : ℕ) : BitVec 4 :=
  peer.extractLsb' (4 * (63 - index)) 4

def hexDigit (nibble : BitVec 4) : Char :=
  Char.ofNat (if nibble.toNat < 10 then 48 + nibble.toNat else 87 + nibble.toNat)

/-- `to_hex`: 64 lowercase digits. -/
def toHex (peer : PeerId) : String :=
  String.ofList ((List.range 64).map fun index => hexDigit (nibbleAt peer index))

end PeerId

/-- `xor_distance_bytes`, read as a big-endian number. -/
def xorDistance (left right : DhtKey) : ℕ :=
  (left ^^^ right).toNat

theorem xorDistance_comm (left right : DhtKey) :
    xorDistance left right = xorDistance right left := by
  rw [xorDistance, xorDistance, BitVec.xor_comm]

/-- Two peers at the same distance from a target are the same peer. -/
theorem xorDistance_right_injective (target : DhtKey) :
    Function.Injective (xorDistance target) := by
  intro left right heq
  exact (BitVec.xor_right_inj target).mp (BitVec.eq_of_toNat_eq heq)

theorem xorDistance_left_injective (target : DhtKey) :
    Function.Injective fun peer => xorDistance peer target := by
  intro left right heq
  simp only [xorDistance_comm _ target] at heq
  exact xorDistance_right_injective target heq

/-! ## Bucket indices -/

/-- The test `(distance[i / 8] >> (7 - i % 8)) & 1 == 1` of the bucket scan. -/
def distanceBit (distance : DhtKey) (index : ℕ) : Bool :=
  byteAt distance (index / 8) >>> (7 - index % 8) &&& 1#8 == 1#8

/-- `get_bucket_index_for_key`: the first set bit of the distance to `self`,
or nothing for `self` itself. -/
def bucketIndexForKey (self key : DhtKey) : Option (Fin 256) :=
  Fin.find? fun index => distanceBit (self ^^^ key) index

private theorem byte_test_eq_getLsbD (byte : BitVec 8) (position : ℕ) (hposition : position < 8) :
    (byte >>> position &&& 1#8 == 1#8) = byte.getLsbD position := by
  interval_cases position <;> revert byte <;> decide +kernel

theorem distanceBit_eq_getMsbD (distance : DhtKey) (index : ℕ) (hindex : index < 256) :
    distanceBit distance index = distance.getMsbD index := by
  rw [distanceBit, byte_test_eq_getLsbD _ _ (by omega), byteAt,
    BitVec.getLsbD_extractLsb', BitVec.getMsbD_eq_getLsbD]
  have hoffset : 8 * (31 - index / 8) + (7 - index % 8) = 255 - index := by
    omega
  have hposition : 7 - index % 8 < 8 := by omega
  simp [hindex, hoffset, hposition]

/-- The bucket of a key is the position of the first bit in which it differs
from `self`. -/
theorem bucketIndexForKey_eq_some_iff (self key : DhtKey) (index : Fin 256) :
    bucketIndexForKey self key = some index ↔ self.getMsbD index ≠ key.getMsbD index ∧
        ∀ earlier < index, self.getMsbD earlier = key.getMsbD earlier := by
  rw [bucketIndexForKey, Fin.find?_eq_some_iff]
  simp only [distanceBit_eq_getMsbD _ _ (Fin.isLt _), BitVec.getMsbD_xor]
  simp

theorem bucketIndexForKey_eq_none_iff (self key : DhtKey) :
    bucketIndexForKey self key = none ↔ key = self := by
  rw [bucketIndexForKey, Fin.find?_eq_none_iff]
  simp only [distanceBit_eq_getMsbD _ _ (Fin.isLt _), BitVec.getMsbD_xor]
  constructor
  · intro hagree
    apply BitVec.eq_of_getMsbD_eq
    intro position hposition
    have hbit := hagree ⟨position, hposition⟩
    simp only [bne_eq_false_iff_eq] at hbit
    exact hbit.symm
  · rintro rfl
    simp

@[simp]
theorem bucketIndexForKey_self (self : DhtKey) : bucketIndexForKey self self = none :=
  (bucketIndexForKey_eq_none_iff self self).mpr rfl

-- The scan over 256 positions must not be unfolded by definitional unfolding;
-- the two characterisations above are its interface.
attribute [irreducible] bucketIndexForKey

end SaorsaCore
