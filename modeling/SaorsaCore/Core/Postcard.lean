import Mathlib.Data.List.Basic
import Mathlib.Data.UInt
import Mathlib.Logic.Function.Basic

/-!
# Encodings that tell where they end

The rules of the Postcard format: numbers in groups of seven bits, strings, byte strings
and sequences behind their length, tuples as the concatenation of their components.  No
tag separates the components, so what carries an encoding through a tuple is that it
tells where it ends: the value and the rest of the input can be told from the bytes.
-/

namespace SaorsaCore.Postcard

open List

variable {A B : Type*}

/-- Whatever bytes follow, the value and those bytes can be recovered. -/
def SelfDelimiting (encode : A → List UInt8) : Prop :=
  ∀ left right leftRest rightRest, encode left ++ leftRest = encode right ++ rightRest →
    left = right ∧ leftRest = rightRest

variable {encode : A → List UInt8}

theorem SelfDelimiting.injective (hencode : SelfDelimiting encode) : Function.Injective encode := by
  intro left right heq
  apply (hencode left right [] [] _).1
  rw [append_nil, append_nil]
  exact heq

/-- A value may be encoded through another one that determines it. -/
theorem SelfDelimiting.comp {encode : B → List UInt8} (hencode : SelfDelimiting encode)
    {view : A → B} (hview : Function.Injective view) :
    SelfDelimiting (encode ∘ view) := by
  intro left right leftRest rightRest heq
  obtain ⟨hsame, hrest⟩ := hencode _ _ _ _ heq
  exact ⟨hview hsame, hrest⟩

/-- The encoding of a tuple. -/
theorem SelfDelimiting.append {first : A → List UInt8} {second : B → List UInt8}
    (hfirst : SelfDelimiting first) (hsecond : SelfDelimiting second) :
    SelfDelimiting fun pair : A × B => first pair.1 ++ second pair.2 := by
  rintro ⟨leftFirst, leftSecond⟩ ⟨rightFirst, rightSecond⟩ leftRest rightRest heq
  simp only [append_assoc] at heq
  obtain ⟨rfl, htail⟩ := hfirst _ _ _ _ heq
  obtain ⟨rfl, hrest⟩ := hsecond _ _ _ _ htail
  exact ⟨rfl, hrest⟩

open Classical in
/-- The value at the start of the input and what follows it. -/
noncomputable def reader (encode : A → List UInt8) (input : List UInt8) : Option (A × List UInt8) :=
  if hread : ∃ value rest, encode value ++ rest = input then
    some (hread.choose, hread.choose_spec.choose)
  else none

/-- What tells where it ends can be read. -/
theorem SelfDelimiting.reader_append (hencode : SelfDelimiting encode) (value : A)
    (rest : List UInt8) : reader encode (encode value ++ rest) = some (value, rest) := by
  have hread : ∃ other otherRest, encode other ++ otherRest = encode value ++ rest :=
    ⟨value, rest, rfl⟩
  obtain ⟨hvalue, hrest⟩ := hencode _ _ _ _ hread.choose_spec.choose_spec
  rw [reader, dif_pos hread, hrest, hvalue]

/-! ## Numbers -/

/-- Seven bits to a byte, the lowest first; the high bit says that more follow. -/
def varint (value : ℕ) : List UInt8 :=
  if value < 128 then [UInt8.ofNat value]
  else UInt8.ofNat (value % 128 + 128) :: varint (value / 128)
termination_by value
decreasing_by omega

variable {value : ℕ}

theorem varint_of_lt (hlt : value < 128) : varint value = [UInt8.ofNat value] := by
  rw [varint, if_pos hlt]

theorem varint_of_le (hle : 128 ≤ value) :
    varint value = UInt8.ofNat (value % 128 + 128) :: varint (value / 128) := by
  rw [varint, if_neg hle.not_gt]

/-- Bytes below 256 are told apart by their numbers. -/
theorem ofNat_inj {left right : ℕ} (hleft : left < 256) (hright : right < 256)
    (heq : UInt8.ofNat left = UInt8.ofNat right) : left = right := by
  have hnat := congrArg UInt8.toNat heq
  rw [UInt8.toNat_ofNat_of_lt' hleft, UInt8.toNat_ofNat_of_lt' hright] at hnat
  exact hnat

theorem varint_selfDelimiting : SelfDelimiting varint := by
  intro left
  induction left using Nat.strong_induction_on with
  | _ left ih =>
    intro right leftRest rightRest heq
    by_cases hleft : left < 128
    · by_cases hright : right < 128
      · rw [varint_of_lt hleft, varint_of_lt hright] at heq
        obtain ⟨hbyte, hrest⟩ := cons.inj heq
        exact ⟨ofNat_inj (by omega) (by omega) hbyte, hrest⟩
      · rw [varint_of_lt hleft, varint_of_le (not_lt.mp hright)] at heq
        have hbyte := ofNat_inj (by omega) (by omega) (cons.inj heq).1
        omega
    · by_cases hright : right < 128
      · rw [varint_of_le (not_lt.mp hleft), varint_of_lt hright] at heq
        have hbyte := ofNat_inj (by omega) (by omega) (cons.inj heq).1
        omega
      · rw [varint_of_le (not_lt.mp hleft), varint_of_le (not_lt.mp hright)] at heq
        obtain ⟨hbyte, htail⟩ := cons.inj heq
        have hlow := ofNat_inj (by omega) (by omega) hbyte
        obtain ⟨hhigh, hrest⟩ := ih (left / 128) (by omega) _ _ _ htail
        exact ⟨by omega, hrest⟩

variable {groups : ℕ}

/-- As many bytes as groups of seven bits. -/
theorem length_varint_le (hlt : value < 128 ^ (groups + 1)) :
    (varint value).length ≤ groups + 1 := by
  induction groups generalizing value with
  | zero => rw [varint_of_lt (by omega), length_singleton]
  | succ groups ih =>
    by_cases hsmall : value < 128
    · rw [varint_of_lt hsmall, length_singleton]
      omega
    · have hrest : value / 128 < 128 ^ (groups + 1) := by
        apply Nat.div_lt_of_lt_mul
        rwa [Nat.mul_comm, ← Nat.pow_succ]
      rw [varint_of_le (not_lt.mp hsmall), length_cons]
      exact Nat.succ_le_succ (ih hrest)

/-! ## Strings and sequences -/

/-- A byte string behind its length. -/
def bytes (content : List UInt8) : List UInt8 :=
  varint content.length ++ content

theorem bytes_selfDelimiting : SelfDelimiting bytes := by
  intro left right leftRest rightRest heq
  simp only [bytes, append_assoc] at heq
  obtain ⟨hlength, hcontent⟩ := varint_selfDelimiting _ _ _ _ heq
  exact append_inj hcontent hlength

theorem length_bytes_le {content : List UInt8} {limit : ℕ} (hcontent : content.length ≤ limit)
    (hlimit : limit < 128 ^ (groups + 1)) : (bytes content).length ≤ groups + 1 + limit := by
  have hnumber := length_varint_le (Nat.lt_of_le_of_lt hcontent hlimit)
  rw [bytes, length_append]
  omega

def utf8 (text : String) : List UInt8 := text.toByteArray.data.toList

/-- A text of characters of one byte has as many bytes as characters. -/
theorem length_utf8_ofList {chars : List Char} (hchars : ∀ char ∈ chars, char.utf8Size = 1) :
    (utf8 (String.ofList chars)).length = chars.length := by
  rw [utf8, String.toByteArray_ofList, utf8Encode, data_toByteArray, length_flatMap]
  calc
    (chars.map fun char => (String.utf8EncodeChar char).length).sum
        = (chars.map fun _ => 1).sum := by
      congr 1
      apply map_congr_left
      intro char hchar
      rw [String.length_utf8EncodeChar, hchars char hchar]
    _ = chars.length := by simp

theorem utf8_injective : Function.Injective utf8 := by
  intro left right heq
  apply String.toByteArray_inj.mp
  apply ByteArray.ext
  exact Array.toList_inj.mp heq

/-- A text as the byte string of its UTF-8 encoding. -/
def str (text : String) : List UInt8 := bytes (utf8 text)

theorem str_selfDelimiting : SelfDelimiting str :=
  bytes_selfDelimiting.comp utf8_injective

/-- The values of a sequence one after the other, behind their number. -/
def seq (encode : A → List UInt8) (values : List A) : List UInt8 :=
  varint values.length ++ values.flatMap encode

theorem length_flatMap_le {values : List A} {each : ℕ}
    (heach : ∀ value ∈ values, (encode value).length ≤ each) :
    (values.flatMap encode).length ≤ values.length * each := by
  induction values with
  | nil => simp
  | cons value values ih =>
    rw [forall_mem_cons] at heach
    rw [flatMap_cons, length_append, length_cons, Nat.succ_mul, Nat.add_comm]
    exact Nat.add_le_add (ih heach.2) heach.1

theorem length_seq_le {values : List A} {limit each : ℕ} (hvalues : values.length ≤ limit)
    (hlimit : limit < 128 ^ (groups + 1))
    (heach : ∀ value ∈ values, (encode value).length ≤ each) :
    (seq encode values).length ≤ groups + 1 + limit * each := by
  have hnumber := length_varint_le (Nat.lt_of_le_of_lt hvalues hlimit)
  have hsum := length_flatMap_le heach
  have hall : values.length * each ≤ limit * each := Nat.mul_le_mul_right each hvalues
  rw [seq, length_append]
  omega

/-- A value that may be missing, behind a byte that tells which. -/
def opt (encode : A → List UInt8) : Option A → List UInt8
  | none => [0]
  | some value => 1 :: encode value

theorem seq_selfDelimiting (hencode : SelfDelimiting encode) : SelfDelimiting (seq encode) := by
  have hvalues : ∀ left right : List A, left.length = right.length →
      ∀ leftRest rightRest, left.flatMap encode ++ leftRest
        = right.flatMap encode ++ rightRest → left = right ∧ leftRest = rightRest := by
    intro left
    induction left with
    | nil =>
      intro right hlength leftRest rightRest heq
      cases length_eq_zero_iff.mp hlength.symm
      exact ⟨rfl, heq⟩
    | cons value left ih =>
      intro right hlength leftRest rightRest heq
      match right, hlength with
      | other :: right, hlength =>
        simp only [flatMap_cons, append_assoc] at heq
        obtain ⟨rfl, htail⟩ := hencode _ _ _ _ heq
        obtain ⟨rfl, hrest⟩ := ih right (Nat.succ.inj hlength) _ _ htail
        exact ⟨rfl, hrest⟩
  intro left right leftRest rightRest heq
  simp only [seq, append_assoc] at heq
  obtain ⟨hlength, hcontent⟩ := varint_selfDelimiting _ _ _ _ heq
  exact hvalues left right hlength _ _ hcontent

end SaorsaCore.Postcard
