import Mathlib.Data.BitVec
import Mathlib.Data.List.Basic
import Mathlib.Algebra.BigOperators.Group.List.Basic

/-!
# Length-delimited bodies under a size limit

A frame is a body behind its length, written as a big-endian number of fixed width.  A
writer with a size limit goes through its values once, writes each that still fits and
passes over the others.
-/

namespace SaorsaCore.Frames

open List

/-! ## Big-endian numbers -/

/-- The lowest `width` bytes of a number, the highest first. -/
def bigEndian : ℕ → ℕ → List (BitVec 8)
  | 0, _ => []
  | width + 1, number => bigEndian width (number / 256) ++ [BitVec.ofNat 8 number]

def ofBigEndian (bytes : List (BitVec 8)) : ℕ :=
  bytes.foldl (fun number byte => number * 256 + byte.toNat) 0

theorem ofBigEndian_concat (bytes : List (BitVec 8)) (byte : BitVec 8) :
    ofBigEndian (bytes ++ [byte]) = ofBigEndian bytes * 256 + byte.toNat := by
  simp only [ofBigEndian, foldl_append, foldl_cons, foldl_nil]

@[simp]
theorem length_bigEndian (width number : ℕ) : (bigEndian width number).length = width := by
  induction width generalizing number with
  | zero => rfl
  | succ width ih => simp [bigEndian, ih]

theorem ofBigEndian_bigEndian {width number : ℕ} (hlt : number < 256 ^ width) :
    ofBigEndian (bigEndian width number) = number := by
  induction width generalizing number with
  | zero =>
    rw [Nat.pow_zero] at hlt
    exact (Nat.lt_one_iff.mp hlt).symm
  | succ width ih =>
    have hhigh : number / 256 < 256 ^ width := by
      apply Nat.div_lt_of_lt_mul
      rwa [Nat.mul_comm, ← Nat.pow_succ]
    rw [bigEndian, ofBigEndian_concat, ih hhigh, BitVec.toNat_ofNat]
    omega

theorem bigEndian_ofBigEndian (bytes : List (BitVec 8)) :
    bigEndian bytes.length (ofBigEndian bytes) = bytes := by
  induction bytes using reverseRecOn with
  | nil => rfl
  | append_singleton bytes byte ih =>
    have hhigh : (ofBigEndian bytes * 256 + byte.toNat) / 256 = ofBigEndian bytes := by
      have := byte.isLt
      omega
    have hlow : BitVec.ofNat 8 (ofBigEndian bytes * 256 + byte.toNat) = byte := by
      apply BitVec.eq_of_toNat_eq
      have := byte.isLt
      rw [BitVec.toNat_ofNat]
      omega
    rw [length_append, length_singleton, ofBigEndian_concat, bigEndian, hhigh, hlow, ih]

/-! ## Frames -/

variable {width : ℕ} {body rest bytes : List (BitVec 8)}

def frame (width : ℕ) (body : List (BitVec 8)) : List (BitVec 8) :=
  bigEndian width body.length ++ body

@[simp]
theorem length_frame (width : ℕ) (body : List (BitVec 8)) :
    (frame width body).length = width + body.length := by
  rw [frame, length_append, length_bigEndian]

/-- Bodies one after the other. -/
def frames (width : ℕ) (bodies : List (List (BitVec 8))) : List (BitVec 8) :=
  bodies.flatMap (frame width)

@[simp]
theorem frames_nil (width : ℕ) : frames width [] = [] := rfl

@[simp]
theorem frames_cons (width : ℕ) (body : List (BitVec 8)) (bodies : List (List (BitVec 8))) :
    frames width (body :: bodies) = frame width body ++ frames width bodies := rfl

theorem length_frames (width : ℕ) (bodies : List (List (BitVec 8))) :
    (frames width bodies).length = (bodies.map fun body => (frame width body).length).sum :=
  List.length_flatMap

theorem frames_eq_nil_iff (hwidth : 0 < width) {bodies : List (List (BitVec 8))} :
    frames width bodies = [] ↔ bodies = [] := by
  cases bodies with
  | nil => simp
  | cons body bodies =>
    have hframe : frame width body ≠ [] := by
      apply ne_nil_of_length_pos
      rw [length_frame]
      omega
    simp [hframe]

theorem drop_frame_append (width : ℕ) (body rest : List (BitVec 8)) :
    (frame width body ++ rest).drop width = body ++ rest := by
  rw [frame, append_assoc]
  exact drop_left' (length_bigEndian _ _)

theorem ofBigEndian_take_frame_append (hlt : body.length < 256 ^ width) :
    ofBigEndian ((frame width body ++ rest).take width) = body.length := by
  rw [frame, append_assoc, take_left' (length_bigEndian _ _), ofBigEndian_bigEndian hlt]

/-- Bytes from which a length and as many bytes can be read start with a frame. -/
theorem eq_frame_append (hwidth : width ≤ bytes.length)
    (hlength : ofBigEndian (bytes.take width) ≤ (bytes.drop width).length) :
    bytes = frame width ((bytes.drop width).take (ofBigEndian (bytes.take width))) ++
      (bytes.drop width).drop (ofBigEndian (bytes.take width)) := by
  have htaken : (bytes.take width).length = width := length_take_of_le hwidth
  have hnumber : bigEndian width (ofBigEndian (bytes.take width)) = bytes.take width := by
    have h := bigEndian_ofBigEndian (bytes.take width)
    rwa [htaken] at h
  calc
    bytes = bytes.take width ++ bytes.drop width := (take_append_drop width bytes).symm
    _ = _ := by
      rw [frame, length_take_of_le hlength, hnumber, append_assoc]
      congr 1
      exact (take_append_drop _ _).symm

/-- A frame tells where it ends. -/
theorem frame_append_inj {other otherRest : List (BitVec 8)}
    (hbody : body.length < 256 ^ width) (hother : other.length < 256 ^ width)
    (heq : frame width body ++ rest = frame width other ++ otherRest) :
    body = other ∧ rest = otherRest := by
  have hlength : body.length = other.length := by
    calc
      body.length = ofBigEndian ((frame width body ++ rest).take width) :=
        (ofBigEndian_take_frame_append hbody).symm
      _ = ofBigEndian ((frame width other ++ otherRest).take width) := by rw [heq]
      _ = other.length := ofBigEndian_take_frame_append hother
  have hdrop := congrArg (drop width) heq
  rw [drop_frame_append, drop_frame_append] at hdrop
  exact append_inj hdrop hlength

/-- Frames at the start of other frames are the first of them. -/
theorem eq_take_of_frames_append {bodies others : List (List (BitVec 8))}
    (hbodies : ∀ body ∈ bodies, body.length < 256 ^ width)
    (hothers : ∀ other ∈ others, other.length < 256 ^ width) (hwidth : 0 < width)
    (heq : frames width bodies ++ rest = frames width others) :
    bodies = others.take bodies.length := by
  induction bodies generalizing others with
  | nil => rfl
  | cons body bodies ih =>
    cases others with
    | nil =>
      have hnil := (append_eq_nil_iff.mp heq).1
      exact absurd ((frames_eq_nil_iff hwidth).mp hnil) (cons_ne_nil _ _)
    | cons other others =>
      rw [forall_mem_cons] at hbodies hothers
      rw [frames_cons, frames_cons, append_assoc] at heq
      obtain ⟨hsame, hrest⟩ := frame_append_inj hbodies.1 hothers.1 heq
      rw [length_cons, take_succ_cons, ← hsame, ← ih hbodies.2 hothers.2 hrest]

/-! ## What still fits -/

section Fitting

variable {A : Type*} (size : A → ℕ) (limit : ℕ)

/-- The values kept, in order, when `used` of the limit is taken: each that still fits. -/
def fitting : ℕ → List A → List A
  | _, [] => []
  | used, value :: rest =>
    if used + size value ≤ limit then value :: fitting (used + size value) rest
    else fitting used rest

theorem fitting_sublist (used : ℕ) (values : List A) :
    (fitting size limit used values).Sublist values := by
  induction values generalizing used with
  | nil => exact List.Sublist.refl _
  | cons value rest ih =>
    rw [fitting]
    split
    · exact (ih _).cons_cons value
    · exact (ih _).cons value

/-- Whatever is kept stays within the limit. -/
theorem used_add_sum_fitting_le {used : ℕ} {values : List A}
    (hkept : fitting size limit used values ≠ []) :
    used + ((fitting size limit used values).map size).sum ≤ limit := by
  induction values generalizing used with
  | nil => exact absurd rfl hkept
  | cons value rest ih =>
    rw [fitting] at hkept ⊢
    split at hkept
    case isTrue hfits =>
      rw [if_pos hfits, map_cons, sum_cons, ← Nat.add_assoc]
      by_cases hlast : fitting size limit (used + size value) rest = []
      · rw [hlast]
        exact hfits
      · exact ih hlast
    case isFalse hfull =>
      rw [if_neg hfull]
      exact ih hkept

end Fitting

end SaorsaCore.Frames
