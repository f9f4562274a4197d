import Mathlib.Data.List.Basic
import Mathlib.Data.List.Nodup
import Mathlib.Data.List.Perm.Basic

/-!
# Selected positions of a list

Parallel lists are cut down together by selecting the same positions of each.  A
selection of increasing positions is a sublist, and what holds between any two
selected positions holds between the values there.
-/

namespace SaorsaCore.Positions

open List

variable {A B : Type*}

/-- The values at these positions, in the order of the positions. -/
def select (positions : List ℕ) (values : List A) : List A :=
  positions.filterMap fun position => values[position]?

theorem select_range_length (values : List A) :
    select (List.range values.length) values = values := by
  induction values with
  | nil => rfl
  | cons value values ih =>
    rw [select] at ih
    rw [select, length_cons, range_succ_eq_map, filterMap_cons, filterMap_map]
    exact congrArg (cons value) ih

/-- Every position but one. -/
theorem select_filter_ne (position : ℕ) (values : List A) :
    select ((List.range values.length).filter fun kept => kept ≠ position) values =
      values.eraseIdx position := by
  induction values generalizing position with
  | nil => rfl
  | cons value values ih =>
    rw [length_cons, range_succ_eq_map, select, filter_cons, filter_map]
    cases position with
    | zero =>
      have hall : (range values.length).filter
          ((fun kept => decide (kept ≠ 0)) ∘ Nat.succ) = range values.length :=
        filter_eq_self.mpr fun kept _ => by simp
      rw [hall, if_neg (by simp), filterMap_map]
      exact select_range_length values
    | succ position =>
      have hshift : ((fun kept => decide (kept ≠ position + 1)) ∘ Nat.succ) =
          fun kept => decide (kept ≠ position) := by
        funext kept
        simp
      rw [hshift, if_pos (by simp), filterMap_cons, filterMap_map]
      exact congrArg (cons value) (ih position)

variable {positions : List ℕ} {values : List A}

theorem select_sublist (hpositions : positions.Sublist (List.range values.length)) :
    (select positions values).Sublist values := by
  have hselected := hpositions.filterMap fun position => values[position]?
  rw [← select, ← select, select_range_length] at hselected
  exact hselected

theorem length_select (hbound : ∀ position ∈ positions, position < values.length) :
    (select positions values).length = positions.length := by
  induction positions with
  | nil => rfl
  | cons position positions ih =>
    obtain ⟨hposition, hrest⟩ := forall_mem_cons.mp hbound
    rw [select, filterMap_cons_some (getElem?_eq_getElem hposition), length_cons, length_cons]
    exact congrArg Nat.succ (ih hrest)

/-- Selecting from two lists and pairing is pairing and selecting. -/
theorem zip_select {lefts : List A} {rights : List B} (hlength : rights.length = lefts.length)
    (hbound : ∀ position ∈ positions, position < lefts.length) :
    (select positions lefts).zip (select positions rights) =
      select positions (lefts.zip rights) := by
  induction positions with
  | nil => rfl
  | cons position positions ih =>
    obtain ⟨hposition, hrest⟩ := forall_mem_cons.mp hbound
    have hright : position < rights.length := hlength ▸ hposition
    have hpair : (lefts.zip rights)[position]? = some (lefts[position], rights[position]) := by
      rw [getElem?_zip_eq_some]
      exact ⟨getElem?_eq_getElem hposition, getElem?_eq_getElem hright⟩
    rw [select, select, select, filterMap_cons_some (getElem?_eq_getElem hposition),
      filterMap_cons_some (getElem?_eq_getElem hright),
      filterMap_cons_some hpair, zip_cons_cons]
    exact congrArg (cons _) (ih hrest)

theorem pairwise_select {relation : A → A → Prop} (hincreasing : positions.Pairwise (· < ·))
    (hrelation : ∀ left ∈ positions, ∀ right ∈ positions, left < right →
      ∀ first second, values[left]? = some first → values[right]? = some second →
        relation first second) : (select positions values).Pairwise relation := by
  rw [select, pairwise_filterMap]
  refine hincreasing.imp_of_mem ?_
  intro left right hleft hright hlt first hfirst second hsecond
  exact hrelation left hleft right hright hlt first second hfirst hsecond

theorem mem_select {value : A} : value ∈ select positions values ↔
      ∃ position ∈ positions, values[position]? = some value :=
  List.mem_filterMap

/-! ## Positions where a test succeeds -/

def positionsWhere (test : A → Bool) (values : List A) : List ℕ :=
  (List.range values.length).filter fun position => values[position]?.any test

theorem select_positionsWhere (test : A → Bool) (values : List A) :
    select (positionsWhere test values) values = values.filter test := by
  have htested (position : ℕ) : (if values[position]?.any test then values[position]? else none) =
        values[position]?.filter test := by
    cases values[position]? with
    | none => rfl
    | some value => rw [Option.any_some, Option.filter_some]
  calc select (positionsWhere test values) values = (range values.length).filterMap fun position =>
          values[position]?.filter test := by
        rw [select, positionsWhere, filterMap_filter]
        simp only [htested]
    _ = (select (range values.length) values).filter test := by
        rw [select, filter_filterMap]
    _ = values.filter test := by rw [select_range_length]

variable {position : ℕ}

theorem lt_length_of_mem_positionsWhere {test : A → Bool}
    (hmem : position ∈ positionsWhere test values) : position < values.length :=
  List.mem_range.mp (List.mem_of_mem_filter hmem)

theorem head?_positionsWhere (test : A → Bool) (values : List A) :
    ((positionsWhere test values).head?.bind fun position => values[position]?) =
      values.find? test := by
  rw [← head?_filter, ← select_positionsWhere, select]
  cases hpositions : positionsWhere test values with
  | nil => rfl
  | cons position positions =>
    have hbound : position < values.length :=
      lt_length_of_mem_positionsWhere (hpositions ▸ mem_cons_self)
    rw [filterMap_cons_some (getElem?_eq_getElem hbound)]
    exact getElem?_eq_getElem hbound

theorem getLast?_positionsWhere (test : A → Bool) (values : List A) :
    ((positionsWhere test values).getLast?.bind fun position => values[position]?) =
      (values.filter test).getLast? := by
  rw [← select_positionsWhere, select]
  rcases eq_nil_or_concat' (positionsWhere test values) with
    hnone | ⟨positions, position, hpositions⟩
  · rw [hnone]
    rfl
  · have hbound : position < values.length := by
      apply lt_length_of_mem_positionsWhere
      rw [hpositions]
      exact mem_concat_self
    rw [hpositions, filterMap_append,
      filterMap_cons_some (getElem?_eq_getElem hbound), filterMap_nil,
      getLast?_concat, getLast?_concat]
    exact getElem?_eq_getElem hbound

/-! ## Insertion at a found position -/

theorem eraseIdx_length_append (front back : List A) (value : A) :
    (front ++ value :: back).eraseIdx front.length = front ++ back := by
  rw [eraseIdx_append_of_length_le (Nat.le_refl _), Nat.sub_self]
  rfl

/-- What is erased goes to the front. -/
theorem perm_cons_eraseIdx {value : A} (hvalue : values[position]? = some value) :
    values.Perm (value :: values.eraseIdx position) := by
  obtain ⟨hbound, rfl⟩ := List.getElem?_eq_some_iff.mp hvalue
  exact (List.getElem_cons_eraseIdx_perm hbound).symm

/-- The place of a remaining value. -/
theorem getElem?_eraseIdx_of_ne {erased : ℕ} (hne : position ≠ erased) :
    (values.eraseIdx erased)[if position < erased then position else position - 1]? =
      values[position]? := by
  rw [getElem?_eraseIdx]
  by_cases hlt : position < erased
  · rw [if_pos hlt, if_pos hlt]
  · rw [if_neg hlt, if_neg (by omega), Nat.sub_add_cancel (by omega)]

theorem insertIdx_length_append (front back : List A) (value : A) :
    (front ++ back).insertIdx front.length value = front ++ value :: back := by
  induction front with
  | nil => rfl
  | cons head front ih => exact congrArg (cons head) ih

/-- The first position where a test succeeds, or the end of the list. -/
theorem findIdx?_getD_length (test : A → Bool) (values : List A) :
    (values.findIdx? test).getD values.length =
      (values.takeWhile fun value => !test value).length := by
  induction values with
  | nil => rfl
  | cons value values ih =>
    rw [findIdx?_cons, takeWhile_cons]
    cases test value with
    | true => rfl
    | false =>
      rw [if_neg Bool.false_ne_true, length_cons, Bool.not_false, if_pos rfl, length_cons, ← ih]
      cases values.findIdx? test <;> rfl

end SaorsaCore.Positions
