import Mathlib.Data.List.Induction
import Mathlib.Data.List.Nodup
import Mathlib.Data.List.Perm.Subperm
import Mathlib.Order.Lattice

/-!
# Hash collections and ordered collections

A hash collection hands out its elements in an order that a program cannot rely on;
`HashOrder` is that order as a parameter.  `OrderedBy key` is an ordered map whose
key is computed from the value: a list that is strictly increasing in the key.
-/

namespace SaorsaCore

open List

/-- An order of iteration over a hash collection. -/
structure HashOrder (A : Type*) where
  arrange : List A → List A
  perm : ∀ values, (arrange values).Perm values

/-- Elements handed out in the order of insertion. -/
def HashOrder.insertion (A : Type*) : HashOrder A :=
  { arrange := id
    perm := fun _ => List.Perm.refl _ }

/-- What is stored after an update was put there or was there before. -/
theorem update_eq_some {Key Value : Type*} [DecidableEq Key] {table : Key → Option Value}
    {key other : Key} {stored value : Value}
    (hother : Function.update table key (some stored) other = some value) :
    (other = key ∧ value = stored) ∨ (other ≠ key ∧ table other = some value) := by
  by_cases hkey : other = key
  · subst hkey
    rw [Function.update_self, Option.some.injEq] at hother
    exact .inl ⟨rfl, hother.symm⟩
  · rw [Function.update_of_ne hkey] at hother
    exact .inr ⟨hkey, hother⟩

/-- No more than `bound` different values have the property. -/
def AtMost {A : Type*} (bound : ℕ) (property : A → Prop) : Prop :=
  ∀ values : List A, values.Nodup → (∀ value ∈ values, property value) → values.length ≤ bound

variable {A : Type*}

/-- There is room for a value that is not yet listed. -/
theorem AtMost.length_lt {bound : ℕ} {property : A → Prop} (hmost : AtMost bound property)
    {values : List A} {value : A} (hnodup : values.Nodup)
    (hvalues : ∀ other ∈ values, property other) (hvalue : property value)
    (hnew : value ∉ values) : values.length < bound := by
  apply hmost (value :: values) (nodup_cons.mpr ⟨hnew, hnodup⟩)
  intro other hother
  rcases mem_cons.mp hother with rfl | hother
  · exact hvalue
  · exact hvalues other hother

/-- A list bounds the properties that it exhausts. -/
theorem AtMost.of_subset {bound : ℕ} {property : A → Prop} {all : List A}
    (hall : ∀ value, property value → value ∈ all) (hbound : all.length ≤ bound) :
    AtMost bound property := by
  intro values hnodup hvalues
  have hsubset : values ⊆ all := by
    intro value hvalue
    exact hall value (hvalues value hvalue)
  exact Nat.le_trans (hnodup.subperm hsubset).length_le hbound

/-- Append a value unless it is listed already. -/
def pushNew {A : Type*} [DecidableEq A] (listed : List A) (value : A) : List A :=
  if value ∈ listed then listed else listed ++ [value]

theorem mem_foldl_pushNew [DecidableEq A] {listed values : List A} {value : A} :
    value ∈ values.foldl pushNew listed ↔ value ∈ listed ∨ value ∈ values := by
  induction values generalizing listed with
  | nil => simp
  | cons head rest ih =>
    rw [foldl_cons, ih, pushNew]
    split <;> grind

theorem nodup_foldl_pushNew [DecidableEq A] {listed : List A} (hnodup : listed.Nodup)
    (values : List A) : (values.foldl pushNew listed).Nodup := by
  induction values generalizing listed with
  | nil => exact hnodup
  | cons value values ih =>
    rw [foldl_cons]
    apply ih
    rw [pushNew]
    split
    · exact hnodup
    · next hnew => simpa using hnodup.concat hnew

/-- Removing repetitions before pushing changes nothing. -/
theorem foldl_pushNew_foldl [DecidableEq A] (listed values : List A) :
    (values.foldl pushNew []).foldl pushNew listed = values.foldl pushNew listed := by
  induction values using reverseRecOn with
  | nil => rfl
  | append_singleton values value ih =>
    rw [foldl_concat, foldl_concat, pushNew]
    by_cases hseen : value ∈ values.foldl pushNew []
    · have hvalue : value ∈ values := by
        simpa using mem_foldl_pushNew.mp hseen
      rw [if_pos hseen, ih, pushNew, if_pos (mem_foldl_pushNew.mpr (.inr hvalue))]
    · rw [if_neg hseen, foldl_concat, ih]

/-- What is pushed follows what was listed, once each and in order of appearance. -/
theorem foldl_pushNew [DecidableEq A] (listed values : List A) : values.foldl pushNew listed =
      listed ++ (values.filter fun value => value ∉ listed).eraseDups := by
  induction values generalizing listed with
  | nil => simp
  | cons value rest ih =>
    rw [foldl_cons, ih]
    by_cases hlisted : value ∈ listed
    · simp [pushNew, hlisted]
    · have hothers : (rest.filter fun other => other ∉ listed ++ [value]) =
          (rest.filter fun other => other ∉ listed).filter fun other => !other == value := by
        rw [filter_filter]
        apply filter_congr
        intro other _
        rw [Bool.eq_iff_iff]
        simp [and_comm]
      rw [pushNew, if_neg hlisted, hothers, filter_cons_of_pos (by simpa using hlisted),
        eraseDups_cons, append_assoc, singleton_append]

/-- Values in strictly increasing order of their keys. -/
structure OrderedBy {A K : Type*} [LinearOrder K] (key : A → K) where
  values : List A
  sorted : values.Pairwise fun left right => key left < key right

namespace OrderedBy

variable {A K : Type*} [LinearOrder K] {key : A → K}

def empty : OrderedBy key :=
  { values := []
    sorted := List.Pairwise.nil }

/-- Keep the values that pass a test. -/
def retain (values : OrderedBy key) (kept : A → Bool) : OrderedBy key :=
  { values := values.values.filter kept
    sorted := values.sorted.filter _ }

/-- Is there a value with the same key? -/
def contains (values : OrderedBy key) (value : A) : Bool :=
  values.values.any fun other => decide (key other = key value)

/-- Insert a value, in the place of one with the same key. -/
def insert (values : OrderedBy key) (value : A) : OrderedBy key :=
  { values := (values.values.filter fun other => decide (key other < key value)) ++
      value :: values.values.filter fun other => decide (key value < key other)
    sorted := by
      apply List.pairwise_append.mpr
      refine ⟨values.sorted.filter _, List.pairwise_cons.mpr
        ⟨fun other hother => ?_, values.sorted.filter _⟩, fun smaller hsmaller
          other hother => ?_⟩
      · exact of_decide_eq_true (List.mem_filter.mp hother).2
      · have hlow : key smaller < key value :=
          of_decide_eq_true (List.mem_filter.mp hsmaller).2
        rcases List.mem_cons.mp hother with rfl | hlarger
        · exact hlow
        · exact hlow.trans (of_decide_eq_true (List.mem_filter.mp hlarger).2) }

/-- Without the value of the greatest key. -/
def dropLast (values : OrderedBy key) : OrderedBy key :=
  { values := values.values.dropLast
    sorted := values.sorted.sublist (List.dropLast_sublist _) }

/-- Without the value of the least key. -/
def dropFirst (values : OrderedBy key) : OrderedBy key :=
  { values := values.values.tail
    sorted := values.sorted.sublist (List.tail_sublist _) }

@[simp]
theorem values_dropFirst (values : OrderedBy key) :
    values.dropFirst.values = values.values.tail := rfl

@[simp]
theorem values_dropLast (values : OrderedBy key) :
    values.dropLast.values = values.values.dropLast := rfl

@[ext]
theorem ext {left right : OrderedBy key} (hvalues : left.values = right.values) : left = right := by
  cases left
  cases right
  cases hvalues
  rfl

variable {values : OrderedBy key} {value : A}

theorem mem_insert_iff {other : A} : other ∈ (values.insert value).values ↔
      other = value ∨ (other ∈ values.values ∧ key other ≠ key value) := by
  rw [insert, mem_append, mem_cons, mem_filter, mem_filter]
  constructor
  · rintro (⟨hmem, hless⟩ | rfl | ⟨hmem, hless⟩)
    · exact Or.inr ⟨hmem, (of_decide_eq_true hless).ne⟩
    · exact Or.inl rfl
    · exact Or.inr ⟨hmem, (of_decide_eq_true hless).ne'⟩
  · rintro (rfl | ⟨hmem, hne⟩)
    · exact Or.inr (Or.inl rfl)
    · rcases lt_or_gt_of_ne hne with hless | hgreater
      · exact Or.inl ⟨hmem, decide_eq_true hless⟩
      · exact Or.inr (Or.inr ⟨hmem, decide_eq_true hgreater⟩)

theorem nodup_keys (values : OrderedBy key) : (values.values.map key).Nodup :=
  List.pairwise_map.mpr (values.sorted.imp ne_of_lt)

/-- A list is at least as long as an ordered one whose keys it covers. -/
theorem length_le_of_keys {keys : List K} (hkeys : ∀ value ∈ values.values, key value ∈ keys) :
    values.values.length ≤ keys.length := by
  have hsubset : values.values.map key ⊆ keys := by
    intro found hfound
    obtain ⟨value, hvalue, rfl⟩ := mem_map.mp hfound
    exact hkeys value hvalue
  rw [← length_map key]
  exact (values.nodup_keys.subperm hsubset).length_le

theorem length_insert_le (values : OrderedBy key) (value : A) :
    (values.insert value).values.length ≤ values.values.length + 1 := by
  have hcovered : (values.insert value).values.length ≤
      (key value :: values.values.map key).length := by
    apply length_le_of_keys
    intro other hother
    rcases mem_insert_iff.mp hother with rfl | ⟨hmem, -⟩
    · exact mem_cons_self
    · exact mem_cons_of_mem _ (mem_map_of_mem hmem)
  simpa using hcovered

/-- A value that takes the place of another one does not make the list longer. -/
theorem length_insert_of_contains (hcontains : values.contains value = true) :
    (values.insert value).values.length ≤ values.values.length := by
  obtain ⟨present, hpresent, hsame⟩ := any_eq_true.mp hcontains
  have hcovered : (values.insert value).values.length ≤ (values.values.map key).length := by
    apply length_le_of_keys
    intro other hother
    rcases mem_insert_iff.mp hother with rfl | ⟨hmem, -⟩
    · rw [← of_decide_eq_true hsame]
      exact mem_map_of_mem hpresent
    · exact mem_map_of_mem hmem
  rwa [length_map] at hcovered

/-- A value with a new key is added to the others. -/
theorem insert_perm (hnew : values.contains value = false) :
    (values.insert value).values.Perm (value :: values.values) := by
  have hkeys : ∀ other ∈ values.values, key other ≠ key value := by
    simpa [contains] using hnew
  have hlarger : (values.values.filter fun other => decide (key value < key other)) =
      values.values.filter fun other => !decide (key other < key value) := by
    apply filter_congr
    intro other hother
    rw [← decide_not, decide_eq_decide, not_lt]
    exact ⟨le_of_lt, fun hle => lt_of_le_of_ne hle (hkeys other hother).symm⟩
  change ((values.values.filter fun other => decide (key other < key value)) ++
    value :: values.values.filter fun other => decide (key value < key other)).Perm _
  rw [hlarger]
  exact perm_middle.trans ((filter_append_perm _ _).cons value)

theorem retain_eq_self {kept : A → Bool} (hkept : ∀ value ∈ values.values, kept value = true) :
    values.retain kept = values := by
  apply ext
  exact filter_eq_self.mpr hkept

theorem mem_of_mem_dropLast (hmem : value ∈ values.dropLast.values) : value ∈ values.values :=
  (List.dropLast_sublist _).subset hmem

/-- Dropping the last value loses only that one. -/
theorem mem_dropLast_or_eq {last : A} (hlast : values.values.getLast? = some last)
    (hmem : value ∈ values.values) : value ∈ values.dropLast.values ∨ value = last := by
  obtain ⟨front, hfront⟩ := getLast?_eq_some_iff.mp hlast
  change value ∈ values.values.dropLast ∨ value = last
  rw [hfront] at hmem ⊢
  rw [dropLast_concat]
  simpa using hmem

end OrderedBy

end SaorsaCore
