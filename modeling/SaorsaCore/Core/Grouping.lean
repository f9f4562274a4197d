import Mathlib.Data.List.Induction
import Mathlib.Data.List.Sort

/-!
# Stable sorting and grouping

A stable sort keeps the order of the values that have one key, and that is all it keeps:
two lists sort to the same list exactly if they agree on the values of every key.
`groups` collects values in a map from labels to lists, as `entry(label).or_default()`
followed by `push` does.
-/

namespace SaorsaCore.Grouping

open List

/-! ## Stable sorting -/

section Sorting

variable {A K : Type*} [LinearOrder K] {key : A → K}

theorem filter_orderedInsert (value : A) (values : List A) (label : K) :
    (values.orderedInsert (fun left right => key left ≤ key right) value).filter
        (fun other => key other = label) =
      (value :: values).filter fun other => key other = label := by
  induction values with
  | nil => rfl
  | cons first rest ih =>
    rw [orderedInsert]
    split
    · rfl
    · next hless =>
        -- what stands before the inserted value has a smaller key
        have hne : key value = label → key first ≠ label := by
          rintro rfl heq
          exact hless heq.ge
        rw [filter_cons, ih, filter_cons, filter_cons, filter_cons]
        by_cases hvalue : key value = label
        · simp [hvalue, hne hvalue]
        · simp [hvalue]

/-- Sorting keeps the values of one key in their order. -/
theorem filter_insertionSort (values : List A) (label : K) :
    (values.insertionSort fun left right => key left ≤ key right).filter
        (fun other => key other = label) =
      values.filter fun other => key other = label := by
  induction values with
  | nil => rfl
  | cons value values ih =>
    rw [insertionSort_cons, filter_orderedInsert, filter_cons, ih, filter_cons]

theorem pairwise_insertionSort (values : List A) :
    (values.insertionSort fun left right => key left ≤ key right).Pairwise
      fun left right => key left ≤ key right := by
  have : Std.Total fun left right : A => key left ≤ key right :=
    ⟨fun left right => le_total (key left) (key right)⟩
  have : IsTrans A fun left right => key left ≤ key right := ⟨fun _ _ _ => le_trans⟩
  exact List.pairwise_insertionSort _ values

omit [LinearOrder K] in
theorem mem_iff_of_filter_eq [DecidableEq K] {left right : List A}
    (hfilter : ∀ label, left.filter (fun value => key value = label) =
      right.filter fun value => key value = label) (value : A) :
    value ∈ left ↔ value ∈ right := by
  have hvalue := congrArg (value ∈ ·) (hfilter (key value))
  simpa using hvalue

/-- A sorted list is determined by the values of each key. -/
theorem eq_of_filter_eq {left right : List A}
    (hleft : left.Pairwise fun first second => key first ≤ key second)
    (hright : right.Pairwise fun first second => key first ≤ key second)
    (hfilter : ∀ label, left.filter (fun value => key value = label) =
      right.filter fun value => key value = label) : left = right := by
  induction left generalizing right with
  | nil =>
    symm
    rw [eq_nil_iff_forall_not_mem]
    intro value hvalue
    exact absurd ((mem_iff_of_filter_eq hfilter value).mpr hvalue) not_mem_nil
  | cons first rest ih =>
    have hmem := mem_iff_of_filter_eq hfilter
    cases right with
    | nil => exact absurd ((hmem first).mp mem_cons_self) not_mem_nil
    | cons other others =>
      obtain ⟨hfirst, hrest⟩ := pairwise_cons.mp hleft
      obtain ⟨hother, hothers⟩ := pairwise_cons.mp hright
      have hkeys : key first = key other := by
        apply le_antisymm
        · rcases mem_cons.mp ((hmem other).mpr mem_cons_self) with heq | hlater
          · rw [heq]
          · exact hfirst other hlater
        · rcases mem_cons.mp ((hmem first).mp mem_cons_self) with heq | hlater
          · rw [heq]
          · exact hother first hlater
      have hheads : first = other := by
        have hclass := hfilter (key first)
        rw [filter_cons_of_pos (by simp), filter_cons_of_pos (by simp [hkeys])] at hclass
        exact (cons.inj hclass).1
      subst hheads
      have htails : ∀ label, rest.filter (fun value => key value = label) =
          others.filter fun value => key value = label := by
        intro label
        have hclass := hfilter label
        rw [filter_cons, filter_cons] at hclass
        split at hclass
        · exact (cons.inj hclass).2
        · exact hclass
      rw [ih hrest hothers htails]

/-- Two lists sort to one list exactly if they list the values of every key in one
order. -/
theorem insertionSort_eq_iff (key : A → K) (left right : List A) :
    (left.insertionSort fun first second => key first ≤ key second) =
        right.insertionSort (fun first second => key first ≤ key second) ↔
      ∀ label, left.filter (fun value => key value = label) =
        right.filter fun value => key value = label := by
  constructor
  · intro heq label
    rw [← filter_insertionSort left, heq, filter_insertionSort]
  · intro hfilter
    apply eq_of_filter_eq (pairwise_insertionSort left) (pairwise_insertionSort right)
    intro label
    rw [filter_insertionSort, filter_insertionSort]
    exact hfilter label

/-- The values of the greatest key come last, in their order. -/
theorem insertionSort_eq_append (key : A → K) {values : List A} {top : K}
    (htop : ∀ value ∈ values, key value ≤ top) :
    (values.insertionSort fun left right => key left ≤ key right) =
      ((values.filter fun value => key value ≠ top).insertionSort fun left right =>
        key left ≤ key right) ++ values.filter fun value => key value = top := by
  apply eq_of_filter_eq (pairwise_insertionSort values)
  · rw [pairwise_append]
    refine ⟨pairwise_insertionSort _, ?_, ?_⟩
    · apply pairwise_of_forall_mem_list
      intro left hleft right hright
      have hright := of_decide_eq_true (mem_filter.mp hright).2
      rw [hright]
      exact htop left (mem_of_mem_filter hleft)
    · intro left hleft right hright
      have hright := of_decide_eq_true (mem_filter.mp hright).2
      rw [hright]
      exact htop left (mem_of_mem_filter ((mem_insertionSort _).mp hleft))
  · intro label
    rw [filter_insertionSort, filter_append, filter_insertionSort, filter_filter, filter_filter]
    by_cases hlabel : label = top
    · subst hlabel
      simp
    · have hnone : (values.filter fun value => decide (key value = label) &&
          decide (key value = top)) = [] := by
        rw [filter_eq_nil_iff]
        intro value _
        simp only [Bool.and_eq_true, decide_eq_true_eq, not_and]
        rintro rfl
        exact hlabel
      rw [hnone, append_nil]
      apply filter_congr
      intro value _
      by_cases heq : key value = label
      · simp [heq, hlabel]
      · simp [heq]

end Sorting

/-! ## Groups -/

section Groups

variable {A B L : Type*} [DecidableEq L]

/-- Add a member to the group of a label. -/
def push (label : L) (member : B) : List (L × List B) → List (L × List B)
  | [] => [(label, [member])]
  | (other, group) :: groups =>
    if other = label then (other, group ++ [member]) :: groups
    else (other, group) :: push label member groups

/-- The images of some values, grouped by the values' labels. -/
def groups (label : A → L) (image : A → B) (values : List A) : List (L × List B) :=
  values.foldl (fun groups value => push (label value) (image value) groups) []

theorem map_fst_push (label : L) (member : B) (groups : List (L × List B)) :
    (push label member groups).map Prod.fst =
      if label ∈ groups.map Prod.fst then groups.map Prod.fst
      else groups.map Prod.fst ++ [label] := by
  induction groups with
  | nil => rfl
  | cons entry groups ih =>
    rw [push]
    by_cases hlabel : entry.1 = label
    · simp [hlabel]
    · rw [if_neg hlabel, map_cons, ih]
      have hother : label ≠ entry.1 := Ne.symm hlabel
      by_cases hmem : label ∈ groups.map Prod.fst
      · simp [hmem]
      · simp [hmem, hother]

theorem push_members (members : L → List B) {label : L} {groups : List (L × List B)}
    (member : B) (hnodup : (groups.map Prod.fst).Nodup)
    (hmembers : ∀ entry ∈ groups, entry.2 = members entry.1)
    (hnew : label ∉ groups.map Prod.fst → members label = []) :
    ∀ entry ∈ push label member groups,
      entry.2 = if entry.1 = label then members label ++ [member] else members entry.1 := by
  induction groups with
  | nil => simpa [push] using hnew
  | cons first groups ih =>
    rw [map_cons, nodup_cons] at hnodup
    rw [forall_mem_cons] at hmembers
    rw [push]
    split
    · next hlabel =>
        rw [forall_mem_cons]
        constructor
        · rw [if_pos hlabel, hmembers.1, hlabel]
        · intro entry hentry
          have hother : entry.1 ≠ label := by
            rintro rfl
            exact hnodup.1 (hlabel ▸ mem_map_of_mem hentry)
          rw [if_neg hother]
          exact hmembers.2 entry hentry
    · next hlabel =>
        rw [forall_mem_cons]
        constructor
        · rw [if_neg hlabel]
          exact hmembers.1
        · apply ih hnodup.2 hmembers.2
          intro habsent
          apply hnew
          rw [map_cons, mem_cons, not_or]
          exact ⟨Ne.symm hlabel, habsent⟩

/-- A group has the images of the values with its label, and every label has a group. -/
structure Grouped (label : A → L) (image : A → B) (values : List A)
    (groups : List (L × List B)) : Prop where
  nodup : (groups.map Prod.fst).Nodup
  members : ∀ entry ∈ groups, entry.2 = (values.filter fun value => label value = entry.1).map image
  complete : ∀ found, found ∈ groups.map Prod.fst ↔ found ∈ values.map label

theorem Grouped.push {label : A → L} {image : A → B} {values : List A}
    {groups : List (L × List B)} (hgrouped : Grouped label image values groups) (value : A) :
    Grouped label image (values ++ [value]) (push (label value) (image value) groups) where
  nodup := by
    rw [map_fst_push]
    split
    · exact hgrouped.nodup
    · next hnew => simpa using hgrouped.nodup.concat hnew
  members := by
    have hempty : label value ∉ groups.map Prod.fst →
        (values.filter fun other => label other = label value).map image = [] := by
      intro habsent
      rw [hgrouped.complete, mem_map] at habsent
      rw [map_eq_nil_iff, filter_eq_nil_iff]
      intro other hother heq
      exact habsent ⟨other, hother, of_decide_eq_true heq⟩
    intro entry hentry
    rw [push_members (fun found => (values.filter fun other => label other = found).map image)
      (image value) hgrouped.nodup hgrouped.members hempty entry hentry, filter_append,
      map_append, filter_singleton]
    by_cases hlabel : entry.1 = label value
    · simp [hlabel]
    · simp [hlabel, Ne.symm hlabel]
  complete := by
    intro found
    rw [map_fst_push, map_append, mem_append, ← hgrouped.complete]
    split
    · next hlisted =>
        rw [or_iff_left_of_imp]
        intro hfound
        rw [map_singleton, mem_singleton] at hfound
        rwa [hfound]
    · rw [mem_append]
      simp

theorem grouped (label : A → L) (image : A → B) (values : List A) :
    Grouped label image values (groups label image values) := by
  induction values using reverseRecOn with
  | nil => exact ⟨nodup_nil, by simp [groups], by simp [groups]⟩
  | append_singleton values value ih =>
    rw [groups, foldl_concat]
    exact ih.push value

/-- Two labels that have more than half of the values between them are one. -/
theorem label_unique (label : A → L) (values : List A) {first second : L}
    (hmost : values.length < (values.filter fun value => label value = first).length +
      (values.filter fun value => label value = second).length) : first = second := by
  by_contra hne
  have hdisjoint : (values.filter fun value => label value = second).length ≤
      (values.filter fun value => !decide (label value = first)).length := by
    rw [← countP_eq_length_filter, ← countP_eq_length_filter]
    apply countP_mono_left
    intro value _ hsecond
    rw [of_decide_eq_true hsecond, Bool.not_eq_true', decide_eq_false_iff_not]
    exact Ne.symm hne
  have hsplit := length_eq_length_filter_add (l := values) fun value => decide (label value = first)
  omega

end Groups

end SaorsaCore.Grouping
