import Mathlib

/-!
# Lists of keyed records

A list in which each record carries its own key and the first record with a key
is the one that counts.  The operations are a lookup, an update in place, an
update that moves the record to the tail (the most recently used position) and
a removal.  All lemmas about an update assume that it keeps the key.
-/

namespace SaorsaCore.KeyedList

open List

variable {K A : Type*} [DecidableEq K] (key : A → K)

def lookup (target : K) (entries : List A) : Option A :=
  entries.find? fun entry => key entry = target

/-- Rewrite the first record with the given key where it stands. -/
def updateInPlace (target : K) (update : A → A) : List A → List A
  | [] => []
  | entry :: rest =>
    if key entry = target then update entry :: rest
    else entry :: updateInPlace target update rest

/-- Rewrite the first record with the given key and move it to the tail. -/
def moveToTail (target : K) (update : A → A) (entries : List A) : List A :=
  match lookup key target entries with
  | none => entries
  | some entry =>
    entries.eraseP (fun entry => key entry = target) ++ [update entry]

def remove (target : K) (entries : List A) : List A :=
  entries.filter fun entry => key entry ≠ target

section Lookup

variable {key} {target other : K} {entries : List A} {entry : A}

@[simp]
theorem lookup_nil : lookup key target [] = none := rfl

theorem lookup_cons : lookup key target (entry :: entries) =
      if key entry = target then some entry else lookup key target entries := by
  rw [lookup, find?_cons]
  split <;> simp_all [lookup]

theorem lookup_append (suffix : List A) : lookup key target (entries ++ suffix) =
      (lookup key target entries).or (lookup key target suffix) := by
  simp [lookup, find?_append]

theorem key_of_lookup (hlookup : lookup key target entries = some entry) : key entry = target := by
  simpa using find?_some hlookup

theorem mem_of_lookup (hlookup : lookup key target entries = some entry) : entry ∈ entries :=
  List.mem_of_find?_eq_some hlookup

theorem lookup_eq_none_iff : lookup key target entries = none ↔ target ∉ entries.map key := by
  simp [lookup, find?_eq_none]

theorem isSome_lookup_iff : (lookup key target entries).isSome ↔ target ∈ entries.map key := by
  rw [← not_iff_not, ← lookup_eq_none_iff]
  simp

/-- Among distinct keys the lookup finds every record. -/
theorem lookup_eq_some_iff (hnodup : (entries.map key).Nodup) :
    lookup key target entries = some entry ↔ entry ∈ entries ∧ key entry = target := by
  constructor
  · intro hlookup
    exact ⟨mem_of_lookup hlookup, key_of_lookup hlookup⟩
  · rintro ⟨hmem, rfl⟩
    induction entries with
    | nil => simp at hmem
    | cons head tail ih =>
      rw [map_cons, nodup_cons] at hnodup
      rw [lookup_cons]
      rcases mem_cons.mp hmem with rfl | htail
      · simp
      · have hne : key head ≠ key entry := by
          intro heq
          exact hnodup.1 (heq ▸ mem_map_of_mem htail)
        rw [if_neg hne]
        exact ih hnodup.2 htail

/-- Among distinct keys the order of the records does not matter. -/
theorem lookup_perm {others : List A} (hnodup : (entries.map key).Nodup)
    (hperm : others.Perm entries) : lookup key target others = lookup key target entries := by
  apply Option.ext
  intro entry
  rw [lookup_eq_some_iff hnodup, lookup_eq_some_iff ((hperm.map key).nodup_iff.mpr hnodup),
    hperm.mem_iff]

end Lookup

section Update

variable {key} {target other : K} {update : A → A}

/-- What the update leaves alone in a record is the same in the whole list. -/
theorem map_updateInPlace {B : Type*} {view : A → B}
    (hview : ∀ entry, view (update entry) = view entry) (entries : List A) :
    (updateInPlace key target update entries).map view = entries.map view := by
  induction entries with
  | nil => rfl
  | cons head tail ih =>
    rw [updateInPlace]
    split <;> simp [hview, ih]

variable (hkey : ∀ entry, key (update entry) = key entry)
include hkey

theorem map_key_updateInPlace (entries : List A) :
    (updateInPlace key target update entries).map key = entries.map key :=
  map_updateInPlace hkey entries

/-- Records with other keys stand where they stood. -/
theorem filter_updateInPlace (entries : List A) :
    (updateInPlace key target update entries).filter (fun entry => key entry ≠ target) =
      entries.filter fun entry => key entry ≠ target := by
  induction entries with
  | nil => rfl
  | cons head tail ih =>
    rw [updateInPlace]
    split
    · next hhead => simp [hkey, hhead]
    · next hhead => simp only [filter_cons, ih]

theorem lookup_updateInPlace (entries : List A) :
    lookup key other (updateInPlace key target update entries) =
      if other = target then (lookup key target entries).map update
      else lookup key other entries := by
  induction entries with
  | nil => simp [updateInPlace]
  | cons head tail ih =>
    rw [updateInPlace, lookup_cons, lookup_cons]
    by_cases hhead : key head = target
    · rw [if_pos hhead, lookup_cons, hkey, if_pos hhead, hhead]
      by_cases hother : other = target
      · simp [hother]
      · simp [hother, Ne.symm hother]
    · rw [if_neg hhead, lookup_cons, ih, if_neg hhead]
      by_cases hother : other = target
      · simp [hother, hhead]
      · simp [hother]

omit hkey in
theorem lookup_eraseP (entries : List A) (hother : other ≠ target) :
    lookup key other (entries.eraseP fun entry => key entry = target) =
      lookup key other entries := by
  induction entries with
  | nil => rfl
  | cons head tail ih =>
    rw [eraseP_cons]
    by_cases hhead : key head = target
    · simp [hhead, lookup_cons, Ne.symm hother]
    · simp [hhead, lookup_cons, ih]

omit hkey in
private theorem target_not_mem_eraseP (target : K) (entries : List A)
    (hnodup : (entries.map key).Nodup) :
    target ∉ (entries.eraseP fun entry => key entry = target).map key := by
  induction entries with
  | nil => simp
  | cons head tail ih =>
    rw [map_cons, nodup_cons] at hnodup
    rw [eraseP_cons]
    by_cases hhead : key head = target
    · subst hhead
      simpa using hnodup.1
    · have htail := ih hnodup.2
      simp_all [eq_comm]

theorem lookup_moveToTail (entries : List A) (hnodup : (entries.map key).Nodup) :
    lookup key other (moveToTail key target update entries) =
      if other = target then (lookup key target entries).map update
      else lookup key other entries := by
  rw [moveToTail]
  cases hlookup : lookup key target entries with
  | none =>
    by_cases hother : other = target
    · simp [hother, hlookup]
    · simp [hother]
  | some entry =>
    have hentry := key_of_lookup hlookup
    rw [lookup_append]
    by_cases hother : other = target
    · have habsent := target_not_mem_eraseP target entries hnodup
      rw [hother, lookup_eq_none_iff.mpr habsent]
      simp [lookup_cons, hkey, hentry]
    · rw [lookup_eraseP entries hother, if_neg hother]
      simp [lookup_cons, hkey, hentry, Ne.symm hother]

/-- Moving a record to the tail permutes the keys. -/
theorem map_key_moveToTail_perm (entries : List A) :
    ((moveToTail key target update entries).map key).Perm (entries.map key) := by
  rw [moveToTail]
  cases hlookup : lookup key target entries with
  | none => exact List.Perm.refl _
  | some entry =>
    induction entries with
    | nil => simp at hlookup
    | cons head tail ih =>
      rw [lookup_cons] at hlookup
      by_cases hhead : key head = target
      · simp only [hhead, if_true, Option.some.injEq] at hlookup
        subst hlookup
        simp [hhead, hkey]
      · rw [if_neg hhead] at hlookup
        simpa [hhead] using (ih hlookup).cons (key head)

end Update

section Remove

variable {key} {target other : K}

theorem map_key_remove_sublist (entries : List A) :
    ((remove key target entries).map key).Sublist (entries.map key) :=
  List.filter_sublist.map key

theorem mem_remove {entries : List A} {entry : A} :
    entry ∈ remove key target entries ↔ entry ∈ entries ∧ key entry ≠ target := by
  simp [remove]

theorem remove_cons (head : A) (tail : List A) : remove key target (head :: tail) =
      if key head = target then remove key target tail
      else head :: remove key target tail := by
  rw [remove, filter_cons]
  by_cases hhead : key head = target <;> simp [hhead, remove]

@[simp]
theorem lookup_remove (entries : List A) : lookup key other (remove key target entries) =
      if other = target then none else lookup key other entries := by
  induction entries with
  | nil => simp [remove]
  | cons head tail ih =>
    rw [remove_cons, lookup_cons]
    by_cases hhead : key head = target
    · rw [if_pos hhead, ih, hhead]
      by_cases hother : other = target
      · simp [hother]
      · simp [hother, Ne.symm hother]
    · rw [if_neg hhead, lookup_cons, ih]
      by_cases hother : other = target
      · simp [hother, hhead]
      · simp [hother]

end Remove

end SaorsaCore.KeyedList
