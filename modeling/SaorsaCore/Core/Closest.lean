import Mathlib.Data.List.MinMax
import Mathlib.Data.List.Sort
import Mathlib.Data.List.Perm.Subperm

/-!
# The closest elements of a list

`closest key count values` sorts by `key` and keeps the first `count` elements.
For distinct keys, membership depends only on how many elements have a smaller
key.  Counting is insensitive to order, so this is the form in which a group of
closest elements is compared before and after elements come and go.
-/

namespace SaorsaCore.Closest

open List

variable {A : Type*} (key : A → ℕ)

def closest (count : ℕ) (values : List A) : List A :=
  (values.insertionSort fun left right => key left ≤ key right).take count

/-- The number of elements with a smaller key. -/
def rank (values : List A) (value : A) : ℕ :=
  values.countP fun other => decide (key other < key value)

variable {key} {values : List A}

theorem rank_append_singleton (values : List A) (added value : A) :
    rank key (values ++ [added]) value =
      rank key values value + if key added < key value then 1 else 0 := by
  rw [rank, rank, countP_append, countP_singleton]
  simp only [decide_eq_true_eq]

theorem rank_perm {other : List A} (hperm : values.Perm other) (value : A) :
    rank key values value = rank key other value :=
  hperm.countP_eq _

theorem rank_lt_length {value : A} (hmem : value ∈ values) :
    rank key values value < values.length := by
  apply lt_of_le_of_ne countP_le_length
  intro hall
  exact lt_irrefl _ (of_decide_eq_true (countP_eq_length.mp hall value hmem))

/-- In a strictly sorted list the first `count` elements are those of rank below
`count`. -/
theorem mem_take_iff_of_pairwise (hsorted : values.Pairwise fun left right =>
      key left < key right) (count : ℕ) (value : A) :
    value ∈ values.take count ↔ value ∈ values ∧ rank key values value < count := by
  induction values generalizing count with
  | nil => simp
  | cons head tail ih =>
    obtain ⟨hhead, htail⟩ := pairwise_cons.mp hsorted
    cases count with
    | zero => simp
    | succ count =>
      rw [take_succ_cons, mem_cons, mem_cons, ih htail]
      have hfirst : rank key (head :: tail) head = 0 := by
        rw [rank, countP_eq_zero]
        intro other hother
        rcases mem_cons.mp hother with rfl | hmem
        · simp
        · simpa using (hhead other hmem).le
      have hlater : value ∈ tail → rank key (head :: tail) value = rank key tail value + 1 := by
        intro hmem
        rw [rank, countP_cons_of_pos (by simpa using hhead value hmem)]
        rfl
      constructor
      · rintro (rfl | ⟨hmem, hrank⟩)
        · exact ⟨Or.inl rfl, by omega⟩
        · exact ⟨Or.inr hmem, by rw [hlater hmem]; omega⟩
      · rintro ⟨rfl | hmem, hrank⟩
        · exact Or.inl rfl
        · rw [hlater hmem] at hrank
          exact Or.inr ⟨hmem, by omega⟩

theorem pairwise_lt_insertionSort (hnodup : (values.map key).Nodup) :
    (values.insertionSort fun left right => key left ≤ key right).Pairwise
      fun left right => key left < key right := by
  have hperm := values.perm_insertionSort fun left right => key left ≤ key right
  have hdistinct := (hperm.map key).nodup_iff.mpr hnodup
  rw [List.Nodup, pairwise_map] at hdistinct
  have hsorted : (values.insertionSort fun left right =>
      key left ≤ key right).Pairwise fun left right => key left ≤ key right := by
    have : Std.Total fun left right : A => key left ≤ key right :=
      ⟨fun left right => Nat.le_total (key left) (key right)⟩
    have : IsTrans A fun left right => key left ≤ key right :=
      ⟨fun _ _ _ => Nat.le_trans⟩
    exact pairwise_insertionSort _ values
  exact (hsorted.and hdistinct).imp fun hboth => Nat.lt_of_le_of_ne hboth.1 hboth.2

theorem mem_closest_iff (hnodup : (values.map key).Nodup) (count : ℕ) (value : A) :
    value ∈ closest key count values ↔ value ∈ values ∧ rank key values value < count := by
  have hperm := values.perm_insertionSort fun left right => key left ≤ key right
  rw [closest, mem_take_iff_of_pairwise (pairwise_lt_insertionSort hnodup),
    hperm.mem_iff, rank_perm hperm]

theorem length_closest (count : ℕ) (values : List A) :
    (closest key count values).length = min count values.length := by
  rw [closest, length_take, length_insertionSort]

theorem closest_subset (count : ℕ) (values : List A) :
    closest key count values ⊆ values := fun _ hmem =>
  (List.perm_insertionSort _ values).mem_iff.mp (List.mem_of_mem_take hmem)

theorem nodup_closest (hnodup : values.Nodup) (count : ℕ) : (closest key count values).Nodup :=
  ((values.perm_insertionSort _).nodup_iff.mpr hnodup).sublist (List.take_sublist _ _)

section

variable (hnodup : (values.map key).Nodup)
include hnodup

theorem pairwise_closest (count : ℕ) :
    (closest key count values).Pairwise fun left right => key left < key right :=
  (pairwise_lt_insertionSort hnodup).sublist (List.take_sublist _ _)

/-- The order in which the values are listed does not matter. -/
theorem closest_perm {other : List A} (hperm : values.Perm other) (count : ℕ) :
    closest key count values = closest key count other := by
  have hother : (other.map key).Nodup := (hperm.map key).nodup_iff.mp hnodup
  have hsorts : (values.insertionSort fun left right =>
      key left ≤ key right).Perm (other.insertionSort fun left right => key left ≤ key right) :=
    (values.perm_insertionSort _).trans (hperm.trans (other.perm_insertionSort _).symm)
  rw [closest, closest, hsorts.eq_of_pairwise (fun _ _ _ _ hlt hgt => absurd hlt (Nat.lt_asymm hgt))
    (pairwise_lt_insertionSort hnodup) (pairwise_lt_insertionSort hother)]

theorem insertionSort_filter (kept : A → Bool) :
    ((values.filter kept).insertionSort fun left right => key left ≤ key right) =
      (values.insertionSort fun left right => key left ≤ key right).filter kept := by
  have hperm : (values.filter kept).Perm
      ((values.insertionSort fun left right => key left ≤ key right).filter kept) :=
    (values.perm_insertionSort _).symm.filter kept
  exact (((values.filter kept).perm_insertionSort _).trans hperm).eq_of_pairwise
    (fun _ _ _ _ hlt hgt => absurd hlt (Nat.lt_asymm hgt))
    (pairwise_lt_insertionSort (hnodup.sublist (filter_sublist.map key)))
    ((pairwise_lt_insertionSort hnodup).sublist filter_sublist)

/-- Values that are not among the closest may be left out. -/
theorem closest_filter {kept : A → Bool} {count : ℕ}
    (hkept : ∀ value ∈ closest key count values, kept value = true) :
    closest key count (values.filter kept) = closest key count values := by
  set sorted := values.insertionSort fun left right => key left ≤ key right
  have hfront : (sorted.take count).filter kept = sorted.take count :=
    filter_eq_self.mpr hkept
  calc closest key count (values.filter kept)
      = (sorted.filter kept).take count := by rw [closest, insertionSort_filter hnodup]
    _ = (sorted.take count ++ (sorted.drop count).filter kept).take count := by
        rw [← hfront, ← filter_append, take_append_drop]
    _ = sorted.take count := by
        rcases Nat.le_total count sorted.length with hlong | hshort
        · exact take_left' (length_take_of_le hlong)
        · rw [drop_of_length_le hshort, filter_nil, append_nil, take_take, Nat.min_self]

end

variable {value : A}

theorem length_filter_ne [DecidableEq A] (hnodup : values.Nodup) (hmem : value ∈ values) :
    (values.filter fun other => other ≠ value).length = values.length - 1 := by
  rw [← length_erase_of_mem hmem, hnodup.erase_eq_filter]
  congr 1
  apply filter_congr
  intro other _
  rw [Bool.eq_iff_iff]
  simp

/-- Leaving one value out after the cut is the same as before it, unless the value is
among the closest and another one could have taken its place. -/
theorem closest_filter_ne_iff [DecidableEq A] (hnodup : (values.map key).Nodup)
    (count : ℕ) (value : A) :
    (closest key count values).filter (fun other => other ≠ value) =
        closest key count (values.filter fun other => other ≠ value) ↔
      value ∉ closest key count values ∨ values.length ≤ count := by
  constructor
  · intro heq
    by_contra! hcut
    obtain ⟨hmem, hlong⟩ := hcut
    -- The left side has one element less than the right one.
    have hgroup : (closest key count values).Nodup := nodup_closest hnodup.of_map count
    have hcount := length_pos_of_mem hmem
    have herased := length_filter_ne hgroup hmem
    rw [heq, length_closest, length_closest,
      length_filter_ne hnodup.of_map (closest_subset count values hmem)] at herased
    rw [length_closest] at hcount
    omega
  · rintro (hout | hshort)
    · have hkept : ∀ other ∈ closest key count values, decide (other ≠ value) = true := by
        intro other hother
        simpa using ne_of_mem_of_not_mem hother hout
      rw [closest_filter hnodup hkept, filter_eq_self.mpr hkept]
    · rw [closest, closest, insertionSort_filter hnodup, take_of_length_le, take_of_length_le]
      · exact (length_filter_le _ _).trans (by rwa [length_insertionSort])
      · rwa [length_insertionSort]

variable {added : A}

theorem nodup_closest_append (hnodup : (values ++ [added]).Nodup) (count : ℕ) :
    (closest key count values ++ [added]).Nodup := by
  have hnew : added ∉ closest key count values := fun hmem =>
    disjoint_of_nodup_append hnodup (closest_subset count values hmem) (mem_singleton_self added)
  simpa using (nodup_closest hnodup.of_append_left count).concat hnew

/-- A value may be added before or after the list is cut. -/
theorem closest_closest_append {count : ℕ} (hnodup : ((values ++ [added]).map key).Nodup) :
    closest key count (closest key count values ++ [added]) =
      closest key count (values ++ [added]) := by
  classical
  have hvalues : (values.map key).Nodup := by
    rw [map_append] at hnodup
    exact hnodup.of_append_left
  have hkept : ∀ value ∈ closest key count (values ++ [added]),
      decide (value ∈ closest key count values ++ [added]) = true := by
    intro value hmem
    obtain ⟨hvalue, hrank⟩ := (mem_closest_iff hnodup count value).mp hmem
    rw [decide_eq_true_eq, mem_append, mem_closest_iff hvalues]
    rw [rank_append_singleton] at hrank
    exact (mem_append.mp hvalue).imp_left fun hold => ⟨hold, by omega⟩
  have hperm : ((values ++ [added]).filter fun value =>
      decide (value ∈ closest key count values ++ [added])).Perm
        (closest key count values ++ [added]) := by
    rw [perm_ext_iff_of_nodup (hnodup.of_map.filter _) (nodup_closest_append hnodup.of_map count)]
    intro value
    rw [mem_filter, decide_eq_true_eq, and_iff_right_iff_imp, mem_append, mem_append]
    exact Or.imp_left fun hmem => closest_subset count values hmem
  rw [← closest_filter hnodup hkept, closest_perm _ hperm]
  exact hnodup.sublist (filter_sublist.map key)

/-- Putting a value before the first one that is farther sorts it in. -/
theorem take_insertIdx_findIdx (hnodup : ((values ++ [added]).map key).Nodup)
    (hsorted : values.Pairwise fun left right => key left < key right) (count : ℕ) :
    (values.insertIdx (values.findIdx fun value => decide (key added < key value))
      added).take count = closest key count (values ++ [added]) := by
  have hperm := perm_append_singleton added values
  have hinsert : values.insertIdx (values.findIdx fun value => decide (key added < key value))
      added = values.orderedInsert (fun left right => key left ≤ key right) added := by
    clear hsorted hperm
    induction values with
    | nil => rfl
    | cons head tail ih =>
      obtain ⟨hhead, htail⟩ := nodup_cons.mp hnodup
      have hne : key added ≠ key head := by
        rintro heq
        simp [heq] at hhead
      rw [findIdx_cons, orderedInsert]
      by_cases hless : key added < key head
      · rw [decide_eq_true hless, if_pos hless.le]
        rfl
      · rw [decide_eq_false hless, if_neg fun hle => hless (lt_of_le_of_ne hle hne)]
        exact congrArg (head :: ·) (ih htail)
  have hsame : values.insertionSort (fun left right => key left ≤ key right) = values :=
    List.Pairwise.insertionSort_eq (hsorted.imp le_of_lt)
  rw [hinsert, closest_perm hnodup hperm, closest, insertionSort_cons, hsame]

variable (key) in
theorem map_closest {B : Type*} (image : B → A) (count : ℕ) (sources : List B) :
    (closest (key ∘ image) count sources).map image = closest key count (sources.map image) := by
  rw [closest, closest, map_take]
  congr 1
  exact map_insertionSort _ _ image sources fun _ _ _ _ => Iff.rfl

/-- The last element of a sorted list is the farthest. -/
theorem le_getLast_of_pairwise (hsorted : values.Pairwise fun left right =>
      key left < key right) {last : A} (hlast : values.getLast? = some last)
    (hmem : value ∈ values) : key value ≤ key last := by
  obtain ⟨front, rfl⟩ := getLast?_eq_some_iff.mp hlast
  rcases mem_append.mp hmem with hfront | heq
  · exact ((pairwise_append.mp hsorted).2.2 value hfront last mem_cons_self).le
  · rw [mem_singleton.mp heq]

/-- A list without repetitions counts no more than any list that has all its
counted elements. -/
theorem countP_le_of_forall_mem {fewer more : List A} {counted : A → Bool} (hnodup : fewer.Nodup)
    (hmem : ∀ value ∈ fewer, counted value = true → value ∈ more) :
    fewer.countP counted ≤ more.countP counted := by
  have hsubset : fewer.filter counted ⊆ more.filter counted := by
    intro value hvalue
    obtain ⟨hfewer, hcounted⟩ := mem_filter.mp hvalue
    exact mem_filter.mpr ⟨hmem value hfewer hcounted, hcounted⟩
  rw [countP_eq_length_filter, countP_eq_length_filter]
  exact (subperm_of_subset (hnodup.filter _) hsubset).length_le

theorem rank_le_of_subset {fewer : List A} (hnodup : fewer.Nodup)
    (hsubset : fewer ⊆ values) (value : A) :
    rank key fewer value ≤ rank key values value :=
  countP_le_of_forall_mem hnodup fun _ hmem _ => hsubset hmem

/-- An element behind all of a group has at least the rank of the group's size. -/
theorem length_le_rank {group : List A} (hnodup : group.Nodup) (hsubset : group ⊆ values)
    (hcloser : ∀ member ∈ group, key member < key value) :
    group.length ≤ rank key values value := by
  have hall : group.length = rank key group value := by
    rw [rank, eq_comm, countP_eq_length]
    exact fun member hmem => decide_eq_true (hcloser member hmem)
  rw [hall]
  exact rank_le_of_subset hnodup hsubset value

theorem nodup_of_pairwise_lt (hsorted : values.Pairwise fun left right =>
    key left < key right) : values.Nodup :=
  hsorted.imp fun hless heq => absurd (congrArg key heq) hless.ne

/-- A list in increasing order of the keys is determined by its elements. -/
theorem eq_of_mem_iff {left right : List A}
    (hleft : left.Pairwise fun first second => key first < key second)
    (hright : right.Pairwise fun first second => key first < key second)
    (hmem : ∀ value, value ∈ left ↔ value ∈ right) : left = right := by
  have hperm : left.Perm right := (perm_ext_iff_of_nodup
    (nodup_of_pairwise_lt hleft) (nodup_of_pairwise_lt hright)).mpr hmem
  exact hperm.eq_of_pairwise (fun _ _ _ _ hlt hgt => absurd hlt (Nat.lt_asymm hgt)) hleft hright

/-- The first of a list in increasing order is the closest. -/
theorem argmin_eq_head? (hsorted : values.Pairwise fun left right => key left < key right) :
    values.argmin key = values.head? := by
  cases values with
  | nil => rfl
  | cons first rest =>
    rw [argmin_cons, head?_cons]
    cases hrest : rest.argmin key with
    | none => rfl
    | some other =>
      have hless := (pairwise_cons.mp hsorted).1 other (argmin_mem hrest)
      exact if_neg (Nat.lt_asymm hless)

/-! ## One value after the other -/

variable (key) in
/-- The elements kept of some values: no more than `count`, and a value is left out only
behind `count` others. -/
structure Nearest (count : ℕ) (values kept : List A) : Prop where
  sorted : kept.Pairwise fun left right => key left < key right
  subset : kept ⊆ values
  length : kept.length ≤ count
  farther : ∀ value ∈ values, value ∉ kept →
    kept.length = count ∧ ∀ member ∈ kept, key member < key value

namespace Nearest

variable {count : ℕ} {kept : List A} {value : A}

theorem nil : Nearest key count ([] : List A) [] where
  sorted := List.Pairwise.nil
  subset := List.Subset.refl _
  length := Nat.zero_le _
  farther _ hmem := absurd hmem List.not_mem_nil

variable (hnearest : Nearest key count values kept)
include hnearest

theorem nodup : kept.Nodup :=
  nodup_of_pairwise_lt hnearest.sorted

/-- Only the set of the values counts. -/
theorem congr {others : List A}
    (hmem : ∀ value, value ∈ others ↔ value ∈ values) : Nearest key count others kept where
  sorted := hnearest.sorted
  subset := fun value hvalue => (hmem value).mpr (hnearest.subset hvalue)
  length := hnearest.length
  farther := fun value hvalue => hnearest.farther value ((hmem value).mp hvalue)

theorem rank_lt (hnodup : values.Nodup) (hmem : value ∈ kept) : rank key values value < count := by
  have hcloser : ∀ other ∈ values, decide (key other < key value) = true → other ∈ kept := by
    intro other hother hless
    by_contra houtside
    exact Nat.lt_asymm (of_decide_eq_true hless)
      ((hnearest.farther other hother houtside).2 value hmem)
  calc rank key values value ≤ rank key kept value := countP_le_of_forall_mem hnodup hcloser
    _ < kept.length := rank_lt_length hmem
    _ ≤ count := hnearest.length

/-- What is kept is what sorting all values and cutting the list would keep. -/
theorem eq_closest (hnodup : (values.map key).Nodup) : kept = closest key count values := by
  apply eq_of_mem_iff hnearest.sorted (pairwise_closest hnodup count)
  intro value
  rw [mem_closest_iff hnodup]
  constructor
  · intro hmem
    exact ⟨hnearest.subset hmem, hnearest.rank_lt hnodup.of_map hmem⟩
  · rintro ⟨hvalue, hrank⟩
    by_contra houtside
    obtain ⟨hfull, hcloser⟩ := hnearest.farther value hvalue houtside
    have hbehind := length_le_rank hnearest.nodup hnearest.subset hcloser
    exact absurd hrank (Nat.not_lt.mpr (hfull ▸ hbehind))

/-- A value that is kept already. -/
theorem again (hmem : value ∈ kept) : Nearest key count (value :: values) kept := by
  apply hnearest.congr
  intro other
  rw [mem_cons, or_iff_right_of_imp]
  rintro rfl
  exact hnearest.subset hmem

/-- While there is room nothing is left out. -/
theorem add {next : List A} (hroom : kept.length < count) (hperm : next.Perm (value :: kept))
    (hsorted : next.Pairwise fun left right => key left < key right) :
    Nearest key count (value :: values) next where
  sorted := hsorted
  subset := fun other hother =>
    List.cons_subset_cons value hnearest.subset (hperm.mem_iff.mp hother)
  length := by
    rw [hperm.length_eq]
    exact hroom
  farther other hother houtside := by
    have hall : ∀ known ∈ values, known ∈ kept := by
      intro known hknown
      by_contra habsent
      exact hroom.ne (hnearest.farther known hknown habsent).1
    apply absurd (hperm.mem_iff.mpr _) houtside
    rcases mem_cons.mp hother with rfl | hknown
    · exact mem_cons_self
    · exact mem_cons_of_mem _ (hall other hknown)

/-- A value behind a full list is left out. -/
theorem pass (hfull : count ≤ kept.length) (hbehind : ∀ member ∈ kept, key member < key value) :
    Nearest key count (value :: values) kept where
  sorted := hnearest.sorted
  subset := fun _ hother => List.mem_cons_of_mem _ (hnearest.subset hother)
  length := hnearest.length
  farther other hother houtside := by
    rcases mem_cons.mp hother with rfl | hknown
    · exact ⟨Nat.le_antisymm hnearest.length hfull, hbehind⟩
    · exact hnearest.farther other hknown houtside

/-- A closer value takes the place of the last one. -/
theorem displace {next : List A} {last : A}
    (hfull : count ≤ kept.length) (hlast : kept.getLast? = some last)
    (hcloser : key value < key last) (hperm : next.Perm (value :: kept.dropLast))
    (hsorted : next.Pairwise fun left right => key left < key right) :
    Nearest key count (value :: values) next := by
  have hmem : last ∈ kept := mem_of_getLast? hlast
  have hlength : next.length = kept.length := by
    rw [hperm.length_eq, length_cons, length_dropLast]
    exact Nat.sub_add_cancel (length_pos_of_mem hmem)
  obtain ⟨front, rfl⟩ := getLast?_eq_some_iff.mp hlast
  rw [dropLast_concat] at hperm
  have hfront : ∀ member ∈ front, key member < key last := fun member hmember =>
    (pairwise_append.mp hnearest.sorted).2.2 member hmember last mem_cons_self
  refine ⟨hsorted, ?_, hlength ▸ hnearest.length, ?_⟩
  · intro other hother
    rcases mem_cons.mp (hperm.mem_iff.mp hother) with rfl | hkept
    · exact mem_cons_self
    · exact mem_cons_of_mem _ (hnearest.subset (mem_append_left _ hkept))
  · intro other hother houtside
    refine ⟨hlength.trans (Nat.le_antisymm hnearest.length hfull), ?_⟩
    obtain ⟨hne, habsent⟩ := not_or.mp (fun hor => houtside (hperm.mem_iff.mpr (mem_cons.mpr hor)))
    have hknown : other ∈ values := (mem_cons.mp hother).resolve_left hne
    -- the displaced value and those left out before are behind everything kept
    have hlate : key last ≤ key other := by
      by_cases heq : other = last
      · rw [heq]
      · refine ((hnearest.farther other hknown ?_).2 last hmem).le
        simp [habsent, heq]
    intro member hmember
    rcases mem_cons.mp (hperm.mem_iff.mp hmember) with rfl | hkept
    · exact hcloser.trans_le hlate
    · exact (hfront member hkept).trans_le hlate

end Nearest

end SaorsaCore.Closest
