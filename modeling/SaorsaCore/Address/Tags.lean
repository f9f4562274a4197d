import SaorsaCore.Address.MultiAddr
import Mathlib.Data.List.MinMax

/-!
# The tags of an address

A list of tagged addresses may name an address more than once.  What it says about the
address is then a list of tags, and the strongest of them counts: the one that is dialed
first.
-/

namespace SaorsaCore

open List

theorem priority_injective : Function.Injective AddressType.priority := by
  intro left right
  cases left <;> cases right <;> simp [AddressType.priority]

/-- The tags that a list of pairs gives an address. -/
def tagsOf (typed : List (MultiAddr × AddressType)) (address : MultiAddr) : List AddressType :=
  (typed.filter fun pair => pair.1 = address).map Prod.snd

variable {typed : List (MultiAddr × AddressType)}

theorem mem_tagsOf {address : MultiAddr} {tag : AddressType} :
    tag ∈ tagsOf typed address ↔ (address, tag) ∈ typed := by
  simp [tagsOf]

theorem tagsOf_append (front back : List (MultiAddr × AddressType)) (address : MultiAddr) :
    tagsOf (front ++ back) address = tagsOf front address ++ tagsOf back address := by
  simp [tagsOf]

theorem tagsOf_concat (typed : List (MultiAddr × AddressType))
    (pair : MultiAddr × AddressType) (address : MultiAddr) :
    tagsOf (typed ++ [pair]) address =
      tagsOf typed address ++ if pair.1 = address then [pair.2] else [] := by
  rw [tagsOf_append]
  congr 1
  by_cases heq : pair.1 = address <;> simp [tagsOf, heq]

theorem tagsOf_eq_nil_iff {address : MultiAddr} :
    tagsOf typed address = [] ↔ address ∉ typed.map Prod.fst := by
  rw [eq_nil_iff_forall_not_mem]
  simp [mem_tagsOf]

/-! ## The strongest tag -/

/-- The strongest of some tags: the one of least priority number. -/
def strongest (tags : List AddressType) : Option AddressType :=
  tags.argmin AddressType.priority

/-- The strongest tag that a list of pairs gives an address. -/
def strongestTag (typed : List (MultiAddr × AddressType)) (address : MultiAddr) :
    Option AddressType :=
  strongest (tagsOf typed address)

/-- Every one of `tags` is matched by one of `others` that is at least as strong. -/
def Matched (tags others : List AddressType) : Prop :=
  ∀ tag ∈ tags, ∃ other ∈ others, other.priority ≤ tag.priority

variable {tags : List AddressType}

theorem exists_strongest {tag : AddressType} (hmem : tag ∈ tags) :
    ∃ best ∈ tags, strongest tags = some best ∧ best.priority ≤ tag.priority := by
  cases hbest : strongest tags with
  | none => exact absurd hmem (argmin_eq_none.mp hbest ▸ not_mem_nil)
  | some best =>
    exact ⟨best, argmin_mem hbest, rfl, le_of_mem_argmin hmem hbest⟩

variable {others : List AddressType}

theorem Matched.of_subset (hsubset : tags ⊆ others) : Matched tags others :=
  fun tag hmem => ⟨tag, hsubset hmem, le_rfl⟩

theorem Matched.strongest_le (hmatched : Matched tags others) {first second : AddressType}
    (hfirst : strongest tags = some first) (hsecond : strongest others = some second) :
    second.priority ≤ first.priority := by
  obtain ⟨other, hother, hle⟩ := hmatched first (argmin_mem hfirst)
  exact (le_of_mem_argmin hother hsecond).trans hle

theorem strongest_congr (hforth : Matched tags others) (hback : Matched others tags) :
    strongest tags = strongest others := by
  cases hfirst : strongest tags with
  | none =>
    have hnil : tags = [] := argmin_eq_none.mp hfirst
    have hothers : others = [] := by
      rw [eq_nil_iff_forall_not_mem]
      intro other hother
      obtain ⟨tag, htag, -⟩ := hback other hother
      exact not_mem_nil (hnil ▸ htag)
    rw [hothers, strongest, argmin_nil]
  | some first =>
    cases hsecond : strongest others with
    | none =>
      obtain ⟨other, hother, -⟩ := hforth first (argmin_mem hfirst)
      have hnil : others = [] := argmin_eq_none.mp hsecond
      exact absurd hother (hnil ▸ not_mem_nil)
    | some second =>
      have hle := hforth.strongest_le hfirst hsecond
      have hge := hback.strongest_le hsecond hfirst
      rw [priority_injective (le_antisymm hge hle)]

theorem strongestTag_perm {others : List (MultiAddr × AddressType)} (hperm : typed.Perm others)
    (address : MultiAddr) : strongestTag typed address = strongestTag others address := by
  have htags : (tagsOf typed address).Perm (tagsOf others address) :=
    (hperm.filter _).map _
  exact strongest_congr (.of_subset htags.subset) (.of_subset htags.symm.subset)

/-- Two tags make the same difference beside others when they are equal or one of the
others is at least as strong as both. -/
theorem strongest_cons_eq_iff (left right : AddressType) (tags : List AddressType) :
    strongest (left :: tags) = strongest (right :: tags) ↔ left = right ∨
        ∃ tag ∈ tags, tag.priority ≤ left.priority ∧ tag.priority ≤ right.priority := by
  constructor
  · intro heq
    by_contra! hneither
    obtain ⟨hne, hweaker⟩ := hneither
    have hpriority := fun heq => hne (priority_injective heq)
    cases hstrongest : strongest (left :: tags) with
    | none => exact absurd (argmin_eq_none.mp hstrongest) (by simp)
    | some best =>
      have hleft := le_of_mem_argmin mem_cons_self hstrongest
      have hright := le_of_mem_argmin mem_cons_self (heq ▸ hstrongest)
      have hinleft : best ∈ left :: tags := argmin_mem hstrongest
      have hinright : best ∈ right :: tags := argmin_mem (heq ▸ hstrongest)
      grind
  · rintro (heq | ⟨tag, htag, hleft, hright⟩)
    · rw [heq]
    · apply strongest_congr <;> intro other hother <;> grind

end SaorsaCore
