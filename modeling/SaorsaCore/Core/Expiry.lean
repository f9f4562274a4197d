import Mathlib.Data.List.Induction
import Mathlib.Data.Option.Basic

/-!
# Stamps that expire

A stamp is the time of the last event that set it, until an event unsets it.  It counts
while it is fresh.  A stamp that has expired may be dropped at any time: what is fresh
later on is the same, so a store that drops expired stamps on access still answers from
the whole history.
-/

namespace SaorsaCore.Expiry

open Function List

/-- What an event does to a stamp. -/
inductive Effect where
  | set
  | unset
  | keep
  deriving DecidableEq, Repr

def fresh (ttl now : ℕ) (stamp : Option ℕ) : Bool :=
  stamp.any fun recorded => now - recorded < ttl

/-- Drop the stamp if it has expired. -/
def prune (ttl now : ℕ) (stamp : Option ℕ) : Option ℕ :=
  stamp.filter fun recorded => now - recorded < ttl

def Effect.apply (now : ℕ) (stamp : Option ℕ) : Effect → Option ℕ
  | .set => some now
  | .unset => none
  | .keep => stamp

section Tables

variable {Key : Type*} [DecidableEq Key]

/-- Ask whether a stamp is fresh, and remove it if it has expired. -/
def ask (ttl now : ℕ) (stamps : Key → Option ℕ) (key : Key) : (Key → Option ℕ) × Bool :=
  match stamps key with
  | some recorded =>
    if now - recorded < ttl then (stamps, true)
    else (Function.update stamps key none, false)
  | none => (stamps, false)

theorem ask_eq (ttl now : ℕ) (stamps : Key → Option ℕ) (key : Key) : ask ttl now stamps key =
      (update stamps key (prune ttl now (stamps key)), fresh ttl now (stamps key)) := by
  have hsame := update_eq_self key stamps
  rw [ask]
  cases hstamp : stamps key with
  | none =>
    rw [hstamp] at hsame
    simp [prune, fresh, hsame]
  | some recorded =>
    rw [hstamp] at hsame
    by_cases hyoung : now - recorded < ttl
    · simp [prune, fresh, Option.filter_some, hyoung, hsame]
    · simp [prune, fresh, Option.filter_some, hyoung]

/-- A question changes the freshness of no stamp. -/
theorem fresh_ask (ttl now : ℕ) (stamps : Key → Option ℕ) (asked key : Key) :
    fresh ttl now ((ask ttl now stamps asked).1 key) = fresh ttl now (stamps key) := by
  simp only [ask_eq, update_apply]
  split
  · next hkey =>
      subst hkey
      cases hstamp : stamps key with
      | none => rfl
      | some recorded =>
        by_cases hyoung : now - recorded < ttl <;>
          simp [fresh, prune, Option.filter_some, hyoung]
  · rfl

/-- One stamp of a table is changed. -/
theorem update_apply_eq (stamps : Key → Option ℕ) (changed key : Key) (now : ℕ) (effect : Effect) :
    update stamps changed (effect.apply now (stamps changed)) key =
      (if changed = key then effect else .keep).apply now (stamps key) := by
  by_cases hkey : changed = key
  · subst hkey
    simp
  · rw [update_of_ne (Ne.symm hkey), if_neg hkey, Effect.apply]

end Tables

section Histories

variable {Event : Type*} (effect : Event → Effect)

/-- The time of the last event that does something, if it sets the stamp. -/
def stampAfter (history : List (ℕ × Event)) : Option ℕ :=
  (history.filter fun entry => effect entry.2 ≠ .keep).getLast?.bind fun entry =>
    if effect entry.2 = .set then some entry.1 else none

variable {effect} {history : List (ℕ × Event)} {now : ℕ} {event : Event}

theorem stampAfter_concat : stampAfter effect (history ++ [(now, event)]) =
      (effect event).apply now (stampAfter effect history) := by
  rw [stampAfter, filter_append]
  cases heffect : effect event with
  | keep =>
    simp [heffect, Effect.apply, stampAfter]
  | set =>
    simp [heffect, Effect.apply]
  | unset =>
    simp [heffect, Effect.apply]

/-- Events that do nothing may be left out of the history. -/
theorem stampAfter_filter {kept : Event → Bool}
    (hkept : ∀ event, effect event ≠ .keep → kept event = true) :
    stampAfter effect (history.filter fun entry => kept entry.2) = stampAfter effect history := by
  have hsame : (history.filter fun entry => kept entry.2).filter
      (fun entry => effect entry.2 ≠ .keep) =
        history.filter fun entry => effect entry.2 ≠ .keep := by
    rw [filter_filter]
    apply filter_congr
    intro entry _
    by_cases heffect : effect entry.2 = .keep
    · simp [heffect]
    · simp [heffect, hkept entry.2 heffect]
  rw [stampAfter, hsame, stampAfter]

/-- If no event unsets the stamp, it is fresh as soon as one event has set it lately. -/
theorem fresh_stampAfter_iff {ttl later : ℕ} (hsorted : (history.map Prod.fst).Pairwise (· ≤ ·))
    (hset : ∀ event, effect event ≠ .unset) :
    fresh ttl later (stampAfter effect history) = true ↔
      ∃ entry ∈ history, effect entry.2 = .set ∧ later - entry.1 < ttl := by
  induction history using reverseRecOn with
  | nil => simp [stampAfter, fresh]
  | append_singleton history last ih =>
    obtain ⟨recorded, event⟩ := last
    rw [map_append, pairwise_append] at hsorted
    obtain ⟨hfirst, -, hlast⟩ := hsorted
    rw [stampAfter_concat]
    cases heffect : effect event with
    | unset => exact absurd heffect (hset event)
    | keep =>
      rw [Effect.apply, ih hfirst]
      simp [heffect]
    | set =>
      -- The last event is the youngest one.
      have hyoungest : ∀ entry ∈ history, later - entry.1 < ttl → later - recorded < ttl := by
        intro entry hentry hyoung
        have hle := hlast entry.1 (mem_map_of_mem hentry) recorded (by simp)
        omega
      constructor
      · intro hfresh
        refine ⟨(recorded, event), by simp, heffect, ?_⟩
        simpa [Effect.apply, fresh] using hfresh
      · rintro ⟨entry, hentry, -, hyoung⟩
        rcases mem_append.mp hentry with hold | hnew
        · simpa [Effect.apply, fresh] using hyoungest entry hold hyoung
        · rw [mem_singleton.mp hnew] at hyoung
          simpa [Effect.apply, fresh] using hyoung

end Histories

/-! ## Stamps that agree from now on -/

/-- From now on, one stamp is fresh when the other is. -/
def Agrees (ttl now : ℕ) (stamp ideal : Option ℕ) : Prop :=
  ∀ later, now ≤ later → fresh ttl later stamp = fresh ttl later ideal

namespace Agrees

variable {ttl now : ℕ} {stamp ideal : Option ℕ}

theorem refl (ttl now : ℕ) (stamp : Option ℕ) : Agrees ttl now stamp stamp :=
  fun _ _ => rfl

theorem later (hagrees : Agrees ttl now stamp ideal) {next : ℕ} (hle : now ≤ next) :
    Agrees ttl next stamp ideal :=
  fun time htime => hagrees time (Nat.le_trans hle htime)

/-- An expired stamp is never fresh again. -/
theorem prune (hagrees : Agrees ttl now stamp ideal) :
    Agrees ttl now (prune ttl now stamp) ideal := by
  intro time htime
  rw [← hagrees time htime]
  cases stamp with
  | none => rfl
  | some recorded =>
    by_cases hyoung : now - recorded < ttl
    · simp [Expiry.prune, Option.filter_some, hyoung]
    · have hold : ¬time - recorded < ttl := by omega
      simp [Expiry.prune, Option.filter_some, fresh, hyoung, hold]

/-- Asking for one stamp changes nothing from now on. -/
theorem ask {Key : Type*} [DecidableEq Key] {stamps ideals : Key → Option ℕ}
    (hagrees : ∀ key, Agrees ttl now (stamps key) (ideals key)) (asked key : Key) :
    Agrees ttl now ((ask ttl now stamps asked).1 key) (ideals key) := by
  simp only [ask_eq]
  by_cases hkey : key = asked
  · subst hkey
    rw [update_self]
    exact (hagrees key).prune
  · rw [update_of_ne hkey]
    exact hagrees key

theorem apply (hagrees : Agrees ttl now stamp ideal) (effect : Effect) :
    Agrees ttl now (effect.apply now stamp) (effect.apply now ideal) := by
  cases effect with
  | keep => exact hagrees
  | set => exact refl ttl now (some now)
  | unset => exact refl ttl now none

theorem concat {Event : Type*} {effect : Event → Effect} {history : List (ℕ × Event)}
    (hagrees : Agrees ttl now stamp (stampAfter effect history)) (event : Event) :
    Agrees ttl now ((effect event).apply now stamp)
      (stampAfter effect (history ++ [(now, event)])) := by
  rw [stampAfter_concat]
  exact hagrees.apply (effect event)

end Agrees

end SaorsaCore.Expiry
