import Mathlib.Data.List.Basic
import Mathlib.Logic.Function.Basic

/-!
# Replaying events that assign values to keys

An observer keeps a view, a value for every key, and applies the events it receives
in the order in which they come.  Only the last event about a key matters for that
key, so two batches of events may be exchanged when no key occurs in both.
-/

namespace SaorsaCore.Replay

open List

variable {Key Value Event : Type*} [DecidableEq Key] (assigns : Event → Option (Key × Value))

def replayEvent (view : Key → Value) (event : Event) : Key → Value :=
  match assigns event with
  | some entry => Function.update view entry.1 entry.2
  | none => view

def replay (view : Key → Value) (events : List Event) : Key → Value :=
  events.foldl (replayEvent assigns) view

/-- The keys the events are about. -/
def keys (events : List Event) : List Key :=
  events.filterMap fun event => (assigns event).map Prod.fst

variable {assigns} {view : Key → Value}

@[simp]
theorem replay_nil : replay assigns view [] = view := rfl

theorem replay_append (first second : List Event) : replay assigns view (first ++ second) =
      replay assigns (replay assigns view first) second :=
  foldl_append

variable {key : Key}

omit [DecidableEq Key] in
theorem mem_keys_iff {events : List Event} : key ∈ keys assigns events ↔
      ∃ event ∈ events, (assigns event).map Prod.fst = some key := by
  rw [keys, mem_filterMap]

theorem replay_of_not_mem_keys {events : List Event} (habsent : key ∉ keys assigns events) :
    replay assigns view events key = view key := by
  induction events generalizing view with
  | nil => rfl
  | cons event events ih =>
    rw [mem_keys_iff] at habsent
    have htail : key ∉ keys assigns events := by
      rw [mem_keys_iff]
      rintro ⟨other, hmem, hkey⟩
      exact habsent ⟨other, mem_cons_of_mem event hmem, hkey⟩
    have hhead : replayEvent assigns view event key = view key := by
      rw [replayEvent]
      cases hentry : assigns event with
      | some entry =>
        apply Function.update_of_ne
        intro hkey
        exact habsent ⟨event, mem_cons_self, by rw [hentry, hkey]; rfl⟩
      | none => rfl
    calc replay assigns view (event :: events) key
        = replay assigns (replayEvent assigns view event) events key := rfl
      _ = replayEvent assigns view event key := ih htail
      _ = view key := hhead

/-- What a key gets depends on the view at that key only. -/
theorem replay_congr {other : Key → Value} (hkey : view key = other key) (events : List Event) :
    replay assigns view events key = replay assigns other events key := by
  induction events generalizing view other with
  | nil => exact hkey
  | cons event events ih =>
    apply ih
    rw [replayEvent, replayEvent]
    cases assigns event with
    | some entry =>
      by_cases heq : key = entry.1
      · simp only [heq, Function.update_self]
      · simp only [Function.update_of_ne heq, hkey]
    | none => exact hkey

/-- Batches about different keys may be exchanged. -/
theorem replay_comm {first second : List Event}
    (hdisjoint : ∀ key ∈ keys assigns second, key ∉ keys assigns first) :
    replay assigns (replay assigns view first) second =
      replay assigns (replay assigns view second) first := by
  funext key
  by_cases hkey : key ∈ keys assigns second
  · rw [replay_of_not_mem_keys (hdisjoint key hkey)]
    exact replay_congr (replay_of_not_mem_keys (hdisjoint key hkey)) second
  · rw [replay_of_not_mem_keys hkey]
    exact replay_congr (replay_of_not_mem_keys hkey).symm first

/-- A batch may overtake earlier ones that are about other keys. -/
theorem replay_overtake (earlier later : List (List Event)) {batch : List Event}
    (hdisjoint : ∀ other ∈ earlier, ∀ key ∈ keys assigns batch, key ∉ keys assigns other) :
    replay assigns view (earlier ++ batch :: later).flatten =
      replay assigns (replay assigns view batch) (earlier ++ later).flatten := by
  have hearlier : ∀ key ∈ keys assigns batch, key ∉ keys assigns earlier.flatten := by
    intro key hkey hmem
    obtain ⟨event, hevent, hassigned⟩ := mem_keys_iff.mp hmem
    obtain ⟨other, hother, hin⟩ := mem_flatten.mp hevent
    exact hdisjoint other hother key hkey (mem_keys_iff.mpr ⟨event, hin, hassigned⟩)
  calc replay assigns view (earlier ++ batch :: later).flatten
      = replay assigns (replay assigns (replay assigns view earlier.flatten)
          batch) later.flatten := by
        rw [flatten_append, flatten_cons, replay_append, replay_append]
    _ = replay assigns (replay assigns (replay assigns view batch)
          earlier.flatten) later.flatten := by
        rw [replay_comm hearlier]
    _ = replay assigns (replay assigns view batch) (earlier ++ later).flatten := by
        rw [flatten_append, replay_append]

end SaorsaCore.Replay
