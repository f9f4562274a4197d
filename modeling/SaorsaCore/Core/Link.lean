import Mathlib.Tactic.Common

/-!
# A fact kept in two places

Two maps that should be inverse to each other record every pair twice, once in each
direction.  An operation that changes both directions does so in two steps, and
other operations may act in between.  A `Link` is what the system knows about one
pair: the two records, and how many second steps are still owed by operations that
have made the first.

The steps below exclude two overlaps, an entry that begins while a removal of the
same pair is owed and a removal of the forward record while its entry is owed.
Without them the two records agree whenever nothing is owed.
-/

namespace SaorsaCore

@[ext]
structure Link where
  forward : Bool
  backward : Bool
  /-- Entries that have still to write the backward record. -/
  entering : ℕ
  /-- Removals that began with the forward record. -/
  leaving : ℕ
  /-- Removals that began with the backward record. -/
  scrubbing : ℕ

namespace Link

inductive Step (link next : Link) : Prop
  | stay (hnext : next = link)
  | enter (habsent : link.forward = false) (hleaving : link.leaving = 0)
      (hscrubbing : link.scrubbing = 0)
      (hnext : next = { link with
        forward := true
        entering := link.entering + 1 })
  | entered (howed : link.entering = next.entering + 1)
      (hnext : next = { link with
        backward := true
        entering := next.entering })
  | leave (hpresent : link.forward = true) (hentering : link.entering = 0)
      (hnext : next = { link with
        forward := false
        leaving := link.leaving + 1 })
  | left (howed : link.leaving = next.leaving + 1)
      (hnext : next = { link with
        backward := false
        leaving := next.leaving })
  | scrub (hpresent : link.backward = true)
      (hnext : next = { link with
        backward := false
        scrubbing := link.scrubbing + 1 })
  | scrubbed (howed : link.scrubbing = next.scrubbing + 1)
      (hnext : next = { link with
        forward := false
        scrubbing := next.scrubbing })

/-- At most one operation of each kind is under way, and the records are as that
operation left them. -/
structure Sound (link : Link) : Prop where
  entering : 0 < link.entering → link.entering = 1 ∧ link.forward = true ∧
    link.backward = false ∧ link.leaving = 0 ∧ link.scrubbing = 0
  leaving : 0 < link.leaving → link.leaving = 1 ∧ link.forward = false
  scrubbing : 0 < link.scrubbing → link.scrubbing = 1 ∧ link.backward = false
  settled : link.entering = 0 → link.leaving = 0 → link.scrubbing = 0 → link.forward = link.backward

theorem Sound.step {link next : Link} (hsound : Sound link)
    (hstep : Step link next) : Sound next := by
  obtain ⟨hentering, hleaving, hscrubbing, hsettled⟩ := hsound
  cases hstep with
  | stay hnext =>
    subst hnext
    exact ⟨hentering, hleaving, hscrubbing, hsettled⟩
  | enter habsent hnone hnoscrub hnext =>
    -- An entry that is owed would have written the forward record.
    have hidle : link.entering = 0 := by
      by_contra howed
      have hforward := (hentering (Nat.pos_of_ne_zero howed)).2.1
      rw [habsent] at hforward
      cases hforward
    have hbackward := hsettled hidle hnone hnoscrub
    constructor <;> grind
  | entered howed hnext =>
    have hbefore := hentering (by omega)
    constructor <;> grind
  | leave hpresent hnone hnext =>
    -- Neither record changes while a removal that began here is owed.
    have hidle : link.leaving = 0 := by
      by_contra howed
      have hforward := (hleaving (Nat.pos_of_ne_zero howed)).2
      rw [hpresent] at hforward
      cases hforward
    constructor <;> grind
  | left howed hnext =>
    have hbefore := hleaving (by omega)
    constructor <;> grind
  | scrub hpresent hnext =>
    have hidle : link.scrubbing = 0 := by
      by_contra howed
      have hbackward := (hscrubbing (Nat.pos_of_ne_zero howed)).2
      rw [hpresent] at hbackward
      cases hbackward
    constructor <;> grind
  | scrubbed howed hnext =>
    have hbefore := hscrubbing (by omega)
    constructor <;> grind

end Link

end SaorsaCore
