import Mathlib.Tactic.Common

/-!
# A flag and its announcements

An operation that changes a flag announces the new value in a later step, and other
operations may act in between.  A `Flag` is the value, the value announced last, and
how many announcements are still owed.  The steps below let the value change only
when no announcement is owed; then the last announcement is right whenever none is.
-/

namespace SaorsaCore

@[ext]
structure Flag where
  value : Bool
  told : Bool
  /-- Announcements that the flag is up. -/
  raising : ℕ
  /-- Announcements that the flag is down. -/
  lowering : ℕ

namespace Flag

inductive Step (flag next : Flag) : Prop
  | stay (hnext : next = flag)
  | raise (hraising : flag.raising = 0) (hlowering : flag.lowering = 0)
      (hnext : next = { flag with
        value := true
        raising := flag.raising + 1 })
  | raised (howed : flag.raising = next.raising + 1)
      (hnext : next = { flag with
        told := true
        raising := next.raising })
  | lower (hraising : flag.raising = 0) (hlowering : flag.lowering = 0)
      (hnext : next = { flag with
        value := false
        lowering := flag.lowering + 1 })
  | lowered (howed : flag.lowering = next.lowering + 1)
      (hnext : next = { flag with
        told := false
        lowering := next.lowering })

/-- At most one announcement is owed, and it is about the present value. -/
structure Sound (flag : Flag) : Prop where
  raising : 0 < flag.raising → flag.raising = 1 ∧ flag.lowering = 0 ∧ flag.value = true
  lowering : 0 < flag.lowering → flag.lowering = 1 ∧ flag.raising = 0 ∧ flag.value = false
  settled : flag.raising = 0 → flag.lowering = 0 → flag.told = flag.value

theorem Sound.step {flag next : Flag} (hsound : Sound flag) (hstep : Step flag next) :
    Sound next := by
  obtain ⟨hraising, hlowering, hsettled⟩ := hsound
  cases hstep with
  | stay hnext =>
    subst hnext
    exact ⟨hraising, hlowering, hsettled⟩
  | raise hnone hnolower hnext => constructor <;> grind
  | raised howed hnext =>
    have hbefore := hraising (by omega)
    constructor <;> grind
  | lower hnoraise hnone hnext => constructor <;> grind
  | lowered howed hnext =>
    have hbefore := hlowering (by omega)
    constructor <;> grind

end Flag

end SaorsaCore
