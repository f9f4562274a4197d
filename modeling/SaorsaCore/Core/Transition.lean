import Mathlib.Data.Option.Basic
import Mathlib.Data.List.Basic

/-!
# Transition systems

A system is a partial step function on states and actions.  `Reaches` collects the
states of all runs whose steps meet a side condition; with the trivial condition
these are all reachable states.
-/

namespace SaorsaCore.Transition

variable {State Action : Type*} (step : State → Action → Option State)
  (allowed : State → Action → Prop)

/-- The states reached from `start` by steps that are allowed where they are
taken. -/
inductive Reaches (start : State) : State → Prop where
  | refl : Reaches start start
  | tail {state next : State} {action : Action} (hreaches : Reaches start state)
      (hallowed : allowed state action) (hstep : step state action = some next) :
      Reaches start next

/-- Execute a list of actions, stopping at one that is not allowed or not
enabled. -/
def run [∀ state action, Decidable (allowed state action)] : State → List Action → Option State
  | state, [] => some state
  | state, action :: actions =>
    if allowed state action then
      match step state action with
      | some next => run next actions
      | none => none
    else none

variable {step allowed} {start final : State}

theorem Reaches.trans {middle : State} (hfirst : Reaches step allowed start middle)
    (hsecond : Reaches step allowed middle final) :
    Reaches step allowed start final := by
  induction hsecond with
  | refl => exact hfirst
  | tail _ hallowed hstep ih => exact ih.tail hallowed hstep

/-- What holds at the start and is kept by every allowed step holds in every state
reached. -/
theorem Reaches.invariant {Invariant : State → Prop}
    (hreaches : Reaches step allowed start final) (hstart : Invariant start)
    (hkept : ∀ state action next, Invariant state → allowed state action →
      step state action = some next → Invariant next) : Invariant final := by
  induction hreaches with
  | refl => exact hstart
  | tail _ hallowed hstep ih => exact hkept _ _ _ ih hallowed hstep

theorem Reaches.mono {weaker : State → Action → Prop} (hreaches : Reaches step allowed start final)
    (hweaker : ∀ state action, allowed state action → weaker state action) :
    Reaches step weaker start final := by
  induction hreaches with
  | refl => exact Reaches.refl
  | tail _ hallowed hstep ih => exact ih.tail (hweaker _ _ hallowed) hstep

theorem reaches_of_run [∀ state action, Decidable (allowed state action)]
    {actions : List Action} (hrun : run step allowed start actions = some final) :
    Reaches step allowed start final := by
  induction actions generalizing start with
  | nil =>
    cases hrun
    exact Reaches.refl
  | cons action actions ih =>
    rw [run] at hrun
    split at hrun
    · next hallowed =>
        split at hrun
        · next next hstep =>
            exact (Reaches.refl.tail hallowed hstep).trans (ih hrun)
        · cases hrun
    · cases hrun

end SaorsaCore.Transition
