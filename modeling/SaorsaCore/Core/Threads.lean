import Mathlib.Algebra.BigOperators.Group.Finset.Basic
import SaorsaCore.Core.Transition

/-!
# Threads with visible stages

A family of threads shares one state.  A thread is where it stands in its program, and a
move of one thread changes the state and that thread alone.  A proof outline assigns
each thread an assertion that its own moves carry forward and the moves of the others do
not break; the other two rules follow an obligation and a quantity through the moves.
-/

namespace SaorsaCore

/-- The shared state and where each thread stands. -/
structure Threads (Index State Thread : Type*) where
  state : State
  threads : Index → Thread

/-- The thread, left alone, comes to its end in the final state. -/
inductive Finishes {State Thread : Type*} (move : Thread → State → Option (State × Thread))
    (final : State) : Thread → State → Prop where
  | stop {thread : Thread} (hmove : move thread final = none) :
      Finishes move final thread final
  | move {thread next : Thread} {state found : State}
      (hmove : move thread state = some (found, next))
      (hrest : Finishes move final next found) : Finishes move final thread state

namespace Threads

variable {Index State Thread : Type*} [DecidableEq Index]
  (move : Thread → State → Option (State × Thread))

/-- One thread moves; the others stay where they are. -/
def step (system : Threads Index State Thread) (index : Index) :
    Option (Threads Index State Thread) :=
  (move (system.threads index) system.state).map fun moved =>
    { state := moved.1
      threads := Function.update system.threads index moved.2 }

variable {move} {system next : Threads Index State Thread} {index : Index}

theorem step_eq_some (hstep : system.step move index = some next) :
    ∃ state thread, move (system.threads index) system.state = some (state, thread)
      ∧ next = { state := state
                 threads := Function.update system.threads index thread } := by
  obtain ⟨⟨state, thread⟩, hmove, rfl⟩ := Option.map_eq_some_iff.mp hstep
  exact ⟨state, thread, hmove, rfl⟩

/-- To leave a thread alone is one of the ways the system can go. -/
theorem reaches_of_finishes {state final : State} {thread : Thread}
    (hfinishes : Finishes move final thread state) {threads : Index → Thread}
    (hthread : threads index = thread) :
    ∃ last, move last final = none ∧
      Transition.Reaches (step move) (fun _ _ => True) { state, threads }
        { state := final
          threads := Function.update threads index last } := by
  induction hfinishes generalizing threads with
  | @stop thread hmove =>
    refine ⟨thread, hmove, ?_⟩
    rw [← hthread, Function.update_eq_self]
    exact .refl
  | @move thread next state found hmove _ ih =>
    obtain ⟨last, hend, hreaches⟩ := ih (Function.update_self index next threads)
    rw [Function.update_idem] at hreaches
    refine ⟨last, hend, (Transition.Reaches.refl.tail trivial (?_ : step _ _ index = _)).trans
      hreaches⟩
    simp [step, hthread, hmove]

/-! ## Proof outlines -/

/-- The invariant holds and every thread is where its assertion holds. -/
structure Outlined (Invariant : State → Prop) (Outline : Index → Thread → State → Prop)
    (system : Threads Index State Thread) : Prop where
  invariant : Invariant system.state
  outline : ∀ index, Outline index (system.threads index) system.state

variable {state : State} {thread : Thread}

/-- A move keeps the outline if it leads its own thread to the next assertion and
leaves the assertions of the others standing. -/
theorem Outlined.update {Invariant : State → Prop} {Outline : Index → Thread → State → Prop}
    (houtlined : system.Outlined Invariant Outline) (hinvariant : Invariant state)
    (hown : Outline index thread state) (hothers : ∀ other, other ≠ index →
      Outline other (system.threads other) system.state →
        Outline other (system.threads other) state) :
    Outlined Invariant Outline
      { state := state
        threads := Function.update system.threads index thread } := by
  refine ⟨hinvariant, fun other => ?_⟩
  by_cases hother : other = index
  · subst hother
    simpa using hown
  · simpa [hother] using hothers other hother (houtlined.outline other)

/-! ## Obligations -/

/-- Whatever is due is paid or owed by some thread. -/
def Answered {Debt : Type*} (due paid : State → Debt → Prop) (Owes : Thread → Debt → Prop)
    (system : Threads Index State Thread) : Prop :=
  ∀ debt, due system.state debt → paid system.state debt ∨ ∃ index, Owes (system.threads index) debt

/-- A move keeps every obligation answered if payments last, if the moving thread pays
or goes on owing what it owed, and if it owes what becomes due by its move. -/
theorem Answered.update {Debt : Type*} {due paid : State → Debt → Prop}
    {Owes : Thread → Debt → Prop} (hanswered : system.Answered due paid Owes)
    (hpaid : ∀ debt, paid system.state debt → paid state debt)
    (hkept : ∀ debt, due system.state debt → Owes (system.threads index) debt →
      paid state debt ∨ Owes thread debt)
    (hnew : ∀ debt, ¬ due system.state debt → due state debt → Owes thread debt) :
    Answered due paid Owes
      { state := state
        threads := Function.update system.threads index thread } := by
  intro debt hdue
  have howed : Owes thread debt → ∃ other,
      Owes (Function.update system.threads index thread other) debt := by
    intro howes
    exact ⟨index, by simpa using howes⟩
  by_cases hbefore : due system.state debt
  · rcases hanswered debt hbefore with hdone | ⟨other, howes⟩
    · exact .inl (hpaid debt hdone)
    · by_cases hother : other = index
      · subst hother
        exact (hkept debt hbefore howes).imp_right howed
      · exact .inr ⟨other, by simpa [hother] using howes⟩
  · exact .inr (howed (hnew debt hbefore hdue))

omit [DecidableEq Index] in
/-- Where no thread owes anything, whatever is due is paid. -/
theorem Answered.paid {Debt : Type*} {due paid : State → Debt → Prop}
    {Owes : Thread → Debt → Prop} (hanswered : system.Answered due paid Owes)
    (hnone : ∀ index debt, ¬ Owes (system.threads index) debt) {debt : Debt}
    (hdue : due system.state debt) : paid system.state debt := by
  rcases hanswered debt hdue with hpaid | ⟨index, howes⟩
  · exact hpaid
  · exact absurd howes (hnone index debt)

/-! ## A quantity shared between the state and the threads -/

variable [Fintype Index]

/-- What the state shows and what the threads still carry add up to the level. -/
def Balanced (shown level : State → ℕ) (carried : Thread → ℕ)
    (system : Threads Index State Thread) : Prop :=
  shown system.state + ∑ index, carried (system.threads index) = level system.state

theorem Balanced.update {shown level : State → ℕ} {carried : Thread → ℕ}
    (hbalanced : system.Balanced shown level carried)
    (hmove : shown state + carried thread + level system.state
      = shown system.state + carried (system.threads index) + level state) :
    Balanced shown level carried
      { state := state
        threads := Function.update system.threads index thread } := by
  have hsum : ∀ threads : Index → Thread, ∑ other, carried (threads other)
      = carried (threads index) + ∑ other ∈ Finset.univ.erase index, carried (threads other) := by
    intro threads
    exact (Finset.add_sum_erase _ _ (Finset.mem_univ index)).symm
  have hothers : ∑ other ∈ Finset.univ.erase index,
      carried (Function.update system.threads index thread other)
        = ∑ other ∈ Finset.univ.erase index, carried (system.threads other) := by
    apply Finset.sum_congr rfl
    intro other hother
    rw [Function.update_of_ne (Finset.ne_of_mem_erase hother)]
  have hbefore := hbalanced
  rw [Balanced, hsum] at hbefore ⊢
  simp only [Function.update_self, hothers]
  omega

end Threads

end SaorsaCore
