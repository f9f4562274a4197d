import Mathlib.Logic.Basic
import Mathlib.Data.List.Basic

/-!
# Tasks that share a state

An asynchronous function runs undisturbed from one await to the next and gives way
to other tasks in between.  A `Task` is the tree of its undisturbed actions.  What a
task does is judged in the rely-guarantee manner: between two of its actions the state
may change as a `Discipline` allows, and every action of the task must keep to what the
discipline promises to the others.
-/

namespace SaorsaCore

/-- What is left to do of an asynchronous function: nothing, or an action that updates
the state and goes on as the state it found tells. -/
inductive Task (State Value : Type*) where
  | done (value : Value)
  | act (update : State → State) (next : State → Task State Value)

namespace Task

variable {State Value Other A : Type*}

def bind : Task State Value → (Value → Task State Other) → Task State Other
  | done value, next => next value
  | act update rest, next => act update fun found => (rest found).bind next

instance : Monad (Task State) where
  pure := done
  bind := bind

/-- An action that looks at the state. -/
def read (observe : State → Value) : Task State Value :=
  act id fun found => done (observe found)

/-- An action that changes the state and answers. -/
def modify (change : State → State × Value) : Task State Value :=
  act (fun found => (change found).1) fun found => done (change found).2

/-- A loop that keeps the answers of its passes. -/
def collect (pass : A → Task State (Option Value)) : List A → Task State (List Value)
  | [] => done []
  | item :: items =>
    (pass item).bind fun answer =>
      (collect pass items).bind fun answers => done (answer.toList ++ answers)

/-- What the task returns if its actions find these states in turn. -/
def answer : Task State Value → (ℕ → State) → Value
  | done value, _ => value
  | act _ next, found => (next (found 0)).answer fun action => found (action + 1)

/-- The run of a task that nothing interrupts: the state it leaves and its value. -/
def alone : Task State Value → State → State × Value
  | done value, state => (state, value)
  | act update next, state => (next state).alone (update state)

theorem alone_bind (task : Task State Value) (next : Value → Task State Other) (state : State) :
    (task.bind next).alone state = (next (task.alone state).2).alone (task.alone state).1 := by
  induction task generalizing state with
  | done value => rfl
  | act update rest ih => exact ih state (update state)

/-- What follows a task finds the states that come after those of the task. -/
theorem answer_bind (task : Task State Value) (next : Value → Task State Other)
    (found : ℕ → State) :
    ∃ actions, (task.bind next).answer found =
      (next (task.answer found)).answer fun action => found (action + actions) := by
  induction task generalizing found with
  | done value => exact ⟨0, rfl⟩
  | act update rest ih =>
    obtain ⟨actions, hactions⟩ := ih (found 0) fun action => found (action + 1)
    exact ⟨actions + 1, hactions⟩

/-- A loop in which every pass has an answer with a known label. -/
theorem map_answer_collect {Label : Type*} {pass : A → Task State (Option Value)}
    {label : Value → Label} {expected : A → Label}
    (hpass : ∀ item found, ((pass item).answer found).map label = some (expected item))
    (items : List A) (found : ℕ → State) :
    ((collect pass items).answer found).map label = items.map expected := by
  induction items generalizing found with
  | nil => rfl
  | cons item items ih =>
    obtain ⟨first, hfirst⟩ := answer_bind (pass item)
      (fun answer => (collect pass items).bind fun answers =>
        done (answer.toList ++ answers)) found
    obtain ⟨second, hsecond⟩ := answer_bind (collect pass items)
      (fun answers => done (((pass item).answer found).toList ++ answers))
      fun action => found (action + first)
    obtain ⟨value, hvalue, hlabel⟩ := Option.map_eq_some_iff.mp (hpass item found)
    rw [collect, hfirst, hsecond, hvalue, answer, List.map_append, ih]
    simp [hlabel]

end Task

/-- What holds between any two actions, how the state may change while a task waits,
and what each action has to keep to. -/
structure Discipline (State : Type*) where
  invariant : State → Prop
  rely : State → State → Prop
  guarantee : State → State → Prop
  refl : ∀ state, rely state state
  trans : ∀ {first second third}, rely first second → rely second third → rely first third
  kept : ∀ {state next}, invariant state → guarantee state next → invariant next ∧ rely state next

namespace Task

variable {State Value Other A : Type*}

/-- Every action of the task keeps to the discipline, and its value meets the
postcondition from then on. -/
def Sound (discipline : Discipline State) (post : State → Value → Prop) :
    Task State Value → State → Prop
  | done value, state => ∀ later, discipline.rely state later →
      discipline.invariant later → post later value
  | act update next, state => ∀ found, discipline.rely state found →
      discipline.invariant found → discipline.guarantee found (update found) ∧
          (next found).Sound discipline post (update found)

variable {discipline : Discipline State} {post : State → Value → Prop}
  {task : Task State Value} {state later : State}

namespace Sound

/-- A sound task stays sound while it waits. -/
theorem wait (hsound : task.Sound discipline post state)
    (hrely : discipline.rely state later) : task.Sound discipline post later := by
  cases task with
  | done value =>
    intro found hfound
    exact hsound found (discipline.trans hrely hfound)
  | act update next =>
    intro found hfound
    exact hsound found (discipline.trans hrely hfound)

theorem value_post {value : Value}
    (hsound : (done value : Task State Value).Sound discipline post state)
    (hinvariant : discipline.invariant state) : post state value :=
  hsound state (discipline.refl state) hinvariant

/-- One action of a sound task keeps to the discipline and leaves a sound task. -/
theorem act_step {update : State → State} {next : State → Task State Value}
    (hsound : (act update next).Sound discipline post state)
    (hinvariant : discipline.invariant state) :
    discipline.guarantee state (update state) ∧ (next state).Sound discipline post (update state) :=
  hsound state (discipline.refl state) hinvariant

/-- A task is judged where it next looks at the state. -/
theorem of_settled (hsound : ∀ later, discipline.rely state later →
    discipline.invariant later → task.Sound discipline post later) :
    task.Sound discipline post state := by
  cases task with
  | done value =>
    intro later hrely hinvariant
    exact (hsound later hrely hinvariant).value_post hinvariant
  | act update next =>
    intro found hrely hinvariant
    exact hsound found hrely hinvariant found (discipline.refl found) hinvariant

theorem of_value {value : Value}
    (hpost : ∀ later, discipline.rely state later → discipline.invariant later →
      post later value) : (done value : Task State Value).Sound discipline post state :=
  hpost

theorem bind {next : Value → Task State Other} {final : State → Other → Prop}
    (htask : task.Sound discipline post state)
    (hnext : ∀ found value, discipline.rely state found → discipline.invariant found →
      post found value → (next value).Sound discipline final found) :
    (task.bind next).Sound discipline final state := by
  induction task generalizing state with
  | done value =>
    apply of_settled
    intro later hrely hinvariant
    exact hnext later value hrely hinvariant (htask later hrely hinvariant)
  | act update rest ih =>
    intro found hrely hinvariant
    obtain ⟨hguarantee, hrest⟩ := htask found hrely hinvariant
    obtain ⟨-, hacted⟩ := discipline.kept hinvariant hguarantee
    refine ⟨hguarantee, ih found hrest ?_⟩
    intro later value hlater
    exact hnext later value (discipline.trans (discipline.trans hrely hacted) hlater)

/-- Looking at the state is always allowed if doing nothing is. -/
theorem read {observe : State → Value}
    (hidle : ∀ found, discipline.invariant found → discipline.guarantee found found)
    (hpost : ∀ found later, discipline.rely state found → discipline.invariant found →
      discipline.rely found later → discipline.invariant later → post later (observe found)) :
    (Task.read observe).Sound discipline post state := by
  intro found hrely hinvariant
  refine ⟨hidle found hinvariant, ?_⟩
  intro later hlater
  exact hpost found later hrely hinvariant hlater

theorem modify {change : State → State × Value}
    (hguarantee : ∀ found, discipline.rely state found → discipline.invariant found →
      discipline.guarantee found (change found).1)
    (hpost : ∀ found later, discipline.rely state found → discipline.invariant found →
      discipline.rely (change found).1 later → discipline.invariant later →
        post later (change found).2) :
    (Task.modify change).Sound discipline post state := by
  intro found hrely hinvariant
  refine ⟨hguarantee found hrely hinvariant, ?_⟩
  intro later hlater
  exact hpost found later hrely hinvariant hlater

/-- A loop whose passes are sound at any time collects answers that all meet a
condition which waiting does not spoil. -/
theorem collect {pass : A → Task State (Option Value)} {items : List A}
    {good : State → Value → Prop}
    (hstable : ∀ {state later value}, discipline.rely state later → good state value →
      good later value)
    (hpass : ∀ item ∈ items, ∀ found, discipline.rely state found → discipline.invariant found →
        (pass item).Sound discipline (fun state answer => ∀ value ∈ answer, good state value) found)
    (hinvariant : discipline.invariant state) :
    (Task.collect pass items).Sound discipline
      (fun state answers => ∀ value ∈ answers, good state value) state := by
  induction items generalizing state with
  | nil =>
    intro later _ _ value hvalue
    cases hvalue
  | cons item items ih =>
    apply (hpass item List.mem_cons_self state (discipline.refl state) hinvariant).bind
    intro found answer hrely hfound hanswer
    have hrest : (Task.collect pass items).Sound discipline
        (fun state answers => ∀ value ∈ answers, good state value) found :=
      ih (fun other hother later hlater =>
        hpass other (List.mem_cons_of_mem item hother) later (discipline.trans hrely hlater)) hfound
    apply hrest.bind
    intro reached answers hreached _ hanswers
    apply of_value
    intro later hlater _ value hvalue
    rcases List.mem_append.mp hvalue with hmem | hmem
    · exact hstable (discipline.trans hreached hlater) (hanswer value (Option.mem_toList.mp hmem))
    · exact hstable hlater (hanswers value hmem)

end Sound

end Task

end SaorsaCore
