/-
Finite runs of a labelled transition relation.

A run keeps every transition it made, with the state before and the state
after, so that a statement about each step and a statement about each state
reached are both statements about the members of one list.

A relation given by a function that may fail is run on a list of inputs by
`execute`; what it returns is a run of the relation.
-/

import Mathlib.Tactic.ByContra

namespace Execution

universe u v w

structure Transition (State : Type u) (Label : Type v) where
  before : State
  label : Label
  after : State

inductive Run {State : Type u} {Label : Type v} (step : State → Label → State → Prop)
    (start : State) : List (Transition State Label) → State → Prop where
  | start : Run step start [] start
  | extend {steps : List (Transition State Label)} {current next : State} {label : Label}
      (earlier : Run step start steps current) (last : step current label next) :
      Run step start (steps ++ [⟨current, label, next⟩]) next

section

variable {State : Type u} {Label : Type v} {step : State → Label → State → Prop}
variable {start final : State} {steps : List (Transition State Label)}

theorem Run.reaches_before (run : Run step start steps final)
    (transition : Transition State Label) (member : transition ∈ steps) :
    step transition.before transition.label transition.after ∧
      ∃ earlier later, steps = earlier ++ transition :: later ∧
        Run step start earlier transition.before := by
  induction run with
  | start => cases member
  | @extend steps current next label earlier last ih =>
      rcases List.mem_append.mp member with old | new
      · obtain ⟨taken, front, back, split, reached⟩ := ih old
        refine ⟨taken, front, back ++ [⟨current, label, next⟩], ?_, reached⟩
        rw [split, List.append_assoc, List.cons_append]
      · have same := List.mem_singleton.mp new
        subst same
        exact ⟨last, steps, [], rfl, earlier⟩

theorem Run.append {middle : State} {more : List (Transition State Label)}
    (first : Run step start steps middle) (second : Run step middle more final) :
    Run step start (steps ++ more) final := by
  induction second with
  | start =>
      rw [List.append_nil]
      exact first
  | extend earlier last ih =>
      rw [← List.append_assoc]
      exact ih.extend last

/-- In every state the run went through, the last one included. -/
def Throughout (holds : State → Prop) (steps : List (Transition State Label))
    (final : State) : Prop :=
  holds final ∧ ∀ transition, transition ∈ steps → holds transition.before

theorem Throughout.imp {holds weaker : State → Prop} (implies : ∀ state, holds state → weaker state)
    (throughout : Throughout holds steps final) : Throughout weaker steps final :=
  ⟨implies _ throughout.1, fun transition member => implies _ (throughout.2 transition member)⟩

/-- The invariant rule for runs whose transitions are all of an allowed kind. -/
theorem Run.throughout_of_allowed (allowed : Transition State Label → Prop)
    (holds : State → Prop) (initially : holds start)
    (preserved : ∀ transition : Transition State Label,
      holds transition.before → allowed transition →
        step transition.before transition.label transition.after → holds transition.after)
    (run : Run step start steps final)
    (all : ∀ transition, transition ∈ steps → allowed transition) :
    Throughout holds steps final := by
  induction run with
  | start => exact ⟨initially, by intro transition member; cases member⟩
  | @extend steps current next label earlier last ih =>
      have before : Throughout holds steps current :=
        ih fun transition member => all transition (List.mem_append_left _ member)
      constructor
      · exact preserved ⟨current, label, next⟩ before.1
          (all _ (List.mem_append_right _ (List.mem_singleton_self _))) last
      · intro transition member
        rcases List.mem_append.mp member with old | new
        · exact before.2 transition old
        · have same := List.mem_singleton.mp new
          subst same
          exact before.1

/-- When the allowed transitions keep an invariant and every other transition
out of it leaves the good states, the good runs are those of allowed transitions. -/
theorem Run.throughout_iff (allowed : Transition State Label → Prop) (good holds : State → Prop)
    (initially : holds start) (sound : ∀ state, holds state → good state)
    (preserved : ∀ transition : Transition State Label,
      holds transition.before → allowed transition →
        step transition.before transition.label transition.after → holds transition.after)
    (broken : ∀ transition : Transition State Label,
      holds transition.before → ¬allowed transition →
        step transition.before transition.label transition.after → ¬good transition.after)
    (run : Run step start steps final) :
    Throughout good steps final ↔ ∀ transition, transition ∈ steps → allowed transition := by
  constructor
  · intro throughout
    induction run with
    | start => intro transition member; cases member
    | @extend steps current next label earlier last ih =>
        have soFar : Throughout good steps current := by
          constructor
          · exact throughout.2 ⟨current, label, next⟩
              (List.mem_append_right _ (List.mem_singleton_self _))
          · intro transition member
            exact throughout.2 transition (List.mem_append_left _ member)
        have allowedSoFar := ih soFar
        have here := (earlier.throughout_of_allowed allowed holds initially preserved
          allowedSoFar).1
        intro transition member
        rcases List.mem_append.mp member with old | new
        · exact allowedSoFar transition old
        · have same := List.mem_singleton.mp new
          subst same
          by_contra refused
          exact broken ⟨current, label, next⟩ here refused last throughout.1
  · intro all
    exact (run.throughout_of_allowed allowed holds initially preserved all).imp sound

/-- When the allowed transitions keep an invariant, and out of it exactly they
are good, the runs of good transitions are those of allowed ones. -/
theorem Run.all_steps_iff (allowed good : Transition State Label → Prop) (holds : State → Prop)
    (initially : holds start)
    (preserved : ∀ transition : Transition State Label,
      holds transition.before → allowed transition →
        step transition.before transition.label transition.after → holds transition.after)
    (agree : ∀ transition : Transition State Label,
      holds transition.before →
        step transition.before transition.label transition.after →
          (good transition ↔ allowed transition))
    (run : Run step start steps final) :
    (∀ transition, transition ∈ steps → good transition) ↔
      ∀ transition, transition ∈ steps → allowed transition := by
  induction run with
  | start =>
      constructor
      · intro _ transition member
        cases member
      · intro _ transition member
        cases member
  | @extend steps current next label earlier last ih =>
      simp only [List.mem_append, List.mem_singleton, or_imp, forall_and, forall_eq]
      rw [ih]
      apply and_congr_right
      intro allowedSoFar
      have here := (earlier.throughout_of_allowed allowed holds initially preserved
        allowedSoFar).1
      exact agree ⟨current, label, next⟩ here last

end

/-! ### Runs of a function that may fail -/

section

variable {State : Type u} {Input : Type v} {Output : Type w} {Fault : Type}

def Succeeds (next : State → Input → Except Fault (State × Output))
    (before : State) (label : Input × Output) (after : State) : Prop :=
  next before label.1 = .ok (after, label.2)

def executeFrom (next : State → Input → Except Fault (State × Output)) :
    List (Transition State (Input × Output)) → State → List Input →
      Except Fault (List (Transition State (Input × Output)) × State)
  | steps, current, [] => .ok (steps, current)
  | steps, current, input :: rest =>
      match next current input with
      | .error fault => .error fault
      | .ok (after, output) =>
          executeFrom next (steps ++ [⟨current, (input, output), after⟩]) after rest

def execute (next : State → Input → Except Fault (State × Output)) (start : State)
    (inputs : List Input) :
    Except Fault (List (Transition State (Input × Output)) × State) :=
  executeFrom next [] start inputs

private theorem executeFrom_run (next : State → Input → Except Fault (State × Output))
    (start : State) (inputs : List Input) :
    ∀ (steps reached : List (Transition State (Input × Output))) (current final : State),
      Run (Succeeds next) start steps current →
      executeFrom next steps current inputs = .ok (reached, final) →
      Run (Succeeds next) start reached final := by
  induction inputs with
  | nil =>
      intro steps reached current final run finished
      cases finished
      exact run
  | cons input rest ih =>
      intro steps reached current final run finished
      cases outcome : next current input with
      | error fault =>
          simp only [executeFrom, outcome] at finished
          cases finished
      | ok result =>
          obtain ⟨after, output⟩ := result
          simp only [executeFrom, outcome] at finished
          have taken : Succeeds next current (input, output) after := outcome
          exact ih _ _ _ _ (run.extend taken) finished

theorem execute_run (next : State → Input → Except Fault (State × Output))
    (start final : State) (inputs : List Input)
    (steps : List (Transition State (Input × Output)))
    (finished : execute next start inputs = .ok (steps, final)) :
    Run (Succeeds next) start steps final :=
  executeFrom_run next start inputs [] steps start final .start finished

private theorem executeFrom_inputs (next : State → Input → Except Fault (State × Output))
    (inputs : List Input) :
    ∀ (steps reached : List (Transition State (Input × Output))) (current final : State),
      executeFrom next steps current inputs = .ok (reached, final) →
      reached.map (fun taken => taken.label.1) =
        steps.map (fun taken => taken.label.1) ++ inputs := by
  induction inputs with
  | nil =>
      intro steps reached current final finished
      cases finished
      exact (List.append_nil _).symm
  | cons input rest ih =>
      intro steps reached current final finished
      cases outcome : next current input with
      | error fault =>
          simp only [executeFrom, outcome] at finished
          cases finished
      | ok result =>
          obtain ⟨after, output⟩ := result
          simp only [executeFrom, outcome] at finished
          rw [ih _ _ _ _ finished, List.map_append, List.append_assoc]
          rfl

/-- A list of inputs none of which fails gives a run of these inputs, and what was
computed of the result is true of the run. -/
theorem execute_observe_inputs {Value : Type}
    (next : State → Input → Except Fault (State × Output))
    (start : State) (inputs : List Input)
    (observe : List (Transition State (Input × Output)) → State → Value) (value : Value)
    (observed : (execute next start inputs).map (fun result => observe result.1 result.2) =
      .ok value) :
    ∃ steps final, Run (Succeeds next) start steps final ∧
      steps.map (fun taken => taken.label.1) = inputs ∧ observe steps final = value := by
  cases finished : execute next start inputs with
  | error fault =>
      rw [finished] at observed
      cases observed
  | ok result =>
      obtain ⟨steps, final⟩ := result
      rw [finished] at observed
      cases observed
      exact ⟨steps, final, execute_run next start final inputs steps finished,
        executeFrom_inputs next inputs [] steps start final finished, rfl⟩

theorem execute_observe {Value : Type} (next : State → Input → Except Fault (State × Output))
    (start : State) (inputs : List Input)
    (observe : List (Transition State (Input × Output)) → State → Value) (value : Value)
    (observed : (execute next start inputs).map (fun result => observe result.1 result.2) =
      .ok value) :
    ∃ steps final, Run (Succeeds next) start steps final ∧ observe steps final = value := by
  obtain ⟨steps, final, run, _, seen⟩ :=
    execute_observe_inputs next start inputs observe value observed
  exact ⟨steps, final, run, seen⟩

end

end Execution
