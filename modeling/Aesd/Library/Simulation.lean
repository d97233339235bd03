/-
Forward simulation between two labelled transition relations.

A transition of the first relation is answered by any number of steps of the
second, and an explicit function says with which labels.  The labels of the
second run are then known from the first run alone.
-/

import Aesd.Library.Execution

namespace Execution

universe u v w x

section

variable {Concrete : Type u} {Label : Type v} {Abstract : Type w} {Event : Type x}

/-- Every allowed transition out of a related pair is answered by a run whose
labels are the events of the transition. -/
structure Simulation (step : Concrete → Label → Concrete → Prop)
    (serial : Abstract → Event → Abstract → Prop)
    (allowed : Transition Concrete Label → Prop)
    (events : Transition Concrete Label → List Event)
    (related : Concrete → Abstract → Prop) : Prop where
  answered : ∀ (taken : Transition Concrete Label) (current : Abstract),
    related taken.before current → allowed taken →
      step taken.before taken.label taken.after →
        ∃ more next, Run serial current more next ∧
          more.map Transition.label = events taken ∧ related taken.after next

variable {step : Concrete → Label → Concrete → Prop}
  {serial : Abstract → Event → Abstract → Prop}
  {allowed : Transition Concrete Label → Prop}
  {events : Transition Concrete Label → List Event}
  {related : Concrete → Abstract → Prop}

theorem answered_by_none {emitted : List Event} {holds : Abstract → Prop} {current : Abstract}
    (silent : emitted = []) (still : holds current) :
    ∃ more next, Run serial current more next ∧
      more.map Transition.label = emitted ∧ holds next :=
  ⟨[], current, .start, silent.symm, still⟩

theorem answered_by_one {emitted : List Event} {holds : Abstract → Prop}
    {current next : Abstract} {event : Event} (single : emitted = [event])
    (stepped : serial current event next) (still : holds next) :
    ∃ more next, Run serial current more next ∧
      more.map Transition.label = emitted ∧ holds next :=
  ⟨[⟨current, event, next⟩], next, Run.start.extend stepped, single.symm, still⟩

/-- Runs of allowed transitions are simulated as a whole. -/
theorem Run.simulated (simulation : Simulation step serial allowed events related)
    {start final : Concrete} {steps : List (Transition Concrete Label)} {first : Abstract}
    (run : Run step start steps final) (initially : related start first)
    (all : ∀ taken, taken ∈ steps → allowed taken) :
    ∃ more last, Run serial first more last ∧
      more.map Transition.label = steps.flatMap events ∧ related final last := by
  induction run with
  | start => exact ⟨[], first, .start, rfl, initially⟩
  | @extend steps current next label earlier taken ih =>
      obtain ⟨more, middle, reached, labels, here⟩ :=
        ih fun other member => all other (List.mem_append_left _ member)
      obtain ⟨answer, last, answered, answerLabels, there⟩ :=
        simulation.answered ⟨current, label, next⟩ middle here
          (all _ (List.mem_append_right _ (List.mem_singleton_self _))) taken
      refine ⟨more ++ answer, last, reached.append answered, ?_, there⟩
      rw [List.map_append, List.flatMap_append, labels, answerLabels, List.flatMap_singleton]

theorem Run.simulated_before (simulation : Simulation step serial allowed events related)
    {start final : Concrete} {steps : List (Transition Concrete Label)} {first : Abstract}
    (run : Run step start steps final) (initially : related start first)
    (all : ∀ taken, taken ∈ steps → allowed taken) (taken : Transition Concrete Label)
    (member : taken ∈ steps) :
    step taken.before taken.label taken.after ∧ ∃ current, related taken.before current := by
  obtain ⟨stepped, earlier, later, split, reached⟩ := run.reaches_before taken member
  obtain ⟨_, current, _, _, here⟩ := reached.simulated simulation initially fun other before =>
    all other (by rw [split]; exact List.mem_append_left _ before)
  exact ⟨stepped, current, here⟩

end

/-! ### Accounts -/

section

variable {State : Type u} {Label : Type v} {step : State → Label → State → Prop}

/-- What is open before a transition and comes in with it goes out with it or is
open after it; then the same is true of a run. -/
theorem Run.balance {Item : Type w} (opened : State → List Item)
    (comesIn goesOut : Transition State Label → List Item) {start final : State}
    {steps : List (Transition State Label)} (run : Run step start steps final)
    (each : ∀ taken, taken ∈ steps →
      opened taken.before ++ comesIn taken = goesOut taken ++ opened taken.after) :
    opened start ++ steps.flatMap comesIn = steps.flatMap goesOut ++ opened final := by
  induction run with
  | start => exact List.append_nil _
  | @extend steps current next label earlier last ih =>
      have before := ih fun taken member => each taken (List.mem_append_left _ member)
      have here := each ⟨current, label, next⟩
        (List.mem_append_right _ (List.mem_singleton_self _))
      rw [List.flatMap_append, List.flatMap_append, ← List.append_assoc, before,
        List.append_assoc, List.flatMap_singleton, List.flatMap_singleton, here,
        List.append_assoc]

end

end Execution
