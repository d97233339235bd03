/-
Programs whose state others change between two of their steps.

What a program does to the state in each of its steps is its guarantee.  A program
that takes no lock relies on the guarantees of the others: it withstands them if it
does not fail, whatever they do between its steps.

For the threads of a monitor the guarantees of the programs are those of all steps:
between two critical sections the state is good, and each section has been begun in
a good state.
-/

import Aesd.Library.Monitor

namespace Monitor

open Mutex

namespace Program

variable {State Fault Answer Result : Type}

/-! ### What a program guarantees -/

/-- Every step of the program, from this state on. -/
def Guarantees (moves : State → State → Prop) : Program State Fault Result → State → Prop
  | .finish _, _ => True
  | .fail _, _ => True
  | .step effect next, state =>
      moves state (effect state) ∧ (next state).Guarantees moves (effect state)

section

variable {moves : State → State → Prop} {holds : State → Prop}

theorem Guarantees.reached {program : Program State Fault Result} {effect : State → State}
    {next : State → Program State Fault Result} {state last : State}
    (guarantees : program.Guarantees moves state)
    (reaches : Reaches program state (.step effect next) last) : moves last (effect last) := by
  generalize reached : Program.step effect next = left at reaches
  induction reaches with
  | here =>
      subst reached
      exact guarantees.1
  | step _ ih => exact ih guarantees.2 reached

theorem Always.guarantees (pairs : ∀ before after, holds before → holds after →
      moves before after) {program : Program State Fault Result} {state : State}
    (always : program.Always holds state) : program.Guarantees moves state := by
  induction program generalizing state with
  | finish result => exact trivial
  | fail fault => exact trivial
  | step effect next ih => exact ⟨pairs _ _ always.1 always.2.here, ih state always.2⟩

theorem Always.guarantees_bind (pairs : ∀ before after, holds before → holds after →
      moves before after) {program : Program State Fault Answer}
    {rest : Answer → Program State Fault Result} {state : State}
    (first : program.Always holds state)
    (later : ∀ last answer, program.alone state = .ok (last, answer) → holds last →
      (rest answer).Guarantees moves last) : (program >>= rest).Guarantees moves state := by
  induction program generalizing state with
  | finish answer => exact later state answer rfl first
  | fail fault => exact trivial
  | step effect next ih =>
      exact ⟨pairs _ _ first.1 first.2.here, ih state first.2 later⟩

theorem guarantees_atomically_bind {action : State → Except Fault (State × Answer)}
    {rest : Answer → Program State Fault Result} {state : State} (stays : moves state state)
    (acts : ∀ after answer, action state = .ok (after, answer) →
      moves state after ∧ (rest answer).Guarantees moves after) :
    (atomically action >>= rest).Guarantees moves state := by
  change moves _ _ ∧ Guarantees moves (Program.bind _ rest) _
  dsimp only
  cases outcome : action state with
  | error fault => exact ⟨stays, trivial⟩
  | ok reached => exact acts reached.1 reached.2 outcome

theorem Guarantees.bind {program : Program State Fault Answer}
    {rest : Answer → Program State Fault Result} {state : State}
    (first : program.Guarantees moves state)
    (later : ∀ last answer, program.alone state = .ok (last, answer) →
      (rest answer).Guarantees moves last) : (program >>= rest).Guarantees moves state := by
  induction program generalizing state with
  | finish answer => exact later state answer rfl
  | fail fault => exact trivial
  | step effect next ih => exact ⟨first.1, ih state first.2 later⟩

end

/-! ### What a program relies on -/

/-- Whatever the others do between two steps, the program does not fail. -/
def Withstands (moves : State → State → Prop) (good : State → Prop) :
    Program State Fault Result → State → Prop
  | .finish _, _ => True
  | .fail _, _ => False
  | .step _ next, state =>
      ∀ later, moves state later → good later → (next later).Withstands moves good later

section

variable {moves : State → State → Prop} {good : State → Prop}

theorem Withstands.moved
    (trans : ∀ first second third, moves first second → moves second third → moves first third)
    {program : Program State Fault Result} {before after : State}
    (withstands : program.Withstands moves good before) (moved : moves before after) :
    program.Withstands moves good after := by
  cases program with
  | finish result => exact trivial
  | fail fault => exact withstands.elim
  | step effect next =>
      intro later further goodLater
      exact withstands later (trans _ _ _ moved further) goodLater

theorem Withstands.bind {program : Program State Fault Answer}
    {rest : Answer → Program State Fault Result} {state : State}
    (first : program.Withstands moves good state)
    (later : ∀ answer last, (rest answer).Withstands moves good last) :
    (program >>= rest).Withstands moves good state := by
  induction program generalizing state with
  | finish answer => exact later answer state
  | fail fault => exact first.elim
  | step effect next ih =>
      intro last moved goodLast
      exact ih last (first last moved goodLast)

theorem withstands_atomically_bind {action : State → Except Fault (State × Answer)}
    {rest : Answer → Program State Fault Result} {state : State}
    (acts : ∀ later, moves state later → good later →
      ∃ after answer, action later = .ok (after, answer) ∧
        (rest answer).Withstands moves good later) :
    (atomically action >>= rest).Withstands moves good state := by
  intro later moved goodLater
  obtain ⟨after, answer, outcome, withstands⟩ := acts later moved goodLater
  dsimp only
  rw [outcome]
  exact withstands

end

end Program

/-! ### The threads of a monitor -/

section

variable {Thread State Fault Request Result : Type}

/-- Every program under the lock was begun in a good state. -/
def Threads.Begun (calls : Calls State Fault Request Result) (good : State → Prop)
    (threads : Threads Thread State Fault Request Result) : Prop :=
  ∀ thread request program, threads.phase thread = .inside request program →
    ∃ base, good base ∧ (calls.body request).Reaches base program threads.state

/-- The state is good while the lock is free, and was when its holder took it. -/
structure Threads.Sound (calls : Calls State Fault Request Result) (good : State → Prop)
    (threads : Threads Thread State Fault Request Result) : Prop where
  guarded : Guarded Phase.Inside threads.phase threads.holder
  free : threads.holder = none → good threads.state
  begun : threads.Begun calls good

theorem Threads.Sound.start (calls : Calls State Fault Request Result) {good : State → Prop}
    {state : State} (initially : good state) :
    (Threads.start state : Threads Thread State Fault Request Result).Sound calls good where
  guarded := by
    intro thread
    constructor
    · intro inside
      exact inside.elim
    · intro held
      cases held
  free := fun _ => initially
  begun := by
    intro thread request program here
    cases here

variable [DecidableEq Thread] {calls : Calls State Fault Request Result} {good : State → Prop}
  {threads after : Threads Thread State Fault Request Result} {action : Action Thread Request}
  {output : Option (Request × Result)}

theorem Moves.guarded (moves : Moves calls threads action output after)
    (guarded : Guarded Phase.Inside threads.phase threads.holder) :
    Guarded Phase.Inside after.phase after.holder := by
  cases moves with
  | invoke here => exact guarded.stay (by rw [here]; exact Iff.rfl)
  | lock here free _ =>
      rw [free] at guarded
      exact guarded.enter trivial
  | giveUp here _ => exact guarded.stay (by rw [here]; exact Iff.rfl)
  | advance here => exact guarded.stay (by rw [here]; exact Iff.rfl)
  | @unlock thread request result here =>
      have held := (guarded thread).mp (by rw [here]; trivial)
      rw [held] at guarded
      exact guarded.leave id
  | respond here => exact guarded.stay (by rw [here]; exact Iff.rfl)

theorem Moves.begun (guarded : Guarded Phase.Inside threads.phase threads.holder)
    (begun : threads.Begun calls good) (free : threads.holder = none → good threads.state)
    (moves : Moves calls threads action output after) : after.Begun calls good := by
  have self (thread : Thread) (phase : Phase State Fault Request Result) (state : State)
      (holder : Option Thread) : (threads.goto thread phase state holder).phase thread = phase :=
    Function.update_self ..
  intro other request program here
  by_cases own : other = action.thread
  · cases moves with
    | invoke _ =>
        rw [own, Action.thread, Threads.become, self] at here
        cases here
    | lock _ unheld _ =>
        rw [own, Action.thread, self] at here
        cases here
        exact ⟨threads.state, free unheld, .here⟩
    | giveUp _ _ =>
        rw [own, Action.thread, Threads.become, self] at here
        cases here
    | advance before =>
        rw [own, Action.thread, self] at here
        cases here
        obtain ⟨base, good, reaches⟩ := begun _ _ _ before
        exact ⟨base, good, reaches.trans (.step .here)⟩
    | unlock _ =>
        rw [own, Action.thread, self] at here
        cases here
    | respond _ =>
        rw [own, Action.thread, Threads.become, self] at here
        cases here
  · rw [moves.phase_other own] at here
    obtain ⟨base, good, reaches⟩ := begun other request program here
    refine ⟨base, good, ?_⟩
    cases moves with
    | invoke _ => exact reaches
    | lock _ _ _ => exact reaches
    | giveUp _ _ => exact reaches
    | advance before =>
        exact absurd (guarded.unique (by rw [here]; trivial)
          (by rw [Action.thread, before]; trivial)) own
    | unlock _ => exact reaches
    | respond _ => exact reaches

theorem Moves.sound
    (ends : ∀ request base last result, good base →
      (calls.body request).alone base = .ok (last, result) → good last)
    (moves : Moves calls threads action output after) (sound : threads.Sound calls good) :
    after.Sound calls good where
  guarded := moves.guarded sound.guarded
  free := by
    intro unheld
    cases moves with
    | invoke _ => exact sound.free unheld
    | lock _ _ _ => cases unheld
    | giveUp _ _ => exact sound.free unheld
    | @advance thread _ _ _ here =>
        have held := (sound.guarded thread).mp (by rw [here]; trivial)
        exact absurd (held.symm.trans unheld) (by simp)
    | unlock here =>
        obtain ⟨base, goodBase, reaches⟩ := sound.begun _ _ _ here
        exact ends _ base _ _ goodBase (reaches.alone.trans rfl)
    | respond _ => exact sound.free unheld
  begun := Moves.begun sound.guarded sound.begun sound.free moves

/-- Every step is one that the programs guarantee, or leaves the state alone. -/
theorem Moves.guaranteed {step : State → State → Prop}
    (guarantees : ∀ request base, good base → (calls.body request).Guarantees step base)
    (moves : Moves calls threads action output after) (sound : threads.Sound calls good) :
    after.state = threads.state ∨ step threads.state after.state := by
  cases moves with
  | invoke _ => exact .inl rfl
  | lock _ _ _ => exact .inl rfl
  | giveUp _ _ => exact .inl rfl
  | advance here =>
      obtain ⟨base, goodBase, reaches⟩ := sound.begun _ _ _ here
      exact .inr ((guarantees _ base goodBase).reached reaches)
  | unlock _ => exact .inl rfl
  | respond _ => exact .inl rfl

end

end Monitor
