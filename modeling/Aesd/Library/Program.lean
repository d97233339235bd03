/-
Programs as sequences of atomic steps on a state.

`alone` runs a program to its end without interruption.  Part of the state may
be visible to others between two steps; the predicates on programs say what
they do to it.
-/

import Mathlib.Logic.Function.Basic

namespace Monitor

/-- A step changes the state; how the program goes on depends on the state in
which the step was taken. -/
inductive Program (State Fault Result : Type) where
  | finish (result : Result)
  | fail (fault : Fault)
  | step (effect : State → State) (next : State → Program State Fault Result)

namespace Program

variable {State Fault Answer Result View : Type}

def bind : Program State Fault Answer → (Answer → Program State Fault Result) →
    Program State Fault Result
  | .finish answer, rest => rest answer
  | .fail fault, _ => .fail fault
  | .step effect next, rest => .step effect fun state => (next state).bind rest

instance : Monad (Program State Fault) where
  pure := .finish
  bind := .bind

def atomically (action : State → Except Fault (State × Answer)) : Program State Fault Answer :=
  .step
    (fun state =>
      match action state with
      | .ok (after, _) => after
      | .error _ => state)
    fun state =>
      match action state with
      | .ok (_, answer) => .finish answer
      | .error fault => .fail fault

def alone : Program State Fault Result → State → Except Fault (State × Result)
  | .finish result, state => .ok (state, result)
  | .fail fault, _ => .error fault
  | .step effect next, state => (next state).alone (effect state)

@[simp] theorem alone_pure (result : Result) (state : State) :
    (pure result : Program State Fault Result).alone state = .ok (state, result) := rfl

@[simp] theorem alone_bind (program : Program State Fault Answer)
    (rest : Answer → Program State Fault Result) (state : State) :
    (program >>= rest).alone state =
      (program.alone state).bind fun reached => (rest reached.2).alone reached.1 := by
  induction program generalizing state with
  | finish answer => rfl
  | fail fault => rfl
  | step effect next ih => exact ih state (effect state)

@[simp] theorem alone_atomically (action : State → Except Fault (State × Answer))
    (state : State) : (atomically action).alone state = action state := by
  simp only [atomically, alone]
  cases action state with
  | error fault => rfl
  | ok reached => rfl

def modify (change : State → State) : Program State Fault Unit :=
  .step change fun _ => .finish ()

@[simp] theorem alone_modify (change : State → State) (state : State) :
    (modify change : Program State Fault Unit).alone state = .ok (change state, ()) := rfl

/-! ### Results -/

def Ensures (post : Result → Prop) : Program State Fault Result → Prop
  | .finish result => post result
  | .fail _ => True
  | .step _ next => ∀ state, (next state).Ensures post

theorem Ensures.bind {post : Result → Prop} (program : Program State Fault Answer)
    {rest : Answer → Program State Fault Result} (later : ∀ answer, (rest answer).Ensures post) :
    (program >>= rest).Ensures post := by
  induction program with
  | finish answer => exact later answer
  | fail fault => exact trivial
  | step effect next ih => exact fun state => ih state

theorem Ensures.alone {post : Result → Prop} {program : Program State Fault Result}
    (ensures : program.Ensures post) {state after : State} {result : Result}
    (ended : program.alone state = .ok (after, result)) : post result := by
  induction program generalizing state with
  | finish other =>
      cases ended
      exact ensures
  | fail fault => cases ended
  | step effect next ih => exact ih state (ensures state) ended

/-! ### Being under way -/

/-- From one program and state to what is left and the state it is left in. -/
inductive Reaches : Program State Fault Result → State → Program State Fault Result → State →
    Prop where
  | here {program : Program State Fault Result} {state : State} :
      Reaches program state program state
  | step {effect : State → State} {next : State → Program State Fault Result}
      {state last : State} {left : Program State Fault Result}
      (later : Reaches (next state) (effect state) left last) :
      Reaches (.step effect next) state left last

theorem Reaches.trans {first second third : Program State Fault Result}
    {start middle last : State} (earlier : Reaches first start second middle)
    (later : Reaches second middle third last) : Reaches first start third last := by
  induction earlier with
  | here => exact later
  | step _ ih => exact .step (ih later)

theorem Reaches.alone {program left : Program State Fault Result} {state last : State}
    (reaches : Reaches program state left last) : program.alone state = left.alone last := by
  induction reaches with
  | here => rfl
  | step _ ih => exact ih

theorem reaches_finish {program : Program State Fault Result} {state last : State}
    {result : Result} (ended : program.alone state = .ok (last, result)) :
    Reaches program state (.finish result) last := by
  induction program generalizing state with
  | finish other =>
      cases ended
      exact .here
  | fail fault => cases ended
  | step effect next ih => exact .step (ih state ended)

theorem alone_bind_of_ok {program : Program State Fault Answer}
    {rest : Answer → Program State Fault Result} {state middle : State} {answer : Answer}
    (ended : program.alone state = .ok (middle, answer)) :
    (program >>= rest).alone state = (rest answer).alone middle := by
  rw [alone_bind, ended]
  rfl

theorem alone_bind_ok {program : Program State Fault Answer}
    {rest : Answer → Program State Fault Result} {state last : State} {result : Result}
    (ended : (program >>= rest).alone state = .ok (last, result)) :
    ∃ middle answer, program.alone state = .ok (middle, answer) ∧
      (rest answer).alone middle = .ok (last, result) := by
  rw [alone_bind] at ended
  cases first : program.alone state with
  | error fault =>
      rw [first] at ended
      cases ended
  | ok reached =>
      obtain ⟨middle, answer⟩ := reached
      rw [first] at ended
      exact ⟨middle, answer, rfl, ended⟩

theorem reaches_fail {program : Program State Fault Result} {state : State} {fault : Fault}
    (failed : program.alone state = .error fault) :
    ∃ last, Reaches program state (.fail fault) last := by
  induction program generalizing state with
  | finish result => cases failed
  | fail other =>
      cases failed
      exact ⟨state, .here⟩
  | step effect next ih =>
      obtain ⟨last, reaches⟩ := ih state failed
      exact ⟨last, .step reaches⟩

def Visits (holds : State → Prop) (program : Program State Fault Result) (state : State) : Prop :=
  ∃ left last, Reaches program state left last ∧ holds last

theorem Visits.first {holds : State → Prop} {program : Program State Fault Answer}
    {state : State} (rest : Answer → Program State Fault Result)
    (visits : program.Visits holds state) : (program >>= rest).Visits holds state := by
  obtain ⟨left, last, reaches, here⟩ := visits
  refine ⟨left >>= rest, last, ?_, here⟩
  induction reaches with
  | here => exact .here
  | step _ ih => exact .step (ih here)

theorem Visits.later {holds : State → Prop} {program : Program State Fault Answer}
    {rest : Answer → Program State Fault Result} {state middle : State} {answer : Answer}
    (visits : (rest answer).Visits holds middle)
    (ended : program.alone state = .ok (middle, answer)) :
    (program >>= rest).Visits holds state := by
  induction program generalizing state with
  | finish other =>
      cases ended
      exact visits
  | fail fault => cases ended
  | step effect next ih =>
      obtain ⟨left, last, reaches, here⟩ := ih state ended
      exact ⟨left, last, .step reaches, here⟩

def Always (holds : State → Prop) : Program State Fault Result → State → Prop
  | .finish _, state => holds state
  | .fail _, state => holds state
  | .step effect next, state => holds state ∧ (next state).Always holds (effect state)

section

variable {holds : State → Prop}

theorem Always.here {program : Program State Fault Result} {state : State}
    (always : program.Always holds state) : holds state := by
  cases program with
  | finish result => exact always
  | fail fault => exact always
  | step effect next => exact always.1

theorem Always.reached {program left : Program State Fault Result} {state last : State}
    (always : program.Always holds state) (reaches : Reaches program state left last) :
    holds last := by
  induction reaches with
  | here => exact always.here
  | step _ ih => exact ih always.2

theorem Always.ended {program : Program State Fault Result} {state last : State}
    {result : Result} (always : program.Always holds state)
    (ended : program.alone state = .ok (last, result)) : holds last :=
  always.reached (reaches_finish ended)

theorem Always.bind {program : Program State Fault Answer}
    {rest : Answer → Program State Fault Result} {state : State}
    (first : program.Always holds state)
    (later : ∀ last answer, program.alone state = .ok (last, answer) → holds last →
      (rest answer).Always holds last) : (program >>= rest).Always holds state := by
  induction program generalizing state with
  | finish answer => exact later state answer rfl first
  | fail fault => exact first
  | step effect next ih => exact ⟨first.1, ih state first.2 later⟩

theorem visits_bind {target : State → Prop} {program : Program State Fault Answer}
    {rest : Answer → Program State Fault Result} {state last : State} {result : Result}
    (ended : (program >>= rest).alone state = .ok (last, result))
    (first : program.Always holds state)
    (later : ∀ middle answer, program.alone state = .ok (middle, answer) → holds middle →
      (rest answer).alone middle = .ok (last, result) → (rest answer).Visits target middle) :
    (program >>= rest).Visits target state := by
  obtain ⟨middle, answer, firstEnded, restEnded⟩ := alone_bind_ok ended
  exact (later middle answer firstEnded (first.ended firstEnded) restEnded).later firstEnded

theorem always_atomically {action : State → Except Fault (State × Answer)} {state : State}
    (here : holds state)
    (after : ∀ next answer, action state = .ok (next, answer) → holds next) :
    (atomically action).Always holds state := by
  unfold atomically
  refine ⟨here, ?_⟩
  dsimp only
  cases outcome : action state with
  | error fault => exact here
  | ok reached =>
      obtain ⟨next, answer⟩ := reached
      exact after next answer outcome

theorem always_modify {change : State → State} {state : State} (here : holds state)
    (after : holds (change state)) :
    (modify change : Program State Fault Unit).Always holds state :=
  ⟨here, after⟩

end

/-! ### The visible part -/

def Keeps (view : State → View) : Program State Fault Result → Prop
  | .finish _ => True
  | .fail _ => True
  | .step effect next =>
      (∀ state, view (effect state) = view state) ∧ ∀ state, (next state).Keeps view

def Settles (view : State → View) : Program State Fault Result → Prop
  | .finish _ => True
  | .fail _ => False
  | .step effect next =>
      (∀ state, view (effect state) = view state) ∧ ∀ state, (next state).Settles view

/-- At most one step of every execution changes the visible part, and none
after it fails. -/
def ChangesOnce (view : State → View) : Program State Fault Result → Prop
  | .finish _ => True
  | .fail _ => True
  | .step effect next => ∀ state,
      (view (effect state) = view state ∧ (next state).ChangesOnce view) ∨
        (next state).Settles view

def steady [DecidableEq View] (view : State → View) :
    Program State Fault Result → State → Bool
  | .finish _, _ => true
  | .fail _, _ => true
  | .step effect next, state =>
      decide (view (effect state) = view state) && (next state).steady view (effect state)

section

variable {view : State → View}

theorem Keeps.bind {program : Program State Fault Answer}
    {rest : Answer → Program State Fault Result} (first : program.Keeps view)
    (later : ∀ answer, (rest answer).Keeps view) : (program >>= rest).Keeps view := by
  induction program with
  | finish answer => exact later answer
  | fail fault => exact trivial
  | step effect next ih => exact ⟨first.1, fun state => ih state (first.2 state)⟩

theorem Keeps.alone {program : Program State Fault Result} (keeps : program.Keeps view)
    {state last : State} {result : Result}
    (ended : program.alone state = .ok (last, result)) : view last = view state := by
  induction program generalizing state with
  | finish other =>
      cases ended
      rfl
  | fail fault => cases ended
  | step effect next ih => exact (ih state (keeps.2 state) ended).trans (keeps.1 state)

theorem Keeps.changesOnce {program : Program State Fault Result} (keeps : program.Keeps view) :
    program.ChangesOnce view := by
  induction program with
  | finish result => exact trivial
  | fail fault => exact trivial
  | step effect next ih =>
      intro state
      exact .inl ⟨keeps.1 state, ih state (keeps.2 state)⟩

theorem Settles.changesOnce {program : Program State Fault Result}
    (settles : program.Settles view) : program.ChangesOnce view := by
  cases program with
  | finish result => exact trivial
  | fail fault => exact trivial
  | step effect next => exact fun state => .inr (settles.2 state)

theorem ChangesOnce.next {effect : State → State} {next : State → Program State Fault Result}
    (once : (step effect next).ChangesOnce view) (state : State) :
    (next state).ChangesOnce view := by
  rcases once state with ⟨_, later⟩ | settles
  · exact later
  · exact settles.changesOnce

theorem ChangesOnce.bind {program : Program State Fault Answer}
    {rest : Answer → Program State Fault Result} (first : program.Keeps view)
    (later : ∀ answer, (rest answer).ChangesOnce view) :
    (program >>= rest).ChangesOnce view := by
  induction program with
  | finish answer => exact later answer
  | fail fault => exact trivial
  | step effect next ih =>
      intro state
      exact .inl ⟨first.1 state, ih state (first.2 state)⟩

theorem Settles.bind {program : Program State Fault Answer}
    {rest : Answer → Program State Fault Result} (first : program.Settles view)
    (later : ∀ answer, (rest answer).Settles view) : (program >>= rest).Settles view := by
  induction program with
  | finish answer => exact later answer
  | fail fault => exact first.elim
  | step effect next ih => exact ⟨first.1, fun state => ih state (first.2 state)⟩

theorem ChangesOnce.bind_settles {program : Program State Fault Answer}
    {rest : Answer → Program State Fault Result} (first : program.ChangesOnce view)
    (later : ∀ answer, (rest answer).Settles view) : (program >>= rest).ChangesOnce view := by
  induction program with
  | finish answer => exact (later answer).changesOnce
  | fail fault => exact trivial
  | step effect next ih =>
      intro state
      rcases first state with ⟨same, once⟩ | settles
      · exact .inl ⟨same, ih state once⟩
      · exact .inr (settles.bind later)

theorem keeps_atomically {action : State → Except Fault (State × Answer)}
    (same : ∀ state after answer, action state = .ok (after, answer) → view after = view state) :
    (atomically action).Keeps view := by
  constructor
  · intro state
    dsimp only
    cases outcome : action state with
    | error fault => rfl
    | ok reached =>
        obtain ⟨after, answer⟩ := reached
        exact same state after answer outcome
  · intro state
    dsimp only
    cases action state with
    | error fault => exact trivial
    | ok reached => exact trivial

theorem keeps_modify {change : State → State} (same : ∀ state, view (change state) = view state) :
    (modify change : Program State Fault Unit).Keeps view :=
  ⟨same, fun _ => trivial⟩

theorem changesOnce_modify_bind (view : State → View) (change : State → State)
    {rest : Unit → Program State Fault Result} (later : (rest ()).Settles view) :
    (modify change >>= rest).ChangesOnce view :=
  fun _ => .inr later

end

section

variable [DecidableEq View] {view : State → View}

theorem view_alone_of_steady {program : Program State Fault Result} {state after : State}
    {result : Result} (steady : program.steady view state = true)
    (ended : program.alone state = .ok (after, result)) : view after = view state := by
  induction program generalizing state with
  | finish other =>
      cases ended
      rfl
  | fail fault => cases ended
  | step effect next ih =>
      unfold Program.steady at steady
      rw [Bool.and_eq_true] at steady
      exact (ih state steady.2 ended).trans (of_decide_eq_true steady.1)

/-- The result of a program that has taken effect. -/
def settled (view : State → View) (program : Program State Fault Result) (state : State) :
    Option Result :=
  if program.steady view state then (program.alone state).toOption.map Prod.snd else none

theorem settled_eq_some {program : Program State Fault Result} {state : State}
    {result : Result} :
    program.settled view state = some result ↔
      program.steady view state = true ∧ ∃ after, program.alone state = .ok (after, result) := by
  unfold settled
  by_cases steady : program.steady view state = true
  · rw [if_pos steady]
    cases program.alone state with
    | error fault => simp [Except.toOption]
    | ok reached =>
        obtain ⟨after, found⟩ := reached
        simp [Except.toOption, steady]
  · rw [if_neg steady]
    simp [steady]

theorem settled_step {effect : State → State} {next : State → Program State Fault Result}
    {state : State} {result : Result}
    (taken : (step effect next).settled view state = some result) :
    (next state).settled view (effect state) = some result := by
  obtain ⟨steady, ended⟩ := settled_eq_some.mp taken
  unfold Program.steady at steady
  rw [Bool.and_eq_true] at steady
  exact settled_eq_some.mpr ⟨steady.2, ended⟩

theorem Settles.settled {program : Program State Fault Result} (settles : program.Settles view)
    (state : State) : ∃ result, program.settled view state = some result := by
  induction program generalizing state with
  | finish result => exact ⟨result, rfl⟩
  | fail fault => exact settles.elim
  | step effect next ih =>
      obtain ⟨result, later⟩ := ih state (settles.2 state) (effect state)
      obtain ⟨steady, ended⟩ := settled_eq_some.mp later
      refine ⟨result, settled_eq_some.mpr ⟨?_, ended⟩⟩
      unfold Program.steady
      rw [Bool.and_eq_true]
      exact ⟨decide_eq_true (settles.1 state), steady⟩

theorem unsettled_step {effect : State → State} {next : State → Program State Fault Result}
    {state : State} (once : (step effect next).ChangesOnce view)
    (unsettled : (next state).settled view (effect state) = none) :
    view (effect state) = view state := by
  rcases once state with ⟨quiet, _⟩ | settles
  · exact quiet
  · obtain ⟨result, settled⟩ := settles.settled (effect state)
    rw [unsettled] at settled
    cases settled

end

end Program

end Monitor
