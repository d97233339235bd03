/-
Calls that run under one lock, step by step.

Any number of threads call programs; each waits for the lock, takes its steps
while it holds it, unlocks and returns.  Part of the state is visible to code
that does not take the lock.

When every program changes the visible part at most once, the calls are
linearizable.  A call takes effect at the moment from which on the rest of its
program leaves the visible part alone: then all that is seen of the state, at
any time, belongs to the state after the calls that have taken effect.
-/

import Aesd.Library.Execution
import Aesd.Library.Mutex
import Aesd.Library.Program

namespace Monitor

open Execution
open Mutex

/-! ### Threads that call programs -/

/-- What a call runs under the lock, and what it returns if it gives up waiting. -/
structure Calls (State Fault Request Result : Type) where
  body : Request → Program State Fault Result
  givesUp : Request → Option Result

inductive Phase (State Fault Request Result : Type) where
  | idle
  | waiting (request : Request)
  | inside (request : Request) (program : Program State Fault Result)
  | done (request : Request) (result : Result)

structure Threads (Thread State Fault Request Result : Type) where
  state : State
  holder : Option Thread
  phase : Thread → Phase State Fault Request Result

inductive Action (Thread Request : Type) where
  | invoke (thread : Thread) (request : Request)
  | lock (thread : Thread)
  | giveUp (thread : Thread)
  | advance (thread : Thread)
  | unlock (thread : Thread)
  | respond (thread : Thread)

def Action.thread {Thread Request : Type} : Action Thread Request → Thread
  | .invoke thread _ => thread
  | .lock thread => thread
  | .giveUp thread => thread
  | .advance thread => thread
  | .unlock thread => thread
  | .respond thread => thread

inductive Refusal (Fault : Type) where
  | notPossible
  | faulted (fault : Fault)
deriving DecidableEq

section

variable {Thread State Fault Request Result View : Type} [DecidableEq Thread]

def Threads.start (state : State) : Threads Thread State Fault Request Result :=
  { state := state, holder := none, phase := fun _ => .idle }

/-- One thread moves; the state and the lock are given anew. -/
def Threads.goto (threads : Threads Thread State Fault Request Result) (thread : Thread)
    (phase : Phase State Fault Request Result) (state : State) (holder : Option Thread) :
    Threads Thread State Fault Request Result :=
  { state := state
    holder := holder
    phase := Function.update threads.phase thread phase }

def Threads.become (threads : Threads Thread State Fault Request Result) (thread : Thread)
    (phase : Phase State Fault Request Result) : Threads Thread State Fault Request Result :=
  threads.goto thread phase threads.state threads.holder

/-- With the request and the result of a call that returns. -/
def Threads.step (calls : Calls State Fault Request Result)
    (threads : Threads Thread State Fault Request Result) :
    Action Thread Request →
      Except (Refusal Fault)
        (Threads Thread State Fault Request Result × Option (Request × Result))
  | .invoke thread request =>
      match threads.phase thread with
      | .idle => .ok (threads.become thread (.waiting request), none)
      | _ => .error .notPossible
  | .lock thread =>
      match threads.phase thread, threads.holder with
      | .waiting request, none =>
          if (calls.givesUp request).isSome then .error .notPossible
          else
            .ok (threads.goto thread (.inside request (calls.body request)) threads.state
              (some thread), none)
      | _, _ => .error .notPossible
  | .giveUp thread =>
      match threads.phase thread with
      | .waiting request =>
          match calls.givesUp request with
          | some result => .ok (threads.become thread (.done request result), none)
          | none => .error .notPossible
      | _ => .error .notPossible
  | .advance thread =>
      match threads.phase thread with
      | .inside request (.step effect next) =>
          .ok (threads.goto thread (.inside request (next threads.state))
            (effect threads.state) threads.holder, none)
      | .inside _ (.fail fault) => .error (.faulted fault)
      | _ => .error .notPossible
  | .unlock thread =>
      match threads.phase thread with
      | .inside request (.finish result) =>
          .ok (threads.goto thread (.done request result) threads.state none, none)
      | _ => .error .notPossible
  | .respond thread =>
      match threads.phase thread with
      | .done request result => .ok (threads.become thread .idle, some (request, result))
      | _ => .error .notPossible

inductive Moves (calls : Calls State Fault Request Result)
    (threads : Threads Thread State Fault Request Result) :
    Action Thread Request → Option (Request × Result) →
      Threads Thread State Fault Request Result → Prop where
  | invoke {thread : Thread} {request : Request} (here : threads.phase thread = .idle) :
      Moves calls threads (.invoke thread request) none
        (threads.become thread (.waiting request))
  | lock {thread : Thread} {request : Request} (here : threads.phase thread = .waiting request)
      (free : threads.holder = none) (stays : calls.givesUp request = none) :
      Moves calls threads (.lock thread) none
        (threads.goto thread (.inside request (calls.body request)) threads.state (some thread))
  | giveUp {thread : Thread} {request : Request} {result : Result}
      (here : threads.phase thread = .waiting request)
      (gone : calls.givesUp request = some result) :
      Moves calls threads (.giveUp thread) none (threads.become thread (.done request result))
  | advance {thread : Thread} {request : Request} {effect : State → State}
      {next : State → Program State Fault Result}
      (here : threads.phase thread = .inside request (.step effect next)) :
      Moves calls threads (.advance thread) none
        (threads.goto thread (.inside request (next threads.state)) (effect threads.state)
          threads.holder)
  | unlock {thread : Thread} {request : Request} {result : Result}
      (here : threads.phase thread = .inside request (.finish result)) :
      Moves calls threads (.unlock thread) none
        (threads.goto thread (.done request result) threads.state none)
  | respond {thread : Thread} {request : Request} {result : Result}
      (here : threads.phase thread = .done request result) :
      Moves calls threads (.respond thread) (some (request, result))
        (threads.become thread .idle)

theorem Threads.step_moves {calls : Calls State Fault Request Result}
    {threads after : Threads Thread State Fault Request Result} {action : Action Thread Request}
    {output : Option (Request × Result)}
    (taken : threads.step calls action = .ok (after, output)) :
    Moves calls threads action output after := by
  cases action with
  | invoke thread request =>
      simp only [Threads.step] at taken
      split at taken
      · rename_i here
        cases taken
        exact .invoke here
      · cases taken
  | lock thread =>
      simp only [Threads.step] at taken
      split at taken
      · rename_i request here free
        split at taken
        · cases taken
        · rename_i stays
          cases taken
          exact .lock here free (by simpa using stays)
      · cases taken
  | giveUp thread =>
      simp only [Threads.step] at taken
      split at taken
      · rename_i request here
        split at taken
        · rename_i result gone
          cases taken
          exact .giveUp here gone
        · cases taken
      · cases taken
  | advance thread =>
      simp only [Threads.step] at taken
      split at taken
      · rename_i request effect next here
        cases taken
        exact .advance here
      · cases taken
      · cases taken
  | unlock thread =>
      simp only [Threads.step] at taken
      split at taken
      · rename_i request result here
        cases taken
        exact .unlock here
      · cases taken
  | respond thread =>
      simp only [Threads.step] at taken
      split at taken
      · rename_i request result here
        cases taken
        exact .respond here
      · cases taken

theorem Threads.step_faulted {calls : Calls State Fault Request Result}
    {threads : Threads Thread State Fault Request Result} {action : Action Thread Request}
    {fault : Fault} (faulted : threads.step calls action = .error (.faulted fault)) :
    ∃ request, threads.phase action.thread = .inside request (.fail fault) := by
  cases action with
  | invoke thread request =>
      simp only [Threads.step] at faulted
      split at faulted <;> cases faulted
  | lock thread =>
      simp only [Threads.step] at faulted
      split at faulted
      · split at faulted <;> cases faulted
      · cases faulted
  | giveUp thread =>
      simp only [Threads.step] at faulted
      split at faulted
      · split at faulted <;> cases faulted
      · cases faulted
  | advance thread =>
      simp only [Threads.step] at faulted
      split at faulted
      · cases faulted
      · rename_i request found here
        cases faulted
        exact ⟨request, here⟩
      · cases faulted
  | unlock thread =>
      simp only [Threads.step] at faulted
      split at faulted <;> cases faulted
  | respond thread =>
      simp only [Threads.step] at faulted
      split at faulted <;> cases faulted

end

/-! ### Linearization -/

section

variable {Thread State Fault Request Result View : Type}

def Phase.Inside : Phase State Fault Request Result → Prop
  | .inside _ _ => True
  | _ => False

def Phase.request? : Phase State Fault Request Result → Option Request
  | .idle => none
  | .waiting request => some request
  | .inside request _ => some request
  | .done request _ => some request

def Calls.alone (calls : Calls State Fault Request Result) (request : Request)
    (state : State) : Except Fault (State × Result) :=
  match calls.givesUp request with
  | some result => .ok (state, result)
  | none => (calls.body request).alone state

theorem Calls.alone_of_stays {calls : Calls State Fault Request Result} {request : Request}
    (stays : calls.givesUp request = none) (state : State) :
    calls.alone request state = (calls.body request).alone state := by
  rw [Calls.alone, stays]

variable [DecidableEq View] (view : State → View)

/-- The call that has taken effect and has not returned. -/
def Phase.announced (phase : Phase State Fault Request Result) (state : State) :
    Option (Request × Result) :=
  match phase with
  | .inside request program =>
      (program.settled view state).map fun result => (request, result)
  | .done request result => some (request, result)
  | _ => none

def Threads.announced (threads : Threads Thread State Fault Request Result) (thread : Thread) :
    Option (Request × Result) :=
  (threads.phase thread).announced view threads.state

/-- A program under the lock, against the state after the calls that have taken
effect. -/
inductive Held (calls : Calls State Fault Request Result) (request : Request)
    (program : Program State Fault Result) (state serial : State) : Prop where
  | before (unsettled : program.settled view state = none)
      (same : program.alone state = (calls.body request).alone serial)
      (seen : view state = view serial)
  | after {result : Result} (settled : program.settled view state = some result)
      (ended : program.alone state = .ok (serial, result))

structure Linearized (calls : Calls State Fault Request Result)
    (threads : Threads Thread State Fault Request Result) (serial : State) : Prop where
  guarded : Guarded Phase.Inside threads.phase threads.holder
  free : threads.holder = none → threads.state = serial
  inside : ∀ thread request program, threads.phase thread = .inside request program →
    calls.givesUp request = none ∧ program.ChangesOnce view ∧
      Held view calls request program threads.state serial

variable {view}

namespace Linearized

variable {calls : Calls State Fault Request Result}
  {threads after : Threads Thread State Fault Request Result} {serial : State} {thread : Thread}

theorem inside_of_holder (linearized : Linearized view calls threads serial)
    (held : threads.holder = some thread) :
    ∃ request program, threads.phase thread = .inside request program := by
  have inside := (linearized.guarded thread).mpr held
  cases here : threads.phase thread with
  | idle =>
      rw [here] at inside
      exact inside.elim
  | waiting request =>
      rw [here] at inside
      exact inside.elim
  | done request result =>
      rw [here] at inside
      exact inside.elim
  | inside request program => exact ⟨request, program, rfl⟩

/-- Whoever looks at the visible part sees the state after the calls that have
taken effect. -/
theorem view_eq (linearized : Linearized view calls threads serial) :
    view threads.state = view serial := by
  cases held : threads.holder with
  | none => rw [linearized.free held]
  | some holder =>
      obtain ⟨request, program, here⟩ := linearized.inside_of_holder held
      obtain ⟨_, _, holds⟩ := linearized.inside holder request program here
      cases holds with
      | before _ _ seen => exact seen
      | after settled ended =>
          obtain ⟨steady, _⟩ := Program.settled_eq_some.mp settled
          exact (Program.view_alone_of_steady steady ended).symm

theorem start (calls : Calls State Fault Request Result) (state : State) :
    Linearized view calls (Threads.start state : Threads Thread State Fault Request Result)
      state where
  guarded := by
    intro thread
    constructor
    · intro inside
      exact inside.elim
    · intro held
      cases held
  free := fun _ => rfl
  inside := by
    intro thread request program here
    cases here

theorem replace (linearized : Linearized view calls threads serial)
    (free : threads.holder = none) (state : State) :
    Linearized view calls { threads with state := state } state where
  guarded := linearized.guarded
  free := fun _ => rfl
  inside := by
    intro thread request program here
    have held := (linearized.guarded thread).mp (by rw [here]; trivial)
    rw [free] at held
    cases held

theorem announced_replace (linearized : Linearized view calls threads serial)
    (free : threads.holder = none) (state : State) (thread : Thread) :
    ({ threads with state := state } : Threads Thread State Fault Request Result).announced view
      thread = threads.announced view thread := by
  unfold Threads.announced
  dsimp only
  cases here : threads.phase thread with
  | idle => rfl
  | waiting request => rfl
  | done request result => rfl
  | inside request program =>
      have held := (linearized.guarded thread).mp (by rw [here]; trivial)
      rw [free] at held
      cases held

end Linearized

theorem announced_of_phase {threads : Threads Thread State Fault Request Result}
    {thread : Thread} {phase : Phase State Fault Request Result}
    (here : threads.phase thread = phase) :
    threads.announced view thread = phase.announced view threads.state := by
  rw [Threads.announced, here]

theorem Threads.request?_of_announced {threads : Threads Thread State Fault Request Result}
    {thread : Thread} {request : Request} {result : Result}
    (announced : threads.announced view thread = some (request, result)) :
    (threads.phase thread).request? = some request := by
  unfold Threads.announced at announced
  cases here : threads.phase thread with
  | idle =>
      rw [here] at announced
      cases announced
  | waiting other =>
      rw [here] at announced
      cases announced
  | done other found =>
      rw [here] at announced
      cases announced
      rfl
  | inside other program =>
      rw [here] at announced
      obtain ⟨found, _, same⟩ := Option.map_eq_some_iff.mp announced
      cases same
      rfl

variable [DecidableEq Thread]

theorem Threads.goto_other (threads : Threads Thread State Fault Request Result)
    {thread other : Thread} (different : other ≠ thread)
    (phase : Phase State Fault Request Result) (state : State) (holder : Option Thread) :
    (threads.goto thread phase state holder).phase other = threads.phase other :=
  Function.update_of_ne different ..

theorem Threads.announced_goto (view : State → View)
    (threads : Threads Thread State Fault Request Result) (thread : Thread)
    (phase : Phase State Fault Request Result) (state : State) (holder : Option Thread) :
    (threads.goto thread phase state holder).announced view thread =
      phase.announced view state := by
  unfold Threads.announced Threads.goto
  simp only [Function.update_self]

theorem Moves.phase_other {calls : Calls State Fault Request Result}
    {threads after : Threads Thread State Fault Request Result} {action : Action Thread Request}
    {output : Option (Request × Result)} (moves : Moves calls threads action output after)
    {other : Thread} (different : other ≠ action.thread) :
    after.phase other = threads.phase other := by
  cases moves <;> exact Threads.goto_other threads different _ _ _

theorem Moves.request? {calls : Calls State Fault Request Result}
    {threads after : Threads Thread State Fault Request Result} {action : Action Thread Request}
    {output : Option (Request × Result)} (moves : Moves calls threads action output after)
    (within : ∀ thread request, action ≠ .invoke thread request) {request : Request}
    (asked : (after.phase action.thread).request? = some request) :
    output = none ∧ (threads.phase action.thread).request? = some request := by
  have self (thread : Thread) (phase : Phase State Fault Request Result) (state : State)
      (holder : Option Thread) : (threads.goto thread phase state holder).phase thread = phase :=
    Function.update_self ..
  cases moves with
  | @invoke thread request here => exact absurd rfl (within thread request)
  | lock here _ _ =>
      rw [Action.thread, self] at asked
      exact ⟨rfl, by rw [Action.thread, here]; exact asked⟩
  | giveUp here _ =>
      rw [Action.thread, Threads.become, self] at asked
      exact ⟨rfl, by rw [Action.thread, here]; exact asked⟩
  | advance here =>
      rw [Action.thread, self] at asked
      exact ⟨rfl, by rw [Action.thread, here]; exact asked⟩
  | unlock here =>
      rw [Action.thread, self] at asked
      exact ⟨rfl, by rw [Action.thread, here]; exact asked⟩
  | respond here =>
      rw [Action.thread, Threads.become, self] at asked
      cases asked

/-- What a step of a thread is to the calls that have taken effect. -/
inductive Outcome (view : State → View) (calls : Calls State Fault Request Result)
    (before after : Threads Thread State Fault Request Result) (thread : Thread)
    (output : Option (Request × Result)) (serial next : State) : Prop where
  | quiet (same : after.announced view thread = before.announced view thread)
      (silent : output = none) (still : next = serial)
  | takes {request : Request} {result : Result}
      (asked : (before.phase thread).request? = some request)
      (unannounced : before.announced view thread = none)
      (announced : after.announced view thread = some (request, result))
      (silent : output = none) (alone : calls.alone request serial = .ok (next, result))
  | responds {request : Request} {result : Result}
      (announced : before.announced view thread = some (request, result))
      (gone : after.announced view thread = none)
      (returned : output = some (request, result)) (still : next = serial)

namespace Linearized

variable {calls : Calls State Fault Request Result}
  {threads after : Threads Thread State Fault Request Result} {serial : State} {thread : Thread}

private theorem outside (linearized : Linearized view calls threads serial)
    {phase : Phase State Fault Request Result} (before : ¬(threads.phase thread).Inside)
    (later : ¬phase.Inside) : Linearized view calls (threads.become thread phase) serial where
  guarded := linearized.guarded.stay ⟨fun inside => (later inside).elim,
    fun inside => (before inside).elim⟩
  free := linearized.free
  inside := by
    intro other request program here
    unfold Threads.become Threads.goto at here
    dsimp only at here
    by_cases same : other = thread
    · subst same
      rw [Function.update_self] at here
      rw [here] at later
      exact (later trivial).elim
    · rw [Function.update_of_ne same] at here
      exact linearized.inside other request program here

private theorem holding {request : Request} {program : Program State Fault Result}
    {state next : State}
    (guarded : Guarded Phase.Inside
      (Function.update threads.phase thread (.inside request program)) (some thread))
    (stays : calls.givesUp request = none)
    (once : program.ChangesOnce view) (reached : Held view calls request program state next) :
    Linearized view calls (threads.goto thread (.inside request program) state (some thread))
      next where
  guarded := guarded
  free := by
    intro free
    cases free
  inside := by
    intro other otherRequest otherProgram here
    unfold Threads.goto at here
    dsimp only at here
    have only := (guarded other).mp (by rw [here]; trivial)
    cases only
    rw [Function.update_self] at here
    cases here
    exact ⟨stays, once, reached⟩

private theorem released {phase : Phase State Fault Request Result} {state : State}
    (guarded : Guarded Phase.Inside (Function.update threads.phase thread phase) none)
    (same : state = serial) :
    Linearized view calls (threads.goto thread phase state none) serial where
  guarded := guarded
  free := fun _ => same
  inside := by
    intro other request program here
    unfold Threads.goto at here
    dsimp only at here
    have held := (guarded other).mp (by rw [here]; trivial)
    cases held

theorem announced_other {action : Action Thread Request} {output : Option (Request × Result)}
    (linearized : Linearized view calls threads serial)
    (moves : Moves calls threads action output after) {other : Thread}
    (different : other ≠ action.thread) :
    after.announced view other = threads.announced view other := by
  have phase := moves.phase_other different
  unfold Threads.announced
  rw [phase]
  cases here : threads.phase other with
  | idle => rfl
  | waiting request => rfl
  | done request result => rfl
  | inside request program =>
      have held := (linearized.guarded other).mp (by rw [here]; trivial)
      have state : after.state = threads.state := by
        cases moves with
        | @advance mover _ _ _ mineHere =>
            have mine := (linearized.guarded mover).mp (by rw [mineHere]; trivial)
            rw [held] at mine
            exact absurd (Option.some.inj mine) different
        | invoke | lock | giveUp | unlock | respond => rfl
      rw [state]

private theorem reaches {request : Request} {program : Program State Fault Result}
    {state : State} (asked : (threads.phase thread).request? = some request)
    (unannounced : threads.announced view thread = none)
    (guarded : Guarded Phase.Inside
      (Function.update threads.phase thread (.inside request program)) (some thread))
    (stays : calls.givesUp request = none) (once : program.ChangesOnce view)
    (same : program.alone state = (calls.body request).alone serial)
    (seen : program.settled view state = none → view state = view serial) :
    ∃ next, Linearized view calls
        (threads.goto thread (.inside request program) state (some thread)) next ∧
      Outcome view calls threads
        (threads.goto thread (.inside request program) state (some thread)) thread none
        serial next := by
  cases settled : program.settled view state with
  | none =>
      refine ⟨serial, holding guarded stays once (.before settled same (seen settled)),
        .quiet ?_ rfl rfl⟩
      rw [unannounced, Threads.announced_goto, Phase.announced, settled, Option.map_none]
  | some result =>
      obtain ⟨_, next, ended⟩ := Program.settled_eq_some.mp settled
      refine ⟨next, holding guarded stays once (.after settled ended), .takes asked unannounced ?_
        rfl ((Calls.alone_of_stays stays serial).trans (same.symm.trans ended))⟩
      rw [Threads.announced_goto, Phase.announced, settled, Option.map_some]

/-- Every step of every thread: the calls take effect one after another, each
once, while its thread is in the call. -/
theorem step {action : Action Thread Request} {output : Option (Request × Result)}
    (once : ∀ request, (calls.body request).ChangesOnce view)
    (linearized : Linearized view calls threads serial)
    (moves : Moves calls threads action output after) :
    ∃ next, Linearized view calls after next ∧
      Outcome view calls threads after action.thread output serial next := by
  cases moves with
  | @invoke thread request here =>
      have unannounced : threads.announced view thread = none := announced_of_phase here
      refine ⟨serial, linearized.outside (by rw [here]; exact id) id, .quiet ?_ rfl rfl⟩
      rw [Action.thread, unannounced, Threads.become, Threads.announced_goto]
      rfl
  | @lock thread request here free stays =>
      have unannounced : threads.announced view thread = none := announced_of_phase here
      have guarded := linearized.guarded
      rw [free] at guarded
      have entered : Guarded Phase.Inside (Function.update threads.phase thread
          (.inside request (calls.body request))) (some thread) := guarded.enter trivial
      have state := linearized.free free
      exact reaches (by rw [here]; rfl) unannounced entered stays (once request)
        (congrArg (calls.body request).alone state) (fun _ => congrArg view state)
  | @giveUp thread request result here gone =>
      have unannounced : threads.announced view thread = none := announced_of_phase here
      have asked : (threads.phase thread).request? = some request := by rw [here]; rfl
      have given : calls.alone request serial = .ok (serial, result) := by
        rw [Calls.alone, gone]
      refine ⟨serial, linearized.outside (by rw [here]; exact id) id,
        .takes asked unannounced ?_ rfl given⟩
      rw [Action.thread, Threads.become, Threads.announced_goto]
      rfl
  | @advance thread request effect next here =>
      have held := (linearized.guarded thread).mp (by rw [here]; trivial)
      obtain ⟨stays, changes, holds⟩ := linearized.inside thread request _ here
      have guarded : Guarded Phase.Inside (Function.update threads.phase thread
          (.inside request (next threads.state))) threads.holder :=
        linearized.guarded.stay (by rw [here]; exact Iff.rfl)
      rw [held] at guarded ⊢
      have announced : threads.announced view thread =
          ((Program.step effect next).settled view threads.state).map
            fun result => (request, result) := announced_of_phase here
      cases holds with
      | before unsettled same seen =>
          rw [unsettled, Option.map_none] at announced
          apply reaches (by rw [here]; rfl) announced guarded stays (changes.next _) same
          intro later
          exact (Program.unsettled_step changes later).trans seen
      | @after result settled ended =>
          have later := Program.settled_step settled
          refine ⟨serial, holding guarded stays (changes.next _) (.after later ended),
            .quiet ?_ rfl rfl⟩
          rw [Action.thread, Threads.announced_goto, announced, Phase.announced, settled, later]
  | @unlock thread request result here =>
      have held := (linearized.guarded thread).mp (by rw [here]; trivial)
      obtain ⟨_, _, holds⟩ := linearized.inside thread request _ here
      have announced : threads.announced view thread = some (request, result) :=
        announced_of_phase here
      have guarded := linearized.guarded
      rw [held] at guarded
      have state : threads.state = serial := by
        cases holds with
        | before unsettled _ _ => cases unsettled
        | after _ ended =>
            cases ended
            rfl
      refine ⟨serial, released (guarded.leave id) state, .quiet ?_ rfl rfl⟩
      rw [Action.thread, announced, Threads.announced_goto]
      rfl
  | @respond thread request result here =>
      have announced : threads.announced view thread = some (request, result) :=
        announced_of_phase here
      refine ⟨serial, linearized.outside (by rw [here]; exact id) id,
        .responds announced ?_ rfl rfl⟩
      rw [Action.thread, Threads.become, Threads.announced_goto]
      rfl

end Linearized

/-! ### Without interruption -/

def Action.Within (thread : Thread) : Action Thread Request → Prop
  | .lock other => other = thread
  | .giveUp other => other = thread
  | .advance other => other = thread
  | .unlock other => other = thread
  | .invoke _ _ => False
  | .respond _ => False

abbrev ThreadsStep (Thread State Fault Request Result : Type) :=
  Transition (Threads Thread State Fault Request Result)
    (Action Thread Request × Option (Request × Result))

def Uninterrupted (thread : Thread)
    (steps : List (ThreadsStep Thread State Fault Request Result)) : Prop :=
  ∀ taken, taken ∈ steps → taken.label.1.Within thread ∧ taken.label.2 = none

omit [DecidableEq Thread] in
theorem Uninterrupted.append {thread : Thread}
    {first second : List (ThreadsStep Thread State Fault Request Result)}
    (earlier : Uninterrupted thread first) (later : Uninterrupted thread second) :
    Uninterrupted thread (first ++ second) := by
  intro taken member
  rcases List.mem_append.mp member with before | after
  · exact earlier taken before
  · exact later taken after

omit [DecidableEq Thread] in
theorem Uninterrupted.single {thread : Thread}
    {before after : Threads Thread State Fault Request Result} {action : Action Thread Request}
    (within : action.Within thread) : Uninterrupted thread [⟨before, (action, none), after⟩] := by
  intro taken member
  rw [List.mem_singleton.mp member]
  exact ⟨within, rfl⟩

theorem Threads.run_of_reaches (calls : Calls State Fault Request Result)
    (threads : Threads Thread State Fault Request Result) (thread : Thread) (request : Request)
    {program left : Program State Fault Result} {state last : State}
    (reaches : program.Reaches state left last) :
    ∃ steps, Run (Succeeds (Threads.step calls))
        (threads.goto thread (.inside request program) state (some thread)) steps
        (threads.goto thread (.inside request left) last (some thread)) ∧
      Uninterrupted thread steps := by
  induction reaches with
  | here => exact ⟨[], .start, by intro taken member; cases member⟩
  | @step effect next state last left later ih =>
      have advances : Succeeds (Threads.step calls)
          (threads.goto thread (.inside request (.step effect next)) state (some thread))
          (.advance thread, none)
          (threads.goto thread (.inside request (next state)) (effect state) (some thread)) := by
        simp only [Succeeds, Threads.step, Threads.goto, Function.update_self,
          Function.update_idem]
      obtain ⟨steps, run, own⟩ := ih
      exact ⟨_, (Run.start.extend advances).append run, Uninterrupted.append (.single rfl) own⟩

theorem Threads.finishes (calls : Calls State Fault Request Result)
    (threads : Threads Thread State Fault Request Result) (thread : Thread) (request : Request)
    {program : Program State Fault Result} {state last : State} {result : Result}
    (ended : program.alone state = .ok (last, result)) :
    ∃ steps, Run (Succeeds (Threads.step calls))
        (threads.goto thread (.inside request program) state (some thread)) steps
        (threads.goto thread (.done request result) last none) ∧
      Uninterrupted thread steps := by
  have unlocks : Succeeds (Threads.step calls)
      (threads.goto thread (.inside request (.finish result)) last (some thread))
      (.unlock thread, none) (threads.goto thread (.done request result) last none) := by
    simp only [Succeeds, Threads.step, Threads.goto, Function.update_self, Function.update_idem]
  obtain ⟨steps, run, own⟩ :=
    Threads.run_of_reaches calls threads thread request (Program.reaches_finish ended)
  exact ⟨_, run.extend unlocks, own.append (.single rfl)⟩

theorem Threads.locks {calls : Calls State Fault Request Result}
    (threads : Threads Thread State Fault Request Result) (thread : Thread) {request : Request}
    (state : State) (stays : calls.givesUp request = none) :
    Succeeds (Threads.step calls) (threads.goto thread (.waiting request) state none)
      (.lock thread, none)
      (threads.goto thread (.inside request (calls.body request)) state (some thread)) := by
  simp only [Succeeds, Threads.step, Threads.goto, Function.update_self, Function.update_idem,
    stays, Option.isSome_none, Bool.false_eq_true, if_false]

theorem Threads.completes (calls : Calls State Fault Request Result)
    (threads : Threads Thread State Fault Request Result) (thread : Thread) (request : Request)
    {state last : State} {result : Result}
    (alone : calls.alone request state = .ok (last, result)) :
    ∃ steps, Run (Succeeds (Threads.step calls))
        (threads.goto thread (.waiting request) state none) steps
        (threads.goto thread (.done request result) last none) ∧
      Uninterrupted thread steps := by
  unfold Calls.alone at alone
  cases gone : calls.givesUp request with
  | some given =>
      rw [gone] at alone
      cases alone
      have gives : Succeeds (Threads.step calls)
          (threads.goto thread (.waiting request) state none) (.giveUp thread, none)
          (threads.goto thread (.done request result) state none) := by
        simp only [Succeeds, Threads.step, Threads.goto, Threads.become, Function.update_self,
          Function.update_idem, gone]
      exact ⟨_, Run.start.extend gives, .single rfl⟩
  | none =>
      rw [gone] at alone
      obtain ⟨steps, run, own⟩ := Threads.finishes calls threads thread request alone
      exact ⟨_, (Run.start.extend (Threads.locks threads thread state gone)).append run,
        Uninterrupted.append (.single rfl) own⟩

end

end Monitor
