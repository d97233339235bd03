/-
The server threads with the file mutex between them.

Any number of threads take steps in any order, and main may raise the flag
between any two of them.  The threads of a process share one mutex of the
default kind, which does not ask who unlocks it.
-/

import Aesd.Library.Execution
import Aesd.Server.ThreadSteps

namespace Aesd.Server

open CharBuffer
open Execution
open Mutex

variable {World : Type}

/-! ### Any number of threads -/

structure Process (World : Type) where
  shared : Shared World
  threads : Nat → Thread

inductive Action (World : Type) where
  | terminate
  | thread (self : Nat) (env : StepEnv World)

def Process.step (kind : Kind Nat) (platform : Platform) (process : Process World) :
    Action World → Except Refusal (Process World × PassOutput)
  | .terminate =>
      .ok ({ process with
             shared := { process.shared with sigThreadTerminateFlag := true } }, .quiet)
  | .thread self env =>
      match (process.threads self).step kind platform self env process.shared with
      | .error refusal => .error refusal
      | .ok (thread, shared, output) =>
          .ok ({ shared := shared
                 threads := Function.update process.threads self thread }, output)

def Process.start (file : World) : Process World :=
  { shared := { sigThreadTerminateFlag := false, fileMutex := none, file := file }
    threads := fun _ => { point := .top, state := .start } }

abbrev ProcessStep (World : Type) := Transition (Process World) (Action World × PassOutput)

abbrev ProcessRun (platform : Platform) (file : World) :
    List (ProcessStep World) → Process World → Prop :=
  Run (Succeeds (Process.step Kind.normal platform)) (.start file)

/-! ### Regions of the loop -/

/-- From a successful lock to the call that unlocks. -/
def Point.holdsMutex : Point → Bool
  | .opening | .writing | .reading | .closing | .unlocking | .unlockRetry => true
  | _ => false

def Point.insideFile : Point → Bool
  | .writing | .reading | .closing => true
  | _ => false

def Point.unlocks : Point → Bool
  | .unlocking | .unlockRetry | .leaving => true
  | _ => false

theorem Point.holdsMutex_of_insideFile {point : Point} (inside : point.insideFile = true) :
    point.holdsMutex = true := by
  cases point <;> first | rfl | cases inside

def Thread.Holds (thread : Thread) : Prop :=
  thread.point.holdsMutex = true

inductive Move (self : Nat) (flag : Bool) (before after : Thread)
    (holder next : Option Nat) : Prop where
  | enters (notUnlocking : before.point.unlocks = false) (notLeaving : after.point ≠ .leaving)
      (free : holder = none) (holds : after.Holds) (taken : next = some self)
  | leaves (held : before.Holds) (notLeaving : after.point ≠ .leaving)
      (done : ¬after.Holds) (freed : next = none)
  | shutdown (leaving : before.point = .leaving) (notLeaving : after.point ≠ .leaving)
      (freed : next = none)
  | elsewhere (notUnlocking : before.point.unlocks = false)
      (checked : after.point = .leaving → before.point = .top ∧ flag = true)
      (same : after.Holds ↔ before.Holds) (kept : next = holder)

section

variable {platform : Platform} {self : Nat} {env : StepEnv World} {before after : Thread}
  {shared next : Shared World} {output : PassOutput}

theorem Thread.step_move
    (taken : before.step Kind.normal platform self env shared = .ok (after, next, output)) :
    Move self shared.sigThreadTerminateFlag before after shared.fileMutex next.fileMutex := by
  obtain ⟨point, state⟩ := before
  cases Thread.step_taken taken with
  | seesFlag raised => exact .elsewhere rfl (fun _ => ⟨rfl, raised⟩) Iff.rfl rfl
  | continues _ => exact .elsewhere rfl (fun leaving => nomatch leaving) Iff.rfl rfl
  | closed _ => exact .elsewhere rfl (fun leaving => nomatch leaving) Iff.rfl rfl
  | builds _ => exact .elsewhere rfl (fun leaving => nomatch leaving) Iff.rfl rfl
  | locks free => exact .enters rfl (fun leaving => nomatch leaving) free rfl rfl
  | retryLocks free => exact .enters rfl (fun leaving => nomatch leaving) free rfl rfl
  | opens _ => exact .elsewhere rfl (fun leaving => nomatch leaving) Iff.rfl rfl
  | writes _ _ => exact .elsewhere rfl (fun leaving => nomatch leaving) Iff.rfl rfl
  | reads _ => exact .elsewhere rfl (fun leaving => nomatch leaving) Iff.rfl rfl
  | closes _ => exact .elsewhere rfl (fun leaving => nomatch leaving) Iff.rfl rfl
  | unlocks =>
      exact .leaves rfl (fun leaving => nomatch leaving) (fun holds => nomatch holds) rfl
  | retryUnlocks =>
      exact .leaves rfl (fun leaving => nomatch leaving) (fun holds => nomatch holds) rfl
  | sends _ => exact .elsewhere rfl (fun leaving => nomatch leaving) Iff.rfl rfl
  | finishes => exact .shutdown rfl (fun leaving => nomatch leaving) rfl

end

/-! ### Exclusion -/

def Process.AtMostOneInside (process : Process World) : Prop :=
  ∀ first second, (process.threads first).point.insideFile = true →
    (process.threads second).point.insideFile = true → first = second

def Process.calls (process : Process World) : Action World → Option Point
  | .terminate => none
  | .thread self _ => some (process.threads self).point

/-- A thread that calls `pthread_mutex_unlock` holds the mutex. -/
def UnlocksHeld (taken : ProcessStep World) : Prop :=
  ∀ self env, taken.label.1 = .thread self env →
    (taken.before.threads self).point.unlocks = true →
      taken.before.shared.fileMutex = some self

def ShutdownUnlock (taken : ProcessStep World) : Prop :=
  taken.before.calls taken.label.1 = some .leaving

instance (taken : ProcessStep World) : Decidable (ShutdownUnlock taken) :=
  inferInstanceAs (Decidable (_ = _))

def SeesFlag (taken : ProcessStep World) : Prop :=
  taken.before.calls taken.label.1 = some .top ∧
    taken.before.shared.sigThreadTerminateFlag = true

structure MutexRespected (steps : List (ProcessStep World)) (final : Process World) : Prop where
  exclusive : Throughout Process.AtMostOneInside steps final
  unlocksHeld : ∀ taken, taken ∈ steps → UnlocksHeld taken

def Process.Guarded (process : Process World) : Prop :=
  Mutex.Guarded Thread.Holds process.threads process.shared.fileMutex

def Process.NoneLeaving (process : Process World) : Prop :=
  ∀ self, (process.threads self).point ≠ .leaving

section

variable {platform : Platform} {taken : ProcessStep World}

theorem Process.calls_thread {process : Process World} {action : Action World} {self : Nat}
    {env : StepEnv World} (acts : action = .thread self env) :
    process.calls action = some (process.threads self).point := by
  rw [acts]
  rfl

theorem Process.exists_of_calls {process : Process World} {action : Action World} {point : Point}
    (calls : process.calls action = some point) :
    ∃ self env, action = .thread self env ∧ (process.threads self).point = point := by
  cases action with
  | terminate => cases calls
  | thread self env => exact ⟨self, env, rfl, Option.some.inj calls⟩

theorem Process.step_cases
    (step : Succeeds (Process.step Kind.normal platform) taken.before taken.label taken.after) :
    (taken.after.threads = taken.before.threads ∧
        taken.after.shared.fileMutex = taken.before.shared.fileMutex ∧
        taken.label.1 = .terminate) ∨
      ∃ self env thread, taken.label.1 = .thread self env ∧
        taken.after.threads = Function.update taken.before.threads self thread ∧
        Move self taken.before.shared.sigThreadTerminateFlag (taken.before.threads self) thread
          taken.before.shared.fileMutex taken.after.shared.fileMutex := by
  obtain ⟨before, ⟨action, output⟩, after⟩ := taken
  cases action with
  | terminate =>
      simp only [Succeeds, Process.step] at step
      cases step
      exact .inl ⟨rfl, rfl, rfl⟩
  | thread self env =>
      simp only [Succeeds, Process.step] at step
      split at step
      · cases step
      · rename_i thread shared printed outcome
        cases step
        exact .inr ⟨self, env, thread, rfl, rfl, Thread.step_move outcome⟩

theorem Process.guarded_step (guarded : taken.before.Guarded) (kept : ¬ShutdownUnlock taken)
    (step : Succeeds (Process.step Kind.normal platform) taken.before taken.label taken.after) :
    taken.after.Guarded := by
  unfold Process.Guarded at guarded ⊢
  rcases Process.step_cases step with ⟨threads, mutex, _⟩ | ⟨self, env, thread, acts, threads, move⟩
  · rw [threads, mutex]
    exact guarded
  · rw [threads]
    cases move with
    | enters _ _ free holds next =>
        rw [free] at guarded
        rw [next]
        exact guarded.enter holds
    | leaves held _ done next =>
        rw [(guarded self).mp held] at guarded
        rw [next]
        exact guarded.leave done
    | shutdown leaving _ _ =>
        exact absurd ((Process.calls_thread acts).trans (congrArg some leaving)) kept
    | elsewhere _ _ same next =>
        rw [next]
        exact guarded.stay same

theorem Process.noneLeaving_step (none : taken.before.NoneLeaving) (blind : ¬SeesFlag taken)
    (step : Succeeds (Process.step Kind.normal platform) taken.before taken.label taken.after) :
    taken.after.NoneLeaving := by
  intro other
  rcases Process.step_cases step with ⟨threads, _, _⟩ | ⟨self, env, thread, acts, threads, move⟩
  · rw [threads]
    exact none other
  · rw [threads]
    by_cases moved : other = self
    · subst moved
      rw [Function.update_self]
      cases move with
      | enters _ notLeaving _ _ _ => exact notLeaving
      | leaves _ notLeaving _ _ => exact notLeaving
      | shutdown _ notLeaving _ => exact notLeaving
      | elsewhere _ checked _ _ =>
          intro leaving
          obtain ⟨atTop, raised⟩ := checked leaving
          exact blind ⟨(Process.calls_thread acts).trans (congrArg some atTop), raised⟩
    · rw [Function.update_of_ne moved]
      exact none other

theorem Process.Guarded.atMostOneInside {process : Process World} (guarded : process.Guarded) :
    process.AtMostOneInside := by
  intro first second firstInside secondInside
  exact guarded.unique (Point.holdsMutex_of_insideFile firstInside)
    (Point.holdsMutex_of_insideFile secondInside)

/-- While the threads in the region are the holder, only the shutdown branch
unlocks what its thread does not hold. -/
theorem unlocksHeld_iff (guarded : taken.before.Guarded) :
    UnlocksHeld taken ↔ ¬ShutdownUnlock taken := by
  constructor
  · intro unlocksHeld shutdown
    obtain ⟨self, env, acts, leaving⟩ := Process.exists_of_calls shutdown
    have holder := unlocksHeld self env acts (by rw [leaving]; rfl)
    have holds : (taken.before.threads self).point.holdsMutex = true :=
      (guarded self).mpr holder
    rw [leaving] at holds
    cases holds
  · intro kept self env acts unlocks
    apply (guarded self).mp
    unfold Thread.Holds
    cases point : (taken.before.threads self).point with
    | unlocking => rfl
    | unlockRetry => rfl
    | leaving =>
        exact absurd ((Process.calls_thread acts).trans (congrArg some point)) kept
    | top | receiving | locking | lockRetry | opening | writing | reading | closing | sending
    | finished =>
        rw [point] at unlocks
        cases unlocks

end

theorem Process.start_guarded (file : World) : (Process.start file).Guarded := by
  intro thread
  constructor
  · intro holds
    cases holds
  · intro holder
    cases holder

/-- The mutex does its work exactly until a thread executes the unlock of the
shutdown branch, which needs a check that finds the flag raised. -/
theorem mutex_respected_iff (platform : Platform) (file : World)
    (steps : List (ProcessStep World)) (final : Process World)
    (run : ProcessRun platform file steps final) :
    (MutexRespected steps final ↔ ∀ taken, taken ∈ steps → ¬ShutdownUnlock taken) ∧
      ((∀ taken, taken ∈ steps → ¬SeesFlag taken) → MutexRespected steps final) := by
  have agreed : (∀ taken, taken ∈ steps → UnlocksHeld taken) ↔
      ∀ taken, taken ∈ steps → ¬ShutdownUnlock taken := by
    apply run.all_steps_iff (fun taken => ¬ShutdownUnlock taken) UnlocksHeld Process.Guarded
      (Process.start_guarded file)
    · intro taken guarded kept step
      exact Process.guarded_step guarded kept step
    · intro taken guarded _
      exact unlocksHeld_iff guarded
  have respected : (∀ taken, taken ∈ steps → ¬ShutdownUnlock taken) →
      MutexRespected steps final := by
    intro kept
    have guarded := run.throughout_of_allowed (fun taken => ¬ShutdownUnlock taken)
      Process.Guarded (Process.start_guarded file)
      (fun taken before kept step => Process.guarded_step before kept step) kept
    exact ⟨guarded.imp fun _ => Process.Guarded.atMostOneInside, agreed.mpr kept⟩
  refine ⟨⟨fun fine => agreed.mp fine.unlocksHeld, respected⟩, ?_⟩
  intro blind
  have none := run.throughout_of_allowed (fun taken => ¬SeesFlag taken) Process.NoneLeaving
    (by intro self leaving; cases leaving)
    (fun taken before blind step => Process.noneLeaving_step before blind step) blind
  apply respected
  intro taken member shutdown
  obtain ⟨self, env, _, leaving⟩ := Process.exists_of_calls shutdown
  exact none.2 taken member self leaving

def plainFile : FileOps (List UInt8) :=
  { fopen := .ok
    fwrite := fun file record => .ok (file ++ record)
    fread := fun file => .ok (file, file)
    fclose := .ok }

def nextStep (self : Nat) : Action (List UInt8) :=
  .thread self { recv := .message [97, 10] (by decide), file := plainFile }

/-- The flag is raised while one thread is in the file and one waits. -/
theorem mutex_respected_two_threads :
    ∃ steps final, ProcessRun x86 ([] : List UInt8) steps final ∧
      final.shared.sigThreadTerminateFlag = true ∧ final.shared.file = [97, 10, 97, 10] ∧
      (final.threads 0).point = .top ∧ (final.threads 1).point = .closing ∧
      MutexRespected steps final := by
  obtain ⟨steps, final, run, seen⟩ := execute_observe (Process.step Kind.normal x86) (.start [])
    (([0, 0, 1, 1, 0, 0, 0].map nextStep) ++ [.terminate] ++
      ([0, 0, 0, 0, 1, 1, 1, 1].map nextStep))
    (fun steps final => decide (
      (∀ taken, taken ∈ steps → ¬ShutdownUnlock taken) ∧
      final.shared.sigThreadTerminateFlag = true ∧ final.shared.file = [97, 10, 97, 10] ∧
      (final.threads 0).point = .top ∧ (final.threads 1).point = .closing))
    true (by decide +kernel)
  obtain ⟨kept, raised, file, first, second⟩ := of_decide_eq_true seen
  exact ⟨steps, final, run, raised, file, first, second,
    (mutex_respected_iff x86 [] steps final run).1.mpr kept⟩

/-- Thread 0 is in the file, thread 1 waits for the mutex, the flag is raised,
thread 2 leaves and unlocks the mutex thread 0 holds, thread 1 enters. -/
theorem shutdown_lets_two_threads_inside :
    ∃ steps final, ProcessRun x86 ([] : List UInt8) steps final ∧
      (∃ taken, taken ∈ steps ∧ taken.before.calls taken.label.1 = some .leaving ∧
        taken.before.shared.fileMutex = some 0) ∧
      (final.threads 0).point = .writing ∧ (final.threads 1).point = .writing ∧
      ¬final.AtMostOneInside := by
  obtain ⟨steps, final, run, seen⟩ := execute_observe (Process.step Kind.normal x86) (.start [])
    (([0, 0, 0, 0, 1, 1].map nextStep) ++ [.terminate] ++ ([2, 2, 1, 1].map nextStep))
    (fun steps final => decide (
      (∃ taken, taken ∈ steps ∧ taken.before.calls taken.label.1 = some .leaving ∧
        taken.before.shared.fileMutex = some 0) ∧
      (final.threads 0).point = .writing ∧ (final.threads 1).point = .writing))
    true (by decide +kernel)
  obtain ⟨unlocked, first, second⟩ := of_decide_eq_true seen
  refine ⟨steps, final, run, unlocked, first, second, ?_⟩
  intro exclusive
  have same := exclusive 0 1 (by rw [first]; rfl) (by rw [second]; rfl)
  cases same

/-! ### A pass that no other thread disturbs -/

def FileOps.fileSection (file : FileOps World) (world : World) (record : List UInt8) :
    Except Stop (World × List UInt8) :=
  match file.fopen world with
  | .error stop => .error stop
  | .ok world =>
      match file.fwrite world record with
      | .error stop => .error stop
      | .ok world =>
          match file.fread world with
          | .error stop => .error stop
          | .ok (world, content) =>
              match file.fclose world with
              | .error stop => .error stop
              | .ok world => .ok (world, content)

def Process.withThread (process : Process World) (self : Nat) (thread : Thread)
    (shared : Shared World) : Process World :=
  { shared := shared, threads := Function.update process.threads self thread }

theorem Process.withThread_step {platform : Platform} {process : Process World} {self : Nat}
    {env : StepEnv World} {thread next : Thread} {shared after : Shared World}
    {output : PassOutput}
    (taken : thread.step Kind.normal platform self env shared = .ok (next, after, output)) :
    Succeeds (Process.step Kind.normal platform) (process.withThread self thread shared)
      (.thread self env, output) (process.withThread self next after) := by
  unfold Succeeds Process.step Process.withThread
  simp only [Function.update_self, taken, Function.update_idem]

theorem FileOps.fileSection_ok {file : FileOps World} {world last : World}
    {record content : List UInt8}
    (ended : file.fileSection world record = .ok (last, content)) :
    ∃ opened written read, file.fopen world = .ok opened ∧ file.fwrite opened record = .ok written ∧
      file.fread written = .ok (read, content) ∧ file.fclose read = .ok last := by
  unfold FileOps.fileSection at ended
  cases opening : file.fopen world with
  | error stop =>
      simp only [opening] at ended
      cases ended
  | ok opened =>
      simp only [opening] at ended
      cases writing : file.fwrite opened record with
      | error stop =>
          simp only [writing] at ended
          cases ended
      | ok written =>
          simp only [writing] at ended
          cases reading : file.fread written with
          | error stop =>
              simp only [reading] at ended
              cases ended
          | ok result =>
              obtain ⟨read, found⟩ := result
              simp only [reading] at ended
              cases closing : file.fclose read with
              | error stop =>
                  simp only [closing] at ended
                  cases ended
              | ok closed =>
                  simp only [closing] at ended
                  cases ended
                  exact ⟨opened, written, read, rfl, writing, reading, closing⟩

section

variable {platform : Platform} {process : Process World} {self : Nat} {file : FileOps World}
  {pass : Pass World} {next : ThreadState} {world : World} {output : PassOutput}

private theorem fileSection_run (platform : Platform) (process : Process World) (self : Nat)
    (flag : Bool) {state : ThreadState} {before last : World} {record content : List UInt8}
    (env : StepEnv World)
    (holds : state.fileBuffer.string = some record)
    (ended : env.file.fileSection before record = .ok (last, content)) :
    ∃ steps, Run (Succeeds (Process.step Kind.normal platform))
        (process.withThread self { point := .opening, state := state } ⟨flag, some self, before⟩)
        steps
        (process.withThread self
          { point := .unlocking, state := { state with k := 0 }.withContent content }
          ⟨flag, some self, last⟩) ∧
      steps.filterMap (fun taken => taken.label.2.written) = [record] := by
  obtain ⟨opened, written, read, opening, writing, reading, closing⟩ :=
    FileOps.fileSection_ok ended
  have opens : Thread.step Kind.normal platform self env
      { point := .opening, state := state } ⟨flag, some self, before⟩ =
      .ok ({ point := .writing, state := { state with k := 0 } },
        ⟨flag, some self, opened⟩, .quiet) := by
    simp only [Thread.step, opening]
  have writes : Thread.step Kind.normal platform self env
      { point := .writing, state := { state with k := 0 } } ⟨flag, some self, opened⟩ =
      .ok ({ point := .reading, state := { state with k := 0 } },
        ⟨flag, some self, written⟩, { written := some record, reply := .silent }) := by
    simp only [Thread.step, holds, writing, Thread.goto]
  have reads : Thread.step Kind.normal platform self env
      { point := .reading, state := { state with k := 0 } } ⟨flag, some self, written⟩ =
      .ok ({ point := .closing, state := { state with k := 0 }.withContent content },
        ⟨flag, some self, read⟩, .quiet) := by
    simp only [Thread.step, reading]
  have closes : Thread.step Kind.normal platform self env
      { point := .closing, state := { state with k := 0 }.withContent content }
      ⟨flag, some self, read⟩ =
      .ok ({ point := .unlocking, state := { state with k := 0 }.withContent content },
        ⟨flag, some self, last⟩, .quiet) := by
    simp only [Thread.step, closing, Thread.goto]
  exact ⟨_, (((Run.start.extend (Process.withThread_step opens)).extend
    (Process.withThread_step writes)).extend (Process.withThread_step reads)).extend
    (Process.withThread_step closes), rfl⟩

private theorem processMessage_ok {state : ThreadState} {before : World} {received : List UInt8}
    (locks : pass.lockSucceeds 0 = true) (unlocks : pass.unlockSucceeds 0 = true)
    (passed : processMessage platform pass state before received =
      .ok (some next, world, output)) :
    ∃ built record content, state.buildRecord platform received = some built ∧
      built.fileBuffer.string = some record ∧
      pass.fileSection before record = .ok (world, content) ∧
      next = ({ built with k := 0 }.withContent content).reply.1 ∧
      output =
        { written := some record
          reply := ({ built with k := 0 }.withContent content).reply.2 } := by
  have locked : ∀ k, callMutex pass.lockSucceeds k = (true, k) := by
    intro k
    unfold callMutex
    rw [if_pos locks]
  have unlocked : callMutex pass.unlockSucceeds 0 = (true, 0) := by
    unfold callMutex
    rw [if_pos unlocks]
  unfold processMessage at passed
  cases building : state.buildRecord platform received with
  | none =>
      rw [building] at passed
      cases passed
  | some built =>
      simp only [building, locked, if_true, unlocked] at passed
      cases holding : built.fileBuffer.string with
      | none =>
          simp only [holding] at passed
          cases passed
      | some record =>
          simp only [holding] at passed
          cases ending : pass.fileSection before record with
          | error stop =>
              simp only [ending] at passed
              cases passed
          | ok result =>
              obtain ⟨last, content⟩ := result
              simp only [ending] at passed
              cases passed
              exact ⟨built, record, content, rfl, holding, ending, rfl, rfl⟩

private theorem processMessage_run (process : Process World) (self : Nat)
    (shared : Shared World) (free : shared.fileMutex = none) {state : ThreadState}
    {received : List UInt8} (env : StepEnv World) (returns : env.send = .returns)
    (sameSection : pass.fileSection = env.file.fileSection)
    (locks : pass.lockSucceeds 0 = true) (unlocks : pass.unlockSucceeds 0 = true)
    (brings : ∀ thread : Thread,
      thread.receive platform env.recv = thread.build platform received)
    (passed : processMessage platform pass state shared.file received =
      .ok (some next, world, output)) :
    ∃ steps last, Run (Succeeds (Process.step Kind.normal platform))
        (process.withThread self { point := .receiving, state := state } shared)
        (steps ++ [last])
        (process.withThread self { point := .top, state := next } { shared with file := world }) ∧
      steps.filterMap (fun taken => taken.label.2.written) = output.written.toList ∧
      last.label.2 = { written := none, reply := output.reply } := by
  obtain ⟨flag, mutex, before⟩ := shared
  cases free
  obtain ⟨built, record, content, building, holding, ending, rfl, rfl⟩ :=
    processMessage_ok locks unlocks passed
  rw [sameSection] at ending
  have receives : Thread.step Kind.normal platform self env
      { point := .receiving, state := state } ⟨flag, none, before⟩ =
      .ok ({ point := .locking, state := built }, ⟨flag, none, before⟩, .quiet) := by
    simp only [Thread.step, brings, Thread.build, building]
  have takes : Thread.step Kind.normal platform self env
      { point := .locking, state := built } ⟨flag, none, before⟩ =
      .ok ({ point := .opening, state := built }, ⟨flag, some self, before⟩, .quiet) := rfl
  have frees : ∀ state, Thread.step Kind.normal platform self env
      { point := .unlocking, state := state } ⟨flag, some self, world⟩ =
      .ok ({ point := .sending, state := state }, ⟨flag, none, world⟩, .quiet) :=
    fun _ => rfl
  have sends : ∀ state, Thread.step Kind.normal platform self env
      { point := .sending, state := state } ⟨flag, none, world⟩ =
      .ok ({ point := .top, state := state.reply.1 }, ⟨flag, none, world⟩,
        { written := none, reply := state.reply.2 }) := by
    intro state
    simp only [Thread.step, returns]
  obtain ⟨steps, inFile, wrote⟩ := fileSection_run platform process self flag env holding ending
  have run := ((((Run.start.extend (Process.withThread_step receives)).extend
    (Process.withThread_step takes)).append inFile).extend
    (Process.withThread_step (frees _))).extend (Process.withThread_step (sends _))
  refine ⟨_, _, run, ?_, rfl⟩
  rw [List.filterMap_append, List.filterMap_append, wrote]
  rfl

/-- A pass with a free mutex and no other thread in between does, step by step,
what `serverPass` does at once. -/
theorem serverPass_run (env : StepEnv World) (recv : pass.recv = env.recv)
    (returns : env.send = .returns) (sameSection : pass.fileSection = env.file.fileSection)
    (locks : pass.lockSucceeds 0 = true) (unlocks : pass.unlockSucceeds 0 = true)
    (flag : pass.sigThreadTerminateFlag = process.shared.sigThreadTerminateFlag)
    (free : process.shared.fileMutex = none) (atTop : (process.threads self).point = .top)
    (passed : serverPass platform pass (process.threads self).state process.shared.file =
      .ok (some next, world, output)) :
    ∃ steps last, Run (Succeeds (Process.step Kind.normal platform)) process (steps ++ [last])
        (process.withThread self { point := .top, state := next }
          { process.shared with file := world }) ∧
      steps.filterMap (fun taken => taken.label.2.written) = output.written.toList ∧
      last.label.2 = { written := none, reply := output.reply } := by
  have same : process.withThread self (process.threads self) process.shared = process := by
    unfold Process.withThread
    rw [Function.update_eq_self]
  unfold serverPass at passed
  cases raised : pass.sigThreadTerminateFlag with
  | true =>
      rw [raised, if_pos rfl] at passed
      cases passed
  | false =>
      rw [raised, if_neg Bool.false_ne_true] at passed
      have checks : (process.threads self).step Kind.normal platform self env process.shared =
          .ok ({ point := .receiving, state := (process.threads self).state }, process.shared,
            .quiet) := by
        simp only [Thread.step, atTop, ← flag, raised, Thread.goto]
        rfl
      have first : Succeeds (Process.step Kind.normal platform)
          (process.withThread self (process.threads self) process.shared)
          (.thread self env, .quiet)
          (process.withThread self
            { point := .receiving, state := (process.threads self).state } process.shared) :=
        Process.withThread_step checks
      rw [same] at first
      have checked := Run.start.extend first
      cases arrived : pass.recv with
      | closed =>
          rw [arrived] at passed
          cases passed
          have turns : Thread.step Kind.normal platform self env
              { point := .receiving, state := (process.threads self).state } process.shared =
              .ok ({ point := .top
                     state :=
                       { (process.threads self).state with
                         msg := .zeroed (process.threads self).state.msg.size } },
                process.shared, .quiet) := by
            simp only [Thread.step, ← recv, arrived, Thread.receive]
          exact ⟨_, _, checked.extend (Process.withThread_step turns), rfl, rfl⟩
      | error =>
          rw [arrived] at passed
          obtain ⟨steps, last, run, wrote, replied⟩ := processMessage_run process self
            process.shared free env returns sameSection locks unlocks
            (by intro thread; rw [← recv, arrived]; rfl) passed
          exact ⟨_ :: steps, last, checked.append run, wrote, replied⟩
      | message bytes fits =>
          rw [arrived] at passed
          obtain ⟨steps, last, run, wrote, replied⟩ := processMessage_run process self
            process.shared free env returns sameSection locks unlocks
            (by intro thread; rw [← recv, arrived]; rfl) passed
          exact ⟨_ :: steps, last, checked.append run, wrote, replied⟩

end

end Aesd.Server
