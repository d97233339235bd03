/-
No interleaving of calls faults, and the lock is always given back.

A step of the interleaved kernel could fault in the middle of a program, at a
moment that no run of the atomic driver knows.  It does not: a program under
the lock runs on to what its call comes to in the atomic driver, and that does
not fault while nothing empty is written.
-/

import Aesd.Driver.Linearization

namespace Aesd.Driver

open Execution
open Monitor

def KernelAction.Nonempty : KernelAction → Prop
  | .invoke _ call => call.Nonempty
  | .proceed _ _ => True

instance : (call : Call) → Decidable call.Nonempty
  | .write _ _ buff _ => inferInstanceAs (Decidable (buff ≠ []))
  | .openFile _ => .isTrue trivial
  | .read _ _ _ => .isTrue trivial
  | .lseek _ _ _ => .isTrue trivial
  | .release _ _ => .isTrue trivial

instance : (action : KernelAction) → Decidable action.Nonempty
  | .invoke _ call => inferInstanceAs (Decidable call.Nonempty)
  | .proceed _ _ => .isTrue trivial

def Concurrent.AsksNonempty (state : Concurrent) : Prop :=
  ∀ process transfer, (state.threads.phase process).request? = some transfer →
    transfer.call.Nonempty

theorem Concurrent.asksNonempty_step {kernel : Kernel} {taken : ConcurrentStep}
    (asks : taken.before.AsksNonempty) (nonempty : taken.label.1.Nonempty)
    (stepped : Succeeds (Concurrent.step kernel) taken.before taken.label taken.after) :
    taken.after.AsksNonempty := by
  obtain ⟨before, ⟨action, output⟩, after⟩ := taken
  intro process transfer asked
  cases action with
  | invoke acting call =>
      simp only [Succeeds, Concurrent.step] at stepped
      split at stepped
      · rename_i idle
        split at stepped
        · rename_i other found
          cases stepped
          dsimp only [Threads.become, Threads.goto] at asked
          by_cases mine : process = acting
          · rw [mine, Function.update_self] at asked
            cases asked
            rw [(System.transfer?_eq_some found).1]
            exact nonempty
          · rw [Function.update_of_ne mine] at asked
            exact asks process transfer asked
        · split at stepped
          · cases stepped
          · cases stepped
            exact asks process transfer asked
      · cases stepped
  | proceed acting step =>
      simp only [Succeeds, Concurrent.step] at stepped
      split at stepped
      · cases stepped
      · rename_i threads moved
        cases stepped
        exact asks process transfer (asked_before (Threads.step_moves moved)
          (LockStep.action_within acting step) asked).2
      · rename_i threads other result moved
        cases stepped
        exact asks process transfer (asked_before (Threads.step_moves moved)
          (LockStep.action_within acting step) asked).2

section

variable {kernel : Kernel} {owner : Nat → Nat} {state : Concurrent} {system : System}
  {log : CommandLog} {process : Nat}

theorem lockedCalls_returns {device : Device} (rep : device.Represents kernel log)
    {transfer : Transfer} (nonempty : transfer.call.Nonempty) :
    ∃ after result, (lockedCalls kernel).alone transfer device = .ok (after, result) := by
  cases transfer with
  | write file env buff fits fPos =>
      obtain ⟨result, written⟩ := rep.aesdWrite_returns env fPos fits nonempty
      rw [lockedCalls_write, written]
      exact ⟨_, _, rfl⟩
  | read file env count fPos =>
      obtain ⟨result, done⟩ := rep.aesdRead_returns env count fPos
      rw [lockedCalls_read, done]
      exact ⟨_, _, rfl⟩

theorem Related.inside_returns (related : Related kernel owner state system)
    (rep : system.device.Represents kernel log) (asks : state.AsksNonempty)
    {transfer : Transfer} {program : DeviceProgram CallResult}
    (inside : state.threads.phase process = .inside transfer program) :
    ∃ after result, program.alone state.threads.state = .ok (after, result) := by
  obtain ⟨stays, _, held⟩ := related.linearized.inside process transfer program inside
  cases held with
  | after _ ended => exact ⟨_, _, ended⟩
  | before _ same _ =>
      have nonempty := asks process transfer (by rw [inside]; rfl)
      obtain ⟨after, result, alone⟩ := lockedCalls_returns rep nonempty
      rw [Calls.alone_of_stays stays] at alone
      exact ⟨after, result, same.trans alone⟩

theorem System.step_fault_release {call : Call} {fault : Fault}
    (outside : system.transfer? call = none)
    (faulted : system.step kernel call = .error fault) :
    ∃ file granted, call = .release file granted ∧
      aesdRelease kernel granted system.device = .error fault := by
  cases call with
  | openFile file =>
      simp only [System.step] at faulted
      split at faulted <;> cases faulted
  | lseek file off whence =>
      simp only [System.step] at faulted
      split at faulted <;> cases faulted
  | write file env buff fits =>
      simp only [System.step] at faulted
      split at faulted
      · cases faulted
      · rename_i fPos opened
        split at faulted
        · rename_i verified
          simp only [System.transfer?, opened, if_pos verified] at outside
          cases outside
        · cases faulted
  | read file env count =>
      simp only [System.step] at faulted
      split at faulted
      · cases faulted
      · rename_i fPos opened
        split at faulted
        · rename_i verified
          simp only [System.transfer?, opened, if_pos verified] at outside
          cases outside
        · cases faulted
  | release file granted =>
      refine ⟨file, granted, rfl, ?_⟩
      simp only [System.step] at faulted
      split at faulted
      · cases faulted
      · split at faulted
        · rename_i released
          cases faulted
          exact released
        · cases faulted

theorem Related.never_faults (related : Related kernel owner state system)
    (rep : system.device.Represents kernel log) (asks : state.AsksNonempty)
    {action : KernelAction} (permitted : state.Permits owner action) (fault : Fault) :
    state.step kernel action ≠ .error (.faulted fault) := by
  intro faulted
  cases action with
  | invoke acting call =>
      simp only [Concurrent.step] at faulted
      split at faulted
      · split at faulted
        · cases faulted
        · rename_i outside
          split at faulted
          · rename_i found stepped
            cases faulted
            obtain ⟨file, granted, same, dumped⟩ := System.step_fault_release outside stepped
            have free : state.threads.holder = none := permitted.2 (by rw [same]; trivial)
            obtain ⟨memory, released, _⟩ := rep.aesdRelease_quiet granted
            have device : state.system.device = system.device := related.linearized.free free
            rw [device, released] at dumped
            cases dumped
          · cases faulted
      · cases faulted
  | proceed acting step =>
      have failing : state.threads.step (lockedCalls kernel) (step.action acting) =
          .error (.faulted fault) := by
        simp only [Concurrent.step] at faulted
        split at faulted
        · rename_i refused
          cases faulted
          exact refused
        · cases faulted
        · cases faulted
      obtain ⟨transfer, inside⟩ := Threads.step_faulted failing
      obtain ⟨after, result, ended⟩ := related.inside_returns rep asks inside
      cases ended

theorem LockStep.of_within {action : Action Nat Transfer} (within : action.Within process) :
    ∃ step : LockStep, step.action process = action := by
  cases action with
  | invoke _ _ => exact within.elim
  | respond _ => exact within.elim
  | lock other => exact ⟨.lock, by rw [LockStep.action, within]⟩
  | giveUp other => exact ⟨.giveUp, by rw [LockStep.action, within]⟩
  | advance other => exact ⟨.advance, by rw [LockStep.action, within]⟩
  | unlock other => exact ⟨.unlock, by rw [LockStep.action, within]⟩

theorem Concurrent.proceeds (files : Nat → Option Int)
    {threads last : Threads Nat Device Fault Transfer CallResult}
    {steps : List (ThreadsStep Nat Device Fault Transfer CallResult)}
    (run : Run (Succeeds (Threads.step (lockedCalls kernel))) threads steps last)
    (own : Uninterrupted process steps) :
    ∃ more, Run (Succeeds (Concurrent.step kernel)) { threads := threads, files := files } more
        { threads := last, files := files } ∧
      ∀ taken, taken ∈ more → ∃ step, taken.label.1 = .proceed process step := by
  induction run with
  | start => exact ⟨[], .start, by intro taken member; cases member⟩
  | @extend steps current next label earlier taken ih =>
      obtain ⟨more, reached, mine⟩ := ih fun other member =>
        own other (List.mem_append_left _ member)
      obtain ⟨within, silent⟩ := own ⟨current, label, next⟩
        (List.mem_append_right _ (List.mem_singleton_self _))
      obtain ⟨step, same⟩ := LockStep.of_within within
      have moved : current.step (lockedCalls kernel) (step.action process) =
          .ok (next, none) := by
        rw [same, ← silent]
        exact taken
      have stepped : Succeeds (Concurrent.step kernel) { threads := current, files := files }
          (.proceed process step, none) { threads := next, files := files } := by
        simp only [Succeeds, Concurrent.step, moved]
      refine ⟨_, reached.extend stepped, ?_⟩
      intro other member
      rcases List.mem_append.mp member with old | new
      · exact mine other old
      · rw [List.mem_singleton.mp new]
        exact ⟨step, rfl⟩

theorem Related.gives_back (related : Related kernel owner state system)
    (rep : system.device.Represents kernel log) (asks : state.AsksNonempty)
    (holds : state.threads.holder = some process) :
    ∃ more after, Run (Succeeds (Concurrent.step kernel)) state more after ∧
      after.threads.holder = none ∧
      ∀ taken, taken ∈ more → ∃ step, taken.label.1 = .proceed process step := by
  obtain ⟨transfer, program, inside⟩ := related.linearized.inside_of_holder holds
  obtain ⟨device, result, ended⟩ := related.inside_returns rep asks inside
  obtain ⟨steps, run, own⟩ :=
    Threads.finishes (lockedCalls kernel) state.threads process transfer ended
  have here : state.threads.goto process (.inside transfer program) state.threads.state
      (some process) = state.threads := by
    unfold Threads.goto
    rw [← inside, Function.update_eq_self, ← holds]
  rw [here] at run
  obtain ⟨more, reached, mine⟩ := Concurrent.proceeds state.files run own
  exact ⟨more, _, reached, rfl, mine⟩

end

theorem ConcurrentRun.asksNonempty {kernel : Kernel} {boot : InitEnv}
    {steps : List ConcurrentStep} {final : Concurrent}
    (run : ConcurrentRun kernel boot steps final)
    (nonempty : ∀ taken, taken ∈ steps → taken.label.1.Nonempty) : final.AsksNonempty :=
  (run.throughout_of_allowed (fun taken => taken.label.1.Nonempty) Concurrent.AsksNonempty
    (by intro process transfer asked; cases asked)
    (fun _ asks nonempty stepped => Concurrent.asksNonempty_step asks nonempty stepped)
    nonempty).1

theorem ConcurrentRun.related {kernel : Kernel} {boot : InitEnv} {owner : Nat → Nat}
    {steps : List ConcurrentStep} {final : Concurrent}
    (loaded : (aesdInitModule kernel boot).retval = 0)
    (run : ConcurrentRun kernel boot steps final)
    (permitted : ∀ taken, taken ∈ steps → taken.before.Permits owner taken.label.1) :
    ∃ system log, Related kernel owner final system ∧ system.device.Represents kernel log := by
  obtain ⟨serial, system, reached, _, related⟩ :=
    run.simulated (linearization kernel owner) (Related.loaded kernel boot owner) permitted
  obtain ⟨rep, _⟩ := DriverRun.represents loaded reached
  exact ⟨system, _, related, rep⟩

/-- In every interleaving of nonempty calls that keeps each file to one process and
closes none while the lock is held, no further such step faults, and the process
that holds the lock can give it back without the help of any other. -/
theorem interleaved_calls_safe (kernel : Kernel) (boot : InitEnv) (owner : Nat → Nat)
    (steps : List ConcurrentStep) (final : Concurrent)
    (loaded : (aesdInitModule kernel boot).retval = 0)
    (run : ConcurrentRun kernel boot steps final)
    (permitted : ∀ taken, taken ∈ steps → taken.before.Permits owner taken.label.1)
    (nonempty : ∀ taken, taken ∈ steps → taken.label.1.Nonempty) :
    (∀ action, final.Permits owner action →
      ∀ fault, final.step kernel action ≠ .error (.faulted fault)) ∧
    ∀ process, final.threads.holder = some process →
      ∃ more after, Run (Succeeds (Concurrent.step kernel)) final more after ∧
        after.threads.holder = none ∧
        ∀ taken, taken ∈ more → ∃ step, taken.label.1 = .proceed process step := by
  obtain ⟨system, log, related, rep⟩ := ConcurrentRun.related loaded run permitted
  have asks := ConcurrentRun.asksNonempty run nonempty
  exact ⟨fun action allowed fault => related.never_faults rep asks allowed fault,
    fun process holds => related.gives_back rep asks holds⟩

/-- Process 0 is in the middle of its write when process 1 has its answer. -/
theorem interleaved_calls_safe_seek_during_write :
    ∃ steps final more after, ConcurrentRun commonKernel plainBoot steps final ∧
      final.threads.holder = some 0 ∧
      Run (Succeeds (Concurrent.step commonKernel)) final more after ∧
      after.threads.holder = none := by
  obtain ⟨steps, final, run, seen⟩ := execute_observe (Concurrent.step commonKernel)
    (Concurrent.loaded commonKernel plainBoot) (seekDuringWrite (by decide))
    (fun steps final => decide (
      (∀ taken, taken ∈ steps → taken.before.Permits id taken.label.1) ∧
      (∀ taken, taken ∈ steps → taken.label.1.Nonempty) ∧ final.threads.holder = some 0))
    true (by decide +kernel)
  obtain ⟨permitted, nonempty, held⟩ := of_decide_eq_true seen
  obtain ⟨more, after, finishes, free, _⟩ := (interleaved_calls_safe commonKernel plainBoot id steps
    final (by decide) run permitted nonempty).2 0 held
  exact ⟨steps, final, more, after, run, held, finishes, free⟩

end Aesd.Driver
