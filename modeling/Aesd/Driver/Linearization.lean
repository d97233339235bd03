/-
The interleaved calls are linearizable.

`Related` compares a state of the interleaved kernel with a state of the atomic
driver that has made exactly the calls that have taken effect.  The devices
agree while the lock is free; the size agrees always, so that a seek finds the
same.  The position of a file lags behind while a transfer that has taken effect
has not returned.
-/

import Aesd.Driver.Interleaving
import Aesd.Driver.WriteHistory

namespace Aesd.Driver

open Execution
open Monitor

structure Related (kernel : Kernel) (owner : Nat → Nat) (state : Concurrent)
    (system : System) : Prop where
  linearized : Linearized Device.buffSize (lockedCalls kernel) state.threads system.device
  asked : ∀ process transfer, (state.threads.phase process).request? = some transfer →
    owner transfer.file = process ∧ state.files transfer.file = some transfer.fPos ∧
      rwVerifyArea transfer.fPos transfer.count = true
  taken : ∀ process transfer result,
    state.threads.announced Device.buffSize process = some (transfer, result) →
      system.files transfer.file = some result.fPos ∧
        (result.retval < 0 → result.fPos = transfer.fPos)
  others : ∀ file, (∀ transfer result,
      state.threads.announced Device.buffSize (owner file) = some (transfer, result) →
        transfer.file ≠ file) →
    system.files file = state.files file

theorem Related.loaded (kernel : Kernel) (boot : InitEnv) (owner : Nat → Nat) :
    Related kernel owner (.loaded kernel boot) (.loaded kernel boot) where
  linearized := .start _ _
  asked := by
    intro process transfer asked
    cases asked
  taken := by
    intro process transfer result announced
    cases announced
  others := fun _ _ => rfl

/-! ### Calls that do not take the lock -/

theorem System.transfer?_eq_some {system : System} {call : Call} {transfer : Transfer}
    (found : system.transfer? call = some transfer) :
    transfer.call = call ∧ system.files transfer.file = some transfer.fPos ∧
      rwVerifyArea transfer.fPos transfer.count = true := by
  cases call with
  | openFile file => cases found
  | lseek file off whence => cases found
  | release file granted => cases found
  | write file env buff fits =>
      simp only [System.transfer?] at found
      split at found
      · rename_i fPos opened
        split at found
        · rename_i verified
          cases found
          exact ⟨rfl, opened, verified⟩
        · cases found
      · cases found
  | read file env count =>
      simp only [System.transfer?] at found
      split at found
      · rename_i fPos opened
        split at found
        · rename_i verified
          cases found
          exact ⟨rfl, opened, verified⟩
        · cases found
      · cases found

theorem aesdLseek_of_size {first second : Device} (same : first.buffSize = second.buffSize)
    (fPos off whence : Int) :
    aesdLseek first fPos off whence = aesdLseek second fPos off whence := by
  unfold aesdLseek
  rw [same]

private theorem unchanged_step {kernel : Kernel} {first second next : System} {call : Call}
    {reply : Reply} (answer : Reply) (here : first.step kernel call = .ok (first, answer))
    (there : second.step kernel call = .ok (second, answer))
    (sameFile : second.files call.file = first.files call.file)
    (taken : first.step kernel call = .ok (next, reply)) :
    ∃ position device, next.files = Function.update first.files call.file position ∧
      second.step kernel call =
        .ok ({ device := device
               files := Function.update second.files call.file position }, reply) ∧
      ((next.device = first.device ∧ device = second.device) ∨
        (call.IsRelease ∧ device = next.device)) := by
  rw [here] at taken
  cases taken
  refine ⟨first.files call.file, second.device, ?_, ?_, .inl ⟨rfl, rfl⟩⟩
  · rw [Function.update_eq_self]
  · rw [there, ← sameFile, Function.update_eq_self]

/-- Such a call looks at its own file and at the size, and changes its own file;
the dump looks at the whole device and is made of the same one. -/
theorem System.step_without_lock {kernel : Kernel} {first second next : System} {call : Call}
    {reply : Reply} (outside : first.transfer? call = none)
    (sameFile : second.files call.file = first.files call.file)
    (sameSize : second.device.buffSize = first.device.buffSize)
    (sameDevice : call.IsRelease → second.device = first.device)
    (taken : first.step kernel call = .ok (next, reply)) :
    ∃ position device, next.files = Function.update first.files call.file position ∧
      second.step kernel call =
        .ok ({ device := device
               files := Function.update second.files call.file position }, reply) ∧
      ((next.device = first.device ∧ device = second.device) ∨
        (call.IsRelease ∧ device = next.device)) := by
  cases call with
  | openFile file =>
      have same : second.files file = first.files file := sameFile
      cases opened : first.files file with
      | some fPos =>
          rw [opened] at same
          exact unchanged_step { retval := -ebadf, delivered := [] }
            (by simp only [System.step, opened]) (by simp only [System.step, same]) sameFile taken
      | none =>
          rw [opened] at same
          simp only [System.step, opened] at taken
          cases taken
          exact ⟨some 0, second.device, rfl, by simp only [System.step, same]; rfl,
            .inl ⟨rfl, rfl⟩⟩
  | write file env buff fits =>
      have same : second.files file = first.files file := sameFile
      cases opened : first.files file with
      | none =>
          rw [opened] at same
          exact unchanged_step { retval := -ebadf, delivered := [] }
            (by simp only [System.step, opened]) (by simp only [System.step, same]) sameFile taken
      | some fPos =>
          rw [opened] at same
          have refused : ¬rwVerifyArea fPos buff.length = true := by
            intro verified
            simp only [System.transfer?, opened, if_pos verified] at outside
            cases outside
          exact unchanged_step { retval := -einval, delivered := [] }
            (by simp only [System.step, opened, if_neg refused])
            (by simp only [System.step, same, if_neg refused]) sameFile taken
  | read file env count =>
      have same : second.files file = first.files file := sameFile
      cases opened : first.files file with
      | none =>
          rw [opened] at same
          exact unchanged_step { retval := -ebadf, delivered := [] }
            (by simp only [System.step, opened]) (by simp only [System.step, same]) sameFile taken
      | some fPos =>
          rw [opened] at same
          have refused : ¬rwVerifyArea fPos count = true := by
            intro verified
            simp only [System.transfer?, opened, if_pos verified] at outside
            cases outside
          exact unchanged_step { retval := -einval, delivered := [] }
            (by simp only [System.step, opened, if_neg refused])
            (by simp only [System.step, same, if_neg refused]) sameFile taken
  | lseek file off whence =>
      have same : second.files file = first.files file := sameFile
      cases opened : first.files file with
      | none =>
          rw [opened] at same
          exact unchanged_step { retval := -ebadf, delivered := [] }
            (by simp only [System.step, opened]) (by simp only [System.step, same]) sameFile taken
      | some fPos =>
          rw [opened] at same
          simp only [System.step, opened] at taken
          cases taken
          refine ⟨_, second.device, rfl, ?_, .inl ⟨rfl, rfl⟩⟩
          simp only [System.step, same, aesdLseek_of_size sameSize]
          rfl
  | release file granted =>
      have same : second.files file = first.files file := sameFile
      cases opened : first.files file with
      | none =>
          rw [opened] at same
          exact unchanged_step { retval := -ebadf, delivered := [] }
            (by simp only [System.step, opened]) (by simp only [System.step, same]) sameFile taken
      | some fPos =>
          rw [opened] at same
          simp only [System.step, opened] at taken
          cases released : aesdRelease kernel granted first.device with
          | error fault =>
              simp only [released] at taken
              cases taken
          | ok device =>
              simp only [released] at taken
              cases taken
              refine ⟨none, device, rfl, ?_, .inr ⟨trivial, rfl⟩⟩
              simp only [System.step, same, sameDevice trivial, released]
              rfl

/-! ### Every step is answered -/

section

variable {kernel : Kernel} {owner : Nat → Nat} {state : Concurrent} {system : System}
  {threads : Threads Nat Device Fault Transfer CallResult} {action : Action Nat Transfer}
  {output : Option (Transfer × CallResult)}

theorem asked_before
    (moves : Moves (lockedCalls kernel) state.threads action output threads)
    (within : ∀ thread request, action ≠ .invoke thread request) {process : Nat}
    {transfer : Transfer} (asked : (threads.phase process).request? = some transfer) :
    (process = action.thread → output = none) ∧
      (state.threads.phase process).request? = some transfer := by
  by_cases same : process = action.thread
  · subst same
    obtain ⟨silent, before⟩ := moves.request? within asked
    exact ⟨fun _ => silent, before⟩
  · rw [moves.phase_other same] at asked
    exact ⟨fun mine => absurd mine same, asked⟩

private theorem Related.quiet (related : Related kernel owner state system)
    (moves : Moves (lockedCalls kernel) state.threads action output threads)
    (within : ∀ thread request, action ≠ .invoke thread request)
    (linearized : Linearized Device.buffSize (lockedCalls kernel) threads system.device)
    (same : ∀ process, threads.announced Device.buffSize process =
      state.threads.announced Device.buffSize process) :
    Related kernel owner { state with threads := threads } system where
  linearized := linearized
  asked := by
    intro process transfer asked
    exact related.asked process transfer (asked_before moves within asked).2
  taken := by
    intro process transfer result announced
    rw [same] at announced
    exact related.taken process transfer result announced
  others := by
    intro file free
    apply related.others file
    intro transfer result announced
    rw [← same] at announced
    exact free transfer result announced

private theorem Related.position (related : Related kernel owner state system) {process : Nat}
    {transfer : Transfer} (asked : (state.threads.phase process).request? = some transfer)
    (unannounced : state.threads.announced Device.buffSize process = none) :
    system.files transfer.file = some transfer.fPos := by
  obtain ⟨owned, opened, _⟩ := related.asked process transfer asked
  rw [← opened]
  apply related.others
  intro other result announced
  rw [owned, unannounced] at announced
  cases announced

theorem lockedCalls_failed {transfer : Transfer} {before after : Device} {result : CallResult}
    (alone : (lockedCalls kernel).alone transfer before = .ok (after, result))
    (failed : result.retval < 0) : result.fPos = transfer.fPos := by
  unfold Calls.alone at alone
  cases interrupted : transfer.lockInterrupted with
  | true =>
      simp only [lockedCalls, interrupted, if_true] at alone
      cases alone
      rfl
  | false =>
      simp only [lockedCalls, interrupted, Bool.false_eq_true, if_false] at alone
      cases transfer with
      | write file env buff fits fPos =>
          exact (aesdWriteSteps_failed kernel env buff fPos).alone alone failed
      | read file env count fPos =>
          exact (aesdReadSteps_failed kernel env count fPos).alone alone failed

private theorem Related.takes (related : Related kernel owner state system)
    (moves : Moves (lockedCalls kernel) state.threads action output threads)
    (within : ∀ thread request, action ≠ .invoke thread request) {device : Device}
    (linearized : Linearized Device.buffSize (lockedCalls kernel) threads device)
    {transfer : Transfer} {result : CallResult}
    (asked : (state.threads.phase action.thread).request? = some transfer)
    (unannounced : state.threads.announced Device.buffSize action.thread = none)
    (announced : threads.announced Device.buffSize action.thread = some (transfer, result))
    (alone : (lockedCalls kernel).alone transfer system.device = .ok (device, result)) :
    Related kernel owner { state with threads := threads }
      { device := device
        files := Function.update system.files transfer.file (some result.fPos) } where
  linearized := linearized
  asked := by
    intro process other askedOther
    exact related.asked process other (asked_before moves within askedOther).2
  taken := by
    intro process other found announcedOther
    by_cases same : process = action.thread
    · subst same
      rw [announced] at announcedOther
      cases announcedOther
      exact ⟨Function.update_self .., lockedCalls_failed alone⟩
    · have before : state.threads.announced Device.buffSize process = some (other, found) := by
        rw [← announcedOther]
        exact (related.linearized.announced_other moves same).symm
      have different : other.file ≠ transfer.file := by
        intro sameFile
        obtain ⟨ownedOther, _, _⟩ := related.asked process other
          (Threads.request?_of_announced before)
        obtain ⟨owned, _, _⟩ := related.asked action.thread transfer asked
        rw [sameFile, owned] at ownedOther
        exact same ownedOther.symm
      dsimp only
      rw [Function.update_of_ne different]
      exact related.taken process other found before
  others := by
    intro file free
    obtain ⟨owned, _, _⟩ := related.asked action.thread transfer asked
    have different : file ≠ transfer.file := by
      rintro rfl
      rw [owned] at free
      exact free transfer result announced rfl
    dsimp only
    rw [Function.update_of_ne different]
    apply related.others file
    intro other found before
    by_cases same : owner file = action.thread
    · rw [same, unannounced] at before
      cases before
    · apply free other found
      rw [← before]
      exact related.linearized.announced_other moves same

private theorem Related.responds (related : Related kernel owner state system)
    {transfer : Transfer} {result : CallResult}
    (moves : Moves (lockedCalls kernel) state.threads action (some (transfer, result)) threads)
    (within : ∀ thread request, action ≠ .invoke thread request)
    (linearized : Linearized Device.buffSize (lockedCalls kernel) threads system.device)
    (announced : state.threads.announced Device.buffSize action.thread = some (transfer, result))
    (gone : threads.announced Device.buffSize action.thread = none) :
    Related kernel owner
      { threads := threads, files := storePosition state.files transfer result } system := by
  have askedMine := Threads.request?_of_announced announced
  obtain ⟨owned, opened, _⟩ := related.asked action.thread transfer askedMine
  obtain ⟨stored, failed⟩ := related.taken action.thread transfer result announced
  have elsewhere : ∀ file, file ≠ transfer.file →
      storePosition state.files transfer result file = state.files file := by
    intro file different
    unfold storePosition
    split
    · exact Function.update_of_ne different ..
    · rfl
  exact
    { linearized := linearized
      asked := by
        intro process other asked
        obtain ⟨silent, before⟩ := asked_before moves within asked
        obtain ⟨ownedOther, openedOther, verified⟩ := related.asked process other before
        refine ⟨ownedOther, ?_, verified⟩
        rw [← openedOther]
        apply elsewhere
        intro sameFile
        rw [sameFile, owned] at ownedOther
        cases silent ownedOther.symm
      taken := by
        intro process other found after
        by_cases same : process = action.thread
        · rw [same, gone] at after
          cases after
        · rw [related.linearized.announced_other moves same] at after
          exact related.taken process other found after
      others := by
        intro file free
        dsimp only
        by_cases same : file = transfer.file
        · rw [same, stored]
          unfold storePosition
          by_cases counted : 0 ≤ result.retval
          · rw [if_pos counted, Function.update_self]
          · rw [if_neg counted, opened, failed (by omega)]
        · rw [elsewhere file same]
          apply related.others file
          intro other found before
          by_cases mine : owner file = action.thread
          · rw [mine, announced] at before
            cases before
            exact fun sameFile => same sameFile.symm
          · apply free other found
            rw [← before]
            exact related.linearized.announced_other moves mine }

end

theorem LockStep.action_thread (process : Nat) (step : LockStep) :
    (step.action process).thread = process := by
  cases step <;> rfl

theorem LockStep.action_within (process : Nat) (step : LockStep) (thread : Nat)
    (transfer : Transfer) : step.action process ≠ .invoke thread transfer := by
  cases step <;> exact fun same => nomatch same

section

variable {kernel : Kernel} {owner : Nat → Nat} {state : Concurrent} {system : System}
  {threads : Threads Nat Device Fault Transfer CallResult} {process : Nat}

inductive Answer (kernel : Kernel) (owner : Nat → Nat) (state : Concurrent) (system : System)
    (process : Nat) (threads : Threads Nat Device Fault Transfer CallResult) :
    Option (Transfer × CallResult) → Prop where
  | quiet (related : Related kernel owner { state with threads := threads } system)
      (same : threads.announced Device.buffSize process =
        state.threads.announced Device.buffSize process) :
      Answer kernel owner state system process threads none
  | takes {transfer : Transfer} {result : CallResult} {next : System}
      (related : Related kernel owner { state with threads := threads } next)
      (unannounced : state.threads.announced Device.buffSize process = none)
      (announced : threads.announced Device.buffSize process = some (transfer, result))
      (stepped : system.step kernel transfer.call = .ok (next, result.reply)) :
      Answer kernel owner state system process threads none
  | responds {transfer : Transfer} {result : CallResult}
      (related : Related kernel owner
        { threads := threads, files := storePosition state.files transfer result } system)
      (announced : state.threads.announced Device.buffSize process = some (transfer, result))
      (gone : threads.announced Device.buffSize process = none) :
      Answer kernel owner state system process threads (some (transfer, result))

theorem Related.proceed (related : Related kernel owner state system) {step : LockStep}
    {output : Option (Transfer × CallResult)}
    (moved : state.threads.step (lockedCalls kernel) (step.action process) =
      .ok (threads, output)) :
    Answer kernel owner state system process threads output := by
  have moves := Threads.step_moves moved
  have within := LockStep.action_within process step
  have mine := LockStep.action_thread process step
  obtain ⟨device, linearized, outcome⟩ :=
    related.linearized.step (lockedCalls_changesOnce kernel) moves
  rw [mine] at outcome
  cases outcome with
  | quiet same silent still =>
      subst silent still
      refine .quiet (related.quiet moves within linearized ?_) same
      intro other
      by_cases own : other = process
      · rw [own]
        exact same
      · exact related.linearized.announced_other moves (by rw [mine]; exact own)
  | @takes transfer result asked unannounced announced silent alone =>
      subst silent
      have opened := related.position asked unannounced
      obtain ⟨_, _, verified⟩ := related.asked process transfer asked
      have after := related.takes moves within linearized (by rw [mine]; exact asked)
        (by rw [mine]; exact unannounced) (by rw [mine]; exact announced) alone
      exact .takes after unannounced announced (step_transfer opened verified alone)
  | responds announced gone returned still =>
      subst returned still
      exact .responds (related.responds moves within linearized (by rw [mine]; exact announced)
        (by rw [mine]; exact gone)) announced gone

theorem Related.waits (related : Related kernel owner state system) {call : Call}
    {transfer : Transfer} (idle : state.threads.phase process = .idle)
    (permitted : state.Permits owner (.invoke process call))
    (found : state.system.transfer? call = some transfer) :
    Related kernel owner
        { state with threads := state.threads.become process (.waiting transfer) } system ∧
      ∀ other, (state.threads.become process (.waiting transfer)).announced Device.buffSize other =
        state.threads.announced Device.buffSize other := by
  obtain ⟨sameCall, opened, verified⟩ := System.transfer?_eq_some found
  have unannounced : state.threads.announced Device.buffSize process = none :=
    announced_of_phase idle
  have moves : Moves (lockedCalls kernel) state.threads (.invoke process transfer) none
      (state.threads.become process (.waiting transfer)) := .invoke idle
  have after : (state.threads.become process (.waiting transfer)).announced Device.buffSize
      process = none := by
    rw [Threads.become, Threads.announced_goto]
    rfl
  have same : ∀ other, (state.threads.become process (.waiting transfer)).announced
      Device.buffSize other = state.threads.announced Device.buffSize other := by
    intro other
    by_cases own : other = process
    · rw [own, after, unannounced]
    · exact related.linearized.announced_other moves own
  obtain ⟨device, linearized, outcome⟩ :=
    related.linearized.step (lockedCalls_changesOnce kernel) moves
  have still : device = system.device := by
    cases outcome with
    | quiet _ _ still => exact still
    | takes asked _ _ _ _ =>
        rw [Action.thread, idle] at asked
        cases asked
    | responds announced _ _ _ =>
        rw [Action.thread, unannounced] at announced
        cases announced
  rw [still] at linearized
  refine ⟨?_, same⟩
  exact
    { linearized := linearized
      asked := by
        intro other transferOther asked
        by_cases own : other = process
        · subst own
          have here : ((state.threads.become other (.waiting transfer)).phase other) =
              .waiting transfer := Function.update_self ..
          rw [here] at asked
          cases asked
          refine ⟨?_, opened, verified⟩
          rw [← transfer.call_file, sameCall]
          exact permitted.1
        · rw [moves.phase_other own] at asked
          exact related.asked other transferOther asked
      taken := by
        intro other transferOther result announced
        rw [same] at announced
        exact related.taken other transferOther result announced
      others := by
        intro file free
        apply related.others file
        intro transferOther result announced
        rw [← same] at announced
        exact free transferOther result announced }

theorem Related.at_once (related : Related kernel owner state system) {call : Call}
    {next : System} {reply : Reply} (idle : state.threads.phase process = .idle)
    (permitted : state.Permits owner (.invoke process call))
    (outside : state.system.transfer? call = none)
    (taken : state.system.step kernel call = .ok (next, reply)) :
    (∃ after, system.step kernel call = .ok (after, reply) ∧
      Related kernel owner
        { threads := { state.threads with state := next.device }, files := next.files } after) ∧
      ∀ other, ({ state.threads with state := next.device } :
        Threads Nat Device Fault Transfer CallResult).announced Device.buffSize other =
          state.threads.announced Device.buffSize other := by
  obtain ⟨owned, apart⟩ := permitted
  have unannounced : state.threads.announced Device.buffSize process = none :=
    announced_of_phase idle
  have sameFile : system.files call.file = state.system.files call.file := by
    apply related.others
    intro transfer result announced
    rw [owned, unannounced] at announced
    cases announced
  obtain ⟨position, device, filesNext, stepped, devices⟩ := System.step_without_lock outside
    sameFile related.linearized.view_eq.symm
    (fun release => (related.linearized.free (apart release)).symm) taken
  have linearized : Linearized Device.buffSize (lockedCalls kernel)
      { state.threads with state := next.device } device ∧
      ∀ other, ({ state.threads with state := next.device } :
        Threads Nat Device Fault Transfer CallResult).announced Device.buffSize other =
          state.threads.announced Device.buffSize other := by
    rcases devices with ⟨nextSame, same⟩ | ⟨release, same⟩
    · have still : state.system.device = state.threads.state := rfl
      rw [nextSame, same, still]
      exact ⟨related.linearized, fun _ => rfl⟩
    · rw [same]
      exact ⟨related.linearized.replace (apart release) next.device,
        related.linearized.announced_replace (apart release) next.device⟩
  -- a transfer under way belongs to another process, so to another file
  have different : ∀ other transfer,
      (state.threads.phase other).request? = some transfer → transfer.file ≠ call.file := by
    intro other transfer asked same
    obtain ⟨ownedOther, _, _⟩ := related.asked other transfer asked
    rw [same, owned] at ownedOther
    rw [← ownedOther, idle] at asked
    cases asked
  refine ⟨⟨_, stepped, ?_⟩, linearized.2⟩
  exact
    { linearized := linearized.1
      asked := by
        intro other transfer asked
        obtain ⟨ownedOther, opened, verified⟩ := related.asked other transfer asked
        refine ⟨ownedOther, ?_, verified⟩
        dsimp only
        rw [filesNext, Function.update_of_ne (different other transfer asked)]
        exact opened
      taken := by
        intro other transfer result announced
        dsimp only at announced ⊢
        rw [linearized.2] at announced
        rw [Function.update_of_ne (different other transfer
          (Threads.request?_of_announced announced))]
        exact related.taken other transfer result announced
      others := by
        intro file free
        dsimp only at free ⊢
        by_cases same : file = call.file
        · rw [same, filesNext, Function.update_self, Function.update_self]
        · rw [filesNext, Function.update_of_ne same, Function.update_of_ne same]
          apply related.others file
          intro transfer result announced
          apply free transfer result
          rw [linearized.2]
          exact announced }

end

section

variable {before after : Concurrent} {process : Nat} {step : LockStep}
  {output : Option (Call × Reply)}

theorem Concurrent.announced_none {state : Concurrent}
    (unannounced : state.threads.announced Device.buffSize process = none) :
    state.announced process = none := by
  rw [Concurrent.announced, unannounced, Option.map_none]

theorem Concurrent.announced_some {state : Concurrent} {transfer : Transfer}
    {result : CallResult}
    (announced : state.threads.announced Device.buffSize process = some (transfer, result)) :
    state.announced process = some (transfer.call, result.reply) := by
  rw [Concurrent.announced, announced, Option.map_some]

theorem effects_already {found : Call × Reply} (announced : before.announced process = some found) :
    effects ⟨before, (.proceed process step, output), after⟩ = [] := by
  simp only [effects, announced]

theorem effects_new (unannounced : before.announced process = none) :
    effects ⟨before, (.proceed process step, output), after⟩ =
      (after.announced process).toList.map fun found => (process, found) := by
  simp only [effects, unannounced]

theorem effects_quiet (same : after.announced process = before.announced process) :
    effects ⟨before, (.proceed process step, output), after⟩ = [] := by
  cases announced : before.announced process with
  | some found => exact effects_already announced
  | none =>
      rw [effects_new announced, same, announced]
      rfl

end

/-- Every permitted step of the interleaved kernel is answered by the atomic
driver with the calls that take effect in it. -/
theorem linearization (kernel : Kernel) (owner : Nat → Nat) :
    Simulation (Succeeds (Concurrent.step kernel)) (Succeeds (System.step kernel))
      (fun taken => taken.before.Permits owner taken.label.1)
      (fun taken => (effects taken).map Prod.snd) (Related kernel owner) where
  answered := by
    rintro ⟨before, ⟨action, output⟩, after⟩ system related permitted stepped
    cases action with
    | invoke process call =>
        simp only [Succeeds, Concurrent.step] at stepped
        split at stepped
        · rename_i idle
          split at stepped
          · rename_i transfer found
            cases stepped
            apply answered_by_none rfl
            exact (related.waits idle permitted found).1
          · rename_i outside
            split at stepped
            · cases stepped
            · rename_i next reply taken
              cases stepped
              obtain ⟨⟨last, answered, still⟩, _⟩ :=
                related.at_once idle permitted outside taken
              have taken : Succeeds (System.step kernel) system (call, reply) last := answered
              apply answered_by_one rfl taken
              exact still
        · cases stepped
    | proceed process step =>
        simp only [Succeeds, Concurrent.step] at stepped
        split at stepped
        · cases stepped
        · rename_i threads moved
          cases stepped
          cases related.proceed moved with
          | quiet still same =>
              have announced : Concurrent.announced { before with threads := threads } process =
                  before.announced process := by
                rw [Concurrent.announced, same, ← Concurrent.announced]
              apply answered_by_none
              · rw [effects_quiet announced, List.map_nil]
              · exact still
          | @takes transfer result next still unannounced announced answered =>
              have taken : Succeeds (System.step kernel) system (transfer.call, result.reply)
                  next := answered
              refine answered_by_one ?_ taken ?_
              · rw [effects_new (Concurrent.announced_none unannounced),
                  Concurrent.announced_some announced]
                rfl
              · exact still
        · rename_i threads transfer result moved
          cases stepped
          cases related.proceed moved with
          | responds still announced gone =>
              apply answered_by_none
              · rw [effects_already (Concurrent.announced_some announced), List.map_nil]
              · exact still

/-! ### Accounts -/

section

variable {before after : Concurrent} {acting process : Nat} {step : LockStep} {call : Call}
  {output : Option (Call × Reply)}

theorem Concurrent.announced_congr {first second : Concurrent}
    (same : first.threads.announced Device.buffSize process =
      second.threads.announced Device.buffSize process) :
    first.announced process = second.announced process := by
  rw [Concurrent.announced, same, ← Concurrent.announced]

private theorem effectsOf_invoke (process acting : Nat) :
    effectsOf process ⟨before, (.invoke acting call, output), after⟩ =
      repliesTo process ⟨before, (.invoke acting call, output), after⟩ := by
  unfold effectsOf repliesTo effects KernelAction.process
  by_cases mine : acting = process
  · cases output <;> simp [mine]
  · cases output <;> simp [mine]

private theorem effectsOf_other (different : acting ≠ process) :
    effectsOf process ⟨before, (.proceed acting step, output), after⟩ = [] := by
  unfold effectsOf
  cases announced : before.announced acting with
  | some found => rw [effects_already announced, List.filterMap_nil]
  | none =>
      rw [effects_new announced, List.filterMap_map, List.filterMap_eq_nil_iff]
      intro found _
      exact if_neg different

private theorem effectsOf_already {found : Call × Reply}
    (announced : before.announced process = some found) :
    effectsOf process ⟨before, (.proceed process step, output), after⟩ = [] := by
  rw [effectsOf, effects_already announced, List.filterMap_nil]

private theorem effectsOf_new (unannounced : before.announced process = none) :
    effectsOf process ⟨before, (.proceed process step, output), after⟩ =
      (after.announced process).toList := by
  rw [effectsOf, effects_new unannounced, List.filterMap_map]
  simp

end

private theorem account_invoke {kernel : Kernel} {owner : Nat → Nat} {before after : Concurrent}
    {system : System} {acting : Nat} {call : Call} {output : Option (Call × Reply)}
    (related : Related kernel owner before system)
    (permitted : before.Permits owner (.invoke acting call))
    (stepped : before.step kernel (.invoke acting call) = .ok (after, output)) :
    before.announced acting = none ∧
      ∀ process, after.announced process = before.announced process := by
  simp only [Concurrent.step] at stepped
  split at stepped
  · rename_i idle
    have unannounced : before.threads.announced Device.buffSize acting = none :=
      announced_of_phase idle
    refine ⟨Concurrent.announced_none unannounced, ?_⟩
    split at stepped
    · rename_i transfer found
      cases stepped
      intro process
      exact Concurrent.announced_congr ((related.waits idle permitted found).2 process)
    · rename_i outside
      split at stepped
      · cases stepped
      · rename_i next reply taken
        cases stepped
        intro process
        exact Concurrent.announced_congr ((related.at_once idle permitted outside taken).2 process)
  · cases stepped

private theorem account_proceed {kernel : Kernel} {owner : Nat → Nat}
    {before after : Concurrent} {system : System} {acting : Nat} {step : LockStep}
    {output : Option (Call × Reply)} (related : Related kernel owner before system)
    (stepped : before.step kernel (.proceed acting step) = .ok (after, output)) :
    ((after.announced acting = before.announced acting ∧ output = none) ∨
        (before.announced acting = none ∧ output = none) ∨
        (∃ found, before.announced acting = some found ∧ output = some found ∧
          after.announced acting = none)) ∧
      ∀ process, process ≠ acting → after.announced process = before.announced process := by
  simp only [Concurrent.step] at stepped
  have untouched {threads : Threads Nat Device Fault Transfer CallResult}
      {returned : Option (Transfer × CallResult)}
      (moved : before.threads.step (lockedCalls kernel) (step.action acting) =
        .ok (threads, returned)) (process : Nat) (other : process ≠ acting) :
      threads.announced Device.buffSize process =
        before.threads.announced Device.buffSize process :=
    related.linearized.announced_other (Threads.step_moves moved)
      (by rw [LockStep.action_thread]; exact other)
  split at stepped
  · cases stepped
  · rename_i threads moved
    cases stepped
    refine ⟨?_, fun process other => Concurrent.announced_congr (untouched moved process other)⟩
    cases related.proceed moved with
    | quiet _ same => exact .inl ⟨Concurrent.announced_congr same, rfl⟩
    | takes _ unannounced _ _ => exact .inr (.inl ⟨Concurrent.announced_none unannounced, rfl⟩)
  · rename_i threads transfer result moved
    cases stepped
    refine ⟨?_, fun process other => Concurrent.announced_congr (untouched moved process other)⟩
    cases related.proceed moved with
    | responds _ announced gone =>
        exact .inr (.inr ⟨_, Concurrent.announced_some announced, rfl,
          Concurrent.announced_none gone⟩)

/-- What a process is owed before a step and what takes effect for it is what it
gets back and what it is owed after it. -/
theorem Related.account {kernel : Kernel} {owner : Nat → Nat} {taken : ConcurrentStep}
    {system : System} (related : Related kernel owner taken.before system)
    (permitted : taken.before.Permits owner taken.label.1)
    (stepped : Succeeds (Concurrent.step kernel) taken.before taken.label taken.after)
    (process : Nat) :
    (taken.before.announced process).toList ++ effectsOf process taken =
      repliesTo process taken ++ (taken.after.announced process).toList := by
  obtain ⟨before, ⟨action, output⟩, after⟩ := taken
  cases action with
  | invoke acting call =>
      obtain ⟨unannounced, same⟩ := account_invoke related permitted stepped
      rw [effectsOf_invoke, same process]
      by_cases mine : acting = process
      · rw [← mine, unannounced, Option.toList_none, List.nil_append, List.append_nil]
      · have silent : repliesTo process ⟨before, (.invoke acting call, output), after⟩ = [] :=
          if_neg mine
        rw [silent, List.append_nil, List.nil_append]
  | proceed acting step =>
      obtain ⟨own, untouched⟩ := account_proceed related stepped
      by_cases mine : acting = process
      · subst mine
        have replies : repliesTo acting ⟨before, (.proceed acting step, output), after⟩ =
            output.toList := if_pos rfl
        rw [replies]
        dsimp only at own ⊢
        rcases own with ⟨same, silent⟩ | ⟨unannounced, silent⟩ | ⟨found, announced, returned, gone⟩
        · rw [silent, same]
          cases announced : before.announced acting with
          | none => rw [effectsOf_new announced, same, announced]
          | some found =>
              rw [effectsOf_already announced]
              rfl
        · rw [effectsOf_new unannounced, unannounced, silent]
        · rw [effectsOf_already announced, announced, returned, gone]
          rfl
      · have silent : repliesTo process ⟨before, (.proceed acting step, output), after⟩ = [] :=
          if_neg mine
        rw [effectsOf_other mine, silent, untouched process (Ne.symm mine), List.append_nil,
          List.nil_append]

/-! ### Interleaved runs -/

/-- Whatever the interleaving, the calls in the order in which they take effect
are a run of the atomic driver; every process gets the replies of its own calls
in that run, and a call takes effect between its invocation and its return. -/
theorem interleaved_calls_linearize (kernel : Kernel) (boot : InitEnv) (owner : Nat → Nat)
    (steps : List ConcurrentStep) (final : Concurrent) (run : ConcurrentRun kernel boot steps final)
    (permitted : ∀ taken, taken ∈ steps → taken.before.Permits owner taken.label.1) :
    ∃ serial system, DriverRun kernel boot serial system ∧
      serial.map Transition.label = (steps.flatMap effects).map Prod.snd ∧
      (∀ process, steps.flatMap (effectsOf process) =
        steps.flatMap (repliesTo process) ++ (final.announced process).toList) ∧
      final.threads.state.buffSize = system.device.buffSize ∧
      (final.threads.holder = none → final.threads.state = system.device) := by
  have initially := Related.loaded kernel boot owner
  obtain ⟨serial, system, reached, labels, related⟩ :=
    run.simulated (linearization kernel owner) initially permitted
  refine ⟨serial, system, reached, ?_, ?_, related.linearized.view_eq, related.linearized.free⟩
  · rw [labels, List.map_flatMap]
  · intro process
    have account := run.balance (fun state => (state.announced process).toList)
      (effectsOf process) (repliesTo process) (by
        intro taken member
        obtain ⟨stepped, current, here⟩ := run.simulated_before (linearization kernel owner)
          initially permitted taken member
        exact here.account (permitted taken member) stepped process)
    exact account

/-- Process 0 writes a line.  When it has changed the size, and long before it
returns, process 1 seeks to the end. -/
def seekDuringWrite (fits : ([97, 10] : List Byte).length ≤ maxRwCount) : List KernelAction :=
  [.invoke 0 (.openFile 0), .invoke 1 (.openFile 1),
    .invoke 0 (.write 0 plainWriteEnv [97, 10] fits), .proceed 0 .lock] ++
  List.replicate 23 (.proceed 0 .advance) ++ [.invoke 1 (.lseek 1 0 2)]

theorem interleaved_calls_linearize_seek_during_write :
    ∃ steps final serial system, ConcurrentRun commonKernel plainBoot steps final ∧
      (steps.flatMap (repliesTo 0)).length = 1 ∧
      (steps.flatMap (repliesTo 1)).map (fun returned => returned.2.retval) = [0, 2] ∧
      final.threads.holder = some 0 ∧ DriverRun commonKernel plainBoot serial system ∧
      serial.map (fun taken => taken.label.2.retval) = [0, 0, 2, 2] := by
  obtain ⟨steps, final, run, seen⟩ := execute_observe (Concurrent.step commonKernel)
    (Concurrent.loaded commonKernel plainBoot) (seekDuringWrite (by decide))
    (fun steps final => decide (
      (∀ taken, taken ∈ steps → taken.before.Permits id taken.label.1) ∧
      (steps.flatMap (repliesTo 0)).length = 1 ∧
      (steps.flatMap (repliesTo 1)).map (fun returned => returned.2.retval) = [0, 2] ∧
      final.threads.holder = some 0 ∧
      (steps.flatMap effects).map (fun effect => effect.2.2.retval) = [0, 0, 2, 2]))
    true (by decide +kernel)
  obtain ⟨permitted, first, second, held, retvals⟩ := of_decide_eq_true seen
  obtain ⟨serial, system, reached, labels, _⟩ := interleaved_calls_linearize commonKernel plainBoot
    id steps final run permitted
  refine ⟨steps, final, serial, system, run, first, second, held, reached, ?_⟩
  have replies := congrArg (List.map fun label : Call × Reply => label.2.retval) labels
  rw [List.map_map, List.map_map] at replies
  rw [← retvals]
  exact replies

end Aesd.Driver
