/-
Calls of any number of processes, interleaved.

A read or write that gets past the system call layer takes the position of its
file along, waits for the device's lock, goes through its program step by step
and stores the new position when it has returned.  Between two of its steps any
other process may take one.  The other calls do not take the lock; each of them
is one step, in the middle of whatever the holder of the lock is doing.

Files are not shared between processes.  The dump that `aesd_release` makes of the
ring is one step here and is not taken while the lock is held; `ReleaseRace` takes
it apart and says what goes wrong otherwise.
-/

import Aesd.Driver.CallSteps
import Aesd.Driver.DeviceRuns
import Aesd.Library.Monitor
import Aesd.Library.Simulation

namespace Aesd.Driver

open Execution
open Monitor

/-! ### Transfers -/

inductive Transfer where
  | write (file : Nat) (env : WriteEnv) (buff : List Byte) (fits : buff.length ≤ maxRwCount)
      (fPos : Int)
  | read (file : Nat) (env : ReadEnv) (count : Nat) (fPos : Int)

def Transfer.file : Transfer → Nat
  | .write file _ _ _ _ => file
  | .read file _ _ _ => file

def Transfer.fPos : Transfer → Int
  | .write _ _ _ _ fPos => fPos
  | .read _ _ _ fPos => fPos

def Transfer.count : Transfer → Nat
  | .write _ _ buff _ _ => buff.length
  | .read _ _ count _ => count

def Transfer.call : Transfer → Call
  | .write file env buff fits _ => .write file env buff fits
  | .read file env count _ => .read file env count

def Transfer.lockInterrupted : Transfer → Bool
  | .write _ env _ _ _ => env.lockInterrupted
  | .read _ env _ _ => env.lockInterrupted

def CallResult.reply (result : CallResult) : Reply :=
  { retval := result.retval, delivered := result.delivered }

def lockedCalls (kernel : Kernel) : Calls Device Fault Transfer CallResult where
  body
    | .write _ env buff _ fPos => aesdWriteSteps kernel env buff fPos
    | .read _ env count fPos => aesdReadSteps kernel env count fPos
  givesUp transfer :=
    if transfer.lockInterrupted then
      some { fPos := transfer.fPos, retval := -erestartsys, delivered := [] }
    else none

/-! ### The kernel -/

structure Concurrent where
  threads : Threads Nat Device Fault Transfer CallResult
  files : Nat → Option Int

def Concurrent.system (state : Concurrent) : System :=
  { device := state.threads.state, files := state.files }

/-- The call takes the lock. -/
def System.transfer? (system : System) : Call → Option Transfer
  | .write file env buff fits =>
      match system.files file with
      | some fPos =>
          if rwVerifyArea fPos buff.length then some (.write file env buff fits fPos) else none
      | none => none
  | .read file env count =>
      match system.files file with
      | some fPos => if rwVerifyArea fPos count then some (.read file env count fPos) else none
      | none => none
  | _ => none

inductive LockStep where
  | lock
  | giveUp
  | advance
  | unlock
  | respond
deriving DecidableEq

def LockStep.action (process : Nat) : LockStep → Action Nat Transfer
  | .lock => .lock process
  | .giveUp => .giveUp process
  | .advance => .advance process
  | .unlock => .unlock process
  | .respond => .respond process

inductive KernelAction where
  | invoke (process : Nat) (call : Call)
  | proceed (process : Nat) (step : LockStep)

/-- The system call layer stores the position of a transfer that did not fail. -/
def storePosition (files : Nat → Option Int) (transfer : Transfer) (result : CallResult) :
    Nat → Option Int :=
  if 0 ≤ result.retval then Function.update files transfer.file (some result.fPos) else files

/-- With the call that returns in this step. -/
def Concurrent.step (kernel : Kernel) (state : Concurrent) :
    KernelAction → Except (Refusal Fault) (Concurrent × Option (Call × Reply))
  | .invoke process call =>
      match state.threads.phase process with
      | .idle =>
          match state.system.transfer? call with
          | some transfer =>
              .ok ({ state with
                     threads := state.threads.become process (.waiting transfer) }, none)
          | none =>
              match state.system.step kernel call with
              | .error fault => .error (.faulted fault)
              | .ok (system, reply) =>
                  .ok ({ threads := { state.threads with state := system.device }
                         files := system.files }, some (call, reply))
      | _ => .error .notPossible
  | .proceed process step =>
      match state.threads.step (lockedCalls kernel) (step.action process) with
      | .error refusal => .error refusal
      | .ok (threads, none) => .ok ({ state with threads := threads }, none)
      | .ok (threads, some (transfer, result)) =>
          .ok ({ threads := threads, files := storePosition state.files transfer result },
            some (transfer.call, result.reply))

def Concurrent.loaded (kernel : Kernel) (boot : InitEnv) : Concurrent :=
  { threads := .start (System.loaded kernel boot).device
    files := (System.loaded kernel boot).files }

abbrev ConcurrentStep := Transition Concurrent (KernelAction × Option (Call × Reply))

abbrev ConcurrentRun (kernel : Kernel) (boot : InitEnv) :
    List ConcurrentStep → Concurrent → Prop :=
  Run (Succeeds (Concurrent.step kernel)) (Concurrent.loaded kernel boot)

/-! ### What has taken effect -/

def KernelAction.process : KernelAction → Nat
  | .invoke process _ => process
  | .proceed process _ => process

def Concurrent.announced (state : Concurrent) (process : Nat) : Option (Call × Reply) :=
  (state.threads.announced Device.buffSize process).map
    fun found => (found.1.call, found.2.reply)

/-- The calls that take effect in a step, with their process: a call without the
lock at once, a transfer when its program leaves the size alone for good. -/
def effects (taken : ConcurrentStep) : List (Nat × Call × Reply) :=
  match taken.label.1 with
  | .invoke process _ => taken.label.2.toList.map fun returned => (process, returned)
  | .proceed process _ =>
      match taken.before.announced process with
      | some _ => []
      | none => (taken.after.announced process).toList.map fun found => (process, found)

def repliesTo (process : Nat) (taken : ConcurrentStep) : List (Call × Reply) :=
  if taken.label.1.process = process then taken.label.2.toList else []

def effectsOf (process : Nat) (taken : ConcurrentStep) : List (Call × Reply) :=
  (effects taken).filterMap fun effect => if effect.1 = process then some effect.2 else none

def Call.file : Call → Nat
  | .openFile file => file
  | .write file _ _ _ => file
  | .read file _ _ => file
  | .lseek file _ _ => file
  | .release file _ => file

theorem Transfer.call_file (transfer : Transfer) : transfer.call.file = transfer.file := by
  cases transfer <;> rfl

def Call.IsRelease : Call → Prop
  | .release _ _ => True
  | _ => False

instance : (call : Call) → Decidable call.IsRelease
  | .release _ _ => .isTrue trivial
  | .openFile _ => .isFalse id
  | .write _ _ _ _ => .isFalse id
  | .read _ _ _ => .isFalse id
  | .lseek _ _ _ => .isFalse id

/-- The file belongs to the process, and no dump is taken under the lock. -/
def Concurrent.Permits (owner : Nat → Nat) (state : Concurrent) : KernelAction → Prop
  | .invoke process call =>
      owner call.file = process ∧ (call.IsRelease → state.threads.holder = none)
  | .proceed _ _ => True

instance (owner : Nat → Nat) (state : Concurrent) :
    (action : KernelAction) → Decidable (state.Permits owner action)
  | .invoke process call =>
      inferInstanceAs (Decidable (owner call.file = process ∧
        (call.IsRelease → state.threads.holder = none)))
  | .proceed _ _ => .isTrue trivial

/-! ### The locked calls as one step -/

theorem lockedCalls_changesOnce (kernel : Kernel) (transfer : Transfer) :
    ((lockedCalls kernel).body transfer).ChangesOnce Device.buffSize := by
  cases transfer with
  | write file env buff fits fPos => exact aesdWriteSteps_changesOnce kernel env buff fPos
  | read file env count fPos => exact (aesdReadSteps_keeps kernel env count fPos).changesOnce

theorem lockedCalls_write (kernel : Kernel) (file : Nat) (env : WriteEnv) (buff : List Byte)
    (fits : buff.length ≤ maxRwCount) (fPos : Int) (device : Device) :
    (lockedCalls kernel).alone (.write file env buff fits fPos) device =
      (aesdWrite kernel env device buff fPos).map fun result =>
        (result.device,
          { fPos := result.fPos, retval := result.retval, delivered := [] }) := by
  cases interrupted : env.lockInterrupted with
  | true =>
      unfold aesdWrite
      simp [Calls.alone, lockedCalls, Transfer.lockInterrupted, interrupted, Except.map,
        Transfer.fPos]
  | false =>
      rw [Calls.alone_of_stays (by simp [lockedCalls, Transfer.lockInterrupted, interrupted])]
      exact aesdWriteSteps_alone kernel env buff fPos device interrupted

theorem lockedCalls_read (kernel : Kernel) (file : Nat) (env : ReadEnv) (count : Nat)
    (fPos : Int) (device : Device) :
    (lockedCalls kernel).alone (.read file env count fPos) device =
      (aesdRead kernel env device count fPos).map fun result =>
        (result.device,
          { fPos := result.fPos, retval := result.retval, delivered := result.delivered }) := by
  cases interrupted : env.lockInterrupted with
  | true =>
      unfold aesdRead
      simp [Calls.alone, lockedCalls, Transfer.lockInterrupted, interrupted, Except.map,
        Transfer.fPos]
  | false =>
      rw [Calls.alone_of_stays (by simp [lockedCalls, Transfer.lockInterrupted, interrupted])]
      exact aesdReadSteps_alone kernel env count fPos device interrupted

theorem step_transfer {kernel : Kernel} {system : System} {transfer : Transfer} {device : Device}
    {result : CallResult} (opened : system.files transfer.file = some transfer.fPos)
    (verified : rwVerifyArea transfer.fPos transfer.count = true)
    (alone : (lockedCalls kernel).alone transfer system.device = .ok (device, result)) :
    system.step kernel transfer.call =
      .ok ({ device := device
             files := Function.update system.files transfer.file (some result.fPos) },
        result.reply) := by
  cases transfer with
  | write file env buff fits fPos =>
      have position : system.files file = some fPos := opened
      have area : rwVerifyArea fPos buff.length = true := verified
      rw [lockedCalls_write] at alone
      simp only [Transfer.call, System.step, position, area, if_true]
      cases written : aesdWrite kernel env system.device buff fPos with
      | error fault =>
          rw [written] at alone
          cases alone
      | ok outcome =>
          rw [written] at alone
          cases alone
          rfl
  | read file env count fPos =>
      have position : system.files file = some fPos := opened
      have area : rwVerifyArea fPos count = true := verified
      rw [lockedCalls_read] at alone
      simp only [Transfer.call, System.step, position, area, if_true]
      cases done : aesdRead kernel env system.device count fPos with
      | error fault =>
          rw [done] at alone
          cases alone
      | ok outcome =>
          rw [done] at alone
          cases alone
          rfl

end Aesd.Driver
