/-
Runs of the loaded driver: any number of open files, any order of calls.

A call reaches the driver through the system call layer, which keeps the
position of every open file and refuses a transfer whose position is negative
or would leave the range of `loff_t`.  The driver takes its lock for a whole
read or write, so a run is a sequence of calls.

`Effect` lists everything one successful call can do to a device that holds a
command log; all properties of runs go through it.
-/

import Aesd.Driver.ReadEffect
import Aesd.Library.Execution

namespace Aesd.Driver

open BlockHeap
open Execution

structure System where
  device : Device
  files : Nat → Option Int

inductive Call where
  | openFile (file : Nat)
  | write (file : Nat) (env : WriteEnv) (buff : List Byte) (fits : buff.length ≤ maxRwCount)
  | read (file : Nat) (env : ReadEnv) (count : Nat)
  | lseek (file : Nat) (off whence : Int)
  | release (file : Nat) (granted : Nat → Bool)

structure Reply where
  retval : Int
  delivered : List Byte

/-- The system call layer's check before a transfer. -/
def rwVerifyArea (fPos : Int) (count : Nat) : Bool :=
  decide (0 ≤ fPos ∧ fPos + count ≤ llongMax)

def System.step (kernel : Kernel) (system : System) (call : Call) :
    Except Fault (System × Reply) :=
  match call with
  | .openFile file =>
      match system.files file with
      -- a number that is in use is not given to another file
      | some _ => .ok (system, { retval := -ebadf, delivered := [] })
      | none =>
          .ok ({ system with files := Function.update system.files file (some 0) },
            { retval := 0, delivered := [] })
  | .write file env buff _ =>
      match system.files file with
      | none => .ok (system, { retval := -ebadf, delivered := [] })
      | some fPos =>
          if rwVerifyArea fPos buff.length then
            match aesdWrite kernel env system.device buff fPos with
            | .error fault => .error fault
            | .ok result =>
                .ok ({ device := result.device
                       files := Function.update system.files file (some result.fPos) },
                  { retval := result.retval, delivered := [] })
          else .ok (system, { retval := -einval, delivered := [] })
  | .read file env count =>
      match system.files file with
      | none => .ok (system, { retval := -ebadf, delivered := [] })
      | some fPos =>
          if rwVerifyArea fPos count then
            match aesdRead kernel env system.device count fPos with
            | .error fault => .error fault
            | .ok result =>
                .ok ({ device := result.device
                       files := Function.update system.files file (some result.fPos) },
                  { retval := result.retval, delivered := result.delivered })
          else .ok (system, { retval := -einval, delivered := [] })
  | .lseek file off whence =>
      match system.files file with
      | none => .ok (system, { retval := -ebadf, delivered := [] })
      | some fPos =>
          let moved := aesdLseek system.device fPos (loffT off) whence
          .ok ({ system with files := Function.update system.files file (some moved.1) },
            { retval := moved.2, delivered := [] })
  | .release file granted =>
      match system.files file with
      | none => .ok (system, { retval := -ebadf, delivered := [] })
      | some _ =>
          match aesdRelease kernel granted system.device with
          | .error fault => .error fault
          | .ok device =>
              .ok ({ device := device, files := Function.update system.files file none },
                { retval := 0, delivered := [] })

/-- The state after `aesd_init_module`, before any file is opened. -/
def System.loaded (kernel : Kernel) (boot : InitEnv) : System :=
  { device := (aesdInitModule kernel boot).device, files := fun _ => none }

abbrev DriverStep := Transition System (Call × Reply)

abbrev DriverRun (kernel : Kernel) (boot : InitEnv) : List DriverStep → System → Prop :=
  Run (Succeeds (System.step kernel)) (System.loaded kernel boot)

/-- The call gets past the system call layer and reaches the driver. -/
def System.Admits (system : System) : Call → Prop
  | .openFile file => system.files file = none
  | .write file _ buff _ =>
      ∃ fPos, system.files file = some fPos ∧ rwVerifyArea fPos buff.length = true
  | .read file _ count =>
      ∃ fPos, system.files file = some fPos ∧ rwVerifyArea fPos count = true
  | .lseek file _ _ => ∃ fPos, system.files file = some fPos
  | .release file _ => ∃ fPos, system.files file = some fPos

/-! ### Everything a call can do -/

inductive Effect (kernel : Kernel) (log : CommandLog) (before : System) :
    Call → Reply → System → Prop where
  | refused {call : Call} {reply : Reply} (outside : ¬before.Admits call)
      (negative : reply.retval < 0) :
      Effect kernel log before call reply before
  | refusedWrite {file : Nat} {env : WriteEnv} {buff : List Byte}
      {fits : buff.length ≤ maxRwCount} {reply : Reply} {memory : Memory}
      (changes : Changes before.device.memory memory none [])
      (negative : reply.retval = -erestartsys ∨ reply.retval = -enomem ∨
        reply.retval = -efault) :
      Effect kernel log before (.write file env buff fits) reply
        { before with device := { before.device with memory := memory } }
  | storedWrite {file : Nat} {env : WriteEnv} {buff : List Byte}
      {fits : buff.length ≤ maxRwCount} {fPos : Int} {memory : Memory}
      (opened : before.files file = some fPos) (verified : rwVerifyArea fPos buff.length = true)
      (accepts : env.Accepts kernel before.device buff)
      (something : log.pending ++ buff ≠ []) (continues : endsCommand buff = false)
      (changes : Changes before.device.memory memory (some (.bytes (log.pending ++ buff)))
        before.device.pendingBlocks) :
      Effect kernel log before (.write file env buff fits)
        { retval := buff.length, delivered := [] }
        { device := before.device.stored memory (log.pending ++ buff)
          files := Function.update before.files file (some (fPos + buff.length)) }
  | committedWrite {file : Nat} {env : WriteEnv} {buff : List Byte}
      {fits : buff.length ≤ maxRwCount} {fPos : Int} {memory : Memory}
      (opened : before.files file = some fPos) (verified : rwVerifyArea fPos buff.length = true)
      (accepts : env.Accepts kernel before.device buff) (ends : endsCommand buff = true)
      (changes : Changes before.device.memory memory (some (.bytes (log.pending ++ buff)))
        (before.device.pendingBlocks ++ before.device.ring.evictedBlocks)) :
      Effect kernel log before (.write file env buff fits)
        { retval := buff.length, delivered := [] }
        { device := before.device.committed memory (log.pending ++ buff)
          files := Function.update before.files file (some (fPos + buff.length)) }
  | idleRead {file : Nat} {env : ReadEnv} {count : Nat} {fPos : Int} {reply : Reply}
      (opened : before.files file = some fPos) (verified : rwVerifyArea fPos count = true)
      (idle : ¬env.Allocates before.device fPos) :
      Effect kernel log before (.read file env count) reply before
  | allocatedRead {file : Nat} {env : ReadEnv} {count : Nat} {fPos : Int} {memory : Memory}
      {bytes : List Byte}
      (opened : before.files file = some fPos) (verified : rwVerifyArea fPos count = true)
      (allocates : env.Allocates before.device fPos) (narrow : fPos < 2 ^ 32)
      (small : bytes.length ≤ kernel.kmallocMaxSize)
      (changes : Changes before.device.memory memory (some (.bytes bytes)) []) :
      Effect kernel log before (.read file env count)
        { retval := (readOutcome env before.device memory count fPos bytes).retval
          delivered := (readOutcome env before.device memory count fPos bytes).delivered }
        { device := { before.device with memory := memory }
          files := Function.update before.files file
            (some (readOutcome env before.device memory count fPos bytes).fPos) }
  | moved {call : Call} {file : Nat} {fPos : Int} {reply : Reply}
      (nonneg : 0 ≤ fPos) (bounded : fPos ≤ llongMax) (nothingWritten : ∀ f env buff fits,
        call ≠ .write f env buff fits) (notRead : ∀ f env count, call ≠ .read f env count) :
      Effect kernel log before call reply
        { before with files := Function.update before.files file (some fPos) }
  | released {file : Nat} {granted : Nat → Bool} {memory : Memory}
      (changes : Changes before.device.memory memory none []) :
      Effect kernel log before (.release file granted) { retval := 0, delivered := [] }
        { device := { before.device with memory := memory }
          files := Function.update before.files file none }

theorem rwVerifyArea_iff {fPos : Int} {count : Nat} :
    rwVerifyArea fPos count = true ↔ 0 ≤ fPos ∧ fPos + count ≤ llongMax := by
  simp [rwVerifyArea]

theorem loffT_advance {fPos : Int} {count : Nat} (verified : rwVerifyArea fPos count = true) :
    loffT (fPos + count) = fPos + count := by
  obtain ⟨nonneg, bounded⟩ := rwVerifyArea_iff.mp verified
  unfold llongMax at bounded
  exact loffT_of_range (by omega) (by omega)

theorem aesdLseek_range (device : Device) (fPos off whence : Int) (nonneg : 0 ≤ fPos)
    (bounded : fPos ≤ llongMax) (sizeBounded : device.buffSize < 2 ^ 63) :
    0 ≤ (aesdLseek device fPos (loffT off) whence).1 ∧
      (aesdLseek device fPos (loffT off) whence).1 ≤ llongMax := by
  have offBounded := (loffT_range off).2
  have sumBounded := (loffT_range (fPos + loffT off)).2
  unfold llongMax at bounded ⊢
  unfold aesdLseek
  dsimp only
  split
  · exact ⟨nonneg, bounded⟩
  · rename_i newFpos chosen
    have newBounded : newFpos < 2 ^ 63 := by
      split at chosen
      · cases chosen
        exact offBounded
      · split at chosen
        · cases chosen
          exact sumBounded
        · split at chosen
          · cases chosen
            exact sizeBounded
          · cases chosen
    by_cases negative : 0 > newFpos
    · rw [if_pos negative]
      exact ⟨nonneg, bounded⟩
    · rw [if_neg negative]
      constructor
      · exact Int.not_lt.mp negative
      · change newFpos ≤ _
        omega

/-- Positions of open files stay in the non-negative half of `loff_t`. -/
def System.PositionsValid (system : System) : Prop :=
  ∀ file fPos, system.files file = some fPos → 0 ≤ fPos ∧ fPos ≤ llongMax

/-! ### Every successful call has such an effect -/

section

variable {kernel : Kernel} {log : CommandLog} {before after : System} {reply : Reply}

theorem System.step_refused {call : Call} (outside : ¬before.Admits call) :
    ∃ reply, before.step kernel call = .ok (before, reply) ∧ reply.retval < 0 := by
  cases call with
  | openFile file =>
      cases opened : before.files file with
      | none => exact absurd opened outside
      | some fPos =>
          refine ⟨{ retval := -ebadf, delivered := [] }, ?_, by decide⟩
          simp only [System.step, opened]
  | write file env buff fits =>
      cases opened : before.files file with
      | none =>
          refine ⟨{ retval := -ebadf, delivered := [] }, ?_, by decide⟩
          simp only [System.step, opened]
      | some fPos =>
          have unverified : ¬rwVerifyArea fPos buff.length = true :=
            fun verified => outside ⟨fPos, opened, verified⟩
          refine ⟨{ retval := -einval, delivered := [] }, ?_, by decide⟩
          simp only [System.step, opened, if_neg unverified]
  | read file env count =>
      cases opened : before.files file with
      | none =>
          refine ⟨{ retval := -ebadf, delivered := [] }, ?_, by decide⟩
          simp only [System.step, opened]
      | some fPos =>
          have unverified : ¬rwVerifyArea fPos count = true :=
            fun verified => outside ⟨fPos, opened, verified⟩
          refine ⟨{ retval := -einval, delivered := [] }, ?_, by decide⟩
          simp only [System.step, opened, if_neg unverified]
  | lseek file off whence =>
      have unopened : before.files file = none := by
        by_contra opened
        exact outside (Option.ne_none_iff_exists'.mp opened)
      refine ⟨{ retval := -ebadf, delivered := [] }, ?_, by decide⟩
      simp only [System.step, unopened]
  | release file granted =>
      have unopened : before.files file = none := by
        by_contra opened
        exact outside (Option.ne_none_iff_exists'.mp opened)
      refine ⟨{ retval := -ebadf, delivered := [] }, ?_, by decide⟩
      simp only [System.step, unopened]

theorem files_same_position {file : Nat} {fPos : Int} (opened : before.files file = some fPos) :
    Function.update before.files file (some fPos) = before.files := by
  rw [← opened]
  exact Function.update_eq_self file before.files

private theorem write_effect (rep : before.device.Represents kernel log) {file : Nat}
    {env : WriteEnv} {buff : List Byte} {fits : buff.length ≤ maxRwCount} {fPos : Int}
    (opened : before.files file = some fPos) (verified : rwVerifyArea fPos buff.length = true)
    (taken : before.step kernel (.write file env buff fits) = .ok (after, reply)) :
    Effect kernel log before (.write file env buff fits) reply after := by
  simp only [System.step, opened, if_pos verified] at taken
  by_cases accepts : env.Accepts kernel before.device buff
  · by_cases something : log.pending ++ buff = []
    · -- the one request that does not return
      obtain ⟨nothing, empty⟩ := List.append_eq_nil_iff.mp something
      subst empty
      rw [rep.aesdWrite_nothing env fPos nothing accepts] at taken
      cases taken
    · cases ends : endsCommand buff with
      | false =>
          obtain ⟨memory, changes, written⟩ := rep.aesdWrite_stored env buff fPos fits
            something accepts ends
          rw [written] at taken
          simp only [loffT_advance verified] at taken
          cases taken
          exact .storedWrite opened verified accepts something ends changes
      | true =>
          obtain ⟨memory, changes, written⟩ := rep.aesdWrite_committed env buff fPos fits
            accepts ends
          rw [written] at taken
          simp only [loffT_advance verified] at taken
          cases taken
          exact .committedWrite opened verified accepts ends changes
  · obtain ⟨memory, retval, written, negative, changes⟩ :=
      rep.aesdWrite_refused env buff fPos fits accepts
    rw [written] at taken
    simp only [files_same_position opened] at taken
    cases taken
    exact .refusedWrite changes negative

private theorem read_effect (rep : before.device.Represents kernel log) {file : Nat}
    {env : ReadEnv} {count : Nat} {fPos : Int} (opened : before.files file = some fPos)
    (verified : rwVerifyArea fPos count = true)
    (taken : before.step kernel (.read file env count) = .ok (after, reply)) :
    Effect kernel log before (.read file env count) reply after := by
  simp only [System.step, opened, if_pos verified] at taken
  obtain ⟨nonneg, bounded⟩ := rwVerifyArea_iff.mp verified
  rcases rep.aesdRead_cases env count fPos with
    ⟨idle, retval, outcome, _⟩ |
    ⟨allocates, narrow, memory, bytes, _, small, changes, outcome⟩
  · rw [outcome] at taken
    simp only [files_same_position opened] at taken
    cases taken
    exact .idleRead opened verified idle
  · have sameDevice : (readOutcome env before.device memory count fPos bytes).device =
        { before.device with memory := memory } := by
      unfold readOutcome
      split <;> rfl
    have narrowPosition : fPos < 2 ^ 32 := by
      unfold llongMax at bounded
      rw [loffToSizeT_of_nonneg nonneg (by omega)] at narrow
      omega
    rw [outcome] at taken
    simp only [sameDevice] at taken
    cases taken
    exact .allocatedRead opened verified allocates narrowPosition small changes

private theorem lseek_effect (rep : before.device.Represents kernel log)
    (valid : before.PositionsValid) {file : Nat} {off whence fPos : Int}
    (opened : before.files file = some fPos)
    (taken : before.step kernel (.lseek file off whence) = .ok (after, reply)) :
    Effect kernel log before (.lseek file off whence) reply after := by
  simp only [System.step, opened] at taken
  cases taken
  obtain ⟨nonneg, bounded⟩ := valid file fPos opened
  have sizeBounded : before.device.buffSize < 2 ^ 63 := by
    rw [rep.buffSize]
    exact (loffT_range _).2
  obtain ⟨newNonneg, newBounded⟩ := aesdLseek_range before.device fPos off whence
    nonneg bounded sizeBounded
  exact .moved newNonneg newBounded (by intros; simp) (by intros; simp)

theorem System.step_effect (rep : before.device.Represents kernel log)
    (valid : before.PositionsValid) {call : Call}
    (taken : before.step kernel call = .ok (after, reply)) :
    Effect kernel log before call reply after := by
  by_cases admitted : before.Admits call
  · cases call with
    | openFile file =>
        have unused : before.files file = none := admitted
        simp only [System.step, unused] at taken
        cases taken
        exact .moved (by decide) (by decide) (by intros; simp) (by intros; simp)
    | write file env buff fits =>
        obtain ⟨fPos, opened, verified⟩ := admitted
        exact write_effect rep opened verified taken
    | read file env count =>
        obtain ⟨fPos, opened, verified⟩ := admitted
        exact read_effect rep opened verified taken
    | lseek file off whence =>
        obtain ⟨fPos, opened⟩ := admitted
        exact lseek_effect rep valid opened taken
    | release file granted =>
        obtain ⟨fPos, opened⟩ := admitted
        obtain ⟨memory, released, changes⟩ := rep.aesdRelease_quiet granted
        simp only [System.step, opened, released] at taken
        cases taken
        exact .released changes
  · obtain ⟨refusal, refused, negative⟩ := System.step_refused admitted
    cases refused.symm.trans taken
    exact .refused admitted negative

end

/-! ### What every effect keeps -/

def writtenBytes : Call × Reply → Option (List Byte)
  | (.write _ _ buff _, reply) => if 0 ≤ reply.retval then some buff else none
  | _ => none

/-- The successful writes of a run, in the order in which they held the lock. -/
def writtenBy (steps : List DriverStep) : List (List Byte) :=
  steps.filterMap fun taken => writtenBytes taken.label

def CommandLog.advance (log : CommandLog) (label : Call × Reply) : CommandLog :=
  match writtenBytes label with
  | some bytes => log.write bytes
  | none => log

theorem ofWrites_writtenBy_append (steps : List DriverStep) (taken : DriverStep) :
    CommandLog.ofWrites (writtenBy (steps ++ [taken])) =
      (CommandLog.ofWrites (writtenBy steps)).advance taken.label := by
  unfold writtenBy CommandLog.advance
  rw [List.filterMap_append]
  cases written : writtenBytes taken.label with
  | none => simp [written]
  | some bytes =>
      simp only [written, List.filterMap_cons, List.filterMap_nil]
      exact CommandLog.ofWrites_append_singleton _ _

theorem writtenBytes_eq_some {call : Call} {reply : Reply} {bytes : List Byte} :
    writtenBytes (call, reply) = some bytes ↔
      ∃ file env fits, call = .write file env bytes fits ∧ 0 ≤ reply.retval := by
  constructor
  · intro written
    cases call with
    | write file env buff fits =>
        rw [writtenBytes] at written
        split at written
        · rename_i success
          cases written
          exact ⟨file, env, fits, rfl, success⟩
        · cases written
    | openFile file => cases written
    | read file env count => cases written
    | lseek file off whence => cases written
    | release file granted => cases written
  · rintro ⟨file, env, fits, rfl, success⟩
    rw [writtenBytes, if_pos success]

theorem advance_of_written {log : CommandLog} {label : Call × Reply} {bytes : List Byte}
    (written : writtenBytes label = some bytes) : log.advance label = log.write bytes := by
  simp only [CommandLog.advance, written]

theorem advance_of_nothing {log : CommandLog} {call : Call} {reply : Reply}
    (nothing : ∀ file env buff fits, call = .write file env buff fits → reply.retval < 0) :
    log.advance (call, reply) = log := by
  have none : writtenBytes (call, reply) = none := by
    apply Option.eq_none_iff_forall_ne_some.mpr
    intro bytes written
    obtain ⟨file, env, fits, call_eq, success⟩ := writtenBytes_eq_some.mp written
    have negative := nothing file env bytes fits call_eq
    omega
  simp only [CommandLog.advance, none]

private theorem advance_of_counted (log : CommandLog) {file : Nat} {env : WriteEnv}
    {buff : List Byte} {fits : buff.length ≤ maxRwCount} :
    log.advance (.write file env buff fits, { retval := buff.length, delivered := [] }) =
      log.write buff :=
  advance_of_written
    (writtenBytes_eq_some.mpr ⟨file, env, fits, rfl, Int.natCast_nonneg _⟩)

theorem write_retval_negative {retval : Int}
    (failed : retval = -erestartsys ∨ retval = -enomem ∨ retval = -efault) : retval < 0 := by
  unfold erestartsys enomem efault at failed
  omega

/-- Only an accepted write through an open file writes. -/
theorem Effect.accepted_of_written {kernel : Kernel} {log : CommandLog} {before after : System}
    {call : Call} {reply : Reply} {bytes : List Byte}
    (effect : Effect kernel log before call reply after)
    (written : writtenBytes (call, reply) = some bytes) :
    ∃ file env fits fPos, call = .write file env bytes fits ∧
      before.files file = some fPos ∧ rwVerifyArea fPos bytes.length = true ∧
      env.Accepts kernel before.device bytes := by
  obtain ⟨file, env, fits, rfl, success⟩ := writtenBytes_eq_some.mp written
  cases effect with
  | refused _ negative => omega
  | refusedWrite _ failed =>
      have negative := write_retval_negative failed
      omega
  | storedWrite opened verified accepts _ _ _ =>
      exact ⟨file, env, fits, _, rfl, opened, verified, accepts⟩
  | committedWrite opened verified accepts _ _ =>
      exact ⟨file, env, fits, _, rfl, opened, verified, accepts⟩
  | moved _ _ nothingWritten _ => exact absurd rfl (nothingWritten file env bytes fits)

theorem Effect.represents {kernel : Kernel} {log : CommandLog} {before after : System}
    {call : Call} {reply : Reply} (rep : before.device.Represents kernel log)
    (effect : Effect kernel log before call reply after) :
    after.device.Represents kernel (log.advance (call, reply)) := by
  cases effect with
  | refused _ negative =>
      rw [advance_of_nothing fun _ _ _ _ _ => negative]
      exact rep
  | refusedWrite changes failed =>
      rw [advance_of_nothing fun _ _ _ _ _ => write_retval_negative failed]
      exact rep.of_changes changes
  | storedWrite _ _ accepts something continues changes =>
      rw [advance_of_counted]
      exact rep.stored_represents changes something (accepts.small rep) continues
  | committedWrite _ _ accepts ends changes =>
      rw [advance_of_counted]
      exact rep.committed_represents changes (accepts.small rep) ends
  | idleRead _ _ _ => exact rep
  | allocatedRead _ _ _ _ _ changes => exact rep.of_changes changes
  | moved _ _ nothingWritten _ =>
      rw [advance_of_nothing fun file env buff fits same =>
        absurd same (nothingWritten file env buff fits)]
      exact rep
  | released changes => exact rep.of_changes changes

private theorem PositionsValid.update {system : System} (valid : system.PositionsValid)
    {device : Device} {file : Nat} {fPos : Int} (nonneg : 0 ≤ fPos) (bounded : fPos ≤ llongMax) :
    System.PositionsValid
      { device := device, files := Function.update system.files file (some fPos) } := by
  intro other position opened
  by_cases same : other = file
  · subst same
    simp only [Function.update_self, Option.some.injEq] at opened
    subst opened
    exact ⟨nonneg, bounded⟩
  · simp only [Function.update_of_ne same] at opened
    exact valid other position opened

theorem Effect.positionsValid {kernel : Kernel} {log : CommandLog} {before after : System}
    {call : Call} {reply : Reply} (valid : before.PositionsValid)
    (effect : Effect kernel log before call reply after) : after.PositionsValid := by
  cases effect with
  | refused _ _ => exact valid
  | refusedWrite _ _ => exact valid
  | storedWrite _ verified _ _ _ _ =>
      obtain ⟨nonneg, bounded⟩ := rwVerifyArea_iff.mp verified
      exact PositionsValid.update valid (by omega) bounded
  | committedWrite _ verified _ _ _ =>
      obtain ⟨nonneg, bounded⟩ := rwVerifyArea_iff.mp verified
      exact PositionsValid.update valid (by omega) bounded
  | idleRead _ _ _ => exact valid
  | @allocatedRead file env count fPos memory bytes opened verified _ narrow small _ =>
      obtain ⟨nonneg, bounded⟩ := rwVerifyArea_iff.mp verified
      have sizeBounded := kernel.addressable
      unfold llongMax at bounded
      have advanced : loffT (fPos + bytes.length) = fPos + bytes.length :=
        loffT_of_range (by omega) (by omega)
      apply PositionsValid.update valid
      · unfold readOutcome
        split
        · exact nonneg
        · change 0 ≤ loffT _
          omega
      · unfold readOutcome llongMax
        split
        · change fPos ≤ _
          omega
        · change loffT _ ≤ _
          omega
  | moved nonneg bounded _ _ => exact PositionsValid.update valid nonneg bounded
  | @released file granted memory _ =>
      intro other position opened
      by_cases same : other = file
      · subst same
        simp [Function.update_self] at opened
      · simp only [Function.update_of_ne same] at opened
        exact valid other position opened

/-! ### Calls that cannot fault -/

def Call.Nonempty : Call → Prop
  | .write _ _ buff _ => buff ≠ []
  | _ => True

theorem Device.Represents.aesdWrite_returns {kernel : Kernel} {device : Device}
    {log : CommandLog} (rep : device.Represents kernel log) (env : WriteEnv) {buff : List Byte}
    (fPos : Int) (fits : buff.length ≤ maxRwCount) (nonempty : buff ≠ []) :
    ∃ result, aesdWrite kernel env device buff fPos = .ok result := by
  by_cases accepts : env.Accepts kernel device buff
  · obtain ⟨after, written, _⟩ := rep.aesdWrite_accepted env buff fPos fits
      (List.append_ne_nil_of_right_ne_nil _ nonempty) accepts
    exact ⟨_, written⟩
  · obtain ⟨memory, retval, written, _, _⟩ := rep.aesdWrite_refused env buff fPos fits accepts
    exact ⟨_, written⟩

theorem Device.Represents.aesdRead_returns {kernel : Kernel} {device : Device}
    {log : CommandLog} (rep : device.Represents kernel log) (env : ReadEnv) (count : Nat)
    (fPos : Int) : ∃ result, aesdRead kernel env device count fPos = .ok result := by
  rcases rep.aesdRead_cases env count fPos with
    ⟨_, retval, outcome, _⟩ | ⟨_, _, memory, bytes, _, _, _, outcome⟩
  · exact ⟨_, outcome⟩
  · exact ⟨_, outcome⟩

theorem System.step_returns {kernel : Kernel} {log : CommandLog} {system : System}
    (rep : system.device.Represents kernel log) {call : Call} (nonempty : call.Nonempty) :
    ∃ next reply, system.step kernel call = .ok (next, reply) := by
  cases call with
  | openFile file =>
      simp only [System.step]
      split <;> exact ⟨_, _, rfl⟩
  | write file env buff fits =>
      simp only [System.step]
      cases system.files file with
      | none => exact ⟨_, _, rfl⟩
      | some fPos =>
          obtain ⟨result, written⟩ := rep.aesdWrite_returns env fPos fits nonempty
          simp only [written]
          split <;> exact ⟨_, _, rfl⟩
  | read file env count =>
      simp only [System.step]
      cases system.files file with
      | none => exact ⟨_, _, rfl⟩
      | some fPos =>
          obtain ⟨result, outcome⟩ := rep.aesdRead_returns env count fPos
          simp only [outcome]
          split <;> exact ⟨_, _, rfl⟩
  | lseek file off whence =>
      simp only [System.step]
      split <;> exact ⟨_, _, rfl⟩
  | release file granted =>
      obtain ⟨memory, released, _⟩ := rep.aesdRelease_quiet granted
      simp only [System.step, released]
      split <;> exact ⟨_, _, rfl⟩

/-! ### Runs -/

/-- Every state a run reaches holds the log of the run's successful writes. -/
theorem DriverRun.represents {kernel : Kernel} {boot : InitEnv} {steps : List DriverStep}
    {system : System} (loaded : (aesdInitModule kernel boot).retval = 0)
    (run : DriverRun kernel boot steps system) :
    system.device.Represents kernel (CommandLog.ofWrites (writtenBy steps)) ∧
      system.PositionsValid := by
  induction run with
  | start =>
      constructor
      · exact aesdInitModule_represents kernel boot loaded
      · intro file fPos opened
        cases opened
  | @extend steps current next label earlier last ih =>
      obtain ⟨call, reply⟩ := label
      have effect : Effect kernel (CommandLog.ofWrites (writtenBy steps)) current call reply next :=
        System.step_effect ih.1 ih.2 last
      constructor
      · rw [ofWrites_writtenBy_append]
        exact effect.represents ih.1
      · exact effect.positionsValid ih.2

theorem DriverRun.effect_of_mem {kernel : Kernel} {boot : InitEnv} {steps : List DriverStep}
    {system : System} (loaded : (aesdInitModule kernel boot).retval = 0)
    (run : DriverRun kernel boot steps system) {taken : DriverStep} (member : taken ∈ steps) :
    ∃ log, taken.before.device.Represents kernel log ∧ taken.before.PositionsValid ∧
      Effect kernel log taken.before taken.label.1 taken.label.2 taken.after := by
  obtain ⟨step, earlier, later, _, reached⟩ := run.reaches_before taken member
  obtain ⟨rep, valid⟩ := DriverRun.represents loaded reached
  exact ⟨_, rep, valid, System.step_effect rep valid step⟩

end Aesd.Driver
