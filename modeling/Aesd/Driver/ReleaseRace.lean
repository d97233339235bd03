/-
Closing a file while other processes read and write.

`aesd_release` dumps the ring without the lock, in the middle of whatever the
holder of the lock is doing.  A write that completes a command on a full ring frees
the oldest entry and overwrites its slot; every such write can be met by a dump in
such a way that the dump reads freed memory.  Nothing else can go wrong: a dump that
faults has met a write of this kind at some moment since its close.
-/

import Aesd.Driver.DumpSteps
import Aesd.Driver.InterleavedSafety

namespace Aesd.Driver

open BlockHeap
open Execution
open Monitor

/-! ### Closes among the calls -/

/-- The interleaved kernel with what is left of each process's dump. -/
structure Closing where
  calls : Concurrent
  dumps : Nat → Option (DeviceProgram Unit)

def Closing.device (state : Closing) : Device := state.calls.threads.state

inductive ClosingAction where
  | call (action : KernelAction)
  | close (process file : Nat) (granted : Nat → Bool)
  | dump (process : Nat)

def KernelAction.IsRelease : KernelAction → Prop
  | .invoke _ call => call.IsRelease
  | .proceed _ _ => False

instance : (action : KernelAction) → Decidable action.IsRelease
  | .invoke _ call => inferInstanceAs (Decidable call.IsRelease)
  | .proceed _ _ => .isFalse id

/-- A close takes the file away and begins its dump; each access of the dump is a
step of its own.  A process makes no other call before its close has returned. -/
def Closing.step (kernel : Kernel) (state : Closing) :
    ClosingAction → Except (Refusal Fault) (Closing × Option (Call × Reply))
  | .call action =>
      if action.IsRelease ∨ (state.dumps action.process).isSome then .error .notPossible
      else
        match state.calls.step kernel action with
        | .error refusal => .error refusal
        | .ok (calls, output) => .ok ({ state with calls := calls }, output)
  | .close process file granted =>
      match state.calls.threads.phase process, state.dumps process, state.calls.files file with
      | .idle, none, some _ =>
          .ok ({ calls :=
                   { state.calls with files := Function.update state.calls.files file none }
                 dumps := Function.update state.dumps process
                   (some (aesdShowCircularBufferSteps kernel granted)) }, none)
      | _, _, _ => .error .notPossible
  | .dump process =>
      match state.dumps process with
      | some (.step effect next) =>
          .ok ({ calls :=
                   { state.calls with
                     threads := { state.calls.threads with state := effect state.device } }
                 dumps := Function.update state.dumps process (some (next state.device)) }, none)
      | some (.finish _) =>
          .ok ({ state with dumps := Function.update state.dumps process none }, none)
      | some (.fail fault) => .error (.faulted fault)
      | none => .error .notPossible

def Closing.start (calls : Concurrent) : Closing :=
  { calls := calls, dumps := fun _ => none }

abbrev ClosingStep := Transition Closing (ClosingAction × Option (Call × Reply))

abbrev ClosingRun (kernel : Kernel) (boot : InitEnv) : List ClosingStep → Closing → Prop :=
  Run (Succeeds (Closing.step kernel)) (.start (.loaded kernel boot))

/-! ### Runs without a close

Runs of the atomic driver are runs of the interleaved kernel in which each call
is left alone from its beginning to its end. -/

def Concurrent.quiet (system : System) : Concurrent :=
  { threads := .start system.device, files := system.files }

theorem transfer_alone {kernel : Kernel} {system next : System} {transfer : Transfer}
    {reply : Reply} (opened : system.files transfer.file = some transfer.fPos)
    (verified : rwVerifyArea transfer.fPos transfer.count = true)
    (stepped : system.step kernel transfer.call = .ok (next, reply)) :
    ∃ result, (lockedCalls kernel).alone transfer system.device = .ok (next.device, result) ∧
      next.files = Function.update system.files transfer.file (some result.fPos) := by
  cases alone : (lockedCalls kernel).alone transfer system.device with
  | ok reached =>
      obtain ⟨device, result⟩ := reached
      rw [step_transfer opened verified alone] at stepped
      cases stepped
      exact ⟨result, rfl, rfl⟩
  | error fault =>
      cases transfer with
      | write file env buff fits fPos =>
          have position : system.files file = some fPos := opened
          have area : rwVerifyArea fPos buff.length = true := verified
          rw [lockedCalls_write] at alone
          cases written : aesdWrite kernel env system.device buff fPos with
          | error found =>
              simp only [Transfer.call, System.step, position, area, if_true, written] at stepped
              cases stepped
          | ok outcome =>
              rw [written] at alone
              cases alone
      | read file env count fPos =>
          have position : system.files file = some fPos := opened
          have area : rwVerifyArea fPos count = true := verified
          rw [lockedCalls_read] at alone
          cases read : aesdRead kernel env system.device count fPos with
          | error found =>
              simp only [Transfer.call, System.step, position, area, if_true, read] at stepped
              cases stepped
          | ok outcome =>
              rw [read] at alone
              cases alone

section

variable {kernel : Kernel}

private theorem storePosition_returned {files : Nat → Option Int} {transfer : Transfer}
    {before after : Device} {result : CallResult}
    (opened : files transfer.file = some transfer.fPos)
    (alone : (lockedCalls kernel).alone transfer before = .ok (after, result)) :
    storePosition files transfer result =
      Function.update files transfer.file (some result.fPos) := by
  unfold storePosition
  by_cases succeeded : 0 ≤ result.retval
  · rw [if_pos succeeded]
  · rw [if_neg succeeded, lockedCalls_failed alone (by omega), ← opened,
      Function.update_eq_self]

private theorem responds {system next : System} {transfer : Transfer} {result : CallResult}
    (process : Nat) (files : storePosition system.files transfer result = next.files) :
    Succeeds (Concurrent.step kernel)
      { threads := (Threads.start system.device).goto process (.done transfer result) next.device
          none
        files := system.files }
      (.proceed process .respond, some (transfer.call, result.reply)) (.quiet next) := by
  simp only [Succeeds, Concurrent.step, Threads.step, LockStep.action, Threads.goto,
    Threads.become, Threads.start, Function.update_self, Function.update_idem,
    Concurrent.quiet, files]
  rw [Function.update_eq_self_iff.mpr rfl]

private theorem asks {system : System} {call : Call} {transfer : Transfer}
    (found : system.transfer? call = some transfer) (process : Nat) :
    Succeeds (Concurrent.step kernel) (.quiet system) (.invoke process call, none)
      { threads := (Threads.start system.device).goto process (.waiting transfer) system.device
          none
        files := system.files } := by
  have same : (Concurrent.quiet system).system = system := rfl
  simp only [Succeeds, Concurrent.step, same, found]
  rfl

theorem Concurrent.quiet_call (process : Nat) {system next : System} {call : Call}
    {reply : Reply} (stepped : system.step kernel call = .ok (next, reply)) :
    ∃ more, Run (Succeeds (Concurrent.step kernel)) (.quiet system) more (.quiet next) ∧
      (¬call.IsRelease → ∀ taken, taken ∈ more → ¬taken.label.1.IsRelease) := by
  cases found : system.transfer? call with
  | none =>
      have same : (Concurrent.quiet system).system = system := rfl
      have atOnce : Succeeds (Concurrent.step kernel) (.quiet system)
          (.invoke process call, some (call, reply)) (.quiet next) := by
        simp only [Succeeds, Concurrent.step, same, found, stepped]
        rfl
      refine ⟨_, Run.start.extend atOnce, ?_⟩
      intro other taken member
      rw [List.mem_singleton.mp member]
      exact other
  | some transfer =>
      obtain ⟨sameCall, opened, verified⟩ := System.transfer?_eq_some found
      rw [← sameCall] at stepped
      obtain ⟨result, alone, files⟩ := transfer_alone opened verified stepped
      obtain ⟨steps, run, own⟩ := Threads.completes (lockedCalls kernel)
        (Threads.start system.device) process transfer alone
      obtain ⟨more, reached, mine⟩ := Concurrent.proceeds system.files run own
      have stored := (storePosition_returned opened alone).trans files.symm
      refine ⟨_, ((Run.start.extend (asks found _)).append reached).extend (responds _ stored), ?_⟩
      intro other taken member
      rcases List.mem_append.mp member with earlier | last
      · rcases List.mem_append.mp earlier with first | within
        · rw [List.mem_singleton.mp first]
          exact other
        · obtain ⟨step, proceeds⟩ := mine taken within
          rw [proceeds]
          exact id
      · rw [List.mem_singleton.mp last]
        exact id

theorem Closing.of_calls {start final : Concurrent} {steps : List ConcurrentStep}
    (run : Run (Succeeds (Concurrent.step kernel)) start steps final)
    (without : ∀ taken, taken ∈ steps → ¬taken.label.1.IsRelease) :
    ∃ more, Run (Succeeds (Closing.step kernel)) (.start start) more (.start final) := by
  induction run with
  | start => exact ⟨[], .start⟩
  | @extend steps current next label earlier taken ih =>
      obtain ⟨more, reached⟩ := ih fun other member =>
        without other (List.mem_append_left _ member)
      have other : ¬label.1.IsRelease := without ⟨current, label, next⟩
        (List.mem_append_right _ (List.mem_singleton_self _))
      have stepped : Succeeds (Closing.step kernel) (.start current) (.call label.1, label.2)
          (.start next) := by
        have called : current.step kernel label.1 = .ok (next, label.2) := taken
        simp only [Succeeds, Closing.step, Closing.start, other, Option.isSome_none,
          Bool.false_eq_true, or_self, if_false, called]
      exact ⟨_, reached.extend stepped⟩

theorem Closing.quiet_run {boot : InitEnv} {steps : List DriverStep} {system : System}
    (run : DriverRun kernel boot steps system)
    (without : ∀ taken, taken ∈ steps → ¬taken.label.1.IsRelease) :
    ∃ more, ClosingRun kernel boot more (.start (.quiet system)) := by
  induction run with
  | start => exact ⟨[], .start⟩
  | @extend steps current next label earlier taken ih =>
      obtain ⟨more, reached⟩ := ih fun other member =>
        without other (List.mem_append_left _ member)
      obtain ⟨calls, called, others⟩ := Concurrent.quiet_call 0 taken
      obtain ⟨further, closing⟩ := Closing.of_calls called (others (without ⟨current, label, next⟩
        (List.mem_append_right _ (List.mem_singleton_self _))))
      exact ⟨more ++ further, reached.append closing⟩

/-! ### The window opens -/

variable {device final : Device} {log : CommandLog}

theorem commitSteps_visits {base : Device} (rep : base.Represents kernel log)
    (full : base.ring.full = true) (spares : Spares base device) (env : WriteEnv)
    (entry : BufferEntry) (ended : (commitSteps kernel env entry).alone device = .ok (final, ())) :
    (commitSteps kernel env entry).Visits
      (fun reached => reached.OldestFreed ∧ reached.ring = base.ring) device := by
  unfold commitSteps at ended ⊢
  apply Program.visits_bind ended (loadStep_spares spares _)
  intro looked ring lookEnded sparesLooked ended
  have looksAt : ring = base.ring := by
    cases lookEnded
    exact spares.ring
  rw [looksAt, if_pos full] at ended ⊢
  obtain ⟨after, _, freeEnded, _⟩ := Program.alone_bind_ok ended
  obtain ⟨freed, same⟩ := kfreeStep_ended freeEnded
  have window : after.OldestFreed := by
    apply rep.freed_oldestFreed full sparesLooked freed
    rw [← same]
    exact .refl after
  have sameRing : after.ring = base.ring := by
    rw [same]
    exact sparesLooked.ring
  exact Program.Visits.later ⟨_, after, .here, window, sameRing⟩ freeEnded

/-- A write that completes a command on a full ring passes through the window. -/
theorem aesdWriteSteps_visits (rep : device.Represents kernel log)
    (full : device.ring.full = true) (env : WriteEnv) (buff : List Byte) (fPos : Int)
    (fits : buff.length ≤ maxRwCount) (accepts : env.Accepts kernel device buff)
    (ends : endsCommand buff = true) :
    (aesdWriteSteps kernel env buff fPos).Visits
      (fun reached => reached.OldestFreed ∧ reached.ring = device.ring) device := by
  obtain ⟨memory, _, written⟩ := rep.aesdWrite_committed env buff fPos fits accepts ends
  have ended := aesdWriteSteps_alone kernel env buff fPos device accepts.1
  rw [written] at ended
  revert ended
  apply rep.aesdWriteSteps_induction env buff fPos
    (motive := fun program reached =>
      program.alone reached = .ok (device.committed memory (log.pending ++ buff),
          { fPos := loffT (fPos + buff.length), retval := buff.length, delivered := [] }) →
        program.Visits (fun visited => visited.OldestFreed ∧ visited.ring = device.ring) reached)
  · intro Answer first rest reached spares later ended
    apply Program.visits_bind ended spares
    intro last answer firstEnded sparesLast
    exact later last answer firstEnded sparesLast
  · intro reached result negative ended
    cases ended
    exact absurd negative (by simp)
  · intro reached result present ended
    cases ended
    exact absurd rfl present
  · intro reached entry result spares ended
    obtain ⟨committed, _, commitEnded, _⟩ := Program.alone_bind_ok ended
    exact (commitSteps_visits rep full spares env entry commitEnded).first _

theorem aesdShowCircularBufferSteps_freed (freed : device.OldestFreed)
    (positive : 0 < (device.ring.entry device.ring.outOffs).size)
    (fitting : (device.ring.entry device.ring.outOffs).size + 1 < 2 ^ 64)
    {granted : Nat → Bool} (firstGranted : granted 0 = true)
    (small : (device.ring.entry device.ring.outOffs).size < kernel.kmallocMaxSize) :
    (aesdShowCircularBufferSteps kernel granted).alone device = .error .outOfBounds := by
  obtain ⟨_, identifier, pointer, _, dead⟩ := freed
  have first : (showEntrySteps kernel (granted 0) (slotFrom device.ring.outOffs 0)).alone device =
      .error .outOfBounds := by
    have slot : slotFrom device.ring.outOffs 0 = device.ring.outOffs := Fin.ofNat_val_eq_self _
    rw [slot, showEntrySteps_alone, sizeT_of_lt fitting,
      kmalloc_granted kernel _ ⟨firstGranted, small⟩ (by omega), pointer,
      if_pos ⟨Ptr.noConfusion, Ptr.noConfusion⟩, loadRange_dead dead 0 positive]
    rfl
  have indices : List.range 10 = 0 :: List.range' 1 9 := rfl
  unfold aesdShowCircularBufferSteps
  rw [alone_loadStep_bind, indices]
  refine (Program.alone_bind _ _ device).trans ?_
  rw [first]
  rfl

theorem Closing.dumps_run (calls : Concurrent) {program left : DeviceProgram Unit}
    {last : Device} (reaches : program.Reaches calls.threads.state left last)
    (keeps : program.Keeps (id : Device → Device)) (process : Nat)
    (dumps : Nat → Option (DeviceProgram Unit)) :
    ∃ more, Run (Succeeds (Closing.step kernel))
      { calls := calls, dumps := Function.update dumps process (some program) } more
      { calls := calls, dumps := Function.update dumps process (some left) } := by
  generalize start : calls.threads.state = device at reaches
  induction reaches with
  | here => exact ⟨[], .start⟩
  | @step effect next device last left later ih =>
      have same : effect device = device := keeps.1 device
      have accessed : Succeeds (Closing.step kernel)
          { calls := calls, dumps := Function.update dumps process (some (.step effect next)) }
          (.dump process, none)
          { calls := calls, dumps := Function.update dumps process (some (next device)) } := by
        simp only [Succeeds, Closing.step, Closing.device, Function.update_self,
          Function.update_idem, start, same]
        rw [← start]
      obtain ⟨more, reached⟩ := ih (keeps.2 device) (start.trans same.symm)
      exact ⟨_, (Run.start.extend accessed).append reached⟩

theorem Closing.close_faults (calls : Concurrent) (freed : calls.threads.state.OldestFreed)
    (positive :
      0 < (calls.threads.state.ring.entry calls.threads.state.ring.outOffs).size)
    (fitting :
      (calls.threads.state.ring.entry calls.threads.state.ring.outOffs).size + 1 < 2 ^ 64)
    (small : (calls.threads.state.ring.entry calls.threads.state.ring.outOffs).size <
      kernel.kmallocMaxSize)
    {closer other : Nat} {fPos : Int} (idle : calls.threads.phase closer = .idle)
    (opened : calls.files other = some fPos) {granted : Nat → Bool}
    (firstGranted : granted 0 = true) :
    ∃ more state, Run (Succeeds (Closing.step kernel)) (.start calls) more state ∧
      state.calls = { calls with files := Function.update calls.files other none } ∧
      (∃ taken, taken ∈ more ∧ taken.label.1 = .close closer other granted) ∧
      state.step kernel (.dump closer) = .error (.faulted .outOfBounds) := by
  have closes : Succeeds (Closing.step kernel) (.start calls) (.close closer other granted, none)
      { calls := { calls with files := Function.update calls.files other none }
        dumps := Function.update (fun _ => none) closer
          (some (aesdShowCircularBufferSteps kernel granted)) } := by
    simp only [Succeeds, Closing.step, Closing.start, idle, opened]
  obtain ⟨last, failing⟩ := Program.reaches_fail
    (aesdShowCircularBufferSteps_freed freed positive fitting firstGranted small)
  obtain ⟨dumps, dumped⟩ := Closing.dumps_run
    { calls with files := Function.update calls.files other none } failing
    (aesdShowCircularBufferSteps_keeps kernel granted) closer fun _ => none
  refine ⟨_, _, (Run.start.extend closes).append dumped, rfl,
    ⟨_, List.mem_append_left _ (List.mem_singleton_self _), rfl⟩, ?_⟩
  simp only [Closing.step, Function.update_self]

theorem Closing.write_met {system : System} (rep : system.device.Represents kernel log)
    (full : system.device.ring.full = true)
    (small : (system.device.ring.entry system.device.ring.outOffs).size < kernel.kmallocMaxSize)
    {writer closer : Nat} (apart : closer ≠ writer) {file other : Nat} (distinct : file ≠ other)
    {fPos otherPos : Int} {env : WriteEnv} {buff : List Byte} (fits : buff.length ≤ maxRwCount)
    (opened : system.files file = some fPos) (verified : rwVerifyArea fPos buff.length = true)
    (otherOpened : system.files other = some otherPos)
    (accepts : env.Accepts kernel system.device buff) (ends : endsCommand buff = true)
    (granted : Nat → Bool) (firstGranted : granted 0 = true) :
    ∃ more state left,
      Run (Succeeds (Closing.step kernel)) (.start (.quiet system)) more state ∧
      state.calls.threads.phase writer = .inside (.write file env buff fits fPos) left ∧
      state.calls.files file = some fPos ∧
      (∃ taken, taken ∈ more ∧ taken.label.1 = .close closer other granted) ∧
      state.step kernel (.dump closer) = .error (.faulted .outOfBounds) := by
  obtain ⟨left, device, reaches, window, sameRing⟩ :=
    aesdWriteSteps_visits rep full env buff fPos fits accepts ends
  have stays : (lockedCalls kernel).givesUp (.write file env buff fits fPos) = none := by
    simp [lockedCalls, Transfer.lockInterrupted, accepts.1]
  have found : system.transfer? (.write file env buff fits) =
      some (.write file env buff fits fPos) := by
    simp only [System.transfer?, opened, if_pos verified]
  -- the writer goes on to the window
  obtain ⟨advances, advanced, own⟩ := Threads.run_of_reaches (lockedCalls kernel)
    (Threads.start system.device) writer (.write file env buff fits fPos) reaches
  obtain ⟨more, proceeds, mine⟩ := Concurrent.proceeds system.files
    ((Run.start.extend (Threads.locks (Threads.start system.device) writer system.device
      stays)).append advanced) (Uninterrupted.append (.single rfl) own)
  obtain ⟨writes, written⟩ := Closing.of_calls
    ((Run.start.extend (asks found writer)).append proceeds) (by
      intro taken member
      rcases List.mem_append.mp member with first | within
      · rw [List.mem_singleton.mp first]
        exact id
      · obtain ⟨step, proceeded⟩ := mine taken within
        rw [proceeded]
        exact id)
  -- there the other process closes and dumps
  obtain ⟨identifier, pointer, _⟩ := window.2
  have sized := rep.sized system.device.ring.outOffs (by
    rw [← sameRing, pointer]
    exact Ptr.noConfusion)
  rw [← sameRing] at sized small
  obtain ⟨dumps, state, dumped, sameCalls, ⟨taken, member, closes⟩, faults⟩ :=
    Closing.close_faults
      { threads := (Threads.start system.device).goto writer
          (.inside (.write file env buff fits fPos) left) device (some writer)
        files := system.files }
      window sized.1 sized.2 small (Threads.goto_other _ apart _ _ _) otherOpened firstGranted
  refine ⟨_, state, left, written.append dumped, ?_, ?_,
    ⟨taken, List.mem_append_right _ member, closes⟩, faults⟩
  · rw [sameCalls]
    exact Function.update_self ..
  · rw [sameCalls]
    exact (Function.update_of_ne distinct ..).trans opened

end

/-- Once the ring is full, every write that completes a command can be met by the
close of another file in such a way that the dump reads freed memory. -/
theorem completing_write_races_close (kernel : Kernel) (boot : InitEnv)
    (steps : List DriverStep) (system : System)
    (loaded : (aesdInitModule kernel boot).retval = 0) (run : DriverRun kernel boot steps system)
    (full : system.device.ring.full = true)
    (small : (system.device.ring.entry system.device.ring.outOffs).size < kernel.kmallocMaxSize)
    (writer closer : Nat) (apart : closer ≠ writer) (file other : Nat) (distinct : file ≠ other)
    (env : WriteEnv) (buff : List Byte) (fits : buff.length ≤ maxRwCount)
    (admitted : system.Admits (.write file env buff fits))
    (accepts : env.Accepts kernel system.device buff) (ends : endsCommand buff = true)
    (granted : Nat → Bool) (openOther : system.Admits (.release other granted))
    (firstGranted : granted 0 = true) :
    ∃ more state fPos left,
      Run (Succeeds (Closing.step kernel)) (.start (.quiet system)) more state ∧
      state.calls.threads.phase writer = .inside (.write file env buff fits fPos) left ∧
      state.calls.files file = some fPos ∧
      (∃ taken, taken ∈ more ∧ taken.label.1 = .close closer other granted) ∧
      state.step kernel (.dump closer) = .error (.faulted .outOfBounds) := by
  obtain ⟨rep, _⟩ := DriverRun.represents loaded run
  obtain ⟨fPos, opened, verified⟩ := admitted
  obtain ⟨otherPos, otherOpened⟩ := openOther
  obtain ⟨more, state, left, met⟩ := Closing.write_met rep full small apart distinct fits opened
    verified otherOpened accepts ends granted firstGranted
  exact ⟨more, state, fPos, left, met⟩

theorem completing_write_races_close_eleven :
    ∃ steps system more state, DriverRun commonKernel plainBoot steps system ∧
      Run (Succeeds (Closing.step commonKernel)) (.start (.quiet system)) more state ∧
      state.step commonKernel (.dump 1) = .error (.faulted .outOfBounds) := by
  obtain ⟨steps, system, run, seen⟩ := execute_observe (System.step commonKernel)
    (System.loaded commonKernel plainBoot) elevenCommands
    (fun _ system => decide (system.files 0 = some 11 ∧ system.files 1 = some 2 ∧
      system.device.ring.full = true ∧
      (system.device.ring.entry system.device.ring.outOffs).size < commonKernel.kmallocMaxSize ∧
      plainWriteEnv.Accepts commonKernel system.device [10]))
    true (by decide +kernel)
  obtain ⟨opened, otherOpened, full, small, accepts⟩ := of_decide_eq_true seen
  obtain ⟨more, state, _, _, met, _, _, _, faults⟩ := completing_write_races_close commonKernel
    plainBoot steps system (by decide) run full small 0 1 (by decide) 0 1 (by decide)
    plainWriteEnv [10] (by decide) ⟨11, opened, by decide⟩ accepts (by decide) (fun _ => true)
    ⟨2, otherOpened⟩ rfl
  exact ⟨steps, system, more, state, run, met, faults⟩

/-! ### Nothing else goes wrong -/

section

variable {kernel : Kernel}

theorem lockedCalls_guarantees (transfer : Transfer) (base : Device) (holds : base.Holds kernel) :
    ((lockedCalls kernel).body transfer).Guarantees Moved base := by
  obtain ⟨log, rep⟩ := holds
  cases transfer with
  | write file env buff fits fPos => exact rep.aesdWriteSteps_guarantees env buff fits fPos
  | read file env count fPos => exact rep.aesdReadSteps_guarantees env count fPos

theorem lockedCalls_holds (transfer : Transfer) (base last : Device) (result : CallResult)
    (holds : base.Holds kernel)
    (ended : ((lockedCalls kernel).body transfer).alone base = .ok (last, result)) :
    last.Holds kernel := by
  obtain ⟨log, rep⟩ := holds
  cases transfer with
  | write file env buff fits fPos => exact rep.aesdWriteSteps_holds env buff fits fPos ended
  | read file env count fPos => exact rep.aesdReadSteps_holds env count fPos ended

theorem Concurrent.step_sound {state after : Concurrent} {action : KernelAction}
    {output : Option (Call × Reply)}
    (sound : state.threads.Sound (lockedCalls kernel) (Device.Holds kernel))
    (other : ¬action.IsRelease) (stepped : state.step kernel action = .ok (after, output)) :
    after.threads.Sound (lockedCalls kernel) (Device.Holds kernel) ∧
      (after.threads.state = state.threads.state ∨
        Moved state.threads.state after.threads.state) := by
  cases action with
  | invoke process call =>
      simp only [Concurrent.step] at stepped
      split at stepped
      · rename_i idle
        split at stepped
        · cases stepped
          exact ⟨Moves.sound lockedCalls_holds (.invoke idle) sound, .inl rfl⟩
        · rename_i outside
          split at stepped
          · cases stepped
          · rename_i next reply atomic
            cases stepped
            obtain ⟨_, _, _, _, devices⟩ :=
              System.step_without_lock outside rfl rfl (fun _ => rfl) atomic
            rcases devices with ⟨same, _⟩ | ⟨release, _⟩
            · have unchanged : next.device = state.threads.state := same
              dsimp only
              rw [unchanged]
              exact ⟨sound, .inl rfl⟩
            · exact absurd release other
      · cases stepped
  | proceed process step =>
      simp only [Concurrent.step] at stepped
      split at stepped
      · cases stepped
      · rename_i threads moved
        cases stepped
        have moves := Threads.step_moves moved
        exact ⟨moves.sound lockedCalls_holds sound,
          moves.guaranteed lockedCalls_guarantees sound⟩
      · rename_i threads transfer result moved
        cases stepped
        have moves := Threads.step_moves moved
        exact ⟨moves.sound lockedCalls_holds sound,
          moves.guaranteed lockedCalls_guarantees sound⟩

structure Closing.Watched (kernel : Kernel) (state : Closing) : Prop where
  sound : state.calls.threads.Sound (lockedCalls kernel) (Device.Holds kernel)
  seen : state.device.Readable ∨ state.device.Overwriting
  reads : ∀ process left, state.dumps process = some left → left.Keeps (id : Device → Device)

def ClosingAction.Closes (process : Nat) : ClosingAction → Prop
  | .close closer _ _ => closer = process
  | _ => False

inductive Closing.Taken (kernel : Kernel) (before : Closing) : ClosingAction → Closing → Prop where
  | called {action : KernelAction} {calls : Concurrent} {output : Option (Call × Reply)}
      (other : ¬action.IsRelease)
      (stepped : before.calls.step kernel action = .ok (calls, output)) :
      Taken kernel before (.call action) { before with calls := calls }
  | closed {process file : Nat} {fPos : Int} {granted : Nat → Bool}
      (idle : before.calls.threads.phase process = .idle) (undumped : before.dumps process = none)
      (opened : before.calls.files file = some fPos) :
      Taken kernel before (.close process file granted)
        { calls := { before.calls with files := Function.update before.calls.files file none }
          dumps := Function.update before.dumps process
            (some (aesdShowCircularBufferSteps kernel granted)) }
  | accessed {process : Nat} {effect : Device → Device} {next : Device → DeviceProgram Unit}
      (here : before.dumps process = some (.step effect next)) :
      Taken kernel before (.dump process)
        { calls :=
            { before.calls with
              threads := { before.calls.threads with state := effect before.device } }
          dumps := Function.update before.dumps process (some (next before.device)) }
  | finished {process : Nat} (here : before.dumps process = some (.finish ())) :
      Taken kernel before (.dump process)
        { before with dumps := Function.update before.dumps process none }

theorem Closing.step_taken {before after : Closing}
    {label : ClosingAction × Option (Call × Reply)}
    (stepped : Succeeds (Closing.step kernel) before label after) :
    Taken kernel before label.1 after := by
  obtain ⟨action, output⟩ := label
  cases action with
  | call action =>
      simp only [Succeeds, Closing.step] at stepped
      split at stepped
      · cases stepped
      · rename_i allowed
        split at stepped
        · cases stepped
        · rename_i called
          cases stepped
          exact .called (fun release => allowed (.inl release)) called
  | close process file granted =>
      simp only [Succeeds, Closing.step] at stepped
      split at stepped
      · rename_i idle undumped opened
        cases stepped
        exact .closed idle undumped opened
      · cases stepped
  | dump process =>
      simp only [Succeeds, Closing.step] at stepped
      split at stepped
      · rename_i here
        cases stepped
        exact .accessed here
      · rename_i here
        cases stepped
        exact .finished here
      · cases stepped
      · cases stepped

/-- Where a dump that is under way after a step was before it. -/
inductive DumpStep (kernel : Kernel) (before : Closing) (action : ClosingAction)
    (process : Nat) : DeviceProgram Unit → Prop where
  | begun (granted : Nat → Bool) (closes : action.Closes process) :
      DumpStep kernel before action process (aesdShowCircularBufferSteps kernel granted)
  | waits {left : DeviceProgram Unit} (here : before.dumps process = some left)
      (other : ¬action.Closes process) : DumpStep kernel before action process left
  | accesses {effect : Device → Device} {next : Device → DeviceProgram Unit}
      (here : before.dumps process = some (.step effect next))
      (other : ¬action.Closes process) :
      DumpStep kernel before action process (next before.device)

theorem Closing.dump_step {before after : Closing} {action : ClosingAction}
    (taken : Taken kernel before action after) {process : Nat} {left : DeviceProgram Unit}
    (underWay : after.dumps process = some left) :
    DumpStep kernel before action process left := by
  cases taken with
  | called _ _ => exact .waits underWay id
  | @closed closer file fPos granted _ _ _ =>
      dsimp only at underWay
      by_cases mine : process = closer
      · rw [mine, Function.update_self] at underWay
        cases underWay
        exact .begun granted mine.symm
      · rw [Function.update_of_ne mine] at underWay
        exact .waits underWay (Ne.symm mine)
  | @accessed dumper effect next here =>
      dsimp only at underWay
      by_cases mine : process = dumper
      · rw [mine, Function.update_self] at underWay
        cases underWay
        exact .accesses (mine ▸ here) id
      · rw [Function.update_of_ne mine] at underWay
        exact .waits underWay id
  | @finished dumper _ =>
      dsimp only at underWay
      by_cases mine : process = dumper
      · rw [mine, Function.update_self] at underWay
        cases underWay
      · rw [Function.update_of_ne mine] at underWay
        exact .waits underWay id

theorem Closing.Watched.step {before after : Closing} {action : ClosingAction}
    (watched : before.Watched kernel) (taken : Taken kernel before action after) :
    after.Watched kernel ∧ (after.device = before.device ∨ Moved before.device after.device) := by
  have reads : ∀ process left, after.dumps process = some left →
      left.Keeps (id : Device → Device) := by
    intro process left underWay
    cases Closing.dump_step taken underWay with
    | begun granted _ => exact aesdShowCircularBufferSteps_keeps kernel granted
    | waits here _ => exact watched.reads process left here
    | accesses here _ => exact (watched.reads process _ here).2 _
  have moves : after.calls.threads.Sound (lockedCalls kernel) (Device.Holds kernel) ∧
      (after.device = before.device ∨ Moved before.device after.device) := by
    cases taken with
    | called other stepped => exact Concurrent.step_sound watched.sound other stepped
    | closed _ _ _ => exact ⟨watched.sound, .inl rfl⟩
    | @accessed dumper effect next here =>
        have same : effect before.device = before.device := (watched.reads dumper _ here).1 _
        simp only [Closing.device] at same ⊢
        rw [same]
        exact ⟨watched.sound, .inl rfl⟩
    | finished _ => exact ⟨watched.sound, .inl rfl⟩
  refine ⟨⟨moves.1, ?_, reads⟩, moves.2⟩
  rcases moves.2 with same | moved
  · rw [same]
    exact watched.seen
  · exact moved.seen

/-- A write is at work on the oldest entry of a full ring. -/
def Closing.InWindow (state : Closing) : Prop :=
  state.device.Overwriting ∧ ∃ writer file env buff fits fPos left,
    state.calls.threads.phase writer = .inside (.write file env buff fits fPos) left

/-- Neither a read nor a free lock shows an entry that cannot be read. -/
theorem Closing.Watched.inWindow {state : Closing} (watched : state.Watched kernel)
    (overwriting : state.device.Overwriting) : state.InWindow := by
  refine ⟨overwriting, ?_⟩
  cases held : state.calls.threads.holder with
  | none =>
      obtain ⟨log, rep⟩ := watched.sound.free held
      exact absurd (rep.printable _) overwriting.2
  | some holder =>
      have inside := (watched.sound.guarded holder).mpr held
      cases here : state.calls.threads.phase holder with
      | inside transfer left =>
          cases transfer with
          | write file env buff fits fPos => exact ⟨holder, file, env, buff, fits, fPos, left, here⟩
          | read file env count fPos =>
              obtain ⟨base, ⟨log, rep⟩, reaches⟩ := watched.sound.begun holder _ left here
              have spares := (aesdReadSteps_spares rep.known (.refl base) env count fPos).reached
                reaches
              exact absurd (rep.spared_readable spares _) overwriting.2
      | idle | waiting _ | done _ _ =>
          rw [here] at inside
          exact inside.elim

/-- A dump since the close that began it: it has met a write at work on the oldest
entry, or whatever it still does is safe. -/
def Closing.Since (steps : List ClosingStep) (state : Closing) (process : Nat)
    (left : DeviceProgram Unit) : Prop :=
  ∃ front closed back, steps = front ++ closed :: back ∧ closed.label.1.Closes process ∧
    (∀ later, later ∈ back → ¬later.label.1.Closes process) ∧
    ((∃ taken, taken ∈ closed :: back ∧ taken.after.InWindow) ∨
      ¬state.device.Overwriting ∧ left.Withstands Steady Device.Readable state.device)

theorem Closing.Since.extend {steps : List ClosingStep} {taken : ClosingStep} {process : Nat}
    {earlier left : DeviceProgram Unit} (since : taken.before.Since steps process earlier)
    (other : ¬taken.label.1.Closes process) (watched : taken.after.Watched kernel)
    (goes : ¬taken.before.device.Overwriting → ¬taken.after.device.Overwriting →
      earlier.Withstands Steady Device.Readable taken.before.device →
        left.Withstands Steady Device.Readable taken.after.device) :
    taken.after.Since (steps ++ [taken]) process left := by
  obtain ⟨front, closed, back, split, closes, noLater, met⟩ := since
  refine ⟨front, closed, back ++ [taken], ?_, closes, ?_, ?_⟩
  · rw [split, List.append_assoc, List.cons_append]
  · intro later member
    rcases List.mem_append.mp member with old | new
    · exact noLater later old
    · rw [List.mem_singleton.mp new]
      exact other
  · rcases met with ⟨meeting, member, window⟩ | ⟨readable, withstands⟩
    · exact .inl ⟨meeting, List.mem_append_left [taken] member, window⟩
    · by_cases overwriting : taken.after.device.Overwriting
      · refine .inl ⟨taken, ?_, watched.inWindow overwriting⟩
        exact List.mem_append_right (closed :: back) (List.mem_singleton_self taken)
      · exact .inr ⟨overwriting, goes readable overwriting withstands⟩

theorem Closing.since_step {steps : List ClosingStep} (taken : ClosingStep)
    (watched : taken.before.Watched kernel)
    (since : ∀ process left, taken.before.dumps process = some left →
      taken.before.Since steps process left)
    (stepped : Taken kernel taken.before taken.label.1 taken.after)
    {process : Nat} {left : DeviceProgram Unit} (underWay : taken.after.dumps process = some left) :
    taken.after.Since (steps ++ [taken]) process left := by
  obtain ⟨watchedAfter, moves⟩ := watched.step stepped
  have steady : ¬taken.before.device.Overwriting → ¬taken.after.device.Overwriting →
      Steady taken.before.device taken.after.device := by
    intro readable stillReadable
    rcases moves with same | moved
    · rw [same]
      exact .refl _
    · rcases moved.steady with overwriting | overwriting | steady
      · exact absurd overwriting readable
      · exact absurd overwriting stillReadable
      · exact steady
  cases Closing.dump_step stepped underWay with
  | begun granted closes =>
      refine ⟨steps, taken, [], rfl, closes, ?_, ?_⟩
      · intro later member
        cases member
      · by_cases overwriting : taken.after.device.Overwriting
        · exact .inl ⟨taken, List.mem_singleton_self taken, watchedAfter.inWindow overwriting⟩
        · exact .inr ⟨overwriting, aesdShowCircularBufferSteps_withstands kernel granted _⟩
  | waits here other =>
      apply (since process left here).extend other watchedAfter
      intro readable stillReadable withstands
      exact withstands.moved (fun _ _ _ earlier later => earlier.trans later)
        (steady readable stillReadable)
  | @accesses effect next here other =>
      apply (since process _ here).extend other watchedAfter
      intro readable stillReadable withstands
      have safe := withstands taken.before.device (.refl _)
        (watched.seen.resolve_right readable)
      exact safe.moved (fun _ _ _ earlier later => earlier.trans later)
        (steady readable stillReadable)

theorem ClosingRun.since {boot : InitEnv} {steps : List ClosingStep} {final : Closing}
    (loaded : (aesdInitModule kernel boot).retval = 0)
    (run : ClosingRun kernel boot steps final) :
    final.Watched kernel ∧
      ∀ process left, final.dumps process = some left → final.Since steps process left := by
  induction run with
  | start =>
      obtain ⟨rep, _⟩ := DriverRun.represents loaded .start
      refine ⟨⟨.start (lockedCalls kernel) ⟨_, rep⟩, .inl rep.printable, ?_⟩, ?_⟩
      · intro process left none
        cases none
      · intro process left none
        cases none
  | @extend steps current next label earlier stepped ih =>
      have taken := Closing.step_taken stepped
      refine ⟨(ih.1.step taken).1, ?_⟩
      intro process left underWay
      exact Closing.since_step ⟨current, label, next⟩ ih.1 ih.2 taken underWay

end

/-- A dump that faults has met, at some moment since its close, a write at work on
the oldest entry of a full ring. -/
theorem faulting_dump_met_overwriting (kernel : Kernel) (boot : InitEnv)
    (steps : List ClosingStep) (final : Closing)
    (loaded : (aesdInitModule kernel boot).retval = 0)
    (run : ClosingRun kernel boot steps final) (process : Nat) (fault : Fault)
    (faulted : final.step kernel (.dump process) = .error (.faulted fault)) :
    ∃ front closed back, steps = front ++ closed :: back ∧ closed.label.1.Closes process ∧
      (∀ later, later ∈ back → ¬later.label.1.Closes process) ∧
      ∃ taken, taken ∈ closed :: back ∧ taken.after.InWindow := by
  have failed : final.dumps process = some (.fail fault) := by
    simp only [Closing.step] at faulted
    split at faulted
    · cases faulted
    · cases faulted
    · rename_i found here
      cases faulted
      exact here
    · cases faulted
  obtain ⟨front, closed, back, split, closes, noLater, met⟩ :=
    (ClosingRun.since loaded run).2 process _ failed
  rcases met with window | ⟨_, withstands⟩
  · exact ⟨front, closed, back, split, closes, noLater, window⟩
  · exact withstands.elim

theorem faulting_dump_met_overwriting_eleven :
    ∃ steps final front closed back, ClosingRun commonKernel plainBoot steps final ∧
      final.step commonKernel (.dump 1) = .error (.faulted .outOfBounds) ∧
      steps = front ++ closed :: back ∧
      ∃ taken, taken ∈ closed :: back ∧ taken.after.InWindow := by
  obtain ⟨steps, system, run, seen⟩ := execute_observe (System.step commonKernel)
    (System.loaded commonKernel plainBoot) elevenCommands
    (fun steps system => decide (
      (∀ taken, taken ∈ steps → ¬taken.label.1.IsRelease) ∧
      system.files 0 = some 11 ∧ system.files 1 = some 2 ∧ system.device.ring.full = true ∧
      (system.device.ring.entry system.device.ring.outOffs).size < commonKernel.kmallocMaxSize ∧
      plainWriteEnv.Accepts commonKernel system.device [10]))
    true (by decide +kernel)
  obtain ⟨without, opened, otherOpened, full, small, accepts⟩ := of_decide_eq_true seen
  obtain ⟨rep, _⟩ := DriverRun.represents (by decide) run
  obtain ⟨writes, reached⟩ := Closing.quiet_run run without
  have apart : (1 : Nat) ≠ 0 := by decide
  obtain ⟨more, final, _, met, _, _, _, faults⟩ := Closing.write_met rep full small apart
    apart.symm (by decide) opened (by decide) otherOpened accepts (by decide) (fun _ => true) rfl
  obtain ⟨front, closed, back, split, _, _, window⟩ := faulting_dump_met_overwriting commonKernel
    plainBoot _ final (by decide) (reached.append met) 1 .outOfBounds faults
  exact ⟨_, final, front, closed, back, reached.append met, faults, split, window⟩

end Aesd.Driver
