/-
The write side of the driver as a function of the history.

What a reader of the slots and of the pending entry sees after any run is the
log of the run's successful writes: the last ten commands and the bytes after
the last of them.  The log depends on the writes only through their bytes and
through the places where a write ends in a newline, so the way in which a byte
string is cut into writes matters exactly there.
-/

import Aesd.Driver.DeviceRuns

namespace Aesd.Driver

open BlockHeap
open Execution
open Segments

/-! ### What the entries hold -/

/-- The bytes behind an entry, as a load of its whole size sees them, and the size. -/
def entryContent (memory : Memory) (entry : BufferEntry) : Option (List Byte) × Nat :=
  ((loadRange memory entry.buffptr 0 entry.size).toOption, entry.size)

/-- The ring from `out_offs`, oldest entry first. -/
def Device.ringContent (device : Device) : List (Option (List Byte) × Nat) :=
  device.ring.entries.map (entryContent device.memory)

def Device.pendingContent (device : Device) : Option (List Byte) × Nat :=
  entryContent device.memory device.fullUserEntry

def wholeContent (bytes : List Byte) : Option (List Byte) × Nat :=
  (some bytes, bytes.length)

theorem EntryHolds.entryContent_eq {memory : Memory} {entry : BufferEntry} {bytes : List Byte}
    (holds : EntryHolds memory entry bytes) : entryContent memory entry = wholeContent bytes := by
  have size : entry.size = bytes.length := by
    obtain ⟨_, _, _, size⟩ := holds
    exact size
  unfold entryContent wholeContent
  rw [size, holds.loadRange, List.drop_zero, List.take_length]
  · rfl
  · omega

theorem PendingHolds.entryContent_eq {memory : Memory} {entry : BufferEntry} {bytes : List Byte}
    (holds : PendingHolds memory entry bytes) :
    entryContent memory entry = wholeContent bytes := by
  unfold entryContent wholeContent
  rw [holds.loadRange, holds.size_eq]
  rfl

namespace Device.Represents

variable {kernel : Kernel} {device : Device} {log : CommandLog}

theorem ringContent_eq (rep : device.Represents kernel log) :
    device.ringContent = log.retained.map wholeContent := by
  have paired : List.Forall₂ (fun entry command =>
      entryContent device.memory entry = wholeContent command)
      device.ring.entries log.retained :=
    rep.retained.imp fun _ _ holds => holds.entryContent_eq
  unfold Device.ringContent
  rw [← List.forall₂_eq_eq_eq, List.forall₂_map_left_iff, List.forall₂_map_right_iff]
  exact paired

theorem pendingContent_eq (rep : device.Represents kernel log) :
    device.pendingContent = wholeContent log.pending :=
  rep.pending.entryContent_eq

end Device.Represents

/-! ### One write -/

structure System.Unchanged (before after : System) : Prop where
  ring : after.device.ring = before.device.ring
  ringContent : after.device.ringContent = before.device.ringContent
  fullUserEntry : after.device.fullUserEntry = before.device.fullUserEntry
  pendingContent : after.device.pendingContent = before.device.pendingContent
  buffSize : after.device.buffSize = before.device.buffSize
  files : after.files = before.files

theorem System.Unchanged.refl (system : System) : system.Unchanged system := by
  constructor <;> rfl

section

variable {kernel : Kernel} {log : CommandLog} {before after : System} {file : Nat}
variable {env : WriteEnv} {buff : List Byte} {fits : buff.length ≤ maxRwCount} {reply : Reply}

theorem Effect.unchanged_of_failed (rep : before.device.Represents kernel log)
    (effect : Effect kernel log before (.write file env buff fits) reply after)
    (failed : reply.retval < 0) : before.Unchanged after := by
  cases effect with
  | refused _ _ => exact System.Unchanged.refl before
  | refusedWrite changes _ =>
      have still := rep.of_changes changes
      constructor
      · rfl
      · rw [still.ringContent_eq, rep.ringContent_eq]
      · rfl
      · rw [still.pendingContent_eq, rep.pendingContent_eq]
      · rfl
      · rfl
  | storedWrite _ _ _ _ _ _ =>
      change (buff.length : Int) < 0 at failed
      omega
  | committedWrite _ _ _ _ _ =>
      change (buff.length : Int) < 0 at failed
      omega
  | moved _ _ nothingWritten _ => exact absurd rfl (nothingWritten file env buff fits)

theorem Effect.counted_of_success
    (effect : Effect kernel log before (.write file env buff fits) reply after)
    (success : 0 ≤ reply.retval) :
    reply.retval = buff.length ∧ ∃ fPos, before.files file = some fPos ∧
      after.files = Function.update before.files file (some (fPos + buff.length)) := by
  cases effect with
  | refused _ negative => omega
  | refusedWrite _ failed =>
      have negative := write_retval_negative failed
      omega
  | storedWrite opened _ _ _ _ _ => exact ⟨rfl, _, opened, rfl⟩
  | committedWrite opened _ _ _ _ => exact ⟨rfl, _, opened, rfl⟩
  | moved _ _ nothingWritten _ => exact absurd rfl (nothingWritten file env buff fits)

/-- A nonempty write through an open file returns, and it succeeds exactly when
the lock is taken, the allocation granted and the user copy complete. -/
theorem System.step_write_returns (rep : before.device.Represents kernel log)
    (env : WriteEnv) (fits : buff.length ≤ maxRwCount) (nonempty : buff ≠ [])
    {fPos : Int} (opened : before.files file = some fPos)
    (verified : rwVerifyArea fPos buff.length = true) :
    ∃ next reply, before.step kernel (.write file env buff fits) = .ok (next, reply) ∧
      (0 ≤ reply.retval ↔ env.Accepts kernel before.device buff) := by
  obtain ⟨result, written⟩ := rep.aesdWrite_returns env fPos fits nonempty
  have taken : before.step kernel (.write file env buff fits) =
      .ok ({ device := result.device
             files := Function.update before.files file (some result.fPos) },
        { retval := result.retval, delivered := [] }) := by
    simp only [System.step, opened, verified, if_true, written]
  refine ⟨_, _, taken, ?_⟩
  by_cases accepts : env.Accepts kernel before.device buff
  · have counted : result.retval = buff.length := by
      obtain ⟨after, accepted, _⟩ := rep.aesdWrite_accepted env buff fPos fits
        (List.append_ne_nil_of_right_ne_nil _ nonempty) accepts
      rw [accepted] at written
      cases written
      rfl
    constructor
    · intro _
      exact accepts
    · intro _
      change 0 ≤ result.retval
      omega
  · obtain ⟨memory, retval, refused, failed, _⟩ := rep.aesdWrite_refused env buff fPos fits accepts
    rw [refused] at written
    cases written
    have negative := write_retval_negative failed
    constructor
    · intro success
      change 0 ≤ retval at success
      omega
    · intro contrary
      exact absurd contrary accepts

end

/-! ### Whole runs -/

/-- The ring is the last ten commands of the run's writes and the pending entry
is what follows them; failed writes change nothing, successful ones are counted
in full, and a nonempty write always returns. -/
theorem writes_refine_commandLog (kernel : Kernel) (boot : InitEnv) (steps : List DriverStep)
    (system : System) (loaded : (aesdInitModule kernel boot).retval = 0)
    (run : DriverRun kernel boot steps system) :
    system.device.ringContent =
        (CommandLog.ofWrites (writtenBy steps)).retained.map wholeContent ∧
      system.device.pendingContent =
        wholeContent (CommandLog.ofWrites (writtenBy steps)).pending ∧
      (∀ taken, taken ∈ steps → ∀ file env buff fits,
        taken.label.1 = .write file env buff fits →
          (taken.label.2.retval < 0 → taken.before.Unchanged taken.after) ∧
          (0 ≤ taken.label.2.retval → taken.label.2.retval = buff.length ∧
            ∃ fPos, taken.before.files file = some fPos ∧
              taken.after.files =
                Function.update taken.before.files file (some (fPos + buff.length)))) ∧
      (∀ file env buff fits fPos, buff ≠ [] → system.files file = some fPos →
        rwVerifyArea fPos buff.length = true →
          ∃ next reply, system.step kernel (.write file env buff fits) = .ok (next, reply) ∧
            (0 ≤ reply.retval ↔ env.Accepts kernel system.device buff)) := by
  obtain ⟨rep, _⟩ := DriverRun.represents loaded run
  refine ⟨rep.ringContent_eq, rep.pendingContent_eq, ?_, ?_⟩
  · intro taken member file env buff fits call
    obtain ⟨log, repBefore, _, effect⟩ := DriverRun.effect_of_mem loaded run member
    rw [call] at effect
    constructor
    · intro failed
      exact effect.unchanged_of_failed repBefore failed
    · intro success
      exact effect.counted_of_success success
  · intro file env buff fits fPos nonempty opened verified
    exact System.step_write_returns rep env fits nonempty opened verified

/-! ### A run of fourteen calls -/

/-- A kernel with the usual allocation limit of four mebibytes. -/
def commonKernel : Kernel where
  kmallocMaxSize := 2 ^ 22
  uninitialised := fun _ => 0
  addressable := by decide

def plainBoot : InitEnv :=
  { allocChrdevRegion := 0, kmallocGranted := true, cdevAdd := 0 }

def plainWriteEnv : WriteEnv :=
  { lockInterrupted := false, kmallocGranted := true, notCopied := 0
    receivedPrintGranted := true, commandPrintGranted := true }

def plainReadEnv : ReadEnv :=
  { lockInterrupted := false, kmallocGranted := true, foundPrintGranted := true
    returnedPrintGranted := true, notCopied := 0 }

/-- Eleven commands through two files, with a write in two parts and two that fail. -/
def elevenCommands : List Call :=
  [.openFile 0, .openFile 1, .write 0 plainWriteEnv [97] (by decide),
    .write 1 { plainWriteEnv with kmallocGranted := false } [98, 10] (by decide),
    .write 1 { plainWriteEnv with notCopied := 1 } [98, 10] (by decide),
    .write 1 plainWriteEnv [98, 10] (by decide)] ++
  List.replicate 10 (.write 0 plainWriteEnv [10] (by decide))

theorem writes_refine_commandLog_eleven :
    ∃ steps system, DriverRun commonKernel plainBoot steps system ∧
      writtenBy steps = [97] :: [98, 10] :: List.replicate 10 [10] ∧
      system.device.ringContent =
        (CommandLog.ofWrites (writtenBy steps)).retained.map wholeContent ∧
      system.device.pendingContent =
        wholeContent (CommandLog.ofWrites (writtenBy steps)).pending := by
  obtain ⟨steps, system, run, written⟩ := execute_observe (System.step commonKernel)
    (System.loaded commonKernel plainBoot) elevenCommands (fun steps _ => writtenBy steps)
    ([97] :: [98, 10] :: List.replicate 10 [10]) (by decide +kernel)
  have refined := writes_refine_commandLog commonKernel plainBoot steps system (by decide) run
  exact ⟨steps, system, run, written, refined.1, refined.2.1⟩

/-! ### The cutting of a byte string into writes -/

theorem writtenBy_append (earlier later : List DriverStep) :
    writtenBy (earlier ++ later) = writtenBy earlier ++ writtenBy later :=
  List.filterMap_append

/-- What one successful write does, told by its last byte alone. -/
structure WriteByLastByte (buff pending : List Byte) (before after : Device) : Prop where
  held : before.pendingContent = wholeContent pending
  ends : endsCommand buff = true →
    after.ringContent =
        (if before.ringContent.length = 10 then before.ringContent.tail
          else before.ringContent) ++ [wholeContent (pending ++ buff)] ∧
      after.pendingContent = wholeContent []
  continues : endsCommand buff = false →
    after.ringContent = before.ringContent ∧
      after.pendingContent = wholeContent (pending ++ buff)

section

variable {kernel : Kernel} {log : CommandLog} {before after : Device}

theorem writeByLastByte_of_represents {buff : List Byte}
    (repBefore : before.Represents kernel log)
    (repAfter : after.Represents kernel (log.write buff)) :
    WriteByLastByte buff log.pending before after := by
  constructor
  · exact repBefore.pendingContent_eq
  · intro ends
    have emptied : (log.write buff).pending = [] := by simp [CommandLog.write, ends]
    rw [repAfter.ringContent_eq, repBefore.ringContent_eq, repAfter.pendingContent_eq,
      log.retained_write_ends buff ends, emptied, List.length_map]
    constructor
    · by_cases many : log.retained.length = 10
      · rw [if_pos many, if_pos many, List.map_append, List.map_tail]
        rfl
      · rw [if_neg many, if_neg many, List.map_append]
        rfl
    · rfl
  · intro continues
    obtain ⟨sameRetained, grown⟩ := log.retained_write_continues buff continues
    constructor
    · rw [repAfter.ringContent_eq, repBefore.ringContent_eq, sameRetained]
    · rw [repAfter.pendingContent_eq, grown]

end

/-- Two runs from one state that write the same bytes leave the same commands
and the same pending bytes when the same newlines are last bytes of a write.
A newline ends a command exactly there, and the pending bytes never end in one. -/
theorem contents_agree_of_same_line_ends (kernel : Kernel) (boot : InitEnv)
    (steps first second : List DriverStep) (start left right : System)
    (loaded : (aesdInitModule kernel boot).retval = 0)
    (run : DriverRun kernel boot steps start)
    (firstRun : Run (Succeeds (System.step kernel)) start first left)
    (secondRun : Run (Succeeds (System.step kernel)) start second right)
    (sameBytes : (writtenBy first).flatten = (writtenBy second).flatten)
    (sameEnds : markedEnds endsCommand 0 (writtenBy first) =
      markedEnds endsCommand 0 (writtenBy second)) :
    (left.device.ringContent = right.device.ringContent ∧
        left.device.pendingContent = right.device.pendingContent) ∧
      (∀ taken, taken ∈ first → ∀ file env buff fits,
        taken.label.1 = .write file env buff fits → 0 ≤ taken.label.2.retval →
          ∃ pending, WriteByLastByte buff pending taken.before.device taken.after.device) ∧
      ∃ pending, start.device.pendingContent = wholeContent pending ∧
        endsCommand pending = false := by
  have firstWhole := Run.append run firstRun
  obtain ⟨leftRep, _⟩ := DriverRun.represents loaded firstWhole
  obtain ⟨rightRep, _⟩ := DriverRun.represents loaded (Run.append run secondRun)
  obtain ⟨startRep, _⟩ := DriverRun.represents loaded run
  have sameLog : CommandLog.ofWrites (writtenBy (steps ++ first)) =
      CommandLog.ofWrites (writtenBy (steps ++ second)) := by
    rw [writtenBy_append, writtenBy_append, CommandLog.ofWrites_append,
      CommandLog.ofWrites_append]
    exact CommandLog.writeAll_congr _ sameBytes sameEnds
  refine ⟨?_, ?_, ?_⟩
  · constructor
    · rw [leftRep.ringContent_eq, rightRep.ringContent_eq, sameLog]
    · rw [leftRep.pendingContent_eq, rightRep.pendingContent_eq, sameLog]
  · intro taken member file env buff fits call success
    obtain ⟨log, repBefore, _, effect⟩ :=
      DriverRun.effect_of_mem loaded firstWhole (List.mem_append_right steps member)
    rw [call] at effect
    have repAfter := effect.represents repBefore
    rw [advance_of_written (writtenBytes_eq_some.mpr ⟨file, env, fits, rfl, success⟩)] at repAfter
    exact ⟨log.pending, writeByLastByte_of_represents repBefore repAfter⟩
  · exact ⟨_, startRep.pendingContent_eq, startRep.pendingOpen⟩

def oneFileOpen : System :=
  { device := (aesdInitModule commonKernel plainBoot).device
    files := Function.update (fun _ => none) 0 (some 0) }

private theorem oneFileOpen_reached :
    ∃ steps, DriverRun commonKernel plainBoot steps oneFileOpen := by
  have opened : Succeeds (System.step commonKernel) (System.loaded commonKernel plainBoot)
      (.openFile 0, { retval := 0, delivered := [] }) oneFileOpen := rfl
  exact ⟨_, Run.start.extend opened⟩

/-- The string `a\nb\n` written in one piece, in two pieces cut after the inner
newline, and in two pieces cut before it. -/
def onePiece : List Call :=
  [.write 0 plainWriteEnv [97, 10, 98, 10] (by decide)]

def cutAfterNewline : List Call :=
  [.write 0 plainWriteEnv [97, 10] (by decide), .write 0 plainWriteEnv [98, 10] (by decide)]

def cutBeforeNewline : List Call :=
  [.write 0 plainWriteEnv [97] (by decide), .write 0 plainWriteEnv [10, 98, 10] (by decide)]

theorem contents_agree_one_piece_cut_before_newline :
    ∃ first second left right,
      Run (Succeeds (System.step commonKernel)) oneFileOpen first left ∧
      Run (Succeeds (System.step commonKernel)) oneFileOpen second right ∧
      writtenBy first = [[97, 10, 98, 10]] ∧ writtenBy second = [[97], [10, 98, 10]] ∧
      left.device.ringContent = right.device.ringContent ∧
      left.device.pendingContent = right.device.pendingContent := by
  obtain ⟨steps, run⟩ := oneFileOpen_reached
  obtain ⟨first, left, firstRun, firstWritten⟩ := execute_observe (System.step commonKernel)
    oneFileOpen onePiece (fun steps _ => writtenBy steps) [[97, 10, 98, 10]] (by decide +kernel)
  obtain ⟨second, right, secondRun, secondWritten⟩ := execute_observe (System.step commonKernel)
    oneFileOpen cutBeforeNewline (fun steps _ => writtenBy steps) [[97], [10, 98, 10]]
    (by decide +kernel)
  have agreed := contents_agree_of_same_line_ends commonKernel plainBoot steps first second
    oneFileOpen left right (by decide) run firstRun secondRun
    (by rw [firstWritten, secondWritten]; rfl) (by rw [firstWritten, secondWritten]; rfl)
  exact ⟨first, second, left, right, firstRun, secondRun, firstWritten, secondWritten, agreed.1⟩

/-- One piece gives one command, the cut after the inner newline gives two. -/
theorem cut_after_newline_changes_commands :
    ∃ steps first second left right,
      DriverRun commonKernel plainBoot steps oneFileOpen ∧
      Run (Succeeds (System.step commonKernel)) oneFileOpen first left ∧
      Run (Succeeds (System.step commonKernel)) oneFileOpen second right ∧
      writtenBy first = [[97, 10, 98, 10]] ∧ writtenBy second = [[97, 10], [98, 10]] ∧
      (writtenBy first).flatten = (writtenBy second).flatten ∧
      left.device.ringContent ≠ right.device.ringContent := by
  obtain ⟨steps, run⟩ := oneFileOpen_reached
  obtain ⟨first, left, firstRun, firstSeen⟩ := execute_observe (System.step commonKernel)
    oneFileOpen onePiece (fun steps system => (writtenBy steps, system.device.ringContent))
    ([[97, 10, 98, 10]], [wholeContent [97, 10, 98, 10]]) (by decide +kernel)
  obtain ⟨second, right, secondRun, secondSeen⟩ := execute_observe (System.step commonKernel)
    oneFileOpen cutAfterNewline
    (fun steps system => (writtenBy steps, system.device.ringContent))
    ([[97, 10], [98, 10]], [wholeContent [97, 10], wholeContent [98, 10]]) (by decide +kernel)
  obtain ⟨firstWritten, leftRing⟩ := Prod.mk.inj firstSeen
  obtain ⟨secondWritten, rightRing⟩ := Prod.mk.inj secondSeen
  refine ⟨steps, first, second, left, right, run, firstRun, secondRun, firstWritten,
    secondWritten, ?_, ?_⟩
  · rw [firstWritten, secondWritten]
    rfl
  · rw [leftRing, rightRing]
    decide

end Aesd.Driver
