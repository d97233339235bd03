/-
The server threads on the device, in any interleaving.

The threads take turns at every call, as in `Process.step`, and the file they
open is the device.  When the clients send whole lines, the lines become commands
in the order in which their threads get the mutex, and every client is answered
with what the device retains at its own turn.
-/

import Aesd.Server.ReplyContent
import Aesd.Server.Serialization

namespace Aesd.Server

open CharBuffer
open Driver
open Execution
open Mutex

/-! ### The device as the file of the threads -/

/-- The position is that of the one file that is open. -/
structure DeviceFile where
  device : Device
  fPos : Int

/-- After the reads the position is not used any more. -/
def deviceFile (kernel : Kernel) (stdio : Stdio) : FileOps DeviceFile where
  fopen file := .ok { file with fPos := 0 }
  fwrite file record :=
    match writePieces kernel stdio.writeEnv (stdio.split record) file.device
        (aesdLseek file.device file.fPos 0 seekEnd).1 with
    | .error _ => .error .fault
    | .ok (device, fPos) => .ok { device := device, fPos := fPos }
  fread file :=
    match fread kernel stdio.request stdio.readEnv file.device
        (aesdLseek file.device file.fPos 0 seekSet).1 with
    | .error stop => .error stop
    | .ok (device, content) => .ok ({ device := device, fPos := file.fPos }, content)
  fclose file :=
    match aesdRelease kernel stdio.releaseGranted file.device with
    | .error _ => .error .fault
    | .ok device => .ok { file with device := device }

theorem deviceFile_fileSection (kernel : Kernel) (stdio : Stdio) (file : DeviceFile)
    (record : List Byte) :
    ((deviceFile kernel stdio).fileSection file record).map
        (fun result => (result.1.device, result.2)) =
      deviceSection kernel stdio file.device record := by
  simp only [FileOps.fileSection, deviceFile, deviceSection]
  cases writePieces kernel stdio.writeEnv (stdio.split record) file.device
      (aesdLseek file.device 0 0 seekEnd).1 with
  | error fault => rfl
  | ok written =>
      obtain ⟨device, fPos⟩ := written
      dsimp only
      cases fread kernel stdio.request stdio.readEnv device
          (aesdLseek device fPos 0 seekSet).1 with
      | error stop => rfl
      | ok back =>
          obtain ⟨device, content⟩ := back
          dsimp only
          cases aesdRelease kernel stdio.releaseGranted device with
          | error fault => rfl
          | ok device => rfl

/-- No read fails, and each asks for a block at least. -/
structure Stdio.ReadsBlocks (block : Nat) (stdio : Stdio) : Prop where
  served : stdio.Served
  asks : ∀ want, 0 < want → block ≤ (stdio.request want).count

def OverDevice (kernel : Kernel) (block : Nat) (env : StepEnv DeviceFile) : Prop :=
  ∃ stdio : Stdio, stdio.ReadsBlocks block ∧ env.file = deviceFile kernel stdio

/-- Calls of different moments, with different answers of the C library, are
calls of one. -/
theorem deviceFile_of_composed {kernel : Kernel} {block : Nat} {calls : FileOps DeviceFile}
    (composed : calls.ComposedOf (OverDevice kernel block)) :
    ∃ stdio : Stdio, stdio.ReadsBlocks block ∧ calls = deviceFile kernel stdio := by
  obtain ⟨_, ⟨_, _, openedBy⟩, opens⟩ := composed.fopen
  obtain ⟨_, ⟨writer, _, writtenBy⟩, writes⟩ := composed.fwrite
  obtain ⟨_, ⟨reader, reads, readBy⟩, freads⟩ := composed.fread
  obtain ⟨_, ⟨closer, _, closedBy⟩, closes⟩ := composed.fclose
  rw [openedBy] at opens
  rw [writtenBy] at writes
  rw [readBy] at freads
  rw [closedBy] at closes
  refine ⟨{ writer with
    request := reader.request
    requestSome := reader.requestSome
    requestInside := reader.requestInside
    readEnv := reader.readEnv
    releaseGranted := closer.releaseGranted }, ⟨reads.served, reads.asks⟩, ?_⟩
  obtain ⟨fopen, fwrite, fread, fclose⟩ := calls
  cases opens
  cases writes
  cases freads
  cases closes
  rfl

/-! ### Lines and their replies -/

/-- The client sends a line of a block at most, or has closed the connection. -/
def Recv.LineOrEnd (block : Nat) : Recv → Prop
  | .error => False
  | .closed => True
  | .message bytes _ => IsLine bytes ∧ bytes.length ≤ block

def Recv.line : Recv → Option (List Byte)
  | .message bytes _ => some bytes
  | _ => none

def replyAfter (log : CommandLog) : Reply :=
  .sent (some log.retained.flatten)

def linesOf (self : Nat) (served : List (Nat × List Byte)) : List (List Byte) :=
  served.filterMap fun entry => if entry.1 = self then some entry.2 else none

/-- The reply to the last of these lines, if it is the thread's. -/
def lastReply (log : CommandLog) (self : Nat) (served : List (Nat × List Byte)) : Option Reply :=
  if served.getLast?.map Prod.fst = some self then
    some (replyAfter (log.writeAll (served.map Prod.snd)))
  else none

def repliesTo (log : CommandLog) (self : Nat) (served : List (Nat × List Byte)) : List Reply :=
  served.inits.filterMap (lastReply log self)

theorem linesOf_concat (self : Nat) (served : List (Nat × List Byte)) (client : Nat)
    (line : List Byte) :
    linesOf self (served ++ [(client, line)]) =
      linesOf self served ++ if client = self then [line] else [] := by
  unfold linesOf
  rw [List.filterMap_append]
  congr 1
  by_cases own : client = self
  · rw [if_pos own]
    exact List.filterMap_cons_some (if_pos own)
  · rw [if_neg own]
    exact List.filterMap_cons_none (if_neg own)

theorem repliesTo_concat (log : CommandLog) (self : Nat) (served : List (Nat × List Byte))
    (client : Nat) (line : List Byte) :
    repliesTo log self (served ++ [(client, line)]) =
      repliesTo log self served ++
        if client = self then
          [replyAfter (log.writeAll ((served ++ [(client, line)]).map Prod.snd))]
        else [] := by
  have last : (served ++ [(client, line)]).getLast?.map Prod.fst = some client := by
    rw [List.getLast?_concat]
    rfl
  have grown : (served ++ [(client, line)]).inits = served.inits ++ [served ++ [(client, line)]] :=
    List.inits_append served [(client, line)]
  unfold repliesTo
  rw [grown, List.filterMap_append]
  congr 1
  by_cases own : client = self
  · rw [if_pos own]
    apply List.filterMap_cons_some
    unfold lastReply
    rw [last, own, if_pos rfl]
  · rw [if_neg own]
    apply List.filterMap_cons_none
    unfold lastReply
    rw [last, if_neg (fun same => own (Option.some.inj same))]

/-! ### A line through the device -/

/-- Nothing is pending, and the retained commands are strings of a block at most. -/
structure TextLog (block : Nat) (log : CommandLog) : Prop where
  idle : log.pending = []
  noZero : ∀ command, command ∈ log.retained → 0 ∉ command
  short : ∀ command, command ∈ log.retained → command.length ≤ block

section

variable {kernel : Kernel} {block : Nat} {log : CommandLog} {line : List Byte}

theorem TextLog.write (text : TextLog block log) (isLine : IsLine line)
    (short : line.length ≤ block) : TextLog block (log.write line) := by
  have closes := endsCommand_of_isLine isLine
  constructor
  · rw [CommandLog.write, if_pos closes]
  · intro command member zero
    exact no_zero_after_write text.idle text.noZero isLine
      (List.mem_flatten.mpr ⟨command, member, zero⟩)
  · intro command member
    rcases mem_retained_write text.idle isLine member with old | rfl
    · exact text.short command old
    · exact short

theorem TextLog.room (text : TextLog block log) (small : 10 * block < serverMsgLen) :
    log.retained.flatten.length < serverMsgLen := by
  have few : log.retained.length ≤ 10 := by
    rw [log.retained_length]
    exact Nat.min_le_left _ _
  have total : log.retained.flatten.length ≤ log.retained.length * block := by
    rw [List.length_flatten, ← List.length_map List.length]
    apply List.sum_le_card_nsmul
    intro length member
    obtain ⟨command, inRetained, rfl⟩ := List.mem_map.mp member
    exact text.short command inRetained
  have bounded := Nat.mul_le_mul_right block few
  omega

theorem TextLog.covers (text : TextLog block log) (small : 10 * block < serverMsgLen)
    {stdio : Stdio} (reads : stdio.ReadsBlocks block) :
    Covers stdio.request log.retained serverMsgLen :=
  covers_of_short reads.asks log.retained text.short (text.room small)

theorem serverPass_line (platform : Platform) (fit : kernel.RetainedFit)
    (roomy : serverMsgLen ≤ kernel.kmallocMaxSize) (small : 10 * block < serverMsgLen)
    {stdio : Stdio} (reads : stdio.ReadsBlocks block) {file : DeviceFile}
    (rep : file.device.Represents kernel log) (text : TextLog block log) {thread : ThreadState}
    (clear : thread.Clear) (isLine : IsLine line) (short : line.length ≤ block)
    (inside : line.length ≤ serverMsgLen) :
    ∃ k after,
      serverPass platform (plainPass false (.message line inside) (deviceFile kernel stdio))
          thread file =
        .ok (some (ThreadState.cleared k), after,
          { written := some line, reply := replyAfter (log.write line) }) ∧
      after.device.Represents kernel (log.write line) := by
  have transfer : serverMsgLen ≤ maxRwCount := by decide
  have limit : serverMsgLen = 100000 := rfl
  have textAfter := text.write isLine short
  have room := textAfter.room small
  obtain ⟨after, repAfter, outcome⟩ := deviceSection_line fit reads.served rep text.idle isLine
    (Nat.le_trans inside roomy) (Nat.le_trans inside transfer)
  rw [(gather_retained_iff stdio.request repAfter room).mpr (textAfter.covers small reads),
    Option.elim_some,
    ← deviceFile_fileSection] at outcome
  cases made : (deviceFile kernel stdio).fileSection file line with
  | error stop =>
      rw [made] at outcome
      cases outcome
  | ok result =>
      rw [made] at outcome
      obtain ⟨last, read⟩ := result
      cases outcome
      have recorded : (plainPass false (.message line inside)
          (deviceFile kernel stdio)).fileSection file (recordOf platform line) =
            .ok (last, (log.write line).retained.flatten) := by
        rw [recordOf_of_isLine platform isLine]
        exact made
      have brings :
          (plainPass false (.message line inside) (deviceFile kernel stdio)).Brings line :=
        { running := rfl, received := ⟨inside, rfl⟩, locked := fun _ => rfl }
      obtain ⟨k, passed⟩ := serverPass_brings platform clear brings
        (recordFits_of_length platform (by omega)) recorded
      have reply : (outputOf platform line (log.write line).retained.flatten).reply =
          replyAfter (log.write line) :=
        congrArg Reply.sent ((sent_iff (no_zero_after_write text.idle text.noZero isLine)).mpr
          ⟨rfl, room⟩)
      refine ⟨k, last, ?_, repAfter⟩
      rw [passed, ← reply]
      unfold outputOf
      rw [recordOf_of_isLine platform isLine]

end

/-! ### One pass after the other -/

/-- `served` are the lines that have been written, in order, with their threads. -/
structure Answered (kernel : Kernel) (block : Nat) (log : CommandLog)
    (passes : List (SerialStep DeviceFile)) (serial : Serial DeviceFile)
    (served : List (Nat × List Byte)) : Prop where
  represents : serial.file.device.Represents kernel (log.writeAll (served.map Prod.snd))
  text : TextLog block (log.writeAll (served.map Prod.snd))
  clear : ∀ self state, serial.threads self = some state → state.Clear
  receives : ∀ self,
    (passes.flatMap (SerialStep.received self)).filterMap Recv.line = linesOf self served
  sends : ∀ self, passes.flatMap (SerialStep.sent self) = repliesTo log self served
  records : recordsOf passes = served.map Prod.snd

section

variable {kernel : Kernel} {block : Nat} {platform : Platform} {log : CommandLog}
  {passes : List (SerialStep DeviceFile)} {serial next : Serial DeviceFile}
  {served : List (Nat × List Byte)} {turn : Turn DeviceFile} {output : PassOutput}

theorem Answered.start {file : DeviceFile} (rep : file.device.Represents kernel log)
    (text : TextLog block log) : Answered kernel block log [] (.start file) [] := by
  refine ⟨rep, text, ?_, fun _ => rfl, fun _ => rfl, rfl⟩
  intro self state here
  cases here
  exact ThreadState.start_clear

private theorem Answered.clear_step (answered : Answered kernel block log passes serial served)
    (stepped : Succeeds (Serial.step platform) serial (turn, output) next) :
    ∀ self state, next.threads self = some state → state.Clear := by
  obtain ⟨state, here, later, after, passed, rfl⟩ := Serial.step_ok stepped
  intro self other there
  by_cases own : self = turn.thread
  · rw [own] at there
    dsimp only at there
    rw [Function.update_self] at there
    rw [there] at passed
    exact serverPass_clear (answered.clear _ _ here) passed
  · exact answered.clear self other ((Function.update_of_ne own ..).symm.trans there)

private theorem Answered.quiet (answered : Answered kernel block log passes serial served)
    (stepped : Succeeds (Serial.step platform) serial (turn, output) next)
    (untouched : next.file = serial.file) (silent : output = .quiet)
    (nothing : turn.pass.received.filterMap Recv.line = []) :
    Answered kernel block log (passes ++ [⟨serial, (turn, output), next⟩]) next served := by
  refine ⟨?_, answered.text, answered.clear_step stepped, ?_, ?_, ?_⟩
  · rw [untouched]
    exact answered.represents
  · intro self
    rw [List.flatMap_append, List.filterMap_append, answered.receives, List.flatMap_singleton]
    unfold SerialStep.received
    split
    · rw [nothing, List.append_nil]
    · exact List.append_nil _
  · intro self
    rw [List.flatMap_append, answered.sends, List.flatMap_singleton, silent]
    unfold SerialStep.sent
    split
    · exact List.append_nil _
    · exact List.append_nil _
  · rw [recordsOf_append, recordsOf_singleton, answered.records, silent]
    exact List.append_nil _

private theorem Answered.line (answered : Answered kernel block log passes serial served)
    (stepped : Succeeds (Serial.step platform) serial (turn, output) next)
    {line : List Byte} (isLine : IsLine line) (short : line.length ≤ block)
    (inside : line.length ≤ serverMsgLen) (received : turn.pass.received = [.message line inside])
    (outcome : output =
      ⟨some line, replyAfter ((log.writeAll (served.map Prod.snd)).write line)⟩)
    (rep : next.file.device.Represents kernel
      ((log.writeAll (served.map Prod.snd)).write line)) :
    Answered kernel block log (passes ++ [⟨serial, (turn, output), next⟩]) next
      (served ++ [(turn.thread, line)]) := by
  have grown : log.writeAll ((served ++ [(turn.thread, line)]).map Prod.snd) =
      (log.writeAll (served.map Prod.snd)).write line := by
    rw [List.map_append]
    exact List.foldl_append
  refine ⟨?_, ?_, answered.clear_step stepped, ?_, ?_, ?_⟩
  · rw [grown]
    exact rep
  · rw [grown]
    exact answered.text.write isLine short
  · intro self
    rw [List.flatMap_append, List.filterMap_append, answered.receives, List.flatMap_singleton,
      linesOf_concat]
    congr 1
    unfold SerialStep.received
    split
    · rw [received]
      rfl
    · rfl
  · intro self
    rw [List.flatMap_append, answered.sends, List.flatMap_singleton, repliesTo_concat, grown,
      outcome]
    rfl
  · rw [recordsOf_append, recordsOf_singleton, answered.records, List.map_append, outcome]
    rfl

theorem Answered.step (fit : kernel.RetainedFit) (roomy : serverMsgLen ≤ kernel.kmallocMaxSize)
    (small : 10 * block < serverMsgLen) (answered : Answered kernel block log passes serial served)
    (stepped : Succeeds (Serial.step platform) serial (turn, output) next)
    (genuine : turn.pass.Genuine (OverDevice kernel block))
    (proper : ∀ recv, recv ∈ turn.pass.received → recv.LineOrEnd block) :
    ∃ more, Answered kernel block log (passes ++ [⟨serial, (turn, output), next⟩]) next
      (served ++ more) := by
  obtain ⟨state, here, later, after, passed, result⟩ := Serial.step_ok stepped
  obtain ⟨thread, pass⟩ := turn
  obtain ⟨flag, recv, calls, composed, rfl⟩ := genuine
  obtain ⟨stdio, reads, rfl⟩ := deviceFile_of_composed composed
  have unchanged : after = serial.file → next.file = serial.file := by
    intro same
    rw [result]
    exact same
  cases flag with
  | true =>
      cases passed
      exact ⟨[], by rw [List.append_nil]; exact answered.quiet stepped (unchanged rfl) rfl rfl⟩
  | false =>
      cases recv with
      | error => exact (proper _ List.mem_cons_self).elim
      | closed =>
          cases passed
          exact ⟨[], by rw [List.append_nil]; exact answered.quiet stepped (unchanged rfl) rfl rfl⟩
      | message line inside =>
          obtain ⟨isLine, short⟩ := proper _ List.mem_cons_self
          obtain ⟨k, last, outcome, rep⟩ := serverPass_line platform fit roomy small reads
            answered.represents answered.text (answered.clear _ _ here) isLine short inside
          rw [outcome] at passed
          cases passed
          refine ⟨[(thread, line)], answered.line stepped isLine short inside rfl rfl ?_⟩
          rw [result]
          exact rep

theorem SerialRun.answered (fit : kernel.RetainedFit)
    (roomy : serverMsgLen ≤ kernel.kmallocMaxSize) (small : 10 * block < serverMsgLen)
    {file : DeviceFile} (rep : file.device.Represents kernel log) (text : TextLog block log)
    (run : SerialRun platform file passes serial)
    (genuine : ∀ taken, taken ∈ passes → taken.label.1.pass.Genuine (OverDevice kernel block))
    (proper : ∀ taken, taken ∈ passes → ∀ recv, recv ∈ taken.label.1.pass.received →
      recv.LineOrEnd block) :
    ∃ served, Answered kernel block log passes serial served := by
  induction run with
  | start => exact ⟨[], .start rep text⟩
  | @extend passes current next label earlier stepped ih =>
      obtain ⟨served, answered⟩ := ih
        (fun taken member => genuine taken (List.mem_append_left _ member))
        (fun taken member => proper taken (List.mem_append_left _ member))
      obtain ⟨turn, output⟩ := label
      have last : (⟨current, (turn, output), next⟩ : SerialStep DeviceFile) ∈
          passes ++ [⟨current, (turn, output), next⟩] :=
        List.mem_append_right _ (List.mem_singleton_self _)
      obtain ⟨more, later⟩ := answered.step fit roomy small stepped (genuine _ last) (proper _ last)
      exact ⟨served ++ more, later⟩

end

/-! ### Any interleaving -/

section

variable {kernel : Kernel} {block : Nat} {platform : Platform} {log : CommandLog}
  {file : DeviceFile} {steps : List (ProcessStep DeviceFile)} {final : Process DeviceFile}

theorem ProcessRun.answered (fit : kernel.RetainedFit)
    (roomy : serverMsgLen ≤ kernel.kmallocMaxSize) (small : 10 * block < serverMsgLen)
    (rep : file.device.Represents kernel log) (text : TextLog block log)
    (run : ProcessRun platform file steps final)
    (kept : ∀ taken, taken ∈ steps → ¬ShutdownUnlock taken)
    (onDevice : ∀ env, UsedIn steps env → OverDevice kernel block env)
    (proper : ∀ self recv, recv ∈ steps.flatMap (receivedBy self) → recv.LineOrEnd block) :
    ∃ passes serial served,
      Serialized platform (OverDevice kernel block) steps final passes serial ∧
      Answered kernel block log passes serial served := by
  obtain ⟨passes, serial, passed, serialized⟩ := Serialized.of_run (OverDevice kernel block) run
    (fun taken member self env acts => onDevice env ⟨taken, member, self, acts⟩) kept
  have properPasses : ∀ taken, taken ∈ passes → ∀ recv, recv ∈ taken.label.1.pass.received →
      recv.LineOrEnd block := by
    intro taken member recv received
    obtain ⟨_, _, account⟩ := serialized.accounts taken.label.1.thread
    apply proper taken.label.1.thread recv
    rw [account.receives]
    apply List.mem_append_left
    refine List.mem_flatMap.mpr ⟨taken, member, ?_⟩
    unfold SerialStep.received
    rw [if_pos rfl]
    exact received
  obtain ⟨served, answered⟩ := SerialRun.answered fit roomy small rep text passed serialized.genuine
    properPasses
  exact ⟨passes, serial, served, serialized, answered⟩

end

/-- Any number of threads serve their clients on the device, in any interleaving
without an unlock of the shutdown branch.  The lines become commands in one order,
in which the lines of each client are in its own order and none is lost, doubled
or mixed with another; every reply is what the device retained when its line had
just been written. -/
theorem interleaved_lines_answered (kernel : Kernel) (platform : Platform) (boot : InitEnv)
    (earlier : List DriverStep) (system : System)
    (loaded : (aesdInitModule kernel boot).retval = 0)
    (driven : DriverRun kernel boot earlier system) (fit : kernel.RetainedFit)
    (roomy : serverMsgLen ≤ kernel.kmallocMaxSize) (block : Nat)
    (small : 10 * block < serverMsgLen) (log : CommandLog)
    (written : log = CommandLog.ofWrites (writtenBy earlier)) (text : TextLog block log)
    (steps : List (ProcessStep DeviceFile)) (final : Process DeviceFile)
    (run : ProcessRun platform { device := system.device, fPos := 0 } steps final)
    (kept : ∀ taken, taken ∈ steps → ¬ShutdownUnlock taken)
    (onDevice : ∀ env, UsedIn steps env → OverDevice kernel block env)
    (proper : ∀ self recv, recv ∈ steps.flatMap (receivedBy self) → recv.LineOrEnd block) :
    ∃ served : List (Nat × List Byte),
      (∀ self,
        linesOf self served =
            (if (final.threads self).point.amidPass then
              (steps.flatMap (receivedBy self)).dropLast
            else steps.flatMap (receivedBy self)).filterMap Recv.line ∧
          repliesTo log self served =
            steps.flatMap (sentBy self) ++ (final.threads self).unsent) ∧
      (final.shared.fileMutex = none →
        recordsOf steps = served.map Prod.snd ∧
          final.shared.file.device.ringContent =
            (log.writeAll (served.map Prod.snd)).retained.map wholeContent) := by
  obtain ⟨rep, _⟩ := DriverRun.represents loaded driven
  rw [← written] at rep
  obtain ⟨passes, serial, served, serialized, answered⟩ := ProcessRun.answered fit roomy small rep
    text run kept onDevice proper
  refine ⟨served, ?_, ?_⟩
  · intro self
    obtain ⟨_, _, account⟩ := serialized.accounts self
    constructor
    · rw [← answered.receives, account.received_so_far]
    · rw [← answered.sends, account.sends]
  · intro free
    constructor
    · rw [serialized.records free, answered.records]
    · rw [serialized.free free]
      exact answered.represents.ringContent_eq

/-! ### Two clients -/

deriving instance DecidableEq for Reply

def loadedFile : DeviceFile :=
  { device := (System.loaded commonKernel plainBoot).device, fPos := 0 }

def clientLine : Nat → List Byte
  | 0 => [97, 10]
  | _ => [98, 10]

private theorem clientLine_isLine (self : Nat) : IsLine (clientLine self) := by
  cases self with
  | zero => exact ⟨[97], rfl, by intro char member; rw [List.mem_singleton.mp member]; decide⟩
  | succ _ => exact ⟨[98], rfl, by intro char member; rw [List.mem_singleton.mp member]; decide⟩

private theorem clientLine_length (self : Nat) : (clientLine self).length = 2 := by
  cases self with
  | zero => rfl
  | succ _ => rfl

theorem clientLine_inside (self : Nat) : (clientLine self).length ≤ serverMsgLen := by
  rw [clientLine_length]
  decide

def clientEnv (self : Nat) : StepEnv DeviceFile :=
  { recv := .message (clientLine self) (clientLine_inside self)
    file := deviceFile commonKernel plainStdio }

theorem plainStdio_readsBlocks : plainStdio.ReadsBlocks 4096 :=
  { served := plainStdio_served, asks := fun _ _ => blockRequest_count (by decide) }

theorem clientEnv_onDevice (self : Nat) : OverDevice commonKernel 4096 (clientEnv self) :=
  ⟨plainStdio, plainStdio_readsBlocks, rfl⟩

theorem clientEnv_proper (self : Nat) : (clientEnv self).recv.LineOrEnd 4096 := by
  refine ⟨clientLine_isLine self, ?_⟩
  rw [clientLine_length]
  decide

def clientStep (self : Nat) : Action DeviceFile :=
  .thread self (clientEnv self)

section

variable {steps : List (ProcessStep DeviceFile)} {order : List Nat}

private theorem clientStep_of_mem
    (inputs : steps.map (fun taken => taken.label.1) = order.map clientStep)
    {taken : ProcessStep DeviceFile} (member : taken ∈ steps) :
    ∃ client, taken.label.1 = clientStep client := by
  have mapped : taken.label.1 ∈ order.map clientStep := by
    rw [← inputs]
    exact List.mem_map_of_mem member
  obtain ⟨client, _, same⟩ := List.mem_map.mp mapped
  exact ⟨client, same.symm⟩

theorem clientSteps_onDevice
    (inputs : steps.map (fun taken => taken.label.1) = order.map clientStep) :
    ∀ env, UsedIn steps env → OverDevice commonKernel 4096 env := by
  rintro env ⟨taken, member, self, acts⟩
  obtain ⟨client, same⟩ := clientStep_of_mem inputs member
  rw [same] at acts
  cases acts
  exact clientEnv_onDevice self

theorem clientSteps_proper
    (inputs : steps.map (fun taken => taken.label.1) = order.map clientStep) :
    ∀ self recv, recv ∈ steps.flatMap (receivedBy self) → recv.LineOrEnd 4096 := by
  intro self recv received
  obtain ⟨taken, member, arrived⟩ := List.mem_flatMap.mp received
  obtain ⟨client, same⟩ := clientStep_of_mem inputs member
  unfold receivedBy at arrived
  simp only [same, clientStep, Thread.receives] at arrived
  split at arrived
  · split at arrived
    · rw [List.mem_singleton.mp arrived]
      exact clientEnv_proper _
    · cases arrived
  · cases arrived

end

/-- Thread 1 receives its line while thread 0 is in the device; both replies are
sent. -/
theorem interleaved_lines_answered_two_threads :
    ∃ steps final served, ProcessRun x86 loadedFile steps final ∧
      linesOf 0 served = [[97, 10]] ∧ linesOf 1 served = [[98, 10]] ∧
      repliesTo .empty 0 served = [.sent (some [97, 10])] ∧
      repliesTo .empty 1 served = [.sent (some [97, 10, 98, 10])] ∧
      final.shared.file.device.ringContent =
        [wholeContent [97, 10], wholeContent [98, 10]] := by
  obtain ⟨steps, final, run, inputs, seen⟩ := execute_observe_inputs (Process.step Kind.normal x86)
    (.start loadedFile)
    ([0, 0, 1, 0, 0, 1, 0, 0, 0, 0, 1, 1, 0, 1, 1, 1, 1, 1].map clientStep)
    (fun steps final => decide (
      (∀ taken, taken ∈ steps → ¬ShutdownUnlock taken) ∧
      (steps.flatMap (receivedBy 0)).filterMap Recv.line = [[97, 10]] ∧
      (steps.flatMap (receivedBy 1)).filterMap Recv.line = [[98, 10]] ∧
      (final.threads 0).point = .top ∧ (final.threads 1).point = .top ∧
      steps.flatMap (sentBy 0) = [.sent (some [97, 10])] ∧
      steps.flatMap (sentBy 1) = [.sent (some [97, 10, 98, 10])] ∧
      final.shared.file.device.ringContent = [wholeContent [97, 10], wholeContent [98, 10]]))
    true (by decide +kernel)
  obtain ⟨kept, firstLine, secondLine, firstTop, secondTop, firstReply, secondReply, content⟩ :=
    of_decide_eq_true seen
  obtain ⟨served, each, _⟩ := interleaved_lines_answered commonKernel x86 plainBoot []
    (System.loaded commonKernel plainBoot) (by decide) .start (by decide) (by decide) 4096
    (by decide) .empty rfl ⟨rfl, by decide, by decide⟩ steps final run kept
    (clientSteps_onDevice inputs) (clientSteps_proper inputs)
  obtain ⟨firstLines, firstReplies⟩ := each 0
  obtain ⟨secondLines, secondReplies⟩ := each 1
  rw [firstTop] at firstLines
  rw [secondTop] at secondLines
  rw [firstReply, Thread.unsent, firstTop] at firstReplies
  rw [secondReply, Thread.unsent, secondTop] at secondReplies
  exact ⟨steps, final, served, run, firstLines.trans firstLine, secondLines.trans secondLine,
    firstReplies, secondReplies, content⟩

/-! ### No thread takes the process down -/

section

variable {kernel : Kernel} {block : Nat} {log : CommandLog} {file : DeviceFile}

theorem deviceFile_fwrite (stdio : Stdio) (rep : file.device.Represents kernel log)
    (idle : log.pending = []) {record : List Byte}
    (room : record.length ≤ kernel.kmallocMaxSize) (fits : record.length ≤ maxRwCount) :
    ∃ next, (deviceFile kernel stdio).fwrite file record = .ok next ∧
      next.device.Represents kernel (log.writeAll (stdio.split record)) := by
  have whole := stdio.splitWhole record
  obtain ⟨after, fPos, wrote, repAfter⟩ := writePieces_represents stdio (stdio.split record)
    file.device log (aesdLseek file.device file.fPos 0 seekEnd).1 rep (stdio.splitNonempty record)
    (by rw [idle, whole, List.length_nil]; omega) (by rw [whole]; exact fits)
  refine ⟨{ device := after, fPos := fPos }, ?_, repAfter⟩
  simp only [deviceFile, wrote]

theorem deviceFile_fread (fit : kernel.RetainedFit) (small : 10 * block < serverMsgLen)
    {stdio : Stdio} (reads : stdio.ReadsBlocks block) (rep : file.device.Represents kernel log)
    (text : TextLog block log) :
    ∃ next content, (deviceFile kernel stdio).fread file = .ok (next, content) ∧
      next.device.Represents kernel log := by
  obtain ⟨after, read, repAfter⟩ := fread_covered fit reads.served rep (text.room small)
    (text.covers small reads)
  have rewound : (aesdLseek file.device file.fPos 0 seekSet).1 = 0 := by
    rw [show seekSet = 0 from rfl, aesdLseek_set file.device file.fPos (Int.le_refl 0)]
  refine ⟨{ device := after, fPos := file.fPos }, log.retained.flatten, ?_, repAfter⟩
  simp only [deviceFile, rewound, read]

theorem deviceFile_fclose (stdio : Stdio) (rep : file.device.Represents kernel log) :
    ∃ next, (deviceFile kernel stdio).fclose file = .ok next := by
  obtain ⟨memory, released, _⟩ := rep.aesdRelease_quiet stdio.releaseGranted
  refine ⟨{ file with device := { file.device with memory := memory } }, ?_⟩
  simp only [deviceFile, released]

end

section

variable {kernel : Kernel} {block : Nat} {platform : Platform} {log : CommandLog}
  {serial : Option ThreadState} {base : DeviceFile} {thread : Thread} {received : List Recv}
  {written : List (List Byte)}

theorem Built.line {before state : ThreadState} {recv : Recv} (small : 10 * block < serverMsgLen)
    (built : Built platform before recv state) (clear : before.Clear)
    (proper : recv.LineOrEnd block) :
    ∃ line, IsLine line ∧ line.length ≤ block ∧ state.fileBuffer.string = some line := by
  have limit : serverMsgLen = 100000 := rfl
  cases recv with
  | error => exact proper.elim
  | closed => cases built
  | message line inside =>
      obtain ⟨isLine, short⟩ := proper
      have fits : platform.RecordFits line := recordFits_of_length platform (by omega)
      simp only [Built, Thread.receive, Thread.build, before.buildRecord_clear clear inside fits]
        at built
      cases built
      refine ⟨line, isLine, short, ?_⟩
      rw [string_record fits, recordOf_of_isLine platform isLine]

theorem Thread.receive_proceeds (platform : Platform) {state : ThreadState} {recv : Recv}
    (small : 10 * block < serverMsgLen) (clear : state.Clear) (proper : recv.LineOrEnd block) :
    ∃ after, Thread.receive platform { point := .receiving, state := state } recv = .ok after := by
  have limit : serverMsgLen = 100000 := rfl
  cases recv with
  | error => exact proper.elim
  | closed => exact ⟨_, rfl⟩
  | message line inside =>
      have short := proper.2
      have fits : platform.RecordFits line := recordFits_of_length platform (by omega)
      exact ⟨_, by
        simp only [Thread.receive, Thread.build, state.buildRecord_clear clear inside fits]
        rfl⟩

private theorem opened_represents {calls : FileOps DeviceFile} {atOpen : DeviceFile}
    (rep : base.device.Represents kernel log)
    (composed : calls.ComposedOf (OverDevice kernel block))
    (opened : calls.fopen base = .ok atOpen) : atOpen.device.Represents kernel log := by
  obtain ⟨_, _, rfl⟩ := deviceFile_of_composed composed
  cases opened
  exact rep

private theorem written_represents {calls : FileOps DeviceFile} {atOpen atWrite : DeviceFile}
    {line : List Byte} (roomy : serverMsgLen ≤ kernel.kmallocMaxSize)
    (rep : base.device.Represents kernel log) (text : TextLog block log)
    (composed : calls.ComposedOf (OverDevice kernel block)) (isLine : IsLine line)
    (inside : line.length ≤ serverMsgLen) (opened : calls.fopen base = .ok atOpen)
    (wrote : calls.fwrite atOpen line = .ok atWrite) :
    atWrite.device.Represents kernel (log.write line) := by
  have repOpen := opened_represents rep composed opened
  obtain ⟨writer, _, rfl⟩ := deviceFile_of_composed composed
  obtain ⟨next, outcome, repNext⟩ := deviceFile_fwrite writer repOpen text.idle
    (Nat.le_trans inside roomy) (Nat.le_trans inside (show serverMsgLen ≤ maxRwCount by decide))
  rw [wrote] at outcome
  cases outcome
  rw [← writeAll_split writer isLine]
  exact repNext

theorem Progress.proceeds {shared : Shared DeviceFile} (self : Nat) {env : StepEnv DeviceFile}
    (fit : kernel.RetainedFit) (roomy : serverMsgLen ≤ kernel.kmallocMaxSize)
    (small : 10 * block < serverMsgLen)
    (progress : Progress platform (OverDevice kernel block) serial base shared.file thread received
      written)
    (rep : base.device.Represents kernel log) (text : TextLog block log)
    (clear : ∀ state, serial = some state → state.Clear)
    (properReceived : ∀ recv, recv ∈ received → recv.LineOrEnd block)
    (ended : ∀ reply, reply ∈ thread.unsent → reply ≠ .sent none)
    (onDevice : OverDevice kernel block env)
    (proper : thread.point = .receiving → env.recv.LineOrEnd block)
    (returns : thread.point = .sending → env.send = .returns) :
    (∃ after next output, thread.step Kind.normal platform self env shared =
        .ok (after, next, output) ∧ output.reply ≠ .sent none) ∨
      thread.point = .locking ∧ shared.fileMutex ≠ none ∧
        thread.step Kind.normal platform self env shared = .error .waiting := by
  have transfer : serverMsgLen ≤ maxRwCount := by decide
  have silent : Reply.silent ≠ .sent none := by
    intro sent
    cases sent
  obtain ⟨stdio, reads, calls⟩ := onDevice
  -- the line in the buffer, from the lock to the unlock
  have line : ∀ {before state : ThreadState} {recv : Recv}, serial = some before →
      Built platform before recv state → recv ∈ received →
      ∃ line, IsLine line ∧ line.length ≤ block ∧ line.length ≤ serverMsgLen ∧
        state.fileBuffer.string = some line := by
    intro before state recv same built member
    obtain ⟨line, isLine, short, string⟩ := built.line small (clear _ same)
      (properReceived _ member)
    exact ⟨line, isLine, short, by omega, string⟩
  cases progress with
  | top same =>
      left
      cases flag : shared.sigThreadTerminateFlag with
      | true => exact ⟨_, _, _, by simp only [Thread.step, flag, if_true]; rfl, silent⟩
      | false => exact ⟨_, _, _, by simp only [Thread.step, flag]; rfl, silent⟩
  | receiving same =>
      left
      obtain ⟨after, outcome⟩ := Thread.receive_proceeds platform small (clear _ same) (proper rfl)
      exact ⟨_, _, _, by simp only [Thread.step, outcome]; rfl, silent⟩
  | locking same built =>
      cases mutex : shared.fileMutex with
      | none => exact .inl ⟨_, _, _, by simp only [Thread.step, mutex, Kind.normal]; rfl, silent⟩
      | some holder =>
          right
          refine ⟨rfl, by simp, ?_⟩
          simp only [Thread.step, mutex, Kind.normal]
  | opening same built untouched =>
      exact .inl ⟨_, _, _, by simp only [Thread.step, calls, deviceFile]; rfl, silent⟩
  | writing composed same built opened =>
      left
      obtain ⟨line, _, _, inside, holds⟩ := line same built List.mem_cons_self
      obtain ⟨next, wrote, _⟩ := deviceFile_fwrite stdio (opened_represents rep composed opened)
        text.idle (Nat.le_trans inside roomy) (Nat.le_trans inside transfer)
      exact ⟨_, _, _, by simp only [Thread.step, holds, calls, wrote]; rfl, silent⟩
  | reading composed same built holds opened wrote =>
      left
      obtain ⟨line, isLine, short, inside, string⟩ := line same built List.mem_cons_self
      rw [holds] at string
      cases string
      obtain ⟨last, content, read, _⟩ := deviceFile_fread fit small reads
        (written_represents roomy rep text composed isLine inside opened wrote)
        (text.write isLine short)
      exact ⟨_, _, _, by simp only [Thread.step, calls, read]; rfl, silent⟩
  | closing composed same built holds opened wrote read =>
      left
      obtain ⟨line, isLine, short, inside, string⟩ := line same built List.mem_cons_self
      rw [holds] at string
      cases string
      have repWritten := written_represents roomy rep text composed isLine inside opened wrote
      obtain ⟨reader, readsThen, rfl⟩ := deviceFile_of_composed composed
      obtain ⟨last, _, readNow, repLast⟩ := deviceFile_fread fit small readsThen repWritten
        (text.write isLine short)
      rw [read] at readNow
      cases readNow
      obtain ⟨after, closed⟩ := deviceFile_fclose stdio repLast
      exact ⟨_, _, _, by simp only [Thread.step, calls, closed]; rfl, silent⟩
  | unlocking same untouched => exact .inl ⟨_, _, _, rfl, silent⟩
  | sending same =>
      left
      exact ⟨_, _, _, by simp only [Thread.step, returns rfl]; rfl,
        ended _ (List.mem_singleton.mpr rfl)⟩
  | leaving gone => exact .inl ⟨_, _, _, rfl, silent⟩

end

/-- The step is possible, and no string is read past its buffer. -/
def Process.Proceeds (platform : Platform) (process : Process DeviceFile) (self : Nat)
    (env : StepEnv DeviceFile) : Prop :=
  ∃ next output,
    Process.step Kind.normal platform process (.thread self env) = .ok (next, output) ∧
      output.reply ≠ .sent none

theorem repliesTo_ended {log : CommandLog} {self : Nat} {served : List (Nat × List Byte)}
    {reply : Reply} (member : reply ∈ repliesTo log self served) : reply ≠ .sent none := by
  obtain ⟨front, _, last⟩ := List.mem_filterMap.mp member
  unfold lastReply at last
  split at last
  · cases last
    intro none
    cases none
  · cases last

/-- In every such interleaving every thread can go on, or waits for the mutex
while another thread has it that can go on: no call fails, no index leaves a
buffer, and the threads never block each other for good. -/
theorem interleaved_lines_proceed (kernel : Kernel) (platform : Platform) (boot : InitEnv)
    (earlier : List DriverStep) (system : System)
    (loaded : (aesdInitModule kernel boot).retval = 0)
    (driven : DriverRun kernel boot earlier system) (fit : kernel.RetainedFit)
    (roomy : serverMsgLen ≤ kernel.kmallocMaxSize) (block : Nat)
    (small : 10 * block < serverMsgLen)
    (text : TextLog block (CommandLog.ofWrites (writtenBy earlier)))
    (steps : List (ProcessStep DeviceFile)) (final : Process DeviceFile)
    (run : ProcessRun platform { device := system.device, fPos := 0 } steps final)
    (kept : ∀ taken, taken ∈ steps → ¬ShutdownUnlock taken)
    (onDevice : ∀ env, UsedIn steps env → OverDevice kernel block env)
    (proper : ∀ self recv, recv ∈ steps.flatMap (receivedBy self) → recv.LineOrEnd block)
    (self : Nat) (env : StepEnv DeviceFile) (next : OverDevice kernel block env)
    (properNext : env.recv.LineOrEnd block) (returns : env.send = .returns) :
    final.Proceeds platform self env ∨
      Process.step Kind.normal platform final (.thread self env) = .error .waiting ∧
        ∃ holder, holder ≠ self ∧ final.shared.fileMutex = some holder ∧
          ∀ other, OverDevice kernel block other → final.Proceeds platform holder other := by
  obtain ⟨rep, _⟩ := DriverRun.represents loaded driven
  obtain ⟨passes, serial, served, serialized, answered⟩ := ProcessRun.answered fit roomy small rep
    text run kept onDevice proper
  have each : ∀ (self : Nat) (env : StepEnv DeviceFile), OverDevice kernel block env →
      ((final.threads self).point = .receiving → env.recv.LineOrEnd block) →
      ((final.threads self).point = .sending → env.send = .returns) →
      final.Proceeds platform self env ∨
        (final.threads self).point = .locking ∧ final.shared.fileMutex ≠ none ∧
          Process.step Kind.normal platform final (.thread self env) = .error .waiting := by
    intro self env made properEnv returns
    obtain ⟨received, written, account⟩ := serialized.accounts self
    have properReceived : ∀ recv, recv ∈ received → recv.LineOrEnd block := by
      intro recv member
      apply proper self recv
      rw [account.receives]
      exact List.mem_append_right _ member
    have ended : ∀ reply, reply ∈ (final.threads self).unsent → reply ≠ .sent none := by
      intro reply member
      have listed : reply ∈
          repliesTo (CommandLog.ofWrites (writtenBy earlier)) self served := by
        rw [← answered.sends, ← account.sends]
        exact List.mem_append_right _ member
      exact repliesTo_ended listed
    rcases account.progress.proceeds self fit roomy small answered.represents answered.text
      (answered.clear self) properReceived ended made properEnv returns with
      ⟨thread, shared, output, taken, sound⟩ | ⟨point, held, waits⟩
    · left
      exact ⟨_, output, by simp only [Process.step, taken]; rfl, sound⟩
    · right
      refine ⟨point, held, ?_⟩
      simp only [Process.step, waits]
  rcases each self env next (fun _ => properNext) (fun _ => returns) with
    proceeds | ⟨point, held, waits⟩
  · exact .inl proceeds
  · right
    obtain ⟨holder, holds⟩ := Option.ne_none_iff_exists'.mp held
    have inside : (final.threads holder).Holds := (serialized.guarded holder).mpr holds
    have elsewhere {point : Point} (outside : point.holdsMutex = false) :
        (final.threads holder).point ≠ point := by
      intro same
      rw [Thread.Holds, same, outside] at inside
      cases inside
    refine ⟨waits, holder, ?_, holds, ?_⟩
    · intro same
      rw [← same] at point
      exact elsewhere rfl point
    · intro other made
      rcases each holder other made (fun receiving => absurd receiving (elsewhere rfl))
        (fun sending => absurd sending (elsewhere rfl)) with proceeds | ⟨locking, _, _⟩
      · exact proceeds
      · exact absurd locking (elsewhere rfl)

/-- Thread 1 wants the mutex while thread 0 is in the device. -/
theorem interleaved_lines_proceed_two_threads :
    ∃ steps final, ProcessRun x86 loadedFile steps final ∧
      Process.step Kind.normal x86 final (clientStep 1) = .error .waiting ∧
      final.shared.fileMutex = some 0 ∧ final.Proceeds x86 0 (clientEnv 0) := by
  obtain ⟨steps, final, run, inputs, seen⟩ := execute_observe_inputs (Process.step Kind.normal x86)
    (.start loadedFile)
    ([0, 0, 1, 0, 0, 1, 0].map clientStep)
    (fun steps final => decide (
      (∀ taken, taken ∈ steps → ¬ShutdownUnlock taken) ∧ final.shared.fileMutex = some 0 ∧
      (final.threads 1).point = .locking))
    true (by decide +kernel)
  obtain ⟨kept, mutex, wants⟩ := of_decide_eq_true seen
  rcases interleaved_lines_proceed commonKernel x86 plainBoot []
    (System.loaded commonKernel plainBoot) (by decide) .start (by decide) (by decide) 4096
    (by decide) ⟨rfl, by decide, by decide⟩ steps final run kept (clientSteps_onDevice inputs)
    (clientSteps_proper inputs) 1 (clientEnv 1) (clientEnv_onDevice 1) (clientEnv_proper 1) rfl with
    ⟨next, output, taken, _⟩ | ⟨waits, holder, _, holds, goes⟩
  · simp only [Process.step, Thread.step, wants, mutex, Kind.normal] at taken
    cases taken
  · rw [mutex] at holds
    cases holds
    exact ⟨steps, final, run, waits, mutex, goes _ (clientEnv_onDevice 0)⟩

end Aesd.Server
