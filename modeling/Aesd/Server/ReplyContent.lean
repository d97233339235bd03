/-
What a client gets back.

After its line has become a command, the thread reads the device from the start
and sends the string it finds in `fileBuffer`.  The reads meet the retained
commands one by one.  `aesd_read` copies a command whole and moves on behind it,
but tells `fread` of no more bytes than it asked for: the next command is put
over what `fread` does not know of.  The buffer takes `SERVER_MSG_LEN` bytes, and
the string needs a zero behind it.
-/

import Aesd.Driver.Seeking
import Aesd.Server.BufferBounds
import Aesd.Server.MessageDelivery

namespace Aesd.Server

open CharBuffer
open Driver
open Execution
open Segments

theorem endsCommand_of_isLine {line : List Byte} (isLine : IsLine line) :
    endsCommand line = true := by
  obtain ⟨body, rfl, _⟩ := isLine
  simp [endsCommand, newline, lf]

theorem no_zero_of_isLine {line : List Byte} (isLine : IsLine line) : 0 ∉ line := by
  obtain ⟨body, rfl, plain⟩ := isLine
  intro member
  rcases List.mem_append.mp member with inBody | last
  · exact (plain 0 inBody).1 rfl
  · exact absurd (List.mem_singleton.mp last) (by decide)

/-! ### What `fread` makes of the commands -/

def Stdio.Served (stdio : Stdio) : Prop :=
  ∀ want, (stdio.readEnv want).Serves

/-- What has been stored in `fileBuffer` when each read has met the next of these
pieces; nothing if a read has left the buffers. -/
def gather (request : Nat → Request) : List (List Byte) → Nat → List Byte → Option (List Byte)
  | [], _, content => some content
  | piece :: pieces, want, content =>
      if want = 0 then some content
      else
        match (request want).store content (serverMsgLen - want) piece
            (min (request want).count piece.length) with
        | none => none
        | some content =>
            gather request pieces (want - min (request want).count piece.length) content

/-- Every read asks for the whole of the command it meets; the last may ask for
less of it if it goes straight to `fileBuffer`. -/
def Covers (request : Nat → Request) : List (List Byte) → Nat → Prop
  | [], _ => True
  | [last], want => last.length ≤ (request want).count ∨ (request want).direct = true
  | command :: next :: rest, want =>
      command.length ≤ (request want).count ∧
        Covers request (next :: rest) (want - command.length)

section

variable {request : Nat → Request} {piece content : List Byte} {want : Nat}

theorem gather_direct (pieces : List (List Byte)) (some : want ≠ 0)
    (direct : (request want).direct = true)
    (inside : serverMsgLen - want + piece.length ≤ serverMsgLen) :
    gather request (piece :: pieces) want content =
      gather request pieces (want - min (request want).count piece.length)
        (putAt content (serverMsgLen - want) piece) := by
  rw [gather, if_neg some]
  simp only [Request.store, direct, if_true, if_pos inside]

theorem gather_through (pieces : List (List Byte)) (some : want ≠ 0)
    (through : (request want).direct = false) (covered : piece.length ≤ (request want).count) :
    gather request (piece :: pieces) want content =
      gather request pieces (want - piece.length)
        (putAt content (serverMsgLen - want)
          (piece.take (serverMsgLen - (serverMsgLen - want)))) := by
  rw [gather, if_neg some]
  simp only [Request.store, through, Bool.false_eq_true, if_false, if_pos covered,
    Nat.min_eq_right covered, List.take_length]

theorem gather_overrun (pieces : List (List Byte)) (some : want ≠ 0)
    (through : (request want).direct = false) (longer : ¬piece.length ≤ (request want).count) :
    gather request (piece :: pieces) want content = none := by
  rw [gather, if_neg some]
  simp only [Request.store, through, Bool.false_eq_true, if_false, if_neg longer]

theorem Request.store_eq_some {asked : Request} {position returned : Nat} {after : List Byte}
    (stored : asked.store content position piece returned = some after) :
    ∃ bytes, after = putAt content position bytes ∧ bytes <+: piece := by
  unfold Request.store at stored
  split at stored
  · split at stored
    · cases stored
      exact ⟨piece, rfl, List.prefix_refl _⟩
    · cases stored
  · split at stored
    · cases stored
      exact ⟨_, rfl, (List.take_prefix _ _).trans (List.take_prefix _ _)⟩
    · cases stored

end

section

variable {request : Nat → Request}

theorem gather_mem (pieces : List (List Byte)) :
    ∀ {want : Nat} {content final : List Byte} {char : Byte},
      gather request pieces want content = some final → char ∈ final →
      char ∈ content ∨ char ∈ pieces.flatten := by
  induction pieces with
  | nil =>
      intro want content final char gathered member
      cases gathered
      exact .inl member
  | cons piece pieces ih =>
      intro want content final char gathered member
      rw [gather] at gathered
      split at gathered
      · cases gathered
        exact .inl member
      · split at gathered
        · cases gathered
        · rename_i later stored
          obtain ⟨bytes, rfl, inPiece⟩ := Request.store_eq_some stored
          rw [List.flatten_cons, List.mem_append]
          rcases ih gathered member with here | behind
          · rcases mem_putAt here with old | new
            · exact .inl old
            · exact .inr (.inl (inPiece.subset new))
          · exact .inr (.inr behind)

theorem gather_shorter (pieces : List (List Byte)) (total : Nat) :
    ∀ {want : Nat} {content final : List Byte}, content.length < total →
      serverMsgLen - want + pieces.flatten.length < total →
      gather request pieces want content = some final → final.length < total := by
  induction pieces with
  | nil =>
      intro want content final short _ gathered
      cases gathered
      exact short
  | cons piece pieces ih =>
      intro want content final short left gathered
      rw [List.flatten_cons, List.length_append] at left
      rw [gather] at gathered
      split at gathered
      · cases gathered
        exact short
      · split at gathered
        · cases gathered
        · rename_i later stored
          obtain ⟨bytes, rfl, inPiece⟩ := Request.store_eq_some stored
          have bounded := length_putAt_le content (serverMsgLen - want) bytes
          have shorter := inPiece.length_le
          exact ih (by omega) (by omega) gathered

section

variable {command front : List Byte} (position : front.length + want = serverMsgLen)

include position

/-- A command that is asked for is appended, and the rest is read behind it. -/
theorem gather_covered (rest : List (List Byte))
    (room : front.length + command.length < serverMsgLen)
    (covered : command.length ≤ (request want).count) :
    gather request (command :: rest) want front =
      gather request rest (want - command.length) (front ++ command) := by
  have here : serverMsgLen - want = front.length := by omega
  cases direct : (request want).direct with
  | true =>
      rw [gather_direct rest (by omega) direct (by omega), here, putAt_length,
        Nat.min_eq_right covered]
  | false =>
      rw [gather_through rest (by omega) direct covered, here, List.take_of_length_le (by omega),
        putAt_length]

/-- Of any other the end is overwritten by what comes next, or lies outside of every
buffer. -/
theorem gather_uncovered {next : List Byte} (rest : List (List Byte)) (nextSome : next ≠ [])
    (room : front.length + (command :: next :: rest).flatten.length < serverMsgLen)
    (uncovered : ¬command.length ≤ (request want).count) :
    gather request (command :: next :: rest) want front ≠
      some (front ++ (command :: next :: rest).flatten) := by
  intro gathered
  have here : serverMsgLen - want = front.length := by omega
  have more := List.length_pos_iff.mpr nextSome
  simp only [List.flatten_cons, List.length_append] at room
  cases direct : (request want).direct with
  | true =>
      rw [gather_direct (next :: rest) (by omega) direct (by omega), here, putAt_length,
        Nat.min_eq_left (Nat.le_of_not_le uncovered)] at gathered
      have shorter := gather_shorter (next :: rest)
        (front ++ (command :: next :: rest).flatten).length
        (by
          simp only [List.flatten_cons, List.length_append]
          omega)
        (by
          simp only [List.flatten_cons, List.length_append]
          omega) gathered
      exact absurd shorter (Nat.lt_irrefl _)
  | false =>
      rw [gather_overrun (next :: rest) (by omega) direct uncovered] at gathered
      cases gathered

end

variable (request) in
/-- The commands are all there exactly when the reads have asked for them. -/
theorem gather_eq_iff (commands : List (List Byte)) :
    ∀ {want : Nat} {front : List Byte}, front.length + want = serverMsgLen →
      (∀ command, command ∈ commands → command ≠ []) →
      front.length + commands.flatten.length < serverMsgLen →
      (gather request commands want front = some (front ++ commands.flatten) ↔
        Covers request commands want) := by
  induction commands with
  | nil =>
      intro want front _ _ _
      simp [gather, Covers]
  | cons command rest ih =>
      intro want front position nonempty room
      have total := room
      rw [List.flatten_cons, List.length_append] at total
      by_cases covered : command.length ≤ (request want).count
      · have later : gather request rest (want - command.length) (front ++ command) =
              some (front ++ (command :: rest).flatten) ↔
            Covers request rest (want - command.length) := by
          rw [List.flatten_cons, ← List.append_assoc]
          apply ih
          · rw [List.length_append]
            omega
          · exact fun other member => nonempty other (List.mem_cons_of_mem _ member)
          · rw [List.length_append]
            omega
        rw [gather_covered position rest (by omega) covered, later]
        cases rest with
        | nil => simp [Covers, covered]
        | cons next rest => simp only [Covers, covered, true_and]
      · cases rest with
        | nil =>
            have here : serverMsgLen - want = front.length := by omega
            cases direct : (request want).direct with
            | true =>
                rw [gather_direct [] (by omega) direct (by omega), here, putAt_length]
                simp [gather, Covers, direct]
            | false =>
                rw [gather_overrun [] (by omega) direct covered]
                simp [Covers, covered, direct]
        | cons next rest =>
            have nextSome := nonempty next (List.mem_cons_of_mem _ List.mem_cons_self)
            have uncovered : ¬Covers request (command :: next :: rest) want := fun all =>
              covered all.1
            simp only [uncovered, iff_false]
            exact gather_uncovered position rest nextSome room covered

theorem covers_of_short {block : Nat} (asks : ∀ want, 0 < want → block ≤ (request want).count)
    (commands : List (List Byte)) :
    ∀ {want : Nat}, (∀ command, command ∈ commands → command.length ≤ block) →
      commands.flatten.length < want → Covers request commands want := by
  induction commands with
  | nil =>
      intro want _ _
      trivial
  | cons command rest ih =>
      intro want short room
      rw [List.flatten_cons, List.length_append] at room
      have covered : command.length ≤ (request want).count :=
        Nat.le_trans (short command List.mem_cons_self) (asks want (by omega))
      cases rest with
      | nil => exact .inl covered
      | cons next rest =>
          exact ⟨covered, ih (fun other member => short other (List.mem_cons_of_mem _ member))
            (by omega)⟩

end

/-! ### Reading the device back -/

section

variable {kernel : Kernel} {log : CommandLog}

theorem freadLoop_gather (fit : kernel.RetainedFit) {stdio : Stdio} (served : stdio.Served)
    (turns : Nat) :
    ∀ (want : Nat) (device : Device) (fPos : Int) (pieces : List (List Byte))
      (content : List Byte), want ≤ turns → device.Represents kernel log → 0 ≤ fPos →
      fPos ≤ llongMax → remaining log.retained fPos.toNat = pieces →
      ∃ after, after.Represents kernel log ∧
        freadLoop kernel stdio.request stdio.readEnv turns want device fPos content =
          (gather stdio.request pieces want content).elim (.error .outOfBounds)
            fun final => .ok (after, final) := by
  have nothing : ∀ (pieces : List (List Byte)) (content : List Byte),
      gather stdio.request pieces 0 content = some content := by
    intro pieces content
    cases pieces <;> rfl
  induction turns with
  | zero =>
      intro want device fPos pieces content enough rep _ _ _
      obtain rfl := Nat.le_zero.mp enough
      exact ⟨device, rep, by rw [nothing]; rfl⟩
  | succ turns ih =>
      intro want device fPos pieces content enough rep nonneg bounded left
      by_cases full : want = 0
      · subst full
        exact ⟨device, rep, by rw [nothing]; rfl⟩
      · obtain ⟨next, repNext, read, nextNonneg, nextBounded, later⟩ :=
          Device.Represents.aesdRead_next fit rep (served want) (stdio.request want).count nonneg
            bounded left
        cases pieces with
        | nil =>
            refine ⟨next, repNext, ?_⟩
            have kept : (stdio.request want).store content (serverMsgLen - want) [] 0 =
                some content := by
              unfold Request.store
              simp only [List.length_nil, Nat.add_zero, Nat.sub_le, if_true, Nat.zero_le,
                List.take_nil, putAt_nil, ite_self]
            rw [freadLoop, if_neg full, read]
            simp [gather, kept]
        | cons piece rest =>
            have some : 0 < min (stdio.request want).count piece.length := by
              have asked := stdio.requestSome want (Nat.pos_of_ne_zero full)
              have longer := List.length_pos_iff.mpr (Segments.remaining_nonempty
                (fun _ member => rep.retained_nonempty member)
                (by rw [left]; exact List.mem_cons_self))
              omega
            obtain ⟨last, repLast, rested⟩ := ih
              (want - min (stdio.request want).count piece.length) next _ rest
              (((stdio.request want).store content (serverMsgLen - want) piece
                (min (stdio.request want).count piece.length)).getD []) (by omega) repNext
              nextNonneg nextBounded later
            refine ⟨last, repLast, ?_⟩
            rw [freadLoop, if_neg full, read, gather, if_neg full]
            simp only [List.headD_cons, Int.toNat_natCast]
            cases stored : (stdio.request want).store content (serverMsgLen - want) piece
                (min (stdio.request want).count piece.length) with
            | none => rfl
            | some content =>
                rw [stored] at rested
                have returned :
                    ¬((min (stdio.request want).count piece.length : Nat) : Int) ≤ 0 := by
                  omega
                exact (if_neg returned).trans rested

theorem gather_retained_iff (request : Nat → Request) {device : Device}
    (rep : device.Represents kernel log) (room : log.retained.flatten.length < serverMsgLen) :
    gather request log.retained serverMsgLen [] = some log.retained.flatten ↔
      Covers request log.retained serverMsgLen := by
  have whole := gather_eq_iff request log.retained (Nat.zero_add serverMsgLen)
    (fun _ member => rep.retained_nonempty member) (by rw [List.length_nil]; omega)
  rw [List.nil_append] at whole
  exact whole

theorem fread_covered (fit : kernel.RetainedFit) {stdio : Stdio} (served : stdio.Served)
    {device : Device} (rep : device.Represents kernel log)
    (room : log.retained.flatten.length < serverMsgLen)
    (covers : Covers stdio.request log.retained serverMsgLen) :
    ∃ after,
      fread kernel stdio.request stdio.readEnv device 0 = .ok (after, log.retained.flatten) ∧
      after.Represents kernel log := by
  have left : remaining log.retained (0 : Int).toNat = log.retained :=
    remaining_zero fun _ member => rep.retained_nonempty member
  obtain ⟨after, repAfter, read⟩ := freadLoop_gather fit served serverMsgLen serverMsgLen device 0
    log.retained [] (Nat.le_refl _) rep (Int.le_refl 0) (by decide) left
  refine ⟨after, ?_, repAfter⟩
  rw [fread, read, (gather_retained_iff stdio.request rep room).mpr covers]
  rfl

theorem writeAll_split (stdio : Stdio) {line : List Byte} (isLine : IsLine line) :
    log.writeAll (stdio.split line) = log.write line := by
  have whole := stdio.splitWhole line
  have closes := endsCommand_of_isLine isLine
  obtain ⟨body, ends, plain⟩ := isLine
  have noFeed : lf ∉ body := fun member => (plain lf member).2.1 rfl
  rw [writeAll_of_line _ log body (stdio.splitNonempty line) (whole.trans ends) noFeed, whole,
    CommandLog.write, if_pos closes]

/-- The section of a line: one more command, and what `fread` makes of them all. -/
theorem deviceSection_line (fit : kernel.RetainedFit) {stdio : Stdio} (served : stdio.Served)
    {device : Device} (rep : device.Represents kernel log) (idle : log.pending = [])
    {line : List Byte} (isLine : IsLine line) (room : line.length ≤ kernel.kmallocMaxSize)
    (fits : line.length ≤ maxRwCount) :
    ∃ after, after.Represents kernel (log.write line) ∧
      deviceSection kernel stdio device line =
        (gather stdio.request (log.write line).retained serverMsgLen []).elim
          (.error .outOfBounds) fun content => .ok (after, content) := by
  have whole := stdio.splitWhole line
  obtain ⟨written, fPos, wrote, repWritten⟩ := writePieces_represents stdio (stdio.split line)
    device log (aesdLseek device 0 0 seekEnd).1 rep (stdio.splitNonempty line)
    (by rw [idle, whole, List.length_nil]; omega) (by rw [whole]; exact fits)
  rw [writeAll_split stdio isLine] at repWritten
  have left : remaining (log.write line).retained (0 : Int).toNat = (log.write line).retained :=
    remaining_zero fun _ member => repWritten.retained_nonempty member
  obtain ⟨back, repBack, read⟩ := freadLoop_gather fit served serverMsgLen serverMsgLen written 0
    (log.write line).retained [] (Nat.le_refl _) repWritten (Int.le_refl 0) (by decide) left
  obtain ⟨memory, released, changes⟩ := repBack.aesdRelease_quiet stdio.releaseGranted
  have rewound : (aesdLseek written fPos 0 seekSet).1 = 0 := by
    rw [show seekSet = 0 from rfl, aesdLseek_set written fPos (Int.le_refl 0)]
  refine ⟨{ back with memory := memory }, repBack.of_changes changes, ?_⟩
  unfold deviceSection
  rw [wrote]
  simp only [rewound, fread, read]
  cases gather stdio.request (log.write line).retained serverMsgLen [] with
  | none => rfl
  | some content => simp only [Option.elim_some, released]

end

/-! ### The reply -/

theorem sent_iff {content whole : List Byte} (noZero : 0 ∉ content) :
    ((Buffer.zeroed serverMsgLen).fill (content.take serverMsgLen)).string = some whole ↔
      content = whole ∧ whole.length < serverMsgLen := by
  rw [Buffer.fill_zeroed]
  by_cases room : content.length < serverMsgLen
  · have string : content.takeWhile (· ≠ 0) = content := by
      apply List.takeWhile_eq_self_iff.mpr
      intro char member
      apply decide_eq_true
      intro zero
      rw [zero] at member
      exact noZero member
    rw [List.take_of_length_le (Nat.le_of_lt room), Buffer.string_holding _ room, string,
      Option.some_inj]
    constructor
    · rintro rfl
      exact ⟨rfl, room⟩
    · exact fun same => same.1
  · have endless : (Buffer.holding serverMsgLen (content.take serverMsgLen)).string = none := by
      apply (Buffer.string_holding_eq_none_iff _ _).mpr
      rw [List.length_take]
      refine ⟨by omega, ?_⟩
      intro member
      exact noZero (List.mem_of_mem_take (List.mem_of_mem_take member))
    rw [endless]
    constructor
    · intro none
      cases none
    · rintro ⟨rfl, shorter⟩
      exact absurd shorter room

theorem mem_retained_write {log : CommandLog} (idle : log.pending = []) {line : List Byte}
    (isLine : IsLine line) {command : List Byte} (member : command ∈ (log.write line).retained) :
    command ∈ log.retained ∨ command = line := by
  rw [log.retained_write_ends line (endsCommand_of_isLine isLine), idle,
    List.nil_append] at member
  split at member
  · rcases List.mem_append.mp member with old | new
    · exact .inl (List.mem_of_mem_tail old)
    · exact .inr (List.mem_singleton.mp new)
  · rcases List.mem_append.mp member with old | new
    · exact .inl old
    · exact .inr (List.mem_singleton.mp new)

theorem no_zero_after_write {log : CommandLog} (idle : log.pending = [])
    (noZero : ∀ command, command ∈ log.retained → 0 ∉ command) {line : List Byte}
    (isLine : IsLine line) : 0 ∉ (log.write line).retained.flatten := by
  intro member
  obtain ⟨command, inRetained, inCommand⟩ := List.mem_flatten.mp member
  rcases mem_retained_write idle isLine inRetained with old | rfl
  · exact noZero command old inCommand
  · exact no_zero_of_isLine isLine inCommand

/-- In every state of the device and of the thread, a line is answered with the
commands retained after it exactly when these are shorter than the buffer and the
reads ask for them. -/
theorem reply_complete_iff (kernel : Kernel) (platform : Platform) (boot : InitEnv)
    (steps : List DriverStep) (system : System)
    (loaded : (aesdInitModule kernel boot).retval = 0)
    (run : DriverRun kernel boot steps system) (fit : kernel.RetainedFit)
    (roomy : serverMsgLen ≤ kernel.kmallocMaxSize) (log : CommandLog)
    (written : log = CommandLog.ofWrites (writtenBy steps)) (idle : log.pending = [])
    (noZero : ∀ command, command ∈ log.retained → 0 ∉ command)
    (earlier : List (Pass Device)) (start before : Device) (thread : ThreadState)
    (outputs : List PassOutput)
    (served : serverThread platform earlier .start start = .ok (some thread, before, outputs))
    (line : List Byte) (isLine : IsLine line) (short : line.length ≤ 99998)
    (pass : Pass Device) (brings : pass.Brings line) (stdio : Stdio) (reads : stdio.Served)
    (onDevice : pass.fileSection = deviceSection kernel stdio) :
    (∀ next after output,
      serverPass platform pass thread system.device = .ok (next, after, output) →
      after.ringContent = (log.write line).retained.map wholeContent) ∧
    ((∃ next after output,
        serverPass platform pass thread system.device = .ok (next, after, output) ∧
        output.reply = .sent (some (log.write line).retained.flatten)) ↔
      (log.write line).retained.flatten.length < serverMsgLen ∧
        Covers stdio.request (log.write line).retained serverMsgLen) := by
  obtain ⟨rep, _⟩ := DriverRun.represents loaded run
  rw [← written] at rep
  have limit : serverMsgLen = 100000 := rfl
  have transfer : serverMsgLen ≤ maxRwCount := by decide
  have clear := serverThread_clear earlier ThreadState.start_clear served
  have recordFits := recordFits_of_length platform (Nat.add_le_add_right short 2)
  have textAfter := no_zero_after_write idle noZero isLine
  obtain ⟨after, repAfter, outcome⟩ := deviceSection_line fit reads rep idle isLine
    (by omega) (by omega)
  have outcome : pass.fileSection system.device (recordOf platform line) =
      (gather stdio.request (log.write line).retained serverMsgLen []).elim
        (.error .outOfBounds) fun content => .ok (after, content) := by
    rw [recordOf_of_isLine platform isLine, onDevice, outcome]
  have complete := gather_retained_iff stdio.request repAfter
  cases gathered : gather stdio.request (log.write line).retained serverMsgLen [] with
  | none =>
      rw [gathered] at outcome complete
      have stopped := serverPass_stopped platform clear brings recordFits outcome
      constructor
      · intro next last output passed
        rw [stopped] at passed
        cases passed
      · constructor
        · rintro ⟨next, last, output, passed, _⟩
          rw [stopped] at passed
          cases passed
        · rintro ⟨room, covers⟩
          exact absurd ((complete room).mpr covers) (by simp)
  | some content =>
      rw [gathered] at outcome complete
      have noZeroRead : 0 ∉ content := by
        intro member
        rcases gather_mem _ gathered member with none | inRetained
        · cases none
        · exact textAfter inRetained
      obtain ⟨k, passed⟩ := serverPass_brings platform clear brings recordFits outcome
      constructor
      · intro next last output returned
        rw [passed] at returned
        cases returned
        exact repAfter.ringContent_eq
      · constructor
        · rintro ⟨next, last, output, returned, replied⟩
          rw [passed] at returned
          cases returned
          obtain ⟨rfl, room⟩ := (sent_iff noZeroRead).mp (Reply.sent.inj replied)
          exact ⟨room, (complete room).mp rfl⟩
        · rintro ⟨room, covers⟩
          obtain rfl := Option.some.inj ((complete room).mpr covers)
          exact ⟨_, _, _, passed, congrArg Reply.sent ((sent_iff noZeroRead).mpr ⟨rfl, room⟩)⟩

def linePass (line : List Byte) (short : line.length ≤ serverMsgLen) (stdio : Stdio) :
    Pass Device :=
  { sigThreadTerminateFlag := false
    recv := .message line short
    lockSucceeds := fun _ => true
    unlockSucceeds := fun _ => true
    fileSection := deviceSection commonKernel stdio }

theorem linePass_brings (line : List Byte) (short : line.length ≤ serverMsgLen) (stdio : Stdio) :
    (linePass line short stdio).Brings line :=
  { running := rfl
    received := ⟨short, rfl⟩
    locked := fun _ => rfl }

theorem plainStdio_served : plainStdio.Served :=
  fun _ => plainReadEnv_serves

/-- With `ab\n` and `c\n` in the device, the line `d\n` is answered with all three. -/
theorem reply_complete_third_line :
    ∃ steps system next after output, DriverRun commonKernel plainBoot steps system ∧
      writtenBy steps = [[97, 98, 10], [99, 10]] ∧
      serverPass x86 (linePass [100, 10] (by decide) plainStdio) .start system.device =
        .ok (next, after, output) ∧
      output.reply = .sent (some [97, 98, 10, 99, 10, 100, 10]) := by
  obtain ⟨steps, system, run, written⟩ := twoCommands_reached
  obtain ⟨_, complete⟩ := reply_complete_iff commonKernel x86 plainBoot
    steps system (by decide) run (by decide) (by decide)
    (CommandLog.ofWrites [[97, 98, 10], [99, 10]]) (by rw [written]) rfl (by decide) []
    system.device system.device .start [] rfl [100, 10]
    ⟨[100], rfl, by intro char member; rw [List.mem_singleton.mp member]; decide⟩ (by decide)
    (linePass [100, 10] (by decide) plainStdio) (linePass_brings _ _ _) plainStdio
    plainStdio_served rfl
  have asks : ∀ want, 0 < want → 4096 ≤ (plainStdio.request want).count :=
    fun _ _ => blockRequest_count (by decide)
  obtain ⟨next, after, output, passed, sent⟩ := complete.mpr
    ⟨by decide, covers_of_short asks _ (by decide) (by decide)⟩
  exact ⟨steps, system, next, after, output, run, written, passed, sent⟩

theorem line_more {steps : List DriverStep} {system : System}
    (run : DriverRun commonKernel plainBoot steps system) {file : Nat}
    (unused : system.files file = none)
    (idle : (CommandLog.ofWrites (writtenBy steps)).pending = []) {line : List Byte}
    (nonempty : line ≠ []) (small : line.length ≤ commonKernel.kmallocMaxSize) :
    ∃ more next, DriverRun commonKernel plainBoot more next ∧
      writtenBy more = writtenBy steps ++ [line] ∧
      ∀ other, other ≠ file → next.files other = system.files other := by
  have limit : commonKernel.kmallocMaxSize ≤ maxRwCount := by decide
  have fits : line.length ≤ maxRwCount := Nat.le_trans small limit
  have far : (maxRwCount : Int) ≤ llongMax := by decide
  obtain ⟨rep, _⟩ := DriverRun.represents (by decide) run
  have opened : Succeeds (System.step commonKernel) system
      (.openFile file, { retval := 0, delivered := [] })
      { system with files := Function.update system.files file (some 0) } := by
    unfold Succeeds
    simp only [System.step, unused]
  have accepts : plainWriteEnv.Accepts commonKernel system.device line := by
    refine ⟨rfl, rfl, ?_, Nat.zero_min _⟩
    rw [rep.pending.size_eq, idle]
    exact small
  have verified : rwVerifyArea 0 line.length = true :=
    rwVerifyArea_iff.mpr ⟨Int.le_refl 0, by omega⟩
  obtain ⟨after, wrote, _⟩ := rep.aesdWrite_accepted plainWriteEnv line 0 fits
    (List.append_ne_nil_of_right_ne_nil _ nonempty) accepts
  have stepped : Succeeds (System.step commonKernel)
      { system with files := Function.update system.files file (some 0) }
      (.write file plainWriteEnv line fits, { retval := line.length, delivered := [] })
      { device := after
        files := Function.update (Function.update system.files file (some 0)) file
          (some (loffT (0 + line.length))) } := by
    unfold Succeeds
    simp only [System.step, Function.update_self, verified, if_true, wrote]
  refine ⟨_, _, (run.extend opened).extend stepped, ?_, ?_⟩
  · rw [writtenBy_append, writtenBy_append]
    change writtenBy steps ++ [] ++ writtenBy [_] = _
    rw [List.append_nil]
    apply congrArg (writtenBy steps ++ ·)
    exact List.filterMap_cons_some
      (writtenBytes_eq_some.mpr ⟨file, plainWriteEnv, fits, rfl, Int.natCast_nonneg _⟩)
  · intro other distinct
    simp [distinct]

/-- A line of `length` times one letter. -/
def longLine (letter : Byte) (length : Nat) : List Byte :=
  List.replicate length letter ++ [lf]

theorem longLine_length (letter : Byte) (length : Nat) :
    (longLine letter length).length = length + 1 := by
  rw [longLine, List.length_append, List.length_replicate]
  rfl

theorem longLine_isLine {letter : Byte} (plain : PlainChar letter) (length : Nat) :
    IsLine (longLine letter length) := by
  refine ⟨List.replicate length letter, rfl, ?_⟩
  intro char member
  rw [List.eq_of_mem_replicate member]
  exact plain

private theorem gather_three {first second third : List Byte} (firstLength : first.length = 50000)
    (secondLength : second.length = 49500) (thirdLength : third.length = 499) :
    gather (blockRequest 4096) [first, second, third] serverMsgLen [] =
      some ((first ++ second).take 99152 ++ third) := by
  -- 98304 bytes are asked for
  have firstRead : gather (blockRequest 4096) [first, second, third] serverMsgLen [] =
      gather (blockRequest 4096) [second, third] 50000 first := by
    rw [gather_direct _ (by decide) (by decide) (by rw [firstLength]; decide), firstLength]
    have whole : putAt [] (serverMsgLen - serverMsgLen) first = first := by simp [putAt]
    rw [whole]
    rfl
  -- 49152 bytes
  have secondRead : gather (blockRequest 4096) [second, third] 50000 first =
      gather (blockRequest 4096) [third] 848 (first ++ second) := by
    have behind : serverMsgLen - 50000 = first.length := by rw [firstLength]; rfl
    rw [gather_direct _ (by decide) (by decide) (by rw [secondLength]; decide), behind,
      putAt_length, secondLength]
    rfl
  -- the rest, through the buffer of the C library
  have thirdRead : gather (blockRequest 4096) [third] 848 (first ++ second) =
      some ((first ++ second).take 99152 ++ third) := by
    have fits : third.take (serverMsgLen - (serverMsgLen - 848)) = third :=
      List.take_of_length_le (by rw [thirdLength]; decide)
    have nothing : (first ++ second).drop (99152 + third.length) = [] := by
      apply List.drop_of_length_le
      rw [List.length_append, firstLength, secondLength, thirdLength]
      decide
    rw [gather_through [] (by decide) (by decide) (by rw [thirdLength]; decide), fits, gather,
      putAt]
    change some (_ ++ (first ++ second).drop (99152 + third.length)) = _
    rw [nothing, List.append_nil]
    rfl
  rw [firstRead, secondRead, thirdRead]

private theorem third_over_second {first second third : List Byte} (firstLine : IsLine first)
    (secondLine : IsLine second) (thirdLine : IsLine third) (firstLength : first.length = 50000)
    (secondLength : second.length = 49500) (thirdLength : third.length = 499)
    (short : third.length ≤ serverMsgLen) :
    ∃ steps system next after output, DriverRun commonKernel plainBoot steps system ∧
      writtenBy steps = [first, second] ∧
      serverPass x86 (linePass third short plainStdio) .start system.device =
        .ok (next, after, output) ∧
      after.ringContent = [first, second, third].map wholeContent ∧
      output.reply = .sent (some ((first ++ second).take 99152 ++ third)) := by
  have nonempty {line : List Byte} (isLine : IsLine line) : line ≠ [] := by
    obtain ⟨body, rfl, _⟩ := isLine
    exact List.append_ne_nil_of_right_ne_nil _ (by decide)
  have firstEnds := endsCommand_of_isLine firstLine
  have secondEnds := endsCommand_of_isLine secondLine
  have oneCommand : CommandLog.ofWrites [first] = { commands := [first], pending := [] } := by
    simp [CommandLog.ofWrites, groupsOf, Groups.push, firstEnds]
  have twoCommands : CommandLog.ofWrites [first, second] =
      { commands := [first, second], pending := [] } := by
    simp [CommandLog.ofWrites, groupsOf, Groups.push, firstEnds, secondEnds]
  have retained : (CommandLog.write { commands := [first, second], pending := [] } third).retained =
      [first, second, third] := by
    rw [CommandLog.retained_write_ends _ _ (endsCommand_of_isLine thirdLine)]
    rfl
  obtain ⟨_, opened, earlier, writtenFirst, files⟩ := line_more Run.start
    (show (System.loaded commonKernel plainBoot).files 0 = none from rfl) rfl (nonempty firstLine)
    (by rw [firstLength]; decide)
  obtain ⟨steps, system, run, written, _⟩ := line_more earlier
    (show opened.files 1 = none from files 1 (by decide))
    (by
      rw [writtenFirst]
      exact congrArg CommandLog.pending oneCommand)
    (nonempty secondLine) (by rw [secondLength]; decide)
  have written : writtenBy steps = [first, second] := by
    rw [written, writtenFirst]
    rfl
  obtain ⟨rep, _⟩ := DriverRun.represents (by decide) run
  rw [written, twoCommands] at rep
  obtain ⟨after, repAfter, outcome⟩ := deviceSection_line (by decide) plainStdio_served rep rfl
    thirdLine (by rw [thirdLength]; decide) (by rw [thirdLength]; decide)
  have content : gather plainStdio.request [first, second, third] serverMsgLen [] =
      some ((first ++ second).take 99152 ++ third) :=
    gather_three firstLength secondLength thirdLength
  have recorded : (linePass third short plainStdio).fileSection system.device
      (recordOf x86 third) = .ok (after, (first ++ second).take 99152 ++ third) := by
    rw [recordOf_of_isLine x86 thirdLine]
    refine outcome.trans ?_
    rw [retained, content]
    rfl
  obtain ⟨k, passed⟩ := serverPass_brings x86 ThreadState.start_clear (linePass_brings _ _ _)
    (recordFits_of_length x86 (by rw [thirdLength]; decide)) recorded
  refine ⟨steps, system, _, after, _, run, written, passed, ?_, ?_⟩
  · rw [repAfter.ringContent_eq, retained]
  · apply congrArg Reply.sent
    refine (sent_iff ?_).mpr ⟨rfl, ?_⟩
    · rw [List.mem_append, not_or]
      refine ⟨fun member => ?_, no_zero_of_isLine thirdLine⟩
      rcases List.mem_append.mp (List.mem_of_mem_take member) with inFirst | inSecond
      · exact no_zero_of_isLine firstLine inFirst
      · exact no_zero_of_isLine secondLine inSecond
    · simp only [List.length_append, List.length_take, firstLength, secondLength, thirdLength]
      decide

/-- Three lines that are together one byte shorter than the buffer.  The second read
asks for 49152 bytes and meets the 49500 of the second line: the third line is put
over the 348 bytes that were not asked for. -/
theorem third_line_over_second :
    ∃ steps system next after output, DriverRun commonKernel plainBoot steps system ∧
      writtenBy steps = [longLine 97 49999, longLine 98 49499] ∧
      serverPass x86 (linePass (longLine 99 498) (by rw [longLine_length]; decide) plainStdio)
        .start system.device = .ok (next, after, output) ∧
      after.ringContent =
        [longLine 97 49999, longLine 98 49499, longLine 99 498].map wholeContent ∧
      output.reply =
        .sent (some ((longLine 97 49999 ++ longLine 98 49499).take 99152 ++ longLine 99 498)) ∧
      output.reply ≠
        .sent (some [longLine 97 49999, longLine 98 49499, longLine 99 498].flatten) := by
  obtain ⟨steps, system, next, after, output, run, written, passed, content, reply⟩ :=
    third_over_second (longLine_isLine (by decide) 49999) (longLine_isLine (by decide) 49499)
      (longLine_isLine (by decide) 498) (longLine_length 97 49999) (longLine_length 98 49499)
      (longLine_length 99 498) (by rw [longLine_length]; decide)
  refine ⟨steps, system, next, after, output, run, written, passed, content, reply, ?_⟩
  rw [reply]
  intro same
  have lengths := congrArg List.length (Option.some.inj (Reply.sent.inj same))
  simp [longLine_length] at lengths

end Aesd.Server
