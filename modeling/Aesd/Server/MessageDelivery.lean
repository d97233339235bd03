/-
Server and driver together: what a client's message becomes in the device.

Any number of server threads share one device.  Between `fopen` and `fclose` a
thread holds the file mutex, so a message is one step of the whole: the record
goes to the driver in whatever pieces the C library chooses, and the content is
read back in whatever reads `fread` makes.  The driver copies the whole rest of an
entry to the reader, however few bytes were asked for.

The two sides have different notions of the end of a line.  The server cuts at
four bytes and may end a record in any of three; the driver completes a command
at a line feed only, and only as the last byte of a write.
-/

import Aesd.Driver.WriteHistory
import Aesd.Server.MessageRecord

namespace Aesd.Server

open BlockHeap
open CharBuffer
open Driver
open Execution

/-! ### The file section on the device -/

/-- A `read` that `fread` makes: for so many bytes, straight to the caller's buffer
or to the library's own, which has that size. -/
structure Request where
  count : Nat
  direct : Bool

/-- What the C library makes of one section: the cutting of the record, the
reads, and which of the driver's copies get their memory.  How many bytes `fread`
still wants tells its reads apart. -/
structure Stdio where
  split : List Byte → List (List Byte)
  splitWhole : ∀ record, (split record).flatten = record
  splitNonempty : ∀ record piece, piece ∈ split record → piece ≠ []
  receivedPrintGranted : Bool
  commandPrintGranted : Bool
  request : Nat → Request
  requestSome : ∀ want, 0 < want → 0 < (request want).count
  requestInside : ∀ want, (request want).direct = true → (request want).count ≤ want
  readEnv : Nat → ReadEnv
  releaseGranted : Nat → Bool

/-- Every write takes the lock, gets its memory and copies everything. -/
def Stdio.writeEnv (stdio : Stdio) : WriteEnv :=
  { lockInterrupted := false
    kmallocGranted := true
    notCopied := 0
    receivedPrintGranted := stdio.receivedPrintGranted
    commandPrintGranted := stdio.commandPrintGranted }

def writePieces (kernel : Kernel) (env : WriteEnv) :
    List (List Byte) → Device → Int → Except Fault (Device × Int)
  | [], device, fPos => .ok (device, fPos)
  | piece :: rest, device, fPos =>
      match aesdWrite kernel env device piece fPos with
      | .error fault => .error fault
      | .ok result => writePieces kernel env rest result.device result.fPos

/-- Where the bytes of a read go.  `copy_to_user` does not look at the count: what
it stores behind the bytes that were asked for is still in `fileBuffer`, or outside
of every buffer. -/
def Request.store (request : Request) (content : List Byte) (position : Nat)
    (delivered : List Byte) (returned : Nat) : Option (List Byte) :=
  if request.direct then
    if position + delivered.length ≤ serverMsgLen then some (putAt content position delivered)
    else none
  else if delivered.length ≤ request.count then
    some (putAt content position ((delivered.take returned).take (serverMsgLen - position)))
  else none

/-- The loop of `fread`; `content` is what has been stored in `fileBuffer`, which
was cleared before.  Each turn that is not the last lowers `want`, so `want` turns
are enough. -/
def freadLoop (kernel : Kernel) (request : Nat → Request) (readEnv : Nat → ReadEnv) :
    Nat → Nat → Device → Int → List Byte → Except Stop (Device × List Byte)
  | 0, _, device, _, content => .ok (device, content)
  | turns + 1, want, device, fPos, content =>
      if want = 0 then .ok (device, content)
      else
        match aesdRead kernel (readEnv want) device (request want).count fPos with
        | .error _ => .error .fault
        | .ok result =>
            match (request want).store content (serverMsgLen - want) result.delivered
                result.retval.toNat with
            | none => .error .outOfBounds
            | some content =>
                -- the end of the file, or an error
                if result.retval ≤ 0 then .ok (result.device, content)
                else
                  freadLoop kernel request readEnv turns (want - result.retval.toNat)
                    result.device result.fPos content

/-- `fread(fileBuffer, SERVER_MSG_LEN, 1, pFile)`. -/
def fread (kernel : Kernel) (request : Nat → Request) (readEnv : Nat → ReadEnv)
    (device : Device) (fPos : Int) : Except Stop (Device × List Byte) :=
  freadLoop kernel request readEnv serverMsgLen serverMsgLen device fPos []

def seekSet : Int := 0

def seekEnd : Int := 2

/-- From `fopen` to `fclose`: seek to the end, write, seek to the start, read. -/
def deviceSection (kernel : Kernel) (stdio : Stdio) (device : Device) (record : List Byte) :
    Except Stop (Device × List Byte) :=
  match writePieces kernel stdio.writeEnv (stdio.split record) device
      (aesdLseek device 0 0 seekEnd).1 with
  | .error _ => .error .fault
  | .ok (device, fPos) =>
      match fread kernel stdio.request stdio.readEnv device
          (aesdLseek device fPos 0 seekSet).1 with
      | .error stop => .error stop
      | .ok (device, content) =>
          match aesdRelease kernel stdio.releaseGranted device with
          | .error _ => .error .fault
          | .ok device => .ok (device, content)

/-! ### Messages of any number of clients -/

structure Message where
  client : Nat
  bytes : List Byte
  nonempty : bytes ≠ []
  fits : bytes.length ≤ 99998
  stdio : Stdio

/-- The mutex is free when its turn comes. -/
def Message.pass (kernel : Kernel) (message : Message) : Pass Device :=
  { sigThreadTerminateFlag := false
    recv := .message message.bytes (Nat.le_trans message.fits (by decide))
    lockSucceeds := fun _ => true
    unlockSucceeds := fun _ => true
    fileSection := deviceSection kernel message.stdio }

structure Service where
  device : Device
  threads : Nat → ThreadState

def Service.deliver (kernel : Kernel) (platform : Platform) (service : Service)
    (message : Message) : Except Stop (Service × PassOutput) :=
  match serverPass platform (message.pass kernel) (service.threads message.client)
      service.device with
  | .error stop => .error stop
  | .ok (none, device, output) => .ok ({ service with device := device }, output)
  | .ok (some thread, device, output) =>
      .ok ({ device := device
             threads := Function.update service.threads message.client thread }, output)

abbrev Delivery := Transition Service (Message × PassOutput)

/-! ### The section keeps the representation -/

section

variable {kernel : Kernel}

private theorem pending_write_length (log : CommandLog) (bytes : List Byte) :
    (log.write bytes).pending.length ≤ log.pending.length + bytes.length := by
  unfold CommandLog.write
  split
  · exact Nat.zero_le _
  · rw [List.length_append]

theorem writePieces_represents (stdio : Stdio) (pieces : List (List Byte)) :
    ∀ (device : Device) (log : CommandLog) (fPos : Int), device.Represents kernel log →
      (∀ piece, piece ∈ pieces → piece ≠ []) →
      log.pending.length + pieces.flatten.length ≤ kernel.kmallocMaxSize →
      pieces.flatten.length ≤ maxRwCount →
      ∃ after fPos', writePieces kernel stdio.writeEnv pieces device fPos = .ok (after, fPos') ∧
        after.Represents kernel (log.writeAll pieces) := by
  induction pieces with
  | nil =>
      intro device log fPos rep _ _ _
      exact ⟨device, fPos, rfl, rep⟩
  | cons piece rest ih =>
      intro device log fPos rep nonempty room fits
      rw [List.flatten_cons, List.length_append] at room fits
      have pieceNonempty := nonempty piece List.mem_cons_self
      have accepts : stdio.writeEnv.Accepts kernel device piece := by
        have size := rep.pending.size_eq
        refine ⟨rfl, rfl, by omega, ?_⟩
        exact Nat.zero_min _
      obtain ⟨middle, wrote, repMiddle⟩ := rep.aesdWrite_accepted stdio.writeEnv piece fPos
        (by omega) (List.append_ne_nil_of_right_ne_nil _ pieceNonempty) accepts
      have shorter := pending_write_length log piece
      obtain ⟨after, last, wroteRest, repAfter⟩ := ih middle (log.write piece) _ repMiddle
        (fun other member => nonempty other (List.mem_cons_of_mem _ member)) (by omega) (by omega)
      refine ⟨after, last, ?_, repAfter⟩
      rw [writePieces, wrote]
      exact wroteRest

theorem freadLoop_represents (stdio : Stdio) {log : CommandLog} (turns : Nat) :
    ∀ (want : Nat) (device : Device) (fPos : Int) (content : List Byte),
      device.Represents kernel log →
      (∃ after final,
          freadLoop kernel stdio.request stdio.readEnv turns want device fPos content =
              .ok (after, final) ∧
            after.Represents kernel log) ∨
        freadLoop kernel stdio.request stdio.readEnv turns want device fPos content =
          .error .outOfBounds := by
  induction turns with
  | zero =>
      intro want device fPos content rep
      exact .inl ⟨device, content, rfl, rep⟩
  | succ turns ih =>
      intro want device fPos content rep
      obtain ⟨result, outcome⟩ := rep.aesdRead_returns (stdio.readEnv want)
        (stdio.request want).count fPos
      have repNext := rep.aesdRead_represents outcome
      rw [freadLoop]
      by_cases full : want = 0
      · rw [if_pos full]
        exact .inl ⟨device, content, rfl, rep⟩
      · rw [if_neg full, outcome]
        dsimp only
        cases (stdio.request want).store content (serverMsgLen - want) result.delivered
            result.retval.toNat with
        | none => exact .inr rfl
        | some content =>
            dsimp only
            split
            · exact .inl ⟨result.device, content, rfl, repNext⟩
            · exact ih _ result.device result.fPos content repNext

/-- The section writes its record and leaves everything else as it was, unless a
read leaves the buffers. -/
theorem deviceSection_represents (stdio : Stdio) {device : Device} {log : CommandLog}
    (rep : device.Represents kernel log) (record : List Byte)
    (room : log.pending.length + record.length ≤ kernel.kmallocMaxSize)
    (fits : record.length ≤ maxRwCount) :
    (∃ after content, deviceSection kernel stdio device record = .ok (after, content) ∧
        after.Represents kernel (log.writeAll (stdio.split record))) ∨
      deviceSection kernel stdio device record = .error .outOfBounds := by
  rw [← stdio.splitWhole record] at room fits
  obtain ⟨written, fPos, wrote, repWritten⟩ := writePieces_represents stdio
    (stdio.split record) device log (aesdLseek device 0 0 seekEnd).1 rep
    (stdio.splitNonempty record) room fits
  unfold deviceSection
  rw [wrote]
  dsimp only
  rcases freadLoop_represents stdio serverMsgLen serverMsgLen written
    (aesdLseek written fPos 0 seekSet).1 [] repWritten with ⟨back, content, read, repBack⟩ | outside
  · left
    obtain ⟨memory, released, changes⟩ := repBack.aesdRelease_quiet stdio.releaseGranted
    refine ⟨{ back with memory := memory }, content, ?_, repBack.of_changes changes⟩
    simp only [fread, read, released]
  · right
    simp only [fread, outside]

end

/-! ### What the driver makes of a record -/

private theorem endsCommand_append_lf (body : List Byte) : endsCommand (body ++ [lf]) = true := by
  simp [endsCommand, newline, lf]

private theorem not_endsCommand_of_no_lf {piece : List Byte} (noFeed : lf ∉ piece) :
    endsCommand piece = false := by
  apply Bool.eq_false_iff.mpr
  intro ends
  have last : piece.getLast? = some lf := by simpa [endsCommand, newline, lf] using ends
  exact noFeed (List.mem_of_getLast? last)

theorem writeAll_of_line (pieces : List (List Byte)) :
    ∀ (log : CommandLog) (body : List Byte), (∀ piece, piece ∈ pieces → piece ≠ []) →
      pieces.flatten = body ++ [lf] → lf ∉ body →
      log.writeAll pieces =
        { commands := log.commands ++ [log.pending ++ pieces.flatten], pending := [] } := by
  induction pieces with
  | nil =>
      intro log body _ whole _
      exact absurd whole (by simp)
  | cons piece rest ih =>
      intro log body nonempty whole noFeed
      have unfolded : log.writeAll (piece :: rest) = (log.write piece).writeAll rest := rfl
      rw [List.flatten_cons] at whole
      cases rest with
      | nil =>
          rw [List.flatten_nil, List.append_nil] at whole
          have ends : endsCommand piece = true := by
            rw [whole]
            exact endsCommand_append_lf body
          rw [unfolded, List.flatten_cons, List.flatten_nil, List.append_nil]
          simp [CommandLog.writeAll, CommandLog.write, ends]
      | cons second others =>
          -- the line feed is in a later piece
          have later : (second :: others).flatten ≠ [] := by
            rw [List.flatten_cons]
            exact List.append_ne_nil_of_left_ne_nil
              (nonempty second (List.mem_cons_of_mem _ List.mem_cons_self)) _
          obtain ⟨front, last, split⟩ := List.eq_nil_or_concat (second :: others).flatten
            |>.resolve_left later
          rw [List.concat_eq_append] at split
          rw [split, ← List.append_assoc] at whole
          obtain ⟨bodySplit, lastFeed⟩ := List.append_inj' whole rfl
          have noFeedPiece : lf ∉ piece := by
            intro member
            apply noFeed
            rw [← bodySplit]
            exact List.mem_append_left _ member
          have noFeedFront : lf ∉ front := by
            intro member
            apply noFeed
            rw [← bodySplit]
            exact List.mem_append_right _ member
          have continues := not_endsCommand_of_no_lf noFeedPiece
          have written : log.write piece =
              { commands := log.commands, pending := log.pending ++ piece } := by
            simp [CommandLog.write, continues]
          have joined : (piece :: second :: others).flatten =
              piece ++ (second :: others).flatten := List.flatten_cons
          rw [List.singleton_inj] at lastFeed
          rw [unfolded, written, ih _ front
            (fun other member => nonempty other (List.mem_cons_of_mem _ member))
            (by rw [split, lastFeed]) noFeedFront, joined, List.append_assoc]

theorem writeAll_of_no_lf (pieces : List (List Byte)) :
    ∀ log : CommandLog, lf ∉ pieces.flatten →
      log.writeAll pieces =
        { commands := log.commands, pending := log.pending ++ pieces.flatten } := by
  induction pieces with
  | nil =>
      intro log _
      simp [CommandLog.writeAll]
  | cons piece rest ih =>
      intro log noFeed
      have unfolded : log.writeAll (piece :: rest) = (log.write piece).writeAll rest := rfl
      rw [List.flatten_cons, List.mem_append, not_or] at noFeed
      have written : log.write piece =
          { commands := log.commands, pending := log.pending ++ piece } := by
        simp [CommandLog.write, not_endsCommand_of_no_lf noFeed.1]
      rw [unfolded, written, ih _ noFeed.2, List.flatten_cons, List.append_assoc]

/-! ### Which records are one command -/

/-- The longest start of a message without line feed, carriage return, `0xDA`
and zero. -/
def messagePrefix (bytes : List Byte) : List Byte :=
  bytes.takeWhile fun char => decide (PlainChar char)

/-- The byte that ends this start, and the one after it; zero beyond the end. -/
def stopByte (bytes : List Byte) : Byte :=
  (bytes.dropWhile fun char => decide (PlainChar char)).getD 0 0

def byteAfterStop (bytes : List Byte) : Byte :=
  (bytes.dropWhile fun char => decide (PlainChar char)).getD 1 0

/-- A terminator ends in a line feed when the stop is one, or is followed by
one after a carriage return, or is followed by neither of the two bytes the
later comparisons look for; where `char` is signed, `0xDA` must not be the stop. -/
def Delivered (platform : Platform) (bytes : List Byte) : Prop :=
  (stopByte bytes = crlf → platform.charSigned = false) ∧
    (stopByte bytes = lf ∨ (stopByte bytes = cr ∧ byteAfterStop bytes = lf) ∨
      (byteAfterStop bytes ≠ cr ∧
        (byteAfterStop bytes = crlf → platform.charSigned = true)))

instance (platform : Platform) (bytes : List Byte) : Decidable (Delivered platform bytes) :=
  inferInstanceAs (Decidable (_ ∧ _))

theorem lf_not_mem_line (platform : Platform) (message : List Byte) :
    lf ∉ platform.line message := by
  intro member
  have copied := List.mem_takeWhile_imp member
  unfold Platform.copies at copied
  rw [(platform.equals_lf lf).mpr rfl] at copied
  cases copied

private theorem lf_not_mem_append {line : List Byte} {last : Byte} (lineFree : lf ∉ line)
    (other : lf ≠ last) : lf ∉ line ++ [last] := by
  intro member
  rcases List.mem_append.mp member with inLine | inEnd
  · exact lineFree inLine
  · exact other (List.mem_singleton.mp inEnd)

theorem recordOf_shape (platform : Platform) (message : List Byte) :
    (∃ body, recordOf platform message = body ++ [lf] ∧ lf ∉ body) ∨
      lf ∉ recordOf platform message := by
  have lineFree := lf_not_mem_line platform message
  unfold recordOf
  rcases terminatorOf_cases platform ((platform.lineEnd message).getD 0 0)
      ((platform.lineEnd message).getD 1 0) with plain | ⟨both, _⟩ | bare | single
  · left
    rw [plain]
    exact ⟨platform.line message, rfl, lineFree⟩
  · left
    rw [both]
    exact ⟨platform.line message ++ [cr], by simp, lf_not_mem_append lineFree (by decide)⟩
  · right
    rw [bare]
    exact lf_not_mem_append lineFree (by decide)
  · right
    rw [single]
    exact lf_not_mem_append lineFree (by decide)

theorem copies_of_plain (platform : Platform) {char : Byte} (plain : PlainChar char) :
    platform.copies char = true :=
  (copies_iff_of_ordinary platform (.inl plain)).mpr plain.2.1

/-- On a byte that is not plain the copy loop stops, but for a signed `0xDA`. -/
theorem copies_of_not_plain (platform : Platform) {char : Byte} (stops : ¬PlainChar char) :
    platform.copies char = true ↔ char = crlf ∧ platform.charSigned = true := by
  unfold Platform.copies
  simp only [Bool.and_eq_true, Bool.not_eq_true', Bool.eq_false_iff, ne_eq, bne_iff_ne,
    Platform.equals_lf, Platform.equals_cr, Platform.equals_crlf]
  constructor
  · rintro ⟨⟨⟨notLf, notCr⟩, notCrlf⟩, nonzero⟩
    have single : char = crlf := by
      by_contra other
      exact stops ⟨nonzero, notLf, notCr, other⟩
    refine ⟨single, ?_⟩
    by_contra unsigned
    exact notCrlf ⟨single, by simpa using unsigned⟩
  · rintro ⟨rfl, signed⟩
    refine ⟨⟨⟨by decide, by decide⟩, ?_⟩, by decide⟩
    rintro ⟨_, unsigned⟩
    exact unsigned signed

private theorem stopByte_cons_plain {char : Byte} (rest : List Byte) (plain : PlainChar char) :
    stopByte (char :: rest) = stopByte rest := by
  unfold stopByte
  rw [List.dropWhile_cons_of_pos (by simp [plain])]

private theorem stopByte_cons_stop {char : Byte} (rest : List Byte) (stops : ¬PlainChar char) :
    stopByte (char :: rest) = char := by
  unfold stopByte
  rw [List.dropWhile_cons_of_neg (by simp [stops]), List.getD_cons_zero]

/-- The server's line is the message's prefix unless a signed `0xDA` stands at
its end. -/
theorem line_eq_messagePrefix (platform : Platform) (bytes : List Byte)
    (unsigned : stopByte bytes = crlf → platform.charSigned = false) :
    platform.line bytes = messagePrefix bytes ∧
      platform.lineEnd bytes = bytes.dropWhile fun char => decide (PlainChar char) := by
  unfold Platform.line Platform.lineEnd messagePrefix
  induction bytes with
  | nil => exact ⟨rfl, rfl⟩
  | cons char rest ih =>
      by_cases plain : PlainChar char
      · rw [stopByte_cons_plain rest plain] at unsigned
        obtain ⟨line, lineEnd⟩ := ih unsigned
        have copied := copies_of_plain platform plain
        rw [List.takeWhile_cons_of_pos copied, List.takeWhile_cons_of_pos (by simp [plain]),
          List.dropWhile_cons_of_pos copied, List.dropWhile_cons_of_pos (by simp [plain]), line,
          lineEnd]
        exact ⟨rfl, rfl⟩
      · rw [stopByte_cons_stop rest plain] at unsigned
        have stopped : ¬platform.copies char = true := by
          intro copied
          obtain ⟨single, signed⟩ := (copies_of_not_plain platform plain).mp copied
          rw [unsigned single] at signed
          cases signed
        rw [List.takeWhile_cons_of_neg stopped, List.takeWhile_cons_of_neg (by simp [plain]),
          List.dropWhile_cons_of_neg stopped, List.dropWhile_cons_of_neg (by simp [plain])]
        exact ⟨rfl, rfl⟩

theorem line_past_messagePrefix (platform : Platform) (bytes : List Byte)
    (stop : stopByte bytes = crlf) (signed : platform.charSigned = true) :
    ∃ more, platform.line bytes = messagePrefix bytes ++ crlf :: more := by
  unfold Platform.line messagePrefix
  induction bytes with
  | nil => exact absurd stop (by decide)
  | cons char rest ih =>
      by_cases plain : PlainChar char
      · rw [stopByte_cons_plain rest plain] at stop
        obtain ⟨more, line⟩ := ih stop
        rw [List.takeWhile_cons_of_pos (copies_of_plain platform plain),
          List.takeWhile_cons_of_pos (by simp [plain]), line]
        exact ⟨more, rfl⟩
      · rw [stopByte_cons_stop rest plain] at stop
        have copied := (copies_of_not_plain platform plain).mpr ⟨stop, signed⟩
        rw [List.takeWhile_cons_of_pos copied, List.takeWhile_cons_of_neg (by simp [plain]), stop]
        exact ⟨_, rfl⟩

def IsTerminator (bytes : List Byte) : Prop :=
  bytes = [lf] ∨ bytes = [cr, lf]

theorem IsTerminator.lf_mem_append {terminator : List Byte} (ends : IsTerminator terminator)
    (front : List Byte) : lf ∈ front ++ terminator := by
  rcases ends with rfl | rfl
  · simp
  · simp

theorem isTerminator_terminatorOf_iff (platform : Platform) (stop next : Byte) :
    IsTerminator (terminatorOf platform stop next) ↔
      stop = lf ∨ (stop = cr ∧ next = lf) ∨
        (next ≠ cr ∧ (next = crlf → platform.charSigned = true)) := by
  unfold terminatorOf IsTerminator
  by_cases plain : stop = lf
  · rw [if_pos plain]
    simp [plain]
  · rw [if_neg plain]
    by_cases both : stop = cr ∧ next = lf
    · rw [if_pos both]
      simp [both]
    · rw [if_neg both]
      by_cases bare : next = cr
      · rw [if_pos bare]
        constructor
        · intro ends
          exact absurd ends (by decide)
        · rintro (isPlain | isBoth | ⟨notBare, _⟩)
          · exact absurd isPlain plain
          · exact absurd isBoth both
          · exact absurd bare notBare
      · rw [if_neg bare]
        by_cases single : platform.equals crlf next = true
        · rw [if_pos single]
          obtain ⟨isSingle, unsigned⟩ := (platform.equals_crlf next).mp single
          constructor
          · intro ends
            exact absurd ends (by decide)
          · rintro (isPlain | isBoth | ⟨_, signed⟩)
            · exact absurd isPlain plain
            · exact absurd isBoth both
            · rw [signed isSingle] at unsigned
              cases unsigned
        · rw [if_neg single]
          constructor
          · intro _
            refine .inr (.inr ⟨bare, ?_⟩)
            intro isSingle
            by_contra unsigned
            exact single ((platform.equals_crlf next).mpr ⟨isSingle, by simpa using unsigned⟩)
          · intro _
            exact .inl rfl

/-- The record is the message's prefix and a terminator exactly on these messages. -/
theorem recordOf_isLine_iff (platform : Platform) (bytes : List Byte) :
    (∃ terminator, IsTerminator terminator ∧
      recordOf platform bytes = messagePrefix bytes ++ terminator) ↔
      Delivered platform bytes := by
  unfold Delivered
  by_cases unsigned : stopByte bytes = crlf → platform.charSigned = false
  · obtain ⟨line, lineEnd⟩ := line_eq_messagePrefix platform bytes unsigned
    have record : recordOf platform bytes = messagePrefix bytes ++
        terminatorOf platform (stopByte bytes) (byteAfterStop bytes) := by
      unfold recordOf stopByte byteAfterStop
      rw [line, lineEnd]
    rw [← isTerminator_terminatorOf_iff platform, record]
    constructor
    · rintro ⟨terminator, ends, same⟩
      rw [List.append_cancel_left same]
      exact ⟨unsigned, ends⟩
    · rintro ⟨_, ends⟩
      exact ⟨_, ends, rfl⟩
  · have wrong : stopByte bytes = crlf ∧ platform.charSigned = true := by
      simpa using unsigned
    obtain ⟨more, line⟩ := line_past_messagePrefix platform bytes wrong.1 wrong.2
    constructor
    · rintro ⟨terminator, ends, same⟩
      exfalso
      unfold recordOf at same
      rw [line, List.append_assoc] at same
      have cut := List.append_cancel_left same
      rcases ends with rfl | rfl
      · exact absurd (List.cons.inj cut).1 (by decide)
      · exact absurd (List.cons.inj cut).1 (by decide)
    · rintro ⟨unsignedHere, _⟩
      exact absurd unsignedHere unsigned

/-! ### One message, one command -/

/-- The device has one more command, this one, and nothing is pending. -/
structure GainsCommand (before after : Device) (command : List Byte) : Prop where
  ring : after.ringContent =
    (if before.ringContent.length = 10 then before.ringContent.tail else before.ringContent) ++
      [wholeContent command]
  size : after.buffSize = loffT (before.buffSize + command.length)
  pending : after.pendingContent = wholeContent []

def OneCommand (taken : Delivery) : Prop :=
  ∃ terminator, IsTerminator terminator ∧
    GainsCommand taken.before.device taken.after.device
      (messagePrefix taken.label.1.bytes ++ terminator)

def Service.Idle (kernel : Kernel) (service : Service) : Prop :=
  (∃ log, service.device.Represents kernel log ∧ log.pending = []) ∧
    ∀ client, (service.threads client).Clear

section

variable {kernel : Kernel} {platform : Platform}

theorem Service.deliver_represents (platform : Platform)
    (roomy : serverMsgLen ≤ kernel.kmallocMaxSize) {service : Service} {log : CommandLog}
    (rep : service.device.Represents kernel log) (idle : log.pending = [])
    (clear : ∀ client, (service.threads client).Clear) (message : Message) :
    (∃ next output, service.deliver kernel platform message = .ok (next, output) ∧
        next.device.Represents kernel
          (log.writeAll (message.stdio.split (recordOf platform message.bytes))) ∧
        ∀ client, (next.threads client).Clear) ∨
      service.deliver kernel platform message = .error .outOfBounds := by
  have length := recordOf_length_le platform message.bytes
  have fits := message.fits
  have limit : serverMsgLen = 100000 := rfl
  have transfer : serverMsgLen ≤ maxRwCount := by decide
  have brings : (message.pass kernel).Brings message.bytes :=
    { running := rfl
      received := ⟨_, rfl⟩
      locked := fun _ => rfl }
  have recordFits : platform.RecordFits message.bytes := recordFits_of_length platform (by omega)
  unfold Service.deliver
  rcases deviceSection_represents message.stdio rep (recordOf platform message.bytes)
    (by rw [idle, List.length_nil]; omega) (by omega) with
    ⟨after, content, wrote, repAfter⟩ | outside
  · left
    obtain ⟨k, passed⟩ := serverPass_brings platform (clear message.client) brings recordFits wrote
    refine ⟨{ device := after
              threads := Function.update service.threads message.client (.cleared k) },
      outputOf platform message.bytes content, by rw [passed], repAfter, ?_⟩
    intro client
    by_cases same : client = message.client
    · subst same
      simp only [Function.update_self]
      exact ThreadState.cleared_clear k
    · simp only [Function.update_of_ne same]
      exact clear client
  · right
    rw [serverPass_stopped platform (clear message.client) brings recordFits outside]

theorem gainsCommand_of_represents {before after : Device} {log : CommandLog}
    {command : List Byte} (repBefore : before.Represents kernel log) (idle : log.pending = [])
    (ends : endsCommand command = true)
    (repAfter : after.Represents kernel
      { commands := log.commands ++ [command], pending := [] }) :
    GainsCommand before after command := by
  have written : log.write command = { commands := log.commands ++ [command], pending := [] } := by
    simp [CommandLog.write, ends, idle]
  rw [← written] at repAfter
  have told := writeByLastByte_of_represents repBefore repAfter
  obtain ⟨ring, pending⟩ := told.ends ends
  rw [idle, List.nil_append] at ring
  refine ⟨ring, ?_, pending⟩
  rw [repAfter.buffSize, repBefore.buffSize, written]
  simp only [loffT, Int.bmod_add_bmod, List.flatten_append, List.flatten_singleton,
    List.length_append, Int.natCast_add]

theorem command_of_gains {before after : Device} {log : CommandLog} {command : List Byte}
    (gains : GainsCommand before after command) {record : List Byte}
    (ends : endsCommand record = true) (repBefore : before.Represents kernel log)
    (idle : log.pending = [])
    (repAfter : after.Represents kernel
      { commands := log.commands ++ [record], pending := [] }) : command = record := by
  have actual := (gainsCommand_of_represents repBefore idle ends repAfter).ring
  rw [gains.ring] at actual
  have same := List.singleton_inj.mp (List.append_cancel_left actual)
  simpa [wholeContent] using congrArg Prod.fst same

theorem Service.deliver_cases (roomy : serverMsgLen ≤ kernel.kmallocMaxSize)
    {service next : Service} {log : CommandLog} (rep : service.device.Represents kernel log)
    (idle : log.pending = []) (clear : ∀ client, (service.threads client).Clear)
    {message : Message} {output : PassOutput}
    (step : service.deliver kernel platform message = .ok (next, output)) :
    (∀ client, (next.threads client).Clear) ∧
      ((endsCommand (recordOf platform message.bytes) = true ∧
          next.device.Represents kernel
            { commands := log.commands ++ [recordOf platform message.bytes], pending := [] }) ∨
        (lf ∉ recordOf platform message.bytes ∧
          next.device.Represents kernel
            { commands := log.commands, pending := recordOf platform message.bytes })) := by
  obtain ⟨repNext, clearNext⟩ : next.device.Represents kernel
      (log.writeAll (message.stdio.split (recordOf platform message.bytes))) ∧
      ∀ client, (next.threads client).Clear := by
    rcases Service.deliver_represents platform roomy rep idle clear message with
      ⟨other, answer, delivered, repNext, clearNext⟩ | outside
    · rw [delivered] at step
      cases step
      exact ⟨repNext, clearNext⟩
    · rw [outside] at step
      cases step
  refine ⟨clearNext, ?_⟩
  have whole := message.stdio.splitWhole (recordOf platform message.bytes)
  rcases recordOf_shape platform message.bytes with ⟨body, record, noFeed⟩ | noFeed
  · left
    rw [writeAll_of_line _ log body (message.stdio.splitNonempty _) (whole.trans record) noFeed,
      idle, List.nil_append, whole] at repNext
    refine ⟨?_, repNext⟩
    rw [record]
    exact endsCommand_append_lf body
  · right
    rw [writeAll_of_no_lf _ log (by rw [whole]; exact noFeed), idle, List.nil_append,
      whole] at repNext
    exact ⟨noFeed, repNext⟩

theorem oneCommand_iff_delivered (roomy : serverMsgLen ≤ kernel.kmallocMaxSize)
    {taken : Delivery} (idle : taken.before.Idle kernel)
    (step : Succeeds (Service.deliver kernel platform) taken.before taken.label taken.after) :
    OneCommand taken ↔ Delivered platform taken.label.1.bytes := by
  obtain ⟨⟨log, rep, nothing⟩, clear⟩ := idle
  rw [← recordOf_isLine_iff]
  rcases (Service.deliver_cases roomy rep nothing clear step).2 with
    ⟨ends, repNext⟩ | ⟨noFeed, repNext⟩
  · constructor
    · rintro ⟨terminator, isTerminator, gained⟩
      exact ⟨terminator, isTerminator, (command_of_gains gained ends rep nothing repNext).symm⟩
    · rintro ⟨terminator, isTerminator, record⟩
      refine ⟨terminator, isTerminator, ?_⟩
      rw [← record]
      exact gainsCommand_of_represents rep nothing ends repNext
  · constructor
    · rintro ⟨terminator, _, gained⟩
      -- the record is pending, and it is not empty
      have pending := gained.pending
      rw [repNext.pendingContent_eq] at pending
      have empty : recordOf platform taken.label.1.bytes = [] := by
        simpa [wholeContent] using congrArg Prod.fst pending
      exact absurd empty (recordOf_ne_nil platform taken.label.1.bytes)
    · rintro ⟨terminator, isTerminator, record⟩
      exact absurd (record ▸ isTerminator.lf_mem_append _) noFeed

theorem Service.idle_of_delivered (roomy : serverMsgLen ≤ kernel.kmallocMaxSize)
    {taken : Delivery} (idle : taken.before.Idle kernel)
    (fine : Delivered platform taken.label.1.bytes)
    (step : Succeeds (Service.deliver kernel platform) taken.before taken.label taken.after) :
    taken.after.Idle kernel := by
  obtain ⟨⟨log, rep, nothing⟩, clear⟩ := idle
  obtain ⟨clearNext, outcome⟩ := Service.deliver_cases roomy rep nothing clear step
  rcases outcome with ⟨_, repNext⟩ | ⟨noFeed, _⟩
  · exact ⟨⟨_, repNext, rfl⟩, clearNext⟩
  · obtain ⟨terminator, isTerminator, record⟩ := (recordOf_isLine_iff platform _).mpr fine
    exact absurd (record ▸ isTerminator.lf_mem_append _) noFeed

end

def Service.start (device : Device) : Service :=
  { device := device, threads := fun _ => .start }

/-- The reads of a C library with a buffer of `block` bytes: whole blocks go
straight to the caller, and less than a block comes through the buffer. -/
def blockRequest (block want : Nat) : Request :=
  if want < block then { count := block, direct := false }
  else { count := want - want % block, direct := true }

theorem blockRequest_count {block want : Nat} (positive : 0 < block) :
    block ≤ (blockRequest block want).count := by
  unfold blockRequest
  split
  · exact Nat.le_refl _
  · rename_i enough
    have whole := Nat.div_add_mod want block
    have blocks : block * 1 ≤ block * (want / block) :=
      Nat.mul_le_mul_left _ (Nat.div_pos (Nat.not_lt.mp enough) positive)
    change block ≤ want - want % block
    omega

theorem blockRequest_inside {block want : Nat}
    (direct : (blockRequest block want).direct = true) :
    (blockRequest block want).count ≤ want := by
  unfold blockRequest at direct ⊢
  split at direct
  · cases direct
  · rename_i enough
    rw [if_neg enough]
    exact Nat.sub_le _ _

/-- A C library that writes a record whole and has blocks of 4096 bytes. -/
def plainStdio : Stdio :=
  { split := fun record => if record = [] then [] else [record]
    splitWhole := by
      intro record
      by_cases empty : record = []
      · rw [if_pos empty, empty]
        rfl
      · rw [if_neg empty, List.flatten_singleton]
    splitNonempty := by
      intro record piece member
      by_cases empty : record = []
      · rw [if_pos empty] at member
        cases member
      · rw [if_neg empty] at member
        rw [List.mem_singleton.mp member]
        exact empty
    receivedPrintGranted := true
    commandPrintGranted := true
    request := blockRequest 4096
    requestSome := fun _ _ => Nat.lt_of_lt_of_le (by decide) (blockRequest_count (by decide))
    requestInside := fun _ => blockRequest_inside
    readEnv := fun _ => plainReadEnv
    releaseGranted := fun _ => true }

def freshService : Service :=
  .start (aesdInitModule commonKernel plainBoot).device

/-- Two lines of two clients; the first has something behind its end. -/
def twoClients : List Message :=
  [{ client := 0, bytes := [97, 13, 10, 98], nonempty := by decide, fits := by decide
     stdio := plainStdio },
   { client := 1, bytes := [99], nonempty := by decide, fits := by decide
     stdio := plainStdio }]

/-- Two carriage returns behind a line, and a line of another client. -/
def carriageReturns : List Message :=
  [{ client := 0, bytes := [97, 13, 13], nonempty := by decide, fits := by decide
     stdio := plainStdio },
   { client := 1, bytes := [98, 10], nonempty := by decide, fits := by decide
     stdio := plainStdio }]

end Aesd.Server
