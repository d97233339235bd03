/-
One pass of a server thread: receive, cut out a record, write it to the data
file, read the file back and reply.

The thread does not look at the number of bytes received.  It relies on both
buffers being all zero at the top of the loop, and takes the record to be what
stands before the first line end, followed by a terminator that a chain of
comparisons chooses.  One of these comparisons increments the index, so the
later ones look at the byte after the line end.

What happens between `fopen` and `fclose` is a parameter of the pass: a
function of the record that changes a world and returns what is read back.
-/

import Aesd.Library.CharBuffer
import Mathlib

namespace Aesd.Server

open CharBuffer

def serverMsgLen : Nat := 100000

def lf : UInt8 := 0x0A

def cr : UInt8 := 0x0D

/-- The source's `CRLF`, one byte. -/
def crlf : UInt8 := 0xDA

/-! ### Comparisons of plain characters -/

structure Platform where
  charSigned : Bool

/-- The promotion of a plain `char`. -/
def Platform.charToInt (platform : Platform) (char : UInt8) : Int :=
  if platform.charSigned ∧ 128 ≤ char.toNat then (char.toNat : Int) - 256 else char.toNat

/-- `constant == char` for a constant of type `unsigned char`. -/
def Platform.equals (platform : Platform) (constant char : UInt8) : Bool :=
  decide ((constant.toNat : Int) = platform.charToInt char)

private theorem equals_iff (platform : Platform) (constant char : UInt8) :
    platform.equals constant char = true ↔
      constant = char ∧ (platform.charSigned = true → char.toNat < 128) := by
  have bounded := constant.toNat_lt
  have charBounded := char.toNat_lt
  unfold Platform.equals Platform.charToInt
  rw [decide_eq_true_iff, ← UInt8.toNat_inj]
  split
  · rename_i negative
    constructor
    · intro same
      omega
    · rintro ⟨_, small⟩
      have := small negative.1
      omega
  · rename_i positive
    constructor
    · intro same
      refine ⟨by omega, ?_⟩
      intro signed
      by_contra large
      exact positive ⟨signed, by omega⟩
    · rintro ⟨same, _⟩
      omega

@[simp] theorem Platform.equals_lf (platform : Platform) (char : UInt8) :
    platform.equals lf char = true ↔ char = lf := by
  rw [equals_iff]
  constructor
  · rintro ⟨same, _⟩
    exact same.symm
  · rintro rfl
    exact ⟨rfl, fun _ => by decide⟩

@[simp] theorem Platform.equals_cr (platform : Platform) (char : UInt8) :
    platform.equals cr char = true ↔ char = cr := by
  rw [equals_iff]
  constructor
  · rintro ⟨same, _⟩
    exact same.symm
  · rintro rfl
    exact ⟨rfl, fun _ => by decide⟩

/-- A signed `char` is never equal to the source's `CRLF`. -/
@[simp] theorem Platform.equals_crlf (platform : Platform) (char : UInt8) :
    platform.equals crlf char = true ↔ char = crlf ∧ platform.charSigned = false := by
  rw [equals_iff]
  constructor
  · rintro ⟨rfl, small⟩
    refine ⟨rfl, ?_⟩
    cases signed : platform.charSigned with
    | false => rfl
    | true => exact absurd (small signed) (by decide)
  · rintro ⟨rfl, unsigned⟩
    refine ⟨rfl, ?_⟩
    intro signed
    rw [unsigned] at signed
    cases signed

/-! ### Cutting out the record -/

def Platform.copies (platform : Platform) (char : UInt8) : Bool :=
  !platform.equals lf char && !platform.equals cr char && !platform.equals crlf char &&
    char != 0

/-- The copy loop; each turn increments `i`, so `msg.size` turns reach its bound. -/
def copyLine (platform : Platform) (msg : Buffer UInt8) :
    Nat → Nat → Nat → Buffer UInt8 → Option (Nat × Nat × Buffer UInt8)
  | 0, i, j, fileBuffer => some (i, j, fileBuffer)
  | turns + 1, i, j, fileBuffer =>
      if i < msg.size then do
        let char ← msg.load i
        if char = 0 then some (i, j, fileBuffer)
        else if platform.copies char then
          let fileBuffer ← fileBuffer.store j char
          copyLine platform msg turns (i + 1) (j + 1) fileBuffer
        else some (i, j, fileBuffer)
      else some (i, j, fileBuffer)

/-- The chain of comparisons behind the loop. -/
def appendTerminator (platform : Platform) (msg : Buffer UInt8) (i j : Nat)
    (fileBuffer : Buffer UInt8) : Option (Buffer UInt8) := do
  let char ← msg.load i
  if platform.equals lf char then fileBuffer.store j lf
  else
    -- `i` was incremented by the second comparison, whatever its outcome
    let next ← msg.load (i + 1)
    if platform.equals cr char && platform.equals lf next then
      let fileBuffer ← fileBuffer.store j cr
      fileBuffer.store (j + 1) lf
    else if platform.equals cr next then fileBuffer.store j cr
    else if platform.equals crlf next then fileBuffer.store j crlf
    else fileBuffer.store j lf

structure ThreadState where
  msg : Buffer UInt8
  fileBuffer : Buffer UInt8
  k : UInt8

/-- Before the loop both buffers are cleared. -/
def ThreadState.start : ThreadState :=
  { msg := .zeroed serverMsgLen, fileBuffer := .zeroed serverMsgLen, k := 0 }

def ThreadState.buildRecord (platform : Platform) (thread : ThreadState)
    (received : List UInt8) : Option ThreadState := do
  let msg := thread.msg.fill received
  let (i, j, fileBuffer) ← copyLine platform msg msg.size 0 0 thread.fileBuffer
  let fileBuffer ← appendTerminator platform msg i j fileBuffer
  pure { thread with msg := msg, fileBuffer := fileBuffer }

/-! ### The loop of the thread -/

/-- `-1`, `0` or a number of bytes. -/
inductive Recv where
  | error
  | closed
  | message (bytes : List UInt8) (fits : bytes.length ≤ serverMsgLen)

def noOfRetries : UInt8 := 10

/-- The `do … while` loop around a mutex call; `succeeds` tells the outcome of
each attempt.  At most twelve turns are ever made. -/
def retryMutex (succeeds : Nat → Bool) : Nat → Nat → UInt8 → Bool × UInt8
  | 0, _, k => (false, k)
  | turns + 1, attempt, k =>
      if succeeds attempt then (true, k)
      else if k < noOfRetries then retryMutex succeeds turns (attempt + 1) (k + 1)
      else (false, k + 1)

def callMutex (succeeds : Nat → Bool) (k : UInt8) : Bool × UInt8 :=
  if succeeds 0 then (true, k) else retryMutex succeeds 12 1 k

inductive Stop where
  | outOfBounds
  | exitFailure
  | fault
  | brokenPipe
deriving DecidableEq

structure Pass (World : Type) where
  sigThreadTerminateFlag : Bool
  recv : Recv
  lockSucceeds : Nat → Bool
  unlockSucceeds : Nat → Bool
  fileSection : World → List UInt8 → Except Stop (World × List UInt8)

/-- `sent` is what `send` was given; nothing when the string has no end inside
the buffer. -/
inductive Reply where
  | silent
  | sent (string : Option (List UInt8))

structure PassOutput where
  written : Option (List UInt8)
  reply : Reply

def ThreadState.reply (thread : ThreadState) : ThreadState × Reply :=
  ({ thread with
      msg := .zeroed thread.msg.size
      fileBuffer := .zeroed serverMsgLen },
    .sent thread.fileBuffer.string)

variable {World : Type}

/-- What a pass does with a message, or with none after an error. -/
def processMessage (platform : Platform) (pass : Pass World) (thread : ThreadState)
    (world : World) (received : List UInt8) :
    Except Stop (Option ThreadState × World × PassOutput) :=
  match thread.buildRecord platform received with
  | none => .error .outOfBounds
  | some thread =>
      let locking := callMutex pass.lockSucceeds thread.k
      if locking.1 then
        match thread.fileBuffer.string with
        | none => .error .outOfBounds
        | some record =>
            match pass.fileSection world record with
            | .error stop => .error stop
            | .ok (world, content) =>
                let read :=
                  { thread with
                    fileBuffer := (Buffer.zeroed serverMsgLen).fill (content.take serverMsgLen)
                    k := (callMutex pass.unlockSucceeds 0).2 }
                .ok (some read.reply.1, world,
                  { written := some record, reply := read.reply.2 })
      else
        let unlocked := { thread with k := locking.2 }
        .ok (some unlocked.reply.1, world, { written := none, reply := unlocked.reply.2 })

/-- No thread state comes back when the thread has left its loop. -/
def serverPass (platform : Platform) (pass : Pass World) (thread : ThreadState)
    (world : World) : Except Stop (Option ThreadState × World × PassOutput) :=
  if pass.sigThreadTerminateFlag then
    .ok (none, world, { written := none, reply := .silent })
  else
    match pass.recv with
    | .closed =>
        .ok (some { thread with msg := .zeroed thread.msg.size }, world,
          { written := none, reply := .silent })
    | .error => processMessage platform pass thread world []
    | .message bytes _ => processMessage platform pass thread world bytes

def serverThread (platform : Platform) : List (Pass World) → ThreadState → World →
    Except Stop (Option ThreadState × World × List PassOutput)
  | [], thread, world => .ok (some thread, world, [])
  | pass :: rest, thread, world =>
      match serverPass platform pass thread world with
      | .error stop => .error stop
      | .ok (none, world, output) => .ok (none, world, [output])
      | .ok (some thread, world, output) =>
          match serverThread platform rest thread world with
          | .error stop => .error stop
          | .ok (thread, world, outputs) => .ok (thread, world, output :: outputs)

theorem serverThread_cons_ok {platform : Platform} {pass : Pass World} {rest : List (Pass World)}
    {thread : ThreadState} {final : Option ThreadState} {world after : World}
    {outputs : List PassOutput}
    (served : serverThread platform (pass :: rest) thread world = .ok (final, after, outputs)) :
    (∃ output, serverPass platform pass thread world = .ok (none, after, output) ∧
      final = none ∧ outputs = [output]) ∨
    ∃ next middle output later,
      serverPass platform pass thread world = .ok (some next, middle, output) ∧
      serverThread platform rest next middle = .ok (final, after, later) ∧
      outputs = output :: later := by
  rw [serverThread] at served
  cases passed : serverPass platform pass thread world with
  | error stop =>
      rw [passed] at served
      cases served
  | ok result =>
      obtain ⟨next, middle, output⟩ := result
      rw [passed] at served
      cases next with
      | none =>
          cases served
          exact .inl ⟨output, rfl, rfl, rfl⟩
      | some next =>
          simp only at served
          cases later : serverThread platform rest next middle with
          | error stop =>
              rw [later] at served
              cases served
          | ok result =>
              obtain ⟨last, world, others⟩ := result
              rw [later] at served
              cases served
              exact .inr ⟨next, middle, output, others, rfl, later, rfl⟩

/-! ### The record of a message -/

def Platform.line (platform : Platform) (message : List UInt8) : List UInt8 :=
  message.takeWhile platform.copies

def terminatorOf (platform : Platform) (char next : UInt8) : List UInt8 :=
  if char = lf then [lf]
  else if char = cr ∧ next = lf then [cr, lf]
  else if next = cr then [cr]
  else if platform.equals crlf next then [crlf]
  else [lf]

def Platform.lineEnd (platform : Platform) (message : List UInt8) : List UInt8 :=
  message.dropWhile platform.copies

/-- Beyond its end a message is continued by the zeros of the buffer. -/
def recordOf (platform : Platform) (message : List UInt8) : List UInt8 :=
  platform.line message ++ terminatorOf platform
    ((platform.lineEnd message).getD 0 0) ((platform.lineEnd message).getD 1 0)

theorem line_append_lineEnd (platform : Platform) (message : List UInt8) :
    platform.line message ++ platform.lineEnd message = message :=
  List.takeWhile_append_dropWhile

theorem copies_lineEnd (platform : Platform) {message rest : List UInt8} {char : UInt8}
    (ended : platform.lineEnd message = char :: rest) : platform.copies char = false := by
  have stopped := List.head?_dropWhile_not platform.copies message
  unfold Platform.lineEnd at ended
  rw [ended] at stopped
  exact stopped

private theorem getD_lineEnd (platform : Platform) (message : List UInt8) (index : Nat) :
    message.getD ((platform.line message).length + index) 0 =
      (platform.lineEnd message).getD index 0 := by
  have split := line_append_lineEnd platform message
  calc message.getD ((platform.line message).length + index) 0
      = (platform.line message ++ platform.lineEnd message).getD
          ((platform.line message).length + index) 0 := by rw [split]
    _ = (platform.lineEnd message).getD index 0 := by
        rw [List.getD_append_right _ _ _ _ (Nat.le_add_right _ _), Nat.add_sub_cancel_left]

theorem terminatorOf_cases (platform : Platform) (char next : UInt8) :
    terminatorOf platform char next = [lf] ∨
      (terminatorOf platform char next = [cr, lf] ∧ char = cr ∧ next = lf) ∨
      terminatorOf platform char next = [cr] ∨ terminatorOf platform char next = [crlf] := by
  unfold terminatorOf
  by_cases plain : char = lf
  · rw [if_pos plain]
    exact .inl rfl
  · rw [if_neg plain]
    by_cases both : char = cr ∧ next = lf
    · rw [if_pos both]
      exact .inr (.inl ⟨rfl, both⟩)
    · rw [if_neg both]
      by_cases bare : next = cr
      · rw [if_pos bare]
        exact .inr (.inr (.inl rfl))
      · rw [if_neg bare]
        by_cases single : platform.equals crlf next = true
        · rw [if_pos single]
          exact .inr (.inr (.inr rfl))
        · rw [if_neg single]
          exact .inl rfl

theorem copies_nonzero {platform : Platform} {char : UInt8}
    (copied : platform.copies char = true) : char ≠ 0 := by
  unfold Platform.copies at copied
  simp only [Bool.and_eq_true, bne_iff_ne] at copied
  exact copied.2

theorem recordOf_nonzero (platform : Platform) (message : List UInt8) :
    ∀ char, char ∈ recordOf platform message → char ≠ 0 := by
  intro char member
  unfold recordOf at member
  rcases List.mem_append.mp member with inLine | inEnd
  · exact copies_nonzero (List.mem_takeWhile_imp inLine)
  · have ends : char = lf ∨ char = cr ∨ char = crlf := by
      rcases terminatorOf_cases platform ((platform.lineEnd message).getD 0 0)
          ((platform.lineEnd message).getD 1 0) with one | ⟨two, _⟩ | one | one
      · rw [one] at inEnd
        exact .inl (List.mem_singleton.mp inEnd)
      · rw [two] at inEnd
        rcases List.mem_cons.mp inEnd with first | second
        · exact .inr (.inl first)
        · exact .inl (List.mem_singleton.mp second)
      · rw [one] at inEnd
        exact .inr (.inl (List.mem_singleton.mp inEnd))
      · rw [one] at inEnd
        exact .inr (.inr (List.mem_singleton.mp inEnd))
    rcases ends with rfl | rfl | rfl <;> decide

theorem recordOf_ne_nil (platform : Platform) (message : List UInt8) :
    recordOf platform message ≠ [] := by
  apply List.append_ne_nil_of_right_ne_nil
  rcases terminatorOf_cases platform ((platform.lineEnd message).getD 0 0)
      ((platform.lineEnd message).getD 1 0) with one | ⟨two, _⟩ | one | one
  · rw [one]
    exact List.cons_ne_nil _ _
  · rw [two]
    exact List.cons_ne_nil _ _
  · rw [one]
    exact List.cons_ne_nil _ _
  · rw [one]
    exact List.cons_ne_nil _ _

theorem recordOf_length_le (platform : Platform) (message : List UInt8) :
    (recordOf platform message).length ≤ message.length + 1 := by
  have whole : (platform.line message).length + (platform.lineEnd message).length =
      message.length := by
    rw [← List.length_append, line_append_lineEnd]
  unfold recordOf
  rw [List.length_append]
  rcases terminatorOf_cases platform ((platform.lineEnd message).getD 0 0)
      ((platform.lineEnd message).getD 1 0) with one | ⟨two, _, next⟩ | one | one
  · rw [one, List.length_singleton]
    omega
  · have inside : 1 < (platform.lineEnd message).length := by
      by_contra beyond
      rw [List.getD_eq_default _ _ (Nat.not_lt.mp beyond)] at next
      revert next
      decide
    rw [two]
    change (platform.line message).length + 2 ≤ _
    omega
  · rw [one, List.length_singleton]
    omega
  · rw [one, List.length_singleton]
    omega

/-! ### Room for the record -/

/-- The record leaves a place for its closing zero: the terminator takes one
byte behind the line, or two when the line ends in a carriage return and a line
feed. -/
def Platform.RecordFits (platform : Platform) (message : List UInt8) : Prop :=
  (platform.line message).length + 1 < serverMsgLen ∧
    ((platform.lineEnd message).take 2 = [cr, lf] →
      (platform.line message).length + 2 < serverMsgLen)

private theorem take_two_iff (rest : List UInt8) :
    rest.take 2 = [cr, lf] ↔ rest.getD 0 0 = cr ∧ rest.getD 1 0 = lf := by
  cases rest with
  | nil => decide
  | cons char rest =>
      cases rest with
      | nil =>
          constructor
          · intro same
            cases (List.cons.inj same).2
          · rintro ⟨_, next⟩
            exact absurd (show (0 : UInt8) = lf from next) (by decide)
      | cons next rest => simp

theorem recordFits_iff (platform : Platform) (message : List UInt8) :
    platform.RecordFits message ↔ (recordOf platform message).length < serverMsgLen := by
  unfold Platform.RecordFits recordOf
  rw [List.length_append, take_two_iff]
  by_cases both : (platform.lineEnd message).getD 0 0 = cr ∧
      (platform.lineEnd message).getD 1 0 = lf
  · have terminator : terminatorOf platform ((platform.lineEnd message).getD 0 0)
        ((platform.lineEnd message).getD 1 0) = [cr, lf] := by
      unfold terminatorOf
      rw [if_neg (by rw [both.1]; decide), if_pos both]
    rw [terminator]
    change _ ↔ (platform.line message).length + 2 < serverMsgLen
    constructor
    · rintro ⟨_, two⟩
      exact two both
    · intro two
      exact ⟨by omega, fun _ => two⟩
  · have one : (terminatorOf platform ((platform.lineEnd message).getD 0 0)
        ((platform.lineEnd message).getD 1 0)).length = 1 := by
      rcases terminatorOf_cases platform ((platform.lineEnd message).getD 0 0)
          ((platform.lineEnd message).getD 1 0) with plain | ⟨_, stopped⟩ | bare | single
      · rw [plain]
        rfl
      · exact absurd stopped both
      · rw [bare]
        rfl
      · rw [single]
        rfl
    rw [one]
    constructor
    · intro fits
      exact fits.1
    · intro room
      exact ⟨room, fun stopped => absurd stopped both⟩

theorem recordFits_of_length (platform : Platform) {message : List UInt8}
    (short : message.length + 2 ≤ serverMsgLen) : platform.RecordFits message := by
  have length := recordOf_length_le platform message
  rw [recordFits_iff]
  omega

/-! ### The buffers hold the record -/

private theorem copyLine_holding (platform : Platform) (size : Nat) (rest : List UInt8) :
    ∀ (front : List UInt8) (turns : Nat), rest.length ≤ turns →
      (front ++ rest).length ≤ size →
      copyLine platform (.holding size (front ++ rest)) turns front.length front.length
          (.holding size front) =
        some ((front ++ rest.takeWhile platform.copies).length,
          (front ++ rest.takeWhile platform.copies).length,
          .holding size (front ++ rest.takeWhile platform.copies)) := by
  induction rest with
  | nil =>
      intro front turns _ _
      rw [List.takeWhile_nil, List.append_nil]
      cases turns with
      | zero => rfl
      | succ turns =>
          rw [copyLine]
          by_cases inside : front.length < size
          · rw [Buffer.load_holding front inside]
            change (if front.length < size then _ else _) = _
            rw [if_pos inside, List.getD_eq_default _ _ (Nat.le_refl _)]
            rfl
          · exact if_neg inside
  | cons char rest ih =>
      intro front turns enough room
      obtain ⟨more, rfl⟩ := Nat.exists_eq_succ_of_ne_zero
        (Nat.ne_of_gt (Nat.lt_of_lt_of_le (Nat.succ_pos _) enough))
      have inside : front.length < size := by
        rw [List.length_append, List.length_cons] at room
        omega
      have here : (front ++ char :: rest).getD front.length 0 = char := by
        simp [List.getD]
      rw [copyLine, Buffer.load_holding _ inside, here]
      change (if front.length < size then _ else _) = _
      rw [if_pos inside, Option.bind_eq_bind, Option.bind_some]
      by_cases copied : platform.copies char = true
      · have moved : front ++ char :: rest = (front ++ [char]) ++ rest := by simp
        have later := ih (front ++ [char]) more (by simpa using enough) (by simpa using room)
        rw [List.length_append, List.length_singleton] at later
        rw [if_neg (copies_nonzero copied), if_pos copied,
          List.takeWhile_cons_of_pos copied, Buffer.store_holding front char inside,
          Option.bind_eq_bind, Option.bind_some, moved, later]
        simp
      · rw [List.takeWhile_cons_of_neg copied, List.append_nil, if_neg copied, ite_self]

private theorem appendTerminator_holding (platform : Platform) (size : Nat)
    (message line : List UInt8) (room : line.length < size)
    (more : message.getD line.length 0 ≠ lf → line.length + 1 < size) :
    appendTerminator platform (.holding size message) line.length line.length
        (.holding size line) =
      some (.holding size (line ++ terminatorOf platform (message.getD line.length 0)
        (message.getD (line.length + 1) 0))) := by
  have one : ∀ char, (Buffer.holding size line).store line.length char =
      some (.holding size (line ++ [char])) :=
    fun char => Buffer.store_holding line char room
  unfold appendTerminator terminatorOf
  rw [Buffer.load_holding _ room]
  by_cases feed : message.getD line.length 0 = lf
  · simp only [Option.bind_eq_bind, Option.bind_some, one, feed, Platform.equals_lf, if_true]
  · have two : (Buffer.holding size (line ++ [cr])).store (line.length + 1) lf =
        some (.holding size (line ++ [cr, lf])) := by
      have stored : (Buffer.holding size (line ++ [cr])).store (line ++ [cr]).length lf = _ :=
        Buffer.store_holding (line ++ [cr]) lf (by simpa using more feed)
      rw [List.length_append, List.length_singleton, List.append_assoc] at stored
      exact stored
    rw [Buffer.load_holding _ (more feed)]
    simp only [Option.bind_eq_bind, Option.bind_some, one, two, Bool.and_eq_true,
      Platform.equals_lf, Platform.equals_cr]
    split
    · rfl
    · split
      · rfl
      · split
        · rfl
        · split <;> rfl

private theorem appendTerminator_outside (platform : Platform) (size : Nat)
    (message line : List UInt8) (fileBuffer : Buffer UInt8)
    (full : size ≤ line.length ∨
      message.getD line.length 0 ≠ lf ∧ size ≤ line.length + 1) :
    appendTerminator platform (.holding size message) line.length line.length fileBuffer =
      none := by
  unfold appendTerminator
  by_cases inside : line.length < size
  · have other : message.getD line.length 0 ≠ lf ∧ size ≤ line.length + 1 :=
      full.resolve_left (Nat.not_le.mpr inside)
    rw [Buffer.load_holding _ inside, Buffer.load_outside _ other.2]
    simp only [Option.bind_eq_bind, Option.bind_some, Platform.equals_lf, if_neg other.1,
      Option.bind_none]
  · rw [Buffer.load_outside _ (Nat.not_lt.mp inside)]
    rfl

def ThreadState.Clear (thread : ThreadState) : Prop :=
  thread.msg = .zeroed serverMsgLen ∧ thread.fileBuffer = .zeroed serverMsgLen

theorem ThreadState.start_clear : ThreadState.start.Clear :=
  ⟨rfl, rfl⟩

section

variable {platform : Platform} {thread : ThreadState} {message : List UInt8}

private theorem buildRecord_eq (clear : thread.Clear) (short : message.length ≤ serverMsgLen) :
    thread.buildRecord platform message =
      (appendTerminator platform (.holding serverMsgLen message) (platform.line message).length
        (platform.line message).length (.holding serverMsgLen (platform.line message))).map
        fun fileBuffer =>
          { thread with msg := .holding serverMsgLen message, fileBuffer := fileBuffer } := by
  have copied := copyLine_holding platform serverMsgLen message [] serverMsgLen short
    (by rw [List.nil_append]; exact short)
  simp only [List.nil_append, List.length_nil] at copied
  unfold ThreadState.buildRecord
  rw [clear.1, clear.2, Buffer.fill_zeroed, Buffer.zeroed_eq_holding]
  change (copyLine platform (.holding serverMsgLen message) serverMsgLen 0 0 _ >>= _) = _
  rw [copied]
  change (appendTerminator platform (.holding serverMsgLen message)
    (platform.line message).length (platform.line message).length
    (.holding serverMsgLen (platform.line message)) >>= _) = _
  cases appendTerminator platform (.holding serverMsgLen message)
      (platform.line message).length (platform.line message).length
      (.holding serverMsgLen (platform.line message)) with
  | none => rfl
  | some fileBuffer => rfl

private theorem buildRecord_inside (clear : thread.Clear)
    (short : message.length ≤ serverMsgLen)
    (room : (platform.line message).length < serverMsgLen)
    (more : (platform.lineEnd message).getD 0 0 ≠ lf →
      (platform.line message).length + 1 < serverMsgLen) :
    thread.buildRecord platform message =
      some { thread with
        msg := .holding serverMsgLen message
        fileBuffer := .holding serverMsgLen (recordOf platform message) } := by
  have char := getD_lineEnd platform message 0
  rw [Nat.add_zero] at char
  rw [← char] at more
  rw [buildRecord_eq clear short, appendTerminator_holding platform serverMsgLen message
    (platform.line message) room more, getD_lineEnd platform message 1, char]
  rfl

theorem ThreadState.buildRecord_clear (clear : thread.Clear)
    (short : message.length ≤ serverMsgLen) (fits : platform.RecordFits message) :
    thread.buildRecord platform message =
      some { thread with
        msg := .holding serverMsgLen message
        fileBuffer := .holding serverMsgLen (recordOf platform message) } := by
  have room := fits.1
  exact buildRecord_inside clear short (by omega) fun _ => room

theorem string_record (fits : platform.RecordFits message) :
    (Buffer.holding serverMsgLen (recordOf platform message)).string =
      some (recordOf platform message) := by
  rw [Buffer.string_holding _ ((recordFits_iff platform message).mp fits)]
  congr 1
  apply List.takeWhile_eq_self_iff.mpr
  intro char member
  exact decide_eq_true (recordOf_nonzero platform message char member)

theorem ThreadState.buildRecord_overflow (clear : thread.Clear)
    (short : message.length ≤ serverMsgLen) (overflow : ¬platform.RecordFits message) :
    thread.buildRecord platform message = none ∨
      ∃ next, thread.buildRecord platform message = some next ∧
        next.fileBuffer.string = none := by
  by_cases built : (platform.line message).length < serverMsgLen ∧
      ((platform.lineEnd message).getD 0 0 ≠ lf →
        (platform.line message).length + 1 < serverMsgLen)
  · right
    refine ⟨_, buildRecord_inside clear short built.1 built.2, ?_⟩
    rw [recordFits_iff] at overflow
    apply (Buffer.string_holding_eq_none_iff _ _).mpr
    refine ⟨Nat.not_lt.mp overflow, ?_⟩
    intro member
    exact recordOf_nonzero platform message 0 (List.mem_of_mem_take member) rfl
  · left
    have char := getD_lineEnd platform message 0
    rw [Nat.add_zero] at char
    rw [buildRecord_eq clear short, appendTerminator_outside]
    · rfl
    · rw [char]
      by_contra inside
      apply built
      constructor
      · omega
      · intro other
        by_contra narrow
        exact inside (.inr ⟨other, by omega⟩)

end

/-! ### A pass with a message -/

/-- The thread is not told to stop, the message arrives, and the lock is taken
at the first attempt or a later one. -/
structure Pass.Brings (pass : Pass World) (message : List UInt8) : Prop where
  running : pass.sigThreadTerminateFlag = false
  received : ∃ fits, pass.recv = .message message fits
  locked : ∀ k, (callMutex pass.lockSucceeds k).1 = true

/-- The state a thread is in after a pass, but for its retry counter. -/
def ThreadState.cleared (k : UInt8) : ThreadState :=
  { msg := .zeroed serverMsgLen, fileBuffer := .zeroed serverMsgLen, k := k }

theorem ThreadState.cleared_clear (k : UInt8) : (ThreadState.cleared k).Clear :=
  ⟨rfl, rfl⟩

def outputOf (platform : Platform) (message content : List UInt8) : PassOutput :=
  { written := some (recordOf platform message)
    reply := .sent ((Buffer.zeroed serverMsgLen).fill (content.take serverMsgLen)).string }

theorem processMessage_fits {platform : Platform} {pass : Pass World} {thread : ThreadState}
    {world after : World} {message content : List UInt8} (clear : thread.Clear)
    (locked : (callMutex pass.lockSucceeds thread.k).1 = true)
    (short : message.length ≤ serverMsgLen) (fits : platform.RecordFits message)
    (written : pass.fileSection world (recordOf platform message) = .ok (after, content)) :
    processMessage platform pass thread world message =
      .ok (some (ThreadState.cleared (callMutex pass.unlockSucceeds 0).2), after,
        outputOf platform message content) := by
  unfold processMessage
  rw [thread.buildRecord_clear clear short fits]
  simp only [locked, if_true, string_record fits, written]
  rfl

theorem serverPass_brings (platform : Platform) {pass : Pass World} {thread : ThreadState}
    {world after : World} {message content : List UInt8} (clear : thread.Clear)
    (brings : pass.Brings message) (fits : platform.RecordFits message)
    (written : pass.fileSection world (recordOf platform message) = .ok (after, content)) :
    ∃ k, serverPass platform pass thread world =
      .ok (some (ThreadState.cleared k), after, outputOf platform message content) := by
  obtain ⟨inside, received⟩ := brings.received
  refine ⟨(callMutex pass.unlockSucceeds 0).2, ?_⟩
  unfold serverPass
  rw [if_neg (by simp [brings.running]), received]
  exact processMessage_fits clear (brings.locked thread.k) inside fits written

theorem serverPass_stopped (platform : Platform) {pass : Pass World} {thread : ThreadState}
    {world : World} {message : List UInt8} {stop : Stop} (clear : thread.Clear)
    (brings : pass.Brings message) (fits : platform.RecordFits message)
    (stopped : pass.fileSection world (recordOf platform message) = .error stop) :
    serverPass platform pass thread world = .error stop := by
  obtain ⟨inside, received⟩ := brings.received
  unfold serverPass processMessage
  rw [if_neg (by simp [brings.running]), received]
  simp only [thread.buildRecord_clear clear inside fits, brings.locked, if_true,
    string_record fits, stopped]

def Pass.SectionEnds (pass : Pass World) : Prop :=
  ∀ world record, ∃ after content, pass.fileSection world record = .ok (after, content)

theorem serverThread_brings (platform : Platform) (passes : List (Pass World))
    (messages : List (List UInt8)) (brings : List.Forall₂ Pass.Brings passes messages)
    (ends : ∀ pass, pass ∈ passes → pass.SectionEnds)
    (fits : ∀ message, message ∈ messages → message.length + 2 ≤ serverMsgLen) :
    ∀ (thread : ThreadState) (world : World), thread.Clear →
      ∃ final after outputs,
        serverThread platform passes thread world = .ok (some final, after, outputs) ∧
        final.Clear ∧
        outputs.map PassOutput.written = messages.map fun message =>
          some (recordOf platform message) := by
  induction brings with
  | nil =>
      intro thread world clear
      exact ⟨thread, world, [], rfl, clear, rfl⟩
  | @cons pass message passes messages first rest ih =>
      intro thread world clear
      obtain ⟨middle, content, written⟩ := ends pass List.mem_cons_self world
        (recordOf platform message)
      obtain ⟨k, passed⟩ := serverPass_brings platform clear first
        (recordFits_of_length platform (fits message List.mem_cons_self)) written
      obtain ⟨final, after, outputs, served, finalClear, records⟩ :=
        ih (fun other member => ends other (List.mem_cons_of_mem _ member))
          (fun other member => fits other (List.mem_cons_of_mem _ member))
          (ThreadState.cleared k) middle (ThreadState.cleared_clear k)
      refine ⟨final, after, outputOf platform message content :: outputs, ?_, finalClear, ?_⟩
      · rw [serverThread, passed]
        simp only [served]
      · rw [List.map_cons, List.map_cons, records]
        rfl

/-! ### A stream of lines, cut into chunks -/

def PlainChar (char : UInt8) : Prop :=
  char ≠ 0 ∧ char ≠ lf ∧ char ≠ cr ∧ char ≠ crlf

instance (char : UInt8) : Decidable (PlainChar char) :=
  inferInstanceAs (Decidable (_ ∧ _ ∧ _ ∧ _))

def IsLine (bytes : List UInt8) : Prop :=
  ∃ body, bytes = body ++ [lf] ∧ ∀ char, char ∈ body → PlainChar char

theorem copies_iff_of_ordinary (platform : Platform) {char : UInt8}
    (ordinary : PlainChar char ∨ char = lf) : platform.copies char = true ↔ char ≠ lf := by
  rcases ordinary with ⟨nonzero, notLf, notCr, notCrlf⟩ | rfl
  · have kept : platform.copies char = true := by
      unfold Platform.copies
      simp only [Bool.and_eq_true, Bool.not_eq_true', bne_iff_ne]
      refine ⟨⟨⟨?_, ?_⟩, ?_⟩, nonzero⟩
      · exact Bool.eq_false_iff.mpr fun same => notLf ((platform.equals_lf char).mp same)
      · exact Bool.eq_false_iff.mpr fun same => notCr ((platform.equals_cr char).mp same)
      · exact Bool.eq_false_iff.mpr fun same => notCrlf ((platform.equals_crlf char).mp same).1
    simp [kept, notLf]
  · have stopped : ¬platform.copies lf = true := by
      unfold Platform.copies
      rw [(platform.equals_lf lf).mpr rfl]
      simp
    simp [stopped]

theorem recordOf_stream_chunk (platform : Platform) (chunk : List UInt8)
    (ordinary : ∀ char, char ∈ chunk → PlainChar char ∨ char = lf) :
    recordOf platform chunk = chunk.takeWhile (· ≠ lf) ++ [lf] := by
  have line : platform.line chunk = chunk.takeWhile (· ≠ lf) := by
    unfold Platform.line
    induction chunk with
    | nil => rfl
    | cons char rest ih =>
        have later := ih fun other member => ordinary other (List.mem_cons_of_mem _ member)
        have same := copies_iff_of_ordinary platform (ordinary char List.mem_cons_self)
        by_cases ends : char = lf
        · rw [List.takeWhile_cons_of_neg (fun copied => same.mp copied ends),
            List.takeWhile_cons_of_neg (by simp [ends])]
        · rw [List.takeWhile_cons_of_pos (same.mpr ends),
            List.takeWhile_cons_of_pos (by simp [ends]), later]
  have terminator : terminatorOf platform ((platform.lineEnd chunk).getD 0 0)
      ((platform.lineEnd chunk).getD 1 0) = [lf] := by
    cases ended : platform.lineEnd chunk with
    | nil =>
        have notSingle : ¬platform.equals crlf 0 = true := by
          rw [Platform.equals_crlf]
          intro impossible
          exact absurd impossible.1 (by decide)
        unfold terminatorOf
        rw [List.getD_nil, List.getD_nil, if_neg (by decide), if_neg (by decide),
          if_neg (by decide), if_neg notSingle]
    | cons char rest =>
        have member : char ∈ chunk := by
          rw [← line_append_lineEnd platform chunk, ended]
          exact List.mem_append_right _ List.mem_cons_self
        have stopped := copies_lineEnd platform ended
        have feed : char = lf := by
          by_contra other
          rw [(copies_iff_of_ordinary platform (ordinary char member)).mpr other] at stopped
          cases stopped
        unfold terminatorOf
        rw [List.getD_cons_zero, if_pos feed]
  unfold recordOf
  rw [terminator, line]

private theorem ordinary_of_stream {lines chunks : List (List UInt8)}
    (eachLine : ∀ line, line ∈ lines → IsLine line) (cut : chunks.flatten = lines.flatten)
    {chunk : List UInt8} (member : chunk ∈ chunks) :
    ∀ char, char ∈ chunk → PlainChar char ∨ char = lf := by
  intro char inChunk
  have inStream : char ∈ lines.flatten := by
    rw [← cut]
    exact List.mem_flatten.mpr ⟨chunk, member, inChunk⟩
  obtain ⟨line, lineMember, inLine⟩ := List.mem_flatten.mp inStream
  obtain ⟨body, rfl, bodyPlain⟩ := eachLine line lineMember
  rcases List.mem_append.mp inLine with inBody | last
  · exact .inl (bodyPlain char inBody)
  · exact .inr (List.mem_singleton.mp last)

private theorem first_line_eq_self_iff {chunk : List UInt8}
    (ordinary : ∀ char, char ∈ chunk → PlainChar char ∨ char = lf) :
    chunk.takeWhile (· ≠ lf) ++ [lf] = chunk ↔ IsLine chunk := by
  constructor
  · intro same
    refine ⟨chunk.takeWhile (· ≠ lf), same.symm, ?_⟩
    intro char member
    have notFeed : char ≠ lf := by simpa using List.mem_takeWhile_imp member
    rcases ordinary char ((List.takeWhile_prefix _).subset member) with kept | feed
    · exact kept
    · exact absurd feed notFeed
  · rintro ⟨body, rfl, bodyPlain⟩
    rw [List.takeWhile_append_of_pos (fun char member => by simp [(bodyPlain char member).2.1]),
      List.takeWhile_cons_of_neg (by simp), List.append_nil]

theorem recordOf_of_isLine (platform : Platform) {line : List UInt8} (isLine : IsLine line) :
    recordOf platform line = line := by
  have ordinary : ∀ char, char ∈ line → PlainChar char ∨ char = lf := by
    obtain ⟨body, rfl, bodyPlain⟩ := isLine
    intro char member
    rcases List.mem_append.mp member with inBody | last
    · exact .inl (bodyPlain char inBody)
    · exact .inr (List.mem_singleton.mp last)
  rw [recordOf_stream_chunk platform line ordinary]
  exact (first_line_eq_self_iff ordinary).mpr isLine

/-- A thread writes one record for every chunk, whatever the others are: the
chunk's bytes before its first line feed, and a line feed.  The records are the
chunks, and together the stream, when every chunk is one whole line. -/
theorem chunk_records (platform : Platform) (lines chunks : List (List UInt8))
    (passes : List (Pass World)) (world : World)
    (eachLine : ∀ line, line ∈ lines → IsLine line) (cut : chunks.flatten = lines.flatten)
    (sizes : ∀ chunk, chunk ∈ chunks → chunk ≠ [] ∧ chunk.length ≤ 99998)
    (brings : List.Forall₂ Pass.Brings passes chunks)
    (ends : ∀ pass, pass ∈ passes → pass.SectionEnds) :
    ∃ final after outputs,
      serverThread platform passes .start world = .ok (some final, after, outputs) ∧
      outputs.map PassOutput.written =
        chunks.map (fun chunk => some (chunk.takeWhile (· ≠ lf) ++ [lf])) ∧
      (outputs.filterMap PassOutput.written = chunks ↔
        ∀ chunk, chunk ∈ chunks → IsLine chunk) ∧
      ((∀ chunk, chunk ∈ chunks → IsLine chunk) →
        (outputs.filterMap PassOutput.written).flatten = lines.flatten) := by
  obtain ⟨final, after, outputs, served, _, written⟩ := serverThread_brings platform passes
    chunks brings ends
    (fun chunk member => Nat.add_le_add_right (sizes chunk member).2 2)
    .start world ThreadState.start_clear
  have records : outputs.map PassOutput.written =
      chunks.map (fun chunk => some (chunk.takeWhile (· ≠ lf) ++ [lf])) := by
    rw [written]
    apply List.map_congr_left
    intro chunk member
    rw [recordOf_stream_chunk platform chunk (ordinary_of_stream eachLine cut member)]
  have listed : outputs.filterMap PassOutput.written =
      chunks.map (fun chunk => chunk.takeWhile (· ≠ lf) ++ [lf]) := by
    have collected := congrArg (List.filterMap id) records
    rw [List.filterMap_map, List.filterMap_map] at collected
    calc outputs.filterMap PassOutput.written
        = outputs.filterMap (id ∘ PassOutput.written) := rfl
      _ = chunks.filterMap (id ∘ fun chunk => some (chunk.takeWhile (· ≠ lf) ++ [lf])) :=
          collected
      _ = chunks.map (fun chunk => chunk.takeWhile (· ≠ lf) ++ [lf]) := by
          rw [← List.filterMap_eq_map]
          rfl
  have whole : outputs.filterMap PassOutput.written = chunks ↔
      ∀ chunk, chunk ∈ chunks → IsLine chunk := by
    rw [listed]
    constructor
    · intro same chunk member
      apply (first_line_eq_self_iff (ordinary_of_stream eachLine cut member)).mp
      have pointwise := List.map_inj_left.mp (same.trans (List.map_id chunks).symm)
      exact pointwise chunk member
    · intro allLines
      refine (List.map_congr_left ?_).trans (List.map_id chunks)
      intro chunk member
      exact (first_line_eq_self_iff (ordinary_of_stream eachLine cut member)).mpr
        (allLines chunk member)
  refine ⟨final, after, outputs, served, records, whole, ?_⟩
  intro allLines
  rw [whole.mpr allLines, cut]

def echoPass (chunk : List UInt8) (fits : chunk.length ≤ serverMsgLen) : Pass Unit :=
  { sigThreadTerminateFlag := false
    recv := .message chunk fits
    lockSucceeds := fun _ => true
    unlockSucceeds := fun _ => true
    fileSection := fun world record => .ok (world, record) }

theorem echoPass_brings (chunk : List UInt8) (fits : chunk.length ≤ serverMsgLen) :
    (echoPass chunk fits).Brings chunk :=
  { running := rfl
    received := ⟨fits, rfl⟩
    locked := fun _ => rfl }

theorem echoPass_sectionEnds (chunk : List UInt8) (fits : chunk.length ≤ serverMsgLen) :
    (echoPass chunk fits).SectionEnds :=
  fun world record => ⟨world, record, rfl⟩

def x86 : Platform :=
  { charSigned := true }

/-- Two lines in two chunks. -/
theorem chunk_records_two_lines :
    ∃ final after outputs,
      serverThread x86 [echoPass [97, 10] (by decide), echoPass [98, 10] (by decide)]
        .start () = .ok (some final, after, outputs) ∧
      (outputs.filterMap PassOutput.written).flatten = [97, 10, 98, 10] := by
  have eachLine : ∀ line, line ∈ [[97, 10], [98, 10]] → IsLine line := by
    intro line member
    simp only [List.mem_cons, List.not_mem_nil, or_false] at member
    rcases member with rfl | rfl
    · exact ⟨[97], rfl, by intro char inBody; rw [List.mem_singleton.mp inBody]; decide⟩
    · exact ⟨[98], rfl, by intro char inBody; rw [List.mem_singleton.mp inBody]; decide⟩
  obtain ⟨final, after, outputs, served, _, _, whole⟩ := chunk_records x86
    [[97, 10], [98, 10]] [[97, 10], [98, 10]]
    [echoPass [97, 10] (by decide), echoPass [98, 10] (by decide)] () eachLine rfl
    (by decide)
    (.cons (echoPass_brings _ _) (.cons (echoPass_brings _ _) .nil))
    (by
      intro pass member
      simp only [List.mem_cons, List.not_mem_nil, or_false] at member
      rcases member with rfl | rfl
      · exact echoPass_sectionEnds _ _
      · exact echoPass_sectionEnds _ _)
  exact ⟨final, after, outputs, served, whole eachLine⟩

/-- The same two lines in one chunk: the second is not written. -/
theorem two_lines_in_one_chunk_lose_the_second :
    ∃ final after outputs,
      serverThread x86 [echoPass [97, 10, 98, 10] (by decide)] .start () =
        .ok (some final, after, outputs) ∧
      outputs.filterMap PassOutput.written = [[97, 10]] ∧
      (outputs.filterMap PassOutput.written).flatten ≠ [97, 10, 98, 10] := by
  obtain ⟨final, after, outputs, served, _, written⟩ := serverThread_brings x86
    [echoPass [97, 10, 98, 10] (by decide)] [[97, 10, 98, 10]]
    (.cons (echoPass_brings _ _) .nil)
    (by
      intro pass member
      rw [List.mem_singleton.mp member]
      exact echoPass_sectionEnds _ _)
    (by decide) .start () ThreadState.start_clear
  have records : outputs.filterMap PassOutput.written = [[97, 10]] := by
    have collected := congrArg (List.filterMap id) written
    rw [List.filterMap_map] at collected
    exact collected
  refine ⟨final, after, outputs, served, records, ?_⟩
  rw [records]
  decide

end Aesd.Server
