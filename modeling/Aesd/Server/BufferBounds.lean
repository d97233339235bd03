/-
The bounds of `msg` and `fileBuffer`.

Both buffers have `SERVER_MSG_LEN` bytes and a message may fill `msg`.  The
terminator chain then looks one or two bytes past the line, and the record
needs a place for its closing zero.  Reading the file back may fill
`fileBuffer` as well, and `strlen` looks for a zero in it.
-/

import Aesd.Server.MessageRecord

namespace Aesd.Server

open CharBuffer

variable {World : Type}

/-! ### Both buffers are clear between passes -/

private theorem buildRecord_msg_size {platform : Platform} {thread next : ThreadState}
    {received : List UInt8} (built : thread.buildRecord platform received = some next) :
    next.msg.size = thread.msg.size := by
  unfold ThreadState.buildRecord at built
  obtain ⟨copied, _, rest⟩ := Option.bind_eq_some_iff.mp built
  obtain ⟨ended, _, last⟩ := Option.bind_eq_some_iff.mp rest
  cases last
  rfl

private theorem reply_clear {thread : ThreadState} (size : thread.msg.size = serverMsgLen) :
    thread.reply.1.Clear := by
  unfold ThreadState.reply
  rw [size]
  exact ⟨rfl, rfl⟩

private theorem processMessage_clear {platform : Platform} {pass : Pass World}
    {thread next : ThreadState} {world after : World} {received : List UInt8}
    {output : PassOutput} (clear : thread.Clear)
    (passed : processMessage platform pass thread world received =
      .ok (some next, after, output)) : next.Clear := by
  unfold processMessage at passed
  cases built : thread.buildRecord platform received with
  | none =>
      rw [built] at passed
      cases passed
  | some filled =>
      have size : filled.msg.size = serverMsgLen := by
        rw [buildRecord_msg_size built, clear.1]
        rfl
      simp only [built] at passed
      split at passed
      · split at passed
        · cases passed
        · split at passed
          · cases passed
          · cases passed
            exact reply_clear size
      · cases passed
        exact reply_clear size

theorem serverPass_clear {platform : Platform} {pass : Pass World} {thread next : ThreadState}
    {world after : World} {output : PassOutput} (clear : thread.Clear)
    (passed : serverPass platform pass thread world = .ok (some next, after, output)) :
    next.Clear := by
  unfold serverPass at passed
  split at passed
  · cases passed
  · cases received : pass.recv with
    | error =>
        rw [received] at passed
        exact processMessage_clear clear passed
    | closed =>
        rw [received] at passed
        cases passed
        refine ⟨?_, clear.2⟩
        change Buffer.zeroed thread.msg.size = _
        rw [clear.1]
        rfl
    | message bytes fits =>
        rw [received] at passed
        exact processMessage_clear clear passed

theorem serverThread_clear {platform : Platform} (passes : List (Pass World)) :
    ∀ {thread final : ThreadState} {world after : World} {outputs : List PassOutput},
      thread.Clear →
      serverThread platform passes thread world = .ok (some final, after, outputs) →
      final.Clear := by
  induction passes with
  | nil =>
      intro thread final world after outputs clear served
      cases served
      exact clear
  | cons pass rest ih =>
      intro thread final world after outputs clear served
      rcases serverThread_cons_ok served with
        ⟨_, _, ended, _⟩ | ⟨next, middle, output, later, passed, served, _⟩
      · cases ended
      · exact ih (serverPass_clear clear passed) served

/-! ### One pass -/

/-- No index leaves a buffer, and `strlen` finds a zero both times. -/
structure PassInBounds (platform : Platform) (pass : Pass World) (thread : ThreadState)
    (world : World) : Prop where
  indices : serverPass platform pass thread world ≠ .error .outOfBounds
  ended : ∀ next after output, serverPass platform pass thread world = .ok (next, after, output) →
    output.reply ≠ .sent none

theorem PassInBounds.of_returned {platform : Platform} {pass : Pass World} {thread : ThreadState}
    {world after : World} {next : Option ThreadState} {output : PassOutput}
    (passed : serverPass platform pass thread world = .ok (next, after, output))
    (ended : output.reply ≠ .sent none) : PassInBounds platform pass thread world := by
  constructor
  · intro outside
    rw [passed] at outside
    cases outside
  · intro other last result returned
    rw [passed] at returned
    cases returned
    exact ended

theorem PassInBounds.of_stopped {platform : Platform} {pass : Pass World} {thread : ThreadState}
    {world : World} {stop : Stop} (stopped : serverPass platform pass thread world = .error stop)
    (otherwise : stop ≠ .outOfBounds) : PassInBounds platform pass thread world := by
  constructor
  · intro outside
    rw [stopped] at outside
    exact otherwise (Except.error.inj outside)
  · intro next last output returned
    rw [stopped] at returned
    cases returned

/-- What the file section reads back leaves a zero in the buffer. -/
def ContentEnds (content : List UInt8) : Prop :=
  content.length < serverMsgLen ∨ 0 ∈ content.take serverMsgLen

theorem outputOf_sent_none_iff (platform : Platform) (message content : List UInt8) :
    (outputOf platform message content).reply = .sent none ↔ ¬ContentEnds content := by
  unfold outputOf ContentEnds
  rw [Reply.sent.injEq, Buffer.fill_zeroed, Buffer.string_holding_eq_none_iff, List.length_take,
    List.take_take, Nat.min_self, not_or]
  have full : serverMsgLen ≤ min serverMsgLen content.length ↔
      ¬content.length < serverMsgLen := by omega
  rw [full]

theorem processMessage_unlocked {platform : Platform} {pass : Pass World}
    {thread built : ThreadState} (world : World) {message : List UInt8}
    (record : thread.buildRecord platform message = some built)
    (unlocked : ¬(callMutex pass.lockSucceeds built.k).1 = true) :
    ∃ next, processMessage platform pass thread world message =
      .ok (some next, world, { written := none, reply := .sent built.fileBuffer.string }) := by
  unfold processMessage
  rw [record]
  simp only [unlocked]
  exact ⟨_, rfl⟩

theorem passInBounds_iff (platform : Platform) {pass : Pass World} {thread : ThreadState}
    {world : World} {message : List UInt8} {short : message.length ≤ serverMsgLen}
    (clear : thread.Clear) (running : pass.sigThreadTerminateFlag = false)
    (received : pass.recv = .message message short)
    (quiet : ∀ world record, pass.fileSection world record ≠ .error .outOfBounds) :
    PassInBounds platform pass thread world ↔
      platform.RecordFits message ∧
        ∀ after content, (callMutex pass.lockSucceeds thread.k).1 = true →
          pass.fileSection world (recordOf platform message) = .ok (after, content) →
          ContentEnds content := by
  have unfolded : serverPass platform pass thread world =
      processMessage platform pass thread world message := by
    unfold serverPass
    rw [if_neg (by simp [running]), received]
  constructor
  · intro bounds
    have fits : platform.RecordFits message := by
      by_contra overflow
      rcases thread.buildRecord_overflow clear short overflow with
        missing | ⟨built, record, endless⟩
      · apply bounds.indices
        rw [unfolded, processMessage, missing]
      · by_cases locked : (callMutex pass.lockSucceeds built.k).1 = true
        · apply bounds.indices
          rw [unfolded, processMessage, record]
          simp only [locked, if_true, endless]
        · obtain ⟨next, passed⟩ := processMessage_unlocked world record locked
          rw [endless, ← unfolded] at passed
          exact bounds.ended _ _ _ passed rfl
    refine ⟨fits, ?_⟩
    intro after content locked written
    have passed := processMessage_fits clear locked short fits written
    rw [← unfolded] at passed
    by_contra endless
    exact bounds.ended _ _ _ passed ((outputOf_sent_none_iff platform message content).mpr endless)
  · intro condition
    obtain ⟨fits, ends⟩ := condition
    have record := thread.buildRecord_clear clear short fits
    by_cases locked : (callMutex pass.lockSucceeds thread.k).1 = true
    · cases outcome : pass.fileSection world (recordOf platform message) with
      | error stop =>
          have stopped : serverPass platform pass thread world = .error stop := by
            rw [unfolded, processMessage, record]
            simp only [locked, if_true, string_record fits, outcome]
          apply PassInBounds.of_stopped stopped
          intro outside
          rw [outside] at outcome
          exact quiet world (recordOf platform message) outcome
      | ok result =>
          obtain ⟨after, content⟩ := result
          have passed := processMessage_fits clear locked short fits outcome
          rw [← unfolded] at passed
          apply PassInBounds.of_returned passed
          intro endless
          exact (outputOf_sent_none_iff platform message content).mp endless
            (ends after content locked outcome)
    · obtain ⟨next, passed⟩ := processMessage_unlocked world record locked
      rw [string_record fits, ← unfolded] at passed
      apply PassInBounds.of_returned passed
      intro endless
      cases endless

/-! ### Every pass of a thread -/

/-- Whatever a thread has received before, a message keeps the next pass inside
both buffers exactly when its record fits, with its closing zero, and what is
read back from the file leaves a zero. -/
theorem pass_in_bounds_iff (platform : Platform) (earlier : List (Pass World))
    (start world : World) (thread : ThreadState) (outputs : List PassOutput)
    (served : serverThread platform earlier .start start = .ok (some thread, world, outputs))
    (pass : Pass World) (message : List UInt8) (short : message.length ≤ serverMsgLen)
    (running : pass.sigThreadTerminateFlag = false)
    (received : pass.recv = .message message short)
    (quiet : ∀ world record, pass.fileSection world record ≠ .error .outOfBounds) :
    PassInBounds platform pass thread world ↔
      platform.RecordFits message ∧
        ∀ after content, (callMutex pass.lockSucceeds thread.k).1 = true →
          pass.fileSection world (recordOf platform message) = .ok (after, content) →
          ContentEnds content :=
  passInBounds_iff platform (serverThread_clear earlier ThreadState.start_clear served) running
    received quiet

private theorem echoPass_quiet (chunk : List UInt8) (fits : chunk.length ≤ serverMsgLen) :
    ∀ world record, (echoPass chunk fits).fileSection world record ≠ .error .outOfBounds := by
  intro world record fault
  cases fault

/-- The first message of a thread, one line. -/
theorem pass_in_bounds_one_line :
    PassInBounds x86 (echoPass [97, 10] (by decide)) .start () := by
  apply (pass_in_bounds_iff x86 [] () () .start [] rfl (echoPass [97, 10] (by decide)) [97, 10]
    (by decide) rfl rfl (echoPass_quiet _ _)).mpr
  refine ⟨recordFits_of_length x86 (by decide), ?_⟩
  intro after content _ written
  cases written
  exact .inl (by decide)

/-- A message that fills `msg` without a line end. -/
def fullMessage : List UInt8 :=
  List.replicate serverMsgLen 97

theorem fullMessage_length : fullMessage.length = serverMsgLen :=
  List.length_replicate

private theorem fullMessage_nonzero : (0 : UInt8) ∉ fullMessage := by
  intro member
  exact absurd (List.eq_of_mem_replicate member) (by decide)

private theorem line_fullMessage : x86.line fullMessage = fullMessage := by
  apply List.takeWhile_eq_self_iff.mpr
  intro char member
  rw [List.eq_of_mem_replicate member]
  decide

/-- A pass that reads back as many bytes as `fileBuffer` has. -/
def fillingPass (chunk : List UInt8) (fits : chunk.length ≤ serverMsgLen) : Pass Unit :=
  { echoPass chunk fits with
    fileSection := fun world _ => .ok (world, fullMessage) }

/-- A message of `SERVER_MSG_LEN` bytes without a line end is followed beyond
`msg`, and content of `SERVER_MSG_LEN` bytes leaves no zero for `strlen`. -/
theorem full_buffers_are_left :
    ¬PassInBounds x86 (echoPass fullMessage (Nat.le_of_eq fullMessage_length)) .start () ∧
      ¬PassInBounds x86 (fillingPass [97, 10] (by decide)) .start () := by
  constructor
  · intro bounds
    obtain ⟨fits, _⟩ := (passInBounds_iff x86 ThreadState.start_clear rfl rfl
      (echoPass_quiet _ _)).mp bounds
    have room := fits.1
    rw [line_fullMessage, fullMessage_length] at room
    omega
  · intro bounds
    have quiet : ∀ world record,
        (fillingPass [97, 10] (by decide)).fileSection world record ≠ .error .outOfBounds := by
      intro world record fault
      cases fault
    obtain ⟨_, ends⟩ := (passInBounds_iff x86 ThreadState.start_clear rfl rfl quiet).mp bounds
    rcases ends () fullMessage rfl rfl with shorter | zero
    · rw [fullMessage_length] at shorter
      exact absurd shorter (Nat.lt_irrefl _)
    · exact fullMessage_nonzero (List.mem_of_mem_take zero)

end Aesd.Server
