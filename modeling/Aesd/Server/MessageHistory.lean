/-
What a thread writes over all its passes.

Both buffers are cleared at the end of a pass, so a record depends on its own
message alone.  An error of `recv` is only reported: the thread goes on with the
cleared buffer, whose record is a bare line feed.
-/

import Aesd.Server.BufferBounds
import Aesd.Server.MessageDelivery

namespace Aesd.Server

open CharBuffer
open Driver

def Recv.message? : Recv → Option (List UInt8)
  | .error => none
  | .closed => none
  | .message bytes _ => some bytes

/-- The bytes a pass goes on with: none at all after `0`, no bytes after `-1`. -/
def Recv.processed : Recv → Option (List UInt8)
  | .error => some []
  | .closed => none
  | .message bytes _ => some bytes

/-- `send` is reached, with or without an end of the string. -/
def Reply.isReached : Reply → Bool
  | .silent => false
  | .sent _ => true

def Reply.isSent : Reply → Bool
  | .silent => false
  | .sent string => string.isSome

theorem Reply.isSent_of_reached {reply : Reply} (reached : reply.isReached = true)
    (ended : reply ≠ .sent none) : reply.isSent = true := by
  cases reply with
  | silent => cases reached
  | sent string =>
      cases string with
      | none => exact absurd rfl ended
      | some string => rfl

variable {World : Type}

/-- The thread is not told to stop and gets the lock whenever it asks for it. -/
structure Pass.Runs (pass : Pass World) : Prop where
  running : pass.sigThreadTerminateFlag = false
  locked : ∀ k, (callMutex pass.lockSucceeds k).1 = true

def Pass.RecordFits (platform : Platform) (pass : Pass World) : Prop :=
  ∀ bytes, pass.recv.processed = some bytes → platform.RecordFits bytes

/-! ### One pass -/

section

variable {platform : Platform} {pass : Pass World} {thread : ThreadState} {world : World}

theorem Recv.processed_short {recv : Recv} {bytes : List UInt8}
    (processed : recv.processed = some bytes) : bytes.length ≤ serverMsgLen := by
  cases recv with
  | error =>
      cases processed
      exact Nat.zero_le _
  | closed => cases processed
  | message message fits =>
      cases processed
      exact fits

private theorem serverPass_processed (runs : pass.Runs) {bytes : List UInt8}
    (processed : pass.recv.processed = some bytes) :
    serverPass platform pass thread world = processMessage platform pass thread world bytes := by
  unfold serverPass
  rw [if_neg (by simp [runs.running])]
  cases received : pass.recv with
  | error =>
      rw [received] at processed
      cases processed
      rfl
  | closed =>
      rw [received] at processed
      cases processed
  | message message fits =>
      rw [received] at processed
      cases processed
      rfl

private theorem serverPass_closed (runs : pass.Runs) (closed : pass.recv.processed = none) :
    serverPass platform pass thread world =
      .ok (some { thread with msg := .zeroed thread.msg.size }, world,
        { written := none, reply := .silent }) := by
  unfold serverPass
  rw [if_neg (by simp [runs.running])]
  cases received : pass.recv with
  | error =>
      rw [received] at closed
      cases closed
  | closed => rfl
  | message message fits =>
      rw [received] at closed
      cases closed

theorem serverPass_section (clear : thread.Clear) (runs : pass.Runs)
    (fits : pass.RecordFits platform) {bytes : List UInt8}
    (processed : pass.recv.processed = some bytes) {next : Option ThreadState} {after : World}
    {output : PassOutput}
    (passed : serverPass platform pass thread world = .ok (next, after, output)) :
    next.isSome = true ∧ ∃ content,
      pass.fileSection world (recordOf platform bytes) = .ok (after, content) ∧
      output = outputOf platform bytes content := by
  have short := Recv.processed_short processed
  have room := fits bytes processed
  rw [serverPass_processed runs processed] at passed
  cases outcome : pass.fileSection world (recordOf platform bytes) with
  | error stop =>
      unfold processMessage at passed
      rw [thread.buildRecord_clear clear short room] at passed
      simp only [runs.locked, if_true, string_record room, outcome] at passed
      cases passed
  | ok result =>
      obtain ⟨middle, content⟩ := result
      rw [processMessage_fits clear (runs.locked thread.k) short room outcome] at passed
      cases passed
      exact ⟨rfl, content, rfl, rfl⟩

/-- A pass that comes to its end has written the record of the bytes it went on
with and reached `send`, or done neither. -/
theorem serverPass_output (clear : thread.Clear) (runs : pass.Runs)
    (fits : pass.RecordFits platform) {next : Option ThreadState} {after : World}
    {output : PassOutput}
    (passed : serverPass platform pass thread world = .ok (next, after, output)) :
    next.isSome = true ∧ output.written = pass.recv.processed.map (recordOf platform) ∧
      output.reply.isReached = pass.recv.processed.isSome ∧
      (pass.recv.processed = none → after = world) := by
  cases processed : pass.recv.processed with
  | none =>
      rw [serverPass_closed runs processed] at passed
      cases passed
      exact ⟨rfl, rfl, rfl, fun _ => rfl⟩
  | some bytes =>
      obtain ⟨stays, content, _, rfl⟩ := serverPass_section clear runs fits processed passed
      refine ⟨stays, rfl, rfl, ?_⟩
      intro nothing
      cases nothing

theorem serverPass_ends (clear : thread.Clear) (runs : pass.Runs)
    (fits : pass.RecordFits platform) (ends : pass.SectionEnds) (world : World) :
    ∃ next after output,
      serverPass platform pass thread world = .ok (some next, after, output) := by
  cases processed : pass.recv.processed with
  | none => exact ⟨_, _, _, serverPass_closed runs processed⟩
  | some bytes =>
      obtain ⟨after, content, outcome⟩ := ends world (recordOf platform bytes)
      refine ⟨_, _, _, (serverPass_processed runs processed).trans
        (processMessage_fits clear (runs.locked thread.k) (Recv.processed_short processed)
          (fits bytes processed) outcome)⟩

theorem serverPass_fits (clear : thread.Clear) (runs : pass.Runs)
    {next : Option ThreadState} {after : World} {output : PassOutput}
    (passed : serverPass platform pass thread world = .ok (next, after, output)) :
    pass.RecordFits platform := by
  intro bytes processed
  rw [serverPass_processed runs processed] at passed
  by_contra overflow
  unfold processMessage at passed
  rcases thread.buildRecord_overflow clear (Recv.processed_short processed) overflow with
    missing | ⟨built, record, endless⟩
  · rw [missing] at passed
    cases passed
  · rw [record] at passed
    simp only [runs.locked, if_true, endless] at passed
    cases passed

end

/-! ### All passes -/

section

variable {platform : Platform}

theorem serverThread_outputs (passes : List (Pass World)) :
    ∀ {thread : ThreadState} {final : Option ThreadState} {world after : World}
      {outputs : List PassOutput}, thread.Clear → (∀ pass, pass ∈ passes → pass.Runs) →
      serverThread platform passes thread world = .ok (final, after, outputs) →
      (∀ pass, pass ∈ passes → pass.RecordFits platform) ∧
        outputs.map PassOutput.written =
          passes.map (fun pass => pass.recv.processed.map (recordOf platform)) ∧
        outputs.map (fun output => output.reply.isReached) =
          passes.map fun pass => pass.recv.processed.isSome := by
  induction passes with
  | nil =>
      intro thread final world after outputs _ _ served
      cases served
      refine ⟨?_, rfl, rfl⟩
      intro pass member
      cases member
  | cons pass rest ih =>
      intro thread final world after outputs clear runs served
      have firstRuns := runs pass List.mem_cons_self
      rcases serverThread_cons_ok served with
        ⟨output, passed, _, _⟩ | ⟨next, middle, output, later, passed, laterServed, rfl⟩
      · have stays := (serverPass_output clear firstRuns
          (serverPass_fits clear firstRuns passed) passed).1
        cases stays
      · have fits := serverPass_fits clear firstRuns passed
        obtain ⟨_, written, reached, _⟩ := serverPass_output clear firstRuns fits passed
        obtain ⟨laterFits, laterWritten, laterReached⟩ := ih (serverPass_clear clear passed)
          (fun other member => runs other (List.mem_cons_of_mem _ member)) laterServed
        refine ⟨?_, ?_, ?_⟩
        · intro other member
          rcases List.mem_cons.mp member with rfl | inRest
          · exact fits
          · exact laterFits other inRest
        · rw [List.map_cons, List.map_cons, written, laterWritten]
        · rw [List.map_cons, List.map_cons, reached, laterReached]

theorem serverThread_ends (passes : List (Pass World)) :
    ∀ {thread : ThreadState} (world : World), thread.Clear →
      (∀ pass, pass ∈ passes → pass.Runs ∧ pass.RecordFits platform ∧ pass.SectionEnds) →
      ∃ final after outputs,
        serverThread platform passes thread world = .ok (some final, after, outputs) := by
  induction passes with
  | nil =>
      intro thread world _ _
      exact ⟨thread, world, [], rfl⟩
  | cons pass rest ih =>
      intro thread world clear fine
      obtain ⟨runs, fits, ends⟩ := fine pass List.mem_cons_self
      obtain ⟨next, middle, output, passed⟩ := serverPass_ends clear runs fits ends world
      obtain ⟨final, after, outputs, served⟩ := ih middle (serverPass_clear clear passed)
        (fun other member => fine other (List.mem_cons_of_mem _ member))
      refine ⟨final, after, output :: outputs, ?_⟩
      rw [serverThread, passed]
      simp only [served]

theorem serverThread_snoc {pass : Pass World} {last : ThreadState} {after : World}
    {output : PassOutput} (front : List (Pass World)) :
    ∀ {thread next : ThreadState} {world before : World} {outputs : List PassOutput},
      serverThread platform front thread world = .ok (some next, before, outputs) →
      serverPass platform pass next before = .ok (some last, after, output) →
      serverThread platform (front ++ [pass]) thread world =
        .ok (some last, after, outputs ++ [output]) := by
  induction front with
  | nil =>
      intro thread next world before outputs served passed
      cases served
      rw [List.nil_append, serverThread, passed]
      rfl
  | cons first rest ih =>
      intro thread next world before outputs served passed
      rcases serverThread_cons_ok served with
        ⟨_, _, nothing, _⟩ | ⟨middle, between, earlier, later, firstPassed, restServed, rfl⟩
      · cases nothing
      · rw [List.cons_append, serverThread, firstPassed]
        simp only [ih restServed passed, List.cons_append]

theorem serverThread_middle {pass : Pass World} {back : List (Pass World)}
    {final : Option ThreadState} {last : World} (front : List (Pass World)) :
    ∀ {thread next : ThreadState} {world before : World} {outputs earlier : List PassOutput},
      serverThread platform (front ++ pass :: back) thread world = .ok (final, last, outputs) →
      serverThread platform front thread world = .ok (some next, before, earlier) →
      ∃ stays after output, serverPass platform pass next before = .ok (stays, after, output) ∧
        output ∈ outputs := by
  induction front with
  | nil =>
      intro thread next world before outputs earlier served front
      cases front
      rcases serverThread_cons_ok served with
        ⟨output, passed, _, rfl⟩ | ⟨stays, middle, output, later, passed, _, rfl⟩
      · exact ⟨none, _, output, passed, List.mem_singleton.mpr rfl⟩
      · exact ⟨some stays, middle, output, passed, List.mem_cons_self⟩
  | cons first rest ih =>
      intro thread next world before outputs earlier served front
      rcases serverThread_cons_ok front with
        ⟨_, _, nothing, _⟩ | ⟨middle, between, output, others, firstPassed, restServed, rfl⟩
      · cases nothing
      · rcases serverThread_cons_ok served with
          ⟨_, leaves, _, _⟩ | ⟨stays, world, output, later, passed, laterServed, rfl⟩
        · rw [firstPassed] at leaves
          cases leaves
        · rw [firstPassed] at passed
          cases passed
          obtain ⟨stays, after, output, passed, member⟩ := ih laterServed restServed
          exact ⟨stays, after, output, passed, List.mem_cons_of_mem _ member⟩

theorem records_eq {passes : List (Pass World)} {outputs : List PassOutput}
    (written : outputs.map PassOutput.written =
      passes.map fun pass => pass.recv.processed.map (recordOf platform)) :
    outputs.filterMap PassOutput.written =
      (passes.filterMap fun pass => pass.recv.processed).map (recordOf platform) := by
  have collected := congrArg (List.filterMap id) written
  rw [List.filterMap_map, List.filterMap_map] at collected
  rw [List.map_filterMap]
  exact collected

end

/-! ### Records without a past -/

def FirstRecord (World : Type) (platform : Platform) (record message : List UInt8) : Prop :=
  ∀ (first : Pass World) (world : World), first.Brings message → first.SectionEnds →
    ∃ final after output,
      serverThread platform [first] .start world = .ok (final, after, [output]) ∧
      output.written = some record

theorem firstRecord_recordOf (platform : Platform) {message : List UInt8}
    (fits : platform.RecordFits message) :
    FirstRecord World platform (recordOf platform message) message := by
  intro first world brings ends
  obtain ⟨after, content, written⟩ := ends world (recordOf platform message)
  obtain ⟨k, passed⟩ := serverPass_brings platform ThreadState.start_clear brings fits written
  refine ⟨some (ThreadState.cleared k), after, outputOf platform message content, ?_, rfl⟩
  rw [serverThread, passed]
  rfl

private theorem processed_eq_message? {recv : Recv} (noError : recv ≠ .error) :
    recv.processed = recv.message? := by
  cases recv with
  | error => exact absurd rfl noError
  | closed => rfl
  | message bytes fits => rfl

/-- Whatever a thread has received before, each record it writes is the one it
would write if the message were the first. -/
theorem records_without_past (platform : Platform) (passes : List (Pass World)) (world : World)
    (runs : ∀ pass, pass ∈ passes → pass.Runs)
    (received : ∀ pass, pass ∈ passes → pass.recv = .closed ∨
      ∃ message fits, pass.recv = .message message fits ∧ message ≠ [] ∧
        message.length ≤ 99998) :
    (∀ final after outputs,
      serverThread platform passes .start world = .ok (final, after, outputs) →
      List.Forall₂ (FirstRecord World platform) (outputs.filterMap PassOutput.written)
        (passes.filterMap fun pass => pass.recv.message?)) ∧
    ((∀ pass, pass ∈ passes → pass.SectionEnds) →
      ∃ final after outputs,
        serverThread platform passes .start world = .ok (some final, after, outputs)) := by
  have noError : ∀ pass, pass ∈ passes → pass.recv.processed = pass.recv.message? := by
    intro pass member
    apply processed_eq_message?
    rcases received pass member with closed | ⟨message, fits, brought, _⟩
    · rw [closed]
      simp
    · rw [brought]
      simp
  have fits : ∀ pass, pass ∈ passes → pass.RecordFits platform := by
    intro pass member bytes processed
    rcases received pass member with closed | ⟨message, inside, brought, _, short⟩
    · rw [closed] at processed
      cases processed
    · rw [brought] at processed
      cases processed
      exact recordFits_of_length platform (Nat.add_le_add_right short 2)
  constructor
  · intro final after outputs served
    obtain ⟨_, written, _⟩ := serverThread_outputs passes ThreadState.start_clear runs served
    have messages : (passes.filterMap fun pass => pass.recv.processed) =
        passes.filterMap fun pass => pass.recv.message? := List.filterMap_congr noError
    rw [records_eq written, messages, List.forall₂_map_left_iff, List.forall₂_same]
    intro message member
    obtain ⟨pass, passMember, brought⟩ := List.mem_filterMap.mp member
    apply firstRecord_recordOf
    apply fits pass passMember
    rw [noError pass passMember]
    exact brought
  · intro ends
    apply serverThread_ends passes world ThreadState.start_clear
    intro pass member
    exact ⟨runs pass member, fits pass member, ends pass member⟩

def closedPass : Pass Unit :=
  { echoPass [] (by decide) with recv := .closed }

/-- A longer message, nothing, and a shorter one. -/
def threeReceives : List (Pass Unit) :=
  [echoPass [97, 98, 99, 10] (by decide), closedPass, echoPass [98] (by decide)]

private theorem threeReceives_run {pass : Pass Unit} (member : pass ∈ threeReceives) :
    pass.Runs ∧ pass.SectionEnds := by
  simp only [threeReceives, List.mem_cons, List.not_mem_nil, or_false] at member
  rcases member with rfl | rfl | rfl
  · exact ⟨⟨rfl, fun _ => rfl⟩, fun world record => ⟨world, record, rfl⟩⟩
  · exact ⟨⟨rfl, fun _ => rfl⟩, fun world record => ⟨world, record, rfl⟩⟩
  · exact ⟨⟨rfl, fun _ => rfl⟩, fun world record => ⟨world, record, rfl⟩⟩

theorem records_without_past_three_receives :
    ∃ final after outputs,
      serverThread x86 threeReceives .start () = .ok (some final, after, outputs) ∧
      List.Forall₂ (FirstRecord Unit x86) (outputs.filterMap PassOutput.written)
        [[97, 98, 99, 10], [98]] := by
  obtain ⟨records, ends⟩ := records_without_past x86 threeReceives ()
    (fun _ member => (threeReceives_run member).1) (by
      intro pass member
      simp only [threeReceives, List.mem_cons, List.not_mem_nil, or_false] at member
      rcases member with rfl | rfl | rfl
      · exact .inr ⟨_, _, rfl, by decide, by decide⟩
      · exact .inl rfl
      · exact .inr ⟨_, _, rfl, by decide, by decide⟩)
  obtain ⟨final, after, outputs, served⟩ := ends fun _ member => (threeReceives_run member).2
  exact ⟨final, after, outputs, served, records (some final) after outputs served⟩

/-! ### Records and replies against messages -/

def Pass.bringsMessage (pass : Pass World) : Bool :=
  pass.recv.message?.isSome

/-- There are as many records and as many replies as messages, and a pass
without a message leaves the world as it was. -/
structure CountsMessages (platform : Platform) (passes : List (Pass World)) (world : World) :
    Prop where
  counted : ∃ final after outputs,
    serverThread platform passes .start world = .ok (some final, after, outputs) ∧
    (outputs.filterMap PassOutput.written).length = passes.countP Pass.bringsMessage ∧
    outputs.countP (fun output => output.reply.isSent) = passes.countP Pass.bringsMessage
  unchanged : ∀ front pass back thread before outputs next after output,
    passes = front ++ pass :: back → pass.bringsMessage = false →
    serverThread platform front .start world = .ok (some thread, before, outputs) →
    serverPass platform pass thread before = .ok (next, after, output) → after = before

/-- The file section of every message comes to its end, and leaves a zero behind
what it has read back. -/
def ReadBacksEnd (platform : Platform) (passes : List (Pass World)) (world : World) : Prop :=
  ∀ front pass back message thread before outputs, passes = front ++ pass :: back →
    pass.recv.message? = some message →
    serverThread platform front .start world = .ok (some thread, before, outputs) →
    ∃ after content, pass.fileSection before (recordOf platform message) = .ok (after, content) ∧
      ContentEnds content

private theorem countP_split {α : Type} {some all : α → Bool}
    (among : ∀ item, some item = true → all item = true) (items : List α) :
    items.countP all = items.countP some + items.countP (fun item => all item && !some item) := by
  induction items with
  | nil => rfl
  | cons item rest ih =>
      rw [List.countP_cons, List.countP_cons, List.countP_cons, ih]
      cases picked : some item with
      | true =>
          simp [among item picked]
          omega
      | false =>
          simp
          omega

section

variable {platform : Platform} {passes : List (Pass World)} {world : World}

theorem no_error_of_counted {outputs : List PassOutput}
    (written : outputs.map PassOutput.written =
      passes.map fun pass => pass.recv.processed.map (recordOf platform))
    (counted : (outputs.filterMap PassOutput.written).length = passes.countP Pass.bringsMessage)
    {pass : Pass World} (member : pass ∈ passes) : pass.recv ≠ .error := by
  have among : ∀ other : Pass World, other.bringsMessage = true →
      other.recv.processed.isSome = true := by
    intro other brings
    unfold Pass.bringsMessage at brings
    cases received : other.recv with
    | error =>
        rw [received] at brings
        cases brings
    | closed =>
        rw [received] at brings
        cases brings
    | message bytes fits => rfl
  rw [records_eq written, List.length_map, List.length_filterMap_eq_countP,
    countP_split among passes] at counted
  intro failed
  have none : passes.countP
      (fun pass => pass.recv.processed.isSome && !pass.bringsMessage) = 0 := by
    omega
  have impossible := List.countP_eq_zero.mp none pass member
  unfold Pass.bringsMessage at impossible
  rw [failed] at impossible
  exact impossible rfl

/-- As many replies as times `send` is reached: every string has an end. -/
theorem sent_of_counted {outputs : List PassOutput}
    (reached : outputs.map (fun output => output.reply.isReached) =
      passes.map fun pass => pass.recv.processed.isSome)
    (noError : ∀ pass, pass ∈ passes → pass.recv ≠ .error)
    (counted : outputs.countP (fun output => output.reply.isSent) =
      passes.countP Pass.bringsMessage)
    {output : PassOutput} (member : output ∈ outputs) : output.reply ≠ .sent none := by
  have among : ∀ other : PassOutput, other.reply.isSent = true →
      other.reply.isReached = true := by
    intro other sent
    cases replied : other.reply with
    | silent =>
        rw [replied] at sent
        cases sent
    | sent string => rfl
  have all := congrArg (List.countP id) reached
  rw [List.countP_map, List.countP_map] at all
  have messages : passes.countP (id ∘ fun pass => pass.recv.processed.isSome) =
      passes.countP Pass.bringsMessage := by
    apply List.countP_congr
    intro pass inPasses
    unfold Pass.bringsMessage
    rw [← processed_eq_message? (noError pass inPasses)]
    exact Iff.rfl
  rw [messages, ← counted] at all
  have split := countP_split among outputs
  have none : outputs.countP
      (fun output => output.reply.isReached && !output.reply.isSent) = 0 := by
    have same : outputs.countP (id ∘ fun output => output.reply.isReached) =
        outputs.countP fun output => output.reply.isReached := rfl
    omega
  intro endless
  have impossible := List.countP_eq_zero.mp none output member
  rw [endless] at impossible
  exact impossible rfl

theorem front_counted (runs : ∀ pass, pass ∈ passes → pass.Runs)
    (fine : ∀ pass, pass ∈ passes → pass.recv ≠ .error ∧
      ∀ message, pass.recv.message? = some message → platform.RecordFits message)
    (readBacks : ReadBacksEnd platform passes world) (front : List (Pass World)) :
    ∀ back, passes = front ++ back → ∃ thread before outputs,
      serverThread platform front .start world = .ok (some thread, before, outputs) ∧
      (outputs.filterMap PassOutput.written).length = front.countP Pass.bringsMessage ∧
      outputs.countP (fun output => output.reply.isSent) = front.countP Pass.bringsMessage := by
  induction front using List.reverseRecOn with
  | nil =>
      intro back _
      exact ⟨.start, world, [], rfl, rfl, rfl⟩
  | append_singleton front pass ih =>
      intro back split
      rw [List.append_assoc, List.singleton_append] at split
      obtain ⟨thread, before, outputs, served, records, replies⟩ := ih (pass :: back) split
      have member : pass ∈ passes := by
        rw [split]
        exact List.mem_append_right _ List.mem_cons_self
      have clear := serverThread_clear front ThreadState.start_clear served
      have same := processed_eq_message? (fine pass member).1
      -- a pass adds one to both counts, or nothing to either
      have passed : ∃ next after output,
          serverPass platform pass thread before = .ok (some next, after, output) ∧
          output.written.isSome = pass.bringsMessage ∧
          output.reply.isSent = pass.bringsMessage := by
        cases brought : pass.recv.message? with
        | none =>
            refine ⟨_, _, _, serverPass_closed (runs pass member) (same.trans brought), ?_⟩
            simp [Pass.bringsMessage, brought, Reply.isSent]
        | some message =>
            obtain ⟨after, content, outcome, ends⟩ := readBacks front pass back message thread
              before outputs split brought served
            have processed := same.trans brought
            refine ⟨_, after, outputOf platform message content,
              (serverPass_processed (runs pass member) processed).trans
                (processMessage_fits clear ((runs pass member).locked thread.k)
                  (Recv.processed_short processed) ((fine pass member).2 message brought) outcome),
              ?_, ?_⟩
            · simp [Pass.bringsMessage, brought, outputOf]
            · rw [Pass.bringsMessage, brought]
              apply Reply.isSent_of_reached rfl
              intro endless
              exact (outputOf_sent_none_iff platform message content).mp endless ends
      obtain ⟨next, after, output, passed, record, reply⟩ := passed
      refine ⟨next, after, outputs ++ [output], serverThread_snoc front served passed, ?_, ?_⟩
      · rw [List.length_filterMap_eq_countP] at records ⊢
        rw [List.countP_append, List.countP_append, records, List.countP_singleton,
          List.countP_singleton, record]
      · rw [List.countP_append, List.countP_append, replies, List.countP_singleton,
          List.countP_singleton, reply]

end

/-- The counts are right, and the idle passes idle, exactly when no receive fails,
every record fits and every string read back has an end. -/
theorem messages_counted_iff (platform : Platform) (passes : List (Pass World)) (world : World)
    (runs : ∀ pass, pass ∈ passes → pass.Runs) :
    CountsMessages platform passes world ↔
      (∀ pass, pass ∈ passes → pass.recv ≠ .error ∧
        ∀ message, pass.recv.message? = some message → platform.RecordFits message) ∧
      ReadBacksEnd platform passes world := by
  constructor
  · intro counts
    obtain ⟨final, last, outputs, served, records, replies⟩ := counts.counted
    obtain ⟨fits, written, reached⟩ := serverThread_outputs passes ThreadState.start_clear runs
      served
    have noError : ∀ pass, pass ∈ passes → pass.recv ≠ .error :=
      fun pass member => no_error_of_counted written records member
    refine ⟨?_, ?_⟩
    · intro pass member
      refine ⟨noError pass member, ?_⟩
      intro message brought
      apply fits pass member
      rw [processed_eq_message? (noError pass member)]
      exact brought
    · intro front pass back message thread before earlier split brought frontServed
      have member : pass ∈ passes := by
        rw [split]
        exact List.mem_append_right _ List.mem_cons_self
      have processed := (processed_eq_message? (noError pass member)).trans brought
      rw [split] at served
      obtain ⟨stays, after, output, passed, inOutputs⟩ := serverThread_middle front served
        frontServed
      obtain ⟨_, content, outcome, rfl⟩ := serverPass_section
        (serverThread_clear front ThreadState.start_clear frontServed) (runs pass member)
        (fits pass member) processed passed
      refine ⟨after, content, outcome, ?_⟩
      by_contra endless
      exact sent_of_counted reached noError replies inOutputs
        ((outputOf_sent_none_iff platform message content).mpr endless)
  · rintro ⟨fine, readBacks⟩
    constructor
    · exact front_counted runs fine readBacks passes [] (List.append_nil passes).symm
    · intro front pass back thread before outputs next after output split idle served passed
      have member : pass ∈ passes := by
        rw [split]
        exact List.mem_append_right _ List.mem_cons_self
      have closed : pass.recv.processed = none := by
        rw [processed_eq_message? (fine pass member).1]
        exact Option.not_isSome_iff_eq_none.mp (by rw [← Pass.bringsMessage, idle]; simp)
      rw [serverPass_closed (runs pass member) closed] at passed
      cases passed
      rfl

theorem messages_counted_three_receives : CountsMessages x86 threeReceives () := by
  refine (messages_counted_iff x86 threeReceives ()
    (fun _ member => (threeReceives_run member).1)).mpr ⟨?_, ?_⟩
  · intro pass member
    simp only [threeReceives, List.mem_cons, List.not_mem_nil, or_false] at member
    rcases member with rfl | rfl | rfl
    · refine ⟨by simp [echoPass], ?_⟩
      intro message brought
      cases brought
      exact recordFits_of_length x86 (by decide)
    · refine ⟨by simp [closedPass], ?_⟩
      intro message brought
      cases brought
    · refine ⟨by simp [echoPass], ?_⟩
      intro message brought
      cases brought
      exact recordFits_of_length x86 (by decide)
  · intro front pass back message thread before outputs split brought _
    have member : pass ∈ threeReceives := by
      rw [split]
      exact List.mem_append_right _ List.mem_cons_self
    simp only [threeReceives, List.mem_cons, List.not_mem_nil, or_false] at member
    rcases member with rfl | rfl | rfl
    · cases brought
      exact ⟨before, _, rfl, .inl (by decide)⟩
    · cases brought
    · cases brought
      exact ⟨before, _, rfl, .inl (by decide)⟩

/-- A failed receive, with the driver behind the file. -/
def failedReceive : Pass Device :=
  { sigThreadTerminateFlag := false
    recv := .error
    lockSucceeds := fun _ => true
    unlockSucceeds := fun _ => true
    fileSection := deviceSection commonKernel plainStdio }

/-- After one failed receive the device holds the command `\n` and a reply has
been sent. -/
theorem failed_receive_writes_command :
    ∃ final device output,
      serverThread x86 [failedReceive] .start freshService.device =
        .ok (some final, device, [output]) ∧
      freshService.device.ringContent = [] ∧ device.ringContent = [wholeContent [10]] ∧
      output.written = some [10] ∧ output.reply.isSent = true ∧
      ¬CountsMessages x86 [failedReceive] freshService.device := by
  have seen : (serverThread x86 [failedReceive] .start freshService.device).map (fun result =>
      decide (result.1.isSome = true ∧ freshService.device.ringContent = [] ∧
        result.2.1.ringContent = [wholeContent [10]] ∧
        result.2.2.map (fun output => (output.written, output.reply.isSent)) =
          [(some [10], true)])) = .ok true := by
    decide +kernel
  cases served : serverThread x86 [failedReceive] .start freshService.device with
  | error stop =>
      rw [served] at seen
      cases seen
  | ok result =>
      obtain ⟨final, device, outputs⟩ := result
      rw [served] at seen
      obtain ⟨ends, before, ring, answers⟩ := of_decide_eq_true (Except.ok.inj seen)
      obtain ⟨final, rfl⟩ := Option.isSome_iff_exists.mp ends
      obtain ⟨output, rfl, answer⟩ := List.map_eq_singleton_iff.mp answers
      obtain ⟨record, sent⟩ := Prod.mk.inj answer
      refine ⟨final, device, output, rfl, before, ring, record, sent, ?_⟩
      intro counts
      obtain ⟨other, last, outputs, otherServed, _, replies⟩ := counts.counted
      rw [served] at otherServed
      cases otherServed
      simp [sent, failedReceive, Pass.bringsMessage, Recv.message?] at replies

end Aesd.Server
