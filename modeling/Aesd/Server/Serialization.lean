/-
Any interleaving of the server threads is a sequence of passes.

`Process.step` lets the threads take turns at every call.  `Serial.step` lets one
thread make a whole pass at once.  While no thread executes the unlock of the
shutdown branch, every run of the first is answered by a run of the second: a
pass counts when its thread closes the file, or finds the connection closed or
the flag raised.

The C library may answer differently at each call, so a pass is made with the
four calls that its thread really got.
-/

import Aesd.Server.FileMutex

namespace Aesd.Server

open CharBuffer
open Execution
open Mutex

variable {World : Type}

/-! ### One pass at a time -/

/-- A thread that has left its loop has no state. -/
structure Serial (World : Type) where
  file : World
  threads : Nat → Option ThreadState

def Serial.start (file : World) : Serial World :=
  { file := file, threads := fun _ => some .start }

structure Turn (World : Type) where
  thread : Nat
  pass : Pass World

def Serial.step (platform : Platform) (serial : Serial World) (turn : Turn World) :
    Except Refusal (Serial World × PassOutput) :=
  match serial.threads turn.thread with
  | none => .error .returned
  | some state =>
      match serverPass platform turn.pass state serial.file with
      | .error stop => .error (.stopped stop)
      | .ok (next, file, output) =>
          .ok ({ file := file
                 threads := Function.update serial.threads turn.thread next }, output)

abbrev SerialStep (World : Type) := Transition (Serial World) (Turn World × PassOutput)

theorem Serial.step_ok {platform : Platform} {serial next : Serial World} {turn : Turn World}
    {output : PassOutput}
    (stepped : Succeeds (Serial.step platform) serial (turn, output) next) :
    ∃ state, serial.threads turn.thread = some state ∧ ∃ later file,
      serverPass platform turn.pass state serial.file = .ok (later, file, output) ∧
      next = { file := file, threads := Function.update serial.threads turn.thread later } := by
  simp only [Succeeds, Serial.step] at stepped
  cases here : serial.threads turn.thread with
  | none =>
      rw [here] at stepped
      cases stepped
  | some state =>
      rw [here] at stepped
      dsimp only at stepped
      split at stepped
      · cases stepped
      · rename_i later file printed passed
        cases stepped
        exact ⟨state, rfl, later, file, passed, rfl⟩

abbrev SerialRun (platform : Platform) (file : World) :
    List (SerialStep World) → Serial World → Prop :=
  Run (Succeeds (Serial.step platform)) (.start file)

/-! ### What is seen of a run -/

def Reply.toList : Reply → List Reply
  | .silent => []
  | .sent string => [.sent string]

/-- What `recv` gives the thread in a step. -/
def Thread.receives (thread : Thread) (env : StepEnv World) : List Recv :=
  if thread.point = .receiving then [env.recv] else []

def receivedBy (self : Nat) (taken : ProcessStep World) : List Recv :=
  match taken.label.1 with
  | .terminate => []
  | .thread other env =>
      if other = self then (taken.before.threads other).receives env else []

def sentBy (self : Nat) (taken : ProcessStep World) : List Reply :=
  match taken.label.1 with
  | .terminate => []
  | .thread other _ => if other = self then taken.label.2.reply.toList else []

def Pass.received (pass : Pass World) : List Recv :=
  if pass.sigThreadTerminateFlag then [] else [pass.recv]

def SerialStep.received (self : Nat) (taken : SerialStep World) : List Recv :=
  if taken.label.1.thread = self then taken.label.1.pass.received else []

def SerialStep.sent (self : Nat) (taken : SerialStep World) : List Reply :=
  if taken.label.1.thread = self then taken.label.2.reply.toList else []

def recordsOf {State Input : Type} (steps : List (Transition State (Input × PassOutput))) :
    List (List UInt8) :=
  steps.filterMap fun taken => taken.label.2.written

theorem recordsOf_append {State Input : Type}
    (first second : List (Transition State (Input × PassOutput))) :
    recordsOf (first ++ second) = recordsOf first ++ recordsOf second :=
  List.filterMap_append

theorem recordsOf_singleton {State Input : Type} (taken : Transition State (Input × PassOutput)) :
    recordsOf [taken] = taken.label.2.written.toList := by
  unfold recordsOf
  cases written : taken.label.2.written with
  | none => exact List.filterMap_cons_none written
  | some record => exact List.filterMap_cons_some written

/-- A message has been received whose pass does not count yet. -/
def Point.amidPass : Point → Bool
  | .locking | .lockRetry | .opening | .writing | .reading | .closing => true
  | _ => false

def Thread.unsent (thread : Thread) : List Reply :=
  match thread.point with
  | .unlocking | .unlockRetry | .sending => [thread.state.reply.2]
  | _ => []

/-! ### How far a thread is -/

/-- With the mutex at once, and these calls to the C library. -/
def plainPass (flag : Bool) (recv : Recv) (calls : FileOps World) : Pass World :=
  { sigThreadTerminateFlag := flag
    recv := recv
    lockSucceeds := fun _ => true
    unlockSucceeds := fun _ => true
    fileSection := calls.fileSection }

/-- Each of the four calls is one that some step made. -/
structure FileOps.ComposedOf (origin : StepEnv World → Prop) (calls : FileOps World) : Prop where
  fopen : ∃ env, origin env ∧ calls.fopen = env.file.fopen
  fwrite : ∃ env, origin env ∧ calls.fwrite = env.file.fwrite
  fread : ∃ env, origin env ∧ calls.fread = env.file.fread
  fclose : ∃ env, origin env ∧ calls.fclose = env.file.fclose

theorem FileOps.composedOf {origin : StepEnv World → Prop} {env : StepEnv World}
    (made : origin env) : env.file.ComposedOf origin :=
  ⟨⟨env, made, rfl⟩, ⟨env, made, rfl⟩, ⟨env, made, rfl⟩, ⟨env, made, rfl⟩⟩

def Pass.Genuine (origin : StepEnv World → Prop) (pass : Pass World) : Prop :=
  ∃ flag recv calls, FileOps.ComposedOf origin calls ∧ pass = plainPass flag recv calls

/-- `serial` is the state of the thread after its passes that count, `base` the
file after all passes that count, `file` the file as it is. -/
inductive Progress (platform : Platform) (origin : StepEnv World → Prop)
    (serial : Option ThreadState) (base file : World) :
    Thread → List Recv → List (List UInt8) → Prop where
  | top {state : ThreadState} (same : serial = some state) :
      Progress platform origin serial base file { point := .top, state := state } [] []
  | receiving {state : ThreadState} (same : serial = some state) :
      Progress platform origin serial base file { point := .receiving, state := state } [] []
  | locking {before state : ThreadState} {recv : Recv} (same : serial = some before)
      (built : Built platform before recv state) :
      Progress platform origin serial base file { point := .locking, state := state } [recv] []
  | opening {before state : ThreadState} {recv : Recv} (same : serial = some before)
      (built : Built platform before recv state) (untouched : file = base) :
      Progress platform origin serial base file { point := .opening, state := state } [recv] []
  | writing {before state : ThreadState} {recv : Recv} {calls : FileOps World}
      (composed : calls.ComposedOf origin) (same : serial = some before)
      (built : Built platform before recv state) (opened : calls.fopen base = .ok file) :
      Progress platform origin serial base file
        { point := .writing, state := { state with k := 0 } } [recv] []
  | reading {before state : ThreadState} {recv : Recv} {calls : FileOps World} {atOpen : World}
      {record : List UInt8} (composed : calls.ComposedOf origin) (same : serial = some before)
      (built : Built platform before recv state)
      (holds : state.fileBuffer.string = some record) (opened : calls.fopen base = .ok atOpen)
      (wrote : calls.fwrite atOpen record = .ok file) :
      Progress platform origin serial base file
        { point := .reading, state := { state with k := 0 } } [recv] [record]
  | closing {before state : ThreadState} {recv : Recv} {calls : FileOps World}
      {atOpen written : World} {record content : List UInt8}
      (composed : calls.ComposedOf origin) (same : serial = some before)
      (built : Built platform before recv state)
      (holds : state.fileBuffer.string = some record) (opened : calls.fopen base = .ok atOpen)
      (wrote : calls.fwrite atOpen record = .ok written)
      (read : calls.fread written = .ok (file, content)) :
      Progress platform origin serial base file
        { point := .closing, state := { state with k := 0 }.withContent content } [recv] [record]
  | unlocking {state : ThreadState} (same : serial = some state.reply.1)
      (untouched : file = base) :
      Progress platform origin serial base file { point := .unlocking, state := state } [] []
  | sending {state : ThreadState} (same : serial = some state.reply.1) :
      Progress platform origin serial base file { point := .sending, state := state } [] []
  | leaving {state : ThreadState} (gone : serial = none) :
      Progress platform origin serial base file { point := .leaving, state := state } [] []

section

variable {platform : Platform} {origin : StepEnv World → Prop} {serial : Option ThreadState}
  {base file : World}
  {thread : Thread} {received : List Recv} {written : List (List UInt8)}

theorem Progress.elsewhere
    (progress : Progress platform origin serial base file thread received written)
    (outside : ¬thread.Holds) (otherBase otherFile : World) :
    Progress platform origin serial otherBase otherFile thread received written := by
  cases progress with
  | top same => exact .top same
  | receiving same => exact .receiving same
  | locking same built => exact .locking same built
  | sending same => exact .sending same
  | leaving gone => exact .leaving gone
  | opening _ _ _ => exact absurd rfl outside
  | writing _ _ _ _ => exact absurd rfl outside
  | reading _ _ _ _ _ _ => exact absurd rfl outside
  | closing _ _ _ _ _ _ _ => exact absurd rfl outside
  | unlocking _ _ => exact absurd rfl outside

theorem Built.serverPass {before state : ThreadState} {recv : Recv}
    (built : Built platform before recv state) (calls : FileOps World) (world : World) :
    ∃ bytes, before.buildRecord platform bytes = some state ∧
      serverPass platform (plainPass false recv calls) before world =
        processMessage platform (plainPass false recv calls) before world bytes := by
  have building : ∀ bytes, Thread.build platform { point := .receiving, state := before } bytes =
      .ok { point := .locking, state := state } →
        before.buildRecord platform bytes = some state := by
    intro bytes outcome
    unfold Thread.build at outcome
    cases record : before.buildRecord platform bytes with
    | none =>
        rw [record] at outcome
        cases outcome
    | some other =>
        rw [record] at outcome
        cases outcome
        rfl
  cases recv with
  | closed => cases built
  | error => exact ⟨[], building [] built, rfl⟩
  | message bytes fits => exact ⟨bytes, building bytes built, rfl⟩

theorem serverPass_of_calls {before state : ThreadState} {recv : Recv} {calls : FileOps World}
    {atOpen atWrite atRead last : World} {record content : List UInt8}
    (built : Built platform before recv state)
    (holds : state.fileBuffer.string = some record) (opened : calls.fopen base = .ok atOpen)
    (wrote : calls.fwrite atOpen record = .ok atWrite)
    (read : calls.fread atWrite = .ok (atRead, content))
    (closed : calls.fclose atRead = .ok last) :
    serverPass platform (plainPass false recv calls) before base =
      .ok (some ({ state with k := 0 }.withContent content).reply.1, last,
        { written := some record
          reply := ({ state with k := 0 }.withContent content).reply.2 }) := by
  have sectioned : calls.fileSection base record = .ok (last, content) := by
    simp only [FileOps.fileSection, opened, wrote, read, closed]
  obtain ⟨bytes, recorded, passes⟩ := built.serverPass calls base
  rw [passes]
  simp only [processMessage, recorded, plainPass, callMutex, if_true, holds, sectioned]
  rfl

end

/-! ### A step of one thread -/

/-- At most one pass comes to count in a step. -/
inductive Counts (platform : Platform) (origin : StepEnv World → Prop)
    (serial : Option ThreadState) (base : World) :
    List (Pass World × PassOutput) → Option ThreadState → World → Prop where
  | none : Counts platform origin serial base [] serial base
  | one {state : ThreadState} {pass : Pass World} {later : Option ThreadState}
      {nextBase : World} {out : PassOutput} (genuine : pass.Genuine origin)
      (here : serial = some state)
      (passed : serverPass platform pass state base = .ok (later, nextBase, out)) :
      Counts platform origin serial base [(pass, out)] later nextBase

structure Advance (platform : Platform) (origin : StepEnv World → Prop) (env : StepEnv World)
    (before after : Thread) (serial later : Option ThreadState) (base nextBase file next : World)
    (received : List Recv) (written : List (List UInt8)) (output : PassOutput)
    (turns : List (Pass World × PassOutput)) (nowReceived : List Recv)
    (nowWritten : List (List UInt8)) : Prop where
  counts : Counts platform origin serial base turns later nextBase
  progress : Progress platform origin later nextBase next after nowReceived nowWritten
  gets : received ++ before.receives env =
    turns.flatMap (fun turn => turn.1.received) ++ nowReceived
  writes : written ++ output.written.toList =
    turns.flatMap (fun turn => turn.2.written.toList) ++ nowWritten
  sends : output.reply.toList ++ after.unsent =
    before.unsent ++ turns.flatMap (fun turn => turn.2.reply.toList)
  silent : output.written = none ∨ before.Holds
  still : next = file ∨ before.Holds
  steady : nextBase = base ∨ before.Holds
  settled : before.Holds → ¬after.Holds → next = nextBase

section

variable {platform : Platform} {origin : StepEnv World → Prop} {self : Nat}
  {env : StepEnv World} {before after : Thread}
  {shared next : Shared World} {output : PassOutput} {serial : Option ThreadState}
  {base : World} {received : List Recv} {written : List (List UInt8)}

private theorem advance_outside {later : Option ThreadState} {file : World}
    {turns : List (Pass World × PassOutput)} {nowReceived : List Recv}
    (counts : Counts platform origin serial base turns later base)
    (progress : Progress platform origin later base file after nowReceived [])
    (gets : received ++ before.receives env =
      turns.flatMap (fun turn => turn.1.received) ++ nowReceived)
    (writes : written ++ output.written.toList =
      turns.flatMap (fun turn => turn.2.written.toList) ++ [])
    (sends : output.reply.toList ++ after.unsent =
      before.unsent ++ turns.flatMap (fun turn => turn.2.reply.toList))
    (silent : output.written = none) (outside : before.point.holdsMutex = false) :
    Advance platform origin env before after serial later base base file file received written
      output turns nowReceived [] :=
  { counts := counts, progress := progress, gets := gets, writes := writes, sends := sends
    silent := .inl silent, still := .inl rfl, steady := .inl rfl
    settled := fun holds => absurd holds (Bool.eq_false_iff.mp outside) }

private theorem advance_inside {file next nextBase : World} {later : Option ThreadState}
    {turns : List (Pass World × PassOutput)} {nowReceived : List Recv}
    {nowWritten : List (List UInt8)}
    (counts : Counts platform origin serial base turns later nextBase)
    (progress : Progress platform origin later nextBase next after nowReceived nowWritten)
    (gets : received ++ before.receives env =
      turns.flatMap (fun turn => turn.1.received) ++ nowReceived)
    (writes : written ++ output.written.toList =
      turns.flatMap (fun turn => turn.2.written.toList) ++ nowWritten)
    (sends : output.reply.toList ++ after.unsent =
      before.unsent ++ turns.flatMap (fun turn => turn.2.reply.toList))
    (holds : before.Holds) (stays : after.Holds) :
    Advance platform origin env before after serial later base nextBase file next received written
      output turns nowReceived nowWritten :=
  { counts := counts, progress := progress, gets := gets, writes := writes, sends := sends
    silent := .inr holds, still := .inr holds, steady := .inr holds
    settled := fun _ left => absurd stays left }

/-- The file is as the passes left it while nobody holds the mutex. -/
theorem Progress.step
    (progress : Progress platform origin serial base shared.file before received written)
    (free : shared.fileMutex = none → shared.file = base) (made : origin env)
    (kept : before.point ≠ .leaving)
    (taken : before.step Kind.normal platform self env shared = .ok (after, next, output)) :
    ∃ later nextBase turns nowReceived nowWritten,
      Advance platform origin env before after serial later base nextBase shared.file next.file
        received written output turns nowReceived nowWritten := by
  have taken := Thread.step_taken taken
  cases progress with
  | @top state same =>
      cases taken with
      | seesFlag raised =>
          have passed : serverPass platform
              (plainPass true env.recv env.file) state base =
              .ok (none, base, .quiet) := rfl
          have genuine : (plainPass true env.recv env.file).Genuine origin :=
            ⟨true, env.recv, env.file, FileOps.composedOf made, rfl⟩
          exact ⟨_, _, _, _, _, advance_outside (.one genuine same passed) (.leaving rfl) rfl rfl
            rfl rfl rfl⟩
      | continues lowered =>
          exact ⟨_, _, _, _, _, advance_outside .none (.receiving same) rfl rfl rfl
            rfl rfl⟩
  | @receiving state same =>
      cases taken with
      | closed arrived =>
          have passed : serverPass platform (plainPass false .closed env.file) state base =
              .ok (some { state with msg := .zeroed state.msg.size }, base, .quiet) := rfl
          have genuine : (plainPass false .closed env.file).Genuine origin :=
            ⟨false, .closed, env.file, FileOps.composedOf made, rfl⟩
          refine ⟨_, _, _, _, _, advance_outside (.one genuine same passed) (.top rfl) ?_ rfl rfl
            rfl rfl⟩
          rw [Thread.receives, if_pos rfl, arrived]
          rfl
      | builds built =>
          exact ⟨_, _, _, _, _, advance_outside .none (.locking same built) rfl rfl rfl
            rfl rfl⟩
  | locking same built =>
      cases taken with
      | locks unheld =>
          exact ⟨_, _, _, _, _, advance_outside .none (.opening same built (free unheld)) rfl rfl
            rfl rfl rfl⟩
  | opening same built untouched =>
      cases taken with
      | opens opened =>
          rw [untouched] at opened
          exact ⟨_, _, _, _, _, advance_inside .none
            (.writing (FileOps.composedOf made) same built opened) rfl rfl rfl rfl rfl⟩
  | @writing _ state _ calls composed same built opened =>
      cases taken with
      | writes holds wrote =>
          have openedBefore : ({ calls with fwrite := env.file.fwrite } : FileOps World).fopen
              base = .ok shared.file := opened
          have composedNow : FileOps.ComposedOf origin
              { calls with fwrite := env.file.fwrite } :=
            { composed with fwrite := ⟨env, made, rfl⟩ }
          exact ⟨_, _, _, _, _, advance_inside .none
            (.reading composedNow same built holds openedBefore wrote) rfl rfl rfl rfl rfl⟩
  | @reading _ state _ calls atOpen record composed same built holds opened wrote =>
      cases taken with
      | reads read =>
          have openedBefore : ({ calls with fread := env.file.fread } : FileOps World).fopen base =
              .ok atOpen := opened
          have composedNow : FileOps.ComposedOf origin { calls with fread := env.file.fread } :=
            { composed with fread := ⟨env, made, rfl⟩ }
          exact ⟨_, _, _, _, _, advance_inside .none
            (.closing composedNow same built holds openedBefore wrote read) rfl rfl rfl rfl rfl⟩
  | @closing _ state recv calls atOpen atWrite record content composed same built holds opened
      wrote read =>
      cases taken with
      | closes closed =>
          have openedBefore : ({ calls with fclose := env.file.fclose } : FileOps World).fopen
              base = .ok atOpen := opened
          have passed := serverPass_of_calls built holds openedBefore wrote read closed
          have composedNow : FileOps.ComposedOf origin { calls with fclose := env.file.fclose } :=
            { composed with fclose := ⟨env, made, rfl⟩ }
          have genuine : (plainPass false recv { calls with fclose := env.file.fclose }).Genuine
              origin := ⟨false, recv, _, composedNow, rfl⟩
          exact ⟨_, _, _, _, _, advance_inside (.one genuine same passed) (.unlocking rfl rfl) rfl
            rfl rfl rfl rfl⟩
  | unlocking same untouched =>
      cases taken with
      | unlocks =>
          exact ⟨_, _, _, _, _,
            { counts := .none, progress := .sending same, gets := rfl, writes := rfl, sends := rfl
              silent := .inl rfl, still := .inl rfl, steady := .inl rfl
              settled := fun _ _ => untouched }⟩
  | sending same =>
      cases taken with
      | sends =>
          exact ⟨_, _, _, _, _, advance_outside .none (.top same) rfl rfl rfl
            rfl rfl⟩
  | leaving gone => exact absurd rfl kept

end

/-! ### A step of the process -/

structure Account (platform : Platform) (origin : StepEnv World → Prop)
    (steps : List (ProcessStep World)) (process : Process World)
    (passes : List (SerialStep World)) (serial : Serial World)
    (index : Nat) (received : List Recv) (written : List (List UInt8)) : Prop where
  progress : Progress platform origin (serial.threads index) serial.file process.shared.file
    (process.threads index) received written
  receives : steps.flatMap (receivedBy index) =
    passes.flatMap (SerialStep.received index) ++ received
  sends : steps.flatMap (sentBy index) ++ (process.threads index).unsent =
    passes.flatMap (SerialStep.sent index)
  records : (process.threads index).Holds → recordsOf steps = recordsOf passes ++ written

/-- The passes that count, made one after another. -/
structure Serialized (platform : Platform) (origin : StepEnv World → Prop)
    (steps : List (ProcessStep World)) (process : Process World)
    (passes : List (SerialStep World)) (serial : Serial World) : Prop where
  guarded : process.Guarded
  genuine : ∀ taken, taken ∈ passes → taken.label.1.pass.Genuine origin
  free : process.shared.fileMutex = none → process.shared.file = serial.file
  records : process.shared.fileMutex = none → recordsOf steps = recordsOf passes
  accounts : ∀ self, ∃ received written,
    Account platform origin steps process passes serial self received written

section

variable {platform : Platform} {origin : StepEnv World → Prop} {file : World}
  {steps : List (ProcessStep World)} {passes : List (SerialStep World)}
  {process : Process World} {serial : Serial World}

theorem Serialized.start (platform : Platform) (origin : StepEnv World → Prop) (file : World) :
    Serialized platform origin [] (.start file) [] (.start file) where
  guarded := Process.start_guarded file
  genuine := by intro taken member; cases member
  free := fun _ => rfl
  records := fun _ => rfl
  accounts := by
    intro index
    refine ⟨[], [], .top rfl, rfl, rfl, ?_⟩
    intro holds
    cases holds

theorem Counts.run {self : Nat} {turns : List (Pass World × PassOutput)}
    {later : Option ThreadState} {nextBase : World}
    (counts : Counts platform origin (serial.threads self) serial.file turns later nextBase) :
    ∃ more, Run (Succeeds (Serial.step platform)) serial more
        { file := nextBase, threads := Function.update serial.threads self later } ∧
      recordsOf more = turns.flatMap (fun turn => turn.2.written.toList) ∧
      (more.flatMap (SerialStep.received self) = turns.flatMap fun turn => turn.1.received) ∧
      (more.flatMap (SerialStep.sent self) = turns.flatMap fun turn => turn.2.reply.toList) ∧
      (∀ other, other ≠ self → more.flatMap (SerialStep.received other) = [] ∧
        more.flatMap (SerialStep.sent other) = []) ∧
      ∀ taken, taken ∈ more → taken.label.1.pass.Genuine origin := by
  cases counts with
  | none =>
      rw [Function.update_eq_self]
      exact ⟨[], .start, rfl, rfl, rfl, fun _ _ => ⟨rfl, rfl⟩,
        by intro taken member; cases member⟩
  | @one state pass later nextBase out genuine here passed =>
      have stepped : Succeeds (Serial.step platform) serial (⟨self, pass⟩, out)
          { file := nextBase, threads := Function.update serial.threads self later } := by
        simp only [Succeeds, Serial.step, here, passed]
      refine ⟨_, Run.start.extend stepped, ?_, ?_, ?_, ?_, ?_⟩
      · rw [List.nil_append, recordsOf_singleton, List.flatMap_singleton]
      · rw [List.nil_append, List.flatMap_singleton, List.flatMap_singleton]
        exact if_pos rfl
      · rw [List.nil_append, List.flatMap_singleton, List.flatMap_singleton]
        exact if_pos rfl
      · intro other different
        rw [List.nil_append, List.flatMap_singleton, List.flatMap_singleton]
        exact ⟨if_neg (Ne.symm different), if_neg (Ne.symm different)⟩
      · intro taken member
        rw [List.mem_singleton.mp member]
        exact genuine

theorem Progress.written_outside {state : Option ThreadState} {base now : World}
    {thread : Thread} {received : List Recv} {written : List (List UInt8)}
    (progress : Progress platform origin state base now thread received written)
    (outside : ¬thread.Holds) : written = [] := by
  cases progress with
  | top _ => rfl
  | receiving _ => rfl
  | locking _ _ => rfl
  | opening _ _ _ => rfl
  | writing _ _ _ _ => rfl
  | reading _ _ _ _ _ _ => exact absurd rfl outside
  | closing _ _ _ _ _ _ _ => exact absurd rfl outside
  | unlocking _ _ => rfl
  | sending _ => rfl
  | leaving _ => rfl

theorem Process.withThread_self (process : Process World) (self : Nat) (thread : Thread)
    (shared : Shared World) : (process.withThread self thread shared).threads self = thread :=
  Function.update_self ..

theorem Process.withThread_other (process : Process World) {self other : Nat}
    (different : other ≠ self) (thread : Thread) (shared : Shared World) :
    (process.withThread self thread shared).threads other = process.threads other :=
  Function.update_of_ne different ..

private theorem free_before {acting : Nat} {thread : Thread} {shared : Shared World}
    (guarded : process.Guarded)
    (guardedNext : (process.withThread acting thread shared).Guarded)
    (outside : ¬(process.threads acting).Holds)
    (now : shared.fileMutex = none ∨ shared.fileMutex = some acting) :
    process.shared.fileMutex = none := by
  cases held : process.shared.fileMutex with
  | none => rfl
  | some holder =>
      have holds : (process.threads holder).Holds := (guarded holder).mpr held
      have other : holder ≠ acting := by
        intro same
        rw [same] at holds
        exact outside holds
      have still : shared.fileMutex = some holder := by
        apply (guardedNext holder).mp
        rw [process.withThread_other other]
        exact holds
      rcases now with free | mine
      · rw [free] at still
        cases still
      · rw [mine] at still
        exact absurd (Option.some.inj still).symm other

section

variable {acting : Nat} {env : StepEnv World} {thread : Thread} {shared : Shared World}
  {output : PassOutput} {received nowReceived : List Recv}
  {written nowWritten : List (List UInt8)} {later : Option ThreadState} {nextBase : World}
  {turns : List (Pass World × PassOutput)} {more : List (SerialStep World)}

private theorem Account.own
    (account : Account platform origin steps process passes serial acting received written)
    (advance : Advance platform origin env (process.threads acting) thread
      (serial.threads acting) later serial.file nextBase process.shared.file shared.file received
      written output turns nowReceived nowWritten)
    (turnReceived : more.flatMap (SerialStep.received acting) =
      turns.flatMap fun turn => turn.1.received)
    (turnSent : more.flatMap (SerialStep.sent acting) =
      turns.flatMap fun turn => turn.2.reply.toList)
    (records : thread.Holds → recordsOf (steps ++
        [⟨process, (.thread acting env, output), process.withThread acting thread shared⟩]) =
      recordsOf (passes ++ more) ++ nowWritten) :
    Account platform origin
      (steps ++ [⟨process, (.thread acting env, output), process.withThread acting thread shared⟩])
      (process.withThread acting thread shared) (passes ++ more)
      { file := nextBase, threads := Function.update serial.threads acting later }
      acting nowReceived nowWritten := by
  have here := process.withThread_self acting thread shared
  have receivedNow : receivedBy acting
      ⟨process, (.thread acting env, output), process.withThread acting thread shared⟩ =
      (process.threads acting).receives env := if_pos rfl
  have sentNow : sentBy acting
      ⟨process, (.thread acting env, output), process.withThread acting thread shared⟩ =
      output.reply.toList := if_pos rfl
  constructor
  · dsimp only
    rw [here, Function.update_self]
    exact advance.progress
  · rw [List.flatMap_append, List.flatMap_append, List.flatMap_singleton, receivedNow,
      account.receives, turnReceived, List.append_assoc, List.append_assoc, advance.gets]
  · rw [List.flatMap_append, List.flatMap_append, List.flatMap_singleton, sentNow, here, turnSent,
      ← account.sends, List.append_assoc, List.append_assoc, advance.sends]
  · rw [here]
    exact records

private theorem Account.other {self : Nat} {otherReceived : List Recv}
    {otherWritten : List (List UInt8)}
    (account : Account platform origin steps process passes serial self otherReceived otherWritten)
    (different : self ≠ acting) (guarded : process.Guarded)
    (actingProgress : Progress platform origin (serial.threads acting) serial.file
      process.shared.file (process.threads acting) received written)
    (advance : Advance platform origin env (process.threads acting) thread
      (serial.threads acting) later serial.file nextBase process.shared.file shared.file received
      written output turns nowReceived nowWritten)
    (turnRecords : recordsOf more = turns.flatMap fun turn => turn.2.written.toList)
    (turnReceived : more.flatMap (SerialStep.received self) = [])
    (turnSent : more.flatMap (SerialStep.sent self) = []) :
    Account platform origin
      (steps ++ [⟨process, (.thread acting env, output), process.withThread acting thread shared⟩])
      (process.withThread acting thread shared) (passes ++ more)
      { file := nextBase, threads := Function.update serial.threads acting later }
      self otherReceived otherWritten := by
  have here := process.withThread_other different thread shared
  have receivedNow : receivedBy self
      ⟨process, (.thread acting env, output), process.withThread acting thread shared⟩ = [] :=
    if_neg (Ne.symm different)
  have sentNow : sentBy self
      ⟨process, (.thread acting env, output), process.withThread acting thread shared⟩ = [] :=
    if_neg (Ne.symm different)
  have excluded : (process.threads self).Holds → ¬(process.threads acting).Holds :=
    fun holds otherHolds => different (guarded.unique holds otherHolds)
  constructor
  · dsimp only
    rw [here, Function.update_of_ne different]
    by_cases holds : (process.threads self).Holds
    · rw [advance.steady.resolve_right (excluded holds)]
      have still : (process.withThread acting thread shared).shared.file = process.shared.file :=
        advance.still.resolve_right (excluded holds)
      rw [still]
      exact account.progress
    · exact account.progress.elsewhere holds _ _
  · rw [List.flatMap_append, List.flatMap_append, List.flatMap_singleton, receivedNow,
      turnReceived, List.append_nil, List.append_nil]
    exact account.receives
  · rw [List.flatMap_append, List.flatMap_append, List.flatMap_singleton, sentNow, turnSent, here,
      List.append_nil, List.append_nil]
    exact account.sends
  · rw [here]
    intro holds
    -- the acting thread is outside, so it neither writes nor finishes a pass that wrote
    have outside := excluded holds
    have silent := advance.silent.resolve_right outside
    have nothing := advance.writes
    rw [silent, Option.toList_none, List.append_nil, actingProgress.written_outside outside,
      ← turnRecords] at nothing
    rw [recordsOf_append, recordsOf_append, recordsOf_singleton, silent, Option.toList_none,
      List.append_nil, (List.append_eq_nil_iff.mp nothing.symm).1, List.append_nil]
    exact account.records holds

end

private theorem Serialized.thread_step {acting : Nat} {env : StepEnv World} {thread : Thread}
    {shared : Shared World} {output : PassOutput}
    (serialized : Serialized platform origin steps process passes serial)
    (guardedNext : (process.withThread acting thread shared).Guarded) (made : origin env)
    (kept : (process.threads acting).point ≠ .leaving)
    (taken : (process.threads acting).step Kind.normal platform acting env process.shared =
      .ok (thread, shared, output)) :
    ∃ more last, Run (Succeeds (Serial.step platform)) serial more last ∧
      Serialized platform origin
        (steps ++
          [⟨process, (.thread acting env, output), process.withThread acting thread shared⟩])
        (process.withThread acting thread shared) (passes ++ more) last := by
  obtain ⟨received, written, account⟩ := serialized.accounts acting
  obtain ⟨later, nextBase, turns, nowReceived, nowWritten, advance⟩ :=
    account.progress.step serialized.free made kept taken
  obtain ⟨more, run, turnRecords, turnReceived, turnSent, others, genuine⟩ := advance.counts.run
  have outsideNow : shared.fileMutex = none → ¬thread.Holds := by
    intro free holds
    have mine : shared.fileMutex = some acting :=
      (guardedNext acting).mp (by rw [process.withThread_self]; exact holds)
    rw [free] at mine
    cases mine
  -- the acting thread had the mutex, or nobody had it
  have recordsNow : shared.fileMutex = none ∨ shared.fileMutex = some acting →
      recordsOf (steps ++
        [⟨process, (.thread acting env, output), process.withThread acting thread shared⟩]) =
        recordsOf (passes ++ more) ++ nowWritten := by
    intro now
    have before : recordsOf steps = recordsOf passes ++ written := by
      by_cases holds : (process.threads acting).Holds
      · exact account.records holds
      · rw [account.progress.written_outside holds, List.append_nil]
        exact serialized.records (free_before serialized.guarded guardedNext holds now)
    rw [recordsOf_append, recordsOf_append, recordsOf_singleton, before, turnRecords,
      List.append_assoc, List.append_assoc, ← advance.writes]
  refine ⟨more, _, run, guardedNext, ?_, ?_, ?_, ?_⟩
  · intro other member
    rcases List.mem_append.mp member with earlier | now
    · exact serialized.genuine other earlier
    · exact genuine other now
  · intro free
    change shared.file = nextBase
    by_cases holds : (process.threads acting).Holds
    · exact advance.settled holds (outsideNow free)
    · rw [advance.still.resolve_right holds, advance.steady.resolve_right holds]
      exact serialized.free (free_before serialized.guarded guardedNext holds (.inl free))
  · intro free
    rw [recordsNow (.inl free), advance.progress.written_outside (outsideNow free),
      List.append_nil]
  · intro self
    by_cases own : self = acting
    · rw [own]
      refine ⟨_, _, account.own advance turnReceived turnSent ?_⟩
      intro holds
      exact recordsNow (.inr ((guardedNext acting).mp
        (by rw [process.withThread_self]; exact holds)))
    · obtain ⟨otherReceived, otherWritten, other⟩ := serialized.accounts self
      exact ⟨_, _, other.other own serialized.guarded account.progress advance turnRecords
        (others self own).1 (others self own).2⟩

theorem Account.received_so_far {index : Nat} {received : List Recv}
    {written : List (List UInt8)}
    (account : Account platform origin steps process passes serial index received written) :
    passes.flatMap (SerialStep.received index) =
      if (process.threads index).point.amidPass then (steps.flatMap (receivedBy index)).dropLast
      else steps.flatMap (receivedBy index) := by
  have receives := account.receives
  have progress := account.progress
  generalize process.threads index = thread at progress
  rw [receives]
  cases progress with
  | top _ => exact (List.append_nil _).symm
  | receiving _ => exact (List.append_nil _).symm
  | unlocking _ _ => exact (List.append_nil _).symm
  | sending _ => exact (List.append_nil _).symm
  | leaving _ => exact (List.append_nil _).symm
  | locking _ _ => exact List.dropLast_concat.symm
  | opening _ _ _ => exact List.dropLast_concat.symm
  | writing _ _ _ _ => exact List.dropLast_concat.symm
  | reading _ _ _ _ _ _ => exact List.dropLast_concat.symm
  | closing _ _ _ _ _ _ _ => exact List.dropLast_concat.symm

private theorem Serialized.terminate {next : Process World} {output : PassOutput}
    (serialized : Serialized platform origin steps process passes serial)
    (stepped : Succeeds (Process.step Kind.normal platform) process (.terminate, output) next) :
    Serialized platform origin (steps ++ [⟨process, (.terminate, output), next⟩]) next passes
      serial := by
  simp only [Succeeds, Process.step] at stepped
  cases stepped
  have sameRecords : ∀ next,
      recordsOf (steps ++ [⟨process, (.terminate, PassOutput.quiet), next⟩]) =
        recordsOf steps := by
    intro next
    rw [recordsOf_append, recordsOf_singleton]
    exact List.append_nil _
  refine ⟨serialized.guarded, serialized.genuine, serialized.free, ?_, ?_⟩
  · rw [sameRecords]
    exact serialized.records
  · intro self
    obtain ⟨received, written, account⟩ := serialized.accounts self
    refine ⟨received, written, account.progress, ?_, ?_, ?_⟩
    · rw [List.flatMap_append, List.flatMap_singleton]
      exact (List.append_nil _).trans account.receives
    · rw [List.flatMap_append, List.flatMap_singleton]
      exact (congrArg (· ++ (process.threads self).unsent) (List.append_nil _)).trans
        account.sends
    · rw [sameRecords]
      exact account.records

theorem Serialized.of_run (origin : StepEnv World → Prop) {final : Process World}
    (run : ProcessRun platform file steps final)
    (made : ∀ taken, taken ∈ steps → ∀ self env, taken.label.1 = .thread self env → origin env)
    (kept : ∀ taken, taken ∈ steps → ¬ShutdownUnlock taken) :
    ∃ passes serial, SerialRun platform file passes serial ∧
      Serialized platform origin steps final passes serial := by
  induction run with
  | start => exact ⟨[], _, .start, .start platform origin file⟩
  | @extend steps current next label earlier stepped ih =>
      obtain ⟨passes, serial, passed, serialized⟩ := ih
        (fun taken member => made taken (List.mem_append_left _ member))
        (fun taken member => kept taken (List.mem_append_left _ member))
      have here : (⟨current, label, next⟩ : ProcessStep World) ∈
          steps ++ [⟨current, label, next⟩] :=
        List.mem_append_right _ (List.mem_singleton_self _)
      have keptHere := kept _ here
      obtain ⟨action, output⟩ := label
      cases action with
      | terminate => exact ⟨passes, serial, passed, serialized.terminate stepped⟩
      | thread self env =>
          have guardedNext : next.Guarded :=
            @Process.guarded_step _ platform ⟨current, (.thread self env, output), next⟩
              serialized.guarded keptHere stepped
          have madeHere : origin env := made _ here self env rfl
          have notLeaving : (current.threads self).point ≠ .leaving :=
            fun leaving => keptHere (congrArg some leaving)
          simp only [Succeeds, Process.step] at stepped
          split at stepped
          · cases stepped
          · rename_i thread shared printed taken
            cases stepped
            obtain ⟨more, last, continued, later⟩ :=
              serialized.thread_step guardedNext madeHere notLeaving taken
            exact ⟨passes ++ more, last, passed.append continued, later⟩

end

def UsedIn (steps : List (ProcessStep World)) (env : StepEnv World) : Prop :=
  ∃ taken, taken ∈ steps ∧ ∃ self, taken.label.1 = .thread self env

/-- Every run of the threads, in any interleaving, without an unlock of the
shutdown branch, is a sequence of passes, made with the calls the run made.
Each thread received and sent in its passes what it did in the run, but for the
pass it is in; while the mutex is free, the file is what the passes made of it,
and the records were written in their order. -/
theorem process_serializes (platform : Platform) (file : World)
    (steps : List (ProcessStep World)) (final : Process World)
    (run : ProcessRun platform file steps final)
    (kept : ∀ taken, taken ∈ steps → ¬ShutdownUnlock taken) :
    ∃ passes serial, SerialRun platform file passes serial ∧
      (∀ taken, taken ∈ passes → taken.label.1.pass.Genuine (UsedIn steps)) ∧
      (∀ self,
        passes.flatMap (SerialStep.received self) =
            (if (final.threads self).point.amidPass then
              (steps.flatMap (receivedBy self)).dropLast
            else steps.flatMap (receivedBy self)) ∧
          passes.flatMap (SerialStep.sent self) =
            steps.flatMap (sentBy self) ++ (final.threads self).unsent) ∧
      (final.shared.fileMutex = none →
        final.shared.file = serial.file ∧ recordsOf steps = recordsOf passes) := by
  obtain ⟨passes, serial, passed, serialized⟩ := Serialized.of_run (UsedIn steps) run
    (fun taken member self env acts => ⟨taken, member, self, acts⟩) kept
  refine ⟨passes, serial, passed, serialized.genuine, ?_, ?_⟩
  · intro self
    obtain ⟨received, written, account⟩ := serialized.accounts self
    exact ⟨account.received_so_far, account.sends.symm⟩
  · intro free
    exact ⟨serialized.free free, serialized.records free⟩

/-- Thread 1 receives its line while thread 0 is in the file, and has not sent its
reply when the run ends. -/
theorem process_serializes_two_threads :
    ∃ steps final passes serial, ProcessRun x86 ([] : List UInt8) steps final ∧
      (final.threads 1).point = .sending ∧ SerialRun x86 ([] : List UInt8) passes serial ∧
      serial.file = [97, 10, 97, 10] ∧ recordsOf passes = [[97, 10], [97, 10]] := by
  obtain ⟨steps, final, run, seen⟩ := execute_observe (Process.step Kind.normal x86) (.start [])
    ([0, 0, 1, 0, 0, 1, 0, 0, 0, 0, 1, 1, 0, 1, 1, 1, 1].map nextStep)
    (fun steps final => decide (
      (∀ taken, taken ∈ steps → ¬ShutdownUnlock taken) ∧ final.shared.fileMutex = none ∧
      final.shared.file = [97, 10, 97, 10] ∧ (final.threads 1).point = .sending ∧
      recordsOf steps = [[97, 10], [97, 10]]))
    true (by decide +kernel)
  obtain ⟨kept, free, file, sending, records⟩ := of_decide_eq_true seen
  obtain ⟨passes, serial, passed, _, _, agrees⟩ := process_serializes x86 [] steps final run kept
  obtain ⟨sameFile, sameRecords⟩ := agrees free
  exact ⟨steps, final, passes, serial, run, sending, passed, sameFile.symm.trans file,
    sameRecords.symm.trans records⟩

end Aesd.Server
