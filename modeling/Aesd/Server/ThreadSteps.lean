/-
The server threads step by step.

A thread's loop is cut at every call that another thread can notice: the check
of the terminate flag, `recv`, each attempt to lock, the four calls of the file
section, each attempt to unlock, `send`.  `Thread.step` answers with the next
thread, the next shared state and an output, or with a refusal.  Its successful
steps are then listed once, with what each of them needs; what a step keeps is
read off this list.
-/

import Aesd.Library.Mutex
import Aesd.Server.MessageRecord

namespace Aesd.Server

open CharBuffer
open Mutex

/-! ### The steps of one thread -/

inductive Point where
  | top
  | receiving
  | locking
  | lockRetry
  | opening
  | writing
  | reading
  | closing
  | unlocking
  | unlockRetry
  | sending
  | leaving
  | finished
deriving DecidableEq

structure Thread where
  point : Point
  state : ThreadState

variable {World : Type}

/-- The file functions of the C library, with the seeks before `fwrite` and
`fread`. -/
structure FileOps (World : Type) where
  fopen : World → Except Stop World
  fwrite : World → List UInt8 → Except Stop World
  fread : World → Except Stop (World × List UInt8)
  fclose : World → Except Stop World

/-- `send` returns, with success or not; it does not while the client leaves
what has been sent to it unread; or nobody reads any more and `SIGPIPE`, which is
not handled, ends the process. -/
inductive Send where
  | returns
  | blocks
  | brokenPipe
deriving DecidableEq

structure StepEnv (World : Type) where
  recv : Recv
  file : FileOps World
  send : Send := .returns

structure Shared (World : Type) where
  sigThreadTerminateFlag : Bool
  fileMutex : Option Nat
  file : World

/-- A thread that cannot take a step waits for the mutex or for the client, has
returned, or takes the process down. -/
inductive Refusal where
  | waiting
  | returned
  | stopped (stop : Stop)
deriving DecidableEq

def PassOutput.quiet : PassOutput :=
  { written := none, reply := .silent }

def Thread.goto (thread : Thread) (point : Point) : Thread :=
  { thread with point := point }

/-- The condition of the two retry loops, `(0 != mutexRes) && (k++ < noOfRetries)`;
behind both of them, when they give up, comes `send`. -/
def Thread.retry (thread : Thread) (mutexRes : Int) (done again : Point) : Thread :=
  if mutexRes = 0 then thread.goto done
  else
    { point := if thread.state.k < noOfRetries then again else .sending
      state := { thread.state with k := thread.state.k + 1 } }

/-- `memset` and `fread`. -/
def ThreadState.withContent (state : ThreadState) (content : List UInt8) : ThreadState :=
  { state with
    fileBuffer := (Buffer.zeroed serverMsgLen).fill (content.take serverMsgLen) }

/-- Everything from `recv` to the first attempt to lock. -/
def Thread.build (platform : Platform) (thread : Thread) (received : List UInt8) :
    Except Refusal Thread :=
  match thread.state.buildRecord platform received with
  | none => .error (.stopped .outOfBounds)
  | some state => .ok { point := .locking, state := state }

def Thread.receive (platform : Platform) (thread : Thread) : Recv → Except Refusal Thread
  | .closed =>
      .ok { point := .top, state := { thread.state with msg := .zeroed thread.state.msg.size } }
  | .error => thread.build platform []
  | .message bytes _ => thread.build platform bytes

def Thread.step (kind : Kind Nat) (platform : Platform) (self : Nat) (env : StepEnv World)
    (thread : Thread) (shared : Shared World) :
    Except Refusal (Thread × Shared World × PassOutput) :=
  match thread.point with
  | .top =>
      if shared.sigThreadTerminateFlag then .ok (thread.goto .leaving, shared, .quiet)
      else .ok (thread.goto .receiving, shared, .quiet)
  | .receiving =>
      match thread.receive platform env.recv with
      | .error refusal => .error refusal
      | .ok thread => .ok (thread, shared, .quiet)
  | .locking =>
      match kind.lock shared.fileMutex self with
      | none => .error .waiting
      | some (mutexRes, holder) =>
          .ok (thread.goto (if mutexRes = 0 then .opening else .lockRetry),
            { shared with fileMutex := holder }, .quiet)
  | .lockRetry =>
      match kind.lock shared.fileMutex self with
      | none => .error .waiting
      | some (mutexRes, holder) =>
          .ok (thread.retry mutexRes .opening .lockRetry,
            { shared with fileMutex := holder }, .quiet)
  | .opening =>
      match env.file.fopen shared.file with
      | .error stop => .error (.stopped stop)
      | .ok file =>
          .ok ({ point := .writing, state := { thread.state with k := 0 } },
            { shared with file := file }, .quiet)
  | .writing =>
      match thread.state.fileBuffer.string with
      | none => .error (.stopped .outOfBounds)
      | some record =>
          match env.file.fwrite shared.file record with
          | .error stop => .error (.stopped stop)
          | .ok file =>
              .ok (thread.goto .reading, { shared with file := file },
                { written := some record, reply := .silent })
  | .reading =>
      match env.file.fread shared.file with
      | .error stop => .error (.stopped stop)
      | .ok (file, content) =>
          .ok ({ point := .closing, state := thread.state.withContent content },
            { shared with file := file }, .quiet)
  | .closing =>
      match env.file.fclose shared.file with
      | .error stop => .error (.stopped stop)
      | .ok file => .ok (thread.goto .unlocking, { shared with file := file }, .quiet)
  | .unlocking =>
      let (mutexRes, holder) := kind.unlock shared.fileMutex self
      .ok (thread.goto (if mutexRes = 0 then .sending else .unlockRetry),
        { shared with fileMutex := holder }, .quiet)
  | .unlockRetry =>
      let (mutexRes, holder) := kind.unlock shared.fileMutex self
      .ok (thread.retry mutexRes .sending .unlockRetry,
        { shared with fileMutex := holder }, .quiet)
  | .sending =>
      match env.send with
      | .returns =>
          .ok ({ point := .top, state := thread.state.reply.1 }, shared,
            { written := none, reply := thread.state.reply.2 })
      | .blocks => .error .waiting
      | .brokenPipe => .error (.stopped .brokenPipe)
  | .leaving =>
      -- the shutdown branch: `pthread_mutex_unlock`, whose answer is not looked at
      .ok (thread.goto .finished,
        { shared with fileMutex := (kind.unlock shared.fileMutex self).2 }, .quiet)
  | .finished => .error .returned

/-! ### Receiving -/

/-- `recv` has brought something, and the record is built. -/
def Built (platform : Platform) (before : ThreadState) (recv : Recv) (state : ThreadState) :
    Prop :=
  Thread.receive platform { point := .receiving, state := before } recv =
    .ok { point := .locking, state := state }

private theorem build_locking {platform : Platform} {thread built : Thread} {bytes : List UInt8}
    (outcome : thread.build platform bytes = .ok built) : built.point = .locking := by
  unfold Thread.build at outcome
  split at outcome
  · cases outcome
  · cases outcome
    rfl

theorem Thread.receive_cases {platform : Platform} {env : StepEnv World} {after : Thread}
    {state : ThreadState}
    (outcome : Thread.receive platform { point := .receiving, state := state } env.recv =
      .ok after) :
    (env.recv = .closed ∧
        after = { point := .top, state := { state with msg := .zeroed state.msg.size } }) ∨
      ∃ built, after = { point := .locking, state := built } ∧
        Built platform state env.recv built := by
  have brought : after.point = .locking →
      ∃ built, after = { point := .locking, state := built } ∧
        Built platform state env.recv built := by
    intro point
    obtain ⟨_, built⟩ := after
    cases point
    exact ⟨built, rfl, outcome⟩
  cases arrived : env.recv with
  | closed =>
      rw [arrived] at outcome
      cases outcome
      exact .inl ⟨rfl, rfl⟩
  | error =>
      rw [arrived] at outcome brought
      exact .inr (brought (build_locking outcome))
  | message bytes fits =>
      rw [arrived] at outcome brought
      exact .inr (brought (build_locking outcome))

/-! ### All steps -/

/-- A successful step from the given point, with a mutex of the default kind. -/
inductive Thread.Taken (platform : Platform) (self : Nat) (env : StepEnv World)
    (state : ThreadState) (shared : Shared World) :
    Point → Thread → Shared World → PassOutput → Prop where
  | seesFlag (raised : shared.sigThreadTerminateFlag = true) :
      Taken platform self env state shared .top { point := .leaving, state := state } shared .quiet
  | continues (lowered : shared.sigThreadTerminateFlag = false) :
      Taken platform self env state shared .top { point := .receiving, state := state } shared
        .quiet
  | closed (closed : env.recv = .closed) :
      Taken platform self env state shared .receiving
        { point := .top, state := { state with msg := .zeroed state.msg.size } } shared .quiet
  | builds {later : ThreadState} (built : Built platform state env.recv later) :
      Taken platform self env state shared .receiving { point := .locking, state := later } shared
        .quiet
  | locks (free : shared.fileMutex = none) :
      Taken platform self env state shared .locking { point := .opening, state := state }
        { shared with fileMutex := some self } .quiet
  | retryLocks (free : shared.fileMutex = none) :
      Taken platform self env state shared .lockRetry { point := .opening, state := state }
        { shared with fileMutex := some self } .quiet
  | opens {file : World} (opened : env.file.fopen shared.file = .ok file) :
      Taken platform self env state shared .opening
        { point := .writing, state := { state with k := 0 } } { shared with file := file } .quiet
  | writes {file : World} {record : List UInt8} (holds : state.fileBuffer.string = some record)
      (wrote : env.file.fwrite shared.file record = .ok file) :
      Taken platform self env state shared .writing { point := .reading, state := state }
        { shared with file := file } { written := some record, reply := .silent }
  | reads {file : World} {content : List UInt8}
      (read : env.file.fread shared.file = .ok (file, content)) :
      Taken platform self env state shared .reading
        { point := .closing, state := state.withContent content } { shared with file := file }
        .quiet
  | closes {file : World} (closed : env.file.fclose shared.file = .ok file) :
      Taken platform self env state shared .closing { point := .unlocking, state := state }
        { shared with file := file } .quiet
  | unlocks :
      Taken platform self env state shared .unlocking { point := .sending, state := state }
        { shared with fileMutex := none } .quiet
  | retryUnlocks :
      Taken platform self env state shared .unlockRetry { point := .sending, state := state }
        { shared with fileMutex := none } .quiet
  | sends (returned : env.send = .returns) :
      Taken platform self env state shared .sending { point := .top, state := state.reply.1 } shared
        { written := none, reply := state.reply.2 }
  | finishes :
      Taken platform self env state shared .leaving { point := .finished, state := state }
        { shared with fileMutex := none } .quiet

theorem Thread.step_taken {platform : Platform} {self : Nat} {env : StepEnv World}
    {before after : Thread} {shared next : Shared World} {output : PassOutput}
    (taken : before.step Kind.normal platform self env shared = .ok (after, next, output)) :
    Thread.Taken platform self env before.state shared before.point after next output := by
  obtain ⟨point, state⟩ := before
  cases point with
  | top =>
      by_cases flag : shared.sigThreadTerminateFlag = true
      · simp only [Thread.step, flag, if_true] at taken
        cases taken
        exact .seesFlag flag
      · simp only [Thread.step, flag] at taken
        cases taken
        exact .continues (Bool.eq_false_iff.mpr flag)
  | receiving =>
      simp only [Thread.step] at taken
      split at taken
      · cases taken
      · rename_i received outcome
        cases taken
        rcases Thread.receive_cases outcome with ⟨closed, rfl⟩ | ⟨_, rfl, built⟩
        · exact .closed closed
        · exact .builds built
  | locking =>
      simp only [Thread.step] at taken
      split at taken
      · cases taken
      · rename_i mutexRes holder answered
        obtain ⟨free, rfl, rfl⟩ := Kind.normal_lock answered
        cases taken
        exact .locks free
  | lockRetry =>
      simp only [Thread.step] at taken
      split at taken
      · cases taken
      · rename_i mutexRes holder answered
        obtain ⟨free, rfl, rfl⟩ := Kind.normal_lock answered
        cases taken
        exact .retryLocks free
  | opening =>
      simp only [Thread.step] at taken
      split at taken
      · cases taken
      · rename_i file opened
        cases taken
        exact .opens opened
  | writing =>
      simp only [Thread.step] at taken
      split at taken
      · cases taken
      · rename_i record holds
        split at taken
        · cases taken
        · rename_i file wrote
          cases taken
          exact .writes holds wrote
  | reading =>
      simp only [Thread.step] at taken
      split at taken
      · cases taken
      · rename_i file content read
        cases taken
        exact .reads read
  | closing =>
      simp only [Thread.step] at taken
      split at taken
      · cases taken
      · rename_i file closed
        cases taken
        exact .closes closed
  | unlocking =>
      cases taken
      exact .unlocks
  | unlockRetry =>
      cases taken
      exact .retryUnlocks
  | sending =>
      simp only [Thread.step] at taken
      split at taken
      · rename_i returned
        cases taken
        exact .sends returned
      · cases taken
      · cases taken
  | leaving =>
      cases taken
      exact .finishes
  | finished => cases taken

def Point.gone : Point → Bool
  | .leaving | .finished => true
  | _ => false

theorem Thread.Taken.keeps_flag {platform : Platform} {self : Nat} {env : StepEnv World}
    {state : ThreadState} {point : Point} {after : Thread} {shared next : Shared World}
    {output : PassOutput}
    (taken : Thread.Taken platform self env state shared point after next output) :
    next.sigThreadTerminateFlag = shared.sigThreadTerminateFlag := by
  cases taken <;> rfl

theorem Thread.Taken.gone {platform : Platform} {self : Nat} {env : StepEnv World}
    {state : ThreadState} {point : Point} {after : Thread} {shared next : Shared World}
    {output : PassOutput}
    (taken : Thread.Taken platform self env state shared point after next output)
    (gone : after.point.gone = true) :
    point.gone = true ∨ shared.sigThreadTerminateFlag = true := by
  cases taken with
  | seesFlag raised => exact .inr raised
  | finishes => exact .inl rfl
  | continues _ => cases gone
  | closed _ => cases gone
  | builds _ => cases gone
  | locks _ => cases gone
  | retryLocks _ => cases gone
  | opens _ => cases gone
  | writes _ _ => cases gone
  | reads _ => cases gone
  | closes _ => cases gone
  | unlocks => cases gone
  | retryUnlocks => cases gone
  | sends _ => cases gone

end Aesd.Server
