/-
After a signal the process can always be brought to its end.

In `pthread_join` main waits for a thread that may itself wait, for the mutex or
for its client.  Whatever has happened before, the mutex is only ever held by a
thread that is between its lock and its unlock, so the holder can finish its pass
without waiting; after it every other thread can, one by one.  Nothing more is
needed from the clients than that `recv` and `send` return.
-/

import Aesd.Server.Lifecycle

namespace Aesd.Server

open CharBuffer
open Execution
open Mutex

variable {World : Type}

/-! ### Threads that can go on -/

def Point.betweenPasses : Point → Bool
  | .top | .receiving => true
  | _ => false

def Point.hasRecord : Point → Bool
  | .locking | .lockRetry | .opening | .writing => true
  | _ => false

/-- The buffers are as large as they were made, clear between two passes, and
hold a string where one is going to be written. -/
structure Thread.Tame (thread : Thread) : Prop where
  size : thread.state.msg.size = serverMsgLen
  clear : thread.point.betweenPasses = true → thread.state.Clear
  record : thread.point.hasRecord = true → ∃ record, thread.state.fileBuffer.string = some record

/-- Short enough for the buffer with any terminator. -/
def Recv.Short : Recv → Prop
  | .message bytes _ => bytes.length ≤ 99998
  | _ => True

instance : (recv : Recv) → Decidable recv.Short
  | .message bytes _ => inferInstanceAs (Decidable (bytes.length ≤ 99998))
  | .error => .isTrue trivial
  | .closed => .isTrue trivial

theorem Built.tame {platform : Platform} {before state : ThreadState} {recv : Recv}
    (built : Built platform before recv state) (clear : before.Clear) (short : recv.Short) :
    state.msg.size = serverMsgLen ∧ ∃ record, state.fileBuffer.string = some record := by
  have shape : ∀ bytes : List UInt8, bytes.length ≤ 99998 →
      Thread.build platform { point := .receiving, state := before } bytes =
        .ok { point := .locking, state := state } →
      state.msg.size = serverMsgLen ∧ ∃ record, state.fileBuffer.string = some record := by
    intro bytes shortBytes outcome
    have fits : platform.RecordFits bytes :=
      recordFits_of_length platform (Nat.add_le_add_right shortBytes 2)
    have inside : bytes.length ≤ serverMsgLen :=
      Nat.le_trans shortBytes (show 99998 ≤ serverMsgLen by decide)
    simp only [Thread.build, before.buildRecord_clear clear inside fits] at outcome
    cases outcome
    exact ⟨rfl, _, string_record fits⟩
  cases recv with
  | closed => cases built
  | error => exact shape [] (Nat.zero_le _) built
  | message bytes fits => exact shape bytes short built

section

variable {point : Point} {state : ThreadState}

private theorem tame_between (size : state.msg.size = serverMsgLen)
    (noRecord : point.hasRecord = false) (clear : state.Clear) :
    Thread.Tame { point := point, state := state } :=
  ⟨size, fun _ => clear, fun has => absurd (noRecord.symm.trans has) (by decide)⟩

private theorem tame_holding (size : state.msg.size = serverMsgLen)
    (within : point.betweenPasses = false)
    (record : ∃ record, state.fileBuffer.string = some record) :
    Thread.Tame { point := point, state := state } :=
  ⟨size, fun between => absurd (within.symm.trans between) (by decide), fun _ => record⟩

private theorem tame_after (size : state.msg.size = serverMsgLen)
    (within : point.betweenPasses = false) (noRecord : point.hasRecord = false) :
    Thread.Tame { point := point, state := state } :=
  ⟨size, fun between => absurd (within.symm.trans between) (by decide),
    fun has => absurd (noRecord.symm.trans has) (by decide)⟩

end

theorem Thread.Tame.taken {platform : Platform} {self : Nat} {env : StepEnv World}
    {before after : Thread} {shared next : Shared World} {output : PassOutput}
    (tame : before.Tame) (short : env.recv.Short)
    (taken : Thread.Taken platform self env before.state shared before.point after next output) :
    after.Tame := by
  obtain ⟨point, state⟩ := before
  obtain ⟨size, clear, record⟩ := tame
  dsimp only at size clear record taken
  have cleared : (Buffer.zeroed state.msg.size : Buffer UInt8) = .zeroed serverMsgLen := by
    rw [size]
  cases taken with
  | seesFlag raised => exact tame_after size rfl rfl
  | continues lowered => exact tame_between size rfl (clear rfl)
  | closed closed => exact tame_between size rfl ⟨cleared, (clear rfl).2⟩
  | builds built =>
      obtain ⟨sameSize, holds⟩ := built.tame (clear rfl) short
      exact tame_holding sameSize rfl holds
  | locks free => exact tame_holding size rfl (record rfl)
  | retryLocks free => exact tame_holding size rfl (record rfl)
  | opens opened => exact tame_holding size rfl (record rfl)
  | writes holds wrote => exact tame_after size rfl rfl
  | reads read => exact tame_after size rfl rfl
  | closes closed => exact tame_after size rfl rfl
  | unlocks => exact tame_after size rfl rfl
  | retryUnlocks => exact tame_after size rfl rfl
  | sends => exact tame_between size rfl ⟨cleared, rfl⟩
  | finishes => exact tame_after size rfl rfl

/-! ### A thread on its way out -/

structure FileOps.Total (calls : FileOps World) : Prop where
  fopen : ∀ file, ∃ next, calls.fopen file = .ok next
  fwrite : ∀ file record, ∃ next, calls.fwrite file record = .ok next
  fread : ∀ file, ∃ next content, calls.fread file = .ok (next, content)
  fclose : ∀ file, ∃ next, calls.fclose file = .ok next

/-- The client sends nothing more, and takes what it is sent. -/
def leftEnv (calls : FileOps World) : StepEnv World :=
  { recv := .closed, file := calls, send := .returns }

/-- How many steps are left once the flag is raised. -/
def Point.stepsLeft : Point → Nat
  | .finished => 0
  | .leaving => 1
  | .top => 2
  | .receiving | .sending => 3
  | .unlocking | .unlockRetry => 4
  | .closing => 5
  | .reading => 6
  | .writing => 7
  | .opening => 8
  | .locking | .lockRetry => 9

def Point.wantsMutex : Point → Bool
  | .locking | .lockRetry => true
  | _ => false

theorem Point.outside_of_wantsMutex {point : Point} (wants : point.wantsMutex = true) :
    point.holdsMutex = false := by
  cases point <;> first | rfl | cases wants

theorem Thread.Tame.steps {calls : FileOps World} (total : calls.Total) (platform : Platform)
    (self : Nat) {thread : Thread} {shared : Shared World} (tame : thread.Tame)
    (raised : shared.sigThreadTerminateFlag = true)
    (free : thread.point.wantsMutex = true → shared.fileMutex = none)
    (running : thread.point ≠ .finished) :
    ∃ result, thread.step Kind.normal platform self (leftEnv calls) shared = .ok result := by
  obtain ⟨point, state⟩ := thread
  cases point with
  | top => exact ⟨_, by simp only [Thread.step, raised, if_true]; rfl⟩
  | receiving => exact ⟨_, rfl⟩
  | locking => exact ⟨_, by simp only [Thread.step, free rfl, Kind.normal]; rfl⟩
  | lockRetry => exact ⟨_, by simp only [Thread.step, free rfl, Kind.normal]; rfl⟩
  | opening =>
      obtain ⟨file, opened⟩ := total.fopen shared.file
      exact ⟨_, by simp only [Thread.step, leftEnv, opened]; rfl⟩
  | writing =>
      obtain ⟨record, holds⟩ := tame.record rfl
      obtain ⟨file, wrote⟩ := total.fwrite shared.file record
      dsimp only at holds
      exact ⟨_, by simp only [Thread.step, leftEnv, holds, wrote]; rfl⟩
  | reading =>
      obtain ⟨file, content, read⟩ := total.fread shared.file
      exact ⟨_, by simp only [Thread.step, leftEnv, read]; rfl⟩
  | closing =>
      obtain ⟨file, closed⟩ := total.fclose shared.file
      exact ⟨_, by simp only [Thread.step, leftEnv, closed]; rfl⟩
  | unlocking => exact ⟨_, rfl⟩
  | unlockRetry => exact ⟨_, rfl⟩
  | sending => exact ⟨_, rfl⟩
  | leaving => exact ⟨_, rfl⟩
  | finished => exact absurd rfl running

section

variable {platform : Platform} {self : Nat} {state : ThreadState} {point : Point} {after : Thread}
  {shared next : Shared World} {output : PassOutput}

theorem Thread.Taken.stepsLeft {calls : FileOps World}
    (taken : Thread.Taken platform self (leftEnv calls) state shared point after next output)
    (raised : shared.sigThreadTerminateFlag = true) :
    after.point.stepsLeft < point.stepsLeft := by
  cases taken with
  | continues lowered => exact absurd (lowered.symm.trans raised) (by decide)
  | builds built =>
      have impossible : Built platform state .closed _ := built
      cases impossible
  | seesFlag _ => exact Nat.lt_succ_self _
  | closed _ => exact Nat.lt_succ_self _
  | locks _ => exact Nat.lt_succ_self _
  | retryLocks _ => exact Nat.lt_succ_self _
  | opens _ => exact Nat.lt_succ_self _
  | writes _ _ => exact Nat.lt_succ_self _
  | reads _ => exact Nat.lt_succ_self _
  | closes _ => exact Nat.lt_succ_self _
  | unlocks => exact Nat.lt_succ_self _
  | retryUnlocks => exact Nat.lt_succ_self _
  | sends => exact Nat.lt_succ_self _
  | finishes => exact Nat.lt_succ_self _

/-- The mutex after a step of a thread: taken by it, which is then inside; free,
and the thread was done with it; or as it was. -/
theorem Thread.Taken.mutex {env : StepEnv World}
    (taken : Thread.Taken platform self env state shared point after next output) :
    next.fileMutex = some self ∧ after.Holds ∨ next.fileMutex = none ∨
      next.fileMutex = shared.fileMutex ∧ (point.holdsMutex = true → after.Holds) := by
  have outside : ∀ {known : Point} {goal : Prop}, known.holdsMutex = false →
      known.holdsMutex = true → goal := by
    intro known goal no yes
    exact absurd (no.symm.trans yes) (by decide)
  cases taken with
  | locks _ => exact .inl ⟨rfl, rfl⟩
  | retryLocks _ => exact .inl ⟨rfl, rfl⟩
  | unlocks => exact .inr (.inl rfl)
  | retryUnlocks => exact .inr (.inl rfl)
  | finishes => exact .inr (.inl rfl)
  | opens _ => exact .inr (.inr ⟨rfl, fun _ => rfl⟩)
  | writes _ _ => exact .inr (.inr ⟨rfl, fun _ => rfl⟩)
  | reads _ => exact .inr (.inr ⟨rfl, fun _ => rfl⟩)
  | closes _ => exact .inr (.inr ⟨rfl, fun _ => rfl⟩)
  | seesFlag _ => exact .inr (.inr ⟨rfl, outside rfl⟩)
  | continues _ => exact .inr (.inr ⟨rfl, outside rfl⟩)
  | closed _ => exact .inr (.inr ⟨rfl, outside rfl⟩)
  | builds _ => exact .inr (.inr ⟨rfl, outside rfl⟩)
  | sends => exact .inr (.inr ⟨rfl, outside rfl⟩)

end

/-! ### In every state of the process -/

/-- The threads can go on, the mutex is with a thread that is inside, and the
threads inside were created. -/
structure Lifecycle.Ready (state : Lifecycle World) : Prop where
  tame : ∀ self, (state.process.threads self).Tame
  holder : ∀ self, state.process.shared.fileMutex = some self →
    (state.process.threads self).Holds
  begun : ∀ self, (state.process.threads self).Holds → self ∈ state.main.registry.created

def LifecycleAction.Short : LifecycleAction World → Prop
  | .thread _ env => env.recv.Short
  | _ => True

instance : (action : LifecycleAction World) → Decidable action.Short
  | .thread _ env => inferInstanceAs (Decidable env.recv.Short)
  | .signal _ => .isTrue trivial
  | .main _ => .isTrue trivial

section

variable {platform : Platform} {state next : Lifecycle World} {count : Nat}

theorem Lifecycle.Ready.start (file : World) : (Lifecycle.start file).Ready where
  tame := fun _ => ⟨rfl, fun _ => ThreadState.start_clear, by intro has; cases has⟩
  holder := by
    intro self held
    cases held
  begun := by
    intro self holds
    cases holds

theorem Lifecycle.Ready.main_step (ready : state.Ready) (frame : state.MainFrame next)
    (created : ∀ self, self ∈ state.main.registry.created → self ∈ next.main.registry.created) :
    next.Ready := by
  constructor
  · intro self
    rw [frame.threads]
    exact ready.tame self
  · intro self held
    rw [frame.threads]
    exact ready.holder self (frame.fileMutex.symm.trans held)
  · intro self holds
    rw [frame.threads] at holds
    exact created self (ready.begun self holds)

theorem Lifecycle.Ready.thread_taken (ready : state.Ready) {self : Nat} {env : StepEnv World}
    {thread : Thread} {shared : Shared World} {output : PassOutput} (short : env.recv.Short)
    (created : self ∈ state.main.registry.created)
    (taken : Thread.Taken platform self env (state.process.threads self).state
      state.process.shared (state.process.threads self).point thread shared output) :
    ({ state with process := state.process.withThread self thread shared } :
      Lifecycle World).Ready := by
  have own := Process.withThread_self state.process self thread shared
  have others : ∀ other, other ≠ self →
      (state.process.withThread self thread shared).threads other =
        state.process.threads other :=
    fun other different => Process.withThread_other state.process different thread shared
  constructor
  · intro other
    change ((state.process.withThread self thread shared).threads other).Tame
    by_cases same : other = self
    · rw [same, own]
      exact (ready.tame self).taken short taken
    · rw [others other same]
      exact ready.tame other
  · intro other held
    change shared.fileMutex = some other at held
    change ((state.process.withThread self thread shared).threads other).Holds
    rcases taken.mutex with ⟨mine, inside⟩ | free | ⟨kept, stays⟩
    · rw [mine] at held
      cases held
      rw [own]
      exact inside
    · rw [free] at held
      cases held
    · have before := ready.holder other (kept.symm.trans held)
      by_cases same : other = self
      · rw [same] at before ⊢
        rw [own]
        exact stays before
      · rw [others other same]
        exact before
  · intro other holds
    change ((state.process.withThread self thread shared).threads other).Holds at holds
    by_cases same : other = self
    · rw [same]
      exact created
    · rw [others other same] at holds
      exact ready.begun other holds

theorem Lifecycle.Ready.thread_step (ready : state.Ready) {self : Nat} {env : StepEnv World}
    {output : PassOutput} (short : env.recv.Short)
    (taken : state.threadStep platform self env = .ok (next, output)) : next.Ready := by
  obtain ⟨created, _, ⟨heap, rfl⟩ | ⟨thread, shared, step, rfl⟩⟩ :=
    Lifecycle.threadStep_cases taken
  · exact ⟨ready.tame, ready.holder, ready.begun⟩
  · exact ready.thread_taken short created step

theorem Lifecycle.Ready.step (ready : state.Ready) (sound : state.Sound count)
    {action : LifecycleAction World} {output : PassOutput} (creates : action.Creates)
    (short : action.Short) (taken : state.step platform action = .ok (next, output)) :
    next.Ready ∧ ∃ later, next.Sound later := by
  cases action with
  | signal signalNo =>
      have same : next = state.signalHandler signalNo := by
        cases taken
        rfl
      rw [same]
      refine ⟨?_, count, sound.signal signalNo⟩
      cases signalNo with
      | sigterm => exact ⟨ready.tame, ready.holder, ready.begun⟩
      | sigint => exact ⟨ready.tame, ready.holder, ready.begun⟩
  | main env =>
      simp only [Lifecycle.step] at taken
      rcases sound.mainStep creates with
        ⟨other, later, stepped, soundNext, more⟩ | waits | ⟨_, ended⟩
      · rw [stepped] at taken
        cases taken
        refine ⟨ready.main_step (Lifecycle.mainStep_frame stepped) ?_, later, soundNext⟩
        intro self member
        rw [sound.created] at member
        rw [soundNext.created]
        exact List.mem_range.mpr (Nat.lt_of_lt_of_le (List.mem_range.mp member) more)
      · rw [waits] at taken
        cases taken
      · rw [ended] at taken
        cases taken
  | thread self env =>
      simp only [Lifecycle.step] at taken
      refine ⟨ready.thread_step short taken, count, ?_⟩
      rcases sound.threadStep platform self env with
        ⟨other, printed, stepped, soundNext⟩ | ⟨refusal, refused⟩ | absent
      · rw [stepped] at taken
        cases taken
        exact soundNext
      · rw [refused] at taken
        cases taken
      · rw [absent] at taken
        cases taken

theorem LifecycleRun.ready {file : World} {steps : List (LifecycleStep World)}
    (run : LifecycleRun platform file steps state)
    (creates : ∀ taken, taken ∈ steps → taken.label.1.Creates)
    (short : ∀ taken, taken ∈ steps → taken.label.1.Short) :
    state.Ready ∧ ∃ count, state.Sound count := by
  induction run with
  | start => exact ⟨.start file, 0, .start file⟩
  | @extend steps current next label earlier stepped ih =>
      obtain ⟨ready, count, sound⟩ := ih
        (fun taken member => creates taken (List.mem_append_left _ member))
        (fun taken member => short taken (List.mem_append_left _ member))
      have last : (⟨current, label, next⟩ : LifecycleStep World) ∈
          steps ++ [⟨current, label, next⟩] :=
        List.mem_append_right _ (List.mem_singleton_self _)
      exact ready.step sound (creates _ last) (short _ last) stepped

theorem LifecycleRun.signal_stays {file : World} {steps : List (LifecycleStep World)}
    (run : LifecycleRun platform file steps state) :
    (∃ taken signalNo, taken ∈ steps ∧ taken.label.1 = .signal signalNo) →
      state.sigTermFlag = true ∨ state.sigIntFlag = true := by
  induction run with
  | start =>
      rintro ⟨taken, _, member, _⟩
      cases member
  | @extend steps current next label earlier stepped ih =>
      rintro ⟨taken, signalNo, member, acts⟩
      obtain ⟨action, output⟩ := label
      have before : action ≠ .signal signalNo →
          current.sigTermFlag = true ∨ current.sigIntFlag = true := by
        intro other
        rcases List.mem_append.mp member with old | new
        · exact ih ⟨taken, signalNo, old, acts⟩
        · rw [List.mem_singleton.mp new] at acts
          exact absurd acts other
      cases action with
      | signal number =>
          cases stepped
          cases number with
          | sigterm => exact .inl rfl
          | sigint => exact .inr rfl
      | main env =>
          have raised := before (by intro same; cases same)
          simp only [Succeeds, Lifecycle.step] at stepped
          cases outcome : current.mainStep env with
          | error fault =>
              rw [outcome] at stepped
              cases stepped
          | ok after =>
              rw [outcome] at stepped
              cases stepped
              exact (Lifecycle.mainStep_frame outcome).signalled raised
      | thread self env =>
          have raised := before (by intro same; cases same)
          obtain ⟨_, _, ⟨_, rfl⟩ | ⟨_, _, _, rfl⟩⟩ := Lifecycle.threadStep_cases stepped
          · exact raised
          · exact raised

end

/-! ### Going on without the clients -/

/-- Main gets no new client, and the threads no more messages. -/
def LifecycleAction.Unaided (calls : FileOps World) (action : LifecycleAction World) : Prop :=
  action = .main noClient ∨ ∃ self, action = .thread self (leftEnv calls)

def Lifecycle.ComesTo (platform : Platform) (calls : FileOps World)
    (state last : Lifecycle World) : Prop :=
  ∃ more, Run (Succeeds (Lifecycle.step platform)) state more last ∧
    ∀ taken, taken ∈ more → taken.label.1.Unaided calls

section

variable {platform : Platform} {calls : FileOps World} {state next last : Lifecycle World}

theorem Lifecycle.ComesTo.refl (platform : Platform) (calls : FileOps World)
    (state : Lifecycle World) : state.ComesTo platform calls state :=
  ⟨[], .start, by intro taken member; cases member⟩

theorem Lifecycle.ComesTo.trans (first : state.ComesTo platform calls next)
    (second : next.ComesTo platform calls last) : state.ComesTo platform calls last := by
  obtain ⟨steps, run, unaided⟩ := first
  obtain ⟨more, later, unaidedLater⟩ := second
  refine ⟨steps ++ more, run.append later, ?_⟩
  intro taken member
  rcases List.mem_append.mp member with old | new
  · exact unaided taken old
  · exact unaidedLater taken new

private theorem Lifecycle.ComesTo.step {action : LifecycleAction World} {output : PassOutput}
    (unaided : action.Unaided calls) (taken : state.step platform action = .ok (next, output)) :
    state.ComesTo platform calls next := by
  have stepped : Succeeds (Lifecycle.step platform) state (action, output) next := taken
  refine ⟨_, Run.start.extend stepped, ?_⟩
  intro other member
  rw [List.mem_singleton.mp member]
  exact unaided

theorem Lifecycle.ComesTo.main (platform : Platform) (calls : FileOps World)
    (taken : state.mainStep noClient = .ok next) : state.ComesTo platform calls next := by
  apply Lifecycle.ComesTo.step (.inl rfl)
  simp only [Lifecycle.step, taken]
  rfl

theorem Lifecycle.ComesTo.thread {self : Nat} {output : PassOutput}
    (taken : state.threadStep platform self (leftEnv calls) = .ok (next, output)) :
    state.ComesTo platform calls next :=
  Lifecycle.ComesTo.step (.inr ⟨self, rfl⟩) taken

end

theorem noClient_creates : 0 < noClient.accept → noClient.thread.Creates :=
  fun accepted => absurd accepted (by decide)

/-! ### The threads leave -/

structure Lifecycle.Draining (state : Lifecycle World) (count j : Nat) : Prop where
  sound : state.Sound count
  ready : state.Ready
  point : state.point = .joining j

section

variable {platform : Platform} {calls : FileOps World} {state : Lifecycle World} {count j : Nat}

private theorem Lifecycle.Draining.thread_goes (total : calls.Total) (platform : Platform)
    (draining : state.Draining count j) {self : Nat} (inside : self < count)
    (running : state.returned self = false)
    (mutex : state.process.shared.fileMutex = none ∨
      state.process.shared.fileMutex = some self) :
    ∃ next, state.ComesTo platform calls next ∧ next.Draining count j ∧
      ((next.returned = Function.update state.returned self true ∧
          next.process.shared.fileMutex = none) ∨
        (next.returned = state.returned ∧
          (next.process.threads self).point.stepsLeft <
            (state.process.threads self).point.stepsLeft ∧
          (next.process.shared.fileMutex = none ∨
            next.process.shared.fileMutex = some self))) := by
  obtain ⟨sound, ready, point⟩ := draining
  obtain ⟨_, raised⟩ := sound.joining j point
  have created : self ∈ state.main.registry.created := by
    rw [sound.created]
    exact List.mem_range.mpr inside
  have free : (state.process.threads self).point.holdsMutex = false →
      state.process.shared.fileMutex = none := by
    intro outside
    rcases mutex with unheld | mine
    · exact unheld
    · exact absurd (outside.symm.trans (ready.holder self mine)) (by decide)
  rcases sound.threadStep platform self (leftEnv calls) with
    ⟨next, output, taken, soundNext⟩ | ⟨refusal, refused⟩ | absent
  · have readyNext := ready.thread_step (show (leftEnv calls).recv.Short from trivial) taken
    refine ⟨next, .thread taken, ?_⟩
    obtain ⟨_, _, ⟨heap, rfl⟩ | ⟨thread, shared, step, rfl⟩⟩ := Lifecycle.threadStep_cases taken
    · refine ⟨⟨soundNext, readyNext, point⟩, .inl ⟨rfl, ?_⟩⟩
      apply free
      have finished := (soundNext.finished self (Function.update_self ..)).2
      change (state.process.threads self).point = .finished at finished
      rw [finished]
      rfl
    · refine ⟨⟨soundNext, readyNext, point⟩, .inr ⟨rfl, ?_, ?_⟩⟩
      · change ((state.process.withThread self thread shared).threads self).point.stepsLeft < _
        rw [Process.withThread_self]
        exact step.stepsLeft raised
      · change shared.fileMutex = none ∨ shared.fileMutex = some self
        rcases step.mutex with ⟨mine, _⟩ | unheld | ⟨kept, _⟩
        · exact .inr mine
        · exact .inl unheld
        · rw [kept]
          exact mutex
  · obtain ⟨notFinished, stepped⟩ := Lifecycle.threadStep_refused refused
    obtain ⟨result, goes⟩ := (ready.tame self).steps total platform self raised
      (fun wants => free (Point.outside_of_wantsMutex wants)) notFinished
    rw [stepped] at goes
    cases goes
  · exact absurd ⟨created, running⟩ (Lifecycle.threadStep_absent absent)

theorem Lifecycle.Draining.thread_leaves (total : calls.Total) (platform : Platform)
    {self : Nat} (inside : self < count) (left : Nat) :
    ∀ state : Lifecycle World, state.Draining count j → state.returned self = false →
      (state.process.shared.fileMutex = none ∨ state.process.shared.fileMutex = some self) →
      (state.process.threads self).point.stepsLeft ≤ left →
      ∃ last, state.ComesTo platform calls last ∧ last.Draining count j ∧
        last.returned = Function.update state.returned self true ∧
        last.process.shared.fileMutex = none := by
  -- induction on the steps that are left at most
  induction left with
  | zero =>
      intro state draining running mutex few
      obtain ⟨next, comes, drainingNext, ⟨returned, unheld⟩ | ⟨_, fewer, _⟩⟩ :=
        draining.thread_goes total platform inside running mutex
      · exact ⟨next, comes, drainingNext, returned, unheld⟩
      · omega
  | succ left ih =>
      intro state draining running mutex few
      obtain ⟨next, comes, drainingNext, ⟨returned, unheld⟩ | ⟨same, fewer, mutexNext⟩⟩ :=
        draining.thread_goes total platform inside running mutex
      · exact ⟨next, comes, drainingNext, returned, unheld⟩
      · obtain ⟨last, comesLast, drainingLast, returned, unheld⟩ := ih next drainingNext
          (by rw [same]; exact running) mutexNext (by omega)
        rw [same] at returned
        exact ⟨last, comes.trans comesLast, drainingLast, returned, unheld⟩

private theorem Lifecycle.Draining.mutex_freed (total : calls.Total) (platform : Platform)
    (draining : state.Draining count j) :
    ∃ last, state.ComesTo platform calls last ∧ last.Draining count j ∧
      last.process.shared.fileMutex = none := by
  cases mutex : state.process.shared.fileMutex with
  | none => exact ⟨state, .refl platform calls state, draining, mutex⟩
  | some holder =>
      have holds := draining.ready.holder holder mutex
      have member := draining.ready.begun holder holds
      rw [draining.sound.created] at member
      have running : state.returned holder = false := by
        apply Bool.eq_false_iff.mpr
        intro returned
        have finished := (draining.sound.finished holder returned).2
        rw [Thread.Holds, finished] at holds
        cases holds
      obtain ⟨last, comes, drainingLast, _, unheld⟩ := Lifecycle.Draining.thread_leaves total
        platform (List.mem_range.mp member) _ state draining running (.inr mutex) (Nat.le_refl _)
      exact ⟨last, comes, drainingLast, unheld⟩

private theorem Lifecycle.Draining.first_leave (total : calls.Total) (platform : Platform)
    (draining : state.Draining count j) (number : Nat) (most : number ≤ count) :
    ∃ last, state.ComesTo platform calls last ∧ last.Draining count j ∧
      last.process.shared.fileMutex = none ∧
      ∀ self, self < number → last.returned self = true := by
  induction number with
  | zero =>
      obtain ⟨last, comes, drainingLast, unheld⟩ := draining.mutex_freed total platform
      exact ⟨last, comes, drainingLast, unheld, by intro self below; cases below⟩
  | succ number ih =>
      obtain ⟨middle, comes, drainingMiddle, unheld, gone⟩ := ih (by omega)
      cases returned : middle.returned number with
      | true =>
          refine ⟨middle, comes, drainingMiddle, unheld, ?_⟩
          intro self below
          by_cases last : self = number
          · rw [last]
            exact returned
          · exact gone self (by omega)
      | false =>
          obtain ⟨last, comesLast, drainingLast, returnedLast, unheldLast⟩ :=
            Lifecycle.Draining.thread_leaves total platform (show number < count by omega) _ middle
              drainingMiddle returned (.inl unheld) (Nat.le_refl _)
          refine ⟨last, comes.trans comesLast, drainingLast, unheldLast, ?_⟩
          intro self below
          rw [returnedLast]
          by_cases own : self = number
          · rw [own, Function.update_self]
          · rw [Function.update_of_ne own]
            exact gone self (by omega)

/-! ### Main comes to its end -/

private theorem Lifecycle.Draining.joins_all (platform : Platform) (calls : FileOps World)
    (remaining : Nat) :
    ∀ (state : Lifecycle World) (j : Nat), state.Draining count j → j + remaining = count + 1 →
      (∀ self, self < count → state.returned self = true) →
      ∃ last, state.ComesTo platform calls last ∧ last.Sound count ∧ last.point = .resetting := by
  induction remaining with
  | zero =>
      intro state j draining all gone
      have counter := (draining.sound.registered
        (by rw [draining.point]; intro ended; cases ended)).counter
      have taken : state.mainStep noClient = .ok { state with point := .resetting } := by
        unfold Lifecycle.mainStep
        simp only [draining.point]
        rw [if_neg (by omega)]
      rcases draining.sound.joins draining.point noClient with ⟨next, stepped, soundNext⟩ | waits
      · rw [taken] at stepped
        cases stepped
        exact ⟨_, .main platform calls taken, soundNext, rfl⟩
      · rw [taken] at waits
        cases waits
  | succ remaining ih =>
      intro state j draining all gone
      have exact := draining.sound.registered
        (by rw [draining.point]; intro ended; cases ended)
      have counter := exact.counter
      obtain ⟨positive, _⟩ := draining.sound.joining j draining.point
      have known := exact.ids (j - 1) (by omega)
      rw [Nat.sub_add_cancel positive] at known
      have taken : state.mainStep noClient = .ok { state with point := .joining (j + 1) } := by
        unfold Lifecycle.mainStep
        simp only [draining.point, known]
        rw [if_pos (by omega), if_pos (gone (j - 1) (by omega))]
      rcases draining.sound.joins draining.point noClient with ⟨next, stepped, soundNext⟩ | waits
      · rw [taken] at stepped
        cases stepped
        have readyNext : ({ state with point := .joining (j + 1) } : Lifecycle World).Ready :=
          ⟨draining.ready.tame, draining.ready.holder, draining.ready.begun⟩
        obtain ⟨last, comes, soundLast, resetting⟩ := ih _ (j + 1) ⟨soundNext, readyNext, rfl⟩
          (by omega) gone
        exact ⟨last, (Lifecycle.ComesTo.main platform calls taken).trans comes, soundLast,
          resetting⟩
      · rw [taken] at waits
        cases waits

private theorem Lifecycle.Sound.ends_after_joins (platform : Platform) (calls : FileOps World)
    (sound : state.Sound count) (point : state.point = .resetting ∨ state.point = .returning ∨
      state.point = .ended) :
    ∃ last, state.ComesTo platform calls last ∧ last.Sound count ∧ last.point = .ended := by
  have returns : ∀ {state : Lifecycle World}, state.Sound count → state.point = .returning →
      ∃ last, state.ComesTo platform calls last ∧ last.Sound count ∧ last.point = .ended := by
    intro state sound returning
    obtain ⟨last, taken, soundLast⟩ := sound.returns returning noClient
    refine ⟨last, .main platform calls taken, soundLast, ?_⟩
    unfold Lifecycle.mainStep at taken
    simp only [returning] at taken
    split at taken
    · cases taken
    · cases taken
      rfl
  rcases point with resetting | returning | ended
  · obtain ⟨next, taken, soundNext⟩ := sound.resets resetting noClient
    have returning : next.point = .returning := by
      unfold Lifecycle.mainStep at taken
      simp only [resetting] at taken
      cases taken
      rfl
    obtain ⟨last, comes, soundLast, atEnd⟩ := returns soundNext returning
    exact ⟨last, (Lifecycle.ComesTo.main platform calls taken).trans comes, soundLast, atEnd⟩
  · exact returns sound returning
  · exact ⟨state, .refl platform calls state, sound, ended⟩

private theorem Lifecycle.Draining.ends (total : calls.Total) (platform : Platform)
    (draining : state.Draining count j) :
    ∃ last, state.ComesTo platform calls last ∧ last.Sound count ∧ last.point = .ended := by
  obtain ⟨drained, comes, drainingLast, _, gone⟩ := draining.first_leave total platform count
    (Nat.le_refl _)
  have within := drainingLast.sound.within
  obtain ⟨positive, _⟩ := drainingLast.sound.joining j drainingLast.point
  rw [drainingLast.point] at within
  change j - 1 ≤ count at within
  obtain ⟨joined, comesJoined, soundJoined, resetting⟩ := Lifecycle.Draining.joins_all platform
    calls (count + 1 - j) drained j drainingLast (by omega) gone
  obtain ⟨last, comesLast, soundLast, atEnd⟩ := soundJoined.ends_after_joins platform calls
    (.inl resetting)
  exact ⟨last, (comes.trans comesJoined).trans comesLast, soundLast, atEnd⟩

private theorem Lifecycle.Ready.reaches_joins (platform : Platform) (calls : FileOps World)
    (ready : state.Ready) (sound : state.Sound count) (checking : state.point = .checking)
    (signalled : state.sigTermFlag = true ∨ state.sigIntFlag = true) :
    ∃ next, state.ComesTo platform calls next ∧ next.Draining count 1 := by
  obtain ⟨next, taken, soundNext⟩ := sound.checks checking noClient
  have frame := Lifecycle.mainStep_frame taken
  refine ⟨next, .main platform calls taken, soundNext, ready.main_step frame ?_, ?_⟩
  · intro self member
    rw [soundNext.created, ← sound.created]
    exact member
  · unfold Lifecycle.mainStep at taken
    simp only [checking] at taken
    split at taken
    · cases taken
      rfl
    · rename_i notTerm
      rw [if_pos (signalled.resolve_left notTerm)] at taken
      cases taken
      rfl

private theorem Lifecycle.Ready.ends (total : calls.Total) (platform : Platform)
    (ready : state.Ready) (sound : state.Sound count)
    (signalled : state.sigTermFlag = true ∨ state.sigIntFlag = true) :
    ∃ last, state.ComesTo platform calls last ∧ (∃ count, last.Sound count) ∧
      last.point = .ended := by
  have fromChecking : ∀ {state : Lifecycle World} {count : Nat}, state.Ready → state.Sound count →
      state.point = .checking → (state.sigTermFlag = true ∨ state.sigIntFlag = true) →
      ∃ last, state.ComesTo platform calls last ∧ (∃ count, last.Sound count) ∧
        last.point = .ended := by
    intro state count ready sound checking signalled
    obtain ⟨next, comes, draining⟩ := ready.reaches_joins platform calls sound checking signalled
    obtain ⟨last, comesLast, soundLast, atEnd⟩ := draining.ends total platform
    exact ⟨last, comes.trans comesLast, ⟨_, soundLast⟩, atEnd⟩
  cases point : state.point with
  | checking => exact fromChecking ready sound point signalled
  | accepting =>
      obtain ⟨next, later, taken, soundNext, more⟩ := sound.accepts point noClient_creates
      have frame := Lifecycle.mainStep_frame taken
      have readyNext : next.Ready := by
        apply ready.main_step frame
        intro self member
        rw [sound.created] at member
        rw [soundNext.created]
        exact List.mem_range.mpr (Nat.lt_of_lt_of_le (List.mem_range.mp member) more)
      have checking : next.point = .checking := by
        unfold Lifecycle.mainStep at taken
        simp only [point] at taken
        split at taken
        · cases taken
        · cases taken
          rfl
      obtain ⟨last, comes, soundLast, atEnd⟩ := fromChecking readyNext soundNext checking
        (frame.signalled signalled)
      exact ⟨last, (Lifecycle.ComesTo.main platform calls taken).trans comes, soundLast, atEnd⟩
  | joining j =>
      obtain ⟨last, comes, soundLast, atEnd⟩ :=
        Lifecycle.Draining.ends total platform ⟨sound, ready, point⟩
      exact ⟨last, comes, ⟨_, soundLast⟩, atEnd⟩
  | resetting =>
      obtain ⟨last, comes, soundLast, atEnd⟩ := sound.ends_after_joins platform calls (.inl point)
      exact ⟨last, comes, ⟨_, soundLast⟩, atEnd⟩
  | returning =>
      obtain ⟨last, comes, soundLast, atEnd⟩ := sound.ends_after_joins platform calls
        (.inr (.inl point))
      exact ⟨last, comes, ⟨_, soundLast⟩, atEnd⟩
  | ended => exact ⟨state, .refl platform calls state, ⟨_, sound⟩, point⟩

end

/-- After a signal, from whatever state the process is in, it can come to its end
with nothing more from outside than that `accept`, `recv` and `send` return: main
joins every thread, and the arguments and message buffers of all are given back.
Messages short enough for the buffer are assumed, and file functions that answer. -/
theorem shutdown_completes (platform : Platform) (file : World) (steps : List (LifecycleStep World))
    (final : Lifecycle World) (run : LifecycleRun platform file steps final)
    (creates : ∀ taken, taken ∈ steps → taken.label.1.Creates)
    (short : ∀ taken, taken ∈ steps → taken.label.1.Short)
    (signalled : ∃ taken signalNo, taken ∈ steps ∧ taken.label.1 = .signal signalNo)
    (calls : FileOps World) (total : calls.Total) :
    ∃ last, final.ComesTo platform calls last ∧ last.point = .ended ∧
      (∀ self, self ∈ last.main.registry.created → last.returned self = true) ∧
      ∀ block, ¬last.main.registry.heap.Live block := by
  obtain ⟨ready, count, sound⟩ := run.ready creates short
  obtain ⟨last, comes, ⟨number, soundLast⟩, atEnd⟩ := ready.ends total platform sound
    (run.signal_stays signalled)
  refine ⟨last, comes, atEnd, ?_, soundLast.freed atEnd⟩
  intro self member
  rw [soundLast.created] at member
  have inside := List.mem_range.mp member
  exact soundLast.joined self inside (by rw [atEnd]; exact inside)

theorem plainFile_total : plainFile.Total where
  fopen := fun _ => ⟨_, rfl⟩
  fwrite := fun _ _ => ⟨_, rfl⟩
  fread := fun _ => ⟨_, _, rfl⟩
  fclose := fun _ => ⟨_, rfl⟩

/-- One thread is in the file, one wants the mutex, and main waits for a client when
the signal comes. -/
theorem shutdown_completes_two_threads :
    ∃ steps final last, LifecycleRun x86 ([] : List UInt8) steps final ∧
      final.process.shared.fileMutex = some 0 ∧ (final.process.threads 1).point = .locking ∧
      final.point = .accepting ∧ final.ComesTo x86 plainFile last ∧ last.point = .ended ∧
      ∀ block, ¬last.main.registry.heap.Live block := by
  obtain ⟨steps, final, run, seen⟩ := execute_observe (Lifecycle.step x86) (.start [])
    (List.replicate 5 (.main servedClient) ++ [0, 0, 0, 1, 1, 0].map nextThreadStep ++
      [.signal .sigint])
    (fun steps final => decide (
      (∀ taken, taken ∈ steps → taken.label.1.Creates) ∧
      (∀ taken, taken ∈ steps → taken.label.1.Short) ∧
      final.process.shared.fileMutex = some 0 ∧ (final.process.threads 1).point = .locking ∧
      final.point = .accepting ∧ final.sigIntFlag = true))
    true (by decide +kernel)
  obtain ⟨creates, short, mutex, wants, accepting, flag⟩ := of_decide_eq_true seen
  obtain ⟨last, comes, ended, _, empty⟩ := shutdown_completes x86 [] steps final run creates short
    (LifecycleRun.signal_came run (.inr flag)) plainFile plainFile_total
  exact ⟨steps, final, last, run, mutex, wants, accepting, comes, ended, empty⟩

end Aesd.Server
