/-
A server thread and the call that creates it.

`initServerThread` passes the new thread a pointer to its arguments with
`pthread_create` and stores the file mutex in them afterwards.  From then on
the rest of the call and the thread, from its first `memset` on, take steps in
any order, and between any two of them the other threads and the signal
handler may change what is shared.

Every step of the thread that calls a mutex function reads the field
`fileMutex` of its arguments.
-/

import Aesd.Library.Execution
import Aesd.Server.FileMutex
import Aesd.Server.ThreadRegistry

namespace Aesd.Server

open BlockHeap
open CharBuffer
open Execution
open Mutex

/-! ### The steps of the call -/

/-- What `initServerThread` does next. -/
inductive InitPoint where
  | allocating
  | settingFields
  | creating
  | storing
  | counting
  | returned (threadId : Option Nat)
deriving DecidableEq

structure InitCall where
  commSocket : Int
  msgLen : Nat
  fileMutex : Nat

/-- The created thread: at its first `memset`, in its loop, or past the use of
a pointer that is not the mutex, of which nothing can be said. -/
inductive NewThread where
  | absent
  | starting (self : Nat) (args : Pointer)
  | running (self : Nat) (args : Pointer) (thread : Thread)
  | astray

inductive StartFault where
  | registry (fault : RegistryFault)
  | thread (refusal : Refusal)
  | idle
deriving DecidableEq

/-- `pThreadArgs[numOfThreads]`. -/
def Registry.slot (registry : Registry) : Pointer :=
  registry.pThreadArgs registry.numOfThreads

def Registry.withSlot (registry : Registry) (slot : Pointer) (heap : ServerHeap) : Registry :=
  { registry with
    heap := heap
    pThreadArgs := Function.update registry.pThreadArgs registry.numOfThreads slot }

theorem Registry.withSlot_slot (registry : Registry) (slot : Pointer) (heap : ServerHeap) :
    (registry.withSlot slot heap).slot = slot :=
  Function.update_self ..

/-- The fields that are set before `pthread_create`. -/
def InitCall.fields (call : InitCall) (msg : Pointer) : ThreadArgs :=
  { isComplete := false
    socketfd := call.commSocket
    msgLen := call.msgLen
    msg := msg
    threadId := none
    fileMutex := none }

/-- Writing through a `struct thread_args *`. -/
def storeArgs (heap : ServerHeap) (change : ThreadArgs → ThreadArgs) :
    Pointer → Except RegistryFault ServerHeap
  | .block identifier =>
      match heap.cell identifier with
      | some (.threadArgs args) =>
          .ok (heap.modify identifier fun _ => .threadArgs (change args))
      | _ => .error .badAccess
  | _ => .error .badAccess

def InitCall.step (call : InitCall) (env : InitThreadEnv) (registry : Registry) :
    InitPoint → Except StartFault (InitPoint × Registry × Option NewThread)
  | .allocating =>
      if threadMax ≤ registry.numOfThreads then .ok (.returned none, registry, none)
      else
        let (slot, heap) := malloc env.argsGranted .fresh registry.heap
        .ok (.settingFields, registry.withSlot slot heap, none)
  | .settingFields =>
      match registry.slot with
      | .block block =>
          let (msg, heap) := malloc env.msgGranted (.msg call.msgLen) registry.heap
          let heap := heap.modify block fun _ => .threadArgs (call.fields msg)
          if msg = .null then
            -- `memset` comes before the check of `msg`
            if 0 < call.msgLen then .error (.registry .badAccess)
            else .ok (.returned none, { registry with heap := heap }, none)
          else .ok (.creating, { registry with heap := heap }, none)
      | _ => .error (.registry .badAccess)
  | .creating =>
      if env.pthreadCreate = 0 then
        let threadId := registry.created.length
        match storeArgs registry.heap (fun args => { args with threadId := some threadId })
            registry.slot with
        | .error fault => .error (.registry fault)
        | .ok heap =>
            .ok (.storing,
              { registry with heap := heap, created := registry.created ++ [threadId] },
              some (.starting threadId registry.slot))
      else .ok (.returned none, registry, none)
  | .storing =>
      match storeArgs registry.heap (fun args => { args with fileMutex := some call.fileMutex })
          registry.slot with
      | .error fault => .error (.registry fault)
      | .ok heap => .ok (.counting, { registry with heap := heap }, none)
  | .counting =>
      match loadArgs registry.heap registry.slot with
      | .error fault => .error (.registry fault)
      | .ok args =>
          .ok (.returned args.threadId,
            { registry with numOfThreads := registry.numOfThreads + 1 }, none)
  | .returned _ => .error .idle

/-! ### The steps of the thread -/

/-- The call takes `pThreadArgs->fileMutex` as its argument. -/
def Point.usesMutex : Point → Bool
  | .locking | .lockRetry | .unlocking | .unlockRetry | .leaving => true
  | _ => false

def NewThread.usesMutex : NewThread → Bool
  | .running _ _ thread => thread.point.usesMutex
  | _ => false

variable {World : Type}

def Thread.proceed (platform : Platform) (self : Nat) (args : Pointer) (env : StepEnv World)
    (thread : Thread) (shared : Shared World) (read : Option (Option Nat)) :
    Except StartFault (NewThread × Shared World × Option (Option Nat)) :=
  match thread.step Kind.normal platform self env shared with
  | .error refusal => .error (.thread refusal)
  | .ok (thread, shared, _) => .ok (.running self args thread, shared, read)

/-- The last component is what the step read from the field `fileMutex`, if it
read it. -/
def NewThread.step (platform : Platform) (fileMutex : Nat) (env : StepEnv World)
    (heap : ServerHeap) (shared : Shared World) :
    NewThread → Except StartFault (NewThread × Shared World × Option (Option Nat))
  | .absent => .error .idle
  | .astray => .error .idle
  | .starting self args =>
      match loadArgs heap args with
      | .error fault => .error (.registry fault)
      | .ok fields =>
          .ok (.running self args
            { point := .top, state := { ThreadState.start with msg := .zeroed fields.msgLen } },
            shared, none)
  | .running self args thread =>
      if thread.point.usesMutex then
        match loadArgs heap args with
        | .error fault => .error (.registry fault)
        | .ok fields =>
            if fields.fileMutex = some fileMutex then
              thread.proceed platform self args env shared (some fields.fileMutex)
            else .ok (.astray, shared, some fields.fileMutex)
      else thread.proceed platform self args env shared none

/-! ### Both together -/

structure Startup (World : Type) where
  point : InitPoint
  registry : Registry
  thread : NewThread
  shared : Shared World

inductive StartAction (World : Type) where
  | creator (env : InitThreadEnv)
  | thread (env : StepEnv World)
  | others (shared : Shared World)

def StartAction.isThread : StartAction World → Bool
  | .thread _ => true
  | _ => false

def Startup.step (platform : Platform) (call : InitCall) (state : Startup World) :
    StartAction World → Except StartFault (Startup World × Option (Option Nat))
  | .creator env =>
      match call.step env state.registry state.point with
      | .error fault => .error fault
      | .ok (point, registry, created) =>
          .ok ({ state with
                 point := point
                 registry := registry
                 thread := created.getD state.thread }, none)
  | .thread env =>
      match state.thread.step platform call.fileMutex env state.registry.heap state.shared with
      | .error fault => .error fault
      | .ok (thread, shared, read) => .ok ({ state with thread := thread, shared := shared }, read)
  | .others shared => .ok ({ state with shared := shared }, none)

def Startup.start (registry : Registry) (shared : Shared World) : Startup World :=
  { point := .allocating, registry := registry, thread := .absent, shared := shared }

abbrev StartupStep (World : Type) :=
  Transition (Startup World) (StartAction World × Option (Option Nat))

abbrev StartupRun (platform : Platform) (call : InitCall) (registry : Registry)
    (shared : Shared World) : List (StartupStep World) → Startup World → Prop :=
  Run (Succeeds (Startup.step platform call)) (.start registry shared)

/-! ### The call without interruption -/

section

variable {platform : Platform} {call : InitCall} {env : InitThreadEnv} {registry after : Registry}
  {result : Option Nat}

private theorem creator_step {point next : InitPoint} {created : Option NewThread}
    (platform : Platform) (thread : NewThread) (shared : Shared World)
    (taken : call.step env registry point = .ok (next, after, created)) :
    Succeeds (Startup.step platform call)
      { point := point, registry := registry, thread := thread, shared := shared }
      (.creator env, none)
      { point := next, registry := after, thread := created.getD thread, shared := shared } := by
  unfold Succeeds
  simp only [Startup.step, taken]

/-- After `malloc` of the arguments. -/
def Registry.allocated (registry : Registry) : Registry :=
  registry.withSlot (.block registry.heap.next) (registry.heap.allocate .fresh)

def Registry.withFields (registry : Registry) (call : InitCall) : Registry :=
  registry.withSlot (.block registry.heap.next)
    (((registry.heap.allocate .fresh).allocate (.msg call.msgLen)).modify registry.heap.next
      fun _ => .threadArgs (call.fields (.block (registry.heap.next + 1))))

private theorem step_full (call : InitCall) (env : InitThreadEnv)
    (full : threadMax ≤ registry.numOfThreads) :
    call.step env registry .allocating = .ok (.returned none, registry, none) := by
  simp only [InitCall.step, if_pos full]

private theorem step_allocates (call : InitCall) (room : ¬threadMax ≤ registry.numOfThreads)
    (granted : env.argsGranted = true) :
    call.step env registry .allocating = .ok (.settingFields, registry.allocated, none) := by
  simp only [InitCall.step, if_neg room, granted, malloc_granted]
  rfl

private theorem step_sets (call : InitCall) (registry : Registry)
    (granted : env.msgGranted = true) :
    call.step env registry.allocated .settingFields =
      .ok (.creating, registry.withFields call, none) := by
  simp only [InitCall.step, Registry.allocated, Registry.withSlot_slot, granted, malloc_granted]
  rfl

private theorem step_no_buffer (registry : Registry) (refused : env.msgGranted = false)
    (empty : ¬0 < call.msgLen) :
    call.step env registry.allocated .settingFields =
      .ok (.returned none,
        registry.withSlot (.block registry.heap.next)
          ((registry.heap.allocate .fresh).modify registry.heap.next
            fun _ => .threadArgs (call.fields .null)), none) := by
  simp only [InitCall.step, Registry.allocated, Registry.withSlot_slot, refused, malloc_refused,
    if_true, if_neg empty]
  rfl

private theorem step_not_created (call : InitCall) (registry : Registry)
    (refused : env.pthreadCreate ≠ 0) :
    call.step env registry .creating = .ok (.returned none, registry, none) := by
  simp only [InitCall.step, if_neg refused]

private theorem created_run (platform : Platform) (shared : Shared World) {block : Nat}
    {args : ThreadArgs} (slot : registry.slot = .block block)
    (found : registry.heap.cell block = some (.threadArgs args))
    (creates : env.pthreadCreate = 0) :
    ∃ steps thread, Run (Succeeds (Startup.step platform call))
      { point := .creating, registry := registry, thread := .absent, shared := shared } steps
      { point := .returned (some registry.created.length)
        registry :=
          { registry with
            heap := registry.heap.modify block fun _ => .threadArgs
              { args with
                threadId := some registry.created.length, fileMutex := some call.fileMutex }
            created := registry.created ++ [registry.created.length]
            numOfThreads := registry.numOfThreads + 1 }
        thread := thread
        shared := shared } := by
  have starts : call.step env registry .creating =
      .ok (.storing,
        { registry with
          heap := registry.heap.modify block fun _ => .threadArgs
            { args with threadId := some registry.created.length }
          created := registry.created ++ [registry.created.length] },
        some (.starting registry.created.length (.block block))) := by
    simp only [InitCall.step, if_pos creates, slot, storeArgs, found]
  have stores : call.step env
      { registry with
        heap := registry.heap.modify block fun _ => .threadArgs
          { args with threadId := some registry.created.length }
        created := registry.created ++ [registry.created.length] } .storing =
      .ok (.counting,
        { registry with
          heap := registry.heap.modify block fun _ => .threadArgs
            { args with
              threadId := some registry.created.length, fileMutex := some call.fileMutex }
          created := registry.created ++ [registry.created.length] }, none) := by
    unfold Registry.slot at slot
    simp only [InitCall.step, Registry.slot, slot, storeArgs, Heap.modify_cell, found, if_true,
      Option.map_some, Heap.modify_modify]
  have counts : call.step env
      { registry with
        heap := registry.heap.modify block fun _ => .threadArgs
          { args with
            threadId := some registry.created.length, fileMutex := some call.fileMutex }
        created := registry.created ++ [registry.created.length] } .counting =
      .ok (.returned (some registry.created.length),
        { registry with
          heap := registry.heap.modify block fun _ => .threadArgs
            { args with
              threadId := some registry.created.length, fileMutex := some call.fileMutex }
          created := registry.created ++ [registry.created.length]
          numOfThreads := registry.numOfThreads + 1 }, none) := by
    unfold Registry.slot at slot
    simp only [InitCall.step, Registry.slot, slot, loadArgs, Heap.modify_cell, found, if_true,
      Option.map_some]
  exact ⟨_, _, ((Run.start.extend (creator_step platform .absent shared starts)).extend
    (creator_step platform _ shared stores)).extend (creator_step platform _ shared counts)⟩

/-- The steps of the call one after another are the call. -/
theorem initServerThread_run (platform : Platform) (shared : Shared World)
    (returned : initServerThread env call.commSocket call.msgLen call.fileMutex registry =
      .ok (after, result)) :
    ∃ steps thread, StartupRun platform call registry shared steps
      { point := .returned result, registry := after, thread := thread, shared := shared } := by
  unfold initServerThread at returned
  by_cases full : threadMax ≤ registry.numOfThreads
  · rw [if_pos full] at returned
    cases returned
    exact ⟨_, _, Run.start.extend
      (creator_step platform .absent shared (step_full call env full))⟩
  · rw [if_neg full] at returned
    cases argsGranted : env.argsGranted with
    | false =>
        simp only [argsGranted, malloc_refused] at returned
        cases returned
    | true =>
        have allocated := Run.start.extend
          (creator_step platform .absent shared (step_allocates call full argsGranted))
        simp only [argsGranted, malloc_granted] at returned
        cases msgGranted : env.msgGranted with
        | false =>
            simp only [msgGranted, malloc_refused, if_true] at returned
            by_cases long : 0 < call.msgLen
            · rw [if_pos long] at returned
              cases returned
            · rw [if_neg long] at returned
              cases returned
              exact ⟨_, _, allocated.extend
                (creator_step platform .absent shared (step_no_buffer registry msgGranted long))⟩
        | true =>
            have set := allocated.extend
              (creator_step platform .absent shared (step_sets call registry msgGranted))
            simp only [msgGranted, malloc_granted] at returned
            by_cases creates : env.pthreadCreate = 0
            · rw [if_pos creates] at returned
              cases returned
              have found : (registry.withFields call).heap.cell registry.heap.next =
                  some (.threadArgs (call.fields (.block (registry.heap.next + 1)))) := by
                simp [Registry.withFields, Registry.withSlot]
              obtain ⟨steps, thread, rest⟩ := created_run platform shared
                (Registry.withSlot_slot registry _ _) found creates
              exact ⟨_, thread, set.append rest⟩
            · rw [if_neg creates] at returned
              cases returned
              exact ⟨_, _, set.extend
                (creator_step platform .absent shared (step_not_created call _ creates))⟩

end

/-! ### What the field holds -/

def NewThread.Given (block : Nat) : NewThread → Prop
  | .starting _ args => args = .block block
  | .running _ args _ => args = .block block
  | _ => True

structure NewThread.Finds (thread : NewThread) (heap : ServerHeap) (block : Nat)
    (fileMutex : Option Nat) : Prop where
  given : thread.Given block
  finds : ∃ args, heap.cell block = some (.threadArgs args) ∧ args.fileMutex = fileMutex

/-- The thread exists from `pthread_create` on, and its arguments have the mutex
from the store on. -/
def Startup.Follows (fileMutex : Nat) (state : Startup World) : Prop :=
  match state.point with
  | .allocating => state.thread = .absent
  | .settingFields => state.thread = .absent ∧
      ∀ block, state.registry.slot = .block block → state.registry.heap.Live block
  | .creating => state.thread = .absent ∧
      ∃ block, state.registry.slot = .block block ∧
        state.thread.Finds state.registry.heap block none
  | .storing => ∃ block, state.registry.slot = .block block ∧
      state.thread.Finds state.registry.heap block none
  | .counting => ∃ block, state.thread.Finds state.registry.heap block (some fileMutex)
  | .returned _ => state.thread = .absent ∨
      ∃ block, state.thread.Finds state.registry.heap block (some fileMutex)

def InitPoint.stored : InitPoint → Bool
  | .counting | .returned _ => true
  | _ => false

section

variable {platform : Platform} {call : InitCall} {state after : Startup World}

theorem Startup.Follows.exists {fileMutex : Nat} (follows : state.Follows fileMutex) :
    state.thread = .absent ∨ ∃ block, state.thread.Given block ∧
      ∃ args, state.registry.heap.cell block = some (.threadArgs args) := by
  obtain ⟨point, registry, thread, shared⟩ := state
  cases point with
  | allocating => exact Or.inl follows
  | settingFields => exact Or.inl follows.1
  | creating => exact Or.inl follows.1
  | storing =>
      obtain ⟨block, _, given, args, found, _⟩ := follows
      exact Or.inr ⟨block, given, args, found⟩
  | counting =>
      obtain ⟨block, given, args, found, _⟩ := follows
      exact Or.inr ⟨block, given, args, found⟩
  | returned threadId =>
      rcases follows with absent | ⟨block, given, args, found, _⟩
      · exact Or.inl absent
      · exact Or.inr ⟨block, given, args, found⟩

theorem storeArgs_ok {heap next : ServerHeap} {change : ThreadArgs → ThreadArgs}
    {pointer : Pointer} (stored : storeArgs heap change pointer = .ok next) :
    ∃ block args, pointer = .block block ∧ heap.cell block = some (.threadArgs args) ∧
      next.cell block = some (.threadArgs (change args)) := by
  unfold storeArgs at stored
  split at stored
  · rename_i block
    split at stored
    · rename_i args found
      cases stored
      exact ⟨block, args, rfl, found, by simp [found]⟩
    · cases stored
  · cases stored

theorem malloc_live {granted : Bool} {contents : ServerCell} {heap : ServerHeap} {block : Nat}
    (live : heap.Live block) : (malloc granted contents heap).2.Live block := by
  cases granted with
  | false => exact live
  | true => exact Heap.allocate_live live contents

theorem malloc_block {granted : Bool} {contents : ServerCell} {heap : ServerHeap} {block : Nat}
    (handed : (malloc granted contents heap).1 = .block block) :
    (malloc granted contents heap).2.Live block := by
  cases granted with
  | false => cases handed
  | true =>
      cases handed
      simp [Heap.Live]

theorem Startup.Follows.creator {env : InitThreadEnv} {read : Option (Option Nat)}
    (follows : state.Follows call.fileMutex)
    (taken : Startup.step platform call state (.creator env) = .ok (after, read)) :
    read = none ∧ after.Follows call.fileMutex := by
  obtain ⟨point, registry, thread, shared⟩ := state
  simp only [Startup.step] at taken
  split at taken
  · cases taken
  rename_i next changed created made
  cases taken
  refine ⟨rfl, ?_⟩
  cases point with
  | allocating =>
      have absent : thread = .absent := follows
      simp only [InitCall.step] at made
      split at made
      · cases made
        exact Or.inl absent
      · cases made
        refine ⟨absent, ?_⟩
        intro block slot
        rw [Registry.withSlot_slot] at slot
        exact malloc_block slot
  | settingFields =>
      have absent : thread = .absent := follows.1
      have live : ∀ block, registry.slot = .block block → registry.heap.Live block := follows.2
      simp only [InitCall.step] at made
      split at made
      · rename_i block slot
        split at made
        · split at made
          · cases made
          · cases made
            exact Or.inl absent
        · cases made
          refine ⟨absent, block, slot, ⟨?_, ?_⟩⟩
          · simp only [Option.getD_none]
            rw [absent]
            trivial
          · have kept : (malloc env.msgGranted (.msg call.msgLen) registry.heap).2.Live block :=
              malloc_live (live block slot)
            obtain ⟨contents, found⟩ := Option.isSome_iff_exists.mp kept
            refine ⟨call.fields (malloc env.msgGranted (.msg call.msgLen) registry.heap).1, ?_, rfl⟩
            simp [found]
      · cases made
  | creating =>
      obtain ⟨absent, block, slot, holds⟩ := follows
      simp only [InitCall.step] at made
      split at made
      · split at made
        · cases made
        · rename_i heap stored
          cases made
          obtain ⟨target, args, pointer, found, written⟩ := storeArgs_ok stored
          cases slot.symm.trans pointer
          obtain ⟨_, old, oldFound, unset⟩ := holds
          cases oldFound.symm.trans found
          exact ⟨block, slot, ⟨slot, _, written, unset⟩⟩
      · cases made
        exact Or.inl absent
  | storing =>
      obtain ⟨block, slot, given, _⟩ := follows
      simp only [InitCall.step] at made
      split at made
      · cases made
      · rename_i heap stored
        cases made
        obtain ⟨target, args, pointer, found, written⟩ := storeArgs_ok stored
        cases slot.symm.trans pointer
        exact ⟨block, given, _, written, rfl⟩
  | counting =>
      simp only [InitCall.step] at made
      split at made
      · cases made
      · cases made
        obtain ⟨block, given, holds⟩ := follows
        exact Or.inr ⟨block, given, holds⟩
  | returned threadId => cases made

theorem Thread.proceed_ok {self : Nat} {args : Pointer} {env : StepEnv World} {thread : Thread}
    {shared next : Shared World} {given read : Option (Option Nat)} {newThread : NewThread}
    (taken : thread.proceed platform self args env shared given = .ok (newThread, next, read)) :
    read = given ∧ ∃ later, newThread = .running self args later := by
  unfold Thread.proceed at taken
  split at taken
  · cases taken
  · cases taken
    exact ⟨rfl, _, rfl⟩

/-- A step of the thread reads the field exactly when it calls a mutex function. -/
theorem NewThread.step_read {thread later : NewThread} {fileMutex block : Nat}
    {env : StepEnv World} {heap : ServerHeap} {shared next : Shared World}
    {read : Option (Option Nat)} {args : ThreadArgs} (given : thread.Given block)
    (found : heap.cell block = some (.threadArgs args))
    (taken : thread.step platform fileMutex env heap shared = .ok (later, next, read)) :
    read = (if thread.usesMutex then some args.fileMutex else none) ∧ later.Given block := by
  cases thread with
  | absent => cases taken
  | astray => cases taken
  | starting self pointer =>
      have same : pointer = .block block := given
      subst same
      simp only [NewThread.step, loadArgs, found] at taken
      cases taken
      exact ⟨rfl, rfl⟩
  | running self pointer thread =>
      have same : pointer = .block block := given
      subst same
      simp only [NewThread.step, loadArgs, found] at taken
      by_cases uses : thread.point.usesMutex = true
      · have reading : (NewThread.running self (.block block) thread).usesMutex = true := uses
        rw [if_pos uses] at taken
        rw [if_pos reading]
        split at taken
        · obtain ⟨reads, later, rfl⟩ := Thread.proceed_ok taken
          exact ⟨reads, rfl⟩
        · cases taken
          exact ⟨rfl, trivial⟩
      · have silent : ¬(NewThread.running self (.block block) thread).usesMutex = true := uses
        rw [if_neg uses] at taken
        rw [if_neg silent]
        obtain ⟨reads, later, rfl⟩ := Thread.proceed_ok taken
        exact ⟨reads, rfl⟩

theorem Thread.proceed_registry {self : Nat} {args : Pointer} {env : StepEnv World}
    {thread : Thread} {shared : Shared World} {read : Option (Option Nat)} (fault : RegistryFault) :
    thread.proceed platform self args env shared read ≠ .error (.registry fault) := by
  intro faulted
  unfold Thread.proceed at faulted
  split at faulted
  · cases faulted
  · cases faulted

theorem NewThread.step_finds {thread : NewThread} {fileMutex block : Nat} {env : StepEnv World}
    {heap : ServerHeap} {shared : Shared World} {args : ThreadArgs} (given : thread.Given block)
    (found : heap.cell block = some (.threadArgs args)) (fault : RegistryFault) :
    thread.step platform fileMutex env heap shared ≠ .error (.registry fault) := by
  intro faulted
  cases thread with
  | absent => cases faulted
  | astray => cases faulted
  | starting self pointer =>
      have same : pointer = .block block := given
      subst same
      simp only [NewThread.step, loadArgs, found] at faulted
      cases faulted
  | running self pointer thread =>
      have same : pointer = .block block := given
      subst same
      simp only [NewThread.step, loadArgs, found] at faulted
      split at faulted
      · split at faulted
        · exact Thread.proceed_registry fault faulted
        · cases faulted
      · exact Thread.proceed_registry fault faulted

theorem Startup.Follows.thread {env : StepEnv World} {read : Option (Option Nat)}
    (follows : state.Follows call.fileMutex)
    (taken : Startup.step platform call state (.thread env) = .ok (after, read)) :
    read = (if state.thread.usesMutex then
        some (if state.point.stored then some call.fileMutex else none) else none) ∧
      after.Follows call.fileMutex := by
  obtain ⟨point, registry, thread, shared⟩ := state
  simp only [Startup.step] at taken
  split at taken
  · cases taken
  rename_i later next value stepped
  cases taken
  have idle : thread ≠ .absent := by
    intro absent
    rw [absent] at stepped
    cases stepped
  cases point with
  | allocating => exact absurd follows idle
  | settingFields => exact absurd follows.1 idle
  | creating => exact absurd follows.1 idle
  | storing =>
      obtain ⟨block, slot, given, args, found, unset⟩ := follows
      obtain ⟨reads, kept⟩ := NewThread.step_read given found stepped
      rw [unset] at reads
      exact ⟨reads, block, slot, kept, args, found, unset⟩
  | counting =>
      obtain ⟨block, given, args, found, set⟩ := follows
      obtain ⟨reads, kept⟩ := NewThread.step_read given found stepped
      rw [set] at reads
      exact ⟨reads, block, kept, args, found, set⟩
  | returned threadId =>
      obtain ⟨block, given, args, found, set⟩ := follows.resolve_left idle
      obtain ⟨reads, kept⟩ := NewThread.step_read given found stepped
      rw [set] at reads
      exact ⟨reads, Or.inr ⟨block, kept, args, found, set⟩⟩

theorem Startup.Follows.others {shared : Shared World} {read : Option (Option Nat)}
    (follows : state.Follows call.fileMutex)
    (taken : Startup.step platform call state (.others shared) = .ok (after, read)) :
    read = none ∧ after.Follows call.fileMutex := by
  cases taken
  exact ⟨rfl, follows⟩

end

/-! ### Reads after the store -/

/-- If the step reads the field, it reads the mutex main has passed. -/
def ReadsGiven (call : InitCall) (taken : StartupStep World) : Prop :=
  ∀ value, taken.label.2 = some value → value = some call.fileMutex

/-- The thread does not call a mutex function before the creator's store. -/
def WaitsForStore (taken : StartupStep World) : Prop :=
  taken.label.1.isThread = true → taken.before.thread.usesMutex = true →
    taken.before.point.stored = true

def Recv.isClosed : Recv → Bool
  | .closed => true
  | _ => false

/-- A `recv` of the thread returns something other than 0, or its check of the flag
finds it set. -/
def Wakes (taken : StartupStep World) : Prop :=
  match taken.label.1, taken.before.thread with
  | .thread env, .running _ _ thread =>
      thread.point = .receiving ∧ env.recv.isClosed = false ∨
        thread.point = .top ∧ taken.before.shared.sigThreadTerminateFlag = true
  | _, _ => False

instance (taken : StartupStep World) : Decidable (Wakes taken) := by
  unfold Wakes
  split <;> infer_instance

/-- Once the thread has been woken, it takes no further step before the store. -/
def HeldBack (steps : List (StartupStep World)) : Prop :=
  steps.Pairwise fun earlier later =>
    Wakes earlier → later.label.1.isThread = true → later.before.point.stored = true

instance (steps : List (StartupStep World)) : Decidable (HeldBack steps) :=
  inferInstanceAs (Decidable (List.Pairwise _ _))

section

variable {platform : Platform} {call : InitCall} {registry : Registry} {shared : Shared World}
  {steps : List (StartupStep World)} {final : Startup World}

theorem Startup.Follows.step (taken : StartupStep World)
    (follows : taken.before.Follows call.fileMutex)
    (step : Succeeds (Startup.step platform call) taken.before taken.label taken.after) :
    (ReadsGiven call taken ↔ WaitsForStore taken) ∧ taken.after.Follows call.fileMutex := by
  obtain ⟨before, ⟨action, read⟩, after⟩ := taken
  unfold ReadsGiven WaitsForStore
  cases action with
  | creator env =>
      obtain ⟨rfl, kept⟩ := follows.creator step
      exact ⟨by simp [StartAction.isThread], kept⟩
  | others shared =>
      obtain ⟨rfl, kept⟩ := follows.others step
      exact ⟨by simp [StartAction.isThread], kept⟩
  | thread env =>
      have holds : before.Follows call.fileMutex := follows
      obtain ⟨rfl, kept⟩ := holds.thread step
      refine ⟨?_, kept⟩
      cases before.thread.usesMutex with
      | false => simp
      | true =>
          cases before.point.stored with
          | false => simp [StartAction.isThread]
          | true => simp

theorem Startup.follows_of_run (run : StartupRun platform call registry shared steps final) :
    final.Follows call.fileMutex := by
  have initially : (Startup.start registry shared).Follows call.fileMutex := rfl
  exact (run.throughout_of_allowed (fun _ => True) (fun state => state.Follows call.fileMutex)
    initially (fun taken follows _ step => (follows.step taken step).2) (fun _ _ => trivial)).1

/-- The pointer itself is good from the thread's first step on, and with it the
fields that are set before `pthread_create`. -/
theorem arguments_found (run : StartupRun platform call registry shared steps final)
    (env : StepEnv World) (fault : RegistryFault) :
    Startup.step platform call final (.thread env) ≠ .error (.registry fault) := by
  have holds := Startup.follows_of_run run
  intro faulted
  simp only [Startup.step] at faulted
  split at faulted
  · rename_i found stepped
    cases faulted
    rcases holds.exists with absent | ⟨block, given, args, cell⟩
    · rw [absent] at stepped
      cases stepped
    · exact NewThread.step_finds given cell fault stepped
  · cases faulted

theorem Startup.step_stored (taken : StartupStep World)
    (step : Succeeds (Startup.step platform call) taken.before taken.label taken.after)
    (stored : taken.before.point.stored = true) : taken.after.point.stored = true := by
  obtain ⟨before, ⟨action, read⟩, after⟩ := taken
  obtain ⟨point, registry, thread, shared⟩ := before
  unfold Succeeds at step
  cases action with
  | creator env =>
      simp only [Startup.step] at step
      split at step
      · cases step
      · rename_i made
        cases step
        cases point with
        | counting =>
            simp only [InitCall.step] at made
            split at made
            · cases made
            · cases made
              rfl
        | returned _ => cases made
        | allocating => cases stored
        | settingFields => cases stored
        | creating => cases stored
        | storing => cases stored
  | thread env =>
      simp only [Startup.step] at step
      split at step
      · cases step
      · cases step
        exact stored
  | others shared =>
      simp only [Startup.step] at step
      cases step
      exact stored

/-- The thread does not exist, or has not left the top of its loop. -/
def NewThread.early : NewThread → Bool
  | .absent | .starting _ _ => true
  | .running _ _ thread => thread.point == .top || thread.point == .receiving
  | .astray => false

/-- Before the store the thread is at a mutex function exactly when it has been
woken. -/
def Startup.Waits (woken : Prop) (state : Startup World) : Prop :=
  state.thread.early = true ∧ state.thread.usesMutex = false ∧ ¬woken ∨
    state.thread.early = false ∧ state.thread.usesMutex = true ∧ woken

theorem Startup.Waits.iff {woken : Prop} {state : Startup World} (waits : state.Waits woken) :
    state.thread.usesMutex = true ↔ woken := by
  rcases waits with ⟨_, silent, asleep⟩ | ⟨_, uses, awake⟩
  · simp [silent, asleep]
  · simp [uses, awake]

private theorem early_step {self : Nat} {args : Pointer} {thread : Thread} {env : StepEnv World}
    {before next : Shared World} {read given : Option (Option Nat)} {later : NewThread}
    (early : (NewThread.running self args thread).early = true)
    (taken : thread.proceed platform self args env before given = .ok (later, next, read)) :
    (later.early = true ∧ later.usesMutex = false ∧
        ¬(thread.point = .receiving ∧ env.recv.isClosed = false ∨
          thread.point = .top ∧ before.sigThreadTerminateFlag = true)) ∨
      later.early = false ∧ later.usesMutex = true ∧
        (thread.point = .receiving ∧ env.recv.isClosed = false ∨
          thread.point = .top ∧ before.sigThreadTerminateFlag = true) := by
  obtain ⟨point, state⟩ := thread
  unfold Thread.proceed at taken
  split at taken
  · cases taken
  · rename_i after reached output stepped
    cases taken
    have listed := Thread.step_taken stepped
    dsimp only at listed ⊢
    cases listed with
    | seesFlag raised => exact .inr ⟨rfl, rfl, .inr ⟨rfl, raised⟩⟩
    | continues lowered => exact .inl ⟨rfl, rfl, by simp [lowered]⟩
    | closed closed => exact .inl ⟨rfl, rfl, by simp [closed, Recv.isClosed]⟩
    | builds built =>
        refine .inr ⟨rfl, rfl, .inl ⟨rfl, ?_⟩⟩
        cases arrived : env.recv with
        | closed =>
            rw [arrived] at built
            cases built
        | error => rfl
        | message bytes fits => rfl
    | locks _ => cases early
    | retryLocks _ => cases early
    | opens _ => cases early
    | writes _ _ => cases early
    | reads _ => cases early
    | closes _ => cases early
    | unlocks => cases early
    | retryUnlocks => cases early
    | sends _ => cases early
    | finishes => cases early

theorem Startup.Follows.creator_thread {env : InitThreadEnv} {read : Option (Option Nat)}
    {state after : Startup World} (follows : state.Follows call.fileMutex)
    (taken : Startup.step platform call state (.creator env) = .ok (after, read)) :
    after.thread = state.thread ∨
      state.thread = .absent ∧ ∃ self args, after.thread = .starting self args := by
  obtain ⟨point, registry, thread, shared⟩ := state
  simp only [Startup.step] at taken
  split at taken
  · cases taken
  · rename_i next changed created made
    cases taken
    cases created with
    | none => exact .inl rfl
    | some newThread =>
        cases point with
        | creating =>
            refine .inr ⟨follows.1, ?_⟩
            simp only [InitCall.step] at made
            split at made
            · split at made
              · cases made
              · cases made
                exact ⟨_, _, rfl⟩
            · cases made
        | allocating =>
            simp only [InitCall.step] at made
            split at made
            · cases made
            · cases made
        | settingFields =>
            simp only [InitCall.step] at made
            split at made
            · split at made
              · split at made
                · cases made
                · cases made
              · cases made
            · cases made
        | storing =>
            simp only [InitCall.step] at made
            split at made
            · cases made
            · cases made
        | counting =>
            simp only [InitCall.step] at made
            split at made
            · cases made
            · cases made
        | returned _ => cases made

theorem Startup.Waits.step (taken : StartupStep World) {woken : Prop}
    (waits : taken.before.Waits woken) (follows : taken.before.Follows call.fileMutex)
    (step : Succeeds (Startup.step platform call) taken.before taken.label taken.after)
    (notStored : taken.before.point.stored = false) (given : WaitsForStore taken) :
    taken.after.Waits (woken ∨ Wakes taken) := by
  obtain ⟨before, ⟨action, read⟩, after⟩ := taken
  unfold Succeeds at step
  cases action with
  | creator env =>
      have asleep : ¬Wakes ⟨before, (.creator env, read), after⟩ := fun wakes => wakes
      unfold Startup.Waits at waits ⊢
      simp only [asleep, or_false]
      rcases Startup.Follows.creator_thread follows step with same | ⟨absent, self, args, starting⟩
      · dsimp only at same ⊢
        rw [same]
        exact waits
      · dsimp only at starting absent waits ⊢
        rw [absent] at waits
        rw [starting]
        exact waits
  | others shared =>
      have asleep : ¬Wakes ⟨before, (.others shared, read), after⟩ := fun wakes => wakes
      simp only [Startup.step] at step
      cases step
      unfold Startup.Waits at waits ⊢
      simp only [asleep, or_false]
      exact waits
  | thread env =>
      obtain ⟨point, registry, thread, shared⟩ := before
      simp only [Startup.step] at step
      split at step
      · cases step
      · rename_i later next value stepped
        cases step
        cases thread with
        | absent => cases stepped
        | astray => cases stepped
        | starting self args =>
            simp only [NewThread.step] at stepped
            split at stepped
            · cases stepped
            · cases stepped
              rcases waits with ⟨_, _, asleep⟩ | ⟨late, _, _⟩
              · exact .inl ⟨rfl, rfl, fun awake => awake.elim asleep (fun wakes => wakes)⟩
              · cases late
        | running self args thread =>
            by_cases uses : thread.point.usesMutex = true
            · exact absurd ((given rfl uses).symm.trans notStored) (by decide)
            · rcases waits with ⟨early, _, asleep⟩ | ⟨_, calls, _⟩
              · simp only [NewThread.step, if_neg uses] at stepped
                rcases early_step early stepped with ⟨still, silent, sleeps⟩ | ⟨late, calls, wakes⟩
                · exact .inl ⟨still, silent, fun awake => awake.elim asleep sleeps⟩
                · exact .inr ⟨late, calls, .inr wakes⟩
              · exact absurd calls uses

theorem heldBack_concat {taken : StartupStep World} :
    HeldBack (steps ++ [taken]) ↔ HeldBack steps ∧
      ∀ earlier, earlier ∈ steps → Wakes earlier → taken.label.1.isThread = true →
        taken.before.point.stored = true := by
  unfold HeldBack
  rw [List.pairwise_append]
  simp

theorem Startup.Waits.reads_given {taken : StartupStep World}
    (waits : taken.before.point.stored = false →
      taken.before.Waits (∃ earlier, earlier ∈ steps ∧ Wakes earlier)) :
    WaitsForStore taken ↔ ∀ earlier, earlier ∈ steps → Wakes earlier →
      taken.label.1.isThread = true → taken.before.point.stored = true := by
  cases stored : taken.before.point.stored with
  | true => simp [WaitsForStore, stored]
  | false =>
      have woken := (waits stored).iff
      unfold WaitsForStore
      rw [woken, stored]
      constructor
      · intro given earlier member wakes acts
        exact given acts ⟨earlier, member, wakes⟩
      · rintro held acts ⟨earlier, member, wakes⟩
        exact held earlier member wakes acts

/-- In every interleaving, every read of the field finds the mutex exactly when the
thread takes no further step before the store once a `recv` of it has returned
something other than 0 or a check has found the flag set. -/
theorem arguments_given_iff (run : StartupRun platform call registry shared steps final) :
    (∀ taken, taken ∈ steps → ReadsGiven call taken) ↔ HeldBack steps := by
  -- with it goes where the thread is while the store has not been executed
  suffices both : ((∀ taken, taken ∈ steps → ReadsGiven call taken) ↔ HeldBack steps) ∧
      ((∀ taken, taken ∈ steps → ReadsGiven call taken) → final.point.stored = false →
        final.Waits (∃ earlier, earlier ∈ steps ∧ Wakes earlier)) from both.1
  induction run with
  | start => exact ⟨by simp [HeldBack], fun _ _ => .inl ⟨rfl, rfl, by simp⟩⟩
  | @extend steps current next label earlier stepped ih =>
      obtain ⟨same, waits⟩ := ih
      have follows := Startup.follows_of_run earlier
      obtain ⟨given, _⟩ := Startup.Follows.step ⟨current, label, next⟩ follows stepped
      constructor
      · rw [List.forall_mem_append, List.forall_mem_singleton, heldBack_concat, ← same]
        apply and_congr_right
        intro before
        rw [given]
        exact Startup.Waits.reads_given (waits before)
      · intro all notStored
        obtain ⟨before, last⟩ := List.forall_mem_append.mp all
        have earlierStored : current.point.stored = false := by
          apply Bool.eq_false_iff.mpr
          intro stored
          rw [Startup.step_stored ⟨current, label, next⟩ stepped stored] at notStored
          cases notStored
        have later := Startup.Waits.step ⟨current, label, next⟩
          (waits before earlierStored) follows stepped earlierStored
          (given.mp (last _ (List.mem_singleton_self _)))
        have grown : (∃ taken, taken ∈ steps ++ [⟨current, label, next⟩] ∧ Wakes taken) ↔
            (∃ taken, taken ∈ steps ∧ Wakes taken) ∨ Wakes ⟨current, label, next⟩ := by
          simp only [List.mem_append, List.mem_singleton, or_and_right, exists_or, exists_eq_left]
        rw [grown]
        exact later

end

def creatorStep : StartAction (List UInt8) :=
  .creator { argsGranted := true, msgGranted := true, pthreadCreate := 0 }

def threadStep (line : List UInt8) (fits : line.length ≤ serverMsgLen) :
    StartAction (List UInt8) :=
  .thread { recv := .message line fits, file := plainFile }

def acceptedCall : InitCall :=
  { commSocket := 4, msgLen := serverMsgLen, fileMutex := theFileMutex }

def idleShared : Shared (List UInt8) :=
  { sigThreadTerminateFlag := false, fileMutex := none, file := [] }

/-- The creator stores while the thread is in `recv`. -/
theorem arguments_given_stored_during_recv :
    ∃ steps final, StartupRun x86 acceptedCall Main.start.registry idleShared steps final ∧
      final.point = .returned (some 0) ∧ final.shared.file = [97, 10] ∧
      (∃ taken, taken ∈ steps ∧ taken.label.2 = some (some theFileMutex)) ∧
      ∀ taken, taken ∈ steps → ReadsGiven acceptedCall taken := by
  obtain ⟨steps, final, run, seen⟩ := execute_observe (Startup.step x86 acceptedCall)
    (.start Main.start.registry idleShared)
    (List.replicate 3 creatorStep ++ List.replicate 2 (threadStep [97, 10] (by decide)) ++
      [creatorStep] ++ List.replicate 8 (threadStep [97, 10] (by decide)) ++ [creatorStep])
    (fun steps final => decide (
      HeldBack steps ∧
      final.point = .returned (some 0) ∧ final.shared.file = [97, 10] ∧
      ∃ taken, taken ∈ steps ∧ taken.label.2 = some (some theFileMutex)))
    true (by decide +kernel)
  obtain ⟨held, returned, file, reads⟩ := of_decide_eq_true seen
  exact ⟨steps, final, run, returned, file, reads, (arguments_given_iff run).mpr held⟩

/-- The line is already there and the thread runs ahead of its creator. -/
theorem thread_ahead_of_creator :
    ∃ steps final, StartupRun x86 acceptedCall Main.start.registry idleShared steps final ∧
      final.point = .storing ∧
      (∃ taken, taken ∈ steps ∧ taken.label.2 = some none) ∧
      ¬∀ taken, taken ∈ steps → ReadsGiven acceptedCall taken := by
  obtain ⟨steps, final, run, seen⟩ := execute_observe (Startup.step x86 acceptedCall)
    (.start Main.start.registry idleShared)
    (List.replicate 3 creatorStep ++ List.replicate 4 (threadStep [97, 10] (by decide)))
    (fun steps final => decide (
      final.point = .storing ∧ ∃ taken, taken ∈ steps ∧ taken.label.2 = some none))
    true (by decide +kernel)
  obtain ⟨point, taken, member, reads⟩ := of_decide_eq_true seen
  refine ⟨steps, final, run, point, ⟨taken, member, reads⟩, ?_⟩
  intro given
  have impossible := given taken member none reads
  cases impossible

end Aesd.Server
