/-
Main's accept loop and the registry of the threads it starts.

The server object keeps one `thread_args` block per thread and counts the
threads it has created.  Main has a counter of its own, an array of thread
identifiers indexed by it, and at shutdown joins what this array says; the
destructor of the server object frees what the object's own counter says.

Blocks and threads get identifiers that are handed out once.  A field or a
pointer that was never stored is told apart from one that was.
-/

import Aesd.Library.BlockHeap
import Aesd.Server.MessageRecord

namespace Aesd.Server

open BlockHeap

def threadMax : Nat := 100

/-! ### The server object -/

inductive Pointer where
  | indeterminate
  | null
  | block (identifier : Nat)
deriving DecidableEq

/-- `threadId` and `fileMutex` are `none` until they are stored. -/
structure ThreadArgs where
  isComplete : Bool
  socketfd : Int
  msgLen : Nat
  msg : Pointer
  threadId : Option Nat
  fileMutex : Option Nat
deriving DecidableEq

inductive ServerCell where
  | fresh
  | threadArgs (args : ThreadArgs)
  | msg (size : Nat)
deriving DecidableEq

abbrev ServerHeap := Heap ServerCell

inductive RegistryFault where
  | badAccess
  | badFree
  | outOfBounds
deriving DecidableEq

def malloc (granted : Bool) (contents : ServerCell) (heap : ServerHeap) : Pointer × ServerHeap :=
  if granted then (.block heap.next, heap.allocate contents) else (.null, heap)

@[simp] theorem malloc_granted (contents : ServerCell) (heap : ServerHeap) :
    malloc true contents heap = (.block heap.next, heap.allocate contents) := rfl

@[simp] theorem malloc_refused (contents : ServerCell) (heap : ServerHeap) :
    malloc false contents heap = (.null, heap) := rfl

def free (heap : ServerHeap) : Pointer → Except RegistryFault ServerHeap
  | .indeterminate => .error .badFree
  | .null => .ok heap
  | .block identifier =>
      if live : heap.Live identifier then .ok (heap.release identifier live) else .error .badFree

/-- Reading through a `struct thread_args *`. -/
def loadArgs (heap : ServerHeap) : Pointer → Except RegistryFault ThreadArgs
  | .block identifier =>
      match heap.cell identifier with
      | some (.threadArgs args) => .ok args
      | _ => .error .badAccess
  | _ => .error .badAccess

/-- The parts of the server object that concern threads, the heap, and the
identifiers of the threads that exist. -/
structure Registry where
  pThreadArgs : Nat → Pointer
  numOfThreads : Nat
  heap : ServerHeap
  created : List Nat

structure InitThreadEnv where
  argsGranted : Bool
  msgGranted : Bool
  pthreadCreate : Int
deriving DecidableEq

/-- The result is the identifier, or `none` for `-1`. -/
def initServerThread (env : InitThreadEnv) (commSocket : Int) (msgLen fileMutex : Nat)
    (registry : Registry) : Except RegistryFault (Registry × Option Nat) :=
  if threadMax ≤ registry.numOfThreads then .ok (registry, none)
  else
    let (slot, heap) := malloc env.argsGranted .fresh registry.heap
    let registry :=
      { registry with
        heap := heap
        pThreadArgs := Function.update registry.pThreadArgs registry.numOfThreads slot }
    -- `NULL != pThreadArgs` compares the array and is always true
    match slot with
    | .block block =>
        let (msg, heap) := malloc env.msgGranted (.msg msgLen) registry.heap
        let args : ThreadArgs :=
          { isComplete := false
            socketfd := commSocket
            msgLen := msgLen
            msg := msg
            threadId := none
            fileMutex := none }
        let heap := heap.modify block fun _ => .threadArgs args
        if msg = .null then
          -- `memset` comes before the check of `msg`
          if 0 < msgLen then .error .badAccess else .ok ({ registry with heap := heap }, none)
        else if env.pthreadCreate = 0 then
          let threadId := registry.created.length
          .ok ({ registry with
                 heap := heap.modify block fun _ =>
                   .threadArgs { args with threadId := some threadId, fileMutex := some fileMutex }
                 created := registry.created ++ [threadId]
                 numOfThreads := registry.numOfThreads + 1 }, some threadId)
        else .ok ({ registry with heap := heap }, none)
    | _ => .error .badAccess

def Registry.getThreadId (registry : Registry) (threadNum : Nat) :
    Except RegistryFault (Option Nat) :=
  if threadNum < threadMax then
    match loadArgs registry.heap (registry.pThreadArgs threadNum) with
    | .error fault => .error fault
    | .ok args => .ok args.threadId
  else .error .outOfBounds

def freeThreads (pThreadArgs : Nat → Pointer) :
    List Nat → ServerHeap → Except RegistryFault ServerHeap
  | [], heap => .ok heap
  | index :: rest, heap =>
      match loadArgs heap (pThreadArgs index) with
      | .error fault => .error fault
      | .ok args =>
          match free heap args.msg with
          | .error fault => .error fault
          | .ok heap =>
              match free heap (pThreadArgs index) with
              | .error fault => .error fault
              | .ok heap => freeThreads pThreadArgs rest heap

def Registry.destroy (registry : Registry) : Except RegistryFault ServerHeap :=
  freeThreads registry.pThreadArgs (List.range registry.numOfThreads) registry.heap

/-! ### Main -/

structure Main where
  registry : Registry
  i : UInt8
  threadIdList : Nat → Option Nat

def Main.start : Main :=
  { registry :=
      { pThreadArgs := fun _ => .indeterminate, numOfThreads := 0, heap := .empty, created := [] }
    i := 1
    threadIdList := fun _ => none }

/-- What `accept` returns, and what happens in `initServerThread` if it is called. -/
structure AcceptEnv where
  accept : Int
  thread : InitThreadEnv

def theFileMutex : Nat := 0

def Main.pass (main : Main) (env : AcceptEnv) : Except RegistryFault Main :=
  if main.i < 100 then
    if 0 < env.accept ∧ main.i.toNat < threadMax + 1 then
      match initServerThread env.thread env.accept serverMsgLen theFileMutex main.registry with
      | .error fault => .error fault
      | .ok (registry, _) =>
          match registry.getThreadId (main.i.toNat - 1) with
          | .error fault => .error fault
          | .ok threadId =>
              if main.i.toNat < threadMax then
                .ok { registry := registry
                      i := main.i + 1
                      threadIdList :=
                        Function.update main.threadIdList main.i.toNat threadId }
              else .error .outOfBounds
    else .ok main
  else .ok main

def mainLoop (envs : List AcceptEnv) : Except RegistryFault Main :=
  envs.foldlM Main.pass .start

def Main.joins (main : Main) : List (Option Nat) :=
  (List.range' 1 (main.i.toNat - 1)).map main.threadIdList

/-! ### What the registry is for -/

def Registry.Filled (registry : Registry) (index threadId : Nat) : Prop :=
  ∃ block args, registry.pThreadArgs index = .block block ∧
    registry.heap.cell block = some (.threadArgs args) ∧ args.threadId = some threadId

structure Main.Registered (main : Main) : Prop where
  counters : main.i.toNat = main.registry.numOfThreads + 1
  bounded : main.i.toNat ≤ threadMax
  filled : ∀ index, index + 1 < main.i.toNat →
    ∃ threadId, threadId ∈ main.registry.created ∧ main.registry.Filled index threadId
  joined : main.joins = main.registry.created.map some
  once : main.registry.created.Nodup
  freed : ∃ heap, main.registry.destroy = .ok heap ∧ ∀ block, ¬heap.Live block

/-- Both allocations and `pthread_create` succeed. -/
def InitThreadEnv.Creates (env : InitThreadEnv) : Prop :=
  env.argsGranted = true ∧ env.msgGranted = true ∧ env.pthreadCreate = 0

/-! ### The registry after a number of successes -/

/-- Every thread has the next two blocks: its arguments and its buffer. -/
structure Registry.Exact (registry : Registry) (count : Nat) : Prop where
  numOfThreads : registry.numOfThreads = count
  created : registry.created = List.range count
  next : registry.heap.next = 2 * count
  slots : ∀ index, index < count → registry.pThreadArgs index = .block (2 * index)
  args : ∀ index, index < count → ∃ args,
    registry.heap.cell (2 * index) = some (.threadArgs args) ∧
      args.msg = .block (2 * index + 1) ∧ args.threadId = some index
  msgs : ∀ index, index < count → registry.heap.Live (2 * index + 1)

structure Main.Exact (main : Main) (count : Nat) : Prop where
  registry : main.registry.Exact count
  counter : main.i.toNat = count + 1
  few : count ≤ 99
  ids : ∀ index, index < count → main.threadIdList (index + 1) = some index

section

variable {registry : Registry} {count : Nat} {env : InitThreadEnv}

private theorem threadBlocks_cell (heap : ServerHeap) (early late : ThreadArgs)
    (msgLen block : Nat) :
    ((((heap.allocate .fresh).allocate (.msg msgLen)).modify heap.next
      fun _ => .threadArgs early).modify heap.next fun _ => .threadArgs late).cell block =
      if block = heap.next then some (.threadArgs late)
      else if block = heap.next + 1 then some (.msg msgLen)
      else heap.cell block := by
  by_cases args : block = heap.next
  · simp [args]
  · simp [args]

theorem Registry.Exact.initServerThread (exact : registry.Exact count) (room : count < threadMax)
    (creates : env.Creates) (commSocket : Int) (msgLen fileMutex : Nat) :
    ∃ after result, initServerThread env commSocket msgLen fileMutex registry =
      .ok (after, result) ∧ after.Exact (count + 1) := by
  obtain ⟨argsGranted, msgGranted, created⟩ := creates
  have below : ¬threadMax ≤ registry.numOfThreads := by
    rw [exact.numOfThreads]
    omega
  unfold Aesd.Server.initServerThread
  rw [if_neg below]
  simp only [argsGranted, msgGranted, malloc_granted, created, if_true]
  refine ⟨_, _, rfl, ?_⟩
  have heapNext := exact.next
  exact
    { numOfThreads := by rw [exact.numOfThreads]
      created := by rw [exact.created, List.length_range, List.range_succ]
      next := by
        simp only [Heap.modify_next, Heap.allocate_next]
        omega
      slots := by
        intro index inside
        simp only [exact.numOfThreads]
        by_cases last : index = count
        · rw [last, Function.update_self, heapNext]
        · rw [Function.update_of_ne last]
          exact exact.slots index (by omega)
      args := by
        intro index inside
        rw [threadBlocks_cell, heapNext]
        by_cases last : index = count
        · rw [if_pos (by omega), last]
          refine ⟨_, rfl, ?_, ?_⟩
          · simp only [Heap.allocate_next, heapNext]
          · rw [exact.created, List.length_range]
        · rw [if_neg (by omega), if_neg (by omega)]
          exact exact.args index (by omega)
      msgs := by
        intro index inside
        unfold Heap.Live
        rw [threadBlocks_cell, heapNext]
        by_cases last : index = count
        · rw [if_neg (by omega), if_pos (by omega)]
          rfl
        · rw [if_neg (by omega), if_neg (by omega)]
          exact exact.msgs index (by omega) }

theorem Registry.Exact.getThreadId (exact : registry.Exact count) {index : Nat}
    (inside : index < count) (room : count ≤ threadMax) :
    registry.getThreadId index = .ok (some index) := by
  obtain ⟨args, found, _, threadId⟩ := exact.args index inside
  unfold Registry.getThreadId
  rw [if_pos (by omega), exact.slots index inside]
  simp only [loadArgs, found, threadId]

theorem initServerThread_fails {commSocket : Int} {msgLen fileMutex : Nat} {after : Registry}
    {result : Option Nat} (fails : ¬env.Creates)
    (returned : initServerThread env commSocket msgLen fileMutex registry = .ok (after, result)) :
    after.numOfThreads = registry.numOfThreads := by
  unfold Aesd.Server.initServerThread at returned
  by_cases full : threadMax ≤ registry.numOfThreads
  · rw [if_pos full] at returned
    cases returned
    rfl
  · rw [if_neg full] at returned
    cases argsGranted : env.argsGranted with
    | false =>
        simp only [argsGranted, malloc_refused] at returned
        cases returned
    | true =>
        cases msgGranted : env.msgGranted with
        | false =>
            simp only [argsGranted, msgGranted, malloc_granted, malloc_refused, if_true] at returned
            by_cases long : 0 < msgLen
            · rw [if_pos long] at returned
              cases returned
            · rw [if_neg long] at returned
              cases returned
              rfl
        | true =>
            have refused : env.pthreadCreate ≠ 0 := by
              intro created
              exact fails ⟨argsGranted, msgGranted, created⟩
            simp only [argsGranted, msgGranted, malloc_granted, reduceCtorEq, refused,
              if_false] at returned
            cases returned
            rfl

end

/-! ### The destructor -/

private theorem freeThreads_exact {registry : Registry} {count : Nat}
    (exact : registry.Exact count) (remaining : Nat) :
    ∀ (first : Nat) (heap : ServerHeap), first + remaining = count →
      (∀ block, heap.cell block = if block < 2 * first then none else registry.heap.cell block) →
      ∃ last, freeThreads registry.pThreadArgs (List.range' first remaining) heap = .ok last ∧
        ∀ block, ¬last.Live block := by
  induction remaining with
  | zero =>
      intro first heap all cells
      refine ⟨heap, rfl, ?_⟩
      intro block live
      have unused := registry.heap.unused block
      rw [exact.next] at unused
      unfold Heap.Live at live
      rw [cells] at live
      by_cases freed : block < 2 * first
      · rw [if_pos freed] at live
        cases live
      · rw [if_neg freed, unused (by omega)] at live
        cases live
  | succ remaining ih =>
      intro first heap all cells
      obtain ⟨args, found, msg, _⟩ := exact.args first (by omega)
      have argsCell : heap.cell (2 * first) = some (.threadArgs args) := by
        rw [cells, if_neg (by omega), found]
      have msgLive : heap.Live (2 * first + 1) := by
        have live := exact.msgs first (by omega)
        unfold Heap.Live at live ⊢
        rw [cells, if_neg (by omega)]
        exact live
      have argsLive : (heap.release (2 * first + 1) msgLive).Live (2 * first) := by
        rw [Heap.release_live]
        exact ⟨Heap.live_of_cell argsCell, by omega⟩
      obtain ⟨last, done, empty⟩ := ih (first + 1)
        ((heap.release (2 * first + 1) msgLive).release (2 * first) argsLive) (by omega) (by
          intro block
          rw [Heap.release_cell, Heap.release_cell, cells]
          by_cases freed : block < 2 * (first + 1)
          · rw [if_pos freed]
            by_cases isArgs : block = 2 * first
            · rw [if_pos isArgs]
            · rw [if_neg isArgs]
              by_cases isMsg : block = 2 * first + 1
              · rw [if_pos isMsg]
              · rw [if_neg isMsg, if_pos (by omega)]
          · rw [if_neg (by omega), if_neg (by omega), if_neg (by omega), if_neg freed])
      refine ⟨last, ?_, empty⟩
      rw [List.range'_succ, freeThreads]
      simp only [exact.slots first (by omega), loadArgs, argsCell, free, msg, msgLive, argsLive,
        dite_true]
      exact done

theorem Registry.Exact.destroy {registry : Registry} {count : Nat} (exact : registry.Exact count) :
    ∃ heap, registry.destroy = .ok heap ∧ ∀ block, ¬heap.Live block := by
  unfold Registry.destroy
  rw [exact.numOfThreads, List.range_eq_range']
  apply freeThreads_exact exact count 0 registry.heap (by omega)
  intro block
  rw [if_neg (by omega)]

/-! ### Turns of the loop -/

section

variable {main next : Main} {count : Nat} {env : AcceptEnv}

theorem Main.Exact.registered (exact : main.Exact count) : main.Registered := by
  have few := exact.few
  have counter := exact.counter
  exact
    { counters := by rw [counter, exact.registry.numOfThreads]
      bounded := by
        unfold threadMax
        omega
      filled := by
        intro index inside
        rw [counter] at inside
        obtain ⟨args, found, _, threadId⟩ := exact.registry.args index (by omega)
        refine ⟨index, ?_, 2 * index, args, exact.registry.slots index (by omega), found,
          threadId⟩
        rw [exact.registry.created]
        exact List.mem_range.mpr (by omega)
      joined := by
        unfold Main.joins
        rw [counter, exact.registry.created, Nat.add_sub_cancel, List.range'_eq_map_range,
          List.map_map]
        apply List.map_congr_left
        intro index inside
        rw [Function.comp_apply, Nat.add_comm]
        exact exact.ids index (List.mem_range.mp inside)
      once := by
        rw [exact.registry.created]
        exact List.nodup_range
      freed := exact.registry.destroy }

private theorem counter_lt_iff (main : Main) : main.i < 100 ↔ main.i.toNat < 100 :=
  UInt8.lt_iff_toNat_lt

/-- Main calls `initServerThread` in this turn. -/
def Main.Starts (main : Main) (env : AcceptEnv) : Prop :=
  main.i.toNat < 100 ∧ 0 < env.accept

theorem Main.pass_idle (idle : ¬main.Starts env) : main.pass env = .ok main := by
  unfold Main.pass
  by_cases room : main.i < 100
  · rw [if_pos room, if_neg]
    intro accepted
    exact idle ⟨(counter_lt_iff main).mp room, accepted.1⟩
  · rw [if_neg room]

theorem Main.pass_starts (starts : main.Starts env) :
    main.pass env =
      match initServerThread env.thread env.accept serverMsgLen theFileMutex main.registry with
      | .error fault => .error fault
      | .ok (registry, _) =>
          match registry.getThreadId (main.i.toNat - 1) with
          | .error fault => .error fault
          | .ok threadId =>
              .ok { registry := registry
                    i := main.i + 1
                    threadIdList :=
                      Function.update main.threadIdList main.i.toNat threadId } := by
  obtain ⟨room, accepted⟩ := starts
  have bounded : main.i.toNat < threadMax := room
  unfold Main.pass
  rw [if_pos ((counter_lt_iff main).mpr room), if_pos ⟨accepted, by omega⟩]
  simp only [if_pos bounded]

private theorem counter_add_one (room : main.i.toNat < 100) :
    (main.i + 1).toNat = main.i.toNat + 1 := by
  rw [UInt8.toNat_add]
  exact Nat.mod_eq_of_lt (by simpa using (by omega : main.i.toNat + 1 < 256))

theorem Main.Exact.pass (exact : main.Exact count) (starts : main.Starts env)
    (creates : env.thread.Creates) :
    ∃ next, main.pass env = .ok next ∧ next.Exact (count + 1) := by
  have counter := exact.counter
  have room := starts.1
  have limit : threadMax = 100 := rfl
  obtain ⟨registry, result, returned, grown⟩ := exact.registry.initServerThread (by omega) creates
    env.accept serverMsgLen theFileMutex
  have found : registry.getThreadId (main.i.toNat - 1) = .ok (some count) := by
    rw [counter, Nat.add_sub_cancel]
    exact grown.getThreadId (Nat.lt_succ_self count) (by omega)
  rw [Main.pass_starts starts, returned]
  simp only [found]
  refine ⟨_, rfl, grown, ?_, by omega, ?_⟩
  · rw [counter_add_one room, counter]
  · intro index inside
    simp only [counter]
    by_cases last : index = count
    · rw [last, Function.update_self]
    · rw [Function.update_of_ne (by omega)]
      exact exact.ids index (by omega)

theorem Main.Exact.pass_fails (exact : main.Exact count) (starts : main.Starts env)
    (fails : ¬env.thread.Creates) (passed : main.pass env = .ok next) : ¬next.Registered := by
  have counter := exact.counter
  rw [Main.pass_starts starts] at passed
  split at passed
  · cases passed
  · rename_i registry result returned
    have same := initServerThread_fails fails returned
    split at passed
    · cases passed
    · cases passed
      intro registered
      have counters := registered.counters
      rw [counter_add_one starts.1, same, exact.registry.numOfThreads, counter] at counters
      omega

end

theorem Main.start_exact : Main.start.Exact 0 :=
  { registry :=
      { numOfThreads := rfl
        created := rfl
        next := rfl
        slots := by intro index inside; cases inside
        args := by intro index inside; cases inside
        msgs := by intro index inside; cases inside }
    counter := rfl
    few := by decide
    ids := by intro index inside; cases inside }

/-! ### Sequences of turns -/

/-- The turns in which `accept` gives a client. -/
def clients (envs : List AcceptEnv) : List AcceptEnv :=
  envs.filter fun env => decide (0 < env.accept)

theorem clients_append (earlier : List AcceptEnv) (env : AcceptEnv) :
    clients (earlier ++ [env]) =
      if 0 < env.accept then clients earlier ++ [env] else clients earlier := by
  unfold clients
  rw [List.filter_append]
  by_cases accepted : 0 < env.accept
  · simp [accepted]
  · simp [accepted]

theorem mem_served_append (earlier : List AcceptEnv) (env other : AcceptEnv) :
    other ∈ (clients (earlier ++ [env])).take 99 ↔
      other ∈ (clients earlier).take 99 ∨
        (0 < env.accept ∧ (clients earlier).length < 99 ∧ other = env) := by
  rw [clients_append]
  by_cases accepted : 0 < env.accept
  · rw [if_pos accepted, List.take_append, List.mem_append]
    apply or_congr_right
    by_cases room : (clients earlier).length < 99
    · rw [List.take_of_length_le (by simp; omega), List.mem_singleton]
      exact ⟨fun same => ⟨accepted, room, same⟩, fun all => all.2.2⟩
    · have none : 99 - (clients earlier).length = 0 := by omega
      rw [none, List.take_zero]
      constructor
      · intro member
        cases member
      · intro all
        exact absurd all.2.1 room
  · rw [if_neg accepted]
    constructor
    · exact .inl
    · intro either
      rcases either with member | all
      · exact member
      · exact absurd all.1 accepted

theorem mainLoop_append (earlier : List AcceptEnv) (env : AcceptEnv) :
    mainLoop (earlier ++ [env]) = (mainLoop earlier).bind fun main => main.pass env := by
  unfold mainLoop
  rw [List.foldlM_append]
  congr 1
  funext main
  rw [List.foldlM_cons]
  exact bind_pure _

theorem mainLoop_exact (envs : List AcceptEnv) :
    (∀ env, env ∈ (clients envs).take 99 → env.thread.Creates) →
      ∃ main, mainLoop envs = .ok main ∧ main.Exact (min 99 (clients envs).length) := by
  induction envs using List.reverseRecOn with
  | nil =>
      intro _
      exact ⟨.start, rfl, Main.start_exact⟩
  | append_singleton earlier env ih =>
      intro creates
      obtain ⟨main, reached, exact⟩ := ih fun other member =>
        creates other ((mem_served_append earlier env other).mpr (.inl member))
      have counter := exact.counter
      rw [mainLoop_append, reached, clients_append]
      by_cases starts : main.Starts env
      · obtain ⟨room, accepted⟩ := starts
        have fewer : (clients earlier).length < 99 := by omega
        obtain ⟨next, passed, grown⟩ := exact.pass ⟨room, accepted⟩
          (creates env ((mem_served_append earlier env env).mpr (.inr ⟨accepted, fewer, rfl⟩)))
        refine ⟨next, passed, ?_⟩
        have count : min 99 (clients earlier ++ [env]).length =
            min 99 (clients earlier).length + 1 := by
          rw [List.length_append, List.length_singleton]
          omega
        rw [if_pos accepted, count]
        exact grown
      · refine ⟨main, Main.pass_idle starts, ?_⟩
        by_cases accepted : 0 < env.accept
        · have full : ¬main.i.toNat < 100 := fun room => starts ⟨room, accepted⟩
          have count : min 99 (clients earlier ++ [env]).length =
              min 99 (clients earlier).length := by
            rw [List.length_append, List.length_singleton]
            omega
          rw [if_pos accepted, count]
          exact exact
        · rw [if_neg accepted]
          exact exact

/-- The registry is right after every turn exactly when the call for each of
the first 99 clients succeeds; main calls for no other. -/
theorem registry_right_iff (envs : List AcceptEnv) :
    (∀ earlier, earlier <+: envs → ∃ main, mainLoop earlier = .ok main ∧ main.Registered) ↔
      ∀ env, env ∈ (clients envs).take 99 → env.thread.Creates := by
  constructor
  · induction envs using List.reverseRecOn with
    | nil =>
        intro _ env member
        cases member
    | append_singleton earlier env ih =>
        intro right other member
        have before := ih fun front within => right front (within.trans (List.prefix_append _ _))
        rcases (mem_served_append earlier env other).mp member with old | ⟨accepted, fewer, same⟩
        · exact before other old
        · rw [same]
          by_contra fails
          obtain ⟨main, reached, exact⟩ := mainLoop_exact earlier before
          obtain ⟨next, passed, registered⟩ := right (earlier ++ [env]) List.prefix_rfl
          rw [mainLoop_append, reached] at passed
          have room : main.i.toNat < 100 := by
            rw [exact.counter]
            omega
          exact exact.pass_fails ⟨room, accepted⟩ fails passed registered
  · intro creates earlier within
    obtain ⟨rest, split⟩ := within
    have createsEarlier : ∀ env, env ∈ (clients earlier).take 99 → env.thread.Creates := by
      intro env member
      apply creates env
      rw [← split]
      unfold clients
      rw [List.filter_append, List.take_append]
      exact List.mem_append_left _ member
    obtain ⟨main, reached, exact⟩ := mainLoop_exact earlier createsEarlier
    exact ⟨main, reached, exact.registered⟩

/-- A client for which everything succeeds, and one for which `pthread_create`
has no resources left. -/
def servedClient : AcceptEnv :=
  { accept := 4, thread := { argsGranted := true, msgGranted := true, pthreadCreate := 0 } }

def refusedClient : AcceptEnv :=
  { accept := 4, thread := { argsGranted := true, msgGranted := true, pthreadCreate := 11 } }

/-- One refused client: main would join an identifier that was never stored,
and the destructor leaves its arguments behind.  With the next client main
reads a slot that nothing has filled. -/
theorem refused_client_breaks_registry :
    (∃ main, mainLoop [refusedClient] = .ok main ∧ main.i = 2 ∧
        main.registry.numOfThreads = 0 ∧ main.joins = [none] ∧ main.registry.created = [] ∧
        ∃ heap, main.registry.destroy = .ok heap ∧ heap.Live 0) ∧
      mainLoop [refusedClient, servedClient] = .error .badAccess :=
  ⟨⟨_, rfl, rfl, rfl, rfl, rfl, _, rfl, rfl⟩, rfl⟩

end Aesd.Server
