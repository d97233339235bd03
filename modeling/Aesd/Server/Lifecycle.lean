/-
The whole process: main, the signal handler and the threads.

Main accepts clients until it sees one of the flags that the signal handler
sets, raises the flag of the threads, joins them one after the other, takes the
flag back and returns, and the destructor of the server object frees the
arguments of the threads.  Between any two steps of main a signal may arrive and
the threads may take steps.

A thread works with its arguments and its buffer until it returns, and main's
array of identifiers is all that tells main which threads there are.  Here
`initServerThread` is one step; how it races with the thread it creates is in
`ThreadStart`.
-/

import Aesd.Server.Serialization
import Aesd.Server.ThreadStart

namespace Aesd.Server

open BlockHeap
open Execution
open Mutex

variable {World : Type}

/-! ### The steps of main -/

inductive Signal where
  | sigterm
  | sigint
deriving DecidableEq

/-- What main does next; `joining j` is the head of the `for` loop. -/
inductive MainPoint where
  | checking
  | accepting
  | joining (j : Nat)
  | resetting
  | returning
  | ended
deriving DecidableEq

/-- `returned` are the threads whose function has returned. -/
structure Lifecycle (World : Type) where
  point : MainPoint
  sigTermFlag : Bool
  sigIntFlag : Bool
  main : Main
  process : Process World
  returned : Nat → Bool

/-- An access to memory that is not there, a join with an identifier that was
never stored, and what only means that this step cannot be taken now. -/
inductive LifecycleFault where
  | registry (fault : RegistryFault)
  | badJoin
  | thread (refusal : Refusal)
  | waiting
  | absent
  | ended
deriving DecidableEq

def LifecycleFault.isAccess : LifecycleFault → Bool
  | .registry _ => true
  | .badJoin => true
  | _ => false

def Process.withFlag (process : Process World) (flag : Bool) : Process World :=
  { process with shared := { process.shared with sigThreadTerminateFlag := flag } }

def Main.withHeap (main : Main) (heap : ServerHeap) : Main :=
  { main with registry := { main.registry with heap := heap } }

def Lifecycle.signalHandler (state : Lifecycle World) : Signal → Lifecycle World
  | .sigterm => { state with sigTermFlag := true }
  | .sigint => { state with sigIntFlag := true }

def Lifecycle.mainStep (env : AcceptEnv) (state : Lifecycle World) :
    Except LifecycleFault (Lifecycle World) :=
  match state.point with
  | .checking =>
      if state.sigTermFlag then
        .ok { state with
              point := .joining 1
              sigIntFlag := false
              process := state.process.withFlag true }
      else if state.sigIntFlag then
        .ok { state with
              point := .joining 1
              sigTermFlag := false
              process := state.process.withFlag true }
      else .ok { state with point := .accepting }
  | .accepting =>
      match state.main.pass env with
      | .error fault => .error (.registry fault)
      | .ok main => .ok { state with point := .checking, main := main }
  | .joining j =>
      if j < state.main.i.toNat then
        match state.main.threadIdList j with
        | none => .error .badJoin
        | some threadId =>
            if state.returned threadId then .ok { state with point := .joining (j + 1) }
            else .error .waiting
      else .ok { state with point := .resetting }
  | .resetting =>
      .ok { state with point := .returning, process := state.process.withFlag false }
  | .returning =>
      match state.main.registry.destroy with
      | .error fault => .error (.registry fault)
      | .ok heap => .ok { state with point := .ended, main := state.main.withHeap heap }
  | .ended => .error .ended

/-! ### The steps of the threads -/

/-- The arguments and the buffer that every step of a thread works with.  The
pointer it was given is still in its slot: `initServerThread` writes only to the
slot behind the last thread. -/
def Registry.argsOf (registry : Registry) (self : Nat) : Except RegistryFault ThreadArgs :=
  match loadArgs registry.heap (registry.pThreadArgs self) with
  | .error fault => .error fault
  | .ok args =>
      match args.msg with
      | .block buffer => if registry.heap.Live buffer then .ok args else .error .badAccess
      | _ => .error .badAccess

def ThreadArgs.completed (args : ThreadArgs) : ThreadArgs :=
  { args with isComplete := true }

def Lifecycle.threadStep (platform : Platform) (self : Nat) (env : StepEnv World)
    (state : Lifecycle World) : Except LifecycleFault (Lifecycle World × PassOutput) :=
  if self ∈ state.main.registry.created ∧ state.returned self = false then
    match state.main.registry.argsOf self with
    | .error fault => .error (.registry fault)
    | .ok _ =>
        if (state.process.threads self).point = .finished then
          -- behind the loop: the last use of the arguments, and `return`
          match storeArgs state.main.registry.heap ThreadArgs.completed
              (state.main.registry.pThreadArgs self) with
          | .error fault => .error (.registry fault)
          | .ok heap =>
              .ok ({ state with
                     main := state.main.withHeap heap
                     returned := Function.update state.returned self true }, .quiet)
        else
          match (state.process.threads self).step Kind.normal platform self env
              state.process.shared with
          | .error refusal => .error (.thread refusal)
          | .ok (thread, shared, output) =>
              .ok ({ state with process := state.process.withThread self thread shared }, output)
  else .error .absent

/-! ### All together -/

inductive LifecycleAction (World : Type) where
  | signal (signalNo : Signal)
  | main (env : AcceptEnv)
  | thread (self : Nat) (env : StepEnv World)

def Lifecycle.step (platform : Platform) (state : Lifecycle World) :
    LifecycleAction World → Except LifecycleFault (Lifecycle World × PassOutput)
  | .signal signalNo => .ok (state.signalHandler signalNo, .quiet)
  | .main env => (state.mainStep env).map fun next => (next, .quiet)
  | .thread self env => state.threadStep platform self env

def Lifecycle.start (file : World) : Lifecycle World :=
  { point := .checking
    sigTermFlag := false
    sigIntFlag := false
    main := .start
    process := .start file
    returned := fun _ => false }

abbrev LifecycleStep (World : Type) :=
  Transition (Lifecycle World) (LifecycleAction World × PassOutput)

abbrev LifecycleRun (platform : Platform) (file : World) :
    List (LifecycleStep World) → Lifecycle World → Prop :=
  Run (Succeeds (Lifecycle.step platform)) (.start file)

/-- Where main accepts a client, the thread is created. -/
def LifecycleAction.Creates : LifecycleAction World → Prop
  | .main env => 0 < env.accept → env.thread.Creates
  | _ => True

/-! ### The registry under the steps -/

section

variable {registry : Registry} {count self : Nat}

theorem Registry.Exact.argsOf (exact : registry.Exact count) (inside : self < count) :
    ∃ args, registry.heap.cell (2 * self) = some (.threadArgs args) ∧
      registry.argsOf self = .ok args := by
  obtain ⟨args, found, msg, _⟩ := exact.args self inside
  refine ⟨args, found, ?_⟩
  unfold Registry.argsOf
  simp only [exact.slots self inside, loadArgs, found, msg, exact.msgs self inside, if_true]

theorem Registry.Exact.complete (exact : registry.Exact count) (inside : self < count)
    {args : ThreadArgs} (found : registry.heap.cell (2 * self) = some (.threadArgs args)) :
    ∃ heap, storeArgs registry.heap ThreadArgs.completed (registry.pThreadArgs self) = .ok heap ∧
      ({ registry with heap := heap } : Registry).Exact count ∧
      ∀ block, heap.cell block =
        if block = 2 * self then some (.threadArgs args.completed)
        else registry.heap.cell block := by
  have cells : ∀ block,
      (registry.heap.modify (2 * self) fun _ => .threadArgs args.completed).cell block =
        if block = 2 * self then some (.threadArgs args.completed)
        else registry.heap.cell block := by
    intro block
    rw [Heap.modify_cell]
    by_cases own : block = 2 * self
    · rw [if_pos own, if_pos own, own, found]
      rfl
    · rw [if_neg own, if_neg own]
  refine ⟨_, ?_, ?_, cells⟩
  · simp only [exact.slots self inside, storeArgs, found]
  · constructor
    · exact exact.numOfThreads
    · exact exact.created
    · exact exact.next
    · exact exact.slots
    · intro index below
      rw [cells]
      by_cases own : 2 * index = 2 * self
      · obtain ⟨other, foundOther, msg, threadId⟩ := exact.args index below
        rw [own, found] at foundOther
        cases foundOther
        rw [if_pos own]
        exact ⟨args.completed, rfl, msg, threadId⟩
      · rw [if_neg own]
        exact exact.args index below
    · intro index below
      rw [Heap.modify_live]
      exact exact.msgs index below

theorem Registry.Exact.initServerThread_cell {env : InitThreadEnv} {after : Registry}
    {result : Option Nat} {commSocket : Int} {msgLen fileMutex : Nat}
    (exact : registry.Exact count) (creates : env.Creates) (room : count < threadMax)
    (returned : Aesd.Server.initServerThread env commSocket msgLen fileMutex registry =
      .ok (after, result)) :
    (∀ index, count + 1 ≤ index → after.pThreadArgs index = registry.pThreadArgs index) ∧
      (∀ index, index < count → after.heap.cell (2 * index) = registry.heap.cell (2 * index)) ∧
      ∃ args, after.heap.cell (2 * count) = some (.threadArgs args) ∧ args.isComplete = false := by
  obtain ⟨argsGranted, msgGranted, created⟩ := creates
  have next := exact.next
  have below : ¬threadMax ≤ registry.numOfThreads := by
    rw [exact.numOfThreads]
    omega
  unfold Aesd.Server.initServerThread at returned
  rw [if_neg below] at returned
  simp only [argsGranted, msgGranted, malloc_granted, created, if_true] at returned
  cases returned
  refine ⟨?_, ?_, ?_⟩
  · intro index above
    apply Function.update_of_ne
    rw [exact.numOfThreads]
    omega
  · intro index inside
    have notArgs : 2 * index ≠ registry.heap.next := by omega
    have notMsg : 2 * index ≠ registry.heap.next + 1 := by omega
    simp [notArgs, notMsg]
  · rw [← next]
    simp

end

theorem Main.Exact.pass_cell {main : Main} {count : Nat} {env : AcceptEnv}
    (exact : main.Exact count) (starts : main.Starts env) (creates : env.thread.Creates) :
    ∃ next, main.pass env = .ok next ∧ next.Exact (count + 1) ∧
      (∀ index, count + 1 ≤ index →
        next.registry.pThreadArgs index = main.registry.pThreadArgs index) ∧
      (∀ index, index < count →
        next.registry.heap.cell (2 * index) = main.registry.heap.cell (2 * index)) ∧
      ∃ args, next.registry.heap.cell (2 * count) = some (.threadArgs args) ∧
        args.isComplete = false := by
  have counter := exact.counter
  have room := starts.1
  obtain ⟨next, passed, grown⟩ := exact.pass starts creates
  refine ⟨next, passed, grown, ?_⟩
  rw [Main.pass_starts starts] at passed
  split at passed
  · cases passed
  · rename_i registry result returned
    split at passed
    · cases passed
    · cases passed
      exact exact.registry.initServerThread_cell creates
        (show count < threadMax by unfold threadMax; omega) returned

/-! ### What holds in every state -/

/-- The threads that main has joined, of `count`. -/
def MainPoint.joined (count : Nat) : MainPoint → Nat
  | .checking | .accepting => 0
  | .joining j => j - 1
  | .resetting | .returning | .ended => count

def MainPoint.shutsDown : MainPoint → Bool
  | .checking | .accepting => false
  | _ => true

/-- `count` threads have been created. -/
structure Lifecycle.Sound (state : Lifecycle World) (count : Nat) : Prop where
  created : state.main.registry.created = List.range count
  unused : ∀ index, count ≤ index → state.main.registry.pThreadArgs index = .indeterminate
  few : count ≤ 99
  registered : state.point ≠ .ended → state.main.Exact count
  complete : state.point ≠ .ended → ∀ self, self < count → ∃ args,
    state.main.registry.heap.cell (2 * self) = some (.threadArgs args) ∧
      args.isComplete = state.returned self
  freed : state.point = .ended → ∀ block, ¬state.main.registry.heap.Live block
  finished : ∀ self, state.returned self = true →
    self < count ∧ (state.process.threads self).point = .finished
  joined : ∀ self, self < count → self < state.point.joined count → state.returned self = true
  within : state.point.joined count ≤ count
  joining : ∀ j, state.point = .joining j →
    0 < j ∧ state.process.shared.sigThreadTerminateFlag = true
  flagged : state.process.shared.sigThreadTerminateFlag = true → state.point.shutsDown = true
  left : ∀ self, (state.process.threads self).point.gone = true → state.point.shutsDown = true
  signalled : state.point.shutsDown = true →
    state.sigTermFlag = true ∨ state.sigIntFlag = true

section

variable {platform : Platform} {state next : Lifecycle World} {count : Nat}

theorem Lifecycle.Sound.start (file : World) : (Lifecycle.start file).Sound 0 := by
  have never : ∀ {flag : Bool}, flag = false → ¬flag = true := by
    intro flag lowered raised
    rw [lowered] at raised
    cases raised
  refine ⟨rfl, fun _ _ => rfl, Nat.zero_le _, fun _ => Main.start_exact, ?_, ?_, ?_, ?_,
    Nat.le_refl _, ?_, ?_, ?_, ?_⟩
  · intro _ self inside
    cases inside
  · intro ended
    cases ended
  · intro self returned
    exact absurd returned (never rfl)
  · intro self inside
    cases inside
  · intro j joining
    cases joining
  · intro raised
    exact absurd raised (never rfl)
  · intro self gone
    exact absurd gone (never rfl)
  · intro shut
    exact absurd shut (never rfl)

theorem Lifecycle.Sound.signal (sound : state.Sound count) (signalNo : Signal) :
    (state.signalHandler signalNo).Sound count := by
  cases signalNo with
  | sigterm =>
      exact { sound with signalled := fun _ => .inl rfl }
  | sigint =>
      exact { sound with signalled := fun _ => .inr rfl }

private theorem Lifecycle.Sound.shutdown (sound : state.Sound count)
    (checking : state.point = .checking) {term int : Bool} (seen : term = true ∨ int = true) :
    ({ state with
       point := .joining 1
       sigTermFlag := term
       sigIntFlag := int
       process := state.process.withFlag true } : Lifecycle World).Sound count where
  created := sound.created
  unused := sound.unused
  few := sound.few
  registered := fun _ => sound.registered (by rw [checking]; decide)
  complete := fun _ => sound.complete (by rw [checking]; decide)
  freed := by
    intro ended
    cases ended
  finished := sound.finished
  joined := by
    intro self _ below
    cases below
  within := Nat.zero_le _
  joining := by
    intro j joining
    cases joining
    exact ⟨Nat.one_pos, rfl⟩
  flagged := fun _ => rfl
  left := fun _ _ => rfl
  signalled := fun _ => seen

private theorem Lifecycle.Sound.goto (sound : state.Sound count) {point : MainPoint}
    (same : point.joined count = state.point.joined count)
    (sameShut : point.shutsDown = state.point.shutsDown) (here : state.point ≠ .ended)
    (there : point ≠ .ended) (notJoining : ∀ j, point ≠ .joining j) :
    ({ state with point := point } : Lifecycle World).Sound count where
  created := sound.created
  unused := sound.unused
  few := sound.few
  registered := fun _ => sound.registered here
  complete := fun _ => sound.complete here
  freed := fun ended => absurd ended there
  finished := sound.finished
  joined := by
    intro self inside below
    exact sound.joined self inside (same ▸ below)
  within := same ▸ sound.within
  joining := fun j joining => absurd joining (notJoining j)
  flagged := fun raised => sameShut.trans (sound.flagged raised)
  left := fun self gone => sameShut.trans (sound.left self gone)
  signalled := fun shut => sound.signalled (sameShut.symm.trans shut)

theorem Lifecycle.Sound.checks (sound : state.Sound count)
    (checking : state.point = .checking) (env : AcceptEnv) :
    ∃ next, state.mainStep env = .ok next ∧ next.Sound count := by
  unfold Lifecycle.mainStep
  simp only [checking]
  by_cases term : state.sigTermFlag = true
  · rw [if_pos term]
    exact ⟨_, rfl, sound.shutdown checking (.inl term)⟩
  · rw [if_neg term]
    by_cases int : state.sigIntFlag = true
    · rw [if_pos int]
      exact ⟨_, rfl, sound.shutdown checking (.inr int)⟩
    · rw [if_neg int]
      refine ⟨_, rfl, sound.goto ?_ ?_ ?_ ?_ ?_⟩
      · rw [checking]
        rfl
      · rw [checking]
        rfl
      · rw [checking]
        decide
      · decide
      · intro j joining
        cases joining

theorem Lifecycle.Sound.accepts (sound : state.Sound count)
    (accepting : state.point = .accepting) {env : AcceptEnv}
    (creates : 0 < env.accept → env.thread.Creates) :
    ∃ next later, state.mainStep env = .ok next ∧ next.Sound later ∧ count ≤ later := by
  have here : state.point ≠ .ended := by
    rw [accepting]
    decide
  have exact := sound.registered here
  unfold Lifecycle.mainStep
  simp only [accepting]
  by_cases starts : state.main.Starts env
  · obtain ⟨main, passed, grown, slots, others, own⟩ := exact.pass_cell starts (creates starts.2)
    rw [passed]
    refine ⟨_, count + 1, rfl, ?_, Nat.le_succ count⟩
    constructor
    · exact grown.registry.created
    · intro index above
      exact (slots index above).trans (sound.unused index (by omega))
    · exact grown.few
    · exact fun _ => grown
    · intro _ self inside
      by_cases last : self = count
      · obtain ⟨args, found, fresh⟩ := own
        refine ⟨args, last ▸ found, fresh.trans ?_⟩
        cases returned : state.returned self with
        | false => rfl
        | true => exact absurd (sound.finished self returned).1 (by omega)
      · obtain ⟨args, found, same⟩ := sound.complete here self (by omega)
        exact ⟨args, (others self (by omega)).trans found, same⟩
    · intro ended
      cases ended
    · intro self returned
      obtain ⟨inside, point⟩ := sound.finished self returned
      exact ⟨by omega, point⟩
    · intro self _ below
      cases below
    · exact Nat.zero_le _
    · intro j joining
      cases joining
    · intro raised
      exact (congrArg MainPoint.shutsDown accepting).symm.trans (sound.flagged raised)
    · intro self gone
      exact (congrArg MainPoint.shutsDown accepting).symm.trans (sound.left self gone)
    · intro shut
      cases shut
  · rw [Main.pass_idle starts]
    refine ⟨_, count, rfl, sound.goto ?_ ?_ here ?_ ?_, Nat.le_refl count⟩
    · rw [accepting]
      rfl
    · rw [accepting]
      rfl
    · decide
    · intro j joining
      cases joining

theorem Lifecycle.Sound.joins (sound : state.Sound count) {j : Nat}
    (joining : state.point = .joining j) (env : AcceptEnv) :
    (∃ next, state.mainStep env = .ok next ∧ next.Sound count) ∨
      state.mainStep env = .error .waiting := by
  have here : state.point ≠ .ended := by
    rw [joining]
    intro ended
    cases ended
  have exact := sound.registered here
  obtain ⟨positive, raised⟩ := sound.joining j joining
  have within := sound.within
  rw [joining] at within
  have shut : state.point.shutsDown = true := by
    rw [joining]
    rfl
  unfold Lifecycle.mainStep
  simp only [joining]
  by_cases more : j < state.main.i.toNat
  · rw [if_pos more]
    rw [exact.counter] at more
    have known := exact.ids (j - 1) (by omega)
    rw [Nat.sub_add_cancel positive] at known
    simp only [known]
    cases returned : state.returned (j - 1) with
    | false => exact .inr rfl
    | true =>
        left
        refine ⟨_, rfl, ?_⟩
        constructor
        · exact sound.created
        · exact sound.unused
        · exact sound.few
        · exact fun _ => exact
        · exact fun _ => sound.complete here
        · intro ended
          cases ended
        · exact sound.finished
        · intro self inside below
          by_cases last : self = j - 1
          · rw [last]
            exact returned
          · apply sound.joined self inside
            rw [joining]
            change self < j - 1
            change self < j + 1 - 1 at below
            omega
        · change j + 1 - 1 ≤ count
          omega
        · intro other same
          cases same
          exact ⟨Nat.succ_pos j, raised⟩
        · exact fun _ => rfl
        · exact fun _ _ => rfl
        · exact fun _ => sound.signalled shut
  · rw [if_neg more]
    rw [exact.counter] at more
    have all : j - 1 = count := by
      change j - 1 ≤ count at within
      omega
    left
    refine ⟨_, rfl, sound.goto ?_ ?_ here ?_ ?_⟩
    · rw [joining]
      exact all.symm
    · rw [shut]
      rfl
    · decide
    · intro other same
      cases same

theorem Lifecycle.Sound.resets (sound : state.Sound count)
    (resetting : state.point = .resetting) (env : AcceptEnv) :
    ∃ next, state.mainStep env = .ok next ∧ next.Sound count := by
  have here : state.point ≠ .ended := by
    rw [resetting]
    decide
  have moved : ({ state with point := .returning } : Lifecycle World).Sound count := by
    apply sound.goto
    · rw [resetting]
      rfl
    · rw [resetting]
      rfl
    · exact here
    · decide
    · intro j joining
      cases joining
  unfold Lifecycle.mainStep
  simp only [resetting]
  refine ⟨_, rfl, { moved with flagged := fun _ => rfl, joining := ?_ }⟩
  intro j joining
  cases joining

theorem Lifecycle.Sound.returns (sound : state.Sound count)
    (returning : state.point = .returning) (env : AcceptEnv) :
    ∃ next, state.mainStep env = .ok next ∧ next.Sound count := by
  have here : state.point ≠ .ended := by
    rw [returning]
    decide
  have shut : state.point.shutsDown = true := by
    rw [returning]
    rfl
  obtain ⟨heap, destroyed, empty⟩ := (sound.registered here).registry.destroy
  unfold Lifecycle.mainStep
  simp only [returning, destroyed]
  refine ⟨_, rfl, ?_⟩
  constructor
  · exact sound.created
  · exact sound.unused
  · exact sound.few
  · exact fun here => absurd rfl here
  · exact fun here => absurd rfl here
  · exact fun _ => empty
  · exact sound.finished
  · intro self inside _
    apply sound.joined self inside
    rw [returning]
    exact inside
  · exact Nat.le_refl _
  · intro j joining
    cases joining
  · exact fun _ => rfl
  · exact fun _ _ => rfl
  · exact fun _ => sound.signalled shut

theorem Lifecycle.Sound.mainStep (sound : state.Sound count) {env : AcceptEnv}
    (creates : 0 < env.accept → env.thread.Creates) :
    (∃ next later, state.mainStep env = .ok next ∧ next.Sound later ∧ count ≤ later) ∨
      state.mainStep env = .error .waiting ∨
      state.point = .ended ∧ state.mainStep env = .error .ended := by
  cases point : state.point with
  | checking =>
      obtain ⟨next, taken, later⟩ := sound.checks point env
      exact .inl ⟨next, count, taken, later, Nat.le_refl count⟩
  | accepting => exact .inl (sound.accepts point creates)
  | joining j =>
      rcases sound.joins point env with ⟨next, taken, later⟩ | waits
      · exact .inl ⟨next, count, taken, later, Nat.le_refl count⟩
      · exact .inr (.inl waits)
  | resetting =>
      obtain ⟨next, taken, later⟩ := sound.resets point env
      exact .inl ⟨next, count, taken, later, Nat.le_refl count⟩
  | returning =>
      obtain ⟨next, taken, later⟩ := sound.returns point env
      exact .inl ⟨next, count, taken, later, Nat.le_refl count⟩
  | ended =>
      refine .inr (.inr ⟨rfl, ?_⟩)
      unfold Lifecycle.mainStep
      rw [point]

theorem Lifecycle.Sound.not_ended (sound : state.Sound count) {self : Nat}
    (inside : self < count) (running : state.returned self = false) : state.point ≠ .ended := by
  intro ended
  have returned := sound.joined self inside (by rw [ended]; exact inside)
  rw [running] at returned
  cases returned

private theorem Lifecycle.Sound.completes (sound : state.Sound count) {self : Nat}
    (inside : self < count) (here : state.point ≠ .ended)
    (finished : (state.process.threads self).point = .finished) :
    ∃ heap, storeArgs state.main.registry.heap ThreadArgs.completed
        (state.main.registry.pThreadArgs self) = .ok heap ∧
      ({ state with
         main := state.main.withHeap heap
         returned := Function.update state.returned self true } : Lifecycle World).Sound count := by
  have exact := sound.registered here
  obtain ⟨args, found, _⟩ := exact.registry.args self inside
  obtain ⟨heap, stored, stillExact, cells⟩ := exact.registry.complete inside found
  refine ⟨heap, stored, ?_⟩
  constructor
  · exact sound.created
  · exact sound.unused
  · exact sound.few
  · exact fun _ => ⟨stillExact, exact.counter, exact.few, exact.ids⟩
  · intro _ other below
    change ∃ args, heap.cell (2 * other) = some (.threadArgs args) ∧
      args.isComplete = Function.update state.returned self true other
    by_cases own : other = self
    · rw [own, Function.update_self, cells, if_pos rfl]
      exact ⟨args.completed, rfl, rfl⟩
    · rw [Function.update_of_ne own, cells, if_neg (by omega)]
      exact sound.complete here other below
  · exact fun ended => absurd ended here
  · intro other returned
    by_cases own : other = self
    · rw [own]
      exact ⟨inside, finished⟩
    · apply sound.finished other
      exact (Function.update_of_ne own ..).symm.trans returned
  · intro other below joined
    change Function.update state.returned self true other = true
    by_cases own : other = self
    · rw [own, Function.update_self]
    · rw [Function.update_of_ne own]
      exact sound.joined other below joined
  · exact sound.within
  · exact sound.joining
  · exact sound.flagged
  · exact sound.left
  · exact sound.signalled

private theorem Lifecycle.Sound.advances (sound : state.Sound count) {self : Nat}
    {env : StepEnv World} {thread : Thread} {shared : Shared World} {output : PassOutput}
    (running : state.returned self = false)
    (taken : (state.process.threads self).step Kind.normal platform self env state.process.shared =
      .ok (thread, shared, output)) :
    ({ state with process := state.process.withThread self thread shared } :
      Lifecycle World).Sound count := by
  have taken := Thread.step_taken taken
  constructor
  · exact sound.created
  · exact sound.unused
  · exact sound.few
  · exact sound.registered
  · exact sound.complete
  · exact sound.freed
  · intro other returned
    have different : other ≠ self := by
      intro own
      rw [own] at returned
      exact absurd (running.symm.trans returned) (by decide)
    obtain ⟨below, point⟩ := sound.finished other returned
    refine ⟨below, ?_⟩
    change ((state.process.withThread self thread shared).threads other).point = .finished
    rw [Process.withThread_other _ different]
    exact point
  · exact sound.joined
  · exact sound.within
  · intro j joining
    obtain ⟨positive, raised⟩ := sound.joining j joining
    exact ⟨positive, taken.keeps_flag.trans raised⟩
  · intro raised
    exact sound.flagged (taken.keeps_flag.symm.trans raised)
  · intro other gone
    change ((state.process.withThread self thread shared).threads other).point.gone = true at gone
    by_cases own : other = self
    · rw [own, Process.withThread_self] at gone
      rcases taken.gone gone with before | raised
      · exact sound.left self before
      · exact sound.flagged raised
    · rw [Process.withThread_other _ own] at gone
      exact sound.left other gone
  · exact sound.signalled

theorem Lifecycle.Sound.threadStep (platform : Platform) (sound : state.Sound count) (self : Nat)
    (env : StepEnv World) :
    (∃ next output, state.threadStep platform self env = .ok (next, output) ∧ next.Sound count) ∨
      (∃ refusal, state.threadStep platform self env = .error (.thread refusal)) ∨
      state.threadStep platform self env = .error .absent := by
  unfold Lifecycle.threadStep
  by_cases present : self ∈ state.main.registry.created ∧ state.returned self = false
  · rw [if_pos present]
    obtain ⟨member, running⟩ := present
    rw [sound.created] at member
    have inside := List.mem_range.mp member
    have here := sound.not_ended inside running
    obtain ⟨args, _, found⟩ := (sound.registered here).registry.argsOf inside
    simp only [found]
    by_cases finished : (state.process.threads self).point = .finished
    · rw [if_pos finished]
      obtain ⟨heap, stored, later⟩ := sound.completes inside here finished
      rw [stored]
      exact .inl ⟨_, _, rfl, later⟩
    · rw [if_neg finished]
      cases taken : (state.process.threads self).step Kind.normal platform self env
          state.process.shared with
      | error refusal => exact .inr (.inl ⟨refusal, rfl⟩)
      | ok result =>
          obtain ⟨thread, shared, output⟩ := result
          exact .inl ⟨_, _, rfl, sound.advances running taken⟩
  · rw [if_neg present]
    exact .inr (.inr rfl)

theorem Lifecycle.threadStep_refused {self : Nat} {env : StepEnv World} {refusal : Refusal}
    (refused : state.threadStep platform self env = .error (.thread refusal)) :
    (state.process.threads self).point ≠ .finished ∧
      (state.process.threads self).step Kind.normal platform self env state.process.shared =
        .error refusal := by
  unfold Lifecycle.threadStep at refused
  split at refused
  · split at refused
    · cases refused
    · split at refused
      · split at refused
        · cases refused
        · cases refused
      · rename_i running
        refine ⟨running, ?_⟩
        split at refused
        · rename_i stepped
          cases refused
          exact stepped
        · cases refused
  · cases refused

theorem Lifecycle.threadStep_absent {self : Nat} {env : StepEnv World}
    (absent : state.threadStep platform self env = .error .absent) :
    ¬(self ∈ state.main.registry.created ∧ state.returned self = false) := by
  intro present
  unfold Lifecycle.threadStep at absent
  rw [if_pos present] at absent
  split at absent
  · cases absent
  · split at absent
    · split at absent
      · cases absent
      · cases absent
    · split at absent
      · cases absent
      · cases absent

theorem Lifecycle.Sound.step (platform : Platform) (sound : state.Sound count)
    {action : LifecycleAction World} (creates : action.Creates) :
    (∃ next output later, state.step platform action = .ok (next, output) ∧ next.Sound later) ∨
      ∃ fault, state.step platform action = .error fault ∧ fault.isAccess = false := by
  cases action with
  | signal signalNo => exact .inl ⟨_, _, count, rfl, sound.signal signalNo⟩
  | main env =>
      simp only [Lifecycle.step]
      rcases sound.mainStep creates with ⟨next, later, taken, soundNext, _⟩ | waits | ⟨_, ended⟩
      · rw [taken]
        exact .inl ⟨next, _, later, rfl, soundNext⟩
      · rw [waits]
        exact .inr ⟨_, rfl, rfl⟩
      · rw [ended]
        exact .inr ⟨_, rfl, rfl⟩
  | thread self env =>
      simp only [Lifecycle.step]
      rcases sound.threadStep platform self env with
        ⟨next, output, taken, soundNext⟩ | ⟨refusal, refused⟩ | absent
      · exact .inl ⟨next, output, count, taken, soundNext⟩
      · exact .inr ⟨_, refused, rfl⟩
      · exact .inr ⟨_, absent, rfl⟩

theorem LifecycleRun.sound {file : World} {steps : List (LifecycleStep World)}
    (run : LifecycleRun platform file steps state)
    (creates : ∀ taken, taken ∈ steps → taken.label.1.Creates) :
    ∃ count, state.Sound count := by
  induction run with
  | start => exact ⟨0, .start file⟩
  | @extend steps current next label earlier stepped ih =>
      obtain ⟨count, sound⟩ := ih fun taken member => creates taken (List.mem_append_left _ member)
      have created := creates ⟨current, label, next⟩
        (List.mem_append_right _ (List.mem_singleton_self _))
      rcases sound.step platform created with ⟨other, output, later, taken, soundNext⟩ |
        ⟨fault, failed, _⟩
      · have same := stepped.symm.trans taken
        cases same
        exact ⟨later, soundNext⟩
      · have impossible := stepped.symm.trans failed
        cases impossible

/-- What main leaves as it is: it lowers at most one of the two flags, and the
threads, the mutex and the list of the returned are not its own. -/
structure Lifecycle.MainFrame (state next : Lifecycle World) : Prop where
  sigTermFlag : next.sigTermFlag = true → state.sigTermFlag = true
  sigIntFlag : next.sigIntFlag = true → state.sigIntFlag = true
  signalled : state.sigTermFlag = true ∨ state.sigIntFlag = true →
    next.sigTermFlag = true ∨ next.sigIntFlag = true
  threads : next.process.threads = state.process.threads
  fileMutex : next.process.shared.fileMutex = state.process.shared.fileMutex
  returned : next.returned = state.returned

theorem Lifecycle.mainStep_frame {env : AcceptEnv} (taken : state.mainStep env = .ok next) :
    state.MainFrame next := by
  unfold Lifecycle.mainStep at taken
  cases point : state.point with
  | checking =>
      simp only [point] at taken
      split at taken
      · rename_i term
        cases taken
        refine ⟨id, ?_, fun _ => .inl term, rfl, rfl, rfl⟩
        intro raised
        cases raised
      · split at taken
        · rename_i int
          cases taken
          refine ⟨?_, id, fun _ => .inr int, rfl, rfl, rfl⟩
          intro raised
          cases raised
        · cases taken
          exact ⟨id, id, id, rfl, rfl, rfl⟩
  | accepting =>
      simp only [point] at taken
      split at taken
      · cases taken
      · cases taken
        exact ⟨id, id, id, rfl, rfl, rfl⟩
  | joining j =>
      simp only [point] at taken
      split at taken
      · split at taken
        · cases taken
        · split at taken
          · cases taken
            exact ⟨id, id, id, rfl, rfl, rfl⟩
          · cases taken
      · cases taken
        exact ⟨id, id, id, rfl, rfl, rfl⟩
  | resetting =>
      simp only [point] at taken
      cases taken
      exact ⟨id, id, id, rfl, rfl, rfl⟩
  | returning =>
      simp only [point] at taken
      split at taken
      · cases taken
      · cases taken
        exact ⟨id, id, id, rfl, rfl, rfl⟩
  | ended =>
      simp only [point] at taken
      cases taken

theorem Lifecycle.threadStep_cases {self : Nat} {env : StepEnv World} {output : PassOutput}
    (taken : state.threadStep platform self env = .ok (next, output)) :
    self ∈ state.main.registry.created ∧ state.returned self = false ∧
      ((∃ heap, next =
          { state with
            main := state.main.withHeap heap
            returned := Function.update state.returned self true }) ∨
        ∃ thread shared,
          Thread.Taken platform self env (state.process.threads self).state state.process.shared
            (state.process.threads self).point thread shared output ∧
          next = { state with process := state.process.withThread self thread shared }) := by
  unfold Lifecycle.threadStep at taken
  split at taken
  · rename_i present
    refine ⟨present.1, present.2, ?_⟩
    split at taken
    · cases taken
    · split at taken
      · split at taken
        · cases taken
        · cases taken
          exact .inl ⟨_, rfl⟩
      · split at taken
        · cases taken
        · rename_i thread shared printed stepped
          cases taken
          exact .inr ⟨thread, shared, Thread.step_taken stepped, rfl⟩
  · cases taken

theorem LifecycleRun.signal_came {file : World} {steps : List (LifecycleStep World)}
    (run : LifecycleRun platform file steps state) :
    state.sigTermFlag = true ∨ state.sigIntFlag = true →
      ∃ taken signalNo, taken ∈ steps ∧ taken.label.1 = .signal signalNo := by
  induction run with
  | start =>
      intro raised
      rcases raised with term | int
      · cases term
      · cases int
  | @extend steps current next label earlier stepped ih =>
      intro raised
      have before : current.sigTermFlag = true ∨ current.sigIntFlag = true →
          ∃ taken signalNo, taken ∈ steps ++ [⟨current, label, next⟩] ∧
            taken.label.1 = .signal signalNo := by
        intro earlierRaised
        obtain ⟨taken, signalNo, member, acts⟩ := ih earlierRaised
        exact ⟨taken, signalNo, List.mem_append_left _ member, acts⟩
      obtain ⟨action, output⟩ := label
      cases action with
      | signal signalNo =>
          exact ⟨_, signalNo, List.mem_append_right _ (List.mem_singleton_self _), rfl⟩
      | main env =>
          apply before
          simp only [Succeeds, Lifecycle.step] at stepped
          cases taken : current.mainStep env with
          | error fault =>
              rw [taken] at stepped
              cases stepped
          | ok after =>
              rw [taken] at stepped
              cases stepped
              have frame := Lifecycle.mainStep_frame taken
              exact raised.imp frame.sigTermFlag frame.sigIntFlag
      | thread self env =>
          apply before
          obtain ⟨_, _, ⟨_, rfl⟩ | ⟨_, _, _, rfl⟩⟩ := Lifecycle.threadStep_cases stepped
          · exact raised
          · exact raised

end

/-- Whatever main, the handler and the threads do in whatever order, as long as
every accepted client gets its thread: no step uses arguments or a message buffer
that are not there, or joins an identifier that was never stored; there are at
most 99 threads; a thread leaves its loop only after a signal; and when the process
has ended, every thread has returned and what was allocated for it is freed. -/
theorem lifecycle_safe (platform : Platform) (file : World) (steps : List (LifecycleStep World))
    (final : Lifecycle World) (run : LifecycleRun platform file steps final)
    (creates : ∀ taken, taken ∈ steps → taken.label.1.Creates) :
    (∀ (action : LifecycleAction World) (fault : LifecycleFault), action.Creates →
        final.step platform action = .error fault → fault.isAccess = false) ∧
      final.main.registry.created.length ≤ 99 ∧
      (∀ self, (final.process.threads self).point.gone = true →
        ∃ taken signalNo, taken ∈ steps ∧ taken.label.1 = .signal signalNo) ∧
      (final.point = .ended →
        (∀ self, self ∈ final.main.registry.created → final.returned self = true) ∧
          ∀ block, ¬final.main.registry.heap.Live block) := by
  obtain ⟨count, sound⟩ := run.sound creates
  refine ⟨?_, ?_, ?_, ?_⟩
  · intro action fault created failed
    rcases sound.step platform created with
      ⟨next, output, later, taken, _⟩ | ⟨other, refused, benign⟩
    · rw [taken] at failed
      cases failed
    · rw [refused] at failed
      cases failed
      exact benign
  · rw [sound.created, List.length_range]
    exact sound.few
  · intro self gone
    exact run.signal_came (sound.signalled (sound.left self gone))
  · intro ended
    refine ⟨?_, sound.freed ended⟩
    intro self member
    rw [sound.created] at member
    have inside := List.mem_range.mp member
    exact sound.joined self inside (by rw [ended]; exact inside)

instance : (action : LifecycleAction World) → Decidable action.Creates
  | .main env =>
      inferInstanceAs (Decidable (0 < env.accept → env.thread.argsGranted = true ∧
        env.thread.msgGranted = true ∧ env.thread.pthreadCreate = 0))
  | .signal _ => .isTrue trivial
  | .thread _ _ => .isTrue trivial

theorem shortLine_inside : ([97, 10] : List UInt8).length ≤ serverMsgLen := by decide

def nextThreadStep (self : Nat) : LifecycleAction (List UInt8) :=
  .thread self { recv := .message [97, 10] shortLine_inside, file := plainFile }

/-- `accept` is interrupted. -/
def noClient : AcceptEnv :=
  { accept := -1, thread := { argsGranted := true, msgGranted := true, pthreadCreate := 0 } }

/-- A client is served, the process is told to stop while main waits for the next
client, and everything comes to its end. -/
theorem lifecycle_safe_one_client :
    ∃ steps final, LifecycleRun x86 ([] : List UInt8) steps final ∧ final.point = .ended ∧
      final.process.shared.file = [97, 10] ∧ final.returned 0 = true ∧
      ∀ block, ¬final.main.registry.heap.Live block := by
  obtain ⟨steps, final, run, seen⟩ := execute_observe (Lifecycle.step x86) (.start [])
    ([.main servedClient, .main servedClient, .main servedClient] ++
      (List.replicate 9 0).map nextThreadStep ++
      [.signal .sigterm, .main noClient, .main noClient] ++
      (List.replicate 3 0).map nextThreadStep ++ List.replicate 4 (.main noClient))
    (fun steps final => decide (
      (∀ taken, taken ∈ steps → taken.label.1.Creates) ∧ final.point = .ended ∧
      final.process.shared.file = [97, 10] ∧ 0 ∈ final.main.registry.created))
    true (by decide +kernel)
  obtain ⟨creates, ended, file, created⟩ := of_decide_eq_true seen
  obtain ⟨_, _, _, atEnd⟩ := lifecycle_safe x86 [] steps final run creates
  exact ⟨steps, final, run, ended, file, (atEnd ended).1 0 created, (atEnd ended).2⟩

/-! ### Asking whether a thread is complete -/

/-- The loop of `threadCompletionStatus` over the given indices. -/
def completionAmong (registry : Registry) (threadId : Nat) :
    List Nat → Except RegistryFault Bool
  | [] => .ok false
  | index :: rest =>
      match loadArgs registry.heap (registry.pThreadArgs index) with
      | .error fault => .error fault
      | .ok args =>
          if args.threadId = some threadId then .ok args.isComplete
          else completionAmong registry threadId rest

def Registry.threadCompletionStatus (registry : Registry) (threadId : Nat) :
    Except RegistryFault Bool :=
  completionAmong registry threadId (List.range threadMax)

section

variable {registry : Registry} {count threadId : Nat}

private theorem completionAmong_skips (exact : registry.Exact count) (rest : List Nat)
    (length : Nat) :
    ∀ first, first + length ≤ count → (∀ index, first ≤ index → index < first + length →
        index ≠ threadId) →
      completionAmong registry threadId (List.range' first length ++ rest) =
        completionAmong registry threadId rest := by
  induction length with
  | zero =>
      intro first _ _
      rfl
  | succ length ih =>
      intro first inside different
      obtain ⟨args, found, _, named⟩ := exact.args first (by omega)
      have other : ¬args.threadId = some threadId := by
        rw [named]
        intro same
        exact different first (Nat.le_refl _) (by omega) (Option.some.inj same)
      rw [List.range'_succ, List.cons_append, completionAmong, exact.slots first (by omega)]
      simp only [loadArgs, found, if_neg other]
      exact ih (first + 1) (by omega) fun index above below => different index (by omega) (by omega)

private theorem range_split {length count : Nat} (inside : count < length) :
    List.range length =
      List.range' 0 count ++ count :: List.range' (count + 1) (length - count - 1) := by
  have joined := List.range'_append_1 (s := 0) (m := count) (n := length - count - 1 + 1)
  rw [Nat.zero_add] at joined
  rw [List.range_eq_range', ← List.range'_succ, joined]
  congr 1
  omega

theorem Registry.Exact.completion_of_created (exact : registry.Exact count)
    (few : count ≤ threadMax) (inside : threadId < count) {args : ThreadArgs}
    (found : registry.heap.cell (2 * threadId) = some (.threadArgs args)) :
    registry.threadCompletionStatus threadId = .ok args.isComplete := by
  obtain ⟨other, foundOther, _, named⟩ := exact.args threadId inside
  rw [found] at foundOther
  cases foundOther
  unfold Registry.threadCompletionStatus
  rw [range_split (show threadId < threadMax by omega), completionAmong_skips exact _ threadId 0
    (by omega) (fun index _ below => by omega), completionAmong, exact.slots threadId inside]
  simp only [loadArgs, found, named, if_true]

theorem Registry.Exact.completion_of_unknown (exact : registry.Exact count)
    (few : count < threadMax) (unused : registry.pThreadArgs count = .indeterminate)
    (outside : count ≤ threadId) :
    registry.threadCompletionStatus threadId = .error .badAccess := by
  unfold Registry.threadCompletionStatus
  rw [range_split few, completionAmong_skips exact _ count 0 (by omega)
    (fun index _ below => by omega), completionAmong, unused]
  rfl

end

/-- Until the destructor runs, `threadCompletionStatus` tells of every thread that
was created whether it has returned; of any other identifier it tells nothing,
since its loop runs into a slot that was never filled. -/
theorem completion_status_exact (platform : Platform) (file : World)
    (steps : List (LifecycleStep World)) (final : Lifecycle World)
    (run : LifecycleRun platform file steps final)
    (creates : ∀ taken, taken ∈ steps → taken.label.1.Creates)
    (alive : final.point ≠ .ended) (threadId : Nat) :
    final.main.registry.threadCompletionStatus threadId =
      if threadId ∈ final.main.registry.created then .ok (final.returned threadId)
      else .error .badAccess := by
  obtain ⟨count, sound⟩ := run.sound creates
  have exact := sound.registered alive
  have few := sound.few
  have limit : threadMax = 100 := rfl
  rw [sound.created]
  by_cases inside : threadId < count
  · rw [if_pos (List.mem_range.mpr inside)]
    obtain ⟨args, found, same⟩ := sound.complete alive threadId inside
    rw [exact.registry.completion_of_created (by omega) inside found, same]
  · rw [if_neg (fun member => inside (List.mem_range.mp member))]
    exact exact.registry.completion_of_unknown (by omega) (sound.unused count (Nat.le_refl _))
      (Nat.not_lt.mp inside)

/-- The thread of the one client has returned, and main is about to join it. -/
theorem completion_status_one_client :
    ∃ steps final, LifecycleRun x86 ([] : List UInt8) steps final ∧ final.point = .joining 1 ∧
      final.main.registry.threadCompletionStatus 0 = .ok true ∧
      final.main.registry.threadCompletionStatus 1 = .error .badAccess := by
  obtain ⟨steps, final, run, seen⟩ := execute_observe (Lifecycle.step x86) (.start [])
    ([.main servedClient, .main servedClient, .signal .sigint, .main servedClient] ++
      (List.replicate 3 0).map nextThreadStep)
    (fun steps final => decide (
      (∀ taken, taken ∈ steps → taken.label.1.Creates) ∧ final.point = .joining 1 ∧
      final.main.registry.created = [0] ∧ final.returned 0 = true))
    true (by decide +kernel)
  obtain ⟨creates, joining, created, returned⟩ := of_decide_eq_true seen
  have alive : final.point ≠ .ended := by
    rw [joining]
    decide
  have status := completion_status_exact x86 [] steps final run creates alive
  refine ⟨steps, final, run, joining, ?_, ?_⟩
  · rw [status 0, created, if_pos (List.mem_singleton_self 0), returned]
  · rw [status 1, created, if_neg (by decide)]

end Aesd.Server
