/-
`do_exec` and `do_exec_redirect` of `examples/systemcalls`.

After `fork` two processes run the same function, so each function is embedded
as what one process does, given what the system calls return in that process:
the calls it makes, in order, and how it ends.  A process may return from the
function, exit, or go on as another program.

A word read behind the end of `command` is a stray one.  Both functions copy a
fixed number of words of `command` into the vector for `execv`, whatever the
number of arguments is.
-/

import Mathlib

namespace Aesd.SystemCalls

inductive Word (α : Type) where
  | argument (string : α)
  | null
  | stray
deriving DecidableEq

inductive WaitStatus where
  | exited (code : Fin 256)
  | signalled (signal : Nat) (valid : 0 < signal ∧ signal < 127) (dumped : Bool)
deriving DecidableEq

/-- What `waitpid` stores in `status`. -/
def WaitStatus.value : WaitStatus → Nat
  | .exited code => code.val * 256
  | .signalled signal _ dumped => signal + if dumped then 128 else 0

/-- The macro `WIFEXITED`. -/
def wIfExited (status : Nat) : Bool :=
  (status &&& 0x7f) == 0

/-- The macro `WEXITSTATUS`. -/
def wExitStatus (status : Nat) : Nat :=
  (status &&& 0xff00) >>> 8

/-- What the calls return that only one of the two processes is meant to make.
`execv` does not return when the program is loaded. -/
structure ChildCalls where
  openFile : Int
  dup2 : Int
  execvLoads : Bool
deriving DecidableEq

/-- What the system calls return in one process; `waitpid` either fails or
returns the process it was called for. -/
structure ProcessCalls extends ChildCalls where
  fork : Int
  waitpid : Int → Option WaitStatus

inductive SystemEvent (α : Type) where
  | readCommand (index : Nat)
  | waitpid (childPid : Int)
  | openFile (outputfile : α)
  | dup2 (fd : Int)
  | execv (path : Word α) (argv : List (Word α))
  | perror (text : String)
deriving DecidableEq

inductive Ending where
  | returned (value : Bool)
  | exited (status : Int)
  | replaced
deriving DecidableEq

structure ProcessRun (α : Type) where
  events : List (SystemEvent α)
  ending : Ending
deriving DecidableEq

/-! ### The functions -/

variable {α : Type}

/-- The loop over the variable arguments, from index `i` on, and the `NULL`
stored behind it. -/
def fillCommand : List α → Nat → List (Word α) → List (Word α)
  | [], i, command => command.set i .null
  | next :: args, i, command => fillCommand args (i + 1) (command.set i (.argument next))

/-- The array `command`, of `count + 1` words. -/
def buildCommand (args : List α) : List (Word α) :=
  fillCommand args 0 (List.replicate (args.length + 1) .stray)

def readWord (command : List (Word α)) (index : Nat) : Word α :=
  command.getD index .stray

/-- A stored `int` as a `bool`. -/
def toBool (value : Int) : Bool :=
  value != 0

def unsignedShort (value : Int) : Int :=
  value % 65536

/-- What is returned after `waitpid` has succeeded; a status other than that of
an exit leaves what `waitpid` returned. -/
def waitedValue (retValue : Int) (status : Nat) : Int :=
  if wIfExited status then
    if 0 = wExitStatus status then 1 else 0
  else retValue

/-- The parent's branch of both functions. -/
def awaitChild (text : String) (calls : ProcessCalls) (childPid : Int) : ProcessRun α :=
  let waited := calls.waitpid childPid
  let retValue := if waited.isSome then childPid else -1
  let status := (waited.map WaitStatus.value).getD 0
  if -1 = retValue then
    { events := [.waitpid childPid, .perror text], ending := .returned (toBool 0) }
  else
    { events := [.waitpid childPid]
      ending := .returned (toBool (waitedValue retValue status)) }

/-- The end of the child's branch of both functions. -/
def loadProgram (calls : ProcessCalls) (before : List (SystemEvent α)) (argv : List (Word α)) :
    ProcessRun α :=
  let called := before ++ [.execv (argv.getD 0 .stray) argv]
  if calls.execvLoads then { events := called, ending := .replaced }
  else { events := called ++ [.perror "execv"], ending := .exited (-1) }

def doExec (args : List α) (calls : ProcessCalls) : ProcessRun α :=
  let command := buildCommand args
  let childPid := calls.fork
  if -1 = childPid then
    { events := [.perror "fork: "], ending := .returned false }
  else if 0 = childPid then
    let argv := [readWord command 0, readWord command 1, readWord command 2, .null]
    loadProgram calls [.readCommand 0, .readCommand 1, .readCommand 2] argv
  else awaitChild "waitpid: " calls childPid

def doExecRedirect (outputfile : α) (args : List α) (calls : ProcessCalls) : ProcessRun α :=
  let command := buildCommand args
  -- `child_pid` is an `unsigned short`
  let childPid := unsignedShort calls.fork
  if -1 = childPid then
    { events := [.perror "fork"], ending := .returned false }
  else if 0 = childPid then
    let argv :=
      [readWord command 0, readWord command 1, readWord command 2, readWord command 3]
    let opened := [.readCommand 0, .readCommand 1, .readCommand 2, .readCommand 3,
      .openFile outputfile]
    if -1 = calls.openFile then
      { events := opened ++ [.perror "open"], ending := .returned false }
    else
      let duplicated := opened ++ [.dup2 calls.openFile]
      if -1 = calls.dup2 then
        { events := duplicated ++ [.perror "dup2"], ending := .returned false }
      else loadProgram calls duplicated argv
  else awaitChild "waitpid" calls childPid

/-! ### The array of arguments -/

theorem fillCommand_eq (args : List α) (front : List (Word α)) :
    fillCommand args front.length (front ++ List.replicate (args.length + 1) .stray) =
      front ++ args.map .argument ++ [.null] := by
  induction args generalizing front with
  | nil => simp [fillCommand]
  | cons next args ih =>
      have stored : (front ++ List.replicate (args.length + 1 + 1) Word.stray).set front.length
            (.argument next) =
          (front ++ [.argument next]) ++ List.replicate (args.length + 1) .stray := by
        rw [List.replicate_succ, List.set_append_right _ _ (Nat.le_refl _), Nat.sub_self,
          List.set_cons_zero, List.append_assoc, List.singleton_append]
      have filled := ih (front ++ [.argument next])
      rw [List.length_append, List.length_singleton] at filled
      rw [fillCommand, List.length_cons, stored, filled]
      simp

theorem buildCommand_eq (args : List α) :
    buildCommand args = args.map .argument ++ [.null] :=
  fillCommand_eq args []

/-! ### What `execv` is given -/

def SystemEvent.argv? : SystemEvent α → Option (List (Word α))
  | .execv _ argv => some argv
  | _ => none

def SystemEvent.commandIndex? : SystemEvent α → Option Nat
  | .readCommand index => some index
  | _ => none

/-- The vectors given to `execv`. -/
def ProcessRun.executed (run : ProcessRun α) : List (List (Word α)) :=
  run.events.filterMap SystemEvent.argv?

/-- The indices at which `command` is read. -/
def ProcessRun.commandReads (run : ProcessRun α) : List Nat :=
  run.events.filterMap SystemEvent.commandIndex?

/-- The vector begins with the arguments and a null pointer, where `execv` stops
reading, and nothing behind the end of `command` is read. -/
structure PassesArguments (args : List α) (run : ProcessRun α) : Prop where
  vector : ∃ behind, run.executed = [args.map .argument ++ .null :: behind]
  within : ∀ index, index ∈ run.commandReads → index ≤ args.length

section

variable {args : List α} {calls : ProcessCalls}

theorem loadProgram_executed {before : List (SystemEvent α)} {argv : List (Word α)} :
    (loadProgram calls before argv).executed =
      before.filterMap SystemEvent.argv? ++ [argv] := by
  unfold loadProgram ProcessRun.executed
  cases calls.execvLoads with
  | false => simp [SystemEvent.argv?]
  | true => simp [SystemEvent.argv?]

theorem loadProgram_commandReads {before : List (SystemEvent α)} {argv : List (Word α)} :
    (loadProgram calls before argv).commandReads =
      before.filterMap SystemEvent.commandIndex? := by
  unfold loadProgram ProcessRun.commandReads
  cases calls.execvLoads with
  | false => simp [SystemEvent.commandIndex?]
  | true => simp [SystemEvent.commandIndex?]

theorem doExec_child (child : calls.fork = 0) :
    doExec args calls = loadProgram calls [.readCommand 0, .readCommand 1, .readCommand 2]
      [readWord (buildCommand args) 0, readWord (buildCommand args) 1,
        readWord (buildCommand args) 2, .null] := by
  have forked : ¬(-1 : Int) = calls.fork := by rw [child]; decide
  simp only [doExec, if_neg forked, if_pos child.symm]

theorem doExecRedirect_child {outputfile : α} (stored : unsignedShort calls.fork = 0)
    (opened : calls.openFile ≠ -1) (duplicated : calls.dup2 ≠ -1) :
    doExecRedirect outputfile args calls = loadProgram calls
      [.readCommand 0, .readCommand 1, .readCommand 2, .readCommand 3, .openFile outputfile,
        .dup2 calls.openFile]
      [readWord (buildCommand args) 0, readWord (buildCommand args) 1,
        readWord (buildCommand args) 2, readWord (buildCommand args) 3] := by
  have forked : ¬(-1 : Int) = unsignedShort calls.fork := by rw [stored]; decide
  simp only [doExecRedirect, if_neg forked, if_pos stored.symm, if_neg opened.symm,
    if_neg duplicated.symm]
  rfl

theorem passesArguments_iff {run : ProcessRun α} {argv : List (Word α)} (last : Nat)
    (executed : run.executed = [argv]) (reads : run.commandReads = List.range (last + 1)) :
    PassesArguments args run ↔
      (∃ behind, argv = args.map .argument ++ .null :: behind) ∧ last ≤ args.length := by
  constructor
  · intro passes
    obtain ⟨behind, vector⟩ := passes.vector
    refine ⟨⟨behind, ?_⟩, ?_⟩
    · rw [executed] at vector
      exact (List.cons.inj vector).1
    · apply passes.within last
      rw [reads]
      exact List.mem_range.mpr (Nat.lt_succ_self last)
  · intro passed
    obtain ⟨⟨behind, vector⟩, reached⟩ := passed
    constructor
    · exact ⟨behind, by rw [executed, vector]⟩
    · intro index member
      rw [reads, List.mem_range] at member
      omega

theorem vector_room {argv behind : List (Word α)}
    (vector : argv = args.map .argument ++ .null :: behind) : args.length < argv.length := by
  rw [vector, List.length_append, List.length_map, List.length_cons]
  omega

theorem doExec_passesArguments (args : List α) (child : calls.fork = 0) :
    PassesArguments args (doExec args calls) ↔ args.length = 2 ∨ args.length = 3 := by
  rw [doExec_child child,
    passesArguments_iff 2 loadProgram_executed (loadProgram_commandReads.trans rfl)]
  constructor
  · intro passed
    obtain ⟨⟨behind, vector⟩, reached⟩ := passed
    have room : args.length < 4 := vector_room vector
    omega
  · intro number
    rw [buildCommand_eq]
    rcases number with two | three
    · obtain ⟨program, first, rfl⟩ := List.length_eq_two.mp two
      exact ⟨⟨[.null], rfl⟩, Nat.le_refl 2⟩
    · obtain ⟨program, first, second, rfl⟩ := List.length_eq_three.mp three
      exact ⟨⟨[], rfl⟩, Nat.le_succ 2⟩

theorem doExecRedirect_passesArguments {outputfile : α} (child : calls.fork = 0)
    (opened : calls.openFile ≠ -1) (duplicated : calls.dup2 ≠ -1) :
    PassesArguments args (doExecRedirect outputfile args calls) ↔ args.length = 3 := by
  have stored : unsignedShort calls.fork = 0 := by rw [child]; rfl
  rw [doExecRedirect_child stored opened duplicated,
    passesArguments_iff 3 loadProgram_executed (loadProgram_commandReads.trans rfl)]
  constructor
  · intro passed
    obtain ⟨⟨behind, vector⟩, reached⟩ := passed
    have room : args.length < 4 := vector_room vector
    omega
  · intro number
    rw [buildCommand_eq]
    obtain ⟨program, first, second, rfl⟩ := List.length_eq_three.mp number
    exact ⟨⟨[], rfl⟩, Nat.le_refl 3⟩

end

theorem argument_vectors_iff (outputfile : α) (args : List α) (calls : ProcessCalls)
    (child : calls.fork = 0) (opened : calls.openFile ≠ -1) (duplicated : calls.dup2 ≠ -1) :
    (PassesArguments args (doExec args calls) ∧
        PassesArguments args (doExecRedirect outputfile args calls) ↔ args.length = 3) ∧
      (PassesArguments args (doExec args calls) ↔ args.length = 2 ∨ args.length = 3) := by
  have plain := doExec_passesArguments args child
  rw [doExecRedirect_passesArguments child opened duplicated, plain]
  constructor
  · omega
  · exact Iff.rfl

def childCalls : ProcessCalls :=
  { fork := 0, waitpid := fun _ => none, openFile := 3, dup2 := 1, execvLoads := true }

theorem two_arguments_passed :
    childCalls.fork = 0 ∧
      PassesArguments ["/bin/echo", "a", "b"] (doExec ["/bin/echo", "a", "b"] childCalls) ∧
      PassesArguments ["/bin/echo", "a", "b"]
        (doExecRedirect "out" ["/bin/echo", "a", "b"] childCalls) := by
  have passed := (argument_vectors_iff "out" ["/bin/echo", "a", "b"] childCalls rfl (by decide)
    (by decide)).1.mpr rfl
  exact ⟨rfl, passed.1, passed.2⟩

/-- No argument behind the program, and three of them. -/
theorem arguments_not_passed :
    ((doExec ["/bin/true"] childCalls).commandReads = [0, 1, 2] ∧
        ¬PassesArguments ["/bin/true"] (doExec ["/bin/true"] childCalls)) ∧
      ((doExecRedirect "out" ["/bin/true"] childCalls).commandReads = [0, 1, 2, 3] ∧
        ¬PassesArguments ["/bin/true"] (doExecRedirect "out" ["/bin/true"] childCalls)) ∧
      ((doExec ["/bin/echo", "a", "b", "c"] childCalls).executed =
          [[.argument "/bin/echo", .argument "a", .argument "b", .null]] ∧
        ¬PassesArguments ["/bin/echo", "a", "b", "c"]
          (doExec ["/bin/echo", "a", "b", "c"] childCalls)) ∧
      ((doExecRedirect "out" ["/bin/echo", "a", "b", "c"] childCalls).executed =
          [[.argument "/bin/echo", .argument "a", .argument "b", .argument "c"]] ∧
        ¬PassesArguments ["/bin/echo", "a", "b", "c"]
          (doExecRedirect "out" ["/bin/echo", "a", "b", "c"] childCalls)) := by
  have opened : childCalls.openFile ≠ -1 := by decide
  have duplicated : childCalls.dup2 ≠ -1 := by decide
  refine ⟨⟨rfl, ?_⟩, ⟨rfl, ?_⟩, ⟨rfl, ?_⟩, ⟨rfl, ?_⟩⟩
  · rw [doExec_passesArguments _ rfl]
    decide
  · rw [doExecRedirect_passesArguments rfl opened duplicated]
    decide
  · rw [doExec_passesArguments _ rfl]
    decide
  · rw [doExecRedirect_passesArguments rfl opened duplicated]
    decide

end Aesd.SystemCalls
