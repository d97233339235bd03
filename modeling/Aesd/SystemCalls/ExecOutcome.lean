/-
What a caller of `do_exec` and `do_exec_redirect` learns.

True should mean that the child was waited for and exited with 0.  In the parent
both functions go by the same branch, which takes a child killed by a signal for
a success: the process number that `waitpid` returned stays in the variable that
is returned.  The redirecting function keeps the process number in an `unsigned
short` besides, so that it may take a failed `fork` for a child, wait for another
process or take itself for the child; and its child returns to the caller when
the file cannot be opened or duplicated.
-/

import Aesd.SystemCalls.DoExec

namespace Aesd.SystemCalls

/-- What the system calls return in the caller and in the child it forks.  The
caller makes the calls of the child only when it takes itself for the child. -/
structure CallOutcomes where
  fork : Int
  waitpid : Int → Option WaitStatus
  caller : ChildCalls
  child : ChildCalls

/-- `fork` fails or returns the number of a process. -/
def CallOutcomes.Forks (outcomes : CallOutcomes) : Prop :=
  outcomes.fork = -1 ∨ 0 < outcomes.fork

def CallOutcomes.inCaller (outcomes : CallOutcomes) : ProcessCalls :=
  { outcomes.caller with fork := outcomes.fork, waitpid := outcomes.waitpid }

def CallOutcomes.inChild (outcomes : CallOutcomes) : ProcessCalls :=
  { outcomes.child with fork := 0, waitpid := outcomes.waitpid }

variable {α : Type}

/-- True is returned exactly for a child that was waited for and exited with 0,
and false otherwise. -/
def CallerLearns (run : ProcessRun α) (outcomes : CallOutcomes) : Prop :=
  ∃ value, run.ending = .returned value ∧
    (value = true ↔ 0 < outcomes.fork ∧ .waitpid outcomes.fork ∈ run.events ∧
      outcomes.waitpid outcomes.fork = some (.exited 0))

/-- The function comes back once, in the caller. -/
structure OutcomeLaw (function : ProcessCalls → ProcessRun α) (outcomes : CallOutcomes) :
    Prop where
  caller : CallerLearns (function outcomes.inCaller) outcomes
  child : 0 < outcomes.fork → ∀ value, (function outcomes.inChild).ending ≠ .returned value

def exitedZero (waited : Option WaitStatus) : Bool :=
  waited = some (.exited 0)

def killed : Option WaitStatus → Bool
  | some (.signalled ..) => true
  | _ => false

def CallOutcomes.Fit (outcomes : CallOutcomes) : Prop :=
  if outcomes.fork = -1 then
    -- a failed `fork` is stored as 65535
    exitedZero (outcomes.waitpid 65535) = false ∧ killed (outcomes.waitpid 65535) = false
  else
    killed (outcomes.waitpid outcomes.fork) = false ∧
      outcomes.child.openFile ≠ -1 ∧ outcomes.child.dup2 ≠ -1 ∧
      (outcomes.fork < 65536 ∨
        -- the right answer is false, and what is done instead gives false as well
        exitedZero (outcomes.waitpid outcomes.fork) = false ∧
          if outcomes.fork % 65536 = 0 then
            outcomes.caller.openFile = -1 ∨ outcomes.caller.dup2 = -1
          else
            exitedZero (outcomes.waitpid (outcomes.fork % 65536)) = false ∧
              killed (outcomes.waitpid (outcomes.fork % 65536)) = false)

/-! ### The status macros -/

theorem wIfExited_eq (status : Nat) : wIfExited status = (status % 128 == 0) := by
  unfold wIfExited
  rw [Nat.and_two_pow_sub_one_eq_mod status 7]

theorem wExitStatus_eq (status : Nat) : wExitStatus status = status / 256 % 256 := by
  unfold wExitStatus
  rw [Nat.shiftRight_and_distrib, Nat.shiftRight_eq_div_pow]
  exact Nat.and_two_pow_sub_one_eq_mod (status / 256) 8

theorem wIfExited_exited (code : Fin 256) : wIfExited (WaitStatus.exited code).value = true := by
  rw [wIfExited_eq]
  simp only [WaitStatus.value, beq_iff_eq]
  omega

theorem wExitStatus_exited (code : Fin 256) :
    wExitStatus (WaitStatus.exited code).value = code.val := by
  have below := code.isLt
  rw [wExitStatus_eq]
  simp only [WaitStatus.value]
  omega

theorem wIfExited_signalled {signal : Nat} (valid : 0 < signal ∧ signal < 127) (dumped : Bool) :
    wIfExited (WaitStatus.signalled signal valid dumped).value = false := by
  rw [wIfExited_eq]
  simp only [WaitStatus.value, beq_eq_false_iff_ne]
  cases dumped with
  | false => simp only [Bool.false_eq_true, if_false]; omega
  | true => simp only [if_true]; omega

/-! ### The parent -/

section

variable {text : String} {calls : ProcessCalls} {childPid : Int}

theorem toBool_waitedValue (positive : 0 < childPid) (status : WaitStatus) :
    toBool (waitedValue childPid status.value) =
      (exitedZero (some status) || killed (some status)) := by
  unfold waitedValue
  cases status with
  | exited code =>
      rw [if_pos (wIfExited_exited code), wExitStatus_exited]
      by_cases zero : 0 = code.val
      · have same : code = 0 := Fin.ext zero.symm
        rw [if_pos zero, same]
        rfl
      · have other : ¬code = 0 := fun same => zero (congrArg Fin.val same).symm
        rw [if_neg zero]
        simp [toBool, exitedZero, killed, other]
  | signalled signal valid dumped =>
      have nonzero : toBool childPid = true := bne_iff_ne.mpr (by omega)
      rw [wIfExited_signalled valid dumped, if_neg Bool.false_ne_true, nonzero]
      simp [killed]

theorem awaitChild_ending (positive : 0 < childPid) :
    (awaitChild text calls childPid : ProcessRun α).ending =
      .returned (exitedZero (calls.waitpid childPid) || killed (calls.waitpid childPid)) := by
  have notFailed : ¬(-1 : Int) = childPid := by omega
  unfold awaitChild
  cases waited : calls.waitpid childPid with
  | none => rfl
  | some status =>
      simp only [Option.isSome_some, if_true, if_neg notFailed, Option.map_some, Option.getD_some,
        toBool_waitedValue positive]

theorem awaitChild_waits (positive : 0 < childPid) {pid : Int} :
    .waitpid pid ∈ (awaitChild text calls childPid : ProcessRun α).events ↔ pid = childPid := by
  have notFailed : ¬(-1 : Int) = childPid := by omega
  unfold awaitChild
  cases waited : calls.waitpid childPid with
  | none => simp
  | some status => simp [notFailed]

end

/-! ### What the caller learns -/

theorem exitedZero_iff {waited : Option WaitStatus} :
    exitedZero waited = true ↔ waited = some (.exited 0) :=
  decide_eq_true_iff

theorem exitedZero_of_killed {waited : Option WaitStatus} (bysignal : killed waited = true) :
    exitedZero waited = false := by
  apply decide_eq_false
  intro exited
  rw [exited] at bysignal
  cases bysignal

section

variable {outcomes : CallOutcomes} {run : ProcessRun α}

theorem callerLearns_waited (forked : 0 < outcomes.fork)
    (waits : .waitpid outcomes.fork ∈ run.events) :
    CallerLearns run outcomes ↔
      run.ending = .returned (exitedZero (outcomes.waitpid outcomes.fork)) := by
  constructor
  · intro learns
    obtain ⟨value, ending, right⟩ := learns
    have same : value = exitedZero (outcomes.waitpid outcomes.fork) := by
      rw [Bool.eq_iff_iff, right, exitedZero_iff]
      exact ⟨fun known => known.2.2, fun exited => ⟨forked, waits, exited⟩⟩
    rw [ending, same]
  · intro ending
    refine ⟨_, ending, ?_⟩
    rw [exitedZero_iff]
    exact ⟨fun exited => ⟨forked, waits, exited⟩, fun known => known.2.2⟩

theorem callerLearns_elsewhere
    (elsewhere : ¬0 < outcomes.fork ∨ .waitpid outcomes.fork ∉ run.events) :
    CallerLearns run outcomes ↔ run.ending = .returned false := by
  have unknown : ¬(0 < outcomes.fork ∧ .waitpid outcomes.fork ∈ run.events ∧
      outcomes.waitpid outcomes.fork = some (.exited 0)) := by
    intro known
    rcases elsewhere with failed | unwaited
    · exact failed known.1
    · exact unwaited known.2.1
  constructor
  · intro learns
    obtain ⟨value, ending, right⟩ := learns
    have same : value = false := eq_false_of_ne_true (mt right.mp unknown)
    rw [ending, same]
  · intro ending
    exact ⟨false, ending, ⟨fun impossible => absurd impossible Bool.false_ne_true,
      fun known => absurd known unknown⟩⟩

end

section

variable {outcomes : CallOutcomes} {text : String}

theorem inCaller_awaitChild_ending {childPid : Int} (positive : 0 < childPid) :
    (awaitChild text outcomes.inCaller childPid : ProcessRun α).ending =
      .returned (exitedZero (outcomes.waitpid childPid) || killed (outcomes.waitpid childPid)) :=
  awaitChild_ending positive

theorem awaitChild_learns (forked : 0 < outcomes.fork) :
    CallerLearns (awaitChild text outcomes.inCaller outcomes.fork : ProcessRun α) outcomes ↔
      killed (outcomes.waitpid outcomes.fork) = false := by
  rw [callerLearns_waited forked ((awaitChild_waits forked).mpr rfl),
    inCaller_awaitChild_ending forked, Ending.returned.injEq]
  cases bysignal : killed (outcomes.waitpid outcomes.fork) with
  | false => simp
  | true => simp [exitedZero_of_killed bysignal]

end

/-! ### The two functions -/

theorem loadProgram_ending {calls : ProcessCalls} {before : List (SystemEvent α)}
    {argv : List (Word α)} (value : Bool) :
    (loadProgram calls before argv).ending ≠ .returned value := by
  unfold loadProgram
  cases calls.execvLoads with
  | false => simp
  | true => simp

section

variable {args : List α} {outputfile : α} {calls : ProcessCalls}

theorem doExec_failed (failed : calls.fork = -1) :
    (doExec args calls).ending = .returned false := by
  simp only [doExec, if_pos failed.symm]

theorem doExec_parent (forked : 0 < calls.fork) :
    doExec args calls = awaitChild "waitpid: " calls calls.fork := by
  have notFailed : ¬(-1 : Int) = calls.fork := by omega
  have notChild : ¬(0 : Int) = calls.fork := by omega
  simp only [doExec, if_neg notFailed, if_neg notChild]

theorem unsignedShort_nonneg (value : Int) : 0 ≤ unsignedShort value :=
  Int.emod_nonneg value (by decide)

theorem doExecRedirect_parent (stored : unsignedShort calls.fork ≠ 0) :
    doExecRedirect outputfile args calls =
      awaitChild "waitpid" calls (unsignedShort calls.fork) := by
  have bounded := unsignedShort_nonneg calls.fork
  have notFailed : ¬(-1 : Int) = unsignedShort calls.fork := by omega
  simp only [doExecRedirect, if_neg notFailed, if_neg stored.symm]

theorem doExecRedirect_returns (stored : unsignedShort calls.fork = 0)
    (refused : calls.openFile = -1 ∨ calls.dup2 = -1) :
    (doExecRedirect outputfile args calls).ending = .returned false := by
  have notFailed : ¬(-1 : Int) = unsignedShort calls.fork := by rw [stored]; decide
  simp only [doExecRedirect, if_neg notFailed, if_pos stored.symm]
  by_cases opened : (-1 : Int) = calls.openFile
  · rw [if_pos opened]
  · have duplicated : calls.dup2 = -1 := refused.resolve_left (Ne.symm opened)
    rw [if_neg opened, if_pos duplicated.symm]

theorem doExecRedirect_returns_iff (stored : unsignedShort calls.fork = 0) :
    (∃ value, (doExecRedirect outputfile args calls).ending = .returned value) ↔
      calls.openFile = -1 ∨ calls.dup2 = -1 := by
  constructor
  · intro returns
    obtain ⟨value, ending⟩ := returns
    by_contra refused
    obtain ⟨opened, duplicated⟩ := not_or.mp refused
    rw [doExecRedirect_child stored opened duplicated] at ending
    exact loadProgram_ending value ending
  · intro refused
    exact ⟨false, doExecRedirect_returns stored refused⟩

theorem doExecRedirect_waits_not (stored : unsignedShort calls.fork = 0) (pid : Int) :
    .waitpid pid ∉ (doExecRedirect outputfile args calls).events := by
  have notFailed : ¬(-1 : Int) = unsignedShort calls.fork := by rw [stored]; decide
  simp only [doExecRedirect, if_neg notFailed, if_pos stored.symm, loadProgram]
  split_ifs <;> simp

end

section

variable {args : List α} {outputfile : α} {outcomes : CallOutcomes}

theorem doExec_law_failed (failed : outcomes.fork = -1) : OutcomeLaw (doExec args) outcomes := by
  have notForked : ¬0 < outcomes.fork := by omega
  constructor
  · exact (callerLearns_elsewhere (Or.inl notForked)).mpr (doExec_failed failed)
  · intro forked
    exact absurd forked notForked

theorem doExec_inCaller (forked : 0 < outcomes.fork) :
    doExec args outcomes.inCaller = awaitChild "waitpid: " outcomes.inCaller outcomes.fork :=
  doExec_parent forked

theorem doExec_law_iff (forked : 0 < outcomes.fork) :
    OutcomeLaw (doExec args) outcomes ↔ killed (outcomes.waitpid outcomes.fork) = false := by
  have learns : CallerLearns (doExec args outcomes.inCaller) outcomes ↔
      killed (outcomes.waitpid outcomes.fork) = false := by
    rw [doExec_inCaller forked]
    exact awaitChild_learns forked
  rw [← learns]
  constructor
  · intro law
    exact law.caller
  · intro right
    refine ⟨right, ?_⟩
    intro _ value
    rw [doExec_child rfl]
    exact loadProgram_ending value

/-- Its child stays away exactly when it gets to `execv`. -/
theorem doExecRedirect_law_iff (forked : 0 < outcomes.fork) :
    OutcomeLaw (doExecRedirect outputfile args) outcomes ↔
      CallerLearns (doExecRedirect outputfile args outcomes.inCaller) outcomes ∧
        outcomes.child.openFile ≠ -1 ∧ outcomes.child.dup2 ≠ -1 := by
  have returns : (∃ value, (doExecRedirect outputfile args outcomes.inChild).ending =
      .returned value) ↔ outcomes.child.openFile = -1 ∨ outcomes.child.dup2 = -1 :=
    doExecRedirect_returns_iff rfl
  rw [ne_eq, ne_eq, ← not_or, ← returns]
  constructor
  · intro law
    refine ⟨law.caller, ?_⟩
    intro comesBack
    obtain ⟨value, ending⟩ := comesBack
    exact law.child forked value ending
  · intro right
    exact ⟨right.1, fun _ value ending => right.2 ⟨value, ending⟩⟩

theorem doExecRedirect_inCaller (nonzero : outcomes.fork % 65536 ≠ 0) :
    doExecRedirect outputfile args outcomes.inCaller =
      awaitChild "waitpid" outcomes.inCaller (outcomes.fork % 65536) :=
  doExecRedirect_parent nonzero

/-- When nothing is left of the number, the caller takes itself for the child. -/
theorem doExecRedirect_ending_false_iff :
    (doExecRedirect outputfile args outcomes.inCaller).ending = .returned false ↔
      if outcomes.fork % 65536 = 0 then
        outcomes.caller.openFile = -1 ∨ outcomes.caller.dup2 = -1
      else
        exitedZero (outcomes.waitpid (outcomes.fork % 65536)) = false ∧
          killed (outcomes.waitpid (outcomes.fork % 65536)) = false := by
  by_cases zero : outcomes.fork % 65536 = 0
  · have stored : unsignedShort outcomes.inCaller.fork = 0 := zero
    rw [if_pos zero]
    constructor
    · intro ending
      exact (doExecRedirect_returns_iff stored).mp ⟨false, ending⟩
    · intro refused
      exact doExecRedirect_returns stored refused
  · rw [if_neg zero, doExecRedirect_inCaller zero, inCaller_awaitChild_ending (by omega),
      Ending.returned.injEq, Bool.or_eq_false_iff]

theorem doExecRedirect_law_failed (failed : outcomes.fork = -1) :
    OutcomeLaw (doExecRedirect outputfile args) outcomes ↔
      exitedZero (outcomes.waitpid 65535) = false ∧ killed (outcomes.waitpid 65535) = false := by
  have stored : outcomes.fork % 65536 = 65535 := by omega
  have notForked : ¬0 < outcomes.fork := by omega
  have learns : CallerLearns (doExecRedirect outputfile args outcomes.inCaller) outcomes ↔
      exitedZero (outcomes.waitpid 65535) = false ∧ killed (outcomes.waitpid 65535) = false := by
    rw [callerLearns_elsewhere (Or.inl notForked), doExecRedirect_ending_false_iff, stored]
    exact Iff.rfl
  rw [← learns]
  constructor
  · intro law
    exact law.caller
  · intro right
    exact ⟨right, fun forked => absurd forked notForked⟩

theorem doExecRedirect_learns_small (forked : 0 < outcomes.fork) (small : outcomes.fork < 65536) :
    CallerLearns (doExecRedirect outputfile args outcomes.inCaller) outcomes ↔
      killed (outcomes.waitpid outcomes.fork) = false := by
  have kept : outcomes.fork % 65536 = outcomes.fork := by omega
  rw [doExecRedirect_inCaller (by omega), kept]
  exact awaitChild_learns forked

theorem agree_small (forked : 0 < outcomes.fork) (small : outcomes.fork < 65536) :
    (doExec args outcomes.inCaller).ending =
      (doExecRedirect outputfile args outcomes.inCaller).ending := by
  have kept : outcomes.fork % 65536 = outcomes.fork := by omega
  rw [doExec_inCaller forked, doExecRedirect_inCaller (by omega), kept,
    inCaller_awaitChild_ending forked, inCaller_awaitChild_ending forked]

theorem doExecRedirect_learns_large (large : 65536 ≤ outcomes.fork) :
    CallerLearns (doExecRedirect outputfile args outcomes.inCaller) outcomes ↔
      (doExecRedirect outputfile args outcomes.inCaller).ending = .returned false := by
  apply callerLearns_elsewhere
  right
  by_cases zero : outcomes.fork % 65536 = 0
  · have stored : unsignedShort outcomes.inCaller.fork = 0 := zero
    exact doExecRedirect_waits_not stored outcomes.fork
  · rw [doExecRedirect_inCaller zero, awaitChild_waits (by omega)]
    omega

end

theorem exec_outcome_iff (outputfile : α) (args : List α) (outcomes : CallOutcomes)
    (forks : outcomes.Forks) :
    OutcomeLaw (doExec args) outcomes ∧ OutcomeLaw (doExecRedirect outputfile args) outcomes ∧
        (doExec args outcomes.inCaller).ending =
          (doExecRedirect outputfile args outcomes.inCaller).ending ↔
      outcomes.Fit := by
  unfold CallOutcomes.Fit
  rcases forks with failed | forked
  · rw [if_pos failed, ← doExecRedirect_law_failed failed]
    constructor
    · intro laws
      exact laws.2.1
    · intro redirecting
      have notForked : ¬0 < outcomes.fork := by omega
      have ending := (callerLearns_elsewhere (Or.inl notForked)).mp redirecting.caller
      refine ⟨doExec_law_failed failed, redirecting, ?_⟩
      rw [ending]
      exact doExec_failed failed
  · have notFailed : ¬outcomes.fork = -1 := by omega
    rw [if_neg notFailed, doExec_law_iff forked, doExecRedirect_law_iff forked]
    by_cases small : outcomes.fork < 65536
    · rw [doExecRedirect_learns_small forked small]
      constructor
      · intro laws
        obtain ⟨alive, ⟨_, opened, duplicated⟩, _⟩ := laws
        exact ⟨alive, opened, duplicated, Or.inl small⟩
      · intro fit
        obtain ⟨alive, opened, duplicated, _⟩ := fit
        exact ⟨alive, ⟨alive, opened, duplicated⟩, agree_small forked small⟩
    · have large : 65536 ≤ outcomes.fork := Int.not_lt.mp small
      rw [doExecRedirect_learns_large large, doExec_inCaller forked,
        inCaller_awaitChild_ending forked, ← doExecRedirect_ending_false_iff]
      constructor
      · intro laws
        obtain ⟨alive, ⟨ending, opened, duplicated⟩, agree⟩ := laws
        rw [alive, Bool.or_false, ending, Ending.returned.injEq] at agree
        exact ⟨alive, opened, duplicated, Or.inr ⟨agree, ending⟩⟩
      · intro fit
        obtain ⟨alive, opened, duplicated, instead⟩ := fit
        obtain ⟨unsuccessful, ending⟩ := instead.resolve_left small
        refine ⟨alive, ⟨ending, opened, duplicated⟩, ?_⟩
        rw [alive, unsuccessful, ending]
        rfl

/-- Everything succeeds up to `execv`. -/
def redirected : ChildCalls :=
  { openFile := 3, dup2 := 1, execvLoads := true }

def unopened : ChildCalls :=
  { openFile := -1, dup2 := -1, execvLoads := true }

def onlyChild (fork : Int) (waited : Option WaitStatus) (child : ChildCalls) : CallOutcomes :=
  { fork := fork
    waitpid := fun pid => if pid = fork then waited else none
    caller := redirected
    child := child }

theorem exec_outcome_small_number :
    (onlyChild 1234 (some (.exited 0)) redirected).Forks ∧
      OutcomeLaw (doExec ["/bin/true"]) (onlyChild 1234 (some (.exited 0)) redirected) ∧
      OutcomeLaw (doExecRedirect "out" ["/bin/true"])
        (onlyChild 1234 (some (.exited 0)) redirected) := by
  have forks : (onlyChild 1234 (some (.exited 0)) redirected).Forks := Or.inr (by decide)
  have fit : (onlyChild 1234 (some (.exited 0)) redirected).Fit := by
    unfold CallOutcomes.Fit
    decide
  have laws := (exec_outcome_iff "out" ["/bin/true"] _ forks).mpr fit
  exact ⟨forks, laws.1, laws.2.1⟩

/-- A child killed by a signal, numbers beyond the `unsigned short`, and an
output file that cannot be opened. -/
theorem exec_outcomes_wrong :
    (∃ valid, (doExec ["/bin/true"]
          (onlyChild 1234 (some (.signalled 9 valid false)) redirected).inCaller).ending =
        .returned true ∧
      ¬OutcomeLaw (doExec ["/bin/true"])
        (onlyChild 1234 (some (.signalled 9 valid false)) redirected)) ∧
      ((doExecRedirect "out" ["/bin/true"]
            (onlyChild 70000 (some (.exited 0)) redirected).inCaller).ending = .returned false ∧
        (doExec ["/bin/true"]
            (onlyChild 70000 (some (.exited 0)) redirected).inCaller).ending = .returned true) ∧
      ((doExecRedirect "out" ["/bin/true"]
            (onlyChild 65536 (some (.exited 0)) redirected).inCaller).ending = .replaced ∧
        ¬OutcomeLaw (doExecRedirect "out" ["/bin/true"])
          (onlyChild 65536 (some (.exited 0)) redirected)) ∧
      ((doExecRedirect "out" ["/bin/true"]
            (onlyChild 1234 (some (.exited 1)) unopened).inChild).ending = .returned false ∧
        ¬OutcomeLaw (doExecRedirect "out" ["/bin/true"])
          (onlyChild 1234 (some (.exited 1)) unopened)) := by
  have valid : 0 < 9 ∧ 9 < 127 := by decide
  have positive : (0 : Int) < 1234 := by decide
  refine ⟨⟨valid, ?_, ?_⟩, ⟨by decide, by decide⟩, ⟨by decide, ?_⟩, ⟨by decide, ?_⟩⟩
  · rw [doExec_inCaller positive]
    exact inCaller_awaitChild_ending positive
  · intro law
    have alive := (doExec_law_iff positive).mp law
    cases alive
  · intro law
    obtain ⟨value, ending, _⟩ := law.caller
    cases ending
  · intro law
    exact law.child positive false (by decide)

end Aesd.SystemCalls
