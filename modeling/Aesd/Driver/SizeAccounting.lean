/-
`dev->buff_size` against the entries of the ring.

The write path adds the size of every completed command and never takes the
size of an overwritten one away.  The field is the end of the device as the
lookup sees it until the first command is completed on a full ring, and no
longer.
-/

import Aesd.Driver.ReadLaw

namespace Aesd.Driver

open BlockHeap
open Execution
open Segments

/-- `buff_size` is the total size of the entries, which is where the lookup
stops finding any. -/
structure Device.SizeExact (device : Device) : Prop where
  total : device.buffSize = ((device.ring.entries.map BufferEntry.size).sum : Nat)
  firstMissing : ∀ position : Nat, position < 2 ^ 64 →
    ((aesdCircularBufferFindEntryOffsetForFpos device.ring position).entry = none ↔
      device.buffSize ≤ position)

/-- The call is a write that will complete a command while the ring is full. -/
def Overwrites (kernel : Kernel) (system : System) (call : Call) : Prop :=
  system.device.ring.full = true ∧
    ∃ file env buff fits fPos, call = .write file env buff fits ∧
      system.files file = some fPos ∧ rwVerifyArea fPos buff.length = true ∧
      env.Accepts kernel system.device buff ∧ endsCommand buff = true

/-! ### The size of a device that holds a log -/

namespace Device.Represents

variable {kernel : Kernel} {device : Device} {log : CommandLog}

theorem entriesTotal (rep : device.Represents kernel log) :
    (device.ring.entries.map BufferEntry.size).sum = log.retained.flatten.length := by
  rw [rep.entrySizes, ← List.length_flatten]

theorem lookup_missing_iff (rep : device.Represents kernel log) (fit : kernel.RetainedFit)
    (position : Nat) (fits : position < 2 ^ 64) :
    (aesdCircularBufferFindEntryOffsetForFpos device.ring position).entry = none ↔
      log.retained.flatten.length ≤ position := by
  rcases rep.lookup_cases fit position fits with
    ⟨past, missing⟩ | ⟨before, command, after, slot, offset, split, start, inside, found, _⟩
  · rw [missing]
    constructor
    · intro _
      exact past
    · intro _
      rfl
  · rw [found, split, List.flatten_append, List.flatten_cons, List.length_append,
      List.length_append]
    constructor
    · intro missing
      cases missing
    · intro past
      omega

theorem sizeExact_of_buffSize (rep : device.Represents kernel log) (fit : kernel.RetainedFit)
    (size : device.buffSize = (log.retained.flatten.length : Nat)) : device.SizeExact := by
  constructor
  · rw [rep.entriesTotal]
    exact size
  · intro position fits
    rw [rep.lookup_missing_iff fit position fits, size]
    exact Int.ofNat_le.symm

theorem sizeExact_of_few (rep : device.Represents kernel log) (fit : kernel.RetainedFit)
    (few : log.commands.length ≤ 10) : device.SizeExact := by
  have total := rep.retained_total_lt fit
  have everything : log.retained = log.commands := rtake_of_length_le few
  apply rep.sizeExact_of_buffSize fit
  rw [rep.buffSize, ← everything]
  exact loffT_of_range (by omega) (by omega)

theorem not_sizeExact_of_eleven (rep : device.Represents kernel log) (fit : kernel.RetainedFit)
    (eleven : log.commands.length = 11) : ¬device.SizeExact := by
  intro exact
  have total := rep.retained_total_lt fit
  have whole : log.commands.flatten.length =
      log.evicted.flatten.length + log.retained.flatten.length := by
    rw [← List.length_append, ← List.flatten_append, log.evicted_append_retained]
  obtain ⟨oldest, rest, commands⟩ := List.exists_cons_of_length_eq_add_one eleven
  have left : log.evicted = [oldest] := by
    rw [CommandLog.evicted, List.rdrop, eleven, commands]
    rfl
  have size := rep.commandSizes oldest (by rw [commands]; exact List.mem_cons_self)
  have addressable := kernel.addressable
  have unwrapped : device.buffSize = log.commands.flatten.length := by
    rw [rep.buffSize]
    apply loffT_of_range
    · omega
    · rw [whole, left, List.flatten_singleton]
      omega
  have claimed := exact.total
  rw [rep.entriesTotal, unwrapped, whole, left, List.flatten_singleton] at claimed
  omega

end Device.Represents

/-! ### Overwriting and the number of commands -/

section

variable {kernel : Kernel} {log : CommandLog} {before after : System} {call : Call}
variable {reply : Reply}

private theorem write_commands_length (log : CommandLog) (buff : List Byte) :
    (log.write buff).commands.length =
      if endsCommand buff then log.commands.length + 1 else log.commands.length := by
  unfold CommandLog.write
  split
  · rw [List.length_append, List.length_singleton]
  · rfl

theorem advance_length_of_overwrites (rep : before.device.Represents kernel log)
    (overwrites : Overwrites kernel before call)
    (taken : before.step kernel call = .ok (after, reply)) :
    (log.advance (call, reply)).commands.length = log.commands.length + 1 := by
  obtain ⟨_, file, env, buff, fits, fPos, rfl, opened, verified, accepts, ends⟩ := overwrites
  have nonempty : buff ≠ [] := by
    rintro rfl
    cases ends
  obtain ⟨next, answer, returned, success⟩ :=
    System.step_write_returns rep env fits nonempty opened verified
  rw [returned] at taken
  cases taken
  rw [advance_of_written (writtenBytes_eq_some.mpr
    ⟨file, env, fits, rfl, success.mpr accepts⟩), write_commands_length, if_pos ends]

theorem Effect.few_of_not_overwrites (rep : before.device.Represents kernel log)
    (few : log.commands.length ≤ 10)
    (effect : Effect kernel log before call reply after)
    (kept : ¬Overwrites kernel before call) :
    (log.advance (call, reply)).commands.length ≤ 10 := by
  cases written : writtenBytes (call, reply) with
  | none =>
      simp only [CommandLog.advance, written]
      exact few
  | some bytes =>
      rw [advance_of_written written, write_commands_length]
      by_cases ends : endsCommand bytes = true
      · obtain ⟨file, env, fits, fPos, call_eq, opened, verified, accepts⟩ :=
          effect.accepted_of_written written
        have notFull : ¬10 ≤ log.commands.length := by
          intro many
          exact kept ⟨rep.full_iff.mpr many, file, env, bytes, fits, fPos, call_eq, opened,
            verified, accepts, ends⟩
        rw [if_pos ends]
        omega
      · rw [if_neg ends]
        exact few

end

/-! ### Runs -/

def System.HoldsFew (kernel : Kernel) (system : System) : Prop :=
  ∃ log, system.device.Represents kernel log ∧ system.PositionsValid ∧
    log.commands.length ≤ 10

theorem buffSize_exact_iff_never_overwrites (kernel : Kernel) (boot : InitEnv)
    (steps : List DriverStep) (system : System)
    (loaded : (aesdInitModule kernel boot).retval = 0) (fit : kernel.RetainedFit)
    (run : DriverRun kernel boot steps system) :
    Throughout (fun state => state.device.SizeExact) steps system ↔
      ∀ taken, taken ∈ steps → ¬Overwrites kernel taken.before taken.label.1 := by
  apply run.throughout_iff (fun taken => ¬Overwrites kernel taken.before taken.label.1)
    (fun state => state.device.SizeExact) (System.HoldsFew kernel)
  · obtain ⟨rep, valid⟩ := DriverRun.represents loaded .start
    exact ⟨_, rep, valid, by decide⟩
  · rintro state ⟨log, rep, _, few⟩
    exact rep.sizeExact_of_few fit few
  · rintro taken ⟨log, rep, valid, few⟩ kept step
    have effect := System.step_effect rep valid step
    exact ⟨_, effect.represents rep, effect.positionsValid valid,
      effect.few_of_not_overwrites rep few kept⟩
  · rintro taken ⟨log, rep, valid, few⟩ overwrites step
    have overwriting := not_not.mp overwrites
    have repAfter := (System.step_effect rep valid step).represents rep
    have grown := advance_length_of_overwrites rep overwriting step
    have full := rep.full_iff.mp overwriting.1
    exact repAfter.not_sizeExact_of_eleven fit (by omega)

/-- The first ten of the eleven commands: the ring is full only at the end. -/
theorem buffSize_exact_for_ten_commands :
    ∃ steps system, DriverRun commonKernel plainBoot steps system ∧
      system.device.buffSize = 12 ∧
      Throughout (fun state => state.device.SizeExact) steps system := by
  obtain ⟨steps, system, run, seen⟩ := execute_observe (System.step commonKernel)
    (System.loaded commonKernel plainBoot) elevenCommands.dropLast
    (fun steps system =>
      (steps.all fun taken => !taken.before.device.ring.full, system.device.buffSize))
    (true, 12) (by decide +kernel)
  obtain ⟨neverFull, size⟩ := Prod.mk.inj seen
  refine ⟨steps, system, run, size, ?_⟩
  apply (buffSize_exact_iff_never_overwrites commonKernel plainBoot steps system (by decide)
    (by decide) run).mpr
  intro taken member overwrites
  have notFull := List.all_eq_true.mp neverFull taken member
  rw [overwrites.1] at notFull
  cases notFull

/-- After the eleventh command the field says thirteen, the ring holds ten bytes. -/
theorem buffSize_too_large_after_eleven_commands :
    ∃ steps system, DriverRun commonKernel plainBoot steps system ∧
      system.device.buffSize = 13 ∧
      (system.device.ring.entries.map BufferEntry.size).sum = 10 ∧
      (aesdCircularBufferFindEntryOffsetForFpos system.device.ring 10).entry = none := by
  obtain ⟨steps, system, run, seen⟩ := execute_observe (System.step commonKernel)
    (System.loaded commonKernel plainBoot) elevenCommands
    (fun _ system => (system.device.buffSize,
      (system.device.ring.entries.map BufferEntry.size).sum,
      (aesdCircularBufferFindEntryOffsetForFpos system.device.ring 10).entry))
    (13, 10, none) (by decide +kernel)
  obtain ⟨size, rest⟩ := Prod.mk.inj seen
  obtain ⟨total, missing⟩ := Prod.mk.inj rest
  exact ⟨steps, system, run, size, total, missing⟩

end Aesd.Driver
