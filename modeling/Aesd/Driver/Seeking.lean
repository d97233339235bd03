/-
Where seeking to the end leads, and what is read from there.

`aesd_lseek` moves to `buff_size` for `SEEK_END`, whatever the offset is, and
`buff_size` counts every byte of every command ever completed.  The request
"`back` bytes before the end" is met when it asks for the end itself and no
command has been overwritten; the counter is a `loff_t`, so the exact condition
is a congruence.
-/

import Aesd.Driver.ReadAccounting

namespace Aesd.Driver

open BlockHeap
open Execution
open Segments

def Covering (commands : List (List Byte)) (requests : List (ReadEnv × Nat)) : Prop :=
  ∀ request, request ∈ requests → request.1.Serves ∧ 0 < request.2 ∧
    ∀ command, command ∈ commands → command.length ≤ request.2

/-- Seeking `back` bytes before the end leads there from every position, the
reads from there deliver the last `back` bytes, and the other two ways of
seeking to this place lead to the same. -/
structure SeeksFromEnd (kernel : Kernel) (device : Device) (commands : List (List Byte))
    (back : Nat) : Prop where
  position : ∀ fPos, 0 ≤ fPos → fPos ≤ llongMax →
    aesdLseek device fPos (-back) 2 =
      ((commands.flatten.length : Int) - back, (commands.flatten.length : Int) - back)
  delivers : ∀ fPos requests, 0 ≤ fPos → fPos ≤ llongMax → Covering commands requests →
    commands.length < requests.length →
    ∃ reading, readUntilEnd kernel requests device (aesdLseek device fPos (-back) 2).1 =
        .ok reading ∧
      reading.ended = true ∧
      reading.received = commands.flatten.drop (commands.flatten.length - back)
  fromStart : ∀ fPos, 0 ≤ fPos → fPos ≤ llongMax →
    aesdLseek device fPos (-back) 2 =
      aesdLseek device fPos ((commands.flatten.length : Int) - back) 0
  fromHere : ∀ fPos, 0 ≤ fPos → fPos ≤ llongMax →
    aesdLseek device fPos (-back) 2 =
      aesdLseek device fPos ((commands.flatten.length : Int) - back - fPos) 1

/-! ### The three ways to seek -/

theorem aesdLseek_set (device : Device) (fPos : Int) {target : Int} (nonneg : 0 ≤ target) :
    aesdLseek device fPos target 0 = (target, target) := by
  unfold aesdLseek
  simp only [↓reduceIte]
  rw [if_neg (by omega)]

theorem aesdLseek_cur (device : Device) (fPos : Int) {target : Int} (nonneg : 0 ≤ target)
    (bounded : target ≤ llongMax) :
    aesdLseek device fPos (target - fPos) 1 = (target, target) := by
  unfold llongMax at bounded
  have sum : loffT (fPos + (target - fPos)) = target := by
    rw [add_sub_cancel]
    exact loffT_of_range (by omega) (by omega)
  unfold aesdLseek
  simp only [one_ne_zero, ↓reduceIte, sum]
  rw [if_neg (by omega)]

/-- The offset plays no part. -/
theorem aesdLseek_end_eq_iff (device : Device) (fPos off : Int) {target : Int}
    (nonneg : 0 ≤ target) :
    aesdLseek device fPos off 2 = (target, target) ↔ device.buffSize = target := by
  have moved : aesdLseek device fPos off 2 =
      if 0 > device.buffSize then (fPos, -einval) else (device.buffSize, device.buffSize) := rfl
  rw [moved]
  by_cases negative : 0 > device.buffSize
  · rw [if_pos negative]
    constructor
    · intro same
      have returned : -einval = target := congrArg Prod.snd same
      unfold einval at returned
      omega
    · intro same
      omega
  · rw [if_neg negative]
    constructor
    · intro same
      exact congrArg Prod.fst same
    · intro same
      rw [same]

/-! ### The end of a device that holds a log -/

namespace Device.Represents

variable {kernel : Kernel} {device : Device} {log : CommandLog}

/-- The counter stands `back` bytes before the end when the bytes that left the
ring make up for it modulo the range of the counter. -/
theorem buffSize_eq_iff (rep : device.Represents kernel log) (fit : kernel.RetainedFit)
    {back : Nat} (within : back ≤ log.retained.flatten.length) :
    device.buffSize = (log.retained.flatten.length : Int) - back ↔
      2 ^ 64 ∣ log.base + back := by
  have total := rep.retained_total_lt fit
  have whole : log.commands.flatten.length = log.base + log.retained.flatten.length := by
    have lengths := congrArg List.length log.stream_eq
    rw [List.length_append] at lengths
    exact lengths
  rw [rep.buffSize, whole, loffT_eq_iff (by omega) (by omega)]
  omega

theorem readUntilEnd_covering (rep : device.Represents kernel log) (fit : kernel.RetainedFit)
    {requests : List (ReadEnv × Nat)} (covering : Covering log.retained requests)
    (enough : log.retained.length < requests.length) {fPos : Int} (nonneg : 0 ≤ fPos)
    (bounded : fPos ≤ llongMax) :
    ∃ reading, readUntilEnd kernel requests device fPos = .ok reading ∧
      reading.ended = true ∧ reading.received = log.retained.flatten.drop fPos.toNat := by
  obtain ⟨after, _, read⟩ := readUntilEnd_serves fit requests device fPos _ rep nonneg bounded
    rfl (fun request member => ⟨(covering request member).1, (covering request member).2.1⟩)
  have pieces := remaining_length_le log.retained fPos.toNat
  have covered : ∀ pair,
      pair ∈ (remaining log.retained fPos.toNat).zip (requests.map Prod.snd) →
        pair.1.length ≤ pair.2 := by
    intro pair member
    obtain ⟨inPieces, inCounts⟩ := List.of_mem_zip member
    obtain ⟨command, retained, suffix⟩ := remaining_suffix inPieces
    obtain ⟨request, requested, count⟩ := List.mem_map.mp inCounts
    have covers := (covering request requested).2.2 command retained
    have shorter := suffix.length_le
    omega
  refine ⟨_, read, ?_, ?_⟩
  · exact decide_eq_true (Nat.lt_of_le_of_lt pieces enough)
  · change (trim _ _).flatten = _
    rw [(trim_flatten_eq_iff _ _).mpr covered, List.length_map,
      List.take_of_length_le (by omega), remaining_flatten]

theorem seeksFromEnd_iff (rep : device.Represents kernel log) (fit : kernel.RetainedFit)
    {back : Nat} (within : back ≤ log.retained.flatten.length) :
    SeeksFromEnd kernel device log.retained back ↔ 2 ^ 64 ∣ log.base + back := by
  have total := rep.retained_total_lt fit
  have nonneg : 0 ≤ (log.retained.flatten.length : Int) - back := by omega
  have bounded : (log.retained.flatten.length : Int) - back ≤ llongMax := by
    unfold llongMax
    omega
  rw [← rep.buffSize_eq_iff fit within]
  constructor
  · intro seeks
    exact (aesdLseek_end_eq_iff device 0 (-back) nonneg).mp
      (seeks.position 0 (Int.le_refl 0) (by decide))
  · intro size
    have reached : ∀ fPos, aesdLseek device fPos (-back) 2 =
        ((log.retained.flatten.length : Int) - back, (log.retained.flatten.length : Int) - back) :=
      fun fPos => (aesdLseek_end_eq_iff device fPos (-back) nonneg).mpr size
    constructor
    · intro fPos _ _
      exact reached fPos
    · intro fPos requests _ _ covering enough
      rw [reached fPos]
      have place : ((log.retained.flatten.length : Int) - back).toNat =
          log.retained.flatten.length - back := by
        omega
      rw [← place]
      exact rep.readUntilEnd_covering fit covering enough nonneg bounded
    · intro fPos _ _
      rw [reached fPos, aesdLseek_set device fPos nonneg]
    · intro fPos _ _
      rw [reached fPos, aesdLseek_cur device fPos nonneg bounded]

end Device.Represents

/-! ### Seeking over runs -/

/-- In every state a run reaches, seeking from the end is right exactly when the
overwritten bytes and the requested distance add up to a multiple of the range
of `loff_t`: short of that many bytes, when both are zero. -/
theorem seeks_from_end_iff (kernel : Kernel) (boot : InitEnv) (steps : List DriverStep)
    (system : System) (loaded : (aesdInitModule kernel boot).retval = 0)
    (run : DriverRun kernel boot steps system) (fit : kernel.RetainedFit)
    (log : CommandLog) (written : log = CommandLog.ofWrites (writtenBy steps))
    (back : Nat) (within : back ≤ log.retained.flatten.length) :
    (SeeksFromEnd kernel system.device log.retained back ↔
      2 ^ 64 ∣ log.evicted.flatten.length + back) ∧
    (log.evicted.flatten.length + back < 2 ^ 64 →
      (SeeksFromEnd kernel system.device log.retained back ↔
        log.evicted = [] ∧ back = 0)) := by
  obtain ⟨rep, _⟩ := DriverRun.represents loaded run
  rw [← written] at rep
  have exact := rep.seeksFromEnd_iff fit within
  refine ⟨exact, ?_⟩
  intro small
  rw [exact]
  constructor
  · intro multiple
    have zero := Nat.eq_zero_of_dvd_of_lt multiple small
    obtain ⟨noBytes, here⟩ := Nat.add_eq_zero_iff.mp zero
    refine ⟨?_, here⟩
    -- commands are not empty, so no bytes means no commands
    cases evicted : log.evicted with
    | nil => rfl
    | cons command rest =>
        have member : command ∈ log.commands := by
          rw [← log.evicted_append_retained, evicted]
          exact List.mem_append_left _ List.mem_cons_self
        have size := (rep.commandSizes command member).1
        rw [CommandLog.base, evicted, List.flatten_cons, List.length_append] at noBytes
        omega
  · intro condition
    obtain ⟨nothing, rfl⟩ := condition
    rw [CommandLog.base, nothing]
    exact Nat.dvd_zero _

/-- With `ab\n` and `c\n` in the ring, the end is found. -/
theorem seeks_from_end_two_commands :
    ∃ steps system, DriverRun commonKernel plainBoot steps system ∧
      SeeksFromEnd commonKernel system.device [[97, 98, 10], [99, 10]] 0 := by
  obtain ⟨steps, system, run, written⟩ := twoCommands_reached
  obtain ⟨exact, _⟩ := seeks_from_end_iff commonKernel plainBoot steps system (by decide) run
    (by decide) (CommandLog.ofWrites [[97, 98, 10], [99, 10]]) (by rw [written]) 0
    (Nat.zero_le _)
  exact ⟨steps, system, run, exact.mpr (by decide)⟩

/-- Two bytes before the end of `ab\nc\n` is not where `SEEK_END` with `-2`
leads: it stays at the end, and nothing is read there. -/
theorem seek_two_back_stays_at_end :
    ∃ steps system, DriverRun commonKernel plainBoot steps system ∧
      writtenBy steps = [[97, 98, 10], [99, 10]] ∧
      aesdLseek system.device 0 (-2) 2 = (5, 5) ∧
      aesdLseek system.device 0 3 0 = (3, 3) ∧
      ¬SeeksFromEnd commonKernel system.device [[97, 98, 10], [99, 10]] 2 := by
  obtain ⟨steps, system, run, seen⟩ := execute_observe (System.step commonKernel)
    (System.loaded commonKernel plainBoot) twoCommands
    (fun steps system => decide (writtenBy steps = [[97, 98, 10], [99, 10]] ∧
      aesdLseek system.device 0 (-2) 2 = (5, 5) ∧ aesdLseek system.device 0 3 0 = (3, 3)))
    true (by decide +kernel)
  obtain ⟨written, toEnd, toPlace⟩ := of_decide_eq_true seen
  refine ⟨steps, system, run, written, toEnd, toPlace, ?_⟩
  intro seeks
  have place := seeks.position 0 (Int.le_refl 0) (by decide)
  change aesdLseek system.device 0 (-2) 2 = (3, 3) at place
  rw [toEnd] at place
  exact absurd place (by decide)

end Aesd.Driver
