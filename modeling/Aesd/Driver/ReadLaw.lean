/-
What a read delivers under any interleaving with writers.

Let `S` be the concatenation of all commands completed so far and `E` the
length of those that have left the ring.  A file position `p` stands for the
byte `E + p` of `S`: the base moves with every command that is evicted, the
position stays.  A read delivers the rest of the command that holds this byte.
-/

import Aesd.Driver.WriteHistory

namespace Aesd.Driver

open BlockHeap
open Execution
open Segments

/-- Ten commands of the largest size the allocator grants are shorter than the
range of the lookup's `unsigned int` sums. -/
def Kernel.RetainedFit (kernel : Kernel) : Prop :=
  10 * kernel.kmallocMaxSize < 2 ^ 32

instance (kernel : Kernel) : Decidable kernel.RetainedFit :=
  inferInstanceAs (Decidable (_ < _))

private theorem flatten_length_le (segments : List (List Byte)) (bound : Nat)
    (each : ∀ segment, segment ∈ segments → segment.length ≤ bound) :
    segments.flatten.length ≤ segments.length * bound := by
  induction segments with
  | nil => exact Nat.zero_le _
  | cons segment rest ih =>
      have first := each segment List.mem_cons_self
      have later := ih fun other member => each other (List.mem_cons_of_mem _ member)
      rw [List.flatten_cons, List.length_append, List.length_cons, Nat.succ_mul]
      omega

/-! ### The lookup on the commands -/

namespace Device.Represents

variable {kernel : Kernel} {device : Device} {log : CommandLog}

theorem entrySizes (rep : device.Represents kernel log) :
    device.ring.entries.map BufferEntry.size = log.retained.map List.length := by
  have paired : List.Forall₂ (fun (entry : BufferEntry) (command : List Byte) =>
      entry.size = command.length) device.ring.entries log.retained := by
    apply rep.retained.imp
    intro entry command holds
    obtain ⟨_, _, _, size⟩ := holds
    exact size
  rw [← List.forall₂_eq_eq_eq, List.forall₂_map_left_iff, List.forall₂_map_right_iff]
  exact paired

theorem retained_total_lt (rep : device.Represents kernel log) (fit : kernel.RetainedFit) :
    log.retained.flatten.length < 2 ^ 32 := by
  have each : ∀ command, command ∈ log.retained → command.length ≤ kernel.kmallocMaxSize := by
    intro command member
    exact (rep.commandSizes command (List.mem_of_mem_drop member)).2
  have total := flatten_length_le log.retained kernel.kmallocMaxSize each
  have few : log.retained.length ≤ 10 := by
    rw [log.retained_length]
    omega
  have bounded := Nat.mul_le_mul_right kernel.kmallocMaxSize few
  unfold Kernel.RetainedFit at fit
  omega

private theorem slot_holds (rep : device.Represents kernel log)
    {before after : List (List Byte)} {command : List Byte}
    (split : log.retained = before ++ command :: after) :
    ∃ slot, device.ring.slots[before.length]? = some slot ∧
      EntryHolds device.memory (device.ring.entry slot) command := by
  have sameLength := rep.retained.length_eq
  have inRetained : before.length < log.retained.length := by
    rw [split, List.length_append, List.length_cons]
    omega
  have inEntries : before.length < device.ring.entries.length := by omega
  have inSlots : before.length < device.ring.slots.length := by
    rw [CircularBuffer.entries, List.length_map] at inEntries
    exact inEntries
  have holds := rep.retained.get inEntries inRetained
  have command_eq : log.retained.get ⟨before.length, inRetained⟩ = command := by
    rw [List.get_eq_getElem]
    simp only [split, List.getElem_append_right, Nat.le_refl, Nat.sub_self,
      List.getElem_cons_zero]
  have entry_eq : device.ring.entries.get ⟨before.length, inEntries⟩ =
      device.ring.entry (device.ring.slots.get ⟨before.length, inSlots⟩) := by
    rw [List.get_eq_getElem, List.get_eq_getElem]
    simp only [CircularBuffer.entries, List.getElem_map]
  rw [command_eq, entry_eq] at holds
  exact ⟨_, List.getElem?_eq_getElem inSlots, holds⟩

theorem lookup_cases (rep : device.Represents kernel log) (fit : kernel.RetainedFit)
    (position : Nat) (fits : position < 2 ^ 64) :
    (log.retained.flatten.length ≤ position ∧
      aesdCircularBufferFindEntryOffsetForFpos device.ring position = .notFound) ∨
    ∃ before command after slot offset,
      log.retained = before ++ command :: after ∧
      before.flatten.length + offset = position ∧ offset < command.length ∧
      aesdCircularBufferFindEntryOffsetForFpos device.ring position =
        { entry := some slot, entryOffsetByte := offset } ∧
      EntryHolds device.memory (device.ring.entry slot) command := by
  have sizesFit : (device.ring.entries.map BufferEntry.size).sum < 2 ^ 32 := by
    rw [rep.entrySizes, ← List.length_flatten]
    exact rep.retained_total_lt fit
  rw [aesdCircularBufferFindEntryOffsetForFpos_eq device.ring position rep.ring fits sizesFit,
    rep.entrySizes]
  cases located : locate (log.retained.map List.length) position with
  | none =>
      left
      rw [locate_eq_none_iff, ← List.length_flatten] at located
      exact ⟨located, rfl⟩
  | some found =>
      right
      obtain ⟨index, offset⟩ := found
      obtain ⟨before, command, after, split, rfl, total, inside⟩ := locate_lengths located
      obtain ⟨slot, slotAt, holds⟩ := rep.slot_holds split
      refine ⟨before, command, after, slot, offset, split, total, inside, ?_, holds⟩
      simp only [slotAt]

/-! ### One read -/

theorem aesdRead_past (rep : device.Represents kernel log) (fit : kernel.RetainedFit)
    {env : ReadEnv} (count : Nat) {fPos : Int} (locked : env.lockInterrupted = false)
    (nonneg : 0 ≤ fPos) (bounded : fPos ≤ llongMax)
    (past : log.retained.flatten.length ≤ fPos.toNat) :
    aesdRead kernel env device count fPos =
      .ok { device := device, fPos := fPos, retval := 0, delivered := [] } := by
  unfold llongMax at bounded
  have position : loffToSizeT fPos = fPos.toNat := loffToSizeT_of_nonneg nonneg (by omega)
  have missing : aesdCircularBufferFindEntryOffsetForFpos device.ring (loffToSizeT fPos) =
      .notFound := by
    rcases rep.lookup_cases fit (loffToSizeT fPos) (loffToSizeT_lt fPos) with
      ⟨_, missing⟩ | ⟨before, command, after, slot, offset, split, total, inside, _, _⟩
    · exact missing
    · rw [split, List.flatten_append, List.flatten_cons, List.length_append,
        List.length_append] at past
      omega
  unfold aesdRead
  rw [if_neg (by simp [locked]), missing]
  rfl

theorem aesdRead_inside (rep : device.Represents kernel log) (fit : kernel.RetainedFit)
    {env : ReadEnv} {fPos : Int} (locked : env.lockInterrupted = false)
    (granted : env.kmallocGranted = true) (copied : env.notCopied = 0)
    (nonneg : 0 ≤ fPos) (bounded : fPos ≤ llongMax)
    (inside : fPos.toNat < log.retained.flatten.length) :
    ∃ before command after offset,
      log.retained = before ++ command :: after ∧
      before.flatten.length + offset = fPos.toNat ∧ offset < command.length ∧
      ∀ count, ∃ memory,
        aesdRead kernel env device count fPos =
          .ok { device := { device with memory := memory }
                fPos := fPos + (command.drop offset).length
                retval := if count > (command.drop offset).length
                  then (command.drop offset).length else count
                delivered := command.drop offset } := by
  have total := rep.retained_total_lt fit
  unfold llongMax at bounded
  have position : loffToSizeT fPos = fPos.toNat := loffToSizeT_of_nonneg nonneg (by omega)
  rcases rep.lookup_cases fit (loffToSizeT fPos) (loffToSizeT_lt fPos) with
    ⟨past, _⟩ | ⟨before, command, after, slot, offset, split, start, within, lookup, holds⟩
  · omega
  · have member : command ∈ log.commands := by
      apply List.mem_of_mem_drop
      change command ∈ log.retained
      rw [split]
      exact List.mem_append_right _ List.mem_cons_self
    have small := (rep.commandSizes command member).2
    have advanced : loffT (fPos + (command.drop offset).length) =
        fPos + (command.drop offset).length := by
      have addressable := kernel.addressable
      apply loffT_of_range
      · omega
      · rw [List.length_drop]
        omega
    refine ⟨before, command, after, offset, split, by omega, within, ?_⟩
    intro count
    obtain ⟨memory, _, outcome⟩ := aesdRead_allocated kernel env device count fPos locked granted
      lookup holds within small
    have complete : leftOver env.notCopied (command.drop offset).length = 0 := by
      rw [copied]
      exact Nat.zero_min _
    refine ⟨memory, ?_⟩
    rw [outcome]
    unfold readOutcome
    rw [if_neg (not_not_intro complete), advanced]

end Device.Represents

/-! ### The law over runs -/

def CommandLog.stream (log : CommandLog) : List Byte :=
  log.commands.flatten

/-- Where the retained commands start in the stream. -/
def CommandLog.base (log : CommandLog) : Nat :=
  log.evicted.flatten.length

theorem CommandLog.stream_eq (log : CommandLog) :
    log.stream = log.evicted.flatten ++ log.retained.flatten := by
  rw [CommandLog.stream, ← log.evicted_append_retained, List.flatten_append]

structure ReadLaw (kernel : Kernel) (env : ReadEnv) (device : Device) (log : CommandLog)
    (fPos : Int) : Prop where
  inside : log.base + fPos.toNat < log.stream.length →
    ∃ before command after, log.commands = before ++ command :: after ∧
      before.flatten.length ≤ log.base + fPos.toNat ∧
      log.base + fPos.toNat < before.flatten.length + command.length ∧
      ∀ count rest, rest = before.flatten.length + command.length - (log.base + fPos.toNat) →
        rest ≤ count → ∃ memory,
          aesdRead kernel env device count fPos =
            .ok { device := { device with memory := memory }
                  fPos := fPos + rest
                  retval := rest
                  delivered := (log.stream.drop (log.base + fPos.toNat)).take rest }
  past : ∀ count, ∃ result, aesdRead kernel env device count fPos = .ok result ∧
    (result.retval = 0 ∧ result.fPos = fPos ↔ log.stream.length ≤ log.base + fPos.toNat)

namespace Device.Represents

variable {kernel : Kernel} {device : Device} {log : CommandLog}

private theorem read_inside (rep : device.Represents kernel log) (fit : kernel.RetainedFit)
    {env : ReadEnv} {fPos : Int} (locked : env.lockInterrupted = false)
    (granted : env.kmallocGranted = true) (copied : env.notCopied = 0)
    (nonneg : 0 ≤ fPos) (bounded : fPos ≤ llongMax)
    (inside : log.base + fPos.toNat < log.stream.length) :
    ∃ before command after, log.commands = before ++ command :: after ∧
      before.flatten.length ≤ log.base + fPos.toNat ∧
      log.base + fPos.toNat < before.flatten.length + command.length ∧
      ∀ count rest, rest = before.flatten.length + command.length - (log.base + fPos.toNat) →
        rest ≤ count → ∃ memory,
          aesdRead kernel env device count fPos =
            .ok { device := { device with memory := memory }
                  fPos := fPos + rest
                  retval := rest
                  delivered := (log.stream.drop (log.base + fPos.toNat)).take rest } := by
  have insideRetained : fPos.toNat < log.retained.flatten.length := by
    rw [log.stream_eq, List.length_append] at inside
    unfold CommandLog.base at inside
    omega
  obtain ⟨before, command, after, offset, split, start, within, outcome⟩ :=
    rep.aesdRead_inside fit locked granted copied nonneg bounded insideRetained
  have whole : log.commands = (log.evicted ++ before) ++ command :: after := by
    rw [← log.evicted_append_retained, split, List.append_assoc]
  have frontLength : (log.evicted ++ before).flatten.length =
      log.base + before.flatten.length := by
    rw [List.flatten_append, List.length_append]
    rfl
  refine ⟨log.evicted ++ before, command, after, whole, by omega, by omega, ?_⟩
  intro count rest restLength enough
  have restDropped : rest = (command.drop offset).length := by
    rw [List.length_drop]
    omega
  have delivered : (log.stream.drop (log.base + fPos.toNat)).take rest =
      command.drop offset := by
    have index : log.base + fPos.toNat = (log.evicted ++ before).flatten.length + offset := by
      omega
    rw [index, CommandLog.stream, whole, restDropped, List.length_drop]
    exact drop_flatten_segment _ _ _ _ (Nat.le_of_lt within)
  obtain ⟨memory, read⟩ := outcome count
  refine ⟨memory, ?_⟩
  rw [read, delivered, ← restDropped]
  by_cases more : count > rest
  · rw [if_pos more]
  · have same : count = rest := by omega
    rw [if_neg more, same]

theorem readLaw (rep : device.Represents kernel log) (fit : kernel.RetainedFit)
    {env : ReadEnv} {fPos : Int} (locked : env.lockInterrupted = false)
    (granted : env.kmallocGranted = true) (copied : env.notCopied = 0)
    (nonneg : 0 ≤ fPos) (bounded : fPos ≤ llongMax) :
    ReadLaw kernel env device log fPos := by
  constructor
  · exact rep.read_inside fit locked granted copied nonneg bounded
  · intro count
    have lengths : log.stream.length = log.base + log.retained.flatten.length := by
      rw [log.stream_eq, List.length_append]
      rfl
    by_cases past : log.retained.flatten.length ≤ fPos.toNat
    · refine ⟨_, rep.aesdRead_past fit count locked nonneg bounded past, ?_⟩
      constructor
      · intro _
        omega
      · intro _
        exact ⟨rfl, rfl⟩
    · obtain ⟨before, command, after, offset, _, _, within, outcome⟩ :=
        rep.aesdRead_inside fit locked granted copied nonneg bounded (by omega)
      obtain ⟨memory, read⟩ := outcome count
      refine ⟨_, read, ?_⟩
      constructor
      · rintro ⟨_, unmoved⟩
        -- the position always moves past at least one byte
        change fPos + ((command.drop offset).length : Int) = fPos at unmoved
        rw [List.length_drop] at unmoved
        omega
      · intro _
        omega

end Device.Represents

/-- In every state a run reaches, a read through an open file follows the law. -/
theorem read_delivers_rest_of_command (kernel : Kernel) (boot : InitEnv)
    (steps : List DriverStep) (system : System)
    (loaded : (aesdInitModule kernel boot).retval = 0)
    (run : DriverRun kernel boot steps system) (fit : kernel.RetainedFit)
    (file : Nat) (fPos : Int) (opened : system.files file = some fPos)
    (env : ReadEnv) (locked : env.lockInterrupted = false)
    (granted : env.kmallocGranted = true) (copied : env.notCopied = 0) :
    ReadLaw kernel env system.device (CommandLog.ofWrites (writtenBy steps)) fPos := by
  obtain ⟨rep, valid⟩ := DriverRun.represents loaded run
  obtain ⟨nonneg, bounded⟩ := valid file fPos opened
  exact rep.readLaw fit locked granted copied nonneg bounded

/-- After eleven commands the second file stands two bytes into the retained ones. -/
theorem read_delivers_rest_of_command_after_eviction :
    ∃ steps system, DriverRun commonKernel plainBoot steps system ∧
      system.files 1 = some 2 ∧
      writtenBy steps = [97] :: [98, 10] :: List.replicate 10 [10] ∧
      ReadLaw commonKernel plainReadEnv system.device
        (CommandLog.ofWrites ([97] :: [98, 10] :: List.replicate 10 [10])) 2 := by
  obtain ⟨steps, system, run, seen⟩ := execute_observe (System.step commonKernel)
    (System.loaded commonKernel plainBoot) elevenCommands
    (fun steps system => (system.files 1, writtenBy steps))
    (some 2, [97] :: [98, 10] :: List.replicate 10 [10]) (by decide +kernel)
  obtain ⟨opened, written⟩ := Prod.mk.inj seen
  have law := read_delivers_rest_of_command commonKernel plainBoot steps system (by decide) run
    (by decide) 1 2 opened plainReadEnv rfl rfl rfl
  rw [written] at law
  exact ⟨steps, system, run, opened, written, law⟩

end Aesd.Driver
