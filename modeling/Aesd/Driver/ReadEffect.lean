/-
What `aesd_read`, `aesd_release` and `aesd_cleanup_module` do to a device that
holds a command log.

A read that finds an entry and gets its allocation keeps the block it
allocated: nothing frees it and nothing points to it afterwards.
-/

import Aesd.Driver.WriteEffect

namespace Aesd.Driver

open BlockHeap
open Segments

/-- The lock was taken, the position is in the ring and the allocation was
granted. -/
def ReadEnv.Allocates (env : ReadEnv) (device : Device) (fPos : Int) : Prop :=
  env.lockInterrupted = false ∧ env.kmallocGranted = true ∧
    (aesdCircularBufferFindEntryOffsetForFpos device.ring
      (loffToSizeT fPos)).entry.isSome = true

instance (env : ReadEnv) (device : Device) (fPos : Int) :
    Decidable (env.Allocates device fPos) :=
  inferInstanceAs (Decidable (_ ∧ _ ∧ _))

theorem loffToSizeT_lt (value : Int) : loffToSizeT value < 2 ^ 64 := by
  unfold loffToSizeT
  omega

/-! ### Reading -/

theorem aesdRead_idle (kernel : Kernel) (env : ReadEnv) (device : Device) (count : Nat)
    (fPos : Int) (idle : ¬env.Allocates device fPos) :
    ∃ retval,
      aesdRead kernel env device count fPos =
        .ok { device := device, fPos := fPos, retval := retval, delivered := [] } ∧
      (retval = -erestartsys ∨ retval = 0 ∨ retval = -efault) := by
  unfold aesdRead
  by_cases interrupted : env.lockInterrupted = true
  · exact ⟨-erestartsys, by rw [if_pos interrupted], .inl rfl⟩
  · rw [if_neg interrupted]
    cases found : (aesdCircularBufferFindEntryOffsetForFpos device.ring
        (loffToSizeT fPos)).entry with
    | none => exact ⟨0, by simp only [found], .inr (.inl rfl)⟩
    | some slot =>
        have refused : ¬env.kmallocGranted = true := by
          intro granted
          exact idle ⟨by simpa using interrupted, granted, by rw [found]; rfl⟩
        refine ⟨-efault, ?_, .inr (.inr rfl)⟩
        simp only [found]
        rw [kmalloc_refused kernel device.memory (fun allowed => refused allowed.1)]

def readOutcome (env : ReadEnv) (device : Device) (memory : Memory) (count : Nat) (fPos : Int)
    (bytes : List Byte) : ReadResult :=
  if leftOver env.notCopied bytes.length ≠ 0 then
    { device := { device with memory := memory }
      fPos := fPos
      retval := -efault
      delivered := bytes.take (bytes.length - leftOver env.notCopied bytes.length) }
  else
    { device := { device with memory := memory }
      fPos := loffT (fPos + bytes.length)
      retval := if count > bytes.length then bytes.length else count
      delivered := bytes }

theorem aesdRead_allocated (kernel : Kernel) (env : ReadEnv) (device : Device) (count : Nat)
    (fPos : Int) {slot : Fin 10} {offset : Nat} {command : List Byte}
    (locked : env.lockInterrupted = false) (granted : env.kmallocGranted = true)
    (lookup : aesdCircularBufferFindEntryOffsetForFpos device.ring (loffToSizeT fPos) =
      { entry := some slot, entryOffsetByte := offset })
    (held : EntryHolds device.memory (device.ring.entry slot) command)
    (inside : offset < command.length) (small : command.length ≤ kernel.kmallocMaxSize) :
    ∃ memory,
      Changes device.memory memory (some (.bytes (command.drop offset))) [] ∧
      aesdRead kernel env device count fPos =
        .ok (readOutcome env device memory count fPos (command.drop offset)) := by
  have room := kernel.requestsFit
  have countPositive : 1 < maxRwCount := by decide
  obtain ⟨identifier, pointer, found, size⟩ := held
  have tailSize : sizeTSub command.length offset = (command.drop offset).length := by
    rw [sizeTSub_of_le (by omega) (by omega), List.length_drop]
  have tailPositive : 0 < (command.drop offset).length := by
    rw [List.length_drop]
    omega
  have tailSmall : (command.drop offset).length ≤ command.length := by
    rw [List.length_drop]
    omega
  have allocated := Changes.allocate device.memory
    (.bytes (kernel.freshBytes (command.drop offset).length))
  have source : loadRange device.memory (.block identifier) offset
      (command.drop offset).length = .ok (command.drop offset) := by
    rw [loadRange_block found (by rw [List.length_drop]; omega), List.take_length]
  obtain ⟨copied, copy, copyChanges⟩ := memcpy_new allocated 0
    (loadRange_of_changes allocated source) (by simp)
  have filled : Changes device.memory copied (some (.bytes (command.drop offset))) [] := by
    have nothing : (kernel.freshBytes (command.drop offset).length).drop
        (0 + (command.drop offset).length) = [] := by
      apply List.drop_eq_nil_of_le
      simp
    rw [List.take_zero, List.nil_append, nothing, List.append_nil] at copyChanges
    exact copyChanges
  have whole : loadRange copied (.block identifier) 0 command.length = .ok command := by
    rw [loadRange_block (filled.cell_of_live found List.not_mem_nil) (by omega),
      List.drop_zero, List.take_length]
  obtain ⟨printed, print, printChanges⟩ := aesdBufferPrint_quiet kernel env.foundPrintGranted
    (by omega) whole
  have filledPrinted := filled.trans_quiet printChanges
  have own : ∀ memory : Memory,
      Changes device.memory memory (some (.bytes (command.drop offset))) [] →
      loadRange memory (.block device.memory.next) 0 (command.drop offset).length =
        .ok (command.drop offset) := by
    intro memory changes
    rw [loadRange_block changes.cell_new (by omega), List.drop_zero, List.take_length]
  obtain ⟨shown, second, secondChanges⟩ := aesdBufferPrint_quiet kernel
    env.returnedPrintGranted (by omega) (own printed filledPrinted)
  have filledShown := filledPrinted.trans_quiet secondChanges
  refine ⟨shown, filledShown, ?_⟩
  unfold aesdRead
  rw [if_neg (by simp [locked])]
  simp only [lookup, pointer, size, tailSize]
  rw [kmalloc_granted kernel device.memory ⟨granted, by omega⟩ tailPositive]
  simp only [copy, print, second, own shown filledShown, ok_bind]
  unfold readOutcome
  by_cases missing : leftOver env.notCopied (command.drop offset).length = 0
  · rw [if_neg (not_not_intro missing), if_neg (not_not_intro missing), missing]
    simp only [Nat.sub_zero, List.take_length]
    rfl
  · rw [if_pos missing, if_pos missing]
    rfl

namespace Device.Represents

variable {kernel : Kernel} {device : Device} {log : CommandLog}

theorem lookup_holds (rep : device.Represents kernel log) (fPos : Int) {slot : Fin 10}
    (found : (aesdCircularBufferFindEntryOffsetForFpos device.ring
      (loffToSizeT fPos)).entry = some slot) :
    ∃ command, command ∈ log.commands ∧
      EntryHolds device.memory (device.ring.entry slot) command ∧
      (aesdCircularBufferFindEntryOffsetForFpos device.ring
        (loffToSizeT fPos)).entryOffsetByte < command.length := by
  obtain ⟨_, member, inside⟩ := aesdCircularBufferFindEntryOffsetForFpos_inside device.ring
    (loffToSizeT fPos) slot rep.ring (loffToSizeT_lt fPos) found
  obtain ⟨command, commandMember, held⟩ := forall₂_mem_left rep.retained member
  have size : (device.ring.entry slot).size = command.length := by
    obtain ⟨_, _, _, size⟩ := held
    exact size
  refine ⟨command, List.mem_of_mem_drop commandMember, held, ?_⟩
  rw [← size]
  exact inside

theorem aesdRead_cases (rep : device.Represents kernel log) (env : ReadEnv) (count : Nat)
    (fPos : Int) :
    (¬env.Allocates device fPos ∧ ∃ retval,
      aesdRead kernel env device count fPos =
        .ok { device := device, fPos := fPos, retval := retval, delivered := [] } ∧
      (retval = -erestartsys ∨ retval = 0 ∨ retval = -efault)) ∨
    (env.Allocates device fPos ∧ loffToSizeT fPos < 2 ^ 32 ∧ ∃ memory bytes, bytes ≠ [] ∧
      bytes.length ≤ kernel.kmallocMaxSize ∧
      Changes device.memory memory (some (.bytes bytes)) [] ∧
      aesdRead kernel env device count fPos =
        .ok (readOutcome env device memory count fPos bytes)) := by
  by_cases allocates : env.Allocates device fPos
  · obtain ⟨locked, granted, present⟩ := allocates
    obtain ⟨slot, found⟩ := Option.isSome_iff_exists.mp present
    have narrow := (aesdCircularBufferFindEntryOffsetForFpos_inside device.ring
      (loffToSizeT fPos) slot rep.ring (loffToSizeT_lt fPos) found).1
    obtain ⟨command, member, held, inside⟩ := rep.lookup_holds fPos found
    have small := (rep.commandSizes command member).2
    have lookup : aesdCircularBufferFindEntryOffsetForFpos device.ring (loffToSizeT fPos) =
        { entry := some slot
          entryOffsetByte := (aesdCircularBufferFindEntryOffsetForFpos device.ring
            (loffToSizeT fPos)).entryOffsetByte } := by
      rw [← found]
    obtain ⟨memory, changes, outcome⟩ := aesdRead_allocated kernel env device count fPos
      locked granted lookup held inside small
    refine .inr ⟨⟨locked, granted, present⟩, narrow, memory, _, ?_, ?_, changes, outcome⟩
    · intro empty
      have lengths := congrArg List.length empty
      rw [List.length_drop, List.length_nil] at lengths
      omega
    · rw [List.length_drop]
      omega
  · exact .inl ⟨allocates, aesdRead_idle kernel env device count fPos allocates⟩

theorem aesdRead_represents (rep : device.Represents kernel log) {env : ReadEnv} {count : Nat}
    {fPos : Int} {result : ReadResult}
    (read : aesdRead kernel env device count fPos = .ok result) :
    result.device.Represents kernel log := by
  rcases rep.aesdRead_cases env count fPos with
    ⟨_, retval, idle, _⟩ | ⟨_, _, memory, bytes, _, _, changes, allocated⟩
  · rw [idle] at read
    cases read
    exact rep
  · rw [allocated] at read
    cases read
    unfold readOutcome
    split
    · exact rep.of_changes changes
    · exact rep.of_changes changes

end Device.Represents

/-! ### Closing a file -/

/-- The dump passes the entry by or can read it. -/
def Printable (memory : Memory) (entry : BufferEntry) : Prop :=
  entry.buffptr = .null ∨
    entry.size + 1 < 2 ^ 64 ∧ ∃ bytes, loadRange memory entry.buffptr 0 entry.size = .ok bytes

theorem Printable.of_changes {before after : Memory} {added : Option Cell} {entry : BufferEntry}
    (changes : Changes before after added []) (printable : Printable before entry) :
    Printable after entry := by
  rcases printable with null | ⟨small, bytes, loaded⟩
  · exact .inl null
  · exact .inr ⟨small, bytes, loadRange_of_changes changes loaded⟩

theorem showEntry_quiet (kernel : Kernel) (granted : Bool) {entry : BufferEntry}
    {memory : Memory} (printable : Printable memory entry) :
    ∃ after, showEntry kernel granted entry memory = .ok after ∧
      Changes memory after none [] := by
  unfold showEntry
  by_cases present : entry.buffptr ≠ .null
  · rw [if_pos present]
    rcases printable with null | ⟨small, bytes, loaded⟩
    · exact absurd null present
    · exact aesdBufferPrint_quiet kernel granted small loaded
  · rw [if_neg present]
    exact ⟨memory, rfl, Changes.refl _⟩

theorem showEntries_quiet (kernel : Kernel) (granted : Nat → Bool) (ring : CircularBuffer)
    (indices : List Nat) : ∀ memory,
      (∀ index, index ∈ indices →
        Printable memory (ring.entry (Fin.ofNat 10 (ring.outOffs.val + index)))) →
      ∃ after, showEntries kernel granted ring indices memory = .ok after ∧
        Changes memory after none [] := by
  induction indices with
  | nil =>
      intro memory _
      exact ⟨memory, rfl, Changes.refl _⟩
  | cons index rest ih =>
      intro memory printable
      obtain ⟨middle, showFirst, middleChanges⟩ :=
        showEntry_quiet kernel (granted index) (printable index List.mem_cons_self)
      obtain ⟨after, showRest, afterChanges⟩ := ih middle fun other member =>
        (printable other (List.mem_cons_of_mem _ member)).of_changes middleChanges
      refine ⟨after, ?_, middleChanges.trans_quiet afterChanges⟩
      rw [showEntries_cons, showFirst]
      exact showRest

theorem Device.Represents.printable {kernel : Kernel} {device : Device} {log : CommandLog}
    (rep : device.Represents kernel log) (slot : Fin 10) :
    Printable device.memory (device.ring.entry slot) := by
  by_cases zero : device.ring.entry slot = .zero
  · rw [zero]
    exact .inl rfl
  · have member := device.ring.entry_mem_entries rep.ring slot zero
    obtain ⟨command, commandMember, held⟩ := forall₂_mem_left rep.retained member
    have small := (rep.commandSizes command (List.mem_of_mem_drop commandMember)).2
    have room := kernel.requestsFit
    have countPositive : 1 < maxRwCount := by decide
    have size : (device.ring.entry slot).size = command.length := by
      obtain ⟨_, _, _, size⟩ := held
      exact size
    exact .inr ⟨by omega, _, held.loadRange (by omega)⟩

theorem Device.Represents.aesdRelease_quiet {kernel : Kernel} {device : Device}
    {log : CommandLog} (rep : device.Represents kernel log) (granted : Nat → Bool) :
    ∃ memory, aesdRelease kernel granted device = .ok { device with memory := memory } ∧
      Changes device.memory memory none [] := by
  obtain ⟨memory, shown, changes⟩ := showEntries_quiet kernel granted device.ring
    (List.range 10) device.memory fun index _ => rep.printable _
  refine ⟨memory, ?_, changes⟩
  unfold aesdRelease aesdShowCircularBuffer
  rw [shown, ok_bind]
  rfl

end Aesd.Driver
