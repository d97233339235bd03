/-
When a device holds a command log.

The relation ties three things together: the slots of the ring and the static
pending entry, the bytes of the blocks they point to, and the ownership of
these blocks.  Every block has one owner, so freeing one never touches the
bytes of another.
-/

import Aesd.Driver.CommandLog

namespace Aesd.Driver

open BlockHeap
open Segments

def EntryHolds (memory : Memory) (entry : BufferEntry) (bytes : List Byte) : Prop :=
  ∃ identifier, entry.buffptr = .block identifier ∧
    memory.cell identifier = some (.bytes bytes) ∧ entry.size = bytes.length

/-- No pending bytes means no block. -/
def PendingHolds (memory : Memory) (entry : BufferEntry) (bytes : List Byte) : Prop :=
  (bytes = [] ∧ entry = .zero) ∨ (bytes ≠ [] ∧ EntryHolds memory entry bytes)

def CircularBuffer.blocks (ring : CircularBuffer) : List Nat :=
  ring.entries.filterMap fun entry => entry.buffptr.block?

def Device.pendingBlocks (device : Device) : List Nat :=
  device.fullUserEntry.buffptr.block?.toList

def Device.blocks (device : Device) : List Nat :=
  device.pbuffer.block?.toList ++ (device.pendingBlocks ++ device.ring.blocks)

structure Device.Represents (kernel : Kernel) (device : Device) (log : CommandLog) : Prop where
  ring : device.ring.WellFormed
  retained : List.Forall₂ (EntryHolds device.memory) device.ring.entries log.retained
  pending : PendingHolds device.memory device.fullUserEntry log.pending
  pbuffer : ∃ identifier, device.pbuffer = .block identifier ∧
    device.memory.cell identifier = some .circularBuffer
  distinct : device.blocks.Nodup
  buffSize : device.buffSize = loffT log.commands.flatten.length
  commandSizes : ∀ command, command ∈ log.commands →
    0 < command.length ∧ command.length ≤ kernel.kmallocMaxSize
  pendingSize : log.pending.length ≤ kernel.kmallocMaxSize
  pendingOpen : endsCommand log.pending = false

/-! ### Holding bytes is stable -/

theorem EntryHolds.of_changes {before after : Memory} {added : Option Cell} {freed : List Nat}
    {entry : BufferEntry} {bytes : List Byte} (changes : Changes before after added freed)
    (holds : EntryHolds before entry bytes)
    (kept : ∀ identifier, entry.buffptr = .block identifier → identifier ∉ freed) :
    EntryHolds after entry bytes := by
  obtain ⟨identifier, pointer, found, size⟩ := holds
  exact ⟨identifier, pointer, changes.cell_of_live found (kept identifier pointer), size⟩

theorem forall₂_entryHolds_of_changes {before after : Memory} {added : Option Cell}
    {freed : List Nat} {entries : List BufferEntry} {commands : List (List Byte)}
    (changes : Changes before after added freed)
    (holds : List.Forall₂ (EntryHolds before) entries commands)
    (kept : ∀ entry, entry ∈ entries → ∀ identifier,
      entry.buffptr = .block identifier → identifier ∉ freed) :
    List.Forall₂ (EntryHolds after) entries commands := by
  induction holds with
  | nil => exact .nil
  | cons head rest ih =>
      refine .cons (head.of_changes changes (kept _ List.mem_cons_self)) (ih ?_)
      intro entry member
      exact kept entry (List.mem_cons_of_mem _ member)

theorem PendingHolds.of_changes {before after : Memory} {added : Option Cell}
    {freed : List Nat} {entry : BufferEntry} {bytes : List Byte}
    (changes : Changes before after added freed) (holds : PendingHolds before entry bytes)
    (kept : ∀ identifier, entry.buffptr = .block identifier → identifier ∉ freed) :
    PendingHolds after entry bytes := by
  rcases holds with empty | ⟨nonempty, held⟩
  · exact .inl empty
  · exact .inr ⟨nonempty, held.of_changes changes kept⟩

theorem PendingHolds.size_eq {memory : Memory} {entry : BufferEntry} {bytes : List Byte}
    (holds : PendingHolds memory entry bytes) : entry.size = bytes.length := by
  rcases holds with ⟨rfl, rfl⟩ | ⟨_, identifier, _, _, size⟩
  · rfl
  · exact size

theorem PendingHolds.loadRange {memory : Memory} {entry : BufferEntry} {bytes : List Byte}
    (holds : PendingHolds memory entry bytes) :
    loadRange memory entry.buffptr 0 entry.size = .ok bytes := by
  rcases holds with ⟨rfl, rfl⟩ | ⟨_, identifier, pointer, found, size⟩
  · rfl
  · rw [pointer, size, loadRange_block found (by omega)]
    simp

theorem EntryHolds.loadRange {memory : Memory} {entry : BufferEntry} {bytes : List Byte}
    {offset count : Nat} (holds : EntryHolds memory entry bytes)
    (inside : offset + count ≤ bytes.length) :
    loadRange memory entry.buffptr offset count = .ok ((bytes.drop offset).take count) := by
  obtain ⟨identifier, pointer, found, _⟩ := holds
  rw [pointer, loadRange_block found inside]

/-! ### Blocks of a representing device -/

theorem mem_ringBlocks {ring : CircularBuffer} {identifier : Nat} :
    identifier ∈ ring.blocks ↔
      ∃ entry, entry ∈ ring.entries ∧ entry.buffptr = .block identifier := by
  unfold CircularBuffer.blocks
  rw [List.mem_filterMap]
  constructor
  · rintro ⟨entry, member, found⟩
    refine ⟨entry, member, ?_⟩
    cases pointer : entry.buffptr with
    | null => simp [pointer, Ptr.block?] at found
    | zeroSize => simp [pointer, Ptr.block?] at found
    | block other =>
        simp only [pointer, Ptr.block?, Option.some.injEq] at found
        rw [found]
  · rintro ⟨entry, member, pointer⟩
    exact ⟨entry, member, by rw [pointer]; rfl⟩

private theorem slots_rotate : ∀ start : Fin 10,
    ((List.range 10).map fun index => Fin.ofNat 10 (start.val + index)).Perm
      (List.finRange 10) := by
  decide

private theorem slots_split : ∀ bound : Fin 10,
    List.finRange 10 = (List.range bound.val).map (fun index => Fin.ofNat 10 (0 + index)) ++
      (List.finRange 10).filter (fun slot => bound ≤ slot) := by
  decide

theorem allSlots_blocks_perm (ring : CircularBuffer) (wellFormed : ring.WellFormed) :
    ((List.finRange 10).filterMap fun slot => (ring.entry slot).buffptr.block?).Perm
      ring.blocks := by
  unfold CircularBuffer.blocks CircularBuffer.entries
  rw [List.filterMap_map]
  unfold CircularBuffer.slots CircularBuffer.count
  cases full : ring.full with
  | true =>
      exact ((slots_rotate ring.outOffs).filterMap _).symm
  | false =>
      have empty : (((List.finRange 10).filter fun slot => ring.inOffs ≤ slot).filterMap
          fun slot => (ring.entry slot).buffptr.block?) = [] := by
        rw [List.filterMap_eq_nil_iff]
        intro slot member
        have outside := (List.mem_filter.mp member).2
        rw [wellFormed.unwritten full slot (by simpa using outside)]
        rfl
      rw [slots_split ring.inOffs, List.filterMap_append, empty, List.append_nil,
        wellFormed.startWhenPartial full]
      exact List.Perm.refl _

theorem mem_pendingBlocks {device : Device} {identifier : Nat} :
    identifier ∈ device.pendingBlocks ↔
      device.fullUserEntry.buffptr = .block identifier := by
  unfold Device.pendingBlocks
  cases pointer : device.fullUserEntry.buffptr with
  | null => simp [Ptr.block?]
  | zeroSize => simp [Ptr.block?]
  | block other => simp [Ptr.block?, eq_comm]

namespace Device.Represents

variable {kernel : Kernel} {device : Device} {log : CommandLog}

theorem entries_length (rep : device.Represents kernel log) :
    device.ring.entries.length = min 10 log.commands.length := by
  rw [rep.retained.length_eq, log.retained_length]

theorem full_iff (rep : device.Represents kernel log) :
    device.ring.full = true ↔ 10 ≤ log.commands.length := by
  rw [device.ring.full_iff_length, rep.entries_length]
  omega

theorem ringBlocks_live (rep : device.Represents kernel log) {identifier : Nat}
    (member : identifier ∈ device.ring.blocks) : device.memory.Live identifier := by
  obtain ⟨entry, entryMember, pointer⟩ := mem_ringBlocks.mp member
  obtain ⟨bytes, _, other, otherPointer, found, _⟩ := forall₂_mem_left rep.retained entryMember
  rw [pointer] at otherPointer
  cases otherPointer
  exact Heap.live_of_cell found

theorem pendingBlocks_live (rep : device.Represents kernel log) {identifier : Nat}
    (member : identifier ∈ device.pendingBlocks) : device.memory.Live identifier := by
  have pointer := mem_pendingBlocks.mp member
  rcases rep.pending with ⟨_, zero⟩ | ⟨_, other, otherPointer, found, _⟩
  · rw [zero] at pointer
    cases pointer
  · rw [pointer] at otherPointer
    cases otherPointer
    exact Heap.live_of_cell found

theorem blocks_live (rep : device.Represents kernel log) {identifier : Nat}
    (member : identifier ∈ device.blocks) : device.memory.Live identifier := by
  rcases List.mem_append.mp member with structMember | rest
  · obtain ⟨other, pointer, found⟩ := rep.pbuffer
    rw [pointer] at structMember
    simp only [Ptr.block?, Option.toList_some, List.mem_singleton] at structMember
    subst structMember
    exact Heap.live_of_cell found
  · rcases List.mem_append.mp rest with pendingMember | ringMember
    · exact rep.pendingBlocks_live pendingMember
    · exact rep.ringBlocks_live ringMember

theorem blocks_lt_next (rep : device.Represents kernel log) {identifier : Nat}
    (member : identifier ∈ device.blocks) : identifier < device.memory.next :=
  Heap.live_lt_next (rep.blocks_live member)

theorem ring_pending_disjoint (rep : device.Represents kernel log) {identifier : Nat}
    (ringMember : identifier ∈ device.ring.blocks) : identifier ∉ device.pendingBlocks := by
  intro pendingMember
  have apart := (List.nodup_append.mp (List.nodup_append.mp rep.distinct).2.1).2.2
  exact apart identifier pendingMember identifier ringMember rfl

theorem pbuffer_not_mem (rep : device.Represents kernel log) {identifier : Nat}
    (pointer : device.pbuffer = .block identifier) :
    identifier ∉ device.pendingBlocks ++ device.ring.blocks := by
  intro member
  have apart := (List.nodup_append.mp rep.distinct).2.2
  refine apart identifier ?_ identifier member rfl
  simp [pointer, Ptr.block?]

theorem ringBlocks_nodup (rep : device.Represents kernel log) : device.ring.blocks.Nodup :=
  (List.nodup_append.mp (List.nodup_append.mp rep.distinct).2.1).2.1

end Device.Represents

/-! ### The device after loading the module -/

theorem aesdInitModule_device (kernel : Kernel) (env : InitEnv)
    (loaded : (aesdInitModule kernel env).retval = 0) :
    (aesdInitModule kernel env).device =
      { Device.unloaded (Heap.empty.allocate .circularBuffer) with pbuffer := .block 0 } := by
  have region : ¬env.allocChrdevRegion < 0 := by
    intro negative
    simp only [aesdInitModule, if_pos negative] at loaded
    omega
  have granted : env.kmallocGranted = true ∧ sizeofCircularBuffer ≤ kernel.kmallocMaxSize := by
    by_contra refused
    simp only [aesdInitModule, if_neg region, kmallocCell, if_neg refused] at loaded
    revert loaded
    decide
  simp only [aesdInitModule, if_neg region, kmallocCell, if_pos granted]
  rfl

theorem aesdInitModule_represents (kernel : Kernel) (env : InitEnv)
    (loaded : (aesdInitModule kernel env).retval = 0) :
    (aesdInitModule kernel env).device.Represents kernel .empty := by
  rw [aesdInitModule_device kernel env loaded]
  exact
    { ring := aesdCircularBufferInit_wellFormed
      retained := .nil
      pending := .inl ⟨rfl, rfl⟩
      pbuffer := ⟨0, rfl, rfl⟩
      distinct := List.nodup_singleton 0
      buffSize := by
        change (0 : Int) = loffT 0
        exact (loffT_of_range (by decide) (by decide)).symm
      commandSizes := by intro command member; cases member
      pendingSize := Nat.zero_le _
      pendingOpen := rfl }

end Aesd.Driver
