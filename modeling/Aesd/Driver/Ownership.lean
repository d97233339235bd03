/-
Who owns the driver's blocks.

A block passes from `tmp_user_buffer` to the pending entry, from there to a
slot of the ring, and is freed when its slot is overwritten.  Along every run
each block the driver points to has one owner and is live, and no write frees
a block twice.  A write of no bytes with nothing pending is the one that leaves
its block: it has none.

The converse fails in two places: a read keeps the copy it made, and unloading
forgets the pending entry.  These are the only two.
-/

import Aesd.Driver.WriteHistory

namespace Aesd.Driver

open BlockHeap
open Execution
open Segments

/-! ### Blocks are owned once -/

/-- What a commit on a full ring does to the blocks.  The pending entry's block
was replaced before the commit; of all the others the commit frees the one of
the oldest command and nothing refers to it afterwards. -/
structure FreesOldest (log : CommandLog) (before after : Device) : Prop where
  oldest : ∃ entry younger command block,
    before.ring.entries = entry :: younger ∧ log.retained.head? = some command ∧
    entryContent before.memory entry = wholeContent command ∧
    entry.buffptr = .block block ∧ block ∉ before.pendingBlocks ∧
    (∀ other, before.memory.Live other →
      (¬after.memory.Live other ↔ other = block ∨ other ∈ before.pendingBlocks)) ∧
    block ∉ after.pendingBlocks ++ after.ring.blocks

namespace Device.Represents

variable {kernel : Kernel} {device : Device} {log : CommandLog}

theorem ringBlocks_length (rep : device.Represents kernel log) :
    device.ring.blocks.length = device.ring.entries.length := by
  have pointers : ∀ entry, entry ∈ device.ring.entries →
      (entry.buffptr.block?).isSome = true := by
    intro entry member
    obtain ⟨_, _, identifier, pointer, _, _⟩ := forall₂_mem_left rep.retained member
    rw [pointer]
    rfl
  unfold CircularBuffer.blocks
  exact List.filterMap_length_eq_length.mpr pointers

theorem freesOldest (rep : device.Represents kernel log) {memory : Memory} {bytes : List Byte}
    (full : device.ring.full = true)
    (changes : Changes device.memory memory (some (.bytes bytes))
      (device.pendingBlocks ++ device.ring.evictedBlocks)) :
    FreesOldest log device (device.committed memory bytes) := by
  obtain ⟨entry, entries, refBuff⟩ := aesdCircularBufferRefBuff_oldest device.ring rep.ring full
  obtain ⟨block, younger, evicted, blocks, _⟩ := rep.ringBlocks_of_full full
  have paired := rep.retained
  rw [entries] at paired
  cases retained : log.retained with
  | nil =>
      rw [retained] at paired
      cases paired
  | cons command rest =>
      rw [retained] at paired
      obtain ⟨held, _⟩ := List.forall₂_cons.mp paired
      have pointer : entry.buffptr = .block block := by
        obtain ⟨identifier, pointer, _, _⟩ := held
        rw [CircularBuffer.evictedBlocks, if_pos full, refBuff, pointer] at evicted
        rw [pointer, List.singleton_inj.mp evicted]
      have member : block ∈ device.ring.blocks := by
        rw [blocks]
        exact List.mem_cons_self
      have notPending := rep.ring_pending_disjoint member
      refine ⟨entry, _, command, block, entries, by rw [retained]; rfl, held.entryContent_eq,
        pointer, notPending, ?_, ?_⟩
      · intro other live
        have old := Heap.live_lt_next live
        rw [evicted] at changes
        change ¬memory.Live other ↔ _
        rw [changes.live_iff, List.mem_append, List.mem_singleton]
        constructor
        · intro gone
          by_contra kept
          exact gone (.inr ⟨live, fun freed => kept freed.symm⟩)
        · rintro freed (⟨new, _⟩ | ⟨_, kept⟩)
          · omega
          · exact kept freed.symm
      · have after := (rep.committed_ringBlocks memory bytes).2
        have distinct := rep.ringBlocks_nodup
        rw [evicted, blocks] at after
        rw [blocks] at distinct
        intro referred
        rcases List.mem_append.mp referred with pending | ring
        · cases pending
        · rw [after] at ring
          rcases List.mem_append.mp ring with stays | new
          · exact (List.nodup_cons.mp distinct).1 stays
          · have live := rep.ringBlocks_live member
            have fresh := List.mem_singleton.mp new
            have old := Heap.live_lt_next live
            omega

end Device.Represents

/-- In every state a run reaches, the blocks of the pending entry and of the
slots are distinct and live, a nonempty write frees nothing that is not live,
and a commit on a full ring frees the oldest command's block. -/
theorem blocks_owned_once (kernel : Kernel) (boot : InitEnv) (steps : List DriverStep)
    (system : System) (loaded : (aesdInitModule kernel boot).retval = 0)
    (run : DriverRun kernel boot steps system) :
    (system.device.pendingBlocks ++ system.device.ring.blocks).Nodup ∧
      (∀ block, block ∈ system.device.pendingBlocks ++ system.device.ring.blocks →
        system.device.memory.Live block) ∧
      system.device.ring.blocks.length = system.device.ring.entries.length ∧
      (∀ env buff fPos, buff ≠ [] → buff.length ≤ maxRwCount →
        ∃ result, aesdWrite kernel env system.device buff fPos = .ok result) ∧
      ∀ file env buff fits after reply,
        system.step kernel (.write file env buff fits) = .ok (after, reply) →
        0 ≤ reply.retval → endsCommand buff = true → system.device.ring.full = true →
          FreesOldest (CommandLog.ofWrites (writtenBy steps)) system.device after.device := by
  obtain ⟨rep, valid⟩ := DriverRun.represents loaded run
  refine ⟨(List.nodup_append.mp rep.distinct).2.1, ?_, rep.ringBlocks_length, ?_, ?_⟩
  · intro block member
    exact rep.blocks_live (List.mem_append_right _ member)
  · intro env buff fPos nonempty fits
    exact rep.aesdWrite_returns env fPos fits nonempty
  · intro file env buff fits after reply taken success ends full
    have effect := System.step_effect rep valid taken
    cases effect with
    | refused _ negative => omega
    | refusedWrite _ failed =>
        have negative := write_retval_negative failed
        omega
    | storedWrite _ _ _ _ continues _ =>
        rw [ends] at continues
        cases continues
    | committedWrite _ _ _ _ changes => exact rep.freesOldest full changes
    | moved _ _ nothingWritten _ => exact absurd rfl (nothingWritten file env buff fits)

/-- The eleventh command is written on a full ring. -/
theorem blocks_owned_once_eleventh_command :
    ∃ steps system after reply, DriverRun commonKernel plainBoot steps system ∧
      system.step commonKernel (.write 0 plainWriteEnv [10] (by decide)) = .ok (after, reply) ∧
      (system.device.pendingBlocks ++ system.device.ring.blocks).Nodup ∧
      system.device.ring.blocks.length = system.device.ring.entries.length ∧
      FreesOldest (CommandLog.ofWrites (writtenBy steps)) system.device after.device := by
  obtain ⟨steps, system, run, seen⟩ := execute_observe (System.step commonKernel)
    (System.loaded commonKernel plainBoot) elevenCommands.dropLast
    (fun _ system => (system.device.ring.full,
      (system.step commonKernel (.write 0 plainWriteEnv [10] (by decide))).toOption.map
        fun result => result.2.retval))
    (true, some 1) (by decide +kernel)
  obtain ⟨full, returned⟩ := Prod.mk.inj seen
  have owned := blocks_owned_once commonKernel plainBoot steps system (by decide) run
  cases taken : system.step commonKernel (.write 0 plainWriteEnv [10] (by decide)) with
  | error fault =>
      rw [taken] at returned
      cases returned
  | ok result =>
      obtain ⟨after, reply⟩ := result
      rw [taken] at returned
      have success : 0 ≤ reply.retval := by
        have one : reply.retval = 1 := Option.some.inj returned
        omega
      exact ⟨steps, system, after, reply, run, taken, owned.1, owned.2.2.1,
        owned.2.2.2.2 0 plainWriteEnv [10] (by decide) after reply taken success rfl full⟩

/-! ### Indices into the new block -/

/-- A write touches no memory outside its blocks.  When it gets to the last byte
received, which is also where the newline test looks, the index of this byte is
inside the block just allocated and neither the sum nor the subtraction wraps. -/
structure WriteInBlock (kernel : Kernel) (env : WriteEnv) (device : Device) (buff : List Byte)
    (fPos : Int) : Prop where
  returns : ∃ result, aesdWrite kernel env device buff fPos = .ok result
  lastIndex : env.Accepts kernel device buff →
    sizeT (device.fullUserEntry.size + buff.length) =
        device.fullUserEntry.size + buff.length ∧
      1 ≤ sizeT (device.fullUserEntry.size + buff.length) ∧
      sizeTSub (sizeT (device.fullUserEntry.size + buff.length)) 1 <
        sizeT (buff.length + device.fullUserEntry.size)

theorem Device.Represents.writeInBlock_iff {kernel : Kernel} {device : Device}
    {log : CommandLog} (rep : device.Represents kernel log) (env : WriteEnv) {buff : List Byte}
    (fPos : Int) (fits : buff.length ≤ maxRwCount) :
    WriteInBlock kernel env device buff fPos ↔
      (env.Accepts kernel device buff → 0 < device.fullUserEntry.size + buff.length) := by
  have request := rep.request_lt fits
  have noWrap : sizeT (device.fullUserEntry.size + buff.length) =
      device.fullUserEntry.size + buff.length := sizeT_of_lt (by omega)
  constructor
  · intro inBlock accepts
    obtain ⟨_, positive, _⟩ := inBlock.lastIndex accepts
    omega
  · intro something
    constructor
    · by_cases accepts : env.Accepts kernel device buff
      · have nonempty : log.pending ++ buff ≠ [] := by
          have positive := something accepts
          rw [rep.pending.size_eq, ← List.length_append] at positive
          exact List.length_pos_iff.mp positive
        obtain ⟨after, written, _⟩ := rep.aesdWrite_accepted env buff fPos fits nonempty accepts
        exact ⟨_, written⟩
      · obtain ⟨memory, retval, written, _⟩ := rep.aesdWrite_refused env buff fPos fits accepts
        exact ⟨_, written⟩
    · intro accepts
      have positive := something accepts
      refine ⟨noWrap, by omega, ?_⟩
      rw [noWrap, sizeTSub_of_le positive (by omega), sizeT_of_lt request]
      omega

/-- In every state a run reaches, a write stays inside its blocks exactly when
it is refused or there is at least one byte, pending or new. -/
theorem write_in_block_iff (kernel : Kernel) (boot : InitEnv) (steps : List DriverStep)
    (system : System) (loaded : (aesdInitModule kernel boot).retval = 0)
    (run : DriverRun kernel boot steps system) (env : WriteEnv) (buff : List Byte) (fPos : Int)
    (fits : buff.length ≤ maxRwCount) :
    WriteInBlock kernel env system.device buff fPos ↔
      (env.Accepts kernel system.device buff →
        0 < system.device.fullUserEntry.size + buff.length) := by
  obtain ⟨rep, _⟩ := DriverRun.represents loaded run
  exact rep.writeInBlock_iff env fPos fits

/-- A write of no bytes behind a pending byte. -/
theorem write_in_block_after_pending_byte :
    ∃ steps system, DriverRun commonKernel plainBoot steps system ∧
      WriteInBlock commonKernel plainWriteEnv system.device [] 1 := by
  obtain ⟨steps, system, run, pending⟩ := execute_observe (System.step commonKernel)
    (System.loaded commonKernel plainBoot)
    [.openFile 0, .write 0 plainWriteEnv [97] (by decide)]
    (fun _ system => system.device.fullUserEntry.size) 1 (by decide +kernel)
  refine ⟨steps, system, run, ?_⟩
  apply (write_in_block_iff commonKernel plainBoot steps system (by decide) run plainWriteEnv [] 1
    (by decide)).mpr
  intro _
  rw [pending]
  decide

/-- A write of no bytes with nothing pending reads at the largest `size_t`. -/
theorem empty_write_leaves_block :
    DriverRun commonKernel plainBoot [] (System.loaded commonKernel plainBoot) ∧
      sizeTSub (sizeT ((System.loaded commonKernel plainBoot).device.fullUserEntry.size +
        ([] : List Byte).length)) 1 = 2 ^ 64 - 1 ∧
      aesdWrite commonKernel plainWriteEnv (System.loaded commonKernel plainBoot).device [] 0 =
        .error .outOfBounds ∧
      ¬WriteInBlock commonKernel plainWriteEnv (System.loaded commonKernel plainBoot).device
        [] 0 := by
  have run : DriverRun commonKernel plainBoot [] (System.loaded commonKernel plainBoot) := .start
  obtain ⟨rep, _⟩ := DriverRun.represents (by decide) run
  have accepts : plainWriteEnv.Accepts commonKernel
      (System.loaded commonKernel plainBoot).device [] := by decide
  have faults := rep.aesdWrite_nothing plainWriteEnv 0 rfl accepts
  refine ⟨run, by decide, faults, ?_⟩
  intro inBlock
  obtain ⟨result, written⟩ := inBlock.returns
  rw [faults] at written
  cases written

/-! ### Blocks nobody owns -/

/-- The driver has a pointer to every live block. -/
def Device.AllOwned (device : Device) : Prop :=
  ∀ block, device.memory.Live block ↔ block ∈ device.blocks

/-- The call is a read that will find an entry and get its allocation. -/
def CopiesEntry (system : System) (call : Call) : Prop :=
  ∃ file env count fPos, call = .read file env count ∧ system.files file = some fPos ∧
    rwVerifyArea fPos count = true ∧ env.Allocates system.device fPos

namespace Device.Represents

variable {kernel : Kernel} {device : Device} {log : CommandLog}

theorem allOwned_of_quiet (owned : device.AllOwned) {memory : Memory}
    (changes : Changes device.memory memory none []) :
    Device.AllOwned { device with memory := memory } := by
  intro block
  change memory.Live block ↔ block ∈ device.blocks
  rw [changes.live_iff, ← owned block]
  simp

private theorem mem_blocks {block : Nat} :
    block ∈ device.blocks ↔ block ∈ device.pbuffer.block?.toList ∨
      block ∈ device.pendingBlocks ∨ block ∈ device.ring.blocks := by
  rw [Device.blocks, List.mem_append, List.mem_append]

private theorem pbuffer_apart (rep : device.Represents kernel log) {block : Nat}
    (member : block ∈ device.pbuffer.block?.toList) :
    block ∉ device.pendingBlocks ∧ block ∉ device.ring.blocks := by
  obtain ⟨identifier, pointer, _⟩ := rep.pbuffer
  rw [pointer, Ptr.block?, Option.toList_some, List.mem_singleton] at member
  subst member
  have apart := rep.pbuffer_not_mem pointer
  rw [List.mem_append] at apart
  exact not_or.mp apart

theorem allOwned_stored (rep : device.Represents kernel log) (owned : device.AllOwned)
    {memory : Memory} {bytes : List Byte}
    (changes : Changes device.memory memory (some (.bytes bytes)) device.pendingBlocks) :
    (device.stored memory bytes).AllOwned := by
  intro block
  have pendingAfter : block ∈ (device.stored memory bytes).pendingBlocks ↔
      block = device.memory.next := List.mem_singleton
  change memory.Live block ↔ _
  rw [changes.live_iff, owned block, mem_blocks, mem_blocks, pendingAfter]
  change _ ↔ block ∈ device.pbuffer.block?.toList ∨ _ ∨ block ∈ device.ring.blocks
  constructor
  · rintro (⟨new, _⟩ | ⟨own | pending | ring, kept⟩)
    · exact .inr (.inl new)
    · exact .inl own
    · exact absurd pending kept
    · exact .inr (.inr ring)
  · rintro (own | new | ring)
    · exact .inr ⟨.inl own, (rep.pbuffer_apart own).1⟩
    · exact .inl ⟨new, rfl⟩
    · exact .inr ⟨.inr (.inr ring), rep.ring_pending_disjoint ring⟩

theorem allOwned_committed (rep : device.Represents kernel log) (owned : device.AllOwned)
    {memory : Memory} {bytes : List Byte}
    (changes : Changes device.memory memory (some (.bytes bytes))
      (device.pendingBlocks ++ device.ring.evictedBlocks)) :
    (device.committed memory bytes).AllOwned := by
  obtain ⟨split, ringAfter⟩ := rep.committed_ringBlocks memory bytes
  have distinct := rep.ringBlocks_nodup
  rw [split] at distinct
  have apart := (List.nodup_append.mp distinct).2.2
  have evictedRing : ∀ block, block ∈ device.ring.evictedBlocks → block ∈ device.ring.blocks := by
    intro block member
    rw [split]
    exact List.mem_append_left _ member
  intro block
  change memory.Live block ↔ _
  rw [changes.live_iff, owned block, mem_blocks, mem_blocks, ringAfter, List.mem_append,
    List.mem_append, List.mem_singleton, not_or]
  change _ ↔ block ∈ device.pbuffer.block?.toList ∨ block ∈ [] ∨ _
  constructor
  · rintro (⟨new, _⟩ | ⟨own | pending | ring, kept⟩)
    · exact .inr (.inr (.inr new))
    · exact .inl own
    · exact absurd pending kept.1
    · rw [split] at ring
      rcases List.mem_append.mp ring with evicted | stays
      · exact absurd evicted kept.2
      · exact .inr (.inr (.inl stays))
  · rintro (own | nothing | stays | new)
    · obtain ⟨notPending, notRing⟩ := rep.pbuffer_apart own
      exact .inr ⟨.inl own, notPending, fun evicted => notRing (evictedRing block evicted)⟩
    · cases nothing
    · have ring : block ∈ device.ring.blocks := by
        rw [split]
        exact List.mem_append_right _ stays
      exact .inr ⟨.inr (.inr ring), rep.ring_pending_disjoint ring,
        fun evicted => apart block evicted block stays rfl⟩
    · exact .inl ⟨new, rfl⟩

theorem not_allOwned_of_added (rep : device.Represents kernel log) {memory : Memory}
    {contents : Cell} (changes : Changes device.memory memory (some contents) []) :
    ¬Device.AllOwned { device with memory := memory } := by
  intro owned
  have live : memory.Live device.memory.next := changes.live_iff _ |>.mpr (.inl ⟨rfl, rfl⟩)
  exact rep.next_not_mem_blocks ((owned device.memory.next).mp live)

end Device.Represents

/-! ### Unloading -/

def CircularBuffer.slotBlock? (ring : CircularBuffer) (slot : Fin 10) : Option Nat :=
  (ring.entry slot).buffptr.block?

private theorem freeEntry_frees (ring : CircularBuffer) (slot : Fin 10) (memory : Memory)
    (live : ∀ identifier, ring.slotBlock? slot = some identifier → memory.Live identifier) :
    ∃ after, freeEntry (ring.entry slot) memory = .ok after ∧
      ∀ block, after.Live block ↔ memory.Live block ∧ ring.slotBlock? slot ≠ some block := by
  unfold freeEntry
  unfold CircularBuffer.slotBlock? at live ⊢
  by_cases null : (ring.entry slot).buffptr = .null
  · rw [if_neg (not_not_intro null), null]
    exact ⟨memory, rfl, by simp [Ptr.block?]⟩
  · rw [if_pos null]
    exact kfree_frees memory (ring.entry slot).buffptr live

/-- Freeing the entries of slots with distinct blocks frees these and no others. -/
theorem freeEntries_frees (ring : CircularBuffer) (slots : List (Fin 10)) :
    ∀ memory : Memory, (slots.filterMap ring.slotBlock?).Nodup →
      (∀ block, block ∈ slots.filterMap ring.slotBlock? → memory.Live block) →
      ∃ after, freeEntries ring slots memory = .ok after ∧
        ∀ block, after.Live block ↔
          memory.Live block ∧ block ∉ slots.filterMap ring.slotBlock? := by
  induction slots with
  | nil =>
      intro memory _ _
      exact ⟨memory, rfl, by simp⟩
  | cons slot rest ih =>
      intro memory distinct live
      obtain ⟨middle, freed, liveMiddle⟩ := freeEntry_frees ring slot memory (by
        intro identifier found
        apply live
        rw [List.filterMap_cons_some found]
        exact List.mem_cons_self)
      rw [freeEntries, freed, ok_bind]
      cases found : ring.slotBlock? slot with
      | none =>
          rw [List.filterMap_cons_none found] at distinct live ⊢
          have same : ∀ block, middle.Live block ↔ memory.Live block := by
            intro block
            rw [liveMiddle, found]
            simp
          obtain ⟨after, freedRest, liveAfter⟩ := ih middle distinct
            (fun block member => (same block).mpr (live block member))
          refine ⟨after, freedRest, ?_⟩
          intro block
          rw [liveAfter, same]
      | some identifier =>
          rw [List.filterMap_cons_some found] at distinct live ⊢
          obtain ⟨notLater, later⟩ := List.nodup_cons.mp distinct
          have others : ∀ block, middle.Live block ↔ memory.Live block ∧ identifier ≠ block := by
            intro block
            rw [liveMiddle, found, ne_eq, Option.some.injEq]
          obtain ⟨after, freedRest, liveAfter⟩ := ih middle later (by
            intro block member
            apply (others block).mpr
            constructor
            · exact live block (List.mem_cons_of_mem _ member)
            · rintro rfl
              exact notLater member)
          refine ⟨after, freedRest, ?_⟩
          intro block
          rw [liveAfter, others, List.mem_cons, not_or, and_assoc, ← ne_eq, ne_comm]

theorem Device.Represents.aesdCleanupModule_frees {kernel : Kernel} {device : Device}
    {log : CommandLog} (rep : device.Represents kernel log) :
    ∃ memory, aesdCleanupModule device = .ok memory ∧
      ∀ block, memory.Live block ↔ device.memory.Live block ∧
        block ∉ device.pbuffer.block?.toList ∧ block ∉ device.ring.blocks := by
  have slots : ((List.finRange 10).filterMap device.ring.slotBlock?).Perm device.ring.blocks :=
    allSlots_blocks_perm device.ring rep.ring
  obtain ⟨middle, freed, liveMiddle⟩ := freeEntries_frees device.ring (List.finRange 10)
    device.memory (slots.nodup_iff.mpr rep.ringBlocks_nodup)
    (fun block member => rep.ringBlocks_live (slots.mem_iff.mp member))
  obtain ⟨memory, freedStruct, live⟩ := kfree_frees middle device.pbuffer (by
    intro identifier found
    have own : identifier ∈ device.pbuffer.block?.toList := by
      rw [found]
      exact List.mem_singleton_self _
    apply (liveMiddle identifier).mpr
    constructor
    · exact rep.blocks_live (List.mem_append_left _ own)
    · intro member
      exact (rep.pbuffer_apart own).2 (slots.mem_iff.mp member))
  refine ⟨memory, ?_, ?_⟩
  · rw [aesdCleanupModule, freed, ok_bind]
    exact freedStruct
  · intro block
    rw [live, liveMiddle, slots.mem_iff, Option.mem_toList, and_assoc,
      and_comm (a := ¬block ∈ device.ring.blocks)]

namespace Device.Represents

variable {kernel : Kernel} {device : Device} {log : CommandLog}

/-- What unloading leaves of a device without lost blocks is the pending one. -/
theorem live_after_cleanup_iff (rep : device.Represents kernel log) (owned : device.AllOwned)
    {memory : Memory}
    (live : ∀ block, memory.Live block ↔ device.memory.Live block ∧
      block ∉ device.pbuffer.block?.toList ∧ block ∉ device.ring.blocks) (block : Nat) :
    memory.Live block ↔ block ∈ device.pendingBlocks := by
  rw [live, owned block, mem_blocks]
  constructor
  · rintro ⟨own | pending | ring, notOwn, notRing⟩
    · exact absurd own notOwn
    · exact pending
    · exact absurd ring notRing
  · intro pending
    refine ⟨.inr (.inl pending), ?_, ?_⟩
    · intro own
      exact (rep.pbuffer_apart own).1 pending
    · intro ring
      exact rep.ring_pending_disjoint ring pending

theorem pendingBlocks_eq_nil_iff (rep : device.Represents kernel log) :
    device.pendingBlocks = [] ↔ log.pending = [] := by
  unfold Device.pendingBlocks
  rcases rep.pending with ⟨nothing, zero⟩ | ⟨something, identifier, pointer, _, _⟩
  · rw [zero, nothing]
    simp [BufferEntry.zero, Ptr.block?]
  · rw [pointer]
    simp [Ptr.block?, something]

end Device.Represents

/-! ### Accounting over runs -/

theorem Effect.allOwned {kernel : Kernel} {log : CommandLog} {before after : System}
    {call : Call} {reply : Reply} (rep : before.device.Represents kernel log)
    (owned : before.device.AllOwned) (effect : Effect kernel log before call reply after)
    (noCopy : ¬CopiesEntry before call) : after.device.AllOwned := by
  cases effect with
  | refused _ _ => exact owned
  | refusedWrite changes _ => exact Device.Represents.allOwned_of_quiet owned changes
  | storedWrite _ _ _ _ _ changes => exact rep.allOwned_stored owned changes
  | committedWrite _ _ _ _ changes => exact rep.allOwned_committed owned changes
  | idleRead _ _ _ => exact owned
  | @allocatedRead file env count fPos memory bytes opened verified allocates _ _ _ =>
      exact absurd ⟨file, env, count, fPos, rfl, opened, verified, allocates⟩ noCopy
  | moved _ _ _ _ => exact owned
  | released changes => exact Device.Represents.allOwned_of_quiet owned changes

theorem Effect.not_allOwned {kernel : Kernel} {log : CommandLog} {before after : System}
    {call : Call} {reply : Reply} (rep : before.device.Represents kernel log)
    (effect : Effect kernel log before call reply after) (copies : CopiesEntry before call) :
    ¬after.device.AllOwned := by
  obtain ⟨file, env, count, fPos, rfl, opened, verified, allocates⟩ := copies
  cases effect with
  | refused outside _ => exact absurd ⟨fPos, opened, verified⟩ outside
  | idleRead other _ idle =>
      rw [opened] at other
      cases other
      exact absurd allocates idle
  | allocatedRead _ _ _ _ _ changes => exact rep.not_allOwned_of_added changes
  | moved _ _ _ notRead => exact absurd rfl (notRead file env count)

def System.Accounted (kernel : Kernel) (system : System) : Prop :=
  ∃ log, system.device.Represents kernel log ∧ system.PositionsValid ∧ system.device.AllOwned

theorem System.loaded_accounted {kernel : Kernel} {boot : InitEnv}
    (loaded : (aesdInitModule kernel boot).retval = 0) :
    (System.loaded kernel boot).Accounted kernel := by
  obtain ⟨rep, valid⟩ := DriverRun.represents loaded .start
  refine ⟨_, rep, valid, ?_⟩
  intro block
  rw [System.loaded, aesdInitModule_device kernel boot loaded]
  change (Heap.empty.allocate Cell.circularBuffer).Live block ↔ block ∈ [0]
  rw [(Changes.allocate Heap.empty Cell.circularBuffer).live_iff, List.mem_singleton]
  constructor
  · rintro (⟨new, _⟩ | ⟨live, _⟩)
    · exact new
    · cases live
  · intro first
    exact .inl ⟨first, rfl⟩

theorem nothing_left_behind_iff (kernel : Kernel) (boot : InitEnv) (steps : List DriverStep)
    (system : System) (loaded : (aesdInitModule kernel boot).retval = 0)
    (run : DriverRun kernel boot steps system) :
    (Throughout (fun state => state.device.AllOwned) steps system ∧
        ∃ memory, aesdCleanupModule system.device = .ok memory ∧
          ∀ block, ¬memory.Live block) ↔
      (∀ taken, taken ∈ steps → ¬CopiesEntry taken.before taken.label.1) ∧
        (CommandLog.ofWrites (writtenBy steps)).pending = [] := by
  have accounting : Throughout (fun state => state.device.AllOwned) steps system ↔
      ∀ taken, taken ∈ steps → ¬CopiesEntry taken.before taken.label.1 := by
    apply run.throughout_iff (fun taken => ¬CopiesEntry taken.before taken.label.1)
      (fun state => state.device.AllOwned) (System.Accounted kernel)
    · exact System.loaded_accounted loaded
    · rintro state ⟨_, _, _, owned⟩
      exact owned
    · rintro taken ⟨log, rep, valid, owned⟩ noCopy step
      have effect := System.step_effect rep valid step
      exact ⟨_, effect.represents rep, effect.positionsValid valid,
        effect.allOwned rep owned noCopy⟩
    · rintro taken ⟨log, rep, valid, _⟩ copies step
      have effect := System.step_effect rep valid step
      exact effect.not_allOwned rep (not_not.mp copies)
  obtain ⟨rep, _⟩ := DriverRun.represents loaded run
  obtain ⟨memory, cleaned, live⟩ := rep.aesdCleanupModule_frees
  constructor
  · rintro ⟨throughout, left, returned, empty⟩
    rw [cleaned] at returned
    cases returned
    refine ⟨accounting.mp throughout, ?_⟩
    apply rep.pendingBlocks_eq_nil_iff.mp
    apply List.eq_nil_iff_forall_not_mem.mpr
    intro block pending
    exact empty block ((rep.live_after_cleanup_iff throughout.1 live block).mpr pending)
  · rintro ⟨noCopies, nothingPending⟩
    have throughout := accounting.mpr noCopies
    refine ⟨throughout, memory, cleaned, ?_⟩
    intro block remains
    have pending := (rep.live_after_cleanup_iff throughout.1 live block).mp remains
    rw [rep.pendingBlocks_eq_nil_iff.mpr nothingPending] at pending
    cases pending

/-- A run of writes that end their commands, unloaded without a remainder. -/
theorem nothing_left_behind_eleven_commands :
    ∃ steps system, DriverRun commonKernel plainBoot steps system ∧
      writtenBy steps = [97] :: [98, 10] :: List.replicate 10 [10] ∧
      Throughout (fun state => state.device.AllOwned) steps system ∧
      ∃ memory, aesdCleanupModule system.device = .ok memory ∧
        ∀ block, ¬memory.Live block := by
  obtain ⟨steps, system, run, seen⟩ := execute_observe (System.step commonKernel)
    (System.loaded commonKernel plainBoot) elevenCommands
    (fun steps _ => (writtenBy steps, steps.all fun taken =>
      match taken.label.1 with
      | .read _ _ _ => false
      | _ => true))
    ([97] :: [98, 10] :: List.replicate 10 [10], true) (by decide +kernel)
  obtain ⟨written, noReads⟩ := Prod.mk.inj seen
  refine ⟨steps, system, run, written, ?_⟩
  apply (nothing_left_behind_iff commonKernel plainBoot steps system (by decide) run).mpr
  constructor
  · rintro taken member ⟨file, env, count, fPos, call, _⟩
    have notRead := List.all_eq_true.mp noReads taken member
    rw [call] at notRead
    cases notRead
  · rw [written]
    rfl

/-- One command written and read back: block 4 is live, nothing points to it,
and it survives unloading. -/
theorem read_leaves_block_behind :
    ∃ steps system, DriverRun commonKernel plainBoot steps system ∧
      system.device.memory.Live 4 ∧ 4 ∉ system.device.blocks ∧
      ∃ memory, aesdCleanupModule system.device = .ok memory ∧ memory.Live 4 := by
  obtain ⟨steps, system, run, seen⟩ := execute_observe (System.step commonKernel)
    (System.loaded commonKernel plainBoot)
    [.openFile 0, .openFile 1, .write 0 plainWriteEnv [97, 10] (by decide),
      .read 1 plainReadEnv 2]
    (fun _ system => (decide (system.device.memory.Live 4), decide (4 ∈ system.device.blocks),
      (aesdCleanupModule system.device).toOption.any fun memory =>
        decide (Heap.Live memory 4)))
    (true, false, true) (by decide +kernel)
  obtain ⟨live, rest⟩ := Prod.mk.inj seen
  obtain ⟨unowned, survives⟩ := Prod.mk.inj rest
  refine ⟨steps, system, run, of_decide_eq_true live, of_decide_eq_false unowned, ?_⟩
  cases cleaned : aesdCleanupModule system.device with
  | error fault =>
      rw [cleaned] at survives
      cases survives
  | ok memory =>
      rw [cleaned] at survives
      exact ⟨memory, rfl, of_decide_eq_true survives⟩

end Aesd.Driver
