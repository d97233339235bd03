/-
What one call of `aesd_write` does to a device that holds a command log.

The call is described once, in three cases: refused, stored as pending bytes,
or committed to the ring.  Every statement about runs is derived from these
cases and from the fact that each of them keeps the representation.
-/

import Aesd.Driver.Representation

namespace Aesd.Driver

open BlockHeap
open Segments

/-! ### Loads survive, printing leaves nothing behind -/

theorem loadRange_length {memory : Memory} {pointer : Ptr} {offset count : Nat}
    {bytes : List Byte} (loaded : loadRange memory pointer offset count = .ok bytes) :
    bytes.length = count := by
  unfold loadRange at loaded
  by_cases empty : count = 0
  · rw [if_pos empty] at loaded
    cases loaded
    exact empty.symm
  · rw [if_neg empty] at loaded
    split at loaded
    · rename_i contents _
      by_cases inside : offset + count ≤ contents.length
      · rw [if_pos inside] at loaded
        cases loaded
        rw [List.length_take, List.length_drop]
        omega
      · rw [if_neg inside] at loaded
        cases loaded
    · cases loaded

/-- Allocating, storing into the new block and freeing it again does not
disturb what can be loaded. -/
theorem loadRange_of_changes {before after : Memory} {added : Option Cell}
    {pointer : Ptr} {offset count : Nat} {bytes : List Byte}
    (changes : Changes before after added [])
    (loaded : loadRange before pointer offset count = .ok bytes) :
    loadRange after pointer offset count = .ok bytes := by
  unfold loadRange at loaded ⊢
  by_cases empty : count = 0
  · rw [if_pos empty] at loaded ⊢
    exact loaded
  · rw [if_neg empty] at loaded ⊢
    cases pointer with
    | null => cases loaded
    | zeroSize => cases loaded
    | block identifier =>
        simp only [Ptr.block?, Option.bind_some] at loaded ⊢
        cases found : before.cell identifier with
        | none =>
            rw [found] at loaded
            cases loaded
        | some contents =>
            rw [changes.cell_of_live found List.not_mem_nil]
            rw [found] at loaded
            exact loaded

theorem aesdBufferPrint_quiet (kernel : Kernel) (granted : Bool) {memory : Memory}
    {buff : Ptr} {offset size : Nat} {bytes : List Byte} (small : size + 1 < 2 ^ 64)
    (loaded : loadRange memory buff offset size = .ok bytes) :
    ∃ after, aesdBufferPrint kernel granted memory buff offset size = .ok after ∧
      Changes memory after none [] := by
  have length := loadRange_length loaded
  unfold aesdBufferPrint
  rw [sizeT_of_lt small]
  by_cases allowed : granted = true ∧ size + 1 ≤ kernel.kmallocMaxSize
  · rw [kmalloc_granted kernel memory allowed (by omega)]
    have allocated := Changes.allocate memory (.bytes (kernel.freshBytes (size + 1)))
    obtain ⟨copied, copy, copyChanges⟩ := memcpy_new allocated 0
      (loadRange_of_changes allocated loaded) (by simp; omega)
    obtain ⟨terminated, store, storeChanges⟩ := storeRange_new copyChanges size [0]
      (by simp; omega)
    obtain ⟨freed, free, freeChanges⟩ := kfree_new storeChanges
    refine ⟨freed, ?_, freeChanges⟩
    simp only [copy, ok_bind, store, free]
  · rw [kmalloc_refused kernel memory allowed]
    exact ⟨memory, rfl, Changes.refl memory⟩

/-! ### When a write is accepted -/

/-- The lock was taken, the allocation was granted, the user copy was complete. -/
def WriteEnv.Accepts (env : WriteEnv) (kernel : Kernel) (device : Device) (buff : List Byte) :
    Prop :=
  env.lockInterrupted = false ∧ env.kmallocGranted = true ∧
    buff.length + device.fullUserEntry.size ≤ kernel.kmallocMaxSize ∧
    leftOver env.notCopied buff.length = 0

instance (env : WriteEnv) (kernel : Kernel) (device : Device) (buff : List Byte) :
    Decidable (env.Accepts kernel device buff) :=
  inferInstanceAs (Decidable (_ ∧ _ ∧ _ ∧ _))

/-- The blocks a commit frees: the one in the slot it takes, on a full ring. -/
def CircularBuffer.evictedBlocks (ring : CircularBuffer) : List Nat :=
  if ring.full then (aesdCircularBufferRefBuff ring).block?.toList else []

def Device.stored (device : Device) (memory : Memory) (bytes : List Byte) : Device :=
  { device with
    memory := memory
    fullUserEntry := { buffptr := .block device.memory.next, size := bytes.length } }

def Device.committed (device : Device) (memory : Memory) (bytes : List Byte) : Device :=
  { device with
    memory := memory
    ring := aesdCircularBufferAddEntry device.ring
      { buffptr := .block device.memory.next, size := bytes.length }
    buffSize := loffT (device.buffSize + bytes.length)
    fullUserEntry := .zero }

namespace Device.Represents

variable {kernel : Kernel} {device : Device} {log : CommandLog}

theorem request_lt (rep : device.Represents kernel log) {buff : List Byte}
    (fits : buff.length ≤ maxRwCount) :
    buff.length + device.fullUserEntry.size < 2 ^ 64 := by
  have size := rep.pending.size_eq
  have bounded := rep.pendingSize
  have room := kernel.requestsFit
  omega

private theorem overwrite_tail (front junk bytes : List Byte)
    (same : junk.length = bytes.length) :
    (front ++ junk).take front.length ++ bytes ++
      (front ++ junk).drop (front.length + bytes.length) = front ++ bytes := by
  have nothing : (front ++ junk).drop (front.length + bytes.length) = [] := by
    apply List.drop_eq_nil_of_le
    rw [List.length_append]
    omega
  rw [nothing, List.take_left, List.append_nil]

private theorem receive (rep : device.Represents kernel log) (buff : List Byte)
    (notCopied : Nat) :
    ∃ copied received,
      memcpy (device.memory.allocate (.bytes
            (kernel.freshBytes (buff.length + device.fullUserEntry.size))))
          (.block device.memory.next) 0 device.fullUserEntry.buffptr 0
          device.fullUserEntry.size = .ok copied ∧
      copyFromUser copied (.block device.memory.next) device.fullUserEntry.size buff notCopied =
        .ok (received, leftOver notCopied buff.length) ∧
      Changes device.memory received
        (some (.bytes (log.pending ++
          (buff.take (buff.length - leftOver notCopied buff.length) ++
            List.replicate (leftOver notCopied buff.length) 0)))) [] := by
  have size := rep.pending.size_eq
  have allocated := Changes.allocate device.memory
    (.bytes (kernel.freshBytes (buff.length + device.fullUserEntry.size)))
  obtain ⟨copied, copy, copyChanges⟩ := memcpy_new allocated 0
    (loadRange_of_changes allocated rep.pending.loadRange) (by simp; omega)
  have userLength :
      (buff.take (buff.length - leftOver notCopied buff.length) ++
        List.replicate (leftOver notCopied buff.length) 0 : List Byte).length =
        buff.length := by
    simp only [leftOver, List.length_append, List.length_take, List.length_replicate]
    omega
  obtain ⟨received, store, storeChanges⟩ := storeRange_new copyChanges
    device.fullUserEntry.size _ (by
      rw [userLength]
      simp
      omega)
  refine ⟨copied, received, copy, ?_, ?_⟩
  · unfold copyFromUser
    simp only [store, ok_bind]
    rfl
  · rw [size] at storeChanges
    rw [List.take_zero, List.nil_append, overwrite_tail] at storeChanges
    · exact storeChanges
    · rw [userLength]
      simp

theorem aesdWrite_refused (rep : device.Represents kernel log) (env : WriteEnv)
    (buff : List Byte) (fPos : Int) (fits : buff.length ≤ maxRwCount)
    (refused : ¬env.Accepts kernel device buff) :
    ∃ memory retval,
      aesdWrite kernel env device buff fPos =
        .ok { device := { device with memory := memory }, fPos := fPos, retval := retval } ∧
      (retval = -erestartsys ∨ retval = -enomem ∨ retval = -efault) ∧
      Changes device.memory memory none [] := by
  unfold aesdWrite
  by_cases interrupted : env.lockInterrupted = true
  · refine ⟨device.memory, -erestartsys, ?_, .inl rfl, Changes.refl _⟩
    rw [if_pos interrupted]
  · rw [if_neg interrupted]
    simp only [sizeT_of_lt (rep.request_lt fits)]
    by_cases allowed : env.kmallocGranted = true ∧
        buff.length + device.fullUserEntry.size ≤ kernel.kmallocMaxSize
    · have missing : leftOver env.notCopied buff.length ≠ 0 := by
        intro complete
        exact refused ⟨by simpa using interrupted, allowed.1, allowed.2, complete⟩
      have positive : 0 < buff.length + device.fullUserEntry.size := by
        unfold leftOver at missing
        omega
      rw [kmalloc_granted kernel device.memory allowed positive]
      obtain ⟨copied, received, copy, receive, changes⟩ := rep.receive buff env.notCopied
      obtain ⟨freed, free, freeChanges⟩ := kfree_new changes
      refine ⟨freed, -efault, ?_, .inr (.inr rfl), freeChanges⟩
      simp only [copy, receive, ok_bind, if_pos missing, free]
      rfl
    · rw [kmalloc_refused kernel device.memory allowed]
      exact ⟨device.memory, -enomem, rfl, .inr (.inl rfl), Changes.refl _⟩

private theorem kfree_pending (rep : device.Represents kernel log) {memory : Memory}
    {added : Option Cell} (changes : Changes device.memory memory added []) :
    ∃ after, kfree memory device.fullUserEntry.buffptr = .ok after ∧
      Changes device.memory after added device.pendingBlocks := by
  rcases rep.pending with ⟨_, zero⟩ | ⟨_, identifier, pointer, found, _⟩
  · refine ⟨memory, by rw [zero]; rfl, ?_⟩
    unfold pendingBlocks
    rw [zero]
    exact changes
  · have live := Heap.live_of_cell found
    obtain ⟨after, free, freeChanges⟩ := kfree_old changes live List.not_mem_nil
    refine ⟨after, by rw [pointer]; exact free, ?_⟩
    unfold pendingBlocks
    rw [pointer]
    exact freeChanges

private theorem aesdWrite_received (rep : device.Represents kernel log) (env : WriteEnv)
    (buff : List Byte) (fPos : Int) (fits : buff.length ≤ maxRwCount)
    (accepts : env.Accepts kernel device buff) (last : Byte)
    (lastByte : (log.pending ++ buff).getLast? = some last) :
    ∃ memory,
      Changes device.memory memory (some (.bytes (log.pending ++ buff))) device.pendingBlocks ∧
      aesdWrite kernel env device buff fPos = (do
        let written : Device :=
          { device with
            memory := memory
            fullUserEntry :=
              { buffptr := .block device.memory.next
                size := (log.pending ++ buff).length } }
        let written ← commitOnNewline kernel env last written
        pure { device := written, fPos := loffT (fPos + buff.length), retval := buff.length }) := by
  obtain ⟨locked, granted, small, complete⟩ := accepts
  have size := rep.pending.size_eq
  have requestFits := rep.request_lt fits
  have total : sizeT (device.fullUserEntry.size + buff.length) =
      (log.pending ++ buff).length := by
    rw [sizeT_of_lt (by omega), List.length_append]
    omega
  have positive : 0 < (log.pending ++ buff).length := by
    apply List.length_pos_iff.mpr
    intro empty
    rw [empty] at lastByte
    cases lastByte
  have lastIndex : sizeTSub (log.pending ++ buff).length 1 =
      (log.pending ++ buff).length - 1 :=
    sizeTSub_of_le positive (by rw [List.length_append]; omega)
  have lastAt : (log.pending ++ buff)[(log.pending ++ buff).length - 1]? = some last := by
    rw [← List.getLast?_eq_getElem?]
    exact lastByte
  obtain ⟨copied, received, copy, receive, changes⟩ := rep.receive buff env.notCopied
  rw [complete] at receive changes
  simp only [Nat.sub_zero, List.take_length, List.replicate_zero, List.append_nil] at changes
  have readable : loadRange received (.block device.memory.next)
      device.fullUserEntry.size buff.length = .ok buff := by
    rw [loadRange_block changes.cell_new (by rw [List.length_append]; omega), size]
    simp
  have countSmall : maxRwCount + 1 < 2 ^ 64 := by decide
  obtain ⟨printed, print, printChanges⟩ := aesdBufferPrint_quiet kernel
    env.receivedPrintGranted (by omega) readable
  have changesPrinted := changes.trans_quiet printChanges
  obtain ⟨freed, free, freeChanges⟩ := rep.kfree_pending changesPrinted
  refine ⟨freed, freeChanges, ?_⟩
  unfold aesdWrite
  rw [if_neg (by simp [locked])]
  simp only [sizeT_of_lt requestFits]
  rw [kmalloc_granted kernel device.memory ⟨granted, small⟩
    (by rw [List.length_append] at positive; omega)]
  have loadedPrinted := loadByte_block changesPrinted.cell_new lastAt
  have loadedFreed := loadByte_block freeChanges.cell_new lastAt
  simp only [copy, receive, print, free, ok_bind, ne_eq, not_true_eq_false, ↓reduceIte, total,
    lastIndex, loadedPrinted, loadedFreed]

theorem endsCommand_pending_append (rep : device.Represents kernel log) (buff : List Byte) :
    endsCommand (log.pending ++ buff) = endsCommand buff := by
  by_cases empty : buff = []
  · rw [empty, List.append_nil, rep.pendingOpen]
    rfl
  · exact CommandLog.endsCommand_append log.pending buff empty

theorem aesdWrite_stored (rep : device.Represents kernel log) (env : WriteEnv)
    (buff : List Byte) (fPos : Int) (fits : buff.length ≤ maxRwCount)
    (something : log.pending ++ buff ≠ []) (accepts : env.Accepts kernel device buff)
    (continues : endsCommand buff = false) :
    ∃ memory,
      Changes device.memory memory (some (.bytes (log.pending ++ buff))) device.pendingBlocks ∧
      aesdWrite kernel env device buff fPos =
        .ok { device := device.stored memory (log.pending ++ buff)
              fPos := loffT (fPos + buff.length)
              retval := buff.length } := by
  have lastByte := List.getLast?_eq_some_getLast something
  generalize (log.pending ++ buff).getLast something = last at lastByte
  have other : last ≠ newline := by
    intro same
    have ends := rep.endsCommand_pending_append buff
    rw [continues, endsCommand, lastByte, same] at ends
    simp at ends
  obtain ⟨memory, changes, written⟩ := rep.aesdWrite_received env buff fPos fits accepts
    last lastByte
  refine ⟨memory, changes, ?_⟩
  rw [written]
  simp only [commitOnNewline, if_neg other]
  rfl

private theorem kfree_evicted (rep : device.Represents kernel log) {memory : Memory}
    {added : Option Cell} (changes : Changes device.memory memory added device.pendingBlocks) :
    ∃ after, freeOverwritten device.ring memory = .ok after ∧
      Changes device.memory after added
        (device.pendingBlocks ++ device.ring.evictedBlocks) := by
  unfold freeOverwritten CircularBuffer.evictedBlocks
  by_cases full : device.ring.full = true
  · obtain ⟨oldest, entries, refBuff⟩ :=
      aesdCircularBufferRefBuff_oldest device.ring rep.ring full
    have member : oldest ∈ device.ring.entries := by
      rw [entries]
      exact List.mem_cons_self
    obtain ⟨bytes, _, identifier, pointer, found, _⟩ := forall₂_mem_left rep.retained member
    have inRing : identifier ∈ device.ring.blocks :=
      mem_ringBlocks.mpr ⟨oldest, member, pointer⟩
    obtain ⟨after, free, freeChanges⟩ := kfree_old changes (Heap.live_of_cell found)
      (rep.ring_pending_disjoint inRing)
    refine ⟨after, ?_, ?_⟩
    · rw [if_pos full, refBuff, pointer]
      exact free
    · rw [if_pos full, refBuff, pointer]
      exact freeChanges
  · refine ⟨memory, by rw [if_neg full], ?_⟩
    rw [if_neg full, List.append_nil]
    exact changes

theorem aesdWrite_committed (rep : device.Represents kernel log) (env : WriteEnv)
    (buff : List Byte) (fPos : Int) (fits : buff.length ≤ maxRwCount)
    (accepts : env.Accepts kernel device buff) (ends : endsCommand buff = true) :
    ∃ memory,
      Changes device.memory memory (some (.bytes (log.pending ++ buff)))
        (device.pendingBlocks ++ device.ring.evictedBlocks) ∧
      aesdWrite kernel env device buff fPos =
        .ok { device := device.committed memory (log.pending ++ buff)
              fPos := loffT (fPos + buff.length)
              retval := buff.length } := by
  have lastByte : (log.pending ++ buff).getLast? = some newline := by
    have endsAll := rep.endsCommand_pending_append buff
    rw [ends, endsCommand, beq_iff_eq] at endsAll
    exact endsAll
  obtain ⟨memory, changes, written⟩ := rep.aesdWrite_received env buff fPos fits accepts
    newline lastByte
  obtain ⟨freed, free, freeChanges⟩ := rep.kfree_evicted changes
  have readable : loadRange freed (.block device.memory.next) 0
      (log.pending ++ buff).length = .ok (log.pending ++ buff) := by
    rw [loadRange_block freeChanges.cell_new (by omega), List.drop_zero, List.take_length]
  have small : (log.pending ++ buff).length + 1 < 2 ^ 64 := by
    have size := rep.pending.size_eq
    have room := kernel.requestsFit
    have granted := accepts.2.2.1
    have countPositive : 1 < maxRwCount := by decide
    rw [List.length_append]
    omega
  obtain ⟨printed, print, printChanges⟩ := aesdBufferPrint_quiet kernel
    env.commandPrintGranted small readable
  refine ⟨printed, freeChanges.trans_quiet printChanges, ?_⟩
  rw [written]
  simp only [commitOnNewline, ↓reduceIte, commitFullUserEntry, free, print, ok_bind]
  rfl

/-- Nothing pending and nothing to write: the allocation of no bytes is granted,
and the byte before its start is read. -/
theorem aesdWrite_nothing (rep : device.Represents kernel log) (env : WriteEnv) (fPos : Int)
    (nothing : log.pending = []) (accepts : env.Accepts kernel device []) :
    aesdWrite kernel env device [] fPos = .error .outOfBounds := by
  have zero : device.fullUserEntry = .zero := by
    rcases rep.pending with ⟨_, zero⟩ | ⟨nonempty, _⟩
    · exact zero
    · exact absurd nothing nonempty
  obtain ⟨locked, granted, _, complete⟩ := accepts
  have readable : loadRange device.memory .zeroSize 0 0 = .ok [] := rfl
  obtain ⟨printed, print, _⟩ := aesdBufferPrint_quiet kernel env.receivedPrintGranted
    (by decide) readable
  have allocated : kmalloc kernel env.kmallocGranted 0 device.memory =
      (.zeroSize, device.memory) := by
    unfold kmalloc kmallocCell
    rw [if_pos ⟨granted, Nat.zero_le _⟩, if_pos rfl]
  have empty : sizeT (0 + 0) = 0 := rfl
  have unread : ∀ memory offset, loadByte memory .zeroSize offset = .error .outOfBounds :=
    fun _ _ => rfl
  unfold aesdWrite
  rw [if_neg (by simp [locked])]
  simp only [zero, BufferEntry.zero, List.length_nil, empty, allocated, memcpy, copyFromUser,
    loadRange_zero, storeRange, leftOver, Nat.min_zero, List.take_nil, List.replicate_zero,
    List.append_nil, ok_bind, ↓reduceIte, ne_eq, not_true_eq_false, pure_bind, print, unread]
  rfl

/-! ### Each case keeps the representation -/

theorem of_changes (rep : device.Represents kernel log) {memory : Memory}
    {added : Option Cell} (changes : Changes device.memory memory added []) :
    ({ device with memory := memory } : Device).Represents kernel log :=
  { ring := rep.ring
    retained := forall₂_entryHolds_of_changes changes rep.retained
      (fun _ _ _ _ => List.not_mem_nil)
    pending := rep.pending.of_changes changes (fun _ _ => List.not_mem_nil)
    pbuffer := by
      obtain ⟨identifier, pointer, found⟩ := rep.pbuffer
      exact ⟨identifier, pointer, changes.cell_of_live found List.not_mem_nil⟩
    distinct := rep.distinct
    buffSize := rep.buffSize
    commandSizes := rep.commandSizes
    pendingSize := rep.pendingSize
    pendingOpen := rep.pendingOpen }

theorem next_not_mem_blocks (rep : device.Represents kernel log) :
    device.memory.next ∉ device.blocks := by
  intro member
  have below := rep.blocks_lt_next member
  omega

theorem stored_represents (rep : device.Represents kernel log) {memory : Memory}
    {buff : List Byte}
    (changes : Changes device.memory memory (some (.bytes (log.pending ++ buff)))
      device.pendingBlocks)
    (something : log.pending ++ buff ≠ [])
    (small : (log.pending ++ buff).length ≤ kernel.kmallocMaxSize)
    (continues : endsCommand buff = false) :
    (device.stored memory (log.pending ++ buff)).Represents kernel (log.write buff) := by
  obtain ⟨sameRetained, newPending⟩ := log.retained_write_continues buff continues
  have sameCommands : (log.write buff).commands = log.commands := by
    simp [CommandLog.write, continues]
  refine
    { ring := rep.ring
      retained := ?_
      pending := ?_
      pbuffer := ?_
      distinct := ?_
      buffSize := by rw [sameCommands]; exact rep.buffSize
      commandSizes := by rw [sameCommands]; exact rep.commandSizes
      pendingSize := by rw [newPending]; exact small
      pendingOpen := by rw [newPending, rep.endsCommand_pending_append, continues] }
  · rw [sameRetained]
    apply forall₂_entryHolds_of_changes changes rep.retained
    intro entry member identifier pointer
    exact rep.ring_pending_disjoint (mem_ringBlocks.mpr ⟨entry, member, pointer⟩)
  · rw [newPending]
    exact .inr ⟨something, device.memory.next, rfl, changes.cell_new, rfl⟩
  · obtain ⟨identifier, pointer, found⟩ := rep.pbuffer
    refine ⟨identifier, pointer, changes.cell_of_live found ?_⟩
    intro member
    exact rep.pbuffer_not_mem pointer (List.mem_append_left _ member)
  · have fresh := rep.next_not_mem_blocks
    have distinct := rep.distinct
    unfold blocks at fresh distinct ⊢
    change (device.pbuffer.block?.toList ++ ([device.memory.next] ++ device.ring.blocks)).Nodup
    rw [List.nodup_append, List.nodup_append] at distinct ⊢
    obtain ⟨structNodup, ⟨_, ringNodup, _⟩, apart⟩ := distinct
    refine ⟨structNodup, ⟨List.nodup_singleton _, ringNodup, ?_⟩, ?_⟩
    · intro new newMember old oldMember same
      rw [List.mem_singleton.mp newMember] at same
      subst same
      exact fresh (List.mem_append_right _ (List.mem_append_right _ oldMember))
    · intro structBlock structMember other otherMember same
      rcases List.mem_append.mp otherMember with new | old
      · rw [List.mem_singleton.mp new] at same
        subst same
        exact fresh (List.mem_append_left _ structMember)
      · exact apart structBlock structMember other (List.mem_append_right _ old) same

theorem ringBlocks_of_full (rep : device.Represents kernel log)
    (full : device.ring.full = true) :
    ∃ oldest younger, device.ring.evictedBlocks = [oldest] ∧
      device.ring.blocks = oldest :: younger ∧
      (device.ring.entries.tail.filterMap fun entry => entry.buffptr.block?) = younger := by
  obtain ⟨entry, entries, refBuff⟩ := aesdCircularBufferRefBuff_oldest device.ring rep.ring full
  have member : entry ∈ device.ring.entries := by
    rw [entries]
    exact List.mem_cons_self
  obtain ⟨_, _, identifier, pointer, _, _⟩ := forall₂_mem_left rep.retained member
  refine ⟨identifier, _, ?_, ?_, rfl⟩
  · unfold CircularBuffer.evictedBlocks
    rw [if_pos full, refBuff, pointer]
    rfl
  · unfold CircularBuffer.blocks
    nth_rewrite 1 [entries]
    rw [List.filterMap_cons_some (b := identifier)]
    rw [pointer]
    rfl

theorem committed_ringBlocks (rep : device.Represents kernel log) (memory : Memory)
    (bytes : List Byte) :
    device.ring.blocks = device.ring.evictedBlocks ++
        device.ring.blocks.drop device.ring.evictedBlocks.length ∧
      (device.committed memory bytes).ring.blocks =
        device.ring.blocks.drop device.ring.evictedBlocks.length ++ [device.memory.next] := by
  have added := aesdCircularBufferAddEntry_entries device.ring
    { buffptr := .block device.memory.next, size := bytes.length } rep.ring
  have newBlocks : (device.committed memory bytes).ring.blocks =
      ((aesdCircularBufferAddEntry device.ring
        { buffptr := .block device.memory.next, size := bytes.length }).entries).filterMap
          fun entry => entry.buffptr.block? := rfl
  rw [newBlocks, added]
  by_cases full : device.ring.full = true
  · obtain ⟨oldest, younger, evicted, blocks, tail⟩ := rep.ringBlocks_of_full full
    rw [if_pos full, List.filterMap_append, tail, evicted, blocks]
    exact ⟨rfl, rfl⟩
  · have evicted : device.ring.evictedBlocks = [] := by
      unfold CircularBuffer.evictedBlocks
      rw [if_neg full]
    rw [if_neg full, List.filterMap_append, evicted]
    exact ⟨rfl, rfl⟩

private theorem kept_not_freed (rep : device.Represents kernel log) {entry : BufferEntry}
    {identifier : Nat}
    (kept : entry ∈ if device.ring.full then device.ring.entries.tail else device.ring.entries)
    (pointer : entry.buffptr = .block identifier) :
    identifier ∉ device.pendingBlocks ++ device.ring.evictedBlocks := by
  intro freed
  by_cases full : device.ring.full = true
  · rw [if_pos full] at kept
    obtain ⟨oldest, younger, evicted, blocks, tail⟩ := rep.ringBlocks_of_full full
    have inYounger : identifier ∈ younger := by
      rw [← tail]
      exact List.mem_filterMap.mpr ⟨entry, kept, by rw [pointer]; rfl⟩
    rcases List.mem_append.mp freed with pendingMember | evictedMember
    · refine rep.ring_pending_disjoint ?_ pendingMember
      rw [blocks]
      exact List.mem_cons_of_mem _ inYounger
    · rw [evicted, List.mem_singleton] at evictedMember
      subst evictedMember
      have distinct := rep.ringBlocks_nodup
      rw [blocks, List.nodup_cons] at distinct
      exact distinct.1 inYounger
  · rw [if_neg full] at kept
    have evicted : device.ring.evictedBlocks = [] := by
      unfold CircularBuffer.evictedBlocks
      rw [if_neg full]
    rw [evicted, List.append_nil] at freed
    exact rep.ring_pending_disjoint (mem_ringBlocks.mpr ⟨entry, kept, pointer⟩) freed

private theorem committed_retained (rep : device.Represents kernel log) {memory : Memory}
    {buff : List Byte}
    (changes : Changes device.memory memory (some (.bytes (log.pending ++ buff)))
      (device.pendingBlocks ++ device.ring.evictedBlocks))
    (ends : endsCommand buff = true) :
    List.Forall₂ (EntryHolds memory)
      (device.committed memory (log.pending ++ buff)).ring.entries (log.write buff).retained := by
  have entries : (device.committed memory (log.pending ++ buff)).ring.entries =
      (if device.ring.full then device.ring.entries.tail else device.ring.entries) ++
        [{ buffptr := .block device.memory.next, size := (log.pending ++ buff).length }] := by
    change (aesdCircularBufferAddEntry device.ring _).entries = _
    rw [aesdCircularBufferAddEntry_entries _ _ rep.ring]
    split <;> rfl
  have commands : (log.write buff).retained =
      (if device.ring.full then log.retained.tail else log.retained) ++ [log.pending ++ buff] := by
    rw [log.retained_write_ends buff ends]
    by_cases full : device.ring.full = true
    · have ten : log.retained.length = 10 := by
        rw [← rep.retained.length_eq]
        exact device.ring.full_iff_length.mp full
      rw [if_pos full, if_pos ten]
    · have fewer : log.retained.length ≠ 10 := by
        intro ten
        rw [← rep.retained.length_eq] at ten
        exact full (device.ring.full_iff_length.mpr ten)
      rw [if_neg full, if_neg fewer]
  have oldHeld : List.Forall₂ (EntryHolds device.memory)
      (if device.ring.full then device.ring.entries.tail else device.ring.entries)
      (if device.ring.full then log.retained.tail else log.retained) := by
    by_cases full : device.ring.full = true
    · rw [if_pos full, if_pos full]
      exact forall₂_tail rep.retained
    · rw [if_neg full, if_neg full]
      exact rep.retained
  have newHeld : EntryHolds memory
      { buffptr := .block device.memory.next, size := (log.pending ++ buff).length }
      (log.pending ++ buff) := ⟨device.memory.next, rfl, changes.cell_new, rfl⟩
  rw [entries, commands]
  refine List.rel_append ?_ (.cons newHeld .nil)
  apply forall₂_entryHolds_of_changes changes oldHeld
  intro entry member identifier pointer
  exact rep.kept_not_freed member pointer

theorem committed_represents (rep : device.Represents kernel log) {memory : Memory}
    {buff : List Byte}
    (changes : Changes device.memory memory (some (.bytes (log.pending ++ buff)))
      (device.pendingBlocks ++ device.ring.evictedBlocks))
    (small : (log.pending ++ buff).length ≤ kernel.kmallocMaxSize)
    (ends : endsCommand buff = true) :
    (device.committed memory (log.pending ++ buff)).Represents kernel (log.write buff) := by
  have written : log.write buff =
      { commands := log.commands ++ [log.pending ++ buff], pending := [] } := by
    simp [CommandLog.write, ends]
  have positive : 0 < (log.pending ++ buff).length := by
    rw [List.length_append]
    have nonempty : buff ≠ [] := by
      intro empty
      rw [empty] at ends
      cases ends
    have := List.length_pos_iff.mpr nonempty
    omega
  obtain ⟨blocks, newBlocks⟩ := rep.committed_ringBlocks memory (log.pending ++ buff)
  refine
    { ring := aesdCircularBufferAddEntry_wellFormed _ _ rep.ring
      retained := rep.committed_retained changes ends
      pending := by rw [written]; exact .inl ⟨rfl, rfl⟩
      pbuffer := ?_
      distinct := ?_
      buffSize := ?_
      commandSizes := ?_
      pendingSize := by rw [written]; exact Nat.zero_le _
      pendingOpen := by rw [written]; rfl }
  · obtain ⟨identifier, pointer, found⟩ := rep.pbuffer
    refine ⟨identifier, pointer, changes.cell_of_live found ?_⟩
    intro member
    refine rep.pbuffer_not_mem pointer ?_
    rcases List.mem_append.mp member with pendingMember | evictedMember
    · exact List.mem_append_left _ pendingMember
    · refine List.mem_append_right _ ?_
      rw [blocks]
      exact List.mem_append_left _ evictedMember
  · have fresh := rep.next_not_mem_blocks
    have distinct := rep.distinct
    unfold Device.blocks at fresh distinct ⊢
    change (device.pbuffer.block?.toList ++
      ([] ++ (device.committed memory (log.pending ++ buff)).ring.blocks)).Nodup
    rw [newBlocks, List.nil_append]
    generalize device.ring.blocks.drop device.ring.evictedBlocks.length = younger at blocks ⊢
    rw [blocks] at fresh distinct
    simp only [List.mem_append, not_or] at fresh
    simp only [List.nodup_append, List.mem_append, List.mem_singleton] at distinct ⊢
    obtain ⟨structNodup, ⟨_, ⟨_, youngerNodup, _⟩, _⟩, apart⟩ := distinct
    refine ⟨structNodup, ⟨youngerNodup, List.nodup_singleton _, ?_⟩, ?_⟩
    · intro old oldMember new newMember same
      rw [newMember] at same
      subst same
      exact fresh.2.2.2 oldMember
    · intro structBlock structMember other otherMember same
      rcases otherMember with old | new
      · exact apart structBlock structMember other (.inr (.inr old)) same
      · rw [new] at same
        subst same
        exact fresh.1 structMember
  · change loffT (device.buffSize + (log.pending ++ buff).length) = _
    rw [written, rep.buffSize, List.flatten_append]
    simp only [loffT, Int.bmod_add_bmod, List.flatten_cons, List.flatten_nil, List.append_nil,
      List.length_append, Int.natCast_add]
  · rw [written]
    intro command member
    rcases List.mem_append.mp member with old | new
    · exact rep.commandSizes command old
    · rw [List.mem_singleton.mp new]
      exact ⟨positive, small⟩

end Device.Represents

theorem WriteEnv.Accepts.small {env : WriteEnv} {kernel : Kernel} {device : Device}
    {log : CommandLog} {buff : List Byte} (accepts : env.Accepts kernel device buff)
    (rep : device.Represents kernel log) :
    (log.pending ++ buff).length ≤ kernel.kmallocMaxSize := by
  have size := rep.pending.size_eq
  have granted := accepts.2.2.1
  rw [List.length_append]
  omega

/-- An accepted write advances the log by one write. -/
theorem Device.Represents.aesdWrite_accepted {kernel : Kernel} {device : Device}
    {log : CommandLog} (rep : device.Represents kernel log) (env : WriteEnv)
    (buff : List Byte) (fPos : Int) (fits : buff.length ≤ maxRwCount)
    (something : log.pending ++ buff ≠ []) (accepts : env.Accepts kernel device buff) :
    ∃ after,
      aesdWrite kernel env device buff fPos =
        .ok { device := after, fPos := loffT (fPos + buff.length), retval := buff.length } ∧
      after.Represents kernel (log.write buff) := by
  cases ends : endsCommand buff with
  | false =>
      obtain ⟨memory, changes, written⟩ :=
        rep.aesdWrite_stored env buff fPos fits something accepts ends
      exact ⟨_, written, rep.stored_represents changes something (accepts.small rep) ends⟩
  | true =>
      obtain ⟨memory, changes, written⟩ := rep.aesdWrite_committed env buff fPos fits accepts ends
      exact ⟨_, written, rep.committed_represents changes (accepts.small rep) ends⟩

end Aesd.Driver
