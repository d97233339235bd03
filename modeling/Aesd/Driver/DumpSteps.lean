/-
The dump that `aesd_release` makes of the ring, access by access.

`aesd_show_circular_buffer` takes no lock.  Each load of a field of the ring is a
step, and so is each byte that is copied out of an entry.  The copy that is printed
belongs to the dump alone; of it the model keeps whether `kmalloc` granted it.

Left alone, the steps are `aesdRelease`.  Among the steps of others they do not
fail as long as the ring stays readable and what it points to stays as it is.
-/

import Aesd.Driver.UnderLock

namespace Aesd.Driver

open BlockHeap
open Monitor

/-! ### The program -/

/-- The loads of `memcpy`. -/
def copySteps (buff : Ptr) : Nat → Nat → DeviceProgram Unit
  | _, 0 => pure ()
  | offset, count + 1 => do
      let _ ← loadByteStep buff offset
      copySteps buff (offset + 1) count

/-- The pointer is loaded for the test and once more for the call. -/
def showEntrySteps (kernel : Kernel) (granted : Bool) (slot : Fin 10) : DeviceProgram Unit := do
  let tested ← loadStep fun device => (device.ring.entry slot).buffptr
  if tested ≠ .null then
    let buff ← loadStep fun device => (device.ring.entry slot).buffptr
    let size ← loadStep fun device => (device.ring.entry slot).size
    let tmp ← loadStep fun device =>
      (kmalloc kernel granted (sizeT (size + 1)) device.memory).1
    if tmp = .null then pure () else copySteps buff 0 size
  else pure ()

def showEntriesSteps (kernel : Kernel) (granted : Nat → Bool) (slot : Nat → Fin 10) :
    List Nat → DeviceProgram Unit
  | [] => pure ()
  | index :: rest => do
      showEntrySteps kernel (granted index) (slot index)
      showEntriesSteps kernel granted slot rest

/-- `buffer->out_offs` is loaded once, before the loop. -/
def aesdShowCircularBufferSteps (kernel : Kernel) (granted : Nat → Bool) :
    DeviceProgram Unit := do
  let outOffs ← loadStep fun device => device.ring.outOffs
  showEntriesSteps kernel granted (slotFrom outOffs) (List.range 10)

/-! ### It only reads -/

theorem loadByteStep_keeps (pointer : Ptr) (offset : Nat) :
    (loadByteStep pointer offset).Keeps (id : Device → Device) := by
  apply Program.keeps_atomically
  intro device after answer loaded
  dsimp only at loaded
  cases found : loadByte device.memory pointer offset with
  | error fault =>
      rw [found] at loaded
      cases loaded
  | ok byte =>
      rw [found] at loaded
      cases loaded
      rfl

theorem copySteps_keeps (buff : Ptr) (count : Nat) :
    ∀ offset, (copySteps buff offset count).Keeps (id : Device → Device) := by
  induction count with
  | zero => exact fun _ => trivial
  | succ count ih => exact fun offset => (loadByteStep_keeps buff offset).bind fun _ => ih _

theorem showEntrySteps_keeps (kernel : Kernel) (granted : Bool) (slot : Fin 10) :
    (showEntrySteps kernel granted slot).Keeps (id : Device → Device) := by
  apply (loadStep_keeps _ _).bind
  intro tested
  split
  · apply (loadStep_keeps _ _).bind
    intro buff
    apply (loadStep_keeps _ _).bind
    intro size
    apply (loadStep_keeps _ _).bind
    intro tmp
    split
    · exact trivial
    · exact copySteps_keeps buff size 0
  · exact trivial

theorem aesdShowCircularBufferSteps_keeps (kernel : Kernel) (granted : Nat → Bool) :
    (aesdShowCircularBufferSteps kernel granted).Keeps (id : Device → Device) := by
  apply (loadStep_keeps _ _).bind
  intro outOffs
  generalize List.range 10 = indices
  induction indices with
  | nil => exact trivial
  | cons index rest ih => exact (showEntrySteps_keeps _ _ _).bind fun _ => ih

/-! ### Among the steps of others -/

theorem loadRange_ok {memory : Memory} {pointer : Ptr} {offset count : Nat} {bytes : List Byte}
    (nonzero : count ≠ 0) (loaded : loadRange memory pointer offset count = .ok bytes) :
    ∃ block contents, pointer = .block block ∧ memory.cell block = some (.bytes contents) ∧
      offset + count ≤ contents.length := by
  unfold loadRange at loaded
  rw [if_neg nonzero] at loaded
  cases pointer with
  | null => cases loaded
  | zeroSize => cases loaded
  | block identifier =>
      split at loaded
      · rename_i contents found
        split at loaded
        · rename_i inside
          exact ⟨identifier, contents, rfl, found, inside⟩
        · cases loaded
      · cases loaded

section

variable {block : Nat} {contents : List Byte} {slot : Fin 10}

theorem copySteps_withstands (count : Nat) : ∀ offset (device : Device),
    (device.ring.entry slot).buffptr = .block block →
    device.memory.cell block = some (.bytes contents) → offset + count ≤ contents.length →
    (copySteps (.block block) offset count).Withstands Steady Device.Readable device := by
  induction count with
  | zero => exact fun _ _ _ _ _ => trivial
  | succ count ih =>
      intro offset device pointer cell inside
      apply Program.withstands_atomically_bind
      intro later steady _
      have laterPointer : (later.ring.entry slot).buffptr = .block block :=
        (steady.pointer slot (by rw [pointer]; exact Ptr.noConfusion)).trans pointer
      have laterCell := (steady.cell slot block pointer).trans cell
      have atOffset : contents[offset]? = some contents[offset] := List.getElem?_eq_getElem _
      refine ⟨later, contents[offset], ?_, ?_⟩
      · dsimp only
        rw [loadByte_block laterCell atOffset]
        rfl
      · exact ih (offset + 1) later laterPointer laterCell (by omega)

end

theorem withstands_loadStep_bind {Answer Result : Type} {field : Device → Answer}
    {rest : Answer → DeviceProgram Result} {device : Device}
    (later : ∀ reached, Steady device reached → reached.Readable →
      (rest (field reached)).Withstands Steady Device.Readable reached) :
    (loadStep field >>= rest).Withstands Steady Device.Readable device := later

theorem showEntrySteps_withstands (kernel : Kernel) (granted : Bool) (slot : Fin 10)
    (device : Device) :
    (showEntrySteps kernel granted slot).Withstands Steady Device.Readable device := by
  apply withstands_loadStep_bind
  intro first _ _
  by_cases present : (first.ring.entry slot).buffptr ≠ .null
  · rw [if_pos present]
    apply withstands_loadStep_bind
    intro second tested _
    have stillPresent : (second.ring.entry slot).buffptr ≠ .null := by
      rw [tested.pointer slot present]
      exact present
    apply withstands_loadStep_bind
    intro third loaded readable
    have pointer := loaded.pointer slot stillPresent
    apply withstands_loadStep_bind
    intro fourth sized _
    split
    · exact trivial
    · by_cases empty : (third.ring.entry slot).size = 0
      · rw [empty]
        exact trivial
      · -- in a readable ring the size goes with the pointer, and the pointer has not changed
        rcases readable slot with null | ⟨_, bytes, held⟩
        · exact absurd (pointer.symm.trans null) stillPresent
        · obtain ⟨block, contents, isBlock, cell, inside⟩ := loadRange_ok empty held
          rw [← pointer, isBlock]
          apply copySteps_withstands _ 0 fourth
          · exact (sized.pointer slot (by rw [isBlock]; exact Ptr.noConfusion)).trans isBlock
          · exact (sized.cell slot block isBlock).trans cell
          · exact inside
  · rw [if_neg present]
    exact trivial

theorem showEntriesSteps_withstands (kernel : Kernel) (granted : Nat → Bool)
    (slot : Nat → Fin 10) (indices : List Nat) : ∀ device,
      (showEntriesSteps kernel granted slot indices).Withstands Steady Device.Readable
        device := by
  induction indices with
  | nil => exact fun _ => trivial
  | cons index rest ih =>
      intro device
      exact (showEntrySteps_withstands kernel _ _ device).bind fun _ last => ih last

theorem aesdShowCircularBufferSteps_withstands (kernel : Kernel) (granted : Nat → Bool)
    (device : Device) :
    (aesdShowCircularBufferSteps kernel granted).Withstands Steady Device.Readable device := by
  apply withstands_loadStep_bind
  intro later _ _
  exact showEntriesSteps_withstands kernel granted _ _ later

/-! ### Without interruption -/

theorem loadByteStep_alone (pointer : Ptr) (offset : Nat) (device : Device) :
    (loadByteStep pointer offset).alone device =
      (loadByte device.memory pointer offset).map fun byte => (device, byte) := by
  unfold loadByteStep
  rw [alone_onMemory]
  cases loadByte device.memory pointer offset with
  | error fault => rfl
  | ok byte => rfl

theorem copySteps_alone (buff : Ptr) (device : Device) (count : Nat) : ∀ offset,
    (copySteps buff offset count).alone device =
      (loadRange device.memory buff offset count).map fun _ => (device, ()) := by
  induction count with
  | zero => exact fun _ => rfl
  | succ count ih =>
      intro offset
      have first : (copySteps buff offset (count + 1)).alone device =
          ((loadByte device.memory buff offset).map fun byte => (device, byte)).bind
            fun reached => (copySteps buff (offset + 1) count).alone reached.1 := by
        rw [← loadByteStep_alone]
        exact Program.alone_bind _ _ device
      rw [first]
      cases found : buff.block?.bind device.memory.cell with
      | none =>
          simp only [loadByte, loadRange, found, Nat.succ_ne_zero, if_false]
          rfl
      | some cell =>
          cases cell with
          | circularBuffer =>
              simp only [loadByte, loadRange, found, Nat.succ_ne_zero, if_false]
              rfl
          | bytes contents =>
              simp only [loadByte, loadRange, found, Nat.succ_ne_zero, if_false]
              by_cases inside : offset < contents.length
              · rw [List.getElem?_eq_getElem inside]
                refine (ih (offset + 1)).trans ?_
                simp only [loadRange, found]
                by_cases fits : offset + (count + 1) ≤ contents.length
                · rw [if_pos fits]
                  split
                  · rfl
                  · rw [if_pos (by omega)]
                    rfl
                · rw [if_neg fits, if_neg (by omega), if_neg (by omega)]
              · rw [List.getElem?_eq_none (by omega), if_neg (by omega)]
                rfl

theorem showEntrySteps_alone (kernel : Kernel) (granted : Bool) (slot : Fin 10)
    (device : Device) :
    (showEntrySteps kernel granted slot).alone device =
      if (device.ring.entry slot).buffptr ≠ .null ∧
          (kmalloc kernel granted (sizeT ((device.ring.entry slot).size + 1))
            device.memory).1 ≠ .null then
        (loadRange device.memory (device.ring.entry slot).buffptr 0
          (device.ring.entry slot).size).map fun _ => (device, ())
      else .ok (device, ()) := by
  unfold showEntrySteps
  rw [alone_loadStep_bind]
  by_cases present : (device.ring.entry slot).buffptr ≠ .null
  · rw [if_pos present, alone_loadStep_bind, alone_loadStep_bind, alone_loadStep_bind]
    by_cases refused : (kmalloc kernel granted (sizeT ((device.ring.entry slot).size + 1))
        device.memory).1 = .null
    · rw [if_pos refused, if_neg fun both => both.2 refused]
      rfl
    · rw [if_neg refused, if_pos ⟨present, refused⟩]
      exact copySteps_alone _ device _ 0
  · rw [if_neg present, if_neg fun both => present both.1]
    rfl

theorem aesdBufferPrint_unreadable (kernel : Kernel) {granted : Bool} {memory : Memory}
    {buff : Ptr} {size : Nat} {fault : Fault} (small : size + 1 < 2 ^ 64)
    (known : ∀ block, buff = .block block → block < memory.next)
    (allowed : granted = true ∧ size + 1 ≤ kernel.kmallocMaxSize)
    (unreadable : loadRange memory buff 0 size = .error fault) :
    aesdBufferPrint kernel granted memory buff 0 size = .error fault := by
  have stillUnreadable : loadRange (memory.allocate (.bytes (kernel.freshBytes (size + 1)))) buff
      0 size = .error fault := by
    refine (loadRange_congr ?_ 0 size).trans unreadable
    intro block pointer
    have old := known block pointer
    rw [Heap.allocate_cell, if_neg (by omega)]
  unfold aesdBufferPrint
  rw [sizeT_of_lt small, kmalloc_granted kernel memory allowed (by omega)]
  simp only [memcpy, stillUnreadable]
  rfl

/-- The dump sees the ring of `device` and whatever earlier copies have left of its
memory. -/
theorem showEntrySteps_agrees (kernel : Kernel) (granted : Bool) {slot : Fin 10}
    {device : Device} {memory : Memory}
    (small : (device.ring.entry slot).size + 1 < 2 ^ 64)
    (known : ∀ block, (device.ring.entry slot).buffptr = .block block →
      block < device.memory.next)
    (changes : Changes device.memory memory none []) :
    (∃ after, showEntry kernel granted (device.ring.entry slot) memory = .ok after ∧
        Changes device.memory after none [] ∧
        (showEntrySteps kernel granted slot).alone device = .ok (device, ())) ∨
      ∃ fault, showEntry kernel granted (device.ring.entry slot) memory = .error fault ∧
        (showEntrySteps kernel granted slot).alone device = .error fault := by
  rw [showEntrySteps_alone]
  unfold showEntry
  by_cases present : (device.ring.entry slot).buffptr ≠ .null
  · rw [if_pos present]
    by_cases allowed : granted = true ∧ (device.ring.entry slot).size + 1 ≤ kernel.kmallocMaxSize
    · have copied : (kmalloc kernel granted (sizeT ((device.ring.entry slot).size + 1))
          device.memory).1 ≠ .null := by
        rw [sizeT_of_lt small, kmalloc_granted kernel _ allowed (by omega)]
        exact Ptr.noConfusion
      rw [if_pos ⟨present, copied⟩]
      cases loaded : loadRange device.memory (device.ring.entry slot).buffptr 0
          (device.ring.entry slot).size with
      | ok bytes =>
          obtain ⟨after, print, quiet⟩ := aesdBufferPrint_quiet kernel granted small
            (loadRange_of_changes changes loaded)
          exact .inl ⟨after, print, changes.trans_quiet quiet, rfl⟩
      | error fault =>
          refine .inr ⟨fault, ?_, rfl⟩
          apply aesdBufferPrint_unreadable kernel small _ allowed
          · refine (loadRange_congr ?_ 0 _).trans loaded
            intro block pointer
            have old := known block pointer
            rw [changes.cell, if_neg (by omega), if_neg List.not_mem_nil]
          · intro block pointer
            exact Nat.lt_of_lt_of_le (known block pointer) changes.grows
    · have refused : kmalloc kernel granted (sizeT ((device.ring.entry slot).size + 1)) memory =
          (.null, memory) := by
        rw [sizeT_of_lt small]
        exact kmalloc_refused kernel memory allowed
      have refusedHere : (kmalloc kernel granted (sizeT ((device.ring.entry slot).size + 1))
          device.memory).1 = .null := by
        rw [sizeT_of_lt small, kmalloc_refused kernel _ allowed]
      refine .inl ⟨memory, ?_, changes, if_neg fun both => both.2 refusedHere⟩
      unfold aesdBufferPrint
      rw [refused]
  · rw [if_neg present, if_neg fun both => present both.1]
    exact .inl ⟨memory, rfl, changes, rfl⟩

section

variable {kernel : Kernel} {granted : Nat → Bool} {device : Device}
  (small : ∀ slot, (device.ring.entry slot).size + 1 < 2 ^ 64)
  (known : ∀ slot block, (device.ring.entry slot).buffptr = .block block →
    block < device.memory.next)

include small known

theorem showEntriesSteps_alone (indices : List Nat) : ∀ memory,
    Changes device.memory memory none [] →
    (showEntriesSteps kernel granted (slotFrom device.ring.outOffs) indices).alone device =
      (showEntries kernel granted device.ring indices memory).map fun _ => (device, ()) := by
  induction indices with
  | nil => exact fun _ _ => rfl
  | cons index rest ih =>
      intro memory changes
      rw [showEntries_cons, show Fin.ofNat 10 (device.ring.outOffs.val + index) =
        slotFrom device.ring.outOffs index from rfl]
      rcases showEntrySteps_agrees kernel (granted index)
        (small (slotFrom device.ring.outOffs index)) (known _) changes with
        ⟨after, shown, afterChanges, alone⟩ | ⟨fault, shown, alone⟩
      · rw [shown]
        exact (Program.alone_bind_of_ok alone).trans (ih after afterChanges)
      · rw [shown]
        refine (Program.alone_bind _ _ device).trans ?_
        rw [alone]
        rfl

/-- Left alone, the dump is the one that a close makes as one step. -/
theorem aesdShowCircularBufferSteps_alone :
    (aesdShowCircularBufferSteps kernel granted).alone device =
      (aesdRelease kernel granted device).map fun _ => (device, ()) := by
  unfold aesdShowCircularBufferSteps aesdRelease aesdShowCircularBuffer
  rw [alone_loadStep_bind, showEntriesSteps_alone small known _ device.memory (.refl _)]
  cases showEntries kernel granted device.ring (List.range 10) device.memory with
  | error fault => rfl
  | ok memory => rfl

end

end Aesd.Driver
