/-
What the ring looks like while a call is in the middle of its work.

A dump of the ring does not take the lock, so it can see any state a call
passes through.  A read never touches what the ring points to.  A write that
completes a command on a full ring frees the oldest entry's block before it
overwrites the slot, and stores the new pointer before the new size; in between,
the ring holds an entry that cannot be read.  Every other step of the two calls
leaves the ring readable, and all that it points to as it is.
-/

import Aesd.Driver.CallSteps
import Aesd.Driver.ReadEffect
import Aesd.Library.Interference

namespace Aesd.Driver

open BlockHeap
open Monitor
open Segments

/-! ### What a step can touch -/

/-- Old blocks other than the pointer's are as before. -/
def Touches (pointer : Ptr) (before after : Memory) : Prop :=
  before.next ≤ after.next ∧
    ∀ block, block < before.next → pointer.block? ≠ some block →
      after.cell block = before.cell block

theorem Touches.refl (pointer : Ptr) (memory : Memory) : Touches pointer memory memory :=
  ⟨Nat.le_refl _, fun _ _ _ => rfl⟩

theorem kmalloc_touches (kernel : Kernel) (granted : Bool) (size : Nat) (memory : Memory)
    (pointer : Ptr) : Touches pointer memory (kmalloc kernel granted size memory).2 := by
  unfold kmalloc kmallocCell
  split
  · split
    · exact .refl _ _
    · refine ⟨Nat.le_succ _, ?_⟩
      intro block old _
      rw [Heap.allocate_cell, if_neg (by omega)]
  · exact .refl _ _

theorem kmalloc_new {kernel : Kernel} {granted : Bool} {size block : Nat} {memory : Memory}
    (allocated : (kmalloc kernel granted size memory).1.block? = some block) :
    block = memory.next := by
  unfold kmalloc kmallocCell at allocated
  split at allocated
  · split at allocated
    · cases allocated
    · exact (Option.some.inj allocated).symm
  · cases allocated

theorem storeRange_touches {memory after : Memory} {target : Ptr} {offset : Nat}
    {bytes : List Byte} (stored : storeRange memory target offset bytes = .ok after) :
    Touches target memory after := by
  unfold storeRange at stored
  split at stored
  · cases stored
    exact .refl _ _
  · split at stored
    · rename_i identifier
      split at stored
      · split at stored
        · cases stored
          refine ⟨Nat.le_refl _, ?_⟩
          intro block _ other
          rw [Heap.modify_cell, if_neg]
          intro same
          rw [same] at other
          exact other rfl
        · cases stored
      · cases stored
    · cases stored

theorem memcpy_touches {memory after : Memory} {target source : Ptr}
    {targetOffset sourceOffset count : Nat}
    (copied : memcpy memory target targetOffset source sourceOffset count = .ok after) :
    Touches target memory after := by
  unfold memcpy at copied
  cases loaded : loadRange memory source sourceOffset count with
  | error fault =>
      rw [loaded] at copied
      cases copied
  | ok bytes =>
      rw [loaded, ok_bind] at copied
      exact storeRange_touches copied

theorem copyFromUser_touches {memory after : Memory} {target : Ptr} {offset : Nat}
    {user : List Byte} {notCopied missing : Nat}
    (copied : copyFromUser memory target offset user notCopied = .ok (after, missing)) :
    Touches target memory after := by
  unfold copyFromUser at copied
  dsimp only at copied
  cases stored : storeRange memory target offset
      (user.take (user.length - leftOver notCopied user.length) ++
        List.replicate (leftOver notCopied user.length) 0) with
  | error fault =>
      rw [stored] at copied
      cases copied
  | ok written =>
      rw [stored, ok_bind] at copied
      cases copied
      exact storeRange_touches stored

theorem kfree_touches {memory after : Memory} {pointer : Ptr}
    (freed : kfree memory pointer = .ok after) : Touches pointer memory after := by
  unfold kfree at freed
  split at freed
  · cases freed
    exact .refl _ _
  · cases freed
    exact .refl _ _
  · rename_i identifier
    split at freed
    · cases freed
      refine ⟨Nat.le_refl _, ?_⟩
      intro block _ other
      rw [Heap.release_cell, if_neg]
      intro same
      rw [same] at other
      exact other rfl
    · cases freed

theorem kfree_dead {memory after : Memory} {identifier : Nat}
    (freed : kfree memory (.block identifier) = .ok after) : ¬after.Live identifier := by
  by_cases live : memory.Live identifier
  · rw [kfree_live memory identifier live] at freed
    cases freed
    intro still
    exact ((Heap.release_live memory identifier live identifier).mp still).2 rfl
  · simp only [kfree, dif_neg live] at freed
    cases freed

/-! ### Leaving the ring alone -/

/-- The ring is as in the earlier device, and so are the blocks it points to. -/
structure Spares (base device : Device) : Prop where
  ring : device.ring = base.ring
  grows : base.memory.next ≤ device.memory.next
  cells : ∀ block, block ∈ base.ring.blocks →
    device.memory.cell block = base.memory.cell block

theorem Spares.refl (base : Device) : Spares base base :=
  ⟨rfl, Nat.le_refl _, fun _ _ => rfl⟩

/-- A pointer of the call's own. -/
def Device.Apart (base : Device) (pointer : Ptr) : Prop :=
  ∀ block, pointer.block? = some block → block ∉ base.ring.blocks

section

variable {kernel : Kernel} {base device : Device} {pointer : Ptr}
  (known : ∀ block, block ∈ base.ring.blocks → block < base.memory.next)

include known

theorem Spares.touched (spares : Spares base device) (apart : base.Apart pointer)
    {after : Device} (touches : Touches pointer device.memory after.memory)
    (sameRing : after.ring = device.ring) : Spares base after := by
  refine ⟨sameRing.trans spares.ring, Nat.le_trans spares.grows touches.1, ?_⟩
  intro block member
  have old : block < device.memory.next := Nat.lt_of_lt_of_le (known block member) spares.grows
  rw [touches.2 block old fun same => apart block same member, spares.cells block member]

theorem onMemory_spares {Answer : Type} (spares : Spares base device)
    (apart : base.Apart pointer) {action : Memory → Except Fault (Memory × Answer)}
    (touches : ∀ after answer, action device.memory = .ok (after, answer) →
      Touches pointer device.memory after) :
    (onMemory action).Always (Spares base) device := by
  apply Program.always_atomically spares
  intro next answer outcome
  have ended : (onMemory action).alone device = .ok (next, answer) :=
    (Program.alone_atomically _ device).trans outcome
  obtain ⟨acted, same⟩ := alone_onMemory_ok ended
  exact spares.touched known apart (touches _ _ acted) (by rw [same])

private theorem unit_spares (spares : Spares base device) (apart : base.Apart pointer)
    (action : Memory → Except Fault Memory)
    (touches : ∀ after, action device.memory = .ok after →
      Touches pointer device.memory after) :
    (onMemory fun memory => (action memory).map fun memory => (memory, ())).Always
      (Spares base) device := by
  apply onMemory_spares known spares apart
  intro after answer acted
  cases done : action device.memory with
  | error fault =>
      rw [done] at acted
      cases acted
  | ok next =>
      rw [done] at acted
      cases acted
      exact touches after done

theorem memcpyStep_spares (spares : Spares base device) (apart : base.Apart pointer)
    (targetOffset : Nat) (source : Ptr) (sourceOffset count : Nat) :
    (memcpyStep pointer targetOffset source sourceOffset count).Always (Spares base) device :=
  unit_spares known spares apart _ fun _ copied => memcpy_touches copied

theorem storeStep_spares (spares : Spares base device) (apart : base.Apart pointer)
    (offset : Nat) (bytes : List Byte) :
    (storeStep pointer offset bytes).Always (Spares base) device :=
  unit_spares known spares apart _ fun _ stored => storeRange_touches stored

theorem kfreeStep_spares (spares : Spares base device) (apart : base.Apart pointer) :
    (kfreeStep pointer).Always (Spares base) device :=
  unit_spares known spares apart _ fun _ freed => kfree_touches freed

omit known in
theorem kfreeStep_ended {after : Device} {answer : Unit}
    (ended : (kfreeStep pointer).alone device = .ok (after, answer)) :
    kfree device.memory pointer = .ok after.memory ∧
      after = { device with memory := after.memory } := by
  obtain ⟨acted, same⟩ := alone_onMemory_ok ended
  refine ⟨?_, same⟩
  cases freed : kfree device.memory pointer with
  | error fault =>
      rw [freed] at acted
      cases acted
  | ok memory =>
      rw [freed] at acted
      exact congrArg Except.ok (congrArg Prod.fst (Except.ok.inj acted))

theorem copyFromUserStep_spares (spares : Spares base device) (apart : base.Apart pointer)
    (offset : Nat) (user : List Byte) (notCopied : Nat) :
    (copyFromUserStep pointer offset user notCopied).Always (Spares base) device :=
  onMemory_spares known spares apart fun _ _ copied => copyFromUser_touches copied

private theorem load_spares {Answer : Type} (spares : Spares base device)
    (action : Memory → Except Fault Answer) :
    (onMemory fun memory => (action memory).map fun answer => (memory, answer)).Always
      (Spares base) device := by
  have apart : base.Apart .null := by
    intro block none
    cases none
  apply onMemory_spares known spares apart
  intro after answer acted
  cases done : action device.memory with
  | error fault =>
      rw [done] at acted
      cases acted
  | ok loaded =>
      rw [done] at acted
      cases acted
      exact .refl _ _

theorem loadByteStep_spares (spares : Spares base device) (source : Ptr) (offset : Nat) :
    (loadByteStep source offset).Always (Spares base) device :=
  load_spares known spares _

theorem loadRangeStep_spares (spares : Spares base device) (source : Ptr) (offset count : Nat) :
    (loadRangeStep source offset count).Always (Spares base) device :=
  load_spares known spares _

theorem kmallocStep_spares (spares : Spares base device) (granted : Bool) (size : Nat) :
    (kmallocStep kernel granted size).Always (Spares base) device := by
  have apart : base.Apart .null := by
    intro block none
    cases none
  apply onMemory_spares known spares apart
  intro after answer acted
  cases acted
  exact kmalloc_touches kernel granted size device.memory .null

theorem kmallocStep_apart (spares : Spares base device) {granted : Bool} {size : Nat}
    {after : Device} {tmp : Ptr}
    (ended : (kmallocStep kernel granted size).alone device = .ok (after, tmp)) :
    base.Apart tmp := by
  have fromKmalloc : (kmalloc kernel granted size device.memory).1 = tmp :=
    congrArg Prod.snd (Except.ok.inj (alone_onMemory_ok ended).1)
  intro block allocated member
  rw [← fromKmalloc] at allocated
  have new := kmalloc_new allocated
  have old := known block member
  have grows := spares.grows
  omega

theorem aesdBufferPrintSteps_spares (spares : Spares base device) (granted : Bool) (buff : Ptr)
    (offset size : Nat) :
    (aesdBufferPrintSteps kernel granted buff offset size).Always (Spares base) device := by
  unfold aesdBufferPrintSteps
  apply (kmallocStep_spares known spares _ _).bind
  intro allocated tmp ended sparesAllocated
  have apart := kmallocStep_apart known spares ended
  split
  · exact sparesAllocated
  · apply (memcpyStep_spares known sparesAllocated apart _ _ _ _).bind
    intro copied _ _ sparesCopied
    apply (storeStep_spares known sparesCopied apart _ _).bind
    intro stored _ _ sparesStored
    exact kfreeStep_spares known sparesStored apart

omit known in
theorem loadStep_spares {Answer : Type} (spares : Spares base device)
    (field : Device → Answer) : (loadStep field).Always (Spares base) device := by
  apply Program.always_atomically spares
  intro next answer looked
  cases looked
  exact spares

omit known in
theorem storeEntry_spares (spares : Spares base device) (entry : BufferEntry) :
    (Program.modify fun device : Device => { device with fullUserEntry := entry } :
      DeviceProgram Unit).Always (Spares base) device :=
  Program.always_modify spares ⟨spares.ring, spares.grows, spares.cells⟩

theorem aesdReadSteps_spares (spares : Spares base device) (env : ReadEnv) (count : Nat)
    (fPos : Int) : (aesdReadSteps kernel env count fPos).Always (Spares base) device := by
  unfold aesdReadSteps
  apply (loadStep_spares spares _).bind
  intro looked ring _ sparesLooked
  dsimp only
  split
  · exact sparesLooked
  · apply (kmallocStep_spares known sparesLooked _ _).bind
    intro allocated readOffsetBuffer ended sparesAllocated
    have apart := kmallocStep_apart known sparesLooked ended
    split
    · exact sparesAllocated
    · apply (memcpyStep_spares known sparesAllocated apart _ _ _ _).bind
      intro copied _ _ sparesCopied
      apply (aesdBufferPrintSteps_spares known sparesCopied _ _ _ _).bind
      intro found _ _ sparesFound
      apply (aesdBufferPrintSteps_spares known sparesFound _ _ _ _).bind
      intro printed _ _ sparesPrinted
      apply (loadRangeStep_spares known sparesPrinted _ _ _).bind
      intro loaded bytes _ sparesLoaded
      split
      · exact sparesLoaded
      · exact sparesLoaded

end

/-! ### What can be seen without the lock -/

theorem loadRange_congr {before after : Memory} {pointer : Ptr}
    (same : ∀ block, pointer = .block block → after.cell block = before.cell block)
    (offset count : Nat) :
    loadRange after pointer offset count = loadRange before pointer offset count := by
  unfold loadRange
  cases pointer with
  | null => rfl
  | zeroSize => rfl
  | block identifier =>
      simp only [Ptr.block?, Option.bind_some]
      rw [same identifier rfl]

theorem Printable.of_cell {before after : Memory} {entry : BufferEntry}
    (same : ∀ block, entry.buffptr = .block block → after.cell block = before.cell block)
    (printable : Printable before entry) : Printable after entry := by
  rcases printable with null | ⟨small, bytes, loaded⟩
  · exact .inl null
  · exact .inr ⟨small, bytes, (loadRange_congr same 0 entry.size).trans loaded⟩

theorem loadRange_dead {memory : Memory} {identifier : Nat} (dead : ¬memory.Live identifier)
    (offset : Nat) {count : Nat} (positive : 0 < count) :
    loadRange memory (.block identifier) offset count = .error .outOfBounds := by
  have gone : memory.cell identifier = none := by
    unfold Heap.Live at dead
    simpa using dead
  unfold loadRange
  rw [if_neg (by omega)]
  simp only [Ptr.block?, Option.bind_some, gone]

def Device.Readable (device : Device) : Prop :=
  ∀ slot, Printable device.memory (device.ring.entry slot)

/-- The ring is full and its oldest entry cannot be read: its block has been given
back, or its slot has the pointer of the new entry and still the old size. -/
def Device.Overwriting (device : Device) : Prop :=
  device.ring.full = true ∧ ¬Printable device.memory (device.ring.entry device.ring.inOffs)

/-- What a pointer of the ring leads to is as before. -/
structure Steady (before after : Device) : Prop where
  pointer : ∀ slot, (before.ring.entry slot).buffptr ≠ .null →
    (after.ring.entry slot).buffptr = (before.ring.entry slot).buffptr
  cell : ∀ slot block, (before.ring.entry slot).buffptr = .block block →
    after.memory.cell block = before.memory.cell block

theorem Steady.refl (device : Device) : Steady device device :=
  ⟨fun _ _ => rfl, fun _ _ _ => rfl⟩

theorem Steady.trans {first second third : Device} (earlier : Steady first second)
    (later : Steady second third) : Steady first third where
  pointer := by
    intro slot present
    have same := earlier.pointer slot present
    exact (later.pointer slot (by rw [same]; exact present)).trans same
  cell := by
    intro slot block pointer
    have same := earlier.pointer slot (by rw [pointer]; exact Ptr.noConfusion)
    exact (later.cell slot block (same.trans pointer)).trans (earlier.cell slot block pointer)

/-- One step of a call under the lock, as another process can see it. -/
structure Moved (before after : Device) : Prop where
  seen : after.Readable ∨ after.Overwriting
  steady : before.Overwriting ∨ after.Overwriting ∨ Steady before after

theorem Moved.of_same {before after : Device} (entries : after.ring.entry = before.ring.entry)
    (memory : after.memory = before.memory) (readable : before.Readable) : Moved before after where
  seen := by
    refine .inl fun slot => ?_
    rw [entries, memory]
    exact readable slot
  steady := by
    refine .inr (.inr ⟨fun slot _ => ?_, fun _ _ _ => ?_⟩)
    · rw [entries]
    · rw [memory]

/-! ### The new entry, store by store -/

section

variable {device : Device}
  (start : device.Overwriting ∨
    device.ring.full = false ∧ device.ring.entry device.ring.inOffs = .zero)
  (added : ∀ slot, Printable device.memory
    (Function.update device.ring.entry device.ring.inOffs device.fullUserEntry slot))

include start added

/-- A slot that has never been used is given a pointer and has no bytes yet. -/
theorem storeBuffptr_moved :
    Moved device
      { device with ring := device.ring.storeBuffptr device.fullUserEntry.buffptr } where
  seen := by
    have others : ∀ slot, slot ≠ device.ring.inOffs → Printable device.memory
        ((device.ring.storeBuffptr device.fullUserEntry.buffptr).entry slot) := by
      intro slot other
      have printable := added slot
      rw [Function.update_of_ne other] at printable
      simp only [CircularBuffer.storeBuffptr]
      rw [Function.update_of_ne other]
      exact printable
    by_cases printable : Printable device.memory
        ((device.ring.storeBuffptr device.fullUserEntry.buffptr).entry device.ring.inOffs)
    · refine .inl fun slot => ?_
      by_cases same : slot = device.ring.inOffs
      · rw [same]
        exact printable
      · exact others slot same
    · refine .inr ⟨?_, printable⟩
      rcases start with overwriting | ⟨_, unused⟩
      · exact overwriting.1
      · refine absurd (.inr ⟨?_, [], ?_⟩) printable
        · simp only [CircularBuffer.storeBuffptr, Function.update_self, unused]
          decide
        · simp only [CircularBuffer.storeBuffptr, Function.update_self, unused]
          rfl
  steady := by
    rcases start with overwriting | ⟨_, unused⟩
    · exact .inl overwriting
    · refine .inr (.inr ⟨?_, fun _ _ _ => rfl⟩)
      intro slot present
      have other : slot ≠ device.ring.inOffs := by
        intro same
        rw [same, unused] at present
        exact present rfl
      simp only [CircularBuffer.storeBuffptr]
      rw [Function.update_of_ne other]

omit start in
theorem storeSize_moved :
    Moved { device with ring := device.ring.storeBuffptr device.fullUserEntry.buffptr }
      { device with
        ring := (device.ring.storeBuffptr device.fullUserEntry.buffptr).storeSize
          device.fullUserEntry.size } where
  seen := by
    refine .inl fun slot => ?_
    simp only [CircularBuffer.storeBuffptr, CircularBuffer.storeSize, Function.update_self,
      Function.update_idem]
    exact added slot
  steady := by
    refine .inr (.inr ⟨?_, fun _ _ _ => rfl⟩)
    intro slot _
    simp only [CircularBuffer.storeBuffptr, CircularBuffer.storeSize, Function.update_self,
      Function.update_idem]
    by_cases same : slot = device.ring.inOffs
    · rw [same, Function.update_self, Function.update_self]
    · rw [Function.update_of_ne same, Function.update_of_ne same]

theorem addEntrySteps_guarantees : addEntrySteps.Guarantees Moved device := by
  have stored := storeSize_moved added
  have readable : Device.Readable
      { device with
        ring := (device.ring.storeBuffptr device.fullUserEntry.buffptr).storeSize
          device.fullUserEntry.size } := by
    intro slot
    simp only [CircularBuffer.storeBuffptr, CircularBuffer.storeSize, Function.update_self,
      Function.update_idem]
    exact added slot
  -- the stores that follow change neither an entry nor the memory
  exact ⟨storeBuffptr_moved start added, stored, .of_same rfl rfl readable,
    .of_same rfl rfl readable, .of_same rfl rfl readable, .of_same rfl rfl readable,
    .of_same rfl rfl readable, trivial⟩

end

/-! ### The calls -/

def Device.Holds (kernel : Kernel) (device : Device) : Prop :=
  ∃ log, device.Represents kernel log

/-- The ring points to a block that has been given back. -/
def Device.OldestFreed (device : Device) : Prop :=
  device.ring.full = true ∧
    ∃ identifier, (device.ring.entry device.ring.outOffs).buffptr = .block identifier ∧
      identifier < device.memory.next ∧ ¬device.memory.Live identifier

namespace Device.Represents

variable {kernel : Kernel} {base : Device} {log : CommandLog}

theorem sized (rep : base.Represents kernel log) (slot : Fin 10)
    (present : (base.ring.entry slot).buffptr ≠ .null) :
    0 < (base.ring.entry slot).size ∧ (base.ring.entry slot).size + 1 < 2 ^ 64 := by
  have occupied : base.ring.entry slot ≠ .zero := by
    intro zero
    rw [zero] at present
    exact present rfl
  have member := base.ring.entry_mem_entries rep.ring slot occupied
  obtain ⟨command, commandMember, _, _, _, size⟩ := forall₂_mem_left rep.retained member
  have bounds := rep.commandSizes command (List.mem_of_mem_drop commandMember)
  have room := kernel.requestsFit
  have countPositive : 1 < maxRwCount := by decide
  omega

theorem slot_block_mem (rep : base.Represents kernel log) {slot : Fin 10} {block : Nat}
    (pointer : (base.ring.entry slot).buffptr = .block block) : block ∈ base.ring.blocks := by
  have occupied : base.ring.entry slot ≠ .zero := by
    intro zero
    rw [zero] at pointer
    cases pointer
  exact mem_ringBlocks.mpr ⟨_, base.ring.entry_mem_entries rep.ring slot occupied, pointer⟩

theorem known (rep : base.Represents kernel log) (block : Nat)
    (member : block ∈ base.ring.blocks) : block < base.memory.next :=
  Heap.live_lt_next (rep.ringBlocks_live member)

theorem pendingApart (rep : base.Represents kernel log) :
    base.Apart base.fullUserEntry.buffptr := by
  intro block pending member
  apply rep.ring_pending_disjoint member
  unfold pendingBlocks
  rw [pending]
  exact List.mem_singleton_self block

theorem spared_readable (rep : base.Represents kernel log) {device : Device}
    (spares : Spares base device) : device.Readable := by
  intro slot
  rw [spares.ring]
  apply (rep.printable slot).of_cell
  intro block pointer
  exact spares.cells block (rep.slot_block_mem pointer)

theorem spared_moved (rep : base.Represents kernel log) (before after : Device)
    (earlier : Spares base before) (later : Spares base after) : Moved before after where
  seen := .inl (rep.spared_readable later)
  steady := by
    refine .inr (.inr ⟨?_, ?_⟩)
    · intro slot _
      rw [later.ring, earlier.ring]
    · intro slot block pointer
      rw [earlier.ring] at pointer
      have member := rep.slot_block_mem pointer
      rw [later.cells block member, earlier.cells block member]

theorem evicted_block (rep : base.Represents kernel log) (full : base.ring.full = true) :
    ∃ identifier, aesdCircularBufferRefBuff base.ring = .block identifier := by
  obtain ⟨oldest, entries, refBuff⟩ := aesdCircularBufferRefBuff_oldest base.ring rep.ring full
  have member : oldest ∈ base.ring.entries := by
    rw [entries]
    exact List.mem_cons_self
  obtain ⟨_, _, identifier, pointer, _, _⟩ := forall₂_mem_left rep.retained member
  exact ⟨identifier, refBuff.trans pointer⟩

section

variable {middle device : Device} {memory : Memory} (rep : base.Represents kernel log)
  (full : base.ring.full = true) (spared : Spares base middle)
  (freed : kfree middle.memory (aesdCircularBufferRefBuff base.ring) = .ok memory)
  (spares : Spares { middle with memory := memory } device)

include rep full spared freed spares

theorem freed_oldestFreed : device.OldestFreed := by
  have sameRing : device.ring = base.ring := spares.ring.trans spared.ring
  obtain ⟨identifier, evicted⟩ := rep.evicted_block full
  have member : identifier ∈ base.ring.blocks := rep.slot_block_mem evicted
  have old : identifier < middle.memory.next :=
    Nat.lt_of_lt_of_le (rep.known identifier member) spared.grows
  refine ⟨by rw [sameRing]; exact full, identifier, ?_, ?_, ?_⟩
  · rw [sameRing, rep.ring.startWhenFull full]
    exact evicted
  · exact Nat.lt_of_lt_of_le old (Nat.le_trans (kfree_touches freed).1 spares.grows)
  · rw [evicted] at freed
    intro live
    apply kfree_dead freed
    exact (Heap.live_of_cell_eq
      (spares.cells identifier (by rw [spared.ring]; exact member))).mp live

theorem freed_overwriting : device.Overwriting := by
  obtain ⟨stillFull, identifier, pointer, _, dead⟩ :=
    rep.freed_oldestFreed full spared freed spares
  have sameRing : device.ring = base.ring := spares.ring.trans spared.ring
  refine ⟨stillFull, ?_⟩
  rw [sameRing, rep.ring.startWhenFull full] at pointer
  have present : (base.ring.entry base.ring.inOffs).buffptr ≠ .null := by
    rw [pointer]
    exact Ptr.noConfusion
  rw [sameRing]
  rintro (null | ⟨_, bytes, loaded⟩)
  · exact present null
  · rw [pointer, loadRange_dead dead 0 (rep.sized _ present).1] at loaded
    cases loaded

end

theorem aesdReadSteps_guarantees (rep : base.Represents kernel log) (env : ReadEnv) (count : Nat)
    (fPos : Int) : (aesdReadSteps kernel env count fPos).Guarantees Moved base :=
  (aesdReadSteps_spares rep.known (.refl base) env count fPos).guarantees rep.spared_moved

section

variable {device : Device}

private theorem freed_guarantees (rep : base.Represents kernel log) (entry : BufferEntry)
    (granted : Bool) (full : base.ring.full = true) (spares : Spares base device)
    (ends : ∀ final, (kfreeStep (aesdCircularBufferRefBuff base.ring) >>= fun _ =>
      aesdBufferPrintSteps kernel granted entry.buffptr 0 entry.size >>= fun _ =>
        addEntrySteps).alone device = .ok (final, ()) → final.Readable) :
    (kfreeStep (aesdCircularBufferRefBuff base.ring) >>= fun _ =>
      aesdBufferPrintSteps kernel granted entry.buffptr 0 entry.size >>= fun _ =>
        addEntrySteps).Guarantees Moved device := by
  apply Program.guarantees_atomically_bind (rep.spared_moved device device spares spares)
  intro after answer outcome
  have freeEnded : (kfreeStep (aesdCircularBufferRefBuff base.ring)).alone device =
      .ok (after, answer) := (Program.alone_atomically _ device).trans outcome
  obtain ⟨freed, same⟩ := kfreeStep_ended freeEnded
  have overwriting : ∀ reached, Spares after reached → reached.Overwriting := by
    intro reached sparesAfter
    rw [same] at sparesAfter
    exact rep.freed_overwriting full spares freed sparesAfter
  have known : ∀ block, block ∈ after.ring.blocks → block < after.memory.next := by
    intro block member
    rw [same] at member
    have old := rep.known block (by rw [← spares.ring]; exact member)
    have grows := (kfree_touches freed).1
    have before := spares.grows
    omega
  refine ⟨⟨.inr (overwriting after (.refl after)), .inr (.inl (overwriting after (.refl after)))⟩,
    ?_⟩
  -- until the first store of the new entry the slot keeps the freed block
  apply (aesdBufferPrintSteps_spares known (.refl after) _ _ _ _).guarantees_bind
    fun _ _ earlier later => ⟨.inr (overwriting _ later), .inl (overwriting _ earlier)⟩
  intro printed _ printEnded sparesPrinted
  apply addEntrySteps_guarantees (.inl (overwriting printed sparesPrinted))
  refine ends { printed with
    ring := aesdCircularBufferAddEntry printed.ring printed.fullUserEntry
    buffSize := loffT (printed.buffSize + printed.fullUserEntry.size)
    fullUserEntry := .zero } ?_
  rw [Program.alone_bind_of_ok freeEnded, Program.alone_bind_of_ok printEnded,
    addEntrySteps_alone]

theorem commitSteps_guarantees (rep : base.Represents kernel log) (env : WriteEnv)
    (entry : BufferEntry) (spares : Spares base device)
    (ends : ∀ final, (commitSteps kernel env entry).alone device = .ok (final, ()) →
      final.Readable) : (commitSteps kernel env entry).Guarantees Moved device := by
  unfold commitSteps at ends ⊢
  apply (loadStep_spares spares _).guarantees_bind rep.spared_moved
  intro looked ring lookEnded sparesLooked
  rw [Program.alone_bind_of_ok lookEnded] at ends
  have sameRing : ring = base.ring := by
    cases lookEnded
    exact spares.ring
  rw [sameRing] at ends ⊢
  by_cases full : base.ring.full = true
  · rw [if_pos full] at ends ⊢
    exact freed_guarantees rep entry _ full sparesLooked ends
  · rw [if_neg full] at ends ⊢
    apply (aesdBufferPrintSteps_spares rep.known sparesLooked _ _ _ _).guarantees_bind
      rep.spared_moved
    intro printed _ printEnded sparesPrinted
    have partly : base.ring.full = false := by simpa using full
    apply addEntrySteps_guarantees
    · rw [sparesPrinted.ring]
      exact .inr ⟨partly, rep.ring.unwritten partly _ (Nat.le_refl _)⟩
    · refine ends { printed with
        ring := aesdCircularBufferAddEntry printed.ring printed.fullUserEntry
        buffSize := loffT (printed.buffSize + printed.fullUserEntry.size)
        fullUserEntry := .zero } ?_
      exact (Program.alone_bind_of_ok printEnded).trans (addEntrySteps_alone printed)

end

theorem aesdWriteSteps_holds (rep : base.Represents kernel log) (env : WriteEnv)
    (buff : List Byte) (fits : buff.length ≤ maxRwCount) (fPos : Int) {final : Device}
    {result : CallResult}
    (ended : (aesdWriteSteps kernel env buff fPos).alone base = .ok (final, result)) :
    final.Holds kernel := by
  -- the program begins when the lock has been taken
  have alone := aesdWriteSteps_alone kernel { env with lockInterrupted := false } buff fPos base rfl
  rw [show aesdWriteSteps kernel { env with lockInterrupted := false } buff fPos =
    aesdWriteSteps kernel env buff fPos from rfl, ended] at alone
  by_cases accepts : WriteEnv.Accepts { env with lockInterrupted := false } kernel base buff
  · by_cases something : log.pending ++ buff = []
    · obtain ⟨nothing, empty⟩ := List.append_eq_nil_iff.mp something
      subst empty
      rw [rep.aesdWrite_nothing _ fPos nothing accepts] at alone
      cases alone
    · obtain ⟨written, outcome, writtenRep⟩ :=
        rep.aesdWrite_accepted _ buff fPos fits something accepts
      rw [outcome] at alone
      cases alone
      exact ⟨_, writtenRep⟩
  · obtain ⟨memory, retval, outcome, _, changes⟩ :=
      rep.aesdWrite_refused _ buff fPos fits accepts
    rw [outcome] at alone
    cases alone
    exact ⟨log, rep.of_changes changes⟩

theorem aesdReadSteps_holds (rep : base.Represents kernel log) (env : ReadEnv) (count : Nat)
    (fPos : Int) {final : Device} {result : CallResult}
    (ended : (aesdReadSteps kernel env count fPos).alone base = .ok (final, result)) :
    final.Holds kernel := by
  have alone := aesdReadSteps_alone kernel { env with lockInterrupted := false } count fPos base rfl
  rw [show aesdReadSteps kernel { env with lockInterrupted := false } count fPos =
    aesdReadSteps kernel env count fPos from rfl, ended] at alone
  cases read : aesdRead kernel { env with lockInterrupted := false } base count fPos with
  | error fault =>
      rw [read] at alone
      cases alone
  | ok outcome =>
      rw [read] at alone
      cases alone
      exact ⟨log, rep.aesdRead_represents read⟩

/-- Up to the newline test a write spares the ring.  Whatever can be passed over such
steps is true of the write if it is true where it is refused, where it has stored the
bytes, and from the commit on. -/
theorem aesdWriteSteps_induction (rep : base.Represents kernel log) (env : WriteEnv)
    (buff : List Byte) (fPos : Int) {motive : DeviceProgram CallResult → Device → Prop}
    (passes : ∀ {Answer : Type} {first : DeviceProgram Answer}
      {rest : Answer → DeviceProgram CallResult} {device : Device},
      first.Always (Spares base) device →
      (∀ last answer, first.alone device = .ok (last, answer) → Spares base last →
        motive (rest answer) last) → motive (first >>= rest) device)
    (refused : ∀ device result, result.retval < 0 → motive (pure result) device)
    (stored : ∀ device result, device.fullUserEntry.buffptr ≠ .null →
      motive (pure result) device)
    (committed : ∀ device entry result, Spares base device →
      motive (commitSteps kernel env entry >>= fun _ => pure result) device) :
    motive (aesdWriteSteps kernel env buff fPos) base := by
  have known := rep.known
  unfold aesdWriteSteps
  refine passes (loadStep_spares (.refl base) _) ?_
  intro looked pending lookEnded sparesLooked
  have samePending : pending = base.fullUserEntry := by
    cases lookEnded
    rfl
  rw [samePending]
  dsimp only
  refine passes (kmallocStep_spares known sparesLooked _ _) ?_
  intro allocated tmpUserBuffer allocEnded sparesAllocated
  have apart := kmallocStep_apart known sparesLooked allocEnded
  by_cases null : tmpUserBuffer = .null
  · rw [if_pos null]
    exact refused _ _ (show -enomem < 0 by decide)
  · rw [if_neg null]
    refine passes (memcpyStep_spares known sparesAllocated apart _ _ _ _) ?_
    intro copied _ _ sparesCopied
    refine passes (copyFromUserStep_spares known sparesCopied apart _ _ _) ?_
    intro received missing _ sparesReceived
    by_cases incomplete : missing ≠ 0
    · rw [if_pos incomplete]
      refine passes (kfreeStep_spares known sparesReceived apart) ?_
      intro freed _ _ _
      exact refused _ _ (show -efault < 0 by decide)
    · rw [if_neg incomplete]
      refine passes (aesdBufferPrintSteps_spares known sparesReceived _ _ _ _) ?_
      intro printed _ _ sparesPrinted
      refine passes (loadByteStep_spares known sparesPrinted _ _) ?_
      intro shown _ _ sparesShown
      refine passes (kfreeStep_spares known sparesShown rep.pendingApart) ?_
      intro freed _ _ sparesFreed
      refine passes (storeEntry_spares sparesFreed _) ?_
      intro entered _ enterEnded sparesEntered
      refine passes (loadByteStep_spares known sparesEntered _ _) ?_
      intro loaded last loadEnded sparesLoaded
      by_cases newlineLast : last = newline
      · rw [if_pos newlineLast]
        exact committed _ _ _ sparesLoaded
      · rw [if_neg newlineLast]
        apply stored
        rw [(alone_onMemory_ok loadEnded).2]
        cases enterEnded
        exact null

theorem aesdWriteSteps_guarantees (rep : base.Represents kernel log) (env : WriteEnv)
    (buff : List Byte) (fits : buff.length ≤ maxRwCount) (fPos : Int) :
    (aesdWriteSteps kernel env buff fPos).Guarantees Moved base := by
  have ends : ∀ final result,
      (aesdWriteSteps kernel env buff fPos).alone base = .ok (final, result) →
        final.Readable := by
    intro final result ended
    obtain ⟨later, finalRep⟩ := rep.aesdWriteSteps_holds env buff fits fPos ended
    exact finalRep.printable
  revert ends
  apply rep.aesdWriteSteps_induction env buff fPos
    (motive := fun program device =>
      (∀ final result, program.alone device = .ok (final, result) → final.Readable) →
        program.Guarantees Moved device)
  · intro Answer first rest device spares later ends
    apply spares.guarantees_bind rep.spared_moved
    intro last answer ended sparesLast
    apply later last answer ended sparesLast
    intro final result restEnded
    exact ends final result ((Program.alone_bind_of_ok ended).trans restEnded)
  · intro device result _ _
    exact trivial
  · intro device result _ _
    exact trivial
  · intro device entry result spares ends
    apply Program.Guarantees.bind
    · apply rep.commitSteps_guarantees env entry spares
      intro final ended
      exact ends final result (Program.alone_bind_of_ok ended)
    · intro _ _ _
      exact trivial

end Device.Represents

end Aesd.Driver
