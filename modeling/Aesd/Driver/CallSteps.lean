/-
The two calls that take the device's lock, step by step.

What stands between `mutex_lock_interruptible` and `mutex_unlock` is a program
of steps on the device: each allocation, copy, load, store and free is one, and
so is each assignment to the ring, to the device or to `full_user_entry`.  Run
without interruption the programs are `aesdRead` and `aesdWrite`.

Two things are read without the lock: `buff_size` by `aesd_lseek`, and the ring
by the dump that `aesd_release` makes of it.
-/

import Aesd.Driver.CharDevice
import Aesd.Library.Program

namespace Aesd.Driver

open Monitor

abbrev DeviceProgram (Result : Type) := Program Device Fault Result

def loadStep {Answer : Type} (field : Device → Answer) : DeviceProgram Answer :=
  .atomically fun device => .ok (device, field device)

/-! ### Steps on the kernel's memory -/

section

variable {Answer : Type}

def onMemory (action : Memory → Except Fault (Memory × Answer)) : DeviceProgram Answer :=
  .atomically fun device =>
    (action device.memory).map fun reached => ({ device with memory := reached.1 }, reached.2)

theorem alone_onMemory (action : Memory → Except Fault (Memory × Answer)) (device : Device) :
    (onMemory action).alone device =
      (action device.memory).map
        fun reached => ({ device with memory := reached.1 }, reached.2) :=
  Program.alone_atomically _ device

theorem alone_onMemory_ok {action : Memory → Except Fault (Memory × Answer)} {device after : Device}
    {answer : Answer} (ended : (onMemory action).alone device = .ok (after, answer)) :
    action device.memory = .ok (after.memory, answer) ∧
      after = { device with memory := after.memory } := by
  rw [alone_onMemory] at ended
  cases done : action device.memory with
  | error fault =>
      rw [done] at ended
      cases ended
  | ok reached =>
      rw [done] at ended
      cases ended
      exact ⟨rfl, rfl⟩

theorem onMemory_keeps (action : Memory → Except Fault (Memory × Answer)) :
    (onMemory action).Keeps Device.buffSize := by
  apply Program.keeps_atomically
  intro device after answer outcome
  have ended : (onMemory action).alone device = .ok (after, answer) :=
    (Program.alone_atomically _ device).trans outcome
  rw [(alone_onMemory_ok ended).2]

end

def kmallocStep (kernel : Kernel) (granted : Bool) (size : Nat) : DeviceProgram Ptr :=
  onMemory fun memory => .ok (kmalloc kernel granted size memory).swap

def memcpyStep (target : Ptr) (targetOffset : Nat) (source : Ptr) (sourceOffset count : Nat) :
    DeviceProgram Unit :=
  onMemory fun memory =>
    (memcpy memory target targetOffset source sourceOffset count).map fun memory => (memory, ())

def storeStep (target : Ptr) (offset : Nat) (bytes : List Byte) : DeviceProgram Unit :=
  onMemory fun memory => (storeRange memory target offset bytes).map fun memory => (memory, ())

def kfreeStep (pointer : Ptr) : DeviceProgram Unit :=
  onMemory fun memory => (kfree memory pointer).map fun memory => (memory, ())

def copyFromUserStep (target : Ptr) (offset : Nat) (user : List Byte) (notCopied : Nat) :
    DeviceProgram Nat :=
  onMemory fun memory => copyFromUser memory target offset user notCopied

def loadByteStep (pointer : Ptr) (offset : Nat) : DeviceProgram Byte :=
  onMemory fun memory => (loadByte memory pointer offset).map fun byte => (memory, byte)

def loadRangeStep (pointer : Ptr) (offset count : Nat) : DeviceProgram (List Byte) :=
  onMemory fun memory => (loadRange memory pointer offset count).map fun bytes => (memory, bytes)

def aesdBufferPrintSteps (kernel : Kernel) (granted : Bool) (buff : Ptr) (offset size : Nat) :
    DeviceProgram Unit := do
  let tmp ← kmallocStep kernel granted (sizeT (size + 1))
  if tmp = .null then pure ()
  else
    memcpyStep tmp 0 buff offset size
    storeStep tmp size [0]
    kfreeStep tmp

/-! ### The calls -/

structure CallResult where
  fPos : Int
  retval : Int
  delivered : List Byte
deriving DecidableEq

def aesdReadSteps (kernel : Kernel) (env : ReadEnv) (count : Nat) (fPos : Int) :
    DeviceProgram CallResult := do
  let ring ← loadStep fun device => device.ring
  let lookup := aesdCircularBufferFindEntryOffsetForFpos ring (loffToSizeT fPos)
  match lookup.entry with
  | none => pure { fPos := fPos, retval := 0, delivered := [] }
  | some slot =>
      let entry := ring.entry slot
      let readOffsetBufferSize := sizeTSub entry.size lookup.entryOffsetByte
      let readOffsetBuffer ← kmallocStep kernel env.kmallocGranted readOffsetBufferSize
      if readOffsetBuffer = .null then
        pure { fPos := fPos, retval := -efault, delivered := [] }
      else
        memcpyStep readOffsetBuffer 0 entry.buffptr lookup.entryOffsetByte readOffsetBufferSize
        aesdBufferPrintSteps kernel env.foundPrintGranted entry.buffptr 0 entry.size
        aesdBufferPrintSteps kernel env.returnedPrintGranted readOffsetBuffer 0
          readOffsetBufferSize
        let bytes ← loadRangeStep readOffsetBuffer 0 readOffsetBufferSize
        let missing := leftOver env.notCopied readOffsetBufferSize
        let delivered := bytes.take (readOffsetBufferSize - missing)
        if missing ≠ 0 then pure { fPos := fPos, retval := -efault, delivered := delivered }
        else
          pure { fPos := loffT (fPos + readOffsetBufferSize)
                 retval := if count > readOffsetBufferSize then readOffsetBufferSize else count
                 delivered := delivered }

/-- Every store of `aesd_circular_buffer_add_entry` is a step of its own. -/
def aesdCircularBufferAddEntrySteps : DeviceProgram Unit := do
  .modify fun device =>
    { device with ring := device.ring.storeBuffptr device.fullUserEntry.buffptr }
  .modify fun device => { device with ring := device.ring.storeSize device.fullUserEntry.size }
  .modify fun device => { device with ring := device.ring.advanceOut }
  .modify fun device => { device with ring := device.ring.markFull }
  .modify fun device => { device with ring := device.ring.advanceIn }

/-- A seek to the end sees the new size before the pending entry is reset. -/
def addEntrySteps : DeviceProgram Unit := do
  aesdCircularBufferAddEntrySteps
  .modify fun device =>
    { device with buffSize := loffT (device.buffSize + device.fullUserEntry.size) }
  .modify fun device => { device with fullUserEntry := .zero }

def commitSteps (kernel : Kernel) (env : WriteEnv) (entry : BufferEntry) :
    DeviceProgram Unit := do
  let ring ← loadStep fun device => device.ring
  if ring.full then kfreeStep (aesdCircularBufferRefBuff ring) else pure ()
  aesdBufferPrintSteps kernel env.commandPrintGranted entry.buffptr 0 entry.size
  addEntrySteps

def aesdWriteSteps (kernel : Kernel) (env : WriteEnv) (buff : List Byte) (fPos : Int) :
    DeviceProgram CallResult := do
  let pending ← loadStep fun device => device.fullUserEntry
  let count := buff.length
  let tmpUserBuffer ← kmallocStep kernel env.kmallocGranted (sizeT (count + pending.size))
  if tmpUserBuffer = .null then pure { fPos := fPos, retval := -enomem, delivered := [] }
  else
    memcpyStep tmpUserBuffer 0 pending.buffptr 0 pending.size
    let missing ← copyFromUserStep tmpUserBuffer pending.size buff env.notCopied
    if missing ≠ 0 then
      kfreeStep tmpUserBuffer
      pure { fPos := fPos, retval := -efault, delivered := [] }
    else
      aesdBufferPrintSteps kernel env.receivedPrintGranted tmpUserBuffer pending.size count
      let _ ← loadByteStep tmpUserBuffer (sizeTSub (sizeT (pending.size + count)) 1)
      kfreeStep pending.buffptr
      let entry : BufferEntry :=
        { buffptr := tmpUserBuffer, size := sizeT (pending.size + count) }
      .modify fun device => { device with fullUserEntry := entry }
      let last ← loadByteStep entry.buffptr (sizeTSub entry.size 1)
      if last = newline then commitSteps kernel env entry else pure ()
      pure { fPos := loffT (fPos + count), retval := count, delivered := [] }

/-! ### Without interruption -/

section

variable {Answer Result : Type}

private theorem except_map_bind {First Second Third : Type} (first : Except Fault First)
    (next : First → Except Fault Second) (change : Second → Third) :
    (first >>= next).map change = first >>= fun value => (next value).map change := by
  cases first with
  | error fault => rfl
  | ok value => rfl

private theorem alone_onMemory_bind (action : Memory → Except Fault (Memory × Answer))
    (rest : Answer → DeviceProgram Result) (device : Device) :
    (onMemory action >>= rest).alone device =
      action device.memory >>=
        fun reached => (rest reached.2).alone { device with memory := reached.1 } := by
  rw [Program.alone_bind, alone_onMemory]
  cases action device.memory with
  | error fault => rfl
  | ok reached => rfl

private theorem alone_onMemory_unit (action : Memory → Except Fault Memory)
    (rest : Unit → DeviceProgram Result) (device : Device) :
    (onMemory (fun memory => (action memory).map fun memory => (memory, ())) >>= rest).alone
        device =
      action device.memory >>= fun memory => (rest ()).alone { device with memory := memory } := by
  rw [alone_onMemory_bind]
  cases action device.memory with
  | error fault => rfl
  | ok memory => rfl

private theorem alone_onMemory_last (action : Memory → Except Fault Memory) (device : Device) :
    (onMemory fun memory => (action memory).map fun memory => (memory, ())).alone device =
      (action device.memory).map fun memory => ({ device with memory := memory }, ()) := by
  rw [alone_onMemory]
  cases action device.memory with
  | error fault => rfl
  | ok memory => rfl

private theorem alone_onMemory_load (action : Memory → Except Fault Answer)
    (rest : Answer → DeviceProgram Result) (device : Device) :
    (onMemory (fun memory => (action memory).map fun answer => (memory, answer)) >>= rest).alone
        device =
      action device.memory >>= fun answer => (rest answer).alone device := by
  rw [alone_onMemory_bind]
  cases action device.memory with
  | error fault => rfl
  | ok answer => rfl

private theorem alone_kmallocStep_bind (kernel : Kernel) (granted : Bool) (size : Nat)
    (rest : Ptr → DeviceProgram Result) (device : Device) :
    (kmallocStep kernel granted size >>= rest).alone device =
      (rest (kmalloc kernel granted size device.memory).1).alone
        { device with memory := (kmalloc kernel granted size device.memory).2 } :=
  alone_onMemory_bind _ rest device

end

theorem aesdBufferPrintSteps_alone (kernel : Kernel) (granted : Bool) (buff : Ptr)
    (offset size : Nat) (device : Device) :
    (aesdBufferPrintSteps kernel granted buff offset size).alone device =
      (aesdBufferPrint kernel granted device.memory buff offset size).map
        fun memory => ({ device with memory := memory }, ()) := by
  unfold aesdBufferPrintSteps aesdBufferPrint memcpyStep storeStep kfreeStep
  rw [alone_kmallocStep_bind]
  cases kmalloc kernel granted (sizeT (size + 1)) device.memory with
  | mk tmp memory =>
      cases tmp with
      | null => rfl
      | zeroSize =>
          simp only [reduceCtorEq, if_false, alone_onMemory_unit, alone_onMemory_last,
            except_map_bind]
      | block identifier =>
          simp only [reduceCtorEq, if_false, alone_onMemory_unit, alone_onMemory_last,
            except_map_bind]

private theorem alone_print_bind {Result : Type} (kernel : Kernel) (granted : Bool) (buff : Ptr)
    (offset size : Nat) (rest : Unit → DeviceProgram Result) (device : Device) :
    (aesdBufferPrintSteps kernel granted buff offset size >>= rest).alone device =
      aesdBufferPrint kernel granted device.memory buff offset size >>=
        fun memory => (rest ()).alone { device with memory := memory } := by
  rw [Program.alone_bind, aesdBufferPrintSteps_alone]
  cases aesdBufferPrint kernel granted device.memory buff offset size with
  | error fault => rfl
  | ok memory => rfl

theorem alone_loadStep_bind {Answer Result : Type} (field : Device → Answer)
    (rest : Answer → DeviceProgram Result) (device : Device) :
    (loadStep field >>= rest).alone device = (rest (field device)).alone device := rfl

private theorem alone_modify_bind {Result : Type} (change : Device → Device)
    (rest : Unit → DeviceProgram Result) (device : Device) :
    ((Program.modify change : DeviceProgram Unit) >>= rest).alone device =
      (rest ()).alone (change device) := rfl

theorem addEntrySteps_alone (device : Device) :
    addEntrySteps.alone device =
      .ok ({ device with
             ring := aesdCircularBufferAddEntry device.ring device.fullUserEntry
             buffSize := loffT (device.buffSize + device.fullUserEntry.size)
             fullUserEntry := .zero }, ()) := by
  rw [← aesdCircularBufferAddEntry_stores]
  rfl

theorem commitSteps_alone (kernel : Kernel) (env : WriteEnv) (device : Device) :
    (commitSteps kernel env device.fullUserEntry).alone device =
      (commitFullUserEntry kernel env device).map fun after => (after, ()) := by
  unfold commitSteps commitFullUserEntry freeOverwritten kfreeStep
  rw [alone_loadStep_bind, except_map_bind]
  cases device.ring.full with
  | false =>
      simp only [Bool.false_eq_true, if_false, alone_print_bind, ok_bind, except_map_bind,
        addEntrySteps_alone]
      rfl
  | true =>
      simp only [if_true, alone_onMemory_unit, alone_print_bind, except_map_bind,
        addEntrySteps_alone]
      rfl

private theorem alone_commit_bind {Result : Type} (kernel : Kernel) (env : WriteEnv)
    {entry : BufferEntry} (rest : Unit → DeviceProgram Result) (device : Device)
    (same : device.fullUserEntry = entry) :
    (commitSteps kernel env entry >>= rest).alone device =
      commitFullUserEntry kernel env device >>= fun after => (rest ()).alone after := by
  rw [Program.alone_bind, ← same, commitSteps_alone]
  cases commitFullUserEntry kernel env device with
  | error fault => rfl
  | ok after => rfl

theorem aesdWriteSteps_alone (kernel : Kernel) (env : WriteEnv) (buff : List Byte) (fPos : Int)
    (device : Device) (stays : env.lockInterrupted = false) :
    (aesdWriteSteps kernel env buff fPos).alone device =
      (aesdWrite kernel env device buff fPos).map fun result =>
        (result.device,
          { fPos := result.fPos, retval := result.retval, delivered := [] }) := by
  unfold aesdWriteSteps aesdWrite memcpyStep copyFromUserStep kfreeStep loadByteStep
  simp only [stays, Bool.false_eq_true, if_false]
  rw [alone_loadStep_bind, alone_kmallocStep_bind]
  cases kmalloc kernel env.kmallocGranted (sizeT (buff.length + device.fullUserEntry.size))
      device.memory with
  | mk tmpUserBuffer memory =>
      cases tmpUserBuffer with
      | null => rfl
      | zeroSize | block identifier =>
          simp only [reduceCtorEq, if_false]
          rw [alone_onMemory_unit, except_map_bind]
          apply bind_congr
          intro memory
          rw [alone_onMemory_bind, except_map_bind]
          apply bind_congr
          intro copied
          by_cases missing : copied.2 ≠ 0
          · rw [if_pos missing, if_pos missing, alone_onMemory_unit, except_map_bind]
            rfl
          · rw [if_neg missing, if_neg missing]
            simp only [alone_print_bind, alone_onMemory_load, alone_onMemory_unit,
              alone_modify_bind, except_map_bind]
            apply bind_congr
            intro memory
            apply bind_congr
            intro _
            apply bind_congr
            intro memory
            apply bind_congr
            intro last
            unfold commitOnNewline
            by_cases ends : last = newline
            · rw [if_pos ends, if_pos ends]
              exact alone_commit_bind kernel env _ _ rfl
            · rw [if_neg ends, if_neg ends]
              rfl

theorem aesdReadSteps_alone (kernel : Kernel) (env : ReadEnv) (count : Nat) (fPos : Int)
    (device : Device) (stays : env.lockInterrupted = false) :
    (aesdReadSteps kernel env count fPos).alone device =
      (aesdRead kernel env device count fPos).map fun result =>
        (result.device,
          { fPos := result.fPos, retval := result.retval, delivered := result.delivered }) := by
  unfold aesdReadSteps aesdRead memcpyStep loadRangeStep
  simp only [stays, Bool.false_eq_true, if_false]
  rw [alone_loadStep_bind]
  cases (aesdCircularBufferFindEntryOffsetForFpos device.ring (loffToSizeT fPos)).entry with
  | none => rfl
  | some slot =>
      dsimp only
      rw [alone_kmallocStep_bind]
      cases kmalloc kernel env.kmallocGranted _ device.memory with
      | mk readOffsetBuffer memory =>
          cases readOffsetBuffer with
          | null => rfl
          | zeroSize | block identifier =>
              simp only [reduceCtorEq, if_false, alone_onMemory_unit, alone_print_bind,
                alone_onMemory_load, except_map_bind]
              apply bind_congr
              intro memory
              apply bind_congr
              intro memory
              apply bind_congr
              intro memory
              apply bind_congr
              intro bytes
              split <;> rfl

/-! ### A failed call leaves the position -/

theorem aesdReadSteps_failed (kernel : Kernel) (env : ReadEnv) (count : Nat) (fPos : Int) :
    (aesdReadSteps kernel env count fPos).Ensures fun result =>
      result.retval < 0 → result.fPos = fPos := by
  unfold aesdReadSteps
  apply Program.Ensures.bind
  intro ring
  dsimp only
  split
  · exact fun _ => rfl
  · apply Program.Ensures.bind
    intro readOffsetBuffer
    split
    · exact fun _ => rfl
    · apply Program.Ensures.bind
      intro _
      apply Program.Ensures.bind
      intro _
      apply Program.Ensures.bind
      intro _
      apply Program.Ensures.bind
      intro bytes
      split
      · exact fun _ => rfl
      · intro negative
        dsimp only at negative
        split at negative <;> omega

theorem aesdWriteSteps_failed (kernel : Kernel) (env : WriteEnv) (buff : List Byte)
    (fPos : Int) :
    (aesdWriteSteps kernel env buff fPos).Ensures fun result =>
      result.retval < 0 → result.fPos = fPos := by
  have success : Program.Ensures (fun result : CallResult => result.retval < 0 → result.fPos = fPos)
      (pure { fPos := loffT (fPos + buff.length), retval := buff.length, delivered := [] } :
        DeviceProgram CallResult) := by
    intro negative
    dsimp only at negative
    omega
  unfold aesdWriteSteps
  apply Program.Ensures.bind
  intro pending
  dsimp only
  apply Program.Ensures.bind
  intro tmpUserBuffer
  split
  · exact fun _ => rfl
  · apply Program.Ensures.bind
    intro _
    apply Program.Ensures.bind
    intro missing
    split
    · apply Program.Ensures.bind
      exact fun _ _ => rfl
    · apply Program.Ensures.bind
      intro _
      apply Program.Ensures.bind
      intro _
      apply Program.Ensures.bind
      intro _
      apply Program.Ensures.bind
      intro _
      apply Program.Ensures.bind
      intro last
      split
      · apply Program.Ensures.bind
        exact fun _ => success
      · exact success

/-! ### What a seek to the end can see -/

theorem aesdBufferPrintSteps_keeps (kernel : Kernel) (granted : Bool) (buff : Ptr)
    (offset size : Nat) :
    (aesdBufferPrintSteps kernel granted buff offset size).Keeps Device.buffSize := by
  unfold aesdBufferPrintSteps
  apply (onMemory_keeps _).bind
  intro tmp
  split
  · exact trivial
  · apply (onMemory_keeps _).bind
    intro _
    apply (onMemory_keeps _).bind
    intro _
    exact onMemory_keeps _

theorem loadStep_keeps {Answer View : Type} (view : Device → View) (field : Device → Answer) :
    (loadStep field).Keeps view := by
  apply Program.keeps_atomically
  intro device after answer loaded
  cases loaded
  rfl

theorem aesdReadSteps_keeps (kernel : Kernel) (env : ReadEnv) (count : Nat) (fPos : Int) :
    (aesdReadSteps kernel env count fPos).Keeps Device.buffSize := by
  unfold aesdReadSteps
  apply (loadStep_keeps _ _).bind
  intro ring
  dsimp only
  split
  · exact trivial
  · apply (onMemory_keeps _).bind
    intro readOffsetBuffer
    split
    · exact trivial
    · apply (onMemory_keeps _).bind
      intro _
      apply (aesdBufferPrintSteps_keeps ..).bind
      intro _
      apply (aesdBufferPrintSteps_keeps ..).bind
      intro _
      apply (onMemory_keeps _).bind
      intro bytes
      split <;> exact trivial

theorem aesdCircularBufferAddEntrySteps_keeps :
    aesdCircularBufferAddEntrySteps.Keeps Device.buffSize := by
  have store (change : Device → CircularBuffer) :
      (Program.modify fun device : Device => { device with ring := change device } :
        DeviceProgram Unit).Keeps Device.buffSize := Program.keeps_modify fun _ => rfl
  unfold aesdCircularBufferAddEntrySteps
  apply (store _).bind
  intro _
  apply (store _).bind
  intro _
  apply (store _).bind
  intro _
  apply (store _).bind
  intro _
  exact store _

theorem addEntrySteps_changesOnce : addEntrySteps.ChangesOnce Device.buffSize := by
  apply Program.ChangesOnce.bind aesdCircularBufferAddEntrySteps_keeps
  intro _
  apply Program.changesOnce_modify_bind
  exact ⟨fun _ => rfl, fun _ => trivial⟩

theorem commitSteps_changesOnce (kernel : Kernel) (env : WriteEnv) (entry : BufferEntry) :
    (commitSteps kernel env entry).ChangesOnce Device.buffSize := by
  unfold commitSteps
  apply Program.ChangesOnce.bind (loadStep_keeps _ _)
  intro ring
  split
  · apply Program.ChangesOnce.bind (onMemory_keeps _)
    intro _
    apply Program.ChangesOnce.bind (aesdBufferPrintSteps_keeps ..)
    intro _
    exact addEntrySteps_changesOnce
  · apply Program.ChangesOnce.bind (aesdBufferPrintSteps_keeps ..)
    intro _
    exact addEntrySteps_changesOnce

theorem aesdWriteSteps_changesOnce (kernel : Kernel) (env : WriteEnv) (buff : List Byte)
    (fPos : Int) : (aesdWriteSteps kernel env buff fPos).ChangesOnce Device.buffSize := by
  unfold aesdWriteSteps
  apply Program.ChangesOnce.bind (loadStep_keeps _ _)
  intro pending
  dsimp only
  apply Program.ChangesOnce.bind (onMemory_keeps _)
  intro tmpUserBuffer
  split
  · exact trivial
  · apply Program.ChangesOnce.bind (onMemory_keeps _)
    intro _
    apply Program.ChangesOnce.bind (onMemory_keeps _)
    intro missing
    split
    · apply Program.ChangesOnce.bind (onMemory_keeps _)
      intro _
      exact trivial
    · apply Program.ChangesOnce.bind (aesdBufferPrintSteps_keeps ..)
      intro _
      apply Program.ChangesOnce.bind (onMemory_keeps _)
      intro _
      apply Program.ChangesOnce.bind (onMemory_keeps _)
      intro _
      refine Program.ChangesOnce.bind ?_ ?_
      · exact Program.keeps_modify fun _ => rfl
      · intro _
        apply Program.ChangesOnce.bind (onMemory_keeps _)
        intro last
        split
        · exact (commitSteps_changesOnce kernel env _).bind_settles fun _ => trivial
        · exact trivial

end Aesd.Driver
