/-
The file operations of the character driver (`main.c`).

`full_user_entry` is a static variable of `aesd_write`, so it belongs to the
device and is shared by every open file.  Each operation takes the outcomes of
the kernel calls it makes as an input: whether the lock was interrupted, which
allocations were granted, how much of a user copy failed.

The debug printing is part of the model: it allocates, reads and frees.
-/

import Aesd.Driver.CircularBuffer

namespace Aesd.Driver

def newline : Byte := 10

structure Device where
  memory : Memory
  pbuffer : Ptr
  ring : CircularBuffer
  buffSize : Int
  fullUserEntry : BufferEntry

/-- `sizeof(struct aesd_circular_buffer)`. -/
def sizeofCircularBuffer : Nat := 168

/-! ### Debug printing -/

/-- Print the `size` bytes at `buff + offset` through a terminated copy. -/
def aesdBufferPrint (kernel : Kernel) (granted : Bool) (memory : Memory)
    (buff : Ptr) (offset size : Nat) : Except Fault Memory :=
  match kmalloc kernel granted (sizeT (size + 1)) memory with
  | (.null, memory) => .ok memory
  | (tmp, memory) => do
      let memory ← memcpy memory tmp 0 buff offset size
      let memory ← storeRange memory tmp size [0]
      kfree memory tmp

def showEntry (kernel : Kernel) (granted : Bool) (entry : BufferEntry) (memory : Memory) :
    Except Fault Memory :=
  if entry.buffptr ≠ .null then
    aesdBufferPrint kernel granted memory entry.buffptr 0 entry.size
  else .ok memory

def showEntries (kernel : Kernel) (granted : Nat → Bool) (ring : CircularBuffer) :
    List Nat → Memory → Except Fault Memory
  | [], memory => .ok memory
  | index :: rest, memory => do
      let entry := ring.entry (Fin.ofNat 10 (ring.outOffs.val + index))
      let memory ← showEntry kernel (granted index) entry memory
      showEntries kernel granted ring rest memory

theorem showEntries_cons (kernel : Kernel) (granted : Nat → Bool) (ring : CircularBuffer)
    (index : Nat) (rest : List Nat) (memory : Memory) :
    showEntries kernel granted ring (index :: rest) memory =
      (showEntry kernel (granted index)
        (ring.entry (Fin.ofNat 10 (ring.outOffs.val + index))) memory).bind
        (showEntries kernel granted ring rest) := rfl

def aesdShowCircularBuffer (kernel : Kernel) (granted : Nat → Bool) (ring : CircularBuffer)
    (memory : Memory) : Except Fault Memory :=
  showEntries kernel granted ring (List.range 10) memory

/-- Closing a file prints the ring and changes nothing else. -/
def aesdRelease (kernel : Kernel) (granted : Nat → Bool) (device : Device) :
    Except Fault Device := do
  let memory ← aesdShowCircularBuffer kernel granted device.ring device.memory
  pure { device with memory := memory }

/-! ### Reading -/

structure ReadEnv where
  lockInterrupted : Bool
  kmallocGranted : Bool
  foundPrintGranted : Bool
  returnedPrintGranted : Bool
  notCopied : Nat

/-- `delivered` is what `copy_to_user` stored at the start of the user buffer. -/
structure ReadResult where
  device : Device
  fPos : Int
  retval : Int
  delivered : List Byte

def aesdRead (kernel : Kernel) (env : ReadEnv) (device : Device) (count : Nat) (fPos : Int) :
    Except Fault ReadResult :=
  if env.lockInterrupted then
    .ok { device := device, fPos := fPos, retval := -erestartsys, delivered := [] }
  else
    let lookup := aesdCircularBufferFindEntryOffsetForFpos device.ring (loffToSizeT fPos)
    match lookup.entry with
    | none => .ok { device := device, fPos := fPos, retval := 0, delivered := [] }
    | some slot =>
        let entry := device.ring.entry slot
        let readOffsetBufferSize := sizeTSub entry.size lookup.entryOffsetByte
        match kmalloc kernel env.kmallocGranted readOffsetBufferSize device.memory with
        | (.null, memory) =>
            .ok { device := { device with memory := memory }, fPos := fPos,
                  retval := -efault, delivered := [] }
        | (readOffsetBuffer, memory) => do
            let memory ← memcpy memory readOffsetBuffer 0
              entry.buffptr lookup.entryOffsetByte readOffsetBufferSize
            let memory ← aesdBufferPrint kernel env.foundPrintGranted memory
              entry.buffptr 0 entry.size
            let memory ← aesdBufferPrint kernel env.returnedPrintGranted memory
              readOffsetBuffer 0 readOffsetBufferSize
            let bytes ← loadRange memory readOffsetBuffer 0 readOffsetBufferSize
            let missing := leftOver env.notCopied readOffsetBufferSize
            let delivered := bytes.take (readOffsetBufferSize - missing)
            -- the copy is left to itself on both paths: no `kfree` follows
            if missing ≠ 0 then
              pure { device := { device with memory := memory }, fPos := fPos,
                     retval := -efault, delivered := delivered }
            else
              pure { device := { device with memory := memory },
                     fPos := loffT (fPos + readOffsetBufferSize),
                     retval :=
                       if count > readOffsetBufferSize then readOffsetBufferSize else count,
                     delivered := delivered }

/-! ### Writing -/

structure WriteEnv where
  lockInterrupted : Bool
  kmallocGranted : Bool
  notCopied : Nat
  receivedPrintGranted : Bool
  commandPrintGranted : Bool

structure WriteResult where
  device : Device
  fPos : Int
  retval : Int

/-- On a full ring, the block of the slot about to be overwritten is freed. -/
def freeOverwritten (ring : CircularBuffer) (memory : Memory) : Except Fault Memory :=
  if ring.full then kfree memory (aesdCircularBufferRefBuff ring) else .ok memory

/-- The body of the newline test: the pending entry becomes the youngest entry
of the ring. -/
def commitFullUserEntry (kernel : Kernel) (env : WriteEnv) (device : Device) :
    Except Fault Device := do
  let memory ← freeOverwritten device.ring device.memory
  let memory ← aesdBufferPrint kernel env.commandPrintGranted memory
    device.fullUserEntry.buffptr 0 device.fullUserEntry.size
  pure
    { device with
      memory := memory
      ring := aesdCircularBufferAddEntry device.ring device.fullUserEntry
      buffSize := loffT (device.buffSize + device.fullUserEntry.size)
      fullUserEntry := .zero }

def commitOnNewline (kernel : Kernel) (env : WriteEnv) (last : Byte) (device : Device) :
    Except Fault Device :=
  if last = newline then commitFullUserEntry kernel env device else .ok device

def aesdWrite (kernel : Kernel) (env : WriteEnv) (device : Device) (buff : List Byte)
    (fPos : Int) : Except Fault WriteResult :=
  if env.lockInterrupted then
    .ok { device := device, fPos := fPos, retval := -erestartsys }
  else
    let pending := device.fullUserEntry
    let count := buff.length
    match kmalloc kernel env.kmallocGranted (sizeT (count + pending.size)) device.memory with
    | (.null, memory) =>
        .ok { device := { device with memory := memory }, fPos := fPos, retval := -enomem }
    | (tmpUserBuffer, memory) => do
        let memory ← memcpy memory tmpUserBuffer 0 pending.buffptr 0 pending.size
        let (memory, missing) ←
          copyFromUser memory tmpUserBuffer pending.size buff env.notCopied
        if missing ≠ 0 then
          let memory ← kfree memory tmpUserBuffer
          pure { device := { device with memory := memory }, fPos := fPos, retval := -efault }
        else
          let memory ← aesdBufferPrint kernel env.receivedPrintGranted memory
            tmpUserBuffer pending.size count
          -- the debug message prints the last character received
          let _ ← loadByte memory tmpUserBuffer (sizeTSub (sizeT (pending.size + count)) 1)
          let memory ← kfree memory pending.buffptr
          let entry : BufferEntry :=
            { buffptr := tmpUserBuffer, size := sizeT (pending.size + count) }
          let device := { device with memory := memory, fullUserEntry := entry }
          let last ← loadByte memory entry.buffptr (sizeTSub entry.size 1)
          let device ← commitOnNewline kernel env last device
          pure { device := device, fPos := loffT (fPos + count), retval := count }

/-! ### Seeking -/

/-- The new position and the returned value. -/
def aesdLseek (device : Device) (fPos off : Int) (whence : Int) : Int × Int :=
  let newFpos? : Option Int :=
    if whence = 0 then some off
    else if whence = 1 then some (loffT (fPos + off))
    else if whence = 2 then some device.buffSize
    else none
  match newFpos? with
  | none => (fPos, -einval)
  | some newFpos => if 0 > newFpos then (fPos, -einval) else (newFpos, newFpos)

/-! ### Loading and unloading the module -/

structure InitEnv where
  allocChrdevRegion : Int
  kmallocGranted : Bool
  cdevAdd : Int

structure InitResult where
  device : Device
  retval : Int

def Device.unloaded (memory : Memory) : Device :=
  { memory := memory
    pbuffer := .null
    ring := aesdCircularBufferInit
    buffSize := 0
    fullUserEntry := .zero }

def aesdInitModule (kernel : Kernel) (env : InitEnv) : InitResult :=
  if env.allocChrdevRegion < 0 then
    { device := .unloaded .empty, retval := env.allocChrdevRegion }
  else
    match kmallocCell kernel env.kmallocGranted sizeofCircularBuffer .circularBuffer .empty with
    | (.null, memory) => { device := .unloaded memory, retval := -enomem }
    | (pbuffer, memory) =>
        { device := { Device.unloaded memory with pbuffer := pbuffer }
          retval := env.cdevAdd }

def freeEntry (entry : BufferEntry) (memory : Memory) : Except Fault Memory :=
  if entry.buffptr ≠ .null then kfree memory entry.buffptr else .ok memory

def freeEntries (ring : CircularBuffer) : List (Fin 10) → Memory → Except Fault Memory
  | [], memory => .ok memory
  | slot :: rest, memory => do
      let memory ← freeEntry (ring.entry slot) memory
      freeEntries ring rest memory

def aesdCleanupModule (device : Device) : Except Fault Memory := do
  let memory ← freeEntries device.ring (List.finRange 10) device.memory
  kfree memory device.pbuffer

end Aesd.Driver
