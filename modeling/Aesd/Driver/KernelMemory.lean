/-
The kernel services the character driver stands on: machine integers, error
numbers, and memory obtained from `kmalloc`.

Pointers carry a block identifier, so that a load, a store or a `kfree` can be
checked against the blocks that are live at that moment.  An access outside a
live block and a `kfree` of a block that is not live end in a `Fault`; nothing
below ever recovers from one.

`kmalloc` itself is not part of the driver.  Whether a request is granted is
an input of every call; what is relied on is that a request above
`kmallocMaxSize` is refused, that this limit is far below the size of the
address space, and that a granted block is as large as asked for and holds
arbitrary bytes.
-/

import Aesd.Library.BlockHeap
import Mathlib

namespace Aesd.Driver

open BlockHeap

abbrev Byte := UInt8

/-! ### Machine integers -/

/-- `size_t`, 64 bits. -/
def sizeT (value : Nat) : Nat := value % 2 ^ 64

/-- `left - right` on `size_t` operands. -/
def sizeTSub (left right : Nat) : Nat := (left + 2 ^ 64 - right) % 2 ^ 64

/-- `unsigned int`, 32 bits. -/
def unsignedInt (value : Nat) : Nat := value % 2 ^ 32

/-- `loff_t`, 64 bits and signed; the kernel is built so that it wraps. -/
def loffT (value : Int) : Int := Int.bmod value (2 ^ 64)

/-- The conversion from `loff_t` to `size_t`. -/
def loffToSizeT (value : Int) : Nat := (value % 2 ^ 64).toNat

theorem sizeT_of_lt {value : Nat} (small : value < 2 ^ 64) : sizeT value = value :=
  Nat.mod_eq_of_lt small

theorem sizeTSub_of_le {left right : Nat} (ordered : right ≤ left) (small : left < 2 ^ 64) :
    sizeTSub left right = left - right := by
  unfold sizeTSub
  omega

theorem unsignedInt_of_lt {value : Nat} (small : value < 2 ^ 32) :
    unsignedInt value = value :=
  Nat.mod_eq_of_lt small

theorem loffT_of_range {value : Int} (lower : -2 ^ 63 ≤ value) (upper : value < 2 ^ 63) :
    loffT value = value := by
  unfold loffT
  apply Int.bmod_eq_of_le <;> omega

theorem loffT_range (value : Int) : -2 ^ 63 ≤ loffT value ∧ loffT value < 2 ^ 63 := by
  unfold loffT
  have lower := Int.le_bmod (x := value) (m := 2 ^ 64) (by decide)
  have upper := Int.bmod_lt (x := value) (m := 2 ^ 64) (by decide)
  omega

theorem loffT_eq_iff {value target : Int} (lower : -2 ^ 63 ≤ target) (upper : target < 2 ^ 63) :
    loffT value = target ↔ 2 ^ 64 ∣ value - target := by
  unfold loffT
  rw [Int.bmod_def]
  split
  · omega
  · omega

theorem loffToSizeT_of_nonneg {value : Int} (lower : 0 ≤ value) (upper : value < 2 ^ 63) :
    loffToSizeT value = value.toNat := by
  unfold loffToSizeT
  congr 1
  exact Int.emod_eq_of_lt lower (by omega)

/-! ### Error numbers and limits -/

def ebadf : Int := 9
def enomem : Int := 12
def efault : Int := 14
def einval : Int := 22
def erestartsys : Int := 512

/-- `MAX_RW_COUNT`: the system call layer passes no larger count down. -/
def maxRwCount : Nat := 0x7ffff000

/-- The largest `loff_t`. -/
def llongMax : Int := 2 ^ 63 - 1

/-! ### Blocks and pointers -/

inductive Ptr where
  | null
  | zeroSize
  | block (identifier : Nat)
  deriving DecidableEq, Repr

def Ptr.block? : Ptr → Option Nat
  | .block identifier => some identifier
  | _ => none

/-- What a block was allocated for.  The fields of the ring structure itself
are kept in the device record; its block only has to be accounted for. -/
inductive Cell where
  | bytes (contents : List Byte)
  | circularBuffer
  deriving DecidableEq, Repr

abbrev Memory := Heap Cell

inductive Fault where
  | outOfBounds
  | badFree
  deriving DecidableEq, Repr

structure Kernel where
  kmallocMaxSize : Nat
  uninitialised : Nat → Byte
  addressable : kmallocMaxSize < 2 ^ 62

theorem Kernel.requestsFit (kernel : Kernel) :
    kernel.kmallocMaxSize + maxRwCount < 2 ^ 64 := by
  have small : maxRwCount < 2 ^ 62 := by decide
  have bounded := kernel.addressable
  omega

def Kernel.freshBytes (kernel : Kernel) (size : Nat) : List Byte :=
  (List.range size).map kernel.uninitialised

@[simp] theorem Kernel.freshBytes_length (kernel : Kernel) (size : Nat) :
    (kernel.freshBytes size).length = size := by
  simp [freshBytes]

/-- Size zero is granted without a block: the result is `ZERO_SIZE_PTR`. -/
def kmallocCell (kernel : Kernel) (granted : Bool) (size : Nat) (contents : Cell)
    (memory : Memory) : Ptr × Memory :=
  if granted = true ∧ size ≤ kernel.kmallocMaxSize then
    if size = 0 then (.zeroSize, memory)
    else (.block memory.next, memory.allocate contents)
  else (.null, memory)

def kmalloc (kernel : Kernel) (granted : Bool) (size : Nat) (memory : Memory) :
    Ptr × Memory :=
  kmallocCell kernel granted size (.bytes (kernel.freshBytes size)) memory

theorem kmalloc_granted (kernel : Kernel) {granted : Bool} {size : Nat} (memory : Memory)
    (allowed : granted = true ∧ size ≤ kernel.kmallocMaxSize) (positive : 0 < size) :
    kmalloc kernel granted size memory =
      (.block memory.next, memory.allocate (.bytes (kernel.freshBytes size))) := by
  unfold kmalloc kmallocCell
  rw [if_pos allowed, if_neg (by omega)]

theorem kmalloc_refused (kernel : Kernel) {granted : Bool} {size : Nat} (memory : Memory)
    (refused : ¬(granted = true ∧ size ≤ kernel.kmallocMaxSize)) :
    kmalloc kernel granted size memory = (.null, memory) := by
  unfold kmalloc kmallocCell
  rw [if_neg refused]

def kfree (memory : Memory) : Ptr → Except Fault Memory
  | .null => .ok memory
  | .zeroSize => .ok memory
  | .block identifier =>
      if live : memory.Live identifier then .ok (memory.release identifier live)
      else .error .badFree

theorem kfree_live (memory : Memory) (identifier : Nat) (live : memory.Live identifier) :
    kfree memory (.block identifier) = .ok (memory.release identifier live) := by
  simp only [kfree, dif_pos live]

theorem kfree_frees (memory : Memory) (pointer : Ptr)
    (live : ∀ identifier, pointer.block? = some identifier → memory.Live identifier) :
    ∃ after, kfree memory pointer = .ok after ∧
      ∀ block, after.Live block ↔ memory.Live block ∧ pointer.block? ≠ some block := by
  cases pointer with
  | null => exact ⟨memory, rfl, by simp [Ptr.block?]⟩
  | zeroSize => exact ⟨memory, rfl, by simp [Ptr.block?]⟩
  | block identifier =>
      refine ⟨_, kfree_live memory identifier (live identifier rfl), ?_⟩
      intro block
      rw [Heap.release_live, Ptr.block?, ne_comm, ne_eq, ne_eq, Option.some.injEq]

/-! ### Loads and stores -/

/-- A range of no bytes may be read through any pointer. -/
def loadRange (memory : Memory) (pointer : Ptr) (offset count : Nat) :
    Except Fault (List Byte) :=
  if count = 0 then .ok []
  else
    match pointer.block?.bind memory.cell with
    | some (.bytes contents) =>
        if offset + count ≤ contents.length then
          .ok ((contents.drop offset).take count)
        else .error .outOfBounds
    | _ => .error .outOfBounds

def loadByte (memory : Memory) (pointer : Ptr) (offset : Nat) : Except Fault Byte :=
  match pointer.block?.bind memory.cell with
  | some (.bytes contents) =>
      match contents[offset]? with
      | some byte => .ok byte
      | none => .error .outOfBounds
  | _ => .error .outOfBounds

/-- Replace the bytes from `offset` on. -/
def overwrite (offset : Nat) (bytes : List Byte) : Cell → Cell
  | .bytes contents =>
      .bytes (contents.take offset ++ bytes ++ contents.drop (offset + bytes.length))
  | .circularBuffer => .circularBuffer

def storeRange (memory : Memory) (pointer : Ptr) (offset : Nat) (bytes : List Byte) :
    Except Fault Memory :=
  if bytes = [] then .ok memory
  else
    match pointer with
    | .block identifier =>
        match memory.cell identifier with
        | some (.bytes contents) =>
            if offset + bytes.length ≤ contents.length then
              .ok (memory.modify identifier (overwrite offset bytes))
            else .error .outOfBounds
        | _ => .error .outOfBounds
    | _ => .error .outOfBounds

def memcpy (memory : Memory) (target : Ptr) (targetOffset : Nat)
    (source : Ptr) (sourceOffset count : Nat) : Except Fault Memory := do
  let bytes ← loadRange memory source sourceOffset count
  storeRange memory target targetOffset bytes

/-- The number of bytes a user copy of `count` bytes fails to transfer. -/
def leftOver (notCopied count : Nat) : Nat := min notCopied count

/-- `copy_from_user` zero-fills what it could not transfer and returns how much
that was. -/
def copyFromUser (memory : Memory) (target : Ptr) (offset : Nat) (user : List Byte)
    (notCopied : Nat) : Except Fault (Memory × Nat) := do
  let missing := leftOver notCopied user.length
  let memory ← storeRange memory target offset
    (user.take (user.length - missing) ++ List.replicate missing 0)
  pure (memory, missing)

/-! ### What loads and stores do

The driver only ever stores into the block it has just allocated, so stores are
described relative to the memory before that allocation. -/

@[simp] theorem ok_bind {α β : Type} (value : α) (next : α → Except Fault β) :
    (Except.ok value >>= next) = next value := rfl

theorem loadRange_zero (memory : Memory) (pointer : Ptr) (offset : Nat) :
    loadRange memory pointer offset 0 = .ok [] := rfl

theorem loadRange_block {memory : Memory} {identifier offset count : Nat}
    {contents : List Byte} (found : memory.cell identifier = some (.bytes contents))
    (inside : offset + count ≤ contents.length) :
    loadRange memory (.block identifier) offset count =
      .ok ((contents.drop offset).take count) := by
  unfold loadRange
  by_cases empty : count = 0
  · simp [empty]
  · simp [empty, Ptr.block?, found, inside]

theorem loadByte_block {memory : Memory} {identifier offset : Nat} {contents : List Byte}
    {byte : Byte} (found : memory.cell identifier = some (.bytes contents))
    (atOffset : contents[offset]? = some byte) :
    loadByte memory (.block identifier) offset = .ok byte := by
  simp [loadByte, Ptr.block?, found, atOffset]

theorem storeRange_new {before memory : Memory} {freed : List Nat} {contents : List Byte}
    (changes : Changes before memory (some (.bytes contents)) freed)
    (offset : Nat) (bytes : List Byte) (inside : offset + bytes.length ≤ contents.length) :
    ∃ after, storeRange memory (.block before.next) offset bytes = .ok after ∧
      Changes before after
        (some (.bytes
          (contents.take offset ++ bytes ++ contents.drop (offset + bytes.length)))) freed := by
  unfold storeRange
  by_cases empty : bytes = []
  · refine ⟨memory, by rw [if_pos empty], ?_⟩
    simpa [empty] using changes
  · refine ⟨memory.modify before.next (overwrite offset bytes), ?_, ?_⟩
    · simp only [if_neg empty, changes.cell_new, if_pos inside]
    · exact changes.modify (overwrite offset bytes)

theorem memcpy_new {before memory : Memory} {freed : List Nat}
    {source : Ptr} {sourceOffset count : Nat} {contents bytes : List Byte}
    (changes : Changes before memory (some (.bytes contents)) freed) (offset : Nat)
    (loaded : loadRange memory source sourceOffset count = .ok bytes)
    (inside : offset + bytes.length ≤ contents.length) :
    ∃ after, memcpy memory (.block before.next) offset source sourceOffset count = .ok after ∧
      Changes before after
        (some (.bytes
          (contents.take offset ++ bytes ++ contents.drop (offset + bytes.length)))) freed := by
  obtain ⟨after, stored, afterChanges⟩ := storeRange_new changes offset bytes inside
  refine ⟨after, ?_, afterChanges⟩
  unfold memcpy
  rw [loaded, ok_bind]
  exact stored

theorem kfree_new {before memory : Memory} {freed : List Nat} {contents : Cell}
    (changes : Changes before memory (some contents) freed) :
    ∃ after, kfree memory (.block before.next) = .ok after ∧
      Changes before after none freed := by
  have live : memory.Live before.next := Heap.live_of_cell changes.cell_new
  exact ⟨_, kfree_live memory before.next live, changes.release_new live⟩

theorem kfree_old {before memory : Memory} {freed : List Nat} {added : Option Cell}
    {identifier : Nat} (changes : Changes before memory added freed)
    (live : before.Live identifier) (kept : identifier ∉ freed) :
    ∃ after, kfree memory (.block identifier) = .ok after ∧
      Changes before after added (freed ++ [identifier]) := by
  have old : identifier < before.next := Heap.live_lt_next live
  have stillLive : memory.Live identifier :=
    (Heap.live_of_cell_eq (changes.cell_old old kept)).mpr live
  exact ⟨_, kfree_live memory identifier stillLive, changes.release_old old stillLive⟩

end Aesd.Driver
