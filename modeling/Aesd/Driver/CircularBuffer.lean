/-
The circular buffer of `aesd-circular-buffer.c`.

Ten slots (`AESDCHAR_MAX_WRITE_OPERATIONS_SUPPORTED`), an index for the next
write, an index for the oldest entry and a flag.  Both indices are below ten by
their type, which is what every array access of the source relies on.

The first part embeds the functions of the source.  The second part reads a
buffer as the list of its entries, oldest first, and says what each function
does to that list.
-/

import Aesd.Driver.KernelMemory
import Aesd.Library.Segments

namespace Aesd.Driver

open Segments

structure BufferEntry where
  buffptr : Ptr
  size : Nat
  deriving DecidableEq, Repr

def BufferEntry.zero : BufferEntry :=
  { buffptr := .null, size := 0 }

structure CircularBuffer where
  entry : Fin 10 → BufferEntry
  inOffs : Fin 10
  outOffs : Fin 10
  full : Bool

def aesdCircularBufferInit : CircularBuffer :=
  { entry := fun _ => .zero
    inOffs := 0
    outOffs := 0
    full := false }

def aesdCircularBufferAddEntry (buffer : CircularBuffer) (addEntry : BufferEntry) :
    CircularBuffer :=
  { entry := Function.update buffer.entry buffer.inOffs addEntry
    outOffs :=
      if buffer.full then Fin.ofNat 10 (buffer.outOffs.val + 1) else buffer.outOffs
    full := if 10 = buffer.inOffs.val + 1 then true else buffer.full
    inOffs :=
      if last : 10 = buffer.inOffs.val + 1 then 0
      else ⟨buffer.inOffs.val + 1, by omega⟩ }

/-! The stores of `aesd_circular_buffer_add_entry`, in its order. -/

def CircularBuffer.storeBuffptr (buffer : CircularBuffer) (buffptr : Ptr) : CircularBuffer :=
  { buffer with
    entry := Function.update buffer.entry buffer.inOffs
      { buffer.entry buffer.inOffs with buffptr := buffptr } }

def CircularBuffer.storeSize (buffer : CircularBuffer) (size : Nat) : CircularBuffer :=
  { buffer with
    entry := Function.update buffer.entry buffer.inOffs
      { buffer.entry buffer.inOffs with size := size } }

def CircularBuffer.advanceOut (buffer : CircularBuffer) : CircularBuffer :=
  { buffer with
    outOffs :=
      if buffer.full then Fin.ofNat 10 (buffer.outOffs.val + 1) else buffer.outOffs }

def CircularBuffer.markFull (buffer : CircularBuffer) : CircularBuffer :=
  { buffer with full := if 10 = buffer.inOffs.val + 1 then true else buffer.full }

def CircularBuffer.advanceIn (buffer : CircularBuffer) : CircularBuffer :=
  { buffer with
    inOffs :=
      if last : 10 = buffer.inOffs.val + 1 then 0
      else ⟨buffer.inOffs.val + 1, by omega⟩ }

theorem aesdCircularBufferAddEntry_stores (buffer : CircularBuffer) (addEntry : BufferEntry) :
    ((((buffer.storeBuffptr addEntry.buffptr).storeSize addEntry.size).advanceOut).markFull
      ).advanceIn = aesdCircularBufferAddEntry buffer addEntry := by
  simp only [CircularBuffer.storeBuffptr, CircularBuffer.storeSize, CircularBuffer.advanceOut,
    CircularBuffer.markFull, CircularBuffer.advanceIn, aesdCircularBufferAddEntry,
    Function.update_self, Function.update_idem]

/-- The slot that an iterator gets to from its start, going round. -/
def slotFrom (start : Fin 10) (index : Nat) : Fin 10 := Fin.ofNat 10 (start.val + index)

def aesdCircularBufferRefBuff (buffer : CircularBuffer) : Ptr :=
  (buffer.entry buffer.inOffs).buffptr

/-- The returned entry pointer, as the index of its slot, and the value left in
`*entry_offset_byte_rtn`. -/
structure FposLookup where
  entry : Option (Fin 10)
  entryOffsetByte : Nat
  deriving DecidableEq, Repr

def FposLookup.notFound : FposLookup :=
  { entry := none, entryOffsetByte := 2 ^ 64 - 1 }

/-- The search loop.  `rounds` is `entry_size - entry_counter`, the number of
times the loop condition still holds. -/
def findEntryLoop (buffer : CircularBuffer) (charOffset : Nat) :
    (rounds entryCounter totalCharSize : Nat) → FposLookup
  | 0, _, _ => .notFound
  | rounds + 1, entryCounter, totalCharSize =>
      let slot := Fin.ofNat 10 entryCounter
      let prevCharSize := totalCharSize
      let totalCharSize := unsignedInt (totalCharSize + (buffer.entry slot).size)
      if charOffset < totalCharSize then
        { entry := some slot, entryOffsetByte := sizeTSub charOffset prevCharSize }
      else findEntryLoop buffer charOffset rounds (entryCounter + 1) totalCharSize

def aesdCircularBufferFindEntryOffsetForFpos (buffer : CircularBuffer) (charOffset : Nat) :
    FposLookup :=
  let entrySize := if buffer.full then 10 + buffer.inOffs.val else buffer.inOffs.val
  findEntryLoop buffer charOffset (entrySize - buffer.outOffs.val) buffer.outOffs.val 0

def visitedLoop (buffer : CircularBuffer) (charOffset : Nat) :
    (rounds entryCounter totalCharSize : Nat) → List (Fin 10)
  | 0, _, _ => []
  | rounds + 1, entryCounter, totalCharSize =>
      let slot := Fin.ofNat 10 entryCounter
      let totalCharSize := unsignedInt (totalCharSize + (buffer.entry slot).size)
      if charOffset < totalCharSize then [slot]
      else slot :: visitedLoop buffer charOffset rounds (entryCounter + 1) totalCharSize

def visitedSlots (buffer : CircularBuffer) (charOffset : Nat) : List (Fin 10) :=
  let entrySize := if buffer.full then 10 + buffer.inOffs.val else buffer.inOffs.val
  visitedLoop buffer charOffset (entrySize - buffer.outOffs.val) buffer.outOffs.val 0

/-! ### A buffer as a list of entries -/

def CircularBuffer.count (buffer : CircularBuffer) : Nat :=
  if buffer.full then 10 else buffer.inOffs.val

/-- The occupied slots from `out_offs` on, oldest first. -/
def CircularBuffer.slots (buffer : CircularBuffer) : List (Fin 10) :=
  (List.range buffer.count).map fun index => Fin.ofNat 10 (buffer.outOffs.val + index)

def CircularBuffer.entries (buffer : CircularBuffer) : List BufferEntry :=
  buffer.slots.map buffer.entry

structure CircularBuffer.WellFormed (buffer : CircularBuffer) : Prop where
  startWhenFull : buffer.full = true → buffer.outOffs = buffer.inOffs
  startWhenPartial : buffer.full = false → buffer.outOffs = 0
  unwritten : buffer.full = false →
    ∀ slot : Fin 10, buffer.inOffs ≤ slot → buffer.entry slot = .zero

theorem aesdCircularBufferInit_wellFormed : aesdCircularBufferInit.WellFormed :=
  { startWhenFull := by intro full; cases full
    startWhenPartial := fun _ => rfl
    unwritten := fun _ _ _ => rfl }

theorem CircularBuffer.entries_length (buffer : CircularBuffer) :
    buffer.entries.length = buffer.count := by
  simp [entries, slots]

theorem CircularBuffer.full_iff_length (buffer : CircularBuffer) :
    buffer.full = true ↔ buffer.entries.length = 10 := by
  rw [buffer.entries_length]
  unfold count
  by_cases full : buffer.full = true
  · simp [full]
  · have below := buffer.inOffs.isLt
    simp only [full, false_iff, Bool.false_eq_true, ↓reduceIte]
    omega

theorem CircularBuffer.entry_mem_entries (buffer : CircularBuffer)
    (wellFormed : buffer.WellFormed) (slot : Fin 10)
    (occupied : buffer.entry slot ≠ .zero) : buffer.entry slot ∈ buffer.entries := by
  apply List.mem_map_of_mem
  unfold slots count
  rw [List.mem_map]
  have below := slot.isLt
  by_cases full : buffer.full = true
  · have outBelow := buffer.outOffs.isLt
    refine ⟨(slot.val + 10 - buffer.outOffs.val) % 10, ?_, ?_⟩
    · simp only [full, ↓reduceIte, List.mem_range]
      omega
    · apply Fin.ext
      simp only [Fin.ofNat]
      omega
  · have partly : buffer.full = false := by simpa using full
    have written : slot < buffer.inOffs := by
      by_contra outside
      exact occupied (wellFormed.unwritten partly slot (by omega))
    refine ⟨slot.val, ?_, ?_⟩
    · simp only [partly, Bool.false_eq_true, ↓reduceIte, List.mem_range]
      exact written
    · have start : buffer.outOffs.val = 0 :=
        congrArg Fin.val (wellFormed.startWhenPartial partly)
      apply Fin.ext
      simp only [Fin.ofNat, start]
      omega

/-! ### What `add_entry` does -/

theorem aesdCircularBufferAddEntry_inOffs (buffer : CircularBuffer) (entry : BufferEntry) :
    (aesdCircularBufferAddEntry buffer entry).inOffs.val = (buffer.inOffs.val + 1) % 10 := by
  have below := buffer.inOffs.isLt
  by_cases last : 10 = buffer.inOffs.val + 1
  · simp only [aesdCircularBufferAddEntry, ← last]
    rfl
  · simp only [aesdCircularBufferAddEntry, dif_neg last]
    omega

private theorem entries_written (buffer : CircularBuffer) (addEntry : BufferEntry)
    (wellFormed : buffer.WellFormed) (partly : buffer.full = false) :
    (List.range (buffer.inOffs.val + 1)).map (fun index =>
        Function.update buffer.entry buffer.inOffs addEntry
          (Fin.ofNat 10 (buffer.outOffs.val + index))) =
      buffer.entries ++ [addEntry] := by
  have startValue : buffer.outOffs.val = 0 := congrArg Fin.val (wellFormed.startWhenPartial partly)
  have inBelow := buffer.inOffs.isLt
  rw [List.range_succ, List.map_append]
  congr 1
  · unfold CircularBuffer.entries CircularBuffer.slots CircularBuffer.count
    rw [List.map_map, partly]
    apply List.map_congr_left
    intro index member
    have below : index < buffer.inOffs.val := List.mem_range.mp member
    apply Function.update_of_ne
    intro same
    have values := congrArg Fin.val same
    simp only [Fin.ofNat, startValue] at values
    omega
  · have slotEq : Fin.ofNat 10 (buffer.outOffs.val + buffer.inOffs.val) = buffer.inOffs := by
      apply Fin.ext
      simp only [Fin.ofNat, startValue]
      omega
    simp only [List.map_cons, List.map_nil, slotEq, Function.update_self]

private theorem addEntry_notFull (buffer : CircularBuffer) (addEntry : BufferEntry)
    (wellFormed : buffer.WellFormed) (partly : buffer.full = false) :
    (aesdCircularBufferAddEntry buffer addEntry).WellFormed ∧
      (aesdCircularBufferAddEntry buffer addEntry).entries = buffer.entries ++ [addEntry] := by
  have start := wellFormed.startWhenPartial partly
  have written := entries_written buffer addEntry wellFormed partly
  by_cases last : 10 = buffer.inOffs.val + 1
  · refine ⟨⟨?_, ?_, ?_⟩, ?_⟩
    · intro _
      simp only [aesdCircularBufferAddEntry, partly, dif_pos last]
      exact start
    · intro stillPartial
      simp [aesdCircularBufferAddEntry, last] at stillPartial
    · intro stillPartial
      simp [aesdCircularBufferAddEntry, last] at stillPartial
    · rw [← written, ← last]
      unfold CircularBuffer.entries CircularBuffer.slots CircularBuffer.count
      simp only [aesdCircularBufferAddEntry, if_pos last, ↓reduceIte, partly,
        Bool.false_eq_true, List.map_map]
      rfl
  · refine ⟨⟨?_, ?_, ?_⟩, ?_⟩
    · intro nowFull
      simp [aesdCircularBufferAddEntry, last, partly] at nowFull
    · intro _
      simp only [aesdCircularBufferAddEntry, partly]
      exact start
    · intro _ slot outside
      simp only [aesdCircularBufferAddEntry, dif_neg last, Fin.le_def] at outside
      have different : slot ≠ buffer.inOffs := by
        intro same
        subst same
        omega
      simp only [aesdCircularBufferAddEntry]
      rw [Function.update_of_ne different]
      exact wellFormed.unwritten partly slot (by rw [Fin.le_def]; omega)
    · rw [← written]
      unfold CircularBuffer.entries CircularBuffer.slots CircularBuffer.count
      simp only [aesdCircularBufferAddEntry, if_neg last, partly,
        Bool.false_eq_true, ↓reduceIte, dif_neg last, List.map_map]
      rfl

private theorem entries_full (buffer : CircularBuffer) (wellFormed : buffer.WellFormed)
    (full : buffer.full = true) :
    buffer.entries = buffer.entry buffer.inOffs ::
      (List.range 9).map (fun index =>
        buffer.entry (Fin.ofNat 10 (buffer.inOffs.val + 1 + index))) := by
  have inBelow := buffer.inOffs.isLt
  have first : Fin.ofNat 10 (buffer.inOffs.val + 0) = buffer.inOffs := by
    apply Fin.ext
    simp only [Fin.ofNat]
    omega
  unfold CircularBuffer.entries CircularBuffer.slots CircularBuffer.count
  rw [full, wellFormed.startWhenFull full, if_pos rfl, List.range_succ_eq_map]
  simp only [List.map_cons, List.map_map, first]
  apply congrArg (List.cons _)
  apply List.map_congr_left
  intro index _
  have shifted : buffer.inOffs.val + (index + 1) = buffer.inOffs.val + 1 + index := by omega
  simp only [Function.comp_apply, Nat.succ_eq_add_one, shifted]

private theorem addEntry_full (buffer : CircularBuffer) (addEntry : BufferEntry)
    (wellFormed : buffer.WellFormed) (full : buffer.full = true) :
    (aesdCircularBufferAddEntry buffer addEntry).WellFormed ∧
      (aesdCircularBufferAddEntry buffer addEntry).entries =
        buffer.entries.tail ++ [addEntry] := by
  have inBelow := buffer.inOffs.isLt
  have stillFull : (aesdCircularBufferAddEntry buffer addEntry).full = true := by
    simp [aesdCircularBufferAddEntry, full]
  have advanced : (aesdCircularBufferAddEntry buffer addEntry).outOffs =
      Fin.ofNat 10 (buffer.inOffs.val + 1) := by
    simp [aesdCircularBufferAddEntry, full, wellFormed.startWhenFull full]
  refine ⟨⟨?_, ?_, ?_⟩, ?_⟩
  · intro _
    rw [advanced]
    apply Fin.ext
    rw [aesdCircularBufferAddEntry_inOffs]
    rfl
  · intro stillPartial
    rw [stillFull] at stillPartial
    cases stillPartial
  · intro stillPartial
    rw [stillFull] at stillPartial
    cases stillPartial
  · -- the nine younger entries move up by one place, the oldest slot is overwritten
    have newEntries : (aesdCircularBufferAddEntry buffer addEntry).entries =
        (List.range 10).map (fun index =>
          Function.update buffer.entry buffer.inOffs addEntry
            (Fin.ofNat 10 (buffer.inOffs.val + 1 + index))) := by
      unfold CircularBuffer.entries CircularBuffer.slots CircularBuffer.count
      rw [stillFull, advanced, if_pos rfl, List.map_map]
      apply List.map_congr_left
      intro index _
      simp only [Function.comp_apply, aesdCircularBufferAddEntry]
      congr 1
      apply Fin.ext
      simp only [Fin.ofNat]
      omega
    rw [newEntries, entries_full buffer wellFormed full, List.tail_cons, List.range_succ,
      List.map_append]
    congr 1
    · apply List.map_congr_left
      intro index member
      have below := List.mem_range.mp member
      apply Function.update_of_ne
      intro same
      have values := congrArg Fin.val same
      simp only [Fin.ofNat] at values
      omega
    · have slotEq : Fin.ofNat 10 (buffer.inOffs.val + 1 + 9) = buffer.inOffs := by
        apply Fin.ext
        simp only [Fin.ofNat]
        omega
      simp only [List.map_cons, List.map_nil, slotEq, Function.update_self]

theorem aesdCircularBufferAddEntry_wellFormed (buffer : CircularBuffer)
    (addEntry : BufferEntry) (wellFormed : buffer.WellFormed) :
    (aesdCircularBufferAddEntry buffer addEntry).WellFormed := by
  cases full : buffer.full with
  | false => exact (addEntry_notFull buffer addEntry wellFormed full).1
  | true => exact (addEntry_full buffer addEntry wellFormed full).1

theorem aesdCircularBufferAddEntry_entries (buffer : CircularBuffer)
    (addEntry : BufferEntry) (wellFormed : buffer.WellFormed) :
    (aesdCircularBufferAddEntry buffer addEntry).entries =
      if buffer.full then buffer.entries.tail ++ [addEntry]
      else buffer.entries ++ [addEntry] := by
  cases full : buffer.full with
  | false =>
      rw [(addEntry_notFull buffer addEntry wellFormed full).2]
      rfl
  | true =>
      rw [(addEntry_full buffer addEntry wellFormed full).2]
      rfl

theorem aesdCircularBufferRefBuff_oldest (buffer : CircularBuffer)
    (wellFormed : buffer.WellFormed) (full : buffer.full = true) :
    ∃ oldest, buffer.entries = oldest :: buffer.entries.tail ∧
      aesdCircularBufferRefBuff buffer = oldest.buffptr := by
  refine ⟨buffer.entry buffer.inOffs, ?_, rfl⟩
  rw [entries_full buffer wellFormed full, List.tail_cons]

/-! ### What the lookup finds -/

private theorem findEntryLoop_inside (buffer : CircularBuffer) (charOffset : Nat)
    (offsetFits : charOffset < 2 ^ 64) (rounds : Nat) :
    ∀ (entryCounter totalCharSize : Nat) (slot : Fin 10), totalCharSize ≤ charOffset →
      (findEntryLoop buffer charOffset rounds entryCounter totalCharSize).entry = some slot →
      charOffset < 2 ^ 32 ∧
        (findEntryLoop buffer charOffset rounds entryCounter totalCharSize).entryOffsetByte <
          (buffer.entry slot).size := by
  induction rounds with
  | zero =>
      intro entryCounter totalCharSize slot _ found
      cases found
  | succ rounds ih =>
      intro entryCounter totalCharSize slot reached found
      simp only [findEntryLoop] at found ⊢
      by_cases inside : charOffset <
          unsignedInt (totalCharSize + (buffer.entry (Fin.ofNat 10 entryCounter)).size)
      · rw [if_pos inside] at found ⊢
        have slotEq := Option.some.inj found
        subst slotEq
        have narrow : unsignedInt
            (totalCharSize + (buffer.entry (Fin.ofNat 10 entryCounter)).size) < 2 ^ 32 :=
          Nat.mod_lt _ (by decide)
        refine ⟨by omega, ?_⟩
        have wrapped : unsignedInt
            (totalCharSize + (buffer.entry (Fin.ofNat 10 entryCounter)).size) ≤
              totalCharSize + (buffer.entry (Fin.ofNat 10 entryCounter)).size :=
          Nat.mod_le _ _
        rw [sizeTSub_of_le reached offsetFits]
        change charOffset - totalCharSize < _
        omega
      · rw [if_neg inside] at found ⊢
        exact ih _ _ slot (by omega) found

theorem aesdCircularBufferFindEntryOffsetForFpos_inside (buffer : CircularBuffer)
    (charOffset : Nat) (slot : Fin 10) (wellFormed : buffer.WellFormed)
    (offsetFits : charOffset < 2 ^ 64)
    (found : (aesdCircularBufferFindEntryOffsetForFpos buffer charOffset).entry = some slot) :
    charOffset < 2 ^ 32 ∧ buffer.entry slot ∈ buffer.entries ∧
      (aesdCircularBufferFindEntryOffsetForFpos buffer charOffset).entryOffsetByte <
        (buffer.entry slot).size := by
  obtain ⟨narrow, bounded⟩ := findEntryLoop_inside buffer charOffset offsetFits _ _ _ slot
    (Nat.zero_le _) found
  refine ⟨narrow, buffer.entry_mem_entries wellFormed slot ?_, bounded⟩
  intro zero
  rw [zero] at bounded
  exact Nat.not_lt_zero _ bounded

private theorem findEntryLoop_reaches (buffer : CircularBuffer) (charOffset : Nat)
    (rounds : Nat) :
    ∀ entryCounter passed : Nat, passed ≤ charOffset →
      (locate ((List.range' entryCounter rounds).map fun counter =>
            (buffer.entry (Fin.ofNat 10 counter)).size) (charOffset - passed) = none →
        findEntryLoop buffer charOffset rounds entryCounter (unsignedInt passed) =
          .notFound) ∧
      ∀ index offset,
        locate ((List.range' entryCounter rounds).map fun counter =>
            (buffer.entry (Fin.ofNat 10 counter)).size) (charOffset - passed) =
          some (index, offset) →
        index < rounds ∧ offset ≤ charOffset ∧
          findEntryLoop buffer charOffset rounds entryCounter (unsignedInt passed) =
            findEntryLoop buffer charOffset (rounds - index) (entryCounter + index)
              (unsignedInt (charOffset - offset)) := by
  induction rounds with
  | zero =>
      intro entryCounter passed _
      constructor
      · intro _
        rfl
      · intro index offset located
        cases located
  | succ rounds ih =>
      intro entryCounter passed reached
      rw [List.range'_succ, List.map_cons]
      by_cases inside : charOffset - passed < (buffer.entry (Fin.ofNat 10 entryCounter)).size
      · rw [locate, if_pos inside]
        constructor
        · intro located
          cases located
        · intro index offset located
          cases located
          rw [Nat.sub_sub_self reached]
          exact ⟨Nat.succ_pos rounds, Nat.sub_le _ _, rfl⟩
      · have wrapped : unsignedInt (unsignedInt passed +
            (buffer.entry (Fin.ofNat 10 entryCounter)).size) =
              unsignedInt (passed + (buffer.entry (Fin.ofNat 10 entryCounter)).size) :=
          Nat.mod_add_mod _ _ _
        have below : unsignedInt (passed + (buffer.entry (Fin.ofNat 10 entryCounter)).size) ≤
            passed + (buffer.entry (Fin.ofNat 10 entryCounter)).size := Nat.mod_le _ _
        have skipped : findEntryLoop buffer charOffset (rounds + 1) entryCounter
            (unsignedInt passed) =
              findEntryLoop buffer charOffset rounds (entryCounter + 1)
                (unsignedInt (passed + (buffer.entry (Fin.ofNat 10 entryCounter)).size)) := by
          rw [findEntryLoop]
          simp only [wrapped]
          rw [if_neg (by omega)]
        obtain ⟨missing, found⟩ := ih (entryCounter + 1)
          (passed + (buffer.entry (Fin.ofNat 10 entryCounter)).size) (by omega)
        rw [locate, if_neg inside, Nat.sub_sub, skipped]
        constructor
        · intro located
          exact missing (Option.map_eq_none_iff.mp located)
        · intro index offset located
          obtain ⟨later, laterLocated, same⟩ := Option.map_eq_some_iff.mp located
          obtain ⟨rfl, rfl⟩ := Prod.mk.inj same
          obtain ⟨below, within, run⟩ := found later.1 later.2 laterLocated
          refine ⟨by omega, within, ?_⟩
          rw [run, Nat.add_sub_add_right, Nat.add_assoc, Nat.add_comm 1]

private theorem findEntryLoop_slot (buffer : CircularBuffer) (charOffset : Nat) (rounds : Nat) :
    ∀ (entryCounter totalCharSize : Nat) (slot : Fin 10),
      (findEntryLoop buffer charOffset rounds entryCounter totalCharSize).entry = some slot →
      ∃ index, index < rounds ∧ slot = Fin.ofNat 10 (entryCounter + index) := by
  induction rounds with
  | zero =>
      intro entryCounter totalCharSize slot found
      cases found
  | succ rounds ih =>
      intro entryCounter totalCharSize slot found
      rw [findEntryLoop] at found
      split at found
      · exact ⟨0, Nat.succ_pos rounds, (Option.some.inj found).symm⟩
      · obtain ⟨index, inside, slotEq⟩ := ih _ _ slot found
        refine ⟨index + 1, by omega, ?_⟩
        rw [slotEq, Nat.add_assoc, Nat.add_comm 1]

section

variable {buffer : CircularBuffer} {charOffset index offset : Nat}

private theorem lookup_eq_loop (wellFormed : buffer.WellFormed) (charOffset : Nat) :
    aesdCircularBufferFindEntryOffsetForFpos buffer charOffset =
        findEntryLoop buffer charOffset buffer.count buffer.outOffs.val (unsignedInt 0) ∧
      buffer.entries.map BufferEntry.size =
        (List.range' buffer.outOffs.val buffer.count).map fun counter =>
          (buffer.entry (Fin.ofNat 10 counter)).size := by
  have rounds : (if buffer.full then 10 + buffer.inOffs.val else buffer.inOffs.val) -
      buffer.outOffs.val = buffer.count := by
    unfold CircularBuffer.count
    cases full : buffer.full with
    | false =>
        rw [wellFormed.startWhenPartial full]
        rfl
    | true =>
        rw [wellFormed.startWhenFull full]
        simp only [↓reduceIte]
        omega
  constructor
  · unfold aesdCircularBufferFindEntryOffsetForFpos
    simp only
    rw [rounds]
    rfl
  · unfold CircularBuffer.entries CircularBuffer.slots
    rw [List.map_map, List.map_map, List.range'_eq_map_range, List.map_map]
    rfl

theorem aesdCircularBufferFindEntryOffsetForFpos_missing (wellFormed : buffer.WellFormed)
    (located : locate (buffer.entries.map BufferEntry.size) charOffset = none) :
    aesdCircularBufferFindEntryOffsetForFpos buffer charOffset = .notFound := by
  obtain ⟨loop, sizes⟩ := lookup_eq_loop wellFormed charOffset
  rw [sizes] at located
  rw [loop]
  exact (findEntryLoop_reaches buffer charOffset _ _ 0 (Nat.zero_le _)).1 located

private theorem lookup_at_entry (wellFormed : buffer.WellFormed)
    (located : locate (buffer.entries.map BufferEntry.size) charOffset = some (index, offset)) :
    ∃ slot rounds entryCounter, slot = Fin.ofNat 10 entryCounter ∧ rounds < 10 ∧
      buffer.slots[index]? = some slot ∧
      ((buffer.entries.map BufferEntry.size).take (index + 1)).sum =
        charOffset - offset + (buffer.entry slot).size ∧
      offset ≤ charOffset ∧
      aesdCircularBufferFindEntryOffsetForFpos buffer charOffset =
        findEntryLoop buffer charOffset (rounds + 1) entryCounter
          (unsignedInt (charOffset - offset)) := by
  obtain ⟨loop, sizes⟩ := lookup_eq_loop wellFormed charOffset
  have reached := located
  rw [sizes] at reached
  obtain ⟨below, within, run⟩ :=
    (findEntryLoop_reaches buffer charOffset _ _ 0 (Nat.zero_le _)).2 index offset reached
  have few : buffer.count ≤ 10 := by
    unfold CircularBuffer.count
    have inBelow := buffer.inOffs.isLt
    split <;> omega
  have slotAt : buffer.slots[index]? = some (Fin.ofNat 10 (buffer.outOffs.val + index)) := by
    simp [CircularBuffer.slots, below]
  have sizeAt : (buffer.entries.map BufferEntry.size)[index]? =
      some (buffer.entry (Fin.ofNat 10 (buffer.outOffs.val + index))).size := by
    rw [List.getElem?_map, CircularBuffer.entries, List.getElem?_map, slotAt]
    rfl
  obtain ⟨start, _⟩ := locate_eq_some located
  refine ⟨_, buffer.count - index - 1, buffer.outOffs.val + index, rfl, by omega, slotAt, ?_,
    within, ?_⟩
  · rw [List.take_add_one, sizeAt, List.sum_append, Option.toList_some, List.sum_singleton]
    omega
  · have rounds : buffer.count - index - 1 + 1 = buffer.count - index := by omega
    rw [loop, run, rounds]

/-- The wrapped end of the entry that holds the offset decides whether it is
found. -/
theorem aesdCircularBufferFindEntryOffsetForFpos_found (wellFormed : buffer.WellFormed)
    (offsetFits : charOffset < 2 ^ 64)
    (located : locate (buffer.entries.map BufferEntry.size) charOffset = some (index, offset))
    (stops : charOffset <
      unsignedInt ((buffer.entries.map BufferEntry.size).take (index + 1)).sum) :
    aesdCircularBufferFindEntryOffsetForFpos buffer charOffset =
      { entry := buffer.slots[index]?, entryOffsetByte := offset } := by
  obtain ⟨slot, rounds, entryCounter, slotEq, _, slotAt, ended, within, run⟩ :=
    lookup_at_entry wellFormed located
  rw [ended] at stops
  have narrow : unsignedInt (charOffset - offset + (buffer.entry slot).size) < 2 ^ 32 :=
    Nat.mod_lt _ (by decide)
  have exactStart : unsignedInt (charOffset - offset) = charOffset - offset :=
    unsignedInt_of_lt (by omega)
  rw [run, slotAt, findEntryLoop, exactStart]
  simp only [← slotEq]
  rw [if_pos stops, sizeTSub_of_le (by omega) offsetFits, Nat.sub_sub_self within]

theorem aesdCircularBufferFindEntryOffsetForFpos_passed (wellFormed : buffer.WellFormed)
    (located : locate (buffer.entries.map BufferEntry.size) charOffset = some (index, offset))
    (passes : unsignedInt ((buffer.entries.map BufferEntry.size).take (index + 1)).sum ≤
      charOffset) :
    (aesdCircularBufferFindEntryOffsetForFpos buffer charOffset).entry ≠
      buffer.slots[index]? := by
  obtain ⟨slot, rounds, entryCounter, slotEq, few, slotAt, ended, within, run⟩ :=
    lookup_at_entry wellFormed located
  have wrapped : unsignedInt (unsignedInt (charOffset - offset) + (buffer.entry slot).size) =
      unsignedInt (charOffset - offset + (buffer.entry slot).size) := Nat.mod_add_mod _ _ _
  rw [ended] at passes
  rw [run, slotAt, findEntryLoop]
  simp only [← slotEq, wrapped]
  rw [if_neg (Nat.not_lt.mpr passes)]
  intro found
  -- what is found behind the entry is in another slot
  obtain ⟨further, below, laterSlot⟩ := findEntryLoop_slot buffer charOffset rounds _ _ slot found
  rw [slotEq] at laterSlot
  have values := congrArg Fin.val laterSlot
  simp only [Fin.ofNat] at values
  omega

end

theorem aesdCircularBufferFindEntryOffsetForFpos_eq (buffer : CircularBuffer)
    (charOffset : Nat) (wellFormed : buffer.WellFormed) (offsetFits : charOffset < 2 ^ 64)
    (sizesFit : (buffer.entries.map BufferEntry.size).sum < 2 ^ 32) :
    aesdCircularBufferFindEntryOffsetForFpos buffer charOffset =
      match locate (buffer.entries.map BufferEntry.size) charOffset with
      | none => .notFound
      | some (index, offset) =>
          { entry := buffer.slots[index]?, entryOffsetByte := offset } := by
  cases located : locate (buffer.entries.map BufferEntry.size) charOffset with
  | none => exact aesdCircularBufferFindEntryOffsetForFpos_missing wellFormed located
  | some found =>
      obtain ⟨index, offset⟩ := found
      obtain ⟨start, size, sizeAt, inside⟩ := locate_eq_some located
      have upTo : ((buffer.entries.map BufferEntry.size).take (index + 1)).sum =
          ((buffer.entries.map BufferEntry.size).take index).sum + size := by
        rw [List.take_add_one, sizeAt, List.sum_append, Option.toList_some, List.sum_singleton]
      have partSum : ((buffer.entries.map BufferEntry.size).take (index + 1)).sum ≤
          (buffer.entries.map BufferEntry.size).sum :=
        (List.take_sublist _ _).sum_le_sum fun _ _ => Nat.zero_le _
      apply aesdCircularBufferFindEntryOffsetForFpos_found wellFormed offsetFits located
      rw [unsignedInt_of_lt (by omega)]
      omega

end Aesd.Driver
