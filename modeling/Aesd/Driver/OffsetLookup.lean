/-
The offset lookup on buffers of any sizes.

The driver never stores more than the allocator grants, but the functions of
`aesd-circular-buffer.c` take any `size_t`.  The search adds the sizes up in an
`unsigned int`.  It comes to the entry that holds the offset in any case; it
stops there when the end of this entry, reduced to 32 bits, is still beyond the
offset.
-/

import Aesd.Driver.CircularBuffer

namespace Aesd.Driver

open Segments

def addEntries (added : List BufferEntry) : CircularBuffer :=
  added.foldl aesdCircularBufferAddEntry aesdCircularBufferInit

def sizeBefore (retained : List BufferEntry) (index : Nat) : Nat :=
  ((retained.map BufferEntry.size).take index).sum

/-- The lookup returns the entry that holds the offset and the place in it, and
nothing exactly when the offset is at or past the total. -/
structure LookupRight (buffer : CircularBuffer) (retained : List BufferEntry)
    (charOffset : Nat) : Prop where
  found : ∀ index entry, retained[index]? = some entry →
    sizeBefore retained index ≤ charOffset →
    charOffset < sizeBefore retained index + entry.size →
    ∃ slot, buffer.slots[index]? = some slot ∧ buffer.entry slot = entry ∧
      aesdCircularBufferFindEntryOffsetForFpos buffer charOffset =
        { entry := some slot, entryOffsetByte := charOffset - sizeBefore retained index }
  missing : (aesdCircularBufferFindEntryOffsetForFpos buffer charOffset).entry = none ↔
    (retained.map BufferEntry.size).sum ≤ charOffset

/-- The end of the entry that holds the offset does not wrap below it. -/
def EndUnwrapped (retained : List BufferEntry) (charOffset : Nat) : Prop :=
  ∀ index entry, retained[index]? = some entry →
    sizeBefore retained index ≤ charOffset →
    charOffset < sizeBefore retained index + entry.size →
    charOffset < (sizeBefore retained index + entry.size) % 2 ^ 32

/-! ### Added entries -/

theorem addEntries_append_singleton (added : List BufferEntry) (entry : BufferEntry) :
    addEntries (added ++ [entry]) = aesdCircularBufferAddEntry (addEntries added) entry := by
  rw [addEntries, List.foldl_append]
  rfl

theorem addEntries_holds (added : List BufferEntry) :
    (addEntries added).WellFormed ∧ (addEntries added).entries = added.rtake 10 := by
  induction added using List.reverseRecOn with
  | nil => exact ⟨aesdCircularBufferInit_wellFormed, rfl⟩
  | append_singleton added entry ih =>
      obtain ⟨wellFormed, entries⟩ := ih
      have full : (addEntries added).full = true ↔ 9 < added.length := by
        rw [CircularBuffer.full_iff_length, entries, length_rtake]
        omega
      rw [addEntries_append_singleton]
      refine ⟨aesdCircularBufferAddEntry_wellFormed _ entry wellFormed, ?_⟩
      rw [aesdCircularBufferAddEntry_entries _ entry wellFormed, rtake_append_singleton, entries]
      by_cases many : 9 < added.length
      · rw [if_pos (full.mpr many), if_pos many]
      · rw [if_neg (fun isFull => many (full.mp isFull)), if_neg many]

theorem sizeBefore_succ {retained : List BufferEntry} {index : Nat} {entry : BufferEntry}
    (entryAt : retained[index]? = some entry) :
    sizeBefore retained (index + 1) = sizeBefore retained index + entry.size := by
  have sizeAt : (retained.map BufferEntry.size)[index]? = some entry.size := by
    rw [List.getElem?_map, entryAt]
    rfl
  unfold sizeBefore
  rw [List.take_add_one, sizeAt, List.sum_append, Option.toList_some, List.sum_singleton]

theorem sizeBefore_le (retained : List BufferEntry) (index : Nat) :
    sizeBefore retained index ≤ (retained.map BufferEntry.size).sum :=
  (List.take_sublist _ _).sum_le_sum fun _ _ => Nat.zero_le _

/-! ### When the lookup is right -/

section

variable {buffer : CircularBuffer} {charOffset : Nat}

private theorem slot_of_entry {index : Nat} {entry : BufferEntry}
    (entryAt : buffer.entries[index]? = some entry) :
    ∃ slot, buffer.slots[index]? = some slot ∧ buffer.entry slot = entry := by
  rw [CircularBuffer.entries, List.getElem?_map] at entryAt
  obtain ⟨slot, slotAt, held⟩ := Option.map_eq_some_iff.mp entryAt
  exact ⟨slot, slotAt, held⟩

private theorem locate_entry {index : Nat} {entry : BufferEntry}
    (entryAt : buffer.entries[index]? = some entry)
    (lower : sizeBefore buffer.entries index ≤ charOffset)
    (upper : charOffset < sizeBefore buffer.entries index + entry.size) :
    locate (buffer.entries.map BufferEntry.size) charOffset =
      some (index, charOffset - sizeBefore buffer.entries index) := by
  apply locate_of_inside _ lower upper
  rw [List.getElem?_map, entryAt]
  rfl

theorem lookupRight_iff (wellFormed : buffer.WellFormed) (offsetFits : charOffset < 2 ^ 64) :
    LookupRight buffer buffer.entries charOffset ↔ EndUnwrapped buffer.entries charOffset := by
  constructor
  · intro right index entry entryAt lower upper
    obtain ⟨slot, slotAt, _, found⟩ := right.found index entry entryAt lower upper
    by_contra wraps
    have located := locate_entry entryAt lower upper
    apply aesdCircularBufferFindEntryOffsetForFpos_passed wellFormed located
    · change (sizeBefore buffer.entries (index + 1)) % 2 ^ 32 ≤ charOffset
      rw [sizeBefore_succ entryAt]
      omega
    · rw [found, slotAt]
  · intro unwrapped
    have atEntry : ∀ index entry, buffer.entries[index]? = some entry →
        sizeBefore buffer.entries index ≤ charOffset →
        charOffset < sizeBefore buffer.entries index + entry.size →
        aesdCircularBufferFindEntryOffsetForFpos buffer charOffset =
          { entry := buffer.slots[index]?
            entryOffsetByte := charOffset - sizeBefore buffer.entries index } := by
      intro index entry entryAt lower upper
      apply aesdCircularBufferFindEntryOffsetForFpos_found wellFormed offsetFits
        (locate_entry entryAt lower upper)
      change charOffset < (sizeBefore buffer.entries (index + 1)) % 2 ^ 32
      rw [sizeBefore_succ entryAt]
      exact unwrapped index entry entryAt lower upper
    constructor
    · intro index entry entryAt lower upper
      obtain ⟨slot, slotAt, held⟩ := slot_of_entry entryAt
      refine ⟨slot, slotAt, held, ?_⟩
      rw [atEntry index entry entryAt lower upper, slotAt]
    · rw [← locate_eq_none_iff]
      cases located : locate (buffer.entries.map BufferEntry.size) charOffset with
      | none =>
          rw [aesdCircularBufferFindEntryOffsetForFpos_missing wellFormed located]
          exact ⟨fun _ => rfl, fun _ => rfl⟩
      | some result =>
          obtain ⟨index, offset⟩ := result
          obtain ⟨start, size, sizeAt, inside⟩ := locate_eq_some located
          rw [List.getElem?_map] at sizeAt
          obtain ⟨entry, entryAt, rfl⟩ := Option.map_eq_some_iff.mp sizeAt
          change sizeBefore buffer.entries index + offset = charOffset at start
          obtain ⟨slot, slotAt, _⟩ := slot_of_entry entryAt
          rw [atEntry index entry entryAt (by omega) (by omega), slotAt]
          simp

/-- Some offset is missed as soon as the total leaves the range of the sums: the
last one. -/
theorem endUnwrapped_everywhere_iff (retained : List BufferEntry)
    (total : (retained.map BufferEntry.size).sum < 2 ^ 64) :
    (∀ charOffset, charOffset < 2 ^ 64 → EndUnwrapped retained charOffset) ↔
      (retained.map BufferEntry.size).sum < 2 ^ 32 := by
  constructor
  · intro everywhere
    by_contra large
    obtain ⟨result, located⟩ : ∃ result, locate (retained.map BufferEntry.size)
        ((retained.map BufferEntry.size).sum - 1) = some result := by
      apply Option.ne_none_iff_exists'.mp
      intro missing
      rw [locate_eq_none_iff] at missing
      omega
    obtain ⟨index, offset⟩ := result
    obtain ⟨start, size, sizeAt, inside⟩ := locate_eq_some located
    rw [List.getElem?_map] at sizeAt
    obtain ⟨entry, entryAt, rfl⟩ := Option.map_eq_some_iff.mp sizeAt
    have bounded := sizeBefore_le retained (index + 1)
    rw [sizeBefore_succ entryAt] at bounded
    change sizeBefore retained index + offset = _ at start
    have unwrapped := everywhere ((retained.map BufferEntry.size).sum - 1) (by omega) index entry
      entryAt (by omega) (by omega)
    omega
  · intro small charOffset _ index entry entryAt _ upper
    have bounded := sizeBefore_le retained (index + 1)
    rw [sizeBefore_succ entryAt] at bounded
    rw [Nat.mod_eq_of_lt (by omega)]
    exact upper

end

/-- After any sequence of added entries the lookup is right at an offset exactly
when the end of the entry that holds it does not wrap below it, and right at all
offsets exactly when the retained total is in the range of an `unsigned int`. -/
theorem offset_lookup_right_iff (added : List BufferEntry)
    (total : ((added.rtake 10).map BufferEntry.size).sum ≤ 2 ^ 64 - 1) :
    (∀ charOffset, charOffset < 2 ^ 64 →
      (LookupRight (addEntries added) (added.rtake 10) charOffset ↔
        EndUnwrapped (added.rtake 10) charOffset)) ∧
    ((∀ charOffset, charOffset < 2 ^ 64 →
        LookupRight (addEntries added) (added.rtake 10) charOffset) ↔
      ((added.rtake 10).map BufferEntry.size).sum < 2 ^ 32) := by
  obtain ⟨wellFormed, entries⟩ := addEntries_holds added
  have pointwise : ∀ charOffset, charOffset < 2 ^ 64 →
      (LookupRight (addEntries added) (added.rtake 10) charOffset ↔
        EndUnwrapped (added.rtake 10) charOffset) := by
    intro charOffset offsetFits
    rw [← entries]
    exact lookupRight_iff wellFormed offsetFits
  refine ⟨pointwise, ?_⟩
  rw [← endUnwrapped_everywhere_iff (added.rtake 10) (by omega)]
  constructor
  · intro right charOffset offsetFits
    exact (pointwise charOffset offsetFits).mp (right charOffset offsetFits)
  · intro unwrapped charOffset offsetFits
    exact (pointwise charOffset offsetFits).mpr (unwrapped charOffset offsetFits)

/-- Entries of two, no and three bytes. -/
theorem offset_lookup_right_small_entries :
    LookupRight (addEntries [⟨.block 0, 2⟩, ⟨.block 1, 0⟩, ⟨.block 2, 3⟩])
      [⟨.block 0, 2⟩, ⟨.block 1, 0⟩, ⟨.block 2, 3⟩] 2 := by
  obtain ⟨_, everywhere⟩ := offset_lookup_right_iff
    [⟨.block 0, 2⟩, ⟨.block 1, 0⟩, ⟨.block 2, 3⟩] (by decide)
  exact everywhere.mpr (by decide) 2 (by decide)

/-- In an entry of `2 ^ 32` bytes no offset is found. -/
theorem offset_lookup_misses_large_entry :
    aesdCircularBufferFindEntryOffsetForFpos (addEntries [⟨.block 0, 2 ^ 32⟩]) 0 = .notFound ∧
      ¬LookupRight (addEntries [⟨.block 0, 2 ^ 32⟩]) [⟨.block 0, 2 ^ 32⟩] 0 := by
  have missed : aesdCircularBufferFindEntryOffsetForFpos (addEntries [⟨.block 0, 2 ^ 32⟩]) 0 =
      .notFound := by decide
  refine ⟨missed, ?_⟩
  intro right
  have past := right.missing.mp (by rw [missed]; rfl)
  exact absurd past (by decide)

end Aesd.Driver
