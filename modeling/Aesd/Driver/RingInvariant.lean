/-
The circular buffer as a function of the entries added to it.

The two indices and the flag are updated separately, and the bound of the search
adds ten only when the flag is set.  After any number of additions they are
determined by that number, and each slot by the last entry whose ordinal belongs
to it; the search then goes over the retained ordinals in ascending order.
-/

import Aesd.Driver.OffsetLookup

namespace Aesd.Driver

/-- The slot holds the last of the added entries whose ordinal belongs to it, or
is as it was initialised when there is none. -/
inductive HoldsLatest (added : List BufferEntry) (slot : Fin 10) : BufferEntry → Prop where
  | written {entry : BufferEntry} (ordinal : Nat) (entryAt : added[ordinal]? = some entry)
      (belongs : ordinal % 10 = slot.val)
      (latest : ∀ later, ordinal < later → later < added.length → later % 10 ≠ slot.val) :
      HoldsLatest added slot entry
  | unwritten (never : ∀ ordinal, ordinal < added.length → ordinal % 10 ≠ slot.val) :
      HoldsLatest added slot .zero

structure RingAfter (added : List BufferEntry) (buffer : CircularBuffer) : Prop where
  nextWrite : buffer.inOffs.val = added.length % 10
  fullFrom : buffer.full = true ↔ 10 ≤ added.length
  startWhenPartial : added.length < 10 → buffer.outOffs = 0
  startWhenFull : 10 ≤ added.length → buffer.outOffs = buffer.inOffs
  slots : ∀ slot, HoldsLatest added slot (buffer.entry slot)

/-! ### Adding an entry -/

section

variable {added : List BufferEntry} {entry : BufferEntry}

theorem HoldsLatest.fresh {slot : Fin 10} (belongs : added.length % 10 = slot.val) :
    HoldsLatest (added ++ [entry]) slot entry := by
  refine .written added.length ?_ belongs ?_
  · rw [List.getElem?_append_right (Nat.le_refl _), Nat.sub_self]
    rfl
  · intro later after inside
    rw [List.length_append, List.length_singleton] at inside
    omega

theorem HoldsLatest.kept {slot : Fin 10} {held : BufferEntry} (holds : HoldsLatest added slot held)
    (elsewhere : added.length % 10 ≠ slot.val) : HoldsLatest (added ++ [entry]) slot held := by
  -- the new ordinal belongs to another slot, so only the old ones count
  have old : ∀ ordinal, ordinal < (added ++ [entry]).length → ordinal % 10 = slot.val →
      ordinal < added.length := by
    intro ordinal below belongs
    rw [List.length_append, List.length_singleton] at below
    rcases Nat.lt_succ_iff_lt_or_eq.mp below with earlier | last
    · exact earlier
    · rw [last] at belongs
      exact absurd belongs elsewhere
  cases holds with
  | written ordinal entryAt belongs latest =>
      obtain ⟨inside, _⟩ := List.getElem?_eq_some_iff.mp entryAt
      refine .written ordinal ?_ belongs ?_
      · rw [List.getElem?_append_left inside]
        exact entryAt
      · intro later after below laterBelongs
        exact latest later after (old later below laterBelongs) laterBelongs
  | unwritten never =>
      refine .unwritten ?_
      intro ordinal below belongs
      exact never ordinal (old ordinal below belongs) belongs

theorem RingAfter.init : RingAfter [] aesdCircularBufferInit :=
  { nextWrite := rfl
    fullFrom := by simp [aesdCircularBufferInit]
    startWhenPartial := fun _ => rfl
    startWhenFull := fun _ => rfl
    slots := fun _ => .unwritten fun ordinal below => absurd below (Nat.not_lt_zero ordinal) }

variable {buffer : CircularBuffer}

theorem RingAfter.nextWrite_addEntry (ring : RingAfter added buffer) (entry : BufferEntry) :
    (aesdCircularBufferAddEntry buffer entry).inOffs.val = (added.length + 1) % 10 := by
  rw [aesdCircularBufferAddEntry_inOffs, ring.nextWrite]
  omega

theorem RingAfter.fullFrom_addEntry (ring : RingAfter added buffer) (entry : BufferEntry) :
    (aesdCircularBufferAddEntry buffer entry).full = true ↔ 10 ≤ added.length + 1 := by
  have writeAt := ring.nextWrite
  by_cases last : 10 = buffer.inOffs.val + 1
  · simp only [aesdCircularBufferAddEntry, if_pos last, true_iff]
    omega
  · simp only [aesdCircularBufferAddEntry, if_neg last, ring.fullFrom]
    omega

theorem RingAfter.startWhenPartial_addEntry (ring : RingAfter added buffer) (entry : BufferEntry)
    (few : added.length + 1 < 10) : (aesdCircularBufferAddEntry buffer entry).outOffs = 0 := by
  have partly : ¬buffer.full = true := by
    rw [ring.fullFrom]
    omega
  simp only [aesdCircularBufferAddEntry, if_neg partly]
  exact ring.startWhenPartial (by omega)

theorem RingAfter.startWhenFull_addEntry (ring : RingAfter added buffer) (entry : BufferEntry)
    (many : 10 ≤ added.length + 1) :
    (aesdCircularBufferAddEntry buffer entry).outOffs =
      (aesdCircularBufferAddEntry buffer entry).inOffs := by
  have writeAt := ring.nextWrite
  apply Fin.ext
  rw [ring.nextWrite_addEntry entry]
  by_cases full : buffer.full = true
  · have start := congrArg Fin.val (ring.startWhenFull (ring.fullFrom.mp full))
    simp only [aesdCircularBufferAddEntry, if_pos full, Fin.ofNat]
    omega
  · -- the tenth addition: both indices are at the first slot
    have before : ¬10 ≤ added.length := mt ring.fullFrom.mpr full
    have start := congrArg Fin.val (ring.startWhenPartial (by omega))
    simp only [aesdCircularBufferAddEntry, if_neg full, start]
    change 0 = (added.length + 1) % 10
    omega

theorem RingAfter.slots_addEntry (ring : RingAfter added buffer) (entry : BufferEntry)
    (slot : Fin 10) :
    HoldsLatest (added ++ [entry]) slot ((aesdCircularBufferAddEntry buffer entry).entry slot) := by
  simp only [aesdCircularBufferAddEntry]
  by_cases here : slot = buffer.inOffs
  · rw [here, Function.update_self]
    exact .fresh ring.nextWrite.symm
  · rw [Function.update_of_ne here]
    refine (ring.slots slot).kept ?_
    intro same
    exact here (Fin.ext (same.symm.trans ring.nextWrite.symm))

theorem RingAfter.addEntry (ring : RingAfter added buffer) (entry : BufferEntry) :
    RingAfter (added ++ [entry]) (aesdCircularBufferAddEntry buffer entry) := by
  have grown : (added ++ [entry]).length = added.length + 1 := by
    rw [List.length_append, List.length_singleton]
  constructor
  · rw [grown]
    exact ring.nextWrite_addEntry entry
  · rw [grown]
    exact ring.fullFrom_addEntry entry
  · rw [grown]
    exact ring.startWhenPartial_addEntry entry
  · rw [grown]
    exact ring.startWhenFull_addEntry entry
  · exact ring.slots_addEntry entry

end

theorem RingAfter.addEntries (added : List BufferEntry) : RingAfter added (addEntries added) := by
  induction added using List.reverseRecOn with
  | nil => exact .init
  | append_singleton added entry ih =>
      rw [addEntries_append_singleton]
      exact ih.addEntry entry

/-! ### The retained entries -/

/-- Oldest first. -/
def retainedOrdinals (number : Nat) : List Nat :=
  List.range' (number - 10) (min number 10)

theorem retainedOrdinals_length (number : Nat) :
    (retainedOrdinals number).length = min number 10 := by
  rw [retainedOrdinals, List.length_range']

theorem mem_retainedOrdinals {number ordinal : Nat} :
    ordinal ∈ retainedOrdinals number ↔ number - 10 ≤ ordinal ∧ ordinal < number := by
  rw [retainedOrdinals, List.mem_range'_1]
  omega

theorem retainedSlots_nodup (number : Nat) :
    ((retainedOrdinals number).map (Fin.ofNat 10)).Nodup := by
  refine List.Nodup.map_on ?_ List.nodup_range'
  intro left leftMember right rightMember same
  have values := congrArg Fin.val same
  have leftWithin := mem_retainedOrdinals.mp leftMember
  have rightWithin := mem_retainedOrdinals.mp rightMember
  simp only [Fin.ofNat] at values
  omega

section

variable {added : List BufferEntry} {buffer : CircularBuffer}

/-- Ordinals of one slot are ten apart, so among the retained ones only one
belongs to it. -/
theorem HoldsLatest.retained {ordinal : Nat} {held : BufferEntry}
    (holds : HoldsLatest added (Fin.ofNat 10 ordinal) held)
    (retained : ordinal ∈ retainedOrdinals added.length) : added[ordinal]? = some held := by
  obtain ⟨recent, inside⟩ := mem_retainedOrdinals.mp retained
  have belongsHere : ordinal % 10 = (Fin.ofNat 10 ordinal).val := rfl
  cases holds with
  | written written entryAt belongs latest =>
      obtain ⟨writtenInside, _⟩ := List.getElem?_eq_some_iff.mp entryAt
      have same : written = ordinal := by
        by_contra different
        rcases Nat.lt_or_gt_of_ne different with earlier | later
        · exact latest ordinal earlier inside belongsHere
        · omega
      rw [← same]
      exact entryAt
  | unwritten never => exact absurd belongsHere (never ordinal inside)

theorem RingAfter.entryAt (ring : RingAfter added buffer) {ordinal : Nat}
    (retained : ordinal ∈ retainedOrdinals added.length) :
    added[ordinal]? = some (buffer.entry (Fin.ofNat 10 ordinal)) :=
  (ring.slots (Fin.ofNat 10 ordinal)).retained retained

end

/-! ### The search -/

/-- The search goes over the slots in order, over all of them when it finds
nothing, and otherwise up to the one it returns. -/
structure Searches (order visited : List (Fin 10)) (lookup : FposLookup) : Prop where
  inOrder : visited <+: order
  exhausted : lookup.entry = none → visited = order
  stopped : ∀ slot, lookup.entry = some slot → visited.getLast? = some slot

theorem Searches.found {slot : Fin 10} {later : List (Fin 10)} {lookup : FposLookup}
    (found : lookup.entry = some slot) : Searches (slot :: later) [slot] lookup := by
  constructor
  · exact ⟨later, rfl⟩
  · intro missing
    cases found.symm.trans missing
  · intro other same
    rw [← same, found]
    rfl

theorem Searches.passed {slot : Fin 10} {order visited : List (Fin 10)} {lookup : FposLookup}
    (searches : Searches order visited lookup) :
    Searches (slot :: order) (slot :: visited) lookup := by
  constructor
  · exact List.cons_prefix_cons.mpr ⟨rfl, searches.inOrder⟩
  · intro missing
    rw [searches.exhausted missing]
  · intro last found
    rw [List.getLast?_cons, searches.stopped last found]
    rfl

theorem visitedLoop_searches (buffer : CircularBuffer) (charOffset rounds : Nat) :
    ∀ entryCounter totalCharSize,
      Searches ((List.range' entryCounter rounds).map (Fin.ofNat 10))
        (visitedLoop buffer charOffset rounds entryCounter totalCharSize)
        (findEntryLoop buffer charOffset rounds entryCounter totalCharSize) := by
  induction rounds with
  | zero =>
      intro entryCounter totalCharSize
      exact ⟨List.prefix_refl [], fun _ => rfl, by intro slot found; cases found⟩
  | succ rounds ih =>
      intro entryCounter totalCharSize
      simp only [visitedLoop, findEntryLoop, List.range'_succ, List.map_cons]
      by_cases inside : charOffset <
          unsignedInt (totalCharSize + (buffer.entry (Fin.ofNat 10 entryCounter)).size)
      · rw [if_pos inside, if_pos inside]
        exact .found rfl
      · rw [if_neg inside, if_neg inside]
        exact (ih _ _).passed

section

variable {added : List BufferEntry} {buffer : CircularBuffer}

theorem RingAfter.rounds (ring : RingAfter added buffer) :
    (if buffer.full then 10 + buffer.inOffs.val else buffer.inOffs.val) - buffer.outOffs.val =
      min added.length 10 := by
  have writeAt := ring.nextWrite
  by_cases full : buffer.full = true
  · have many := ring.fullFrom.mp full
    rw [if_pos full, ring.startWhenFull many]
    omega
  · have few : added.length < 10 := Nat.lt_of_not_le (mt ring.fullFrom.mpr full)
    rw [if_neg full, ring.startWhenPartial few]
    change buffer.inOffs.val - 0 = _
    omega

theorem RingAfter.loopSlots (ring : RingAfter added buffer) :
    (List.range' buffer.outOffs.val (min added.length 10)).map (Fin.ofNat 10) =
      (retainedOrdinals added.length).map (Fin.ofNat 10) := by
  unfold retainedOrdinals
  by_cases many : 10 ≤ added.length
  · rw [ring.startWhenFull many, ring.nextWrite, List.range'_eq_map_range,
      List.range'_eq_map_range, List.map_map, List.map_map]
    apply List.map_congr_left
    intro index _
    apply Fin.ext
    simp only [Function.comp_apply, Fin.ofNat]
    omega
  · have start := congrArg Fin.val (ring.startWhenPartial (Nat.lt_of_not_le many))
    have first : added.length - 10 = 0 := by omega
    rw [first, start]
    rfl

theorem RingAfter.searches (ring : RingAfter added buffer) (charOffset : Nat) :
    Searches ((retainedOrdinals added.length).map (Fin.ofNat 10))
      (visitedSlots buffer charOffset)
      (aesdCircularBufferFindEntryOffsetForFpos buffer charOffset) := by
  have searches := visitedLoop_searches buffer charOffset (min added.length 10)
    buffer.outOffs.val 0
  rw [ring.loopSlots] at searches
  unfold visitedSlots aesdCircularBufferFindEntryOffsetForFpos
  simp only [ring.rounds]
  exact searches

theorem RingAfter.refBuff (ring : RingAfter added buffer) (full : buffer.full = true) :
    ∃ oldest, added[added.length - 10]? = some oldest ∧ buffer.entry buffer.inOffs = oldest ∧
      aesdCircularBufferRefBuff buffer = oldest.buffptr := by
  have many := ring.fullFrom.mp full
  have retained : added.length - 10 ∈ retainedOrdinals added.length :=
    mem_retainedOrdinals.mpr ⟨Nat.le_refl _, by omega⟩
  have slotEq : Fin.ofNat 10 (added.length - 10) = buffer.inOffs := by
    apply Fin.ext
    rw [ring.nextWrite]
    simp only [Fin.ofNat]
    omega
  refine ⟨buffer.entry buffer.inOffs, ?_, rfl, rfl⟩
  rw [ring.entryAt retained, slotEq]

end

theorem ring_invariant (added : List BufferEntry) :
    RingAfter added (addEntries added) ∧
      (retainedOrdinals added.length).length = min added.length 10 ∧
      ((retainedOrdinals added.length).map (Fin.ofNat 10)).Nodup ∧
      (∀ ordinal, ordinal ∈ retainedOrdinals added.length →
        added[ordinal]? = some ((addEntries added).entry (Fin.ofNat 10 ordinal))) ∧
      (∀ charOffset, Searches ((retainedOrdinals added.length).map (Fin.ofNat 10))
        (visitedSlots (addEntries added) charOffset)
        (aesdCircularBufferFindEntryOffsetForFpos (addEntries added) charOffset)) ∧
      ((addEntries added).full = true → ∃ oldest, added[added.length - 10]? = some oldest ∧
        aesdCircularBufferRefBuff (addEntries added) = oldest.buffptr ∧
        (addEntries added).entry (addEntries added).inOffs = oldest ∧
        ∀ addEntry, (aesdCircularBufferAddEntry (addEntries added) addEntry).entry =
          Function.update (addEntries added).entry (addEntries added).inOffs addEntry) := by
  have ring := RingAfter.addEntries added
  refine ⟨ring, retainedOrdinals_length _, retainedSlots_nodup _, fun _ => ring.entryAt,
    ring.searches, ?_⟩
  intro full
  obtain ⟨oldest, entryAt, held, referenced⟩ := ring.refBuff full
  exact ⟨oldest, entryAt, referenced, held, fun _ => rfl⟩

end Aesd.Driver
