/-
Blocks with identity.

A heap hands out every identifier at most once, remembers what each live block
holds, and keeps a log of the identifiers that were given back.  The three
facts that make the identifiers trustworthy are fields of the heap itself, so
an identifier cannot be reused or given back twice in any value of the type.

Nothing here fixes what a block holds: `Cell` is arbitrary.
-/

import Mathlib.Data.List.Nodup
import Mathlib.Data.List.Perm.Subperm
import Mathlib.Data.List.Range

namespace BlockHeap

structure Heap (Cell : Type) where
  next : Nat
  cell : Nat → Option Cell
  released : List Nat
  unused : ∀ block, next ≤ block → cell block = none
  releasedDead : ∀ block, block ∈ released → block < next ∧ cell block = none
  releasedOnce : released.Nodup

variable {Cell : Type}

def Heap.empty : Heap Cell :=
  { next := 0
    cell := fun _ => none
    released := []
    unused := fun _ _ => rfl
    releasedDead := by intro block member; cases member
    releasedOnce := List.nodup_nil }

def Heap.Live (heap : Heap Cell) (block : Nat) : Prop :=
  (heap.cell block).isSome = true

instance (heap : Heap Cell) (block : Nat) : Decidable (heap.Live block) :=
  inferInstanceAs (Decidable (_ = true))

theorem Heap.live_of_cell {heap : Heap Cell} {block : Nat} {contents : Cell}
    (found : heap.cell block = some contents) : heap.Live block := by
  unfold Live
  rw [found]
  rfl

theorem Heap.live_lt_next {heap : Heap Cell} {block : Nat}
    (live : heap.Live block) : block < heap.next := by
  by_contra outside
  have absent := heap.unused block (by omega)
  unfold Live at live
  rw [absent] at live
  cases live

theorem Heap.cell_next (heap : Heap Cell) : heap.cell heap.next = none :=
  heap.unused heap.next (Nat.le_refl _)

theorem Heap.live_of_cell_eq {heap other : Heap Cell} {block : Nat}
    (same : other.cell block = heap.cell block) :
    other.Live block ↔ heap.Live block := by
  unfold Live
  rw [same]

/-! ### Allocation -/

/-- The new block's identifier is `heap.next`. -/
def Heap.allocate (heap : Heap Cell) (contents : Cell) : Heap Cell :=
  { next := heap.next + 1
    cell := fun block => if block = heap.next then some contents else heap.cell block
    released := heap.released
    unused := by
      intro block outside
      rw [if_neg (by omega)]
      exact heap.unused block (by omega)
    releasedDead := by
      intro block member
      obtain ⟨before, dead⟩ := heap.releasedDead block member
      refine ⟨by omega, ?_⟩
      rw [if_neg (by omega)]
      exact dead
    releasedOnce := heap.releasedOnce }

@[simp] theorem Heap.allocate_cell (heap : Heap Cell) (contents : Cell) (block : Nat) :
    (heap.allocate contents).cell block =
      if block = heap.next then some contents else heap.cell block := rfl

@[simp] theorem Heap.allocate_next (heap : Heap Cell) (contents : Cell) :
    (heap.allocate contents).next = heap.next + 1 := rfl

@[simp] theorem Heap.allocate_released (heap : Heap Cell) (contents : Cell) :
    (heap.allocate contents).released = heap.released := rfl

theorem Heap.allocate_live {heap : Heap Cell} {block : Nat} (live : heap.Live block)
    (contents : Cell) : (heap.allocate contents).Live block := by
  have old := live_lt_next live
  unfold Live at live ⊢
  rw [allocate_cell, if_neg (by omega)]
  exact live

/-! ### Changing what a block holds -/

/-- Writing to a block that is not live does nothing. -/
def Heap.modify (heap : Heap Cell) (target : Nat) (change : Cell → Cell) : Heap Cell :=
  { next := heap.next
    cell := fun block =>
      if block = target then (heap.cell block).map change else heap.cell block
    released := heap.released
    unused := by
      intro block outside
      rw [heap.unused block outside]
      split <;> rfl
    releasedDead := by
      intro block member
      obtain ⟨before, dead⟩ := heap.releasedDead block member
      refine ⟨before, ?_⟩
      rw [dead]
      split <;> rfl
    releasedOnce := heap.releasedOnce }

@[simp] theorem Heap.modify_cell (heap : Heap Cell) (target : Nat)
    (change : Cell → Cell) (block : Nat) :
    (heap.modify target change).cell block =
      if block = target then (heap.cell block).map change else heap.cell block := rfl

@[simp] theorem Heap.modify_next (heap : Heap Cell) (target : Nat)
    (change : Cell → Cell) : (heap.modify target change).next = heap.next := rfl

@[simp] theorem Heap.modify_released (heap : Heap Cell) (target : Nat)
    (change : Cell → Cell) :
    (heap.modify target change).released = heap.released := rfl

theorem Heap.modify_live (heap : Heap Cell) (target : Nat) (change : Cell → Cell) (block : Nat) :
    (heap.modify target change).Live block ↔ heap.Live block := by
  unfold Live
  rw [modify_cell]
  by_cases same : block = target
  · rw [if_pos same, Option.isSome_map]
  · rw [if_neg same]

theorem Heap.modify_modify (heap : Heap Cell) (target : Nat) (first second : Cell → Cell) :
    (heap.modify target first).modify target second =
      heap.modify target fun contents => second (first contents) := by
  have cells : (fun block => if block = target then
        (if block = target then (heap.cell block).map first else heap.cell block).map second
      else if block = target then (heap.cell block).map first else heap.cell block) =
      fun block => if block = target then
        (heap.cell block).map fun contents => second (first contents)
      else heap.cell block := by
    funext block
    by_cases same : block = target
    · simp only [if_pos same, Option.map_map, Function.comp_def]
    · simp only [if_neg same]
  unfold modify
  simp only [cells]

/-! ### Giving a block back -/

/-- Only a live block can be given back: the proof is an argument. -/
def Heap.release (heap : Heap Cell) (target : Nat) (live : heap.Live target) : Heap Cell :=
  { next := heap.next
    cell := fun block => if block = target then none else heap.cell block
    released := heap.released ++ [target]
    unused := by
      intro block outside
      rw [heap.unused block outside]
      split <;> rfl
    releasedDead := by
      intro block member
      rcases List.mem_append.mp member with earlier | last
      · obtain ⟨before, dead⟩ := heap.releasedDead block earlier
        refine ⟨before, ?_⟩
        rw [dead]
        split <;> rfl
      · have same := List.mem_singleton.mp last
        subst block
        exact ⟨heap.live_lt_next live, if_pos rfl⟩
    releasedOnce := by
      -- a live block is not in the log, since everything in the log is dead
      have absent : target ∉ heap.released := by
        intro member
        have dead := (heap.releasedDead target member).2
        unfold Live at live
        rw [dead] at live
        cases live
      rw [List.nodup_append]
      refine ⟨heap.releasedOnce, List.nodup_singleton target, ?_⟩
      intro earlier member last lastMember same
      have lastEq := List.mem_singleton.mp lastMember
      subst lastEq
      subst same
      exact absent member }

@[simp] theorem Heap.release_cell (heap : Heap Cell) (target : Nat)
    (live : heap.Live target) (block : Nat) :
    (heap.release target live).cell block =
      if block = target then none else heap.cell block := rfl

@[simp] theorem Heap.release_next (heap : Heap Cell) (target : Nat)
    (live : heap.Live target) : (heap.release target live).next = heap.next := rfl

@[simp] theorem Heap.release_released (heap : Heap Cell) (target : Nat)
    (live : heap.Live target) :
    (heap.release target live).released = heap.released ++ [target] := rfl

theorem Heap.release_live (heap : Heap Cell) (target : Nat) (live : heap.Live target)
    (block : Nat) :
    (heap.release target live).Live block ↔ heap.Live block ∧ block ≠ target := by
  unfold Live
  rw [release_cell]
  by_cases same : block = target
  · simp [same]
  · simp [same]

/-! ### Counting blocks -/

/-- Every block that was handed out is live or has been given back. -/
def Heap.Logged (heap : Heap Cell) : Prop :=
  ∀ block, block < heap.next → heap.Live block ∨ block ∈ heap.released

theorem Heap.empty_logged : (Heap.empty : Heap Cell).Logged := by
  intro block inside
  cases inside

theorem Heap.Logged.allocate {heap : Heap Cell} (logged : heap.Logged) (contents : Cell) :
    (heap.allocate contents).Logged := by
  intro block inside
  by_cases new : block = heap.next
  · left
    unfold Heap.Live
    rw [Heap.allocate_cell, if_pos new]
    rfl
  · rw [Heap.allocate_next] at inside
    rcases logged block (by omega) with live | gone
    · exact .inl (Heap.allocate_live live contents)
    · exact .inr gone

theorem Heap.Logged.modify {heap : Heap Cell} (logged : heap.Logged) (target : Nat)
    (change : Cell → Cell) : (heap.modify target change).Logged := by
  intro block inside
  rw [Heap.modify_live]
  exact logged block inside

theorem Heap.Logged.release {heap : Heap Cell} (logged : heap.Logged) {target : Nat}
    (live : heap.Live target) : (heap.release target live).Logged := by
  intro block inside
  rw [Heap.release_live, Heap.release_released, List.mem_append, List.mem_singleton]
  by_cases same : block = target
  · exact .inr (.inr same)
  · rcases logged block inside with still | gone
    · exact .inl ⟨still, same⟩
    · exact .inr (.inl gone)

theorem Heap.Logged.none_live_iff {heap : Heap Cell} (logged : heap.Logged) :
    (∀ block, ¬heap.Live block) ↔ heap.released.length = heap.next := by
  have below : heap.released ⊆ List.range heap.next :=
    fun block member => List.mem_range.mpr (heap.releasedDead block member).1
  have few := heap.releasedOnce.subperm below
  constructor
  · intro dead
    have all : List.range heap.next ⊆ heap.released := by
      intro block member
      exact (logged block (List.mem_range.mp member)).resolve_left (dead block)
    have many := (List.nodup_range.subperm all).length_le
    have atMost := few.length_le
    rw [List.length_range] at many atMost
    omega
  · intro same block live
    have perm := few.perm_of_length_le (by rw [List.length_range]; omega)
    have member := perm.mem_iff.mpr (List.mem_range.mpr (Heap.live_lt_next live))
    have dead := (heap.releasedDead block member).2
    unfold Heap.Live at live
    rw [dead] at live
    cases live

/-! ### Summaries of a sequence of operations

`Changes before after added freed` says all that later operations can see of a
sequence that allocated and gave back any number of blocks: of the new blocks
only the first may remain, holding `added`, and of the old ones those in
`freed` are gone. -/

structure Changes (before after : Heap Cell) (added : Option Cell) (freed : List Nat) :
    Prop where
  cell : ∀ block, after.cell block =
    if block = before.next then added
    else if block ∈ freed then none
    else before.cell block
  grows : before.next ≤ after.next
  log : ∃ extra, after.released = before.released ++ extra ∧
    ∀ block, block < before.next → (block ∈ extra ↔ block ∈ freed)

namespace Changes

variable {before middle after : Heap Cell} {added : Option Cell} {freed : List Nat}

theorem refl (heap : Heap Cell) : Changes heap heap none [] :=
  { cell := by
      intro block
      by_cases new : block = heap.next
      · rw [if_pos new, new]
        exact heap.cell_next
      · rw [if_neg new]
        simp
    grows := Nat.le_refl _
    log := ⟨[], by simp, by simp⟩ }

theorem cell_old (changes : Changes before after added freed) {block : Nat}
    (old : block < before.next) (kept : block ∉ freed) :
    after.cell block = before.cell block := by
  rw [changes.cell, if_neg (by omega), if_neg kept]

theorem cell_new (changes : Changes before after added freed) :
    after.cell before.next = added := by
  rw [changes.cell, if_pos rfl]

/-- A live block survives every sequence that does not give it back. -/
theorem cell_of_live (changes : Changes before after added freed) {block : Nat}
    {contents : Cell} (found : before.cell block = some contents) (kept : block ∉ freed) :
    after.cell block = some contents := by
  rw [changes.cell_old (Heap.live_lt_next (Heap.live_of_cell found)) kept]
  exact found

theorem live_iff (changes : Changes before after added freed) (block : Nat) :
    after.Live block ↔
      (block = before.next ∧ added.isSome = true) ∨ (before.Live block ∧ block ∉ freed) := by
  unfold Heap.Live
  rw [changes.cell]
  by_cases new : block = before.next
  · rw [if_pos new, new, before.cell_next]
    simp
  · rw [if_neg new]
    by_cases gone : block ∈ freed
    · simp [new, gone]
    · simp [new, gone]

theorem allocate (heap : Heap Cell) (contents : Cell) :
    Changes heap (heap.allocate contents) (some contents) [] :=
  { cell := by intro block; simp
    grows := by simp
    log := ⟨[], by simp, by simp⟩ }

theorem modify {contents : Cell} (changes : Changes before after (some contents) freed)
    (change : Cell → Cell) :
    Changes before (after.modify before.next change) (some (change contents)) freed :=
  { cell := by
      intro block
      rw [Heap.modify_cell, changes.cell]
      by_cases new : block = before.next
      · simp [new]
      · simp [new]
    grows := by simpa using changes.grows
    log := by simpa using changes.log }

theorem release_new {contents : Cell} (changes : Changes before after (some contents) freed)
    (live : after.Live before.next) :
    Changes before (after.release before.next live) none freed :=
  { cell := by
      intro block
      rw [Heap.release_cell, changes.cell]
      by_cases new : block = before.next
      · simp [new]
      · simp [new]
    grows := by simpa using changes.grows
    log := by
      obtain ⟨extra, released, members⟩ := changes.log
      refine ⟨extra ++ [before.next], by simp [released], ?_⟩
      intro block old
      rw [List.mem_append, members block old]
      simp only [List.mem_singleton, or_iff_left_iff_imp]
      omega }

theorem release_old {target : Nat} (changes : Changes before after added freed)
    (old : target < before.next) (live : after.Live target) :
    Changes before (after.release target live) added (freed ++ [target]) :=
  { cell := by
      intro block
      rw [Heap.release_cell, changes.cell]
      by_cases same : block = target
      · subst same
        rw [if_pos rfl, if_neg (by omega), if_pos (by simp)]
      · simp [same]
    grows := by simpa using changes.grows
    log := by
      obtain ⟨extra, released, members⟩ := changes.log
      refine ⟨extra ++ [target], by simp [released], ?_⟩
      intro block before
      rw [List.mem_append, List.mem_append, members block before] }

theorem trans_quiet (changes : Changes before middle added freed)
    (quiet : Changes middle after none []) : Changes before after added freed :=
  { cell := by
      intro block
      rw [quiet.cell, ← changes.cell]
      by_cases new : block = middle.next
      · rw [if_pos new, new]
        exact middle.cell_next.symm
      · simp [new]
    grows := Nat.le_trans changes.grows quiet.grows
    log := by
      obtain ⟨extra, released, members⟩ := changes.log
      obtain ⟨later, laterReleased, laterMembers⟩ := quiet.log
      refine ⟨extra ++ later, by rw [laterReleased, released, List.append_assoc], ?_⟩
      intro block old
      have notLater : block ∉ later := by
        intro member
        have impossible := (laterMembers block
          (Nat.lt_of_lt_of_le old changes.grows)).mp member
        cases impossible
      rw [List.mem_append, members block old, or_iff_left notLater] }

end Changes

end BlockHeap
