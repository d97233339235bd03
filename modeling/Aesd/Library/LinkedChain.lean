/-
Singly linked chains in a heap of blocks.

`link` says where the pointer to the next block stands in what a block holds.
A segment lists the blocks met on the way from one pointer to another, with
their contents; a chain is a segment up to the null pointer.  From a pointer
there is at most one chain, so a chain meets no block twice: that chains have
no cycles is a consequence of their being finite and not a further condition.

A loop along a chain is a recursion with a bound on its turns.  A walk is a chain
together with a bound that suffices, so that such loops are reasoned about by
induction on the walk.

Nothing here fixes what a block holds besides its link.
-/

import Mathlib.Data.List.Nodup
import Mathlib.Data.List.Perm.Subperm
import Mathlib.Data.List.Range
import Aesd.Library.BlockHeap

namespace LinkedChain

open BlockHeap

variable {Cell : Type}

inductive Segment (link : Cell → Option Nat) (heap : Heap Cell) :
    Option Nat → List (Nat × Cell) → Option Nat → Prop where
  | empty (pointer : Option Nat) : Segment link heap pointer [] pointer
  | cons {block : Nat} {contents : Cell} {rest : List (Nat × Cell)} {last : Option Nat}
      (found : heap.cell block = some contents)
      (tail : Segment link heap (link contents) rest last) :
      Segment link heap (some block) ((block, contents) :: rest) last

abbrev Chain (link : Cell → Option Nat) (heap : Heap Cell) (first : Option Nat)
    (entries : List (Nat × Cell)) : Prop :=
  Segment link heap first entries none

section

variable {link : Cell → Option Nat} {heap other : Heap Cell} {first last : Option Nat}
  {entries : List (Nat × Cell)}

theorem Segment.append_iff {front back : List (Nat × Cell)} :
    Segment link heap first (front ++ back) last ↔
      ∃ middle, Segment link heap first front middle ∧ Segment link heap middle back last := by
  constructor
  · intro whole
    induction front generalizing first with
    | nil => exact ⟨first, .empty first, whole⟩
    | cons entry front ih =>
        cases whole with
        | cons found tail =>
            obtain ⟨middle, before, after⟩ := ih tail
            exact ⟨middle, .cons found before, after⟩
  · intro parts
    obtain ⟨middle, before, after⟩ := parts
    induction before with
    | empty pointer => exact after
    | cons found tail ih => exact .cons found (ih after)

theorem Segment.of_cons {block : Nat} {contents : Cell} {rest : List (Nat × Cell)}
    (segment : Segment link heap first ((block, contents) :: rest) last) :
    first = some block ∧ heap.cell block = some contents ∧
      Segment link heap (link contents) rest last := by
  cases segment with
  | cons found tail => exact ⟨rfl, found, tail⟩

theorem Segment.found (segment : Segment link heap first entries last)
    {entry : Nat × Cell} (member : entry ∈ entries) : heap.cell entry.1 = some entry.2 := by
  induction segment with
  | empty pointer => cases member
  | cons found tail ih =>
      rcases List.mem_cons.mp member with here | later
      · rw [here]
        exact found
      · exact ih later

theorem Segment.lt_next (segment : Segment link heap first entries last)
    {entry : Nat × Cell} (member : entry ∈ entries) : entry.1 < heap.next :=
  Heap.live_lt_next (Heap.live_of_cell (segment.found member))

theorem Segment.frame (segment : Segment link heap first entries last)
    (same : ∀ entry, entry ∈ entries → other.cell entry.1 = heap.cell entry.1) :
    Segment link other first entries last := by
  induction segment with
  | empty pointer => exact .empty pointer
  | @cons block contents rest last found tail ih =>
      have here : other.cell block = some contents := by
        rw [same (block, contents) List.mem_cons_self]
        exact found
      exact .cons here (ih fun entry member => same entry (List.mem_cons_of_mem _ member))

theorem Segment.allocate (segment : Segment link heap first entries last) (contents : Cell) :
    Segment link (heap.allocate contents) first entries last := by
  apply segment.frame
  intro entry member
  have old := segment.lt_next member
  rw [Heap.allocate_cell, if_neg (by omega)]

theorem Segment.modify (segment : Segment link heap first entries last) {target : Nat}
    (outside : target ∉ entries.map Prod.fst) (change : Cell → Cell) :
    Segment link (heap.modify target change) first entries last := by
  apply segment.frame
  intro entry member
  have different : entry.1 ≠ target := by
    intro same
    exact outside (List.mem_map.mpr ⟨entry, member, same⟩)
  rw [Heap.modify_cell, if_neg different]

theorem Segment.release (segment : Segment link heap first entries last) {target : Nat}
    (outside : target ∉ entries.map Prod.fst) (live : heap.Live target) :
    Segment link (heap.release target live) first entries last := by
  apply segment.frame
  intro entry member
  have different : entry.1 ≠ target := by
    intro same
    exact outside (List.mem_map.mpr ⟨entry, member, same⟩)
  rw [Heap.release_cell, if_neg different]

/-! ### Chains have no cycles -/

theorem Chain.unique {others : List (Nat × Cell)} (chain : Chain link heap first entries)
    (another : Chain link heap first others) : entries = others := by
  induction entries generalizing first others with
  | nil =>
      cases chain
      cases another
      rfl
  | cons entry entries ih =>
      cases chain with
      | cons found tail =>
          cases another with
          | cons foundAgain rest =>
              cases found.symm.trans foundAgain
              rw [ih tail rest]

theorem Chain.nodup (chain : Chain link heap first entries) :
    (entries.map Prod.fst).Nodup := by
  induction entries generalizing first with
  | nil => exact List.nodup_nil
  | cons entry entries ih =>
      cases chain with
      | @cons block contents _ _ found tail =>
          rw [List.map_cons, List.nodup_cons]
          refine ⟨?_, ih tail⟩
          intro repeated
          -- the chain from the second visit would be the chain from the first
          obtain ⟨⟨again, old⟩, member, same⟩ := List.mem_map.mp repeated
          cases same
          obtain ⟨front, back, split⟩ := List.append_of_mem member
          rw [split] at tail
          obtain ⟨middle, _, visited⟩ := Segment.append_iff.mp tail
          cases visited with
          | cons foundAgain rest =>
              cases found.symm.trans foundAgain
              rw [← split] at tail
              have longer := congrArg List.length (Chain.unique tail rest)
              rw [split, List.length_append, List.length_cons] at longer
              omega

/-- A chain is no longer than the number of blocks there have been. -/
theorem Chain.length_le (chain : Chain link heap first entries) :
    entries.length ≤ heap.next := by
  have inside : entries.map Prod.fst ⊆ List.range heap.next := by
    intro block member
    obtain ⟨entry, present, same⟩ := List.mem_map.mp member
    rw [← same]
    exact List.mem_range.mpr (Segment.lt_next chain present)
  have few := (chain.nodup.subperm inside).length_le
  rw [List.length_map, List.length_range] at few
  exact few

theorem Chain.eq_nil (chain : Chain link heap none entries) : entries = [] := by
  cases chain
  rfl

theorem Chain.eq_cons {block : Nat} (chain : Chain link heap (some block) entries) :
    ∃ contents rest, entries = (block, contents) :: rest ∧
      heap.cell block = some contents ∧ Chain link heap (link contents) rest := by
  cases chain with
  | cons found tail => exact ⟨_, _, rfl, found, tail⟩

/-! ### Walks along a chain -/

/-- The bound allows for one turn at each block. -/
inductive Walk (link : Cell → Option Nat) (heap : Heap Cell) :
    Nat → Option Nat → List (Nat × Cell) → Prop where
  | finished (bound : Nat) : Walk link heap bound none []
  | step {bound block : Nat} {contents : Cell} {rest : List (Nat × Cell)}
      (found : heap.cell block = some contents)
      (later : Walk link heap bound (link contents) rest) :
      Walk link heap (bound + 1) (some block) ((block, contents) :: rest)

theorem Chain.walk_of_length_le {bound : Nat} (chain : Chain link heap first entries)
    (enough : entries.length ≤ bound) : Walk link heap bound first entries := by
  induction entries generalizing first bound with
  | nil =>
      cases chain
      exact .finished bound
  | cons entry rest ih =>
      obtain ⟨block, contents⟩ := entry
      obtain ⟨rfl, found, tail⟩ := chain.of_cons
      cases bound with
      | zero => cases enough
      | succ bound => exact .step found (ih tail (Nat.le_of_succ_le_succ enough))

theorem Chain.walk (chain : Chain link heap first entries) :
    Walk link heap heap.next first entries :=
  chain.walk_of_length_le chain.length_le

/-! ### Changes of a chain -/

theorem Chain.single {contents : Cell} (ends : link contents = none) :
    Chain link (heap.allocate contents) (some heap.next) [(heap.next, contents)] := by
  refine .cons (by simp) ?_
  rw [ends]
  exact .empty none

theorem Chain.append {front : List (Nat × Cell)} {block : Nat} {contents fresh : Cell}
    (chain : Chain link heap first (front ++ [(block, contents)])) {relink : Cell → Cell}
    (ends : link fresh = none) (points : link (relink contents) = some heap.next) :
    Chain link ((heap.allocate fresh).modify block relink) first
      (front ++ [(block, relink contents), (heap.next, fresh)]) := by
  have distinct := chain.nodup
  rw [List.map_append, List.nodup_append] at distinct
  have outside : block ∉ front.map Prod.fst := by
    intro member
    exact distinct.2.2 block member block (by simp) rfl
  have old : block < heap.next :=
    Segment.lt_next chain (List.mem_append_right front (List.mem_singleton_self _))
  obtain ⟨middle, before, after⟩ := Segment.append_iff.mp chain
  cases after with
  | cons found tail =>
      apply Segment.append_iff.mpr
      refine ⟨some block, (before.allocate fresh).modify outside relink, .cons ?_ ?_⟩
      · rw [Heap.modify_cell, if_pos rfl, Heap.allocate_cell, if_neg (by omega), found]
        rfl
      · rw [points]
        refine .cons ?_ ?_
        · rw [Heap.modify_cell, if_neg (by omega), Heap.allocate_cell, if_pos rfl]
        · rw [ends]
          exact .empty none

theorem Chain.release_first {block : Nat} {contents : Cell} {rest : List (Nat × Cell)}
    (chain : Chain link heap first ((block, contents) :: rest)) (live : heap.Live block) :
    Chain link (heap.release block live) (link contents) rest := by
  have distinct := chain.nodup
  rw [List.map_cons, List.nodup_cons] at distinct
  cases chain with
  | cons found tail => exact tail.release distinct.1 live

theorem Chain.unlink {front back : List (Nat × Cell)} {previous block : Nat}
    {contents removed : Cell}
    (chain : Chain link heap first (front ++ (previous, contents) :: (block, removed) :: back))
    {relink : Cell → Cell} (passes : link (relink contents) = link removed)
    (live : (heap.modify previous relink).Live block) :
    Chain link ((heap.modify previous relink).release block live) first
      (front ++ (previous, relink contents) :: back) := by
  have distinct := chain.nodup
  simp only [List.map_append, List.map_cons, List.nodup_append, List.nodup_cons, List.mem_cons,
    not_or] at distinct
  obtain ⟨_, ⟨⟨notSame, previousBehind⟩, blockBehind, _⟩, apart⟩ := distinct
  have previousBefore : previous ∉ front.map Prod.fst := by
    intro member
    exact apart previous member previous (Or.inl rfl) rfl
  have blockBefore : block ∉ front.map Prod.fst := by
    intro member
    exact apart block member block (Or.inr (Or.inl rfl)) rfl
  obtain ⟨middle, before, after⟩ := Segment.append_iff.mp chain
  cases after with
  | cons found tail =>
      have behind := (Segment.of_cons tail).2.2
      apply Segment.append_iff.mpr
      refine ⟨some previous, ?_, .cons ?_ ?_⟩
      · exact (before.modify previousBefore relink).release blockBefore live
      · rw [Heap.release_cell, if_neg notSame, Heap.modify_cell, if_pos rfl, found]
        rfl
      · rw [passes]
        exact (behind.modify previousBehind relink).release blockBehind live

end

end LinkedChain
