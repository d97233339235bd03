/-
What the list of threads gives back.

The destructor walks along the chain from `head` and frees every node it meets.
A node that was unlinked has been freed by `removeItem`; a removal that does not
find its key leaves `head` null, and what was on the list is on no chain any
more.
-/

import Aesd.Server.ListRemoval

namespace Aesd.Server

open BlockHeap
open Execution
open LinkedChain

/-! ### Constructor and destructor -/

def LinkedList.ofItem (heap : Heap Node) (granted : Bool) (threadID : UInt64)
    (commSocketPortNo : Int32) : Except ListFault LinkedList :=
  if granted then
    .ok { head := some heap.next
          heap := heap.allocate
            { threadID := threadID, commSocketPortNo := commSocketPortNo, next := none } }
  else .error .terminated

def destroyLoop : Heap Node → Nat → Option Nat → Except ListFault (Heap Node)
  | heap, _, none => .ok heap
  | _, 0, some _ => .error .endless
  | heap, fuel + 1, some delItem =>
      match heap.cell delItem with
      | none => .error .badAccess
      | some node =>
          match freeNode heap delItem with
          | .error fault => .error fault
          | .ok heap => destroyLoop heap fuel node.next

def LinkedList.destroy (list : LinkedList) : Except ListFault (Heap Node) :=
  destroyLoop list.heap list.heap.next list.head

/-! ### Blocks handed out and given back -/

/-- From `before` to `after`, so many blocks were handed out and so many given
back. -/
structure Handed (before after : Heap Node) (allocated freed : Nat) : Prop where
  next : after.next = before.next + allocated
  released : after.released.length = before.released.length + freed
  logged : before.Logged → after.Logged

theorem freeNode_handed {heap after : Heap Node} {block : Nat}
    (freed : freeNode heap block = .ok after) : Handed heap after 0 1 := by
  unfold freeNode at freed
  split at freed
  · cases freed
    refine ⟨rfl, ?_, fun logged => logged.release _⟩
    rw [Heap.release_released, List.length_append]
    rfl
  · cases freed

theorem storeNext_handed {heap after : Heap Node} {block : Nat} {next : Option Nat}
    (stored : storeNext heap block next = .ok after) : Handed heap after 0 0 := by
  unfold storeNext at stored
  split at stored
  · cases stored
    exact ⟨rfl, rfl, fun logged => logged.modify _ _⟩
  · cases stored

theorem Handed.trans {first second third : Heap Node} {allocated freed more moreFreed : Nat}
    (before : Handed first second allocated freed) (after : Handed second third more moreFreed) :
    Handed first third (allocated + more) (freed + moreFreed) where
  next := by rw [after.next, before.next, Nat.add_assoc]
  released := by rw [after.released, before.released, Nat.add_assoc]
  logged := fun logged => after.logged (before.logged logged)

namespace LinkedList

variable {list after : LinkedList} {items : List Item} {commSocketPortNo : Int32}
  {status : Option Int}

theorem addItem_handed {threadID : UInt64}
    (added : list.addItem true threadID commSocketPortNo = .ok (after, status)) :
    Handed list.heap after.heap 1 0 := by
  have allocates : ∀ node : Node, Handed list.heap (list.heap.allocate node) 1 0 :=
    fun node => ⟨rfl, rfl, fun logged => logged.allocate node⟩
  unfold addItem at added
  cases atHead : list.head with
  | none =>
      simp only [atHead, if_true] at added
      cases added
      exact allocates _
  | some initialHead =>
      simp only [atHead, if_true] at added
      split at added
      · cases added
      · split at added
        · cases added
        · rename_i stored
          cases added
          exact (allocates _).trans (storeNext_handed stored)

theorem removeLoop_handed {initialhead : Nat} {heap : Heap Node} (fuel : Nat) :
    ∀ {prevItem : Nat} {head : Option Nat},
      removeLoop commSocketPortNo initialhead heap fuel prevItem head = .ok (after, status) →
      status ≠ some (-1) → Handed heap after.heap 0 1 := by
  induction fuel with
  | zero =>
      intro prevItem head removed found
      cases head with
      | none =>
          cases removed
          exact absurd rfl found
      | some block => cases removed
  | succ fuel ih =>
      intro prevItem head removed found
      cases head with
      | none =>
          cases removed
          exact absurd rfl found
      | some block =>
          simp only [removeLoop] at removed
          split at removed
          · cases removed
          · split at removed
            · split at removed
              · cases removed
              · rename_i stored
                split at removed
                · cases removed
                · rename_i freed
                  cases removed
                  exact (storeNext_handed stored).trans (freeNode_handed freed)
            · exact ih removed found

theorem removeItem_handed
    (removed : list.removeItem commSocketPortNo = .ok (after, status))
    (found : status ≠ some (-1)) : Handed list.heap after.heap 0 1 := by
  unfold removeItem at removed
  split at removed
  · cases removed
  · split at removed
    · cases removed
    · split at removed
      · split at removed
        · cases removed
        · rename_i freed
          cases removed
          exact freeNode_handed freed
      · exact removeLoop_handed _ removed found

theorem destroyLoop_eq (entries : List (Nat × Node)) :
    ∀ {heap : Heap Node} {fuel : Nat} {head : Option Nat},
      Chain Node.next heap head entries → entries.length ≤ fuel →
      ∃ last, destroyLoop heap fuel head = .ok last ∧ Handed heap last 0 entries.length := by
  induction entries with
  | nil =>
      intro heap fuel head chain _
      cases chain
      refine ⟨heap, ?_, rfl, rfl, id⟩
      cases fuel with
      | zero => rfl
      | succ fuel => rfl
  | cons entry rest ih =>
      intro heap fuel head chain enough
      obtain ⟨block, node⟩ := entry
      obtain ⟨rfl, found, _⟩ := chain.of_cons
      have live : heap.Live block := Heap.live_of_cell found
      cases fuel with
      | zero => cases enough
      | succ fuel =>
          have freed : freeNode heap block = .ok (heap.release block live) := by
            unfold freeNode
            rw [dif_pos live]
          obtain ⟨last, destroyed, handed⟩ := ih (chain.release_first live)
            (Nat.le_of_succ_le_succ enough)
          refine ⟨last, ?_, ?_⟩
          · simp only [destroyLoop, found, freed]
            exact destroyed
          · have both := (freeNode_handed freed).trans handed
            rw [Nat.add_comm 1] at both
            exact both

theorem Represents.destroy (represents : list.Represents items) :
    ∃ last, list.destroy = .ok last ∧ Handed list.heap last 0 items.length := by
  obtain ⟨entries, nodes, rfl⟩ := represents
  have chain : Chain Node.next list.heap list.head entries := nodes
  unfold itemsOf
  rw [List.length_map]
  exact destroyLoop_eq entries chain chain.length_le

/-! ### Every block is on the list, given back or lost -/

/-- `lost` nodes are neither freed nor on the list. -/
structure Balanced (list : LinkedList) (items : List Item) (lost : Nat) : Prop where
  represents : list.Represents items
  logged : list.heap.Logged
  balance : list.heap.next = list.heap.released.length + items.length + lost

theorem Balanced.addItem {threadID : UInt64} {lost : Nat} (balanced : list.Balanced items lost)
    (added : list.addItem true threadID commSocketPortNo = .ok (after, status)) :
    status = none ∧
      after.Balanced (items ++ [{ threadID := threadID, commSocketPortNo := commSocketPortNo }])
        lost := by
  obtain ⟨other, again, represents⟩ := balanced.represents.addItem threadID commSocketPortNo
  have handed := addItem_handed added
  rw [added] at again
  cases again
  refine ⟨rfl, represents, handed.logged balanced.logged, ?_⟩
  have balance := balanced.balance
  rw [handed.next, handed.released, List.length_append]
  simp only [List.length_singleton]
  omega

theorem Represents.removeItem_status_ne (represents : list.Represents items)
    (present : ∃ item, item ∈ items ∧ item.hasKey commSocketPortNo = true)
    (removed : list.removeItem commSocketPortNo = .ok (after, status)) :
    status ≠ some (-1) := by
  obtain ⟨item, member, matching⟩ := present
  cases items with
  | nil => cases member
  | cons first rest =>
      by_cases key : first.hasKey commSocketPortNo = true
      · obtain ⟨other, again, _⟩ := represents.removeItem_first key
        rw [removed] at again
        cases again
        decide
      · have behind : item ∈ rest := by
          rcases List.mem_cons.mp member with here | behind
          · exact absurd (here ▸ matching) key
          · exact behind
        obtain ⟨other, again, _⟩ := represents.removeItem_behind key ⟨item, behind, matching⟩
        rw [removed] at again
        cases again
        decide

theorem Balanced.removeItem_present {lost : Nat} (balanced : list.Balanced items lost)
    (present : ∃ item, item ∈ items ∧ item.hasKey commSocketPortNo = true)
    (removed : list.removeItem commSocketPortNo = .ok (after, status)) :
    status ≠ some (-1) ∧
      after.Balanced (items.eraseP (Item.hasKey commSocketPortNo)) lost := by
  have balance := balanced.balance
  have found := balanced.represents.removeItem_status_ne present removed
  obtain ⟨other, _, again, represents⟩ := balanced.represents.removeItem present
  have handed := removeItem_handed removed found
  rw [removed] at again
  cases again
  refine ⟨found, represents, handed.logged balanced.logged, ?_⟩
  obtain ⟨item, member, matching⟩ := present
  have nonempty := List.length_pos_of_mem member
  rw [handed.next, handed.released, List.length_eraseP_of_mem member matching]
  omega

theorem Balanced.removeItem_absent {lost : Nat} (balanced : list.Balanced items lost)
    (absent : ∀ item, item ∈ items → item.hasKey commSocketPortNo = false)
    (removed : list.removeItem commSocketPortNo = .ok (after, status)) :
    status = some (-1) ∧ 0 < items.length ∧ after.Balanced [] (lost + items.length) := by
  obtain ⟨represents, logged, balance⟩ := balanced
  cases items with
  | nil =>
      rw [removeItem_empty represents.head_none] at removed
      cases removed
  | cons first rest =>
      rw [represents.removeItem_absent absent] at removed
      cases removed
      refine ⟨rfl, Nat.succ_pos _, ⟨[], .empty none, rfl⟩, logged, ?_⟩
      change list.heap.next = list.heap.released.length + 0 + _
      omega

end LinkedList

/-! ### Runs -/

def ListAnswer.missed : ListAnswer → Bool
  | .status value => value == some (-1)
  | _ => false

theorem ListAnswer.missed_eq_false_iff (answer : ListAnswer) :
    answer.missed = false ↔ answer ≠ .status (some (-1)) := by
  cases answer with
  | status value => simp [ListAnswer.missed]
  | item address => simp [ListAnswer.missed]
  | count itemCount => simp [ListAnswer.missed]

namespace LinkedList

variable {list after : LinkedList} {items : List Item}

theorem Balanced.call {lost : Nat} {call : ListCall} {answer : ListAnswer}
    (balanced : list.Balanced items lost) (returned : list.call call = .ok (after, answer)) :
    ∃ remaining later, after.Balanced remaining later ∧
      (answer.missed = false → later = lost) ∧ (answer.missed = true → lost < later) := by
  cases call with
  | addItem granted threadID commSocketPortNo =>
      simp only [LinkedList.call] at returned
      split at returned
      · cases returned
      · rename_i other status added
        cases returned
        cases granted with
        | false => exact absurd added (addItem_refused threadID _)
        | true =>
            obtain ⟨rfl, later⟩ := balanced.addItem added
            exact ⟨_, lost, later, fun _ => rfl, by intro missed; cases missed⟩
  | removeItem commSocketPortNo =>
      simp only [LinkedList.call] at returned
      split at returned
      · cases returned
      · rename_i other status removed
        cases returned
        by_cases present : ∃ item, item ∈ items ∧ item.hasKey commSocketPortNo = true
        · obtain ⟨found, later⟩ := balanced.removeItem_present present removed
          refine ⟨_, lost, later, fun _ => rfl, ?_⟩
          intro missed
          exact absurd (eq_of_beq missed) found
        · have absent : ∀ item, item ∈ items → item.hasKey commSocketPortNo = false :=
            fun item member => eq_false_of_ne_true fun matching => present ⟨item, member, matching⟩
          obtain ⟨rfl, some, later⟩ := balanced.removeItem_absent absent removed
          refine ⟨_, lost + items.length, later, ?_, fun _ => by omega⟩
          intro kept
          cases kept
  | getItem commSocketPortNo =>
      simp only [LinkedList.call] at returned
      split at returned
      · cases returned
      · cases returned
        exact ⟨items, lost, balanced, fun _ => rfl, by intro missed; cases missed⟩
  | countItems =>
      simp only [LinkedList.call] at returned
      split at returned
      · cases returned
      · cases returned
        exact ⟨items, lost, balanced, fun _ => rfl, by intro missed; cases missed⟩

def Constructed (list : LinkedList) : Prop :=
  list = { head := none, heap := .empty } ∨
    ∃ threadID commSocketPortNo, ofItem .empty true threadID commSocketPortNo = .ok list

theorem Constructed.balanced (constructed : list.Constructed) :
    ∃ items, list.Balanced items 0 := by
  rcases constructed with rfl | ⟨threadID, commSocketPortNo, made⟩
  · exact ⟨[], ⟨[], .empty none, rfl⟩, Heap.empty_logged, rfl⟩
  · cases made
    exact ⟨_, ⟨[(0, _)], Chain.single rfl, rfl⟩, Heap.empty_logged.allocate _, rfl⟩

theorem run_balanced {start : LinkedList} (constructed : start.Constructed)
    {steps : List (Transition LinkedList (ListCall × ListAnswer))}
    (run : Run (Succeeds LinkedList.call) start steps list) :
    ∃ items lost, list.Balanced items lost ∧
      (lost = 0 ↔ ∀ taken, taken ∈ steps → taken.label.2.missed = false) := by
  induction run with
  | start =>
      obtain ⟨items, balanced⟩ := constructed.balanced
      refine ⟨items, 0, balanced, ?_, fun _ => rfl⟩
      intro nothing taken member
      cases member
  | @extend steps current next label earlier returned ih =>
      obtain ⟨items, lost, balanced, none⟩ := ih
      obtain ⟨remaining, later, balancedNext, kept, more⟩ := balanced.call returned
      refine ⟨remaining, later, balancedNext, ?_⟩
      cases missed : label.2.missed with
      | true =>
          have grown := more missed
          constructor
          · intro nothing
            omega
          · intro all
            have last := all ⟨current, label, next⟩
              (List.mem_append_right _ (List.mem_singleton_self _))
            exact absurd (missed.symm.trans last) (by decide)
      | false =>
          rw [kept missed, none]
          constructor
          · intro all taken member
            rcases List.mem_append.mp member with old | new
            · exact all taken old
            · rw [List.mem_singleton.mp new]
              exact missed
          · intro all taken member
            exact all taken (List.mem_append_left _ member)

end LinkedList

/-- After any calls that came back, on a list from either constructor, the
destructor comes to its end; and every node is given back, once, exactly when no
removal has missed its key. -/
theorem list_given_back_iff (start : LinkedList) (constructed : start.Constructed)
    (steps : List (Transition LinkedList (ListCall × ListAnswer))) (list : LinkedList)
    (run : Run (Succeeds LinkedList.call) start steps list) :
    ∃ heap, list.destroy = .ok heap ∧
      ((∀ block, ¬heap.Live block) ↔
        ∀ taken, taken ∈ steps → taken.label.2 ≠ .status (some (-1))) := by
  obtain ⟨items, lost, balanced, none⟩ := LinkedList.run_balanced constructed run
  obtain ⟨heap, destroyed, handed⟩ := balanced.represents.destroy
  refine ⟨heap, destroyed, ?_⟩
  have balance := balanced.balance
  rw [(handed.logged balanced.logged).none_live_iff, handed.next, handed.released]
  simp only [← ListAnswer.missed_eq_false_iff]
  rw [← none]
  -- what was handed out is given back, on the chain or lost; the chain is freed here
  omega

/-- Two items, one of them removed: the destructor gives back what is left. -/
theorem list_given_back_two_items :
    ∃ steps list heap,
      Run (Succeeds LinkedList.call) { head := none, heap := .empty } steps list ∧
        steps.length = 3 ∧ list.destroy = .ok heap ∧ ∀ block, ¬heap.Live block := by
  obtain ⟨steps, list, run, seen⟩ := execute_observe LinkedList.call
    { head := none, heap := .empty } [.addItem true 1 7, .addItem true 2 8, .removeItem 8]
    (fun steps _ => (steps.length, steps.all fun taken => !taken.label.2.missed))
    (3, true) (by decide +kernel)
  obtain ⟨counted, answered⟩ := Prod.mk.inj seen
  obtain ⟨heap, destroyed, back⟩ := list_given_back_iff _ (.inl rfl) steps list run
  refine ⟨steps, list, heap, run, counted, destroyed, back.mpr ?_⟩
  intro taken member
  have found := List.all_eq_true.mp answered taken member
  rw [Bool.not_eq_eq_eq_not, Bool.not_true] at found
  exact (ListAnswer.missed_eq_false_iff _).mp found

end Aesd.Server
