/-
The linked list of threads.

`addItem` and `removeItem` walk along the chain by moving the member `head`
itself and put it back at the end.  What each call does is compared with the
list of items it stands for: append at the end, delete the first item with the
key, find it, count.

A call that runs off the end of its body without a `return` has no status.
-/

import Mathlib.Data.List.Basic
import Aesd.Library.LinkedChain

namespace Aesd.Server

open BlockHeap
open LinkedChain

structure Node where
  threadID : UInt64
  commSocketPortNo : Int32
  next : Option Nat
deriving DecidableEq

structure LinkedList where
  head : Option Nat
  heap : Heap Node

/-- `terminated` is the `throw` with no exception, `endless` a walk that does
not come to a null pointer. -/
inductive ListFault where
  | badAccess
  | badFree
  | terminated
  | signedOverflow
  | endless
deriving DecidableEq

def int32Max : Nat := 2147483647

def freeNode (heap : Heap Node) (block : Nat) : Except ListFault (Heap Node) :=
  if live : heap.Live block then .ok (heap.release block live) else .error .badFree

def storeNext (heap : Heap Node) (block : Nat) (next : Option Nat) :
    Except ListFault (Heap Node) :=
  if heap.Live block then .ok (heap.modify block fun node => { node with next := next })
  else .error .badAccess

/-! ### The member functions

The walks are bounded by the number of blocks there have been. -/

namespace LinkedList

/-- The loop of `addItem`. -/
def lastItem (heap : Heap Node) : Nat → Nat → Except ListFault Nat
  | 0, _ => .error .endless
  | fuel + 1, head =>
      match heap.cell head with
      | none => .error .badAccess
      | some node =>
          match node.next with
          | none => .ok head
          | some next => lastItem heap fuel next

def addItem (list : LinkedList) (granted : Bool) (threadID : UInt64) (commSocketPortNo : Int32) :
    Except ListFault (LinkedList × Option Int) :=
  let item : Node := { threadID := threadID, commSocketPortNo := commSocketPortNo, next := none }
  match list.head with
  | some initialHead =>
      match lastItem list.heap list.heap.next initialHead with
      | .error fault => .error fault
      | .ok head =>
          -- what `malloc` returns is stored and used without a check
          if granted then
            match storeNext (list.heap.allocate item) head (some list.heap.next) with
            | .error fault => .error fault
            | .ok heap => .ok ({ head := some initialHead, heap := heap }, none)
          else .error .badAccess
  | none =>
      if granted then
        .ok ({ head := some list.heap.next, heap := list.heap.allocate item }, none)
      else .error .terminated

/-- The loop of `removeItem`; when it does not find the key, it leaves `head`
where the walk has ended. -/
def removeLoop (commSocketPortNo : Int32) (initialhead : Nat) (heap : Heap Node) :
    Nat → Nat → Option Nat → Except ListFault (LinkedList × Option Int)
  | _, _, none => .ok ({ head := none, heap := heap }, some (-1))
  | 0, _, some _ => .error .endless
  | fuel + 1, prevItem, some head =>
      match heap.cell head with
      | none => .error .badAccess
      | some node =>
          if commSocketPortNo = node.commSocketPortNo then
            match storeNext heap prevItem node.next with
            | .error fault => .error fault
            | .ok heap =>
                match freeNode heap head with
                | .error fault => .error fault
                | .ok heap => .ok ({ head := some initialhead, heap := heap }, some 0)
          else removeLoop commSocketPortNo initialhead heap fuel head node.next

def removeItem (list : LinkedList) (commSocketPortNo : Int32) :
    Except ListFault (LinkedList × Option Int) :=
  match list.head with
  | none => .error .badAccess
  | some initialhead =>
      match list.heap.cell initialhead with
      | none => .error .badAccess
      | some node =>
          if commSocketPortNo = node.commSocketPortNo then
            match freeNode list.heap initialhead with
            | .error fault => .error fault
            | .ok heap => .ok ({ head := node.next, heap := heap }, none)
          else
            removeLoop commSocketPortNo initialhead list.heap list.heap.next initialhead
              (some initialhead)

def countLoop (heap : Heap Node) : Nat → Nat → Option Nat → Except ListFault Nat
  | _, itemCount, none => .ok itemCount
  | 0, _, some _ => .error .endless
  | fuel + 1, itemCount, some item =>
      -- `++itemCount` on an `int32_t`
      if itemCount < int32Max then
        match heap.cell item with
        | none => .error .badAccess
        | some node => countLoop heap fuel (itemCount + 1) node.next
      else .error .signedOverflow

def countItems (list : LinkedList) : Except ListFault Nat :=
  countLoop list.heap list.heap.next 0 list.head

def getLoop (commSocketPortNo : Int32) (heap : Heap Node) :
    Nat → Option Nat → Except ListFault (Option Nat)
  | _, none => .ok none
  | 0, some _ => .error .endless
  | fuel + 1, some item =>
      match heap.cell item with
      | none => .error .badAccess
      | some node =>
          if commSocketPortNo = node.commSocketPortNo then .ok (some item)
          else getLoop commSocketPortNo heap fuel node.next

def getItem (list : LinkedList) (commSocketPortNo : Int32) : Except ListFault (Option Nat) :=
  getLoop commSocketPortNo list.heap list.heap.next list.head

end LinkedList

/-! ### The items a list stands for -/

structure Item where
  threadID : UInt64
  commSocketPortNo : Int32
deriving DecidableEq

def Node.item (node : Node) : Item :=
  { threadID := node.threadID, commSocketPortNo := node.commSocketPortNo }

def Item.hasKey (commSocketPortNo : Int32) (item : Item) : Bool :=
  commSocketPortNo = item.commSocketPortNo

theorem Node.item_hasKey {node : Node} {commSocketPortNo : Int32} :
    node.item.hasKey commSocketPortNo = true ↔ commSocketPortNo = node.commSocketPortNo :=
  decide_eq_true_iff

/-- The nodes from `head` on, with their addresses. -/
def LinkedList.Nodes (list : LinkedList) (entries : List (Nat × Node)) : Prop :=
  Chain Node.next list.heap list.head entries

def itemsOf (entries : List (Nat × Node)) : List Item :=
  entries.map fun entry => entry.2.item

theorem itemsOf_cons (entry : Nat × Node) (entries : List (Nat × Node)) :
    itemsOf (entry :: entries) = entry.2.item :: itemsOf entries := rfl

theorem present_later {commSocketPortNo : Int32} {entry : Nat × Node}
    {entries : List (Nat × Node)}
    (present : ∃ item, item ∈ itemsOf (entry :: entries) ∧ item.hasKey commSocketPortNo = true)
    (other : ¬entry.2.item.hasKey commSocketPortNo = true) :
    ∃ item, item ∈ itemsOf entries ∧ item.hasKey commSocketPortNo = true := by
  obtain ⟨item, member, matching⟩ := present
  rw [itemsOf_cons] at member
  rcases List.mem_cons.mp member with here | behind
  · rw [here] at matching
    exact absurd matching other
  · exact ⟨item, behind, matching⟩

def LinkedList.Represents (list : LinkedList) (items : List Item) : Prop :=
  ∃ entries, list.Nodes entries ∧ itemsOf entries = items

/-! ### What each call does to the items -/

namespace LinkedList

section

variable {heap : Heap Node} {entries : List (Nat × Node)} {list : LinkedList}
  {items : List Item}

theorem lastItem_eq {fuel head : Nat} {item : Option Nat}
    (walk : Walk Node.next heap fuel item entries) (start : item = some head) :
    ∃ front block node, entries = front ++ [(block, node)] ∧
      lastItem heap fuel head = .ok block := by
  induction walk generalizing head with
  | finished fuel => cases start
  | @step fuel block node rest found later ih =>
      cases start
      cases pointed : node.next with
      | none =>
          rw [pointed] at later
          cases later
          refine ⟨[], block, node, rfl, ?_⟩
          simp only [lastItem, found, pointed]
      | some next =>
          obtain ⟨front, last, lastNode, split, reached⟩ := ih pointed
          refine ⟨(block, node) :: front, last, lastNode, by rw [split, List.cons_append], ?_⟩
          simp only [lastItem, found, pointed, reached]

theorem storeNext_live {block : Nat} (live : heap.Live block) (next : Option Nat) :
    storeNext heap block next = .ok (heap.modify block fun node => { node with next := next }) := by
  unfold storeNext
  rw [if_pos live]

theorem Represents.addItem (represents : list.Represents items) (threadID : UInt64)
    (commSocketPortNo : Int32) :
    ∃ after, list.addItem true threadID commSocketPortNo = .ok (after, none) ∧
      after.Represents
        (items ++ [{ threadID := threadID, commSocketPortNo := commSocketPortNo }]) := by
  obtain ⟨head, heap⟩ := list
  obtain ⟨entries, nodes, rfl⟩ := represents
  have chain : Chain Node.next heap head entries := nodes
  cases head with
  | none =>
      have nothing : entries = [] := chain.eq_nil
      refine ⟨_, rfl, [(heap.next, _)], Chain.single rfl, ?_⟩
      rw [nothing]
      rfl
  | some initialHead =>
      obtain ⟨front, block, node, rfl, reached⟩ := lastItem_eq chain.walk rfl
      have live : heap.Live block :=
        Heap.live_of_cell (chain.found (List.mem_append_right front (List.mem_singleton_self _)))
      have extended : Chain Node.next ((heap.allocate
            { threadID := threadID, commSocketPortNo := commSocketPortNo, next := none }).modify
          block fun node => { node with next := some heap.next }) (some initialHead) _ :=
        chain.append rfl rfl
      refine ⟨{ head := some initialHead, heap := _ }, ?_, _, extended, ?_⟩
      · simp only [LinkedList.addItem, reached, if_true, storeNext_live (Heap.allocate_live live _)]
        rfl
      · simp [itemsOf, Node.item]

theorem removeLoop_eq {commSocketPortNo : Int32} {initialhead fuel : Nat} {item : Option Nat}
    {rest : List (Nat × Node)} (walk : Walk Node.next heap fuel item rest) :
    ∀ {front : List (Nat × Node)} {prevItem : Nat} {previous : Node},
      Chain Node.next heap (some initialhead) (front ++ (prevItem, previous) :: rest) →
      (∃ item, item ∈ itemsOf rest ∧ item.hasKey commSocketPortNo = true) →
      ∃ after entries,
        removeLoop commSocketPortNo initialhead heap fuel prevItem item =
          .ok ({ head := some initialhead, heap := after }, some 0) ∧
        Chain Node.next after (some initialhead) (front ++ entries) ∧
        itemsOf entries =
          previous.item :: (itemsOf rest).eraseP (Item.hasKey commSocketPortNo) := by
  induction walk with
  | finished fuel =>
      intro front prevItem previous _ present
      obtain ⟨item, member, _⟩ := present
      cases member
  | @step fuel block node rest found later ih =>
      intro front prevItem previous chain present
      have held : heap.cell prevItem = some previous :=
        chain.found (List.mem_append_right front (List.mem_cons_self ..))
      by_cases key : commSocketPortNo = node.commSocketPortNo
      · have live : (heap.modify prevItem fun previous =>
            { previous with next := node.next }).Live block := by
          rw [Heap.modify_live]
          exact Heap.live_of_cell found
        refine ⟨_, (prevItem, { previous with next := node.next }) :: rest, ?_,
          chain.unlink rfl live, ?_⟩
        · simp only [removeLoop, found, if_pos key, storeNext_live (Heap.live_of_cell held),
            freeNode, dif_pos live]
        · rw [itemsOf_cons, itemsOf_cons, List.eraseP_cons_of_pos (Node.item_hasKey.mpr key)]
          rfl
      · have other : ¬node.item.hasKey commSocketPortNo = true := mt Node.item_hasKey.mp key
        have whole : Chain Node.next heap (some initialhead)
            ((front ++ [(prevItem, previous)]) ++ (block, node) :: rest) := by
          rw [List.append_assoc]
          exact chain
        obtain ⟨after, entries, removed, kept, items⟩ := ih whole (present_later present other)
        refine ⟨after, (prevItem, previous) :: entries, ?_, ?_, ?_⟩
        · simp only [removeLoop, found, if_neg key, removed]
        · rw [List.append_assoc] at kept
          exact kept
        · rw [itemsOf_cons, itemsOf_cons, items, List.eraseP_cons_of_neg other]

theorem Represents.first {item : Item} (represents : list.Represents (item :: items)) :
    ∃ initialhead node rest, list.head = some initialhead ∧
      Chain Node.next list.heap (some initialhead) ((initialhead, node) :: rest) ∧
      node.item = item ∧ itemsOf rest = items := by
  obtain ⟨head, heap⟩ := list
  obtain ⟨entries, nodes, same⟩ := represents
  have chain : Chain Node.next heap head entries := nodes
  cases head with
  | none =>
      rw [chain.eq_nil] at same
      cases same
  | some initialhead =>
      obtain ⟨node, rest, rfl, _, _⟩ := chain.eq_cons
      rw [itemsOf_cons] at same
      obtain ⟨here, behind⟩ := List.cons.inj same
      exact ⟨initialhead, node, rest, rfl, chain, here, behind⟩

theorem Represents.removeItem_first {item : Item} (represents : list.Represents (item :: items))
    {commSocketPortNo : Int32} (matching : item.hasKey commSocketPortNo = true) :
    ∃ after, list.removeItem commSocketPortNo = .ok (after, none) ∧ after.Represents items := by
  obtain ⟨initialhead, node, rest, atHead, chain, rfl, rfl⟩ := represents.first
  have found := chain.found (List.mem_cons_self ..)
  have live : list.heap.Live initialhead := Heap.live_of_cell found
  have key : commSocketPortNo = node.commSocketPortNo := Node.item_hasKey.mp matching
  refine ⟨{ head := node.next, heap := list.heap.release initialhead live }, ?_, rest,
    chain.release_first live, rfl⟩
  simp only [LinkedList.removeItem, atHead, found, if_pos key, freeNode, dif_pos live]

/-- The key is not at the first node: the loop looks at that node once more and
goes on behind it. -/
theorem removeItem_eq_loop {commSocketPortNo : Int32} {initialhead : Nat} {node : Node}
    {rest : List (Nat × Node)} (atHead : list.head = some initialhead)
    (chain : Chain Node.next list.heap (some initialhead) ((initialhead, node) :: rest))
    (other : ¬node.item.hasKey commSocketPortNo = true) :
    ∃ fuel, Walk Node.next list.heap fuel node.next rest ∧ list.removeItem commSocketPortNo =
      removeLoop commSocketPortNo initialhead list.heap fuel initialhead node.next := by
  have key : ¬commSocketPortNo = node.commSocketPortNo := mt Node.item_hasKey.mpr other
  have walk := chain.walk
  generalize bound : list.heap.next = fuel at walk
  cases walk with
  | step found later =>
      refine ⟨_, later, ?_⟩
      simp only [LinkedList.removeItem, atHead, found, if_neg key, bound, removeLoop]

theorem Represents.removeItem_behind {item : Item} (represents : list.Represents (item :: items))
    {commSocketPortNo : Int32} (other : ¬item.hasKey commSocketPortNo = true)
    (present : ∃ item, item ∈ items ∧ item.hasKey commSocketPortNo = true) :
    ∃ after, list.removeItem commSocketPortNo = .ok (after, some 0) ∧
      after.Represents (item :: items.eraseP (Item.hasKey commSocketPortNo)) := by
  obtain ⟨initialhead, node, rest, atHead, chain, rfl, rfl⟩ := represents.first
  obtain ⟨fuel, walk, looped⟩ := removeItem_eq_loop atHead chain other
  have whole : Chain Node.next list.heap (some initialhead)
      ([] ++ (initialhead, node) :: rest) := chain
  obtain ⟨after, entries, removed, kept, items⟩ := removeLoop_eq walk whole present
  exact ⟨{ head := some initialhead, heap := after }, looped.trans removed, entries, kept, items⟩

theorem Represents.removeItem (represents : list.Represents items) {commSocketPortNo : Int32}
    (present : ∃ item, item ∈ items ∧ item.hasKey commSocketPortNo = true) :
    ∃ after status, list.removeItem commSocketPortNo = .ok (after, status) ∧
      after.Represents (items.eraseP (Item.hasKey commSocketPortNo)) := by
  obtain ⟨item, member, matching⟩ := present
  cases items with
  | nil => cases member
  | cons first rest =>
      by_cases key : first.hasKey commSocketPortNo = true
      · obtain ⟨after, removed, holds⟩ := represents.removeItem_first key
        rw [List.eraseP_cons_of_pos key]
        exact ⟨after, none, removed, holds⟩
      · have behind : item ∈ rest := by
          rcases List.mem_cons.mp member with here | behind
          · exact absurd (here ▸ matching) key
          · exact behind
        obtain ⟨after, removed, holds⟩ :=
          represents.removeItem_behind key ⟨item, behind, matching⟩
        rw [List.eraseP_cons_of_neg key]
        exact ⟨after, some 0, removed, holds⟩

theorem getLoop_eq {commSocketPortNo : Int32} {fuel : Nat} {item : Option Nat}
    (walk : Walk Node.next heap fuel item entries) :
    getLoop commSocketPortNo heap fuel item =
      .ok ((entries.find? fun entry => entry.2.item.hasKey commSocketPortNo).map Prod.fst) := by
  induction walk with
  | finished fuel =>
      cases fuel with
      | zero => rfl
      | succ fuel => rfl
  | @step fuel block node rest found later ih =>
      by_cases key : commSocketPortNo = node.commSocketPortNo
      · have first : node.item.hasKey commSocketPortNo = true := Node.item_hasKey.mpr key
        simp only [getLoop, found, if_pos key, List.find?_cons, first, Option.map_some]
      · have other : node.item.hasKey commSocketPortNo = false := decide_eq_false key
        simp only [getLoop, found, if_neg key, List.find?_cons, other]
        exact ih

theorem Nodes.getItem (nodes : list.Nodes entries) (commSocketPortNo : Int32) :
    list.getItem commSocketPortNo =
      .ok ((entries.find? fun entry => entry.2.item.hasKey commSocketPortNo).map Prod.fst) :=
  getLoop_eq (Chain.walk nodes)

theorem countLoop_eq {fuel itemCount : Nat} {item : Option Nat}
    (walk : Walk Node.next heap fuel item entries) (representable : itemCount ≤ int32Max) :
    countLoop heap fuel itemCount item =
      if itemCount + entries.length ≤ int32Max then .ok (itemCount + entries.length)
      else .error .signedOverflow := by
  induction walk generalizing itemCount with
  | finished fuel =>
      rw [List.length_nil, Nat.add_zero, if_pos representable]
      cases fuel with
      | zero => rfl
      | succ fuel => rfl
  | @step fuel block node rest found later ih =>
      have reordered : itemCount + (rest.length + 1) = itemCount + 1 + rest.length := by omega
      rw [List.length_cons, reordered]
      by_cases room : itemCount < int32Max
      · simp only [countLoop, if_pos room, found]
        exact ih room
      · simp only [countLoop, if_neg room]
        rw [if_neg (by omega)]

theorem Represents.countItems (represents : list.Represents items) :
    list.countItems =
      if items.length ≤ int32Max then .ok items.length else .error .signedOverflow := by
  obtain ⟨entries, nodes, rfl⟩ := represents
  have counted := countLoop_eq (Chain.walk nodes) (Nat.zero_le int32Max)
  rw [Nat.zero_add] at counted
  unfold itemsOf
  rw [List.length_map]
  exact counted

end

end LinkedList

/-! ### Runs -/

inductive ListCall where
  | addItem (granted : Bool) (threadID : UInt64) (commSocketPortNo : Int32)
  | removeItem (commSocketPortNo : Int32)
  | getItem (commSocketPortNo : Int32)
  | countItems
deriving DecidableEq

inductive ListAnswer where
  | status (value : Option Int)
  | item (address : Option Nat)
  | count (itemCount : Nat)

def LinkedList.call (list : LinkedList) : ListCall → Except ListFault (LinkedList × ListAnswer)
  | .addItem granted threadID commSocketPortNo =>
      match list.addItem granted threadID commSocketPortNo with
      | .error fault => .error fault
      | .ok (list, status) => .ok (list, .status status)
  | .removeItem commSocketPortNo =>
      match list.removeItem commSocketPortNo with
      | .error fault => .error fault
      | .ok (list, status) => .ok (list, .status status)
  | .getItem commSocketPortNo =>
      match list.getItem commSocketPortNo with
      | .error fault => .error fault
      | .ok address => .ok (list, .item address)
  | .countItems =>
      match list.countItems with
      | .error fault => .error fault
      | .ok itemCount => .ok (list, .count itemCount)

def ListCall.apply (items : List Item) : ListCall → List Item
  | .addItem _ threadID commSocketPortNo =>
      items ++ [{ threadID := threadID, commSocketPortNo := commSocketPortNo }]
  | .removeItem commSocketPortNo => items.eraseP (Item.hasKey commSocketPortNo)
  | .getItem _ => items
  | .countItems => items

/-- `malloc` succeeds, and what is removed is there. -/
def ListCall.permitted (items : List Item) : ListCall → Bool
  | .addItem granted _ _ => granted
  | .removeItem commSocketPortNo => items.any (Item.hasKey commSocketPortNo)
  | .getItem _ => true
  | .countItems => true

/-- What the call should answer.  Nothing is said here of a status. -/
def ListCall.Answered (list : LinkedList) (items : List Item) : ListCall → ListAnswer → Prop
  | .addItem .., .status _ => True
  | .removeItem _, .status _ => True
  | .getItem commSocketPortNo, .item address =>
      (address = none ↔ ∀ item, item ∈ items → item.hasKey commSocketPortNo = false) ∧
      ∃ entries, list.Nodes entries ∧ itemsOf entries = items ∧
        address =
          (entries.find? fun entry => entry.2.item.hasKey commSocketPortNo).map Prod.fst
  | .countItems, .count itemCount => itemCount = items.length
  | _, _ => False

def callsPermitted : List Item → List ListCall → Bool
  | _, [] => true
  | items, call :: calls => call.permitted items && callsPermitted (call.apply items) calls

/-- Every call returns with the right answer, and before and after each the
nodes from `head` on hold the items in order. -/
def LinkedList.Follows : LinkedList → List Item → List ListCall → Prop
  | list, items, [] => list.Represents items
  | list, items, call :: calls => list.Represents items ∧
      ∃ after answer, list.call call = .ok (after, answer) ∧ call.Answered after items answer ∧
        after.Follows (call.apply items) calls

/-- No count is asked for of more items than an `int32_t` can count. -/
def countsFit : List Item → List ListCall → Bool
  | _, [] => true
  | items, call :: calls =>
      (call != .countItems || items.length ≤ int32Max) && countsFit (call.apply items) calls

namespace LinkedList

variable {list : LinkedList} {items : List Item}

theorem Represents.call (represents : list.Represents items) {call : ListCall}
    (permitted : call.permitted items = true)
    (fits : (call != .countItems || items.length ≤ int32Max) = true) :
    ∃ after answer, list.call call = .ok (after, answer) ∧ call.Answered after items answer ∧
      after.Represents (call.apply items) := by
  cases call with
  | addItem granted threadID commSocketPortNo =>
      have granted : granted = true := permitted
      subst granted
      obtain ⟨after, added, holds⟩ := represents.addItem threadID commSocketPortNo
      refine ⟨after, .status none, ?_, trivial, holds⟩
      simp only [LinkedList.call, added]
  | removeItem commSocketPortNo =>
      have present := List.any_eq_true.mp permitted
      obtain ⟨after, status, removed, holds⟩ := represents.removeItem present
      refine ⟨after, .status status, ?_, trivial, holds⟩
      simp only [LinkedList.call, removed]
  | getItem commSocketPortNo =>
      obtain ⟨entries, nodes, same⟩ := represents
      refine ⟨list, .item _, ?_, ⟨?_, entries, nodes, same, rfl⟩, entries, nodes, same⟩
      · simp only [LinkedList.call, nodes.getItem]
      · rw [← same]
        unfold itemsOf
        rw [Option.map_eq_none_iff, List.find?_eq_none, List.forall_mem_map]
        simp only [Bool.not_eq_true]
  | countItems =>
      have few : items.length ≤ int32Max := by simpa using fits
      refine ⟨list, .count items.length, ?_, rfl, represents⟩
      simp only [LinkedList.call, represents.countItems, if_pos few]

theorem Represents.count_overflows (represents : list.Represents items)
    (many : ¬items.length ≤ int32Max) : list.call .countItems = .error .signedOverflow := by
  simp only [LinkedList.call, represents.countItems, if_neg many]

theorem Represents.call_fits (represents : list.Represents items) {call : ListCall}
    {after : LinkedList} {answer : ListAnswer} (returned : list.call call = .ok (after, answer)) :
    (call != .countItems || items.length ≤ int32Max) = true := by
  by_cases counts : call = .countItems
  · subst counts
    by_cases few : items.length ≤ int32Max
    · simpa using few
    · rw [represents.count_overflows few] at returned
      cases returned
  · simp [counts]

theorem Represents.follows_iff (represents : list.Represents items) {calls : List ListCall}
    (permitted : callsPermitted items calls = true) :
    list.Follows items calls ↔ countsFit items calls = true := by
  induction calls generalizing list items with
  | nil => exact ⟨fun _ => rfl, fun _ => represents⟩
  | cons call calls ih =>
      obtain ⟨first, later⟩ := Bool.and_eq_true_iff.mp permitted
      constructor
      · intro follows
        obtain ⟨_, after, answer, returned, _, rest⟩ := follows
        have fits := represents.call_fits returned
        obtain ⟨next, _, again, _, holds⟩ := represents.call first fits
        cases returned.symm.trans again
        exact Bool.and_eq_true_iff.mpr ⟨fits, (ih holds later).mp rest⟩
      · intro fits
        obtain ⟨fitsNow, fitsLater⟩ := Bool.and_eq_true_iff.mp fits
        obtain ⟨after, answer, returned, answered, holds⟩ := represents.call first fitsNow
        exact ⟨represents, after, answer, returned, answered, (ih holds later).mpr fitsLater⟩

end LinkedList

/-- Every run from an empty list. -/
theorem linked_list_follows_iff (heap : Heap Node) (calls : List ListCall)
    (permitted : callsPermitted [] calls = true) :
    LinkedList.Follows { head := none, heap := heap } [] calls ↔ countsFit [] calls = true := by
  have empty : LinkedList.Represents { head := none, heap := heap } [] := ⟨[], .empty none, rfl⟩
  exact empty.follows_iff permitted

/-- A key that is there twice; head, middle and last node are removed. -/
def sampleCalls : List ListCall :=
  [.addItem true 1 7, .addItem true 2 8, .addItem true 3 7, .addItem true 4 9, .countItems,
    .getItem 7, .removeItem 8, .removeItem 9, .removeItem 7, .getItem 7, .getItem 8, .countItems]

theorem linked_list_follows_sample :
    callsPermitted [] sampleCalls = true ∧
      LinkedList.Follows { head := none, heap := .empty } [] sampleCalls := by
  have permitted : callsPermitted [] sampleCalls = true := by decide
  have fits : countsFit [] sampleCalls = true := by decide
  exact ⟨permitted, (linked_list_follows_iff .empty sampleCalls permitted).mpr fits⟩

def addAndCount (number : Nat) : List ListCall :=
  List.replicate number (.addItem true 1 7) ++ [.countItems]

theorem addAndCount_succ (number : Nat) :
    addAndCount (number + 1) = .addItem true 1 7 :: addAndCount number := rfl

theorem callsPermitted_addAndCount (number : Nat) (items : List Item) :
    callsPermitted items (addAndCount number) = true := by
  induction number generalizing items with
  | zero => rfl
  | succ number ih =>
      rw [addAndCount_succ]
      exact Bool.and_eq_true_iff.mpr ⟨rfl, ih _⟩

theorem countsFit_addAndCount (number : Nat) (items : List Item)
    (fits : countsFit items (addAndCount number) = true) : items.length + number ≤ int32Max := by
  induction number generalizing items with
  | zero => simpa [addAndCount, countsFit] using fits
  | succ number ih =>
      rw [addAndCount_succ] at fits
      have few := ih _ (Bool.and_eq_true_iff.mp fits).2
      simp only [ListCall.apply, List.length_append, List.length_singleton] at few
      omega

/-- One item more than an `int32_t` can count. -/
theorem count_overflows_from_int32Max :
    callsPermitted [] (addAndCount (int32Max + 1)) = true ∧
      ¬LinkedList.Follows { head := none, heap := .empty } [] (addAndCount (int32Max + 1)) := by
  have permitted := callsPermitted_addAndCount (int32Max + 1) []
  refine ⟨permitted, ?_⟩
  intro follows
  have empty : LinkedList.Represents { head := none, heap := .empty } [] := ⟨[], .empty none, rfl⟩
  have few := countsFit_addAndCount (int32Max + 1) [] ((empty.follows_iff permitted).mp follows)
  rw [List.length_nil] at few
  omega

end Aesd.Server
