/-
What `removeItem` of the list of threads reports.

The walk is made with the member `head`, so each way out of the function has to
put it back and to return a status.  Only the way out behind the first node does
both: with the key at the first node no `return` is reached, without the key the
list is left at the null pointer where the walk has ended, and on an empty list
the first node is looked at without a check.
-/

import Aesd.Library.Execution
import Aesd.Server.LinkedList

namespace Aesd.Server

open BlockHeap
open Execution

/-- A missing key is answered with -1 and changes nothing; a key that is there
is answered with 0. -/
structure LinkedList.ReportsRemoval (list : LinkedList) (items : List Item)
    (commSocketPortNo : Int32) : Prop where
  absent : (∀ item, item ∈ items → item.hasKey commSocketPortNo = false) →
    ∃ after, list.removeItem commSocketPortNo = .ok (after, some (-1)) ∧
      after.head = list.head ∧ after.Represents items
  present : (∃ item, item ∈ items ∧ item.hasKey commSocketPortNo = true) →
    ∃ after, list.removeItem commSocketPortNo = .ok (after, some 0)

def keyBehindFirst (commSocketPortNo : Int32) : List Item → Bool
  | [] => false
  | first :: rest => !first.hasKey commSocketPortNo && rest.any (Item.hasKey commSocketPortNo)

namespace LinkedList

variable {list : LinkedList} {items : List Item} {commSocketPortNo : Int32}

/-! ### A key that is not there -/

theorem removeLoop_absent {heap : Heap Node} {initialhead prevItem fuel : Nat}
    {head : Option Nat} {entries : List (Nat × Node)}
    (walk : LinkedChain.Walk Node.next heap fuel head entries)
    (absent : ∀ item, item ∈ itemsOf entries → item.hasKey commSocketPortNo = false) :
    removeLoop commSocketPortNo initialhead heap fuel prevItem head =
      .ok ({ head := none, heap := heap }, some (-1)) := by
  induction walk generalizing prevItem with
  | finished fuel =>
      cases fuel with
      | zero => rfl
      | succ fuel => rfl
  | @step fuel block node rest found later ih =>
      rw [itemsOf_cons] at absent
      obtain ⟨here, behind⟩ := List.forall_mem_cons.mp absent
      have other : ¬commSocketPortNo = node.commSocketPortNo := of_decide_eq_false here
      simp only [removeLoop, found, if_neg other]
      exact ih behind

theorem Represents.removeItem_absent {first : Item} {rest : List Item}
    (represents : list.Represents (first :: rest))
    (absent : ∀ item, item ∈ first :: rest → item.hasKey commSocketPortNo = false) :
    list.removeItem commSocketPortNo = .ok ({ head := none, heap := list.heap }, some (-1)) := by
  obtain ⟨initialhead, node, entries, atHead, chain, rfl, rfl⟩ := represents.first
  obtain ⟨here, behind⟩ := List.forall_mem_cons.mp absent
  have other : ¬node.item.hasKey commSocketPortNo = true := by rw [here]; exact Bool.false_ne_true
  obtain ⟨fuel, walk, looped⟩ := removeItem_eq_loop atHead chain other
  exact looped.trans (removeLoop_absent walk behind)

theorem Represents.head_none (represents : list.Represents []) : list.head = none := by
  obtain ⟨head, heap⟩ := list
  obtain ⟨entries, nodes, same⟩ := represents
  have chain : LinkedChain.Chain Node.next heap head entries := nodes
  cases head with
  | none => rfl
  | some initialhead =>
      obtain ⟨node, rest, rfl, _, _⟩ := chain.eq_cons
      cases same

theorem removeItem_empty (empty : list.head = none) :
    list.removeItem commSocketPortNo = .error .badAccess := by
  simp only [removeItem, empty]

/-! ### What is reported -/

theorem reportsRemoval_nil (represents : list.Represents []) :
    ¬list.ReportsRemoval [] commSocketPortNo := by
  intro reports
  obtain ⟨after, returned, _⟩ := reports.absent (by intro item member; cases member)
  rw [removeItem_empty represents.head_none] at returned
  cases returned

theorem reportsRemoval_absent {first : Item} {rest : List Item}
    (represents : list.Represents (first :: rest))
    (absent : ∀ item, item ∈ first :: rest → item.hasKey commSocketPortNo = false) :
    ¬list.ReportsRemoval (first :: rest) commSocketPortNo := by
  intro reports
  obtain ⟨after, returned, sameHead, _⟩ := reports.absent absent
  rw [represents.removeItem_absent absent] at returned
  cases returned
  obtain ⟨initialhead, _, _, atHead, _⟩ := represents.first
  rw [atHead] at sameHead
  cases sameHead

theorem reportsRemoval_first {first : Item} {rest : List Item}
    (represents : list.Represents (first :: rest))
    (matching : first.hasKey commSocketPortNo = true) :
    ¬list.ReportsRemoval (first :: rest) commSocketPortNo := by
  intro reports
  obtain ⟨after, returned⟩ := reports.present ⟨first, List.mem_cons_self .., matching⟩
  obtain ⟨removed, silent, _⟩ := represents.removeItem_first matching
  cases returned.symm.trans silent

theorem reportsRemoval_behind {first : Item} {rest : List Item}
    (represents : list.Represents (first :: rest))
    (other : ¬first.hasKey commSocketPortNo = true)
    (present : ∃ item, item ∈ rest ∧ item.hasKey commSocketPortNo = true) :
    list.ReportsRemoval (first :: rest) commSocketPortNo := by
  obtain ⟨item, member, matching⟩ := present
  constructor
  · intro absent
    have missing := absent item (List.mem_cons_of_mem first member)
    cases missing.symm.trans matching
  · intro _
    obtain ⟨after, removed, _⟩ := represents.removeItem_behind other ⟨item, member, matching⟩
    exact ⟨after, removed⟩

theorem Represents.reportsRemoval_iff (represents : list.Represents items) :
    list.ReportsRemoval items commSocketPortNo ↔ keyBehindFirst commSocketPortNo items = true := by
  cases items with
  | nil =>
      constructor
      · intro reports
        exact absurd reports (reportsRemoval_nil represents)
      · intro impossible
        cases impossible
  | cons first rest =>
      simp only [keyBehindFirst, Bool.and_eq_true, Bool.not_eq_true', List.any_eq_true]
      constructor
      · intro reports
        have other : first.hasKey commSocketPortNo = false := by
          by_contra matching
          exact reportsRemoval_first represents (eq_true_of_ne_false matching) reports
        refine ⟨other, ?_⟩
        by_contra missing
        have absent : ∀ item, item ∈ first :: rest → item.hasKey commSocketPortNo = false := by
          refine List.forall_mem_cons.mpr ⟨other, ?_⟩
          intro item member
          by_contra matching
          exact missing ⟨item, member, eq_true_of_ne_false matching⟩
        exact reportsRemoval_absent represents absent reports
      · intro found
        have other : ¬first.hasKey commSocketPortNo = true := by
          rw [found.1]
          exact Bool.false_ne_true
        exact reportsRemoval_behind represents other found.2

/-! ### Lists that runs build -/

theorem addItem_refused (threadID : UInt64) (result : LinkedList × Option Int) :
    list.addItem false threadID commSocketPortNo ≠ .ok result := by
  intro returned
  unfold addItem at returned
  cases atHead : list.head with
  | none =>
      simp only [atHead] at returned
      cases returned
  | some initialHead =>
      simp only [atHead] at returned
      cases walked : lastItem list.heap list.heap.next initialHead with
      | error fault =>
          rw [walked] at returned
          cases returned
      | ok last =>
          rw [walked] at returned
          cases returned

/-- No call that comes back leaves anything but a chain of nodes, even if it has
lost what was on the list. -/
theorem Represents.call_represents (represents : list.Represents items) {call : ListCall}
    {after : LinkedList} {answer : ListAnswer} (returned : list.call call = .ok (after, answer)) :
    ∃ remaining, after.Represents remaining := by
  by_cases permitted : call.permitted items = true
  · have fits := represents.call_fits returned
    obtain ⟨next, _, again, _, holds⟩ := represents.call permitted fits
    cases returned.symm.trans again
    exact ⟨call.apply items, holds⟩
  · cases call with
    | addItem granted threadID commSocketPortNo =>
        have refused : granted = false := eq_false_of_ne_true permitted
        subst refused
        cases outcome : list.addItem false threadID commSocketPortNo with
        | error fault =>
            simp only [LinkedList.call, outcome] at returned
            cases returned
        | ok result => exact absurd outcome (addItem_refused threadID result)
    | removeItem commSocketPortNo =>
        have absent : ∀ item, item ∈ items → item.hasKey commSocketPortNo = false :=
          fun item member => eq_false_of_ne_true
            fun matching => permitted (List.any_eq_true.mpr ⟨item, member, matching⟩)
        cases items with
        | nil =>
            simp only [LinkedList.call, removeItem_empty represents.head_none] at returned
            cases returned
        | cons first rest =>
            simp only [LinkedList.call, represents.removeItem_absent absent] at returned
            cases returned
            exact ⟨[], [], .empty none, rfl⟩
    | getItem commSocketPortNo => exact absurd rfl permitted
    | countItems => exact absurd rfl permitted

theorem run_represents {heap : Heap Node}
    {steps : List (Transition LinkedList (ListCall × ListAnswer))}
    (run : Run (Succeeds LinkedList.call) { head := none, heap := heap } steps list) :
    ∃ items, list.Represents items := by
  induction run with
  | start => exact ⟨[], [], .empty none, rfl⟩
  | extend earlier last ih =>
      obtain ⟨items, represents⟩ := ih
      exact represents.call_represents last

theorem exists_run (heap : Heap Node) (items : List Item) :
    ∃ steps list, Run (Succeeds LinkedList.call) { head := none, heap := heap } steps list ∧
      list.Represents items := by
  induction items using List.reverseRecOn with
  | nil => exact ⟨[], { head := none, heap := heap }, .start, [], .empty none, rfl⟩
  | append_singleton items item ih =>
      obtain ⟨steps, list, run, represents⟩ := ih
      obtain ⟨after, added, holds⟩ := represents.addItem item.threadID item.commSocketPortNo
      have taken : Succeeds LinkedList.call list
          (.addItem true item.threadID item.commSocketPortNo, .status none) after := by
        simp only [Succeeds, LinkedList.call, added]
      exact ⟨_, after, run.extend taken, holds⟩

end LinkedList

theorem removal_reported_iff (heap : Heap Node)
    (steps : List (Transition LinkedList (ListCall × ListAnswer))) (list : LinkedList)
    (run : Run (Succeeds LinkedList.call) { head := none, heap := heap } steps list)
    (commSocketPortNo : Int32) :
    (∃ items, list.Represents items) ∧
      ∀ items, list.Represents items →
        (list.ReportsRemoval items commSocketPortNo ↔
          keyBehindFirst commSocketPortNo items = true) :=
  ⟨LinkedList.run_represents run, fun _ represents => represents.reportsRemoval_iff⟩

def firstAndSecond : List Item :=
  [{ threadID := 1, commSocketPortNo := 7 }, { threadID := 2, commSocketPortNo := 8 }]

theorem removal_of_second_reported :
    ∃ steps list, Run (Succeeds LinkedList.call) { head := none, heap := .empty } steps list ∧
      list.Represents firstAndSecond ∧ list.ReportsRemoval firstAndSecond 8 := by
  obtain ⟨steps, list, run, represents⟩ := LinkedList.exists_run .empty firstAndSecond
  have reported := (removal_reported_iff .empty steps list run 8).2 firstAndSecond represents
  exact ⟨steps, list, run, represents, reported.mpr (by decide)⟩

/-- An empty list, a key that is missing and the key of the first item. -/
theorem removals_not_reported :
    (LinkedList.removeItem { head := none, heap := .empty } 7).map Prod.snd =
        .error .badAccess ∧
      ∃ steps list, Run (Succeeds LinkedList.call) { head := none, heap := .empty } steps list ∧
        list.Represents firstAndSecond ∧
        list.removeItem 9 = .ok ({ head := none, heap := list.heap }, some (-1)) ∧
        ¬list.ReportsRemoval firstAndSecond 9 ∧
        (∃ after, list.removeItem 7 = .ok (after, none)) ∧
        ¬list.ReportsRemoval firstAndSecond 7 := by
  obtain ⟨steps, list, run, represents⟩ := LinkedList.exists_run .empty firstAndSecond
  have absent : ∀ item, item ∈ firstAndSecond → item.hasKey 9 = false := by decide
  have first : Item.hasKey 7 { threadID := 1, commSocketPortNo := 7 } = true := by decide
  obtain ⟨after, removed, _⟩ := represents.removeItem_first first
  refine ⟨rfl, steps, list, run, represents, represents.removeItem_absent absent, ?_,
    ⟨after, removed⟩, ?_⟩
  · exact LinkedList.reportsRemoval_absent represents absent
  · exact LinkedList.reportsRemoval_first represents first

end Aesd.Server
