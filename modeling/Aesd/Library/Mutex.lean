/-
Mutexes of the threads library, and threads that guard a region with one.

A kind of mutex says what a call to lock or unlock answers and who holds the
mutex afterwards.  `Guarded` says that the threads in a region of their program
are exactly the holder; the rules below tell which moves keep it.
-/

import Mathlib.Logic.Function.Basic

namespace Mutex

variable {Thread : Type}

/-- `lock` has no answer while the caller waits. -/
structure Kind (Thread : Type) where
  lock : Option Thread → Thread → Option (Int × Option Thread)
  unlock : Option Thread → Thread → Int × Option Thread

/-- The default kind: whoever unlocks it, it is free. -/
def Kind.normal : Kind Thread where
  lock := fun holder caller =>
    match holder with
    | none => some (0, some caller)
    | some _ => none
  unlock := fun _ _ => (0, none)

theorem Kind.normal_lock {holder next : Option Thread} {caller : Thread} {status : Int}
    (answered : Kind.normal.lock holder caller = some (status, next)) :
    holder = none ∧ status = 0 ∧ next = some caller := by
  cases holder with
  | none =>
      cases answered
      exact ⟨rfl, rfl, rfl⟩
  | some other => cases answered

section

variable {Local : Type} {region : Local → Prop} {locals : Thread → Local}
  {holder : Option Thread} {caller : Thread} {next : Local}

/-- The threads in the region are the holder. -/
def Guarded (region : Local → Prop) (locals : Thread → Local) (holder : Option Thread) : Prop :=
  ∀ thread, region (locals thread) ↔ holder = some thread

theorem Guarded.unique (guarded : Guarded region locals holder) {first second : Thread}
    (firstIn : region (locals first)) (secondIn : region (locals second)) : first = second := by
  have firstHolds := (guarded first).mp firstIn
  have secondHolds := (guarded second).mp secondIn
  exact Option.some.inj (firstHolds.symm.trans secondHolds)

variable [DecidableEq Thread]

theorem Guarded.stay (guarded : Guarded region locals holder)
    (same : region next ↔ region (locals caller)) :
    Guarded region (Function.update locals caller next) holder := by
  intro thread
  by_cases moved : thread = caller
  · subst moved
    rw [Function.update_self, same]
    exact guarded thread
  · rw [Function.update_of_ne moved]
    exact guarded thread

theorem Guarded.enter (guarded : Guarded region locals none) (inside : region next) :
    Guarded region (Function.update locals caller next) (some caller) := by
  intro thread
  by_cases moved : thread = caller
  · subst moved
    rw [Function.update_self]
    exact ⟨fun _ => rfl, fun _ => inside⟩
  · rw [Function.update_of_ne moved, guarded thread]
    constructor
    · intro free
      cases free
    · intro holds
      exact absurd (Option.some.inj holds).symm moved

theorem Guarded.leave (guarded : Guarded region locals (some caller)) (outside : ¬region next) :
    Guarded region (Function.update locals caller next) none := by
  intro thread
  by_cases moved : thread = caller
  · subst moved
    rw [Function.update_self]
    constructor
    · intro inside
      exact absurd inside outside
    · intro free
      cases free
  · rw [Function.update_of_ne moved, guarded thread]
    constructor
    · intro holds
      exact absurd (Option.some.inj holds).symm moved
    · intro free
      cases free

end

end Mutex
