/-
What the device is for, without slots, pointers or machine integers.

A write appends to the pending bytes.  A write whose last byte is a newline
completes the pending bytes to a command.  The device retains the last ten
commands.
-/

import Aesd.Driver.CharDevice

namespace Aesd.Driver

open Segments

structure CommandLog where
  commands : List (List Byte)
  pending : List Byte

/-- The driver's own notion of the end of a line looks at the last byte only. -/
def endsCommand (bytes : List Byte) : Bool :=
  bytes.getLast? == some newline

namespace CommandLog

def empty : CommandLog :=
  { commands := [], pending := [] }

def write (log : CommandLog) (bytes : List Byte) : CommandLog :=
  if endsCommand bytes then
    { commands := log.commands ++ [log.pending ++ bytes], pending := [] }
  else { log with pending := log.pending ++ bytes }

/-- Cut the writes after every one that ends in a newline: each closed group is
a command, what is left over is pending. -/
def ofWrites (writes : List (List Byte)) : CommandLog :=
  { commands := (groupsOf endsCommand writes).closed.map List.flatten
    pending := (groupsOf endsCommand writes).rest.flatten }

theorem ofWrites_append_singleton (writes : List (List Byte)) (bytes : List Byte) :
    ofWrites (writes ++ [bytes]) = (ofWrites writes).write bytes := by
  unfold ofWrites write
  rw [groupsOf_append_singleton]
  unfold Groups.push
  by_cases last : endsCommand bytes = true
  · simp [last]
  · simp [last]

def writeAll (log : CommandLog) (writes : List (List Byte)) : CommandLog :=
  writes.foldl write log

theorem ofWrites_append (earlier later : List (List Byte)) :
    ofWrites (earlier ++ later) = (ofWrites earlier).writeAll later := by
  induction later using List.reverseRecOn with
  | nil => rw [List.append_nil]; rfl
  | append_singleton writes bytes ih =>
      rw [← List.append_assoc, ofWrites_append_singleton, ih]
      simp only [writeAll, List.foldl_append, List.foldl_cons, List.foldl_nil]

/-- The writes enter only through their bytes and through the places where a
write ends in a newline. -/
theorem writeAll_eq_cutAt (writes : List (List Byte)) :
    ∀ (log : CommandLog) (offset : Nat),
      log.writeAll writes =
        { commands := log.commands ++
            (cutAt offset (markedEnds endsCommand (offset + log.pending.length) writes)
              (log.pending ++ writes.flatten)).closed
          pending :=
            (cutAt offset (markedEnds endsCommand (offset + log.pending.length) writes)
              (log.pending ++ writes.flatten)).rest } := by
  induction writes with
  | nil =>
      intro log offset
      simp [writeAll, markedEnds, cutAt]
  | cons bytes rest ih =>
      intro log offset
      have unfolded : log.writeAll (bytes :: rest) = (log.write bytes).writeAll rest := rfl
      rw [unfolded, List.flatten_cons, ← List.append_assoc, markedEnds, Nat.add_assoc,
        ← List.length_append]
      by_cases ends : endsCommand bytes = true
      · have written : log.write bytes =
            { commands := log.commands ++ [log.pending ++ bytes], pending := [] } := by
          simp only [write, ends, if_true]
        rw [if_pos ends, cutAt_append_cons, written,
          ih _ (offset + (log.pending ++ bytes).length)]
        simp
      · have written : log.write bytes = { log with pending := log.pending ++ bytes } := by
          simp only [write, ends, if_false, Bool.false_eq_true]
        rw [if_neg ends, written, ih _ offset]

theorem writeAll_congr (log : CommandLog) {first second : List (List Byte)}
    (sameBytes : first.flatten = second.flatten)
    (sameEnds : markedEnds endsCommand 0 first = markedEnds endsCommand 0 second) :
    log.writeAll first = log.writeAll second := by
  have shifted : markedEnds endsCommand (0 + log.pending.length) first =
      markedEnds endsCommand (0 + log.pending.length) second := by
    rw [Nat.add_comm, markedEnds_shift, markedEnds_shift, sameEnds]
  rw [writeAll_eq_cutAt first log 0, writeAll_eq_cutAt second log 0, sameBytes, shifted]

def retained (log : CommandLog) : List (List Byte) :=
  log.commands.rtake 10

def evicted (log : CommandLog) : List (List Byte) :=
  log.commands.rdrop 10

theorem evicted_append_retained (log : CommandLog) :
    log.evicted ++ log.retained = log.commands :=
  rdrop_append_rtake log.commands 10

theorem retained_length (log : CommandLog) :
    log.retained.length = min 10 log.commands.length :=
  length_rtake log.commands 10

theorem retained_write_ends (log : CommandLog) (bytes : List Byte)
    (last : endsCommand bytes = true) :
    (log.write bytes).retained =
      if log.retained.length = 10 then log.retained.tail ++ [log.pending ++ bytes]
      else log.retained ++ [log.pending ++ bytes] := by
  have written : (log.write bytes).commands = log.commands ++ [log.pending ++ bytes] := by
    simp [write, last]
  unfold retained
  rw [written, rtake_append_singleton, length_rtake]
  by_cases many : 9 < log.commands.length
  · rw [if_pos many, if_pos (by omega)]
  · rw [if_neg many, if_neg (by omega)]

theorem retained_write_continues (log : CommandLog) (bytes : List Byte)
    (continues : endsCommand bytes = false) :
    (log.write bytes).retained = log.retained ∧
      (log.write bytes).pending = log.pending ++ bytes := by
  simp [write, continues, retained]

theorem endsCommand_append (front bytes : List Byte) (nonempty : bytes ≠ []) :
    endsCommand (front ++ bytes) = endsCommand bytes := by
  simp [endsCommand, List.getLast?_append_of_ne_nil front nonempty]

end CommandLog

end Aesd.Driver
