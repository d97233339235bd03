/-
How many bytes a read copies, returns and moves on.

`aesd_read` copies the whole rest of one command and moves the position past
it, and only the returned number knows the count that was asked for.  The three
numbers agree when the count covers the rest of the command, and no longer.
A reader with smaller counts skips what it was not told about.
-/

import Aesd.Driver.ReadLaw

namespace Aesd.Driver

open BlockHeap
open Execution
open Segments

structure ReadEnv.Serves (env : ReadEnv) : Prop where
  locked : env.lockInterrupted = false
  granted : env.kmallocGranted = true
  copied : env.notCopied = 0

/-- The unread remainder of the command that holds the position; nothing where
there is none. -/
def unreadAt (commands : List (List Byte)) (fPos : Int) : List Byte :=
  (remaining commands fPos.toNat).headD []

/-- One read copies, returns and moves by the same number, the smaller one of
the count and the unread remainder; a failed copy does not move. -/
def ReadAccounted (kernel : Kernel) (env : ReadEnv) (device : Device)
    (commands : List (List Byte)) (count : Nat) (fPos : Int) : Prop :=
  ∃ result, aesdRead kernel env device count fPos = .ok result ∧
    (0 ≤ result.retval →
      result.delivered.length ≤ count ∧
      result.delivered.length = min count (unreadAt commands fPos).length ∧
      result.retval = (min count (unreadAt commands fPos).length : Nat) ∧
      result.fPos = fPos + (min count (unreadAt commands fPos).length : Nat)) ∧
    (result.retval = -efault → result.fPos = fPos)

/-! ### One read -/

namespace Device.Represents

variable {kernel : Kernel} {device : Device} {log : CommandLog}

theorem retained_nonempty (rep : device.Represents kernel log) {command : List Byte}
    (member : command ∈ log.retained) : command ≠ [] := by
  have size := (rep.commandSizes command (List.mem_of_mem_drop member)).1
  exact List.length_pos_iff.mp size

theorem aesdRead_serves (rep : device.Represents kernel log) (fit : kernel.RetainedFit)
    {env : ReadEnv} (serves : env.Serves) (count : Nat) {fPos : Int} (nonneg : 0 ≤ fPos)
    (bounded : fPos ≤ llongMax) :
    ∃ after, aesdRead kernel env device count fPos =
      .ok { device := after
            fPos := fPos + (unreadAt log.retained fPos).length
            retval := (min count (unreadAt log.retained fPos).length : Nat)
            delivered := unreadAt log.retained fPos } := by
  by_cases past : log.retained.flatten.length ≤ fPos.toNat
  · have nothing : unreadAt log.retained fPos = [] := by
      rw [unreadAt, remaining_past past]
      rfl
    refine ⟨device, ?_⟩
    rw [rep.aesdRead_past fit count serves.locked nonneg bounded past, nothing, List.length_nil,
      Nat.min_zero]
    simp
  · obtain ⟨before, command, after, offset, split, start, within, outcome⟩ :=
      rep.aesdRead_inside fit serves.locked serves.granted serves.copied nonneg bounded
        (by omega)
    have unread : unreadAt log.retained fPos = command.drop offset := by
      rw [unreadAt, split, ← start, remaining_inside before after within]
      rfl
    obtain ⟨memory, read⟩ := outcome count
    refine ⟨{ device with memory := memory }, ?_⟩
    rw [read, unread]
    congr 2
    by_cases more : count > (command.drop offset).length
    · rw [if_pos more, Nat.min_eq_right (by omega)]
    · rw [if_neg more, Nat.min_eq_left (by omega)]

theorem aesdRead_unserved (rep : device.Represents kernel log) (fit : kernel.RetainedFit)
    {env : ReadEnv} (unserved : ¬env.Serves) (count : Nat) {fPos : Int} (nonneg : 0 ≤ fPos)
    (bounded : fPos ≤ llongMax) :
    ∃ result, aesdRead kernel env device count fPos = .ok result ∧ result.fPos = fPos ∧
      (result.retval < 0 ∨
        result.retval = 0 ∧ result.delivered = [] ∧ unreadAt log.retained fPos = []) := by
  by_cases interrupted : env.lockInterrupted = true
  · unfold aesdRead
    rw [if_pos interrupted]
    exact ⟨_, rfl, rfl, .inl (show -erestartsys < 0 by decide)⟩
  · have locked : env.lockInterrupted = false := by simpa using interrupted
    have position : loffToSizeT fPos = fPos.toNat := by
      unfold llongMax at bounded
      exact loffToSizeT_of_nonneg nonneg (by omega)
    rcases rep.lookup_cases fit (loffToSizeT fPos) (loffToSizeT_lt fPos) with
      ⟨past, _⟩ | ⟨before, command, after, slot, offset, split, _, within, lookup, holds⟩
    · rw [position] at past
      refine ⟨_, rep.aesdRead_past fit count locked nonneg bounded past, rfl, .inr ⟨rfl, rfl, ?_⟩⟩
      rw [unreadAt, remaining_past past]
      rfl
    · have member : command ∈ log.retained := by
        rw [split]
        exact List.mem_append_right _ List.mem_cons_self
      have small := (rep.commandSizes command (List.mem_of_mem_drop member)).2
      by_cases granted : env.kmallocGranted = true
      · obtain ⟨memory, _, outcome⟩ := aesdRead_allocated kernel env device count fPos locked
          granted lookup holds within small
        have incomplete : leftOver env.notCopied (command.drop offset).length ≠ 0 := by
          intro complete
          apply unserved
          refine ⟨locked, granted, ?_⟩
          unfold leftOver at complete
          rw [List.length_drop] at complete
          omega
        unfold readOutcome at outcome
        rw [if_pos incomplete] at outcome
        exact ⟨_, outcome, rfl, .inl (show -efault < 0 by decide)⟩
      · unfold aesdRead
        rw [if_neg interrupted]
        simp only [lookup]
        rw [kmalloc_refused kernel device.memory (fun allowed => granted allowed.1)]
        exact ⟨_, rfl, rfl, .inl (show -efault < 0 by decide)⟩

theorem readAccounted_iff (rep : device.Represents kernel log) (fit : kernel.RetainedFit)
    (env : ReadEnv) (count : Nat) {fPos : Int} (nonneg : 0 ≤ fPos) (bounded : fPos ≤ llongMax) :
    ReadAccounted kernel env device log.retained count fPos ↔
      (env.Serves → (unreadAt log.retained fPos).length ≤ count) := by
  constructor
  · intro accounted serves
    obtain ⟨result, read, success, _⟩ := accounted
    obtain ⟨after, served⟩ := rep.aesdRead_serves fit serves count nonneg bounded
    rw [served] at read
    cases read
    exact (success (Int.natCast_nonneg _)).1
  · intro covered
    by_cases serves : env.Serves
    · obtain ⟨after, served⟩ := rep.aesdRead_serves fit serves count nonneg bounded
      have whole : min count (unreadAt log.retained fPos).length =
          (unreadAt log.retained fPos).length := Nat.min_eq_right (covered serves)
      rw [whole] at served
      refine ⟨_, served, ?_, ?_⟩
      · intro _
        rw [whole]
        exact ⟨covered serves, rfl, rfl, rfl⟩
      · intro failed
        change ((unreadAt log.retained fPos).length : Int) = -efault at failed
        unfold efault at failed
        omega
    · obtain ⟨result, read, unmoved, failed | ⟨zero, nothing, none⟩⟩ :=
        rep.aesdRead_unserved fit serves count nonneg bounded
      · refine ⟨result, read, ?_, fun _ => unmoved⟩
        intro success
        omega
      · refine ⟨result, read, ?_, fun _ => unmoved⟩
        intro _
        rw [none, nothing, List.length_nil, Nat.min_zero]
        exact ⟨Nat.zero_le _, rfl, zero, by rw [unmoved]; simp⟩

end Device.Represents

/-! ### A reader -/

structure Reading where
  device : Device
  fPos : Int
  received : List Byte
  ended : Bool

/-- Read with one count after the other until a read returns nothing; of each
copy only the returned number of bytes is taken. -/
def readUntilEnd (kernel : Kernel) :
    List (ReadEnv × Nat) → Device → Int → Except Fault Reading
  | [], device, fPos =>
      .ok { device := device, fPos := fPos, received := [], ended := false }
  | (env, count) :: rest, device, fPos =>
      match aesdRead kernel env device count fPos with
      | .error fault => .error fault
      | .ok result =>
          if 0 < result.retval then
            match readUntilEnd kernel rest result.device result.fPos with
            | .error fault => .error fault
            | .ok later =>
                .ok { later with
                  received := result.delivered.take result.retval.toNat ++ later.received }
          else
            .ok { device := result.device, fPos := result.fPos, received := [], ended := true }

/-- Everything up to the position has been received once and in order, and all
of it when the reader has come to the end. -/
structure Reading.ReceivedOnce (reading : Reading) (commands : List (List Byte)) : Prop where
  sofar : reading.received = commands.flatten.take reading.fPos.toNat
  whole : reading.ended = true → reading.received = commands.flatten

namespace Device.Represents

variable {kernel : Kernel} {log : CommandLog}

theorem aesdRead_next (fit : kernel.RetainedFit) {device : Device}
    (rep : device.Represents kernel log) {env : ReadEnv} (serves : env.Serves) (count : Nat)
    {fPos : Int} (nonneg : 0 ≤ fPos) (bounded : fPos ≤ llongMax) {pieces : List (List Byte)}
    (left : remaining log.retained fPos.toNat = pieces) :
    ∃ after, after.Represents kernel log ∧
      aesdRead kernel env device count fPos =
        .ok { device := after
              fPos := fPos + (pieces.headD []).length
              retval := (min count (pieces.headD []).length : Nat)
              delivered := pieces.headD [] } ∧
      0 ≤ fPos + (pieces.headD []).length ∧ fPos + (pieces.headD []).length ≤ llongMax ∧
      remaining log.retained (fPos + (pieces.headD []).length).toNat = pieces.tail := by
  obtain ⟨after, read⟩ := rep.aesdRead_serves fit serves count nonneg bounded
  have total := rep.retained_total_lt fit
  have unread : unreadAt log.retained fPos = pieces.headD [] := by
    rw [unreadAt, left]
  rw [unread] at read
  -- the piece ends inside the retained bytes, or there is none
  have ends : (pieces.headD []).length ≤ log.retained.flatten.length - fPos.toNat := by
    have lengths := congrArg List.length (remaining_flatten log.retained fPos.toNat)
    rw [left, List.length_drop] at lengths
    rw [← lengths]
    cases pieces with
    | nil => exact Nat.zero_le _
    | cons piece rest =>
        rw [List.headD_cons, List.flatten_cons, List.length_append]
        omega
  have advanced : (fPos + (pieces.headD []).length).toNat =
      fPos.toNat + (pieces.headD []).length := by
    omega
  refine ⟨after, rep.aesdRead_represents read, read, by omega, ?_, ?_⟩
  · unfold llongMax at bounded ⊢
    omega
  · have moved := remaining_advance fPos.toNat
      (fun _ member => rep.retained_nonempty member)
    rw [left] at moved
    rw [advanced, moved]

/-- The reads meet what is left of the commands one by one, whatever their
counts are. -/
theorem readUntilEnd_serves (fit : kernel.RetainedFit) (requests : List (ReadEnv × Nat)) :
    ∀ (device : Device) (fPos : Int) (pieces : List (List Byte)),
      device.Represents kernel log → 0 ≤ fPos → fPos ≤ llongMax →
      remaining log.retained fPos.toNat = pieces →
      (∀ request, request ∈ requests → request.1.Serves ∧ 0 < request.2) →
      ∃ after, after.Represents kernel log ∧
        readUntilEnd kernel requests device fPos =
          .ok { device := after
                fPos := fPos + ((pieces.take requests.length).flatten.length : Nat)
                received := (trim pieces (requests.map Prod.snd)).flatten
                ended := decide (pieces.length < requests.length) } := by
  induction requests with
  | nil =>
      intro device fPos pieces rep _ _ _ _
      refine ⟨device, rep, ?_⟩
      simp [readUntilEnd, trim]
  | cons request rest ih =>
      intro device fPos pieces rep nonneg bounded left served
      obtain ⟨env, count⟩ := request
      obtain ⟨serves, positive⟩ := served (env, count) List.mem_cons_self
      obtain ⟨after, repAfter, read, nextNonneg, nextBounded, later⟩ :=
        aesdRead_next fit rep serves count nonneg bounded left
      cases pieces with
      | nil =>
          refine ⟨after, repAfter, ?_⟩
          rw [readUntilEnd, read]
          simp [trim]
      | cons piece pieces =>
          rw [List.headD_cons] at read nextNonneg nextBounded later
          rw [List.tail_cons] at later
          have nonempty : piece ≠ [] :=
            remaining_nonempty (fun _ member => rep.retained_nonempty member)
              (by rw [left]; exact List.mem_cons_self)
          have pieceLength := List.length_pos_iff.mpr nonempty
          obtain ⟨last, repLast, rested⟩ := ih after (fPos + piece.length) pieces repAfter
            nextNonneg nextBounded later
            (fun other member => served other (List.mem_cons_of_mem _ member))
          have some : (0 : Int) < (min count piece.length : Nat) := by
            omega
          refine ⟨last, repLast, ?_⟩
          rw [readUntilEnd, read]
          simp only [some, ↓reduceIte, rested, List.map_cons, trim_cons, List.length_cons,
            List.take_succ_cons, List.flatten_cons, List.length_append, Int.toNat_natCast]
          congr 2
          · push_cast
            omega
          · rw [← List.take_eq_take_min]
          · simp

/-- A reader from the start receives everything exactly when each of its counts
covers the command it meets. -/
theorem receivedOnce_iff (fit : kernel.RetainedFit) {device : Device}
    (rep : device.Represents kernel log) (requests : List (ReadEnv × Nat))
    (served : ∀ request, request ∈ requests → request.1.Serves ∧ 0 < request.2) :
    ∃ reading, readUntilEnd kernel requests device 0 = .ok reading ∧
      (reading.ReceivedOnce log.retained ↔
        ∀ pair, pair ∈ log.retained.zip (requests.map Prod.snd) → pair.1.length ≤ pair.2) := by
  have left : remaining log.retained (0 : Int).toNat = log.retained :=
    remaining_zero fun _ member => rep.retained_nonempty member
  obtain ⟨after, _, read⟩ := readUntilEnd_serves fit requests device 0 log.retained rep
    (Int.le_refl 0) (by decide) left served
  refine ⟨_, read, ?_⟩
  have covered := trim_flatten_eq_iff log.retained (requests.map Prod.snd)
  rw [List.length_map] at covered
  rw [← covered]
  have upTo : log.retained.flatten.take (log.retained.take requests.length).flatten.length =
      (log.retained.take requests.length).flatten := by
    have split := congrArg List.flatten (List.take_append_drop requests.length log.retained)
    rw [List.flatten_append] at split
    rw [← split]
    exact List.take_left
  constructor
  · intro once
    have sofar := once.sofar
    simp only [Int.zero_add, Int.toNat_natCast] at sofar
    rw [upTo] at sofar
    exact sofar
  · intro same
    constructor
    · simp only [Int.zero_add, Int.toNat_natCast]
      rw [upTo]
      exact same
    · intro ended
      have enough : log.retained.length < requests.length := of_decide_eq_true ended
      change (trim log.retained (requests.map Prod.snd)).flatten = log.retained.flatten
      rw [same, List.take_of_length_le (Nat.le_of_lt enough)]

end Device.Represents

/-! ### Accounting over runs -/

/-- In every state a run reaches, the numbers of a read agree exactly when the
read fails or its count covers the unread remainder, and a reader receives every
retained byte once exactly when each of its counts covers the command it meets. -/
theorem read_accounted_iff_covered (kernel : Kernel) (boot : InitEnv) (steps : List DriverStep)
    (system : System) (loaded : (aesdInitModule kernel boot).retval = 0)
    (run : DriverRun kernel boot steps system) (fit : kernel.RetainedFit)
    (commands : List (List Byte))
    (retained : commands = (CommandLog.ofWrites (writtenBy steps)).retained) :
    (∀ (env : ReadEnv) (count : Nat) (fPos : Int), 0 ≤ fPos → fPos ≤ llongMax →
      (ReadAccounted kernel env system.device commands count fPos ↔
        (env.Serves → (unreadAt commands fPos).length ≤ count))) ∧
    ∀ requests : List (ReadEnv × Nat),
      (∀ request, request ∈ requests → request.1.Serves ∧ 0 < request.2) →
      ∃ reading, readUntilEnd kernel requests system.device 0 = .ok reading ∧
        (reading.ReceivedOnce commands ↔
          ∀ pair, pair ∈ commands.zip (requests.map Prod.snd) → pair.1.length ≤ pair.2) := by
  obtain ⟨rep, _⟩ := DriverRun.represents loaded run
  subst retained
  constructor
  · intro env count fPos nonneg bounded
    exact rep.readAccounted_iff fit env count nonneg bounded
  · intro requests served
    exact Device.Represents.receivedOnce_iff fit rep requests served

theorem plainReadEnv_serves : plainReadEnv.Serves :=
  ⟨rfl, rfl, rfl⟩

/-- The commands `ab\n` and `c\n`. -/
def twoCommands : List Call :=
  [.openFile 0, .write 0 plainWriteEnv [97, 98, 10] (by decide),
    .write 0 plainWriteEnv [99, 10] (by decide)]

theorem twoCommands_reached :
    ∃ steps system, DriverRun commonKernel plainBoot steps system ∧
      writtenBy steps = [[97, 98, 10], [99, 10]] :=
  execute_observe (System.step commonKernel) (System.loaded commonKernel plainBoot) twoCommands
    (fun steps _ => writtenBy steps) [[97, 98, 10], [99, 10]] (by decide +kernel)

/-- A read of two bytes at the second byte, and a reader with counts of three. -/
theorem read_accounted_two_commands :
    ∃ steps system, DriverRun commonKernel plainBoot steps system ∧
      ReadAccounted commonKernel plainReadEnv system.device [[97, 98, 10], [99, 10]] 2 1 ∧
      ∃ reading, readUntilEnd commonKernel (List.replicate 3 (plainReadEnv, 3)) system.device 0 =
          .ok reading ∧
        reading.ReceivedOnce [[97, 98, 10], [99, 10]] := by
  obtain ⟨steps, system, run, written⟩ := twoCommands_reached
  obtain ⟨accounted, readers⟩ := read_accounted_iff_covered commonKernel plainBoot steps system
    (by decide) run (by decide) [[97, 98, 10], [99, 10]] (by rw [written]; rfl)
  refine ⟨steps, system, run, ?_, ?_⟩
  · apply (accounted plainReadEnv 2 1 (by decide) (by decide)).mpr
    intro _
    decide
  · obtain ⟨reading, read, once⟩ := readers (List.replicate 3 (plainReadEnv, 3)) (by
      intro request member
      rw [List.eq_of_mem_replicate member]
      exact ⟨plainReadEnv_serves, by decide⟩)
    exact ⟨reading, read, once.mpr (by decide)⟩

/-- Asked for one byte of `ab\n`, the read copies three, moves by three and
returns one; the reader that asks for one byte at a time receives `ac`. -/
theorem read_of_one_byte_moves_past_three :
    ∃ steps system, DriverRun commonKernel plainBoot steps system ∧
      writtenBy steps = [[97, 98, 10], [99, 10]] ∧
      (∃ after, aesdRead commonKernel plainReadEnv system.device 1 0 =
        .ok { device := after, fPos := 3, retval := 1, delivered := [97, 98, 10] }) ∧
      ¬ReadAccounted commonKernel plainReadEnv system.device [[97, 98, 10], [99, 10]] 1 0 ∧
      ∃ after, readUntilEnd commonKernel (List.replicate 3 (plainReadEnv, 1)) system.device 0 =
        .ok { device := after, fPos := 5, received := [97, 99], ended := true } := by
  obtain ⟨steps, system, run, written⟩ := twoCommands_reached
  obtain ⟨rep, _⟩ := DriverRun.represents (by decide) run
  have retained : (CommandLog.ofWrites (writtenBy steps)).retained =
      [[97, 98, 10], [99, 10]] := by
    rw [written]
    rfl
  refine ⟨steps, system, run, written, ?_, ?_, ?_⟩
  · obtain ⟨after, read⟩ := rep.aesdRead_serves (by decide) plainReadEnv_serves 1
      (Int.le_refl 0) (by decide)
    rw [retained] at read
    exact ⟨after, read⟩
  · intro accounted
    rw [← retained, rep.readAccounted_iff (by decide) plainReadEnv 1 (Int.le_refl 0) (by decide),
      retained] at accounted
    exact absurd (accounted plainReadEnv_serves) (by decide)
  · obtain ⟨after, _, read⟩ := Device.Represents.readUntilEnd_serves (by decide)
      (List.replicate 3 (plainReadEnv, 1)) system.device 0 [[97, 98, 10], [99, 10]] rep
      (Int.le_refl 0) (by decide) (by rw [retained]; rfl) (by
        intro request member
        rw [List.eq_of_mem_replicate member]
        exact ⟨plainReadEnv_serves, by decide⟩)
    exact ⟨after, read⟩

end Aesd.Driver
