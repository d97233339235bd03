/-
Lists of segments: the last few of a growing history, the segment that holds a
given position of the concatenation, what is left from a position on, and the
grouping of a list by marked ends.
-/

import Mathlib

namespace Segments

universe u

variable {α : Type u}

/-! ### The last few of a growing list -/

theorem length_rtake (items : List α) (count : Nat) :
    (items.rtake count).length = min count items.length := by
  rw [List.rtake, List.length_drop]
  omega

theorem rtake_of_length_le {items : List α} {count : Nat} (few : items.length ≤ count) :
    items.rtake count = items := by
  rw [List.rtake, Nat.sub_eq_zero_of_le few, List.drop_zero]

theorem tail_rtake_succ {items : List α} {count : Nat} (many : count < items.length) :
    (items.rtake (count + 1)).tail = items.rtake count := by
  rw [List.rtake, List.rtake, List.tail_drop]
  congr 1
  omega

/-- Appending to a history either grows its window or drops the oldest item of
it, depending only on whether the window was full. -/
theorem rtake_append_singleton (items : List α) (item : α) (count : Nat) :
    (items ++ [item]).rtake (count + 1) =
      if count < items.length then (items.rtake (count + 1)).tail ++ [item]
      else items.rtake (count + 1) ++ [item] := by
  rw [List.rtake_concat_succ]
  by_cases many : count < items.length
  · rw [if_pos many, tail_rtake_succ many]
  · rw [if_neg many, rtake_of_length_le (by omega), rtake_of_length_le (by omega)]

theorem rdrop_append_rtake (items : List α) (count : Nat) :
    items.rdrop count ++ items.rtake count = items :=
  List.take_append_drop _ items

/-! ### Positions of a concatenation -/

/-- The index of the segment that holds the position, and the offset in it. -/
def locate : List Nat → Nat → Option (Nat × Nat)
  | [], _ => none
  | size :: rest, position =>
      if position < size then some (0, position)
      else (locate rest (position - size)).map fun found => (found.1 + 1, found.2)

theorem locate_eq_none_iff (sizes : List Nat) (position : Nat) :
    locate sizes position = none ↔ sizes.sum ≤ position := by
  induction sizes generalizing position with
  | nil => simp [locate]
  | cons size rest ih =>
      by_cases inside : position < size
      · simp only [locate, if_pos inside, List.sum_cons, reduceCtorEq, false_iff]
        omega
      · simp only [locate, if_neg inside, Option.map_eq_none_iff, ih, List.sum_cons]
        omega

theorem locate_eq_some {sizes : List Nat} {position index offset : Nat}
    (found : locate sizes position = some (index, offset)) :
    (sizes.take index).sum + offset = position ∧
      ∃ size, sizes[index]? = some size ∧ offset < size := by
  induction sizes generalizing position index with
  | nil => simp [locate] at found
  | cons size rest ih =>
      by_cases inside : position < size
      · simp only [locate, if_pos inside, Option.some.injEq, Prod.mk.injEq] at found
        obtain ⟨rfl, rfl⟩ := found
        exact ⟨by simp, size, by simp, inside⟩
      · simp only [locate, if_neg inside, Option.map_eq_some_iff] at found
        obtain ⟨⟨later, within⟩, foundLater, same⟩ := found
        simp only [Prod.mk.injEq] at same
        obtain ⟨rfl, rfl⟩ := same
        obtain ⟨position_eq, held, heldAt, bounded⟩ := ih foundLater
        refine ⟨?_, held, by simpa using heldAt, bounded⟩
        simp only [List.take_succ_cons, List.sum_cons]
        omega

theorem locate_of_inside {sizes : List Nat} {position index size : Nat}
    (sizeAt : sizes[index]? = some size) (lower : (sizes.take index).sum ≤ position)
    (upper : position < (sizes.take index).sum + size) :
    locate sizes position = some (index, position - (sizes.take index).sum) := by
  induction sizes generalizing position index with
  | nil => cases sizeAt
  | cons first rest ih =>
      cases index with
      | zero =>
          cases sizeAt
          rw [List.take_zero, List.sum_nil, Nat.zero_add] at upper
          rw [locate, if_pos upper, List.take_zero, List.sum_nil, Nat.sub_zero]
      | succ index =>
          rw [List.getElem?_cons_succ] at sizeAt
          rw [List.take_succ_cons, List.sum_cons] at lower upper ⊢
          have later := @ih (position - first) index sizeAt (by omega) (by omega)
          rw [locate, if_neg (by omega), later, Nat.sub_sub]
          rfl

theorem locate_lengths {segments : List (List α)} {position index offset : Nat}
    (found : locate (segments.map List.length) position = some (index, offset)) :
    ∃ before segment after, segments = before ++ segment :: after ∧ before.length = index ∧
      before.flatten.length + offset = position ∧ offset < segment.length := by
  obtain ⟨total, size, sizeAt, bounded⟩ := locate_eq_some found
  rw [List.getElem?_map, Option.map_eq_some_iff] at sizeAt
  obtain ⟨segment, segmentAt, rfl⟩ := sizeAt
  obtain ⟨inside, value⟩ := List.getElem?_eq_some_iff.mp segmentAt
  refine ⟨segments.take index, segment, segments.drop (index + 1), ?_, ?_, ?_, bounded⟩
  · rw [← value, ← List.drop_eq_getElem_cons inside, List.take_append_drop]
  · rw [List.length_take]
    omega
  · rw [List.length_flatten, List.map_take]
    exact total

theorem drop_flatten_segment (before after : List (List α)) (segment : List α) (offset : Nat)
    (inside : offset ≤ segment.length) :
    ((before ++ segment :: after).flatten.drop (before.flatten.length + offset)).take
      (segment.length - offset) = segment.drop offset := by
  rw [List.flatten_append, List.flatten_cons, List.drop_length_add_append,
    List.drop_append_of_le_length inside]
  apply List.take_left'
  rw [List.length_drop]

/-! ### What is left from a position on -/

/-- The segments from a position on, the first of them cut at the position. -/
def remaining : List (List α) → Nat → List (List α)
  | [], _ => []
  | segment :: rest, position =>
      if position < segment.length then segment.drop position :: rest
      else remaining rest (position - segment.length)

theorem remaining_append (before after : List (List α)) :
    ∀ position, remaining (before ++ after) (before.flatten.length + position) =
      remaining after position := by
  induction before with
  | nil =>
      intro position
      rw [List.flatten_nil, List.length_nil, Nat.zero_add, List.nil_append]
  | cons segment rest ih =>
      intro position
      have later : segment.length + rest.flatten.length + position - segment.length =
          rest.flatten.length + position := by
        omega
      rw [List.flatten_cons, List.length_append, List.cons_append, remaining,
        if_neg (by omega), later, ih position]

theorem remaining_inside (before after : List (List α)) {segment : List α} {offset : Nat}
    (inside : offset < segment.length) :
    remaining (before ++ segment :: after) (before.flatten.length + offset) =
      segment.drop offset :: after := by
  rw [remaining_append, remaining, if_pos inside]

theorem remaining_past {segments : List (List α)} {position : Nat}
    (past : segments.flatten.length ≤ position) : remaining segments position = [] := by
  obtain ⟨beyond, rfl⟩ := Nat.exists_eq_add_of_le past
  have none := remaining_append segments [] beyond
  rw [List.append_nil] at none
  exact none

theorem position_cases (segments : List (List α)) (position : Nat) :
    segments.flatten.length ≤ position ∨
      ∃ before segment after offset, segments = before ++ segment :: after ∧
        before.flatten.length + offset = position ∧ offset < segment.length := by
  cases located : locate (segments.map List.length) position with
  | none =>
      left
      rw [locate_eq_none_iff, ← List.length_flatten] at located
      exact located
  | some found =>
      right
      obtain ⟨before, segment, after, split, _, start, inside⟩ := locate_lengths located
      exact ⟨before, segment, after, found.2, split, start, inside⟩

theorem remaining_flatten (segments : List (List α)) (position : Nat) :
    (remaining segments position).flatten = segments.flatten.drop position := by
  rcases position_cases segments position with
    past | ⟨before, segment, after, offset, rfl, rfl, inside⟩
  · rw [remaining_past past, List.drop_eq_nil_of_le past, List.flatten_nil]
  · rw [remaining_inside before after inside, List.flatten_append, List.flatten_cons,
      List.flatten_cons, List.drop_length_add_append,
      List.drop_append_of_le_length (Nat.le_of_lt inside)]

theorem remaining_zero {segments : List (List α)}
    (nonempty : ∀ segment, segment ∈ segments → segment ≠ []) :
    remaining segments 0 = segments := by
  cases segments with
  | nil => rfl
  | cons segment rest =>
      have something := List.length_pos_iff.mpr (nonempty segment List.mem_cons_self)
      rw [remaining, if_pos something, List.drop_zero]

theorem remaining_advance {segments : List (List α)} (position : Nat)
    (nonempty : ∀ segment, segment ∈ segments → segment ≠ []) :
    remaining segments (position + ((remaining segments position).headD []).length) =
      (remaining segments position).tail := by
  rcases position_cases segments position with
    past | ⟨before, segment, after, offset, rfl, rfl, inside⟩
  · rw [remaining_past past, List.headD_nil, List.length_nil, Nat.add_zero, remaining_past past]
    rfl
  · have ended : before.flatten.length + offset + (segment.drop offset).length =
        (before ++ [segment]).flatten.length + 0 := by
      rw [List.flatten_append, List.flatten_singleton, List.length_append, List.length_drop]
      omega
    have regrouped : before ++ segment :: after = (before ++ [segment]) ++ after := by
      rw [List.append_assoc, List.singleton_append]
    rw [remaining_inside before after inside, List.headD_cons, List.tail_cons, ended, regrouped,
      remaining_append, remaining_zero]
    intro other member
    exact nonempty other (List.mem_append_right _ (List.mem_cons_of_mem _ member))

theorem remaining_nonempty {segments : List (List α)} {position : Nat} {piece : List α}
    (nonempty : ∀ segment, segment ∈ segments → segment ≠ [])
    (member : piece ∈ remaining segments position) : piece ≠ [] := by
  rcases position_cases segments position with
    past | ⟨before, segment, after, offset, rfl, rfl, inside⟩
  · rw [remaining_past past] at member
    cases member
  · rw [remaining_inside before after inside] at member
    rcases List.mem_cons.mp member with rfl | later
    · rw [← List.length_pos_iff, List.length_drop]
      omega
    · exact nonempty piece (List.mem_append_right _ (List.mem_cons_of_mem _ later))

theorem remaining_length_le (segments : List (List α)) (position : Nat) :
    (remaining segments position).length ≤ segments.length := by
  rcases position_cases segments position with
    past | ⟨before, segment, after, offset, rfl, rfl, inside⟩
  · rw [remaining_past past]
    exact Nat.zero_le _
  · rw [remaining_inside before after inside, List.length_append, List.length_cons,
      List.length_cons]
    omega

theorem remaining_suffix {segments : List (List α)} {position : Nat} {piece : List α}
    (member : piece ∈ remaining segments position) :
    ∃ segment, segment ∈ segments ∧ piece <:+ segment := by
  rcases position_cases segments position with
    past | ⟨before, segment, after, offset, rfl, rfl, inside⟩
  · rw [remaining_past past] at member
    cases member
  · rw [remaining_inside before after inside] at member
    rcases List.mem_cons.mp member with rfl | later
    · exact ⟨segment, List.mem_append_right _ List.mem_cons_self, List.drop_suffix _ _⟩
    · exact ⟨piece, List.mem_append_right _ (List.mem_cons_of_mem _ later), List.suffix_rfl⟩

/-! ### Segments cut short -/

def trim (segments : List (List α)) (counts : List Nat) : List (List α) :=
  List.zipWith (fun segment count => segment.take count) segments counts

theorem trim_cons (segment : List α) (rest : List (List α)) (count : Nat) (counts : List Nat) :
    trim (segment :: rest) (count :: counts) = segment.take count :: trim rest counts := rfl

theorem trim_flatten_length_le (segments : List (List α)) :
    ∀ counts, (trim segments counts).flatten.length ≤
      (segments.take counts.length).flatten.length := by
  induction segments with
  | nil =>
      intro counts
      exact Nat.zero_le _
  | cons segment rest ih =>
      intro counts
      cases counts with
      | nil => exact Nat.zero_le _
      | cons count counts =>
          have later := ih counts
          rw [trim_cons, List.length_cons, List.take_succ_cons, List.flatten_cons,
            List.flatten_cons, List.length_append, List.length_append, List.length_take]
          omega

theorem trim_flatten_eq_iff (segments : List (List α)) :
    ∀ counts, (trim segments counts).flatten = (segments.take counts.length).flatten ↔
      ∀ pair, pair ∈ segments.zip counts → pair.1.length ≤ pair.2 := by
  induction segments with
  | nil =>
      intro counts
      simp [trim]
  | cons segment rest ih =>
      intro counts
      cases counts with
      | nil => simp [trim]
      | cons count counts =>
          have shorter := trim_flatten_length_le rest counts
          rw [trim_cons, List.length_cons, List.take_succ_cons, List.flatten_cons,
            List.flatten_cons, List.zip_cons_cons, List.forall_mem_cons, ← ih counts]
          constructor
          · intro same
            have lengths := congrArg List.length same
            rw [List.length_append, List.length_append, List.length_take] at lengths
            have kept : (segment.take count).length = segment.length := by
              rw [List.length_take]
              omega
            refine ⟨?_, (List.append_inj same kept).2⟩
            change segment.length ≤ count
            omega
          · intro both
            rw [List.take_of_length_le both.1, both.2]

/-! ### Groups closed by a marked item -/

structure Groups (α : Type u) where
  closed : List (List α)
  rest : List α

def Groups.push (ends : α → Bool) (groups : Groups α) (item : α) : Groups α :=
  if ends item then
    { closed := groups.closed ++ [groups.rest ++ [item]], rest := [] }
  else { groups with rest := groups.rest ++ [item] }

/-- Cut a list after every item that `ends` marks. -/
def groupsOf (ends : α → Bool) (items : List α) : Groups α :=
  items.foldl (Groups.push ends) { closed := [], rest := [] }

theorem groupsOf_append_singleton (ends : α → Bool) (items : List α) (item : α) :
    groupsOf ends (items ++ [item]) = (groupsOf ends items).push ends item := by
  simp only [groupsOf, List.foldl_append, List.foldl_cons, List.foldl_nil]

/-! ### A list cut into pieces -/

def markedEnds (marked : List α → Bool) : Nat → List (List α) → List Nat
  | _, [] => []
  | offset, piece :: rest =>
      if marked piece then
        (offset + piece.length) :: markedEnds marked (offset + piece.length) rest
      else markedEnds marked (offset + piece.length) rest

theorem markedEnds_shift (marked : List α → Bool) (pieces : List (List α)) (shift : Nat) :
    ∀ offset, markedEnds marked (shift + offset) pieces =
      (markedEnds marked offset pieces).map (shift + ·) := by
  induction pieces with
  | nil => intro offset; rfl
  | cons piece rest ih =>
      intro offset
      simp only [markedEnds, Nat.add_assoc, ih]
      by_cases mark : marked piece = true
      · rw [if_pos mark, if_pos mark, List.map_cons]
      · rw [if_neg mark, if_neg mark]

/-- Cut a list whose first item stands at `offset` after each of the ascending
offsets. -/
def cutAt : Nat → List Nat → List α → Groups α
  | _, [], items => { closed := [], rest := items }
  | offset, cut :: cuts, items =>
      let later := cutAt cut cuts (items.drop (cut - offset))
      { closed := items.take (cut - offset) :: later.closed, rest := later.rest }

theorem cutAt_append_cons (front rest : List α) (offset : Nat) (cuts : List Nat) :
    cutAt offset ((offset + front.length) :: cuts) (front ++ rest) =
      { closed := front :: (cutAt (offset + front.length) cuts rest).closed
        rest := (cutAt (offset + front.length) cuts rest).rest } := by
  simp only [cutAt, Nat.add_sub_cancel_left, List.take_left, List.drop_left]

/-! ### Lists related item by item -/

section

universe v

variable {β : Type v} {relation : α → β → Prop} {left : List α} {right : List β}

theorem forall₂_mem_left (related : List.Forall₂ relation left right) {item : α}
    (member : item ∈ left) : ∃ other, other ∈ right ∧ relation item other := by
  induction related with
  | nil => cases member
  | cons head rest ih =>
      rcases List.mem_cons.mp member with rfl | later
      · exact ⟨_, List.mem_cons_self, head⟩
      · obtain ⟨other, otherMember, holds⟩ := ih later
        exact ⟨other, List.mem_cons_of_mem _ otherMember, holds⟩

theorem forall₂_tail (related : List.Forall₂ relation left right) :
    List.Forall₂ relation left.tail right.tail := by
  cases related with
  | nil => exact .nil
  | cons _ rest => exact rest

end

end Segments
