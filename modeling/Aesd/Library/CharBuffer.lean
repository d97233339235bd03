/-
Buffers of a fixed size and the zero-terminated strings in them.

Loads and stores outside the buffer have no result.  `holding size items` is
the buffer that starts with `items` and is zero from there on; the operations a
program uses to build a string keep a buffer in this form.
-/

import Mathlib.Data.List.GetD
import Mathlib.Logic.Function.Basic

namespace CharBuffer

/-! ### Items put over others -/

section

variable {α : Type}

def putAt (items : List α) (position : Nat) (others : List α) : List α :=
  items.take position ++ others ++ items.drop (position + others.length)

theorem putAt_length (items others : List α) :
    putAt items items.length others = items ++ others := by
  unfold putAt
  rw [List.take_length, List.drop_eq_nil_of_le (Nat.le_add_right _ _), List.append_nil]

theorem putAt_nil (items : List α) (position : Nat) : putAt items position [] = items := by
  unfold putAt
  rw [List.append_nil, List.length_nil, Nat.add_zero, List.take_append_drop]

theorem length_putAt_le (items : List α) (position : Nat) (others : List α) :
    (putAt items position others).length ≤ max items.length (position + others.length) := by
  unfold putAt
  rw [List.length_append, List.length_append, List.length_take, List.length_drop]
  omega

theorem mem_putAt {items others : List α} {position : Nat} {item : α}
    (member : item ∈ putAt items position others) : item ∈ items ∨ item ∈ others := by
  unfold putAt at member
  rcases List.mem_append.mp member with front | back
  · rcases List.mem_append.mp front with first | second
    · exact .inl (List.mem_of_mem_take first)
    · exact .inr second
  · exact .inl (List.mem_of_mem_drop back)

end

/-! ### Buffers -/

structure Buffer (α : Type) where
  size : Nat
  cell : Nat → α

variable {α : Type} [Zero α]

namespace Buffer

def zeroed (size : Nat) : Buffer α :=
  { size := size, cell := fun _ => 0 }

def load (buffer : Buffer α) (index : Nat) : Option α :=
  if index < buffer.size then some (buffer.cell index) else none

def store (buffer : Buffer α) (index : Nat) (item : α) : Option (Buffer α) :=
  if index < buffer.size then
    some { buffer with cell := Function.update buffer.cell index item }
  else none

def fill (buffer : Buffer α) (items : List α) : Buffer α :=
  { buffer with
    cell := fun index =>
      if index < items.length then items.getD index 0 else buffer.cell index }

def holding (size : Nat) (items : List α) : Buffer α :=
  { size := size, cell := fun index => items.getD index 0 }

/-! ### Buffers that hold a list -/

theorem zeroed_eq_holding (size : Nat) : (zeroed size : Buffer α) = holding size [] := by
  unfold zeroed holding
  congr 1

theorem fill_zeroed (size : Nat) (items : List α) :
    (zeroed size).fill items = holding size items := by
  unfold fill zeroed holding
  congr 1
  funext index
  by_cases inside : index < items.length
  · rw [if_pos inside]
  · rw [if_neg inside, List.getD_eq_default _ _ (Nat.not_lt.mp inside)]

theorem load_holding {size index : Nat} (items : List α) (inside : index < size) :
    (holding size items).load index = some (items.getD index 0) := by
  unfold load
  change (if index < size then _ else _) = _
  rw [if_pos inside]
  rfl

theorem load_outside {size index : Nat} (items : List α) (outside : size ≤ index) :
    (holding size items).load index = none := by
  unfold load
  change (if index < size then _ else _) = _
  rw [if_neg (Nat.not_lt.mpr outside)]

theorem store_holding {size : Nat} (items : List α) (item : α) (room : items.length < size) :
    (holding size items).store items.length item = some (holding size (items ++ [item])) := by
  unfold store
  change (if items.length < size then _ else _) = _
  rw [if_pos room]
  congr 1
  unfold holding
  congr 1
  funext index
  rw [Function.update_apply]
  by_cases here : index = items.length
  · rw [if_pos here, here]
    simp
  · rw [if_neg here]
    by_cases before : index < items.length
    · simp [List.getD, List.getElem?_append_left before]
    · have beyond : (items ++ [item]).length ≤ index := by
        rw [List.length_append, List.length_singleton]
        omega
      change items.getD index 0 = _
      rw [List.getD_eq_default _ _ (Nat.not_lt.mp before), List.getD_eq_default _ _ beyond]

/-! ### The string in a buffer -/

section

variable [DecidableEq α]

def strlenFrom (buffer : Buffer α) : Nat → Nat → Option Nat
  | 0, _ => none
  | fuel + 1, index =>
      if buffer.cell index = 0 then some index else strlenFrom buffer fuel (index + 1)

/-- The index of the first zero; none when the whole buffer has no zero. -/
def strlen (buffer : Buffer α) : Option Nat :=
  strlenFrom buffer buffer.size 0

def string (buffer : Buffer α) : Option (List α) :=
  buffer.strlen.map fun length => (List.range length).map buffer.cell

private theorem strlenFrom_holding (size : Nat) (rest : List α) :
    ∀ (front : List α) (fuel : Nat), rest.length < fuel →
      strlenFrom (holding size (front ++ rest)) fuel front.length =
        some (front.length + (rest.takeWhile (· ≠ 0)).length) := by
  induction rest with
  | nil =>
      intro front fuel enough
      obtain ⟨more, rfl⟩ := Nat.exists_eq_succ_of_ne_zero (Nat.ne_of_gt enough)
      simp [strlenFrom, holding]
  | cons item rest ih =>
      intro front fuel enough
      obtain ⟨more, rfl⟩ := Nat.exists_eq_succ_of_ne_zero (Nat.ne_of_gt (Nat.zero_lt_of_lt enough))
      have here : (holding size (front ++ item :: rest)).cell front.length = item := by
        simp [holding, List.getD]
      rw [strlenFrom, here]
      by_cases zero : item = 0
      · rw [if_pos zero, List.takeWhile_cons_of_neg (by simp [zero])]
        rfl
      · have moved : front ++ item :: rest = (front ++ [item]) ++ rest := by simp
        have later := ih (front ++ [item]) more (by simpa using enough)
        rw [if_neg zero, List.takeWhile_cons_of_pos (by simp [zero]), moved]
        rw [List.length_append, List.length_singleton] at later
        rw [later, List.length_cons]
        congr 1
        omega

theorem string_holding {size : Nat} (items : List α) (room : items.length < size) :
    (holding size items).string = some (items.takeWhile (· ≠ 0)) := by
  have length : (holding size items).strlen = some (items.takeWhile (· ≠ 0)).length := by
    have found := strlenFrom_holding size items [] size room
    rw [List.nil_append, List.length_nil, Nat.zero_add] at found
    exact found
  unfold string
  rw [length, Option.map_some]
  congr 1
  apply List.ext_getElem
  · simp
  · intro index inside within
    have early : index < items.length :=
      Nat.lt_of_lt_of_le within (List.takeWhile_prefix _).length_le
    rw [List.getElem_map, List.getElem_range]
    change items.getD index 0 = _
    rw [List.getD_eq_getElem _ _ early, (List.takeWhile_prefix _).getElem]

private theorem strlenFrom_eq_none_iff (buffer : Buffer α) (fuel : Nat) :
    ∀ start, strlenFrom buffer fuel start = none ↔
      ∀ index, start ≤ index → index < start + fuel → buffer.cell index ≠ 0 := by
  induction fuel with
  | zero =>
      intro start
      constructor
      · intro _ index lower upper
        omega
      · intro _
        rfl
  | succ fuel ih =>
      intro start
      rw [strlenFrom]
      by_cases zero : buffer.cell start = 0
      · rw [if_pos zero]
        constructor
        · intro found
          cases found
        · intro nonzero
          exact absurd zero (nonzero start (Nat.le_refl _) (by omega))
      · rw [if_neg zero, ih (start + 1)]
        constructor
        · intro nonzero index lower upper
          rcases Nat.eq_or_lt_of_le lower with rfl | later
          · exact zero
          · exact nonzero index later (by omega)
        · intro nonzero index lower upper
          exact nonzero index (by omega) (by omega)

theorem string_holding_eq_none_iff (size : Nat) (items : List α) :
    (holding size items).string = none ↔ size ≤ items.length ∧ 0 ∉ items.take size := by
  unfold string strlen
  rw [Option.map_eq_none_iff, strlenFrom_eq_none_iff]
  constructor
  · intro nonzero
    have full : size ≤ items.length := by
      by_contra short
      exact nonzero items.length (Nat.zero_le _) (by change _ < 0 + size; omega)
        (List.getD_eq_default _ _ (Nat.le_refl _))
    refine ⟨full, ?_⟩
    intro member
    obtain ⟨index, inside, value⟩ := List.getElem_of_mem member
    rw [List.length_take] at inside
    apply nonzero index (Nat.zero_le _) (by change _ < 0 + size; omega)
    rw [List.getElem_take] at value
    change items.getD index 0 = 0
    rw [List.getD_eq_getElem _ _ (by omega), value]
  · intro condition index _ upper zero
    obtain ⟨full, free⟩ := condition
    change index < 0 + size at upper
    have inside : index < items.length := by omega
    apply free
    change items.getD index 0 = 0 at zero
    rw [List.getD_eq_getElem _ _ inside] at zero
    rw [← zero]
    have early : index < (items.take size).length := by
      rw [List.length_take]
      omega
    have member := List.getElem_mem early
    rw [List.getElem_take] at member
    exact member

end

end Buffer

end CharBuffer
