import Mathlib.Data.List.Basic

/-! # Loops over an array

An array is the list of its slots.  The loops are the ones that shift the elements of an array in
place, and each lemma gives the part of the array that the loop determines.  `Fills` is about arrays
that are filled from their first slot on; the last lemma is about loops that count.
-/

namespace Slots

variable {α : Type}

/-- `slots[to] = slots[from]` -/
def assign (slots : List α) (source target : Nat) : List α :=
  match slots[source]? with
  | some value => slots.set target value
  | none => slots

/-- `for (i = 0; i < n; i++) slots[i] = slots[i + distance]` -/
def moveDown (distance : Nat) : (n : Nat) → List α → List α
  | 0, slots => slots
  | n + 1, slots => assign (moveDown distance n slots) (n + distance) n

/-- `for (i = n - 1; i >= 0; i--) slots[i + distance] = slots[i]` -/
def moveUp (distance : Nat) : (n : Nat) → List α → List α
  | 0, slots => slots
  | n + 1, slots => moveUp distance n (assign slots n (n + distance))

/-- `for (i = 1; i <= n; i++) slots[n - i] = items[i]`, where `items[1]` is the first of the `n`. -/
def fillBack : List α → List α → List α
  | [], slots => slots
  | item :: items, slots => fillBack items (slots.set items.length item)

theorem assign_of_lt {slots : List α} {source : Nat} (inside : source < slots.length)
    (target : Nat) : assign slots source target = slots.set target slots[source] := by
  simp [assign, List.getElem?_eq_getElem inside]

theorem moveDown_eq (distance : Nat) {n : Nat} {slots : List α}
    (room : n + distance ≤ slots.length) :
    moveDown distance n slots = (slots.drop distance).take n ++ slots.drop n := by
  induction n with
  | zero => simp [moveDown]
  | succ n inductionHypothesis =>
    have inside : n + distance < slots.length := by omega
    have moved := inductionHypothesis (by omega)
    have lengthTaken : ((slots.drop distance).take n).length = n := by simp; omega
    have source : (moveDown distance n slots)[n + distance]? = some slots[n + distance] := by
      rw [moved, List.getElem?_append_right (by omega), lengthTaken, List.getElem?_drop]
      simp [inside]
    have taken : (slots.drop distance).take (n + 1) =
        (slots.drop distance).take n ++ [slots[n + distance]] := by
      rw [List.take_succ_eq_append_getElem (by simp; omega), List.getElem_drop]
      simp [Nat.add_comm]
    rw [moveDown, assign, source, moved, taken]
    simp only
    rw [List.set_append_right _ _ (by omega), lengthTaken, Nat.sub_self,
      List.drop_eq_getElem_cons (show n < slots.length by omega), List.set_cons_zero,
      List.append_assoc]
    rfl

/-- Shifting left by `count` leaves the elements after the first `count`. -/
theorem take_moveDown {count : Nat} {slots : List α} (enough : count ≤ slots.length) :
    (moveDown count (slots.length - count) slots).take (slots.length - count) =
      slots.drop count := by
  rw [moveDown_eq count (by omega), List.take_append_of_le_length (by simp), List.take_take,
    Nat.min_self, List.take_of_length_le (by simp)]

theorem drop_moveUp (distance : Nat) {n : Nat} {slots : List α}
    (room : n + distance ≤ slots.length) :
    (moveUp distance n slots).drop distance = slots.take n ++ slots.drop (n + distance) := by
  induction n generalizing slots with
  | zero => simp [moveUp]
  | succ n inductionHypothesis =>
    have inside : n < slots.length := by omega
    rw [moveUp, assign_of_lt inside, inductionHypothesis (by simp; omega),
      List.take_set_of_le (by omega), List.take_succ_eq_append_getElem inside, List.append_assoc]
    congr 1
    rw [List.drop_set, if_neg (by omega), Nat.sub_self,
      List.drop_eq_getElem_cons (show n + distance < slots.length by omega), List.set_cons_zero]
    simp [show n + distance + 1 = n + 1 + distance by omega]

theorem fillBack_eq {items slots : List α} (room : items.length ≤ slots.length) :
    fillBack items slots = items.reverse ++ slots.drop items.length := by
  induction items generalizing slots with
  | nil => simp [fillBack]
  | cons item items inductionHypothesis =>
    rw [List.length_cons] at room
    rw [fillBack, inductionHypothesis (by simp; omega), List.drop_set, if_neg (by omega),
      Nat.sub_self, List.drop_eq_getElem_cons (show items.length < slots.length by omega),
      List.set_cons_zero]
    simp

theorem length_assign (slots : List α) (source target : Nat) :
    (assign slots source target).length = slots.length := by
  unfold assign
  split <;> simp

theorem length_moveUp (distance n : Nat) (slots : List α) :
    (moveUp distance n slots).length = slots.length := by
  induction n generalizing slots with
  | zero => rfl
  | succ n inductionHypothesis => rw [moveUp, inductionHypothesis, length_assign]

/-- The first `count` slots hold these items, and none of them is empty. -/
structure Fills (slots : List (Option α)) (count : Nat) (items : List α) : Prop where
  length : items.length = count
  filled : slots.take count = items.map some

namespace Fills

variable {slots : List (Option α)} {count i : Nat} {items : List α} {item : α}

theorem empty (slots : List (Option α)) : Fills slots 0 [] := ⟨rfl, by simp⟩

theorem getElem? (fills : Fills slots count items) (inside : i < count) : slots[i]? = items[i]?.map some := by
  have taken : (slots.take count)[i]? = slots[i]? := List.getElem?_take_of_lt inside
  rw [← taken, fills.filled, List.getElem?_map]

theorem push (fills : Fills slots count items) (room : count < slots.length) :
    Fills (slots.set count (some item)) (count + 1) (items ++ [item]) where
  length := by simp [fills.length]
  filled := by
    rw [List.take_succ_eq_append_getElem (by simpa using room), List.take_set_of_le (by omega), fills.filled]
    simp

/-- The last slot is cleared. -/
theorem pop (fills : Fills slots (count + 1) (items ++ [item])) : Fills (slots.set count none) count items where
  length := by
    have := fills.length
    simpa using this
  filled := by
    have counted : items.length = count := by simpa using fills.length
    have shorter := congrArg (List.take count) fills.filled
    rw [List.take_take, Nat.min_eq_left (by omega)] at shorter
    rw [List.take_set_of_le (by omega), shorter, ← List.map_take, ← counted, List.take_left']
    rfl

end Fills

/-- Of two checks of the slots of an array that agree on all slots but one, the one that accepts this slot
counts one more. -/
theorem countP_eq_add_one {slots : List α} {slot : α} {accepts accepts' : α → Bool} (nodup : slots.Nodup)
    (member : slot ∈ slots) (here : accepts slot = true) (gone : accepts' slot = false)
    (others : ∀ other, other ≠ slot → accepts' other = accepts other) :
    slots.countP accepts = slots.countP accepts' + 1 := by
  induction slots with
  | nil => simp at member
  | cons first rest inductionHypothesis =>
    obtain ⟨absent, nodupRest⟩ := List.nodup_cons.mp nodup
    obtain rfl | inRest := List.mem_cons.mp member
    · have same : rest.countP accepts = rest.countP accepts' := by
        refine List.countP_congr fun other inside => ?_
        rw [others other fun isFirst => absent (isFirst ▸ inside)]
      rw [List.countP_cons_of_pos here, List.countP_cons_of_neg (by simp [gone]), same]
    · have isOther : first ≠ slot := fun same => absent (same ▸ inRest)
      have := inductionHypothesis nodupRest inRest
      rw [List.countP_cons, List.countP_cons, others first isOther, this]
      omega

end Slots
