import Mathlib.Data.List.Basic

/-! # A byte stream that arrives in segments

A stream connection keeps the order of its bytes and nothing else: a reader gets some of the next segment, at most as
much as it asks for.  `recv` is one call.  `discard` calls it until a number of bytes is read, and then stands behind
exactly these bytes, with the cuts behind them as they were (`discard_cut`).
-/

namespace Segments

variable {α : Type} {segment : List α} {segments : List (List α)} {size n : Nat}

/-- A call that asks for `size` items: what it gives, and the segments that are left.  It gives nothing behind the last
segment. -/
def recv (size : Nat) : List (List α) → List α × List (List α)
  | [] => ([], [])
  | segment :: segments =>
    if segment.length ≤ size then (segment, segments) else (segment.take size, segment.drop size :: segments)

theorem recv_whole (fits : segment.length ≤ size) : recv size (segment :: segments) = (segment, segments) := if_pos fits

theorem recv_part (long : size < segment.length) :
    recv size (segment :: segments) = (segment.take size, segment.drop size :: segments) :=
  if_neg (Nat.not_le.mpr long)

/-- No segment is empty. -/
def Nonempty (segments : List (List α)) : Prop := ∀ segment ∈ segments, segment ≠ []

/-- Calls that ask for at most `size` items at a time, until `n` of them are read or there are no more. -/
def discard (size : Nat) : (fuel n : Nat) → List (List α) → List (List α)
  | 0, _, segments => segments
  | fuel + 1, n, segments =>
    if n = 0 then segments
    else
      let received := recv (min n size) segments
      if received.1 = [] then received.2 else discard size fuel (n - received.1.length) received.2

/-- A segment that is discarded as a whole. -/
theorem discard_cons {fuel : Nat} (notEmpty : segment ≠ []) (positive : 0 < size) (enough : n ≤ fuel)
    (inside : segment.length ≤ n) : ∃ fuel', n - segment.length ≤ fuel' ∧
      discard size fuel n (segment :: segments) = discard size fuel' (n - segment.length) segments := by
  induction fuel generalizing n segment with
  | zero =>
    have pos := List.length_pos_iff.mpr notEmpty
    omega
  | succ fuel inductionHypothesis =>
    have pos := List.length_pos_iff.mpr notEmpty
    rw [discard, if_neg (by omega)]
    by_cases fits : segment.length ≤ min n size
    · simp only [recv_whole fits, if_neg notEmpty]
      exact ⟨fuel, by omega, rfl⟩
    · have long := Nat.lt_of_not_le fits
      have given : (segment.take (min n size)).length = min n size := List.length_take_of_le (by omega)
      have isSome : segment.take (min n size) ≠ [] := List.ne_nil_of_length_pos (by omega)
      simp only [recv_part long, if_neg isSome, given]
      have remains : segment.drop (min n size) ≠ [] := List.ne_nil_of_length_pos (by rw [List.length_drop]; omega)
      obtain ⟨fuel', enough', same⟩ : ∃ fuel', n - min n size - _ ≤ fuel' ∧ _ =_ :=
        inductionHypothesis remains (by omega) (by rw [List.length_drop]; omega)
      rw [List.length_drop] at enough' same
      rw [show n - min n size - (segment.length - min n size) = n - segment.length by omega] at enough' same
      exact ⟨fuel', enough', same⟩

/-- The first items of a segment are discarded, and the rest of it stays. -/
theorem discard_part {fuel : Nat} (positive : 0 < size) (enough : n ≤ fuel) (long : n < segment.length) :
    discard size fuel n (segment :: segments) = segment.drop n :: segments := by
  induction fuel generalizing n segment with
  | zero =>
    obtain rfl : n = 0 := by omega
    rfl
  | succ fuel inductionHypothesis =>
    rw [discard]
    split
    · rename_i isZero
      rw [isZero, List.drop_zero]
    · rename_i notZero
      have given : (segment.take (min n size)).length = min n size := List.length_take_of_le (by omega)
      have isSome : segment.take (min n size) ≠ [] := List.ne_nil_of_length_pos (by omega)
      simp only [recv_part (show min n size < segment.length by omega), if_neg isSome, given]
      rw [inductionHypothesis (by omega) (by rw [List.length_drop]; omega), List.drop_drop,
        show min n size + (n - min n size) = n by omega]

/-! ## Cuts behind a front -/

/-- Segments of a front and of what is behind it: the front is cut anywhere, and the last piece of it may be in one
segment with the first of the segments behind it. -/
inductive Cut : (front : List α) → (segments behind : List (List α)) → Prop where
  | none (behind : List (List α)) : Cut [] behind behind
  | within (front other : List α) (behind : List (List α)) (notEmpty : other ≠ []) :
      Cut front ((front ++ other) :: behind) (other :: behind)
  | piece {front : List α} {segments behind : List (List α)} (segment : List α) (cut : Cut front segments behind) :
      Cut (segment ++ front) (segment :: segments) behind

variable {front : List α} {behind : List (List α)}

theorem Cut.flatten (cut : Cut front segments behind) : segments.flatten = front ++ behind.flatten := by
  induction cut with
  | none behind => rfl
  | within front other behind notEmpty => rw [List.flatten_cons, List.flatten_cons, List.append_assoc]
  | piece segment cut inductionHypothesis => rw [List.flatten_cons, inductionHypothesis, List.append_assoc]

/-- The front is discarded, and the segments behind it are as they were. -/
theorem discard_cut {fuel : Nat} (cut : Cut front segments behind) (nonempty : Nonempty segments) (positive : 0 < size)
    (enough : front.length ≤ fuel) : discard size fuel front.length segments = behind := by
  induction cut generalizing fuel with
  | none behind =>
    cases fuel with
    | zero => rfl
    | succ fuel => exact if_pos rfl
  | within front other behind notEmpty =>
    have pos := List.length_pos_iff.mpr notEmpty
    rw [discard_part positive enough (by rw [List.length_append]; omega), List.drop_left]
  | piece segment cut inductionHypothesis =>
    rw [List.length_append] at enough ⊢
    obtain ⟨fuel', enough', same⟩ : ∃ fuel', _ ∧ discard size fuel _ (segment :: _) = discard size fuel' _ _ :=
      discard_cons (nonempty segment List.mem_cons_self) positive enough (Nat.le_add_right _ _)
    rw [Nat.add_sub_cancel_left] at enough' same
    rw [same]
    exact inductionHypothesis (fun other member => nonempty other (List.mem_cons_of_mem _ member)) enough'

end Segments
