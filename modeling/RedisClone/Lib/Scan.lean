import Mathlib.Order.Lattice
import Mathlib.Tactic.Cases

/-! # A scan for the largest

`firstLargest` goes through a list and keeps the first element of the largest measure above a bound.  An element
is measured when the scan gets to it, so the measure depends on the index also.
-/

namespace Scan

variable {α β γ : Type} [LinearOrder β] [LinearOrder γ]

def firstLargest : (measure : Nat → α → β) → List α → (kept : Option α) → (largest : β) → Option α
  | _, [], kept, _ => kept
  | measure, x :: xs, kept, largest =>
    if largest < measure 0 x then firstLargest (fun i => measure (i + 1)) xs (some x) (measure 0 x)
    else firstLargest (fun i => measure (i + 1)) xs kept largest

/-- The element at an index is the first of the largest measure. -/
structure FirstLargest (measure : Nat → α → β) (xs : List α) (i : Nat) (x : α) : Prop where
  at_index : xs[i]? = some x
  largest : ∀ j y, xs[j]? = some y → measure j y ≤ measure i x
  first : ∀ j y, xs[j]? = some y → j < i → measure j y < measure i x

variable {measure : Nat → α → β} {xs : List α} {x y : α} {i : Nat} {bound : β}

/-- The measures of the list and of the element before it. -/
theorem forall_cons_iff {p : Nat → α → Prop} :
    (∀ j z, (x :: xs)[j]? = some z → p j z) ↔ p 0 x ∧ ∀ j z, xs[j]? = some z → p (j + 1) z := by
  constructor
  · exact fun all => ⟨all 0 x rfl, fun j z isAt => all (j + 1) z (by simpa using isAt)⟩
  · rintro ⟨head, tail⟩ j z isAt
    cases j with
    | zero =>
      obtain rfl : x = z := by simpa using isAt
      exact head
    | succ j => exact tail j z (by simpa using isAt)

theorem FirstLargest.head (below : ∀ j z, xs[j]? = some z → measure (j + 1) z ≤ measure 0 x) :
    FirstLargest measure (x :: xs) 0 x where
  at_index := rfl
  largest := forall_cons_iff.mpr ⟨le_rfl, below⟩
  first := by simp

theorem FirstLargest.cons (isFirst : FirstLargest (fun i => measure (i + 1)) xs i y)
    (less : measure 0 x < measure (i + 1) y) : FirstLargest measure (x :: xs) (i + 1) y where
  at_index := by simpa using isFirst.at_index
  largest := forall_cons_iff.mpr ⟨less.le, isFirst.largest⟩
  first := forall_cons_iff.mpr ⟨fun _ => less, fun j z isAt before =>
    isFirst.first j z isAt (by omega)⟩

/-- The scan keeps what it had where nothing is larger, and finds the first largest otherwise. -/
theorem firstLargest_cases (measure : Nat → α → β) (xs : List α) (kept : Option α) (bound : β) :
    firstLargest measure xs kept bound = kept ∧ (∀ j y, xs[j]? = some y → measure j y ≤ bound) ∨
      ∃ i x, firstLargest measure xs kept bound = some x ∧ bound < measure i x ∧
        FirstLargest measure xs i x := by
  induction xs generalizing measure kept bound with
  | nil => exact .inl ⟨rfl, by simp⟩
  | cons x xs inductionHypothesis =>
    simp only [firstLargest]
    split
    · rename_i larger
      obtain ⟨keeps, below⟩ | ⟨i, y, finds, above, isFirst⟩ :=
        inductionHypothesis (fun i => measure (i + 1)) (some x) (measure 0 x)
      · exact .inr ⟨0, x, keeps, larger, .head below⟩
      · exact .inr ⟨i + 1, y, finds, larger.trans above, isFirst.cons above⟩
    · rename_i notLarger
      have small : measure 0 x ≤ bound := not_lt.mp notLarger
      obtain ⟨keeps, below⟩ | ⟨i, y, finds, above, isFirst⟩ :=
        inductionHypothesis (fun i => measure (i + 1)) kept bound
      · exact .inl ⟨keeps, forall_cons_iff.mpr ⟨small, below⟩⟩
      · exact .inr ⟨i + 1, y, finds, above, isFirst.cons (small.trans_lt above)⟩

theorem firstLargest_mem (finds : firstLargest measure xs none bound = some x) : x ∈ xs := by
  obtain ⟨keeps, _⟩ | ⟨i, y, finds', _, isFirst⟩ := firstLargest_cases measure xs none bound
  · simp [keeps] at finds
  · obtain rfl : x = y := Option.some.inj (finds.symm.trans finds')
    exact List.mem_of_getElem? isFirst.at_index

/-- The scan finds nothing where nothing is above the bound. -/
theorem firstLargest_eq_none_iff :
    firstLargest measure xs none bound = none ↔ ∀ j y, xs[j]? = some y → measure j y ≤ bound := by
  obtain ⟨keeps, below⟩ | ⟨i, x, finds, above, isFirst⟩ := firstLargest_cases measure xs none bound
  · exact ⟨fun _ => below, fun _ => keeps⟩
  · constructor
    · intro nothing
      simp [nothing] at finds
    · exact fun below => absurd (below i x isFirst.at_index) (not_le.mpr above)

/-- The element that the scan finds has the least rank, if and only if every element above the bound that some
other outranks is beaten by one of the least rank: that measures more, or as much and comes first. -/
theorem firstLargest_least_iff (rank : α → γ) :
    (∀ x, firstLargest measure xs none bound = some x → ∀ y ∈ xs, rank x ≤ rank y) ↔
      ∀ j y, xs[j]? = some y → bound < measure j y → (∃ z ∈ xs, rank z < rank y) →
        ∃ i x, xs[i]? = some x ∧ (∀ z ∈ xs, rank x ≤ rank z) ∧
          (measure j y < measure i x ∨ measure j y = measure i x ∧ i < j) := by
  obtain ⟨keeps, below⟩ | ⟨i, x, finds, above, isFirst⟩ := firstLargest_cases measure xs none bound
  · constructor
    · exact fun _ j y isAt exceeds => absurd (below j y isAt) (not_le.mpr exceeds)
    · intro _ x finds
      simp [keeps] at finds
  · constructor
    · rintro least j y isAt exceeds ⟨z, member, lower⟩
      refine ⟨i, x, isFirst.at_index, least x finds, ?_⟩
      obtain less | same := (isFirst.largest j y isAt).lt_or_eq
      · exact .inl less
      · refine .inr ⟨same, ?_⟩
        by_contra notBefore
        obtain rfl | later : j = i ∨ j < i := by omega
        · obtain rfl : y = x := Option.some.inj (isAt.symm.trans isFirst.at_index)
          exact absurd (least y finds z member) (not_le.mpr lower)
        · exact absurd same (isFirst.first j y isAt later).ne
    · intro beaten x' finds' y member
      obtain rfl : x = x' := Option.some.inj (finds.symm.trans finds')
      by_contra lower
      obtain ⟨k, z, isAt, least, more | ⟨same, before⟩⟩ :=
        beaten i x isFirst.at_index above ⟨y, member, not_le.mp lower⟩
      · exact absurd (isFirst.largest k z isAt) (not_le.mpr more)
      · exact absurd (isFirst.first k z isAt before) (by rw [same]; exact lt_irrefl _)

end Scan
