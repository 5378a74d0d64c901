import Mathlib.Algebra.Order.Floor.Semiring
import Mathlib.Tactic.FieldSimp
import Mathlib.Tactic.Linarith
import Mathlib.Tactic.Positivity
import Mathlib.Tactic.Ring

/-! # An interval in equal cells

An interval is cut into `count` cells of one width.  `index` is the number of the cell of a point and `middle` the
point in the middle of a cell; `index` of the upper end is `count`, which is the number of no cell.
-/

namespace Cells

variable {K : Type} [Field K] [LinearOrder K] [FloorSemiring K]

def index (low span : K) (count : Nat) (x : K) : Nat := ⌊(x - low) / span * count⌋₊

def middle (low span : K) (count cell : Nat) : K := (cell + 1 / 2) / count * span + low

variable [IsStrictOrderedRing K] {low span x : K} {count cell : Nat}

theorem index_lt_iff (wide : 0 < span) (some : 0 < count) (above : low ≤ x) :
    index low span count x < count ↔ x < low + span := by
  have positive : (0 : K) < count := Nat.cast_pos.mpr some
  have share : 0 ≤ (x - low) / span * count := by
    have : 0 ≤ x - low := sub_nonneg.mpr above
    positivity
  rw [index, Nat.floor_lt share]
  calc (x - low) / span * count < count ↔ (x - low) / span < 1 := by
        rw [mul_lt_iff_lt_one_left positive]
    _ ↔ x - low < span := div_lt_one wide
    _ ↔ x < low + span := sub_lt_iff_lt_add'

/-- The upper end falls behind the last cell. -/
theorem index_upper (low : K) (count : Nat) (wide : 0 < span) : index low span count (low + span) = count := by
  rw [index, add_sub_cancel_left, div_self wide.ne', one_mul, Nat.floor_natCast]

/-- The middle of the cell of a point is half a cell away at most. -/
theorem abs_middle_sub_le (wide : 0 < span) (some : 0 < count) (above : low ≤ x) :
    |middle low span count (index low span count x) - x| ≤ span / (2 * count) := by
  have positive : (0 : K) < count := Nat.cast_pos.mpr some
  have share : 0 ≤ (x - low) / span * count := by
    have : 0 ≤ x - low := sub_nonneg.mpr above
    positivity
  have floor : (index low span count x : K) ≤ (x - low) / span * count := Nat.floor_le share
  have next : (x - low) / span * count < index low span count x + 1 := Nat.lt_floor_add_one _
  have apart : middle low span count (index low span count x) - x =
      (index low span count x + 1 / 2 - (x - low) / span * count) * (span / count) := by
    rw [middle]
    field_simp
    ring
  have half : |(index low span count x : K) + 1 / 2 - (x - low) / span * count| ≤ 1 / 2 := by
    rw [abs_le]
    constructor <;> linarith
  calc |middle low span count (index low span count x) - x|
      = |(index low span count x : K) + 1 / 2 - (x - low) / span * count| * (span / count) := by
        rw [apart, abs_mul, abs_of_pos (by positivity : 0 < span / (count : K))]
    _ ≤ 1 / 2 * (span / count) := mul_le_mul_of_nonneg_right half (by positivity)
    _ = span / (2 * count) := by field_simp

/-- The middle of a cell is in the interval. -/
theorem middle_mem (low : K) (wide : 0 < span) (isCell : cell < count) :
    low ≤ middle low span count cell ∧ middle low span count cell ≤ low + span := by
  have positive : (0 : K) < count := Nat.cast_pos.mpr (by omega)
  have inside : (cell : K) + 1 ≤ count := by exact_mod_cast isCell
  have share : ((cell : K) + 1 / 2) / count ≤ 1 := by
    rw [div_le_one positive]
    linarith
  have lower : 0 ≤ ((cell : K) + 1 / 2) / count * span := by positivity
  have upper : ((cell : K) + 1 / 2) / count * span ≤ span := mul_le_of_le_one_left wide.le share
  rw [middle]
  constructor <;> linarith

end Cells
