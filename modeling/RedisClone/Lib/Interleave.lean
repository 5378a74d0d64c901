import Mathlib.Tactic.Ring

/-! # Interleaving the bits of two words

A word is spread over twice its width by moving the upper half of every block, then of every half block, and
so on.  `Spaced s v w` says that the bits of `v` stand in `w` in blocks of `s`, with a gap of `s` zeros behind every
block: `halve` is one such step, `double` takes it back.
-/

namespace Interleave

variable {m n s : Nat}

/-- Bit `j` of the word where the bits of `v` stand in blocks of `s`. -/
def spacedBit (s : Nat) (v : BitVec m) (j : Nat) : Bool :=
  decide (j % (2 * s) < s) && v.getLsbD (j / (2 * s) * s + j % (2 * s))

def Spaced (s : Nat) (v : BitVec m) (w : BitVec n) : Prop := ∀ j < n, w.getLsbD j = spacedBit s v j

/-- The mask of the blocks. -/
def Masks (s : Nat) (mask : BitVec n) : Prop := ∀ j < n, mask.getLsbD j = decide (j % (2 * s) < s)

instance (s : Nat) (mask : BitVec n) : Decidable (Masks s mask) :=
  inferInstanceAs (Decidable (∀ j < n, mask.getLsbD j = decide (j % (2 * s) < s)))

section Spaced

variable {v : BitVec m} {w mask : BitVec n}

/-! ## The bits of a block -/

theorem spacedBit_at {r : Nat} (q : Nat) (inside : r < 2 * s) :
    spacedBit s v (2 * s * q + r) = (decide (r < s) && v.getLsbD (q * s + r)) := by
  have offset : (2 * s * q + r) % (2 * s) = r := by rw [Nat.mul_add_mod, Nat.mod_eq_of_lt inside]
  have block : (2 * s * q + r) / (2 * s) = q := by
    rw [Nat.mul_add_div (by omega), Nat.div_eq_of_lt inside, Nat.add_zero]
  rw [spacedBit, offset, block]

theorem spacedBit_first {r : Nat} (q : Nat) (inside : r < s) :
    spacedBit s v (2 * (2 * s) * q + r) = spacedBit (2 * s) v (2 * (2 * s) * q + r) := by
  have here : 2 * (2 * s) * q + r = 2 * s * (2 * q) + r := by ring
  have same : 2 * q * s + r = q * (2 * s) + r := by ring
  rw [spacedBit_at q (by omega : r < 2 * (2 * s)), here, spacedBit_at (2 * q) (by omega), same]
  simp [inside, show r < 2 * s by omega]

theorem spacedBit_second {r : Nat} (q : Nat) (inside : r < s) :
    spacedBit s v (2 * (2 * s) * q + (r + 2 * s)) = spacedBit (2 * s) v (2 * (2 * s) * q + (r + s)) := by
  have here : 2 * (2 * s) * q + (r + 2 * s) = 2 * s * (2 * q + 1) + r := by ring
  have same : (2 * q + 1) * s + r = q * (2 * s) + (r + s) := by ring
  rw [spacedBit_at q (by omega : r + s < 2 * (2 * s)), here, spacedBit_at (2 * q + 1) (by omega), same]
  simp [inside, show r + s < 2 * s by omega]

theorem spacedBit_gap {r : Nat} (q : Nat) (low : s ≤ r) (high : r < 2 * s) :
    spacedBit s v (2 * s * q + r) = false := by
  rw [spacedBit_at q high, decide_eq_false (by omega), Bool.false_and]

/-- A position in a block of `4 * s`. -/
theorem exists_block (positive : 0 < s) (j : Nat) : ∃ q r, j = 2 * (2 * s) * q + r ∧ r < 2 * (2 * s) :=
  ⟨j / (2 * (2 * s)), j % (2 * (2 * s)), (Nat.div_add_mod _ _).symm, Nat.mod_lt _ (by omega)⟩

/-- A block of the mask. -/
theorem mod_block (q r : Nat) : (2 * (2 * s) * q + r) % (2 * s) = r % (2 * s) := by
  rw [show 2 * (2 * s) * q + r = 2 * s * (2 * q) + r by ring, Nat.mul_add_mod]

/-! ## The steps -/

theorem Spaced.halve (positive : 0 < s) (holds : Spaced (2 * s) v w) (masks : Masks s mask) :
    Spaced s v ((w ||| w <<< s) &&& mask) := by
  intro j below
  obtain ⟨q, r, rfl, inside⟩ := exists_block positive j
  rw [BitVec.getLsbD_and, BitVec.getLsbD_or, BitVec.getLsbD_shiftLeft, masks _ below, mod_block,
    holds _ below, decide_eq_true below, Bool.true_and]
  by_cases first : r < s
  · -- the lower half of a block stays
    rw [spacedBit_first q first, Nat.mod_eq_of_lt (by omega : r < 2 * s), decide_eq_true first, Bool.and_true]
    by_cases start : 2 * (2 * s) * q + r < s
    · simp [start]
    · obtain ⟨q', rfl⟩ : ∃ q', q = q' + 1 := Nat.exists_eq_succ_of_ne_zero (by rintro rfl; omega)
      have gap : 2 * (2 * s) * (q' + 1) + r - s = 2 * (2 * s) * q' + (r + 3 * s) := by
        have : 2 * (2 * s) * (q' + 1) = 2 * (2 * s) * q' + 4 * s := by ring
        omega
      have behind : w.getLsbD (2 * (2 * s) * (q' + 1) + r - s) = false := by
        rw [gap, holds _ (by omega), spacedBit_gap q' (by omega) (by omega)]
      rw [behind, Bool.and_false, Bool.or_false]
  · by_cases second : 2 * s ≤ r ∧ r < 3 * s
    · -- its upper half moves up
      obtain ⟨r, rfl⟩ : ∃ r', r = r' + 2 * s := ⟨r - 2 * s, by omega⟩
      have source : 2 * (2 * s) * q + (r + 2 * s) - s = 2 * (2 * s) * q + (r + s) := by omega
      rw [spacedBit_second q (by omega), Nat.add_mod_right, Nat.mod_eq_of_lt (by omega : r < 2 * s),
        decide_eq_true (by omega : r < s), spacedBit_gap q (by omega) (by omega), source, holds _ (by omega)]
      simp [show ¬ 2 * (2 * s) * q + (r + 2 * s) < s by omega]
    · -- the rest is masked
      have gap : ¬ r % (2 * s) < s := by
        by_cases low : r < 2 * s
        · rw [Nat.mod_eq_of_lt low]
          exact first
        · rw [Nat.mod_eq_sub_mod (by omega), Nat.mod_eq_of_lt (by omega : r - 2 * s < 2 * s)]
          omega
      have target : spacedBit s v (2 * (2 * s) * q + r) = false := by
        rw [spacedBit, mod_block, decide_eq_false gap, Bool.false_and]
      rw [target, decide_eq_false gap, Bool.and_false]

theorem Spaced.double (positive : 0 < s) (whole : 2 * (2 * s) ∣ n) (holds : Spaced s v w)
    (masks : Masks (2 * s) mask) : Spaced (2 * s) v ((w ||| w >>> s) &&& mask) := by
  intro j below
  obtain ⟨q, r, rfl, inside⟩ := exists_block positive j
  obtain ⟨blocks, rfl⟩ := whole
  have room : 2 * (2 * s) * q + 2 * (2 * s) ≤ 2 * (2 * s) * blocks := by
    have : q < blocks := Nat.lt_of_mul_lt_mul_left (Nat.lt_of_le_of_lt (Nat.le_add_right _ r) below)
    calc 2 * (2 * s) * q + 2 * (2 * s) = 2 * (2 * s) * (q + 1) := by ring
      _ ≤ 2 * (2 * s) * blocks := Nat.mul_le_mul_left _ this
  rw [BitVec.getLsbD_and, BitVec.getLsbD_or, BitVec.getLsbD_ushiftRight, masks _ below, Nat.mul_add_mod,
    Nat.mod_eq_of_lt inside, holds _ below]
  by_cases first : r < s
  · -- the lower half of a block stays, and a gap comes over it
    have gap : spacedBit s v (s + (2 * (2 * s) * q + r)) = false := by
      rw [show s + (2 * (2 * s) * q + r) = 2 * s * (2 * q) + (r + s) by ring,
        spacedBit_gap (2 * q) (by omega) (by omega)]
    rw [holds _ (by omega), gap, Bool.or_false, spacedBit_first q first, decide_eq_true (by omega), Bool.and_true]
  · by_cases second : r < 2 * s
    · -- its upper half comes back
      obtain ⟨r, rfl⟩ : ∃ r', r = r' + s := ⟨r - s, by omega⟩
      have gap : spacedBit s v (2 * (2 * s) * q + (r + s)) = false := by
        rw [show 2 * (2 * s) * q + (r + s) = 2 * s * (2 * q) + (r + s) by ring,
          spacedBit_gap (2 * q) (by omega) (by omega)]
      have source : s + (2 * (2 * s) * q + (r + s)) = 2 * (2 * s) * q + (r + 2 * s) := by ring
      rw [gap, Bool.false_or, source, holds _ (by omega), spacedBit_second q (by omega), decide_eq_true second,
        Bool.and_true]
    · rw [decide_eq_false second, Bool.and_false, spacedBit_gap q (by omega) inside]

end Spaced

/-! ## The ends -/

/-- A word in its own width is one block. -/
theorem spaced_low (v mask : BitVec (2 * m)) (masks : Masks m mask) : Spaced m (v.setWidth m) (v &&& mask) := by
  intro j below
  rw [BitVec.getLsbD_and, masks j below, spacedBit, Nat.mod_eq_of_lt below, Nat.div_eq_of_lt below, Nat.zero_mul,
    Nat.zero_add, BitVec.getLsbD_setWidth, Bool.and_comm]
  by_cases low : j < m <;> simp [low]

theorem Spaced.eq_setWidth {v : BitVec m} {w : BitVec (2 * m)} (holds : Spaced m v w) : w = v.setWidth (2 * m) := by
  refine BitVec.eq_of_getLsbD_eq fun j below => ?_
  rw [holds j below, spacedBit, Nat.mod_eq_of_lt below, Nat.div_eq_of_lt below, Nat.zero_mul, Nat.zero_add,
    BitVec.getLsbD_setWidth, decide_eq_true below, Bool.true_and]
  by_cases low : j < m
  · simp [low]
  · rw [BitVec.getLsbD_of_ge v j (by omega), Bool.and_false]

/-! ## Two words -/

section Two

variable {x y : BitVec m} {upper lower mask : BitVec (2 * m)}

theorem Spaced.getLsbD_even {i : Nat} (holds : Spaced 1 y lower) (below : i < m) :
    lower.getLsbD (2 * i) = y.getLsbD i := by
  rw [holds _ (by omega), spacedBit]
  simp

theorem Spaced.getLsbD_odd {i : Nat} (holds : Spaced 1 y lower) (below : i < m) :
    lower.getLsbD (2 * i + 1) = false := by
  rw [holds _ (by omega), spacedBit]
  simp

/-- The even bits of the interleaved word are the one word, the odd bits are the other. -/
theorem even_bit {i : Nat} (odd : Spaced 1 x upper) (even : Spaced 1 y lower) (below : i < m) :
    (upper <<< 1 ||| lower).getLsbD (2 * i) = y.getLsbD i := by
  rw [BitVec.getLsbD_or, BitVec.getLsbD_shiftLeft, even.getLsbD_even below]
  cases i with
  | zero => simp
  | succ i =>
    rw [show 2 * (i + 1) - 1 = 2 * i + 1 by omega, odd.getLsbD_odd (by omega), Bool.and_false, Bool.false_or]

theorem odd_bit {i : Nat} (odd : Spaced 1 x upper) (even : Spaced 1 y lower) (below : i < m) :
    (upper <<< 1 ||| lower).getLsbD (2 * i + 1) = x.getLsbD i := by
  rw [BitVec.getLsbD_or, BitVec.getLsbD_shiftLeft, even.getLsbD_odd below, Nat.add_sub_cancel, odd.getLsbD_even below]
  simp [show 2 * i + 1 < 2 * m by omega]

/-- A word with these even bits is spaced once the odd bits are masked. -/
theorem spaced_of_even {w : BitVec (2 * m)} (masks : Masks 1 mask)
    (bits : ∀ i < m, w.getLsbD (2 * i) = x.getLsbD i) : Spaced 1 x (w &&& mask) := by
  intro j below
  rw [BitVec.getLsbD_and, masks j below, spacedBit, Bool.and_comm]
  by_cases even : j % 2 = 0
  · obtain ⟨i, rfl⟩ : ∃ i, j = 2 * i := ⟨j / 2, by omega⟩
    simp [bits i (by omega)]
  · simp [show j % 2 = 1 by omega]

end Two

end Interleave
