import Mathlib.Tactic.Ring
import Mathlib.Algebra.Order.Ring.Int
import Mathlib.Data.List.Basic
import Mathlib.Data.List.Induction

/-! # A rolling hash with the truncating remainder

`rolling` multiplies by a base, adds the value of a character and takes the remainder that has the sign of the
dividend, so a character of a negative value can leave it below zero.  `residue` takes the remainder that is never
negative.  The two agree up to the modulus, and the characters at which `rolling` falls below zero and comes
back are read off `residue`.
-/

namespace RollingHash

variable {α : Type*} (value : α → Int) (base modulus : Int)

def rolling (chars : List α) : Int := chars.foldl (fun h c => (h * base + value c).tmod modulus) 0

def residue (chars : List α) : Int := chars.foldl (fun r c => (r * base + value c) % modulus) 0

/-- Behind these characters, this one leaves the hash below zero. -/
def Falls (front : List α) (c : α) : Prop := residue value base modulus front * base + value c < 0

/-- Behind these characters, this one leaves the hash at zero or above. -/
def Rises (front : List α) (c : α) : Prop :=
  residue value base modulus (front ++ [c]) = 0 ∨
    (modulus - residue value base modulus front) * base ≤ value c

/-- Every character that falls has one that rises behind it. -/
def Recovers (chars : List α) : Prop :=
  ∀ front c back, chars = front ++ c :: back → Falls value base modulus front c →
    ∃ between d rest, back = between ++ d :: rest ∧ Rises value base modulus (front ++ c :: between) d

variable {value base modulus}

/-! ## One character -/

@[simp] theorem rolling_nil : rolling value base modulus [] = 0 := rfl

@[simp] theorem residue_nil : residue value base modulus [] = 0 := rfl

theorem rolling_concat (chars : List α) (c : α) : rolling value base modulus (chars ++ [c]) =
    (rolling value base modulus chars * base + value c).tmod modulus := by
  simp [rolling]

theorem residue_concat (chars : List α) (c : α) : residue value base modulus (chars ++ [c]) =
    (residue value base modulus chars * base + value c) % modulus := by
  simp [residue]

variable (value base) in
theorem residue_nonneg (positive : 0 < modulus) (chars : List α) : 0 ≤ residue value base modulus chars := by
  induction chars using List.reverseRecOn with
  | nil => exact le_refl _
  | append_singleton chars c =>
    rw [residue_concat]
    exact Int.emod_nonneg _ positive.ne'

variable (value base) in
theorem residue_lt (positive : 0 < modulus) (chars : List α) : residue value base modulus chars < modulus := by
  induction chars using List.reverseRecOn with
  | nil => exact positive
  | append_singleton chars c =>
    rw [residue_concat]
    exact Int.emod_lt_of_pos _ positive

theorem tmod_nonneg_iff (positive : 0 < modulus) (x : Int) : 0 ≤ x.tmod modulus ↔ 0 ≤ x ∨ x % modulus = 0 := by
  have low : 0 ≤ x % modulus := Int.emod_nonneg _ positive.ne'
  have high : x % modulus < modulus := Int.emod_lt_of_pos _ positive
  have size : (modulus.natAbs : Int) = modulus := Int.natAbs_of_nonneg positive.le
  rw [Int.tmod_eq_emod]
  split
  · rename_i either
    rw [Int.dvd_iff_emod_eq_zero] at either
    exact ⟨fun _ => either, fun _ => by simpa using low⟩
  · rename_i neither
    rw [Int.dvd_iff_emod_eq_zero] at neither
    exact ⟨fun nonneg => by omega, fun either => absurd either neither⟩

/-- A number just below zero is no multiple. -/
theorem emod_ne_zero {x : Int} (above : -modulus < x) (below : x < 0) : x % modulus ≠ 0 := by
  have shifted : (x + modulus) % modulus = x + modulus := Int.emod_eq_of_lt (by omega) (by omega)
  rw [Int.add_emod_right] at shifted
  omega

/-! ## The sign -/

variable (value base) in
/-- The hash is the residue or lies one modulus under it. -/
theorem rolling_eq (positive : 0 < modulus) (chars : List α) :
    rolling value base modulus chars = residue value base modulus chars ∨
      0 < residue value base modulus chars ∧
        rolling value base modulus chars = residue value base modulus chars - modulus := by
  induction chars using List.reverseRecOn with
  | nil => exact .inl rfl
  | append_singleton chars c inductionHypothesis =>
    -- before the remainder the two differ by a multiple of the modulus, or not at all
    have congruent : (rolling value base modulus chars * base + value c) % modulus =
        residue value base modulus (chars ++ [c]) := by
      rw [residue_concat]
      obtain same | ⟨_, under⟩ := inductionHypothesis
      · rw [same]
      · rw [under, show (residue value base modulus chars - modulus) * base + value c =
          residue value base modulus chars * base + value c - modulus * base by ring, Int.sub_mul_emod_self_left]
    have low := residue_nonneg value base positive (chars ++ [c])
    rw [rolling_concat, Int.tmod_eq_emod, congruent]
    split
    · exact .inl (by simp)
    · rename_i neither
      rw [Int.dvd_iff_emod_eq_zero, congruent] at neither
      have size : (modulus.natAbs : Int) = modulus := Int.natAbs_of_nonneg positive.le
      exact .inr ⟨by omega, by rw [size]⟩

variable (value base) in
theorem rolling_bounds (positive : 0 < modulus) (chars : List α) :
    -modulus < rolling value base modulus chars ∧ rolling value base modulus chars < modulus := by
  have low := residue_nonneg value base positive chars
  have high := residue_lt value base positive chars
  obtain same | ⟨_, under⟩ := rolling_eq value base positive chars
  · omega
  · omega

/-- What one character does to the sign. -/
theorem rolling_concat_nonneg_iff (positive : 0 < modulus) (nonneg : 0 ≤ base) {c : α} (small : -modulus < value c)
    (chars : List α) : 0 ≤ rolling value base modulus (chars ++ [c]) ↔
      ¬ Falls value base modulus chars c ∧
        (Rises value base modulus chars c ∨ 0 ≤ rolling value base modulus chars) := by
  have low := residue_nonneg value base positive chars
  have high := residue_lt value base positive chars
  have product : 0 ≤ residue value base modulus chars * base := mul_nonneg low nonneg
  have gap : 0 ≤ (modulus - residue value base modulus chars) * base := mul_nonneg (by omega) nonneg
  -- a fall is so short that it ends at no multiple of the modulus
  have fall : residue value base modulus chars * base + value c < 0 →
      residue value base modulus (chars ++ [c]) ≠ 0 := fun below => by
    rw [residue_concat]
    exact emod_ne_zero (by omega) below
  rw [rolling_concat, tmod_nonneg_iff positive, Falls, Rises]
  obtain same | ⟨some, under⟩ := rolling_eq value base positive chars
  · rw [same, ← residue_concat]
    have above : (0 ≤ residue value base modulus chars) = True := by simp [low]
    rw [above]
    constructor
    · rintro (above | zero)
      · exact ⟨by omega, .inr trivial⟩
      · exact ⟨fun below => fall below zero, .inr trivial⟩
    · rintro ⟨notBelow, _⟩
      exact .inl (by omega)
  -- below zero: the hash comes back at a multiple of the modulus, or where the character outweighs the gap to it
  · have expanded : (residue value base modulus chars - modulus) * base + value c =
        residue value base modulus chars * base + value c - modulus * base := by ring
    have gapExpanded : (modulus - residue value base modulus chars) * base =
        modulus * base - residue value base modulus chars * base := by ring
    rw [under, expanded, Int.sub_mul_emod_self_left, ← residue_concat]
    constructor
    · rintro (above | zero)
      · exact ⟨by omega, .inl (.inr (by omega))⟩
      · exact ⟨fun below => fall below zero, .inl (.inl zero)⟩
    · rintro ⟨_, (zero | rise) | above⟩
      · exact .inr zero
      · exact .inl (by omega)
      · omega

/-! ## Falls and rises along the characters -/

theorem recovers_nil : Recovers value base modulus ([] : List α) := by
  intro front c back split
  simp at split

/-- An element of a list with one more at its end is that one or an element of the list. -/
theorem concat_eq_append_cons_iff {chars front back : List α} {c d : α} : chars ++ [c] = front ++ d :: back ↔
    back = [] ∧ chars = front ∧ c = d ∨ ∃ init, back = init ++ [c] ∧ chars = front ++ d :: init := by
  constructor
  · intro split
    obtain rfl | ⟨init, last, rfl⟩ := List.eq_nil_or_concat' back
    · obtain ⟨same, last⟩ := List.append_inj' split rfl
      exact .inl ⟨rfl, same, List.head_eq_of_cons_eq last⟩
    · have ends : chars ++ [c] = (front ++ d :: init) ++ [last] := by simpa using split
      obtain ⟨same, last⟩ := List.append_inj' ends rfl
      exact .inr ⟨init, by rw [List.head_eq_of_cons_eq last], same⟩
  · rintro (⟨rfl, rfl, rfl⟩ | ⟨init, rfl, rfl⟩)
    · rfl
    · simp

theorem recovers_concat (chars : List α) (c : α) : Recovers value base modulus (chars ++ [c]) ↔
    ¬ Falls value base modulus chars c ∧ (Rises value base modulus chars c ∨ Recovers value base modulus chars) := by
  constructor
  · intro recovers
    refine ⟨fun falls => ?_, ?_⟩
    · obtain ⟨between, d, rest, back, _⟩ := recovers chars c [] rfl falls
      simp at back
    · by_cases rises : Rises value base modulus chars c
      · exact .inl rises
      · -- the last character does not rise, so what rises behind a fall is before it
        refine .inr fun front d back split falls => ?_
        obtain ⟨between, e, rest, splitBack, risesBehind⟩ :=
          recovers front d (back ++ [c]) (by rw [split]; simp) falls
        obtain ⟨_, rfl, rfl⟩ | ⟨init, _, rfl⟩ := concat_eq_append_cons_iff.mp splitBack
        · exact absurd (split ▸ risesBehind) rises
        · exact ⟨between, e, init, rfl, risesBehind⟩
  · rintro ⟨notFalls, either⟩ front d back split falls
    obtain ⟨rfl, rfl, rfl⟩ | ⟨init, rfl, rfl⟩ := concat_eq_append_cons_iff.mp split
    · exact absurd falls notFalls
    · obtain rises | recovers := either
      · exact ⟨init, c, [], rfl, rises⟩
      · obtain ⟨between, e, rest, rfl, rises⟩ := recovers front d init rfl falls
        exact ⟨between, e, rest ++ [c], by simp, rises⟩

theorem rolling_nonneg_iff (positive : 0 < modulus) (nonneg : 0 ≤ base) (small : ∀ c, -modulus < value c)
    (chars : List α) : 0 ≤ rolling value base modulus chars ↔ Recovers value base modulus chars := by
  induction chars using List.reverseRecOn with
  | nil => exact ⟨fun _ => recovers_nil, fun _ => le_refl _⟩
  | append_singleton chars c inductionHypothesis =>
    rw [rolling_concat_nonneg_iff positive nonneg (small c), recovers_concat, inductionHypothesis]

/-- Characters of no negative value never fall. -/
theorem recovers_of_nonneg (positive : 0 < modulus) (nonneg : 0 ≤ base) {chars : List α}
    (values : ∀ c ∈ chars, 0 ≤ value c) : Recovers value base modulus chars := by
  rintro front c back rfl falls
  have product : 0 ≤ residue value base modulus front * base := mul_nonneg (residue_nonneg value base positive front) nonneg
  have above : 0 ≤ value c := values c (by simp)
  rw [Falls] at falls
  omega

end RollingHash
