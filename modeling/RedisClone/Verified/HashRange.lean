import RedisClone.Lib.RollingHash
import RedisClone.Verified.Store

/-! # The range of `hash`

No round of the loop of `hash` overflows, and the result lies within `TABLE_SIZE` of zero.  It is an index of `table` and
of `watchers` unless a character from 0x80 on left it below zero and no later one brought it back (`hash_in_range_iff`).
-/

namespace RedisClone

open CString RollingHash

/-- What `int` holds. -/
def FitsInt (n : Int) : Prop := -2 ^ 31 ≤ n ∧ n < 2 ^ 31

/-- `hash` overflows at no character of the key and gives an index of `table` and of `watchers`. -/
structure HashInRange (key : Bytes) : Prop where
  rounds : ∀ front c back, key = front ++ c :: back →
    FitsInt (hash front * 31) ∧ FitsInt (hash front * 31 + signedChar c)
  index : 0 ≤ hash key ∧ hash key < tableSize
  access : ∀ {D : Type} (w : World D), ∃ bucket : Bucket, tableIndex key w = .ok (bucket, w) ∧ (bucket : Int) = hash key

/-! ## Bounds for every key -/

theorem hash_eq_rolling (key : Bytes) : hash key = rolling signedChar 31 tableSize key := rfl

theorem signedChar_bounds (c : UInt8) : -128 ≤ signedChar c ∧ signedChar c < 128 := by
  have byte : c.toNat < 256 := c.toNat_lt
  rw [signedChar]
  split
  · rename_i ascii
    have small : c.toNat < 128 := ascii
    omega
  · rename_i notAscii
    have large : 128 ≤ c.toNat := UInt8.le_iff_toNat_le.mp (UInt8.not_lt.mp notAscii)
    omega

theorem hash_bounds (key : Bytes) : -1024 < hash key ∧ hash key < 1024 :=
  rolling_bounds signedChar 31 (by decide) key

theorem hash_nonneg_iff (key : Bytes) : 0 ≤ hash key ↔ Recovers signedChar 31 tableSize key := by
  rw [hash_eq_rolling]
  refine rolling_nonneg_iff (by decide) (by decide) (fun c => ?_) key
  have low := (signedChar_bounds c).1
  rw [show ((tableSize : Nat) : Int) = 1024 from rfl]
  omega

/-- The round of a character stays far from the limits of `int`. -/
theorem hash_round_fits (front : Bytes) (c : UInt8) :
    FitsInt (hash front * 31) ∧ FitsInt (hash front * 31 + signedChar c) := by
  have range := hash_bounds front
  have char := signedChar_bounds c
  refine ⟨⟨?_, ?_⟩, ?_, ?_⟩ <;> omega

/-! ## The index -/

theorem bucketOf_of_nonneg {key : Bytes} (nonneg : 0 ≤ hash key) :
    ∃ bucket : Bucket, bucketOf key = some bucket ∧ (bucket : Int) = hash key := by
  have high := (hash_bounds key).2
  have inRange : (hash key).toNat < tableSize := by
    rw [show tableSize = 1024 from rfl]
    omega
  exact ⟨⟨(hash key).toNat, inRange⟩, by simp [bucketOf, nonneg, inRange], Int.toNat_of_nonneg nonneg⟩

theorem bucketOf_of_ascii {key : Bytes} (ascii : ∀ c ∈ key, c < 128) : bucketOf key ≠ none := by
  have nonneg : 0 ≤ hash key := (hash_nonneg_iff key).mpr (recovers_of_nonneg (by decide) (by decide) fun c member => by
    rw [signedChar, if_pos (ascii c member)]
    exact Int.natCast_nonneg _)
  obtain ⟨bucket, inBucket, _⟩ := bucketOf_of_nonneg nonneg
  simp [inBucket]

theorem hash_in_range_iff (key : Bytes) : HashInRange key ↔ Recovers signedChar 31 tableSize key := by
  rw [← hash_nonneg_iff]
  constructor
  · exact fun inRange => inRange.index.1
  · intro nonneg
    obtain ⟨bucket, inBucket, same⟩ := bucketOf_of_nonneg nonneg
    exact
      { rounds := fun front c _ _ => hash_round_fits front c
        index := ⟨nonneg, (hash_bounds key).2⟩
        access := fun w => ⟨bucket, tableIndex_of_bucket inBucket w, same⟩ }

/-- `GET` of the byte 0x80 reads `table[-128]`. -/
theorem hash_below_zero : ¬ HashInRange [0x80] := by
  intro inRange
  have nonneg : 0 ≤ hash [0x80] := inRange.index.1
  exact absurd nonneg (by decide)

end RedisClone
