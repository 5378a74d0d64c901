import Mathlib.Algebra.Order.Ring.Nat
import RedisClone.Lib.CString

/-! # Numbers in a fixed number of bytes

`leBytes` and `beBytes` write the low bytes of a number, least or most significant byte first; `littleEndian` and
`bigEndian` read any bytes as a number.  A number that fits in the bytes reads back.
-/

namespace CString

/-- Bytes as an unsigned big-endian number. -/
def bigEndian (memory : Bytes) : Nat := memory.foldl (fun value c => 256 * value + c.toNat) 0

def leBytes : (width : Nat) → Nat → Bytes
  | 0, _ => []
  | width + 1, n => UInt8.ofNat n :: leBytes width (n / 256)

def beBytes (width n : Nat) : Bytes := (leBytes width n).reverse

@[simp] theorem length_leBytes (width n : Nat) : (leBytes width n).length = width := by
  induction width generalizing n with
  | zero => rfl
  | succ width inductionHypothesis => simp [leBytes, inductionHypothesis]

@[simp] theorem length_beBytes (width n : Nat) : (beBytes width n).length = width := by
  simp [beBytes]

theorem littleEndian_leBytes {width n : Nat} (fits : n < 256 ^ width) : littleEndian (leBytes width n) = n := by
  induction width generalizing n with
  | zero =>
    have : n = 0 := by simpa using fits
    simp [leBytes, littleEndian, this]
  | succ width inductionHypothesis =>
    have high : n / 256 < 256 ^ width := Nat.div_lt_of_lt_mul (by rwa [Nat.pow_succ'] at fits)
    have low : (UInt8.ofNat n).toNat = n % 256 := UInt8.toNat_ofNat'
    calc littleEndian (leBytes (width + 1) n)
        = (UInt8.ofNat n).toNat + 256 * littleEndian (leBytes width (n / 256)) := rfl
      _ = n % 256 + 256 * (n / 256) := by rw [low, inductionHypothesis high]
      _ = n := Nat.mod_add_div n 256

/-- Reading from the other end reads the other order. -/
theorem bigEndian_reverse (memory : Bytes) : bigEndian memory.reverse = littleEndian memory := by
  rw [bigEndian, List.foldl_reverse, littleEndian]
  congr 1
  funext c value
  exact Nat.add_comm _ _

theorem bigEndian_beBytes {width n : Nat} (fits : n < 256 ^ width) : bigEndian (beBytes width n) = n := by
  rw [beBytes, bigEndian_reverse, littleEndian_leBytes fits]

/-- A number in two's complement, the least significant byte first. -/
def twosComplement (width : Nat) (v : Int) : Bytes := leBytes width (v % 256 ^ width).toNat

theorem littleEndian_twosComplement (width : Nat) (v : Int) :
    (littleEndian (twosComplement width v) : Int) = v % 256 ^ width := by
  have positive : (0 : Int) < 256 ^ width := Int.pow_pos (by decide)
  have low := Int.emod_nonneg v positive.ne'
  have high := Int.emod_lt_of_pos v positive
  have fits : (v % 256 ^ width).toNat < 256 ^ width := by
    rw [← Int.ofNat_lt, Int.toNat_of_nonneg low]
    exact_mod_cast high
  rw [twosComplement, littleEndian_leBytes fits, Int.toNat_of_nonneg low]

end CString
