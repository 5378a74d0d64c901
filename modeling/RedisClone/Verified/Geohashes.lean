import Mathlib.Algebra.Order.Floor.Semiring
import Mathlib.Data.Rat.Floor
import Mathlib.Data.Rat.Sqrt
import RedisClone.Lib.Cells
import RedisClone.Lib.Interleave
import RedisClone.Verified.ZaddUpdates

/-! # Geohashes

A hash interleaves the bits of two cells and loses none (`cellHash_lossless`).  The cells come from a scaling of the
coordinates, which `ExactScaling` takes to be exact: the upper edges of the map then fall behind the last cell, and
`roundTrips_iff` says that they alone do.  GEOADD leaves the scores to ZADD (`geoadd_as_zadd`).
-/

namespace RedisClone

open Exec CString Interleave

/-! ## Spreading and compacting -/

theorem masks32 : Masks 32 (0xFFFFFFFF : BitVec 64) := by decide

theorem masks16 : Masks 16 (0x0000FFFF0000FFFF : BitVec 64) := by decide

theorem masks8 : Masks 8 (0x00FF00FF00FF00FF : BitVec 64) := by decide

theorem masks4 : Masks 4 (0x0F0F0F0F0F0F0F0F : BitVec 64) := by decide

theorem masks2 : Masks 2 (0x3333333333333333 : BitVec 64) := by decide

theorem masks1 : Masks 1 (0x5555555555555555 : BitVec 64) := by decide

theorem spread64_spaced (v : BitVec 64) : Spaced 1 (v.setWidth 32) (spread64 v) := by
  have one : Spaced 32 (v.setWidth 32) (v &&& 0xFFFFFFFF) := spaced_low (m := 32) v _ masks32
  have halves := one.halve (s := 16) (by decide) masks16
  have bytes := halves.halve (s := 8) (by decide) masks8
  have nibbles := bytes.halve (s := 4) (by decide) masks4
  have pairs := nibbles.halve (s := 2) (by decide) masks2
  exact pairs.halve (by decide) masks1

theorem compact64_of_even {x : BitVec 32} {v : BitVec 64} (bits : ∀ i < 32, v.getLsbD (2 * i) = x.getLsbD i) :
    compact64 v = x.setWidth 64 := by
  have single : Spaced 1 x (v &&& 0x5555555555555555) := spaced_of_even (m := 32) masks1 bits
  have pairs := single.double (by decide) (by decide) masks2
  have nibbles := pairs.double (by decide) (by decide) masks4
  have bytes := nibbles.double (by decide) (by decide) masks8
  have halves := bytes.double (by decide) (by decide) masks16
  have one := halves.double (by decide) (by decide) masks32
  exact one.eq_setWidth

/-- The hash of two cells. -/
def cellHash (lon lat : BitVec 32) : BitVec 64 :=
  (spread64 (lon.setWidth 64) <<< 1) ||| spread64 (lat.setWidth 64)

theorem cellHash_bits (lon lat : BitVec 32) {i : Nat} (below : i < 32) :
    (cellHash lon lat).getLsbD (2 * i) = lat.getLsbD i ∧ (cellHash lon lat).getLsbD (2 * i + 1) = lon.getLsbD i := by
  have spaced (cell : BitVec 32) : Spaced 1 cell (spread64 (cell.setWidth 64)) := by
    have low : (cell.setWidth 64).setWidth 32 = cell := by simp
    have holds := spread64_spaced (cell.setWidth 64)
    rwa [low] at holds
  exact ⟨even_bit (m := 32) (spaced lon) (spaced lat) below, odd_bit (m := 32) (spaced lon) (spaced lat) below⟩

theorem compact64_lat (lon lat : BitVec 32) : compact64 (cellHash lon lat) = lat.setWidth 64 :=
  compact64_of_even fun _ below => (cellHash_bits lon lat below).1

theorem compact64_lon (lon lat : BitVec 32) : compact64 (cellHash lon lat >>> 1) = lon.setWidth 64 := by
  refine compact64_of_even fun i below => ?_
  rw [BitVec.getLsbD_ushiftRight, Nat.add_comm, (cellHash_bits lon lat below).2]

theorem cellHash_lossless (lon lat lon' lat' : BitVec 32) :
    (∀ i < 32, (cellHash lon lat).getLsbD (2 * i) = lat.getLsbD i ∧
      (cellHash lon lat).getLsbD (2 * i + 1) = lon.getLsbD i) ∧
    compact64 (cellHash lon lat >>> 1) = lon.setWidth 64 ∧ compact64 (cellHash lon lat) = lat.setWidth 64 ∧
    (cellHash lon lat = cellHash lon' lat' → lon = lon' ∧ lat = lat') := by
  refine ⟨fun i below => cellHash_bits lon lat below, compact64_lon lon lat, compact64_lat lon lat, fun same => ?_⟩
  constructor
  · refine BitVec.eq_of_getLsbD_eq fun i below => ?_
    rw [← (cellHash_bits lon lat below).2, same, (cellHash_bits lon' lat' below).2]
  · refine BitVec.eq_of_getLsbD_eq fun i below => ?_
    rw [← (cellHash_bits lon lat below).1, same, (cellHash_bits lon' lat' below).1]

/-! ## The cells of a position -/

section Scaling

variable {D : Type} [Externals D] {value : D → ℚ} {longitude latitude : D}

/-- Arithmetic on `double` without rounding, as far as the scaling of coordinates goes. -/
structure ExactScaling (value : D → ℚ) : Prop where
  ofInt (n : Int) : value (Externals.ofInt n) = n
  constant (mantissa : Int) (places : Nat) : value (Externals.constant mantissa places) = mantissa / 10 ^ places
  add (x y : D) : value (Externals.add x y) = value x + value y
  sub (x y : D) : value (Externals.sub x y) = value x - value y
  mul (x y : D) : value (Externals.mul x y) = value x * value y
  div (x y : D) : value y ≠ 0 → value (Externals.div x y) = value x / value y
  le (x y : D) : Externals.le x y = true ↔ value x ≤ value y
  /-- The conversion cuts the fraction off. -/
  toWord (x : D) : 0 ≤ value x → value x < 2 ^ 64 → (Externals.toWord x).toNat = ⌊value x⌋₊
  /-- A `double` has 53 bits of precision. -/
  ofWord (word : BitVec 64) : word.toNat < 2 ^ 53 → value (Externals.ofWord word) = word.toNat
  llround (x : D) (n : Nat) : n < 2 ^ 63 → value x = n → Externals.llround x = n

/-- The cell of a coordinate on an axis from `-offset` to `span - offset`. -/
def axisCell (offset span x : D) : BitVec 64 :=
  Externals.toWord (Externals.mul (Externals.div (Externals.add x offset) span) cellCount)

/-- The cells that `geo_encode` interleaves. -/
def lonCell (longitude : D) : BitVec 64 := axisCell (Externals.ofInt 180) (Externals.ofInt 360) longitude

def latCell (latitude : D) : BitVec 64 := axisCell maxLatitude latitudeSpan latitude

theorem geoEncode_eq (longitude latitude : D) :
    geoEncode longitude latitude = spread64 (lonCell longitude) <<< 1 ||| spread64 (latCell latitude) := rfl

/-- The number of cells along an axis. -/
def cells : Nat := 2 ^ 26

section Axis

variable {offset span x : D} {width : ℚ}

/-- An axis of some width, centred at 0. -/
structure Axis (value : D → ℚ) (offset span : D) (width : ℚ) : Prop where
  isOffset : value offset = width / 2
  isSpan : value span = width
  wide : 0 < width

theorem ExactScaling.value_cellCount (exact : ExactScaling value) : value cellCount = (cells : ℚ) := by
  rw [cellCount, exact.ofInt, cells]
  norm_num

theorem ExactScaling.axisCell_toNat (exact : ExactScaling value) (axis : Axis value offset span width)
    (low : -(width / 2) ≤ value x) (high : value x ≤ width / 2) :
    (axisCell offset span x).toNat = Cells.index (-(width / 2)) width cells (value x) := by
  have wide := axis.wide
  have scaled : value (Externals.mul (Externals.div (Externals.add x offset) span) cellCount) =
      (value x - -(width / 2)) / width * cells := by
    rw [exact.mul, exact.div _ _ (by rw [axis.isSpan]; exact wide.ne'), exact.add, axis.isOffset, axis.isSpan,
      exact.value_cellCount, sub_neg_eq_add]
  have share : 0 ≤ (value x - -(width / 2)) / width := div_nonneg (by linarith) wide.le
  have whole : (value x - -(width / 2)) / width ≤ 1 := by
    rw [div_le_one wide]
    linarith
  rw [axisCell, exact.toWord, scaled, Cells.index]
  · rw [scaled]
    positivity
  · have bounded : (value x - -(width / 2)) / width * (cells : ℚ) ≤ 1 * cells :=
      mul_le_mul_of_nonneg_right whole (Nat.cast_nonneg cells)
    refine (scaled.trans_le bounded).trans_lt ?_
    norm_num [cells]

/-- The coordinate that a cell is decoded to. -/
def axisMiddle (offset span : D) (cell : BitVec 64) : D :=
  Externals.sub (Externals.mul (cellMiddle cell) span) offset

theorem ExactScaling.value_axisMiddle (exact : ExactScaling value) (axis : Axis value offset span width)
    {cell : BitVec 64} (small : cell.toNat < 2 ^ 53) :
    value (axisMiddle offset span cell) = Cells.middle (-(width / 2)) width cells cell.toNat := by
  have count : value (cellCount : D) ≠ 0 := by
    rw [exact.value_cellCount, cells]
    norm_num
  rw [axisMiddle, exact.sub, exact.mul, cellMiddle, exact.div _ _ count, exact.add, exact.ofWord _ small,
    exact.constant, axis.isOffset, axis.isSpan, exact.value_cellCount, Cells.middle]
  norm_num
  ring

/-- Only the upper end of the axis has no cell. -/
theorem ExactScaling.axisCell_lt_iff (exact : ExactScaling value) (axis : Axis value offset span width)
    (low : -(width / 2) ≤ value x) (high : value x ≤ width / 2) :
    (axisCell offset span x).toNat < cells ↔ value x < width / 2 := by
  have ending : -(width / 2) + width = width / 2 := by ring
  rw [exact.axisCell_toNat axis low high, Cells.index_lt_iff axis.wide (show 0 < cells by decide) low, ending]

/-- A cell is decoded to a point of the axis that is half a cell away at most. -/
theorem ExactScaling.axisMiddle_near (exact : ExactScaling value) (axis : Axis value offset span width)
    (low : -(width / 2) ≤ value x) (high : value x ≤ width / 2)
    (isCell : (axisCell offset span x).toNat < cells) :
    |value (axisMiddle offset span (axisCell offset span x)) - value x| ≤ width / 2 ^ 26 / 2 ∧
      -(width / 2) ≤ value (axisMiddle offset span (axisCell offset span x)) ∧
        value (axisMiddle offset span (axisCell offset span x)) ≤ width / 2 := by
  have count : (cells : ℚ) = 2 ^ 26 := by norm_num [cells]
  rw [exact.value_axisMiddle axis (isCell.trans (show cells < 2 ^ 53 by decide))]
  refine ⟨?_, ?_, ?_⟩
  · rw [exact.axisCell_toNat axis low high, ← count, div_div, mul_comm _ (2 : ℚ)]
    exact Cells.abs_middle_sub_le axis.wide (show 0 < cells by decide) low
  · exact (Cells.middle_mem _ axis.wide isCell).1
  · have inside := (Cells.middle_mem (-(width / 2)) axis.wide isCell).2
    linarith

end Axis

theorem ExactScaling.lonAxis (exact : ExactScaling value) :
    Axis value (Externals.ofInt 180) (Externals.ofInt 360) 360 := by
  refine ⟨?_, ?_, by norm_num⟩ <;> rw [exact.ofInt] <;> norm_num

theorem ExactScaling.latAxis (exact : ExactScaling value) :
    Axis value maxLatitude latitudeSpan (17010225756 / 10 ^ 8) := by
  refine ⟨?_, ?_, by norm_num⟩
  · rw [maxLatitude, exact.constant]
    norm_num
  · rw [latitudeSpan, exact.constant]
    norm_num

theorem ExactScaling.admits (exact : ExactScaling value) : validateGeoadd longitude latitude = true ↔
    (-180 ≤ value longitude ∧ value longitude ≤ 180) ∧
      -(8505112878 / 10 ^ 8) ≤ value latitude ∧ value latitude ≤ 8505112878 / 10 ^ 8 := by
  simp only [validateGeoadd, maxLatitude, minLatitude, Bool.and_eq_true, exact.le, exact.ofInt, exact.constant]
  norm_num [and_comm]

/-- What GEOPOS makes of the score of a position. -/
def decoded (longitude latitude : D) : D × D :=
  geoDecode (scoreHash (Externals.ofWord (geoEncode longitude latitude) : D))

/-- The cells and the score are in range, and the score is decoded to an admitted point in the same cell. -/
structure RoundTrips (value : D → ℚ) (longitude latitude : D) : Prop where
  lonCell : (lonCell longitude).toNat < 2 ^ 26
  latCell : (latCell latitude).toNat < 2 ^ 26
  hash : (geoEncode longitude latitude).toNat < 2 ^ 52
  score : value (Externals.ofWord (geoEncode longitude latitude)) = (geoEncode longitude latitude).toNat
  lonNear : |value (decoded longitude latitude).1 - value longitude| ≤ 360 / 2 ^ 26 / 2
  latNear : |value (decoded longitude latitude).2 - value latitude| ≤ 17010225756 / 10 ^ 8 / 2 ^ 26 / 2
  admitted : validateGeoadd (decoded longitude latitude).1 (decoded longitude latitude).2 = true

theorem getLsbD_of_small {n i : Nat} {cell : BitVec 32} (small : cell.toNat < 2 ^ n) (high : n ≤ i) :
    cell.getLsbD i = false := by
  rw [← BitVec.testBit_toNat]
  exact Nat.testBit_lt_two_pow (small.trans_le (Nat.pow_le_pow_right (by decide) high))

theorem cellHash_lt {lon lat : BitVec 32} (lonSmall : lon.toNat < 2 ^ 26) (latSmall : lat.toNat < 2 ^ 26) :
    (cellHash lon lat).toNat < 2 ^ 52 := by
  refine Nat.lt_pow_two_of_testBit _ fun j high => ?_
  rw [BitVec.testBit_toNat]
  by_cases outside : 64 ≤ j
  · exact BitVec.getLsbD_of_ge _ j outside
  · obtain ⟨i, isEven | isOdd⟩ := j.even_or_odd'
    · rw [isEven, (cellHash_bits lon lat (by omega)).1, getLsbD_of_small latSmall (by omega)]
    · rw [isOdd, (cellHash_bits lon lat (by omega)).2, getLsbD_of_small lonSmall (by omega)]

theorem geoEncode_cellHash (lonSmall : (lonCell longitude).toNat < 2 ^ 32)
    (latSmall : (latCell latitude).toNat < 2 ^ 32) :
    geoEncode longitude latitude = cellHash ((lonCell longitude).setWidth 32) ((latCell latitude).setWidth 32) := by
  have widen {word : BitVec 64} (small : word.toNat < 2 ^ 32) : (word.setWidth 32).setWidth 64 = word := by
    refine BitVec.eq_of_toNat_eq ?_
    simp only [BitVec.toNat_setWidth]
    omega
  rw [geoEncode_eq, cellHash, widen lonSmall, widen latSmall]

theorem scoreHash_ofWord (exact : ExactScaling value) {word : BitVec 64} (small : word.toNat < 2 ^ 53) :
    scoreHash (Externals.ofWord word : D) = word := by
  rw [scoreHash, exact.llround _ word.toNat (by omega) (exact.ofWord word small)]
  exact BitVec.eq_of_toNat_eq (by simp)

theorem decoded_eq (exact : ExactScaling value) (lonSmall : (lonCell longitude).toNat < cells)
    (latSmall : (latCell latitude).toNat < cells) :
    (geoEncode longitude latitude).toNat < 2 ^ 52 ∧
      decoded longitude latitude = (axisMiddle (Externals.ofInt 180) (Externals.ofInt 360) (lonCell longitude),
        axisMiddle maxLatitude latitudeSpan (latCell latitude)) := by
  have some : cells = 2 ^ 26 := rfl
  rw [some] at lonSmall latSmall
  have isHash : geoEncode longitude latitude =
      cellHash ((lonCell longitude).setWidth 32) ((latCell latitude).setWidth 32) :=
    geoEncode_cellHash (by omega) (by omega)
  have narrow {word : BitVec 64} (small : word.toNat < 2 ^ 26) : (word.setWidth 32).toNat = word.toNat := by
    rw [BitVec.toNat_setWidth]
    omega
  have widen {word : BitVec 64} (small : word.toNat < 2 ^ 26) : (word.setWidth 32).setWidth 64 = word :=
    BitVec.eq_of_toNat_eq (by rw [BitVec.toNat_setWidth, narrow small]; omega)
  have hash : (geoEncode longitude latitude).toNat < 2 ^ 52 := by
    rw [isHash]
    exact cellHash_lt (by rwa [narrow lonSmall]) (by rwa [narrow latSmall])
  refine ⟨hash, ?_⟩
  rw [decoded, scoreHash_ofWord exact (by omega), geoDecode, isHash, compact64_lon, compact64_lat, widen lonSmall,
    widen latSmall]
  rfl

/-- Positions below the upper edges, where all is well. -/
theorem roundTrips_of_cells (exact : ExactScaling value) (admitted : validateGeoadd longitude latitude = true)
    (lonSmall : (lonCell longitude).toNat < cells) (latSmall : (latCell latitude).toNat < cells) :
    RoundTrips value longitude latitude := by
  obtain ⟨⟨west, east⟩, south, north⟩ := exact.admits.mp admitted
  obtain ⟨hash, isDecoded⟩ := decoded_eq exact lonSmall latSmall
  obtain ⟨lonNear, lonLow, lonHigh⟩ := exact.axisMiddle_near exact.lonAxis (by linarith) (by linarith) lonSmall
  obtain ⟨latNear, latLow, latHigh⟩ := exact.axisMiddle_near exact.latAxis (by linarith) (by linarith) latSmall
  refine ⟨lonSmall, latSmall, hash, exact.ofWord _ (by omega), ?_, ?_, ?_⟩
  · rw [isDecoded]
    exact lonNear
  · rw [isDecoded]
    exact latNear
  · rw [exact.admits, isDecoded]
    dsimp only [lonCell, latCell]
    exact ⟨⟨by linarith, by linarith⟩, by linarith, by linarith⟩

theorem roundTrips_iff (exact : ExactScaling value) (admitted : validateGeoadd longitude latitude = true) :
    RoundTrips value longitude latitude ↔ value longitude < 180 ∧ value latitude < 8505112878 / 10 ^ 8 := by
  obtain ⟨⟨west, east⟩, south, north⟩ := exact.admits.mp admitted
  have lonEnd : (360 : ℚ) / 2 = 180 := by norm_num
  have latEnd : (17010225756 : ℚ) / 10 ^ 8 / 2 = 8505112878 / 10 ^ 8 := by norm_num
  have lonIff := exact.axisCell_lt_iff exact.lonAxis (x := longitude) (by linarith) (by linarith)
  have latIff := exact.axisCell_lt_iff exact.latAxis (x := latitude) (by linarith) (by linarith)
  rw [lonEnd] at lonIff
  rw [latEnd] at latIff
  constructor
  · intro trips
    exact ⟨lonIff.mp trips.lonCell, latIff.mp trips.latCell⟩
  · rintro ⟨lonBelow, latBelow⟩
    exact roundTrips_of_cells exact admitted (lonIff.mpr lonBelow) (latIff.mpr latBelow)

end Scaling

/-! ### Exact numbers -/

/-- The number that a decimal text starts with. -/
def decimalNumber (text : Bytes) : ℚ :=
  let negative := text.head? == some 45
  let magnitude := if negative then text.tail else text
  let whole := magnitude.takeWhile isdigit
  let behind := magnitude.dropWhile isdigit
  let fraction := if behind.head? == some 46 then behind.tail.takeWhile isdigit else []
  let number := digitsValue whole + digitsValue fraction / 10 ^ fraction.length
  if negative then -number else number

/-- `double` as far as exact rationals can stand for it. -/
instance rationals : Externals ℚ where
  ofInt n := n
  constant mantissa places := mantissa / 10 ^ places
  add := (· + ·)
  sub := (· - ·)
  mul := (· * ·)
  div := (· / ·)
  lt x y := x < y
  le x y := x ≤ y
  eq x y := x = y
  toInt x := if 0 ≤ x then ⌊x⌋ else ⌈x⌉
  toWord x := BitVec.ofNat 64 ⌊x⌋₊
  ofWord word := word.toNat
  llround x := ⌊x + 1 / 2⌋
  fabs x := |x|
  sqrt := Rat.sqrt
  sin _ := 0
  cos _ := 1
  atan2 _ _ := 0
  pow x y := x ^ ⌊y⌋₊
  atof := decimalNumber
  printG17 x := decimalInt ⌊x⌋
  sha256Hex _ := []

theorem exactScaling_rationals : ExactScaling (id : ℚ → ℚ) where
  ofInt _ := rfl
  constant _ _ := rfl
  add _ _ := rfl
  sub _ _ := rfl
  mul _ _ := rfl
  div _ _ _ := rfl
  le x y := by simp [Externals.le]
  toWord x low high := by
    have fits : ⌊x⌋₊ < 2 ^ 64 := (Nat.floor_lt low).mpr (by exact_mod_cast high)
    show (BitVec.ofNat 64 ⌊x⌋₊).toNat = ⌊x⌋₊
    rw [BitVec.toNat_ofNat, Nat.mod_eq_of_lt fits]
  ofWord _ _ := rfl
  llround x n _ same := by
    obtain rfl : x = n := same
    show ⌊(n : ℚ) + 1 / 2⌋ = n
    rw [Int.floor_eq_iff]
    constructor
    · push_cast
      linarith
    · push_cast
      linarith

theorem decimalNumber_decimal (n : Nat) : decimalNumber (decimal n) = n := by
  have isDigits (c : UInt8) (inside : c ∈ decimal n) := isdigit_of_mem_decimal inside
  obtain ⟨whole, behind⟩ := takeWhile_isdigit_decimal n (show ∀ c ∈ ([] : Bytes).head?, isdigit c = false by simp)
  rw [List.append_nil] at whole behind
  have positive : ((decimal n).head? == some 45) = false := by
    rw [beq_eq_false_iff_ne]
    intro minus
    exact (digit_not_blank (isDigits _ (List.mem_of_head? minus))).2.1 rfl
  have noDigits : digitsValue [] = 0 := rfl
  rw [decimalNumber]
  simp [positive, whole, behind, digitsValue_decimal, noDigits]

/-- `%.17g` of a word as a `double`, and back. -/
theorem rationals_print (word : BitVec 64) :
    Externals.atof ((Externals.printG17 (Externals.ofWord word : ℚ)).take 63) = (Externals.ofWord word : ℚ) := by
  have text : Externals.printG17 (Externals.ofWord word : ℚ) = decimal word.toNat := by
    show decimalInt ⌊(word.toNat : ℚ)⌋ = decimal word.toNat
    rw [Int.floor_natCast]
    rfl
  have short : (decimal word.toNat).length ≤ 20 := by
    rw [decimal, List.length_map, Nat.length_toDigits_le_iff (by decide) (by decide)]
    omega
  rw [text, List.take_of_length_le (by omega)]
  exact decimalNumber_decimal word.toNat

theorem roundTrips_palermo : validateGeoadd (13361389 / 10 ^ 6 : ℚ) (38115556 / 10 ^ 6) = true ∧
    RoundTrips id (13361389 / 10 ^ 6 : ℚ) (38115556 / 10 ^ 6) := by
  have admitted : validateGeoadd (13361389 / 10 ^ 6 : ℚ) (38115556 / 10 ^ 6) = true := by
    rw [exactScaling_rationals.admits]
    norm_num
  exact ⟨admitted, (roundTrips_iff exactScaling_rationals admitted).mpr (by norm_num)⟩

/-- At 180 degrees the cell is one too large, and the hash with it. -/
theorem antimeridian_overflows : validateGeoadd (180 : ℚ) 0 = true ∧ (lonCell (180 : ℚ)).toNat = 2 ^ 26 ∧
    ¬ RoundTrips id (180 : ℚ) 0 := by
  have admitted : validateGeoadd (180 : ℚ) 0 = true := by
    rw [exactScaling_rationals.admits]
    norm_num
  have overflows : (lonCell (180 : ℚ)).toNat = 2 ^ 26 := by
    rw [lonCell, exactScaling_rationals.axisCell_toNat exactScaling_rationals.lonAxis (by norm_num) (by norm_num)]
    have upper := Cells.index_upper (-(360 / 2)) cells (show (0 : ℚ) < 360 by norm_num)
    rwa [show (-(360 / 2) + 360 : ℚ) = id 180 by norm_num] at upper
  refine ⟨admitted, overflows, fun trips => ?_⟩
  have small := trips.lonCell
  omega

/-! ## GEOADD and ZADD -/

section Geoadd

variable {D : Type} [Externals D] {key : Bytes} {req zadd : RespRequest}

/-- Behind the key the arguments are complete triples of a longitude, a latitude and a member. -/
structure Triples (key : Bytes) (req : RespRequest) : Prop where
  isKey : req.args[0]? = some key
  complete : ∃ n, 0 < n ∧ req.argc = 1 + 3 * n
  within : req.args.length ≤ maxArgs

/-- The scores that the positions stand for, with their members. -/
def positionScores (req : RespRequest) : List (D × Bytes) :=
  (geoTriples (req.args.drop 1)).map fun triple =>
    (Externals.ofWord (geoEncode (Externals.atof triple.1 : D) (Externals.atof triple.2.1)), triple.2.2)

/-- The request is a ZADD of these scores and members. -/
structure IsZadd (key : Bytes) (updates : List (D × Bytes)) (zadd : RespRequest) : Prop where
  paired : Paired key zadd
  updates : scored zadd.pairs = updates

/-- A round of the loop of ZADD reads of the pair no more than the number and the member. -/
theorem foldl_addPair_congr {pairs pairs' : List (Bytes × Bytes)} (same : scored (D := D) pairs = scored pairs')
    (state : ZSet D × Nat) : pairs.foldl addPair state = pairs'.foldl addPair state := by
  have step (pairs : List (Bytes × Bytes)) : pairs.foldl addPair state =
      (scored pairs).foldl (fun (state : ZSet D × Nat) update =>
        (zsetAdd (zsetRemove state.1 update.2).1 update.1 update.2,
          if (zsetRemove state.1 update.2).2 then state.2 else state.2 + 1)) state := by
    rw [scored, List.foldl_map]
    rfl
  rw [step, step, same]

theorem handleZadd_congr {updates : List (D × Bytes)} {zadd' : RespRequest} (isZadd : IsZadd key updates zadd)
    (isZadd' : IsZadd key updates zadd') (fd : Int) (w : World D) : handleZadd zadd fd w = handleZadd zadd' fd w := by
  have same : scored (D := D) zadd.pairs = scored zadd'.pairs := isZadd.updates.trans isZadd'.updates.symm
  rw [handleZadd_loop isZadd.paired, handleZadd_loop isZadd'.paired, zaddLoop, zaddLoop]
  simp only [foldl_addPair_congr same]

/-- The request that GEOADD builds, where `%.17g` prints a score so that `atof` reads it back. -/
theorem isZadd_zaddRequest {words : List Bytes}
    (prints : ∀ word : BitVec 64,
      Externals.atof ((Externals.printG17 (Externals.ofWord word : D)).take 63) = (Externals.ofWord word : D))
    (triples : Triples key req) (scores : geoScores (D := D) (geoTriples (req.args.drop 1)) = .ok words) :
    IsZadd key (positionScores (D := D) req) (zaddRequest (key :: words)) := by
  obtain ⟨n, positive, isCount⟩ := triples.complete
  have supplied := req.supplied
  have within := triples.within
  have length := geoScores_length scores
  rw [length_geoTriples, List.length_drop] at length
  have count : (zaddRequest (key :: words)).argc = 1 + 2 * n := by
    simp only [zaddRequest, List.length_cons, length]
    omega
  refine ⟨⟨rfl, by omega, by omega, ?_⟩, ?_⟩
  · simp only [zaddRequest, List.length_cons, length, maxArgs] at within ⊢
    omega
  · have isScored : scored (D := D) (zaddRequest (key :: words)).pairs =
        (geoTriples (req.args.drop 1)).map fun triple => (geoScore triple.1 triple.2.1, triple.2.2) :=
      (geoScores_valid scores).2
    rw [isScored, positionScores]
    simp only [geoScore, prints]

theorem geoadd_as_zadd
    (prints : ∀ word : BitVec 64,
      Externals.atof ((Externals.printG17 (Externals.ofWord word : D)).take 63) = (Externals.ofWord word : D))
    (triples : Triples key req) (fd : Int) (w : World D) :
    ((∃ triple ∈ geoTriples (req.args.drop 1), isPosition (D := D) triple = false) →
      ∃ t, handleGeoadd req fd w = .ok ((), t) ∧ t.table = w.table ∧
        ∃ longitude latitude : D, t.sent = w.sent ++ [(fd, (invalidPair longitude latitude).take 1023)]) ∧
    ((∀ triple ∈ geoTriples (req.args.drop 1), isPosition (D := D) triple = true) →
      (∃ zadd, IsZadd key (positionScores (D := D) req) zadd) ∧
        ∀ zadd, IsZadd key (positionScores (D := D) req) zadd → handleGeoadd req fd w = handleZadd zadd fd w) := by
  have enough : ¬ req.argc < 4 := by
    obtain ⟨n, positive, isCount⟩ := triples.complete
    omega
  cases scores : geoScores (D := D) (geoTriples (req.args.drop 1)) with
  | error invalidGeoMsg =>
    have run : handleGeoadd req fd w = sendText 1024 fd invalidGeoMsg w := by
      rw [handleGeoadd, if_neg enough, bind_of_ok (arg_ok.mpr ⟨triples.isKey, rfl⟩)]
      simp only [scores]
    obtain ⟨longitude, latitude, rfl⟩ := geoScores_error scores
    constructor
    · intro _
      exact ⟨_, run, rfl, longitude, latitude, rfl⟩
    · intro valid
      have refused := geoScores_invalid scores
      rw [List.all_eq_true.mpr valid] at refused
      cases refused
  | ok words =>
    have run : handleGeoadd req fd w = handleZadd (zaddRequest (key :: words)) fd w := by
      rw [handleGeoadd, if_neg enough, bind_of_ok (arg_ok.mpr ⟨triples.isKey, rfl⟩)]
      simp only [scores]
    have isZadd := isZadd_zaddRequest prints triples scores
    constructor
    · rintro ⟨triple, inside, invalid⟩
      rw [List.all_eq_true.mp (geoScores_valid scores).1 triple inside] at invalid
      cases invalid
    · intro _
      exact ⟨⟨_, isZadd⟩, fun zadd isZadd' => run.trans (handleZadd_congr isZadd isZadd' fd w)⟩

end Geoadd

/-- A GEOADD of two positions. -/
def geoaddRequest : RespRequest :=
  requestOf [lit "GEOADD", lit "k", lit "13.361389", lit "38.115556", lit "Palermo", lit "15.087269", lit "37.502669",
    lit "Catania"]

/-- A GEOADD whose second position has no longitude. -/
def geoaddBeyond : RespRequest :=
  requestOf [lit "GEOADD", lit "k", lit "13.361389", lit "38.115556", lit "Palermo", lit "181", lit "0", lit "Beyond"]

/-- Two positions in Sicily are a ZADD, and one beyond the antimeridian is refused with the one before it. -/
theorem geoadd_as_zadd_sicily :
    (∃ zadd, IsZadd (lit "k") (positionScores (D := ℚ) geoaddRequest) zadd ∧
      handleGeoadd geoaddRequest 5 (blankWorld ℚ) = handleZadd zadd 5 (blankWorld ℚ)) ∧
    ∃ t, handleGeoadd geoaddBeyond 5 (blankWorld ℚ) = .ok ((), t) ∧ t.table = (blankWorld ℚ).table ∧
      ∃ longitude latitude : ℚ, t.sent = (blankWorld ℚ).sent ++ [(5, (invalidPair longitude latitude).take 1023)] := by
  have triples : Triples (lit "k") geoaddRequest := ⟨by decide, ⟨2, by decide, by decide⟩, by decide⟩
  have triples' : Triples (lit "k") geoaddBeyond := ⟨by decide, ⟨2, by decide, by decide⟩, by decide⟩
  obtain ⟨⟨zadd, isZadd⟩, same⟩ := (geoadd_as_zadd rationals_print triples 5 (blankWorld ℚ)).2 (by decide +kernel)
  exact ⟨⟨zadd, isZadd, same zadd isZadd⟩,
    (geoadd_as_zadd rationals_print triples' 5 (blankWorld ℚ)).1 (by decide +kernel)⟩

end RedisClone
