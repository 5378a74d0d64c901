import Mathlib.Algebra.Order.Ring.Int
import Mathlib.Data.List.Basic

/-! # C strings and the C library's number conversions

A C string is the list of its bytes before the NUL.  The functions follow the C library: the
character classes of the "C" locale, `strtoll` with saturation at 64 bits, `atoi` as the
conversion of that value to a 32-bit `int`, and `%d`-style decimal text.  The round trip
`scanInteger_decimal` is the fact that every reader of a length or a count rests on.
-/

abbrev Bytes : Type := List UInt8

namespace CString

/-- A condition on every byte of a string is decided along the string.  `Fintype` would decide it along the 256
bytes. -/
instance (s : Bytes) (p : UInt8 → Prop) [DecidablePred p] : Decidable (∀ c ∈ s, p c) :=
  List.decidableBAll p s

/-- The bytes of a string literal. -/
def lit (text : String) : Bytes := text.toList.map fun c => UInt8.ofNat c.toNat

theorem lit_append (text rest : String) : lit (text ++ rest) = lit text ++ lit rest := by
  rw [lit, String.toList_append, List.map_append]
  rfl

def crlf : Bytes := [13, 10]

/-! ## Characters -/

def toupper (c : UInt8) : UInt8 := if 97 ≤ c && c ≤ 122 then c - 32 else c

def upper (s : Bytes) : Bytes := s.map toupper

def isspace (c : UInt8) : Bool := c == 32 || (9 ≤ c && c ≤ 13)

def isdigit (c : UInt8) : Bool := 48 ≤ c && c ≤ 57

/-- The value of a `char` of the build target, where `char` is signed. -/
def signedChar (c : UInt8) : Int := if c < 128 then c.toNat else (c.toNat : Int) - 256

/-! ## Searching -/

def strchr (s : Bytes) (c : UInt8) : Bool := s.contains c

def strstr (s needle : Bytes) : Bool := s.tails.any fun rest => needle.isPrefixOf rest

/-- `strcmp(s, t) < 0` -/
def strcmpLt : Bytes → Bytes → Bool
  | _, [] => false
  | [], _ :: _ => true
  | a :: s, b :: t => a < b || (a == b && strcmpLt s t)

/-- What a string function reads from bytes that may lack a terminator. -/
def untilNul (memory : Bytes) : Bytes := memory.takeWhile (· != 0)

/-! ## Reading numbers -/

def digitsValue (digits : Bytes) : Nat :=
  digits.foldl (fun value c => 10 * value + (c.toNat - 48)) 0

def saturate64 (value : Int) : Int := max (-2 ^ 63) (min value (2 ^ 63 - 1))

/-- `strtoll(s, &rest, 10)`, and the `%lld` of `sscanf`: blanks, a sign, digits.  `none` when
there is no digit. -/
def scanInteger (s : Bytes) : Option (Int × Bytes) :=
  let body := s.dropWhile isspace
  let negative := body.head? == some 45
  let magnitude := if negative || body.head? == some 43 then body.tail else body
  let digits := magnitude.takeWhile isdigit
  if digits = [] then none
  else
    let value : Int := digitsValue digits
    some (saturate64 (if negative then -value else value), magnitude.dropWhile isdigit)

def atoll (s : Bytes) : Int := (scanInteger s).elim 0 Prod.fst

/-- The conversion of a `long` to `int` on the build target. -/
def toInt32 (value : Int) : Int := (value + 2 ^ 31) % 2 ^ 32 - 2 ^ 31

def atoi (s : Bytes) : Int := toInt32 (atoll s)

/-- `sscanf(s, "%lld-%lld", &first, &second)`: the numbers that are assigned. -/
def scanPair (s : Bytes) : Option Int × Option Int :=
  match scanInteger s with
  | none => (none, none)
  | some (first, 45 :: rest) => (some first, (scanInteger rest).map Prod.fst)
  | some (first, _) => (some first, none)

/-- Bytes as an unsigned little-endian number. -/
def littleEndian (memory : Bytes) : Nat := memory.foldr (fun c value => c.toNat + 256 * value) 0

/-- Bytes as a 64-bit two's complement number. -/
def int64Of (memory : Bytes) : Int :=
  (littleEndian (memory.take 8) + 2 ^ 63) % 2 ^ 64 - 2 ^ 63

/-! ## Writing numbers -/

/-- The text `%u` prints. -/
def decimal (n : Nat) : Bytes := (Nat.toDigits 10 n).map fun c => UInt8.ofNat c.toNat

/-- The text `%d` and `%lld` print. -/
def decimalInt : Int → Bytes
  | .ofNat n => decimal n
  | .negSucc n => 45 :: decimal (n + 1)

/-! ## The decimal text of a number reads back as the number -/

theorem decimal_digit_bounds {c : Char} (digit : c.isDigit = true) :
    48 ≤ c.toNat ∧ c.toNat ≤ 57 := by
  simp only [Char.isDigit, Bool.and_eq_true, decide_eq_true_eq] at digit
  exact ⟨digit.1, digit.2⟩

theorem toNat_ofNat_digit {c : Char} (digit : c.isDigit = true) :
    (UInt8.ofNat c.toNat).toNat = c.toNat := by
  have := decimal_digit_bounds digit
  rw [UInt8.toNat_ofNat']
  omega

theorem isDigit_of_mem_decimal {n : Nat} {c : Char} (member : c ∈ Nat.toDigits 10 n) :
    c.isDigit = true :=
  Nat.isDigit_of_mem_toDigits (by decide) (by decide) member

theorem isdigit_of_mem_decimal {n : Nat} {c : UInt8} (member : c ∈ decimal n) :
    isdigit c = true := by
  obtain ⟨d, inside, rfl⟩ := List.mem_map.mp member
  have digit := isDigit_of_mem_decimal inside
  have bounds := decimal_digit_bounds digit
  have value := toNat_ofNat_digit digit
  simp only [isdigit, Bool.and_eq_true, decide_eq_true_eq, UInt8.le_iff_toNat_le, value]
  exact bounds

theorem decimal_ne_nil (n : Nat) : decimal n ≠ [] := by
  simp only [decimal, ne_eq, List.map_eq_nil_iff]
  exact Nat.toDigits_ne_nil

theorem digitsValue_decimal (n : Nat) : digitsValue (decimal n) = n := by
  have each : ∀ (digits : List Char) (start : Nat), (∀ c ∈ digits, c.isDigit = true) →
      (digits.map fun c => UInt8.ofNat c.toNat).foldl
        (fun value c => 10 * value + (c.toNat - 48)) start = Nat.ofDigitChars 10 digits start := by
    intro digits
    induction digits with
    | nil => intro start _; simp [Nat.ofDigitChars_nil]
    | cons c digits inductionHypothesis =>
      intro start digit
      rw [List.map_cons, List.foldl_cons, toNat_ofNat_digit (digit c List.mem_cons_self),
        Nat.ofDigitChars_cons]
      exact inductionHypothesis _ fun d member => digit d (List.mem_cons_of_mem _ member)
  rw [digitsValue, decimal, each _ _ fun _ member => isDigit_of_mem_decimal member]
  exact Nat.ofDigitChars_toDigits (by decide) (by decide)

theorem decimal_injective {m n : Nat} (same : decimal m = decimal n) : m = n := by
  rw [← digitsValue_decimal m, same, digitsValue_decimal]

/-- The text of a natural number does not begin with a minus sign. -/
theorem decimal_ne_minus {n : Nat} {rest rest' : Bytes} : decimal n ++ rest ≠ 45 :: rest' := by
  intro same
  obtain ⟨digit, digits, isDecimal⟩ := List.exists_cons_of_ne_nil (decimal_ne_nil n)
  have isDigit : isdigit digit = true := isdigit_of_mem_decimal (isDecimal ▸ List.mem_cons_self)
  rw [isDecimal, List.cons_append] at same
  obtain ⟨rfl, _⟩ := List.cons.inj same
  simp [isdigit] at isDigit

theorem decimalInt_injective {m n : Int} (same : decimalInt m = decimalInt n) : m = n := by
  have minus (a b : Nat) : decimal a ≠ 45 :: decimal b := by
    have differs : decimal a ++ [] ≠ 45 :: decimal b := decimal_ne_minus
    rwa [List.append_nil] at differs
  cases m with
  | ofNat a =>
    cases n with
    | ofNat b => exact congrArg Int.ofNat (decimal_injective same)
    | negSucc b => exact absurd same (minus a (b + 1))
  | negSucc a =>
    cases n with
    | ofNat b => exact absurd same.symm (minus b (a + 1))
    | negSucc b =>
      have next : a + 1 = b + 1 := decimal_injective (List.cons.inj same).2
      obtain rfl : a = b := by omega
      rfl

theorem takeWhile_isdigit {digits rest : Bytes} (isDigits : ∀ c ∈ digits, isdigit c = true)
    (stop : ∀ c ∈ rest.head?, isdigit c = false) :
    (digits ++ rest).takeWhile isdigit = digits ∧ (digits ++ rest).dropWhile isdigit = rest := by
  rw [List.takeWhile_append_of_pos isDigits, List.dropWhile_append_of_pos isDigits]
  cases rest with
  | nil => simp
  | cons c rest =>
    have notDigit : isdigit c = false := stop c rfl
    simp [notDigit]

theorem takeWhile_isdigit_decimal (n : Nat) {rest : Bytes}
    (stop : ∀ c ∈ rest.head?, isdigit c = false) :
    (decimal n ++ rest).takeWhile isdigit = decimal n ∧
      (decimal n ++ rest).dropWhile isdigit = rest :=
  takeWhile_isdigit (fun _ member => isdigit_of_mem_decimal member) stop

/-- A digit is neither blank nor a sign. -/
theorem digit_not_blank {c : UInt8} (digit : isdigit c = true) :
    isspace c = false ∧ c ≠ 45 ∧ c ≠ 43 := by
  simp only [isdigit, Bool.and_eq_true, decide_eq_true_eq, UInt8.le_iff_toNat_le] at digit
  have low : 48 ≤ c.toNat := digit.1
  refine ⟨?_, ?_, ?_⟩
  · simp only [isspace, Bool.or_eq_false_iff, beq_eq_false_iff_ne, ne_eq,
      Bool.and_eq_false_iff, decide_eq_false_iff_not, UInt8.le_iff_toNat_le]
    refine ⟨fun same => ?_, .inr fun high => ?_⟩
    · subst same; exact absurd low (by decide)
    · have : c.toNat ≤ 13 := high
      omega
  all_goals intro same; subst same; exact absurd low (by decide)

/-- Digits are read up to what is no digit. -/
theorem scanInteger_digits {digits rest : Bytes} (isDigits : ∀ c ∈ digits, isdigit c = true)
    (nonempty : digits ≠ []) (stop : ∀ c ∈ rest.head?, isdigit c = false) :
    scanInteger (digits ++ rest) = some (saturate64 (digitsValue digits), rest) := by
  obtain ⟨taken, dropped⟩ := takeWhile_isdigit isDigits stop
  obtain ⟨c, others, split⟩ := List.exists_cons_of_ne_nil nonempty
  have digit : isdigit c = true := isDigits c (by simp [split])
  obtain ⟨notBlank, notMinus, notPlus⟩ := digit_not_blank digit
  have body : (digits ++ rest).dropWhile isspace = digits ++ rest := by
    simp [split, notBlank]
  have head : (digits ++ rest).head? = some c := by simp [split]
  simp only [scanInteger, body, head]
  simp [notMinus, notPlus, taken, dropped, nonempty]

theorem scanInteger_decimal (n : Nat) {rest : Bytes}
    (stop : ∀ c ∈ rest.head?, isdigit c = false) :
    scanInteger (decimal n ++ rest) = some (saturate64 n, rest) := by
  have scanned := scanInteger_digits (fun _ member => isdigit_of_mem_decimal member) (decimal_ne_nil n) stop
  rwa [digitsValue_decimal] at scanned

theorem atoi_decimal {n : Nat} (small : n < 2 ^ 31) {rest : Bytes}
    (stop : ∀ c ∈ rest.head?, isdigit c = false) : atoi (decimal n ++ rest) = n := by
  simp only [atoi, atoll, scanInteger_decimal n stop, Option.elim_some]
  have : saturate64 (n : Int) = n := by simp only [saturate64]; omega
  rw [this, toInt32]
  omega

/-- The text of a number is read up to what is no digit. -/
theorem scanInteger_decimalInt_append (n : Int) {rest : Bytes}
    (stop : ∀ c ∈ rest.head?, isdigit c = false) :
    scanInteger (decimalInt n ++ rest) = some (saturate64 n, rest) := by
  cases n with
  | ofNat n => exact scanInteger_decimal n stop
  | negSucc n =>
    obtain ⟨taken, dropped⟩ := takeWhile_isdigit_decimal (n + 1) stop
    have minus : isspace 45 = false := by decide
    simp [scanInteger, decimalInt, minus, taken, dropped, decimal_ne_nil, digitsValue_decimal,
      Int.negSucc_eq]

theorem scanInteger_decimalInt (n : Int) : scanInteger (decimalInt n) = some (saturate64 n, []) := by
  have scanned : scanInteger (decimalInt n ++ []) = some (saturate64 n, []) :=
    scanInteger_decimalInt_append n (by simp)
  rwa [List.append_nil] at scanned

theorem atoi_decimalInt {n : Int} (low : -2 ^ 31 ≤ n) (high : n < 2 ^ 31) :
    atoi (decimalInt n) = n := by
  simp only [atoi, atoll, scanInteger_decimalInt, Option.elim_some]
  have : saturate64 n = n := by simp only [saturate64]; omega
  rw [this, toInt32]
  omega

theorem atoi_bounds (s : Bytes) : -2 ^ 31 ≤ atoi s ∧ atoi s < 2 ^ 31 := by
  unfold atoi toInt32
  omega

/-- A line of digits has no CR and no NUL, so a line reader does not stop inside it. -/
theorem decimal_no_terminator {n : Nat} {c : UInt8} (member : c ∈ decimal n) :
    c ≠ 13 ∧ c ≠ 0 := by
  have digit := isdigit_of_mem_decimal member
  constructor <;> (intro same; subst same; exact absurd digit (by decide))

/-! ## Pairs of numbers -/

theorem saturate64_of_range {n : Int} (low : -2 ^ 63 ≤ n) (high : n < 2 ^ 63) : saturate64 n = n := by
  simp only [saturate64]
  omega

theorem saturate64_range (n : Int) : -2 ^ 63 ≤ saturate64 n ∧ saturate64 n < 2 ^ 63 := by
  simp only [saturate64]
  omega

theorem saturate64_nonneg {n : Int} (nonneg : 0 ≤ n) : 0 ≤ saturate64 n := by
  simp only [saturate64]
  omega

theorem scanInteger_range {s rest : Bytes} {n : Int} (scanned : scanInteger s = some (n, rest)) :
    -2 ^ 63 ≤ n ∧ n < 2 ^ 63 := by
  simp only [scanInteger, Option.ite_none_left_eq_some, Option.some.injEq, Prod.mk.injEq] at scanned
  obtain ⟨_, rfl, _⟩ := scanned
  exact saturate64_range _

theorem takeWhile_append_stop {p : UInt8 → Bool} {c : UInt8} (front rest : Bytes) (stops : p c = false) :
    (front ++ c :: rest).takeWhile p = front.takeWhile p ∧
      (front ++ c :: rest).dropWhile p = front.dropWhile p ++ c :: rest := by
  induction front with
  | nil => simp [stops]
  | cons d front inductionHypothesis =>
    cases passes : p d with
    | true => simp [passes, inductionHypothesis]
    | false => simp [passes]

/-- A number without a minus is not negative, and a minus behind it changes nothing. -/
theorem scanInteger_before_minus {front rest more : Bytes} {n : Int} (noMinus : (45 : UInt8) ∉ front)
    (scans : scanInteger front = some (n, rest)) :
    scanInteger (front ++ 45 :: more) = some (n, rest ++ 45 :: more) ∧ 0 ≤ n := by
  obtain ⟨_, blanks⟩ := takeWhile_append_stop front more (show isspace 45 = false by decide)
  have digits (magnitude : Bytes) := takeWhile_append_stop magnitude more (show isdigit 45 = false by decide)
  unfold scanInteger at scans ⊢
  rw [blanks]
  cases isBody : front.dropWhile isspace with
  | nil => simp [isBody] at scans
  | cons c body =>
    have notMinus : (some c == some (45 : UInt8)) = false := by
      simp only [Option.some_beq_some, beq_eq_false_iff_ne]
      rintro rfl
      exact noMinus ((List.dropWhile_suffix _).subset (isBody ▸ List.mem_cons_self))
    simp only [isBody, List.head?_cons, notMinus, Bool.false_or, Bool.false_eq_true, if_false,
      Option.ite_none_left_eq_some, Option.some.injEq, Prod.mk.injEq] at scans
    obtain ⟨nonempty, rfl, rfl⟩ := scans
    simp only [List.cons_append, List.head?_cons, notMinus, Bool.false_or, Bool.false_eq_true, if_false]
    refine ⟨?_, saturate64_nonneg (Int.natCast_nonneg _)⟩
    -- the digits begin at `c`, or behind it where it is a plus
    cases plus : (some c == some (43 : UInt8)) with
    | true =>
      rw [plus, if_pos rfl, List.tail_cons] at nonempty
      simp only [if_true, List.tail_cons, digits]
      rw [if_neg nonempty]
    | false =>
      rw [plus, if_neg (by decide)] at nonempty
      simp only [Bool.false_eq_true, if_false, ← List.cons_append, digits]
      rw [if_neg nonempty]

/-- Two numbers with a minus between them are read as two numbers. -/
theorem scanPair_of_scans {first second rest : Bytes} {m n : Int}
    (scansFirst : scanInteger (first ++ 45 :: second) = some (m, 45 :: second))
    (scansSecond : scanInteger second = some (n, rest)) :
    scanPair (first ++ 45 :: second) = (some m, some n) := by
  simp [scanPair, scansFirst, scansSecond]

theorem scanPair_decimalInt (m n : Int) :
    scanPair (decimalInt m ++ 45 :: decimalInt n) = (some (saturate64 m), some (saturate64 n)) :=
  scanPair_of_scans (scanInteger_decimalInt_append m (by simp [isdigit])) (scanInteger_decimalInt n)

theorem scanPair_range {s : Bytes} {m n : Int} (scanned : scanPair s = (some m, some n)) :
    (-2 ^ 63 ≤ m ∧ m < 2 ^ 63) ∧ -2 ^ 63 ≤ n ∧ n < 2 ^ 63 := by
  unfold scanPair at scanned
  split at scanned
  · simp at scanned
  · rename_i first rest isFirst
    simp only [Prod.mk.injEq, Option.some.injEq, Option.map_eq_some_iff] at scanned
    obtain ⟨rfl, ⟨second, rest'⟩, isSecond, rfl⟩ := scanned
    exact ⟨scanInteger_range isFirst, scanInteger_range isSecond⟩
  · simp at scanned

end CString
