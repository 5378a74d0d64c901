import Mathlib.Data.List.Infix
import Mathlib.Data.List.TakeWhile
import RedisClone.Lib.Runs
import RedisClone.Verified.Writes

/-! # The order of stream IDs

`idPair` is the pair of numbers that every reader takes an ID for.  `Increasing` is the invariant of a stream that
XADD built: the pair of every entry is at most the one of the last entry, which `lastMs` and `lastSeq` hold.
Automatic and explicit IDs keep it (`ids_increase`).  An ID that is partly automatic, `ms-*`, is not compared
with the last one: `partial_id_iff` says when it keeps the order.
-/

namespace RedisClone

open Exec CString

variable {D : Type}

/-! ## Pairs -/

/-- The numbers of an ID, where `sscanf` assigns both. -/
def idPair (id : Bytes) : Option (Int × Int) :=
  match scanPair id with
  | (some ms, some seq) => some (ms, seq)
  | _ => none

/-- The order of IDs: by the first number, then by the second. -/
def IdBefore (p q : Int × Int) : Prop := p.1 < q.1 ∨ p.1 = q.1 ∧ p.2 < q.2

theorem IdBefore.trans {p q r : Int × Int} (first : IdBefore p q) (second : IdBefore q r) :
    IdBefore p r := by
  unfold IdBefore at *
  omega

theorem idPair_eq_some {id : Bytes} {pair : Int × Int} :
    idPair id = some pair ↔ scanPair id = (some pair.1, some pair.2) := by
  unfold idPair
  split
  · rename_i ms seq scanned
    rw [scanned]
    simp [Prod.ext_iff]
  · rename_i other
    refine ⟨fun absurdity => by simp at absurdity, fun scanned => absurd scanned (other _ _)⟩

/-- An ID with two numbers is read as them. -/
theorem scanId_of_pair {id : Bytes} {pair : Int × Int} (isPair : idPair id = some pair) (w : World D) :
    scanId id w = .ok (pair, w) := by
  rw [scanId, idPair_eq_some.mp isPair]
  rfl

theorem isBigger_of_pairs {srcId checkId : Bytes} {src check : Int × Int} (isSrc : idPair srcId = some src)
    (isCheck : idPair checkId = some check) (w : World D) :
    isBigger srcId checkId w =
      .ok (src.1 < check.1 || (check.1 == src.1 && src.2 < check.2), w) := by
  unfold isBigger
  rw [bind_of_ok (scanId_of_pair isSrc w), bind_of_ok (scanId_of_pair isCheck w)]
  rfl

/-! ## What is read -/

section Checks

variable {w t : World D}

/-- Nothing but stale memory was used up. -/
def OnlyStale (w t : World D) : Prop := t = { w with fresh := t.fresh }

theorem OnlyStale.trans {u : World D} (before : OnlyStale w t) (after : OnlyStale t u) : OnlyStale w u := by
  unfold OnlyStale at before after ⊢
  rw [after, before]

theorem scanned_total (value : Option Int) (w : World D) : ∃ n t, scanned value w = .ok (n, t) ∧ OnlyStale w t := by
  cases value with
  | none => exact ⟨_, _, rfl, rfl⟩
  | some n => exact ⟨n, w, rfl, rfl⟩

theorem scanId_total (id : Bytes) (w : World D) : ∃ pair t, scanId id w = .ok (pair, t) ∧ OnlyStale w t := by
  obtain ⟨ms, t, scansMs, staleMs⟩ := scanned_total (scanPair id).1 w
  obtain ⟨seq, u, scansSeq, staleSeq⟩ := scanned_total (scanPair id).2 t
  exact ⟨(ms, seq), u, by rw [scanId, bind_of_ok scansMs, bind_of_ok scansSeq]; rfl, staleMs.trans staleSeq⟩

theorem scannedText_total (text : Option Bytes) (w : World D) :
    ∃ result t, scannedText text w = .ok (result, t) ∧ OnlyStale w t := by
  cases text with
  | none => exact ⟨_, _, rfl, rfl⟩
  | some text => exact ⟨text, w, rfl, rfl⟩

theorem isBigger_total (srcId checkId : Bytes) (w : World D) :
    ∃ bigger t, isBigger srcId checkId w = .ok (bigger, t) ∧ OnlyStale w t := by
  obtain ⟨src, t, scansSrc, staleSrc⟩ := scanId_total srcId w
  obtain ⟨check, u, scansCheck, staleCheck⟩ := scanId_total checkId t
  exact ⟨_, u, by rw [isBigger, bind_of_ok scansSrc, bind_of_ok scansCheck]; rfl, staleSrc.trans staleCheck⟩

theorem validateStreamId_total (id tailId : Bytes) (w : World D) :
    ∃ errorMsg t, validateStreamId id tailId w = .ok (errorMsg, t) ∧ OnlyStale w t := by
  unfold validateStreamId
  split
  · exact ⟨_, w, rfl, rfl⟩
  split
  · exact ⟨_, w, rfl, rfl⟩
  obtain ⟨ms, t, scansMs, staleMs⟩ := scannedText_total (scanIdTexts id).1 w
  obtain ⟨seq, u, scansSeq, staleSeq⟩ := scannedText_total (scanIdTexts id).2 t
  have stale := staleMs.trans staleSeq
  rw [bind_of_ok scansMs, bind_of_ok scansSeq]
  split
  · exact ⟨_, u, rfl, stale⟩
  split
  · exact ⟨_, u, rfl, stale⟩
  obtain ⟨requestIdMs, requestIdSeq⟩ := scanPair id
  cases requestIdMs with
  | none => exact ⟨_, u, rfl, stale⟩
  | some requestIdMs =>
    cases requestIdSeq with
    | none => exact ⟨_, u, rfl, stale⟩
    | some requestIdSeq =>
      dsimp only
      split
      · exact ⟨_, u, rfl, stale⟩
      · obtain ⟨bigger, v, compares, staleCompare⟩ := isBigger_total tailId id u
        rw [bind_of_ok compares]
        split
        · exact ⟨_, v, rfl, stale.trans staleCompare⟩
        · exact ⟨_, v, rfl, stale.trans staleCompare⟩

theorem checkStreamId_total (id : Bytes) (tail : Option StreamEntry) (w : World D) :
    ∃ errorMsg t, checkStreamId id tail w = .ok (errorMsg, t) ∧ OnlyStale w t := by
  cases tail with
  | none => exact ⟨none, w, rfl, rfl⟩
  | some last => exact validateStreamId_total id last.id w

theorem clock_checkStreamId {id : Bytes} {tail : Option StreamEntry} {errorMsg : Option Bytes}
    (run : checkStreamId id tail w = .ok (errorMsg, t)) : t.clock = w.clock := by
  obtain ⟨_, u, checks, stale⟩ := checkStreamId_total id tail w
  obtain ⟨_, rfl⟩ := Prod.mk.inj (Except.ok.inj (checks.symm.trans run))
  rw [stale]

end Checks

/-! ## Texts -/

/-- The text of two numbers. -/
def idText (ms seq : Int) : Bytes := decimalInt ms ++ lit "-" ++ decimalInt seq

theorem idPair_idText {ms seq : Int} (msLow : -2 ^ 63 ≤ ms) (msHigh : ms < 2 ^ 63)
    (seqLow : -2 ^ 63 ≤ seq) (seqHigh : seq < 2 ^ 63) : idPair (idText ms seq) = some (ms, seq) := by
  have text : idText ms seq = decimalInt ms ++ 45 :: decimalInt seq := by
    simp [idText, lit]
  rw [idPair_eq_some, text, scanPair_decimalInt, saturate64_of_range msLow msHigh,
    saturate64_of_range seqLow seqHigh]

/-! ## Decimal IDs -/

/-- The decimal text of a number in 64 bits. -/
structure Decimal64 (text : Bytes) : Prop where
  digits : ∀ c ∈ text, isdigit c = true
  nonempty : text ≠ []
  inRange : digitsValue text < 2 ^ 63

/-- The decimal text of a number in 64 bits, with as many leading zeros as the 64-byte arrays of
`validate_stream_id` have room for. -/
structure Component (text : Bytes) : Prop where
  digits : ∀ c ∈ text, isdigit c = true
  nonempty : text ≠ []
  fits : text.length ≤ 63
  inRange : digitsValue text < 2 ^ 63

theorem Component.decimal {text : Bytes} (component : Component text) : Decimal64 text :=
  ⟨component.digits, component.nonempty, component.inRange⟩

section Decimal64

variable {ms seq rest : Bytes}

theorem Decimal64.scanInteger (decimal : Decimal64 ms) (stop : ∀ c ∈ rest.head?, isdigit c = false) :
    scanInteger (ms ++ rest) = some ((digitsValue ms : Int), rest) := by
  have inRange := decimal.inRange
  rw [scanInteger_digits decimal.digits decimal.nonempty stop,
    saturate64_of_range (by omega) (by omega)]

theorem Decimal64.ne {text : Bytes} {c : UInt8} (decimal : Decimal64 text) (other : isdigit c = false) :
    ∀ d ∈ text, d ≠ c := by
  rintro d member rfl
  simp [decimal.digits d member] at other

theorem idPair_decimals (isMs : Decimal64 ms) (isSeq : Decimal64 seq) :
    idPair (ms ++ 45 :: seq) = some ((digitsValue ms : Int), (digitsValue seq : Int)) := by
  have scansSeq : CString.scanInteger (seq ++ []) = some ((digitsValue seq : Int), []) :=
    isSeq.scanInteger (by simp)
  rw [List.append_nil] at scansSeq
  exact idPair_eq_some.mpr (scanPair_of_scans (isMs.scanInteger (by simp [isdigit])) scansSeq)

end Decimal64

section Component

variable {ms seq : Bytes}

/-- The text before the minus is read into the first array. -/
theorem Component.takeMs (component : Component ms) (rest : Bytes) :
    ((ms ++ 45 :: rest).takeWhile (· ≠ 45)).take 63 = ms ∧ (ms ++ 45 :: rest).drop ms.length = 45 :: rest := by
  have inside : ∀ c ∈ ms, decide (c ≠ 45) = true := fun c member =>
    decide_eq_true (component.decimal.ne (by decide) c member)
  rw [List.takeWhile_append_of_pos inside]
  simp [List.take_of_length_le component.fits]

theorem Component.takeSeq (component : Component seq) :
    (((seq.dropWhile isspace).takeWhile fun c => !isspace c).take 63) = seq := by
  have blankFree (c : UInt8) (member : c ∈ seq) : isspace c = false :=
    (digit_not_blank (component.digits c member)).1
  have dropped : seq.dropWhile isspace = seq := by
    cases seq with
    | nil => rfl
    | cons c others => simp [blankFree c List.mem_cons_self]
  rw [dropped, List.takeWhile_eq_self_iff.mpr fun c member => by simp [blankFree c member],
    List.take_of_length_le component.fits]

theorem scanIdTexts_components (isMs : Component ms) (isSeq : Component seq) :
    scanIdTexts (ms ++ 45 :: seq) = (some ms, some seq) := by
  obtain ⟨taken, dropped⟩ := isMs.takeMs seq
  unfold scanIdTexts
  simp only [taken, dropped, if_neg isMs.nonempty, isSeq.takeSeq, if_neg isSeq.nonempty]

theorem scanIdTexts_partial (isMs : Component ms) :
    scanIdTexts (ms ++ lit "-*") = (some ms, some (lit "*")) := by
  obtain ⟨taken, dropped⟩ := isMs.takeMs (lit "*")
  have split : ms ++ lit "-*" = ms ++ 45 :: lit "*" := by simp [lit]
  rw [split]
  unfold scanIdTexts
  simp only [taken, dropped, if_neg isMs.nonempty]
  rfl

end Component

/-! ## Validation and generation -/

section Validate

variable {ms seq tailId : Bytes} {w t : World D} {errorMsg : Option Bytes}

theorem strstr_minus (first second : Bytes) : strstr (first ++ 45 :: second) (lit "-") = true := by
  refine List.any_eq_true.mpr ⟨45 :: second, ?_, by simp [lit]⟩
  exact (List.mem_tails _ _).mpr ⟨first, rfl⟩

/-- An explicit ID that is accepted comes after the last one. -/
theorem validate_components (isMs : Component ms) (isSeq : Component seq) {last : Int × Int}
    (isLast : idPair tailId = some last)
    (run : validateStreamId (ms ++ 45 :: seq) tailId w = .ok (none, t)) :
    IdBefore last ((digitsValue ms : Int), (digitsValue seq : Int)) := by
  have isPair := idPair_decimals isMs.decimal isSeq.decimal
  have notStar : ms ++ 45 :: seq ≠ lit "*" := by
    intro star
    have minus : (45 : UInt8) ∈ lit "*" := star ▸ List.mem_append_right ms List.mem_cons_self
    exact absurd minus (by decide)
  have component_ne {text : Bytes} (component : Component text) : text ≠ lit "*" := by
    rintro rfl
    exact absurd (component.digits 42 (by decide)) (by decide)
  unfold validateStreamId at run
  rw [if_neg notStar, if_neg (by simp [strstr_minus]), scanIdTexts_components isMs isSeq] at run
  simp only [scannedText, pure_bind, if_neg (component_ne isMs), component_ne isSeq, false_and, if_false,
    idPair_eq_some.mp isPair] at run
  split at run
  · simp at run
  · rw [bind_of_ok (isBigger_of_pairs isLast isPair w)] at run
    split at run
    · simp at run
    · rename_i bigger
      simp only [Bool.not_eq_true', Bool.not_eq_false, Bool.or_eq_true, Bool.and_eq_true,
        decide_eq_true_eq, beq_iff_eq] at bigger
      exact bigger.imp_right (And.imp_left Eq.symm)

/-- An ID that is partly automatic is accepted where `atoi` takes its number for one that is not negative. -/
theorem validate_partial (isMs : Component ms) (w : World D) :
    validateStreamId (ms ++ lit "-*") tailId w = .ok (if 0 ≤ atoi ms then none else some invalidId, w) := by
  have split : ms ++ lit "-*" = ms ++ 45 :: lit "*" := by simp [lit]
  have notStar : ms ++ lit "-*" ≠ lit "*" := by
    intro star
    have minus : (45 : UInt8) ∈ lit "*" := star ▸ List.mem_append_right ms (by decide)
    exact absurd minus (by decide)
  have msNotStar : ms ≠ lit "*" := by
    rintro rfl
    exact absurd (isMs.digits 42 (by decide)) (by decide)
  have scansMs : CString.scanInteger (ms ++ []) = some ((digitsValue ms : Int), []) :=
    isMs.decimal.scanInteger (by simp)
  rw [List.append_nil] at scansMs
  have scansPair : scanPair (ms ++ lit "-*") = (some (digitsValue ms : Int), none) := by
    rw [split, scanPair, isMs.decimal.scanInteger (by simp [isdigit])]
    rfl
  unfold validateStreamId
  rw [if_neg notStar, if_neg (by simp [split, strstr_minus]), scanIdTexts_partial isMs]
  simp only [scannedText, pure_bind, if_neg msNotStar, true_and, scansMs, scansPair]
  -- without the short cut for `ms-*` the second number is missing
  split <;> rfl

end Validate

section Generate

variable {stream : Stream} {ms seq entryId : Bytes} {w t : World D}

theorem nextSeq_ok {n : Int} (run : nextSeq stream w = .ok (n, t)) :
    n = stream.lastSeq + 1 ∧ stream.lastSeq ≠ 2 ^ 63 - 1 := by
  unfold nextSeq at run
  split at run
  · simp [fault] at run
  · rename_i room
    simp only [pure_run, Except.ok.injEq, Prod.mk.injEq] at run
    exact ⟨run.1.symm, room⟩

theorem chooseId_generates {id : Bytes} (automatic : strchr id 42 = true)
    (run : chooseId stream id w = .ok (entryId, t)) :
    ∃ pair u, generatedPair stream id (w.clock 0) w.tick = .ok (pair, u) ∧
      entryId = idText pair.1 pair.2 := by
  unfold chooseId generateId at run
  rw [if_pos automatic, bind_of_ok (show getCurrentTimeMs w = .ok (w.clock 0, w.tick) from rfl)] at run
  obtain ⟨pair, u, generates, final⟩ := bind_eq_ok.mp run
  simp only [pure_run, Except.ok.injEq, Prod.mk.injEq] at final
  exact ⟨pair, u, generates, final.1.symm⟩

/-- The ID that `*` stands for. -/
theorem chooseId_star (run : chooseId stream (lit "*") w = .ok (entryId, t)) :
    ∃ ms seq, entryId = idText ms seq ∧
      (stream.entries = [] ∧ ms = w.clock 0 ∧ seq = firstSeq ms ∨
        stream.lastMs < ms ∧ ms = w.clock 0 ∧ seq = 0 ∨
        stream.entries ≠ [] ∧ ms = stream.lastMs ∧ seq = stream.lastSeq + 1 ∧
          stream.lastSeq ≠ 2 ^ 63 - 1) := by
  obtain ⟨⟨ms, seq⟩, u, generates, rfl⟩ := chooseId_generates (by decide) run
  refine ⟨ms, seq, rfl, ?_⟩
  have whole : strstr (lit "*") (lit "-*") = false := by decide
  unfold generatedPair at generates
  rw [whole, if_neg (by decide)] at generates
  split at generates
  · rename_i empty
    simp only [pure_run, Except.ok.injEq, Prod.mk.injEq] at generates
    obtain ⟨⟨rfl, rfl⟩, _⟩ := generates
    exact .inl ⟨empty, rfl, rfl⟩
  rename_i nonempty
  split at generates
  · rename_i later
    simp only [pure_run, Except.ok.injEq, Prod.mk.injEq] at generates
    obtain ⟨⟨rfl, rfl⟩, _⟩ := generates
    exact .inr (.inl ⟨later, rfl, rfl⟩)
  · obtain ⟨n, v, nexts, final⟩ := bind_eq_ok.mp generates
    obtain ⟨rfl, room⟩ := nextSeq_ok nexts
    simp only [pure_run, Except.ok.injEq, Prod.mk.injEq] at final
    obtain ⟨⟨rfl, rfl⟩, _⟩ := final
    exact .inr (.inr ⟨nonempty, rfl, rfl, room⟩)

section Partial

theorem partial_automatic : strchr (ms ++ lit "-*") 42 = true := by
  simp [strchr, lit]

/-- The numbers that `ms-*` stands for, which do not depend on the clock. -/
theorem generatedPair_star (isMs : Decimal64 ms) (now : Int) :
    (generatedPair stream (ms ++ lit "-*") now : M D (Int × Int)) =
      if (digitsValue ms : Int) = stream.lastMs then do
        let seq ← nextSeq stream
        pure ((digitsValue ms : Int), seq)
      else pure ((digitsValue ms : Int), firstSeq (digitsValue ms)) := by
  have split : ms ++ lit "-*" = ms ++ 45 :: lit "*" := by simp [lit]
  have partly : strstr (ms ++ lit "-*") (lit "-*") = true := by
    refine List.any_eq_true.mpr ⟨lit "-*", ?_, by decide⟩
    exact (List.mem_tails _ _).mpr ⟨ms, rfl⟩
  unfold generatedPair
  rw [if_pos partly, split, isMs.scanInteger (by simp [isdigit])]
  simp only [Option.map_some, scanned, pure_bind]

theorem chooseId_partial (isMs : Component ms)
    (run : chooseId stream (ms ++ lit "-*") w = .ok (entryId, t)) :
    ∃ seq, entryId = idText (digitsValue ms) seq ∧
      ((digitsValue ms : Int) = stream.lastMs ∧ seq = stream.lastSeq + 1 ∧ stream.lastSeq ≠ 2 ^ 63 - 1 ∨
        (digitsValue ms : Int) ≠ stream.lastMs ∧ seq = firstSeq (digitsValue ms)) := by
  obtain ⟨⟨finalMs, finalSeq⟩, u, generates, rfl⟩ := chooseId_generates partial_automatic run
  rw [generatedPair_star isMs.decimal] at generates
  split at generates
  · rename_i same
    obtain ⟨n, v, nexts, final⟩ := bind_eq_ok.mp generates
    obtain ⟨rfl, room⟩ := nextSeq_ok nexts
    simp only [pure_run, Except.ok.injEq, Prod.mk.injEq] at final
    obtain ⟨⟨rfl, rfl⟩, _⟩ := final
    exact ⟨_, rfl, .inl ⟨same, rfl, room⟩⟩
  · rename_i differs
    simp only [pure_run, Except.ok.injEq, Prod.mk.injEq] at generates
    obtain ⟨⟨rfl, rfl⟩, _⟩ := generates
    exact ⟨_, rfl, .inr ⟨differs, rfl⟩⟩

/-- Behind the greatest sequence number there is none. -/
theorem chooseId_overflows (isMs : Component ms) (same : (digitsValue ms : Int) = stream.lastMs)
    (full : stream.lastSeq = 2 ^ 63 - 1) (w : World D) :
    chooseId stream (ms ++ lit "-*") w = .error .overflow := by
  unfold chooseId generateId
  rw [if_pos partial_automatic, bind_of_ok (show getCurrentTimeMs w = .ok (w.clock 0, w.tick) from rfl)]
  apply bind_of_error
  rw [generatedPair_star isMs.decimal, if_pos same, nextSeq, if_pos full]
  exact bind_of_error rfl

end Partial

theorem explicit_plain (isMs : Decimal64 ms) (isSeq : Decimal64 seq) : strchr (ms ++ 45 :: seq) 42 = false := by
  have starFree {text : Bytes} (decimal : Decimal64 text) : (42 : UInt8) ∉ text := fun member =>
    decimal.ne (by decide) 42 member rfl
  simp [strchr, starFree isMs, starFree isSeq]

/-- An ID without a star is taken as it is. -/
theorem chooseId_plain {id : Bytes} (plain : strchr id 42 = false) (w : World D) :
    chooseId stream id w = .ok (id, w) := by
  unfold chooseId
  rw [plain, if_neg (by decide)]
  rfl

/-- The number that is read in front of `-*`, or any number in 64 bits where none is read. -/
def ReadsMs (id : Bytes) (ms : Int) : Prop :=
  match scanInteger id with
  | some (number, _) => ms = number
  | none => -2 ^ 63 ≤ ms ∧ ms < 2 ^ 63

/-- The pairs that an ID with a star in it may stand for, at a reading of the clock. -/
inductive Generates (stream : Stream) (id : Bytes) (now : Int) : Int × Int → Prop where
  | nextOf (partly : strstr id (lit "-*") = true) (reads : ReadsMs id stream.lastMs) :
      Generates stream id now (stream.lastMs, stream.lastSeq + 1)
  | firstOf (ms : Int) (partly : strstr id (lit "-*") = true) (reads : ReadsMs id ms) (differs : ms ≠ stream.lastMs) :
      Generates stream id now (ms, firstSeq ms)
  | first (whole : strstr id (lit "-*") = false) (empty : stream.entries = []) :
      Generates stream id now (now, firstSeq now)
  | later (whole : strstr id (lit "-*") = false) (nonempty : stream.entries ≠ []) (after : stream.lastMs < now) :
      Generates stream id now (now, 0)
  | next (whole : strstr id (lit "-*") = false) (nonempty : stream.entries ≠ []) (notAfter : ¬ stream.lastMs < now) :
      Generates stream id now (stream.lastMs, stream.lastSeq + 1)

/-- The ID that a new entry may get. -/
def NewId (stream : Stream) (id : Bytes) (now : Int) (entryId : Bytes) : Prop :=
  if strchr id 42 then ∃ pair, Generates stream id now pair ∧ entryId = idText pair.1 pair.2 else entryId = id

/-- No number behind the greatest one is generated. -/
def SeqFits (stream : Stream) (id : Bytes) (now : Int) : Prop :=
  strchr id 42 = true → ∀ pair, Generates stream id now pair → pair.2 ≠ 2 ^ 63

theorem scannedMs_reads {id : Bytes} {ms : Int} (run : scanned ((scanInteger id).map Prod.fst) w = .ok (ms, t)) :
    ReadsMs id ms := by
  unfold ReadsMs
  cases read : scanInteger id with
  | none =>
    rw [read] at run
    obtain ⟨rfl, _⟩ := Prod.mk.inj (Except.ok.inj run)
    simp only [int64Of]
    omega
  | some pair =>
    rw [read] at run
    exact (Prod.mk.inj (Except.ok.inj run)).1.symm

theorem nextSeq_run (room : stream.lastSeq + 1 ≠ 2 ^ 63) (w : World D) :
    nextSeq stream w = .ok (stream.lastSeq + 1, w) := by
  unfold nextSeq
  rw [if_neg (by omega)]
  rfl

/-- A pair is generated, unless its second number is behind the greatest one. -/
theorem generatedPair_ends {id : Bytes} {now : Int} (fits : ∀ pair, Generates stream id now pair → pair.2 ≠ 2 ^ 63)
    (w : World D) : ∃ pair u, generatedPair stream id now w = .ok (pair, u) := by
  unfold generatedPair
  cases partly : strstr id (lit "-*") with
  | true =>
    rw [if_pos rfl]
    obtain ⟨ms, t, scans, _⟩ := scanned_total ((scanInteger id).map Prod.fst) w
    rw [bind_of_ok scans]
    split
    · rename_i same
      rw [bind_of_ok (nextSeq_run (fits _ (.nextOf partly (same ▸ scannedMs_reads scans))) t)]
      exact ⟨_, _, rfl⟩
    · exact ⟨_, _, rfl⟩
  | false =>
    rw [if_neg (by decide)]
    split
    · exact ⟨_, _, rfl⟩
    rename_i nonempty
    split
    · exact ⟨_, _, rfl⟩
    · rename_i notAfter
      rw [bind_of_ok (nextSeq_run (fits _ (.next partly nonempty notAfter)) w)]
      exact ⟨_, _, rfl⟩

theorem generates_of_ok {id : Bytes} {now : Int} {pair : Int × Int}
    (run : generatedPair stream id now w = .ok (pair, t)) : Generates stream id now pair := by
  unfold generatedPair at run
  cases partly : strstr id (lit "-*") with
  | true =>
    rw [partly, if_pos rfl] at run
    obtain ⟨ms, scannedMs, scans, rest⟩ := bind_eq_ok.mp run
    have reads := scannedMs_reads scans
    split at rest
    · rename_i same
      obtain ⟨seq, _, nexts, final⟩ := bind_eq_ok.mp rest
      obtain ⟨rfl, _⟩ := nextSeq_ok nexts
      obtain ⟨rfl, _⟩ := Prod.mk.inj (Except.ok.inj final)
      rw [same] at reads ⊢
      exact .nextOf partly reads
    · rename_i differs
      obtain ⟨rfl, _⟩ := Prod.mk.inj (Except.ok.inj rest)
      exact .firstOf ms partly reads differs
  | false =>
    rw [partly, if_neg (by decide)] at run
    split at run
    · rename_i empty
      obtain ⟨rfl, _⟩ := Prod.mk.inj (Except.ok.inj run)
      exact .first partly empty
    rename_i nonempty
    split at run
    · rename_i after
      obtain ⟨rfl, _⟩ := Prod.mk.inj (Except.ok.inj run)
      exact .later partly nonempty after
    · rename_i notAfter
      obtain ⟨seq, _, nexts, final⟩ := bind_eq_ok.mp run
      obtain ⟨rfl, _⟩ := nextSeq_ok nexts
      obtain ⟨rfl, _⟩ := Prod.mk.inj (Except.ok.inj final)
      exact .next partly nonempty notAfter

/-- The ID that is chosen is one that the entry may get. -/
theorem newId_of_ok {id : Bytes} (run : chooseId stream id w = .ok (entryId, t)) :
    NewId stream id (w.clock 0) entryId := by
  unfold NewId
  cases automatic : strchr id 42 with
  | true =>
    obtain ⟨pair, u, generates, isId⟩ := chooseId_generates automatic run
    exact ⟨pair, generates_of_ok generates, isId⟩
  | false =>
    unfold chooseId at run
    rw [automatic, if_neg (by decide)] at run
    exact (Prod.mk.inj (Except.ok.inj run)).1.symm

theorem chooseId_ends {id : Bytes} (fits : SeqFits stream id (w.clock 0)) :
    ∃ entryId t, chooseId stream id w = .ok (entryId, t) := by
  unfold chooseId
  cases automatic : strchr id 42 with
  | true =>
    rw [if_pos rfl]
    unfold generateId
    rw [bind_of_ok (show getCurrentTimeMs w = .ok (w.clock 0, w.tick) from rfl)]
    obtain ⟨pair, u, generates⟩ := generatedPair_ends (fits automatic) w.tick
    rw [bind_of_ok generates]
    exact ⟨_, _, rfl⟩
  | false =>
    rw [if_neg (by decide)]
    exact ⟨_, _, rfl⟩

end Generate

/-! ## The invariant -/

/-- The last entry has the last ID, and no entry has a greater one. -/
structure Increasing (stream : Stream) : Prop where
  tail : stream.tail = stream.entries.getLast?
  last : ∀ entry ∈ stream.tail, idPair entry.id = some (stream.lastMs, stream.lastSeq)
  atMost : ∀ entry ∈ stream.entries, ∃ pair, idPair entry.id = some pair ∧
    (pair = (stream.lastMs, stream.lastSeq) ∨ IdBefore pair (stream.lastMs, stream.lastSeq))

theorem increasing_empty : Increasing ⟨[], none, 0, 0, 0⟩ :=
  ⟨rfl, by simp, by simp⟩

/-- The ID comes after those of all entries. -/
def AfterAll (stream : Stream) (pair : Int × Int) : Prop :=
  ∀ entry ∈ stream.entries, ∃ old, idPair entry.id = some old ∧ IdBefore old pair

theorem Increasing.afterAll {stream : Stream} (increasing : Increasing stream) {pair : Int × Int}
    (after : stream.entries ≠ [] → IdBefore (stream.lastMs, stream.lastSeq) pair) : AfterAll stream pair := by
  intro entry member
  have later := after (List.ne_nil_of_mem member)
  obtain ⟨old, isOld, rfl | before⟩ := increasing.atMost entry member
  · exact ⟨_, isOld, later⟩
  · exact ⟨old, isOld, before.trans later⟩

theorem Increasing.append {stream : Stream} {entry : StreamEntry} {ms seq : Int} (afterAll : AfterAll stream (ms, seq))
    (isPair : idPair entry.id = some (ms, seq)) :
    Increasing ⟨stream.entries ++ [entry], some entry, ms, seq, stream.length + 1⟩ where
  tail := by simp
  last other isTail := by
    obtain rfl := Option.mem_some_iff.mp isTail
    exact isPair
  atMost other member := by
    obtain old | new := List.mem_append.mp member
    · obtain ⟨pair, isOld, before⟩ := afterAll other old
      exact ⟨pair, isOld, .inr before⟩
    · obtain rfl := List.mem_singleton.mp new
      exact ⟨_, isPair, .inl rfl⟩

/-- `*`, or two decimal numbers. -/
def PlainId (id : Bytes) : Prop :=
  id = lit "*" ∨ ∃ ms seq, Component ms ∧ Component seq ∧ id = ms ++ 45 :: seq

section Append

variable {stream : Stream} {id entryId : Bytes} {ms seq : Int} {w checked chosen scannedWorld : World D}

/-- The readings of the clock are numbers in 64 bits. -/
def World.Clocked (w : World D) : Prop := ∀ n, -2 ^ 63 ≤ w.clock n ∧ w.clock n < 2 ^ 63

theorem Increasing.range (increasing : Increasing stream) (nonempty : stream.entries ≠ []) :
    (-2 ^ 63 ≤ stream.lastMs ∧ stream.lastMs < 2 ^ 63) ∧ -2 ^ 63 ≤ stream.lastSeq ∧ stream.lastSeq < 2 ^ 63 := by
  obtain ⟨entry, isLast⟩ := List.getLast?_isSome.mpr nonempty |> Option.isSome_iff_exists.mp
  exact scanPair_range (idPair_eq_some.mp (increasing.last entry (increasing.tail.trans isLast)))

/-- An accepted ID comes after all. -/
theorem plainId_after (increasing : Increasing stream) (clocked : w.Clocked) (plain : PlainId id)
    (checks : checkStreamId id stream.tail w = .ok (none, checked))
    (chooses : chooseId stream id checked = .ok (entryId, chosen))
    (scans : scanId entryId chosen = .ok ((ms, seq), scannedWorld)) :
    idPair entryId = some (ms, seq) ∧
      (stream.entries ≠ [] → IdBefore (stream.lastMs, stream.lastSeq) (ms, seq)) := by
  have reads {pair : Int × Int} (isPair : idPair entryId = some pair) : pair = (ms, seq) := by
    rw [scanId_of_pair isPair] at scans
    simp only [Except.ok.injEq, Prod.mk.injEq] at scans
    exact scans.1
  obtain rfl | ⟨msText, seqText, isMs, isSeq, rfl⟩ := plain
  -- a `*` passes the check as it is, and takes its ID from the clock and the last entry
  · obtain rfl : w = checked := by
      cases isTail : stream.tail with
      | none => simpa [isTail, checkStreamId] using checks
      | some entry => simpa [isTail, checkStreamId, validateStreamId] using checks
    obtain ⟨newMs, newSeq, rfl, isNew⟩ := chooseId_star chooses
    have clock := clocked 0
    have first : firstSeq newMs = 0 ∨ firstSeq newMs = 1 := by
      unfold firstSeq
      split <;> simp
    obtain ⟨empty, rfl, rfl⟩ | ⟨later, rfl, rfl⟩ | ⟨nonempty, rfl, rfl, room⟩ := isNew
    · have isPair := idPair_idText clock.1 clock.2 (show -2 ^ 63 ≤ firstSeq (w.clock 0) by omega)
        (show firstSeq (w.clock 0) < 2 ^ 63 by omega)
      exact ⟨reads isPair ▸ isPair, fun nonempty => absurd empty nonempty⟩
    · have isPair := idPair_idText clock.1 clock.2 (show -2 ^ 63 ≤ (0 : Int) by decide) (by decide)
      exact ⟨reads isPair ▸ isPair, fun _ => reads isPair ▸ .inl later⟩
    · obtain ⟨msRange, seqRange⟩ := increasing.range nonempty
      have isPair := idPair_idText msRange.1 msRange.2 (show -2 ^ 63 ≤ stream.lastSeq + 1 by omega)
        (show stream.lastSeq + 1 < 2 ^ 63 by omega)
      exact ⟨reads isPair ▸ isPair, fun _ => reads isPair ▸ .inr ⟨rfl, Int.lt_succ stream.lastSeq⟩⟩
  -- an explicit ID is stored as it is, and the check compared it
  · rw [chooseId_plain (explicit_plain isMs.decimal isSeq.decimal)] at chooses
    obtain ⟨rfl, rfl⟩ := Prod.mk.inj (Except.ok.inj chooses)
    have isPair := idPair_decimals isMs.decimal isSeq.decimal
    refine ⟨reads isPair ▸ isPair, fun nonempty => reads isPair ▸ ?_⟩
    obtain ⟨entry, isLast⟩ := List.getLast?_isSome.mpr nonempty |> Option.isSome_iff_exists.mp
    have isTail : stream.tail = some entry := increasing.tail.trans isLast
    rw [isTail] at checks
    exact validate_components isMs isSeq (increasing.last entry isTail) checks

end Append

/-! ## Runs of XADD -/

structure XaddCall where
  req : RespRequest
  clientFd : Int

/-- An XADD to the key ends, whatever the rest of the state is when it comes. -/
def XaddStep (key : Bytes) (w : World D) (call : XaddCall) (t : World D) : Prop :=
  ∃ start : World D, start.table = w.table ∧ start.Clocked ∧ call.req.args[0]? = some key ∧
    handleSet call.req .stream call.clientFd start = .ok ((), t)

/-- The ID of the call is `*`, or two decimal numbers. -/
def PlainCall (_ : World D) (call : XaddCall) : Prop := ∀ id ∈ call.req.args[1]?, PlainId id

section Runs

variable {key : Bytes} {w t u : World D} {req : RespRequest} {clientFd : Int}

theorem storedStream_of_unbound {table : Table D} (unbound : binding table key = none) :
    storedStream table key = ⟨[], none, 0, 0, 0⟩ := by
  rw [storedStream, unbound]

theorem storedStream_of_stores {table table' : Table D} {stream : Stream} {expiresAt : Int} {overwrites : Bool}
    (stores : Stores table key ⟨.stream stream, expiresAt⟩ overwrites table') :
    storedStream table' key = stream :=
  storedStream_of_binding stores.binding_self

/-- An XADD whose ID is accepted appends one entry behind all others, and one whose ID is rejected leaves the
stream as it is. -/
theorem xadd_increasing (increasing : Increasing (storedStream w.table key)) (clocked : w.Clocked)
    (isKey : req.args[0]? = some key) (plain : ∀ id ∈ req.args[1]?, PlainId id)
    (run : handleSet req .stream clientFd w = .ok ((), t)) :
    Increasing (storedStream t.table key) ∧
      (XaddAlters w req → ∃ entry pair,
        (storedStream t.table key).entries = (storedStream w.table key).entries ++ [entry] ∧
        idPair entry.id = some pair ∧ AfterAll (storedStream w.table key) pair) ∧
      (¬ XaddAlters w req → storedStream t.table key = storedStream w.table key) := by
  cases handleXadd_ok run with
  | short few same =>
    rw [same]
    refine ⟨increasing, fun alters => ?_, fun _ => rfl⟩
    have := alters.1
    omega
  | rejected key' id errorResp checked enough isKey' isId checks sameTable =>
    obtain rfl : key = key' := Option.some.inj (isKey.symm.trans isKey')
    rw [sameTable]
    refine ⟨increasing, fun alters => ?_, fun _ => rfl⟩
    simp [XaddAlters, isKey, isId, checks] at alters
  | appended key' id entryId ms seq expiresAt checked chosen scannedWorld enough isKey' isId checks chooses scans
      stores =>
    obtain rfl : key = key' := Option.some.inj (isKey.symm.trans isKey')
    obtain ⟨isPair, after⟩ := plainId_after increasing clocked (plain id isId) checks chooses scans
    have afterAll := increasing.afterAll after
    rw [storedStream_of_stores stores]
    refine ⟨.append afterAll isPair, fun _ => ⟨_, _, rfl, isPair, afterAll⟩, fun unaltered => ?_⟩
    exact absurd (by simp [XaddAlters, isKey, isId, checks, enough]) unaltered

/-- The stream at the key has increasing IDs. -/
def IncreasingAt (key : Bytes) (w : World D) : Prop := Increasing (storedStream w.table key)

theorem increasingAt_absent (absent : binding w.table key = none) : IncreasingAt key w := by
  rw [IncreasingAt, storedStream_of_unbound absent]
  exact increasing_empty

end Runs

/-! ## Partly automatic IDs -/

/-- The numbers that the stream keeps are those of its last entry, where `sscanf` assigns both. -/
structure Tailed (stream : Stream) : Prop where
  tail : stream.tail = stream.entries.getLast?
  last : ∀ entry ∈ stream.tail, ∀ pair, idPair entry.id = some pair → pair = (stream.lastMs, stream.lastSeq)

def TailedAt (key : Bytes) (w : World D) : Prop := Tailed (storedStream w.table key)

/-- Any number of XADDs of any IDs to the key, from a state that does not have it. -/
def BuiltByXadd (key : Bytes) (t : World D) : Prop :=
  ∃ w, binding w.table key = none ∧ Run (XaddStep key) (fun _ _ => True) w t

/-- The call leaves the stream as it is, or it appends an entry whose ID comes after the last one. -/
def KeepsIdOrder (last : Int × Int) (before after : Stream) : Prop :=
  after = before ∨ ∃ entry pair, after.entries = before.entries ++ [entry] ∧ idPair entry.id = some pair ∧
    IdBefore last pair

section Partly

variable {key ms : Bytes} {w t start u : World D} {req : RespRequest} {clientFd : Int} {entry : StreamEntry}
  {last : Int × Int}

theorem xadd_tailed (tailed : TailedAt key w) (isKey : req.args[0]? = some key)
    (run : handleSet req .stream clientFd w = .ok ((), t)) : TailedAt key t := by
  unfold TailedAt at tailed ⊢
  cases handleXadd_ok run with
  | short few same => rwa [same]
  | rejected _ _ _ _ _ _ _ _ sameTable => rwa [sameTable]
  | appended key' id entryId ms seq expiresAt checked chosen scannedWorld enough isKey' isId checks chooses scans
      stores =>
    obtain rfl : key = key' := Option.some.inj (isKey.symm.trans isKey')
    rw [storedStream_of_stores stores]
    refine ⟨by simp, fun entry isTail pair isPair => ?_⟩
    obtain rfl := Option.mem_some_iff.mp isTail
    rw [scanId_of_pair isPair] at scans
    simp only [Except.ok.injEq, Prod.mk.injEq] at scans
    exact scans.1

theorem BuiltByXadd.tailed (built : BuiltByXadd key t) : TailedAt key t := by
  obtain ⟨w, absent, run⟩ := built
  refine run.invariant (fun before call after tailed _ step => ?_) ?_
  · obtain ⟨start, same, _, isKey, runs⟩ := step
    rw [TailedAt, ← same] at tailed
    exact xadd_tailed tailed isKey runs
  · rw [TailedAt, storedStream_of_unbound absent]
    exact ⟨rfl, by simp⟩

/-- The ID generated for `ms-*` comes after the last one where the number does not lie before it. -/
theorem partial_after (tailed : Tailed (storedStream w.table key))
    (isTail : (storedStream w.table key).tail = some entry) (isLast : idPair entry.id = some last)
    (isMs : Component ms) {checked chosen : World D} {entryId : Bytes}
    (chooses : chooseId (storedStream w.table key) (ms ++ lit "-*") checked = .ok (entryId, chosen)) :
    ∃ pair, idPair entryId = some pair ∧ (IdBefore last pair ↔ last.1 ≤ digitsValue ms) := by
  obtain rfl := tailed.last entry isTail last isLast
  have msRange := isMs.inRange
  obtain ⟨_, seqRange⟩ := scanPair_range (idPair_eq_some.mp isLast)
  obtain ⟨seq, rfl, ⟨same, rfl, room⟩ | ⟨differs, rfl⟩⟩ := chooseId_partial isMs chooses
  · refine ⟨_, idPair_idText (by omega) (by omega) (by omega) (by omega), ?_⟩
    unfold IdBefore
    omega
  · have first : firstSeq (digitsValue ms) = 0 ∨ firstSeq (digitsValue ms) = 1 := by
      unfold firstSeq
      split <;> simp
    refine ⟨_, idPair_idText (by omega) (by omega) (by omega) (by omega), ?_⟩
    unfold IdBefore
    omega

theorem xadd_partial (tailed : Tailed (storedStream w.table key))
    (isTail : (storedStream w.table key).tail = some entry) (isLast : idPair entry.id = some last)
    (isMs : Component ms) (isKey : req.args[0]? = some key) (isId : req.args[1]? = some (ms ++ lit "-*"))
    (run : handleSet req .stream clientFd w = .ok ((), t)) :
    KeepsIdOrder last (storedStream w.table key) (storedStream t.table key) ↔
      atoi ms < 0 ∨ last.1 ≤ digitsValue ms := by
  have validates (checked : World D) (errorMsg : Option Bytes)
      (checks : checkStreamId (ms ++ lit "-*") (storedStream w.table key).tail w = .ok (errorMsg, checked)) :
      errorMsg = if 0 ≤ atoi ms then none else some invalidId := by
    rw [isTail, checkStreamId, validate_partial isMs] at checks
    simp only [Except.ok.injEq, Prod.mk.injEq] at checks
    exact checks.1.symm
  cases handleXadd_ok run with
  | short few same =>
    have := lt_argc isId
    omega
  | rejected key' id errorResp checked enough isKey' isId' checks sameTable =>
    obtain rfl : key = key' := Option.some.inj (isKey.symm.trans isKey')
    obtain rfl := Option.some.inj (isId.symm.trans isId')
    have negative : ¬ 0 ≤ atoi ms := fun nonnegative => by
      simpa [nonnegative] using validates checked _ checks
    exact iff_of_true (.inl (by rw [sameTable])) (.inl (by omega))
  | appended key' id entryId newMs newSeq expiresAt checked chosen scannedWorld enough isKey' isId' checks chooses
      scans stores =>
    obtain rfl : key = key' := Option.some.inj (isKey.symm.trans isKey')
    obtain rfl := Option.some.inj (isId.symm.trans isId')
    have nonnegative : 0 ≤ atoi ms := by
      by_contra negative
      simpa [negative] using validates checked _ checks
    obtain ⟨pair, isPair, after_iff⟩ := partial_after tailed isTail isLast isMs chooses
    rw [storedStream_of_stores stores, or_iff_right (by omega : ¬ atoi ms < 0), ← after_iff]
    refine ⟨fun keeps => ?_, fun after => .inr ⟨_, pair, rfl, isPair, after⟩⟩
    obtain same | ⟨other, otherPair, appends, isOther, after⟩ := keeps
    · -- the stream has grown
      have grown := congrArg (fun stream => stream.entries.length) same
      simp at grown
    · obtain rfl := List.singleton_inj.mp (List.append_cancel_left appends)
      obtain rfl := Option.some.inj (isPair.symm.trans isOther)
      exact after

/-- The sequence number behind the greatest one is computed, and overflows. -/
theorem xadd_overflows (tailed : Tailed (storedStream w.table key))
    (isTail : (storedStream w.table key).tail = some entry) (isLast : idPair entry.id = some last)
    (isMs : Component ms) (isKey : req.args[0]? = some key) (isId : req.args[1]? = some (ms ++ lit "-*"))
    (accepted : 0 ≤ atoi ms) (same : last.1 = digitsValue ms) (full : last.2 = 2 ^ 63 - 1) :
    handleSet req .stream clientFd w = .error .overflow := by
  obtain rfl := tailed.last entry isTail last isLast
  have enough := lt_argc isId
  have opens : withPayload key asStream (pure ⟨[], none, 0, 0, 0⟩) pure w =
      .ok (storedStream w.table key, w) := by
    have stored : ∃ stream expiresAt, binding w.table key = some ⟨.stream stream, expiresAt⟩ := by
      unfold storedStream at isTail
      split at isTail
      · rename_i stream expiresAt bound
        exact ⟨stream, expiresAt, bound⟩
      · simp at isTail
    obtain ⟨stream, expiresAt, bound⟩ := stored
    rw [withPayload_run, lookup_of_binding bound, storedStream_of_binding bound]
    rfl
  have checks : checkStreamId (ms ++ lit "-*") (storedStream w.table key).tail w = .ok (none, w) := by
    rw [isTail, checkStreamId, validate_partial isMs, if_pos accepted]
  unfold handleSet handleSetStream
  rw [if_neg (by omega)]
  dsimp only
  rw [bind_of_ok (arg_ok.mpr ⟨isKey, rfl⟩), bind_of_ok opens, bind_of_ok (arg_ok.mpr ⟨isId, rfl⟩),
    bind_of_ok checks]
  exact bind_of_error (chooseId_overflows isMs same.symm full w)

/-- In every run of XADDs to a key: for a stream whose last ID is a pair, and any `ms`, an XADD with the ID
`ms-*` that ends is rejected with the stream unchanged or appends an entry behind the last one if and only if
`atoi` takes `ms` for a negative number or `ms` does not lie before the last one.  An XADD that would have to
go past the greatest sequence number overflows. -/
theorem partial_id_iff (built : BuiltByXadd key t) (here : start.table = t.table)
    (isEntry : (storedStream t.table key).entries.getLast? = some entry) (isLast : idPair entry.id = some last)
    (isMs : Component ms) (isKey : req.args[0]? = some key) (isId : req.args[1]? = some (ms ++ lit "-*")) :
    (∀ u, handleSet req .stream clientFd start = .ok ((), u) →
      (KeepsIdOrder last (storedStream t.table key) (storedStream u.table key) ↔
        atoi ms < 0 ∨ last.1 ≤ digitsValue ms)) ∧
    (0 ≤ atoi ms → last = ((digitsValue ms : Int), 2 ^ 63 - 1) →
      handleSet req .stream clientFd start = .error .overflow) := by
  have tailed := built.tailed
  have isTail := tailed.tail.trans isEntry
  rw [TailedAt, ← here] at tailed
  rw [← here] at isTail ⊢
  refine ⟨fun u run => xadd_partial tailed isTail isLast isMs isKey isId run, fun accepted full => ?_⟩
  exact xadd_overflows tailed isTail isLast isMs isKey isId accepted (by rw [full]) (by rw [full])

theorem blankWorld_clocked : (blankWorld D).Clocked :=
  fun _ => ⟨by simp [blankWorld, bootWorld], by simp [blankWorld, bootWorld]⟩

/-- XADD of an entry with this ID to the key `k`. -/
def xaddWithId (id : String) : RespRequest := requestOf [lit "XADD", lit "k", lit id, lit "f", lit "v"]

/-- The IDs of the stream at the key `k`. -/
def idsOfK (w : World Int) : List Bytes := (storedStream w.table (lit "k")).entries.map (·.id)

theorem component_lit (text : String) (digits : ((lit text).all isdigit) = true) (nonempty : lit text ≠ [])
    (fits : (lit text).length ≤ 63) (inRange : digitsValue (lit text) < 2 ^ 63) : Component (lit text) :=
  ⟨List.all_eq_true.mp digits, nonempty, fits, inRange⟩

/-- Behind 5-1, `5-*` is 5-2 and `4294967295-*` is rejected. -/
theorem partial_id_iff_behind : ∃ t u v : World Int, BuiltByXadd (lit "k") t ∧ idsOfK t = [lit "5-1"] ∧
    handleSet (xaddWithId "5-*") .stream 5 t = .ok ((), u) ∧
    handleSet (xaddWithId "4294967295-*") .stream 5 t = .ok ((), v) ∧
    KeepsIdOrder (5, 1) (storedStream t.table (lit "k")) (storedStream u.table (lit "k")) ∧
    KeepsIdOrder (5, 1) (storedStream t.table (lit "k")) (storedStream v.table (lit "k")) := by
  have ends : endsIn (handleSet (xaddWithId "5-1") .stream 5) (blankWorld Int) (fun t =>
      decide (idsOfK t = [lit "5-1"]) &&
      (endsIn (handleSet (xaddWithId "5-*") .stream 5) t (fun _ => true) &&
      endsIn (handleSet (xaddWithId "4294967295-*") .stream 5) t fun _ => true)) = true := by
    decide +kernel
  obtain ⟨t, first, checked⟩ := exists_ok_of_endsIn ends
  simp only [Bool.and_eq_true, decide_eq_true_eq] at checked
  obtain ⟨ids, again, rejects⟩ := checked
  obtain ⟨u, second, _⟩ := exists_ok_of_endsIn again
  obtain ⟨v, third, _⟩ := exists_ok_of_endsIn rejects
  have built : BuiltByXadd (lit "k") t := by
    refine ⟨blankWorld Int, by decide +kernel, .single (i := ⟨xaddWithId "5-1", 5⟩) trivial ?_⟩
    exact ⟨blankWorld Int, rfl, blankWorld_clocked, rfl, first⟩
  obtain ⟨entry, isEntries, isId⟩ : ∃ entry, (storedStream t.table (lit "k")).entries = [entry] ∧
      entry.id = lit "5-1" := by
    simpa [idsOfK, List.map_eq_cons_iff] using ids
  have isLast : idPair entry.id = some (5, 1) := by
    rw [isId]
    decide
  have isEntry : (storedStream t.table (lit "k")).entries.getLast? = some entry := by
    rw [isEntries]
    rfl
  have five := component_lit "5" (by decide) (by decide) (by decide) (by decide)
  have wraps := component_lit "4294967295" (by decide) (by decide) (by decide) (by decide)
  refine ⟨t, u, v, built, ids, second, third, ?_, ?_⟩
  · exact ((partial_id_iff built rfl isEntry isLast five rfl (by decide)).1 u second).mpr (.inr (by decide))
  · exact ((partial_id_iff built rfl isEntry isLast wraps rfl (by decide)).1 v third).mpr (.inl (by decide))

/-- Behind 5-1, `3-*` appends 3-0. -/
theorem partial_id_goes_back : ∃ t u : World Int, BuiltByXadd (lit "k") t ∧ idsOfK t = [lit "5-1"] ∧
    handleSet (xaddWithId "3-*") .stream 5 t = .ok ((), u) ∧ idsOfK u = [lit "5-1", lit "3-0"] ∧
    ¬ KeepsIdOrder (5, 1) (storedStream t.table (lit "k")) (storedStream u.table (lit "k")) := by
  have ends : endsIn (handleSet (xaddWithId "5-1") .stream 5) (blankWorld Int) (fun t =>
      decide (idsOfK t = [lit "5-1"]) && endsIn (handleSet (xaddWithId "3-*") .stream 5) t fun u =>
      decide (idsOfK u = [lit "5-1", lit "3-0"])) = true := by
    decide +kernel
  obtain ⟨t, first, checked⟩ := exists_ok_of_endsIn ends
  simp only [Bool.and_eq_true, decide_eq_true_eq] at checked
  obtain ⟨u, second, goesBack⟩ := exists_ok_of_endsIn checked.2
  have after := of_decide_eq_true goesBack
  have built : BuiltByXadd (lit "k") t := by
    refine ⟨blankWorld Int, by decide +kernel, .single (i := ⟨xaddWithId "5-1", 5⟩) trivial ?_⟩
    exact ⟨blankWorld Int, rfl, blankWorld_clocked, rfl, first⟩
  refine ⟨t, u, built, checked.1, second, after, fun keeps => ?_⟩
  obtain same | ⟨entry, pair, appends, isPair, behind⟩ := keeps
  · have ids : idsOfK u = idsOfK t := by rw [idsOfK, same, idsOfK]
    simp [checked.1, after] at ids
  · have ids : idsOfK u = idsOfK t ++ [entry.id] := by simp [idsOfK, appends]
    rw [checked.1, after] at ids
    have isThree : entry.id = lit "3-0" := by simpa using ids.symm
    rw [isThree, show idPair (lit "3-0") = some (3, 0) by decide] at isPair
    obtain rfl := Option.some.inj isPair
    revert behind
    unfold IdBefore
    decide

end Partly

end RedisClone
