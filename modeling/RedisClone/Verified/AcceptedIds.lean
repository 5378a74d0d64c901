import RedisClone.Verified.AppendedEntries
import RedisClone.Verified.RespValues

/-! # The IDs that XADD accepts

The grammar of IDs is `*`, `ms-*` and `ms-seq`.  A stream without a tail takes every ID as it is, and
`validate_stream_id` reads its two arrays where `sscanf` has not assigned them.  `AcceptsId` is what it lets through, and
`xadd_grammar_iff` says for which IDs XADD keeps to the grammar.
-/

namespace RedisClone

open Exec CString

variable {D : Type} {w t : World D}

/-! ## What is let through -/

/-- The two arrays of `validate_stream_id`, assigned or as they were. -/
def idArrays (id : Bytes) : M D (Bytes × Bytes) := do
  let ms ← scannedText (scanIdTexts id).1
  let seq ← scannedText (scanIdTexts id).2
  pure (ms, seq)

/-- `ms-*` by the arrays: the first one need not be all of the text before the minus. -/
def ShortCut (ms seq : Bytes) : Prop := seq = lit "*" ∧ 0 ≤ atoi ms

instance (ms seq : Bytes) : Decidable (ShortCut ms seq) := inferInstanceAs (Decidable (_ ∧ _))

/-- `*`; or an ID with a minus, whose first part is not `*`, and which is the short cut `ms-*` with a number in front, or
else two numbers other than 0-0 that are greater than those of the tail. -/
def AcceptsId (w : World D) (tailId id : Bytes) : Prop :=
  id = lit "*" ∨ strstr id (lit "-") = true ∧ ∃ ms seq u, idArrays id w = .ok ((ms, seq), u) ∧ ms ≠ lit "*" ∧
    (ShortCut ms seq ∧ (scanInteger ms).isSome = true ∨
      ¬ ShortCut ms seq ∧ ∃ pair v, idPair id = some pair ∧ pair ≠ (0, 0) ∧ isBigger tailId id u = .ok (true, v))

section Accepts

variable {id tailId ms seq : Bytes} {u : World D}

theorem idArrays_total (id : Bytes) (w : World D) : ∃ ms seq u, idArrays id w = .ok ((ms, seq), u) ∧ OnlyStale w u := by
  obtain ⟨ms, v, scansMs, staleMs⟩ := scannedText_total (scanIdTexts id).1 w
  obtain ⟨seq, u, scansSeq, staleSeq⟩ := scannedText_total (scanIdTexts id).2 v
  exact ⟨ms, seq, u, by rw [idArrays, bind_of_ok scansMs, bind_of_ok scansSeq]; rfl, staleMs.trans staleSeq⟩

/-- The check of an ID with a minus, from what the arrays hold. -/
theorem validateStreamId_arrays (notStar : id ≠ lit "*") (minus : strstr id (lit "-") = true)
    (arrays : idArrays id w = .ok ((ms, seq), u)) :
    (∃ t, validateStreamId id tailId w = .ok (none, t)) ↔ ms ≠ lit "*" ∧
      (ShortCut ms seq ∧ (scanInteger ms).isSome = true ∨
        ¬ ShortCut ms seq ∧ ∃ pair v, idPair id = some pair ∧ pair ≠ (0, 0) ∧ isBigger tailId id u = .ok (true, v)) := by
  obtain ⟨ms', v, scansMs, afterMs⟩ := bind_eq_ok.mp arrays
  obtain ⟨seq', u', scansSeq, final⟩ := bind_eq_ok.mp afterMs
  obtain ⟨same, rfl⟩ := Prod.mk.inj (Except.ok.inj final)
  obtain ⟨rfl, rfl⟩ := Prod.mk.inj same
  have whole : ¬ (!strstr id (lit "-")) = true := by simp [minus]
  unfold validateStreamId
  rw [if_neg notStar, if_neg whole, bind_of_ok scansMs, bind_of_ok scansSeq]
  by_cases isStar : ms' = lit "*"
  · rw [if_pos isStar]
    exact iff_of_false (by simp) fun accepts => accepts.1 isStar
  rw [if_neg isStar]
  -- the short cut of `ms-*` skips the comparison
  by_cases cut : seq' = lit "*" ∧ 0 ≤ atoi ms'
  · rw [if_pos cut]
    have isCut : ShortCut ms' seq' := cut
    cases scans : scanInteger ms' with
    | none => simp [isCut]
    | some result => simp [isCut, isStar]
  · rw [if_neg cut]
    have notCut : ¬ ShortCut ms' seq' := cut
    unfold idPair
    obtain ⟨requestIdMs, requestIdSeq⟩ := scanPair id
    cases requestIdMs with
    | none => simp [notCut]
    | some requestIdMs =>
      cases requestIdSeq with
      | none => simp [notCut]
      | some requestIdSeq =>
        dsimp only
        by_cases zero : requestIdMs = 0 ∧ requestIdSeq = 0
        · rw [if_pos zero]
          obtain ⟨rfl, rfl⟩ := zero
          simp [notCut]
        · rw [if_neg zero]
          obtain ⟨bigger, v, compares, _⟩ := isBigger_total tailId id u'
          rw [bind_of_ok compares]
          have notZero : (requestIdMs, requestIdSeq) ≠ ((0, 0) : Int × Int) := fun same => zero (by simpa using same)
          cases bigger with
          | false => simp [notCut, compares]
          | true => simp [notCut, compares, isStar, notZero]

theorem validateStreamId_accepts_iff :
    (∃ t, validateStreamId id tailId w = .ok (none, t)) ↔ AcceptsId w tailId id := by
  unfold AcceptsId
  by_cases isStar : id = lit "*"
  · refine iff_of_true ⟨w, ?_⟩ (.inl isStar)
    rw [validateStreamId, if_pos isStar]
    rfl
  cases minus : strstr id (lit "-") with
  | false =>
    refine iff_of_false ?_ (by simp [isStar])
    rintro ⟨t, run⟩
    rw [validateStreamId, if_neg isStar, if_pos (by simp [minus])] at run
    cases run
  | true =>
    obtain ⟨ms, seq, u, arrays, _⟩ := idArrays_total id w
    rw [validateStreamId_arrays isStar minus arrays]
    simp only [isStar, false_or, true_and]
    constructor
    · intro accepts
      exact ⟨ms, seq, u, arrays, accepts⟩
    · rintro ⟨ms', seq', u', arrays', accepts⟩
      obtain ⟨same, rfl⟩ := Prod.mk.inj (Except.ok.inj (arrays.symm.trans arrays'))
      obtain ⟨rfl, rfl⟩ := Prod.mk.inj same
      exact accepts

end Accepts

/-! ## The grammar -/

/-- `*`, or one or two decimal numbers in 64 bits. -/
def InGrammar (id : Bytes) : Prop := ∃ form : IdForm, form.IsDecimal ∧ form.text = id

/-- The decimal text of two numbers in 64 bits. -/
def CanonicalId (id : Bytes) : Prop := ∃ ms seq : Nat, ms < 2 ^ 63 ∧ seq < 2 ^ 63 ∧ id = idText ms seq

/-- Two numbers in 64 bits that are not negative. -/
def IsNatural (pair : Int × Int) : Prop := (0 ≤ pair.1 ∧ pair.1 < 2 ^ 63) ∧ 0 ≤ pair.2 ∧ pair.2 < 2 ^ 63

/-- An explicit ID without leading zeros, or one whose generated numbers are such that the next one does not overflow. -/
def IdForm.StoresCanonical (stream : Stream) (now : Int) : IdForm → Prop
  | .automatic => IsNatural (IdForm.automatic.pair stream now)
  | .millisecond ms => Decimal64 ms ∧ IsNatural ((IdForm.millisecond ms).pair stream now)
  | .explicit ms seq => ∃ m s : Nat, (m < 2 ^ 63 ∧ s < 2 ^ 63) ∧ ms = decimal m ∧ seq = decimal s

section Texts

variable {a b now : Int} {m n : Nat} {ms seq id entryId rest rest' : Bytes} {stream : Stream} {form : IdForm} {pair : Int × Int}
  {u : World D}

theorem decimal64_decimal (small : n < 2 ^ 63) : Decimal64 (decimal n) where
  digits _ member := isdigit_of_mem_decimal member
  nonempty := decimal_ne_nil n
  inRange := by rwa [digitsValue_decimal]

theorem decimalInt_natCast (n : Nat) : decimalInt n = decimal n := rfl

/-- The digits before a minus. -/
theorem cut_minus {front front' : Bytes} (digits : ∀ c ∈ front, isdigit c = true) (digits' : ∀ c ∈ front', isdigit c = true)
    (same : front ++ 45 :: rest = front' ++ 45 :: rest') : front = front' ∧ rest = rest' := by
  have upTo {text rest : Bytes} (digits : ∀ c ∈ text, isdigit c = true) : (text ++ 45 :: rest).takeWhile isdigit = text :=
    (takeWhile_isdigit digits fun c isHead => by
      obtain rfl : 45 = c := by simpa using isHead
      decide).1
  have sameFront : front = front' := by rw [← upTo digits, same, upTo digits']
  subst sameFront
  exact ⟨rfl, (List.cons.inj (List.append_cancel_left same)).2⟩

theorem idText_eq (a b : Int) : idText a b = decimalInt a ++ 45 :: decimalInt b := by
  simp [idText, lit]

theorem eq_of_idText (same : idText a b = idText m n) : a = m ∧ b = n := by
  rw [idText_eq, idText_eq, decimalInt_natCast, decimalInt_natCast] at same
  cases a with
  | ofNat k =>
    obtain ⟨sameFront, sameRest⟩ := cut_minus (fun _ => isdigit_of_mem_decimal) (fun _ => isdigit_of_mem_decimal) same
    exact ⟨congrArg Int.ofNat (decimal_injective sameFront), decimalInt_injective sameRest⟩
  | negSucc k =>
    have starts : decimal m ++ 45 :: decimal n = 45 :: (decimal (k + 1) ++ 45 :: decimalInt b) := same.symm
    exact absurd starts decimal_ne_minus

/-- The ID that is chosen for a form is that of the form. -/
theorem IdForm.id_of_chosen (isDecimal : form.IsDecimal) (run : chooseId stream form.text w = .ok (entryId, t)) :
    entryId = form.id stream (w.clock 0) := by
  cases form with
  | explicit ms seq =>
    unfold IdForm.text at run
    rw [chooseId_plain (explicit_plain isDecimal.1 isDecimal.2)] at run
    exact (Prod.mk.inj (Except.ok.inj run)).1.symm
  | automatic =>
    obtain ⟨pair, v, generates, rfl⟩ := chooseId_generates (by decide) run
    obtain ⟨rfl, _⟩ := (generatedPair_iff (fun _ _ => by simp) isDecimal).mp generates
    rfl
  | millisecond ms =>
    obtain ⟨pair, v, generates, rfl⟩ := chooseId_generates partial_automatic run
    obtain ⟨rfl, _⟩ := (generatedPair_iff (fun _ _ => by simp) isDecimal).mp generates
    rfl

theorem IsNatural.inRange (natural : IsNatural pair) : PairInRange pair := by
  obtain ⟨⟨low, high⟩, low', high'⟩ := natural
  exact ⟨⟨by omega, high⟩, by omega, high'⟩

theorem canonicalId_idText_iff : CanonicalId (idText pair.1 pair.2) ↔ IsNatural pair := by
  constructor
  · rintro ⟨m, n, small, small', same⟩
    obtain ⟨isMs, isSeq⟩ := eq_of_idText same
    unfold IsNatural
    omega
  · rintro ⟨⟨low, high⟩, low', high'⟩
    refine ⟨pair.1.toNat, pair.2.toNat, by omega, by omega, ?_⟩
    rw [Int.toNat_of_nonneg low, Int.toNat_of_nonneg low']

/-- The ID of a form is canonical exactly where the form stores a canonical one. -/
theorem IdForm.canonical_iff (isDecimal : form.IsDecimal) :
    CanonicalId (form.id stream now) ↔ form.StoresCanonical stream now := by
  cases form with
  | automatic => exact canonicalId_idText_iff
  | millisecond ms => exact canonicalId_idText_iff.trans (and_iff_right isDecimal).symm
  | explicit ms seq =>
    constructor
    · rintro ⟨m, n, small, small', same⟩
      have texts : ms ++ 45 :: seq = decimal m ++ 45 :: decimal n := same.trans (idText_eq m n)
      obtain ⟨rfl, rfl⟩ := cut_minus isDecimal.1.digits (fun _ => isdigit_of_mem_decimal) texts
      exact ⟨m, n, ⟨small, small'⟩, rfl, rfl⟩
    · rintro ⟨m, n, ⟨small, small'⟩, rfl, rfl⟩
      exact ⟨m, n, small, small', (idText_eq m n).symm⟩

theorem IdForm.StoresCanonical.isDecimal (canonical : form.StoresCanonical stream now) : form.IsDecimal := by
  cases form with
  | automatic => exact trivial
  | millisecond ms => exact canonical.1
  | explicit ms seq =>
    obtain ⟨m, n, ⟨small, small'⟩, rfl, rfl⟩ := canonical
    exact ⟨decimal64_decimal small, decimal64_decimal small'⟩

theorem IdForm.StoresCanonical.inRange (canonical : form.StoresCanonical stream now) : PairInRange (form.pair stream now) := by
  cases form with
  | automatic => exact canonical.inRange
  | millisecond ms => exact canonical.2.inRange
  | explicit ms seq =>
    obtain ⟨m, n, ⟨small, small'⟩, rfl, rfl⟩ := canonical
    dsimp only [IdForm.pair]
    rw [digitsValue_decimal, digitsValue_decimal]
    exact ⟨⟨by omega, by omega⟩, by omega, by omega⟩

end Texts

/-! ## The law of the grammar -/

/-- An ID is rejected with the table as it was, or it is in the grammar and one entry is stored under the canonical ID
that it stands for. -/
def KeepsGrammar (w : World D) (req : RespRequest) (key : Bytes) (stream : Stream) (id : Bytes) : Prop :=
  ∃ outcome t, linkEntry req w = .ok (outcome, t) ∧
    (∀ errorResp, outcome = .error errorResp → t.table = w.table) ∧
    ∀ entryId, outcome = .ok entryId → InGrammar id ∧ CanonicalId entryId ∧
      ∃ pair expiresAt, lookup t.table key =
        .ok (some ⟨.stream (stream.append ⟨entryId, req.args.drop 2⟩ pair), expiresAt⟩)

section Grammar

variable {req : RespRequest} {key id : Bytes} {stream : Stream}

theorem keepsGrammar_of_rejected (isKey : req.args[0]? = some key) (isId : req.args[1]? = some id)
    (opens : OpensStream w.table key stream) {errorResp : Bytes} {checked : World D}
    (checks : checkStreamId id stream.tail w = .ok (some errorResp, checked)) : KeepsGrammar w req key stream id := by
  have sameTable : SameTable w checked := (obeys_checkStreamId ambient_sameTable id stream.tail w).1 _ _ checks
  exact ⟨_, checked, linkEntry_rejected isKey isId opens checks, fun _ _ => sameTable, fun _ same => by cases same⟩

/-- A stream without a tail takes every ID, and one with a tail those that `AcceptsId` lets through. -/
theorem checkStreamId_accepts_iff :
    (∃ t, checkStreamId id stream.tail w = .ok (none, t)) ↔ ∀ last, stream.tail = some last → AcceptsId w last.id id := by
  cases isTail : stream.tail with
  | none => exact iff_of_true ⟨w, rfl⟩ (by simp)
  | some last =>
    rw [checkStreamId, validateStreamId_accepts_iff]
    simp

/-- For every state, every key that is free or bound to a stream, and every ID: XADD keeps to the grammar if and only if
the stream has a tail and its check does not let the ID through, or it is not freed before it is stored and the ID is one
of the three forms, an explicit one without leading zeros and a generated one with numbers that are natural and do not
overflow. -/
theorem xadd_grammar_iff (isKey : req.args[0]? = some key) (isId : req.args[1]? = some id)
    (opens : OpensStream w.table key stream) (isTail : stream.tail = stream.entries.getLast?) :
    KeepsGrammar w req key stream id ↔
      (∃ last, stream.tail = some last ∧ ¬ AcceptsId w last.id id) ∨
        ¬ StoresFreed w.table req ∧ ∃ form : IdForm, form.text = id ∧ form.StoresCanonical stream (w.clock 0) := by
  have enough := lt_argc isId
  have freed_iff := storesFreed_iff (by omega) isKey opens
  obtain ⟨errorMsg, checked, checks, stale⟩ := checkStreamId_total id stream.tail w
  have sameClock : checked.clock 0 = w.clock 0 := by rw [stale]
  constructor
  · rintro ⟨outcome, t, links, _, stores⟩
    cases outcome with
    | error errorResp =>
      left
      by_contra accepted
      -- an ID that is let through is not answered with an error
      obtain ⟨v, accepts⟩ : ∃ t, checkStreamId id stream.tail w = .ok (none, t) := by
        rw [checkStreamId_accepts_iff]
        intro last isLast
        by_contra refused
        exact accepted ⟨last, isLast, refused⟩
      cases chooses : chooseId stream id v with
      | error e =>
        unfold linkEntry at links
        rw [bind_of_ok (arg_ok.mpr ⟨isKey, rfl⟩), bind_of_ok opens.opens, bind_of_ok (arg_ok.mpr ⟨isId, rfl⟩),
          bind_of_ok accepts] at links
        dsimp only at links
        rw [bind_of_error chooses] at links
        cases links
      | ok result =>
        obtain ⟨entryId, chosen⟩ := result
        by_cases freed : FreesOpened w.table key stream
        · rw [linkEntry_freed isKey isId opens freed accepts chooses] at links
          cases links
        · obtain ⟨_, _, linked, _, _, links', _⟩ := linkEntry_accepted isKey isId opens isTail freed accepts chooses
          rw [links] at links'
          cases links'
    | ok entryId =>
      right
      obtain ⟨⟨form, isDecimal, rfl⟩, canonical, _⟩ := stores entryId rfl
      obtain ⟨id', checked', chosen, _, _, _, isId', checks', chooses, _⟩ := linkEntry_ok isKey opens links
      obtain rfl := Option.some.inj (isId.symm.trans isId')
      have kept : ¬ StoresFreed w.table req := by
        intro stored
        rw [linkEntry_freed isKey isId opens (freed_iff.mp stored) checks' chooses] at links
        cases links
      obtain ⟨_, rfl⟩ := Prod.mk.inj (Except.ok.inj (checks.symm.trans checks'))
      rw [IdForm.id_of_chosen isDecimal chooses, sameClock] at canonical
      exact ⟨kept, form, rfl, (IdForm.canonical_iff isDecimal).mp canonical⟩
  · intro condition
    cases errorMsg with
    | some errorResp => exact keepsGrammar_of_rejected isKey isId opens checks
    | none =>
      obtain ⟨last, isLast, refused⟩ | ⟨kept, form, rfl, canonical⟩ := condition
      · exact absurd (checkStreamId_accepts_iff.mp ⟨checked, checks⟩ last isLast) refused
      · rw [← sameClock] at canonical
        obtain ⟨chosen, chooses⟩ := IdForm.chooses canonical.isDecimal canonical.inRange
        obtain ⟨pair, _, linked, expiresAt, _, links, _, stores⟩ :=
          linkEntry_accepted isKey isId opens isTail (fun freed => kept (freed_iff.mpr freed)) checks chooses
        refine ⟨_, linked, links, ?_, ?_⟩
        · intro errorResp same
          cases same
        · intro entryId same
          obtain rfl := Except.ok.inj same
          exact ⟨⟨form, canonical.isDecimal, rfl⟩, (IdForm.canonical_iff canonical.isDecimal).mpr canonical,
            pair, expiresAt, lookup_of_binding stores.binding_self⟩

theorem blankWorld_kept : ¬ StoresFreed (blankWorld D).table req := by
  rintro ⟨_, key, bucket, stream, expiresAt, rest, _, _, isNodes, _⟩
  cases isNodes

/-- The first XADD of a key. -/
theorem xadd_grammar_iff_first : KeepsGrammar (blankWorld Int) (xaddWithId "5-1") (lit "k") .zeroed (lit "5-1") :=
  (xadd_grammar_iff rfl rfl (blankWorld_opens (by decide +kernel)) rfl).mpr
    (.inr ⟨blankWorld_kept, .explicit (lit "5") (lit "1"), by decide, 5, 1, by decide, by decide, by decide⟩)

/-- The first XADD of a key stores whatever text it is given. -/
theorem xadd_stores_any_text : ¬ KeepsGrammar (blankWorld Int) (xaddWithId "abc") (lit "k") .zeroed (lit "abc") := by
  have opens : OpensStream (blankWorld Int).table (lit "k") .zeroed := blankWorld_opens (by decide +kernel)
  have checks : checkStreamId (lit "abc") none (blankWorld Int) = .ok (none, blankWorld Int) := rfl
  have chooses : chooseId .zeroed (lit "abc") (blankWorld Int) = .ok (lit "abc", blankWorld Int) :=
    chooseId_plain (by decide) _
  have kept : ¬ FreesOpened (blankWorld Int).table (lit "k") .zeroed := by
    rintro ⟨_, bucket, _, isFirst⟩
    cases isFirst
  obtain ⟨_, _, linked, _, _, links, _⟩ := linkEntry_accepted (show (xaddWithId "abc").args[0]? = _ from rfl)
    (show (xaddWithId "abc").args[1]? = _ from rfl) opens rfl kept checks chooses
  rintro ⟨outcome, t, links', _, stores⟩
  obtain ⟨rfl, rfl⟩ := Prod.mk.inj (Except.ok.inj (links.symm.trans links'))
  obtain ⟨_, ⟨m, n, _, _, same⟩, _⟩ := stores _ rfl
  -- the text of two numbers begins with a digit
  rw [idText_eq, decimalInt_natCast] at same
  obtain ⟨digit, digits, isDecimal⟩ := List.exists_cons_of_ne_nil (decimal_ne_nil m)
  have isDigit : isdigit digit = true := isdigit_of_mem_decimal (isDecimal ▸ List.mem_cons_self)
  rw [isDecimal, show lit "abc" = 97 :: lit "bc" by decide, List.cons_append] at same
  obtain ⟨rfl, _⟩ := List.cons.inj same
  exact absurd isDigit (by decide)

end Grammar

end RedisClone
