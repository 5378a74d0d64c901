import RedisClone.Verified.Slices
import RedisClone.Verified.StreamIds
import RedisClone.Verified.StreamReplies

/-! # Ranges of IDs

The order of IDs is that of pairs, and the entries between two bounds are those that neither come before the first nor
after the second.  XRANGE compares the two numbers of an ID separately instead (`addToString`), so that it leaves out an
entry of a later millisecond whose sequence number is below that of the first bound.  It also prints the block of its text
where no entry was written to it, and reads the ends of an empty stream.
-/

namespace RedisClone

open Exec CString

variable {D : Type} {w t : World D}

/-! ## Bounds -/

/-- The one ID is the other, or comes before it. -/
def IdAtMost (p q : Int × Int) : Prop := p.1 < q.1 ∨ p.1 = q.1 ∧ p.2 ≤ q.2

instance decidable_idAtMost (p q : Int × Int) : Decidable (IdAtMost p q) := by
  unfold IdAtMost
  infer_instance

/-- The ID lies between the bounds, of which each may be open. -/
def Between (start stop : Option (Int × Int)) (pair : Int × Int) : Prop :=
  (∀ low ∈ start, IdAtMost low pair) ∧ ∀ high ∈ stop, IdAtMost pair high

instance decidable_between (start stop : Option (Int × Int)) (pair : Int × Int) : Decidable (Between start stop pair) := by
  unfold Between
  infer_instance

/-- The text of a bound: the sign for an open one, or two numbers. -/
inductive IsBound (sign : Bytes) : Bytes → Option (Int × Int) → Prop where
  | unbounded : IsBound sign sign none
  | id {text : Bytes} {pair : Int × Int} (isPair : idPair text = some pair) : IsBound sign text (some pair)

/-- A stream whose IDs ascend; the tail is the last of its nodes, and `length` counts them. -/
structure Ascends (stream : Stream) (pairs : List (Int × Int)) : Prop where
  ids : stream.entries.map (fun entry => idPair entry.id) = pairs.map some
  ascending : pairs.Pairwise IdBefore
  tail : stream.tail = stream.entries.getLast?
  counted : stream.length = stream.entries.length

/-- The entries between two bounds, in the order of the stream. -/
def entriesBetween (stream : Stream) (start stop : Option (Int × Int)) : List StreamEntry :=
  stream.entries.filter fun entry => (idPair entry.id).any fun pair => decide (Between start stop pair)

/-- The entries that XRANGE prints. -/
def entriesCompared (stream : Stream) (low high : Int × Int) : List StreamEntry :=
  stream.entries.filter fun entry => (idPair entry.id).any fun pair => addToString low high pair false

section Bounds

variable {sign text : Bytes} {bound : Option (Int × Int)} {stream : Stream} {pairs : List (Int × Int)}

/-- An open bound stands for the end of the stream. -/
theorem scanBound_run (isBound : IsBound sign text bound) (notPair : idPair sign = none) {ending : Option StreamEntry}
    {endPair : Option (Int × Int)} (isEnding : ending.map (fun entry => idPair entry.id) = endPair.map some)
    {pair : Int × Int} (given : (bound <|> endPair) = some pair) (w : World D) :
    scanBound text sign ending w = .ok (pair, w) := by
  unfold scanBound
  cases isBound with
  | unbounded =>
    rw [if_pos rfl]
    cases ending with
    | none => cases endPair <;> simp at isEnding given
    | some entry =>
      obtain rfl : endPair = some pair := given
      exact scanId_of_pair (Option.some.inj isEnding) w
  | id isPair =>
    obtain rfl := Option.some.inj given
    rw [if_neg (fun same => by rw [same, notPair] at isPair; cases isPair)]
    exact scanId_of_pair isPair w

/-- The ends of an empty stream are not there. -/
theorem scanBound_faults (isBound : IsBound sign text bound) (nothing : bound = none) (w : World D) :
    scanBound text sign none w = .error .nullDeref := by
  unfold scanBound
  cases isBound with
  | unbounded =>
    rw [if_pos rfl]
    rfl
  | id isPair => cases nothing

/-- The comparison of the loop, by the pairs of the entries. -/
theorem pickEntries_run {low high : Int × Int} {isXrange : Bool} {entries : List StreamEntry}
    (ids : entries.map (fun entry => idPair entry.id) = pairs.map some) (w : World D) :
    pickEntries low high isXrange entries.length entries w = .ok
      (entries.filter fun entry => (idPair entry.id).any fun pair => addToString low high pair isXrange, w) := by
  induction entries generalizing pairs with
  | nil => rfl
  | cons entry entries inductionHypothesis =>
    cases pairs with
    | nil => simp at ids
    | cons pair pairs =>
      obtain ⟨(isPair : idPair entry.id = some pair), rest⟩ := List.cons.inj ids
      rw [List.length_cons, pickEntries, bind_of_ok (scanId_of_pair isPair w), bind_of_ok (inductionHypothesis rest),
        List.filter_cons, isPair]
      rfl

theorem addToString_iff {low high pair : Int × Int} :
    addToString low high pair false = true ↔
      (low.1 ≤ pair.1 ∧ low.2 ≤ pair.2) ∧ pair.1 ≤ high.1 ∧ pair.2 ≤ high.2 := by
  simp [addToString]

theorem Ascends.head (ascends : Ascends stream pairs) :
    stream.entries.head?.map (fun entry => idPair entry.id) = pairs.head?.map some := by
  rw [← List.head?_map, ascends.ids, List.head?_map]

theorem Ascends.last (ascends : Ascends stream pairs) :
    stream.tail.map (fun entry => idPair entry.id) = pairs.getLast?.map some := by
  rw [ascends.tail, ← List.getLast?_map, ascends.ids, List.getLast?_map]

theorem Ascends.pair_of_mem (ascends : Ascends stream pairs) {entry : StreamEntry} (inside : entry ∈ stream.entries) :
    ∃ pair ∈ pairs, idPair entry.id = some pair := by
  have isPair := List.mem_map_of_mem (f := fun entry => idPair entry.id) inside
  rw [ascends.ids] at isPair
  obtain ⟨pair, member, same⟩ := List.mem_map.mp isPair
  exact ⟨pair, member, same.symm⟩

theorem Ascends.entry_of_mem (ascends : Ascends stream pairs) {pair : Int × Int} (inside : pair ∈ pairs) :
    ∃ entry ∈ stream.entries, idPair entry.id = some pair := by
  have isId := List.mem_map_of_mem (f := some) inside
  rw [← ascends.ids] at isId
  exact List.mem_map.mp isId

/-- No ID comes before that of the first entry. -/
theorem Ascends.head_atMost (ascends : Ascends stream pairs) {low pair : Int × Int} (isHead : pairs.head? = some low)
    (inside : pair ∈ pairs) : IdAtMost low pair := by
  obtain ⟨rest, rfl⟩ := List.head?_eq_some_iff.mp isHead
  obtain rfl | inRest := List.mem_cons.mp inside
  · exact .inr ⟨rfl, le_rfl⟩
  · have before := (List.pairwise_cons.mp ascends.ascending).1 pair inRest
    unfold IdBefore at before
    unfold IdAtMost
    omega

theorem Ascends.atMost_last (ascends : Ascends stream pairs) {high pair : Int × Int} (isLast : pairs.getLast? = some high)
    (inside : pair ∈ pairs) : IdAtMost pair high := by
  obtain ⟨front, rfl⟩ := List.getLast?_eq_some_iff.mp isLast
  obtain inFront | isHigh := List.mem_append.mp inside
  · have before := (List.pairwise_append.mp ascends.ascending).2.2 pair inFront high (List.mem_singleton_self _)
    unfold IdBefore at before
    unfold IdAtMost
    omega
  · obtain rfl := List.mem_singleton.mp isHigh
    exact .inr ⟨rfl, le_rfl⟩

end Bounds

/-! ## The two orders -/

section Orders

variable {stream : Stream} {pairs : List (Int × Int)} {start stop : Option (Int × Int)} {low high : Int × Int}

/-- An open bound is that of the end of the stream. -/
theorem Ascends.between_iff (ascends : Ascends stream pairs) (isLow : (start <|> pairs.head?) = some low)
    (isHigh : (stop <|> pairs.getLast?) = some high) {pair : Int × Int} (inside : pair ∈ pairs) :
    Between start stop pair ↔ IdAtMost low pair ∧ IdAtMost pair high := by
  unfold Between
  refine and_congr ?_ ?_
  · cases start with
    | none => simpa using ascends.head_atMost isLow inside
    | some bound =>
      obtain rfl : bound = low := Option.some.inj isLow
      simp
  · cases stop with
    | none => simpa using ascends.atMost_last isHigh inside
    | some bound =>
      obtain rfl : bound = high := Option.some.inj isHigh
      simp

/-- What XRANGE prints lies between the bounds. -/
theorem Ascends.compared_sublist (ascends : Ascends stream pairs) (isLow : (start <|> pairs.head?) = some low)
    (isHigh : (stop <|> pairs.getLast?) = some high) :
    (entriesCompared stream low high).Sublist (entriesBetween stream start stop) := by
  have among : entriesCompared stream low high = (entriesBetween stream start stop).filter fun entry =>
      (idPair entry.id).any fun pair => addToString low high pair false := by
    rw [entriesCompared, entriesBetween, List.filter_filter]
    refine List.filter_congr fun entry inside => ?_
    obtain ⟨pair, isMember, isPair⟩ := ascends.pair_of_mem inside
    rw [isPair, Option.any_some, Option.any_some, Bool.eq_iff_iff, Bool.and_eq_true, iff_self_and, decide_eq_true_iff,
      ascends.between_iff isLow isHigh isMember, addToString_iff]
    -- componentwise below is lexicographically below
    unfold IdAtMost
    omega
  rw [among]
  exact List.filter_sublist

/-- The two orders select the same entries if and only if the sequence number of every entry between the bounds lies
between those of the bounds. -/
theorem Ascends.compared_eq_iff (ascends : Ascends stream pairs) (isLow : (start <|> pairs.head?) = some low)
    (isHigh : (stop <|> pairs.getLast?) = some high) :
    entriesCompared stream low high = entriesBetween stream start stop ↔
      ∀ pair ∈ pairs, Between start stop pair → low.2 ≤ pair.2 ∧ pair.2 ≤ high.2 := by
  constructor
  · intro same pair isMember between
    obtain ⟨entry, inside, isPair⟩ := ascends.entry_of_mem isMember
    have selected : entry ∈ entriesBetween stream start stop :=
      List.mem_filter.mpr ⟨inside, by rw [isPair]; exact decide_eq_true between⟩
    rw [← same] at selected
    have compared := (List.mem_filter.mp selected).2
    rw [isPair, Option.any_some, addToString_iff] at compared
    exact ⟨compared.1.2, compared.2.2⟩
  · intro sequences
    refine List.filter_congr fun entry inside => ?_
    obtain ⟨pair, isMember, isPair⟩ := ascends.pair_of_mem inside
    rw [isPair, Option.any_some, Option.any_some, Bool.eq_iff_iff, decide_eq_true_iff, addToString_iff]
    have within := sequences pair isMember
    rw [ascends.between_iff isLow isHigh isMember] at within ⊢
    unfold IdAtMost at within ⊢
    omega

end Orders

/-! ## The text -/

section Text

variable {key startText endText : Bytes} {stream : Stream} {expiresAt : Int} {size : Nat}

/-- The size of the arrays is an `int`, the text of some entries fits both, and something is printed to the first one, or
it is empty text. -/
structure RangeFits (stream : Stream) (picked : List StreamEntry) (t : World D) : Prop where
  few : stream.length < 2 ^ 23
  entries : (entriesText picked).length < 64 + stream.length * 256
  whole : (arrayHeader picked.length ++ entriesText picked).length < 64 + stream.length * 256 + 32
  stale : picked = [] → StaleBlockEmpty (64 + stream.length * 256) t

theorem offsetsFit_of_fits {texts : List Bytes} (fits : texts.flatten.length ≤ size) : OffsetsFit size 0 texts := by
  rw [OffsetsFit]
  cases isLast : texts.getLast? with
  | none => exact .inl (List.getLast?_eq_none_iff.mp isLast)
  | some last =>
    obtain ⟨front, rfl⟩ := List.getLast?_eq_some_iff.mp isLast
    rw [List.flatten_append, List.length_append] at fits
    rw [List.dropLast_concat]
    omega

/-- What XRANGE returns: the number of the entries that it picks, and the text of the block behind the header. -/
theorem streamEntryToString_ok {response : Option Bytes} {count : Nat}
    (found : lookup w.table key = .ok (some ⟨.stream stream, expiresAt⟩))
    (run : streamEntryToString (pure startText) (pure endText) key w = .ok ((response, count), t)) :
    ∃ picked v, ∃ content printed : Bytes, xrangePicks startText endText stream w = .ok (picked, v) ∧
      count = picked.length ∧
      response = some ((arrayHeader count ++ printed).take (64 + stream.length * 256 + 32 - 1)) ∧
      printed = (if picked = [] then untilNul ((v.fresh 0).take (64 + stream.length * 256)) else content) ∧
      stream.length < 2 ^ 23 ∧ content = (entriesText picked).take (64 + stream.length * 256 - 1) := by
  have reads : storeGetEntry key w = .ok (some ⟨.stream stream, expiresAt⟩, w) := by rw [storeGetEntry_run, found]
  unfold streamEntryToString at run
  rw [bind_of_ok reads] at run
  simp only [pure_bind] at run
  obtain ⟨start, scanned, scansStart, afterStart⟩ := bind_eq_ok.mp run
  obtain ⟨stop, scanned', scansStop, afterStop⟩ := bind_eq_ok.mp afterStart
  obtain ⟨bufSize, _, sizes, afterSize⟩ := bind_eq_ok.mp afterStop
  obtain ⟨few, rfl, rfl⟩ := rangeSize_ok sizes
  obtain ⟨⟨entriesToPrint, total⟩, v, selects, afterSelect⟩ := bind_eq_ok.mp afterSize
  obtain ⟨printed, u, prints, isText⟩ := bind_eq_ok.mp afterSelect
  simp only [pure_run, Except.ok.injEq, Prod.mk.injEq] at isText
  obtain ⟨⟨rfl, rfl⟩, rfl⟩ := isText
  obtain ⟨picked, picks, counts, whole⟩ := selectEntries_picks selects
  rw [Nat.zero_add] at counts
  subst counts
  have picksAll : xrangePicks startText endText stream w = .ok (picked, v) := by
    unfold xrangePicks
    rw [bind_of_ok scansStart, bind_of_ok scansStop, picks]
  refine ⟨picked, v, entriesToPrint.content, printed, picksAll, rfl, rfl, ?_, few, whole [] (by simp)⟩
  unfold entriesPrinted at prints
  dsimp only at prints
  cases picked with
  | nil =>
    obtain ⟨rfl, rfl⟩ := Prod.mk.inj (Except.ok.inj prints)
    rfl
  | cons entry picked =>
    rw [if_neg (by simp)] at prints ⊢
    obtain ⟨rfl, rfl⟩ := Prod.mk.inj (Except.ok.inj prints)
    rfl

/-- XRANGE returns the entries that it picks if and only if they fit. -/
theorem streamEntryToString_text_iff {picked : List StreamEntry}
    (found : lookup w.table key = .ok (some ⟨.stream stream, expiresAt⟩))
    (picks : xrangePicks startText endText stream w = .ok (picked, t)) :
    (∃ u, streamEntryToString (pure startText) (pure endText) key w =
        .ok ((some (arrayHeader picked.length ++ entriesText picked), picked.length), u)) ↔ RangeFits stream picked t := by
  constructor
  · rintro ⟨u, run⟩
    obtain ⟨picked', v, content, printed, picks', _, isText, isPrinted, few, isContent⟩ := streamEntryToString_ok found run
    obtain ⟨rfl, rfl⟩ := Prod.mk.inj (Except.ok.inj (picks.symm.trans picks'))
    have text := Option.some.inj isText
    have lengths := congrArg List.length text
    rw [List.length_take] at lengths
    have whole : (arrayHeader picked.length ++ entriesText picked).length < 64 + stream.length * 256 + 32 := by omega
    -- what stands behind the header is what was printed, as far as there is room
    have behind : entriesText picked = printed.take (64 + stream.length * 256 + 32 - 1 - (arrayHeader picked.length).length) := by
      rw [List.length_append] at whole
      rw [List.take_append, List.take_of_length_le (by omega)] at text
      exact List.append_cancel_left text
    cases picked with
    | nil =>
      have header : (arrayHeader (([] : List StreamEntry).length : Int)).length = 4 := by decide
      refine ⟨few, Nat.lt_of_lt_of_le (by decide) (Nat.le_add_right 64 _), whole, fun _ => ?_⟩
      have isNil : entriesText [] = [] := rfl
      rw [isNil, eq_comm, List.take_eq_nil_iff] at behind
      rw [StaleBlockEmpty, ← behind.resolve_left (by omega), isPrinted, if_pos rfl]
    | cons entry picked =>
      rw [if_neg (by simp)] at isPrinted
      refine ⟨few, ?_, whole, fun nothing => absurd nothing (by simp)⟩
      rw [behind, List.length_take, isPrinted, isContent, List.length_take]
      omega
  · intro fits
    have all : OffsetsFit (64 + stream.length * 256) 0 (picked.flatMap streamEntryTexts) :=
      offsetsFit_of_fits fits.entries.le
    obtain ⟨⟨response, count⟩, u, run⟩ := (streamEntryToString_iff found).mpr ⟨fits.few, picked, t, picks, all⟩
    obtain ⟨picked', v, content, printed, picks', rfl, rfl, isPrinted, _, isContent⟩ := streamEntryToString_ok found run
    obtain ⟨rfl, rfl⟩ := Prod.mk.inj (Except.ok.inj (picks.symm.trans picks'))
    have isWhole : printed = entriesText picked := by
      rw [isPrinted]
      split
      · rename_i nothing
        rw [fits.stale nothing, nothing]
        rfl
      · have room := fits.entries
        rw [isContent, List.take_of_length_le (by omega)]
    have whole := fits.whole
    rw [isWhole, List.take_of_length_le (by omega)] at run
    exact ⟨u, run⟩

end Text

/-! ## Exact ranges -/

section Exact

variable {key startText endText : Bytes} {stream : Stream} {pairs : List (Int × Int)} {start stop : Option (Int × Int)}
  {low high : Int × Int} {expiresAt : Int}

theorem idPair_minus : idPair (lit "-") = none := by decide

theorem idPair_plus : idPair (lit "+") = none := by decide

theorem xrangePicks_run (ascends : Ascends stream pairs) (isStart : IsBound (lit "-") startText start)
    (isStop : IsBound (lit "+") endText stop) (isLow : (start <|> pairs.head?) = some low)
    (isHigh : (stop <|> pairs.getLast?) = some high) (w : World D) :
    xrangePicks startText endText stream w = .ok (entriesCompared stream low high, w) := by
  unfold xrangePicks
  rw [bind_of_ok (scanBound_run isStart idPair_minus ascends.head isLow w),
    bind_of_ok (scanBound_run isStop idPair_plus ascends.last isHigh w), ascends.counted]
  exact pickEntries_run ascends.ids w

/-- XRANGE of an empty stream with an open bound reads the ID of a node that is not there. -/
theorem xrangePicks_faults (ascends : Ascends stream []) (isStart : IsBound (lit "-") startText start)
    (isStop : IsBound (lit "+") endText stop) (isOpen : start = none ∨ stop = none) (w : World D) :
    xrangePicks startText endText stream w = .error .nullDeref := by
  have isEmpty : stream.entries = [] := List.map_eq_nil_iff.mp ascends.ids
  have noTail : stream.tail = none := by rw [ascends.tail, isEmpty, List.getLast?_nil]
  unfold xrangePicks
  rw [isEmpty, noTail, List.head?_nil]
  cases start with
  | none => rw [bind_of_error (scanBound_faults isStart rfl w)]
  | some pair =>
    have noEnd : (none : Option StreamEntry).map (fun entry => idPair entry.id) = (none : Option (Int × Int)).map some := rfl
    rw [bind_of_ok (scanBound_run isStart idPair_minus noEnd rfl w),
      bind_of_error (scanBound_faults isStop (isOpen.resolve_left (by simp)) w)]

/-- Both bounds of an empty stream are IDs, the sequence number of every entry between the bounds lies between those of the
bounds (of the ends of the stream, where they are open), and the entries are so few and their text so short that both fit. -/
structure RangeExact (stream : Stream) (pairs : List (Int × Int)) (start stop : Option (Int × Int)) (w : World D) : Prop where
  closed : pairs = [] → start ≠ none ∧ stop ≠ none
  sequences : ∀ low high, (start <|> pairs.head?) = some low → (stop <|> pairs.getLast?) = some high →
    ∀ pair ∈ pairs, Between start stop pair → low.2 ≤ pair.2 ∧ pair.2 ≤ high.2
  fits : RangeFits stream (entriesBetween stream start stop) w

/-- The bounds, or the ends of the stream, are there. -/
theorem exists_bounds (closed : pairs = [] → start ≠ none ∧ stop ≠ none) :
    ∃ low high, (start <|> pairs.head?) = some low ∧ (stop <|> pairs.getLast?) = some high := by
  cases pairs with
  | nil =>
    obtain ⟨isStart, isStop⟩ := closed rfl
    obtain ⟨low, rfl⟩ := Option.ne_none_iff_exists'.mp isStart
    obtain ⟨high, rfl⟩ := Option.ne_none_iff_exists'.mp isStop
    exact ⟨low, high, rfl, rfl⟩
  | cons pair pairs =>
    have isLast := List.getLast?_eq_some_getLast (List.cons_ne_nil pair pairs)
    rw [isLast]
    cases start with
    | none => cases stop <;> exact ⟨_, _, rfl, rfl⟩
    | some low => cases stop <;> exact ⟨_, _, rfl, rfl⟩

/-- `streamEntry_toString` returns the entries between two bounds in the order of IDs, each once and in the order of the
stream, behind their number, and counts them, if and only if the range is exact. -/
theorem streamEntryToString_between_iff (found : lookup w.table key = .ok (some ⟨.stream stream, expiresAt⟩))
    (ascends : Ascends stream pairs) (isStart : IsBound (lit "-") startText start)
    (isStop : IsBound (lit "+") endText stop) :
    (∃ u, streamEntryToString (pure startText) (pure endText) key w =
        .ok ((some (arrayHeader (entriesBetween stream start stop).length ++ entriesText (entriesBetween stream start stop)),
          (entriesBetween stream start stop).length), u)) ↔
      RangeExact stream pairs start stop w := by
  constructor
  · rintro ⟨u, run⟩
    obtain ⟨picked, v, _, _, picks, counts, _⟩ := streamEntryToString_ok found run
    have closed : pairs = [] → start ≠ none ∧ stop ≠ none := by
      rintro rfl
      by_contra isOpen
      have faults := xrangePicks_faults ascends isStart isStop (by tauto) w
      rw [faults] at picks
      cases picks
    obtain ⟨low, high, isLow, isHigh⟩ := exists_bounds closed
    have compares := xrangePicks_run ascends isStart isStop isLow isHigh w
    obtain ⟨rfl, rfl⟩ := Prod.mk.inj (Except.ok.inj (compares.symm.trans picks))
    -- as many entries are printed as lie between the bounds, and all of those that are printed do
    have same := (ascends.compared_sublist isLow isHigh).eq_of_length counts.symm
    refine ⟨closed, fun low' high' isLow' isHigh' => ?_, ?_⟩
    · obtain rfl := Option.some.inj (isLow.symm.trans isLow')
      obtain rfl := Option.some.inj (isHigh.symm.trans isHigh')
      exact (ascends.compared_eq_iff isLow isHigh).mp same
    · rw [← same] at run ⊢
      exact (streamEntryToString_text_iff found picks).mp ⟨u, run⟩
  · rintro ⟨closed, sequences, fits⟩
    obtain ⟨low, high, isLow, isHigh⟩ := exists_bounds closed
    have same := (ascends.compared_eq_iff isLow isHigh).mpr (sequences low high isLow isHigh)
    have picks := xrangePicks_run ascends isStart isStop isLow isHigh w
    rw [same] at picks
    exact (streamEntryToString_text_iff found picks).mpr fits

/-- A stream of three entries within one millisecond. -/
def oneMillisecond : Stream :=
  ⟨[⟨lit "5-1", [lit "f", lit "a"]⟩, ⟨lit "5-2", [lit "f", lit "b"]⟩, ⟨lit "5-3", [lit "f", lit "c"]⟩],
    some ⟨lit "5-3", [lit "f", lit "c"]⟩, 5, 3, 3⟩

/-- XRANGE k 5-2 + of three entries within one millisecond. -/
theorem streamEntryToString_between_iff_two : ∃ u,
    streamEntryToString (pure (lit "5-2")) (pure (lit "+")) (lit "k") (worldWith (D := Int) (lit "k") (.stream oneMillisecond)) =
      .ok ((some (arrayHeader 2 ++ entriesText [⟨lit "5-2", [lit "f", lit "b"]⟩, ⟨lit "5-3", [lit "f", lit "c"]⟩]), 2), u) := by
  have ascends : Ascends oneMillisecond [(5, 1), (5, 2), (5, 3)] :=
    ⟨by decide +kernel, by simp [IdBefore], by decide, rfl⟩
  have isStart : IsBound (lit "-") (lit "5-2") (some (5, 2)) := .id (by decide +kernel)
  have selected : entriesBetween oneMillisecond (some (5, 2)) none =
      [⟨lit "5-2", [lit "f", lit "b"]⟩, ⟨lit "5-3", [lit "f", lit "c"]⟩] := by decide +kernel
  have isExact : RangeExact oneMillisecond [(5, 1), (5, 2), (5, 3)] (some (5, 2)) none
      (worldWith (D := Int) (lit "k") (.stream oneMillisecond)) := by
    refine ⟨by simp, fun low high isLow isHigh => ?_, ?_⟩
    · obtain rfl := Option.some.inj isLow
      obtain rfl := Option.some.inj isHigh
      decide +kernel
    · rw [selected]
      exact ⟨by decide +kernel, by decide +kernel, by decide +kernel, by simp⟩
  have run := (streamEntryToString_between_iff (lookup_worldWith indexed_k (.stream oneMillisecond)) ascends isStart
    .unbounded).mpr isExact
  rwa [selected] at run

/-- A stream of two entries, of which the later one has the lower sequence number. -/
def twoMilliseconds : Stream :=
  ⟨[⟨lit "5-9", [lit "f", lit "a"]⟩, ⟨lit "6-1", [lit "f", lit "b"]⟩], some ⟨lit "6-1", [lit "f", lit "b"]⟩, 6, 1, 2⟩

/-- XRANGE k - + of that stream is not the whole stream. -/
theorem xrange_leaves_out_lower_sequence : ¬ ∃ u,
    streamEntryToString (pure (lit "-")) (pure (lit "+")) (lit "k") (worldWith (D := Int) (lit "k") (.stream twoMilliseconds)) =
      .ok ((some (arrayHeader 2 ++ entriesText twoMilliseconds.entries), 2), u) := by
  rintro ⟨u, run⟩
  have ascends : Ascends twoMilliseconds [(5, 9), (6, 1)] := ⟨by decide +kernel, by simp [IdBefore], by decide, rfl⟩
  obtain ⟨picked, v, _, _, picks, counts, _⟩ :=
    streamEntryToString_ok (lookup_worldWith indexed_k (.stream twoMilliseconds)) run
  have compares := xrangePicks_run ascends .unbounded .unbounded (show _ = some (5, 9) from rfl) (show _ = some (6, 1) from rfl)
    (worldWith (D := Int) (lit "k") (.stream twoMilliseconds))
  have nothing : entriesCompared twoMilliseconds (5, 9) (6, 1) = [] := by decide +kernel
  obtain ⟨rfl, _⟩ := Prod.mk.inj (Except.ok.inj (compares.symm.trans picks))
  rw [nothing] at counts
  cases counts

end Exact

end RedisClone
