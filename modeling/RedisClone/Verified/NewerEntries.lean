import RedisClone.Verified.LoadedStreams
import RedisClone.Verified.StreamRanges

/-! # The entries that XREAD reads

XREAD asks for the entries behind an ID.  The upper bound of its loop is the ID of the tail, so that nothing is left out
of a stream whose IDs ascend (`Ascends.added_iff`), and it prints what it selects to one block of 1024 bytes.  The
reader of an empty stream follows its `tail`, and the reader of many entries prints behind the end of the block:
`xread_selects_newer_iff` says that nothing else can go wrong.
-/

namespace RedisClone

open Exec CString

variable {D : Type} {w t : World D}

/-! ## What is newer -/

instance decidable_idBefore (p q : Int × Int) : Decidable (IdBefore p q) := by
  unfold IdBefore
  infer_instance

/-- The entries behind an ID, in the order of the stream. -/
def newerEntries (stream : Stream) (start : Int × Int) : List StreamEntry :=
  stream.entries.filter fun entry => (idPair entry.id).any fun pair => decide (IdBefore start pair)

section Newer

variable {stream : Stream} {pairs : List (Int × Int)} {start last pair : Int × Int} {startText : Bytes}

theorem addToString_xread_iff :
    addToString start last pair true = true ↔ IdBefore start pair ∧ IdAtMost pair last := by
  simp only [addToString, if_true, Bool.and_eq_true, Bool.or_eq_true, decide_eq_true_eq, beq_iff_eq]
  unfold IdBefore IdAtMost
  omega

/-- Behind the tail there is nothing, so that the upper bound leaves out no entry. -/
theorem Ascends.added_iff (ascends : Ascends stream pairs) (isLast : pairs.getLast? = some last) (inside : pair ∈ pairs) :
    addToString start last pair true = true ↔ IdBefore start pair := by
  rw [addToString_xread_iff]
  exact and_iff_left (ascends.atMost_last isLast inside)

theorem Ascends.filter_added (ascends : Ascends stream pairs) (isLast : pairs.getLast? = some last) :
    (stream.entries.filter fun entry => (idPair entry.id).any fun pair => addToString start last pair true) =
      newerEntries stream start := by
  refine List.filter_congr fun entry inside => ?_
  obtain ⟨pair, isMember, isPair⟩ := ascends.pair_of_mem inside
  rw [isPair, Option.any_some, Option.any_some, Bool.eq_iff_iff, decide_eq_true_iff]
  exact ascends.added_iff isLast isMember

theorem ne_minus_of_pair (isStart : idPair startText = some start) : startText ≠ lit "-" := by
  rintro rfl
  rw [idPair_minus] at isStart
  cases isStart

/-- The bounds are the ID and that of the tail. -/
theorem xreadBounds_run (ascends : Ascends stream pairs) (isStart : idPair startText = some start)
    (isLast : pairs.getLast? = some last) (w : World D) :
    xreadBounds startText (lit "+") stream w = .ok ((start, last), w) := by
  have notMinus := ne_minus_of_pair isStart
  have low : scanBound startText (lit "-") stream.entries.head? w = .ok (start, w) := by
    rw [scanBound, if_neg notMinus, scanId_of_pair isStart]
  have high : scanBound (lit "+") (lit "+") stream.tail w = .ok (last, w) :=
    scanBound_run .unbounded idPair_plus ascends.last isLast w
  rw [xreadBounds, if_neg (fun both => notMinus both.1), bind_of_ok low, bind_of_ok high]
  rfl

theorem xreadPicks_run (ascends : Ascends stream pairs) (isStart : idPair startText = some start)
    (nonempty : stream.entries ≠ []) (w : World D) :
    xreadPicks startText (lit "+") stream w = .ok (newerEntries stream start, w.takeFresh) := by
  obtain ⟨last, isLast⟩ : ∃ last, pairs.getLast? = some last := by
    refine Option.ne_none_iff_exists'.mp fun nothing => nonempty ?_
    obtain rfl := List.getLast?_eq_none_iff.mp nothing
    exact List.map_eq_nil_iff.mp ascends.ids
  obtain ⟨first, rest, isEntries⟩ := List.exists_cons_of_ne_nil nonempty
  have head : idOf stream.entries.head? w.takeFresh = .ok (first.id, w.takeFresh) := by
    rw [isEntries]
    rfl
  have allocates : (indeterminate : M D Bytes) w = .ok (w.fresh 0, w.takeFresh) := rfl
  unfold xreadPicks
  rw [bind_of_ok allocates, bind_of_ok (xreadBounds_run ascends isStart isLast w.takeFresh)]
  dsimp only
  rw [bind_of_ok head, ascends.counted, pickEntries_run ascends.ids, ascends.filter_added isLast]

/-- The reader of a stream without a tail follows it all the same. -/
theorem xreadPicks_faults (isStart : idPair startText = some start) (noTail : stream.tail = none) (w : World D) :
    xreadPicks startText (lit "+") stream w = .error .nullDeref := by
  have notMinus := ne_minus_of_pair isStart
  have low : scanBound startText (lit "-") stream.entries.head? w.takeFresh = .ok (start, w.takeFresh) := by
    rw [scanBound, if_neg notMinus, scanId_of_pair isStart]
  have allocates : (indeterminate : M D Bytes) w = .ok (w.fresh 0, w.takeFresh) := rfl
  have bounds : xreadBounds startText (lit "+") stream w.takeFresh = .error .nullDeref := by
    rw [xreadBounds, if_neg (fun both => notMinus both.1), bind_of_ok low, noTail]
    exact bind_of_error (scanBound_faults .unbounded rfl w.takeFresh)
  unfold xreadPicks
  rw [bind_of_ok allocates, bind_of_error bounds]

end Newer

/-! ## What is printed -/

section Printed

variable {key startText endText : Bytes} {stream : Stream} {expiresAt : Int}

/-- The reader comes to its end where the texts of what it picks begin inside the block. -/
theorem streamEntryXreadToString_run {picked : List StreamEntry}
    (found : lookup w.table key = .ok (some ⟨.stream stream, expiresAt⟩))
    (picks : xreadPicks startText endText stream w = .ok (picked, t))
    (fits : OffsetsFit 1024 0 (picked.flatMap streamEntryTexts)) :
    ∃ content, streamEntryXreadToString (pure startText) endText key w = .ok ((some content, picked.length), t) ∧
      (picked ≠ [] → (entriesText picked).length < 1024 → content = entriesText picked) := by
  obtain ⟨⟨messages, count⟩, u, run⟩ := (streamEntryXreadToString_iff found).mpr ⟨picked, t, picks, fits⟩
  obtain ⟨others, content, picks', rfl, rfl, whole⟩ := streamEntryXreadToString_ok found rfl run
  obtain ⟨rfl, rfl⟩ := Prod.mk.inj (Except.ok.inj (picks.symm.trans picks'))
  exact ⟨content, run, fun some short => (whole some).trans (List.take_of_length_le (by omega))⟩

end Printed

/-! ## Exactly the newer entries -/

/-- The reader ends, counts these entries, and returns their text where there are some and the block has room for it. -/
def SelectsEntries (run : Except Fault ((Option Bytes × Nat) × World D)) (entries : List StreamEntry) : Prop :=
  ∃ result t, run = .ok ((result, entries.length), t) ∧
    (entries ≠ [] → (entriesText entries).length < 1024 → result = some (entriesText entries))

section Selects

variable {key startText : Bytes} {stream : Stream} {pairs : List (Int × Int)} {start : Int × Int} {expiresAt : Int}

/-- A reader that ends has followed the tail, and has printed inside the block. -/
theorem SelectsEntries.fits (found : lookup w.table key = .ok (some ⟨.stream stream, expiresAt⟩))
    (ascends : Ascends stream pairs) (isStart : idPair startText = some start) {entries : List StreamEntry}
    (selects : SelectsEntries (streamEntryXreadToString (pure startText) (lit "+") key w) entries) :
    stream.entries ≠ [] ∧ OffsetsFit 1024 0 ((newerEntries stream start).flatMap streamEntryTexts) := by
  obtain ⟨result, t, run, _⟩ := selects
  obtain ⟨picked, u, picks, fits⟩ := (streamEntryXreadToString_iff found).mp ⟨_, t, run⟩
  have nonempty : stream.entries ≠ [] := by
    intro empty
    have noTail : stream.tail = none := by rw [ascends.tail, empty, List.getLast?_nil]
    rw [xreadPicks_faults isStart noTail] at picks
    cases picks
  obtain ⟨rfl, _⟩ := Prod.mk.inj (Except.ok.inj ((xreadPicks_run ascends isStart nonempty w).symm.trans picks))
  exact ⟨nonempty, fits⟩

/-- For every stream whose IDs ascend and every ID: `streamEntry_XREAD_toString` counts the entries behind the ID and
returns their encodings in the order of the stream if and only if the stream is not empty, and none of the texts that it
prints would begin behind the end of the block. -/
theorem xread_selects_newer_iff (found : lookup w.table key = .ok (some ⟨.stream stream, expiresAt⟩))
    (ascends : Ascends stream pairs) (isStart : idPair startText = some start) :
    SelectsEntries (streamEntryXreadToString (pure startText) (lit "+") key w) (newerEntries stream start) ↔
      stream.entries ≠ [] ∧ OffsetsFit 1024 0 ((newerEntries stream start).flatMap streamEntryTexts) := by
  constructor
  · intro selects
    exact selects.fits found ascends isStart
  · rintro ⟨nonempty, fits⟩
    obtain ⟨content, run, whole⟩ :=
      streamEntryXreadToString_run found (xreadPicks_run ascends isStart nonempty w) fits
    exact ⟨some content, w.takeFresh, run, fun some short => congrArg _ (whole some short)⟩

theorem oneMillisecond_ascends : Ascends oneMillisecond [(5, 1), (5, 2), (5, 3)] :=
  ⟨by decide +kernel, by simp [IdBefore], by decide, rfl⟩

/-- XREAD from 5-1 of three entries within one millisecond. -/
theorem xread_selects_newer_iff_two :
    SelectsEntries (streamEntryXreadToString (pure (lit "5-1")) (lit "+") (lit "k")
        (worldWith (D := Int) (lit "k") (.stream oneMillisecond)))
      [⟨lit "5-2", [lit "f", lit "b"]⟩, ⟨lit "5-3", [lit "f", lit "c"]⟩] := by
  have isStart : idPair (lit "5-1") = some (5, 1) := by decide +kernel
  have newer : newerEntries oneMillisecond (5, 1) =
      [⟨lit "5-2", [lit "f", lit "b"]⟩, ⟨lit "5-3", [lit "f", lit "c"]⟩] := by decide +kernel
  have fits : OffsetsFit 1024 0 ((newerEntries oneMillisecond (5, 1)).flatMap streamEntryTexts) := by
    refine offsetsFit_of_fits ?_
    rw [newer]
    decide +kernel
  rw [← newer]
  exact (xread_selects_newer_iff (lookup_worldWith indexed_k (.stream oneMillisecond)) oneMillisecond_ascends
    isStart).mpr ⟨by decide, fits⟩

/-- A stream of six entries with 250 bytes each. -/
def longStream : Stream :=
  ⟨[⟨lit "1-1", [longText]⟩, ⟨lit "1-2", [longText]⟩, ⟨lit "1-3", [longText]⟩, ⟨lit "1-4", [longText]⟩,
    ⟨lit "1-5", [longText]⟩, ⟨lit "1-6", [longText]⟩], some ⟨lit "1-6", [longText]⟩, 1, 6, 6⟩

/-- XREAD from 0-1 of six long entries prints behind the block, and XREAD of an empty stream follows its `tail`. -/
theorem xread_overruns_block :
    (Ascends longStream [(1, 1), (1, 2), (1, 3), (1, 4), (1, 5), (1, 6)] ∧
      ¬ SelectsEntries (streamEntryXreadToString (pure (lit "0-1")) (lit "+") (lit "k")
        (worldWith (D := Int) (lit "k") (.stream longStream))) (newerEntries longStream (0, 1))) ∧
    Ascends .zeroed [] ∧
      ¬ SelectsEntries (streamEntryXreadToString (pure (lit "0-1")) (lit "+") (lit "k")
        (worldWith (D := Int) (lit "k") (.stream .zeroed))) (newerEntries .zeroed (0, 1)) := by
  have isStart : idPair (lit "0-1") = some (0, 1) := by decide +kernel
  have ascends : Ascends longStream [(1, 1), (1, 2), (1, 3), (1, 4), (1, 5), (1, 6)] :=
    ⟨by decide +kernel, by simp [IdBefore], by decide +kernel, rfl⟩
  have empty : Ascends .zeroed [] := ⟨rfl, .nil, rfl, rfl⟩
  refine ⟨⟨ascends, fun selects => ?_⟩, empty, fun selects => ?_⟩
  · have fits := (selects.fits (lookup_worldWith indexed_k (.stream longStream)) ascends isStart).2
    -- the last text would begin at 1392
    have behind : 1024 < ((newerEntries longStream (0, 1)).flatMap streamEntryTexts).dropLast.flatten.length := by
      decide +kernel
    unfold OffsetsFit at fits
    obtain nothing | inside := fits
    · rw [nothing] at behind
      cases behind
    · omega
  · exact (selects.fits (lookup_worldWith indexed_k (.stream .zeroed)) empty isStart).1 rfl

end Selects

end RedisClone
