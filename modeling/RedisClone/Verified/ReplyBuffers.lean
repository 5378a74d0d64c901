import RedisClone.Verified.Deques
import RedisClone.Verified.Streams

/-! # The arrays of the reply builders

KEYS, LPOP with a count, GEOPOS and the two builders of stream replies print text after text behind a running offset,
and none of them compares the offset with the size of its array.  `print` stops where an offset lies behind the end, and
`sendPrefix` where it is longer than the array.  `reply_builders_within_iff`: a builder comes to its end exactly where
the texts fit, all of them where the array is sent from its offset, and all but the last one where it is read as a string.
-/

namespace RedisClone

open Exec CString

variable {D : Type}

section Texts

variable {w t : World D} {size : Nat} {buffer result : Buffer} {texts : List Bytes}

/-! ## Offsets -/

/-- Texts behind one another are printed and sent exactly where all of them fit. -/
theorem appendAll_send_iff (clientFd : Int) :
    (∃ t, (Buffer.appendAll size texts buffer >>= fun printed => printed.sendPrefix size clientFd) w = .ok ((), t)) ↔
      buffer.offset + texts.flatten.length ≤ size := by
  constructor
  · rintro ⟨t, run⟩
    obtain ⟨printed, _, prints, sends⟩ := bind_eq_ok.mp run
    rw [← appendAll_offset prints]
    unfold Buffer.sendPrefix at sends
    split at sends
    · simp [fault] at sends
    · omega
  · intro fits
    obtain ⟨printed, prints⟩ := appendAll_total fits w
    have offset := appendAll_offset prints
    rw [bind_of_ok prints, Buffer.sendPrefix, if_neg (by omega)]
    exact ⟨_, rfl⟩

theorem append_total (inside : buffer.offset ≤ size) (text : Bytes) (w : World D) :
    ∃ result, Buffer.append size buffer text w = .ok (result, w) := by
  unfold Buffer.append Buffer.print
  rw [if_neg (by omega)]
  exact ⟨_, rfl⟩

theorem append_offset {text : Bytes} (run : Buffer.append size buffer text w = .ok (result, t)) :
    buffer.offset ≤ size ∧ result.offset = buffer.offset + text.length ∧ t = w := by
  obtain ⟨printed, _, prints, adds⟩ := bind_eq_ok.mp run
  unfold Buffer.print at prints
  split at prints
  · simp [fault] at prints
  · simp only [pure_run, Except.ok.injEq, Prod.mk.injEq] at prints adds
    obtain ⟨rfl, rfl⟩ := prints
    obtain ⟨rfl, rfl⟩ := adds
    exact ⟨by omega, rfl, rfl⟩

/-- Every text but the last one ends inside the array. -/
def OffsetsFit (size offset : Nat) (texts : List Bytes) : Prop :=
  texts = [] ∨ offset + texts.dropLast.flatten.length ≤ size

theorem offsetsFit_cons {offset : Nat} {text : Bytes} :
    OffsetsFit size offset (text :: texts) ↔ offset ≤ size ∧ OffsetsFit size (offset + text.length) texts := by
  cases texts with
  | nil => simp [OffsetsFit]
  | cons next texts =>
    simp only [OffsetsFit, reduceCtorEq, false_or, List.dropLast_cons_cons, List.flatten_cons, List.length_append]
    omega

/-- Texts are printed exactly where the offset of each lies in the array. -/
theorem appendAll_iff :
    (∃ result, Buffer.appendAll size texts buffer w = .ok (result, w)) ↔ OffsetsFit size buffer.offset texts := by
  induction texts generalizing buffer with
  | nil => exact ⟨fun _ => .inl rfl, fun _ => ⟨buffer, rfl⟩⟩
  | cons text texts inductionHypothesis =>
    rw [offsetsFit_cons]
    constructor
    · rintro ⟨result, run⟩
      obtain ⟨appended, _, first, rest⟩ := bind_eq_ok.mp run
      obtain ⟨inside, offset, rfl⟩ := append_offset first
      rw [← offset]
      exact ⟨inside, inductionHypothesis.mp ⟨result, rest⟩⟩
    · rintro ⟨inside, rest⟩
      obtain ⟨appended, first⟩ := append_total inside text w
      rw [← (append_offset first).2.1] at rest
      obtain ⟨result, run⟩ := inductionHypothesis.mpr rest
      exact ⟨result, by rw [Buffer.appendAll, bind_of_ok first, run]⟩

theorem offsetsFit_append {offset : Nat} {first second : List Bytes} :
    OffsetsFit size offset (first ++ second) ↔
      OffsetsFit size offset first ∧ OffsetsFit size (offset + first.flatten.length) second := by
  induction first generalizing offset with
  | nil => simp [OffsetsFit]
  | cons text texts inductionHypothesis =>
    rw [List.cons_append, offsetsFit_cons, inductionHypothesis, offsetsFit_cons, List.flatten_cons,
      List.length_append, and_assoc, Nat.add_assoc]

/-! ## The entries of a stream -/

/-- The entries that the loop over a stream selects, without what it prints. -/
def pickEntries (start stop : Int × Int) (isXrange : Bool) : (remaining : Nat) → List StreamEntry → M D (List StreamEntry)
  | 0, _ => pure []
  | _ + 1, [] => fault .nullDeref
  | remaining + 1, entry :: entries => do
    let current ← scanId entry.id
    let picked ← pickEntries start stop isXrange remaining entries
    pure (if addToString start stop current isXrange then entry :: picked else picked)

theorem selectEntries_iff {start stop : Int × Int} {isXrange : Bool} {remaining count : Nat}
    {entries : List StreamEntry} :
    (∃ result t, selectEntries size start stop isXrange remaining entries buffer count w = .ok (result, t)) ↔
      ∃ picked t, pickEntries start stop isXrange remaining entries w = .ok (picked, t) ∧
        OffsetsFit size buffer.offset (picked.flatMap streamEntryTexts) := by
  induction remaining generalizing entries buffer count w with
  | zero => exact ⟨fun _ => ⟨[], w, rfl, .inl rfl⟩, fun _ => ⟨_, w, rfl⟩⟩
  | succ remaining inductionHypothesis =>
    -- the walk without a buffer picks the same entries, so only the prints can fail
    cases entries with
    | nil => simp [selectEntries, pickEntries, fault]
    | cons entry entries =>
      unfold selectEntries pickEntries
      constructor
      · rintro ⟨result, t, run⟩
        obtain ⟨current, scanned, scans, afterScan⟩ := bind_eq_ok.mp run
        rw [bind_of_ok scans]
        split at afterScan
        · rename_i selected
          obtain ⟨appended, _, prints, rest⟩ := bind_eq_ok.mp afterScan
          obtain rfl := appendAll_run prints
          obtain ⟨picked, t, picks, fits⟩ := inductionHypothesis.mp ⟨result, t, rest⟩
          refine ⟨entry :: picked, t, by rw [bind_of_ok picks, if_pos selected]; rfl, ?_⟩
          rw [List.flatMap_cons, offsetsFit_append, ← appendAll_offset prints]
          exact ⟨appendAll_iff.mp ⟨appended, prints⟩, fits⟩
        · rename_i passed
          obtain ⟨picked, t, picks, fits⟩ := inductionHypothesis.mp ⟨result, t, afterScan⟩
          exact ⟨picked, t, by rw [bind_of_ok picks, if_neg passed]; rfl, fits⟩
      · rintro ⟨picked, t, run, fits⟩
        obtain ⟨current, scanned, scans, afterScan⟩ := bind_eq_ok.mp run
        obtain ⟨others, _, picks, isPicked⟩ := bind_eq_ok.mp afterScan
        simp only [pure_run, Except.ok.injEq, Prod.mk.injEq] at isPicked
        obtain ⟨rfl, rfl⟩ := isPicked
        rw [bind_of_ok scans]
        by_cases selected : addToString start stop current isXrange = true
        · rw [if_pos selected, List.flatMap_cons, offsetsFit_append] at fits
          obtain ⟨appended, prints⟩ : ∃ appended,
              Buffer.appendAll size (streamEntryTexts entry) buffer scanned = .ok (appended, scanned) :=
            appendAll_iff.mpr fits.1
          rw [← appendAll_offset prints] at fits
          rw [if_pos selected, bind_of_ok prints]
          exact inductionHypothesis.mpr ⟨others, _, picks, fits.2⟩
        · rw [if_neg selected] at fits ⊢
          exact inductionHypothesis.mpr ⟨others, _, picks, fits⟩

theorem entriesPrinted_total (bufSize : Nat) (entriesToPrint : Buffer) (count : Nat) (w : World D) :
    ∃ content t, entriesPrinted bufSize entriesToPrint count w = .ok (content, t) := by
  unfold entriesPrinted
  split
  · exact ⟨_, _, rfl⟩
  · exact ⟨_, _, rfl⟩

/-- The entries that XRANGE picks from a stream. -/
def xrangePicks (startText endText : Bytes) (stream : Stream) : M D (List StreamEntry) := do
  let start ← scanBound startText (lit "-") stream.entries.head?
  let stop ← scanBound endText (lit "+") stream.tail
  pickEntries start stop false stream.length stream.entries

/-- The entries that XREAD picks from a stream, after it has taken the block that it prints to. -/
def xreadPicks (startText endText : Bytes) (stream : Stream) : M D (List StreamEntry) := do
  let _ ← indeterminate
  let (start, stop) ← xreadBounds startText endText stream
  let _ ← idOf stream.entries.head?
  pickEntries start stop true stream.length stream.entries

variable {key startText endText : Bytes} {stream : Stream} {expiresAt : Int}

theorem streamEntryToString_iff (found : lookup w.table key = .ok (some ⟨.stream stream, expiresAt⟩)) :
    (∃ result t, streamEntryToString (pure startText) (pure endText) key w = .ok (result, t)) ↔
      stream.length < 2 ^ 23 ∧ ∃ picked t, xrangePicks startText endText stream w = .ok (picked, t) ∧
        OffsetsFit (64 + stream.length * 256) 0 (picked.flatMap streamEntryTexts) := by
  have reads : storeGetEntry key w = .ok (some ⟨.stream stream, expiresAt⟩, w) := by rw [storeGetEntry_run, found]
  unfold streamEntryToString xrangePicks
  rw [bind_of_ok reads]
  simp only [pure_bind]
  constructor
  · rintro ⟨result, t, run⟩
    obtain ⟨start, _, scansStart, afterStart⟩ := bind_eq_ok.mp run
    obtain ⟨stop, _, scansStop, afterStop⟩ := bind_eq_ok.mp afterStart
    obtain ⟨bufSize, _, sizes, afterSize⟩ := bind_eq_ok.mp afterStop
    obtain ⟨few, rfl, rfl⟩ := rangeSize_ok sizes
    obtain ⟨selected, _, selects, _⟩ := bind_eq_ok.mp afterSize
    obtain ⟨picked, t, picks, fits⟩ := selectEntries_iff.mp ⟨selected, _, selects⟩
    exact ⟨few, picked, t, by rw [bind_of_ok scansStart, bind_of_ok scansStop, picks], fits⟩
  · rintro ⟨few, picked, t, run, fits⟩
    obtain ⟨start, _, scansStart, afterStart⟩ := bind_eq_ok.mp run
    obtain ⟨stop, _, scansStop, picks⟩ := bind_eq_ok.mp afterStart
    obtain ⟨selected, _, selects⟩ : ∃ selected t, selectEntries (64 + stream.length * 256) start stop false
        stream.length stream.entries {} 0 _ = .ok (selected, t) := selectEntries_iff.mpr ⟨picked, t, picks, fits⟩
    obtain ⟨content, t, prints⟩ := entriesPrinted_total (64 + stream.length * 256) selected.1 selected.2 _
    rw [bind_of_ok scansStart, bind_of_ok scansStop, bind_of_ok (rangeSize_run few _), bind_of_ok selects]
    exact ⟨_, _, (bind_of_ok prints).trans rfl⟩

theorem streamEntryXreadToString_iff (found : lookup w.table key = .ok (some ⟨.stream stream, expiresAt⟩)) :
    (∃ result t, streamEntryXreadToString (pure startText) endText key w = .ok (result, t)) ↔
      ∃ picked t, xreadPicks startText endText stream w = .ok (picked, t) ∧
        OffsetsFit 1024 0 (picked.flatMap streamEntryTexts) := by
  obtain ⟨block, allocated, allocates, sameTable⟩ : ∃ block allocated,
      (indeterminate : M D Bytes) w = .ok (block, allocated) ∧ allocated.table = w.table := ⟨_, _, rfl, rfl⟩
  have reads : storeGetEntry key allocated = .ok (some ⟨.stream stream, expiresAt⟩, allocated) := by
    rw [storeGetEntry_run, sameTable, found]
  unfold streamEntryXreadToString xreadPicks
  rw [bind_of_ok allocates, bind_of_ok allocates, bind_of_ok reads]
  simp only [pure_bind]
  constructor
  · rintro ⟨result, t, run⟩
    obtain ⟨bounds, _, scans, afterScan⟩ := bind_eq_ok.mp run
    obtain ⟨first, _, isFirst, afterFirst⟩ := bind_eq_ok.mp afterScan
    obtain ⟨selected, _, selects, _⟩ := bind_eq_ok.mp afterFirst
    obtain ⟨picked, t, picks, fits⟩ := selectEntries_iff.mp ⟨selected, _, selects⟩
    exact ⟨picked, t, by rw [bind_of_ok scans, bind_of_ok isFirst, picks], fits⟩
  · rintro ⟨picked, t, run, fits⟩
    obtain ⟨bounds, _, scans, afterScan⟩ := bind_eq_ok.mp run
    obtain ⟨first, _, isFirst, picks⟩ := bind_eq_ok.mp afterScan
    obtain ⟨selected, _, selects⟩ : ∃ selected t, selectEntries 1024 bounds.1 bounds.2 true stream.length
        stream.entries {} 0 _ = .ok (selected, t) := selectEntries_iff.mpr ⟨picked, t, picks, fits⟩
    rw [bind_of_ok scans, bind_of_ok isFirst, bind_of_ok selects]
    split
    · exact ⟨_, _, rfl⟩
    · exact ⟨_, _, rfl⟩

/-! ## The arrays that are sent -/

theorem handleKey_iff (clientFd : Int) :
    (∃ t, handleKey clientFd w = .ok ((), t)) ↔
      ∃ keys, keysOf (List.finRange tableSize) w = .ok (keys, w) ∧ (arrayText (keys.take 256)).length ≤ 8192 := by
  have sends (keys : List Bytes) : (∃ t, (Buffer.appendAll 8192 (arrayHeader keys.length :: keys.map bulk) {} >>=
      fun resp => resp.sendPrefix 8192 clientFd) w = .ok ((), t)) ↔ (arrayText keys).length ≤ 8192 := by
    rw [appendAll_send_iff, List.flatten_cons, Nat.zero_add]
    rfl
  unfold handleKey
  constructor
  · rintro ⟨t, run⟩
    obtain ⟨keys, _, reads, rest⟩ := bind_eq_ok.mp run
    obtain ⟨_, _, rfl⟩ := keysOf_all.mp reads
    exact ⟨keys, reads, (sends _).mp ⟨t, rest⟩⟩
  · rintro ⟨keys, reads, fits⟩
    rw [bind_of_ok reads]
    exact (sends _).mpr fits

theorem handleLpop_iff {req : RespRequest} {clientFd : Int} {values : List Bytes} (counted : req.argc = 2)
    (isKey : req.args[0]? = some key) (nonempty : values ≠ [])
    (found : lookup w.table key = .ok (some ⟨.list values, expiresAt⟩)) :
    (∃ t, handleLpop req clientFd w = .ok ((), t)) ↔
      (arrayText (values.take (popCount req values))).length ≤ 2048 := by
  obtain ⟨first, rest, rfl⟩ := List.exists_cons_of_ne_nil nonempty
  have hasWord : ∃ word, req.args[1]? = some word := by
    have supplied := req.supplied
    exact ⟨_, List.getElem?_eq_getElem (show 1 < req.args.length by omega)⟩
  rw [handleLpop_found isKey found rfl]
  have allKept : shiftLeft 0 (first :: rest) = first :: rest := shiftLeft_eq (Nat.zero_le _)
  have ends : EndsIff (popFrom req clientFd key 2048 first (first :: rest).length
      (fun n => (first :: rest).take n) fun n => shiftLeft n (first :: rest)) w _ _ :=
    popFrom_ends clientFd 2048 first nonempty found List.take_zero allKept fun _ => hasWord
  rw [ends.1]
  exact ⟨fun fits => fits counted, fun fits _ => fits⟩

theorem sendPositions_iff {req : RespRequest} {clientFd : Int} {text : Bytes → Bytes} :
    (∃ t, sendPositions size req clientFd text w = .ok ((), t)) ↔
      (arrayHeader (req.argc - 1) ++ ((req.args.drop 1).map text).flatten).length ≤ size := by
  rw [List.length_append]
  exact appendAll_send_iff clientFd

theorem handleGeopos_iff [Externals D] {req : RespRequest} {clientFd : Int} (enough : 2 ≤ req.argc)
    (isKey : req.args[0]? = some key) :
    (lookup w.table key = .ok none →
      ((∃ t, handleGeopos req clientFd w = .ok ((), t)) ↔
        (arrayHeader (req.argc - 1) ++ ((req.args.drop 1).map fun _ => nilArray).flatten).length ≤ 4096)) ∧
    ∀ set expiresAt, lookup w.table key = .ok (some ⟨.zset set, expiresAt⟩) →
      ((∃ t, handleGeopos req clientFd w = .ok ((), t)) ↔
        (arrayHeader (req.argc - 1) ++ ((req.args.drop 1).map (geoposText set.entries)).flatten).length ≤ 8192) := by
  unfold handleGeopos
  rw [if_neg (by omega), bind_of_ok (arg_ok.mpr ⟨isKey, rfl⟩), withPayload_run]
  constructor
  · intro missing
    rw [missing]
    exact sendPositions_iff
  · intro set expiresAt found
    rw [found]
    exact sendPositions_iff

/-- The texts of sixteen members fit: no request that was parsed makes GEOPOS leave its array. -/
theorem geopos_fits {req : RespRequest} {text : Bytes → Bytes} (enough : 2 ≤ req.argc)
    (few : req.args.length ≤ 16)
    (short : ∀ member, (text member).length ≤ 158) :
    (arrayHeader (req.argc - 1) ++ ((req.args.drop 1).map text).flatten).length ≤ 4096 := by
  have texts (members : List Bytes) : (members.map text).flatten.length ≤ 158 * members.length := by
    induction members with
    | nil => simp
    | cons member members inductionHypothesis =>
      have := short member
      rw [List.map_cons, List.flatten_cons, List.length_append, List.length_cons]
      omega
  have header : (arrayHeader (req.argc - 1)).length ≤ 13 := by
    have supplied := req.supplied
    have starLength : (lit "*").length = 1 := by decide
    have crlfLength : crlf.length = 2 := by decide
    obtain ⟨count, isCount⟩ := Int.eq_ofNat_of_zero_le (show 0 ≤ req.argc - 1 by omega)
    have digits : (decimalInt (req.argc - 1)).length ≤ 9 := by
      rw [isCount]
      exact length_decimal_le (by omega)
    simp only [arrayHeader, List.length_append, starLength, crlfLength]
    omega
  have members := texts (req.args.drop 1)
  rw [List.length_drop] at members
  rw [List.length_append]
  omega

theorem length_doubleBulk [Externals D] (value : D) : (doubleBulk value).length ≤ 77 := by
  have short : ((Externals.printG17 value).take 63).length ≤ 63 := List.length_take_le _ _
  have digits := length_decimal_le (show ((Externals.printG17 value).take 63).length < 10 ^ 9 by omega)
  have dollarLength : (lit "$").length = 1 := by decide
  have crlfLength : crlf.length = 2 := by decide
  simp only [doubleBulk, bulk, List.length_append, dollarLength, crlfLength]
  omega

theorem length_geoposText [Externals D] (entries : List (ZSetEntry D)) (member : Bytes) :
    (geoposText entries member).length ≤ 158 := by
  unfold geoposText
  split
  · decide
  · have starLength : (lit "*2\r\n").length = 4 := by decide
    simp only [List.length_append, starLength]
    rename_i entry _
    have := length_doubleBulk (geoDecode (D := D) (scoreHash entry.score)).1
    have := length_doubleBulk (geoDecode (D := D) (scoreHash entry.score)).2
    omega

/-- In every state and for every request a reply builder keeps its offset inside its array exactly where the texts that
it prints fit, and for XRANGE the size of the array fits an `int`. -/
theorem reply_builders_within_iff [Externals D] (w : World D) :
    (∀ clientFd, (∃ t, handleKey clientFd w = .ok ((), t)) ↔
      ∃ keys, keysOf (List.finRange tableSize) w = .ok (keys, w) ∧ (arrayText (keys.take 256)).length ≤ 8192) ∧
    (∀ req clientFd key values expiresAt, req.argc = 2 → req.args[0]? = some key → values ≠ [] →
      lookup w.table key = .ok (some ⟨.list values, expiresAt⟩) →
      ((∃ t, handleLpop req clientFd w = .ok ((), t)) ↔
        (arrayText (values.take (popCount req values))).length ≤ 2048)) ∧
    (∀ req clientFd key, 2 ≤ req.argc → req.args[0]? = some key →
      (lookup w.table key = .ok none →
        ((∃ t, handleGeopos req clientFd w = .ok ((), t)) ↔
          (arrayHeader (req.argc - 1) ++ ((req.args.drop 1).map fun _ => nilArray).flatten).length ≤ 4096)) ∧
      ∀ set expiresAt, lookup w.table key = .ok (some ⟨.zset set, expiresAt⟩) →
        ((∃ t, handleGeopos req clientFd w = .ok ((), t)) ↔
          (arrayHeader (req.argc - 1) ++ ((req.args.drop 1).map (geoposText set.entries)).flatten).length ≤ 8192)) ∧
    ∀ startText endText key stream expiresAt, lookup w.table key = .ok (some ⟨.stream stream, expiresAt⟩) →
      ((∃ result t, streamEntryXreadToString (pure startText) endText key w = .ok (result, t)) ↔
        ∃ picked t, xreadPicks startText endText stream w = .ok (picked, t) ∧
          OffsetsFit 1024 0 (picked.flatMap streamEntryTexts)) ∧
      ((∃ result t, streamEntryToString (pure startText) (pure endText) key w = .ok (result, t)) ↔
        stream.length < 2 ^ 23 ∧ ∃ picked t, xrangePicks startText endText stream w = .ok (picked, t) ∧
          OffsetsFit (64 + stream.length * 256) 0 (picked.flatMap streamEntryTexts)) := by
  refine ⟨fun clientFd => handleKey_iff clientFd, ?_, ?_, ?_⟩
  · intro req clientFd key values expiresAt counted isKey nonempty found
    exact handleLpop_iff counted isKey nonempty found
  · intro req clientFd key enough isKey
    exact handleGeopos_iff enough isKey
  · intro startText endText key stream expiresAt found
    exact ⟨streamEntryXreadToString_iff found, streamEntryToString_iff found⟩

end Texts

def popTwo : RespRequest := requestOf [lit "LPOP", lit "k", lit "2"]

/-- Two short elements are popped. -/
theorem reply_builders_within_iff_pop : ∃ t u : World Int,
    lookup t.table (lit "k") = .ok (some ⟨.list [lit "a", lit "b"], 0⟩) ∧ handleLpop popTwo 5 t = .ok ((), u) := by
  obtain ⟨t, run, checked⟩ := exists_run_of_play
    (show (play (fun _ _ => True) idleServer [.connect 5 0, arrival firstSlot [lit "RPUSH", lit "k", lit "a", lit "b"]]).any
      (fun t => decide (lookup t.world.table (lit "k") = .ok (some ⟨.list [lit "a", lit "b"], 0⟩))) = true by
      decide +kernel)
  have found := of_decide_eq_true checked
  obtain ⟨u, popped⟩ := ((reply_builders_within_iff t.world).2.1 popTwo 5 (lit "k") [lit "a", lit "b"] 0 (by decide +kernel)
    (by decide +kernel) (by simp) found).mpr (by decide +kernel)
  exact ⟨t.world, u, found, popped⟩

/-- A long string. -/
def longText : Bytes := List.replicate 250 97

def popNine : RespRequest := requestOf [lit "LPOP", lit "k", lit "9"]

/-- A pop of nine long elements prints behind its array. -/
theorem lpop_overruns :
    ¬ ∀ (t : Server Int) (clientFd : Int) (req : RespRequest) (values : List Bytes), Runs idleServer t →
      req.argc = 2 → req.args[0]? = some (lit "k") → values ≠ [] →
      lookup t.world.table (lit "k") = .ok (some ⟨.list values, 0⟩) →
        ∃ u, handleLpop req clientFd t.world = .ok ((), u) := by
  intro within
  obtain ⟨t, run, checked⟩ := exists_run_of_play
    (show (play (fun _ _ => True) idleServer (.connect 5 0 ::
        List.replicate 3 (arrival firstSlot [lit "RPUSH", lit "k", longText, longText, longText]))).any
      (fun t => decide (lookup t.world.table (lit "k") = .ok (some ⟨.list (List.replicate 9 longText), 0⟩))) = true by
      decide +kernel)
  have found := of_decide_eq_true checked
  have isKey : popNine.args[0]? = some (lit "k") := by decide +kernel
  have nonempty : List.replicate 9 longText ≠ [] := by simp
  have fits := (handleLpop_iff (by decide +kernel) isKey nonempty found).mp
    (within t 5 popNine (List.replicate 9 longText) run (by decide +kernel) isKey nonempty found)
  exact absurd fits (by decide +kernel)

end RedisClone
