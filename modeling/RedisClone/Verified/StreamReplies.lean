import RedisClone.Verified.ListReplies
import RedisClone.Verified.StreamIds
import RedisClone.Verified.Subscriptions
import RedisClone.Verified.Writes

/-! # Arms of streams and channels that send one complete value

XADD sends the ID of the new entry and then wakes the readers of the stream, which are other clients where the sender
does not read the stream itself.  XRANGE and XREAD send what they print where it fits, XREAD with BLOCK and WAIT may send
nothing and leave the client blocked.
-/

namespace RedisClone

open Exec CString

variable {D : Type} {fd : Int} {w t : World D} {req : RespRequest} {ptr : ClientPtr} {client : Client}

/-! ## XADD -/

theorem isLine_validateStreamId {id tailId errorResp : Bytes}
    (checks : validateStreamId id tailId w = .ok (some errorResp, t)) : isLine errorResp = true := by
  -- several of the checks reject with the same text
  have invalid {u : World D} (rejects : (pure (some invalidId) : M D (Option Bytes)) u = .ok (some errorResp, t)) :
      isLine errorResp = true := by
    simp only [pure_run, Except.ok.injEq, Prod.mk.injEq, Option.some.injEq] at rejects
    rw [← rejects.1]
    decide
  unfold validateStreamId at checks
  split at checks
  · simp at checks
  split at checks
  · exact invalid checks
  obtain ⟨ms, _, _, afterMs⟩ := bind_eq_ok.mp checks
  obtain ⟨seq, _, _, afterSeq⟩ := bind_eq_ok.mp afterMs
  split at afterSeq
  · exact invalid afterSeq
  by_cases generated : seq = lit "*" ∧ 0 ≤ atoi ms
  · rw [if_pos generated] at afterSeq
    cases scans : (scanInteger ms).isNone with
    | true => exact invalid (by simpa [scans] using afterSeq)
    | false => simp [scans] at afterSeq
  rw [if_neg generated] at afterSeq
  cases scans : scanPair id with
  | mk requestIdMs requestIdSeq =>
    simp only [scans] at afterSeq
    cases requestIdMs with
    | none => exact invalid afterSeq
    | some requestIdMs =>
      cases requestIdSeq with
      | none => exact invalid afterSeq
      | some requestIdSeq =>
        dsimp only at afterSeq
        split at afterSeq
        · simp only [pure_run, Except.ok.injEq, Prod.mk.injEq, Option.some.injEq] at afterSeq
          rw [← afterSeq.1]
          decide
        · obtain ⟨bigger, _, _, afterCompare⟩ := bind_eq_ok.mp afterSeq
          cases bigger with
          | true => simp at afterCompare
          | false =>
            simp only [Bool.not_false, if_true, pure_run, Except.ok.injEq, Prod.mk.injEq, Option.some.injEq]
              at afterCompare
            rw [← afterCompare.1]
            decide +kernel

/-- Where the ID is accepted, the reply with the one that the new entry gets has room in its array. -/
def XaddFits (w : World D) (req : RespRequest) : Prop :=
  ∀ key id checked entryId, req.args[0]? = some key → req.args[1]? = some id →
    checkStreamId id (storedStream w.table key).tail w = .ok (none, checked) →
      NewId (storedStream w.table key) id (w.clock 0) entryId → (bulk entryId).length < 128

theorem replies_sendEntryId {id : Bytes} (ordinary : fd ≠ w.serverConfig.masterFd) (fits : (bulk id).length < 128) :
    Replies fd (sendEntryId fd id : M D Unit) w := by
  unfold sendEntryId
  refine .of_bind (show config w = .ok (w.serverConfig, w) from rfl) rfl ?_
  rw [if_pos ordinary, if_pos (by omega), List.take_of_length_le (by omega)]
  exact replies_sendPrefix (.bulk id) (by omega)

theorem noReader_of_onlyFd {key : Bytes} (only : w.OnlyFd ptr) (found : w.heap ptr = some client)
    (notReading : ¬ client.reads key) : NoReader w key client.fd := by
  intro slot other otherClient inSlot found' reads same
  obtain rfl : other = ptr := only slot other otherClient client inSlot found' found same
  obtain rfl : client = otherClient := Option.some.inj (found.symm.trans found')
  exact notReading reads

/-- XADD to the stream of a key, once the stream was looked up. -/
theorem replies_addTo {key : Bytes} (isKey : req.args[0]? = some key) (ordinary : fd ≠ w.serverConfig.masterFd)
    (fits : XaddFits w req) (noReader : NoReader w key fd) :
    Replies fd (do
      let id ← req.arg 1
      match ← checkStreamId id (storedStream w.table key).tail with
      | some errorResp => sendUnlessMaster fd errorResp
      | none => do
        let entryId ← chooseId (storedStream w.table key) id
        let (ms, seq) ← scanId entryId
        appendEntry key (storedStream w.table key) ⟨entryId, req.args.drop 2⟩ ms seq
        sendEntryId fd entryId
        forM clientSlots (wakeStreamReader key)) w := by
  refine replies_arg fun id isId => .after fun errorMsg checked checks => ?_
  have same : SameServer w checked := Preserves.run _ _ _ checks
  cases errorMsg with
  | some errorResp =>
    refine replies_sendUnlessMaster (by rw [same.serverConfig]; exact ordinary) (.of_isLine ?_)
    cases tail : (storedStream w.table key).tail with
    | none => simp [tail, checkStreamId] at checks
    | some last =>
      rw [tail] at checks
      exact isLine_validateStreamId checks
  | none =>
    dsimp only
    refine .after fun entryId chosen chooses => .after fun pair scanned scans => .after fun _ appended appends => ?_
    have later : SameServer checked appended := storing_sameServer.composes.trans (Preserves.run _ _ _ chooses)
      (storing_sameServer.composes.trans (Preserves.run _ _ _ scans) (Preserves.run _ _ _ appends))
    have all : SameServer w appended := storing_sameServer.composes.trans same later
    -- the readers of the stream are others
    intro _ u ends
    obtain ⟨_, replied, replies, wakes⟩ := bind_eq_ok.mp ends
    have isNew := newId_of_ok chooses
    rw [clock_checkStreamId checks] at isNew
    have shortId := fits key id checked entryId isKey isId checks isNew
    obtain ⟨value, sent, isResp⟩ := replies_sendEntryId (by rw [all.serverConfig]; exact ordinary) shortId _ _ replies
    have noReaderLeft : NoReader replied key fd := by
      obtain ⟨sent, fresh, ends⟩ := sendEntryId_ends fd entryId appended
      rw [ends] at replies
      cases replies
      unfold NoReader
      rw [all.clients, all.heap]
      exact noReader
    have silent : SilentTo fd replied u := forM_wakeStreamReader_silent noReaderLeft wakes
    exact ⟨value, Eq.trans silent sent, isResp⟩

theorem replies_handleXadd (enough : 2 ≤ req.argc) (ordinary : fd ≠ w.serverConfig.masterFd) (fits : XaddFits w req)
    (noReader : ∀ key ∈ req.args[0]?, NoReader w key fd) : Replies fd (handleSet req .stream fd) w := by
  unfold handleSet
  rw [if_neg (by omega)]
  dsimp only
  unfold handleSetStream
  refine replies_arg fun key isKey => ?_
  intro _ t run
  obtain ⟨stream, opened, opens, afterStream⟩ := bind_eq_ok.mp run
  obtain ⟨rfl, rfl⟩ := storedStream_ok opens
  exact replies_addTo isKey ordinary fits (noReader key isKey) _ t afterStream

/-! ## XRANGE -/

/-- What is printed for some entries. -/
def entriesText (picked : List StreamEntry) : Bytes := (picked.flatMap streamEntryTexts).flatten

theorem isResp_streamEntryTexts (entry : StreamEntry) : IsResp (streamEntryTexts entry).flatten := by
  have pair : IsResp (arrayHeader 2 ++ [bulk entry.id, arrayText entry.fields].flatten) := by
    refine .array [_, _] fun value member => ?_
    simp only [List.mem_cons, List.not_mem_nil, or_false] at member
    obtain rfl | rfl := member
    · exact .bulk _
    · exact .bulks _
  have front : arrayHeader 2 = lit "*2\r\n" := by decide
  rw [front] at pair
  simpa [streamEntryTexts, arrayText] using pair

theorem entriesText_eq (picked : List StreamEntry) :
    entriesText picked = (picked.map fun entry => (streamEntryTexts entry).flatten).flatten := by
  rw [entriesText, List.flatMap_def, List.flatten_flatten, List.map_map]
  rfl

/-- The entries behind their number. -/
theorem isResp_entries (picked : List StreamEntry) : IsResp (arrayHeader picked.length ++ entriesText picked) := by
  have array := IsResp.array (picked.map fun entry => (streamEntryTexts entry).flatten) fun value member => by
    obtain ⟨entry, _, rfl⟩ := List.mem_map.mp member
    exact isResp_streamEntryTexts entry
  rw [List.length_map] at array
  rwa [entriesText_eq]

/-- The loop over a stream counts the entries that it picks, and has printed them as far as there is room. -/
theorem selectEntries_picks {size remaining count total : Nat} {start stop : Int × Int} {isXrange : Bool}
    {entries : List StreamEntry} {buffer result : Buffer}
    (run : selectEntries size start stop isXrange remaining entries buffer count w = .ok ((result, total), t)) :
    ∃ picked, pickEntries start stop isXrange remaining entries w = .ok (picked, t) ∧ total = count + picked.length ∧
      ∀ content, buffer = ⟨content.take (size - 1), content.length⟩ →
        result.content = (content ++ entriesText picked).take (size - 1) := by
  induction remaining generalizing entries buffer count w with
  | zero =>
    simp only [selectEntries, pure_run, Except.ok.injEq, Prod.mk.injEq] at run
    obtain ⟨⟨rfl, rfl⟩, rfl⟩ := run
    refine ⟨[], rfl, rfl, fun content isBuffer => ?_⟩
    rw [isBuffer, entriesText, List.flatMap_nil, List.flatten_nil, List.append_nil]
  | succ remaining inductionHypothesis =>
    cases entries with
    | nil => simp [selectEntries, fault] at run
    | cons entry entries =>
      unfold selectEntries at run
      obtain ⟨current, scanned, scans, afterScan⟩ := bind_eq_ok.mp run
      unfold pickEntries
      rw [bind_of_ok scans]
      split at afterScan
      · rename_i selected
        obtain ⟨appended, _, prints, rest⟩ := bind_eq_ok.mp afterScan
        obtain rfl := appendAll_run prints
        obtain ⟨picked, picks, counts, prints'⟩ := inductionHypothesis rest
        refine ⟨entry :: picked, by rw [bind_of_ok picks, if_pos selected]; rfl, ?_, fun content isBuffer => ?_⟩
        · rw [List.length_cons]
          omega
        · have both : entriesText (entry :: picked) = (streamEntryTexts entry).flatten ++ entriesText picked := by
            rw [entriesText, List.flatMap_cons, List.flatten_append]
            rfl
          rw [isBuffer] at prints
          rw [both, ← List.append_assoc]
          exact prints' _ (appendAll_content prints)
      · rename_i passed
        obtain ⟨picked, picks, counts, prints⟩ := inductionHypothesis afterScan
        exact ⟨picked, by rw [bind_of_ok picks, if_neg passed]; rfl, counts, prints⟩

/-- The block of `entriesToPrint` is empty text where no entry is printed to it. -/
def StaleBlockEmpty (bufSize : Nat) (t : World D) : Prop := untilNul ((t.fresh 0).take bufSize) = []

/-- What XRANGE sends about a stream fits both arrays, and is printed to the first one. -/
def XrangeFits (w : World D) (req : RespRequest) : Prop :=
  ∀ key startText endText stream expiresAt picked t, req.args[0]? = some key → req.args[1]? = some startText →
    req.args[2]? = some endText → binding w.table key = some ⟨.stream stream, expiresAt⟩ →
      xrangePicks startText endText stream w = .ok (picked, t) →
        (entriesText picked).length < 64 + stream.length * 256 ∧
          (arrayHeader picked.length ++ entriesText picked).length < 64 + stream.length * 256 + 32 ∧
            (picked = [] → StaleBlockEmpty (64 + stream.length * 256) t)

/-- What `%s` prints of the entries, where they fit. -/
theorem entriesPrinted_eq {bufSize : Nat} {entriesToPrint : Buffer} {picked : List StreamEntry} {content : Bytes}
    (whole : entriesToPrint.content = entriesText picked) (stale : picked = [] → StaleBlockEmpty bufSize w)
    (run : entriesPrinted bufSize entriesToPrint picked.length w = .ok (content, t)) :
    content = entriesText picked := by
  unfold entriesPrinted at run
  split at run
  · rename_i nothing
    obtain rfl := List.eq_nil_of_length_eq_zero nothing
    -- nothing is printed, so that the block is what `malloc` left
    obtain ⟨rfl, rfl⟩ := Prod.mk.inj (Except.ok.inj run)
    exact stale rfl
  · obtain ⟨rfl, rfl⟩ := Prod.mk.inj (Except.ok.inj run)
    exact whole

theorem printArg_run {i : Nat} {f : Unit → M D Unit} (rest : Replies fd (f ()) w) :
    Replies fd (req.printArg i >>= f) w := by
  refine .after fun _ t run => ?_
  obtain rfl := printArg_same run
  exact rest

theorem replies_handleXrange
    (isStream : ∀ key ∈ req.args[0]?, ∃ stream expiresAt, binding w.table key = some ⟨.stream stream, expiresAt⟩)
    (fits : XrangeFits w req) : Replies fd (handleStreamPrint req ptr fd .xrange) w := by
  unfold handleStreamPrint
  refine printArg_run ?_
  rw [if_pos rfl]
  refine replies_arg fun key isKey => ?_
  obtain ⟨stream, expiresAt, bound⟩ := isStream key isKey
  have reads : storeGetEntry key w = .ok (some ⟨.stream stream, expiresAt⟩, w) := by
    rw [storeGetEntry_run, lookup_of_binding bound]
  unfold streamEntryToString
  intro _ u run
  obtain ⟨⟨response, count⟩, t, prints, sends⟩ := bind_eq_ok.mp run
  rw [bind_of_ok reads] at prints
  dsimp only at prints sends
  obtain ⟨startText, read, readsStart, afterStart⟩ := bind_eq_ok.mp prints
  obtain ⟨isStart, rfl⟩ := arg_ok.mp readsStart
  obtain ⟨endText, read', readsEnd, afterEnd⟩ := bind_eq_ok.mp afterStart
  obtain ⟨isEnd, rfl⟩ := arg_ok.mp readsEnd
  obtain ⟨start, scanned, scansStart, afterScan⟩ := bind_eq_ok.mp afterEnd
  obtain ⟨stop, scanned', scansStop, afterStop⟩ := bind_eq_ok.mp afterScan
  obtain ⟨bufSize, _, sizes, afterSize⟩ := bind_eq_ok.mp afterStop
  obtain ⟨_, rfl, rfl⟩ := rangeSize_ok sizes
  obtain ⟨⟨entriesToPrint, total⟩, selected, selects, afterSelect⟩ := bind_eq_ok.mp afterSize
  obtain ⟨content, printed, printsText, isText⟩ := bind_eq_ok.mp afterSelect
  simp only [pure_run, Except.ok.injEq, Prod.mk.injEq] at isText
  obtain ⟨⟨rfl, rfl⟩, rfl⟩ := isText
  obtain ⟨picked, picks, counts, whole⟩ := selectEntries_picks selects
  have picksAll : xrangePicks startText endText stream read' = .ok (picked, selected) := by
    unfold xrangePicks
    rw [bind_of_ok scansStart, bind_of_ok scansStop, picks]
  obtain ⟨room, roomForHeader, stale⟩ := fits key startText endText stream expiresAt picked _ isKey isStart isEnd bound picksAll
  rw [Nat.zero_add] at counts
  rw [counts] at printsText
  have isContent : entriesToPrint.content = entriesText picked := by
    rw [whole [] (by simp), List.nil_append, List.take_of_length_le (by omega)]
  have isPrinted := entriesPrinted_eq isContent stale printsText
  have quiet : SilentAt fd read' printed := by
    refine composes_sameOutput.trans (Preserves.run _ _ _ scansStart) ?_
    refine composes_sameOutput.trans (Preserves.run _ _ _ scansStop) ?_
    exact composes_sameOutput.trans (Preserves.run _ _ _ selects) (Preserves.run _ _ _ printsText)
  have isResp : IsResp ((arrayHeader total ++ content).take (64 + stream.length * 256 + 32 - 1)) := by
    rw [isPrinted, counts, List.take_of_length_le (by omega)]
    exact isResp_entries picked
  obtain ⟨value, sent, isValue⟩ := replies_send isResp _ _ sends
  exact ⟨value, sent.trans (congrArg (· ++ value) quiet), isValue⟩

/-! ## XREAD -/

/-- What XREAD prints of a stream fits the array, whatever the stale memory that it reads. -/
def StreamFits (table : Table D) (key startText : Bytes) : Prop :=
  ∀ stream expiresAt picked, ∀ u v : World D, binding table key = some ⟨.stream stream, expiresAt⟩ →
    xreadPicks startText (lit "+") stream u = .ok (picked, v) → (entriesText picked).length < 1024

/-- What the reader returns: the number of the entries that it picks, and their text as far as the block has room for it. -/
theorem streamEntryXreadToString_ok {idStart : M D Bytes} {key startText endText : Bytes} {stream : Stream}
    {expiresAt : Int} {messages : Option Bytes} {count : Nat}
    (found : lookup w.table key = .ok (some ⟨.stream stream, expiresAt⟩))
    (readsStart : idStart w.takeFresh = .ok (startText, w.takeFresh))
    (run : streamEntryXreadToString idStart endText key w = .ok ((messages, count), t)) :
    ∃ picked content, xreadPicks startText endText stream w = .ok (picked, t) ∧ count = picked.length ∧
      messages = some content ∧ (picked ≠ [] → content = (entriesText picked).take 1023) := by
  have allocates : (indeterminate : M D Bytes) w = .ok (w.fresh 0, w.takeFresh) := rfl
  have sameTable : w.takeFresh.table = w.table := rfl
  have reads : storeGetEntry key w.takeFresh = .ok (some ⟨.stream stream, expiresAt⟩, w.takeFresh) := by
    rw [storeGetEntry_run, sameTable, found]
  unfold streamEntryXreadToString at run
  rw [bind_of_ok allocates, bind_of_ok reads] at run
  dsimp only at run
  rw [bind_of_ok readsStart] at run
  obtain ⟨⟨start, stop⟩, bounded, bounds, afterBounds⟩ := bind_eq_ok.mp run
  dsimp only at afterBounds
  obtain ⟨headId, headed, heads, afterHead⟩ := bind_eq_ok.mp afterBounds
  obtain ⟨⟨entriesToPrint, total⟩, printed, selects, final⟩ := bind_eq_ok.mp afterHead
  obtain ⟨picked, picks, counts, whole⟩ := selectEntries_picks selects
  rw [Nat.zero_add] at counts
  subst counts
  have picksAll : xreadPicks startText endText stream w = .ok (picked, printed) := by
    unfold xreadPicks
    rw [bind_of_ok allocates, bind_of_ok bounds]
    dsimp only
    rw [bind_of_ok heads, picks]
  dsimp only at final
  split at final
  · rename_i nothing
    obtain ⟨same, rfl⟩ := Prod.mk.inj (Except.ok.inj final)
    obtain ⟨rfl, rfl⟩ := Prod.mk.inj same
    exact ⟨picked, _, picksAll, rfl, rfl, fun some => absurd (List.eq_nil_of_length_eq_zero nothing) some⟩
  · obtain ⟨same, rfl⟩ := Prod.mk.inj (Except.ok.inj final)
    obtain ⟨rfl, rfl⟩ := Prod.mk.inj same
    exact ⟨picked, _, picksAll, rfl, rfl, fun _ => whole [] rfl⟩

/-- A text that the reader counts is that of the entries it picks. -/
theorem streamEntryXreadToString_picks {idStart : M D Bytes} {key : Bytes} {messages : Option Bytes} {count : Nat}
    (reads : ∀ startText u v, idStart u = .ok (startText, v) → v = u ∧ StreamFits w.table key startText)
    (run : streamEntryXreadToString idStart (lit "+") key w = .ok ((messages, count), t)) (positive : 0 < count) :
    ∃ picked, messages = some (entriesText picked) ∧ count = picked.length := by
  have allocates : (indeterminate : M D Bytes) w = .ok (w.fresh 0, w.takeFresh) := rfl
  have afterBlock := run
  unfold streamEntryXreadToString at afterBlock
  rw [bind_of_ok allocates] at afterBlock
  obtain ⟨entry, found, walk, afterWalk⟩ := bind_eq_ok.mp afterBlock
  obtain ⟨isEntry, rfl⟩ := storeGetEntry_ok walk
  have nothing (final : (pure (none, 0) : M D (Option Bytes × Nat)) w.takeFresh = .ok ((messages, count), t)) :
      ∃ picked, messages = some (entriesText picked) ∧ count = picked.length := by
    simp only [pure_run, Except.ok.injEq, Prod.mk.injEq] at final
    omega
  cases entry with
  | none => exact nothing afterWalk
  | some entry =>
    obtain ⟨value, expiresAt⟩ := entry
    cases value with
    | stream stream =>
      obtain ⟨startText, read, readsStart, _⟩ := bind_eq_ok.mp afterWalk
      obtain ⟨rfl, fits⟩ := reads startText _ _ readsStart
      have bound : lookup w.table key = .ok (some ⟨.stream stream, expiresAt⟩) := lookup_of_binding isEntry
      obtain ⟨picked, content, picks, rfl, rfl, whole⟩ := streamEntryXreadToString_ok bound readsStart run
      have short := fits stream expiresAt picked w t isEntry picks
      exact ⟨picked, by rw [whole (List.length_pos_iff.mp positive), List.take_of_length_le (by omega)], rfl⟩
    | _ => exact nothing afterWalk

theorem isResp_wrapXreadResponse (key : Bytes) (picked : List StreamEntry) :
    IsResp (wrapXreadResponse key (entriesText picked) picked.length) := by
  unfold wrapXreadResponse
  split
  · exact IsResp.bulks []
  · -- one pair of a key and its entries
    have pair : IsResp (arrayHeader 2 ++ [bulk key, arrayHeader picked.length ++ entriesText picked].flatten) := by
      refine .array [_, _] fun value member => ?_
      simp only [List.mem_cons, List.not_mem_nil, or_false] at member
      obtain rfl | rfl := member
      · exact .bulk _
      · exact isResp_entries picked
    have one := IsResp.array [_] fun value member => by
      obtain rfl := List.mem_singleton.mp member
      exact pair
    have fronts : arrayHeader ([()].length : Nat) ++ arrayHeader 2 = lit "*1\r\n*2\r\n" := by decide
    rw [← fronts]
    simpa using one

/-- What XREAD sends at once fits the array. -/
def XreadFits (w : World D) (req : RespRequest) : Prop :=
  (w.seesBlock req = false → ∀ key startText, req.args[1]? = some key → req.args[2]? = some startText →
    StreamFits w.table key startText) ∧
  (w.seesBlock req = true → hasDollarSign req = true → ∀ key startText, req.args[3]? = some key →
    (req.args[4]? = some startText ∨ ∃ stream expiresAt last,
      binding w.table key = some ⟨.stream stream, expiresAt⟩ ∧ stream.tail = some last ∧ last.id = startText) →
        StreamFits w.table key startText)

theorem handleBlockDollar_picks {messages : Option Bytes} {count : Nat} {minId key : Bytes}
    (isKey : req.args[3]? = some key)
    (fits : hasDollarSign req = true → ∀ startText, (req.args[4]? = some startText ∨ ∃ stream expiresAt last,
      binding w.table key = some ⟨.stream stream, expiresAt⟩ ∧ stream.tail = some last ∧ last.id = startText) →
        StreamFits w.table key startText)
    (run : handleBlockDollar req w = .ok ((messages, count, minId), t)) (positive : 0 < count) :
    ∃ picked, messages = some (entriesText picked) ∧ count = picked.length := by
  unfold handleBlockDollar at run
  split at run
  · rename_i dollar
    obtain ⟨key', read, reads, afterKey⟩ := bind_eq_ok.mp run
    obtain ⟨isKey', rfl⟩ := arg_ok.mp reads
    obtain rfl : key = key' := Option.some.inj (isKey.symm.trans isKey')
    obtain ⟨last, looked, looks, afterLook⟩ := bind_eq_ok.mp afterKey
    unfold lastStreamEntry at looks
    obtain ⟨entry, found, walk, isLast⟩ := bind_eq_ok.mp looks
    obtain ⟨isEntry, rfl⟩ := storeGetEntry_ok walk
    cases last with
    | none =>
      have same : looked = found := by
        split at isLast <;> exact (Prod.mk.inj (Except.ok.inj isLast)).2.symm
      subst same
      obtain ⟨⟨messages', count'⟩, answered, answers, afterAnswer⟩ := bind_eq_ok.mp afterLook
      obtain ⟨_, _, _, final⟩ := bind_eq_ok.mp afterAnswer
      simp only [pure_run, Except.ok.injEq, Prod.mk.injEq] at final
      obtain ⟨⟨rfl, rfl, _⟩, _⟩ := final
      -- no entry was found, so the read starts at args[4]
      refine streamEntryXreadToString_picks (fun startText u v readsStart => ?_) answers positive
      obtain ⟨isStart, rfl⟩ := arg_ok.mp readsStart
      exact ⟨rfl, fits dollar startText (.inl isStart)⟩
    | some last =>
      obtain ⟨stream, expiresAt, rfl, isTail, rfl⟩ : ∃ stream expiresAt,
          entry = some ⟨.stream stream, expiresAt⟩ ∧ stream.tail = some last ∧ looked = found := by
        split at isLast
        · rename_i stream expiresAt
          simp only [pure_run, Except.ok.injEq, Prod.mk.injEq] at isLast
          exact ⟨stream, expiresAt, rfl, isLast.1, isLast.2.symm⟩
        · simp at isLast
      dsimp only at afterLook
      obtain ⟨⟨messages', count'⟩, answered, answers, final⟩ := bind_eq_ok.mp afterLook
      simp only [pure_run, Except.ok.injEq, Prod.mk.injEq] at final
      obtain ⟨⟨rfl, rfl, _⟩, _⟩ := final
      refine streamEntryXreadToString_picks (fun startText u v readsStart => ?_) answers positive
      simp only [pure_run, Except.ok.injEq, Prod.mk.injEq] at readsStart
      obtain ⟨rfl, rfl⟩ := readsStart
      exact ⟨rfl, fits dollar last.id (.inr ⟨stream, expiresAt, last, isEntry, isTail, rfl⟩)⟩
  · obtain ⟨_, read, _, final⟩ := bind_eq_ok.mp run
    simp only [pure_run, Except.ok.injEq, Prod.mk.injEq] at final
    omega

/-- How an XREAD of one key ends: with a reply that is sent next, with one that was sent, or blocked. -/
inductive XreadEnds (ptr : ClientPtr) (fd : Int) (sees : Bool) (w : World D) (t : World D) : Option Bytes → Prop where
  | replies {response : Bytes} (silent : SilentAt fd w t) (isResp : IsResp response) : XreadEnds ptr fd sees w t (some response)
  | replied (sent : SentOne fd w t) : XreadEnds ptr fd sees w t none
  | blocked (isBlock : sees = true) (waits : BlockedSilently ptr fd w t) : XreadEnds ptr fd sees w t none

theorem handleSingleXread_ends {response : Option Bytes} (found : w.heap ptr = some client)
    (fitsPlain : (blockIndex w.fresh req.args).isSome = false → ∀ key startText, req.args[1]? = some key →
      req.args[2]? = some startText → StreamFits w.table key startText)
    (fitsBlock : (blockIndex w.fresh req.args).isSome = true → hasDollarSign req = true → ∀ key startText,
      req.args[3]? = some key → (req.args[4]? = some startText ∨ ∃ stream expiresAt last,
        binding w.table key = some ⟨.stream stream, expiresAt⟩ ∧ stream.tail = some last ∧ last.id = startText) →
          StreamFits w.table key startText)
    (run : handleSingleXread req ptr w = .ok (response, t)) :
    XreadEnds ptr client.fd (blockIndex w.fresh req.args).isSome w t response := by
  unfold handleSingleXread at run
  obtain ⟨block, looked, looks, afterLook⟩ := bind_eq_ok.mp run
  have same : SameServer w looked := Preserves.run _ _ _ looks
  have keptLook := (obeys_hasBlock (ambient_kept {}) _).1 _ _ looks
  have sameTable : looked.table = w.table := funext fun bucket => keptLook.table bucket id
  obtain ⟨_, looks'⟩ := hasBlock_run req w
  obtain ⟨isIndex, _⟩ := Prod.mk.inj (Except.ok.inj (looks.symm.trans looks'))
  have quiet {u : World D} (later : SilentAt client.fd looked u) : SilentAt client.fd w u :=
    composes_sameOutput.trans (SilentTo.of_sameSent same.sent) later
  have sentLater {u : World D} (sent : SentOne client.fd looked u) : SentOne client.fd w u := by
    obtain ⟨value, sent, isResp⟩ := sent
    exact ⟨value, by rw [sent, SilentTo.of_sameSent same.sent], isResp⟩
  have found' : looked.heap ptr = some client := same.heap ▸ found
  rw [← isIndex] at fitsPlain fitsBlock ⊢
  cases block with
  | some blockIndex =>
    dsimp only at afterLook
    obtain ⟨_, printed, prints, afterPrint⟩ := bind_eq_ok.mp afterLook
    obtain rfl := printArg_same prints
    obtain ⟨_, printed', prints', afterPrint'⟩ := bind_eq_ok.mp afterPrint
    obtain rfl := printArg_same prints'
    obtain ⟨_, ticked, ticks, afterTick⟩ := bind_eq_ok.mp afterPrint'
    have quietTick : SilentAt client.fd printed' ticked := Preserves.run _ _ _ ticks
    have tickTable : ticked.table = printed'.table := by
      obtain ⟨_, rfl⟩ := Prod.mk.inj (Except.ok.inj ticks)
      rfl
    obtain ⟨ms, read, reads, afterMs⟩ := bind_eq_ok.mp afterTick
    obtain ⟨_, rfl⟩ := arg_ok.mp reads
    obtain ⟨timeoutAt, timed, times, afterTime⟩ := bind_eq_ok.mp afterMs
    obtain ⟨clock, rfl⟩ : ∃ clock, timed = { read with clock } := ⟨_, timeoutAfter_ok times⟩
    obtain ⟨_, set, sets, afterSet⟩ := bind_eq_ok.mp afterTime
    have silentSet : SilentAt client.fd { read with clock } set := Preserves.run _ _ _ sets
    have setTable : set.table = read.table := by
      obtain ⟨_, _, rfl⟩ := updateClient_eq_ok.mp sets
      rfl
    obtain ⟨⟨messages, count, minId⟩, asked, asks, afterAsk⟩ := bind_eq_ok.mp afterSet
    have silentAsk : SilentAt client.fd set asked := Preserves.run _ _ _ asks
    obtain ⟨_, noted, notes, afterNote⟩ := bind_eq_ok.mp afterAsk
    have silentNote : SilentAt client.fd printed' noted :=
      composes_sameOutput.trans quietTick
        (composes_sameOutput.trans silentSet (composes_sameOutput.trans silentAsk (Preserves.run _ _ _ notes)))
    obtain ⟨key, read', reads', afterKey⟩ := bind_eq_ok.mp afterNote
    obtain ⟨isKey, rfl⟩ := arg_ok.mp reads'
    split at afterKey
    · rename_i delivers
      simp only [pure_run, Except.ok.injEq, Prod.mk.injEq] at afterKey
      obtain ⟨rfl, rfl⟩ := afterKey
      have fits (dollar : hasDollarSign req = true) := fitsBlock rfl dollar key
      rw [← sameTable, ← tickTable, ← setTable] at fits
      obtain ⟨picked, rfl, rfl⟩ := handleBlockDollar_picks isKey (fun dollar startText => fits dollar startText isKey)
        asks delivers.2
      exact .replies (quiet silentNote) (isResp_wrapXreadResponse key picked)
    · obtain ⟨_, blocked, blocks, final⟩ := bind_eq_ok.mp afterKey
      obtain ⟨client'', found'', rfl⟩ := updateClient_eq_ok.mp blocks
      simp only [pure_run, Except.ok.injEq, Prod.mk.injEq] at final
      obtain ⟨rfl, rfl⟩ := final
      exact .blocked rfl ⟨quiet silentNote, _, Function.update_self _ _ _, rfl⟩
  | none =>
    dsimp only at afterLook
    obtain ⟨_, printed, prints, afterPrint⟩ := bind_eq_ok.mp afterLook
    obtain rfl := printArg_same prints
    rw [bind_of_ok (loadClient_found found')] at afterPrint
    obtain ⟨key, read, reads, afterKey⟩ := bind_eq_ok.mp afterPrint
    obtain ⟨isKey, rfl⟩ := arg_ok.mp reads
    obtain ⟨entry, walked, walk, afterWalk⟩ := bind_eq_ok.mp afterKey
    obtain ⟨isEntry, rfl⟩ := storeGetEntry_ok walk
    -- nothing behind the ID
    have nothing {u : World D} (silent : SilentAt client.fd walked u)
        (sends : (do send client.fd emptyArray; pure none : M D (Option Bytes)) u = .ok (response, t)) :
        XreadEnds ptr client.fd (none : Option Nat).isSome w t response := by
      obtain ⟨_, sent, replies, final⟩ := bind_eq_ok.mp sends
      simp only [pure_run, Except.ok.injEq, Prod.mk.injEq] at final
      obtain ⟨rfl, rfl⟩ := final
      refine .replied (sentLater ⟨emptyArray, ?_, IsResp.bulks []⟩)
      rw [send_run replies, bytesTo_emit, show u.bytesTo client.fd = walked.bytesTo client.fd from silent]
    cases entry with
    | none => exact nothing rfl afterWalk
    | some entry =>
      dsimp only at afterWalk
      obtain ⟨⟨messages, count⟩, answered, answers, afterAnswer⟩ := bind_eq_ok.mp afterWalk
      have silent : SilentAt client.fd walked answered := Preserves.run _ _ _ answers
      dsimp only at afterAnswer
      cases messages with
      | none => exact nothing silent afterAnswer
      | some messages =>
        dsimp only at afterAnswer
        split at afterAnswer
        · exact nothing silent afterAnswer
        · simp only [pure_run, Except.ok.injEq, Prod.mk.injEq] at afterAnswer
          obtain ⟨rfl, rfl⟩ := afterAnswer
          have reads (startText : Bytes) (u v : World D) (readsStart : req.arg 2 u = .ok (startText, v)) :
              v = u ∧ StreamFits walked.table key startText := by
            obtain ⟨isStart, rfl⟩ := arg_ok.mp readsStart
            exact ⟨rfl, sameTable ▸ fitsPlain rfl key startText isKey isStart⟩
          obtain ⟨picked, isPicked, rfl⟩ := streamEntryXreadToString_picks reads answers (by omega)
          rw [Option.some.inj isPicked]
          exact .replies (quiet silent) (isResp_wrapXreadResponse key picked)

theorem handleXread_answers (found : w.heap ptr = some client) (fits : XreadFits w req)
    (run : handleStreamPrint req ptr client.fd .xread w = .ok ((), t)) :
    (w.seesBlock req = true ∧ BlockedSilently ptr client.fd w t) ∨ SentOne client.fd w t := by
  unfold handleStreamPrint at run
  obtain ⟨_, printed, prints, afterPrint⟩ := bind_eq_ok.mp run
  obtain rfl := printArg_same prints
  rw [if_neg (by decide)] at afterPrint
  obtain ⟨response, read, reads, sends⟩ := bind_eq_ok.mp afterPrint
  unfold handleXread at reads
  obtain ⟨keys, scanned, scans, afterScan⟩ := bind_eq_ok.mp reads
  obtain ⟨index, isIndex, rfl, ⟨_, streamsLength, several, rfl⟩ | ⟨_, rfl⟩⟩ := isMultipleKey_run scans
  · -- for several keys the copy loops leave their arrays
    simp only [bind_of_error (handleMultipleXread_faults index several _)] at afterScan
    simp at afterScan
  · obtain ⟨single, answered, answers, afterAnswer⟩ := bind_eq_ok.mp afterScan
    rw [takeFresh_iterate] at answers
    have sees : printed.seesBlock req = (blockIndex (fun n => printed.fresh (n + (index + 1))) req.args).isSome := by
      simp [World.seesBlock, isIndex]
    obtain ⟨fitsPlain, fitsBlock⟩ := fits
    rw [sees] at fitsPlain fitsBlock ⊢
    have ends := handleSingleXread_ends (w := { printed with fresh := fun n => printed.fresh (n + (index + 1)) }) found
      fitsPlain fitsBlock answers
    -- what was sent before the stale memory was read
    have quiet {u : World D} (later : SilentAt client.fd { printed with fresh := fun n => printed.fresh (n + (index + 1)) } u) :
        SilentAt client.fd printed u := later
    cases ends with
    | @replies response silent isResp =>
      simp only [pure_run, Except.ok.injEq, Prod.mk.injEq] at afterAnswer
      obtain ⟨rfl, rfl⟩ := afterAnswer
      refine .inr ⟨response, ?_, isResp⟩
      rw [send_run sends, bytesTo_emit, show answered.bytesTo client.fd = printed.bytesTo client.fd from quiet silent]
    | replied sent =>
      simp only [pure_run, Except.ok.injEq, Prod.mk.injEq] at afterAnswer
      obtain ⟨rfl, rfl⟩ := afterAnswer
      obtain rfl : answered = t := by simpa using sends
      exact .inr sent
    | blocked isBlock waits =>
      simp only [pure_run, Except.ok.injEq, Prod.mk.injEq] at afterAnswer
      obtain ⟨rfl, rfl⟩ := afterAnswer
      obtain rfl : answered = t := by simpa using sends
      exact .inl ⟨isBlock, waits⟩

/-! ## WAIT -/

theorem handleWait_answers (only : w.OnlyFd ptr) (found : w.heap ptr = some client) {slot : ClientSlot}
    (inSlot : w.clients slot = some ptr) (notReplica : client.isReplica = false)
    (run : handleWait req client.fd w = .ok ((), t)) :
    ((∀ wanted ∈ req.args[0]?, (w.acknowledged w.serverConfig.masterReplOffset : Int) < atoi wanted) ∧
      BlockedSilently ptr client.fd w t) ∨ SentOne client.fd w t := by
  cases handleWait_ok run with
  | answered wanted isWanted enough keeps =>
    refine .inr ⟨_, ?_, .integer (w.acknowledged w.serverConfig.masterReplOffset)⟩
    rw [keeps]
    exact bytesTo_emit _ _
  | pending wanted asked isWanted few asks marks =>
    have fewer (wanted' : Bytes) (isWanted' : req.args[0]? = some wanted') :
        (w.acknowledged w.serverConfig.masterReplOffset : Int) < atoi wanted' := by
      obtain rfl : wanted = wanted' := Option.some.inj (isWanted.symm.trans isWanted')
      exact few
    refine .inl ⟨fewer, ?_, ?_⟩
    · -- the replicas that are asked are others
      refine handleWait_silent (fun slot other occupied isReplica same => ?_) fewer run
      obtain ⟨ptr', inSlot', found'⟩ := Option.bind_eq_some_iff.mp occupied
      obtain rfl : ptr' = ptr := only slot ptr' other client inSlot' found' found same
      obtain rfl : client = other := Option.some.inj (found.symm.trans found')
      simp [notReplica] at isReplica
    · obtain ⟨_, nobody⟩ | ⟨ptr', other, timeoutAt, marks⟩ := marks
      · exact absurd rfl (nobody slot client (Option.bind_eq_some_iff.mpr ⟨ptr, inSlot, found⟩))
      · obtain ⟨slot', inSlot'⟩ := marks.slot
        have found' := marks.found
        subst asks
        obtain rfl : ptr' = ptr := only slot' ptr' other client inSlot' found' found marks.sameFd
        rw [marks.keeps]
        exact ⟨_, Function.update_self _ _ _, rfl⟩

/-! ## Channels -/

/-- What confirms a subscription or its end: the word, the channel and the number of channels. -/
theorem isResp_confirmation {front word : Bytes} (isFront : front = arrayHeader 3 ++ bulk word) (channel : Bytes)
    (channelCount : Nat) : IsResp (front ++ bulk channel ++ integerReply channelCount) := by
  have array : IsResp (arrayHeader 3 ++ [bulk word, bulk channel, integerReply channelCount].flatten) := by
    refine .array [_, _, _] fun value member => ?_
    simp only [List.mem_cons, List.not_mem_nil, or_false] at member
    obtain rfl | rfl | rfl := member
    · exact .bulk _
    · exact .bulk _
    · exact .integer _
  rw [isFront]
  simpa using array

theorem isResp_subscribeText (channel : Bytes) (channelCount : Nat) : IsResp (subscribeText channel channelCount) :=
  isResp_confirmation (show _ = arrayHeader 3 ++ bulk (lit "subscribe") by decide) channel channelCount

/-- SUBSCRIBE of one channel, while there is a slot for it. -/
def SubscribesOne (client : Client) (req : RespRequest) : Prop :=
  ∃ channel, req.args = [channel] ∧ client.channelCount < maxChannels ∧
    ∀ count ≤ client.channelCount + 1, (subscribeText channel count).length < 1024

theorem heap_setClient (w : World D) (ptr : ClientPtr) (client : Client) : (w.setClient ptr client).heap ptr = some client :=
  Function.update_self _ _ _

theorem replies_handleSubscribe (found : w.heap ptr = some client) (one : SubscribesOne client req) :
    Replies client.fd (handleSubscribe req ptr) w := by
  obtain ⟨channel, isOne, room, fits⟩ := one
  unfold handleSubscribe
  refine .of_bind (updateClient_found found) rfl ?_
  have stored : (w.setClient ptr { client with isSubscribed := true }).heap ptr =
      some { client with isSubscribed := true } := heap_setClient _ _ _
  intro _ u run
  obtain ⟨msg, printed, prints, afterPrint⟩ := bind_eq_ok.mp run
  rw [isOne, subscribeAll, bind_of_ok (loadClient_found stored), if_neg (Nat.not_le.mpr room)] at prints
  obtain ⟨already, looked, looks, afterLook⟩ := bind_eq_ok.mp prints
  obtain rfl := alreadySubed_run looks
  obtain ⟨_, updated, updates, afterUpdate⟩ := bind_eq_ok.mp afterLook
  -- the client has the channel, and the same descriptor
  obtain ⟨count, isCount, few⟩ : ∃ count, (if already then client.channelCount else client.channelCount + 1) = count ∧
      count ≤ client.channelCount + 1 := ⟨_, rfl, by split <;> omega⟩
  have stays : updated.bytesTo client.fd = w.bytesTo client.fd ∧
      ∀ client', updated.heap ptr = some client' → client'.fd = client.fd := by
    cases already with
    | true =>
      obtain rfl : _ = updated := by simpa [onlyIf] using updates
      exact ⟨rfl, fun client' found' => by rw [stored] at found'; rw [← Option.some.inj found']⟩
    | false =>
      simp only [onlyIf, Bool.not_false, if_true] at updates
      rw [updateClient_found stored] at updates
      obtain rfl : _ = updated := by simpa using updates
      refine ⟨rfl, fun client' found' => ?_⟩
      rw [← Option.some.inj ((heap_setClient _ ptr _).symm.trans found')]
  dsimp only at afterUpdate
  rw [isCount] at afterUpdate
  have short := fits count few
  have print : Buffer.print 1024 {} (subscribeText channel count) updated =
      .ok (⟨subscribeText channel count, 0⟩, updated) := @print_fits D 1024 [] _ (by simpa using short) updated
  rw [bind_of_ok print, if_pos (by simpa using short), subscribeAll] at afterUpdate
  simp only [pure_run, Except.ok.injEq, Prod.mk.injEq] at afterUpdate
  obtain ⟨rfl, rfl⟩ := afterUpdate
  obtain ⟨client', loaded, loads, sends⟩ := bind_eq_ok.mp afterPrint
  obtain ⟨found', rfl⟩ := loadClient_eq_ok.mp loads
  rw [stays.2 client' found', Nat.zero_add] at sends
  obtain ⟨value, sent, isResp⟩ := replies_sendPrefix (isResp_subscribeText channel count) short _ _ sends
  exact ⟨value, sent.trans (congrArg (· ++ value) stays.1), isResp⟩

/-- The confirmation of UNSUBSCRIBE. -/
def unsubscribeText (channel : Bytes) (channelCount : Nat) : Bytes :=
  lit "*3\r\n$11\r\nunsubscribe\r\n" ++ bulk channel ++ integerReply channelCount

theorem isResp_unsubscribeText (channel : Bytes) (channelCount : Nat) : IsResp (unsubscribeText channel channelCount) :=
  isResp_confirmation (show _ = arrayHeader 3 ++ bulk (lit "unsubscribe") by decide) channel channelCount

/-- What UNSUBSCRIBE sends fits the array. -/
def UnsubscribeFits (client : Client) (req : RespRequest) : Prop :=
  ∀ channel ∈ req.args[0]?, ∀ count ≤ client.channelCount, (unsubscribeText channel count).length < 1024

/-- UNSUBSCRIBE takes channels away only. -/
theorem unsubscribeFrom_shrinks {channel : Bytes} {fuel i : Nat} (found : w.heap ptr = some client)
    (run : unsubscribeFrom ptr channel fuel i w = .ok ((), t)) :
    t.bytesTo fd = w.bytesTo fd ∧ ∃ client', t.heap ptr = some client' ∧ client'.fd = client.fd ∧
      client'.channelCount ≤ client.channelCount := by
  induction fuel generalizing i w client with
  | zero =>
    obtain rfl : w = t := by simpa [unsubscribeFrom] using run
    exact ⟨rfl, client, found, rfl, le_rfl⟩
  | succ fuel inductionHypothesis =>
    unfold unsubscribeFrom at run
    rw [bind_of_ok (loadClient_found found)] at run
    split at run
    · cases slotted : client.channelSubed[i]? with
      | none => simp [slotted, fault] at run
      | some slot =>
        cases slot with
        | none => simp [slotted, fault] at run
        | some subed =>
          simp only [slotted] at run
          by_cases isSame : subed = channel
          · simp only [onlyIf, isSame, if_true] at run
            rw [bind_of_ok (updateClient_found found)] at run
            obtain ⟨sent, client', found', sameFd, fewer⟩ := inductionHypothesis (Function.update_self _ _ _) run
            exact ⟨sent, client', found', sameFd, fewer.trans (Nat.sub_le _ _)⟩
          · simp only [onlyIf, isSame, if_false, pure_bind] at run
            exact inductionHypothesis found run
    · obtain rfl : w = t := by simpa using run
      exact ⟨rfl, client, found, rfl, le_rfl⟩

theorem replies_handleUnsubscribe (enough : 1 ≤ req.argc) (found : w.heap ptr = some client)
    (fits : UnsubscribeFits client req) : Replies client.fd (handleUnsubscribe req ptr) w := by
  unfold handleUnsubscribe
  rw [if_neg (by omega)]
  refine replies_arg fun channel isChannel => ?_
  intro _ u run
  obtain ⟨_, removed, removes, replies⟩ := bind_eq_ok.mp run
  obtain ⟨same, client', found', sameFd, fewer⟩ := unsubscribeFrom_shrinks found removes
  rw [bind_of_ok (loadClient_found found'), sameFd] at replies
  obtain ⟨value, sent, isResp⟩ := replies_sendText (isResp_unsubscribeText channel client'.channelCount)
    (fits channel isChannel _ fewer) _ _ replies
  exact ⟨value, sent.trans (congrArg (· ++ value) same), isResp⟩

/-! ### PUBLISH -/

/-- The messages that a client in the slot is sent. -/
def World.deliveredAt (w : World D) (channel : Bytes) (slot : ClientSlot) : Nat :=
  ((w.occupant slot).map fun client => (client.channelSubed.take client.channelCount).count (some channel)).getD 0

theorem publishTo_ok {other : Int} {channel message : Bytes} {slots : List (Option Bytes)} {delivered : Nat}
    (run : publishTo other channel message slots w = .ok (delivered, t)) :
    delivered = slots.count (some channel) ∧ t.clients = w.clients ∧ t.heap = w.heap ∧
      (other ≠ fd ∨ some channel ∉ slots → t.bytesTo fd = w.bytesTo fd) := by
  induction slots generalizing w delivered with
  | nil =>
    obtain ⟨rfl, rfl⟩ : 0 = delivered ∧ w = t := by simpa [publishTo] using run
    exact ⟨rfl, rfl, rfl, fun _ => rfl⟩
  | cons slot slots inductionHypothesis =>
    cases slot with
    | none => simp [publishTo, fault] at run
    | some subed =>
      unfold publishTo at run
      split at run
      · rename_i isSame
        subst isSame
        rw [sendText, bind_of_ok (show send other _ w = .ok ((), _) from rfl)] at run
        obtain ⟨others, sent, sends, final⟩ := bind_eq_ok.mp run
        obtain ⟨rfl, rfl⟩ : others + 1 = delivered ∧ sent = t := by simpa using final
        obtain ⟨rfl, sameClients, sameHeap, silent⟩ := inductionHypothesis sends
        refine ⟨by simp, sameClients, sameHeap, fun elsewhere => ?_⟩
        have another : other ≠ fd := elsewhere.resolve_right (by simp)
        rw [silent (.inl another)]
        exact SilentTo.emit w _ another
      · rename_i isOther
        obtain ⟨rfl, sameClients, sameHeap, silent⟩ := inductionHypothesis run
        refine ⟨by simp [isOther], sameClients, sameHeap, fun elsewhere => silent (elsewhere.imp_right fun absent => ?_)⟩
        exact fun member => absent (List.mem_cons_of_mem _ member)

theorem publishAll_ok {channel message : Bytes} {slots : List ClientSlot} {before after : Nat}
    (elsewhere : ∀ slot client, w.occupant slot = some client →
      client.fd ≠ fd ∨ some channel ∉ client.channelSubed.take client.channelCount)
    (run : publishAll channel message slots before w = .ok (after, t)) :
    after = before + (slots.map (w.deliveredAt channel)).sum ∧ t.bytesTo fd = w.bytesTo fd := by
  induction slots generalizing w before with
  | nil =>
    obtain ⟨rfl, rfl⟩ : before = after ∧ w = t := by simpa [publishAll] using run
    exact ⟨by simp, rfl⟩
  | cons slot slots inductionHypothesis =>
    unfold publishAll at run
    obtain ⟨occupant, looked, look, rest⟩ := bind_eq_ok.mp run
    obtain ⟨rfl, occupied⟩ := occupant_of_clientAt look
    cases occupant with
    | none =>
      obtain ⟨rfl, silent⟩ := inductionHypothesis elsewhere rest
      exact ⟨by simp [World.deliveredAt, occupied], silent⟩
    | some occupant =>
      obtain ⟨ptr, client⟩ := occupant
      obtain ⟨delivered, sent, sends, later⟩ := bind_eq_ok.mp rest
      obtain ⟨rfl, sameClients, sameHeap, silent⟩ := publishTo_ok sends
      have sameOccupant (slot : ClientSlot) : sent.occupant slot = looked.occupant slot := by
        rw [World.occupant, World.occupant, sameClients, sameHeap]
      have sameCount : sent.deliveredAt channel = looked.deliveredAt channel := funext fun slot => by
        rw [World.deliveredAt, World.deliveredAt, sameOccupant]
      obtain ⟨rfl, silent'⟩ := inductionHypothesis (fun slot client => sameOccupant slot ▸ elsewhere slot client) later
      refine ⟨?_, silent'.trans (silent (elsewhere slot client occupied))⟩
      rw [sameCount, List.map_cons, List.sum_cons]
      simp [World.deliveredAt, occupied, Nat.add_assoc]

/-- The sender does not listen to the channel itself, and the messages are as many as a C `int` counts. -/
def PublishesElsewhere (w : World D) (client : Client) (req : RespRequest) : Prop :=
  ∀ channel ∈ req.args[0]?, some channel ∉ client.channelSubed.take client.channelCount ∧
    (clientSlots.map (w.deliveredAt channel)).sum < 2 ^ 31

theorem replies_handlePublish (enough : 2 ≤ req.argc) (only : w.OnlyFd ptr) (found : w.heap ptr = some client)
    (elsewhere : PublishesElsewhere w client req) : Replies client.fd (handlePublish req client.fd) w := by
  unfold handlePublish
  rw [if_neg (by omega)]
  refine replies_arg fun channel isChannel => replies_arg fun message _ => ?_
  obtain ⟨absent, counted⟩ := elsewhere channel isChannel
  have others (slot : ClientSlot) (other : Client) (occupied : w.occupant slot = some other) :
      other.fd ≠ client.fd ∨ some channel ∉ other.channelSubed.take other.channelCount := by
    by_cases same : other.fd = client.fd
    · obtain ⟨ptr', inSlot, found'⟩ := Option.bind_eq_some_iff.mp occupied
      obtain rfl : ptr' = ptr := only slot ptr' other client inSlot found' found same
      obtain rfl : client = other := Option.some.inj (found.symm.trans found')
      exact .inr absent
    · exact .inl same
  intro _ u run
  obtain ⟨clientsSubed, published, publishes, replies⟩ := bind_eq_ok.mp run
  obtain ⟨counts, silent⟩ := publishAll_ok others publishes
  rw [counts, Nat.zero_add] at replies
  obtain ⟨value, sent, isResp⟩ := replies_count (show 13 < 64 by decide) counted _ _ replies
  exact ⟨value, sent.trans (congrArg (· ++ value) silent), isResp⟩

end RedisClone
