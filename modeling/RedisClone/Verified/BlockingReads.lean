import RedisClone.Verified.StreamDeliveries

/-! # XREAD with BLOCK

XREAD looks for its options in all of its words.  Where no word has a `$` in it, `handle_block_dollar` never looks at
the stream, and where one has, it reads from behind the last entry, so that the client is blocked whether there is
something to read or not: `blocking_xread_iff` says where that is right.
-/

namespace RedisClone

open Exec CString

variable {D : Type} {w t : World D} {req : RespRequest} {ptr : ClientPtr} {client : Client} {key id : Bytes}

/-! ## The words of a request -/

/-- `XREAD BLOCK ms STREAMS key id` -/
structure BlockingXread (req : RespRequest) (ms key id : Bytes) : Prop where
  words : ∃ block streams, req.args = [block, ms, streams, key, id] ∧ upper block = lit "BLOCK" ∧
    upper streams = lit "STREAMS"

section Words

variable {ms : Bytes} {index : Nat}

theorem strstr_of_isPrefix {needle s : Bytes} (front : needle <+: s) : strstr s needle = true :=
  List.any_eq_true.mpr ⟨s, (List.mem_tails _ _).mpr List.suffix_rfl, List.isPrefixOf_iff_prefix.mpr front⟩

theorem upperText_of_upper {word front : Bytes} (isUpper : upper word = front) (block : Bytes) :
    upperText block word = front ++ untilNul (block.drop word.length) := by
  rw [upperText, isUpper]

/-- A first word `BLOCK` is taken for the option, whatever stands behind its copy. -/
theorem hasBlock_first {block : Bytes} {rest : List Bytes} (isArgs : req.args = block :: rest)
    (isBlock : upper block = lit "BLOCK") (several : rest ≠ []) (w : World D) :
    hasBlock req w = .ok (some 0, w.takeFresh) := by
  have contains : strstr (upperText (w.fresh 0) block) (lit "BLOCK") = true := by
    rw [upperText_of_upper isBlock]
    exact strstr_of_isPrefix (List.prefix_append _ _)
  unfold hasBlock
  rw [isArgs, hasBlockFrom, bind_of_ok (toUpperCopy_run block w), if_pos ⟨contains, several⟩]
  rfl

theorem BlockingXread.argc (request : BlockingXread req ms key id) : req.argc = 5 := by
  obtain ⟨block, streams, isArgs, _⟩ := request.words
  have supplied := req.supplied
  rw [isArgs] at supplied
  simp only [List.length_cons, List.length_nil] at supplied
  omega

/-- The copy of `BLOCK` does not read `STREAMS`. -/
theorem BlockingXread.index_pos (request : BlockingXread req ms key id) {fresh : Nat → Bytes}
    (isIndex : streamsIndex fresh req.args = some index) : 1 ≤ index := by
  obtain ⟨block, streams, isArgs, isBlock, _⟩ := request.words
  have other : upperText (fresh 0) block ≠ lit "STREAMS" := by
    rw [upperText_of_upper isBlock]
    intro same
    have heads := congrArg List.head? same
    rw [show lit "BLOCK" = 66 :: lit "LOCK" by decide, show lit "STREAMS" = 83 :: lit "TREAMS" by decide,
      List.cons_append, List.head?_cons, List.head?_cons] at heads
    exact absurd (Option.some.inj heads) (by decide)
  rw [isArgs, streamsIndex, if_neg other, Option.map_eq_some_iff] at isIndex
  obtain ⟨later, _, rfl⟩ := isIndex
  omega

end Words

/-! ## One key -/

/-- What is sent for the answer of `handle_single_xread`. -/
def sendAnswer (clientFd : Int) : Option Bytes → M D Unit
  | none => pure ()
  | some response => send clientFd response

/-- The state behind a search that took this many copies. -/
def World.skip (w : World D) (n : Nat) : World D := { w with fresh := fun k => w.fresh (k + n) }

theorem World.skip_takeFresh (w : World D) (n : Nat) : (w.skip n).takeFresh = w.skip (n + 1) := by
  have later : (fun k => w.fresh (k + 1 + n)) = fun k => w.fresh (k + (n + 1)) := by
    funext k
    rw [Nat.add_assoc, Nat.add_comm 1 n]
  show { w with fresh := fun k => w.fresh (k + 1 + n) } = { w with fresh := fun k => w.fresh (k + (n + 1)) }
  rw [later]

theorem printArg_supplied {i : Nat} {word : Bytes} (isArg : req.args[i]? = some word) (w : World D) :
    req.printArg i w = .ok ((), w) := by
  unfold RespRequest.printArg
  rw [isArg]
  rfl

theorem printArg_ends (i : Nat) (w : World D) : req.printArg i w = .ok ((), w) ∨ req.printArg i w = .error .missingArg := by
  unfold RespRequest.printArg
  cases req.args[i]? with
  | some word => exact .inl rfl
  | none =>
    cases req.unused with
    | null => exact .inl rfl
    | indeterminate => exact .inr rfl

theorem exists_first {index : Nat} {fresh : Nat → Bytes} (isIndex : streamsIndex fresh req.args = some index) :
    ∃ word, req.args[0]? = some word := by
  cases isArgs : req.args with
  | nil => simp [isArgs, streamsIndex] at isIndex
  | cons word rest => exact ⟨word, rfl⟩

theorem not_manyKeys {index : Nat} (few : req.argc - index - 1 < 4) : ¬ ManyKeys req index := fun many => by
  have several := many.2
  omega

/-- Without pairs of several keys XREAD is that of one key. -/
theorem handleXread_single {index : Nat} (isIndex : streamsIndex w.fresh req.args = some index)
    (single : ¬ ManyKeys req index) (clientFd : Int) :
    handleStreamPrint req ptr clientFd .xread w =
      (handleSingleXread req ptr >>= sendAnswer clientFd) (w.skip (index + 1)) := by
  have finds : findStreams 0 req.args w = .ok (index, w.skip (index + 1)) := by
    rw [findStreams_run, isIndex]
    dsimp only
    rw [takeFresh_iterate, Nat.zero_add]
    rfl
  have keys : isMultipleKey req w = .ok (none, w.skip (index + 1)) := by
    unfold isMultipleKey
    rw [bind_of_ok finds]
    exact congrFun (if_neg single) _
  obtain ⟨first, isFirst⟩ := exists_first isIndex
  unfold handleStreamPrint
  rw [bind_of_ok (printArg_supplied isFirst w), if_neg (by decide)]
  unfold handleXread
  cases answers : handleSingleXread req ptr (w.skip (index + 1)) with
  | error e =>
    rw [bind_of_error answers]
    refine bind_of_error ?_
    rw [bind_of_ok keys]
    exact bind_of_error answers
  | ok result =>
    obtain ⟨response, answered⟩ := result
    rw [bind_of_ok answers, bind_run, bind_of_ok keys]
    dsimp only
    rw [bind_of_ok answers]
    cases response <;> rfl

/-- A request in which no word reads `STREAMS` is read past its end. -/
theorem handleXread_unread (notFound : streamsIndex w.fresh req.args = none) (clientFd : Int) :
    handleStreamPrint req ptr clientFd .xread w = .error .missingArg := by
  have finds : findStreams 0 req.args w = .error .missingArg := by rw [findStreams_run, notFound]
  have keys : isMultipleKey req w = .error .missingArg := bind_of_error finds
  have reads : handleXread req ptr w = .error .missingArg := bind_of_error keys
  unfold handleStreamPrint
  obtain prints | prints := printArg_ends 0 w
  · rw [bind_of_ok prints, if_neg (by decide), bind_of_error reads]
  · exact bind_of_error prints

/-! ## The client of a blocking read -/

/-- The deadline of XREAD with BLOCK, behind one reading of the clock that is printed, is a `long long`. -/
def World.DeadlineFits (w : World D) (ms : Int) : Prop := ms = 0 ∨ -2 ^ 63 ≤ w.clock 1 + ms ∧ w.clock 1 + ms < 2 ^ 63

/-- The state in which XREAD with BLOCK looks for entries. -/
def World.asking (w : World D) (ptr : ClientPtr) (client : Client) (ms : Int) (index : Nat) : World D :=
  if ms = 0 then (w.skip (index + 2)).tick.setClient ptr { client with timeoutAt := 0 }
  else (w.skip (index + 2)).tick.tick.setClient ptr { client with timeoutAt := w.clock 1 + ms }

/-- `handle_single_xread` behind its BLOCK option. -/
def askAndWait (req : RespRequest) (ptr : ClientPtr) : M D (Option Bytes) := do
  let (messages, count, minId) ← handleBlockDollar req
  updateClient ptr fun client => { client with minId := some minId }
  let key ← req.arg 3
  if messages.getD [] ≠ [] ∧ 0 < count then
    pure (some (wrapXreadResponse key (messages.getD []) count))
  else do
    updateClient ptr fun client => { client with isBlocked := true, waitingForKey := some key }
    pure none

/-- What follows on `handle_block_dollar`: the reply is sent, or the client is blocked. -/
def finishBlocking (ptr : ClientPtr) (clientFd : Int) (key : Bytes) (asked : Option Bytes × Nat × Bytes) : M D Unit := do
  updateClient ptr fun client => { client with minId := some asked.2.2 }
  if asked.1.getD [] ≠ [] ∧ 0 < asked.2.1 then
    send clientFd (wrapXreadResponse key (asked.1.getD []) asked.2.1)
  else updateClient ptr fun client => { client with isBlocked := true, waitingForKey := some key }

section Blocking

variable {ms : Bytes} {index : Nat}

theorem timed_run {ms : Int} (fits : w.DeadlineFits ms) (index : Nat) (found : w.heap ptr = some client) :
    (timeoutAfter ms >>= fun timeoutAt => updateClient ptr fun client => { client with timeoutAt := timeoutAt })
      (w.skip (index + 2)).tick = .ok ((), w.asking ptr client ms index) := by
  unfold timeoutAfter World.asking
  by_cases forever : ms = 0
  · rw [if_pos forever, if_pos forever]
    exact @updateClient_found D ptr _ client (w.skip (index + 2)).tick found
  · have inside : ¬ (w.clock 1 + ms < -2 ^ 63 ∨ 2 ^ 63 ≤ w.clock 1 + ms) := by
      have range := fits.resolve_left forever
      omega
    have reads : (getCurrentTimeMs : M D Int) (w.skip (index + 2)).tick = .ok (w.clock 1, (w.skip (index + 2)).tick.tick) := rfl
    rw [if_neg forever, if_neg forever, bind_assoc, bind_of_ok reads, if_neg inside]
    exact @updateClient_found D ptr _ client (w.skip (index + 2)).tick.tick found

theorem timeoutAfter_late {ms : Int} (late : ¬ w.DeadlineFits ms) (index : Nat) :
    timeoutAfter ms (w.skip (index + 2)).tick = .error .overflow := by
  have notZero : ms ≠ 0 := fun zero => late (.inl zero)
  have outside : w.clock 1 + ms < -2 ^ 63 ∨ 2 ^ 63 ≤ w.clock 1 + ms := by
    by_contra inside
    exact late (.inr (by omega))
  have reads : (getCurrentTimeMs : M D Int) (w.skip (index + 2)).tick = .ok (w.clock 1, (w.skip (index + 2)).tick.tick) := rfl
  unfold timeoutAfter
  rw [if_neg notZero, bind_of_ok reads, if_pos outside]
  rfl

/-- A deadline that is out of range is computed all the same. -/
theorem blockingXread_late (request : BlockingXread req ms key id) (isIndex : streamsIndex w.fresh req.args = some index)
    (late : ¬ w.DeadlineFits (atoi ms)) (clientFd : Int) :
    handleStreamPrint req ptr clientFd .xread w = .error .overflow := by
  have few : req.argc - index - 1 < 4 := by
    have behind := request.index_pos isIndex
    rw [request.argc]
    omega
  obtain ⟨block, streams, isArgs, isBlock, _⟩ := request.words
  have isMs : req.args[1]? = some ms := by rw [isArgs]; rfl
  have isKey : req.args[3]? = some key := by rw [isArgs]; rfl
  have isId : req.args[4]? = some id := by rw [isArgs]; rfl
  have looks : hasBlock req (w.skip (index + 1)) = .ok (some 0, w.skip (index + 2)) := by
    rw [hasBlock_first isArgs isBlock (by simp), World.skip_takeFresh]
  have prints : (getCurrentTimeMs : M D Int) (w.skip (index + 2)) = .ok (w.clock 0, (w.skip (index + 2)).tick) := rfl
  rw [handleXread_single isIndex (not_manyKeys few)]
  refine bind_of_error ?_
  unfold handleSingleXread
  rw [bind_of_ok looks]
  dsimp only
  rw [bind_of_ok (printArg_supplied isKey _), bind_of_ok (printArg_supplied isId _), bind_of_ok prints,
    bind_of_ok (arg_ok.mpr ⟨isMs, rfl⟩)]
  exact bind_of_error (timeoutAfter_late late index)

theorem blockingXread_eq (request : BlockingXread req ms key id) (isIndex : streamsIndex w.fresh req.args = some index)
    (fits : w.DeadlineFits (atoi ms)) (found : w.heap ptr = some client) (clientFd : Int) :
    handleStreamPrint req ptr clientFd .xread w =
      (handleBlockDollar req >>= finishBlocking ptr clientFd key) (w.asking ptr client (atoi ms) index) := by
  -- one key and one ID behind STREAMS, so this is the reader of a single key
  have few : req.argc - index - 1 < 4 := by
    have behind := request.index_pos isIndex
    rw [request.argc]
    omega
  rw [handleXread_single isIndex (not_manyKeys few)]
  obtain ⟨block, streams, isArgs, isBlock, _⟩ := request.words
  have isMs : req.args[1]? = some ms := by rw [isArgs]; rfl
  have isKey : req.args[3]? = some key := by rw [isArgs]; rfl
  have isId : req.args[4]? = some id := by rw [isArgs]; rfl
  have looks : hasBlock req (w.skip (index + 1)) = .ok (some 0, w.skip (index + 2)) := by
    rw [hasBlock_first isArgs isBlock (by simp), World.skip_takeFresh]
  have prints : (getCurrentTimeMs : M D Int) (w.skip (index + 2)) = .ok (w.clock 0, (w.skip (index + 2)).tick) := rfl
  obtain ⟨timeoutAt, timed, isTime, sets⟩ := bind_eq_ok.mp (timed_run fits index found)
  have single :
      handleSingleXread req ptr (w.skip (index + 1)) = askAndWait req ptr (w.asking ptr client (atoi ms) index) := by
    unfold handleSingleXread
    rw [bind_of_ok looks]
    dsimp only
    rw [bind_of_ok (printArg_supplied isKey _), bind_of_ok (printArg_supplied isId _), bind_of_ok prints,
      bind_of_ok (arg_ok.mpr ⟨isMs, rfl⟩), bind_of_ok isTime, bind_of_ok sets]
    rfl
  unfold askAndWait at single
  -- both sides run the same calls from here, so they are split together
  cases asks : handleBlockDollar req (w.asking ptr client (atoi ms) index) with
  | error e => rw [bind_of_error asks, bind_of_error (single.trans (bind_of_error asks))]
  | ok result =>
    obtain ⟨⟨messages, count, minId⟩, asked⟩ := result
    rw [bind_of_ok asks] at single ⊢
    dsimp only at single
    unfold finishBlocking
    cases sets' : updateClient ptr (fun client => { client with minId := some minId }) asked with
    | error e => rw [bind_of_error sets', bind_of_error (single.trans (bind_of_error sets'))]
    | ok result =>
      obtain ⟨_, noted⟩ := result
      rw [bind_of_ok sets', bind_of_ok (arg_ok.mpr ⟨isKey, rfl⟩)] at single
      rw [bind_of_ok sets']
      dsimp only
      by_cases delivers : messages.getD [] ≠ [] ∧ 0 < count
      · rw [if_pos delivers] at single ⊢
        rw [bind_of_ok single]
        rfl
      · rw [if_neg delivers] at single ⊢
        cases blocks : updateClient ptr (fun client => { client with isBlocked := true, waitingForKey := some key })
            noted with
        | error e => rw [bind_of_error (single.trans (bind_of_error blocks))]
        | ok result =>
          rw [bind_of_ok blocks] at single
          rw [bind_of_ok single]
          rfl

end Blocking

/-! ## A text that was begun -/

/-- Something stands in the block. -/
structure Buffer.Begun (buffer : Buffer) : Prop where
  content : buffer.content ≠ []
  offset : 0 < buffer.offset

section Begun

variable {size : Nat} {buffer result : Buffer}

theorem append_begun {text : Bytes} (begun : buffer.Begun) (run : Buffer.append size buffer text w = .ok (result, t)) :
    result.Begun := by
  obtain ⟨printed, _, prints, adds⟩ := bind_eq_ok.mp run
  obtain ⟨rfl, rfl⟩ := Prod.mk.inj (Except.ok.inj adds)
  unfold Buffer.print at prints
  split at prints
  · simp [fault] at prints
  · obtain ⟨rfl, rfl⟩ := Prod.mk.inj (Except.ok.inj prints)
    refine ⟨fun empty => ?_, Nat.add_pos_left begun.offset _⟩
    obtain ⟨front, _⟩ := List.append_eq_nil_iff.mp empty
    obtain atStart | empty := List.take_eq_nil_iff.mp front
    · exact absurd atStart (Nat.ne_of_gt begun.offset)
    · exact begun.content empty

theorem appendAll_begun {texts : List Bytes} (begun : buffer.Begun)
    (run : Buffer.appendAll size texts buffer w = .ok (result, t)) : result.Begun := by
  induction texts generalizing buffer w with
  | nil =>
    obtain ⟨rfl, rfl⟩ := Prod.mk.inj (Except.ok.inj run)
    exact begun
  | cons text texts inductionHypothesis =>
    obtain ⟨appended, _, first, rest⟩ := bind_eq_ok.mp run
    exact inductionHypothesis (append_begun begun first) rest

/-- The first text of an entry begins the block. -/
theorem append_begins {text : Bytes} (isText : text ≠ []) (room : 1 < size)
    (run : Buffer.append size {} text w = .ok (result, t)) : result.Begun := by
  obtain ⟨printed, _, prints, adds⟩ := bind_eq_ok.mp run
  obtain ⟨rfl, rfl⟩ := Prod.mk.inj (Except.ok.inj adds)
  obtain ⟨rfl, rfl⟩ := Prod.mk.inj (Except.ok.inj prints)
  refine ⟨fun empty => ?_, Nat.add_pos_right _ (List.length_pos_of_ne_nil isText)⟩
  obtain few | nothing := List.take_eq_nil_iff.mp empty
  · simp only at few
    omega
  · exact isText nothing

theorem selectEntries_begun {low high : Int × Int} {isXrange : Bool} {remaining count total : Nat}
    {entries : List StreamEntry} (room : 1 < size) (begun : buffer = {} ∧ count = 0 ∨ buffer.Begun)
    (run : selectEntries size low high isXrange remaining entries buffer count w = .ok ((result, total), t)) :
    total = 0 ∨ result.Begun := by
  induction remaining generalizing entries buffer count w with
  | zero =>
    obtain ⟨same, rfl⟩ := Prod.mk.inj (Except.ok.inj run)
    obtain ⟨rfl, rfl⟩ := Prod.mk.inj same
    exact begun.imp_left fun nothing => nothing.2
  | succ remaining inductionHypothesis =>
    cases entries with
    | nil => simp [selectEntries, fault] at run
    | cons entry entries =>
      unfold selectEntries at run
      obtain ⟨current, scanned, scans, afterScan⟩ := bind_eq_ok.mp run
      split at afterScan
      · obtain ⟨appended, u, prints, rest⟩ := bind_eq_ok.mp afterScan
        refine inductionHypothesis (.inr ?_) rest
        obtain ⟨rfl, _⟩ | begun := begun
        · obtain ⟨first, v, begins, others⟩ := bind_eq_ok.mp prints
          have isText : lit "*2\r\n" ++ bulk entry.id ++ arrayHeader entry.fields.length ≠ [] := by
            simp [lit]
          exact appendAll_begun (append_begins isText room begins) others
        · exact appendAll_begun begun prints
      · exact inductionHypothesis begun afterScan

/-- A text that the reader counts entries in is not empty. -/
theorem streamEntryXreadToString_begun {key startText endText content : Bytes} {stream : Stream} {expiresAt : Int}
    {count : Nat} (found : lookup w.table key = .ok (some ⟨.stream stream, expiresAt⟩))
    (run : streamEntryXreadToString (pure startText) endText key w = .ok ((some content, count), t))
    (positive : 0 < count) : content ≠ [] := by
  have allocates : (indeterminate : M D Bytes) w = .ok (w.fresh 0, w.takeFresh) := rfl
  have sameTable : w.takeFresh.table = w.table := rfl
  have reads : storeGetEntry key w.takeFresh = .ok (some ⟨.stream stream, expiresAt⟩, w.takeFresh) := by
    rw [storeGetEntry_run, sameTable, found]
  unfold streamEntryXreadToString at run
  rw [bind_of_ok allocates, bind_of_ok reads] at run
  simp only [pure_bind] at run
  obtain ⟨bounds, bounded, _, afterBounds⟩ := bind_eq_ok.mp run
  obtain ⟨headId, headed, _, afterHead⟩ := bind_eq_ok.mp afterBounds
  obtain ⟨⟨entriesToPrint, total⟩, printed, selects, final⟩ := bind_eq_ok.mp afterHead
  dsimp only at final
  obtain nothing | begun := selectEntries_begun (by decide) (.inl ⟨rfl, rfl⟩) selects
  · rw [if_pos nothing] at final
    obtain ⟨same, _⟩ := Prod.mk.inj (Except.ok.inj final)
    obtain ⟨_, rfl⟩ := Prod.mk.inj same
    omega
  · split at final
    · obtain ⟨same, _⟩ := Prod.mk.inj (Except.ok.inj final)
      obtain ⟨_, rfl⟩ := Prod.mk.inj same
      omega
    · obtain ⟨same, _⟩ := Prod.mk.inj (Except.ok.inj final)
      obtain ⟨isContent, _⟩ := Prod.mk.inj same
      rw [← Option.some.inj isContent]
      exact begun.content

end Begun

/-! ## Stale numbers -/

/-- A number that `sscanf` assigned, or what the memory of its variable holds. -/
def staleNumber (memory : Nat → Bytes) : Option Int → Int × (Nat → Bytes)
  | some number => (number, memory)
  | none => (int64Of (memory 0), fun n => memory (n + 1))

/-- The two numbers of an ID, and the memory of the variables behind them. -/
def staleNumbers (memory : Nat → Bytes) (id : Bytes) : (Int × Int) × (Nat → Bytes) :=
  let ms := staleNumber memory (scanPair id).1
  let seq := staleNumber ms.2 (scanPair id).2
  ((ms.1, seq.1), seq.2)

/-- The entries with numbers behind `start` and at most `stop`. -/
def staleBetween (start stop : Int × Int) : (Nat → Bytes) → List StreamEntry → List StreamEntry
  | _, [] => []
  | memory, entry :: entries =>
    let current := staleNumbers memory entry.id
    if IdBefore start current.1 ∧ IdAtMost current.1 stop then entry :: staleBetween start stop current.2 entries
    else staleBetween start stop current.2 entries

/-- The entries between two readings of the ID of the last one. -/
def misread (memory : Nat → Bytes) (lastId : Bytes) (entries : List StreamEntry) : List StreamEntry :=
  let start := staleNumbers memory lastId
  let stop := staleNumbers start.2 lastId
  staleBetween start.1 stop.1 stop.2 entries

section Stale

variable {memory : Nat → Bytes} {pair : Int × Int}

theorem scanned_stale (number : Option Int) (w : World D) :
    scanned number w = .ok ((staleNumber w.fresh number).1, { w with fresh := (staleNumber w.fresh number).2 }) := by
  cases number <;> rfl

theorem scanId_stale (id : Bytes) (w : World D) :
    scanId id w = .ok ((staleNumbers w.fresh id).1, { w with fresh := (staleNumbers w.fresh id).2 }) := by
  unfold scanId
  rw [bind_of_ok (scanned_stale _ w), bind_of_ok (scanned_stale _ _)]
  rfl

theorem pickEntries_stale (start stop : Int × Int) (entries : List StreamEntry) (w : World D) :
    ∃ t, pickEntries start stop true entries.length entries w = .ok (staleBetween start stop w.fresh entries, t) := by
  induction entries generalizing w with
  | nil => exact ⟨w, rfl⟩
  | cons entry entries inductionHypothesis =>
    obtain ⟨t, picks⟩ := inductionHypothesis { w with fresh := (staleNumbers w.fresh entry.id).2 }
    refine ⟨t, ?_⟩
    rw [List.length_cons, pickEntries, bind_of_ok (scanId_stale entry.id w), bind_of_ok picks, staleBetween]
    by_cases between : IdBefore start (staleNumbers w.fresh entry.id).1 ∧ IdAtMost (staleNumbers w.fresh entry.id).1 stop
    · rw [if_pos (addToString_xread_iff.mpr between), if_pos between]
      rfl
    · rw [if_neg (fun added => between (addToString_xread_iff.mp added)), if_neg between]
      rfl

/-- No number lies behind another one and not behind it. -/
theorem staleBetween_self (pair : Int × Int) (memory : Nat → Bytes) (entries : List StreamEntry) :
    staleBetween pair pair memory entries = [] := by
  induction entries generalizing memory with
  | nil => rfl
  | cons entry entries inductionHypothesis =>
    rw [staleBetween, if_neg, inductionHypothesis]
    rintro ⟨after, atMost⟩
    unfold IdBefore at after
    unfold IdAtMost at atMost
    omega

/-- An ID that can be read leaves nothing between its two readings. -/
theorem misread_of_pair {lastId : Bytes} (isPair : idPair lastId = some pair) (entries : List StreamEntry) :
    misread memory lastId entries = [] := by
  have numbers (memory : Nat → Bytes) : staleNumbers memory lastId = (pair, memory) := by
    rw [staleNumbers, idPair_eq_some.mp isPair]
    rfl
  simp only [misread, numbers]
  exact staleBetween_self pair memory entries

end Stale

/-! ## Behind the tail -/

/-- What the stream commands keep of every stream. -/
structure Stream.Linked (stream : Stream) : Prop where
  tail : stream.tail = stream.entries.getLast?
  counted : stream.length = stream.entries.length

section Tail

variable {stream : Stream} {last : StreamEntry} {pair : Int × Int} {startText : Bytes}

/-- From the last entry the reader picks what lies between two readings of its ID. -/
theorem xreadPicks_last (linked : stream.Linked) (isTail : stream.tail = some last) (w : World D) :
    ∃ t, xreadPicks last.id (lit "+") stream w = .ok (misread w.takeFresh.fresh last.id stream.entries, t) := by
  have nonempty : stream.entries ≠ [] := by
    intro empty
    rw [linked.tail, empty] at isTail
    cases isTail
  obtain ⟨first, rest, isEntries⟩ := List.exists_cons_of_ne_nil nonempty
  have head (u : World D) : idOf stream.entries.head? u = .ok (first.id, u) := by
    rw [isEntries]
    rfl
  have allocates : (indeterminate : M D Bytes) w = .ok (w.fresh 0, w.takeFresh) := rfl
  obtain ⟨bounded, isBounded⟩ : ∃ bounded, bounded = { w.takeFresh with
      fresh := (staleNumbers (staleNumbers w.takeFresh.fresh last.id).2 last.id).2 } := ⟨_, rfl⟩
  have bounds : xreadBounds last.id (lit "+") stream w.takeFresh =
      .ok (((staleNumbers w.takeFresh.fresh last.id).1,
        (staleNumbers (staleNumbers w.takeFresh.fresh last.id).2 last.id).1), bounded) := by
    unfold xreadBounds
    by_cases minus : last.id = lit "-"
    · -- an ID `-` is not looked at, and has no number that could be read
      have unread : staleNumbers w.takeFresh.fresh [] = staleNumbers w.takeFresh.fresh last.id ∧
          staleNumbers (staleNumbers w.takeFresh.fresh last.id).2 [] =
            staleNumbers (staleNumbers w.takeFresh.fresh last.id).2 last.id := by
        rw [minus]
        exact ⟨rfl, rfl⟩
      rw [if_pos ⟨minus, rfl⟩, bind_of_ok (scanId_stale [] _), unread.1, bind_of_ok (scanId_stale [] _), unread.2, isBounded]
      rfl
    · have low (u : World D) : scanBound last.id (lit "-") stream.entries.head? u = scanId last.id u := by
        rw [scanBound, if_neg minus]
      have high (u : World D) : scanBound (lit "+") (lit "+") stream.tail u = scanId last.id u := by
        rw [scanBound, if_pos rfl, isTail]
        rfl
      rw [if_neg (fun both => minus both.1), bind_of_ok ((low _).trans (scanId_stale last.id _)),
        bind_of_ok ((high _).trans (scanId_stale last.id _)), isBounded]
      rfl
  obtain ⟨t, picks⟩ := pickEntries_stale (staleNumbers w.takeFresh.fresh last.id).1
    (staleNumbers (staleNumbers w.takeFresh.fresh last.id).2 last.id).1 stream.entries bounded
  refine ⟨t, ?_⟩
  unfold xreadPicks
  rw [bind_of_ok allocates, bind_of_ok bounds]
  dsimp only
  rw [bind_of_ok (head bounded), linked.counted, picks, isBounded]
  rfl

end Tail

/-! ## What the client comes upon -/

/-- The entries of a key behind an ID.  There are none where the key is not bound to a stream. -/
def newerAt (table : Table D) (key : Bytes) (start : Int × Int) : List StreamEntry :=
  match lookup table key with
  | .ok (some ⟨.stream stream, _⟩) => newerEntries stream start
  | _ => []

/-- The client waits for the key, and nothing was sent. -/
def WaitsFor (ptr : ClientPtr) (key : Bytes) (w t : World D) : Prop :=
  t.sent = w.sent ∧ ∃ client, t.heap ptr = some client ∧ client.isBlocked = true ∧ client.waitingForKey = some key

/-- One reply was sent, with these entries where the block has room for them, and the client was not blocked. -/
def RepliesEntries (ptr : ClientPtr) (client : Client) (key : Bytes) (entries : List StreamEntry) (w t : World D) : Prop :=
  (∃ content, t.sent = w.sent ++ [(client.fd, wrapXreadResponse key content entries.length)] ∧
    ((entriesText entries).length < 1024 → content = entriesText entries)) ∧
  ∃ client', t.heap ptr = some client' ∧ client'.isBlocked = client.isBlocked

/-- XREAD ends with the client blocked where there are no entries, and with a reply that has all of them where there are
some. -/
def BlocksOrReplies (w : World D) (req : RespRequest) (ptr : ClientPtr) (client : Client) (key : Bytes)
    (entries : List StreamEntry) : Prop :=
  ∃ t, handleStreamPrint req ptr client.fd .xread w = .ok ((), t) ∧ (entries = [] → WaitsFor ptr key w t) ∧
    (entries ≠ [] → RepliesEntries ptr client key entries w t)

/-- The block has room for the entries that are read, and they are as many and have the text of the entries that should
be, as far as these have room in it. -/
structure ReadsAs (read entries : List StreamEntry) : Prop where
  fits : OffsetsFit 1024 0 (read.flatMap streamEntryTexts)
  counted : read.length = entries.length
  whole : entries ≠ [] → (entriesText entries).length < 1024 → (entriesText read).take 1023 = entriesText entries

/-- What `handle_block_dollar` comes upon where some word has a `$`: no stream, a last entry whose ID can be read while
there is nothing to read, or a last entry whose ID cannot, where the numbers that the memory holds in its place are such
that the right entries lie between them. -/
inductive DollarReads (table : Table D) (memory : Nat → Bytes) (key : Bytes) (start : Int × Int) : Prop where
  | absent {entry : Option (Entry D)} (found : lookup table key = .ok entry)
      (notStream : ∀ stream expiresAt, entry ≠ some ⟨.stream stream, expiresAt⟩)
  | behind {stream : Stream} {expiresAt : Int} {last : StreamEntry} {pair : Int × Int}
      (bound : lookup table key = .ok (some ⟨.stream stream, expiresAt⟩)) (isTail : stream.tail = some last)
      (isPair : idPair last.id = some pair) (nothing : newerEntries stream start = [])
  | stale {stream : Stream} {expiresAt : Int} {last : StreamEntry}
      (bound : lookup table key = .ok (some ⟨.stream stream, expiresAt⟩)) (isTail : stream.tail = some last)
      (unread : idPair last.id = none) (reads : ReadsAs (misread memory last.id stream.entries) (newerEntries stream start))

section Answers

variable {entries : List StreamEntry} {stream : Stream} {expiresAt : Int} {last : StreamEntry} {pair start : Int × Int}

theorem newerAt_stream {table : Table D} (bound : lookup table key = .ok (some ⟨.stream stream, expiresAt⟩)) :
    newerAt table key start = newerEntries stream start := by
  unfold newerAt
  rw [bound]

theorem newerAt_other {table : Table D} {entry : Option (Entry D)} (found : lookup table key = .ok entry)
    (notStream : ∀ stream expiresAt, entry ≠ some ⟨.stream stream, expiresAt⟩) : newerAt table key start = [] := by
  unfold newerAt
  rw [found]
  split
  · rename_i same
    exact absurd (Except.ok.inj same) (notStream _ _)
  · rfl

/-- The state behind `handle_block_dollar`: no client has changed, and nothing was sent. -/
structure AsksQuietly (w : World D) (ptr : ClientPtr) (client : Client) (v : World D) : Prop where
  sent : v.sent = w.sent
  found : ∃ client', v.heap ptr = some client' ∧ client'.isBlocked = client.isBlocked

theorem asking_quiet (w : World D) (ptr : ClientPtr) (client : Client) (ms : Int) (index : Nat) :
    AsksQuietly w ptr client (w.asking ptr client ms index) := by
  unfold World.asking
  split
  · exact ⟨rfl, _, Function.update_self _ _ _, rfl⟩
  · exact ⟨rfl, _, Function.update_self _ _ _, rfl⟩

theorem asking_table (w : World D) (ptr : ClientPtr) (client : Client) (ms : Int) (index : Nat) :
    (w.asking ptr client ms index).table = w.table := by
  unfold World.asking
  split <;> rfl

/-- The memory of the variables, behind that of the block. -/
theorem asking_takeFresh (w : World D) (ptr : ClientPtr) (client : Client) (ms : Int) (index : Nat) :
    (w.asking ptr client ms index).takeFresh.fresh = (w.skip (index + 3)).fresh := by
  have behind : (w.skip (index + 2)).takeFresh.fresh = (w.skip (index + 3)).fresh := by rw [World.skip_takeFresh]
  unfold World.asking
  split <;> exact behind

theorem AsksQuietly.later {u v : World D} (quiet : AsksQuietly w ptr client u) (same : SameServer u v) :
    AsksQuietly w ptr client v :=
  ⟨same.sent.trans quiet.sent, by rw [same.heap]; exact quiet.found⟩

theorem finishBlocking_blocks {asked : Option Bytes × Nat × Bytes} (found : w.heap ptr = some client)
    (nothing : ¬ (asked.1.getD [] ≠ [] ∧ 0 < asked.2.1)) (clientFd : Int) :
    finishBlocking ptr clientFd key asked w = .ok ((), (w.setClient ptr { client with minId := some asked.2.2 }).setClient ptr
      { client with minId := some asked.2.2, isBlocked := true, waitingForKey := some key }) := by
  have stored : (w.setClient ptr { client with minId := some asked.2.2 }).heap ptr =
      some { client with minId := some asked.2.2 } := Function.update_self _ _ _
  rw [finishBlocking, bind_of_ok (updateClient_found found), if_neg nothing]
  exact updateClient_found stored

theorem finishBlocking_sends {asked : Option Bytes × Nat × Bytes} (found : w.heap ptr = some client)
    (delivers : asked.1.getD [] ≠ [] ∧ 0 < asked.2.1) (clientFd : Int) :
    finishBlocking ptr clientFd key asked w = .ok ((), (w.setClient ptr { client with minId := some asked.2.2 }).emit
      clientFd (wrapXreadResponse key (asked.1.getD []) asked.2.1)) := by
  rw [finishBlocking, bind_of_ok (updateClient_found found), if_pos delivers]
  rfl

/-- Where there is nothing to deliver, the client is blocked. -/
theorem blocksOrReplies_nothing {u v : World D} {messages : Option Bytes} {count : Nat} {minId : Bytes}
    (splits : handleStreamPrint req ptr client.fd .xread w =
      (handleBlockDollar req >>= finishBlocking ptr client.fd key) u)
    (asks : handleBlockDollar req u = .ok ((messages, count, minId), v)) (quiet : AsksQuietly w ptr client v)
    (nothing : ¬ (messages.getD [] ≠ [] ∧ 0 < count)) :
    BlocksOrReplies w req ptr client key entries ↔ entries = [] := by
  obtain ⟨client', found, _⟩ := quiet.found
  have ends : ∃ t, handleStreamPrint req ptr client.fd .xread w = .ok ((), t) ∧ WaitsFor ptr key w t := by
    have run := splits.trans ((bind_of_ok asks).trans (finishBlocking_blocks found nothing client.fd))
    exact ⟨_, run, quiet.sent, _, Function.update_self _ _ _, rfl, rfl⟩
  constructor
  · rintro ⟨t, run, _, replies⟩
    by_contra some
    obtain ⟨⟨content, sent, _⟩, _⟩ := replies some
    obtain ⟨u', run', same, _⟩ := ends
    obtain ⟨_, rfl⟩ := Prod.mk.inj (Except.ok.inj (run.symm.trans run'))
    rw [same] at sent
    exact absurd sent (by simp)
  · intro empty
    obtain ⟨t, run, waits⟩ := ends
    exact ⟨t, run, fun _ => waits, fun some => absurd empty some⟩

/-- Where there is something to deliver, it is sent. -/
theorem blocksOrReplies_delivers {u v : World D} {content : Bytes} {count : Nat} {minId : Bytes}
    (splits : handleStreamPrint req ptr client.fd .xread w =
      (handleBlockDollar req >>= finishBlocking ptr client.fd key) u)
    (asks : handleBlockDollar req u = .ok ((some content, count, minId), v)) (quiet : AsksQuietly w ptr client v)
    (isText : content ≠ []) (positive : 0 < count) :
    BlocksOrReplies w req ptr client key entries ↔
      entries.length = count ∧ ((entriesText entries).length < 1024 → content = entriesText entries) := by
  obtain ⟨client', found, sameBlocked⟩ := quiet.found
  have ends : ∃ t, handleStreamPrint req ptr client.fd .xread w = .ok ((), t) ∧
      t.sent = w.sent ++ [(client.fd, wrapXreadResponse key content count)] ∧
        ∃ client', t.heap ptr = some client' ∧ client'.isBlocked = client.isBlocked := by
    have delivers : (some content).getD [] ≠ [] ∧ 0 < count := ⟨isText, positive⟩
    have run := splits.trans ((bind_of_ok asks).trans (finishBlocking_sends found delivers client.fd))
    exact ⟨_, run, congrArg (· ++ _) quiet.sent, _, Function.update_self _ _ _, sameBlocked⟩
  obtain ⟨t, run, sent, unblocked⟩ := ends
  constructor
  · rintro ⟨t', run', waits, replies⟩
    obtain ⟨_, rfl⟩ := Prod.mk.inj (Except.ok.inj (run.symm.trans run'))
    have some : entries ≠ [] := by
      intro empty
      rw [(waits empty).1] at sent
      exact absurd sent (by simp)
    obtain ⟨⟨content', sent', whole⟩, _⟩ := replies some
    rw [sent] at sent'
    have same : wrapXreadResponse key content count = wrapXreadResponse key content' entries.length := by
      simpa using sent'
    have several := List.length_pos_of_ne_nil some
    unfold wrapXreadResponse at same
    rw [if_neg (by omega), if_neg (by omega)] at same
    simp only [List.append_assoc] at same
    obtain ⟨sameCount, rfl⟩ := cut_header (List.append_cancel_left (List.append_cancel_left same))
    exact ⟨sameCount.symm, whole⟩
  · rintro ⟨rfl, whole⟩
    refine ⟨t, run, fun empty => ?_, fun _ => ⟨⟨content, sent, whole⟩, unblocked⟩⟩
    rw [empty] at positive
    cases positive

theorem not_blocksOrReplies {u : World D} {e : Fault}
    (splits : handleStreamPrint req ptr client.fd .xread w =
      (handleBlockDollar req >>= finishBlocking ptr client.fd key) u)
    (fails : handleBlockDollar req u = .error e) : ¬ BlocksOrReplies w req ptr client key entries := by
  rintro ⟨t, run, _⟩
  rw [splits, bind_of_error fails] at run
  cases run

end Answers

/-! ## Exactly where there is nothing to read -/

section Asks

variable {entries : List StreamEntry} {stream : Stream} {expiresAt : Int} {last : StreamEntry} {pair start : Int × Int}
  {ms : Bytes}

/-- Without a `$` the stream is not looked at. -/
theorem handleBlockDollar_explicit (noDollar : hasDollarSign req = false) (isId : req.args[4]? = some id) (w : World D) :
    handleBlockDollar req w = .ok ((none, 0, id), w) := by
  have readsId : (req.arg 4 : M D Bytes) w = .ok (id, w) := arg_ok.mpr ⟨isId, rfl⟩
  unfold handleBlockDollar
  rw [noDollar, if_neg (by decide), bind_of_ok readsId]
  rfl

theorem lastStreamEntry_error {e : Fault} (fails : lookup w.table key = .error e) :
    (lastStreamEntry key : M D (Option StreamEntry)) w = .error e := by
  have walks : storeGetEntry key w = .error e := by rw [storeGetEntry_run, fails]
  exact bind_of_error walks

theorem lastStreamEntry_stream (bound : lookup w.table key = .ok (some ⟨.stream stream, expiresAt⟩)) :
    lastStreamEntry key w = .ok (stream.tail, w) := by
  have walks : storeGetEntry key w = .ok (some ⟨.stream stream, expiresAt⟩, w) := by rw [storeGetEntry_run, bound]
  exact bind_of_ok walks

theorem lastStreamEntry_other {entry : Option (Entry D)} (found : lookup w.table key = .ok entry)
    (notStream : ∀ stream expiresAt, entry ≠ some ⟨.stream stream, expiresAt⟩) :
    lastStreamEntry key w = .ok (none, w) := by
  have walks : storeGetEntry key w = .ok (entry, w) := by rw [storeGetEntry_run, found]
  unfold lastStreamEntry
  rw [bind_of_ok walks]
  split
  · exact absurd rfl (notStream _ _)
  · rfl

theorem streamEntryXreadToString_other {idStart : M D Bytes} {entry : Option (Entry D)} (found : lookup w.table key = .ok entry)
    (notStream : ∀ stream expiresAt, entry ≠ some ⟨.stream stream, expiresAt⟩) (idEnd : Bytes) :
    streamEntryXreadToString idStart idEnd key w = .ok ((none, 0), w.takeFresh) := by
  have allocates : (indeterminate : M D Bytes) w = .ok (w.fresh 0, w.takeFresh) := rfl
  have sameTable : w.takeFresh.table = w.table := rfl
  have walks : storeGetEntry key w.takeFresh = .ok (entry, w.takeFresh) := by rw [storeGetEntry_run, sameTable, found]
  unfold streamEntryXreadToString
  rw [bind_of_ok allocates, bind_of_ok walks]
  split
  · exact absurd rfl (notStream _ _)
  · rfl

variable (dollar : hasDollarSign req = true) (isKey : req.args[3]? = some key)
include dollar isKey

theorem handleBlockDollar_error {e : Fault} (fails : lookup w.table key = .error e) :
    handleBlockDollar req w = .error e := by
  unfold handleBlockDollar
  rw [if_pos dollar, bind_of_ok (arg_ok.mpr ⟨isKey, rfl⟩), bind_of_error (lastStreamEntry_error fails)]

theorem handleBlockDollar_other {entry : Option (Entry D)} (found : lookup w.table key = .ok entry)
    (notStream : ∀ stream expiresAt, entry ≠ some ⟨.stream stream, expiresAt⟩) (isId : req.args[4]? = some id) :
    handleBlockDollar req w = .ok ((none, 0, id), w.takeFresh) := by
  unfold handleBlockDollar
  rw [if_pos dollar, bind_of_ok (arg_ok.mpr ⟨isKey, rfl⟩), bind_of_ok (lastStreamEntry_other found notStream)]
  dsimp only
  rw [bind_of_ok (streamEntryXreadToString_other found notStream (lit "+")), bind_of_ok (arg_ok.mpr ⟨isId, rfl⟩)]
  rfl

/-- An empty stream has no tail to read behind. -/
theorem handleBlockDollar_empty (bound : lookup w.table key = .ok (some ⟨.stream stream, expiresAt⟩))
    (noTail : stream.tail = none) (isId : req.args[4]? = some id) (isStart : idPair id = some start) :
    ∃ e, handleBlockDollar req w = .error e := by
  have given : (req.arg 4 : M D Bytes) = pure id := by
    unfold RespRequest.arg
    rw [isId]
  have reads := lastStreamEntry_stream bound
  rw [noTail] at reads
  cases answers : streamEntryXreadToString (pure id) (lit "+") key w with
  | error e =>
    refine ⟨e, ?_⟩
    unfold handleBlockDollar
    rw [if_pos dollar, bind_of_ok (arg_ok.mpr ⟨isKey, rfl⟩), bind_of_ok reads]
    dsimp only
    rw [given, bind_of_error answers]
  | ok result =>
    obtain ⟨⟨messages, count⟩, t⟩ := result
    obtain ⟨picked, _, picks, _⟩ := streamEntryXreadToString_ok bound rfl answers
    rw [xreadPicks_faults isStart noTail] at picks
    cases picks

theorem handleBlockDollar_tail (bound : lookup w.table key = .ok (some ⟨.stream stream, expiresAt⟩))
    (isTail : stream.tail = some last) :
    handleBlockDollar req w = (streamEntryXreadToString (pure last.id) (lit "+") key >>= fun delivery =>
      pure (delivery.1, delivery.2, last.id)) w := by
  unfold handleBlockDollar
  rw [if_pos dollar, bind_of_ok (arg_ok.mpr ⟨isKey, rfl⟩), bind_of_ok (lastStreamEntry_stream bound), isTail]

/-- Where the stream has a tail, the answer is what the reader selects behind it. -/
theorem blocksOrReplies_tail {u : World D}
    (splits : handleStreamPrint req ptr client.fd .xread w =
      (handleBlockDollar req >>= finishBlocking ptr client.fd key) u)
    (bound : lookup u.table key = .ok (some ⟨.stream stream, expiresAt⟩)) (isTail : stream.tail = some last)
    (quiet : AsksQuietly w ptr client u) :
    BlocksOrReplies w req ptr client key entries ↔
      SelectsEntries (streamEntryXreadToString (pure last.id) (lit "+") key u) entries := by
  have asks := handleBlockDollar_tail dollar isKey bound isTail
  cases answers : streamEntryXreadToString (pure last.id) (lit "+") key u with
  | error e =>
    rw [bind_of_error answers] at asks
    refine iff_of_false (not_blocksOrReplies splits asks) ?_
    rintro ⟨result, t, run, _⟩
    cases run
  | ok result =>
    obtain ⟨⟨messages, count⟩, v⟩ := result
    rw [bind_of_ok answers] at asks
    have same : SameServer u v := Preserves.run _ _ _ answers
    obtain ⟨picked, content, picks, rfl, rfl, whole⟩ := streamEntryXreadToString_ok bound rfl answers
    have quiet' := quiet.later same
    obtain isNone | positive := Nat.eq_zero_or_pos picked.length
    · rw [blocksOrReplies_nothing splits asks quiet' (fun delivers => by omega)]
      constructor
      · rintro rfl
        exact ⟨some content, v, by rw [isNone]; rfl, fun some => absurd rfl some⟩
      · rintro ⟨result, t, run, _⟩
        obtain ⟨isResult, _⟩ := Prod.mk.inj (Except.ok.inj run)
        exact List.eq_nil_of_length_eq_zero ((Prod.mk.inj isResult).2.symm.trans isNone)
    · have isText := streamEntryXreadToString_begun bound answers positive
      rw [blocksOrReplies_delivers splits asks quiet' isText positive]
      constructor
      · rintro ⟨sameLength, room⟩
        refine ⟨some content, v, by rw [sameLength], fun _ short => congrArg some (room short)⟩
      · rintro ⟨result, t, run, room⟩
        obtain ⟨isResult, _⟩ := Prod.mk.inj (Except.ok.inj run)
        obtain ⟨rfl, sameLength⟩ := Prod.mk.inj isResult
        have some : entries ≠ [] := List.ne_nil_of_length_pos (by omega)
        exact ⟨sameLength.symm, fun short => Option.some.inj (room some short)⟩

omit dollar isKey in
/-- Behind the last entry the reader selects what lies between two readings of its ID. -/
theorem selects_last {u : World D} (linked : stream.Linked)
    (bound : lookup u.table key = .ok (some ⟨.stream stream, expiresAt⟩)) (isTail : stream.tail = some last) :
    SelectsEntries (streamEntryXreadToString (pure last.id) (lit "+") key u) entries ↔
      ReadsAs (misread u.takeFresh.fresh last.id stream.entries) entries := by
  obtain ⟨t, picks⟩ := xreadPicks_last linked isTail u
  constructor
  · rintro ⟨result, v, run, room⟩
    obtain ⟨picked, _, picks', fits⟩ := (streamEntryXreadToString_iff bound).mp ⟨_, _, run⟩
    obtain ⟨rfl, _⟩ := Prod.mk.inj (Except.ok.inj (picks.symm.trans picks'))
    obtain ⟨others, content, picks'', counted, rfl, whole⟩ := streamEntryXreadToString_ok bound rfl run
    obtain ⟨rfl, _⟩ := Prod.mk.inj (Except.ok.inj (picks.symm.trans picks''))
    refine ⟨fits, counted.symm, fun some short => ?_⟩
    have several : misread u.takeFresh.fresh last.id stream.entries ≠ [] := by
      intro nothing
      rw [nothing] at counted
      exact some (List.eq_nil_of_length_eq_zero counted)
    rw [← whole several]
    exact Option.some.inj (room some short)
  · rintro ⟨fits, counted, same⟩
    obtain ⟨⟨messages, count⟩, v, run⟩ := (streamEntryXreadToString_iff bound).mpr ⟨_, t, picks, fits⟩
    obtain ⟨others, content, picks', rfl, rfl, whole⟩ := streamEntryXreadToString_ok bound rfl run
    obtain ⟨rfl, _⟩ := Prod.mk.inj (Except.ok.inj (picks.symm.trans picks'))
    refine ⟨some content, v, by rw [← counted]; exact run, fun some short => congrArg Option.some ?_⟩
    have several : misread u.takeFresh.fresh last.id stream.entries ≠ [] := by
      intro nothing
      rw [nothing] at counted
      exact some (List.eq_nil_of_length_eq_zero counted.symm)
    rw [whole several, same some short]

end Asks

section Iff

variable {ms : Bytes} {stream : Stream} {expiresAt : Int} {last : StreamEntry} {start : Int × Int} {u : World D}

theorem not_dollarReads_empty {table : Table D} {memory : Nat → Bytes}
    (bound : lookup table key = .ok (some ⟨.stream stream, expiresAt⟩)) (noTail : stream.tail = none) :
    ¬ DollarReads table memory key start := by
  intro reads
  cases reads with
  | absent found notStream =>
    rw [bound] at found
    exact notStream stream expiresAt (Except.ok.inj found).symm
  | behind bound' isTail | stale bound' isTail =>
    rw [bound] at bound'
    obtain ⟨rfl, rfl⟩ : stream = _ ∧ expiresAt = _ := by simpa using bound'
    rw [noTail] at isTail
    cases isTail

/-- Nothing lies between two readings of an ID that can be read. -/
theorem readsAs_nil {entries : List StreamEntry} : ReadsAs [] entries ↔ entries = [] := by
  constructor
  · intro reads
    exact List.eq_nil_of_length_eq_zero reads.counted.symm
  · rintro rfl
    exact ⟨.inl rfl, rfl, fun some => absurd rfl some⟩

theorem dollarReads_tail_iff {table : Table D} {memory : Nat → Bytes}
    (bound : lookup table key = .ok (some ⟨.stream stream, expiresAt⟩)) (isTail : stream.tail = some last) :
    DollarReads table memory key start ↔
      ReadsAs (misread memory last.id stream.entries) (newerEntries stream start) := by
  constructor
  · intro reads
    cases reads with
    | absent found notStream =>
      rw [bound] at found
      exact absurd (Except.ok.inj found).symm (notStream stream expiresAt)
    | behind bound' isTail' isPair nothing =>
      rw [bound] at bound'
      obtain ⟨rfl, rfl⟩ : stream = _ ∧ expiresAt = _ := by simpa using bound'
      obtain rfl := Option.some.inj (isTail.symm.trans isTail')
      rw [misread_of_pair isPair]
      exact readsAs_nil.mpr nothing
    | stale bound' isTail' unread reads =>
      rw [bound] at bound'
      obtain ⟨rfl, rfl⟩ : stream = _ ∧ expiresAt = _ := by simpa using bound'
      obtain rfl := Option.some.inj (isTail.symm.trans isTail')
      exact reads
  · intro reads
    cases isPair : idPair last.id with
    | some pair =>
      rw [misread_of_pair isPair] at reads
      exact .behind bound isTail isPair (readsAs_nil.mp reads)
    | none => exact .stale bound isTail isPair reads

/-- Where no word has a `$`, the client is blocked whether there is an entry or not. -/
theorem blocksOrReplies_explicit {index : Nat} {entries : List StreamEntry} (request : BlockingXread req ms key id)
    (isIndex : streamsIndex w.fresh req.args = some index) (fits : w.DeadlineFits (atoi ms)) (found : w.heap ptr = some client)
    (noDollar : hasDollarSign req = false) : BlocksOrReplies w req ptr client key entries ↔ entries = [] := by
  have splits := blockingXread_eq request isIndex fits found client.fd
  obtain ⟨block, streams, isArgs, _⟩ := request.words
  have isId : req.args[4]? = some id := by rw [isArgs]; rfl
  exact blocksOrReplies_nothing splits (handleBlockDollar_explicit noDollar isId _) (asking_quiet w ptr client _ index)
    fun delivers => Nat.lt_irrefl 0 delivers.2

/-- In every state, for every key and every ID that can be read: `XREAD BLOCK ms STREAMS key id` blocks the client where
there is no entry behind the ID, and else replies with all of them, if and only if the deadline fits a `long long`, some
copy of a word reads `STREAMS`, and either no word has a `$` and there is no such entry, or one has a `$` and
`handle_block_dollar` comes upon no stream, upon a last entry with nothing to read before it, or upon an ID in whose
place stale memory holds numbers with the right entries between them. -/
theorem blocking_xread_iff (request : BlockingXread req ms key id) (isStart : idPair id = some start)
    (found : w.heap ptr = some client) (linked : ∀ stream, HoldsStream w.table key stream → stream.Linked) :
    BlocksOrReplies w req ptr client key (newerAt w.table key start) ↔
      w.DeadlineFits (atoi ms) ∧ ∃ index, streamsIndex w.fresh req.args = some index ∧
        (hasDollarSign req = false → newerAt w.table key start = []) ∧
        (hasDollarSign req = true → DollarReads w.table (w.skip (index + 3)).fresh key start) := by
  cases isIndex : streamsIndex w.fresh req.args with
  | none =>
    -- no copy of a word reads STREAMS, and the handler faults
    refine iff_of_false ?_ (by simp)
    rintro ⟨t, run, _⟩
    rw [handleXread_unread isIndex client.fd] at run
    cases run
  | some index =>
    by_cases late : ¬ w.DeadlineFits (atoi ms)
    · refine iff_of_false ?_ fun condition => late condition.1
      rintro ⟨t, run, _⟩
      rw [blockingXread_late request isIndex late client.fd] at run
      cases run
    have fits := not_not.mp late
    have splits := blockingXread_eq request isIndex fits found client.fd
    have sameFresh := asking_takeFresh w ptr client (atoi ms) index
    have quiet := asking_quiet w ptr client (atoi ms) index
    have sameTable := asking_table w ptr client (atoi ms) index
    obtain ⟨block, streams, isArgs, _⟩ := request.words
    have isKey : req.args[3]? = some key := by rw [isArgs]; rfl
    have isId : req.args[4]? = some id := by rw [isArgs]; rfl
    simp only [Option.some.injEq, exists_eq_left', fits, true_and]
    rw [← sameTable] at linked ⊢
    cases dollar : hasDollarSign req with
    | false =>
      rw [blocksOrReplies_explicit request isIndex fits found dollar]
      simp
    | true =>
      simp only [reduceCtorEq, false_implies, true_implies, true_and]
      -- with a `$` it is the entry of the key that decides
      cases bound : lookup (w.asking ptr client (atoi ms) index).table key with
      | error e =>
        refine iff_of_false (not_blocksOrReplies splits (handleBlockDollar_error dollar isKey bound)) fun reads => ?_
        cases reads with
        | absent found' | behind found' | stale found' =>
          rw [bound] at found'
          cases found'
      | ok entry =>
        by_cases isStream : ∃ stream expiresAt, entry = some ⟨.stream stream, expiresAt⟩
        · obtain ⟨stream, expiresAt, rfl⟩ := isStream
          cases isTail : stream.tail with
          | none =>
            obtain ⟨e, fails⟩ := handleBlockDollar_empty dollar isKey bound isTail isId isStart
            exact iff_of_false (not_blocksOrReplies splits fails) (not_dollarReads_empty bound isTail)
          | some last =>
            rw [blocksOrReplies_tail dollar isKey splits bound isTail quiet, newerAt_stream bound,
              selects_last (linked stream ⟨expiresAt, bound⟩) bound isTail, sameFresh]
            exact (dollarReads_tail_iff bound isTail).symm
        · have notStream (stream : Stream) (expiresAt : Int) : entry ≠ some ⟨.stream stream, expiresAt⟩ :=
            fun same => isStream ⟨stream, expiresAt, same⟩
          have asks := handleBlockDollar_other dollar isKey bound notStream isId
          rw [blocksOrReplies_nothing splits asks (quiet.later ⟨rfl, rfl, rfl, rfl⟩) (fun delivers => by omega)]
          exact iff_of_true (newerAt_other bound notStream) (.absent bound notStream)

/-- A state with one stream and one client. -/
def worldOfReader (key : Bytes) (stream : Stream) (client : Client) : World Int :=
  { worldWith key (.stream stream) with heap := fun ptr => if ptr = 0 then some client else none }

def blockOn (key start : String) : RespRequest :=
  requestOf [lit "XREAD", lit "BLOCK", lit "0", lit "STREAMS", lit key, lit start]

theorem blockOn_request {key start : String} (isRequest : (blockOn key start).args =
    [lit "BLOCK", lit "0", lit "STREAMS", lit key, lit start]) :
    BlockingXread (blockOn key start) (lit "0") (lit key) (lit start) :=
  ⟨lit "BLOCK", lit "STREAMS", isRequest, by decide +kernel⟩

theorem found_worldOfReader (key : Bytes) (stream : Stream) (client : Client) :
    (worldOfReader key stream client).heap 0 = some client := rfl

theorem oneMillisecond_linked : oneMillisecond.Linked := ⟨by decide, rfl⟩

theorem linked_of_worldOfReader {stream : Stream} (linked : stream.Linked) (indexed : bucketOf key ≠ none)
    (client : Client) (other : Stream) (holds : HoldsStream (worldOfReader key stream client).table key other) :
    other.Linked := by
  obtain ⟨expiresAt, bound⟩ := holds
  have same := (lookup_worldWith (D := Int) indexed (.stream stream)).symm.trans bound
  obtain ⟨rfl, _⟩ : stream = other ∧ 0 = expiresAt := by simpa using same
  exact linked

/-- A client that asks for the entries behind the last one is blocked. -/
theorem blocking_xread_iff_last : BlocksOrReplies (worldOfReader (lit "k") oneMillisecond { fd := 5 }) (blockOn "k" "5-3") 0
    { fd := 5 } (lit "k") [] := by
  have bound : lookup (worldOfReader (lit "k") oneMillisecond { fd := 5 }).table (lit "k") =
      .ok (some ⟨.stream oneMillisecond, 0⟩) := lookup_worldWith indexed_k _
  have nothing : newerAt (worldOfReader (lit "k") oneMillisecond { fd := 5 }).table (lit "k") (5, 3) = [] := by
    rw [newerAt_stream bound]
    decide +kernel
  have isStart : idPair (lit "5-3") = some (5, 3) := by decide +kernel
  have answers := (blocking_xread_iff (blockOn_request (by decide +kernel)) isStart
    (found_worldOfReader (lit "k") oneMillisecond { fd := 5 }) (linked_of_worldOfReader oneMillisecond_linked indexed_k _)).mpr
  rw [nothing] at answers
  exact answers ⟨.inl (by decide), 2, by decide +kernel, fun _ => rfl, fun dollar => absurd dollar (by decide +kernel)⟩

/-- `XREAD BLOCK 0 STREAMS k 0-1` of three entries blocks the client. -/
theorem blocking_xread_blocks_on_data : ¬ BlocksOrReplies (worldOfReader (lit "k") oneMillisecond { fd := 5 })
    (blockOn "k" "0-1") 0 { fd := 5 } (lit "k")
      (newerAt (worldOfReader (lit "k") oneMillisecond { fd := 5 }).table (lit "k") (0, 1)) := by
  have bound : lookup (worldOfReader (lit "k") oneMillisecond { fd := 5 }).table (lit "k") =
      .ok (some ⟨.stream oneMillisecond, 0⟩) := lookup_worldWith indexed_k _
  have isIndex : streamsIndex (worldOfReader (lit "k") oneMillisecond { fd := 5 }).fresh (blockOn "k" "0-1").args = some 2 := by
    decide +kernel
  have noDollar : hasDollarSign (blockOn "k" "0-1") = false := by decide +kernel
  rw [blocksOrReplies_explicit (blockOn_request (by decide +kernel)) isIndex (.inl (by decide))
    (found_worldOfReader (lit "k") oneMillisecond { fd := 5 }) noDollar, newerAt_stream bound]
  decide +kernel

end Iff

end RedisClone
