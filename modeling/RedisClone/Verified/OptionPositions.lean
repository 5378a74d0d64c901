import RedisClone.Verified.BlockingReads

/-! # The options of XREAD

`hasBlock` and `hasDollarSign` look for their option inside every word, so that a key which contains `BLOCK` or `$` is
taken for it.  `xread_by_position_iff` says for which keys XREAD is answered from the words at their positions.
-/

namespace RedisClone

open Exec CString

variable {D : Type} {w t : World D} {req : RespRequest} {ptr : ClientPtr} {client : Client} {key id : Bytes}

/-! ## The plain form -/

/-- `XREAD STREAMS key id` -/
structure PlainXread (req : RespRequest) (key id : Bytes) : Prop where
  words : ∃ streams, req.args = [streams, key, id] ∧ upper streams = lit "STREAMS"

theorem PlainXread.argc (request : PlainXread req key id) : req.argc = 3 := by
  obtain ⟨streams, isArgs, _⟩ := request.words
  have supplied := req.supplied
  rw [isArgs] at supplied
  simp only [List.length_cons, List.length_nil] at supplied
  omega

/-- What is answered from a key and an ID. -/
def answerRead (clientFd : Int) (key id : Bytes) : M D Unit := do
  match ← storeGetEntry key with
  | none => send clientFd emptyArray
  | some _ => do
    let (messages, count) ← streamEntryXreadToString (pure id) (lit "+") key
    send clientFd (messages.elim emptyArray fun messages => wrapXreadResponse key messages count)

/-- The branch of `handle_single_xread` without BLOCK, for a key and an ID. -/
def readOne (clientFd : Int) (key id : Bytes) : M D (Option Bytes) := do
  match ← storeGetEntry key with
  | none => do
    send clientFd emptyArray
    pure none
  | some _ => do
    let (messages, count) ← streamEntryXreadToString (pure id) (lit "+") key
    match messages with
    | none => do
      send clientFd emptyArray
      pure none
    | some messages =>
      if count = 0 then do
        send clientFd emptyArray
        pure none
      else pure (some (wrapXreadResponse key messages count))

/-- XREAD is answered from this key and this ID, and blocks no client. -/
structure AnswersKey (w : World D) (req : RespRequest) (ptr : ClientPtr) (client : Client) (key id : Bytes) : Prop where
  reads : ∃ v, OnlyStale w v ∧ handleStreamPrint req ptr client.fd .xread w = answerRead client.fd key id v
  unblocked : ∀ t, handleStreamPrint req ptr client.fd .xread w = .ok ((), t) → t.heap = w.heap

section Position

variable {index : Nat} {start : Int × Int}

theorem skip_onlyStale (w : World D) (n : Nat) : OnlyStale w (w.skip n) := rfl

theorem hasBlockFrom_onlyStale {i : Nat} {words : List Bytes} {block : Option Nat}
    (run : hasBlockFrom i words w = .ok (block, t)) : OnlyStale w t := by
  induction words generalizing i w with
  | nil =>
    obtain ⟨_, rfl⟩ := Prod.mk.inj (Except.ok.inj run)
    rfl
  | cons word rest inductionHypothesis =>
    rw [hasBlockFrom, bind_of_ok (toUpperCopy_run word w)] at run
    have taken : OnlyStale w w.takeFresh := rfl
    split at run
    · obtain ⟨_, rfl⟩ := Prod.mk.inj (Except.ok.inj run)
      exact taken
    · exact taken.trans (inductionHypothesis run)

/-- No answer reads an argument. -/
theorem answerRead_arg (clientFd : Int) (key id : Bytes) (w : World D) : answerRead clientFd key id w ≠ .error .missingArg := by
  have ambient : Ambient (D := D) (fun _ _ => True) (· ≠ .missingArg) :=
    ⟨⟨fun _ => trivial, fun _ _ => trivial⟩, fun _ _ _ => trivial, fun _ => trivial, fun _ => trivial,
      fun _ _ _ _ _ _ _ => trivial, fun _ _ _ => trivial, fun f notArg _ => notArg⟩
  have obeys : ObeysAt (fun _ _ => True) (· ≠ .missingArg) (answerRead clientFd key id) w := by
    refine obeysAt_byEntry ambient fun entry => ?_
    cases entry with
    | none => exact obeys_send ambient _ _ w
    | some entry =>
      exact obeysAt_seq ambient (obeysAt_streamEntryXreadToString ambient fun _ _ => obeys_pure ambient _)
        fun delivery => obeys_send ambient _ _
  exact fun fails => obeys.2 _ fails rfl

/-! ### What an answer computes -/

/-- No `int` and no `long long` overflows. -/
abbrev StaysInRange {α : Type} (x : M D α) : Prop := Obeys (fun _ _ => True) (· ≠ .overflow) x

theorem composes_anything : Composes (fun _ _ : World D => True) := ⟨fun _ => trivial, fun _ _ => trivial⟩

theorem StaysInRange.bind {α β : Type} {x : M D α} {f : α → M D β} (first : StaysInRange x)
    (rest : ∀ a, StaysInRange (f a)) : StaysInRange (x >>= f) :=
  Obeys.bind composes_anything first fun a _ => rest a

theorem staysInRange_pure {α : Type} (a : α) : StaysInRange (pure a : M D α) := Obeys.pure composes_anything a

theorem staysInRange_fault {α : Type} {f : Fault} (other : f ≠ .overflow) : StaysInRange (fault f : M D α) :=
  Obeys.fault other

theorem staysInRange_draw {α : Type} {f : World D → α} {g : World D → World D} : StaysInRange (draw f g) :=
  Obeys.draw fun _ => trivial

theorem staysInRange_scanned (value : Option Int) : StaysInRange (scanned value : M D Int) := by
  cases value with
  | none => exact staysInRange_draw.bind fun _ => staysInRange_pure _
  | some value => exact staysInRange_pure value

theorem staysInRange_scanId (id : Bytes) : StaysInRange (scanId id : M D (Int × Int)) :=
  (staysInRange_scanned _).bind fun _ => (staysInRange_scanned _).bind fun _ => staysInRange_pure _

theorem staysInRange_idOf (entry : Option StreamEntry) : StaysInRange (idOf entry : M D Bytes) := by
  cases entry with
  | none => exact staysInRange_fault (by decide)
  | some entry => exact staysInRange_pure _

theorem staysInRange_scanBound (text wildcard : Bytes) (ending : Option StreamEntry) :
    StaysInRange (scanBound text wildcard ending : M D (Int × Int)) :=
  Obeys.ite (fun _ => (staysInRange_idOf ending).bind fun id => staysInRange_scanId id) fun _ => staysInRange_scanId text

theorem staysInRange_xreadBounds (start stop : Bytes) (stream : Stream) :
    StaysInRange (xreadBounds start stop stream : M D ((Int × Int) × Int × Int)) :=
  Obeys.ite
    (fun _ => (staysInRange_scanId _).bind fun _ => (staysInRange_scanId _).bind fun _ => staysInRange_pure _)
    fun _ => (staysInRange_scanBound _ _ _).bind fun _ => (staysInRange_scanBound _ _ _).bind fun _ => staysInRange_pure _

theorem staysInRange_appendAll (size : Nat) (texts : List Bytes) (buffer : Buffer) :
    StaysInRange (buffer.appendAll size texts : M D Buffer) := by
  induction texts generalizing buffer with
  | nil => exact staysInRange_pure buffer
  | cons text texts inductionHypothesis =>
    have prints : StaysInRange (buffer.print size text : M D Buffer) :=
      Obeys.ite (fun _ => staysInRange_fault (by decide)) fun _ => staysInRange_pure _
    exact (prints.bind fun _ => staysInRange_pure _).bind fun _ => inductionHypothesis _

theorem staysInRange_selectEntries (size : Nat) (start stop : Int × Int) (isXrange : Bool) (remaining : Nat)
    (entries : List StreamEntry) (buffer : Buffer) (count : Nat) :
    StaysInRange (selectEntries size start stop isXrange remaining entries buffer count : M D (Buffer × Nat)) := by
  induction remaining generalizing entries buffer count with
  | zero => exact staysInRange_pure _
  | succ remaining inductionHypothesis =>
    cases entries with
    | nil => exact staysInRange_fault (by decide)
    | cons entry entries =>
      refine (staysInRange_scanId entry.id).bind fun current => Obeys.ite (fun _ => ?_) fun _ => ?_
      · exact (staysInRange_appendAll _ _ _).bind fun _ => inductionHypothesis _ _ _
      · exact inductionHypothesis _ _ _

theorem staysInRange_storeGetEntry (key : Bytes) : StaysInRange (storeGetEntry key : M D (Option (Entry D))) := by
  unfold storeGetEntry
  refine StaysInRange.bind ?_ fun bucket => staysInRange_draw.bind fun table => ?_
  · unfold tableIndex
    split
    · exact staysInRange_pure _
    · exact staysInRange_fault (by decide)
  · split
    · exact staysInRange_pure _
    · exact staysInRange_fault (by decide)

theorem staysInRange_answerRead (clientFd : Int) (key id : Bytes) : StaysInRange (answerRead clientFd key id : M D Unit) := by
  have sends (bytes : Bytes) : StaysInRange (send clientFd bytes : M D Unit) := Obeys.alter fun _ => trivial
  refine (staysInRange_storeGetEntry key).bind fun entry => ?_
  cases entry with
  | none => exact sends _
  | some entry =>
    refine StaysInRange.bind ?_ fun delivery => sends _
    refine staysInRange_draw.bind fun block => (staysInRange_storeGetEntry key).bind fun entry => ?_
    split
    · refine (staysInRange_pure id).bind fun start => (staysInRange_xreadBounds _ _ _).bind fun bounds => ?_
      refine (staysInRange_idOf _).bind fun _ => (staysInRange_selectEntries _ _ _ _ _ _ _ _).bind fun selected => ?_
      exact Obeys.ite (fun _ => staysInRange_pure _) fun _ => staysInRange_pure _
    · exact staysInRange_pure _

theorem answerRead_heap {clientFd : Int} (run : answerRead clientFd key id w = .ok ((), t)) : t.heap = w.heap := by
  unfold answerRead at run
  obtain ⟨entry, walked, walks, afterWalk⟩ := bind_eq_ok.mp run
  obtain ⟨_, rfl⟩ := storeGetEntry_ok walks
  cases entry with
  | none => rw [send_run afterWalk]; rfl
  | some entry =>
    obtain ⟨⟨messages, count⟩, answered, answers, sends⟩ := bind_eq_ok.mp afterWalk
    have same : SameServer walked answered := Preserves.run _ _ _ answers
    rw [send_run sends, ← same.heap]
    rfl

theorem readOne_answers (clientFd : Int) (key id : Bytes) (w : World D) :
    (readOne clientFd key id >>= sendAnswer clientFd) w = answerRead clientFd key id w := by
  unfold answerRead
  cases walks : storeGetEntry key w with
  | error e =>
    rw [bind_of_error walks]
    exact bind_of_error (bind_of_error walks)
  | ok result =>
    obtain ⟨entry, walked⟩ := result
    rw [bind_of_ok walks]
    cases entry with
    | none =>
      rw [bind_run]
      unfold readOne
      rw [bind_of_ok walks]
      rfl
    | some entry =>
      dsimp only
      cases answers : streamEntryXreadToString (pure id) (lit "+") key walked with
      | error e =>
        rw [bind_of_error answers]
        refine bind_of_error ?_
        unfold readOne
        rw [bind_of_ok walks]
        exact bind_of_error answers
      | ok result =>
        obtain ⟨⟨messages, count⟩, answered⟩ := result
        rw [bind_of_ok answers, bind_run]
        unfold readOne
        rw [bind_of_ok walks]
        dsimp only
        rw [bind_of_ok answers]
        cases messages with
        | none => rfl
        | some messages =>
          dsimp only
          by_cases nothing : count = 0
          · rw [if_pos nothing, Option.elim_some, wrapXreadResponse, if_pos nothing]
            rfl
          · rw [if_neg nothing]
            rfl

/-- Without BLOCK the key and the ID are read at their positions. -/
theorem plainXread_answers (request : PlainXread req key id) (isIndex : streamsIndex w.fresh req.args = some index)
    (found : w.heap ptr = some client) (noBlock : blockIndex (w.skip (index + 1)).fresh req.args = none) :
    ∃ v, OnlyStale w v ∧ handleStreamPrint req ptr client.fd .xread w = answerRead client.fd key id v := by
  have few : req.argc - index - 1 < 4 := by
    rw [request.argc]
    omega
  obtain ⟨streams, isArgs, _⟩ := request.words
  have isKey : req.args[1]? = some key := by rw [isArgs]; rfl
  have given : (req.arg 2 : M D Bytes) = pure id := by
    unfold RespRequest.arg
    rw [isArgs]
    rfl
  obtain ⟨v, looks⟩ := hasBlock_run req (w.skip (index + 1))
  rw [noBlock] at looks
  have stale : OnlyStale w v := (skip_onlyStale w (index + 1)).trans (hasBlockFrom_onlyStale looks)
  have found' : v.heap ptr = some client := by
    rw [stale]
    exact found
  have single : handleSingleXread req ptr (w.skip (index + 1)) = readOne client.fd key id v := by
    unfold handleSingleXread
    rw [bind_of_ok looks]
    dsimp only
    rw [bind_of_ok (printArg_supplied isKey v), bind_of_ok (loadClient_found found'), bind_of_ok (arg_ok.mpr ⟨isKey, rfl⟩),
      given]
    rfl
  refine ⟨v, stale, ?_⟩
  rw [handleXread_single isIndex (not_manyKeys few), ← readOne_answers, bind_run, bind_run, single]

/-- A deadline is computed, or it does not fit a `long long`. -/
theorem timeoutAfter_ends (ms : Int) (w : World D) :
    (∃ timeoutAt t, timeoutAfter ms w = .ok (timeoutAt, t) ∧ t.heap = w.heap) ∨
      timeoutAfter ms w = .error .overflow := by
  unfold timeoutAfter
  by_cases endless : ms = 0
  · rw [if_pos endless]
    exact .inl ⟨0, w, rfl, rfl⟩
  rw [if_neg endless, bind_of_ok (show getCurrentTimeMs w = .ok (w.clock 0, w.tick) from rfl)]
  by_cases outside : w.clock 0 + ms < -2 ^ 63 ∨ 2 ^ 63 ≤ w.clock 0 + ms
  · rw [if_pos outside]
    exact .inr rfl
  · rw [if_neg outside]
    exact .inl ⟨_, w.tick, rfl, rfl⟩

theorem handleBlockDollar_missing (few : req.args.length ≤ 3) (w : World D) :
    handleBlockDollar req w = .error .missingArg := by
  have missing (i : Nat) (behind : 3 ≤ i) : (req.arg i : M D Bytes) = fault .missingArg := by
    unfold RespRequest.arg
    rw [List.getElem?_eq_none (by omega)]
  unfold handleBlockDollar
  split
  · rw [missing 3 le_rfl]
    rfl
  · rw [missing 4 (by omega)]
    rfl

/-- A word that contains BLOCK is taken for the option, and arguments are read that are not there, unless the clock is
so late that the deadline overflows. -/
theorem plainXread_misread (request : PlainXread req key id) (isIndex : streamsIndex w.fresh req.args = some index)
    (found : w.heap ptr = some client) {block : Nat}
    (isBlock : blockIndex (w.skip (index + 1)).fresh req.args = some block) :
    ∃ f, (f = .missingArg ∨ f = .overflow) ∧ handleStreamPrint req ptr client.fd .xread w = .error f := by
  have few : req.argc - index - 1 < 4 := by
    rw [request.argc]
    omega
  have three : req.args.length ≤ 3 := by
    rw [req.supplied, request.argc]
    decide
  obtain ⟨v, looks⟩ := hasBlock_run req (w.skip (index + 1))
  rw [isBlock] at looks
  have stale : OnlyStale w v := (skip_onlyStale w (index + 1)).trans (hasBlockFrom_onlyStale looks)
  obtain ⟨ms, isMs⟩ : ∃ ms, req.args[block + 1]? = some ms :=
    ⟨_, List.getElem?_eq_getElem (blockIndex_lt isBlock)⟩
  have clockRead : (getCurrentTimeMs : M D Int) v = .ok (v.clock 0, v.tick) := rfl
  -- nothing but the deadline is computed before the missing arguments are read
  have misread : ∃ f, (f = .missingArg ∨ f = .overflow) ∧ handleSingleXread req ptr (w.skip (index + 1)) = .error f := by
    unfold handleSingleXread
    rw [bind_of_ok looks]
    dsimp only
    obtain prints | prints := printArg_ends 3 v
    swap
    · exact ⟨.missingArg, .inl rfl, bind_of_error prints⟩
    rw [bind_of_ok prints]
    obtain prints' | prints' := printArg_ends 4 v
    swap
    · exact ⟨.missingArg, .inl rfl, bind_of_error prints'⟩
    rw [bind_of_ok prints', bind_of_ok clockRead, bind_of_ok (arg_ok.mpr ⟨isMs, rfl⟩)]
    obtain ⟨timeoutAt, timed, times, sameHeap⟩ | late := timeoutAfter_ends (atoi ms) v.tick
    · have found' : timed.heap ptr = some client := by
        rw [sameHeap, World.tick, stale]
        exact found
      rw [bind_of_ok times, bind_of_ok (updateClient_found found')]
      exact ⟨.missingArg, .inl rfl, bind_of_error (handleBlockDollar_missing three _)⟩
    · exact ⟨.overflow, .inr rfl, bind_of_error late⟩
  obtain ⟨f, isFault, fails⟩ := misread
  exact ⟨f, isFault, by rw [handleXread_single isIndex (not_manyKeys few)]; exact bind_of_error fails⟩

theorem answersKey_iff (request : PlainXread req key id) (found : w.heap ptr = some client) :
    AnswersKey w req ptr client key id ↔ streamsIndex w.fresh req.args ≠ none ∧ w.seesBlock req = false := by
  cases isIndex : streamsIndex w.fresh req.args with
  | none =>
    refine iff_of_false (fun answers => ?_) (by simp)
    obtain ⟨v, _, same⟩ := answers.reads
    rw [handleXread_unread isIndex client.fd] at same
    exact answerRead_arg client.fd key id v same.symm
  | some index =>
    have sees : w.seesBlock req = (blockIndex (w.skip (index + 1)).fresh req.args).isSome := by
      unfold World.seesBlock
      rw [isIndex]
      rfl
    rw [sees]
    cases isBlock : blockIndex (w.skip (index + 1)).fresh req.args with
    | none =>
      obtain ⟨v, stale, answers⟩ := plainXread_answers request isIndex found isBlock
      refine iff_of_true ⟨⟨v, stale, answers⟩, fun t run => ?_⟩ (by simp)
      rw [answers] at run
      rw [answerRead_heap run, stale]
    | some block =>
      refine iff_of_false (fun answers => ?_) (by simp)
      obtain ⟨v, _, same⟩ := answers.reads
      obtain ⟨f, rfl | rfl, misread⟩ := plainXread_misread request isIndex found isBlock
      · rw [misread] at same
        exact answerRead_arg client.fd key id v same.symm
      · rw [misread] at same
        exact (staysInRange_answerRead client.fd key id v).2 .overflow same.symm rfl

/-- An ID that was given is returned as it is, without a look at the stream, exactly where no word has a `$`. -/
theorem handleBlockDollar_explicit_iff {ms : Bytes} (request : BlockingXread req ms key id) (isStart : idPair id = some start) :
    (∀ w : World D, handleBlockDollar req w = .ok ((none, 0, id), w)) ↔ hasDollarSign req = false := by
  obtain ⟨block, streams, isArgs, _⟩ := request.words
  have isKey : req.args[3]? = some key := by rw [isArgs]; rfl
  have isId : req.args[4]? = some id := by rw [isArgs]; rfl
  constructor
  · intro explicit
    by_contra dollar
    rw [Bool.not_eq_false] at dollar
    -- with an empty stream the path behind the tail faults
    have fails : ∃ e, handleBlockDollar req (worldWith (D := D) key (.stream .zeroed)) = .error e := by
      by_cases indexed : bucketOf key = none
      · refine ⟨.outOfBounds, handleBlockDollar_error dollar isKey ?_⟩
        rw [lookup, indexed]
      · exact handleBlockDollar_empty dollar isKey (lookup_worldWith indexed _) rfl isId isStart
    obtain ⟨e, fails⟩ := fails
    rw [explicit] at fails
    cases fails
  · exact fun noDollar w => handleBlockDollar_explicit noDollar isId w

/-- XREAD takes its options by position: the plain form is answered from its key and ID, and the form with BLOCK never
takes the path of `$`. -/
structure ReadsByPosition (w : World D) (plain blocking : RespRequest) (ptr : ClientPtr) (client : Client)
    (key id startId : Bytes) : Prop where
  answers : AnswersKey w plain ptr client key id
  explicit : ∀ v : World D, handleBlockDollar blocking v = .ok ((none, 0, startId), v)

/-- In every state, for all keys and all IDs: XREAD takes its options by position if and only if some copy of a word of
the plain form reads `STREAMS`, no copy but that of the last word contains `BLOCK`, and no word of the form with BLOCK
contains a `$`. -/
theorem xread_by_position_iff {plain blocking : RespRequest} {key' ms startId : Bytes} (isPlain : PlainXread plain key id)
    (isBlocking : BlockingXread blocking ms key' startId) (isStart : idPair startId = some start)
    (found : w.heap ptr = some client) :
    ReadsByPosition w plain blocking ptr client key id startId ↔
      (streamsIndex w.fresh plain.args ≠ none ∧ w.seesBlock plain = false) ∧ hasDollarSign blocking = false := by
  constructor
  · rintro ⟨answers, explicit⟩
    exact ⟨(answersKey_iff isPlain found).mp answers, (handleBlockDollar_explicit_iff isBlocking isStart).mp explicit⟩
  · rintro ⟨answers, explicit⟩
    exact ⟨(answersKey_iff isPlain found).mpr answers, (handleBlockDollar_explicit_iff isBlocking isStart).mpr explicit⟩

def readOf (key start : String) : RespRequest := requestOf [lit "XREAD", lit "STREAMS", lit key, lit start]

/-- XREAD of the key k. -/
theorem xread_by_position_iff_k : ReadsByPosition (worldOfReader (lit "k") oneMillisecond { fd := 5 }) (readOf "k" "5-1")
    (blockOn "k" "5-1") 0 { fd := 5 } (lit "k") (lit "5-1") (lit "5-1") :=
  (xread_by_position_iff ⟨lit "STREAMS", by decide +kernel⟩
    (blockOn_request (by decide +kernel))
    (show idPair (lit "5-1") = some (5, 1) by decide +kernel) (found_worldOfReader _ _ _)).mpr
      ⟨by decide +kernel, by decide +kernel⟩

/-- XREAD of the key blocks reads an argument that is not there, and XREAD with BLOCK of the key k$ takes the path of
`$`. -/
theorem xread_options_by_content :
    ¬ AnswersKey (worldOfReader (lit "blocks") oneMillisecond { fd := 5 }) (readOf "blocks" "5-1") 0 { fd := 5 }
        (lit "blocks") (lit "5-1") ∧
      ¬ ∀ v : World Int, handleBlockDollar (blockOn "k$" "5-1") v = .ok ((none, 0, lit "5-1"), v) := by
  have isPlain : PlainXread (readOf "blocks" "5-1") (lit "blocks") (lit "5-1") := ⟨lit "STREAMS", by decide +kernel⟩
  have isBlocking : BlockingXread (blockOn "k$" "5-1") (lit "0") (lit "k$") (lit "5-1") :=
    blockOn_request (by decide +kernel)
  have isStart : idPair (lit "5-1") = some (5, 1) := by decide +kernel
  constructor
  · rw [answersKey_iff isPlain (found_worldOfReader _ _ _)]
    decide +kernel
  · rw [handleBlockDollar_explicit_iff isBlocking isStart]
    decide +kernel

end Position

end RedisClone
