import RedisClone.Verified.Handlers

/-! # What the string and stream arms may do

The handlers of `handler.c` itself: GET, TYPE, SET, INCR, XADD, XRANGE and XREAD.  Which arguments
XREAD reads depends on the stale memory behind the upper-case copies of its words, on whether its
key is bound to a stream, and on whether that stream has a last entry (`XreadSupplied`).
-/

namespace RedisClone

open Exec CString

variable {D : Type} {R : World D → World D → Prop} {F : Fault → Prop}

/-! ## Runs that leave the table -/

def SameTable (w w' : World D) : Prop := w'.table = w.table

theorem ambient_sameTable : Ambient (SameTable (D := D)) fun _ => True where
  composes := ⟨fun _ => rfl, fun first second => second.trans first⟩
  emit _ _ _ := rfl
  tick _ := rfl
  takeFresh _ := rfl
  change _ _ _ _ _ _ _ := rfl
  authorize _ _ _ := rfl
  faults _ _ _ := trivial

theorem mayBlock_sameTable : MayBlock (SameTable (D := D)) :=
  ⟨fun _ _ _ _ _ _ => rfl, fun _ _ _ => rfl⟩

variable (ambient : Ambient R F) {req : RespRequest} {clientFd : Int} {ptr : ClientPtr}
  {w : World D}
include ambient

/-! ## Strings -/

theorem obeys_handleEcho (enough : F .missingArg ∨ 1 ≤ req.argc) :
    Obeys R F (handleEcho req clientFd : M D Unit) := by
  refine obeys_seq ambient (obeys_arg ambient (enough.imp_right fun _ => by omega)) fun word => ?_
  exact obeys_sendText ambient _ _ _

/-- The time of the entry has not passed at the next reading of the clock. -/
def Live (w : World D) (entry : Entry D) : Prop :=
  entry.expiresAt = 0 ∨ w.clock 0 < entry.expiresAt

omit ambient in
theorem storeGet_value {key : Bytes} {value : Value D} {w t : World D}
    (run : storeGet key w = .ok (some value, t)) :
    ∃ entry, lookup w.table key = .ok (some entry) ∧ Live w entry ∧ entry.value = value := by
  unfold storeGet at run
  rw [bind_run, storeGetEntry_run] at run
  cases bound : lookup w.table key with
  | error f => simp [bound] at run
  | ok result =>
    cases result with
    | none => simp [bound] at run
    | some entry =>
      simp only [bound] at run
      refine ⟨entry, rfl, ?_⟩
      split at run
      · rw [bind_of_ok (show getCurrentTimeMs w = .ok (w.clock 0, w.tick) from rfl)] at run
        split at run
        · simp at run
        · simp only [pure_run, Except.ok.injEq, Prod.mk.injEq, Option.some.injEq] at run
          exact ⟨.inr (by omega), run.1⟩
      · rename_i forever
        simp only [pure_run, Except.ok.injEq, Prod.mk.injEq, Option.some.injEq] at run
        exact ⟨.inl (not_not.mp forever), run.1⟩

/-- The key of GET is bound to a string, not bound, or expired. -/
def LiveString (w : World D) (req : RespRequest) : Prop :=
  ∀ key entry, req.args[0]? = some key → lookup w.table key = .ok (some entry) → Live w entry →
    entry.type = .string

theorem obeysAt_handleGet (enough : F .missingArg ∨ 1 ≤ req.argc)
    (typed : F .typeConfusion ∨ LiveString w req) : ObeysAt R F (handleGet req clientFd) w := by
  refine obeysAt_arg ambient (enough.imp_right fun _ => by omega) fun key isKey => ?_
  refine ObeysAt.bind ambient.composes (obeys_storeGet ambient key w) fun result t run => ?_
  cases result with
  | none => exact obeys_send ambient _ _ t
  | some value =>
    obtain ⟨entry, bound, live, rfl⟩ := storeGet_value run
    have isString := typed.imp_right fun holds => holds key entry isKey bound live
    refine obeys_seq ambient (obeys_cast ambient asString_casts isString) (fun text => ?_) t
    exact obeys_sendText ambient _ _ _

theorem obeys_handleType (enough : F .missingArg ∨ 1 ≤ req.argc) :
    Obeys R F (handleType req clientFd : M D Unit) := by
  refine obeys_seq ambient (obeys_arg ambient (enough.imp_right fun _ => by omega)) fun key => ?_
  refine obeys_seq ambient (obeys_storeGetEntry ambient key) fun entry => ?_
  cases entry <;> exact obeys_send ambient _ _

theorem obeysAt_handleIncr (enough : F .missingArg ∨ 1 ≤ req.argc)
    (typed : F .typeConfusion ∨ KeyHolds w req .string) (writes : WritesKey R req) :
    ObeysAt R F (handleIncr req clientFd) w := by
  refine obeysAt_arg ambient (enough.imp_right fun _ => by omega) fun key isKey => ?_
  have mayWrite := writes key isKey
  refine ObeysAt.bind ambient.composes (obeys_storeGetEntry ambient key w) fun result t run => ?_
  cases result with
  | none =>
    refine obeys_seq ambient (obeys_storeSet ambient mayWrite _ _ _) (fun _ => ?_) t
    exact obeys_send ambient _ _
  | some entry =>
    have bound : lookup w.table key = .ok (some entry) := by
      rw [storeGetEntry_run] at run
      cases found : lookup w.table key with
      | error f => simp [found] at run
      | ok result =>
        simp only [found, Except.ok.injEq, Prod.mk.injEq] at run
        rw [run.1]
    have isString := typed.imp_right fun holds => holds key isKey entry bound
    refine Obeys.ite (fun _ => obeys_fault ambient (by decide) (by decide)) (fun _ => ?_) t
    refine obeys_seq ambient (obeys_cast ambient asString_casts isString) fun text => ?_
    refine Obeys.ite (fun _ => obeys_send ambient _ _) fun _ => ?_
    refine Obeys.ite (fun _ => obeys_fault ambient (by decide) (by decide)) fun _ => ?_
    refine obeys_seq ambient (obeys_storeSet ambient mayWrite _ _ _) fun _ => ?_
    exact obeys_send ambient _ _

/-! ## Stream IDs -/

theorem obeys_scanned (value : Option Int) : Obeys R F (scanned value : M D Int) := by
  cases value with
  | none => exact obeys_indeterminateInt ambient
  | some value => exact obeys_pure ambient value

theorem obeys_scanId (id : Bytes) : Obeys R F (scanId id : M D (Int × Int)) := by
  refine obeys_seq ambient (obeys_scanned ambient _) fun ms => ?_
  exact obeys_seq ambient (obeys_scanned ambient _) fun seq => obeys_pure ambient _

theorem obeys_isBigger (srcId checkId : Bytes) : Obeys R F (isBigger srcId checkId : M D Bool) := by
  refine obeys_seq ambient (obeys_scanId ambient _) fun src => ?_
  exact obeys_seq ambient (obeys_scanId ambient _) fun check => obeys_pure ambient _

theorem obeys_scannedText (text : Option Bytes) : Obeys R F (scannedText text : M D Bytes) := by
  cases text with
  | none => exact obeys_seq ambient (obeys_indeterminate ambient) fun block => obeys_pure ambient _
  | some text => exact obeys_pure ambient text

theorem obeys_validateStreamId (id tailId : Bytes) :
    Obeys R F (validateStreamId id tailId : M D (Option Bytes)) := by
  refine Obeys.ite (fun _ => obeys_pure ambient none) fun _ => ?_
  refine Obeys.ite (fun _ => obeys_pure ambient _) fun _ => ?_
  refine obeys_seq ambient (obeys_scannedText ambient _) fun ms => ?_
  refine obeys_seq ambient (obeys_scannedText ambient _) fun seq => ?_
  refine Obeys.ite (fun _ => obeys_pure ambient _) fun _ => ?_
  refine Obeys.ite (fun _ => obeys_pure ambient _) fun _ => ?_
  split
  · refine Obeys.ite (fun _ => obeys_pure ambient _) fun _ => ?_
    refine obeys_seq ambient (obeys_isBigger ambient _ _) fun bigger => ?_
    exact Obeys.ite (fun _ => obeys_pure ambient _) fun _ => obeys_pure ambient none
  · exact obeys_pure ambient _

theorem obeys_checkStreamId (id : Bytes) (tail : Option StreamEntry) :
    Obeys R F (checkStreamId id tail : M D (Option Bytes)) := by
  cases tail with
  | none => exact obeys_pure ambient none
  | some tail => exact obeys_validateStreamId ambient _ _

theorem obeys_nextSeq (stream : Stream) : Obeys R F (nextSeq stream : M D Int) :=
  Obeys.ite (fun _ => obeys_fault ambient (by decide) (by decide)) fun _ => obeys_pure ambient _

theorem obeys_generatedPair (stream : Stream) (id : Bytes) (now : Int) :
    Obeys R F (generatedPair stream id now : M D (Int × Int)) := by
  refine Obeys.ite (fun _ => ?_) fun _ => ?_
  · refine obeys_seq ambient (obeys_scanned ambient _) fun finalMs => ?_
    refine Obeys.ite (fun _ => ?_) fun _ => obeys_pure ambient _
    exact obeys_seq ambient (obeys_nextSeq ambient _) fun seq => obeys_pure ambient _
  · refine Obeys.ite (fun _ => obeys_pure ambient _) fun _ => ?_
    refine Obeys.ite (fun _ => obeys_pure ambient _) fun _ => ?_
    exact obeys_seq ambient (obeys_nextSeq ambient _) fun seq => obeys_pure ambient _

theorem obeys_chooseId (stream : Stream) (id : Bytes) :
    Obeys R F (chooseId stream id : M D Bytes) := by
  refine Obeys.ite (fun _ => ?_) fun _ => obeys_pure ambient id
  refine obeys_seq ambient (obeys_getCurrentTimeMs ambient) fun now => ?_
  exact obeys_seq ambient (obeys_generatedPair ambient _ _ _) fun pair => obeys_pure ambient _

/-! ## Reading a stream -/

theorem obeys_selectEntries (size : Nat) (start stop : Int × Int) (isXrange : Bool)
    (remaining : Nat) (entries : List StreamEntry) (buffer : Buffer) (count : Nat) :
    Obeys R F (selectEntries size start stop isXrange remaining entries buffer count :
      M D (Buffer × Nat)) := by
  induction remaining generalizing entries buffer count with
  | zero => exact obeys_pure ambient _
  | succ remaining inductionHypothesis =>
    cases entries with
    | nil => exact obeys_fault ambient (by decide) (by decide)
    | cons entry entries =>
      refine obeys_seq ambient (obeys_scanId ambient _) fun current => ?_
      refine Obeys.ite (fun _ => ?_) fun _ => inductionHypothesis _ _ _
      exact obeys_seq ambient (obeys_appendAll ambient _ _ _) fun _ => inductionHypothesis _ _ _

theorem obeys_idOf (entry : Option StreamEntry) : Obeys R F (idOf entry : M D Bytes) := by
  cases entry with
  | none => exact obeys_fault ambient (by decide) (by decide)
  | some entry => exact obeys_pure ambient _

theorem obeys_scanBound (text wildcard : Bytes) (ending : Option StreamEntry) :
    Obeys R F (scanBound text wildcard ending : M D (Int × Int)) := by
  refine Obeys.ite (fun _ => ?_) fun _ => obeys_scanId ambient _
  exact obeys_seq ambient (obeys_idOf ambient _) fun id => obeys_scanId ambient _

/-- The key is bound to this stream. -/
def HoldsStream (table : Table D) (key : Bytes) (stream : Stream) : Prop :=
  ∃ expiresAt, lookup table key = .ok (some ⟨.stream stream, expiresAt⟩)

/-- A walk to a key, after which the rest goes on from the same state. -/
theorem obeysAt_byEntry {α : Type} {key : Bytes} {f : Option (Entry D) → M D α}
    (rest : ∀ entry, ObeysAt R F (f entry) w) : ObeysAt R F (storeGetEntry key >>= f) w := by
  refine ObeysAt.bind ambient.composes (obeys_storeGetEntry ambient key w) fun entry t run => ?_
  rw [storeGetEntry_run] at run
  cases bound : lookup w.table key with
  | error f => simp [bound] at run
  | ok result =>
    simp only [bound, Except.ok.injEq, Prod.mk.injEq] at run
    exact run.2 ▸ rest entry

/-- A walk to a key that branches on whether it is bound to a stream. -/
theorem obeysAt_byStream {α : Type} {key : Bytes} {f : Option (Entry D) → M D α}
    (whenStream : ∀ stream expiresAt, HoldsStream w.table key stream →
      ObeysAt R F (f (some ⟨.stream stream, expiresAt⟩)) w)
    (otherwise : ∀ entry, (∀ stream expiresAt, entry ≠ some ⟨.stream stream, expiresAt⟩) →
      ObeysAt R F (f entry) w) : ObeysAt R F (storeGetEntry key >>= f) w := by
  refine ObeysAt.bind ambient.composes (obeys_storeGetEntry ambient key w) fun entry t run => ?_
  rw [storeGetEntry_run] at run
  cases bound : lookup w.table key with
  | error f => simp [bound] at run
  | ok result =>
    simp only [bound, Except.ok.injEq, Prod.mk.injEq] at run
    obtain ⟨rfl, rfl⟩ := run
    by_cases isStream : ∃ stream expiresAt, result = some ⟨.stream stream, expiresAt⟩
    · obtain ⟨stream, expiresAt, rfl⟩ := isStream
      exact whenStream stream expiresAt ⟨expiresAt, bound⟩
    · exact otherwise result fun stream expiresAt same => isStream ⟨stream, expiresAt, same⟩

theorem obeys_entriesPrinted (bufSize : Nat) (entriesToPrint : Buffer) (count : Nat) :
    Obeys R F (entriesPrinted bufSize entriesToPrint count : M D Bytes) :=
  Obeys.ite (fun _ => obeys_seq ambient (obeys_indeterminate ambient) fun _ => obeys_pure ambient _)
    fun _ => obeys_pure ambient _

theorem obeys_rangeSize (length : Nat) : Obeys R F (rangeSize length : M D Nat) :=
  Obeys.ite (fun _ => obeys_fault ambient (by decide) (by decide)) fun _ => obeys_pure ambient _

omit ambient in
theorem rangeSize_run {length : Nat} (few : length < 2 ^ 23) (w : World D) :
    rangeSize length w = .ok (64 + length * 256, w) := by
  unfold rangeSize
  rw [if_neg (by omega)]
  rfl

omit ambient in
/-- The size of the block was computed without an overflow. -/
theorem rangeSize_ok {length bufSize : Nat} {t : World D} (run : rangeSize length w = .ok (bufSize, t)) :
    length < 2 ^ 23 ∧ bufSize = 64 + length * 256 ∧ t = w := by
  unfold rangeSize at run
  by_cases wraps : 2 ^ 31 ≤ 64 + length * 256
  · rw [if_pos wraps] at run
    cases run
  · rw [if_neg wraps, pure_run, Except.ok.injEq, Prod.mk.injEq] at run
    exact ⟨by omega, run.1.symm, run.2.symm⟩

theorem obeysAt_streamEntryToString {idStart idEnd : M D Bytes} {key : Bytes}
    (bounds : ∀ stream, HoldsStream w.table key stream → Obeys R F idStart ∧ Obeys R F idEnd) :
    ObeysAt R F (streamEntryToString idStart idEnd key) w := by
  refine obeysAt_byStream ambient (fun stream expiresAt holds => ?_) fun entry notStream => ?_
  · obtain ⟨startObeys, endObeys⟩ := bounds stream holds
    refine obeys_seq ambient startObeys (fun startText => ?_) w
    refine obeys_seq ambient endObeys fun endText => ?_
    refine obeys_seq ambient (obeys_scanBound ambient _ _ _) fun start => ?_
    refine obeys_seq ambient (obeys_scanBound ambient _ _ _) fun stop => ?_
    refine obeys_seq ambient (obeys_rangeSize ambient _) fun bufSize => ?_
    refine obeys_seq ambient (obeys_selectEntries ambient _ _ _ _ _ _ _ _) fun selected => ?_
    exact obeys_seq ambient (obeys_entriesPrinted ambient _ _ _) fun _ => obeys_pure ambient _
  · split
    · exact absurd rfl (notStream _ _)
    · exact obeys_pure ambient _ w

theorem obeys_xreadBounds (startText idEnd : Bytes) (stream : Stream) :
    Obeys R F (xreadBounds startText idEnd stream : M D ((Int × Int) × Int × Int)) := by
  refine Obeys.ite (fun _ => ?_) fun _ => ?_
  · refine obeys_seq ambient (obeys_scanId ambient _) fun start => ?_
    exact obeys_seq ambient (obeys_scanId ambient _) fun stop => obeys_pure ambient _
  · refine obeys_seq ambient (obeys_scanBound ambient _ _ _) fun start => ?_
    exact obeys_seq ambient (obeys_scanBound ambient _ _ _) fun stop => obeys_pure ambient _

theorem obeysAt_streamEntryXreadToString {idStart : M D Bytes} {idEnd key : Bytes}
    (bound : ∀ stream, HoldsStream w.table key stream → Obeys R F idStart) :
    ObeysAt R F (streamEntryXreadToString idStart idEnd key) w := by
  refine ObeysAt.bind_kept ambient.composes (obeys_indeterminate ambient w)
    (obeys_indeterminate ambient_sameTable w) fun block t sameTable => ?_
  refine obeysAt_byStream ambient (fun stream expiresAt holds => ?_) fun entry notStream => ?_
  · refine obeys_seq ambient (bound stream (sameTable ▸ holds)) (fun startText => ?_) t
    refine obeys_seq ambient (obeys_xreadBounds ambient _ _ _) fun bounds => ?_
    refine obeys_seq ambient (obeys_idOf ambient _) fun _ => ?_
    refine obeys_seq ambient (obeys_selectEntries ambient _ _ _ _ _ _ _ _) fun selected => ?_
    exact Obeys.ite (fun _ => obeys_pure ambient _) fun _ => obeys_pure ambient _
  · split
    · exact absurd rfl (notStream _ _)
    · exact obeys_pure ambient _ t

/-! ## XADD and SET -/

theorem obeys_tryDeliverStreamData (mayBlock : MayBlock R) (ptr : ClientPtr) :
    Obeys R F (tryDeliverStreamData ptr : M D Unit) := by
  refine obeys_seq ambient (obeys_loadClient ambient ptr) fun client => ?_
  split
  · refine obeys_seq ambient (fun w => ?_) fun delivery => ?_
    · exact obeysAt_streamEntryXreadToString ambient fun _ _ => obeys_pure ambient _
    · obtain ⟨messages, count⟩ := delivery
      cases messages with
      | none => exact obeys_pure ambient ()
      | some messages =>
        refine Obeys.ite (fun _ => ?_) fun _ => obeys_pure ambient ()
        refine obeys_seq ambient (obeys_send ambient _ _) fun _ => ?_
        refine obeys_blockClient ambient mayBlock ?_ ptr
        exact fun _ => rfl
  · exact obeys_pure ambient ()

theorem obeys_wakeStreamReader (mayBlock : MayBlock R) (key : Bytes) (slot : ClientSlot) :
    Obeys R F (wakeStreamReader key slot : M D Unit) := by
  refine obeys_seq ambient (obeys_clientAt ambient slot) fun occupant => ?_
  cases occupant with
  | none => exact obeys_pure ambient ()
  | some occupant =>
    exact Obeys.ite (fun _ => obeys_tryDeliverStreamData ambient mayBlock _)
      fun _ => obeys_pure ambient ()

theorem obeys_storeOpened {key : Bytes} (mayWrite : MayWrite R key) (stream : Stream) :
    Obeys R F (storeOpened key stream : M D Unit) := by
  refine obeys_seq ambient (obeys_tableIndex ambient key) fun bucket => ?_
  refine obeys_seq ambient (obeys_observe ambient _) fun table => ?_
  exact Obeys.ite (fun _ => obeys_fault ambient (by decide) (by decide))
    fun _ => obeys_storeSetContainer ambient mayWrite _

theorem obeys_appendEntry {key : Bytes} (mayWrite : MayWrite R key) (stream : Stream)
    (entry : StreamEntry) (ms seq : Int) :
    Obeys R F (appendEntry key stream entry ms seq : M D Unit) := by
  refine Obeys.ite (fun _ => obeys_storeOpened ambient mayWrite _) fun _ => ?_
  exact Obeys.ite (fun _ => obeys_fault ambient (by decide) (by decide))
    fun _ => obeys_updateEntry ambient mayWrite _

theorem obeys_sendEntryId (id : Bytes) : Obeys R F (sendEntryId clientFd id : M D Unit) := by
  refine obeys_seq ambient (obeys_config ambient) fun server => ?_
  refine Obeys.ite (fun _ => ?_) fun _ => obeys_pure ambient ()
  refine Obeys.ite (fun _ => obeys_sendPrefix ambient _ _ _) fun _ => ?_
  exact obeys_seq ambient (obeys_staleBytes ambient _) fun _ => obeys_send ambient _ _

theorem obeysAt_handleSetStream (mayBlock : MayBlock R) (enough : 2 ≤ req.argc)
    (typed : F .typeConfusion ∨ KeyHolds w req .stream) (writes : WritesKey R req) :
    ObeysAt R F (handleSetStream req clientFd) w := by
  refine obeysAt_arg ambient (.inr (by omega)) fun key isKey => ?_
  have mayWrite := writes key isKey
  have holds := typed.imp_right fun holds => holds key isKey
  refine obeysAt_seq ambient (obeysAt_withPayload ambient asStream_casts holds
    (obeys_pure ambient _) fun stream => obeys_pure ambient stream) fun stream => ?_
  refine obeys_seq ambient (obeys_arg ambient (.inr (by omega))) fun id => ?_
  refine obeys_seq ambient (obeys_checkStreamId ambient _ _) fun errorMsg => ?_
  cases errorMsg with
  | some errorResp => exact obeys_sendUnlessMaster ambient _ _
  | none =>
    refine obeys_seq ambient (obeys_chooseId ambient _ _) fun entryId => ?_
    refine obeys_seq ambient (obeys_scanId ambient _) fun pair => ?_
    refine obeys_seq ambient (obeys_appendEntry ambient mayWrite _ _ _ _) fun _ => ?_
    refine obeys_seq ambient (obeys_sendEntryId ambient _) fun _ => ?_
    exact obeys_forM ambient _ fun slot _ => obeys_wakeStreamReader ambient mayBlock key slot

theorem obeysAt_handleSet (type : RedisType) (mayBlock : type = .stream → MayBlock R)
    (typed : F .typeConfusion ∨ (2 ≤ req.argc → type = .stream → KeyHolds w req .stream))
    (writes : 2 ≤ req.argc → WritesKey R req) : ObeysAt R F (handleSet req type clientFd) w := by
  unfold handleSet
  split
  · exact obeys_pure ambient () w
  · have enough : 2 ≤ req.argc := by omega
    cases type with
    | stream =>
      exact obeysAt_handleSetStream ambient (mayBlock rfl) enough
        (typed.imp_right fun holds => holds enough rfl) (writes enough)
    | string =>
      refine obeysAt_arg ambient (.inr (by omega)) fun key isKey => ?_
      have mayWrite := writes enough key isKey
      refine obeys_seq ambient (obeys_arg ambient (.inr (by omega))) (fun value => ?_) w
      refine obeys_seq ambient (obeys_storeSet ambient mayWrite _ _ _) fun _ => ?_
      exact obeys_sendUnlessMaster ambient _ _
    | list | hash | zset | set => exact obeys_pure ambient () w

/-! ## The words of XREAD -/

/-- What a reader of an upper-case copy in this block sees. -/
def upperText (block word : Bytes) : Bytes := upper word ++ untilNul (block.drop word.length)

def laterBlocks (fresh : Nat → Bytes) (n : Nat) : Bytes := fresh (n + 1)

/-- The index of the first word whose copy reads `STREAMS`, each in the next stale block. -/
def streamsIndex (fresh : Nat → Bytes) : List Bytes → Option Nat
  | [] => none
  | word :: rest =>
    if upperText (fresh 0) word = lit "STREAMS" then some 0
    else (streamsIndex (laterBlocks fresh) rest).map (· + 1)

/-- The index of the first word but the last whose copy has `BLOCK` in it. -/
def blockIndex (fresh : Nat → Bytes) : List Bytes → Option Nat
  | [] => none
  | word :: rest =>
    if strstr (upperText (fresh 0) word) (lit "BLOCK") ∧ rest ≠ [] then some 0
    else (blockIndex (laterBlocks fresh) rest).map (· + 1)

omit ambient in
theorem toUpperCopy_run (word : Bytes) (w : World D) :
    toUpperCopy word w = .ok (upperText (w.fresh 0) word, w.takeFresh) := rfl

theorem obeys_toUpperCopy (word : Bytes) : Obeys R F (toUpperCopy word : M D Bytes) :=
  obeys_seq ambient (obeys_indeterminate ambient) fun _ => obeys_pure ambient _

omit ambient in
theorem findStreams_run (index : Nat) (words : List Bytes) (w : World D) :
    findStreams index words w =
      match streamsIndex w.fresh words with
      | some found => .ok (index + found, World.takeFresh^[found + 1] w)
      | none => .error .missingArg := by
  induction words generalizing index w with
  | nil => rfl
  | cons word rest inductionHypothesis =>
    rw [findStreams, bind_of_ok (toUpperCopy_run word w), streamsIndex]
    by_cases isStreams : upperText (w.fresh 0) word = lit "STREAMS"
    · rw [if_pos isStreams, if_pos isStreams]
      rfl
    · rw [if_neg isStreams, if_neg isStreams, inductionHypothesis]
      change (match streamsIndex (laterBlocks w.fresh) rest with | some _ => _ | none => _) = _
      cases streamsIndex (laterBlocks w.fresh) rest with
      | none => rfl
      | some found =>
        simp only [Option.map_some, Function.iterate_succ_apply]
        rw [Nat.add_assoc, Nat.add_comm 1 found]

omit ambient in
theorem hasBlockFrom_run (index : Nat) (words : List Bytes) (w : World D) :
    ∃ t, hasBlockFrom index words w = .ok ((blockIndex w.fresh words).map (index + ·), t) := by
  induction words generalizing index w with
  | nil => exact ⟨w, rfl⟩
  | cons word rest inductionHypothesis =>
    rw [hasBlockFrom, bind_of_ok (toUpperCopy_run word w), blockIndex]
    by_cases isBlock : strstr (upperText (w.fresh 0) word) (lit "BLOCK") ∧ rest ≠ []
    · rw [if_pos isBlock, if_pos isBlock]
      exact ⟨w.takeFresh, rfl⟩
    · rw [if_neg isBlock, if_neg isBlock]
      obtain ⟨t, run⟩ := inductionHypothesis (index + 1) w.takeFresh
      refine ⟨t, run.trans ?_⟩
      change Except.ok (Option.map (index + 1 + ·) (blockIndex (laterBlocks w.fresh) rest), t) = _
      cases blockIndex (laterBlocks w.fresh) rest with
      | none => rfl
      | some found =>
        simp only [Option.map_some]
        rw [Nat.add_assoc, Nat.add_comm 1 found]

omit ambient in
theorem hasBlock_run (req : RespRequest) (w : World D) :
    ∃ t, hasBlock req w = .ok (blockIndex w.fresh req.args, t) := by
  obtain ⟨t, run⟩ := hasBlockFrom_run 0 req.args w
  refine ⟨t, run.trans ?_⟩
  cases blockIndex w.fresh req.args with
  | none => rfl
  | some index => rw [Option.map_some, Nat.zero_add]

omit ambient in
theorem blockIndex_lt {fresh : Nat → Bytes} {words : List Bytes} {index : Nat}
    (found : blockIndex fresh words = some index) : index + 1 < words.length := by
  induction words generalizing fresh index with
  | nil => simp [blockIndex] at found
  | cons word rest inductionHypothesis =>
    rw [blockIndex] at found
    split at found
    · rename_i isBlock
      have := List.length_pos_of_ne_nil isBlock.2
      simp only [Option.some.injEq] at found
      simp only [List.length_cons]
      omega
    · simp only [Option.map_eq_some_iff] at found
      obtain ⟨later, foundLater, same⟩ := found
      have := inductionHypothesis foundLater
      simp only [List.length_cons]
      omega

theorem obeys_hasBlock : Obeys R F (hasBlock req : M D (Option Nat)) := by
  unfold hasBlock
  generalize 0 = index
  induction req.args generalizing index with
  | nil => exact obeys_pure ambient none
  | cons word rest inductionHypothesis =>
    refine obeys_seq ambient (obeys_toUpperCopy ambient word) fun wordInUpper => ?_
    exact Obeys.ite (fun _ => obeys_pure ambient _) fun _ => inductionHypothesis _

/-! ## XREAD -/

/-- From every state with this table. -/
def ObeysFrom {α : Type} (R : World D → World D → Prop) (F : Fault → Prop) (table : Table D)
    (x : M D α) : Prop :=
  ∀ t, t.table = table → ObeysAt R F x t

/-- Sequencing, where the first part leaves the table. -/
theorem obeysFrom_seq {α β : Type} {table : Table D} {x : M D α} {f : α → M D β}
    (first : Obeys R F x) (kept : Obeys SameTable (fun _ => True) x)
    (rest : ∀ a, ObeysFrom R F table (f a)) : ObeysFrom R F table (x >>= f) := by
  intro t sameTable
  refine ObeysAt.bind_kept ambient.composes (first t) (kept t) fun a u same => ?_
  exact rest a u (same.trans sameTable)

/-- The key of a blocking XREAD is bound to a stream that has a last entry. -/
def HasTail (table : Table D) (req : RespRequest) : Prop :=
  ∃ key stream tail, req.args[3]? = some key ∧ HoldsStream table key stream ∧
    stream.tail = some tail

/-- The arguments that a blocking XREAD reads. -/
def BlockSupplied (table : Table D) (req : RespRequest) : Prop :=
  5 ≤ req.argc ∨
    (4 ≤ req.argc ∧ req.unused = .null ∧ hasDollarSign req ∧ HasTail table req)

/-- The arguments that an XREAD of one key reads. -/
def ReadSupplied (table : Table D) (req : RespRequest) : Prop :=
  2 ≤ req.argc ∧
    ∀ key stream, req.args[1]? = some key → HoldsStream table key stream → 3 ≤ req.argc

omit ambient in
theorem lastStreamEntry_run {key : Bytes} {result : Option StreamEntry} {w t : World D}
    (run : lastStreamEntry key w = .ok (result, t)) :
    t = w ∧ ∀ stream, HoldsStream w.table key stream → result = stream.tail := by
  unfold lastStreamEntry at run
  rw [bind_run, storeGetEntry_run] at run
  cases bound : lookup w.table key with
  | error f => simp [bound] at run
  | ok entry =>
    simp only [bound] at run
    split at run
    · rename_i stored expiresAt
      simp only [pure_run, Except.ok.injEq, Prod.mk.injEq] at run
      refine ⟨run.2.symm, fun stream holds => ?_⟩
      obtain ⟨other, same⟩ := holds
      rw [bound] at same
      simp only [Except.ok.injEq, Option.some.injEq, Entry.mk.injEq, Value.stream.injEq] at same
      rw [← run.1, same.1]
    · rename_i notStream
      simp only [pure_run, Except.ok.injEq, Prod.mk.injEq] at run
      refine ⟨run.2.symm, fun stream holds => ?_⟩
      obtain ⟨other, same⟩ := holds
      rw [bound] at same
      simp only [Except.ok.injEq] at same
      exact absurd same (notStream _ _)

theorem obeys_lastStreamEntry (key : Bytes) :
    Obeys R F (lastStreamEntry key : M D (Option StreamEntry)) := by
  refine obeys_seq ambient (obeys_storeGetEntry ambient key) fun entry => ?_
  split <;> exact obeys_pure ambient _

theorem obeysAt_handleBlockDollar (enough : F .missingArg ∨ BlockSupplied w.table req) :
    ObeysAt R F (handleBlockDollar req) w := by
  have atLeastFour : F .missingArg ∨ (3 : Nat) < req.argc :=
    enough.imp_right fun supplied => by
      obtain five | ⟨four, _⟩ := supplied <;> omega
  unfold handleBlockDollar
  split
  · rename_i dollar
    refine obeysAt_arg ambient atLeastFour fun key isKey => ?_
    refine ObeysAt.bind ambient.composes (obeys_lastStreamEntry ambient key w) fun entry t run => ?_
    obtain ⟨rfl, isTail⟩ := lastStreamEntry_run run
    cases entry with
    | none =>
      have atLeastFive : F .missingArg ∨ (4 : Nat) < req.argc := by
        refine enough.imp_right fun supplied => ?_
        obtain five | ⟨_, _, _, key', stream, tail, isKey', holds, hasTail⟩ := supplied
        · omega
        · obtain rfl : key = key' := by simpa [isKey] using isKey'
          rw [← isTail stream holds] at hasTail
          simp at hasTail
      refine obeysAt_seq ambient (obeysAt_streamEntryXreadToString ambient fun _ _ =>
        obeys_arg ambient atLeastFive) fun delivery => ?_
      exact obeys_seq ambient (obeys_arg ambient atLeastFive) fun minId => obeys_pure ambient _
    | some entry =>
      exact obeysAt_seq ambient (obeysAt_streamEntryXreadToString ambient fun _ _ =>
        obeys_pure ambient _) fun delivery => obeys_pure ambient _
  · rename_i noDollar
    refine obeysAt_arg ambient (enough.imp_right fun supplied => ?_) fun minId _ =>
      obeys_pure ambient _ w
    obtain five | ⟨_, _, dollar, _⟩ := supplied
    · omega
    · exact absurd dollar noDollar

/-- The arguments that XREAD reads once it found one key, from a state with these stale blocks. -/
def SingleSupplied (table : Table D) (fresh : Nat → Bytes) (req : RespRequest) : Prop :=
  match blockIndex fresh req.args with
  | some _ => BlockSupplied table req
  | none => ReadSupplied table req

theorem obeysAt_handleSingleXread (mayRead : MayRead R ptr)
    (enough : F .missingArg ∨ SingleSupplied w.table w.fresh req) :
    ObeysAt R F (handleSingleXread req ptr) w := by
  obtain ⟨scannedWorld, scan⟩ := hasBlock_run req w
  have sameTable : scannedWorld.table = w.table :=
    (obeys_hasBlock ambient_sameTable w).1 _ _ scan
  refine ObeysAt.bind ambient.composes (obeys_hasBlock ambient w) fun block t run => ?_
  obtain ⟨rfl, rfl⟩ : blockIndex w.fresh req.args = block ∧ scannedWorld = t := by
    have same := scan.symm.trans run
    simpa using same
  unfold SingleSupplied at enough
  cases block : blockIndex w.fresh req.args with
  | some index =>
    rw [block] at enough
    have inside := blockIndex_lt block
    have supplied := req.supplied
    -- with BLOCK: args[3] and args[4] are printed first, as the key and the id
    have printed (i : Nat) (small : i ≤ 4) :
        F .missingArg ∨ req.unused = .null ∨ (i : Int) < req.argc := by
      refine enough.imp_right fun supplied => ?_
      obtain five | ⟨_, isNull, _⟩ := supplied
      · exact .inr (by omega)
      · exact .inl isNull
    have atLeastFour : F .missingArg ∨ (3 : Nat) < req.argc :=
      enough.imp_right fun supplied => by
        obtain five | ⟨four, _⟩ := supplied <;> omega
    refine (?_ : ObeysFrom R F w.table _) scannedWorld sameTable
    refine obeysFrom_seq ambient (obeys_printArg ambient (printed 3 (by omega)))
      (obeys_printArg ambient_sameTable (.inl trivial)) fun _ => ?_
    refine obeysFrom_seq ambient (obeys_printArg ambient (printed 4 (by omega)))
      (obeys_printArg ambient_sameTable (.inl trivial)) fun _ => ?_
    refine obeysFrom_seq ambient (obeys_getCurrentTimeMs ambient)
      (obeys_getCurrentTimeMs ambient_sameTable) fun _ => ?_
    refine obeysFrom_seq ambient (obeys_arg ambient (.inr (by omega)))
      (obeys_arg ambient_sameTable (.inl trivial)) fun text => ?_
    refine obeysFrom_seq ambient (obeys_timeoutAfter ambient _)
      (obeys_timeoutAfter ambient_sameTable _) fun timeoutAt => ?_
    refine obeysFrom_seq ambient (obeys_readClient ambient mayRead ?_)
      (obeys_blockClient ambient_sameTable mayBlock_sameTable ?_ ptr) fun _ => ?_
    · exact fun _ => ⟨rfl, rfl, id⟩
    · exact fun _ => rfl
    intro blocked unchanged
    refine obeysAt_seq ambient (obeysAt_handleBlockDollar ambient ?_) fun delivery => ?_
    · exact enough.imp_right fun supplied => unchanged ▸ supplied
    refine obeys_seq ambient (obeys_readClient ambient mayRead ?_) fun _ => ?_
    · exact fun _ => ⟨rfl, rfl, id⟩
    refine obeys_seq ambient (obeys_arg ambient atLeastFour) fun key => ?_
    refine Obeys.ite (fun _ => obeys_pure ambient _) fun _ => ?_
    refine obeys_seq ambient (obeys_readClient ambient mayRead ?_) fun _ => obeys_pure ambient _
    exact fun _ => ⟨rfl, rfl, fun _ => rfl⟩
  | none =>
    rw [block] at enough
    -- without BLOCK: args[1] is the key, and args[2] is read where it is bound to a stream
    have atLeastTwo : F .missingArg ∨ (1 : Nat) < req.argc :=
      enough.imp_right fun supplied => by have := supplied.1; omega
    refine (?_ : ObeysFrom R F w.table _) scannedWorld sameTable
    refine obeysFrom_seq ambient (obeys_printArg ambient (atLeastTwo.imp_right .inr))
      (obeys_printArg ambient_sameTable (.inl trivial)) fun _ => ?_
    refine obeysFrom_seq ambient (obeys_loadClient ambient ptr)
      (obeys_loadClient ambient_sameTable ptr) fun client => ?_
    intro t unchanged
    refine obeysAt_arg ambient atLeastTwo fun key isKey => ?_
    refine obeysAt_byEntry ambient fun entry => ?_
    cases entry with
    | none =>
      exact obeys_seq ambient (obeys_send ambient _ _) (fun _ => obeys_pure ambient none) t
    | some entry =>
      refine obeysAt_seq ambient (obeysAt_streamEntryXreadToString ambient fun stream holds =>
        obeys_arg ambient (enough.imp_right fun supplied => ?_)) fun delivery => ?_
      · have := supplied.2 key stream isKey (unchanged ▸ holds)
        omega
      · obtain ⟨messages, count⟩ := delivery
        cases messages with
        | none => exact obeys_seq ambient (obeys_send ambient _ _) fun _ => obeys_pure ambient none
        | some messages =>
          refine Obeys.ite (fun _ => ?_) fun _ => obeys_pure ambient _
          exact obeys_seq ambient (obeys_send ambient _ _) fun _ => obeys_pure ambient none

/-- The words behind `STREAMS` are pairs of more than one key. -/
def ManyKeys (req : RespRequest) (index : Nat) : Prop :=
  (req.argc - index - 1).tmod 2 = 0 ∧ 4 ≤ req.argc - index - 1

/-- The arguments that XREAD reads. -/
def XreadSupplied (w : World D) (req : RespRequest) : Prop :=
  ∃ index, streamsIndex w.fresh req.args = some index ∧
    (ManyKeys req index ∨ SingleSupplied w.table (fun n => w.fresh (n + (index + 1))) req)

omit ambient in
theorem takeFresh_iterate (n : Nat) (w : World D) :
    World.takeFresh^[n] w = { w with fresh := fun k => w.fresh (k + n) } := by
  induction n generalizing w with
  | zero => rfl
  | succ n inductionHypothesis =>
    rw [Function.iterate_succ_apply, inductionHypothesis]
    rfl

theorem obeysAt_findStreams {words : List Bytes}
    (enough : F .missingArg ∨ streamsIndex w.fresh words ≠ none) (index : Nat) :
    ObeysAt R F (findStreams index words) w := by
  induction words generalizing index w with
  | nil => exact Obeys.fault (enough.resolve_right fun found => found rfl) w
  | cons word rest inductionHypothesis =>
    refine ObeysAt.bind ambient.composes (obeys_toUpperCopy ambient word w) fun upperWord t run => ?_
    obtain ⟨rfl, rfl⟩ : upperText (w.fresh 0) word = upperWord ∧ w.takeFresh = t := by
      simpa using (toUpperCopy_run word w).symm.trans run
    split
    · exact obeys_pure ambient _ w.takeFresh
    · rename_i notStreams
      refine inductionHypothesis (enough.imp_right fun found missing => found ?_) _
      rw [streamsIndex, if_neg notStreams]
      rw [show streamsIndex (laterBlocks w.fresh) rest = none from missing]
      rfl

omit ambient in
theorem isMultipleKey_run {keys : Option (Nat × Nat)} {w t : World D}
    (run : isMultipleKey req w = .ok (keys, t)) :
    ∃ index, streamsIndex w.fresh req.args = some index ∧ t = World.takeFresh^[index + 1] w ∧
      ((ManyKeys req index ∧ ∃ streamsLength, 0 < streamsLength ∧
          keys = some (index, streamsLength)) ∨
        ¬ ManyKeys req index ∧ keys = none) := by
  unfold isMultipleKey at run
  obtain ⟨index, found, search, rest⟩ := bind_eq_ok.mp run
  rw [findStreams_run] at search
  cases foundIndex : streamsIndex w.fresh req.args with
  | none => simp [foundIndex] at search
  | some index' =>
    simp only [foundIndex, Nat.zero_add, Except.ok.injEq, Prod.mk.injEq] at search
    obtain ⟨rfl, rfl⟩ := search
    refine ⟨index', rfl, ?_⟩
    split at rest
    · rename_i many
      simp only [pure_run, Except.ok.injEq, Prod.mk.injEq] at rest
      have halves := Int.tdiv_mul_cancel_of_tmod_eq_zero many.1
      exact ⟨rest.2.symm, .inl ⟨many, _, by omega, rest.1.symm⟩⟩
    · rename_i single
      simp only [pure_run, Except.ok.injEq, Prod.mk.injEq] at rest
      exact ⟨rest.2.symm, .inr ⟨single, rest.1.symm⟩⟩

omit ambient in
/-- The arrays of a request for several keys are too small for them. -/
theorem handleMultipleXread_faults (streamIndex : Nat) {streamsLength : Nat}
    (several : 0 < streamsLength) (w : World D) :
    handleMultipleXread req streamIndex streamsLength w = .error .outOfBounds := by
  refine bind_of_error ?_
  rw [copyToArrays, if_pos (by omega)]
  rfl

theorem obeysAt_handleXread (mayRead : MayRead R ptr) (enough : F .missingArg ∨ XreadSupplied w req) :
    ObeysAt R F (handleXread req ptr) w := by
  refine ObeysAt.bind ambient.composes (?_ : ObeysAt R F (isMultipleKey req) w) fun keys t run => ?_
  · refine obeysAt_seq ambient (obeysAt_findStreams ambient (enough.imp_right ?_) 0) fun index => ?_
    · rintro ⟨index, found, _⟩ missing
      simp [missing] at found
    · exact Obeys.ite (fun _ => obeys_pure ambient _) fun _ => obeys_pure ambient _
  · obtain ⟨index, found, rfl, ⟨_, streamsLength, several, rfl⟩ | ⟨single, rfl⟩⟩ :=
      isMultipleKey_run run
    · have faults : handleMultipleXread req index streamsLength (World.takeFresh^[index + 1] w) =
          .error .outOfBounds := handleMultipleXread_faults index several _
      exact ObeysAt.of_error (bind_of_error faults) (ambient.faults _ (by decide) (by decide))
    · refine obeysAt_seq ambient (obeysAt_handleSingleXread ambient mayRead ?_) fun response => ?_
      · refine enough.imp_right fun supplied => ?_
        obtain ⟨index', foundIndex, many | supplied⟩ := supplied
        · obtain rfl : index = index' := by simpa [found] using foundIndex
          exact absurd many single
        · obtain rfl : index = index' := by simpa [found] using foundIndex
          rw [takeFresh_iterate]
          exact supplied
      · cases response <;> exact obeys_pure ambient _

theorem obeys_sendStreamResponse (response : Option Bytes) :
    Obeys R F (sendStreamResponse clientFd response : M D Unit) := by
  cases response with
  | none => exact obeys_seq ambient (obeys_send ambient _ _) fun _ => obeys_send ambient _ _
  | some response => exact obeys_send ambient _ _

/-- The arguments that XRANGE reads. -/
def XrangeSupplied (w : World D) (req : RespRequest) : Prop :=
  1 ≤ req.argc ∧
    ∀ key stream, req.args[0]? = some key → HoldsStream w.table key stream → 3 ≤ req.argc

theorem obeysAt_printArg {i : Nat} {α : Type} {f : Unit → M D α}
    (enough : F .missingArg ∨ req.unused = .null ∨ (i : Int) < req.argc)
    (rest : ObeysAt R F (f ()) w) : ObeysAt R F (req.printArg i >>= f) w := by
  refine ObeysAt.bind ambient.composes (obeys_printArg ambient enough w) fun _ t run => ?_
  obtain rfl : w = t := by
    unfold RespRequest.printArg at run
    cases isArg : req.args[i]? with
    | some value => simpa [isArg] using run
    | none => cases isUnused : req.unused <;> simp [isArg, isUnused, fault] at run; exact run
  exact rest

theorem obeysAt_handleStreamPrint (cmd : RedisCmds) (mayRead : cmd ≠ .xrange → MayRead R ptr)
    (enough : F .missingArg ∨
      (cmd = .xrange → XrangeSupplied w req) ∧ (cmd ≠ .xrange → XreadSupplied w req)) :
    ObeysAt R F (handleStreamPrint req ptr clientFd cmd) w := by
  refine obeysAt_printArg ambient ?_ ?_
  · refine enough.imp_right fun supplied => .inr ?_
    by_cases isXrange : cmd = .xrange
    · have := (supplied.1 isXrange).1
      omega
    · obtain ⟨index, found, _⟩ := supplied.2 isXrange
      have := req.supplied
      cases words : req.args with
      | nil => simp [words, streamsIndex] at found
      | cons word rest =>
        rw [words, List.length_cons] at this
        omega
  · split
    · rename_i isXrange
      refine obeysAt_arg ambient (enough.imp_right fun supplied => ?_) fun key isKey => ?_
      · have := (supplied.1 isXrange).1
        omega
      · refine obeysAt_seq ambient (obeysAt_streamEntryToString ambient fun stream holds => ?_)
          fun result => obeys_sendStreamResponse ambient _
        have atLeastThree : F .missingArg ∨ 3 ≤ req.argc :=
          enough.imp_right fun supplied => (supplied.1 isXrange).2 key stream isKey holds
        exact ⟨obeys_arg ambient (atLeastThree.imp_right fun _ => by omega),
          obeys_arg ambient (atLeastThree.imp_right fun _ => by omega)⟩
    · rename_i notXrange
      refine obeysAt_seq ambient (obeysAt_handleXread ambient (mayRead notXrange)
        (enough.imp_right fun supplied => supplied.2 notXrange)) fun response => ?_
      cases response with
      | none => exact obeys_pure ambient ()
      | some response => exact obeys_sendStreamResponse ambient _

end RedisClone
