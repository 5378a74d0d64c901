import RedisClone.Verified.Endings
import RedisClone.Verified.OptionPositions

/-! # Arms of streams and channels that come to an end

The readers of a stream end where the stream is linked and has entries, and what they pick is printed inside their arrays.
XADD ends where the stream of the key is not freed, and each reader that it wakes ends.  The commands of channels walk
over the slots of the subscribers, and end where they meet no slot that was cleared.
-/

namespace RedisClone

open Exec CString

variable {D : Type} {w t : World D} {req : RespRequest} {ptr : ClientPtr} {client : Client} {fd : Int} {key : Bytes}

/-! ## Readers -/

section Readers

variable {stream : Stream} {expiresAt : Int} {startText : Bytes}

theorem pickEntries_ends (start stop : Int × Int) (isXrange : Bool) {remaining : Nat} {entries : List StreamEntry}
    (enough : remaining ≤ entries.length) (w : World D) :
    ∃ picked t, pickEntries start stop isXrange remaining entries w = .ok (picked, t) := by
  induction remaining generalizing entries w with
  | zero => exact ⟨[], w, rfl⟩
  | succ remaining inductionHypothesis =>
    cases entries with
    | nil => simp at enough
    | cons entry entries =>
      obtain ⟨current, scanned, scans, _⟩ := scanId_total entry.id w
      obtain ⟨picked, t, picks⟩ := inductionHypothesis (Nat.le_of_succ_le_succ enough) scanned
      exact ⟨_, t, by rw [pickEntries, bind_of_ok scans, bind_of_ok picks]; rfl⟩

/-- A stream that has entries, and a tail for them. -/
structure Stream.Readable (stream : Stream) : Prop extends Stream.Linked stream where
  nonempty : stream.entries ≠ []

theorem Stream.Readable.head (readable : stream.Readable) : stream.entries.head? ≠ none := by
  simpa using readable.nonempty

theorem Stream.Readable.tail_ne (readable : stream.Readable) : stream.tail ≠ none := by
  simpa [readable.tail] using readable.nonempty

theorem xreadPicks_ends (readable : stream.Readable) (startText : Bytes) (w : World D) :
    ∃ picked t, xreadPicks startText (lit "+") stream w = .ok (picked, t) := by
  obtain ⟨bounds, bounded, scans⟩ :=
    xreadBounds_total stream startText (lit "+") readable.head readable.tail_ne w.takeFresh
  obtain ⟨first, isHead⟩ := Option.ne_none_iff_exists'.mp readable.head
  obtain ⟨picked, t, picks⟩ := pickEntries_ends bounds.1 bounds.2 true readable.counted.le bounded
  refine ⟨picked, t, ?_⟩
  unfold xreadPicks
  rw [bind_of_ok (show indeterminate w = .ok (w.fresh 0, w.takeFresh) from rfl), bind_of_ok scans, isHead]
  exact (bind_of_ok (show idOf (some first) bounded = .ok (first.id, bounded) from rfl)).trans picks

/-- What XREAD picks behind an ID is printed inside the array, whatever the stale memory that it reads. -/
def ReadInside (D : Type) (stream : Stream) (startText : Bytes) : Prop :=
  ∀ picked, ∀ u v : World D, xreadPicks startText (lit "+") stream u = .ok (picked, v) →
    OffsetsFit 1024 0 (picked.flatMap streamEntryTexts)

theorem StreamFits.readInside {table : Table D} (fits : StreamFits table key startText)
    (bound : lookup table key = .ok (some ⟨.stream stream, expiresAt⟩)) : ReadInside D stream startText :=
  fun picked u v picks => offsetsFit_of_fits (fits stream expiresAt picked u v (binding_of_lookup bound) picks).le

theorem ends_readStream (bound : lookup w.table key = .ok (some ⟨.stream stream, expiresAt⟩)) (readable : stream.Readable)
    (inside : ReadInside D stream startText) :
    ∃ delivery t, streamEntryXreadToString (pure startText) (lit "+") key w = .ok (delivery, t) := by
  obtain ⟨picked, t, picks⟩ := xreadPicks_ends readable startText w
  exact (streamEntryXreadToString_iff bound).mpr ⟨picked, t, picks, inside picked w t picks⟩

/-- A value that XREAD can follow where it is a stream. -/
def IsReadable (value : Value D) : Prop := ∀ stream, value = .stream stream → stream.Readable

/-- XREAD reads its ID where the key is bound to a stream. -/
theorem ends_readEntry {entry : Option (Entry D)} {i : Nat} (found : lookup w.table key = .ok entry)
    (readable : ∀ found ∈ entry, IsReadable found.value)
    (inside : ∀ stream expiresAt, entry = some ⟨.stream stream, expiresAt⟩ →
      ∃ startText, req.args[i]? = some startText ∧ ReadInside D stream startText) :
    Ends (streamEntryXreadToString (req.arg i) (lit "+") key) w := by
  by_cases isStream : ∃ stream expiresAt, entry = some ⟨.stream stream, expiresAt⟩
  · obtain ⟨stream, expiresAt, rfl⟩ := isStream
    obtain ⟨startText, isArg, inside⟩ := inside stream expiresAt rfl
    have given : (req.arg i : M D Bytes) = pure startText := by
      unfold RespRequest.arg
      rw [isArg]
    rw [given]
    exact ends_readStream found (readable _ rfl stream rfl) inside
  · have other : ∀ stream expiresAt, entry ≠ some ⟨.stream stream, expiresAt⟩ := fun stream expiresAt same =>
      isStream ⟨stream, expiresAt, same⟩
    exact .of_ok (streamEntryXreadToString_other found other (lit "+"))

end Readers

/-! ## XRANGE -/

/-- XRANGE has both bounds of a stream of fewer than 2^23 entries, with an entry for each bound that names an end. -/
def XrangeReads (w : World D) (req : RespRequest) : Prop :=
  ∃ key startText endText, req.args[0]? = some key ∧ req.args[1]? = some startText ∧ req.args[2]? = some endText ∧
    Finds w.table key fun value => ∃ stream, value = .stream stream ∧ stream.Linked ∧ stream.length < 2 ^ 23 ∧
      (startText = lit "-" ∨ endText = lit "+" → stream.entries ≠ [])

theorem xrangePicks_ends {stream : Stream} {startText endText : Bytes} (linked : stream.Linked)
    (ends : startText = lit "-" ∨ endText = lit "+" → stream.entries ≠ []) (w : World D) :
    ∃ picked t, xrangePicks startText endText stream w = .ok (picked, t) := by
  have head (isMinus : startText = lit "-") : stream.entries.head? ≠ none := by simpa using ends (.inl isMinus)
  have tail (isPlus : endText = lit "+") : stream.tail ≠ none := by simpa [linked.tail] using ends (.inr isPlus)
  obtain ⟨start, scanned, scansStart⟩ := scanBound_total startText (lit "-") head w
  obtain ⟨stop, scanned', scansStop⟩ := scanBound_total endText (lit "+") tail scanned
  obtain ⟨picked, t, picks⟩ := pickEntries_ends start stop false linked.counted.le scanned'
  exact ⟨picked, t, by rw [xrangePicks, bind_of_ok scansStart, bind_of_ok scansStop, picks]⟩

theorem ends_handleXrange (reads : XrangeReads w req)
    (isStream : ∀ key ∈ req.args[0]?, ∃ stream expiresAt, binding w.table key = some ⟨.stream stream, expiresAt⟩)
    (fits : XrangeFits w req) : Ends (handleStreamPrint req ptr fd .xrange) w := by
  obtain ⟨key, startText, endText, isKey, isStart, isEnd, entry, found, isLinked⟩ := reads
  obtain ⟨stream, expiresAt, bound⟩ := isStream key isKey
  obtain rfl : entry = some ⟨.stream stream, expiresAt⟩ := by rw [← binding_of_lookup found, bound]
  obtain ⟨_, same, linked, few, nonempty⟩ := isLinked _ rfl
  obtain rfl := Value.stream.inj same
  obtain ⟨picked, t, picks⟩ := xrangePicks_ends linked nonempty w
  obtain ⟨room, _⟩ := fits key startText endText stream expiresAt picked t isKey isStart isEnd bound picks
  obtain ⟨⟨response, count⟩, printed, prints⟩ :=
    (streamEntryToString_iff found).mpr ⟨few, picked, t, picks, offsetsFit_of_fits room.le⟩
  have start : (req.arg 1 : M D Bytes) = pure startText := by
    unfold RespRequest.arg
    rw [isStart]
  have stop : (req.arg 2 : M D Bytes) = pure endText := by
    unfold RespRequest.arg
    rw [isEnd]
  unfold handleStreamPrint
  refine .after (printArg_supplied isKey w) ?_
  rw [if_pos rfl, start, stop]
  refine ends_arg isKey (.after prints ?_)
  cases response with
  | none => exact .of_ok rfl
  | some response => exact .of_ok rfl

/-! ## XREAD -/

/-- XREAD reads one key, whose stream it can follow, and has the arguments that it reads; the deadline of BLOCK fits. -/
def XreadReads (w : World D) (req : RespRequest) : Prop :=
  ∃ index, streamsIndex w.fresh req.args = some index ∧ ¬ ManyKeys req index ∧
    SingleSupplied w.table (w.skip (index + 1)).fresh req ∧
      match blockIndex (w.skip (index + 1)).fresh req.args with
      | none => ∀ key ∈ req.args[1]?, Finds w.table key IsReadable
      | some block => (∀ ms ∈ req.args[block + 1]?, w.DeadlineFits (atoi ms)) ∧
          (hasDollarSign req = true → ∀ key ∈ req.args[3]?, Finds w.table key IsReadable)

section Xread

theorem ends_sendAnswer (response : Option Bytes) : Ends (sendAnswer fd response) w := by
  cases response with
  | none => exact .of_ok rfl
  | some response => exact .of_ok rfl

theorem ends_handleBlockDollar (supplied : BlockSupplied w.table req)
    (finds : hasDollarSign req = true → ∀ key ∈ req.args[3]?, Finds w.table key IsReadable)
    (fits : hasDollarSign req = true → ∀ key startText, req.args[3]? = some key →
      (req.args[4]? = some startText ∨ ∃ stream expiresAt last,
        binding w.table key = some ⟨.stream stream, expiresAt⟩ ∧ stream.tail = some last ∧ last.id = startText) →
          StreamFits w.table key startText) : Ends (handleBlockDollar req) w := by
  unfold handleBlockDollar
  refine .ite (fun dollar => ?_) fun plain => ?_
  · have enough : 4 ≤ req.argc := by
      obtain enough | ⟨enough, _⟩ := supplied <;> omega
    obtain ⟨key, isKey⟩ := arg_isSome (show ((3 : Nat) : Int) < req.argc by omega)
    obtain ⟨entry, bound, readable⟩ := finds dollar key isKey
    refine ends_arg isKey ?_
    by_cases isStream : ∃ stream expiresAt, entry = some ⟨.stream stream, expiresAt⟩
    · obtain ⟨stream, expiresAt, rfl⟩ := isStream
      have follows := readable _ rfl stream rfl
      obtain ⟨last, isTail⟩ := Option.ne_none_iff_exists'.mp follows.tail_ne
      have inside := (fits dollar key last.id isKey
        (.inr ⟨stream, expiresAt, last, binding_of_lookup bound, isTail, rfl⟩)).readInside bound
      refine .after (isTail ▸ lastStreamEntry_stream bound) ?_
      exact Ends.bind (ends_readStream bound follows inside) fun delivery t _ => Total.ends _
    · have other : ∀ stream expiresAt, entry ≠ some ⟨.stream stream, expiresAt⟩ := fun stream expiresAt same =>
        isStream ⟨stream, expiresAt, same⟩
      refine .after (lastStreamEntry_other bound other) (.after (streamEntryXreadToString_other bound other (lit "+")) ?_)
      -- without a stream the ID was given
      obtain enough | ⟨_, _, _, key', stream, _, isKey', ⟨expiresAt, holds⟩, _⟩ := supplied
      · exact ends_given (by omega) fun minId _ => Total.ends _
      · obtain rfl := Option.some.inj (isKey.symm.trans isKey')
        exact absurd (Except.ok.inj (bound.symm.trans holds)) (other stream expiresAt)
  · obtain enough | ⟨_, _, dollar, _⟩ := supplied
    · exact ends_given (by omega) fun minId _ => Total.ends _
    · exact absurd dollar plain

theorem ends_handleSingleXread (found : w.heap ptr = some client)
    (supplied : SingleSupplied w.table w.fresh req)
    (finds : match blockIndex w.fresh req.args with
      | none => ∀ key ∈ req.args[1]?, Finds w.table key IsReadable
      | some block => (∀ ms ∈ req.args[block + 1]?, w.DeadlineFits (atoi ms)) ∧
          (hasDollarSign req = true → ∀ key ∈ req.args[3]?, Finds w.table key IsReadable))
    (fitsPlain : (blockIndex w.fresh req.args).isSome = false → ∀ key startText, req.args[1]? = some key →
      req.args[2]? = some startText → StreamFits w.table key startText)
    (fitsBlock : (blockIndex w.fresh req.args).isSome = true → hasDollarSign req = true → ∀ key startText,
      req.args[3]? = some key → (req.args[4]? = some startText ∨ ∃ stream expiresAt last,
        binding w.table key = some ⟨.stream stream, expiresAt⟩ ∧ stream.tail = some last ∧ last.id = startText) →
          StreamFits w.table key startText) : Ends (handleSingleXread req ptr) w := by
  obtain ⟨looked, looks⟩ := hasBlock_run req w
  have stale : OnlyStale w looked := hasBlockFrom_onlyStale looks
  have sameTable : looked.table = w.table := by rw [stale]
  have sameClock : looked.clock = w.clock := by rw [stale]
  have found' : looked.heap ptr = some client := by
    rw [stale]
    exact found
  unfold SingleSupplied at supplied
  unfold handleSingleXread
  refine .after looks ?_
  cases isBlock : blockIndex w.fresh req.args with
  | none =>
    -- the start is the argument behind the key, and is read only where the key is bound to a stream
    rw [isBlock] at supplied finds fitsPlain
    obtain ⟨enough, hasId⟩ := supplied
    obtain ⟨key, isKey⟩ := arg_isSome (show ((1 : Nat) : Int) < req.argc by omega)
    obtain ⟨entry, bound, readable⟩ := finds key isKey
    rw [← sameTable] at bound
    refine .after (printArg_supplied isKey looked) (ends_loadClient found' (ends_arg isKey ?_))
    refine .after (by rw [storeGetEntry_run, bound]) ?_
    have reads : Ends (streamEntryXreadToString (req.arg 2) (lit "+") key) looked := by
      refine ends_readEntry bound readable fun stream expiresAt isStream => ?_
      rw [isStream] at bound
      have enoughArgs := hasId key stream isKey ⟨expiresAt, sameTable ▸ bound⟩
      obtain ⟨startText, isStart⟩ := arg_isSome (show ((2 : Nat) : Int) < req.argc by omega)
      exact ⟨startText, isStart, (fitsPlain rfl key startText isKey isStart).readInside (sameTable ▸ bound)⟩
    cases entry with
    | none => exact Total.ends _
    | some entry =>
      refine reads.bind fun delivery t _ => ?_
      obtain ⟨messages, count⟩ := delivery
      cases messages with
      | none => exact Total.ends _
      | some messages => exact Total.ends _
  | some block =>
    rw [isBlock] at supplied finds fitsBlock
    obtain ⟨inTime, finds⟩ := finds
    obtain ⟨ms, isMs⟩ : ∃ ms, req.args[block + 1]? = some ms := ⟨_, List.getElem?_eq_getElem (blockIndex_lt isBlock)⟩
    have enough : 4 ≤ req.argc := by
      obtain enough | ⟨enough, _⟩ := supplied <;> omega
    obtain ⟨key, isKey⟩ := arg_isSome (show ((3 : Nat) : Int) < req.argc by omega)
    have printable : Printable req 4 := by
      obtain enough | ⟨_, isNull, _⟩ := supplied
      · have supplied := req.supplied
        exact .inl (by omega)
      · exact .inr isNull
    refine .after (printArg_supplied isKey looked) (.after (printArg_printable printable looked) ?_)
    refine .after (show getCurrentTimeMs looked = .ok (looked.clock 0, looked.tick) from rfl) (ends_arg isMs ?_)
    -- the first reading of the clock is for a message on the console, the second one for the deadline
    have fits : looked.tick.WaitFits (atoi ms) := by
      have isClock : looked.tick.clock 0 = w.clock 1 := congrFun sameClock 1
      unfold World.WaitFits
      rw [isClock]
      exact inTime ms isMs
    obtain ⟨timeoutAt, timed, times, heap⟩ := timeoutAfter_fits fits
    have timedTable : timed.table = w.table := by
      rw [timeoutAfter_ok times]
      exact sameTable
    refine .after times (.after (updateClient_found (heap ▸ found')) ?_)
    generalize isSet : timed.setClient ptr { client with timeoutAt := timeoutAt } = set
    have setTable : set.table = w.table := isSet ▸ timedTable
    rw [← setTable] at supplied finds fitsBlock
    refine Ends.bind (ends_handleBlockDollar supplied finds (fitsBlock rfl)) fun asked answered asks => ?_
    have same : SameServer set answered := Preserves.run _ _ _ asks
    obtain ⟨messages, count, minId⟩ := asked
    have foundAnswered : answered.heap ptr = some { client with timeoutAt := timeoutAt } := by
      rw [same.heap, ← isSet]
      exact heap_setClient _ _ _
    refine .after (updateClient_found foundAnswered) (ends_arg isKey (.ite (fun _ => Total.ends _) fun _ => ?_))
    exact .after (updateClient_found (heap_setClient _ _ _)) (Total.ends _)

theorem ends_handleXread (found : w.heap ptr = some client) (reads : XreadReads w req) (fits : XreadFits w req) :
    Ends (handleStreamPrint req ptr fd .xread) w := by
  obtain ⟨index, isIndex, single, supplied, finds⟩ := reads
  have sees : w.seesBlock req = (blockIndex (w.skip (index + 1)).fresh req.args).isSome := by
    rw [World.seesBlock, isIndex]
    rfl
  obtain ⟨fitsPlain, fitsBlock⟩ := fits
  rw [sees] at fitsPlain fitsBlock
  refine Ends.congr ?_ (handleXread_single isIndex single fd)
  refine Ends.bind (ends_handleSingleXread found supplied finds fitsPlain fitsBlock) fun response t _ => ?_
  exact ends_sendAnswer response

end Xread

/-! ## XADD -/

/-- What the blocked readers of the key pick from the stream is printed inside the array. -/
def ReadersInside (w : World D) (key : Bytes) (stream : Stream) : Prop :=
  ∀ slot reader, w.occupant slot = some reader → reader.reads key → ∀ minId ∈ reader.minId, ReadInside D stream minId

/-- The key is free, or bound to a stream that is linked and not freed where it is stored; where the ID is accepted, a
number is left for the new entry, and the stream with the entry can be sent to its readers. -/
def XaddReads (w : World D) (req : RespRequest) : Prop :=
  FindsFirst w req (fun value => ∃ stream, value = .stream stream ∧ stream.Linked) ∧ ¬ StoresFreed w.table req ∧
    ∀ key id checked, req.args[0]? = some key → req.args[1]? = some id →
      checkStreamId id (storedStream w.table key).tail w = .ok (none, checked) →
        SeqFits (storedStream w.table key) id (w.clock 0) ∧
          ∀ entryId pair, NewId (storedStream w.table key) id (w.clock 0) entryId →
            ReadersInside w key ((storedStream w.table key).append ⟨entryId, req.args.drop 2⟩ pair)

section Xadd

variable {stream : Stream} {expiresAt : Int}

theorem Stream.Linked.append (linked : stream.Linked) (entry : StreamEntry) (pair : Int × Int) :
    (stream.append entry pair).Readable where
  tail := by simp [Stream.append]
  counted := by simp [Stream.append, linked.counted]
  nonempty := by simp [Stream.append]

/-- A reader of the key was one before a delivery, and reads from the same ID. -/
theorem ReadersInside.of_delivers (inside : ReadersInside w key stream) (delivers : Delivers key w t) :
    ReadersInside t key stream := by
  intro slot reader occupied reads minId isMin
  obtain ⟨ptr, inSlot, found⟩ := Option.bind_eq_some_iff.mp occupied
  obtain ⟨before, foundBefore, _, delivered⟩ := delivers.toClientwise.back found
  have occupiedBefore : w.occupant slot = some before :=
    Option.bind_eq_some_iff.mpr ⟨ptr, delivers.clients ▸ inSlot, foundBefore⟩
  cases delivered with
  | inl same =>
    have sameMin : reader.minId = before.minId := congrArg Blocking.minId same
    exact inside slot before occupiedBefore ((same.reads_iff key).mp reads) minId (sameMin ▸ isMin)
  | inr woken =>
    -- a client that was woken does not read
    have unblocked : reader.isBlocked = false := congrArg Blocking.isBlocked woken.2
    simp [Client.reads, unblocked] at reads

theorem World.Allocated.of_clientwise {related : ClientPtr → Client → Client → Prop} (allocated : w.Allocated)
    (clientwise : Clientwise related w t) : t.Allocated := by
  intro slot ptr inSlot
  obtain ⟨client, found⟩ := Option.ne_none_iff_exists'.mp (allocated slot ptr (clientwise.clients ▸ inSlot))
  obtain ⟨client', found', _⟩ := clientwise.heap ptr client found
  simp [found']

/-- The readers of a stream can be woken. -/
structure Wakeable (w : World D) (key : Bytes) (stream : Stream) (expiresAt : Int) : Prop where
  allocated : w.Allocated
  bound : lookup w.table key = .ok (some ⟨.stream stream, expiresAt⟩)
  inside : ReadersInside w key stream

theorem tryDeliverStreamData_ends (readable : stream.Readable)
    (bound : lookup w.table key = .ok (some ⟨.stream stream, expiresAt⟩)) (found : w.heap ptr = some client)
    (waits : client.waitingForKey = some key)
    (inside : client.reads key → ∀ minId ∈ client.minId, ReadInside D stream minId) :
    Ends (tryDeliverStreamData ptr) w := by
  unfold tryDeliverStreamData
  refine ends_loadClient found ?_
  cases blocked : client.isBlocked with
  | false => exact .of_ok rfl
  | true =>
    cases isMin : client.minId with
    | none =>
      rw [waits]
      exact .of_ok rfl
    | some minId =>
      have reads : client.reads key := ⟨blocked, waits, by simp [isMin]⟩
      simp only [waits]
      refine Ends.bind (ends_readStream bound readable (inside reads minId isMin)) fun delivery read reading => ?_
      have same : SameServer w read := Preserves.run _ _ _ reading
      obtain ⟨messages, count⟩ := delivery
      cases messages with
      | none => exact .of_ok rfl
      | some messages =>
        refine .ite (fun _ => .rest fun _ sent sends => ?_) fun _ => Total.ends _
        have found' : sent.heap ptr = some client := by
          rw [send_run sends]
          exact same.heap ▸ found
        exact ends_updateClient found'

theorem Wakeable.wake {slot : ClientSlot} (readable : stream.Readable) (wakeable : Wakeable w key stream expiresAt) :
    Ends (wakeStreamReader key slot) w := by
  unfold wakeStreamReader
  refine ends_clientAt wakeable.allocated (Total.ends _) fun ptr client inSlot found => ?_
  refine .ite (fun waits => ?_) fun _ => Total.ends _
  refine tryDeliverStreamData_ends readable wakeable.bound found waits.2 fun reads => ?_
  exact wakeable.inside slot client (Option.bind_eq_some_iff.mpr ⟨ptr, inSlot, found⟩) reads

theorem Wakeable.after {slot : ClientSlot} (wakeable : Wakeable w key stream expiresAt)
    (run : wakeStreamReader key slot w = .ok ((), t)) : Wakeable t key stream expiresAt := by
  have one : forM [slot] (wakeStreamReader key) w = .ok ((), t) := by
    rw [List.forM_cons]
    exact (bind_of_ok run).trans rfl
  have delivers := forM_wakeStreamReader_delivers one
  have sameTable : t.table = w.table := (obeys_wakeStreamReader ambient_sameTable mayBlock_sameTable key slot w).1 _ _ run
  exact ⟨wakeable.allocated.of_clientwise delivers.toClientwise, by rw [sameTable]; exact wakeable.bound,
    wakeable.inside.of_delivers delivers⟩

theorem ends_answerXadd {entryId : Bytes} (readable : stream.Readable) (wakeable : Wakeable w key stream expiresAt) :
    Ends (answerXadd fd key (.ok entryId)) w := by
  obtain ⟨sent, fresh, replies⟩ := sendEntryId_ends fd entryId w
  unfold answerXadd
  refine .after replies ?_
  refine Ends.forM (I := fun u => Wakeable u key stream expiresAt) ⟨wakeable.allocated, wakeable.bound, wakeable.inside⟩ ?_ ?_
  · exact fun slot _ u holds => holds.wake readable
  · exact fun slot _ u v holds run => holds.after run

theorem ends_handleXadd (enough : 2 ≤ req.argc) (allocated : w.Allocated) (reads : XaddReads w req) :
    Ends (handleSet req .stream fd) w := by
  obtain ⟨⟨key, isKey, entry, found, isLinked⟩, kept, accepts⟩ := reads
  obtain ⟨stream, opens, linked⟩ : ∃ stream, OpensStream w.table key stream ∧ stream.Linked := by
    cases entry with
    | none => exact ⟨.zeroed, .inl ⟨found, rfl⟩, ⟨rfl, rfl⟩⟩
    | some entry =>
      obtain ⟨stream, isStream, linked⟩ := isLinked entry rfl
      exact ⟨stream, .inr ⟨entry.expiresAt, by rw [found, ← isStream]⟩, linked⟩
  obtain ⟨id, isId⟩ := arg_isSome (show ((1 : Nat) : Int) < req.argc by omega)
  refine Ends.congr ?_ (handleXadd_eq enough isKey w)
  obtain ⟨errorMsg, checked, checks, stale⟩ := checkStreamId_total id stream.tail w
  cases errorMsg with
  | some errorResp =>
    exact .after (linkEntry_rejected isKey isId opens checks) ((total_sendUnlessMaster fd errorResp).ends checked)
  | none =>
    rw [storesFreed_iff enough isKey opens] at kept
    have accepted := accepts key id checked isKey isId
    rw [← opens.isStored] at accepted
    obtain ⟨room, inside⟩ := accepted checks
    have sameClock : checked.clock = w.clock := by rw [stale]
    obtain ⟨entryId, chosen, chooses⟩ := chooseId_ends (w := checked) (sameClock ▸ room)
    have isNew : NewId stream id (w.clock 0) entryId := sameClock ▸ newId_of_ok chooses
    obtain ⟨pair, scanned, linkedWorld, expiresAt, _, links, same, stores⟩ :=
      linkEntry_accepted isKey isId opens linked.tail kept checks chooses
    refine .after links (ends_answerXadd (linked.append ⟨entryId, req.args.drop 2⟩ pair)
      (show Wakeable _ _ _ expiresAt from ⟨?_, ?_, ?_⟩))
    · exact allocated.of_same same.clients same.heap
    · exact lookup_of_binding stores.binding_self
    · intro slot reader occupied
      have occupant : linkedWorld.occupant slot = w.occupant slot := by
        rw [World.occupant, World.occupant, same.clients, same.heap]
      exact inside entryId pair isNew slot reader (occupant ▸ occupied)

end Xadd

/-! ## Channels -/

/-- No slot in front of the channel, or of all that are counted, was cleared. -/
def SubscribeReads (client : Client) (channel : Bytes) : Prop :=
  none ∉ (client.channelSubed.take client.channelCount).takeWhile (· ≠ some channel)

/-- The walk of UNSUBSCRIBE, which a match makes shorter, meets no slot that was cleared. -/
def UnsubscribeReads (client : Client) (channel : Bytes) (i : Nat) : Prop :=
  ∀ n, i + n + ((client.channelSubed.drop i).take n).count (some channel) < client.channelCount →
    ∃ subed, client.channelSubed[i + n]? = some (some subed)

/-- No slot that any client counts was cleared. -/
def PublishReads (w : World D) : Prop :=
  ∀ slot subscriber, w.occupant slot = some subscriber → none ∉ subscriber.channelSubed.take subscriber.channelCount

section Channels

variable {channel message : Bytes}

theorem alreadySubed_ends {slots : List (Option Bytes)} (filled : none ∉ slots.takeWhile (· ≠ some channel)) :
    Ends (alreadySubed channel slots) w := by
  induction slots with
  | nil => exact .of_ok rfl
  | cons slot slots inductionHypothesis =>
    cases slot with
    | none => simp at filled
    | some subed =>
      unfold alreadySubed
      refine .ite (fun _ => Total.ends _) fun differs => inductionHypothesis ?_
      rw [List.takeWhile_cons_of_pos (by simpa using differs)] at filled
      exact fun member => filled (List.mem_cons_of_mem _ member)

/-- The confirmation of the one channel is printed, and the client is still there. -/
theorem subscribeOne_ends (found : w.heap ptr = some client) (room : client.channelCount < maxChannels)
    (filled : SubscribeReads client channel)
    (fits : ∀ count ≤ client.channelCount + 1, (subscribeText channel count).length < 1024) :
    ∃ msg t client', subscribeAll ptr [channel] {} w = .ok (msg, t) ∧ t.heap ptr = some client' ∧ msg.offset ≤ 1024 := by
  obtain ⟨already, looked, looks⟩ := alreadySubed_ends (w := w) filled
  obtain rfl := alreadySubed_run looks
  obtain ⟨count, isCount, few⟩ : ∃ count, (if already then client.channelCount else client.channelCount + 1) = count ∧
      count ≤ client.channelCount + 1 := ⟨_, rfl, by split <;> omega⟩
  obtain ⟨client', updated, updates, found'⟩ : ∃ client' updated, (onlyIf (!already) <| updateClient ptr fun client =>
      { client with
        channelSubed := client.channelSubed.set client.channelCount (some channel),
        channelCount := count }) looked = .ok ((), updated) ∧ updated.heap ptr = some client' := by
    cases already with
    | true => exact ⟨client, looked, rfl, found⟩
    | false => exact ⟨_, _, updateClient_found found, heap_setClient _ _ _⟩
  have short := fits count few
  have print : Buffer.print 1024 {} (subscribeText channel count) updated =
      .ok (⟨subscribeText channel count, 0⟩, updated) := @print_fits D 1024 [] _ (by simpa using short) updated
  rw [subscribeAll, bind_of_ok (loadClient_found found), if_neg (Nat.not_le.mpr room), bind_of_ok looks]
  dsimp only
  rw [isCount, bind_of_ok updates, bind_of_ok print, if_pos (by simpa using short), subscribeAll]
  exact ⟨_, updated, client', rfl, found', by simpa using short.le⟩

theorem ends_handleSubscribe (found : w.heap ptr = some client) (one : SubscribesOne client req)
    (reads : ∀ channel ∈ req.args[0]?, SubscribeReads client channel) : Ends (handleSubscribe req ptr) w := by
  obtain ⟨channel, isOne, room, fits⟩ := one
  have filled := reads channel (by rw [isOne]; rfl)
  obtain ⟨msg, t, client', subscribes, found', inside⟩ :=
    subscribeOne_ends (w := w.setClient ptr { client with isSubscribed := true }) (heap_setClient _ _ _) room filled fits
  unfold handleSubscribe
  rw [isOne]
  exact .after (updateClient_found found) (.after subscribes (ends_loadClient found' (ends_sendPrefix inside)))

/-- A round of UNSUBSCRIBE leaves the rest of the walk as it is. -/
theorem UnsubscribeReads.next {i : Nat} {subed : Bytes} (reads : UnsubscribeReads client channel i)
    (isSlot : client.channelSubed[i]? = some (some subed)) :
    (subed ≠ channel → UnsubscribeReads client channel (i + 1)) ∧
      (subed = channel → UnsubscribeReads
        { client with channelSubed := client.channelSubed.set i none, channelCount := client.channelCount - 1 } channel
          (i + 1)) := by
  have inside : i < client.channelSubed.length := by
    obtain ⟨inside, _⟩ := List.getElem?_eq_some_iff.mp isSlot
    exact inside
  have front (n : Nat) : (client.channelSubed.drop i).take (n + 1) =
      some subed :: (client.channelSubed.drop (i + 1)).take n := by
    rw [List.drop_eq_getElem_cons inside, List.take_succ_cons, (List.getElem?_eq_some_iff.mp isSlot).2]
  constructor
  · intro differs n visited
    have later := reads (n + 1) (by
      rw [front, List.count_cons_of_ne (by simpa using differs)]
      omega)
    rwa [← Nat.add_assoc, Nat.add_right_comm] at later
  · rintro rfl n visited
    dsimp only at visited ⊢
    rw [List.drop_set_of_lt (by omega)] at visited
    have later := reads (n + 1) (by
      rw [front, List.count_cons_self]
      omega)
    rw [List.getElem?_set_ne (by omega)]
    rwa [← Nat.add_assoc, Nat.add_right_comm] at later

theorem unsubscribeFrom_ends {fuel i : Nat} (found : w.heap ptr = some client) (reads : UnsubscribeReads client channel i) :
    ∃ t client', unsubscribeFrom ptr channel fuel i w = .ok ((), t) ∧ t.heap ptr = some client' := by
  induction fuel generalizing i w client with
  | zero => exact ⟨w, client, rfl, found⟩
  | succ fuel inductionHypothesis =>
    unfold unsubscribeFrom
    rw [bind_of_ok (loadClient_found found)]
    split
    · rename_i visited
      obtain ⟨subed, isSlot⟩ := reads 0 (by simpa using visited)
      rw [Nat.add_zero] at isSlot
      obtain ⟨keeps, takes⟩ := reads.next isSlot
      rw [isSlot]
      dsimp only
      by_cases same : subed = channel
      · rw [bind_of_ok (show (onlyIf (subed = channel) _ : M D Unit) w = .ok ((), _) from
          (congrFun (if_pos same) w).trans (updateClient_found found))]
        exact inductionHypothesis (heap_setClient _ _ _) (takes same)
      · rw [bind_of_ok (show (onlyIf (subed = channel) _ : M D Unit) w = .ok ((), w) from congrFun (if_neg same) w)]
        exact inductionHypothesis found (keeps same)
    · exact ⟨w, client, rfl, found⟩

theorem ends_handleUnsubscribe (found : w.heap ptr = some client)
    (reads : ∀ channel ∈ req.args[0]?, UnsubscribeReads client channel 0) : Ends (handleUnsubscribe req ptr) w := by
  unfold handleUnsubscribe
  refine .ite (fun _ => Total.ends _) fun enough => ends_given (by omega) fun channel isChannel => ?_
  obtain ⟨t, client', walks, found'⟩ : ∃ t client', unsubscribeFrom ptr channel maxChannels 0 w = .ok ((), t) ∧
      t.heap ptr = some client' := unsubscribeFrom_ends found (reads channel isChannel)
  exact .after walks (ends_loadClient found' (Total.ends _))

theorem publishTo_ends {slots : List (Option Bytes)} (filled : none ∉ slots) :
    ∃ delivered t, publishTo fd channel message slots w = .ok (delivered, t) ∧ t.clients = w.clients ∧ t.heap = w.heap := by
  induction slots generalizing w with
  | nil => exact ⟨0, w, rfl, rfl, rfl⟩
  | cons slot slots inductionHypothesis =>
    have filledRest : none ∉ slots := fun member => filled (List.mem_cons_of_mem _ member)
    cases slot with
    | none => simp at filled
    | some subed =>
      unfold publishTo
      split
      · generalize isText : lit "*3\r\n$7\r\nmessage\r\n" ++ bulk channel ++ bulk message = text
        obtain ⟨delivered, t, publishes, clients, heap⟩ := inductionHypothesis (w := w.emit fd (text.take 1023)) filledRest
        refine ⟨delivered + 1, t, ?_, clients, heap⟩
        rw [bind_of_ok (show sendText 1024 fd text w = .ok ((), w.emit fd (text.take 1023)) from rfl), bind_of_ok publishes]
        rfl
      · exact inductionHypothesis filledRest

theorem publishAll_ends {slots : List ClientSlot} {clientsSubed : Nat} (allocated : w.Allocated) (reads : PublishReads w) :
    Ends (publishAll channel message slots clientsSubed) w := by
  induction slots generalizing w clientsSubed with
  | nil => exact .of_ok rfl
  | cons slot slots inductionHypothesis =>
    unfold publishAll
    refine ends_clientAt allocated (inductionHypothesis allocated reads) fun ptr client inSlot found => ?_
    have filled := reads slot client (Option.bind_eq_some_iff.mpr ⟨ptr, inSlot, found⟩)
    obtain ⟨delivered, t, publishes, clients, heap⟩ := publishTo_ends (w := w) filled
    refine .after publishes (inductionHypothesis (allocated.of_same clients heap) fun slot subscriber occupied => ?_)
    have occupant : t.occupant slot = w.occupant slot := by rw [World.occupant, World.occupant, clients, heap]
    exact reads slot subscriber (occupant ▸ occupied)

theorem ends_handlePublish (allocated : w.Allocated) (reads : PublishReads w) : Ends (handlePublish req fd) w := by
  unfold handlePublish
  refine .ite (fun _ => Total.ends _) fun enough => ?_
  refine ends_given (by omega) fun channel _ => ends_given (by omega) fun message _ => ?_
  exact (publishAll_ends allocated reads).bind fun clientsSubed _ _ => Total.ends _

end Channels

end RedisClone
