import RedisClone.Verified.LoadedStreams
import RedisClone.Verified.StreamIds

/-! # What XADD appends

`handle_set_stream` validates the ID, generates it where it has a `*`, links one entry behind the tail, and only then
replies and wakes the readers of the key.  `linkEntry` is the first part (`handleXadd_eq`).  It appends one entry with
the ID that the form of the request stands for (`linkEntry_accepted`), which keeps the stream well formed.  The reply has
room for 128 bytes, and a stream without entries is freed before it is stored where it is in the first node of its
bucket: `xadd_law_iff` says that nothing else can go wrong for an accepted ID.
-/

namespace RedisClone

open Exec CString

variable {D : Type} {w t : World D}

/-! ## The part before the reply -/

/-- `handle_set_stream` up to its reply: the text of an error, or the ID of the entry that was linked. -/
def linkEntry (req : RespRequest) : M D (Except Bytes Bytes) := do
  let key ← req.arg 0
  let stream ← withPayload key asStream (pure ⟨[], none, 0, 0, 0⟩) pure
  let id ← req.arg 1
  match ← checkStreamId id stream.tail with
  | some errorResp => pure (.error errorResp)
  | none => do
    let entryId ← chooseId stream id
    let (ms, seq) ← scanId entryId
    appendEntry key stream ⟨entryId, req.args.drop 2⟩ ms seq
    pure (.ok entryId)

/-- The rest of `handle_set_stream`. -/
def answerXadd (clientFd : Int) (key : Bytes) : Except Bytes Bytes → M D Unit
  | .error errorResp => sendUnlessMaster clientFd errorResp
  | .ok entryId => do
    sendEntryId clientFd entryId
    forM clientSlots (wakeStreamReader key)

section Link

variable {req : RespRequest} {clientFd : Int} {key id : Bytes}

theorem handleXadd_eq (enough : 2 ≤ req.argc) (isKey : req.args[0]? = some key) (w : World D) :
    handleSet req .stream clientFd w = (linkEntry req >>= answerXadd clientFd key) w := by
  unfold handleSet
  rw [if_neg (by omega)]
  dsimp only
  unfold handleSetStream linkEntry
  rw [bind_assoc, bind_of_ok (arg_ok.mpr ⟨isKey, rfl⟩), bind_of_ok (arg_ok.mpr ⟨isKey, rfl⟩), bind_assoc]
  refine congrFun (congrArg (withPayload key asStream _ pure >>= ·) (funext fun stream => ?_)) w
  rw [bind_assoc]
  refine congrArg (req.arg 1 >>= ·) (funext fun id => ?_)
  rw [bind_assoc]
  refine congrArg (checkStreamId id stream.tail >>= ·) (funext fun errorMsg => ?_)
  cases errorMsg with
  | some errorResp => rw [pure_bind, answerXadd]
  | none =>
    simp only [bind_assoc, pure_bind]
    rfl

end Link

/-! ## The entry that is linked -/

/-- The key is free, or bound to the stream. -/
def OpensStream (table : Table D) (key : Bytes) (stream : Stream) : Prop :=
  lookup table key = .ok none ∧ stream = .zeroed ∨
    ∃ expiresAt, lookup table key = .ok (some ⟨.stream stream, expiresAt⟩)

/-- The stream with one more entry, whose numbers become the last ones. -/
def Stream.append (stream : Stream) (entry : StreamEntry) (pair : Int × Int) : Stream :=
  ⟨stream.entries ++ [entry], some entry, pair.1, pair.2, stream.length + 1⟩

theorem Stream.WellFormed.append {stream : Stream} {ids : List Bytes} {entry : StreamEntry} {pair : Int × Int}
    (wellFormed : stream.WellFormed ids) (isPair : idPair entry.id = some pair) :
    (stream.append entry pair).WellFormed (ids ++ [entry.id]) where
  counted := by simp [Stream.append, wellFormed.counted]
  ordered := by simp [Stream.append, wellFormed.ordered]
  tail := by simp [Stream.append]
  last other isTail := by
    obtain rfl := Option.some.inj isTail
    exact idPair_eq_some.mp isPair

section Append

variable {key : Bytes} {stream : Stream}

theorem OpensStream.opens (holds : OpensStream w.table key stream) :
    withPayload key asStream (pure ⟨[], none, 0, 0, 0⟩) pure w = .ok (stream, w) := by
  rw [withPayload_run]
  obtain ⟨free, rfl⟩ | ⟨expiresAt, found⟩ := holds
  · rw [free]
    rfl
  · rw [found]
    rfl

theorem OpensStream.isStored {table : Table D} (holds : OpensStream table key stream) :
    stream = storedStream table key := by
  obtain ⟨free, rfl⟩ | ⟨expiresAt, found⟩ := holds
  · exact (storedStream_of_unbound (binding_of_lookup free)).symm
  · exact (storedStream_of_binding (binding_of_lookup found)).symm

theorem OpensStream.inBucket {table : Table D} (holds : OpensStream table key stream) :
    ∃ bucket, bucketOf key = some bucket := by
  cases inBucket : bucketOf key with
  | some bucket => exact ⟨bucket, rfl⟩
  | none =>
    obtain ⟨free, _⟩ | ⟨expiresAt, found⟩ := holds
    · simp [lookup, inBucket] at free
    · simp [lookup, inBucket] at found

/-- The stream is in the first node of its bucket, and has no entry. -/
def FreesOpened (table : Table D) (key : Bytes) (stream : Stream) : Prop :=
  stream.entries = [] ∧ ∃ bucket, bucketOf key = some bucket ∧ (table bucket).nodes.head?.map Prod.fst = some key

/-- This is the case in which XADD stores a freed stream. -/
theorem storesFreed_iff {req : RespRequest} (enough : 2 ≤ req.argc) (isKey : req.args[0]? = some key)
    (opens : OpensStream w.table key stream) : StoresFreed w.table req ↔ FreesOpened w.table key stream := by
  -- a key in the first node of its bucket is bound to the value there
  have found {bucket : Bucket} {entry : Entry D} {rest : List (Bytes × Entry D)} (inBucket : bucketOf key = some bucket)
      (isNodes : (w.table bucket).nodes = (key, entry) :: rest) : lookup w.table key = .ok (some entry) :=
    (lookup_of_bucket inBucket).mpr (by simp [Chain.find, isNodes])
  constructor
  · rintro ⟨_, key', bucket, stream', expiresAt, rest, isKey', inBucket, isNodes, empty⟩
    obtain rfl := Option.some.inj (isKey.symm.trans isKey')
    have here := found inBucket isNodes
    obtain ⟨free, _⟩ | ⟨expiresAt', bound⟩ := opens
    · rw [here] at free
      cases free
    · obtain ⟨rfl, _⟩ : stream' = stream ∧ expiresAt = expiresAt' := by simpa using here.symm.trans bound
      exact ⟨empty, bucket, inBucket, by rw [isNodes]; rfl⟩
  · rintro ⟨empty, bucket, inBucket, isFirst⟩
    obtain ⟨⟨key', entry⟩, isHead, rfl⟩ := Option.map_eq_some_iff.mp isFirst
    obtain ⟨rest, isNodes⟩ := List.head?_eq_some_iff.mp isHead
    have here := found inBucket isNodes
    obtain ⟨free, _⟩ | ⟨expiresAt, bound⟩ := opens
    · rw [here] at free
      cases free
    · obtain rfl : entry = ⟨.stream stream, expiresAt⟩ := by simpa using here.symm.trans bound
      exact ⟨enough, key', bucket, stream, expiresAt, rest, isKey, inBucket, isNodes, empty⟩

/-- The entry is linked wherever the stream has a tail to link it behind, or is not freed where it is stored. -/
theorem appendEntry_linked (holds : OpensStream w.table key stream) (isTail : stream.tail = stream.entries.getLast?)
    (kept : ¬ FreesOpened w.table key stream) (entry : StreamEntry) (pair : Int × Int) :
    ∃ linked expiresAt, appendEntry key stream entry pair.1 pair.2 w = .ok ((), linked) ∧
      Stores w.table key ⟨.stream (stream.append entry pair), expiresAt⟩ (decide (stream.entries = [])) linked.table := by
  obtain ⟨bucket, inBucket⟩ := holds.inBucket
  obtain ⟨linked, links⟩ : ∃ linked, appendEntry key stream entry pair.1 pair.2 w = .ok ((), linked) := by
    unfold appendEntry
    split
    · rename_i empty
      obtain ⟨linked, stores, _⟩ := storeSetContainer_run inBucket
        (.stream ⟨stream.entries ++ [entry], some entry, pair.1, pair.2, stream.length + 1⟩) w
      exact ⟨linked, (storeOpened_run inBucket (fun first => kept ⟨empty, bucket, inBucket, first⟩) _).trans stores⟩
    · rename_i nonempty
      have hasTail : stream.tail ≠ none := by rwa [isTail, ne_eq, List.getLast?_eq_none_iff]
      rw [if_neg hasTail, updateEntry_run inBucket]
      exact ⟨_, rfl⟩
  obtain ⟨expiresAt, stores⟩ := appendEntry_stores holds.isStored links
  exact ⟨linked, expiresAt, links, stores⟩

variable {req : RespRequest} {id entryId errorResp : Bytes} {checked chosen : World D}

theorem linkEntry_rejected (isKey : req.args[0]? = some key) (isId : req.args[1]? = some id)
    (holds : OpensStream w.table key stream) (checks : checkStreamId id stream.tail w = .ok (some errorResp, checked)) :
    linkEntry req w = .ok (.error errorResp, checked) := by
  unfold linkEntry
  rw [bind_of_ok (arg_ok.mpr ⟨isKey, rfl⟩), bind_of_ok holds.opens, bind_of_ok (arg_ok.mpr ⟨isId, rfl⟩), bind_of_ok checks]
  rfl

/-- A stream that is freed where it is stored takes no entry. -/
theorem appendEntry_freed (freed : FreesOpened w.table key stream) (entry : StreamEntry) (ms seq : Int) :
    appendEntry key stream entry ms seq w = .error .useAfterFree := by
  obtain ⟨empty, bucket, inBucket, first⟩ := freed
  unfold appendEntry
  rw [if_pos empty]
  exact storeOpened_freed inBucket first _

/-- Nothing but stale memory and a reading of the clock goes into the choice of an ID. -/
theorem chosen_table (checks : checkStreamId id stream.tail w = .ok (none, checked))
    (chooses : chooseId stream id checked = .ok (entryId, chosen)) : chosen.table = w.table := by
  have checkTable : SameTable w checked := (obeys_checkStreamId ambient_sameTable id stream.tail w).1 _ _ checks
  have chooseTable : SameTable checked chosen := (obeys_chooseId ambient_sameTable stream id checked).1 _ _ chooses
  exact Eq.trans chooseTable checkTable

theorem linkEntry_freed (isKey : req.args[0]? = some key) (isId : req.args[1]? = some id)
    (holds : OpensStream w.table key stream) (freed : FreesOpened w.table key stream)
    (checks : checkStreamId id stream.tail w = .ok (none, checked))
    (chooses : chooseId stream id checked = .ok (entryId, chosen)) : linkEntry req w = .error .useAfterFree := by
  obtain ⟨pair, scanned, scans, staleScan⟩ := scanId_total entryId chosen
  have sameTable : scanned.table = w.table := by
    have chosenTable := chosen_table checks chooses
    rw [staleScan]
    exact chosenTable
  unfold linkEntry
  rw [bind_of_ok (arg_ok.mpr ⟨isKey, rfl⟩), bind_of_ok holds.opens, bind_of_ok (arg_ok.mpr ⟨isId, rfl⟩),
    bind_of_ok checks]
  dsimp only
  rw [bind_of_ok chooses, bind_of_ok scans]
  exact bind_of_error (appendEntry_freed (sameTable ▸ freed) _ _ _)

/-- What an accepted ID leads to, once it is chosen. -/
theorem linkEntry_accepted (isKey : req.args[0]? = some key) (isId : req.args[1]? = some id)
    (holds : OpensStream w.table key stream) (isTail : stream.tail = stream.entries.getLast?)
    (kept : ¬ FreesOpened w.table key stream) (checks : checkStreamId id stream.tail w = .ok (none, checked))
    (chooses : chooseId stream id checked = .ok (entryId, chosen)) :
    ∃ pair scanned linked expiresAt, scanId entryId chosen = .ok (pair, scanned) ∧
      linkEntry req w = .ok (.ok entryId, linked) ∧ SameServer w linked ∧
      Stores w.table key ⟨.stream (stream.append ⟨entryId, req.args.drop 2⟩ pair), expiresAt⟩
        (decide (stream.entries = [])) linked.table := by
  obtain ⟨pair, scanned, scans, staleScan⟩ := scanId_total entryId chosen
  have sameTable : scanned.table = w.table := by
    have chosenTable := chosen_table checks chooses
    rw [staleScan]
    exact chosenTable
  obtain ⟨linked, expiresAt, links, stores⟩ :=
    appendEntry_linked (w := scanned) (sameTable ▸ holds) isTail (sameTable ▸ kept) ⟨entryId, req.args.drop 2⟩ pair
  refine ⟨pair, scanned, linked, expiresAt, scans, ?_, ?_, sameTable ▸ stores⟩
  · unfold linkEntry
    rw [bind_of_ok (arg_ok.mpr ⟨isKey, rfl⟩), bind_of_ok holds.opens, bind_of_ok (arg_ok.mpr ⟨isId, rfl⟩),
      bind_of_ok checks]
    dsimp only
    rw [bind_of_ok chooses, bind_of_ok scans, bind_of_ok links]
    rfl
  · have checkServer : SameServer w checked := Preserves.run _ _ _ checks
    have chooseServer : SameServer checked chosen := Preserves.run _ _ _ chooses
    have scanServer : SameServer chosen scanned := Preserves.run _ _ _ scans
    have linkServer : SameServer scanned linked := Preserves.run _ _ _ links
    exact storing_sameServer.composes.trans (storing_sameServer.composes.trans checkServer chooseServer)
      (storing_sameServer.composes.trans scanServer linkServer)

/-- Whatever was linked is the last entry of the stream at the key, with the numbers that `sscanf` made of its ID. -/
theorem linkEntry_ok {linked : World D} (isKey : req.args[0]? = some key) (opens : OpensStream w.table key stream)
    (links : linkEntry req w = .ok (.ok entryId, linked)) :
    ∃ id checked chosen scanned pair expiresAt, req.args[1]? = some id ∧
      checkStreamId id stream.tail w = .ok (none, checked) ∧ chooseId stream id checked = .ok (entryId, chosen) ∧
      scanId entryId chosen = .ok (pair, scanned) ∧ SameServer w linked ∧
      Stores w.table key ⟨.stream (stream.append ⟨entryId, req.args.drop 2⟩ pair), expiresAt⟩
        (decide (stream.entries = [])) linked.table := by
  unfold linkEntry at links
  rw [bind_of_ok (arg_ok.mpr ⟨isKey, rfl⟩), bind_of_ok opens.opens] at links
  obtain ⟨id, read, reads, afterId⟩ := bind_eq_ok.mp links
  obtain ⟨isId, rfl⟩ := arg_ok.mp reads
  obtain ⟨errorMsg, checked, checks, afterCheck⟩ := bind_eq_ok.mp afterId
  cases errorMsg with
  | some errorResp => cases afterCheck
  | none =>
    obtain ⟨chosenId, chosen, chooses, afterChoice⟩ := bind_eq_ok.mp afterCheck
    obtain ⟨pair, scanned, scans, afterScan⟩ := bind_eq_ok.mp afterChoice
    obtain ⟨_, appended, appends, final⟩ := bind_eq_ok.mp afterScan
    obtain ⟨isChosen, rfl⟩ := Prod.mk.inj (Except.ok.inj final)
    obtain rfl := Except.ok.inj isChosen
    have sameTable : scanned.table = read.table := by
      have scanTable : SameTable chosen scanned := (obeys_scanId ambient_sameTable chosenId chosen).1 _ _ scans
      exact Eq.trans scanTable (chosen_table checks chooses)
    obtain ⟨expiresAt, stores⟩ := appendEntry_stores (sameTable ▸ opens.isStored) appends
    have checkServer : SameServer read checked := Preserves.run _ _ _ checks
    have chooseServer : SameServer checked chosen := Preserves.run _ _ _ chooses
    have scanServer : SameServer chosen scanned := Preserves.run _ _ _ scans
    have linkServer : SameServer scanned appended := Preserves.run _ _ _ appends
    refine ⟨id, checked, chosen, scanned, pair, expiresAt, isId, checks, chooses, scans, ?_, sameTable ▸ stores⟩
    exact storing_sameServer.composes.trans (storing_sameServer.composes.trans checkServer chooseServer)
      (storing_sameServer.composes.trans scanServer linkServer)

end Append

/-! ## The forms of an ID -/

/-- `*`, `ms-*` or `ms-seq`. -/
inductive IdForm where
  | automatic
  | millisecond (ms : Bytes)
  | explicit (ms seq : Bytes)

namespace IdForm

def text : IdForm → Bytes
  | automatic => lit "*"
  | millisecond ms => ms ++ lit "-*"
  | explicit ms seq => ms ++ 45 :: seq

/-- The given components are decimal numbers in 64 bits. -/
def IsDecimal : IdForm → Prop
  | automatic => True
  | millisecond ms => Decimal64 ms
  | explicit ms seq => Decimal64 ms ∧ Decimal64 seq

/-- The numbers that the form stands for, behind the last ones of the stream. -/
def pair (stream : Stream) (now : Int) : IdForm → Int × Int
  | automatic =>
    if stream.entries = [] then (now, firstSeq now)
    else if stream.lastMs < now then (now, 0)
    else (stream.lastMs, stream.lastSeq + 1)
  | millisecond ms =>
    (digitsValue ms, if (digitsValue ms : Int) = stream.lastMs then stream.lastSeq + 1 else firstSeq (digitsValue ms))
  | explicit ms seq => (digitsValue ms, digitsValue seq)

/-- The ID that is stored: a given one as it is, a generated one in decimal. -/
def id (stream : Stream) (now : Int) : IdForm → Bytes
  | explicit ms seq => ms ++ 45 :: seq
  | form => idText (form.pair stream now).1 (form.pair stream now).2

end IdForm

/-- Both components are numbers in 64 bits. -/
def PairInRange (pair : Int × Int) : Prop :=
  (-2 ^ 63 ≤ pair.1 ∧ pair.1 < 2 ^ 63) ∧ -2 ^ 63 ≤ pair.2 ∧ pair.2 < 2 ^ 63

section Forms

variable {stream : Stream} {form : IdForm} {now : Int}

/-- The numbers of the form are the last ones, but for one more in the second. -/
def IdForm.TakesNext (stream : Stream) (now : Int) : IdForm → Prop
  | .automatic => stream.entries ≠ [] ∧ ¬ stream.lastMs < now
  | .millisecond ms => (digitsValue ms : Int) = stream.lastMs
  | .explicit _ _ => False

theorem IdForm.TakesNext.room (takes : form.TakesNext stream now) (inRange : PairInRange (form.pair stream now)) :
    stream.lastSeq ≠ 2 ^ 63 - 1 := by
  have high := inRange.2.2
  cases form with
  | automatic =>
    dsimp only [IdForm.pair] at high
    rw [if_neg takes.1, if_neg takes.2] at high
    dsimp only at high
    omega
  | millisecond ms =>
    have same : (digitsValue ms : Int) = stream.lastMs := takes
    dsimp only [IdForm.pair] at high
    rw [if_pos same] at high
    omega
  | explicit ms seq => exact absurd takes not_false

theorem nextSeq_pair_iff {ms : Int} {pair : Int × Int} {u : World D} :
    (nextSeq stream >>= fun seq => pure (ms, seq)) w = .ok (pair, u) ↔
      pair = (ms, stream.lastSeq + 1) ∧ u = w ∧ stream.lastSeq ≠ 2 ^ 63 - 1 := by
  by_cases full : stream.lastSeq = 2 ^ 63 - 1
  · have stops : nextSeq stream w = .error .overflow := by
      rw [nextSeq, if_pos full]
      rfl
    rw [bind_of_error stops]
    simp [full]
  · have next : nextSeq stream w = .ok (stream.lastSeq + 1, w) := by
      rw [nextSeq, if_neg full]
      rfl
    rw [bind_of_ok next]
    constructor
    · intro run
      obtain ⟨rfl, rfl⟩ := Prod.mk.inj (Except.ok.inj run)
      exact ⟨rfl, rfl, full⟩
    · rintro ⟨rfl, rfl, _⟩
      rfl

/-- What is generated for a form is the pair of the form, unless it is behind the greatest number. -/
theorem generatedPair_iff {pair : Int × Int} {u : World D} (notExplicit : ∀ ms seq, form ≠ .explicit ms seq)
    (isDecimal : form.IsDecimal) :
    generatedPair stream form.text now w = .ok (pair, u) ↔
      pair = form.pair stream now ∧ u = w ∧ (form.TakesNext stream now → stream.lastSeq ≠ 2 ^ 63 - 1) := by
  cases form with
  | automatic =>
    have whole : strstr (lit "*") (lit "-*") = false := by decide
    unfold generatedPair IdForm.text IdForm.pair IdForm.TakesNext
    rw [whole, if_neg (by decide)]
    by_cases empty : stream.entries = []
    · rw [if_pos empty, if_pos empty]
      simp [empty, eq_comm]
    rw [if_neg empty, if_neg empty]
    by_cases later : stream.lastMs < now
    · rw [if_pos later, if_pos later]
      simp [later, eq_comm]
    · rw [if_neg later, if_neg later, nextSeq_pair_iff]
      simp [empty, later]
  | millisecond ms =>
    unfold IdForm.text IdForm.pair IdForm.TakesNext
    rw [generatedPair_star isDecimal]
    dsimp only
    by_cases same : (digitsValue ms : Int) = stream.lastMs
    · rw [if_pos same, if_pos same, nextSeq_pair_iff]
      simp [same]
    · rw [if_neg same, if_neg same]
      simp [same, eq_comm]
  | explicit ms seq => exact absurd rfl (notExplicit ms seq)

theorem generatedPair_run (notExplicit : ∀ ms seq, form ≠ .explicit ms seq) (isDecimal : form.IsDecimal)
    (inRange : PairInRange (form.pair stream now)) (w : World D) :
    generatedPair stream form.text now w = .ok (form.pair stream now, w) :=
  (generatedPair_iff notExplicit isDecimal).mpr ⟨rfl, rfl, fun takes => takes.room inRange⟩

/-- The ID of the new entry is the one that the form stands for. -/
theorem IdForm.chooses (isDecimal : form.IsDecimal) (inRange : PairInRange (form.pair stream (w.clock 0))) :
    ∃ chosen, chooseId stream form.text w = .ok (form.id stream (w.clock 0), chosen) := by
  have reads : getCurrentTimeMs w = .ok (w.clock 0, w.tick) := rfl
  cases form with
  | automatic =>
    have generates := generatedPair_run (fun _ _ => by simp) isDecimal inRange w.tick
    refine ⟨w.tick, ?_⟩
    unfold chooseId generateId
    rw [IdForm.text] at generates ⊢
    rw [if_pos (by decide), bind_of_ok reads, bind_of_ok generates]
    rfl
  | millisecond ms =>
    have generates := generatedPair_run (fun _ _ => by simp) isDecimal inRange w.tick
    refine ⟨w.tick, ?_⟩
    unfold chooseId generateId
    rw [IdForm.text] at generates ⊢
    rw [if_pos partial_automatic, bind_of_ok reads, bind_of_ok generates]
    rfl
  | explicit ms seq => exact ⟨w, chooseId_plain (explicit_plain isDecimal.1 isDecimal.2) w⟩

theorem IdForm.idPair_id (isDecimal : form.IsDecimal) (inRange : PairInRange (form.pair stream now)) :
    idPair (form.id stream now) = some (form.pair stream now) := by
  cases form with
  | explicit ms seq => exact idPair_decimals isDecimal.1 isDecimal.2
  | automatic => exact idPair_idText inRange.1.1 inRange.1.2 inRange.2.1 inRange.2.2
  | millisecond ms => exact idPair_idText inRange.1.1 inRange.1.2 inRange.2.1 inRange.2.2

theorem IdForm.noNul (isDecimal : form.IsDecimal) : 0 ∉ form.id stream now := by
  have digits {text : Bytes} (isText : Decimal64 text) : 0 ∉ text := fun member => absurd (isText.digits 0 member) (by decide)
  have number (n : Int) : 0 ∉ decimalInt n := by
    cases n with
    | ofNat n => exact fun member => absurd (isdigit_of_mem_decimal member) (by decide)
    | negSucc n =>
      intro member
      obtain sign | member := List.mem_cons.mp member
      · cases sign
      · exact absurd (isdigit_of_mem_decimal member) (by decide)
  have generated (ms seq : Int) : 0 ∉ idText ms seq := by
    simp only [idText, List.mem_append, not_or]
    exact ⟨⟨number ms, by decide⟩, number seq⟩
  cases form with
  | explicit ms seq =>
    simp only [IdForm.id, List.mem_append, List.mem_cons, not_or]
    exact ⟨digits isDecimal.1, by decide, digits isDecimal.2⟩
  | automatic => exact generated _ _
  | millisecond ms => exact generated _ _

/-- What is sent for an ID, and the stale memory behind it. -/
theorem sendEntryId_run {clientFd : Int} (ordinary : clientFd ≠ w.serverConfig.masterFd) (id : Bytes) :
    ((bulk id).length < 128 ∧ sendEntryId clientFd id w = .ok ((), w.emit clientFd (bulk id))) ∨
      128 ≤ (bulk id).length ∧ ∃ behind t, OnlyStale w t ∧
        sendEntryId clientFd id w = .ok ((), t.emit clientFd ((bulk id).take 127 ++ 0 :: behind)) := by
  unfold sendEntryId
  rw [bind_of_ok (show config w = .ok (w.serverConfig, w) from rfl), if_pos ordinary]
  by_cases long : 128 < (bulk id).length
  · rw [if_neg (Nat.not_le.mpr long)]
    exact .inr ⟨long.le, _, w.takeFresh, rfl, rfl⟩
  rw [if_pos (Nat.not_lt.mp long)]
  unfold Buffer.sendPrefix
  rw [if_neg long]
  by_cases short : (bulk id).length < 128
  · refine .inl ⟨short, ?_⟩
    rw [List.take_of_length_le (show (bulk id).length ≤ 127 by omega), List.take_length, Nat.sub_self,
      List.replicate_zero, List.append_nil]
    rfl
  · -- the last byte of what is sent is the NUL
    have exact : (bulk id).length = 128 := by omega
    refine .inr ⟨by omega, [], w, rfl, ?_⟩
    rw [List.length_take, exact, List.take_of_length_le (by simp), show 128 - min 127 128 = 1 by decide, List.replicate_one]
    rfl

/-- The ID is sent as it is where the array has room for it. -/
theorem sendEntryId_iff {clientFd : Int} {id : Bytes} (ordinary : clientFd ≠ w.serverConfig.masterFd) (noNul : 0 ∉ id) :
    sendEntryId clientFd id w = .ok ((), w.emit clientFd (bulk id)) ↔ (bulk id).length < 128 := by
  obtain ⟨short, sends⟩ | ⟨long, behind, t, stale, sends⟩ := sendEntryId_run ordinary id
  · exact iff_of_true sends short
  refine iff_of_false (fun whole => ?_) (Nat.not_lt.mpr long)
  rw [sends] at whole
  have same : t.sent ++ [(clientFd, (bulk id).take 127 ++ 0 :: behind)] = w.sent ++ [(clientFd, bulk id)] :=
    congrArg World.sent (Prod.mk.inj (Except.ok.inj whole)).2
  rw [stale] at same
  have texts := (Prod.mk.inj (List.singleton_inj.mp (List.append_cancel_left same))).2
  -- no byte of the reply is a NUL
  have inside : 0 ∈ bulk id := texts ▸ List.mem_append_right _ List.mem_cons_self
  simp only [bulk, List.mem_append] at inside
  obtain (((dollar | digit) | stop) | member) | stop := inside
  · exact absurd dollar (by decide)
  · exact absurd (isdigit_of_mem_decimal digit) (by decide)
  · exact absurd stop (by decide)
  · exact noNul member
  · exact absurd stop (by decide)

end Forms

/-! ## The law of XADD -/

/-- The request is rejected with the table as it was, or one entry with the ID and the fields of the request is linked
behind the others, which leaves the stream well formed, and its ID is sent before the readers are woken. -/
structure XaddLaw (w : World D) (req : RespRequest) (clientFd : Int) (key : Bytes) (stream : Stream) (ids : List Bytes)
    (id : Bytes) : Prop where
  splits : handleSet req .stream clientFd w = (linkEntry req >>= answerXadd clientFd key) w
  ends : ∃ outcome linked, linkEntry req w = .ok (outcome, linked)
  rejected : ∀ errorResp linked, linkEntry req w = .ok (.error errorResp, linked) →
    linked.table = w.table ∧
      handleSet req .stream clientFd w = .ok ((), linked.emit clientFd errorResp)
  appended : ∀ entryId linked, linkEntry req w = .ok (.ok entryId, linked) → ∃ pair expiresAt,
    lookup linked.table key = .ok (some ⟨.stream (stream.append ⟨id, req.args.drop 2⟩ pair), expiresAt⟩) ∧
      (stream.append ⟨id, req.args.drop 2⟩ pair).WellFormed (ids ++ [id])
  replied : ∀ entryId linked, linkEntry req w = .ok (.ok entryId, linked) → linked.sent = w.sent ∧ entryId = id ∧
    sendEntryId clientFd id linked = .ok ((), linked.emit clientFd (bulk id))
  kept : ∀ entryId linked t, linkEntry req w = .ok (.ok entryId, linked) →
    handleSet req .stream clientFd w = .ok ((), t) → t.table = linked.table

section Law

variable {req : RespRequest} {clientFd : Int} {key : Bytes} {stream : Stream} {ids : List Bytes} {form : IdForm}

theorem answerXadd_table {outcome : Except Bytes Bytes} (run : answerXadd clientFd key outcome w = .ok ((), t)) :
    t.table = w.table := by
  have same : SameTable w t := by
    cases outcome with
    | error errorResp => exact (obeys_sendUnlessMaster ambient_sameTable clientFd errorResp w).1 _ _ run
    | ok entryId =>
      obtain ⟨_, replied, replies, wakes⟩ := bind_eq_ok.mp run
      have sends : SameTable w replied := (obeys_sendEntryId ambient_sameTable entryId w).1 _ _ replies
      have woken : SameTable replied t := (obeys_forM ambient_sameTable clientSlots
        (fun slot _ => obeys_wakeStreamReader ambient_sameTable mayBlock_sameTable key slot) replied).1 _ _ wakes
      exact Eq.trans woken sends
  exact same

/-- A request that is rejected changes nothing but what was sent. -/
theorem xaddLaw_of_rejected (ordinary : clientFd ≠ w.serverConfig.masterFd) (isKey : req.args[0]? = some key)
    (isId : req.args[1]? = some form.text) (opens : OpensStream w.table key stream) {errorResp : Bytes} {checked : World D}
    (checks : checkStreamId form.text stream.tail w = .ok (some errorResp, checked)) (stale : OnlyStale w checked)
    (id : Bytes) : XaddLaw w req clientFd key stream ids id := by
  have enough := lt_argc isId
  have splits : handleSet req .stream clientFd w = (linkEntry req >>= answerXadd clientFd key) w :=
    handleXadd_eq (by omega) isKey w
  have rejects := linkEntry_rejected isKey isId opens checks
  have notLinked {entryId : Bytes} {linked : World D} (links : linkEntry req w = .ok (.ok entryId, linked)) : False := by
    rw [rejects] at links
    cases links
  have sends : answerXadd clientFd key (.error errorResp) checked = .ok ((), checked.emit clientFd errorResp) := by
    have other : clientFd ≠ checked.serverConfig.masterFd := by rwa [stale]
    rw [answerXadd, sendUnlessMaster, bind_of_ok (show config checked = .ok (checked.serverConfig, checked) from rfl),
      if_pos other]
    rfl
  refine ⟨splits, ⟨_, _, rejects⟩, fun other linked links => ?_, fun _ _ links => (notLinked links).elim,
    fun _ _ links => (notLinked links).elim, fun _ _ _ links => (notLinked links).elim⟩
  obtain ⟨same, rfl⟩ := Prod.mk.inj (Except.ok.inj (rejects.symm.trans links))
  obtain rfl := Except.error.inj same
  refine ⟨by rw [stale], ?_⟩
  rw [splits, bind_of_ok rejects, sends]

/-- For every well-formed stream, or a free key, and every XADD of an ordinary client with a `*`, an `ms-*` or a decimal
ID: the law holds if and only if, where the ID is accepted, the reply has room for it and the stream is not one without
entries in the first node of its bucket. -/
theorem xadd_law_iff (ordinary : clientFd ≠ w.serverConfig.masterFd) (isKey : req.args[0]? = some key)
    (isId : req.args[1]? = some form.text) (isDecimal : form.IsDecimal) (opens : OpensStream w.table key stream)
    (wellFormed : stream.WellFormed ids) (inRange : PairInRange (form.pair stream (w.clock 0))) :
    XaddLaw w req clientFd key stream ids (form.id stream (w.clock 0)) ↔
      ∀ checked, checkStreamId form.text stream.tail w = .ok (none, checked) →
        (bulk (form.id stream (w.clock 0))).length < 128 ∧ ¬ StoresFreed w.table req := by
  have enough := lt_argc isId
  obtain ⟨errorMsg, checked, checks, stale⟩ := checkStreamId_total form.text stream.tail w
  cases errorMsg with
  | some errorResp =>
    -- a refused ID appends nothing, and the law asks for nothing more
    refine iff_of_true (xaddLaw_of_rejected ordinary isKey isId opens checks stale _) fun other accepts => ?_
    rw [checks] at accepts
    cases accepts
  | none =>
    have sameClock : checked.clock = w.clock := by rw [stale]
    have isPair := form.idPair_id isDecimal inRange
    rw [← sameClock] at inRange isPair ⊢
    obtain ⟨chosen, chooses⟩ := form.chooses isDecimal inRange
    have freed_iff := storesFreed_iff (by omega) isKey opens
    by_cases freed : FreesOpened w.table key stream
    · have stops := linkEntry_freed isKey isId opens freed checks chooses
      refine iff_of_false (fun law => ?_) fun condition => (condition checked checks).2 (freed_iff.mpr freed)
      obtain ⟨outcome, linked, links⟩ := law.ends
      rw [stops] at links
      cases links
    obtain ⟨pair, scanned, linked, expiresAt, scans, links, same, stores⟩ :=
      linkEntry_accepted isKey isId opens wellFormed.tail freed checks chooses
    have noNul : 0 ∉ form.id stream (checked.clock 0) := form.noNul isDecimal
    obtain ⟨rfl, rfl⟩ := Prod.mk.inj (Except.ok.inj ((scanId_of_pair isPair chosen).symm.trans scans))
    have other : clientFd ≠ linked.serverConfig.masterFd := by rwa [same.serverConfig]
    -- `linkEntry` has one outcome, the one that was just found
    have only {outcome : Except Bytes Bytes} {linked' : World D} (links' : linkEntry req w = .ok (outcome, linked')) :
        outcome = .ok (form.id stream (checked.clock 0)) ∧ linked' = linked := by
      obtain ⟨rfl, rfl⟩ := Prod.mk.inj (Except.ok.inj (links.symm.trans links'))
      exact ⟨rfl, rfl⟩
    constructor
    · intro law checked' _
      obtain ⟨_, _, sends⟩ := law.replied _ _ links
      exact ⟨(sendEntryId_iff other noNul).mp sends, fun stored => freed (freed_iff.mp stored)⟩
    · intro condition
      obtain ⟨fits, _⟩ := condition checked checks
      have splits : handleSet req .stream clientFd w = (linkEntry req >>= answerXadd clientFd key) w :=
        handleXadd_eq (by omega) isKey w
      refine ⟨splits, ⟨_, _, links⟩, fun _ _ links' => ?_, fun _ _ links' => ?_, fun entryId _ links' => ?_,
        fun _ _ t links' run => ?_⟩
      · cases (only links').1
      · obtain ⟨_, rfl⟩ := only links'
        exact ⟨_, expiresAt, lookup_of_binding stores.binding_self, wellFormed.append isPair⟩
      · obtain ⟨isId', rfl⟩ := only links'
        exact ⟨same.sent, Except.ok.inj isId', (sendEntryId_iff other noNul).mpr fits⟩
      · obtain ⟨_, rfl⟩ := only links'
        rw [splits, bind_of_ok links] at run
        exact answerXadd_table run

theorem decimal64_of_all {text : Bytes} (digits : text.all isdigit = true) (nonempty : text ≠ [])
    (inRange : digitsValue text < 2 ^ 63) : Decimal64 text :=
  ⟨List.all_eq_true.mp digits, nonempty, inRange⟩

theorem blankWorld_opens {key : Bytes} (indexed : (bucketOf key).isSome = true) :
    OpensStream (blankWorld D).table key .zeroed := by
  obtain ⟨bucket, inBucket⟩ := Option.isSome_iff_exists.mp indexed
  exact .inl ⟨(lookup_of_bucket inBucket).mpr rfl, rfl⟩

/-- XADD k 5-1 on an empty table appends the entry. -/
theorem xadd_law_iff_first : XaddLaw (blankWorld Int) (xaddWithId "5-1") 5 (lit "k") .zeroed [] (lit "5-1") ∧
    ∃ linked, linkEntry (xaddWithId "5-1") (blankWorld Int) = .ok (.ok (lit "5-1"), linked) := by
  have isKey : (xaddWithId "5-1").args[0]? = some (lit "k") := by decide +kernel
  have isId : (xaddWithId "5-1").args[1]? = some (IdForm.explicit (lit "5") (lit "1")).text := by decide +kernel
  have isDecimal : (IdForm.explicit (lit "5") (lit "1")).IsDecimal :=
    ⟨decimal64_of_all (by decide) (by decide) (by decide), decimal64_of_all (by decide) (by decide) (by decide)⟩
  have opens : OpensStream (blankWorld Int).table (lit "k") .zeroed := blankWorld_opens (by decide +kernel)
  have inRange : PairInRange ((IdForm.explicit (lit "5") (lit "1")).pair .zeroed ((blankWorld Int).clock 0)) := by
    show PairInRange ((digitsValue (lit "5") : Int), (digitsValue (lit "1") : Int))
    unfold PairInRange
    decide +kernel
  have sameId : (IdForm.explicit (lit "5") (lit "1")).id .zeroed ((blankWorld Int).clock 0) = lit "5-1" := by decide +kernel
  have free : ¬ StoresFreed (blankWorld Int).table (xaddWithId "5-1") := by
    rintro ⟨_, key, bucket, stream, expiresAt, rest, _, _, nodes, _⟩
    cases nodes
  have law := (xadd_law_iff (show (5 : Int) ≠ (blankWorld Int).serverConfig.masterFd by decide) isKey isId isDecimal opens
    zeroed_wellFormed inRange).mpr fun _ _ => ⟨by rw [sameId]; decide +kernel, free⟩
  obtain ⟨chosen, chooses⟩ := IdForm.chooses isDecimal inRange
  obtain ⟨_, _, linked, _, _, links, _⟩ :=
    linkEntry_accepted isKey isId opens rfl (fun freed => free ((storesFreed_iff (by decide +kernel) isKey opens).mpr freed))
      (show checkStreamId _ none (blankWorld Int) = .ok (none, _) from rfl) chooses
  rw [sameId] at law links
  exact ⟨law, linked, links⟩

/-- A table whose only key is bound to an empty stream. -/
theorem storesFreed_worldWith (indexed : bucketOf key ≠ none) (isKey : req.args[0]? = some key) (enough : 2 ≤ req.argc) :
    StoresFreed (worldWith (D := D) key (.stream .zeroed)).table req := by
  obtain ⟨bucket, inBucket⟩ := Option.ne_none_iff_exists'.mp indexed
  exact ⟨enough, key, bucket, .zeroed, 0, [], isKey, inBucket, by simp [worldWith, inBucket], rfl⟩

/-- An ID with 130 leading zeros. -/
def zerosOne : Bytes := List.replicate 130 48 ++ [49]

def xaddWithZeros : RespRequest := requestOf [lit "XADD", lit "k", zerosOne ++ 45 :: lit "1", lit "f", lit "v"]

/-- The reply of an ID with many zeros does not fit its array; and an empty stream is freed before it is stored. -/
theorem xadd_breaks_law :
    ¬ XaddLaw (blankWorld Int) xaddWithZeros 5 (lit "k") .zeroed [] (zerosOne ++ 45 :: lit "1") ∧
      ¬ XaddLaw (worldWith (D := Int) (lit "k") (.stream .zeroed)) (xaddWithId "5-1") 5 (lit "k") .zeroed [] (lit "5-1") := by
  constructor
  · intro law
    have isKey : xaddWithZeros.args[0]? = some (lit "k") := by decide +kernel
    have isId : xaddWithZeros.args[1]? = some (zerosOne ++ 45 :: lit "1") := by decide +kernel
    have plain : strchr (zerosOne ++ 45 :: lit "1") 42 = false := by decide +kernel
    have opens : OpensStream (blankWorld Int).table (lit "k") .zeroed := blankWorld_opens (by decide +kernel)
    have kept : ¬ FreesOpened (blankWorld Int).table (lit "k") .zeroed := by
      rintro ⟨_, bucket, _, isFirst⟩
      cases isFirst
    obtain ⟨_, _, linked, _, _, links, same, _⟩ := linkEntry_accepted isKey isId opens rfl kept
      (show checkStreamId _ none (blankWorld Int) = .ok (none, _) from rfl) (chooseId_plain plain (blankWorld Int))
    have ordinary : (5 : Int) ≠ linked.serverConfig.masterFd := by
      rw [same.serverConfig]
      decide
    obtain ⟨_, _, sends⟩ := law.replied _ _ links
    exact absurd ((sendEntryId_iff ordinary (by decide +kernel)).mp sends) (by decide +kernel)
  · intro law
    have isKey : (xaddWithId "5-1").args[0]? = some (lit "k") := by decide +kernel
    have isId : (xaddWithId "5-1").args[1]? = some (lit "5-1") := by decide +kernel
    have plain : strchr (lit "5-1") 42 = false := by decide
    have found := lookup_worldWith (D := Int) indexed_k (.stream .zeroed)
    have opens : OpensStream (worldWith (D := Int) (lit "k") (.stream .zeroed)).table (lit "k") .zeroed := .inr ⟨0, found⟩
    have freed := (storesFreed_iff (w := worldWith (D := Int) (lit "k") (.stream .zeroed)) (by decide +kernel) isKey opens).mp
      (storesFreed_worldWith indexed_k isKey (by decide +kernel))
    have stops := linkEntry_freed isKey isId opens freed
      (show checkStreamId _ none (worldWith (D := Int) (lit "k") (.stream .zeroed)) = .ok (none, _) from rfl)
      (chooseId_plain plain _)
    obtain ⟨outcome, linked, links⟩ := law.ends
    rw [stops] at links
    cases links

end Law

end RedisClone
