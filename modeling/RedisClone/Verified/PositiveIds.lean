import RedisClone.Verified.AcceptedIds

/-! # The ID 0-0

`PositiveTable` says that every stored ID is greater than 0-0.  `validate_stream_id` refuses 0-0, but a stream without a
tail does not ask it, and an array that `sscanf` has not assigned may read `*` and stand for the short cut `ms-*`.
`positive_ids_run` says that every run of XADDs in which these requests stand for a greater ID keeps the invariant.
-/

namespace RedisClone

open Exec CString

variable {D : Type} {w t : World D}

/-! ## The invariant -/

/-- The ID is read as two numbers, greater than 0-0. -/
def Positive (id : Bytes) : Prop := ∃ pair, idPair id = some pair ∧ IdBefore (0, 0) pair

structure PositiveIds (stream : Stream) : Prop where
  tail : stream.tail = stream.entries.getLast?
  last : ∀ entry ∈ stream.tail, idPair entry.id = some (stream.lastMs, stream.lastSeq)
  empty : stream.entries = [] → stream.lastMs = 0 ∧ stream.lastSeq = 0
  positive : ∀ entry ∈ stream.entries, Positive entry.id

/-- Every ID of every stream is greater than 0-0. -/
def PositiveTable (table : Table D) : Prop :=
  ∀ bucket key stream expiresAt, (key, ⟨.stream stream, expiresAt⟩) ∈ (table bucket).nodes → PositiveIds stream

section Invariant

variable {stream : Stream} {table table' : Table D} {key : Bytes} {entry : StreamEntry} {pair : Int × Int}

theorem positiveIds_zeroed : PositiveIds .zeroed :=
  ⟨rfl, by simp [Stream.zeroed], fun _ => ⟨rfl, rfl⟩, by simp [Stream.zeroed]⟩

theorem PositiveIds.lastPositive (positive : PositiveIds stream) (isTail : stream.tail = some entry) :
    idPair entry.id = some (stream.lastMs, stream.lastSeq) ∧ IdBefore (0, 0) (stream.lastMs, stream.lastSeq) := by
  have isLast := positive.last entry isTail
  obtain ⟨pair, isPair, greater⟩ := positive.positive entry (List.mem_of_getLast? (positive.tail.symm.trans isTail))
  obtain rfl := Option.some.inj (isLast.symm.trans isPair)
  exact ⟨isLast, greater⟩

/-- The last numbers are in 64 bits, and 0-0 is not greater. -/
theorem PositiveIds.lastNumbers (positive : PositiveIds stream) :
    PairInRange (stream.lastMs, stream.lastSeq) ∧ 0 ≤ stream.lastMs ∧ (stream.lastMs = 0 → 0 ≤ stream.lastSeq) := by
  cases isTail : stream.tail with
  | none =>
    obtain ⟨zeroMs, zeroSeq⟩ := positive.empty (List.getLast?_eq_none_iff.mp (positive.tail.symm.trans isTail))
    simp [PairInRange, zeroMs, zeroSeq]
  | some entry =>
    obtain ⟨isLast, greater⟩ := positive.lastPositive isTail
    refine ⟨scanPair_range (idPair_eq_some.mp isLast), ?_⟩
    unfold IdBefore at greater
    omega

theorem PositiveIds.append (positive : PositiveIds stream) (isPair : idPair entry.id = some pair)
    (greater : IdBefore (0, 0) pair) : PositiveIds (stream.append entry pair) where
  tail := by simp [Stream.append]
  last other isTail := by
    obtain rfl := Option.some.inj isTail
    exact isPair
  empty isEmpty := by simp [Stream.append] at isEmpty
  positive other member := by
    obtain old | new := List.mem_append.mp member
    · exact positive.positive other old
    · obtain rfl := List.mem_singleton.mp new
      exact ⟨pair, isPair, greater⟩

theorem PositiveTable.stored (positive : PositiveTable table) (key : Bytes) : PositiveIds (storedStream table key) := by
  unfold storedStream
  split
  · rename_i stream expiresAt bound
    obtain ⟨bucket, _, found⟩ := Option.bind_eq_some_iff.mp bound
    exact positive bucket key stream expiresAt (Chain.mem_of_value found)
  · exact positiveIds_zeroed

/-- Whatever a write leaves in the chains was there, or is what it wrote. -/
theorem Stores.member {written : Entry D} {overwrites : Bool} (stores : Stores table key written overwrites table')
    {bucket : Bucket} {node : Bytes × Entry D} (member : node ∈ (table' bucket).nodes) :
    node ∈ (table bucket).nodes ∨ node.2 = written := by
  have elsewhere {home : Bucket} {chain : Chain Bytes (Entry D)}
      (here : node ∈ chain.nodes → node ∈ (table home).nodes ∨ node.2 = written)
      (member : node ∈ (Function.update table home chain bucket).nodes) :
      node ∈ (table bucket).nodes ∨ node.2 = written := by
    by_cases same : bucket = home
    · subst same
      rw [Function.update_self] at member
      exact here member
    · rw [Function.update_of_ne same] at member
      exact .inl member
  cases stores with
  | changed _ _ =>
    refine elsewhere (fun member => ?_) member
    obtain old | ⟨_, isNew⟩ := Chain.updateNodes_member member
    · exact .inl old
    · exact .inr isNew
  | pushed _ _ =>
    refine elsewhere (fun member => ?_) member
    obtain rfl | old := List.mem_cons.mp member
    · exact .inr rfl
    · exact .inl old
  | @replaced home _ wild =>
    refine elsewhere (fun member => ?_) member
    unfold Chain.replaceHead at member
    split at member
    · obtain rfl := List.mem_singleton.mp member
      exact .inr rfl
    · rename_i isNodes
      obtain rfl | old := List.mem_cons.mp member
      · exact .inr rfl
      · exact .inl (isNodes ▸ List.mem_cons_of_mem _ old)

theorem PositiveTable.stores (positive : PositiveTable table) {expiresAt : Int} {overwrites : Bool}
    (stores : Stores table key ⟨.stream stream, expiresAt⟩ overwrites table') (isNew : PositiveIds stream) :
    PositiveTable table' := by
  intro bucket other found otherExpires member
  obtain old | new := stores.member member
  · exact positive bucket other found otherExpires old
  · cases new
    exact isNew

end Invariant

/-! ## What an ID stands for -/

/-- An ID with a star is generated, after the number in front of `-*` where it has one; any other is stored as it is. -/
def StandsForPositive (id : Bytes) : Prop :=
  if strchr id 42 = true then strstr id (lit "-*") = true → ∃ ms rest, scanInteger id = some (ms, rest) ∧ 0 ≤ ms
  else Positive id

/-- The stream has no tail, or `sscanf` leaves `seq` as it was and the arrays read as the short cut `ms-*`. -/
def NotCompared (w : World D) (stream : Stream) (id : Bytes) : Prop :=
  stream.tail = none ∨ (scanIdTexts id).2 = none ∧ strstr id (lit "-") = true ∧
    ∃ ms seq u, idArrays id w = .ok ((ms, seq), u) ∧ ms ≠ lit "*" ∧ ShortCut ms seq ∧ (scanInteger ms).isSome = true

/-- The clock does not read a time before 1970. -/
def World.SinceEpoch (w : World D) : Prop := ∀ n, 0 ≤ w.clock n ∧ w.clock n < 2 ^ 63

section StandsFor

variable {stream : Stream} {id entryId tailId ms seq : Bytes} {last pair : Int × Int} {now : Int} {u : World D}

theorem scanInteger_of_pair (isPair : idPair id = some pair) : ∃ rest, scanInteger id = some (pair.1, rest) := by
  have scans := idPair_eq_some.mp isPair
  unfold scanPair at scans
  split at scans
  · simp at scans
  · rename_i first rest isScan
    obtain ⟨isFirst, _⟩ := Prod.mk.inj scans
    obtain rfl := Option.some.inj isFirst
    exact ⟨_, isScan⟩
  · simp at scans

/-- Where the second array is assigned, the first one is all of the text before the minus. -/
theorem scanIdTexts_assigned (assigned : (scanIdTexts id).2 = some seq) :
    ∃ ms rest, scanIdTexts id = (some ms, some seq) ∧ id = ms ++ 45 :: rest ∧ (45 : UInt8) ∉ ms ∧ seq ⊆ rest := by
  unfold scanIdTexts at assigned ⊢
  dsimp only at assigned ⊢
  split at assigned
  · simp at assigned
  rename_i nonempty
  rw [if_neg nonempty]
  split at assigned
  · rename_i rest isRest
    dsimp only at assigned
    split at assigned
    · simp at assigned
    rename_i seqNonempty
    obtain rfl := Option.some.inj assigned
    refine ⟨(id.takeWhile (· ≠ 45)).take 63, rest, ?_, ?_, ?_, ?_⟩
    · rw [if_neg seqNonempty]
    · -- the array is a prefix of the ID, and `rest` is what follows the minus
      have whole :=
        List.prefix_iff_eq_take.mp ((List.take_prefix 63 _).trans (List.takeWhile_prefix (· ≠ 45) (l := id)))
      rw [← isRest]
      exact (congrArg (· ++ _) whole).trans (List.take_append_drop _ id) |>.symm
    · intro minus
      simpa using List.mem_takeWhile_imp (List.mem_of_mem_take minus)
    · intro c member
      exact (List.dropWhile_suffix _).subset ((List.takeWhile_prefix _).subset (List.mem_of_mem_take member))
  · simp at assigned

/-- An ID that the check lets through by the arrays that were assigned stands for one greater than 0-0. -/
theorem standsForPositive_of_accepts (isLast : idPair tailId = some last) (greater : IdBefore (0, 0) last)
    (accepts : AcceptsId w tailId id) (compared : ¬ NotCompared w stream id) : StandsForPositive id := by
  obtain rfl | ⟨minus, ms, seq, u, arrays, notStar, ⟨cut, isNumber⟩ | ⟨_, pair, v, isPair, _, isBigger⟩⟩ := accepts
  · unfold StandsForPositive
    rw [if_pos (by decide)]
    intro partly
    exact absurd partly (by decide)
  · -- the second array was assigned, so the star is one of the ID
    cases assigned : (scanIdTexts id).2 with
    | none => exact absurd (.inr ⟨assigned, minus, ms, seq, u, arrays, notStar, cut, isNumber⟩) compared
    | some seq' =>
      obtain ⟨ms', rest, texts, rfl, noMinus, inside⟩ := scanIdTexts_assigned assigned
      have arrays' : idArrays (ms' ++ 45 :: rest) w = .ok ((ms', seq'), w) := by
        unfold idArrays
        rw [texts]
        rfl
      obtain ⟨same, rfl⟩ := Prod.mk.inj (Except.ok.inj (arrays.symm.trans arrays'))
      obtain ⟨rfl, rfl⟩ := Prod.mk.inj same
      obtain ⟨⟨n, left⟩, scans⟩ := Option.isSome_iff_exists.mp isNumber
      obtain ⟨scans', nonneg⟩ : scanInteger (ms ++ 45 :: rest) = some (n, left ++ 45 :: rest) ∧ 0 ≤ n :=
        scanInteger_before_minus noMinus scans
      have star : strchr (ms ++ 45 :: rest) 42 = true := by
        have inRest : (42 : UInt8) ∈ rest := inside (cut.1 ▸ by decide)
        simp [strchr, inRest]
      unfold StandsForPositive
      rw [if_pos star]
      intro _
      exact ⟨n, _, scans', nonneg⟩
  · rw [isBigger_of_pairs isLast isPair] at isBigger
    have after : IdBefore last pair := by
      have bigger := (Prod.mk.inj (Except.ok.inj isBigger)).1
      simp only [Bool.or_eq_true, Bool.and_eq_true, decide_eq_true_eq, beq_iff_eq] at bigger
      exact bigger.imp_right (And.imp_left Eq.symm)
    have positive := greater.trans after
    unfold StandsForPositive
    split
    · intro _
      obtain ⟨rest, scans⟩ := scanInteger_of_pair isPair
      unfold IdBefore at positive
      exact ⟨pair.1, rest, scans, by omega⟩
    · exact ⟨pair, isPair, positive⟩

theorem firstSeq_positive {ms : Int} (nonneg : 0 ≤ ms) (small : ms < 2 ^ 63) :
    IdBefore (0, 0) (ms, firstSeq ms) ∧ PairInRange (ms, firstSeq ms) := by
  unfold IdBefore PairInRange firstSeq
  split <;> omega

/-- The number behind the last one. -/
theorem PositiveIds.next (positive : PositiveIds stream) (room : stream.lastSeq ≠ 2 ^ 63 - 1) :
    IdBefore (0, 0) (stream.lastMs, stream.lastSeq + 1) ∧ PairInRange (stream.lastMs, stream.lastSeq + 1) := by
  obtain ⟨range, nonneg, zero⟩ := positive.lastNumbers
  unfold IdBefore PairInRange at *
  omega

theorem generatedPair_positive (positive : PositiveIds stream) (clock : 0 ≤ now ∧ now < 2 ^ 63)
    (stands : strstr id (lit "-*") = true → ∃ ms rest, scanInteger id = some (ms, rest) ∧ 0 ≤ ms)
    (generates : generatedPair stream id now w = .ok (pair, u)) : IdBefore (0, 0) pair ∧ PairInRange pair := by
  unfold generatedPair at generates
  split at generates
  · rename_i partly
    obtain ⟨ms, rest, scans, nonneg⟩ := stands partly
    obtain ⟨_, small⟩ := scanInteger_range scans
    simp only [scans, Option.map_some, scanned, pure_bind] at generates
    split at generates
    · rename_i same
      obtain ⟨next, v, nexts, final⟩ := bind_eq_ok.mp generates
      obtain ⟨rfl, room⟩ := nextSeq_ok nexts
      obtain ⟨rfl, _⟩ := Prod.mk.inj (Except.ok.inj final)
      rw [same]
      exact positive.next room
    · obtain ⟨rfl, _⟩ := Prod.mk.inj (Except.ok.inj generates)
      exact firstSeq_positive nonneg small
  · split at generates
    · obtain ⟨rfl, _⟩ := Prod.mk.inj (Except.ok.inj generates)
      exact firstSeq_positive clock.1 clock.2
    split at generates
    · rename_i later
      obtain ⟨rfl, _⟩ := Prod.mk.inj (Except.ok.inj generates)
      obtain ⟨_, nonneg, _⟩ := positive.lastNumbers
      unfold IdBefore PairInRange
      omega
    · obtain ⟨next, v, nexts, final⟩ := bind_eq_ok.mp generates
      obtain ⟨rfl, room⟩ := nextSeq_ok nexts
      obtain ⟨rfl, _⟩ := Prod.mk.inj (Except.ok.inj final)
      exact positive.next room

theorem chooseId_positive (positive : PositiveIds stream) (clock : w.SinceEpoch) (stands : StandsForPositive id)
    (chooses : chooseId stream id w = .ok (entryId, t)) : Positive entryId := by
  unfold StandsForPositive at stands
  cases star : strchr id 42 with
  | false =>
    rw [star, if_neg (by decide)] at stands
    rw [chooseId_plain star] at chooses
    obtain ⟨rfl, _⟩ := Prod.mk.inj (Except.ok.inj chooses)
    exact stands
  | true =>
    rw [star, if_pos rfl] at stands
    obtain ⟨pair, u, generates, rfl⟩ := chooseId_generates star chooses
    obtain ⟨greater, range⟩ := generatedPair_positive positive (clock 0) stands generates
    exact ⟨pair, idPair_idText range.1.1 range.1.2 range.2.1 range.2.2, greater⟩

end StandsFor

/-! ## Runs of XADD -/

/-- An XADD, with the state that it is given in. -/
structure XaddFrom (D : Type) where
  start : World D
  req : RespRequest
  clientFd : Int

/-- The XADD ends; only the table is left by the one before. -/
def XaddRuns (w : World D) (call : XaddFrom D) (t : World D) : Prop :=
  call.start.table = w.table ∧ call.start.SinceEpoch ∧
    handleSet call.req .stream call.clientFd call.start = .ok ((), t)

/-- Where the ID is not compared with a last one, it stands for one greater than 0-0. -/
def PositiveCall (_ : World D) (call : XaddFrom D) : Prop :=
  ∀ key ∈ call.req.args[0]?, ∀ id ∈ call.req.args[1]?,
    NotCompared call.start (storedStream call.start.table key) id → StandsForPositive id

/-- Two numbers that are both zero, without a star. -/
def ZeroId (id : Bytes) : Prop := idPair id = some (0, 0) ∧ strchr id 42 = false

/-- The ID is answered with an error, and the table is as it was. -/
def RejectsId (w : World D) (req : RespRequest) : Prop :=
  ∃ errorResp t, linkEntry req w = .ok (.error errorResp, t) ∧ t.table = w.table

section Runs

variable {req : RespRequest} {clientFd : Int} {key id : Bytes} {stream : Stream}

theorem ZeroId.not_stands (zero : ZeroId id) : ¬ StandsForPositive id := by
  unfold StandsForPositive
  rw [zero.2, if_neg (by decide)]
  rintro ⟨pair, isPair, greater⟩
  obtain rfl := Option.some.inj (zero.1.symm.trans isPair)
  unfold IdBefore at greater
  omega

/-- An ID that is let through stands for one greater than 0-0, where it does not go around the comparison. -/
theorem PositiveIds.stands (positive : PositiveIds stream) {checked : World D}
    (checks : checkStreamId id stream.tail w = .ok (none, checked))
    (meets : NotCompared w stream id → StandsForPositive id) : StandsForPositive id := by
  by_cases compared : NotCompared w stream id
  · exact meets compared
  · cases isTail : stream.tail with
    | none => exact absurd (.inl isTail) compared
    | some last =>
      rw [isTail] at checks
      obtain ⟨isLast, greater⟩ := positive.lastPositive isTail
      exact standsForPositive_of_accepts isLast greater (validateStreamId_accepts_iff.mp ⟨checked, checks⟩) compared

theorem xadd_positive (positive : PositiveTable w.table) (clock : w.SinceEpoch)
    (meets : ∀ key ∈ req.args[0]?, ∀ id ∈ req.args[1]?,
      NotCompared w (storedStream w.table key) id → StandsForPositive id)
    (run : handleSet req .stream clientFd w = .ok ((), t)) : PositiveTable t.table := by
  cases handleXadd_ok run with
  | short few same => rwa [same]
  | rejected _ _ _ _ _ _ _ _ sameTable => rwa [sameTable]
  | appended key id entryId ms seq expiresAt checked chosen scannedWorld enough isKey isId checks chooses scans stores =>
    have isPositive := positive.stored key
    have checkedClock : checked.SinceEpoch := by
      obtain ⟨errorMsg, checked', checks', stale⟩ := checkStreamId_total id (storedStream w.table key).tail w
      obtain ⟨_, rfl⟩ := Prod.mk.inj (Except.ok.inj (checks'.symm.trans checks))
      rw [stale]
      exact clock
    obtain ⟨pair, isPair, greater⟩ :=
      chooseId_positive isPositive checkedClock (isPositive.stands checks (meets key isKey id isId)) chooses
    rw [scanId_of_pair isPair] at scans
    obtain ⟨rfl, _⟩ := Prod.mk.inj (Except.ok.inj scans)
    have appends : PositiveIds ((storedStream w.table key).append ⟨entryId, req.args.drop 2⟩ (ms, seq)) :=
      isPositive.append isPair greater
    exact positive.stores stores appends

/-- An ID of two zeros is rejected exactly where it is compared. -/
theorem zero_rejected_iff (positive : PositiveIds stream) (isKey : req.args[0]? = some key)
    (isId : req.args[1]? = some id) (opens : OpensStream w.table key stream) (zero : ZeroId id) :
    RejectsId w req ↔ ¬ NotCompared w stream id := by
  obtain ⟨errorMsg, checked, checks, stale⟩ := checkStreamId_total id stream.tail w
  constructor
  · rintro ⟨errorResp, t, rejects, _⟩ notCompared
    have accepts : ∃ t, checkStreamId id stream.tail w = .ok (none, t) := by
      rw [checkStreamId_accepts_iff]
      intro last isLast
      obtain noTail | ⟨_, minus, ms, seq, u, arrays, notStar, cut, isNumber⟩ := notCompared
      · rw [noTail] at isLast
        cases isLast
      · exact .inr ⟨minus, ms, seq, u, arrays, notStar, .inl ⟨cut, isNumber⟩⟩
    obtain ⟨t', accepts⟩ := accepts
    by_cases freed : FreesOpened w.table key stream
    · rw [linkEntry_freed isKey isId opens freed accepts (chooseId_plain zero.2 t')] at rejects
      cases rejects
    · obtain ⟨_, _, linked, _, _, links, _⟩ :=
        linkEntry_accepted isKey isId opens positive.tail freed accepts (chooseId_plain zero.2 t')
      rw [rejects] at links
      cases links
  · intro compared
    cases errorMsg with
    | none => exact absurd (positive.stands checks fun notCompared => absurd notCompared compared) zero.not_stands
    | some errorResp => exact ⟨errorResp, checked, linkEntry_rejected isKey isId opens checks, by rw [stale]⟩

theorem positiveTable_blank : PositiveTable (blankWorld D).table := by
  intro bucket key stream expiresAt member
  cases member

theorem blankWorld_sinceEpoch : (blankWorld D).SinceEpoch :=
  fun _ => ⟨by simp [blankWorld, bootWorld], by simp [blankWorld, bootWorld]⟩

end Runs

end RedisClone
