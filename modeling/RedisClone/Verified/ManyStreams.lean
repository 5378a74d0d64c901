import RedisClone.Verified.OptionPositions

/-! # XREAD of several keys

`handle_multiple_xread` allocates two arrays with room for half of the keys and copies all of them, so that no request
for two keys or more is answered (`many_xread_never_agrees`).  `build_client`, which would block the client, registers
the words at the positions of a request without options (`many_xread_never_safe`).
-/

namespace RedisClone

open Exec CString

variable {D : Type} {w t : World D} {req : RespRequest} {ptr : ClientPtr} {client : Client} {key id : Bytes}
  {pairs : List (Bytes × Bytes)}

/-! ## The arrays -/

/-- `XREAD STREAMS k1 .. kn id1 .. idn` -/
structure ManyXread (req : RespRequest) (pairs : List (Bytes × Bytes)) : Prop where
  words : ∃ streams, req.args = streams :: (pairs.map Prod.fst ++ pairs.map Prod.snd) ∧ upper streams = lit "STREAMS"

/-- `XREAD BLOCK ms STREAMS k1 .. kn id1 .. idn` -/
structure BlockingManyXread (req : RespRequest) (ms streams : Bytes) (pairs : List (Bytes × Bytes)) : Prop where
  words : ∃ block, req.args = block :: ms :: streams :: (pairs.map Prod.fst ++ pairs.map Prod.snd) ∧
    upper block = lit "BLOCK" ∧ upper streams = lit "STREAMS"

theorem ManyXread.argc (request : ManyXread req pairs) : req.argc = 2 * pairs.length + 1 := by
  obtain ⟨streams, isArgs, _⟩ := request.words
  have supplied := req.supplied
  rw [isArgs] at supplied
  simp only [List.length_cons, List.length_append, List.length_map] at supplied
  omega

/-- The copy loops leave the arrays for every number of keys. -/
theorem copyToArrays_faults {streamsLength : Nat} (several : 0 < streamsLength) (words : List Bytes) (w : World D) :
    copyToArrays streamsLength words w = .error .outOfBounds := by
  unfold copyToArrays
  rw [if_pos (Nat.div_lt_self several (by decide))]
  rfl

/-- A request that is found to be one for several keys writes behind the end of its arrays. -/
theorem manyXread_faults {index n : Nat} (isIndex : streamsIndex w.fresh req.args = some index)
    (isRest : req.argc - index - 1 = 2 * n) (several : 2 ≤ n) (clientFd : Int) :
    handleStreamPrint req ptr clientFd .xread w = .error .outOfBounds := by
  have many : (req.argc - index - 1).tmod 2 = 0 ∧ 4 ≤ req.argc - index - 1 := by
    rw [isRest]
    exact ⟨Int.mul_tmod_right _ _, by omega⟩
  have streamsLength : ((req.argc - index - 1).tdiv 2).toNat = n := by
    rw [isRest, Int.mul_tdiv_cancel_left _ (by decide), Int.toNat_natCast]
  have finds : findStreams 0 req.args w = .ok (index, World.takeFresh^[index + 1] w) := by
    rw [findStreams_run, isIndex]
    dsimp only
    rw [Nat.zero_add]
  have keys : isMultipleKey req w = .ok (some (index, n), World.takeFresh^[index + 1] w) := by
    unfold isMultipleKey
    rw [bind_of_ok finds, if_pos many, streamsLength]
    rfl
  obtain ⟨first, isFirst⟩ := exists_first isIndex
  unfold handleStreamPrint
  rw [bind_of_ok (printArg_supplied isFirst w), if_neg (by decide)]
  refine bind_of_error ?_
  unfold handleXread
  rw [bind_of_ok keys]
  refine bind_of_error ?_
  exact bind_of_error (copyToArrays_faults (by omega) _ _)

/-! ## Against one key -/

/-- XREAD of one key, from some state with this table, would return these entries. -/
def SingleReturns (table : Table D) (pair : Bytes × Bytes) (entries : List StreamEntry) : Prop :=
  ∃ v : World D, v.table = table ∧
    SelectsEntries (streamEntryXreadToString (pure pair.2) (lit "+") pair.1 v) entries

/-- The reply for some keys with their entries: the keys without entries are left out of it. -/
def manyReply (answers : List (Bytes × List StreamEntry)) : Bytes :=
  let found := answers.filter fun answer => answer.2 ≠ []
  if found = [] then emptyArray
  else arrayHeader found.length ++ (found.map fun answer =>
    lit "*2\r\n" ++ bulk answer.1 ++ arrayHeader answer.2.length ++ entriesText answer.2).flatten

/-- From every state with this table, XREAD of the pairs sends what XREAD of each of them alone would return. -/
def AgreesWithSingle (table : Table D) (req : RespRequest) (ptr : ClientPtr) (client : Client)
    (pairs : List (Bytes × Bytes)) : Prop :=
  ∀ w : World D, w.table = table → w.heap ptr = some client →
    ∃ t answers, handleStreamPrint req ptr client.fd .xread w = .ok ((), t) ∧
      List.Forall₂ (SingleReturns table) pairs answers ∧
        t.sent = w.sent ++ [(client.fd, manyReply ((pairs.map Prod.fst).zip answers))]

/-- A state in which `malloc` leaves zeros. -/
def zeroedWorld (table : Table D) (client : Client) : World D :=
  { blankWorld D with table, heap := fun _ => some client }

theorem streamsIndex_zeroed (request : ManyXread req pairs) (table : Table D) (client : Client) :
    streamsIndex (zeroedWorld table client).fresh req.args = some 0 := by
  obtain ⟨streams, isArgs, isStreams⟩ := request.words
  have isCopy : upperText ((zeroedWorld table client).fresh 0) streams = lit "STREAMS" := by
    rw [upperText_of_upper isStreams]
    show lit "STREAMS" ++ untilNul (List.drop streams.length []) = lit "STREAMS"
    rw [List.drop_nil]
    exact List.append_nil _
  rw [isArgs, streamsIndex, if_pos isCopy]

/-- A key that is not bound to a stream takes the answers for all others with it. -/
theorem xreadBlobs_missing {blobs : Option (List (Bytes × Bytes × Nat))} {entry : Option (Entry D)} {pair : Bytes × Bytes}
    (isPair : pair ∈ pairs) (found : lookup w.table pair.1 = .ok entry)
    (notStream : ∀ stream expiresAt, entry ≠ some ⟨.stream stream, expiresAt⟩)
    (run : xreadBlobs pairs w = .ok (blobs, t)) : blobs = none := by
  induction pairs generalizing w t blobs with
  | nil => cases isPair
  | cons first rest inductionHypothesis =>
    unfold xreadBlobs at run
    obtain ⟨⟨blob, count⟩, read, reads, afterRead⟩ := bind_eq_ok.mp run
    cases blob with
    | none => exact (Prod.mk.inj (Except.ok.inj afterRead)).1.symm
    | some blob =>
      obtain ⟨others, readAll, readsAll, final⟩ := bind_eq_ok.mp afterRead
      cases isPair with
      | head =>
        rw [streamEntryXreadToString_other found notStream] at reads
        cases reads
      | tail _ isPair =>
        have sameTable : read.table = w.table :=
          ((obeysAt_streamEntryXreadToString ambient_sameTable fun _ _ => obeys_pure ambient_sameTable _).1 _ _ reads)
        obtain rfl := inductionHypothesis isPair (sameTable ▸ found) readsAll
        exact (Prod.mk.inj (Except.ok.inj final)).1.symm

theorem streamEntryXreadMulToString_missing {result : Option Bytes} {entry : Option (Entry D)} {pair : Bytes × Bytes}
    (isPair : pair ∈ pairs) (found : lookup w.table pair.1 = .ok entry)
    (notStream : ∀ stream expiresAt, entry ≠ some ⟨.stream stream, expiresAt⟩)
    (run : streamEntryXreadMulToString pairs w = .ok (result, t)) : result = none := by
  obtain ⟨blobs, read, reads, final⟩ := bind_eq_ok.mp run
  obtain rfl := xreadBlobs_missing isPair found notStream reads
  exact (Prod.mk.inj (Except.ok.inj final)).1.symm

/-- For every table, every number of keys from two on, and all keys and IDs: it is not so that XREAD of several keys
agrees with XREAD of each of them.  In every state where the copy of `STREAMS` can be read the request writes behind the
end of its arrays, and the reader behind them returns nothing as soon as one key is not bound to a stream. -/
theorem many_xread_never_agrees (request : ManyXread req pairs) (several : 2 ≤ pairs.length) (table : Table D)
    (ptr : ClientPtr) (client : Client) :
    ¬ AgreesWithSingle table req ptr client pairs ∧
    ∀ w : World D, w.table = table →
      (streamsIndex w.fresh req.args = some 0 → handleStreamPrint req ptr client.fd .xread w = .error .outOfBounds) ∧
      ∀ pair ∈ pairs, lookup table pair.1 = .ok none → ∀ result t,
        streamEntryXreadMulToString pairs w = .ok (result, t) → result = none := by
  have isRest : req.argc - ((0 : Nat) : Int) - 1 = 2 * (pairs.length : Int) := by
    rw [request.argc]
    omega
  constructor
  · intro agrees
    obtain ⟨t, answers, run, _⟩ := agrees (zeroedWorld table client) rfl rfl
    rw [manyXread_faults (streamsIndex_zeroed request table client) isRest several] at run
    cases run
  · rintro w rfl
    refine ⟨fun isIndex => manyXread_faults isIndex isRest several client.fd, fun pair isPair free result t run => ?_⟩
    exact streamEntryXreadMulToString_missing isPair free (fun _ _ => by simp) run

def readTwo : RespRequest := requestOf [lit "XREAD", lit "STREAMS", lit "a", lit "b", lit "0-0", lit "0-0"]

theorem readTwo_request : ManyXread readTwo [(lit "a", lit "0-0"), (lit "b", lit "0-0")] :=
  ⟨lit "STREAMS", by decide +kernel⟩

theorem readTwo_rest : readTwo.argc - ((0 : Nat) : Int) - 1 = 2 * ((2 : Nat) : Int) := by decide +kernel

/-- XREAD of two keys that do not exist writes behind the end of its arrays. -/
theorem many_xread_never_agrees_two :
    handleStreamPrint readTwo 0 5 .xread (zeroedWorld (blankWorld Int).table { fd := 5 }) = .error .outOfBounds :=
  ((many_xread_never_agrees readTwo_request (by decide) (blankWorld Int).table 0 { fd := 5 }).2 _ rfl).1
    (streamsIndex_zeroed readTwo_request (blankWorld Int).table { fd := 5 })

/-- It does not send the empty reply. -/
theorem xread_of_two_disagrees :
    ¬ AgreesWithSingle (blankWorld Int).table readTwo 0 { fd := 5 } [(lit "a", lit "0-0"), (lit "b", lit "0-0")] := by
  intro agrees
  obtain ⟨t, answers, run, _⟩ := agrees (zeroedWorld (blankWorld Int).table { fd := 5 }) rfl rfl
  rw [manyXread_faults (streamsIndex_zeroed readTwo_request _ _) readTwo_rest le_rfl] at run
  cases run

/-! ## The registration -/

/-- `build_client` up to its `free`: whether it comes to it. -/
def registerClient (req : RespRequest) (ptr : ClientPtr) : M D Bool := do
  match ← hasBlock req with
  | none => pure false
  | some blockIndex => do
    let ms := atoi (← req.arg (blockIndex + 1))
    let timeoutAt ← timeoutAfter ms
    let minId ← req.arg 2
    let key ← req.arg 1
    updateClient ptr fun client =>
      { client with
        timeoutAt := timeoutAt, isBlocked := true, minId := some minId, waitingForKey := some key }
    pure true

theorem buildClient_eq (req : RespRequest) (ptr : ClientPtr) (w : World D) :
    buildClient req ptr w =
      (registerClient req ptr >>= fun blocked => if blocked then fault .invalidFree else pure false) w := by
  unfold buildClient registerClient
  rw [bind_assoc, bind_run, bind_run]
  cases hasBlock req w with
  | error e => rfl
  | ok result =>
    obtain ⟨block, looked⟩ := result
    cases block with
    | none => rfl
    | some blockIndex => simp only [bind_assoc, pure_bind, if_true]

/-- A client that `build_client` blocks waits for one of the keys, behind the ID of that key. -/
def RegistersPair (D : Type) (req : RespRequest) (pairs : List (Bytes × Bytes)) : Prop :=
  ∀ (w t : World D) (ptr : ClientPtr) (client : Client), registerClient req ptr w = .ok (true, t) →
    t.heap ptr = some client → ∃ pair ∈ pairs, client.waitingForKey = some pair.1 ∧ client.minId = some pair.2

/-- The copy loops stay inside their arrays, and a client that is blocked is registered with one of the pairs. -/
structure ManyXreadSafe (D : Type) (req : RespRequest) (pairs : List (Bytes × Bytes)) : Prop where
  inside : ∀ w : World D, copyToArrays pairs.length (req.args.drop 3) w ≠ .error .outOfBounds
  registers : RegistersPair D req pairs

section Registration

variable {ms streams : Bytes}

theorem registerClient_ok (run : registerClient req ptr w = .ok (true, t)) :
    ∃ key minId client, req.args[1]? = some key ∧ req.args[2]? = some minId ∧ t.heap ptr = some client ∧
      client.waitingForKey = some key ∧ client.minId = some minId := by
  obtain ⟨block, looked, _, afterLook⟩ := bind_eq_ok.mp run
  cases block with
  | none => cases afterLook
  | some blockIndex =>
    obtain ⟨text, _, readsMs, afterMs⟩ := bind_eq_ok.mp afterLook
    obtain ⟨timeoutAt, _, _, afterTime⟩ := bind_eq_ok.mp afterMs
    obtain ⟨minId, _, readsId, afterId⟩ := bind_eq_ok.mp afterTime
    obtain ⟨key, read, readsKey, afterKey⟩ := bind_eq_ok.mp afterId
    obtain ⟨_, updated, updates, final⟩ := bind_eq_ok.mp afterKey
    obtain ⟨_, rfl⟩ := Prod.mk.inj (Except.ok.inj final)
    obtain ⟨client, _, rfl⟩ := updateClient_eq_ok.mp updates
    exact ⟨key, minId, _, (arg_ok.mp readsKey).1, (arg_ok.mp readsId).1, Function.update_self _ _ _, rfl, rfl⟩

/-- A time in the range of an `int` is added to a clock that stands at zero. -/
theorem timeoutAfter_stopped (text : Bytes) (stopped : w.clock 0 = 0) :
    ∃ timeoutAt t, timeoutAfter (atoi text) w = .ok (timeoutAt, t) ∧ t.heap = w.heap := by
  obtain ⟨low, high⟩ := atoi_bounds text
  unfold timeoutAfter
  split
  · exact ⟨0, w, rfl, rfl⟩
  · rw [bind_of_ok (show getCurrentTimeMs w = .ok (w.clock 0, w.tick) from rfl), stopped, if_neg (by omega)]
    exact ⟨_, w.tick, rfl, rfl⟩

theorem registerClient_run (request : BlockingManyXread req ms streams pairs) (found : w.heap ptr = some client)
    (stopped : w.clock 0 = 0) : ∃ t, registerClient req ptr w = .ok (true, t) := by
  obtain ⟨block, isArgs, isBlock, _⟩ := request.words
  have looks : hasBlock req w = .ok (some 0, w.takeFresh) := hasBlock_first isArgs isBlock (by simp) w
  have isMs : req.args[1]? = some ms := by rw [isArgs]; rfl
  have isStreams : req.args[2]? = some streams := by rw [isArgs]; rfl
  obtain ⟨timeoutAt, timed, times, sameHeap⟩ := timeoutAfter_stopped ms (show w.takeFresh.clock 0 = 0 from stopped)
  have found' : timed.heap ptr = some client := by
    rw [sameHeap]
    exact found
  unfold registerClient
  rw [bind_of_ok looks]
  dsimp only
  rw [bind_of_ok (arg_ok.mpr ⟨isMs, rfl⟩), bind_of_ok times, bind_of_ok (arg_ok.mpr ⟨isStreams, rfl⟩),
    bind_of_ok (arg_ok.mpr ⟨isMs, rfl⟩), bind_of_ok (updateClient_found found')]
  exact ⟨_, rfl⟩

/-- The words at the positions of a request without BLOCK are registered, which are the time and `STREAMS`. -/
theorem registersPair_iff (request : BlockingManyXread req ms streams pairs) :
    RegistersPair D req pairs ↔ (ms, streams) ∈ pairs := by
  obtain ⟨block, isArgs, _⟩ := request.words
  have isMs : req.args[1]? = some ms := by rw [isArgs]; rfl
  have isStreams : req.args[2]? = some streams := by rw [isArgs]; rfl
  constructor
  · intro registers
    have found : (zeroedWorld (blankWorld D).table { fd := 0 }).heap 0 = some { fd := 0 } := rfl
    obtain ⟨t, run⟩ := registerClient_run request found rfl
    obtain ⟨key, minId, client, isKey, isMinId, found', waits, behind⟩ := registerClient_ok run
    obtain ⟨pair, isPair, sameKey, sameId⟩ := registers _ t 0 client run found'
    obtain rfl := Option.some.inj (isMs.symm.trans isKey)
    obtain rfl := Option.some.inj (isStreams.symm.trans isMinId)
    rw [waits, Option.some.injEq] at sameKey
    rw [behind, Option.some.injEq] at sameId
    rw [sameKey, sameId]
    exact isPair
  · intro isPair w t ptr client run found
    obtain ⟨key, minId, client', isKey, isMinId, found', waits, behind⟩ := registerClient_ok run
    obtain rfl := Option.some.inj (isMs.symm.trans isKey)
    obtain rfl := Option.some.inj (isStreams.symm.trans isMinId)
    obtain rfl := Option.some.inj (found.symm.trans found')
    exact ⟨(ms, streams), isPair, waits, behind⟩

/-- For every number of keys from two on, and all keys and IDs: the copy loops leave their arrays, in whatever state, and
`build_client` registers a pair of the request only where the time and the word `STREAMS` happen to be one. -/
theorem many_xread_never_safe (request : BlockingManyXread req ms streams pairs) (several : 2 ≤ pairs.length) :
    ¬ ManyXreadSafe D req pairs ∧
      (∀ w : World D, handleMultipleXread req 2 pairs.length w = .error .outOfBounds) ∧
        (RegistersPair D req pairs ↔ (ms, streams) ∈ pairs) := by
  refine ⟨fun safe => ?_, fun w => ?_, registersPair_iff request⟩
  · exact safe.inside (blankWorld D) (copyToArrays_faults (by omega) _ _)
  · exact bind_of_error (copyToArrays_faults (by omega) _ _)

def blockOnTwo : RespRequest :=
  requestOf [lit "XREAD", lit "BLOCK", lit "0", lit "STREAMS", lit "a", lit "b", lit "0-0", lit "0-0"]

theorem blockOnTwo_request :
    BlockingManyXread blockOnTwo (lit "0") (lit "STREAMS") [(lit "a", lit "0-0"), (lit "b", lit "0-0")] :=
  ⟨lit "BLOCK", by decide +kernel⟩

/-- Two keys: the client would wait for the key 0 behind the ID STREAMS. -/
theorem many_xread_never_safe_two : ¬ RegistersPair Int blockOnTwo [(lit "a", lit "0-0"), (lit "b", lit "0-0")] :=
  fun registers => absurd ((many_xread_never_safe blockOnTwo_request (by decide)).2.2.mp registers) (by decide +kernel)

/-- XREAD with BLOCK of two keys writes to a second element of its arrays, which have room for one. -/
theorem xread_of_two_not_safe :
    ¬ ManyXreadSafe Int blockOnTwo [(lit "a", lit "0-0"), (lit "b", lit "0-0")] :=
  fun safe => safe.inside (blankWorld Int) (copyToArrays_faults (by decide) _ _)

end Registration

end RedisClone
