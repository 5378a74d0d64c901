import RedisClone.Lib.Runs
import RedisClone.Verified.Records
import RedisClone.Verified.Replies

/-! # Lists as double-ended sequences

`ListCall.perform` is what a push or a pop makes of a sequence.  The handlers do the same to the array of the list,
by shifting and writing back to front, and they reply with the new length or with the element that left.  The one
thing that can keep a call from its end is the reply of a pop with a count, which is written into an array of 2048
bytes without looking at its end (`ListCall.Fits`): `lists_refine_iff`.
-/

namespace RedisClone

open Exec CString

variable {D : Type}

/-! ## Calls and sequences -/

inductive DequeCommand where
  | lpush | rpush | lpop | rpop
  deriving DecidableEq, Repr

structure ListCall where
  command : DequeCommand
  req : RespRequest
  clientFd : Int

def ListCall.handle (call : ListCall) : M D Unit :=
  match call.command with
  | .lpush => handleLpush call.req call.clientFd
  | .rpush => handleRpush call.req call.clientFd
  | .lpop => handleLpop call.req call.clientFd
  | .rpop => handleRpop call.req call.clientFd

/-- What the call makes of a sequence. -/
def ListCall.perform (call : ListCall) (values : List Bytes) : List Bytes :=
  match call.command with
  | .lpush => (call.req.args.drop 1).reverse ++ values
  | .rpush => values ++ call.req.args.drop 1
  | .lpop => values.drop (popCount call.req values)
  | .rpop => values.take (values.length - popCount call.req values)

/-- What the call takes from a sequence. -/
def ListCall.popped (call : ListCall) (values : List Bytes) : List Bytes :=
  match call.command with
  | .lpush | .rpush => []
  | .lpop => values.take (popCount call.req values)
  | .rpop => values.drop (values.length - popCount call.req values)

/-- The text of an array of bulk strings. -/
def arrayText (values : List Bytes) : Bytes := arrayHeader values.length ++ (values.map bulk).flatten

/-- The reply to a pop with a count is no longer than the array that it is written to. -/
def ListCall.Fits (call : ListCall) (values : List Bytes) : Prop :=
  call.command = .lpop ∨ call.command = .rpop → call.req.argc = 2 → (arrayText (call.popped values)).length ≤ 2048

/-- A push replies the new length (which a `size_t` holds), and a pop without a count the element that it takes. -/
def ListCall.Answers (call : ListCall) (values : List Bytes) (reply : Bytes) : Prop :=
  match call.command with
  | .lpush | .rpush =>
    2 ≤ call.req.argc → (call.perform values).length < 2 ^ 64 →
      reply = integerReply (call.perform values).length
  | .lpop | .rpop =>
    call.req.argc ≠ 2 → values ≠ [] → ∃ element, call.popped values = [element] ∧ reply = bulk element

/-- The key has this sequence: it is free or bound to a list, the array of which has these elements. -/
def HoldsList (key : Bytes) (table : Table D) (values : List Bytes) : Prop :=
  lookup table key = .ok none ∧ values = [] ∨
    ∃ expiresAt, lookup table key = .ok (some ⟨.list values, expiresAt⟩)

/-! ## Texts -/

section Texts

variable {values : List Bytes} {w t : World D}

theorem length_bulk {s : Bytes} (short : s.length < 256) : (bulk s).length ≤ 269 := by
  have digits := length_decimal_le (show s.length < 10 ^ 9 by omega)
  have dollar : (lit "$").length = 1 := by decide
  have ends : crlf.length = 2 := by decide
  simp only [bulk, List.length_append]
  omega

theorem length_integerReply {n : Nat} (small : n < 2 ^ 64) : (integerReply n).length ≤ 23 := by
  have digits : (decimal n).length ≤ 20 := by
    rw [decimal, List.length_map]
    exact (Nat.length_toDigits_le_iff (by decide) (by decide)).mpr (by omega)
  have colon : (lit ":").length = 1 := by decide
  have ends : crlf.length = 2 := by decide
  change (lit ":" ++ decimal n ++ crlf).length ≤ 23
  simp only [List.length_append]
  omega

theorem appendAll_total {size : Nat} {texts : List Bytes} {buffer : Buffer}
    (room : buffer.offset + texts.flatten.length ≤ size) (w : World D) :
    ∃ result, Buffer.appendAll size texts buffer w = .ok (result, w) := by
  induction texts generalizing buffer with
  | nil => exact ⟨buffer, rfl⟩
  | cons text texts inductionHypothesis =>
    rw [List.flatten_cons, List.length_append] at room
    obtain ⟨printed, prints, sameOffset⟩ : ∃ printed, buffer.print size text w = .ok (printed, w) ∧
        printed.offset = buffer.offset := by
      unfold Buffer.print
      rw [if_neg (by omega)]
      exact ⟨_, rfl, rfl⟩
    have appends : buffer.append size text w = .ok (⟨printed.content, printed.offset + text.length⟩, w) := by
      unfold Buffer.append
      rw [bind_of_ok prints]
      rfl
    rw [Buffer.appendAll, bind_of_ok appends]
    apply inductionHypothesis
    dsimp only
    omega

/-- The reply to a pop with a count is sent exactly where it fits. -/
theorem sendPopped_iff {clientFd : Int} :
    (∃ text, sendPopped clientFd values w = .ok ((), w.emit clientFd text)) ↔ (arrayText values).length ≤ 2048 := by
  have size : (arrayText values).length = (arrayHeader values.length).length + (values.map bulk).flatten.length := by
    rw [arrayText, List.length_append]
  constructor
  · rintro ⟨text, run⟩
    obtain ⟨buffer, printed, prints, sends⟩ := bind_eq_ok.mp run
    have offset := appendAll_offset prints
    unfold Buffer.sendPrefix at sends
    split at sends
    · simp [fault] at sends
    · rw [size]
      dsimp only at offset
      omega
  · intro fits
    have room : (⟨arrayHeader values.length, (arrayHeader values.length).length⟩ : Buffer).offset +
        (values.map bulk).flatten.length ≤ 2048 := by
      rw [size] at fits
      exact fits
    obtain ⟨buffer, prints⟩ := appendAll_total room w
    have offset := appendAll_offset prints
    unfold sendPopped
    rw [bind_of_ok prints, Buffer.sendPrefix, if_neg (by omega)]
    exact ⟨_, rfl⟩

end Texts

/-! ## Calls that end -/

/-- What a call that ends leaves: its reply, and the sequence at the key. -/
def ListCall.Ends (call : ListCall) (key : Bytes) (values : List Bytes) (start t : World D) : Prop :=
  HoldsList key t.table (call.perform values) ∧
    ∃ reply, t.sent = start.sent ++ [(call.clientFd, reply)] ∧ call.Answers values reply

section Calls

variable {key : Bytes} {values values' : List Bytes} {expiresAt : Int} {req : RespRequest} {clientFd : Int}
  {w t : World D}

theorem HoldsList.bucket (holds : HoldsList key w.table values) : ∃ bucket, bucketOf key = some bucket := by
  cases inBucket : bucketOf key with
  | some bucket => exact ⟨bucket, rfl⟩
  | none =>
    obtain ⟨found, _⟩ | ⟨_, found⟩ := holds
    · simp [lookup, inBucket] at found
    · simp [lookup, inBucket] at found

theorem holdsList_of_stores {table table' : Table D} {overwrites : Bool}
    (stores : Stores table key ⟨.list values, expiresAt⟩ overwrites table') : HoldsList key table' values :=
  .inr ⟨expiresAt, lookup_of_binding stores.binding_self⟩

theorem openList_total (holds : HoldsList key w.table values) :
    ∃ opened expiresAt, openList key w = .ok (values, opened) ∧
      Opens w key (.list []) (.list values) expiresAt opened := by
  have run : ∃ opened, openList key w = .ok (values, opened) := by
    unfold openList
    rw [withPayload_run]
    obtain ⟨bucket, inBucket⟩ := holds.bucket
    obtain ⟨found, rfl⟩ | ⟨expiresAt, found⟩ := holds
    · obtain ⟨opened, stores, _⟩ := storeSetContainer_run inBucket (.list []) w
      rw [found]
      dsimp only
      exact ⟨opened, bind_of_ok stores⟩
    · rw [found]
      exact ⟨w, rfl⟩
  obtain ⟨opened, opens⟩ := run
  obtain ⟨expiresAt, isOpen⟩ := openList_opens opens
  exact ⟨opened, expiresAt, opens, isOpen⟩

theorem updateList_total (found : lookup w.table key = .ok (some ⟨.list values, expiresAt⟩)) (values' : List Bytes) :
    ∃ t, updateEntry key (.list values') w = .ok ((), t) ∧ t = { w with table := t.table } ∧
      HoldsList key t.table values' := by
  obtain ⟨bucket, inBucket⟩ := HoldsList.bucket (.inr ⟨expiresAt, found⟩)
  have run := updateEntry_run inBucket (.list values' : Value D) w
  obtain ⟨sameButTable, stores⟩ := updateEntry_stores (binding_of_lookup found) run
  exact ⟨_, run, sameButTable, holdsList_of_stores stores⟩

theorem Opens.lookup_list {opened : World D} (opens : Opens w key (.list []) (.list values) expiresAt opened) :
    lookup opened.table key = .ok (some ⟨.list values, expiresAt⟩) :=
  lookup_of_binding opens.bound

/-- A push without elements is refused, and asks for nothing. -/
theorem ends_short (call : ListCall) (holds : HoldsList key w.table values) (few : call.req.argc < 2)
    (pushes : call.command = .lpush ∨ call.command = .rpush) (reply : Bytes) :
    call.Ends key values w (w.emit call.clientFd reply) := by
  have nothing : call.req.args.drop 1 = [] := by
    have supplied := call.req.supplied
    exact List.drop_eq_nil_of_le (by omega)
  have same : call.perform values = values := by
    obtain isPush | isPush := pushes
    · simp [ListCall.perform, isPush, nothing]
    · simp [ListCall.perform, isPush, nothing]
  refine ⟨by rw [same]; exact holds, reply, rfl, ?_⟩
  obtain isPush | isPush := pushes
  · rw [ListCall.Answers, isPush]
    exact fun enough => by omega
  · rw [ListCall.Answers, isPush]
    exact fun enough => by omega

theorem handleLpush_total (holds : HoldsList key w.table values) (isKey : req.args[0]? = some key) :
    ∃ t, handleLpush req clientFd w = .ok ((), t) ∧ ListCall.Ends ⟨.lpush, req, clientFd⟩ key values w t := by
  unfold handleLpush
  split
  · rename_i few
    exact ⟨_, rfl, ends_short ⟨.lpush, req, clientFd⟩ holds few (.inl rfl) _⟩
  · obtain ⟨opened, expiresAt, opens, isOpen⟩ := openList_total holds
    rw [bind_of_ok (arg_ok.mpr ⟨isKey, rfl⟩), bind_of_ok opens, prependReversed_eq]
    obtain ⟨t, updates, sameButTable, after⟩ :=
      updateList_total isOpen.lookup_list ((req.args.drop 1).reverse ++ values)
    rw [bind_of_ok updates]
    refine ⟨_, rfl, after, _, ?_, fun _ small => List.take_of_length_le ((length_integerReply small).trans (show 23 ≤ 1023 by decide))⟩
    change t.sent ++ _ = w.sent ++ _
    rw [sameButTable, isOpen.keeps]
    rfl

/-- The scan of RPUSH meets no dangling pointer. -/
theorem longestWaiter_total {slots : List ClientSlot}
    (allocated : ∀ slot ptr, w.clients slot = some ptr → w.heap ptr ≠ none) (nobody : w.waiters key = []) :
    longestWaiter key slots none 0 w = .ok (none, w) := by
  induction slots with
  | nil => rfl
  | cons slot slots inductionHypothesis =>
    unfold longestWaiter
    cases occupied : w.clients slot with
    | none =>
      have looks : clientAt slot w = .ok (none, w) := by
        unfold clientAt
        rw [bind_of_ok (observe_run _ w), occupied]
        rfl
      rw [bind_of_ok looks]
      exact inductionHypothesis
    | some ptr =>
      obtain ⟨client, found⟩ := Option.ne_none_iff_exists'.mp (allocated slot ptr occupied)
      have looks : clientAt slot w = .ok (some (ptr, client), w) := by
        unfold clientAt
        rw [bind_of_ok (observe_run _ w), occupied]
        dsimp only
        rw [bind_of_ok (loadClient_found found)]
        rfl
      have idle : ¬ (client.isBlpop = true ∧ client.isBlocked = true ∧ client.waitingForKey = some key) := by
        intro waits
        have member : (ptr, client) ∈ w.waiters key :=
          List.mem_filterMap.mpr ⟨slot, List.mem_finRange slot, waiterAt_eq_some.mpr ⟨occupied, found, waits⟩⟩
        rw [nobody] at member
        simp at member
      rw [bind_of_ok looks]
      dsimp only
      rw [if_neg idle]
      exact inductionHypothesis

theorem handleRpush_total (holds : HoldsList key w.table values) (isKey : req.args[0]? = some key)
    (allocated : ∀ slot ptr, w.clients slot = some ptr → w.heap ptr ≠ none) (nobody : w.waiters key = []) :
    ∃ t, handleRpush req clientFd w = .ok ((), t) ∧ ListCall.Ends ⟨.rpush, req, clientFd⟩ key values w t := by
  unfold handleRpush
  split
  · rename_i few
    exact ⟨_, rfl, ends_short ⟨.rpush, req, clientFd⟩ holds few (.inr rfl) _⟩
  · obtain ⟨opened, expiresAt, opens, isOpen⟩ := openList_total holds
    rw [bind_of_ok (arg_ok.mpr ⟨isKey, rfl⟩), bind_of_ok opens]
    obtain ⟨t, updates, sameButTable, after⟩ := updateList_total isOpen.lookup_list (values ++ req.args.drop 1)
    rw [bind_of_ok updates, sendText, bind_of_ok (show send clientFd _ t = .ok ((), t.emit clientFd _) from rfl)]
    obtain ⟨openTable, fresh, rfl⟩ : ∃ table fresh, opened = { w with table, fresh } := ⟨_, _, isOpen.keeps⟩
    obtain ⟨table, rfl⟩ : ∃ table, t = { w with table, fresh } := ⟨_, sameButTable⟩
    have scans (text : Bytes) : longestWaiter key clientSlots none 0
        (World.emit { w with table, fresh } clientFd text) = .ok (none, _) := longestWaiter_total allocated nobody
    rw [bind_of_ok (scans _)]
    exact ⟨_, rfl, after, _, rfl, fun _ small => List.take_of_length_le ((length_integerReply small).trans (show 23 ≤ 1023 by decide))⟩

/-! ### Pops -/

/-- What both pops do with the list they found: `taken` and `kept` are the two parts of its elements. -/
def popFrom (req : RespRequest) (clientFd : Int) (key : Bytes) (size : Nat) (single : Bytes) (length : Nat)
    (taken kept : Nat → List Bytes) : M D Unit :=
  if req.argc = 2 then do
    let count := atoi (← req.arg 1)
    if count < 0 then send clientFd outOfRange
    else if count = 0 then send clientFd emptyArray
    else do
      let count := min count.toNat length
      sendPopped clientFd (taken count)
      updateEntry key (.list (kept count))
  else do
    sendText size clientFd (bulk single)
    updateEntry key (.list (kept 1))

theorem handleLpop_found {first : Bytes} (isKey : req.args[0]? = some key)
    (found : lookup w.table key = .ok (some ⟨.list values, expiresAt⟩)) (isFirst : values.head? = some first) :
    handleLpop req clientFd w =
      popFrom req clientFd key 2048 first values.length (fun n => values.take n) (fun n => shiftLeft n values) w := by
  have := lt_argc isKey
  unfold handleLpop
  rw [if_neg (by omega), bind_of_ok (arg_ok.mpr ⟨isKey, rfl⟩), withPayload_run, found]
  simp only [asList, pure_bind, isFirst]
  rfl

theorem handleRpop_found {last : Bytes} (isKey : req.args[0]? = some key)
    (found : lookup w.table key = .ok (some ⟨.list values, expiresAt⟩)) (isLast : values.getLast? = some last) :
    handleRpop req clientFd w =
      popFrom req clientFd key 1024 last values.length (fun n => values.drop (values.length - n))
        (fun n => values.take (values.length - n)) w := by
  have := lt_argc isKey
  unfold handleRpop
  rw [if_neg (by omega), bind_of_ok (arg_ok.mpr ⟨isKey, rfl⟩), withPayload_run, found]
  simp only [asList, pure_bind, isLast]
  rfl

theorem popFrom_ends (clientFd : Int) (size : Nat) (single : Bytes) {taken kept : Nat → List Bytes}
    (nonempty : values ≠ [])
    (found : lookup w.table key = .ok (some ⟨.list values, expiresAt⟩)) (noneTaken : taken 0 = [])
    (allKept : kept 0 = values) (few : req.argc = 2 → ∃ word, req.args[1]? = some word) :
    EndsIff (popFrom req clientFd key size single values.length taken kept) w
      (req.argc = 2 → (arrayText (taken (popCount req values))).length ≤ 2048)
      fun t => HoldsList key t.table (kept (popCount req values)) ∧
        ∃ reply, t.sent = w.sent ++ [(clientFd, reply)] ∧
          (req.argc ≠ 2 → reply = (bulk single).take (size - 1)) := by
  have holds : HoldsList key w.table values := .inr ⟨expiresAt, found⟩
  unfold popFrom
  by_cases counted : req.argc = 2
  · obtain ⟨word, isWord⟩ := few counted
    have counts : popCount req values = min (atoi word).toNat values.length := by
      simp [popCount, counted, isWord]
    have refused (reply : Bytes) (nothing : (atoi word).toNat = 0) :
        EndsIff (send clientFd reply : M D Unit) w
          (req.argc = 2 → (arrayText (taken (popCount req values))).length ≤ 2048)
          fun t => HoldsList key t.table (kept (popCount req values)) ∧
            ∃ reply, t.sent = w.sent ++ [(clientFd, reply)] ∧
              (req.argc ≠ 2 → reply = (bulk single).take (size - 1)) := by
      rw [counts, nothing, Nat.zero_min, noneTaken, allKept]
      exact .of_ok rfl (fun _ => by decide) ⟨holds, reply, rfl, fun single => absurd counted single⟩
    rw [if_pos counted]
    apply EndsIff.of_bind (arg_ok.mpr ⟨isWord, rfl⟩)
    dsimp only
    split
    · rename_i negative
      exact refused outOfRange (by omega)
    · split
      · rename_i zero
        exact refused emptyArray (by omega)
      · -- elements are popped, if their array fits
        rw [counts]
        constructor
        · constructor
          · rintro ⟨t, run⟩ _
            obtain ⟨_, replied, replies, _⟩ := bind_eq_ok.mp run
            obtain ⟨text, rfl⟩ := sendPopped_ok replies
            exact sendPopped_iff.mp ⟨text, replies⟩
          · intro fits
            obtain ⟨text, replies⟩ := sendPopped_iff.mpr (fits counted)
            obtain ⟨t, updates, _⟩ := updateList_total
              (w := w.emit clientFd text) found (kept (min (atoi word).toNat values.length))
            exact ⟨t, by rw [bind_of_ok replies]; exact updates⟩
        · intro t run
          obtain ⟨_, replied, replies, updates⟩ := bind_eq_ok.mp run
          obtain ⟨text, rfl⟩ := sendPopped_ok replies
          obtain ⟨t', updates', sameButTable, after⟩ := updateList_total
            (w := w.emit clientFd text) found (kept (min (atoi word).toNat values.length))
          obtain rfl : t' = t := by simpa [updates'] using updates
          refine ⟨after, text, ?_, fun single => absurd counted single⟩
          rw [sameButTable]
          rfl
  · have counts : popCount req values = 1 := by
      have := List.length_pos_iff.mpr nonempty
      simp only [popCount, if_neg counted]
      omega
    rw [if_neg counted, counts]
    obtain ⟨t, updates, sameButTable, after⟩ := updateList_total
      (w := w.emit clientFd ((bulk single).take (size - 1))) found (kept 1)
    refine .of_ok (t := t) ?_ (fun isCount => absurd isCount counted)
      ⟨after, (bulk single).take (size - 1), ?_, fun _ => rfl⟩
    · rw [sendText, bind_of_ok (show send clientFd _ w = .ok ((), w.emit clientFd _) from rfl)]
      exact updates
    · rw [sameButTable]
      rfl

/-- A pop of nothing is answered, and takes nothing. -/
theorem pop_nothing (call : ListCall) (holds : HoldsList key w.table []) {reply : Bytes}
    (pops : call.command = .lpop ∨ call.command = .rpop)
    (run : call.handle w = .ok ((), w.emit call.clientFd reply)) :
    EndsIff call.handle w (call.Fits []) (call.Ends key [] w) := by
  have nothing : call.perform [] = [] ∧ call.popped [] = [] := by
    obtain isPop | isPop := pops
    · simp [ListCall.perform, ListCall.popped, isPop]
    · simp [ListCall.perform, ListCall.popped, isPop]
  refine .of_ok run (fun _ _ => ?_) ⟨by rw [nothing.1]; exact holds, reply, rfl, ?_⟩
  · rw [nothing.2]
    decide
  · obtain isPop | isPop := pops
    · rw [ListCall.Answers, isPop]
      exact fun _ absurdity => absurd rfl absurdity
    · rw [ListCall.Answers, isPop]
      exact fun _ absurdity => absurd rfl absurdity

theorem two_args (req : RespRequest) (counted : req.argc = 2) : ∃ word, req.args[1]? = some word :=
  arg_isSome (by omega)

/-- A pop of a list with elements ends as the sequence has it, exactly where its reply fits. -/
theorem pop_some (call : ListCall) {size : Nat} {single : Bytes} {taken kept : Nat → List Bytes}
    (pops : call.command = .lpop ∨ call.command = .rpop) (nonempty : values ≠ [])
    (found : lookup w.table key = .ok (some ⟨.list values, expiresAt⟩)) (noneTaken : taken 0 = [])
    (allKept : kept 0 = values) (oneTaken : taken 1 = [single]) (whole : (bulk single).length ≤ size - 1)
    (runs : call.handle w = popFrom call.req call.clientFd key size single values.length taken kept w)
    (popped : call.popped values = taken (popCount call.req values))
    (performed : call.perform values = kept (popCount call.req values)) :
    EndsIff call.handle w (call.Fits values) (call.Ends key values w) := by
  have body := popFrom_ends call.clientFd size single nonempty found noneTaken allKept (two_args call.req)
  have fits : call.Fits values ↔
      (call.req.argc = 2 → (arrayText (taken (popCount call.req values))).length ≤ 2048) := by
    rw [ListCall.Fits, popped]
    exact ⟨fun fits => fits pops, fun fits _ => fits⟩
  have answers (reply : Bytes) :
      call.Answers values reply ↔ (call.req.argc ≠ 2 → reply = (bulk single).take (size - 1)) := by
    have one (notCount : call.req.argc ≠ 2) : call.popped values = [single] := by
      have := List.length_pos_iff.mpr nonempty
      rw [popped, popCount, if_neg notCount, Nat.min_eq_left this, oneTaken]
    have answer : call.Answers values reply ↔
        (call.req.argc ≠ 2 → values ≠ [] → ∃ element, call.popped values = [element] ∧ reply = bulk element) := by
      obtain isPop | isPop := pops
      · rw [ListCall.Answers, isPop]
      · rw [ListCall.Answers, isPop]
    rw [answer, List.take_of_length_le whole]
    constructor
    · intro replies notCount
      obtain ⟨element, isElement, same⟩ := replies notCount nonempty
      obtain rfl : single = element := by simpa [one notCount] using isElement
      exact same
    · intro same notCount _
      exact ⟨single, one notCount, same notCount⟩
  have ends : EndsIff (popFrom call.req call.clientFd key size single values.length taken kept) w (call.Fits values)
      (call.Ends key values w) := by
    refine body.congr fits.symm ?_
    rintro t ⟨holds, reply, sent, single⟩
    exact ⟨performed ▸ holds, reply, sent, (answers reply).mpr single⟩
  exact ⟨by rw [runs]; exact ends.ends, fun t run => ends.after t (runs ▸ run)⟩

theorem handleLpop_ends (holds : HoldsList key w.table values) (isKey : req.args[0]? = some key)
    (short : ∀ value ∈ values, value.length < 256) :
    EndsIff (handleLpop req clientFd) w (ListCall.Fits ⟨.lpop, req, clientFd⟩ values)
      (ListCall.Ends ⟨.lpop, req, clientFd⟩ key values w) := by
  have enough := lt_argc isKey
  cases values with
  | nil =>
    have replies : ∃ reply, handleLpop req clientFd w = .ok ((), w.emit clientFd reply) := by
      unfold handleLpop
      rw [if_neg (by omega), bind_of_ok (arg_ok.mpr ⟨isKey, rfl⟩), withPayload_run]
      obtain ⟨found, _⟩ | ⟨expiresAt, found⟩ := holds
      · rw [found]
        exact ⟨_, rfl⟩
      · rw [found]
        exact ⟨_, rfl⟩
    obtain ⟨reply, run⟩ := replies
    exact pop_nothing ⟨.lpop, req, clientFd⟩ holds (.inl rfl) run
  | cons first rest =>
    obtain ⟨_, absurdity⟩ | ⟨expiresAt, found⟩ := holds
    · simp at absurdity
    have counts : popCount req (first :: rest) ≤ (first :: rest).length := by
      unfold popCount
      split <;> exact Nat.min_le_right _ _
    have whole := length_bulk (short first List.mem_cons_self)
    exact pop_some ⟨.lpop, req, clientFd⟩ (.inl rfl) (by simp) found rfl (shiftLeft_eq (by simp)) rfl
      (by omega) (handleLpop_found isKey found rfl) rfl (shiftLeft_eq counts).symm

theorem handleRpop_ends (holds : HoldsList key w.table values) (isKey : req.args[0]? = some key)
    (short : ∀ value ∈ values, value.length < 256) :
    EndsIff (handleRpop req clientFd) w (ListCall.Fits ⟨.rpop, req, clientFd⟩ values)
      (ListCall.Ends ⟨.rpop, req, clientFd⟩ key values w) := by
  have enough := lt_argc isKey
  cases isLast : values.getLast? with
  | none =>
    obtain rfl := List.getLast?_eq_none_iff.mp isLast
    have replies : ∃ reply, handleRpop req clientFd w = .ok ((), w.emit clientFd reply) := by
      unfold handleRpop
      rw [if_neg (by omega), bind_of_ok (arg_ok.mpr ⟨isKey, rfl⟩), withPayload_run]
      obtain ⟨found, _⟩ | ⟨expiresAt, found⟩ := holds
      · rw [found]
        exact ⟨_, rfl⟩
      · rw [found]
        exact ⟨_, rfl⟩
    obtain ⟨reply, run⟩ := replies
    exact pop_nothing ⟨.rpop, req, clientFd⟩ holds (.inr rfl) run
  | some last =>
    obtain ⟨front, rfl⟩ := List.getLast?_eq_some_iff.mp isLast
    obtain ⟨_, absurdity⟩ | ⟨expiresAt, found⟩ := holds
    · simp at absurdity
    have whole := length_bulk (short last (by simp))
    exact pop_some ⟨.rpop, req, clientFd⟩ (.inr rfl) (by simp) found (by simp)
      (List.take_of_length_le (by simp)) (by simp) (by omega) (handleRpop_found isKey found isLast) rfl rfl

end Calls

/-! ## Runs of calls -/

/-- The state, and the sequence that the calls made. -/
structure Deque (D : Type) where
  world : World D
  values : List Bytes

/-- Nobody is blocked on the key, and `clients` has no dangling pointer. -/
structure Unattended (key : Bytes) (w : World D) : Prop where
  allocated : ∀ slot ptr, w.clients slot = some ptr → w.heap ptr ≠ none
  nobody : w.waiters key = []

/-- A call for the key ends; but for the table, the state in which it comes may be any one in which nobody waits for
the key. -/
def ListStep (key : Bytes) (s : Deque D) (call : ListCall) (t : Deque D) : Prop :=
  ∃ start : World D, start.table = s.world.table ∧ Unattended key start ∧ call.req.args[0]? = some key ∧
    FromParse call.req ∧ call.handle start = .ok ((), t.world) ∧ t.values = call.perform s.values

/-- The array of the list is the sequence. -/
structure Deque.Refined (key : Bytes) (s : Deque D) : Prop where
  holds : HoldsList key s.world.table s.values
  short : ∀ value ∈ s.values, value.length < 256

section Runs

variable {key : Bytes} {s t : Deque D} {start : World D} {values : List Bytes} {call : ListCall}

theorem call_ends (holds : HoldsList key start.table values) (short : ∀ value ∈ values, value.length < 256)
    (unattended : Unattended key start) (isKey : call.req.args[0]? = some key) :
    EndsIff call.handle start (call.Fits values) (call.Ends key values start) := by
  obtain ⟨command, req, clientFd⟩ := call
  have pushFits {command : DequeCommand} (pushes : command ≠ .lpop ∧ command ≠ .rpop) :
      ListCall.Fits ⟨command, req, clientFd⟩ values :=
    fun pops => absurd pops (not_or.mpr pushes)
  cases command with
  | lpush =>
    obtain ⟨u, run, ends⟩ := handleLpush_total holds isKey
    exact .of_ok run (pushFits (by decide)) ends
  | rpush =>
    obtain ⟨u, run, ends⟩ := handleRpush_total holds isKey unattended.allocated unattended.nobody
    exact .of_ok run (pushFits (by decide)) ends
  | lpop => exact handleLpop_ends holds isKey short
  | rpop => exact handleRpop_ends holds isKey short

/-- The elements come from requests. -/
theorem perform_short (short : ∀ value ∈ values, value.length < 256) (fromParse : FromParse call.req) :
    ∀ value ∈ call.perform values, value.length < 256 := by
  intro value member
  have shortArgs : ∀ arg ∈ call.req.args.drop 1, arg.length < 256 := fun arg inside =>
    fromParse.strings.1.short arg (List.mem_of_mem_drop inside)
  unfold ListCall.perform at member
  cases isCommand : call.command with
  | lpush =>
    simp only [isCommand, List.mem_append, List.mem_reverse] at member
    exact member.elim (shortArgs value) (short value)
  | rpush =>
    simp only [isCommand, List.mem_append] at member
    exact member.elim (short value) (shortArgs value)
  | lpop =>
    simp only [isCommand] at member
    exact short value (List.mem_of_mem_drop member)
  | rpop =>
    simp only [isCommand] at member
    exact short value (List.mem_of_mem_take member)

theorem refined_step (refined : s.Refined key) (step : ListStep key s call t) : t.Refined key := by
  obtain ⟨start, sameTable, unattended, isKey, fromParse, run, values⟩ := step
  have ends := (call_ends (sameTable ▸ refined.holds) refined.short unattended isKey).after _ run
  exact ⟨by rw [values]; exact ends.1, by rw [values]; exact perform_short refined.short fromParse⟩

/-- In every run of pushes and pops on a key that is free at the start, with no client blocked on it: the array of
the list is the sequence that the calls make, and the next call ends, keeps to the sequence and replies what it
should, if and only if it is no pop with a count whose reply is longer than 2048 bytes. -/
theorem lists_refine_iff (absent : lookup s.world.table key = .ok none) (empty : s.values = [])
    (run : Run (ListStep key) (fun _ _ => True) s t) (sameTable : start.table = t.world.table)
    (unattended : Unattended key start) (isKey : call.req.args[0]? = some key) :
    HoldsList key t.world.table t.values ∧
      ((∃ u, call.handle start = .ok ((), u) ∧ call.Ends key t.values start u) ↔ call.Fits t.values) := by
  have atStart : s.Refined key := ⟨.inl ⟨absent, empty⟩, by simp [empty]⟩
  have refined : t.Refined key :=
    run.invariant (fun _ _ _ refined _ step => refined_step refined step) atStart
  exact ⟨refined.holds, (call_ends (sameTable ▸ refined.holds) refined.short unattended isKey).exists_iff⟩

/-- The request of a message is one that `parse` delivers. -/
theorem fromParse_requestOf (message : Message) (plain : ∀ element ∈ message.elements, Plain element) :
    FromParse (requestOf message.elements) :=
  ⟨encode message.elements, 0, _, _, parse_encode message plain (List.append_nil _).symm, .inl rfl⟩

/-- A state with this table, without clients. -/
def tableOnly (table : Table Int) : World Int := { blankWorld Int with table := table }

theorem unattended_tableOnly (key : Bytes) (table : Table Int) : Unattended key (tableOnly table) where
  allocated _ _ occupied := by simp [tableOnly, blankWorld, bootWorld] at occupied
  nobody := by simp [World.waiters, World.waiterAt, tableOnly, blankWorld, bootWorld]

/-- RPUSH of a and b, and LPOP: the state of the array, and the state after the pop. -/
theorem lists_refine_iff_popped : ∃ t u : World Int, HoldsList (lit "k") t.table [lit "a", lit "b"] ∧
    handleLpop (requestOf [lit "LPOP", lit "k"]) 5 (tableOnly t.table) = .ok ((), u) ∧
    HoldsList (lit "k") u.table [lit "b"] := by
  let rpush : RespRequest := requestOf [lit "RPUSH", lit "k", lit "a", lit "b"]
  let lpop : ListCall := ⟨.lpop, requestOf [lit "LPOP", lit "k"], 5⟩
  have ends : endsIn (handleRpush rpush 5) (blankWorld Int) (fun _ => true) = true := by decide +kernel
  obtain ⟨t, runs, _⟩ := exists_ok_of_endsIn ends
  have fromParse : FromParse rpush := fromParse_requestOf
    ⟨[lit "RPUSH", lit "k", lit "a", lit "b"], by decide, by decide, by decide⟩ (by decide +kernel)
  have pushed : [lit "a", lit "b"] = ListCall.perform ⟨.rpush, rpush, 5⟩ [] := rfl
  have step : ListStep (lit "k") ⟨blankWorld Int, []⟩ ⟨.rpush, rpush, 5⟩ ⟨t, [lit "a", lit "b"]⟩ :=
    ⟨tableOnly (blankWorld Int).table, rfl, unattended_tableOnly _ _, rfl, fromParse, runs, pushed⟩
  have absent : lookup (blankWorld Int).table (lit "k") = .ok none := by decide +kernel
  have here : (tableOnly t.table).table = t.table := rfl
  have isKey : lpop.req.args[0]? = some (lit "k") := rfl
  obtain ⟨holds, ends_iff⟩ := lists_refine_iff absent rfl (Run.single trivial step) here (unattended_tableOnly _ _) isKey
  obtain ⟨u, pops, after, _⟩ := ends_iff.mpr fun _ counted => absurd counted (by decide)
  exact ⟨t, u, holds, pops, after⟩

/-- 255 bytes. -/
def longElement : Bytes := List.replicate 255 97

def longPush : RespRequest := requestOf (lit "RPUSH" :: lit "k" :: List.replicate 9 longElement)

def longPop : RespRequest := requestOf [lit "LPOP", lit "k", lit "9"]

/-- LPOP of nine elements of 255 bytes: behind the eighth the array is full, and the ninth is written past its end. -/
theorem lpop_count_overruns : ∃ t : Deque Int,
    Run (ListStep (lit "k")) (fun _ _ => True) ⟨blankWorld Int, []⟩ t ∧ t.values = List.replicate 9 longElement ∧
    handleLpop longPop 5 (tableOnly t.world.table) = .error .outOfBounds := by
  have ends : endsIn (handleRpush longPush 5) (blankWorld Int) (fun t =>
      decide ((handleLpop longPop 5 (tableOnly t.table)).map (fun _ => ()) = .error .outOfBounds)) = true := by
    decide +kernel
  obtain ⟨t, runs, checked⟩ := exists_ok_of_endsIn ends
  have overruns : handleLpop longPop 5 (tableOnly t.table) = .error .outOfBounds := by
    have fails := of_decide_eq_true checked
    cases pops : handleLpop longPop 5 (tableOnly t.table) with
    | ok u => simp [pops, Except.map] at fails
    | error e => simpa [pops, Except.map] using fails
  have fromParse : FromParse longPush := fromParse_requestOf
    ⟨lit "RPUSH" :: lit "k" :: List.replicate 9 longElement, by decide, by decide, by decide +kernel⟩ (by decide +kernel)
  have pushed : List.replicate 9 longElement = ListCall.perform ⟨.rpush, longPush, 5⟩ [] := by decide +kernel
  have step : ListStep (lit "k") ⟨blankWorld Int, []⟩ ⟨.rpush, longPush, 5⟩ ⟨t, List.replicate 9 longElement⟩ :=
    ⟨tableOnly (blankWorld Int).table, rfl, unattended_tableOnly _ _, rfl, fromParse, runs, pushed⟩
  exact ⟨_, Run.single trivial step, rfl, overruns⟩

end Runs

end RedisClone
