import RedisClone.Lib.Scan
import RedisClone.Verified.Bindings
import RedisClone.Verified.Steps

/-! # What the list handlers do, exactly

One lemma for each handler of `list_handler.c` that writes: from a normal end, the entry that was stored,
the client that was served or blocked, and what was sent.  `longestOf` is the scan of `handle_rpush` as a
function of the waiting clients and the readings of the clock.
-/

namespace RedisClone

open Exec CString

variable {D : Type}

theorem arg_ok {req : RespRequest} {i : Nat} {value : Bytes} {w t : World D} :
    (req.arg i : M D Bytes) w = .ok (value, t) ↔ req.args[i]? = some value ∧ t = w := by
  unfold RespRequest.arg
  cases req.args[i]? with
  | none => simp [fault]
  | some found => simp [eq_comm]

/-! ## The elements -/

theorem shiftLeft_eq {count : Nat} {values : List Bytes} (enough : count ≤ values.length) :
    shiftLeft count values = values.drop count :=
  Slots.take_moveDown enough

theorem shiftLeft_one (first : Bytes) (rest : List Bytes) :
    shiftLeft 1 (first :: rest) = rest :=
  shiftLeft_eq (by simp)

theorem prependReversed_eq (items values : List Bytes) :
    prependReversed items values = items.reverse ++ values := by
  unfold prependReversed
  have room : values.length + items.length ≤ (values ++ List.replicate items.length []).length := by
    simp
  rw [Slots.fillBack_eq (by rw [Slots.length_moveUp]; omega), Slots.drop_moveUp _ room]
  simp

/-! ## Waiting clients -/

/-- The client is blocked in BLPOP on the key. -/
def Client.waitsFor (client : Client) (key : Bytes) : Prop :=
  client.isBlpop = true ∧ client.isBlocked = true ∧ client.waitingForKey = some key

instance (client : Client) (key : Bytes) : Decidable (client.waitsFor key) :=
  inferInstanceAs (Decidable (_ ∧ _ ∧ _))

/-- The client in a slot, where it is blocked in BLPOP on the key. -/
def World.waiterAt (w : World D) (key : Bytes) (slot : ClientSlot) : Option (ClientPtr × Client) :=
  (w.clients slot).bind fun ptr => (w.heap ptr).bind fun client =>
    if client.waitsFor key then some (ptr, client) else none

/-- The clients that are blocked in BLPOP on the key, in the order of their slots. -/
def World.waiters (w : World D) (key : Bytes) : List (ClientPtr × Client) :=
  clientSlots.filterMap (w.waiterAt key)

theorem waiterAt_eq_some {w : World D} {key : Bytes} {slot : ClientSlot} {ptr : ClientPtr}
    {client : Client} :
    w.waiterAt key slot = some (ptr, client) ↔
      w.clients slot = some ptr ∧ w.heap ptr = some client ∧ client.waitsFor key := by
  unfold World.waiterAt
  constructor
  · intro waits
    obtain ⟨ptr', inSlot, inHeap⟩ := Option.bind_eq_some_iff.mp waits
    obtain ⟨client', found, waiting⟩ := Option.bind_eq_some_iff.mp inHeap
    split at waiting
    · rename_i waitsFor
      obtain ⟨rfl, rfl⟩ : ptr' = ptr ∧ client' = client := by simpa using waiting
      exact ⟨inSlot, found, waitsFor⟩
    · simp at waiting
  · rintro ⟨inSlot, found, waitsFor⟩
    simp [inSlot, found, waitsFor]

/-- The scan for the client that has waited longest. -/
def longestOf : (clock : Nat → Int) → List (ClientPtr × Client) → (longest : Option ClientPtr) →
    (biggest : Int) → Option ClientPtr
  | _, [], longest, _ => longest
  | clock, (ptr, client) :: rest, longest, biggest =>
    let time : Int := (clock 0 - client.blockedAt).natAbs
    if biggest < time then longestOf (fun n => clock (n + 1)) rest (some ptr) time
    else longestOf (fun n => clock (n + 1)) rest longest biggest

theorem longestWaiter_ok {key : Bytes} {slots : List ClientSlot} {longest result : Option ClientPtr}
    {biggest : Int} {w t : World D}
    (run : longestWaiter key slots longest biggest w = .ok (result, t)) :
    result = longestOf w.clock (slots.filterMap (w.waiterAt key)) longest biggest ∧
      t = { w with clock := t.clock } := by
  induction slots generalizing longest biggest w with
  | nil =>
    simp only [longestWaiter, pure_run, Except.ok.injEq, Prod.mk.injEq] at run
    obtain ⟨rfl, rfl⟩ := run
    exact ⟨rfl, rfl⟩
  | cons slot slots inductionHypothesis =>
    unfold longestWaiter at run
    obtain ⟨occupant, looked, look, rest⟩ := bind_eq_ok.mp run
    obtain ⟨rfl, inSlot, found⟩ := clientAt_run look
    rw [List.filterMap_cons]
    cases occupant with
    | none =>
      have nobody : looked.waiterAt key slot = none := by simp [World.waiterAt, inSlot]
      rw [nobody]
      exact inductionHypothesis rest
    | some occupant =>
      obtain ⟨ptr, client⟩ := occupant
      have inHeap := found ptr client rfl
      dsimp only at rest
      split at rest
      · rename_i waits
        have here : looked.waiterAt key slot = some (ptr, client) :=
          waiterAt_eq_some.mpr ⟨inSlot, inHeap, waits⟩
        rw [here, longestOf]
        -- the clock is read once for every waiter, so it moves on with the loop
        rw [bind_of_ok (show getCurrentTimeMs looked = .ok (looked.clock 0, looked.tick) from rfl)] at rest
        split at rest
        · rename_i longer
          obtain ⟨same, keeps⟩ := inductionHypothesis rest
          rw [if_pos longer]
          exact ⟨same, keeps⟩
        · rename_i notLonger
          obtain ⟨same, keeps⟩ := inductionHypothesis rest
          rw [if_neg notLonger]
          exact ⟨same, keeps⟩
      · rename_i idle
        have nobody : looked.waiterAt key slot = none := by
          refine Option.eq_none_iff_forall_ne_some.mpr fun other waits => ?_
          obtain ⟨ptr', client'⟩ := other
          obtain ⟨inSlot', found', waitsFor⟩ := waiterAt_eq_some.mp waits
          obtain rfl : ptr = ptr' := Option.some.inj (inSlot.symm.trans inSlot')
          obtain rfl : client = client' := Option.some.inj (inHeap.symm.trans found')
          exact idle waitsFor
        rw [nobody]
        exact inductionHypothesis rest

/-- The time that a client has waited at a reading of the clock. -/
def waitingTime (clock : Nat → Int) (i : Nat) (waiter : ClientPtr × Client) : Int :=
  (clock i - waiter.2.blockedAt).natAbs

theorem waitingTime_pos_iff {clock : Nat → Int} {i : Nat} {waiter : ClientPtr × Client} :
    0 < waitingTime clock i waiter ↔ clock i ≠ waiter.2.blockedAt := by
  simp only [waitingTime]
  omega

theorem longestOf_eq (clock : Nat → Int) (waiters : List (ClientPtr × Client))
    (kept : Option (ClientPtr × Client)) (biggest : Int) :
    longestOf clock waiters (kept.map Prod.fst) biggest =
      (Scan.firstLargest (waitingTime clock) waiters kept biggest).map Prod.fst := by
  induction waiters generalizing clock kept biggest with
  | nil => rfl
  | cons waiter rest inductionHypothesis =>
    obtain ⟨ptr, client⟩ := waiter
    simp only [longestOf, Scan.firstLargest]
    change (if biggest < waitingTime clock 0 (ptr, client) then _ else _) = _
    by_cases longer : biggest < waitingTime clock 0 (ptr, client)
    · rw [if_pos longer, if_pos longer]
      exact inductionHypothesis (fun n => clock (n + 1)) (some (ptr, client)) _
    · rw [if_neg longer, if_neg longer]
      exact inductionHypothesis (fun n => clock (n + 1)) kept biggest

theorem longestOf_none (clock : Nat → Int) (waiters : List (ClientPtr × Client)) (biggest : Int) :
    longestOf clock waiters none biggest =
      (Scan.firstLargest (waitingTime clock) waiters none biggest).map Prod.fst :=
  longestOf_eq clock waiters none biggest

theorem longestOf_mem {clock : Nat → Int} {waiters : List (ClientPtr × Client)} {biggest : Int}
    {ptr : ClientPtr} (isLongest : longestOf clock waiters none biggest = some ptr) :
    ∃ client, (ptr, client) ∈ waiters := by
  rw [longestOf_none, Option.map_eq_some_iff] at isLongest
  obtain ⟨⟨_, client⟩, finds, rfl⟩ := isLongest
  exact ⟨client, Scan.firstLargest_mem finds⟩

/-! ## Pushing -/

/-- The client after a push handed it an element, or its time was over. -/
def Client.woken (client : Client) : Client :=
  { client with isBlocked := false, isBlpop := false, waitingForKey := none }

theorem openList_opens {key : Bytes} {list : List Bytes} {w t : World D}
    (run : openList key w = .ok (list, t)) :
    ∃ expiresAt, Opens w key (.list []) (.list list) expiresAt t :=
  opens_of_run asList_takesOut run

/-- What RPUSH of some elements to a list leaves. -/
inductive Rpushes (w : World D) (key : Bytes) (list items : List Bytes) (expiresAt : Int)
    (clientFd : Int) (t : World D) : Prop where
  | unserved (nobody : longestOf w.clock (w.waiters key) none 0 = none)
      (keeps : t = { w with
        table := t.table, fresh := t.fresh, clock := t.clock
        sent := w.sent ++
          [(clientFd, (integerReply (list ++ items).length).take 1023)] })
      (stores : Stores w.table key ⟨.list (list ++ items), expiresAt⟩ (binding w.table key).isNone
        t.table)
  | served (ptr : ClientPtr) (client : Client) (first : Bytes) (rest : List Bytes)
      (longest : longestOf w.clock (w.waiters key) none 0 = some ptr)
      (found : w.heap ptr = some client) (elements : list ++ items = first :: rest)
      (keeps : t = { w with
        table := t.table, fresh := t.fresh, clock := t.clock
        sent := w.sent ++ [(clientFd, (integerReply (list ++ items).length).take 1023)] ++
          [(client.fd, (popReply key first).take 1023)]
        heap := Function.update w.heap ptr (some client.woken) })
      (stores : Stores w.table key ⟨.list rest, expiresAt⟩ (binding w.table key).isNone t.table)

theorem handleRpush_ok {req : RespRequest} {clientFd : Int} {w t : World D}
    (enough : 2 ≤ req.argc) (run : handleRpush req clientFd w = .ok ((), t)) :
    ∃ key list expiresAt opened, req.args[0]? = some key ∧
      Opens w key (.list []) (.list list) expiresAt opened ∧
      Rpushes w key list (req.args.drop 1) expiresAt clientFd t := by
  unfold handleRpush at run
  rw [if_neg (by omega)] at run
  obtain ⟨key, read, reads, afterKey⟩ := bind_eq_ok.mp run
  obtain ⟨isKey, rfl⟩ := arg_ok.mp reads
  obtain ⟨list, opened, openRun, afterOpen⟩ := bind_eq_ok.mp afterKey
  obtain ⟨expiresAt, opens⟩ := openList_opens openRun
  obtain ⟨_, pushed, updates, afterPush⟩ := bind_eq_ok.mp afterOpen
  obtain ⟨sameButTable, changed⟩ := updateEntry_stores opens.bound updates
  refine ⟨key, list, expiresAt, opened, isKey, opens, ?_⟩
  -- the state before the scan, in terms of the one before the command
  obtain ⟨openTable, fresh, rfl⟩ : ∃ table fresh, opened = { read with table, fresh } :=
    ⟨_, _, opens.keeps⟩
  obtain ⟨table, rfl⟩ : ∃ table, pushed = { read with table, fresh } := ⟨_, sameButTable⟩
  have stores := opens.stores changed
  rw [sendText, bind_of_ok (show send clientFd _ _ = .ok ((), _) from rfl)] at afterPush
  obtain ⟨waiter, scanned, scans, serves⟩ := bind_eq_ok.mp afterPush
  obtain ⟨isLongest, sameButClock⟩ := longestWaiter_ok scans
  obtain ⟨clock, rfl⟩ : ∃ clock, scanned = { read with
      table, fresh, clock
      sent := read.sent ++ [(clientFd, (integerReply
        (list ++ req.args.drop 1).length).take 1023)] } := ⟨_, sameButClock⟩
  change waiter = longestOf read.clock (read.waiters key) none 0 at isLongest
  cases waiter with
  | none =>
    simp only [pure_run, Except.ok.injEq, Prod.mk.injEq, true_and] at serves
    subst serves
    exact .unserved isLongest.symm rfl stores
  | some ptr =>
    dsimp only at serves
    unfold serveWaiter at serves
    cases elements : list ++ req.args.drop 1 with
    | nil =>
      rw [elements] at serves
      simp [fault] at serves
    | cons first rest =>
      simp only [elements, List.head?_cons] at serves
      obtain ⟨client, loaded, load, afterLoad⟩ := bind_eq_ok.mp serves
      obtain ⟨found, rfl⟩ := loadClient_eq_ok.mp load
      rw [sendText, bind_of_ok (show send client.fd _ _ = .ok ((), _) from rfl)] at afterLoad
      obtain ⟨_, popped, pops, wakes⟩ := bind_eq_ok.mp afterLoad
      have bound : binding table key = some ⟨.list (list ++ req.args.drop 1), expiresAt⟩ :=
        stores.binding_self
      obtain ⟨sameButPopped, shifted⟩ := updateEntry_stores bound pops
      rw [shiftLeft_one] at shifted
      obtain ⟨client', found', rfl⟩ := updateClient_eq_ok.mp wakes
      obtain ⟨poppedTable, rfl⟩ : ∃ table, popped = { read with
          table, fresh, clock
          sent := read.sent ++ [(clientFd, (integerReply (first :: rest).length).take 1023)] ++
            [(client.fd, (popReply key first).take 1023)] } := 
        ⟨_, sameButPopped⟩
      obtain rfl : client = client' := Option.some.inj (found.symm.trans found')
      refine .served ptr client first rest isLongest.symm found elements ?_ (stores.again shifted rfl)
      rw [elements]
      rfl

/-- What LPUSH of some elements to a list leaves. -/
structure Lpushes (w : World D) (key : Bytes) (list items : List Bytes) (expiresAt : Int)
    (clientFd : Int) (t : World D) : Prop where
  keeps : t = { w with
    table := t.table, fresh := t.fresh
    sent := w.sent ++
      [(clientFd, (integerReply (items.reverse ++ list).length).take 1023)] }
  stores : Stores w.table key ⟨.list (items.reverse ++ list), expiresAt⟩ (binding w.table key).isNone
    t.table

theorem handleLpush_ok {req : RespRequest} {clientFd : Int} {w t : World D}
    (enough : 2 ≤ req.argc) (run : handleLpush req clientFd w = .ok ((), t)) :
    ∃ key list expiresAt opened, req.args[0]? = some key ∧
      Opens w key (.list []) (.list list) expiresAt opened ∧
      Lpushes w key list (req.args.drop 1) expiresAt clientFd t := by
  unfold handleLpush at run
  rw [if_neg (by omega)] at run
  obtain ⟨key, read, reads, afterKey⟩ := bind_eq_ok.mp run
  obtain ⟨isKey, rfl⟩ := arg_ok.mp reads
  obtain ⟨list, opened, openRun, afterOpen⟩ := bind_eq_ok.mp afterKey
  obtain ⟨expiresAt, opens⟩ := openList_opens openRun
  rw [prependReversed_eq] at afterOpen
  obtain ⟨_, pushed, updates, replies⟩ := bind_eq_ok.mp afterOpen
  obtain ⟨sameButTable, changed⟩ := updateEntry_stores opens.bound updates
  refine ⟨key, list, expiresAt, opened, isKey, opens, ?_⟩
  have stores := opens.stores changed
  obtain ⟨openTable, fresh, rfl⟩ : ∃ table fresh, opened = { read with table, fresh } :=
    ⟨_, _, opens.keeps⟩
  obtain ⟨table, rfl⟩ : ∃ table, pushed = { read with table, fresh } := ⟨_, sameButTable⟩
  rw [sendText] at replies
  rw [send_run replies]
  exact ⟨rfl, stores⟩

/-! ## Popping -/

/-- How many elements an LPOP takes from a list. -/
def popCount (req : RespRequest) (values : List Bytes) : Nat :=
  if req.argc = 2 then min (atoi ((req.args[1]?).getD [])).toNat values.length
  else min 1 values.length

/-- What LPOP leaves. -/
inductive Lpops (w : World D) (req : RespRequest) (clientFd : Int) (t : World D) : Prop where
  | nothing (noKey : req.argc < 1) (same : t = w)
  | refused (key text : Bytes) (isKey : req.args[0]? = some key)
      (isError : text = nilReply ∨ text = emptyArray ∨ text = outOfRange)
      (empty : ∀ values expiresAt, binding w.table key = some ⟨.list values, expiresAt⟩ →
        popCount req values = 0)
      (same : t = w.emit clientFd text)
  | popped (key text : Bytes) (values : List Bytes) (expiresAt : Int) (isKey : req.args[0]? = some key)
      (bound : binding w.table key = some ⟨.list values, expiresAt⟩)
      (taken : 0 < popCount req values)
      (one : req.argc ≠ 2 → ∃ first, values.head? = some first ∧ text = (bulk first).take 2047)
      (array : req.argc = 2 →
        sendPopped clientFd (values.take (popCount req values)) w = .ok ((), w.emit clientFd text))
      (keeps : t = { w with table := t.table, sent := w.sent ++ [(clientFd, text)] })
      (stores : Stores w.table key ⟨.list (values.drop (popCount req values)), expiresAt⟩ false t.table)

theorem sendPopped_ok {clientFd : Int} {popped : List Bytes} {w t : World D}
    (run : sendPopped clientFd popped w = .ok ((), t)) : ∃ text, t = w.emit clientFd text := by
  obtain ⟨buffer, printed, prints, sends⟩ := bind_eq_ok.mp run
  obtain rfl := appendAll_run prints
  unfold Buffer.sendPrefix at sends
  split at sends
  · simp [fault] at sends
  · exact ⟨_, send_run sends⟩

theorem handleLpop_ok {req : RespRequest} {clientFd : Int} {w t : World D}
    (run : handleLpop req clientFd w = .ok ((), t)) : Lpops w req clientFd t := by
  unfold handleLpop at run
  split at run
  · rename_i noKey
    simp only [pure_run, Except.ok.injEq, Prod.mk.injEq, true_and] at run
    exact .nothing noKey run.symm
  · obtain ⟨key, read, reads, afterKey⟩ := bind_eq_ok.mp run
    obtain ⟨isKey, rfl⟩ := arg_ok.mp reads
    obtain ⟨unbound, replies⟩ | ⟨values, expiresAt, bound, pops⟩ :=
      withPayload_ok asList_takesOut afterKey
    · refine .refused key nilReply isKey (.inl rfl) (fun values expiresAt bound => ?_)
        (send_run replies)
      simp [unbound] at bound
    -- the key has one binding, so a refusal is about this list
    · have isBound (values' : List Bytes) (expiresAt' : Int)
          (bound' : binding read.table key = some ⟨.list values', expiresAt'⟩) : values' = values := by
        rw [bound] at bound'
        simp only [Option.some.injEq, Entry.mk.injEq, Value.list.injEq] at bound'
        exact bound'.1.symm
      cases values with
      | nil =>
        refine .refused key emptyArray isKey (.inr (.inl rfl)) (fun values' expiresAt' bound' => ?_)
          (send_run pops)
        rw [isBound values' expiresAt' bound']
        simp [popCount]
      | cons first rest =>
        simp only [List.head?_cons] at pops
        split at pops
        · rename_i isCount
          obtain ⟨word, read', reads', afterWord⟩ := bind_eq_ok.mp pops
          obtain ⟨isWord, rfl⟩ := arg_ok.mp reads'
          have counts : popCount req (first :: rest) = min (atoi word).toNat (rest.length + 1) := by
            simp [popCount, isCount, isWord]
          split at afterWord
          · rename_i negative
            refine .refused key outOfRange isKey (.inr (.inr rfl)) (fun values' expiresAt' bound' => ?_)
              (send_run afterWord)
            rw [isBound values' expiresAt' bound', counts]
            simp only [Nat.min_eq_zero_iff]
            omega
          · split at afterWord
            · rename_i zero
              refine .refused key emptyArray isKey (.inr (.inl rfl))
                (fun values' expiresAt' bound' => ?_) (send_run afterWord)
              rw [isBound values' expiresAt' bound', counts, zero]
              simp
            · rename_i notNegative notZero
              rw [show (first :: rest).length = rest.length + 1 from rfl, ← counts] at afterWord
              obtain ⟨_, replied, replies, writes⟩ := bind_eq_ok.mp afterWord
              obtain ⟨text, rfl⟩ := sendPopped_ok replies
              obtain ⟨sameButTable, stores⟩ :=
                updateEntry_stores (w := read'.emit clientFd text) bound writes
              rw [shiftLeft_eq (by rw [counts]; simp)] at stores
              refine .popped key text (first :: rest) expiresAt isKey bound ?_ ?_ (fun _ => replies)
                sameButTable stores
              · rw [counts]
                omega
              · exact fun notCount => absurd isCount notCount
        · rename_i notCount
          rw [sendText] at pops
          obtain ⟨_, replied, replies, writes⟩ := bind_eq_ok.mp pops
          rw [send_run replies] at writes
          obtain ⟨sameButTable, stores⟩ :=
            updateEntry_stores (w := read.emit clientFd _) bound writes
          have counts : popCount req (first :: rest) = 1 := by simp [popCount, notCount]
          -- without a count one element goes, as a bulk string
          rw [shiftLeft_eq (by simp)] at stores
          refine .popped key _ (first :: rest) expiresAt isKey bound ?_ ?_ ?_ sameButTable ?_
          · rw [counts]
            exact Nat.one_pos
          · exact fun _ => ⟨first, rfl, rfl⟩
          · exact fun isCount => absurd isCount notCount
          · rw [counts]
            exact stores

/-! ## Blocking -/

/-- The client after BLPOP blocked it. -/
def Client.blockedFor (client : Client) (key : Bytes) (timeoutAt blockedAt : Int) : Client :=
  { client with
    timeoutAt := timeoutAt, isBlpop := true, isBlocked := true, blockedAt := blockedAt,
    waitingForKey := some key }

/-- What BLPOP leaves. -/
inductive Blpops (w : World D) (req : RespRequest) (ptr : ClientPtr) (t : World D) : Prop where
  | nothing (few : req.argc < 2) (same : t = w)
  | popped (key first : Bytes) (rest : List Bytes) (expiresAt : Int) (client : Client)
      (enough : 2 ≤ req.argc) (isKey : req.args[0]? = some key)
      (bound : binding w.table key = some ⟨.list (first :: rest), expiresAt⟩)
      (found : w.heap ptr = some client)
      (keeps : t = { w with
        table := t.table
        sent := w.sent ++ [(client.fd, (popReply key first).take 1023)] })
      (stores : Stores w.table key ⟨.list rest, expiresAt⟩ false t.table)
  | blocked (key : Bytes) (client : Client) (timeoutAt blockedAt : Int)
      (enough : 2 ≤ req.argc) (isKey : req.args[0]? = some key)
      (empty : binding w.table key = none ∨
        ∃ expiresAt, binding w.table key = some ⟨.list [], expiresAt⟩)
      (found : w.heap ptr = some client)
      (keeps : t = { w with
        clock := t.clock
        heap := Function.update w.heap ptr (some (client.blockedFor key timeoutAt blockedAt)) })

theorem blpopDeadline_ok [Externals D] {sec : D} {timeoutAt : Int} {w t : World D}
    (run : blpopDeadline sec w = .ok (timeoutAt, t)) : t = { w with clock := t.clock } := by
  unfold blpopDeadline at run
  split at run
  · simp only [pure_run, Except.ok.injEq, Prod.mk.injEq] at run
    rw [← run.2]
  · rw [bind_of_ok (show getCurrentTimeMs w = .ok (w.clock 0, w.tick) from rfl)] at run
    simp only [pure_run, Except.ok.injEq, Prod.mk.injEq] at run
    rw [← run.2]
    rfl

theorem handleBlpop_ok [Externals D] {req : RespRequest} {ptr : ClientPtr} {w t : World D}
    (run : handleBlpop req ptr w = .ok ((), t)) : Blpops w req ptr t := by
  unfold handleBlpop at run
  split at run
  · rename_i few
    simp only [pure_run, Except.ok.injEq, Prod.mk.injEq, true_and] at run
    exact .nothing few run.symm
  · rename_i enough
    obtain ⟨key, read, reads, afterKey⟩ := bind_eq_ok.mp run
    obtain ⟨isKey, rfl⟩ := arg_ok.mp reads
    obtain ⟨values, opened, opens, afterList⟩ := bind_eq_ok.mp afterKey
    -- a list without elements may be bound, or nothing at all
    have source : opened = read ∧ (binding read.table key = none ∧ values = [] ∨
        ∃ expiresAt, binding read.table key = some ⟨.list values, expiresAt⟩) := by
      obtain ⟨unbound, missing⟩ | ⟨stored, expiresAt, bound, found⟩ :=
        withPayload_ok asList_takesOut opens
      · simp only [pure_run, Except.ok.injEq, Prod.mk.injEq] at missing
        exact ⟨missing.2.symm, .inl ⟨unbound, missing.1.symm⟩⟩
      · simp only [pure_run, Except.ok.injEq, Prod.mk.injEq] at found
        exact ⟨found.2.symm, .inr ⟨expiresAt, found.1 ▸ bound⟩⟩
    obtain ⟨rfl, source⟩ := source
    cases values with
    | cons first rest =>
      simp only [List.head?_cons] at afterList
      obtain ⟨client, loaded, load, afterLoad⟩ := bind_eq_ok.mp afterList
      obtain ⟨found, rfl⟩ := loadClient_eq_ok.mp load
      obtain ⟨_, isNil⟩ | ⟨expiresAt, bound⟩ := source
      · simp at isNil
      · rw [sendText, bind_of_ok (show send client.fd _ _ = .ok ((), _) from rfl)] at afterLoad
        obtain ⟨sameButTable, stores⟩ :=
          updateEntry_stores (w := loaded.emit client.fd _) bound afterLoad
        rw [shiftLeft_one] at stores
        exact .popped key first rest expiresAt client (by omega) isKey bound found sameButTable stores
    | nil =>
      simp only [List.head?_nil] at afterList
      obtain ⟨sec, read', reads', afterSec⟩ := bind_eq_ok.mp afterList
      obtain ⟨_, rfl⟩ := arg_ok.mp reads'
      obtain ⟨timeoutAt, timed, deadline, afterDeadline⟩ := bind_eq_ok.mp afterSec
      obtain ⟨clock, rfl⟩ : ∃ clock, timed = { read' with clock } := ⟨_, blpopDeadline_ok deadline⟩
      rw [bind_of_ok (show getCurrentTimeMs _ = .ok (clock 0, _) from rfl)] at afterDeadline
      obtain ⟨client, found, rfl⟩ := updateClient_eq_ok.mp afterDeadline
      refine .blocked key client timeoutAt (clock 0) (by omega) isKey ?_ found rfl
      exact source.imp And.left id

end RedisClone
