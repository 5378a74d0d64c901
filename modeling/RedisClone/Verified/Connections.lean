import RedisClone.Verified.Pipelines

/-! # The connection table

`Connected` is the invariant of `clients`, `watch_list` and `active_fds`: the slots from 1 below
`active_fds` are in use, each with its own client and its own descriptor.  `receptions` is the loop over the
descriptors with the log of what it receives from, and `Receives` says what the loop does from one index on:
every round either goes to the next slot or removes the connection of this one, whose place the last
connection takes.  From it `connections_hold` has that in every pass each client that is not blocked and has
something to read is received from once, whoever disconnects or connects in the pass.
-/

namespace RedisClone

open Exec CString

variable {D : Type}

/-! ## What the requests of a client leave alone -/

/-- A step for `sender` keeps the table of connections and blocks at most the sender. -/
structure Undisturbed (sender : ClientPtr) (w w' : World D) : Prop
    extends Clientwise (fun ptr client client' => ptr ≠ sender → NotBlocked client client') w w' where
  watchList : w'.watchList = w.watchList

/-- No client but the sender has the descriptor of the sender. -/
def World.OnlyFd (w : World D) (sender : ClientPtr) : Prop :=
  ∀ slot ptr client client', w.clients slot = some ptr → w.heap ptr = some client →
    w.heap sender = some client' → client.fd = client'.fd → ptr = sender

section Undisturbed

variable {sender : ClientPtr} {w w' w'' : World D}

theorem Undisturbed.of_clientwise (notBlocked : Clientwise (fun _ => NotBlocked) w w')
    (watchList : w'.watchList = w.watchList) : Undisturbed sender w w' :=
  ⟨notBlocked.mono fun _ _ _ kept _ => kept, watchList⟩

theorem Undisturbed.of_still (still : Still w w') (watchList : w'.watchList = w.watchList) :
    Undisturbed sender w w' :=
  .of_clientwise still.notBlocked watchList

theorem Undisturbed.refl (w : World D) : Undisturbed sender w w :=
  .of_still (.refl w) rfl

theorem Undisturbed.trans (before : Undisturbed sender w w') (after : Undisturbed sender w' w'') :
    Undisturbed sender w w'' where
  toClientwise := before.toClientwise.trans
    (fun _ _ _ _ first second other blocked => first other (second other blocked)) after.toClientwise
  watchList := after.watchList.trans before.watchList

theorem Undisturbed.emit (w : World D) (fd : Int) (bytes : Bytes) : Undisturbed sender w (w.emit fd bytes) :=
  .of_still (ambient_still.emit w fd bytes) rfl

/-- The client changes in what blocks nobody. -/
theorem Undisturbed.setClient {ptr : ClientPtr} {client : Client} (client' : Client)
    (found : w.heap ptr = some client) (fd : client'.fd = client.fd)
    (blocking : client'.blocking = client.blocking) : Undisturbed sender w (w.setClient ptr client') :=
  .of_still (still_setClient client' found fd blocking) rfl

theorem World.OnlyFd.of_undisturbed (only : w.OnlyFd sender) {ptr : ClientPtr}
    (undisturbed : Undisturbed ptr w w') : w'.OnlyFd sender := by
  intro slot other otherClient senderClient inSlot found foundSender same
  obtain ⟨before, foundBefore, fd, _⟩ := undisturbed.toClientwise.back found
  obtain ⟨senderBefore, foundSenderBefore, senderFd, _⟩ := undisturbed.toClientwise.back foundSender
  apply only slot other before senderBefore
  · exact undisturbed.clients ▸ inSlot
  · exact foundBefore
  · exact foundSenderBefore
  · exact fd.symm.trans (same.trans senderFd)

/-! ### The descriptors -/

/-- The descriptors are kept. -/
def SameWatchList (w w' : World D) : Prop := w'.watchList = w.watchList

theorem ambient_sameWatchList : Ambient (SameWatchList (D := D)) fun _ => True where
  composes := ⟨fun _ => rfl, fun before after => Eq.trans after before⟩
  emit _ _ _ := rfl
  tick _ := rfl
  takeFresh _ := rfl
  change _ _ _ _ _ _ _ := rfl
  authorize _ _ _ := rfl
  faults _ _ _ := trivial

theorem watchList_watchKeys {ptr : ClientPtr} {keys : List Bytes}
    (run : forM keys (watchKey ptr) w = .ok ((), w')) : w'.watchList = w.watchList := by
  induction keys generalizing w with
  | nil =>
    obtain rfl : w = w' := by simpa using run
    rfl
  | cons key keys inductionHypothesis =>
    rw [List.forM_cons] at run
    obtain ⟨_, registered, first, rest⟩ := bind_eq_ok.mp run
    obtain ⟨client, bucket, found, _, rfl⟩ := watchKey_run first
    exact (inductionHypothesis rest).trans rfl

theorem watchList_deleteWatchedKeys {ptr : ClientPtr} (run : deleteWatchedKeys ptr w = .ok ((), w')) :
    w'.watchList = w.watchList := by
  obtain ⟨client, found, rfl⟩ := deleteWatchedKeys_run run
  exact watchList_clearAll w ptr client.watchKeys

variable [Externals D]

theorem watchList_dispatch {req : RespRequest} (run : dispatch req sender w = .ok ((), w')) :
    w'.watchList = w.watchList :=
  (obeysAt_dispatch ambient_sameWatchList (.inl trivial) (.inl trivial) (fun _ _ _ _ _ _ _ => rfl)
    (fun _ => ⟨fun _ _ _ _ _ _ => rfl, fun _ _ _ => rfl⟩) (fun _ _ _ => rfl) (fun _ _ _ _ _ => rfl)
    fun _ => ⟨fun _ _ => rfl, fun _ _ => rfl⟩).1 () w' run

theorem Handled.watchList {req : RespRequest} {client : Client} (handles : Handled w req sender client w') :
    w'.watchList = w.watchList := by
  cases handles with
  | queued ordinary inMulti room => rfl
  | opened isMulti outside => rfl
  | refused text reason => rfl
  | ignored isWatch noKey => rfl
  | watched isWatch outside run => exact (watchList_watchKeys run : _)
  | unwatched fd isUnwatch run => exact (watchList_deleteWatchedKeys run : _)
  | left reply inMulti isEnd run => exact (watchList_deleteWatchedKeys run : _)
  | dispatched reaches run => exact watchList_dispatch run

/-! ### The commands -/

/-- An arm blocks at most the client that sends it.  WAIT looks for that client by its descriptor. -/
theorem arm_undisturbed {req : RespRequest} {client : Client} (found : w.heap sender = some client)
    (only : w.OnlyFd sender) (run : arm req sender client w = .ok ((), w')) :
    Clientwise (fun ptr client client' => ptr ≠ sender → NotBlocked client client') w w' := by
  by_cases blocks : Blocks w req
  · unfold arm at run
    obtain ⟨isBlpop, _⟩ | ⟨isXread, _⟩ | ⟨isWait, _⟩ := blocks
    · simp only [isBlpop] at run
      cases handleBlpop_ok run with
      | nothing few same => exact same ▸ .of_same (fun _ _ _ => id) rfl rfl rfl
      | popped key first rest expiresAt client enough isKey bound found keeps stores =>
        rw [keeps]
        exact .of_same (fun _ _ _ => id) rfl rfl rfl
      | blocked key client timeoutAt blockedAt enough isKey empty found keeps =>
        rw [keeps]
        exact .of_update (fun _ _ _ => id) (client.blockedFor key timeoutAt blockedAt) found rfl
          (fun other => absurd rfl other) rfl rfl rfl
    · refine (handleXread_readsOnly (by simpa [isXread] using run)).toClientwise.mono ?_
      intro ptr before after readBy other
      unfold ReadBy at readBy
      rw [if_neg other] at readBy
      exact readBy.notBlocked
    · simp only [isWait] at run
      cases handleWait_ok run with
      | answered wanted isWanted enough keeps =>
        rw [keeps]
        exact .of_same (fun _ _ _ => id) rfl rfl rfl
      | pending wanted asked isWanted few asks marks =>
        obtain ⟨same, _⟩ | ⟨ptr, marked, timeoutAt, marks⟩ := marks
        · rw [same, asks]
          exact .of_same (fun _ _ _ => id) rfl rfl rfl
        · obtain ⟨slot, inSlot⟩ := marks.slot
          have inHeap := marks.found
          rw [asks] at inSlot inHeap
          -- the descriptor is of no other client
          obtain rfl : ptr = sender := only slot ptr marked client inSlot inHeap found marks.sameFd
          rw [marks.keeps, asks]
          exact .of_update (fun _ _ _ => id) (marked.waitingUntil timeoutAt) inHeap rfl
            (fun other => absurd rfl other) rfl rfl rfl
  · exact (notBlocked_arm blocks run).mono fun _ _ _ kept _ => kept

theorem Handled.undisturbed {req : RespRequest} {client : Client} (handles : Handled w req sender client w')
    (found : w.heap sender = some client) (only : w.OnlyFd sender) : Undisturbed sender w w' := by
  cases reaches : reachesArm client req with
  | false => exact .of_still (handles.still found reaches) handles.watchList
  | true =>
    have run := handles.dispatch_of_reaches reaches
    obtain ⟨client', handled, notified, found', arms, notify, write⟩ := dispatch_parts run
    obtain rfl : client = client' := Option.some.inj (found.symm.trans found')
    have armed := arm_undisturbed (w := w.noted req) found only arms
    have after := (still_afterArm notify write).notBlocked
    have both := armed.trans (fun _ _ _ _ first second other blocked => first other (second other blocked))
      (after.mono fun _ _ _ kept _ => kept)
    exact ⟨⟨both.clients, both.activeFds, both.free, both.heap⟩, watchList_dispatch run⟩

omit [Externals D] in
theorem clearQueued_undisturbed {ptr : ClientPtr} (run : clearQueued ptr w = .ok ((), w')) :
    Undisturbed sender w w' := by
  obtain ⟨client, found, rfl⟩ := updateClient_eq_ok.mp run
  exact .setClient _ found rfl rfl

theorem handle_undisturbed {req : RespRequest} (only : w.OnlyFd sender)
    (run : handle req sender w = .ok ((), w')) : Undisturbed sender w w' := by
  refine handle_induction (P := Undisturbed sender w) ?_ ?_ ?_ (.refl w) run
  · intro u u' req client before found handles
    exact before.trans (handles.undisturbed found (only.of_undisturbed before))
  · exact fun u fd bytes before => before.trans (.emit u fd bytes)
  · exact fun u client requests isQueued before found => before.trans (.setClient _ found rfl rfl)

omit [Externals D] in
theorem propagate_undisturbed {ptr : ClientPtr} {call : Call} (run : propagate ptr call w = .ok ((), w')) :
    Undisturbed sender w w' := by
  obtain ⟨_, _, same⟩ := propagate_same run
  exact .of_still (still_propagate run) (by rw [same])

theorem serveRequest_undisturbed {slot : ClientSlot} {call : Call} (inSlot : w.clients slot = some sender)
    (only : w.OnlyFd sender) (run : serveRequest slot call w = .ok ((), w')) : Undisturbed sender w w' := by
  unfold serveRequest at run
  rw [bind_of_ok (observe_run _ w), inSlot] at run
  obtain ⟨_, handled, handles, propagates⟩ := bind_eq_ok.mp run
  exact (handle_undisturbed only handles).trans (propagate_undisturbed propagates)

/-- The requests of a received buffer. -/
theorem serveBuffer_undisturbed {slot : ClientSlot} {bytes stale : Bytes}
    (inSlot : w.clients slot = some sender) (only : w.OnlyFd sender)
    (run : serveBuffer slot bytes stale w = .ok ((), w')) : Undisturbed sender w w' := by
  have requests {calls : List Call} {w w' : World D} (inSlot : w.clients slot = some sender)
      (only : w.OnlyFd sender) (run : forM calls (serveRequest slot) w = .ok ((), w')) :
      Undisturbed sender w w' := by
    induction calls generalizing w with
    | nil =>
      obtain rfl : w = w' := by simpa using run
      exact .refl w
    | cons call calls inductionHypothesis =>
      rw [List.forM_cons] at run
      obtain ⟨_, after, first, rest⟩ := bind_eq_ok.mp run
      have undisturbed := serveRequest_undisturbed inSlot only first
      exact undisturbed.trans (inductionHypothesis (undisturbed.clients ▸ inSlot)
        (only.of_undisturbed undisturbed) rest)
  unfold serveBuffer at run
  rw [parseLoop_eq_calls] at run
  obtain ⟨_, served, serves, ends⟩ := bind_eq_ok.mp run
  have sameEnd : served = w' := by
    cases broken : (handleCallsFrom (bytes ++ 0 :: stale) bytes.length bytes.length 0).2 with
    | none => simpa [broken] using ends
    | some f => simp [broken] at ends
  exact sameEnd ▸ requests inSlot only serves

omit [Externals D] in
/-- The timers block nobody. -/
theorem runTimers_notBlocked (oneSlot : w.OneSlot) (run : runTimers w = .ok ((), w')) :
    Clientwise (fun _ => NotBlocked) w w' ∧ w'.watchList = w.watchList := by
  obtain ⟨expired, expires, completes⟩ := runTimers_ok oneSlot run
  have expiring : Clientwise (fun _ => NotBlocked) w expired := by
    refine ⟨by rw [expires.keeps]; rfl, by rw [expires.keeps]; rfl, expires.free, fun ptr client found => ?_⟩
    obtain ⟨_, kept⟩ | ⟨i, slot, _, _, changed⟩ := expires.heap ptr client found
    · exact ⟨client, kept, rfl, id⟩
    · refine ⟨_, changed, ?_⟩
      unfold Client.expired
      split
      · exact ⟨rfl, fun blocked => by simp [Client.unblocked] at blocked⟩
      · split
        · exact ⟨rfl, fun blocked => by simp [Client.woken] at blocked⟩
        · exact ⟨rfl, id⟩
  have sameWatchList : expired.watchList = w.watchList := by rw [expires.keeps]; rfl
  cases completes with
  | idle nobody same => exact same ▸ ⟨expiring, sameWatchList⟩
  | waits few notDue same => exact same ▸ ⟨expiring, sameWatchList⟩
  | completes somebody enough keeps free heap =>
    have completing : Clientwise (fun _ => NotBlocked) expired w' := by
      refine ⟨by rw [keeps], by rw [keeps], free, fun ptr client found => ?_⟩
      obtain ⟨_, kept⟩ | ⟨_, ended⟩ := heap ptr client found
      · exact ⟨client, kept, rfl, id⟩
      · refine ⟨_, ended, rfl, fun blocked => ?_⟩
        simp only [Client.waitEnded] at blocked
        split at blocked
        · simp at blocked
        · exact blocked
    refine ⟨expiring.trans (fun _ _ _ _ first second blocked => first (second blocked)) completing, ?_⟩
    exact (by rw [keeps] : w'.watchList = expired.watchList).trans sameWatchList

end Undisturbed

/-! ## The table -/

/-- The slots from 1 below `active_fds` are in use, each with its own client, which has the descriptor of
the slot; `accept` gave no two of them the same descriptor. -/
structure Connected (w : World D) : Prop where
  started : 1 ≤ w.activeFds
  bounded : w.activeFds ≤ maxClients
  inUse : ∀ slot, w.clients slot ≠ none ↔ 1 ≤ slot.val ∧ slot.val < w.activeFds
  polled : ∀ slot ptr, w.clients slot = some ptr →
    ∃ client, w.heap ptr = some client ∧ client.fd = (w.watchList slot).fd
  distinct : w.OneSlot
  apart : ∀ slot slot', w.clients slot ≠ none → w.clients slot' ≠ none →
    (w.watchList slot).fd = (w.watchList slot').fd → slot = slot'

section Connected

variable {w w' : World D}

theorem Connected.of_clientwise (connected : Connected w) (clientwise : Clientwise (fun _ _ _ => True) w w')
    (watchList : w'.watchList = w.watchList) : Connected w' where
  started := clientwise.activeFds ▸ connected.started
  bounded := clientwise.activeFds ▸ connected.bounded
  inUse slot := by
    rw [clientwise.clients, clientwise.activeFds]
    exact connected.inUse slot
  polled slot ptr inSlot := by
    rw [clientwise.clients] at inSlot
    obtain ⟨client, found, fd⟩ := connected.polled slot ptr inSlot
    obtain ⟨client', found', sameFd, _⟩ := clientwise.heap ptr client found
    exact ⟨client', found', by rw [sameFd, fd, watchList]⟩
  distinct := by
    unfold World.OneSlot
    rw [clientwise.clients]
    exact connected.distinct
  apart := by
    rw [clientwise.clients, watchList]
    exact connected.apart

theorem Connected.of_undisturbed {sender : ClientPtr} (connected : Connected w)
    (undisturbed : Undisturbed sender w w') : Connected w' :=
  connected.of_clientwise (undisturbed.toClientwise.mono fun _ _ _ _ => trivial) undisturbed.watchList

theorem Connected.onlyFd (connected : Connected w) {slot : ClientSlot} {sender : ClientPtr}
    (occupied : w.clients slot = some sender) : w.OnlyFd sender := by
  intro slot' ptr client client' inSlot found foundSender same
  obtain ⟨other, foundOther, fd⟩ := connected.polled slot' ptr inSlot
  obtain ⟨other', foundOther', fd'⟩ := connected.polled slot sender occupied
  obtain rfl : client = other := Option.some.inj (found.symm.trans foundOther)
  obtain rfl : client' = other' := Option.some.inj (foundSender.symm.trans foundOther')
  obtain rfl := connected.apart slot' slot (by simp [inSlot]) (by simp [occupied])
    (fd.symm.trans (same.trans fd'))
  exact Option.some.inj (inSlot.symm.trans occupied)

/-- A client in the next slot. -/
def World.seat (w : World D) (slot : ClientSlot) (ptr : ClientPtr) (client : Client) : World D :=
  { w with
    watchList := Function.update w.watchList slot ⟨client.fd, false⟩
    clients := Function.update w.clients slot (some ptr)
    heap := Function.update w.heap ptr (some client)
    activeFds := slot.val + 1 }

/-- A client whose block and descriptor are not in use takes the next slot. -/
theorem Connected.seat (connected : Connected w) {slot : ClientSlot} {ptr : ClientPtr} {client : Client}
    (isNext : slot.val = w.activeFds) (free : w.heap ptr = none)
    (unused : ∀ slot', w.clients slot' ≠ none → (w.watchList slot').fd ≠ client.fd) :
    Connected (w.seat slot ptr client) := by
  have old {other : ClientSlot} (isOld : other ≠ slot) :
      (w.seat slot ptr client).clients other = w.clients other ∧
        (w.seat slot ptr client).watchList other = w.watchList other :=
    ⟨Function.update_of_ne isOld _ _, Function.update_of_ne isOld _ _⟩
  have newClient : (w.seat slot ptr client).clients slot = some ptr := Function.update_self _ _ _
  have newFd : (w.seat slot ptr client).watchList slot = ⟨client.fd, false⟩ := Function.update_self _ _ _
  -- an old slot has another client than the new one
  have notNew {other : ClientSlot} {ptr' : ClientPtr} (inOld : w.clients other = some ptr') : ptr' ≠ ptr := by
    rintro rfl
    obtain ⟨_, found, _⟩ := connected.polled other ptr' inOld
    simp [free] at found
  have occupant {other : ClientSlot} {ptr' : ClientPtr}
      (inSlot : (w.seat slot ptr client).clients other = some ptr') :
      other = slot ∧ ptr' = ptr ∨ other ≠ slot ∧ w.clients other = some ptr' := by
    by_cases here : other = slot
    · subst here
      exact .inl ⟨rfl, (Option.some.inj (newClient.symm.trans inSlot)).symm⟩
    · exact .inr ⟨here, (old here).1.symm.trans inSlot⟩
  constructor
  · change 1 ≤ slot.val + 1
    omega
  · exact slot.isLt
  · intro other
    change _ ↔ 1 ≤ other.val ∧ other.val < slot.val + 1
    have started := connected.started
    by_cases here : other = slot
    · subst here
      simp only [newClient, ne_eq, reduceCtorEq, not_false_eq_true, true_iff]
      omega
    · have elsewhere : other.val ≠ slot.val := fun same => here (Fin.ext same)
      rw [(old here).1, connected.inUse other]
      omega
  · intro other ptr' inSlot
    obtain ⟨rfl, rfl⟩ | ⟨here, inOld⟩ := occupant inSlot
    · exact ⟨client, Function.update_self _ _ _, by rw [newFd]⟩
    · obtain ⟨client', found, fd'⟩ := connected.polled other ptr' inOld
      exact ⟨client', (Function.update_of_ne (notNew inOld) _ _).trans found, by rw [(old here).2, fd']⟩
  · intro first second ptr' inFirst inSecond
    obtain ⟨rfl, rfl⟩ | ⟨_, inOld⟩ := occupant inFirst
    · obtain ⟨rfl, _⟩ | ⟨_, inOld'⟩ := occupant inSecond
      · rfl
      · exact absurd rfl (notNew inOld')
    · obtain ⟨_, rfl⟩ | ⟨_, inOld'⟩ := occupant inSecond
      · exact absurd rfl (notNew inOld)
      · exact connected.distinct first second ptr' inOld inOld'
  · intro first second inFirst inSecond same
    obtain ⟨ptr', inFirst⟩ := Option.ne_none_iff_exists'.mp inFirst
    obtain ⟨ptr'', inSecond⟩ := Option.ne_none_iff_exists'.mp inSecond
    obtain ⟨rfl, _⟩ | ⟨here, inOld⟩ := occupant inFirst
    · obtain ⟨rfl, _⟩ | ⟨here', inOld'⟩ := occupant inSecond
      · rfl
      · rw [newFd, (old here').2] at same
        exact absurd same.symm (unused second (by simp [inOld']))
    · obtain ⟨rfl, _⟩ | ⟨here', inOld'⟩ := occupant inSecond
      · rw [newFd, (old here).2] at same
        exact absurd same (unused first (by simp [inOld]))
      · rw [(old here).2, (old here').2] at same
        exact connected.apart first second (by simp [inOld]) (by simp [inOld']) same

/-- Where a slot in use has its connection from, after the connection in `slot` ended: the last one came into
`slot`, every other one stayed. -/
theorem drop_origin {slot last other : ClientSlot} {ptr ptr' : ClientPtr}
    (inSlot : (w.drop slot last ptr).clients other = some ptr') :
    other ≠ last ∧ ∃ old, w.clients old = some ptr' ∧
      (w.drop slot last ptr).watchList other = w.watchList old ∧
      (other = slot ∧ old = last ∨ other ≠ slot ∧ old = other) := by
  simp only [World.drop] at inSlot ⊢
  by_cases isLast : other = last
  · subst isLast
    simp at inSlot
  · rw [Function.update_of_ne isLast] at inSlot ⊢
    refine ⟨isLast, ?_⟩
    by_cases here : other = slot
    · subst here
      rw [Function.update_self] at inSlot ⊢
      exact ⟨last, inSlot, rfl, .inl ⟨rfl, rfl⟩⟩
    · rw [Function.update_of_ne here] at inSlot ⊢
      exact ⟨other, inSlot, rfl, .inr ⟨here, rfl⟩⟩

/-- Where a connection is after another one ended. -/
theorem drop_moves {slot old : ClientSlot} (last : ClientSlot) (ptr : ClientPtr) {ptr' : ClientPtr} (inOld : w.clients old = some ptr')
    (other : old ≠ slot) : ∃ new, (w.drop slot last ptr).clients new = some ptr' ∧
      (w.drop slot last ptr).watchList new = w.watchList old ∧
      (old = last ∧ new = slot ∨ old ≠ last ∧ new = old) := by
  simp only [World.drop]
  by_cases isLast : old = last
  · subst isLast
    refine ⟨slot, ?_, ?_, .inl ⟨rfl, rfl⟩⟩
    · rw [Function.update_of_ne other.symm, Function.update_self, inOld]
    · rw [Function.update_of_ne other.symm, Function.update_self]
  · refine ⟨old, ?_, ?_, .inr ⟨isLast, rfl⟩⟩
    · rw [Function.update_of_ne isLast, Function.update_of_ne other, inOld]
    · rw [Function.update_of_ne isLast, Function.update_of_ne other]

/-- A connection ended. -/
theorem Connected.drop (connected : Connected w) {slot last : ClientSlot} {ptr : ClientPtr}
    (isLast : last.val = w.activeFds - 1) (occupied : w.clients slot = some ptr) :
    Connected (w.drop slot last ptr) := by
  have slotInUse := (connected.inUse slot).mp (by simp [occupied])
  have bounded := connected.bounded
  -- two slots in use have their connections from the same slot only if they are the same
  have sameOrigin {first second old old' : ClientSlot} (notLast : first ≠ last) (notLast' : second ≠ last)
      (moved : first = slot ∧ old = last ∨ first ≠ slot ∧ old = first)
      (moved' : second = slot ∧ old' = last ∨ second ≠ slot ∧ old' = second) (same : old = old') :
      first = second := by
    obtain ⟨here, fromLast⟩ | ⟨_, stays⟩ := moved
    · obtain ⟨here', _⟩ | ⟨_, stays'⟩ := moved'
      · rw [here, here']
      · exact absurd (stays'.symm.trans (same.symm.trans fromLast)) notLast'
    · obtain ⟨_, fromLast'⟩ | ⟨_, stays'⟩ := moved'
      · exact absurd (stays.symm.trans (same.trans fromLast')) notLast
      · rw [← stays, ← stays', same]
  constructor
  · change 1 ≤ last.val
    omega
  · change last.val ≤ maxClients
    omega
  · intro other
    change _ ↔ 1 ≤ other.val ∧ other.val < last.val
    simp only [World.drop]
    by_cases isLastSlot : other = last
    · subst isLastSlot
      simp
    · have elsewhere : other.val ≠ last.val := fun same => isLastSlot (Fin.ext same)
      rw [Function.update_of_ne isLastSlot]
      by_cases here : other = slot
      · subst here
        rw [Function.update_self, connected.inUse last]
        omega
      · rw [Function.update_of_ne here, connected.inUse other]
        omega
  · intro other ptr' inSlot
    obtain ⟨notLast, old, inOld, watched, moved⟩ := drop_origin inSlot
    obtain ⟨client, found, fd⟩ := connected.polled old ptr' inOld
    refine ⟨client, ?_, by rw [watched, fd]⟩
    have notDropped : ptr' ≠ ptr := by
      rintro rfl
      have atSlot := connected.distinct old slot ptr' inOld occupied
      obtain ⟨here, fromLast⟩ | ⟨here, stays⟩ := moved
      · exact notLast (here.trans (atSlot.symm.trans fromLast))
      · exact here (stays.symm.trans atSlot)
    exact (Function.update_of_ne notDropped _ _).trans found
  · intro first second ptr' inFirst inSecond
    obtain ⟨notLast, old, inOld, _, moved⟩ := drop_origin inFirst
    obtain ⟨notLast', old', inOld', _, moved'⟩ := drop_origin inSecond
    exact sameOrigin notLast notLast' moved moved' (connected.distinct old old' ptr' inOld inOld')
  · intro first second inFirst inSecond same
    obtain ⟨ptr', inFirst⟩ := Option.ne_none_iff_exists'.mp inFirst
    obtain ⟨ptr'', inSecond⟩ := Option.ne_none_iff_exists'.mp inSecond
    obtain ⟨notLast, old, inOld, watched, moved⟩ := drop_origin inFirst
    obtain ⟨notLast', old', inOld', watched', moved'⟩ := drop_origin inSecond
    rw [watched, watched'] at same
    exact sameOrigin notLast notLast' moved moved'
      (connected.apart old old' (by simp [inOld]) (by simp [inOld']) same)

end Connected

/-! ## What a pass receives from -/

/-- One call of `recv`: the client, and whether its connection had ended. -/
structure Reception where
  ptr : ClientPtr
  closed : Bool
  deriving DecidableEq

/-- The loop over `watch_list` with the log of its calls of `recv`. -/
def receptions [Externals D] (arrivals : Arrivals) : (fuel i : Nat) → M D (List Reception)
  | 0, _ => pure []
  | fuel + 1, i => do
    let active ← Exec.observe World.activeFds
    if active ≤ i then pure []
    else if inRange : i < maxClients then do
      let slot : ClientSlot := ⟨i, inRange⟩
      let watched ← Exec.observe fun w => w.watchList slot
      if !watched.revents then receptions arrivals fuel (i + 1)
      else if i = 0 then do
        acceptArrival arrivals.accepted
        receptions arrivals fuel (i + 1)
      else
        match ← clientAt slot with
        | none => fault .nullDeref
        | some (ptr, client) =>
          if client.isBlocked ∧ ¬ client.isReplica ∧ ¬ client.isSubscribed then
            receptions arrivals fuel (i + 1)
          else
            match arrivals.received fuel with
            | .closed => do
              disconnect slot
              let rest ← receptions arrivals fuel i
              pure (⟨ptr, true⟩ :: rest)
            | .data bytes stale => do
              serveBuffer slot bytes stale
              let rest ← receptions arrivals fuel (i + 1)
              pure (⟨ptr, false⟩ :: rest)
    else fault .outOfBounds

/-- The loop is the one of the code. -/
theorem serveSlots_eq [Externals D] (arrivals : Arrivals) (fuel i : Nat) :
    (serveSlots arrivals fuel i : M D Unit) = (do
      let _ ← receptions arrivals fuel i
      pure ()) := by
  induction fuel generalizing i with
  | zero => simp [serveSlots, receptions]
  | succ fuel inductionHypothesis =>
    unfold serveSlots receptions
    simp only [bind_assoc]
    refine bind_congr fun active => ?_
    by_cases ended : active ≤ i
    · simp [ended]
    · simp only [if_neg ended]
      by_cases inRange : i < maxClients
      · simp only [dif_pos inRange, bind_assoc]
        refine bind_congr fun watched => ?_
        by_cases quiet : (!watched.revents) = true
        · simp only [if_pos quiet, inductionHypothesis]
        · simp only [if_neg quiet]
          by_cases listening : i = 0
          · simp only [if_pos listening, inductionHypothesis, bind_assoc]
          · simp only [if_neg listening, bind_assoc]
            refine bind_congr fun occupant => ?_
            cases occupant with
            | none => rfl
            | some occupant =>
              dsimp only
              by_cases blocked : occupant.2.isBlocked ∧ ¬ occupant.2.isReplica ∧ ¬ occupant.2.isSubscribed
              · simp only [if_pos blocked, inductionHypothesis]
              · simp only [if_neg blocked]
                cases arrivals.received fuel with
                | closed => simp [inductionHypothesis]
                | data bytes stale => simp [inductionHypothesis]
      · simp only [dif_neg inRange]
        rfl

/-- What the loop does from an index on. -/
structure Receives (w : World D) (i : Nat) (log : List Reception) (w' : World D) : Prop where
  connected : Connected w'
  once : (log.map Reception.ptr).Nodup
  ready : ∀ reception ∈ log, ∃ slot, i ≤ slot.val ∧ w.clients slot = some reception.ptr ∧
    (w.watchList slot).revents = true
  all : ∀ slot ptr client, i ≤ slot.val → w.clients slot = some ptr → w.heap ptr = some client →
    (w.watchList slot).revents = true → client.isBlocked = false → ∃ reception ∈ log, reception.ptr = ptr
  remain : ∀ ptr, (∃ slot, w'.clients slot = some ptr) ↔
    (∃ slot, w.clients slot = some ptr) ∧ ⟨ptr, true⟩ ∉ log

section Receives

variable {w w' : World D} {i : Nat} {log : List Reception}

/-- Nothing is received. -/
theorem Receives.nothing (connected : Connected w) (atEnd : w.activeFds ≤ i) : Receives w i [] w where
  connected := connected
  once := by simp
  ready := by simp
  all slot ptr client inRange inSlot := by
    have inUse := (connected.inUse slot).mp (by simp [inSlot])
    omega
  remain ptr := by simp

/-- The loop passes over a slot whose client it need not receive from. -/
theorem Receives.skip (rest : Receives w (i + 1) log w')
    (needless : ∀ slot ptr client, slot.val = i → w.clients slot = some ptr → w.heap ptr = some client →
      (w.watchList slot).revents = true → client.isBlocked = true) : Receives w i log w' where
  connected := rest.connected
  once := rest.once
  ready reception member := by
    obtain ⟨slot, inRange, inSlot, revents⟩ := rest.ready reception member
    exact ⟨slot, by omega, inSlot, revents⟩
  all slot ptr client inRange inSlot found revents unblocked := by
    by_cases here : slot.val = i
    · have blocked := needless slot ptr client here inSlot found revents
      simp [unblocked] at blocked
    · exact rest.all slot ptr client (by omega) inSlot found revents unblocked
  remain := rest.remain

/-- The loop receives from the client of a slot and goes on behind it. -/
theorem Receives.receive {slot : ClientSlot} {ptr : ClientPtr} {handled : World D} (connected : Connected w)
    (here : slot.val = i) (inSlot : w.clients slot = some ptr) (revents : (w.watchList slot).revents = true)
    (handles : Undisturbed ptr w handled) (rest : Receives handled (i + 1) log w') :
    Receives w i (⟨ptr, false⟩ :: log) w' where
  connected := rest.connected
  once := by
    refine List.nodup_cons.mpr ⟨fun member => ?_, rest.once⟩
    obtain ⟨reception, inLog, same⟩ := List.mem_map.mp member
    obtain ⟨slot', inRange, inSlot', _⟩ := rest.ready reception inLog
    rw [handles.clients, same] at inSlot'
    obtain rfl := connected.distinct slot slot' ptr inSlot inSlot'
    omega
  ready reception member := by
    obtain rfl | inLog := List.mem_cons.mp member
    · exact ⟨slot, by omega, inSlot, revents⟩
    · obtain ⟨slot', inRange, inSlot', revents'⟩ := rest.ready reception inLog
      rw [handles.clients] at inSlot'
      rw [handles.watchList] at revents'
      exact ⟨slot', by omega, inSlot', revents'⟩
  all slot' ptr' client inRange inSlot' found revents' unblocked := by
    by_cases same : ptr' = ptr
    · exact ⟨_, List.mem_cons_self, same.symm⟩
    · have elsewhere : slot' ≠ slot := by
        rintro rfl
        exact same (Option.some.inj (inSlot'.symm.trans inSlot))
      have later : slot'.val ≠ i := fun sameVal => elsewhere (Fin.ext (sameVal.trans here.symm))
      obtain ⟨client', found', _, notBlocked⟩ := handles.heap ptr' client found
      -- the requests of another client do not block this one
      have unblocked' : client'.isBlocked = false := by
        cases blocked : client'.isBlocked with
        | false => rfl
        | true => simp [notBlocked same blocked] at unblocked
      obtain ⟨reception, inLog, isPtr⟩ := rest.all slot' ptr' client' (by omega)
        (handles.clients ▸ inSlot') found' (handles.watchList ▸ revents') unblocked'
      exact ⟨reception, List.mem_cons_of_mem _ inLog, isPtr⟩
  remain ptr' := by
    rw [rest.remain ptr', handles.clients]
    simp

/-- The loop finds that the connection of a slot ended, and goes on with the one that comes into it. -/
theorem Receives.close {slot last : ClientSlot} {ptr : ClientPtr} (connected : Connected w)
    (here : slot.val = i) (isLast : last.val = w.activeFds - 1) (inSlot : w.clients slot = some ptr)
    (revents : (w.watchList slot).revents = true) (rest : Receives (w.drop slot last ptr) i log w') :
    Receives w i (⟨ptr, true⟩ :: log) w' := by
  have slotInUse := (connected.inUse slot).mp (by simp [inSlot])
  -- no slot holds the client of the connection that ended
  have gone {other : ClientSlot} (inOther : (w.drop slot last ptr).clients other = some ptr) : False := by
    obtain ⟨notLast, old, inOld, _, moved⟩ := drop_origin inOther
    have atSlot := connected.distinct old slot ptr inOld inSlot
    obtain ⟨isSlot, fromLast⟩ | ⟨notSlot, stays⟩ := moved
    · exact notLast (isSlot.trans (atSlot.symm.trans fromLast))
    · exact notSlot (stays.symm.trans atSlot)
  have notInLog : ptr ∉ log.map Reception.ptr := by
    intro member
    obtain ⟨reception, inLog, same⟩ := List.mem_map.mp member
    obtain ⟨slot', _, inSlot', _⟩ := rest.ready reception inLog
    exact gone (same ▸ inSlot')
  refine ⟨rest.connected, List.nodup_cons.mpr ⟨notInLog, rest.once⟩, fun reception member => ?_,
    fun slot' ptr' client inRange inSlot' found revents' unblocked => ?_, fun ptr' => ?_⟩
  · obtain rfl | inLog := List.mem_cons.mp member
    · exact ⟨slot, by omega, inSlot, revents⟩
    · obtain ⟨slot', inRange, inSlot', revents'⟩ := rest.ready reception inLog
      obtain ⟨_, old, inOld, watched, moved⟩ := drop_origin inSlot'
      rw [watched] at revents'
      refine ⟨old, ?_, inOld, revents'⟩
      obtain ⟨_, rfl⟩ | ⟨_, rfl⟩ := moved
      · omega
      · exact inRange
  · by_cases same : ptr' = ptr
    · exact ⟨_, List.mem_cons_self, same.symm⟩
    · have elsewhere : slot' ≠ slot := by
        rintro rfl
        exact same (Option.some.inj (inSlot'.symm.trans inSlot))
      obtain ⟨new, inNew, watched, moved⟩ := drop_moves last ptr inSlot' elsewhere
      have inRange' : i ≤ new.val := by
        obtain ⟨_, rfl⟩ | ⟨_, rfl⟩ := moved
        · omega
        · exact inRange
      have found' : (w.drop slot last ptr).heap ptr' = some client :=
        (Function.update_of_ne same _ _).trans found
      obtain ⟨reception, inLog, isPtr⟩ :=
        rest.all new ptr' client inRange' inNew found' (watched ▸ revents') unblocked
      exact ⟨reception, List.mem_cons_of_mem _ inLog, isPtr⟩
  · rw [rest.remain ptr']
    constructor
    · rintro ⟨⟨new, inNew⟩, notClosed⟩
      obtain ⟨_, old, inOld, _, _⟩ := drop_origin inNew
      refine ⟨⟨old, inOld⟩, fun member => ?_⟩
      obtain same | inLog := List.mem_cons.mp member
      · exact gone ((Reception.mk.inj same).1 ▸ inNew)
      · exact notClosed inLog
    · rintro ⟨⟨old, inOld⟩, notClosed⟩
      have notSlot : old ≠ slot := by
        rintro rfl
        obtain rfl : ptr' = ptr := Option.some.inj (inOld.symm.trans inSlot)
        exact notClosed List.mem_cons_self
      obtain ⟨new, inNew, _⟩ := drop_moves last ptr inOld notSlot
      exact ⟨⟨new, inNew⟩, fun inLog => notClosed (List.mem_cons_of_mem _ inLog)⟩

variable [Externals D]

/-- The loop behind the listening descriptor.  The slots that are left are at most as many as the rounds. -/
theorem receptions_receives {arrivals : Arrivals} {fuel : Nat} (connected : Connected w) (behind : 1 ≤ i)
    (enough : w.activeFds ≤ i + fuel) (run : receptions arrivals fuel i w = .ok (log, w')) :
    Receives w i log w' := by
  induction fuel generalizing i w log with
  | zero =>
    simp only [receptions, pure_run, Except.ok.injEq, Prod.mk.injEq] at run
    obtain ⟨rfl, rfl⟩ := run
    exact .nothing connected enough
  | succ fuel inductionHypothesis =>
    unfold receptions at run
    rw [bind_of_ok (observe_run _ w)] at run
    by_cases ended : w.activeFds ≤ i
    · simp only [if_pos ended, pure_run, Except.ok.injEq, Prod.mk.injEq] at run
      obtain ⟨rfl, rfl⟩ := run
      exact .nothing connected ended
    · have bounded := connected.bounded
      have inRange : i < maxClients := by omega
      simp only [if_neg ended, dif_pos inRange] at run
      rw [bind_of_ok (observe_run _ w)] at run
      have goOn {w : World D} {log : List Reception} (connected : Connected w) (enough : w.activeFds ≤ i + 1 + fuel)
          (run : receptions arrivals fuel (i + 1) w = .ok (log, w')) : Receives w (i + 1) log w' :=
        inductionHypothesis connected (by omega) enough run
      -- `poll` saw nothing at this slot
      by_cases quiet : (!(w.watchList ⟨i, inRange⟩).revents) = true
      · rw [if_pos quiet] at run
        refine (goOn connected (by omega) run).skip fun slot ptr client here _ _ revents => ?_
        obtain rfl : slot = ⟨i, inRange⟩ := Fin.ext here
        simp [revents] at quiet
      · have revents : (w.watchList ⟨i, inRange⟩).revents = true := by simpa using quiet
        rw [if_neg quiet, if_neg (by omega)] at run
        obtain ⟨occupant, looked, look, afterLook⟩ := bind_eq_ok.mp run
        obtain ⟨rfl, inSlot, foundHere⟩ := clientAt_run look
        cases occupant with
        | none => simp [fault] at afterLook
        | some occupant =>
          obtain ⟨ptr, client⟩ := occupant
          have found := foundHere ptr client rfl
          simp only [Option.map_some] at inSlot afterLook
          -- a blocked client is passed over, its bytes stay in the kernel
          by_cases blocked : client.isBlocked ∧ ¬ client.isReplica ∧ ¬ client.isSubscribed
          · rw [if_pos blocked] at afterLook
            refine (goOn connected (by omega) afterLook).skip fun slot ptr' client' here inSlot' found' _ => ?_
            obtain rfl : slot = ⟨i, inRange⟩ := Fin.ext here
            obtain rfl : ptr = ptr' := Option.some.inj (inSlot.symm.trans inSlot')
            obtain rfl : client = client' := Option.some.inj (found.symm.trans found')
            exact blocked.1
          · rw [if_neg blocked] at afterLook
            cases received : arrivals.received fuel with
            | closed =>
              simp only [received] at afterLook
              obtain ⟨_, dropped, drops, afterDrop⟩ := bind_eq_ok.mp afterLook
              obtain ⟨rest, final, receives, ends⟩ := bind_eq_ok.mp afterDrop
              simp only [pure_run, Except.ok.injEq, Prod.mk.injEq] at ends
              obtain ⟨rfl, rfl⟩ := ends
              obtain ⟨last, isLast, rfl⟩ := disconnect_run inSlot drops
              -- the last slot moves here, so the next round looks at the same index
              have fewer : (looked.drop ⟨i, inRange⟩ last ptr).activeFds = last.val := rfl
              refine .close connected rfl isLast inSlot revents ?_
              exact inductionHypothesis (connected.drop isLast inSlot) behind (by omega) receives
            | data bytes stale =>
              simp only [received] at afterLook
              obtain ⟨_, handled, handles, afterHandle⟩ := bind_eq_ok.mp afterLook
              obtain ⟨rest, final, receives, ends⟩ := bind_eq_ok.mp afterHandle
              simp only [pure_run, Except.ok.injEq, Prod.mk.injEq] at ends
              obtain ⟨rfl, rfl⟩ := ends
              have undisturbed := serveBuffer_undisturbed inSlot (connected.onlyFd inSlot) handles
              refine .receive connected rfl inSlot revents undisturbed ?_
              refine goOn (connected.of_undisturbed undisturbed) ?_ receives
              rw [undisturbed.activeFds]
              omega

end Receives

/-! ## A pass -/

/-- The slot of the listening descriptor. -/
def listening : ClientSlot := ⟨0, by decide⟩

/-- The pass gives the connection a slot. -/
def World.Accepts (w : World D) (arrivals : Arrivals) (ptr : ClientPtr) : Prop :=
  arrivals.ready listening = true ∧ w.activeFds < maxClients ∧ ∃ fd, arrivals.accepted = some (fd, ptr)

/-- `accept` and `calloc` return a descriptor and a block that are not in use. -/
def Admissible (w : World D) : Option Arrivals → Prop
  | none => True
  | some arrivals =>
    match arrivals.accepted with
    | none => True
    | some (fd, ptr) => w.heap ptr = none ∧ ∀ slot, w.clients slot ≠ none → (w.watchList slot).fd ≠ fd

instance (w : World D) (arrivals : Option Arrivals) : Decidable (Admissible w arrivals) :=
  match arrivals with
  | none => inferInstanceAs (Decidable True)
  | some ⟨_, none, _⟩ => inferInstanceAs (Decidable True)
  | some ⟨_, some (_, _), _⟩ => inferInstanceAs (Decidable (_ ∧ _))

/-- What a pass receives: from each client at most once, from none whose descriptor was not ready, and from
every client that was ready and not blocked when the pass began.  The connections after it are those before
it and the one that was accepted, without those that ended. -/
structure ReceivedOnce (w : World D) (arrivals : Arrivals) (log : List Reception) (w' : World D) : Prop where
  once : (log.map Reception.ptr).Nodup
  ready : ∀ reception ∈ log, ∃ slot, w.clients slot = some reception.ptr ∧ arrivals.ready slot = true
  all : ∀ slot ptr client, w.clients slot = some ptr → w.heap ptr = some client →
    arrivals.ready slot = true → client.isBlocked = false → ∃ reception ∈ log, reception.ptr = ptr
  remain : ∀ ptr, (∃ slot, w'.clients slot = some ptr) ↔
    ((∃ slot, w.clients slot = some ptr) ∨ w.Accepts arrivals ptr) ∧ ⟨ptr, true⟩ ∉ log

/-- A pass with the log of its calls of `recv`. -/
def receivingPass [Externals D] (arrivals : Arrivals) : M D (List Reception) := do
  setReady arrivals.ready
  runTimers
  receptions arrivals (2 * maxClients) 0

theorem pollPass_eq [Externals D] (arrivals : Arrivals) :
    (pollPass (some arrivals) : M D Unit) = (do
      let _ ← receivingPass arrivals
      pure ()) := by
  simp only [pollPass, receivingPass, serveSlots_eq, bind_assoc]

section Pass

variable {w w' : World D} {arrivals : Arrivals} {log : List Reception}

theorem Connected.polls (connected : Connected w) (ready : ClientSlot → Bool) (run : setReady ready w = .ok ((), w')) :
    Connected w' ∧ w'.clients = w.clients ∧ w'.heap = w.heap ∧ w'.activeFds = w.activeFds ∧
      (∀ slot, (w'.watchList slot).fd = (w.watchList slot).fd) ∧
      ∀ slot, slot.val < w.activeFds → (w'.watchList slot).revents = ready slot := by
  simp only [setReady, alter_run, Except.ok.injEq, Prod.mk.injEq, true_and] at run
  obtain rfl := run
  have fds (slot : ClientSlot) : (if slot.val < w.activeFds then { w.watchList slot with revents := ready slot }
      else w.watchList slot).fd = (w.watchList slot).fd := by
    split <;> rfl
  refine ⟨⟨connected.started, connected.bounded, connected.inUse, fun slot ptr inSlot => ?_,
    connected.distinct, fun slot slot' inSlot inSlot' same => ?_⟩, rfl, rfl, rfl, fds, fun slot inRange => ?_⟩
  · obtain ⟨client, found, fd⟩ := connected.polled slot ptr inSlot
    exact ⟨client, found, fd.trans (fds slot).symm⟩
  · exact connected.apart slot slot' inSlot inSlot' ((fds slot).symm.trans (same.trans (fds slot')))
  · exact congrArg PollFd.revents (if_pos inRange)

/-- What the loop receives after a connection was accepted.  Its slot was not polled. -/
theorem Receives.of_seat {slot : ClientSlot} {ptr : ClientPtr} {client : Client}
    (receives : Receives (w.seat slot ptr client) 1 log w') (connected : Connected w)
    (polled : ∀ slot, w.clients slot ≠ none → (w.watchList slot).revents = arrivals.ready slot)
    (isNext : slot.val = w.activeFds) (free : w.heap ptr = none)
    (accepts : ∀ other, w.Accepts arrivals other ↔ other = ptr) : ReceivedOnce w arrivals log w' := by
  have old {other : ClientSlot} (isOld : other ≠ slot) :
      (w.seat slot ptr client).clients other = w.clients other ∧
        (w.seat slot ptr client).watchList other = w.watchList other :=
    ⟨Function.update_of_ne isOld _ _, Function.update_of_ne isOld _ _⟩
  have newClient : (w.seat slot ptr client).clients slot = some ptr := Function.update_self _ _ _
  -- every slot in use lies in front of the new one, and its client is another
  have notNew {other : ClientSlot} {ptr' : ClientPtr} (inOld : w.clients other = some ptr') :
      other ≠ slot ∧ ptr' ≠ ptr := by
    have inUse := (connected.inUse other).mp (by simp [inOld])
    constructor
    · rintro rfl
      omega
    · rintro rfl
      obtain ⟨_, found, _⟩ := connected.polled other ptr' inOld
      simp [free] at found
  constructor
  · exact receives.once
  · intro reception member
    obtain ⟨slot', _, inSlot, revents⟩ := receives.ready reception member
    have isOld : slot' ≠ slot := by
      rintro rfl
      simp [World.seat] at revents
    rw [(old isOld).1] at inSlot
    rw [(old isOld).2, polled slot' (by simp [inSlot])] at revents
    exact ⟨slot', inSlot, revents⟩
  · intro slot' ptr' client' inSlot found ready unblocked
    have inUse := (connected.inUse slot').mp (by simp [inSlot])
    obtain ⟨isOld, isOther⟩ := notNew inSlot
    apply receives.all slot' ptr' client' inUse.1
    · rw [(old isOld).1, inSlot]
    · exact (Function.update_of_ne isOther _ _).trans found
    · rw [(old isOld).2, polled slot' (by simp [inSlot]), ready]
    · exact unblocked
  · intro ptr'
    rw [receives.remain ptr', accepts ptr']
    refine and_congr_left fun _ => ⟨fun ⟨slot', inSlot⟩ => ?_, fun before => ?_⟩
    · by_cases here : slot' = slot
      · subst here
        exact .inr (Option.some.inj (inSlot.symm.trans newClient))
      · exact .inl ⟨slot', (old here).1.symm.trans inSlot⟩
    · obtain ⟨slot', inSlot⟩ | rfl := before
      · exact ⟨slot', (old (notNew inSlot).1).1.trans inSlot⟩
      · exact ⟨slot, newClient⟩

variable [Externals D]

/-- The round for the listening descriptor, and the loop behind it. -/
theorem receptions_start (connected : Connected w) (polled : ∀ slot, w.clients slot ≠ none →
      (w.watchList slot).revents = arrivals.ready slot)
    (listens : (w.watchList listening).revents = arrivals.ready listening)
    (admissible : Admissible w (some arrivals))
    (run : receptions arrivals (2 * maxClients) 0 w = .ok (log, w')) :
    Connected w' ∧ ReceivedOnce w arrivals log w' := by
  have started := connected.started
  have bounded := connected.bounded
  have inRange : 0 < maxClients := by decide
  obtain ⟨rounds, isRounds⟩ : ∃ rounds, 2 * maxClients = rounds + 1 := ⟨2 * maxClients - 1, by decide⟩
  have room : maxClients ≤ 1 + rounds := by omega
  -- the rest of the loop, where nobody was accepted
  have asBefore (notAccepted : ∀ ptr, ¬ w.Accepts arrivals ptr)
      (rest : receptions arrivals rounds 1 w = .ok (log, w')) : Connected w' ∧ ReceivedOnce w arrivals log w' := by
    have receives := receptions_receives connected (Nat.le_refl 1) (by omega) rest
    refine ⟨receives.connected, receives.once, fun reception member => ?_,
      fun slot ptr client inSlot found ready unblocked => ?_, fun ptr => ?_⟩
    · obtain ⟨slot, _, inSlot, revents⟩ := receives.ready reception member
      exact ⟨slot, inSlot, (polled slot (by simp [inSlot])).symm.trans revents⟩
    · have inUse := (connected.inUse slot).mp (by simp [inSlot])
      exact receives.all slot ptr client inUse.1 inSlot found
        ((polled slot (by simp [inSlot])).trans ready) unblocked
    · rw [receives.remain ptr]
      simp [notAccepted ptr]
  rw [isRounds] at run
  unfold receptions at run
  rw [bind_of_ok (observe_run _ w)] at run
  simp only [if_neg (show ¬ w.activeFds ≤ 0 by omega), dif_pos inRange] at run
  rw [bind_of_ok (observe_run _ w)] at run
  by_cases quiet : (!(w.watchList ⟨0, inRange⟩).revents) = true
  · rw [if_pos quiet] at run
    refine asBefore (fun ptr accepts => ?_) run
    have revents : (w.watchList ⟨0, inRange⟩).revents = true := listens.trans accepts.1
    simp [revents] at quiet
  · have revents : (w.watchList ⟨0, inRange⟩).revents = true := by simpa using quiet
    have ready : arrivals.ready listening = true := listens.symm.trans revents
    rw [if_neg quiet, if_pos trivial] at run
    obtain ⟨_, accepted, accepts, rest⟩ := bind_eq_ok.mp run
    cases arrived : arrivals.accepted with
    | none =>
      obtain rfl : w = accepted := by simpa [acceptArrival, arrived] using accepts
      exact asBefore (fun ptr accepts => by simp [World.Accepts, arrived] at accepts) rest
    | some arrival =>
      obtain ⟨fd, ptr⟩ := arrival
      simp only [acceptArrival, arrived] at accepts
      simp only [Admissible, arrived] at admissible
      obtain ⟨free, unused⟩ := admissible
      by_cases hasRoom : w.activeFds < maxClients
      · have seated : accepted = w.seat ⟨w.activeFds, hasRoom⟩ ptr (newClient fd) := by
          unfold connect at accepts
          rw [bind_of_ok (observe_run _ w), dif_pos hasRoom] at accepts
          simpa [World.seat, newClient, eq_comm] using accepts
        have connected' : Connected (w.seat ⟨w.activeFds, hasRoom⟩ ptr (newClient fd)) :=
          connected.seat rfl free unused
        have more : (w.seat ⟨w.activeFds, hasRoom⟩ ptr (newClient fd)).activeFds = w.activeFds + 1 := rfl
        rw [seated] at rest
        have receives := receptions_receives connected' (Nat.le_refl 1) (by omega) rest
        exact ⟨receives.connected, receives.of_seat connected polled rfl free fun other =>
          ⟨fun accepts => by simpa [arrived, eq_comm] using accepts.2.2, fun same => ⟨ready, hasRoom, fd, by rw [arrived, same]⟩⟩⟩
      · obtain rfl : w = accepted := by
          unfold connect at accepts
          rw [bind_of_ok (observe_run _ w), dif_neg hasRoom] at accepts
          simpa using accepts
        exact asBefore (fun ptr accepts => hasRoom accepts.2.1) rest

theorem receivingPass_ok (connected : Connected w) (admissible : Admissible w (some arrivals))
    (run : receivingPass arrivals w = .ok (log, w')) : Connected w' ∧ ReceivedOnce w arrivals log w' := by
  obtain ⟨_, polled, polls, afterPoll⟩ := bind_eq_ok.mp run
  obtain ⟨_, timed, times, receives⟩ := bind_eq_ok.mp afterPoll
  obtain ⟨connectedPolled, clients, heap, activeFds, fds, revents⟩ := connected.polls arrivals.ready polls
  obtain ⟨notBlocked, watchList⟩ := runTimers_notBlocked connectedPolled.distinct times
  have undisturbed : Undisturbed 0 polled timed := .of_clientwise notBlocked watchList
  have connectedTimed := connectedPolled.of_undisturbed undisturbed
  have sameClients : timed.clients = w.clients := notBlocked.clients.trans clients
  -- timers move no client, so `revents` is still what `poll` reported
  have isPolled (slot : ClientSlot) (inRange : slot.val < w.activeFds) :
      (timed.watchList slot).revents = arrivals.ready slot := by
    rw [watchList]
    exact revents slot inRange
  have stillAdmissible : Admissible timed (some arrivals) := by
    cases arrived : arrivals.accepted with
    | none => simp [Admissible, arrived]
    | some arrival =>
      simp only [Admissible, arrived] at admissible ⊢
      refine ⟨notBlocked.free _ (heap ▸ admissible.1), fun slot occupied => ?_⟩
      rw [watchList, fds]
      exact admissible.2 slot (sameClients ▸ occupied)
  obtain ⟨connected', received⟩ := receptions_start connectedTimed (fun slot occupied => isPolled slot
    ((connected.inUse slot).mp (sameClients ▸ occupied)).2) (isPolled listening connected.started) stillAdmissible receives
  refine ⟨connected', received.once, ?_, fun slot ptr client inSlot found ready unblocked => ?_, fun ptr => ?_⟩
  · exact sameClients ▸ received.ready
  · obtain ⟨client', found', _, kept⟩ := notBlocked.heap ptr client (heap ▸ found)
    refine received.all slot ptr client' (sameClients ▸ inSlot) found' ready ?_
    cases blocked : client'.isBlocked with
    | false => rfl
    | true => simp [kept blocked] at unblocked
  · have sameAccepts : timed.Accepts arrivals ptr ↔ w.Accepts arrivals ptr := by
      unfold World.Accepts
      rw [notBlocked.activeFds, activeFds]
    rw [received.remain ptr, sameClients, sameAccepts]

/-- A pass keeps the table. -/
theorem Connected.pass {arrivals : Option Arrivals} (connected : Connected w) (admissible : Admissible w arrivals)
    (run : pollPass arrivals w = .ok ((), w')) : Connected w' := by
  cases arrivals with
  | none =>
    obtain ⟨notBlocked, watchList⟩ := runTimers_notBlocked connected.distinct run
    have undisturbed : Undisturbed 0 w w' := .of_clientwise notBlocked watchList
    exact connected.of_undisturbed undisturbed
  | some arrivals =>
    rw [pollPass_eq] at run
    obtain ⟨log, received, receives, ends⟩ := bind_eq_ok.mp run
    obtain rfl : received = w' := by simpa using ends
    exact (receivingPass_ok connected admissible receives).1

end Pass

/-! ## The start -/

/-- No client is connected. -/
structure NoConnections (w : World D) : Prop where
  clients : ∀ slot, w.clients slot = none
  activeFds : w.activeFds = 1
  heap : ∀ ptr, w.heap ptr = none

/-- How the loop is entered: without a connection, or by a replica with the one to its master. -/
inductive EntersLoop [Externals D] : World D → Prop where
  | alone {w : World D} (nobody : NoConnections w) : EntersLoop w
  | joined {w w' : World D} {ptr : ClientPtr} {bytes stale : Bytes} {afterRdb : Nat} (nobody : NoConnections w)
      (joins : (do joinMaster ptr bytes stale afterRdb; resetForLoop : M D Unit) w = .ok ((), w')) :
      EntersLoop w'

section Start

variable {w w' : World D}

theorem NoConnections.connected (nobody : NoConnections w) : Connected w where
  started := by rw [nobody.activeFds]
  bounded := by rw [nobody.activeFds]; decide
  inUse slot := by
    rw [nobody.clients, nobody.activeFds]
    simp only [ne_eq, not_true_eq_false, false_iff]
    omega
  polled slot ptr inSlot := by simp [nobody.clients] at inSlot
  distinct slot slot' ptr inSlot := by simp [nobody.clients] at inSlot
  apart slot slot' inUse := by simp [nobody.clients] at inUse

theorem AtLoopEntry.noConnections {s : Server D} (entry : AtLoopEntry s) : NoConnections s.world :=
  ⟨entry.clients, entry.activeFds, entry.heap⟩

variable [Externals D]

/-- What `do_slave_handshake` does after a request. -/
def World.counted (w : World D) (call : Call) : World D :=
  w.configure fun server => { server with slaveReplOffset := server.slaveReplOffset + call.length }

/-- A request of the handshake is one of the last connection. -/
theorem serveHandshake_ok {call : Call} (run : serveHandshake call w = .ok ((), w')) :
    ∃ slot sender handled, slot.val = w.activeFds - 1 ∧ w.clients slot = some sender ∧
      handle call.request sender w = .ok ((), handled) ∧ w' = handled.counted call := by
  unfold serveHandshake at run
  rw [bind_of_ok (observe_run _ w)] at run
  by_cases inRange : w.activeFds - 1 < maxClients
  · rw [dif_pos inRange, bind_of_ok (observe_run _ w)] at run
    cases inSlot : w.clients ⟨w.activeFds - 1, inRange⟩ with
    | none => simp [inSlot, fault] at run
    | some ptr =>
      simp only [inSlot] at run
      obtain ⟨_, handled, handles, counts⟩ := bind_eq_ok.mp run
      obtain rfl : _ = w' := by simpa [setConfig_run] using counts
      exact ⟨_, ptr, handled, rfl, inSlot, handles, rfl⟩
  · simp [dif_neg inRange, fault] at run

omit [Externals D] in
/-- The master takes the next slot. -/
theorem addMasterToWatchlist_ok {ptr : ClientPtr} (run : addMasterToWatchlist ptr w = .ok ((), w')) :
    ∃ slot : ClientSlot, slot.val = w.activeFds ∧
      w' = w.seat slot ptr { newClient w.serverConfig.masterFd with isMaster := true } := by
  unfold addMasterToWatchlist at run
  rw [bind_of_ok (observe_run _ w), bind_of_ok (show config w = .ok (w.serverConfig, w) from rfl)] at run
  by_cases inRange : w.activeFds < maxClients
  · simp only [dif_pos inRange, alter_run, Except.ok.injEq, Prod.mk.injEq, true_and] at run
    exact ⟨⟨w.activeFds, inRange⟩, rfl, run.symm⟩
  · simp [dif_neg inRange, fault] at run

/-- What holds with the master in its slot and after each request of the handshake holds after the handshake. -/
theorem joinMaster_invariant {P : World D → Prop} {ptr : ClientPtr} {bytes stale : Bytes} {afterRdb : Nat}
    (seated : ∀ slot : ClientSlot, slot.val = w.activeFds →
      P (w.seat slot ptr { newClient w.serverConfig.masterFd with isMaster := true }))
    (serves : ∀ w w' slot sender call, P w → w.clients slot = some sender →
      handle call.request sender w = .ok ((), w') → P (w'.counted call))
    (run : joinMaster ptr bytes stale afterRdb w = .ok ((), w')) : P w' := by
  have serving {calls : List Call} {w w' : World D} (before : P w)
      (run : forM calls serveHandshake w = .ok ((), w')) : P w' := by
    induction calls generalizing w with
    | nil =>
      obtain rfl : w = w' := by simpa using run
      exact before
    | cons call calls inductionHypothesis =>
      rw [List.forM_cons] at run
      obtain ⟨_, after, first, rest⟩ := bind_eq_ok.mp run
      obtain ⟨slot, sender, handled, _, inSlot, handles, rfl⟩ := serveHandshake_ok first
      exact inductionHypothesis (serves w handled slot sender call before inSlot handles) rest
  obtain ⟨_, joined, joins, afterJoin⟩ := bind_eq_ok.mp run
  obtain ⟨slot, isNext, rfl⟩ := addMasterToWatchlist_ok joins
  rw [parseLoop_eq_calls] at afterJoin
  obtain ⟨_, served, calls, ends⟩ := bind_eq_ok.mp afterJoin
  have sameEnd : served = w' := by
    cases broken : (handleCallsFrom (bytes ++ 0 :: stale) bytes.length bytes.length afterRdb).2 with
    | none => simpa [broken] using ends
    | some f => simp [broken] at ends
  exact sameEnd ▸ serving (seated slot isNext) calls

theorem NoConnections.joined (nobody : NoConnections w) {ptr : ClientPtr} {bytes stale : Bytes} {afterRdb : Nat}
    (run : joinMaster ptr bytes stale afterRdb w = .ok ((), w')) : Connected w' := by
  apply joinMaster_invariant ?_ ?_ run
  · intro slot isNext
    exact nobody.connected.seat isNext (nobody.heap ptr) fun slot' occupied => absurd (nobody.clients slot') occupied
  · intro w handled slot sender call connected inSlot handles
    have handling := handle_undisturbed (connected.onlyFd inSlot) handles
    have counting : Undisturbed sender handled (handled.counted call) := .of_still (.of_same rfl rfl rfl rfl) rfl
    exact connected.of_undisturbed (handling.trans counting)

theorem EntersLoop.connected (enters : EntersLoop w) : Connected w := by
  cases enters with
  | alone nobody => exact nobody.connected
  | joined nobody joins =>
    obtain ⟨_, joined, joining, resets⟩ := bind_eq_ok.mp joins
    have connected := nobody.joined joining
    obtain rfl : _ = w := by simpa [resetForLoop] using resets
    exact ⟨connected.started, connected.bounded, connected.inUse, connected.polled, connected.distinct,
      connected.apart⟩

/-- A run of passes keeps the table, and in every pass each client that is not blocked and has something to
read is received from once. -/
theorem connections_hold (enters : EntersLoop w)
    (passes : Run (fun w arrivals w' => pollPass arrivals w = .ok ((), w')) Admissible w w') :
    Connected w' ∧ ∀ arrivals w'', Admissible w' (some arrivals) → pollPass (some arrivals) w' = .ok ((), w'') →
      ∃ log, receivingPass arrivals w' = .ok (log, w'') ∧ ReceivedOnce w' arrivals log w'' := by
  have connected : Connected w' :=
    passes.invariant (fun _ _ _ before admissible run => before.pass admissible run) enters.connected
  refine ⟨connected, fun arrivals w'' admissible run => ?_⟩
  rw [pollPass_eq] at run
  obtain ⟨log, received, receives, ends⟩ := bind_eq_ok.mp run
  obtain rfl : received = w'' := by simpa using ends
  exact ⟨log, receives, (receivingPass_ok connected admissible receives).2⟩

/-- The state after a pass, where it can come and ends normally. -/
def nextPass (w : World D) (arrivals : Option Arrivals) : Option (World D) :=
  match pollPass arrivals w with
  | .ok ((), w') => some w'
  | .error _ => none

theorem nextPass_sound (w : World D) (arrivals : Option Arrivals) (w' : World D)
    (isNext : nextPass w arrivals = some w') : pollPass arrivals w = .ok ((), w') := by
  unfold nextPass at isNext
  split at isNext
  · rename_i run
    rw [run, Option.some.inj isNext]
  · simp at isNext

/-- A pass in which only the listening descriptor is ready. -/
def acceptsOne (fd : Int) (ptr : ClientPtr) : Option Arrivals :=
  some ⟨fun slot => slot = listening, some (fd, ptr), fun _ => .closed⟩

/-- A pass in which every descriptor is ready and the first connection ends. -/
def firstLeaves : Arrivals where
  ready _ := true
  accepted := none
  received rounds := if rounds = 198 then .closed else .data (encode [lit "PING"]) []

/-- In this pass the first connection ends, and the third one comes into its slot and is received from there,
before the second one. -/
def movesThird (w : World Int) : Bool :=
  match receivingPass firstLeaves w with
  | .ok (log, w') =>
    log = [⟨1, true⟩, ⟨3, false⟩, ⟨2, false⟩] ∧ w'.activeFds = 3 ∧ w'.clients firstSlot = some 3
  | .error _ => false

/-- Three clients connect, and the first one leaves. -/
theorem connections_hold_three : ∃ w w' : World Int,
    Connected w ∧ w.activeFds = 4 ∧ w'.activeFds = 3 ∧ w'.clients firstSlot = some 3 ∧
      ReceivedOnce w firstLeaves [⟨1, true⟩, ⟨3, false⟩, ⟨2, false⟩] w' := by
  have plays : ((Run.follow nextPass Admissible (blankWorld Int)
      [acceptsOne 5 1, acceptsOne 6 2, acceptsOne 7 3]).any fun w =>
        w.activeFds = 4 ∧ Admissible w (some firstLeaves) ∧ movesThird w = true) = true := by
    decide +kernel
  obtain ⟨w, follows, checked⟩ := (Option.any_eq_true _ _).mp plays
  obtain ⟨four, admissible, moves⟩ := of_decide_eq_true checked
  have passes := Run.of_follow nextPass_sound follows
  obtain ⟨connected, received⟩ := connections_hold (.alone idleServer_atLoopEntry.noConnections) passes
  unfold movesThird at moves
  split at moves
  · rename_i log w' run
    obtain ⟨rfl, three, inFirst⟩ := of_decide_eq_true moves
    have pass : pollPass (some firstLeaves) w = .ok ((), w') := by
      rw [pollPass_eq, bind_of_ok run]
      rfl
    obtain ⟨log, run', once⟩ := received firstLeaves w' admissible pass
    obtain ⟨rfl, _⟩ := Prod.mk.inj (Except.ok.inj (run.symm.trans run'))
    exact ⟨w, w', connected, four, three, inFirst, once⟩
  · simp at moves

end Start

end RedisClone
