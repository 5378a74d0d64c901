import RedisClone.Verified.Transactions

/-! # What fits into the queues and the watch tables

The queue of MULTI, the watched keys of a client and the lists in `watchers` are arrays that nothing checks before it
appends to them.  `History` counts what has to fit: the commands of a client since its MULTI, the keys that it watched
since it was last released, and for each bucket all keys that were ever watched, since a list in `watchers` never gets
shorter.  `queue_within_capacity` and `watches_within_capacity`: the arrays hold what was counted, and an append stays
inside its array exactly where the count says so.
-/

namespace RedisClone

open Exec CString

variable {D : Type}

/-- What was sent that has to fit. -/
structure History where
  queued : ClientPtr → Nat
  watched : ClientPtr → Nat
  registered : Bucket → Nat

/-- The keys that belong to a bucket. -/
def keysIn (bucket : Bucket) (keys : List Bytes) : Nat := keys.countP fun key => bucketOf key = some bucket

/-- The history after a request of a client. -/
def History.after (history : History) (ptr : ClientPtr) (client : Client) (req : RespRequest) : History :=
  if client.isQueued && !isTransactionCmd req.command then
    { history with queued := Function.update history.queued ptr (history.queued ptr + 1) }
  else
    match req.command with
    | .multi =>
      if client.isQueued then history else { history with queued := Function.update history.queued ptr 0 }
    | .watch =>
      if client.isQueued then history
      else
        { history with
          watched := Function.update history.watched ptr (history.watched ptr + req.args.length)
          registered := fun bucket => history.registered bucket + keysIn bucket req.args }
    | .unwatch | .exec | .discard =>
      if endsScope client req then { history with watched := Function.update history.watched ptr 0 } else history
    | _ => history

/-- The history after an event. -/
def historyAfter (s : Server D) (event : Event) (history : History) : History :=
  match event with
  | .connect _ ptr => { history with watched := Function.update history.watched ptr 0 }
  | .request slot call =>
    match s.world.clients slot with
    | none => history
    | some ptr =>
      match s.world.heap ptr with
      | none => history
      | some client => history.after ptr client call.request
  | _ => history

/-- A step of the server beside the history. -/
def Records [Externals D] (before : Server D × History) (event : Event) (after : Server D × History) : Prop :=
  Step before.1 event after.1 ∧ after.2 = historyAfter before.1 event before.2

/-- The arrays hold what was counted, and no more than they have room for. -/
structure Counted (w : World D) (history : History) : Prop where
  queue : ∀ ptr client, w.heap ptr = some client → client.requests.length ≤ maxQueuedCmds
  queued : ∀ ptr client, w.heap ptr = some client → client.isQueued = true →
    client.requests.length = history.queued ptr
  watchKeys : ∀ ptr client, w.heap ptr = some client →
    client.watchKeys.length = history.watched ptr ∧ client.watchKeys.length ≤ maxWatchKeys
  watching : ∀ bucket, (w.watching bucket).length = history.registered bucket ∧
    (w.watching bucket).length ≤ maxClients

/-- The watched keys find room. -/
def History.HasRoom (history : History) (ptr : ClientPtr) (keys : List Bytes) : Prop :=
  history.watched ptr + keys.length ≤ maxWatchKeys ∧
    ∀ bucket, history.registered bucket + keysIn bucket keys ≤ maxClients

section Capacities

variable {w w' t : World D} {history : History} {req : RespRequest} {ptr : ClientPtr} {client client' : Client}
  {keys : List Bytes}

/-! ## WATCH -/

theorem registers_room (found : w.heap ptr = some client) (fits : client.watchKeys.length ≤ maxWatchKeys)
    (listsFit : ∀ bucket, (w.watching bucket).length ≤ maxClients)
    (run : forM keys (watchKey ptr) w = .ok ((), t)) :
    client.watchKeys.length + keys.length ≤ maxWatchKeys ∧
      ∀ bucket, (w.watching bucket).length + keysIn bucket keys ≤ maxClients := by
  induction keys generalizing w client with
  | nil => exact ⟨by simpa using fits, fun bucket => by simpa [keysIn] using listsFit bucket⟩
  | cons key keys inductionHypothesis =>
    rw [List.forM_cons] at run
    obtain ⟨_, registered, first, rest⟩ := bind_eq_ok.mp run
    -- the first key found room
    have room : client.watchKeys.length < maxWatchKeys ∧
        ∀ bucket, bucketOf key = some bucket → (w.watching bucket).length < maxClients := by
      unfold watchKey register at first
      rw [bind_of_ok (loadClient_found found)] at first
      split at first
      · simp [fault] at first
      rename_i notFull
      rw [bind_of_ok (updateClient_found found)] at first
      obtain ⟨bucket, _, index, afterIndex⟩ := bind_eq_ok.mp first
      obtain ⟨inBucket, rfl⟩ := tableIndex_eq_ok.mp index
      rw [bind_of_ok (observe_run _ _)] at afterIndex
      split at afterIndex
      · simp [fault] at afterIndex
      rename_i listNotFull
      refine ⟨by omega, fun other isOther => ?_⟩
      obtain rfl : bucket = other := Option.some.inj (inBucket.symm.trans isOther)
      exact Nat.lt_of_not_le listNotFull
    obtain ⟨client', bucket, found', inBucket, rfl⟩ := watchKey_run first
    obtain rfl : client' = client := Option.some.inj (found'.symm.trans found)
    have watching (other : Bucket) : ((w.register ptr client' key bucket).watching other).length =
        (w.watching other).length + if bucketOf key = some other then 1 else 0 := by
      by_cases here : other = bucket
      · rw [here, watching_register_self, if_pos inBucket]
        simp
      · have elsewhere : bucketOf key ≠ some other := fun same =>
          here (Option.some.inj (same.symm.trans inBucket))
        rw [watching_register_of_ne w ptr client' key here, if_neg elsewhere, Nat.add_zero]
    obtain ⟨keysFit, bucketsFit⟩ := inductionHypothesis (Function.update_self ptr _ w.heap)
      (by simpa using Nat.succ_le_of_lt room.1)
      (fun other => by
        rw [watching]
        split
        · have := room.2 other ‹_›
          omega
        · exact listsFit other) rest
    refine ⟨?_, fun other => ?_⟩
    · simp only [List.length_append, List.length_cons, List.length_nil] at keysFit ⊢
      omega
    · have fitsAfter := bucketsFit other
      rw [watching] at fitsAfter
      simp only [keysIn, List.countP_cons, decide_eq_true_eq] at fitsAfter ⊢
      omega

/-- Keys that find room and have a bucket are watched. -/
theorem watchKeys_total (found : w.heap ptr = some client) (indexed : ∀ key ∈ keys, bucketOf key ≠ none)
    (keysFit : client.watchKeys.length + keys.length ≤ maxWatchKeys)
    (listsFit : ∀ bucket, (w.watching bucket).length + keysIn bucket keys ≤ maxClients) :
    ∃ t, forM keys (watchKey ptr) w = .ok ((), t) := by
  induction keys generalizing w client with
  | nil => exact ⟨w, rfl⟩
  | cons key keys inductionHypothesis =>
    obtain ⟨bucket, inBucket⟩ := Option.ne_none_iff_exists'.mp (indexed key List.mem_cons_self)
    have first : watchKey ptr key w = .ok ((), w.register ptr client key bucket) := by
      have hasRoom : ¬ maxWatchKeys ≤ client.watchKeys.length := by
        simp only [List.length_cons] at keysFit
        omega
      have listHasRoom : ¬ maxClients ≤ ((w.watchers bucket).getD []).length := by
        have fits := listsFit bucket
        simp only [keysIn, List.countP_cons, inBucket, decide_true, if_true, World.watching] at fits
        omega
      unfold watchKey register
      rw [bind_of_ok (loadClient_found found), if_neg hasRoom, bind_of_ok (updateClient_found found),
        bind_of_ok (tableIndex_of_bucket inBucket _), bind_of_ok (observe_run _ _)]
      rw [if_neg (show ¬ maxClients ≤ (((w.setClient ptr _).watchers bucket).getD []).length from listHasRoom)]
      rfl
    rw [List.forM_cons, bind_of_ok first]
    refine inductionHypothesis (Function.update_self ptr _ w.heap)
      (fun other member => indexed other (List.mem_cons_of_mem key member)) ?_ fun other => ?_
    · simp only [List.length_append, List.length_cons, List.length_nil] at keysFit ⊢
      omega
    · have fits := listsFit other
      simp only [keysIn, List.countP_cons, decide_eq_true_eq] at fits ⊢
      by_cases here : other = bucket
      · subst here
        rw [watching_register_self, List.length_append, List.length_singleton]
        rw [if_pos inBucket] at fits
        omega
      · rw [watching_register_of_ne w ptr client key here]
        omega

/-! ## Steps -/

theorem length_watching_clearAll (w : World D) (ptr : ClientPtr) (keys : List Bytes) (bucket : Bucket) :
    ((w.clearAll ptr keys).watching bucket).length = (w.watching bucket).length := by
  induction keys generalizing w with
  | nil => rfl
  | cons key keys inductionHypothesis =>
    refine (inductionHypothesis (w.clear ptr key)).trans ?_
    rw [watching_clear]
    split
    · simp [clearSlots]
    · rfl

/-- Nothing that is counted has changed. -/
theorem Counted.of_sessions (counted : Counted w history)
    (sessions : ∀ ptr client', t.heap ptr = some client' → ∃ client, w.heap ptr = some client ∧
      client'.isQueued = client.isQueued ∧ client'.requests = client.requests ∧ client'.watchKeys = client.watchKeys)
    (watching : t.watching = w.watching) : Counted t history where
  queue ptr client' found' := by
    obtain ⟨client, found, _, requests, _⟩ := sessions ptr client' found'
    rw [requests]
    exact counted.queue ptr client found
  queued ptr client' found' inMulti := by
    obtain ⟨client, found, isQueued, requests, _⟩ := sessions ptr client' found'
    rw [requests]
    exact counted.queued ptr client found (isQueued ▸ inMulti)
  watchKeys ptr client' found' := by
    obtain ⟨client, found, _, _, watchKeys⟩ := sessions ptr client' found'
    rw [watchKeys]
    exact counted.watchKeys ptr client found
  watching bucket := by
    rw [watching]
    exact counted.watching bucket

theorem Counted.of_kept {may : May} (counted : Counted w history) (kept : Kept may w t) : Counted t history := by
  refine counted.of_sessions (fun ptr client' found' => ?_) ?_
  · cases found : w.heap ptr with
    | none => simp [kept.free ptr found] at found'
    | some client =>
      obtain ⟨other, foundOther, session⟩ := kept.heap ptr client found
      obtain rfl : other = client' := Option.some.inj (foundOther.symm.trans found')
      exact ⟨client, rfl, session.isQueued, session.requests, session.watchKeys⟩
  · funext bucket
    rw [World.watching, kept.watchers]
    rfl

/-- One client and its counts have changed. -/
theorem Counted.of_update {history' : History} (counted : Counted w history)
    (heap : t.heap = Function.update w.heap ptr (some client'))
    (others : ∀ other, other ≠ ptr → history'.queued other = history.queued other ∧
      history'.watched other = history.watched other)
    (queue : client'.requests.length ≤ maxQueuedCmds)
    (queued : client'.isQueued = true → client'.requests.length = history'.queued ptr)
    (watchKeys : client'.watchKeys.length = history'.watched ptr ∧ client'.watchKeys.length ≤ maxWatchKeys)
    (watching : ∀ bucket, (t.watching bucket).length = history'.registered bucket ∧
      (t.watching bucket).length ≤ maxClients) : Counted t history' := by
  have either {other : ClientPtr} {client : Client} (found : t.heap other = some client) :
      other = ptr ∧ client = client' ∨ other ≠ ptr ∧ w.heap other = some client := by
    rw [heap] at found
    by_cases same : other = ptr
    · rw [same, Function.update_self, Option.some.injEq] at found
      exact .inl ⟨same, found.symm⟩
    · rw [Function.update_of_ne same] at found
      exact .inr ⟨same, found⟩
  refine ⟨fun other client found => ?_, fun other client found inMulti => ?_, fun other client found => ?_, watching⟩
  · obtain ⟨rfl, rfl⟩ | ⟨_, found⟩ := either found
    · exact queue
    · exact counted.queue other client found
  · obtain ⟨rfl, rfl⟩ | ⟨isOther, found⟩ := either found
    · exact queued inMulti
    · rw [(others other isOther).1]
      exact counted.queued other client found inMulti
  · obtain ⟨rfl, rfl⟩ | ⟨isOther, found⟩ := either found
    · exact watchKeys
    · rw [(others other isOther).2]
      exact counted.watchKeys other client found

/-- A client was released from its keys, and the lists keep their lengths. -/
theorem Counted.of_release (counted : Counted w history)
    (heap : t.heap = Function.update w.heap ptr (some client'))
    (queue : client'.requests.length ≤ maxQueuedCmds)
    (queued : client'.isQueued = true → client'.requests.length = history.queued ptr)
    (empty : client'.watchKeys = []) (watching : ∀ bucket, (t.watching bucket).length = (w.watching bucket).length) :
    Counted t { history with watched := Function.update history.watched ptr 0 } := by
  refine counted.of_update heap (fun other isOther => ⟨rfl, Function.update_of_ne isOther _ _⟩) queue queued
    ⟨by simp [empty], by simp [empty]⟩ fun bucket => ?_
  rw [watching bucket]
  exact counted.watching bucket

variable [Externals D]

omit [Externals D] in
/-- What a request outside MULTI counts that is no transaction command. -/
theorem after_ordinary (outside : client.isQueued = false) (ordinary : isTransactionCmd req.command = false) :
    history.after ptr client req = history := by
  unfold History.after
  rw [if_neg (by simp [outside])]
  revert ordinary
  cases req.command <;> simp [isTransactionCmd]

omit [Externals D] in
theorem after_refused (reason : Refuses client req) : history.after ptr client req = history := by
  unfold Refuses at reason
  unfold History.after endsScope
  split at reason
  all_goals simp_all [isTransactionCmd]

/-- One call of `handle` and what it counts. -/
theorem counted_handled (counted : Counted w history) (found : w.heap ptr = some client)
    (handles : Handled w req ptr client t) : Counted t (history.after ptr client req) := by
  have queueFits := counted.queue ptr client found
  have queued := counted.queued ptr client found
  obtain ⟨sameKeys, keysFit⟩ := counted.watchKeys ptr client found
  cases handles with
  | queued ordinary inMulti room =>
    have counts : history.after ptr client req =
        { history with queued := Function.update history.queued ptr (history.queued ptr + 1) } := by
      simp [History.after, inMulti, ordinary]
    rw [counts]
    refine counted.of_update rfl (fun other isOther => ⟨Function.update_of_ne isOther _ _, rfl⟩) ?_ (fun _ => ?_)
      ⟨sameKeys, keysFit⟩ counted.watching
    · simpa using Nat.succ_le_of_lt room
    · simp [queued inMulti]
  | opened isMulti outside =>
    have counts : history.after ptr client req =
        { history with queued := Function.update history.queued ptr 0 } := by
      simp [History.after, isMulti, outside]
    rw [counts]
    refine counted.of_update rfl (fun other isOther => ⟨Function.update_of_ne isOther _ _, rfl⟩) (by simp)
      (fun _ => by simp) ⟨sameKeys, keysFit⟩ counted.watching
  | refused text reason =>
    rw [after_refused reason]
    exact counted.of_sessions (fun _ client found => ⟨client, found, rfl, rfl, rfl⟩) rfl
  | ignored isWatch noKey =>
    have noArgs : req.args = [] := by
      have supplied := req.supplied
      exact List.eq_nil_of_length_eq_zero (by omega)
    have same : history.after ptr client req = history := by
      simp [History.after, isWatch, isTransactionCmd, noArgs, keysIn]
    rw [same]
    exact counted
  | watched isWatch outside run =>
    have registers := forM_watchKey_run found run
    -- the loop of WATCH came to its end, so there was room in both arrays
    obtain ⟨hasRoom, listsHaveRoom⟩ :=
      registers_room found keysFit (fun bucket => (counted.watching bucket).2) run
    have counts : history.after ptr client req =
        { history with
          watched := Function.update history.watched ptr (history.watched ptr + req.args.length)
          registered := fun bucket => history.registered bucket + keysIn bucket req.args } := by
      simp [History.after, isWatch, isTransactionCmd, outside]
    rw [counts]
    refine counted.of_update registers.heap (fun other isOther => ⟨rfl, Function.update_of_ne isOther _ _⟩) queueFits
      queued ⟨by simp [sameKeys], by simpa using hasRoom⟩ fun bucket => ?_
    obtain ⟨sameList, listFits⟩ := counted.watching bucket
    have lengthens : ((World.emit _ client.fd okReply).watching bucket).length =
        (w.watching bucket).length + keysIn bucket req.args :=
      (congrArg List.length (registers.watching bucket)).trans (by simp [keysIn])
    exact ⟨by rw [lengthens, sameList], by rw [lengthens]; exact listsHaveRoom bucket⟩
  | unwatched fd isUnwatch run =>
    obtain ⟨other, found', rfl⟩ := deleteWatchedKeys_run run
    obtain rfl : client = other := Option.some.inj (found.symm.trans found')
    have counts : history.after ptr client req =
        { history with watched := Function.update history.watched ptr 0 } := by
      simp [History.after, isUnwatch, isTransactionCmd, endsScope]
    rw [counts]
    have heap : (w.release ptr client).heap = Function.update w.heap ptr (some client.unwatched) := by
      change Function.update (w.clearAll ptr client.watchKeys).heap ptr _ = _
      rw [heap_clearAll]
    -- a release sets slots to NULL and shortens no list
    exact counted.of_release heap queueFits queued rfl fun bucket => length_watching_clearAll w ptr _ bucket
  | left reply inMulti isEnd run =>
    obtain ⟨other, found', rfl⟩ := deleteWatchedKeys_run run
    obtain rfl : client.leaveMulti = other := Option.some.inj ((Function.update_self ptr _ _).symm.trans found')
    have counts : history.after ptr client req =
        { history with watched := Function.update history.watched ptr 0 } := by
      obtain isDiscard | ⟨isExec, dirty⟩ := isEnd
      · simp [History.after, isDiscard, isTransactionCmd, endsScope, inMulti]
      · simp [History.after, isExec, isTransactionCmd, endsScope, inMulti, dirty]
    rw [counts]
    have heap : ((w.setClient ptr client.leaveMulti).release ptr client.leaveMulti).heap =
        Function.update w.heap ptr (some client.leaveMulti.unwatched) := by
      change Function.update ((w.setClient ptr client.leaveMulti).clearAll ptr client.watchKeys).heap ptr _ = _
      rw [heap_clearAll]
      exact Function.update_idem _ _ _
    have outside : client.leaveMulti.unwatched.isQueued = false := rfl
    exact counted.of_release heap (Nat.zero_le _) (fun stillIn => by simp [outside] at stillIn) rfl
      fun bucket => length_watching_clearAll _ ptr _ bucket
  | dispatched reaches run =>
    -- an arm touches neither the queue nor a watch list
    obtain ⟨ordinary, outside, _⟩ := reachesArm_eq_true.mp reaches
    rw [after_ordinary outside ordinary]
    exact counted.of_kept (kept_dispatch run)

omit [Externals D] in
theorem counted_propagate {call : Call} (counted : Counted w history) (run : propagate ptr call w = .ok ((), t)) :
    Counted t history := by
  obtain ⟨_, _, same⟩ := propagate_same run
  rw [same]
  exact counted.of_sessions (fun _ client found => ⟨client, found, rfl, rfl, rfl⟩) rfl

variable {s u : Server D} {event : Event}

theorem counted_step (wellFormed : WellFormed s) (counted : Counted s.world history) (step : Step s event u) :
    Counted u.world (historyAfter s event history) := by
  cases step_cases wellFormed.outside step with
  | quiet idle noRequest kept =>
    have unchanged := counted.of_kept kept
    cases event with
    | connect fd ptr =>
      -- nobody has this address
      have free : s.world.heap ptr = none := step.1.2.2
      rename_i w'
      have noClient (other : ClientPtr) (client : Client) (found : w'.heap other = some client) : other ≠ ptr := by
        rintro rfl
        exact absurd ((kept.free other free).symm.trans found) (by simp)
      refine ⟨unchanged.queue, unchanged.queued, fun other client found => ?_, unchanged.watching⟩
      have sameCount : (historyAfter s (.connect fd ptr) history).watched other = history.watched other :=
        Function.update_of_ne (noClient other client found) _ _
      rw [sameCount]
      exact unchanged.watchKeys other client found
    | request slot call => exact absurd rfl (noRequest slot call)
    | _ => exact unchanged
  | connected slot idle isNext valid free =>
    rename_i fd ptr
    exact counted.of_update rfl (fun other isOther => ⟨rfl, Function.update_of_ne isOther _ _⟩) (Nat.zero_le _)
      (fun inMulti => by simp [newClient] at inMulti) ⟨by simp [historyAfter, newClient], Nat.zero_le _⟩
      counted.watching
  | disconnected last ptr idle isLast occupied =>
    exact counted.of_sessions (fun _ client found => ⟨client, (heap_drop found).2, rfl, rfl, rfl⟩) rfl
  | started ptr client idle occupied found starts =>
    rename_i slot call
    obtain ⟨isExec, inMulti, clean⟩ := startsTransaction_eq_true.mp starts
    have same : historyAfter s (.request slot call) history = history := by
      simp [historyAfter, occupied, found, History.after, isExec, isTransactionCmd, endsScope, clean]
    rw [same]
    refine counted.of_update rfl (fun _ _ => ⟨rfl, rfl⟩) (Nat.zero_le _) (fun stillIn => ?_)
      (counted.watchKeys ptr client found) counted.watching
    simp [Client.takeQueue] at stillIn
  | served ptr client idle occupied found starts handles propagates =>
    rename_i slot call handled w'
    have counts : historyAfter s (.request slot call) history = history.after ptr client call.request := by
      simp [historyAfter, occupied, found]
    rw [counts]
    exact counted_propagate (counted_handled counted found handles) propagates
  | ran ptr req remaining call client after running found handles foundAfter =>
    have outside : client.isQueued = false := wellFormed.outside _ client running found
    have ordinary : isTransactionCmd req.command = false := wellFormed.remaining _ running req List.mem_cons_self
    have handledCounted := counted_handled counted found handles
    rw [after_ordinary outside ordinary] at handledCounted
    refine handledCounted.of_update rfl (fun _ _ => ⟨rfl, rfl⟩) (handledCounted.queue ptr after foundAfter)
      (fun inMulti => by simp at inMulti) (handledCounted.watchKeys ptr after foundAfter) handledCounted.watching
  | ended ptr call running propagates => exact counted_propagate counted propagates

/-! ## Runs -/

/-- The invariant of the runs. -/
structure Recorded (state : Server D × History) : Prop where
  wellFormed : WellFormed state.1
  counted : Counted state.1.world state.2

theorem recorded_step {before after : Server D × History} (recorded : Recorded before)
    (records : Records before event after) : Recorded after where
  wellFormed := wellFormed_step recorded.wellFormed records.1
  counted := records.2 ▸ counted_step recorded.wellFormed recorded.counted records.1

/-- The history of a server that was just started. -/
def History.empty : History := ⟨fun _ => 0, fun _ => 0, fun _ => 0⟩

theorem recorded_run (entry : AtLoopEntry s) (run : Run Records (fun _ _ => True) (s, History.empty) (u, history)) :
    Counted u.world history := by
  have atStart : Counted s.world History.empty := by
    refine ⟨fun ptr client found => ?_, fun ptr client found => ?_, fun ptr client found => ?_, fun bucket => ?_⟩
    · simp [entry.heap] at found
    · simp [entry.heap] at found
    · simp [entry.heap] at found
    · simp [World.watching, entry.watchers, History.empty]
  have recorded : Recorded (u, history) :=
    run.invariant (fun _ _ _ recorded _ records => recorded_step recorded records) ⟨entry.wellFormed, atStart⟩
  exact recorded.counted

/-- No queue ever holds more than it has room for, and the next command of MULTI is written inside the array exactly
where fewer than `MAX_QUEUED_CMDS` commands were sent since MULTI. -/
theorem queue_within_capacity (entry : AtLoopEntry s)
    (run : Run Records (fun _ _ => True) (s, History.empty) (u, history)) :
    (∀ ptr client, u.world.heap ptr = some client → client.requests.length ≤ maxQueuedCmds) ∧
    ∀ ptr client req, u.world.heap ptr = some client → client.isQueued = true →
      isTransactionCmd req.command = false →
      handle req ptr u.world =
        if history.queued ptr < maxQueuedCmds then
          .ok ((), (u.world.setClient ptr { client with requests := client.requests ++ [copyRequest req] }).emit
            client.fd (lit "+QUEUED\r\n"))
        else .error .outOfBounds := by
  have counted := recorded_run entry run
  refine ⟨counted.queue, fun ptr client req found inMulti ordinary => ?_⟩
  have isCount := counted.queued ptr client found inMulti
  rw [handle_queued found inMulti ordinary, queueCommand, bind_of_ok (loadClient_found found), isCount]
  by_cases room : history.queued ptr < maxQueuedCmds
  · rw [if_pos room, if_neg (by omega), bind_of_ok (updateClient_found found)]
    rfl
  · rw [if_neg room, if_pos (by omega)]
    rfl

/-- No client watches more keys than it has room for and no list in `watchers` is longer than its array, and WATCH
appends inside both exactly where the keys counted so far leave room for its keys. -/
theorem watches_within_capacity (entry : AtLoopEntry s)
    (run : Run Records (fun _ _ => True) (s, History.empty) (u, history)) :
    (∀ ptr client, u.world.heap ptr = some client → client.watchKeys.length ≤ maxWatchKeys) ∧
    (∀ bucket, (u.world.watching bucket).length ≤ maxClients) ∧
    ∀ ptr client req, u.world.heap ptr = some client → client.isQueued = false → req.command = .watch →
      ((∃ t, handle req ptr u.world = .ok ((), t)) ↔
        history.HasRoom ptr req.args ∧ ∀ key ∈ req.args, bucketOf key ≠ none) := by
  have counted := recorded_run entry run
  have listsFit (bucket : Bucket) := (counted.watching bucket).2
  refine ⟨fun ptr client found => (counted.watchKeys ptr client found).2, listsFit,
    fun ptr client req found outside isWatch => ?_⟩
  obtain ⟨sameKeys, keysFit⟩ := counted.watchKeys ptr client found
  have room : history.HasRoom ptr req.args ↔ client.watchKeys.length + req.args.length ≤ maxWatchKeys ∧
      ∀ bucket, (u.world.watching bucket).length + keysIn bucket req.args ≤ maxClients := by
    unfold History.HasRoom
    rw [sameKeys]
    exact and_congr_right fun _ => forall_congr' fun bucket => by rw [(counted.watching bucket).1]
  rw [room, handle_watch found isWatch, handleWatch]
  by_cases few : req.argc < 1
  · -- without a key there is nothing to append
    have noArgs : req.args = [] := by
      have supplied := req.supplied
      exact List.eq_nil_of_length_eq_zero (by omega)
    rw [if_pos few]
    refine ⟨fun _ => ⟨⟨?_, fun bucket => ?_⟩, ?_⟩, fun _ => ⟨_, rfl⟩⟩
    · simpa [noArgs] using keysFit
    · simpa [noArgs, keysIn] using listsFit bucket
    · simp [noArgs]
  · rw [if_neg few, bind_of_ok (loadClient_found found), if_neg (by simp [outside])]
    constructor
    · rintro ⟨t, handled⟩
      obtain ⟨_, registered, registers, _⟩ := bind_eq_ok.mp handled
      exact ⟨registers_room found keysFit listsFit registers, (forM_watchKey_run found registers).indexed⟩
    · rintro ⟨⟨hasRoom, listsHaveRoom⟩, indexed⟩
      obtain ⟨t, registers⟩ := watchKeys_total found indexed hasRoom listsHaveRoom
      exact ⟨_, by rw [bind_of_ok registers]; rfl⟩

end Capacities

/-- A run with the history beside it, by computation. -/
def playRecorded (events : List Event) : Option (Server Int × History) :=
  Run.follow (fun (state : Server Int × History) event =>
    (next state.1 event).map fun t => (t, historyAfter state.1 event state.2)) (fun _ _ => True)
    (idleServer, History.empty) events

theorem playRecorded_run {events : List Event} {t : Server Int} {history : History}
    (plays : playRecorded events = some (t, history)) :
    Run Records (fun _ _ => True) (idleServer, History.empty) (t, history) := by
  refine Run.of_follow (fun before event after isNext => ?_) plays
  obtain ⟨u, isNext', rfl⟩ := Option.map_eq_some_iff.mp isNext
  exact ⟨next_step isNext', rfl⟩

def ping : RespRequest := requestOf [lit "PING"]

/-- The second command of a MULTI is queued. -/
theorem queue_within_capacity_ping : ∃ (t : World Int) (client : Client), t.heap 0 = some client ∧
    client.requests.length = 1 ∧ handle ping 0 t =
      .ok ((), (t.setClient 0 { client with requests := client.requests ++ [copyRequest ping] }).emit client.fd
        (lit "+QUEUED\r\n")) := by
  have played : (playRecorded [.connect 5 0, arrival firstSlot [lit "MULTI"], arrival firstSlot [lit "PING"]]).any
      (fun (t, history) => (t.world.heap 0).any (fun client => client.isQueued && decide (client.requests.length = 1)) &&
        decide (history.queued 0 = 1)) = true := by decide +kernel
  obtain ⟨⟨t, history⟩, plays, checked⟩ := (Option.any_eq_true _ _).mp played
  simp only [Bool.and_eq_true, decide_eq_true_eq, Option.any_eq_true] at checked
  obtain ⟨⟨client, found, inMulti, isOne⟩, count⟩ := checked
  have handled := (queue_within_capacity idleServer_atLoopEntry (playRecorded_run plays)).2 0 client ping found inMulti
    (by decide +kernel)
  rw [if_pos (by rw [count]; decide)] at handled
  exact ⟨t.world, client, found, isOne, handled⟩

/-- The 101st command of a MULTI is written behind the array. -/
theorem queue_overruns :
    ¬ ∀ (t : Server Int) (ptr : ClientPtr) (client : Client) (req : RespRequest), Runs idleServer t →
      t.world.heap ptr = some client → client.isQueued = true → isTransactionCmd req.command = false →
        ∃ u, handle req ptr t.world = .ok ((), u) := by
  intro fits
  obtain ⟨t, run, checked⟩ := exists_run_of_play
    (show (play (fun _ _ => True) idleServer ([.connect 5 0, arrival firstSlot [lit "MULTI"]] ++
        List.replicate 100 (arrival firstSlot [lit "PING"]))).any
      (fun t => (t.world.heap 0).any fun client => client.isQueued && decide (client.requests.length = 100)) = true by
      decide +kernel)
  simp only [Bool.and_eq_true, decide_eq_true_eq, Option.any_eq_true] at checked
  obtain ⟨client, found, inMulti, isFull⟩ := checked
  have ordinary : isTransactionCmd ping.command = false := by decide +kernel
  obtain ⟨u, handled⟩ := fits t 0 client ping run found inMulti ordinary
  rw [handle_queued found inMulti ordinary, queueCommand, bind_of_ok (loadClient_found found), isFull] at handled
  simp [maxQueuedCmds, fault] at handled

def watchTwo : RespRequest := requestOf [lit "WATCH", lit "a", lit "b"]

/-- A client that watches one key watches two more. -/
theorem watches_within_capacity_two : ∃ t u : World Int, handle watchTwo 0 t = .ok ((), u) := by
  have played : (playRecorded [.connect 5 0, arrival firstSlot [lit "WATCH", lit "k"]]).any
      (fun (t, history) => (t.world.heap 0).any (fun client => !client.isQueued) &&
        decide (history.watched 0 = 1) && decide (∀ bucket, history.registered bucket ≤ 1)) = true := by
    decide +kernel
  obtain ⟨⟨t, history⟩, plays, checked⟩ := (Option.any_eq_true _ _).mp played
  simp only [Bool.and_eq_true, Bool.not_eq_true', decide_eq_true_eq, Option.any_eq_true] at checked
  obtain ⟨⟨⟨client, found, outside⟩, one⟩, few⟩ := checked
  have served := (watches_within_capacity idleServer_atLoopEntry (playRecorded_run plays)).2.2 0 client watchTwo found
    outside (by decide +kernel)
  have hasRoom : history.HasRoom 0 watchTwo.args := by
    have args : watchTwo.args.length = 2 := by decide +kernel
    refine ⟨by rw [one, args]; decide, fun bucket => ?_⟩
    have counted : keysIn bucket watchTwo.args ≤ watchTwo.args.length := List.countP_le_length
    have := few bucket
    unfold maxClients
    omega
  obtain ⟨u, handled⟩ := served.mpr ⟨hasRoom, by decide +kernel⟩
  exact ⟨t.world, u, handled⟩

/-- WATCH of thirteen keys. -/
def watchMany : RespRequest := requestOf (lit "WATCH" :: List.replicate 13 (lit "k"))

/-- The fifth WATCH of thirteen keys writes behind the array. -/
theorem watch_overruns :
    ¬ ∀ (t : Server Int) (ptr : ClientPtr) (client : Client) (req : RespRequest), Runs idleServer t →
      t.world.heap ptr = some client → client.isQueued = false → req.command = .watch →
      (∀ key ∈ req.args, bucketOf key ≠ none) → ∃ u, handle req ptr t.world = .ok ((), u) := by
  intro fits
  obtain ⟨t, run, checked⟩ := exists_run_of_play
    (show (play (fun _ _ => True) idleServer (.connect 5 0 ::
        List.replicate 4 (arrival firstSlot (lit "WATCH" :: List.replicate 13 (lit "k"))))).any
      (fun t => (t.world.heap 0).any (fun client => !client.isQueued && decide (client.watchKeys.length = 52)) &&
        decide (∀ bucket, (t.world.watching bucket).length ≤ 52)) = true by
      decide +kernel)
  simp only [Bool.and_eq_true, Bool.not_eq_true', decide_eq_true_eq, Option.any_eq_true] at checked
  obtain ⟨⟨client, found, outside, isMany⟩, listsFit⟩ := checked
  have isWatch : watchMany.command = .watch := by decide +kernel
  have args : watchMany.args.length = 13 := by decide +kernel
  obtain ⟨u, handled⟩ := fits t 0 client watchMany run found outside isWatch (by decide +kernel)
  rw [handle_watch found isWatch, handleWatch, if_neg (by decide +kernel), bind_of_ok (loadClient_found found),
    if_neg (by simp [outside])] at handled
  obtain ⟨_, registered, registers, _⟩ := bind_eq_ok.mp handled
  have room := (registers_room found (by rw [isMany]; decide) (fun bucket => (listsFit bucket).trans (by decide))
    registers).1
  rw [isMany, args] at room
  exact absurd room (by decide)

end RedisClone
