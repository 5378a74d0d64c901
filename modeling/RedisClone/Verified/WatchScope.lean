import RedisClone.Verified.Reachable

/-! # What a step does to the watched keys

`scope_of_step` lists what a step can do to the registrations in `watchers`, to the keys a client
watches and to its `is_dirty`: WATCH registers, UNWATCH and the end of a transaction that did not run
release, a command that notifies marks the clients of one bucket, and nothing else.
-/

namespace RedisClone

open Exec

variable {D : Type}

/-! ## WATCH -/

/-- A client was registered for more keys. -/
structure Registers (ptr : ClientPtr) (client : Client) (keys : List Bytes) (w w' : World D) :
    Prop where
  clients : w'.clients = w.clients
  activeFds : w'.activeFds = w.activeFds
  heap : w'.heap = Function.update w.heap ptr
    (some { client with watchKeys := client.watchKeys ++ keys })
  indexed : ∀ key ∈ keys, bucketOf key ≠ none
  watching : ∀ bucket, w'.watching bucket = w.watching bucket ++
    List.replicate (keys.countP fun key => bucketOf key = some bucket) (some ptr)

theorem forM_watchKey_run {ptr : ClientPtr} {client : Client} {keys : List Bytes} {w t : World D}
    (found : w.heap ptr = some client) (run : forM keys (watchKey ptr) w = .ok ((), t)) :
    Registers ptr client keys w t := by
  induction keys generalizing w client with
  | nil =>
    simp only [List.forM_nil, pure_run, Except.ok.injEq, Prod.mk.injEq, true_and] at run
    subst run
    exact ⟨rfl, rfl, by simp [found], by simp, by simp⟩
  | cons key keys inductionHypothesis =>
    rw [List.forM_cons] at run
    obtain ⟨_, registered, first, rest⟩ := bind_eq_ok.mp run
    obtain ⟨client', bucket, found', inBucket, rfl⟩ := watchKey_run first
    obtain rfl : client' = client := by simpa [found'] using found
    have next := inductionHypothesis (Function.update_self ptr _ w.heap) rest
    refine ⟨next.clients, next.activeFds, ?_, ?_, fun other => ?_⟩
    · rw [next.heap]
      simp [World.register]
    · intro other member
      obtain rfl | inRest := List.mem_cons.mp member
      · simp [inBucket]
      · exact next.indexed other inRest
    · rw [next.watching other, List.countP_cons]
      by_cases here : other = bucket
      · subst here
        rw [watching_register_self, if_pos (by simpa using inBucket), List.append_assoc,
          List.replicate_succ, List.singleton_append]
      · have elsewhere : bucketOf key ≠ some other := by
          rw [inBucket]
          simpa [eq_comm] using here
        rw [watching_register_of_ne w ptr client' key here, if_neg (by simpa using elsewhere),
          Nat.add_zero]

/-! ## The end of a watch scope -/

/-- A client was released from all its keys. -/
structure Releases (ptr : ClientPtr) (client : Client) (w w' : World D) : Prop where
  clients : w'.clients = w.clients
  activeFds : w'.activeFds = w.activeFds
  heap : ∃ client', w'.heap = Function.update w.heap ptr (some client') ∧
    client'.watchKeys = [] ∧ client'.isDirty = false
  watching : ∀ bucket other, some other ∈ w'.watching bucket ↔ some other ∈ w.watching bucket ∧
    ¬ (other = ptr ∧ ∃ key ∈ client.watchKeys, bucketOf key = some bucket)
  fewer : ∀ bucket other,
    (w'.watching bucket).count (some other) ≤ (w.watching bucket).count (some other)

/-- The request makes `handle` call `delete_watched_keys` for the client. -/
def endsScope (client : Client) (req : RespRequest) : Bool :=
  req.command = .unwatch ||
    client.isQueued && (req.command = .discard || req.command = .exec && client.isDirty)

theorem deleteWatchedKeys_releases {ptr : ClientPtr} {client : Client} {w t : World D}
    (found : w.heap ptr = some client) (run : deleteWatchedKeys ptr w = .ok ((), t)) :
    Releases ptr client w t := by
  obtain ⟨client', found', rfl⟩ := deleteWatchedKeys_run run
  obtain rfl : client' = client := by simpa [found'] using found
  refine ⟨clearAll_clients w ptr _, clearAll_activeFds w ptr _, ⟨client'.unwatched, ?_, rfl, rfl⟩,
    fun bucket other => mem_watching_clearAll, fun bucket other => ?_⟩
  · change Function.update (w.clearAll ptr client'.watchKeys).heap ptr _ = _
    rw [heap_clearAll]
  · exact count_watching_clearAll_le w ptr other _ bucket

/-- The client may have changed before in what a release does not depend on. -/
theorem Releases.of_setClient {ptr : ClientPtr} {client client' : Client} {w t : World D}
    (releases : Releases ptr client' (w.setClient ptr client') t)
    (keys : client'.watchKeys = client.watchKeys) : Releases ptr client w t where
  clients := releases.clients
  activeFds := releases.activeFds
  heap := by
    obtain ⟨released, heap, empty⟩ := releases.heap
    refine ⟨released, ?_, empty⟩
    rw [heap]
    exact Function.update_idem _ _ _
  watching bucket other := keys ▸ releases.watching bucket other
  fewer := releases.fewer

/-! ## Notifications -/

/-- The command notifies the clients of a bucket that this client is registered in. -/
def Notified (w : World D) (req : RespRequest) (ptr : ClientPtr) : Prop :=
  notifies req.command = true ∧ ∃ key bucket, req.args[0]? = some key ∧
    bucketOf key = some bucket ∧ some ptr ∈ w.watching bucket

theorem notifyFirst_run {req : RespRequest} {w t : World D}
    (run : notifyFirst req w = .ok ((), t)) :
    ∃ key bucket, req.args[0]? = some key ∧ bucketOf key = some bucket ∧
      t = w.markAll (w.watching bucket) := by
  obtain ⟨key, read, reads, rest⟩ := bind_eq_ok.mp run
  unfold RespRequest.arg at reads
  cases isArg : req.args[0]? with
  | none => simp [isArg, fault] at reads
  | some value =>
    simp only [isArg, pure_run, Except.ok.injEq, Prod.mk.injEq] at reads
    obtain ⟨rfl, rfl⟩ := reads
    obtain ⟨bucket, inBucket, same⟩ := notifyWatchers_run rest
    exact ⟨value, bucket, rfl, inBucket, same⟩

theorem heap_markAll (w : World D) (clientList : ClientsWatch) {ptr : ClientPtr} {client : Client}
    (found : w.heap ptr = some client) :
    ∃ client', (w.markAll clientList).heap ptr = some client' ∧
      client'.watchKeys = client.watchKeys ∧
      (client'.isDirty = true ↔ client.isDirty = true ∨ some ptr ∈ clientList) := by
  by_cases listed : some ptr ∈ clientList
  · refine ⟨{ client with isDirty := true }, ?_, rfl, by simp [listed]⟩
    simp [World.markAll, listed, found]
  · refine ⟨client, ?_, rfl, by simp [listed]⟩
    simp [World.markAll, listed, found]

variable [Externals D]

/-- A command marks exactly the clients that it notifies. -/
theorem dispatch_dirty {req : RespRequest} {sender ptr : ClientPtr} {client : Client}
    {w w' : World D} (run : dispatch req sender w = .ok ((), w'))
    (found : w.heap ptr = some client) :
    ∃ client', w'.heap ptr = some client' ∧ client'.watchKeys = client.watchKeys ∧
      (client'.isDirty = true ↔ client.isDirty = true ∨ Notified w req ptr) := by
  obtain ⟨_, handled, notified, _, handler, notify, write⟩ := dispatch_parts run
  have arm := kept_arm handler
  obtain ⟨afterArm, foundArm, sameArm⟩ := arm.heap ptr client found
  have watching : handled.watching = w.watching := by
    funext bucket
    rw [World.watching, arm.watchers]
    rfl
  obtain ⟨afterNotify, foundNotify, sameKeys, dirty⟩ : ∃ client', notified.heap ptr = some client' ∧
      client'.watchKeys = client.watchKeys ∧
      (client'.isDirty = true ↔ client.isDirty = true ∨ Notified w req ptr) := by
    rw [onlyIf] at notify
    split at notify
    · rename_i notifying
      obtain ⟨key, bucket, isKey, inBucket, rfl⟩ := notifyFirst_run notify
      obtain ⟨client', found', keys, dirty⟩ := heap_markAll handled (handled.watching bucket) foundArm
      refine ⟨client', found', keys.trans sameArm.watchKeys, dirty.trans ?_⟩
      rw [sameArm.clean id, watching]
      refine or_congr_right ⟨fun listed => ⟨notifying, key, bucket, isKey, inBucket, listed⟩, ?_⟩
      rintro ⟨_, key', bucket', isKey', inBucket', listed⟩
      obtain rfl : key = key' := by simpa [isKey] using isKey'
      obtain rfl : bucket = bucket' := by simpa [inBucket] using inBucket'
      exact listed
    · rename_i silent
      simp only [pure_run, Except.ok.injEq, Prod.mk.injEq, true_and] at notify
      subst notify
      refine ⟨afterArm, foundArm, sameArm.watchKeys, ?_⟩
      rw [sameArm.clean id]
      exact ⟨.inl, fun either => either.resolve_right fun marked => silent marked.1⟩
  obtain ⟨afterWrite, foundWrite, sameWrite⟩ := (kept_writeToFile write).heap ptr afterNotify foundNotify
  refine ⟨afterWrite, foundWrite, sameWrite.watchKeys.trans sameKeys, ?_⟩
  rw [sameWrite.clean id]
  exact dirty

/-! ## Steps -/

/-- The event makes `handle` run a command that notifies this client. -/
def NotifiedAt (s : Server D) (event : Event) (ptr : ClientPtr) : Prop :=
  ∃ sender req, Dispatches s event sender req ∧ Notified s.world req ptr

/-- No client was registered or released, and those that a command notified were marked. -/
structure ScopeKept (s : Server D) (event : Event) (w' : World D) : Prop where
  clients : w'.clients = s.world.clients
  activeFds : w'.activeFds = s.world.activeFds
  watching : w'.watching = s.world.watching
  free : ∀ ptr, s.world.heap ptr = none → w'.heap ptr = none
  heap : ∀ ptr client, s.world.heap ptr = some client → ∃ client', w'.heap ptr = some client' ∧
    client'.watchKeys = client.watchKeys ∧
    (client'.isDirty = true ↔ client.isDirty = true ∨ NotifiedAt s event ptr)

/-- What a step can do to the watched keys. -/
inductive Scope (s : Server D) : Event → World D → Prop where
  | kept {event : Event} {w' : World D} (kept : ScopeKept s event w') : Scope s event w'
  | watched {slot : ClientSlot} {call : Call} {w' : World D} (ptr : ClientPtr) (client : Client)
      (occupied : s.world.clients slot = some ptr) (found : s.world.heap ptr = some client)
      (isWatch : call.request.command = .watch) (outside : client.isQueued = false)
      (registers : Registers ptr client call.request.args s.world w') :
      Scope s (.request slot call) w'
  | released {slot : ClientSlot} {call : Call} {w' : World D} (ptr : ClientPtr) (client : Client)
      (occupied : s.world.clients slot = some ptr) (found : s.world.heap ptr = some client)
      (ends : endsScope client call.request = true) (releases : Releases ptr client s.world w') :
      Scope s (.request slot call) w'
  | connected {fd : Int} {ptr : ClientPtr} (slot : ClientSlot)
      (isNext : slot.val = s.world.activeFds) (free : s.world.heap ptr = none) :
      Scope s (.connect fd ptr) (s.world.accept slot fd ptr)
  | disconnected {slot : ClientSlot} (last : ClientSlot) (ptr : ClientPtr)
      (isLast : last.val = s.world.activeFds - 1) (occupied : s.world.clients slot = some ptr) :
      Scope s (.disconnect slot) (s.world.drop slot last ptr)

omit [Externals D] in
/-- A change of the session of one client that is neither watched keys nor the mark. -/
theorem scopeKept_setClient {s : Server D} {event : Event} {w' : World D} {ptr : ClientPtr}
    {client : Client} (client' : Client) (silent : ∀ ptr, ¬ NotifiedAt s event ptr)
    (found : s.world.heap ptr = some client) (keys : client'.watchKeys = client.watchKeys)
    (mark : client'.isDirty = client.isDirty) (clients : w'.clients = s.world.clients)
    (activeFds : w'.activeFds = s.world.activeFds) (watching : w'.watching = s.world.watching)
    (heap : w'.heap = Function.update s.world.heap ptr (some client')) :
    ScopeKept s event w' where
  clients := clients
  activeFds := activeFds
  watching := watching
  free other missing := by
    have distinct : other ≠ ptr := by
      rintro rfl
      simp [found] at missing
    rw [heap, Function.update_of_ne distinct, missing]
  heap other old oldFound := by
    by_cases same : other = ptr
    · subst same
      obtain rfl : client = old := by simpa [found] using oldFound
      refine ⟨client', by rw [heap, Function.update_self], keys, ?_⟩
      rw [mark]
      exact ⟨.inl, fun either => either.resolve_right (silent other)⟩
    · refine ⟨old, by rw [heap, Function.update_of_ne same, oldFound], rfl, ?_⟩
      exact ⟨.inl, fun either => either.resolve_right (silent other)⟩

omit [Externals D] in
/-- A frame without marks. -/
theorem Kept.scope {s : Server D} {event : Event} {w' : World D} {may : May}
    (kept : Kept may s.world w') (unmarked : ¬ may.mark)
    (silent : ∀ ptr, ¬ NotifiedAt s event ptr) : ScopeKept s event w' where
  clients := kept.clients
  activeFds := kept.activeFds
  watching := by funext bucket; rw [World.watching, kept.watchers]; rfl
  free := kept.free
  heap ptr client found := by
    obtain ⟨client', found', session⟩ := kept.heap ptr client found
    refine ⟨client', found', session.watchKeys, ?_⟩
    rw [session.clean unmarked]
    exact ⟨.inl, fun either => either.resolve_right (silent ptr)⟩

omit [Externals D] in
theorem silent_of_calls {s : Server D} {event : Event} (noCall : s.calls event = none) :
    ∀ ptr, ¬ NotifiedAt s event ptr := by
  rintro ptr ⟨sender, req, ⟨calls, _⟩, _⟩
  simp [noCall] at calls

/-- One call of `handle` in a step. -/
theorem Handled.scope {s : Server D} {event : Event} {w' : World D} {req : RespRequest}
    {ptr : ClientPtr} {client : Client} (calls : s.calls event = some (ptr, req))
    (found : s.world.heap ptr = some client) (handles : Handled s.world req ptr client w') :
    ScopeKept s event w' ∨
      (req.command = .watch ∧ client.isQueued = false ∧
        Registers ptr client req.args s.world w') ∨
      (endsScope client req = true ∧ Releases ptr client s.world w') := by
  -- where no arm is reached nobody is notified
  have silent (unreached : reachesArm client req = false) : ∀ ptr, ¬ NotifiedAt s event ptr := by
    rintro other ⟨sender, req', ⟨calls', client', found', reaches⟩, _⟩
    obtain ⟨rfl, rfl⟩ : ptr = sender ∧ req = req' := by simpa [calls] using calls'
    obtain rfl : client = client' := by simpa [found] using found'
    simp [reaches] at unreached
  cases handles with
  | queued ordinary inMulti room =>
    exact .inl (scopeKept_setClient
      { client with requests := client.requests ++ [copyRequest req] }
      (silent (by simp [reachesArm, inMulti])) found rfl rfl rfl rfl rfl rfl)
  | opened isMulti outside =>
    exact .inl (scopeKept_setClient { client with requests := [], isQueued := true }
      (silent (by simp [reachesArm, isMulti, isTransactionCmd])) found rfl rfl rfl rfl rfl rfl)
  | refused text reason =>
    refine .inl (((ambient_kept {}).emit s.world client.fd text).scope id (silent ?_))
    exact reachesArm_of_refuses reason
  | ignored isWatch noKey =>
    exact .inl ((Kept.refl {} s.world).scope id
      (silent (by simp [reachesArm, isWatch, isTransactionCmd])))
  | watched isWatch outside run =>
    have registers := forM_watchKey_run found run
    exact .inr (.inl ⟨isWatch, outside, registers.clients, registers.activeFds, registers.heap,
      registers.indexed, registers.watching⟩)
  | unwatched fd isUnwatch run =>
    have releases := deleteWatchedKeys_releases found run
    refine .inr (.inr ⟨by simp [endsScope, isUnwatch], releases.clients, releases.activeFds,
      releases.heap, releases.watching, releases.fewer⟩)
  | left reply inMulti isEnd run =>
    have releases : Releases ptr client s.world _ :=
      (deleteWatchedKeys_releases (Function.update_self ptr _ _) run).of_setClient rfl
    refine .inr (.inr ⟨?_, releases.clients, releases.activeFds, releases.heap, releases.watching,
      releases.fewer⟩)
    obtain isDiscard | ⟨isExec, dirty⟩ := isEnd
    · simp [endsScope, inMulti, isDiscard]
    · simp [endsScope, inMulti, isExec, dirty]
  | dispatched reaches run =>
    have kept := kept_dispatch run
    refine .inl ⟨kept.clients, kept.activeFds, ?_, kept.free, fun other client' found' => ?_⟩
    · funext bucket
      rw [World.watching, kept.watchers]
      rfl
    · obtain ⟨after, foundAfter, keys, dirty⟩ := dispatch_dirty run found'
      refine ⟨after, foundAfter, keys, dirty.trans (or_congr_right ?_)⟩
      constructor
      · exact fun notified => ⟨ptr, req, ⟨calls, client, found, reaches⟩, notified⟩
      · rintro ⟨sender, req', ⟨calls', _⟩, notified⟩
        obtain ⟨rfl, rfl⟩ : ptr = sender ∧ req = req' := by simpa [calls] using calls'
        exact notified

omit [Externals D] in
/-- What follows the call of `handle`. -/
theorem ScopeKept.of_same {s : Server D} {event : Event} {w w' : World D}
    (kept : ScopeKept s event w) (clients : w'.clients = w.clients)
    (activeFds : w'.activeFds = w.activeFds) (watchers : w'.watchers = w.watchers)
    (heap : w'.heap = w.heap) : ScopeKept s event w' where
  clients := clients.trans kept.clients
  activeFds := activeFds.trans kept.activeFds
  watching := by
    funext bucket
    rw [← kept.watching, World.watching, watchers]
    rfl
  free ptr missing := heap ▸ kept.free ptr missing
  heap ptr client found := by
    rw [heap]
    exact kept.heap ptr client found

theorem scope_of_step {s t : Server D} {event : Event} (wellFormed : WellFormed s)
    (step : Step s event t) : Scope s event t.world := by
  cases step_cases wellFormed.outside step with
  | quiet idle noRequest kept =>
    refine .kept (kept.scope id (silent_of_calls ?_))
    cases event <;> simp_all [Server.calls]
  | connected slot idle isNext valid free => exact .connected slot isNext free
  | disconnected last ptr idle isLast occupied => exact .disconnected last ptr isLast occupied
  | started ptr client idle occupied found starts =>
    -- EXEC that starts its queue reaches no arm, so nobody is notified
    have isExec := (startsTransaction_eq_true.mp starts).1
    refine .kept (scopeKept_setClient client.takeQueue ?_ found rfl rfl rfl rfl rfl rfl)
    rintro other ⟨sender, req, ⟨calls, client', _, reaches⟩, _⟩
    simp only [Server.calls, occupied, Option.map_some, Option.some.injEq, Prod.mk.injEq] at calls
    obtain ⟨rfl, rfl⟩ := calls
    simp [reachesArm, isExec, isTransactionCmd] at reaches
  | served ptr client idle occupied found starts handles propagates =>
    rename_i slot call handled w'
    have same := (propagate_same propagates).2.2
    have calls : s.calls (.request slot call) = some (ptr, call.request) := by
      simp [Server.calls, occupied]
    obtain kept | ⟨isWatch, outside, registers⟩ | ⟨ends, releases⟩ :=
      handles.scope calls found
    · refine .kept (kept.of_same ?_ ?_ ?_ ?_) <;> (rw [same])
    · refine .watched ptr client occupied found isWatch outside ?_
      rw [same]
      exact ⟨registers.clients, registers.activeFds, registers.heap, registers.indexed,
        registers.watching⟩
    · refine .released ptr client occupied found ends ?_
      rw [same]
      exact ⟨releases.clients, releases.activeFds, releases.heap, releases.watching, releases.fewer⟩
  | ran ptr req remaining call client client' running found handles found' =>
    rename_i handled
    -- no command of the queue is one of the transaction commands
    have ordinary := wellFormed.remaining _ running req List.mem_cons_self
    have outside := wellFormed.outside _ client running found
    have calls : s.calls .proceed = some (ptr, req) := by simp [Server.calls, running]
    obtain kept | ⟨isWatch, _⟩ | ⟨ends, _⟩ := handles.scope calls found
    · refine .kept ⟨kept.clients, kept.activeFds, kept.watching, fun other missing => ?_,
        fun other old oldFound => ?_⟩
      · have distinct : other ≠ ptr := by
          rintro rfl
          simp [found] at missing
        exact (Function.update_of_ne distinct _ _).trans (kept.free other missing)
      · obtain ⟨after, foundAfter, keys, dirty⟩ := kept.heap other old oldFound
        by_cases same : other = ptr
        · subst same
          obtain rfl : client' = after := by simpa [found'] using foundAfter
          exact ⟨_, Function.update_self _ _ _, keys, dirty⟩
        · exact ⟨after, (Function.update_of_ne same _ _).trans foundAfter, keys, dirty⟩
    · simp [isWatch, isTransactionCmd] at ordinary
    · revert ordinary
      unfold endsScope at ends
      cases command : req.command <;> simp_all [isTransactionCmd]
  | ended ptr call running propagates =>
    have same := (propagate_same propagates).2.2
    refine .kept (((Kept.refl {} s.world).scope id (silent_of_calls ?_)).of_same ?_ ?_ ?_ ?_)
    · simp [Server.calls, running]
    all_goals rw [same]

end RedisClone
