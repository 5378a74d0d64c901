import RedisClone.Verified.Steps

/-! # The states that runs reach

`WellFormed` is the invariant of every run, and `AtLoopEntry` is where the runs of a master start: the
state in which `main` enters its loop, whatever table the append-only file filled in.
-/

namespace RedisClone

open Exec

variable {D : Type}

/-! ## What `handle` keeps of the connections -/

/-- What no call of `handle` changes of the connections: a client keeps its descriptor, and only
requests that `queues` holds of come into its queue. -/
structure Held (queues : RespRequest → Prop) (w w' : World D) : Prop where
  clients : w'.clients = w.clients
  activeFds : w'.activeFds = w.activeFds
  masterFd : w'.serverConfig.masterFd = w.serverConfig.masterFd
  free : ∀ ptr, w.heap ptr = none → w'.heap ptr = none
  heap : ∀ ptr client, w.heap ptr = some client → ∃ client', w'.heap ptr = some client' ∧
    client'.fd = client.fd ∧
    ∀ req ∈ client'.requests, req ∈ client.requests ∨ queues req

variable {queues : RespRequest → Prop}

theorem Held.trans {w w' w'' : World D} (before : Held queues w w')
    (after : Held queues w' w'') : Held queues w w'' where
  clients := after.clients.trans before.clients
  activeFds := after.activeFds.trans before.activeFds
  masterFd := after.masterFd.trans before.masterFd
  free ptr missing := after.free ptr (before.free ptr missing)
  heap ptr client found := by
    obtain ⟨client', found', fd, requests⟩ := before.heap ptr client found
    obtain ⟨client'', found'', fd', requests'⟩ := after.heap ptr client' found'
    refine ⟨client'', found'', fd'.trans fd, fun req member => ?_⟩
    obtain inQueue | queued := requests' req member
    · exact requests req inQueue
    · exact .inr queued

theorem Kept.held {may : May} {w w' : World D} (kept : Kept may w w') : Held queues w w' where
  clients := kept.clients
  activeFds := kept.activeFds
  masterFd := kept.masterFd
  free := kept.free
  heap ptr client found := by
    obtain ⟨client', found', session⟩ := kept.heap ptr client found
    exact ⟨client', found', session.fd, fun req member => .inl (session.requests ▸ member)⟩

/-- One client changes, the connections do not. -/
theorem held_of_update {w w' : World D} {ptr : ClientPtr} {client client' : Client}
    (clients : w'.clients = w.clients) (activeFds : w'.activeFds = w.activeFds)
    (masterFd : w'.serverConfig.masterFd = w.serverConfig.masterFd)
    (heap : w'.heap = Function.update w.heap ptr (some client'))
    (found : w.heap ptr = some client) (fd : client'.fd = client.fd)
    (requests : ∀ req ∈ client'.requests,
      req ∈ client.requests ∨ queues req) : Held queues w w' where
  clients := clients
  activeFds := activeFds
  masterFd := masterFd
  free other missing := by
    have distinct : other ≠ ptr := by
      rintro rfl
      simp [found] at missing
    rw [heap, Function.update_of_ne distinct, missing]
  heap other old oldFound := by
    by_cases same : other = ptr
    · subst same
      obtain rfl : client = old := by simpa [found] using oldFound
      exact ⟨client', by rw [heap, Function.update_self], fd, requests⟩
    · exact ⟨old, by rw [heap, Function.update_of_ne same, oldFound], rfl, fun req => .inl⟩

theorem held_setClient {w : World D} {ptr : ClientPtr} {client : Client} (client' : Client)
    (found : w.heap ptr = some client) (fd : client'.fd = client.fd)
    (requests : ∀ req ∈ client'.requests,
      req ∈ client.requests ∨ queues req) :
    Held queues w (w.setClient ptr client') :=
  held_of_update rfl rfl rfl rfl found fd requests

theorem held_emit (w : World D) (fd : Int) (bytes : Bytes) : Held queues w (w.emit fd bytes) :=
  Kept.held ((ambient_kept {}).emit w fd bytes)

theorem forM_watchKey_held {ptr : ClientPtr} {keys : List Bytes} {w t : World D}
    (run : forM keys (watchKey ptr) w = .ok ((), t)) : Held queues w t := by
  induction keys generalizing w with
  | nil =>
    simp only [List.forM_nil, pure_run, Except.ok.injEq, Prod.mk.injEq, true_and] at run
    exact run ▸ (Kept.refl {} w).held
  | cons key keys inductionHypothesis =>
    rw [List.forM_cons] at run
    obtain ⟨_, registered, first, rest⟩ := bind_eq_ok.mp run
    obtain ⟨client, bucket, found, _, rfl⟩ := watchKey_run first
    have registers : Held queues w (w.register ptr client key bucket) :=
      held_of_update rfl rfl rfl rfl found rfl fun req => .inl
    exact registers.trans (inductionHypothesis rest)

theorem clearAll_clients (w : World D) (ptr : ClientPtr) (keys : List Bytes) :
    (w.clearAll ptr keys).clients = w.clients := by
  induction keys generalizing w with
  | nil => rfl
  | cons key keys inductionHypothesis => exact inductionHypothesis (w.clear ptr key)

theorem clearAll_activeFds (w : World D) (ptr : ClientPtr) (keys : List Bytes) :
    (w.clearAll ptr keys).activeFds = w.activeFds := by
  induction keys generalizing w with
  | nil => rfl
  | cons key keys inductionHypothesis => exact inductionHypothesis (w.clear ptr key)

theorem clearAll_serverConfig (w : World D) (ptr : ClientPtr) (keys : List Bytes) :
    (w.clearAll ptr keys).serverConfig = w.serverConfig := by
  induction keys generalizing w with
  | nil => rfl
  | cons key keys inductionHypothesis => exact inductionHypothesis (w.clear ptr key)

theorem release_held {ptr : ClientPtr} {w t : World D}
    (run : deleteWatchedKeys ptr w = .ok ((), t)) : Held queues w t := by
  obtain ⟨client, found, rfl⟩ := deleteWatchedKeys_run run
  have heap : (w.release ptr client).heap = Function.update w.heap ptr (some client.unwatched) := by
    change Function.update (w.clearAll ptr client.watchKeys).heap ptr _ = _
    rw [heap_clearAll]
  refine held_of_update (clearAll_clients w ptr _) (clearAll_activeFds w ptr _) ?_ heap found rfl
    fun req => .inl
  exact congrArg RedisConfig.masterFd (clearAll_serverConfig w ptr _)

theorem Handled.held [Externals D] {w w' : World D} {req : RespRequest} {ptr : ClientPtr}
    {client : Client} (found : w.heap ptr = some client) (handles : Handled w req ptr client w')
    (queued : isTransactionCmd req.command = false → client.isQueued = true →
      queues (copyRequest req)) : Held queues w w' := by
  cases handles with
  | queued ordinary inMulti room =>
    refine Held.trans (held_setClient
      { client with requests := client.requests ++ [copyRequest req] } found rfl
      fun other member => ?_) (held_emit _ _ _)
    obtain inQueue | isNew := List.mem_append.mp member
    · exact .inl inQueue
    · rw [List.mem_singleton.mp isNew]
      exact .inr (queued ordinary inMulti)
  | opened isMulti outside =>
    refine Held.trans (held_setClient { client with isQueued := true, requests := [] } found rfl
      fun other member => ?_) (held_emit _ _ _)
    simp at member
  | refused text reason => exact held_emit w _ _
  | ignored => exact (Kept.refl {} w).held
  | watched isWatch outside run => exact (forM_watchKey_held run).trans (held_emit _ _ _)
  | unwatched fd isUnwatch run => exact (release_held run).trans (held_emit _ _ _)
  | left reply inMulti isEnd run =>
    refine Held.trans (held_setClient client.leaveMulti found rfl fun other member => ?_)
      ((release_held run).trans (held_emit _ _ _))
    simp [Client.leaveMulti] at member
  | dispatched reaches run => exact (kept_dispatch run).held

/-! ## The invariant -/

/-- `handle` queues the request in MULTI. -/
def Ordinary (req : RespRequest) : Prop := isTransactionCmd req.command = false

/-- The invariant of every run: the connections are the slots in use, no client is there twice and none was
freed, the server is a master, and a queue holds no command that is handled at once inside MULTI. -/
structure WellFormed (s : Server D) : Prop where
  inUse : ∀ slot, s.world.clients slot ≠ none ↔ 1 ≤ slot.val ∧ slot.val < s.world.activeFds
  started : 1 ≤ s.world.activeFds
  allocated : ∀ slot ptr, s.world.clients slot = some ptr → s.world.heap ptr ≠ none
  distinct : ∀ slot slot' ptr, s.world.clients slot = some ptr →
    s.world.clients slot' = some ptr → slot = slot'
  descriptors : ∀ ptr client, s.world.heap ptr = some client → 0 ≤ client.fd
  isMaster : s.world.serverConfig.masterFd = -1
  queued : ∀ ptr client, s.world.heap ptr = some client →
    ∀ req ∈ client.requests, isTransactionCmd req.command = false
  outside : OutsideMulti s
  isExec : ∀ transaction, s.running = some transaction → transaction.call.request.command = .exec
  remaining : ∀ transaction, s.running = some transaction →
    ∀ req ∈ transaction.remaining, isTransactionCmd req.command = false

theorem WellFormed.of_held {s : Server D} {w' : World D} (wellFormed : WellFormed s)
    (held : Held Ordinary s.world w') : WellFormed ⟨w', none⟩ where
  inUse slot := by
    rw [show (⟨w', none⟩ : Server D).world.clients = s.world.clients from held.clients,
      show (⟨w', none⟩ : Server D).world.activeFds = s.world.activeFds from held.activeFds]
    exact wellFormed.inUse slot
  started := held.activeFds ▸ wellFormed.started
  allocated slot ptr inSlot missing := by
    obtain ⟨client, found⟩ := Option.ne_none_iff_exists'.mp
      (wellFormed.allocated slot ptr (held.clients ▸ inSlot))
    obtain ⟨client', found', _⟩ := held.heap ptr client found
    exact absurd (found'.symm.trans missing) (by simp)
  distinct slot slot' ptr inSlot inSlot' := by
    refine wellFormed.distinct slot slot' ptr ?_ ?_
    · exact held.clients ▸ inSlot
    · exact held.clients ▸ inSlot'
  descriptors ptr client' found' := by
    cases found : s.world.heap ptr with
    | none => simp [held.free ptr found] at found'
    | some client =>
      obtain ⟨other, foundOther, fd, _⟩ := held.heap ptr client found
      obtain rfl : other = client' := by simpa [foundOther] using found'
      exact fd ▸ wellFormed.descriptors ptr client found
  isMaster := held.masterFd.trans wellFormed.isMaster
  queued ptr client' found' req member := by
    cases found : s.world.heap ptr with
    | none => simp [held.free ptr found] at found'
    | some client =>
      obtain ⟨other, foundOther, _, requests⟩ := held.heap ptr client found
      obtain rfl : other = client' := by simpa [foundOther] using found'
      obtain inQueue | ordinary := requests req member
      · exact wellFormed.queued ptr client found req inQueue
      · exact ordinary
  outside _ _ running := nomatch running
  isExec _ running := nomatch running
  remaining _ running := nomatch running

/-- A transaction starts, or goes on, for a client that is not in MULTI. -/
theorem WellFormed.run {w : World D} (wellFormed : WellFormed (⟨w, none⟩ : Server D))
    {transaction : Transaction}
    (outside : ∀ client, w.heap transaction.ptr = some client → client.isQueued = false)
    (isExec : transaction.call.request.command = .exec)
    (remaining : ∀ req ∈ transaction.remaining, isTransactionCmd req.command = false) :
    WellFormed ⟨w, some transaction⟩ where
  inUse := wellFormed.inUse
  started := wellFormed.started
  allocated := wellFormed.allocated
  distinct := wellFormed.distinct
  descriptors := wellFormed.descriptors
  isMaster := wellFormed.isMaster
  queued := wellFormed.queued
  outside other client running := by
    obtain rfl : transaction = other := by simpa using running
    exact outside client
  isExec other running := by
    obtain rfl : transaction = other := by simpa using running
    exact isExec
  remaining other running := by
    obtain rfl : transaction = other := by simpa using running
    exact remaining

/-- On a master no client's descriptor is the one of its own master. -/
theorem WellFormed.notMaster {s : Server D} (wellFormed : WellFormed s) {ptr : ClientPtr}
    {client : Client} (found : s.world.heap ptr = some client) :
    client.fd ≠ s.world.serverConfig.masterFd := by
  have valid := wellFormed.descriptors ptr client found
  rw [wellFormed.isMaster]
  omega

theorem wellFormed_accept {s : Server D} (wellFormed : WellFormed s) (slot : ClientSlot) {fd : Int}
    {ptr : ClientPtr} (isNext : slot.val = s.world.activeFds) (valid : 0 ≤ fd)
    (free : s.world.heap ptr = none) :
    WellFormed ⟨s.world.accept slot fd ptr, none⟩ where
  inUse other := by
    have started := wellFormed.started
    simp only [World.accept]
    by_cases here : other = slot
    · subst here
      simp only [Function.update_self, ne_eq, reduceCtorEq, not_false_eq_true, true_iff]
      omega
    · have apart : other.val ≠ slot.val := fun same => here (Fin.ext same)
      rw [Function.update_of_ne here, wellFormed.inUse other]
      omega
  started := by simp [World.accept]
  allocated other ptr' inSlot missing := by
    have sameHeap : (s.world.accept slot fd ptr).heap ptr' = none := missing
    have sameSlot : (s.world.accept slot fd ptr).clients other = some ptr' := inSlot
    simp only [World.accept] at sameHeap sameSlot
    by_cases isNew : ptr' = ptr
    · subst isNew; simp at sameHeap
    · rw [Function.update_of_ne isNew] at sameHeap
      by_cases here : other = slot
      · subst here
        obtain rfl : ptr = ptr' := by simpa using sameSlot
        exact isNew rfl
      · rw [Function.update_of_ne here] at sameSlot
        exact wellFormed.allocated other ptr' sameSlot sameHeap
  distinct other other' ptr' inSlot inSlot' := by
    have first : (s.world.accept slot fd ptr).clients other = some ptr' := inSlot
    have second : (s.world.accept slot fd ptr).clients other' = some ptr' := inSlot'
    simp only [World.accept] at first second
    -- the new address is in no old slot, because it was free
    have notOld {old : ClientSlot} (inOld : s.world.clients old = some ptr) : False :=
      wellFormed.allocated old ptr inOld free
    by_cases here : other = slot <;> by_cases here' : other' = slot
    · rw [here, here']
    · subst here
      obtain rfl : ptr = ptr' := by simpa using first
      rw [Function.update_of_ne here'] at second
      exact absurd second notOld
    · subst here'
      obtain rfl : ptr = ptr' := by simpa using second
      rw [Function.update_of_ne here] at first
      exact absurd first notOld
    · rw [Function.update_of_ne here] at first
      rw [Function.update_of_ne here'] at second
      exact wellFormed.distinct other other' ptr' first second
  descriptors ptr' client found := by
    have inHeap : (s.world.accept slot fd ptr).heap ptr' = some client := found
    simp only [World.accept] at inHeap
    by_cases isNew : ptr' = ptr
    · subst isNew
      obtain rfl : newClient fd = client := by simpa using inHeap
      exact valid
    · rw [Function.update_of_ne isNew] at inHeap
      exact wellFormed.descriptors ptr' client inHeap
  isMaster := wellFormed.isMaster
  queued ptr' client found := by
    have inHeap : (s.world.accept slot fd ptr).heap ptr' = some client := found
    simp only [World.accept] at inHeap
    by_cases isNew : ptr' = ptr
    · subst isNew
      obtain rfl : newClient fd = client := by simpa using inHeap
      exact fun req member => by simp [newClient] at member
    · rw [Function.update_of_ne isNew] at inHeap
      exact wellFormed.queued ptr' client inHeap
  outside _ _ running := nomatch running
  isExec _ running := nomatch running
  remaining _ running := nomatch running

theorem wellFormed_drop {s : Server D} (wellFormed : WellFormed s) (slot last : ClientSlot)
    {ptr : ClientPtr} (isLast : last.val = s.world.activeFds - 1) (occupied : s.world.clients slot = some ptr) :
    WellFormed ⟨s.world.drop slot last ptr, none⟩ := by
  -- every slot but the last holds what an old slot other than the dropped one held
  have origin {other : ClientSlot} {ptr' : ClientPtr}
      (inSlot : (s.world.drop slot last ptr).clients other = some ptr') :
      ∃ old, s.world.clients old = some ptr' ∧ old ≠ slot ∧ other ≠ last ∧
        (other = slot ∧ old = last ∨ other ≠ slot ∧ old = other) := by
    simp only [World.drop] at inSlot
    by_cases isLast : other = last
    · subst isLast; simp at inSlot
    · rw [Function.update_of_ne isLast] at inSlot
      by_cases here : other = slot
      · subst here
        rw [Function.update_self] at inSlot
        exact ⟨last, inSlot, fun same => isLast same.symm, isLast, .inl ⟨rfl, rfl⟩⟩
      · rw [Function.update_of_ne here] at inSlot
        exact ⟨other, inSlot, here, isLast, .inr ⟨here, rfl⟩⟩
  have inOldHeap {ptr' : ClientPtr} {client : Client}
      (found : (s.world.drop slot last ptr).heap ptr' = some client) :
      s.world.heap ptr' = some client := by
    simp only [World.drop] at found
    by_cases isDropped : ptr' = ptr
    · subst isDropped; simp at found
    · rwa [Function.update_of_ne isDropped] at found
  have slotInUse := (wellFormed.inUse slot).mp (by simp [occupied])
  refine ⟨fun other => ?_, ?_, fun other ptr' inSlot missing => ?_,
    fun other other' ptr' inSlot inSlot' => ?_, fun ptr' client found => wellFormed.descriptors ptr' client (inOldHeap found),
    wellFormed.isMaster, fun ptr' client found => wellFormed.queued ptr' client (inOldHeap found),
    fun _ _ running => ?_, fun _ running => ?_, fun _ running => ?_⟩
  · simp only [World.drop]
    by_cases isLastSlot : other = last
    · subst isLastSlot
      simp
    · have apart : other.val ≠ last.val := fun same => isLastSlot (Fin.ext same)
      rw [Function.update_of_ne isLastSlot]
      by_cases here : other = slot
      · subst here
        rw [Function.update_self, wellFormed.inUse last]
        omega
      · rw [Function.update_of_ne here, wellFormed.inUse other]
        omega
  · change 1 ≤ last.val
    omega
  · obtain ⟨old, inOld, notSlot, _⟩ := origin inSlot
    have notDropped : ptr' ≠ ptr := by
      rintro rfl
      exact notSlot (wellFormed.distinct old slot ptr' inOld occupied)
    have sameHeap : (s.world.drop slot last ptr).heap ptr' = none := missing
    simp only [World.drop] at sameHeap
    rw [Function.update_of_ne notDropped] at sameHeap
    exact wellFormed.allocated old ptr' inOld sameHeap
  · obtain ⟨old, inOld, _, notLast, moved⟩ := origin inSlot
    obtain ⟨old', inOld', _, notLast', moved'⟩ := origin inSlot'
    have same := wellFormed.distinct old old' ptr' inOld inOld'
    obtain ⟨here, isLast⟩ | ⟨here, isOld⟩ := moved <;>
      obtain ⟨here', isLast'⟩ | ⟨here', isOld'⟩ := moved'
    · rw [here, here']
    · exact absurd (isOld' ▸ same ▸ isLast) notLast'
    · exact absurd (isOld ▸ same ▸ isLast') notLast
    · rw [← isOld, ← isOld', same]
  · cases running
  · cases running
  · cases running

variable [Externals D]

theorem wellFormed_step {s t : Server D} {event : Event} (wellFormed : WellFormed s)
    (step : Step s event t) : WellFormed t := by
  cases step_cases wellFormed.outside step with
  | quiet idle noRequest kept => exact wellFormed.of_held kept.held
  | connected slot idle isNext valid free =>
    exact wellFormed_accept wellFormed slot isNext valid free
  | disconnected last ptr idle isLast occupied =>
    exact wellFormed_drop wellFormed _ last isLast occupied
  | started ptr client idle occupied found starts =>
    have isExec := (startsTransaction_eq_true.mp starts).1
    refine WellFormed.run (wellFormed.of_held (Held.trans (held_emit _ _ _)
      (held_setClient client.takeQueue found rfl fun req member => ?_))) ?_ isExec ?_
    · simp [Client.takeQueue] at member
    · intro other sameFound
      obtain rfl : client.takeQueue = other := by
        simpa [World.setClient] using sameFound
      rfl
    · exact wellFormed.queued ptr client found
  | served ptr client idle occupied found starts handles propagates =>
    exact (wellFormed.of_held (handles.held found fun ordinary _ => ordinary)).of_held (kept_propagate propagates).held
  | ran ptr req remaining call client client' running found handles found' =>
    have handled := wellFormed.of_held (handles.held found fun ordinary _ => ordinary)
    refine WellFormed.run (handled.of_held (held_setClient { client' with isQueued := false }
      found' rfl fun req => .inl)) ?_ ?_ ?_
    · intro other sameFound
      obtain rfl : { client' with isQueued := false } = other := by
        simpa [World.setClient] using sameFound
      rfl
    · exact wellFormed.isExec ⟨ptr, req :: remaining, call⟩ running
    · exact fun other member => wellFormed.remaining _ running other (List.mem_cons_of_mem _ member)
  | ended ptr call running propagates => exact wellFormed.of_held (kept_propagate propagates).held

/-- A client that runs its queue has left MULTI, in a run from any idle state. -/
theorem outsideMulti_step {s t : Server D} {event : Event} (outside : OutsideMulti s)
    (step : Step s event t) : OutsideMulti t := by
  intro transaction client running found
  cases step_cases outside step with
  | started ptr old idle occupied inHeap starts =>
    cases running
    obtain rfl : old.takeQueue = client := by simpa [World.setClient] using found
    rfl
  | ran ptr req remaining call old old' before inHeap handles inHeap' =>
    cases running
    obtain rfl : { old' with isQueued := false } = client := by
      simpa [World.setClient] using found
    rfl
  | _ => cases running

theorem outsideMulti_run {allowed : Server D → Event → Prop} {s t : Server D}
    (idle : s.running = none) (run : Run Step allowed s t) : OutsideMulti t := by
  refine run.invariant (fun _ _ _ outside _ => outsideMulti_step outside) ?_
  intro transaction client running
  simp [idle] at running

theorem wellFormed_run {allowed : Server D → Event → Prop} {s t : Server D}
    (run : Run Step allowed s t) (wellFormed : WellFormed s) : WellFormed t :=
  run.invariant (fun _ _ _ before _ => wellFormed_step before) wellFormed

/-- What every allowed step from a state with the invariant of all runs preserves. -/
theorem WellFormed.invariant {allowed : Server D → Event → Prop} {inv : Server D → Prop}
    {s t : Server D} (wellFormed : WellFormed s)
    (preserved : ∀ s event t, WellFormed s → inv s → allowed s event → Step s event t → inv t)
    (run : Run Step allowed s t) (atStart : inv s) : inv t := by
  induction run with
  | refl => exact atStart
  | tail before permitted last inductionHypothesis =>
    exact preserved _ _ _ (wellFormed_run before wellFormed) inductionHypothesis permitted last

/-! ## The start -/

/-- The state in which a master enters its loop. -/
structure AtLoopEntry (s : Server D) : Prop where
  running : s.running = none
  clients : ∀ slot, s.world.clients slot = none
  activeFds : s.world.activeFds = 1
  heap : ∀ ptr, s.world.heap ptr = none
  watchers : ∀ bucket, s.world.watchers bucket = none
  isMaster : s.world.serverConfig.masterFd = -1

omit [Externals D] in
theorem AtLoopEntry.wellFormed {s : Server D} (entry : AtLoopEntry s) : WellFormed s where
  inUse slot := by
    rw [entry.clients, entry.activeFds]
    simp only [ne_eq, not_true_eq_false, false_iff]
    omega
  started := by rw [entry.activeFds]
  allocated slot ptr inSlot := by simp [entry.clients] at inSlot
  distinct slot slot' ptr inSlot := by simp [entry.clients] at inSlot
  descriptors ptr client found := by simp [entry.heap] at found
  isMaster := entry.isMaster
  queued ptr client found := by simp [entry.heap] at found
  outside transaction client running := by simp [entry.running] at running
  isExec transaction running := by simp [entry.running] at running
  remaining transaction running := by simp [entry.running] at running

omit [Externals D] in
theorem idleServer_atLoopEntry : AtLoopEntry idleServer :=
  ⟨rfl, fun _ => rfl, rfl, fun _ => rfl, fun _ => rfl, rfl⟩

/-- What the replay keeps: the only client is the one on the stack. -/
structure BeforeLoop (fakeClient : ClientPtr) (w : World D) : Prop where
  clients : ∀ slot, w.clients slot = none
  activeFds : w.activeFds = 1
  heap : ∀ ptr, ptr ≠ fakeClient → w.heap ptr = none
  isMaster : w.serverConfig.masterFd = -1

omit [Externals D] in
theorem BeforeLoop.of_held {fakeClient : ClientPtr} {w w' : World D}
    (before : BeforeLoop fakeClient w) (held : Held Ordinary w w') : BeforeLoop fakeClient w' where
  clients slot := by rw [held.clients, before.clients]
  activeFds := held.activeFds.trans before.activeFds
  heap ptr other := held.free ptr (before.heap ptr other)
  isMaster := held.masterFd.trans before.isMaster

theorem beforeLoop_replayRequest {fakeClient : ClientPtr} {call : Call} {w w' : World D}
    (before : BeforeLoop fakeClient w) (run : replayRequest fakeClient call w = .ok ((), w')) :
    BeforeLoop fakeClient w' := by
  have loaded : BeforeLoop fakeClient (w.setClient fakeClient replayClient) := by
    refine ⟨before.clients, before.activeFds, fun ptr other => ?_, before.isMaster⟩
    exact (Function.update_of_ne other _ _).trans (before.heap ptr other)
  have found : (w.setClient fakeClient replayClient).heap fakeClient = some replayClient :=
    Function.update_self _ _ _
  unfold replayRequest at run
  rw [bind_of_ok (alter_run _ w)] at run
  have starts : startsTransaction replayClient call.request = false := by
    simp [startsTransaction, replayClient]
  exact loaded.of_held ((handle_cases found starts run).held found fun ordinary _ => ordinary)

section Start

variable {R : World D → World D → Prop}

/-- What every request of the file obeys, the replay obeys. -/
theorem obeys_replay (composes : Composes R) {fakeClient : ClientPtr}
    (requests : ∀ call w w', replayRequest fakeClient call w = .ok ((), w') → R w w') (content : Bytes) :
    Obeys R (fun _ => True) (replay fakeClient content : M D Unit) := by
  unfold replay
  rw [parseLoop_eq_calls]
  refine Obeys.bind composes (Obeys.forM composes _ fun call _ w => ?_) fun _ _ => ?_
  · exact ⟨fun _ w' run => requests call w w' run, fun _ _ => trivial⟩
  · split
    · exact Obeys.fault trivial
    · exact Obeys.pure composes ()

theorem obeys_rdbConfigHandler (composes : Composes R) (takesFresh : ∀ w, R w w.takeFresh)
    (files : ∀ w files, R w { w with files }) (configures : ∀ w name, R w (w.configure fun server => { server with appendfilename := name }))
    {fakeClient : ClientPtr}
    (requests : ∀ call w w', replayRequest fakeClient call w = .ok ((), w') → R w w') (directory : DataDirectory) :
    Obeys R (fun _ => True) (rdbConfigHandler directory fakeClient : M D Unit) := by
  have faults {α : Type} (f : Fault) : Obeys R (fun _ => True) (fault f : M D α) := Obeys.fault trivial
  have upperCopy (text : Bytes) : Obeys R (fun _ => True) (toUpperCopy text : M D Bytes) :=
    Obeys.bind composes (Obeys.draw takesFresh) fun _ _ => Obeys.pure composes _
  refine Obeys.bind composes (Obeys.observe composes _) fun server _ => ?_
  refine Obeys.bind composes (upperCopy _) fun appendOnly _ => ?_
  refine Obeys.ite (fun _ => Obeys.alter fun w => files w _) fun _ => ?_
  refine Obeys.bind composes (upperCopy _) fun appendOnly _ => ?_
  refine Obeys.ite (fun _ => ?_) fun _ => Obeys.pure composes ()
  refine Obeys.bind composes (Obeys.observe composes _) fun files _ => ?_
  cases files.manifest with
  | none => exact faults _
  | some manifest =>
    dsimp only
    cases activeAofName manifest with
    | none => exact faults _
    | some name =>
      refine Obeys.bind composes (Obeys.alter fun w => configures w _) fun _ _ => ?_
      cases files.aof with
      | none => exact faults _
      | some content => exact obeys_replay composes requests content

end Start

/-- A start of a master ends where the runs begin. -/
theorem start_atLoopEntry {serverConfig : RedisConfig} {files : Files} {clock : Nat → Int}
    {fresh : Nat → Bytes} {directory : DataDirectory} {fakeClient : ClientPtr} {w : World D}
    (isMaster : serverConfig.masterFd = -1)
    (run : start directory fakeClient (bootWorld serverConfig files clock fresh) =
      .ok ((), w)) : AtLoopEntry ⟨w, none⟩ := by
  obtain ⟨_, configured, configures, enters⟩ := bind_eq_ok.mp run
  let keeps (w w' : World D) : Prop := BeforeLoop fakeClient w → BeforeLoop fakeClient w'
  have composes : Composes keeps := ⟨fun _ => id, fun first second before => second (first before)⟩
  have related (w w' : World D) (clients : w'.clients = w.clients) (activeFds : w'.activeFds = w.activeFds)
      (heap : w'.heap = w.heap) (masterFd : w'.serverConfig.masterFd = w.serverConfig.masterFd) : keeps w w' :=
    fun before => ⟨fun slot => by rw [clients, before.clients], activeFds.trans before.activeFds,
      fun ptr other => by rw [heap, before.heap ptr other], masterFd.trans before.isMaster⟩
  have obeys : Obeys keeps (fun _ => True) (rdbConfigHandler directory fakeClient : M D Unit) :=
    obeys_rdbConfigHandler composes (fun w => related w _ rfl rfl rfl rfl) (fun w _ => related w _ rfl rfl rfl rfl)
      (fun w _ => related w _ rfl rfl rfl rfl)
      (fun _ _ _ run before => beforeLoop_replayRequest before run) directory
  have before := (obeys _).1 _ _ configures ⟨fun _ => rfl, rfl, fun _ _ => rfl, isMaster⟩
  simp only [enterLoop, alter_run, Except.ok.injEq, Prod.mk.injEq, true_and] at enters
  rw [← enters]
  refine ⟨rfl, before.clients, before.activeFds, fun ptr => ?_, fun _ => rfl, before.isMaster⟩
  by_cases isFake : ptr = fakeClient
  · rw [isFake]
    exact Function.update_self _ _ _
  · exact (Function.update_of_ne isFake _ _).trans (before.heap ptr isFake)

end RedisClone
