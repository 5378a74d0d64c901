import RedisClone.Verified.Watching

/-! # The end of a watch scope

`scope_end_clears`: EXEC, DISCARD and UNWATCH leave nothing of the client's watched keys behind, in the runs
in which no EXEC of a client with watched keys runs its queue.
-/

namespace RedisClone

open Exec

variable {D : Type}

/-! ## Requests that end a watch scope reach their end -/

/-- What follows a call of `handle` for a command that is no write command. -/
theorem propagate_readOnly_run {ptr : ClientPtr} {call : Call} {client : Client} {w : World D}
    (found : w.heap ptr = some client) (notMaster : client.fd ≠ w.serverConfig.masterFd)
    (readOnly : isWriteCmd call.request.command = false) :
    propagate ptr call w = .ok ((), w) := by
  unfold propagate
  rw [bind_of_ok (loadClient_found found),
    bind_of_ok (show config w = .ok (w.serverConfig, w) from rfl), if_neg notMaster]
  simp [readOnly, onlyIf, passDataToReplica]

theorem endsScope_cases {client : Client} {req : RespRequest} :
    endsScope client req = true ↔ req.command = .unwatch ∨
      client.isQueued = true ∧
        (req.command = .discard ∨ req.command = .exec ∧ client.isDirty = true) := by
  simp [endsScope]

/-- The state after EXEC or DISCARD left the transaction. -/
def World.leave (w : World D) (ptr : ClientPtr) (client : Client) (reply : Bytes) : World D :=
  ((w.setClient ptr client.leaveMulti).release ptr client.leaveMulti).emit client.fd reply

theorem heap_leave (w : World D) (ptr : ClientPtr) (client : Client) (reply : Bytes) :
    (w.leave ptr client reply).heap ptr = some client.leaveMulti.unwatched :=
  Function.update_self _ _ _

variable [Externals D]

section Leaving

variable {req : RespRequest} {ptr : ClientPtr} {client : Client} {w : World D}

omit [Externals D] in
theorem leave_deletes (releasable : Releasable w ptr client) :
    deleteWatchedKeys ptr (w.setClient ptr client.leaveMulti) =
      .ok ((), (w.setClient ptr client.leaveMulti).release ptr client.leaveMulti) :=
  deleteWatchedKeys_total (Function.update_self _ _ _) ⟨releasable.indexed, releasable.once⟩

theorem handle_abortedExec (found : w.heap ptr = some client) (isExec : req.command = .exec)
    (inMulti : client.isQueued = true) (dirty : client.isDirty = true)
    (releasable : Releasable w ptr client) :
    handle req ptr w = .ok ((), w.leave ptr client nilArray) := by
  rw [handle_exec found isExec, handleExec, bind_of_ok (loadClient_found found),
    if_neg (by simp [inMulti]), if_pos dirty, bind_of_ok (updateClient_found found)]
  change (do deleteWatchedKeys ptr; send client.fd nilArray : M D Unit)
    (w.setClient ptr client.leaveMulti) = _
  rw [bind_of_ok (leave_deletes releasable)]
  rfl

theorem handle_discard_run (found : w.heap ptr = some client) (isDiscard : req.command = .discard)
    (inMulti : client.isQueued = true)
    (releasable : Releasable w ptr client) :
    handle req ptr w = .ok ((), w.leave ptr client okReply) := by
  rw [handle_discard found isDiscard, handleDiscard, bind_of_ok (loadClient_found found),
    if_neg (by simp [inMulti]), bind_of_ok (updateClient_found found)]
  change (do deleteWatchedKeys ptr; send client.fd okReply : M D Unit)
    (w.setClient ptr client.leaveMulti) = _
  rw [bind_of_ok (leave_deletes releasable)]
  rfl

theorem handle_unwatch_run (found : w.heap ptr = some client) (isUnwatch : req.command = .unwatch)
    (releasable : Releasable w ptr client) :
    handle req ptr w = .ok ((), (w.release ptr client).emit client.fd okReply) := by
  rw [handle_unwatch found isUnwatch, handleUnwatch,
    bind_of_ok (deleteWatchedKeys_total found releasable),
    bind_of_ok (loadClient_found (show (w.release ptr client).heap ptr = some client.unwatched from
      Function.update_self _ _ _))]
  rfl

/-- A request that ends a watch scope reaches its end, and the client is still there. -/
theorem handle_endsScope (found : w.heap ptr = some client) (ends : endsScope client req = true)
    (releasable : Releasable w ptr client) :
    ∃ w' client', handle req ptr w = .ok ((), w') ∧ w'.heap ptr = some client' ∧
      client'.fd = client.fd ∧ w'.serverConfig.masterFd = w.serverConfig.masterFd := by
  have masterFd (w : World D) (keys : List Bytes) :
      (w.clearAll ptr keys).serverConfig.masterFd = w.serverConfig.masterFd :=
    congrArg RedisConfig.masterFd (clearAll_serverConfig w ptr keys)
  obtain isUnwatch | ⟨inMulti, isDiscard | ⟨isExec, dirty⟩⟩ := endsScope_cases.mp ends
  · exact ⟨_, _, handle_unwatch_run found isUnwatch releasable, Function.update_self _ _ _, rfl,
      masterFd _ _⟩
  · exact ⟨_, _, handle_discard_run found isDiscard inMulti releasable, heap_leave _ _ _ _, rfl,
      masterFd _ _⟩
  · exact ⟨_, _, handle_abortedExec found isExec inMulti dirty releasable, heap_leave _ _ _ _, rfl,
      masterFd _ _⟩

end Leaving

/-- A request that starts no transaction, as a step. -/
theorem step_of_handle {s : Server D} {slot : ClientSlot} {call : Call} {ptr : ClientPtr}
    {client client' : Client} {w' : World D} (idle : s.running = none)
    (occupied : s.world.clients slot = some ptr) (found : s.world.heap ptr = some client)
    (starts : startsTransaction client call.request = false)
    (run : handle call.request ptr s.world = .ok ((), w')) (found' : w'.heap ptr = some client')
    (notMaster : client'.fd ≠ w'.serverConfig.masterFd)
    (readOnly : isWriteCmd call.request.command = false) :
    Step s (.request slot call) ⟨w', none⟩ := by
  refine ⟨idle, ?_⟩
  obtain ⟨w, running⟩ := s
  obtain rfl : running = none := idle
  dsimp only at occupied found run
  change serve slot call w = _
  rw [serve, bind_of_ok (observe_run _ w)]
  simp only [occupied]
  rw [bind_of_ok (loadClient_found found), starts, if_neg (by decide), bind_of_ok run,
    bind_of_ok (propagate_readOnly_run found' notMaster readOnly)]
  rfl

/-- EXEC of a clean transaction, as a step. -/
theorem step_of_exec {s : Server D} {slot : ClientSlot} {call : Call} {ptr : ClientPtr}
    {client : Client} (idle : s.running = none) (occupied : s.world.clients slot = some ptr)
    (found : s.world.heap ptr = some client)
    (starts : startsTransaction client call.request = true) :
    ∃ t, Step s (.request slot call) t ∧ t.running = some ⟨ptr, client.requests, call⟩ := by
  obtain ⟨w, running⟩ := s
  obtain rfl : running = none := idle
  refine ⟨⟨(w.emit client.fd (arrayHeader client.requests.length)).setClient ptr client.takeQueue,
    some ⟨ptr, client.requests, call⟩⟩, ⟨rfl, ?_⟩, rfl⟩
  dsimp only at occupied found
  change serve slot call w = _
  rw [serve, bind_of_ok (observe_run _ w)]
  simp only [occupied]
  rw [bind_of_ok (loadClient_found found), starts, if_pos rfl, map_eq_pure_bind, beginTransaction,
    clearQueued, bind_assoc, bind_of_ok (loadClient_found found), bind_assoc,
    bind_of_ok (show send client.fd _ w = .ok ((), w.emit client.fd _) from rfl), bind_assoc,
    bind_of_ok (updateClient_found (w := w.emit client.fd _) found), bind_assoc,
    bind_of_ok (updateClient_found (Function.update_self ptr _ _))]
  simp [World.setClient, Client.takeQueue]

/-! ## Nothing is left of a watch scope -/

omit [Externals D] in
/-- The steps that keep the registrations of a client and its watched keys in step: its EXEC runs a queue
only without watched keys, its WATCH is one for fresh keys, and its block was not registered before it
was allocated. -/
def ScopesEnd (ptr : ClientPtr) (s : Server D) : Event → Prop
  | .connect _ new => new = ptr → ∀ bucket, some ptr ∉ s.world.watching bucket
  | .request slot call =>
    s.world.clients slot = some ptr → ∀ client ∈ s.world.heap ptr,
      (startsTransaction client call.request = true → client.watchKeys = []) ∧
        (call.request.command = .watch → client.isQueued = false →
          FreshKeys s.world ptr call.request.args)
  | _ => True

omit [Externals D] in
instance (ptr : ClientPtr) (s : Server D) (event : Event) : Decidable (ScopesEnd ptr s event) :=
  match event with
  | .connect _ new =>
    inferInstanceAs (Decidable (new = ptr → ∀ bucket, some ptr ∉ s.world.watching bucket))
  | .request slot call =>
    inferInstanceAs (Decidable (s.world.clients slot = some ptr → ∀ client ∈ s.world.heap ptr,
      (startsTransaction client call.request = true → client.watchKeys = []) ∧
        (call.request.command = .watch → client.isQueued = false →
          FreshKeys s.world ptr call.request.args)))
  | .poll _ | .timers | .disconnect _ | .proceed => .isTrue trivial

omit [Externals D] in
theorem ScopesEnd.fresh {ptr : ClientPtr} {s : Server D} {event : Event}
    (permitted : ScopesEnd ptr s event) : WatchesFresh ptr s event := by
  cases event with
  | request slot call => exact fun occupied client found => (permitted occupied client found).2
  | _ => trivial

/-- The client watches nothing: it has no keys and no mark, and no bucket holds it. -/
def Unwatched (ptr : ClientPtr) (w : World D) : Prop :=
  ∃ client, w.heap ptr = some client ∧ client.watchKeys = [] ∧ client.isDirty = false ∧
    ∀ bucket, some ptr ∉ w.watching bucket

omit [Externals D] in
theorem Matched.unwatched {ptr : ClientPtr} {w : World D} {client : Client} (matched : Matched ptr w)
    (found : w.heap ptr = some client) (empty : client.watchKeys = []) : Unwatched ptr w := by
  refine ⟨client, found, empty, Bool.eq_false_iff.mpr fun dirty => ?_, fun bucket registered => ?_⟩
  · exact matched.dirty client found dirty empty
  · obtain ⟨key, member, _⟩ := matched.covered client found bucket registered
    simp [empty] at member

theorem matched_step {s t : Server D} {event : Event} {ptr : ClientPtr} (wellFormed : WellFormed s)
    (matched : Matched ptr s.world) (permitted : ScopesEnd ptr s event) (step : Step s event t) :
    Matched ptr t.world := by
  have scope := scope_of_step wellFormed step
  generalize t.world = w' at scope
  cases scope with
  | kept kept =>
    refine ⟨fun client' found' bucket registered => ?_, fun client' found' dirty' => ?_⟩
    · obtain ⟨client, found, keys, _⟩ := kept.heap_back found'
      rw [kept.watching] at registered
      exact keys ▸ matched.covered client found bucket registered
    · obtain ⟨client, found, keys, mark⟩ := kept.heap_back found'
      rw [keys]
      -- marked before, or by this step through a bucket in which it has a key
      obtain dirty | notified := mark.mp dirty'
      · exact matched.dirty client found dirty
      · obtain ⟨bucket, registered⟩ := notified.registered
        obtain ⟨key, member, _⟩ := matched.covered client found bucket registered
        exact List.ne_nil_of_mem member
  | watched sender client occupied found isWatch outside registers =>
    by_cases isSender : ptr = sender
    · subst isSender
      rename_i slot call
      have heap' : w'.heap ptr = some { client with
          watchKeys := client.watchKeys ++ call.request.args } := by
        rw [registers.heap, Function.update_self]
      refine ⟨fun client' found' bucket registered => ?_, fun client' found' dirty' => ?_⟩
      · obtain rfl : _ = client' := Option.some.inj (heap'.symm.trans found')
        -- registered before this WATCH, or for one of its keys
        obtain old | ⟨_, key, member, inBucket⟩ := (mem_watching_registers registers).mp registered
        · obtain ⟨key, member, inBucket⟩ := matched.covered client found bucket old
          exact ⟨key, List.mem_append_left _ member, inBucket⟩
        · exact ⟨key, List.mem_append_right _ member, inBucket⟩
      · obtain rfl : _ = client' := Option.some.inj (heap'.symm.trans found')
        exact fun empty => matched.dirty client found dirty' (List.append_eq_nil_iff.mp empty).1
    · have heap' : w'.heap ptr = s.world.heap ptr := by
        rw [registers.heap, Function.update_of_ne isSender]
      refine ⟨fun client' found' bucket registered => ?_, fun client' found' => ?_⟩
      · obtain old | ⟨same, _⟩ := (mem_watching_registers registers).mp registered
        · exact matched.covered client' (heap' ▸ found') bucket old
        · exact absurd same isSender
      · exact matched.dirty client' (heap' ▸ found')
  | released sender client occupied found ends releases =>
    obtain ⟨released, heap, empty, clean⟩ := releases.heap
    by_cases isSender : ptr = sender
    · subst isSender
      have heap' : w'.heap ptr = some released := by rw [heap, Function.update_self]
      refine ⟨fun client' found' bucket registered => ?_, fun client' found' dirty' => ?_⟩
      · obtain ⟨before, notOwn⟩ := (releases.watching bucket ptr).mp registered
        -- the release takes every slot of a bucket that a watched key is in
        exact absurd ⟨rfl, matched.covered client found bucket before⟩ notOwn
      · obtain rfl : released = client' := Option.some.inj (heap'.symm.trans found')
        simp [clean] at dirty'
    · have heap' : w'.heap ptr = s.world.heap ptr := by
        rw [heap, Function.update_of_ne isSender]
      refine ⟨fun client' found' bucket registered => ?_, fun client' found' => ?_⟩
      · exact matched.covered client' (heap' ▸ found') bucket
          ((releases.watching bucket ptr).mp registered).1
      · exact matched.dirty client' (heap' ▸ found')
  | connected slot isNext free =>
    rename_i fd new
    by_cases isNew : new = ptr
    · subst isNew
      refine ⟨fun client' found' bucket registered => ?_, fun client' found' dirty' => ?_⟩
      -- the pointer of a new client may be one that was freed, which is in no list
      · exact absurd registered (permitted rfl bucket)
      · obtain rfl : newClient fd = client' := by simpa [World.accept] using found'
        simp [newClient] at dirty'
    · have heap' : (s.world.accept slot fd new).heap ptr = s.world.heap ptr :=
        Function.update_of_ne (Ne.symm isNew) _ _
      exact ⟨fun client' found' => matched.covered client' (heap' ▸ found'),
        fun client' found' => matched.dirty client' (heap' ▸ found')⟩
  | disconnected last other isLast occupied =>
    exact ⟨fun client' found' => matched.covered client' (heap_drop found').2,
      fun client' found' => matched.dirty client' (heap_drop found').2⟩

omit [Externals D] in
/-- The client sends no WATCH and stays. -/
def NoWatch (ptr : ClientPtr) (s : Server D) : Event → Prop
  | .disconnect slot => s.world.clients slot ≠ some ptr
  | .request slot call => s.world.clients slot = some ptr → call.request.command ≠ .watch
  | _ => True

/-- A client without watched keys. -/
def NoKeys (ptr : ClientPtr) (w : World D) : Prop :=
  ∃ client, w.heap ptr = some client ∧ client.watchKeys = []

theorem noKeys_step {s t : Server D} {event : Event} {ptr : ClientPtr} (wellFormed : WellFormed s)
    (noKeys : NoKeys ptr s.world) (noWatch : NoWatch ptr s event) (step : Step s event t) :
    NoKeys ptr t.world := by
  have scope := scope_of_step wellFormed step
  generalize t.world = w' at scope
  obtain ⟨client, found, empty⟩ := noKeys
  cases scope with
  | kept kept =>
    obtain ⟨client', found', keys, _⟩ := kept.heap ptr client found
    exact ⟨client', found', keys.trans empty⟩
  | watched sender other occupied inHeap isWatch outside registers =>
    have notSender : ptr ≠ sender := by
      rintro rfl
      exact noWatch occupied isWatch
    exact ⟨client, by rw [registers.heap, Function.update_of_ne notSender, found], empty⟩
  | released sender other occupied inHeap ends releases =>
    obtain ⟨released, heap, releasedEmpty, _⟩ := releases.heap
    by_cases isSender : ptr = sender
    · subst isSender
      exact ⟨released, by rw [heap, Function.update_self], releasedEmpty⟩
    · exact ⟨client, by rw [heap, Function.update_of_ne isSender, found], empty⟩
  | connected slot isNext free =>
    rename_i fd new
    -- the pointer is in use, and a new client gets a free one
    have notNew : ptr ≠ new := by
      rintro rfl
      simp [found] at free
    exact ⟨client, (Function.update_of_ne notNew _ _).trans found, empty⟩
  | disconnected last other isLast occupied =>
    have notDropped : ptr ≠ other := by
      rintro rfl
      exact noWatch occupied
    exact ⟨client, (Function.update_of_ne notDropped _ _).trans found, empty⟩

/-- The states of a run in which the watch scopes of a client end. -/
structure InScope (ptr : ClientPtr) (s : Server D) : Prop where
  wellFormed : WellFormed s
  tracked : Tracked ptr s.world
  matched : Matched ptr s.world

theorem inScope_step {s t : Server D} {event : Event} {ptr : ClientPtr} (inScope : InScope ptr s)
    (permitted : ScopesEnd ptr s event) (step : Step s event t) : InScope ptr t where
  wellFormed := wellFormed_step inScope.wellFormed step
  tracked := tracked_step inScope.wellFormed inScope.tracked permitted.fresh step
  matched := matched_step inScope.wellFormed inScope.matched permitted step

omit [Externals D] in
theorem AtLoopEntry.tracked {s : Server D} (entry : AtLoopEntry s) (ptr : ClientPtr) :
    Tracked ptr s.world :=
  ⟨fun client found => by simp [entry.heap] at found,
    fun bucket => by simp [World.watching, entry.watchers]⟩

omit [Externals D] in
theorem AtLoopEntry.inScope {s : Server D} (entry : AtLoopEntry s) (ptr : ClientPtr) :
    InScope ptr s :=
  ⟨entry.wellFormed, entry.tracked ptr, ⟨fun client found => by simp [entry.heap] at found,
    fun client found => by simp [entry.heap] at found⟩⟩

/-- From a state in which the client watches nothing, it watches nothing until its next WATCH, and its
EXEC runs the queue. -/
theorem unwatched_until_watch {ptr : ClientPtr} {s t : Server D} (inScope : InScope ptr s)
    (noKeys : NoKeys ptr s.world)
    (run : Run Step (fun s event => ScopesEnd ptr s event ∧ NoWatch ptr s event) s t) :
    Unwatched ptr t.world ∧ ∀ slot call client, t.running = none →
      t.world.clients slot = some ptr → t.world.heap ptr = some client →
      client.isQueued = true → call.request.command = .exec →
      ∃ u, Step t (.request slot call) u ∧ u.running = some ⟨ptr, client.requests, call⟩ := by
  have later : InScope ptr t :=
    run.invariant (fun _ _ _ before permitted => inScope_step before permitted.1) inScope
  have kept : (fun s : Server D => NoKeys ptr s.world) t :=
    inScope.wellFormed.invariant
      (fun _ _ _ wellFormed before permitted => noKeys_step wellFormed before permitted.2) run noKeys
  obtain ⟨client, found, empty⟩ := kept
  have unwatched := later.matched.unwatched found empty
  refine ⟨unwatched, fun slot call other idle occupied found' inMulti isExec => ?_⟩
  obtain ⟨client', inHeap, _, clean, _⟩ := unwatched
  obtain rfl : client' = other := by simpa [inHeap] using found'
  exact step_of_exec idle occupied found' (startsTransaction_eq_true.mpr ⟨isExec, inMulti, clean⟩)

omit [Externals D] in
theorem transactionCmd_of_endsScope {client : Client} {req : RespRequest}
    (ends : endsScope client req = true) : isTransactionCmd req.command = true := by
  obtain isUnwatch | ⟨_, isDiscard | ⟨isExec, _⟩⟩ := endsScope_cases.mp ends
  · rw [isUnwatch]; rfl
  · rw [isDiscard]; rfl
  · rw [isExec]; rfl

omit [Externals D] in
theorem not_refuses_of_endsScope {client : Client} {req : RespRequest}
    (ends : endsScope client req = true) : ¬ Refuses client req := by
  obtain isUnwatch | ⟨inMulti, isDiscard | ⟨isExec, _⟩⟩ := endsScope_cases.mp ends
  · simp [Refuses, isUnwatch]
  · simp [Refuses, isDiscard, inMulti]
  · simp [Refuses, isExec, inMulti]

theorem noKeys_of_endsScope {s t : Server D} {slot : ClientSlot} {call : Call} {ptr : ClientPtr}
    {client : Client} (wellFormed : WellFormed s) (occupied : s.world.clients slot = some ptr)
    (found : s.world.heap ptr = some client) (ends : endsScope client call.request = true)
    (step : Step s (.request slot call) t) : NoKeys ptr t.world := by
  cases step_cases wellFormed.outside step with
  | quiet idle noRequest kept => exact absurd rfl (noRequest slot call)
  | started ptr' client' idle occupied' found' starts =>
    obtain rfl : ptr' = ptr := by simpa [occupied] using occupied'.symm
    obtain rfl : client' = client := by simpa [found] using found'.symm
    obtain ⟨isExec, inMulti, clean⟩ := startsTransaction_eq_true.mp starts
    simp [endsScope, isExec, clean] at ends
  | served ptr' client' idle occupied' found' starts handles propagates =>
    obtain rfl : ptr' = ptr := by simpa [occupied] using occupied'.symm
    obtain rfl : client' = client := by simpa [found] using found'.symm
    have same := (propagate_same propagates).2.2
    rename_i handled w'
    -- what is passed on behind the call changes no client
    suffices NoKeys ptr' handled by
      obtain ⟨client, inHeap, empty⟩ := this
      exact ⟨client, by rw [same]; exact inHeap, empty⟩
    cases handles with
    | queued ordinary inMulti room => simp [transactionCmd_of_endsScope ends] at ordinary
    | opened isMulti outside => simp [endsScope, isMulti] at ends
    | refused text reason => exact absurd reason (not_refuses_of_endsScope ends)
    | ignored isWatch noKey => simp [endsScope, isWatch] at ends
    | watched isWatch outside run => simp [endsScope, isWatch] at ends
    | unwatched fd isUnwatch run =>
      obtain ⟨client, _, rfl⟩ := deleteWatchedKeys_run run
      exact ⟨client.unwatched, Function.update_self _ _ _, rfl⟩
    | left reply inMulti isEnd run =>
      obtain ⟨client, _, rfl⟩ := deleteWatchedKeys_run run
      exact ⟨client.unwatched, Function.update_self _ _ _, rfl⟩
    | dispatched reaches run =>
      have ordinary := (reachesArm_eq_true.mp reaches).1
      simp [transactionCmd_of_endsScope ends] at ordinary

theorem noKeys_of_starts {s t : Server D} {slot : ClientSlot} {call : Call} {ptr : ClientPtr}
    {client : Client} (wellFormed : WellFormed s) (occupied : s.world.clients slot = some ptr)
    (found : s.world.heap ptr = some client) (starts : startsTransaction client call.request = true)
    (empty : client.watchKeys = []) (step : Step s (.request slot call) t) :
    NoKeys ptr t.world := by
  cases step_cases wellFormed.outside step with
  | quiet idle noRequest kept => exact absurd rfl (noRequest slot call)
  | started ptr' client' idle occupied' found' starts' =>
    obtain rfl : ptr' = ptr := by simpa [occupied] using occupied'.symm
    obtain rfl : client' = client := by simpa [found] using found'.symm
    exact ⟨client'.takeQueue, Function.update_self _ _ _, empty⟩
  | served ptr' client' idle occupied' found' starts' handles propagates =>
    obtain rfl : ptr' = ptr := by simpa [occupied] using occupied'.symm
    obtain rfl : client' = client := by simpa [found] using found'.symm
    simp [starts] at starts'

/-- In a run in which no EXEC of a client with watched keys runs its queue, every EXEC and every DISCARD of
a transaction and every UNWATCH leaves the client without watched keys, unmarked and registered nowhere, and
until its next WATCH its EXEC runs the queue. -/
theorem scope_end_clears {s t : Server D} {slot : ClientSlot} {call : Call} {ptr : ClientPtr}
    {client : Client} (entry : AtLoopEntry s) (run : Run Step (ScopesEnd ptr) s t)
    (idle : t.running = none) (occupied : t.world.clients slot = some ptr)
    (found : t.world.heap ptr = some client) (permitted : ScopesEnd ptr t (.request slot call))
    (ends : endsScope client call.request = true ∨
      startsTransaction client call.request = true) :
    (endsScope client call.request = true → ∃ u, Step t (.request slot call) u) ∧
      ∀ u v, Step t (.request slot call) u → Run Step (fun _ event => event = .proceed) u v →
        v.running = none → Unwatched ptr v.world ∧
        ∀ w, Run Step (fun s event => ScopesEnd ptr s event ∧ NoWatch ptr s event) v w →
          Unwatched ptr w.world ∧ ∀ slot' call' client', w.running = none →
            w.world.clients slot' = some ptr → w.world.heap ptr = some client' →
            client'.isQueued = true → call'.request.command = .exec →
            ∃ x, Step w (.request slot' call') x ∧
              x.running = some ⟨ptr, client'.requests, call'⟩ := by
  have inScope : InScope ptr t := run.invariant (fun _ _ _ => inScope_step) (entry.inScope ptr)
  constructor
  · intro leaves
    have indexed (key : Bytes) (member : key ∈ client.watchKeys) : bucketOf key ≠ none := by
      obtain ⟨bucket, inBucket, _⟩ := inScope.tracked.indexed client found key member
      simp [inBucket]
    obtain ⟨w', client', handles, found', sameFd, sameMaster⟩ :=
      handle_endsScope found leaves ⟨indexed, fun _ _ bucket _ => inScope.tracked.once bucket⟩
    have notStarts : startsTransaction client call.request = false := by
      refine Bool.eq_false_iff.mpr fun starts => ?_
      obtain ⟨isExec, _, clean⟩ := startsTransaction_eq_true.mp starts
      simp [endsScope, isExec, clean] at leaves
    -- none of the three commands is a write, so nothing is passed on behind the call
    have readOnly : isWriteCmd call.request.command = false := by
      obtain isUnwatch | ⟨_, isDiscard | ⟨isExec, _⟩⟩ := endsScope_cases.mp leaves
      · rw [isUnwatch]; rfl
      · rw [isDiscard]; rfl
      · rw [isExec]; rfl
    refine ⟨_, step_of_handle idle occupied found notStarts handles found' ?_ readOnly⟩
    rw [sameFd, sameMaster]
    exact inScope.wellFormed.notMaster found
  · intro u v step transaction _
    have afterStep : InScope ptr u := inScope_step inScope permitted step
    have noKeys : NoKeys ptr u.world := by
      obtain leaves | starts := ends
      · exact noKeys_of_endsScope inScope.wellFormed occupied found leaves step
      · exact noKeys_of_starts inScope.wellFormed occupied found starts
          ((permitted occupied client found).1 starts) step
    -- the steps of the queue send no WATCH
    have runs : Run Step (fun s event => ScopesEnd ptr s event ∧ NoWatch ptr s event) u v :=
      transaction.mono fun s event isProceed => by subst isProceed; exact ⟨trivial, trivial⟩
    exact ⟨(unwatched_until_watch afterStep noKeys runs).1,
      fun w later => unwatched_until_watch afterStep noKeys (runs.trans later)⟩

/-- The first client watches a key and opens a transaction. -/
def watchAndOpen : List Event :=
  [.connect 5 0, arrival firstSlot [CString.lit "WATCH", CString.lit "k"],
    arrival firstSlot [CString.lit "MULTI"]]

/-- DISCARD after WATCH and MULTI. -/
theorem scope_end_clears_discard :
    ∃ t u : Server Int, Step t (arrival firstSlot [CString.lit "DISCARD"]) u ∧
      Unwatched 0 u.world := by
  let discard := arrival firstSlot [CString.lit "DISCARD"]
  obtain ⟨t, run, checked⟩ := exists_run_of_play
    (show (play (ScopesEnd 0) idleServer watchAndOpen).any
      (fun t => decide (t.running = none) && (decide (t.world.clients firstSlot = some 0) &&
        (decide (ScopesEnd 0 t discard) && ((t.world.heap 0).any fun client =>
          endsScope client (requestOf [CString.lit "DISCARD"]) && (next t discard).any fun u =>
            decide (u.running = none))))) = true by decide +kernel)
  simp only [Bool.and_eq_true, decide_eq_true_eq, Option.any_eq_true] at checked
  obtain ⟨idle, occupied, permitted, client, found, ends, u, isNext, done⟩ := checked
  have cleared := (scope_end_clears idleServer_atLoopEntry run idle occupied found permitted
    (.inl ends)).2 u u (next_step isNext) (.refl u) done
  exact ⟨t, u, next_step isNext, cleared.1⟩

/-- EXEC of a client that watches a key runs the queue and leaves the client registered. -/
theorem exec_keeps_watching :
    ¬ ∀ (t u v : Server Int) (slot : ClientSlot) (call : Call) (ptr : ClientPtr) (client : Client),
      Runs idleServer t → t.world.clients slot = some ptr → t.world.heap ptr = some client →
      (endsScope client call.request = true ∨ startsTransaction client call.request = true) →
      Step t (.request slot call) u → Run Step (fun _ event => event = .proceed) u v →
      v.running = none → Unwatched ptr v.world := by
  intro clears
  let exec := arrival firstSlot [CString.lit "EXEC"]
  obtain ⟨t, run, checked⟩ := exists_run_of_play
    (show (play (fun _ _ => True) idleServer watchAndOpen).any
      (fun t => decide (t.world.clients firstSlot = some 0) && ((t.world.heap 0).any fun client =>
        startsTransaction client (requestOf [CString.lit "EXEC"]) && (next t exec).any fun u =>
          (next u .proceed).any fun v => decide (v.running = none) &&
            (v.world.heap 0).any fun client => decide (client.watchKeys ≠ []))) = true by
      decide +kernel)
  simp only [Bool.and_eq_true, decide_eq_true_eq, Option.any_eq_true] at checked
  obtain ⟨occupied, client, found, starts, u, isNext, v, isLast, done, after, inHeap, watches⟩ := checked
  obtain ⟨final, foundFinal, empty, _⟩ := clears t u v firstSlot _ 0 client run occupied found
    (.inr starts) (next_step isNext) (.single rfl (next_step isLast)) done
  obtain rfl : after = final := by simpa [inHeap] using foundFinal
  exact watches empty

end RedisClone
