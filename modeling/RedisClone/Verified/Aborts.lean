import RedisClone.Verified.Transactions
import RedisClone.Verified.Writes

/-! # What a change of a watched key does to EXEC, and what marks a client

`marks_iff`: a step marks a client without a change of one of its keys exactly where a command notifies a
client and changes none of that client's keys.  `change_aborts`: a change of a watched key by any command
other than BLPOP and GEOSEARCH marks the client and makes its next EXEC reply with the null array.
-/

namespace RedisClone

open Exec

variable {D : Type} [Externals D]

/-! ## Notified clients -/

/-- A command that a step runs marks the clients that it notifies. -/
theorem dirty_of_notified {s t : Server D} {event : Event} {sender ptr : ClientPtr} {req : RespRequest}
    {client : Client} (outside : OutsideMulti s) (step : Step s event t)
    (dispatches : Dispatches s event sender req) (found : s.world.heap ptr = some client)
    (notified : Notified s.world req ptr) :
    ∃ client', t.world.heap ptr = some client' ∧ client'.watchKeys = client.watchKeys ∧
      client'.isDirty = true := by
  obtain ⟨handled, run, kept⟩ := dispatch_of_step outside step dispatches
  obtain ⟨after, foundAfter, keys, dirty⟩ := dispatch_dirty run found
  obtain ⟨client', found', session⟩ := kept.heap ptr after foundAfter
  exact ⟨client', found', session.watchKeys.trans keys, session.dirty (dirty.mpr (.inr notified))⟩

/-! ## Marks without a change -/

/-- The step runs a command that notifies a client and changes none of the client's keys. -/
def MarksIdly (s : Server D) (event : Event) : Prop :=
  ∃ sender req ptr client, Dispatches s event sender req ∧ Notified s.world req ptr ∧
    s.world.heap ptr = some client ∧ client.isDirty = false ∧
    ∀ key ∈ client.watchKeys, ¬ Affects (s.world.noted req) req key

/-- In every reachable state of a master, every client that a step marks watches a key that the step changed,
exactly where the step does not mark idly. -/
theorem marks_iff {s t u : Server D} {event : Event} (entry : AtLoopEntry s) (run : Runs s t)
    (step : Step t event u) :
    (∀ ptr client client', t.world.heap ptr = some client → client.isDirty = false →
        u.world.heap ptr = some client' → client'.isDirty = true →
        ∃ key ∈ client.watchKeys, binding u.world.table key ≠ binding t.world.table key) ↔
      ¬ MarksIdly t event := by
  have wellFormed := wellFormed_run run entry.wellFormed
  constructor
  · rintro justified ⟨sender, req, ptr, client, dispatches, notified, found, clean, unaffected⟩
    obtain ⟨client', found', _, dirty⟩ :=
      dirty_of_notified wellFormed.outside step dispatches found notified
    obtain ⟨key, watched, changed⟩ := justified ptr client client' found clean found' dirty
    obtain ⟨sender', req', dispatches', affects⟩ :=
      (step_affects_iff wellFormed.outside step key).mp changed
    obtain ⟨rfl, rfl⟩ := dispatches_unique dispatches dispatches'
    exact unaffected key watched affects
  · intro justified ptr client client' found clean found' dirty
    have scope := scope_of_step wellFormed step
    -- only the command of a step marks a client
    have notified : NotifiedAt t event ptr := by
      generalize u.world = w' at scope found'
      cases scope with
      | kept kept =>
        obtain ⟨before, foundBefore, _, mark⟩ := kept.heap_back found'
        obtain rfl : client = before := Option.some.inj (found.symm.trans foundBefore)
        exact (mark.mp dirty).resolve_left (by simp [clean])
      | watched sender other occupied inHeap isWatch outside registers =>
        rw [registers.heap] at found'
        by_cases isSender : ptr = sender
        · subst isSender
          obtain rfl : client = other := Option.some.inj (found.symm.trans inHeap)
          rw [Function.update_self, Option.some.injEq] at found'
          rw [← found'] at dirty
          simp [clean] at dirty
        · rw [Function.update_of_ne isSender, found, Option.some.injEq] at found'
          rw [← found'] at dirty
          simp [clean] at dirty
      | released sender other occupied inHeap ends releases =>
        obtain ⟨released, heap, _, releasedClean⟩ := releases.heap
        rw [heap] at found'
        by_cases isSender : ptr = sender
        · subst isSender
          rw [Function.update_self, Option.some.injEq] at found'
          rw [← found', releasedClean] at dirty
          simp at dirty
        · rw [Function.update_of_ne isSender, found, Option.some.injEq] at found'
          rw [← found'] at dirty
          simp [clean] at dirty
      | connected slot isNext free =>
        rename_i fd new
        have notNew : ptr ≠ new := by
          rintro rfl
          simp [found] at free
        have same := (Function.update_of_ne notNew _ _).symm.trans found'
        rw [found, Option.some.injEq] at same
        rw [← same] at dirty
        simp [clean] at dirty
      | disconnected last other isLast occupied =>
        have same := (heap_drop found').2
        rw [found, Option.some.injEq] at same
        rw [← same] at dirty
        simp [clean] at dirty
    obtain ⟨sender, req, dispatches, isNotified⟩ := notified
    by_contra unchanged
    refine justified ⟨sender, req, ptr, client, dispatches, isNotified, found, clean, ?_⟩
    intro key watched affects
    exact unchanged ⟨key, watched, (step_affects_iff wellFormed.outside step key).mpr
      ⟨sender, req, dispatches, affects⟩⟩

/-- Two clients connect. -/
def twoClients : List Event := [.connect 5 0, .connect 6 1]

/-- The first client watches a key. -/
def watchKeyK : Event := arrival firstSlot [CString.lit "WATCH", CString.lit "k"]

/-- SET by a second client marks the first, which watches the key. -/
theorem marks_iff_set : ∃ t u : Server Int, ∃ key,
    binding u.world.table key ≠ binding t.world.table key ∧
      ∃ client, t.world.heap 0 = some client ∧ key ∈ client.watchKeys := by
  let set := arrival secondSlot [CString.lit "SET", CString.lit "k", CString.lit "v"]
  obtain ⟨t, run, checked⟩ := exists_run_of_play
    (show (play (fun _ _ => True) idleServer (twoClients ++ [watchKeyK])).any
      (fun t => (t.world.heap 0).any fun client => decide (client.isDirty = false) &&
        (next t set).any fun u => decide (binding u.world.table (CString.lit "k") ≠
          binding t.world.table (CString.lit "k")) && (decide (CString.lit "k" ∈ client.watchKeys) &&
            (decide (∀ bucket ∈ bucketOf (CString.lit "k"), t.world.watching bucket = [some 0]) &&
              (u.world.heap 0).any fun client' => decide (client'.isDirty = true)))) = true by
      decide +kernel)
  simp only [Bool.and_eq_true, decide_eq_true_eq, Option.any_eq_true] at checked
  obtain ⟨client, found, clean, u, isNext, changed, watched, only, client', found', dirty⟩ := checked
  have justified : ¬ MarksIdly t set := by
    rintro ⟨sender, req, ptr, other, dispatches, ⟨_, key, bucket, isKey, inBucket, registered⟩,
      foundOther, _, unaffected⟩
    obtain ⟨sender', req', dispatches', affects⟩ := (step_affects_iff
      (wellFormed_run run idleServer_atLoopEntry.wellFormed).outside (next_step isNext) _).mp changed
    obtain ⟨rfl, rfl⟩ := dispatches_unique dispatches dispatches'
    obtain ⟨_, rfl⟩ := dispatches_arrival dispatches
    obtain rfl : CString.lit "k" = key := Option.some.inj isKey
    -- only the first client is registered for the key
    have isFirst : ptr = 0 := by simpa [only bucket inBucket] using registered
    subst isFirst
    obtain rfl : client = other := Option.some.inj (found.symm.trans foundOther)
    exact unaffected _ watched affects
  obtain ⟨key, isWatched, isChanged⟩ := (marks_iff idleServer_atLoopEntry run
    (next_step isNext)).mpr justified 0 client client' found clean found' dirty
  exact ⟨t, u, key, isChanged, client, found, isWatched⟩

/-- ZRANK changes nothing and marks a client. -/
theorem zrank_marks :
    ¬ ∀ (t u : Server Int) (event : Event) (ptr : ClientPtr) (client client' : Client),
      Runs idleServer t → Step t event u → t.world.heap ptr = some client →
      client.isDirty = false → u.world.heap ptr = some client' → client'.isDirty = true →
      ∃ key ∈ client.watchKeys, binding u.world.table key ≠ binding t.world.table key := by
  intro justified
  let rank := arrival secondSlot [CString.lit "ZRANK", CString.lit "k", CString.lit "m"]
  obtain ⟨t, run, checked⟩ := exists_run_of_play
    (show (play (fun _ _ => True) idleServer (twoClients ++ [watchKeyK])).any
      (fun t => (t.world.heap 0).any fun client => decide (client.isDirty = false) &&
        (next t rank).any fun u => (u.world.heap 0).any fun client' =>
          decide (client'.isDirty = true) && decide (∀ key ∈ client.watchKeys,
            binding u.world.table key = binding t.world.table key)) = true by
      decide +kernel)
  simp only [Bool.and_eq_true, decide_eq_true_eq, Option.any_eq_true] at checked
  obtain ⟨client, found, clean, u, isNext, client', found', dirty, same⟩ := checked
  obtain ⟨key, watched, changed⟩ :=
    justified t u rank 0 client client' run (next_step isNext) found clean found' dirty
  exact changed (same key watched)

/-! ## A change of a watched key -/

omit [Externals D] in
/-- The client stays and issues no EXEC, no DISCARD and no UNWATCH. -/
def KeepsScope (ptr : ClientPtr) (s : Server D) : Event → Prop
  | .disconnect slot => s.world.clients slot ≠ some ptr
  | .request slot call => s.world.clients slot = some ptr →
    call.request.command ≠ .exec ∧ call.request.command ≠ .discard ∧
      call.request.command ≠ .unwatch
  | _ => True

omit [Externals D] in
instance (ptr : ClientPtr) (s : Server D) (event : Event) : Decidable (KeepsScope ptr s event) :=
  match event with
  | .disconnect slot => inferInstanceAs (Decidable (s.world.clients slot ≠ some ptr))
  | .request slot call => inferInstanceAs (Decidable (s.world.clients slot = some ptr →
      call.request.command ≠ .exec ∧ call.request.command ≠ .discard ∧
        call.request.command ≠ .unwatch))
  | .poll _ | .timers | .connect _ _ | .proceed => .isTrue trivial

omit [Externals D] in
instance (ptr : ClientPtr) (s : Server D) (event : Event) : Decidable (WatchesFresh ptr s event) :=
  match event with
  | .request slot call => inferInstanceAs (Decidable (s.world.clients slot = some ptr →
      ∀ client ∈ s.world.heap ptr, call.request.command = .watch → client.isQueued = false →
        FreshKeys s.world ptr call.request.args))
  | .poll _ | .timers | .connect _ _ | .disconnect _ | .proceed => .isTrue trivial

/-- A client that keeps its watch scope keeps its watched keys, and stays marked. -/
theorem watched_step {s t : Server D} {event : Event} {ptr : ClientPtr} {client : Client}
    (wellFormed : WellFormed s) (found : s.world.heap ptr = some client)
    (keeps : KeepsScope ptr s event) (step : Step s event t) :
    ∃ client', t.world.heap ptr = some client' ∧
      (∀ key ∈ client.watchKeys, key ∈ client'.watchKeys) ∧
      (client.isDirty = true → client'.isDirty = true) := by
  have scope := scope_of_step wellFormed step
  generalize t.world = w' at scope
  cases scope with
  | kept kept =>
    obtain ⟨client', found', keys, dirty⟩ := kept.heap ptr client found
    exact ⟨client', found', fun key watched => keys ▸ watched, fun marked => dirty.mpr (.inl marked)⟩
  | watched sender other occupied inHeap isWatch outside registers =>
    by_cases isSender : ptr = sender
    · subst isSender
      obtain rfl : client = other := Option.some.inj (found.symm.trans inHeap)
      refine ⟨{ client with watchKeys := client.watchKeys ++ _ },
        by rw [registers.heap, Function.update_self], fun key watched => ?_, id⟩
      exact List.mem_append_left _ watched
    · exact ⟨client, by rw [registers.heap, Function.update_of_ne isSender, found],
        fun _ watched => watched, id⟩
  | released sender other occupied inHeap ends releases =>
    obtain ⟨released, heap, _⟩ := releases.heap
    -- only EXEC, DISCARD and UNWATCH release, and the client sends none of them
    have notSender : ptr ≠ sender := by
      rintro rfl
      obtain ⟨notExec, notDiscard, notUnwatch⟩ := keeps occupied
      obtain isUnwatch | ⟨_, isDiscard | ⟨isExec, _⟩⟩ := endsScope_cases.mp ends
      · exact notUnwatch isUnwatch
      · exact notDiscard isDiscard
      · exact notExec isExec
    exact ⟨client, by rw [heap, Function.update_of_ne notSender, found], fun _ watched => watched, id⟩
  | connected slot isNext free =>
    rename_i fd new
    have notNew : ptr ≠ new := by
      rintro rfl
      simp [found] at free
    exact ⟨client, (Function.update_of_ne notNew _ _).trans found, fun _ watched => watched, id⟩
  | disconnected last other isLast occupied =>
    have notDropped : ptr ≠ other := by
      rintro rfl
      exact keeps occupied
    exact ⟨client, (Function.update_of_ne notDropped _ _).trans found, fun _ watched => watched, id⟩

/-- A client in its watch scope, marked or not. -/
structure InWatch (ptr : ClientPtr) (key : Bytes) (marked : Prop) (s : Server D) : Prop where
  wellFormed : WellFormed s
  tracked : Tracked ptr s.world
  watches : ∃ client, s.world.heap ptr = some client ∧ key ∈ client.watchKeys ∧
    (marked → client.isDirty = true)

theorem inWatch_step {s t : Server D} {event : Event} {ptr : ClientPtr} {key : Bytes} {marked : Prop}
    (inWatch : InWatch ptr key marked s) (fresh : WatchesFresh ptr s event)
    (keeps : KeepsScope ptr s event) (step : Step s event t) : InWatch ptr key marked t where
  wellFormed := wellFormed_step inWatch.wellFormed step
  tracked := tracked_step inWatch.wellFormed inWatch.tracked fresh step
  watches := by
    obtain ⟨client, found, watched, dirty⟩ := inWatch.watches
    obtain ⟨client', found', keys, mark⟩ := watched_step inWatch.wellFormed found keeps step
    exact ⟨client', found', keys key watched, fun isMarked => mark (dirty isMarked)⟩

/-- The step runs a BLPOP or a GEOSEARCH that changes what the key is bound to. -/
def ChangesSilently (s : Server D) (event : Event) (key : Bytes) : Prop :=
  ∃ sender req, Dispatches s event sender req ∧
    (req.command = .blpop ∨ req.command = .geosearch) ∧ Affects (s.world.noted req) req key

theorem notifies_of_alters {w : World D} {req : RespRequest} (alters : Alters w req)
    (notBlpop : req.command ≠ .blpop) (notGeosearch : req.command ≠ .geosearch) :
    notifies req.command = true := by
  unfold Alters at alters
  cases command : req.command <;> simp_all [notifies]

/-- A change of a watched key by a command that notifies marks the client. -/
theorem marked_of_change {s t : Server D} {event : Event} {ptr : ClientPtr} {key : Bytes}
    {marked : Prop} (inWatch : InWatch ptr key marked s) (fresh : WatchesFresh ptr s event)
    (keeps : KeepsScope ptr s event) (step : Step s event t)
    (changed : binding t.world.table key ≠ binding s.world.table key)
    (notifies : ¬ ChangesSilently s event key) : InWatch ptr key True t := by
  have after := inWatch_step inWatch fresh keeps step
  refine ⟨after.wellFormed, after.tracked, ?_⟩
  obtain ⟨client, found, watched, _⟩ := inWatch.watches
  obtain ⟨sender, req, dispatches, affects⟩ :=
    (step_affects_iff inWatch.wellFormed.outside step key).mp changed
  have isNotifying := notifies_of_alters affects.1
    (fun isBlpop => notifies ⟨sender, req, dispatches, .inl isBlpop, affects⟩)
    (fun isGeosearch => notifies ⟨sender, req, dispatches, .inr isGeosearch, affects⟩)
  obtain ⟨first, isFirst, reason⟩ := affects.2
  -- the key is in the bucket that the command notifies
  have sameBucket : bucketOf key = bucketOf first := by
    obtain rfl | ⟨_, lost⟩ := reason
    · rfl
    · exact lost.2.1
  obtain ⟨bucket, inBucket, registered⟩ := inWatch.tracked.indexed client found key watched
  obtain ⟨client', found', keys, dirty⟩ := dirty_of_notified inWatch.wellFormed.outside step dispatches
    found ⟨isNotifying, first, bucket, isFirst, sameBucket ▸ inBucket, registered⟩
  exact ⟨client', found', keys ▸ watched, fun _ => dirty⟩

/-- The EXEC of a marked client in its watch scope executes nothing and replies with the null array. -/
theorem exec_of_marked {s : Server D} {slot : ClientSlot} {call : Call} {ptr : ClientPtr}
    {key : Bytes} {client : Client} (inWatch : InWatch ptr key True s) (idle : s.running = none)
    (occupied : s.world.clients slot = some ptr) (found : s.world.heap ptr = some client)
    (inMulti : client.isQueued = true) (isExec : call.request.command = .exec) :
    ∃ t, Step s (.request slot call) t ∧ t.running = none ∧ t.world.table = s.world.table ∧
      t.world.executed = s.world.executed ∧
      t.world.sent = s.world.sent ++ [(client.fd, nilArray)] := by
  obtain ⟨other, inHeap, _, dirty⟩ := inWatch.watches
  obtain rfl : client = other := Option.some.inj (found.symm.trans inHeap)
  have indexed (key : Bytes) (member : key ∈ client.watchKeys) : bucketOf key ≠ none := by
    obtain ⟨bucket, inBucket, _⟩ := inWatch.tracked.indexed client found key member
    simp [inBucket]
  have handles := handle_abortedExec found isExec inMulti (dirty trivial)
    ⟨indexed, fun _ _ bucket _ => inWatch.tracked.once bucket⟩
  have starts : startsTransaction client call.request = false := by
    simp [startsTransaction, dirty trivial]
  have notMaster : client.fd ≠ (s.world.leave ptr client nilArray).serverConfig.masterFd := by
    have same : (s.world.leave ptr client nilArray).serverConfig = s.world.serverConfig :=
      clearAll_serverConfig _ _ _
    rw [same]
    exact inWatch.wellFormed.notMaster found
  have data := sameData_clearAll (s.world.setClient ptr client.leaveMulti) ptr client.watchKeys
  refine ⟨_, step_of_handle idle occupied found starts handles (heap_leave _ _ _ _) notMaster
    (by rw [isExec]; rfl), rfl, data.table, data.executed, ?_⟩
  simp [World.leave, World.release, World.emit, World.setClient, sent_clearAll]

/-- After WATCH outside MULTI the client is in its watch scope for every key that it named. -/
theorem inWatch_of_watch {s t : Server D} {slot : ClientSlot} {call : Call}
    {ptr : ClientPtr} {client : Client} {key : Bytes} (wellFormed : WellFormed s)
    (tracked : Tracked ptr s.world) (occupied : s.world.clients slot = some ptr)
    (found : s.world.heap ptr = some client) (isWatch : call.request.command = .watch)
    (outside : client.isQueued = false) (named : key ∈ call.request.args)
    (fresh : WatchesFresh ptr s (.request slot call)) (step : Step s (.request slot call) t) :
    InWatch ptr key False t where
  wellFormed := wellFormed_step wellFormed step
  tracked := tracked_step wellFormed tracked fresh step
  watches := by
    cases step_cases wellFormed.outside step with
    | quiet idle noRequest kept => exact absurd rfl (noRequest slot call)
    | started ptr' client' idle occupied' found' starts =>
      have isExec := (startsTransaction_eq_true.mp starts).1
      simp [isWatch] at isExec
    | served ptr' client' idle occupied' found' starts handles propagates =>
      obtain rfl : ptr = ptr' := Option.some.inj (occupied.symm.trans occupied')
      obtain rfl : client = client' := Option.some.inj (found.symm.trans found')
      have same := (propagate_same propagates).2.2
      cases handles with
      | queued ordinary inMulti room => simp [isWatch, isTransactionCmd] at ordinary
      | opened isMulti _ => simp [isWatch] at isMulti
      | refused text reason => simp [Refuses, isWatch, outside] at reason
      | ignored _ noKey =>
        have supplied := call.request.supplied
        have first := List.length_pos_of_mem named
        omega
      | watched _ _ run =>
        have registers := forM_watchKey_run found run
        refine ⟨{ client with watchKeys := client.watchKeys ++ call.request.args }, ?_, ?_, False.elim⟩
        · rw [same]
          exact registers.heap ▸ Function.update_self _ _ _
        · exact List.mem_append_right _ named
      | unwatched fd isUnwatch run => simp [isWatch] at isUnwatch
      | left reply inMulti isEnd run => simp [isWatch] at isEnd
      | dispatched reaches run =>
        have ordinary := (reachesArm_eq_true.mp reaches).1
        simp [isWatch, isTransactionCmd] at ordinary

/-- The client sends what keeps its watch scope, and no WATCH for a key in a bucket that holds it. -/
def StaysInWatch (ptr : ClientPtr) (s : Server D) (event : Event) : Prop :=
  WatchesFresh ptr s event ∧ KeepsScope ptr s event

omit [Externals D] in
instance (ptr : ClientPtr) (s : Server D) (event : Event) : Decidable (StaysInWatch ptr s event) :=
  inferInstanceAs (Decidable (_ ∧ _))

/-- In a run in which the client sends no second WATCH for a bucket, a change of a key that it watches, by any
command other than BLPOP and GEOSEARCH, marks the client, and its next EXEC executes nothing and replies
with the null array. -/
theorem change_aborts {s t u v x y : Server D} {slot : ClientSlot} {call : Call} {event : Event}
    {ptr : ClientPtr} {client : Client} {key : Bytes} (entry : AtLoopEntry s)
    (before : Run Step (WatchesFresh ptr) s t) (occupied : t.world.clients slot = some ptr)
    (found : t.world.heap ptr = some client) (isWatch : call.request.command = .watch)
    (outside : client.isQueued = false) (named : key ∈ call.request.args)
    (fresh : WatchesFresh ptr t (.request slot call)) (watch : Step t (.request slot call) u)
    (watching : Run Step (StaysInWatch ptr) u v) (stays : StaysInWatch ptr v event)
    (changing : Step v event x)
    (changed : binding x.world.table key ≠ binding v.world.table key)
    (notifies : ¬ ChangesSilently v event key) (later : Run Step (StaysInWatch ptr) x y) :
    (∃ client, y.world.heap ptr = some client ∧ client.isDirty = true) ∧
      ∀ slot' call' client', y.running = none → y.world.clients slot' = some ptr →
        y.world.heap ptr = some client' → client'.isQueued = true →
        call'.request.command = .exec →
        (∃ z, Step y (.request slot' call') z) ∧
          ∀ z, Step y (.request slot' call') z → z.running = none ∧
            z.world.table = y.world.table ∧ z.world.executed = y.world.executed ∧
            z.world.sent = y.world.sent ++ [(client'.fd, nilArray)] := by
  have wellFormed := wellFormed_run before entry.wellFormed
  have tracked : (fun s : Server D => Tracked ptr s.world) t :=
    entry.wellFormed.invariant
      (fun _ _ _ wellFormed tracked fresh => tracked_step wellFormed tracked fresh) before
      (entry.tracked ptr)
  -- from WATCH to the change the key stays watched, and from the change on the mark stays set
  have watched : InWatch ptr key False v :=
    watching.invariant (fun _ _ _ inWatch stays => inWatch_step inWatch stays.1 stays.2)
      (inWatch_of_watch wellFormed tracked occupied found isWatch outside named fresh watch)
  have marked : InWatch ptr key True y :=
    later.invariant (fun _ _ _ inWatch stays => inWatch_step inWatch stays.1 stays.2)
      (marked_of_change watched stays.1 stays.2 changing changed notifies)
  constructor
  · obtain ⟨client, inHeap, _, dirty⟩ := marked.watches
    exact ⟨client, inHeap, dirty trivial⟩
  · intro slot' call' client' idle occupied' found' inMulti isExec
    obtain ⟨z, step, aborted⟩ := exec_of_marked marked idle occupied' found' inMulti isExec
    refine ⟨⟨z, step⟩, fun z' step' => ?_⟩
    obtain rfl := step_deterministic step' step
    exact aborted

/-- The first client opens a transaction. -/
def openMulti : Event := arrival firstSlot [CString.lit "MULTI"]

/-- SET by a second client aborts the transaction of the first. -/
theorem change_aborts_set : ∃ y z : Server Int, Step y (arrival firstSlot [CString.lit "EXEC"]) z ∧
    z.world.sent = y.world.sent ++ [(5, nilArray)] := by
  let exec := arrival firstSlot [CString.lit "EXEC"]
  let set := arrival secondSlot [CString.lit "SET", CString.lit "k", CString.lit "v"]
  obtain ⟨t, before, checked⟩ := exists_run_of_play
    (show (play (WatchesFresh 0) idleServer twoClients).any
      (fun t => decide (t.world.clients firstSlot = some 0) && ((t.world.heap 0).any fun client =>
        decide (client.isQueued = false) && (decide (WatchesFresh 0 t watchKeyK) &&
          (next t watchKeyK).any fun u => (play (StaysInWatch 0) u [openMulti]).any fun v =>
            decide (StaysInWatch 0 v set) && ((next v set).any fun y =>
              decide (binding y.world.table (CString.lit "k") ≠
                binding v.world.table (CString.lit "k")) && (decide (y.running = none) &&
              (decide (y.world.clients firstSlot = some 0) && (y.world.heap 0).any fun client' =>
                decide (client'.isQueued = true) && decide (client'.fd = 5))))))) = true by
      decide +kernel)
  simp only [Bool.and_eq_true, decide_eq_true_eq, Option.any_eq_true] at checked
  obtain ⟨occupied, client, found, outside, fresh, u, isWatch, v, plays, stays, y, isSet, changed,
    idle, occupied', client', found', inMulti, isFive⟩ := checked
  have notifies : ¬ ChangesSilently v set (CString.lit "k") := by
    rintro ⟨sender, req, dispatches, silent, _⟩
    obtain ⟨_, rfl⟩ := dispatches_arrival dispatches
    exact absurd silent (by decide)
  obtain ⟨_, aborts⟩ := change_aborts idleServer_atLoopEntry before occupied found rfl outside
    List.mem_cons_self fresh (next_step isWatch) (play_run plays) stays (next_step isSet) changed
    notifies (.refl y)
  obtain ⟨⟨z, step⟩, aborted⟩ := aborts firstSlot
    ⟨0, requestOf [CString.lit "EXEC"], (encode [CString.lit "EXEC"]).length⟩ client' idle occupied'
    found' inMulti rfl
  exact ⟨y, z, step, isFive ▸ (aborted z step).2.2.2⟩

/-- BLPOP takes an element of a watched list and marks nobody. -/
theorem blpop_marks_nobody :
    ¬ ∀ (t u v x : Server Int) (slot : ClientSlot) (call : Call) (event : Event) (key : Bytes),
      Runs idleServer t → t.world.clients slot = some 0 → call.request.command = .watch →
      key ∈ call.request.args → Step t (.request slot call) u → Run Step (KeepsScope 0) u v →
      KeepsScope 0 v event → Step v event x →
      binding x.world.table key ≠ binding v.world.table key →
      ∃ client, x.world.heap 0 = some client ∧ client.isDirty = true := by
  intro misses
  let push := arrival secondSlot [CString.lit "RPUSH", CString.lit "k", CString.lit "a"]
  let pop := arrival secondSlot [CString.lit "BLPOP", CString.lit "k", CString.lit "0"]
  obtain ⟨t, before, checked⟩ := exists_run_of_play
    (show (play (fun _ _ => True) idleServer (twoClients ++ [push])).any
      (fun t => decide (t.world.clients firstSlot = some 0) && ((next t watchKeyK).any fun u =>
        (play (KeepsScope 0) u [openMulti]).any fun v => decide (KeepsScope 0 v pop) &&
          ((next v pop).any fun x => decide (binding x.world.table (CString.lit "k") ≠
            binding v.world.table (CString.lit "k")) && (x.world.heap 0).all fun client =>
              decide (client.isDirty = false)))) = true by
      decide +kernel)
  simp only [Bool.and_eq_true, decide_eq_true_eq, Option.any_eq_true] at checked
  obtain ⟨occupied, u, isWatch, v, plays, keeps, x, isPop, changed, clean⟩ := checked
  obtain ⟨client, found, dirty⟩ := misses t u v x firstSlot _ pop (CString.lit "k") before occupied rfl
    List.mem_cons_self (next_step isWatch) (play_run plays) keeps (next_step isPop) changed
  simp [found, dirty] at clean

end RedisClone
