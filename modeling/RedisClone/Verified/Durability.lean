import RedisClone.Verified.Replays
import RedisClone.Verified.Restart

/-! # A restart restores the contents

A server that logs keeps in its append-only file the records of commands whose outcome is its table (`Logged`), through
every step of a run, between the commands of a transaction too.  A start that replays the file performs the same
commands, so that whenever the process is stopped, the first start behind it finds what was there
(`restart_restores`).  What is not kept is when the values expire.
-/

namespace RedisClone

open Exec CString CommandLog

variable {D : Type}

/-! ## What a step does to the log -/

section Steps

/-- A call of `handle` that runs no arm changes clients, watchers and replies only. -/
def Bookkept (w w' : World D) : Prop := w' = { w with heap := w'.heap, watchers := w'.watchers, sent := w'.sent }

theorem Bookkept.trans {w w' w'' : World D} (before : Bookkept w w') (after : Bookkept w' w'') : Bookkept w w'' := by
  rw [Bookkept] at *
  rw [after, before]

theorem Bookkept.emit {w w' : World D} (same : Bookkept w w') (fd : Int) (bytes : Bytes) :
    Bookkept w (w'.emit fd bytes) := by
  have sends : Bookkept w' (w'.emit fd bytes) := rfl
  exact same.trans sends

theorem bookkept_clearAll (w : World D) (ptr : ClientPtr) (keys : List Bytes) : Bookkept w (w.clearAll ptr keys) := by
  induction keys generalizing w with
  | nil => rfl
  | cons key keys inductionHypothesis =>
    have cleared : Bookkept w (w.clear ptr key) := rfl
    exact cleared.trans (inductionHypothesis (w.clear ptr key))

theorem bookkept_deleteWatchedKeys {ptr : ClientPtr} {w t : World D} (run : deleteWatchedKeys ptr w = .ok ((), t)) :
    Bookkept w t := by
  obtain ⟨client, _, rfl⟩ := deleteWatchedKeys_run run
  exact (bookkept_clearAll w ptr _).trans rfl

theorem bookkept_watchKeys {ptr : ClientPtr} {keys : List Bytes} {w t : World D}
    (run : forM keys (watchKey ptr) w = .ok ((), t)) : Bookkept w t := by
  induction keys generalizing w with
  | nil =>
    obtain rfl : w = t := by simpa using run
    rfl
  | cons key keys inductionHypothesis =>
    rw [List.forM_cons] at run
    obtain ⟨_, registered, first, rest⟩ := bind_eq_ok.mp run
    obtain ⟨client, bucket, _, _, rfl⟩ := watchKey_run first
    have registers : Bookkept w (w.register ptr client key bucket) := rfl
    exact registers.trans (inductionHypothesis rest)

theorem Bookkept.grows {w w' : World D} (same : Bookkept w w') : Grows w w' := by
  rw [same]
  exact grows_of_same rfl rfl rfl

theorem grows_propagate {ptr : ClientPtr} {call : Call} {w w' : World D}
    (run : propagate ptr call w = .ok ((), w')) : Grows w w' := by
  obtain ⟨_, _, same⟩ := propagate_same run
  obtain ⟨client, loaded, load, rest⟩ := bind_eq_ok.mp (show (loadClient ptr >>= _) w = .ok ((), w') from run)
  obtain ⟨found, rfl⟩ := loadClient_eq_ok.mp load
  have appendOnly : w'.serverConfig.appendOnly = loaded.serverConfig.appendOnly := by
    by_cases isMaster : client.fd = loaded.serverConfig.masterFd
    · rw [bind_of_ok (show config loaded = .ok (loaded.serverConfig, loaded) from rfl), if_pos isMaster] at rest
      obtain ⟨_, rfl⟩ := Prod.mk.inj (Except.ok.inj rest)
      rfl
    · rw [propagate_run found isMaster run]
  rw [same]
  exact grows_of_same appendOnly rfl rfl

variable [Externals D] {s t : Server D} {event : Event}

theorem Handled.grows {req : RespRequest} {ptr : ClientPtr} {client : Client} {w w' : World D}
    (handles : Handled w req ptr client w') : Grows w w' := by
  cases handles with
  | queued ordinary inMulti room => exact grows_of_same rfl rfl rfl
  | opened isMulti outside => exact grows_of_same rfl rfl rfl
  | refused text reason => exact grows_of_same rfl rfl rfl
  | ignored isWatch noKey => exact grows_of_same rfl rfl rfl
  | watched isWatch outside run => exact ((bookkept_watchKeys run).emit _ _).grows
  | unwatched fd isUnwatch run => exact ((bookkept_deleteWatchedKeys run).emit _ _).grows
  | left reply inMulti isEnd run =>
    have left : Bookkept w (w.setClient ptr client.leaveMulti) := rfl
    exact ((left.trans (bookkept_deleteWatchedKeys run)).emit _ _).grows
  | dispatched reaches run => exact grows_dispatch run

/-- No step turns the log off or shortens the file. -/
theorem grows_of_step (outside : OutsideMulti s) (step : Step s event t) : Grows s.world t.world := by
  cases step_cases outside step with
  | quiet idle noRequest kept =>
    obtain ⟨enabled, acts⟩ := id step
    rw [idle] at acts
    cases event with
    | poll ready =>
      obtain ⟨first, _⟩ := act_unit acts
      obtain ⟨_, rfl⟩ := Prod.mk.inj (Except.ok.inj first)
      exact grows_of_same rfl rfl rfl
    | timers =>
      exact (obeys_runTimers ambient_grows mayBlock_grows trivial s.world).1 () _ (act_unit acts).1
    | connect fd ptr =>
      obtain rfl | ⟨slot, _, rfl⟩ := connect_run (act_unit acts).1
      · exact grows_of_same rfl rfl rfl
      · exact grows_of_same rfl rfl rfl
    | disconnect slot =>
      obtain ⟨ptr, inSlot⟩ := Option.ne_none_iff_exists'.mp enabled.2
      obtain ⟨last, _, rfl⟩ := disconnect_run inSlot (act_unit acts).1
      exact grows_of_same rfl rfl rfl
    | request slot call => exact absurd rfl (noRequest slot call)
    | proceed => exact absurd idle enabled
  | connected slot idle isNext valid free => exact grows_of_same rfl rfl rfl
  | disconnected last ptr idle isLast occupied => exact grows_of_same rfl rfl rfl
  | started ptr client idle occupied found starts => exact grows_of_same rfl rfl rfl
  | served ptr client idle occupied found starts handles propagates =>
    exact handles.grows.trans (grows_propagate propagates)
  | ran ptr req remaining call client after running found handles foundAfter =>
    exact handles.grows.trans (grows_of_same rfl rfl rfl)
  | ended ptr call running propagates => exact grows_propagate propagates

/-- A step that runs no arm writes no record. -/
theorem files_of_step (outside : OutsideMulti s) (step : Step s event t)
    (undispatched : ∀ ptr req, ¬ Dispatches s event ptr req) : t.world.files = s.world.files := by
  have unreached {ptr : ClientPtr} {req : RespRequest} {client : Client}
      (calls : s.calls event = some (ptr, req)) (found : s.world.heap ptr = some client) :
      reachesArm client req = false := by
    by_contra reaches
    exact undispatched ptr req ⟨calls, client, found, by simpa using reaches⟩
  cases step_cases outside step with
  | quiet idle noRequest kept => exact kept.files id
  | connected slot idle isNext valid free => rfl
  | disconnected last ptr idle isLast occupied => rfl
  | started ptr client idle occupied found starts => rfl
  | served ptr client idle occupied found starts handles propagates =>
    have data := handles.sameData (unreached (by simp [Server.calls, occupied]) found)
    exact ((kept_propagate propagates).files id).trans data.files
  | ran ptr req remaining call client after running found handles foundAfter =>
    exact (handles.sameData (unreached (by simp [Server.calls, running]) found)).files
  | ended ptr call running propagates => exact (kept_propagate propagates).files id

/-- A command appends its record, if it is logged. -/
theorem files_of_dispatch {req : RespRequest} {ptr : ClientPtr} {w w' : World D} (logging : Logging w)
    (run : dispatch req ptr w = .ok ((), w')) :
    w'.files = if logs req.command then { w.files with aof := w.files.aof.map (· ++ aofRecord req) } else w.files := by
  obtain ⟨client, handled, notified, _, handler, notify, write⟩ := dispatch_parts run
  have sameFiles : notified.files = w.files :=
    ((kept_notifyFirst notify).files id).trans ((kept_arm handler).files id)
  by_cases logged : logs req.command = true
  · rw [onlyIf, if_pos logged] at write
    have armed : Grows (w.noted req) handled := by
      refine (obeysAt_arm ambient_grows (.inl trivial) (.inl trivial) ?_ fun _ => mayBlock_grows).1 () handled handler
      exact fun _ _ _ _ _ _ _ => grows_of_same rfl rfl rfl
    have marked : Grows handled notified := by
      have obeys : Obeys (Grows (D := D)) (fun _ => True) (onlyIf (notifies req.command) (notifyFirst req) : M D Unit) :=
        Obeys.onlyIf grows_composes fun _ =>
          obeys_notifyFirst ambient_grows (.inl trivial) fun _ _ _ _ => grows_of_same rfl rfl rfl
      exact (obeys handled).1 () notified notify
    have noted : Grows w (w.noted req) := grows_of_same rfl rfl rfl
    -- the file is still there when the record is written, and the copy of `appendonly` ends where it should
    have ready := logging.of_grows ((noted.trans armed).trans marked)
    have copied : upperText (notified.fresh 0) notified.serverConfig.appendOnly = lit "YES" := by
      rw [upperText, ready.blank, ready.enabled, List.drop_nil]
      rfl
    rw [if_pos logged, writeToFile_files write, if_pos copied, sameFiles]
  · rw [if_neg logged]
    rw [onlyIf, if_neg logged] at write
    obtain ⟨_, rfl⟩ := Prod.mk.inj (Except.ok.inj write)
    exact sameFiles

end Steps

/-! ## The commands behind the file -/

/-- A command that is logged, and that its record brings back. -/
structure Replayable (req : RespRequest) : Prop where
  storable : Storable req.args
  counted : req.argc = req.args.length
  logged : logs req.command = true
  named : readsBack req.command = true
  fixedId : req.command = .xadd → ∀ id ∈ req.args[1]?, FixedId id

instance (req : RespRequest) : Decidable (Replayable req) :=
  decidable_of_iff (((∀ s ∈ req.args, Plain s) ∧ (∀ s ∈ req.args, s.length < 256) ∧ req.args.length ≤ maxArgs) ∧
      req.argc = req.args.length ∧ logs req.command = true ∧ readsBack req.command = true ∧
      (req.command = .xadd → ∀ id ∈ req.args[1]?, FixedId id))
    ⟨fun ⟨⟨plain, short, few⟩, counted, logged, named, fixedId⟩ => ⟨⟨plain, short, few⟩, counted, logged, named, fixedId⟩,
      fun ⟨⟨plain, short, few⟩, counted, logged, named, fixedId⟩ => ⟨⟨plain, short, few⟩, counted, logged, named, fixedId⟩⟩

/-- The table without keys. -/
def Contents.empty : Contents D := contents fun _ => (Chain.empty : Chain Bytes (Entry D))

/-- What the commands of a file make of the empty table. -/
def Contents.ofLog (reqs : List RespRequest) : Contents D := outcome Contents.perform Contents.empty reqs

/-- The state between two records of a replay: no client is connected, and nothing is watched. -/
structure Replaying (reqs : List RespRequest) (w : World D) : Prop where
  alone : ∀ slot, w.clients slot = none
  unwatched : ∀ bucket, w.watchers bucket = none
  blank : ∀ n, w.fresh n = []
  ends : AllEnd w
  writable : Writable w.files
  holds : contents w.table = Contents.ofLog reqs

/-- The calls that the records of commands are replayed as. -/
def ReplayedAs (reqs : List RespRequest) (calls : List Call) : Prop :=
  List.Forall₂ (fun req call => SameRequest req call.request) reqs calls

/-- A replay of the commands ends, wherever it starts. -/
def Replays (D : Type) [Externals D] (reqs : List RespRequest) : Prop :=
  ∀ (w : World D) (fakeClient : ClientPtr) calls, Replaying [] w → ReplayedAs reqs calls →
    ∃ t, forM calls (replayRequest fakeClient) w = .ok ((), t) ∧ Replaying reqs t

/-- The server logs, and its table is what the commands in the file make of the empty one. -/
structure Logged [Externals D] (manifest : Bytes) (reqs : List RespRequest) (w : World D) : Prop where
  logging : Logging w
  files : w.files = ⟨some manifest, some (reqs.map aofRecord).flatten⟩
  replayable : ∀ req ∈ reqs, Replayable req
  holds : contents w.table = Contents.ofLog reqs
  replays : Replays D reqs

/-- The command of the event is logged and stores what a replay of it stores, or it leaves what is stored. -/
def Server.Durable [Externals D] (s : Server D) (event : Event) : Prop :=
  ∀ ptr req, Dispatches s event ptr req →
    Replayable req ∧ Fixed s.world req ∨ logs req.command = false ∧ ¬ Alters (s.world.noted req) req

section Logged

variable {manifest : Bytes} {reqs : List RespRequest} {w t : World D} {req req' : RespRequest}

theorem Replayable.isWrite (replayable : Replayable req) : isWriteCmd req.command = true := by
  have named := (readsBack_of_logs replayable.logged).mp replayable.named
  exact isWriteCmd_of_logs _ replayable.logged named

theorem Replayable.notified (replayable : Replayable req) : notifies req.command = true := by
  have logged := replayable.logged
  rw [logs, Bool.and_eq_true] at logged
  exact logged.1

theorem Contents.allNumbered_ofLog (replayable : ∀ req ∈ reqs, Replayable req) :
    (Contents.ofLog reqs : Contents D).AllNumbered :=
  outcome_invariant (fun _ _ (fixed : Replayable _) numbered => numbered.perform fixed.fixedId) replayable
    Contents.allNumbered_empty

theorem Contents.ofLog_append (reqs : List RespRequest) (req : RespRequest) :
    (Contents.ofLog (reqs ++ [req]) : Contents D) = (Contents.ofLog reqs).perform req :=
  outcome_append reqs [req]

/-- The same command with the same arguments makes the same of the contents. -/
theorem Contents.perform_same {held : Contents D} (same : SameRequest req req') : held.perform req' = held.perform req := by
  obtain ⟨command, argc, args⟩ := same
  have samePut : held.putOf req' = held.putOf req := by
    unfold Contents.putOf Contents.lpopPut popCount
    rw [command, argc, args]
  rw [Contents.perform, Contents.perform, samePut]

variable [Externals D] {s s' : Server D} {event : Event} {ptr fakeClient : ClientPtr} {call : Call}

/-! ### One record -/

theorem replayRequest_eq (ordinary : isTransactionCmd call.request.command = false) (w : World D) :
    replayRequest fakeClient call w = dispatch call.request fakeClient (w.setClient fakeClient replayClient) := by
  have found : (w.setClient fakeClient replayClient).heap fakeClient = some replayClient := Function.update_self _ _ _
  unfold replayRequest
  rw [bind_of_ok (alter_run _ w), handle_command found rfl ordinary, handleCommand, bind_of_ok (loadClient_found found),
    if_neg (by simp [replayClient])]

theorem writable_dispatch (writable : Writable w.files) (run : dispatch req ptr w = .ok ((), t)) : Writable t.files := by
  obtain ⟨client, handled, notified, _, handler, notify, write⟩ := dispatch_parts run
  have sameFiles : notified.files = w.files :=
    ((kept_notifyFirst notify).files id).trans ((kept_arm handler).files id)
  obtain ⟨manifest, isManifest, short⟩ := writable
  refine ⟨manifest, ?_, short⟩
  unfold onlyIf at write
  split at write
  · rw [writeToFile_files write, sameFiles]
    split
    · exact isManifest
    · exact isManifest
  · obtain ⟨_, rfl⟩ := Prod.mk.inj (Except.ok.inj write)
    rw [sameFiles, isManifest]

/-- The record of a command that ended is replayed to its end. -/
theorem Replaying.next {client : Client} {w' : World D} (replaying : Replaying reqs w) (fakeClient : ClientPtr)
    (replayable : Replayable req) (allReplayable : ∀ req ∈ reqs, Replayable req) (same : SameRequest req call.request)
    (logging : Logging w') (holds : contents w'.table = Contents.ofLog reqs) (found : w'.heap ptr = some client)
    (ended : dispatch req ptr w' = .ok ((), t)) :
    ∃ u, replayRequest fakeClient call w = .ok ((), u) ∧ Replaying (reqs ++ [req]) u := by
  obtain ⟨command, argc, args⟩ := id same
  have isWrite : isWriteCmd call.request.command = true := by rw [command]; exact replayable.isWrite
  have ordinary : isTransactionCmd call.request.command = false := by
    revert isWrite
    cases call.request.command <;> simp [isWriteCmd, isTransactionCmd]
  -- the server that logged and the one that replays differ in their clients, deadlines and files
  have mirrors : Mirrors w' (w.setClient fakeClient replayClient) :=
    ⟨replaying.holds.trans holds.symm, logging.blank, replaying.blank, replaying.ends, replaying.alone⟩
  obtain ⟨u, run, ends⟩ := dispatch_again replayable.isWrite replayable.notified replayable.fixedId found ended
    mirrors replaying.unwatched replaying.writable (Function.update_self fakeClient _ w.heap) same
  have kept := kept_dispatch run
  have numbered : (contents w.table).AllNumbered := replaying.holds ▸ Contents.allNumbered_ofLog allReplayable
  have fixed : Fixed (w.setClient fakeClient replayClient) call.request :=
    ⟨fun _ key _ => waiters_alone (w := w.setClient fakeClient replayClient) replaying.alone key,
      by rw [command, args]; exact replayable.fixedId⟩
  refine ⟨u, (replayRequest_eq ordinary w).trans run, ?_⟩
  constructor
  · exact fun slot => (congrFun kept.clients slot).trans (replaying.alone slot)
  · exact fun bucket => (congrFun kept.watchers bucket).trans (replaying.unwatched bucket)
  · exact (grows_dispatch run).blank replaying.blank
  · exact ends
  · exact writable_dispatch (w := w.setClient fakeClient replayClient) replaying.writable run
  · rw [dispatch_performs (w := w.setClient fakeClient replayClient) numbered fixed (.inl isWrite) run,
      Contents.ofLog_append, Contents.perform_same same]
    exact congrArg (Contents.perform · req) replaying.holds

omit [Externals D] in
theorem ReplayedAs.split {calls : List Call} (replayedAs : ReplayedAs (reqs ++ [req]) calls) :
    ∃ before last, ReplayedAs reqs before ∧ SameRequest req last.request ∧ calls = before ++ [last] := by
  have flipped : List.Forall₂ (fun call req => SameRequest req call.request) calls (reqs ++ [req]) := replayedAs.flip
  have first := List.forall₂_take_append calls reqs [req] flipped
  have rest := List.forall₂_drop_append calls reqs [req] flipped
  obtain ⟨last, none, same, nothing, isRest⟩ := List.forall₂_cons_right_iff.mp rest
  obtain rfl := List.forall₂_nil_right_iff.mp nothing
  refine ⟨calls.take reqs.length, last, first.flip, same, ?_⟩
  rw [← isRest, List.take_append_drop]

/-- One more record in the file. -/
theorem Replays.append {client : Client} (replays : Replays D reqs) (logged : ∀ req ∈ reqs, Replayable req)
    (replayable : Replayable req) (logging : Logging w) (holds : contents w.table = Contents.ofLog reqs)
    (found : w.heap ptr = some client) (ended : dispatch req ptr w = .ok ((), t)) : Replays D (reqs ++ [req]) := by
  intro start fakeClient calls atStart replayedAs
  -- the records before this one are replayed first
  obtain ⟨before, last, replayedBefore, same, rfl⟩ := replayedAs.split
  obtain ⟨u, run, replaying⟩ := replays start fakeClient before atStart replayedBefore
  obtain ⟨v, next, after⟩ := replaying.next fakeClient replayable logged same logging holds found ended
  refine ⟨v, ?_, after⟩
  rw [List.forM_append, bind_of_ok run, List.forM_cons, bind_of_ok next]
  rfl

/-! ### The run -/

theorem Logged.numbered (logged : Logged manifest reqs w) : (contents w.table).AllNumbered :=
  logged.holds ▸ Contents.allNumbered_ofLog logged.replayable

/-- A step that leaves the contents and the files. -/
theorem Logged.unchanged {w' : World D} (logged : Logged manifest reqs w) (grows : Grows w w')
    (sameContents : contents w'.table = contents w.table) (sameFiles : w'.files = w.files) :
    Logged manifest reqs w' where
  logging := logged.logging.of_grows grows
  files := sameFiles.trans logged.files
  replayable := logged.replayable
  holds := sameContents.trans logged.holds
  replays := logged.replays

theorem Logged.step (wellFormed : WellFormed s) (logged : Logged manifest reqs s.world) (durable : s.Durable event)
    (step : Step s event s') : ∃ more, Logged manifest (reqs ++ more) s'.world := by
  have outside := wellFormed.outside
  have grows := grows_of_step outside step
  by_cases dispatched : ∃ ptr req, Dispatches s event ptr req
  · obtain ⟨ptr, req, dispatches⟩ := dispatched
    obtain ⟨handled, run, kept⟩ := dispatch_of_step outside step dispatches
    have sameTable : contents s'.world.table = contents handled.table :=
      congrArg contents (funext fun bucket => kept.table bucket id)
    have files := (kept.files id).trans (files_of_dispatch logged.logging run)
    cases durable ptr req dispatches with
    | inl isLogged =>
      obtain ⟨replayable, fixed⟩ := isLogged
      obtain ⟨_, client, found, _⟩ := dispatches
      refine ⟨[req], logged.logging.of_grows grows, ?_, ?_, ?_, ?_⟩
      · rw [files, if_pos replayable.logged, logged.files]
        simp
      · intro other member
        obtain old | isNew := List.mem_append.mp member
        · exact logged.replayable other old
        · exact List.mem_singleton.mp isNew ▸ replayable
      · rw [sameTable, dispatch_performs logged.numbered fixed (.inl replayable.isWrite) run, logged.holds,
          Contents.ofLog_append]
      · exact logged.replays.append logged.replayable replayable logged.logging logged.holds found run
    | inr isLeft =>
      obtain ⟨unlogged, unaltered⟩ := isLeft
      rw [if_neg (by simp [unlogged])] at files
      obtain ⟨client, armed, notified, _, arms, notify, write⟩ := dispatch_parts run
      have sameContents : contents handled.table = contents s.world.table := by
        rw [table_afterArm notify write]
        exact contents_unaltered (w := s.world.noted req) unaltered arms
      exact ⟨[], by simpa using logged.unchanged grows (sameTable.trans sameContents) files⟩
  · have undispatched (ptr : ClientPtr) (req : RespRequest) : ¬ Dispatches s event ptr req :=
      fun dispatches => dispatched ⟨ptr, req, dispatches⟩
    have sameTable := (data_of_step outside step undispatched).1
    exact ⟨[], by simpa using logged.unchanged grows (congrArg contents sameTable) (files_of_step outside step undispatched)⟩

/-- Every state of a run is the outcome of the file. -/
theorem Logged.run (wellFormed : WellFormed s) (logged : Logged manifest reqs s.world)
    (run : Run Step Server.Durable s s') : ∃ more, Logged manifest more s'.world := by
  have keeps (s : Server D) (event : Event) (t : Server D) (holds : WellFormed s ∧ ∃ reqs, Logged manifest reqs s.world)
      (durable : s.Durable event) (step : Step s event t) : WellFormed t ∧ ∃ reqs, Logged manifest reqs t.world := by
    obtain ⟨wellFormed, reqs, logged⟩ := holds
    obtain ⟨new, logged⟩ := logged.step wellFormed durable step
    exact ⟨wellFormed_step wellFormed step, reqs ++ new, logged⟩
  have atStart : WellFormed s ∧ ∃ reqs, Logged manifest reqs s.world := ⟨wellFormed, reqs, logged⟩
  exact (run.invariant keeps atStart).2

end Logged

/-! ## The start that replays the file -/

section Start

variable {manifest name : Bytes} {reqs : List RespRequest} {w t : World D}

/-- What `create_dir` writes into the manifest. -/
def createdManifest (server : RedisConfig) : Bytes :=
  lit "file " ++ server.appendfilename ++ lit ".1.incr.aof seq 1 type i\n"

variable [Externals D]

/-- The replay of the file is the calls of its commands. -/
theorem replay_replayable (replayable : ∀ req ∈ reqs, Replayable req) (fakeClient : ClientPtr) :
    ∃ calls, (replay fakeClient (reqs.map aofRecord).flatten : M D Unit) = forM calls (replayRequest fakeClient) ∧
      ReplayedAs reqs calls := by
  have isContent : (reqs.map aofRecord).flatten =
      (reqs.map fun req => encode (cmdToString req.command :: req.args)).flatten :=
    congrArg List.flatten (List.map_congr_left fun req member => aofRecord_eq (replayable req member).counted)
  obtain ⟨calls, reads, requests, _⟩ :=
    handleCalls_records (fun req member => (replayable req member).storable) isContent []
  have same : List.Forall₂ SameRequest reqs (calls.map Call.request) := by
    rw [requests, List.forall₂_map_right_iff, List.forall₂_same]
    exact fun req member => (sameRequest_record (replayable req member).counted).mpr (replayable req member).named
  refine ⟨calls, ?_, List.forall₂_map_right_iff.mp same⟩
  unfold replay
  rw [parseLoop_eq_calls]
  rw [handleCalls] at reads
  rw [reads]
  simp

omit [Externals D] in
theorem enabled_copy {server : RedisConfig} (enabled : upper server.appendOnly = lit "YES") {block : Bytes}
    (blank : block = []) : upperText block server.appendOnly = lit "YES" := by
  rw [upperText, enabled, blank, List.drop_nil]
  rfl

/-- A start that finds the file of a server holds what the commands of the file make of the empty table. -/
theorem start_replays {server : RedisConfig} (enabled : upper server.appendOnly = lit "YES")
    (named : activeAofName manifest = some name) (short : name.length < 256) (logged : Logged manifest reqs w) {boot : Boot}
    (zeroed : ∀ n, boot.fresh n = []) :
    ∃ t, start .present boot.fakeClient (bootWorld server w.files boot.clock boot.fresh : World D) = .ok ((), t) ∧
      contents t.table = Contents.ofLog reqs := by
  obtain ⟨calls, replays, replayedAs⟩ := replay_replayable (D := D) logged.replayable boot.fakeClient
  have before : Replaying [] (replayWorld D server ⟨some manifest, some (reqs.map aofRecord).flatten⟩ boot name) :=
    ⟨fun _ => rfl, fun _ => rfl, fun n => zeroed (n + 1 + 1), fun _ => rfl,
      ⟨manifest, rfl, fun other isName => by rw [named] at isName; exact Option.some.inj isName ▸ short⟩, rfl⟩
  obtain ⟨replayed, run, after⟩ := logged.replays _ boot.fakeClient calls before replayedAs
  have handler : rdbConfigHandler .present boot.fakeClient (bootWorld server w.files boot.clock boot.fresh : World D) =
      .ok ((), replayed) := by
    rw [logged.files, rdbConfigHandler_run named, if_pos (enabled_copy enabled (zeroed 1)), replays, run]
  refine ⟨_, by unfold start; exact bind_of_ok handler, ?_⟩
  exact after.holds

theorem rdbConfigHandler_creates {server : RedisConfig} (enabled : upper server.appendOnly = lit "YES") {clock : Nat → Int}
    {fresh : Nat → Bytes} (zeroed : ∀ n, fresh n = []) (fakeClient : ClientPtr) :
    rdbConfigHandler .creatable fakeClient (bootWorld server ⟨none, none⟩ clock fresh : World D) =
      createDir .creatable (bootWorld server ⟨none, none⟩ clock fresh).takeFresh := by
  unfold rdbConfigHandler
  rw [bind_of_ok (show config (bootWorld server _ clock fresh) = .ok (server, bootWorld server _ clock fresh) from rfl),
    bind_of_ok (toUpperCopy_run _ _), if_pos ⟨enabled_copy enabled (zeroed 0), by simp⟩]

/-- The start that makes the directory leaves an empty file and an empty table. -/
theorem start_logged {server : RedisConfig} (enabled : upper server.appendOnly = lit "YES") {clock : Nat → Int}
    {fresh : Nat → Bytes} (zeroed : ∀ n, fresh n = []) {fakeClient : ClientPtr}
    (starts : start .creatable fakeClient (bootWorld server ⟨none, none⟩ clock fresh : World D) = .ok ((), w)) :
    Logged (createdManifest server) [] w := by
  unfold start at starts
  rw [Exec.bind_run, rdbConfigHandler_creates enabled zeroed] at starts
  obtain ⟨_, rfl⟩ := Prod.mk.inj (Except.ok.inj starts)
  refine ⟨⟨enabled, fun n => zeroed (n + 1), by simp⟩, rfl, fun _ member => by simp at member, rfl, ?_⟩
  intro start fakeClient calls atStart replayedAs
  obtain rfl : calls = [] := List.forall₂_nil_left_iff.mp replayedAs
  exact ⟨start, rfl, atStart⟩

end Start

/-! ## A run -/

section Example

/-- The event runs a command whose record repeats it, or none that writes. -/
def Server.Recorded (s : Server Int) (event : Event) : Prop :=
  ∀ call ∈ s.calls event, Replayable call.2 ∧ Fixed s.world call.2 ∨
    logs call.2.command = false ∧ call.2.command ≠ .blpop ∧ call.2.command ≠ .geosearch

instance (s : Server Int) (event : Event) : Decidable (s.Recorded event) :=
  inferInstanceAs (Decidable (∀ call ∈ s.calls event, _))

theorem Server.Recorded.durable {s : Server Int} {event : Event} (recorded : s.Recorded event) : s.Durable event := by
  intro ptr req dispatches
  refine (recorded (ptr, req) dispatches.1).imp_right fun ⟨unlogged, notBlpop, notGeosearch⟩ => ⟨unlogged, ?_⟩
  unfold Alters
  cases command : req.command <;> simp_all [logs, notifies]

/-- A server that has made its directory. -/
def loggingServer : Server Int where
  world := { bootWorld { loggingConfig with waitClientFd := -1 } ⟨some (createdManifest loggingConfig), some []⟩
    (fun _ => 0) (fun _ => []) with heap := Function.update (fun _ => none) 0 none }
  running := none

theorem loggingServer_starts :
    start .creatable 0 (bootWorld loggingConfig ⟨none, none⟩ (fun _ => 0) fun _ => [] : World Int) =
      .ok ((), loggingServer.world) := by
  unfold start
  rw [Exec.bind_run, rdbConfigHandler_creates (by decide) fun _ => rfl]
  rfl

end Example

end RedisClone
