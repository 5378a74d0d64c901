import RedisClone.Verified.Records

/-! # Starting over with the same append-only file

The start replays the file through `handle`, whose writing arms log what they do, so a replayed record
is appended again.  `Grows` is what every replayed command keeps: the file only grows, and `restart_law_iff`
says when a start leaves it as it was.
-/

namespace RedisClone

open Exec CString

variable {D : Type}

/-! ## Starts one after another -/

/-- What one start meets: the clock, the stale memory and the place of the client of the replay. -/
structure Boot where
  clock : Nat → Int
  fresh : Nat → Bytes
  fakeClient : ClientPtr

/-- The tables of starts one after another, without requests between them, and the files they leave. -/
def restarts (D : Type) [Externals D] (server : RedisConfig) :
    List Boot → Files → Except Fault (List (Table D) × Files)
  | [], files => .ok ([], files)
  | boot :: boots, files =>
    match start .present boot.fakeClient (bootWorld server files boot.clock boot.fresh : World D) with
    | .error f => .error f
    | .ok (_, w) =>
      match restarts D server boots w.files with
      | .error f => .error f
      | .ok (tables, last) => .ok (w.table :: tables, last)

/-- Any number of starts leaves the files as they were and always yields the same table. -/
def RestartLaw (D : Type) [Externals D] (server : RedisConfig) (files : Files) : Prop :=
  ∀ boots : List Boot, ∃ table : Table D,
    restarts D server boots files = .ok (List.replicate boots.length table, files)

/-! ## The file only grows -/

def World.aofLength (w : World D) : Nat := (w.files.aof.map List.length).getD 0

/-- What a replayed command keeps. -/
structure Grows (w w' : World D) : Prop where
  appendOnly : w'.serverConfig.appendOnly = w.serverConfig.appendOnly
  blank : (∀ n, w.fresh n = []) → ∀ n, w'.fresh n = []
  opened : w.files.aof ≠ none → w'.files.aof ≠ none
  longer : w.aofLength ≤ w'.aofLength

theorem grows_of_same {w w' : World D}
    (appendOnly : w'.serverConfig.appendOnly = w.serverConfig.appendOnly)
    (fresh : w'.fresh = w.fresh) (files : w'.files = w.files) : Grows w w' :=
  ⟨appendOnly, fun blank => fresh ▸ blank, fun opened => files ▸ opened,
    by rw [World.aofLength, World.aofLength, files]⟩

theorem Grows.trans {w w' w'' : World D} (before : Grows w w') (after : Grows w' w'') :
    Grows w w'' where
  appendOnly := after.appendOnly.trans before.appendOnly
  blank blank := after.blank (before.blank blank)
  opened opened := after.opened (before.opened opened)
  longer := before.longer.trans after.longer

theorem grows_composes : Composes (Grows (D := D)) :=
  ⟨fun _ => grows_of_same rfl rfl rfl, Grows.trans⟩

theorem ambient_grows : Ambient (Grows (D := D)) fun _ => True where
  composes := grows_composes
  emit _ _ _ := grows_of_same rfl rfl rfl
  tick _ := grows_of_same rfl rfl rfl
  takeFresh _ := ⟨rfl, fun blank n => blank (n + 1), id, le_rfl⟩
  change _ _ _ _ _ _ _ := grows_of_same rfl rfl rfl
  authorize _ _ _ := grows_of_same rfl rfl rfl
  faults _ _ _ := trivial

theorem mayBlock_grows : MayBlock (Grows (D := D)) where
  change _ _ _ _ _ _ := grows_of_same rfl rfl rfl
  configure w f same := by
    refine grows_of_same ?_ rfl rfl
    change (f w.serverConfig).appendOnly = _
    rw [same w.serverConfig]

theorem grows_append (w : World D) (record : Bytes) :
    Grows w { w with files := { w.files with aof := w.files.aof.map (· ++ record) } } where
  appendOnly := rfl
  blank := id
  opened opened := by simpa using opened
  longer := by
    simp only [World.aofLength]
    cases w.files.aof <;> simp

theorem mayLog_grows : MayLog (Grows (D := D)) where
  rename _ _ := grows_of_same rfl rfl rfl
  append := grows_append

variable [Externals D]

theorem grows_dispatch {req : RespRequest} {ptr : ClientPtr} {w w' : World D}
    (run : dispatch req ptr w = .ok ((), w')) : Grows w w' := by
  refine (obeysAt_dispatch ambient_grows (.inl trivial) (.inl trivial) ?_
    (fun _ => mayBlock_grows) ?_ ?_ ?_).1 () w' run
  · exact fun _ _ _ _ _ _ _ => grows_of_same rfl rfl rfl
  · exact fun _ _ _ => grows_of_same rfl rfl rfl
  · exact fun _ _ _ _ _ => grows_of_same rfl rfl rfl
  · exact fun _ => mayLog_grows

/-- The state in which `appendonly` reads as YES in every copy, and the file is open. -/
structure Logging (w : World D) : Prop where
  enabled : upper w.serverConfig.appendOnly = lit "YES"
  blank : ∀ n, w.fresh n = []
  opened : w.files.aof ≠ none

omit [Externals D] in
theorem Logging.of_grows {w w' : World D} (logging : Logging w) (grows : Grows w w') :
    Logging w' where
  enabled := grows.appendOnly ▸ logging.enabled
  blank := grows.blank logging.blank
  opened := grows.opened logging.opened

omit [Externals D] in
theorem aofRecord_ne_nil (req : RespRequest) : aofRecord req ≠ [] := by
  have star : aofRecord req = 42 :: (aofRecord req).tail := rfl
  rw [star]
  exact List.cons_ne_nil _ _

/-- A logged command makes the file longer. -/
theorem longer_of_logs {req : RespRequest} {ptr : ClientPtr} {w w' : World D}
    (logging : Logging w) (logged : logs req.command = true)
    (run : dispatch req ptr w = .ok ((), w')) : w.aofLength < w'.aofLength := by
  obtain ⟨client, handled, notified, found, handler, notify, write⟩ := dispatch_parts run
  have noted : Grows w (w.noted req) := grows_of_same rfl rfl rfl
  have armed : Grows (w.noted req) handled := by
    refine (obeysAt_arm ambient_grows (.inl trivial) (.inl trivial) ?_
      fun _ => mayBlock_grows).1 () handled handler
    exact fun _ _ _ _ _ _ _ => grows_of_same rfl rfl rfl
  have marked : Grows handled notified := by
    have obeys : Obeys (Grows (D := D)) (fun _ => True)
        (onlyIf (notifies req.command) (notifyFirst req) : M D Unit) :=
      Obeys.onlyIf grows_composes fun _ =>
        obeys_notifyFirst ambient_grows (.inl trivial) fun _ _ _ _ => grows_of_same rfl rfl rfl
    exact (obeys handled).1 () notified notify
  -- up to the log nothing shortens the file or turns it off
  have before : Grows w notified := (noted.trans armed).trans marked
  have ready := logging.of_grows before
  rw [onlyIf, if_pos logged] at write
  have files := writeToFile_files write
  have copied : upperText (notified.fresh 0) notified.serverConfig.appendOnly = lit "YES" := by
    rw [upperText, ready.blank, ready.enabled, List.drop_nil]
    rfl
  rw [if_pos copied] at files
  obtain ⟨old, isOld⟩ := Option.ne_none_iff_exists'.mp ready.opened
  have longer := before.longer
  have positive := List.length_pos_iff.mpr (aofRecord_ne_nil req)
  simp only [World.aofLength, files, isOld, Option.map_some, Option.getD_some,
    List.length_append] at longer ⊢
  omega

/-! ## Replaying a request -/

theorem replayRequest_dispatch {fakeClient : ClientPtr} {call : Call} {w w' : World D}
    (ordinary : isTransactionCmd call.request.command = false)
    (run : replayRequest fakeClient call w = .ok ((), w')) :
    dispatch call.request fakeClient (w.setClient fakeClient replayClient) = .ok ((), w') := by
  have found : (w.setClient fakeClient replayClient).heap fakeClient = some replayClient :=
    Function.update_self _ _ _
  unfold replayRequest at run
  rw [bind_of_ok (alter_run _ w)] at run
  have starts : startsTransaction replayClient call.request = false := by
    simp [startsTransaction, replayClient]
  refine (handle_cases found starts run).dispatch_of_reaches ?_
  exact reachesArm_eq_true.mpr ⟨ordinary, rfl, fun subscribed => by simp [replayClient] at subscribed⟩

theorem grows_replayRequest {fakeClient : ClientPtr} {call : Call} {w w' : World D}
    (ordinary : isTransactionCmd call.request.command = false)
    (run : replayRequest fakeClient call w = .ok ((), w')) : Grows w w' := by
  have loaded : Grows w (w.setClient fakeClient replayClient) := grows_of_same rfl rfl rfl
  exact loaded.trans (grows_dispatch (replayRequest_dispatch ordinary run))

theorem longer_replayRequest {fakeClient : ClientPtr} {call : Call} {w w' : World D}
    (logging : Logging w) (logged : logs call.request.command = true)
    (run : replayRequest fakeClient call w = .ok ((), w')) : w.aofLength < w'.aofLength := by
  have ordinary : isTransactionCmd call.request.command = false := ordinary_of_logs _ logged
  have loaded : Logging (w.setClient fakeClient replayClient) :=
    ⟨logging.enabled, logging.blank, logging.opened⟩
  have longer := longer_of_logs loaded logged (replayRequest_dispatch ordinary run)
  exact longer

theorem grows_forM {fakeClient : ClientPtr} {calls : List Call} {w w' : World D}
    (ordinary : ∀ call ∈ calls, isTransactionCmd call.request.command = false)
    (run : forM calls (replayRequest fakeClient) w = .ok ((), w')) : Grows w w' := by
  induction calls generalizing w with
  | nil =>
    simp only [List.forM_nil, pure_run, Except.ok.injEq, Prod.mk.injEq, true_and] at run
    exact run ▸ grows_of_same rfl rfl rfl
  | cons call calls inductionHypothesis =>
    rw [List.forM_cons] at run
    obtain ⟨_, t, first, rest⟩ := bind_eq_ok.mp run
    exact (grows_replayRequest (ordinary call List.mem_cons_self) first).trans
      (inductionHypothesis (fun other member => ordinary other (List.mem_cons_of_mem _ member)) rest)

/-- A logged command among those that are replayed makes the file longer. -/
theorem longer_forM {fakeClient : ClientPtr} {calls : List Call} {w w' : World D}
    (ordinary : ∀ call ∈ calls, isTransactionCmd call.request.command = false)
    (logging : Logging w) (logged : ∃ call ∈ calls, logs call.request.command = true)
    (run : forM calls (replayRequest fakeClient) w = .ok ((), w')) :
    w.aofLength < w'.aofLength := by
  induction calls generalizing w with
  | nil => simp at logged
  | cons call calls inductionHypothesis =>
    rw [List.forM_cons] at run
    obtain ⟨_, t, first, rest⟩ := bind_eq_ok.mp run
    have others : ∀ other ∈ calls, isTransactionCmd other.request.command = false :=
      fun other member => ordinary other (List.mem_cons_of_mem _ member)
    have grows := grows_replayRequest (ordinary call List.mem_cons_self) first
    obtain ⟨witness, member, isLogged⟩ := logged
    obtain isFirst | inRest := List.mem_cons.mp member
    · subst isFirst
      exact (longer_replayRequest logging isLogged first).trans_le (grows_forM others rest).longer
    · exact grows.longer.trans_lt
        (inductionHypothesis others (logging.of_grows grows) ⟨witness, inRest, isLogged⟩ rest)

/-! ## Unknown commands -/

/-- An unknown command is answered with an error. -/
theorem replayRequest_unknown (fakeClient : ClientPtr) {call : Call}
    (unknown : call.request.command = .unknown) (null : call.request.unused = .null)
    (w : World D) :
    ∃ w', replayRequest fakeClient call w = .ok ((), w') ∧ w'.table = w.table ∧
      w'.files = w.files := by
  have found : (w.setClient fakeClient replayClient).heap fakeClient = some replayClient :=
    Function.update_self _ _ _
  have printed (w : World D) : call.request.printArg 0 w = .ok ((), w) := by
    unfold RespRequest.printArg
    rw [null]
    cases call.request.args[0]? <;> rfl
  refine ⟨(w.setClient fakeClient replayClient).emit 0 (lit "-ERR unknown command\r\n"), ?_, rfl,
    rfl⟩
  unfold replayRequest
  rw [bind_of_ok (alter_run _ w), handle_command found rfl (by rw [unknown]; rfl), handleCommand,
    bind_of_ok (loadClient_found found), if_neg (by simp [replayClient]), dispatch,
    bind_of_ok (loadClient_found found),
    bind_of_ok (show noteExecuted call.request (w.setClient fakeClient replayClient) =
      .ok ((), w.setClient fakeClient replayClient) by
        simp [noteExecuted, unknown, isWriteCmd])]
  simp only [unknown]
  rw [bind_of_ok (printed _)]
  rfl

theorem forM_unknown (fakeClient : ClientPtr) {calls : List Call}
    (unknown : ∀ call ∈ calls, call.request.command = .unknown ∧ call.request.unused = .null)
    (w : World D) :
    ∃ w', forM calls (replayRequest fakeClient) w = .ok ((), w') ∧ w'.table = w.table ∧
      w'.files = w.files := by
  induction calls generalizing w with
  | nil => exact ⟨w, rfl, rfl, rfl⟩
  | cons call calls inductionHypothesis =>
    obtain ⟨isUnknown, null⟩ := unknown call List.mem_cons_self
    obtain ⟨t, first, table, files⟩ := replayRequest_unknown fakeClient isUnknown null w
    obtain ⟨w', rest, table', files'⟩ :=
      inductionHypothesis (fun other member => unknown other (List.mem_cons_of_mem _ member)) t
    refine ⟨w', ?_, table'.trans table, files'.trans files⟩
    rw [List.forM_cons, bind_of_ok first]
    exact rest

/-! ## A start -/

/-- The replay of the records of received requests. -/
theorem replay_records {reqs : List RespRequest} (fromParse : ∀ req ∈ reqs, FromParse req)
    (logged : ∀ req ∈ reqs, logs req.command = true) (fakeClient : ClientPtr) :
    ∃ calls : List Call, (replay fakeClient (reqs.map aofRecord).flatten : M D Unit) =
        forM calls (replayRequest fakeClient) ∧
      calls.map Call.request =
        reqs.map fun req => requestOf (cmdToString req.command :: req.args) := by
  have isContent : (reqs.map aofRecord).flatten =
      (reqs.map fun req => encode (cmdToString req.command :: req.args)).flatten := by
    refine congrArg List.flatten (List.map_congr_left fun req member => ?_)
    exact aofRecord_eq ((fromParse req member).strings.2 (known_of_logs (logged req member)))
  obtain ⟨calls, reads, requests, _⟩ :=
    handleCalls_records (fun req member => (fromParse req member).strings.1) isContent []
  refine ⟨calls, ?_, requests⟩
  unfold replay
  rw [parseLoop_eq_calls]
  rw [handleCalls] at reads
  rw [reads]
  simp

/-- A record of a logged command is replayed as a logged or an unknown command. -/
theorem replayed_command {reqs : List RespRequest} {calls : List Call}
    (logged : ∀ req ∈ reqs, logs req.command = true)
    (requests : calls.map Call.request =
      reqs.map fun req => requestOf (cmdToString req.command :: req.args)) :
    ∀ call ∈ calls, ∃ req ∈ reqs,
      call.request.command = (if readsBack req.command then req.command else .unknown) ∧
        call.request.unused = .null := by
  intro call member
  have inReplay : call.request ∈
      reqs.map fun req => requestOf (cmdToString req.command :: req.args) :=
    requests ▸ List.mem_map_of_mem member
  obtain ⟨req, isReq, same⟩ := List.mem_map.mp inReplay
  refine ⟨req, isReq, ?_, ?_⟩
  · rw [← same, requestOf_record]
    exact findRedisCmd_of_logs (logged req isReq)
  · rw [← same, requestOf_record]
    rfl

/-- The state in which the start replays the file. -/
def replayWorld (D : Type) (server : RedisConfig) (files : Files) (boot : Boot) (name : Bytes) :
    World D :=
  (bootWorld server files boot.clock boot.fresh).takeFresh.takeFresh.configure fun server =>
    { server with appendfilename := name.take 255 }

theorem rdbConfigHandler_run {server : RedisConfig} {manifest content name : Bytes}
    (named : activeAofName manifest = some name) (boot : Boot) :
    (rdbConfigHandler .present boot.fakeClient
        (bootWorld server ⟨some manifest, some content⟩ boot.clock boot.fresh : World D)) =
      if upperText (boot.fresh 1) server.appendOnly = lit "YES" then
        replay boot.fakeClient content
          (replayWorld D server ⟨some manifest, some content⟩ boot name)
      else
        .ok ((), (bootWorld server ⟨some manifest, some content⟩ boot.clock
          boot.fresh).takeFresh.takeFresh) := by
  unfold rdbConfigHandler
  rw [bind_of_ok (show config (bootWorld server ⟨some manifest, some content⟩ boot.clock boot.fresh)
    = .ok (server, bootWorld server ⟨some manifest, some content⟩ boot.clock boot.fresh) from rfl),
    bind_of_ok (toUpperCopy_run _ _), if_neg (by simp), bind_of_ok (toUpperCopy_run _ _)]
  by_cases enabled : upperText (boot.fresh 1) server.appendOnly = lit "YES"
  · rw [if_pos enabled, if_pos ⟨enabled, rfl⟩, bind_of_ok (observe_run _ _)]
    simp only [bootWorld, World.takeFresh, named]
    rfl
  · rw [if_neg enabled, if_neg fun both => enabled both.1]
    rfl

/-- A start on a file without a record that is read back. -/
theorem start_unknown {server : RedisConfig} {manifest name : Bytes} {reqs : List RespRequest}
    (named : activeAofName manifest = some name) (fromParse : ∀ req ∈ reqs, FromParse req)
    (logged : ∀ req ∈ reqs, logs req.command = true)
    (unnamed : ∀ req ∈ reqs, readsBack req.command = false) (boot : Boot) :
    ∃ w : World D, start .present boot.fakeClient
        (bootWorld server ⟨some manifest, some (reqs.map aofRecord).flatten⟩ boot.clock
          boot.fresh) = .ok ((), w) ∧
      w.table = (fun _ => Chain.empty) ∧
      w.files = ⟨some manifest, some (reqs.map aofRecord).flatten⟩ := by
  obtain ⟨calls, replays, requests⟩ := replay_records (D := D) fromParse logged boot.fakeClient
  -- what is logged under a name that `parse` does not know comes back as no command
  have unknown : ∀ call ∈ calls, call.request.command = .unknown ∧ call.request.unused = .null := by
    intro call member
    obtain ⟨req, isReq, command, null⟩ := replayed_command logged requests call member
    rw [unnamed req isReq] at command
    exact ⟨command, null⟩
  have handler : ∃ w : World D, rdbConfigHandler .present boot.fakeClient
        (bootWorld server ⟨some manifest, some (reqs.map aofRecord).flatten⟩ boot.clock
          boot.fresh) = .ok ((), w) ∧
      w.table = (fun _ => Chain.empty) ∧
      w.files = ⟨some manifest, some (reqs.map aofRecord).flatten⟩ := by
    rw [rdbConfigHandler_run named]
    split
    · rw [replays]
      exact forM_unknown boot.fakeClient unknown _
    · exact ⟨_, rfl, rfl, rfl⟩
  obtain ⟨w, run, table, files⟩ := handler
  refine ⟨_, by unfold start; exact bind_of_ok run, ?_, ?_⟩
  · exact table
  · exact files

theorem restarts_unknown {server : RedisConfig} {manifest name : Bytes} {reqs : List RespRequest}
    (named : activeAofName manifest = some name) (fromParse : ∀ req ∈ reqs, FromParse req)
    (logged : ∀ req ∈ reqs, logs req.command = true)
    (unnamed : ∀ req ∈ reqs, readsBack req.command = false) (boots : List Boot) :
    restarts D server boots ⟨some manifest, some (reqs.map aofRecord).flatten⟩ =
      .ok (List.replicate boots.length fun _ => Chain.empty,
        ⟨some manifest, some (reqs.map aofRecord).flatten⟩) := by
  induction boots with
  | nil => rfl
  | cons boot boots inductionHypothesis =>
    obtain ⟨w, run, table, files⟩ := start_unknown (D := D) named fromParse logged unnamed boot
    rw [restarts, run]
    simp only [files, inductionHypothesis, table]
    rfl

/-- Any number of starts leaves the append-only file as it was and yields the same table exactly where
every record in it is one of ZADD, ZREM or GEOADD, which the replay does not know. -/
theorem restart_law_iff {server : RedisConfig} (enabled : upper server.appendOnly = lit "YES")
    {manifest : Bytes} (named : activeAofName manifest ≠ none) {reqs : List RespRequest}
    (fromParse : ∀ req ∈ reqs, FromParse req) (logged : ∀ req ∈ reqs, logs req.command = true) :
    RestartLaw D server ⟨some manifest, some (reqs.map aofRecord).flatten⟩ ↔
      ∀ req ∈ reqs, req.command = .zadd ∨ req.command = .zrem ∨ req.command = .geoadd := by
  obtain ⟨name, isName⟩ := Option.ne_none_iff_exists'.mp named
  have unnamed_iff : (∀ req ∈ reqs, readsBack req.command = false) ↔
      ∀ req ∈ reqs, req.command = .zadd ∨ req.command = .zrem ∨ req.command = .geoadd := by
    refine forall₂_congr fun req member => ?_
    rw [← Bool.not_eq_true, readsBack_of_logs (logged req member)]
    tauto
  rw [← unnamed_iff]
  constructor
  · intro law
    by_contra some
    push Not at some
    obtain ⟨req, isReq, isNamed⟩ := some
    -- one start with a stopped clock and zeroed memory
    let boot : Boot := ⟨fun _ => 0, fun _ => [], 0⟩
    obtain ⟨table, law⟩ := law [boot]
    obtain ⟨calls, replays, requests⟩ := replay_records (D := D) fromParse logged boot.fakeClient
    rw [restarts] at law
    cases run : start .present boot.fakeClient (bootWorld server
        ⟨some manifest, some (reqs.map aofRecord).flatten⟩ boot.clock boot.fresh : World D) with
    | error f => simp [run] at law
    | ok result =>
      obtain ⟨_, w⟩ := result
      simp only [run, restarts, Except.ok.injEq, Prod.mk.injEq] at law
      unfold start at run
      obtain ⟨_, replayed, handler, enters⟩ := bind_eq_ok.mp run
      have copied : upperText (boot.fresh 1) server.appendOnly = lit "YES" := by
        rw [upperText, enabled, List.drop_nil]
        rfl
      rw [rdbConfigHandler_run isName, if_pos copied, replays] at handler
      have ordinary : ∀ call ∈ calls, isTransactionCmd call.request.command = false := by
        intro call member
        obtain ⟨other, isOther, command, _⟩ := replayed_command logged requests call member
        rw [command]
        split
        · exact ordinary_of_logs _ (logged other isOther)
        · rfl
      have isLogged : ∃ call ∈ calls, logs call.request.command = true := by
        have inReplay : requestOf (cmdToString req.command :: req.args) ∈
            calls.map Call.request := by
          rw [requests]
          exact List.mem_map_of_mem isReq
        obtain ⟨call, member, same⟩ := List.mem_map.mp inReplay
        refine ⟨call, member, ?_⟩
        have sameCommand : findRedisCmd (cmdToString req.command) = req.command := by
          simpa [readsBack] using isNamed
        rw [same, requestOf_record]
        exact (congrArg logs sameCommand).trans (logged req isReq)
      have longer := longer_forM ordinary ⟨enabled, fun _ => rfl, by simp [replayWorld, bootWorld,
        World.configure, World.takeFresh]⟩ isLogged handler
      simp only [enterLoop, alter_run, Except.ok.injEq, Prod.mk.injEq, true_and] at enters
      have sameFiles : replayed.files = w.files := by rw [← enters]
      rw [World.aofLength, World.aofLength, sameFiles, law.2] at longer
      exact absurd longer (lt_irrefl _)
  · intro unnamed boots
    exact ⟨_, restarts_unknown isName fromParse logged unnamed boots⟩

/-- The configuration with the append-only file switched on. -/
def loggingConfig : RedisConfig := { appendOnly := lit "yes" }

def activeManifest : Bytes := lit "file a.aof seq 1 type i\n"

/-- The record of a ZADD is lost, so the file stays as it was. -/
theorem restart_law_zadd :
    RestartLaw Int loggingConfig ⟨some activeManifest,
      some ([requestOf [lit "ZADD", lit "z", lit "1", lit "m"]].map aofRecord).flatten⟩ := by
  refine (restart_law_iff (by decide +kernel) (by decide +kernel) ?_ (by decide +kernel)).mpr
    (by decide +kernel)
  intro req member
  obtain rfl := List.mem_singleton.mp member
  exact ⟨encode [lit "ZADD", lit "z", lit "1", lit "m"] ++ [0], 0, _, 35, by decide +kernel, .inl rfl⟩

/-- The record of an RPUSH is appended again by the start that replays it. -/
theorem restart_appends_rpush :
    ¬ ∀ reqs : List RespRequest, (∀ req ∈ reqs, FromParse req) →
      (∀ req ∈ reqs, logs req.command = true) →
      RestartLaw Int loggingConfig ⟨some activeManifest, some (reqs.map aofRecord).flatten⟩ := by
  intro law
  let req := requestOf [lit "RPUSH", lit "l", lit "x"]
  let boot : Boot := ⟨fun _ => 0, fun _ => [], 0⟩
  have fromParse : ∀ other ∈ [req], FromParse other := by
    intro other member
    obtain rfl := List.mem_singleton.mp member
    exact ⟨encode [lit "RPUSH", lit "l", lit "x"] ++ [0], 0, _, 29, by decide +kernel, .inl rfl⟩
  obtain ⟨table, keeps⟩ := law [req] fromParse (by decide +kernel) [boot]
  have doubled : (match restarts Int loggingConfig [boot]
      ⟨some activeManifest, some ([req].map aofRecord).flatten⟩ with
      | .ok (_, files) => files.aof
      | .error _ => none) = some (aofRecord req ++ aofRecord req) := by
    decide +kernel
  rw [keeps] at doubled
  have unchanged : some ([req].map aofRecord).flatten = some (aofRecord req ++ aofRecord req) :=
    doubled
  exact absurd unchanged (by decide +kernel)

end RedisClone
