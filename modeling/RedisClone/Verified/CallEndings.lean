import RedisClone.Verified.Capacities
import RedisClone.Verified.Replays
import RedisClone.Verified.Restart
import RedisClone.Verified.StreamEndings

/-! # Calls of `handle` that come to an end

`ArmAnswers` lists the branches of every arm that send one complete value to the client, or leave it blocked, and
`ArmReads` what the arm must find to come to an end: its arguments, a key that the walk ends at, and a value of the type
that it is cast to.  Behind the arm the watchers of the key are marked, and the request is written to the file.  A call
of `handle` ends where all of these are as they should be (`handle_ends`).
-/

namespace RedisClone

open Exec CString

variable {D : Type} [Externals D]

/-! ## The condition -/

/-- The arm takes no branch without a reply or with two, and what it sends fits the array that it is printed to. -/
def ArmAnswers (w : World D) (client : Client) (req : RespRequest) : Prop :=
  match req.command with
  | .echo => ∀ word ∈ req.args[0]?, (bulk word).length < 1024
  | .ping | .type | .incr | .select | .command => True
  | .info => 1 ≤ req.argc ∧ (∀ part ∈ req.args[0]?, upper part = lit "REPLICATION") ∧
      (infoContent w.serverConfig).length < 1024
  | .replconf => ∀ subCmd ∈ req.args[0]?, upper subCmd ≠ lit "ACK"
  | .wait => client.isReplica = false
  | .keys => ∀ keys, keysOf (List.finRange tableSize) w = .ok (keys, w) → (arrayText (keys.take 256)).length < 8192
  | .auth => 2 ≤ req.argc
  | .acl => (∀ subCmd ∈ req.args[0]?, AclAnswers req subCmd) ∧
      (w.defaultHasNopass = false → (bulk w.defaultPassword).length < 988)
  | .configGet => req.argc ≤ 2 ∧ ∀ parameter ∈ req.args[0]?, ∃ size name value,
      (configParameters w.serverConfig).lookup (upper parameter) = some (size, name, value) ∧
        (arrayText [name, value]).length < size
  | .set => 2 ≤ req.argc
  | .get => ∀ key ∈ req.args[0]?, ∀ text expiresAt, lookup w.table key = .ok (some ⟨.string text, expiresAt⟩) →
      Live w ⟨.string text, expiresAt⟩ → (bulk text).length < 1024
  | .lpush => PushCounted w req
  | .rpush => PushCounted w req ∧ ∀ key ∈ req.args[0]?, ¬ client.waitsFor key
  | .lpop => 1 ≤ req.argc ∧ LpopFits w req
  | .lrange => 3 ≤ req.argc ∧ LrangeFits w req
  | .llen => 1 ≤ req.argc ∧ ∀ key ∈ req.args[0]?, (elements w.table key).length < 2 ^ 31
  | .blpop => 2 ≤ req.argc ∧ BlpopFits w req
  | .zadd => 3 ≤ req.argc ∧ req.args.length < 2 ^ 31
  | .zrank | .zscore | .zrem => 2 ≤ req.argc
  | .zrange => 3 ≤ req.argc ∧ ZrangeFits w req
  | .zcard => 1 ≤ req.argc ∧ ∀ key ∈ req.args[0]?, ∀ set expiresAt,
      binding w.table key = some ⟨.zset set, expiresAt⟩ → set.length < 2 ^ 31
  | .geoadd => 4 ≤ req.argc ∧ req.args.length < 2 ^ 31 ∧ GeoaddFits D req
  | .geopos => 2 ≤ req.argc ∧ GeoposFits w req
  | .geodist => 3 ≤ req.argc
  | .geosearch => 7 ≤ req.argc ∧ GeosearchFits w req
  | .xadd => 2 ≤ req.argc ∧ XaddFits w req ∧ ∀ key ∈ req.args[0]?, ¬ client.reads key
  | .xrange => (∀ key ∈ req.args[0]?, ∃ stream expiresAt, binding w.table key = some ⟨.stream stream, expiresAt⟩) ∧
      XrangeFits w req
  | .xread => XreadFits w req
  | .subscribe => SubscribesOne client req
  | .publish => 2 ≤ req.argc ∧ PublishesElsewhere w client req
  | .unsubscribe => 1 ≤ req.argc ∧ UnsubscribeFits client req
  | .multi | .exec | .discard | .watch | .unwatch | .unknown => True
  -- three sends, and the arms that have no handler
  | .psync | .del | .exists | .expire | .ttl | .decr | .append | .strlen | .mget | .rpop | .hset | .hget | .hgetall
  | .hdel | .sadd | .srem | .smembers | .sismember | .xgroup => False

/-- The arm finds what it reads. -/
def ArmReads (w : World D) (client : Client) (req : RespRequest) : Prop :=
  match req.command with
  | .echo | .configGet => 1 ≤ req.argc
  | .replconf | .multi | .exec | .discard | .watch | .unwatch | .unknown => Printable req 0
  | .acl => 1 ≤ req.argc ∧ ∀ subCmd ∈ req.args[0]?, upper subCmd = lit "GETUSER" → 2 ≤ req.argc
  | .wait => WaitReads w req
  | .keys => ∀ bucket, (w.table bucket).wild = false
  | .set | .type => FindsFirst w req fun _ => True
  | .get => GetReads w req
  | .incr => IncrReads w req
  | .lpush | .rpush => 2 ≤ req.argc → FindsFirst w req IsList
  | .lpop | .llen | .blpop => FindsFirst w req IsList
  | .lrange => FindsFirst w req IsList ∧ IndicesFit w req
  | .zadd => (req.argc - 1).tmod 2 = 0 → FindsFirst w req IsZSet
  | .zrank | .zrem | .zcard | .geopos | .geodist => FindsFirst w req IsZSet
  | .zscore | .zrange | .geosearch => FindsFirst w req IsCounted
  | .geoadd => ∀ args, geoScores (D := D) (geoTriples (req.args.drop 1)) = .ok args → FindsFirst w req IsZSet
  | .xadd => XaddReads w req
  | .xrange => XrangeReads w req
  | .xread => XreadReads w req
  | .subscribe => ∀ channel ∈ req.args[0]?, SubscribeReads client channel
  | .publish => PublishReads w
  | .unsubscribe => ∀ channel ∈ req.args[0]?, UnsubscribeReads client channel 0
  | _ => True

/-- The clients that watch a key of the bucket of the first argument are allocated. -/
def WatchersFound (w : World D) (req : RespRequest) : Prop :=
  ∃ key bucket, req.args[0]? = some key ∧ bucketOf key = some bucket ∧
    ∀ ptr, some ptr ∈ w.watching bucket → w.heap ptr ≠ none

/-- Nothing is written to the file, or it can be written to. -/
def LogReady (w : World D) : Prop :=
  Writable w.files ∨ ∀ block, upperText block w.serverConfig.appendOnly ≠ lit "YES"

/-- The keys have buckets, and there is room for them in the arrays of WATCH. -/
structure Watchable (w : World D) (client : Client) (keys : List Bytes) : Prop where
  indexed : ∀ key ∈ keys, bucketOf key ≠ none
  keysFit : client.watchKeys.length + keys.length ≤ maxWatchKeys
  listsFit : ∀ bucket, (w.watching bucket).length + keysIn bucket keys ≤ maxClients

/-- The request is answered with one complete value, or blocks the client. -/
structure AnswersOnce (w : World D) (ptr : ClientPtr) (client : Client) (req : RespRequest) : Prop where
  hasKey : req.command = .watch → 1 ≤ req.argc
  hasRoom : isTransactionCmd req.command = false → client.isQueued = true → client.requests.length < maxQueuedCmds
  watchable : req.command = .watch → client.isQueued = false → Watchable w client req.args
  releasable : endsScope client req = true → Releasable w ptr client
  answers : reachesArm client req = true → ArmAnswers (w.noted req) client req
  reads : reachesArm client req = true → ArmReads (w.noted req) client req
  notifies : reachesArm client req = true → notifies req.command = true → WatchersFound w req
  logs : reachesArm client req = true → logs req.command = true → LogReady w

/-! ## The arms -/

section Arms

variable {w t : World D} {req : RespRequest} {ptr : ClientPtr} {client : Client}

theorem arm_ends (found : w.heap ptr = some client) (allocated : w.Allocated) (answers : ArmAnswers w client req)
    (reads : ArmReads w client req) : Ends (arm req ptr client) w := by
  unfold arm
  unfold ArmAnswers at answers
  unfold ArmReads at reads
  cases command : req.command <;> simp only [command] at answers reads
  case echo => exact ends_handleEcho reads
  case ping => exact Total.ends w
  case info => exact ends_handleInfo
  case replconf => exact ends_handleReplconf reads found
  case wait => exact ends_handleWait allocated reads
  case keys => exact ends_handleKey reads (answers _ (keysOf_all.mpr ⟨reads, rfl, rfl⟩))
  case select | command => exact Total.ends w
  case auth => exact ends_handleAuth found
  case acl => exact ends_handleAcl reads.1 found reads.2
  case configGet => exact ends_handleConfig reads
  case set => exact ends_handleSet answers reads
  case get => exact ends_handleGet reads
  case type => exact ends_handleType reads
  case incr => exact ends_handleIncr reads
  case lpush => exact ends_handleLpush reads
  case rpush => exact ends_handleRpush allocated reads
  case lpop => exact ends_handleLpop reads answers.2
  case lrange => exact ends_handleLrange reads.1 reads.2 answers.2
  case llen => exact ends_handleLlen fun _ => reads
  case blpop => exact ends_handleBlpop found fun _ => reads
  case zadd => exact ends_handleZadd fun _ => reads
  case zrank => exact ends_handleZrank fun _ => reads
  case zrange => exact ends_handleZrange (fun _ => reads) answers.2
  case zcard => exact ends_handleZcard fun _ => reads
  case zscore => exact ends_handleZscore fun _ => reads
  case zrem => exact ends_handleZrem fun _ => reads
  case geoadd => exact ends_handleGeoadd fun _ => reads
  case geopos => exact ends_handleGeopos (fun _ => reads) answers.2
  case geodist => exact ends_handleGeodist fun _ => reads
  case geosearch => exact ends_handleGeosearch fun _ => reads
  case xadd => exact ends_handleXadd answers.1 allocated reads
  case xread => exact ends_handleXread found reads answers
  case xrange => exact ends_handleXrange reads answers.1 answers.2
  case subscribe => exact ends_handleSubscribe found answers reads
  case publish => exact ends_handlePublish allocated reads
  case unsubscribe => exact ends_handleUnsubscribe found reads
  case multi | exec | discard | watch | unwatch | unknown => exact .after (printArg_printable reads w) (Total.ends _)

omit [Externals D] in
theorem notifyFirst_ends (watchers : WatchersFound w req) : Ends (notifyFirst req) w := by
  obtain ⟨key, bucket, isKey, inBucket, allocated⟩ := watchers
  obtain ⟨t, marks⟩ := forM_markDirty_total allocated
  have list : watchersOf key w = .ok (w.watching bucket, w) := by
    unfold watchersOf
    rw [bind_of_ok (tableIndex_of_bucket inBucket w)]
    rfl
  unfold notifyFirst notifyWatchers
  exact ends_arg isKey (.after list (.of_ok marks))

omit [Externals D] in
theorem writeToFile_ends (ready : LogReady w) (req : RespRequest) : Ends (writeToFile req) w := by
  obtain writable | off := ready
  · obtain ⟨t, run⟩ := writeToFile_total writable req
    exact .of_ok run
  · unfold writeToFile
    refine .after (show config w = .ok (w.serverConfig, w) from rfl) ?_
    refine .after (toUpperCopy_run _ w) (.ite (fun _ => Total.ends _) fun enabled => ?_)
    exact absurd (not_not.mp enabled) (off _)

omit [Externals D] in
theorem serverConfig_notifyFirst {c : Prop} [Decidable c] (run : onlyIf c (notifyFirst req) w = .ok ((), t)) :
    t.serverConfig = w.serverConfig := by
  unfold onlyIf at run
  split at run
  · obtain ⟨_, _, _, _, rfl⟩ := notifyFirst_run run
    rfl
  · obtain ⟨_, rfl⟩ := Prod.mk.inj (Except.ok.inj run)
    rfl

omit [Externals D] in
/-- The setting that a server is started with where no other is given. -/
theorem logReady_no (isNo : w.serverConfig.appendOnly = lit "no") : LogReady w := by
  refine .inr fun block => ?_
  rw [isNo, upperText, show upper (lit "no") = 78 :: [79] by decide, show lit "YES" = 89 :: [69, 83] by decide]
  simp

/-- The setting of the file is one that no arm changes. -/
theorem appendOnly_arm (run : arm req ptr client w = .ok ((), t)) :
    t.serverConfig.appendOnly = w.serverConfig.appendOnly := by
  refine ((obeysAt_arm ambient_grows (.inl trivial) (.inl trivial) ?_ fun _ => mayBlock_grows).1 () t run).appendOnly
  exact fun _ _ _ _ _ _ _ => grows_of_same rfl rfl rfl

theorem dispatch_ends (found : w.heap ptr = some client) (allocated : w.Allocated)
    (answers : ArmAnswers (w.noted req) client req) (reads : ArmReads (w.noted req) client req)
    (watchers : notifies req.command = true → WatchersFound w req) (ready : logs req.command = true → LogReady w) :
    Ends (dispatch req ptr) w := by
  rw [dispatch_eq]
  refine ends_loadClient found ?_
  refine .after (show noteExecuted req w = .ok ((), w.noted req) from rfl) ?_
  refine .bind (arm_ends (w := w.noted req) found allocated answers reads) fun _ handled handles => ?_
  have kept := kept_arm handles
  refine .bind (.onlyIf fun notified => notifyFirst_ends ?_) fun _ marked marks => .onlyIf fun logged => ?_
  · obtain ⟨key, bucket, isKey, inBucket, watching⟩ := watchers notified
    refine ⟨key, bucket, isKey, inBucket, fun watcher member => ?_⟩
    rw [World.watching, kept.watchers] at member
    obtain ⟨client', foundWatcher⟩ := Option.ne_none_iff_exists'.mp (watching watcher member)
    obtain ⟨after, foundAfter, _⟩ := kept.heap watcher client' foundWatcher
    simp [foundAfter]
  · refine writeToFile_ends ?_ req
    have files : marked.files = w.files := ((kept_notifyFirst marks).files id).trans (kept.files id)
    have appendOnly : marked.serverConfig.appendOnly = w.serverConfig.appendOnly := by
      rw [serverConfig_notifyFirst marks, appendOnly_arm handles]
      rfl
    unfold LogReady
    rw [files, appendOnly]
    exact ready logged

end Arms

/-! ## A call -/

section Handle

variable {w t : World D} {req : RespRequest} {ptr : ClientPtr} {client : Client}

/-- A transaction command comes to an end, unless it runs a queue. -/
theorem handle_transaction_ends (found : w.heap ptr = some client) (isTransaction : isTransactionCmd req.command = true)
    (starts : startsTransaction client req = false) (once : AnswersOnce w ptr client req) : Ends (handle req ptr) w := by
  have leaves (ends : endsScope client req = true) : Ends (handle req ptr) w := by
    obtain ⟨t, _, run, _⟩ := handle_endsScope found ends (once.releasable ends)
    exact .of_ok run
  cases command : req.command <;> simp only [command, isTransactionCmd, Bool.false_eq_true] at isTransaction
  case multi =>
    refine Ends.congr ?_ (handle_multi found command)
    unfold handleMulti
    exact ends_loadClient found (.ite (fun _ => Total.ends _) fun _ => .after (updateClient_found found) (Total.ends _))
  case exec =>
    cases inMulti : client.isQueued with
    | true =>
      -- an EXEC that runs its queue is a transaction of its own and not meant here
      have dirty : client.isDirty = true := by simpa [startsTransaction, command, inMulti] using starts
      exact leaves (endsScope_cases.mpr (.inr ⟨inMulti, .inr ⟨command, dirty⟩⟩))
    | false =>
      refine Ends.congr ?_ (handle_exec found command)
      unfold handleExec
      refine ends_loadClient found ?_
      rw [if_pos (by simp [inMulti])]
      exact Total.ends _
  case discard =>
    cases inMulti : client.isQueued with
    | true => exact leaves (endsScope_cases.mpr (.inr ⟨inMulti, .inl command⟩))
    | false =>
      refine Ends.congr ?_ (handle_discard found command)
      unfold handleDiscard
      refine ends_loadClient found ?_
      rw [if_pos (by simp [inMulti])]
      exact Total.ends _
  case watch =>
    refine Ends.congr ?_ (handle_watch found command)
    unfold handleWatch
    refine .ite (fun _ => Total.ends _) fun _ => ends_loadClient found (.ite (fun _ => Total.ends _) fun outside => ?_)
    obtain ⟨indexed, keysFit, listsFit⟩ := once.watchable command (by simpa using outside)
    obtain ⟨watched, watches⟩ := watchKeys_total found indexed keysFit listsFit
    exact .after watches (Total.ends _)
  case unwatch => exact leaves (endsScope_cases.mpr (.inl command))

/-- A call that meets the condition comes to an end. -/
theorem handle_ends (found : w.heap ptr = some client) (allocated : w.Allocated)
    (starts : startsTransaction client req = false) (once : AnswersOnce w ptr client req) : Ends (handle req ptr) w := by
  cases isTransaction : isTransactionCmd req.command with
  | true => exact handle_transaction_ends found isTransaction starts once
  | false =>
    cases inMulti : client.isQueued with
    | true =>
      refine Ends.congr ?_ (handle_queued found inMulti isTransaction)
      unfold queueCommand
      refine ends_loadClient found (.ite (fun full => ?_) fun _ => .after (updateClient_found found) (Total.ends _))
      have room := once.hasRoom isTransaction inMulti
      omega
    | false =>
      refine Ends.congr ?_ (handle_command found inMulti isTransaction)
      unfold handleCommand
      refine ends_loadClient found (.ite (fun _ => Total.ends _) fun admitted => ?_)
      have reaches : reachesArm client req = true := by
        rw [reachesArm_eq_true]
        exact ⟨isTransaction, inMulti, fun subscribed => by simpa [subscribed] using admitted⟩
      exact dispatch_ends found allocated (once.answers reaches) (once.reads reaches) (once.notifies reaches)
        (once.logs reaches)

end Handle

end RedisClone
