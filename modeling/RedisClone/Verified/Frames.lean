import RedisClone.Verified.Server

/-! # What one call of `handle` can do

`Kept` is the frame of everything but a few named parts of the state, and `kept_dispatch` the frame of
a command.  `handle_cases` lists what a call of `handle` can do that does not start to run a queue.
-/

namespace RedisClone

open Exec

variable {D : Type}

/-! ## Frames -/

/-- What a computation may change, apart from what every arm may. -/
structure May where
  write : Bucket → Prop := fun _ => False
  note : Prop := False
  mark : Prop := False
  log : Prop := False
  pass : Prop := False

/-- A client after a computation that keeps its session, or only marks it as dirty. -/
structure SessionKept (mark : Prop) (client client' : Client) : Prop where
  fd : client'.fd = client.fd
  isQueued : client'.isQueued = client.isQueued
  requests : client'.requests = client.requests
  watchKeys : client'.watchKeys = client.watchKeys
  dirty : client.isDirty → client'.isDirty
  clean : ¬ mark → client'.isDirty = client.isDirty

structure Kept (may : May) (w w' : World D) : Prop where
  clients : w'.clients = w.clients
  activeFds : w'.activeFds = w.activeFds
  watchers : w'.watchers = w.watchers
  masterFd : w'.serverConfig.masterFd = w.serverConfig.masterFd
  table : ∀ bucket, ¬ may.write bucket → w'.table bucket = w.table bucket
  executed : ¬ may.note → w'.executed = w.executed
  files : ¬ may.log → w'.files = w.files
  passed : ¬ may.pass → w'.passed = w.passed
  free : ∀ ptr, w.heap ptr = none → w'.heap ptr = none
  heap : ∀ ptr client, w.heap ptr = some client →
    ∃ client', w'.heap ptr = some client' ∧ SessionKept may.mark client client'

theorem SessionKept.refl (mark : Prop) (client : Client) : SessionKept mark client client :=
  ⟨rfl, rfl, rfl, rfl, id, fun _ => rfl⟩

theorem SessionKept.trans {mark : Prop} {first second third : Client}
    (before : SessionKept mark first second) (after : SessionKept mark second third) :
    SessionKept mark first third where
  fd := after.fd.trans before.fd
  isQueued := after.isQueued.trans before.isQueued
  requests := after.requests.trans before.requests
  watchKeys := after.watchKeys.trans before.watchKeys
  dirty := fun dirty => after.dirty (before.dirty dirty)
  clean := fun unmarked => (after.clean unmarked).trans (before.clean unmarked)

theorem SessionKept.of_session {client client' : Client} (same : SameSession client client')
    (mark : Prop) : SessionKept mark client client' := by
  simp only [SameSession, Client.session, Session.mk.injEq] at same
  obtain ⟨fd, isQueued, requests, watchKeys, isDirty, _⟩ := same
  exact ⟨fd, isQueued, requests, watchKeys, fun dirty => isDirty ▸ dirty, fun _ => isDirty⟩

/-- A change of parts that the frame does not have. -/
theorem Kept.of_same {may : May} {w w' : World D} (clients : w'.clients = w.clients)
    (activeFds : w'.activeFds = w.activeFds) (watchers : w'.watchers = w.watchers)
    (masterFd : w'.serverConfig.masterFd = w.serverConfig.masterFd)
    (table : ∀ bucket, ¬ may.write bucket → w'.table bucket = w.table bucket)
    (executed : ¬ may.note → w'.executed = w.executed)
    (files : ¬ may.log → w'.files = w.files) (passed : ¬ may.pass → w'.passed = w.passed)
    (heap : w'.heap = w.heap) : Kept may w w' where
  clients := clients
  activeFds := activeFds
  watchers := watchers
  masterFd := masterFd
  table := table
  executed := executed
  files := files
  passed := passed
  free ptr missing := by rw [heap, missing]
  heap ptr client found := ⟨client, by rw [heap, found], .refl _ client⟩

theorem Kept.refl (may : May) (w : World D) : Kept may w w :=
  .of_same rfl rfl rfl rfl (fun _ _ => rfl) (fun _ => rfl) (fun _ => rfl) (fun _ => rfl) rfl

theorem Kept.trans {may : May} {w w' w'' : World D} (before : Kept may w w')
    (after : Kept may w' w'') : Kept may w w'' where
  clients := after.clients.trans before.clients
  activeFds := after.activeFds.trans before.activeFds
  watchers := after.watchers.trans before.watchers
  masterFd := after.masterFd.trans before.masterFd
  table bucket kept := (after.table bucket kept).trans (before.table bucket kept)
  executed unnoted := (after.executed unnoted).trans (before.executed unnoted)
  files unlogged := (after.files unlogged).trans (before.files unlogged)
  passed unpassed := (after.passed unpassed).trans (before.passed unpassed)
  free ptr missing := after.free ptr (before.free ptr missing)
  heap ptr client found := by
    obtain ⟨client', found', kept⟩ := before.heap ptr client found
    obtain ⟨client'', found'', kept'⟩ := after.heap ptr client' found'
    exact ⟨client'', found'', kept.trans kept'⟩

/-- A frame that allows more. -/
theorem Kept.mono {may may' : May} {w w' : World D} (kept : Kept may w w')
    (write : ∀ bucket, may.write bucket → may'.write bucket) (note : may.note → may'.note)
    (mark : may.mark → may'.mark) (log : may.log → may'.log) (pass : may.pass → may'.pass) :
    Kept may' w w' where
  clients := kept.clients
  activeFds := kept.activeFds
  watchers := kept.watchers
  masterFd := kept.masterFd
  table bucket unwritten := kept.table bucket fun written => unwritten (write bucket written)
  executed unnoted := kept.executed fun noted => unnoted (note noted)
  files unlogged := kept.files fun logged => unlogged (log logged)
  passed unpassed := kept.passed fun passed => unpassed (pass passed)
  free := kept.free
  heap ptr client found := by
    obtain ⟨client', found', session⟩ := kept.heap ptr client found
    refine ⟨client', found', session.fd, session.isQueued, session.requests, session.watchKeys,
      session.dirty, fun unmarked => session.clean fun marked => unmarked (mark marked)⟩

theorem kept_composes (may : May) : Composes (Kept (D := D) may) :=
  ⟨Kept.refl may, Kept.trans⟩

theorem kept_setClient {may : May} {w : World D} {ptr : ClientPtr} {client client' : Client}
    (found : w.heap ptr = some client) (session : SessionKept may.mark client client') :
    Kept may w (w.setClient ptr client') where
  clients := rfl
  activeFds := rfl
  watchers := rfl
  masterFd := rfl
  table _ _ := rfl
  executed _ := rfl
  files _ := rfl
  passed _ := rfl
  free other missing := by
    have distinct : other ≠ ptr := by
      rintro rfl
      simp [found] at missing
    exact (Function.update_of_ne distinct _ _).trans missing
  heap other old oldFound := by
    by_cases same : other = ptr
    · subst same
      obtain rfl : client = old := by simpa [found] using oldFound
      exact ⟨client', Function.update_self _ _ _, session⟩
    · exact ⟨old, (Function.update_of_ne same _ _).trans oldFound, .refl _ old⟩

theorem ambient_kept (may : May) : Ambient (Kept (D := D) may) fun _ => True where
  composes := kept_composes may
  emit _ _ _ := .of_same rfl rfl rfl rfl (fun _ _ => rfl) (fun _ => rfl) (fun _ => rfl)
    (fun _ => rfl) rfl
  tick _ := .of_same rfl rfl rfl rfl (fun _ _ => rfl) (fun _ => rfl) (fun _ => rfl)
    (fun _ => rfl) rfl
  takeFresh _ := .of_same rfl rfl rfl rfl (fun _ _ => rfl) (fun _ => rfl) (fun _ => rfl)
    (fun _ => rfl) rfl
  change _ _ _ _ found same _ := kept_setClient found (.of_session same _)
  authorize _ _ _ := .of_same rfl rfl rfl rfl (fun _ _ => rfl) (fun _ => rfl)
    (fun _ => rfl) (fun _ => rfl) rfl
  faults _ _ _ := trivial

theorem mayBlock_kept (may : May) : MayBlock (Kept (D := D) may) where
  change _ _ _ _ found same := kept_setClient found (.of_session same _)
  configure w f same := by
    refine .of_same rfl rfl rfl ?_ (fun _ _ => rfl) (fun _ => rfl) (fun _ => rfl) (fun _ => rfl) rfl
    change (f w.serverConfig).masterFd = _
    rw [same w.serverConfig]

theorem mayWrite_kept {may : May} {key : Bytes}
    (write : ∀ bucket, bucketOf key = some bucket → may.write bucket) :
    MayWrite (Kept (D := D) may) key := by
  intro w bucket chain inBucket
  refine .of_same rfl rfl rfl rfl (fun other unwritten => ?_) (fun _ => rfl) (fun _ => rfl)
    (fun _ => rfl) rfl
  refine Function.update_of_ne ?_ _ _
  rintro rfl
  exact unwritten (write other inBucket)

theorem mayMark_kept (may : May) (mark : may.mark) : MayMark (Kept (D := D) may) := by
  intro w ptr client found
  refine kept_setClient found ?_
  exact ⟨rfl, rfl, rfl, rfl, fun _ => rfl, fun unmarked => absurd mark unmarked⟩

theorem mayLog_kept (may : May) (log : may.log) : MayLog (Kept (D := D) may) where
  rename _ _ := .of_same rfl rfl rfl rfl (fun _ _ => rfl) (fun _ => rfl) (fun _ => rfl)
    (fun _ => rfl) rfl
  append _ _ := .of_same rfl rfl rfl rfl (fun _ _ => rfl) (fun _ => rfl)
    (fun unlogged => absurd log unlogged) (fun _ => rfl) rfl

/-! ## A command -/

/-- The state in which the arm of a request starts. -/
def World.noted (w : World D) (req : RespRequest) : World D :=
  { w with executed := if isWriteCmd req.command then w.executed ++ [req] else w.executed }

/-- The bucket of the request's key, where the arm gets as far as to write it. -/
def WritesBucket [Externals D] (w : World D) (req : RespRequest) (bucket : Bucket) : Prop :=
  ArmWrites w req ∧ ∃ key, req.args[0]? = some key ∧ bucketOf key = some bucket

variable [Externals D]

/-- The parts of a command: its handler, `notify_watchers` and `write_to_file`. -/
theorem dispatch_parts {req : RespRequest} {ptr : ClientPtr} {w w' : World D}
    (run : dispatch req ptr w = .ok ((), w')) :
    ∃ client handled notified, w.heap ptr = some client ∧
      arm req ptr client (w.noted req) = .ok ((), handled) ∧
      onlyIf (notifies req.command) (notifyFirst req) handled = .ok ((), notified) ∧
      onlyIf (logs req.command) (writeToFile req) notified = .ok ((), w') := by
  rw [dispatch_eq] at run
  obtain ⟨client, loaded, load, afterLoad⟩ := bind_eq_ok.mp run
  obtain ⟨found, rfl⟩ := loadClient_eq_ok.mp load
  rw [bind_of_ok (show noteExecuted req loaded = .ok ((), loaded.noted req) from rfl)] at afterLoad
  obtain ⟨_, handled, handler, afterArm⟩ := bind_eq_ok.mp afterLoad
  obtain ⟨_, notified, notify, write⟩ := bind_eq_ok.mp afterArm
  exact ⟨client, handled, notified, found, handler, notify, write⟩

theorem kept_arm {req : RespRequest} {ptr : ClientPtr} {client : Client} {w w' : World D}
    (run : arm req ptr client w = .ok ((), w')) :
    Kept { write := WritesBucket w req } w w' := by
  refine (obeysAt_arm (ambient_kept _) (.inl trivial) (.inl trivial) ?_
    fun _ => mayBlock_kept _).1 () w' run
  exact fun writes key isKey => mayWrite_kept fun bucket inBucket => ⟨writes, key, isKey, inBucket⟩

omit [Externals D] in
theorem kept_notifyFirst {req : RespRequest} {w w' : World D} {c : Prop} [Decidable c]
    (run : onlyIf c (notifyFirst req) w = .ok ((), w')) : Kept { mark := c } w w' := by
  have obeys : Obeys (Kept { mark := c }) (fun _ => True) (onlyIf c (notifyFirst req) : M D Unit) :=
    Obeys.onlyIf (kept_composes _) fun notified =>
      obeys_notifyFirst (ambient_kept _) (.inl trivial) (mayMark_kept _ notified)
  exact (obeys w).1 () w' run

omit [Externals D] in
theorem kept_writeToFile {req : RespRequest} {w w' : World D} {c : Prop} [Decidable c]
    (run : onlyIf c (writeToFile req) w = .ok ((), w')) : Kept { log := c } w w' := by
  have obeys : Obeys (Kept { log := c }) (fun _ => True) (onlyIf c (writeToFile req) : M D Unit) :=
    Obeys.onlyIf (kept_composes _) fun logged =>
      obeys_writeToFile (ambient_kept _) (mayLog_kept _ logged)
  exact (obeys w).1 () w' run

omit [Externals D] in
/-- What follows the arm leaves the table. -/
theorem table_afterArm {req req' : RespRequest} {w w' w'' : World D} {c c' : Prop} [Decidable c] [Decidable c']
    (notify : onlyIf c (notifyFirst req) w = .ok ((), w')) (write : onlyIf c' (writeToFile req') w' = .ok ((), w'')) :
    w''.table = w.table := by
  funext bucket
  rw [(kept_writeToFile write).table bucket id, (kept_notifyFirst notify).table bucket id]

/-- What a command may change. -/
def mayOf (w : World D) (req : RespRequest) : May where
  write := WritesBucket w req
  note := isWriteCmd req.command
  mark := notifies req.command
  log := logs req.command

theorem kept_dispatch {req : RespRequest} {ptr : ClientPtr} {w w' : World D}
    (run : dispatch req ptr w = .ok ((), w')) : Kept (mayOf w req) w w' := by
  refine (obeysAt_dispatch (ambient_kept _) (.inl trivial) (.inl trivial) ?_
    (fun _ => mayBlock_kept _) ?_ ?_ ?_).1 () w' run
  · exact fun writes key isKey => mayWrite_kept fun bucket inBucket => ⟨writes, key, isKey, inBucket⟩
  · exact fun w executed noted => .of_same rfl rfl rfl rfl (fun _ _ => rfl)
      (fun unnoted => absurd noted unnoted) (fun _ => rfl) (fun _ => rfl) rfl
  · exact mayMark_kept (mayOf w req)
  · exact mayLog_kept (mayOf w req)

/-- A command is logged as executed once, if it is a write command. -/
theorem dispatch_executed {req : RespRequest} {ptr : ClientPtr} {w w' : World D}
    (run : dispatch req ptr w = .ok ((), w')) : w'.executed = (w.noted req).executed := by
  obtain ⟨client, handled, notified, _, handler, notify, write⟩ := dispatch_parts run
  rw [(kept_writeToFile write).executed id, (kept_notifyFirst notify).executed id,
    (kept_arm handler).executed id]

/-! ## A call of `handle` -/

/-- The client after `handle_discard`, or an aborted `handle_exec`, left the transaction. -/
def Client.leaveMulti (client : Client) : Client := { client with requests := [], isQueued := false }

/-- The requests that are answered with an error and change nothing. -/
def Refuses (client : Client) (req : RespRequest) : Prop :=
  match req.command with
  | .multi | .watch => client.isQueued = true
  | .exec | .discard => client.isQueued = false
  | .unwatch => False
  | cmd => client.isQueued = false ∧ client.isSubscribed = true ∧ isChannelCmd cmd = false

/-- What one call of `handle` can do that does not start to run a queue. -/
inductive Handled (w : World D) (req : RespRequest) (ptr : ClientPtr) (client : Client) :
    World D → Prop where
  | queued (ordinary : isTransactionCmd req.command = false) (inMulti : client.isQueued = true)
      (room : client.requests.length < maxQueuedCmds) :
      Handled w req ptr client
        ((w.setClient ptr { client with requests := client.requests ++ [copyRequest req] }).emit
          client.fd (CString.lit "+QUEUED\r\n"))
  | opened (isMulti : req.command = .multi) (outside : client.isQueued = false) :
      Handled w req ptr client
        ((w.setClient ptr { client with requests := [], isQueued := true }).emit client.fd okReply)
  | refused (text : Bytes) (reason : Refuses client req) :
      Handled w req ptr client (w.emit client.fd text)
  | ignored (isWatch : req.command = .watch) (noKey : req.argc < 1) : Handled w req ptr client w
  | watched {t : World D} (isWatch : req.command = .watch) (outside : client.isQueued = false)
      (run : forM req.args (watchKey ptr) w = .ok ((), t)) :
      Handled w req ptr client (t.emit client.fd okReply)
  | unwatched {t : World D} (fd : Int) (isUnwatch : req.command = .unwatch)
      (run : deleteWatchedKeys ptr w = .ok ((), t)) :
      Handled w req ptr client (t.emit fd okReply)
  | left {t : World D} (reply : Bytes) (inMulti : client.isQueued = true)
      (isEnd : req.command = .discard ∨ req.command = .exec ∧ client.isDirty = true)
      (run : deleteWatchedKeys ptr (w.setClient ptr client.leaveMulti) = .ok ((), t)) :
      Handled w req ptr client (t.emit client.fd reply)
  | dispatched {w' : World D} (reaches : reachesArm client req = true)
      (run : dispatch req ptr w = .ok ((), w')) : Handled w req ptr client w'

omit [Externals D] in
theorem send_run {fd : Int} {bytes : Bytes} {w w' : World D}
    (run : send fd bytes w = .ok ((), w')) : w' = w.emit fd bytes := by
  simpa [send, eq_comm] using run

omit [Externals D] in
/-- A text that fits is sent as it is. -/
theorem sendText_run {size : Nat} {fd : Int} {text : Bytes} {w : World D} (fits : text.length < size) :
    sendText size fd text w = .ok ((), w.emit fd text) := by
  rw [sendText, List.take_of_length_le (by omega)]
  rfl

/-! ### The branches of `handle` -/

section Branches

variable {req : RespRequest} {ptr : ClientPtr} {client : Client} {w : World D}

theorem handle_queued (found : w.heap ptr = some client) (inMulti : client.isQueued = true)
    (ordinary : isTransactionCmd req.command = false) :
    handle req ptr w = queueCommand req ptr w := by
  unfold handle handleWith
  rw [bind_of_ok (loadClient_found found), if_pos (by simp [inMulti, ordinary])]

theorem handle_command (found : w.heap ptr = some client) (outside : client.isQueued = false)
    (ordinary : isTransactionCmd req.command = false) :
    handle req ptr w = handleCommand req ptr w := by
  unfold handle handleWith
  rw [bind_of_ok (loadClient_found found), if_neg (by simp [outside])]
  revert ordinary
  cases req.command <;> simp [isTransactionCmd]

theorem handle_multi (found : w.heap ptr = some client) (isMulti : req.command = .multi) :
    handle req ptr w = handleMulti ptr w := by
  unfold handle handleWith
  rw [bind_of_ok (loadClient_found found), isMulti]
  simp [isTransactionCmd]

theorem handle_exec (found : w.heap ptr = some client) (isExec : req.command = .exec) :
    handle req ptr w = handleExec (handleWith execWithoutMulti) ptr w := by
  unfold handle handleWith
  rw [bind_of_ok (loadClient_found found), isExec]
  simp [isTransactionCmd]

theorem handle_discard (found : w.heap ptr = some client) (isDiscard : req.command = .discard) :
    handle req ptr w = handleDiscard ptr w := by
  unfold handle handleWith
  rw [bind_of_ok (loadClient_found found), isDiscard]
  simp [isTransactionCmd]

theorem handle_watch (found : w.heap ptr = some client) (isWatch : req.command = .watch) :
    handle req ptr w = handleWatch req ptr w := by
  unfold handle handleWith
  rw [bind_of_ok (loadClient_found found), isWatch]
  simp [isTransactionCmd]

theorem handle_unwatch (found : w.heap ptr = some client) (isUnwatch : req.command = .unwatch) :
    handle req ptr w = handleUnwatch ptr w := by
  unfold handle handleWith
  rw [bind_of_ok (loadClient_found found), isUnwatch]
  simp [isTransactionCmd]

end Branches

theorem handleCommand_cases {req : RespRequest} {ptr : ClientPtr} {client : Client} {w w' : World D}
    (found : w.heap ptr = some client) (outside : client.isQueued = false)
    (ordinary : isTransactionCmd req.command = false)
    (run : handleCommand req ptr w = .ok ((), w')) : Handled w req ptr client w' := by
  rw [handleCommand, bind_of_ok (loadClient_found found)] at run
  split at run
  · rename_i guard
    rw [send_run run]
    refine .refused _ ?_
    simp only [Bool.and_eq_true, Bool.not_eq_true'] at guard
    revert ordinary guard
    unfold Refuses
    cases req.command <;> simp [isTransactionCmd, outside]
  · rename_i guard
    refine .dispatched (reachesArm_eq_true.mpr ⟨ordinary, outside, fun subscribed => ?_⟩) run
    simpa [subscribed] using guard

theorem handleExec_cases {exec : RespRequest → ClientPtr → M D Unit} {req : RespRequest}
    {ptr : ClientPtr} {client : Client} {w w' : World D} (found : w.heap ptr = some client)
    (isExec : req.command = .exec) (starts : startsTransaction client req = false)
    (run : handleExec exec ptr w = .ok ((), w')) : Handled w req ptr client w' := by
  cases inMulti : client.isQueued with
  | false =>
    rw [handleExec_outside exec found inMulti, Except.ok.injEq, Prod.mk.injEq] at run
    rw [← run.2]
    exact .refused _ (by simp [Refuses, isExec, inMulti])
  | true =>
    have dirty : client.isDirty = true := by
      simpa [startsTransaction, isExec, inMulti] using starts
    rw [handleExec, bind_of_ok (loadClient_found found), if_neg (by simp [inMulti]), if_pos dirty,
      bind_of_ok (updateClient_found found)] at run
    obtain ⟨_, released, deletes, reply⟩ := bind_eq_ok.mp run
    rw [send_run reply]
    exact .left _ inMulti (.inr ⟨isExec, dirty⟩) deletes

theorem handle_cases {req : RespRequest} {ptr : ClientPtr} {client : Client} {w w' : World D}
    (found : w.heap ptr = some client) (starts : startsTransaction client req = false)
    (run : handle req ptr w = .ok ((), w')) : Handled w req ptr client w' := by
  cases ordinary : isTransactionCmd req.command with
  | false =>
    cases inMulti : client.isQueued with
    | true =>
      -- inside MULTI everything else is queued
      rw [handle_queued found inMulti ordinary, queueCommand,
        bind_of_ok (loadClient_found found)] at run
      split at run
      · simp [fault] at run
      · rw [bind_of_ok (updateClient_found found)] at run
        rw [send_run run]
        exact .queued ordinary inMulti (by omega)
    | false =>
      rw [handle_command found inMulti ordinary] at run
      exact handleCommand_cases found inMulti ordinary run
  | true =>
    cases command : req.command with
    | multi =>
      rw [handle_multi found command, handleMulti, bind_of_ok (loadClient_found found)] at run
      split at run
      · rename_i inMulti
        rw [send_run run]
        exact .refused _ (by simp [Refuses, command, inMulti])
      · rename_i outside
        rw [bind_of_ok (updateClient_found found)] at run
        rw [send_run run]
        exact .opened command (by simpa using outside)
    | exec =>
      rw [handle_exec found command] at run
      exact handleExec_cases found command starts run
    | discard =>
      rw [handle_discard found command, handleDiscard, bind_of_ok (loadClient_found found)] at run
      split at run
      · rename_i outside
        rw [send_run run]
        exact .refused _ (by simpa [Refuses, command] using outside)
      · rename_i inMulti
        rw [bind_of_ok (updateClient_found found)] at run
        obtain ⟨_, released, deletes, reply⟩ := bind_eq_ok.mp run
        rw [send_run reply]
        exact .left _ (by simpa using inMulti) (.inl command) deletes
    | watch =>
      rw [handle_watch found command, handleWatch] at run
      split at run
      · rename_i noKey
        -- WATCH without a key returns at once, and does not answer
        simp only [pure_run, Except.ok.injEq, Prod.mk.injEq, true_and] at run
        exact run ▸ .ignored command noKey
      · rw [bind_of_ok (loadClient_found found)] at run
        split at run
        · rename_i inMulti
          rw [send_run run]
          exact .refused _ (by simp [Refuses, command, inMulti])
        · rename_i outside
          obtain ⟨_, watched, watches, reply⟩ := bind_eq_ok.mp run
          rw [send_run reply]
          exact .watched command (by simpa using outside) watches
    | unwatch =>
      rw [handle_unwatch found command, handleUnwatch] at run
      obtain ⟨_, released, deletes, rest⟩ := bind_eq_ok.mp run
      obtain ⟨client', loaded, load, reply⟩ := bind_eq_ok.mp rest
      obtain ⟨_, rfl⟩ := loadClient_eq_ok.mp load
      rw [send_run reply]
      exact .unwatched client'.fd command deletes
    | _ => simp [command, isTransactionCmd] at ordinary

omit [Externals D] in
theorem reachesArm_of_refuses {client : Client} {req : RespRequest} (refuses : Refuses client req) :
    reachesArm client req = false := by
  unfold Refuses at refuses
  unfold reachesArm
  cases command : req.command <;> simp_all [isTransactionCmd, isChannelCmd]

/-- Where `handle` runs the arm of the request, it does nothing else. -/
theorem Handled.dispatch_of_reaches {req : RespRequest} {ptr : ClientPtr} {client : Client}
    {w w' : World D} (handles : Handled w req ptr client w')
    (reaches : reachesArm client req = true) : dispatch req ptr w = .ok ((), w') := by
  obtain ⟨ordinary, outside, admitted⟩ := reachesArm_eq_true.mp reaches
  cases handles with
  | queued _ inMulti _ => simp [outside] at inMulti
  | opened isMulti _ => simp [isMulti, isTransactionCmd] at ordinary
  | refused text reason => simp [reachesArm_of_refuses reason] at reaches
  | ignored isWatch _ => simp [isWatch, isTransactionCmd] at ordinary
  | watched isWatch _ _ => simp [isWatch, isTransactionCmd] at ordinary
  | unwatched _ isUnwatch _ => simp [isUnwatch, isTransactionCmd] at ordinary
  | left _ inMulti _ _ => simp [outside] at inMulti
  | dispatched _ run => exact run

end RedisClone
