import RedisClone.Verified.CallEndings

/-! # One request, one reply

Where every request meets `AnswersOnce`, each call of `handle` comes to an end, and a client can match the values that it
receives with the requests that it sent: `one_reply` is the theorem for the requests of a run, and for the queues that
EXEC runs.
-/

namespace RedisClone

open Exec CString

variable {D : Type} [Externals D]

/-- The connection is not the one to the master. -/
def IsOrdinary (w : World D) (client : Client) : Prop := client.isMaster = false ∧ client.fd ≠ w.serverConfig.masterFd

/-! ## The arms -/

section Arms

variable {w t : World D} {req : RespRequest} {slot : ClientSlot} {ptr : ClientPtr} {client : Client}

theorem arm_answers (prints : PrintsNumbers D) (inSlot : w.clients slot = some ptr) (found : w.heap ptr = some client)
    (only : w.OnlyFd ptr) (ordinary : IsOrdinary w client) (answers : ArmAnswers w client req)
    (run : arm req ptr client w = .ok ((), t)) :
    (Blocks w req ∧ BlockedSilently ptr client.fd w t) ∨ SentOne client.fd w t := by
  obtain ⟨notMaster, elsewhere⟩ := ordinary
  unfold arm at run
  unfold ArmAnswers at answers
  cases command : req.command <;> simp only [command] at answers run
  -- the commands that may block
  case blpop =>
    refine (handleBlpop_answers answers.1 answers.2 found run).imp_left fun waits => ?_
    exact ⟨.inl ⟨command, answers.1, waits.1⟩, waits.2⟩
  case xread =>
    refine (handleXread_answers found answers run).imp_left fun waits => ?_
    exact ⟨.inr (.inl ⟨command, waits.1⟩), waits.2⟩
  case wait =>
    refine (handleWait_answers only found inSlot answers run).imp_left fun waits => ?_
    exact ⟨.inr (.inr ⟨command, waits.1⟩), waits.2⟩
  -- all others reply
  all_goals right
  case echo => exact replies_handleEcho answers _ _ run
  case ping => exact replies_handlePing notMaster _ _ run
  case type => exact replies_handleType _ _ run
  case incr => exact replies_handleIncr _ _ run
  case select | command => exact replies_line (by decide) _ _ run
  case info => exact replies_handleInfo answers.1 answers.2.1 answers.2.2 _ _ run
  case replconf => exact replies_handleReplconf answers notMaster _ _ run
  case keys => exact replies_handleKey answers _ _ run
  case auth => exact replies_handleAuth answers found _ _ run
  case acl => exact replies_handleAcl found answers.1 answers.2 _ _ run
  case configGet => exact replies_handleConfig answers.1 answers.2 _ _ run
  case set => exact replies_handleSet answers elsewhere _ _ run
  case get => exact replies_handleGet answers _ _ run
  case lpush => exact replies_handleLpush answers _ _ run
  case rpush => exact replies_handleRpush answers.1 only found answers.2 _ _ run
  case lpop => exact replies_handleLpop answers.1 answers.2 _ _ run
  case lrange => exact replies_handleLrange answers.1 answers.2 _ _ run
  case llen => exact replies_handleLlen answers.1 answers.2 _ _ run
  case zadd => exact replies_handleZadd answers.1 answers.2 _ _ run
  case zrank => exact replies_handleZrank answers _ _ run
  case zscore => exact replies_handleZscore answers _ _ run
  case zrem => exact replies_handleZrem answers _ _ run
  case zrange => exact replies_handleZrange answers.1 answers.2 _ _ run
  case zcard => exact replies_handleZcard answers.1 answers.2 _ _ run
  case geoadd => exact replies_handleGeoadd prints answers.1 answers.2.1 answers.2.2 _ _ run
  case geopos => exact replies_handleGeopos answers.1 answers.2 _ _ run
  case geodist => exact replies_handleGeodist answers _ _ run
  case geosearch => exact replies_handleGeosearch answers.1 answers.2 _ _ run
  case xadd =>
    exact replies_handleXadd answers.1 elsewhere answers.2.1
      (fun key isKey => noReader_of_onlyFd only found (answers.2.2 key isKey)) _ _ run
  case xrange => exact replies_handleXrange answers.1 answers.2 _ _ run
  case subscribe => exact replies_handleSubscribe found answers _ _ run
  case publish => exact replies_handlePublish answers.1 only found answers.2 _ _ run
  case unsubscribe => exact replies_handleUnsubscribe answers.1 found answers.2 _ _ run
  case multi | exec | discard | watch | unwatch | unknown => exact printArg_run (replies_line (by decide)) _ _ run

end Arms

/-! ## A call of `handle` -/

section Handle

variable {w t : World D} {req : RespRequest} {slot : ClientSlot} {ptr : ClientPtr} {client : Client} {fd : Int}

omit [Externals D] in
instance silentAt_setWatchers (bucket : Bucket) (clientList : ClientsWatch) :
    Preserves (SilentAt fd) (setWatchers bucket clientList : M D Unit) where
  run w _ w' run := by
    simp only [setWatchers, alter_run, Except.ok.injEq, Prod.mk.injEq, true_and] at run
    rw [← run]
    rfl

omit [Externals D] in
instance silentAt_watchKey (key : Bytes) : Preserves (SilentAt fd) (watchKey ptr key : M D Unit) := by
  unfold watchKey register
  refine .bind inferInstance fun client => ?_
  split
  · exact preserves_fault _
  · refine .bind inferInstance fun _ => .bind inferInstance fun bucket => .bind inferInstance fun watchers => ?_
    dsimp only
    split
    · exact preserves_fault _
    · infer_instance

omit [Externals D] in
instance silentAt_deregister (key : Bytes) : Preserves (SilentAt fd) (deregister ptr key : M D Unit) := by
  unfold deregister
  refine .bind inferInstance fun bucket => .bind inferInstance fun watchers => ?_
  split
  · exact preserves_pure ()
  · split
    · exact preserves_fault _
    · infer_instance

omit [Externals D] in
instance silentAt_deleteWatchedKeys : Preserves (SilentAt fd) (deleteWatchedKeys ptr : M D Unit) := by
  unfold deleteWatchedKeys
  infer_instance

omit [Externals D] in
/-- A line that ends a call. -/
theorem sentOne_line {u : World D} {text : Bytes} (sends : send fd text u = .ok ((), t)) (line : isLine text = true)
    (same : u.bytesTo fd = w.bytesTo fd) : SentOne fd w t := by
  obtain ⟨value, sent, isResp⟩ := replies_line line _ _ sends
  exact ⟨value, sent.trans (congrArg (· ++ value) same), isResp⟩

omit [Externals D] in
theorem isResp_subscribedError (cmd : RedisCmds) : IsResp (subscribedError cmd) := by
  have front : lit "-ERR Can't execute '" = 45 :: lit "ERR Can't execute '" := by decide +kernel
  have plain : ∀ c ∈ lit "ERR Can't execute '", c ≠ 13 ∧ c ≠ 10 := by decide +kernel
  have plainNames : ∀ c ∈ lit "' only (P|S)SUBSCRIBE / (P|S)UNSUBSCRIBE / PING / QUIT / RESET ", c ≠ 13 ∧ c ≠ 10 := by
    decide +kernel
  have back : lit "are allowed in this context\r\n" = lit "are allowed in this context" ++ crlf := by decide +kernel
  have plainBack : ∀ c ∈ lit "are allowed in this context", c ≠ 13 ∧ c ≠ 10 := by decide +kernel
  obtain ⟨rest, ends, plainRest⟩ : ∃ rest, lit ("' only (P|S)SUBSCRIBE / (P|S)UNSUBSCRIBE / PING / QUIT / RESET " ++
      "are allowed in this context\r\n") = rest ++ crlf ∧ ∀ c ∈ rest, c ≠ 13 ∧ c ≠ 10 := by
    refine ⟨_, by rw [lit_append, back, ← List.append_assoc], fun c member => ?_⟩
    exact (List.mem_append.mp member).elim (plainNames c) (plainBack c)
  unfold subscribedError
  rw [front, ends, ← List.append_assoc]
  refine .line 45 (lit "ERR Can't execute '" ++ cmdToString cmd ++ rest) (by simp) fun c member => ?_
  simp only [List.mem_append] at member
  obtain (inFront | inName) | inRest := member
  · exact plain c inFront
  · constructor
    · rintro rfl
      exact not_mem_cmdToString (by decide) cmd inName
    · rintro rfl
      exact not_mem_cmdToString (by decide) cmd inName
  · exact plainRest c inRest

/-- What an arm calls after its handler sends nothing and blocks nobody. -/
theorem dispatch_answers (prints : PrintsNumbers D) (inSlot : w.clients slot = some ptr) (found : w.heap ptr = some client)
    (only : w.OnlyFd ptr) (ordinary : IsOrdinary w client) (answers : ArmAnswers (w.noted req) client req)
    (run : dispatch req ptr w = .ok ((), t)) :
    (Blocks w req ∧ BlockedSilently ptr client.fd w t) ∨ SentOne client.fd w t := by
  obtain ⟨client', handled, notified, found', arms, notify, write⟩ := dispatch_parts run
  obtain rfl : client = client' := Option.some.inj (found.symm.trans found')
  have silent : t.bytesTo client.fd = handled.bytesTo client.fd :=
    SilentTo.of_sameSent ((quiet_writeToFile write).1.trans (quiet_notifyFirst notify).1)
  have still := still_afterArm notify write
  have armed : (Blocks (w.noted req) req ∧ BlockedSilently ptr client.fd (w.noted req) handled) ∨
      SentOne client.fd (w.noted req) handled :=
    arm_answers prints (w := w.noted req) inSlot found only ordinary answers arms
  obtain ⟨blocks, quiet, blocked, foundBlocked, isBlocked⟩ | ⟨value, sent, isResp⟩ := armed
  · obtain ⟨later, foundLater, _, same⟩ := still.heap ptr blocked foundBlocked
    exact .inl ⟨blocks, silent.trans quiet, later, foundLater, (congrArg Blocking.isBlocked same).trans isBlocked⟩
  · exact .inr ⟨value, silent.trans sent, isResp⟩

theorem handle_answers (prints : PrintsNumbers D) (inSlot : w.clients slot = some ptr) (found : w.heap ptr = some client)
    (only : w.OnlyFd ptr) (ordinary : IsOrdinary w client) (starts : startsTransaction client req = false)
    (once : AnswersOnce w ptr client req) (run : handle req ptr w = .ok ((), t)) :
    (Blocks w req ∧ BlockedSilently ptr client.fd w t) ∨ SentOne client.fd w t := by
  cases isTransaction : isTransactionCmd req.command with
  | false =>
    cases inMulti : client.isQueued with
    | true =>
      rw [handle_queued found inMulti isTransaction, queueCommand, bind_of_ok (loadClient_found found)] at run
      split at run
      · simp [fault] at run
      · rw [bind_of_ok (updateClient_found found)] at run
        exact .inr (sentOne_line run (by decide) rfl)
    | false =>
      rw [handle_command found inMulti isTransaction, handleCommand, bind_of_ok (loadClient_found found)] at run
      cases refused : client.isSubscribed && !isChannelCmd req.command with
      | true =>
        rw [if_pos refused] at run
        have short : (subscribedError req.command).length < 128 := by
          have := subscribedError_length req.command
          omega
        exact .inr (replies_sendText (isResp_subscribedError req.command) short _ _ run)
      | false =>
        rw [if_neg (by simp [refused])] at run
        have reaches : reachesArm client req = true := by
          rw [reachesArm_eq_true]
          exact ⟨isTransaction, inMulti, fun subscribed => by simpa [subscribed] using refused⟩
        exact dispatch_answers prints inSlot found only ordinary (once.answers reaches) run
  | true =>
    right
    cases command : req.command <;> simp only [command, isTransactionCmd, Bool.false_eq_true] at isTransaction
    case multi =>
      rw [handle_multi found command, handleMulti, bind_of_ok (loadClient_found found)] at run
      split at run
      · exact sentOne_line run (by decide) rfl
      · rw [bind_of_ok (updateClient_found found)] at run
        exact sentOne_line run (by decide) rfl
    case exec =>
      rw [handle_exec found command, handleExec, bind_of_ok (loadClient_found found)] at run
      split at run
      · exact sentOne_line run (by decide) rfl
      · rename_i inMulti
        -- an EXEC that runs its queue is a transaction of its own and not meant here
        have dirty : client.isDirty = true := by
          simp only [Bool.not_eq_true', Bool.not_eq_false] at inMulti
          simpa [startsTransaction, command, inMulti] using starts
        rw [if_pos dirty, bind_of_ok (updateClient_found found)] at run
        obtain ⟨_, released, deletes, reply⟩ := bind_eq_ok.mp run
        have quiet : SilentAt client.fd (w.setClient ptr _) released := Preserves.run _ _ _ deletes
        obtain ⟨value, sent, isResp⟩ := replies_send .nilArray _ _ reply
        exact ⟨value, sent.trans (congrArg (· ++ value) quiet), isResp⟩
    case discard =>
      rw [handle_discard found command, handleDiscard, bind_of_ok (loadClient_found found)] at run
      split at run
      · exact sentOne_line run (by decide) rfl
      · rw [bind_of_ok (updateClient_found found)] at run
        obtain ⟨_, released, deletes, reply⟩ := bind_eq_ok.mp run
        have quiet : SilentAt client.fd (w.setClient ptr _) released := Preserves.run _ _ _ deletes
        exact sentOne_line reply (by decide) quiet
    case watch =>
      rw [handle_watch found command, handleWatch, if_neg (by have := once.hasKey command; omega),
        bind_of_ok (loadClient_found found)] at run
      split at run
      · exact sentOne_line run (by decide) rfl
      · obtain ⟨_, watched, watches, reply⟩ := bind_eq_ok.mp run
        have quiet : SilentAt client.fd w watched := Preserves.run _ _ _ watches
        exact sentOne_line reply (by decide) quiet
    case unwatch =>
      rw [handle_unwatch found command, handleUnwatch] at run
      obtain ⟨_, released, deletes, afterDelete⟩ := bind_eq_ok.mp run
      have quiet : SilentAt client.fd w released := Preserves.run _ _ _ deletes
      -- the reply is sent to the client as it is after the release
      obtain ⟨other, found', isReleased⟩ := deleteWatchedKeys_run deletes
      obtain rfl : client = other := Option.some.inj (found.symm.trans found')
      have foundReleased : released.heap ptr = some client.unwatched := isReleased ▸ heap_setClient _ _ _
      rw [bind_of_ok (loadClient_found foundReleased)] at afterDelete
      exact sentOne_line afterDelete (by decide) quiet

end Handle

/-! ## Who is the master -/

/-- Nobody becomes the master. -/
structure SameMaster (w w' : World D) : Prop
    extends Clientwise (fun _ client client' => client'.isMaster = client.isMaster) w w' where
  masterFd : w'.serverConfig.masterFd = w.serverConfig.masterFd

section SameMaster

variable {w w' w'' : World D} {req : RespRequest} {ptr : ClientPtr} {client : Client}

omit [Externals D] in
theorem SameMaster.of_same (clients : w'.clients = w.clients) (activeFds : w'.activeFds = w.activeFds)
    (heap : w'.heap = w.heap) (masterFd : w'.serverConfig.masterFd = w.serverConfig.masterFd) : SameMaster w w' :=
  ⟨.of_same (fun _ _ => rfl) clients activeFds heap, masterFd⟩

omit [Externals D] in
theorem SameMaster.of_update (client' : Client) (found : w.heap ptr = some client) (fd : client'.fd = client.fd)
    (isMaster : client'.isMaster = client.isMaster) (clients : w'.clients = w.clients)
    (activeFds : w'.activeFds = w.activeFds) (heap : w'.heap = Function.update w.heap ptr (some client'))
    (masterFd : w'.serverConfig.masterFd = w.serverConfig.masterFd) : SameMaster w w' :=
  ⟨.of_update (fun _ _ => rfl) client' found fd isMaster clients activeFds heap, masterFd⟩

omit [Externals D] in
theorem SameMaster.trans (before : SameMaster w w') (after : SameMaster w' w'') : SameMaster w w'' where
  toClientwise := before.toClientwise.trans (fun _ _ _ _ first second => second.trans first) after.toClientwise
  masterFd := after.masterFd.trans before.masterFd

omit [Externals D] in
theorem SameMaster.setClient (client' : Client) (found : w.heap ptr = some client) (fd : client'.fd = client.fd)
    (isMaster : client'.isMaster = client.isMaster) : SameMaster w (w.setClient ptr client') :=
  .of_update client' found fd isMaster rfl rfl rfl rfl

omit [Externals D] in
theorem SameMaster.emit (w : World D) (fd : Int) (bytes : Bytes) : SameMaster w (w.emit fd bytes) :=
  .of_same rfl rfl rfl rfl

omit [Externals D] in
theorem ambient_sameMaster : Ambient (SameMaster (D := D)) fun _ => True where
  composes := ⟨fun _ => .of_same rfl rfl rfl rfl, SameMaster.trans⟩
  emit w fd bytes := .emit w fd bytes
  tick _ := .of_same rfl rfl rfl rfl
  takeFresh _ := .of_same rfl rfl rfl rfl
  change _ _ _ client' found session _ :=
    .setClient client' found (congrArg Session.fd session) (congrArg Session.isMaster session)
  authorize _ _ _ := .of_same rfl rfl rfl rfl
  faults _ _ _ := trivial

theorem sameMaster_dispatch (run : dispatch req ptr w = .ok ((), w')) : SameMaster w w' := by
  refine (obeysAt_dispatch ambient_sameMaster (.inl trivial) (.inl trivial) ?_ (fun _ => ⟨?_, ?_⟩) ?_ ?_
    (fun _ => ⟨?_, ?_⟩)).1 () w' run
  · exact fun _ _ _ _ _ _ _ => .of_same rfl rfl rfl rfl
  · intro u other client client' found session
    exact .setClient client' found (congrArg Session.fd session) (congrArg Session.isMaster session)
  · intro u f sameButWait
    refine .of_same rfl rfl rfl ?_
    rw [World.configure, sameButWait u.serverConfig]
  · exact fun _ _ _ => .of_same rfl rfl rfl rfl
  · exact fun _ u other client found => .setClient { client with isDirty := true } found rfl rfl
  · exact fun _ _ => .of_same rfl rfl rfl rfl
  · exact fun _ _ => .of_same rfl rfl rfl rfl

omit [Externals D] in
theorem sameMaster_watchKeys {keys : List Bytes} (run : forM keys (watchKey ptr) w = .ok ((), w')) : SameMaster w w' := by
  induction keys generalizing w with
  | nil =>
    obtain rfl : w = w' := by simpa using run
    exact .of_same rfl rfl rfl rfl
  | cons key keys inductionHypothesis =>
    rw [List.forM_cons] at run
    obtain ⟨_, watched, first, rest⟩ := bind_eq_ok.mp run
    obtain ⟨client, bucket, found, _, rfl⟩ := watchKey_run first
    have registers : SameMaster w (w.register ptr client key bucket) :=
      .of_update { client with watchKeys := client.watchKeys ++ [key] } found rfl rfl rfl rfl rfl rfl
    exact registers.trans (inductionHypothesis rest)

omit [Externals D] in
theorem sameMaster_deleteWatchedKeys (run : deleteWatchedKeys ptr w = .ok ((), w')) : SameMaster w w' := by
  obtain ⟨client, found, rfl⟩ := deleteWatchedKeys_run run
  have heap : (w.release ptr client).heap = Function.update w.heap ptr (some client.unwatched) := by
    change Function.update (w.clearAll ptr client.watchKeys).heap ptr _ = _
    rw [heap_clearAll]
  refine .of_update client.unwatched found rfl rfl (clearAll_clients w ptr _) (clearAll_activeFds w ptr _) heap ?_
  exact congrArg RedisConfig.masterFd (clearAll_serverConfig w ptr _)

theorem Handled.sameMaster (found : w.heap ptr = some client) (handles : Handled w req ptr client w') :
    SameMaster w w' := by
  cases handles with
  | queued isCommand inMulti room =>
    exact (SameMaster.setClient { client with requests := client.requests ++ [copyRequest req] } found rfl rfl).trans
      (.emit _ _ _)
  | opened isMulti outside =>
    exact (SameMaster.setClient { client with requests := [], isQueued := true } found rfl rfl).trans (.emit _ _ _)
  | refused text reason => exact .emit w _ _
  | ignored isWatch noKey => exact .of_same rfl rfl rfl rfl
  | watched isWatch outside run => exact (sameMaster_watchKeys run).trans (.emit _ _ _)
  | unwatched fd isUnwatch run => exact (sameMaster_deleteWatchedKeys run).trans (.emit _ _ _)
  | left reply inMulti isEnd run =>
    exact (SameMaster.setClient client.leaveMulti found rfl rfl).trans
      ((sameMaster_deleteWatchedKeys run).trans (.emit _ _ _))
  | dispatched reaches run => exact sameMaster_dispatch run

end SameMaster

/-! ## The queue of EXEC -/

section Queue

variable {w t : World D} {req : RespRequest} {slot : ClientSlot} {ptr : ClientPtr} {client : Client}

/-- Every command of a queue is answered at once, in the state that the ones before it leave. -/
def QueueAnswers (ptr : ClientPtr) : List RespRequest → World D → Prop
  | [], _ => True
  | req :: rest, w =>
    ∀ cleared, clearQueued ptr w = .ok ((), cleared) →
      (∀ client ∈ cleared.heap ptr, AnswersOnce cleared ptr client req ∧ ¬ Blocks cleared req) ∧
        ∀ handled t, handle req ptr cleared = .ok ((), handled) → clearQueued ptr handled = .ok ((), t) →
          QueueAnswers ptr rest t

/-- A client in a slot with a descriptor of its own. -/
structure Sender (w : World D) (slot : ClientSlot) (ptr : ClientPtr) (client : Client) : Prop where
  inSlot : w.clients slot = some ptr
  found : w.heap ptr = some client
  only : w.OnlyFd ptr
  ordinary : IsOrdinary w client
  allocated : w.Allocated

omit [Externals D] in
/-- The sender is still there after a call. -/
theorem Sender.after (sender : Sender w slot ptr client) (undisturbed : Undisturbed ptr w t) (master : SameMaster w t) :
    ∃ client', Sender t slot ptr client' ∧ client'.fd = client.fd := by
  obtain ⟨client', found', fd, isMaster⟩ := master.heap ptr client sender.found
  have allocated := sender.allocated.of_clientwise master.toClientwise
  refine ⟨client', ⟨undisturbed.clients ▸ sender.inSlot, found', sender.only.of_undisturbed undisturbed, ⟨?_, ?_⟩,
    allocated⟩, fd⟩
  · rw [isMaster]
    exact sender.ordinary.1
  · rw [fd, master.masterFd]
    exact sender.ordinary.2

/-- The commands of a queue come to an end, and send as many values as there are commands. -/
theorem forM_execCommand_answers (prints : PrintsNumbers D) {requests : List RespRequest}
    (sender : Sender w slot ptr client) (answers : QueueAnswers ptr requests w) :
    ∃ (t : World D) (client' : Client) (values : List Bytes),
      forM requests (execCommand (handleWith execWithoutMulti) ptr) w = .ok ((), t) ∧
        Sender t slot ptr client' ∧ client'.fd = client.fd ∧ t.bytesTo client.fd = w.bytesTo client.fd ++ values.flatten ∧
          values.length = requests.length ∧ ∀ value ∈ values, IsResp value := by
  induction requests generalizing w client with
  | nil => exact ⟨w, client, [], rfl, sender, rfl, by simp, rfl, by simp⟩
  | cons req requests inductionHypothesis =>
    -- the client is out of MULTI, so that no other queue runs
    obtain ⟨outside, isOutside⟩ : ∃ outside : Client, outside = { client with isQueued := false } := ⟨_, rfl⟩
    have clears : clearQueued ptr w = .ok ((), w.setClient ptr outside) := isOutside ▸ updateClient_found sender.found
    obtain ⟨answersHere, later⟩ := answers _ clears
    obtain ⟨cleared, isCleared⟩ : ∃ cleared, cleared = w.setClient ptr outside := ⟨_, rfl⟩
    rw [← isCleared] at clears answersHere later
    have masterClear : SameMaster w cleared := isCleared ▸ .setClient outside sender.found (isOutside ▸ rfl) (isOutside ▸ rfl)
    obtain ⟨_, senderCleared, sameFd⟩ := sender.after (clearQueued_undisturbed clears) masterClear
    have found : cleared.heap ptr = some outside := isCleared ▸ heap_setClient _ _ _
    obtain rfl := Option.some.inj (found.symm.trans senderCleared.found)
    have notQueued : outside.isQueued = false := isOutside ▸ rfl
    have starts : startsTransaction outside req = false := by simp [startsTransaction, notQueued]
    obtain ⟨answersOnce, unblocking⟩ := answersHere outside found
    obtain ⟨handled, handles⟩ := (handle_ends found senderCleared.allocated starts answersOnce).unit
    obtain ⟨blocks, _⟩ | ⟨value, sent, isResp⟩ := handle_answers prints senderCleared.inSlot found senderCleared.only
      senderCleared.ordinary starts answersOnce handles
    · exact absurd blocks unblocking
    · have handled' := handle_cases found starts handles
      obtain ⟨client'', senderHandled, sameFd'⟩ := senderCleared.after (handled'.undisturbed found senderCleared.only)
        (handled'.sameMaster found)
      have clearsAgain : clearQueued ptr handled = .ok ((), handled.setClient ptr { client'' with isQueued := false }) :=
        updateClient_found senderHandled.found
      obtain ⟨clientAfter, senderAfter, sameFdLast⟩ := senderHandled.after (clearQueued_undisturbed clearsAgain)
        (.setClient { client'' with isQueued := false } senderHandled.found rfl rfl)
      have fd : clientAfter.fd = client.fd := sameFdLast.trans (sameFd'.trans sameFd)
      obtain ⟨t, client', values, rest, senderLast, fdLast, sentValues, length, each⟩ :=
        inductionHypothesis senderAfter (later handled _ handles clearsAgain)
      have runs : handleWith execWithoutMulti req ptr cleared = .ok ((), handled) :=
        (handleWith_of_not_queued _ _ req found notQueued).trans handles
      have first : execCommand (handleWith execWithoutMulti) ptr req w =
          .ok ((), handled.setClient ptr { client'' with isQueued := false }) := by
        unfold execCommand
        rw [bind_of_ok clears, bind_of_ok runs]
        exact clearsAgain
      refine ⟨t, client', value :: values, ?_, senderLast, fdLast.trans fd, ?_,
        by rw [List.length_cons, List.length_cons, length], ?_⟩
      · rw [List.forM_cons]
        exact (bind_of_ok first).trans rest
      · rw [fd] at sentValues
        have quiet : (handled.setClient ptr { client'' with isQueued := false }).bytesTo client.fd =
            handled.bytesTo client.fd := rfl
        have quietStart : cleared.bytesTo client.fd = w.bytesTo client.fd := by rw [isCleared]; rfl
        rw [sentValues, quiet, ← sameFd, show handled.bytesTo outside.fd = cleared.bytesTo outside.fd ++ value from sent,
          sameFd, quietStart, List.flatten_cons, List.append_assoc]
      · intro other member
        cases member with
        | head => exact isResp
        | tail _ member => exact each other member

/-- The state in which EXEC begins to run the queue. -/
def World.taken (w : World D) (ptr : ClientPtr) (client : Client) : World D :=
  (w.emit client.fd (arrayHeader client.requests.length)).setClient ptr { client with requests := [] }

theorem exec_answers (prints : PrintsNumbers D) (sender : Sender w slot ptr client)
    (starts : startsTransaction client req = true) (answers : QueueAnswers ptr client.requests (w.taken ptr client)) :
    ∃ (t : World D) (values : List Bytes), handle req ptr w = .ok ((), t) ∧
      t.bytesTo client.fd = w.bytesTo client.fd ++ arrayHeader client.requests.length ++ values.flatten ∧
        values.length = client.requests.length ∧ ∀ value ∈ values, IsResp value := by
  obtain ⟨isExec, queued, clean⟩ := startsTransaction_eq_true.mp starts
  have sends : send client.fd (arrayHeader client.requests.length) w =
      .ok ((), w.emit client.fd (arrayHeader client.requests.length)) := rfl
  have takes : (updateClient ptr fun client => { client with requests := [] } : M D Unit)
      (w.emit client.fd (arrayHeader client.requests.length)) = .ok ((), w.taken ptr client) :=
    updateClient_found sender.found
  have undisturbed : Undisturbed ptr w (w.taken ptr client) :=
    Undisturbed.trans (.emit w _ _) (.setClient { client with requests := [] } sender.found rfl rfl)
  have master : SameMaster w (w.taken ptr client) :=
    SameMaster.trans (.emit w _ _) (.setClient { client with requests := [] } sender.found rfl rfl)
  obtain ⟨taken, senderTaken, fd⟩ := sender.after undisturbed master
  obtain ⟨finished, client', values, finishes, senderLast, _, sentValues, length, each⟩ :=
    forM_execCommand_answers prints senderTaken answers
  have clears : clearQueued ptr finished = .ok ((), finished.setClient ptr { client' with isQueued := false }) :=
    updateClient_found senderLast.found
  rw [fd] at sentValues
  refine ⟨finished.setClient ptr { client' with isQueued := false }, values, ?_, ?_, length, each⟩
  · rw [handle_exec sender.found isExec, handleExec_runs _ sender.found queued clean, bind_of_ok sends, bind_of_ok takes,
      bind_of_ok finishes, clears]
  · have atStart : (w.taken ptr client).bytesTo client.fd =
        w.bytesTo client.fd ++ arrayHeader client.requests.length := bytesTo_emit w _
    have atEnd : (finished.setClient ptr { client' with isQueued := false }).bytesTo client.fd =
        finished.bytesTo client.fd := rfl
    rw [atEnd, sentValues, atStart]

end Queue

/-! ## The requests of a run -/

/-- In every state that a run reaches, the call for every request of an ordinary client that meets the condition comes to
an end, and leaves the client blocked and answered with nothing, or answers it with one complete value; an EXEC of a queue
whose commands meet the condition and block nobody comes to an end, and is answered with a header and one complete value for
every command. -/
theorem one_reply (prints : PrintsNumbers D) {w₀ : World D} {s : Server D} {slot : ClientSlot} {ptr : ClientPtr}
    {client : Client} {req : RespRequest} (enters : EntersLoop w₀) (reached : Run Step AcceptsUnused ⟨w₀, none⟩ s)
    (inSlot : s.world.clients slot = some ptr) (found : s.world.heap ptr = some client)
    (ordinary : IsOrdinary s.world client) :
    (startsTransaction client req = false → AnswersOnce s.world ptr client req →
      ∃ t, handle req ptr s.world = .ok ((), t) ∧
        (BlockedSilently ptr client.fd s.world t ∨ SentOne client.fd s.world t)) ∧
    (startsTransaction client req = true → QueueAnswers ptr client.requests (s.world.taken ptr client) →
      ∃ (t : World D) (values : List Bytes), handle req ptr s.world = .ok ((), t) ∧
        t.bytesTo client.fd = s.world.bytesTo client.fd ++ arrayHeader client.requests.length ++ values.flatten ∧
          values.length = client.requests.length ∧ ∀ value ∈ values, IsResp value) := by
  have only := onlyFd_of_run enters reached inSlot
  have allocated : s.world.Allocated := fun slot ptr inSlot => by
    obtain ⟨client, found, _⟩ := (wellSeated_run enters reached).connected.polled slot ptr inSlot
    simp [found]
  constructor
  · intro starts once
    obtain ⟨t, run⟩ := (handle_ends found allocated starts once).unit
    exact ⟨t, run, (handle_answers prints inSlot found only ordinary starts once run).imp_left And.right⟩
  · intro starts answers
    exact exec_answers prints ⟨inSlot, found, only, ordinary, allocated⟩ starts answers

omit [Externals D] in
theorem idleServer_entersLoop : EntersLoop idleServer.world :=
  .alone ⟨idleServer_atLoopEntry.clients, idleServer_atLoopEntry.activeFds, idleServer_atLoopEntry.heap⟩

/-- The requests of the client that is the first one to connect. -/
def alone (requests : List (List Bytes)) : List Event := .connect 5 0 :: requests.map (arrival firstSlot)

def pingRequest : RespRequest := requestOf [lit "PING"]

def setRequest : RespRequest := requestOf [lit "SET", lit "k", lit "v"]

/-- Out of MULTI a PING is answered in every state. -/
theorem ping_answers (w : World D) (ptr : ClientPtr) {client : Client} {req : RespRequest} (isPing : req.command = .ping)
    (outside : client.isQueued = false) : AnswersOnce w ptr client req ∧ ¬ Blocks w req := by
  constructor
  · exact {
      hasKey := by simp [isPing]
      hasRoom := by simp [outside]
      watchable := by simp [isPing]
      releasable := by simp [endsScope, isPing]
      answers := by simp [ArmAnswers, isPing]
      reads := by simp [ArmReads, isPing]
      notifies := by simp [notifies, isPing]
      logs := by simp [logs, notifies, isPing] }
  · simp [Blocks, isPing]

/-- A SET is answered where its key is looked up, nobody watches a key of the bucket, and no file is written. -/
theorem setRequest_answers {w : World Int} {ptr : ClientPtr} {client : Client} {bucket : Bucket}
    {entry : Option (Entry Int)} (outside : client.isQueued = false) (found : lookup w.table (lit "k") = .ok entry)
    (inBucket : bucketOf (lit "k") = some bucket) (unwatched : w.watching bucket = [])
    (isNo : w.serverConfig.appendOnly = lit "no") : AnswersOnce w ptr client setRequest := by
  have isSet : setRequest.command = .set := by decide +kernel
  have enough : 2 ≤ setRequest.argc := by decide +kernel
  have isKey : setRequest.args[0]? = some (lit "k") := by decide +kernel
  exact {
    hasKey := by simp [isSet]
    hasRoom := by simp [outside]
    watchable := by simp [isSet]
    releasable := by simp [endsScope, isSet, outside]
    answers := fun _ => by
      simp only [ArmAnswers, isSet]
      exact enough
    reads := fun _ => by
      simp only [ArmReads, isSet]
      exact ⟨lit "k", isKey, entry, found, fun _ _ => trivial⟩
    notifies := fun _ _ => ⟨lit "k", bucket, isKey, inBucket, by simp [unwatched]⟩
    logs := fun _ _ => logReady_no isNo }

/-- A SET beside another key, and an EXEC of a queue with a PING. -/
theorem one_reply_set : ∃ (s s' : Server Int) (client client' : Client) (t t' : World Int) (values : List Bytes),
    handle setRequest 0 s.world = .ok ((), t) ∧
      (BlockedSilently 0 client.fd s.world t ∨ SentOne client.fd s.world t) ∧
      handle (requestOf [lit "EXEC"]) 0 s'.world = .ok ((), t') ∧ client'.requests = [copyRequest pingRequest] ∧
        t'.bytesTo client'.fd = s'.world.bytesTo client'.fd ++ arrayHeader client'.requests.length ++ values.flatten ∧
          values.length = client'.requests.length ∧ ∀ value ∈ values, IsResp value := by
  have prints : PrintsNumbers Int := fun value => decimalInt_oneLine value
  obtain ⟨s, reached, checked⟩ := exists_run_of_play
    (show (play AcceptsUnused idleServer (alone [[lit "SET", lit "j", lit "u"]])).any (fun s =>
      decide (s.world.clients firstSlot = some 0) && ((s.world.heap 0).any (fun client =>
        decide (client.isMaster = false ∧ client.fd ≠ s.world.serverConfig.masterFd) && !client.isQueued) &&
          ((lookup s.world.table (lit "k")).isOk && ((bucketOf (lit "k")).any (fun bucket =>
            decide (s.world.watching bucket = [])) &&
              decide (s.world.serverConfig.appendOnly = lit "no"))))) = true by decide +kernel)
  simp only [Bool.and_eq_true, Bool.not_eq_true', decide_eq_true_eq, Option.any_eq_true] at checked
  obtain ⟨inSlot, ⟨client, found, ordinary, outside⟩, looks, ⟨bucket, inBucket, unwatched⟩, isNo⟩ := checked
  obtain ⟨entry, isEntry⟩ : ∃ entry, lookup s.world.table (lit "k") = .ok entry := by
    cases found : lookup s.world.table (lit "k") with
    | ok entry => exact ⟨entry, rfl⟩
    | error e => simp [found, Except.isOk, Except.toBool] at looks
  obtain ⟨s', reached', checked'⟩ := exists_run_of_play
    (show (play AcceptsUnused idleServer (alone [[lit "MULTI"], [lit "PING"]])).any (fun s =>
      decide (s.world.clients firstSlot = some 0) && ((s.world.heap 0).any (fun client =>
        decide (client.isMaster = false ∧ client.fd ≠ s.world.serverConfig.masterFd) &&
          (startsTransaction client (requestOf [lit "EXEC"]) &&
            decide (client.requests = [copyRequest pingRequest]))))) = true by decide +kernel)
  simp only [Bool.and_eq_true, decide_eq_true_eq, Option.any_eq_true] at checked'
  obtain ⟨inSlot', client', found', ordinary', starts', isQueue⟩ := checked'
  have queue : QueueAnswers 0 client'.requests (s'.world.taken 0 client') := by
    rw [isQueue]
    refine fun cleared clears => ⟨fun other foundOther => ?_, fun _ _ _ _ => trivial⟩
    obtain ⟨before, _, rfl⟩ := updateClient_eq_ok.mp clears
    obtain rfl := Option.some.inj ((heap_setClient _ _ _).symm.trans foundOther)
    exact ping_answers _ 0 (show (copyRequest pingRequest).command = .ping by decide +kernel) rfl
  have starts : startsTransaction client setRequest = false := by simp [startsTransaction, outside]
  obtain ⟨t, run, replied⟩ := (one_reply prints idleServer_entersLoop reached inSlot found ordinary).1 starts
    (setRequest_answers outside isEntry inBucket unwatched isNo)
  obtain ⟨t', values, run', sent, length, each⟩ :=
    (one_reply prints idleServer_entersLoop reached' inSlot' found' ordinary').2 starts' queue
  exact ⟨s, s', client, client', t, t', values, run, replied, run', isQueue, sent, length, each⟩

/-- DEL has no handler, and its client waits for an answer in vain. -/
theorem del_unanswered : ¬ ∀ (w₀ t : World Int) (s : Server Int) (slot : ClientSlot) (ptr : ClientPtr) (client : Client)
    (req : RespRequest), EntersLoop w₀ → Run Step AcceptsUnused ⟨w₀, none⟩ s → s.world.clients slot = some ptr →
      s.world.heap ptr = some client → IsOrdinary s.world client → handle req ptr s.world = .ok ((), t) →
        startsTransaction client req = false →
          BlockedSilently ptr client.fd s.world t ∨ SentOne client.fd s.world t := by
  intro answered
  let delete := requestOf [lit "DEL", lit "k"]
  obtain ⟨s, reached, checked⟩ := exists_run_of_play
    (show (play AcceptsUnused idleServer (alone [])).any (fun s =>
      decide (s.world.clients firstSlot = some 0) && ((s.world.heap 0).any (fun client =>
        decide (client.isMaster = false ∧ client.fd ≠ s.world.serverConfig.masterFd) &&
          (!startsTransaction client delete && endsIn (handle delete 0) s.world fun t =>
            decide (t.bytesTo client.fd = s.world.bytesTo client.fd) &&
              (t.heap 0).all fun client => !client.isBlocked)))) = true by decide +kernel)
  simp only [Bool.and_eq_true, Bool.not_eq_true', decide_eq_true_eq, Option.any_eq_true] at checked
  obtain ⟨inSlot, client, found, ordinary, starts, ends⟩ := checked
  obtain ⟨t, run, ended⟩ := exists_ok_of_endsIn ends
  simp only [Bool.and_eq_true, decide_eq_true_eq, Option.all_eq_true, Bool.not_eq_true'] at ended
  obtain ⟨silent, unblocked⟩ := ended
  obtain ⟨_, client', found', blocked⟩ | ⟨value, sent, isResp⟩ := answered _ t s firstSlot 0 client delete
    idleServer_entersLoop reached inSlot found ordinary run starts
  · simp [unblocked client' found'] at blocked
  · rw [silent] at sent
    exact isResp.ne_nil (List.append_cancel_left (by rw [← sent, List.append_nil]))

end RedisClone
