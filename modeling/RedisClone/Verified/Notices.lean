import RedisClone.Verified.Replies

/-! # Clients that are unblocked are answered

`Notices` relates two states of a server: every client that is blocked in the first and not in the second was
sent something in between.  Every step that neither accepts nor ends a connection is one of these.
-/

namespace RedisClone

open Exec CString

variable {D : Type}

/-- A client that was unblocked was told so. -/
def Told (more : List (Int × Bytes)) (client client' : Client) : Prop :=
  client.isBlocked = true → client'.isBlocked = false → ∃ text, (client.fd, text) ∈ more

/-- Every client that was unblocked was sent something. -/
structure Notices (w w' : World D) : Prop where
  fds : ∀ slot, (w'.watchList slot).fd = (w.watchList slot).fd
  told : ∃ more, w'.sent = w.sent ++ more ∧ Clientwise (fun _ => Told more) w w'

section Notices

variable {w w' w'' : World D} {more : List (Int × Bytes)}

theorem told_of_blocked {client client' : Client} (still : client.isBlocked = true → client'.isBlocked = true) :
    Told more client client' := by
  intro blocked unblocked
  simp [still blocked] at unblocked

theorem Notices.of_same (watchList : w'.watchList = w.watchList) (sent : w'.sent = w.sent ++ more)
    (clients : w'.clients = w.clients) (activeFds : w'.activeFds = w.activeFds) (heap : w'.heap = w.heap) :
    Notices w w' where
  fds slot := by rw [watchList]
  told := ⟨more, sent, .of_same (fun _ _ => told_of_blocked id) clients activeFds heap⟩

theorem Notices.of_update {ptr : ClientPtr} {client : Client} (client' : Client)
    (found : w.heap ptr = some client) (sameFd : client'.fd = client.fd) (told : Told more client client')
    (watchList : w'.watchList = w.watchList) (sent : w'.sent = w.sent ++ more)
    (clients : w'.clients = w.clients) (activeFds : w'.activeFds = w.activeFds)
    (heap : w'.heap = Function.update w.heap ptr (some client')) : Notices w w' where
  fds slot := by rw [watchList]
  told := ⟨more, sent, .of_update (fun _ _ => told_of_blocked id) client' found sameFd told clients activeFds
    heap⟩

theorem Notices.refl (w : World D) : Notices w w :=
  .of_same rfl (List.append_nil _).symm rfl rfl rfl

theorem Notices.trans (before : Notices w w') (after : Notices w' w'') : Notices w w'' := by
  obtain ⟨fds, more, sent, told⟩ := before
  obtain ⟨fds', more', sent', told'⟩ := after
  refine ⟨fun slot => (fds' slot).trans (fds slot), more ++ more', ?_, ?_⟩
  · rw [sent', sent, List.append_assoc]
  · refine ⟨told'.clients.trans told.clients, told'.activeFds.trans told.activeFds,
      fun ptr missing => told'.free ptr (told.free ptr missing), fun ptr client found => ?_⟩
    obtain ⟨between, foundBetween, sameFd, first⟩ := told.heap ptr client found
    obtain ⟨client', found', sameFd', second⟩ := told'.heap ptr between foundBetween
    refine ⟨client', found', sameFd'.trans sameFd, fun blocked unblocked => ?_⟩
    cases isBetween : between.isBlocked with
    | false =>
      obtain ⟨text, member⟩ := first blocked isBetween
      exact ⟨text, List.mem_append_left more' member⟩
    | true =>
      obtain ⟨text, member⟩ := second isBetween unblocked
      exact ⟨text, List.mem_append_right more (sameFd ▸ member)⟩

theorem composes_notices : Composes (Notices (D := D)) := ⟨Notices.refl, Notices.trans⟩

theorem notices_emit (w : World D) (fd : Int) (bytes : Bytes) : Notices w (w.emit fd bytes) :=
  .of_same rfl rfl rfl rfl rfl

theorem notices_silent (watchList : w'.watchList = w.watchList) (sent : w'.sent = w.sent)
    (clients : w'.clients = w.clients) (activeFds : w'.activeFds = w.activeFds) (heap : w'.heap = w.heap) :
    Notices w w' :=
  .of_same watchList (show w'.sent = w.sent ++ [] by rw [sent, List.append_nil]) clients activeFds heap

/-- One client is changed, and is not unblocked. -/
theorem notices_setClient {ptr : ClientPtr} {client : Client} (client' : Client)
    (found : w.heap ptr = some client) (sameFd : client'.fd = client.fd)
    (still : client.isBlocked = true → client'.isBlocked = true) : Notices w (w.setClient ptr client') :=
  .of_update client' found sameFd (told_of_blocked still) rfl (List.append_nil _).symm rfl rfl rfl

/-- One client is sent something and changed. -/
theorem notices_answer {ptr : ClientPtr} {client : Client} (client' : Client) (text : Bytes)
    (found : w.heap ptr = some client) (sameFd : client'.fd = client.fd) :
    Notices w ((w.emit client.fd text).setClient ptr client') :=
  .of_update client' found sameFd (fun _ _ => ⟨text, List.mem_singleton_self _⟩) rfl rfl rfl rfl rfl

theorem ambient_notices : Ambient (Notices (D := D)) fun _ => True where
  composes := composes_notices
  emit := notices_emit
  tick _ := notices_silent rfl rfl rfl rfl rfl
  takeFresh _ := notices_silent rfl rfl rfl rfl rfl
  change _ _ _ client' found session blocking :=
    notices_setClient client' found session.fd fun blocked =>
      (congrArg Blocking.isBlocked blocking).trans blocked
  authorize _ _ _ := notices_silent rfl rfl rfl rfl rfl
  faults _ _ _ := trivial

theorem mayMark_notices : MayMark (Notices (D := D)) :=
  fun _ _ _ found => notices_setClient _ found rfl id

theorem mayLog_notices : MayLog (Notices (D := D)) where
  rename _ _ := notices_silent rfl rfl rfl rfl rfl
  append _ _ := notices_silent rfl rfl rfl rfl rfl

theorem mayWrite_notices (key : Bytes) : MayWrite (Notices (D := D)) key :=
  fun _ _ _ _ => notices_silent rfl rfl rfl rfl rfl

theorem mayRead_notices (sender : ClientPtr) : MayRead (Notices (D := D)) sender :=
  fun _ _ client' found session reads => notices_setClient client' found session.fd reads.2

end Notices

/-! ## The arms -/

section Arms

variable {w t : World D} {req : RespRequest} {ptr : ClientPtr} {client : Client}

theorem notices_rpush {clientFd : Int} (run : handleRpush req clientFd w = .ok ((), t)) : Notices w t := by
  by_cases enough : 2 ≤ req.argc
  · obtain ⟨key, list, expiresAt, opened, isKey, opens, pushes⟩ := handleRpush_ok enough run
    cases pushes with
    | unserved nobody keeps stores =>
      rw [keeps]
      exact .of_same rfl rfl rfl rfl rfl
    | served ptr client first rest longest found elements keeps stores =>
      rw [keeps]
      exact .of_update client.woken found rfl
        (fun _ _ => ⟨_, List.mem_cons_of_mem _ (List.mem_singleton_self _)⟩) rfl
        (List.append_assoc _ _ _) rfl rfl rfl
  · unfold handleRpush at run
    rw [if_pos (by omega)] at run
    rw [send_run run]
    exact notices_emit _ _ _

theorem notices_blpop [Externals D] (run : handleBlpop req ptr w = .ok ((), t)) : Notices w t := by
  cases handleBlpop_ok run with
  | nothing few same => exact same ▸ .refl w
  | popped key first rest expiresAt client enough isKey bound found keeps stores =>
    rw [keeps]
    exact .of_same rfl rfl rfl rfl rfl
  | blocked key client timeoutAt blockedAt enough isKey empty found keeps =>
    rw [keeps]
    exact .of_update (client.blockedFor key timeoutAt blockedAt) found rfl (told_of_blocked fun _ => rfl) rfl
      (List.append_nil _).symm rfl rfl rfl

theorem notices_wait {clientFd : Int} (run : handleWait req clientFd w = .ok ((), t)) : Notices w t := by
  cases handleWait_ok run with
  | answered wanted isWanted enough keeps =>
    rw [keeps]
    exact .of_same rfl rfl rfl rfl rfl
  | pending wanted asked isWanted few asks marks =>
    have asking : Notices w asked := by
      rw [asks]
      exact .of_same rfl rfl rfl rfl rfl
    obtain ⟨rfl, _⟩ | ⟨marked, waiting, timeoutAt, marks⟩ := marks
    · exact asking
    · refine asking.trans ?_
      rw [marks.keeps]
      exact .of_update (waiting.waitingUntil timeoutAt) marks.found rfl (told_of_blocked fun _ => rfl) rfl
        (List.append_nil _).symm rfl rfl rfl

/-- A reader that is woken is sent the entries first. -/
theorem notices_tryDeliverStreamData (found : w.heap ptr = some client)
    (run : tryDeliverStreamData ptr w = .ok ((), t)) : Notices w t := by
  unfold tryDeliverStreamData at run
  rw [bind_of_ok (loadClient_found found)] at run
  -- three conditions stand before the delivery, and each of them leaves the world alone
  have nothing (same : (pure () : M D Unit) w = .ok ((), t)) : Notices w t := by
    obtain rfl : w = t := by simpa using same
    exact .refl w
  cases blocked : client.isBlocked with
  | false =>
    simp only [blocked] at run
    exact nothing run
  | true =>
    cases waits : client.waitingForKey with
    | none =>
      simp only [blocked, waits] at run
      exact nothing run
    | some key =>
      cases first : client.minId with
      | none =>
        simp only [blocked, waits, first] at run
        exact nothing run
      | some minId =>
        simp only [blocked, waits, first] at run
        obtain ⟨⟨messages, count⟩, read, reading, afterRead⟩ := bind_eq_ok.mp run
        have reads := (obeysAt_streamEntryXreadToString ambient_notices
          fun _ _ => obeys_pure ambient_notices _).1 _ _ reading
        cases messages with
        | none =>
          obtain rfl : read = t := by simpa using afterRead
          exact reads
        | some messages =>
          dsimp only at afterRead
          split at afterRead
          · obtain ⟨_, sent, sends, updates⟩ := bind_eq_ok.mp afterRead
            obtain rfl := send_run sends
            obtain ⟨client', found', rfl⟩ := updateClient_eq_ok.mp updates
            obtain ⟨_, _, _, told⟩ := id reads
            obtain ⟨other, foundOther, sameFd, _⟩ := told.heap ptr client found
            obtain rfl : other = client' := Option.some.inj (foundOther.symm.trans found')
            refine reads.trans ?_
            rw [← sameFd]
            exact notices_answer _ _ foundOther rfl
          · obtain rfl : read = t := by simpa using afterRead
            exact reads

theorem notices_wakeStreamReader {key : Bytes} {slot : ClientSlot}
    (run : wakeStreamReader key slot w = .ok ((), t)) : Notices w t := by
  unfold wakeStreamReader at run
  obtain ⟨occupant, looked, look, wakes⟩ := bind_eq_ok.mp run
  obtain ⟨rfl, _, found⟩ := clientAt_run look
  have nothing (same : (pure () : M D Unit) looked = .ok ((), t)) : Notices looked t := by
    obtain rfl : looked = t := by simpa using same
    exact .refl looked
  cases occupant with
  | none => exact nothing wakes
  | some occupant =>
    dsimp only at wakes
    split at wakes
    · exact notices_tryDeliverStreamData (found occupant.1 occupant.2 rfl) wakes
    · exact nothing wakes

theorem notices_forM {α : Type} {items : List α} {body : α → M D PUnit}
    (each : ∀ item w t, body item w = .ok (⟨⟩, t) → Notices w t)
    (run : forM items body w = .ok (⟨⟩, t)) : Notices w t := by
  induction items generalizing w with
  | nil =>
    obtain rfl : w = t := by simpa using run
    exact .refl w
  | cons item items inductionHypothesis =>
    rw [List.forM_cons] at run
    obtain ⟨_, between, first, rest⟩ := bind_eq_ok.mp run
    exact (each item w between first).trans (inductionHypothesis rest)

theorem notices_xadd {clientFd : Int} (run : handleSet req .stream clientFd w = .ok ((), t)) :
    Notices w t := by
  obtain notices | ⟨key, replied, _, notices, wakes⟩ :=
    handleXadd_parts ambient_notices mayWrite_notices run
  · exact notices
  · exact notices.trans (notices_forM (fun _ _ _ => notices_wakeStreamReader) wakes)

theorem notices_arm [Externals D] (run : arm req ptr client w = .ok ((), t)) : Notices w t := by
  by_cases unblocking : changesBlocking req.command = false
  · exact (obeysAt_arm ambient_notices (.inl trivial) (.inl trivial) (fun _ key _ => mayWrite_notices key)
      (fun blocks => by simp [unblocking] at blocks)).1 () t run
  unfold arm at run
  cases command : req.command with
  | rpush => exact notices_rpush (by simpa [command] using run)
  | blpop => exact notices_blpop (by simpa [command] using run)
  | wait => exact notices_wait (by simpa [command] using run)
  | xadd => exact notices_xadd (by simpa [command] using run)
  | xread =>
    exact (obeysAt_handleStreamPrint ambient_notices .xread (fun _ => mayRead_notices ptr)
      (.inl trivial)).1 () t (by simpa [command] using run)
  | _ => simp [command, changesBlocking] at unblocking

end Arms

/-! ## The timers -/

/-- The server polls every client under the client's own descriptor. -/
def Watched (w : World D) : Prop :=
  ∀ slot ptr client, w.clients slot = some ptr → w.heap ptr = some client →
    (w.watchList slot).fd = client.fd

section Timers

variable {w w' : World D}

theorem Watched.of_notices (watched : Watched w) (notices : Notices w w') : Watched w' := by
  intro slot ptr client' inSlot found'
  obtain ⟨fds, more, _, told⟩ := notices
  obtain ⟨client, found, sameFd, _⟩ := told.back found'
  rw [fds, sameFd]
  exact watched slot ptr client (told.clients ▸ inSlot) found

theorem notices_expireClient {now : Int} {slot : ClientSlot} (watched : Watched w)
    (run : expireClient now slot w = .ok ((), w')) : Notices w w' := by
  unfold expireClient at run
  obtain ⟨_, after, xread, rest⟩ := bind_eq_ok.mp run
  rw [bind_of_ok (observe_run _ after)] at rest
  have first : Notices w after := by
    obtain ⟨rfl, _⟩ | ⟨ptr, client, inSlot, found, _, rfl⟩ := expireXread_ok xread
    · exact .refl after
    · rw [watched slot ptr client inSlot found]
      exact notices_answer client.unblocked nilArray found rfl
  refine first.trans ?_
  obtain ⟨rfl, _⟩ | ⟨ptr, client, key, _, found, _, _, rfl⟩ := handleEndblpop_ok rest
  · exact notices_silent rfl rfl rfl rfl rfl
  · exact (notices_silent rfl rfl rfl rfl rfl : Notices after after.tick).trans
      (notices_answer (w := after.tick) client.woken _ found rfl)

theorem notices_expireClients {now : Int} {slots : List ClientSlot} (watched : Watched w)
    (run : forM slots (expireClient now) w = .ok ((), w')) : Notices w w' := by
  induction slots generalizing w with
  | nil =>
    obtain rfl : w = w' := by simpa using run
    exact .refl w
  | cons slot slots inductionHypothesis =>
    rw [List.forM_cons] at run
    obtain ⟨_, after, first, rest⟩ := bind_eq_ok.mp run
    have notices := notices_expireClient watched first
    exact notices.trans (inductionHypothesis (watched.of_notices notices) rest)

/-- The loop that ends a WAIT unblocks only the client that was answered. -/
theorem CompletesWait.notices {now : Int} (completes : CompletesWait w now w') : Notices w w' := by
  cases completes with
  | idle nobody same => exact same ▸ .refl w
  | waits few notDue same => exact same ▸ .refl w
  | completes somebody enough keeps free heap =>
    obtain ⟨reply, isReply⟩ :
        ∃ reply, reply = integerReply (w.acknowledged w.serverConfig.capturedMasterOffset) := ⟨_, rfl⟩
    rw [← isReply] at keeps
    refine ⟨fun slot => by rw [keeps], [(w.serverConfig.waitClientFd, reply)], by rw [keeps], by rw [keeps],
      by rw [keeps], free, fun ptr client found => ?_⟩
    obtain ⟨_, kept⟩ | ⟨_, ended⟩ := heap ptr client found
    · exact ⟨client, kept, rfl, told_of_blocked id⟩
    · refine ⟨_, ended, rfl, fun blocked unblocked => ⟨reply, ?_⟩⟩
      simp only [Client.waitEnded] at unblocked
      split at unblocked
      · rename_i isAnswered
        rw [isAnswered]
        exact List.mem_singleton_self _
      · simp [blocked] at unblocked

theorem notices_runTimers (oneSlot : w.OneSlot) (watched : Watched w)
    (run : runTimers w = .ok ((), w')) : Notices w w' := by
  unfold runTimers at run
  rw [bind_of_ok (show getCurrentTimeMs w = .ok (w.clock 0, w.tick) from rfl),
    bind_of_ok (activeSlots_run w.tick)] at run
  obtain ⟨_, expired, expires, completes⟩ := bind_eq_ok.mp run
  have ticks : Notices w w.tick := notices_silent rfl rfl rfl rfl rfl
  have expiry := notices_expireClients (watched.of_notices ticks) expires
  have sameClients : expired.clients = w.clients := by
    obtain ⟨_, _, _, told⟩ := expiry
    exact told.clients
  refine (ticks.trans expiry).trans (completeWait_ok ?_ completes).notices
  unfold World.OneSlot
  rwa [sameClients]

end Timers

/-! ## Steps -/

section Steps

variable {w w' : World D}

theorem notices_watchKey {ptr : ClientPtr} {key : Bytes} (run : watchKey ptr key w = .ok ((), w')) :
    Notices w w' := by
  obtain ⟨client, bucket, found, _, rfl⟩ := watchKey_run run
  exact .of_update { client with watchKeys := client.watchKeys ++ [key] } found rfl (told_of_blocked id) rfl
    (List.append_nil _).symm rfl rfl rfl

theorem watchList_clearAll (w : World D) (ptr : ClientPtr) (keys : List Bytes) :
    (w.clearAll ptr keys).watchList = w.watchList := by
  induction keys generalizing w with
  | nil => rfl
  | cons key keys inductionHypothesis => exact inductionHypothesis (w.clear ptr key)

theorem notices_deleteWatchedKeys {ptr : ClientPtr} (run : deleteWatchedKeys ptr w = .ok ((), w')) :
    Notices w w' := by
  obtain ⟨client, found, rfl⟩ := deleteWatchedKeys_run run
  have sent : (w.release ptr client).sent = w.sent ++ [] := by
    rw [List.append_nil]
    exact sent_clearAll w ptr client.watchKeys
  refine .of_update client.unwatched found rfl (told_of_blocked id) ?_ sent ?_ ?_ ?_
  · exact watchList_clearAll w ptr client.watchKeys
  · exact clearAll_clients w ptr client.watchKeys
  · exact clearAll_activeFds w ptr client.watchKeys
  · rw [World.release, World.setClient, heap_clearAll]

theorem notices_propagate {ptr : ClientPtr} {call : Call} (run : propagate ptr call w = .ok ((), w')) :
    Notices w w' := by
  obtain ⟨_, _, same⟩ := propagate_same run
  obtain ⟨copies, sent, _⟩ := propagate_sent run
  exact .of_same (by rw [same]) sent (by rw [same]) (by rw [same]) (by rw [same])

variable [Externals D]

theorem notices_dispatch {req : RespRequest} {ptr : ClientPtr} (run : dispatch req ptr w = .ok ((), w')) :
    Notices w w' := by
  obtain ⟨client, handled, notified, found, arms, notify, write⟩ := dispatch_parts run
  have noted : Notices w (w.noted req) := notices_silent rfl rfl rfl rfl rfl
  have notifies : Obeys Notices (fun _ => True) (onlyIf (notifies req.command) (notifyFirst req) : M D Unit) :=
    Obeys.onlyIf composes_notices fun _ => obeys_notifyFirst ambient_notices (.inl trivial) mayMark_notices
  have logs : Obeys Notices (fun _ => True) (onlyIf (logs req.command) (writeToFile req) : M D Unit) :=
    Obeys.onlyIf composes_notices fun _ => obeys_writeToFile ambient_notices mayLog_notices
  exact ((noted.trans (notices_arm arms)).trans ((notifies handled).1 () notified notify)).trans
    ((logs notified).1 () w' write)

theorem Handled.notices {req : RespRequest} {ptr : ClientPtr} {client : Client}
    (handles : Handled w req ptr client w') (found : w.heap ptr = some client) : Notices w w' := by
  cases handles with
  | queued ordinary inMulti room =>
    exact (notices_setClient { client with requests := client.requests ++ [copyRequest req] } found rfl
      id).trans (notices_emit _ _ _)
  | opened isMulti outside =>
    exact (notices_setClient { client with requests := [], isQueued := true } found rfl id).trans
      (notices_emit _ _ _)
  | refused text reason => exact notices_emit _ _ _
  | ignored isWatch noKey => exact .refl w
  | watched isWatch outside run =>
    exact (notices_forM (fun _ _ _ => notices_watchKey) run).trans (notices_emit _ _ _)
  | unwatched fd isUnwatch run => exact (notices_deleteWatchedKeys run).trans (notices_emit _ _ _)
  | left reply inMulti isEnd run =>
    exact ((notices_setClient client.leaveMulti found rfl id).trans
      (notices_deleteWatchedKeys run)).trans (notices_emit _ _ _)
  | dispatched reaches run => exact notices_dispatch run

variable {s t : Server D} {event : Event}

/-- The event neither accepts nor ends a connection. -/
def Event.keepsConnections : Event → Bool
  | .connect _ _ | .disconnect _ => false
  | _ => true

theorem notices_step (wellFormed : WellFormed s) (watched : Watched s.world)
    (keeps : event.keepsConnections = true) (step : Step s event t) : Notices s.world t.world := by
  have viaHandle (isHandle : (∃ slot call, event = .request slot call) ∨ event = .proceed) :
      Notices s.world t.world := by
    cases step_cases wellFormed.outside step with
    | quiet idle noRequest kept =>
      obtain ⟨slot, call, isRequest⟩ | rfl := isHandle
      · exact absurd isRequest (noRequest slot call)
      · exact absurd idle step.1
    | connected slot idle isNext valid free => simp at isHandle
    | disconnected last ptr idle isLast occupied => simp at isHandle
    | started ptr client idle occupied found starts =>
      exact (notices_emit s.world client.fd _).trans (notices_setClient client.takeQueue found rfl id)
    | served ptr client idle occupied found starts handles propagates =>
      exact (handles.notices found).trans (notices_propagate propagates)
    | ran ptr req remaining call client after running found handles foundAfter =>
      exact (handles.notices found).trans (notices_setClient _ foundAfter rfl id)
    | ended ptr call running propagates => exact notices_propagate propagates
  obtain ⟨enabled, acts⟩ := id step
  cases event with
  | poll ready =>
    rw [show s.running = none from enabled] at acts
    obtain ⟨runs, _⟩ := act_unit acts
    simp only [setReady, alter_run, Except.ok.injEq, Prod.mk.injEq, true_and] at runs
    rw [← runs]
    refine ⟨fun slot => ?_, [], (List.append_nil _).symm,
      .of_same (fun _ _ => told_of_blocked id) rfl rfl rfl⟩
    dsimp only
    split <;> rfl
  | timers =>
    rw [show s.running = none from enabled] at acts
    exact notices_runTimers wellFormed.distinct watched (act_unit acts).1
  | connect fd ptr => simp [Event.keepsConnections] at keeps
  | disconnect slot => simp [Event.keepsConnections] at keeps
  | request slot call => exact viaHandle (.inl ⟨slot, call, rfl⟩)
  | proceed => exact viaHandle (.inr rfl)

omit [Externals D] in
theorem Watched.accept (watched : Watched w) (allocated : ∀ slot ptr, w.clients slot = some ptr →
    w.heap ptr ≠ none) {slot : ClientSlot} {fd : Int} {ptr : ClientPtr} (free : w.heap ptr = none) :
    Watched (w.accept slot fd ptr) := by
  intro slot' other client inSlot found
  simp only [World.accept] at inSlot found ⊢
  by_cases isNew : slot' = slot
  · subst isNew
    rw [Function.update_self, Option.some.injEq] at inSlot
    subst inSlot
    rw [Function.update_self, Option.some.injEq] at found
    rw [Function.update_self, ← found]
    rfl
  · rw [Function.update_of_ne isNew] at inSlot ⊢
    have isOld : other ≠ ptr := by
      rintro rfl
      exact allocated slot' other inSlot free
    rw [Function.update_of_ne isOld] at found
    exact watched slot' other client inSlot found

omit [Externals D] in
theorem Watched.drop (watched : Watched w) {slot last : ClientSlot} {ptr : ClientPtr} :
    Watched (w.drop slot last ptr) := by
  intro slot' other client inSlot found
  simp only [World.drop] at inSlot found ⊢
  have kept : other ≠ ptr := by
    rintro rfl
    simp at found
  rw [Function.update_of_ne kept] at found
  by_cases isLast : slot' = last
  · rw [isLast, Function.update_self] at inSlot
    simp at inSlot
  · rw [Function.update_of_ne isLast] at inSlot ⊢
    by_cases moved : slot' = slot
    · -- the last connection moved with its descriptor
      rw [moved, Function.update_self] at inSlot ⊢
      exact watched last other client inSlot found
    · rw [Function.update_of_ne moved] at inSlot ⊢
      exact watched slot' other client inSlot found

theorem Watched.of_step (watched : Watched s.world) (wellFormed : WellFormed s) (step : Step s event t) :
    Watched t.world := by
  by_cases keeps : event.keepsConnections = true
  · exact watched.of_notices (notices_step wellFormed watched keeps step)
  · cases step_cases wellFormed.outside step with
    | connected slot idle isNext valid free => exact watched.accept wellFormed.allocated free
    | disconnected last ptr idle isLast occupied => exact watched.drop
    | @quiet event w' idle noRequest kept =>
      obtain ⟨enabled, acts⟩ := step
      cases event with
      | connect fd ptr =>
        rw [idle] at acts
        obtain same | ⟨slot, _, same⟩ := connect_run (act_unit acts).1
        · exact same ▸ watched
        · exact same ▸ watched.accept wellFormed.allocated enabled.2.2
      | disconnect slot =>
        rw [idle] at acts
        obtain ⟨ptr, inSlot⟩ := Option.ne_none_iff_exists'.mp enabled.2
        obtain ⟨last, _, same⟩ := disconnect_run inSlot (act_unit acts).1
        exact same ▸ watched.drop
      | _ => simp [Event.keepsConnections] at keeps
    | _ => simp [Event.keepsConnections] at keeps

/-- A client that a step unblocks is sent something by the step. -/
theorem unblocked_told (wellFormed : WellFormed s) (watched : Watched s.world) (step : Step s event t)
    {ptr : ClientPtr} {client client' : Client} (found : s.world.heap ptr = some client)
    (blocked : client.isBlocked = true) (found' : t.world.heap ptr = some client')
    (unblocked : client'.isBlocked = false) :
    ∃ text, (client.fd, text) ∈ t.world.sent.drop s.world.sent.length := by
  have remains (keeps : t.world.heap ptr = s.world.heap ptr) : False := by
    rw [keeps, found, Option.some.injEq] at found'
    simp [← found', blocked] at unblocked
  cases event with
  | connect fd new =>
    obtain ⟨enabled, acts⟩ := step
    rw [show s.running = none from enabled.1] at acts
    obtain same | ⟨slot, _, same⟩ := connect_run (act_unit acts).1
    · exact (remains (by rw [same])).elim
    · have isOld : ptr ≠ new := by
        rintro rfl
        simp [enabled.2.2] at found
      exact (remains (by rw [same]; exact Function.update_of_ne isOld _ _)).elim
  | disconnect slot =>
    obtain ⟨enabled, acts⟩ := step
    rw [show s.running = none from enabled.1] at acts
    obtain ⟨gone, inSlot⟩ := Option.ne_none_iff_exists'.mp enabled.2
    obtain ⟨last, _, same⟩ := disconnect_run inSlot (act_unit acts).1
    have kept : ptr ≠ gone := by
      rintro rfl
      rw [same] at found'
      simp [World.drop] at found'
    exact (remains (by rw [same]; exact Function.update_of_ne kept _ _)).elim
  | _ =>
    obtain ⟨_, more, sent, told⟩ := notices_step wellFormed watched rfl step
    obtain ⟨other, foundOther, _, tells⟩ := told.heap ptr client found
    obtain rfl : other = client' := Option.some.inj (foundOther.symm.trans found')
    obtain ⟨text, member⟩ := tells blocked unblocked
    exact ⟨text, by rwa [sent, List.drop_left]⟩

end Steps

end RedisClone
