import RedisClone.Verified.Watching
import RedisClone.Verified.Unobserved
import RedisClone.Verified.Connections

/-! # EXEC and its commands one after another

`exec_sequential`: from every state that a run reaches, MULTI, some requests and EXEC leave what the requests leave
when `handle` is called for one after another, with the same replies behind the header of EXEC.  The two runs go in
step: the queue holds copies of the requests, and `handle` takes a copy for the request as long as it reads no
argument that the request does not have (`handle_alike`).
-/

namespace RedisClone

open Exec CString

variable {D : Type}

/-! ## Copies of requests -/

/-- Wherever `x` reads no argument that is not there, `y` does the same. -/
def Covers {α : Type} (x y : M D α) : Prop := ∀ w, x w = .error .missingArg ∨ x w = y w

section Copies

theorem Covers.refl {α : Type} (x : M D α) : Covers x x := fun _ => .inr rfl

theorem Covers.bind {α β : Type} {x y : M D α} {f g : α → M D β} (first : Covers x y)
    (rest : ∀ a, Covers (f a) (g a)) : Covers (x >>= f) (y >>= g) := by
  intro w
  obtain missing | same := first w
  · exact .inl (bind_of_error missing)
  · cases run : x w with
    | error f => exact .inr ((bind_of_error run).trans (bind_of_error (same ▸ run)).symm)
    | ok result =>
      rw [bind_of_ok run, bind_of_ok (same ▸ run : y w = .ok (result.1, result.2))]
      exact rest result.1 result.2

variable {req : RespRequest} {ptr : ClientPtr}

/-- The slots behind the arguments of a copy hold nothing that can be printed. -/
theorem covers_printArg (i : Nat) : Covers ((copyRequest req).printArg i : M D Unit) (req.printArg i) := by
  unfold RespRequest.printArg copyRequest
  cases req.args[i]? with
  | none => exact fun w => .inl rfl
  | some value => exact .refl _

theorem covers_handleSingleXread :
    Covers (handleSingleXread (copyRequest req) ptr : M D (Option Bytes)) (handleSingleXread req ptr) := by
  unfold handleSingleXread
  refine .bind (.refl _) fun block => ?_
  cases block with
  | some blockIndex => exact .bind (covers_printArg 3) fun _ => .bind (covers_printArg 4) fun _ => .refl _
  | none => exact .bind (covers_printArg 1) fun _ => .refl _

theorem covers_handleXread :
    Covers (handleXread (copyRequest req) ptr : M D (Option (Option Bytes))) (handleXread req ptr) := by
  unfold handleXread
  refine .bind (.refl _) fun keys => ?_
  cases keys with
  | some keys => exact .refl _
  | none => exact .bind covers_handleSingleXread fun _ => .refl _

theorem covers_handleStreamPrint (clientFd : Int) (cmd : RedisCmds) :
    Covers (handleStreamPrint (copyRequest req) ptr clientFd cmd : M D Unit)
      (handleStreamPrint req ptr clientFd cmd) := by
  unfold handleStreamPrint
  refine .bind (covers_printArg 0) fun _ => ?_
  split
  · exact .refl _
  · exact .bind covers_handleXread fun _ => .refl _

/-- The arm of a command does for a copy what it does for the request. -/
theorem covers_arm [Externals D] (client : Client) :
    Covers (arm (copyRequest req) ptr client : M D Unit) (arm req ptr client) := by
  unfold arm
  rw [show (copyRequest req).command = req.command from rfl]
  cases req.command with
  | replconf => exact .bind (covers_printArg 0) fun _ => .refl _
  | xread => exact covers_handleStreamPrint client.fd .xread
  | xrange => exact covers_handleStreamPrint client.fd .xrange
  | multi => exact .bind (covers_printArg 0) fun _ => .refl _
  | exec => exact .bind (covers_printArg 0) fun _ => .refl _
  | discard => exact .bind (covers_printArg 0) fun _ => .refl _
  | watch => exact .bind (covers_printArg 0) fun _ => .refl _
  | unwatch => exact .bind (covers_printArg 0) fun _ => .refl _
  | unknown => exact .bind (covers_printArg 0) fun _ => .refl _
  | _ => exact .refl _

end Copies

/-! ## One request -/

section Requests

variable {before before' : List (Int × Bytes)} {w w' : World D} {req : RespRequest} {ptr : ClientPtr}
  {client : Client}

theorem SameButSent.heap (same : SameButSent before before' w w') : w'.heap = w.heap := by
  rw [same.keeps]

/-- The log of executed commands is not among what is compared. -/
theorem SameButSent.executed (same : SameButSent before before' w w') (executed executed' : List RespRequest) :
    SameButSent before before' { w with executed } { w' with executed := executed' } where
  keeps := by rw [same.keeps]
  sent := same.sent

variable [Externals D]

theorem dispatch_alike (same : SameButSent before before' w w') (found : w.heap ptr = some client)
    (supplied : dispatch (copyRequest req) ptr w ≠ .error .missingArg) :
    Alike (SameButSent before before') (dispatch req ptr w) (dispatch (copyRequest req) ptr w') := by
  have found' : w'.heap ptr = some client := by rw [same.heap, found]
  have atStart : SameButSent before before w w :=
    ⟨rfl, same.sent.imp fun replies both => ⟨both.1, both.1⟩⟩
  rw [dispatch_eq, dispatch_eq, bind_of_ok (loadClient_found found), bind_of_ok (loadClient_found found')]
  rw [dispatch_eq, bind_of_ok (loadClient_found found)] at supplied
  unfold noteExecuted at supplied ⊢
  rw [bind_of_ok (alter_run _ _)] at supplied
  rw [bind_of_ok (alter_run _ _), bind_of_ok (alter_run _ _)]
  have sameArm {executed : List RespRequest} : (arm (copyRequest req) ptr client : M D Unit) { w with executed } =
      arm req ptr client { w with executed } := by
    have covers : Covers (arm (copyRequest req) ptr client : M D Unit) (arm req ptr client) := covers_arm client
    obtain missing | same := covers { w with executed }
    · -- then the copy misses an argument from every state that differs in the log only
      exact absurd (bind_of_error ((((lockstep_arm ptr client).run _ _ (atStart.executed _ _)).error_iff _).mp missing))
        supplied
    · exact same
  refine Alike.seq (by rw [← sameArm]; exact (lockstep_arm ptr client).run _ _ (same.executed _ _))
    fun _ u v related => ?_
  exact (lockstep_bind (x := onlyIf (notifies req.command) (notifyFirst req))
    (f := fun _ => onlyIf (logs req.command) (writeToFile req))).run u v related

/-- `handle` for a request and for its copy, from states in which different texts were sent before. -/
theorem handle_alike (same : SameButSent before before' w w') (found : w.heap ptr = some client)
    (outside : client.isQueued = false) (ordinary : isTransactionCmd req.command = false)
    (supplied : handle (copyRequest req) ptr w ≠ .error .missingArg) :
    Alike (SameButSent before before') (handle req ptr w) (handle (copyRequest req) ptr w') := by
  have found' : w'.heap ptr = some client := by rw [same.heap, found]
  have ordinaryCopy : isTransactionCmd (copyRequest req).command = false := ordinary
  rw [handle_command found outside ordinary, handle_command found' outside ordinaryCopy]
  rw [handle_command found outside ordinaryCopy] at supplied
  unfold handleCommand at supplied ⊢
  rw [bind_of_ok (loadClient_found found)] at supplied
  rw [bind_of_ok (loadClient_found found), bind_of_ok (loadClient_found found')]
  rw [show (copyRequest req).command = req.command from rfl] at supplied ⊢
  by_cases refused : (client.isSubscribed && !isChannelCmd req.command) = true
  · rw [if_pos refused, if_pos refused]
    exact (lockstep_sendText 128 client.fd (subscribedError req.command)).run w w' same
  · rw [if_neg refused] at supplied
    rw [if_neg refused, if_neg refused]
    exact dispatch_alike same found supplied

/-- A request that is no transaction command leaves its client outside MULTI, with an empty queue. -/
theorem handle_queue {w w' : World D} (found : w.heap ptr = some client) (outside : client.isQueued = false)
    (ordinary : isTransactionCmd req.command = false) (run : handle req ptr w = .ok ((), w')) :
    ∃ client', w'.heap ptr = some client' ∧ client'.isQueued = false ∧ client'.requests = client.requests := by
  rw [handle_command found outside ordinary, handleCommand, bind_of_ok (loadClient_found found)] at run
  split at run
  · rw [send_run run]
    exact ⟨client, found, outside, rfl⟩
  · obtain ⟨client', found', session⟩ := (kept_dispatch run).heap ptr client found
    exact ⟨client', found', session.isQueued.trans outside, session.requests⟩

/-! ## A queue -/

/-- The handlers of the requests, called one after another, read no argument that their requests do not have:
behind the arguments of a copy nothing can be read. -/
def ReadsSupplied (ptr : ClientPtr) : List RespRequest → World D → Prop
  | [], _ => True
  | req :: requests, w =>
    handle (copyRequest req) ptr w ≠ .error .missingArg ∧
      ∀ w', handle req ptr w = .ok ((), w') → ReadsSupplied ptr requests w'

/-- `ReadsSupplied`, by running the handlers. -/
def readsSupplied (ptr : ClientPtr) : List RespRequest → World D → Bool
  | [], _ => true
  | req :: requests, w =>
    (match handle (copyRequest req) ptr w with
      | .error .missingArg => false
      | _ => true) &&
    (match handle req ptr w with
      | .ok ((), w') => readsSupplied ptr requests w'
      | .error _ => true)

theorem readsSupplied_sound {requests : List RespRequest} (supplied : readsSupplied ptr requests w = true) :
    ReadsSupplied ptr requests w := by
  induction requests generalizing w with
  | nil => trivial
  | cons req requests inductionHypothesis =>
    obtain ⟨first, rest⟩ := Bool.and_eq_true_iff.mp supplied
    refine ⟨fun missing => ?_, fun w' run => ?_⟩
    · simp [missing] at first
    · rw [run] at rest
      exact inductionHypothesis rest

omit [Externals D] in
theorem clearQueued_idle (found : w.heap ptr = some client) (outside : client.isQueued = false) :
    clearQueued ptr w = .ok ((), w) := by
  unfold clearQueued
  rw [updateClient_found found]
  have same : ({ client with isQueued := false } : Client) = client := by rw [← outside]
  rw [same, World.setClient, ← found, Function.update_eq_self]

/-- The loop of EXEC over the copies and the requests one after another. -/
theorem forM_execCommand_alike {requests : List RespRequest} (same : SameButSent before before' w w')
    (found : w.heap ptr = some client) (outside : client.isQueued = false)
    (ordinary : ∀ req ∈ requests, isTransactionCmd req.command = false) (supplied : ReadsSupplied ptr requests w) :
    Alike (SameButSent before before') ((forM requests fun req => handle req ptr) w)
      ((forM (requests.map copyRequest) (execCommand (handleWith execWithoutMulti) ptr)) w') := by
  induction requests generalizing w w' client with
  | nil => exact .ok _ same
  | cons req requests inductionHypothesis =>
    have found' : w'.heap ptr = some client := by rw [same.heap, found]
    have isOrdinary := ordinary req List.mem_cons_self
    rw [List.forM_cons, List.map_cons, List.forM_cons]
    unfold execCommand
    rw [bind_assoc, bind_of_ok (clearQueued_idle found' outside), bind_assoc]
    have first := handle_alike same found outside isOrdinary supplied.1
    rw [show handle (copyRequest req) ptr w' = handleWith execWithoutMulti (copyRequest req) ptr w' from
      handleWith_of_not_queued _ _ _ found' outside] at first
    cases run : handle req ptr w with
    | error f =>
      rw [run] at first
      rw [bind_of_error run, bind_of_error ((first.error_iff f).mp rfl)]
      exact .error f
    | ok result =>
      rw [run] at first
      obtain ⟨handled', run', sameHandled⟩ := first.ok_iff (s := result.2) rfl
      obtain ⟨client', foundAfter, outsideAfter, _⟩ := handle_queue found outside isOrdinary run
      have foundAfter' : handled'.heap ptr = some client' := by rw [sameHandled.heap, foundAfter]
      rw [bind_of_ok run, bind_of_ok run', bind_of_ok (clearQueued_idle foundAfter' outsideAfter)]
      exact inductionHypothesis sameHandled foundAfter outsideAfter
        (fun other member => ordinary other (List.mem_cons_of_mem _ member)) (supplied.2 _ run)

end Requests

/-! ## Empty queues

MULTI and EXEC empty the queue of their client, so that the comparison of two states shows a queue that a client
had before.  In the states that runs reach, a client outside MULTI has none.
-/

/-- The clients outside MULTI have an empty queue. -/
def QueuesEmpty (w : World D) : Prop :=
  ∀ ptr client, w.heap ptr = some client → client.isQueued = false → client.requests = []

section Queues

variable {w w' : World D} {req : RespRequest} {ptr : ClientPtr} {client : Client}

theorem QueuesEmpty.of_heap (empty : QueuesEmpty w) (heap : w'.heap = w.heap) : QueuesEmpty w' := by
  unfold QueuesEmpty
  rw [heap]
  exact empty

theorem QueuesEmpty.of_update (empty : QueuesEmpty w) (heap : w'.heap = Function.update w.heap ptr (some client))
    (isEmpty : client.isQueued = false → client.requests = []) : QueuesEmpty w' := by
  intro other otherClient found
  by_cases same : other = ptr
  · subst same
    rw [heap, Function.update_self] at found
    cases found
    exact isEmpty
  · rw [heap, Function.update_of_ne same] at found
    exact empty other otherClient found

theorem QueuesEmpty.setClient (empty : QueuesEmpty w) (ptr : ClientPtr) (client : Client)
    (isEmpty : client.isQueued = false → client.requests = []) : QueuesEmpty (w.setClient ptr client) :=
  empty.of_update rfl isEmpty

theorem QueuesEmpty.of_kept {may : May} (empty : QueuesEmpty w) (kept : Kept may w w') : QueuesEmpty w' := by
  intro other client' found' outside'
  cases found : w.heap other with
  | none => simp [kept.free other found] at found'
  | some client =>
    obtain ⟨after, foundAfter, session⟩ := kept.heap other client found
    obtain rfl : after = client' := Option.some.inj (foundAfter.symm.trans found')
    rw [session.requests]
    apply empty other client found
    rw [← session.isQueued, outside']

theorem QueuesEmpty.watched {keys : List Bytes} (empty : QueuesEmpty w)
    (run : forM keys (watchKey ptr) w = .ok ((), w')) : QueuesEmpty w' := by
  induction keys generalizing w with
  | nil =>
    obtain rfl : w = w' := by simpa using run
    exact empty
  | cons key keys inductionHypothesis =>
    rw [List.forM_cons] at run
    obtain ⟨_, registered, first, rest⟩ := bind_eq_ok.mp run
    obtain ⟨client, bucket, found, _, rfl⟩ := watchKey_run first
    apply inductionHypothesis _ rest
    have registers := empty.setClient ptr { client with watchKeys := client.watchKeys ++ [key] }
      (empty ptr client found)
    exact registers.of_heap rfl

theorem QueuesEmpty.released (empty : QueuesEmpty w) (run : deleteWatchedKeys ptr w = .ok ((), w')) :
    QueuesEmpty w' := by
  obtain ⟨client, found, rfl⟩ := deleteWatchedKeys_run run
  have unwatching := empty.setClient ptr client.unwatched (empty ptr client found)
  apply unwatching.of_heap
  change Function.update (w.clearAll ptr client.watchKeys).heap ptr _ = _
  rw [heap_clearAll]
  rfl

variable [Externals D]

theorem Handled.queuesEmpty (handles : Handled w req ptr client w') (empty : QueuesEmpty w) : QueuesEmpty w' := by
  cases handles with
  | queued ordinary inMulti room =>
    have queueing := empty.setClient ptr { client with requests := client.requests ++ [copyRequest req] }
      fun outside => by simp [inMulti] at outside
    exact queueing.of_heap rfl
  | opened isMulti outside =>
    have opening := empty.setClient ptr { client with requests := [], isQueued := true } fun _ => rfl
    exact opening.of_heap rfl
  | refused text reason => exact empty.of_heap rfl
  | ignored isWatch noKey => exact empty
  | watched isWatch outside run => exact (empty.watched run).of_heap rfl
  | unwatched fd isUnwatch run => exact (empty.released run).of_heap rfl
  | left reply inMulti isEnd run =>
    have leaving := empty.setClient ptr client.leaveMulti fun _ => rfl
    exact (leaving.released run).of_heap rfl
  | dispatched reaches run => exact empty.of_kept (kept_dispatch run)

/-- A command of a queue, and what `handle_exec` does after it. -/
theorem Handled.queuesEmpty_cleared {client' : Client} (handles : Handled w req ptr client w') (empty : QueuesEmpty w)
    (found : w.heap ptr = some client) (outside : client.isQueued = false) (found' : w'.heap ptr = some client') :
    QueuesEmpty (w'.setClient ptr { client' with isQueued := false }) := by
  apply (handles.queuesEmpty empty).setClient
  intro _
  -- nothing comes into the queue of a client outside MULTI
  have held : Held (fun _ => False) w w' := handles.held found fun _ inMulti => by simp [outside] at inMulti
  obtain ⟨after, foundAfter, _, requests⟩ := held.heap ptr client found
  obtain rfl : after = client' := Option.some.inj (foundAfter.symm.trans found')
  apply List.eq_nil_iff_forall_not_mem.mpr
  intro req member
  cases requests req member with
  | inl queuedBefore => simp [empty ptr client found outside] at queuedBefore
  | inr never => exact never

/-- The steps of a run, from a state in which no client in MULTI runs its queue. -/
theorem QueuesEmpty.step {s t : Server D} {event : Event} (empty : QueuesEmpty s.world) (outside : OutsideMulti s)
    (step : Step s event t) : QueuesEmpty t.world := by
  cases step_cases outside step with
  | quiet idle noRequest kept => exact empty.of_kept kept
  | connected slot idle isNext valid free =>
    rename_i fd new
    have accepting := empty.setClient new (newClient fd) fun _ => rfl
    exact accepting.of_heap rfl
  | disconnected last ptr idle isLast occupied =>
    intro other client found
    exact empty other client (heap_drop found).2
  | started ptr client idle occupied found starts =>
    have sending : QueuesEmpty (s.world.emit client.fd (arrayHeader client.requests.length)) := empty.of_heap rfl
    exact sending.setClient ptr client.takeQueue fun _ => rfl
  | served ptr client idle occupied found starts handles propagates =>
    exact (handles.queuesEmpty empty).of_kept (kept_propagate propagates)
  | ran ptr req remaining call client client' running found handles found' =>
    exact handles.queuesEmpty_cleared empty found (outside _ client running found) found'
  | ended ptr call running propagates => exact empty.of_kept (kept_propagate propagates)

omit [Externals D] in
/-- EXEC clears `is_queued` before the first command, or after the last one. -/
theorem execLoop_cleared (handle : RespRequest → ClientPtr → M D Unit) (ptr : ClientPtr)
    (requests : List RespRequest) :
    (do
      forM requests (execCommand handle ptr)
      clearQueued ptr : M D Unit) =
    (do
      clearQueued ptr
      forM requests (execCommand handle ptr)
      clearQueued ptr) := by
  cases requests with
  | nil =>
    simp only [List.forM_nil, pure_bind]
    exact (clearQueued_twice ptr).symm
  | cons req requests =>
    simp only [List.forM_cons, execCommand, bind_assoc]
    have twice := congrArg (fun x : M D Unit => do
      x
      handle req ptr
      clearQueued ptr
      forM requests (execCommand handle ptr)
      clearQueued ptr) (clearQueued_twice ptr)
    simp only [bind_assoc] at twice
    exact twice.symm

theorem QueuesEmpty.execCommands {requests : List RespRequest} (empty : QueuesEmpty w)
    (found : w.heap ptr = some client) (outside : client.isQueued = false)
    (run : (do
      forM requests (execCommand (handleWith execWithoutMulti) ptr)
      clearQueued ptr : M D Unit) w = .ok ((), w')) : QueuesEmpty w' := by
  induction requests generalizing w client with
  | nil =>
    simp only [List.forM_nil, pure_bind] at run
    rw [clearQueued_idle found outside] at run
    cases run
    exact empty
  | cons req requests inductionHypothesis =>
    simp only [List.forM_cons, execCommand, bind_assoc] at run
    rw [bind_of_ok (clearQueued_idle found outside)] at run
    obtain ⟨_, handled, handles, afterHandle⟩ := bind_eq_ok.mp run
    obtain ⟨_, cleared, clears, rest⟩ := bind_eq_ok.mp afterHandle
    obtain ⟨client', found', rfl⟩ := updateClient_eq_ok.mp clears
    have starts : startsTransaction client req = false := by
      simp [startsTransaction, outside]
    have asHandle : handle req ptr w = .ok ((), handled) :=
      (handleWith_of_not_queued _ _ req found outside).trans handles
    have clearing := (handle_cases found starts asHandle).queuesEmpty_cleared empty found outside found'
    exact inductionHypothesis clearing (Function.update_self _ _ _) rfl rest

theorem QueuesEmpty.handle (empty : QueuesEmpty w) (run : handle req ptr w = .ok ((), w')) : QueuesEmpty w' := by
  cases found : w.heap ptr with
  | none => simp [RedisClone.handle, handleWith, bind_of_error (loadClient_missing found)] at run
  | some client =>
    cases starts : startsTransaction client req with
    | false => exact (handle_cases found starts run).queuesEmpty empty
    | true =>
      obtain ⟨isExec, queued, clean⟩ := startsTransaction_eq_true.mp starts
      rw [handle_exec found isExec, handleExec_runs _ found queued clean, execLoop_cleared] at run
      obtain ⟨_, sent, sends, afterSend⟩ := bind_eq_ok.mp run
      obtain ⟨_, taken, takes, afterTake⟩ := bind_eq_ok.mp afterSend
      obtain ⟨_, cleared, clears, rest⟩ := bind_eq_ok.mp afterTake
      obtain rfl := send_run sends
      obtain ⟨old, foundOld, rfl⟩ := updateClient_eq_ok.mp takes
      obtain ⟨taken, foundTaken, rfl⟩ := updateClient_eq_ok.mp clears
      obtain rfl : { old with requests := [] } = taken := by
        simpa [World.setClient] using foundTaken
      have sending : QueuesEmpty (w.emit client.fd (arrayHeader client.requests.length)) := empty.of_heap rfl
      have taking := sending.setClient ptr { old with requests := [] } fun _ => rfl
      have clearing := taking.setClient ptr { old with requests := [], isQueued := false } fun _ => rfl
      exact clearing.execCommands (Function.update_self _ _ _) rfl rest

theorem NoConnections.queuesEmpty_joined (nobody : NoConnections w) {bytes stale : Bytes} {afterRdb : Nat}
    (run : joinMaster ptr bytes stale afterRdb w = .ok ((), w')) : QueuesEmpty w' := by
  apply joinMaster_invariant ?_ ?_ run
  · intro slot isNext
    have nothing : QueuesEmpty w := fun other client found => by simp [nobody.heap] at found
    have seating := nothing.setClient ptr { newClient w.serverConfig.masterFd with isMaster := true } fun _ => rfl
    exact seating.of_heap rfl
  · intro w handled slot sender call empty inSlot handles
    exact (empty.handle handles).of_heap rfl

theorem EntersLoop.queuesEmpty (enters : EntersLoop w) : QueuesEmpty w := by
  cases enters with
  | alone nobody =>
    intro ptr client found
    simp [nobody.heap] at found
  | joined nobody joins =>
    obtain ⟨_, joined, joining, resets⟩ := bind_eq_ok.mp joins
    have empty := nobody.queuesEmpty_joined joining
    obtain rfl : _ = w := by simpa [resetForLoop] using resets
    exact empty.of_heap rfl

theorem queuesEmpty_run {s t : Server D} (empty : QueuesEmpty s.world) (idle : s.running = none) (run : Runs s t) :
    QueuesEmpty t.world := by
  have atStart : OutsideMulti s := by
    intro transaction client running
    simp [idle] at running
  have both : QueuesEmpty t.world ∧ OutsideMulti t := by
    apply run.invariant ?_ (⟨empty, atStart⟩ : QueuesEmpty s.world ∧ OutsideMulti s)
    intro s event t both _ step
    exact ⟨both.1.step both.2 step, outsideMulti_step both.2 step⟩
  exact both.1

end Queues

/-! ## A transaction -/

/-- The requests one after another. -/
def oneByOne [Externals D] (requests : List RespRequest) (ptr : ClientPtr) : M D Unit :=
  forM requests fun req => handle req ptr

/-- MULTI, the requests and EXEC. -/
def inTransaction [Externals D] (multi exec : RespRequest) (requests : List RespRequest) (ptr : ClientPtr) :
    M D Unit := do
  handle multi ptr
  forM requests fun req => handle req ptr
  handle exec ptr

/-- What MULTI, `queued` requests and the beginning of EXEC send. -/
def transactionHead (fd : Int) (queued : Nat) : List (Int × Bytes) :=
  (fd, okReply) :: (List.replicate queued (fd, lit "+QUEUED\r\n") ++ [(fd, arrayHeader queued)])

/-- The client is in MULTI with this queue, and has these replies. -/
def World.inMulti (w : World D) (ptr : ClientPtr) (client : Client) (queue : List RespRequest)
    (replies : List (Int × Bytes)) : World D :=
  { w with
    heap := Function.update w.heap ptr (some { client with requests := queue, isQueued := true })
    sent := w.sent ++ replies }

section Transactions

variable {w w' : World D} {ptr : ClientPtr} {client : Client} {multi exec req : RespRequest}
  {requests queue : List RespRequest} {replies : List (Int × Bytes)}

theorem heap_inMulti : (w.inMulti ptr client queue replies).heap ptr =
    some { client with requests := queue, isQueued := true } :=
  Function.update_self _ _ _

variable [Externals D]

theorem handle_multi_run (found : w.heap ptr = some client) (outside : client.isQueued = false)
    (isMulti : multi.command = .multi) :
    handle multi ptr w = .ok ((), w.inMulti ptr client [] [(client.fd, okReply)]) := by
  rw [handle_multi found isMulti, handleMulti, bind_of_ok (loadClient_found found), if_neg (by simp [outside]),
    bind_of_ok (updateClient_found found)]
  rfl

theorem handle_queued_run (room : queue.length < maxQueuedCmds) (ordinary : isTransactionCmd req.command = false) :
    handle req ptr (w.inMulti ptr client queue replies) = .ok ((), w.inMulti ptr client (queue ++ [copyRequest req])
      (replies ++ [(client.fd, lit "+QUEUED\r\n")])) := by
  rw [handle_queued heap_inMulti rfl ordinary, queueCommand, bind_of_ok (loadClient_found heap_inMulti),
    if_neg (by simpa using room), bind_of_ok (updateClient_found heap_inMulti)]
  change Except.ok ((), _) = _
  simp [World.inMulti, World.setClient, World.emit]

/-- A queue of at most a hundred requests. -/
theorem forM_queued_run (room : queue.length + requests.length ≤ maxQueuedCmds)
    (ordinary : ∀ req ∈ requests, isTransactionCmd req.command = false) :
    (forM requests fun req => handle req ptr) (w.inMulti ptr client queue replies) =
      .ok ((), w.inMulti ptr client (queue ++ requests.map copyRequest)
        (replies ++ List.replicate requests.length (client.fd, lit "+QUEUED\r\n"))) := by
  induction requests generalizing queue replies with
  | nil => simp
  | cons req requests inductionHypothesis =>
    have roomForOne : queue.length < maxQueuedCmds := by
      simp only [List.length_cons] at room
      omega
    rw [List.forM_cons, bind_of_ok (handle_queued_run roomForOne (ordinary req List.mem_cons_self)),
      inductionHypothesis (by simp only [List.length_append, List.length_cons, List.length_nil] at room ⊢; omega)
        fun other member => ordinary other (List.mem_cons_of_mem _ member)]
    simp [List.replicate_succ]

/-- EXEC sends its header and runs the queue for the client as it was before MULTI. -/
theorem handle_exec_run (found : w.heap ptr = some client) (outside : client.isQueued = false)
    (clean : client.isDirty = false) (empty : client.requests = []) (isExec : exec.command = .exec) :
    handle exec ptr (w.inMulti ptr client queue replies) = (do
      forM queue (execCommand (handleWith execWithoutMulti) ptr)
      clearQueued ptr) { w with sent := w.sent ++ (replies ++ [(client.fd, arrayHeader queue.length)]) } := by
  have sends : send client.fd (arrayHeader queue.length) (w.inMulti ptr client queue replies) =
      .ok ((), w.inMulti ptr client queue (replies ++ [(client.fd, arrayHeader queue.length)])) := by
    simp [send, World.emit, World.inMulti]
  -- without MULTI the client is the one of before
  have clears : clearQueued ptr
        ((w.inMulti ptr client queue (replies ++ [(client.fd, arrayHeader queue.length)])).setClient ptr
          { client with requests := [], isQueued := true }) =
      .ok ((), { w with sent := w.sent ++ (replies ++ [(client.fd, arrayHeader queue.length)]) }) := by
    have same : ({ client with requests := [], isQueued := false } : Client) = client := by
      rw [← empty, ← outside]
    rw [clearQueued, updateClient_found (Function.update_self _ _ _)]
    simp only [World.inMulti, World.setClient, Function.update_idem]
    rw [same, ← found, Function.update_eq_self]
  rw [handle_exec heap_inMulti isExec, handleExec_runs _ heap_inMulti rfl clean, bind_of_ok sends,
    bind_of_ok (updateClient_found heap_inMulti), execLoop_cleared, bind_of_ok clears]
  have idle {sent : List (Int × Bytes)} : clearQueued ptr { w with sent } = .ok ((), { w with sent }) :=
    clearQueued_idle (w := { w with sent }) found outside
  rw [bind_of_ok idle]

theorem oneByOne_outside (found : w.heap ptr = some client) (outside : client.isQueued = false)
    (ordinary : ∀ req ∈ requests, isTransactionCmd req.command = false)
    (run : oneByOne requests ptr w = .ok ((), w')) :
    ∃ client', w'.heap ptr = some client' ∧ client'.isQueued = false := by
  unfold oneByOne at run
  induction requests generalizing w client with
  | nil =>
    obtain rfl : w = w' := by simpa using run
    exact ⟨client, found, outside⟩
  | cons req requests inductionHypothesis =>
    rw [List.forM_cons] at run
    obtain ⟨_, handled, first, rest⟩ := bind_eq_ok.mp run
    obtain ⟨client', found', outside', _⟩ := handle_queue found outside (ordinary req List.mem_cons_self) first
    exact inductionHypothesis found' outside' (fun other member => ordinary other (List.mem_cons_of_mem _ member)) rest

/-- MULTI, at most a hundred requests and EXEC end like the requests one after another, with the same replies behind
the header, and the client is out of MULTI. -/
theorem inTransaction_alike (found : w.heap ptr = some client) (outside : client.isQueued = false)
    (clean : client.isDirty = false) (empty : client.requests = []) (isMulti : multi.command = .multi)
    (isExec : exec.command = .exec) (few : requests.length ≤ maxQueuedCmds)
    (ordinary : ∀ req ∈ requests, isTransactionCmd req.command = false) (supplied : ReadsSupplied ptr requests w) :
    Alike (fun u v => SameButSent w.sent (w.sent ++ transactionHead client.fd requests.length) u v ∧
        ∃ client', v.heap ptr = some client' ∧ client'.isQueued = false)
      (oneByOne requests ptr w) (inTransaction multi exec requests ptr w) := by
  have queues : (forM requests fun req => handle req ptr) (w.inMulti ptr client [] [(client.fd, okReply)]) =
      .ok ((), w.inMulti ptr client (requests.map copyRequest)
        ((client.fd, okReply) :: List.replicate requests.length (client.fd, lit "+QUEUED\r\n"))) :=
    forM_queued_run (by simpa using few) ordinary
  rw [inTransaction, bind_of_ok (handle_multi_run found outside isMulti), bind_of_ok queues,
    handle_exec_run found outside clean empty isExec, List.length_map, List.cons_append]
  have atStart : SameButSent w.sent (w.sent ++ transactionHead client.fd requests.length) w
      { w with sent := w.sent ++ transactionHead client.fd requests.length } :=
    ⟨rfl, [], by simp, by simp⟩
  have loops := forM_execCommand_alike atStart found outside ordinary supplied
  cases run : oneByOne requests ptr w with
  | error f =>
    have runs := (loops.error_iff f).mp run
    rw [transactionHead] at runs
    rw [bind_of_error runs]
    exact .error f
  | ok result =>
    obtain ⟨v, run', same⟩ := loops.ok_iff run
    rw [transactionHead] at run'
    obtain ⟨client', found', outside'⟩ := oneByOne_outside found outside ordinary run
    have found'' : v.heap ptr = some client' := by rw [same.heap, found']
    -- the queue is over, and EXEC has nothing left to clear
    rw [bind_of_ok run', clearQueued_idle found'' outside']
    exact .ok () ⟨same, client', found'', outside'⟩

/-- From every state that a run reaches, MULTI, at most a hundred requests and EXEC end like the requests one after
another: the states are the same, and so are the replies behind the header of EXEC; the client is out of MULTI. -/
theorem exec_sequential {w₀ : World D} {t : Server D} (enters : EntersLoop w₀) (reached : Runs ⟨w₀, none⟩ t)
    (found : t.world.heap ptr = some client) (outside : client.isQueued = false) (clean : client.isDirty = false)
    (isMulti : multi.command = .multi) (isExec : exec.command = .exec) (few : requests.length ≤ maxQueuedCmds)
    (ordinary : ∀ req ∈ requests, isTransactionCmd req.command = false)
    (supplied : ReadsSupplied ptr requests t.world) :
    Alike (fun u v =>
        SameButSent t.world.sent (t.world.sent ++ transactionHead client.fd requests.length) u v ∧
        ∃ client', v.heap ptr = some client' ∧ client'.isQueued = false)
      (oneByOne requests ptr t.world) (inTransaction multi exec requests ptr t.world) := by
  have empty := queuesEmpty_run enters.queuesEmpty rfl reached
  exact inTransaction_alike found outside clean (empty ptr client found outside) isMulti isExec few ordinary supplied

/-- A push, a pop, and a pop that blocks the client in its own transaction. -/
def popsOwnPush : List RespRequest :=
  [requestOf [lit "RPUSH", lit "k", lit "a"], requestOf [lit "BLPOP", lit "k", lit "0"],
    requestOf [lit "BLPOP", lit "k", lit "0"]]

/-- The three commands in MULTI and EXEC. -/
theorem exec_sequential_pops : ∃ (t : Server Int) (u v : World Int),
    oneByOne popsOwnPush 0 t.world = .ok ((), u) ∧
      inTransaction (requestOf [lit "MULTI"]) (requestOf [lit "EXEC"]) popsOwnPush 0 t.world = .ok ((), v) ∧
      (u.heap 0).any (fun client => client.isBlocked) = true ∧ v.heap = u.heap ∧ v.table = u.table := by
  obtain ⟨t, run, checked⟩ := exists_run_of_play
    (show (play (fun _ _ => True) idleServer [.connect 5 0]).any
      (fun t => ((t.world.heap 0).any fun client =>
          decide (client.isQueued = false) && decide (client.isDirty = false)) &&
        (readsSupplied 0 popsOwnPush t.world && (match oneByOne popsOwnPush 0 t.world with
          | .ok ((), u) => (u.heap 0).any fun client => client.isBlocked
          | .error _ => false))) = true by
      decide +kernel)
  simp only [Bool.and_eq_true, decide_eq_true_eq, Option.any_eq_true] at checked
  obtain ⟨⟨client, found, outside, clean⟩, supplied, blocks⟩ := checked
  have alike := exec_sequential (.alone idleServer_atLoopEntry.noConnections) run found outside clean
    (show (requestOf [lit "MULTI"]).command = .multi from rfl)
    (show (requestOf [lit "EXEC"]).command = .exec from rfl) (by decide) (by decide)
    (readsSupplied_sound supplied)
  cases ends : oneByOne popsOwnPush 0 t.world with
  | error f => simp [ends] at blocks
  | ok result =>
    rw [ends] at blocks
    obtain ⟨v, run', same, _⟩ := alike.ok_iff ends
    exact ⟨t, result.2, v, ends, run', by simpa using blocks, same.heap, by rw [same.keeps]⟩

end Transactions

end RedisClone
