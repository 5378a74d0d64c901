import RedisClone.Verified.Elsewhere
import RedisClone.Verified.Authentication
import RedisClone.Verified.Silence

/-! # Clients that are not authenticated

Nothing in `handle` reads `is_auth`: a client that has not given the password runs every arm.  `outsiders_confined`: what
such clients request leaves the table and the credentials as they are, and is answered alike whatever the table holds,
where none of their requests has the arguments with which its arm opens the table, and none gives another password.  The
proof runs the server beside itself with another table (`DifferInTable`).
-/

namespace RedisClone

open Exec CString

variable {D : Type}

/-! ## Another table -/

/-- The states are the same but for their tables, which are these. -/
structure DifferInTable (table secret : Table D) (w w' : World D) : Prop where
  table : w.table = table
  keeps : w' = { w with table := secret }

variable {table secret : Table D}

instance sameElsewhere_table : SameElsewhere (DifferInTable table secret) where
  keeps w w' differ := by
    obtain ⟨_, rfl⟩ := differ
    rfl
  changes g leaves ignores w w' differ := by
    obtain ⟨rfl, rfl⟩ := differ
    refine ⟨(leaves w).1, (ignores w secret w.sent w.executed).trans ?_⟩
    rw [← (leaves w).2.1, ← (leaves w).2.2]
  emits fd bytes w w' differ := by
    obtain ⟨rfl, rfl⟩ := differ
    exact ⟨rfl, rfl⟩

instance lockstep_noteExecuted (req : RespRequest) :
    Lockstep (DifferInTable table secret) (noteExecuted req : M D Unit) where
  run w w' differ := by
    obtain ⟨rfl, rfl⟩ := differ
    exact .ok () ⟨rfl, rfl⟩

/-! ## The condition -/

section Condition

variable [Externals D]

variable (D) in
/-- The request has the arguments with which its arm opens the table. -/
def OpensTable (req : RespRequest) : Prop :=
  match req.command with
  | .keys => True
  | .get | .type | .incr | .lpop | .llen | .zcard | .xread | .xrange => 1 ≤ req.argc
  | .set | .xadd | .lpush | .rpush | .blpop | .zrank | .zscore | .zrem | .geopos => 2 ≤ req.argc
  | .lrange | .zrange | .geodist => 3 ≤ req.argc
  | .zadd => PairsGiven req
  | .geoadd => PositionsValid (D := D) req
  | .geosearch => 7 ≤ req.argc
  | _ => False

instance (req : RespRequest) : Decidable (PairsGiven req) :=
  inferInstanceAs (Decidable (_ ∧ _))

instance (req : RespRequest) : Decidable (PositionsValid (D := D) req) :=
  decidable_of_iff (4 ≤ req.argc ∧ (geoScores (D := D) (geoTriples (req.args.drop 1))).isOk = true) <| by
    unfold PositionsValid
    cases geoScores (D := D) (geoTriples (req.args.drop 1)) <;> simp [Except.isOk, Except.toBool]

instance (req : RespRequest) : Decidable (OpensTable D req) := by
  unfold OpensTable
  cases req.command <;> infer_instance

end Condition

/-! ## The arms -/

section Arms

variable [Externals D] {req : RespRequest}

omit [Externals D] in
/-- What begins with an argument that the request does not have. -/
theorem lockstep_missing {R : World D → World D → Prop} {α : Type} {i : Nat} {f : Bytes → M D α}
    (missing : req.args[i]? = none) : Lockstep R (req.arg i >>= f) := by
  have fails : (req.arg i >>= f : M D α) = fault .missingArg := by
    funext w
    apply bind_of_error
    unfold RespRequest.arg
    simp [missing, fault]
  rw [fails]
  exact lockstep_fault _

omit [Externals D] in
theorem missing_of_few {i : Nat} (few : ¬ (i + 1 : Int) ≤ req.argc) : req.args[i]? = none := by
  by_contra present
  obtain ⟨value, isArg⟩ := Option.ne_none_iff_exists'.mp present
  have := lt_argc isArg
  omega

theorem lockstep_few {needed : Int} (isNeeded : argsToReply req.command = some needed) (few : req.argc < needed)
    (ptr : ClientPtr) (client : Client) :
    Lockstep (DifferInTable table secret) (arm req ptr client : M D Unit) := by
  rw [arm_few isNeeded few]
  exact lockstep_pure ()

omit [Externals D] in
/-- `findStreams` does not stop at the end of an empty request. -/
theorem lockstep_xread_missing {R : World D → World D → Prop} {α : Type} {ptr : ClientPtr}
    {f : Option (Option Bytes) → M D α} (missing : req.args[0]? = none) :
    Lockstep R (handleXread req ptr >>= f) := by
  have noArgs : req.args = [] := by simpa using missing
  have fails : (handleXread req ptr >>= f : M D α) = fault .missingArg := by
    funext w
    apply bind_of_error
    unfold handleXread isMultipleKey
    rw [noArgs]
    exact bind_of_error (bind_of_error (fault_run Fault.missingArg w))
  rw [fails]
  exact lockstep_fault _

/-- An arm that does not open the table ends alike whatever is in it. -/
theorem lockstep_closed (closed : ¬ OpensTable D req) (ptr : ClientPtr) (client : Client) :
    Lockstep (DifferInTable table secret) (arm req ptr client : M D Unit) := by
  unfold OpensTable at closed
  cases command : req.command with
  | keys => simp [command] at closed
  -- the arms that read their key at once
  | get | type | incr =>
    rw [command] at closed
    have missing : req.args[0]? = none := missing_of_few closed
    unfold arm
    simp only [command]
    exact lockstep_missing missing
  | xrange =>
    rw [command] at closed
    have missing : req.args[0]? = none := missing_of_few closed
    unfold arm handleStreamPrint
    simp only [command, if_true]
    exact .bind inferInstance fun _ => lockstep_missing missing
  | xread =>
    rw [command] at closed
    have missing : req.args[0]? = none := missing_of_few closed
    unfold arm handleStreamPrint
    simp only [command, reduceCtorEq, if_false]
    exact .bind inferInstance fun _ => lockstep_xread_missing missing
  -- the arms that do nothing for so few arguments
  | lpop | llen | zcard =>
    rw [command] at closed
    exact lockstep_few (show argsToReply req.command = some 1 by rw [command]; rfl) (by omega) ptr client
  | blpop | zrank | zscore | zrem | geopos | xadd =>
    rw [command] at closed
    exact lockstep_few (show argsToReply req.command = some 2 by rw [command]; rfl) (by omega) ptr client
  | lrange | zrange | geodist =>
    rw [command] at closed
    exact lockstep_few (show argsToReply req.command = some 3 by rw [command]; rfl) (by omega) ptr client
  | geosearch =>
    rw [command] at closed
    exact lockstep_few (show argsToReply req.command = some 7 by rw [command]; rfl) (by omega) ptr client
  | set =>
    rw [command] at closed
    unfold arm handleSet
    simp only [command, if_pos (show req.argc < 2 by omega)]
    exact lockstep_pure ()
  -- the arms that answer with an error
  | lpush =>
    rw [command] at closed
    unfold arm handleLpush
    simp only [command, if_pos (show req.argc < 2 by omega)]
    infer_instance
  | rpush =>
    rw [command] at closed
    unfold arm handleRpush
    simp only [command, if_pos (show req.argc < 2 by omega)]
    infer_instance
  | zadd =>
    rw [command] at closed
    unfold arm handleZadd
    simp only [command]
    split
    · exact lockstep_pure ()
    · rename_i enough
      rw [if_pos fun even => closed ⟨by omega, even⟩]
      infer_instance
  | geoadd =>
    rw [command] at closed
    unfold arm handleGeoadd
    simp only [command]
    split
    · exact lockstep_pure ()
    · rename_i enough
      refine .bind inferInstance fun key => ?_
      cases scores : geoScores (D := D) (geoTriples (req.args.drop 1)) with
      | error invalid => exact lockstep_sendText 1024 client.fd invalid
      | ok args => exact absurd ⟨by omega, args, scores⟩ closed
  -- the arms that do not open the table whatever the request is
  | _ =>
    unfold arm
    simp only [command]
    infer_instance

theorem lockstep_dispatch (closed : ¬ OpensTable D req) (ptr : ClientPtr) :
    Lockstep (DifferInTable table secret) (dispatch req ptr : M D Unit) := by
  have arms (client : Client) : Lockstep (DifferInTable table secret) (arm req ptr client : M D Unit) :=
    lockstep_closed closed ptr client
  rw [dispatch_eq]
  infer_instance

end Arms

/-! ## One call of `handle` -/

section Calls

variable {w w' : World D} {req : RespRequest} {ptr : ClientPtr} {client : Client}

theorem DifferInTable.heap (differ : DifferInTable table secret w w') : w'.heap = w.heap := by
  rw [differ.keeps]

/-- EXEC that does not run the queue. -/
theorem alike_handleExec {exec : RespRequest → ClientPtr → M D Unit} (differ : DifferInTable table secret w w')
    (found : w.heap ptr = some client) (stays : client.isQueued = true → client.isDirty = true) :
    Alike (DifferInTable table secret) (handleExec exec ptr w) (handleExec exec ptr w') := by
  have found' : w'.heap ptr = some client := by rw [differ.heap, found]
  unfold handleExec
  rw [bind_of_ok (loadClient_found found), bind_of_ok (loadClient_found found')]
  split
  · exact (lockstep_send client.fd _).run w w' differ
  · rename_i inMulti
    rw [if_pos (stays (by simpa using inMulti))]
    exact lockstep_bind.run w w' differ

variable [Externals D]

theorem alike_handle (differ : DifferInTable table secret w w') (found : w.heap ptr = some client)
    (stays : startsTransaction client req = false) (closed : reachesArm client req = true → ¬ OpensTable D req) :
    Alike (DifferInTable table secret) (handle req ptr w) (handle req ptr w') := by
  have found' : w'.heap ptr = some client := by rw [differ.heap, found]
  by_cases ordinary : isTransactionCmd req.command = false
  · cases inMulti : client.isQueued with
    | true =>
      rw [handle_queued found inMulti ordinary, handle_queued found' inMulti ordinary]
      exact (lockstep_queueCommand ptr).run w w' differ
    | false =>
      rw [handle_command found inMulti ordinary, handle_command found' inMulti ordinary]
      unfold handleCommand
      rw [bind_of_ok (loadClient_found found), bind_of_ok (loadClient_found found')]
      split
      · exact (lockstep_sendText 128 client.fd _).run w w' differ
      · rename_i mayReach
        have reaches : reachesArm client req = true := by
          rw [reachesArm_eq_true]
          exact ⟨ordinary, inMulti, fun isSubscribed => by simpa [isSubscribed] using mayReach⟩
        exact (lockstep_dispatch (closed reaches) ptr).run w w' differ
  · cases command : req.command with
    | multi =>
      rw [handle_multi found command, handle_multi found' command]
      exact (lockstep_handleMulti ptr).run w w' differ
    | exec =>
      rw [handle_exec found command, handle_exec found' command]
      exact alike_handleExec differ found fun inMulti => by simpa [startsTransaction, command, inMulti] using stays
    | discard =>
      rw [handle_discard found command, handle_discard found' command]
      exact (lockstep_handleDiscard ptr).run w w' differ
    | watch =>
      rw [handle_watch found command, handle_watch found' command]
      exact (lockstep_handleWatch ptr).run w w' differ
    | unwatch =>
      rw [handle_unwatch found command, handle_unwatch found' command]
      exact (lockstep_handleUnwatch ptr).run w w' differ
    | _ => simp [command, isTransactionCmd] at ordinary

end Calls

/-! ## One event -/

section Events

instance lockstep_passTo (req : RespRequest) (slot : ClientSlot) :
    Lockstep (DifferInTable table secret) (passTo req slot : M D Unit) := by
  have notes (ptr : ClientPtr) : Parallel (DifferInTable table secret) fun w : World D =>
      { w with passed := w.passed ++ [(ptr, req)] } :=
    parallel_elsewhere (fun _ => ⟨rfl, rfl, rfl⟩) fun _ _ _ _ => rfl
  unfold passTo
  refine .bind inferInstance fun occupant => ?_
  cases occupant with
  | none => exact lockstep_pure ()
  | some occupant =>
    unfold copyRequestToBuffer notePassed
    exact lockstep_ite

instance lockstep_propagate (ptr : ClientPtr) (call : Call) :
    Lockstep (DifferInTable table secret) (propagate ptr call : M D Unit) := by
  unfold propagate passDataToReplica
  infer_instance

instance lockstep_beginTransaction (ptr : ClientPtr) (call : Call) :
    Lockstep (DifferInTable table secret) (beginTransaction ptr call : M D Transaction) := by
  unfold beginTransaction
  infer_instance

/-- The client whose request the event serves. -/
def Server.caller (s : Server D) : Event → Option ClientPtr
  | .request slot _ => s.world.clients slot
  | .proceed => s.running.map Transaction.ptr
  | _ => none

/-- The event serves a client that is not authenticated. -/
def FromOutsider (s : Server D) (event : Event) : Prop :=
  ∃ ptr ∈ s.caller event, ∃ client ∈ s.world.heap ptr, client.isAuth = false

/-- The server with another table. -/
def Server.withTable (s : Server D) (secret : Table D) : Server D :=
  { s with world := { s.world with table := secret } }

variable [Externals D] {s t : Server D} {event : Event}

/-- A request that reaches its arm does not open the table, and gives no other password than the one in force. -/
def KeepsOut (s : Server D) (event : Event) : Prop :=
  ∀ ptr req, Dispatches s event ptr req →
    ¬ OpensTable D req ∧ ∀ password ∈ req.newPassword, s.world.defaultPassword = Externals.sha256Hex D password

theorem alike_act (outside : OutsideMulti s) (fromOutsider : FromOutsider s event) (keeps : KeepsOut s event) :
    Alike (DifferInTable s.world.table secret) (act s.running event s.world)
      (act s.running event (s.withTable secret).world) := by
  have differ : DifferInTable s.world.table secret s.world (s.withTable secret).world := ⟨rfl, rfl⟩
  obtain ⟨ptr, isCaller, client, found, _⟩ := fromOutsider
  have closed (req : RespRequest) (calls : s.calls event = some (ptr, req)) (reaches : reachesArm client req = true) :
      ¬ OpensTable D req :=
    (keeps ptr req ⟨calls, client, found, reaches⟩).1
  cases running : s.running with
  | none =>
    cases event with
    | request slot call =>
      have occupied : s.world.clients slot = some ptr := isCaller
      have occupied' : (s.withTable secret).world.clients slot = some ptr := isCaller
      have found' : (s.withTable secret).world.heap ptr = some client := found
      change Alike _ (serve slot call s.world) (serve slot call (s.withTable secret).world)
      unfold serve
      rw [bind_of_ok (observe_run _ _), bind_of_ok (observe_run _ _), occupied, occupied']
      dsimp only
      rw [bind_of_ok (loadClient_found found), bind_of_ok (loadClient_found found')]
      cases starts : startsTransaction client call.request with
      | true =>
        simp only [if_true]
        exact (lockstep_map some).run _ _ differ
      | false =>
        simp only [Bool.false_eq_true, if_false]
        have calls : s.calls (.request slot call) = some (ptr, call.request) := by simp [Server.calls, occupied]
        refine (alike_handle differ found starts (closed call.request calls)).seq fun _ u v related => ?_
        exact lockstep_bind.run u v related
    | proceed => simp [Server.caller, running] at isCaller
    | _ => simp [Server.caller] at isCaller
  | some transaction =>
    cases event with
    | proceed =>
      obtain ⟨sender, remaining, call⟩ := transaction
      obtain rfl : sender = ptr := by simpa [Server.caller, running] using isCaller
      cases remaining with
      | nil => exact lockstep_bind.run _ _ differ
      | cons req remaining =>
        -- a client whose queue runs is outside MULTI
        have notQueued : client.isQueued = false := outside _ client running found
        have calls : s.calls .proceed = some (sender, req) := by simp [Server.calls, running]
        refine (alike_handle differ found (by simp [startsTransaction, notQueued]) (closed req calls)).seq
          fun _ u v related => ?_
        exact lockstep_bind.run u v related
    | _ => exact (lockstep_pure _).run _ _ differ

/-- The event leaves the table, and is the same step with any other one. -/
theorem table_of_step (outside : OutsideMulti s) (fromOutsider : FromOutsider s event) (keeps : KeepsOut s event)
    (step : Step s event t) :
    t.world.table = s.world.table ∧ ∀ secret, Step (s.withTable secret) event (t.withTable secret) := by
  have parallel (secret : Table D) : t.world.table = s.world.table ∧ Step (s.withTable secret) event (t.withTable secret) := by
    obtain ⟨enabled, acts⟩ := step
    obtain ⟨w', acts', differ⟩ := (alike_act outside fromOutsider keeps : Alike (DifferInTable _ secret) _ _).ok_iff acts
    refine ⟨differ.table, ?_, ?_⟩
    · cases event <;> exact enabled
    · rw [differ.keeps] at acts'
      exact acts'
  exact ⟨(parallel s.world.table).1, fun secret => (parallel secret).2⟩

/-- The event leaves the credentials, where a password is set. -/
theorem credentials_of_step (outside : OutsideMulti s) (isOff : s.world.defaultHasNopass = false)
    (keeps : KeepsOut s event) (step : Step s event t) : t.world.credentials = s.world.credentials := by
  cases authChange_of_step outside step with
  | kept noSetuser credentials nobodyNew => exact credentials
  | auth ptr req dispatches authenticates credentials admits => exact credentials
  | setuser ptr req dispatches isSetuser credentials admits =>
    rw [credentials, World.credentialsAfter, World.credentials, isOff]
    cases given : req.newPassword with
    | none => simp
    | some password => simp [(keeps ptr req dispatches).2 password given]

end Events

/-! ## Runs -/

/-- Two servers take the steps of the same events. -/
def SideBySide [Externals D] (before : Server D × Server D) (event : Event) (after : Server D × Server D) : Prop :=
  Step before.1 event after.1 ∧ Step before.2 event after.2

section Runs

variable [Externals D] {start s t : Server D}

/-- Where a password is set, what clients without it request leaves the table and the credentials, and with any other
table the server takes the same steps to the same state but for that table: it sends the same. -/
theorem outsiders_confined (idle : start.running = none) (reached : Runs start s)
    (isOff : s.world.defaultHasNopass = false)
    (run : Run Step (fun s event => FromOutsider s event ∧ KeepsOut s event) s t) :
    t.world.table = s.world.table ∧ t.world.credentials = s.world.credentials ∧
      ∀ secret, Run SideBySide (fun _ _ => True) (s, s.withTable secret) (t, t.withTable secret) := by
  have outsideAtStart : OutsideMulti s := by
    refine reached.invariant (fun _ _ _ outside _ step => outsideMulti_step outside step) ?_
    intro transaction client running
    simp [idle] at running
  induction run with
  | refl => exact ⟨rfl, rfl, fun secret => .refl _⟩
  | tail before permitted last inductionHypothesis =>
    obtain ⟨sameTable, sameCredentials, together⟩ := inductionHypothesis
    obtain ⟨fromOutsider, keeps⟩ := permitted
    have outside := before.invariant (fun _ _ _ outside _ step => outsideMulti_step outside step) outsideAtStart
    have stillOff := (congrArg Credentials.defaultHasNopass sameCredentials).trans isOff
    obtain ⟨leavesTable, parallel⟩ := table_of_step outside fromOutsider keeps last
    refine ⟨leavesTable.trans sameTable, (credentials_of_step outside stillOff keeps last).trans sameCredentials, ?_⟩
    exact fun secret => .tail (together secret) trivial ⟨last, parallel secret⟩

end Runs

instance (s : Server D) (event : Event) : Decidable (FromOutsider s event) :=
  inferInstanceAs (Decidable (∃ ptr ∈ s.caller event, ∃ client ∈ s.world.heap ptr, _))

instance [Externals D] (s : Server D) (event : Event) : Decidable (KeepsOut s event) :=
  inferInstanceAs (Decidable (∀ ptr req, Dispatches s event ptr req → _ ∧ ∀ password ∈ req.newPassword, _))

/-- Two clients, and the first one gives the default user a password. -/
def protect : List Event :=
  [.connect 5 0, .connect 6 1, arrival firstSlot [lit "ACL", lit "SETUSER", lit "default", lit ">pw"]]

/-- The second client guesses the password and runs a queue with a PING. -/
theorem outsiders_confined_ping : ∃ s t : Server Digests, s.world.defaultHasNopass = false ∧
    t.world.sent = s.world.sent ++ [(6, lit "-WRONGPASS invalid username-password pair or user is disabled\r\n"),
      (6, lit "+OK\r\n"), (6, lit "+QUEUED\r\n"), (6, lit "*1\r\n"), (6, lit "+PONG\r\n")] ∧
      t.world.table = s.world.table ∧ t.world.credentials = s.world.credentials ∧
        ∀ secret, Run SideBySide (fun _ _ => True) (s, s.withTable secret) (t, t.withTable secret) := by
  have evaluates : (play (fun _ _ => True) quietServer protect).any fun s =>
      !s.world.defaultHasNopass && (play (fun s event => FromOutsider s event ∧ KeepsOut s event) s
        [arrival secondSlot [lit "AUTH", lit "default", lit "no"], arrival secondSlot [lit "MULTI"],
          arrival secondSlot [lit "PING"], arrival secondSlot [lit "EXEC"], .proceed, .proceed]).any fun t =>
        decide (t.world.sent = s.world.sent ++
          [(6, lit "-WRONGPASS invalid username-password pair or user is disabled\r\n"),
            (6, lit "+OK\r\n"), (6, lit "+QUEUED\r\n"), (6, lit "*1\r\n"), (6, lit "+PONG\r\n")]) := by
    decide +kernel
  obtain ⟨s, protects, rest⟩ := (Option.any_eq_true _ _).mp evaluates
  simp only [Bool.and_eq_true, Bool.not_eq_true', Option.any_eq_true] at rest
  obtain ⟨isOff, t, plays, sent⟩ := rest
  exact ⟨s, t, isOff, of_decide_eq_true sent, outsiders_confined rfl (play_run protects) isOff (play_run plays)⟩

/-- The second client writes without the password. -/
def intrude : Event := arrival secondSlot [lit "SET", lit "k", lit "v"]

/-- A client that is not authenticated changes the table. -/
theorem outsider_writes :
    ¬ ∀ (s t : Server Digests) (event : Event) (ptr : ClientPtr) (client : Client), Runs quietServer s →
      s.world.defaultHasNopass = false → s.caller event = some ptr → s.world.heap ptr = some client →
        client.isAuth = false → client.isMaster = false → client.isReplica = false →
          (∀ req, Dispatches s event ptr req → ¬ s.world.Authenticates req) → Step s event t →
            t.world.table = s.world.table ∧ t.world.credentials = s.world.credentials ∧
              ∀ secret, Step (s.withTable secret) event (t.withTable secret) := by
  intro confined
  obtain ⟨s, run, checked⟩ := exists_run_of_play
    (show (play (fun _ _ => True) quietServer protect).any
      (fun s => !s.world.defaultHasNopass && decide (s.caller intrude = some 1) &&
        ((s.world.heap 1).any (fun client => !client.isAuth && !client.isMaster && !client.isReplica) &&
          (next s intrude).any fun t =>
            (binding s.world.table (lit "k")).isNone && (binding t.world.table (lit "k")).isSome)) = true by
      decide +kernel)
  simp only [Bool.and_eq_true, Bool.not_eq_true', decide_eq_true_eq, Option.any_eq_true] at checked
  obtain ⟨⟨isOff, isCaller⟩, ⟨client, found, ⟨isOut, isMaster⟩, isReplica⟩, t, isNext, isFree, isBound⟩ := checked
  have noAuth (req : RespRequest) (dispatches : Dispatches s intrude 1 req) : ¬ s.world.Authenticates req := by
    obtain ⟨_, rfl⟩ := dispatches_arrival dispatches
    intro authenticates
    exact absurd authenticates.1 (by decide +kernel)
  obtain ⟨sameTable, _⟩ :=
    confined s t intrude 1 client run isOff isCaller found isOut isMaster isReplica noAuth (next_step isNext)
  simp [sameTable, Option.isNone_iff_eq_none.mp isFree] at isBound

end RedisClone
