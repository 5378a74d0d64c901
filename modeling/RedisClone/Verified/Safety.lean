import RedisClone.Verified.Reachable

/-! # Arity and type safety

A step that reads a missing argument or a wrong payload runs an arm that does so (`step_fault`).  The
conditions that the lemmas of the handlers have on the arguments and on the stored types then are
conditions on the commands that a run dispatches.
-/

namespace RedisClone

open Exec

variable {D : Type}

/-! ## Where the faults of a step come from -/

/-- Any effect, and no fault of a handler. -/
theorem harmless : Ambient (fun _ _ : World D => True) OutsideSteps where
  composes := ⟨fun _ => trivial, fun _ _ => trivial⟩
  emit _ _ _ := trivial
  tick _ := trivial
  takeFresh _ := trivial
  change _ _ _ _ _ _ _ := trivial
  authorize _ _ _ := trivial
  faults _ notArg notType := ⟨notArg, notType⟩

theorem harmless_blocking : MayBlock fun _ _ : World D => True :=
  ⟨fun _ _ _ _ _ _ => trivial, fun _ _ _ => trivial⟩

/-- A computation without a fault of a handler. -/
abbrev Harmless {α : Type} (x : M D α) : Prop := Obeys (fun _ _ => True) OutsideSteps x

theorem harmless_alter (f : World D → World D) : Harmless (Exec.alter f) :=
  Obeys.alter fun _ => trivial

theorem harmless_fault {α : Type} {f : Fault} (outside : OutsideSteps f) :
    Harmless (fault f : M D α) := Obeys.fault outside

theorem harmless_updateClient (ptr : ClientPtr) (f : Client → Client) :
    Harmless (updateClient ptr f : M D Unit) := by
  intro w
  cases found : w.heap ptr with
  | none => exact ObeysAt.of_error (updateClient_missing found) ⟨by decide, by decide⟩
  | some client => exact ObeysAt.of_ok (updateClient_found found) trivial

section Transactions

theorem harmless_deleteWatchedKeys (ptr : ClientPtr) :
    Harmless (deleteWatchedKeys ptr : M D Unit) := by
  refine obeys_seq harmless (obeys_loadClient harmless ptr) fun client => ?_
  refine obeys_seq harmless
    (obeys_forM harmless _ fun key _ => ?_) fun _ => harmless_updateClient ptr _
  refine obeys_seq harmless (obeys_tableIndex harmless key) fun bucket => ?_
  refine obeys_seq harmless (obeys_observe harmless _) fun watchers => ?_
  split
  · exact obeys_pure harmless ()
  · exact Obeys.ite (fun _ => harmless_fault ⟨by decide, by decide⟩) fun _ => harmless_alter _

theorem harmless_queueCommand (req : RespRequest) (ptr : ClientPtr) :
    Harmless (queueCommand req ptr : M D Unit) := by
  refine obeys_seq harmless (obeys_loadClient harmless ptr) fun client => ?_
  refine Obeys.ite (fun _ => harmless_fault ⟨by decide, by decide⟩) fun _ => ?_
  exact obeys_seq harmless (harmless_updateClient ptr _)
    fun _ => obeys_send harmless _ _

theorem harmless_handleMulti (ptr : ClientPtr) : Harmless (handleMulti ptr : M D Unit) := by
  refine obeys_seq harmless (obeys_loadClient harmless ptr) fun client => ?_
  refine Obeys.ite (fun _ => obeys_send harmless _ _) fun _ => ?_
  exact obeys_seq harmless (harmless_updateClient ptr _)
    fun _ => obeys_send harmless _ _

theorem harmless_handleDiscard (ptr : ClientPtr) : Harmless (handleDiscard ptr : M D Unit) := by
  refine obeys_seq harmless (obeys_loadClient harmless ptr) fun client => ?_
  refine Obeys.ite (fun _ => obeys_send harmless _ _) fun _ => ?_
  refine obeys_seq harmless (harmless_updateClient ptr _) fun _ => ?_
  exact obeys_seq harmless (harmless_deleteWatchedKeys ptr)
    fun _ => obeys_send harmless _ _

theorem harmless_handleUnwatch (ptr : ClientPtr) : Harmless (handleUnwatch ptr : M D Unit) := by
  refine obeys_seq harmless (harmless_deleteWatchedKeys ptr) fun _ => ?_
  exact obeys_seq harmless (obeys_loadClient harmless ptr)
    fun client => obeys_send harmless _ _

theorem harmless_watchKey (ptr : ClientPtr) (key : Bytes) :
    Harmless (watchKey ptr key : M D Unit) := by
  refine obeys_seq harmless (obeys_loadClient harmless ptr) fun client => ?_
  refine Obeys.ite (fun _ => harmless_fault ⟨by decide, by decide⟩) fun _ => ?_
  refine obeys_seq harmless (harmless_updateClient ptr _) fun _ => ?_
  refine obeys_seq harmless (obeys_tableIndex harmless key) fun bucket => ?_
  refine obeys_seq harmless (obeys_observe harmless _) fun watchers => ?_
  exact Obeys.ite (fun _ => harmless_fault ⟨by decide, by decide⟩) fun _ => harmless_alter _

theorem harmless_handleWatch (req : RespRequest) (ptr : ClientPtr) :
    Harmless (handleWatch req ptr : M D Unit) := by
  refine Obeys.ite (fun _ => obeys_pure harmless ()) fun _ => ?_
  refine obeys_seq harmless (obeys_loadClient harmless ptr) fun client => ?_
  refine Obeys.ite (fun _ => obeys_send harmless _ _) fun _ => ?_
  exact obeys_seq harmless
    (obeys_forM harmless _ fun key _ => harmless_watchKey ptr key)
    fun _ => obeys_send harmless _ _

/-- The parts of `handle_exec` that do not run the queue. -/
theorem harmlessAt_handleExec {exec : RespRequest → ClientPtr → M D Unit} {req : RespRequest}
    {ptr : ClientPtr} {client : Client} {w : World D} (found : w.heap ptr = some client)
    (isExec : req.command = .exec) (starts : startsTransaction client req = false) :
    ObeysAt (fun _ _ => True) OutsideSteps (handleExec exec ptr) w := by
  cases inMulti : client.isQueued with
  | false => exact ObeysAt.of_ok (handleExec_outside exec found inMulti) trivial
  | true =>
    have dirty : client.isDirty = true := by
      simpa [startsTransaction, isExec, inMulti] using starts
    rw [ObeysAt, handleExec, bind_of_ok (loadClient_found found), if_neg (by simp [inMulti]),
      if_pos dirty]
    refine obeys_seq harmless (harmless_updateClient ptr _) (fun _ => ?_) w
    exact obeys_seq harmless (harmless_deleteWatchedKeys ptr)
      fun _ => obeys_send harmless _ _

end Transactions

theorem harmless_passTo (req : RespRequest) (slot : ClientSlot) :
    Harmless (passTo req slot : M D Unit) := by
  refine obeys_seq harmless (obeys_clientAt harmless slot) fun occupant => ?_
  cases occupant with
  | none => exact obeys_pure harmless ()
  | some occupant =>
    refine Obeys.ite (fun _ => ?_) fun _ => obeys_pure harmless ()
    refine obeys_seq harmless (obeys_appendAll harmless _ _ _) fun buffer => ?_
    exact obeys_seq harmless (obeys_sendPrefix harmless _ _ _) fun _ => harmless_alter _

theorem harmless_propagate (ptr : ClientPtr) (call : Call) :
    Harmless (propagate ptr call : M D Unit) := by
  refine obeys_seq harmless (obeys_loadClient harmless ptr) fun client => ?_
  refine obeys_seq harmless (obeys_config harmless) fun server => ?_
  refine Obeys.ite (fun _ => harmless_alter _) fun _ => ?_
  refine obeys_seq harmless
    (Obeys.onlyIf harmless.composes fun _ => harmless_alter _) fun _ => ?_
  refine Obeys.ite (fun _ => ?_) fun _ => obeys_pure harmless ()
  exact obeys_forM harmless _ fun slot _ => harmless_passTo _ slot

theorem harmless_beginTransaction (ptr : ClientPtr) (call : Call) :
    Harmless (beginTransaction ptr call : M D Transaction) := by
  refine obeys_seq harmless (obeys_loadClient harmless ptr) fun client => ?_
  refine obeys_seq harmless (obeys_send harmless _ _) fun _ => ?_
  refine obeys_seq harmless (harmless_updateClient ptr _) fun _ => ?_
  exact obeys_seq harmless (harmless_updateClient ptr _) fun _ => obeys_pure harmless _

theorem harmless_connect (fd : Int) (ptr : ClientPtr) : Harmless (connect fd ptr : M D Unit) := by
  refine obeys_seq harmless (obeys_observe harmless _) fun active => ?_
  split
  · exact harmless_alter _
  · exact obeys_pure harmless ()

theorem harmless_disconnect (slot : ClientSlot) : Harmless (disconnect slot : M D Unit) := by
  refine obeys_seq harmless ?_ fun _ => ?_
  · refine obeys_seq harmless (obeys_observe harmless _) fun occupant => ?_
    cases occupant with
    | none => exact obeys_pure harmless ()
    | some ptr =>
      exact obeys_seq harmless (obeys_loadClient harmless ptr) fun _ => harmless_alter _
  · refine obeys_seq harmless (obeys_observe harmless _) fun active => ?_
    split
    · exact harmless_alter _
    · exact harmless_fault ⟨by decide, by decide⟩

/-! ### `handle` -/

variable [Externals D]

theorem handle_fault {req : RespRequest} {ptr : ClientPtr} {client : Client} {w : World D}
    {f : Fault} (found : w.heap ptr = some client) (starts : startsTransaction client req = false)
    (run : handle req ptr w = .error f) :
    OutsideSteps f ∨ reachesArm client req = true ∧ dispatch req ptr w = .error f := by
  -- the transaction commands have bounds of their own; any other command is queued or reaches its arm
  cases ordinary : isTransactionCmd req.command with
  | false =>
    cases inMulti : client.isQueued with
    | true =>
      rw [handle_queued found inMulti ordinary] at run
      exact .inl ((harmless_queueCommand req ptr w).2 f run)
    | false =>
      rw [handle_command found inMulti ordinary, handleCommand,
        bind_of_ok (loadClient_found found)] at run
      split at run
      · simp [sendText, send] at run
      · rename_i guard
        refine .inr ⟨reachesArm_eq_true.mpr ⟨ordinary, inMulti, fun subscribed => ?_⟩, run⟩
        simpa [subscribed] using guard
  | true =>
    cases command : req.command with
    | multi =>
      rw [handle_multi found command] at run
      exact .inl ((harmless_handleMulti ptr w).2 f run)
    | exec =>
      rw [handle_exec found command] at run
      exact .inl ((harmlessAt_handleExec found command starts).2 f run)
    | discard =>
      rw [handle_discard found command] at run
      exact .inl ((harmless_handleDiscard ptr w).2 f run)
    | watch =>
      rw [handle_watch found command] at run
      exact .inl ((harmless_handleWatch req ptr w).2 f run)
    | unwatch =>
      rw [handle_unwatch found command] at run
      exact .inl ((harmless_handleUnwatch ptr w).2 f run)
    | _ => simp [command, isTransactionCmd] at ordinary

omit [Externals D] in
theorem act_fault {x : M D Unit} {w : World D} {f : Fault}
    (acts : (do x; pure none : M D (Option Transaction)) w = .error f) : x w = .error f := by
  obtain first | ⟨_, t, _, rest⟩ := bind_eq_error.mp acts
  · exact first
  · simp at rest

/-- A fault of a handler in a step is one of the arm that the step runs, or of the timers, where a woken
BLPOP reads its key. -/
theorem step_fault {s : Server D} {event : Event} {f : Fault} (outside : OutsideMulti s)
    (faults : Faults s event f) :
    OutsideSteps f ∨ (event = .timers ∧ f = .typeConfusion) ∨
      ∃ ptr req, Dispatches s event ptr req ∧ dispatch req ptr s.world = .error f := by
  obtain ⟨enabled, acts⟩ := faults
  obtain ⟨w, running⟩ := s
  dsimp only at acts
  cases event with
  | poll ready =>
    obtain rfl : running = none := enabled
    simp [act, setReady, bind_run] at acts
  | timers =>
    obtain rfl : running = none := enabled
    -- no timer reads an argument
    have arguments : Ambient (fun _ _ : World D => True) fun f => f ≠ .missingArg :=
      ⟨harmless.composes, fun _ _ _ => trivial, fun _ => trivial, fun _ => trivial,
        fun _ _ _ _ _ _ _ => trivial, fun _ _ _ => trivial, fun _ notArg _ => notArg⟩
    have notArg := (obeys_runTimers arguments harmless_blocking (by decide) w).2 f (act_fault acts)
    by_cases isType : f = .typeConfusion
    · exact .inr (.inl ⟨rfl, isType⟩)
    · exact .inl ⟨notArg, isType⟩
  | connect fd ptr =>
    obtain ⟨rfl, -⟩ := enabled
    exact .inl ((harmless_connect fd ptr w).2 f (act_fault acts))
  | disconnect slot =>
    obtain ⟨rfl, -⟩ := enabled
    exact .inl ((harmless_disconnect slot w).2 f (act_fault acts))
  | request slot call =>
    obtain rfl : running = none := enabled
    change serve slot call w = .error f at acts
    rw [serve, bind_of_ok (observe_run _ w)] at acts
    cases occupied : w.clients slot with
    | none =>
      obtain rfl : Fault.nullDeref = f := by simpa [occupied, fault] using acts
      exact .inl ⟨by decide, by decide⟩
    | some ptr =>
      simp only [occupied] at acts
      cases found : w.heap ptr with
      | none =>
        obtain rfl : Fault.useAfterFree = f := by
          simpa [bind_of_error (loadClient_missing found)] using acts
        exact .inl ⟨by decide, by decide⟩
      | some client =>
        rw [bind_of_ok (loadClient_found found)] at acts
        cases starts : startsTransaction client call.request with
        | true =>
          rw [starts, if_pos rfl] at acts
          exact .inl ((obeys_map harmless some (harmless_beginTransaction ptr call) w).2 f acts)
        | false =>
          rw [starts, if_neg (by decide)] at acts
          obtain handles | ⟨_, handled, _, rest⟩ := bind_eq_error.mp acts
          · obtain outsideSteps | ⟨reaches, dispatches⟩ := handle_fault found starts handles
            · exact .inl outsideSteps
            · refine .inr (.inr ⟨ptr, call.request, ⟨?_, client, found, reaches⟩, dispatches⟩)
              simp [Server.calls, occupied]
          · exact .inl ((obeys_seq harmless (harmless_propagate ptr call)
              (fun _ => obeys_pure harmless _) handled).2 f rest)
  | proceed =>
    obtain ⟨⟨ptr, remaining, call⟩, rfl⟩ := Option.ne_none_iff_exists'.mp enabled
    change resume ⟨ptr, remaining, call⟩ w = .error f at acts
    cases remaining with
    | nil => exact .inl ((harmless_propagate ptr call w).2 f (act_fault acts))
    | cons req remaining =>
      obtain handles | ⟨_, handled, _, rest⟩ := bind_eq_error.mp acts
      · cases found : w.heap ptr with
        | none =>
          obtain rfl : Fault.useAfterFree = f := by
            simpa [handle, handleWith, bind_of_error (loadClient_missing found)] using handles
          exact .inl ⟨by decide, by decide⟩
        | some client =>
          -- a queued command runs with the flag of MULTI cleared
          have starts : startsTransaction client req = false := by
            simp [startsTransaction, outside ⟨ptr, req :: remaining, call⟩ client rfl found]
          obtain outsideSteps | ⟨reaches, dispatches⟩ := handle_fault found starts handles
          · exact .inl outsideSteps
          · exact .inr (.inr ⟨ptr, req, ⟨rfl, client, found, reaches⟩, dispatches⟩)
      · exact .inl ((obeys_seq harmless (harmless_updateClient ptr _)
          (fun _ => obeys_pure harmless _) handled).2 f rest)

/-! ## Arity -/

/-- Every command that the event runs has the arguments that its arm reads. -/
def SuppliedAt (s : Server D) (event : Event) : Prop :=
  ∀ ptr req, Dispatches s event ptr req → Supplied s.world req

omit [Externals D] in
/-- Any effect, and any fault but one. -/
theorem ambient_but (excluded : Fault) (ofHandler : ¬ OutsideSteps excluded) :
    Ambient (fun _ _ : World D => True) fun f => f ≠ excluded where
  composes := harmless.composes
  emit _ _ _ := trivial
  tick _ := trivial
  takeFresh _ := trivial
  change _ _ _ _ _ _ _ := trivial
  authorize _ _ _ := trivial
  faults _ notArg notType same := ofHandler (same ▸ ⟨notArg, notType⟩)

theorem dispatch_reads_supplied {w : World D} {req : RespRequest} (supplied : Supplied w req)
    (ptr : ClientPtr) : dispatch req ptr w ≠ .error .missingArg := by
  intro faulty
  refine (obeysAt_dispatch (ambient_but .missingArg fun outside => outside.1 rfl)
    (.inr supplied) (.inl (by decide)) ?_ (fun _ => harmless_blocking) ?_ ?_ ?_).2 _ faulty rfl
  · exact fun _ _ _ _ _ _ _ => trivial
  · exact fun _ _ _ => trivial
  · exact fun _ _ _ _ _ => trivial
  · exact fun _ => ⟨fun _ _ => trivial, fun _ _ => trivial⟩

/-- No step of a run reads an argument that its request does not have, as long as every command that is
run has the arguments that its arm and `notify_watchers` read. -/
theorem no_step_reads_missingArg {s t : Server D} {event : Event} (idle : s.running = none)
    (run : Run Step SuppliedAt s t) (supplied : SuppliedAt t event) :
    ¬ Faults t event .missingArg := by
  intro faults
  obtain outside | ⟨_, isType⟩ | ⟨ptr, req, dispatches, faulty⟩ :=
    step_fault (outsideMulti_run idle run) faults
  · exact outside.1 rfl
  · exact absurd isType (by decide)
  · exact dispatch_reads_supplied (supplied ptr req dispatches) ptr faulty

/-- After a connection and with a key, GET reads what it has. -/
theorem no_step_reads_missingArg_get :
    ∃ t, Run Step SuppliedAt idleServer t ∧
      ¬ Faults t (arrival firstSlot [CString.lit "GET", CString.lit "k"]) .missingArg := by
  have connects : Step idleServer (.connect 5 0) ⟨(blankWorld Int).accept firstSlot 5 0, none⟩ :=
    ⟨⟨rfl, by decide, rfl⟩, rfl⟩
  have run : Run Step SuppliedAt idleServer ⟨(blankWorld Int).accept firstSlot 5 0, none⟩ :=
    .single (fun _ _ dispatches => by simp [Dispatches, Server.calls] at dispatches) connects
  refine ⟨_, run, no_step_reads_missingArg rfl run fun ptr req dispatches => ?_⟩
  obtain ⟨_, rfl⟩ := dispatches_arrival dispatches
  have isGet : (requestOf [CString.lit "GET", CString.lit "k"]).command = .get := by decide +kernel
  refine ⟨?_, ?_⟩
  · rw [ArmSupplied, isGet]
    decide +kernel
  · simp [isGet, notifies]

/-- GET without a key. -/
theorem bareGet_reads_missingArg :
    ¬ ∀ (t : Server Int) (event : Event), Runs idleServer t → ¬ Faults t event .missingArg := by
  intro safe
  have faulty : faultAfter idleServer [.connect 5 0] (arrival firstSlot [CString.lit "GET"]) =
      some .missingArg := by decide +kernel
  obtain ⟨t, run, faults⟩ := faultAfter_run faulty
  exact safe t _ run faults

/-! ## Types -/

/-- Every key that an arm uses as a value of some type is bound to a value of that type. -/
def WellTypedAt (s : Server D) (event : Event) : Prop :=
  ∀ ptr req, Dispatches s event ptr req → WellTyped s.world req

theorem dispatch_casts_typed {w : World D} {req : RespRequest} (typed : WellTyped w req)
    (ptr : ClientPtr) : dispatch req ptr w ≠ .error .typeConfusion := by
  intro faulty
  refine (obeysAt_dispatch (ambient_but .typeConfusion fun outside => outside.2 rfl)
    (.inl (by decide)) (.inr typed) ?_ (fun _ => harmless_blocking) ?_ ?_ ?_).2 _ faulty rfl
  · exact fun _ _ _ _ _ _ _ => trivial
  · exact fun _ _ _ => trivial
  · exact fun _ _ _ _ _ => trivial
  · exact fun _ => ⟨fun _ _ => trivial, fun _ _ => trivial⟩

/-- The type of the values that a command works on. -/
def payloadType : RedisCmds → Option RedisType
  | .get | .incr => some .string
  | .lpush | .rpush | .lpop | .lrange | .llen | .blpop => some .list
  | .zadd | .zrank | .zrange | .zcard | .zscore | .zrem => some .zset
  | .geoadd | .geopos | .geodist | .geosearch => some .zset
  | .xadd | .xrange | .xread => some .stream
  | _ => none

/-- The arguments that can be the key of a request: XREAD takes its keys from behind STREAMS. -/
def keyArgs (req : RespRequest) : List Bytes :=
  if req.command = .xread then req.args else req.args.take 1

/-- A key of the request is bound to a value of another type than the command works on. -/
def Mismatched (w : World D) (req : RespRequest) : Prop :=
  ∃ key ∈ keyArgs req, ∃ entry type, lookup w.table key = .ok (some entry) ∧
    payloadType req.command = some type ∧ entry.type ≠ type

/-- An arm that gets as far as to write a bound key uses the value as the type it works on. -/
theorem casts_of_writes {w : World D} {req : RespRequest} {key : Bytes} {entry : Entry D}
    {type : RedisType} (writes : ArmWrites w req) (isKey : req.args[0]? = some key)
    (bound : lookup w.table key = .ok (some entry)) (worksOn : payloadType req.command = some type) :
    Casts w req entry type ∨ entry.type = type := by
  unfold ArmWrites at writes
  unfold payloadType at worksOn
  unfold Casts
  cases command : req.command with
  | blpop =>
    rw [command] at writes worksOn
    obtain ⟨_, key', first, rest, expiresAt, isKey', isList⟩ := writes
    obtain rfl : key = key' := by simpa [isKey] using isKey'
    obtain rfl : entry = ⟨.list (first :: rest), expiresAt⟩ := by simpa [bound] using isList
    exact .inr (Option.some.inj worksOn)
  | geosearch =>
    rw [command] at writes
    obtain ⟨_, key', isKey', unbound⟩ := writes
    obtain rfl : key = key' := by simpa [isKey] using isKey'
    simp [bound] at unbound
  | _ => simp_all

theorem mismatched_unwritten {w : World D} {req : RespRequest} (typed : WellTyped w req)
    (mismatched : Mismatched w req) {bucket : Bucket} : ¬ WritesBucket w req bucket := by
  rintro ⟨writes, key, isKey, _⟩
  obtain ⟨key', member, entry, type, bound, worksOn, differs⟩ := mismatched
  have notXread : req.command ≠ .xread := by
    intro isXread
    simp [ArmWrites, isXread] at writes
  obtain rfl : key' = key := by
    rw [keyArgs, if_neg notXread, List.take_one, List.head?_eq_getElem?, isKey] at member
    simpa using member
  obtain casts | same := casts_of_writes writes isKey bound worksOn
  · exact differs (typed key' entry type isKey bound casts)
  · exact differs same

/-- No request that a run handles uses a value as one of another type, and a request whose key is bound to
a value of another type leaves the table unchanged, as long as every arm that uses the value of its key
finds one of its own type there. -/
theorem no_step_confuses_types {s t : Server D} {event : Event} (idle : s.running = none)
    (run : Run Step WellTypedAt s t) (typed : WellTypedAt t event) :
    (event ≠ .timers → ¬ Faults t event .typeConfusion) ∧
      ∀ ptr req u, Dispatches t event ptr req → Mismatched t.world req → Step t event u →
        u.world.table = t.world.table := by
  have outside := outsideMulti_run idle run
  constructor
  · intro isHandled faults
    obtain outsideSteps | ⟨isTimers, _⟩ | ⟨ptr, req, dispatches, faulty⟩ := step_fault outside faults
    · exact outsideSteps.2 rfl
    · exact isHandled isTimers
    · exact dispatch_casts_typed (typed ptr req dispatches) ptr faulty
  · intro ptr req u dispatches mismatched step
    obtain ⟨handled, dispatched, kept⟩ := dispatch_of_step outside step dispatches
    funext bucket
    rw [kept.table bucket id]
    exact (kept_dispatch dispatched).table bucket
      (mismatched_unwritten (typed ptr req dispatches) mismatched)

theorem wellTypedAt_arrival {s : Server D} {slot : ClientSlot} {strings : List Bytes}
    (typed : WellTyped s.world (requestOf strings)) : WellTypedAt s (arrival slot strings) := by
  intro ptr req dispatches
  obtain ⟨_, rfl⟩ := dispatches_arrival dispatches
  exact typed

/-- RPUSH, then LLEN of the list, which confuses nothing, and XRANGE of it, which leaves the table as it is. -/
theorem no_step_confuses_types_list : ∃ t u : Server Int, Run Step WellTypedAt idleServer t ∧
    lookup t.world.table (CString.lit "k") = .ok (some ⟨.list [CString.lit "x"], 0⟩) ∧
    ¬ Faults t (arrival firstSlot [CString.lit "LLEN", CString.lit "k"]) .typeConfusion ∧
    Mismatched t.world (requestOf [CString.lit "XRANGE", CString.lit "k", CString.lit "-", CString.lit "+"]) ∧
    Step t (arrival firstSlot [CString.lit "XRANGE", CString.lit "k", CString.lit "-", CString.lit "+"]) u ∧
    u.world.table = t.world.table := by
  let rpush : List Bytes := [CString.lit "RPUSH", CString.lit "k", CString.lit "x"]
  let llen : List Bytes := [CString.lit "LLEN", CString.lit "k"]
  let xrange : List Bytes := [CString.lit "XRANGE", CString.lit "k", CString.lit "-", CString.lit "+"]
  have plays : (next idleServer (.connect 5 0)).any (fun s =>
      decide (lookup s.world.table (CString.lit "k") = .ok none) && (next s (arrival firstSlot rpush)).any fun t =>
        decide (lookup t.world.table (CString.lit "k") = .ok (some ⟨.list [CString.lit "x"], 0⟩)) &&
          decide (t.calls (arrival firstSlot xrange) = some (0, requestOf xrange)) &&
          (t.world.heap 0).any (fun client => reachesArm client (requestOf xrange)) &&
          (next t (arrival firstSlot xrange)).isSome) = true := by decide +kernel
  obtain ⟨s, connects, plays⟩ := (Option.any_eq_true _ _).mp plays
  simp only [Bool.and_eq_true, decide_eq_true_eq] at plays
  obtain ⟨unbound, plays⟩ := plays
  obtain ⟨t, pushes, plays⟩ := (Option.any_eq_true _ _).mp plays
  simp only [Bool.and_eq_true, decide_eq_true_eq] at plays
  obtain ⟨⟨⟨bound, calls⟩, reaches⟩, ranges⟩ := plays
  obtain ⟨client, allocated, reaches⟩ := (Option.any_eq_true _ _).mp reaches
  obtain ⟨u, ranges⟩ := Option.isSome_iff_exists.mp ranges
  have dispatches : Dispatches t (arrival firstSlot xrange) 0 (requestOf xrange) := ⟨calls, client, allocated, reaches⟩
  -- RPUSH finds its key unbound
  have typedRpush : WellTypedAt s (arrival firstSlot rpush) := wellTypedAt_arrival fun key entry type isKey found _ => by
    obtain rfl : CString.lit "k" = key := Option.some.inj isKey
    simp [unbound] at found
  have run : Run Step WellTypedAt idleServer t :=
    .tail (.single (fun _ _ dispatches => by simp [Dispatches, Server.calls] at dispatches) (next_step connects))
      typedRpush (next_step pushes)
  -- LLEN finds a list
  have typedLlen : WellTypedAt t (arrival firstSlot llen) := wellTypedAt_arrival fun key entry type isKey found casts => by
    obtain rfl : CString.lit "k" = key := Option.some.inj isKey
    obtain rfl : _ = entry := Option.some.inj (Except.ok.inj (bound.symm.trans found))
    exact (show type = .list from casts).symm
  -- XRANGE looks at the tag
  have typedXrange : WellTypedAt t (arrival firstSlot xrange) := wellTypedAt_arrival fun _ _ _ _ _ casts => casts.elim
  have mismatched : Mismatched t.world (requestOf xrange) :=
    ⟨CString.lit "k", by decide +kernel, _, .stream, bound, by decide +kernel, by decide⟩
  exact ⟨t, u, run, bound, (no_step_confuses_types rfl run typedLlen).1 (by simp [arrival]), mismatched, next_step ranges,
    (no_step_confuses_types rfl run typedXrange).2 0 _ u dispatches mismatched (next_step ranges)⟩

/-- RPUSH to a key that SET bound to a string. -/
theorem rpush_of_string_confuses_types :
    ¬ ∀ (t : Server Int) (event : Event), Runs idleServer t → event ≠ .timers →
      ¬ Faults t event .typeConfusion := by
  intro safe
  have faulty : faultAfter idleServer
      [.connect 5 0, arrival firstSlot [CString.lit "SET", CString.lit "k", CString.lit "v"]]
      (arrival firstSlot [CString.lit "RPUSH", CString.lit "k", CString.lit "x"]) =
      some .typeConfusion := by decide +kernel
  obtain ⟨t, run, faults⟩ := faultAfter_run faulty
  exact safe t _ run (by simp [arrival]) faults

end RedisClone
