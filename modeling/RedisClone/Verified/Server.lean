import RedisClone.Lib.Runs
import RedisClone.Verified.Dispatch
import RedisClone.Verified.Wire
import RedisClone.Main

/-! # The server as a transition system

One step of `Server` is what the event loop does between two points at which a property of
interleavings looks at it: setting `revents`, the timers, a connection that comes or goes, a request
of a client, and, while EXEC runs a queue, one command of the queue.  `serveRequest_eq` shows that
a request of the event loop is a request step followed by the steps of its transaction, and
`pollPass_run` and `pollPass_fault` that every pass of the loop, and every fault in one, is a run of
steps.
-/

namespace RedisClone

open Exec

variable {D : Type}

/-! ## Steps -/

/-- An EXEC that is running its queue: the client, the requests still to run, and the EXEC. -/
structure Transaction where
  ptr : ClientPtr
  remaining : List RespRequest
  call : Call
  deriving DecidableEq

/-- The server between two steps. -/
structure Server (D : Type) where
  world : World D
  running : Option Transaction

inductive Event where
  | poll (ready : ClientSlot → Bool)
  | timers
  | connect (fd : Int) (ptr : ClientPtr)
  | disconnect (slot : ClientSlot)
  | request (slot : ClientSlot) (call : Call)
  | proceed

/-- The request makes `handle_exec` run the queue of the client. -/
def startsTransaction (client : Client) (req : RespRequest) : Bool :=
  req.command = .exec && client.isQueued && !client.isDirty

/-- `handle_exec` up to the first command of the queue. -/
def beginTransaction (ptr : ClientPtr) (call : Call) : M D Transaction := do
  let client ← loadClient ptr
  send client.fd (arrayHeader client.requests.length)
  updateClient ptr fun client => { client with requests := [] }
  clearQueued ptr
  pure ⟨ptr, client.requests, call⟩

/-- A request up to its end, or up to the first command that its EXEC runs. -/
def serve [Externals D] (slot : ClientSlot) (call : Call) : M D (Option Transaction) := do
  match ← Exec.observe fun w => w.clients slot with
  | none => fault .nullDeref
  | some ptr => do
    let client ← loadClient ptr
    if startsTransaction client call.request then some <$> beginTransaction ptr call
    else do
      handle call.request ptr
      propagate ptr call
      pure none

/-- The next command of a transaction, or its end. -/
def resume [Externals D] : Transaction → M D (Option Transaction)
  | ⟨ptr, req :: remaining, call⟩ => do
    handle req ptr
    clearQueued ptr
    pure (some ⟨ptr, remaining, call⟩)
  | ⟨ptr, [], call⟩ => do
    propagate ptr call
    pure none

/-- What the server does at an event. -/
def act [Externals D] : Option Transaction → Event → M D (Option Transaction)
  | none, .poll ready => do setReady ready; pure none
  | none, .timers => do runTimers; pure none
  | none, .connect fd ptr => do connect fd ptr; pure none
  | none, .disconnect slot => do disconnect slot; pure none
  | none, .request slot call => serve slot call
  | some transaction, .proceed => resume transaction
  | running, _ => pure running

/-- The events that can come: while a transaction runs, only its next command, and for `accept` and
`calloc` a descriptor and an address that they can return. -/
def Enabled (s : Server D) : Event → Prop
  | .poll _ | .timers | .request _ _ => s.running = none
  | .connect fd ptr => s.running = none ∧ 0 ≤ fd ∧ s.world.heap ptr = none
  | .disconnect slot => s.running = none ∧ s.world.clients slot ≠ none
  | .proceed => s.running ≠ none

instance (s : Server D) (event : Event) : Decidable (Enabled s event) :=
  match event with
  | .poll _ | .timers | .request _ _ => inferInstanceAs (Decidable (s.running = none))
  | .connect fd ptr =>
    inferInstanceAs (Decidable (s.running = none ∧ 0 ≤ fd ∧ s.world.heap ptr = none))
  | .disconnect slot =>
    inferInstanceAs (Decidable (s.running = none ∧ s.world.clients slot ≠ none))
  | .proceed => inferInstanceAs (Decidable (s.running ≠ none))

/-- `handle` runs the arm of the request for the client. -/
def reachesArm (client : Client) (req : RespRequest) : Bool :=
  !isTransactionCmd req.command && !client.isQueued &&
    (!client.isSubscribed || isChannelCmd req.command)

/-- The call of `handle` that the event stands for. -/
def Server.calls (s : Server D) : Event → Option (ClientPtr × RespRequest)
  | .request slot call => (s.world.clients slot).map fun ptr => (ptr, call.request)
  | .proceed =>
    s.running.bind fun transaction =>
      transaction.remaining.head?.map fun req => (transaction.ptr, req)
  | _ => none

/-- The event makes `handle` run the arm of the request for the client. -/
def Dispatches (s : Server D) (event : Event) (ptr : ClientPtr) (req : RespRequest) : Prop :=
  s.calls event = some (ptr, req) ∧
    ∃ client, s.world.heap ptr = some client ∧ reachesArm client req = true

theorem reachesArm_eq_true {client : Client} {req : RespRequest} :
    reachesArm client req = true ↔
      isTransactionCmd req.command = false ∧ client.isQueued = false ∧
        (client.isSubscribed = true → isChannelCmd req.command = true) := by
  cases subscribed : client.isSubscribed <;> simp [reachesArm, subscribed, and_assoc]

/-- A condition on the command that the event runs, where it runs one. -/
instance {s : Server D} {event : Event} {permits : ClientPtr → RespRequest → Prop}
    [∀ ptr req, Decidable (permits ptr req)] :
    Decidable (∀ ptr req, Dispatches s event ptr req → permits ptr req) :=
  decidable_of_iff (∀ call ∈ s.calls event, (∃ client ∈ s.world.heap call.1,
      reachesArm client call.2 = true) → permits call.1 call.2)
    ⟨fun permitted ptr req dispatches => permitted (ptr, req) dispatches.1 dispatches.2,
      fun permitted call calls reaches => permitted call.1 call.2 ⟨calls, reaches⟩⟩

theorem dispatches_unique {s : Server D} {event : Event} {sender sender' : ClientPtr}
    {req req' : RespRequest} (dispatches : Dispatches s event sender req)
    (dispatches' : Dispatches s event sender' req') : sender = sender' ∧ req = req' := by
  have same := dispatches.1.symm.trans dispatches'.1
  simpa using same

/-! ## Runs of `handle_exec` -/

theorem handleExec_outside (exec : RespRequest → ClientPtr → M D Unit) {ptr : ClientPtr}
    {client : Client} {w : World D} (found : w.heap ptr = some client)
    (outside : client.isQueued = false) :
    handleExec exec ptr w =
      .ok ((), w.emit client.fd (CString.lit "-ERR EXEC without MULTI\r\n")) := by
  unfold handleExec
  rw [bind_of_ok (loadClient_found found), if_pos (by simp [outside])]
  rfl

theorem handleExec_runs (exec : RespRequest → ClientPtr → M D Unit) {ptr : ClientPtr}
    {client : Client} {w : World D} (found : w.heap ptr = some client)
    (queued : client.isQueued = true) (clean : client.isDirty = false) :
    handleExec exec ptr w = (do
      send client.fd (arrayHeader client.requests.length)
      updateClient ptr fun client => { client with requests := [] }
      forM client.requests (execCommand exec ptr)
      clearQueued ptr) w := by
  unfold handleExec
  rw [bind_of_ok (loadClient_found found), if_neg (by simp [queued]), if_neg (by simp [clean])]

theorem clearQueued_twice (ptr : ClientPtr) :
    (do clearQueued ptr; clearQueued ptr : M D Unit) = clearQueued ptr := by
  funext w
  unfold clearQueued
  cases found : w.heap ptr with
  | none => rw [bind_of_error (updateClient_missing found), updateClient_missing found]
  | some client =>
    rw [bind_of_ok (updateClient_found found), updateClient_found found,
      updateClient_found (Function.update_self ptr _ w.heap)]
    simp [World.setClient]

variable [Externals D]

def Step (s : Server D) (event : Event) (t : Server D) : Prop :=
  Enabled s event ∧ act s.running event s.world = .ok (t.running, t.world)

def Faults (s : Server D) (event : Event) (f : Fault) : Prop :=
  Enabled s event ∧ act s.running event s.world = .error f

theorem step_deterministic {s t t' : Server D} {event : Event} (step : Step s event t)
    (step' : Step s event t') : t = t' := by
  have same := step.2.symm.trans step'.2
  simp only [Except.ok.injEq, Prod.mk.injEq] at same
  obtain ⟨sameRunning, sameWorld⟩ := same
  cases t with
  | mk world running =>
    cases t' with
    | mk world' running' => rw [show world = world' from sameWorld, show running = running' from sameRunning]

/-- The runs without a condition. -/
abbrev Runs : Server D → Server D → Prop := Run Step fun _ _ => True

/-! ## EXEC as a run of its commands -/

/-- `handle` for a client that is not in a transaction calls no other `handle`. -/
theorem handleWith_of_not_queued (exec exec' : RespRequest → ClientPtr → M D Unit)
    (req : RespRequest) {ptr : ClientPtr} {client : Client} {w : World D}
    (found : w.heap ptr = some client) (outside : client.isQueued = false) :
    handleWith (handleExec exec) req ptr w = handleWith (handleExec exec') req ptr w := by
  unfold handleWith
  rw [bind_of_ok (loadClient_found found), bind_of_ok (loadClient_found found)]
  simp only [outside, Bool.false_and, Bool.false_eq_true, if_false]
  cases req.command with
  | exec =>
    exact (handleExec_outside exec found outside).trans (handleExec_outside exec' found outside).symm
  | _ => rfl

/-- The commands of a queue are run by `handle` itself. -/
theorem clearQueued_handle (ptr : ClientPtr) (req : RespRequest) :
    (do clearQueued ptr; handleWith execWithoutMulti req ptr : M D Unit) =
      (do clearQueued ptr; handle req ptr) := by
  funext w
  unfold clearQueued
  cases found : w.heap ptr with
  | none => rw [bind_of_error (updateClient_missing found), bind_of_error (updateClient_missing found)]
  | some client =>
    rw [bind_of_ok (updateClient_found found), bind_of_ok (updateClient_found found)]
    exact handleWith_of_not_queued _ _ req (Function.update_self ptr _ w.heap) rfl

/-- The rest of a transaction. -/
def complete (ptr : ClientPtr) (call : Call) : List RespRequest → M D Unit
  | [] => propagate ptr call
  | req :: remaining => do
    handle req ptr
    clearQueued ptr
    complete ptr call remaining

theorem execCommands_eq (ptr : ClientPtr) (call : Call) (requests : List RespRequest) :
    (do
      forM requests (execCommand (handleWith execWithoutMulti) ptr)
      clearQueued ptr
      propagate ptr call : M D Unit) =
    (do
      clearQueued ptr
      complete ptr call requests) := by
  induction requests with
  | nil => simp [complete]
  | cons req requests inductionHypothesis =>
    have front := congrArg (fun x : M D Unit => do
      x
      clearQueued ptr
      forM requests (execCommand (handleWith execWithoutMulti) ptr)
      clearQueued ptr
      propagate ptr call) (clearQueued_handle ptr req)
    simp only [bind_assoc] at front
    have back := congrArg (fun x : M D Unit => do x; complete ptr call requests)
      (clearQueued_twice ptr)
    simp only [bind_assoc] at back
    simp only [List.forM_cons, execCommand, bind_assoc, complete]
    rw [front]
    simp only [inductionHypothesis, back]

/-- A request of the event loop is a request step and then the steps of its transaction. -/
theorem serveRequest_eq (slot : ClientSlot) (call : Call) :
    (serveRequest slot call : M D Unit) = (do
      match ← serve slot call with
      | none => pure ()
      | some transaction => complete transaction.ptr transaction.call transaction.remaining) := by
  funext w
  unfold serveRequest serve
  rw [bind_assoc, bind_of_ok (observe_run _ w), bind_of_ok (observe_run _ w)]
  cases occupant : w.clients slot with
  | none => rfl
  | some ptr =>
    dsimp only
    cases found : w.heap ptr with
    | none =>
      rw [bind_assoc, bind_of_error (loadClient_missing found)]
      refine bind_of_error ?_
      exact bind_of_error (loadClient_missing found)
    | some client =>
      rw [bind_assoc, bind_of_ok (loadClient_found found)]
      cases starts : startsTransaction client call.request with
      | false => simp [bind_assoc]
      | true =>
        simp only [startsTransaction, Bool.and_eq_true, decide_eq_true_eq, Bool.not_eq_true'] at starts
        obtain ⟨⟨isExec, queued⟩, clean⟩ := starts
        have runs : handle call.request ptr w =
            handleExec (handleWith execWithoutMulti) ptr w := by
          unfold handle handleWith
          rw [bind_of_ok (loadClient_found found), isExec]
          simp [isTransactionCmd]
        rw [bind_run, runs, handleExec_runs _ found queued clean, ← bind_run]
        simp only [if_true, map_eq_pure_bind, bind_assoc, beginTransaction, execCommands_eq,
          pure_bind]
        rw [bind_of_ok (loadClient_found found)]

/-! ## A pass of the event loop as a run -/

/-- A fault that no step of a run has: it is in `parse` or in the loop itself. -/
def OutsideSteps (f : Fault) : Prop := f ≠ .missingArg ∧ f ≠ .typeConfusion

/-- The fault is one of a step that a run from `s` comes to, or in the loop itself. -/
def Explained (s : Server D) (f : Fault) : Prop :=
  OutsideSteps f ∨ ∃ t event, Runs s t ∧ Faults t event f

/-- From `w`, where no transaction runs, the computation goes on as a run from `s`. -/
def PlaysAt {α : Type} (s : Server D) (x : M D α) (w : World D) : Prop :=
  Runs s ⟨w, none⟩ →
    (∀ a w', x w = .ok (a, w') → Runs s ⟨w', none⟩) ∧ ∀ f, x w = .error f → Explained s f

def Plays {α : Type} (s : Server D) (x : M D α) : Prop := ∀ w, PlaysAt s x w

variable {s : Server D}

theorem PlaysAt.bind {α β : Type} {x : M D α} {g : α → M D β} {w : World D}
    (first : PlaysAt s x w) (rest : ∀ a w', x w = .ok (a, w') → PlaysAt s (g a) w') :
    PlaysAt s (x >>= g) w := by
  intro reached
  constructor
  · intro b w' run
    obtain ⟨a, t, firstRun, restRun⟩ := bind_eq_ok.mp run
    exact (rest a t firstRun ((first reached).1 a t firstRun)).1 b w' restRun
  · intro f run
    obtain firstRun | ⟨a, t, firstRun, restRun⟩ := bind_eq_error.mp run
    · exact (first reached).2 f firstRun
    · exact (rest a t firstRun ((first reached).1 a t firstRun)).2 f restRun

theorem Plays.bind {α β : Type} {x : M D α} {g : α → M D β} (first : Plays s x)
    (rest : ∀ a, Plays s (g a)) : Plays s (x >>= g) := fun w =>
  PlaysAt.bind (first w) fun a w' _ => rest a w'

theorem plays_pure {α : Type} (a : α) : Plays s (pure a : M D α) := by
  intro w reached
  refine ⟨fun b w' run => ?_, fun f run => by simp at run⟩
  simp only [pure_run, Except.ok.injEq, Prod.mk.injEq] at run
  exact run.2 ▸ reached

theorem plays_fault {α : Type} {f : Fault} (outside : OutsideSteps f) :
    Plays s (fault f : M D α) := by
  intro w _
  refine ⟨fun b w' run => by simp [fault] at run, fun f' run => .inl ?_⟩
  simp only [fault, fault_run, Except.error.injEq] at run
  exact run ▸ outside

theorem plays_forM {α : Type} (items : List α) {body : α → M D PUnit}
    (each : ∀ item ∈ items, Plays s (body item)) : Plays s (forM items body) := by
  induction items with
  | nil => exact plays_pure _
  | cons item items inductionHypothesis =>
    rw [List.forM_cons]
    refine Plays.bind (each item List.mem_cons_self) fun _ => ?_
    exact inductionHypothesis fun other member => each other (List.mem_cons_of_mem _ member)

/-- What an event does plays as the step of that event. -/
theorem playsAt_event (event : Event) {x : M D Unit} {w : World D}
    (acts : act none event = (do x; pure none : M D (Option Transaction)))
    (enabled : Enabled ⟨w, none⟩ event) : PlaysAt s x w := by
  intro reached
  constructor
  · intro a w' run
    refine .tail reached trivial ⟨enabled, ?_⟩
    rw [acts, bind_of_ok run]
    rfl
  · intro f run
    refine .inr ⟨_, event, reached, enabled, ?_⟩
    rw [acts, bind_of_error run]

/-! ### Requests -/

/-- The rest of a transaction plays as the steps of its commands and its end. -/
theorem runs_complete (ptr : ClientPtr) (call : Call) (requests : List RespRequest) {w : World D}
    (reached : Runs s ⟨w, some ⟨ptr, requests, call⟩⟩) :
    (∀ w', complete ptr call requests w = .ok ((), w') → Runs s ⟨w', none⟩) ∧
      ∀ f, complete ptr call requests w = .error f → Explained s f := by
  induction requests generalizing w with
  | nil =>
    constructor
    · intro w' run
      refine .tail reached trivial (i := .proceed) ⟨by simp [Enabled], ?_⟩
      exact bind_of_ok (f := fun _ => pure none) run
    · intro f run
      exact .inr ⟨_, .proceed, reached, by simp [Enabled], bind_of_error run⟩
  | cons req requests inductionHypothesis =>
    have front : complete ptr call (req :: requests) =
        (do (do handle req ptr; clearQueued ptr); complete ptr call requests : M D Unit) := by
      simp [complete]
    have acts : (act (some ⟨ptr, req :: requests, call⟩) .proceed : M D (Option Transaction)) =
        (do (do handle req ptr; clearQueued ptr); pure (some ⟨ptr, requests, call⟩)) := by
      simp [act, resume]
    -- one command of the queue is one step of the run
    have next {w' : World D} (run : (do handle req ptr; clearQueued ptr : M D Unit) w = .ok ((), w')) :
        Runs s ⟨w', some ⟨ptr, requests, call⟩⟩ := by
      refine .tail reached trivial (i := .proceed) ⟨by simp [Enabled], ?_⟩
      rw [acts, bind_of_ok run]
      rfl
    rw [front]
    constructor
    · intro w' run
      obtain ⟨_, t, firstRun, restRun⟩ := bind_eq_ok.mp run
      exact (inductionHypothesis (next firstRun)).1 w' restRun
    · intro f run
      obtain firstRun | ⟨_, t, firstRun, restRun⟩ := bind_eq_error.mp run
      · refine .inr ⟨_, .proceed, reached, by simp [Enabled], ?_⟩
        rw [acts, bind_of_error firstRun]
      · exact (inductionHypothesis (next firstRun)).2 f restRun

theorem plays_serveRequest (slot : ClientSlot) (call : Call) :
    Plays s (serveRequest slot call : M D Unit) := by
  intro w reached
  rw [serveRequest_eq]
  have enabled : Enabled (⟨w, none⟩ : Server D) (.request slot call) := rfl
  constructor
  · intro _ w' run
    obtain ⟨transaction, t, first, rest⟩ := bind_eq_ok.mp run
    have next : Runs s ⟨t, transaction⟩ := .tail reached trivial ⟨enabled, first⟩
    cases transaction with
    | none =>
      simp only [pure_run, Except.ok.injEq, Prod.mk.injEq, true_and] at rest
      exact rest ▸ next
    | some transaction => exact (runs_complete _ _ _ next).1 w' rest
  · intro f run
    obtain first | ⟨transaction, t, first, rest⟩ := bind_eq_error.mp run
    · exact .inr ⟨_, .request slot call, reached, enabled, first⟩
    · have next : Runs s ⟨t, transaction⟩ := .tail reached trivial ⟨enabled, first⟩
      cases transaction with
      | none => simp at rest
      | some transaction => exact (runs_complete _ _ _ next).2 f rest

/-! ### Buffers -/

omit [Externals D] in
theorem getLineFrom_fault {room : Nat} {memory : Bytes} {f : Fault}
    (broken : getLineFrom room memory = .error f) : OutsideSteps f := by
  induction memory generalizing room with
  | nil =>
    simp only [getLineFrom, Except.error.injEq] at broken
    exact broken ▸ ⟨by decide, by decide⟩
  | cons c rest inductionHypothesis =>
    unfold getLineFrom at broken
    split at broken
    · split at broken
      · cases broken
        exact ⟨by decide, by decide⟩
      · simp at broken
    · cases room with
      | zero =>
        cases broken
        exact ⟨by decide, by decide⟩
      | succ room =>
        cases line : getLineFrom room rest with
        | ok value => simp [line] at broken
        | error f' =>
          obtain rfl : f' = f := by simpa [line] using broken
          exact inductionHypothesis line

theorem parseElements_fault {memory : Bytes} {remaining i : Nat} {partialReq : PartialRequest}
    {ptr : Nat} {f : Fault} (broken : parseElements memory remaining i partialReq ptr = .error f) :
    OutsideSteps f := by
  induction remaining generalizing i partialReq ptr with
  | zero => simp [parseElements] at broken
  | succ remaining inductionHypothesis =>
    unfold parseElements at broken
    cases lenLine : getLine memory ptr with
    | error f' =>
      obtain rfl : f' = f := by simpa [lenLine] using broken
      exact getLineFrom_fault lenLine
    | ok line =>
      simp only [lenLine] at broken
      split at broken
      · simp at broken
      · cases valueLine : getLine memory (ptr + line.length + 2) with
        | error f' =>
          obtain rfl : f' = f := by simpa [valueLine] using broken
          exact getLineFrom_fault valueLine
        | ok value =>
          simp only [valueLine] at broken
          split at broken
          · simp at broken
          · cases stored : partialReq.store i value with
            | error f' =>
              obtain rfl : f' = f := by simpa [stored] using broken
              -- a store faults where there is no place for the argument
              unfold PartialRequest.store at stored
              split at stored
              · split at stored <;> simp at stored
              · split at stored
                · simp at stored
                · split at stored
                  · simp at stored
                  · cases stored
                    exact ⟨by decide, by decide⟩
            | ok next =>
              simp only [stored] at broken
              exact inductionHypothesis broken

theorem parse_fault {memory : Bytes} {ptr : Nat} {f : Fault}
    (broken : parse memory ptr = .error f) : OutsideSteps f := by
  unfold parse at broken
  cases firstLine : getLine memory ptr with
  | error f' =>
    obtain rfl : f' = f := by simpa [firstLine] using broken
    exact getLineFrom_fault firstLine
  | ok line =>
    simp only [firstLine] at broken
    split at broken
    · simp at broken
    · split at broken
      · -- the count of an empty array wraps
        split at broken
        · cases broken
          exact ⟨by decide, by decide⟩
        · simp at broken
      · cases elements : parseElements memory (CString.atoi line.tail).toNat 0 {}
            (ptr + line.length + 2) with
        | error f' =>
          obtain rfl : f' = f := by simpa [elements] using broken
          exact parseElements_fault elements
        | ok result =>
          cases result <;> simp [elements] at broken

theorem handleCallsFrom_fault {memory : Bytes} {n fuel ptr : Nat} {f : Fault}
    (broken : (handleCallsFrom memory n fuel ptr).2 = some f) : OutsideSteps f := by
  induction fuel generalizing ptr with
  | zero => simp [handleCallsFrom] at broken
  | succ fuel inductionHypothesis =>
    unfold handleCallsFrom at broken
    dsimp only at broken
    split at broken
    · simp at broken
    · cases parsed : parse memory (skipToStar memory n ptr) with
      | error f' =>
        obtain rfl : f' = f := by simpa [parsed] using broken
        exact parse_fault parsed
      | ok result =>
        simp only [parsed] at broken
        split at broken
        · rename_i failed
          simp at failed
        · exact inductionHypothesis broken
        · exact inductionHypothesis broken

theorem plays_serveBuffer (slot : ClientSlot) (bytes stale : Bytes) :
    Plays s (serveBuffer slot bytes stale : M D Unit) := by
  unfold serveBuffer
  rw [parseLoop_eq_calls]
  refine Plays.bind (plays_forM _ fun call _ => plays_serveRequest slot call) fun _ => ?_
  split
  · exact plays_fault (handleCallsFrom_fault ‹_›)
  · exact plays_pure ()

/-! ### A pass -/

omit [Externals D] in
theorem clientAt_run {slot : ClientSlot} {occupant : Option (ClientPtr × Client)} {w t : World D}
    (run : clientAt slot w = .ok (occupant, t)) :
    t = w ∧ w.clients slot = occupant.map Prod.fst ∧
      ∀ ptr client, occupant = some (ptr, client) → w.heap ptr = some client := by
  unfold clientAt at run
  rw [bind_of_ok (observe_run _ w)] at run
  cases inSlot : w.clients slot with
  | none =>
    simp only [inSlot, pure_run, Except.ok.injEq, Prod.mk.injEq] at run
    exact ⟨run.2.symm, by rw [← run.1]; rfl, fun ptr client same => by simp [← run.1] at same⟩
  | some ptr =>
    simp only [inSlot] at run
    obtain ⟨client, u, load, rest⟩ := bind_eq_ok.mp run
    obtain ⟨found, rfl⟩ := loadClient_eq_ok.mp load
    simp only [pure_run, Except.ok.injEq, Prod.mk.injEq] at rest
    refine ⟨rest.2.symm, by rw [← rest.1]; rfl, fun ptr' client' same => ?_⟩
    rw [← rest.1, Option.some.injEq, Prod.mk.injEq] at same
    exact same.1 ▸ same.2 ▸ found

omit [Externals D] in
theorem clientAt_fault {slot : ClientSlot} {f : Fault} {w : World D}
    (run : clientAt slot w = .error f) : f = .useAfterFree := by
  unfold clientAt at run
  rw [bind_of_ok (observe_run _ w)] at run
  cases inSlot : w.clients slot with
  | none => simp [inSlot] at run
  | some ptr =>
    simp only [inSlot] at run
    obtain load | ⟨client, u, load, rest⟩ := bind_eq_error.mp run
    · cases found : w.heap ptr with
      | none => simpa [loadClient_missing found, eq_comm] using load
      | some client => simp [loadClient_found found] at load
    · simp at rest

theorem plays_clientAt (slot : ClientSlot) :
    Plays s (clientAt slot : M D (Option (ClientPtr × Client))) := by
  intro w reached
  refine ⟨fun occupant w' run => ?_, fun f run => .inl ?_⟩
  · rw [(clientAt_run run).1]
    exact reached
  · rw [clientAt_fault run]
    exact ⟨by decide, by decide⟩

theorem plays_observe {α : Type} (f : World D → α) : Plays s (Exec.observe f : M D α) := by
  intro w reached
  refine ⟨fun b w' run => ?_, fun f run => by simp at run⟩
  simp only [observe_run, Except.ok.injEq, Prod.mk.injEq] at run
  exact run.2 ▸ reached

/-- The connection of a pass is one that `accept` and `calloc` can give there. -/
def Acceptable (arrivals : Arrivals) (w : World D) : Prop :=
  ∀ fd ptr, arrivals.accepted = some (fd, ptr) → 0 ≤ fd ∧ w.heap ptr = none

theorem playsAt_serveSlots (arrivals : Arrivals) (fuel i : Nat) {w : World D}
    (acceptable : i = 0 → Acceptable arrivals w) :
    PlaysAt s (serveSlots arrivals fuel i : M D Unit) w := by
  induction fuel generalizing i w with
  | zero => exact plays_pure () w
  | succ fuel inductionHypothesis =>
    have next {w : World D} : PlaysAt s (serveSlots arrivals fuel (i + 1) : M D Unit) w :=
      inductionHypothesis (i + 1) fun isZero => by omega
    unfold serveSlots
    refine PlaysAt.bind (plays_observe _ w) fun active t run => ?_
    obtain rfl : w = t := by
      simp only [observe_run, Except.ok.injEq, Prod.mk.injEq] at run
      exact run.2
    split
    · exact plays_pure () w
    split
    · rename_i inRange
      refine PlaysAt.bind (plays_observe _ w) fun watched t run => ?_
      obtain rfl : w = t := by
        simp only [observe_run, Except.ok.injEq, Prod.mk.injEq] at run
        exact run.2
      split
      · exact next
      split
      · rename_i isZero
        -- slot 0 is the listening descriptor
        refine PlaysAt.bind ?_ fun _ t _ => next
        cases accepted : arrivals.accepted with
        | none => exact plays_pure () w
        | some arrival =>
          obtain ⟨fd, ptr⟩ := arrival
          obtain ⟨valid, free⟩ := acceptable isZero fd ptr accepted
          exact playsAt_event (.connect fd ptr) rfl ⟨rfl, valid, free⟩
      · rename_i notZero
        refine PlaysAt.bind (plays_clientAt _ w) fun occupant t run => ?_
        obtain ⟨rfl, inSlot, _⟩ := clientAt_run run
        cases occupant with
        | none => exact plays_fault ⟨by decide, by decide⟩ t
        | some occupant =>
          dsimp only
          split
          · exact next
          split
          -- the last client moved into the slot, which is looked at again
          · refine PlaysAt.bind ?_ fun _ u _ => inductionHypothesis i fun isZero => absurd isZero notZero
            exact playsAt_event (.disconnect ⟨i, inRange⟩) rfl ⟨rfl, by simp [inSlot]⟩
          · exact PlaysAt.bind (plays_serveBuffer _ _ _ t) fun _ u _ => next
    · exact plays_fault ⟨by decide, by decide⟩ w

/-- The address of a new connection is free when the timers of its pass are done. -/
def AcceptableAfterTimers (arrivals : Option Arrivals) (w : World D) : Prop :=
  ∀ arrivals', arrivals = some arrivals' → ∀ w',
    (do setReady arrivals'.ready; runTimers : M D Unit) w = .ok ((), w') → Acceptable arrivals' w'

theorem playsAt_pollPass (arrivals : Option Arrivals) {w : World D}
    (acceptable : AcceptableAfterTimers arrivals w) :
    PlaysAt s (pollPass arrivals : M D Unit) w := by
  unfold pollPass
  cases arrivals with
  | none => exact playsAt_event (.timers) rfl rfl
  | some arrivals =>
    refine PlaysAt.bind (playsAt_event (.poll arrivals.ready) rfl rfl) fun _ t polled => ?_
    refine PlaysAt.bind (playsAt_event (.timers) rfl rfl) fun _ u timed => ?_
    refine playsAt_serveSlots arrivals _ 0 fun _ => acceptable arrivals rfl u ?_
    rw [bind_of_ok polled]
    exact timed

/-- A pass of the event loop is a run of steps. -/
theorem pollPass_run {arrivals : Option Arrivals} {w w' : World D}
    (acceptable : AcceptableAfterTimers arrivals w) (run : pollPass arrivals w = .ok ((), w')) :
    Runs (⟨w, none⟩ : Server D) ⟨w', none⟩ :=
  (playsAt_pollPass arrivals acceptable (.refl _)).1 () w' run

/-- A missing argument or a wrong payload in a pass of the event loop is one of a step of a run. -/
theorem pollPass_fault {arrivals : Option Arrivals} {w : World D} {f : Fault}
    (acceptable : AcceptableAfterTimers arrivals w) (run : pollPass arrivals w = .error f)
    (ofHandler : f = .missingArg ∨ f = .typeConfusion) :
    ∃ t event, Runs (⟨w, none⟩ : Server D) t ∧ Faults t event f := by
  obtain outside | explained := (playsAt_pollPass arrivals acceptable (.refl _)).2 f run
  · obtain isArg | isType := ofHandler
    · exact absurd isArg outside.1
    · exact absurd isType outside.2
  · exact explained

/-! ## Runs by evaluation -/

/-- The state after one event, where it can come and ends normally. -/
def next (s : Server D) (event : Event) : Option (Server D) :=
  if Enabled s event then
    match act s.running event s.world with
    | .ok (running, world) => some ⟨world, running⟩
    | .error _ => none
  else none

theorem next_step {s t : Server D} {event : Event} (isNext : next s event = some t) :
    Step s event t := by
  unfold next at isNext
  split at isNext
  · rename_i enabled
    split at isNext
    · rename_i running world acts
      obtain rfl := Option.some.inj isNext
      exact ⟨enabled, acts⟩
    · simp at isNext
  · simp at isNext

/-- The run of these events, where each of them can come, is allowed and ends normally. -/
def play (allowed : Server D → Event → Prop) [∀ s event, Decidable (allowed s event)]
    (s : Server D) : List Event → Option (Server D)
  | [] => some s
  | event :: events =>
    if allowed s event then (next s event).bind fun t => play allowed t events else none

theorem play_run {allowed : Server D → Event → Prop} [∀ s event, Decidable (allowed s event)]
    {events : List Event} {s t : Server D} (plays : play allowed s events = some t) :
    Run Step allowed s t := by
  induction events generalizing s with
  | nil =>
    obtain rfl : s = t := by simpa [play] using plays
    exact .refl s
  | cons event events inductionHypothesis =>
    rw [play] at plays
    split at plays
    · rename_i permitted
      obtain ⟨u, isNext, rest⟩ := Option.bind_eq_some_iff.mp plays
      exact (Run.single permitted (next_step isNext)).trans (inductionHypothesis rest)
    · simp at plays

/-- The fault of an event that comes after a run of these events. -/
def faultAfter (s : Server D) (events : List Event) (event : Event) : Option Fault :=
  (play (fun _ _ => True) s events).bind fun t =>
    if Enabled t event then
      match act t.running event t.world with
      | .ok _ => none
      | .error f => some f
    else none

theorem faultAfter_run {events : List Event} {event : Event} {s : Server D} {f : Fault}
    (faulty : faultAfter s events event = some f) : ∃ t, Runs s t ∧ Faults t event f := by
  obtain ⟨t, plays, here⟩ := Option.bind_eq_some_iff.mp faulty
  split at here
  · rename_i enabled
    split at here
    · simp at here
    · rename_i f' acts
      obtain rfl := Option.some.inj here
      exact ⟨t, play_run plays, enabled, acts⟩
  · simp at here

/-- `double` as far as a run needs whole numbers only. -/
instance wholeNumbers : Externals Int where
  ofInt := id
  constant mantissa places := mantissa / 10 ^ places
  add := (· + ·)
  sub := (· - ·)
  mul := (· * ·)
  div := Int.tdiv
  lt x y := x < y
  le x y := x ≤ y
  eq x y := x = y
  toInt := id
  toWord := BitVec.ofInt 64
  ofWord := BitVec.toInt
  llround := id
  fabs x := x.natAbs
  sqrt x := x.toNat.sqrt
  sin _ := 0
  cos _ := 1
  atan2 _ _ := 0
  pow x y := x ^ y.toNat
  atof := CString.atoi
  printG17 := CString.decimalInt
  sha256Hex _ := []

/-- A server without files and without clients. -/
def idleServer : Server Int := ⟨blankWorld Int, none⟩

/-- A check of the end of a run of these events. -/
theorem exists_run_of_play {allowed : Server D → Event → Prop}
    [∀ s event, Decidable (allowed s event)] {s : Server D} {events : List Event}
    {check : Server D → Bool} (checked : (play allowed s events).any check = true) :
    ∃ t, Run Step allowed s t ∧ check t = true := by
  obtain ⟨t, plays, holds⟩ := (Option.any_eq_true _ _).mp checked
  exact ⟨t, play_run plays, holds⟩

/-- The slots of the first three connections. -/
def firstSlot : ClientSlot := ⟨1, by decide⟩

def secondSlot : ClientSlot := ⟨2, by decide⟩

def thirdSlot : ClientSlot := ⟨3, by decide⟩

/-- The request of a message with these strings comes from a client. -/
def arrival (slot : ClientSlot) (strings : List Bytes) : Event :=
  .request slot ⟨0, requestOf strings, (encode strings).length⟩

omit [Externals D] in
theorem dispatches_arrival {s : Server D} {slot : ClientSlot} {strings : List Bytes}
    {ptr : ClientPtr} {req : RespRequest} (dispatches : Dispatches s (arrival slot strings) ptr req) :
    s.world.clients slot = some ptr ∧ req = requestOf strings := by
  obtain ⟨ptr', occupied, same⟩ := Option.map_eq_some_iff.mp dispatches.1
  obtain ⟨rfl, rfl⟩ := Prod.mk.inj same
  exact ⟨occupied, rfl⟩

end RedisClone
