import RedisClone.Verified.Watchers

/-! # What one step can do

The timers, the propagation to replicas and the connection table, and then `step_cases`: what one step
of the server can do.
-/

namespace RedisClone

open Exec

variable {D : Type}

/-! ## The timers -/

section Timers

variable {R : World D → World D → Prop} {F : Fault → Prop} (ambient : Ambient R F)
  (mayBlock : MayBlock R)
include ambient

theorem obeys_activeSlots : Obeys R F (activeSlots : M D (List ClientSlot)) :=
  obeys_seq ambient (obeys_observe ambient _) fun _ => obeys_pure ambient _

include mayBlock in
theorem obeys_expireXread (now : Int) (slot : ClientSlot) :
    Obeys R F (expireXread now slot : M D Unit) := by
  refine obeys_seq ambient (obeys_clientAt ambient slot) fun occupant => ?_
  cases occupant with
  | none => exact obeys_pure ambient ()
  | some occupant =>
    refine Obeys.ite (fun _ => ?_) fun _ => obeys_pure ambient ()
    refine obeys_seq ambient (obeys_observe ambient _) fun watched => ?_
    refine obeys_seq ambient (obeys_send ambient _ _) fun _ => ?_
    refine obeys_blockClient ambient mayBlock ?_ occupant.1
    exact fun _ => rfl

theorem obeys_endblpopReply (confused : F .typeConfusion) (key : Bytes) :
    Obeys R F (endblpopReply key : M D Bytes) := by
  refine obeys_seq ambient (fun w => ?_) fun hasValue => Obeys.ite (fun _ w => ?_) fun _ => ?_
  · exact obeysAt_withPayload ambient asList_casts (.inl confused) (obeys_pure ambient _)
      fun values => obeys_pure ambient _
  · refine obeysAt_withPayload ambient asList_casts (.inl confused)
      (obeys_fault ambient (by decide) (by decide)) fun values => ?_
    split
    · exact obeys_fault ambient (by decide) (by decide)
    · exact obeys_pure ambient _
  · exact obeys_pure ambient _

include mayBlock in
theorem obeys_handleEndblpop (confused : F .typeConfusion) (clientPtr : Option ClientPtr) :
    Obeys R F (handleEndblpop clientPtr : M D Unit) := by
  refine obeys_seq ambient (obeys_getCurrentTimeMs ambient) fun now => ?_
  cases clientPtr with
  | none => exact obeys_pure ambient ()
  | some ptr =>
    refine obeys_seq ambient (obeys_loadClient ambient ptr) fun client => ?_
    refine Obeys.ite (fun _ => ?_) fun _ => obeys_pure ambient ()
    split
    · exact obeys_fault ambient (by decide) (by decide)
    · refine obeys_seq ambient (obeys_endblpopReply ambient confused _) fun reply => ?_
      refine obeys_seq ambient (obeys_send ambient _ _) fun _ => ?_
      refine obeys_blockClient ambient mayBlock ?_ ptr
      exact fun _ => rfl

theorem obeys_waitTimedOut (now : Int) (slots : List ClientSlot) (timedOut : Bool) :
    Obeys R F (waitTimedOut now slots timedOut : M D Bool) := by
  induction slots generalizing timedOut with
  | nil => exact obeys_pure ambient timedOut
  | cons slot slots inductionHypothesis =>
    refine obeys_seq ambient (obeys_clientAt ambient slot) fun occupant => ?_
    cases occupant with
    | none => exact inductionHypothesis _
    | some occupant =>
      exact obeys_seq ambient (obeys_config ambient) fun server => inductionHypothesis _

include mayBlock in
theorem obeys_endWait (slot : ClientSlot) : Obeys R F (endWait slot : M D Unit) := by
  refine obeys_seq ambient (obeys_clientAt ambient slot) fun occupant => ?_
  cases occupant with
  | none => exact obeys_fault ambient (by decide) (by decide)
  | some occupant =>
    refine obeys_seq ambient (obeys_config ambient) fun server => ?_
    refine obeys_blockClient ambient mayBlock ?_ occupant.1
    exact fun _ => rfl

include mayBlock in
theorem obeys_completeWait (now : Int) : Obeys R F (completeWait now : M D Unit) := by
  refine obeys_seq ambient (obeys_config ambient) fun server => ?_
  refine Obeys.ite (fun _ => obeys_pure ambient ()) fun _ => ?_
  refine obeys_seq ambient (obeys_countReplicas ambient _ _) fun count => ?_
  refine obeys_seq ambient (obeys_activeSlots ambient) fun slots => ?_
  refine obeys_seq ambient (obeys_waitTimedOut ambient _ _ _) fun timedOut => ?_
  refine Obeys.ite (fun _ => ?_) fun _ => obeys_pure ambient ()
  refine obeys_seq ambient (obeys_send ambient _ _) fun _ => ?_
  refine obeys_seq ambient (obeys_forM ambient _ fun slot _ => obeys_endWait ambient mayBlock slot)
    fun _ => ?_
  exact obeys_setConfig mayBlock fun _ => rfl

include mayBlock in
theorem obeys_runTimers (confused : F .typeConfusion) : Obeys R F (runTimers : M D Unit) := by
  refine obeys_seq ambient (obeys_getCurrentTimeMs ambient) fun now => ?_
  refine obeys_seq ambient (obeys_activeSlots ambient) fun slots => ?_
  refine obeys_seq ambient (obeys_forM ambient _ fun slot _ => ?_) fun _ => ?_
  · refine obeys_seq ambient (obeys_expireXread ambient mayBlock now slot) fun _ => ?_
    refine obeys_seq ambient (obeys_observe ambient _) fun clientPtr => ?_
    exact obeys_handleEndblpop ambient mayBlock confused clientPtr
  · exact obeys_completeWait ambient mayBlock now

end Timers

/-! ## Propagation -/

/-- The replica in a slot. -/
def World.replicaAt (w : World D) (slot : ClientSlot) : Option ClientPtr :=
  (w.clients slot).filter fun ptr => (w.heap ptr).any Client.isReplica

/-- Send a request to replicas, as far as the log of it goes. -/
def World.pass (w : World D) (req : RespRequest) (replicas : List ClientPtr)
    (sent : List (Int × Bytes)) : World D :=
  { w with sent := sent, passed := w.passed ++ replicas.map fun ptr => (ptr, req) }

theorem pass_pass (w : World D) (req : RespRequest) (first second : List ClientPtr)
    (sent sent' : List (Int × Bytes)) :
    (w.pass req first sent).pass req second sent' = w.pass req (first ++ second) sent' := by
  simp [World.pass]

theorem appendAll_run {size : Nat} {texts : List Bytes} {buffer result : Buffer} {w t : World D}
    (run : Buffer.appendAll size texts buffer w = .ok (result, t)) : t = w := by
  induction texts generalizing buffer w with
  | nil =>
    simp only [Buffer.appendAll, pure_run, Except.ok.injEq, Prod.mk.injEq] at run
    exact run.2.symm
  | cons text texts inductionHypothesis =>
    obtain ⟨appended, u, first, rest⟩ := bind_eq_ok.mp run
    obtain ⟨printed, v, prints, adds⟩ := bind_eq_ok.mp first
    simp only [pure_run, Except.ok.injEq, Prod.mk.injEq] at adds
    unfold Buffer.print at prints
    split at prints
    · simp [fault] at prints
    · simp only [pure_run, Except.ok.injEq, Prod.mk.injEq] at prints
      rw [inductionHypothesis rest, ← adds.2, ← prints.2]

theorem passTo_run {req : RespRequest} {slot : ClientSlot} {w w' : World D}
    (run : passTo req slot w = .ok ((), w')) :
    w' = w.pass req (w.replicaAt slot).toList w'.sent := by
  unfold passTo at run
  obtain ⟨occupant, t, look, rest⟩ := bind_eq_ok.mp run
  obtain ⟨rfl, inSlot, found⟩ := clientAt_run look
  cases occupant with
  | none =>
    simp only [pure_run, Except.ok.injEq, Prod.mk.injEq, true_and] at rest
    simp [← rest, World.pass, World.replicaAt, inSlot]
  | some occupant =>
    obtain ⟨ptr, client⟩ := occupant
    have inHeap := found ptr client rfl
    dsimp only at rest
    split at rest
    · rename_i isReplica
      obtain ⟨buffer, u, copied, afterCopy⟩ := bind_eq_ok.mp rest
      obtain rfl := appendAll_run copied
      obtain ⟨_, v, sends, note⟩ := bind_eq_ok.mp afterCopy
      unfold Buffer.sendPrefix at sends
      split at sends
      · simp [fault] at sends
      · rw [send_run sends] at note
        simp only [notePassed, alter_run, Except.ok.injEq, Prod.mk.injEq, true_and] at note
        have here : u.replicaAt slot = some ptr := by
          simp [World.replicaAt, inSlot, inHeap, isReplica]
        rw [← note, here]
        rfl
    · rename_i notReplica
      simp only [pure_run, Except.ok.injEq, Prod.mk.injEq, true_and] at rest
      have here : t.replicaAt slot = none := by
        simp [World.replicaAt, inSlot, Option.filter_some, inHeap, notReplica]
      simp [← rest, here, World.pass]

/-- The replicas, in the order of their slots. -/
def World.replicas (w : World D) : List ClientPtr := clientSlots.filterMap w.replicaAt

theorem forM_passTo_run {req : RespRequest} {slots : List ClientSlot} {w w' : World D}
    (run : forM slots (passTo req) w = .ok ((), w')) :
    w' = w.pass req (slots.filterMap w.replicaAt) w'.sent := by
  induction slots generalizing w with
  | nil =>
    simp only [List.forM_nil, pure_run, Except.ok.injEq, Prod.mk.injEq, true_and] at run
    simp [← run, World.pass]
  | cons slot slots inductionHypothesis =>
    rw [List.forM_cons] at run
    obtain ⟨_, t, first, rest⟩ := bind_eq_ok.mp run
    have firstSent := passTo_run first
    have restSent := inductionHypothesis rest
    rw [firstSent] at restSent
    rw [restSent]
    have same : (w.pass req (w.replicaAt slot).toList t.sent).replicaAt = w.replicaAt := rfl
    rw [same, pass_pass, List.filterMap_cons]
    cases w.replicaAt slot <;> rfl

/-- What follows a call of `handle` for a client other than the master: a write command is sent to
every replica. -/
theorem propagate_run {ptr : ClientPtr} {call : Call} {client : Client} {w w' : World D}
    (found : w.heap ptr = some client) (notMaster : client.fd ≠ w.serverConfig.masterFd)
    (run : propagate ptr call w = .ok ((), w')) :
    w' = { w with
      sent := w'.sent
      serverConfig := { w.serverConfig with
        masterReplOffset := w'.serverConfig.masterReplOffset }
      passed := w.passed ++
        if isWriteCmd call.request.command then w.replicas.map fun ptr => (ptr, call.request)
        else [] } := by
  unfold propagate at run
  rw [bind_of_ok (loadClient_found found),
    bind_of_ok (show config w = .ok (w.serverConfig, w) from rfl), if_neg notMaster] at run
  cases isWrite : isWriteCmd call.request.command with
  | false =>
    simp only [isWrite, onlyIf, passDataToReplica, Bool.false_eq_true, if_false, pure_bind, pure_run,
      Except.ok.injEq, Prod.mk.injEq, true_and] at run
    simp [← run]
  | true =>
    rw [isWrite, onlyIf, if_pos rfl, bind_of_ok (show setConfig _ w = .ok ((), _) from rfl),
      passDataToReplica, isWrite, if_pos rfl] at run
    have passes := forM_passTo_run run
    rw [passes]
    rfl

/-- What follows a call of `handle` touches no client and no key. -/
theorem propagate_same {ptr : ClientPtr} {call : Call} {w w' : World D}
    (run : propagate ptr call w = .ok ((), w')) :
    w'.serverConfig.masterFd = w.serverConfig.masterFd ∧
      (isWriteCmd call.request.command = false → w'.passed = w.passed) ∧
      w' = { w with sent := w'.sent, serverConfig := w'.serverConfig, passed := w'.passed } := by
  obtain ⟨client, loaded, load, rest⟩ := bind_eq_ok.mp run
  obtain ⟨found, rfl⟩ := loadClient_eq_ok.mp load
  by_cases isMaster : client.fd = loaded.serverConfig.masterFd
  · rw [bind_of_ok (show config loaded = .ok (loaded.serverConfig, loaded) from rfl),
      if_pos isMaster] at rest
    simp only [setConfig, alter_run, Except.ok.injEq, Prod.mk.injEq, true_and] at rest
    rw [← rest]
    exact ⟨rfl, fun _ => rfl, rfl⟩
  · have passes := propagate_run found isMaster run
    refine ⟨?_, fun readOnly => ?_, ?_⟩
    · rw [passes]
    · rw [passes]
      simp [readOnly]
    · rw [passes]

theorem kept_propagate {ptr : ClientPtr} {call : Call} {w w' : World D}
    (run : propagate ptr call w = .ok ((), w')) :
    Kept { pass := isWriteCmd call.request.command } w w' := by
  obtain ⟨masterFd, unpassed, same⟩ := propagate_same run
  rw [same]
  refine .of_same rfl rfl rfl masterFd (fun _ _ => rfl) (fun _ => rfl) (fun _ => rfl) ?_ rfl
  exact fun readOnly => unpassed (by simpa using readOnly)

/-! ## Connections -/

/-- A connection in the next slot. -/
def World.accept (w : World D) (slot : ClientSlot) (fd : Int) (ptr : ClientPtr) : World D :=
  { w with
    watchList := Function.update w.watchList slot ⟨fd, false⟩
    clients := Function.update w.clients slot (some ptr)
    heap := Function.update w.heap ptr (some (newClient fd))
    activeFds := slot.val + 1 }

/-- The connections after one more was accepted. -/
theorem connected_accept {w : World D} {slot slot' : ClientSlot} {fd : Int} {ptr other : ClientPtr}
    {client : Client} (inSlot : (w.accept slot fd ptr).clients slot' = some other)
    (found : (w.accept slot fd ptr).heap other = some client) :
    other = ptr ∧ client = newClient fd ∨ w.clients slot' = some other ∧ w.heap other = some client := by
  simp only [World.accept] at inSlot found
  by_cases isNew : other = ptr
  · subst isNew
    rw [Function.update_self, Option.some.injEq] at found
    exact .inl ⟨rfl, found.symm⟩
  · rw [Function.update_of_ne isNew] at found
    have distinct : slot' ≠ slot := by
      rintro rfl
      rw [Function.update_self, Option.some.injEq] at inSlot
      exact isNew inSlot.symm
    rw [Function.update_of_ne distinct] at inSlot
    exact .inr ⟨inSlot, found⟩

theorem connect_run {fd : Int} {ptr : ClientPtr} {w w' : World D}
    (run : connect fd ptr w = .ok ((), w')) :
    w' = w ∨ ∃ slot, slot.val = w.activeFds ∧ w' = w.accept slot fd ptr := by
  unfold connect at run
  rw [bind_of_ok (observe_run _ w)] at run
  split at run
  · rename_i inRange
    simp only [alter_run, Except.ok.injEq, Prod.mk.injEq, true_and] at run
    exact .inr ⟨⟨w.activeFds, inRange⟩, rfl, run.symm⟩
  · simp only [pure_run, Except.ok.injEq, Prod.mk.injEq, true_and] at run
    exact .inl run.symm

/-- The end of the connection in a slot, whose place the last one takes. -/
def World.drop (w : World D) (slot last : ClientSlot) (ptr : ClientPtr) : World D :=
  { w with
    heap := Function.update w.heap ptr none
    watchList := Function.update (Function.update w.watchList slot (w.watchList last)) last
      ⟨-1, false⟩
    clients := Function.update (Function.update w.clients slot (w.clients last)) last none
    activeFds := last.val }

/-- The connections after one of them ended. -/
theorem connected_drop {w : World D} {slot last slot' : ClientSlot} {ptr other : ClientPtr}
    {client : Client} (inSlot : (w.drop slot last ptr).clients slot' = some other)
    (found : (w.drop slot last ptr).heap other = some client) :
    ∃ slot'', w.clients slot'' = some other ∧ w.heap other = some client := by
  simp only [World.drop] at inSlot found
  have kept : other ≠ ptr := by
    rintro rfl
    simp at found
  rw [Function.update_of_ne kept] at found
  by_cases isLast : slot' = last
  · rw [isLast, Function.update_self] at inSlot
    simp at inSlot
  · rw [Function.update_of_ne isLast] at inSlot
    by_cases moved : slot' = slot
    · rw [moved, Function.update_self] at inSlot
      exact ⟨last, inSlot, found⟩
    · rw [Function.update_of_ne moved] at inSlot
      exact ⟨slot', inSlot, found⟩

theorem disconnect_run {slot : ClientSlot} {ptr : ClientPtr} {w w' : World D}
    (occupied : w.clients slot = some ptr) (run : disconnect slot w = .ok ((), w')) :
    ∃ last, last.val = w.activeFds - 1 ∧ w' = w.drop slot last ptr := by
  unfold disconnect freeClient at run
  obtain ⟨_, freed, frees, rest⟩ := bind_eq_ok.mp run
  rw [bind_of_ok (observe_run _ w), occupied] at frees
  obtain ⟨client, loaded, load, release⟩ := bind_eq_ok.mp frees
  obtain ⟨_, rfl⟩ := loadClient_eq_ok.mp load
  obtain rfl : _ = freed := by simpa using release
  rw [bind_of_ok (observe_run _ _)] at rest
  split at rest
  · rename_i inRange
    simp only [alter_run, Except.ok.injEq, Prod.mk.injEq, true_and] at rest
    exact ⟨⟨loaded.activeFds - 1, inRange⟩, rfl, rest.symm⟩
  · simp [fault] at rest

/-! ## A step -/

theorem startsTransaction_eq_true {client : Client} {req : RespRequest} :
    startsTransaction client req = true ↔
      req.command = .exec ∧ client.isQueued = true ∧ client.isDirty = false := by
  simp [startsTransaction, and_assoc]

/-- The client after `handle_exec` took its queue. -/
def Client.takeQueue (client : Client) : Client := { client with requests := [], isQueued := false }

variable [Externals D]

/-- What one step can do. -/
inductive Changed (s : Server D) : Event → Server D → Prop where
  | quiet {event : Event} {w' : World D} (idle : s.running = none)
      (noRequest : ∀ slot call, event ≠ .request slot call) (kept : Kept {} s.world w') :
      Changed s event ⟨w', none⟩
  | connected {fd : Int} {ptr : ClientPtr} (slot : ClientSlot) (idle : s.running = none)
      (isNext : slot.val = s.world.activeFds) (valid : 0 ≤ fd) (free : s.world.heap ptr = none) :
      Changed s (.connect fd ptr) ⟨s.world.accept slot fd ptr, none⟩
  | disconnected {slot : ClientSlot} (last : ClientSlot) (ptr : ClientPtr) (idle : s.running = none)
      (isLast : last.val = s.world.activeFds - 1) (occupied : s.world.clients slot = some ptr) :
      Changed s (.disconnect slot) ⟨s.world.drop slot last ptr, none⟩
  | started {slot : ClientSlot} {call : Call} (ptr : ClientPtr) (client : Client)
      (idle : s.running = none) (occupied : s.world.clients slot = some ptr)
      (found : s.world.heap ptr = some client)
      (starts : startsTransaction client call.request = true) :
      Changed s (.request slot call)
        ⟨(s.world.emit client.fd (arrayHeader client.requests.length)).setClient ptr
          client.takeQueue, some ⟨ptr, client.requests, call⟩⟩
  | served {slot : ClientSlot} {call : Call} {handled w' : World D} (ptr : ClientPtr)
      (client : Client) (idle : s.running = none) (occupied : s.world.clients slot = some ptr)
      (found : s.world.heap ptr = some client)
      (starts : startsTransaction client call.request = false)
      (handles : Handled s.world call.request ptr client handled)
      (propagates : propagate ptr call handled = .ok ((), w')) :
      Changed s (.request slot call) ⟨w', none⟩
  | ran {handled : World D} (ptr : ClientPtr) (req : RespRequest) (remaining : List RespRequest)
      (call : Call) (client client' : Client)
      (running : s.running = some ⟨ptr, req :: remaining, call⟩)
      (found : s.world.heap ptr = some client)
      (handles : Handled s.world req ptr client handled) (found' : handled.heap ptr = some client') :
      Changed s .proceed
        ⟨handled.setClient ptr { client' with isQueued := false }, some ⟨ptr, remaining, call⟩⟩
  | ended {w' : World D} (ptr : ClientPtr) (call : Call)
      (running : s.running = some ⟨ptr, [], call⟩)
      (propagates : propagate ptr call s.world = .ok ((), w')) : Changed s .proceed ⟨w', none⟩

/-- A client that runs its queue is no longer in MULTI. -/
def OutsideMulti (s : Server D) : Prop :=
  ∀ transaction client, s.running = some transaction →
    s.world.heap transaction.ptr = some client → client.isQueued = false

omit [Externals D] in
theorem beginTransaction_run {ptr : ClientPtr} {call : Call} {client : Client}
    {transaction : Transaction} {w w' : World D} (found : w.heap ptr = some client)
    (run : beginTransaction ptr call w = .ok (transaction, w')) :
    transaction = ⟨ptr, client.requests, call⟩ ∧
      w' = (w.emit client.fd (arrayHeader client.requests.length)).setClient ptr
        client.takeQueue := by
  unfold beginTransaction clearQueued at run
  rw [bind_of_ok (loadClient_found found),
    bind_of_ok (show send client.fd _ w = .ok ((), w.emit client.fd _) from rfl),
    bind_of_ok (updateClient_found (w := w.emit client.fd _) found),
    bind_of_ok (updateClient_found (Function.update_self ptr _ _))] at run
  simp only [pure_run, Except.ok.injEq, Prod.mk.injEq] at run
  refine ⟨run.1.symm, ?_⟩
  rw [← run.2]
  simp [World.setClient, Client.takeQueue]

omit [Externals D] in
theorem act_unit {x : M D Unit} {running : Option Transaction} {w w' : World D}
    (acts : (do x; pure none : M D (Option Transaction)) w = .ok (running, w')) :
    x w = .ok ((), w') ∧ running = none := by
  obtain ⟨_, t, first, rest⟩ := bind_eq_ok.mp acts
  simp only [pure_run, Except.ok.injEq, Prod.mk.injEq] at rest
  exact ⟨rest.2 ▸ first, rest.1.symm⟩

theorem serve_cases {slot : ClientSlot} {call : Call} {running : Option Transaction}
    {w w' : World D} (run : serve slot call w = .ok (running, w')) :
    Changed ⟨w, none⟩ (.request slot call) ⟨w', running⟩ := by
  unfold serve at run
  rw [bind_of_ok (observe_run _ w)] at run
  cases occupied : w.clients slot with
  | none => simp [occupied, fault] at run
  | some ptr =>
    simp only [occupied] at run
    obtain ⟨client, loaded, load, rest⟩ := bind_eq_ok.mp run
    obtain ⟨found, rfl⟩ := loadClient_eq_ok.mp load
    cases starts : startsTransaction client call.request with
    | true =>
      rw [starts, if_pos rfl, map_eq_pure_bind] at rest
      obtain ⟨transaction, t, begins, final⟩ := bind_eq_ok.mp rest
      obtain ⟨rfl, rfl⟩ := beginTransaction_run found begins
      simp only [pure_run, Except.ok.injEq, Prod.mk.injEq] at final
      obtain ⟨rfl, rfl⟩ := final
      exact .started ptr client rfl occupied found starts
    | false =>
      rw [starts, if_neg (by decide)] at rest
      obtain ⟨_, handled, handles, afterHandle⟩ := bind_eq_ok.mp rest
      obtain ⟨_, t, propagates, final⟩ := bind_eq_ok.mp afterHandle
      simp only [pure_run, Except.ok.injEq, Prod.mk.injEq] at final
      obtain ⟨rfl, rfl⟩ := final
      exact .served ptr client rfl occupied found starts (handle_cases found starts handles) propagates

theorem resume_cases {transaction : Transaction} {running : Option Transaction} {w w' : World D}
    (outside : ∀ client, w.heap transaction.ptr = some client → client.isQueued = false)
    (run : resume transaction w = .ok (running, w')) :
    Changed ⟨w, some transaction⟩ .proceed ⟨w', running⟩ := by
  obtain ⟨ptr, remaining, call⟩ := transaction
  cases remaining with
  | nil =>
    obtain ⟨propagates, rfl⟩ := act_unit run
    exact .ended ptr call rfl propagates
  | cons req remaining =>
    obtain ⟨_, handled, handles, afterHandle⟩ := bind_eq_ok.mp run
    obtain ⟨_, t, clears, final⟩ := bind_eq_ok.mp afterHandle
    simp only [pure_run, Except.ok.injEq, Prod.mk.injEq] at final
    obtain ⟨rfl, rfl⟩ := final
    obtain ⟨client', found', rfl⟩ := updateClient_eq_ok.mp clears
    cases found : w.heap ptr with
    | none => simp [handle, handleWith, bind_of_error (loadClient_missing found)] at handles
    | some client =>
      have starts : startsTransaction client req = false := by
        simp [startsTransaction, outside client found]
      exact .ran ptr req remaining call client client' rfl found
        (handle_cases found starts handles) found'

section Handle

variable {P : World D → Prop} {sender : ClientPtr} {w w' : World D}

omit [Externals D] in
theorem clearQueued_induction
    (changed : ∀ u client requests isQueued, P u → u.heap sender = some client →
      P (u.setClient sender { client with requests, isQueued }))
    (holds : P w) (run : clearQueued sender w = .ok ((), w')) : P w' := by
  obtain ⟨client, found, rfl⟩ := updateClient_eq_ok.mp run
  exact changed w client client.requests false holds found

/-- What holds before each command of a queue and is kept by the command holds after the queue. -/
theorem execCommands_induction
    (handled : ∀ u u' req client, P u → u.heap sender = some client → Handled u req sender client u' → P u')
    (changed : ∀ u client requests isQueued, P u → u.heap sender = some client →
      P (u.setClient sender { client with requests, isQueued }))
    (requests : List RespRequest) (holds : P w)
    (run : forM requests (execCommand (handleWith execWithoutMulti) sender) w = .ok ((), w')) : P w' := by
  induction requests generalizing w with
  | nil =>
    obtain rfl : w = w' := by simpa using run
    exact holds
  | cons req requests inductionHypothesis =>
    rw [List.forM_cons] at run
    obtain ⟨_, after, first, rest⟩ := bind_eq_ok.mp run
    unfold execCommand at first
    obtain ⟨_, cleared, clears, afterClear⟩ := bind_eq_ok.mp first
    obtain ⟨_, done, handles, clearsAgain⟩ := bind_eq_ok.mp afterClear
    have atCommand := clearQueued_induction changed holds clears
    obtain ⟨client, found, rfl⟩ := updateClient_eq_ok.mp clears
    -- the client is out of MULTI, so that no other queue runs
    have isOutside : (w.setClient sender { client with isQueued := false }).heap sender =
        some { client with isQueued := false } := Function.update_self _ _ _
    have starts : startsTransaction { client with isQueued := false } req = false := by
      simp [startsTransaction]
    have asHandle : handle req sender (w.setClient sender { client with isQueued := false }) = .ok ((), done) :=
      (handleWith_of_not_queued _ _ req isOutside rfl).trans handles
    have atEnd := handled _ done req _ atCommand isOutside (handle_cases isOutside starts asHandle)
    exact inductionHypothesis (clearQueued_induction changed atEnd clearsAgain) rest

/-- A call of `handle` and the calls that its EXEC makes: what each of them keeps, and what is kept by the reply and
by the bookkeeping of the queue, holds afterwards. -/
theorem handle_induction {req : RespRequest}
    (handled : ∀ u u' req client, P u → u.heap sender = some client → Handled u req sender client u' → P u')
    (emits : ∀ u fd bytes, P u → P (u.emit fd bytes))
    (changed : ∀ u client requests isQueued, P u → u.heap sender = some client →
      P (u.setClient sender { client with requests, isQueued }))
    (holds : P w) (run : handle req sender w = .ok ((), w')) : P w' := by
  cases found : w.heap sender with
  | none => simp [handle, handleWith, bind_of_error (loadClient_missing found)] at run
  | some client =>
    cases starts : startsTransaction client req with
    | false => exact handled w w' req client holds found (handle_cases found starts run)
    | true =>
      obtain ⟨isExec, queued, clean⟩ := startsTransaction_eq_true.mp starts
      rw [handle_exec found isExec, handleExec_runs _ found queued clean] at run
      obtain ⟨_, sent, sends, afterSend⟩ := bind_eq_ok.mp run
      obtain ⟨_, taken, takes, afterTake⟩ := bind_eq_ok.mp afterSend
      obtain ⟨_, finished, finishes, clears⟩ := bind_eq_ok.mp afterTake
      obtain rfl := send_run sends
      obtain ⟨client', found', rfl⟩ := updateClient_eq_ok.mp takes
      have sending := emits w client.fd (arrayHeader client.requests.length) holds
      have taking := changed _ client' [] client'.isQueued sending found'
      have running := execCommands_induction handled changed client.requests taking finishes
      exact clearQueued_induction changed running clears

end Handle

theorem step_cases {s t : Server D} {event : Event} (outside : OutsideMulti s)
    (step : Step s event t) : Changed s event t := by
  obtain ⟨enabled, acts⟩ := step
  obtain ⟨w, running⟩ := s
  obtain ⟨w', running'⟩ := t
  dsimp only at acts
  cases event with
  | poll ready =>
    obtain rfl : running = none := enabled
    obtain ⟨first, rfl⟩ := act_unit acts
    simp only [setReady, alter_run, Except.ok.injEq, Prod.mk.injEq, true_and] at first
    refine .quiet rfl (fun _ _ => by simp) ?_
    rw [← first]
    exact .of_same rfl rfl rfl rfl (fun _ _ => rfl) (fun _ => rfl) (fun _ => rfl) (fun _ => rfl) rfl
  | timers =>
    obtain rfl : running = none := enabled
    obtain ⟨first, rfl⟩ := act_unit acts
    exact .quiet rfl (fun _ _ => by simp) ((obeys_runTimers (ambient_kept {}) (mayBlock_kept {}) trivial w).1 () w' first)
  | connect fd ptr =>
    obtain ⟨rfl, valid, free⟩ := enabled
    obtain ⟨first, rfl⟩ := act_unit acts
    obtain rfl | ⟨slot, isNext, rfl⟩ := connect_run first
    · exact .quiet rfl (fun _ _ => by simp) (.refl _ _)
    · exact .connected slot rfl isNext valid free
  | disconnect slot =>
    obtain ⟨rfl, occupied⟩ := enabled
    obtain ⟨first, rfl⟩ := act_unit acts
    obtain ⟨ptr, inSlot⟩ := Option.ne_none_iff_exists'.mp occupied
    obtain ⟨last, isLast, rfl⟩ := disconnect_run inSlot first
    exact .disconnected last ptr rfl isLast inSlot
  | request slot call =>
    obtain rfl : running = none := enabled
    exact serve_cases acts
  | proceed =>
    obtain ⟨transaction, rfl⟩ := Option.ne_none_iff_exists'.mp enabled
    exact resume_cases (outside transaction · rfl) acts

/-! ## The arm that a step runs -/

/-- A step that runs an arm: what follows the arm at most sends the request to replicas. -/
theorem dispatch_of_step {s t : Server D} {event : Event} {ptr : ClientPtr} {req : RespRequest}
    (outside : OutsideMulti s) (step : Step s event t) (dispatches : Dispatches s event ptr req) :
    ∃ handled, dispatch req ptr s.world = .ok ((), handled) ∧
      Kept { pass := isWriteCmd req.command } handled t.world := by
  obtain ⟨calls, client, found, reaches⟩ := dispatches
  cases step_cases outside step with
  | quiet idle noRequest kept => cases event <;> simp_all [Server.calls]
  | connected slot idle isNext valid free => simp [Server.calls] at calls
  | disconnected last ptr' idle isLast occupied => simp [Server.calls] at calls
  | started ptr' client' idle occupied found' starts =>
    simp only [Server.calls, occupied, Option.map_some, Option.some.injEq, Prod.mk.injEq] at calls
    obtain ⟨rfl, rfl⟩ := calls
    have isExec := (startsTransaction_eq_true.mp starts).1
    simp [reachesArm, isExec, isTransactionCmd] at reaches
  | served ptr' client' idle occupied found' starts handles propagates =>
    simp only [Server.calls, occupied, Option.map_some, Option.some.injEq, Prod.mk.injEq] at calls
    obtain ⟨rfl, rfl⟩ := calls
    obtain rfl : client' = client := by simpa [found'] using found
    exact ⟨_, handles.dispatch_of_reaches reaches, kept_propagate propagates⟩
  | ran ptr' req' remaining call client' after running found' handles foundAfter =>
    simp only [Server.calls, running, Option.bind_some, List.head?_cons, Option.map_some,
      Option.some.injEq, Prod.mk.injEq] at calls
    obtain ⟨rfl, rfl⟩ := calls
    obtain rfl : client' = client := by simpa [found'] using found
    have run := handles.dispatch_of_reaches reaches
    refine ⟨_, run, ?_⟩
    obtain ⟨other, foundOther, session⟩ := (kept_dispatch run).heap ptr' client' found'
    obtain rfl : other = after := by simpa [foundOther] using foundAfter
    have stillOutside : other.isQueued = false :=
      session.isQueued.trans (reachesArm_eq_true.mp reaches).2.1
    exact kept_setClient foundOther
      ⟨rfl, stillOutside.symm, rfl, rfl, fun dirty => dirty, fun _ => rfl⟩
  | ended ptr' call running propagates => simp [Server.calls, running] at calls

/-- A step that runs no arm changes neither the table nor the log of the executed commands. -/
theorem data_of_step {s t : Server D} {event : Event} (outside : OutsideMulti s)
    (step : Step s event t) (undispatched : ∀ ptr req, ¬ Dispatches s event ptr req) :
    t.world.table = s.world.table ∧ t.world.executed = s.world.executed := by
  have unreached {ptr : ClientPtr} {req : RespRequest} {client : Client}
      (calls : s.calls event = some (ptr, req)) (found : s.world.heap ptr = some client) :
      reachesArm client req = false := by
    by_contra reaches
    exact undispatched ptr req ⟨calls, client, found, by simpa using reaches⟩
  cases step_cases outside step with
  | quiet idle noRequest kept =>
    exact ⟨funext fun bucket => kept.table bucket id, kept.executed id⟩
  | connected slot idle isNext valid free => exact ⟨rfl, rfl⟩
  | disconnected last ptr idle isLast occupied => exact ⟨rfl, rfl⟩
  | started ptr client idle occupied found starts => exact ⟨rfl, rfl⟩
  | served ptr client idle occupied found starts handles propagates =>
    have data := handles.sameData (unreached (by simp [Server.calls, occupied]) found)
    have kept := kept_propagate propagates
    exact ⟨(funext fun bucket => kept.table bucket id).trans data.table,
      (kept.executed id).trans data.executed⟩
  | ran ptr req remaining call client after running found handles foundAfter =>
    have data := handles.sameData (unreached (by simp [Server.calls, running]) found)
    exact ⟨data.table, data.executed⟩
  | ended ptr call running propagates =>
    have kept := kept_propagate propagates
    exact ⟨funext fun bucket => kept.table bucket id, kept.executed id⟩

end RedisClone
