import RedisClone.Lib.Lockstep
import RedisClone.Verified.Dispatch

/-! # Two states that are the same elsewhere

`SameElsewhere R`: `R`-related states differ at most in the table, in what was sent and in the log of executed
commands, and they stay related through what changes neither, and through a message.  Every handler that does not open
the table ends alike from two such states, whatever `R` says of the three parts.  The instances are in the order of the
definitions that they are about; a handler needs a proof only where it takes cases on a result.
-/

namespace RedisClone

open Exec

variable {D : Type}

/-- Related states are the same but for the table, what was sent and the log, and stay related. -/
class SameElsewhere (R : World D → World D → Prop) : Prop where
  keeps : ∀ w w', R w w' → w' = { w with table := w'.table, sent := w'.sent, executed := w'.executed }
  changes : ∀ g : World D → World D,
    (∀ w, (g w).table = w.table ∧ (g w).sent = w.sent ∧ (g w).executed = w.executed) →
    (∀ w table sent executed, g { w with table, sent, executed } = { g w with table, sent, executed }) →
      ∀ w w', R w w' → R (g w) (g w')
  emits : ∀ fd bytes w w', R w w' → R (w.emit fd bytes) (w'.emit fd bytes)

variable {R : World D → World D → Prop} [SameElsewhere R]

/-! ## The parts of the state -/

/-- What is read of a state besides these three. -/
theorem sameView_elsewhere {α : Type} {f : World D → α}
    (ignores : ∀ w table sent executed, f { w with table, sent, executed } = f w) : SameView R f where
  same w w' same := by
    rw [SameElsewhere.keeps w w' same]
    exact (ignores w _ _ _).symm

/-- A change to a state besides these three. -/
theorem parallel_elsewhere {g : World D → World D}
    (leaves : ∀ w, (g w).table = w.table ∧ (g w).sent = w.sent ∧ (g w).executed = w.executed)
    (ignores : ∀ w table sent executed, g { w with table, sent, executed } = { g w with table, sent, executed }) :
    Parallel R g where
  keeps := SameElsewhere.changes g leaves ignores

instance sameView_clients (slot : ClientSlot) : SameView R fun w : World D => w.clients slot :=
  sameView_elsewhere fun _ _ _ _ => rfl

instance sameView_watchers : SameView R (@World.watchers D) :=
  sameView_elsewhere fun _ _ _ _ => rfl

instance sameView_serverConfig : SameView R (@World.serverConfig D) :=
  sameView_elsewhere fun _ _ _ _ => rfl

instance sameView_files : SameView R (@World.files D) :=
  sameView_elsewhere fun _ _ _ _ => rfl

instance sameView_defaultHasNopass : SameView R (@World.defaultHasNopass D) :=
  sameView_elsewhere fun _ _ _ _ => rfl

instance sameView_defaultPassword : SameView R (@World.defaultPassword D) :=
  sameView_elsewhere fun _ _ _ _ => rfl

instance sameView_clock : SameView R fun w : World D => w.clock 0 :=
  sameView_elsewhere fun _ _ _ _ => rfl

instance sameView_fresh : SameView R fun w : World D => w.fresh 0 :=
  sameView_elsewhere fun _ _ _ _ => rfl

instance parallel_tick : Parallel R (@World.tick D) :=
  parallel_elsewhere (fun _ => ⟨rfl, rfl, rfl⟩) fun _ _ _ _ => rfl

instance parallel_takeFresh : Parallel R (@World.takeFresh D) :=
  parallel_elsewhere (fun _ => ⟨rfl, rfl, rfl⟩) fun _ _ _ _ => rfl

instance parallel_emit (fd : Int) (bytes : Bytes) : Parallel R fun w : World D => w.emit fd bytes where
  keeps := SameElsewhere.emits fd bytes

/-! ## System calls and memory -/

section Memory

variable {req : RespRequest}

instance lockstep_send (fd : Int) (bytes : Bytes) :
    Lockstep R (send fd bytes : M D Unit) := by
  unfold send
  infer_instance

instance lockstep_sendText (size : Nat) (fd : Int) (text : Bytes) :
    Lockstep R (sendText size fd text : M D Unit) := by
  unfold sendText
  infer_instance

instance lockstep_getCurrentTimeMs :
    Lockstep R (getCurrentTimeMs : M D Int) := by
  unfold getCurrentTimeMs
  infer_instance

instance lockstep_indeterminate : Lockstep R (indeterminate : M D Bytes) := by
  unfold indeterminate
  infer_instance

instance lockstep_indeterminateInt :
    Lockstep R (indeterminateInt : M D Int) := by
  unfold indeterminateInt
  infer_instance

instance lockstep_staleBytes (n : Nat) : Lockstep R (staleBytes n : M D Bytes) := by
  unfold staleBytes
  infer_instance

instance lockstep_config : Lockstep R (config : M D RedisConfig) := by
  unfold config
  infer_instance

instance lockstep_setConfig (f : RedisConfig → RedisConfig) :
    Lockstep R (setConfig f : M D Unit) := by
  have : Parallel R fun w : World D => w.configure f :=
    parallel_elsewhere (fun _ => ⟨rfl, rfl, rfl⟩) fun _ _ _ _ => rfl
  unfold setConfig
  infer_instance

instance lockstep_loadClient (ptr : ClientPtr) :
    Lockstep R (loadClient ptr : M D Client) where
  run w w' same := by
    have sameHeap : w'.heap = w.heap := by rw [SameElsewhere.keeps w w' same]
    cases found : w.heap ptr with
    | none =>
      rw [loadClient_missing found, loadClient_missing (by rw [sameHeap, found])]
      exact .error _
    | some client =>
      rw [loadClient_found found, loadClient_found (by rw [sameHeap, found])]
      exact .ok client same

instance lockstep_updateClient (ptr : ClientPtr) (f : Client → Client) :
    Lockstep R (updateClient ptr f : M D Unit) where
  run w w' same := by
    have sameHeap : w'.heap = w.heap := by rw [SameElsewhere.keeps w w' same]
    cases found : w.heap ptr with
    | none =>
      rw [updateClient_missing found, updateClient_missing (by rw [sameHeap, found])]
      exact .error _
    | some client =>
      rw [updateClient_found found, updateClient_found (by rw [sameHeap, found])]
      have parallel : Parallel R fun w : World D => w.setClient ptr (f client) :=
        parallel_elsewhere (fun _ => ⟨rfl, rfl, rfl⟩) fun _ _ _ _ => rfl
      exact .ok () (parallel.keeps w w' same)

instance lockstep_clientAt (slot : ClientSlot) :
    Lockstep R (clientAt slot : M D (Option (ClientPtr × Client))) := by
  unfold clientAt
  refine .bind inferInstance fun occupant => ?_
  cases occupant with
  | none => exact lockstep_pure _
  | some ptr => exact lockstep_bind

instance lockstep_sendUnlessMaster (fd : Int) (bytes : Bytes) :
    Lockstep R (sendUnlessMaster fd bytes : M D Unit) := by
  unfold sendUnlessMaster
  infer_instance

instance lockstep_arg (i : Nat) : Lockstep R (req.arg i : M D Bytes) := by
  unfold RespRequest.arg
  split
  · infer_instance
  · exact lockstep_fault _

instance lockstep_printArg (i : Nat) : Lockstep R (req.printArg i : M D Unit) := by
  unfold RespRequest.printArg
  split
  · infer_instance
  · infer_instance
  · exact lockstep_fault _

instance lockstep_print (size : Nat) (buffer : Buffer) (text : Bytes) :
    Lockstep R (buffer.print size text : M D Buffer) := by
  unfold Buffer.print fault
  infer_instance

instance lockstep_appendAll (size : Nat) (texts : List Bytes) (buffer : Buffer) :
    Lockstep R (Buffer.appendAll size texts buffer : M D Buffer) := by
  induction texts generalizing buffer with
  | nil => exact lockstep_pure buffer
  | cons text texts inductionHypothesis =>
    unfold Buffer.appendAll Buffer.append
    infer_instance

instance lockstep_appendGuarded (size : Nat) (texts : List Bytes) (buffer : Buffer) :
    Lockstep R (Buffer.appendGuarded size texts buffer : M D Buffer) := by
  induction texts generalizing buffer with
  | nil => exact lockstep_pure buffer
  | cons text texts inductionHypothesis =>
    unfold Buffer.appendGuarded
    infer_instance

instance lockstep_sendPrefix (size : Nat) (buffer : Buffer) (fd : Int) :
    Lockstep R (buffer.sendPrefix size fd : M D Unit) := by
  unfold Buffer.sendPrefix fault
  infer_instance

instance lockstep_tableIndex (key : Bytes) :
    Lockstep R (tableIndex key : M D Bucket) := by
  unfold tableIndex
  split
  · infer_instance
  · exact lockstep_fault _

instance lockstep_toUpperCopy (text : Bytes) :
    Lockstep R (toUpperCopy text : M D Bytes) := by
  unfold toUpperCopy
  infer_instance

end Memory

/-! ## Channels and credentials -/

section Channels

variable {req : RespRequest}

instance lockstep_alreadySubed (channel : Bytes) (subed : List (Option Bytes)) :
    Lockstep R (alreadySubed channel subed : M D Bool) := by
  induction subed with
  | nil => exact lockstep_pure false
  | cons slot subed inductionHypothesis =>
    cases slot with
    | none => exact lockstep_fault _
    | some name =>
      unfold alreadySubed
      infer_instance

instance lockstep_subscribeAll (ptr : ClientPtr) (channels : List Bytes) (msg : Buffer) :
    Lockstep R (subscribeAll ptr channels msg : M D Buffer) := by
  induction channels generalizing msg with
  | nil => exact lockstep_pure msg
  | cons channel channels inductionHypothesis =>
    unfold subscribeAll
    infer_instance

instance lockstep_handleSubscribe (ptr : ClientPtr) :
    Lockstep R (handleSubscribe req ptr : M D Unit) := by
  unfold handleSubscribe
  infer_instance

instance lockstep_publishTo (fd : Int) (channel message : Bytes) (subed : List (Option Bytes)) :
    Lockstep R (publishTo fd channel message subed : M D Nat) := by
  induction subed with
  | nil => exact lockstep_pure 0
  | cons slot subed inductionHypothesis =>
    cases slot with
    | none => exact lockstep_fault _
    | some name =>
      unfold publishTo
      infer_instance

instance lockstep_publishAll (channel message : Bytes) (slots : List ClientSlot) (count : Nat) :
    Lockstep R (publishAll channel message slots count : M D Nat) := by
  induction slots generalizing count with
  | nil => exact lockstep_pure count
  | cons slot slots inductionHypothesis =>
    unfold publishAll
    refine .bind inferInstance fun occupant => ?_
    cases occupant with
    | none => exact inductionHypothesis count
    | some occupant => exact lockstep_bind

instance lockstep_handlePublish (fd : Int) :
    Lockstep R (handlePublish req fd : M D Unit) := by
  unfold handlePublish
  infer_instance

instance lockstep_unsubscribeFrom (ptr : ClientPtr) (channel : Bytes) (fuel i : Nat) :
    Lockstep R (unsubscribeFrom ptr channel fuel i : M D Unit) := by
  induction fuel generalizing i with
  | zero => exact lockstep_pure ()
  | succ fuel inductionHypothesis =>
    unfold unsubscribeFrom
    refine .bind inferInstance fun client => ?_
    split
    · split
      · infer_instance
      · exact lockstep_fault _
    · infer_instance

instance lockstep_handleUnsubscribe (ptr : ClientPtr) :
    Lockstep R (handleUnsubscribe req ptr : M D Unit) := by
  unfold handleUnsubscribe
  infer_instance

instance lockstep_handleGetuser (ptr : ClientPtr) :
    Lockstep R (handleGetuser req ptr : M D Unit) := by
  unfold handleGetuser
  infer_instance

variable [Externals D]

instance lockstep_handleSetuser (ptr : ClientPtr) :
    Lockstep R (handleSetuser req ptr : M D Unit) := by
  have clears : Parallel R fun w : World D => { w with defaultHasNopass := false } :=
    parallel_elsewhere (fun _ => ⟨rfl, rfl, rfl⟩) fun _ _ _ _ => rfl
  have stores (password : Bytes) :
      Parallel R fun w : World D => { w with defaultPassword := password } :=
    parallel_elsewhere (fun _ => ⟨rfl, rfl, rfl⟩) fun _ _ _ _ => rfl
  unfold handleSetuser
  infer_instance

instance lockstep_handleAcl (ptr : ClientPtr) :
    Lockstep R (handleAcl req ptr : M D Unit) := by
  unfold handleAcl
  infer_instance

instance lockstep_handleAuth (ptr : ClientPtr) :
    Lockstep R (handleAuth req ptr : M D Unit) := by
  unfold handleAuth
  infer_instance

end Channels

/-! ## Replication, configuration and the simple arms -/

section Utility

variable {req : RespRequest}

instance lockstep_handleInfo (fd : Int) :
    Lockstep R (handleInfo req fd : M D Unit) := by
  unfold handleInfo
  infer_instance

instance lockstep_handleReplconfRequest (ptr : ClientPtr) (client : Client) :
    Lockstep R (handleReplconfRequest req ptr client : M D Unit) := by
  unfold handleReplconfRequest replconfHandleGetack replconfHandleAck
  infer_instance

instance lockstep_countReplicas (slots : List ClientSlot) (count : Nat) :
    Lockstep R (countReplicas slots count : M D Nat) := by
  induction slots generalizing count with
  | nil => exact lockstep_pure count
  | cons slot slots inductionHypothesis =>
    unfold countReplicas
    refine .bind inferInstance fun occupant => ?_
    cases occupant with
    | none => exact inductionHypothesis count
    | some occupant => exact lockstep_bind

instance lockstep_askReplica (slot : ClientSlot) :
    Lockstep R (askReplica slot : M D Unit) := by
  unfold askReplica
  refine .bind inferInstance fun occupant => ?_
  cases occupant with
  | none => exact lockstep_pure ()
  | some occupant => exact lockstep_ite

instance lockstep_timeoutAfter (ms : Int) :
    Lockstep R (timeoutAfter ms : M D Int) := by
  unfold timeoutAfter fault
  infer_instance

instance lockstep_markWaiting (clientFd ms : Int) (slots : List ClientSlot) :
    Lockstep R (markWaiting clientFd ms slots : M D Unit) := by
  induction slots with
  | nil => exact lockstep_pure ()
  | cons slot slots inductionHypothesis =>
    unfold markWaiting
    refine .bind inferInstance fun occupant => ?_
    cases occupant with
    | none => exact inductionHypothesis
    | some occupant => exact lockstep_ite

instance lockstep_handleWait (fd : Int) :
    Lockstep R (handleWait req fd : M D Unit) := by
  unfold handleWait
  refine .bind inferInstance fun _ => .bind inferInstance fun wanted => .bind inferInstance fun ms => ?_
  refine .bind inferInstance fun _ => .bind inferInstance fun count => ?_
  split
  · infer_instance
  · exact lockstep_bind

instance lockstep_handlePsyncRequest (ptr : ClientPtr) (fd : Int) :
    Lockstep R (handlePsyncRequest ptr fd : M D Unit) := by
  unfold handlePsyncRequest
  infer_instance

instance lockstep_handleConfig (fd : Int) :
    Lockstep R (handleConfig req fd : M D Unit) := by
  unfold handleConfig
  split
  · infer_instance
  · refine .bind inferInstance fun parameter => .bind inferInstance fun server => ?_
    split
    · infer_instance
    · exact lockstep_sendText _ fd _

instance lockstep_handleEcho (fd : Int) :
    Lockstep R (handleEcho req fd : M D Unit) := by
  unfold handleEcho
  infer_instance

instance lockstep_handlePing (client : Client) :
    Lockstep R (handlePing client : M D Unit) := by
  unfold handlePing
  infer_instance

end Utility

/-! ## Transactions -/

section Transactions

variable {req : RespRequest}

instance lockstep_setWatchers (bucket : Bucket) (clientList : ClientsWatch) :
    Lockstep R (setWatchers bucket clientList : M D Unit) := by
  have stores : Parallel R fun w : World D =>
      { w with watchers := Function.update w.watchers bucket (some clientList) } :=
    parallel_elsewhere (fun _ => ⟨rfl, rfl, rfl⟩) fun _ _ _ _ => rfl
  unfold setWatchers
  infer_instance

instance lockstep_watchKey (ptr : ClientPtr) (key : Bytes) :
    Lockstep R (watchKey ptr key : M D Unit) := by
  unfold watchKey register fault
  infer_instance

instance lockstep_handleWatch (ptr : ClientPtr) :
    Lockstep R (handleWatch req ptr : M D Unit) := by
  unfold handleWatch
  infer_instance

instance lockstep_deleteWatchedKeys (ptr : ClientPtr) :
    Lockstep R (deleteWatchedKeys ptr : M D Unit) := by
  have deregisters (key : Bytes) : Lockstep R (deregister ptr key : M D Unit) := by
    unfold deregister fault
    refine .bind inferInstance fun bucket => .bind inferInstance fun watchers => ?_
    split
    · exact lockstep_pure ()
    · exact lockstep_ite
  unfold deleteWatchedKeys
  infer_instance

instance lockstep_handleUnwatch (ptr : ClientPtr) :
    Lockstep R (handleUnwatch ptr : M D Unit) := by
  unfold handleUnwatch
  infer_instance

instance lockstep_queueCommand (ptr : ClientPtr) :
    Lockstep R (queueCommand req ptr : M D Unit) := by
  unfold queueCommand fault
  infer_instance

instance lockstep_handleMulti (ptr : ClientPtr) :
    Lockstep R (handleMulti ptr : M D Unit) := by
  unfold handleMulti
  infer_instance

instance lockstep_clearQueued (ptr : ClientPtr) :
    Lockstep R (clearQueued ptr : M D Unit) := by
  unfold clearQueued
  infer_instance

instance lockstep_handleDiscard (ptr : ClientPtr) :
    Lockstep R (handleDiscard ptr : M D Unit) := by
  unfold handleDiscard
  infer_instance

end Transactions

/-! ## After a write -/

section AfterWrite

variable {req : RespRequest}

instance lockstep_markDirty (client : Option ClientPtr) :
    Lockstep R (markDirty client : M D Unit) := by
  cases client with
  | none => exact lockstep_pure ()
  | some ptr => exact lockstep_updateClient ptr _

instance lockstep_notifyFirst : Lockstep R (notifyFirst req : M D Unit) := by
  unfold notifyFirst notifyWatchers watchersOf
  infer_instance

instance lockstep_writeToFile : Lockstep R (writeToFile req : M D Unit) := by
  have appends (record : Bytes) : Parallel R fun w : World D =>
      { w with files := { w.files with aof := w.files.aof.map (· ++ record) } } :=
    parallel_elsewhere (fun _ => ⟨rfl, rfl, rfl⟩) fun _ _ _ _ => rfl
  have records (manifest : Bytes) : Lockstep R (recordActiveName manifest : M D Unit) := by
    unfold recordActiveName fault
    split
    · infer_instance
    · exact lockstep_ite
  unfold writeToFile appendAof fault
  refine .bind inferInstance fun server => .bind inferInstance fun appendOnly => ?_
  split
  · infer_instance
  · refine .bind inferInstance fun files => ?_
    split
    · infer_instance
    · exact lockstep_bind

end AfterWrite

end RedisClone
