import RedisClone.Verified.Silence

/-! # What a write command does to the other connections

`Attends fd` is what a write command of the client behind `fd` may do: it answers that client, wakes clients that are
blocked and marks watchers as dirty.  A replica is not blocked, so it keeps its `Standing`, and so does the connection
of a replica to its master.
-/

namespace RedisClone

open Exec CString

variable {D : Type}

/-- What replication knows of a client. -/
structure Standing where
  fd : Int
  isQueued : Bool
  isSubscribed : Bool
  isReplica : Bool
  isMaster : Bool
  isBlocked : Bool
  isBlpop : Bool
  isWaiting : Bool
  replOffset : Int

def Client.standing (client : Client) : Standing :=
  ⟨client.fd, client.isQueued, client.isSubscribed, client.isReplica, client.isMaster, client.isBlocked, client.isBlpop,
    client.isWaiting, client.replOffset⟩

/-- What replication knows of the configuration. -/
structure Counters where
  masterFd : Int
  masterReplOffset : Int
  slaveReplOffset : Int
  record : WaitRecord

def RedisConfig.counters (server : RedisConfig) : Counters :=
  ⟨server.masterFd, server.masterReplOffset, server.slaveReplOffset, server.waitRecord⟩

/-- A client in the table that is blocked has the descriptor. -/
def World.BlockedOn (w : World D) (fd : Int) : Prop :=
  ∃ slot client, w.occupant slot = some client ∧ client.isBlocked = true ∧ client.fd = fd

/-- The sender was answered, and clients that were blocked were woken. -/
structure Attends (fd : Int) (w w' : World D) : Prop
    extends Clientwise (fun _ client client' => client'.standing = client.standing ∨ client.isBlocked = true) w w' where
  counters : w'.serverConfig.counters = w.serverConfig.counters
  sent : ∃ messages, w'.sent = w.sent ++ messages ∧ ∀ message ∈ messages, message.1 = fd ∨ w.BlockedOn message.1

section Attends

variable {fd : Int} {w w' w'' t : World D} {req : RespRequest} {ptr : ClientPtr} {client : Client}

/-- Neither the clients nor the counters were changed. -/
theorem Attends.of_same {messages : List (Int × Bytes)} (clients : w'.clients = w.clients)
    (activeFds : w'.activeFds = w.activeFds) (heap : w'.heap = w.heap)
    (counters : w'.serverConfig.counters = w.serverConfig.counters) (sent : w'.sent = w.sent ++ messages)
    (toSender : ∀ message ∈ messages, message.1 = fd) : Attends fd w w' :=
  ⟨.of_same (fun _ _ => .inl rfl) clients activeFds heap, counters, messages, sent,
    fun message member => .inl (toSender message member)⟩

/-- Nothing was sent. -/
theorem Attends.of_quiet (clients : w'.clients = w.clients) (activeFds : w'.activeFds = w.activeFds)
    (heap : w'.heap = w.heap) (counters : w'.serverConfig.counters = w.serverConfig.counters) (sent : w'.sent = w.sent) :
    Attends fd w w' :=
  .of_same clients activeFds heap counters (by rw [sent, List.append_nil]) (by simp)

theorem Attends.blockedOn (attends : Attends fd w w') {other : Int} (blocked : w'.BlockedOn other) :
    w.BlockedOn other := by
  obtain ⟨slot, client', occupied, isBlocked, isFd⟩ := blocked
  obtain ⟨ptr, inSlot, found'⟩ := Option.bind_eq_some_iff.mp occupied
  obtain ⟨client, found, sameFd, same | wasBlocked⟩ := attends.toClientwise.back found'
  all_goals refine ⟨slot, client, ?_, ?_, sameFd.symm.trans isFd⟩
  · simp [World.occupant, ← attends.clients, inSlot, found]
  · exact (congrArg Standing.isBlocked same).symm.trans isBlocked
  · simp [World.occupant, ← attends.clients, inSlot, found]
  · exact wasBlocked

theorem Attends.trans (before : Attends fd w w') (after : Attends fd w' w'') : Attends fd w w'' where
  toClientwise := by
    apply before.toClientwise.trans ?_ after.toClientwise
    intro ptr first second third same later
    cases same with
    | inr wasBlocked => exact .inr wasBlocked
    | inl same =>
      cases later with
      | inl same' => exact .inl (same'.trans same)
      | inr isBlocked => exact .inr ((congrArg Standing.isBlocked same).symm.trans isBlocked)
  counters := after.counters.trans before.counters
  sent := by
    obtain ⟨first, sent, toFirst⟩ := before.sent
    obtain ⟨second, sent', toSecond⟩ := after.sent
    refine ⟨first ++ second, by rw [sent', sent, List.append_assoc], ?_⟩
    intro message member
    cases List.mem_append.mp member with
    | inl inFirst => exact toFirst message inFirst
    | inr inSecond => exact (toSecond message inSecond).imp_right before.blockedOn

theorem Attends.refl (w : World D) : Attends fd w w := .of_quiet rfl rfl rfl rfl rfl

instance storing_attends : Storing (Attends (D := D) fd) where
  composes := ⟨Attends.refl, Attends.trans⟩
  setBucket _ _ _ := .of_quiet rfl rfl rfl rfl rfl
  tick _ := .of_quiet rfl rfl rfl rfl rfl
  takeFresh _ := .of_quiet rfl rfl rfl rfl rfl

theorem Attends.emit (w : World D) (bytes : Bytes) : Attends fd w (w.emit fd bytes) :=
  .of_same rfl rfl rfl rfl rfl (by simp)

/-- One client was changed. -/
theorem Attends.of_update {messages : List (Int × Bytes)} (client' : Client) (found : w.heap ptr = some client)
    (sameFd : client'.fd = client.fd) (holds : client'.standing = client.standing ∨ client.isBlocked = true)
    (clients : w'.clients = w.clients) (activeFds : w'.activeFds = w.activeFds)
    (heap : w'.heap = Function.update w.heap ptr (some client'))
    (counters : w'.serverConfig.counters = w.serverConfig.counters) (sent : w'.sent = w.sent ++ messages)
    (toSender : ∀ message ∈ messages, message.1 = fd ∨ w.BlockedOn message.1) : Attends fd w w' :=
  ⟨.of_update (fun _ _ => .inl rfl) client' found sameFd holds clients activeFds heap, counters, messages, sent, toSender⟩

instance attends_send (bytes : Bytes) : Preserves (Attends fd) (send fd bytes : M D Unit) where
  run w _ w' run := by
    rw [send_run run]
    exact .emit w bytes

instance attends_sendText (size : Nat) (text : Bytes) : Preserves (Attends fd) (sendText size fd text : M D Unit) := by
  unfold sendText
  infer_instance

instance attends_sendPrefix (size : Nat) (buffer : Buffer) :
    Preserves (Attends fd) (buffer.sendPrefix size fd : M D Unit) := by
  unfold Buffer.sendPrefix fault
  infer_instance

instance attends_sendUnlessMaster (bytes : Bytes) : Preserves (Attends fd) (sendUnlessMaster fd bytes : M D Unit) := by
  unfold sendUnlessMaster
  infer_instance

/-! ## The writing arms -/

instance attends_handleSet : Preserves (Attends fd) (handleSet req .string fd : M D Unit) := by
  unfold handleSet
  infer_instance

instance attends_handleIncr : Preserves (Attends fd) (handleIncr req fd : M D Unit) := by
  unfold handleIncr fault
  refine .bind inferInstance fun key => .bind inferInstance fun entry => ?_
  cases entry with
  | none => exact preserves_bind
  | some entry =>
    dsimp only
    infer_instance

instance attends_handleLpush : Preserves (Attends fd) (handleLpush req fd : M D Unit) := by
  unfold handleLpush
  infer_instance

instance attends_handleLpop : Preserves (Attends fd) (handleLpop req fd : M D Unit) := by
  unfold handleLpop
  have answers (values : List Bytes) : Preserves (Attends fd) (sendPopped fd values : M D Unit) := by
    unfold sendPopped
    infer_instance
  have payload (key : Bytes) (found : List Bytes → M D Unit) (each : ∀ values, Preserves (Attends fd) (found values)) :
      Preserves (Attends fd) (withPayload key asList (send fd nilReply) found) :=
    preserves_payload inferInstance inferInstance each
  split
  · infer_instance
  · refine .bind inferInstance fun key => payload key _ fun values => ?_
    cases values.head? with
    | none => exact attends_send _
    | some first => exact preserves_ite

theorem handleRpush_attends (run : handleRpush req fd w = .ok ((), t)) : Attends fd w t := by
  by_cases few : req.argc < 2
  · rw [handleRpush, if_pos few] at run
    rw [send_run run]
    exact .emit w _
  · obtain ⟨key, list, expiresAt, opened, _, _, pushes⟩ := handleRpush_ok (by omega) run
    cases pushes with
    | unserved nobody keeps stores =>
      rw [keeps]
      exact .of_same rfl rfl rfl rfl rfl (by simp)
    | served ptr client first rest longest found elements keeps stores =>
      -- the client that is served is one of those that wait
      obtain ⟨client', member⟩ := longestOf_mem longest
      obtain ⟨slot, _, waiting⟩ := List.mem_filterMap.mp member
      obtain ⟨inSlot, found', _, isBlocked, _⟩ := waiterAt_eq_some.mp waiting
      obtain rfl : client = client' := Option.some.inj (found.symm.trans found')
      have blockedOn : w.BlockedOn client.fd := ⟨slot, client, by simp [World.occupant, inSlot, found], isBlocked, rfl⟩
      rw [keeps]
      refine .of_update client.woken found rfl (.inr isBlocked) rfl rfl rfl rfl (List.append_assoc _ _ _) ?_
      intro message member
      cases List.mem_cons.mp member with
      | inl isReply => exact .inl (by rw [isReply])
      | inr isServed =>
        rw [List.mem_singleton.mp isServed]
        exact .inr blockedOn

instance attends_wakeStreamReader (key : Bytes) (slot : ClientSlot) :
    Preserves (Attends fd) (wakeStreamReader key slot : M D Unit) where
  run w _ t run := by
    unfold wakeStreamReader at run
    obtain ⟨occupant, looked, look, wakes⟩ := bind_eq_ok.mp run
    obtain ⟨rfl, here⟩ := occupant_of_clientAt look
    have nothing (same : (pure () : M D Unit) looked = .ok ((), t)) : Attends fd looked t := by
      obtain rfl : looked = t := by simpa using same
      exact .refl looked
    cases occupant with
    | none => exact nothing wakes
    | some occupant =>
      obtain ⟨ptr, client⟩ := occupant
      have found := (clientAt_run look).2.2 ptr client rfl
      dsimp only at wakes
      split at wakes
      · rename_i waits
        obtain ⟨isBlocked, waiting⟩ := waits
        have blockedOn : looked.BlockedOn client.fd := ⟨slot, client, here, isBlocked, rfl⟩
        unfold tryDeliverStreamData at wakes
        rw [bind_of_ok (loadClient_found found)] at wakes
        cases first : client.minId with
        | none =>
          simp only [isBlocked, waiting, first] at wakes
          exact nothing wakes
        | some minId =>
          simp only [isBlocked, waiting, first] at wakes
          obtain ⟨⟨messages, count⟩, read, reading, afterRead⟩ := bind_eq_ok.mp wakes
          have same : SameServer looked read := Preserves.run _ _ _ reading
          have reads : Attends fd looked read := Preserves.run _ _ _ reading
          have left (isSame : (pure () : M D Unit) read = .ok ((), t)) : Attends fd looked t := by
            obtain rfl : read = t := by simpa using isSame
            exact reads
          dsimp only at afterRead
          cases messages with
          | none => exact left afterRead
          | some messages =>
            dsimp only at afterRead
            split at afterRead
            · obtain ⟨_, sent, sends, woken⟩ := bind_eq_ok.mp afterRead
              obtain ⟨client', found', rfl⟩ := updateClient_eq_ok.mp woken
              obtain rfl := send_run sends
              have foundBefore : looked.heap ptr = some client' := same.heap ▸ found'
              obtain rfl : client = client' := Option.some.inj (found.symm.trans foundBefore)
              have sent : ((read.emit client.fd (wrapXreadResponse key messages count)).setClient ptr
                  client.delivered).sent = looked.sent ++ [(client.fd, wrapXreadResponse key messages count)] := by
                change read.sent ++ _ = _
                rw [same.sent]
              refine .of_update client.delivered found rfl (.inr isBlocked) same.clients reads.activeFds ?_
                reads.counters sent ?_
              · change Function.update read.heap ptr _ = _
                rw [same.heap]
                rfl
              · intro message member
                rw [List.mem_singleton.mp member]
                exact .inr blockedOn
            · exact left afterRead
      · exact nothing wakes

instance attends_handleXadd : Preserves (Attends fd) (handleSet req .stream fd : M D Unit) := by
  unfold handleSet
  split
  · infer_instance
  · unfold handleSetStream
    have opens (key : Bytes) : Preserves (Attends fd) (withPayload key asStream (pure ⟨[], none, 0, 0, 0⟩) pure : M D Stream) :=
      preserves_payload inferInstance inferInstance inferInstance
    refine .bind inferInstance fun key => .bind inferInstance fun stream => .bind inferInstance fun id =>
      .bind inferInstance fun errorMsg => ?_
    cases errorMsg with
    | some errorResp => exact attends_sendUnlessMaster _
    | none =>
      refine .bind inferInstance fun entryId => .bind inferInstance fun pair => ?_
      refine .bind inferInstance fun _ => .bind ?_ fun _ => inferInstance
      unfold sendEntryId
      infer_instance

variable [Externals D]

theorem arm_attends (isWrite : isWriteCmd req.command = true) (run : arm req ptr client w = .ok ((), t)) :
    Attends client.fd w t := by
  unfold arm at run
  cases command : req.command <;> simp only [command] at run isWrite
  case set => exact attends_handleSet.run _ _ _ run
  case incr => exact attends_handleIncr.run _ _ _ run
  case lpush => exact attends_handleLpush.run _ _ _ run
  case rpush => exact handleRpush_attends run
  case lpop => exact attends_handleLpop.run _ _ _ run
  case xadd => exact attends_handleXadd.run _ _ _ run
  case del | append | expire | decr | sadd | srem | hset | hdel | rpop =>
    obtain rfl : w = t := by simpa using run
    exact .refl w
  all_goals simp [isWriteCmd] at isWrite

/-! ## A write command -/

omit [Externals D] in
theorem attends_markAll (w : World D) (watchers : ClientsWatch) : Attends fd w (w.markAll watchers) where
  clients := rfl
  activeFds := rfl
  free ptr missing := by simp [World.markAll, missing]
  heap ptr client found := by
    by_cases listed : some ptr ∈ watchers
    · exact ⟨{ client with isDirty := true }, by simp [World.markAll, listed, found], rfl, .inl rfl⟩
    · exact ⟨client, by simp [World.markAll, listed, found], rfl, .inl rfl⟩
  counters := rfl
  sent := ⟨[], (List.append_nil _).symm, by simp⟩

instance attends_notifyFirst : Preserves (Attends fd) (notifyFirst req : M D Unit) where
  run w _ t run := by
    obtain ⟨key, read, reads, notifies⟩ := bind_eq_ok.mp run
    obtain ⟨_, rfl⟩ := arg_ok.mp reads
    obtain ⟨bucket, _, rfl⟩ := notifyWatchers_run notifies
    exact attends_markAll read _

instance attends_writeToFile : Preserves (Attends fd) (writeToFile req : M D Unit) := by
  have rename (name : Bytes) : Preserves (Attends fd)
      (setConfig fun server => { server with appendfilename := name } : M D Unit) :=
    ⟨fun w _ t run => by
      obtain rfl : _ = t := by simpa [setConfig_run] using run
      exact .of_quiet rfl rfl rfl rfl rfl⟩
  have append (record : Bytes) : Preserves (Attends fd) (appendAof record : M D Unit) :=
    ⟨fun w _ t run => by
      obtain rfl : _ = t := by simpa [appendAof] using run
      exact .of_quiet rfl rfl rfl rfl rfl⟩
  have record (manifest : Bytes) : Preserves (Attends fd) (recordActiveName manifest : M D Unit) := by
    unfold recordActiveName fault
    cases activeAofName manifest with
    | none => exact preserves_pure _
    | some name => exact preserves_ite
  unfold writeToFile fault
  refine .bind inferInstance fun server => .bind inferInstance fun appendOnly => ?_
  split
  · infer_instance
  · refine .bind inferInstance fun files => ?_
    cases files.manifest with
    | none => exact preserves_fault _
    | some manifest => exact preserves_bind

theorem dispatch_attends (isWrite : isWriteCmd req.command = true) (found : w.heap ptr = some client)
    (run : dispatch req ptr w = .ok ((), t)) : Attends client.fd w t := by
  obtain ⟨client', handled, notified, found', arms, notify, write⟩ := dispatch_parts run
  obtain rfl : client = client' := Option.some.inj (found.symm.trans found')
  have noted : Attends client.fd w (w.noted req) := .of_quiet rfl rfl rfl rfl rfl
  have arm : Attends client.fd (w.noted req) handled := arm_attends isWrite arms
  have notifies : Attends client.fd handled notified := Preserves.run _ _ _ notify
  have writes : Attends client.fd notified t := Preserves.run _ _ _ write
  exact noted.trans (arm.trans (notifies.trans writes))

/-- A command that is queued or refused. -/
theorem handle_attends_unreached (ordinary : isTransactionCmd req.command = false) (unreached : reachesArm client req = false)
    (found : w.heap ptr = some client) (run : handle req ptr w = .ok ((), t)) : Attends client.fd w t := by
  have starts : startsTransaction client req = false := by
    revert ordinary
    cases command : req.command <;> simp [startsTransaction, command, isTransactionCmd]
  cases handle_cases found starts run with
  | queued _ inMulti room =>
    exact .of_update { client with requests := client.requests ++ [copyRequest req] } found rfl (.inl rfl) rfl rfl rfl
      rfl rfl (by simp)
  | refused text reason => exact .emit w text
  | dispatched reaches run => simp [unreached] at reaches
  | opened isCommand | ignored isCommand | watched isCommand | unwatched _ isCommand =>
    simp [isCommand, isTransactionCmd] at ordinary
  | left reply inMulti isEnd =>
    obtain isCommand | ⟨isCommand, _⟩ := isEnd
    all_goals simp [isCommand, isTransactionCmd] at ordinary

/-- A command that is executed. -/
theorem handle_reached (reaches : reachesArm client req = true) (found : w.heap ptr = some client)
    (run : handle req ptr w = .ok ((), t)) : dispatch req ptr w = .ok ((), t) := by
  have starts : startsTransaction client req = false := by
    have ordinary := (reachesArm_eq_true.mp reaches).1
    revert ordinary
    cases command : req.command <;> simp [startsTransaction, command, isTransactionCmd]
  exact (handle_cases found starts run).dispatch_of_reaches reaches

/-- A write command, whether it is executed, queued or refused. -/
theorem handle_attends (isWrite : isWriteCmd req.command = true) (found : w.heap ptr = some client)
    (run : handle req ptr w = .ok ((), t)) : Attends client.fd w t := by
  cases reaches : reachesArm client req with
  | true => exact dispatch_attends isWrite found (handle_reached reaches found run)
  | false =>
    have ordinary : isTransactionCmd req.command = false := by
      revert isWrite
      cases req.command <;> simp [isWriteCmd, isTransactionCmd]
    exact handle_attends_unreached ordinary reaches found run

end Attends

end RedisClone
