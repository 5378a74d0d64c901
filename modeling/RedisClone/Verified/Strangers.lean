import RedisClone.Verified.Confinement
import RedisClone.Verified.OneReply
import RedisClone.Verified.Publishing
import RedisClone.Verified.StreamDeliveries

/-! # A connection that asks for nothing is sent nothing

A client hears of another one's commands where it is blocked, subscribed or a replica.  A client that is none of these
(`Client.Idle`) and sends no request is sent no byte, in every run of the server and whatever the others do
(`strangers_hear_nothing`); `Spares` is what every step does for it.
-/

namespace RedisClone

open Exec CString

variable {D : Type}

/-- The client waits for nothing. -/
structure Client.Idle (client : Client) : Prop where
  isBlocked : client.isBlocked = false
  isBlpop : client.isBlpop = false
  isReplica : client.isReplica = false
  channelCount : client.channelCount = 0

instance (client : Client) : Decidable client.Idle :=
  decidable_of_iff (client.isBlocked = false ∧ client.isBlpop = false ∧ client.isReplica = false ∧ client.channelCount = 0)
    ⟨fun ⟨isBlocked, isBlpop, isReplica, channelCount⟩ => ⟨isBlocked, isBlpop, isReplica, channelCount⟩,
      fun idle => ⟨idle.isBlocked, idle.isBlpop, idle.isReplica, idle.channelCount⟩⟩

/-- What a client changes by its own requests only. -/
def Client.manner (client : Client) : Bool × Bool × Bool × Int :=
  (client.isQueued, client.isSubscribed, client.isMaster, client.replOffset)

/-- The stranger waits for nothing behind its descriptor, and the descriptor stands for nobody else. -/
structure World.Quiet (w : World D) (stranger : ClientPtr) (fd : Int) : Prop where
  idle : ∃ client, w.heap stranger = some client ∧ client.fd = fd ∧ client.Idle
  apart : ∀ ptr client, w.heap ptr = some client → ptr ≠ stranger → client.fd ≠ fd
  polled : ∀ slot ptr, w.clients slot = some ptr → ptr ≠ stranger → (w.watchList slot).fd ≠ fd
  noWait : w.serverConfig.waitClientFd ≠ fd

/-- A stranger that waits for nothing goes on doing so, and is sent nothing. -/
def Spares (stranger : ClientPtr) (fd : Int) (w w' : World D) : Prop :=
  w.Quiet stranger fd → w'.Quiet stranger fd ∧ SilentTo fd w w' ∧
    (w'.heap stranger).map Client.manner = (w.heap stranger).map Client.manner

section Spares

variable {stranger ptr : ClientPtr} {fd other : Int} {w w' w'' t : World D} {req : RespRequest} {client : Client}

/-- Neither the clients nor the connections were changed. -/
theorem Spares.of_same (messages : List (Int × Bytes)) (heap : w'.heap = w.heap) (clients : w'.clients = w.clients)
    (watchList : ∀ slot, (w'.watchList slot).fd = (w.watchList slot).fd)
    (waitClientFd : w'.serverConfig.waitClientFd = w.serverConfig.waitClientFd) (sent : w'.sent = w.sent ++ messages) (elsewhere : w.Quiet stranger fd → ∀ message ∈ messages, message.1 ≠ fd) :
    Spares stranger fd w w' := by
  intro quiet
  refine ⟨⟨heap ▸ quiet.idle, heap ▸ quiet.apart, ?_, waitClientFd ▸ quiet.noWait⟩, ?_, by rw [heap]⟩
  · intro slot ptr inSlot isOther
    rw [watchList]
    exact quiet.polled slot ptr (clients ▸ inSlot) isOther
  · exact .of_append sent fun message member same => absurd same (elsewhere quiet message member)

/-- Nothing was sent either. -/
theorem Spares.of_quiet (heap : w'.heap = w.heap) (clients : w'.clients = w.clients)
    (watchList : ∀ slot, (w'.watchList slot).fd = (w.watchList slot).fd)
    (waitClientFd : w'.serverConfig.waitClientFd = w.serverConfig.waitClientFd) (sent : w'.sent = w.sent) :
    Spares stranger fd w w' :=
  .of_same [] heap clients watchList waitClientFd (by simp [sent]) fun _ _ member => by simp at member

theorem Spares.trans (before : Spares stranger fd w w') (after : Spares stranger fd w' w'') : Spares stranger fd w w'' :=
  fun quiet =>
    have ⟨between, silent, manner⟩ := before quiet
    have ⟨atEnd, silent', manner'⟩ := after between
    ⟨atEnd, silent.trans silent', manner'.trans manner⟩

instance storing_spares : Storing (Spares (D := D) stranger fd) where
  composes := ⟨fun _ => .of_quiet rfl rfl (fun _ => rfl) rfl rfl, Spares.trans⟩
  setBucket _ _ _ := .of_quiet rfl rfl (fun _ => rfl) rfl rfl
  tick _ := .of_quiet rfl rfl (fun _ => rfl) rfl rfl
  takeFresh _ := .of_quiet rfl rfl (fun _ => rfl) rfl rfl

/-- A handler that is confined to another client. -/
theorem Alone.spares (isOther : ptr ≠ stranger) (found : w.heap ptr = some client) (alone : Alone ptr client.fd w w') :
    Spares stranger fd w w' := by
  intro quiet
  obtain ⟨texts, sent⟩ := alone.sent
  have elsewhere : client.fd ≠ fd := quiet.apart ptr client found isOther
  refine ⟨⟨?_, ?_, ?_, alone.waitClientFd ▸ quiet.noWait⟩, ?_, by rw [alone.others stranger (Ne.symm isOther)]⟩
  · rw [alone.others stranger (Ne.symm isOther)]
    exact quiet.idle
  · intro ptr' client' found' isOther'
    by_cases same : ptr' = ptr
    · subst same
      have sameFd := alone.isFd
      rw [found', Option.map_some] at sameFd
      rw [Option.some.inj sameFd]
      exact elsewhere
    · exact quiet.apart ptr' client' (alone.others ptr' same ▸ found') isOther'
  · rw [alone.clients, alone.watchList]
    exact quiet.polled
  · refine .of_append sent fun message member same => ?_
    obtain ⟨text, _, rfl⟩ := List.mem_map.mp member
    exact absurd same elsewhere

/-- A command that answers another client and wakes clients that are blocked. -/
theorem Attends.spares (isOther : ptr ≠ stranger) (found : w.heap ptr = some client) (attends : Attends client.fd w w')
    (accounts : SameAccounts w w') (watchList : w'.watchList = w.watchList) : Spares stranger fd w w' := by
  intro quiet
  obtain ⟨messages, sent, toWhom⟩ := attends.sent
  obtain ⟨idler, inHeap, isFd, idle⟩ := id quiet.idle
  have sameWait : w'.serverConfig.waitClientFd = w.serverConfig.waitClientFd :=
    congrArg (fun counters => counters.record.waitClientFd) attends.counters
  -- a client that is not blocked keeps its standing
  obtain ⟨idler', inHeap', sameFd, sameStanding⟩ := attends.toClientwise.heap stranger idler inHeap
  replace sameStanding := sameStanding.resolve_right (by simp [idle.isBlocked])
  obtain ⟨again, inHeapAgain, _, sameAccount⟩ := accounts.toClientwise.heap stranger idler inHeap
  obtain rfl : idler' = again := Option.some.inj (inHeap'.symm.trans inHeapAgain)
  refine ⟨⟨?_, ?_, ?_, sameWait ▸ quiet.noWait⟩, ?_, ?_⟩
  · exact ⟨idler', inHeap', sameFd.trans isFd, (congrArg Standing.isBlocked sameStanding).trans idle.isBlocked,
      (congrArg Standing.isBlpop sameStanding).trans idle.isBlpop,
      (congrArg Standing.isReplica sameStanding).trans idle.isReplica,
      (congrArg Account.channelCount sameAccount).trans idle.channelCount⟩
  · intro ptr' client' found' isOther'
    obtain ⟨before, foundBefore, sameFd, _⟩ := attends.toClientwise.back found'
    rw [sameFd]
    exact quiet.apart ptr' before foundBefore isOther'
  · rw [attends.clients, watchList]
    exact quiet.polled
  · refine .of_append sent fun message member same => ?_
    obtain toSender | ⟨slot, blocked, occupied, isBlocked, blockedFd⟩ := toWhom message member
    · exact absurd (toSender.symm.trans same) (quiet.apart ptr client found isOther)
    · obtain ⟨ptr', inSlot, found'⟩ := Option.bind_eq_some_iff.mp occupied
      by_cases isStranger : ptr' = stranger
      · subst isStranger
        obtain rfl : idler = blocked := Option.some.inj (inHeap.symm.trans found')
        simp [idle.isBlocked] at isBlocked
      · exact absurd (blockedFd.trans same) (quiet.apart ptr' blocked found' isStranger)
  · have sameManner : idler'.manner = idler.manner :=
      congrArg (fun standing => (standing.isQueued, standing.isSubscribed, standing.isMaster, standing.replOffset)) sameStanding
    rw [inHeap', inHeap, Option.map_some, Option.map_some, sameManner]

/-! ## Computations that look at every client -/

theorem spares_send (elsewhere : other ≠ fd) (bytes : Bytes) : Preserves (Spares stranger fd) (send other bytes : M D Unit) where
  run w _ t run := by
    rw [send_run run]
    refine .of_same [(other, bytes)] rfl rfl (fun _ => rfl) rfl rfl fun _ message member => ?_
    rwa [List.mem_singleton.mp member]

theorem spares_setConfig {f : RedisConfig → RedisConfig}
    (elsewhere : ∀ server, server.waitClientFd ≠ fd → (f server).waitClientFd ≠ fd) :
    Preserves (Spares stranger fd) (setConfig f : M D Unit) where
  run w _ t run := by
    obtain rfl : w.configure f = t := by simpa [setConfig_run] using run
    exact fun quiet => ⟨⟨quiet.idle, quiet.apart, quiet.polled, elsewhere _ quiet.noWait⟩, rfl, rfl⟩

/-- A client is changed in nothing that it could wait for. -/
theorem spares_updateClient {f : Client → Client} (sameFd : ∀ client, (f client).fd = client.fd)
    (idle : ptr = stranger → ∀ client : Client, client.Idle → (f client).Idle ∧ (f client).manner = client.manner) :
    Preserves (Spares stranger fd) (updateClient ptr f : M D Unit) where
  run w _ t run := by
    obtain ⟨client, found, rfl⟩ := updateClient_eq_ok.mp run
    intro quiet
    -- the stranger may be the changed client, or any other
    have sameHeap {other : ClientPtr} (isOther : other ≠ ptr) : (w.setClient ptr (f client)).heap other = w.heap other :=
      Function.update_of_ne isOther _ _
    have changed : (w.setClient ptr (f client)).heap ptr = some (f client) := Function.update_self _ _ _
    obtain ⟨idler, inHeap, isFd, isIdle⟩ := quiet.idle
    refine ⟨⟨?_, ?_, quiet.polled, quiet.noWait⟩, rfl, ?_⟩
    · by_cases isStranger : ptr = stranger
      · subst isStranger
        obtain rfl : client = idler := Option.some.inj (found.symm.trans inHeap)
        exact ⟨f client, changed, (sameFd client).trans isFd, (idle rfl client isIdle).1⟩
      · exact ⟨idler, (sameHeap (Ne.symm isStranger)).trans inHeap, isFd, isIdle⟩
    · intro ptr' client' found' isOther
      by_cases same : ptr' = ptr
      · subst same
        obtain rfl : f client = client' := Option.some.inj (changed.symm.trans found')
        rw [sameFd]
        exact quiet.apart ptr' client found isOther
      · exact quiet.apart ptr' client' (sameHeap same ▸ found') isOther
    · by_cases isStranger : ptr = stranger
      · subst isStranger
        obtain rfl : client = idler := Option.some.inj (found.symm.trans inHeap)
        rw [changed, found, Option.map_some, Option.map_some, (idle rfl client isIdle).2]
      · rw [sameHeap (Ne.symm isStranger)]

/-- The client in a slot is the stranger, which is idle, or has another descriptor. -/
theorem spares_clientAt {α : Type} {slot : ClientSlot} {f : Option (ClientPtr × Client) → M D α}
    (empty : Preserves (Spares stranger fd) (f none))
    (ofStranger : ∀ client : Client, client.fd = fd → client.Idle → Preserves (Spares stranger fd) (f (some (stranger, client))))
    (ofOther : ∀ ptr client, ptr ≠ stranger → client.fd ≠ fd → Preserves (Spares stranger fd) (f (some (ptr, client)))) :
    Preserves (Spares stranger fd) (clientAt slot >>= f) where
  run w a t run quiet := by
    obtain ⟨occupant, looked, look, rest⟩ := bind_eq_ok.mp run
    obtain ⟨rfl, inSlot, found⟩ := clientAt_run look
    cases occupant with
    | none => exact empty.run _ a t rest quiet
    | some occupant =>
      obtain ⟨ptr, client⟩ := occupant
      have inHeap := found ptr client rfl
      by_cases isStranger : ptr = stranger
      · subst isStranger
        obtain ⟨idler, inHeap', isFd, idle⟩ := id quiet.idle
        obtain rfl : client = idler := Option.some.inj (inHeap.symm.trans inHeap')
        exact (ofStranger client isFd idle).run _ a t rest quiet
      · exact (ofOther ptr client isStranger (quiet.apart ptr client inHeap isStranger)).run _ a t rest quiet

/-- A request for the offset goes to replicas. -/
instance spares_askReplica (slot : ClientSlot) : Preserves (Spares stranger fd) (askReplica slot : M D Unit) := by
  unfold askReplica
  refine spares_clientAt (preserves_pure ()) (fun client _ idle => ?_) fun ptr client _ elsewhere => ?_
  · dsimp only
    rw [if_neg (by simp [idle.isReplica])]
    exact preserves_pure ()
  · have sends : Preserves (Spares stranger fd) (send client.fd getackRequest : M D Unit) := spares_send elsewhere _
    dsimp only
    infer_instance

instance spares_countReplicas (slots : List ClientSlot) (count : Nat) :
    Preserves (Spares stranger fd) (countReplicas slots count : M D Nat) where
  run w _ t run := by
    obtain ⟨rfl, _⟩ := countReplicas_ok run
    exact .of_quiet rfl rfl (fun _ => rfl) rfl rfl

/-- The client that WAIT blocks has the descriptor of its sender. -/
theorem spares_markWaiting (elsewhere : other ≠ fd) (ms : Int) (slots : List ClientSlot) :
    Preserves (Spares stranger fd) (markWaiting other ms slots : M D Unit) := by
  induction slots with
  | nil => exact preserves_pure ()
  | cons slot slots inductionHypothesis =>
    unfold markWaiting
    refine spares_clientAt inductionHypothesis (fun client isFd _ => ?_) fun ptr client isOther _ => ?_
    · dsimp only
      rw [if_neg (by rw [isFd]; exact Ne.symm elsewhere)]
      exact inductionHypothesis
    · have blocks (timeoutAt : Int) : Preserves (Spares stranger fd) (updateClient ptr fun client =>
          { client with isWaiting := true, isBlocked := true, timeoutAt := timeoutAt } : M D Unit) :=
        spares_updateClient (fun _ => rfl) fun isStranger => absurd isStranger isOther
      have deadline : Preserves (Spares stranger fd) (timeoutAfter ms : M D Int) := by
        unfold timeoutAfter fault
        infer_instance
      dsimp only
      infer_instance

theorem spares_handleWait (elsewhere : other ≠ fd) : Preserves (Spares stranger fd) (handleWait req other : M D Unit) := by
  have captures : Preserves (Spares stranger fd) (setConfig fun server =>
      { server with capturedMasterOffset := server.masterReplOffset } : M D Unit) :=
    spares_setConfig fun _ => id
  have wants (wanted : Int) : Preserves (Spares stranger fd) (setConfig fun server =>
      { server with wantedReplicas := wanted } : M D Unit) :=
    spares_setConfig fun _ => id
  have waits : Preserves (Spares stranger fd) (setConfig fun server =>
      { server with waitClientFd := other } : M D Unit) :=
    spares_setConfig fun _ _ => elsewhere
  have sends (bytes : Bytes) : Preserves (Spares stranger fd) (send other bytes : M D Unit) := spares_send elsewhere bytes
  have marks (ms : Int) (slots : List ClientSlot) : Preserves (Spares stranger fd) (markWaiting other ms slots : M D Unit) :=
    spares_markWaiting elsewhere ms slots
  unfold handleWait
  refine .bind inferInstance fun _ => .bind inferInstance fun wanted => .bind inferInstance fun ms => ?_
  refine .bind inferInstance fun _ => .bind inferInstance fun count => ?_
  exact preserves_ite

/-- A client without channels takes no message. -/
theorem spares_handlePublish (elsewhere : other ≠ fd) :
    Preserves (Spares stranger fd) (handlePublish req other : M D Unit) := by
  have delivers {client : Client} (isOther : client.fd ≠ fd) (channel message : Bytes) (subed : List (Option Bytes)) :
      Preserves (Spares stranger fd) (publishTo client.fd channel message subed : M D Nat) := by
    induction subed with
    | nil => exact preserves_pure 0
    | cons slot subed inductionHypothesis =>
      cases slot with
      | none => exact preserves_fault _
      | some name =>
        have sends (bytes : Bytes) : Preserves (Spares stranger fd) (send client.fd bytes : M D Unit) :=
          spares_send isOther bytes
        unfold publishTo sendText
        infer_instance
  have publishes (channel message : Bytes) (slots : List ClientSlot) (count : Nat) :
      Preserves (Spares stranger fd) (publishAll channel message slots count : M D Nat) := by
    induction slots generalizing count with
    | nil => exact preserves_pure count
    | cons slot slots inductionHypothesis =>
      unfold publishAll
      refine spares_clientAt (inductionHypothesis count) (fun client _ idle => ?_) fun ptr client _ isOther => ?_
      · dsimp only
        rw [idle.channelCount, List.take_zero]
        exact .bind (preserves_pure 0) fun delivered => inductionHypothesis _
      · exact .bind (delivers isOther _ _ _) fun delivered => inductionHypothesis _
  have sends (bytes : Bytes) : Preserves (Spares stranger fd) (send other bytes : M D Unit) := spares_send elsewhere bytes
  unfold handlePublish sendText
  infer_instance

/-! ## What follows an arm -/

instance spares_notifyFirst : Preserves (Spares stranger fd) (notifyFirst req : M D Unit) := by
  have marks (listed : Option ClientPtr) : Preserves (Spares stranger fd) (markDirty listed : M D Unit) := by
    cases listed with
    | none => exact preserves_pure ()
    | some ptr =>
      exact spares_updateClient (fun _ => rfl) fun _ client idle =>
        ⟨⟨idle.isBlocked, idle.isBlpop, idle.isReplica, idle.channelCount⟩, rfl⟩
  unfold notifyFirst notifyWatchers watchersOf
  infer_instance

instance spares_writeToFile : Preserves (Spares stranger fd) (writeToFile req : M D Unit) := by
  have rename (name : Bytes) : Preserves (Spares stranger fd)
      (setConfig fun server => { server with appendfilename := name } : M D Unit) :=
    spares_setConfig fun _ => id
  have append (record : Bytes) : Preserves (Spares stranger fd) (appendAof record : M D Unit) :=
    ⟨fun w _ t run => by
      obtain rfl : _ = t := by simpa [appendAof] using run
      exact .of_quiet rfl rfl (fun _ => rfl) rfl rfl⟩
  have record (manifest : Bytes) : Preserves (Spares stranger fd) (recordActiveName manifest : M D Unit) := by
    unfold recordActiveName fault
    cases activeAofName manifest with
    | none => exact preserves_pure _
    | some name => exact preserves_ite
  unfold writeToFile fault
  refine .bind inferInstance fun server => .bind inferInstance fun appendOnly => ?_
  split
  · infer_instance
  · refine .bind inferInstance fun files => ?_
    cases files.manifest with
    | none => exact preserves_fault _
    | some manifest => exact preserves_bind

/-- A write command is sent to replicas. -/
instance spares_passDataToReplica : Preserves (Spares stranger fd) (passDataToReplica req : M D Unit) := by
  have passes (slot : ClientSlot) : Preserves (Spares stranger fd) (passTo req slot : M D Unit) := by
    unfold passTo
    refine spares_clientAt (preserves_pure ()) (fun client _ idle => ?_) fun ptr client _ elsewhere => ?_
    · dsimp only
      rw [if_neg (by simp [idle.isReplica])]
      exact preserves_pure ()
    · have sends (bytes : Bytes) : Preserves (Spares stranger fd) (send client.fd bytes : M D Unit) :=
        spares_send elsewhere bytes
      have notes : Preserves (Spares stranger fd) (notePassed ptr req : M D Unit) :=
        ⟨fun w _ t run => by
          obtain rfl : _ = t := by simpa [notePassed] using run
          exact .of_quiet rfl rfl (fun _ => rfl) rfl rfl⟩
      unfold copyRequestToBuffer Buffer.sendPrefix fault
      dsimp only
      infer_instance
  unfold passDataToReplica
  infer_instance

instance spares_propagate (ptr : ClientPtr) (call : Call) :
    Preserves (Spares stranger fd) (propagate ptr call : M D Unit) := by
  have counts (f : RedisConfig → RedisConfig) (same : ∀ server, (f server).waitClientFd = server.waitClientFd) :
      Preserves (Spares stranger fd) (setConfig f : M D Unit) :=
    spares_setConfig fun server elsewhere => same server ▸ elsewhere
  have atReplica := counts (fun server => { server with slaveReplOffset := server.slaveReplOffset + call.length }) fun _ => rfl
  have atMaster := counts (fun server => { server with masterReplOffset := server.masterReplOffset + call.length }) fun _ => rfl
  unfold propagate
  infer_instance

/-! ## The commands of the others -/

/-- What is confined to another client. -/
theorem spares_of_confined {x : M D Unit} (isOther : ptr ≠ stranger) (found : w.heap ptr = some client)
    [confined : Preserves (Confined ptr client.fd) x] (run : x w = .ok ((), t)) : Spares stranger fd w t :=
  (confined.run _ _ _ run (by rw [found]; rfl)).spares isOther found

section Commands

variable [Externals D]

theorem watchList_arm (run : arm req ptr client w = .ok ((), t)) : t.watchList = w.watchList :=
  (obeysAt_arm ambient_sameWatchList (.inl trivial) (.inl trivial) (fun _ _ _ _ _ _ _ => rfl)
    fun _ => ⟨fun _ _ _ _ _ _ => rfl, fun _ _ _ => rfl⟩).1 () t run

theorem spares_arm (isOther : ptr ≠ stranger) (found : w.heap ptr = some client)
    (run : arm req ptr client w = .ok ((), t)) : Spares stranger fd w t := by
  intro quiet
  have elsewhere : client.fd ≠ fd := quiet.apart ptr client found isOther
  cases concerns : concernsOthers req.command with
  | false => exact (arm_confined concerns found run).spares isOther found quiet
  | true =>
    cases command : req.command with
    | rpush | xadd =>
      have attends := arm_attends (by simp [command, isWriteCmd]) run
      have accounts := arm_accounts (by simp [command, isAccountCmd]) run
      exact attends.spares isOther found accounts (watchList_arm run) quiet
    | publish =>
      simp only [arm, command] at run
      exact (spares_handlePublish elsewhere).run _ _ _ run quiet
    | wait =>
      simp only [arm, command] at run
      exact (spares_handleWait elsewhere).run _ _ _ run quiet
    | _ => simp [command, concernsOthers] at concerns

theorem spares_dispatch (isOther : ptr ≠ stranger) (run : dispatch req ptr w = .ok ((), t)) : Spares stranger fd w t := by
  obtain ⟨client, handled, notified, found, arms, notify, write⟩ := dispatch_parts run
  have marks : Preserves (Spares stranger fd) (onlyIf (notifies req.command) (notifyFirst req) : M D Unit) := preserves_ite
  have logs : Preserves (Spares stranger fd) (onlyIf (logs req.command) (writeToFile req) : M D Unit) := preserves_ite
  have noted : Spares stranger fd w (w.noted req) := .of_quiet rfl rfl (fun _ => rfl) rfl rfl
  have armed : Spares stranger fd (w.noted req) handled := spares_arm isOther found arms
  exact noted.trans (armed.trans ((marks.run _ _ _ notify).trans (logs.run _ _ _ write)))

theorem spares_handleCommand (isOther : ptr ≠ stranger) (run : handleCommand req ptr w = .ok ((), t)) :
    Spares stranger fd w t := by
  unfold handleCommand at run
  obtain ⟨client, loaded, load, rest⟩ := bind_eq_ok.mp run
  obtain ⟨found, rfl⟩ := loadClient_eq_ok.mp load
  split at rest
  · exact spares_of_confined isOther found rest
  · exact spares_dispatch isOther rest

/-- `handle` for another client, over a `handle_exec` that spares the stranger. -/
theorem spares_handleWith (isOther : ptr ≠ stranger) {exec : ClientPtr → M D Unit}
    (executes : Preserves (Spares stranger fd) (exec ptr)) (req : RespRequest) :
    Preserves (Spares stranger fd) (handleWith exec req ptr) where
  run w _ t run := by
    unfold handleWith at run
    obtain ⟨client, loaded, load, rest⟩ := bind_eq_ok.mp run
    obtain ⟨found, rfl⟩ := loadClient_eq_ok.mp load
    split at rest
    · exact spares_of_confined isOther found rest
    · cases command : req.command <;> simp only [command] at rest
      case multi | discard | watch | unwatch => exact spares_of_confined isOther found rest
      case exec => exact executes.run _ _ _ rest
      all_goals exact spares_handleCommand isOther rest

omit [Externals D] in
theorem spares_handleExec (isOther : ptr ≠ stranger) {handle : RespRequest → ClientPtr → M D Unit}
    (handles : ∀ req, Preserves (Spares stranger fd) (handle req ptr)) :
    Preserves (Spares stranger fd) (handleExec handle ptr) where
  run w _ t run := by
    unfold handleExec at run
    obtain ⟨client, loaded, load, rest⟩ := bind_eq_ok.mp run
    obtain ⟨found, rfl⟩ := loadClient_eq_ok.mp load
    intro quiet
    have elsewhere : client.fd ≠ fd := quiet.apart ptr client found isOther
    have sends (bytes : Bytes) : Preserves (Spares stranger fd) (send client.fd bytes : M D Unit) :=
      spares_send elsewhere bytes
    have clears : Preserves (Spares stranger fd) (clearQueued ptr : M D Unit) :=
      spares_updateClient (fun _ => rfl) fun isStranger => absurd isStranger isOther
    split at rest
    · exact (sends _).run _ _ _ rest quiet
    · split at rest
      · -- an EXEC that is refused concerns its sender alone
        have leaves : Preserves (Confined ptr client.fd) (updateClient ptr fun client =>
            { client with isQueued := false, requests := [] } : M D Unit) :=
          confined_updateClient fun _ => rfl
        exact spares_of_confined isOther found rest quiet
      · have takes : Preserves (Spares stranger fd) (updateClient ptr fun client =>
            { client with requests := [] } : M D Unit) :=
          spares_updateClient (fun _ => rfl) fun isStranger => absurd isStranger isOther
        have executes (req : RespRequest) : Preserves (Spares stranger fd) (execCommand handle ptr req) := by
          unfold execCommand
          infer_instance
        have all : Preserves (Spares stranger fd) (do
            send client.fd (arrayHeader client.requests.length)
            updateClient ptr fun client => { client with requests := [] }
            forM client.requests (execCommand handle ptr)
            clearQueued ptr) := inferInstance
        exact all.run _ _ _ rest quiet

theorem spares_handle (isOther : ptr ≠ stranger) (req : RespRequest) :
    Preserves (Spares stranger fd) (handle req ptr : M D Unit) := by
  -- `handle` and `handle_exec` call each other, and the calls end here
  have outer : Preserves (Spares stranger fd) (execWithoutMulti ptr : M D Unit) :=
    spares_handleExec isOther fun _ => preserves_pure ()
  exact spares_handleWith isOther (spares_handleExec isOther (spares_handleWith isOther outer)) req

end Commands

/-! ## The rest of the loop -/

theorem Spares.emit (stranger : ClientPtr) (w : World D) (elsewhere : other ≠ fd) (bytes : Bytes) :
    Spares stranger fd w (w.emit other bytes) :=
  (spares_send elsewhere bytes).run w () _ rfl

/-- Another client was changed. -/
theorem Spares.setClient {client' : Client} (isOther : ptr ≠ stranger) (found : w.heap ptr = some client)
    (sameFd : client'.fd = client.fd) : Spares stranger fd w (w.setClient ptr client') := by
  have changes : Preserves (Spares stranger fd) (updateClient ptr fun before => { client' with fd := before.fd } : M D Unit) :=
    spares_updateClient (fun _ => rfl) fun isStranger => absurd isStranger isOther
  have run := changes.run w () _ (updateClient_found found)
  rwa [show { client' with fd := client.fd } = client' from sameFd ▸ rfl] at run

/-- A client that is not blocked has no deadline. -/
instance spares_expireClient (now : Int) (slot : ClientSlot) :
    Preserves (Spares stranger fd) (expireClient now slot : M D Unit) where
  run w _ t run := by
    obtain ⟨_, expired, expires, rest⟩ := bind_eq_ok.mp run
    rw [bind_of_ok (observe_run _ expired)] at rest
    intro quiet
    obtain ⟨idler, inHeap, isFd, idle⟩ := id quiet.idle
    -- a client that is not blocked is due in neither of the two
    have first : Spares stranger fd w expired := by
      obtain ⟨rfl, _⟩ | ⟨ptr, client, inSlot, found, due, rfl⟩ := expireXread_ok expires
      · exact .of_quiet rfl rfl (fun _ => rfl) rfl rfl
      · have isOther : ptr ≠ stranger := by
          rintro rfl
          obtain rfl : idler = client := Option.some.inj (inHeap.symm.trans found)
          simp [Client.dueXread, idle.isBlocked] at due
        exact (Spares.emit stranger w (quiet.polled slot ptr inSlot isOther) nilArray).trans (.setClient isOther found rfl)
    refine first.trans (fun quiet => ?_) quiet
    obtain ⟨idler, inHeap, isFd, idle⟩ := id quiet.idle
    obtain ⟨rfl, _⟩ | ⟨ptr, client, key, inSlot, found, due, waits, rfl⟩ := handleEndblpop_ok rest
    · exact Spares.of_quiet rfl rfl (fun _ => rfl) rfl rfl quiet
    · have isOther : ptr ≠ stranger := by
        rintro rfl
        obtain rfl : idler = client := Option.some.inj (inHeap.symm.trans found)
        simp [Client.dueBlpop, idle.isBlpop] at due
      have ticked : Spares stranger fd expired expired.tick := .of_quiet rfl rfl (fun _ => rfl) rfl rfl
      have replied := Spares.emit stranger expired.tick (quiet.apart ptr client found isOther)
        (expiryReply expired.table key)
      exact (ticked.trans replied).trans (.setClient isOther found rfl) quiet

/-- The descriptor of WAIT is another one. -/
theorem spares_config {α : Type} {f : RedisConfig → M D α}
    (each : ∀ server : RedisConfig, server.waitClientFd ≠ fd → Preserves (Spares stranger fd) (f server)) :
    Preserves (Spares stranger fd) (config >>= f) where
  run w a t run quiet := by
    rw [bind_of_ok (show config w = .ok (w.serverConfig, w) from rfl)] at run
    exact (each _ quiet.noWait).run w a t run quiet

/-- The end of a WAIT answers its client, and leaves a client that is not blocked as it is. -/
theorem spares_completeWait (valid : fd ≠ -1) (now : Int) : Preserves (Spares stranger fd) (completeWait now : M D Unit) := by
  have ends (slot : ClientSlot) : Preserves (Spares stranger fd) (endWait slot : M D Unit) := by
    have leaves (ptr : ClientPtr) (waitClientFd : Int) : Preserves (Spares stranger fd) (updateClient ptr fun client =>
        { client with
          isBlocked := if client.fd = waitClientFd then false else client.isBlocked
          isWaiting := false } : M D Unit) :=
      spares_updateClient (fun _ => rfl) fun _ client idle =>
        ⟨⟨by simp [idle.isBlocked], idle.isBlpop, idle.isReplica, idle.channelCount⟩, rfl⟩
    unfold endWait
    exact spares_clientAt (preserves_fault _) (fun _ _ _ => .bind inferInstance fun server => leaves _ _)
      fun _ _ _ _ => .bind inferInstance fun server => leaves _ _
  have looks (slots : List ClientSlot) (timedOut : Bool) :
      Preserves (Spares stranger fd) (waitTimedOut now slots timedOut : M D Bool) :=
    ⟨fun w _ t run => (waitTimedOut_ok run).1 ▸ .of_quiet rfl rfl (fun _ => rfl) rfl rfl⟩
  have resets : Preserves (Spares stranger fd) (setConfig fun server => { server with waitClientFd := -1 } : M D Unit) :=
    spares_setConfig fun _ _ => Ne.symm valid
  unfold completeWait activeSlots
  refine spares_config fun server elsewhere => ?_
  have sends (bytes : Bytes) : Preserves (Spares stranger fd) (send server.waitClientFd bytes : M D Unit) :=
    spares_send elsewhere bytes
  infer_instance

theorem spares_runTimers (valid : fd ≠ -1) : Preserves (Spares stranger fd) (runTimers : M D Unit) := by
  have completes (now : Int) : Preserves (Spares stranger fd) (completeWait now : M D Unit) := spares_completeWait valid now
  unfold runTimers activeSlots
  infer_instance

theorem spares_setReady (ready : ClientSlot → Bool) : Preserves (Spares stranger fd) (setReady ready : M D Unit) where
  run w _ t run := by
    simp only [setReady, alter_run, Except.ok.injEq, Prod.mk.injEq, true_and] at run
    obtain rfl := run
    refine .of_quiet rfl rfl (fun slot => ?_) rfl rfl
    dsimp only
    split <;> rfl

/-- A new connection has another block and another descriptor. -/
theorem Spares.accept (w : World D) {slot : ClientSlot} (isOther : ptr ≠ stranger) (elsewhere : other ≠ fd) :
    Spares stranger fd w (w.accept slot other ptr) := by
  intro quiet
  obtain ⟨idler, inHeap, isFd, idle⟩ := id quiet.idle
  have kept : (w.accept slot other ptr).heap stranger = w.heap stranger := Function.update_of_ne (Ne.symm isOther) _ _
  refine ⟨⟨⟨idler, kept.trans inHeap, isFd, idle⟩, ?_, ?_, quiet.noWait⟩, rfl, by rw [kept]⟩
  · intro ptr' client found isOther'
    by_cases isNew : ptr' = ptr
    · subst isNew
      rw [show (w.accept slot other ptr').heap ptr' = some (newClient other) from Function.update_self _ _ _] at found
      obtain rfl := Option.some.inj found
      exact elsewhere
    · exact quiet.apart ptr' client ((Function.update_of_ne isNew _ _).symm.trans found) isOther'
  · intro slot' ptr' inSlot isOther'
    simp only [World.accept] at inSlot ⊢
    by_cases isNew : slot' = slot
    · subst isNew
      rw [Function.update_self]
      exact elsewhere
    · rw [Function.update_of_ne isNew] at inSlot ⊢
      exact quiet.polled slot' ptr' inSlot isOther'

/-- The connection of another client ended. -/
theorem Spares.drop (w : World D) {slot last : ClientSlot} (isOther : ptr ≠ stranger) :
    Spares stranger fd w (w.drop slot last ptr) := by
  intro quiet
  obtain ⟨idler, inHeap, isFd, idle⟩ := id quiet.idle
  have kept : (w.drop slot last ptr).heap stranger = w.heap stranger := Function.update_of_ne (Ne.symm isOther) _ _
  refine ⟨⟨⟨idler, kept.trans inHeap, isFd, idle⟩, ?_, ?_, quiet.noWait⟩, rfl, by rw [kept]⟩
  · exact fun ptr' client found => quiet.apart ptr' client (heap_drop found).2
  · intro slot' ptr' inSlot isOther'
    obtain ⟨_, old, inOld, watched, _⟩ := drop_origin inSlot
    rw [watched]
    exact quiet.polled old ptr' inOld isOther'

section Steps

variable [Externals D]

/-- A request of another client. -/
theorem spares_serve {slot : ClientSlot} {call : Call} {running : Option Transaction}
    (isOther : ∀ ptr, w.clients slot = some ptr → ptr ≠ stranger) (run : serve slot call w = .ok (running, t)) :
    Spares stranger fd w t := by
  intro quiet
  unfold serve at run
  rw [bind_of_ok (observe_run _ w)] at run
  cases inSlot : w.clients slot with
  | none => simp [inSlot, fault] at run
  | some ptr =>
    simp only [inSlot] at run
    obtain ⟨client, loaded, load, rest⟩ := bind_eq_ok.mp run
    obtain ⟨found, rfl⟩ := loadClient_eq_ok.mp load
    have notStranger := isOther ptr inSlot
    split at rest
    · rw [map_eq_pure_bind] at rest
      obtain ⟨transaction, begun, begins, ends⟩ := bind_eq_ok.mp rest
      obtain ⟨_, rfl⟩ := Prod.mk.inj (Except.ok.inj ends)
      obtain ⟨_, rfl⟩ := beginTransaction_run found begins
      have replied := Spares.emit stranger loaded (quiet.apart ptr client found notStranger)
        (arrayHeader client.requests.length)
      exact replied.trans (.setClient notStranger found rfl) quiet
    · have handles : Preserves (Spares stranger fd) (handle call.request ptr : M D Unit) := spares_handle notStranger _
      have serves : Preserves (Spares stranger fd) (do
          handle call.request ptr
          propagate ptr call
          pure none : M D (Option Transaction)) := inferInstance
      exact serves.run _ _ _ rest quiet

/-- A command in a transaction of another client, or the end of a transaction. -/
theorem spares_resume {transaction : Transaction} {running : Option Transaction}
    (isOther : transaction.remaining ≠ [] → transaction.ptr ≠ stranger)
    (run : resume transaction w = .ok (running, t)) : Spares stranger fd w t := by
  obtain ⟨ptr, remaining, call⟩ := transaction
  cases remaining with
  | nil =>
    have ends : Preserves (Spares stranger fd) (do propagate ptr call; pure none : M D (Option Transaction)) := inferInstance
    exact ends.run _ _ _ run
  | cons req remaining =>
    have notStranger : ptr ≠ stranger := isOther (by simp)
    have handles : Preserves (Spares stranger fd) (handle req ptr : M D Unit) := spares_handle notStranger _
    have clears : Preserves (Spares stranger fd) (clearQueued ptr : M D Unit) :=
      spares_updateClient (fun _ => rfl) fun isStranger => absurd isStranger notStranger
    have resumes : Preserves (Spares stranger fd) (do
        handle req ptr
        clearQueued ptr
        pure (some ⟨ptr, remaining, call⟩) : M D (Option Transaction)) := inferInstance
    exact resumes.run _ _ _ run

end Steps

end Spares

/-! ## Runs -/

/-- The client whose connection the event ends. -/
def Server.ends (s : Server D) : Event → Option ClientPtr
  | .disconnect slot => s.world.clients slot
  | _ => none

/-- The event is no request of the client and not the end of its connection; `accept` returns a descriptor that is not
in use. -/
def WithoutClient (stranger : ClientPtr) (s : Server D) (event : Event) : Prop :=
  AcceptsUnused s event ∧ (∀ call ∈ s.calls event, call.1 ≠ stranger) ∧ s.ends event ≠ some stranger

instance (stranger : ClientPtr) (s : Server D) (event : Event) : Decidable (WithoutClient stranger s event) :=
  inferInstanceAs (Decidable (_ ∧ (∀ call ∈ s.calls event, _) ∧ _))

/-- Every client has a slot. -/
def World.Housed (w : World D) : Prop := ∀ ptr client, w.heap ptr = some client → ∃ slot, w.clients slot = some ptr

section Runs

variable {w w' : World D} {s t : Server D} {event : Event} {stranger : ClientPtr} {fd : Int}

theorem World.Housed.of_clientwise {related : ClientPtr → Client → Client → Prop} (housed : w.Housed)
    (clientwise : Clientwise related w w') : w'.Housed := by
  intro ptr client found
  obtain ⟨before, foundBefore, _⟩ := clientwise.back found
  rw [clientwise.clients]
  exact housed ptr before foundBefore

theorem World.Housed.seat (housed : w.Housed) {slot : ClientSlot} {ptr : ClientPtr} (client : Client)
    (unused : w.clients slot = none) : (w.seat slot ptr client).Housed := by
  intro other found inHeap
  by_cases isNew : other = ptr
  · exact ⟨slot, isNew ▸ Function.update_self _ _ _⟩
  · obtain ⟨old, inOld⟩ := housed other found ((Function.update_of_ne isNew _ _).symm.trans inHeap)
    have isOld : old ≠ slot := by
      rintro rfl
      simp [unused] at inOld
    exact ⟨old, (Function.update_of_ne isOld _ _).trans inOld⟩

theorem World.Housed.drop (housed : w.Housed) {slot last : ClientSlot} {ptr : ClientPtr} (occupied : w.clients slot = some ptr) :
    (w.drop slot last ptr).Housed := by
  intro other client found
  obtain ⟨kept, before⟩ := heap_drop found
  obtain ⟨old, inOld⟩ := housed other client before
  have elsewhere : old ≠ slot := by
    rintro rfl
    exact kept (Option.some.inj (inOld.symm.trans occupied))
  obtain ⟨new, inNew, _⟩ := drop_moves last ptr inOld elsewhere
  exact ⟨new, inNew⟩

variable [Externals D]

theorem EntersLoop.housed (enters : EntersLoop w) : w.Housed := by
  cases enters with
  | alone nobody => exact fun ptr client found => by simp [nobody.heap] at found
  | joined nobody joins =>
    obtain ⟨_, joined, joining, resets⟩ := bind_eq_ok.mp joins
    obtain rfl : _ = w := by simpa [resetForLoop] using resets
    have both : Connected joined ∧ joined.Housed := by
      apply joinMaster_invariant ?_ ?_ joining
      · intro slot isNext
        refine ⟨nobody.connected.seat isNext (nobody.heap _) fun other occupied => absurd (nobody.clients other) occupied, ?_⟩
        exact World.Housed.seat (fun ptr client found => by simp [nobody.heap] at found) _ (nobody.clients slot)
      · rintro w handled slot sender call ⟨connected, housed⟩ inSlot handles
        have handling := handle_undisturbed (connected.onlyFd inSlot) handles
        have counting : Undisturbed sender handled (handled.counted call) := .of_still (.of_same rfl rfl rfl rfl) rfl
        have both := handling.trans counting
        exact ⟨connected.of_undisturbed both, housed.of_clientwise both.toClientwise⟩
    exact both.2

theorem housed_step (connected : Connected s.world) (outside : OutsideMulti s) (housed : s.world.Housed)
    (step : Step s event t) : t.world.Housed := by
  have reconnects := reconnects_of_step outside step
  generalize t.world = w' at reconnects
  cases reconnects with
  | kept clientwise => exact housed.of_clientwise clientwise
  | connected slot isNext =>
    refine housed.seat (newClient _) (Classical.not_not.mp fun occupied => ?_)
    have inUse := (connected.inUse slot).mp occupied
    omega
  | disconnected last ptr occupied => exact housed.drop occupied

/-- The stranger in its slot, in a server that a run can reach. -/
structure Server.Spared (s : Server D) (stranger : ClientPtr) (fd : Int) : Prop where
  wellSeated : WellSeated s
  housed : s.world.Housed
  quiet : s.world.Quiet stranger fd
  inSlot : ∃ slot, s.world.clients slot = some stranger

omit [Externals D] in
theorem World.Quiet.free (quiet : w.Quiet stranger fd) {ptr : ClientPtr} (free : w.heap ptr = none) : ptr ≠ stranger := by
  rintro rfl
  obtain ⟨client, found, _⟩ := quiet.idle
  simp [free] at found

theorem spares_step (spared : s.Spared stranger fd) (valid : fd ≠ -1) (without : WithoutClient stranger s event)
    (step : Step s event t) : Spares stranger fd s.world t.world := by
  obtain ⟨unused, notCalled, notEnded⟩ := without
  obtain ⟨enabled, acts⟩ := step
  cases event with
  | poll ready =>
    rw [show s.running = none from enabled] at acts
    exact (spares_setReady ready).run _ _ _ (act_unit acts).1
  | timers =>
    rw [show s.running = none from enabled] at acts
    exact (spares_runTimers valid).run _ _ _ (act_unit acts).1
  | connect other ptr =>
    obtain ⟨idle, _, free⟩ := enabled
    rw [idle] at acts
    obtain same | ⟨slot, _, same⟩ := connect_run (act_unit acts).1
    · exact same ▸ .of_quiet rfl rfl (fun _ => rfl) rfl rfl
    · obtain ⟨client, found, isFd, _⟩ := spared.quiet.idle
      obtain ⟨own, inOwn⟩ := spared.inSlot
      have elsewhere : client.fd ≠ other := unused own client (by simp [World.occupant, inOwn, found])
      rw [same]
      exact .accept _ (spared.quiet.free free) (Ne.symm (isFd ▸ elsewhere))
  | disconnect slot =>
    obtain ⟨idle, occupied⟩ := enabled
    rw [idle] at acts
    obtain ⟨ptr, inSlot⟩ := Option.ne_none_iff_exists'.mp occupied
    obtain ⟨last, _, same⟩ := disconnect_run inSlot (act_unit acts).1
    rw [same]
    exact .drop _ fun isStranger => notEnded (inSlot.trans (congrArg some isStranger))
  | request slot call =>
    rw [show s.running = none from enabled] at acts
    refine spares_serve (fun ptr inSlot => ?_) acts
    exact notCalled (ptr, call.request) (by simp [Server.calls, inSlot])
  | proceed =>
    obtain ⟨transaction, running⟩ := Option.ne_none_iff_exists'.mp enabled
    rw [running] at acts
    refine spares_resume (fun remains => ?_) acts
    obtain ⟨req, remaining, isNext⟩ := List.exists_cons_of_ne_nil remains
    exact notCalled (transaction.ptr, req) (by simp [Server.calls, running, isNext])

theorem wellSeated_step (wellSeated : WellSeated s) (unused : AcceptsUnused s event) (step : Step s event t) : WellSeated t :=
  ⟨connected_step wellSeated.connected wellSeated.outside unused step, outsideMulti_step wellSeated.outside step⟩

theorem housed_run {w₀ : World D} (enters : EntersLoop w₀) (reached : Run Step AcceptsUnused ⟨w₀, none⟩ s) :
    WellSeated s ∧ s.world.Housed := by
  apply reached.invariant ?_ (⟨wellSeated_run enters (.refl _), enters.housed⟩ : WellSeated (⟨w₀, none⟩ : Server D) ∧ w₀.Housed)
  intro u event u' ⟨seated, housed⟩ unused step
  exact ⟨wellSeated_step seated unused step, housed_step seated.connected seated.outside housed step⟩

theorem spared_step (spared : s.Spared stranger fd) (valid : fd ≠ -1) (without : WithoutClient stranger s event)
    (step : Step s event t) : t.Spared stranger fd ∧ SilentTo fd s.world t.world ∧
      (t.world.heap stranger).map Client.manner = (s.world.heap stranger).map Client.manner := by
  have wellSeated := wellSeated_step spared.wellSeated without.1 step
  have housed := housed_step spared.wellSeated.connected spared.wellSeated.outside spared.housed step
  obtain ⟨quiet, silent, manner⟩ := spares_step spared valid without step spared.quiet
  obtain ⟨client, found, _⟩ := quiet.idle
  exact ⟨⟨wellSeated, housed, quiet, housed stranger client found⟩, silent, manner⟩

/-- A client of a state that a run reaches, which waits for nothing. -/
theorem spared_of_run {w₀ : World D} {client : Client} (enters : EntersLoop w₀)
    (reached : Run Step AcceptsUnused ⟨w₀, none⟩ s) (found : s.world.heap stranger = some client) (idle : client.Idle)
    (noWait : s.world.serverConfig.waitClientFd ≠ client.fd) : s.Spared stranger client.fd := by
  obtain ⟨wellSeated, housed⟩ := housed_run enters reached
  obtain ⟨own, inOwn⟩ := housed stranger client found
  have only := wellSeated.connected.onlyFd inOwn
  refine ⟨wellSeated, housed, ⟨⟨client, found, rfl, idle⟩, ?_, ?_, noWait⟩, own, inOwn⟩
  · intro ptr other inHeap isOther same
    obtain ⟨slot, inSlot⟩ := housed ptr other inHeap
    exact isOther (only slot ptr other client inSlot inHeap found same)
  · intro slot ptr inSlot isOther same
    obtain ⟨other, inHeap, isFd⟩ := wellSeated.connected.polled slot ptr inSlot
    exact isOther (only slot ptr other client inSlot inHeap found (isFd.trans same))

theorem spared_run (spared : s.Spared stranger fd) (valid : fd ≠ -1) (others : Run Step (WithoutClient stranger) s t) :
    t.Spared stranger fd ∧ SilentTo fd s.world t.world ∧
      (t.world.heap stranger).map Client.manner = (s.world.heap stranger).map Client.manner := by
  apply others.invariant ?_ (⟨spared, rfl, rfl⟩ : s.Spared stranger fd ∧ SilentTo fd s.world s.world ∧
    (s.world.heap stranger).map Client.manner = (s.world.heap stranger).map Client.manner)
  intro u event u' ⟨spared, silent, manner⟩ without step
  obtain ⟨spared', silent', manner'⟩ := spared_step spared valid without step
  exact ⟨spared', silent.trans silent', manner'.trans manner⟩

/-- Whatever the other clients do, for any number of steps: a client that is not blocked, not subscribed and no replica
is sent no byte until it sends a request, and stays such a client. -/
theorem strangers_hear_nothing {w₀ : World D} {client : Client} (enters : EntersLoop w₀)
    (reached : Run Step AcceptsUnused ⟨w₀, none⟩ s) (found : s.world.heap stranger = some client) (idle : client.Idle)
    (valid : 0 ≤ client.fd) (noWait : s.world.serverConfig.waitClientFd ≠ client.fd)
    (others : Run Step (WithoutClient stranger) s t) :
    t.world.bytesTo client.fd = s.world.bytesTo client.fd ∧
      ∃ client', t.world.heap stranger = some client' ∧ client'.fd = client.fd ∧ client'.Idle := by
  obtain ⟨spared, silent, _⟩ := spared_run (spared_of_run enters reached found idle noWait) (by omega) others
  exact ⟨silent, spared.quiet.idle⟩

end Runs

/-- The other client subscribes, runs a transaction, is blocked and disconnects. -/
theorem strangers_hear_nothing_second : ∃ (s t : Server Int) (client : Client), s.world.heap 0 = some client ∧
    Run Step (WithoutClient 0) s t ∧ s.world.bytesTo 6 ≠ t.world.bytesTo 6 ∧
    t.world.bytesTo client.fd = s.world.bytesTo client.fd := by
  have reaches : (play AcceptsUnused idleServer [.connect 5 0, .connect 6 1]).any (fun s =>
      (s.world.heap 0).any (fun client => decide (client.Idle ∧ 0 ≤ client.fd ∧ s.world.serverConfig.waitClientFd ≠ client.fd)) &&
      (play (WithoutClient 0) s [arrival secondSlot [lit "SUBSCRIBE", lit "c"], arrival secondSlot [lit "UNSUBSCRIBE", lit "c"],
        arrival secondSlot [lit "MULTI"], arrival secondSlot [lit "RPUSH", lit "k", lit "a"], arrival secondSlot [lit "EXEC"],
        .proceed, .proceed, arrival secondSlot [lit "BLPOP", lit "l", lit "0"], .timers, .disconnect secondSlot]).any
        fun t => decide (s.world.bytesTo 6 ≠ t.world.bytesTo 6)) = true := by
    decide +kernel
  obtain ⟨s, reached, checked⟩ := exists_run_of_play reaches
  obtain ⟨isIdle, plays⟩ := Bool.and_eq_true_iff.mp checked
  obtain ⟨client, found, isIdle⟩ := (Option.any_eq_true _ _).mp isIdle
  obtain ⟨idle, valid, noWait⟩ := of_decide_eq_true isIdle
  obtain ⟨t, others, answered⟩ := exists_run_of_play plays
  refine ⟨s, t, client, found, others, of_decide_eq_true answered, ?_⟩
  exact (strangers_hear_nothing idleServer_entersLoop reached found idle valid noWait others).1

end RedisClone
