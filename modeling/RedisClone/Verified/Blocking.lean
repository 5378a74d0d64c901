import RedisClone.Verified.Lists
import RedisClone.Verified.Reachable

/-! # What blocks and wakes clients

`Still` is the frame of everything that neither blocks nor wakes a client.  Five commands are outside of it:
RPUSH and BLPOP, whose effects are in `Rpushes` and `Blpops`, WAIT (`Waits`), XREAD, which changes the client
that sends it (`Reads`), and XADD, which wakes readers of its key (`Delivered`).
-/

namespace RedisClone

open Exec CString

variable {D : Type}

/-! ## Frames over the clients -/

/-- Every client stays, with its descriptor, and is related to what it was. -/
structure Clientwise (related : ClientPtr → Client → Client → Prop) (w w' : World D) : Prop where
  clients : w'.clients = w.clients
  activeFds : w'.activeFds = w.activeFds
  free : ∀ ptr, w.heap ptr = none → w'.heap ptr = none
  heap : ∀ ptr client, w.heap ptr = some client →
    ∃ client', w'.heap ptr = some client' ∧ client'.fd = client.fd ∧ related ptr client client'

section Clientwise

variable {related related' : ClientPtr → Client → Client → Prop} {w w' w'' : World D}

theorem Clientwise.of_same (reflexive : ∀ ptr client, related ptr client client)
    (clients : w'.clients = w.clients) (activeFds : w'.activeFds = w.activeFds)
    (heap : w'.heap = w.heap) : Clientwise related w w' where
  clients := clients
  activeFds := activeFds
  free ptr missing := by rw [heap, missing]
  heap ptr client found := ⟨client, by rw [heap, found], rfl, reflexive ptr client⟩

/-- One client was changed. -/
theorem Clientwise.of_update (reflexive : ∀ ptr client, related ptr client client) {ptr : ClientPtr}
    {client : Client} (client' : Client) (found : w.heap ptr = some client) (sameFd : client'.fd = client.fd)
    (holds : related ptr client client') (clients : w'.clients = w.clients)
    (activeFds : w'.activeFds = w.activeFds)
    (heap : w'.heap = Function.update w.heap ptr (some client')) : Clientwise related w w' where
  clients := clients
  activeFds := activeFds
  free other missing := by
    have distinct : other ≠ ptr := by
      rintro rfl
      simp [found] at missing
    rw [heap, Function.update_of_ne distinct, missing]
  heap other old oldFound := by
    by_cases same : other = ptr
    · subst same
      obtain rfl : client = old := Option.some.inj (found.symm.trans oldFound)
      exact ⟨client', by rw [heap, Function.update_self], sameFd, holds⟩
    · exact ⟨old, by rw [heap, Function.update_of_ne same, oldFound], rfl, reflexive other old⟩

theorem Clientwise.trans
    (transitive : ∀ ptr first second third, related ptr first second → related ptr second third →
      related ptr first third)
    (before : Clientwise related w w') (after : Clientwise related w' w'') :
    Clientwise related w w'' where
  clients := after.clients.trans before.clients
  activeFds := after.activeFds.trans before.activeFds
  free ptr missing := after.free ptr (before.free ptr missing)
  heap ptr client found := by
    obtain ⟨client', found', sameFd, holds⟩ := before.heap ptr client found
    obtain ⟨client'', found'', sameFd', holds'⟩ := after.heap ptr client' found'
    exact ⟨client'', found'', sameFd'.trans sameFd, transitive _ _ _ _ holds holds'⟩

theorem Clientwise.mono (weaker : ∀ ptr client client', related ptr client client' →
      related' ptr client client')
    (clientwise : Clientwise related w w') : Clientwise related' w w' where
  clients := clientwise.clients
  activeFds := clientwise.activeFds
  free := clientwise.free
  heap ptr client found := by
    obtain ⟨client', found', sameFd, holds⟩ := clientwise.heap ptr client found
    exact ⟨client', found', sameFd, weaker _ _ _ holds⟩

/-- A client that is there afterwards was there before. -/
theorem Clientwise.back (clientwise : Clientwise related w w') {ptr : ClientPtr} {client' : Client}
    (found' : w'.heap ptr = some client') :
    ∃ client, w.heap ptr = some client ∧ client'.fd = client.fd ∧ related ptr client client' := by
  cases found : w.heap ptr with
  | none => simp [clientwise.free ptr found] at found'
  | some client =>
    obtain ⟨other, foundOther, holds⟩ := clientwise.heap ptr client found
    obtain rfl : other = client' := Option.some.inj (foundOther.symm.trans found')
    exact ⟨client, rfl, holds⟩

end Clientwise

/-- What WAIT records. -/
structure WaitRecord where
  capturedMasterOffset : Int
  wantedReplicas : Int
  waitClientFd : Int
  deriving DecidableEq

def RedisConfig.waitRecord (server : RedisConfig) : WaitRecord :=
  ⟨server.capturedMasterOffset, server.wantedReplicas, server.waitClientFd⟩

/-- Nobody was blocked or woken, and WAIT recorded nothing. -/
structure Still (w w' : World D) : Prop
    extends Clientwise (fun _ => SameBlocking) w w' where
  record : w'.serverConfig.waitRecord = w.serverConfig.waitRecord

theorem sameBlocking_refl (client : Client) : SameBlocking client client := rfl

theorem Still.of_same {w w' : World D} (clients : w'.clients = w.clients)
    (activeFds : w'.activeFds = w.activeFds) (heap : w'.heap = w.heap)
    (record : w'.serverConfig.waitRecord = w.serverConfig.waitRecord) : Still w w' :=
  ⟨.of_same (fun _ => sameBlocking_refl) clients activeFds heap, record⟩

theorem Still.refl (w : World D) : Still w w := .of_same rfl rfl rfl rfl

theorem Still.trans {w w' w'' : World D} (before : Still w w') (after : Still w' w'') : Still w w'' :=
  ⟨before.toClientwise.trans (fun _ _ _ _ first second => second.trans first) after.toClientwise,
    after.record.trans before.record⟩

theorem still_setClient {w : World D} {ptr : ClientPtr} {client : Client} (client' : Client)
    (found : w.heap ptr = some client) (sameFd : client'.fd = client.fd)
    (same : SameBlocking client client') : Still w (w.setClient ptr client') :=
  ⟨.of_update (fun _ => sameBlocking_refl) client' found sameFd same rfl rfl rfl, rfl⟩

theorem SameSession.fd {client client' : Client} (same : SameSession client client') :
    client'.fd = client.fd := by
  simp only [SameSession, Client.session, Session.mk.injEq] at same
  exact same.1

theorem ambient_still : Ambient (Still (D := D)) fun _ => True where
  composes := ⟨Still.refl, Still.trans⟩
  emit _ _ _ := .of_same rfl rfl rfl rfl
  tick _ := .of_same rfl rfl rfl rfl
  takeFresh _ := .of_same rfl rfl rfl rfl
  change _ _ _ client' found session blocking := still_setClient client' found session.fd blocking
  authorize _ _ _ := .of_same rfl rfl rfl rfl
  faults _ _ _ := trivial

theorem mayMark_still : MayMark (Still (D := D)) :=
  fun _ _ _ found => still_setClient _ found rfl rfl

theorem mayLog_still : MayLog (Still (D := D)) where
  rename _ _ := .of_same rfl rfl rfl rfl
  append _ _ := .of_same rfl rfl rfl rfl

theorem mayWrite_still (key : Bytes) : MayWrite (Still (D := D)) key :=
  fun _ _ _ _ => .of_same rfl rfl rfl rfl

/-- What follows an arm blocks and wakes nobody. -/
theorem still_afterArm {req : RespRequest} {w w' w'' : World D} {c c' : Prop} [Decidable c]
    [Decidable c'] (notify : onlyIf c (notifyFirst req) w = .ok ((), w'))
    (write : onlyIf c' (writeToFile req) w' = .ok ((), w'')) : Still w w'' := by
  have notified : Obeys Still (fun _ => True) (onlyIf c (notifyFirst req) : M D Unit) :=
    Obeys.onlyIf ambient_still.composes fun _ =>
      obeys_notifyFirst ambient_still (.inl trivial) mayMark_still
  have logged : Obeys Still (fun _ => True) (onlyIf c' (writeToFile req) : M D Unit) :=
    Obeys.onlyIf ambient_still.composes fun _ => obeys_writeToFile ambient_still mayLog_still
  exact ((notified w).1 () w' notify).trans ((logged w').1 () w'' write)

theorem still_propagate {ptr : ClientPtr} {call : Call} {w w' : World D}
    (run : propagate ptr call w = .ok ((), w')) : Still w w' := by
  obtain ⟨client, loaded, load, rest⟩ := bind_eq_ok.mp run
  obtain ⟨found, rfl⟩ := loadClient_eq_ok.mp load
  by_cases isMaster : client.fd = loaded.serverConfig.masterFd
  · rw [bind_of_ok (show config loaded = .ok (loaded.serverConfig, loaded) from rfl),
      if_pos isMaster] at rest
    simp only [setConfig, alter_run, Except.ok.injEq, Prod.mk.injEq, true_and] at rest
    rw [← rest]
    exact .of_same rfl rfl rfl rfl
  · rw [propagate_run found isMaster run]
    exact .of_same rfl rfl rfl rfl

theorem still_arm [Externals D] {req : RespRequest} {ptr : ClientPtr} {client : Client}
    {w w' : World D} (unblocking : changesBlocking req.command = false)
    (run : arm req ptr client w = .ok ((), w')) : Still w w' :=
  (obeysAt_arm ambient_still (.inl trivial) (.inl trivial) (fun _ key _ => mayWrite_still key)
    (fun blocks => by simp [unblocking] at blocks)).1 () w' run

/-! ## WAIT -/

/-- The client in a slot. -/
def World.occupant (w : World D) (slot : ClientSlot) : Option Client := (w.clients slot).bind w.heap

/-- The number of replicas that acknowledged an offset. -/
def World.acknowledged (w : World D) (offset : Int) : Nat :=
  clientSlots.countP fun slot => (w.occupant slot).any fun client =>
    client.isReplica && decide (offset ≤ client.replOffset)

theorem occupant_of_clientAt {slot : ClientSlot} {occupant : Option (ClientPtr × Client)}
    {w t : World D} (run : clientAt slot w = .ok (occupant, t)) :
    t = w ∧ w.occupant slot = occupant.map Prod.snd := by
  obtain ⟨rfl, inSlot, found⟩ := clientAt_run run
  refine ⟨rfl, ?_⟩
  unfold World.occupant
  rw [inSlot]
  cases occupant with
  | none => rfl
  | some occupant => exact found occupant.1 occupant.2 rfl

theorem countReplicas_ok {slots : List ClientSlot} {count result : Nat} {w t : World D}
    (run : countReplicas slots count w = .ok (result, t)) :
    t = w ∧ result = count + slots.countP fun slot => (w.occupant slot).any fun client =>
      client.isReplica && decide (w.serverConfig.capturedMasterOffset ≤ client.replOffset) := by
  induction slots generalizing count w with
  | nil =>
    simp only [countReplicas, pure_run, Except.ok.injEq, Prod.mk.injEq] at run
    exact ⟨run.2.symm, by simp [run.1]⟩
  | cons slot slots inductionHypothesis =>
    unfold countReplicas at run
    obtain ⟨occupant, looked, look, rest⟩ := bind_eq_ok.mp run
    obtain ⟨rfl, here⟩ := occupant_of_clientAt look
    rw [List.countP_cons, here]
    cases occupant with
    | none =>
      obtain ⟨same, counted⟩ := inductionHypothesis rest
      exact ⟨same, by simp [counted]⟩
    | some occupant =>
      simp only at rest
      rw [bind_of_ok (show config looked = .ok (looked.serverConfig, looked) from rfl)] at rest
      split at rest
      · rename_i acknowledged
        obtain ⟨same, counted⟩ := inductionHypothesis rest
        refine ⟨same, ?_⟩
        simp only [counted, Option.map_some, Option.any_some, acknowledged, decide_true, Bool.and_self,
          if_true]
        omega
      · rename_i behind
        obtain ⟨same, counted⟩ := inductionHypothesis rest
        refine ⟨same, ?_⟩
        have notCounted : ¬ (occupant.2.isReplica && decide
            (looked.serverConfig.capturedMasterOffset ≤ occupant.2.replOffset)) = true := by
          simpa using behind
        simp [counted, notCounted]

/-- What a replica in this slot is asked. -/
def World.askAt (w : World D) (slot : ClientSlot) : Option (Int × Bytes) :=
  (w.occupant slot).bind fun client =>
    if client.isReplica then some (client.fd, getackRequest) else none

/-- The requests for their offset that WAIT sends to the replicas. -/
def World.asks (w : World D) : List (Int × Bytes) := clientSlots.filterMap w.askAt

theorem forM_askReplica_ok {slots : List ClientSlot} {w t : World D}
    (run : forM slots askReplica w = .ok ((), t)) :
    t = { w with sent := w.sent ++ slots.filterMap w.askAt } := by
  induction slots generalizing w with
  | nil =>
    simp only [List.forM_nil, pure_run, Except.ok.injEq, Prod.mk.injEq, true_and] at run
    simp [← run]
  | cons slot slots inductionHypothesis =>
    rw [List.forM_cons] at run
    obtain ⟨_, asked, first, rest⟩ := bind_eq_ok.mp run
    unfold askReplica at first
    obtain ⟨occupant, looked, look, afterLook⟩ := bind_eq_ok.mp first
    obtain ⟨rfl, here⟩ := occupant_of_clientAt look
    have step : asked = { looked with sent := looked.sent ++ (looked.askAt slot).toList } := by
      unfold World.askAt
      rw [here]
      cases occupant with
      | none =>
        simp only [pure_run, Except.ok.injEq, Prod.mk.injEq, true_and] at afterLook
        simp [← afterLook]
      | some occupant =>
        simp only at afterLook
        split at afterLook
        · rename_i isReplica
          rw [send_run afterLook]
          simp [isReplica, World.emit]
        · rename_i notReplica
          simp only [pure_run, Except.ok.injEq, Prod.mk.injEq, true_and] at afterLook
          simp [← afterLook, notReplica]
    have later := inductionHypothesis rest
    rw [step] at later
    rw [later, List.filterMap_cons]
    have same : ({ looked with sent := looked.sent ++ (looked.askAt slot).toList } : World D).askAt =
      looked.askAt := rfl
    rw [same]
    cases looked.askAt slot with
    | none => simp
    | some ask => simp

/-- The client after WAIT blocked it. -/
def Client.waitingUntil (client : Client) (timeoutAt : Int) : Client :=
  { client with isWaiting := true, isBlocked := true, timeoutAt := timeoutAt }

/-- WAIT marked the client in one slot. -/
structure Marks (w : World D) (clientFd : Int) (ptr : ClientPtr) (client : Client) (timeoutAt : Int)
    (w' : World D) : Prop where
  slot : ∃ slot, w.clients slot = some ptr
  found : w.heap ptr = some client
  sameFd : client.fd = clientFd
  keeps : w' = { w with
    clock := w'.clock
    heap := Function.update w.heap ptr (some (client.waitingUntil timeoutAt)) }

theorem timeoutAfter_ok {ms timeoutAt : Int} {w t : World D}
    (run : timeoutAfter ms w = .ok (timeoutAt, t)) : t = { w with clock := t.clock } := by
  unfold timeoutAfter at run
  split at run
  · simp only [pure_run, Except.ok.injEq, Prod.mk.injEq] at run
    rw [← run.2]
  · rw [bind_of_ok (show getCurrentTimeMs w = .ok (w.clock 0, w.tick) from rfl)] at run
    by_cases late : w.clock 0 + ms < -2 ^ 63 ∨ 2 ^ 63 ≤ w.clock 0 + ms
    · rw [if_pos late] at run
      cases run
    · rw [if_neg late, pure_run, Except.ok.injEq, Prod.mk.injEq] at run
      rw [← run.2]
      rfl

theorem markWaiting_ok {clientFd ms : Int} {slots : List ClientSlot} {w t : World D}
    (run : markWaiting clientFd ms slots w = .ok ((), t)) :
    t = w ∧ (∀ slot ∈ slots, ∀ client, w.occupant slot = some client → client.fd ≠ clientFd) ∨
      ∃ ptr client timeoutAt, Marks w clientFd ptr client timeoutAt t := by
  induction slots generalizing w with
  | nil =>
    simp only [markWaiting, pure_run, Except.ok.injEq, Prod.mk.injEq, true_and] at run
    exact .inl ⟨run.symm, by simp⟩
  | cons slot slots inductionHypothesis =>
    unfold markWaiting at run
    obtain ⟨occupant, looked, look, rest⟩ := bind_eq_ok.mp run
    obtain ⟨rfl, here⟩ := occupant_of_clientAt look
    have skip (other : ∀ client, looked.occupant slot = some client → client.fd ≠ clientFd)
        (later : markWaiting clientFd ms slots looked = .ok ((), t)) :
        t = looked ∧ (∀ slot' ∈ slot :: slots, ∀ client, looked.occupant slot' = some client →
          client.fd ≠ clientFd) ∨
          ∃ ptr client timeoutAt, Marks looked clientFd ptr client timeoutAt t := by
      obtain ⟨same, others⟩ | marks := inductionHypothesis later
      · refine .inl ⟨same, fun slot' member => ?_⟩
        obtain rfl | inRest := List.mem_cons.mp member
        · exact other
        · exact others slot' inRest
      · exact .inr marks
    cases occupant with
    | none => exact skip (by simp [here]) rest
    | some occupant =>
      obtain ⟨ptr, client⟩ := occupant
      simp only at rest
      split at rest
      · rename_i sameFd
        obtain ⟨_, inSlot, found⟩ := clientAt_run look
        have inHeap := found ptr client rfl
        obtain ⟨timeoutAt, timed, times, marks⟩ := bind_eq_ok.mp rest
        obtain ⟨clock, rfl⟩ : ∃ clock, timed = { looked with clock } := ⟨_, timeoutAfter_ok times⟩
        obtain ⟨client', found', rfl⟩ := updateClient_eq_ok.mp marks
        obtain rfl : client = client' := Option.some.inj (inHeap.symm.trans found')
        exact .inr ⟨ptr, client, timeoutAt, ⟨slot, inSlot⟩, inHeap, sameFd, rfl⟩
      · rename_i otherFd
        refine skip (fun client' isClient => ?_) rest
        simp only [here, Option.map_some, Option.some.injEq] at isClient
        rwa [← isClient]

/-- The state after WAIT recorded the offset to reach and the number of replicas. -/
def World.recorded (w : World D) (wanted : Int) : World D :=
  w.configure fun server => { server with
    capturedMasterOffset := server.masterReplOffset, wantedReplicas := wanted }

/-- What WAIT leaves. -/
inductive Waits (w : World D) (req : RespRequest) (clientFd : Int) (t : World D) : Prop where
  | answered (wanted : Bytes) (isWanted : req.args[0]? = some wanted)
      (enough : atoi wanted ≤ w.acknowledged w.serverConfig.masterReplOffset)
      (keeps : t = (w.recorded (atoi wanted)).emit clientFd
        (integerReply (w.acknowledged w.serverConfig.masterReplOffset)))
  | pending (wanted : Bytes) (asked : World D) (isWanted : req.args[0]? = some wanted)
      (few : (w.acknowledged w.serverConfig.masterReplOffset : Int) < atoi wanted)
      (asks : asked = { (w.recorded (atoi wanted)).configure (fun server =>
        { server with waitClientFd := clientFd }) with sent := w.sent ++ w.asks })
      (marks : t = asked ∧ (∀ slot client, w.occupant slot = some client → client.fd ≠ clientFd) ∨
        ∃ ptr client timeoutAt, Marks asked clientFd ptr client timeoutAt t)

theorem setConfig_run (f : RedisConfig → RedisConfig) (w : World D) :
    setConfig f w = .ok ((), w.configure f) := rfl

theorem handleWait_ok {req : RespRequest} {clientFd : Int} {w t : World D}
    (run : handleWait req clientFd w = .ok ((), t)) : Waits w req clientFd t := by
  unfold handleWait at run
  rw [bind_of_ok (setConfig_run _ _)] at run
  obtain ⟨wanted, read, reads, afterWanted⟩ := bind_eq_ok.mp run
  obtain ⟨isWanted, rfl⟩ := arg_ok.mp reads
  obtain ⟨ms, read', reads', afterMs⟩ := bind_eq_ok.mp afterWanted
  obtain ⟨_, rfl⟩ := arg_ok.mp reads'
  rw [bind_of_ok (setConfig_run _ _)] at afterMs
  obtain ⟨count, counted, counts, afterCount⟩ := bind_eq_ok.mp afterMs
  obtain ⟨rfl, isCount⟩ := countReplicas_ok counts
  rw [Nat.zero_add] at isCount
  replace isCount : count = w.acknowledged w.serverConfig.masterReplOffset := isCount
  split at afterCount
  · rename_i enough
    rw [send_run afterCount, isCount]
    rw [isCount] at enough
    exact .answered wanted isWanted enough rfl
  · rename_i few
    rw [isCount] at few
    rw [bind_of_ok (setConfig_run _ _)] at afterCount
    obtain ⟨_, asked, asking, marking⟩ := bind_eq_ok.mp afterCount
    have asks := forM_askReplica_ok asking
    refine .pending wanted asked isWanted (by omega) asks ?_
    obtain ⟨same, nobody⟩ | marks := markWaiting_ok marking
    · refine .inl ⟨same, fun slot client found => nobody slot (List.mem_finRange slot) client ?_⟩
      rw [asks]
      exact found
    · exact .inr marks

/-! ## XREAD -/

/-- What XREAD by this sender may change of a client. -/
def ReadBy (sender ptr : ClientPtr) (client client' : Client) : Prop :=
  if ptr = sender then Reads client client' else SameBlocking client client'

theorem SameBlocking.reads {client client' : Client} (same : SameBlocking client client') :
    Reads client client' := by
  simp only [SameBlocking, Client.blocking, Blocking.mk.injEq] at same
  obtain ⟨isBlocked, isBlpop, isWaiting, timeoutAt, blockedAt, waitingForKey, minId⟩ := same
  refine ⟨?_, fun blocked => isBlocked.trans blocked⟩
  simp [Client.blocking, isBlpop, isWaiting, blockedAt]

theorem SameBlocking.readBy (sender ptr : ClientPtr) {client client' : Client}
    (same : SameBlocking client client') : ReadBy sender ptr client client' := by
  unfold ReadBy
  split
  · exact same.reads
  · exact same

theorem Reads.trans {first second third : Client} (before : Reads first second)
    (after : Reads second third) : Reads first third := by
  refine ⟨?_, fun blocked => after.2 (before.2 blocked)⟩
  have fields := after.1
  rw [before.1] at fields
  exact fields

theorem ReadBy.trans (sender ptr : ClientPtr) (first second third : Client)
    (before : ReadBy sender ptr first second) (after : ReadBy sender ptr second third) :
    ReadBy sender ptr first third := by
  unfold ReadBy at *
  split
  · rename_i isSender
    rw [if_pos isSender] at before after
    exact before.trans after
  · rename_i other
    rw [if_neg other] at before after
    exact after.trans before

/-- XREAD blocked at most the client that sent it. -/
structure ReadsOnly (sender : ClientPtr) (w w' : World D) : Prop
    extends Clientwise (ReadBy sender) w w' where
  record : w'.serverConfig.waitRecord = w.serverConfig.waitRecord

theorem Still.readsOnly {w w' : World D} (still : Still w w') (sender : ClientPtr) :
    ReadsOnly sender w w' :=
  ⟨still.toClientwise.mono fun ptr _ _ same => same.readBy sender ptr, still.record⟩

theorem ambient_readsOnly (sender : ClientPtr) :
    Ambient (ReadsOnly (D := D) sender) fun _ => True where
  composes := ⟨fun w => (Still.refl w).readsOnly sender, fun before after =>
    ⟨before.toClientwise.trans (ReadBy.trans sender) after.toClientwise,
      after.record.trans before.record⟩⟩
  emit w fd bytes := (ambient_still.emit w fd bytes).readsOnly sender
  tick w := (ambient_still.tick w).readsOnly sender
  takeFresh w := (ambient_still.takeFresh w).readsOnly sender
  change w _ _ _ found session blocking :=
    (ambient_still.change w _ _ _ found session blocking).readsOnly sender
  authorize w nopass password := (ambient_still.authorize w nopass password).readsOnly sender
  faults _ _ _ := trivial

theorem mayRead_readsOnly (sender : ClientPtr) : MayRead (ReadsOnly (D := D) sender) sender := by
  intro w client client' found session reads
  refine ⟨.of_update (fun ptr client => (sameBlocking_refl client).readBy sender ptr) client' found
    session.fd ?_ rfl rfl rfl, rfl⟩
  rw [ReadBy, if_pos rfl]
  exact reads

theorem handleXread_readsOnly {req : RespRequest} {sender : ClientPtr} {clientFd : Int} {w w' : World D}
    (run : handleStreamPrint req sender clientFd .xread w = .ok ((), w')) : ReadsOnly sender w w' :=
  (obeysAt_handleStreamPrint (ambient_readsOnly sender) .xread (fun _ => mayRead_readsOnly sender)
    (.inl trivial)).1 () w' run

/-! ## XADD -/

/-- The client is blocked by XREAD on the key. -/
def Client.reads (client : Client) (key : Bytes) : Prop :=
  client.isBlocked = true ∧ client.waitingForKey = some key ∧ client.minId ≠ none

instance (client : Client) (key : Bytes) : Decidable (client.reads key) :=
  inferInstanceAs (Decidable (_ ∧ _ ∧ _))

/-- The client after XADD delivered entries to it. -/
def Client.delivered (client : Client) : Client :=
  { client with isBlocked := false, waitingForKey := none, minId := none }

/-- An XADD to the key woke the client, where it is a reader of the key, or did nothing to it. -/
def Delivered (key : Bytes) (client client' : Client) : Prop :=
  SameBlocking client client' ∨ client.reads key ∧ SameBlocking client.delivered client'

theorem SameBlocking.reads_iff {client client' : Client} (same : SameBlocking client client')
    (key : Bytes) : client'.reads key ↔ client.reads key := by
  simp only [SameBlocking, Client.blocking, Blocking.mk.injEq] at same
  obtain ⟨isBlocked, _, _, _, _, waitingForKey, minId⟩ := same
  simp [Client.reads, isBlocked, waitingForKey, minId]

theorem Delivered.trans {key : Bytes} {first second third : Client}
    (before : Delivered key first second) (after : Delivered key second third) :
    Delivered key first third := by
  obtain same | ⟨reads, woken⟩ := before
  · obtain same' | ⟨reads, woken⟩ := after
    · exact .inl (same'.trans same)
    · refine .inr ⟨(same.reads_iff key).mp reads, ?_⟩
      refine Eq.trans woken ?_
      simp only [SameBlocking, Client.blocking, Blocking.mk.injEq] at same
      simp [Client.blocking, Client.delivered, same]
  · obtain same' | ⟨reads', _⟩ := after
    · exact .inr ⟨reads, Eq.trans same' woken⟩
    · -- a client that was woken is no longer blocked
      have unblocked : second.isBlocked = false := congrArg Blocking.isBlocked woken
      simp [Client.reads, unblocked] at reads'

/-- An XADD to the key woke at most readers of the key. -/
structure Delivers (key : Bytes) (w w' : World D) : Prop
    extends Clientwise (fun _ => Delivered key) w w' where
  record : w'.serverConfig.waitRecord = w.serverConfig.waitRecord

theorem Still.delivers {w w' : World D} (still : Still w w') (key : Bytes) : Delivers key w w' :=
  ⟨still.toClientwise.mono fun _ _ _ => .inl, still.record⟩

theorem Delivers.trans {key : Bytes} {w w' w'' : World D} (before : Delivers key w w')
    (after : Delivers key w' w'') : Delivers key w w'' :=
  ⟨before.toClientwise.trans (fun _ _ _ _ first second => first.trans second) after.toClientwise,
    after.record.trans before.record⟩

theorem tryDeliverStreamData_delivers {ptr : ClientPtr} {client : Client} {key : Bytes} {w w' : World D}
    (found : w.heap ptr = some client) (waits : client.waitingForKey = some key)
    (run : tryDeliverStreamData ptr w = .ok ((), w')) : Delivers key w w' := by
  unfold tryDeliverStreamData at run
  rw [bind_of_ok (loadClient_found found)] at run
  -- three conditions stand before the delivery, and each of them leaves the world alone
  have nothing (same : (pure () : M D Unit) w = .ok ((), w')) : Delivers key w w' := by
    obtain rfl : w = w' := by simpa using same
    exact (Still.refl w).delivers key
  cases blocked : client.isBlocked with
  | false =>
    simp only [blocked] at run
    exact nothing run
  | true =>
    cases first : client.minId with
    | none =>
      simp only [blocked, waits, first] at run
      exact nothing run
    | some minId =>
      simp only [blocked, waits, first] at run
      obtain ⟨delivery, read, reading, afterRead⟩ := bind_eq_ok.mp run
      have still : Still w read := (obeysAt_streamEntryXreadToString ambient_still
        fun _ _ => obeys_pure ambient_still _).1 _ _ reading
      obtain ⟨messages, count⟩ := delivery
      dsimp only at afterRead
      cases messages with
      | none =>
        obtain rfl : read = w' := by simpa using afterRead
        exact still.delivers key
      | some messages =>
        dsimp only at afterRead
        split at afterRead
        · obtain ⟨_, sent, sends, wakes⟩ := bind_eq_ok.mp afterRead
          have stillSent : Still w sent := still.trans (by
            rw [send_run sends]
            exact ambient_still.emit _ _ _)
          obtain ⟨client', found', rfl⟩ := updateClient_eq_ok.mp wakes
          -- sending changed no client, so the one that is woken is the one that was read
          obtain ⟨other, foundOther, _, same⟩ := stillSent.heap ptr client found
          obtain rfl : other = client' := Option.some.inj (foundOther.symm.trans found')
          have reads : other.reads key :=
            (same.reads_iff key).mpr ⟨blocked, waits, by simp [first]⟩
          have served : Delivered key other other.delivered := .inr ⟨reads, rfl⟩
          have wakes : Clientwise (fun _ => Delivered key) sent (sent.setClient ptr other.delivered) :=
            .of_update (fun _ client => .inl rfl) other.delivered found' rfl served rfl rfl rfl
          exact (stillSent.delivers key).trans ⟨wakes, rfl⟩
        · obtain rfl : read = w' := by simpa using afterRead
          exact still.delivers key

theorem forM_wakeStreamReader_delivers {key : Bytes} {slots : List ClientSlot} {w w' : World D}
    (run : forM slots (wakeStreamReader key) w = .ok ((), w')) : Delivers key w w' := by
  induction slots generalizing w with
  | nil =>
    simp only [List.forM_nil, pure_run, Except.ok.injEq, Prod.mk.injEq, true_and] at run
    exact run ▸ (Still.refl w).delivers key
  | cons slot slots inductionHypothesis =>
    rw [List.forM_cons] at run
    obtain ⟨_, woken, first, rest⟩ := bind_eq_ok.mp run
    refine Delivers.trans ?_ (inductionHypothesis rest)
    unfold wakeStreamReader at first
    obtain ⟨occupant, looked, look, wakes⟩ := bind_eq_ok.mp first
    obtain ⟨rfl, _, found⟩ := clientAt_run look
    cases occupant with
    | none =>
      obtain rfl : looked = woken := by simpa using wakes
      exact (Still.refl looked).delivers key
    | some occupant =>
      dsimp only at wakes
      split at wakes
      · rename_i waits
        exact tryDeliverStreamData_delivers (found occupant.1 occupant.2 rfl) waits.2 wakes
      · obtain rfl : looked = woken := by simpa using wakes
        exact (Still.refl looked).delivers key

/-- XADD up to the loop that wakes the readers of its key. -/
theorem handleXadd_parts {R : World D → World D → Prop} (ambient : Ambient R fun _ => True)
    (mayWrite : ∀ key, MayWrite R key) {req : RespRequest} {clientFd : Int} {w w' : World D}
    (run : handleSet req .stream clientFd w = .ok ((), w')) :
    R w w' ∨ ∃ key replied, req.args[0]? = some key ∧ R w replied ∧
      forM clientSlots (wakeStreamReader key) replied = .ok ((), w') := by
  have composes := ambient.composes
  unfold handleSet at run
  split at run
  · obtain rfl : w = w' := by simpa using run
    exact .inl (composes.refl w)
  · unfold handleSetStream at run
    obtain ⟨key, read, reads, afterKey⟩ := bind_eq_ok.mp run
    obtain ⟨isKey, rfl⟩ := arg_ok.mp reads
    obtain ⟨stream, opened, opens, afterStream⟩ := bind_eq_ok.mp afterKey
    have first := (obeysAt_withPayload ambient asStream_casts (.inl trivial)
      (obeys_pure ambient _) fun stream => obeys_pure ambient stream).1 _ _ opens
    obtain ⟨id, read', reads', afterId⟩ := bind_eq_ok.mp afterStream
    obtain ⟨_, rfl⟩ := arg_ok.mp reads'
    obtain ⟨errorMsg, checked, checks, afterCheck⟩ := bind_eq_ok.mp afterId
    have second := composes.trans first ((obeys_checkStreamId ambient _ _ _).1 _ _ checks)
    cases errorMsg with
    | some errorResp =>
      have third := (obeys_sendUnlessMaster ambient _ _ checked).1 () w' afterCheck
      exact .inl (composes.trans second third)
    | none =>
      obtain ⟨entryId, chosen, chooses, afterChoice⟩ := bind_eq_ok.mp afterCheck
      obtain ⟨pair, scanned, scans, afterScan⟩ := bind_eq_ok.mp afterChoice
      obtain ⟨_, appended, appends, afterAppend⟩ := bind_eq_ok.mp afterScan
      obtain ⟨_, replied, replies, wakes⟩ := bind_eq_ok.mp afterAppend
      have third := composes.trans second ((obeys_chooseId ambient _ _ _).1 _ _ chooses)
      have fourth := composes.trans third ((obeys_scanId ambient _ _).1 _ _ scans)
      have fifth := composes.trans fourth
        ((obeys_appendEntry ambient (mayWrite key) _ _ _ _ _).1 _ _ appends)
      have sixth := composes.trans fifth ((obeys_sendEntryId ambient _ _).1 _ _ replies)
      exact .inr ⟨key, replied, isKey, sixth, wakes⟩

theorem handleXadd_delivers {req : RespRequest} {clientFd : Int} {w w' : World D}
    (run : handleSet req .stream clientFd w = .ok ((), w')) :
    Still w w' ∨ ∃ key, req.args[0]? = some key ∧ Delivers key w w' := by
  obtain still | ⟨key, replied, isKey, still, wakes⟩ :=
    handleXadd_parts ambient_still mayWrite_still run
  · exact .inl still
  · exact .inr ⟨key, isKey, (still.delivers key).trans (forM_wakeStreamReader_delivers wakes)⟩

/-! ## A step -/

theorem still_watchKey {ptr : ClientPtr} {keys : List Bytes} {w t : World D}
    (run : forM keys (watchKey ptr) w = .ok ((), t)) : Still w t := by
  induction keys generalizing w with
  | nil =>
    obtain rfl : w = t := by simpa using run
    exact .refl w
  | cons key keys inductionHypothesis =>
    rw [List.forM_cons] at run
    obtain ⟨_, registered, first, rest⟩ := bind_eq_ok.mp run
    obtain ⟨client, bucket, found, _, rfl⟩ := watchKey_run first
    have registers : Clientwise (fun _ => SameBlocking) w (w.register ptr client key bucket) :=
      .of_update (fun _ => sameBlocking_refl) { client with watchKeys := client.watchKeys ++ [key] }
        found rfl rfl rfl rfl rfl
    exact Still.trans ⟨registers, rfl⟩ (inductionHypothesis rest)

theorem still_deleteWatchedKeys {ptr : ClientPtr} {w t : World D}
    (run : deleteWatchedKeys ptr w = .ok ((), t)) : Still w t := by
  obtain ⟨client, found, rfl⟩ := deleteWatchedKeys_run run
  refine ⟨.of_update (fun _ => sameBlocking_refl) client.unwatched found rfl rfl ?_ ?_ ?_, ?_⟩
  · exact clearAll_clients w ptr client.watchKeys
  · exact clearAll_activeFds w ptr client.watchKeys
  · rw [World.release, World.setClient, heap_clearAll]
  · exact congrArg RedisConfig.waitRecord (clearAll_serverConfig w ptr client.watchKeys)

variable [Externals D]

/-- A call of `handle` that runs no arm blocks and wakes nobody. -/
theorem Handled.still {req : RespRequest} {ptr : ClientPtr} {client : Client} {w w' : World D}
    (handles : Handled w req ptr client w') (found : w.heap ptr = some client)
    (unreached : reachesArm client req = false) : Still w w' := by
  have emits (w : World D) (fd : Int) (bytes : Bytes) : Still w (w.emit fd bytes) :=
    ambient_still.emit w fd bytes
  cases handles with
  | queued ordinary inMulti room =>
    exact (still_setClient { client with requests := client.requests ++ [copyRequest req] } found rfl
      rfl).trans (emits _ _ _)
  | opened isMulti outside =>
    exact (still_setClient { client with requests := [], isQueued := true } found rfl rfl).trans
      (emits _ _ _)
  | refused text reason => exact emits _ _ _
  | ignored isWatch noKey => exact .refl w
  | watched isWatch outside run => exact (still_watchKey run).trans (emits _ _ _)
  | unwatched fd isUnwatch run => exact (still_deleteWatchedKeys run).trans (emits _ _ _)
  | left reply inMulti isEnd run =>
    exact ((still_setClient client.leaveMulti found rfl rfl).trans
      (still_deleteWatchedKeys run)).trans (emits _ _ _)
  | dispatched reaches run => simp [reaches] at unreached

/-- What a step does to the blocked clients. -/
inductive Reblocks (s : Server D) : Event → World D → Prop where
  | still {event : Event} {w' : World D} (undispatched : ∀ ptr req, ¬ Dispatches s event ptr req)
      (still : Still s.world w') : Reblocks s event w'
  | ran {event : Event} {handled w' : World D} (ptr : ClientPtr) (req : RespRequest) (client : Client)
      (dispatches : Dispatches s event ptr req) (found : s.world.heap ptr = some client)
      (runs : arm req ptr client (s.world.noted req) = .ok ((), handled)) (after : Still handled w') :
      Reblocks s event w'
  | expired {w' : World D} (runs : runTimers s.world = .ok ((), w')) : Reblocks s .timers w'
  | connected {fd : Int} {ptr : ClientPtr} (slot : ClientSlot)
      (isNext : slot.val = s.world.activeFds) (free : s.world.heap ptr = none) :
      Reblocks s (.connect fd ptr) (s.world.accept slot fd ptr)
  | disconnected {slot : ClientSlot} (last : ClientSlot) (ptr : ClientPtr)
      (isLast : last.val = s.world.activeFds - 1) (occupied : s.world.clients slot = some ptr) :
      Reblocks s (.disconnect slot) (s.world.drop slot last ptr)

theorem reblocks_of_step {s t : Server D} {event : Event} (outside : OutsideMulti s)
    (step : Step s event t) : Reblocks s event t.world := by
  have unreached {ptr : ClientPtr} {req : RespRequest} {client : Client}
      (undispatched : ∀ ptr req, ¬ Dispatches s event ptr req)
      (calls : s.calls event = some (ptr, req)) (found : s.world.heap ptr = some client) :
      reachesArm client req = false := by
    by_contra reaches
    exact undispatched ptr req ⟨calls, client, found, by simpa using reaches⟩
  by_cases dispatched : ∃ ptr req, Dispatches s event ptr req
  · obtain ⟨ptr, req, dispatches⟩ := dispatched
    obtain ⟨calls, client, found, reaches⟩ := id dispatches
    -- what follows the arm
    have ran {dispatchedWorld : World D} (run : dispatch req ptr s.world = .ok ((), dispatchedWorld))
        (after : Still dispatchedWorld t.world) : Reblocks s event t.world := by
      obtain ⟨client', handled, notified, found', arms, notify, write⟩ := dispatch_parts run
      obtain rfl : client = client' := Option.some.inj (found.symm.trans found')
      exact .ran ptr req client dispatches found arms ((still_afterArm notify write).trans after)
    cases step_cases outside step with
    | quiet idle noRequest kept => cases event <;> simp_all [Server.calls]
    | connected slot idle isNext valid free => simp [Server.calls] at calls
    | disconnected last ptr' idle isLast occupied => simp [Server.calls] at calls
    | started ptr' client' idle occupied found' starts =>
      simp only [Server.calls, occupied, Option.map_some, Option.some.injEq, Prod.mk.injEq] at calls
      obtain ⟨rfl, rfl⟩ := calls
      have isExec := (startsTransaction_eq_true.mp starts).1
      simp [reachesArm, isExec, isTransactionCmd] at reaches
    | served ptr' client' idle occupied found' starts handles propagates =>
      simp only [Server.calls, occupied, Option.map_some, Option.some.injEq, Prod.mk.injEq] at calls
      obtain ⟨rfl, rfl⟩ := calls
      obtain rfl : client = client' := Option.some.inj (found.symm.trans found')
      exact ran (handles.dispatch_of_reaches reaches) (still_propagate propagates)
    | ran ptr' req' remaining call client' after running found' handles foundAfter =>
      simp only [Server.calls, running, Option.bind_some, List.head?_cons, Option.map_some,
        Option.some.injEq, Prod.mk.injEq] at calls
      obtain ⟨rfl, rfl⟩ := calls
      obtain rfl : client = client' := Option.some.inj (found.symm.trans found')
      exact ran (handles.dispatch_of_reaches reaches) (still_setClient _ foundAfter rfl rfl)
    | ended ptr' call running propagates => simp [Server.calls, running] at calls
  · have undispatched (ptr : ClientPtr) (req : RespRequest) : ¬ Dispatches s event ptr req :=
      fun dispatches => dispatched ⟨ptr, req, dispatches⟩
    have viaHandle (idleOrRunning : (∃ slot call, event = .request slot call) ∨ event = .proceed) :
        Reblocks s event t.world := by
      cases step_cases outside step with
      | quiet idle noRequest kept =>
        obtain ⟨slot, call, isRequest⟩ | rfl := idleOrRunning
        · exact absurd isRequest (noRequest slot call)
        · exact absurd idle step.1
      | connected slot idle isNext valid free => simp at idleOrRunning
      | disconnected last ptr idle isLast occupied => simp at idleOrRunning
      | started ptr client idle occupied found starts =>
        refine .still undispatched ?_
        exact (ambient_still.emit s.world client.fd _).trans
          (still_setClient client.takeQueue found rfl rfl)
      | served ptr client idle occupied found starts handles propagates =>
        exact .still undispatched ((handles.still found
          (unreached undispatched (by simp [Server.calls, occupied]) found)).trans
          (still_propagate propagates))
      | ran ptr req remaining call client after running found handles foundAfter =>
        exact .still undispatched ((handles.still found
          (unreached undispatched (by simp [Server.calls, running]) found)).trans
          (still_setClient _ foundAfter rfl rfl))
      | ended ptr call running propagates =>
        exact .still undispatched (still_propagate propagates)
    obtain ⟨enabled, acts⟩ := id step
    cases event with
    | poll ready =>
      rw [show s.running = none from enabled] at acts
      obtain ⟨first, _⟩ := act_unit acts
      simp only [setReady, alter_run, Except.ok.injEq, Prod.mk.injEq, true_and] at first
      rw [← first]
      exact .still undispatched (.of_same rfl rfl rfl rfl)
    | timers =>
      rw [show s.running = none from enabled] at acts
      exact .expired (act_unit acts).1
    | connect fd ptr =>
      rw [show s.running = none from enabled.1] at acts
      obtain same | ⟨slot, isNext, same⟩ := connect_run (act_unit acts).1
      · rw [same]
        exact .still undispatched (.refl s.world)
      · rw [same]
        exact .connected slot isNext enabled.2.2
    | disconnect slot =>
      rw [show s.running = none from enabled.1] at acts
      obtain ⟨ptr, inSlot⟩ := Option.ne_none_iff_exists'.mp enabled.2
      obtain ⟨last, isLast, same⟩ := disconnect_run inSlot (act_unit acts).1
      rw [same]
      exact .disconnected last ptr isLast inSlot
    | request slot call => exact viaHandle (.inl ⟨slot, call, rfl⟩)
    | proceed => exact viaHandle (.inr rfl)

/-- The arm that a step runs, and what is left of it at the end of the step. -/
theorem arm_of_step {s t : Server D} {event : Event} {ptr : ClientPtr} {req : RespRequest}
    (outside : OutsideMulti s) (step : Step s event t) (dispatches : Dispatches s event ptr req) :
    ∃ client handled, s.world.heap ptr = some client ∧
      arm req ptr client (s.world.noted req) = .ok ((), handled) ∧
      t.world.table = handled.table ∧ Still handled t.world := by
  obtain ⟨dispatchedWorld, run, kept⟩ := dispatch_of_step outside step dispatches
  obtain ⟨client, handled, notified, found, arms, notify, write⟩ := dispatch_parts run
  have sameTable : t.world.table = handled.table := by
    funext bucket
    rw [kept.table bucket id, table_afterArm notify write]
  refine ⟨client, handled, found, arms, sameTable, ?_⟩
  have reblocks := reblocks_of_step outside step
  generalize t.world = w' at reblocks
  cases reblocks with
  | still undispatched _ => exact absurd dispatches (undispatched ptr req)
  | ran ptr' req' client' dispatches' found' runs after =>
    obtain ⟨rfl, rfl⟩ := dispatches_unique dispatches dispatches'
    obtain rfl : client = client' := Option.some.inj (found.symm.trans found')
    rw [arms] at runs
    simp only [Except.ok.injEq, Prod.mk.injEq, true_and] at runs
    rwa [runs]
  | expired _ => simp [Dispatches, Server.calls] at dispatches
  | connected _ _ _ => simp [Dispatches, Server.calls] at dispatches
  | disconnected _ _ _ _ => simp [Dispatches, Server.calls] at dispatches

end RedisClone
