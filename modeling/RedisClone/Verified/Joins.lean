import RedisClone.Verified.Convergence
import RedisClone.Verified.Handshakes
import RedisClone.Verified.Strangers

/-! # A replica and its master, from the first PING on

The two sides of the handshake together.  The master serves the four requests of `do_slave_handshake` in their order,
with the requests of its other clients in between (`ShakeStep`).  Its answers are what the replica waits for, however
the last of them is cut into segments, and behind them the two sides are a `Net` at its start (`handshake_attaches`):
what holds of the runs of a net holds from there on.
-/

namespace RedisClone

open Exec CString

variable {D : Type}

/-! ## What the replica asks -/

/-- The requests of `do_slave_handshake`, behind the PING of `replicaofHandler`. -/
def handshakeRequests (port : Int) : List (List Bytes) :=
  [[lit "PING"], [lit "REPLCONF", lit "listening-port", decimalInt port],
    [lit "REPLCONF", lit "capa", lit "eof", lit "capa", lit "psync2"], [lit "PSYNC", lit "?", lit "-1"]]

/-- The replica sends these requests. -/
theorem encode_handshakeRequests (port : Int) : (handshakeRequests port).map encode =
    [pingCmd, replconfPort port, replconfCapa, psyncText (lit "?") (-1)] := by
  have ping : encode [lit "PING"] = pingCmd := by decide +kernel
  have listening : encode [lit "REPLCONF", lit "listening-port", decimalInt port] = replconfPort port := by
    have header : arrayHeader 3 ++ (bulk (lit "REPLCONF") ++ bulk (lit "listening-port")) =
        lit "*3\r\n$8\r\nREPLCONF\r\n$14\r\nlistening-port\r\n" := by decide +kernel
    simp [encode, replconfPort, ← header]
  have capa : encode [lit "REPLCONF", lit "capa", lit "eof", lit "capa", lit "psync2"] = replconfCapa := by
    decide +kernel
  have psync : encode [lit "PSYNC", lit "?", lit "-1"] = psyncText (lit "?") (-1) := by decide +kernel
  simp only [handshakeRequests, List.map_cons, List.map_nil, ping, listening, capa, psync]

/-- What the replica asks behind the PING are the other three. -/
theorem asked_sent (w : World D) : w.asked.sent = w.sent ++
    (handshakeRequests w.serverConfig.port).tail.map fun strings => (w.serverConfig.masterFd, encode strings) := by
  have same := congrArg List.tail (encode_handshakeRequests w.serverConfig.port)
  have texts : (handshakeRequests w.serverConfig.port).tail.map encode =
      [replconfPort w.serverConfig.port, replconfCapa, psyncText (lit "?") (-1)] := by
    rwa [← List.map_tail] at same
  have pairs := congrArg (List.map (Prod.mk w.serverConfig.masterFd)) texts
  rw [List.map_map] at pairs
  rw [show (fun strings => (w.serverConfig.masterFd, encode strings)) = Prod.mk w.serverConfig.masterFd ∘ encode from rfl,
    pairs]
  simp [World.asked, World.emit]

/-! ## What the master answers -/

/-- The line that answers PSYNC. -/
def fullresync (server : RedisConfig) : Bytes :=
  lit "+FULLRESYNC " ++ server.masterReplid ++ lit " " ++ decimalInt server.masterReplOffset ++ crlf

section Answering

variable [Externals D] {w t : World D} {ptr : ClientPtr}

/-- A request that is answered with these bytes, and changes nothing. -/
structure IsAnswered (D : Type) [Externals D] (strings : List Bytes) (answer : Bytes) : Prop where
  ordinary : isTransactionCmd (requestOf strings).command = false
  readOnly : isWriteCmd (requestOf strings).command = false
  unnotified : notifies (requestOf strings).command = false
  arm : ∀ (w t : World D) (ptr : ClientPtr) (client : Client), client.isMaster = false → client.isSubscribed = false →
    arm (requestOf strings) ptr client w = .ok ((), t) → t = w.emit client.fd answer

theorem isAnswered_ping : IsAnswered D [lit "PING"] pongReply where
  ordinary := by decide +kernel
  readOnly := by decide +kernel
  unnotified := by decide +kernel
  arm w t ptr client notMaster unsubscribed run := by
    rw [RedisClone.arm, show (requestOf [lit "PING"]).command = .ping by decide +kernel] at run
    simp only [handlePing, notMaster, unsubscribed, Bool.not_false, Bool.and_self, if_true] at run
    exact send_run run

/-- REPLCONF with another subcommand than GETACK and ACK. -/
theorem isAnswered_replconf {subCmd : Bytes} {rest : List Bytes} (notGetack : upper subCmd ≠ lit "GETACK")
    (notAck : upper subCmd ≠ lit "ACK") : IsAnswered D (lit "REPLCONF" :: subCmd :: rest) okReply where
  ordinary := rfl
  readOnly := rfl
  unnotified := rfl
  arm w t ptr client _ _ run := by
    have isReplconf : (requestOf (lit "REPLCONF" :: subCmd :: rest)).command = .replconf := rfl
    have isSubCmd : (requestOf (lit "REPLCONF" :: subCmd :: rest)).args = subCmd :: rest := rfl
    have counted : (requestOf (lit "REPLCONF" :: subCmd :: rest)).argc = rest.length + 1 := rfl
    rw [RedisClone.arm, isReplconf] at run
    simp only [handleReplconfRequest] at run
    obtain ⟨_, printed, prints, afterPrint⟩ := bind_eq_ok.mp run
    obtain rfl := printArg_same prints
    rw [if_neg (by rw [counted]; omega), bind_of_ok (arg_ok.mpr ⟨by rw [isSubCmd]; rfl, rfl⟩),
      if_neg fun isGetack => notGetack isGetack.1, if_neg notAck] at afterPrint
    exact send_run afterPrint

omit [Externals D] in
theorem handlePsyncRequest_run {fd : Int} (run : handlePsyncRequest ptr fd w = .ok ((), t)) :
    ∃ client, w.heap ptr = some client ∧
      t = (((w.emit fd ((fullresync w.serverConfig).take (1024 - 1))).emit fd (rdbHeader emptyRdb.length)).emit fd
        emptyRdb).setClient ptr { client with isReplica := true } := by
  unfold handlePsyncRequest sendText at run
  rw [bind_of_ok (show config w = .ok (w.serverConfig, w) from rfl)] at run
  obtain ⟨_, lined, line, afterLine⟩ := bind_eq_ok.mp run
  obtain rfl := send_run line
  obtain ⟨_, headed, header, afterHeader⟩ := bind_eq_ok.mp afterLine
  obtain rfl := send_run header
  obtain ⟨_, copied, snapshot, marks⟩ := bind_eq_ok.mp afterHeader
  obtain rfl := send_run snapshot
  obtain ⟨client, found, rfl⟩ := updateClient_eq_ok.mp marks
  exact ⟨client, found, rfl⟩

end Answering

/-! ## The steps of the master -/

section Passing

variable {w t : World D} {ptr : ClientPtr} {call : Call}

/-- A write command is passed to replicas alone. -/
theorem propagate_passes (run : propagate ptr call w = .ok ((), t)) :
    ∃ passed, t.passed = w.passed ++ passed ∧ ∀ entry ∈ passed, entry.1 ∈ t.replicas := by
  obtain ⟨client, loaded, load, rest⟩ := bind_eq_ok.mp run
  obtain ⟨found, rfl⟩ := loadClient_eq_ok.mp load
  by_cases isMaster : client.fd = loaded.serverConfig.masterFd
  · rw [bind_of_ok (show config loaded = .ok (loaded.serverConfig, loaded) from rfl), if_pos isMaster] at rest
    simp only [setConfig, alter_run, Except.ok.injEq, Prod.mk.injEq, true_and] at rest
    rw [← rest]
    exact ⟨[], (List.append_nil _).symm, fun entry member => by simp at member⟩
  · have passes := propagate_run found isMaster run
    have sameReplicas : t.replicas = loaded.replicas := by rw [passes]; rfl
    refine ⟨_, congrArg World.passed passes, fun entry member => ?_⟩
    split at member
    · obtain ⟨replica, isReplica, rfl⟩ := List.mem_map.mp member
      exact sameReplicas ▸ isReplica
    · simp at member

variable [Externals D] {s s' : Server D} {event : Event}

/-- What a step passes on goes to replicas, and it leaves the connection to a master. -/
theorem passes_step (outside : OutsideMulti s) (step : Step s event s') :
    s'.world.serverConfig.masterFd = s.world.serverConfig.masterFd ∧
      ∃ passed, s'.world.passed = s.world.passed ++ passed ∧ ∀ entry ∈ passed, entry.1 ∈ s'.world.replicas := by
  have nothing {u u' : World D} (same : u'.passed = u.passed) :
      ∃ passed, u'.passed = u.passed ++ passed ∧ ∀ entry ∈ passed, entry.1 ∈ u'.replicas :=
    ⟨[], by rw [same, List.append_nil], fun entry member => by simp at member⟩
  have handledPassed {u u' : World D} {req : RespRequest} {sender : ClientPtr} {client : Client}
      (found : u.heap sender = some client) (handles : Handled u req sender client u') :
      u'.passed = u.passed ∧ u'.serverConfig.masterFd = u.serverConfig.masterFd := by
    have held : Held Ordinary u u' := handles.held found fun ordinary _ => ordinary
    refine ⟨?_, held.masterFd⟩
    cases reaches : reachesArm client req with
    | true => exact (kept_dispatch (handles.dispatch_of_reaches reaches)).passed id
    | false => exact (handles.sameData reaches).passed
  cases step_cases outside step with
  | quiet idle noRequest kept => exact ⟨kept.masterFd, nothing (kept.passed id)⟩
  | connected slot idle isNext valid free => exact ⟨rfl, nothing rfl⟩
  | disconnected last ptr idle isLast occupied => exact ⟨rfl, nothing rfl⟩
  | started ptr client idle occupied found starts => exact ⟨rfl, nothing rfl⟩
  | served ptr client idle occupied found starts handles propagates =>
    obtain ⟨passed, masterFd⟩ := handledPassed found handles
    obtain ⟨fresh, appended, toReplicas⟩ := propagate_passes propagates
    exact ⟨(kept_propagate propagates).masterFd.trans masterFd, fresh, passed ▸ appended, toReplicas⟩
  | ran ptr req remaining call client client' running found handles found' =>
    obtain ⟨passed, masterFd⟩ := handledPassed found handles
    exact ⟨masterFd, nothing passed⟩
  | ended ptr call running propagates =>
    exact ⟨(kept_propagate propagates).masterFd, propagate_passes propagates⟩

end Passing

section Requests

variable [Externals D] {s t : Server D} {ptr : ClientPtr} {slot : ClientSlot} {call : Call} {client : Client} {answer : Bytes}
  {strings : List Bytes}

/-- A client that has sent nothing yet. -/
structure Client.IsNew (client : Client) : Prop where
  outside : client.isQueued = false
  unsubscribed : client.isSubscribed = false
  notMaster : client.isMaster = false
  unacknowledged : client.replOffset = 0

omit [Externals D] in
theorem Client.isNew_iff : client.IsNew ↔ client.manner = (false, false, false, 0) := by
  constructor
  · intro isNew
    rw [Client.manner, isNew.outside, isNew.unsubscribed, isNew.notMaster, isNew.unacknowledged]
  · intro manner
    simp only [Client.manner, Prod.mk.injEq] at manner
    obtain ⟨outside, unsubscribed, notMaster, unacknowledged⟩ := manner
    exact ⟨outside, unsubscribed, notMaster, unacknowledged⟩

/-- A request of a new client that is no write command does what its arm does. -/
theorem arm_of_request (outside : OutsideMulti s) (inSlot : s.world.clients slot = some ptr)
    (found : s.world.heap ptr = some client) (isNew : client.IsNew) (ordinaryFd : client.fd ≠ s.world.serverConfig.masterFd)
    (ordinary : isTransactionCmd call.request.command = false) (readOnly : isWriteCmd call.request.command = false)
    (unnotified : notifies call.request.command = false) (step : Step s (.request slot call) t) :
    arm call.request ptr client s.world = .ok ((), t.world) := by
  have reaches : reachesArm client call.request = true :=
    reachesArm_eq_true.mpr ⟨ordinary, isNew.outside, fun subscribed => by simp [isNew.unsubscribed] at subscribed⟩
  cases step_cases outside step with
  | quiet idle noRequest kept => exact absurd rfl (noRequest slot call)
  | started ptr' client' idle occupied found' starts =>
    obtain rfl : ptr = ptr' := Option.some.inj (inSlot.symm.trans occupied)
    obtain rfl : client = client' := Option.some.inj (found.symm.trans found')
    simp [(startsTransaction_eq_true.mp starts).1, isTransactionCmd] at ordinary
  | @served _ _ handled w' ptr' client' idle occupied found' starts handles propagates =>
    obtain rfl : ptr = ptr' := Option.some.inj (inSlot.symm.trans occupied)
    obtain rfl : client = client' := Option.some.inj (found.symm.trans found')
    have dispatches := handles.dispatch_of_reaches reaches
    have kept := kept_dispatch dispatches
    obtain ⟨after, foundAfter, session⟩ := kept.heap ptr client found
    have stillOrdinary : after.fd ≠ handled.serverConfig.masterFd := by rwa [session.fd, kept.masterFd]
    obtain rfl : w' = handled := propagate_nothing foundAfter stillOrdinary readOnly propagates
    exact dispatch_arm readOnly unnotified found dispatches

end Requests

/-! ## The handshake at the master -/

/-- A master, and the requests of a replica that it has not served. -/
structure Shaking (D : Type) where
  server : Server D
  asking : List (List Bytes)

inductive ShakeEvent where
  /-- The next request of the replica arrives. -/
  | asks (slot : ClientSlot) (start : Nat)
  | others (event : Event)

/-- The master serves the next request of the replica, or goes on with its other clients. -/
def ShakeStep [Externals D] (ptr : ClientPtr) (s : Shaking D) (event : ShakeEvent) (t : Shaking D) : Prop :=
  match event with
  | .asks slot start => ∃ strings, s.server.world.clients slot = some ptr ∧ s.asking = strings :: t.asking ∧
      Step s.server (.request slot ⟨start, requestOf strings, (encode strings).length⟩) t.server
  | .others event => s.asking ≠ [] ∧ WithoutClient ptr s.server event ∧ Step s.server event t.server ∧ t.asking = s.asking

/-- The answers to the requests in front of PSYNC. -/
def shortAnswers : List Bytes := [pongReply, okReply, okReply]

/-- The invariant: the replica is a new client, and so many of its requests have been answered. -/
structure Asks (ptr : ClientPtr) (fd : Int) (port : Int) (start : World D) (answered : Nat) (s : Shaking D) : Prop where
  spared : s.server.Spared ptr fd
  isNew : ∀ client, s.server.world.heap ptr = some client → client.IsNew
  notMaster : fd ≠ s.server.world.serverConfig.masterFd
  passed : passedTo ptr s.server.world = passedTo ptr start
  few : answered ≤ 3
  asking : s.asking = (handshakeRequests port).drop answered
  sent : s.server.world.bytesTo fd = start.bytesTo fd ++ (shortAnswers.take answered).flatten

/-- The answer to PSYNC that a master sends. -/
def snapshotAnswer (w : World D) : Bytes := psyncAnswer ((fullresync w.serverConfig).take (1024 - 1)) emptyRdb

/-- The end of the handshake at the master. -/
structure Shaken (ptr : ClientPtr) (fd : Int) (start : World D) (w : World D) : Prop where
  connected : Connected w
  attached : ∃ slot, Attached w slot ptr fd 0
  passed : passedTo ptr w = passedTo ptr start
  sent : w.bytesTo fd = start.bytesTo fd ++ (shortAnswers.flatten ++ snapshotAnswer w)

/-- The replica asks, or the handshake is over. -/
def InHandshake (ptr : ClientPtr) (fd port : Int) (start : World D) (s : Shaking D) : Prop :=
  (∃ answered, Asks ptr fd port start answered s) ∨ s.asking = [] ∧ Shaken ptr fd start s.server.world

section Shakes

variable [Externals D] {s t : Shaking D} {ptr : ClientPtr} {fd port : Int} {start w : World D} {answered : Nat}
  {strings : List Bytes} {answer : Bytes}

omit [Externals D] in
/-- A client that waits for nothing is passed no write command. -/
theorem passedTo_unchanged {w' : World D} (quiet : w'.Quiet ptr fd)
    (passes : ∃ passed, w'.passed = w.passed ++ passed ∧ ∀ entry ∈ passed, entry.1 ∈ w'.replicas) :
    passedTo ptr w' = passedTo ptr w := by
  obtain ⟨passed, appended, toReplicas⟩ := passes
  obtain ⟨client, found, _, idle⟩ := quiet.idle
  have notReplica : ptr ∉ w'.replicas := by
    intro member
    obtain ⟨slot, _, inSlot⟩ := List.mem_filterMap.mp member
    obtain ⟨_, isReplica⟩ := Option.filter_eq_some_iff.mp inSlot
    simp [found, idle.isReplica] at isReplica
  -- what was passed on went to replicas, and the client is none
  have elsewhere : (passed.filterMap fun entry => if entry.1 = ptr then some entry.2 else none) = [] := by
    refine List.filterMap_eq_nil_iff.mpr fun entry member => if_neg ?_
    exact fun same => notReplica (same ▸ toReplicas entry member)
  rw [passedTo, appended, List.filterMap_append, elsewhere, List.append_nil, passedTo]

/-- Another client, or the timers. -/
theorem Asks.others {event : Event} (asks : Asks ptr fd port start answered s) (valid : fd ≠ -1)
    (without : WithoutClient ptr s.server event) (step : Step s.server event t.server) (asking : t.asking = s.asking) :
    Asks ptr fd port start answered t := by
  obtain ⟨spared, silent, manner⟩ := spared_step asks.spared valid without step
  obtain ⟨masterFd, passes⟩ := passes_step asks.spared.wellSeated.outside step
  constructor
  · exact spared
  · intro client found
    obtain ⟨before, foundBefore, _⟩ := asks.spared.quiet.idle
    rw [found, foundBefore, Option.map_some, Option.map_some, Option.some.injEq] at manner
    exact Client.isNew_iff.mpr (manner.trans (Client.isNew_iff.mp (asks.isNew before foundBefore)))
  · exact masterFd ▸ asks.notMaster
  · exact (passedTo_unchanged spared.quiet passes).trans asks.passed
  · exact asks.few
  · exact asking.trans asks.asking
  · exact Eq.trans silent asks.sent

/-- A request that is answered at once. -/
theorem Asks.served {slot : ClientSlot} {call : Call} (asks : Asks ptr fd port start answered s)
    (isAnswered : IsAnswered D strings answer) (isRequest : call.request = requestOf strings)
    (inSlot : s.server.world.clients slot = some ptr) (step : Step s.server (.request slot call) t.server) :
    t.server.world = s.server.world.emit fd answer := by
  obtain ⟨client, found, isFd, _⟩ := asks.spared.quiet.idle
  have isNew := asks.isNew client found
  have arms := arm_of_request asks.spared.wellSeated.outside inSlot found isNew (isFd ▸ asks.notMaster)
    (isRequest ▸ isAnswered.ordinary) (isRequest ▸ isAnswered.readOnly) (isRequest ▸ isAnswered.unnotified) step
  rw [isRequest] at arms
  rw [isAnswered.arm _ _ ptr client isNew.notMaster isNew.unsubscribed arms, isFd]

/-- One of the first three requests. -/
theorem Asks.next {slot : ClientSlot} {call : Call} (asks : Asks ptr fd port start answered s) (first : answered < 3)
    (isAnswered : IsAnswered D strings answer) (isRequest : call.request = requestOf strings)
    (inSlot : s.server.world.clients slot = some ptr) (isAnswer : shortAnswers[answered]? = some answer)
    (asking : s.asking = strings :: t.asking) (step : Step s.server (.request slot call) t.server) :
    Asks ptr fd port start (answered + 1) t := by
  have served := asks.served isAnswered isRequest inSlot step
  constructor
  · constructor
    · exact wellSeated_step asks.spared.wellSeated (show AcceptsUnused s.server (.request slot call) from trivial) step
    · exact housed_step asks.spared.wellSeated.connected asks.spared.wellSeated.outside asks.spared.housed step
    · rw [served]
      exact ⟨asks.spared.quiet.idle, asks.spared.quiet.apart, asks.spared.quiet.polled, asks.spared.quiet.noWait⟩
    · rw [served]
      exact asks.spared.inSlot
  · rw [served]
    exact asks.isNew
  · rw [served]
    exact asks.notMaster
  · rw [served]
    exact asks.passed
  · exact first
  · have behind := congrArg List.tail (asking.symm.trans asks.asking)
    rwa [List.tail_cons, List.tail_drop] at behind
  · rw [served, bytesTo_emit, asks.sent, List.take_add_one, isAnswer, Option.toList_some, List.flatten_append,
      List.flatten_singleton, List.append_assoc]

/-- The request for the snapshot. -/
theorem Asks.last {slot : ClientSlot} {call : Call} (asks : Asks ptr fd port start 3 s)
    (isRequest : call.request = requestOf [lit "PSYNC", lit "?", lit "-1"])
    (inSlot : s.server.world.clients slot = some ptr) (step : Step s.server (.request slot call) t.server) :
    Shaken ptr fd start t.server.world := by
  obtain ⟨client, found, rfl, idle⟩ := asks.spared.quiet.idle
  have isNew := asks.isNew client found
  have isPsync : (requestOf [lit "PSYNC", lit "?", lit "-1"]).command = .psync := by decide +kernel
  have arms := arm_of_request asks.spared.wellSeated.outside inSlot found isNew asks.notMaster
    (by rw [isRequest, isPsync]; rfl) (by rw [isRequest, isPsync]; rfl) (by rw [isRequest, isPsync]; rfl) step
  rw [isRequest, arm, isPsync] at arms
  obtain ⟨client', found', served⟩ := handlePsyncRequest_run arms
  obtain rfl : client = client' := Option.some.inj (found.symm.trans found')
  constructor
  · exact (wellSeated_step asks.spared.wellSeated (show AcceptsUnused s.server (.request slot call) from trivial) step).connected
  · refine ⟨slot, ?_⟩
    rw [served]
    constructor
    · exact inSlot
    · exact ⟨_, Function.update_self _ _ _, ⟨rfl, isNew.unacknowledged, rfl, isNew.outside, isNew.unsubscribed,
        idle.isBlocked, idle.isBlpop⟩⟩
    · exact asks.notMaster
    · exact Ne.symm asks.spared.quiet.noWait
  · rw [served]
    exact asks.passed
  · rw [served]
    change World.bytesTo (((s.server.world.emit client.fd _).emit client.fd _).emit client.fd _) client.fd = _
    rw [bytesTo_emit, bytesTo_emit, bytesTo_emit, asks.sent]
    simp only [snapshotAnswer, psyncAnswer, List.append_assoc]
    rfl

theorem asks_step {event : ShakeEvent} (asks : Asks ptr fd port start answered s) (valid : fd ≠ -1)
    (step : ShakeStep ptr s event t) : InHandshake ptr fd port start t := by
  cases event with
  | others event =>
    obtain ⟨_, without, steps, asking⟩ := step
    exact .inl ⟨answered, asks.others valid without steps asking⟩
  | asks slot _ =>
    obtain ⟨strings, inSlot, asking, steps⟩ := step
    have isNext := asking.symm.trans asks.asking
    have few := asks.few
    -- the answer of each of the four requests
    obtain rfl | rfl | rfl | rfl : answered = 0 ∨ answered = 1 ∨ answered = 2 ∨ answered = 3 := by omega
    all_goals obtain ⟨rfl, areBehind⟩ := List.cons.inj isNext
    · exact .inl ⟨1, asks.next (by decide) isAnswered_ping rfl inSlot rfl asking steps⟩
    · have isAnswered : IsAnswered D [lit "REPLCONF", lit "listening-port", decimalInt port] okReply :=
        isAnswered_replconf (by decide) (by decide)
      exact .inl ⟨2, asks.next (by decide) isAnswered rfl inSlot rfl asking steps⟩
    · have isAnswered : IsAnswered D [lit "REPLCONF", lit "capa", lit "eof", lit "capa", lit "psync2"] okReply :=
        isAnswered_replconf (by decide) (by decide)
      exact .inl ⟨3, asks.next (by decide) isAnswered rfl inSlot rfl asking steps⟩
    · exact .inr ⟨areBehind, asks.last rfl inSlot steps⟩

/-- The handshake is over when every request has been served. -/
theorem shaken_of_run {s : Server D} {client : Client} (spared : s.Spared ptr client.fd)
    (found : s.world.heap ptr = some client) (isNew : client.IsNew) (valid : client.fd ≠ -1)
    (notMaster : client.fd ≠ s.world.serverConfig.masterFd)
    (run : Run (ShakeStep ptr) (fun _ _ => True) ⟨s, handshakeRequests port⟩ t) (nothing : t.asking = []) :
    Shaken ptr client.fd s.world t.server.world := by
  have atStart : Asks ptr client.fd port s.world 0 ⟨s, handshakeRequests port⟩ := by
    refine ⟨spared, fun other found' => ?_, notMaster, rfl, by decide, rfl, (List.append_nil _).symm⟩
    obtain rfl : client = other := Option.some.inj (found.symm.trans found')
    exact isNew
  have atEnd : InHandshake ptr client.fd port s.world t := by
    apply run.invariant ?_ (show InHandshake ptr client.fd port s.world ⟨s, handshakeRequests port⟩ from .inl ⟨0, atStart⟩)
    intro u event u' always _ step
    obtain ⟨answered, asks⟩ | ⟨ended, _⟩ := always
    · exact asks_step asks valid step
    · cases event with
      | others event => exact absurd ended step.1
      | asks slot _ =>
        obtain ⟨strings, _, asking, _⟩ := step
        simp [ended] at asking
  obtain ⟨answered, asks⟩ | ⟨_, shaken⟩ := atEnd
  · -- the request for the snapshot is still there
    have length := congrArg List.length (nothing.symm.trans asks.asking)
    simp only [handshakeRequests, List.length_nil, List.length_drop, List.length_cons] at length
    have few := asks.few
    omega
  · exact shaken

end Shakes

/-! ## Both sides -/

section Both

variable [Externals D] {s : Server D} {t : Shaking D} {ptr peer : ClientPtr} {client : Client} {w looping : World D}
  {joined r : Joining D} {segments : List Bytes}

/-- A client that has only sent the requests of a handshake, in a run of a server in which the other clients go on, is a
replica in the end.  It was sent the answers that the replica waits for, and however the last one was cut, the two
servers are a master and a replica with nothing on its way. -/
theorem handshake_attaches {w₀ : World D} (enters : EntersLoop w₀) (reached : Run Step AcceptsUnused ⟨w₀, none⟩ s)
    (found : s.world.heap ptr = some client) (idle : client.Idle) (isNew : client.IsNew) (valid : 0 ≤ client.fd)
    (noWait : s.world.serverConfig.waitClientFd ≠ client.fd) (notMaster : client.fd ≠ s.world.serverConfig.masterFd)
    (unpassed : passedTo ptr s.world = [])
    (shakes : Run (ShakeStep ptr) (fun _ _ => True) ⟨s, handshakeRequests w.serverConfig.port⟩ t) (nothing : t.asking = [])
    (uncounted : w.serverConfig.slaveReplOffset = 0)
    (cuts : CutsAnswer ((fullresync t.server.world.serverConfig).take (1024 - 1)) emptyRdb segments [])
    (joins : doSlaveHandshake peer ⟨w, pongReply :: okReply :: okReply :: segments⟩ = .ok ((), joined))
    (resets : resetForLoop joined.world = .ok ((), looping))
    (hears : Run (Hears peer) (fun _ _ => True) ⟨looping, joined.segments⟩ r) (unexecuted : r.world.executed = []) :
    w.asked.sent = w.sent ++
        (handshakeRequests w.serverConfig.port).tail.map (fun strings => (w.serverConfig.masterFd, encode strings)) ∧
      t.server.world.bytesTo client.fd =
        s.world.bytesTo client.fd ++ (pongReply :: okReply :: okReply :: segments).flatten ∧
      ∃ slot home, Net.AllAttached (fun _ : Unit => ⟨slot, ptr, client.fd, home, peer⟩)
        ⟨t.server.world, fun _ => r.world, fun _ => [], fun _ => [], fun _ => [], fun _ => []⟩ := by
  have shaken := shaken_of_run (spared_of_run enters reached found idle noWait) found isNew (by omega) notMaster shakes
    nothing
  obtain ⟨slot, attached⟩ := shaken.attached
  refine ⟨asked_sent w, ?_, ?_⟩
  · -- the master sends the answer at once, and the replica finds it cut in some way
    have answer : segments.flatten = snapshotAnswer t.server.world := by
      have flatten := cuts.cut.flatten
      rwa [List.map_nil, List.flatten_nil, List.append_nil] at flatten
    rw [shaken.sent, ← answer]
    rfl
  · obtain ⟨served, waiting, areGroups, _, ⟨own, inTurn⟩, offset⟩ :=
      handshake_any_cut uncounted cuts (by decide) joins resets hears
    obtain ⟨rfl, rfl⟩ := List.append_eq_nil_iff.mp areGroups.symm
    obtain ⟨own', client', seated, _⟩ : JoinedLast peer (w.asked.seat own peer (masterClient w)) := joinedLast_seat
    obtain ⟨⟨home, follower, following⟩, _⟩ := inTurn.counts ⟨client', seated⟩
    refine ⟨slot, home, ?_⟩
    constructor
    · exact shaken.connected
    · exact fun _ => valid
    · exact fun _ _ _ => rfl
    · exact fun _ => attached
    · exact fun _ => shaken.passed.trans unpassed
    · exact fun _ => ⟨follower, following⟩
    · exact fun _ => unexecuted
    · exact fun _ => offset
    all_goals exact fun _ => rfl

end Both

/-! ## One replica -/

/-- The step of a handshake, by evaluation. -/
def shakeNext (ptr : ClientPtr) (s : Shaking Int) : ShakeEvent → Option (Shaking Int)
  | .asks slot start =>
    match s.asking with
    | [] => none
    | strings :: asking =>
      if s.server.world.clients slot = some ptr then
        (next s.server (.request slot ⟨start, requestOf strings, (encode strings).length⟩)).map fun server => ⟨server, asking⟩
      else none
  | .others event =>
    if s.asking ≠ [] ∧ WithoutClient ptr s.server event then (next s.server event).map fun server => ⟨server, s.asking⟩
    else none

theorem shakeStep_of_next {ptr : ClientPtr} {s t : Shaking Int} {event : ShakeEvent}
    (isNext : shakeNext ptr s event = some t) : ShakeStep ptr s event t := by
  cases event with
  | asks slot start =>
    unfold shakeNext at isNext
    cases asking : s.asking with
    | nil => simp [asking] at isNext
    | cons strings rest =>
      simp only [asking] at isNext
      obtain ⟨inSlot, isMapped⟩ := Option.ite_none_right_eq_some.mp isNext
      obtain ⟨server, serves, rfl⟩ := Option.map_eq_some_iff.mp isMapped
      exact ⟨strings, inSlot, asking, next_step serves⟩
  | others event =>
    obtain ⟨⟨remains, without⟩, isMapped⟩ := Option.ite_none_right_eq_some.mp isNext
    obtain ⟨server, serves, rfl⟩ := Option.map_eq_some_iff.mp isMapped
    exact ⟨remains, without, next_step serves, rfl⟩

/-- The rest of the snapshot. -/
def lastSegment : Bytes := lit "8\r\n" ++ emptyRdb

theorem cutsAnswer_last : CutsAnswer (lit "+FULLRESYNC 8371b4fb1155b71f4a04d3e1bc3e18c4a990aeeb 0\r\n") emptyRdb
    [firstSegment, lastSegment] [] where
  isLine := by decide +kernel
  small := by decide
  receivable := by
    intro segment member
    simp only [List.mem_cons, List.not_mem_nil, or_false] at member
    obtain rfl | rfl := member <;> exact ⟨by decide +kernel, by decide +kernel⟩
  cut := by
    have isAnswer : psyncAnswer (lit "+FULLRESYNC 8371b4fb1155b71f4a04d3e1bc3e18c4a990aeeb 0\r\n") emptyRdb =
        firstSegment ++ (lastSegment ++ []) := by decide +kernel
    rw [isAnswer]
    exact .piece firstSegment (.piece lastSegment (.none []))
  starless := .inl (by decide)

/-- Another client runs a transaction between the requests of the replica. -/
theorem handshake_attaches_one : ∃ (t : Shaking Int) (r : Joining Int) (slot home : ClientSlot),
    t.server.world.bytesTo 6 ≠ [] ∧ Net.AllAttached (fun _ : Unit => ⟨slot, 0, 5, home, 1⟩)
      ⟨t.server.world, fun _ => r.world, fun _ => [], fun _ => [], fun _ => [], fun _ => []⟩ := by
  have reaches : (play AcceptsUnused idleServer [.connect 5 0, .connect 6 1]).any (fun s =>
      (s.world.heap 0).any (fun client => decide (client.Idle ∧ client.manner = (false, false, false, 0) ∧ client.fd = 5 ∧
        s.world.serverConfig.waitClientFd ≠ client.fd ∧ client.fd ≠ s.world.serverConfig.masterFd ∧
          passedTo 0 s.world = [])) &&
      (Run.follow (shakeNext 0) (fun _ _ => True) ⟨s, handshakeRequests 6379⟩ [.asks firstSlot 0,
        .others (arrival secondSlot [lit "MULTI"]), .asks firstSlot 0, .others (arrival secondSlot [lit "GET", lit "k"]),
        .others (arrival secondSlot [lit "EXEC"]), .others .proceed, .others .proceed, .asks firstSlot 0, .others .timers,
        .asks firstSlot 0]).any fun t => decide (t.server.world.bytesTo 6 ≠ [] ∧ t.asking = [] ∧
          (fullresync t.server.world.serverConfig).take (1024 - 1) =
            lit "+FULLRESYNC 8371b4fb1155b71f4a04d3e1bc3e18c4a990aeeb 0\r\n")) = true := by
    decide +kernel
  obtain ⟨s, reached, checked⟩ := exists_run_of_play reaches
  obtain ⟨isNew, follows⟩ := Bool.and_eq_true_iff.mp checked
  obtain ⟨client, found, isNew⟩ := (Option.any_eq_true _ _).mp isNew
  obtain ⟨idle, manner, isFd, noWait, notMaster, unpassed⟩ := of_decide_eq_true isNew
  obtain ⟨t, follows, atEnd⟩ := (Option.any_eq_true _ _).mp follows
  obtain ⟨answered, nothing, isLine⟩ := of_decide_eq_true atEnd
  have shakes : Run (ShakeStep 0) (fun _ _ => True) ⟨s, handshakeRequests aloneReplica.serverConfig.port⟩ t :=
    Run.of_follow (fun _ _ _ => shakeStep_of_next) follows
  obtain ⟨ready, joins, checked⟩ := exists_ok_of_endsIn
    (show endsIn (do doSlaveHandshake 1; locally resetForLoop)
      (⟨aloneReplica, [pongReply, okReply, okReply, firstSegment, lastSegment]⟩ : Joining Int) (fun s =>
        decide (s.segments ≠ [] ∧ s.world.clients firstSlot = some 1) && (s.world.heap 1).any (fun client =>
          decide (client.isMaster = true ∧ client.fd = s.world.serverConfig.masterFd ∧ client.isQueued = false ∧
            client.isSubscribed = false ∧ client.isBlocked = false)) &&
        endsIn (do let bytes ← recvMaster 4095; locally (serveBuffer firstSlot bytes [])) s fun r =>
          decide (r.segments = [] ∧ r.world.executed = [])) = true by decide +kernel)
  simp only [Bool.and_eq_true, decide_eq_true_eq, Option.any_eq_true] at checked
  obtain ⟨⟨⟨remains, inSlot⟩, master, foundMaster, isMaster, isMasterFd, outside, unsubscribed, unblocked⟩, ends⟩ := checked
  obtain ⟨r, hears, heard⟩ := exists_ok_of_endsIn ends
  obtain ⟨_, unexecuted⟩ := of_decide_eq_true heard
  obtain ⟨_, joined, joins, resets⟩ := bind_eq_ok.mp joins
  obtain ⟨resets, sameSegments⟩ := locally_run resets
  have following : Following ready.world firstSlot 1 master :=
    ⟨⟨inSlot, foundMaster, isMaster, isMasterFd⟩, outside, unsubscribed, unblocked⟩
  have step : Hears 1 ⟨ready.world, joined.segments⟩ [] r :=
    ⟨sameSegments ▸ remains, firstSlot, ready.world, .refl following, sameSegments ▸ hears⟩
  obtain ⟨_, _, slot, home, attached⟩ := handshake_attaches idleServer_entersLoop reached found idle (Client.isNew_iff.mpr manner)
    (by omega) noWait notMaster unpassed shakes nothing rfl (isLine ▸ cutsAnswer_last) joins resets
    (Run.single trivial step) unexecuted
  rw [isFd] at attached
  exact ⟨t, r, slot, home, answered, attached⟩

end RedisClone
