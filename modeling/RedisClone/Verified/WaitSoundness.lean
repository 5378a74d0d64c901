import Mathlib.Data.Fintype.Basic
import RedisClone.Lib.Acknowledged
import RedisClone.Lib.Runs
import RedisClone.Verified.Attachments

/-! # Runs of a master and its replicas

`Net` is one master and any number of replicas, with the channels between them.  Clients send write commands and WAITs,
the timers of the master run, and the messages on the channels are delivered one by one.  A replica counts every message
of its master, and the master the write commands alone, so that what a replica acknowledges reaches the offset of a WAIT
too early where the requests for its offset outweigh the write commands behind them.  While `Net.Keeps` excludes this,
a replica that is counted has executed what the WAIT awaits (`counted_executed`).
-/

namespace RedisClone

open Exec CString Acknowledged

/-! ## The net -/

/-- How a replica is connected: its slot, its client and its descriptor at the master, and the slot and the client of
the connection at the replica. -/
structure Link where
  slot : ClientSlot
  ptr : ClientPtr
  fd : Int
  home : ClientSlot
  peer : ClientPtr

structure Net (ι D : Type) where
  master : World D
  replicas : ι → World D
  /-- The messages that a replica has served. -/
  taken : ι → List Bytes
  /-- The messages on the way to a replica. -/
  down : ι → List Bytes
  /-- What is on the way to the master, each with the message that it answers. -/
  up : ι → List (Bytes × Bytes)
  /-- The write commands that were passed to a replica before the last WAIT was issued. -/
  awaited : ι → List RespRequest

inductive NetEvent (ι : Type) where
  | request (sender : ClientSlot) (call : Call)
  | timers
  /-- The next message reaches a replica. -/
  | deliver (i : ι) (stale : Bytes)
  /-- The next answer of a replica reaches the master. -/
  | acknowledge (i : ι) (stale : Bytes)

/-- The write command that a message carries. -/
def carriedWrite (message : Bytes) : Option RespRequest :=
  match parse message 0 with
  | .ok (some (req, _)) => if isWriteCmd req.command = true then some req else none
  | _ => none

namespace Net

variable {ι D : Type} [Externals D] (links : ι → Link) (s : Net ι D)

/-- The master went on, and what it sent the replicas is on its way. -/
def after (w : World D) (awaited : ι → List RespRequest) : Net ι D :=
  { s with
    master := w
    down := fun i => s.down i ++ messagesTo (links i).fd s.master w
    awaited := awaited }

/-- The call is a WAIT that is executed. -/
def Issues (sender : ClientSlot) (call : Call) : Prop :=
  call.request.command = .wait ∧ ∃ client ∈ s.master.occupant sender, reachesArm client call.request = true

instance (sender : ClientSlot) (call : Call) : Decidable (s.Issues sender call) :=
  inferInstanceAs (Decidable (_ ∧ ∃ client, s.master.occupant sender = some client ∧ _))

/-- What is awaited after the call. -/
def awaitedAfter (sender : ClientSlot) (call : Call) : ι → List RespRequest :=
  if s.Issues sender call then fun i => passedTo (links i).ptr s.master else s.awaited

/-- A replica took the next message on its way. -/
def took [DecidableEq ι] (i : ι) (message : Bytes) (rest : List Bytes) (w : World D) : Net ι D :=
  let answers := messagesTo (s.replicas i).serverConfig.masterFd (s.replicas i) w
  { s with
    replicas := Function.update s.replicas i w
    taken := Function.update s.taken i (s.taken i ++ [message])
    down := Function.update s.down i rest
    up := Function.update s.up i (s.up i ++ answers.map fun answer => (message, answer)) }

/-- The master read the next answer on its way. -/
def read [DecidableEq ι] (i : ι) (rest : List (Bytes × Bytes)) : Net ι D :=
  { s with up := Function.update s.up i rest }

/-- What follows the event, if the master and the replicas go on. -/
def next [DecidableEq ι] : NetEvent ι → Option (Net ι D)
  | .request sender call =>
    (serveRequest sender call s.master).toOption.map fun result => s.after links result.2 (s.awaitedAfter links sender call)
  | .timers => (runTimers s.master).toOption.map fun result => s.after links result.2 s.awaited
  | .deliver i stale =>
    match s.down i with
    | [] => none
    | message :: rest =>
      (serveBuffer (links i).home message stale (s.replicas i)).toOption.map fun result => s.took i message rest result.2
  | .acknowledge i stale =>
    match s.up i with
    | [] => none
    | answer :: rest =>
      (serveBuffer (links i).slot answer.2 stale s.master).toOption.map fun result =>
        (s.read i rest).after links result.2 s.awaited

/-- Requests are write commands and WAITs of ordinary clients. -/
def Serves : NetEvent ι → Prop
  | .request sender call =>
    (isWriteCmd call.request.command = true ∨ call.request.command = .wait) ∧
      ∃ client ∈ s.master.occupant sender, client.isReplica = false ∧ client.fd ≠ s.master.serverConfig.masterFd
  | .timers | .deliver _ _ | .acknowledge _ _ => True

/-- Every message that was sent to a replica. -/
def sentTo (i : ι) : List Bytes := s.taken i ++ s.down i

/-- What the channels rely on: a write command fits into its copy, and what a replica answers to one holds no request. -/
def Transmits : NetEvent ι → Prop
  | .request _ call => isWriteCmd call.request.command = true → Sendable call.request
  | .acknowledge i _ => ∀ answer ∈ (s.up i).head?, carriedWrite answer.1 ≠ none → 42 ∉ answer.2
  | .timers | .deliver _ _ => True

/-- What the count of a WAIT relies on: at the WAIT, a replica that lags behind was sent no request for its offset, with a
write command behind it, that it answers with as much as the master has counted. -/
def Guards : NetEvent ι → Prop
  | .request sender call => s.Issues sender call → ∀ i,
      Guarded carriedWrite List.length (s.sentTo i) (s.taken i) s.master.serverConfig.masterReplOffset
  | .timers | .deliver _ _ | .acknowledge _ _ => True

/-- What a run in which WAITs count relies on. -/
def Keeps (event : NetEvent ι) : Prop := s.Transmits event ∧ s.Guards event

instance (event : NetEvent ι) : Decidable (s.Serves event) :=
  match event with
  | .request sender _ =>
    inferInstanceAs (Decidable (_ ∧ ∃ client, s.master.occupant sender = some client ∧ _))
  | .timers | .deliver _ _ | .acknowledge _ _ => .isTrue trivial

instance (event : NetEvent ι) : Decidable (s.Transmits event) :=
  match event with
  | .request _ call => inferInstanceAs (Decidable (isWriteCmd call.request.command = true → Sendable call.request))
  | .acknowledge i _ =>
    inferInstanceAs (Decidable (∀ answer ∈ (s.up i).head?, carriedWrite answer.1 ≠ none → 42 ∉ answer.2))
  | .timers | .deliver _ _ => .isTrue trivial

instance [Fintype ι] (event : NetEvent ι) : Decidable (s.Guards event) :=
  match event with
  | .request sender call =>
    inferInstanceAs (Decidable (s.Issues sender call → ∀ i,
      Guarded carriedWrite List.length (s.sentTo i) (s.taken i) s.master.serverConfig.masterReplOffset))
  | .timers | .deliver _ _ | .acknowledge _ _ => .isTrue trivial

instance [Fintype ι] (event : NetEvent ι) : Decidable (s.Keeps event) :=
  inferInstanceAs (Decidable (s.Transmits event ∧ s.Guards event))

end Net

/-! ## The messages -/

theorem carriedWrite_getack : carriedWrite getackRequest = none := by decide +kernel

theorem carriedWrite_text {req : RespRequest} (sendable : Sendable req) : carriedWrite (requestText req) = some req := by
  have read := parse_encode (recordOf req sendable.storable) (plain_recordOf sendable.storable)
    (show (requestText req).drop 0 = encode _ ++ [] by rw [List.drop_zero, List.append_nil, sendable.text])
  rw [sendable.readsBack] at read
  rw [carriedWrite, read]
  exact if_pos sendable.isWrite

/-- The messages that a master sends its replicas. -/
def OfMaster (message : Bytes) : Prop := message = getackRequest ∨ ∃ req, Sendable req ∧ message = requestText req

/-- An acknowledgement is read as no more than it says. -/
theorem atoll_decimalInt_le {offset : Int} (nonneg : 0 ≤ offset) : atoll (decimalInt offset) ≤ offset := by
  rw [atoll, scanInteger_decimalInt]
  change saturate64 offset ≤ offset
  simp only [saturate64]
  omega

/-! ## The invariant -/

section Invariant

variable {ι D : Type} {links : ι → Link} {s t : Net ι D} {i : ι}

/-- A replica, its channels and its entry in the table of the master. -/
structure InStep (links : ι → Link) (s : Net ι D) (i : ι) : Prop where
  attached : ∃ offset, Attached s.master (links i).slot (links i).ptr (links i).fd offset ∧
    Vouched carriedWrite List.length (s.taken i) offset
  following : ∃ client, Following (s.replicas i) (links i).home (links i).peer client
  executed : (s.replicas i).executed = (s.taken i).filterMap carriedWrite
  counted : (s.replicas i).serverConfig.slaveReplOffset = volume List.length (s.taken i)
  passed : passedTo (links i).ptr s.master = (s.sentTo i).filterMap carriedWrite
  messages : ∀ message ∈ s.sentTo i, OfMaster message
  answers : ∀ answer ∈ s.up i, carriedWrite answer.1 = none →
    ∃ offset : Int, 0 ≤ offset ∧ answer.2 = ackText offset ∧ Vouched carriedWrite List.length (s.taken i) offset

/-- What is awaited of a replica was sent to it, and no answer of the replica is as much as the WAIT captured while some
of it is missing. -/
def Net.Awaits (s : Net ι D) (i : ι) : Prop :=
  ∃ sent, sent <+: s.sentTo i ∧ s.awaited i = sent.filterMap carriedWrite ∧
    Guarded carriedWrite List.length sent (s.taken i) s.master.serverConfig.capturedMasterOffset

/-- A replica that is counted has executed what is awaited. -/
theorem InStep.executed_awaited (inStep : InStep links s i) (awaits : s.Awaits i) {client : Client}
    (found : s.master.heap (links i).ptr = some client)
    (counted : s.master.serverConfig.capturedMasterOffset ≤ client.replOffset) :
    s.awaited i <+: (s.replicas i).executed := by
  obtain ⟨offset, attached, vouched⟩ := inStep.attached
  obtain ⟨replica, foundReplica, follower⟩ := attached.client
  obtain rfl : client = replica := Option.some.inj (found.symm.trans foundReplica)
  obtain ⟨sent, wasSent, isAwaited, guarded⟩ := awaits
  rw [isAwaited, inStep.executed]
  rw [follower.isOffset] at counted
  exact taken_of_reached wasSent (List.prefix_append _ _) guarded vouched counted

theorem sentTo_after (w : World D) (awaited : ι → List RespRequest) :
    (s.after links w awaited).sentTo i = s.sentTo i ++ messagesTo (links i).fd s.master w :=
  (List.append_assoc _ _ _).symm

/-- What the master sends a replica on its way to another state carries what it passes to it. -/
structure Feeds (links : ι → Link) (s : Net ι D) (w : World D) (i : ι) : Prop where
  attached : ∃ offset, Attached w (links i).slot (links i).ptr (links i).fd offset ∧
    Vouched carriedWrite List.length (s.taken i) offset
  ofMaster : ∀ message ∈ messagesTo (links i).fd s.master w, OfMaster message
  passed : passedTo (links i).ptr w =
    passedTo (links i).ptr s.master ++ (messagesTo (links i).fd s.master w).filterMap carriedWrite

theorem feeds_nothing {w : World D} (attached : ∃ offset, Attached w (links i).slot (links i).ptr (links i).fd offset ∧
      Vouched carriedWrite List.length (s.taken i) offset)
    (silent : messagesTo (links i).fd s.master w = []) (passed : w.passed = s.master.passed) : Feeds links s w i where
  attached := attached
  ofMaster message member := by simp [silent] at member
  passed := by rw [silent, List.filterMap_nil, List.append_nil, passedTo, passedTo, passed]

/-- The master goes on. -/
theorem InStep.after {w : World D} (inStep : InStep links s i) (feeds : Feeds links s w i)
    (awaited : ι → List RespRequest) : InStep links (s.after links w awaited) i where
  attached := feeds.attached
  following := inStep.following
  executed := inStep.executed
  counted := inStep.counted
  passed := by
    rw [sentTo_after, List.filterMap_append, ← inStep.passed]
    exact feeds.passed
  messages message member := by
    rw [sentTo_after] at member
    exact (List.mem_append.mp member).elim (inStep.messages message) (feeds.ofMaster message)
  answers := inStep.answers

/-- The master goes on, and what is awaited stays the same. -/
theorem Net.Awaits.after {w : World D} (awaits : s.Awaits i)
    (captured : w.serverConfig.capturedMasterOffset = s.master.serverConfig.capturedMasterOffset) :
    (s.after links w s.awaited).Awaits i := by
  obtain ⟨sent, wasSent, isAwaited, guarded⟩ := awaits
  refine ⟨sent, ?_, isAwaited, ?_⟩
  · rw [sentTo_after]
    exact wasSent.trans (List.prefix_append _ _)
  · rw [← captured] at guarded
    exact guarded

/-- A WAIT awaits what was passed on before it. -/
theorem InStep.awaits_passed {w : World D} (inStep : InStep links s i)
    (guarded : Guarded carriedWrite List.length (s.sentTo i) (s.taken i) w.serverConfig.capturedMasterOffset) :
    (s.after links w fun i => passedTo (links i).ptr s.master).Awaits i := by
  refine ⟨s.sentTo i, ?_, inStep.passed, guarded⟩
  rw [sentTo_after]
  exact List.prefix_append _ _

/-- What happens to another replica. -/
theorem InStep.elsewhere (inStep : InStep links s i) (master : t.master = s.master) (replicas : t.replicas i = s.replicas i)
    (taken : t.taken i = s.taken i) (down : t.down i = s.down i) (up : t.up i = s.up i) : InStep links t i := by
  have sentTo : t.sentTo i = s.sentTo i := by rw [Net.sentTo, Net.sentTo, taken, down]
  constructor
  · rw [master, taken]
    exact inStep.attached
  · rw [replicas]
    exact inStep.following
  · rw [replicas, taken]
    exact inStep.executed
  · rw [replicas, taken]
    exact inStep.counted
  · rw [master, sentTo]
    exact inStep.passed
  · rw [sentTo]
    exact inStep.messages
  · rw [up, taken]
    exact inStep.answers

/-- The invariant of the runs. -/
structure Net.Sound (links : ι → Link) (s : Net ι D) : Prop where
  connected : Connected s.master
  accepted : ∀ i, 0 ≤ (links i).fd
  apart : Function.Injective fun i => (links i).slot
  inStep : ∀ i, InStep links s i

/-- Every replica is attached to a master that has passed on nothing, and nothing is on its way. -/
structure Net.AllAttached (links : ι → Link) (s : Net ι D) : Prop where
  connected : Connected s.master
  accepted : ∀ i, 0 ≤ (links i).fd
  apart : Function.Injective fun i => (links i).slot
  attached : ∀ i, Attached s.master (links i).slot (links i).ptr (links i).fd 0
  passed : ∀ i, passedTo (links i).ptr s.master = []
  following : ∀ i, ∃ client, Following (s.replicas i) (links i).home (links i).peer client
  executed : ∀ i, (s.replicas i).executed = []
  counted : ∀ i, (s.replicas i).serverConfig.slaveReplOffset = 0
  taken : ∀ i, s.taken i = []
  down : ∀ i, s.down i = []
  up : ∀ i, s.up i = []
  awaited : ∀ i, s.awaited i = []

theorem Net.AllAttached.sound (starts : s.AllAttached links) : s.Sound links where
  connected := starts.connected
  accepted := starts.accepted
  apart := starts.apart
  inStep i := by
    have nothing : s.sentTo i = [] := by rw [Net.sentTo, starts.taken, starts.down, List.append_nil]
    constructor
    · exact ⟨0, starts.attached i, .inl le_rfl⟩
    · exact starts.following i
    · rw [starts.executed, starts.taken, List.filterMap_nil]
    · rw [starts.counted, starts.taken, volume_nil, Nat.cast_zero]
    · rw [starts.passed, nothing, List.filterMap_nil]
    · simp [nothing]
    · intro answer member
      rw [starts.up] at member
      cases member

theorem Net.AllAttached.awaits (starts : s.AllAttached links) (i : ι) : s.Awaits i :=
  ⟨[], List.nil_prefix, starts.awaited i, fun missing => absurd List.nil_prefix missing⟩

end Invariant

/-! ## Steps -/

section Steps

variable {ι D : Type} [Externals D] {links : ι → Link} {s t : Net ι D} {i : ι} {sender : ClientSlot} {call : Call}
  {stale : Bytes} [DecidableEq ι]

omit [DecidableEq ι] in
/-- A request of a client feeds every replica, and a WAIT that is executed captures the offset. -/
theorem Net.Sound.request_feeds {w : World D} (sound : s.Sound links) (serves : s.Serves (.request sender call))
    (transmits : s.Transmits (.request sender call)) (run : serveRequest sender call s.master = .ok ((), w)) (i : ι) :
    Feeds links s w i ∧ w.serverConfig.capturedMasterOffset =
      if s.Issues sender call then s.master.serverConfig.masterReplOffset
      else s.master.serverConfig.capturedMasterOffset := by
  obtain ⟨isKind, client, occupied, notReplica, notMaster⟩ := serves
  obtain ⟨ptr, inSlot, found⟩ := Option.bind_eq_some_iff.mp occupied
  obtain ⟨offset, attached, vouched⟩ := (sound.inStep i).attached
  cases isKind with
  | inl isWrite =>
    have notIssued : ¬ s.Issues sender call := by
      rintro ⟨isWait, _⟩
      simp [isWait, isWriteCmd] at isWrite
    have sendable := transmits isWrite
    -- a write is copied to the replica; what it carries is what was passed on
    obtain ⟨stays, copied, passed, _, captured⟩ :=
      attached_write attached sound.connected inSlot found notReplica notMaster isWrite run
    rw [sendable.copyText] at copied
    rw [if_neg notIssued]
    refine ⟨⟨⟨offset, stays, vouched⟩, fun message member => ?_, ?_⟩, captured⟩
    · rw [copied] at member
      exact .inr ⟨call.request, sendable, List.mem_singleton.mp member⟩
    · rw [copied, List.filterMap_cons_some (carriedWrite_text sendable)]
      exact passed
  | inr isWait =>
    cases reaches : reachesArm client call.request with
    | true =>
      have issued : s.Issues sender call := ⟨isWait, client, occupied, reaches⟩
      obtain ⟨stays, asked, passed, _, captured⟩ :=
        attached_wait attached sound.connected inSlot found notReplica notMaster isWait reaches run
      -- a WAIT asks the replica at most once, and its question carries no write
      have questions : ∀ message ∈ messagesTo (links i).fd s.master w, message = getackRequest := by
        intro message member
        cases asked with
        | inl nothing => simp [nothing] at member
        | inr question => simpa [question] using member
      have carriesNone : (messagesTo (links i).fd s.master w).filterMap carriedWrite = [] := by
        apply List.filterMap_eq_nil_iff.mpr
        intro message member
        rw [questions message member, carriedWrite_getack]
      rw [if_pos issued]
      refine ⟨⟨⟨offset, stays, vouched⟩, fun message member => .inl (questions message member), ?_⟩, captured⟩
      rw [carriesNone, List.append_nil, passedTo, passedTo, passed]
    | false =>
      have notIssued : ¬ s.Issues sender call := by
        rintro ⟨_, client', occupied', reaches'⟩
        obtain rfl : client = client' := Option.some.inj (Eq.trans (Eq.symm occupied) occupied')
        simp [reaches] at reaches'
      -- inside MULTI or in subscribed mode the WAIT does nothing yet
      obtain ⟨stays, silent, passed, _, captured⟩ :=
        attached_unreached attached sound.connected inSlot found notReplica notMaster isWait reaches run
      rw [if_neg notIssued]
      exact ⟨feeds_nothing ⟨offset, stays, vouched⟩ silent passed, captured⟩

/-- A request of a client. -/
theorem Net.Sound.request (sound : s.Sound links) (serves : s.Serves (.request sender call))
    (transmits : s.Transmits (.request sender call)) (isNext : s.next links (.request sender call) = some t) :
    t.Sound links := by
  obtain ⟨⟨_, w⟩, isResult, rfl⟩ := Option.map_eq_some_iff.mp isNext
  have run := toOption_eq_some.mp isResult
  have feeds := fun i => (sound.request_feeds serves transmits run i).1
  obtain ⟨_, client, occupied, _⟩ := serves
  obtain ⟨ptr, inSlot, _⟩ := Option.bind_eq_some_iff.mp occupied
  have connected : Connected w := sound.connected.of_undisturbed
    (serveRequest_undisturbed inSlot (sound.connected.onlyFd inSlot) run)
  exact ⟨connected, sound.accepted, sound.apart, fun i => (sound.inStep i).after (feeds i) _⟩

omit [Externals D] [DecidableEq ι] in
/-- The timers send the replicas nothing. -/
theorem Net.Sound.timers_feeds {w : World D} (sound : s.Sound links) (run : runTimers s.master = .ok ((), w)) (i : ι) :
    Feeds links s w i ∧ w.serverConfig.capturedMasterOffset = s.master.serverConfig.capturedMasterOffset := by
  obtain ⟨offset, attached, vouched⟩ := (sound.inStep i).attached
  obtain ⟨stays, silent, passed, captured⟩ := attached_timers attached sound.connected (sound.accepted i) run
  exact ⟨feeds_nothing ⟨offset, stays, vouched⟩ silent passed, captured⟩

/-- The timers of the master. -/
theorem Net.Sound.timers (sound : s.Sound links) (isNext : s.next links .timers = some t) : t.Sound links := by
  obtain ⟨⟨_, w⟩, isResult, rfl⟩ := Option.map_eq_some_iff.mp isNext
  have run := toOption_eq_some.mp isResult
  obtain ⟨clientwise, watchList⟩ := runTimers_notBlocked sound.connected.distinct run
  have connected : Connected w := sound.connected.of_clientwise (clientwise.mono fun _ _ _ _ => trivial) watchList
  exact ⟨connected, sound.accepted, sound.apart, fun i => (sound.inStep i).after (sound.timers_feeds run i).1 _⟩

omit [DecidableEq ι] in
/-- What a replica does with a message of its master. -/
theorem serveBuffer_ofMaster {w w' : World D} {home : ClientSlot} {peer : ClientPtr} {client : Client} {message : Bytes}
    (following : Following w home peer client) (ofMaster : OfMaster message)
    (run : serveBuffer home message stale w = .ok ((), w')) :
    (∃ client', Following w' home peer client') ∧ w'.executed = w.executed ++ [message].filterMap carriedWrite ∧
      w'.serverConfig.slaveReplOffset = w.serverConfig.slaveReplOffset + message.length ∧
      (carriedWrite message = none →
        messagesTo w.serverConfig.masterFd w w' = [ackText w.serverConfig.slaveReplOffset]) := by
  cases ofMaster with
  | inl isGetack =>
    subst isGetack
    rw [replica_answers following run]
    refine ⟨⟨client, following.of_same rfl rfl rfl⟩, ?_, ?_, fun _ => ?_⟩
    · rw [List.filterMap_cons_none carriedWrite_getack]
      exact (List.append_nil _).symm
    · rw [length_getackRequest]
      rfl
    · rw [messagesTo_of_sent (show _ = w.sent ++ [_] from rfl)]
      simp [following.isFd]
  | inr isWrite =>
    obtain ⟨req, sendable, rfl⟩ := isWrite
    obtain ⟨stays, executed, counted⟩ := replica_takes sendable following run
    refine ⟨stays, ?_, counted, fun carriesNone => ?_⟩
    · rw [List.filterMap_cons_some (carriedWrite_text sendable)]
      exact executed
    · simp [carriedWrite_text sendable] at carriesNone

omit [Externals D] in
/-- What was sent stays as it was: a message moves from the way to what is taken. -/
theorem sentTo_took {message : Bytes} {rest : List Bytes} {w : World D} (onTheWay : s.down i = message :: rest) :
    (s.took i message rest w).sentTo i = s.sentTo i := by
  rw [Net.sentTo, show (s.took i message rest w).taken i = s.taken i ++ [message] from Function.update_self _ _ _,
    show (s.took i message rest w).down i = rest from Function.update_self _ _ _, Net.sentTo, onTheWay, List.append_assoc]
  rfl

/-- A replica takes a message. -/
theorem InStep.took {message : Bytes} {rest : List Bytes} {w : World D} (inStep : InStep links s i)
    (onTheWay : s.down i = message :: rest)
    (run : serveBuffer (links i).home message stale (s.replicas i) = .ok ((), w)) :
    InStep links (s.took i message rest w) i := by
  obtain ⟨client, following⟩ := inStep.following
  have taken : (s.took i message rest w).taken i = s.taken i ++ [message] := Function.update_self _ _ _
  have replicas : (s.took i message rest w).replicas i = w := Function.update_self _ _ _
  have sentTo := sentTo_took (w := w) onTheWay
  have up : (s.took i message rest w).up i = s.up i ++
      (messagesTo (s.replicas i).serverConfig.masterFd (s.replicas i) w).map fun answer => (message, answer) :=
    Function.update_self _ _ _
  have ofMaster : OfMaster message := inStep.messages message (by simp [Net.sentTo, onTheWay])
  obtain ⟨stays, executed, counted, answered⟩ := serveBuffer_ofMaster following ofMaster run
  constructor
  · obtain ⟨offset, attached, vouched⟩ := inStep.attached
    rw [taken]
    exact ⟨offset, attached, vouched.mono _⟩
  · rw [replicas]
    exact stays
  · rw [replicas, taken, List.filterMap_append, executed, inStep.executed]
  · rw [replicas, taken, volume_append, volume_singleton, counted, inStep.counted, Nat.cast_add]
  · rw [sentTo]
    exact inStep.passed
  · rw [sentTo]
    exact inStep.messages
  · intro answer member carriesNone
    rw [up] at member
    rw [taken]
    cases List.mem_append.mp member with
    | inl isOld =>
      obtain ⟨offset, nonneg, isText, vouched⟩ := inStep.answers answer isOld carriesNone
      exact ⟨offset, nonneg, isText, vouched.mono _⟩
    | inr isNew =>
      obtain ⟨text, sent, rfl⟩ := List.mem_map.mp isNew
      rw [answered carriesNone, inStep.counted] at sent
      exact ⟨_, Int.natCast_nonneg _, List.mem_singleton.mp sent, vouched_question _ carriesNone⟩

/-- A replica takes the next message of the master. -/
theorem Net.Sound.deliver (sound : s.Sound links) (isNext : s.next links (.deliver i stale) = some t) : t.Sound links := by
  cases onTheWay : s.down i with
  | nil => simp [Net.next, onTheWay] at isNext
  | cons message rest =>
    simp only [Net.next, onTheWay] at isNext
    obtain ⟨⟨_, w⟩, isResult, rfl⟩ := Option.map_eq_some_iff.mp isNext
    refine ⟨sound.connected, sound.accepted, sound.apart, fun j => ?_⟩
    by_cases here : j = i
    · subst here
      exact (sound.inStep j).took onTheWay (toOption_eq_some.mp isResult)
    · have sameMaster : (s.took i message rest w).master = s.master := rfl
      apply (sound.inStep j).elsewhere sameMaster
      · exact Function.update_of_ne here _ _
      · exact Function.update_of_ne here _ _
      · exact Function.update_of_ne here _ _
      · exact Function.update_of_ne here _ _

omit [Externals D] in
/-- An answer is no longer on its way. -/
theorem InStep.read {answer : Bytes × Bytes} {rest : List (Bytes × Bytes)} (inStep : InStep links s i) (j : ι)
    (onTheWay : s.up j = answer :: rest) : InStep links (s.read j rest) i where
  attached := inStep.attached
  following := inStep.following
  executed := inStep.executed
  counted := inStep.counted
  passed := inStep.passed
  messages := inStep.messages
  answers other member := by
    apply inStep.answers other
    replace member : other ∈ Function.update s.up j rest i := member
    rw [Function.update_apply] at member
    split at member
    · rename_i here
      rw [here, onTheWay]
      exact List.mem_cons_of_mem _ member
    · exact member

omit [Externals D] [DecidableEq ι] in
/-- The master records the offset of a replica. -/
theorem Net.Sound.attached_recorded (sound : s.Sound links) {client : Client} {offset : Int}
    (found : s.master.heap (links i).ptr = some client) (vouched : Vouched carriedWrite List.length (s.taken i) offset)
    (j : ι) : ∃ offset', Attached (s.master.setClient (links i).ptr { client with replOffset := offset }) (links j).slot
      (links j).ptr (links j).fd offset' ∧ Vouched carriedWrite List.length (s.taken j) offset' := by
  obtain ⟨before, attached, vouchedBefore⟩ := (sound.inStep j).attached
  by_cases here : (links j).ptr = (links i).ptr
  · obtain ⟨_, attachedHere, _⟩ := (sound.inStep i).attached
    obtain rfl : j = i := sound.apart (sound.connected.distinct _ _ _ attached.inSlot (here ▸ attachedHere.inSlot))
    obtain ⟨replica, foundReplica, follower⟩ := attached.client
    obtain rfl : client = replica := Option.some.inj (found.symm.trans foundReplica)
    refine ⟨offset, ⟨attached.inSlot, ⟨_, Function.update_self _ _ _, ?_⟩, attached.notMaster, attached.notWaiter⟩, vouched⟩
    exact { follower with isOffset := rfl }
  · exact ⟨before, attached.of_same rfl (Function.update_of_ne here _ _) rfl attached.notWaiter, vouchedBefore⟩

/-- What a replica answers feeds no replica. -/
theorem Net.Sound.acknowledge_feeds {answer : Bytes × Bytes} {rest : List (Bytes × Bytes)} {w : World D}
    (sound : s.Sound links) (transmits : s.Transmits (.acknowledge i stale)) (onTheWay : s.up i = answer :: rest)
    (run : serveBuffer (links i).slot answer.2 stale s.master = .ok ((), w)) (j : ι) :
    Feeds links (s.read i rest) w j ∧ w.serverConfig.capturedMasterOffset = s.master.serverConfig.capturedMasterOffset := by
  obtain ⟨offset, attached, vouched⟩ := (sound.inStep i).attached
  have nothing {w : World D} (sent : w.sent = s.master.sent) : messagesTo (links j).fd s.master w = [] :=
    messagesTo_elsewhere (sent.trans (List.append_nil _).symm) (by simp)
  cases carries : carriedWrite answer.1 with
  | some req =>
    -- the answer to a write carries no `*`, so the master does not read a request in it
    have starless : 42 ∉ answer.2 := transmits answer (by simp [onTheWay]) (by simp [carries])
    rw [serveBuffer_starless starless] at run
    obtain rfl : s.master = w := by simpa using run
    exact ⟨feeds_nothing (sound.inStep j).attached (nothing rfl) rfl, rfl⟩
  | none =>
    obtain ⟨acknowledged, nonneg, isText, vouched⟩ := (sound.inStep i).answers answer (by simp [onTheWay]) carries
    obtain ⟨client, found, follower⟩ := attached.client
    rw [isText] at run
    -- the acknowledged offset is vouched for by what the replica had taken
    obtain rfl := master_reads attached.inSlot found (follower.isFd ▸ attached.notMaster) follower.outside
      follower.unsubscribed run
    have recorded := sound.attached_recorded found (vouched.of_le (atoll_decimalInt_le nonneg)) j
    exact ⟨feeds_nothing recorded (nothing rfl) rfl, rfl⟩

/-- The master reads the next answer of a replica. -/
theorem Net.Sound.acknowledge (sound : s.Sound links) (transmits : s.Transmits (.acknowledge i stale))
    (isNext : s.next links (.acknowledge i stale) = some t) : t.Sound links := by
  cases onTheWay : s.up i with
  | nil => simp [Net.next, onTheWay] at isNext
  | cons answer rest =>
    simp only [Net.next, onTheWay] at isNext
    obtain ⟨⟨_, w⟩, isResult, rfl⟩ := Option.map_eq_some_iff.mp isNext
    have run := toOption_eq_some.mp isResult
    obtain ⟨offset, attached, _⟩ := (sound.inStep i).attached
    have connected : Connected w := sound.connected.of_undisturbed
      (serveBuffer_undisturbed attached.inSlot (sound.connected.onlyFd attached.inSlot) run)
    refine ⟨connected, sound.accepted, sound.apart, fun j => ?_⟩
    exact ((sound.inStep j).read i onTheWay).after (sound.acknowledge_feeds transmits onTheWay run j).1 _

omit [Externals D] in
/-- A replica takes a message, and more answers can only confirm more of what is awaited. -/
theorem Net.Awaits.took {message : Bytes} {rest : List Bytes} {w : World D} {j : ι} (awaits : s.Awaits j)
    (onTheWay : s.down i = message :: rest) : (s.took i message rest w).Awaits j := by
  obtain ⟨sent, wasSent, isAwaited, guarded⟩ := awaits
  by_cases here : j = i
  · subst here
    refine ⟨sent, ?_, isAwaited, ?_⟩
    · rw [sentTo_took onTheWay]
      exact wasSent
    · rw [show (s.took j message rest w).taken j = s.taken j ++ [message] from Function.update_self _ _ _]
      exact guarded.mono _
  · have taken : (s.took i message rest w).taken j = s.taken j := Function.update_of_ne here _ _
    have down : (s.took i message rest w).down j = s.down j := Function.update_of_ne here _ _
    refine ⟨sent, ?_, isAwaited, ?_⟩
    · rw [Net.sentTo, taken, down]
      exact wasSent
    · rw [taken]
      exact guarded

end Steps

/-! ## Runs -/

section Runs

variable {ι D : Type} [Externals D] [DecidableEq ι] {links : ι → Link} {s t : Net ι D}

/-- The steps of the net. -/
def NetStep (links : ι → Link) (s : Net ι D) (event : NetEvent ι) (t : Net ι D) : Prop := s.next links event = some t

theorem Net.Sound.step {event : NetEvent ι} (sound : s.Sound links) (serves : s.Serves event)
    (transmits : s.Transmits event) (step : NetStep links s event t) : t.Sound links := by
  cases event with
  | request sender call => exact sound.request serves transmits step
  | timers => exact sound.timers step
  | deliver i stale => exact sound.deliver step
  | acknowledge i stale => exact sound.acknowledge transmits step

theorem Net.Sound.awaits_step {event : NetEvent ι} (sound : s.Sound links) (awaits : ∀ i, s.Awaits i)
    (serves : s.Serves event) (keeps : s.Keeps event) (step : NetStep links s event t) (i : ι) : t.Awaits i := by
  obtain ⟨transmits, guards⟩ := keeps
  cases event with
  | request sender call =>
    obtain ⟨⟨_, w⟩, isResult, rfl⟩ := Option.map_eq_some_iff.mp step
    obtain ⟨_, captured⟩ := sound.request_feeds serves transmits (toOption_eq_some.mp isResult) i
    unfold Net.awaitedAfter
    by_cases issued : s.Issues sender call
    · rw [if_pos issued] at captured ⊢
      refine (sound.inStep i).awaits_passed ?_
      rw [captured]
      exact guards issued i
    · rw [if_neg issued] at captured ⊢
      exact (awaits i).after captured
  | timers =>
    obtain ⟨⟨_, w⟩, isResult, rfl⟩ := Option.map_eq_some_iff.mp step
    exact (awaits i).after (sound.timers_feeds (toOption_eq_some.mp isResult) i).2
  | deliver j stale =>
    cases onTheWay : s.down j with
    | nil => simp [NetStep, Net.next, onTheWay] at step
    | cons message rest =>
      simp only [NetStep, Net.next, onTheWay] at step
      obtain ⟨⟨_, w⟩, isResult, rfl⟩ := Option.map_eq_some_iff.mp step
      exact (awaits i).took onTheWay
  | acknowledge j stale =>
    cases onTheWay : s.up j with
    | nil => simp [NetStep, Net.next, onTheWay] at step
    | cons answer rest =>
      simp only [NetStep, Net.next, onTheWay] at step
      obtain ⟨⟨_, w⟩, isResult, rfl⟩ := Option.map_eq_some_iff.mp step
      have captured := (sound.acknowledge_feeds transmits onTheWay (toOption_eq_some.mp isResult) i).2
      exact Net.Awaits.after (s := s.read j rest) (awaits i) captured

/-- In every run on which the count of a WAIT can rely, a replica whose offset reaches the one that the last WAIT
captured has executed every write command that was passed to it before that WAIT.  `handle_wait` and the end of the
timers count a replica by these two offsets, and change neither. -/
theorem counted_executed {i : ι} {client : Client} (start : s.AllAttached links)
    (run : Run (NetStep links) (fun u event => u.Serves event ∧ u.Keeps event) s t)
    (found : t.master.heap (links i).ptr = some client)
    (counted : t.master.serverConfig.capturedMasterOffset ≤ client.replOffset) :
    t.awaited i <+: (t.replicas i).executed := by
  let inv (s : Net ι D) : Prop := s.Sound links ∧ ∀ i, s.Awaits i
  have preserved (u : Net ι D) (event : NetEvent ι) (v : Net ι D) (holds : inv u)
      (allowed : u.Serves event ∧ u.Keeps event) (step : NetStep links u event v) : inv v :=
    ⟨holds.1.step allowed.1 allowed.2.1 step, holds.1.awaits_step holds.2 allowed.1 allowed.2 step⟩
  have atEnd : inv t := run.invariant preserved ⟨start.sound, start.awaits⟩
  exact (atEnd.1.inStep i).executed_awaited (atEnd.2 i) found counted

end Runs

/-! ### One replica -/

/-- A master with a replica and another client. -/
def masterOfOne : World Int :=
  ((blankWorld Int).seat firstSlot 0 { newClient 5 with isReplica := true }).seat secondSlot 1 (newClient 6)

/-- A replica with the connection to its master. -/
def onlyReplica : World Int := aloneReplica.seat firstSlot 1 { newClient 4 with isMaster := true }

def onlyLink (_ : Unit) : Link := ⟨firstSlot, 0, 5, firstSlot, 1⟩

def netOfOne : Net Unit Int := ⟨masterOfOne, fun _ => onlyReplica, fun _ => [], fun _ => [], fun _ => [], fun _ => []⟩

theorem netOfOne_allAttached : netOfOne.AllAttached onlyLink where
  connected := by
    have nobody : NoConnections (blankWorld Int) := ⟨fun _ => rfl, rfl, fun _ => rfl⟩
    have first : Connected ((blankWorld Int).seat firstSlot 0 { newClient 5 with isReplica := true }) :=
      nobody.connected.seat rfl rfl fun slot inUse => absurd (nobody.clients slot) inUse
    exact first.seat rfl rfl (by decide +kernel)
  accepted := fun () => by decide
  apart _ _ _ := rfl
  attached := fun () => ⟨rfl, ⟨_, rfl, rfl, rfl, rfl, rfl, rfl, rfl, rfl⟩, by decide +kernel, by decide +kernel⟩
  passed _ := rfl
  following _ := ⟨_, ⟨⟨rfl, rfl, rfl, rfl⟩, rfl, rfl, rfl⟩⟩
  executed _ := rfl
  counted _ := rfl
  taken _ := rfl
  down _ := rfl
  up _ := rfl
  awaited _ := rfl

def clientSends (strings : List Bytes) : NetEvent Unit :=
  .request secondSlot ⟨0, requestOf strings, (encode strings).length⟩

/-- A write command and a WAIT that is answered when the replica has acknowledged. -/
def waitedFor (key : Bytes) : List (NetEvent Unit) :=
  [clientSends [lit "SET", key, lit "v"], clientSends [lit "WAIT", lit "1", lit "0"], .deliver () [], .deliver () [],
    .acknowledge () [], .timers]

/-- A WAIT counts a replica that has executed its SET. -/
theorem counted_executed_one : ∃ (t : Net Unit Int) (client : Client), t.master.heap 0 = some client ∧
    t.master.serverConfig.capturedMasterOffset ≤ client.replOffset ∧ t.awaited () ≠ [] ∧
      t.awaited () <+: (t.replicas ()).executed := by
  have evaluates : (Run.follow (fun u event => u.next onlyLink event) (fun u event => u.Serves event ∧ u.Keeps event) netOfOne
      (waitedFor (lit "a"))).any (fun t => (t.master.heap 0).any fun client =>
        decide (t.master.serverConfig.capturedMasterOffset ≤ client.replOffset ∧ t.awaited () ≠ [])) = true := by
    decide +kernel
  obtain ⟨t, follows, checked⟩ := (Option.any_eq_true _ _).mp evaluates
  obtain ⟨client, found, holds⟩ := (Option.any_eq_true _ _).mp checked
  obtain ⟨counted, awaits⟩ := of_decide_eq_true holds
  have run : Run (NetStep onlyLink) (fun u event => u.Serves event ∧ u.Keeps event) netOfOne t :=
    Run.of_follow (fun _ _ _ isNext => isNext) follows
  exact ⟨t, client, found, counted, awaits, counted_executed netOfOne_allAttached run found counted⟩

/-- A WAIT counts a replica that has not executed a SET, since it has counted the questions of two WAITs before. -/
theorem counted_too_early : ¬ ∀ (t : Net Unit Int) (client : Client),
    Run (NetStep onlyLink) (fun u event => u.Serves event) netOfOne t → t.master.heap 0 = some client →
      t.master.serverConfig.capturedMasterOffset ≤ client.replOffset →
        t.awaited () <+: (t.replicas ()).executed := by
  intro all
  let events := waitedFor (lit "a") ++ waitedFor (lit "b") ++
    [clientSends [lit "SET", lit "c", lit "v"], clientSends [lit "WAIT", lit "1", lit "0"]]
  have evaluates : (Run.follow (fun u event => u.next onlyLink event) (fun u event => u.Serves event) netOfOne events).any
      (fun t => (t.master.heap 0).any fun client =>
        decide (t.master.serverConfig.capturedMasterOffset ≤ client.replOffset ∧
          ¬ t.awaited () <+: (t.replicas ()).executed)) = true := by
    decide +kernel
  obtain ⟨t, follows, checked⟩ := (Option.any_eq_true _ _).mp evaluates
  obtain ⟨client, found, holds⟩ := (Option.any_eq_true _ _).mp checked
  obtain ⟨counted, missing⟩ := of_decide_eq_true holds
  have run : Run (NetStep onlyLink) (fun u event => u.Serves event) netOfOne t :=
    Run.of_follow (fun _ _ _ isNext => isNext) follows
  exact missing (all t client run found counted)

end RedisClone
