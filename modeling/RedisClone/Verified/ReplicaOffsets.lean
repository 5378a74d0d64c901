import RedisClone.Verified.Acknowledgements

/-! # The offset of a replica

A replica counts the bytes that `parse` took of a command of its master after `handle` returned, in the loop of the
handshake and in the event loop.  `loggedLoop` is such a loop with a log of what was sent for each command.  Over whole
commands it calls `handle` once for each of them, with its length (`loggedLoop_texts`), so that a request for the
offset is answered with the bytes before it (`logged_answers`).  `replica_counts` has this for the handshake followed by
any number of buffers.
-/

namespace RedisClone

open Exec CString

variable {D : Type}

/-! ## What a master sends -/

/-- A copy of a write command, or a request for the offset. -/
inductive MasterCommand where
  | copy (req : RespRequest) (sendable : Sendable req)
  | getack

namespace MasterCommand

/-- The bytes that the master sends. -/
def text : MasterCommand → Bytes
  | copy req _ => copyText req
  | getack => getackRequest

def message : MasterCommand → Message
  | copy req sendable => recordOf req sendable.storable
  | getack => getackMessage

theorem encode_message (command : MasterCommand) : encode command.message.elements = command.text := by
  cases command with
  | copy req sendable => exact sendable.text.symm.trans sendable.copyText.symm
  | getack => exact encode_getackElements

theorem plain_message (command : MasterCommand) : ∀ element ∈ command.message.elements, Plain element := by
  cases command with
  | copy req sendable => exact plain_recordOf sendable.storable
  | getack => exact (by decide +kernel : ∀ element ∈ getackElements, Plain element)

theorem text_pos (command : MasterCommand) : 0 < command.text.length := by
  cases command with
  | copy req sendable =>
    rw [text, sendable.copyText]
    exact requestText_pos req
  | getack => exact (by decide +kernel : 0 < getackRequest.length)

end MasterCommand

def texts (commands : List MasterCommand) : Bytes := (commands.map MasterCommand.text).flatten

@[simp] theorem texts_nil : texts [] = [] := rfl

@[simp] theorem texts_cons (command : MasterCommand) (commands : List MasterCommand) :
    texts (command :: commands) = command.text ++ texts commands := by simp [texts]

@[simp] theorem texts_append (commands others : List MasterCommand) :
    texts (commands ++ others) = texts commands ++ texts others := by simp [texts]

theorem encodeAll_messages (commands : List MasterCommand) :
    encodeAll (commands.map MasterCommand.message) = texts commands := by
  simp [encodeAll, texts, Function.comp_def, MasterCommand.encode_message]

/-! ## The loops with a log -/

/-- Serves these calls, and gives for each of them what was sent in the meantime. -/
def logged (serve : Call → M D Unit) : List Call → M D (List (List (Int × Bytes)))
  | [] => pure []
  | call :: calls => do
    let before ← Exec.observe World.sent
    serve call
    let after ← Exec.observe World.sent
    let log ← logged serve calls
    pure (after.drop before.length :: log)

/-- The loop over a buffer, with the log. -/
def loggedLoop (memory : Bytes) (n : Nat) (serve : Call → M D Unit) (fuel ptr : Nat) :
    M D (List (List (Int × Bytes))) := do
  let log ← logged serve (handleCallsFrom memory n fuel ptr).1
  match (handleCallsFrom memory n fuel ptr).2 with
  | some f => fault f
  | none => pure log

/-- `serveBuffer` with the log. -/
def loggedBuffer [Externals D] (slot : ClientSlot) (bytes stale : Bytes) : M D (List (List (Int × Bytes))) :=
  loggedLoop (bytes ++ 0 :: stale) bytes.length (serveRequest slot) bytes.length 0

/-- `joinMaster` with the log. -/
def loggedJoin [Externals D] (ptr : ClientPtr) (bytes stale : Bytes) (afterRdb : Nat) :
    M D (List (List (Int × Bytes))) := do
  addMasterToWatchlist ptr
  loggedLoop (bytes ++ 0 :: stale) bytes.length serveHandshake bytes.length afterRdb

section Logs

variable {w t : World D} {serve : Call → M D Unit} {calls : List Call} {log : List (List (Int × Bytes))}

theorem forM_eq_logged (serve : Call → M D Unit) (calls : List Call) :
    forM calls serve = (do
      let _ ← logged serve calls
      pure ()) := by
  induction calls with
  | nil => rfl
  | cons call calls inductionHypothesis =>
    funext w
    rw [List.forM_cons, inductionHypothesis, logged]
    simp only [bind_assoc]
    rw [bind_of_ok (observe_run _ w)]
    cases served : serve call w with
    | error f => rw [bind_of_error served, bind_of_error served]
    | ok ended =>
      rw [bind_of_ok served, bind_of_ok served, bind_of_ok (observe_run _ ended.2)]
      simp only [pure_bind]

/-- The log changes nothing. -/
theorem parseLoop_eq_logged (memory : Bytes) (n : Nat) (serve : Call → M D Unit) (fuel ptr : Nat) :
    parseLoop memory n serve fuel ptr = (do
      let _ ← loggedLoop memory n serve fuel ptr
      pure ()) := by
  rw [parseLoop_eq_calls, forM_eq_logged]
  unfold loggedLoop
  cases (handleCallsFrom memory n fuel ptr).2 with
  | none => simp
  | some f =>
    simp only [bind_assoc]
    rfl

theorem serveBuffer_eq_logged [Externals D] (slot : ClientSlot) (bytes stale : Bytes) :
    (serveBuffer slot bytes stale : M D Unit) = (do
      let _ ← loggedBuffer slot bytes stale
      pure ()) :=
  parseLoop_eq_logged _ _ _ _ _

theorem joinMaster_eq_logged [Externals D] (ptr : ClientPtr) (bytes stale : Bytes) (afterRdb : Nat) :
    (joinMaster ptr bytes stale afterRdb : M D Unit) = (do
      let _ ← loggedJoin ptr bytes stale afterRdb
      pure ()) := by
  unfold joinMaster loggedJoin
  rw [parseLoop_eq_logged, bind_assoc]

theorem logged_cons {call : Call} (run : logged serve (call :: calls) w = .ok (log, t)) :
    ∃ u rest, serve call w = .ok ((), u) ∧ logged serve calls u = .ok (rest, t) ∧
      log = u.sent.drop w.sent.length :: rest := by
  unfold logged at run
  rw [bind_of_ok (observe_run _ w)] at run
  obtain ⟨_, u, serves, afterServe⟩ := bind_eq_ok.mp run
  rw [bind_of_ok (observe_run _ u)] at afterServe
  obtain ⟨rest, _, serveRest, ends⟩ := bind_eq_ok.mp afterServe
  obtain ⟨rfl, rfl⟩ := Prod.mk.inj (Except.ok.inj ends)
  exact ⟨u, rest, serves, serveRest, rfl⟩

/-- Over whole commands the loop calls `handle` for each of them. -/
theorem loggedLoop_texts {commands : List MasterCommand} {bytes stale : Bytes} {start : Nat}
    (behind : bytes.drop start = texts commands)
    (run : loggedLoop (bytes ++ 0 :: stale) bytes.length serve bytes.length start w = .ok (log, t)) :
    logged serve (callsOf start (commands.map MasterCommand.message)) w = .ok (log, t) := by
  have calls : handleCallsFrom (bytes ++ 0 :: stale) bytes.length bytes.length start =
      (callsOf start (commands.map MasterCommand.message), none) := by
    by_cases inside : start ≤ bytes.length
    · apply handleCallsFrom_encodeAll
      · intro message member
        obtain ⟨command, _, rfl⟩ := List.mem_map.mp member
        exact command.plain_message
      · rw [List.drop_append_of_le_length inside, behind, encodeAll_messages]
      · have length := congrArg List.length behind
        rw [List.length_drop] at length
        rw [encodeAll_messages]
        omega
      · omega
    · -- the snapshot fills the buffer and is not all there
      have nothing : commands = [] := by
        rw [List.drop_of_length_le (by omega)] at behind
        cases commands with
        | nil => rfl
        | cons command others =>
          have empty := congrArg List.length behind
          have positive := command.text_pos
          rw [texts_cons, List.length_append, List.length_nil] at empty
          omega
      subst nothing
      cases length : bytes.length with
      | zero => rfl
      | succ fuel =>
        unfold handleCallsFrom
        have ended : fuel + 1 ≤ skipToStar (bytes ++ 0 :: stale) (fuel + 1) start := by
          unfold skipToStar
          omega
        rw [if_pos ended]
        rfl
  unfold loggedLoop at run
  rw [calls] at run
  obtain ⟨log', t', runs, ends⟩ := bind_eq_ok.mp run
  obtain ⟨rfl, rfl⟩ := Prod.mk.inj (Except.ok.inj ends)
  exact runs

end Logs

/-! ## The answers -/

/-- Of these commands, the first of which begins at the offset, every request for the offset was answered, by nothing
but the offset at which it begins. -/
def Answered (fd offset : Int) (commands : List MasterCommand) (log : List (List (Int × Bytes))) : Prop :=
  log.length = commands.length ∧
    ∀ i, commands[i]? = some .getack →
      log[i]? = some [(fd, ackText (offset + (texts (commands.take i)).length))]

/-- What serving a command of the master does. -/
structure Counts (command : MasterCommand) (w t : World D) : Prop where
  masterFd : t.serverConfig.masterFd = w.serverConfig.masterFd
  offset : t.serverConfig.slaveReplOffset = w.serverConfig.slaveReplOffset + command.text.length
  answer : command = .getack →
    t.sent = w.sent ++ [(w.serverConfig.masterFd, ackText w.serverConfig.slaveReplOffset)]

section Answers

variable {w t : World D} {fd offset : Int} {commands others : List MasterCommand} {log log' : List (List (Int × Bytes))}

theorem answered_nil : Answered fd offset [] [] := ⟨rfl, fun i isGetack => by simp at isGetack⟩

theorem Answered.cons {command : MasterCommand} {sent : List (Int × Bytes)}
    (first : command = .getack → sent = [(fd, ackText offset)])
    (rest : Answered fd (offset + command.text.length) commands log) :
    Answered fd offset (command :: commands) (sent :: log) := by
  constructor
  · simp [rest.1]
  · intro i isGetack
    cases i with
    | zero =>
      have isFirst : command = .getack := by simpa using isGetack
      simp [first isFirst]
    | succ i =>
      have later := rest.2 i (by simpa using isGetack)
      simpa [Int.add_assoc] using later

theorem Answered.append (first : Answered fd offset commands log)
    (second : Answered fd (offset + (texts commands).length) others log') :
    Answered fd offset (commands ++ others) (log ++ log') := by
  constructor
  · simp [first.1, second.1]
  · intro i isGetack
    by_cases inFirst : i < commands.length
    · rw [List.getElem?_append_left inFirst] at isGetack
      rw [List.getElem?_append_left (by rw [first.1]; exact inFirst), List.take_append_of_le_length (by omega)]
      exact first.2 i isGetack
    · obtain ⟨j, rfl⟩ := Nat.exists_eq_add_of_le (Nat.le_of_not_lt inFirst)
      rw [List.getElem?_append_right (by omega), Nat.add_sub_cancel_left] at isGetack
      have later := second.2 j isGetack
      rw [← first.1, List.getElem?_append_right (by omega), Nat.add_sub_cancel_left, later, first.1,
        List.take_length_add_append]
      simp [Int.add_assoc]

/-- A loop that counts every command after it served it. -/
theorem logged_answers {serve : Call → M D Unit} {P : World D → Prop}
    (step : ∀ (w t : World D) command start, P w →
      serve ⟨start, requestOf command.message.elements, command.text.length⟩ w = .ok ((), t) → P t ∧ Counts command w t)
    {start : Nat} (holds : P w)
    (run : logged serve (callsOf start (commands.map MasterCommand.message)) w = .ok (log, t)) :
    P t ∧ t.serverConfig.masterFd = w.serverConfig.masterFd ∧
      t.serverConfig.slaveReplOffset = w.serverConfig.slaveReplOffset + (texts commands).length ∧
      Answered w.serverConfig.masterFd w.serverConfig.slaveReplOffset commands log := by
  induction commands generalizing w start log with
  | nil =>
    obtain ⟨rfl, rfl⟩ := Prod.mk.inj (Except.ok.inj run)
    exact ⟨holds, rfl, by simp, answered_nil⟩
  | cons command commands inductionHypothesis =>
    rw [List.map_cons, callsOf, command.encode_message] at run
    obtain ⟨u, rest, serves, serveRest, rfl⟩ := logged_cons run
    obtain ⟨holds', counts⟩ := step w u command start holds serves
    obtain ⟨holdsAtEnd, masterFd, offset, answered⟩ := inductionHypothesis holds' serveRest
    rw [counts.masterFd, counts.offset] at answered
    refine ⟨holdsAtEnd, masterFd.trans counts.masterFd, ?_, answered.cons fun isGetack => ?_⟩
    · rw [offset, counts.offset, texts_cons, List.length_append]
      omega
    · rw [counts.answer isGetack, List.drop_left]

end Answers

/-! ## The two loops -/

section Loops

variable [Externals D] {w t handled : World D} {slot : ClientSlot} {ptr : ClientPtr} {client : Client}
  {command : MasterCommand}

/-- What `handle` does for a command of the master. -/
theorem Following.handles (following : Following w slot ptr client)
    (run : handle (requestOf command.message.elements) ptr w = .ok ((), handled)) :
    (∃ client', Following handled slot ptr client') ∧ handled.activeFds = w.activeFds ∧
      handled.serverConfig.counters = w.serverConfig.counters ∧
      (command = .getack →
        handled.sent = w.sent ++ [(w.serverConfig.masterFd, ackText w.serverConfig.slaveReplOffset)]) := by
  cases command with
  | copy req sendable =>
    rw [show requestOf (MasterCommand.copy req sendable).message.elements = req from sendable.readsBack] at run
    obtain ⟨stays, _, activeFds, counters⟩ := following.takes sendable.isWrite run
    exact ⟨stays, activeFds, counters, fun isGetack => by simp at isGetack⟩
  | getack =>
    obtain rfl := following.answers run
    exact ⟨⟨client, following.of_same rfl rfl rfl⟩, rfl, rfl, fun _ => by rw [← following.isFd]; rfl⟩

omit [Externals D] in
/-- The command is counted after `handle` returned. -/
theorem Counts.of_handled {start : Nat} {req : RespRequest}
    (counters : handled.serverConfig.counters = w.serverConfig.counters)
    (answer : command = .getack →
      handled.sent = w.sent ++ [(w.serverConfig.masterFd, ackText w.serverConfig.slaveReplOffset)]) :
    Counts command w (handled.counted ⟨start, req, command.text.length⟩) where
  masterFd := congrArg Counters.masterFd counters
  offset := by
    have same : handled.serverConfig.slaveReplOffset = w.serverConfig.slaveReplOffset :=
      congrArg Counters.slaveReplOffset counters
    rw [← same]
    rfl
  answer := answer

/-- The event loop. -/
theorem serveRequest_counts {start : Nat} (following : ∃ client, Following w slot ptr client)
    (run : serveRequest slot ⟨start, requestOf command.message.elements, command.text.length⟩ w = .ok ((), t)) :
    (∃ client, Following t slot ptr client) ∧ Counts command w t := by
  obtain ⟨client, following⟩ := following
  obtain ⟨handled, handles, propagates⟩ := serveRequest_run following.inSlot run
  obtain ⟨⟨client', stays⟩, _, counters, answer⟩ := following.handles handles
  rw [propagate_following stays propagates]
  exact ⟨⟨client', stays.of_same rfl rfl rfl⟩, .of_handled counters answer⟩

/-- The last connection is the one of the master. -/
def JoinedLast (ptr : ClientPtr) (w : World D) : Prop :=
  ∃ slot client, Following w slot ptr client ∧ slot.val + 1 = w.activeFds

/-- The loop of the handshake. -/
theorem serveHandshake_counts {start : Nat} (joined : JoinedLast ptr w)
    (run : serveHandshake ⟨start, requestOf command.message.elements, command.text.length⟩ w = .ok ((), t)) :
    JoinedLast ptr t ∧ Counts command w t := by
  obtain ⟨slot, client, following, isLast⟩ := joined
  obtain ⟨slot', sender, handled, isActive, inSlot, handles, rfl⟩ := serveHandshake_ok run
  obtain rfl : slot' = slot := Fin.ext (by omega)
  obtain rfl : ptr = sender := Option.some.inj (following.inSlot.symm.trans inSlot)
  obtain ⟨⟨client', stays⟩, activeFds, counters, answer⟩ := following.handles handles
  exact ⟨⟨slot', client', stays.of_same rfl rfl rfl, isLast.trans activeFds.symm⟩, .of_handled counters answer⟩

end Loops

/-! ## Runs -/

/-- The replica, the commands that it received from its master, and what was sent while each of them was served. -/
structure Replica (D : Type) where
  world : World D
  received : List MasterCommand
  log : List (List (Int × Bytes))

/-- Between two buffers of the master the rest of the server goes on: the connection to the master stays, and the offset
with it. -/
structure BetweenBuffers (slot : ClientSlot) (ptr : ClientPtr) (w start : World D) : Prop where
  following : ∃ client, Following start slot ptr client
  masterFd : start.serverConfig.masterFd = w.serverConfig.masterFd
  offset : start.serverConfig.slaveReplOffset = w.serverConfig.slaveReplOffset

section Runs

variable [Externals D] {s t : Replica D} {ptr : ClientPtr}

/-- A buffer of the master with these whole commands is served; the array holds the other bytes behind them. -/
def BufferStep (ptr : ClientPtr) (s : Replica D) (buffer : List MasterCommand × Bytes) (t : Replica D) : Prop :=
  ∃ slot start log, BetweenBuffers slot ptr s.world start ∧
    loggedBuffer slot (texts buffer.1) buffer.2 start = .ok (log, t.world) ∧
      t.received = s.received ++ buffer.1 ∧ t.log = s.log ++ log

/-- The invariant of the runs. -/
structure OffsetCounts (fd : Int) (ptr : ClientPtr) (s : Replica D) : Prop where
  stays : ∃ slot client, Following s.world slot ptr client
  masterFd : s.world.serverConfig.masterFd = fd
  offset : s.world.serverConfig.slaveReplOffset = (texts s.received).length
  answered : Answered fd 0 s.received s.log

theorem offsetCounts_step {fd : Int} {buffer : List MasterCommand × Bytes} (counts : OffsetCounts fd ptr s)
    (step : BufferStep ptr s buffer t) : OffsetCounts fd ptr t := by
  obtain ⟨_, isFd, offset, answered⟩ := counts
  obtain ⟨slot, start, log, between, run, received, isLog⟩ := step
  have serves := loggedLoop_texts (List.drop_zero) run
  obtain ⟨⟨client, stays⟩, masterFd, counted, answers⟩ := logged_answers
    (fun _ _ _ _ following run => serveRequest_counts following run) between.following serves
  rw [between.masterFd, between.offset, isFd, offset] at answers
  refine ⟨⟨slot, client, stays⟩, masterFd.trans (between.masterFd.trans isFd), ?_, ?_⟩
  · rw [counted, between.offset, offset, received, texts_append, List.length_append]
    omega
  · rw [received, isLog]
    exact answered.append (by simpa using answers)

/-- The handshake, with the commands that came in one buffer with the end of the snapshot. -/
theorem offsetCounts_join {w joined looping : World D} {bytes stale : Bytes} {afterRdb : Nat} {first : List MasterCommand}
    {log : List (List (Int × Bytes))} (uncounted : w.serverConfig.slaveReplOffset = 0)
    (behind : bytes.drop afterRdb = texts first) (joins : loggedJoin ptr bytes stale afterRdb w = .ok (log, joined))
    (resets : resetForLoop joined = .ok ((), looping)) :
    OffsetCounts w.serverConfig.masterFd ptr (⟨looping, first, log⟩ : Replica D) := by
  obtain ⟨_, seated, adds, loops⟩ := bind_eq_ok.mp joins
  obtain ⟨slot, isNext, rfl⟩ := addMasterToWatchlist_ok adds
  obtain rfl : _ = looping := by simpa [resetForLoop] using resets
  -- the master is seated in the last slot, which is the one that the loop of the handshake serves
  have joinedLast : JoinedLast ptr (w.seat slot ptr { newClient w.serverConfig.masterFd with isMaster := true }) := by
    refine ⟨slot, { newClient w.serverConfig.masterFd with isMaster := true }, ?_, rfl⟩
    constructor
    · constructor
      · exact Function.update_self _ _ _
      · exact Function.update_self _ _ _
      · rfl
      · rfl
    · rfl
    · rfl
    · rfl
  obtain ⟨⟨slot', client, stays, _⟩, masterFd, counted, answers⟩ := logged_answers
    (fun _ _ _ _ joined run => serveHandshake_counts joined run) joinedLast (loggedLoop_texts behind loops)
  have atZero : (w.seat slot ptr { newClient w.serverConfig.masterFd with isMaster := true }).serverConfig.slaveReplOffset
      = 0 := uncounted
  rw [atZero] at counted answers
  exact ⟨⟨slot', client, stays.of_same rfl rfl rfl⟩, masterFd, by simpa using counted, answers⟩

/-- A replica that has counted nothing joins its master, and then receives any number of buffers from it, each with
whole commands: after the run the offset is the number of their bytes, and every request for the offset was answered,
by nothing but the number of the bytes of the commands before it. -/
theorem replica_counts {w joined looping : World D} {bytes stale : Bytes} {afterRdb : Nat} {first : List MasterCommand}
    {log : List (List (Int × Bytes))} (uncounted : w.serverConfig.slaveReplOffset = 0)
    (behind : bytes.drop afterRdb = texts first) (joins : loggedJoin ptr bytes stale afterRdb w = .ok (log, joined))
    (resets : resetForLoop joined = .ok ((), looping))
    (run : Run (BufferStep ptr) (fun _ _ => True) ⟨looping, first, log⟩ s) :
    s.world.serverConfig.slaveReplOffset = (texts s.received).length ∧ s.log.length = s.received.length ∧
      ∀ i, s.received[i]? = some .getack →
        s.log[i]? = some [(w.serverConfig.masterFd, ackText (texts (s.received.take i)).length)] := by
  have counts := run.invariant (fun _ _ _ before _ step => offsetCounts_step before step)
    (offsetCounts_join uncounted behind joins resets)
  obtain ⟨length, answers⟩ := counts.answered
  exact ⟨counts.offset, length, fun i isGetack => by simpa using answers i isGetack⟩

omit [Externals D] in
/-- Nothing happens between two buffers. -/
theorem BetweenBuffers.refl {w : World D} {slot : ClientSlot} {client : Client} (following : Following w slot ptr client) :
    BetweenBuffers slot ptr w w :=
  ⟨⟨client, following⟩, rfl, rfl⟩

def setKV : RespRequest := requestOf [lit "SET", lit "k", lit "v"]

theorem sendable_setKV : Sendable setKV where
  isWrite := by decide +kernel
  storable := ⟨by decide +kernel, by decide +kernel, by decide +kernel⟩
  counted := by decide +kernel
  null := by decide +kernel
  fits := by decide +kernel

/-- The end of a snapshot. -/
def snapshotEnd : Bytes := lit "$3\r\nRDB"

/-- A replica joins, with a request for its offset behind the snapshot, and then receives a write command and another
request in one buffer. -/
theorem replica_counts_two : ∃ s : Replica Int, s.received.length = 3 ∧ s.world.serverConfig.slaveReplOffset = 101 ∧
    s.log[0]? = some [(4, ackText 0)] ∧ s.log[2]? = some [(4, ackText 64)] := by
  let bytes := snapshotEnd ++ texts [.getack]
  let second : List MasterCommand := [.copy setKV sendable_setKV, .getack]
  obtain ⟨looping, joining, checked⟩ := exists_ok_of_endsIn
    (show endsIn (do joinMaster 1 bytes [] 7; resetForLoop) aloneReplica (fun w =>
      decide (w.clients firstSlot = some 1) && (w.heap 1).any (fun client =>
        decide (client.isMaster = true ∧ client.fd = w.serverConfig.masterFd ∧ client.isQueued = false ∧
          client.isSubscribed = false ∧ client.isBlocked = false)) &&
        endsIn (serveBuffer firstSlot (texts second) []) w fun _ => true) = true by decide +kernel)
  simp only [Bool.and_eq_true, decide_eq_true_eq, Option.any_eq_true] at checked
  obtain ⟨⟨inSlot, client, found, isMaster, isFd, outside, unsubscribed, unblocked⟩, ends⟩ := checked
  obtain ⟨_, joined, joins, resets⟩ := bind_eq_ok.mp joining
  obtain ⟨served, serves, _⟩ := exists_ok_of_endsIn ends
  rw [joinMaster_eq_logged] at joins
  rw [serveBuffer_eq_logged] at serves
  obtain ⟨log, _, logsJoin, same⟩ := bind_eq_ok.mp joins
  obtain ⟨log', _, logsBuffer, same'⟩ := bind_eq_ok.mp serves
  obtain rfl : _ = joined := by simpa using same
  obtain rfl : _ = served := by simpa using same'
  have behind : bytes.drop 7 = texts [.getack] := by decide +kernel
  have following : Following looping firstSlot 1 client :=
    ⟨⟨inSlot, found, isMaster, isFd⟩, outside, unsubscribed, unblocked⟩
  have step : BufferStep 1 ⟨looping, [.getack], log⟩ (second, []) ⟨_, [MasterCommand.getack] ++ second, log ++ log'⟩ :=
    ⟨firstSlot, looping, log', .refl following, logsBuffer, rfl, rfl⟩
  obtain ⟨offset, _, answers⟩ := replica_counts rfl behind logsJoin resets (Run.single trivial step)
  have total : (texts ([MasterCommand.getack] ++ second)).length = 101 := by decide +kernel
  have between : (texts (([MasterCommand.getack] ++ second).take 2)).length = 64 := by decide +kernel
  have last := answers 2 rfl
  rw [between] at last
  exact ⟨_, rfl, by rw [offset, total]; rfl, answers 0 rfl, last⟩

end Runs

end RedisClone
