import RedisClone.Verified.Wakeups
import RedisClone.Verified.Notices

/-! # Pipelined requests

`LoopStep` is the event loop with the buffers that it receives: what `recv` gives is a list of requests, which
are handled one after another before anything else happens, whether or not one of them blocks its client.
`pollPass_loop` shows that every pass of the loop is a run of these steps.  `requests_in_order`: as long as
a request that blocks its client is the last one of its buffer and of its transaction, no request of a blocked
client is handled, and a client that is unblocked was answered.
-/

namespace RedisClone

open Exec CString

variable {D : Type}

/-! ## The loop -/

/-- The server with the buffer that it serves: the slot that it is from, and the requests in it that are not
handled yet. -/
structure Loop (D : Type) where
  server : Server D
  buffer : Option (ClientSlot × List Call)

inductive LoopEvent where
  | receive (slot : ClientSlot) (bytes stale : Bytes)
  | next
  | proceed
  | drained
  | between (event : Event)

/-- The loop calls `recv` for the client. -/
def Client.isRead (client : Client) : Bool :=
  !(client.isBlocked && !client.isReplica && !client.isSubscribed)

/-- The events that come between two buffers. -/
def Event.isBetween : Event → Bool
  | .poll _ | .timers | .connect _ _ | .disconnect _ => true
  | .request _ _ | .proceed => false

/-- The requests in a buffer. -/
def received (bytes stale : Bytes) : List Call := (handleCalls (bytes ++ 0 :: stale) bytes.length).1

inductive LoopStep [Externals D] : Loop D → LoopEvent → Loop D → Prop where
  | received {s : Server D} {slot : ClientSlot} {ptr : ClientPtr} {client : Client} (bytes stale : Bytes)
      (idle : s.running = none) (inSlot : s.world.clients slot = some ptr)
      (found : s.world.heap ptr = some client) (isRead : client.isRead = true) :
      LoopStep ⟨s, none⟩ (.receive slot bytes stale) ⟨s, some (slot, received bytes stale)⟩
  | handled {s t : Server D} {slot : ClientSlot} {call : Call} {rest : List Call}
      (step : Step s (.request slot call) t) :
      LoopStep ⟨s, some (slot, call :: rest)⟩ .next ⟨t, some (slot, rest)⟩
  | ran {s t : Server D} {buffer : Option (ClientSlot × List Call)} (step : Step s .proceed t) :
      LoopStep ⟨s, buffer⟩ .proceed ⟨t, buffer⟩
  | drained {s : Server D} {slot : ClientSlot} (idle : s.running = none) :
      LoopStep ⟨s, some (slot, [])⟩ .drained ⟨s, none⟩
  | between {s t : Server D} {event : Event} (isBetween : event.isBetween = true) (step : Step s event t) :
      LoopStep ⟨s, none⟩ (.between event) ⟨t, none⟩

/-- The state after one step, where the step can come and ends normally. -/
def loopNext [Externals D] (loop : Loop D) : LoopEvent → Option (Loop D)
  | .receive slot bytes stale =>
    match loop.server.world.occupant slot with
    | none => none
    | some client =>
      if loop.buffer = none ∧ loop.server.running = none ∧ client.isRead then
        some ⟨loop.server, some (slot, received bytes stale)⟩
      else none
  | .next =>
    match loop.buffer with
    | some (slot, call :: rest) =>
      (next loop.server (.request slot call)).map fun t => ⟨t, some (slot, rest)⟩
    | _ => none
  | .proceed => (next loop.server .proceed).map fun t => ⟨t, loop.buffer⟩
  | .drained =>
    match loop.buffer with
    | some (_, []) => if loop.server.running = none then some ⟨loop.server, none⟩ else none
    | _ => none
  | .between event =>
    if loop.buffer = none ∧ event.isBetween then (next loop.server event).map fun t => ⟨t, none⟩ else none

theorem loopNext_step [Externals D] (loop : Loop D) (event : LoopEvent) (loop' : Loop D)
    (isNext : loopNext loop event = some loop') : LoopStep loop event loop' := by
  obtain ⟨s, buffer⟩ := loop
  cases event with
  | receive slot bytes stale =>
    simp only [loopNext] at isNext
    split at isNext
    · simp at isNext
    · rename_i client occupant
      obtain ⟨ptr, inSlot, found⟩ := Option.bind_eq_some_iff.mp occupant
      split at isNext
      · rename_i guards
        obtain ⟨rfl, idle, isRead⟩ := guards
        obtain rfl := Option.some.inj isNext
        exact .received bytes stale idle inSlot found isRead
      · simp at isNext
  | next =>
    simp only [loopNext] at isNext
    split at isNext
    · obtain ⟨t, isStep, rfl⟩ := Option.map_eq_some_iff.mp isNext
      exact .handled (next_step isStep)
    · simp at isNext
  | proceed =>
    obtain ⟨t, isStep, rfl⟩ := Option.map_eq_some_iff.mp isNext
    exact .ran (next_step isStep)
  | drained =>
    simp only [loopNext] at isNext
    split at isNext
    · split at isNext
      · rename_i idle
        obtain rfl := Option.some.inj isNext
        exact .drained idle
      · simp at isNext
    · simp at isNext
  | between event =>
    simp only [loopNext] at isNext
    split at isNext
    · rename_i guards
      obtain ⟨rfl, isBetween⟩ := guards
      obtain ⟨t, isStep, rfl⟩ := Option.map_eq_some_iff.mp isNext
      exact .between isBetween (next_step isStep)
    · simp at isNext

/-- The event of the server that an event of the loop is. -/
def Loop.serves (loop : Loop D) : LoopEvent → Option Event
  | .next =>
    match loop.buffer with
    | some (slot, call :: _) => some (.request slot call)
    | _ => none
  | .proceed => some .proceed
  | .between event => some event
  | .receive _ _ _ | .drained => none

/-- The call of `handle` that an event stands for. -/
def Loop.handles (loop : Loop D) (event : LoopEvent) : Option (ClientPtr × RespRequest) :=
  (loop.serves event).bind loop.server.calls

/-- A step of the loop is one of the server, or the server stays as it is. -/
theorem loopStep_server [Externals D] {loop loop' : Loop D} {event : LoopEvent}
    (step : LoopStep loop event loop') :
    loop.serves event = none ∧ loop'.server = loop.server ∨
      ∃ served, loop.serves event = some served ∧ Step loop.server served loop'.server := by
  cases step with
  | received bytes stale idle inSlot found isRead => exact .inl ⟨rfl, rfl⟩
  | handled step => exact .inr ⟨_, rfl, step⟩
  | ran step => exact .inr ⟨_, rfl, step⟩
  | drained idle => exact .inl ⟨rfl, rfl⟩
  | between isBetween step => exact .inr ⟨_, rfl, step⟩

/-! ## Requests that block -/

/-- XREAD finds the word BLOCK in the request. -/
def World.seesBlock (w : World D) (req : RespRequest) : Bool :=
  (streamsIndex w.fresh req.args).any fun index =>
    (blockIndex (fun n => w.fresh (n + (index + 1))) req.args).isSome

/-- The request blocks the client that sends it. -/
def Blocks (w : World D) (req : RespRequest) : Prop :=
  (req.command = .blpop ∧ 2 ≤ req.argc ∧ ∀ key ∈ req.args[0]?, elements w.table key = []) ∨
  (req.command = .xread ∧ w.seesBlock req = true) ∨
  (req.command = .wait ∧
    ∀ wanted ∈ req.args[0]?, (w.acknowledged w.serverConfig.masterReplOffset : Int) < atoi wanted)

instance (w : World D) (req : RespRequest) : Decidable (Blocks w req) :=
  inferInstanceAs (Decidable (_ ∨ _ ∨ _))

/-- The client is not blocked by what the relation allows. -/
def NotBlocked (client client' : Client) : Prop := client'.isBlocked = true → client.isBlocked = true

section Blocks

variable {w t : World D} {req : RespRequest} {ptr : ClientPtr} {client : Client}

theorem SameBlocking.notBlocked {client client' : Client} (same : SameBlocking client client') :
    NotBlocked client client' := fun blocked =>
  (congrArg Blocking.isBlocked same).symm.trans blocked

theorem Still.notBlocked (still : Still w t) : Clientwise (fun _ => NotBlocked) w t :=
  still.toClientwise.mono fun _ _ _ same => same.notBlocked

theorem printArg_same {i : Nat} (run : req.printArg i w = .ok ((), t)) : t = w := by
  unfold RespRequest.printArg at run
  cases isArg : req.args[i]? with
  | some value =>
    rw [isArg] at run
    obtain rfl : w = t := by simpa using run
    rfl
  | none =>
    cases unused : req.unused with
    | null =>
      rw [isArg, unused] at run
      obtain rfl : w = t := by simpa using run
      rfl
    | indeterminate => simp [isArg, unused, fault] at run

/-- The branch of a single XREAD without BLOCK only sends. -/
theorem obeys_unblocked (req : RespRequest) (ptr : ClientPtr) : Obeys Still (fun _ => True) (do
    req.printArg 1
    let client ← loadClient ptr
    let key ← req.arg 1
    match ← storeGetEntry key with
    | none => do
      send client.fd emptyArray
      pure none
    | some _ => do
      let (messages, count) ← streamEntryXreadToString (req.arg 2) (lit "+") key
      match messages with
      | none => do
        send client.fd emptyArray
        pure none
      | some messages =>
        if count = 0 then do
          send client.fd emptyArray
          pure none
        else pure (some (wrapXreadResponse key messages count)) : M D (Option Bytes)) := by
  have refuses (fd : Int) : Obeys Still (fun _ => True) (do
      send fd emptyArray
      pure none : M D (Option Bytes)) :=
    obeys_seq ambient_still (obeys_send ambient_still fd emptyArray) fun _ => obeys_pure ambient_still none
  refine obeys_seq ambient_still (obeys_printArg ambient_still (.inl trivial)) fun _ => ?_
  refine obeys_seq ambient_still (obeys_loadClient ambient_still ptr) fun client => ?_
  refine obeys_seq ambient_still (obeys_arg ambient_still (.inl trivial)) fun key => ?_
  refine obeys_seq ambient_still (obeys_storeGetEntry ambient_still key) fun entry => ?_
  cases entry with
  | none => exact refuses client.fd
  | some entry =>
    refine obeys_seq ambient_still (fun w => obeysAt_streamEntryXreadToString ambient_still
      fun _ _ => obeys_arg ambient_still (.inl trivial)) fun delivery => ?_
    obtain ⟨messages, count⟩ := delivery
    cases messages with
    | none => exact refuses client.fd
    | some messages => exact Obeys.ite (fun _ => refuses client.fd) fun _ => obeys_pure ambient_still _

/-- An XREAD that does not find BLOCK blocks nobody. -/
theorem still_xread {clientFd : Int} (unseen : w.seesBlock req = false)
    (run : handleStreamPrint req ptr clientFd .xread w = .ok ((), t)) : Still w t := by
  have pures {α : Type} (a : α) : Obeys Still (fun _ => True) (pure a : M D α) := obeys_pure ambient_still a
  unfold handleStreamPrint at run
  obtain ⟨_, printed, prints, afterPrint⟩ := bind_eq_ok.mp run
  obtain rfl := printArg_same prints
  rw [if_neg (by decide)] at afterPrint
  obtain ⟨response, read, reads, sends⟩ := bind_eq_ok.mp afterPrint
  have responds : Still read t := by
    cases response with
    | none =>
      obtain rfl : read = t := by simpa using sends
      exact .refl read
    | some response => exact (obeys_sendStreamResponse ambient_still response _).1 _ _ sends
  refine Still.trans ?_ responds
  unfold handleXread at reads
  obtain ⟨keys, scanned, scans, afterScan⟩ := bind_eq_ok.mp reads
  obtain ⟨index, isIndex, rfl, ⟨_, streamsLength, several, rfl⟩ | ⟨_, rfl⟩⟩ := isMultipleKey_run scans
  -- several keys make the read fault, so there is one
  · simp only [bind_of_error (handleMultipleXread_faults index several _)] at afterScan
    simp at afterScan
  · obtain ⟨single, answered, answers, afterAnswer⟩ := bind_eq_ok.mp afterScan
    have keepsAnswer : Still answered read := by
      cases single with
      | none => exact (pures _ _).1 _ _ afterAnswer
      | some single => exact (pures _ _).1 _ _ afterAnswer
    refine Still.trans ?_ keepsAnswer
    -- `hasBlock` looks at the array as it is after the blocks taken so far
    have noBlock : blockIndex (World.takeFresh^[index + 1] printed).fresh req.args = none := by
      rw [takeFresh_iterate]
      simpa [World.seesBlock, isIndex] using unseen
    have before : Still printed (World.takeFresh^[index + 1] printed) := by
      rw [takeFresh_iterate]
      exact .of_same rfl rfl rfl rfl
    refine before.trans ?_
    unfold handleSingleXread at answers
    obtain ⟨block, looked, looks, afterLook⟩ := bind_eq_ok.mp answers
    have looksStill := (obeys_hasBlock ambient_still _).1 _ _ looks
    obtain ⟨_, looks'⟩ := hasBlock_run req (World.takeFresh^[index + 1] printed)
    rw [looks, noBlock] at looks'
    simp only [Except.ok.injEq, Prod.mk.injEq] at looks'
    obtain ⟨rfl, rfl⟩ := looks'
    refine looksStill.trans ?_
    exact (obeys_unblocked req ptr _).1 _ _ afterLook

/-- An arm that does not block the client that sends it blocks nobody. -/
theorem notBlocked_arm [Externals D] (free : ¬ Blocks w req) (run : arm req ptr client w = .ok ((), t)) :
    Clientwise (fun _ => NotBlocked) w t := by
  by_cases unblocking : changesBlocking req.command = false
  · exact (still_arm unblocking run).notBlocked
  unfold arm at run
  cases command : req.command with
  | rpush =>
    simp only [command] at run
    by_cases enough : 2 ≤ req.argc
    · obtain ⟨key, list, expiresAt, opened, isKey, opens, pushes⟩ := handleRpush_ok enough run
      -- a push wakes at most one client, and blocks none
      cases pushes with
      | unserved nobody keeps stores =>
        rw [keeps]
        exact .of_same (fun _ _ => id) rfl rfl rfl
      | served ptr client first rest longest found elements keeps stores =>
        rw [keeps]
        exact .of_update (fun _ _ => id) client.woken found rfl
          (fun blocked => by simp [Client.woken] at blocked) rfl rfl rfl
    · unfold handleRpush at run
      rw [if_pos (by omega)] at run
      rw [send_run run]
      exact .of_same (fun _ _ => id) rfl rfl rfl
  | blpop =>
    simp only [command] at run
    cases handleBlpop_ok run with
    | nothing few same => exact same ▸ .of_same (fun _ _ => id) rfl rfl rfl
    | popped key first rest expiresAt client enough isKey bound found keeps stores =>
      rw [keeps]
      exact .of_same (fun _ _ => id) rfl rfl rfl
    | blocked key client timeoutAt blockedAt enough isKey empty found keeps =>
      -- the list was empty, which is what `Blocks` says of BLPOP
      refine absurd (.inl ⟨command, enough, fun key' isKey' => ?_⟩) free
      obtain rfl : key = key' := Option.some.inj (isKey.symm.trans isKey')
      obtain unbound | ⟨expiresAt, bound⟩ := empty
      · exact elements_of_unbound unbound
      · exact elements_of_list bound
  | wait =>
    simp only [command] at run
    cases handleWait_ok run with
    | answered wanted isWanted enough keeps =>
      rw [keeps]
      exact .of_same (fun _ _ => id) rfl rfl rfl
    | pending wanted asked isWanted few asks marks =>
      refine absurd (.inr (.inr ⟨command, fun wanted' isWanted' => ?_⟩)) free
      obtain rfl : wanted = wanted' := Option.some.inj (isWanted.symm.trans isWanted')
      exact few
  | xadd =>
    -- an entry that is added may wake readers, and blocks none
    obtain still | ⟨key, _, delivers⟩ := handleXadd_delivers (by simpa [command] using run)
    · exact still.notBlocked
    · refine delivers.toClientwise.mono fun _ client client' delivered => ?_
      obtain same | ⟨_, woken⟩ := delivered
      · exact same.notBlocked
      · intro blocked
        have := congrArg Blocking.isBlocked woken
        simp [Client.blocking, Client.delivered, blocked] at this
  | xread =>
    have unseen : w.seesBlock req = false := by
      simpa using fun sees => free (.inr (.inl ⟨command, sees⟩))
    exact (still_xread unseen (by simpa [command] using run)).notBlocked
  | _ => simp [command, changesBlocking] at unblocking

end Blocks

/-! ## The order of the requests -/

/-- Requests of the same buffer or transaction come after the one that the event handles. -/
def Loop.hasMore (loop : Loop D) : LoopEvent → Bool
  | .next => loop.buffer.any fun buffer => buffer.2.tail ≠ []
  | .proceed =>
    (loop.server.running.any fun transaction => transaction.remaining.tail ≠ []) ||
      loop.buffer.any fun buffer => buffer.2 ≠ []
  | _ => false

/-- Nothing is received from a blocked client, and a request that blocks its client is the last one of its
buffer and of its transaction. -/
def KeepsOrder (loop : Loop D) (event : LoopEvent) : Prop :=
  match event with
  | .receive slot bytes stale =>
    received bytes stale ≠ [] → ∀ client ∈ loop.server.world.occupant slot, client.isBlocked = false
  | event =>
    loop.hasMore event = true → ∀ served ∈ loop.serves event, ∀ ptr req,
      Dispatches loop.server served ptr req → ¬ Blocks loop.server.world req

instance (loop : Loop D) (event : LoopEvent) : Decidable (KeepsOrder loop event) :=
  match event with
  | .receive _ _ _ => inferInstanceAs (Decidable (_ → _))
  | .next | .proceed | .drained | .between _ => inferInstanceAs (Decidable (_ → _))

/-- Requests of the client wait to be handled. -/
inductive Loop.Pends (loop : Loop D) (ptr : ClientPtr) : Prop where
  | buffered {slot : ClientSlot} {call : Call} {rest : List Call}
      (inBuffer : loop.buffer = some (slot, call :: rest))
      (occupied : loop.server.world.clients slot = some ptr)
  | queued {transaction : Transaction} (running : loop.server.running = some transaction)
      (isOwn : transaction.ptr = ptr) (remaining : transaction.remaining ≠ [])

/-- No client whose requests wait to be handled is blocked. -/
structure InOrder (loop : Loop D) : Prop where
  wellFormed : WellFormed loop.server
  watched : Watched loop.server.world
  unblocked : ∀ ptr client, loop.Pends ptr → loop.server.world.heap ptr = some client →
    client.isBlocked = false

section Order

variable [Externals D] {s t : Server D} {served : Event} {loop loop' : Loop D} {event : LoopEvent}

/-- A step whose request does not block its client blocks nobody. -/
theorem notBlocked_step (outside : OutsideMulti s) (step : Step s served t)
    (keeps : served.keepsConnections = true) (untimed : served ≠ .timers)
    (free : ∀ ptr req, Dispatches s served ptr req → ¬ Blocks s.world req) :
    Clientwise (fun _ => NotBlocked) s.world t.world := by
  have reblocks := reblocks_of_step outside step
  generalize t.world = w' at reblocks
  cases reblocks with
  | still undispatched still => exact still.notBlocked
  | ran ptr req client dispatches found runs after =>
    have unblocking : ¬ Blocks (s.world.noted req) req := free ptr req dispatches
    have armed : Clientwise (fun _ => NotBlocked) (s.world.noted req) w' :=
      (notBlocked_arm unblocking runs).trans
        (fun _ _ _ _ before after blocked => before (after blocked)) after.notBlocked
    exact ⟨armed.clients, armed.activeFds, armed.free, armed.heap⟩
  | expired runs => exact absurd rfl untimed
  | connected slot isNext free => simp [Event.keepsConnections] at keeps
  | disconnected last ptr isLast occupied => simp [Event.keepsConnections] at keeps

/-- The step of a request: what it leaves to be handled was to be handled before. -/
theorem InOrder.of_served (inOrder : InOrder loop) (step : Step loop.server served loop'.server)
    (keeps : served.keepsConnections = true) (untimed : served ≠ .timers)
    (pended : ∀ ptr, loop'.Pends ptr → loop.Pends ptr)
    (free : ∀ waiting, loop'.Pends waiting → ∀ ptr req, Dispatches loop.server served ptr req →
      ¬ Blocks loop.server.world req) : InOrder loop' where
  wellFormed := wellFormed_step inOrder.wellFormed step
  watched := inOrder.watched.of_step inOrder.wellFormed step
  unblocked ptr client' pends found' := by
    have kept := notBlocked_step inOrder.wellFormed.outside step keeps untimed (free ptr pends)
    cases found : loop.server.world.heap ptr with
    | none => simp [kept.free ptr found] at found'
    | some client =>
      obtain ⟨other, foundOther, _, notBlocked⟩ := kept.heap ptr client found
      obtain rfl : other = client' := Option.some.inj (foundOther.symm.trans found')
      cases isBlocked : other.isBlocked with
      | false => rfl
      | true =>
        have unblocked := inOrder.unblocked ptr client (pended ptr pends) found
        simp [notBlocked isBlocked] at unblocked

/-- A request that starts a transaction runs no arm. -/
theorem undispatched_of_running {slot : ClientSlot} {call : Call} {transaction : Transaction}
    (outside : OutsideMulti s) (step : Step s (.request slot call) t) (running : t.running = some transaction) :
    s.world.clients slot = some transaction.ptr ∧ ∀ ptr req, ¬ Dispatches s (.request slot call) ptr req := by
  cases step_cases outside step with
  | quiet idle noRequest kept => simp at running
  | started ptr client idle occupied found starts =>
    obtain rfl := Option.some.inj running
    refine ⟨occupied, fun other req dispatches => ?_⟩
    obtain ⟨calls, client', found', reaches⟩ := dispatches
    simp only [Server.calls, occupied, Option.map_some, Option.some.injEq, Prod.mk.injEq] at calls
    obtain ⟨rfl, rfl⟩ := calls
    have isExec := (startsTransaction_eq_true.mp starts).1
    simp [reachesArm, isExec, isTransactionCmd] at reaches
  | served ptr client idle occupied found starts handles propagates => simp at running

/-- The rest of a transaction is of the transaction that ran. -/
theorem running_of_proceed {transaction : Transaction} (outside : OutsideMulti s) (step : Step s .proceed t)
    (running : t.running = some transaction) :
    ∃ req, s.running = some ⟨transaction.ptr, req :: transaction.remaining, transaction.call⟩ := by
  cases step_cases outside step with
  | quiet idle noRequest kept => simp at running
  | ran ptr req remaining call client after isRunning found handles foundAfter =>
    obtain rfl := Option.some.inj running
    exact ⟨req, isRunning⟩
  | ended ptr call isRunning propagates => simp at running

theorem idle_of_isBetween (isBetween : served.isBetween = true) (step : Step s served t) :
    t.running = none := by
  obtain ⟨enabled, acts⟩ := step
  cases served with
  | poll ready =>
    rw [show s.running = none from enabled] at acts
    exact (act_unit acts).2
  | timers =>
    rw [show s.running = none from enabled] at acts
    exact (act_unit acts).2
  | connect fd ptr =>
    rw [show s.running = none from enabled.1] at acts
    exact (act_unit acts).2
  | disconnect slot =>
    rw [show s.running = none from enabled.1] at acts
    exact (act_unit acts).2
  | request slot call => simp [Event.isBetween] at isBetween
  | proceed => simp [Event.isBetween] at isBetween

theorem inOrder_step (inOrder : InOrder loop) (keeps : KeepsOrder loop event)
    (step : LoopStep loop event loop') : InOrder loop' := by
  have outside := inOrder.wellFormed.outside
  cases step with
  | @received s slot ptr client bytes stale idle inSlot found isRead =>
    refine ⟨inOrder.wellFormed, inOrder.watched, fun other client' pends found' => ?_⟩
    cases pends with
    | @buffered slot' call rest inBuffer occupied =>
      simp only [Option.some.injEq, Prod.mk.injEq] at inBuffer
      obtain ⟨rfl, isReceived⟩ := inBuffer
      obtain rfl : ptr = other := Option.some.inj (inSlot.symm.trans occupied)
      -- a client that still owes a reply is not read from
      -- nothing is received from a blocked client
      exact keeps (by simp [isReceived]) client' (Option.bind_eq_some_iff.mpr ⟨ptr, occupied, found'⟩)
    | queued running isOwn remaining =>
      rw [show s.running = none from idle] at running
      simp at running
  | @handled s t slot call rest step =>
    have same := (notices_step inOrder.wellFormed inOrder.watched rfl step).told
    obtain ⟨_, _, clientwise⟩ := same
    refine inOrder.of_served step rfl (by simp) (fun other pends => ?_)
      fun other pends ptr req dispatches => ?_
    · cases pends with
      | buffered inBuffer occupied =>
        simp only [Option.some.injEq, Prod.mk.injEq] at inBuffer
        obtain ⟨rfl, _⟩ := inBuffer
        exact .buffered rfl (clientwise.clients ▸ occupied)
      | queued running isOwn remaining =>
        -- the queue that runs is that of the client whose buffer is read
        exact .buffered rfl (isOwn ▸ (undispatched_of_running outside step running).1)
    · cases pends with
      | buffered inBuffer occupied =>
        simp only [Option.some.injEq, Prod.mk.injEq] at inBuffer
        exact keeps (by simp [Loop.hasMore, inBuffer.2]) _ rfl ptr req dispatches
      | queued running isOwn remaining =>
        exact absurd dispatches ((undispatched_of_running outside step running).2 ptr req)
  | @ran s t buffer step =>
    obtain ⟨_, _, clientwise⟩ := (notices_step inOrder.wellFormed inOrder.watched rfl step).told
    refine inOrder.of_served step rfl (by simp) (fun other pends => ?_)
      fun other pends ptr req dispatches => ?_
    · cases pends with
      | buffered inBuffer occupied => exact .buffered inBuffer (clientwise.clients ▸ occupied)
      | queued running isOwn remaining =>
        obtain ⟨req, isRunning⟩ := running_of_proceed outside step running
        exact .queued isRunning isOwn (List.cons_ne_nil _ _)
    · cases pends with
      | buffered inBuffer occupied =>
        obtain rfl : buffer = _ := inBuffer
        exact keeps (by simp [Loop.hasMore]) _ rfl ptr req dispatches
      | queued running isOwn remaining =>
        obtain ⟨first, isRunning⟩ := running_of_proceed outside step running
        have hasMore : Loop.hasMore ⟨s, buffer⟩ .proceed = true := by
          rw [Loop.hasMore, isRunning]
          simp [remaining]
        exact keeps hasMore _ rfl ptr req dispatches
  | @drained s slot idle =>
    refine ⟨inOrder.wellFormed, inOrder.watched, fun other client' pends found' => ?_⟩
    cases pends with
    | buffered inBuffer occupied => simp at inBuffer
    | queued running isOwn remaining =>
      rw [show s.running = none from idle] at running
      simp at running
  | @between s t served isBetween step =>
    refine ⟨wellFormed_step inOrder.wellFormed step, inOrder.watched.of_step inOrder.wellFormed step,
      fun other client' pends found' => ?_⟩
    cases pends with
    | buffered inBuffer occupied => simp at inBuffer
    | queued running isOwn remaining =>
      rw [show t.running = none from idle_of_isBetween isBetween step] at running
      simp at running

/-- As long as nothing is received from a blocked client, and every request that blocks its client is the last
one of its buffer and of its transaction, no request of a blocked client is handled, and a client that a step
unblocks is sent something by that step. -/
theorem requests_in_order (entry : AtLoopEntry s) (run : Run LoopStep KeepsOrder ⟨s, none⟩ loop)
    (step : LoopStep loop event loop') :
    (∀ ptr req client, loop.handles event = some (ptr, req) → loop.server.world.heap ptr = some client →
      client.isBlocked = false) ∧
    ∀ ptr client client', loop.server.world.heap ptr = some client → client.isBlocked = true →
      loop'.server.world.heap ptr = some client' → client'.isBlocked = false →
      ∃ text, (client.fd, text) ∈ loop'.server.world.sent.drop loop.server.world.sent.length := by
  have atStart : InOrder (⟨s, none⟩ : Loop D) := by
    refine ⟨entry.wellFormed, fun slot ptr client inSlot => ?_, fun ptr client pends found => ?_⟩
    · simp [entry.clients] at inSlot
    · simp [entry.heap] at found
  have inOrder : InOrder loop :=
    run.invariant (fun _ _ _ before keeps step => inOrder_step before keeps step) atStart
  constructor
  · intro ptr req client handles found
    refine inOrder.unblocked ptr client ?_ found
    -- the client whose request is handled is pending, and the invariant says that it is not blocked
    obtain ⟨served, serves, calls⟩ := Option.bind_eq_some_iff.mp handles
    cases step with
    | received bytes stale idle inSlot found isRead => simp [Loop.serves] at serves
    | handled step =>
      obtain rfl := Option.some.inj serves
      obtain ⟨ptr', occupied, same⟩ := Option.map_eq_some_iff.mp calls
      obtain ⟨rfl, rfl⟩ := Prod.mk.inj same
      exact .buffered rfl occupied
    | ran step =>
      obtain rfl := Option.some.inj serves
      obtain ⟨transaction, running, first⟩ := Option.bind_eq_some_iff.mp calls
      obtain ⟨req', isFirst, same⟩ := Option.map_eq_some_iff.mp first
      obtain ⟨rfl, rfl⟩ := Prod.mk.inj same
      exact .queued running rfl (List.ne_nil_of_mem (List.mem_of_mem_head? isFirst))
    | drained idle => simp [Loop.serves] at serves
    | @between s t served' isBetween step =>
      obtain rfl := Option.some.inj serves
      cases served' <;> simp_all [Server.calls, Event.isBetween]
  · intro ptr client client' found blocked found' unblocked
    obtain ⟨_, same⟩ | ⟨served, _, step⟩ := loopStep_server step
    · rw [same, found, Option.some.injEq] at found'
      simp [← found', blocked] at unblocked
    · exact unblocked_told inOrder.wellFormed inOrder.watched step found blocked found' unblocked

/-- A buffer with these messages comes from a client. -/
def buffered (slot : ClientSlot) (messages : List (List Bytes)) : LoopEvent :=
  .receive slot (messages.map encode).flatten []

/-- The first client waits for a list, and an RPUSH of the second one answers it. -/
theorem requests_in_order_blpop : ∃ (loop loop' : Loop Int) (client : Client) (text : Bytes),
    LoopStep loop .next loop' ∧ loop.server.world.heap 0 = some client ∧ client.isBlocked = true ∧
      (client.fd, text) ∈ loop'.server.world.sent.drop loop.server.world.sent.length := by
  obtain ⟨loop, follows, checked⟩ := (Option.any_eq_true _ _).mp
    (show (Run.follow loopNext KeepsOrder ⟨tickingServer, none⟩
      [.between (.connect 5 0), .between (.connect 6 1),
        buffered firstSlot [[lit "BLPOP", lit "k", lit "0"]], .next, .drained,
        buffered secondSlot [[lit "RPUSH", lit "k", lit "a"]]]).any
      (fun loop => (loop.server.world.heap 0).any Client.isBlocked && (loopNext loop .next).any fun loop' =>
        (loop'.server.world.heap 0).any fun client => !client.isBlocked) = true by
      decide +kernel)
  simp only [Bool.and_eq_true, Option.any_eq_true, Bool.not_eq_true'] at checked
  obtain ⟨⟨client, found, blocked⟩, loop', isNext, client', found', unblocked⟩ := checked
  have entry : AtLoopEntry tickingServer :=
    ⟨rfl, fun _ => rfl, rfl, fun _ => rfl, fun _ => rfl, rfl⟩
  have step := loopNext_step loop .next loop' isNext
  obtain ⟨_, told⟩ := requests_in_order entry (Run.of_follow loopNext_step follows) step
  obtain ⟨text, sent⟩ := told 0 client client' found blocked found' unblocked
  exact ⟨loop, loop', client, text, step, found, blocked, sent⟩

/-- The SET behind a BLPOP in one buffer is handled while the client is blocked. -/
theorem pipelined_set_overtakes :
    ¬ ∀ (loop loop' : Loop Int) (event : LoopEvent) (ptr : ClientPtr) (req : RespRequest) (client : Client),
      Run LoopStep (fun _ _ => True) ⟨idleServer, none⟩ loop → LoopStep loop event loop' →
      loop.handles event = some (ptr, req) → loop.server.world.heap ptr = some client →
      client.isBlocked = false := by
  intro inOrder
  obtain ⟨loop, follows, checked⟩ := (Option.any_eq_true _ _).mp
    (show (Run.follow loopNext (fun _ _ => True) ⟨idleServer, none⟩
      [.between (.connect 5 0),
        buffered firstSlot [[lit "BLPOP", lit "k", lit "0"], [lit "SET", lit "x", lit "y"]], .next]).any
      (fun loop => (loop.server.world.heap 0).any Client.isBlocked && ((loopNext loop .next).isSome &&
        (loop.handles .next).any fun call => decide (call.1 = 0))) = true by
      decide +kernel)
  simp only [Bool.and_eq_true, Option.any_eq_true, decide_eq_true_eq] at checked
  obtain ⟨⟨client, found, blocked⟩, isSome, ⟨ptr, req⟩, handles, rfl⟩ := checked
  obtain ⟨loop', isNext⟩ := Option.isSome_iff_exists.mp isSome
  have unblocked := inOrder loop loop' .next 0 req client (Run.of_follow loopNext_step follows)
    (loopNext_step loop .next loop' isNext) handles found
  simp [blocked] at unblocked

end Order

/-! ## A pass of the loop -/

section Passes

variable [Externals D] {buffer : Option (ClientSlot × List Call)} {w w' : World D}

/-- The runs of the loop without a condition. -/
abbrev LoopRuns : Loop D → Loop D → Prop := Run LoopStep fun _ _ => True

theorem loopRuns_complete {ptr : ClientPtr} {call : Call} {requests : List RespRequest}
    (run : complete ptr call requests w = .ok ((), w')) :
    LoopRuns ⟨⟨w, some ⟨ptr, requests, call⟩⟩, buffer⟩ ⟨⟨w', none⟩, buffer⟩ := by
  induction requests generalizing w with
  | nil =>
    refine .single trivial (i := .proceed) (.ran ⟨by simp [Enabled], ?_⟩)
    exact bind_of_ok (f := fun _ => pure none) run
  | cons req requests inductionHypothesis =>
    obtain ⟨_, handled, handles, afterHandle⟩ := bind_eq_ok.mp run
    obtain ⟨_, cleared, clears, rest⟩ := bind_eq_ok.mp afterHandle
    refine (Run.single trivial (i := .proceed) (.ran ⟨by simp [Enabled], ?_⟩)).trans
      (inductionHypothesis rest)
    simp only [act, resume]
    rw [bind_of_ok handles, bind_of_ok clears]
    rfl

theorem loopRuns_serveRequest {slot : ClientSlot} {call : Call} {rest : List Call}
    (run : serveRequest slot call w = .ok ((), w')) :
    LoopRuns ⟨⟨w, none⟩, some (slot, call :: rest)⟩ ⟨⟨w', none⟩, some (slot, rest)⟩ := by
  rw [serveRequest_eq] at run
  obtain ⟨transaction, served, serves, ends⟩ := bind_eq_ok.mp run
  have first : LoopRuns ⟨⟨w, none⟩, some (slot, call :: rest)⟩ ⟨⟨served, transaction⟩, some (slot, rest)⟩ :=
    .single trivial (i := .next) (.handled ⟨rfl, serves⟩)
  cases transaction with
  | none =>
    obtain rfl : served = w' := by simpa using ends
    exact first
  | some transaction => exact first.trans (loopRuns_complete ends)

theorem loopRuns_forM {slot : ClientSlot} {calls : List Call}
    (run : forM calls (serveRequest slot) w = .ok ((), w')) :
    LoopRuns ⟨⟨w, none⟩, some (slot, calls)⟩ ⟨⟨w', none⟩, some (slot, [])⟩ := by
  induction calls generalizing w with
  | nil =>
    obtain rfl : w = w' := by simpa using run
    exact .refl _
  | cons call calls inductionHypothesis =>
    rw [List.forM_cons] at run
    obtain ⟨_, served, serves, rest⟩ := bind_eq_ok.mp run
    exact (loopRuns_serveRequest serves).trans (inductionHypothesis rest)

theorem loopRuns_serveBuffer {slot : ClientSlot} {ptr : ClientPtr} {client : Client} {bytes stale : Bytes}
    (inSlot : w.clients slot = some ptr) (found : w.heap ptr = some client) (isRead : client.isRead = true)
    (run : serveBuffer slot bytes stale w = .ok ((), w')) :
    LoopRuns ⟨⟨w, none⟩, none⟩ ⟨⟨w', none⟩, none⟩ := by
  unfold serveBuffer at run
  rw [parseLoop_eq_calls] at run
  obtain ⟨_, served, serves, ends⟩ := bind_eq_ok.mp run
  obtain rfl : served = w' := by
    cases broken : (handleCallsFrom (bytes ++ 0 :: stale) bytes.length bytes.length 0).2 with
    | none => simpa [broken] using ends
    | some f => simp [broken] at ends
  have receives : LoopRuns (⟨⟨w, none⟩, none⟩ : Loop D) ⟨⟨w, none⟩, some (slot, received bytes stale)⟩ :=
    .single trivial (.received bytes stale rfl inSlot found isRead)
  exact (receives.trans (loopRuns_forM serves)).tail trivial (.drained rfl)

theorem loopRuns_serveSlots {arrivals : Arrivals} {fuel i : Nat} (acceptable : i = 0 → Acceptable arrivals w)
    (run : serveSlots arrivals fuel i w = .ok ((), w')) :
    LoopRuns ⟨⟨w, none⟩, none⟩ ⟨⟨w', none⟩, none⟩ := by
  induction fuel generalizing i w with
  | zero =>
    obtain rfl : w = w' := by simpa [serveSlots] using run
    exact .refl _
  | succ fuel inductionHypothesis =>
    have next {u : World D} (rest : serveSlots arrivals fuel (i + 1) u = .ok ((), w')) :
        LoopRuns ⟨⟨u, none⟩, none⟩ ⟨⟨w', none⟩, none⟩ :=
      inductionHypothesis (fun isZero => by omega) rest
    unfold serveSlots at run
    rw [bind_of_ok (observe_run _ w)] at run
    split at run
    · obtain rfl : w = w' := by simpa using run
      exact .refl _
    split at run
    · rename_i inRange
      rw [bind_of_ok (observe_run _ w)] at run
      split at run
      · exact next run
      split at run
      · rename_i isZero
        -- slot 0 listens
        obtain ⟨_, accepted, accepts, rest⟩ := bind_eq_ok.mp run
        refine Run.trans ?_ (next rest)
        cases arrival : arrivals.accepted with
        | none =>
          obtain rfl : w = accepted := by simpa [arrival, acceptArrival] using accepts
          exact .refl _
        | some new =>
          obtain ⟨fd, ptr⟩ := new
          obtain ⟨valid, free⟩ := acceptable isZero fd ptr arrival
          rw [arrival] at accepts
          refine .single trivial (i := .between (.connect fd ptr)) (.between rfl ⟨⟨rfl, valid, free⟩, ?_⟩)
          exact bind_of_ok (f := fun _ => pure none) accepts
      · rename_i notZero
        obtain ⟨occupant, looked, looks, afterLook⟩ := bind_eq_ok.mp run
        obtain ⟨rfl, inSlot, found⟩ := clientAt_run looks
        cases occupant with
        | none => simp [fault] at afterLook
        | some occupant =>
          obtain ⟨ptr, client⟩ := occupant
          dsimp only at afterLook
          split at afterLook
          · exact next afterLook
          rename_i isRead
          cases received : arrivals.received fuel with
          | closed =>
            rw [received] at afterLook
            obtain ⟨_, ended, ends, rest⟩ := bind_eq_ok.mp afterLook
            -- a slot that was closed is filled with the last one and looked at again
            refine Run.trans ?_ (inductionHypothesis (fun isZero => absurd isZero notZero) rest)
            refine .single trivial (i := .between (.disconnect ⟨i, inRange⟩))
              (.between rfl ⟨⟨rfl, by simp [inSlot]⟩, ?_⟩)
            exact bind_of_ok (f := fun _ => pure none) ends
          | data bytes stale =>
            rw [received] at afterLook
            obtain ⟨_, served, serves, rest⟩ := bind_eq_ok.mp afterLook
            refine Run.trans ?_ (next rest)
            refine loopRuns_serveBuffer inSlot (found ptr client rfl) ?_ serves
            grind [Client.isRead]
    · simp [fault] at run

/-- A pass of the event loop is a run of the loop. -/
theorem pollPass_loop {arrivals : Option Arrivals} (acceptable : AcceptableAfterTimers arrivals w)
    (run : pollPass arrivals w = .ok ((), w')) : LoopRuns ⟨⟨w, none⟩, none⟩ ⟨⟨w', none⟩, none⟩ := by
  unfold pollPass at run
  cases arrivals with
  | none =>
    refine .single trivial (i := .between .timers) (.between rfl ⟨rfl, ?_⟩)
    exact bind_of_ok (f := fun _ => pure none) run
  | some arrivals =>
    obtain ⟨_, polled, polls, afterPoll⟩ := bind_eq_ok.mp run
    obtain ⟨_, timed, times, rest⟩ := bind_eq_ok.mp afterPoll
    have polls' : LoopRuns (⟨⟨w, none⟩, none⟩ : Loop D) ⟨⟨polled, none⟩, none⟩ := by
      refine .single trivial (i := .between (.poll arrivals.ready)) (.between rfl ⟨rfl, ?_⟩)
      exact bind_of_ok (f := fun _ => pure none) polls
    have times' : LoopRuns (⟨⟨polled, none⟩, none⟩ : Loop D) ⟨⟨timed, none⟩, none⟩ := by
      refine .single trivial (i := .between .timers) (.between rfl ⟨rfl, ?_⟩)
      exact bind_of_ok (f := fun _ => pure none) times
    refine (polls'.trans times').trans (loopRuns_serveSlots (fun _ => ?_) rest)
    refine acceptable arrivals rfl timed ?_
    rw [bind_of_ok polls]
    exact times

end Passes

end RedisClone
