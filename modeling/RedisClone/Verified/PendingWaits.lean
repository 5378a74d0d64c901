import RedisClone.Verified.Replies
import RedisClone.Verified.Wakeups

/-! # WAITs that are not answered yet

The server has one record for WAIT.  `Tracks` runs it beside a table of the WAITs that were sent and not
answered, each with the record that it made.  `waits_kept`: in a run in which nobody sends a WAIT that disturbs
one before it, the table, `is_waiting` and the record agree in every state, and the timers answer a WAIT
when its replicas have acknowledged its offset or its time is over, and with the number of these.
-/

namespace RedisClone

open Exec CString

variable {D : Type}

/-! ## The table of the WAITs -/

/-- The WAIT of each client that is not answered, as it was recorded. -/
abbrev Outstanding := ClientPtr → Option WaitRecord

/-- The client was sent an integer. -/
def integerSent (w w' : World D) (client : Client) : Bool :=
  (answers w w').any fun reply => reply.1 = client.fd && reply.2.head? = some 58

/-- The WAIT that a step leaves unanswered: who sent it, and what it records. -/
def Server.startedWait (s : Server D) (event : Event) (t : Server D) : Option (ClientPtr × WaitRecord) :=
  (s.calls event).bind fun call => (s.world.heap call.1).bind fun client =>
    if reachesArm client call.2 ∧ call.2.command = .wait ∧ integerSent s.world t.world client = false then
      call.2.args[0]?.map fun wanted =>
        (call.1, ⟨s.world.serverConfig.masterReplOffset, atoi wanted, client.fd⟩)
    else none

/-- The table after a step. -/
def outstandingAfter (s : Server D) (event : Event) (t : Server D) (outstanding : Outstanding) :
    Outstanding :=
  match event with
  | .timers => fun ptr =>
    if (s.world.heap ptr).any (integerSent s.world t.world) then none else outstanding ptr
  | .disconnect slot => fun ptr => if s.world.clients slot = some ptr then none else outstanding ptr
  | event =>
    match s.startedWait event t with
    | some (sender, record) => Function.update outstanding sender (some record)
    | none => outstanding

/-- A step of the server with the table. -/
def Tracks [Externals D] (before : Server D × Outstanding) (event : Event)
    (after : Server D × Outstanding) : Prop :=
  Step before.1 event after.1 ∧ after.2 = outstandingAfter before.1 event after.1 before.2

/-- A client is in WAIT. -/
def World.SomebodyWaits (w : World D) : Prop :=
  ∃ slot, ∃ client ∈ w.occupant slot, client.isWaiting = true

instance (w : World D) : Decidable w.SomebodyWaits :=
  inferInstanceAs (Decidable (∃ slot, ∃ client ∈ w.occupant slot, _))

/-- The WAIT records what is recorded and is answered at once. -/
def Repeats (w : World D) (req : RespRequest) : Prop :=
  ∃ wanted ∈ req.args[0]?, atoi wanted = w.serverConfig.wantedReplicas ∧
    w.serverConfig.masterReplOffset = w.serverConfig.capturedMasterOffset ∧
    atoi wanted ≤ w.acknowledged w.serverConfig.masterReplOffset

instance (w : World D) (req : RespRequest) : Decidable (Repeats w req) :=
  inferInstanceAs (Decidable (∃ wanted ∈ req.args[0]?, _ ∧ _ ∧ _))

/-- The command disturbs no client that is in WAIT: by another WAIT, or through a BLPOP or an XREAD that the
client sent before. -/
structure LeavesWaits (w : World D) (req : RespRequest) : Prop where
  waits : req.command = .wait → w.SomebodyWaits → Repeats w req
  pushes : req.command = .rpush → ∀ key ∈ req.args[0]?,
    ∀ ptr ∈ longestOf w.clock (w.waiters key) none 0, ∀ client ∈ w.heap ptr, client.isWaiting = false
  adds : req.command = .xadd → ∀ key ∈ req.args[0]?, ∀ slot, ∀ client ∈ w.occupant slot,
    client.reads key → client.isWaiting = false

instance (w : World D) (req : RespRequest) : Decidable (LeavesWaits w req) :=
  decidable_of_iff (_ ∧ _ ∧ _)
    ⟨fun ⟨waits, pushes, adds⟩ => ⟨waits, pushes, adds⟩,
      fun leaves => ⟨leaves.waits, leaves.pushes, leaves.adds⟩⟩

/-- The WAIT of a client is answered when the timers read the clock at `now`. -/
def World.WaitCompletes (w : World D) (client : Client) (now : Int) : Prop :=
  w.serverConfig.wantedReplicas ≤ w.acknowledged w.serverConfig.capturedMasterOffset ∨
    client.timeoutAt ≠ 0 ∧ client.timeoutAt ≤ now

instance (w : World D) (client : Client) (now : Int) : Decidable (w.WaitCompletes client now) :=
  inferInstanceAs (Decidable (_ ∨ _))

/-- The step disturbs no client that is in WAIT.  No connection gets the descriptor of another one. -/
def LeavesAllWaits (s : Server D) (event : Event) : Prop :=
  (∀ ptr req, Dispatches s event ptr req → LeavesWaits (s.world.noted req) req) ∧
    match event with
    | .connect fd _ => ∀ slot, ∀ client ∈ s.world.occupant slot, client.fd ≠ fd
    | .timers => ∀ slot, ∀ client ∈ s.world.occupant slot, client.isWaiting = true →
        client.dueBlpop (s.world.clock slot.val) → s.world.WaitCompletes client (s.world.clock 0)
    | _ => True

instance (s : Server D) (event : Event) : Decidable (LeavesAllWaits s event) :=
  match event with
  | .connect fd _ =>
    inferInstanceAs (Decidable (_ ∧ ∀ slot, ∀ client ∈ s.world.occupant slot, client.fd ≠ fd))
  | .timers => inferInstanceAs (Decidable (_ ∧ ∀ slot, ∀ client ∈ s.world.occupant slot, _ → _ → _))
  | .poll _ | .disconnect _ | .request _ _ | .proceed => inferInstanceAs (Decidable (_ ∧ True))

/-! ## Connections -/

/-- Every client has a slot, and no two of them a descriptor. -/
structure Seated (w : World D) : Prop where
  slot : ∀ ptr client, w.heap ptr = some client → ∃ slot, w.clients slot = some ptr
  apart : ∀ ptr ptr' client client', w.heap ptr = some client → w.heap ptr' = some client' →
    client.fd = client'.fd → ptr = ptr'

section Seated

variable {w w' : World D}

theorem Seated.of_clientwise {related : ClientPtr → Client → Client → Prop} (seated : Seated w)
    (clientwise : Clientwise related w w') : Seated w' where
  slot ptr client' found' := by
    obtain ⟨client, found, _⟩ := clientwise.back found'
    obtain ⟨slot, inSlot⟩ := seated.slot ptr client found
    exact ⟨slot, clientwise.clients ▸ inSlot⟩
  apart ptr other client' other' found' foundOther' same := by
    obtain ⟨client, found, sameFd, _⟩ := clientwise.back found'
    obtain ⟨otherClient, foundOther, otherFd, _⟩ := clientwise.back foundOther'
    exact seated.apart ptr other client otherClient found foundOther
      (sameFd.symm.trans (same.trans otherFd))

theorem Seated.occupant (seated : Seated w) {ptr : ClientPtr} {client : Client}
    (found : w.heap ptr = some client) : ∃ slot, w.clients slot = some ptr ∧ w.occupant slot = some client := by
  obtain ⟨slot, inSlot⟩ := seated.slot ptr client found
  exact ⟨slot, inSlot, by simp [World.occupant, inSlot, found]⟩

theorem Seated.accept (seated : Seated w) {slot : ClientSlot} {fd : Int} {ptr : ClientPtr}
    (unused : w.clients slot = none)
    (fresh : ∀ slot, ∀ client ∈ w.occupant slot, client.fd ≠ fd) : Seated (w.accept slot fd ptr) := by
  have old {other : ClientPtr} {client : Client} (isOld : other ≠ ptr)
      (found : (w.accept slot fd ptr).heap other = some client) : w.heap other = some client := by
    simpa [World.accept, Function.update_of_ne isOld] using found
  have new {client : Client} (found : (w.accept slot fd ptr).heap ptr = some client) :
      client = newClient fd := by
    simpa [World.accept, eq_comm] using found
  have otherFd {other : ClientPtr} {client : Client} (isOld : other ≠ ptr)
      (found : (w.accept slot fd ptr).heap other = some client) : client.fd ≠ fd := by
    obtain ⟨slot', _, occupant⟩ := seated.occupant (old isOld found)
    exact fresh slot' client occupant
  constructor
  · intro other client found
    by_cases isNew : other = ptr
    · exact ⟨slot, by simp [World.accept, isNew]⟩
    · obtain ⟨slot', inSlot⟩ := seated.slot other client (old isNew found)
      have distinct : slot' ≠ slot := by
        rintro rfl
        simp [unused] at inSlot
      exact ⟨slot', by simp [World.accept, Function.update_of_ne distinct, inSlot]⟩
  · intro first second client client' found found' same
    by_cases isFirst : first = ptr <;> by_cases isSecond : second = ptr
    · rw [isFirst, isSecond]
    · subst isFirst
      rw [new found] at same
      exact absurd same.symm (otherFd isSecond found')
    · subst isSecond
      rw [new found'] at same
      exact absurd same (otherFd isFirst found)
    · exact seated.apart first second client client' (old isFirst found) (old isSecond found') same

theorem Seated.drop (seated : Seated w) {slot last : ClientSlot} {ptr : ClientPtr}
    (inSlot : w.clients slot = some ptr) : Seated (w.drop slot last ptr) := by
  have old {other : ClientPtr} {client : Client} (found : (w.drop slot last ptr).heap other = some client) :
      other ≠ ptr ∧ w.heap other = some client := by
    have kept : other ≠ ptr := by
      rintro rfl
      simp [World.drop] at found
    exact ⟨kept, by simpa [World.drop, Function.update_of_ne kept] using found⟩
  constructor
  · intro other client found
    obtain ⟨kept, before⟩ := old found
    obtain ⟨slot', inSlot'⟩ := seated.slot other client before
    have distinct : slot' ≠ slot := by
      rintro rfl
      exact kept (Option.some.inj (inSlot'.symm.trans inSlot))
    by_cases isLast : slot' = last
    · -- the last connection moved into the slot of the one that ended
      subst isLast
      exact ⟨slot, by simp [World.drop, Function.update_of_ne distinct.symm, inSlot']⟩
    · exact ⟨slot', by
        simp [World.drop, Function.update_of_ne isLast, Function.update_of_ne distinct, inSlot']⟩
  · intro first second client client' found found' same
    exact seated.apart first second client client' (old found).2 (old found').2 same

end Seated

/-! ## The table and the record -/

/-- The clients in WAIT are those with a WAIT that is not answered; they are blocked, and what their WAIT
recorded is recorded. -/
structure WaitsKept (w : World D) (outstanding : Outstanding) : Prop where
  free : ∀ ptr, w.heap ptr = none → outstanding ptr = none
  waiting : ∀ ptr client, w.heap ptr = some client →
    (client.isWaiting = true ↔ outstanding ptr ≠ none)
  recorded : ∀ ptr client record, w.heap ptr = some client → outstanding ptr = some record →
    client.isBlocked = true ∧ record.waitClientFd = client.fd ∧ w.serverConfig.waitRecord = record

/-- A client that is in WAIT stays in it, and no client gets into it. -/
def KeepsWait (client client' : Client) : Prop :=
  client'.isWaiting = client.isWaiting ∧
    (client.isWaiting = true → client.isBlocked = true → client'.isBlocked = true)

section WaitsKept

variable {w w' : World D} {outstanding : Outstanding}

theorem WaitsKept.of_clientwise {related : ClientPtr → Client → Client → Prop} (kept : WaitsKept w outstanding)
    (clientwise : Clientwise related w w')
    (keeps : ∀ ptr client client', w.heap ptr = some client → related ptr client client' →
      KeepsWait client client')
    (record : outstanding ≠ (fun _ => none) → w'.serverConfig.waitRecord = w.serverConfig.waitRecord) :
    WaitsKept w' outstanding where
  free ptr missing := by
    cases found : w.heap ptr with
    | none => exact kept.free ptr found
    | some client =>
      obtain ⟨client', found', _⟩ := clientwise.heap ptr client found
      simp [missing] at found'
  waiting ptr client' found' := by
    obtain ⟨client, found, _, holds⟩ := clientwise.back found'
    rw [(keeps ptr client client' found holds).1]
    exact kept.waiting ptr client found
  recorded ptr client' own found' isOwn := by
    obtain ⟨client, found, sameFd, holds⟩ := clientwise.back found'
    obtain ⟨isBlocked, isFd, isRecorded⟩ := kept.recorded ptr client own found isOwn
    have waits := (kept.waiting ptr client found).mpr (by simp [isOwn])
    refine ⟨(keeps ptr client client' found holds).2 waits isBlocked, isFd.trans sameFd.symm, ?_⟩
    rw [record fun none => by simp [none] at isOwn, isRecorded]

theorem SameBlocking.keepsWait {client client' : Client} (same : SameBlocking client client') :
    KeepsWait client client' := by
  simp only [SameBlocking, Client.blocking, Blocking.mk.injEq] at same
  obtain ⟨isBlocked, _, isWaiting, _⟩ := same
  exact ⟨isWaiting, fun _ blocked => isBlocked.trans blocked⟩

theorem WaitsKept.of_still (kept : WaitsKept w outstanding) (still : Still w w') : WaitsKept w' outstanding :=
  kept.of_clientwise still.toClientwise (fun _ _ _ _ same => same.keepsWait) fun _ => still.record

/-- Somebody is in WAIT where the table has an entry. -/
theorem WaitsKept.somebodyWaits (kept : WaitsKept w outstanding) (seated : Seated w) {ptr : ClientPtr}
    (isOutstanding : outstanding ptr ≠ none) : w.SomebodyWaits := by
  cases found : w.heap ptr with
  | none => exact absurd (kept.free ptr found) isOutstanding
  | some client =>
    obtain ⟨slot, _, occupant⟩ := seated.occupant found
    exact ⟨slot, client, occupant, (kept.waiting ptr client found).mpr isOutstanding⟩

theorem Reads.keepsWait {client client' : Client} (reads : Reads client client') :
    KeepsWait client client' :=
  ⟨congrArg Blocking.isWaiting reads.1, fun _ => reads.2⟩

end WaitsKept

/-! ## The arms -/

section Arms

variable {w t : World D} {req : RespRequest} {ptr : ClientPtr} {client : Client}
  {outstanding : Outstanding}

theorem kept_rpush (kept : WaitsKept w outstanding) (leaves : LeavesWaits w req)
    (isRpush : req.command = .rpush) {clientFd : Int} (run : handleRpush req clientFd w = .ok ((), t)) :
    WaitsKept t outstanding := by
  by_cases enough : 2 ≤ req.argc
  · obtain ⟨key, list, expiresAt, opened, isKey, opens, pushes⟩ := handleRpush_ok enough run
    cases pushes with
    | unserved nobody keeps stores =>
      rw [keeps]
      exact kept.of_still (.of_same rfl rfl rfl rfl)
    | served ptr client first rest longest found elements keeps stores =>
      -- the client that was served was not in WAIT
      have notWaiting := leaves.pushes isRpush key isKey ptr longest client found
      have serves : Clientwise (fun _ => KeepsWait) w t :=
        .of_update (fun _ client => ⟨rfl, fun _ => id⟩) client.woken found rfl
          ⟨rfl, fun waits => by simp [notWaiting] at waits⟩ (by rw [keeps]) (by rw [keeps]) (by rw [keeps])
      exact kept.of_clientwise serves (fun _ _ _ _ => id) fun _ => by rw [keeps]
  · unfold handleRpush at run
    rw [if_pos (by omega)] at run
    rw [send_run run]
    exact kept.of_still (.of_same rfl rfl rfl rfl)

theorem kept_blpop [Externals D] (kept : WaitsKept w outstanding) (run : handleBlpop req ptr w = .ok ((), t)) :
    WaitsKept t outstanding := by
  cases handleBlpop_ok run with
  | nothing few same => exact same ▸ kept
  | popped key first rest expiresAt client enough isKey bound found keeps stores =>
    rw [keeps]
    exact kept.of_still (.of_same rfl rfl rfl rfl)
  | blocked key client timeoutAt blockedAt enough isKey empty found keeps =>
    have blocks : Clientwise (fun _ => KeepsWait) w t :=
      .of_update (fun _ client => ⟨rfl, fun _ => id⟩) (client.blockedFor key timeoutAt blockedAt) found rfl
        ⟨rfl, fun _ _ => rfl⟩ (by rw [keeps]) (by rw [keeps]) (by rw [keeps])
    exact kept.of_clientwise blocks (fun _ _ _ _ => id) fun _ => by rw [keeps]

theorem kept_xadd (kept : WaitsKept w outstanding) (seated : Seated w) (leaves : LeavesWaits w req)
    (isXadd : req.command = .xadd) {clientFd : Int}
    (run : handleSet req .stream clientFd w = .ok ((), t)) : WaitsKept t outstanding := by
  obtain still | ⟨key, isKey, delivers⟩ := handleXadd_delivers run
  · exact kept.of_still still
  · refine kept.of_clientwise delivers.toClientwise ?_ fun _ => delivers.record
    rintro ptr client client' found (same | ⟨reads, woken⟩)
    · exact same.keepsWait
    · obtain ⟨slot, _, occupant⟩ := seated.occupant found
      have notWaiting := leaves.adds isXadd key isKey slot client occupant reads
      have sameWaiting : client'.isWaiting = client.isWaiting := congrArg Blocking.isWaiting woken
      exact ⟨sameWaiting, fun waits => by simp [notWaiting] at waits⟩

theorem kept_xread (kept : WaitsKept w outstanding) {clientFd : Int}
    (run : handleStreamPrint req ptr clientFd .xread w = .ok ((), t)) : WaitsKept t outstanding := by
  have readsOnly := handleXread_readsOnly run
  refine kept.of_clientwise readsOnly.toClientwise ?_ fun _ => readsOnly.record
  intro other reader reader' found readBy
  unfold ReadBy at readBy
  split at readBy
  · exact readBy.keepsWait
  · exact readBy.keepsWait

theorem head_getackRequest : getackRequest.head? ≠ some 58 := by decide +kernel

theorem head_asks {w : World D} {reply : Int × Bytes} (member : reply ∈ w.asks) :
    reply.2.head? ≠ some 58 := by
  obtain ⟨slot, _, asked⟩ := List.mem_filterMap.mp member
  obtain ⟨client, _, isAsk⟩ := Option.bind_eq_some_iff.mp asked
  split at isAsk
  · obtain rfl := Option.some.inj isAsk
    exact head_getackRequest
  · simp at isAsk

/-- A WAIT is answered at once, or it is the only one and is recorded. -/
theorem kept_wait (kept : WaitsKept w outstanding) (seated : Seated w) (leaves : LeavesWaits w req)
    (isWait : req.command = .wait) (found : w.heap ptr = some client)
    (run : handleWait req client.fd w = .ok ((), t)) :
    ∃ replies, t.sent = w.sent ++ replies ∧
      ((∃ n, replies = [(client.fd, integerReply n)]) ∧ WaitsKept t outstanding ∨
        (∀ reply ∈ replies, reply.2.head? ≠ some 58) ∧ ∃ wanted, req.args[0]? = some wanted ∧
          WaitsKept t (Function.update outstanding ptr
            (some ⟨w.serverConfig.masterReplOffset, atoi wanted, client.fd⟩))) := by
  have repeats := leaves.waits isWait
  cases handleWait_ok run with
  | answered wanted isWanted enough keeps =>
    refine ⟨_, by rw [keeps]; rfl, .inl ⟨⟨_, rfl⟩, ?_⟩⟩
    have same : Clientwise (fun _ => SameBlocking) w t :=
      .of_same (fun _ => sameBlocking_refl) (by rw [keeps]; rfl) (by rw [keeps]; rfl) (by rw [keeps]; rfl)
    refine kept.of_clientwise same (fun _ _ _ _ same => same.keepsWait) fun someEntry => ?_
    -- a WAIT while another one is not answered records the same
    obtain ⟨other, isOutstanding⟩ := Function.ne_iff.mp someEntry
    obtain ⟨wanted', isWanted', sameWanted, sameOffset, _⟩ :=
      repeats (kept.somebodyWaits seated isOutstanding)
    obtain rfl : wanted = wanted' := Option.some.inj (isWanted.symm.trans isWanted')
    rw [keeps]
    change (⟨w.serverConfig.masterReplOffset, atoi wanted, w.serverConfig.waitClientFd⟩ : WaitRecord) = _
    rw [sameWanted, sameOffset]
    rfl
  | pending wanted asked isWanted few asks marks =>
    have nobody : outstanding = fun _ => none := by
      by_contra someEntry
      obtain ⟨other, isOutstanding⟩ := Function.ne_iff.mp someEntry
      obtain ⟨wanted', isWanted', _, _, enough⟩ := repeats (kept.somebodyWaits seated isOutstanding)
      obtain rfl : wanted = wanted' := Option.some.inj (isWanted.symm.trans isWanted')
      omega
    obtain ⟨_, nowhere⟩ | ⟨marked, waiting, timeoutAt, marks⟩ := marks
    · obtain ⟨slot, _, occupant⟩ := seated.occupant found
      exact absurd rfl (nowhere slot client occupant)
    · have markedFound : w.heap marked = some waiting := by
        have := marks.found
        rwa [asks] at this
      obtain rfl : marked = ptr := seated.apart _ _ _ _ markedFound found marks.sameFd
      obtain rfl : waiting = client := Option.some.inj (markedFound.symm.trans found)
      refine ⟨w.asks, by rw [marks.keeps, asks], .inr ⟨fun _ => head_asks, wanted, isWanted, ?_⟩⟩
      have heap : t.heap = Function.update w.heap marked (some (waiting.waitingUntil timeoutAt)) := by
        rw [marks.keeps, asks]
        rfl
      have record : t.serverConfig.waitRecord =
          ⟨w.serverConfig.masterReplOffset, atoi wanted, waiting.fd⟩ := by
        rw [marks.keeps, asks]
        rfl
      subst nobody
      refine ⟨fun other missing => ?_, fun other client' found' => ?_,
        fun other client' own found' isOwn => ?_⟩
      · by_cases isSender : other = marked
        · simp [heap, isSender] at missing
        · exact Function.update_of_ne isSender _ _
      · by_cases isSender : other = marked
        · subst isSender
          rw [heap, Function.update_self, Option.some.injEq] at found'
          simp [← found', Client.waitingUntil]
        · rw [heap, Function.update_of_ne isSender] at found'
          rw [Function.update_of_ne isSender]
          exact kept.waiting other client' found'
      · by_cases isSender : other = marked
        · subst isSender
          rw [heap, Function.update_self, Option.some.injEq] at found'
          rw [Function.update_self, Option.some.injEq] at isOwn
          subst found' isOwn
          exact ⟨rfl, rfl, record⟩
        · rw [Function.update_of_ne isSender] at isOwn
          simp at isOwn

/-- An arm other than WAIT. -/
theorem kept_arm_of_ne_wait [Externals D] (kept : WaitsKept w outstanding) (seated : Seated w)
    (leaves : LeavesWaits w req) (notWait : req.command ≠ .wait)
    (run : arm req ptr client w = .ok ((), t)) : WaitsKept t outstanding := by
  by_cases unblocking : changesBlocking req.command = false
  · exact kept.of_still (still_arm unblocking run)
  cases command : req.command with
  | rpush =>
    rw [arm, command] at run
    exact kept_rpush kept leaves command run
  | blpop =>
    rw [arm, command] at run
    exact kept_blpop kept run
  | xadd =>
    rw [arm, command] at run
    exact kept_xadd kept seated leaves command run
  | xread =>
    rw [arm, command] at run
    exact kept_xread kept (by simpa [command] using run)
  | wait => exact absurd command notWait
  | _ => simp [command, changesBlocking] at unblocking

end Arms

/-! ## The timers -/

section Timers

variable [Externals D] {s t : Server D} {outstanding : Outstanding} {ptr : ClientPtr} {client : Client}
  {record : WaitRecord}

omit [Externals D] in
theorem head_expiryReply (table : Table D) (key : Bytes) : (expiryReply table key).head? = some 42 := by
  have front (text : Bytes) (count : Nat) : ((lit "*2\r\n" ++ text).take (count + 1)).head? = some 42 := by
    simp [lit]
  unfold expiryReply
  split
  · rw [popReply_eq]
    exact front _ 1022
  · decide

omit [Externals D] in
/-- What expires is answered with an array. -/
theorem head_expiries {w : World D} {now : Int} {clock : Nat → Int} {slots : List ClientSlot}
    {reply : Int × Bytes} (member : reply ∈ w.expiries now clock slots) : reply.2.head? = some 42 := by
  induction slots generalizing clock with
  | nil => simp [World.expiries] at member
  | cons slot slots inductionHypothesis =>
    rw [World.expiries, List.mem_append] at member
    cases member with
    | inr later => exact inductionHypothesis later
    | inl here =>
      unfold World.expiryAt at here
      split at here
      · simp at here
      · split at here
        · obtain rfl := List.mem_singleton.mp here
          rfl
        · split at here
          · obtain ⟨key, _, rfl⟩ := List.mem_map.mp here
            exact head_expiryReply _ key
          · simp at here

omit [Externals D] in
/-- What the timers send because of a WAIT that is not answered. -/
theorem completions_of_outstanding (wellFormed : WellFormed s) (seated : Seated s.world)
    (kept : WaitsKept s.world outstanding) (found : s.world.heap ptr = some client)
    (isOwn : outstanding ptr = some record) (now : Int) :
    s.world.completions now = if s.world.WaitCompletes client now then
      [(client.fd, integerReply (s.world.acknowledged record.capturedMasterOffset))] else [] := by
  obtain ⟨_, sameFd, isRecorded⟩ := kept.recorded ptr client record found isOwn
  subst isRecorded
  replace sameFd : s.world.serverConfig.waitClientFd = client.fd := sameFd
  have valid := wellFormed.descriptors ptr client found
  have due : s.world.active.any (s.world.waitDue now) = true ↔
      client.timeoutAt ≠ 0 ∧ client.timeoutAt ≤ now := by
    rw [List.any_eq_true]
    constructor
    · rintro ⟨slot, _, isDue⟩
      obtain ⟨other, occupant, holds⟩ := (Option.any_eq_true _ _).mp isDue
      obtain ⟨otherPtr, _, foundOther⟩ := Option.bind_eq_some_iff.mp occupant
      have holds := of_decide_eq_true holds
      -- only the client itself has its descriptor
      obtain rfl := seated.apart _ _ _ _ foundOther found (holds.1.trans sameFd)
      obtain rfl : client = other := Option.some.inj (found.symm.trans foundOther)
      exact holds.2
    · intro isDue
      obtain ⟨slot, inSlot, occupant⟩ := seated.occupant found
      refine ⟨slot, mem_active.mpr ((wellFormed.inUse slot).mp (by simp [inSlot])), ?_⟩
      rw [World.waitDue, occupant]
      simp [sameFd, isDue]
  have somebody : client.fd ≠ -1 := by omega
  simp only [World.completions, World.WaitCompletes, due, sameFd, somebody, ne_eq, not_false_eq_true,
    true_and]
  rfl

/-- The timers answer a WAIT when it completes, with the number of the replicas that acknowledged its offset. -/
theorem timers_answer_wait (wellFormed : WellFormed s) (seated : Seated s.world)
    (kept : WaitsKept s.world outstanding) (found : s.world.heap ptr = some client)
    (isOwn : outstanding ptr = some record) (step : Step s .timers t) :
    (integerSent s.world t.world client = true ↔ s.world.WaitCompletes client (s.world.clock 0)) ∧
      ∀ text, (client.fd, text) ∈ answers s.world t.world → text.head? = some 58 →
        text = integerReply (s.world.acknowledged record.capturedMasterOffset) := by
  have isAnswers := answers_timers wellFormed step
  rw [completions_of_outstanding wellFormed seated kept found isOwn] at isAnswers
  have isInteger (reply : Int × Bytes) (member : reply ∈ answers s.world t.world)
      (isHead : reply.2.head? = some 58) : s.world.WaitCompletes client (s.world.clock 0) ∧
        reply = (client.fd, integerReply (s.world.acknowledged record.capturedMasterOffset)) := by
    rw [isAnswers, List.mem_append] at member
    cases member with
    | inl expires =>
      rw [head_expiries expires] at isHead
      simp at isHead
    | inr completion =>
      split at completion
      · rename_i completes
        exact ⟨completes, List.mem_singleton.mp completion⟩
      · simp at completion
  refine ⟨⟨fun sent => ?_, fun completes => ?_⟩, fun text member isHead => ?_⟩
  · obtain ⟨reply, member, isReply⟩ := List.any_eq_true.mp sent
    simp only [Bool.and_eq_true, decide_eq_true_eq] at isReply
    exact (isInteger reply member isReply.2).1
  · rw [integerSent, isAnswers, if_pos completes, List.any_append]
    simp [integerReply, lit]
  · exact congrArg Prod.snd (isInteger _ member isHead).2

omit [Externals D] in
/-- A client in WAIT stays blocked while others expire, unless its WAIT completes as well. -/
theorem expires_keepsWait {expired : World D} (leaves : LeavesAllWaits s .timers)
    (expires : Expires s.world.tick (s.world.clock 0) s.world.active expired) :
    Clientwise (fun _ client client' => client'.isWaiting = client.isWaiting ∧
      (client.isWaiting = true → ¬ s.world.WaitCompletes client (s.world.clock 0) →
        client'.isBlocked = client.isBlocked)) s.world expired where
  clients := by rw [expires.keeps]; rfl
  activeFds := by rw [expires.keeps]; rfl
  free := expires.free
  heap ptr client found := by
    obtain ⟨_, same⟩ | ⟨i, slot, isSlot, inSlot, same⟩ := expires.heap ptr client found
    · exact ⟨client, same, rfl, rfl, fun _ _ => rfl⟩
    · obtain ⟨sameFd, _, _, _, sameWaiting⟩ :=
        expired_fields client (s.world.clock 0) (s.world.tick.clock i)
      refine ⟨_, same, sameFd, sameWaiting, fun waits incomplete => ?_⟩
      have reading : s.world.tick.clock i = s.world.clock slot.val := by
        rw [active_getElem isSlot]
        rfl
      have occupant : s.world.occupant slot = some client := by
        have inSlot : s.world.clients slot = some ptr := inSlot
        have found : s.world.heap ptr = some client := found
        simp [World.occupant, inSlot, found]
      have notXread : ¬ client.dueXread (s.world.clock 0) := fun due => due.2.2.2.2.1 waits
      have notBlpop : ¬ client.dueBlpop (s.world.tick.clock i) := fun due =>
        incomplete (leaves.2 slot client occupant waits (reading ▸ due))
      rw [Client.expired, if_neg notXread, if_neg notBlpop]

omit [Externals D] in
/-- The loop that ends a WAIT takes every client out of WAIT. -/
theorem CompletesWait.of_completions {w w' : World D} {now : Int} (completes : CompletesWait w now w') :
    w' = w ∧ w.completions now = [] ∨ w.completions now ≠ [] ∧
      Clientwise (fun ptr _ client' => (∀ slot ∈ w.active, w.clients slot ≠ some ptr) ∨
        client'.isWaiting = false) w w' := by
  have sent := completes.sent
  cases completes with
  | idle nobody same =>
    subst same
    exact .inl ⟨rfl, List.append_right_eq_self.mp sent.1.symm⟩
  | waits few notDue same =>
    subst same
    exact .inl ⟨rfl, List.append_right_eq_self.mp sent.1.symm⟩
  | completes somebody enough keeps free heap =>
    refine .inr ⟨fun none => ?_, by rw [keeps], by rw [keeps], free, fun ptr client found => ?_⟩
    · rw [keeps, none, List.append_nil] at sent
      simp at sent
    · obtain ⟨nowhere, same⟩ | ⟨_, ended⟩ := heap ptr client found
      · exact ⟨client, same, rfl, .inl nowhere⟩
      · exact ⟨_, ended, rfl, .inr rfl⟩

theorem kept_timers (wellFormed : WellFormed s) (seated : Seated s.world)
    (kept : WaitsKept s.world outstanding) (leaves : LeavesAllWaits s .timers) (step : Step s .timers t) :
    WaitsKept t.world (outstandingAfter s .timers t outstanding) := by
  have answered (ptr : ClientPtr) (client : Client) (record : WaitRecord)
      (found : s.world.heap ptr = some client) (isOwn : outstanding ptr = some record) :
      integerSent s.world t.world client = true ↔ s.world.WaitCompletes client (s.world.clock 0) :=
    (timers_answer_wait wellFormed seated kept found isOwn step).1
  have isAnswers := answers_timers wellFormed step
  have idle : s.running = none := step.1
  obtain ⟨_, acts⟩ := step
  rw [idle] at acts
  obtain ⟨runs, _⟩ := act_unit acts
  obtain ⟨expired, expires, completes⟩ := runTimers_ok wellFormed.distinct runs
  have expiry := expires_keepsWait leaves expires
  have outstandingOf (ptr : ClientPtr) (client : Client) (found : s.world.heap ptr = some client) :
      outstandingAfter s .timers t outstanding ptr =
        if integerSent s.world t.world client then none else outstanding ptr := by
    simp [outstandingAfter, found]
  have sameCompletions : expired.completions (s.world.clock 0) = s.world.completions (s.world.clock 0) :=
    expires.completions_eq _
  obtain ⟨same, none⟩ | ⟨some, ends⟩ := completes.of_completions
  · -- nothing completes, and nobody is sent an integer
    rw [sameCompletions] at none
    have noInteger (client : Client) : integerSent s.world t.world client = false := by
      rw [integerSent, isAnswers, none, List.append_nil, List.any_eq_false]
      intro reply member isInteger
      rw [head_expiries member] at isInteger
      simp at isInteger
    have sameTable : outstandingAfter s .timers t outstanding = outstanding := by
      funext ptr
      cases found : s.world.heap ptr with
      | none => simp [outstandingAfter, found]
      | some client => simp [outstandingOf ptr client found, noInteger]
    rw [sameTable, same]
    have sameRecord : expired.serverConfig.waitRecord = s.world.serverConfig.waitRecord := by
      rw [expires.keeps]
      rfl
    refine kept.of_clientwise expiry (fun ptr client client' found holds => ⟨holds.1, ?_⟩) fun _ =>
      sameRecord
    intro waits blocked
    obtain ⟨record, isOwn⟩ :=
      Option.ne_none_iff_exists'.mp ((kept.waiting ptr client found).mp waits)
    rw [holds.2 waits fun completes => ?_, blocked]
    simpa [noInteger] using (answered ptr client record found isOwn).mpr completes
  · -- the only client in WAIT is answered
    rw [sameCompletions] at some
    have nobody : outstandingAfter s .timers t outstanding = fun _ => Option.none := by
      funext ptr
      cases found : s.world.heap ptr with
      | none => simp [outstandingAfter, found, kept.free ptr found]
      | some client =>
        rw [outstandingOf ptr client found]
        cases isOwn : outstanding ptr with
        | none => simp
        | some record =>
          rw [completions_of_outstanding wellFormed seated kept found isOwn] at some
          have completes : s.world.WaitCompletes client (s.world.clock 0) := by
            by_contra incomplete
            exact some (if_neg incomplete)
          rw [(answered ptr client record found isOwn).mpr completes, if_pos rfl]
    have ended : Clientwise (fun _ _ client' => client'.isWaiting = false) s.world t.world := by
      refine ⟨ends.clients.trans expiry.clients, ends.activeFds.trans expiry.activeFds,
        fun ptr missing => ends.free ptr (expiry.free ptr missing), fun ptr client found => ?_⟩
      obtain ⟨between, foundBetween, sameFd, _⟩ := expiry.heap ptr client found
      obtain ⟨client', found', sameFd', nowhere | notWaiting⟩ := ends.heap ptr between foundBetween
      · obtain ⟨slot, inSlot⟩ := seated.slot ptr client found
        have inUse := (wellFormed.inUse slot).mp (by simp [inSlot])
        refine absurd (expiry.clients ▸ inSlot) (nowhere slot (mem_active.mpr ?_))
        rw [expiry.activeFds]
        exact inUse
      · exact ⟨client', found', sameFd'.trans sameFd, notWaiting⟩
    rw [nobody]
    refine ⟨fun _ _ => rfl, fun ptr client' found' => ?_, fun _ _ _ _ isOwn => by simp at isOwn⟩
    obtain ⟨_, _, _, notWaiting⟩ := ended.back found'
    simp [notWaiting]

end Timers

/-! ## Runs -/

section Runs

variable [Externals D] {s t : Server D} {event : Event} {outstanding : Outstanding}

omit [Externals D] in
theorem WaitsKept.accept {w : World D} (kept : WaitsKept w outstanding) {slot : ClientSlot} {fd : Int}
    {ptr : ClientPtr} (free : w.heap ptr = none) : WaitsKept (w.accept slot fd ptr) outstanding := by
  have unchanged {other : ClientPtr} (isOld : other ≠ ptr) : (w.accept slot fd ptr).heap other = w.heap other :=
    Function.update_of_ne isOld _ _
  have new : (w.accept slot fd ptr).heap ptr = some (newClient fd) := Function.update_self _ _ _
  have none : outstanding ptr = none := kept.free ptr free
  refine ⟨fun other missing => ?_, fun other client found => ?_, fun other client own found isOwn => ?_⟩
  · by_cases isNew : other = ptr
    · rwa [isNew]
    · exact kept.free other (unchanged isNew ▸ missing)
  · by_cases isNew : other = ptr
    · subst isNew
      obtain rfl : newClient fd = client := Option.some.inj (new.symm.trans found)
      simp [newClient, none]
    · exact kept.waiting other client (unchanged isNew ▸ found)
  · have isOld : other ≠ ptr := by
      rintro rfl
      simp [none] at isOwn
    exact kept.recorded other client own (unchanged isOld ▸ found) isOwn

omit [Externals D] in
theorem WaitsKept.drop {w : World D} (kept : WaitsKept w outstanding) {slot last : ClientSlot}
    {ptr : ClientPtr} (inSlot : w.clients slot = some ptr) :
    WaitsKept (w.drop slot last ptr)
      (fun other => if w.clients slot = some other then none else outstanding other) := by
  have unchanged {other : ClientPtr} (isOther : other ≠ ptr) :
      (w.drop slot last ptr).heap other = w.heap other := Function.update_of_ne isOther _ _
  have gone : (w.drop slot last ptr).heap ptr = none := Function.update_self _ _ _
  have others {other : ClientPtr} (isOther : other ≠ ptr) :
      (if w.clients slot = some other then none else outstanding other) = outstanding other := by
    rw [if_neg]
    rw [inSlot, Option.some.injEq]
    exact isOther.symm
  refine ⟨fun other missing => ?_, fun other client found => ?_, fun other client own found isOwn => ?_⟩
  · by_cases isDropped : other = ptr
    · rw [isDropped, if_pos inSlot]
    · rw [others isDropped]
      exact kept.free other (unchanged isDropped ▸ missing)
  · have isOther : other ≠ ptr := by
      rintro rfl
      simp [gone] at found
    rw [others isOther]
    exact kept.waiting other client (unchanged isOther ▸ found)
  · have isOther : other ≠ ptr := by
      rintro rfl
      simp [gone] at found
    rw [others isOther] at isOwn
    exact kept.recorded other client own (unchanged isOther ▸ found) isOwn

omit [Externals D] in
theorem startedWait_eq_none (others : ∀ ptr req, Dispatches s event ptr req → req.command ≠ .wait) :
    s.startedWait event t = none := by
  unfold Server.startedWait
  cases calls : s.calls event with
  | none => rfl
  | some call =>
    obtain ⟨ptr, req⟩ := call
    cases found : s.world.heap ptr with
    | none => simp [found]
    | some client =>
      simp only [Option.bind_some, found]
      rw [if_neg]
      rintro ⟨reaches, isWait, _⟩
      exact others ptr req ⟨calls, client, found, reaches⟩ isWait

omit [Externals D] in
theorem startedWait_of_dispatches {ptr : ClientPtr} {req : RespRequest} {client : Client}
    (dispatches : Dispatches s event ptr req) (found : s.world.heap ptr = some client)
    (isWait : req.command = .wait) :
    s.startedWait event t = if integerSent s.world t.world client = false then
      req.args[0]?.map fun wanted => (ptr, ⟨s.world.serverConfig.masterReplOffset, atoi wanted, client.fd⟩)
      else none := by
  obtain ⟨calls, other, foundOther, reaches⟩ := dispatches
  obtain rfl : client = other := Option.some.inj (found.symm.trans foundOther)
  simp [Server.startedWait, calls, found, reaches, isWait]

omit [Externals D] in
theorem Held.clientwise {w w' : World D} (held : Held Ordinary w w') :
    Clientwise (fun _ _ _ => True) w w' where
  clients := held.clients
  activeFds := held.activeFds
  free := held.free
  heap ptr client found := by
    obtain ⟨client', found', sameFd, _⟩ := held.heap ptr client found
    exact ⟨client', found', sameFd, trivial⟩

/-- What a step does to the connections. -/
inductive Reconnects (s : Server D) : Event → World D → Prop where
  | kept {event : Event} {w' : World D} (clientwise : Clientwise (fun _ _ _ => True) s.world w') :
      Reconnects s event w'
  | connected {fd : Int} {ptr : ClientPtr} (slot : ClientSlot) (isNext : slot.val = s.world.activeFds) :
      Reconnects s (.connect fd ptr) (s.world.accept slot fd ptr)
  | disconnected {slot : ClientSlot} (last : ClientSlot) (ptr : ClientPtr)
      (occupied : s.world.clients slot = some ptr) :
      Reconnects s (.disconnect slot) (s.world.drop slot last ptr)

theorem reconnects_of_step (outside : OutsideMulti s) (step : Step s event t) : Reconnects s event t.world := by
  cases step_cases outside step with
  | quiet idle noRequest kept => exact .kept kept.held.clientwise
  | connected slot idle isNext valid free => exact .connected slot isNext
  | disconnected last ptr idle isLast occupied => exact .disconnected last ptr occupied
  | started ptr client idle occupied found starts =>
    exact .kept (Held.trans (held_emit _ _ _) (held_setClient client.takeQueue found rfl
      fun req member => by simp [Client.takeQueue] at member)).clientwise
  | served ptr client idle occupied found starts handles propagates =>
    exact .kept ((handles.held found fun ordinary _ => ordinary).trans
      (kept_propagate propagates).held).clientwise
  | ran ptr req remaining call client client' running found handles found' =>
    exact .kept ((handles.held found fun ordinary _ => ordinary).trans
      (held_setClient { client' with isQueued := false } found' rfl fun req => .inl)).clientwise
  | ended ptr call running propagates => exact .kept (kept_propagate propagates).held.clientwise

theorem seated_step (wellFormed : WellFormed s) (seated : Seated s.world) (leaves : LeavesAllWaits s event)
    (step : Step s event t) : Seated t.world := by
  have reconnects := reconnects_of_step wellFormed.outside step
  generalize t.world = w' at reconnects
  cases reconnects with
  | kept clientwise => exact seated.of_clientwise clientwise
  | connected slot isNext =>
    refine seated.accept ?_ leaves.2
    by_contra used
    have := (wellFormed.inUse slot).mp used
    omega
  | disconnected last ptr occupied => exact seated.drop occupied

/-- A call of `handle` keeps the table. -/
theorem kept_handle (wellFormed : WellFormed s) (seated : Seated s.world)
    (kept : WaitsKept s.world outstanding) (leaves : LeavesAllWaits s event) (step : Step s event t)
    (isHandle : (∃ slot call, event = .request slot call) ∨ event = .proceed) :
    WaitsKept t.world (outstandingAfter s event t outstanding) := by
  have table : outstandingAfter s event t outstanding = match s.startedWait event t with
      | some (sender, record) => Function.update outstanding sender (some record)
      | none => outstanding := by
    obtain ⟨_, _, rfl⟩ | rfl := isHandle <;> rfl
  rw [table]
  by_cases dispatched : ∃ ptr req, Dispatches s event ptr req
  · obtain ⟨ptr, req, dispatches⟩ := dispatched
    obtain ⟨client, handled, found, run, _, still⟩ := arm_of_step wellFormed.outside step dispatches
    have leavesHere := leaves.1 ptr req dispatches
    -- the command is counted before it runs
    have keptNoted : WaitsKept (s.world.noted req) outstanding := kept.of_still (.of_same rfl rfl rfl rfl)
    have seatedNoted : Seated (s.world.noted req) :=
      seated.of_clientwise (Still.of_same rfl rfl rfl rfl : Still s.world (s.world.noted req)).toClientwise
    by_cases isWait : req.command = .wait
    · have waitRun := run
      rw [arm, isWait] at waitRun
      obtain ⟨replies, sent, outcome⟩ := kept_wait keptNoted seatedNoted leavesHere isWait found waitRun
      obtain ⟨copies, copied, passed⟩ := sent_of_step wellFormed.outside step dispatches found run
      have isAnswers : answers s.world t.world = replies := answers_eq (by rw [copied, sent]; rfl) passed
      rw [startedWait_of_dispatches dispatches found isWait]
      obtain ⟨⟨n, isReply⟩, same⟩ | ⟨noInteger, wanted, isWanted, recorded⟩ := outcome
      · have integer : integerSent s.world t.world client = true := by
          simp [integerSent, isAnswers, isReply, integerReply, lit]
        rw [integer, if_neg (by simp)]
        exact same.of_still still
      · have noAnswer : integerSent s.world t.world client = false := by
          rw [integerSent, isAnswers, List.any_eq_false]
          intro reply member
          simp [noInteger reply member]
        rw [if_pos noAnswer, isWanted]
        exact recorded.of_still still
    · rw [startedWait_eq_none fun ptr' req' dispatches' => ?_]
      · exact (kept_arm_of_ne_wait keptNoted seatedNoted leavesHere isWait run).of_still still
      · obtain ⟨_, rfl⟩ := dispatches_unique dispatches dispatches'
        exact isWait
  · have undispatched (ptr : ClientPtr) (req : RespRequest) : ¬ Dispatches s event ptr req :=
      fun dispatches => dispatched ⟨ptr, req, dispatches⟩
    rw [startedWait_eq_none fun ptr req dispatches => absurd dispatches (undispatched ptr req)]
    have reblocks := reblocks_of_step wellFormed.outside step
    generalize t.world = w' at reblocks ⊢
    cases reblocks with
    | still _ still => exact kept.of_still still
    | ran ptr req _ dispatches _ _ _ => exact absurd dispatches (undispatched ptr req)
    | expired _ => simp at isHandle
    | connected _ _ _ => simp at isHandle
    | disconnected _ _ _ _ => simp at isHandle

theorem kept_step (wellFormed : WellFormed s) (seated : Seated s.world)
    (kept : WaitsKept s.world outstanding) (leaves : LeavesAllWaits s event) (step : Step s event t) :
    WaitsKept t.world (outstandingAfter s event t outstanding) := by
  cases event with
  | timers => exact kept_timers wellFormed seated kept leaves step
  | request slot call => exact kept_handle wellFormed seated kept leaves step (.inl ⟨slot, call, rfl⟩)
  | proceed => exact kept_handle wellFormed seated kept leaves step (.inr rfl)
  | poll ready =>
    obtain ⟨enabled, acts⟩ := step
    rw [show s.running = none from enabled] at acts
    obtain ⟨runs, _⟩ := act_unit acts
    simp only [setReady, alter_run, Except.ok.injEq, Prod.mk.injEq, true_and] at runs
    rw [← runs]
    exact kept.of_still (.of_same rfl rfl rfl rfl)
  | connect fd ptr =>
    obtain ⟨enabled, acts⟩ := step
    rw [show s.running = none from enabled.1] at acts
    obtain same | ⟨slot, _, same⟩ := connect_run (act_unit acts).1
    · rw [same]
      exact kept
    · rw [same]
      exact kept.accept enabled.2.2
  | disconnect slot =>
    obtain ⟨enabled, acts⟩ := step
    rw [show s.running = none from enabled.1] at acts
    obtain ⟨ptr, inSlot⟩ := Option.ne_none_iff_exists'.mp enabled.2
    obtain ⟨last, _, same⟩ := disconnect_run inSlot (act_unit acts).1
    rw [same]
    exact kept.drop inSlot

/-- The server and the table agree. -/
structure InBooks (state : Server D × Outstanding) : Prop where
  wellFormed : WellFormed state.1
  seated : Seated state.1.world
  kept : WaitsKept state.1.world state.2

theorem inBooks_step {before after : Server D × Outstanding} (books : InBooks before)
    (leaves : LeavesAllWaits before.1 event) (tracks : Tracks before event after) : InBooks after where
  wellFormed := wellFormed_step books.wellFormed tracks.1
  seated := seated_step books.wellFormed books.seated leaves tracks.1
  kept := tracks.2 ▸ kept_step books.wellFormed books.seated books.kept leaves tracks.1

/-- In a run in which no step disturbs a client that is in WAIT, in every state the clients in WAIT are those
whose WAIT is not answered, they are blocked, and the one record of the server is theirs.  The timers answer
such a WAIT when the replicas have acknowledged its offset or its time is over, with their number. -/
theorem waits_kept (entry : AtLoopEntry s)
    (run : Run Tracks (fun state event => LeavesAllWaits state.1 event) (s, fun _ => none)
      (t, outstanding)) :
    WaitsKept t.world outstanding ∧ ∀ u ptr client record, t.world.heap ptr = some client →
      outstanding ptr = some record → Step t .timers u →
      (integerSent t.world u.world client = true ↔
        record.wantedReplicas ≤ t.world.acknowledged record.capturedMasterOffset ∨
          client.timeoutAt ≠ 0 ∧ client.timeoutAt ≤ t.world.clock 0) ∧
      ∀ text, (client.fd, text) ∈ answers t.world u.world → text.head? = some 58 →
        text = integerReply (t.world.acknowledged record.capturedMasterOffset) := by
  have atStart : WaitsKept s.world fun _ => none :=
    ⟨fun _ _ => rfl, fun _ _ found => by simp [entry.heap] at found, fun _ _ _ found => by
      simp [entry.heap] at found⟩
  have seatedAtStart : Seated s.world :=
    ⟨fun _ _ found => by simp [entry.heap] at found, fun _ _ _ _ found => by simp [entry.heap] at found⟩
  obtain ⟨wellFormed, seated, kept⟩ : InBooks (t, outstanding) :=
    run.invariant (fun _ _ _ books leaves tracks => inBooks_step books leaves tracks)
      ⟨entry.wellFormed, seatedAtStart, atStart⟩
  refine ⟨kept, fun u ptr client record found isOwn step => ?_⟩
  obtain ⟨_, _, isRecorded⟩ := kept.recorded ptr client record found isOwn
  obtain ⟨answered, texts⟩ := timers_answer_wait wellFormed seated kept found isOwn step
  refine ⟨answered.trans ?_, texts⟩
  rw [World.WaitCompletes, ← isRecorded]
  rfl

/-- The table beside a run. -/
theorem tracks_of_run {allowed : Server D → Event → Prop} (run : Run Step allowed s t)
    (before : Outstanding) : ∃ outstanding,
      Run Tracks (fun state event => allowed state.1 event) (s, before) (t, outstanding) := by
  induction run with
  | refl => exact ⟨before, .refl _⟩
  | @tail t u event _ permitted last inductionHypothesis =>
    obtain ⟨outstanding, tracks⟩ := inductionHypothesis
    exact ⟨outstandingAfter t event u outstanding, .tail tracks permitted ⟨last, rfl⟩⟩

/-- A WAIT for a replica that is not there is answered when its time is over. -/
theorem waits_kept_timeout : ∃ (t u : Server Int) (client : Client), client.isWaiting = true ∧
    client.isBlocked = true ∧ client.fd = t.world.serverConfig.waitClientFd ∧ Step t .timers u ∧
      integerSent t.world u.world client = true := by
  obtain ⟨t, run, checked⟩ := exists_run_of_play
    (show (play LeavesAllWaits tickingServer
      [.connect 5 0, arrival firstSlot [lit "WAIT", lit "1", lit "1"]]).any
      (fun t => (t.world.heap 0).any (fun client => client.isWaiting &&
        (decide (client.timeoutAt ≠ 0 ∧ client.timeoutAt ≤ t.world.clock 0))) &&
          (next t .timers).isSome) = true by
      decide +kernel)
  simp only [Bool.and_eq_true, decide_eq_true_eq, Option.any_eq_true] at checked
  obtain ⟨⟨client, found, waits, due⟩, isSome⟩ := checked
  obtain ⟨u, isNext⟩ := Option.isSome_iff_exists.mp isSome
  obtain ⟨outstanding, tracks⟩ := tracks_of_run run fun _ => none
  have entry : AtLoopEntry tickingServer :=
    ⟨rfl, fun _ => rfl, rfl, fun _ => rfl, fun _ => rfl, rfl⟩
  obtain ⟨kept, answers⟩ := waits_kept entry tracks
  obtain ⟨record, isOwn⟩ := Option.ne_none_iff_exists'.mp ((kept.waiting 0 client found).mp waits)
  obtain ⟨blocked, sameFd, isRecorded⟩ := kept.recorded 0 client record found isOwn
  have isFd : client.fd = t.world.serverConfig.waitClientFd := by
    rw [← sameFd, ← isRecorded]
    rfl
  exact ⟨t, u, client, waits, blocked, isFd, next_step isNext,
    (answers u 0 client record found isOwn (next_step isNext)).1.mpr (.inr due)⟩

/-- A second WAIT takes the place of the first one in the record. -/
theorem second_wait_overwrites :
    ¬ ∀ (t : Server Int) (ptr : ClientPtr) (client : Client), Runs idleServer t → t.running = none →
      t.world.heap ptr = some client → client.isWaiting = true →
        t.world.serverConfig.waitClientFd = client.fd := by
  intro recorded
  obtain ⟨t, run, checked⟩ := exists_run_of_play
    (show (play (fun _ _ => True) idleServer [.connect 5 0, .connect 6 1,
      arrival firstSlot [lit "WAIT", lit "1", lit "0"],
      arrival secondSlot [lit "WAIT", lit "1", lit "0"]]).any
      (fun t => t.running.isNone && ((t.world.heap 0).any (fun client => client.isWaiting &&
        decide (client.fd = 5)) && decide (t.world.serverConfig.waitClientFd = 6))) = true by
      decide +kernel)
  simp only [Bool.and_eq_true, decide_eq_true_eq, Option.any_eq_true, Option.isNone_iff_eq_none] at checked
  obtain ⟨idle, ⟨client, found, waits, isFive⟩, isSix⟩ := checked
  have isFirst := recorded t 0 client run idle found waits
  rw [isSix, isFive] at isFirst
  simp at isFirst

end Runs

end RedisClone
