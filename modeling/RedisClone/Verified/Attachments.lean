import RedisClone.Verified.Acknowledgements
import RedisClone.Verified.Classification
import RedisClone.Verified.Connections
import RedisClone.Verified.Propagation

/-! # A replica in the table of its master

`Attached` is what the master keeps of a replica, and `messagesTo` what it sends it.  A write command of another client
sends the replica one copy, a WAIT one request for its offset or nothing, and the timers nothing.
-/

namespace RedisClone

open Exec CString

variable {D : Type}

/-! ## Messages -/

/-- The messages that were sent to a descriptor between two states. -/
def messagesTo (fd : Int) (w w' : World D) : List Bytes :=
  ((w'.sent.drop w.sent.length).filter fun message => message.1 = fd).map Prod.snd

section Messages

variable {fd : Int} {w w' w'' : World D} {messages : List (Int × Bytes)}

theorem messagesTo_of_sent (sent : w'.sent = w.sent ++ messages) :
    messagesTo fd w w' = (messages.filter fun message => message.1 = fd).map Prod.snd := by
  simp [messagesTo, sent]

theorem messagesTo_elsewhere (sent : w'.sent = w.sent ++ messages) (elsewhere : ∀ message ∈ messages, message.1 ≠ fd) :
    messagesTo fd w w' = [] := by
  have none : (messages.filter fun message => message.1 = fd) = [] := by
    apply List.filter_eq_nil_iff.mpr
    intro message member
    simpa using elsewhere message member
  rw [messagesTo_of_sent sent, none, List.map_nil]

theorem messagesTo_append {later : List (Int × Bytes)} (sent : w'.sent = w.sent ++ messages)
    (sentLater : w''.sent = w'.sent ++ later) : messagesTo fd w w'' = messagesTo fd w w' ++ messagesTo fd w' w'' := by
  have both : w''.sent = w.sent ++ (messages ++ later) := by rw [sentLater, sent, List.append_assoc]
  rw [messagesTo_of_sent both, messagesTo_of_sent sent, messagesTo_of_sent sentLater, List.filter_append, List.map_append]

end Messages

/-- One slot gives one message of those that are asked for. -/
theorem filter_once {α : Type} {slots : List ClientSlot} {slot : ClientSlot} {value : α} {f : ClientSlot → Option α}
    {p : α → Bool} (distinct : slots.Nodup) (member : slot ∈ slots) (here : f slot = some value) (wanted : p value = true)
    (others : ∀ other ∈ slots, other ≠ slot → ∀ found, f other = some found → p found = false) :
    (slots.filterMap f).filter p = [value] := by
  induction slots with
  | nil => cases member
  | cons first rest inductionHypothesis =>
    obtain ⟨fresh, distinct⟩ := List.nodup_cons.mp distinct
    by_cases isFirst : first = slot
    · subst isFirst
      have later : (rest.filterMap f).filter p = [] := by
        apply List.filter_eq_nil_iff.mpr
        intro found inRest
        obtain ⟨other, inSlots, isFound⟩ := List.mem_filterMap.mp inRest
        have otherSlot : other ≠ first := fun same => fresh (same ▸ inSlots)
        simp [others other (List.mem_cons_of_mem _ inSlots) otherSlot found isFound]
      rw [List.filterMap_cons_some here, List.filter_cons_of_pos wanted, later]
    · have inRest : slot ∈ rest := (List.mem_cons.mp member).resolve_left fun same => isFirst same.symm
      have later := inductionHypothesis distinct inRest fun other inSlots => others other (List.mem_cons_of_mem _ inSlots)
      cases isFound : f first with
      | none => rw [List.filterMap_cons_none isFound, later]
      | some found =>
        have unwanted := others first List.mem_cons_self isFirst found isFound
        rw [List.filterMap_cons_some isFound, List.filter_cons_of_neg (by simp [unwanted]), later]

/-! ## Attached replicas -/

/-- A replica whose requests are executed at once. -/
structure IsFollower (client : Client) (fd offset : Int) : Prop where
  isFd : client.fd = fd
  isOffset : client.replOffset = offset
  isReplica : client.isReplica = true
  outside : client.isQueued = false
  unsubscribed : client.isSubscribed = false
  unblocked : client.isBlocked = false
  notBlpop : client.isBlpop = false

/-- What the master knows of a replica. -/
structure Attached (w : World D) (slot : ClientSlot) (ptr : ClientPtr) (fd offset : Int) : Prop where
  inSlot : w.clients slot = some ptr
  client : ∃ client, w.heap ptr = some client ∧ IsFollower client fd offset
  notMaster : fd ≠ w.serverConfig.masterFd
  notWaiter : fd ≠ w.serverConfig.waitClientFd

section Attached

variable {w w' t : World D} {slot sender : ClientSlot} {ptr senderPtr : ClientPtr} {fd offset : Int} {client : Client}
  {req : RespRequest} {call : Call}

theorem IsFollower.of_standing {client' : Client} (follower : IsFollower client fd offset)
    (same : client'.standing = client.standing) : IsFollower client' fd offset where
  isFd := (congrArg Standing.fd same).trans follower.isFd
  isOffset := (congrArg Standing.replOffset same).trans follower.isOffset
  isReplica := (congrArg Standing.isReplica same).trans follower.isReplica
  outside := (congrArg Standing.isQueued same).trans follower.outside
  unsubscribed := (congrArg Standing.isSubscribed same).trans follower.unsubscribed
  unblocked := (congrArg Standing.isBlocked same).trans follower.unblocked
  notBlpop := (congrArg Standing.isBlpop same).trans follower.notBlpop

/-- A client in another slot has another descriptor. -/
theorem Attached.elsewhere (attached : Attached w slot ptr fd offset) (connected : Connected w)
    (inSlot : w.clients sender = some senderPtr) (found : w.heap senderPtr = some client) (other : sender ≠ slot) :
    client.fd ≠ fd := by
  intro same
  obtain ⟨replica, foundReplica, follower⟩ := attached.client
  obtain ⟨occupant, foundOccupant, isFd⟩ := connected.polled sender senderPtr inSlot
  obtain ⟨occupant', foundOccupant', isFd'⟩ := connected.polled slot ptr attached.inSlot
  obtain rfl : client = occupant := Option.some.inj (found.symm.trans foundOccupant)
  obtain rfl : replica = occupant' := Option.some.inj (foundReplica.symm.trans foundOccupant')
  apply other
  apply connected.apart sender slot
  · simp [inSlot]
  · simp [attached.inSlot]
  · rw [← isFd, ← isFd', same, follower.isFd]

theorem Attached.other_slot (attached : Attached w slot ptr fd offset) (inSlot : w.clients sender = some senderPtr)
    (found : w.heap senderPtr = some client) (notReplica : client.isReplica = false) : sender ≠ slot := by
  rintro rfl
  obtain ⟨replica, foundReplica, follower⟩ := attached.client
  obtain rfl : ptr = senderPtr := Option.some.inj (attached.inSlot.symm.trans inSlot)
  obtain rfl : replica = client := Option.some.inj (foundReplica.symm.trans found)
  simp [follower.isReplica] at notReplica

/-- The client with the descriptor of the replica is the replica. -/
theorem Attached.of_sameFd (attached : Attached w slot ptr fd offset) (connected : Connected w)
    (occupied : w.occupant sender = some client) (same : client.fd = fd) : sender = slot ∧ IsFollower client fd offset := by
  obtain ⟨other, inSlot, found⟩ := Option.bind_eq_some_iff.mp occupied
  by_cases here : sender = slot
  · subst here
    obtain ⟨replica, foundReplica, follower⟩ := attached.client
    obtain rfl : ptr = other := Option.some.inj (attached.inSlot.symm.trans inSlot)
    obtain rfl : replica = client := Option.some.inj (foundReplica.symm.trans found)
    exact ⟨rfl, follower⟩
  · exact absurd same (attached.elsewhere connected inSlot found here)

/-- No client that is blocked has the descriptor of the replica. -/
theorem Attached.not_blockedOn (attached : Attached w slot ptr fd offset) (connected : Connected w) : ¬ w.BlockedOn fd := by
  rintro ⟨other, client, occupied, isBlocked, isFd⟩
  have follower := (attached.of_sameFd connected occupied isFd).2
  simp [follower.unblocked] at isBlocked

/-- The replica is left alone by what another client does. -/
theorem Attached.of_attends {other : Int} (attached : Attached w slot ptr fd offset) (connected : Connected w)
    (elsewhere : other ≠ fd) (attends : Attends other w w') :
    Attached w' slot ptr fd offset ∧ messagesTo fd w w' = [] := by
  obtain ⟨replica, found, follower⟩ := attached.client
  constructor
  · constructor
    · exact attends.clients ▸ attached.inSlot
    · obtain ⟨replica', found', _, same | wasBlocked⟩ := attends.heap ptr replica found
      · exact ⟨replica', found', follower.of_standing same⟩
      · simp [follower.unblocked] at wasBlocked
    · rw [show w'.serverConfig.masterFd = w.serverConfig.masterFd from congrArg Counters.masterFd attends.counters]
      exact attached.notMaster
    · have same : w'.serverConfig.waitClientFd = w.serverConfig.waitClientFd :=
        congrArg (fun counters => counters.record.waitClientFd) attends.counters
      rw [same]
      exact attached.notWaiter
  · obtain ⟨messages, sent, receivers⟩ := attends.sent
    apply messagesTo_elsewhere sent
    intro message member toReplica
    cases receivers message member with
    | inl toSender => exact elsewhere (toSender.symm.trans toReplica)
    | inr toBlocked => exact attached.not_blockedOn connected (toReplica ▸ toBlocked)

/-- The occupants of the other slots have other descriptors. -/
theorem Attached.filter_slots {α : Type} {f : Client → Option (Int × α)} {value : α}
    (attached : Attached w slot ptr fd offset) (connected : Connected w)
    (forReplica : ∀ client, IsFollower client fd offset → f client = some (fd, value))
    (toClient : ∀ client message, f client = some message → message.1 = client.fd) :
    (clientSlots.filterMap fun slot => (w.occupant slot).bind f).filter (fun message => message.1 = fd) = [(fd, value)] := by
  obtain ⟨replica, found, follower⟩ := attached.client
  have occupied : w.occupant slot = some replica := by simp [World.occupant, attached.inSlot, found]
  apply filter_once (List.nodup_finRange _) (List.mem_finRange slot)
  · rw [occupied, Option.bind_some, forReplica replica follower]
  · simp
  · intro other _ isOther message isMessage
    obtain ⟨client, occupied', sends⟩ := Option.bind_eq_some_iff.mp isMessage
    have otherFd : message.1 ≠ fd := by
      intro same
      exact isOther (attached.of_sameFd connected occupied' ((toClient client message sends).symm.trans same)).1
    simp [otherFd]

/-- A change of the offsets, the messages and the logs leaves a replica attached. -/
theorem Attached.of_same (attached : Attached w slot ptr fd offset) (clients : w'.clients = w.clients)
    (heap : w'.heap ptr = w.heap ptr) (masterFd : w'.serverConfig.masterFd = w.serverConfig.masterFd)
    (notWaiter : fd ≠ w'.serverConfig.waitClientFd) : Attached w' slot ptr fd offset where
  inSlot := clients ▸ attached.inSlot
  client := heap ▸ attached.client
  notMaster := masterFd ▸ attached.notMaster
  notWaiter := notWaiter

end Attached

/-! ## The events of the master -/

section Events

variable [Externals D] {w w' handled : World D} {slot sender : ClientSlot} {ptr senderPtr : ClientPtr} {fd offset : Int}
  {client : Client} {req : RespRequest} {call : Call}

/-- A write command passes nothing itself. -/
theorem handle_passed (isWrite : isWriteCmd req.command = true) (found : w.heap ptr = some client)
    (run : handle req ptr w = .ok ((), handled)) : handled.passed = w.passed := by
  cases reaches : reachesArm client req with
  | true => exact (kept_dispatch (handle_reached reaches found run)).passed id
  | false =>
    have starts : startsTransaction client req = false := by
      revert isWrite
      cases command : req.command <;> simp [startsTransaction, command, isWriteCmd]
    exact ((handle_cases found starts run).sameData reaches).passed

omit [Externals D] in
/-- The replica is sent one copy of a write command that the master passes on. -/
theorem Attached.copies (attached : Attached w slot ptr fd offset) (connected : Connected w) (req : RespRequest) :
    (w.copies req).filter (fun message => message.1 = fd) = [(fd, copyText req)] := by
  apply attached.filter_slots connected (f := fun client => if client.isReplica then some (client.fd, copyText req) else none)
  · intro client follower
    rw [if_pos follower.isReplica, follower.isFd]
  · intro client message isMessage
    obtain ⟨_, isCopy⟩ := Option.ite_none_right_eq_some.mp isMessage
    exact (congrArg Prod.fst (Option.some.inj isCopy)).symm

omit [Externals D] in
/-- The replica is asked once by a WAIT. -/
theorem Attached.asks (attached : Attached w slot ptr fd offset) (connected : Connected w) :
    w.asks.filter (fun message => message.1 = fd) = [(fd, getackRequest)] := by
  apply attached.filter_slots connected (f := fun client => if client.isReplica then some (client.fd, getackRequest) else none)
  · intro client follower
    rw [if_pos follower.isReplica, follower.isFd]
  · intro client message isMessage
    obtain ⟨_, isQuestion⟩ := Option.ite_none_right_eq_some.mp isMessage
    exact (congrArg Prod.fst (Option.some.inj isQuestion)).symm

omit [Externals D] in
theorem Attached.mem_replicas (attached : Attached w slot ptr fd offset) : ptr ∈ w.replicas := by
  obtain ⟨replica, found, follower⟩ := attached.client
  apply List.mem_filterMap.mpr
  exact ⟨slot, List.mem_finRange slot, by simp [World.replicaAt, attached.inSlot, found, follower.isReplica]⟩

/-- A write command of another client. -/
theorem attached_write (attached : Attached w slot ptr fd offset) (connected : Connected w)
    (inSlot : w.clients sender = some senderPtr) (found : w.heap senderPtr = some client)
    (notReplica : client.isReplica = false) (notMaster : client.fd ≠ w.serverConfig.masterFd)
    (isWrite : isWriteCmd call.request.command = true) (run : serveRequest sender call w = .ok ((), w')) :
    Attached w' slot ptr fd offset ∧ messagesTo fd w w' = [copyText call.request] ∧
      passedTo ptr w' = passedTo ptr w ++ [call.request] ∧
      w'.serverConfig.masterReplOffset = w.serverConfig.masterReplOffset + call.length ∧
      w'.serverConfig.capturedMasterOffset = w.serverConfig.capturedMasterOffset := by
  have elsewhere := attached.elsewhere connected inSlot found (attached.other_slot inSlot found notReplica)
  obtain ⟨handled, handles, propagates⟩ := serveRequest_run inSlot run
  -- the command itself does not concern the replica
  have attends := handle_attends isWrite found handles
  have stillConnected := connected.of_undisturbed (handle_undisturbed (connected.onlyFd inSlot) handles)
  obtain ⟨stillAttached, silent⟩ := attached.of_attends connected elsewhere attends
  obtain ⟨client', found', sameFd, _⟩ := attends.heap senderPtr client found
  have counters := attends.counters
  have sameMaster : handled.serverConfig.masterFd = w.serverConfig.masterFd := congrArg Counters.masterFd counters
  have notMaster' : client'.fd ≠ handled.serverConfig.masterFd := by rwa [sameFd, sameMaster]
  -- what follows sends it the copy
  have passes := propagate_run found' notMaster' propagates
  obtain ⟨counted, passed⟩ := propagate_counts found' notMaster' isWrite propagates
  have after : Attached w' slot ptr fd offset := by
    apply stillAttached.of_same <;> rw [passes]
    exact stillAttached.notWaiter
  have connected' : Connected w' :=
    stillConnected.of_undisturbed (propagate_undisturbed propagates : Undisturbed senderPtr handled w')
  refine ⟨after, ?_, ?_, ?_, ?_⟩
  · obtain ⟨copies, sent, length, isEmpty | ⟨_, isCopies⟩⟩ := propagate_sent propagates
    · -- there is a replica, so that something was sent
      have present := List.length_pos_of_mem after.mem_replicas
      rw [passed, isEmpty, List.length_append, List.length_map, List.length_nil] at length
      omega
    · obtain ⟨messages, sentBefore, _⟩ := attends.sent
      rw [messagesTo_append sentBefore sent, silent, messagesTo_of_sent sent, isCopies,
        stillAttached.copies stillConnected]
      rfl
  · have once := filterMap_once call.request (nodup_replicas connected'.distinct) after.mem_replicas
    rw [passedTo, passed, List.filterMap_append, once, handle_passed isWrite found handles, passedTo]
  · rw [counted]
    exact congrArg (· + _) (congrArg Counters.masterReplOffset counters)
  · rw [passes]
    exact congrArg (fun counters => counters.record.capturedMasterOffset) counters

omit [Externals D] in
/-- A WAIT records the offset to reach, and asks the replica for its own or answers at once. -/
theorem Attached.of_waits {fd' : Int} (attached : Attached w slot ptr fd offset) (connected : Connected w)
    (elsewhere : fd' ≠ fd) (waits : Waits w req fd' w') :
    Attached w' slot ptr fd offset ∧ (messagesTo fd w w' = [] ∨ messagesTo fd w w' = [getackRequest]) ∧
      w'.passed = w.passed ∧ w'.serverConfig.masterFd = w.serverConfig.masterFd ∧
      w'.serverConfig.masterReplOffset = w.serverConfig.masterReplOffset ∧
      w'.serverConfig.capturedMasterOffset = w.serverConfig.masterReplOffset := by
  cases waits with
  | answered wanted isWanted enough keeps =>
    subst keeps
    refine ⟨attached.of_same rfl rfl rfl attached.notWaiter, .inl ?_, rfl, rfl, rfl, rfl⟩
    exact messagesTo_elsewhere (show _ = w.sent ++ [_] from rfl) (by simpa using elsewhere)
  | pending wanted asked isWanted few asks marks =>
    subst asks
    obtain ⟨rfl, _⟩ | ⟨sender, client, timeoutAt, isMarked⟩ := marks
    · refine ⟨attached.of_same rfl rfl rfl elsewhere.symm, .inr ?_, rfl, rfl, rfl, rfl⟩
      rw [messagesTo_of_sent (show _ = w.sent ++ w.asks from rfl), attached.asks connected]
      rfl
    · obtain ⟨⟨senderSlot, inSlot⟩, found, sameFd, keeps⟩ := isMarked
      -- the client that waits is not the replica
      have other : ptr ≠ sender := by
        rintro rfl
        obtain ⟨replica, foundReplica, follower⟩ := attached.client
        obtain rfl : client = replica := Option.some.inj (found.symm.trans foundReplica)
        exact elsewhere (sameFd.symm.trans follower.isFd)
      rw [keeps]
      refine ⟨attached.of_same rfl (Function.update_of_ne other _ _) rfl elsewhere.symm, .inr ?_, rfl, rfl, rfl, rfl⟩
      rw [messagesTo_of_sent (show _ = w.sent ++ w.asks from rfl), attached.asks connected]
      rfl

/-- A WAIT of another client. -/
theorem attached_wait (attached : Attached w slot ptr fd offset) (connected : Connected w)
    (inSlot : w.clients sender = some senderPtr) (found : w.heap senderPtr = some client)
    (notReplica : client.isReplica = false) (notMaster : client.fd ≠ w.serverConfig.masterFd)
    (isWait : call.request.command = .wait) (reaches : reachesArm client call.request = true)
    (run : serveRequest sender call w = .ok ((), w')) :
    Attached w' slot ptr fd offset ∧ (messagesTo fd w w' = [] ∨ messagesTo fd w w' = [getackRequest]) ∧
      w'.passed = w.passed ∧ w'.serverConfig.masterReplOffset = w.serverConfig.masterReplOffset ∧
      w'.serverConfig.capturedMasterOffset = w.serverConfig.masterReplOffset := by
  have elsewhere := attached.elsewhere connected inSlot found (attached.other_slot inSlot found notReplica)
  obtain ⟨handled, dispatches, propagates⟩ := serveRequest_parts inSlot found reaches run
  have arms := dispatch_arm (by rw [isWait]; rfl) (by rw [isWait]; rfl) found dispatches
  simp only [arm, isWait] at arms
  obtain ⟨stays, asked, passed, sameMaster, sameOffset, captured⟩ :=
    attached.of_waits connected elsewhere (handleWait_ok arms)
  obtain ⟨client', found', session⟩ := (kept_dispatch dispatches).heap senderPtr client found
  have notMaster' : client'.fd ≠ handled.serverConfig.masterFd := by rwa [session.fd, sameMaster]
  rw [propagate_nothing found' notMaster' (by rw [isWait]; rfl) propagates]
  exact ⟨stays, asked, passed, sameOffset, captured⟩

/-- A WAIT that is queued or refused. -/
theorem attached_unreached (attached : Attached w slot ptr fd offset) (connected : Connected w)
    (inSlot : w.clients sender = some senderPtr) (found : w.heap senderPtr = some client)
    (notReplica : client.isReplica = false) (notMaster : client.fd ≠ w.serverConfig.masterFd)
    (isWait : call.request.command = .wait) (unreached : reachesArm client call.request = false)
    (run : serveRequest sender call w = .ok ((), w')) :
    Attached w' slot ptr fd offset ∧ messagesTo fd w w' = [] ∧ w'.passed = w.passed ∧
      w'.serverConfig.masterReplOffset = w.serverConfig.masterReplOffset ∧
      w'.serverConfig.capturedMasterOffset = w.serverConfig.capturedMasterOffset := by
  have elsewhere := attached.elsewhere connected inSlot found (attached.other_slot inSlot found notReplica)
  obtain ⟨handled, handles, propagates⟩ := serveRequest_run inSlot run
  have ordinary : isTransactionCmd call.request.command = false := by rw [isWait]; rfl
  have attends := handle_attends_unreached ordinary unreached found handles
  have starts : startsTransaction client call.request = false := by simp [startsTransaction, isWait]
  have sameData := (handle_cases found starts handles).sameData unreached
  obtain ⟨client', found', sameFd, _⟩ := attends.heap senderPtr client found
  have counters := attends.counters
  have notMaster' : client'.fd ≠ handled.serverConfig.masterFd := by
    rwa [sameFd, show handled.serverConfig.masterFd = w.serverConfig.masterFd from congrArg Counters.masterFd counters]
  rw [propagate_nothing found' notMaster' (by rw [isWait]; rfl) propagates]
  obtain ⟨stays, silent⟩ := attached.of_attends connected elsewhere attends
  exact ⟨stays, silent, sameData.passed, congrArg Counters.masterReplOffset counters,
    congrArg (fun counters => counters.record.capturedMasterOffset) counters⟩

omit [Externals D] in
/-- Nothing is sent to the replica when the time of a client is over. -/
theorem Attached.expiries_elsewhere (attached : Attached w slot ptr fd offset) (connected : Connected w) {now : Int}
    {clock : Nat → Int} {slots : List ClientSlot} {message : Int × Bytes} (member : message ∈ w.expiries now clock slots) :
    message.1 ≠ fd := by
  induction slots generalizing clock with
  | nil => cases member
  | cons first rest inductionHypothesis =>
    cases List.mem_append.mp member with
    | inr later => exact inductionHypothesis later
    | inl here =>
      intro toReplica
      unfold World.expiryAt at here
      cases occupied : w.occupant first with
      | none => simp [occupied] at here
      | some client =>
        simp only [occupied] at here
        have follows (same : client.fd = fd) := (attached.of_sameFd connected occupied same).2
        split at here
        · rename_i due
          obtain rfl := List.mem_singleton.mp here
          obtain ⟨ptr', inSlot, found⟩ := Option.bind_eq_some_iff.mp occupied
          obtain ⟨polled, foundPolled, isFd⟩ := connected.polled first ptr' inSlot
          obtain rfl : client = polled := Option.some.inj (found.symm.trans foundPolled)
          simpa [(follows (isFd.trans toReplica)).unblocked] using due.1
        · split at here
          · rename_i due
            obtain ⟨key, _, rfl⟩ := List.mem_map.mp here
            simpa [(follows toReplica).notBlpop] using due.1
          · cases here

omit [Externals D] in
/-- The time of the replica itself is never over. -/
theorem Attached.of_expires {now : Int} {slots : List ClientSlot} (attached : Attached w slot ptr fd offset)
    (connected : Connected w) (expires : Expires w now slots w') :
    Attached w' slot ptr fd offset ∧ messagesTo fd w w' = [] := by
  obtain ⟨replica, found, follower⟩ := attached.client
  have stays : w'.heap ptr = w.heap ptr := by
    obtain ⟨_, kept⟩ | ⟨i, _, _, _, changed⟩ := expires.heap ptr replica found
    · rw [kept, found]
    · have notXread : ¬ replica.dueXread now := fun due => by simpa [follower.unblocked] using due.1
      have notBlpop : ¬ replica.dueBlpop (w.clock i) := fun due => by simpa [follower.notBlpop] using due.1
      rw [changed, Client.expired, if_neg notXread, if_neg notBlpop, found]
  have sameServer : w'.serverConfig = w.serverConfig := by rw [expires.keeps]
  have sent : w'.sent = w.sent ++ w.expiries now w.clock slots := by rw [expires.keeps]
  constructor
  · exact attached.of_same (by rw [expires.keeps]) stays (by rw [sameServer]) (sameServer ▸ attached.notWaiter)
  · exact messagesTo_elsewhere sent fun message member => attached.expiries_elsewhere connected member

omit [Externals D] in
/-- The end of a WAIT is sent to the client that waits. -/
theorem Attached.of_completes {now : Int} (attached : Attached w slot ptr fd offset) (accepted : 0 ≤ fd)
    (completes : CompletesWait w now w') :
    Attached w' slot ptr fd offset ∧ (∃ messages, w'.sent = w.sent ++ messages) ∧ messagesTo fd w w' = [] ∧
      w'.passed = w.passed ∧ w'.serverConfig.capturedMasterOffset = w.serverConfig.capturedMasterOffset := by
  have nothing : w.sent = w.sent ++ [] := (List.append_nil _).symm
  cases completes with
  | idle nobody same =>
    rw [same]
    exact ⟨attached, ⟨[], nothing⟩, messagesTo_elsewhere nothing (by simp), rfl, rfl⟩
  | waits few notDue same =>
    rw [same]
    exact ⟨attached, ⟨[], nothing⟩, messagesTo_elsewhere nothing (by simp), rfl, rfl⟩
  | completes somebody enough keeps free heap =>
    obtain ⟨replica, found, follower⟩ := attached.client
    have stays : ∃ client, w'.heap ptr = some client ∧ IsFollower client fd offset := by
      obtain ⟨_, kept⟩ | ⟨_, ended⟩ := heap ptr replica found
      · exact ⟨replica, kept, follower⟩
      · refine ⟨_, ended, { follower with unblocked := ?_ }⟩
        simp [Client.waitEnded, follower.unblocked]
    have sent : w'.sent = w.sent ++ [(w.serverConfig.waitClientFd,
        integerReply (w.acknowledged w.serverConfig.capturedMasterOffset))] := by rw [keeps]
    have notEnded : fd ≠ -1 := by omega
    refine ⟨?_, ⟨_, sent⟩, messagesTo_elsewhere sent (by simpa using attached.notWaiter.symm), ?_, ?_⟩
    · exact ⟨keeps ▸ attached.inSlot, stays, keeps ▸ attached.notMaster, keeps ▸ notEnded⟩
    · rw [keeps]
    · rw [keeps]

omit [Externals D] in
/-- The timers of a pass do not concern the replica. -/
theorem attached_timers (attached : Attached w slot ptr fd offset) (connected : Connected w) (accepted : 0 ≤ fd)
    (run : runTimers w = .ok ((), w')) :
    Attached w' slot ptr fd offset ∧ messagesTo fd w w' = [] ∧ w'.passed = w.passed ∧
      w'.serverConfig.capturedMasterOffset = w.serverConfig.capturedMasterOffset := by
  obtain ⟨expired, expires, completes⟩ := runTimers_ok connected.distinct run
  have ticked : Attached w.tick slot ptr fd offset := attached.of_same rfl rfl rfl attached.notWaiter
  have stillConnected : Connected w.tick := connected.of_clientwise (.of_same (fun _ _ => trivial) rfl rfl rfl) rfl
  obtain ⟨stays, silent⟩ := ticked.of_expires stillConnected expires
  obtain ⟨attached', ⟨_, sentLater⟩, silentLater, passed, captured⟩ := stays.of_completes accepted completes
  have sent : expired.sent = w.tick.sent ++ _ := congrArg World.sent expires.keeps
  refine ⟨attached', ?_, ?_, ?_⟩
  · change messagesTo fd w.tick w' = []
    rw [messagesTo_append sent sentLater, silent, silentLater, List.append_nil]
  · rw [passed, expires.keeps]
    rfl
  · rw [captured, expires.keeps]
    rfl

end Events

end RedisClone
