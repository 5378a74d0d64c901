import RedisClone.Verified.Attended
import RedisClone.Verified.Records

/-! # The messages between a master and its replicas

A master sends its replicas copies of the write commands, and requests for their offset; a replica answers a request
for its offset with an acknowledgement.  Each of these texts is one message that the other side reads back as one
call of `handle`, and here is what this call does.
-/

namespace RedisClone

open Exec CString

variable {D : Type}

/-! ## A buffer with one message -/

/-- A string that is too long for a line. -/
theorem parseElements_long {memory element rest : Bytes} {ptr : Nat} (plain : Plain element)
    (long : ¬ element.length < 256) (here : memory.drop ptr = bulk element ++ rest) (remaining i : Nat)
    (partialReq : PartialRequest) : ∃ f, parseElements memory (remaining + 1) i partialReq ptr = .error f := by
  rw [bulk_eq, List.append_assoc, List.append_assoc] at here
  have value := drop_add_of_drop (drop_add_of_drop here)
  rw [List.append_assoc] at value
  have announced : getLine memory ptr =
      if (lenLine element.length).length < 256 then .ok (lenLine element.length) else .error .outOfBounds := by
    rw [getLine, here]
    exact getLineFrom_line (plain_lenLine _) rfl _ 256
  have read : getLine memory (ptr + (lenLine element.length).length + 2) = .error .outOfBounds := by
    have whole := getLineFrom_line plain (show isText 13 = false from rfl) ([10] ++ rest) 256
    rw [if_neg long] at whole
    rw [getLine]
    exact (congrArg (getLineFrom 256) value).trans whole
  refine ⟨.outOfBounds, ?_⟩
  rw [parseElements, announced]
  by_cases fits : (lenLine element.length).length < 256
  · simp only [fits, if_true, getPrefix_lenLine, reduceCtorEq, if_false, read]
  · simp only [fits, if_false]

section Buffers

variable [Externals D] {slot : ClientSlot}

/-- A buffer with one message. -/
theorem serveBuffer_encode (message : Message) (plain : ∀ element ∈ message.elements, Plain element) (stale : Bytes) :
    (serveBuffer slot (encode message.elements) stale : M D Unit) =
      serveRequest slot ⟨0, requestOf message.elements, (encode message.elements).length⟩ := by
  have all : encodeAll [message] = encode message.elements := by simp [encodeAll]
  have calls : handleCallsFrom (encode message.elements ++ 0 :: stale) (encode message.elements).length
      (encode message.elements).length 0 = (callsOf 0 [message], none) := by
    apply handleCallsFrom_encodeAll [message]
    · simpa using plain
    · rw [all, List.drop_zero]
    · simp [all]
    · simp
  unfold serveBuffer
  rw [parseLoop_eq_calls, calls]
  simp [callsOf]

/-- A buffer without a `*`. -/
theorem serveBuffer_starless {bytes : Bytes} (starless : 42 ∉ bytes) (stale : Bytes) :
    (serveBuffer slot bytes stale : M D Unit) = pure () := by
  have calls : handleCallsFrom (bytes ++ 0 :: stale) bytes.length bytes.length 0 = ([], none) := by
    have skipped : skipToStar (bytes ++ 0 :: stale) bytes.length 0 = bytes.length := by
      have all : bytes.takeWhile (· ≠ 42) = bytes := by
        apply List.takeWhile_eq_self_iff.mpr
        intro c member
        exact decide_eq_true fun isStar => starless (isStar ▸ member)
      rw [skipToStar, List.take_left, List.drop_zero, all, Nat.zero_add]
    cases bytes with
    | nil => rfl
    | cons c rest =>
      rw [List.length_cons] at skipped ⊢
      rw [handleCallsFrom]
      simp only [skipped, le_refl, if_true]
  unfold serveBuffer
  rw [parseLoop_eq_calls, calls]
  rfl

end Buffers

theorem plain_decimalInt (n : Int) : Plain (decimalInt n) := by
  cases n with
  | ofNat n => exact plain_decimal n
  | negSucc n =>
    intro c member
    cases List.mem_cons.mp member with
    | inl isMinus => exact isMinus ▸ rfl
    | inr inDigits => exact plain_decimal (n + 1) c inDigits

/-! ## The three messages -/

/-- The strings of a request for an acknowledgement. -/
def getackElements : List Bytes := [lit "REPLCONF", lit "GETACK", lit "*"]

/-- The strings of an acknowledgement. -/
def ackElements (offset : Int) : List Bytes := [lit "REPLCONF", lit "ACK", decimalInt offset]

/-- What `replconf_handle_getack` sends. -/
def ackText (offset : Int) : Bytes := lit "*3\r\n$8\r\nREPLCONF\r\n$3\r\nACK\r\n" ++ bulk (decimalInt offset)

theorem encode_getackElements : encode getackElements = getackRequest := by decide +kernel

theorem length_getackRequest : getackRequest.length = 37 := by decide +kernel

theorem encode_ackElements (offset : Int) : encode (ackElements offset) = ackText offset := by
  have header : arrayHeader 3 ++ (bulk (lit "REPLCONF") ++ bulk (lit "ACK")) =
      lit "*3\r\n$8\r\nREPLCONF\r\n$3\r\nACK\r\n" := by decide +kernel
  simp [encode, ackElements, ackText, ← header]

def getackMessage : Message := ⟨getackElements, by decide, by decide, by decide +kernel⟩

/-- A write command as `parse` reads it, that `pass_data_toReplica` can send whole. -/
structure Sendable (req : RespRequest) : Prop where
  isWrite : isWriteCmd req.command = true
  storable : Storable req.args
  counted : req.argc = req.args.length
  null : req.unused = .null
  fits : (requestText req).length < 1024

instance (req : RespRequest) : Decidable (Sendable req) :=
  decidable_of_iff (isWriteCmd req.command = true ∧
      ((∀ s ∈ req.args, Plain s) ∧ (∀ s ∈ req.args, s.length < 256) ∧ req.args.length ≤ maxArgs) ∧
      req.argc = req.args.length ∧ req.unused = .null ∧ (requestText req).length < 1024)
    ⟨fun ⟨isWrite, ⟨plain, short, few⟩, counted, null, fits⟩ => ⟨isWrite, ⟨plain, short, few⟩, counted, null, fits⟩,
      fun sendable => ⟨sendable.isWrite, ⟨sendable.storable.plain, sendable.storable.short, sendable.storable.few⟩,
        sendable.counted, sendable.null, sendable.fits⟩⟩

theorem Sendable.text {req : RespRequest} (sendable : Sendable req) :
    requestText req = encode (recordOf req sendable.storable).elements := by
  simp [requestText, encode, recordOf, sendable.counted]

theorem Sendable.readsBack {req : RespRequest} (sendable : Sendable req) :
    requestOf (recordOf req sendable.storable).elements = req :=
  requestOf_record_eq sendable.counted sendable.null (readsBack_of_isWriteCmd sendable.isWrite)

theorem Sendable.copyText {req : RespRequest} (sendable : Sendable req) : copyText req = requestText req := by
  have short := sendable.fits
  rw [RedisClone.copyText, List.take_of_length_le (by omega), show (requestText req).length - 1023 = 0 by omega]
  exact List.append_nil _

theorem requestText_pos (req : RespRequest) : 0 < (requestText req).length := by
  simp [requestText, arrayHeader, show lit "*" = [42] from rfl]

/-! ## What the two sides do -/

section Sides

variable [Externals D] {w t : World D} {slot : ClientSlot} {ptr : ClientPtr} {client : Client}

/-- The parts of a request. -/
theorem serveRequest_run {call : Call} (inSlot : w.clients slot = some ptr) (run : serveRequest slot call w = .ok ((), t)) :
    ∃ handled, handle call.request ptr w = .ok ((), handled) ∧ propagate ptr call handled = .ok ((), t) := by
  unfold serveRequest at run
  rw [bind_of_ok (observe_run _ w), inSlot] at run
  obtain ⟨_, handled, handles, propagates⟩ := bind_eq_ok.mp run
  exact ⟨handled, handles, propagates⟩

/-- A request that is executed at once. -/
theorem serveRequest_parts {call : Call} (inSlot : w.clients slot = some ptr) (found : w.heap ptr = some client)
    (reaches : reachesArm client call.request = true) (run : serveRequest slot call w = .ok ((), t)) :
    ∃ handled, dispatch call.request ptr w = .ok ((), handled) ∧ propagate ptr call handled = .ok ((), t) := by
  obtain ⟨handled, handles, propagates⟩ := serveRequest_run inSlot run
  exact ⟨handled, handle_reached reaches found handles, propagates⟩

omit [Externals D] in
/-- What is not a write command is counted nowhere and passed to nobody. -/
theorem propagate_nothing {call : Call} (found : w.heap ptr = some client) (notMaster : client.fd ≠ w.serverConfig.masterFd)
    (readOnly : isWriteCmd call.request.command = false) (run : propagate ptr call w = .ok ((), t)) : t = w := by
  unfold propagate at run
  rw [bind_of_ok (loadClient_found found), bind_of_ok (show config w = .ok (w.serverConfig, w) from rfl),
    if_neg notMaster] at run
  simpa [onlyIf, passDataToReplica, readOnly, eq_comm] using run

/-- The connection of a replica to its master, on which requests are executed at once. -/
structure Following (w : World D) (slot : ClientSlot) (ptr : ClientPtr) (client : Client) : Prop
    extends MasterConnection w slot ptr client where
  outside : client.isQueued = false
  unsubscribed : client.isSubscribed = false
  unblocked : client.isBlocked = false

omit [Externals D] in
/-- A command on that connection is counted, and passed to nobody. -/
theorem propagate_following {call : Call} (following : Following w slot ptr client)
    (run : propagate ptr call w = .ok ((), t)) :
    t = w.configure fun server => { server with slaveReplOffset := server.slaveReplOffset + call.length } := by
  unfold propagate at run
  rw [bind_of_ok (loadClient_found following.found),
    bind_of_ok (show config w = .ok (w.serverConfig, w) from rfl), if_pos following.isFd] at run
  simpa [setConfig_run, eq_comm] using run

omit [Externals D] in
theorem Following.reaches (following : Following w slot ptr client) {req : RespRequest}
    (ordinary : isTransactionCmd req.command = false) : reachesArm client req = true :=
  reachesArm_eq_true.mpr ⟨ordinary, following.outside, fun subscribed => by simp [following.unsubscribed] at subscribed⟩

/-- Nothing follows the arm of a command that changes no key. -/
theorem dispatch_arm {req : RespRequest} (readOnly : isWriteCmd req.command = false) (unnotified : notifies req.command = false)
    (found : w.heap ptr = some client) (run : dispatch req ptr w = .ok ((), t)) : arm req ptr client w = .ok ((), t) := by
  obtain ⟨client', armed, notified, found', arms, notify, write⟩ := dispatch_parts run
  obtain rfl : client = client' := Option.some.inj (found.symm.trans found')
  obtain rfl : armed = notified := by simpa [onlyIf, unnotified] using notify
  obtain rfl : armed = t := by simpa [onlyIf, logs, unnotified] using write
  have unnoted : w.noted req = w := by simp [World.noted, readOnly]
  rwa [unnoted] at arms

theorem dispatch_replconf {req : RespRequest} (isReplconf : req.command = .replconf) (found : w.heap ptr = some client)
    (run : dispatch req ptr w = .ok ((), t)) : handleReplconfRequest req ptr client w = .ok ((), t) := by
  have arms := dispatch_arm (by simp [isReplconf, isWriteCmd]) (by simp [isReplconf, notifies]) found run
  simpa only [arm, isReplconf] using arms

omit [Externals D] in
/-- A change of the messages and of the offset alone. -/
theorem Following.of_same (following : Following w slot ptr client) (clients : t.clients = w.clients)
    (heap : t.heap = w.heap) (masterFd : t.serverConfig.masterFd = w.serverConfig.masterFd) :
    Following t slot ptr client where
  inSlot := clients ▸ following.inSlot
  found := heap ▸ following.found
  isMaster := following.isMaster
  isFd := masterFd ▸ following.isFd
  outside := following.outside
  unsubscribed := following.unsubscribed
  unblocked := following.unblocked

/-- A write command on that connection is executed. -/
theorem Following.takes {req : RespRequest} (following : Following w slot ptr client)
    (isWrite : isWriteCmd req.command = true) (run : handle req ptr w = .ok ((), t)) :
    (∃ client', Following t slot ptr client') ∧ t.executed = w.executed ++ [req] ∧ t.activeFds = w.activeFds ∧
      t.serverConfig.counters = w.serverConfig.counters := by
  have ordinary : isTransactionCmd req.command = false := by
    revert isWrite
    cases req.command <;> simp [isWriteCmd, isTransactionCmd]
  have dispatches := handle_reached (following.reaches ordinary) following.found run
  have attends := dispatch_attends isWrite following.found dispatches
  obtain ⟨client', found', _, same⟩ := attends.heap ptr client following.found
  replace same := same.resolve_right (by simp [following.unblocked])
  have counters := attends.counters
  refine ⟨⟨client', ?_⟩, ?_, attends.activeFds, counters⟩
  · constructor
    · constructor
      · exact attends.clients ▸ following.inSlot
      · exact found'
      · exact (congrArg Standing.isMaster same).trans following.isMaster
      · exact ((congrArg Standing.fd same).trans following.isFd).trans (congrArg Counters.masterFd counters).symm
    · exact (congrArg Standing.isQueued same).trans following.outside
    · exact (congrArg Standing.isSubscribed same).trans following.unsubscribed
    · exact (congrArg Standing.isBlocked same).trans following.unblocked
  · rw [dispatch_executed dispatches, World.noted, if_pos isWrite]

/-- A request for the offset is answered with the bytes that were counted before it. -/
theorem Following.answers (following : Following w slot ptr client)
    (run : handle (requestOf getackElements) ptr w = .ok ((), t)) :
    t = w.emit client.fd (ackText w.serverConfig.slaveReplOffset) := by
  have dispatches := handle_reached (following.reaches (by decide +kernel)) following.found run
  have answers := dispatch_replconf (by decide +kernel) following.found dispatches
  have isGetack : (requestOf getackElements).args = [lit "GETACK", lit "*"] := by decide +kernel
  have counted : (requestOf getackElements).argc = 2 := by decide +kernel
  have isSubCmd : (requestOf getackElements).args[0]? = some (lit "GETACK") := by rw [isGetack]; rfl
  unfold handleReplconfRequest at answers
  obtain ⟨_, printed, prints, afterPrint⟩ := bind_eq_ok.mp answers
  obtain rfl := printArg_same prints
  rw [if_neg (by rw [counted]; decide), bind_of_ok (arg_ok.mpr ⟨isSubCmd, rfl⟩),
    if_pos ⟨by decide +kernel, following.isMaster⟩] at afterPrint
  unfold replconfHandleGetack at afterPrint
  rw [bind_of_ok (show config _ = .ok (_, _) from rfl)] at afterPrint
  exact send_run afterPrint

/-- A replica takes a write command. -/
theorem replica_takes {req : RespRequest} (sendable : Sendable req) (following : Following w slot ptr client)
    {stale : Bytes} (run : serveBuffer slot (requestText req) stale w = .ok ((), t)) :
    (∃ client', Following t slot ptr client') ∧ t.executed = w.executed ++ [req] ∧
      t.serverConfig.slaveReplOffset = w.serverConfig.slaveReplOffset + (requestText req).length := by
  rw [sendable.text, serveBuffer_encode _ (plain_recordOf sendable.storable), sendable.readsBack] at run
  obtain ⟨handled, handles, propagates⟩ := serveRequest_run following.inSlot run
  obtain ⟨⟨client', stays⟩, executed, _, counters⟩ := following.takes sendable.isWrite handles
  rw [propagate_following stays propagates]
  refine ⟨⟨client', stays.of_same rfl rfl rfl⟩, executed, ?_⟩
  change handled.serverConfig.slaveReplOffset + _ = _
  rw [show handled.serverConfig.slaveReplOffset = w.serverConfig.slaveReplOffset from
    congrArg Counters.slaveReplOffset counters, sendable.text]

/-- A replica answers a request for its offset, which it counts afterwards. -/
theorem replica_answers (following : Following w slot ptr client) {stale : Bytes}
    (run : serveBuffer slot getackRequest stale w = .ok ((), t)) :
    t = (w.emit client.fd (ackText w.serverConfig.slaveReplOffset)).configure fun server =>
      { server with slaveReplOffset := server.slaveReplOffset + 37 } := by
  have isMessage : getackRequest = encode getackMessage.elements := encode_getackElements.symm
  rw [isMessage, serveBuffer_encode _ (by decide +kernel), ← isMessage, length_getackRequest] at run
  obtain ⟨handled, handles, propagates⟩ := serveRequest_run following.inSlot run
  obtain rfl := following.answers handles
  have stays : Following (w.emit client.fd (ackText w.serverConfig.slaveReplOffset)) slot ptr client :=
    following.of_same rfl rfl rfl
  exact propagate_following stays propagates

/-- An acknowledgement with more digits than a line holds is not read. -/
theorem serveBuffer_ackLong {offset : Int}
    (long : ¬ ∀ element ∈ ackElements offset, element.length < 256) {stale : Bytes} :
    serveBuffer slot (ackText offset) stale w ≠ .ok ((), t) := by
  have isLong : ¬ (decimalInt offset).length < 256 := by
    intro short
    apply long
    simp only [ackElements, List.mem_cons, List.not_mem_nil, or_false]
    rintro element (rfl | rfl | rfl)
    · decide
    · decide
    · exact short
  have here : (ackText offset ++ 0 :: stale).drop 0 = encode (ackElements offset) ++ 0 :: stale := by
    rw [List.drop_zero, encode_ackElements]
  obtain ⟨f, faults⟩ : ∃ f, parse (ackText offset ++ 0 :: stale) 0 = .error f := by
    have elements := drop_elements here
    rw [show (ackElements offset).length = 2 + 1 from rfl, ackElements, List.map_cons, List.flatten_cons,
      List.append_assoc] at elements
    have second := drop_add_of_drop elements
    rw [List.map_cons, List.flatten_cons, List.append_assoc] at second
    have third := drop_add_of_drop second
    rw [List.map_cons, List.flatten_cons, List.append_assoc] at third
    -- REPLCONF and ACK are read, and the offset overruns its line
    have name : PartialRequest.store {} 0 (lit "REPLCONF") = .ok ⟨.replconf, false, []⟩ := rfl
    have subCmd : PartialRequest.store ⟨.replconf, false, []⟩ 1 (lit "ACK") = .ok ⟨.replconf, false, [lit "ACK"]⟩ := rfl
    obtain ⟨f, broken⟩ := parseElements_long (plain_decimalInt offset) isLong third 0 2 ⟨.replconf, false, [lit "ACK"]⟩
    refine ⟨f, ?_⟩
    rw [parse_of_elements (by simp [ackElements]) (by simp [ackElements, maxArgs]) (drop_header here),
      show (ackElements offset).length = 2 + 1 from rfl, parseElements_plain (by decide +kernel) (by decide +kernel) elements, name]
    simp only
    rw [parseElements_plain (by decide +kernel) (by decide +kernel) second, subCmd]
    simp only
    rw [broken]
  intro run
  unfold serveBuffer at run
  obtain ⟨tail, head⟩ := encode_head (ackElements offset)
  rw [encode_ackElements] at head
  have positive : 0 < (ackText offset).length := by rw [head]; simp
  have atStar : skipToStar (ackText offset ++ 0 :: stale) (ackText offset).length 0 = 0 :=
    skipToStar_at positive (show _ = 42 :: (tail ++ 0 :: stale) by rw [List.drop_zero, head]; rfl)
  obtain ⟨fuel, isFuel⟩ := Nat.exists_eq_succ_of_ne_zero positive.ne'
  rw [isFuel] at run atStar
  rw [parseLoop] at run
  simp only [atStar, faults] at run
  simp at run

/-- A master reads an acknowledgement. -/
theorem master_reads {offset : Int} (inSlot : w.clients slot = some ptr) (found : w.heap ptr = some client)
    (notMaster : client.fd ≠ w.serverConfig.masterFd) (outside : client.isQueued = false)
    (unsubscribed : client.isSubscribed = false) {stale : Bytes}
    (run : serveBuffer slot (ackText offset) stale w = .ok ((), t)) :
    t = w.setClient ptr { client with replOffset := atoll (decimalInt offset) } := by
  have plain : ∀ element ∈ ackElements offset, Plain element := by
    simp only [ackElements, List.mem_cons, List.not_mem_nil, or_false]
    rintro element (rfl | rfl | rfl)
    · decide +kernel
    · decide +kernel
    · exact plain_decimalInt offset
  -- an offset with more digits than a line holds is never read
  by_cases short : ∀ element ∈ ackElements offset, element.length < 256
  · let message : Message := ⟨ackElements offset, by simp [ackElements], by simp [ackElements, maxArgs], short⟩
    have isAck : (requestOf message.elements).args = [lit "ACK", decimalInt offset] := rfl
    have isReplconf : (requestOf message.elements).command = .replconf := rfl
    have counted : (requestOf message.elements).argc = 2 := rfl
    have isOther : upper (lit "ACK") ≠ lit "GETACK" := by decide
    rw [← encode_ackElements, serveBuffer_encode message plain] at run
    have reaches : reachesArm client (requestOf message.elements) = true :=
      reachesArm_eq_true.mpr ⟨by rw [isReplconf]; rfl, outside, fun subscribed => by simp [unsubscribed] at subscribed⟩
    obtain ⟨handled, dispatches, propagates⟩ := serveRequest_parts inSlot found reaches run
    have reads := dispatch_replconf isReplconf found dispatches
    unfold handleReplconfRequest at reads
    obtain ⟨_, printed, prints, afterPrint⟩ := bind_eq_ok.mp reads
    obtain rfl := printArg_same prints
    rw [if_neg (by rw [counted]; decide), bind_of_ok (arg_ok.mpr ⟨by rw [isAck]; rfl, rfl⟩),
      if_neg fun isGetack => isOther isGetack.1, if_pos (by decide)] at afterPrint
    unfold replconfHandleAck at afterPrint
    rw [if_neg (by rw [counted]; decide), bind_of_ok (arg_ok.mpr ⟨by rw [isAck]; rfl, rfl⟩)] at afterPrint
    obtain ⟨client', found', rfl⟩ := updateClient_eq_ok.mp afterPrint
    obtain rfl : client = client' := Option.some.inj (found.symm.trans found')
    exact propagate_nothing (show (printed.setClient ptr _).heap ptr = some _ from Function.update_self _ _ _) notMaster
      (by rw [isReplconf]; rfl) propagates
  · exact absurd run (serveBuffer_ackLong short)

end Sides

end RedisClone
