import RedisClone.Verified.Timers
import RedisClone.Verified.Wire

/-! # What a client reads in a reply

`replyElements` and `poppedElement` are how a client reads the elements of a list in the reply to LPOP, and in
the one to BLPOP.  `answers` is what the handler of a step sent, without the copies for the replicas.
-/

namespace RedisClone

open Exec CString

variable {D : Type}

/-! ## Bulk strings -/

/-- The bulk string at the front of a reply, and what is behind it. -/
def takeBulk (text : Bytes) : Option (Bytes × Bytes) :=
  if text.head? = some 36 then
    let digits := text.tail.takeWhile isdigit
    let behind := text.tail.drop (digits.length + 2)
    if digits ≠ [] ∧ digitsValue digits ≤ behind.length then
      some (behind.take (digitsValue digits), behind.drop (digitsValue digits + 2))
    else none
  else none

/-- A number of bulk strings at the front of a reply. -/
def takeBulks : Nat → Bytes → Option (List Bytes)
  | 0, _ => some []
  | n + 1, text => (takeBulk text).bind fun bulk => (takeBulks n bulk.2).map (bulk.1 :: ·)

/-- The strings of a reply that is a bulk string or an array of them. -/
def replyElements (text : Bytes) : List Bytes :=
  if text.head? = some 42 then
    let digits := text.tail.takeWhile isdigit
    (takeBulks (digitsValue digits) (text.tail.drop (digits.length + 2))).getD []
  else ((takeBulk text).map Prod.fst).toList

/-- The element in a reply to BLPOP that names the key. -/
def poppedElement (key text : Bytes) : Option Bytes :=
  let front := lit "*2\r\n" ++ bulk key
  if front <+: text then (takeBulk (text.drop front.length)).map Prod.fst else none

/-- The last two bytes, CR and LF, need not have arrived. -/
theorem takeBulk_of_bytes (s rest : Bytes) :
    takeBulk (lit "$" ++ decimal s.length ++ crlf ++ s ++ rest) = some (s, rest.drop 2) := by
  have front : lit "$" ++ decimal s.length ++ crlf ++ s ++ rest =
      36 :: (decimal s.length ++ (crlf ++ (s ++ rest))) := by
    simp only [List.append_assoc]
    rfl
  have stop : ∀ c ∈ (crlf ++ (s ++ rest)).head?, isdigit c = false := by
    intro c isHead
    obtain rfl : 13 = c := by simpa [crlf, lit] using isHead
    decide
  obtain ⟨digits, _⟩ := takeWhile_isdigit_decimal s.length stop
  have behind : (decimal s.length ++ (crlf ++ (s ++ rest))).drop ((decimal s.length).length + 2) =
      s ++ rest := by
    rw [← List.append_assoc, List.drop_left' (by simp [crlf])]
  unfold takeBulk
  rw [front]
  simp only [List.head?_cons, if_true, List.tail_cons, digits, behind, digitsValue_decimal,
    List.take_left, List.length_append, Nat.le_add_right, decimal_ne_nil, ne_eq, not_false_eq_true,
    and_self]
  rw [List.drop_append, List.drop_eq_nil_of_le (by omega)]
  simp

theorem takeBulk_bulk (s rest : Bytes) : takeBulk (bulk s ++ rest) = some (s, rest) := by
  have := takeBulk_of_bytes s (crlf ++ rest)
  simpa [bulk, List.append_assoc, crlf, lit] using this

theorem takeBulks_append (values : List Bytes) (count : Nat) (rest : Bytes) :
    takeBulks (values.length + count) ((values.map bulk).flatten ++ rest) =
      (takeBulks count rest).map (values ++ ·) := by
  induction values with
  | nil => cases found : takeBulks count rest <;> simp [found]
  | cons value values inductionHypothesis =>
    rw [List.length_cons, Nat.add_right_comm, takeBulks, List.map_cons, List.flatten_cons,
      List.append_assoc, takeBulk_bulk, Option.bind_some, inductionHypothesis, Option.map_map]
    rfl

/-- The text of an array up to the CR and LF of its last string. -/
def arrayBody (values : List Bytes) (last : Bytes) : Bytes :=
  arrayHeader (values.length + 1 : Nat) ++ (values.map bulk).flatten ++
    (lit "$" ++ decimal last.length ++ crlf ++ last)

theorem arrayBody_crlf (values : List Bytes) (last : Bytes) :
    arrayBody values last ++ crlf =
      arrayHeader (values ++ [last]).length ++ ((values ++ [last]).map bulk).flatten := by
  simp [arrayBody, bulk]

/-- The strings of an array are read whatever two bytes end it. -/
theorem replyElements_array (values : List Bytes) (last rest : Bytes) :
    replyElements (arrayBody values last ++ rest) = values ++ [last] := by
  have front : arrayBody values last ++ rest =
      42 :: (decimal (values.length + 1) ++ (crlf ++ ((values.map bulk).flatten ++
        (lit "$" ++ decimal last.length ++ crlf ++ last ++ rest)))) := by
    simp only [arrayBody, arrayHeader, List.append_assoc]
    rfl
  have stop (behind : Bytes) : ∀ c ∈ (crlf ++ behind).head?, isdigit c = false := by
    intro c isHead
    obtain rfl : 13 = c := by simpa [crlf, lit] using isHead
    decide
  obtain ⟨digits, _⟩ := takeWhile_isdigit_decimal (values.length + 1)
    (stop ((values.map bulk).flatten ++
      (lit "$" ++ decimal last.length ++ crlf ++ last ++ rest)))
  unfold replyElements
  rw [front]
  simp only [List.head?_cons, if_true, List.tail_cons, digits, digitsValue_decimal]
  rw [← List.append_assoc, List.drop_left' (by simp [crlf]), takeBulks_append values 1, takeBulks,
    takeBulk_of_bytes]
  rfl

theorem replyElements_bulk (s : Bytes) : replyElements (bulk s) = [s] := by
  have isBulk : (bulk s).head? = some 36 := rfl
  have := takeBulk_bulk s []
  rw [List.append_nil] at this
  simp [replyElements, isBulk, this]

/-! ## Elements popped by BLPOP -/

theorem popReply_eq (key value : Bytes) :
    popReply key value = lit "*2\r\n" ++ bulk key ++ bulk value := rfl

theorem poppedElement_popReply (key value : Bytes) :
    poppedElement key (popReply key value) = some value := by
  have front : lit "*2\r\n" ++ bulk key <+: popReply key value := ⟨bulk value, rfl⟩
  have := takeBulk_bulk value []
  rw [List.append_nil] at this
  rw [poppedElement, if_pos front, popReply_eq, List.drop_left, this]
  rfl

/-- Bulk strings are not prefixes of each other. -/
theorem bulk_prefix_injective {s s' rest : Bytes} (isPrefix : bulk s <+: bulk s' ++ rest) : s = s' := by
  obtain ⟨behind, same⟩ := isPrefix
  have first := takeBulk_bulk s behind
  rw [same, takeBulk_bulk] at first
  exact (congrArg Prod.fst (Option.some.inj first)).symm

theorem poppedElement_of_ne {key key' value : Bytes} (distinct : key' ≠ key) (n : Nat) :
    poppedElement key ((popReply key' value).take n) = none := by
  have foreign : ¬ lit "*2\r\n" ++ bulk key <+: (popReply key' value).take n := by
    intro front
    have whole := front.trans (List.take_prefix n _)
    rw [popReply_eq, List.append_assoc, List.prefix_append_right_inj] at whole
    exact distinct (bulk_prefix_injective whole).symm
  rw [poppedElement, if_neg foreign]

/-- A reply that does not start as an array of two carries no element. -/
theorem poppedElement_other {key text : Bytes} (other : text.take 4 ≠ lit "*2\r\n") :
    poppedElement key text = none := by
  have foreign : ¬ lit "*2\r\n" ++ bulk key <+: text := by
    rintro ⟨behind, rfl⟩
    exact other rfl
  rw [poppedElement, if_neg foreign]

/-! ## The array of LPOP -/

theorem appendAll_offset {size : Nat} {texts : List Bytes} {buffer result : Buffer} {w t : World D}
    (run : Buffer.appendAll size texts buffer w = .ok (result, t)) :
    result.offset = buffer.offset + texts.flatten.length := by
  induction texts generalizing buffer w with
  | nil =>
    simp only [Buffer.appendAll, pure_run, Except.ok.injEq, Prod.mk.injEq] at run
    simp [← run.1]
  | cons text texts inductionHypothesis =>
    obtain ⟨appended, u, first, rest⟩ := bind_eq_ok.mp run
    obtain ⟨printed, v, prints, adds⟩ := bind_eq_ok.mp first
    unfold Buffer.print at prints
    split at prints
    · simp [fault] at prints
    · simp only [pure_run, Except.ok.injEq, Prod.mk.injEq] at prints adds
      rw [inductionHypothesis rest, ← adds.1, ← prints.1, List.flatten_cons, List.length_append,
        Nat.add_assoc]

/-- The texts that were added to an array of `size` bytes, as far as there is room. -/
theorem appendAll_content {size : Nat} {texts : List Bytes} {content : Bytes} {result : Buffer}
    {w t : World D}
    (run : Buffer.appendAll size texts ⟨content.take (size - 1), content.length⟩ w = .ok (result, t)) :
    result = ⟨(content ++ texts.flatten).take (size - 1), (content ++ texts.flatten).length⟩ := by
  induction texts generalizing content w with
  | nil =>
    simp only [Buffer.appendAll, pure_run, Except.ok.injEq, Prod.mk.injEq] at run
    simp [← run.1]
  | cons text texts inductionHypothesis =>
    obtain ⟨appended, u, first, rest⟩ := bind_eq_ok.mp run
    obtain ⟨printed, v, prints, adds⟩ := bind_eq_ok.mp first
    unfold Buffer.print at prints
    split at prints
    · simp [fault] at prints
    simp only [pure_run, Except.ok.injEq, Prod.mk.injEq] at prints adds
    obtain ⟨rfl, rfl⟩ := prints
    obtain ⟨rfl, rfl⟩ := adds
    -- what is printed is a prefix of all the texts so far
    have same : (content.take (size - 1)).take content.length ++
        text.take (size - content.length - 1) = (content ++ text).take (size - 1) := by
      rw [List.take_append, List.take_of_length_le (l := content.take (size - 1)) (by simp),
        Nat.sub_right_comm]
    rw [same, show content.length + text.length = (content ++ text).length by simp] at rest
    rw [List.flatten_cons, ← List.append_assoc]
    exact inductionHypothesis rest

theorem appendAll_written {size : Nat} {texts : List Bytes} {result : Buffer} {w t : World D}
    (run : Buffer.appendAll size texts {} w = .ok (result, t)) :
    result = ⟨texts.flatten.take (size - 1), texts.flatten.length⟩ := by
  have nothing : ({} : Buffer) = ⟨([] : Bytes).take (size - 1), ([] : Bytes).length⟩ := by
    rw [List.take_nil]
    rfl
  rw [nothing] at run
  exact appendAll_content run

/-- The array that LPOP sends carries the popped elements. -/
theorem sendPopped_elements {clientFd : Int} {popped : List Bytes} {text : Bytes} {w : World D}
    (some : popped ≠ []) (run : sendPopped clientFd popped w = .ok ((), w.emit clientFd text)) :
    replyElements text = popped := by
  obtain ⟨buffer, printed, prints, sends⟩ := bind_eq_ok.mp run
  obtain rfl := appendAll_run prints
  have offset := appendAll_offset prints
  unfold Buffer.sendPrefix at sends
  split at sends
  · simp [fault] at sends
  · rename_i inside
    have few := length_le_bulks popped
    obtain ⟨values, last, rfl⟩ : ∃ values last, popped = values ++ [last] :=
      ⟨popped.dropLast, popped.getLast some, (List.dropLast_append_getLast some).symm⟩
    have short : (arrayHeader (values ++ [last]).length).length ≤ 12 := by
      have := length_decimal_le (n := (values ++ [last]).length) (by omega)
      change (lit "*" ++ decimal (values ++ [last]).length ++ crlf).length ≤ 12
      simp only [List.length_append] at this ⊢
      have : (lit "*").length = 1 := by decide
      have : crlf.length = 2 := by decide
      omega
    -- at most the last byte did not fit
    have whole : (arrayHeader (values ++ [last]).length).take (2048 - 1) =
        arrayHeader (values ++ [last]).length := List.take_of_length_le (by omega)
    have content : buffer.content = (arrayHeader (values ++ [last]).length ++
        ((values ++ [last]).map bulk).flatten).take (2048 - 1) :=
      congrArg Buffer.content (appendAll_content (by rwa [whole]))
    rw [← arrayBody_crlf] at content
    replace offset : buffer.offset = (arrayBody values last ++ crlf).length := by
      rw [arrayBody_crlf]
      exact offset.trans List.length_append.symm
    have body : (arrayBody values last).length ≤ 2048 - 1 := by
      have : crlf.length = 2 := by decide
      simp only [List.length_append] at offset
      omega
    have sent : text = buffer.content.take buffer.offset ++
        List.replicate (buffer.offset - buffer.content.length) 0 := by
      have same := congrArg World.sent (send_run sends)
      simpa [World.emit, eq_comm] using same
    rw [sent, content, List.take_append, List.take_of_length_le body, List.take_append,
      List.take_of_length_le (by rw [offset]; simp), List.append_assoc]
    exact replyElements_array values last _

/-! ## The copies for the replicas -/

/-- The text of a request that `copy_request_toBuffer` writes. -/
def requestText (req : RespRequest) : Bytes :=
  (arrayHeader (req.argc + 1) :: bulk (cmdToString req.command) :: req.args.map bulk).flatten

/-- What `pass_data_toReplica` sends for a request: the text, and a NUL in place of a byte without room. -/
def copyText (req : RespRequest) : Bytes :=
  (requestText req).take 1023 ++ List.replicate ((requestText req).length - 1023) 0

/-- What the replica in a slot is sent for a request. -/
def World.copyAt (w : World D) (req : RespRequest) (slot : ClientSlot) : Option (Int × Bytes) :=
  (w.occupant slot).bind fun client =>
    if client.isReplica then some (client.fd, copyText req) else none

/-- What the replicas are sent for a request. -/
def World.copies (w : World D) (req : RespRequest) : List (Int × Bytes) :=
  clientSlots.filterMap (w.copyAt req)

theorem copyRequestToBuffer_sent {req : RespRequest} {buffer : Buffer} {w t : World D}
    (run : copyRequestToBuffer req 1024 w = .ok (buffer, t)) (inside : buffer.offset ≤ 1024) :
    buffer.content.take buffer.offset ++
      List.replicate (buffer.offset - buffer.content.length) 0 = copyText req := by
  unfold copyRequestToBuffer at run
  obtain rfl : buffer = ⟨(requestText req).take 1023, (requestText req).length⟩ := appendAll_written run
  have unfit : (requestText req).length - min 1023 (requestText req).length =
      (requestText req).length - 1023 := by omega
  rw [copyText, List.take_of_length_le (by simp), List.length_take, unfit]

theorem passTo_sent {req : RespRequest} {slot : ClientSlot} {w w' : World D}
    (run : passTo req slot w = .ok ((), w')) :
    w' = { w with sent := w.sent ++ (w.copyAt req slot).toList, passed := w'.passed } ∧
      w'.passed.length = w.passed.length + (w.copyAt req slot).toList.length := by
  unfold passTo at run
  obtain ⟨occupant, t, look, rest⟩ := bind_eq_ok.mp run
  obtain ⟨rfl, here⟩ := occupant_of_clientAt look
  rw [World.copyAt, here]
  cases occupant with
  | none =>
    obtain rfl : t = w' := by simpa using rest
    simp
  | some occupant =>
    obtain ⟨ptr, client⟩ := occupant
    dsimp only at rest
    split at rest
    · rename_i isReplica
      obtain ⟨buffer, u, copied, afterCopy⟩ := bind_eq_ok.mp rest
      obtain rfl := appendAll_run copied
      obtain ⟨_, v, sends, note⟩ := bind_eq_ok.mp afterCopy
      unfold Buffer.sendPrefix at sends
      split at sends
      · simp [fault] at sends
      · rename_i inside
        rw [send_run sends, copyRequestToBuffer_sent copied (by omega)] at note
        simp only [notePassed, alter_run, Except.ok.injEq, Prod.mk.injEq, true_and] at note
        rw [← note]
        simp [isReplica, World.emit]
    · rename_i notReplica
      obtain rfl : t = w' := by simpa using rest
      simp [notReplica]

theorem forM_passTo_sent {req : RespRequest} {slots : List ClientSlot} {w w' : World D}
    (run : forM slots (passTo req) w = .ok ((), w')) :
    w'.sent = w.sent ++ slots.filterMap (w.copyAt req) ∧
      w'.passed.length = w.passed.length + (slots.filterMap (w.copyAt req)).length := by
  induction slots generalizing w with
  | nil =>
    obtain rfl : w = w' := by simpa using run
    simp
  | cons slot slots inductionHypothesis =>
    rw [List.forM_cons] at run
    obtain ⟨_, t, first, rest⟩ := bind_eq_ok.mp run
    obtain ⟨same, passed⟩ := passTo_sent first
    obtain ⟨sent, restPassed⟩ := inductionHypothesis rest
    have sameCopies : t.copyAt req = w.copyAt req := by
      rw [same]
      rfl
    have firstSent : t.sent = w.sent ++ (w.copyAt req slot).toList := by rw [same]
    rw [sameCopies] at sent restPassed
    rw [sent, restPassed, firstSent, passed, List.filterMap_cons]
    cases w.copyAt req slot with
    | none => simp
    | some copy =>
      simp only [Option.toList_some, List.append_assoc, List.singleton_append, List.length_cons,
        List.length_nil, true_and]
      omega

/-- What follows a call of `handle` sends copies only, and logs as many. -/
theorem propagate_sent {ptr : ClientPtr} {call : Call} {w w' : World D}
    (run : propagate ptr call w = .ok ((), w')) :
    ∃ copies, w'.sent = w.sent ++ copies ∧ w'.passed.length = w.passed.length + copies.length ∧
      (copies = [] ∨ isWriteCmd call.request.command = true ∧ copies = w.copies call.request) := by
  obtain ⟨client, loaded, load, rest⟩ := bind_eq_ok.mp run
  obtain ⟨_, rfl⟩ := loadClient_eq_ok.mp load
  rw [bind_of_ok (show config loaded = .ok (loaded.serverConfig, loaded) from rfl)] at rest
  split at rest
  · rw [setConfig_run] at rest
    obtain rfl : _ = w' := by simpa using rest
    exact ⟨[], by simp [World.configure], by simp [World.configure], .inl rfl⟩
  · cases isWrite : isWriteCmd call.request.command with
    | false =>
      simp only [isWrite, onlyIf, passDataToReplica, Bool.false_eq_true, if_false, pure_bind] at rest
      obtain rfl : loaded = w' := by simpa using rest
      exact ⟨[], by simp, rfl, .inl rfl⟩
    | true =>
      rw [isWrite, onlyIf, if_pos rfl, bind_of_ok (setConfig_run _ _), passDataToReplica, isWrite,
        if_pos rfl] at rest
      obtain ⟨sent, passed⟩ := forM_passTo_sent rest
      exact ⟨_, sent, passed, .inr ⟨rfl, rfl⟩⟩

/-! ## The answers of a step -/

/-- Nothing was sent and no copy was logged. -/
def Quiet (w w' : World D) : Prop := w'.sent = w.sent ∧ w'.passed = w.passed

theorem composes_quiet : Composes (Quiet (D := D)) where
  refl _ := ⟨rfl, rfl⟩
  trans before after := ⟨after.1.trans before.1, after.2.trans before.2⟩

theorem quiet_notifyFirst {req : RespRequest} {w w' : World D} {c : Prop} [Decidable c]
    (run : onlyIf c (notifyFirst req) w = .ok ((), w')) : Quiet w w' := by
  unfold onlyIf at run
  split at run
  · obtain ⟨key, read, reads, notifies⟩ := bind_eq_ok.mp run
    obtain ⟨_, rfl⟩ := arg_ok.mp reads
    obtain ⟨bucket, _, rfl⟩ := notifyWatchers_run notifies
    exact ⟨rfl, rfl⟩
  · obtain rfl : w = w' := by simpa using run
    exact ⟨rfl, rfl⟩

theorem obeys_quiet_writeToFile (req : RespRequest) :
    Obeys (Quiet (D := D)) (fun _ => True) (writeToFile req) := by
  have composes := composes_quiet (D := D)
  have nothing : Obeys Quiet (fun _ => True) (pure () : M D Unit) := Obeys.pure composes ()
  refine Obeys.bind composes (Obeys.observe composes _) fun server _ => ?_
  refine Obeys.bind composes ?_ fun appendOnly _ => ?_
  · exact Obeys.bind composes (Obeys.draw fun _ => ⟨rfl, rfl⟩) fun _ _ => Obeys.pure composes _
  refine Obeys.ite (fun _ => nothing) fun _ => ?_
  refine Obeys.bind composes (Obeys.observe composes _) fun files _ => ?_
  cases files.manifest with
  | none => exact Obeys.fault trivial
  | some manifest =>
    refine Obeys.bind composes ?_ fun _ _ => Obeys.alter fun _ => ⟨rfl, rfl⟩
    unfold recordActiveName
    cases activeAofName manifest with
    | none => exact nothing
    | some name => exact Obeys.ite (fun _ => Obeys.fault trivial) fun _ => Obeys.alter fun _ => ⟨rfl, rfl⟩

theorem quiet_writeToFile {req : RespRequest} {w w' : World D} {c : Prop} [Decidable c]
    (run : onlyIf c (writeToFile req) w = .ok ((), w')) : Quiet w w' :=
  (Obeys.onlyIf composes_quiet (fun _ => obeys_quiet_writeToFile req) w).1 () w' run

/-- What the handler of a step sent: without the copies for the replicas. -/
def answers (w w' : World D) : List (Int × Bytes) :=
  let sent := w'.sent.drop w.sent.length
  sent.take (sent.length - (w'.passed.length - w.passed.length))

theorem answers_eq {w w' : World D} {replies copies : List (Int × Bytes)}
    (sent : w'.sent = w.sent ++ replies ++ copies)
    (passed : w'.passed.length = w.passed.length + copies.length) : answers w w' = replies := by
  unfold answers
  simp [sent, passed, List.append_assoc]

theorem answers_of_passed {w w' : World D} {replies : List (Int × Bytes)}
    (sent : w'.sent = w.sent ++ replies) (passed : w'.passed = w.passed) : answers w w' = replies := by
  unfold answers
  simp [sent, passed]

/-- A step that runs an arm: what was sent after the arm are copies. -/
theorem sent_of_step [Externals D] {s t : Server D} {event : Event} {ptr : ClientPtr} {req : RespRequest}
    {client : Client} {handled : World D} (outside : OutsideMulti s) (step : Step s event t)
    (dispatches : Dispatches s event ptr req) (found : s.world.heap ptr = some client)
    (run : arm req ptr client (s.world.noted req) = .ok ((), handled)) :
    ∃ copies, t.world.sent = handled.sent ++ copies ∧
      t.world.passed.length = s.world.passed.length + copies.length := by
  -- between the arm and the copies there are the notices to watchers and the log, and neither sends
  have afterArm {dispatched : World D} (dispatchRun : dispatch req ptr s.world = .ok ((), dispatched)) :
      Quiet handled dispatched ∧ dispatched.passed = s.world.passed := by
    obtain ⟨client', handled', notified, found', arms, notify, write⟩ := dispatch_parts dispatchRun
    obtain rfl : client = client' := Option.some.inj (found.symm.trans found')
    rw [run] at arms
    simp only [Except.ok.injEq, Prod.mk.injEq, true_and] at arms
    subst arms
    have quiet := composes_quiet.trans (quiet_notifyFirst notify) (quiet_writeToFile write)
    exact ⟨quiet, quiet.2.trans ((kept_arm run).passed id)⟩
  obtain ⟨calls, other, foundOther, reaches⟩ := dispatches
  obtain rfl : client = other := Option.some.inj (found.symm.trans foundOther)
  cases step_cases outside step with
  | quiet idle noRequest kept => cases event <;> simp_all [Server.calls]
  | connected slot idle isNext valid free => simp [Server.calls] at calls
  | disconnected last ptr' idle isLast occupied => simp [Server.calls] at calls
  | started ptr' client' idle occupied found' starts =>
    simp only [Server.calls, occupied, Option.map_some, Option.some.injEq, Prod.mk.injEq] at calls
    obtain ⟨rfl, rfl⟩ := calls
    have isExec := (startsTransaction_eq_true.mp starts).1
    simp [reachesArm, isExec, isTransactionCmd] at reaches
  | served ptr' client' idle occupied found' starts handles propagates =>
    simp only [Server.calls, occupied, Option.map_some, Option.some.injEq, Prod.mk.injEq] at calls
    obtain ⟨rfl, rfl⟩ := calls
    obtain rfl : client = client' := Option.some.inj (found.symm.trans found')
    obtain ⟨quiet, passed⟩ := afterArm (handles.dispatch_of_reaches reaches)
    obtain ⟨copies, sent, logged, _⟩ := propagate_sent propagates
    exact ⟨copies, by rw [sent, quiet.1], by rw [logged, passed]⟩
  | ran ptr' req' remaining call client' after running found' handles foundAfter =>
    simp only [Server.calls, running, Option.bind_some, List.head?_cons, Option.map_some,
      Option.some.injEq, Prod.mk.injEq] at calls
    obtain ⟨rfl, rfl⟩ := calls
    obtain rfl : client = client' := Option.some.inj (found.symm.trans found')
    obtain ⟨quiet, passed⟩ := afterArm (handles.dispatch_of_reaches reaches)
    exact ⟨[], by simp [World.setClient, quiet.1], by simp [World.setClient, passed]⟩
  | ended ptr' call running propagates => simp [Server.calls, running] at calls

/-- The timers send what expires and at most the answer to a WAIT. -/
theorem answers_timers [Externals D] {s t : Server D} (wellFormed : WellFormed s) (step : Step s .timers t) :
    answers s.world t.world =
      s.world.tick.expiries (s.world.clock 0) s.world.tick.clock s.world.active ++
        s.world.completions (s.world.clock 0) := by
  have idle : s.running = none := step.1
  obtain ⟨_, acts⟩ := step
  rw [idle] at acts
  obtain ⟨runs, _⟩ := act_unit acts
  obtain ⟨expired, expires, completes⟩ := runTimers_ok wellFormed.distinct runs
  obtain ⟨sent, passed⟩ := completes.sent
  refine answers_of_passed ?_ ?_
  · rw [sent, expires.completions_eq, expires.keeps, List.append_assoc]
    rfl
  · rw [passed, expires.keeps]
    rfl

end RedisClone
