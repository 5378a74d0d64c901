import Mathlib.Data.List.Forall2
import RedisClone.Verified.Frames

/-! # Reading back what the server writes

The append-only file and the replication stream hold requests that were received, written with
`cmd_to_string` and read with `findRedisCmd`.  `parse_strings` bounds the strings that `parse` stores,
so that every such request is a `Message`, and the two tables decide the rest: a request is read back
as itself exactly where they agree on its command (`readsBack`).
-/

namespace RedisClone

open Exec CString

variable {D : Type}

/-! ## What `parse` stores -/

theorem getLineFrom_stored {room : Nat} {memory line : Bytes}
    (read : getLineFrom room memory = .ok line) : Plain line ∧ line.length < room := by
  induction memory generalizing room line with
  | nil => simp [getLineFrom] at read
  | cons c rest inductionHypothesis =>
    unfold getLineFrom at read
    by_cases stops : c = 13 ∨ c = 0
    · simp only [stops, if_true] at read
      by_cases full : room = 0
      · simp [full] at read
      · simp only [full, if_false, Except.ok.injEq] at read
        subst read
        exact ⟨fun _ member => by simp at member, Nat.pos_of_ne_zero full⟩
    · simp only [stops, if_false] at read
      cases room with
      | zero => simp at read
      | succ room =>
        cases later : getLineFrom room rest with
        | error f => simp [later] at read
        | ok tail =>
          simp only [later, Except.ok.injEq] at read
          subst read
          obtain ⟨plain, short⟩ := inductionHypothesis later
          have text : isText c = true := by
            by_contra terminator
            exact stops (isText_eq_false.mp (by simpa using terminator))
          constructor
          · intro d member
            obtain same | member := List.mem_cons.mp member
            · exact same ▸ text
            · exact plain d member
          · simp only [List.length_cons]
            omega

/-- Strings that one message can carry. -/
structure Storable (strings : List Bytes) : Prop where
  plain : ∀ s ∈ strings, Plain s
  short : ∀ s ∈ strings, s.length < 256
  few : strings.length ≤ maxArgs

theorem storable_nil : Storable [] :=
  ⟨fun _ member => by simp at member, fun _ member => by simp at member, Nat.zero_le _⟩

theorem store_storable {partialReq stored : PartialRequest} {i : Nat} {line : Bytes}
    (before : Storable partialReq.args) (plain : Plain line) (short : line.length < 256)
    (stores : partialReq.store i line = .ok stored) : Storable stored.args := by
  unfold PartialRequest.store at stores
  split at stores
  · split at stores <;> (cases stores; exact before)
  · split at stores
    · cases stores
      exact before
    · split at stores
      · rename_i room
        cases stores
        refine ⟨fun s member => ?_, fun s member => ?_, ?_⟩
        · obtain old | isNew := List.mem_append.mp member
          · exact before.plain s old
          · exact List.mem_singleton.mp isNew ▸ plain
        · obtain old | isNew := List.mem_append.mp member
          · exact before.short s old
          · exact List.mem_singleton.mp isNew ▸ short
        · rw [List.length_append, List.length_singleton]
          omega
      · simp at stores

theorem parseElements_storable {memory : Bytes} {remaining i : Nat}
    {partialReq stored : PartialRequest} {ptr next : Nat} (before : Storable partialReq.args)
    (parsed : parseElements memory remaining i partialReq ptr = .ok (some (stored, next))) :
    Storable stored.args := by
  induction remaining generalizing i partialReq ptr with
  | zero =>
    simp only [parseElements, Except.ok.injEq, Option.some.injEq, Prod.mk.injEq] at parsed
    exact parsed.1 ▸ before
  | succ remaining inductionHypothesis =>
    rw [parseElements] at parsed
    cases announced : getLine memory ptr with
    | error f => simp [announced] at parsed
    | ok lenLine =>
      simp only [announced] at parsed
      split at parsed
      · simp at parsed
      · cases read : getLine memory (ptr + lenLine.length + 2) with
        | error f => simp [read] at parsed
        | ok valueLine =>
          simp only [read] at parsed
          split at parsed
          · simp at parsed
          · cases stores : partialReq.store i valueLine with
            | error f => simp [stores] at parsed
            | ok partialReq' =>
              simp only [stores] at parsed
              obtain ⟨plain, short⟩ := getLineFrom_stored read
              exact inductionHypothesis (store_storable before plain short stores) parsed

/-- A request of `parse` has storable arguments, and as many as `argc` says unless its count was not
positive. -/
theorem parse_strings {memory : Bytes} {ptr next : Nat} {req : RespRequest}
    (parsed : parse memory ptr = .ok (some (req, next))) :
    Storable req.args ∧ req.unused = .null ∧
      (req.command ≠ .unknown → req.argc = req.args.length) := by
  unfold parse at parsed
  cases read : getLine memory ptr with
  | error f => simp [read] at parsed
  | ok firstLine =>
    simp only [read] at parsed
    split at parsed
    · simp at parsed
    · split at parsed
      · split at parsed
        · simp at parsed
        · simp only [Except.ok.injEq, Option.some.injEq, Prod.mk.injEq] at parsed
          rw [← parsed.1]
          exact ⟨storable_nil, rfl, fun known => absurd rfl known⟩
      · split at parsed
        · simp at parsed
        · simp at parsed
        · rename_i stored last elements
          simp only [Except.ok.injEq, Option.some.injEq, Prod.mk.injEq] at parsed
          rw [← parsed.1]
          exact ⟨parseElements_storable storable_nil elements, rfl, fun _ => rfl⟩

/-- The request came from `parse`, at once or by way of a queue. -/
def FromParse (req : RespRequest) : Prop :=
  ∃ memory ptr source next, parse memory ptr = .ok (some (source, next)) ∧
    (req = source ∨ req = copyRequest source)

theorem FromParse.strings {req : RespRequest} (fromParse : FromParse req) :
    Storable req.args ∧ (req.command ≠ .unknown → req.argc = req.args.length) := by
  obtain ⟨memory, ptr, source, next, parsed, same | copied⟩ := fromParse
  · subst same
    exact ⟨(parse_strings parsed).1, (parse_strings parsed).2.2⟩
  · subst copied
    exact ⟨(parse_strings parsed).1, (parse_strings parsed).2.2⟩

/-! ## Records -/

/-- The two tables of command names agree on the command. -/
def readsBack (cmd : RedisCmds) : Bool := findRedisCmd (cmdToString cmd) = cmd

/-- `find_redis_cmd` reads the name that `cmd_to_string` writes for a logged or a write command as this command.
`cmd_to_string` has no names for the commands of the sorted sets. -/
theorem findRedisCmd_cmdToString : ∀ cmd, (logs cmd || isWriteCmd cmd) = true →
    findRedisCmd (cmdToString cmd) = if cmd ∈ [.zadd, .zrem, .geoadd] then .unknown else cmd := by
  decide +kernel

theorem readsBack_of_isWriteCmd {cmd : RedisCmds} (isWrite : isWriteCmd cmd = true) :
    readsBack cmd = true := by
  have named : cmd ∉ [.zadd, .zrem, .geoadd] := by
    revert cmd
    decide +kernel
  have read := findRedisCmd_cmdToString cmd (by simp [isWrite])
  rw [if_neg named] at read
  simpa [readsBack] using read

/-- The logged commands that `cmd_to_string` does not name. -/
theorem readsBack_of_logs {cmd : RedisCmds} (logged : logs cmd = true) :
    readsBack cmd = true ↔ cmd ≠ .zadd ∧ cmd ≠ .zrem ∧ cmd ≠ .geoadd := by
  have known : cmd ≠ .unknown := by
    rintro rfl
    simp [logs, notifies] at logged
  have read := findRedisCmd_cmdToString cmd (by simp [logged])
  by_cases named : cmd ∈ [.zadd, .zrem, .geoadd]
  · rw [if_pos named] at read
    simp only [List.mem_cons, List.not_mem_nil, or_false] at named
    simp only [readsBack, read, decide_eq_true_eq, known.symm, false_iff]
    tauto
  · rw [if_neg named] at read
    simp_all [readsBack]

/-- What a record of a logged command is read as. -/
theorem findRedisCmd_of_logs {cmd : RedisCmds} (logged : logs cmd = true) :
    findRedisCmd (cmdToString cmd) = if readsBack cmd then cmd else .unknown := by
  have read := findRedisCmd_cmdToString cmd (by simp [logged])
  split at read
  · split
    · rename_i named
      simpa [readsBack] using named
    · exact read
  · simp [readsBack, read]

theorem isWriteCmd_of_logs : ∀ cmd, logs cmd = true → cmd ≠ .zadd ∧ cmd ≠ .zrem ∧ cmd ≠ .geoadd →
    isWriteCmd cmd = true := by
  decide +kernel

theorem ordinary_of_logs : ∀ cmd, logs cmd = true → isTransactionCmd cmd = false := by
  decide +kernel

theorem plain_cmdToString (cmd : RedisCmds) : Plain (cmdToString cmd) := by
  intro c member
  have notCr : c ≠ 13 := by
    rintro rfl
    exact not_mem_cmdToString (by decide) cmd member
  have notNul : c ≠ 0 := by
    rintro rfl
    exact not_mem_cmdToString (by decide) cmd member
  simp [isText, notCr, notNul]

theorem cmdToString_ne_config : ∀ cmd, upper (cmdToString cmd) ≠ lit "CONFIG" := by
  decide +kernel

/-- A received request as the message that the server writes for it. -/
def recordOf (req : RespRequest) (storable : Storable req.args) : Message where
  elements := cmdToString req.command :: req.args
  nonempty := List.cons_ne_nil _ _
  few := by
    have few := storable.few
    rw [List.length_cons]
    omega
  short := by
    intro element member
    obtain isName | isArg := List.mem_cons.mp member
    · have named := length_cmdToString req.command
      rw [isName]
      omega
    · exact storable.short element isArg

theorem plain_recordOf {req : RespRequest} (storable : Storable req.args) :
    ∀ element ∈ (recordOf req storable).elements, Plain element := by
  intro element member
  obtain isName | isArg := List.mem_cons.mp member
  · exact isName ▸ plain_cmdToString _
  · exact storable.plain element isArg

/-- The record of a request whose `argc` counts its arguments. -/
theorem aofRecord_eq {req : RespRequest} (counted : req.argc = req.args.length) :
    aofRecord req = encode (cmdToString req.command :: req.args) := by
  simp [aofRecord, encode, counted]

/-- The request that a record is read back as. -/
theorem requestOf_record (req : RespRequest) :
    requestOf (cmdToString req.command :: req.args) =
      PartialRequest.finish ⟨findRedisCmd (cmdToString req.command), false, req.args⟩ := by
  simp only [requestOf, if_neg (cmdToString_ne_config req.command)]

/-- Two requests with the same command, count and arguments. -/
def SameRequest (req req' : RespRequest) : Prop :=
  req'.command = req.command ∧ req'.argc = req.argc ∧ req'.args = req.args

theorem sameRequest_record {req : RespRequest} (counted : req.argc = req.args.length) :
    SameRequest req (requestOf (cmdToString req.command :: req.args)) ↔
      readsBack req.command = true := by
  simp [requestOf_record, SameRequest, readsBack, PartialRequest.finish, counted]

theorem known_of_logs {cmd : RedisCmds} (logged : logs cmd = true) : cmd ≠ .unknown := by
  rintro rfl
  simp [logs, notifies] at logged

theorem known_of_isWriteCmd {cmd : RedisCmds} (isWrite : isWriteCmd cmd = true) :
    cmd ≠ .unknown := by
  rintro rfl
  simp [isWriteCmd] at isWrite

/-! ## Sequences of records -/

/-- The messages of received requests. -/
def recordsOf : (reqs : List RespRequest) → (∀ req ∈ reqs, Storable req.args) → List Message
  | [], _ => []
  | req :: reqs, storable =>
    recordOf req (storable req List.mem_cons_self) ::
      recordsOf reqs fun other member => storable other (List.mem_cons_of_mem _ member)

theorem recordsOf_elements (reqs : List RespRequest) (storable : ∀ req ∈ reqs, Storable req.args) :
    (recordsOf reqs storable).map Message.elements =
      reqs.map fun req => cmdToString req.command :: req.args := by
  induction reqs with
  | nil => rfl
  | cons req reqs inductionHypothesis =>
    rw [recordsOf, List.map_cons, List.map_cons, inductionHypothesis]
    rfl

theorem encodeAll_recordsOf (reqs : List RespRequest)
    (storable : ∀ req ∈ reqs, Storable req.args) :
    encodeAll (recordsOf reqs storable) =
      (reqs.map fun req => encode (cmdToString req.command :: req.args)).flatten := by
  have elements := congrArg (List.map encode) (recordsOf_elements reqs storable)
  simp only [List.map_map] at elements
  rw [encodeAll]
  exact congrArg List.flatten elements

theorem plain_recordsOf (reqs : List RespRequest) (storable : ∀ req ∈ reqs, Storable req.args) :
    ∀ message ∈ recordsOf reqs storable, ∀ element ∈ message.elements, Plain element := by
  induction reqs with
  | nil => exact fun message member => by simp [recordsOf] at member
  | cons req reqs inductionHypothesis =>
    intro message member
    obtain isFirst | inRest := List.mem_cons.mp member
    · exact isFirst ▸ plain_recordOf _
    · exact inductionHypothesis _ message inRest

theorem callsOf_requests (start : Nat) (messages : List Message) :
    (callsOf start messages).map Call.request =
      messages.map fun message => requestOf message.elements := by
  induction messages generalizing start with
  | nil => rfl
  | cons message messages inductionHypothesis => simp [callsOf, inductionHypothesis]

theorem callsOf_lengths (start : Nat) (messages : List Message) :
    ((callsOf start messages).map Call.length).sum = (encodeAll messages).length := by
  induction messages generalizing start with
  | nil => rfl
  | cons message messages inductionHypothesis =>
    rw [callsOf, List.map_cons, List.sum_cons, inductionHypothesis]
    simp [encodeAll]

/-- The parse loop over the records of received requests, with any bytes behind the NUL. -/
theorem handleCalls_records {reqs : List RespRequest} (storable : ∀ req ∈ reqs, Storable req.args)
    {content : Bytes} (isContent : content =
      (reqs.map fun req => encode (cmdToString req.command :: req.args)).flatten)
    (stale : Bytes) :
    ∃ calls, handleCalls (content ++ 0 :: stale) content.length = (calls, none) ∧
      calls.map Call.request =
        (reqs.map fun req => requestOf (cmdToString req.command :: req.args)) ∧
      (calls.map Call.length).sum = content.length := by
  rw [← encodeAll_recordsOf reqs storable] at isContent
  subst isContent
  refine ⟨callsOf 0 (recordsOf reqs storable), ?_, ?_, callsOf_lengths 0 _⟩
  · exact handleCallsFrom_encodeAll _ (plain_recordsOf reqs storable) List.drop_zero (by omega)
      (by omega)
  · have elements := congrArg (List.map requestOf) (recordsOf_elements reqs storable)
    simp only [List.map_map] at elements
    rw [callsOf_requests]
    exact elements

/-! ## The replication stream -/

/-- A text that fits is in the array whole. -/
theorem print_fits {size : Nat} {content text : Bytes} (room : content.length + text.length < size) (w : World D) :
    Buffer.print size ⟨content, content.length⟩ text w = .ok (⟨content ++ text, content.length⟩, w) := by
  have inside : ¬ size < content.length := by omega
  simp only [Buffer.print, inside, if_false, List.take_length,
    List.take_of_length_le (show text.length ≤ size - content.length - 1 by omega)]
  rfl

/-- Texts that fit are in the array whole. -/
theorem appendAll_fits {size : Nat} (texts : List Bytes) {content : Bytes}
    (room : (content ++ texts.flatten).length < size) (w : World D) :
    Buffer.appendAll size texts ⟨content, content.length⟩ w =
      .ok (⟨content ++ texts.flatten, (content ++ texts.flatten).length⟩, w) := by
  induction texts generalizing content with
  | nil => simp [Buffer.appendAll]
  | cons text texts inductionHypothesis =>
    rw [List.flatten_cons, ← List.append_assoc] at room
    have lengths : content.length + text.length < size := by
      simp only [List.length_append] at room
      omega
    have printed := print_fits lengths w
    have appended : Buffer.append size ⟨content, content.length⟩ text w =
        .ok (⟨content ++ text, (content ++ text).length⟩, w) := by
      rw [Buffer.append, bind_of_ok printed, List.length_append]
      rfl
    rw [Buffer.appendAll, bind_of_ok appended, inductionHypothesis room, List.flatten_cons,
      List.append_assoc]

theorem copyRequestToBuffer_run {req : RespRequest} (counted : req.argc = req.args.length)
    {size : Nat} (room : (encode (cmdToString req.command :: req.args)).length < size)
    (w : World D) :
    copyRequestToBuffer req size w =
      .ok (⟨encode (cmdToString req.command :: req.args),
        (encode (cmdToString req.command :: req.args)).length⟩, w) := by
  have texts : [] ++ (arrayHeader (req.argc + 1) :: bulk (cmdToString req.command) ::
      req.args.map bulk).flatten = encode (cmdToString req.command :: req.args) := by
    simp [encode, counted]
  have run := @appendAll_fits D size (arrayHeader (req.argc + 1) ::
    bulk (cmdToString req.command) :: req.args.map bulk) [] (by rw [texts]; exact room) w
  rw [texts] at run
  exact run

/-- A write command that `parse` produced is read back as itself. -/
theorem requestOf_record_eq {req : RespRequest} (counted : req.argc = req.args.length)
    (null : req.unused = .null) (named : readsBack req.command = true) :
    requestOf (cmdToString req.command :: req.args) = req := by
  have sameCommand : findRedisCmd (cmdToString req.command) = req.command := by
    simpa [readsBack] using named
  rw [requestOf_record, sameCommand]
  cases req
  simp_all [PartialRequest.finish]

theorem mapM_copyRequestToBuffer {encoded : List (RespRequest × Nat)}
    (counted : ∀ pair ∈ encoded, pair.1.argc = pair.1.args.length)
    (room : ∀ pair ∈ encoded,
      (encode (cmdToString pair.1.command :: pair.1.args)).length < pair.2) (w : World D) :
    ∃ buffers, encoded.mapM (fun pair => copyRequestToBuffer pair.1 pair.2) w =
        .ok (buffers, w) ∧
      buffers.map Buffer.content =
        encoded.map fun pair => encode (cmdToString pair.1.command :: pair.1.args) := by
  induction encoded with
  | nil => exact ⟨[], rfl, rfl⟩
  | cons pair encoded inductionHypothesis =>
    obtain ⟨buffers, run, contents⟩ := inductionHypothesis
      (fun other member => counted other (List.mem_cons_of_mem _ member))
      (fun other member => room other (List.mem_cons_of_mem _ member))
    have first := copyRequestToBuffer_run (counted pair List.mem_cons_self)
      (room pair List.mem_cons_self) w
    refine ⟨⟨encode (cmdToString pair.1.command :: pair.1.args),
      (encode (cmdToString pair.1.command :: pair.1.args)).length⟩ :: buffers, ?_, ?_⟩
    · rw [List.mapM_cons, bind_of_ok first, bind_of_ok run]
      rfl
    · rw [List.map_cons, List.map_cons, contents]

/-- Write commands that `parse` produced, encoded one after another, are what the event loop reads
from the bytes, with every byte consumed. -/
theorem stream_round_trip {encoded : List (RespRequest × Nat)}
    (produced : ∀ pair ∈ encoded, ∃ memory ptr next,
      parse memory ptr = .ok (some (pair.1, next)))
    (writes : ∀ pair ∈ encoded, isWriteCmd pair.1.command = true)
    (room : ∀ pair ∈ encoded,
      (encode (cmdToString pair.1.command :: pair.1.args)).length < pair.2) (w : World D) :
    ∃ buffers, encoded.mapM (fun pair => copyRequestToBuffer pair.1 pair.2) w =
        .ok (buffers, w) ∧
      ∀ stale : Bytes, ∃ calls,
        handleCalls ((buffers.map Buffer.content).flatten ++ 0 :: stale)
          (buffers.map Buffer.content).flatten.length = (calls, none) ∧
        calls.map Call.request = encoded.map Prod.fst ∧
        (calls.map Call.length).sum = (buffers.map Buffer.content).flatten.length := by
  have strings (pair : RespRequest × Nat) (member : pair ∈ encoded) :
      Storable pair.1.args ∧ pair.1.unused = .null ∧ pair.1.argc = pair.1.args.length := by
    obtain ⟨memory, ptr, next, parsed⟩ := produced pair member
    obtain ⟨storable, null, counted⟩ := parse_strings parsed
    exact ⟨storable, null, counted (known_of_isWriteCmd (writes pair member))⟩
  obtain ⟨buffers, run, contents⟩ :=
    mapM_copyRequestToBuffer (fun pair member => (strings pair member).2.2) room w
  refine ⟨buffers, run, fun stale => ?_⟩
  have storable : ∀ req ∈ encoded.map Prod.fst, Storable req.args := by
    intro req member
    obtain ⟨pair, isPair, rfl⟩ := List.mem_map.mp member
    exact (strings pair isPair).1
  have isContent : (buffers.map Buffer.content).flatten = ((encoded.map Prod.fst).map
      fun req => encode (cmdToString req.command :: req.args)).flatten := by
    rw [contents, List.map_map]
    rfl
  obtain ⟨calls, reads, requests, lengths⟩ := handleCalls_records storable isContent stale
  refine ⟨calls, reads, ?_, lengths⟩
  rw [requests, List.map_map]
  refine List.map_congr_left fun pair member => ?_
  obtain ⟨_, null, counted⟩ := strings pair member
  exact requestOf_record_eq counted null (readsBack_of_isWriteCmd (writes pair member))

/-- A SET and an RPUSH in the arrays of `pass_data_toReplica`. -/
theorem stream_round_trip_set_rpush :
    ∃ buffers, [(requestOf [lit "SET", lit "k", lit "v"], 1024),
        (requestOf [lit "RPUSH", lit "l", lit "a", lit "b"], 1024)].mapM
        (fun pair => copyRequestToBuffer pair.1 pair.2) (blankWorld Int) =
        .ok (buffers, blankWorld Int) ∧
      ∀ stale : Bytes, ∃ calls,
        handleCalls ((buffers.map Buffer.content).flatten ++ 0 :: stale)
          (buffers.map Buffer.content).flatten.length = (calls, none) ∧
        calls.map Call.request = [requestOf [lit "SET", lit "k", lit "v"],
          requestOf [lit "RPUSH", lit "l", lit "a", lit "b"]] ∧
        (calls.map Call.length).sum = (buffers.map Buffer.content).flatten.length := by
  refine stream_round_trip ?_ (by decide +kernel) (by decide +kernel) (blankWorld Int)
  intro pair member
  simp only [List.mem_cons, List.not_mem_nil, or_false] at member
  obtain rfl | rfl := member
  · exact ⟨encode [lit "SET", lit "k", lit "v"] ++ [0], 0, 27, by decide +kernel⟩
  · exact ⟨encode [lit "RPUSH", lit "l", lit "a", lit "b"] ++ [0], 0, 36, by decide +kernel⟩

/-! ## The append-only file -/

/-- `write_to_file` appends the record of its request, where it reads `appendonly` as YES. -/
theorem writeToFile_files {req : RespRequest} {w w' : World D}
    (run : writeToFile req w = .ok ((), w')) :
    w'.files = if upperText (w.fresh 0) w.serverConfig.appendOnly = lit "YES" then
        { w.files with aof := w.files.aof.map (· ++ aofRecord req) }
      else w.files := by
  unfold writeToFile at run
  rw [bind_of_ok (show config w = .ok (w.serverConfig, w) from rfl),
    bind_of_ok (toUpperCopy_run _ w)] at run
  by_cases enabled : upperText (w.fresh 0) w.serverConfig.appendOnly = lit "YES"
  · rw [if_neg (not_not.mpr enabled), bind_of_ok (observe_run _ _)] at run
    rw [if_pos enabled]
    cases named : w.takeFresh.files.manifest with
    | none => simp [named, fault] at run
    | some manifest =>
      simp only [named] at run
      obtain ⟨_, renamed, rename, append⟩ := bind_eq_ok.mp run
      -- the name of the file goes into the configuration, not into the files
      have sameFiles : renamed.files = w.files := by
        unfold recordActiveName at rename
        cases active : activeAofName manifest with
        | none =>
          simp only [active, pure_run, Except.ok.injEq, Prod.mk.injEq, true_and] at rename
          exact rename ▸ rfl
        | some name =>
          simp only [active] at rename
          split at rename
          · simp [fault] at rename
          · simp only [setConfig, alter_run, Except.ok.injEq, Prod.mk.injEq, true_and] at rename
            exact rename ▸ rfl
      simp only [appendAof, alter_run, Except.ok.injEq, Prod.mk.injEq, true_and] at append
      rw [← append, sameFiles]
  · rw [if_pos enabled] at run
    rw [if_neg enabled]
    simp only [pure_run, Except.ok.injEq, Prod.mk.injEq, true_and] at run
    exact run ▸ rfl

/-- The bytes that one call of `write_to_file` appends. -/
def Appends (D : Type) (req : RespRequest) (record : Bytes) : Prop :=
  ∃ (w w' : World D) (old : Bytes), writeToFile req w = .ok ((), w') ∧ w.files.aof = some old ∧
    w'.files.aof = some (old ++ record) ∧ record ≠ []

theorem Appends.eq_aofRecord {req : RespRequest} {record : Bytes}
    (appends : Appends D req record) : record = aofRecord req := by
  obtain ⟨w, w', old, run, opened, after, nonempty⟩ := appends
  have files := writeToFile_files run
  split at files
  · rw [files, opened] at after
    simpa [eq_comm] using after
  · rw [files, opened] at after
    simp [nonempty] at after

/-- `parse` consumes the record and yields the request. -/
def ReadsBack (req : RespRequest) (record : Bytes) : Prop :=
  ∀ rest, ∃ back, parse (record ++ rest) 0 = .ok (some (back, record.length)) ∧
    SameRequest req back

/-- The replay loop consumes the records and yields their requests. -/
def ReplaysAs (reqs : List RespRequest) (content : Bytes) : Prop :=
  ∃ calls, handleCalls (content ++ [0]) content.length = (calls, none) ∧
    List.Forall₂ SameRequest reqs (calls.map Call.request) ∧
    (calls.map Call.length).sum = content.length

theorem readsBack_iff {req : RespRequest} (fromParse : FromParse req)
    (logged : logs req.command = true) :
    ReadsBack req (aofRecord req) ↔ readsBack req.command = true := by
  obtain ⟨storable, counts⟩ := fromParse.strings
  have counted := counts (known_of_logs logged)
  have parsed (rest : Bytes) : parse (aofRecord req ++ rest) 0 =
      .ok (some (requestOf (cmdToString req.command :: req.args), (aofRecord req).length)) := by
    have here : (aofRecord req ++ rest).drop 0 =
        encode (recordOf req storable).elements ++ rest := by
      rw [List.drop_zero, aofRecord_eq counted]
      rfl
    have read := parse_encode (recordOf req storable) (plain_recordOf storable) here
    rw [read, Nat.zero_add, aofRecord_eq counted]
    rfl
  rw [← sameRequest_record counted]
  constructor
  · intro reads
    obtain ⟨back, read, same⟩ := reads []
    rw [parsed] at read
    obtain rfl : requestOf (cmdToString req.command :: req.args) = back := by simpa using read
    exact same
  · exact fun same rest => ⟨_, parsed rest, same⟩

theorem replaysAs_iff {reqs : List RespRequest} (fromParse : ∀ req ∈ reqs, FromParse req)
    (logged : ∀ req ∈ reqs, logs req.command = true) :
    ReplaysAs reqs (reqs.map aofRecord).flatten ↔
      ∀ req ∈ reqs, readsBack req.command = true := by
  have counted (req : RespRequest) (member : req ∈ reqs) : req.argc = req.args.length :=
    (fromParse req member).strings.2 (known_of_logs (logged req member))
  have isContent : (reqs.map aofRecord).flatten =
      (reqs.map fun req => encode (cmdToString req.command :: req.args)).flatten := by
    refine congrArg List.flatten (List.map_congr_left fun req member => ?_)
    exact aofRecord_eq (counted req member)
  obtain ⟨calls, reads, requests, lengths⟩ :=
    handleCalls_records (fun req member => (fromParse req member).strings.1) isContent []
  have pairs : List.Forall₂ SameRequest reqs (calls.map Call.request) ↔
      ∀ req ∈ reqs, readsBack req.command = true := by
    rw [requests, List.forall₂_map_right_iff, List.forall₂_same]
    refine forall₂_congr fun req member => ?_
    exact sameRequest_record (counted req member)
  rw [← pairs]
  constructor
  · rintro ⟨calls', reads', same, _⟩
    rw [reads, Prod.mk.injEq] at reads'
    exact reads'.1 ▸ same
  · exact fun same => ⟨calls, reads, same, lengths⟩

/-- The records of the append-only file are read back as their requests exactly where their commands
are not ZADD, ZREM or GEOADD, which `cmd_to_string` does not name. -/
theorem aof_round_trip_iff :
    (∀ req record, FromParse req → logs req.command = true → Appends D req record →
      (ReadsBack req record ↔
        req.command ≠ .zadd ∧ req.command ≠ .zrem ∧ req.command ≠ .geoadd)) ∧
    ∀ reqs : List RespRequest, (∀ req ∈ reqs, FromParse req) →
      (∀ req ∈ reqs, logs req.command = true) →
      (ReplaysAs reqs (reqs.map aofRecord).flatten ↔
        ∀ req ∈ reqs, req.command ≠ .zadd ∧ req.command ≠ .zrem ∧ req.command ≠ .geoadd) := by
  constructor
  · intro req record fromParse logged appends
    rw [appends.eq_aofRecord, readsBack_iff fromParse logged, readsBack_of_logs logged]
  · intro reqs fromParse logged
    rw [replaysAs_iff fromParse logged]
    exact forall₂_congr fun req member => readsBack_of_logs (logged req member)

/-- The record of a SET is replayed as the SET. -/
theorem aof_round_trip_set :
    ReplaysAs [requestOf [lit "SET", lit "k", lit "v"]]
      ([requestOf [lit "SET", lit "k", lit "v"]].map aofRecord).flatten := by
  refine ((aof_round_trip_iff (D := Int)).2 [requestOf [lit "SET", lit "k", lit "v"]] ?_
    (by decide +kernel)).mpr (by decide +kernel)
  intro req member
  obtain rfl := List.mem_singleton.mp member
  exact ⟨encode [lit "SET", lit "k", lit "v"] ++ [0], 0, _, 27, by decide +kernel, .inl rfl⟩

/-- A server whose append-only file is open. -/
def loggingWorld : World Int :=
  bootWorld { appendOnly := lit "yes" } ⟨some (lit "file a.aof seq 1 type i\n"), some []⟩
    (fun _ => 0) fun _ => []

/-- The record of a ZADD is read back as an unknown command. -/
theorem zadd_record_is_unknown :
    ¬ ∀ req record, FromParse req → logs req.command = true → Appends Int req record →
      ReadsBack req record := by
  intro allReadBack
  let req := requestOf [lit "ZADD", lit "z", lit "1", lit "m"]
  have fromParse : FromParse req :=
    ⟨encode [lit "ZADD", lit "z", lit "1", lit "m"] ++ [0], 0, _, 35, by decide +kernel, .inl rfl⟩
  have appends : Appends Int req (aofRecord req) :=
    ⟨loggingWorld, _, [], rfl, rfl, by decide +kernel, by decide +kernel⟩
  have named := (readsBack_iff fromParse rfl).mp (allReadBack req _ fromParse rfl appends)
  revert named
  decide +kernel

end RedisClone
