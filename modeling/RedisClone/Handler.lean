import RedisClone.ListHandler
import RedisClone.SetHandler
import RedisClone.ChannelsHandler
import RedisClone.AuthHandler
import RedisClone.UtilityHandler
import RedisClone.TransactionHandler

/-! # `handler.c` -/

namespace RedisClone

open CString

variable {D : Type}

/-! ## Strings -/

/-- The loop of `handle_set_flags` over `args[2..argc)`. -/
def setFlagsFrom : List Bytes → Int × TimeFlags
  | word :: next :: rest =>
    if word = lit "EX" then (atoi next, .ex)
    else if word = lit "PX" then (atoi next, .px)
    else setFlagsFrom (next :: rest)
  | _ => (-1, .noTimeFlag)

def handleSetFlags (req : RespRequest) : Int × TimeFlags :=
  if req.argc ≤ 3 then (-1, .noTimeFlag) else setFlagsFrom (req.args.drop 2)

def handleEcho (req : RespRequest) (clientFd : Int) : M D Unit := do
  let word ← req.arg 0
  sendText 1024 clientFd (bulk word)

def handleGet (req : RespRequest) (clientFd : Int) : M D Unit := do
  let key ← req.arg 0
  match ← storeGet key with
  | none => send clientFd nilReply
  | some value => do
    let text ← asString value
    sendText 1024 clientFd (bulk text)

def typeReply : RedisType → Bytes
  | .string => lit "+string\r\n"
  | .list => lit "+list\r\n"
  | .hash => lit "+hash\r\n"
  | .zset => lit "+zset\r\n"
  | .set => lit "+set\r\n"
  | .stream => lit "+stream\r\n"

def handleType (req : RespRequest) (clientFd : Int) : M D Unit := do
  let key ← req.arg 0
  match ← storeGetEntry key with
  | none => send clientFd (lit "+none\r\n")
  | some entry => send clientFd (typeReply entry.type)

/-! ## XADD -/

/-- `sscanf(id, "%63[^-]-%63s", ms, seq)`: the texts that are assigned. -/
def scanIdTexts (id : Bytes) : Option Bytes × Option Bytes :=
  let ms := (id.takeWhile (· ≠ 45)).take 63
  if ms = [] then (none, none)
  else
    match id.drop ms.length with
    | 45 :: rest =>
      let seq := ((rest.dropWhile isspace).takeWhile fun c => !isspace c).take 63
      (some ms, if seq = [] then none else some seq)
    | _ => (some ms, none)

/-- What a 64-byte array holds: the text `sscanf` assigned, or its stale contents. -/
def scannedText : Option Bytes → M D Bytes
  | some text => pure text
  | none => do
    let block ← indeterminate
    pure (untilNul (block.take 64))

def invalidId : Bytes := lit "-ERR Invalid stream ID specified\r\n"

/-- `validate_stream_id`: the error message, `none` for a valid ID. -/
def validateStreamId (id tailId : Bytes) : M D (Option Bytes) :=
  if id = lit "*" then pure none
  else if !strstr id (lit "-") then pure (some invalidId)
  else do
    let ms ← scannedText (scanIdTexts id).1
    let seq ← scannedText (scanIdTexts id).2
    if ms = lit "*" then pure (some invalidId)
    else if seq = lit "*" ∧ 0 ≤ atoi ms then
      pure (if (scanInteger ms).isNone then some invalidId else none)
    else
      match scanPair id with
      | (some requestIdMs, some requestIdSeq) =>
        if requestIdMs = 0 ∧ requestIdSeq = 0 then
          pure (some (lit "-ERR The ID specified in XADD must be greater than 0-0\r\n"))
        else do
          let bigger ← isBigger tailId id
          if !bigger then
            pure (some (lit ("-ERR The ID specified in XADD is equal or smaller than " ++
              "the target stream top item\r\n")))
          else pure none
      | _ => pure (some invalidId)

/-- `last_seq + 1`, which overflows at the greatest `long long`. -/
def nextSeq (stream : Stream) : M D Int :=
  if stream.lastSeq = 2 ^ 63 - 1 then fault .overflow else pure (stream.lastSeq + 1)

/-- The sequence number of the first entry of a millisecond. -/
def firstSeq (ms : Int) : Int := if ms = 0 then 1 else 0

/-- The two numbers of a generated ID. -/
def generatedPair (stream : Stream) (id : Bytes) (now : Int) : M D (Int × Int) :=
  if strstr id (lit "-*") then do
    -- `sscanf(id, "%lld-*", &finalMs)`
    let finalMs ← scanned ((scanInteger id).map Prod.fst)
    if finalMs = stream.lastMs then do
      let seq ← nextSeq stream
      pure (finalMs, seq)
    else pure (finalMs, firstSeq finalMs)
  else if stream.entries = [] then pure (now, firstSeq now)
  else if stream.lastMs < now then pure (now, 0)
  else do
    let seq ← nextSeq stream
    pure (stream.lastMs, seq)

def generateId (stream : Stream) (id : Bytes) : M D Bytes := do
  let now ← getCurrentTimeMs
  let (finalMs, finalSeq) ← generatedPair stream id now
  pure (decimalInt finalMs ++ lit "-" ++ decimalInt finalSeq)

/-- `wrapXreadResponse` -/
def wrapXreadResponse (key messages : Bytes) (msgCount : Nat) : Bytes :=
  if msgCount = 0 then emptyArray
  else lit "*1\r\n*2\r\n" ++ bulk key ++ arrayHeader msgCount ++ messages

def tryDeliverStreamData (ptr : ClientPtr) : M D Unit := do
  let client ← loadClient ptr
  match client.isBlocked, client.waitingForKey, client.minId with
  | true, some key, some minId => do
    let (messages, count) ← streamEntryXreadToString (pure minId) (lit "+") key
    match messages with
    | none => pure ()
    | some messages =>
      if 0 < count then do
        send client.fd (wrapXreadResponse key messages count)
        updateClient ptr fun client =>
          { client with isBlocked := false, waitingForKey := none, minId := none }
      else pure ()
  | _, _, _ => pure ()

/-- The body of the loop at the end of `handle_set_stream`. -/
def wakeStreamReader (key : Bytes) (slot : ClientSlot) : M D Unit := do
  match ← clientAt slot with
  | none => pure ()
  | some (ptr, client) =>
    if client.isBlocked ∧ client.waitingForKey = some key then tryDeliverStreamData ptr
    else pure ()

/-- `store_set_stream(key, stream)` for the stream that `store_getEntry(key)` found, or for a new one.
The payload of the first node is freed before it is replaced: in the node of the key, the stream itself. -/
def storeOpened (key : Bytes) (stream : Stream) : M D Unit := do
  let bucket ← tableIndex key
  let table ← Exec.observe World.table
  if (table bucket).nodes.head?.map Prod.fst = some key then fault .useAfterFree
  else storeSetStream key stream

/-- The first entry of a stream is stored with `store_set_stream`, a later one is linked behind
`tail`. -/
def appendEntry (key : Bytes) (stream : Stream) (entry : StreamEntry) (ms seq : Int) :
    M D Unit :=
  let appended : Stream :=
    ⟨stream.entries ++ [entry], some entry, ms, seq, stream.length + 1⟩
  if stream.entries = [] then storeOpened key appended
  else if stream.tail = none then fault .nullDeref
  else updateEntry key (.stream appended)

/-- `send(client_fd, response, len, 0)`.  Where `len` exceeds the 128 bytes of `response`, what the stack
holds behind them is sent too, and the call goes on. -/
def sendEntryId (clientFd : Int) (id : Bytes) : M D Unit := do
  if clientFd ≠ (← config).masterFd then
    if (bulk id).length ≤ 128 then
      Buffer.sendPrefix 128 ⟨(bulk id).take 127, (bulk id).length⟩ clientFd
    else do
      let behind ← staleBytes ((bulk id).length - 128)
      send clientFd ((bulk id).take 127 ++ 0 :: behind)
  else pure ()

/-- A stream that has a last entry takes only IDs behind it. -/
def checkStreamId (id : Bytes) : Option StreamEntry → M D (Option Bytes)
  | some tail => validateStreamId id tail.id
  | none => pure none

/-- The ID of the new entry, generated where the request has a `*` in it. -/
def chooseId (stream : Stream) (id : Bytes) : M D Bytes :=
  if strchr id 42 then generateId stream id else pure id

def handleSetStream (req : RespRequest) (clientFd : Int) : M D Unit := do
  let key ← req.arg 0
  let stream ← withPayload key asStream (pure ⟨[], none, 0, 0, 0⟩) pure
  let id ← req.arg 1
  match ← checkStreamId id stream.tail with
  | some errorResp => sendUnlessMaster clientFd errorResp
  | none => do
    let entryId ← chooseId stream id
    let (ms, seq) ← scanId entryId
    appendEntry key stream ⟨entryId, req.args.drop 2⟩ ms seq
    sendEntryId clientFd entryId
    forM clientSlots (wakeStreamReader key)

/-- No caller stores any other type. -/
def handleSet (req : RespRequest) (type : RedisType) (clientFd : Int) : M D Unit :=
  if req.argc < 2 then pure ()
  else
    match type with
    | .stream => handleSetStream req clientFd
    | .string => do
      let (seconds, time) := handleSetFlags req
      let key ← req.arg 0
      let value ← req.arg 1
      storeSet key (.string value) time seconds
      sendUnlessMaster clientFd okReply
    | _ => pure ()

/-! ## The append-only file -/

/-- `sscanf(line, "file %s seq", name) == 1` -/
def manifestName (line : Bytes) : Option Bytes :=
  if (lit "file").isPrefixOf line then
    let name := ((line.drop 4).dropWhile isspace).takeWhile fun c => !isspace c
    if name = [] then none else some name
  else none

/-- The lines `fgets(line, 1024, file)` returns. -/
def fileLines (room : Nat) : Bytes → List Bytes
  | [] => []
  | c :: rest =>
    match room with
    | 0 => [c] :: fileLines 1022 rest
    | room + 1 =>
      if c = 10 then [c] :: fileLines 1022 rest
      else
        match fileLines room rest with
        | [] => [[c]]
        | line :: lines => (c :: line) :: lines

/-- The name of the active file: the first line with `type i` that names one. -/
def activeAofName (manifest : Bytes) : Option Bytes :=
  ((fileLines 1022 manifest).map untilNul).findSome? fun line =>
    if strstr line (lit "type i") then manifestName line else none

/-- `write_to_file` writes this for one request. -/
def aofRecord (req : RespRequest) : Bytes :=
  arrayHeader (req.argc + 1) ++ bulk (cmdToString req.command) ++ (req.args.map bulk).flatten

/-- The copy of the active name into `appendfilename`, an array of 256 bytes. -/
def recordActiveName (manifest : Bytes) : M D Unit :=
  match activeAofName manifest with
  | none => pure ()
  | some name =>
    if 256 ≤ name.length then fault .outOfBounds
    else setConfig fun server => { server with appendfilename := name }

def appendAof (record : Bytes) : M D Unit :=
  Exec.alter fun w => { w with files := { w.files with aof := w.files.aof.map (· ++ record) } }

def writeToFile (req : RespRequest) : M D Unit := do
  let server ← config
  let appendOnly ← toUpperCopy server.appendOnly
  if appendOnly ≠ lit "YES" then pure ()
  else do
    let files ← Exec.observe World.files
    match files.manifest with
    | none => fault .nullDeref
    | some manifest => do
      recordActiveName manifest
      appendAof (aofRecord req)

/-! ## XREAD and XRANGE -/

/-- The loop of `is_multiple_key`, which does not stop at `argc`. -/
def findStreams (index : Nat) : List Bytes → M D Nat
  | [] => fault .missingArg
  | word :: rest => do
    let upperWord ← toUpperCopy word
    if upperWord = lit "STREAMS" then pure index else findStreams (index + 1) rest

/-- `is_multiple_key`: `streamIndex` and `streamsLength`, where it returns 0. -/
def isMultipleKey (req : RespRequest) : M D (Option (Nat × Nat)) := do
  let index ← findStreams 0 req.args
  let rest := req.argc - index - 1
  if rest.tmod 2 = 0 ∧ 4 ≤ rest then pure (some (index, (rest.tdiv 2).toNat)) else pure none

/-- The loop of `hasBlock` from index `i`: `blockIndex`, where it returns 0. -/
def hasBlockFrom (i : Nat) : List Bytes → M D (Option Nat)
  | [] => pure none
  | word :: rest => do
    let wordInUpper ← toUpperCopy word
    if strstr wordInUpper (lit "BLOCK") ∧ rest ≠ [] then pure (some i)
    else hasBlockFrom (i + 1) rest

def hasBlock (request : RespRequest) : M D (Option Nat) := hasBlockFrom 0 request.args

def hasDollarSign (request : RespRequest) : Bool :=
  request.args.any fun word => strstr word (lit "$")

/-- `handle_block_dollar`: the messages with their count, and `min_id`. -/
def handleBlockDollar (req : RespRequest) : M D (Option Bytes × Nat × Bytes) :=
  if hasDollarSign req then do
    let key ← req.arg 3
    match ← lastStreamEntry key with
    | none => do
      let (messages, count) ← streamEntryXreadToString (req.arg 4) (lit "+") key
      let minId ← req.arg 4
      pure (messages, count, minId)
    | some entry => do
      let (messages, count) ← streamEntryXreadToString (pure entry.id) (lit "+") key
      pure (messages, count, entry.id)
  else do
    let minId ← req.arg 4
    pure (none, 0, minId)

/-- The two copy loops of `handle_multiple_xread`.  The arrays have room for half of the keys. -/
def copyToArrays (streamsLength : Nat) (words : List Bytes) : M D (List (Bytes × Bytes)) :=
  if streamsLength / 2 < streamsLength then fault .outOfBounds
  else pure ((words.take streamsLength).zip ((words.drop streamsLength).take streamsLength))

def handleMultipleXread (req : RespRequest) (streamIndex streamsLength : Nat) :
    M D (Option Bytes) := do
  let pairs ← copyToArrays streamsLength (req.args.drop (streamIndex + 1))
  streamEntryXreadMulToString pairs

/-- `handle_single_xread`: `none` where it returns 1. -/
def handleSingleXread (req : RespRequest) (ptr : ClientPtr) : M D (Option Bytes) := do
  match ← hasBlock req with
  | some blockIndex => do
    req.printArg 3
    req.printArg 4
    -- one reading of the clock is printed only
    let _ ← getCurrentTimeMs
    let ms := atoi (← req.arg (blockIndex + 1))
    let timeoutAt ← timeoutAfter ms
    updateClient ptr fun client => { client with timeoutAt := timeoutAt }
    let (messages, count, minId) ← handleBlockDollar req
    updateClient ptr fun client => { client with minId := some minId }
    let key ← req.arg 3
    if messages.getD [] ≠ [] ∧ 0 < count then
      pure (some (wrapXreadResponse key (messages.getD []) count))
    else do
      updateClient ptr fun client =>
        { client with isBlocked := true, waitingForKey := some key }
      pure none
  | none => do
    req.printArg 1
    let client ← loadClient ptr
    let key ← req.arg 1
    match ← storeGetEntry key with
    | none => do
      send client.fd emptyArray
      pure none
    | some _ => do
      let (messages, count) ← streamEntryXreadToString (req.arg 2) (lit "+") key
      match messages with
      | none => do
        send client.fd emptyArray
        pure none
      | some messages =>
        if count = 0 then do
          send client.fd emptyArray
          pure none
        else pure (some (wrapXreadResponse key messages count))

/-- `build_client`: whether it returns 1.  It frees the address of a local variable. -/
def buildClient (req : RespRequest) (ptr : ClientPtr) : M D Bool := do
  match ← hasBlock req with
  | none => pure false
  | some blockIndex => do
    let ms := atoi (← req.arg (blockIndex + 1))
    let timeoutAt ← timeoutAfter ms
    let minId ← req.arg 2
    let key ← req.arg 1
    updateClient ptr fun client =>
      { client with
        timeoutAt := timeoutAt, isBlocked := true, minId := some minId, waitingForKey := some key }
    fault .invalidFree

/-- `handle_xread`: `none` where it returns 1, else `*response`. -/
def handleXread (req : RespRequest) (ptr : ClientPtr) : M D (Option (Option Bytes)) := do
  match ← isMultipleKey req with
  | some (streamIndex, streamsLength) => do
    let response ← handleMultipleXread req streamIndex streamsLength
    match response with
    | some response => pure (some (some response))
    | none => do
      let blocked ← buildClient req ptr
      if blocked then pure none else pure (some none)
  | none => do
    match ← handleSingleXread req ptr with
    | none => pure none
    | some response => pure (some (some response))

def sendStreamResponse (clientFd : Int) : Option Bytes → M D Unit
  | none => do
    send clientFd (lit "-ERR Internal error\r\n")
    send clientFd emptyArray
  | some response => send clientFd response

def handleStreamPrint (req : RespRequest) (ptr : ClientPtr) (clientFd : Int) (cmd : RedisCmds) :
    M D Unit := do
  req.printArg 0
  if cmd = .xrange then do
    let key ← req.arg 0
    let (response, _) ← streamEntryToString (req.arg 1) (req.arg 2) key
    sendStreamResponse clientFd response
  else do
    match ← handleXread req ptr with
    | none => pure ()
    | some response => sendStreamResponse clientFd response

/-! ## The dispatcher -/

def handlePing (client : Client) : M D Unit :=
  if !client.isMaster && !client.isSubscribed then send client.fd (lit "+PONG\r\n")
  else if client.isSubscribed then send client.fd (lit "*2\r\n$4\r\npong\r\n$0\r\n\r\n")
  else pure ()

def handleReplconfRequest (req : RespRequest) (ptr : ClientPtr) (client : Client) : M D Unit := do
  req.printArg 0
  if req.argc < 1 then send client.fd okReply
  else do
    let subCmd ← req.arg 0
    if upper subCmd = lit "GETACK" ∧ client.isMaster then replconfHandleGetack client.fd
    else if upper subCmd = lit "ACK" then replconfHandleAck req ptr
    else send client.fd okReply

/-- `notify_watchers(req->args[0])` -/
def notifyFirst (req : RespRequest) : M D Unit := do
  let key ← req.arg 0
  notifyWatchers key

/-- The end of most writing arms: `notify_watchers(req->args[0]); write_to_file(req)`. -/
def afterWrite (req : RespRequest) : M D Unit := do
  notifyFirst req
  writeToFile req

/-- Log that the arm of a write command was reached. -/
def noteExecuted (req : RespRequest) : M D Unit :=
  Exec.alter fun w =>
    { w with executed := if isWriteCmd req.command then w.executed ++ [req] else w.executed }

/-- The arms of `handle` after its guards. -/
def dispatch [Externals D] (req : RespRequest) (ptr : ClientPtr) : M D Unit := do
  let client ← loadClient ptr
  noteExecuted req
  match req.command with
  | .echo => handleEcho req client.fd
  | .ping => handlePing client
  | .info => handleInfo req client.fd
  | .replconf => handleReplconfRequest req ptr client
  | .psync => handlePsyncRequest ptr client.fd
  | .wait => handleWait req client.fd
  | .keys => handleKey client.fd
  | .select | .command => send client.fd okReply
  | .auth => handleAuth req ptr
  | .acl => handleAcl req ptr
  | .configGet => handleConfig req client.fd
  | .set => do handleSet req .string client.fd; afterWrite req
  | .get => handleGet req client.fd
  | .del => afterWrite req
  | .exists | .expire | .ttl => pure ()
  | .type => handleType req client.fd
  | .incr => do handleIncr req client.fd; afterWrite req
  | .decr | .append => afterWrite req
  | .strlen | .mget => pure ()
  | .lpush => do handleLpush req client.fd; afterWrite req
  | .rpush => do handleRpush req client.fd; afterWrite req
  | .lpop => do handleLpop req client.fd; afterWrite req
  | .rpop => afterWrite req
  | .lrange => handleLrange req client.fd
  | .llen => handleLlen req client.fd
  | .blpop => handleBlpop req ptr
  | .hset | .hdel => afterWrite req
  | .hget | .hgetall => pure ()
  | .sadd | .srem | .smembers | .sismember => pure ()
  | .zadd => do handleZadd req client.fd; afterWrite req
  | .zrank => do handleZrank req client.fd; notifyFirst req
  | .zrange => handleZrange req client.fd
  | .zcard => handleZcard req client.fd
  | .zscore => handleZscore req client.fd
  | .zrem => do handleZrem req client.fd; afterWrite req
  | .geoadd => do handleGeoadd req client.fd; afterWrite req
  | .geopos => handleGeopos req client.fd
  | .geodist => handleGeodist req client.fd
  | .geosearch => handleGeosearch req client.fd
  | .xadd => do handleSet req .stream client.fd; afterWrite req
  | .xread | .xrange => handleStreamPrint req ptr client.fd req.command
  | .xgroup => pure ()
  | .subscribe => handleSubscribe req ptr
  | .publish => handlePublish req client.fd
  | .unsubscribe => handleUnsubscribe req ptr
  | .multi | .exec | .discard | .watch | .unwatch | .unknown => do
    req.printArg 0
    send client.fd (lit "-ERR unknown command\r\n")

/-- The commands that are handled at once inside MULTI. -/
def isTransactionCmd : RedisCmds → Bool
  | .multi | .exec | .discard | .watch | .unwatch => true
  | _ => false

/-- The commands that a subscribed client may send. -/
def isChannelCmd : RedisCmds → Bool
  | .subscribe | .unsubscribe | .ping => true
  | _ => false

def subscribedError (cmd : RedisCmds) : Bytes :=
  lit "-ERR Can't execute '" ++ cmdToString cmd ++
    lit ("' only (P|S)SUBSCRIBE / (P|S)UNSUBSCRIBE / PING / QUIT / RESET " ++
      "are allowed in this context\r\n")

/-- The arms that no transaction command takes: the guard of subscribed clients, then the arms. -/
def handleCommand [Externals D] (req : RespRequest) (ptr : ClientPtr) : M D Unit := do
  let client ← loadClient ptr
  if client.isSubscribed && !isChannelCmd req.command then
    sendText 128 client.fd (subscribedError req.command)
  else dispatch req ptr

/-- `handle`, over the `handle_exec` that it calls. -/
def handleWith [Externals D] (exec : ClientPtr → M D Unit) (req : RespRequest) (ptr : ClientPtr) :
    M D Unit := do
  let client ← loadClient ptr
  if client.isQueued && !isTransactionCmd req.command then queueCommand req ptr
  else
    match req.command with
    | .multi => handleMulti ptr
    | .exec => exec ptr
    | .discard => handleDiscard ptr
    | .watch => handleWatch req ptr
    | .unwatch => handleUnwatch ptr
    | _ => handleCommand req ptr

/-- `handle_exec` for a client that is not in a transaction, which calls no `handle`. -/
def execWithoutMulti (ptr : ClientPtr) : M D Unit := handleExec (fun _ _ => pure ()) ptr

/-- `handle` and `handle_exec` call each other.  `handle_exec` clears `is_queued` before every
call, so an EXEC among the queued commands replies with an error and the calls go no deeper. -/
def handle [Externals D] : RespRequest → ClientPtr → M D Unit :=
  handleWith (handleExec (handleWith execWithoutMulti))

end RedisClone
