import RedisClone.Utils

/-! # `utility_handler.c`, and the two commands of `rdb_handler.c` -/

namespace RedisClone

open CString

variable {D : Type}

/-! ## Information and replication -/

def handleInfo (req : RespRequest) (clientFd : Int) : M D Unit :=
  if req.argc < 1 then pure ()
  else do
    let part ← req.arg 0
    if upper part = lit "REPLICATION" then do
      let server ← config
      let infoContent := lit "role:" ++ server.role ++ lit "\r\nmaster_replid:" ++
        server.masterReplid ++ lit "\r\nmaster_repl_offset:" ++
        decimalInt server.masterReplOffset ++ crlf
      sendText 1200 clientFd
        (lit "$" ++ decimal infoContent.length ++ crlf ++ infoContent.take 1023 ++ crlf)
    else pure ()

def replconfHandleGetack (clientFd : Int) : M D Unit := do
  let server ← config
  send clientFd
    (lit "*3\r\n$8\r\nREPLCONF\r\n$3\r\nACK\r\n" ++ bulk (decimalInt server.slaveReplOffset))

def replconfHandleAck (request : RespRequest) (ptr : ClientPtr) : M D Unit :=
  if request.argc < 2 then pure ()
  else do
    let offset ← request.arg 1
    updateClient ptr fun client => { client with replOffset := atoll offset }

/-- The number of replicas whose acknowledged offset has reached `captured_master_offset`. -/
def countReplicas : List ClientSlot → (count : Nat) → M D Nat
  | [], count => pure count
  | slot :: slots, count => do
    match ← clientAt slot with
    | none => countReplicas slots count
    | some (_, client) => do
      let server ← config
      if client.isReplica ∧ server.capturedMasterOffset ≤ client.replOffset then
        countReplicas slots (count + 1)
      else countReplicas slots count

def getackRequest : Bytes := lit "*3\r\n$8\r\nREPLCONF\r\n$6\r\nGETACK\r\n$1\r\n*\r\n"

/-- Ask the client in a slot for its offset, if it is a replica. -/
def askReplica (slot : ClientSlot) : M D Unit := do
  match ← clientAt slot with
  | none => pure ()
  | some (_, client) => if client.isReplica then send client.fd getackRequest else pure ()

/-- The deadline `ms` from now, a `long long`; 0 for a wait without end. -/
def timeoutAfter (ms : Int) : M D Int :=
  if ms = 0 then pure 0
  else do
    let now ← getCurrentTimeMs
    if now + ms < -2 ^ 63 ∨ 2 ^ 63 ≤ now + ms then fault .overflow else pure (now + ms)

/-- The loop that marks the first client with the descriptor as waiting. -/
def markWaiting (clientFd ms : Int) : List ClientSlot → M D Unit
  | [] => pure ()
  | slot :: slots => do
    match ← clientAt slot with
    | none => markWaiting clientFd ms slots
    | some (ptr, client) =>
      if client.fd = clientFd then do
        let timeoutAt ← timeoutAfter ms
        updateClient ptr fun client =>
          { client with isWaiting := true, isBlocked := true, timeoutAt := timeoutAt }
      else markWaiting clientFd ms slots

def handleWait (req : RespRequest) (clientFd : Int) : M D Unit := do
  setConfig fun server => { server with capturedMasterOffset := server.masterReplOffset }
  let wanted := atoi (← req.arg 0)
  let ms := atoll (← req.arg 1)
  setConfig fun server => { server with wantedReplicas := wanted }
  let count ← countReplicas clientSlots 0
  if wanted ≤ count then send clientFd (integerReply count)
  else do
    setConfig fun server => { server with waitClientFd := clientFd }
    forM clientSlots askReplica
    markWaiting clientFd ms clientSlots

/-- `empty_rdb` -/
def emptyRdb : Bytes :=
  [0x52, 0x45, 0x44, 0x49, 0x53, 0x30, 0x30, 0x31, 0x31, 0xff, 0, 0, 0, 0, 0, 0, 0, 0]

/-- The PSYNC arm of `handle`. -/
def handlePsyncRequest (ptr : ClientPtr) (clientFd : Int) : M D Unit := do
  let server ← config
  sendText 1024 clientFd (lit "+FULLRESYNC " ++ server.masterReplid ++ lit " " ++
    decimalInt server.masterReplOffset ++ crlf)
  send clientFd (lit "$" ++ decimal emptyRdb.length ++ crlf)
  send clientFd emptyRdb
  updateClient ptr fun client => { client with isReplica := true }

/-! ## CONFIG GET and KEYS -/

/-- The parameter's upper-case name, the size of its message array, the name in the reply, and the
value.  The name in the reply to DBFILENAME is the one of DIR. -/
def configParameters (server : RedisConfig) : List (Bytes × Nat × Bytes × Bytes) :=
  [(lit "DIR", 2048, lit "dir", server.rdbDirectory),
   (lit "DBFILENAME", 2048, lit "dir", server.rdbName),
   (lit "APPENDONLY", 1024, lit "appendonly", server.appendOnly),
   (lit "APPENDDIRNAME", 2048, lit "appenddirname", server.appenddirname),
   (lit "APPENDFILENAME", 1024, lit "appendfilename", server.appendfilename),
   (lit "APPENDFSYNC", 1024, lit "appendfsync", server.appendfsync)]

def handleConfig (req : RespRequest) (clientFd : Int) : M D Unit :=
  if 2 < req.argc then pure ()
  else do
    let parameter ← req.arg 0
    let server ← config
    match (configParameters server).lookup (upper parameter) with
    | none => pure ()
    | some (size, name, value) =>
      sendText size clientFd (lit "*2\r\n" ++ bulk name ++ bulk value)

/-- The keys of the buckets, in the order of the walk; the walk follows every `next`. -/
def keysOf : List Bucket → M D (List Bytes)
  | [] => pure []
  | bucket :: buckets => do
    let table ← Exec.observe World.table
    if (table bucket).wild then fault .wildPointer
    else do
      let keys ← keysOf buckets
      pure ((table bucket).nodes.map Prod.fst ++ keys)

/-- At most 256 keys are kept. -/
def handleKey (clientFd : Int) : M D Unit := do
  let keys ← keysOf (List.finRange tableSize)
  let keys := keys.take 256
  let resp ← Buffer.appendAll 8192 (arrayHeader keys.length :: keys.map bulk) {}
  resp.sendPrefix 8192 clientFd

end RedisClone
