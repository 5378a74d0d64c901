import RedisClone.Parser
import RedisClone.Handler

/-! # `main.c`

The pieces of the event loop: the propagation to replicas, the timers, the connection table, one
pass over the ready descriptors, and the replay of the append-only file at the start.
-/

namespace RedisClone

open CString

variable {D : Type}

/-! ## Propagation -/

/-- `copy_request_toBuffer` into an array of the given size. -/
def copyRequestToBuffer (req : RespRequest) (bufferSize : Nat) : M D Buffer :=
  Buffer.appendAll bufferSize
    (arrayHeader (req.argc + 1) :: bulk (cmdToString req.command) :: req.args.map bulk) {}

/-- Log that a request was sent to a replica. -/
def notePassed (ptr : ClientPtr) (req : RespRequest) : M D Unit :=
  Exec.alter fun w => { w with passed := w.passed ++ [(ptr, req)] }

/-- The body of the loop of `pass_data_toReplica`. -/
def passTo (req : RespRequest) (slot : ClientSlot) : M D Unit := do
  match ← clientAt slot with
  | none => pure ()
  | some (ptr, client) =>
    if client.isReplica then do
      let requestAsStr ← copyRequestToBuffer req 1024
      requestAsStr.sendPrefix 1024 client.fd
      notePassed ptr req
    else pure ()

def passDataToReplica (req : RespRequest) : M D Unit :=
  if isWriteCmd req.command then forM clientSlots (passTo req) else pure ()

/-- What the event loop does after `handle`. -/
def propagate (ptr : ClientPtr) (call : Call) : M D Unit := do
  let client ← loadClient ptr
  let server ← config
  if client.fd = server.masterFd then
    setConfig fun server => { server with slaveReplOffset := server.slaveReplOffset + call.length }
  else do
    Exec.onlyIf (isWriteCmd call.request.command) <| setConfig fun server =>
      { server with masterReplOffset := server.masterReplOffset + call.length }
    passDataToReplica call.request

/-- The body of the parse loop for a request of `clients[i]`. -/
def serveRequest [Externals D] (slot : ClientSlot) (call : Call) : M D Unit := do
  match ← Exec.observe fun w => w.clients slot with
  | none => fault .nullDeref
  | some ptr => do
    handle call.request ptr
    propagate ptr call

/-! ## Timers -/

def activeSlots : M D (List ClientSlot) := do
  let active ← Exec.observe World.activeFds
  pure (clientSlots.filter fun slot => 1 ≤ slot.val ∧ slot.val < active)

/-- The timeout of a client blocked by XREAD. -/
def expireXread (now : Int) (slot : ClientSlot) : M D Unit := do
  match ← clientAt slot with
  | none => pure ()
  | some (ptr, client) =>
    if client.isBlocked ∧ client.timeoutAt ≠ 0 ∧ client.timeoutAt ≤ now ∧ ¬ client.isReplica ∧
        ¬ client.isWaiting ∧ ¬ client.isBlpop then do
      let watched ← Exec.observe fun w => w.watchList slot
      send watched.fd nilArray
      updateClient ptr fun client => { client with isBlocked := false }
    else pure ()

/-- The timeout of a client blocked by XREAD, then the one of a client blocked by BLPOP. -/
def expireClient (now : Int) (slot : ClientSlot) : M D Unit := do
  expireXread now slot
  let clientPtr ← Exec.observe fun w => w.clients slot
  handleEndblpop clientPtr

/-- Whether the time of the client behind `wait_client_fd` is over. -/
def waitTimedOut (now : Int) : List ClientSlot → (timedOut : Bool) → M D Bool
  | [], timedOut => pure timedOut
  | slot :: slots, timedOut => do
    match ← clientAt slot with
    | none => waitTimedOut now slots timedOut
    | some (_, client) => do
      let server ← config
      waitTimedOut now slots (timedOut ||
        (client.fd = server.waitClientFd ∧ client.timeoutAt ≠ 0 ∧ client.timeoutAt ≤ now))

/-- The `if` covers only the first of the two assignments. -/
def endWait (slot : ClientSlot) : M D Unit := do
  match ← clientAt slot with
  | none => fault .nullDeref
  | some (ptr, _) => do
    let server ← config
    updateClient ptr fun client =>
      { client with
        isBlocked := if client.fd = server.waitClientFd then false else client.isBlocked,
        isWaiting := false }

def completeWait (now : Int) : M D Unit := do
  let server ← config
  if server.waitClientFd = -1 then pure ()
  else do
    let count ← countReplicas clientSlots 0
    let slots ← activeSlots
    let timedOut ← waitTimedOut now slots false
    if server.wantedReplicas ≤ count ∨ timedOut then do
      send server.waitClientFd (integerReply count)
      forM slots endWait
      setConfig fun server => { server with waitClientFd := -1 }
    else pure ()

/-- What every pass does before it looks at the descriptors. -/
def runTimers : M D Unit := do
  let now ← getCurrentTimeMs
  let slots ← activeSlots
  forM slots (expireClient now)
  completeWait now

/-! ## Connections -/

/-- `calloc(1, sizeof(Client))` with the descriptor. -/
def newClient (fd : Int) : Client := { fd }

/-- A connection is accepted; `ptr` is the address that `calloc` returns. -/
def connect (fd : Int) (ptr : ClientPtr) : M D Unit := do
  let active ← Exec.observe World.activeFds
  if inRange : active < maxClients then
    Exec.alter fun w =>
      { w with
        watchList := Function.update w.watchList ⟨active, inRange⟩ ⟨fd, false⟩,
        clients := Function.update w.clients ⟨active, inRange⟩ (some ptr),
        heap := Function.update w.heap ptr (some (newClient fd)),
        activeFds := active + 1 }
  else pure ()

/-- `if (clients[i]) free(clients[i])` -/
def freeClient (slot : ClientSlot) : M D Unit := do
  match ← Exec.observe fun w => w.clients slot with
  | none => pure ()
  | some ptr => do
    let _ ← loadClient ptr
    Exec.alter fun w => { w with heap := Function.update w.heap ptr none }

/-- The last connection moves into the slot of the one that ended. -/
def disconnect (slot : ClientSlot) : M D Unit := do
  freeClient slot
  let active ← Exec.observe World.activeFds
  if inRange : active - 1 < maxClients then
    Exec.alter fun w =>
      let last : ClientSlot := ⟨active - 1, inRange⟩
      { w with
        watchList := Function.update (Function.update w.watchList slot (w.watchList last))
          last ⟨-1, false⟩,
        clients := Function.update (Function.update w.clients slot (w.clients last)) last none,
        activeFds := active - 1 }
  else fault .outOfBounds

/-! ## A pass over the descriptors -/

/-- What `recv` gives: nothing, or bytes and what the array holds behind them and their NUL. -/
inductive Received where
  | closed
  | data (bytes stale : Bytes)

/-- The parse loop over a received buffer. -/
def serveBuffer [Externals D] (slot : ClientSlot) (bytes stale : Bytes) : M D Unit :=
  parseLoop (bytes ++ 0 :: stale) bytes.length (serveRequest slot) bytes.length 0

/-- The outside of one pass: the descriptors that `poll` reports, the connection to accept, and
what each call of `recv` gives. -/
structure Arrivals where
  ready : ClientSlot → Bool
  accepted : Option (Int × ClientPtr)
  received : Nat → Received

/-- The round for the listening descriptor. -/
def acceptArrival : Option (Int × ClientPtr) → M D Unit
  | none => pure ()
  | some (fd, ptr) => connect fd ptr

/-- The loop over `watch_list` from index `i`.  A round moves to the next index or removes a
connection, so `fuel` is twice the size of the table. -/
def serveSlots [Externals D] (arrivals : Arrivals) : (fuel i : Nat) → M D Unit
  | 0, _ => pure ()
  | fuel + 1, i => do
    let active ← Exec.observe World.activeFds
    if active ≤ i then pure ()
    else if inRange : i < maxClients then do
      let slot : ClientSlot := ⟨i, inRange⟩
      let watched ← Exec.observe fun w => w.watchList slot
      if !watched.revents then serveSlots arrivals fuel (i + 1)
      else if i = 0 then do
        acceptArrival arrivals.accepted
        serveSlots arrivals fuel (i + 1)
      else
        match ← clientAt slot with
        | none => fault .nullDeref
        | some (_, client) =>
          if client.isBlocked ∧ ¬ client.isReplica ∧ ¬ client.isSubscribed then
            serveSlots arrivals fuel (i + 1)
          else
            match arrivals.received fuel with
            | .closed => do
              disconnect slot
              serveSlots arrivals fuel i
            | .data bytes stale => do
              serveBuffer slot bytes stale
              serveSlots arrivals fuel (i + 1)
    else fault .outOfBounds

/-- `poll` sets `revents` of the watched descriptors. -/
def setReady (ready : ClientSlot → Bool) : M D Unit :=
  Exec.alter fun w =>
    { w with
      watchList := fun slot =>
        if slot.val < w.activeFds then { w.watchList slot with revents := ready slot }
        else w.watchList slot }

/-- One round of `while(1)`; no arrivals stand for a `poll` that returns no descriptor. -/
def pollPass [Externals D] (arrivals : Option Arrivals) : M D Unit := do
  match arrivals with
  | none => runTimers
  | some arrivals => do
    setReady arrivals.ready
    runTimers
    serveSlots arrivals (2 * maxClients) 0

/-! ## The start -/

/-- What `stat` and `create_dir` find at the path of the append-only files: a directory, or none, where
`create_dir` can make it and open its two files, or cannot. -/
inductive DataDirectory where
  | present | creatable | unusable
  deriving DecidableEq, Repr

/-- `create_dir`.  Where a file cannot be opened it returns before it copies the two paths, and `fopen` of
an empty path fails. -/
def createDir (directory : DataDirectory) : M D Unit :=
  Exec.alter fun w =>
    { w with
      files :=
        if directory = .unusable then ⟨none, none⟩
        else
          { manifest := some (lit "file " ++ w.serverConfig.appendfilename ++
              lit ".1.incr.aof seq 1 type i\n"),
            aof := some [] } }

/-- `fakeClient` of the replay, on the stack; a new one for every record. -/
def replayClient : Client := { fd := 0, isMaster := true }

/-- `handle(&req, &fakeClient)` -/
def replayRequest [Externals D] (fakeClient : ClientPtr) (call : Call) : M D Unit := do
  Exec.alter fun w => w.setClient fakeClient replayClient
  handle call.request fakeClient

/-- The loop over the contents of the append-only file, read into a block of its size and one. -/
def replay [Externals D] (fakeClient : ClientPtr) (content : Bytes) : M D Unit :=
  parseLoop (content ++ [0]) content.length (replayRequest fakeClient) content.length 0

/-- The part of `rdb_config_handler` after the arguments. -/
def rdbConfigHandler [Externals D] (directory : DataDirectory) (fakeClient : ClientPtr) :
    M D Unit := do
  let server ← config
  let appendOnly ← toUpperCopy server.appendOnly
  if appendOnly = lit "YES" ∧ directory ≠ .present then createDir directory
  else do
    let appendOnly ← toUpperCopy server.appendOnly
    if appendOnly = lit "YES" ∧ directory = .present then do
      let files ← Exec.observe World.files
      match files.manifest with
      | none => fault .nullDeref
      | some manifest =>
        match activeAofName manifest with
        -- the name stays unset, and no file of that name can be read
        | none => fault .nullDeref
        | some name => do
          setConfig fun server => { server with appendfilename := name.take 255 }
          match files.aof with
          | none => fault .nullDeref
          | some content => replay fakeClient content
    else pure ()

/-- `add_master_to_watchlist`; `ptr` is the address that `calloc` returns. -/
def addMasterToWatchlist (ptr : ClientPtr) : M D Unit := do
  let active ← Exec.observe World.activeFds
  let server ← config
  if inRange : active < maxClients then
    Exec.alter fun w =>
      { w with
        watchList := Function.update w.watchList ⟨active, inRange⟩ ⟨server.masterFd, false⟩,
        clients := Function.update w.clients ⟨active, inRange⟩ (some ptr),
        heap := Function.update w.heap ptr (some { newClient server.masterFd with isMaster := true }),
        activeFds := active + 1 }
  else fault .outOfBounds

/-- The body of the loop of `do_slave_handshake`. -/
def serveHandshake [Externals D] (call : Call) : M D Unit := do
  let active ← Exec.observe World.activeFds
  if inRange : active - 1 < maxClients then
    match ← Exec.observe fun w => w.clients ⟨active - 1, inRange⟩ with
    | none => fault .nullDeref
    | some ptr => do
      handle call.request ptr
      setConfig fun server => { server with slaveReplOffset := server.slaveReplOffset + call.length }
  else fault .outOfBounds

/-- The part of `do_slave_handshake` after `drain_rdb`, which gives the index `afterRdb`. -/
def joinMaster [Externals D] (ptr : ClientPtr) (bytes stale : Bytes) (afterRdb : Nat) : M D Unit := do
  addMasterToWatchlist ptr
  parseLoop (bytes ++ 0 :: stale) bytes.length serveHandshake bytes.length afterRdb

/-- What `main` resets between the handshake and its loop. -/
def resetForLoop : M D Unit :=
  Exec.alter fun w =>
    { w with watchers := fun _ => none, serverConfig := { w.serverConfig with waitClientFd := -1 } }

/-- What `main` resets before its loop; the stack of `rdb_config_handler` is gone. -/
def enterLoop (fakeClient : ClientPtr) : M D Unit :=
  Exec.alter fun w =>
    { w with
      heap := Function.update w.heap fakeClient none,
      watchers := fun _ => none,
      serverConfig := { w.serverConfig with waitClientFd := -1 } }

/-- The start of a master, up to its loop. -/
def start [Externals D] (directory : DataDirectory) (fakeClient : ClientPtr) : M D Unit := do
  rdbConfigHandler directory fakeClient
  enterLoop fakeClient

end RedisClone
