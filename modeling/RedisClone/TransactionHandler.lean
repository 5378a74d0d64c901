import RedisClone.Utils

/-! # `transaction_handler.c`, and the watch list of `handler.c` -/

namespace RedisClone

open CString

variable {D : Type}

/-! ## Watchers -/

def setWatchers (bucket : Bucket) (clientList : ClientsWatch) : M D Unit :=
  Exec.alter fun w => { w with watchers := Function.update w.watchers bucket (some clientList) }

/-- The clients of a bucket that a key hashes to; none where nothing was ever watched. -/
def watchersOf (key : Bytes) : M D ClientsWatch := do
  let bucket ← tableIndex key
  let watchers ← Exec.observe World.watchers
  pure ((watchers bucket).getD [])

/-- `if (client != NULL) client->is_dirty = 1` -/
def markDirty : Option ClientPtr → M D Unit
  | none => pure ()
  | some ptr => updateClient ptr fun client => { client with isDirty := true }

def notifyWatchers (key : Bytes) : M D Unit := do
  let clientList ← watchersOf key
  forM clientList markDirty

/-- The inner loop of `delete_watched_keys`.  It frees the key once for every slot that holds the
client. -/
def deregister (ptr : ClientPtr) (key : Bytes) : M D Unit := do
  let bucket ← tableIndex key
  let watchers ← Exec.observe World.watchers
  match watchers bucket with
  | none => pure ()
  | some clientList =>
    if 1 < clientList.count (some ptr) then fault .doubleFree
    else setWatchers bucket (clientList.map fun slot => if slot = some ptr then none else slot)

def deleteWatchedKeys (ptr : ClientPtr) : M D Unit := do
  let client ← loadClient ptr
  forM client.watchKeys (deregister ptr)
  updateClient ptr fun client => { client with watchKeys := [], isDirty := false }

/-- Store the client in the next slot of the bucket's `clientList`. -/
def register (ptr : ClientPtr) (key : Bytes) : M D Unit := do
  let bucket ← tableIndex key
  let watchers ← Exec.observe World.watchers
  let clientList := (watchers bucket).getD []
  if maxClients ≤ clientList.length then fault .outOfBounds
  else setWatchers bucket (clientList ++ [some ptr])

/-- The body of the loop of `handle_watch`. -/
def watchKey (ptr : ClientPtr) (key : Bytes) : M D Unit := do
  let client ← loadClient ptr
  if maxWatchKeys ≤ client.watchKeys.length then fault .outOfBounds
  else do
    updateClient ptr fun client => { client with watchKeys := client.watchKeys ++ [key] }
    register ptr key

def handleWatch (req : RespRequest) (ptr : ClientPtr) : M D Unit :=
  if req.argc < 1 then pure ()
  else do
    let client ← loadClient ptr
    if client.isQueued then
      send client.fd (lit "-ERR WATCH inside MULTI is not allowed\r\n")
    else do
      forM req.args (watchKey ptr)
      send client.fd okReply

def handleUnwatch (ptr : ClientPtr) : M D Unit := do
  deleteWatchedKeys ptr
  let client ← loadClient ptr
  send client.fd okReply

/-! ## The queue -/

/-- `copy_request`: `malloc` leaves the slots after the last argument as they were. -/
def copyRequest (src : RespRequest) : RespRequest := { src with unused := .indeterminate }

/-- The branch of `handle` that queues a command. -/
def queueCommand (req : RespRequest) (ptr : ClientPtr) : M D Unit := do
  let client ← loadClient ptr
  if maxQueuedCmds ≤ client.requests.length then fault .outOfBounds
  else do
    updateClient ptr fun client => { client with requests := client.requests ++ [copyRequest req] }
    send client.fd (lit "+QUEUED\r\n")

def handleMulti (ptr : ClientPtr) : M D Unit := do
  let client ← loadClient ptr
  if client.isQueued then send client.fd (lit "-ERR MULTI calls can not be nested\r\n")
  else do
    updateClient ptr fun client => { client with requests := [], isQueued := true }
    send client.fd okReply

def clearQueued (ptr : ClientPtr) : M D Unit :=
  updateClient ptr fun client => { client with isQueued := false }

/-- The body of the loop of `handle_exec`. -/
def execCommand (handle : RespRequest → ClientPtr → M D Unit) (ptr : ClientPtr)
    (req : RespRequest) : M D Unit := do
  clearQueued ptr
  handle req ptr
  clearQueued ptr

/-- `handle_exec`, over the `handle` that it calls for every queued command. -/
def handleExec (handle : RespRequest → ClientPtr → M D Unit) (ptr : ClientPtr) : M D Unit := do
  let client ← loadClient ptr
  if !client.isQueued then send client.fd (lit "-ERR EXEC without MULTI\r\n")
  else if client.isDirty then do
    -- `queuedCommands` is cleared before the loop that frees the requests, which frees none
    updateClient ptr fun client => { client with isQueued := false, requests := [] }
    deleteWatchedKeys ptr
    send client.fd nilArray
  else do
    send client.fd (arrayHeader client.requests.length)
    updateClient ptr fun client => { client with requests := [] }
    forM client.requests (execCommand handle ptr)
    clearQueued ptr

def handleDiscard (ptr : ClientPtr) : M D Unit := do
  let client ← loadClient ptr
  if !client.isQueued then send client.fd (lit "-ERR DISCARD without MULTI\r\n")
  else do
    updateClient ptr fun client => { client with requests := [], isQueued := false }
    deleteWatchedKeys ptr
    send client.fd okReply

/-! ## INCR -/

/-- `current_val == 0 && strcmp(value, "0") != 0` is the test for a value that is not a number. -/
def handleIncr (req : RespRequest) (clientFd : Int) : M D Unit := do
  let key ← req.arg 0
  match ← storeGetEntry key with
  | none => do
    storeSet key (.string (lit "1")) .noTimeFlag (-1)
    send clientFd (lit ":1\r\n")
  | some entry => do
    -- `atoi(req->args[0]) + 1` is printed
    if atoi key = 2 ^ 31 - 1 then fault .overflow
    else do
      let text ← asString entry.value
      let currentVal := atoi text
      if currentVal = 0 ∧ text ≠ lit "0" then
        send clientFd (lit "-ERR value is not an integer or out of range\r\n")
      else if currentVal = 2 ^ 31 - 1 then fault .overflow
      else do
        storeSet key (.string (decimalInt (currentVal + 1))) .noTimeFlag (-1)
        send clientFd (integerReply (currentVal + 1))

end RedisClone
