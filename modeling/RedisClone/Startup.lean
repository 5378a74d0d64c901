import RedisClone.Lib.Segments
import RedisClone.Main
import RedisClone.RdbHandler

/-! # `main.c` and `utility_handler.c`: from the arguments to the loop

The arguments, and what a replica says to its master before its loop.  What the master sends is a list of segments, of
which `recv` gives the next one as far as it fits; an empty list is a connection that has ended.
-/

namespace RedisClone

open CString

variable {D : Type}

/-! ## The arguments -/

/-- The index of the first argument that is the flag and has another one behind it. -/
def findFlag (flag : Bytes) : (argv : List Bytes) → (i : Nat) → Option Nat
  | name :: value :: rest, i => if name = flag then some i else findFlag flag (value :: rest) (i + 1)
  | _, _ => none

/-- `*portIndex`, none where `findPortIndex` returns 1. -/
def findPortIndex (argv : List Bytes) : Option Nat := (findFlag (lit "--port") argv 0).map (· + 1)

/-- `port` in `main`. -/
def portOf (argv : List Bytes) : Int :=
  match findPortIndex argv with
  | some portIndex => atoi (argv.getD portIndex [])
  | none => 6379

/-- `master_host` and `master_port`: in one argument, or in two. -/
def masterAddress (argv : List Bytes) (i : Nat) : Option (Bytes × Int) :=
  let arg := argv.getD (i + 1) []
  match arg.idxOf? 32 with
  | some hostLen => some (arg.take hostLen, atoi (arg.drop (hostLen + 1)))
  | none => (argv[i + 2]?).map fun port => (arg, atoi port)

def pingCmd : Bytes := lit "*1\r\n$4\r\nPING\r\n"

/-- `connectToMaster` is what `connect_to_master` returns. -/
def replicaofHandler (connectToMaster : Bytes → Int → Int) (argv : List Bytes) : M D Unit := do
  setConfig fun server => { server with role := lit "master" }
  match findFlag (lit "--replicaof") argv 0 with
  | none => pure ()
  | some i => do
    setConfig fun server => { server with role := lit "slave" }
    match masterAddress argv i with
    | none => pure ()
    | some (masterHost, masterPort) => do
      let masterFd := connectToMaster masterHost masterPort
      setConfig fun server => { server with masterFd := masterFd }
      if masterFd < 0 then pure () else send masterFd pingCmd

/-- The flags that `rdb_config_handler` knows, each with the size of the array it is copied into, and the array. -/
def configFlags : List (Bytes × Nat × (Bytes → RedisConfig → RedisConfig)) :=
  [(lit "--dir", 1024, fun value server => { server with rdbDirectory := value }),
   (lit "--dbfilename", 256, fun value server => { server with rdbName := value }),
   (lit "--appendonly", 4, fun value server => { server with appendOnly := value }),
   (lit "--appenddirname", 1024, fun value server => { server with appenddirname := value }),
   (lit "--appendfilename", 256, fun value server => { server with appendfilename := value }),
   (lit "--appendfsync", 256, fun value server => { server with appendfsync := value })]

/-- The six comparisons of the loop of `rdb_config_handler`; `strcpy` writes the NUL too. -/
def setFlag (name value : Bytes) : M D Unit :=
  match configFlags.lookup name with
  | none => pure ()
  | some (size, copy) => if value.length < size then setConfig (copy value) else fault .outOfBounds

/-- The loop of `rdb_config_handler` over the arguments. -/
def readFlags : List Bytes → M D Unit
  | name :: value :: rest => do
    setFlag name value
    readFlags (value :: rest)
  | _ => pure ()

/-! ## The connection to the master -/

/-- A replica before its loop, and the segments from its master that it has not read. -/
structure Joining (D : Type) where
  world : World D
  segments : List Bytes

/-- What does not read from the master. -/
def locally {α : Type} (x : M D α) : Exec (Joining D) Fault α := fun s =>
  match x s.world with
  | .ok (a, w) => .ok (a, { s with world := w })
  | .error f => .error f

/-- `recv(server_config.master_fd, buf, size, 0)` -/
def recvMaster (size : Nat) : Exec (Joining D) Fault Bytes :=
  Exec.draw (fun s => (Segments.recv size s.segments).1) fun s =>
    { s with segments := (Segments.recv size s.segments).2 }

/-- The array after `memset(buf, 0, bufSize)` and `recv` of at most `bufSize - 1` bytes. -/
def recvZeroed (bufSize : Nat) : Exec (Joining D) Fault Bytes := do
  let bytes ← recvMaster (bufSize - 1)
  pure (bytes ++ List.replicate (bufSize - bytes.length) 0)

/-- `validate_server_response(stepLevel, serversResponse) == 0` -/
def validateServerResponse (stepLevel : Nat) (serversResponse : Bytes) : Bool :=
  (stepLevel = 0 && serversResponse = lit "+PONG\r\n") || (stepLevel = 1 && serversResponse = okReply) ||
    (stepLevel = 2 && serversResponse.take 11 = lit "+FULLRESYNC")

def recvAndValidate (bufSize step : Nat) : Exec (Joining D) Fault Bool := do
  let buf ← recvZeroed bufSize
  pure (validateServerResponse step (untilNul buf))

def replconfPort (port : Int) : Bytes := lit "*3\r\n$8\r\nREPLCONF\r\n$14\r\nlistening-port\r\n" ++ bulk (decimalInt port)

def replconfCapa : Bytes := lit "*5\r\n$8\r\nREPLCONF\r\n$4\r\ncapa\r\n$3\r\neof\r\n$4\r\ncapa\r\n$6\r\npsync2\r\n"

/-- `handle_replconf`; the result is the array with the second answer. -/
def handleReplconf (responseSize : Nat) : Exec (Joining D) Fault Bytes := do
  let server ← locally config
  locally (send server.masterFd (replconfPort server.port))
  let _ ← recvZeroed responseSize
  locally (send server.masterFd replconfCapa)
  recvZeroed responseSize

def psyncText (replicationId : Bytes) (offset : Int) : Bytes :=
  lit "*3\r\n$5\r\nPSYNC\r\n" ++ bulk replicationId ++ bulk (decimalInt offset)

def handlePsync (replicationId : Bytes) (offset : Int) : M D Unit := do
  let server ← config
  sendText 1024 server.masterFd (psyncText replicationId offset)

/-- Where `strstr(s, needle)` points to. -/
def strstrIndex (s needle : Bytes) : Option Nat := s.tails.findIdx? fun rest => needle.isPrefixOf rest

/-- `drain_rdb`: the index of `rdb_end` in the array, or of the end of what was read. -/
def drainRdb (buf : Bytes) (bytesRead : Nat) : Exec (Joining D) Fault Int :=
  match (untilNul buf).idxOf? 36 with
  | none => pure bytesRead
  | some rdbStart =>
    let rdbLen := atoi (untilNul (buf.drop (rdbStart + 1)))
    match strstrIndex (untilNul (buf.drop rdbStart)) crlf with
    | none => pure bytesRead
    | some lineLen => do
      let dataStart := rdbStart + lineLen + 2
      let remaining := (rdbLen - (bytesRead - dataStart)).toNat
      Exec.alter fun s => { s with segments := Segments.discard 1024 remaining remaining s.segments }
      pure (dataStart + rdbLen)

/-- `ptr` is the address that `calloc` returns. -/
def doSlaveHandshake [Externals D] (ptr : ClientPtr) : Exec (Joining D) Fault Unit := do
  let pong ← recvAndValidate 4096 0
  if !pong then pure ()
  else do
    let buf ← handleReplconf 4096
    if !validateServerResponse 1 (untilNul buf) then pure ()
    else do
      locally (handlePsync (lit "?") (-1))
      let bytes ← recvMaster 4095
      let stale := buf.drop (bytes.length + 1)
      let afterRdb ← drainRdb (bytes ++ 0 :: stale) bytes.length
      if afterRdb < 0 then Exec.fault .outOfBounds else locally (joinMaster ptr bytes stale afterRdb.toNat)

/-! ## `main` up to its loop -/

/-- What is outside of the process when it starts: what `connect_to_master` returns, the paths that exist, and the
snapshot in the directory, if it can be read. -/
structure Surroundings where
  connectToMaster : Bytes → Int → Int
  directory : Bytes → DataDirectory
  snapshot : Option Bytes

/-- `replicaofHandler`, `rdb_config_handler` and `load_rdb_into_table`. -/
def boot [Externals D] (outside : Surroundings) (argv : List Bytes) (fakeClient : ClientPtr) : M D Unit := do
  setConfig fun server => { server with port := portOf argv }
  replicaofHandler outside.connectToMaster argv
  readFlags argv
  let server ← config
  rdbConfigHandler (outside.directory (server.rdbDirectory ++ lit "/" ++ server.appenddirname)) fakeClient
  -- the stack of `rdb_config_handler` is gone
  Exec.alter fun w => { w with heap := Function.update w.heap fakeClient none }
  let _ ← loadRdbIntoTable outside.snapshot
  pure ()

/-- `main` up to `while(1)`. -/
def launch [Externals D] (outside : Surroundings) (argv : List Bytes) (fakeClient ptr : ClientPtr) :
    Exec (Joining D) Fault Unit := do
  locally (boot outside argv fakeClient)
  let server ← locally config
  Exec.onlyIf (server.role = lit "slave") (doSlaveHandshake ptr)
  locally resetForLoop

end RedisClone
