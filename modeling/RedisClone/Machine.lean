import Mathlib.Logic.Function.Basic
import RedisClone.Types

/-! # The state of the process

`World D` is everything the handlers read and change: the globals, the heap of `Client` blocks,
the two AOF files, the clock readings and the stale contents of memory still to come, and what
has been sent.  `M D α` is a piece of the program.  Undefined behaviour is a `Fault`, and a run
ends there.

`D` stands for `double`.  Floating point, `printf("%.17g")` and SHA-256 come from libm, libc and
OpenSSL; `Externals D` names what the code calls of them.
-/

namespace RedisClone

/-- What the code takes from outside: arithmetic on `double`, libm, `atof`, `%.17g` and the hex
text of a SHA-256 digest. -/
class Externals (D : Type) where
  ofInt : Int → D
  /-- The constant `mantissa / 10 ^ places`. -/
  constant : Int → Nat → D
  add : D → D → D
  sub : D → D → D
  mul : D → D → D
  div : D → D → D
  lt : D → D → Bool
  le : D → D → Bool
  eq : D → D → Bool
  /-- Conversion to `long long`. -/
  toInt : D → Int
  /-- Conversion to `uint64_t`. -/
  toWord : D → BitVec 64
  ofWord : BitVec 64 → D
  llround : D → Int
  fabs : D → D
  sqrt : D → D
  sin : D → D
  cos : D → D
  atan2 : D → D → D
  pow : D → D → D
  atof : Bytes → D
  printG17 : D → Bytes
  sha256Hex : Bytes → Bytes

inductive Fault where
  /-- A handler reads `args[i]` where the request has no argument `i`. -/
  | missingArg
  | nullDeref
  /-- `entry->value` is used as the payload of another type than the stored one. -/
  | typeConfusion
  /-- A chain is followed past a node whose `next` was never set. -/
  | wildPointer
  | outOfBounds
  /-- A read past the end of an array or of a received message. -/
  | overread
  | useAfterFree
  | doubleFree
  | invalidFree
  | overflow
  deriving DecidableEq, Repr

structure World (D : Type) where
  table : Table D
  heap : ClientPtr → Option Client
  clients : ClientSlot → Option ClientPtr
  watchList : ClientSlot → PollFd
  activeFds : Nat
  watchers : Bucket → Option ClientsWatch
  serverConfig : RedisConfig
  defaultHasNopass : Bool
  defaultPassword : Bytes
  files : Files
  /-- The readings `get_current_time_ms` will return. -/
  clock : Nat → Int
  /-- The stale contents of the blocks and variables the code will use before setting them. -/
  fresh : Nat → Bytes
  sent : List (Int × Bytes)
  /-- Observation: the write commands whose arm in `handle` was reached, in order. -/
  executed : List RespRequest
  /-- Observation: the requests that `pass_data_toReplica` sent, with the replica. -/
  passed : List (ClientPtr × RespRequest)

abbrev M (D : Type) (α : Type) : Type := Exec (World D) Fault α

namespace World

variable {D : Type}

def emit (w : World D) (fd : Int) (bytes : Bytes) : World D :=
  { w with sent := w.sent ++ [(fd, bytes)] }

def tick (w : World D) : World D := { w with clock := fun n => w.clock (n + 1) }

def takeFresh (w : World D) : World D := { w with fresh := fun n => w.fresh (n + 1) }

def setBucket (w : World D) (bucket : Bucket) (chain : Chain Bytes (Entry D)) : World D :=
  { w with table := Function.update w.table bucket chain }

def setClient (w : World D) (ptr : ClientPtr) (client : Client) : World D :=
  { w with heap := Function.update w.heap ptr (some client) }

def configure (w : World D) (f : RedisConfig → RedisConfig) : World D :=
  { w with serverConfig := f w.serverConfig }

end World

variable {D : Type}

/-- The state of the process before `rdb_config_handler`, after the arguments were read. -/
def bootWorld (serverConfig : RedisConfig) (files : Files) (clock : Nat → Int)
    (fresh : Nat → Bytes) : World D where
  table := fun _ => Chain.empty
  heap := fun _ => none
  clients := fun _ => none
  watchList := fun _ => ⟨-1, false⟩
  activeFds := 1
  watchers := fun _ => none
  serverConfig := serverConfig
  defaultHasNopass := true
  defaultPassword := []
  files := files
  clock := clock
  fresh := fresh
  sent := []
  executed := []
  passed := []

/-- A start without files, with a stopped clock and zeroed memory. -/
def blankWorld (D : Type) : World D :=
  bootWorld {} ⟨none, none⟩ (fun _ => 0) fun _ => []

/-! ## System calls and memory -/

def fault {α : Type} (f : Fault) : M D α := Exec.fault f

def send (fd : Int) (bytes : Bytes) : M D Unit := Exec.alter fun w => w.emit fd bytes

def getCurrentTimeMs : M D Int := Exec.draw (fun w => w.clock 0) World.tick

/-- The stale bytes of a fresh block or of a variable that is not initialised. -/
def indeterminate : M D Bytes := Exec.draw (fun w => w.fresh 0) World.takeFresh

def indeterminateInt : M D Int := CString.int64Of <$> indeterminate

/-- The first `n` stale bytes. -/
def staleBytes (n : Nat) : M D Bytes := do
  let block ← indeterminate
  pure (block.take n ++ List.replicate (n - block.length) 0)

def config : M D RedisConfig := Exec.observe World.serverConfig

def setConfig (f : RedisConfig → RedisConfig) : M D Unit := Exec.alter fun w => w.configure f

def loadClient (ptr : ClientPtr) : M D Client := fun w =>
  match w.heap ptr with
  | some client => .ok (client, w)
  | none => .error .useAfterFree

def updateClient (ptr : ClientPtr) (f : Client → Client) : M D Unit := fun w =>
  match w.heap ptr with
  | some client => .ok ((), w.setClient ptr (f client))
  | none => .error .useAfterFree

/-- `clients[slot]` as a test for NULL followed by a dereference. -/
def clientAt (slot : ClientSlot) : M D (Option (ClientPtr × Client)) := do
  match ← Exec.observe fun w => w.clients slot with
  | none => pure none
  | some ptr => do
    let client ← loadClient ptr
    pure (some (ptr, client))

/-- The slots of `clients`, in the order of the `for` loops over it. -/
def clientSlots : List ClientSlot := List.finRange maxClients

def sendUnlessMaster (fd : Int) (bytes : Bytes) : M D Unit := do
  if fd ≠ (← config).masterFd then send fd bytes else pure ()

/-! ## Arguments -/

namespace RespRequest

/-- `req->args[i]`, dereferenced. -/
def arg (req : RespRequest) (i : Nat) : M D Bytes :=
  match req.args[i]? with
  | some value => pure value
  | none => fault .missingArg

/-- `req->args[i]` as the `%s` of a `printf`, which prints "(null)" for NULL. -/
def printArg (req : RespRequest) (i : Nat) : M D Unit :=
  match req.args[i]?, req.unused with
  | some _, _ => pure ()
  | none, .null => pure ()
  | none, .indeterminate => fault .missingArg

end RespRequest

/-! ## Buffers

The text a chain of `snprintf` calls leaves in a fixed array.  `content` is what is before the
first NUL and `offset` the number the code adds the return values up to. -/

structure Buffer where
  content : Bytes := []
  offset : Nat := 0

namespace Buffer

/-- `snprintf(buf + offset, size - offset, ...)`.  Past the end `size - offset` wraps around and
the call writes outside the array. -/
def print (size : Nat) (buffer : Buffer) (text : Bytes) : M D Buffer :=
  if size < buffer.offset then fault .outOfBounds
  else
    pure { buffer with
      content := buffer.content.take buffer.offset ++ text.take (size - buffer.offset - 1) }

/-- `offset += snprintf(buf + offset, size - offset, ...)` -/
def append (size : Nat) (buffer : Buffer) (text : Bytes) : M D Buffer := do
  let printed ← print size buffer text
  pure { printed with offset := printed.offset + text.length }

/-- `offset += snprintf(...)` for every text. -/
def appendAll (size : Nat) : List Bytes → Buffer → M D Buffer
  | [], buffer => pure buffer
  | text :: texts, buffer => do
    let appended ← append size buffer text
    appendAll size texts appended

/-- `written = snprintf(buf + offset, size - offset, ...)` for every text, up to one that does not
fit whole; that one is in the array, and `offset` does not count it. -/
def appendGuarded (size : Nat) : List Bytes → Buffer → M D Buffer
  | [], buffer => pure buffer
  | text :: texts, buffer => do
    let printed ← print size buffer text
    if printed.offset + text.length < size then
      appendGuarded size texts { printed with offset := printed.offset + text.length }
    else pure printed

/-- The first `offset` bytes of the array; where the text was cut, the last of them is the NUL. -/
def sendPrefix (size : Nat) (buffer : Buffer) (fd : Int) : M D Unit :=
  if size < buffer.offset then fault .overread
  else
    send fd (buffer.content.take buffer.offset ++
      List.replicate (buffer.offset - buffer.content.length) 0)

end Buffer

/-- `snprintf` into an array of `size` bytes followed by `send(fd, buf, strlen(buf), 0)`. -/
def sendText (size : Nat) (fd : Int) (text : Bytes) : M D Unit := send fd (text.take (size - 1))

/-! ## Replies -/

open CString

def okReply : Bytes := lit "+OK\r\n"
def nilReply : Bytes := lit "$-1\r\n"
def nilArray : Bytes := lit "*-1\r\n"
def emptyArray : Bytes := lit "*0\r\n"

/-- `"$%zu\r\n%s\r\n"` -/
def bulk (s : Bytes) : Bytes := lit "$" ++ decimal s.length ++ crlf ++ s ++ crlf

/-- `"*%d\r\n"` -/
def arrayHeader (n : Int) : Bytes := lit "*" ++ decimalInt n ++ crlf

/-- `":%d\r\n"` -/
def integerReply (n : Int) : Bytes := lit ":" ++ decimalInt n ++ crlf

end RedisClone
