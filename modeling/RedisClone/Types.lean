import Mathlib.Data.Fin.Basic
import Mathlib.Data.Fintype.OfMap
import RedisClone.Lib.Exec
import RedisClone.Lib.CString
import RedisClone.Lib.Chain

/-! # Data types of the server

The types of `parser.h`, `utils.h` and `handler.h`.  An array with its counter
(`requests`/`queuedCommands`, `watch_keys`/`watch_keys_size`, `clientList`/`clientsSize`) is the
list of the slots in use; the fixed capacity is checked where a slot is added.
-/

namespace RedisClone

def tableSize : Nat := 1024
def maxClients : Nat := 100
def maxQueuedCmds : Nat := 100
def maxWatchKeys : Nat := 64
def maxChannels : Nat := 64
def maxArgs : Nat := 16

/-! ## Requests -/

inductive RedisCmds where
  | unknown
  | echo | ping | info | replconf | wait | psync | select | command
  | configGet | keys
  | set | get | del | exists | expire | ttl | type
  | incr | decr | append | strlen | mget
  | multi | exec | discard | watch | unwatch
  | lpush | rpush | lpop | rpop | llen | lrange | blpop
  | hset | hget | hgetall | hdel
  | sadd | srem | smembers | sismember
  | zadd | zrank | zrange | zcard | zscore | zrem
  | geoadd | geopos | geodist | geosearch
  | auth | acl
  | xadd | xread | xrange | xgroup
  | subscribe | publish | unsubscribe
  deriving DecidableEq, Repr

instance : Fintype RedisCmds :=
  .ofList
    [.unknown, .echo, .ping, .info, .replconf, .wait, .psync, .select, .command, .configGet, .keys,
      .set, .get, .del, .exists, .expire, .ttl, .type, .incr, .decr, .append, .strlen, .mget,
      .multi, .exec, .discard, .watch, .unwatch, .lpush, .rpush, .lpop, .rpop, .llen, .lrange, .blpop,
      .hset, .hget, .hgetall, .hdel, .sadd, .srem, .smembers, .sismember,
      .zadd, .zrank, .zrange, .zcard, .zscore, .zrem, .geoadd, .geopos, .geodist, .geosearch,
      .auth, .acl, .xadd, .xread, .xrange, .xgroup, .subscribe, .publish, .unsubscribe]
    fun cmd => by cases cmd <;> simp

/-- What the slots of `args` past the last argument hold: NULL in a request that `parse` filled
(it starts from `{0}`), whatever `malloc` returned in one that `copy_request` made. -/
inductive UnusedArgs where
  | null
  | indeterminate
  deriving DecidableEq, Repr

structure RespRequest where
  command : RedisCmds
  args : List Bytes
  argc : Int
  unused : UnusedArgs
  supplied : args.length = argc.toNat
  deriving DecidableEq

/-! ## Stored values -/

inductive TimeFlags where
  | ex | px | exat | pxat | noTimeFlag
  deriving DecidableEq, Repr

inductive RedisType where
  | string | list | hash | zset | set | stream
  deriving DecidableEq, Repr

/-- `field_count` is the number of fields. -/
structure StreamEntry where
  id : Bytes
  fields : List Bytes
  deriving DecidableEq

/-- `entries` are the nodes reachable from `head`; `tail` is the node `tail` points to. -/
structure Stream where
  entries : List StreamEntry
  tail : Option StreamEntry
  lastMs : Int
  lastSeq : Int
  length : Nat
  deriving DecidableEq

structure ZSetEntry (D : Type) where
  member : Bytes
  score : D
  deriving DecidableEq

structure ZSet (D : Type) where
  entries : List (ZSetEntry D)
  length : Nat
  deriving DecidableEq

/-- The payload behind `entry->value`.  Every writer of an entry sets `value` and `type`
together, so the tag is read off the payload.  A list is its `values[0..size)`. -/
inductive Value (D : Type) where
  | string (text : Bytes)
  | list (values : List Bytes)
  | stream (stream : Stream)
  | zset (set : ZSet D)
  deriving DecidableEq

def Value.type {D : Type} : Value D → RedisType
  | .string _ => .string
  | .list _ => .list
  | .stream _ => .stream
  | .zset _ => .zset

/-- A node of a bucket chain, less its key and its `next`. -/
structure Entry (D : Type) where
  value : Value D
  expiresAt : Int
  deriving DecidableEq

abbrev Entry.type {D : Type} (entry : Entry D) : RedisType := entry.value.type

abbrev Bucket : Type := Fin tableSize

/-- A condition on every bucket is decided along the list of the answers, which the kernel evaluates faster than a
recursion over the bound of the index. -/
instance (p : Bucket → Prop) [DecidablePred p] : Decidable (∀ bucket, p bucket) :=
  decidable_of_iff ((List.ofFn fun bucket => decide (p bucket)).all id) (by simp)

abbrev Table (D : Type) : Type := Bucket → Chain Bytes (Entry D)

/-! ## Connections -/

/-- The address of a `Client` block. -/
abbrev ClientPtr : Type := Nat

structure Client where
  fd : Int
  isBlocked : Bool := false
  isQueued : Bool := false
  isBlpop : Bool := false
  isSubscribed : Bool := false
  isReplica : Bool := false
  isMaster : Bool := false
  isWaiting : Bool := false
  replOffset : Int := 0
  timeoutAt : Int := 0
  blockedAt : Int := 0
  waitingForKey : Option Bytes := none
  minId : Option Bytes := none
  channelSubed : List (Option Bytes) := List.replicate maxChannels none
  channelCount : Nat := 0
  requests : List RespRequest := []
  isAuth : Bool := false
  watchKeys : List Bytes := []
  isDirty : Bool := false
  deriving DecidableEq

/-- `clientList[0..clientsSize)` of one watched bucket. -/
abbrev ClientsWatch : Type := List (Option ClientPtr)

abbrev ClientSlot : Type := Fin maxClients

structure PollFd where
  fd : Int
  revents : Bool
  deriving DecidableEq

structure RedisConfig where
  port : Int := 6379
  role : Bytes := CString.lit "master"
  masterReplid : Bytes := CString.lit "8371b4fb1155b71f4a04d3e1bc3e18c4a990aeeb"
  masterReplOffset : Int := 0
  slaveReplOffset : Int := 0
  capturedMasterOffset : Int := 0
  masterFd : Int := -1
  wantedReplicas : Int := 0
  waitClientFd : Int := -1
  rdbDirectory : Bytes := CString.lit "/app"
  rdbName : Bytes := []
  appendOnly : Bytes := CString.lit "no"
  appenddirname : Bytes := CString.lit "appendonlydir"
  appendfilename : Bytes := CString.lit "appendonly.aof"
  appendfsync : Bytes := CString.lit "everysec"
  deriving DecidableEq

/-- The two files behind `manifestFilePath` and `aofFilePath`; `none` for one that `fopen`
cannot open. -/
structure Files where
  manifest : Option Bytes
  aof : Option Bytes
  deriving DecidableEq

end RedisClone
