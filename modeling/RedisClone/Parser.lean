import RedisClone.Machine

/-! # `parser.c` and the loop that drains a buffer

`memory` is the buffer a request is read from, from its first byte to the end of the array that
holds it, and `ptr` an index into it.  A read at or past the end of `memory` is the fault
`overread`.
-/

namespace RedisClone

open CString

/-! ## Command names -/

/-- The names `findRedisCmd` compares with, in its order. -/
def commandNames : List (Bytes × RedisCmds) :=
  [(lit "ECHO", .echo), (lit "PING", .ping), (lit "INFO", .info), (lit "REPLCONF", .replconf),
   (lit "WAIT", .wait), (lit "PSYNC", .psync), (lit "KEYS", .keys), (lit "AUTH", .auth),
   (lit "SELECT", .select), (lit "COMMAND", .command), (lit "ACL", .acl),
   (lit "SET", .set), (lit "GET", .get), (lit "DEL", .del), (lit "EXISTS", .exists),
   (lit "EXPIRE", .expire), (lit "TTL", .ttl), (lit "TYPE", .type),
   (lit "INCR", .incr), (lit "DECR", .decr), (lit "APPEND", .append), (lit "STRLEN", .strlen),
   (lit "MGET", .mget),
   (lit "MULTI", .multi), (lit "EXEC", .exec), (lit "DISCARD", .discard), (lit "WATCH", .watch),
   (lit "UNWATCH", .unwatch),
   (lit "LPUSH", .lpush), (lit "RPUSH", .rpush), (lit "LPOP", .lpop), (lit "RPOP", .rpop),
   (lit "LLEN", .llen), (lit "LRANGE", .lrange), (lit "BLPOP", .blpop),
   (lit "HSET", .hset), (lit "HGET", .hget), (lit "HGETALL", .hgetall), (lit "HDEL", .hdel),
   (lit "SADD", .sadd), (lit "SREM", .srem), (lit "SMEMBERS", .smembers),
   (lit "SISMEMBER", .sismember),
   (lit "XADD", .xadd), (lit "XREAD", .xread), (lit "XRANGE", .xrange), (lit "XGROUP", .xgroup),
   (lit "ZADD", .zadd), (lit "ZRANK", .zrank), (lit "ZRANGE", .zrange), (lit "ZCARD", .zcard),
   (lit "ZSCORE", .zscore), (lit "GEOADD", .geoadd), (lit "GEOPOS", .geopos),
   (lit "GEODIST", .geodist), (lit "GEOSEARCH", .geosearch),
   (lit "SUBSCRIBE", .subscribe), (lit "PUBLISH", .publish), (lit "UNSUBSCRIBE", .unsubscribe),
   (lit "ZREM", .zrem)]

def findRedisCmd (cmdName : Bytes) : RedisCmds :=
  (commandNames.lookup (upper cmdName)).getD .unknown

def findConfigCmd (subCmd : Bytes) : RedisCmds :=
  if upper subCmd = lit "GET" then .configGet else .unknown

/-! ## Lines -/

/-- The copying loop of `getLine`; `room` is what is left of the 256 bytes of `line`. -/
def getLineFrom : (room : Nat) → (memory : Bytes) → Except Fault Bytes
  | _, [] => .error .overread
  | room, c :: rest =>
    if c = 13 ∨ c = 0 then
      if room = 0 then .error .outOfBounds else .ok []
    else
      match room with
      | 0 => .error .outOfBounds
      | room + 1 =>
        match getLineFrom room rest with
        | .ok line => .ok (c :: line)
        | .error f => .error f

def getLine (memory : Bytes) (ptr : Nat) : Except Fault Bytes := getLineFrom 256 (memory.drop ptr)

/-- The prefix character, `none` where `getPrefix` returns 1. -/
def getPrefix (line : Bytes) : Option UInt8 :=
  match line.head? with
  | some c => if c ∈ lit "*$+-:" then some c else none
  | none => none

/-! ## Requests -/

/-- The request that `parse` is filling. -/
structure PartialRequest where
  command : RedisCmds := .unknown
  isConfig : Bool := false
  args : List Bytes := []

/-- What `parse` does with the string of element `i`. -/
def PartialRequest.store (partialReq : PartialRequest) (i : Nat) (valueLine : Bytes) :
    Except Fault PartialRequest :=
  if i = 0 then
    if upper valueLine = lit "CONFIG" then .ok { partialReq with isConfig := true }
    else .ok { partialReq with command := findRedisCmd valueLine }
  else if i = 1 ∧ partialReq.isConfig then
    .ok { partialReq with command := findConfigCmd valueLine }
  else if partialReq.args.length < maxArgs then
    .ok { partialReq with args := partialReq.args ++ [valueLine] }
  else .error .outOfBounds

/-- The `for` loop of `parse` over the elements `i, …, i + remaining - 1`; `none` where it
returns 1. -/
def parseElements (memory : Bytes) :
    (remaining i : Nat) → PartialRequest → (ptr : Nat) →
      Except Fault (Option (PartialRequest × Nat))
  | 0, _, partialReq, ptr => .ok (some (partialReq, ptr))
  | remaining + 1, i, partialReq, ptr =>
    match getLine memory ptr with
    | .error f => .error f
    | .ok lenLine =>
      if getPrefix lenLine = none then .ok none
      else
        let valuePtr := ptr + lenLine.length + 2
        match getLine memory valuePtr with
        | .error f => .error f
        | .ok valueLine =>
          if (valueLine.length : Int) ≠ atoi lenLine.tail then .ok none
          else
            match partialReq.store i valueLine with
            | .error f => .error f
            | .ok stored =>
              parseElements memory remaining (i + 1) stored (valuePtr + valueLine.length + 2)

/-- `argc` is one less than the count, and less the subcommand of CONFIG: the number of strings
stored.  A count of zero or less is accepted and leaves it negative. -/
def PartialRequest.finish (partialReq : PartialRequest) : RespRequest :=
  ⟨partialReq.command, partialReq.args, partialReq.args.length, .null, by simp⟩

/-- The request of a message whose count is not positive. -/
def emptyRequest (loopLen : Int) (empty : loopLen ≤ 0) : RespRequest :=
  ⟨.unknown, [], loopLen - 1, .null, by simp only [List.length_nil]; omega⟩

/-- `parse(&ptr, &request)`: the request and the pointer after it, `none` where it returns 1. -/
def parse (memory : Bytes) (ptr : Nat) : Except Fault (Option (RespRequest × Nat)) :=
  match getLine memory ptr with
  | .error f => .error f
  | .ok firstLine =>
    if getPrefix firstLine ≠ some 42 then .ok none
    else
      let loopLen := atoi firstLine.tail
      let elementPtr := ptr + firstLine.length + 2
      if empty : loopLen ≤ 0 then
        -- `loopLen - 1` is an `int`
        if loopLen = -2 ^ 31 then .error .overflow
        else .ok (some (emptyRequest loopLen empty, elementPtr))
      else
        match parseElements memory loopLen.toNat 0 {} elementPtr with
        | .error f => .error f
        | .ok none => .ok none
        | .ok (some (partialReq, next)) => .ok (some (partialReq.finish, next))

/-! ## Draining a buffer -/

/-- A call of `handle`: where the message starts, the request, and the bytes it took. -/
structure Call where
  start : Nat
  request : RespRequest
  length : Nat
  deriving DecidableEq

/-- `while (ptr < end && *ptr != '*') ptr++` with `end` at index `n`. -/
def skipToStar (memory : Bytes) (n ptr : Nat) : Nat :=
  ptr + (((memory.take n).drop ptr).takeWhile (· ≠ 42)).length

/-- The loop `while (ptr < end)` around `parse`, which the event loop, the handshake and the
replay of the append-only file share.  Each round takes at least one byte, so `fuel` is the
number of bytes left. -/
def parseLoop {σ : Type} (memory : Bytes) (n : Nat) (onRequest : Call → Exec σ Fault Unit) :
    (fuel ptr : Nat) → Exec σ Fault Unit
  | 0, _ => pure ()
  | fuel + 1, ptr =>
    let before := skipToStar memory n ptr
    if n ≤ before then pure ()
    else
      match parse memory before with
      | .error f => Exec.fault f
      | .ok none => parseLoop memory n onRequest fuel (before + 1)
      | .ok (some (request, next)) => do
        onRequest ⟨before, request, next - before⟩
        parseLoop memory n onRequest fuel next

/-- The `handle` calls of the loop, and the fault in `parse` that ends them, if any. -/
def handleCallsFrom (memory : Bytes) (n : Nat) : (fuel ptr : Nat) → List Call × Option Fault
  | 0, _ => ([], none)
  | fuel + 1, ptr =>
    let before := skipToStar memory n ptr
    if n ≤ before then ([], none)
    else
      match parse memory before with
      | .error f => ([], some f)
      | .ok none => handleCallsFrom memory n fuel (before + 1)
      | .ok (some (request, next)) =>
        let rest := handleCallsFrom memory n fuel next
        (⟨before, request, next - before⟩ :: rest.1, rest.2)

def handleCalls (memory : Bytes) (n : Nat) : List Call × Option Fault :=
  handleCallsFrom memory n n 0

/-- The loop makes these calls one after another, whatever they do, and then faults or ends. -/
theorem parseLoop_eq_calls {σ : Type} (memory : Bytes) (n : Nat)
    (onRequest : Call → Exec σ Fault Unit) (fuel ptr : Nat) :
    parseLoop memory n onRequest fuel ptr = (do
      forM (handleCallsFrom memory n fuel ptr).1 onRequest
      match (handleCallsFrom memory n fuel ptr).2 with
      | some f => Exec.fault f
      | none => pure ()) := by
  induction fuel generalizing ptr with
  | zero => simp [parseLoop, handleCallsFrom]
  | succ fuel inductionHypothesis =>
    unfold parseLoop handleCallsFrom
    by_cases ended : n ≤ skipToStar memory n ptr
    · simp [ended]
    · simp only [ended, if_false]
      cases parsed : parse memory (skipToStar memory n ptr) with
      | error f => simp
      | ok result =>
        cases result with
        | none => simpa using inductionHypothesis _
        | some found =>
          obtain ⟨request, next⟩ := found
          simp only [List.forM_cons, bind_assoc, inductionHypothesis]

end RedisClone
