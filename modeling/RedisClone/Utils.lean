import RedisClone.Parser

/-! # `utils.c`: the table, the command tables, and the stream readers -/

namespace RedisClone

open CString

variable {D : Type}

/-! ## The hash table -/

/-- `%` truncates towards zero and `char` is signed, so the result may be negative. -/
def hash (key : Bytes) : Int :=
  key.foldl (fun h c => (h * 31 + signedChar c).tmod tableSize) 0

/-- The index of a key in `table` and in `watchers`, where it lies in them. -/
def bucketOf (key : Bytes) : Option Bucket :=
  if 0 ≤ hash key then
    if inRange : (hash key).toNat < tableSize then some ⟨(hash key).toNat, inRange⟩ else none
  else none

/-- `table[hash(key)]` and `watchers[hash(key)]` -/
def tableIndex (key : Bytes) : M D Bucket :=
  match bucketOf key with
  | some bucket => pure bucket
  | none => fault .outOfBounds

/-- The walk of `store_getEntry`; the result is the binding of the first node with the key. -/
def storeGetEntry (key : Bytes) : M D (Option (Entry D)) := do
  let bucket ← tableIndex key
  let table ← Exec.observe World.table
  match (table bucket).find key with
  | some entry => pure entry
  | none => fault .wildPointer

def changeBucket (bucket : Bucket) (f : Chain Bytes (Entry D) → Chain Bytes (Entry D)) :
    M D Unit :=
  Exec.alter fun w => w.setBucket bucket (f (w.table bucket))

/-- A change through the pointer that `store_getEntry(key)` returned. -/
def updateEntry (key : Bytes) (value : Value D) : M D Unit := do
  let bucket ← tableIndex key
  changeBucket bucket fun chain => chain.update key fun entry => { entry with value }

/-- Where `next` lies in an `Entry`: behind `key` and `value`. -/
def nextOffset : Nat := 16

/-- Whether the `next` field of a block holding these stale bytes is not NULL. -/
def wildNext (block : Bytes) : Bool := ((block.drop nextOffset).take 8).any (· ≠ 0)

/-- Whether the node that a container writer fills has a stale `next`: a fresh block is taken for an
empty bucket only. -/
def takeNode (chain : Chain Bytes (Entry D)) : M D Bool :=
  if chain.nodes = [] then wildNext <$> indeterminate else pure false

/-- The common body of `store_set_list`, `store_set_stream` and `store_set_zset`: the first node of
the bucket is overwritten, and a node for an empty bucket keeps its block's stale `next`. -/
def storeSetContainer (key : Bytes) (value : Value D) : M D Unit := do
  let bucket ← tableIndex key
  let table ← Exec.observe World.table
  let wild ← takeNode (table bucket)
  changeBucket bucket fun chain => chain.replaceHead key ⟨value, 0⟩ wild

def storeSetList (key : Bytes) (list : List Bytes) : M D Unit := storeSetContainer key (.list list)

def storeSetStream (key : Bytes) (stream : Stream) : M D Unit :=
  storeSetContainer key (.stream stream)

def storeSetZset (key : Bytes) (zSet : ZSet D) : M D Unit := storeSetContainer key (.zset zSet)

/-- `expires_at` of an entry that `store_set` writes. -/
def expiryOf (flag : TimeFlags) (seconds : Int) : M D Int :=
  if seconds ≠ -1 then do
    let now ← getCurrentTimeMs
    match flag with
    | .ex => pure (now + seconds * 1000)
    | .px => pure (now + seconds)
    | _ => pure 0
  else pure 0

def storeSet (key : Bytes) (value : Value D) (flag : TimeFlags) (seconds : Int) : M D Unit := do
  let bucket ← tableIndex key
  let existing ← storeGetEntry key
  let expiresAt ← expiryOf flag seconds
  match existing with
  | none => changeBucket bucket fun chain => chain.push key ⟨value, expiresAt⟩
  | some _ => changeBucket bucket fun chain => chain.update key fun _ => ⟨value, expiresAt⟩

/-- The payload of an entry, or NULL for a missing key and for one whose time has passed. -/
def storeGet (key : Bytes) : M D (Option (Value D)) := do
  match ← storeGetEntry key with
  | none => pure none
  | some entry =>
    if entry.expiresAt ≠ 0 then do
      let now ← getCurrentTimeMs
      if entry.expiresAt ≤ now then pure none else pure (some entry.value)
    else pure (some entry.value)

/-! ## Casts of `entry->value` -/

def asString : Value D → M D Bytes
  | .string text => pure text
  | _ => fault .typeConfusion

def asList : Value D → M D (List Bytes)
  | .list values => pure values
  | _ => fault .typeConfusion

def asStream : Value D → M D Stream
  | .stream stream => pure stream
  | _ => fault .typeConfusion

def asZSet : Value D → M D (ZSet D)
  | .zset zSet => pure zSet
  | _ => fault .typeConfusion

/-- `store_getEntry(key)`, the test for NULL, and the cast of `entry->value`. -/
def withPayload {α β : Type} (key : Bytes) (cast : Value D → M D α) (missing : M D β)
    (found : α → M D β) : M D β := do
  match ← storeGetEntry key with
  | none => missing
  | some entry => do
    let payload ← cast entry.value
    found payload

/-- `hasValue(TYPE_LIST, key)` -/
def hasListValue (key : Bytes) : M D Bool :=
  withPayload key asList (pure false) fun values => pure (!values.isEmpty)

/-! ## Command tables -/

/-- `isWriteCmd(cmd) == 0` -/
def isWriteCmd : RedisCmds → Bool
  | .set | .del | .append | .expire | .incr | .decr | .xadd | .sadd | .srem | .hset | .hdel
  | .lpush | .rpush | .lpop | .rpop => true
  | _ => false

def cmdToString : RedisCmds → Bytes
  | .echo => lit "ECHO"
  | .ping => lit "PING"
  | .info => lit "INFO"
  | .replconf => lit "REPLCONF"
  | .wait => lit "WAIT"
  | .psync => lit "PSYNC"
  | .auth => lit "AUTH"
  | .select => lit "SELECT"
  | .command => lit "COMMAND"
  | .set => lit "SET"
  | .get => lit "GET"
  | .del => lit "DEL"
  | .exists => lit "EXISTS"
  | .expire => lit "EXPIRE"
  | .ttl => lit "TTL"
  | .type => lit "TYPE"
  | .incr => lit "INCR"
  | .decr => lit "DECR"
  | .append => lit "APPEND"
  | .strlen => lit "STRLEN"
  | .mget => lit "MGET"
  | .multi => lit "MULTI"
  | .exec => lit "EXEC"
  | .discard => lit "DISCARD"
  | .watch => lit "WATCH"
  | .lpush => lit "LPUSH"
  | .rpush => lit "RPUSH"
  | .lpop => lit "LPOP"
  | .rpop => lit "RPOP"
  | .llen => lit "LLEN"
  | .lrange => lit "LRANGE"
  | .hset => lit "HSET"
  | .hget => lit "HGET"
  | .hgetall => lit "HGETALL"
  | .hdel => lit "HDEL"
  | .sadd => lit "SADD"
  | .srem => lit "SREM"
  | .smembers => lit "SMEMBERS"
  | .sismember => lit "SISMEMBER"
  | .xadd => lit "XADD"
  | .xread => lit "XREAD"
  | .xrange => lit "XRANGE"
  | .xgroup => lit "XGROUP"
  | .subscribe => lit "SUBSCRIBE"
  | _ => lit "UNKNOWN"

/-! ## Upper-case copies -/

/-- `to_upper`: the copy has no terminator, so a reader goes on into the stale bytes of the block
behind the copied characters. -/
def toUpperCopy (s : Bytes) : M D Bytes := do
  let block ← indeterminate
  pure (upper s ++ untilNul (block.drop s.length))

/-! ## Stream readers -/

/-- The last node of a stream, NULL for a key that is not bound to a stream. -/
def lastStreamEntry (key : Bytes) : M D (Option StreamEntry) := do
  match ← storeGetEntry key with
  | some ⟨.stream stream, _⟩ => pure stream.tail
  | _ => pure none

/-- A variable that `sscanf` assigned or left as it was, not initialised. -/
def scanned : Option Int → M D Int
  | some value => pure value
  | none => indeterminateInt

/-- `sscanf(id, "%lld-%lld", &ms, &seq)` -/
def scanId (id : Bytes) : M D (Int × Int) := do
  let ms ← scanned (scanPair id).1
  let seq ← scanned (scanPair id).2
  pure (ms, seq)

/-- `add_to_string(...) == 0`: the entry is selected.  XREAD compares pairs; XRANGE compares the
two components separately. -/
def addToString (start stop current : Int × Int) (isXrange : Bool) : Bool :=
  if isXrange then
    (start.1 < current.1 || (current.1 == start.1 && start.2 < current.2)) &&
      (current.1 < stop.1 || (current.1 == stop.1 && current.2 ≤ stop.2))
  else
    (start.1 ≤ current.1 && start.2 ≤ current.2) && (current.1 ≤ stop.1 && current.2 ≤ stop.2)

def isBigger (srcId checkId : Bytes) : M D Bool := do
  let src ← scanId srcId
  let check ← scanId checkId
  pure (src.1 < check.1 || (check.1 == src.1 && src.2 < check.2))

/-- The texts `snprintf` writes for one entry: its ID and field count, then each field. -/
def streamEntryTexts (entry : StreamEntry) : List Bytes :=
  (lit "*2\r\n" ++ bulk entry.id ++ arrayHeader entry.fields.length) :: entry.fields.map bulk

/-- The loop over `length` entries from `head`; the result is the text and `*count`. -/
def selectEntries (size : Nat) (start stop : Int × Int) (isXrange : Bool) :
    (remaining : Nat) → List StreamEntry → Buffer → Nat → M D (Buffer × Nat)
  | 0, _, buffer, count => pure (buffer, count)
  | _ + 1, [], _, _ => fault .nullDeref
  | remaining + 1, entry :: entries, buffer, count => do
    let current ← scanId entry.id
    if addToString start stop current isXrange then do
      let appended ← buffer.appendAll size (streamEntryTexts entry)
      selectEntries size start stop isXrange remaining entries appended (count + 1)
    else selectEntries size start stop isXrange remaining entries buffer count

/-- The ID of a node behind a pointer that is not tested for NULL. -/
def idOf : Option StreamEntry → M D Bytes
  | some entry => pure entry.id
  | none => fault .nullDeref

/-- A bound of a range: the ID of an end of the stream for `wildcard`, else the given ID. -/
def scanBound (text wildcard : Bytes) (ending : Option StreamEntry) : M D (Int × Int) :=
  if text = wildcard then do
    let id ← idOf ending
    scanId id
  else scanId text

/-- What `%s` prints of the block: the entries, or what `malloc` left there when no entry was written. -/
def entriesPrinted (bufSize : Nat) (entriesToPrint : Buffer) (count : Nat) : M D Bytes :=
  if count = 0 then do
    let block ← indeterminate
    pure (untilNul (block.take bufSize))
  else pure entriesToPrint.content

/-- `bufSize`, an `int`. -/
def rangeSize (length : Nat) : M D Nat :=
  if 2 ^ 31 ≤ 64 + length * 256 then fault .overflow else pure (64 + length * 256)

def streamEntryToString (idStart idEnd : M D Bytes) (key : Bytes) :
    M D (Option Bytes × Nat) := do
  match ← storeGetEntry key with
  | some ⟨.stream stream, _⟩ => do
    let startText ← idStart
    let endText ← idEnd
    let start ← scanBound startText (lit "-") stream.entries.head?
    let stop ← scanBound endText (lit "+") stream.tail
    let bufSize ← rangeSize stream.length
    let (entriesToPrint, count) ←
      selectEntries bufSize start stop false stream.length stream.entries {} 0
    let text := arrayHeader count ++ (← entriesPrinted bufSize entriesToPrint count)
    pure (some (text.take (bufSize + 32 - 1)), count)
  | _ => pure (none, 0)

/-- The bounds of XREAD.  With start `-` and end `+` none of the three branches sets them. -/
def xreadBounds (startText idEnd : Bytes) (stream : Stream) : M D ((Int × Int) × Int × Int) :=
  if startText = lit "-" ∧ idEnd = lit "+" then do
    let start ← scanId []
    let stop ← scanId []
    pure (start, stop)
  else do
    let start ← scanBound startText (lit "-") stream.entries.head?
    let stop ← scanBound idEnd (lit "+") stream.tail
    pure (start, stop)

/-- The text is what the 1024-byte block holds: stale bytes when no entry was written. -/
def streamEntryXreadToString (idStart : M D Bytes) (idEnd : Bytes) (key : Bytes) :
    M D (Option Bytes × Nat) := do
  let block ← indeterminate
  match ← storeGetEntry key with
  | some ⟨.stream stream, _⟩ => do
    let startText ← idStart
    let (start, stop) ← xreadBounds startText idEnd stream
    let _ ← idOf stream.entries.head?
    let (entriesToPrint, count) ←
      selectEntries 1024 start stop true stream.length stream.entries {} 0
    if count = 0 then pure (some (untilNul (block.take 1024)), count)
    else pure (some entriesToPrint.content, count)
  | _ => pure (none, 0)

/-- The non-NULL results for every key, or `none` as soon as one is NULL. -/
def xreadBlobs : List (Bytes × Bytes) → M D (Option (List (Bytes × Bytes × Nat)))
  | [] => pure (some [])
  | (key, id) :: pairs => do
    match ← streamEntryXreadToString (pure id) (lit "+") key with
    | (none, _) => pure none
    | (some blob, count) => do
      match ← xreadBlobs pairs with
      | none => pure none
      | some blobs => pure (some ((key, blob, count) :: blobs))

/-- `totalSize` covers the text: each key adds 32 bytes to its own length and its blob's. -/
def streamEntryXreadMulToString (pairs : List (Bytes × Bytes)) : M D (Option Bytes) := do
  match ← xreadBlobs pairs with
  | none => pure none
  | some blobs =>
    let totalSize := 32 + (blobs.map fun blob => 32 + blob.1.length + blob.2.1.length).sum
    let texts := arrayHeader pairs.length ::
      blobs.map fun blob => lit "*2\r\n" ++ bulk blob.1 ++ arrayHeader blob.2.2 ++ blob.2.1
    let buffer ← Buffer.appendAll totalSize texts {}
    pure (some buffer.content)

end RedisClone
