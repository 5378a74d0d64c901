import RedisClone.Lib.Slots
import RedisClone.Utils

/-! # `list_handler.c` -/

namespace RedisClone

open CString

variable {D : Type}

/-- The list of a key: the stored one, or a new one that is bound to the key first. -/
def openList (key : Bytes) : M D (List Bytes) :=
  withPayload key asList (do storeSetList key []; pure []) pure

/-- The loop that shifts the elements down by `count`, and `size -= count`. -/
def shiftLeft (count : Nat) (values : List Bytes) : List Bytes :=
  (Slots.moveDown count (values.length - count) values).take (values.length - count)

/-- What a popped element is sent as to a client of BLPOP. -/
def popReply (key value : Bytes) : Bytes := lit "*2\r\n" ++ bulk key ++ bulk value

/-! ## Pushing -/

/-- The scan for the client that has waited longest; a client that has waited no time is not
served. -/
def longestWaiter (key : Bytes) :
    List ClientSlot → (longestTimeout : Option ClientPtr) → (currentBiggestTimeOut : Int) →
      M D (Option ClientPtr)
  | [], longestTimeout, _ => pure longestTimeout
  | slot :: slots, longestTimeout, currentBiggestTimeOut => do
    match ← clientAt slot with
    | none => longestWaiter key slots longestTimeout currentBiggestTimeOut
    | some (ptr, client) =>
      if client.isBlpop ∧ client.isBlocked ∧ client.waitingForKey = some key then do
        let now ← getCurrentTimeMs
        let clientWaitingTime : Int := (now - client.blockedAt).natAbs
        if currentBiggestTimeOut < clientWaitingTime then
          longestWaiter key slots (some ptr) clientWaitingTime
        else longestWaiter key slots longestTimeout currentBiggestTimeOut
      else longestWaiter key slots longestTimeout currentBiggestTimeOut

/-- The delivery of `values[0]` to a blocked client. -/
def serveWaiter (key : Bytes) (values : List Bytes) (ptr : ClientPtr) : M D Unit :=
  match values.head? with
  | none => fault .outOfBounds
  | some first => do
    let longestTimeout ← loadClient ptr
    sendText 1024 longestTimeout.fd (popReply key first)
    updateEntry key (.list (shiftLeft 1 values))
    updateClient ptr fun client =>
      { client with isBlocked := false, isBlpop := false, waitingForKey := none }

def handleRpush (req : RespRequest) (clientFd : Int) : M D Unit :=
  if req.argc < 2 then
    send clientFd (lit "-ERR wrong number of arguments for 'rpush' command\r\n")
  else do
    let key ← req.arg 0
    let list ← openList key
    let values := list ++ req.args.drop 1
    updateEntry key (.list values)
    sendText 1024 clientFd (integerReply values.length)
    match ← longestWaiter key clientSlots none 0 with
    | none => pure ()
    | some ptr => serveWaiter key values ptr

/-- The array after `realloc`, the loop that shifts the old elements up, and the loop that stores
the new ones in reverse order. -/
def prependReversed (items values : List Bytes) : List Bytes :=
  let grown := values ++ List.replicate items.length []
  Slots.fillBack items (Slots.moveUp items.length values.length grown)

def handleLpush (req : RespRequest) (clientFd : Int) : M D Unit :=
  if req.argc < 2 then
    send clientFd (lit "-ERR wrong number of arguments for 'lpush' command\r\n")
  else do
    let key ← req.arg 0
    let list ← openList key
    let values := prependReversed (req.args.drop 1) list
    updateEntry key (.list values)
    sendText 1024 clientFd (integerReply values.length)

/-! ## Reading -/

/-- `startIndex` and `endIndex` after the range checks; `abs` of the least `int` overflows. -/
def lrangeBounds (size startIndex endIndex : Int) : M D (Int × Int) :=
  if startIndex = -2 ^ 31 ∨ endIndex = -2 ^ 31 then fault .overflow
  else
    let startIndex := if size < startIndex.natAbs then 0 else startIndex
    let startIndex := if size < endIndex.natAbs then 0 else startIndex
    let startIndex := if startIndex < 0 then size - startIndex.natAbs else startIndex
    let endIndex := if endIndex < 0 then size - endIndex.natAbs else endIndex
    pure (startIndex, endIndex)

def handleLrange (req : RespRequest) (clientFd : Int) : M D Unit :=
  if req.argc < 3 then pure ()
  else do
    let key ← req.arg 0
    withPayload key asList (send clientFd emptyArray) fun values => do
      let size : Int := values.length
      let first ← req.arg 1
      let last ← req.arg 2
      let (startIndex, endIndex) ← lrangeBounds size (atoi first) (atoi last)
      if size ≤ startIndex ∨ endIndex < startIndex then send clientFd emptyArray
      else if startIndex = endIndex then
        match values[startIndex.toNat]? with
        | none => fault .outOfBounds
        | some value => sendText 1024 clientFd (lit "*1\r\n" ++ bulk value)
      else
        let endIndex := if size ≤ endIndex then size - 1 else endIndex
        let count := endIndex - startIndex + 1
        let header := arrayHeader count
        let selected := (values.drop startIndex.toNat).take count.toNat
        let listValue ← Buffer.appendGuarded 2048 (selected.map bulk) ⟨header, header.length⟩
        -- `strlen(listValue)`, which counts the text that did not fit whole
        send clientFd listValue.content

def handleLlen (req : RespRequest) (clientFd : Int) : M D Unit :=
  if req.argc < 1 then pure ()
  else do
    let key ← req.arg 0
    withPayload key asList (send clientFd (lit ":0\r\n")) fun values =>
      sendText 1024 clientFd (integerReply values.length)

/-! ## Popping -/

/-- The reply with an array of popped elements. -/
def sendPopped (clientFd : Int) (popped : List Bytes) : M D Unit := do
  let header := arrayHeader popped.length
  let deletedValues ← Buffer.appendAll 2048 (popped.map bulk) ⟨header, header.length⟩
  deletedValues.sendPrefix 2048 clientFd

def outOfRange : Bytes := lit "-ERR value is out of range, must be positive\r\n"

def handleLpop (req : RespRequest) (clientFd : Int) : M D Unit :=
  if req.argc < 1 then pure ()
  else do
    let key ← req.arg 0
    withPayload key asList (send clientFd nilReply) fun values =>
      match values.head? with
      | none => send clientFd emptyArray
      | some first =>
        if req.argc = 2 then do
          let count := atoi (← req.arg 1)
          if count < 0 then send clientFd outOfRange
          else if count = 0 then send clientFd emptyArray
          else do
            let count := min count.toNat values.length
            sendPopped clientFd (values.take count)
            updateEntry key (.list (shiftLeft count values))
        else do
          sendText 2048 clientFd (bulk first)
          updateEntry key (.list (shiftLeft 1 values))

def handleRpop (req : RespRequest) (clientFd : Int) : M D Unit :=
  if req.argc < 1 then pure ()
  else do
    let key ← req.arg 0
    withPayload key asList (send clientFd nilReply) fun values =>
      match values.getLast? with
      | none => send clientFd emptyArray
      | some last =>
        if req.argc = 2 then do
          let count := atoi (← req.arg 1)
          if count < 0 then send clientFd outOfRange
          else if count = 0 then send clientFd emptyArray
          else do
            let count := min count.toNat values.length
            sendPopped clientFd (values.drop (values.length - count))
            updateEntry key (.list (values.take (values.length - count)))
        else do
          sendText 1024 clientFd (bulk last)
          updateEntry key (.list (values.take (values.length - 1)))

/-! ## Blocking -/

/-- `timeout_at` of a client that blocks: 0 for a wait without end. -/
def blpopDeadline [Externals D] (sec : D) : M D Int :=
  if Externals.eq sec (Externals.ofInt 0) then pure 0
  else do
    let now ← getCurrentTimeMs
    pure (Externals.toInt (Externals.add (Externals.ofInt now)
      (Externals.mul sec (Externals.ofInt 1000))))

def handleBlpop [Externals D] (req : RespRequest) (ptr : ClientPtr) : M D Unit :=
  if req.argc < 2 then pure ()
  else do
    let key ← req.arg 0
    let values ← withPayload key asList (pure []) pure
    match values.head? with
    | some first => do
      let client ← loadClient ptr
      sendText 1024 client.fd (popReply key first)
      updateEntry key (.list (shiftLeft 1 values))
    | none => do
      let sec ← req.arg (req.argc - 1).toNat
      let timeoutAt ← blpopDeadline (Externals.atof sec : D)
      let blockedAt ← getCurrentTimeMs
      updateClient ptr fun client =>
        { client with
          timeoutAt := timeoutAt, isBlpop := true, isBlocked := true, blockedAt := blockedAt,
          waitingForKey := some key }

/-- The reply of a BLPOP whose time is over: the first element, which stays in the list, or the
null array. -/
def endblpopReply (key : Bytes) : M D Bytes := do
  if ← hasListValue key then
    withPayload key asList (fault .nullDeref) fun values =>
      match values.head? with
      | none => fault .outOfBounds
      | some first => pure ((popReply key first).take 1023)
  else pure nilArray

def handleEndblpop (clientPtr : Option ClientPtr) : M D Unit := do
  let now ← getCurrentTimeMs
  match clientPtr with
  | none => pure ()
  | some ptr => do
    let client ← loadClient ptr
    if client.isBlpop ∧ client.timeoutAt ≠ 0 ∧ client.timeoutAt ≤ now then
      match client.waitingForKey with
      | none => fault .nullDeref
      | some key => do
        let reply ← endblpopReply key
        send client.fd reply
        updateClient ptr fun client =>
          { client with isBlocked := false, isBlpop := false, waitingForKey := none }
    else pure ()

end RedisClone
