import RedisClone.Utils

/-! # `channels_handler.c` -/

namespace RedisClone

open CString

variable {D : Type}

/-- The loop that compares `channel` with the given slots of `channel_subed`; `strcmp` on a slot
that UNSUBSCRIBE cleared reads through NULL. -/
def alreadySubed (channel : Bytes) : List (Option Bytes) → M D Bool
  | [] => pure false
  | none :: _ => fault .nullDeref
  | some subed :: rest => if subed = channel then pure true else alreadySubed channel rest

/-- The confirmation of one channel, `"*3\r\n$9\r\nsubscribe\r\n..."`. -/
def subscribeText (channel : Bytes) (channelCount : Nat) : Bytes :=
  lit "*3\r\n$9\r\nsubscribe\r\n" ++ bulk channel ++ integerReply channelCount

/-- The loop of `handle_subscribe` over the arguments. -/
def subscribeAll (ptr : ClientPtr) : List Bytes → Buffer → M D Buffer
  | [], msg => pure msg
  | channel :: channels, msg => do
    let client ← loadClient ptr
    if maxChannels ≤ client.channelCount then pure msg
    else do
      let already ← alreadySubed channel (client.channelSubed.take client.channelCount)
      let channelCount := if already then client.channelCount else client.channelCount + 1
      Exec.onlyIf (!already) <| updateClient ptr fun client =>
        { client with
          channelSubed := client.channelSubed.set client.channelCount (some channel),
          channelCount := channelCount }
      let text := subscribeText channel channelCount
      let printed ← msg.print 1024 text
      if printed.offset + text.length < 1024 then
        subscribeAll ptr channels { printed with offset := printed.offset + text.length }
      else pure printed

def handleSubscribe (req : RespRequest) (ptr : ClientPtr) : M D Unit := do
  updateClient ptr fun client => { client with isSubscribed := true }
  let msg ← subscribeAll ptr req.args {}
  let client ← loadClient ptr
  msg.sendPrefix 1024 client.fd

/-- The inner loop of `handle_publish`; the result is the number of messages sent. -/
def publishTo (fd : Int) (channel message : Bytes) : List (Option Bytes) → M D Nat
  | [] => pure 0
  | none :: _ => fault .nullDeref
  | some subed :: rest =>
    if subed = channel then do
      sendText 1024 fd (lit "*3\r\n$7\r\nmessage\r\n" ++ bulk channel ++ bulk message)
      let others ← publishTo fd channel message rest
      pure (others + 1)
    else publishTo fd channel message rest

/-- The loop of `handle_publish` over the clients. -/
def publishAll (channel message : Bytes) : List ClientSlot → (clientsSubed : Nat) → M D Nat
  | [], clientsSubed => pure clientsSubed
  | slot :: slots, clientsSubed => do
    match ← clientAt slot with
    | none => publishAll channel message slots clientsSubed
    | some (_, client) => do
      let delivered ← publishTo client.fd channel message
        (client.channelSubed.take client.channelCount)
      publishAll channel message slots (clientsSubed + delivered)

def handlePublish (req : RespRequest) (clientFd : Int) : M D Unit :=
  if req.argc < 2 then pure ()
  else do
    let channel ← req.arg 0
    let message ← req.arg 1
    let clientsSubed ← publishAll channel message clientSlots 0
    sendText 64 clientFd (integerReply clientsSubed)

/-- The loop of `handle_unsubscribe` from index `i`: `channel_count` is read in every round, and a
match clears its slot without moving the later ones. -/
def unsubscribeFrom (ptr : ClientPtr) (channel : Bytes) : (fuel i : Nat) → M D Unit
  | 0, _ => pure ()
  | fuel + 1, i => do
    let client ← loadClient ptr
    if i < client.channelCount then
      match client.channelSubed[i]? with
      | some (some subed) => do
        Exec.onlyIf (subed = channel) <| updateClient ptr fun client =>
          { client with
            channelSubed := client.channelSubed.set i none,
            channelCount := client.channelCount - 1 }
        unsubscribeFrom ptr channel fuel (i + 1)
      | _ => fault .nullDeref
    else pure ()

def handleUnsubscribe (req : RespRequest) (ptr : ClientPtr) : M D Unit :=
  if req.argc < 1 then pure ()
  else do
    let channel ← req.arg 0
    -- `channel_count` is at most 64, so the loop ends within that many rounds
    unsubscribeFrom ptr channel maxChannels 0
    let client ← loadClient ptr
    sendText 1024 client.fd
      (lit "*3\r\n$11\r\nunsubscribe\r\n" ++ bulk channel ++ integerReply client.channelCount)

end RedisClone
