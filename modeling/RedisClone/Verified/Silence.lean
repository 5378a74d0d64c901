import RedisClone.Verified.Stored
import RedisClone.Verified.BlockingState
import RedisClone.Verified.Connections
import RedisClone.Verified.PendingWaits
import RedisClone.Verified.Watching

/-! # What a replica sends to its master

Every handler decides for itself whether it replies on the connection to the master.  `WithholdsReply` lists the
arms that do not, and the branches of the others that reply nothing; `replica_silent` shows that a request of the
master that meets it sends no byte back, from every state that a run of the replica reaches.
-/

namespace RedisClone

open Exec CString

variable {D : Type}

/-! ## The bytes for one descriptor -/

/-- The bytes that were sent to the descriptor. -/
def World.bytesTo (w : World D) (fd : Int) : Bytes := (w.sent.filter fun message => message.1 = fd).flatMap Prod.snd

/-- Nothing was sent to the descriptor. -/
def SilentTo (fd : Int) (w w' : World D) : Prop := w'.bytesTo fd = w.bytesTo fd

/-- Nothing was sent. -/
def SameSent (w w' : World D) : Prop := w'.sent = w.sent

/-- Nothing was sent, and the clients and the configuration are the same. -/
structure SameServer (w w' : World D) : Prop where
  sent : w'.sent = w.sent
  heap : w'.heap = w.heap
  clients : w'.clients = w.clients
  serverConfig : w'.serverConfig = w.serverConfig

section Silent

variable {fd : Int} {w w' w'' : World D}

instance storing_sameServer : Storing (SameServer (D := D)) where
  composes := ⟨fun _ => ⟨rfl, rfl, rfl, rfl⟩, fun before after => ⟨after.sent.trans before.sent,
    after.heap.trans before.heap, after.clients.trans before.clients, after.serverConfig.trans before.serverConfig⟩⟩
  setBucket _ _ _ := ⟨rfl, rfl, rfl, rfl⟩
  tick _ := ⟨rfl, rfl, rfl, rfl⟩
  takeFresh _ := ⟨rfl, rfl, rfl, rfl⟩

instance storing_sameSent : Storing (SameSent (D := D)) where
  composes := ⟨fun _ => rfl, fun before after => Eq.trans after before⟩
  setBucket _ _ _ := rfl
  tick _ := rfl
  takeFresh _ := rfl

instance sameSent_updateClient (ptr : ClientPtr) (f : Client → Client) :
    Preserves SameSent (updateClient ptr f : M D Unit) where
  run w _ w' run := by
    obtain ⟨client, found, rfl⟩ := updateClient_eq_ok.mp run
    rfl

theorem SilentTo.of_sameSent (same : SameSent w w') : SilentTo fd w w' := by
  unfold SilentTo World.bytesTo
  rw [show w'.sent = w.sent from same]

theorem SilentTo.trans (before : SilentTo fd w w') (after : SilentTo fd w' w'') : SilentTo fd w w'' :=
  Eq.trans after before

theorem SilentTo.of_append {messages : List (Int × Bytes)} (sent : w'.sent = w.sent ++ messages)
    (silent : ∀ message ∈ messages, message.1 = fd → message.2 = []) : SilentTo fd w w' := by
  have nothing : (messages.filter fun message => message.1 = fd).flatMap Prod.snd = [] := by
    apply List.flatMap_eq_nil_iff.mpr
    intro message member
    obtain ⟨inMessages, same⟩ := List.mem_filter.mp member
    exact silent message inMessages (of_decide_eq_true same)
  unfold SilentTo World.bytesTo
  rw [sent, List.filter_append, List.flatMap_append, nothing, List.append_nil]

/-- A message to another descriptor. -/
theorem SilentTo.emit {other : Int} (w : World D) (bytes : Bytes) (elsewhere : other ≠ fd) :
    SilentTo fd w (w.emit other bytes) := by
  have sent : (w.emit other bytes).sent = w.sent ++ [(other, bytes)] := rfl
  apply SilentTo.of_append sent
  intro message member same
  rw [List.mem_singleton.mp member] at same
  exact absurd same elsewhere

end Silent

/-! ## The condition -/

/-- The arms that reply nothing to a request with fewer arguments. -/
def argsToReply : RedisCmds → Option Int
  | .info | .lpop | .llen | .zcard | .unsubscribe => some 1
  | .auth | .blpop | .zrank | .zscore | .zrem | .geopos | .publish | .xadd => some 2
  | .lrange | .zadd | .zrange | .geodist => some 3
  | .geoadd => some 4
  | .geosearch => some 7
  | _ => none

/-- ACL answers no other subcommand, and with nothing a SETUSER that sets a password for another user. -/
def aclWithholds (req : RespRequest) (subCmd : Bytes) : Bool :=
  upper subCmd ≠ lit "WHOAMI" && upper subCmd ≠ lit "GETUSER" &&
    (upper subCmd ≠ lit "SETUSER" || 3 ≤ req.argc && req.args[2]?.all (fun rule => rule.head? = some 62) &&
      req.args[1]?.all fun user => upper user ≠ lit "DEFAULT")

/-- The arm replies nothing on the connection to the master. -/
def withholdsReply (w : World D) (client : Client) (req : RespRequest) : Bool :=
  match req.command with
  | .set | .del | .exists | .expire | .ttl | .decr | .append | .strlen | .mget | .rpop | .hset | .hget
  | .hgetall | .hdel | .sadd | .srem | .smembers | .sismember | .xgroup => true
  | .ping => !client.isSubscribed
  | .replconf => req.args[0]?.any fun subCmd => upper subCmd = lit "ACK"
  | .info => req.args[0]?.any fun part => upper part ≠ lit "REPLICATION"
  | .configGet => 2 < req.argc || req.args[0]?.any fun parameter =>
      ((configParameters w.serverConfig).lookup (upper parameter)).isNone
  | .acl => req.args[0]?.any (aclWithholds req)
  | .blpop => req.args[0]?.all fun key => (elements w.table key).isEmpty
  | .xadd => req.args[0]?.all fun key => ¬ client.reads key
  | .xread => w.seesBlock req && w.answersLater req
  | .wait => !client.isReplica && req.args[0]?.all fun wanted =>
      (w.acknowledged w.serverConfig.masterReplOffset : Int) < atoi wanted
  | .subscribe => req.args.isEmpty || maxChannels ≤ client.channelCount
  | _ => false

/-- The request of the master is answered with nothing. -/
def isUnanswered (w : World D) (client : Client) (req : RespRequest) : Bool :=
  req.command = .watch && req.argc < 1 ||
    reachesArm client req &&
      ((argsToReply req.command).any (fun needed => req.argc < needed) || withholdsReply w client req)

/-! ## The arms -/

section Arms

variable {w t : World D} {req : RespRequest} {ptr : ClientPtr} {client : Client} {fd : Int}

theorem arm_few [Externals D] {needed : Int} (isNeeded : argsToReply req.command = some needed)
    (few : req.argc < needed) : (arm req ptr client : M D Unit) = pure () := by
  unfold arm
  cases command : req.command <;> simp only [argsToReply, command, Option.some.injEq, reduceCtorEq] at isNeeded
  case info => rw [handleInfo, if_pos (by omega)]
  case lpop => rw [handleLpop, if_pos (by omega)]
  case llen => rw [handleLlen, if_pos (by omega)]
  case zcard => rw [handleZcard, if_pos (by omega)]
  case unsubscribe => rw [handleUnsubscribe, if_pos (by omega)]
  case auth => rw [handleAuth, if_pos (by omega)]
  case blpop => rw [handleBlpop, if_pos (by omega)]
  case zrank => rw [handleZrank, if_pos (by omega)]
  case zscore => rw [handleZscore, if_pos (by omega)]
  case zrem => rw [handleZrem, if_pos (by omega)]
  case geopos => rw [handleGeopos, if_pos (by omega)]
  case publish => rw [handlePublish, if_pos (by omega)]
  case xadd => rw [handleSet, if_pos (by omega)]
  case lrange => rw [handleLrange, if_pos (by omega)]
  case zadd => rw [handleZadd, if_pos (by omega)]
  case zrange => rw [handleZrange, if_pos (by omega)]
  case geodist => rw [handleGeodist, if_pos (by omega)]
  case geoadd => rw [handleGeoadd, if_pos (by omega)]
  case geosearch => rw [handleGeosearch, if_pos (by omega)]

theorem sendUnlessMaster_silent {bytes : Bytes} (isMaster : fd = w.serverConfig.masterFd)
    (run : sendUnlessMaster fd bytes w = .ok ((), t)) : t = w := by
  unfold sendUnlessMaster at run
  rw [bind_of_ok (show config w = .ok (w.serverConfig, w) from rfl)] at run
  simpa [isMaster, eq_comm] using run

theorem handleSet_silent (isMaster : fd = w.serverConfig.masterFd)
    (run : handleSet req .string fd w = .ok ((), t)) : SameSent w t := by
  unfold handleSet at run
  split at run
  · obtain rfl : w = t := by simpa using run
    exact rfl
  · obtain ⟨key, read, reads, afterKey⟩ := bind_eq_ok.mp run
    obtain ⟨_, rfl⟩ := arg_ok.mp reads
    obtain ⟨value, read', reads', afterValue⟩ := bind_eq_ok.mp afterKey
    obtain ⟨_, rfl⟩ := arg_ok.mp reads'
    obtain ⟨_, stored, stores, sends⟩ := bind_eq_ok.mp afterValue
    have same : SameServer read' stored := Preserves.run _ _ _ stores
    obtain rfl := sendUnlessMaster_silent (by rw [same.serverConfig, isMaster]) sends
    exact same.sent

theorem handleAcl_silent [Externals D] {subCmd : Bytes} (isSubCmd : req.args[0]? = some subCmd)
    (withholds : aclWithholds req subCmd = true) (run : handleAcl req ptr w = .ok ((), t)) : SameSent w t := by
  simp only [aclWithholds, Bool.and_eq_true, Bool.or_eq_true, decide_eq_true_eq] at withholds
  obtain ⟨⟨notWhoami, notGetuser⟩, setsOther⟩ := withholds
  obtain ⟨_, read, reads, afterSubCmd⟩ := bind_eq_ok.mp run
  obtain ⟨isSubCmd', rfl⟩ := arg_ok.mp reads
  obtain rfl := Option.some.inj (isSubCmd.symm.trans isSubCmd')
  obtain ⟨client, loaded, loads, afterLoad⟩ := bind_eq_ok.mp afterSubCmd
  obtain ⟨found, rfl⟩ := loadClient_eq_ok.mp loads
  rw [if_neg notWhoami, if_neg notGetuser] at afterLoad
  split at afterLoad
  · rename_i isSetuser
    obtain ⟨⟨enough, isRule⟩, other⟩ := setsOther.resolve_left (not_not.mpr isSetuser)
    obtain ⟨_, set, sets, authorizes⟩ := bind_eq_ok.mp afterLoad
    obtain ⟨other', found', rfl⟩ := updateClient_eq_ok.mp authorizes
    unfold handleSetuser at sets
    rw [bind_of_ok (loadClient_found found), if_neg (by omega)] at sets
    obtain ⟨rule, read', reads', afterRule⟩ := bind_eq_ok.mp sets
    obtain ⟨isThird, rfl⟩ := arg_ok.mp reads'
    rw [isThird] at isRule
    rw [if_neg (by simpa using isRule), bind_of_ok (alter_run _ _)] at afterRule
    obtain ⟨user, read'', reads'', afterUser⟩ := bind_eq_ok.mp afterRule
    obtain ⟨isSecond, rfl⟩ := arg_ok.mp reads''
    rw [isSecond] at other
    rw [if_neg (by simpa using other)] at afterUser
    obtain rfl : _ = set := by simpa using afterUser
    rfl
  · obtain rfl : loaded = t := by simpa using afterLoad
    rfl

/-- XREAD with BLOCK sends nothing before it knows that there is something to deliver. -/
theorem handleSingleXread_sent {response : Option Bytes} (sees : (blockIndex w.fresh req.args).isSome = true)
    (run : handleSingleXread req ptr w = .ok (response, t)) : SameSent w t := by
  unfold handleSingleXread at run
  obtain ⟨block, looked, looks, afterLook⟩ := bind_eq_ok.mp run
  have same : SameSent w looked := Preserves.run _ _ _ looks
  obtain ⟨_, looks'⟩ := hasBlock_run req w
  rw [looks] at looks'
  obtain ⟨index, isIndex⟩ := Option.isSome_iff_exists.mp sees
  obtain ⟨isBlock, _⟩ := Prod.mk.inj (Except.ok.inj looks')
  rw [isIndex] at isBlock
  subst isBlock
  dsimp only at afterLook
  have sameRest : SameSent looked t := by
    refine (Preserves.bind inferInstance fun _ => .bind inferInstance fun _ => .bind inferInstance fun ms => ?_).run
      _ _ _ afterLook
    refine .bind inferInstance fun timeoutAt => .bind inferInstance fun _ => .bind inferInstance fun delivery => ?_
    exact preserves_bind
  exact Eq.trans sameRest same

theorem handleXread_silent (sees : w.seesBlock req = true) (later : w.answersLater req = true)
    (run : handleStreamPrint req ptr fd .xread w = .ok ((), t)) : SameSent w t := by
  obtain ⟨fresh, seesHere, single⟩ := xread_single sees later run
  exact handleSingleXread_sent (w := { w with fresh }) seesHere single

/-- No reader of the key is behind the descriptor. -/
def NoReader (w : World D) (key : Bytes) (fd : Int) : Prop :=
  ∀ slot ptr client, w.clients slot = some ptr → w.heap ptr = some client → client.reads key → client.fd ≠ fd

theorem NoReader.of_delivers {key : Bytes} (noReader : NoReader w key fd) (delivers : Delivers key w t) :
    NoReader t key fd := by
  intro slot ptr client' inSlot found' reads
  obtain ⟨client, found, sameFd, delivered⟩ := delivers.toClientwise.back found'
  rw [sameFd]
  apply noReader slot ptr client (delivers.clients ▸ inSlot) found
  cases delivered with
  | inl same => exact (same.reads_iff key).mp reads
  | inr woken =>
    -- a client that was woken does not read
    have notBlocked : client'.isBlocked = false := congrArg Blocking.isBlocked woken.2
    simp [Client.reads, notBlocked] at reads

theorem tryDeliverStreamData_silent {key : Bytes} (found : w.heap ptr = some client)
    (waits : client.waitingForKey = some key) (elsewhere : client.reads key → client.fd ≠ fd)
    (run : tryDeliverStreamData ptr w = .ok ((), t)) : SilentTo fd w t := by
  have nothing (same : (pure () : M D Unit) w = .ok ((), t)) : SilentTo fd w t := by
    obtain rfl : w = t := by simpa using same
    rfl
  unfold tryDeliverStreamData at run
  rw [bind_of_ok (loadClient_found found)] at run
  cases blocked : client.isBlocked with
  | false =>
    simp only [blocked] at run
    exact nothing run
  | true =>
    cases first : client.minId with
    | none =>
      simp only [blocked, waits, first] at run
      exact nothing run
    | some minId =>
      have reads : client.reads key := ⟨blocked, waits, by simp [first]⟩
      simp only [blocked, waits, first] at run
      obtain ⟨⟨messages, count⟩, read, reading, afterRead⟩ := bind_eq_ok.mp run
      have same : SameSent w read := Preserves.run _ _ _ reading
      have silent : SilentTo fd w read := .of_sameSent same
      dsimp only at afterRead
      cases messages with
      | none =>
        obtain rfl : read = t := by simpa using afterRead
        exact silent
      | some messages =>
        dsimp only at afterRead
        split at afterRead
        · obtain ⟨_, sent, sends, wakes⟩ := bind_eq_ok.mp afterRead
          obtain ⟨client', found', rfl⟩ := updateClient_eq_ok.mp wakes
          obtain rfl := send_run sends
          exact silent.trans (.emit read _ (elsewhere reads))
        · obtain rfl : read = t := by simpa using afterRead
          exact silent

theorem forM_wakeStreamReader_silent {key : Bytes} {slots : List ClientSlot} (noReader : NoReader w key fd)
    (run : forM slots (wakeStreamReader key) w = .ok ((), t)) : SilentTo fd w t := by
  induction slots generalizing w with
  | nil =>
    obtain rfl : w = t := by simpa using run
    rfl
  | cons slot slots inductionHypothesis =>
    rw [List.forM_cons] at run
    obtain ⟨_, woken, first, rest⟩ := bind_eq_ok.mp run
    have single : forM [slot] (wakeStreamReader key) w = .ok ((), woken) := by simpa using first
    have delivers := forM_wakeStreamReader_delivers single
    refine SilentTo.trans ?_ (inductionHypothesis (noReader.of_delivers delivers) rest)
    unfold wakeStreamReader at first
    obtain ⟨occupant, looked, look, wakes⟩ := bind_eq_ok.mp first
    obtain ⟨rfl, inSlot, found⟩ := clientAt_run look
    cases occupant with
    | none =>
      obtain rfl : looked = woken := by simpa using wakes
      rfl
    | some occupant =>
      dsimp only at wakes
      split at wakes
      · rename_i waits
        have inHeap := found occupant.1 occupant.2 rfl
        exact tryDeliverStreamData_silent inHeap waits.2 (noReader slot _ _ inSlot inHeap) wakes
      · obtain rfl : looked = woken := by simpa using wakes
        rfl

theorem handleXadd_silent (isMaster : fd = w.serverConfig.masterFd)
    (noReader : ∀ key ∈ req.args[0]?, NoReader w key fd) (run : handleSet req .stream fd w = .ok ((), t)) :
    SilentTo fd w t := by
  unfold handleSet at run
  split at run
  · obtain rfl : w = t := by simpa using run
    rfl
  · unfold handleSetStream at run
    obtain ⟨key, read, reads, afterKey⟩ := bind_eq_ok.mp run
    obtain ⟨isKey, rfl⟩ := arg_ok.mp reads
    obtain ⟨stream, opened, opens, afterStream⟩ := bind_eq_ok.mp afterKey
    have opening : Preserves SameServer (withPayload key asStream (pure ⟨[], none, 0, 0, 0⟩) pure : M D Stream) :=
      preserves_payload inferInstance inferInstance inferInstance
    obtain ⟨id, read', reads', afterId⟩ := bind_eq_ok.mp afterStream
    obtain ⟨_, rfl⟩ := arg_ok.mp reads'
    obtain ⟨errorMsg, checked, checks, afterCheck⟩ := bind_eq_ok.mp afterId
    have first : SameServer read checked :=
      storing_sameServer.composes.trans (opening.run _ _ _ opens) (Preserves.run _ _ _ checks)
    cases errorMsg with
    | some errorResp =>
      obtain rfl := sendUnlessMaster_silent (by rw [first.serverConfig, isMaster]) afterCheck
      exact .of_sameSent first.sent
    | none =>
      obtain ⟨entryId, chosen, chooses, afterChoice⟩ := bind_eq_ok.mp afterCheck
      obtain ⟨pair, scanned, scans, afterScan⟩ := bind_eq_ok.mp afterChoice
      obtain ⟨_, appended, appends, afterAppend⟩ := bind_eq_ok.mp afterScan
      obtain ⟨_, replied, replies, wakes⟩ := bind_eq_ok.mp afterAppend
      have second : SameServer checked scanned :=
        storing_sameServer.composes.trans (Preserves.run _ _ _ chooses) (Preserves.run _ _ _ scans)
      have third : SameServer checked appended :=
        storing_sameServer.composes.trans second (Preserves.run _ _ _ appends)
      have all : SameServer read appended := storing_sameServer.composes.trans first third
      -- the ID of the entry is not sent to the master either
      have same : replied = appended := by
        unfold sendEntryId at replies
        rw [bind_of_ok (show config appended = .ok (appended.serverConfig, appended) from rfl)] at replies
        simpa [all.serverConfig, isMaster, eq_comm] using replies
      subst same
      have noReaderLeft : NoReader replied key fd := by
        unfold NoReader
        rw [all.clients, all.heap]
        exact noReader key isKey
      exact SilentTo.trans (.of_sameSent all.sent) (forM_wakeStreamReader_silent noReaderLeft wakes)

/-- WAIT asks the replicas only. -/
theorem handleWait_silent (noReplica : ∀ slot client, w.occupant slot = some client → client.isReplica = true →
      client.fd ≠ fd)
    (few : ∀ wanted ∈ req.args[0]?, (w.acknowledged w.serverConfig.masterReplOffset : Int) < atoi wanted)
    (run : handleWait req fd w = .ok ((), t)) : SilentTo fd w t := by
  cases handleWait_ok run with
  | answered wanted isWanted enough keeps =>
    have := few wanted isWanted
    omega
  | pending wanted asked isWanted notEnough asks marks =>
    have sent : t.sent = w.sent ++ w.asks := by
      obtain ⟨same, _⟩ | ⟨ptr, client, timeoutAt, marks⟩ := marks
      · rw [same, asks]
      · rw [marks.keeps, asks]
    apply SilentTo.of_append sent
    intro message member same
    obtain ⟨slot, _, asked⟩ := List.mem_filterMap.mp member
    obtain ⟨client, occupied, isAsked⟩ := Option.bind_eq_some_iff.mp asked
    split at isAsked
    · rename_i isReplica
      obtain rfl := Option.some.inj isAsked
      exact absurd same (noReplica slot client occupied isReplica)
    · simp at isAsked

theorem handleSubscribe_silent (found : w.heap ptr = some client)
    (nothing : req.args = [] ∨ maxChannels ≤ client.channelCount)
    (run : handleSubscribe req ptr w = .ok ((), t)) : SilentTo fd w t := by
  unfold handleSubscribe at run
  obtain ⟨_, subscribed, subscribes, afterSubscribe⟩ := bind_eq_ok.mp run
  obtain ⟨client', found', rfl⟩ := updateClient_eq_ok.mp subscribes
  obtain rfl : client = client' := Option.some.inj (found.symm.trans found')
  obtain ⟨msg, printed, prints, afterPrint⟩ := bind_eq_ok.mp afterSubscribe
  have inHeap : (w.setClient ptr { client with isSubscribed := true }).heap ptr =
      some { client with isSubscribed := true } := Function.update_self _ _ _
  have empty : msg = {} ∧ printed = w.setClient ptr { client with isSubscribed := true } := by
    cases channels : req.args with
    | nil => simpa [channels, subscribeAll, eq_comm] using prints
    | cons channel rest =>
      have full := nothing.resolve_left (by simp [channels])
      rw [channels, subscribeAll, bind_of_ok (loadClient_found inHeap), if_pos full] at prints
      simpa [eq_comm] using prints
  obtain ⟨rfl, rfl⟩ := empty
  rw [bind_of_ok (loadClient_found inHeap)] at afterPrint
  unfold Buffer.sendPrefix at afterPrint
  rw [if_neg (by decide)] at afterPrint
  have sent : t.sent = w.sent ++ [(client.fd, [])] := by
    rw [send_run afterPrint]
    rfl
  apply SilentTo.of_append sent
  intro message member _
  rw [List.mem_singleton.mp member]

end Arms

/-! ## A request of the master -/

/-- The slot holds the connection to the master. -/
structure MasterConnection (w : World D) (slot : ClientSlot) (ptr : ClientPtr) (client : Client) : Prop where
  inSlot : w.clients slot = some ptr
  found : w.heap ptr = some client
  isMaster : client.isMaster = true
  isFd : client.fd = w.serverConfig.masterFd

section Requests

variable [Externals D] {w t : World D} {req : RespRequest} {slot : ClientSlot} {ptr : ClientPtr} {client : Client}

/-- An arm that withholds its reply, from a state in which no other client has the descriptor of the master. -/
theorem arm_silent (master : MasterConnection w slot ptr client) (only : w.OnlyFd ptr)
    (unsubscribed : reachesArm client req = true) (withholds : withholdsReply w client req = true)
    (run : arm req ptr client w = .ok ((), t)) : SilentTo client.fd w t := by
  have found := master.found
  -- another client in a slot has another descriptor
  have sender {slot' : ClientSlot} {ptr' : ClientPtr} {client' : Client} (inSlot : w.clients slot' = some ptr')
      (found' : w.heap ptr' = some client') (same : client'.fd = client.fd) : client' = client := by
    obtain rfl := only slot' ptr' client' client inSlot found' found same
    exact Option.some.inj (found'.symm.trans found)
  have nothing (same : (pure () : M D Unit) w = .ok ((), t)) : SilentTo client.fd w t := by
    obtain rfl : w = t := by simpa using same
    rfl
  unfold arm at run
  unfold withholdsReply at withholds
  cases command : req.command <;> simp only [command, Bool.false_eq_true] at withholds run
  case set => exact .of_sameSent (handleSet_silent master.isFd run)
  case xadd =>
    apply handleXadd_silent master.isFd ?_ run
    intro key isKey slot' ptr' client' inSlot found' reads same
    obtain rfl := sender inSlot found' same
    rw [isKey] at withholds
    simp [reads] at withholds
  case ping =>
    simp only [Bool.not_eq_true'] at withholds
    unfold handlePing at run
    simp only [master.isMaster, withholds] at run
    exact nothing run
  case replconf =>
    obtain ⟨subCmd, isSubCmd, isAck⟩ := (Option.any_eq_true _ _).mp withholds
    have isAck : upper subCmd = lit "ACK" := of_decide_eq_true isAck
    have enough : ¬ req.argc < 1 := by
      have := lt_argc isSubCmd
      omega
    unfold handleReplconfRequest at run
    obtain ⟨_, printed, prints, afterPrint⟩ := bind_eq_ok.mp run
    obtain rfl := printArg_same prints
    rw [if_neg enough, bind_of_ok (arg_ok.mpr ⟨isSubCmd, rfl⟩), isAck,
      if_neg fun both => absurd both.1 (by decide), if_pos rfl] at afterPrint
    unfold replconfHandleAck at afterPrint
    split at afterPrint
    · exact nothing afterPrint
    · have same : SameSent printed t := Preserves.run _ _ _ afterPrint
      exact .of_sameSent same
  case wait =>
    obtain ⟨notReplica, few⟩ := Bool.and_eq_true_iff.mp withholds
    apply handleWait_silent ?_ ?_ run
    · intro slot' client' occupied isReplica same
      obtain ⟨ptr', inSlot, found'⟩ := Option.bind_eq_some_iff.mp occupied
      obtain rfl := sender inSlot found' same
      simp [isReplica] at notReplica
    · intro wanted isWanted
      rw [isWanted] at few
      simpa using few
  case info =>
    obtain ⟨part, isPart, other⟩ := (Option.any_eq_true _ _).mp withholds
    unfold handleInfo at run
    split at run
    · exact nothing run
    · rw [bind_of_ok (arg_ok.mpr ⟨isPart, rfl⟩), if_neg (of_decide_eq_true other)] at run
      exact nothing run
  case configGet =>
    unfold handleConfig at run
    split at run
    · exact nothing run
    · rename_i notMany
      obtain many | unknown := Bool.or_eq_true_iff.mp withholds
      · exact absurd (of_decide_eq_true many) notMany
      · obtain ⟨parameter, isParameter, isNone⟩ := (Option.any_eq_true _ _).mp unknown
        rw [bind_of_ok (arg_ok.mpr ⟨isParameter, rfl⟩),
          bind_of_ok (show config w = .ok (w.serverConfig, w) from rfl),
          Option.isNone_iff_eq_none.mp isNone] at run
        exact nothing run
  case acl =>
    obtain ⟨subCmd, isSubCmd, withholds⟩ := (Option.any_eq_true _ _).mp withholds
    exact .of_sameSent (handleAcl_silent isSubCmd withholds run)
  case blpop =>
    cases handleBlpop_ok run with
    | nothing few same =>
      rw [same]
      rfl
    | popped key first rest expiresAt client' enough isKey bound found' keeps stores =>
      rw [isKey] at withholds
      simp [elements_of_list bound] at withholds
    | blocked key client' timeoutAt blockedAt enough isKey empty found' keeps =>
      have same : SameSent w t := by
        rw [keeps]
        rfl
      exact .of_sameSent same
  case xread =>
    obtain ⟨sees, later⟩ := Bool.and_eq_true_iff.mp withholds
    exact .of_sameSent (handleXread_silent sees later run)
  case subscribe =>
    apply handleSubscribe_silent found ?_ run
    simpa using withholds
  -- the arms without a handler
  all_goals exact nothing run

/-- What an arm calls after its handler sends nothing. -/
theorem dispatch_silent (master : MasterConnection w slot ptr client)
    (silent : ∀ handled, arm req ptr client (w.noted req) = .ok ((), handled) →
      SilentTo client.fd (w.noted req) handled)
    (run : dispatch req ptr w = .ok ((), t)) : SilentTo client.fd w t := by
  obtain ⟨client', handled, notified, found, arms, notifies, writes⟩ := dispatch_parts run
  obtain rfl : client = client' := Option.some.inj (master.found.symm.trans found)
  have atStart : SilentTo client.fd w (w.noted req) := rfl
  have afterArm : SameSent handled t := (quiet_writeToFile writes).1.trans (quiet_notifyFirst notifies).1
  exact atStart.trans ((silent handled arms).trans (.of_sameSent afterArm))

theorem handle_silent (master : MasterConnection w slot ptr client) (only : w.OnlyFd ptr)
    (unanswered : isUnanswered w client req = true) (run : handle req ptr w = .ok ((), t)) :
    SilentTo client.fd w t := by
  have found := master.found
  obtain watches | reaches := Bool.or_eq_true_iff.mp unanswered
  · obtain ⟨isWatch, few⟩ := Bool.and_eq_true_iff.mp watches
    rw [handle_watch found (of_decide_eq_true isWatch), handleWatch, if_pos (of_decide_eq_true few)] at run
    obtain rfl : w = t := by simpa using run
    rfl
  · obtain ⟨reachesArm, silent⟩ := Bool.and_eq_true_iff.mp reaches
    have starts : startsTransaction client req = false := by
      obtain ⟨ordinary, _, _⟩ := reachesArm_eq_true.mp reachesArm
      cases isExec : req.command <;> simp_all [isTransactionCmd, startsTransaction]
    apply dispatch_silent master ?_ ((handle_cases found starts run).dispatch_of_reaches reachesArm)
    intro handled arms
    obtain few | withholds := Bool.or_eq_true_iff.mp silent
    · obtain ⟨needed, isNeeded, few⟩ := (Option.any_eq_true _ _).mp few
      rw [arm_few isNeeded (of_decide_eq_true few)] at arms
      obtain rfl : w.noted req = handled := by simpa using arms
      rfl
    · have masterNoted : MasterConnection (w.noted req) slot ptr client :=
        ⟨master.inSlot, master.found, master.isMaster, master.isFd⟩
      exact arm_silent masterNoted only reachesArm withholds arms

/-! ### The runs -/

omit [Externals D] in
/-- `accept` gives no connection the descriptor of another one. -/
def AcceptsUnused (s : Server D) : Event → Prop
  | .connect fd _ => ∀ slot, ∀ client ∈ s.world.occupant slot, client.fd ≠ fd
  | _ => True

instance (s : Server D) (event : Event) : Decidable (AcceptsUnused s event) :=
  match event with
  | .connect fd _ => inferInstanceAs (Decidable (∀ slot, ∀ client ∈ s.world.occupant slot, client.fd ≠ fd))
  | .poll _ | .timers | .disconnect _ | .request _ _ | .proceed => .isTrue trivial

/-- No two connections have one descriptor. -/
def ApartFds (w : World D) : Prop :=
  ∀ slot slot' ptr ptr' client client', w.clients slot = some ptr → w.heap ptr = some client →
    w.clients slot' = some ptr' → w.heap ptr' = some client' → client.fd = client'.fd → ptr = ptr'

omit [Externals D] in
theorem Connected.apartFds (connected : Connected w) : ApartFds w :=
  fun slot _ _ _ client client' inSlot found inSlot' found' same =>
    connected.onlyFd inSlot' slot _ client client' inSlot found found' same

theorem apartFds_step {s s' : Server D} {event : Event} (outside : OutsideMulti s) (apart : ApartFds s.world)
    (unused : AcceptsUnused s event) (step : Step s event s') : ApartFds s'.world := by
  have reconnects := reconnects_of_step outside step
  generalize s'.world = w' at reconnects
  intro slot slot' ptr ptr' client client' inSlot found inSlot' found' same
  cases reconnects with
  | kept clientwise =>
    obtain ⟨before, foundBefore, fd, _⟩ := clientwise.back found
    obtain ⟨before', foundBefore', fd', _⟩ := clientwise.back found'
    rw [clientwise.clients] at inSlot inSlot'
    exact apart slot slot' ptr ptr' before before' inSlot foundBefore inSlot' foundBefore'
      (fd.symm.trans (same.trans fd'))
  | connected newSlot isNext =>
    rename_i fd new
    -- a client that was there before has its slot, and another descriptor than the new one
    have old {slot : ClientSlot} {ptr : ClientPtr} {client : Client} (isOld : ptr ≠ new)
        (inSlot : (s.world.accept newSlot fd new).clients slot = some ptr)
        (found : (s.world.accept newSlot fd new).heap ptr = some client) :
        s.world.clients slot = some ptr ∧ s.world.heap ptr = some client ∧ client.fd ≠ fd := by
      have isOldSlot : slot ≠ newSlot := by
        rintro rfl
        simp only [World.accept, Function.update_self, Option.some.injEq] at inSlot
        exact isOld inSlot.symm
      simp only [World.accept, Function.update_of_ne isOldSlot] at inSlot
      simp only [World.accept, Function.update_of_ne isOld] at found
      exact ⟨inSlot, found, unused slot client (by simp [World.occupant, inSlot, found])⟩
    have newFd {client : Client} (found : (s.world.accept newSlot fd new).heap new = some client) :
        client.fd = fd := by
      simp only [World.accept, Function.update_self, Option.some.injEq] at found
      rw [← found]
      rfl
    by_cases isNew : ptr = new
    · by_cases isNew' : ptr' = new
      · rw [isNew, isNew']
      · subst isNew
        obtain ⟨_, _, otherFd⟩ := old isNew' inSlot' found'
        exact absurd (same.symm.trans (newFd found)) otherFd
    · obtain ⟨inOld, foundOld, otherFd⟩ := old isNew inSlot found
      by_cases isNew' : ptr' = new
      · subst isNew'
        exact absurd (same.trans (newFd found')) otherFd
      · obtain ⟨inOld', foundOld', _⟩ := old isNew' inSlot' found'
        exact apart slot slot' ptr ptr' client client' inOld foundOld inOld' foundOld' same
  | disconnected last dropped occupied =>
    obtain ⟨_, old, inOld, _⟩ := drop_origin inSlot
    obtain ⟨_, old', inOld', _⟩ := drop_origin inSlot'
    exact apart old old' ptr ptr' client client' inOld (heap_drop found).2 inOld' (heap_drop found').2 same

/-- In every state that a run reaches, a client in a slot has a descriptor of its own. -/
theorem onlyFd_of_run {w₀ : World D} {s : Server D} (enters : EntersLoop w₀)
    (reached : Run Step AcceptsUnused ⟨w₀, none⟩ s) (inSlot : s.world.clients slot = some ptr) : s.world.OnlyFd ptr := by
  have both : ApartFds s.world ∧ OutsideMulti s := by
    apply reached.invariant ?_ (⟨enters.connected.apartFds, fun _ _ running => nomatch running⟩ :
      ApartFds w₀ ∧ OutsideMulti ⟨w₀, none⟩)
    intro s event s' both unused step
    exact ⟨apartFds_step both.2 both.1 unused step, outsideMulti_step both.2 step⟩
  intro slot' ptr' client' sender inSlot' found' foundSender same
  exact both.1 slot' slot ptr' ptr client' sender inSlot' found' inSlot foundSender same

/-- In every state that a run of a replica reaches, a request of the master that is left unanswered sends no byte
to the master. -/
theorem replica_silent {w₀ : World D} {s : Server D} (enters : EntersLoop w₀)
    (reached : Run Step AcceptsUnused ⟨w₀, none⟩ s) (master : MasterConnection s.world slot ptr client)
    (unanswered : isUnanswered s.world client req = true) (run : handle req ptr s.world = .ok ((), t)) :
    t.bytesTo s.world.serverConfig.masterFd = s.world.bytesTo s.world.serverConfig.masterFd := by
  rw [← master.isFd]
  exact handle_silent master (onlyFd_of_run enters reached master.inSlot) unanswered run

/-- A replica before it connects to its master. -/
def aloneReplica : World Int := bootWorld { masterFd := 4 } ⟨none, none⟩ (fun _ => 0) fun _ => []

/-- The start of the replica, without a request behind the snapshot. -/
def joins : M Int Unit := do
  joinMaster 1 [] [] 0
  resetForLoop

omit [Externals D] in
theorem aloneReplica_noConnections : NoConnections aloneReplica := ⟨fun _ => rfl, rfl, fun _ => rfl⟩

/-- A SET of the master. -/
theorem replica_silent_set : ∃ w t : World Int, EntersLoop w ∧
    handle (requestOf [lit "SET", lit "k", lit "v"]) 1 w = .ok ((), t) ∧ t.executed.length = w.executed.length + 1 ∧
      t.bytesTo w.serverConfig.masterFd = w.bytesTo w.serverConfig.masterFd := by
  let set := requestOf [lit "SET", lit "k", lit "v"]
  obtain ⟨w, joining, checked⟩ := exists_ok_of_endsIn
    (show endsIn joins aloneReplica (fun w => decide (w.clients firstSlot = some 1) &&
      ((w.heap 1).any fun client => decide (client.isMaster = true ∧ client.fd = w.serverConfig.masterFd ∧
        isUnanswered w client set = true) &&
          endsIn (handle set 1) w fun t => t.executed.length = w.executed.length + 1)) = true by
      decide +kernel)
  simp only [Bool.and_eq_true, decide_eq_true_eq, Option.any_eq_true] at checked
  obtain ⟨inSlot, client, found, ⟨isMaster, isFd, unanswered⟩, ends⟩ := checked
  obtain ⟨t, run, executed⟩ := exists_ok_of_endsIn ends
  have enters : EntersLoop w := .joined aloneReplica_noConnections joining
  exact ⟨w, t, enters, run, of_decide_eq_true executed, replica_silent enters (.refl _)
    ⟨inSlot, found, isMaster, isFd⟩ unanswered run⟩

/-- The request asks the replica for its offset. -/
def isGetack (req : RespRequest) : Bool :=
  req.command = .replconf && req.args[0]?.any fun subCmd => upper subCmd = lit "GETACK"

/-- LPOP with a count sends the master an array, which the master reads as a request. -/
theorem replica_answers_lpop : ¬ ∀ (w₀ : World Int) (s : Server Int) (slot : ClientSlot) (ptr : ClientPtr)
    (client : Client) (req : RespRequest) (t : World Int), EntersLoop w₀ → Run Step AcceptsUnused ⟨w₀, none⟩ s →
      MasterConnection s.world slot ptr client → isGetack req = false → handle req ptr s.world = .ok ((), t) →
        t.bytesTo s.world.serverConfig.masterFd = s.world.bytesTo s.world.serverConfig.masterFd := by
  intro silent
  let pop := requestOf [lit "LPOP", lit "k", lit "2"]
  obtain ⟨w, joining, checked⟩ := exists_ok_of_endsIn
    (show endsIn joins aloneReplica (fun w =>
      (play AcceptsUnused ⟨w, none⟩ [arrival firstSlot [lit "RPUSH", lit "k", lit "a", lit "b"]]).any fun s =>
        decide (s.world.clients firstSlot = some 1) && ((s.world.heap 1).any fun client =>
          decide (client.isMaster = true ∧ client.fd = s.world.serverConfig.masterFd) &&
            endsIn (handle pop 1) s.world fun t => t.bytesTo s.world.serverConfig.masterFd =
              s.world.bytesTo s.world.serverConfig.masterFd ++
                encode [lit "a", lit "b"])) = true by
      decide +kernel)
  simp only [Bool.and_eq_true, decide_eq_true_eq, Option.any_eq_true] at checked
  obtain ⟨s, plays, inSlot, client, found, ⟨isMaster, isFd⟩, ends⟩ := checked
  obtain ⟨t, run, answers⟩ := exists_ok_of_endsIn ends
  have same := silent w s firstSlot 1 client pop t (.joined aloneReplica_noConnections joining) (play_run plays)
    ⟨inSlot, found, isMaster, isFd⟩ rfl run
  rw [of_decide_eq_true answers] at same
  have noBytes : encode [lit "a", lit "b"] = [] := List.append_right_eq_self.mp same
  exact absurd noBytes (by decide)

end Requests

end RedisClone
