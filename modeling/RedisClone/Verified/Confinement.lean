import RedisClone.Verified.Accounts

/-! # Handlers that answer their sender only

`Confined ptr fd`: a handler that runs for the client `ptr` behind the descriptor `fd` changes no other client and no
connection, and sends to this descriptor only.  Every arm is confined but those of RPUSH and XADD, which wake clients
that wait, PUBLISH, and WAIT (`arm_confined`).
-/

namespace RedisClone

open Exec CString

variable {D : Type}

/-- The connections and the other clients stay as they are, and only the client's descriptor is sent to. -/
structure Alone (ptr : ClientPtr) (fd : Int) (w w' : World D) : Prop where
  isFd : (w'.heap ptr).map Client.fd = some fd
  others : ∀ other, other ≠ ptr → w'.heap other = w.heap other
  clients : w'.clients = w.clients
  activeFds : w'.activeFds = w.activeFds
  watchList : w'.watchList = w.watchList
  waitClientFd : w'.serverConfig.waitClientFd = w.serverConfig.waitClientFd
  sent : ∃ texts : List Bytes, w'.sent = w.sent ++ texts.map (Prod.mk fd)

/-- A handler for the client behind the descriptor concerns nobody else. -/
def Confined (ptr : ClientPtr) (fd : Int) (w w' : World D) : Prop :=
  (w.heap ptr).map Client.fd = some fd → Alone ptr fd w w'

section Confined

variable {w w' w'' t : World D} {req : RespRequest} {ptr : ClientPtr} {client : Client} {fd : Int}

theorem Alone.of_same (texts : List Bytes) (isFd : (w'.heap ptr).map Client.fd = some fd)
    (others : ∀ other, other ≠ ptr → w'.heap other = w.heap other) (clients : w'.clients = w.clients)
    (activeFds : w'.activeFds = w.activeFds) (watchList : w'.watchList = w.watchList)
    (server : w'.serverConfig = w.serverConfig) (sent : w'.sent = w.sent ++ texts.map (Prod.mk fd)) : Alone ptr fd w w' :=
  ⟨isFd, others, clients, activeFds, watchList, congrArg _ server, texts, sent⟩

theorem confined_of_same (heap : w'.heap = w.heap) (clients : w'.clients = w.clients) (activeFds : w'.activeFds = w.activeFds)
    (watchList : w'.watchList = w.watchList) (server : w'.serverConfig = w.serverConfig) (sent : w'.sent = w.sent) :
    Confined ptr fd w w' := fun isFd =>
  .of_same [] (heap ▸ isFd) (fun _ _ => congrFun heap _) clients activeFds watchList server (by simp [sent])

theorem Alone.trans (before : Alone ptr fd w w') (after : Alone ptr fd w' w'') : Alone ptr fd w w'' where
  isFd := after.isFd
  others other isOther := (after.others other isOther).trans (before.others other isOther)
  clients := after.clients.trans before.clients
  activeFds := after.activeFds.trans before.activeFds
  watchList := after.watchList.trans before.watchList
  waitClientFd := after.waitClientFd.trans before.waitClientFd
  sent := by
    obtain ⟨first, sent⟩ := before.sent
    obtain ⟨second, sent'⟩ := after.sent
    exact ⟨first ++ second, by rw [sent', sent, List.map_append, List.append_assoc]⟩

instance storing_confined : Storing (Confined (D := D) ptr fd) where
  composes :=
    { refl := fun _ => confined_of_same rfl rfl rfl rfl rfl rfl
      trans := fun before after isFd => (before isFd).trans (after (before isFd).isFd) }
  setBucket _ _ _ := confined_of_same rfl rfl rfl rfl rfl rfl
  tick _ := confined_of_same rfl rfl rfl rfl rfl rfl
  takeFresh _ := confined_of_same rfl rfl rfl rfl rfl rfl

/-! ## What a handler does for its client -/

instance confined_send (bytes : Bytes) : Preserves (Confined ptr fd) (send fd bytes : M D Unit) where
  run w _ t run isFd := by
    rw [send_run run]
    exact .of_same [bytes] isFd (fun _ _ => rfl) rfl rfl rfl rfl rfl

instance confined_sendText (size : Nat) (text : Bytes) : Preserves (Confined ptr fd) (sendText size fd text : M D Unit) := by
  unfold sendText
  infer_instance

instance confined_sendPrefix (size : Nat) (buffer : Buffer) :
    Preserves (Confined ptr fd) (buffer.sendPrefix size fd : M D Unit) := by
  unfold Buffer.sendPrefix fault
  infer_instance

instance confined_sendUnlessMaster (bytes : Bytes) :
    Preserves (Confined ptr fd) (sendUnlessMaster fd bytes : M D Unit) := by
  unfold sendUnlessMaster
  infer_instance

/-- The client has the descriptor that the handler was given. -/
theorem confined_load {α : Type} {f : Client → M D α}
    (rest : ∀ client : Client, client.fd = fd → Preserves (Confined ptr fd) (f client)) :
    Preserves (Confined ptr fd) (loadClient ptr >>= f) where
  run w a t run isFd := by
    obtain ⟨client, loaded, load, goesOn⟩ := bind_eq_ok.mp run
    obtain ⟨found, rfl⟩ := loadClient_eq_ok.mp load
    rw [found] at isFd
    exact (rest client (Option.some.inj isFd)).run _ a t goesOn (by rw [found]; exact isFd)

theorem confined_updateClient {f : Client → Client} (sameFd : ∀ client, (f client).fd = client.fd) :
    Preserves (Confined ptr fd) (updateClient ptr f : M D Unit) where
  run w _ t run isFd := by
    obtain ⟨client, found, rfl⟩ := updateClient_eq_ok.mp run
    rw [found] at isFd
    have inHeap : (w.setClient ptr (f client)).heap ptr = some (f client) := Function.update_self _ _ _
    refine .of_same [] ?_ (fun other isOther => Function.update_of_ne isOther _ _) rfl rfl rfl rfl
      (List.append_nil _).symm
    rw [inHeap]
    exact congrArg some ((sameFd client).trans (Option.some.inj isFd))

theorem confined_authorize (nopass : World D → Bool) (password : World D → Bytes) : Preserves (Confined ptr fd)
    (Exec.alter fun w => { w with defaultHasNopass := nopass w, defaultPassword := password w } : M D Unit) where
  run w _ t run := by
    obtain rfl : _ = t := by simpa using run
    exact confined_of_same rfl rfl rfl rfl rfl rfl

/-- A reader of the payload of a key. -/
theorem confined_payload {α β : Type} {key : Bytes} {cast : Value D → M D α} {missing : M D β} {found : α → M D β}
    [∀ value, Preserves (Confined ptr fd) (cast value)] [Preserves (Confined ptr fd) missing]
    (each : ∀ payload, Preserves (Confined ptr fd) (found payload)) :
    Preserves (Confined ptr fd) (withPayload key cast missing found) :=
  preserves_payload inferInstance inferInstance each

/-! ## Lists -/

instance confined_handleLpush : Preserves (Confined ptr fd) (handleLpush req fd : M D Unit) := by
  unfold handleLpush
  infer_instance

instance confined_handleLrange : Preserves (Confined ptr fd) (handleLrange req fd : M D Unit) := by
  have guarded (size : Nat) (texts : List Bytes) (buffer : Buffer) :
      Preserves (Confined ptr fd) (Buffer.appendGuarded size texts buffer : M D Buffer) := by
    induction texts generalizing buffer with
    | nil => exact preserves_pure buffer
    | cons text texts inductionHypothesis =>
      unfold Buffer.appendGuarded
      infer_instance
  unfold handleLrange
  split
  · infer_instance
  · refine .bind inferInstance fun key => confined_payload fun values => ?_
    refine .bind inferInstance fun first => .bind inferInstance fun last => ?_
    refine .bind ?_ fun bounds => ?_
    · unfold lrangeBounds fault
      infer_instance
    · dsimp only
      split
      · infer_instance
      · split
        · split
          · exact preserves_fault _
          · infer_instance
        · infer_instance

instance confined_handleLlen : Preserves (Confined ptr fd) (handleLlen req fd : M D Unit) := by
  unfold handleLlen
  split
  · infer_instance
  · exact .bind inferInstance fun key => confined_payload inferInstance

instance confined_handleLpop : Preserves (Confined ptr fd) (handleLpop req fd : M D Unit) := by
  unfold handleLpop
  split
  · infer_instance
  · refine .bind inferInstance fun key => confined_payload fun values => ?_
    cases values.head? with
    | none => exact confined_send _
    | some first =>
      unfold sendPopped
      exact preserves_ite

section Blpop

variable [Externals D]

instance confined_handleBlpop : Preserves (Confined ptr fd) (handleBlpop req ptr : M D Unit) := by
  have blocks (key : Bytes) (timeoutAt blockedAt : Int) : Preserves (Confined ptr fd) (updateClient ptr fun client =>
      { client with timeoutAt := timeoutAt, isBlpop := true, isBlocked := true, blockedAt := blockedAt
                    waitingForKey := some key } : M D Unit) :=
    confined_updateClient fun _ => rfl
  unfold handleBlpop blpopDeadline
  split
  · infer_instance
  · refine .bind inferInstance fun key => .bind (confined_payload inferInstance) fun values => ?_
    cases values.head? with
    | none => exact preserves_bind
    | some first =>
      refine confined_load fun client isFd => ?_
      subst isFd
      infer_instance

end Blpop

/-! ## Strings -/

instance confined_handleGet : Preserves (Confined ptr fd) (handleGet req fd : M D Unit) := by
  unfold handleGet
  refine .bind inferInstance fun key => .bind inferInstance fun value => ?_
  cases value with
  | none => exact confined_send _
  | some value => exact preserves_bind

instance confined_handleType : Preserves (Confined ptr fd) (handleType req fd : M D Unit) := by
  unfold handleType
  refine .bind inferInstance fun key => .bind inferInstance fun entry => ?_
  cases entry with
  | none => exact confined_send _
  | some entry => exact confined_send _

instance confined_handleIncr : Preserves (Confined ptr fd) (handleIncr req fd : M D Unit) := by
  unfold handleIncr fault
  refine .bind inferInstance fun key => .bind inferInstance fun entry => ?_
  cases entry with
  | none => exact preserves_bind
  | some entry =>
    dsimp only
    infer_instance

instance confined_handleSet : Preserves (Confined ptr fd) (handleSet req .string fd : M D Unit) := by
  unfold handleSet
  infer_instance

/-! ## Utilities -/

instance confined_handleEcho : Preserves (Confined ptr fd) (handleEcho req fd : M D Unit) := by
  unfold handleEcho
  infer_instance

instance confined_handlePing : Preserves (Confined ptr client.fd) (handlePing client : M D Unit) := by
  unfold handlePing
  infer_instance

instance confined_handleInfo : Preserves (Confined ptr fd) (handleInfo req fd : M D Unit) := by
  unfold handleInfo
  infer_instance

instance confined_handleReplconfRequest :
    Preserves (Confined ptr client.fd) (handleReplconfRequest req ptr client : M D Unit) := by
  have acknowledges (offset : Bytes) : Preserves (Confined ptr client.fd) (updateClient ptr fun client =>
      { client with replOffset := atoll offset } : M D Unit) :=
    confined_updateClient fun _ => rfl
  unfold handleReplconfRequest replconfHandleGetack replconfHandleAck
  infer_instance

instance confined_handlePsyncRequest : Preserves (Confined ptr fd) (handlePsyncRequest ptr fd : M D Unit) := by
  have attaches : Preserves (Confined ptr fd) (updateClient ptr fun client => { client with isReplica := true } : M D Unit) :=
    confined_updateClient fun _ => rfl
  unfold handlePsyncRequest
  infer_instance

instance confined_handleConfig : Preserves (Confined ptr fd) (handleConfig req fd : M D Unit) := by
  unfold handleConfig
  split
  · infer_instance
  · refine .bind inferInstance fun parameter => .bind inferInstance fun server => ?_
    split
    · infer_instance
    · exact confined_sendText _ _

instance confined_handleKey : Preserves (Confined ptr fd) (handleKey fd : M D Unit) := by
  have collects (buckets : List Bucket) : Preserves (Confined ptr fd) (keysOf buckets : M D (List Bytes)) := by
    induction buckets with
    | nil => exact preserves_pure []
    | cons bucket buckets inductionHypothesis =>
      unfold keysOf fault
      infer_instance
  unfold handleKey
  infer_instance

/-! ## Authentication -/

section Authentication

variable [Externals D]

instance confined_handleGetuser : Preserves (Confined ptr fd) (handleGetuser req ptr : M D Unit) := by
  unfold handleGetuser
  refine .bind inferInstance fun user => confined_load fun client isFd => ?_
  subst isFd
  infer_instance

instance confined_handleSetuser : Preserves (Confined ptr fd) (handleSetuser req ptr : M D Unit) := by
  have revokes : Preserves (Confined ptr fd) (Exec.alter fun w => { w with defaultHasNopass := false } : M D Unit) :=
    confined_authorize (fun _ => false) World.defaultPassword
  have sets (password : Bytes) :
      Preserves (Confined ptr fd) (Exec.alter fun w => { w with defaultPassword := password } : M D Unit) :=
    confined_authorize World.defaultHasNopass fun _ => password
  unfold handleSetuser
  refine confined_load fun client isFd => ?_
  subst isFd
  infer_instance

omit [Externals D] in
theorem confined_authenticates : Preserves (Confined ptr fd) (updateClient ptr fun client =>
    { client with isAuth := true } : M D Unit) :=
  confined_updateClient fun _ => rfl

instance confined_handleAcl : Preserves (Confined ptr fd) (handleAcl req ptr : M D Unit) := by
  have authenticates := @confined_authenticates D ptr fd
  unfold handleAcl
  refine .bind inferInstance fun subCmd => confined_load fun client isFd => ?_
  subst isFd
  infer_instance

instance confined_handleAuth : Preserves (Confined ptr fd) (handleAuth req ptr : M D Unit) := by
  have authenticates := @confined_authenticates D ptr fd
  unfold handleAuth
  split
  · infer_instance
  · refine .bind inferInstance fun input => .bind inferInstance fun password => confined_load fun client isFd => ?_
    subst isFd
    infer_instance

end Authentication

/-! ## Sorted sets -/

section SortedSets

variable [Externals D]

instance confined_handleZadd : Preserves (Confined ptr fd) (handleZadd req fd : M D Unit) := by
  unfold handleZadd
  split
  · infer_instance
  · split
    · infer_instance
    · refine .bind inferInstance fun key => .bind inferInstance fun sortedSet => ?_
      exact preserves_ite

instance confined_handleZrank : Preserves (Confined ptr fd) (handleZrank req fd : M D Unit) := by
  unfold handleZrank
  split
  · infer_instance
  · refine .bind inferInstance fun key => confined_payload fun sortedSet => .bind inferInstance fun member => ?_
    split
    · exact confined_send _
    · exact confined_send _

instance confined_handleZrange : Preserves (Confined ptr fd) (handleZrange req fd : M D Unit) := by
  have appends (size remaining : Nat) (entries : List (ZSetEntry D)) (buffer : Buffer) :
      Preserves (Confined ptr fd) (appendMembers size remaining entries buffer : M D Buffer) := by
    induction remaining generalizing entries buffer with
    | zero => exact preserves_pure buffer
    | succ remaining inductionHypothesis =>
      cases entries with
      | nil => exact preserves_fault _
      | cons entry entries =>
        unfold appendMembers
        infer_instance
  unfold handleZrange fault
  split
  · infer_instance
  · refine .bind inferInstance fun key => confined_payload fun sortedSet => ?_
    exact preserves_bind

instance confined_handleZcard : Preserves (Confined ptr fd) (handleZcard req fd : M D Unit) := by
  unfold handleZcard
  split
  · infer_instance
  · exact .bind inferInstance fun key => confined_payload inferInstance

instance confined_handleZscore : Preserves (Confined ptr fd) (handleZscore req fd : M D Unit) := by
  unfold handleZscore fault
  split
  · infer_instance
  · refine .bind inferInstance fun key => confined_payload fun sortedSet => .bind inferInstance fun member => ?_
    split
    · exact confined_sendText _ _
    · exact preserves_ite

instance confined_handleZrem : Preserves (Confined ptr fd) (handleZrem req fd : M D Unit) := by
  unfold handleZrem
  split
  · infer_instance
  · refine .bind inferInstance fun key => confined_payload fun sortedSet => ?_
    exact preserves_bind

instance confined_handleGeoadd : Preserves (Confined ptr fd) (handleGeoadd req fd : M D Unit) := by
  unfold handleGeoadd
  split
  · infer_instance
  · refine .bind inferInstance fun key => ?_
    split
    · exact confined_sendText _ _
    · exact confined_handleZadd

instance confined_handleGeopos : Preserves (Confined ptr fd) (handleGeopos req fd : M D Unit) := by
  have sends (size : Nat) (text : Bytes → Bytes) :
      Preserves (Confined ptr fd) (sendPositions size req fd text : M D Unit) := by
    unfold sendPositions
    infer_instance
  unfold handleGeopos
  split
  · infer_instance
  · exact .bind inferInstance fun key => confined_payload inferInstance

instance confined_handleGeodist : Preserves (Confined ptr fd) (handleGeodist req fd : M D Unit) := by
  unfold handleGeodist
  split
  · infer_instance
  · refine .bind inferInstance fun key => confined_payload fun sortedSet => ?_
    refine .bind inferInstance fun first => .bind inferInstance fun second => ?_
    dsimp only
    split
    · exact confined_sendText _ _
    · exact confined_send _

instance confined_handleGeosearch : Preserves (Confined ptr fd) (handleGeosearch req fd : M D Unit) := by
  have selects (score wantedRange : D) (remaining : Nat) (entries : List (ZSetEntry D)) (buffer : Buffer) (count : Nat) :
      Preserves (Confined ptr fd) (selectMembers score wantedRange remaining entries buffer count : M D (Buffer × Nat)) := by
    induction remaining generalizing entries buffer count with
    | zero => exact preserves_pure _
    | succ remaining inductionHypothesis =>
      cases entries with
      | nil => exact preserves_fault _
      | cons entry entries =>
        unfold selectMembers
        infer_instance
  unfold handleGeosearch
  split
  · infer_instance
  · refine .bind inferInstance fun key => .bind inferInstance fun sortedSet => .bind inferInstance fun unit => ?_
    refine .bind inferInstance fun range => .bind inferInstance fun longtitude => .bind inferInstance fun latitude => ?_
    exact preserves_bind

end SortedSets

/-! ## Streams -/

instance confined_sendStreamResponse (response : Option Bytes) :
    Preserves (Confined ptr fd) (sendStreamResponse fd response : M D Unit) := by
  cases response with
  | none => exact preserves_bind
  | some response => exact confined_send response

instance confined_handleSingleXread : Preserves (Confined ptr fd) (handleSingleXread req ptr : M D (Option Bytes)) := by
  have times (timeoutAt : Int) : Preserves (Confined ptr fd) (updateClient ptr fun client =>
      { client with timeoutAt := timeoutAt } : M D Unit) :=
    confined_updateClient fun _ => rfl
  have starts (minId : Bytes) : Preserves (Confined ptr fd) (updateClient ptr fun client =>
      { client with minId := some minId } : M D Unit) :=
    confined_updateClient fun _ => rfl
  have blocks (key : Bytes) : Preserves (Confined ptr fd) (updateClient ptr fun client =>
      { client with isBlocked := true, waitingForKey := some key } : M D Unit) :=
    confined_updateClient fun _ => rfl
  unfold handleSingleXread
  refine .bind inferInstance fun block => ?_
  cases block with
  | some blockIndex =>
    refine .bind inferInstance fun _ => .bind inferInstance fun _ => .bind inferInstance fun ms => ?_
    refine .bind inferInstance fun timeoutAt => .bind inferInstance fun _ => .bind inferInstance fun delivery => ?_
    exact preserves_bind
  | none =>
    refine .bind inferInstance fun _ => confined_load fun client isFd => .bind inferInstance fun key =>
      .bind inferInstance fun entry => ?_
    subst isFd
    cases entry with
    | none => exact preserves_bind
    | some entry =>
      refine .bind inferInstance fun result => ?_
      obtain ⟨messages, count⟩ := result
      cases messages with
      | none => exact preserves_bind
      | some messages => exact preserves_ite

instance confined_handleXread : Preserves (Confined ptr fd) (handleXread req ptr : M D (Option (Option Bytes))) := by
  have blobs (pairs : List (Bytes × Bytes)) :
      Preserves (Confined ptr fd) (xreadBlobs pairs : M D (Option (List (Bytes × Bytes × Nat)))) := by
    induction pairs with
    | nil => exact preserves_pure _
    | cons pair pairs inductionHypothesis =>
      obtain ⟨key, id⟩ := pair
      unfold xreadBlobs
      refine .bind inferInstance fun result => ?_
      obtain ⟨blob, count⟩ := result
      cases blob with
      | none => exact preserves_pure none
      | some blob =>
        refine .bind inferInstance fun rest => ?_
        cases rest with
        | none => exact preserves_pure none
        | some rest => exact preserves_pure _
  have multiple (streamIndex streamsLength : Nat) :
      Preserves (Confined ptr fd) (handleMultipleXread req streamIndex streamsLength : M D (Option Bytes)) := by
    unfold handleMultipleXread copyToArrays streamEntryXreadMulToString fault
    refine .bind inferInstance fun pairs => .bind inferInstance fun result => ?_
    cases result with
    | none => exact preserves_pure none
    | some result => exact preserves_bind
  have builds : Preserves (Confined ptr fd) (buildClient req ptr : M D Bool) := by
    have blocks (timeoutAt : Int) (minId key : Bytes) : Preserves (Confined ptr fd) (updateClient ptr fun client =>
        { client with timeoutAt := timeoutAt, isBlocked := true, minId := some minId
                      waitingForKey := some key } : M D Unit) :=
      confined_updateClient fun _ => rfl
    unfold buildClient fault
    refine .bind inferInstance fun block => ?_
    cases block with
    | none => exact preserves_pure false
    | some blockIndex =>
      refine .bind inferInstance fun ms => .bind inferInstance fun timeoutAt => ?_
      exact preserves_bind
  unfold handleXread
  refine .bind inferInstance fun keys => ?_
  cases keys with
  | none =>
    refine .bind confined_handleSingleXread fun response => ?_
    cases response with
    | none => exact preserves_pure none
    | some response => exact preserves_pure _
  | some keys =>
    refine .bind inferInstance fun response => ?_
    cases response with
    | none => exact preserves_bind
    | some response => exact preserves_pure _

instance confined_handleStreamPrint (cmd : RedisCmds) :
    Preserves (Confined ptr fd) (handleStreamPrint req ptr fd cmd : M D Unit) := by
  unfold handleStreamPrint
  refine .bind inferInstance fun _ => ?_
  split
  · exact preserves_bind
  · refine .bind inferInstance fun response => ?_
    cases response with
    | none => exact preserves_pure ()
    | some response => exact confined_sendStreamResponse response

/-! ## Channels -/

instance confined_subscribeAll (channels : List Bytes) (msg : Buffer) :
    Preserves (Confined ptr fd) (subscribeAll ptr channels msg : M D Buffer) := by
  induction channels generalizing msg with
  | nil => exact preserves_pure msg
  | cons channel channels inductionHypothesis =>
    have compares (slots : List (Option Bytes)) : Preserves (Confined ptr fd) (alreadySubed channel slots : M D Bool) := by
      induction slots with
      | nil => exact preserves_pure false
      | cons slot slots inductionHypothesis =>
        cases slot with
        | none => exact preserves_fault _
        | some subed =>
          unfold alreadySubed
          infer_instance
    have adds (channelCount : Nat) : Preserves (Confined ptr fd) (updateClient ptr fun client =>
        { client with
          channelSubed := client.channelSubed.set client.channelCount (some channel)
          channelCount := channelCount } : M D Unit) :=
      confined_updateClient fun _ => rfl
    unfold subscribeAll
    refine .bind inferInstance fun client => ?_
    split
    · infer_instance
    · refine .bind inferInstance fun already => ?_
      exact preserves_bind

instance confined_handleSubscribe : Preserves (Confined ptr fd) (handleSubscribe req ptr : M D Unit) := by
  have marks : Preserves (Confined ptr fd) (updateClient ptr fun client => { client with isSubscribed := true } : M D Unit) :=
    confined_updateClient fun _ => rfl
  unfold handleSubscribe
  refine .bind inferInstance fun _ => .bind inferInstance fun msg => confined_load fun client isFd => ?_
  subst isFd
  infer_instance

instance confined_handleUnsubscribe : Preserves (Confined ptr fd) (handleUnsubscribe req ptr : M D Unit) := by
  have clears (channel : Bytes) (fuel i : Nat) : Preserves (Confined ptr fd) (unsubscribeFrom ptr channel fuel i : M D Unit) := by
    induction fuel generalizing i with
    | zero => exact preserves_pure ()
    | succ fuel inductionHypothesis =>
      have removes : Preserves (Confined ptr fd) (updateClient ptr fun client =>
          { client with
            channelSubed := client.channelSubed.set i none
            channelCount := client.channelCount - 1 } : M D Unit) :=
        confined_updateClient fun _ => rfl
      unfold unsubscribeFrom
      refine .bind inferInstance fun client => ?_
      split
      · split
        · exact preserves_bind
        · exact preserves_fault _
      · infer_instance
  unfold handleUnsubscribe
  split
  · infer_instance
  · refine .bind inferInstance fun channel => .bind inferInstance fun _ => confined_load fun client isFd => ?_
    subst isFd
    infer_instance

/-! ## The arms -/

/-- The commands that may concern other clients than their sender. -/
def concernsOthers : RedisCmds → Bool
  | .rpush | .xadd | .publish | .wait => true
  | _ => false

/-- The other arms are confined to their sender. -/
theorem arm_confined [Externals D] (isOther : concernsOthers req.command = false) (found : w.heap ptr = some client)
    (run : arm req ptr client w = .ok ((), t)) : Alone ptr client.fd w t := by
  have preserves : Preserves (Confined ptr client.fd) (arm req ptr client : M D Unit) := by
    unfold arm
    cases command : req.command with
    | rpush | xadd | publish | wait => simp [command, concernsOthers] at isOther
    -- the instances of this module cover one handler each
    | _ => infer_instance
  exact preserves.run _ _ _ run (by rw [found]; rfl)

/-! ## Transactions -/

theorem confined_setWatchers (bucket : Bucket) (clientList : ClientsWatch) :
    Preserves (Confined ptr fd) (setWatchers bucket clientList : M D Unit) where
  run w _ t run := by
    obtain rfl : _ = t := by simpa [setWatchers] using run
    exact confined_of_same rfl rfl rfl rfl rfl rfl

instance confined_watchKey (key : Bytes) : Preserves (Confined ptr fd) (watchKey ptr key : M D Unit) := by
  have sets (bucket : Bucket) (clientList : ClientsWatch) := @confined_setWatchers D ptr fd bucket clientList
  have adds : Preserves (Confined ptr fd) (updateClient ptr fun client =>
      { client with watchKeys := client.watchKeys ++ [key] } : M D Unit) :=
    confined_updateClient fun _ => rfl
  unfold watchKey register fault
  infer_instance

instance confined_deleteWatchedKeys : Preserves (Confined ptr fd) (deleteWatchedKeys ptr : M D Unit) := by
  have clears (key : Bytes) : Preserves (Confined ptr fd) (deregister ptr key : M D Unit) := by
    have sets (clientList : ClientsWatch) (bucket : Bucket) := @confined_setWatchers D ptr fd bucket clientList
    unfold deregister fault
    refine .bind inferInstance fun bucket => .bind inferInstance fun watchers => ?_
    split
    · exact preserves_pure ()
    · exact preserves_ite
  have resets : Preserves (Confined ptr fd) (updateClient ptr fun client =>
      { client with watchKeys := [], isDirty := false } : M D Unit) :=
    confined_updateClient fun _ => rfl
  unfold deleteWatchedKeys
  infer_instance

instance confined_queueCommand : Preserves (Confined ptr fd) (queueCommand req ptr : M D Unit) := by
  have queues : Preserves (Confined ptr fd) (updateClient ptr fun client =>
      { client with requests := client.requests ++ [copyRequest req] } : M D Unit) :=
    confined_updateClient fun _ => rfl
  unfold queueCommand fault
  refine confined_load fun client isFd => ?_
  subst isFd
  infer_instance

instance confined_handleMulti : Preserves (Confined ptr fd) (handleMulti ptr : M D Unit) := by
  have opens : Preserves (Confined ptr fd) (updateClient ptr fun client =>
      { client with requests := [], isQueued := true } : M D Unit) :=
    confined_updateClient fun _ => rfl
  unfold handleMulti
  refine confined_load fun client isFd => ?_
  subst isFd
  infer_instance

instance confined_handleDiscard : Preserves (Confined ptr fd) (handleDiscard ptr : M D Unit) := by
  have empties : Preserves (Confined ptr fd) (updateClient ptr fun client =>
      { client with requests := [], isQueued := false } : M D Unit) :=
    confined_updateClient fun _ => rfl
  unfold handleDiscard
  refine confined_load fun client isFd => ?_
  subst isFd
  infer_instance

instance confined_handleWatch : Preserves (Confined ptr fd) (handleWatch req ptr : M D Unit) := by
  unfold handleWatch
  split
  · infer_instance
  · refine confined_load fun client isFd => ?_
    subst isFd
    infer_instance

instance confined_handleUnwatch : Preserves (Confined ptr fd) (handleUnwatch ptr : M D Unit) := by
  unfold handleUnwatch
  refine .bind inferInstance fun _ => confined_load fun client isFd => ?_
  subst isFd
  infer_instance

end Confined

end RedisClone
