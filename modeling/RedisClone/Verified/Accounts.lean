import RedisClone.Verified.Attended
import RedisClone.Verified.BlockingState

/-! # Who is authenticated and who is subscribed

`SameAccounts`: no credential, no `is_auth` and no subscription was changed.  AUTH, ACL, SUBSCRIBE and UNSUBSCRIBE are
the only commands whose arms change them (`arm_accounts`), so that a step of the server changes them only where it runs
one of the four (`reaccounts_of_step`).
-/

namespace RedisClone

open Exec CString

variable {D : Type}

/-- What authentication and subscriptions keep of a client. -/
structure Account where
  isAuth : Bool
  isSubscribed : Bool
  channelSubed : List (Option Bytes)
  channelCount : Nat

def Client.account (client : Client) : Account :=
  ⟨client.isAuth, client.isSubscribed, client.channelSubed, client.channelCount⟩

/-- The global half of authentication. -/
structure Credentials where
  defaultHasNopass : Bool
  defaultPassword : Bytes
  deriving DecidableEq

def World.credentials (w : World D) : Credentials := ⟨w.defaultHasNopass, w.defaultPassword⟩

structure SameAccounts (w w' : World D) : Prop
    extends Clientwise (fun _ client client' => client'.account = client.account) w w' where
  credentials : w'.credentials = w.credentials

/-- The commands that change accounts. -/
def isAccountCmd : RedisCmds → Bool
  | .auth | .acl | .subscribe | .unsubscribe => true
  | _ => false

section Accounts

variable {w w' w'' t : World D} {req : RespRequest} {ptr : ClientPtr} {client : Client} {fd : Int}

theorem SameAccounts.of_same (clients : w'.clients = w.clients) (activeFds : w'.activeFds = w.activeFds)
    (heap : w'.heap = w.heap) (credentials : w'.credentials = w.credentials) : SameAccounts w w' :=
  ⟨.of_same (fun _ _ => rfl) clients activeFds heap, credentials⟩

theorem SameAccounts.refl (w : World D) : SameAccounts w w := .of_same rfl rfl rfl rfl

theorem SameAccounts.trans (before : SameAccounts w w') (after : SameAccounts w' w'') : SameAccounts w w'' :=
  ⟨before.toClientwise.trans (fun _ _ _ _ first second => second.trans first) after.toClientwise,
    after.credentials.trans before.credentials⟩

/-- One client was changed in something else. -/
theorem SameAccounts.of_update (client' : Client) (found : w.heap ptr = some client) (sameFd : client'.fd = client.fd)
    (same : client'.account = client.account) (clients : w'.clients = w.clients)
    (activeFds : w'.activeFds = w.activeFds) (heap : w'.heap = Function.update w.heap ptr (some client'))
    (credentials : w'.credentials = w.credentials) : SameAccounts w w' :=
  ⟨.of_update (fun _ _ => rfl) client' found sameFd same clients activeFds heap, credentials⟩

theorem SameAccounts.setClient (client' : Client) (found : w.heap ptr = some client) (sameFd : client'.fd = client.fd)
    (same : client'.account = client.account) : SameAccounts w (w.setClient ptr client') :=
  .of_update client' found sameFd same rfl rfl rfl rfl

theorem SameAccounts.emit (w : World D) (fd : Int) (bytes : Bytes) : SameAccounts w (w.emit fd bytes) :=
  .of_same rfl rfl rfl rfl

instance storing_sameAccounts : Storing (SameAccounts (D := D)) where
  composes := ⟨SameAccounts.refl, SameAccounts.trans⟩
  setBucket _ _ _ := .of_same rfl rfl rfl rfl
  tick _ := .of_same rfl rfl rfl rfl
  takeFresh _ := .of_same rfl rfl rfl rfl

theorem accounts_updateClient {f : Client → Client} (sameFd : ∀ client, (f client).fd = client.fd)
    (same : ∀ client, (f client).account = client.account) :
    Preserves SameAccounts (updateClient ptr f : M D Unit) where
  run w _ t run := by
    obtain ⟨client, found, rfl⟩ := updateClient_eq_ok.mp run
    exact .setClient (f client) found (sameFd client) (same client)

instance accounts_setConfig (f : RedisConfig → RedisConfig) :
    Preserves SameAccounts (setConfig f : M D Unit) where
  run w _ t run := by
    obtain rfl : w.configure f = t := by simpa [setConfig_run] using run
    exact .of_same rfl rfl rfl rfl

instance accounts_send (bytes : Bytes) : Preserves SameAccounts (send fd bytes : M D Unit) where
  run w _ t run := by
    rw [send_run run]
    exact .emit w fd bytes

instance accounts_sendText (size : Nat) (text : Bytes) : Preserves SameAccounts (sendText size fd text : M D Unit) := by
  unfold sendText
  infer_instance

instance accounts_sendPrefix (size : Nat) (buffer : Buffer) :
    Preserves SameAccounts (buffer.sendPrefix size fd : M D Unit) := by
  unfold Buffer.sendPrefix fault
  infer_instance

instance accounts_sendUnlessMaster (bytes : Bytes) : Preserves SameAccounts (sendUnlessMaster fd bytes : M D Unit) := by
  unfold sendUnlessMaster
  infer_instance

instance accounts_clientAt (slot : ClientSlot) :
    Preserves SameAccounts (clientAt slot : M D (Option (ClientPtr × Client))) where
  run w _ t run := by
    obtain ⟨rfl, _⟩ := clientAt_run run
    exact .refl t

/-! ## Lists -/

/-- A reader of the payload of a key. -/
theorem accounts_payload {α β : Type} {key : Bytes} {cast : Value D → M D α} {missing : M D β} {found : α → M D β}
    [∀ value, Preserves SameAccounts (cast value)] [Preserves SameAccounts missing]
    (each : ∀ payload, Preserves SameAccounts (found payload)) :
    Preserves SameAccounts (withPayload key cast missing found) :=
  preserves_payload inferInstance inferInstance each

instance accounts_longestWaiter (key : Bytes) (slots : List ClientSlot) (longest : Option ClientPtr) (biggest : Int) :
    Preserves SameAccounts (longestWaiter key slots longest biggest : M D (Option ClientPtr)) := by
  induction slots generalizing longest biggest with
  | nil => exact preserves_pure longest
  | cons slot slots inductionHypothesis =>
    unfold longestWaiter
    refine .bind inferInstance fun occupant => ?_
    cases occupant with
    | none => exact inductionHypothesis _ _
    | some occupant => exact preserves_ite

instance accounts_serveWaiter (key : Bytes) (values : List Bytes) :
    Preserves SameAccounts (serveWaiter key values ptr : M D Unit) := by
  have wakes : Preserves SameAccounts (updateClient ptr fun client =>
      { client with isBlocked := false, isBlpop := false, waitingForKey := none } : M D Unit) :=
    accounts_updateClient (fun _ => rfl) fun _ => rfl
  unfold serveWaiter
  cases values.head? with
  | none => exact preserves_fault _
  | some first => exact preserves_bind

instance accounts_handleRpush : Preserves SameAccounts (handleRpush req fd : M D Unit) := by
  unfold handleRpush
  split
  · infer_instance
  · refine .bind inferInstance fun key => .bind inferInstance fun list => .bind inferInstance fun _ =>
      .bind inferInstance fun _ => .bind inferInstance fun longest => ?_
    cases longest with
    | none => exact preserves_pure ()
    | some ptr => exact accounts_serveWaiter key _

instance accounts_handleLpush : Preserves SameAccounts (handleLpush req fd : M D Unit) := by
  unfold handleLpush
  infer_instance

instance accounts_handleLrange : Preserves SameAccounts (handleLrange req fd : M D Unit) := by
  have guarded (size : Nat) (texts : List Bytes) (buffer : Buffer) :
      Preserves SameAccounts (Buffer.appendGuarded size texts buffer : M D Buffer) := by
    induction texts generalizing buffer with
    | nil => exact preserves_pure buffer
    | cons text texts inductionHypothesis =>
      unfold Buffer.appendGuarded
      infer_instance
  unfold handleLrange
  split
  · infer_instance
  · refine .bind inferInstance fun key => accounts_payload fun values => ?_
    refine .bind inferInstance fun first => .bind inferInstance fun last => ?_
    refine .bind ?_ fun bounds => ?_
    · unfold lrangeBounds fault
      infer_instance
    · dsimp only
      split
      · infer_instance
      · split
        · split
          · exact preserves_fault _
          · infer_instance
        · infer_instance

instance accounts_handleLlen : Preserves SameAccounts (handleLlen req fd : M D Unit) := by
  unfold handleLlen
  split
  · infer_instance
  · exact .bind inferInstance fun key => accounts_payload inferInstance

instance accounts_handleLpop : Preserves SameAccounts (handleLpop req fd : M D Unit) := by
  unfold handleLpop
  split
  · infer_instance
  · refine .bind inferInstance fun key => accounts_payload fun values => ?_
    cases values.head? with
    | none => exact accounts_send _
    | some first =>
      unfold sendPopped
      exact preserves_ite

section Blpop

variable [Externals D]

instance accounts_handleBlpop : Preserves SameAccounts (handleBlpop req ptr : M D Unit) := by
  have blocks (key : Bytes) (timeoutAt blockedAt : Int) : Preserves SameAccounts (updateClient ptr fun client =>
      { client with timeoutAt := timeoutAt, isBlpop := true, isBlocked := true, blockedAt := blockedAt
                    waitingForKey := some key } : M D Unit) :=
    accounts_updateClient (fun _ => rfl) fun _ => rfl
  unfold handleBlpop blpopDeadline
  split
  · infer_instance
  · refine .bind inferInstance fun key => .bind (accounts_payload inferInstance) fun values => ?_
    cases values.head? with
    | none => exact preserves_bind
    | some first => exact preserves_bind

end Blpop

/-! ## Strings -/

instance accounts_handleGet : Preserves SameAccounts (handleGet req fd : M D Unit) := by
  have reads (key : Bytes) : Preserves SameAccounts (storeGet key : M D (Option (Value D))) := by
    unfold storeGet
    refine .bind inferInstance fun entry => ?_
    cases entry with
    | none => exact preserves_pure none
    | some entry => exact preserves_ite
  unfold handleGet
  refine .bind inferInstance fun key => .bind inferInstance fun value => ?_
  cases value with
  | none => exact accounts_send _
  | some value => exact preserves_bind

instance accounts_handleType : Preserves SameAccounts (handleType req fd : M D Unit) := by
  unfold handleType
  refine .bind inferInstance fun key => .bind inferInstance fun entry => ?_
  cases entry with
  | none => exact accounts_send _
  | some entry => exact accounts_send _

instance accounts_handleIncr : Preserves SameAccounts (handleIncr req fd : M D Unit) := by
  unfold handleIncr fault
  refine .bind inferInstance fun key => .bind inferInstance fun entry => ?_
  cases entry with
  | none => exact preserves_bind
  | some entry =>
    dsimp only
    infer_instance

instance accounts_handleSet : Preserves SameAccounts (handleSet req .string fd : M D Unit) := by
  unfold handleSet
  infer_instance

/-! ## Utilities -/

instance accounts_handleEcho : Preserves SameAccounts (handleEcho req fd : M D Unit) := by
  unfold handleEcho
  infer_instance

instance accounts_handlePing : Preserves SameAccounts (handlePing client : M D Unit) := by
  unfold handlePing
  infer_instance

instance accounts_handleInfo : Preserves SameAccounts (handleInfo req fd : M D Unit) := by
  unfold handleInfo
  infer_instance

instance accounts_handleReplconfRequest :
    Preserves SameAccounts (handleReplconfRequest req ptr client : M D Unit) := by
  have acknowledges (offset : Bytes) : Preserves SameAccounts (updateClient ptr fun client =>
      { client with replOffset := atoll offset } : M D Unit) :=
    accounts_updateClient (fun _ => rfl) fun _ => rfl
  unfold handleReplconfRequest replconfHandleGetack replconfHandleAck
  infer_instance

instance accounts_handlePsyncRequest : Preserves SameAccounts (handlePsyncRequest ptr fd : M D Unit) := by
  have attaches : Preserves SameAccounts (updateClient ptr fun client => { client with isReplica := true } : M D Unit) :=
    accounts_updateClient (fun _ => rfl) fun _ => rfl
  unfold handlePsyncRequest
  infer_instance

instance accounts_handleConfig : Preserves SameAccounts (handleConfig req fd : M D Unit) := by
  unfold handleConfig
  split
  · infer_instance
  · refine .bind inferInstance fun parameter => .bind inferInstance fun server => ?_
    split
    · infer_instance
    · exact accounts_sendText _ _

instance accounts_handleKey : Preserves SameAccounts (handleKey fd : M D Unit) := by
  have collects (buckets : List Bucket) : Preserves SameAccounts (keysOf buckets : M D (List Bytes)) := by
    induction buckets with
    | nil => exact preserves_pure []
    | cons bucket buckets inductionHypothesis =>
      unfold keysOf fault
      infer_instance
  unfold handleKey
  infer_instance

instance accounts_countReplicas (slots : List ClientSlot) (count : Nat) :
    Preserves SameAccounts (countReplicas slots count : M D Nat) := by
  induction slots generalizing count with
  | nil => exact preserves_pure count
  | cons slot slots inductionHypothesis =>
    unfold countReplicas
    refine .bind inferInstance fun occupant => ?_
    cases occupant with
    | none => exact inductionHypothesis count
    | some occupant => exact preserves_bind

instance accounts_handleWait : Preserves SameAccounts (handleWait req fd : M D Unit) := by
  have asks (slot : ClientSlot) : Preserves SameAccounts (askReplica slot : M D Unit) := by
    unfold askReplica
    refine .bind inferInstance fun occupant => ?_
    cases occupant with
    | none => exact preserves_pure ()
    | some occupant => exact preserves_ite
  have marks (ms : Int) (slots : List ClientSlot) : Preserves SameAccounts (markWaiting fd ms slots : M D Unit) := by
    have blocks (ptr : ClientPtr) (timeoutAt : Int) : Preserves SameAccounts (updateClient ptr fun client =>
        { client with isWaiting := true, isBlocked := true, timeoutAt := timeoutAt } : M D Unit) :=
      accounts_updateClient (fun _ => rfl) fun _ => rfl
    induction slots with
    | nil => exact preserves_pure ()
    | cons slot slots inductionHypothesis =>
      unfold markWaiting
      refine .bind inferInstance fun occupant => ?_
      cases occupant with
      | none => exact inductionHypothesis
      | some occupant => exact preserves_ite
  unfold handleWait
  refine .bind inferInstance fun _ => .bind inferInstance fun wanted => .bind inferInstance fun ms => ?_
  refine .bind inferInstance fun _ => .bind inferInstance fun count => ?_
  exact preserves_ite

/-! ## Sorted sets -/

section SortedSets

variable [Externals D]

instance accounts_openZSet (key : Bytes) : Preserves SameAccounts (openZSet key : M D (ZSet D)) := by
  have creates : Preserves SameAccounts (storeSetZset key ⟨[], 0⟩ : M D Unit) := preserves_storeSetContainer _ _
  exact accounts_payload inferInstance

instance accounts_handleZadd : Preserves SameAccounts (handleZadd req fd : M D Unit) := by
  unfold handleZadd
  split
  · infer_instance
  · split
    · infer_instance
    · refine .bind inferInstance fun key => .bind inferInstance fun sortedSet => ?_
      exact preserves_ite

instance accounts_handleZrank : Preserves SameAccounts (handleZrank req fd : M D Unit) := by
  unfold handleZrank
  split
  · infer_instance
  · refine .bind inferInstance fun key => accounts_payload fun sortedSet => .bind inferInstance fun member => ?_
    split
    · exact accounts_send _
    · exact accounts_send _

instance accounts_handleZrange : Preserves SameAccounts (handleZrange req fd : M D Unit) := by
  have appends (size remaining : Nat) (entries : List (ZSetEntry D)) (buffer : Buffer) :
      Preserves SameAccounts (appendMembers size remaining entries buffer : M D Buffer) := by
    induction remaining generalizing entries buffer with
    | zero => exact preserves_pure buffer
    | succ remaining inductionHypothesis =>
      cases entries with
      | nil => exact preserves_fault _
      | cons entry entries =>
        unfold appendMembers
        infer_instance
  unfold handleZrange fault
  split
  · infer_instance
  · refine .bind inferInstance fun key => accounts_payload fun sortedSet => ?_
    exact preserves_bind

instance accounts_handleZcard : Preserves SameAccounts (handleZcard req fd : M D Unit) := by
  unfold handleZcard
  split
  · infer_instance
  · exact .bind inferInstance fun key => accounts_payload inferInstance

instance accounts_handleZscore : Preserves SameAccounts (handleZscore req fd : M D Unit) := by
  unfold handleZscore fault
  split
  · infer_instance
  · refine .bind inferInstance fun key => accounts_payload fun sortedSet => .bind inferInstance fun member => ?_
    split
    · exact accounts_sendText _ _
    · exact preserves_ite

instance accounts_handleZrem : Preserves SameAccounts (handleZrem req fd : M D Unit) := by
  unfold handleZrem
  split
  · infer_instance
  · refine .bind inferInstance fun key => accounts_payload fun sortedSet => ?_
    exact preserves_bind

instance accounts_handleGeoadd : Preserves SameAccounts (handleGeoadd req fd : M D Unit) := by
  unfold handleGeoadd
  split
  · infer_instance
  · refine .bind inferInstance fun key => ?_
    split
    · exact accounts_sendText _ _
    · exact accounts_handleZadd

instance accounts_handleGeopos : Preserves SameAccounts (handleGeopos req fd : M D Unit) := by
  have sends (size : Nat) (text : Bytes → Bytes) : Preserves SameAccounts (sendPositions size req fd text : M D Unit) := by
    unfold sendPositions
    infer_instance
  unfold handleGeopos
  split
  · infer_instance
  · exact .bind inferInstance fun key => accounts_payload inferInstance

instance accounts_handleGeodist : Preserves SameAccounts (handleGeodist req fd : M D Unit) := by
  unfold handleGeodist
  split
  · infer_instance
  · refine .bind inferInstance fun key => accounts_payload fun sortedSet => ?_
    refine .bind inferInstance fun first => .bind inferInstance fun second => ?_
    dsimp only
    split
    · exact accounts_sendText _ _
    · exact accounts_send _

instance accounts_handleGeosearch : Preserves SameAccounts (handleGeosearch req fd : M D Unit) := by
  have selects (score wantedRange : D) (remaining : Nat) (entries : List (ZSetEntry D)) (buffer : Buffer) (count : Nat) :
      Preserves SameAccounts (selectMembers score wantedRange remaining entries buffer count : M D (Buffer × Nat)) := by
    induction remaining generalizing entries buffer count with
    | zero => exact preserves_pure _
    | succ remaining inductionHypothesis =>
      cases entries with
      | nil => exact preserves_fault _
      | cons entry entries =>
        unfold selectMembers
        infer_instance
  unfold handleGeosearch
  split
  · infer_instance
  · refine .bind inferInstance fun key => .bind inferInstance fun sortedSet => .bind inferInstance fun unit => ?_
    refine .bind inferInstance fun range => .bind inferInstance fun longtitude => .bind inferInstance fun latitude => ?_
    exact preserves_bind

end SortedSets

/-! ## Streams -/

instance accounts_wakeStreamReader (key : Bytes) (slot : ClientSlot) :
    Preserves SameAccounts (wakeStreamReader key slot : M D Unit) := by
  have delivers (ptr : ClientPtr) : Preserves SameAccounts (tryDeliverStreamData ptr : M D Unit) := by
    have wakes : Preserves SameAccounts (updateClient ptr fun client =>
        { client with isBlocked := false, waitingForKey := none, minId := none } : M D Unit) :=
      accounts_updateClient (fun _ => rfl) fun _ => rfl
    unfold tryDeliverStreamData
    refine .bind inferInstance fun client => ?_
    split
    · refine .bind inferInstance fun result => ?_
      obtain ⟨messages, count⟩ := result
      cases messages with
      | none => exact preserves_pure ()
      | some messages => exact preserves_ite
    · exact preserves_pure ()
  unfold wakeStreamReader
  refine .bind inferInstance fun occupant => ?_
  split
  · exact preserves_pure ()
  · split
    · exact delivers _
    · exact preserves_pure ()

instance accounts_handleXadd : Preserves SameAccounts (handleSet req .stream fd : M D Unit) := by
  have opens (key : Bytes) : Preserves SameAccounts (withPayload key asStream (pure ⟨[], none, 0, 0, 0⟩) pure : M D Stream) :=
    accounts_payload inferInstance
  unfold handleSet
  split
  · infer_instance
  · unfold handleSetStream
    refine .bind inferInstance fun key => .bind inferInstance fun stream => .bind inferInstance fun id =>
      .bind inferInstance fun errorMsg => ?_
    cases errorMsg with
    | some errorResp => exact accounts_sendUnlessMaster _
    | none =>
      refine .bind inferInstance fun entryId => .bind inferInstance fun pair => .bind inferInstance fun _ => ?_
      unfold sendEntryId
      exact preserves_bind

instance accounts_sendStreamResponse (response : Option Bytes) :
    Preserves SameAccounts (sendStreamResponse fd response : M D Unit) := by
  cases response with
  | none => exact preserves_bind
  | some response => exact accounts_send response

instance accounts_handleSingleXread : Preserves SameAccounts (handleSingleXread req ptr : M D (Option Bytes)) := by
  have times (timeoutAt : Int) : Preserves SameAccounts (updateClient ptr fun client =>
      { client with timeoutAt := timeoutAt } : M D Unit) :=
    accounts_updateClient (fun _ => rfl) fun _ => rfl
  have starts (minId : Bytes) : Preserves SameAccounts (updateClient ptr fun client =>
      { client with minId := some minId } : M D Unit) :=
    accounts_updateClient (fun _ => rfl) fun _ => rfl
  have blocks (key : Bytes) : Preserves SameAccounts (updateClient ptr fun client =>
      { client with isBlocked := true, waitingForKey := some key } : M D Unit) :=
    accounts_updateClient (fun _ => rfl) fun _ => rfl
  unfold handleSingleXread
  refine .bind inferInstance fun block => ?_
  cases block with
  | some blockIndex =>
    refine .bind inferInstance fun _ => .bind inferInstance fun _ => .bind inferInstance fun _ => ?_
    refine .bind inferInstance fun ms => .bind inferInstance fun timeoutAt => ?_
    refine .bind inferInstance fun _ => .bind inferInstance fun delivery => ?_
    exact preserves_bind
  | none =>
    refine .bind inferInstance fun _ => .bind inferInstance fun client => .bind inferInstance fun key =>
      .bind inferInstance fun entry => ?_
    cases entry with
    | none => exact preserves_bind
    | some entry =>
      refine .bind inferInstance fun result => ?_
      obtain ⟨messages, count⟩ := result
      cases messages with
      | none => exact preserves_bind
      | some messages => exact preserves_ite

instance accounts_handleXread : Preserves SameAccounts (handleXread req ptr : M D (Option (Option Bytes))) := by
  have blobs (pairs : List (Bytes × Bytes)) :
      Preserves SameAccounts (xreadBlobs pairs : M D (Option (List (Bytes × Bytes × Nat)))) := by
    induction pairs with
    | nil => exact preserves_pure _
    | cons pair pairs inductionHypothesis =>
      obtain ⟨key, id⟩ := pair
      unfold xreadBlobs
      refine .bind inferInstance fun result => ?_
      obtain ⟨blob, count⟩ := result
      cases blob with
      | none => exact preserves_pure none
      | some blob =>
        refine .bind inferInstance fun rest => ?_
        cases rest with
        | none => exact preserves_pure none
        | some rest => exact preserves_pure _
  have multiple (streamIndex streamsLength : Nat) :
      Preserves SameAccounts (handleMultipleXread req streamIndex streamsLength : M D (Option Bytes)) := by
    unfold handleMultipleXread copyToArrays streamEntryXreadMulToString fault
    refine .bind inferInstance fun pairs => .bind inferInstance fun result => ?_
    cases result with
    | none => exact preserves_pure none
    | some result => exact preserves_bind
  have builds : Preserves SameAccounts (buildClient req ptr : M D Bool) := by
    have blocks (timeoutAt : Int) (minId key : Bytes) : Preserves SameAccounts (updateClient ptr fun client =>
        { client with timeoutAt := timeoutAt, isBlocked := true, minId := some minId
                      waitingForKey := some key } : M D Unit) :=
      accounts_updateClient (fun _ => rfl) fun _ => rfl
    unfold buildClient fault
    refine .bind inferInstance fun block => ?_
    cases block with
    | none => exact preserves_pure false
    | some blockIndex =>
      refine .bind inferInstance fun ms => .bind inferInstance fun timeoutAt => ?_
      exact preserves_bind
  unfold handleXread
  refine .bind inferInstance fun keys => ?_
  cases keys with
  | none =>
    refine .bind inferInstance fun response => ?_
    cases response with
    | none => exact preserves_pure none
    | some response => exact preserves_pure _
  | some keys =>
    refine .bind inferInstance fun response => ?_
    cases response with
    | none => exact preserves_bind
    | some response => exact preserves_pure _

instance accounts_handleStreamPrint (cmd : RedisCmds) :
    Preserves SameAccounts (handleStreamPrint req ptr fd cmd : M D Unit) := by
  unfold handleStreamPrint
  refine .bind inferInstance fun _ => ?_
  split
  · exact preserves_bind
  · refine .bind inferInstance fun response => ?_
    cases response with
    | none => exact preserves_pure ()
    | some response => exact accounts_sendStreamResponse response

/-! ## Channels -/

instance accounts_handlePublish : Preserves SameAccounts (handlePublish req fd : M D Unit) := by
  have delivers (fd : Int) (channel message : Bytes) (subed : List (Option Bytes)) :
      Preserves SameAccounts (publishTo fd channel message subed : M D Nat) := by
    induction subed with
    | nil => exact preserves_pure 0
    | cons slot subed inductionHypothesis =>
      cases slot with
      | none => exact preserves_fault _
      | some name =>
        unfold publishTo
        infer_instance
  have publishes (channel message : Bytes) (slots : List ClientSlot) (count : Nat) :
      Preserves SameAccounts (publishAll channel message slots count : M D Nat) := by
    induction slots generalizing count with
    | nil => exact preserves_pure count
    | cons slot slots inductionHypothesis =>
      unfold publishAll
      refine .bind inferInstance fun occupant => ?_
      cases occupant with
      | none => exact inductionHypothesis count
      | some occupant => exact preserves_bind
  unfold handlePublish
  infer_instance

/-! ## The arms -/

/-- The other arms change no account. -/
theorem arm_accounts [Externals D] (isOther : isAccountCmd req.command = false)
    (run : arm req ptr client w = .ok ((), t)) : SameAccounts w t := by
  have preserves : Preserves SameAccounts (arm req ptr client : M D Unit) := by
    unfold arm
    cases command : req.command with
    | auth | acl | subscribe | unsubscribe => simp [command, isAccountCmd] at isOther
    | _ => infer_instance
  exact preserves.run _ _ _ run

theorem accounts_markAll (w : World D) (clientList : ClientsWatch) : SameAccounts w (w.markAll clientList) where
  clients := rfl
  activeFds := rfl
  free ptr missing := by simp [World.markAll, missing]
  heap ptr client found := by
    by_cases listed : some ptr ∈ clientList
    · exact ⟨{ client with isDirty := true }, by simp [World.markAll, listed, found], rfl, rfl⟩
    · exact ⟨client, by simp [World.markAll, listed, found], rfl, rfl⟩
  credentials := rfl

instance accounts_notifyFirst : Preserves SameAccounts (notifyFirst req : M D Unit) where
  run w _ t run := by
    obtain ⟨key, read, reads, notifies⟩ := bind_eq_ok.mp run
    obtain ⟨_, rfl⟩ := arg_ok.mp reads
    obtain ⟨bucket, _, rfl⟩ := notifyWatchers_run notifies
    exact accounts_markAll read _

instance accounts_writeToFile : Preserves SameAccounts (writeToFile req : M D Unit) := by
  have append (record : Bytes) : Preserves SameAccounts (appendAof record : M D Unit) :=
    ⟨fun w _ t run => by
      obtain rfl : _ = t := by simpa [appendAof] using run
      exact .of_same rfl rfl rfl rfl⟩
  have record (manifest : Bytes) : Preserves SameAccounts (recordActiveName manifest : M D Unit) := by
    unfold recordActiveName fault
    cases activeAofName manifest with
    | none => exact preserves_pure _
    | some name => exact preserves_ite
  unfold writeToFile fault
  refine .bind inferInstance fun server => .bind inferInstance fun appendOnly => ?_
  split
  · infer_instance
  · refine .bind inferInstance fun files => ?_
    cases files.manifest with
    | none => exact preserves_fault _
    | some manifest => exact preserves_bind

/-! ## The rest of the event loop -/

instance accounts_runTimers : Preserves SameAccounts (runTimers : M D Unit) := by
  have active : Preserves SameAccounts (activeSlots : M D (List ClientSlot)) := by
    unfold activeSlots
    infer_instance
  have unblocks (ptr : ClientPtr) : Preserves SameAccounts (updateClient ptr fun client =>
      { client with isBlocked := false } : M D Unit) :=
    accounts_updateClient (fun _ => rfl) fun _ => rfl
  have wakes (ptr : ClientPtr) : Preserves SameAccounts (updateClient ptr fun client =>
      { client with isBlocked := false, isBlpop := false, waitingForKey := none } : M D Unit) :=
    accounts_updateClient (fun _ => rfl) fun _ => rfl
  have replies (key : Bytes) : Preserves SameAccounts (endblpopReply key : M D Bytes) := by
    have present : Preserves SameAccounts (hasListValue key : M D Bool) := by
      unfold hasListValue
      exact accounts_payload inferInstance
    unfold endblpopReply fault
    refine .bind inferInstance fun hasValue => ?_
    cases hasValue with
    | false => exact preserves_pure _
    | true =>
      refine accounts_payload fun values => ?_
      cases values.head? with
      | none => exact preserves_fault _
      | some first => exact preserves_pure _
  have expires (now : Int) (slot : ClientSlot) : Preserves SameAccounts (expireClient now slot : M D Unit) := by
    unfold expireClient expireXread handleEndblpop fault
    refine .bind (.bind inferInstance fun occupant => ?_) fun _ => .bind inferInstance fun ptr =>
      .bind inferInstance fun later => ?_
    · cases occupant with
      | none => exact preserves_pure ()
      | some occupant => exact preserves_ite
    · cases ptr with
      | none => exact preserves_pure ()
      | some ptr =>
        refine .bind inferInstance fun client => ?_
        cases client.waitingForKey with
        | none => exact preserves_ite
        | some key => exact preserves_ite
  have looks (now : Int) (slots : List ClientSlot) (timedOut : Bool) :
      Preserves SameAccounts (waitTimedOut now slots timedOut : M D Bool) := by
    induction slots generalizing timedOut with
    | nil => exact preserves_pure timedOut
    | cons slot slots inductionHypothesis =>
      unfold waitTimedOut
      refine .bind inferInstance fun occupant => ?_
      cases occupant with
      | none => exact inductionHypothesis timedOut
      | some occupant => exact preserves_bind
  have ends (slot : ClientSlot) : Preserves SameAccounts (endWait slot : M D Unit) := by
    have update (ptr : ClientPtr) (waitFd : Int) : Preserves SameAccounts (updateClient ptr fun client =>
        { client with isBlocked := if client.fd = waitFd then false else client.isBlocked, isWaiting := false } : M D Unit) :=
      accounts_updateClient (fun _ => rfl) fun _ => rfl
    unfold endWait
    refine .bind inferInstance fun occupant => ?_
    cases occupant with
    | none => exact preserves_fault _
    | some occupant => exact preserves_bind
  unfold runTimers completeWait
  refine .bind inferInstance fun now => .bind inferInstance fun slots => .bind inferInstance fun _ =>
    .bind inferInstance fun server => ?_
  exact preserves_ite

theorem accounts_propagate {call : Call} (run : propagate ptr call w = .ok ((), t)) : SameAccounts w t := by
  obtain ⟨_, _, same⟩ := propagate_same run
  rw [same]
  exact .of_same rfl rfl rfl rfl

theorem accounts_watchKey {keys : List Bytes} (run : forM keys (watchKey ptr) w = .ok ((), t)) : SameAccounts w t := by
  induction keys generalizing w with
  | nil =>
    obtain rfl : w = t := by simpa using run
    exact .refl w
  | cons key keys inductionHypothesis =>
    rw [List.forM_cons] at run
    obtain ⟨_, registered, first, rest⟩ := bind_eq_ok.mp run
    obtain ⟨client, bucket, found, _, rfl⟩ := watchKey_run first
    have registers : SameAccounts w (w.register ptr client key bucket) :=
      .of_update { client with watchKeys := client.watchKeys ++ [key] } found rfl rfl rfl rfl rfl rfl
    exact registers.trans (inductionHypothesis rest)

theorem credentials_clearAll (w : World D) (ptr : ClientPtr) (keys : List Bytes) :
    (w.clearAll ptr keys).credentials = w.credentials := by
  induction keys generalizing w with
  | nil => rfl
  | cons key keys inductionHypothesis => exact inductionHypothesis (w.clear ptr key)

theorem accounts_deleteWatchedKeys (run : deleteWatchedKeys ptr w = .ok ((), t)) : SameAccounts w t := by
  obtain ⟨client, found, rfl⟩ := deleteWatchedKeys_run run
  refine .of_update client.unwatched found rfl rfl ?_ ?_ ?_ ?_
  · exact clearAll_clients w ptr client.watchKeys
  · exact clearAll_activeFds w ptr client.watchKeys
  · rw [World.release, World.setClient, heap_clearAll]
  · exact credentials_clearAll w ptr client.watchKeys

theorem accounts_afterArm {c c' : Prop} [Decidable c] [Decidable c']
    (notify : onlyIf c (notifyFirst req) w = .ok ((), w')) (write : onlyIf c' (writeToFile req) w' = .ok ((), t)) :
    SameAccounts w t := by
  have notified : Preserves SameAccounts (onlyIf c (notifyFirst req) : M D Unit) := preserves_ite
  have logged : Preserves SameAccounts (onlyIf c' (writeToFile req) : M D Unit) := preserves_ite
  exact (notified.run w () w' notify).trans (logged.run w' () t write)

section Steps

variable [Externals D]

/-- A call of `handle` that runs no arm changes no account. -/
theorem Handled.accounts (handles : Handled w req ptr client t) (found : w.heap ptr = some client)
    (unreached : reachesArm client req = false) : SameAccounts w t := by
  cases handles with
  | queued ordinary inMulti room =>
    exact (SameAccounts.setClient { client with requests := client.requests ++ [copyRequest req] } found rfl
      rfl).trans (.emit _ _ _)
  | opened isMulti outside =>
    exact (SameAccounts.setClient { client with requests := [], isQueued := true } found rfl rfl).trans (.emit _ _ _)
  | refused text reason => exact .emit w _ _
  | ignored isWatch noKey => exact .refl w
  | watched isWatch outside run => exact (accounts_watchKey run).trans (.emit _ _ _)
  | unwatched fd isUnwatch run => exact (accounts_deleteWatchedKeys run).trans (.emit _ _ _)
  | left reply inMulti isEnd run =>
    exact ((SameAccounts.setClient client.leaveMulti found rfl rfl).trans
      (accounts_deleteWatchedKeys run)).trans (.emit _ _ _)
  | dispatched reaches run => simp [reaches] at unreached

/-- What an event of the server does to the accounts. -/
inductive Reaccounts (s : Server D) : Event → World D → Prop where
  | kept {event : Event} {w' : World D}
      (isOther : ∀ ptr req, Dispatches s event ptr req → isAccountCmd req.command = false)
      (same : SameAccounts s.world w') : Reaccounts s event w'
  | ran {event : Event} {handled w' : World D} (ptr : ClientPtr) (req : RespRequest) (client : Client)
      (dispatches : Dispatches s event ptr req) (isAccount : isAccountCmd req.command = true)
      (found : s.world.heap ptr = some client)
      (runs : arm req ptr client (s.world.noted req) = .ok ((), handled)) (after : SameAccounts handled w') :
      Reaccounts s event w'
  | connected {fd : Int} {ptr : ClientPtr} (slot : ClientSlot)
      (isNext : slot.val = s.world.activeFds) (free : s.world.heap ptr = none) :
      Reaccounts s (.connect fd ptr) (s.world.accept slot fd ptr)
  | disconnected {slot : ClientSlot} (last : ClientSlot) (ptr : ClientPtr)
      (isLast : last.val = s.world.activeFds - 1) (occupied : s.world.clients slot = some ptr) :
      Reaccounts s (.disconnect slot) (s.world.drop slot last ptr)

/-- A request that reaches its arm, with what the step does after the arm. -/
theorem Reaccounts.of_dispatch {s : Server D} {event : Event} (dispatches : Dispatches s event ptr req)
    (run : dispatch req ptr s.world = .ok ((), w)) (after : SameAccounts w t) : Reaccounts s event t := by
  obtain ⟨client, handled, notified, found, arms, notify, write⟩ := dispatch_parts run
  have rest : SameAccounts handled t := (accounts_afterArm notify write).trans after
  cases isAccount : isAccountCmd req.command with
  | true => exact .ran ptr req client dispatches isAccount found arms rest
  | false =>
    have noted : SameAccounts s.world (s.world.noted req) := .of_same rfl rfl rfl rfl
    refine .kept (fun ptr' req' dispatches' => ?_) ((noted.trans (arm_accounts isAccount arms)).trans rest)
    rw [← (dispatches_unique dispatches dispatches').2]
    exact isAccount

/-- An event that calls `handle` without reaching an arm. -/
theorem Reaccounts.of_unreached {s : Server D} {event : Event} (calls : s.calls event = some (ptr, req))
    (found : s.world.heap ptr = some client) (unreached : reachesArm client req = false)
    (same : SameAccounts s.world t) : Reaccounts s event t := by
  refine .kept ?_ same
  rintro ptr' req' ⟨calls', client', found', reaches⟩
  obtain ⟨rfl, rfl⟩ := Prod.mk.inj (Option.some.inj (calls.symm.trans calls'))
  obtain rfl : client = client' := Option.some.inj (found.symm.trans found')
  simp [unreached] at reaches

theorem Reaccounts.of_uncalled {s : Server D} {event : Event} (uncalled : s.calls event = none)
    (same : SameAccounts s.world t) : Reaccounts s event t := by
  refine .kept ?_ same
  rintro ptr req ⟨calls, _⟩
  simp [uncalled] at calls

theorem reaccounts_of_step {s t : Server D} {event : Event} (outside : OutsideMulti s)
    (step : Step s event t) : Reaccounts s event t.world := by
  -- the two events that call `handle`: the call reaches an arm or it changes no account
  have viaHandle (called : (∃ slot call, event = .request slot call) ∨ event = .proceed) :
      Reaccounts s event t.world := by
    cases step_cases outside step with
    | quiet idle noRequest kept =>
      obtain ⟨slot, call, isRequest⟩ | rfl := called
      · exact absurd isRequest (noRequest slot call)
      · exact absurd idle step.1
    | connected slot idle isNext valid free => simp at called
    | disconnected last ptr idle isLast occupied => simp at called
    | started ptr client idle occupied found starts =>
      rename_i slot call
      have calls : s.calls (.request slot call) = some (ptr, call.request) := by simp [Server.calls, occupied]
      have unreached : reachesArm client call.request = false := by
        simp [reachesArm, (startsTransaction_eq_true.mp starts).1, isTransactionCmd]
      exact .of_unreached calls found unreached
        ((SameAccounts.emit s.world client.fd _).trans (.setClient client.takeQueue found rfl rfl))
    | served ptr client idle occupied found starts handles propagates =>
      rename_i slot call handled w'
      have calls : s.calls (.request slot call) = some (ptr, call.request) := by simp [Server.calls, occupied]
      cases reaches : reachesArm client call.request with
      | true =>
        exact .of_dispatch ⟨calls, client, found, reaches⟩ (handles.dispatch_of_reaches reaches)
          (accounts_propagate propagates)
      | false =>
        exact .of_unreached calls found reaches ((handles.accounts found reaches).trans (accounts_propagate propagates))
    | ran ptr req remaining call client after running found handles foundAfter =>
      have calls : s.calls .proceed = some (ptr, req) := by simp [Server.calls, running]
      cases reaches : reachesArm client req with
      | true =>
        exact .of_dispatch ⟨calls, client, found, reaches⟩ (handles.dispatch_of_reaches reaches)
          (.setClient _ foundAfter rfl rfl)
      | false =>
        exact .of_unreached calls found reaches ((handles.accounts found reaches).trans (.setClient _ foundAfter rfl rfl))
    | ended ptr call running propagates =>
      exact .of_uncalled (by simp [Server.calls, running]) (accounts_propagate propagates)
  obtain ⟨enabled, acts⟩ := id step
  cases event with
  | poll ready =>
    rw [show s.running = none from enabled] at acts
    obtain ⟨first, _⟩ := act_unit acts
    simp only [setReady, alter_run, Except.ok.injEq, Prod.mk.injEq, true_and] at first
    rw [← first]
    exact .of_uncalled rfl (.of_same rfl rfl rfl rfl)
  | timers =>
    rw [show s.running = none from enabled] at acts
    exact .of_uncalled rfl (accounts_runTimers.run _ _ _ (act_unit acts).1)
  | connect fd ptr =>
    rw [show s.running = none from enabled.1] at acts
    obtain same | ⟨slot, isNext, same⟩ := connect_run (act_unit acts).1
    · rw [same]
      exact .of_uncalled rfl (.refl s.world)
    · rw [same]
      exact .connected slot isNext enabled.2.2
  | disconnect slot =>
    rw [show s.running = none from enabled.1] at acts
    obtain ⟨ptr, inSlot⟩ := Option.ne_none_iff_exists'.mp enabled.2
    obtain ⟨last, isLast, same⟩ := disconnect_run inSlot (act_unit acts).1
    rw [same]
    exact .disconnected last ptr isLast inSlot
  | request slot call => exact viaHandle (.inl ⟨slot, call, rfl⟩)
  | proceed => exact viaHandle (.inr rfl)

end Steps

end Accounts

end RedisClone
