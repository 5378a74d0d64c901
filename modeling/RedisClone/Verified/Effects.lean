import RedisClone.Verified.Store
import RedisClone.Handler

/-! # What each handler may do

One specification for each handler: from a state `w`, its normal ends are `R`-related to `w` and its
faults are in `F`.  `R` and `F` are any relation and any set that allow the effects the handler has:
sending, reading the clock and stale memory, changing what a client has apart from transactions,
WATCH and blocking (`Ambient`), blocking and waking clients (`MayBlock`), and writing the bucket of a
key (`MayWrite`).  The faults of missing arguments and of wrong
payloads are in `F` unless a hypothesis rules them out.  Frame conditions, type safety and arity
safety of the dispatcher are instances.
-/

namespace RedisClone

open Exec

variable {D : Type} {R : World D → World D → Prop} {F : Fault → Prop}

/-- What transactions and WATCH keep of a client. -/
structure Session where
  fd : Int
  isQueued : Bool
  requests : List RespRequest
  watchKeys : List Bytes
  isDirty : Bool
  isMaster : Bool

def Client.session (client : Client) : Session :=
  ⟨client.fd, client.isQueued, client.requests, client.watchKeys, client.isDirty, client.isMaster⟩

def SameSession (client client' : Client) : Prop := client'.session = client.session

/-- What only the blocking commands, the commands that wake clients and the timers change. -/
structure Blocking where
  isBlocked : Bool
  isBlpop : Bool
  isWaiting : Bool
  timeoutAt : Int
  blockedAt : Int
  waitingForKey : Option Bytes
  minId : Option Bytes

def Client.blocking (client : Client) : Blocking :=
  ⟨client.isBlocked, client.isBlpop, client.isWaiting, client.timeoutAt, client.blockedAt,
    client.waitingForKey, client.minId⟩

def SameBlocking (client client' : Client) : Prop := client'.blocking = client.blocking

/-- Two configurations that differ at most in what WAIT records. -/
def SameButWait (server server' : RedisConfig) : Prop :=
  server' = { server with
    capturedMasterOffset := server'.capturedMasterOffset
    wantedReplicas := server'.wantedReplicas
    waitClientFd := server'.waitClientFd }

/-- The effects that every handler may have. -/
structure Ambient (R : World D → World D → Prop) (F : Fault → Prop) : Prop where
  composes : Composes R
  emit : ∀ w fd bytes, R w (w.emit fd bytes)
  tick : ∀ w, R w w.tick
  takeFresh : ∀ w, R w w.takeFresh
  change : ∀ w ptr client client', w.heap ptr = some client → SameSession client client' →
    SameBlocking client client' → R w (w.setClient ptr client')
  authorize : ∀ w nopass password,
    R w { w with defaultHasNopass := nopass, defaultPassword := password }
  faults : ∀ f, f ≠ .missingArg → f ≠ .typeConfusion → F f

/-- Clients may be blocked and woken, and what WAIT records may change. -/
structure MayBlock (R : World D → World D → Prop) : Prop where
  change : ∀ w ptr client client', w.heap ptr = some client → SameSession client client' →
    R w (w.setClient ptr client')
  configure : ∀ w f, (∀ server, SameButWait server (f server)) → R w (w.configure f)

/-- What XREAD may change of the client that sends it. -/
def Reads (client client' : Client) : Prop :=
  client'.blocking = { client.blocking with
    isBlocked := client'.isBlocked, timeoutAt := client'.timeoutAt
    waitingForKey := client'.waitingForKey, minId := client'.minId } ∧
    (client.isBlocked = true → client'.isBlocked = true)

/-- The client may be blocked by XREAD. -/
def MayRead (R : World D → World D → Prop) (ptr : ClientPtr) : Prop :=
  ∀ w client client', w.heap ptr = some client → SameSession client client' →
    Reads client client' → R w (w.setClient ptr client')

theorem MayBlock.mayRead (mayBlock : MayBlock R) (ptr : ClientPtr) : MayRead R ptr :=
  fun w client client' found same _ => mayBlock.change w ptr client client' found same

/-- The bucket of the key may change. -/
def MayWrite (R : World D → World D → Prop) (key : Bytes) : Prop :=
  ∀ (w : World D) bucket chain, bucketOf key = some bucket → R w (w.setBucket bucket chain)

/-! ## Runs of the accessors of a client -/

theorem loadClient_found {ptr : ClientPtr} {client : Client} {w : World D}
    (found : w.heap ptr = some client) : loadClient ptr w = .ok (client, w) := by
  simp [loadClient, found]

theorem loadClient_missing {ptr : ClientPtr} {w : World D} (missing : w.heap ptr = none) :
    loadClient ptr w = .error .useAfterFree := by
  simp [loadClient, missing]

theorem loadClient_eq_ok {ptr : ClientPtr} {client : Client} {w t : World D} :
    loadClient ptr w = .ok (client, t) ↔ w.heap ptr = some client ∧ t = w := by
  cases found : w.heap ptr with
  | none => simp [loadClient_missing found]
  | some other => simp [loadClient_found found, eq_comm]

theorem updateClient_found {ptr : ClientPtr} {f : Client → Client} {client : Client} {w : World D}
    (found : w.heap ptr = some client) :
    updateClient ptr f w = .ok ((), w.setClient ptr (f client)) := by
  simp [updateClient, found]

theorem updateClient_missing {ptr : ClientPtr} {f : Client → Client} {w : World D}
    (missing : w.heap ptr = none) : updateClient ptr f w = .error .useAfterFree := by
  simp [updateClient, missing]

theorem updateClient_eq_ok {ptr : ClientPtr} {f : Client → Client} {w t : World D} :
    updateClient ptr f w = .ok ((), t) ↔
      ∃ client, w.heap ptr = some client ∧ t = w.setClient ptr (f client) := by
  cases found : w.heap ptr with
  | none => simp [updateClient_missing found]
  | some client => simp [updateClient_found found, eq_comm]

variable (ambient : Ambient R F)
include ambient

/-! ## Sequencing -/

theorem obeys_pure {α : Type} (a : α) : Obeys R F (pure a : M D α) :=
  Obeys.pure ambient.composes a

theorem obeys_fault {α : Type} {f : Fault} (supplied : f ≠ .missingArg)
    (typed : f ≠ .typeConfusion) : Obeys R F (fault f : M D α) :=
  Obeys.fault (ambient.faults f supplied typed)

theorem obeys_observe {α : Type} (f : World D → α) : Obeys R F (Exec.observe f : M D α) :=
  Obeys.observe ambient.composes f

theorem obeys_bind {α β : Type} {x : M D α} {f : α → M D β} (first : Obeys R F x)
    (rest : ∀ a, Returns x a → Obeys R F (f a)) : Obeys R F (x >>= f) :=
  Obeys.bind ambient.composes first rest

/-- The rest of a sequence, whatever the first part returns. -/
theorem obeys_seq {α β : Type} {x : M D α} {f : α → M D β} (first : Obeys R F x)
    (rest : ∀ a, Obeys R F (f a)) : Obeys R F (x >>= f) :=
  Obeys.bind ambient.composes first fun a _ => rest a

theorem obeysAt_seq {α β : Type} {x : M D α} {f : α → M D β} {w : World D}
    (first : ObeysAt R F x w) (rest : ∀ a, Obeys R F (f a)) : ObeysAt R F (x >>= f) w :=
  ObeysAt.bind ambient.composes first fun a t _ => rest a t

theorem obeys_map {α β : Type} {x : M D α} (f : α → β) (first : Obeys R F x) :
    Obeys R F (f <$> x) := by
  rw [← bind_pure_comp]
  exact obeys_seq ambient first fun a => obeys_pure ambient (f a)

theorem obeys_forM {α : Type} (items : List α) {body : α → M D PUnit}
    (each : ∀ item ∈ items, Obeys R F (body item)) : Obeys R F (forM items body) :=
  Obeys.forM ambient.composes items each

/-! ## System calls and memory -/

theorem obeys_send (fd : Int) (bytes : Bytes) : Obeys R F (send fd bytes : M D Unit) :=
  Obeys.alter fun w => ambient.emit w fd bytes

theorem obeys_sendText (size : Nat) (fd : Int) (text : Bytes) :
    Obeys R F (sendText size fd text : M D Unit) :=
  obeys_send ambient fd _

theorem obeys_getCurrentTimeMs : Obeys R F (getCurrentTimeMs : M D Int) :=
  Obeys.draw ambient.tick

theorem obeys_indeterminate : Obeys R F (indeterminate : M D Bytes) :=
  Obeys.draw ambient.takeFresh

theorem obeys_indeterminateInt : Obeys R F (indeterminateInt : M D Int) :=
  obeys_map ambient _ (obeys_indeterminate ambient)

theorem obeys_staleBytes (n : Nat) : Obeys R F (staleBytes n : M D Bytes) :=
  obeys_seq ambient (obeys_indeterminate ambient) fun _ => obeys_pure ambient _

theorem obeys_config : Obeys R F (config : M D RedisConfig) := obeys_observe ambient _

theorem obeys_sendUnlessMaster (fd : Int) (bytes : Bytes) :
    Obeys R F (sendUnlessMaster fd bytes : M D Unit) := by
  refine obeys_seq ambient (obeys_config ambient) fun server => ?_
  exact Obeys.ite (fun _ => obeys_send ambient fd bytes) fun _ => obeys_pure ambient ()

theorem obeys_loadClient (ptr : ClientPtr) : Obeys R F (loadClient ptr : M D Client) := by
  intro w
  cases found : w.heap ptr with
  | none =>
    exact ObeysAt.of_error (loadClient_missing found)
      (ambient.faults .useAfterFree (by decide) (by decide))
  | some client =>
    exact ObeysAt.of_ok (loadClient_found found) (ambient.composes.refl w)

theorem obeys_clientAt (slot : ClientSlot) :
    Obeys R F (clientAt slot : M D (Option (ClientPtr × Client))) := by
  refine obeys_seq ambient (obeys_observe ambient _) fun occupant => ?_
  cases occupant with
  | none => exact obeys_pure ambient none
  | some ptr =>
    refine obeys_seq ambient (obeys_loadClient ambient ptr) fun client => ?_
    exact obeys_pure ambient _

theorem obeys_updateClient_of {f : Client → Client} {ptr : ClientPtr}
    (related : ∀ w client, w.heap ptr = some client → R w (w.setClient ptr (f client))) :
    Obeys R F (updateClient ptr f : M D Unit) := by
  intro w
  cases found : w.heap ptr with
  | none =>
    exact ObeysAt.of_error (updateClient_missing found)
      (ambient.faults .useAfterFree (by decide) (by decide))
  | some client => exact ObeysAt.of_ok (updateClient_found found) (related w client found)

theorem obeys_updateClient {f : Client → Client}
    (same : ∀ client, SameSession client (f client) ∧ SameBlocking client (f client))
    (ptr : ClientPtr) : Obeys R F (updateClient ptr f : M D Unit) :=
  obeys_updateClient_of ambient fun w client found =>
    ambient.change w ptr client (f client) found (same client).1 (same client).2

/-- A client is blocked or woken. -/
theorem obeys_blockClient (mayBlock : MayBlock R) {f : Client → Client}
    (same : ∀ client, SameSession client (f client)) (ptr : ClientPtr) :
    Obeys R F (updateClient ptr f : M D Unit) :=
  obeys_updateClient_of ambient fun w client found =>
    mayBlock.change w ptr client (f client) found (same client)

/-- XREAD changes the client that sent it. -/
theorem obeys_readClient {ptr : ClientPtr} (mayRead : MayRead R ptr) {f : Client → Client}
    (same : ∀ client, SameSession client (f client) ∧ Reads client (f client)) :
    Obeys R F (updateClient ptr f : M D Unit) :=
  obeys_updateClient_of ambient fun w client found =>
    mayRead w client (f client) found (same client).1 (same client).2

omit ambient in
theorem obeys_setConfig (mayBlock : MayBlock R) {f : RedisConfig → RedisConfig}
    (same : ∀ server, SameButWait server (f server)) : Obeys R F (setConfig f : M D Unit) :=
  Obeys.alter fun w => mayBlock.configure w f same

/-! ## Arguments -/

omit ambient in
theorem returns_arg {req : RespRequest} {i : Nat} {key : Bytes}
    (returns : Returns (req.arg i : M D Bytes) key) : req.args[i]? = some key := by
  obtain ⟨s, t, run⟩ := returns
  unfold RespRequest.arg at run
  cases supplied : req.args[i]? with
  | none => simp [supplied, fault] at run
  | some value =>
    simp only [supplied, pure_run, Except.ok.injEq, Prod.mk.injEq] at run
    rw [run.1]

omit ambient in
theorem arg_isSome {req : RespRequest} {i : Nat} (enough : (i : Int) < req.argc) :
    ∃ value, req.args[i]? = some value := by
  have := req.supplied
  exact ⟨req.args[i], List.getElem?_eq_getElem (by omega)⟩

omit ambient in
theorem lt_argc {req : RespRequest} {i : Nat} {value : Bytes}
    (isArg : req.args[i]? = some value) : (i : Int) < req.argc := by
  have := req.supplied
  obtain ⟨inside, _⟩ := List.getElem?_eq_some_iff.mp isArg
  omega

theorem obeys_arg {req : RespRequest} {i : Nat} (enough : F .missingArg ∨ (i : Int) < req.argc) :
    Obeys R F (req.arg i : M D Bytes) := by
  unfold RespRequest.arg
  cases supplied : req.args[i]? with
  | none =>
    refine Obeys.fault (enough.resolve_right fun inside => ?_)
    obtain ⟨value, isArg⟩ := arg_isSome inside
    simp [supplied] at isArg
  | some value => exact obeys_pure ambient value

/-- An argument is read, and the rest goes on from the same state. -/
theorem obeysAt_arg {α : Type} {req : RespRequest} {i : Nat} {f : Bytes → M D α} {w : World D}
    (enough : F .missingArg ∨ (i : Int) < req.argc)
    (rest : ∀ value, req.args[i]? = some value → ObeysAt R F (f value) w) :
    ObeysAt R F (req.arg i >>= f) w := by
  refine ObeysAt.bind ambient.composes (obeys_arg ambient enough w) fun value t run => ?_
  have isArg := returns_arg ⟨w, t, run⟩
  obtain rfl : w = t := by
    simp only [RespRequest.arg, isArg, pure_run, Except.ok.injEq, Prod.mk.injEq, true_and] at run
    exact run
  exact rest value isArg

theorem obeys_printArg {req : RespRequest} {i : Nat}
    (enough : F .missingArg ∨ req.unused = .null ∨ (i : Int) < req.argc) :
    Obeys R F (req.printArg i : M D Unit) := by
  unfold RespRequest.printArg
  split
  · exact obeys_pure ambient ()
  · exact obeys_pure ambient ()
  · rename_i missing junk
    obtain allowed | isNull | inside := enough
    · exact Obeys.fault allowed
    · simp [junk] at isNull
    · obtain ⟨value, isArg⟩ := arg_isSome inside
      simp [missing] at isArg

/-! ## Buffers -/

theorem obeys_print (size : Nat) (buffer : Buffer) (text : Bytes) :
    Obeys R F (buffer.print size text : M D Buffer) :=
  Obeys.ite (fun _ => obeys_fault ambient (by decide) (by decide)) fun _ => obeys_pure ambient _

theorem obeys_append (size : Nat) (buffer : Buffer) (text : Bytes) :
    Obeys R F (buffer.append size text : M D Buffer) :=
  obeys_seq ambient (obeys_print ambient size buffer text) fun _ => obeys_pure ambient _

theorem obeys_appendAll (size : Nat) (texts : List Bytes) (buffer : Buffer) :
    Obeys R F (Buffer.appendAll size texts buffer : M D Buffer) := by
  induction texts generalizing buffer with
  | nil => exact obeys_pure ambient buffer
  | cons text texts inductionHypothesis =>
    exact obeys_seq ambient (obeys_append ambient size buffer text) inductionHypothesis

theorem obeys_appendGuarded (size : Nat) (texts : List Bytes) (buffer : Buffer) :
    Obeys R F (Buffer.appendGuarded size texts buffer : M D Buffer) := by
  induction texts generalizing buffer with
  | nil => exact obeys_pure ambient buffer
  | cons text texts inductionHypothesis =>
    refine obeys_seq ambient (obeys_print ambient size buffer text) fun printed => ?_
    exact Obeys.ite (fun _ => inductionHypothesis _) fun _ => obeys_pure ambient printed

theorem obeys_sendPrefix (size : Nat) (buffer : Buffer) (fd : Int) :
    Obeys R F (buffer.sendPrefix size fd : M D Unit) :=
  Obeys.ite (fun _ => obeys_fault ambient (by decide) (by decide)) fun _ => obeys_send ambient fd _

/-! ## The table -/

theorem obeys_tableIndex (key : Bytes) : Obeys R F (tableIndex key : M D Bucket) := by
  unfold tableIndex
  cases bucketOf key with
  | none => exact obeys_fault ambient (by decide) (by decide)
  | some bucket => exact obeys_pure ambient bucket

theorem obeys_storeGetEntry (key : Bytes) :
    Obeys R F (storeGetEntry key : M D (Option (Entry D))) := by
  refine obeys_seq ambient (obeys_tableIndex ambient key) fun bucket => ?_
  refine obeys_seq ambient (obeys_observe ambient _) fun table => ?_
  cases (table bucket).find key with
  | none => exact obeys_fault ambient (by decide) (by decide)
  | some entry => exact obeys_pure ambient entry

omit ambient in
theorem returns_tableIndex {key : Bytes} {bucket : Bucket}
    (returns : Returns (tableIndex key : M D Bucket) bucket) : bucketOf key = some bucket := by
  obtain ⟨s, t, run⟩ := returns
  exact (tableIndex_eq_ok.mp run).1

omit ambient in
theorem obeys_changeBucket {key : Bytes} (mayWrite : MayWrite R key) {bucket : Bucket}
    (inBucket : bucketOf key = some bucket)
    (f : Chain Bytes (Entry D) → Chain Bytes (Entry D)) : Obeys R F (changeBucket bucket f) :=
  Obeys.alter fun w => mayWrite w bucket _ inBucket

theorem obeys_updateEntry {key : Bytes} (mayWrite : MayWrite R key) (value : Value D) :
    Obeys R F (updateEntry key value) :=
  obeys_bind ambient (obeys_tableIndex ambient key) fun _ returns =>
    obeys_changeBucket mayWrite (returns_tableIndex returns) _

theorem obeys_takeNode (chain : Chain Bytes (Entry D)) :
    Obeys R F (takeNode chain : M D Bool) :=
  Obeys.ite (fun _ => obeys_map ambient _ (obeys_indeterminate ambient))
    fun _ => obeys_pure ambient false

theorem obeys_storeSetContainer {key : Bytes} (mayWrite : MayWrite R key) (value : Value D) :
    Obeys R F (storeSetContainer key value) := by
  refine obeys_bind ambient (obeys_tableIndex ambient key) fun bucket returns => ?_
  refine obeys_seq ambient (obeys_observe ambient _) fun table => ?_
  refine obeys_seq ambient (obeys_takeNode ambient (table bucket)) fun wild => ?_
  exact obeys_changeBucket mayWrite (returns_tableIndex returns) _

theorem obeys_expiryOf (flag : TimeFlags) (seconds : Int) :
    Obeys R F (expiryOf flag seconds : M D Int) := by
  refine Obeys.ite (fun _ => ?_) fun _ => obeys_pure ambient 0
  refine obeys_seq ambient (obeys_getCurrentTimeMs ambient) fun now => ?_
  cases flag <;> exact obeys_pure ambient _

theorem obeys_storeSet {key : Bytes} (mayWrite : MayWrite R key) (value : Value D)
    (flag : TimeFlags) (seconds : Int) : Obeys R F (storeSet key value flag seconds) := by
  refine obeys_bind ambient (obeys_tableIndex ambient key) fun bucket returns => ?_
  refine obeys_seq ambient (obeys_storeGetEntry ambient key) fun existing => ?_
  refine obeys_seq ambient (obeys_expiryOf ambient flag seconds) fun expiresAt => ?_
  cases existing <;> exact obeys_changeBucket mayWrite (returns_tableIndex returns) _

/-! ## Payloads -/

/-- The key is bound to a value of this type, or not bound. -/
def HoldsType (table : Table D) (key : Bytes) (type : RedisType) : Prop :=
  ∀ entry, lookup table key = .ok (some entry) → entry.type = type

/-- `cast` turns the values of one type into their payload and faults on the others. -/
structure CastsTo {α : Type} (cast : Value D → M D α) (type : RedisType) : Prop where
  typed : ∀ value, value.type = type → ∃ a, cast value = pure a
  confused : ∀ value, value.type ≠ type → cast value = fault .typeConfusion

omit ambient in
theorem asString_casts : CastsTo (asString : Value D → M D Bytes) .string :=
  ⟨fun value typed => by cases value <;> simp_all [Value.type, asString],
    fun value typed => by cases value <;> simp_all [Value.type, asString]⟩

omit ambient in
theorem asList_casts : CastsTo (asList : Value D → M D (List Bytes)) .list :=
  ⟨fun value typed => by cases value <;> simp_all [Value.type, asList],
    fun value typed => by cases value <;> simp_all [Value.type, asList]⟩

omit ambient in
theorem asStream_casts : CastsTo (asStream : Value D → M D Stream) .stream :=
  ⟨fun value typed => by cases value <;> simp_all [Value.type, asStream],
    fun value typed => by cases value <;> simp_all [Value.type, asStream]⟩

omit ambient in
theorem asZSet_casts : CastsTo (asZSet : Value D → M D (ZSet D)) .zset :=
  ⟨fun value typed => by cases value <;> simp_all [Value.type, asZSet],
    fun value typed => by cases value <;> simp_all [Value.type, asZSet]⟩

theorem obeys_cast {α : Type} {cast : Value D → M D α} {type : RedisType}
    (casts : CastsTo cast type) {value : Value D} (typed : F .typeConfusion ∨ value.type = type) :
    Obeys R F (cast value) := by
  by_cases isType : value.type = type
  · obtain ⟨a, same⟩ := casts.typed value isType
    rw [same]
    exact obeys_pure ambient a
  · rw [casts.confused value isType]
    exact Obeys.fault (typed.resolve_right isType)

theorem obeysAt_withPayload_of_lookup {α β : Type} {key : Bytes} {cast : Value D → M D α}
    {type : RedisType} (casts : CastsTo cast type) {missing : M D β} {found : α → M D β}
    {w : World D} (typed : F .typeConfusion ∨ HoldsType w.table key type)
    (whenMissing : lookup w.table key = .ok none → ObeysAt R F missing w)
    (whenFound : ∀ a, Obeys R F (found a)) : ObeysAt R F (withPayload key cast missing found) w := by
  rw [ObeysAt, withPayload_run]
  cases bound : lookup w.table key with
  | error f =>
    have notArg : f ≠ .missingArg ∧ f ≠ .typeConfusion := by
      unfold lookup at bound
      split at bound
      · cases bound; decide
      · split at bound
        · simp at bound
        · cases bound; decide
    exact obeys_fault ambient notArg.1 notArg.2 w
  | ok result =>
    cases result with
    | none => exact whenMissing bound
    | some entry =>
      refine obeysAt_seq ambient (obeys_cast ambient casts ?_ w) whenFound
      exact typed.imp_right fun holds => holds entry bound

theorem obeysAt_withPayload {α β : Type} {key : Bytes} {cast : Value D → M D α} {type : RedisType}
    (casts : CastsTo cast type) {missing : M D β} {found : α → M D β} {w : World D}
    (typed : F .typeConfusion ∨ HoldsType w.table key type) (whenMissing : Obeys R F missing)
    (whenFound : ∀ a, Obeys R F (found a)) : ObeysAt R F (withPayload key cast missing found) w :=
  obeysAt_withPayload_of_lookup ambient casts typed (fun _ => whenMissing w) whenFound

theorem obeys_storeGet (key : Bytes) : Obeys R F (storeGet key : M D (Option (Value D))) := by
  refine obeys_seq ambient (obeys_storeGetEntry ambient key) fun entry => ?_
  cases entry with
  | none => exact obeys_pure ambient none
  | some entry =>
    refine Obeys.ite (fun _ => ?_) fun _ => obeys_pure ambient _
    refine obeys_seq ambient (obeys_getCurrentTimeMs ambient) fun now => ?_
    exact Obeys.ite (fun _ => obeys_pure ambient none) fun _ => obeys_pure ambient _

end RedisClone
