import RedisClone.Verified.Streams

/-! # The dispatcher

`dispatch_eq` splits an arm of `handle` into its handler and the end that most writing arms share:
`notify_watchers` and `write_to_file`.  `obeysAt_arm` and `obeysAt_dispatch` collect the lemmas of
the handlers under one condition on the arguments (`ArmSupplied`), one on the stored types
(`WellTyped`) and one on the table (`ArmWrites`).
-/

namespace RedisClone

open Exec

variable {D : Type} {R : World D → World D → Prop} {F : Fault → Prop}

/-! ## The arms -/

/-- The handler of an arm, without `notify_watchers` and `write_to_file`. -/
def arm [Externals D] (req : RespRequest) (ptr : ClientPtr) (client : Client) : M D Unit :=
  match req.command with
  | .echo => handleEcho req client.fd
  | .ping => handlePing client
  | .info => handleInfo req client.fd
  | .replconf => handleReplconfRequest req ptr client
  | .psync => handlePsyncRequest ptr client.fd
  | .wait => handleWait req client.fd
  | .keys => handleKey client.fd
  | .select | .command => send client.fd okReply
  | .auth => handleAuth req ptr
  | .acl => handleAcl req ptr
  | .configGet => handleConfig req client.fd
  | .set => handleSet req .string client.fd
  | .get => handleGet req client.fd
  | .type => handleType req client.fd
  | .incr => handleIncr req client.fd
  | .lpush => handleLpush req client.fd
  | .rpush => handleRpush req client.fd
  | .lpop => handleLpop req client.fd
  | .lrange => handleLrange req client.fd
  | .llen => handleLlen req client.fd
  | .blpop => handleBlpop req ptr
  | .zadd => handleZadd req client.fd
  | .zrank => handleZrank req client.fd
  | .zrange => handleZrange req client.fd
  | .zcard => handleZcard req client.fd
  | .zscore => handleZscore req client.fd
  | .zrem => handleZrem req client.fd
  | .geoadd => handleGeoadd req client.fd
  | .geopos => handleGeopos req client.fd
  | .geodist => handleGeodist req client.fd
  | .geosearch => handleGeosearch req client.fd
  | .xadd => handleSet req .stream client.fd
  | .xread | .xrange => handleStreamPrint req ptr client.fd req.command
  | .subscribe => handleSubscribe req ptr
  | .publish => handlePublish req client.fd
  | .unsubscribe => handleUnsubscribe req ptr
  | .multi | .exec | .discard | .watch | .unwatch | .unknown => do
    req.printArg 0
    send client.fd (CString.lit "-ERR unknown command\r\n")
  | .del | .exists | .expire | .ttl | .decr | .append | .strlen | .mget | .rpop
  | .hset | .hget | .hgetall | .hdel | .sadd | .srem | .smembers | .sismember | .xgroup => pure ()

/-- The arms that call `notify_watchers`. -/
def notifies : RedisCmds → Bool
  | .set | .del | .incr | .decr | .append | .lpush | .rpush | .lpop | .rpop | .hset | .hdel
  | .zadd | .zrank | .zrem | .geoadd | .xadd => true
  | _ => false

/-- The arms that call `write_to_file`. -/
def logs (cmd : RedisCmds) : Bool := notifies cmd && cmd ≠ .zrank

/-- The arms that block or wake clients. -/
def changesBlocking : RedisCmds → Bool
  | .wait | .rpush | .blpop | .xadd | .xread => true
  | _ => false

theorem dispatch_eq [Externals D] (req : RespRequest) (ptr : ClientPtr) :
    (dispatch req ptr : M D Unit) = (do
      let client ← loadClient ptr
      noteExecuted req
      arm req ptr client
      onlyIf (notifies req.command) (notifyFirst req)
      onlyIf (logs req.command) (writeToFile req)) := by
  unfold dispatch arm afterWrite
  cases req.command <;> simp [notifies, logs, onlyIf]

/-! ## The names of the commands -/

theorem capitals_cmdToString : ∀ cmd, ∀ c ∈ cmdToString cmd, 65 ≤ c ∧ c ≤ 90 := by
  decide +kernel

theorem not_mem_cmdToString {c : UInt8} (below : c < 65) (cmd : RedisCmds) : c ∉ cmdToString cmd := by
  intro member
  exact absurd (capitals_cmdToString cmd c member).1 (UInt8.not_le.mpr below)

theorem length_cmdToString : ∀ cmd, (cmdToString cmd).length ≤ 11 := by
  decide +kernel

/-! ## Conditions -/

/-- The request has the arguments that its arm reads. -/
def ArmSupplied (w : World D) (req : RespRequest) : Prop :=
  match req.command with
  | .echo | .get | .type | .incr => 1 ≤ req.argc
  | .replconf | .multi | .exec | .discard | .watch | .unwatch | .unknown =>
    req.unused = .null ∨ 1 ≤ req.argc
  | .wait => 2 ≤ req.argc
  | .acl => AclSupplied req
  | .configGet => req.argc ≤ 2 → 1 ≤ req.argc
  | .xread => XreadSupplied w req
  | .xrange => XrangeSupplied w req
  | _ => True

/-- The arm gets as far as to use the entry of its key as a value of this type. -/
def Casts [Externals D] (w : World D) (req : RespRequest) (entry : Entry D) (type : RedisType) :
    Prop :=
  match req.command with
  | .get => Live w entry ∧ type = .string
  | .incr => type = .string
  | .lpush | .rpush | .blpop => 2 ≤ req.argc ∧ type = .list
  | .lpop | .llen => type = .list
  | .lrange => 3 ≤ req.argc ∧ type = .list
  | .zadd => PairsGiven req ∧ type = .zset
  | .zrank | .zscore | .zrem | .geopos => 2 ≤ req.argc ∧ type = .zset
  | .zrange | .geodist => 3 ≤ req.argc ∧ type = .zset
  | .zcard => type = .zset
  | .geoadd => PositionsValid (D := D) req ∧ type = .zset
  | .geosearch => 7 ≤ req.argc ∧ type = .zset
  | .xadd => 2 ≤ req.argc ∧ type = .stream
  | _ => False

/-- Where the arm uses the entry of its key, the entry has the type that it is used as. -/
def WellTyped [Externals D] (w : World D) (req : RespRequest) : Prop :=
  ∀ key entry type, req.args[0]? = some key → lookup w.table key = .ok (some entry) →
    Casts w req entry type → entry.type = type

/-- The arm gets as far as to write the bucket of its key. -/
def ArmWrites [Externals D] (w : World D) (req : RespRequest) : Prop :=
  match req.command with
  | .set | .lpush | .rpush | .zrem | .xadd => 2 ≤ req.argc
  | .incr | .lpop => True
  | .blpop => PopsNow w req
  | .zadd => PairsGiven req
  | .geoadd => PositionsValid (D := D) req
  | .geosearch => CreatesSet w req
  | _ => False

/-! ## Watchers -/

/-- Mark every client of a list as dirty. -/
def World.markAll (w : World D) (clientList : ClientsWatch) : World D :=
  { w with
    heap := fun ptr =>
      if some ptr ∈ clientList then (w.heap ptr).map fun client => { client with isDirty := true }
      else w.heap ptr }

theorem markDirty_run {ptr : ClientPtr} {w t : World D}
    (run : markDirty (some ptr) w = .ok ((), t)) : t = w.markAll [some ptr] := by
  obtain ⟨client, found, rfl⟩ := updateClient_eq_ok.mp run
  unfold World.setClient World.markAll
  congr 1
  funext other
  by_cases same : other = ptr
  · subst same
    simp [found]
  · simp [same]

theorem markAll_append (w : World D) (clientList later : ClientsWatch) :
    (w.markAll clientList).markAll later = w.markAll (clientList ++ later) := by
  unfold World.markAll
  congr 1
  funext ptr
  by_cases here : some ptr ∈ clientList <;> by_cases there : some ptr ∈ later <;>
    simp [here, there]
  rfl

theorem forM_markDirty_run {clientList : ClientsWatch} {w t : World D}
    (run : forM clientList markDirty w = .ok ((), t)) : t = w.markAll clientList := by
  induction clientList generalizing w with
  | nil =>
    simp only [List.forM_nil, pure_run, Except.ok.injEq, Prod.mk.injEq, true_and] at run
    rw [← run]
    simp [World.markAll]
  | cons slot clientList inductionHypothesis =>
    rw [List.forM_cons] at run
    obtain ⟨_, marked, first, rest⟩ := bind_eq_ok.mp run
    rw [inductionHypothesis rest]
    cases slot with
    | none =>
      obtain rfl : marked = w := by simpa [markDirty, eq_comm] using first
      simp [World.markAll]
    | some ptr => rw [markDirty_run first, markAll_append, List.singleton_append]

/-- `notify_watchers` marks the clients of the bucket of its key. -/
theorem notifyWatchers_run {key : Bytes} {w t : World D}
    (run : notifyWatchers key w = .ok ((), t)) :
    ∃ bucket, bucketOf key = some bucket ∧ t = w.markAll ((w.watchers bucket).getD []) := by
  unfold notifyWatchers watchersOf at run
  rw [bind_assoc] at run
  obtain ⟨bucket, indexed, index, marks⟩ := bind_eq_ok.mp run
  obtain ⟨inBucket, rfl⟩ := tableIndex_eq_ok.mp index
  exact ⟨bucket, inBucket, forM_markDirty_run marks⟩

/-! ## The common end of the writing arms -/

/-- Clients may be marked as dirty. -/
def MayMark (R : World D → World D → Prop) : Prop :=
  ∀ (w : World D) ptr client, w.heap ptr = some client →
    R w (w.setClient ptr { client with isDirty := true })

/-- The append-only file may grow. -/
structure MayLog (R : World D → World D → Prop) : Prop where
  rename : ∀ w name, R w (w.configure fun server => { server with appendfilename := name })
  append : ∀ w record,
    R w { w with files := { w.files with aof := w.files.aof.map (· ++ record) } }

variable [Externals D]

theorem WellTyped.keyHolds {w : World D} {req : RespRequest} {type : RedisType}
    (typed : WellTyped w req) (casts : ∀ entry, Casts w req entry type) : KeyHolds w req type :=
  fun key isKey entry bound => typed key entry type isKey bound (casts entry)

variable (ambient : Ambient R F) {req : RespRequest} {ptr : ClientPtr} {w : World D}
include ambient

theorem obeysAt_arm {client : Client} (enough : F .missingArg ∨ ArmSupplied w req)
    (typed : F .typeConfusion ∨ WellTyped w req) (writes : ArmWrites w req → WritesKey R req)
    (blocks : changesBlocking req.command → MayBlock R) :
    ObeysAt R F (arm req ptr client) w := by
  have holds {type : RedisType} {guard : Prop}
      (casts : guard → ∀ entry, Casts w req entry type) :
      F .typeConfusion ∨ (guard → KeyHolds w req type) :=
    typed.imp_right fun typed reached => typed.keyHolds (casts reached)
  have holdsAlways {type : RedisType} (casts : ∀ entry, Casts w req entry type) :
      F .typeConfusion ∨ KeyHolds w req type :=
    typed.imp_right fun typed => typed.keyHolds casts
  unfold arm
  cases command : req.command with
  | echo =>
    rw [ArmSupplied, command] at enough
    exact obeys_handleEcho ambient enough w
  | ping => exact obeys_handlePing ambient client w
  | info => exact obeys_handleInfo ambient w
  | replconf =>
    rw [ArmSupplied, command] at enough
    exact obeys_handleReplconfRequest ambient client enough w
  | psync => exact obeys_handlePsyncRequest ambient w
  | wait =>
    rw [ArmSupplied, command] at enough
    rw [command] at blocks
    exact obeys_handleWait ambient (blocks rfl) enough w
  | keys => exact obeys_handleKey ambient w
  | select | command => exact obeys_send ambient _ _ w
  | auth => exact obeys_handleAuth ambient w
  | acl =>
    rw [ArmSupplied, command] at enough
    exact obeysAt_handleAcl ambient enough
  | configGet =>
    rw [ArmSupplied, command] at enough
    exact obeys_handleConfig ambient enough w
  | set =>
    rw [ArmWrites, command] at writes
    exact obeysAt_handleSet ambient .string (fun isStream => absurd isStream (by decide)) (.inr fun _ isStream => absurd isStream (by decide)) writes
  | get =>
    rw [ArmSupplied, command] at enough
    refine obeysAt_handleGet ambient enough (typed.imp_right fun typed key entry isKey bound live => ?_)
    refine typed key entry .string isKey bound ?_
    rw [Casts, command]
    exact ⟨live, rfl⟩
  | type =>
    rw [ArmSupplied, command] at enough
    exact obeys_handleType ambient enough w
  | incr =>
    rw [ArmSupplied, command] at enough
    rw [ArmWrites, command] at writes
    refine obeysAt_handleIncr ambient enough (holdsAlways fun entry => ?_) (writes trivial)
    rw [Casts, command]
  | lpush =>
    rw [ArmWrites, command] at writes
    refine obeysAt_handleLpush ambient (holds fun enough entry => ?_) writes
    rw [Casts, command]
    exact ⟨enough, rfl⟩
  | rpush =>
    rw [ArmWrites, command] at writes
    rw [command] at blocks
    refine obeysAt_handleRpush ambient (blocks rfl) (holds fun enough entry => ?_) writes
    rw [Casts, command]
    exact ⟨enough, rfl⟩
  | lpop =>
    rw [ArmWrites, command] at writes
    refine obeysAt_handleLpop ambient (holdsAlways fun entry => ?_) (writes trivial)
    rw [Casts, command]
  | lrange =>
    refine obeysAt_handleLrange ambient (holds fun enough entry => ?_)
    rw [Casts, command]
    exact ⟨enough, rfl⟩
  | llen =>
    refine obeysAt_handleLlen ambient (holdsAlways fun entry => ?_)
    rw [Casts, command]
  | blpop =>
    rw [ArmWrites, command] at writes
    rw [command] at blocks
    refine obeysAt_handleBlpop ambient (blocks rfl) (holds fun enough entry => ?_) writes
    rw [Casts, command]
    exact ⟨enough, rfl⟩
  | zadd =>
    rw [ArmWrites, command] at writes
    refine obeysAt_handleZadd ambient (holds fun given entry => ?_) writes
    rw [Casts, command]
    exact ⟨given, rfl⟩
  | zrank =>
    refine obeysAt_handleZrank ambient (holds fun enough entry => ?_)
    rw [Casts, command]
    exact ⟨enough, rfl⟩
  | zrange =>
    refine obeysAt_handleZrange ambient (holds fun enough entry => ?_)
    rw [Casts, command]
    exact ⟨enough, rfl⟩
  | zcard =>
    refine obeysAt_handleZcard ambient (holdsAlways fun entry => ?_)
    rw [Casts, command]
  | zscore =>
    refine obeysAt_handleZscore ambient (holds fun enough entry => ?_)
    rw [Casts, command]
    exact ⟨enough, rfl⟩
  | zrem =>
    rw [ArmWrites, command] at writes
    refine obeysAt_handleZrem ambient (holds fun enough entry => ?_) writes
    rw [Casts, command]
    exact ⟨enough, rfl⟩
  | geoadd =>
    rw [ArmWrites, command] at writes
    refine obeysAt_handleGeoadd ambient (holds fun valid entry => ?_) writes
    rw [Casts, command]
    exact ⟨valid, rfl⟩
  | geopos =>
    refine obeysAt_handleGeopos ambient (holds fun enough entry => ?_)
    rw [Casts, command]
    exact ⟨enough, rfl⟩
  | geodist =>
    refine obeysAt_handleGeodist ambient (holds fun enough entry => ?_)
    rw [Casts, command]
    exact ⟨enough, rfl⟩
  | geosearch =>
    rw [ArmWrites, command] at writes
    refine obeysAt_handleGeosearch ambient (holds fun enough entry => ?_) writes
    rw [Casts, command]
    exact ⟨enough, rfl⟩
  | xadd =>
    rw [ArmWrites, command] at writes
    rw [command] at blocks
    refine obeysAt_handleSet ambient .stream (fun _ => blocks rfl) ?_ writes
    refine (holds fun (enough : 2 ≤ req.argc) entry => ?_).imp_right fun holds enough _ => holds enough
    rw [Casts, command]
    exact ⟨enough, rfl⟩
  | xread =>
    rw [ArmSupplied, command] at enough
    rw [command] at blocks
    refine obeysAt_handleStreamPrint ambient .xread (fun _ => (blocks rfl).mayRead ptr) (enough.imp_right fun supplied => ?_)
    exact ⟨fun isXrange => absurd isXrange (by decide), fun _ => supplied⟩
  | xrange =>
    rw [ArmSupplied, command] at enough
    refine obeysAt_handleStreamPrint ambient .xrange (fun notXrange => absurd rfl notXrange) (enough.imp_right fun supplied => ?_)
    exact ⟨fun _ => supplied, fun notXrange => absurd rfl notXrange⟩
  | subscribe => exact obeys_handleSubscribe ambient w
  | publish => exact obeys_handlePublish ambient w
  | unsubscribe => exact obeys_handleUnsubscribe ambient w
  | multi | exec | discard | watch | unwatch | unknown =>
    rw [ArmSupplied, command] at enough
    refine obeysAt_printArg ambient (enough.imp_right fun supplied => ?_) (obeys_send ambient _ _ w)
    exact supplied.imp_right fun _ => by omega
  -- the arms without a handler
  | _ => exact obeys_pure ambient () w

omit [Externals D] in
theorem obeys_notifyFirst (enough : F .missingArg ∨ 1 ≤ req.argc) (mayMark : MayMark R) :
    Obeys R F (notifyFirst req : M D Unit) := by
  refine obeys_seq ambient (obeys_arg ambient (enough.imp_right fun _ => by omega)) fun key => ?_
  refine obeys_seq ambient ?_ fun clientList => obeys_forM ambient clientList fun slot _ => ?_
  · refine obeys_seq ambient (obeys_tableIndex ambient key) fun bucket => ?_
    exact obeys_seq ambient (obeys_observe ambient _) fun watchers => obeys_pure ambient _
  · cases slot with
    | none => exact obeys_pure ambient ()
    | some ptr =>
      intro w
      cases found : w.heap ptr with
      | none =>
        exact ObeysAt.of_error (updateClient_missing found) (ambient.faults _ (by decide) (by decide))
      | some client =>
        exact ObeysAt.of_ok (updateClient_found found) (mayMark w ptr client found)

omit [Externals D] in
theorem obeys_writeToFile (mayLog : MayLog R) : Obeys R F (writeToFile req : M D Unit) := by
  refine obeys_seq ambient (obeys_config ambient) fun server => ?_
  refine obeys_seq ambient (obeys_toUpperCopy ambient _) fun appendOnly => ?_
  refine Obeys.ite (fun _ => obeys_pure ambient ()) fun _ => ?_
  refine obeys_seq ambient (obeys_observe ambient _) fun files => ?_
  split
  · exact obeys_fault ambient (by decide) (by decide)
  · refine obeys_seq ambient ?_ fun _ => Obeys.alter fun w => mayLog.append w _
    unfold recordActiveName
    split
    · exact obeys_pure ambient ()
    · exact Obeys.ite (fun _ => obeys_fault ambient (by decide) (by decide))
        fun _ => Obeys.alter fun w => mayLog.rename w _

/-- The request has the arguments that its arm and `notify_watchers` read. -/
def Supplied (w : World D) (req : RespRequest) : Prop :=
  ArmSupplied w req ∧ (notifies req.command → 1 ≤ req.argc)

theorem obeysAt_dispatch (enough : F .missingArg ∨ Supplied w req)
    (typed : F .typeConfusion ∨ WellTyped w req) (writes : ArmWrites w req → WritesKey R req)
    (blocks : changesBlocking req.command → MayBlock R)
    (mayNote : ∀ w executed, isWriteCmd req.command → R w { w with executed := executed })
    (mayMark : notifies req.command → MayMark R) (mayLog : logs req.command → MayLog R) :
    ObeysAt R F (dispatch req ptr) w := by
  rw [dispatch_eq]
  cases found : w.heap ptr with
  | none =>
    exact ObeysAt.of_error (bind_of_error (loadClient_missing found))
      (ambient.faults _ (by decide) (by decide))
  | some client =>
    rw [ObeysAt, bind_of_ok (loadClient_found found)]
    have noted : R w { w with
        executed := if isWriteCmd req.command then w.executed ++ [req] else w.executed } := by
      split
      · exact mayNote w _ ‹_›
      · exact ambient.composes.refl w
    refine ObeysAt.bind ambient.composes (ObeysAt.of_ok rfl noted) fun _ t run => ?_
    obtain rfl : { w with
        executed := if isWriteCmd req.command then w.executed ++ [req] else w.executed } = t := by
      simpa [noteExecuted] using run
    refine obeysAt_seq ambient (obeysAt_arm ambient (enough.imp_right And.left) typed writes
      blocks)
      fun _ => ?_
    refine obeys_seq ambient (Obeys.onlyIf ambient.composes fun notified => ?_) fun _ => ?_
    · exact obeys_notifyFirst ambient (enough.imp_right fun supplied => supplied.2 notified)
        (mayMark notified)
    · exact Obeys.onlyIf ambient.composes fun logged => obeys_writeToFile ambient (mayLog logged)

end RedisClone
