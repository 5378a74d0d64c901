import RedisClone.Lib.Agreement
import RedisClone.Verified.Convergence
import RedisClone.Verified.Replies

/-! # What a replica answers, its master has answered

A read command that looks at no deadline is answered from the contents of the table: two servers with the same contents
send the same (`AnswersAlike`).  A replica has the contents that its master had at an earlier state of the run, so that it
answers as the master did then, and as the master does now where nothing is on its way (`replica_reads_stale`).
-/

namespace RedisClone

open Exec CString CommandLog

variable {D : Type}

/-- The commands that are answered from the stored values. -/
def isPlainRead : RedisCmds → Bool
  | .keys | .get | .type | .llen | .lrange | .zrank | .zrange | .zcard | .zscore | .geopos | .geodist => true
  | _ => false

/-- GET looks at the deadline of its key too: there is none. -/
def Lasting (w : World D) (req : RespRequest) : Prop :=
  req.command = .get → ∀ key ∈ req.args[0]?, ∀ entry ∈ binding w.table key, entry.expiresAt = 0

/-- The client in a slot, whose request is executed at once. -/
def ServedAt (w : World D) (slot : ClientSlot) (req : RespRequest) (fd : Int) : Prop :=
  ∃ ptr client, w.clients slot = some ptr ∧ w.heap ptr = some client ∧ reachesArm client req = true ∧ client.fd = fd

/-- What is sent when the client in a slot sends a request. -/
def World.answered [Externals D] (w : World D) (slot : ClientSlot) (call : Call) : Option (List (Int × Bytes)) :=
  (serveRequest slot call w).toOption.map fun ended => ended.2.sent.drop w.sent.length

/-- Where both servers answer a read, each sends its client the same texts. -/
def AnswersAlike [Externals D] (w v : World D) : Prop :=
  ∀ (call : Call) (slot slot' : ClientSlot) (fd fd' : Int), isPlainRead call.request.command = true →
    Lasting w call.request → Lasting v call.request → ServedAt w slot call.request fd → ServedAt v slot' call.request fd' →
    ∀ answer ∈ w.answered slot call, ∀ answer' ∈ v.answered slot' call,
      ∃ texts : List Bytes, answer = texts.map (fun text => (fd, text)) ∧ answer' = texts.map fun text => (fd', text)

/-! ## Two servers with the same contents -/

/-- The contents are the same, and the same texts were sent since two states, on one descriptor each. -/
structure Echoes (w₀ v₀ : World D) (fd fd' : Int) (w v : World D) : Prop where
  same : contents w.table = contents v.table
  echoed : ∃ texts : List Bytes, w.sent = w₀.sent ++ texts.map (fun text => (fd, text)) ∧
    v.sent = v₀.sent ++ texts.map fun text => (fd', text)

section Echoes

variable {w₀ v₀ w v : World D} {fd fd' : Int} {req : RespRequest} {key : Bytes}

theorem Echoes.refl (same : contents w₀.table = contents v₀.table) : Echoes w₀ v₀ fd fd' w₀ v₀ :=
  ⟨same, [], by simp, by simp⟩

theorem Echoes.emit (echoes : Echoes w₀ v₀ fd fd' w v) (text : Bytes) :
    Echoes w₀ v₀ fd fd' (w.emit fd text) (v.emit fd' text) where
  same := echoes.same
  echoed := by
    obtain ⟨texts, sent, sent'⟩ := echoes.echoed
    exact ⟨texts ++ [text], by simp [World.emit, sent], by simp [World.emit, sent']⟩

/-- The value of a key, which the contents determine. -/
theorem Echoes.value (echoes : Echoes w₀ v₀ fd fd' w v) (key : Bytes) :
    (binding w.table key).map Entry.value = (binding v.table key).map Entry.value := by
  rw [← contents_value, ← contents_value, echoes.same]

instance agrees_send (text : Bytes) :
    Agrees (Echoes w₀ v₀ fd fd') (send fd text : M D Unit) (send fd' text) :=
  Agrees.alter fun _ _ echoes => echoes.emit text

instance agrees_sendText (size : Nat) (text : Bytes) :
    Agrees (Echoes w₀ v₀ fd fd') (sendText size fd text : M D Unit) (sendText size fd' text) := by
  unfold sendText
  infer_instance

instance agrees_arg (i : Nat) : Agrees (Echoes w₀ v₀ fd fd') (req.arg i : M D Bytes) (req.arg i) := by
  unfold RespRequest.arg fault
  split
  · infer_instance
  · infer_instance

instance agrees_print (size : Nat) (buffer : Buffer) (text : Bytes) :
    Agrees (Echoes w₀ v₀ fd fd') (buffer.print size text : M D Buffer) (buffer.print size text) := by
  unfold Buffer.print fault
  infer_instance

instance agrees_appendAll (size : Nat) (texts : List Bytes) (buffer : Buffer) :
    Agrees (Echoes w₀ v₀ fd fd') (Buffer.appendAll size texts buffer : M D Buffer) (Buffer.appendAll size texts buffer) := by
  induction texts generalizing buffer with
  | nil => exact agrees_pure buffer
  | cons text texts inductionHypothesis =>
    unfold Buffer.appendAll Buffer.append
    infer_instance

instance agrees_appendGuarded (size : Nat) (texts : List Bytes) (buffer : Buffer) :
    Agrees (Echoes w₀ v₀ fd fd') (Buffer.appendGuarded size texts buffer : M D Buffer)
      (Buffer.appendGuarded size texts buffer) := by
  induction texts generalizing buffer with
  | nil => exact agrees_pure buffer
  | cons text texts inductionHypothesis =>
    unfold Buffer.appendGuarded
    infer_instance

instance agrees_sendPrefix (size : Nat) (buffer : Buffer) :
    Agrees (Echoes w₀ v₀ fd fd') (buffer.sendPrefix size fd : M D Unit) (buffer.sendPrefix size fd') := by
  unfold Buffer.sendPrefix fault
  infer_instance

/-- What follows a walk may not look at the time of the entry. -/
theorem agrees_entry {β : Type} {f g : Option (Entry D) → M D β} (absent : Agrees (Echoes w₀ v₀ fd fd') (f none) (g none))
    (present : ∀ value expiresAt expiresAt',
      Agrees (Echoes w₀ v₀ fd fd') (f (some ⟨value, expiresAt⟩)) (g (some ⟨value, expiresAt'⟩))) :
    Agrees (Echoes w₀ v₀ fd fd') (storeGetEntry key >>= f) (storeGetEntry key >>= g) where
  run w v b b' w' v' echoes run run' := by
    obtain ⟨found, u, walk, rest⟩ := bind_eq_ok.mp run
    obtain ⟨found', u', walk', rest'⟩ := bind_eq_ok.mp run'
    obtain ⟨looks, rfl⟩ := storeGetEntry_ok walk
    obtain ⟨looks', rfl⟩ := storeGetEntry_ok walk'
    have sameValue := echoes.value key
    rw [looks, looks'] at sameValue
    cases found with
    | none =>
      obtain rfl : found' = none := Option.map_eq_none_iff.mp sameValue.symm
      exact absent.run _ _ b b' w' v' echoes rest rest'
    | some entry =>
      obtain ⟨⟨value', expiresAt'⟩, rfl, isValue⟩ := Option.map_eq_some_iff.mp sameValue.symm
      obtain ⟨value, expiresAt⟩ := entry
      dsimp only at isValue
      subst isValue
      exact (present _ expiresAt expiresAt').run _ _ b b' w' v' echoes rest rest'

theorem agrees_cast {α : Type} {cast : Value D → M D α} {type : RedisType} (casts : CastsTo cast type) (value : Value D) :
    Agrees (Echoes w₀ v₀ fd fd') (cast value) (cast value) := by
  by_cases typed : value.type = type
  · obtain ⟨payload, isPayload⟩ := casts.typed value typed
    rw [isPayload]
    exact agrees_pure payload
  · rw [casts.confused value typed]
    exact agrees_fault _ _

theorem agrees_withPayload {α β : Type} {cast : Value D → M D α} {type : RedisType} {missing missing' : M D β}
    {found found' : α → M D β} (casts : CastsTo cast type) (absent : Agrees (Echoes w₀ v₀ fd fd') missing missing')
    (each : ∀ payload, Agrees (Echoes w₀ v₀ fd fd') (found payload) (found' payload)) :
    Agrees (Echoes w₀ v₀ fd fd') (withPayload key cast missing found) (withPayload key cast missing' found') :=
  agrees_entry absent fun value _ _ => .bind (agrees_cast casts value) each

/-! ## The handlers -/

theorem agrees_handleType : Agrees (Echoes w₀ v₀ fd fd') (handleType req fd : M D Unit) (handleType req fd') := by
  unfold handleType
  exact .bind inferInstance fun key => agrees_entry inferInstance fun _ _ _ => agrees_send _

theorem agrees_handleLlen : Agrees (Echoes w₀ v₀ fd fd') (handleLlen req fd : M D Unit) (handleLlen req fd') := by
  unfold handleLlen
  refine .ite (agrees_pure ()) (.bind inferInstance fun key => ?_)
  exact agrees_withPayload asList_casts inferInstance fun values => inferInstance

theorem agrees_handleLrange : Agrees (Echoes w₀ v₀ fd fd') (handleLrange req fd : M D Unit) (handleLrange req fd') := by
  unfold handleLrange
  refine .ite (agrees_pure ()) (.bind inferInstance fun key => ?_)
  refine agrees_withPayload asList_casts inferInstance fun values => ?_
  refine .bind inferInstance fun first => .bind inferInstance fun last => .bind ?_ fun bounds => ?_
  · unfold lrangeBounds
    exact .ite (agrees_fault _ _) (agrees_pure _)
  · refine .ite inferInstance (.ite ?_ inferInstance)
    split
    · exact agrees_fault _ _
    · infer_instance

instance agrees_appendMembers (size remaining : Nat) (entries : List (ZSetEntry D)) (buffer : Buffer) :
    Agrees (Echoes w₀ v₀ fd fd') (appendMembers size remaining entries buffer : M D Buffer)
      (appendMembers size remaining entries buffer) := by
  induction remaining generalizing entries buffer with
  | zero => exact agrees_pure buffer
  | succ remaining inductionHypothesis =>
    cases entries with
    | nil => exact agrees_fault _ _
    | cons entry entries =>
      unfold appendMembers
      infer_instance

theorem agrees_handleZrank : Agrees (Echoes w₀ v₀ fd fd') (handleZrank req fd : M D Unit) (handleZrank req fd') := by
  unfold handleZrank
  refine .ite (agrees_pure ()) (.bind inferInstance fun key => ?_)
  refine agrees_withPayload asZSet_casts inferInstance fun sortedSet => .bind inferInstance fun member => ?_
  split
  · infer_instance
  · infer_instance

theorem agrees_handleZrange : Agrees (Echoes w₀ v₀ fd fd') (handleZrange req fd : M D Unit) (handleZrange req fd') := by
  unfold handleZrange
  refine .ite (agrees_pure ()) (.bind inferInstance fun key => ?_)
  refine agrees_withPayload asZSet_casts inferInstance fun sortedSet => ?_
  refine .bind inferInstance fun first => .bind inferInstance fun last => ?_
  exact .ite inferInstance (.ite (agrees_fault _ _) inferInstance)

theorem agrees_handleZcard : Agrees (Echoes w₀ v₀ fd fd') (handleZcard req fd : M D Unit) (handleZcard req fd') := by
  unfold handleZcard
  refine .ite (agrees_pure ()) (.bind inferInstance fun key => ?_)
  exact agrees_withPayload asZSet_casts inferInstance fun sortedSet => inferInstance

theorem agrees_handleZscore [Externals D] :
    Agrees (Echoes w₀ v₀ fd fd') (handleZscore req fd : M D Unit) (handleZscore req fd') := by
  unfold handleZscore
  refine .ite (agrees_pure ()) (.bind inferInstance fun key => ?_)
  refine agrees_withPayload asZSet_casts inferInstance fun sortedSet => .bind inferInstance fun member => ?_
  split
  · infer_instance
  · exact .ite (agrees_fault _ _) inferInstance

instance agrees_sendPositions (size : Nat) (text : Bytes → Bytes) :
    Agrees (Echoes w₀ v₀ fd fd') (sendPositions size req fd text : M D Unit) (sendPositions size req fd' text) := by
  unfold sendPositions
  infer_instance

theorem agrees_handleGeopos [Externals D] :
    Agrees (Echoes w₀ v₀ fd fd') (handleGeopos req fd : M D Unit) (handleGeopos req fd') := by
  unfold handleGeopos
  refine .ite (agrees_pure ()) (.bind inferInstance fun key => ?_)
  exact agrees_withPayload asZSet_casts inferInstance fun sortedSet => inferInstance

theorem agrees_handleGeodist [Externals D] :
    Agrees (Echoes w₀ v₀ fd fd') (handleGeodist req fd : M D Unit) (handleGeodist req fd') := by
  unfold handleGeodist
  refine .ite (agrees_pure ()) (.bind inferInstance fun key => ?_)
  refine agrees_withPayload asZSet_casts inferInstance fun sortedSet => ?_
  refine .bind inferInstance fun first => .bind inferInstance fun last => ?_
  dsimp only
  split
  · infer_instance
  · infer_instance

/-- The keys are read off the contents. -/
instance agrees_keysOf (buckets : List Bucket) :
    Agrees (Echoes w₀ v₀ fd fd') (keysOf buckets : M D (List Bytes)) (keysOf buckets) := by
  induction buckets with
  | nil => exact agrees_pure []
  | cons bucket buckets inductionHypothesis =>
    constructor
    intro w v keys keys' w' v' echoes run run'
    have sameKeys : (w.table bucket).nodes.map Prod.fst = (v.table bucket).nodes.map Prod.fst := by
      rw [← Chain.keys_mapValues Entry.value, ← Chain.keys_mapValues Entry.value]
      exact congrArg (fun chain => chain.nodes.map Prod.fst) (congrFun echoes.same bucket)
    -- with the table that each walk starts from, the two are the same computation
    rw [keysOf, bind_of_ok (observe_run _ w)] at run
    rw [keysOf, bind_of_ok (observe_run _ v)] at run'
    rw [sameKeys] at run
    exact (Agrees.orFault inferInstance).run w v keys keys' w' v' echoes run run'

theorem agrees_handleKey : Agrees (Echoes w₀ v₀ fd fd') (handleKey fd : M D Unit) (handleKey fd') := by
  unfold handleKey
  infer_instance

/-- Where the key has no deadline, GET looks at the value only. -/
theorem handleGet_lasting (isGet : req.command = .get) (lasting : Lasting w req) :
    handleGet req fd w = (do
      let key ← req.arg 0
      withPayload key asString (send fd nilReply) fun text => sendText 1024 fd (bulk text)) w := by
  cases isKey : req.args[0]? with
  | none => simp [handleGet, bind_run, RespRequest.arg, isKey, fault]
  | some key =>
    have reads : (req.arg 0 : M D Bytes) w = .ok (key, w) := arg_ok.mpr ⟨isKey, rfl⟩
    rw [handleGet, bind_of_ok reads, bind_of_ok reads, withPayload, storeGet, bind_assoc]
    cases looks : lookup w.table key with
    | error faults => simp [bind_run, storeGetEntry_run, looks]
    | ok found =>
      have walks : storeGetEntry key w = .ok (found, w) := by rw [storeGetEntry_run, looks]
      rw [bind_of_ok walks, bind_of_ok walks]
      cases found with
      | none => rfl
      | some entry =>
        have forever : entry.expiresAt = 0 := lasting isGet key isKey entry (storeGetEntry_ok walks).1
        simp [forever]

end Echoes

/-! ## A request -/

section Requests

variable [Externals D] {w v w' v' : World D} {ptr ptr' : ClientPtr} {client client' : Client} {req : RespRequest}

theorem arm_echoes (reads : isPlainRead req.command = true) (lasting : Lasting w req) (lasting' : Lasting v req)
    (same : contents w.table = contents v.table) (run : arm req ptr client w = .ok ((), w'))
    (run' : arm req ptr' client' v = .ok ((), v')) : Echoes w v client.fd client'.fd w' v' := by
  have agree {x y : M D Unit} (agrees : Agrees (Echoes w v client.fd client'.fd) x y) (run : x w = .ok ((), w'))
      (run' : y v = .ok ((), v')) : Echoes w v client.fd client'.fd w' v' :=
    (agrees.run w v () () w' v' (.refl same) run run').2
  unfold arm at run run'
  cases command : req.command <;> simp only [command] at run run' reads <;> try cases reads
  case keys => exact agree agrees_handleKey run run'
  case type => exact agree agrees_handleType run run'
  case llen => exact agree agrees_handleLlen run run'
  case lrange => exact agree agrees_handleLrange run run'
  case zrank => exact agree agrees_handleZrank run run'
  case zrange => exact agree agrees_handleZrange run run'
  case zcard => exact agree agrees_handleZcard run run'
  case zscore => exact agree agrees_handleZscore run run'
  case geopos => exact agree agrees_handleGeopos run run'
  case geodist => exact agree agrees_handleGeodist run run'
  case get =>
    rw [handleGet_lasting command lasting] at run
    rw [handleGet_lasting command lasting'] at run'
    refine agree (.bind inferInstance fun key => ?_) run run'
    exact agrees_withPayload asString_casts inferInstance fun text => inferInstance

theorem isPlainRead.readOnly {req : RespRequest} (reads : isPlainRead req.command = true) :
    isWriteCmd req.command = false := by
  revert reads
  cases req.command <;> simp [isPlainRead, isWriteCmd]

/-- A read that is executed at once sends what its handler sends. -/
theorem answered_arm {slot : ClientSlot} {call : Call} {fd : Int} {answer : List (Int × Bytes)}
    (reads : isPlainRead call.request.command = true) (served : ServedAt w slot call.request fd)
    (answered : w.answered slot call = some answer) :
    ∃ ptr client handled, client.fd = fd ∧ arm call.request ptr client w = .ok ((), handled) ∧
      answer = handled.sent.drop w.sent.length := by
  obtain ⟨ptr, client, inSlot, found, reaches, isFd⟩ := served
  obtain ⟨⟨_, t⟩, ends, isAnswer⟩ := Option.map_eq_some_iff.mp answered
  obtain ⟨handled, dispatches, propagates⟩ := serveRequest_parts inSlot found reaches (toOption_eq_some.mp ends)
  obtain ⟨client', armed, notified, found', arms, notify, write⟩ := dispatch_parts dispatches
  obtain rfl : client = client' := Option.some.inj (found.symm.trans found')
  have unnoted : w.noted call.request = w := by simp [World.noted, isPlainRead.readOnly reads]
  obtain ⟨copies, sent, _, isNothing⟩ := propagate_sent propagates
  obtain rfl : copies = [] := isNothing.resolve_right fun isWrite => by simp [isPlainRead.readOnly reads] at isWrite
  refine ⟨ptr, client, armed, isFd, unnoted ▸ arms, ?_⟩
  rw [← isAnswer, sent, List.append_nil, (quiet_writeToFile write).1, (quiet_notifyFirst notify).1]

/-- Servers with the same contents answer alike. -/
theorem answersAlike (same : contents w.table = contents v.table) : AnswersAlike w v := by
  intro call slot slot' fd fd' reads lasting lasting' served served' answer answered answer' answered'
  obtain ⟨ptr, client, handled, rfl, arms, rfl⟩ := answered_arm reads served answered
  obtain ⟨ptr', client', handled', rfl, arms', rfl⟩ := answered_arm reads served' answered'
  obtain ⟨texts, sent, sent'⟩ := (arm_echoes reads lasting lasting' same arms arms').echoed
  exact ⟨texts, by simp [sent], by simp [sent']⟩

end Requests

/-! ## Runs -/

section Runs

variable {ι : Type} [Externals D] [DecidableEq ι] {links : ι → Link} {s t : Net ι D}

/-- In every run of a master and its replicas that start alike, whose write commands store the same at both sides, a
replica answers every read of stored values as the master would have answered it at some earlier state of the run, and
as the master would answer it now whenever nothing is on its way to the replica. -/
theorem replica_reads_stale (starts : s.AllAttached links) (numbered : (contents s.master.table).AllNumbered)
    (alike : ∀ i, contents (s.replicas i).table = contents s.master.table)
    (run : Run (NetStep links) Net.Converging s t) (i : ι) :
    (∃ u, Run (NetStep links) Net.Converging s u ∧ Run (NetStep links) Net.Converging u t ∧
        AnswersAlike (t.replicas i) u.master) ∧
      (t.down i = [] → AnswersAlike (t.replicas i) t.master) := by
  have numberedAt (i : ι) : (contents (s.replicas i).table).AllNumbered := alike i ▸ numbered
  constructor
  · obtain ⟨u, here, rest, same⟩ := starts.holds_earlier numbered numberedAt run i
    exact ⟨u, here, rest, answersAlike (funext fun bucket => same bucket (congrFun (alike i) bucket))⟩
  · intro nothing
    exact answersAlike (funext fun bucket =>
      starts.holds_now numbered numberedAt run i nothing (congrFun (alike i) bucket))

/-- The list has two elements at the master, and one at the replica that has not taken the second command. -/
theorem replica_reads_stale_one : ∃ t : Net Unit Int,
    t.master.answered secondSlot ⟨0, requestOf [lit "LLEN", lit "l"], 0⟩ = some [(6, lit ":2\r\n")] ∧
    (t.replicas ()).answered firstSlot ⟨0, requestOf [lit "LLEN", lit "l"], 0⟩ = some [(4, lit ":1\r\n")] ∧
    ∃ u, Run (NetStep onlyLink) Net.Converging netOfOne u ∧ Run (NetStep onlyLink) Net.Converging u t ∧
      AnswersAlike (t.replicas ()) u.master := by
  let events := [clientSends [lit "RPUSH", lit "l", lit "a"], .deliver () [], clientSends [lit "RPUSH", lit "l", lit "b"]]
  have evaluates : (Run.follow (fun u event => u.next onlyLink event) Net.Converging netOfOne events).any
      (fun t => decide (
        t.master.answered secondSlot ⟨0, requestOf [lit "LLEN", lit "l"], 0⟩ = some [(6, lit ":2\r\n")] ∧
        (t.replicas ()).answered firstSlot ⟨0, requestOf [lit "LLEN", lit "l"], 0⟩ = some [(4, lit ":1\r\n")])) = true := by
    decide +kernel
  obtain ⟨t, follows, checked⟩ := (Option.any_eq_true _ _).mp evaluates
  obtain ⟨atMaster, atReplica⟩ := of_decide_eq_true checked
  have run : Run (NetStep onlyLink) Net.Converging netOfOne t := Run.of_follow (fun _ _ _ isNext => isNext) follows
  exact ⟨t, atMaster, atReplica,
    (replica_reads_stale netOfOne_allAttached Contents.allNumbered_empty (fun _ => rfl) run ()).1⟩

end Runs

end RedisClone
