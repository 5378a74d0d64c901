import RedisClone.Lib.Imitation
import RedisClone.Verified.Contents
import RedisClone.Verified.Deques
import RedisClone.Verified.StreamDeliveries

/-! # Commands that end again

`Mirrors w v`: the table of `v` has the contents of the one of `w`, and the memory behind both is zeroed.  A write
command that ends from `w` and stores a value that depends neither on the clock nor on a client that waits ends from
`v` as well (`arm_imitates`).  The times at which values expire and the connections may differ.
-/

namespace RedisClone

open Exec CString

variable {D : Type}

/-- A state without clients with the same contents, in which every walk ends. -/
structure Mirrors (w v : World D) : Prop where
  same : contents v.table = contents w.table
  blank : ∀ n, w.fresh n = []
  blankToo : ∀ n, v.fresh n = []
  ends : ∀ bucket, (v.table bucket).wild = false
  alone : ∀ slot, v.clients slot = none

theorem Mirrors.of_same {w w' v v' : World D} (mirrors : Mirrors w v) (table : w'.table = w.table) (fresh : w'.fresh = w.fresh)
    (table' : v'.table = v.table) (fresh' : v'.fresh = v.fresh) (clients : v'.clients = v.clients) : Mirrors w' v' where
  same := by rw [table, table', mirrors.same]
  blank n := by rw [fresh, mirrors.blank]
  blankToo n := by rw [fresh', mirrors.blankToo]
  ends bucket := by rw [table', mirrors.ends]
  alone slot := by rw [clients, mirrors.alone]

/-- Every walk over the table ends. -/
def AllEnd (w : World D) : Prop := ∀ bucket, (w.table bucket).wild = false

theorem allEnd_of_imitates {α : Type} {x y : M D α} (imitates : Imitates Mirrors x y) : Outlasts Mirrors AllEnd x y :=
  imitates.outlasts fun _ _ mirrors => mirrors.ends

/-! ## System calls and memory -/

section Memory

variable {α : Type}

instance imitates_send (fd fd' : Int) (bytes bytes' : Bytes) :
    Imitates Mirrors (send fd bytes : M D Unit) (send fd' bytes') :=
  Imitates.alter fun _ _ mirrors => mirrors.of_same rfl rfl rfl rfl rfl

instance imitates_sendText (size : Nat) (fd fd' : Int) (text : Bytes) :
    Imitates Mirrors (sendText size fd text : M D Unit) (sendText size fd' text) := by
  unfold sendText
  infer_instance

instance imitates_sendUnlessMaster (fd fd' : Int) (bytes : Bytes) :
    Imitates Mirrors (sendUnlessMaster fd bytes : M D Unit) (sendUnlessMaster fd' bytes) where
  run w v a w' mirrors run := by
    have ends (fd : Int) (w : World D) : ∃ sent, sendUnlessMaster fd bytes w = .ok ((), { w with sent }) := by
      unfold sendUnlessMaster
      rw [bind_of_ok (show config w = .ok (w.serverConfig, w) from rfl)]
      split
      · exact ⟨_, rfl⟩
      · exact ⟨w.sent, rfl⟩
    obtain ⟨sent, sends⟩ := ends fd w
    obtain ⟨sent', sends'⟩ := ends fd' v
    obtain ⟨_, rfl⟩ := Prod.mk.inj (Except.ok.inj (sends.symm.trans run))
    exact ⟨_, sends', mirrors.of_same rfl rfl rfl rfl rfl⟩

/-- Zeroed blocks are all alike. -/
instance imitates_indeterminate : Imitates Mirrors (indeterminate : M D Bytes) indeterminate where
  run w v block w' mirrors run := by
    obtain ⟨rfl, rfl⟩ := Prod.mk.inj (Except.ok.inj run)
    refine ⟨v.takeFresh, ?_, mirrors.same, fun n => mirrors.blank (n + 1), fun n => mirrors.blankToo (n + 1),
      mirrors.ends, mirrors.alone⟩
    change Except.ok (v.fresh 0, _) = Except.ok (w.fresh 0, _)
    rw [mirrors.blank, mirrors.blankToo]

instance imitates_indeterminateInt : Imitates Mirrors (indeterminateInt : M D Int) indeterminateInt := by
  unfold indeterminateInt
  infer_instance

instance imitates_arg (req : RespRequest) (i : Nat) : Imitates Mirrors (req.arg i : M D Bytes) (req.arg i) := by
  unfold RespRequest.arg fault
  split
  · infer_instance
  · infer_instance

instance imitates_tableIndex (key : Bytes) : Imitates Mirrors (tableIndex key : M D Bucket) (tableIndex key) := by
  unfold tableIndex fault
  split
  · infer_instance
  · infer_instance

instance imitates_print (size : Nat) (buffer : Buffer) (text : Bytes) :
    Imitates Mirrors (buffer.print size text : M D Buffer) (buffer.print size text) := by
  unfold Buffer.print fault
  infer_instance

instance imitates_appendAll (size : Nat) (texts : List Bytes) (buffer : Buffer) :
    Imitates Mirrors (Buffer.appendAll size texts buffer : M D Buffer) (Buffer.appendAll size texts buffer) := by
  induction texts generalizing buffer with
  | nil => exact imitates_pure buffer
  | cons text texts inductionHypothesis =>
    unfold Buffer.appendAll Buffer.append
    infer_instance

instance imitates_sendPrefix (size : Nat) (buffer : Buffer) (fd fd' : Int) :
    Imitates Mirrors (buffer.sendPrefix size fd : M D Unit) (buffer.sendPrefix size fd') := by
  unfold Buffer.sendPrefix fault
  infer_instance

end Memory

/-! ## The table -/

section Table

variable {w v : World D} {key : Bytes} {bucket : Bucket}

theorem contents_setBucket (w : World D) (bucket : Bucket) (chain : Chain Bytes (Entry D)) :
    contents (w.setBucket bucket chain).table = Function.update (contents w.table) bucket (chain.mapValues Entry.value) :=
  contents_update w.table bucket chain

/-- The same change of a chain on both sides. -/
theorem Mirrors.setBucket (mirrors : Mirrors w v) {chain chain' : Chain Bytes (Entry D)}
    (same : chain'.mapValues Entry.value = chain.mapValues Entry.value) (ends : chain'.wild = false) :
    Mirrors (w.setBucket bucket chain) (v.setBucket bucket chain') where
  same := by rw [contents_setBucket, contents_setBucket, mirrors.same, same]
  blank := mirrors.blank
  blankToo := mirrors.blankToo
  ends other := by
    by_cases here : other = bucket
    · subst here
      simpa [World.setBucket] using ends
    · simpa [World.setBucket, Function.update_of_ne here] using mirrors.ends other
  alone := mirrors.alone

theorem Mirrors.chain (mirrors : Mirrors w v) (bucket : Bucket) :
    (v.table bucket).mapValues Entry.value = (w.table bucket).mapValues Entry.value :=
  congrFun mirrors.same bucket

/-- A walk finds the same value, at most with another time. -/
theorem Mirrors.lookup {found : Option (Entry D)} (mirrors : Mirrors w v) (looks : lookup w.table key = .ok found) :
    ∃ found', lookup v.table key = .ok found' ∧ found'.map Entry.value = found.map Entry.value := by
  obtain ⟨bucket, inBucket⟩ : ∃ bucket, bucketOf key = some bucket := by
    cases inBucket : bucketOf key with
    | none => simp [RedisClone.lookup, inBucket] at looks
    | some bucket => exact ⟨bucket, rfl⟩
  have sameValue : ((v.table bucket).value? key).map Entry.value = ((w.table bucket).value? key).map Entry.value := by
    rw [← Chain.value_mapValues, ← Chain.value_mapValues, mirrors.chain]
  rw [lookup_of_bucket inBucket] at looks
  rw [Chain.find_eq_ok looks] at sameValue
  refine ⟨(v.table bucket).value? key, (lookup_of_bucket inBucket).mpr ?_, sameValue⟩
  cases isValue : (v.table bucket).value? key with
  | none => exact Chain.find_eq_some_none.mpr ⟨isValue, mirrors.ends bucket⟩
  | some entry => exact Chain.find_of_value isValue

/-- What follows a walk may not look at the time of the entry. -/
theorem imitates_entry {β : Type} {f g : Option (Entry D) → M D β} (absent : Imitates Mirrors (f none) (g none))
    (present : ∀ value expiresAt expiresAt', Imitates Mirrors (f (some ⟨value, expiresAt⟩)) (g (some ⟨value, expiresAt'⟩))) :
    Imitates Mirrors (storeGetEntry key >>= f) (storeGetEntry key >>= g) where
  run w v b w' mirrors run := by
    obtain ⟨found, u, walk, rest⟩ := bind_eq_ok.mp run
    rw [storeGetEntry_run] at walk
    cases looks : lookup w.table key with
    | error e => simp [looks] at walk
    | ok result =>
      rw [looks] at walk
      obtain ⟨rfl, rfl⟩ := Prod.mk.inj (Except.ok.inj walk)
      obtain ⟨found', looks', sameValue⟩ := mirrors.lookup looks
      have walk' : storeGetEntry key v = .ok (found', v) := by rw [storeGetEntry_run, looks']
      rw [bind_of_ok walk']
      cases result with
      | none =>
        obtain rfl := Option.map_eq_none_iff.mp sameValue
        exact absent.run w v b w' mirrors rest
      | some entry =>
        obtain ⟨⟨value, expiresAt'⟩, rfl, isValue⟩ := Option.map_eq_some_iff.mp sameValue
        obtain ⟨value', expiresAt⟩ := entry
        dsimp only at isValue
        subst isValue
        exact (present value expiresAt expiresAt').run w v b w' mirrors rest

theorem imitates_withPayload {α β : Type} {cast : Value D → M D α} {type : RedisType} {missing missing' : M D β}
    {found found' : α → M D β} (casts : CastsTo cast type) (absent : Imitates Mirrors missing missing')
    (each : ∀ payload, Imitates Mirrors (found payload) (found' payload)) :
    Imitates Mirrors (withPayload key cast missing found) (withPayload key cast missing' found') := by
  unfold withPayload
  refine imitates_entry absent fun value _ _ => ?_
  refine .bind ?_ each
  by_cases typed : value.type = type
  · obtain ⟨payload, isPayload⟩ := casts.typed value typed
    rw [isPayload]
    exact imitates_pure payload
  · rw [casts.confused value typed]
    exact imitates_fault _ _

instance imitates_updateEntry (key : Bytes) (value : Value D) :
    Imitates Mirrors (updateEntry key value) (updateEntry key value) := by
  unfold updateEntry
  refine .bind inferInstance fun bucket => Imitates.alter fun w v mirrors => mirrors.setBucket ?_ (mirrors.ends bucket)
  rw [Chain.mapValues_update _ (h := fun _ => value) fun _ => rfl, Chain.mapValues_update _ (h := fun _ => value) fun _ => rfl,
    mirrors.chain]

/-- The node of a container comes from zeroed memory. -/
theorem storeSetContainer_blank (blank : ∀ n, w.fresh n = []) (inBucket : bucketOf key = some bucket) (value : Value D) :
    ∃ fresh, (∀ n, fresh n = []) ∧ storeSetContainer key value w =
      .ok ((), World.setBucket { w with fresh } bucket ((w.table bucket).replaceHead key ⟨value, 0⟩ false)) := by
  rw [storeSetContainer, bind_of_ok (tableIndex_of_bucket inBucket w), bind_of_ok (observe_run _ w)]
  unfold takeNode
  split
  · have takes : (wildNext <$> indeterminate : M D Bool) w = .ok (false, w.takeFresh) := by
      change Except.ok (wildNext (w.fresh 0), _) = _
      rw [blank]
      rfl
    rw [bind_of_ok takes]
    exact ⟨_, fun n => blank (n + 1), rfl⟩
  · exact ⟨w.fresh, blank, rfl⟩

instance imitates_storeSetContainer (key : Bytes) (value : Value D) :
    Imitates Mirrors (storeSetContainer key value) (storeSetContainer key value) where
  run w v a w' mirrors run := by
    obtain ⟨bucket, _, index, _⟩ := bind_eq_ok.mp run
    have inBucket := (tableIndex_eq_ok.mp index).1
    obtain ⟨fresh, blank, stores⟩ := storeSetContainer_blank mirrors.blank inBucket value
    obtain ⟨fresh', blankToo, stores'⟩ := storeSetContainer_blank mirrors.blankToo inBucket value
    obtain ⟨_, rfl⟩ := Prod.mk.inj (Except.ok.inj (stores.symm.trans run))
    have taken : Mirrors { w with fresh } { v with fresh := fresh' } :=
      ⟨mirrors.same, blank, blankToo, mirrors.ends, mirrors.alone⟩
    refine ⟨_, stores', taken.setBucket ?_ ?_⟩
    · rw [Chain.mapValues_replaceHead, Chain.mapValues_replaceHead, mirrors.chain]
    · unfold Chain.replaceHead
      split
      · rfl
      · exact mirrors.ends bucket

/-- The first keys of the buckets are the same. -/
instance imitates_storeOpened (key : Bytes) (stream : Stream) :
    Imitates Mirrors (storeOpened key stream : M D Unit) (storeOpened key stream) := by
  refine .bind inferInstance fun bucket => ⟨fun w v a w' mirrors run => ?_⟩
  have sameFirst : (v.table bucket).nodes.head?.map Prod.fst = (w.table bucket).nodes.head?.map Prod.fst := by
    have sameNodes := congrArg (fun chain => chain.nodes.head?.map Prod.fst) (mirrors.chain bucket)
    simpa [Chain.mapValues, Function.comp_def] using sameNodes
  rw [bind_of_ok (observe_run _ w)] at run
  rw [bind_of_ok (observe_run _ v), sameFirst]
  split at run
  · cases run
  · rename_i other
    rw [if_neg other]
    exact (imitates_storeSetContainer key (.stream stream)).run w v a w' mirrors run

/-- The time at which a value expires is read off the clock, and nothing else is. -/
theorem expiryOf_total (flag : TimeFlags) (seconds : Int) (w : World D) :
    ∃ expiresAt clock, expiryOf flag seconds w = .ok (expiresAt, { w with clock }) := by
  unfold expiryOf
  split
  · rw [bind_of_ok (show getCurrentTimeMs w = .ok (w.clock 0, w.tick) from rfl)]
    cases flag <;> exact ⟨_, _, rfl⟩
  · exact ⟨0, w.clock, rfl⟩

instance imitates_storeSet (key : Bytes) (value : Value D) (flag : TimeFlags) (seconds : Int) :
    Imitates Mirrors (storeSet key value flag seconds) (storeSet key value flag seconds) := by
  -- the entries differ in their times only
  have timed (change : Int → Chain Bytes (Entry D) → Chain Bytes (Entry D)) (bucket : Bucket)
      (same : ∀ expiresAt expiresAt' chain chain', chain'.mapValues Entry.value = chain.mapValues Entry.value →
        (change expiresAt' chain').mapValues Entry.value = (change expiresAt chain).mapValues Entry.value)
      (ends : ∀ expiresAt chain, chain.wild = false → (change expiresAt chain).wild = false) :
      Imitates Mirrors (expiryOf flag seconds >>= fun expiresAt => changeBucket bucket (change expiresAt) : M D Unit)
        (expiryOf flag seconds >>= fun expiresAt => changeBucket bucket (change expiresAt)) := by
    constructor
    intro w v a w' mirrors run
    obtain ⟨expiresAt, clock, reads⟩ := expiryOf_total flag seconds w
    obtain ⟨expiresAt', clock', reads'⟩ := expiryOf_total flag seconds v
    rw [bind_of_ok reads] at run
    obtain ⟨_, rfl⟩ := Prod.mk.inj (Except.ok.inj run)
    rw [bind_of_ok reads']
    have ticked : Mirrors { w with clock } { v with clock := clock' } := mirrors.of_same rfl rfl rfl rfl rfl
    exact ⟨_, rfl, ticked.setBucket (same _ _ _ _ (mirrors.chain bucket)) (ends _ _ (mirrors.ends bucket))⟩
  unfold storeSet
  refine .bind inferInstance fun bucket => imitates_entry ?_ fun _ _ _ => ?_
  · refine timed (fun expiresAt chain => chain.push key ⟨value, expiresAt⟩) bucket ?_ fun _ _ ends => ends
    intro _ _ chain chain' same
    rw [Chain.mapValues_push, Chain.mapValues_push, same]
  · refine timed (fun expiresAt chain => chain.update key fun _ => ⟨value, expiresAt⟩) bucket ?_ fun _ _ ends => ends
    intro _ _ chain chain' same
    rw [Chain.mapValues_update _ (h := fun _ => value) fun _ => rfl, Chain.mapValues_update _ (h := fun _ => value) fun _ => rfl,
      same]

end Table

/-! ## The handlers -/

section Handlers

variable {req : RespRequest} {fd fd' : Int}

theorem imitates_handleSet : Imitates Mirrors (handleSet req .string fd : M D Unit) (handleSet req .string fd') := by
  unfold handleSet
  infer_instance

theorem imitates_handleIncr : Imitates Mirrors (handleIncr req fd : M D Unit) (handleIncr req fd') := by
  unfold handleIncr fault
  refine .bind inferInstance fun key => imitates_entry inferInstance fun value _ _ => ?_
  refine @imitates_ite _ _ _ _ _ _ _ _ _ _ _ _ inferInstance (.bind ?_ inferInstance)
  cases value with
  | string text => exact imitates_pure text
  | _ => exact imitates_fault _ _

instance imitates_openList (key : Bytes) : Imitates Mirrors (openList key : M D (List Bytes)) (openList key) := by
  unfold openList storeSetList
  exact imitates_withPayload asList_casts inferInstance inferInstance

theorem imitates_handleLpush : Imitates Mirrors (handleLpush req fd : M D Unit) (handleLpush req fd') := by
  unfold handleLpush
  infer_instance

theorem imitates_handleLpop : Imitates Mirrors (handleLpop req fd : M D Unit) (handleLpop req fd') := by
  unfold handleLpop sendPopped
  refine @imitates_ite _ _ _ _ _ _ _ _ _ _ _ _ inferInstance (.bind inferInstance fun key => ?_)
  refine imitates_withPayload asList_casts inferInstance fun values => ?_
  cases values.head? with
  | none => infer_instance
  | some first => infer_instance

/-! ### RPUSH and XADD, which look for clients that wait -/

theorem waiters_alone {w : World D} (alone : ∀ slot, w.clients slot = none) (key : Bytes) : w.waiters key = [] := by
  refine List.filterMap_eq_nil_iff.mpr fun slot _ => ?_
  simp [World.waiterAt, alone slot]

theorem outlasts_handleRpush : Outlasts Mirrors AllEnd (handleRpush req fd : M D Unit) (handleRpush req fd') := by
  unfold handleRpush
  split
  · exact allEnd_of_imitates (imitates_send _ _ _ _)
  · refine Imitates.bind_outlasts inferInstance fun key => Imitates.bind_outlasts inferInstance fun list => ?_
    refine Imitates.bind_outlasts inferInstance fun _ => Imitates.bind_outlasts inferInstance fun _ => ?_
    intro w v _ _ mirrors _
    have scans : longestWaiter key clientSlots none 0 v = .ok (none, v) :=
      longestWaiter_total (fun slot ptr occupied => by simp [mirrors.alone slot] at occupied) (waiters_alone mirrors.alone key)
    exact ⟨(), v, by rw [bind_of_ok scans]; rfl, mirrors.ends⟩

/-- The numbers of a fixed ID are chosen alike at any time. -/
theorem imitates_chooseId {id : Bytes} (fixed : FixedId id) (stream : Stream) :
    Imitates Mirrors (chooseId stream id : M D Bytes) (chooseId stream id) := by
  obtain ⟨form, isForm, isFixed⟩ := fixed
  obtain rfl := IdForm.text_ofText isForm
  cases form with
  | automatic => exact isFixed.elim
  | explicit ms seq =>
    unfold chooseId IdForm.text
    rw [if_neg (by simp [explicit_plain isFixed.1.decimal isFixed.2.decimal])]
    exact imitates_pure _
  | millisecond ms =>
    constructor
    intro w v entryId w' mirrors run
    have star : strchr (IdForm.millisecond ms).text 42 = true := partial_automatic
    rw [chooseId, if_pos star, generateId, bind_of_ok (show getCurrentTimeMs w = .ok (w.clock 0, w.tick) from rfl)] at run
    rw [chooseId, if_pos star, generateId, bind_of_ok (show getCurrentTimeMs v = .ok (v.clock 0, v.tick) from rfl)]
    obtain ⟨pair, u, generates, final⟩ := bind_eq_ok.mp run
    obtain ⟨rfl, rfl, room⟩ := (generatedPair_iff (by simp) isFixed.isDecimal).mp generates
    obtain ⟨rfl, rfl⟩ := Prod.mk.inj (Except.ok.inj final)
    -- neither the pair nor the condition looks at the time
    have generates' : generatedPair stream (IdForm.millisecond ms).text (v.clock 0) v.tick =
        .ok ((IdForm.millisecond ms).pair stream (w.clock 0), v.tick) :=
      (generatedPair_iff (by simp) isFixed.isDecimal).mpr ⟨rfl, rfl, room⟩
    rw [bind_of_ok generates']
    exact ⟨v.tick, rfl, mirrors.of_same rfl rfl rfl rfl rfl⟩

instance imitates_scanned (value : Option Int) : Imitates Mirrors (scanned value : M D Int) (scanned value) := by
  unfold scanned
  cases value with
  | none => exact imitates_indeterminateInt
  | some value => exact imitates_pure value

instance imitates_scanId (id : Bytes) : Imitates Mirrors (scanId id : M D (Int × Int)) (scanId id) := by
  unfold scanId
  infer_instance

instance imitates_checkStreamId (id : Bytes) (tail : Option StreamEntry) :
    Imitates Mirrors (checkStreamId id tail : M D (Option Bytes)) (checkStreamId id tail) := by
  have texts (text : Option Bytes) : Imitates Mirrors (scannedText text : M D Bytes) (scannedText text) := by
    unfold scannedText
    cases text with
    | none => infer_instance
    | some text => exact imitates_pure text
  unfold checkStreamId
  cases tail with
  | none => exact imitates_pure none
  | some last =>
    dsimp only
    unfold validateStreamId isBigger
    obtain ⟨requestIdMs, requestIdSeq⟩ := scanPair id
    cases requestIdMs with
    | none => infer_instance
    | some requestIdMs =>
      cases requestIdSeq with
      | none => infer_instance
      | some requestIdSeq => infer_instance

theorem imitates_linkEntry (fixedId : ∀ id ∈ req.args[1]?, FixedId id) :
    Imitates Mirrors (linkEntry req : M D (Except Bytes Bytes)) (linkEntry req) := by
  unfold linkEntry
  refine .bind inferInstance fun key => .bind (imitates_withPayload asStream_casts inferInstance inferInstance) fun stream => ?_
  cases isId : req.args[1]? with
  | none =>
    have missing : (req.arg 1 : M D Bytes) = fault .missingArg := by
      unfold RespRequest.arg
      rw [isId]
    rw [missing]
    constructor
    intro w v a w' mirrors run
    obtain ⟨_, _, faulty, _⟩ := bind_eq_ok.mp run
    cases faulty
  | some id =>
    have given : (req.arg 1 : M D Bytes) = pure id := by
      unfold RespRequest.arg
      rw [isId]
    rw [given, pure_bind]
    refine .bind inferInstance fun errorMsg => ?_
    cases errorMsg with
    | some errorResp => exact imitates_pure _
    | none =>
      refine .bind (imitates_chooseId (fixedId id isId) stream) fun entryId => .bind inferInstance fun pair => ?_
      unfold appendEntry fault
      infer_instance

theorem wakeStreamReaders_alone {w : World D} {key : Bytes} (alone : ∀ slot, w.clients slot = none)
    (slots : List ClientSlot) : forM slots (wakeStreamReader key) w = .ok ((), w) := by
  induction slots with
  | nil => rfl
  | cons slot slots inductionHypothesis =>
    have looks : clientAt slot w = .ok (none, w) := by
      unfold clientAt
      rw [bind_of_ok (observe_run _ w), alone slot]
      rfl
    have wakes : wakeStreamReader key slot w = .ok ((), w) := by
      unfold wakeStreamReader
      rw [bind_of_ok looks]
      rfl
    rw [List.forM_cons, bind_of_ok wakes]
    exact inductionHypothesis

theorem outlasts_answerXadd (key : Bytes) (linked : Except Bytes Bytes) :
    Outlasts Mirrors AllEnd (answerXadd fd key linked : M D Unit) (answerXadd fd' key linked) := by
  cases linked with
  | error errorResp => exact allEnd_of_imitates (imitates_sendUnlessMaster _ _ _)
  | ok entryId =>
    intro w v _ w' mirrors _
    obtain ⟨_, _, sends⟩ := sendEntryId_ends fd' entryId v
    obtain ⟨reply, fresh, isSent, _⟩ := sendEntryId_sent sends
    rw [answerXadd, bind_of_ok sends, isSent]
    exact ⟨(), _, wakeStreamReaders_alone (w := { v with sent := v.sent ++ reply, fresh }) mirrors.alone clientSlots,
      mirrors.ends⟩

theorem outlasts_handleXadd (fixedId : ∀ id ∈ req.args[1]?, FixedId id) :
    Outlasts Mirrors AllEnd (handleSet req .stream fd : M D Unit) (handleSet req .stream fd') := by
  intro w v _ w' mirrors run
  by_cases few : req.argc < 2
  · refine ⟨(), v, ?_, mirrors.ends⟩
    unfold handleSet
    rw [if_pos few]
    rfl
  · obtain ⟨key, isKey⟩ : ∃ key, req.args[0]? = some key := arg_isSome (by omega)
    rw [handleXadd_eq (by omega) isKey] at run
    rw [handleXadd_eq (by omega) isKey]
    exact Imitates.bind_outlasts (imitates_linkEntry fixedId) (outlasts_answerXadd key) w v _ w' mirrors run

end Handlers

/-! ## The arms -/

section Arms

variable [Externals D] {req req' : RespRequest} {ptr ptr' : ClientPtr} {client client' : Client} {w v t : World D}

/-- A write command that is logged under a name that is read back. -/
theorem arm_outlasts (ptr' : ClientPtr) (client' : Client) (isWrite : isWriteCmd req.command = true)
    (fixedId : req.command = .xadd → ∀ id ∈ req.args[1]?, FixedId id) :
    Outlasts Mirrors AllEnd (arm req ptr client : M D Unit) (arm req ptr' client') := by
  unfold arm
  cases command : req.command with
  | set => exact allEnd_of_imitates imitates_handleSet
  | incr => exact allEnd_of_imitates imitates_handleIncr
  | lpush => exact allEnd_of_imitates imitates_handleLpush
  | rpush => exact outlasts_handleRpush
  | lpop => exact allEnd_of_imitates imitates_handleLpop
  | xadd => exact outlasts_handleXadd (fixedId command)
  | del | append | expire | decr | rpop | hset | hdel | sadd | srem => exact allEnd_of_imitates (imitates_pure ())
  | _ => simp [command, isWriteCmd] at isWrite

omit [Externals D] in
theorem notifyWatchers_unwatched {key : Bytes} {bucket : Bucket} (inBucket : bucketOf key = some bucket)
    (unwatched : ∀ bucket, w.watchers bucket = none) : notifyWatchers key w = .ok ((), w) := by
  unfold notifyWatchers watchersOf
  rw [bind_assoc, bind_of_ok (tableIndex_of_bucket inBucket w), bind_assoc, bind_of_ok (observe_run _ w), unwatched bucket]
  rfl

/-- The file can be written to: its name is short enough for the array that it is copied into. -/
def Writable (files : Files) : Prop :=
  ∃ manifest, files.manifest = some manifest ∧ ∀ name ∈ activeAofName manifest, name.length < 256

omit [Externals D] in
theorem writeToFile_total (writable : Writable w.files) (req : RespRequest) :
    ∃ t, writeToFile req w = .ok ((), t) := by
  obtain ⟨manifest, isManifest, short⟩ := writable
  unfold writeToFile
  rw [bind_of_ok (show config w = .ok (w.serverConfig, w) from rfl), bind_of_ok (toUpperCopy_run _ w)]
  split
  · exact ⟨_, rfl⟩
  · rw [bind_of_ok (observe_run _ _)]
    have here : w.takeFresh.files.manifest = some manifest := isManifest
    simp only [here]
    have records : ∃ u, recordActiveName manifest (w.takeFresh) = .ok ((), u) := by
      unfold recordActiveName
      cases isName : activeAofName manifest with
      | none => exact ⟨_, rfl⟩
      | some name =>
        dsimp only
        rw [if_neg (by have := short name isName; omega)]
        exact ⟨_, rfl⟩
    obtain ⟨u, records⟩ := records
    rw [bind_of_ok records]
    exact ⟨_, rfl⟩

/-- Nothing of a write command looks behind its arguments. -/
theorem arm_same (isWrite : isWriteCmd req.command = true) (same : SameRequest req req') :
    (arm req' ptr client : M D Unit) = arm req ptr client := by
  obtain ⟨cmd, args, argc, unused, supplied⟩ := req
  obtain ⟨cmd', args', argc', unused', supplied'⟩ := req'
  obtain ⟨rfl, rfl, rfl⟩ := same
  dsimp only at isWrite
  cases cmd' with
  | set | incr | lpush | rpush | lpop | xadd | del | append | expire | decr | rpop | hset | hdel | sadd | srem => rfl
  | _ => simp [isWriteCmd] at isWrite

/-- A write command that ended ends again, for another client, with the contents that it found. -/
theorem dispatch_again (isWrite : isWriteCmd req.command = true) (notified : notifies req.command = true)
    (fixedId : req.command = .xadd → ∀ id ∈ req.args[1]?, FixedId id) (found : w.heap ptr = some client)
    (run : dispatch req ptr w = .ok ((), t)) (mirrors : Mirrors w v)
    (unwatched : ∀ bucket, v.watchers bucket = none) (writable : Writable v.files) (found' : v.heap ptr' = some client')
    (same : SameRequest req req') : ∃ u, dispatch req' ptr' v = .ok ((), u) ∧ AllEnd u := by
  obtain ⟨sender, handled, marked, foundAgain, arms, notify, _⟩ := dispatch_parts run
  obtain rfl : client = sender := Option.some.inj (found.symm.trans foundAgain)
  have noted : Mirrors (w.noted req) (v.noted req') := mirrors.of_same rfl rfl rfl rfl rfl
  obtain ⟨_, u, arms', ends⟩ := arm_outlasts ptr' client' isWrite fixedId _ _ _ _ noted arms
  -- the key that was there to be notified
  obtain ⟨key, isKey, bucket, inBucket⟩ : ∃ key, req.args[0]? = some key ∧ ∃ bucket, bucketOf key = some bucket := by
    rw [onlyIf, if_pos notified] at notify
    obtain ⟨key, read, reads, notifies⟩ := bind_eq_ok.mp notify
    obtain ⟨bucket, inBucket, _⟩ := notifyWatchers_run notifies
    exact ⟨key, (arg_ok.mp reads).1, bucket, inBucket⟩
  obtain ⟨command, argc, args⟩ := id same
  have kept := kept_arm arms'
  have notify' : onlyIf (notifies req'.command) (notifyFirst req') u = .ok ((), u) := by
    rw [command, onlyIf, if_pos notified, notifyFirst, bind_of_ok (arg_ok.mpr ⟨by rw [args, isKey], rfl⟩)]
    exact notifyWatchers_unwatched inBucket fun bucket => (congrFun kept.watchers bucket).trans (unwatched bucket)
  have writes : ∃ t, onlyIf (logs req'.command) (writeToFile req') u = .ok ((), t) := by
    unfold onlyIf
    split
    · exact writeToFile_total ((kept.files id).symm ▸ writable) req'
    · exact ⟨u, rfl⟩
  obtain ⟨t', writes⟩ := writes
  refine ⟨t', ?_, fun bucket => (congrFun (table_afterArm notify' writes) bucket).symm ▸ ends bucket⟩
  rw [dispatch_eq, bind_of_ok (loadClient_found found'),
    bind_of_ok (show noteExecuted req' v = .ok ((), v.noted req') from rfl), arm_same isWrite same, bind_of_ok arms',
    bind_of_ok notify', writes]

end Arms

end RedisClone
