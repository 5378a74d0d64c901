import RedisClone.Lib.Endings
import RedisClone.Verified.Authentication
import RedisClone.Verified.LoadedStreams
import RedisClone.Verified.StringValues

/-! # Arms that come to an end

A handler ends where the arguments that it reads are there, the walk for its key ends, and the value of the key is one of
the type that it casts it to.  The parts that end from every state are instances of `Total`; every handler has a theorem
with the condition of its own.
-/

namespace RedisClone

open Exec CString

variable {D : Type} {w t : World D} {req : RespRequest} {ptr : ClientPtr} {client : Client} {fd : Int} {key : Bytes}

/-! ## Parts that always end -/

section Parts

instance total_send (fd : Int) (bytes : Bytes) : Total (send fd bytes : M D Unit) := total_alter _

instance total_sendText (size : Nat) (fd : Int) (text : Bytes) : Total (sendText size fd text : M D Unit) := total_send _ _

instance total_config : Total (config : M D RedisConfig) := total_observe _

instance total_setConfig (f : RedisConfig → RedisConfig) : Total (setConfig f : M D Unit) := total_alter _

instance total_getCurrentTimeMs : Total (getCurrentTimeMs : M D Int) := total_draw _ _

instance total_indeterminate : Total (indeterminate : M D Bytes) := total_draw _ _

instance total_indeterminateInt : Total (indeterminateInt : M D Int) := total_map _

instance total_toUpperCopy (s : Bytes) : Total (toUpperCopy s : M D Bytes) := by
  unfold toUpperCopy
  infer_instance

instance total_sendUnlessMaster (fd : Int) (bytes : Bytes) : Total (sendUnlessMaster fd bytes : M D Unit) := by
  unfold sendUnlessMaster
  infer_instance

instance total_expiryOf (flag : TimeFlags) (seconds : Int) : Total (expiryOf flag seconds : M D Int) := by
  unfold expiryOf
  cases flag <;> infer_instance

instance total_handlePing (client : Client) : Total (handlePing client : M D Unit) := by
  unfold handlePing
  infer_instance

theorem total_updateEntry (indexed : bucketOf key ≠ none) (value : Value D) : Total (updateEntry key value : M D Unit) := by
  obtain ⟨bucket, inBucket⟩ := Option.ne_none_iff_exists'.mp indexed
  exact ⟨fun w => .of_ok (updateEntry_run inBucket value w)⟩

theorem total_storeSetContainer (indexed : bucketOf key ≠ none) (value : Value D) :
    Total (storeSetContainer key value : M D Unit) := by
  obtain ⟨bucket, inBucket⟩ := Option.ne_none_iff_exists'.mp indexed
  refine ⟨fun w => ?_⟩
  obtain ⟨t, run, _⟩ := storeSetContainer_run inBucket value w
  exact .of_ok run

end Parts

/-! ## What a handler reads -/

section Reading

variable {α β : Type}

theorem ends_arg {i : Nat} {value : Bytes} {f : Bytes → M D α} (isArg : req.args[i]? = some value)
    (rest : Ends (f value) w) : Ends (req.arg i >>= f) w :=
  .after (arg_ok.mpr ⟨isArg, rfl⟩) rest

/-- An argument that the test of `argc` has seen. -/
theorem ends_given {i : Nat} {f : Bytes → M D α} (given : (i : Int) < req.argc)
    (rest : ∀ value, req.args[i]? = some value → Ends (f value) w) : Ends (req.arg i >>= f) w := by
  obtain ⟨value, isArg⟩ := arg_isSome given
  exact ends_arg isArg (rest value isArg)

theorem ends_loadClient {f : Client → M D α} (found : w.heap ptr = some client) (rest : Ends (f client) w) :
    Ends (loadClient ptr >>= f) w :=
  .after (loadClient_found found) rest

theorem ends_updateClient {f : Client → Client} (found : w.heap ptr = some client) :
    Ends (updateClient ptr f : M D Unit) w :=
  .of_ok (updateClient_found found)

/-- `printf` prints an argument that is there, and NULL. -/
def Printable (req : RespRequest) (i : Nat) : Prop := i < req.args.length ∨ req.unused = .null

theorem printArg_printable {i : Nat} (printable : Printable req i) (w : World D) : req.printArg i w = .ok ((), w) := by
  unfold RespRequest.printArg
  obtain inside | isNull := printable
  · rw [List.getElem?_eq_getElem inside]
    rfl
  · rw [isNull]
    cases req.args[i]? <;> rfl

/-- The walk for the key ends, and a value that it finds is of the kind. -/
def Finds (table : Table D) (key : Bytes) (kind : Value D → Prop) : Prop :=
  ∃ found, lookup table key = .ok found ∧ ∀ entry ∈ found, kind entry.value

/-- The first argument is there, and is a key whose value is of the kind. -/
def FindsFirst (w : World D) (req : RespRequest) (kind : Value D → Prop) : Prop :=
  ∃ key, req.args[0]? = some key ∧ Finds w.table key kind

def IsString (value : Value D) : Prop := ∃ text, value = .string text

def IsList (value : Value D) : Prop := ∃ values, value = .list values

def IsZSet (value : Value D) : Prop := ∃ set, value = .zset set

/-- A sorted set whose `length` is the number of its nodes. -/
def IsCounted (value : Value D) : Prop := ∃ set, value = .zset set ∧ set.length = set.entries.length

theorem indexed_of_lookup {table : Table D} {entry : Option (Entry D)} (found : lookup table key = .ok entry) :
    bucketOf key ≠ none := by
  intro outside
  simp [lookup, outside] at found

theorem Finds.indexed {table : Table D} {kind : Value D → Prop} (finds : Finds table key kind) : bucketOf key ≠ none := by
  obtain ⟨_, found, _⟩ := finds
  exact indexed_of_lookup found

theorem Finds.mono {table : Table D} {kind kind' : Value D → Prop} (finds : Finds table key kind)
    (weaker : ∀ value, kind value → kind' value) : Finds table key kind' := by
  obtain ⟨entry, found, isKind⟩ := finds
  exact ⟨entry, found, fun entry member => weaker entry.value (isKind entry member)⟩

theorem ends_storeGetEntry {f : Option (Entry D) → M D α} {kind : Value D → Prop} (finds : Finds w.table key kind)
    (rest : ∀ entry, lookup w.table key = .ok entry → (∀ found ∈ entry, kind found.value) → Ends (f entry) w) :
    Ends (storeGetEntry key >>= f) w := by
  obtain ⟨entry, found, isKind⟩ := finds
  exact .after (by rw [storeGetEntry_run, found]) (rest entry found isKind)

theorem ends_withPayload {cast : Value D → M D α} {missing : M D β} {found : α → M D β} {kind : Value D → Prop}
    (finds : Finds w.table key kind) (whenMissing : lookup w.table key = .ok none → Ends missing w)
    (whenFound : ∀ value expiresAt, lookup w.table key = .ok (some ⟨value, expiresAt⟩) → kind value →
      Ends (cast value >>= found) w) : Ends (withPayload key cast missing found) w := by
  unfold withPayload
  refine ends_storeGetEntry finds fun entry bound isKind => ?_
  cases entry with
  | none => exact whenMissing bound
  | some entry => exact whenFound entry.value entry.expiresAt bound (isKind entry rfl)

theorem ends_withList {missing : M D β} {found : List Bytes → M D β} (finds : Finds w.table key IsList)
    (whenMissing : lookup w.table key = .ok none → Ends missing w)
    (whenFound : ∀ values expiresAt, lookup w.table key = .ok (some ⟨.list values, expiresAt⟩) → Ends (found values) w) :
    Ends (withPayload key asList missing found) w := by
  refine ends_withPayload finds whenMissing fun value expiresAt bound isList => ?_
  obtain ⟨values, rfl⟩ := isList
  exact .after (show asList (.list values) w = .ok (values, w) from rfl) (whenFound values expiresAt bound)

theorem ends_withZSet {missing : M D β} {found : ZSet D → M D β} (finds : Finds w.table key IsZSet)
    (whenMissing : lookup w.table key = .ok none → Ends missing w)
    (whenFound : ∀ set expiresAt, lookup w.table key = .ok (some ⟨.zset set, expiresAt⟩) → Ends (found set) w) :
    Ends (withPayload key asZSet missing found) w := by
  refine ends_withPayload finds whenMissing fun value expiresAt bound isZSet => ?_
  obtain ⟨set, rfl⟩ := isZSet
  exact .after (show asZSet (.zset set) w = .ok (set, w) from rfl) (whenFound set expiresAt bound)

theorem ends_withCounted {missing : M D β} {found : ZSet D → M D β} (finds : Finds w.table key IsCounted)
    (whenMissing : lookup w.table key = .ok none → Ends missing w)
    (whenFound : ∀ set expiresAt, lookup w.table key = .ok (some ⟨.zset set, expiresAt⟩) →
      set.length = set.entries.length → Ends (found set) w) : Ends (withPayload key asZSet missing found) w := by
  refine ends_withPayload finds whenMissing fun value expiresAt bound isCounted => ?_
  obtain ⟨set, rfl, counted⟩ := isCounted
  exact .after (show asZSet (.zset set) w = .ok (set, w) from rfl) (whenFound set expiresAt bound counted)

/-- A text that fits the array is sent from it. -/
theorem ends_sendPrefix {size : Nat} {buffer : Buffer} (fits : buffer.offset ≤ size) :
    Ends (buffer.sendPrefix size fd : M D Unit) w := by
  unfold Buffer.sendPrefix
  rw [if_neg (by omega)]
  exact Total.ends _

end Reading

/-! ## Clients -/

section Clients

/-- Every slot in use names a client that is allocated. -/
def World.Allocated (w : World D) : Prop := ∀ slot ptr, w.clients slot = some ptr → w.heap ptr ≠ none

theorem World.Allocated.of_same (allocated : w.Allocated) (clients : t.clients = w.clients) (heap : t.heap = w.heap) :
    t.Allocated := by
  unfold World.Allocated
  rw [clients, heap]
  exact allocated

variable {α : Type} {slot : ClientSlot}

theorem ends_clientAt {f : Option (ClientPtr × Client) → M D α} (allocated : w.Allocated)
    (whenFree : Ends (f none) w)
    (whenUsed : ∀ ptr client, w.clients slot = some ptr → w.heap ptr = some client → Ends (f (some (ptr, client))) w) :
    Ends (clientAt slot >>= f) w := by
  obtain ⟨occupant, looks⟩ := clientAt_of_allocated allocated slot
  refine .after looks ?_
  obtain ⟨_, inSlot, found⟩ := clientAt_run looks
  cases occupant with
  | none => exact whenFree
  | some occupant => exact whenUsed occupant.1 occupant.2 inSlot (found occupant.1 occupant.2 rfl)

theorem longestWaiter_ends {slots : List ClientSlot} {longest : Option ClientPtr} {biggest : Int}
    (allocated : w.Allocated) : Ends (longestWaiter key slots longest biggest) w := by
  induction slots generalizing longest biggest w with
  | nil => exact ⟨longest, w, rfl⟩
  | cons slot slots inductionHypothesis =>
    unfold longestWaiter
    refine ends_clientAt allocated (inductionHypothesis allocated) fun ptr client _ _ => .ite (fun _ => ?_) fun _ => ?_
    · -- the clock is read once for every waiter of the key
      refine .after (show getCurrentTimeMs w = .ok (w.clock 0, w.tick) from rfl) (.ite (fun _ => ?_) fun _ => ?_)
      · exact inductionHypothesis allocated
      · exact inductionHypothesis allocated
    · exact inductionHypothesis allocated

theorem countReplicas_ends {slots : List ClientSlot} {count : Nat} (allocated : w.Allocated) :
    Ends (countReplicas slots count) w := by
  induction slots generalizing count with
  | nil => exact ⟨count, w, rfl⟩
  | cons slot slots inductionHypothesis =>
    unfold countReplicas
    refine ends_clientAt allocated inductionHypothesis fun ptr client _ _ => ?_
    exact .after (show config w = .ok (w.serverConfig, w) from rfl)
      (.ite (fun _ => inductionHypothesis) fun _ => inductionHypothesis)

theorem askReplica_ends (allocated : w.Allocated) : Ends (askReplica slot) w := by
  unfold askReplica
  exact ends_clientAt allocated (Total.ends _) fun ptr client _ _ => Total.ends _

theorem forM_askReplica_ends {slots : List ClientSlot} (allocated : w.Allocated) : Ends (forM slots askReplica) w := by
  refine .forM allocated (fun slot _ u holds => askReplica_ends holds) fun slot _ u v holds run => ?_
  have one : forM [slot] askReplica u = .ok ((), v) := by
    rw [List.forM_cons]
    exact (bind_of_ok run).trans rfl
  rw [forM_askReplica_ok one]
  exact holds

/-- The deadline of a wait fits a `long long`. -/
def World.WaitFits (w : World D) (ms : Int) : Prop := ms = 0 ∨ -2 ^ 63 ≤ w.clock 0 + ms ∧ w.clock 0 + ms < 2 ^ 63

theorem timeoutAfter_fits {ms : Int} (fits : w.WaitFits ms) :
    ∃ timeoutAt t, timeoutAfter ms w = .ok (timeoutAt, t) ∧ t.heap = w.heap := by
  unfold timeoutAfter
  split
  · exact ⟨_, _, rfl, rfl⟩
  · rename_i positive
    rw [bind_of_ok (show getCurrentTimeMs w = .ok (w.clock 0, w.tick) from rfl),
      if_neg (by obtain isZero | ⟨low, high⟩ := fits <;> omega)]
    exact ⟨_, _, rfl, rfl⟩

theorem markWaiting_ends {slots : List ClientSlot} {ms : Int} (allocated : w.Allocated) (fits : w.WaitFits ms) :
    Ends (markWaiting fd ms slots) w := by
  induction slots with
  | nil => exact ⟨(), w, rfl⟩
  | cons slot slots inductionHypothesis =>
    unfold markWaiting
    refine ends_clientAt allocated inductionHypothesis fun ptr client _ found => ?_
    refine .ite (fun _ => ?_) fun _ => inductionHypothesis
    obtain ⟨timeoutAt, t, run, heap⟩ := timeoutAfter_fits fits
    exact .after run (ends_updateClient (heap ▸ found))

end Clients

/-! ## Simple arms -/

section Simple

theorem ends_handleEcho (given : 1 ≤ req.argc) : Ends (handleEcho req fd) w := by
  unfold handleEcho
  exact ends_given (by omega) fun word _ => Total.ends _

theorem ends_handleInfo : Ends (handleInfo req fd) w := by
  unfold handleInfo
  refine .ite (fun _ => Total.ends _) fun enough => ends_given (by omega) fun part _ => .ite (fun _ => ?_) fun _ => ?_
  · exact .rest fun _ _ _ => Total.ends _
  · exact Total.ends _

theorem ends_handleReplconf (printable : Printable req 0) (found : w.heap ptr = some client) :
    Ends (handleReplconfRequest req ptr client) w := by
  unfold handleReplconfRequest
  refine .after (printArg_printable printable w) (.ite (fun _ => Total.ends _) fun enough => ?_)
  refine ends_given (by omega) fun subCmd _ => .ite (fun _ => ?_) fun _ => .ite (fun _ => ?_) fun _ => Total.ends _
  · unfold replconfHandleGetack
    exact .rest fun _ _ _ => Total.ends _
  · unfold replconfHandleAck
    refine .ite (fun _ => Total.ends _) fun several => ends_given (by omega) fun offset _ => ?_
    exact ends_updateClient found

theorem ends_handleConfig (given : 1 ≤ req.argc) : Ends (handleConfig req fd) w := by
  unfold handleConfig
  refine .ite (fun _ => Total.ends _) fun _ => ends_given (by omega) fun parameter _ => .rest fun server _ _ => ?_
  split
  · exact Total.ends _
  · exact Total.ends _

theorem ends_handleKey (follows : ∀ bucket, (w.table bucket).wild = false)
    (fits : (arrayText ((tableKeys w.table).take 256)).length < 8192) : Ends (handleKey fd) w := by
  unfold handleKey
  refine .after (keysOf_all.mpr ⟨follows, rfl, rfl⟩) ?_
  have room : ([] ++ (arrayHeader ((tableKeys w.table).take 256).length ::
      ((tableKeys w.table).take 256).map bulk).flatten).length < 8192 := fits
  exact .after (appendAll_fits _ room w) (ends_sendPrefix room.le)

variable [Externals D]

theorem ends_handleAuth (found : w.heap ptr = some client) : Ends (handleAuth req ptr) w := by
  unfold handleAuth
  refine .ite (fun _ => Total.ends _) fun enough => ends_given (by omega) fun input _ => ?_
  refine .after (observe_run _ w) (ends_loadClient found (.ite (fun _ => ?_) fun _ => Total.ends _))
  exact .after (updateClient_found found) (Total.ends _)

theorem ends_handleSetuser (found : w.heap ptr = some client) : Ends (handleSetuser req ptr) w := by
  unfold handleSetuser
  refine ends_loadClient found (.ite (fun _ => Total.ends _) fun enough => ends_given (by omega) fun rule _ => ?_)
  refine .ite (fun _ => Total.ends _) fun _ => .after (alter_run _ w) (ends_given (by omega) fun user _ => ?_)
  exact Total.ends _

theorem ends_handleAcl (given : 1 ≤ req.argc) (found : w.heap ptr = some client)
    (named : ∀ subCmd ∈ req.args[0]?, upper subCmd = lit "GETUSER" → 2 ≤ req.argc) : Ends (handleAcl req ptr) w := by
  unfold handleAcl
  refine ends_given (by omega) fun subCmd isSubCmd => ends_loadClient found ?_
  refine .ite (fun _ => ?_) fun _ => .ite (fun isGetuser => ?_) fun _ => .ite (fun _ => ?_) fun _ => Total.ends _
  · exact .rest fun _ _ _ => Total.ends _
  · have enough := named subCmd isSubCmd isGetuser
    unfold handleGetuser
    refine ends_given (by omega) fun user _ => ends_loadClient found (.ite (fun _ => .rest fun _ _ _ => ?_) fun _ => ?_)
    · exact .ite (fun _ => Total.ends _) fun _ => .rest fun _ _ _ => Total.ends _
    · exact Total.ends _
  · refine .bind (ends_handleSetuser found) fun _ set sets => ?_
    -- SETUSER leaves the clients as they are
    have same : set.heap = w.heap := by cases handleSetuser_effect found sets <;> rfl
    exact ends_updateClient (same ▸ found)

end Simple

/-! ## Strings -/

section Strings

/-- GET finds no value of another type than a string that is still alive. -/
def GetReads (w : World D) (req : RespRequest) : Prop :=
  ∃ key, req.args[0]? = some key ∧ ∃ found, lookup w.table key = .ok found ∧
    ∀ entry ∈ found, Live w entry → IsString entry.value

theorem ends_handleGet (reads : GetReads w req) : Ends (handleGet req fd) w := by
  obtain ⟨key, isKey, found, bound, isString⟩ := reads
  unfold handleGet
  refine ends_arg isKey ?_
  have walk : storeGetEntry key w = .ok (found, w) := by rw [storeGetEntry_run, bound]
  cases found with
  | none =>
    have nothing : storeGet key w = .ok (none, w) := by
      unfold storeGet
      rw [bind_of_ok walk]
      rfl
    exact .after nothing (Total.ends _)
  | some entry =>
    by_cases live : Live w entry
    · obtain ⟨t, reads, _⟩ := storeGet_live bound live
      obtain ⟨text, isText⟩ := isString entry rfl live
      refine .after reads ?_
      dsimp only
      rw [isText]
      exact .after (show asString (.string text) t = .ok (text, t) from rfl) (Total.ends _)
    · -- behind its deadline a value is not looked at, whatever its type is
      have hidden : storeGet key w = .ok (none, w.tick) := by
        obtain ⟨timed, passed⟩ := not_or.mp live
        unfold storeGet
        rw [bind_of_ok walk]
        dsimp only
        rw [if_pos timed, bind_of_ok (show getCurrentTimeMs w = .ok (w.clock 0, w.tick) from rfl), if_pos (by omega)]
        rfl
      exact .after hidden (Total.ends _)

theorem ends_handleType (finds : FindsFirst w req fun _ => True) : Ends (handleType req fd) w := by
  obtain ⟨key, isKey, finds⟩ := finds
  unfold handleType
  refine ends_arg isKey (ends_storeGetEntry finds fun entry _ _ => ?_)
  cases entry with
  | none => exact Total.ends _
  | some entry => exact Total.ends _

/-- INCR finds a text that it can take one higher, or that is no number, and does not overflow on the name of the key. -/
def IncrReads (w : World D) (req : RespRequest) : Prop :=
  ∃ key, req.args[0]? = some key ∧ Finds w.table key fun value =>
    atoi key ≠ 2 ^ 31 - 1 ∧ ∃ text, value = .string text ∧ atoi text ≠ 2 ^ 31 - 1

theorem ends_storeSet {kind : Value D → Prop} (finds : Finds w.table key kind) (value : Value D) (flag : TimeFlags)
    (seconds : Int) : Ends (storeSet key value flag seconds) w := by
  obtain ⟨_, found, _⟩ := finds
  obtain ⟨t, run⟩ := storeSet_total found value flag seconds
  exact .of_ok run

theorem ends_handleIncr (reads : IncrReads w req) : Ends (handleIncr req fd) w := by
  obtain ⟨key, isKey, finds⟩ := reads
  unfold handleIncr
  refine ends_arg isKey (ends_storeGetEntry finds fun entry _ isKind => ?_)
  cases entry with
  | none => exact (ends_storeSet finds _ _ _).bind fun _ _ _ => Total.ends _
  | some entry =>
    obtain ⟨printed, text, isText, below⟩ := isKind entry rfl
    dsimp only
    -- the handler prints the number in the name of the key, one higher, before it looks at the value
    rw [if_neg printed, isText]
    refine .after (show asString (.string text) w = .ok (text, w) from rfl) ?_
    refine .ite (fun _ => Total.ends _) fun _ => ?_
    rw [if_neg below]
    exact (ends_storeSet finds _ _ _).bind fun _ _ _ => Total.ends _

theorem ends_handleSet (enough : 2 ≤ req.argc) (finds : FindsFirst w req fun _ => True) :
    Ends (handleSet req .string fd) w := by
  obtain ⟨key, isKey, finds⟩ := finds
  unfold handleSet
  rw [if_neg (by omega)]
  refine ends_arg isKey (ends_given (by omega) fun value _ => ?_)
  exact (ends_storeSet finds _ _ _).bind fun _ _ _ => Total.ends _

end Strings

/-! ## Lists -/

section Lists

theorem ends_openList (finds : Finds w.table key IsList) : Ends (openList key) w := by
  have creates := total_storeSetContainer (D := D) finds.indexed (.list [])
  unfold openList storeSetList
  exact ends_withList finds (fun _ => Total.ends _) fun values _ _ => Total.ends _

theorem ends_handleLpush (finds : 2 ≤ req.argc → FindsFirst w req IsList) : Ends (handleLpush req fd) w := by
  unfold handleLpush
  refine .ite (fun _ => Total.ends _) fun enough => ?_
  obtain ⟨key, isKey, finds⟩ := finds (by omega)
  have updates (value : Value D) := total_updateEntry finds.indexed value
  refine ends_arg isKey ((ends_openList finds).bind fun list _ _ => ?_)
  exact Total.ends _

theorem ends_serveWaiter {values : List Bytes} (nonempty : values ≠ []) (indexed : bucketOf key ≠ none)
    (found : w.heap ptr = some client) : Ends (serveWaiter key values ptr) w := by
  obtain ⟨first, rest, rfl⟩ := List.exists_cons_of_ne_nil nonempty
  obtain ⟨bucket, inBucket⟩ := Option.ne_none_iff_exists'.mp indexed
  unfold serveWaiter
  dsimp only [List.head?_cons]
  refine ends_loadClient found (.rest fun _ sent sends => ?_)
  obtain rfl := send_run sends
  exact .after (updateEntry_run inBucket _ _) (ends_updateClient found)

theorem ends_handleRpush (allocated : w.Allocated) (finds : 2 ≤ req.argc → FindsFirst w req IsList) :
    Ends (handleRpush req fd) w := by
  unfold handleRpush
  refine .ite (fun _ => Total.ends _) fun enough => ?_
  obtain ⟨key, isKey, finds⟩ := finds (by omega)
  obtain ⟨bucket, inBucket⟩ := Option.ne_none_iff_exists'.mp finds.indexed
  refine ends_arg isKey ((ends_openList finds).bind fun list opened opens => ?_)
  have same : SameServer w opened := Preserves.run _ _ _ opens
  refine .after (updateEntry_run inBucket _ _) (.rest fun _ sent sends => ?_)
  have allocatedSent : sent.Allocated := by
    rw [send_run sends]
    exact allocated.of_same same.clients same.heap
  refine (longestWaiter_ends allocatedSent).bind fun waiter scanned scans => ?_
  obtain ⟨isLongest, keeps⟩ := longestWaiter_ok scans
  cases waiter with
  | none => exact Total.ends _
  | some waiter =>
    obtain ⟨client, member⟩ := longestOf_mem isLongest.symm
    obtain ⟨slot, _, waits⟩ := List.mem_filterMap.mp member
    obtain ⟨_, found, _⟩ := waiterAt_eq_some.mp waits
    -- an element was pushed
    have pushed : list ++ req.args.drop 1 ≠ [] := by
      obtain ⟨value, isArg⟩ : ∃ value, req.args[1]? = some value := arg_isSome (by omega)
      refine List.append_ne_nil_of_right_ne_nil _ fun nothing => ?_
      rw [List.drop_eq_nil_iff] at nothing
      rw [List.getElem?_eq_none nothing] at isArg
      cases isArg
    exact ends_serveWaiter pushed finds.indexed (by rw [keeps]; exact found)

theorem ends_handleLlen (finds : 1 ≤ req.argc → FindsFirst w req IsList) : Ends (handleLlen req fd) w := by
  unfold handleLlen
  refine .ite (fun _ => Total.ends _) fun enough => ?_
  obtain ⟨key, isKey, finds⟩ := finds (by omega)
  exact ends_arg isKey (ends_withList finds (fun _ => Total.ends _) fun values _ _ => Total.ends _)

theorem ends_sendPopped {popped : List Bytes} (fits : (arrayText popped).length ≤ 2048) :
    Ends (sendPopped fd popped) w := by
  obtain ⟨text, run⟩ := sendPopped_iff.mpr fits
  exact .of_ok run

theorem ends_handleLpop (finds : FindsFirst w req IsList) (fits : LpopFits w req) : Ends (handleLpop req fd) w := by
  obtain ⟨key, isKey, finds⟩ := finds
  have updates (value : Value D) := total_updateEntry finds.indexed value
  unfold handleLpop
  refine .ite (fun _ => Total.ends _) fun enough => ends_arg isKey ?_
  refine ends_withList finds (fun _ => Total.ends _) fun values expiresAt bound => ?_
  obtain ⟨fitsCount, _⟩ := fits key isKey
  rw [elements_of_list (binding_of_lookup bound)] at fitsCount
  cases values with
  | nil => exact ⟨(), _, rfl⟩
  | cons first rest =>
    dsimp only [List.head?_cons]
    refine .ite (fun isCount => ends_given (by omega) fun count isArg => ?_) fun _ => Total.ends _
    refine .ite (fun _ => Total.ends _) fun _ => .ite (fun _ => Total.ends _) fun _ => ?_
    have short := fitsCount isCount count isArg
    rw [List.take_eq_take_min] at short
    exact (ends_sendPopped short.le).bind fun _ _ _ => Total.ends _

/-- Where the key is bound, no index is the least `int`, whose `abs` overflows. -/
def IndicesFit (w : World D) (req : RespRequest) : Prop :=
  ∀ key ∈ req.args[0]?, binding w.table key ≠ none →
    (∀ first ∈ req.args[1]?, atoi first ≠ -2 ^ 31) ∧ ∀ last ∈ req.args[2]?, atoi last ≠ -2 ^ 31

theorem ends_handleLrange (finds : FindsFirst w req IsList) (indices : IndicesFit w req) (fits : LrangeFits w req) :
    Ends (handleLrange req fd) w := by
  obtain ⟨key, isKey, finds⟩ := finds
  unfold handleLrange
  refine .ite (fun _ => Total.ends _) fun enough => ends_arg isKey ?_
  refine ends_withList finds (fun _ => Total.ends _) fun values expiresAt bound => ?_
  refine ends_given (by omega) fun first isFirst => ends_given (by omega) fun last isLast => ?_
  obtain ⟨firstFits, lastFits⟩ := indices key isKey (by rw [binding_of_lookup bound]; simp)
  have bounds : lrangeBounds values.length (atoi first) (atoi last) w = .ok (_, w) :=
    lrangeBounds_run (firstFits first isFirst) (lastFits last isLast) w
  have short := fits key first last (lrangeStart values.length (atoi first) (atoi last))
    (position values.length (atoi last)) isKey isFirst isLast
  rw [elements_of_list (binding_of_lookup bound)] at short
  obtain ⟨text, _, run⟩ := between_run (lrangeStart_nonneg _ _ _) (short bounds)
  exact .after bounds (.of_ok run)

theorem blpopDeadline_ends [Externals D] (sec : D) (w : World D) :
    ∃ timeoutAt t, blpopDeadline sec w = .ok (timeoutAt, t) ∧ t.heap = w.heap := by
  unfold blpopDeadline
  split
  · exact ⟨_, _, rfl, rfl⟩
  · exact ⟨_, _, rfl, rfl⟩

theorem ends_handleBlpop [Externals D] (found : w.heap ptr = some client)
    (finds : 2 ≤ req.argc → FindsFirst w req IsList) : Ends (handleBlpop req ptr) w := by
  unfold handleBlpop
  refine .ite (fun _ => Total.ends _) fun enough => ?_
  obtain ⟨key, isKey, finds⟩ := finds (by omega)
  have updates (value : Value D) := total_updateEntry finds.indexed value
  refine ends_arg isKey ?_
  have reads : ∃ values, (withPayload key asList (pure []) pure : M D (List Bytes)) w = .ok (values, w) := by
    obtain ⟨entry, bound, isList⟩ := finds
    rw [withPayload_run, bound]
    cases entry with
    | none => exact ⟨[], rfl⟩
    | some entry =>
      obtain ⟨values, isValues⟩ := isList entry rfl
      dsimp only
      rw [isValues]
      exact ⟨values, rfl⟩
  obtain ⟨values, reads⟩ := reads
  refine .after reads ?_
  split
  · exact ends_loadClient found (Total.ends _)
  · refine ends_given (by omega) fun sec _ => ?_
    obtain ⟨timeoutAt, timed, times, heap⟩ := blpopDeadline_ends (Externals.atof sec : D) w
    exact .after times (.after rfl (ends_updateClient (w := timed.tick) (heap ▸ found)))

end Lists

/-! ## Sorted sets -/

section SortedSets

variable [Externals D]

omit [Externals D] in
theorem IsCounted.isZSet {value : Value D} (isCounted : IsCounted value) : IsZSet value :=
  isCounted.imp fun _ both => both.1

omit [Externals D] in
theorem ends_openZSet (finds : Finds w.table key IsZSet) : Ends (openZSet key) w := by
  have creates := total_storeSetContainer (D := D) finds.indexed (.zset ⟨[], 0⟩)
  unfold openZSet storeSetZset
  exact ends_withZSet finds (fun _ => Total.ends _) fun set _ _ => Total.ends _

theorem ends_handleZadd (finds : 3 ≤ req.argc → (req.argc - 1).tmod 2 = 0 → FindsFirst w req IsZSet) :
    Ends (handleZadd (D := D) req fd) w := by
  unfold handleZadd
  refine .ite (fun _ => Total.ends _) fun enough => .ite (fun _ => Total.ends _) fun paired => ?_
  obtain ⟨key, isKey, finds⟩ := finds (by omega) (not_not.mp paired)
  have updates (value : Value D) := total_updateEntry finds.indexed value
  refine ends_arg isKey ((ends_openZSet finds).bind fun set _ _ => .ite (fun _ => ?_) fun _ => ?_)
  · exact Total.ends _
  · refine ends_given (by omega) fun score _ => ends_given (by omega) fun member _ => ?_
    exact Total.ends _

omit [Externals D] in
theorem ends_handleZrank (finds : 2 ≤ req.argc → FindsFirst w req IsZSet) : Ends (handleZrank (D := D) req fd) w := by
  unfold handleZrank
  refine .ite (fun _ => Total.ends _) fun enough => ?_
  obtain ⟨key, isKey, finds⟩ := finds (by omega)
  refine ends_arg isKey (ends_withZSet finds (fun _ => Total.ends _) fun set _ _ => ends_given (by omega) fun member _ => ?_)
  split
  · exact Total.ends _
  · exact Total.ends _

omit [Externals D] in
theorem ends_handleZcard (finds : 1 ≤ req.argc → FindsFirst w req IsZSet) : Ends (handleZcard (D := D) req fd) w := by
  unfold handleZcard
  refine .ite (fun _ => Total.ends _) fun enough => ?_
  obtain ⟨key, isKey, finds⟩ := finds (by omega)
  exact ends_arg isKey (ends_withZSet finds (fun _ => Total.ends _) fun set _ _ => Total.ends _)

omit [Externals D] in
theorem ends_handleZrem (finds : 2 ≤ req.argc → FindsFirst w req IsZSet) : Ends (handleZrem (D := D) req fd) w := by
  unfold handleZrem
  refine .ite (fun _ => Total.ends _) fun enough => ?_
  obtain ⟨key, isKey, finds⟩ := finds (by omega)
  have updates (value : Value D) := total_updateEntry finds.indexed value
  exact ends_arg isKey (ends_withZSet finds (fun _ => Total.ends _) fun set _ _ => Total.ends _)

theorem ends_handleZscore (finds : 2 ≤ req.argc → FindsFirst w req IsCounted) :
    Ends (handleZscore (D := D) req fd) w := by
  unfold handleZscore
  refine .ite (fun _ => Total.ends _) fun enough => ?_
  obtain ⟨key, isKey, finds⟩ := finds (by omega)
  refine ends_arg isKey (ends_withCounted finds (fun _ => Total.ends _) fun set _ _ counted => ?_)
  refine ends_given (by omega) fun member _ => ?_
  split
  · exact Total.ends _
  · rw [if_neg (by omega)]
    exact Total.ends _

omit [Externals D] in
theorem ends_handleZrange (finds : 3 ≤ req.argc → FindsFirst w req IsCounted) (fits : ZrangeFits w req) :
    Ends (handleZrange (D := D) req fd) w := by
  unfold handleZrange
  refine .ite (fun _ => Total.ends _) fun enough => ?_
  obtain ⟨key, isKey, finds⟩ := finds (by omega)
  refine ends_arg isKey (ends_withCounted finds (fun _ => Total.ends _) fun set expiresAt bound counted => ?_)
  refine ends_given (by omega) fun first isFirst => ends_given (by omega) fun last isLast => ?_
  have short := fits key first last set expiresAt isKey isFirst isLast (binding_of_lookup bound)
  have inside := zrangeBounds_inside _ (rfl : zrangeBounds set.length (atoi first) (atoi last) = _)
  dsimp only at short ⊢
  generalize zrangeBounds set.length (atoi first) (atoi last) = bounds at short inside ⊢
  obtain ⟨startIndex, endIndex⟩ := bounds
  obtain ⟨nonneg, stops⟩ := inside
  dsimp only at short nonneg stops ⊢
  refine .ite (fun _ => Total.ends _) fun nonempty => ?_
  rw [if_neg (by omega), appendMembers_eq (by rw [List.length_drop]; omega), map_bulk_members]
  rw [memberSlice_eq] at short
  exact .after (appendGuarded_fits _ short w) (ends_sendPrefix short.le)

/-! ### Geo commands -/

theorem ends_handleGeoadd (finds : 4 ≤ req.argc → ∀ args, geoScores (D := D) (geoTriples (req.args.drop 1)) = .ok args →
    FindsFirst w req IsZSet) : Ends (handleGeoadd (D := D) req fd) w := by
  unfold handleGeoadd
  refine .ite (fun _ => Total.ends _) fun enough => ends_given (by omega) fun key isKey => ?_
  cases scored : geoScores (D := D) (geoTriples (req.args.drop 1)) with
  | error invalidGeoMsg => exact Total.ends _
  | ok args =>
    obtain ⟨key', isKey', finds⟩ := finds (by omega) args scored
    obtain rfl : key = key' := Option.some.inj (isKey.symm.trans isKey')
    exact ends_handleZadd fun _ _ => ⟨key, rfl, finds⟩

omit [Externals D] in
theorem ends_sendPositions {size : Nat} {text : Bytes → Bytes} (fits : (positionsText req text).length < size) :
    Ends (sendPositions size req fd text) w :=
  .after (appendAll_fits _ fits w) (ends_sendPrefix fits.le)

theorem ends_handleGeopos (finds : 2 ≤ req.argc → FindsFirst w req IsZSet) (fits : GeoposFits w req) :
    Ends (handleGeopos req fd) w := by
  unfold handleGeopos
  refine .ite (fun _ => Total.ends _) fun enough => ?_
  obtain ⟨key, isKey, finds⟩ := finds (by omega)
  refine ends_arg isKey (ends_withZSet finds (fun _ => ends_sendPositions fits.1) fun set expiresAt bound => ?_)
  exact ends_sendPositions (fits.2 key isKey set expiresAt (binding_of_lookup bound))

theorem ends_handleGeodist (finds : 3 ≤ req.argc → FindsFirst w req IsZSet) : Ends (handleGeodist (D := D) req fd) w := by
  unfold handleGeodist
  refine .ite (fun _ => Total.ends _) fun enough => ?_
  obtain ⟨key, isKey, finds⟩ := finds (by omega)
  refine ends_arg isKey (ends_withZSet finds (fun _ => Total.ends _) fun set _ _ => ?_)
  refine ends_given (by omega) fun first _ => ends_given (by omega) fun second _ => ?_
  dsimp only
  split
  · exact Total.ends _
  · exact Total.ends _

theorem ends_handleGeosearch (finds : 7 ≤ req.argc → FindsFirst w req IsCounted) : Ends (handleGeosearch req fd) w := by
  unfold handleGeosearch
  refine .ite (fun _ => Total.ends _) fun enough => ?_
  obtain ⟨key, isKey, finds⟩ := finds (by omega)
  refine ends_arg isKey ((ends_openZSet (finds.mono fun _ => IsCounted.isZSet)).bind fun set opened opens => ?_)
  obtain ⟨expiresAt, opens⟩ := openZSet_opens opens
  -- a set that GEOSEARCH creates has no members
  have counted : set.length = set.entries.length := by
    obtain ⟨bound, _⟩ | ⟨_, isEmpty, _⟩ := opens.before
    · obtain ⟨entry, found, isCounted⟩ := finds
      obtain rfl := (binding_of_lookup found).symm.trans bound
      obtain ⟨set', same, counted⟩ := isCounted _ rfl
      rwa [Value.zset.inj same]
    · rw [Value.zset.inj isEmpty]
      rfl
  refine ends_given (by omega) fun unit _ => ends_given (by omega) fun radius _ => ?_
  refine ends_given (by omega) fun longtitude _ => ends_given (by omega) fun latitude _ => ?_
  refine .after (selectMembers_run counted.le (by decide) rfl) ?_
  exact .ite (fun _ => Total.ends _) fun _ => Total.ends _

end SortedSets

/-! ## WAIT -/

/-- Where WAIT does not answer at once, its deadline fits. -/
def WaitReads (w : World D) (req : RespRequest) : Prop :=
  2 ≤ req.argc ∧ ∀ wanted ms, req.args[0]? = some wanted → req.args[1]? = some ms →
    (w.acknowledged w.serverConfig.masterReplOffset : Int) < atoi wanted → w.WaitFits (atoll ms)

theorem ends_handleWait (allocated : w.Allocated) (reads : WaitReads w req) : Ends (handleWait req fd) w := by
  obtain ⟨enough, fits⟩ := reads
  unfold handleWait
  refine .after (setConfig_run _ _) (ends_given (by omega) fun wanted isWanted => ends_given (by omega) fun ms isMs => ?_)
  refine .after (setConfig_run _ _) ?_
  refine .bind (countReplicas_ends ?_) fun count counted counts => ?_
  · exact allocated.of_same rfl rfl
  -- the first count is over the offset before this WAIT, and the GETACKs are sent only if it is too small
  obtain ⟨rfl, isCount⟩ := countReplicas_ok counts
  rw [Nat.zero_add] at isCount
  replace isCount : count = w.acknowledged w.serverConfig.masterReplOffset := isCount
  refine .ite (fun _ => Total.ends _) fun few => .after (setConfig_run _ _) ?_
  refine .bind (forM_askReplica_ends ?_) fun _ asked asks => ?_
  · exact allocated.of_same rfl rfl
  rw [forM_askReplica_ok asks]
  refine markWaiting_ends ?_ (fits wanted ms isWanted isMs (by omega))
  exact allocated.of_same rfl rfl

end RedisClone
