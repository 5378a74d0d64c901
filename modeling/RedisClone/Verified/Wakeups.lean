import RedisClone.Verified.Timers
import RedisClone.Verified.Writes

/-! # Wake-ups of BLPOP

A push serves at most one client, RPUSH only one that has waited for some time, and LPUSH none.  `Serves` is
the condition under which this is enough: then nobody waits for a key whose list has elements
(`no_lost_wakeup`), and every push serves as many clients as there are elements.
-/

namespace RedisClone

open Exec CString

variable {D : Type}

/-! ## The clients that wait -/

theorem mem_waiters {w : World D} {key : Bytes} {ptr : ClientPtr} {client : Client} :
    (ptr, client) ∈ w.waiters key ↔
      ∃ slot, w.clients slot = some ptr ∧ w.heap ptr = some client ∧ client.waitsFor key := by
  simp [World.waiters, clientSlots, List.mem_filterMap, waiterAt_eq_some]

/-- A client that waits afterwards waited before. -/
def WakesOnly (client client' : Client) : Prop :=
  ∀ key, client'.waitsFor key → client.waitsFor key

theorem SameBlocking.waitsFor_iff {client client' : Client} (same : SameBlocking client client')
    (key : Bytes) : client'.waitsFor key ↔ client.waitsFor key := by
  simp only [SameBlocking, Client.blocking, Blocking.mk.injEq] at same
  obtain ⟨isBlocked, isBlpop, _, _, _, waitingForKey, _⟩ := same
  simp [Client.waitsFor, isBlocked, isBlpop, waitingForKey]

theorem SameBlocking.wakesOnly {client client' : Client} (same : SameBlocking client client') :
    WakesOnly client client' := fun key => (same.waitsFor_iff key).mp

theorem wakesOnly_woken (client : Client) : WakesOnly client client.woken :=
  fun key waits => by simp [Client.waitsFor, Client.woken] at waits

theorem Delivered.wakesOnly {key : Bytes} {client client' : Client}
    (delivered : Delivered key client client') : WakesOnly client client' := by
  obtain same | ⟨_, woken⟩ := delivered
  · exact same.wakesOnly
  · intro other waits
    have := (SameBlocking.waitsFor_iff woken other).mp waits
    simp [Client.waitsFor, Client.delivered] at this

/-- A client whose `is_blpop` is not set is not made to wait by XREAD. -/
theorem Reads.wakesOnly {client client' : Client} (reads : Reads client client')
    (notBlpop : client.isBlpop = false) : WakesOnly client client' := by
  intro key waits
  have isBlpop : client'.isBlpop = client.isBlpop := congrArg Blocking.isBlpop reads.1
  simp [Client.waitsFor, isBlpop, notBlpop] at waits

theorem wakesOnly_expired (client : Client) (now later : Int) :
    WakesOnly client (client.expired now later) := by
  unfold Client.expired
  split
  · intro key waits
    simp [Client.waitsFor, Client.unblocked] at waits
  · split
    · exact wakesOnly_woken client
    · exact fun key waits => waits

theorem wakesOnly_waitEnded (client : Client) (fd : Int) : WakesOnly client (client.waitEnded fd) := by
  intro key waits
  obtain ⟨isBlpop, isBlocked, waitsKey⟩ := waits
  refine ⟨isBlpop, ?_, waitsKey⟩
  simp only [Client.waitEnded] at isBlocked
  split at isBlocked
  · simp at isBlocked
  · exact isBlocked

section Clientwise

variable {related : ClientPtr → Client → Client → Prop} {w w' : World D} {key : Bytes}

theorem waiters_eq_nil_of (clientwise : Clientwise related w w')
    (only : ∀ ptr client client', w.heap ptr = some client → related ptr client client' →
      client'.waitsFor key → client.waitsFor key)
    (nobody : w.waiters key = []) : w'.waiters key = [] := by
  rw [List.eq_nil_iff_forall_not_mem]
  rintro ⟨ptr, client'⟩ waits
  obtain ⟨slot, inSlot, found', waitsFor⟩ := mem_waiters.mp waits
  obtain ⟨client, found, _, holds⟩ := clientwise.back found'
  have before : (ptr, client) ∈ w.waiters key :=
    mem_waiters.mpr ⟨slot, clientwise.clients ▸ inSlot, found, only ptr client client' found holds waitsFor⟩
  simp [nobody] at before

theorem length_waiters (w : World D) (key : Bytes) :
    (w.waiters key).length = clientSlots.countP fun slot => (w.waiterAt key slot).isSome := by
  unfold World.waiters
  rw [List.length_filterMap_eq_countP]

theorem waiterAt_isSome {w : World D} {slot : ClientSlot} :
    (w.waiterAt key slot).isSome = (w.occupant slot).any fun client => decide (client.waitsFor key) := by
  unfold World.waiterAt World.occupant
  cases w.clients slot with
  | none => rfl
  | some ptr =>
    simp only [Option.bind_some]
    cases w.heap ptr with
    | none => rfl
    | some client => by_cases waits : client.waitsFor key <;> simp [waits]

theorem length_waiters_still (still : Still w w') :
    (w'.waiters key).length = (w.waiters key).length := by
  rw [length_waiters, length_waiters]
  refine List.countP_congr fun slot _ => ?_
  rw [waiterAt_isSome, waiterAt_isSome, World.occupant, World.occupant, still.clients]
  cases w.clients slot with
  | none => rfl
  | some ptr =>
    simp only [Option.bind_some]
    cases found : w.heap ptr with
    | none => rw [still.free ptr found]
    | some client =>
      obtain ⟨client', found', _, same⟩ := still.heap ptr client found
      simp [found', same.waitsFor_iff key]

end Clientwise

/-- Nobody waits for a key whose list has elements. -/
def World.NobodyStarves (w : World D) : Prop := ∀ key, w.waiters key ≠ [] → elements w.table key = []

/-- Clients that start to wait do so for keys without elements, and a key that somebody waits for stays without
elements. -/
theorem World.NobodyStarves.of_clientwise {related : ClientPtr → Client → Client → Prop} {w w' : World D}
    (nobody : w.NobodyStarves) (clientwise : Clientwise related w w')
    (only : ∀ slot ptr client client' key, w.clients slot = some ptr → w.heap ptr = some client →
      related ptr client client' → client'.waitsFor key →
      client.waitsFor key ∨ elements w'.table key = [])
    (table : ∀ key, w.waiters key ≠ [] → elements w.table key = [] → elements w'.table key = []) :
    w'.NobodyStarves := by
  intro key waits
  obtain ⟨⟨ptr, client'⟩, waiting⟩ := List.exists_mem_of_ne_nil _ waits
  obtain ⟨slot, inSlot, found', waitsFor⟩ := mem_waiters.mp waiting
  rw [clientwise.clients] at inSlot
  obtain ⟨client, found, _, holds⟩ := clientwise.back found'
  obtain waited | empty := only slot ptr client client' key inSlot found holds waitsFor
  · have before : w.waiters key ≠ [] :=
      List.ne_nil_of_mem (mem_waiters.mpr ⟨slot, inSlot, found, waited⟩)
    exact table key before (nobody key before)
  · exact empty

/-! ## The elements of the other keys -/

/-- Overwriting the first node of the key's bucket uncovers a list that somebody waits for. -/
def Uncovers (w : World D) (key : Bytes) : Prop :=
  ∃ bucket ∈ bucketOf key, ∃ first ∈ (w.table bucket).nodes.head?, first.1 ≠ key ∧
    bucketOf first.1 = some bucket ∧ w.waiters first.1 ≠ [] ∧
    elementsOf ((w.table bucket).behind.value? first.1) ≠ []

instance (w : World D) (key : Bytes) : Decidable (Uncovers w key) :=
  inferInstanceAs (Decidable (∃ bucket ∈ bucketOf key, ∃ first ∈ (w.table bucket).nodes.head?, _ ∧ _))

/-- A write binds no key that somebody waits for to a list with elements, except for its own key. -/
theorem Stores.elements_eq_nil {w : World D} {key other : Bytes} {entry : Entry D} {overwrites : Bool}
    {table' : Table D} (stores : Stores w.table key entry overwrites table')
    (covered : overwrites = true → ¬ Uncovers w key) (distinct : other ≠ key)
    (waited : w.waiters other ≠ []) (empty : elements w.table other = []) :
    elements table' other = [] := by
  obtain same | ⟨overwritten, bucket, inBucket, lost, behind⟩ := stores.binding_other distinct
  · rw [elements, same]
    exact empty
  · by_contra uncovered
    rw [elements, behind] at uncovered
    obtain ⟨_, sameBucket, bucket', inBucket', isFirst, _⟩ := lost
    obtain rfl : bucket = bucket' := Option.some.inj (inBucket.symm.trans inBucket')
    obtain ⟨first, isHead, rfl⟩ := Option.map_eq_some_iff.mp isFirst
    exact covered overwritten ⟨bucket, inBucket, first, isHead, distinct, sameBucket.trans inBucket,
      waited, uncovered⟩

/-- A command that is no push binds no key that somebody waits for to a list with elements. -/
theorem Effect.elements_eq_nil [Externals D] {w : World D} {req : RespRequest} {table' : Table D}
    {other : Bytes} (effect : Effect w req table') (notRpush : req.command ≠ .rpush)
    (notLpush : req.command ≠ .lpush)
    (covered : Creates w req → ∀ key ∈ req.args[0]?, ¬ Uncovers w key)
    (waited : w.waiters other ≠ []) (empty : elements w.table other = []) :
    elements table' other = [] := by
  obtain ⟨_, kept⟩ | ⟨_, key, entry, overwrites, isKey, _, creates, rest, stores⟩ := effect
  · rw [elements, kept other]
    exact empty
  · by_cases isOther : other = key
    · subst isOther
      rw [elements, stores.binding_self]
      obtain ⟨value, expiresAt⟩ := entry
      cases value with
      | list values =>
        have isEnd := rest notRpush notLpush values rfl
        rw [empty] at isEnd
        exact List.suffix_nil.mp isEnd
      | _ => rfl
    · exact stores.elements_eq_nil (fun overwritten => covered (creates.mp overwritten) key isKey) isOther
        waited empty

/-! ## Pushes that serve everybody -/

/-- A client that waits for the key has waited for some time when RPUSH looks at the clock. -/
def HasWaited (w : World D) (key : Bytes) : Prop :=
  ∃ i < (w.waiters key).length, ∃ waiter ∈ (w.waiters key)[i]?, w.clock i ≠ waiter.2.blockedAt

instance (w : World D) (key : Bytes) : Decidable (HasWaited w key) :=
  inferInstanceAs (Decidable (∃ i < (w.waiters key).length, ∃ waiter ∈ (w.waiters key)[i]?,
    w.clock i ≠ waiter.2.blockedAt))

/-- Nobody waits for the key of the push, or an RPUSH finds a client to serve and leaves no element or no
client behind. -/
def PushServes (w : World D) (req : RespRequest) (key : Bytes) : Prop :=
  w.waiters key = [] ∨ req.command = .rpush ∧ HasWaited w key ∧
    (req.argc = 2 ∨ (w.waiters key).length = 1)

instance (w : World D) (req : RespRequest) (key : Bytes) : Decidable (PushServes w req key) :=
  inferInstanceAs (Decidable (_ ∨ _))

/-- The command leaves nobody waiting for a list with elements. -/
structure Serves (w : World D) (sender : ClientPtr) (req : RespRequest) : Prop where
  pushes : req.command = .rpush ∨ req.command = .lpush → 2 ≤ req.argc → ∀ key ∈ req.args[0]?,
    PushServes w req key
  waits : req.command = .wait → ∀ client ∈ w.heap sender, ∀ slot, ∀ other ∈ w.occupant slot,
    other.fd = client.fd → other.isBlpop = true → ∀ key ∈ other.waitingForKey, elements w.table key = []
  reads : req.command = .xread → ∀ client ∈ w.heap sender, client.isBlpop = false
  covers : Creates w req → ∀ key ∈ req.args[0]?, ¬ Uncovers w key

instance (w : World D) (sender : ClientPtr) (req : RespRequest) : Decidable (Serves w sender req) :=
  decidable_of_iff (_ ∧ _ ∧ _ ∧ _)
    ⟨fun ⟨pushes, waits, reads, covers⟩ => ⟨pushes, waits, reads, covers⟩,
      fun serves => ⟨serves.pushes, serves.waits, serves.reads, serves.covers⟩⟩

/-- The step leaves nobody waiting for a list with elements. -/
def ServesAll (s : Server D) (event : Event) : Prop :=
  ∀ sender req, Dispatches s event sender req → Serves (s.world.noted req) sender req

instance (s : Server D) (event : Event) : Decidable (ServesAll s event) :=
  inferInstanceAs (Decidable (∀ sender req, Dispatches s event sender req → _))

/-- The scan finds a client where one has waited for some time. -/
theorem hasWaited_iff {w : World D} {key : Bytes} :
    HasWaited w key ↔ longestOf w.clock (w.waiters key) none 0 ≠ none := by
  rw [longestOf_none, Ne, Option.map_eq_none_iff, Scan.firstLargest_eq_none_iff]
  constructor
  · rintro ⟨i, _, waiter, isWaiter, late⟩ nobody
    exact absurd (nobody i waiter isWaiter) (not_le.mpr (waitingTime_pos_iff.mpr late))
  · intro somebody
    push Not at somebody
    obtain ⟨i, waiter, isWaiter, late⟩ := somebody
    exact ⟨i, (List.getElem?_eq_some_iff.mp isWaiter).1, waiter, isWaiter, waitingTime_pos_iff.mp late⟩

/-! ## The arms -/

section Arms

variable [Externals D] {w t : World D} {req : RespRequest} {ptr : ClientPtr} {client : Client}

omit [Externals D] in
/-- The client that RPUSH served no longer waits. -/
theorem length_waiters_served {key : Bytes} {served : ClientPtr} {waiter : Client} (oneSlot : w.OneSlot)
    (waits : (served, waiter) ∈ w.waiters key) (clients : t.clients = w.clients)
    (heap : t.heap = Function.update w.heap served (some waiter.woken)) :
    (w.waiters key).length = (t.waiters key).length + 1 := by
  obtain ⟨slot, inSlot, found, waitsFor⟩ := mem_waiters.mp waits
  rw [length_waiters, length_waiters]
  refine Slots.countP_eq_add_one (List.nodup_finRange _) (List.mem_finRange slot) ?_ ?_ ?_
  · rw [waiterAt_eq_some.mpr ⟨inSlot, found, waitsFor⟩]
    rfl
  · rw [waiterAt_isSome, World.occupant, clients, inSlot, heap]
    simp [Client.waitsFor, Client.woken]
  · intro other distinct
    rw [waiterAt_isSome, waiterAt_isSome, World.occupant, World.occupant, clients, heap]
    cases inOther : w.clients other with
    | none => rfl
    | some ptr =>
      have notServed : ptr ≠ served := by
        rintro rfl
        exact distinct (oneSlot _ _ _ inOther inSlot)
      simp [Function.update_of_ne notServed]

/-- An arm other than a push that makes nobody wait for a list with elements. -/
theorem nobodyStarves_of_clientwise {related : ClientPtr → Client → Client → Prop}
    (nobody : w.NobodyStarves) (serves : Serves w ptr req) (notRpush : req.command ≠ .rpush)
    (notLpush : req.command ≠ .lpush) (effect : Effect w req t.table)
    (clientwise : Clientwise related w t)
    (only : ∀ slot ptr client client' key, w.clients slot = some ptr → w.heap ptr = some client →
      related ptr client client' → client'.waitsFor key →
      client.waitsFor key ∨ elements t.table key = []) : t.NobodyStarves :=
  nobody.of_clientwise clientwise only fun _ waited empty =>
    effect.elements_eq_nil notRpush notLpush serves.covers waited empty

omit [Externals D] in
theorem nobodyStarves_lpush (nobody : w.NobodyStarves) (serves : Serves w ptr req)
    (isLpush : req.command = .lpush) (still : Still w t)
    (run : handleLpush req client.fd w = .ok ((), t)) : t.NobodyStarves := by
  refine nobody.of_clientwise still.toClientwise (fun _ _ _ _ key _ _ same waits =>
    .inl (same.wakesOnly key waits)) fun other waited empty => ?_
  by_cases enough : 2 ≤ req.argc
  · obtain ⟨key, list, expiresAt, opened, isKey, opens, pushes⟩ := handleLpush_ok enough run
    obtain none | ⟨isRpush, _⟩ := serves.pushes (.inr isLpush) enough key isKey
    · refine pushes.stores.elements_eq_nil (fun unbound => ?_) (fun isOther => ?_) waited empty
      · refine serves.covers ?_ key isKey
        rw [Creates, isKey, isLpush]
        simpa using unbound
      · rw [isOther] at waited
        exact waited none
    · simp [isLpush] at isRpush
  · unfold handleLpush at run
    rw [if_pos (by omega)] at run
    rw [send_run run]
    exact empty

omit [Externals D] in
theorem nobodyStarves_rpush (oneSlot : w.OneSlot) (nobody : w.NobodyStarves) (serves : Serves w ptr req)
    (isRpush : req.command = .rpush) (run : handleRpush req client.fd w = .ok ((), t)) :
    t.NobodyStarves := by
  by_cases enough : 2 ≤ req.argc
  · obtain ⟨key, list, expiresAt, opened, isKey, opens, pushes⟩ := handleRpush_ok enough run
    have covered : (binding w.table key).isNone = true → ¬ Uncovers w key := by
      intro unbound
      refine serves.covers ?_ key isKey
      rw [Creates, isKey, isRpush]
      simpa using unbound
    have given := serves.pushes (.inl isRpush) enough key isKey
    cases pushes with
    | unserved unfound keeps stores =>
      -- the scan finds nobody, so nobody waits
      have none : w.waiters key = [] := by
        obtain none | ⟨_, hasWaited, _⟩ := given
        · exact none
        · exact absurd unfound (hasWaited_iff.mp hasWaited)
      have still : Still w t := by
        rw [keeps]
        exact .of_same rfl rfl rfl rfl
      refine nobody.of_clientwise still.toClientwise (fun _ _ _ _ key _ _ same waits =>
        .inl (same.wakesOnly key waits)) fun other waited empty => ?_
      refine stores.elements_eq_nil covered (fun isOther => ?_) waited empty
      rw [isOther] at waited
      exact waited none
    | served ptr' waiter first rest longest found elements' keeps stores =>
      obtain ⟨waiter', waits⟩ := longestOf_mem longest
      have clients : t.clients = w.clients := by rw [keeps]
      have heap : t.heap = Function.update w.heap ptr' (some waiter.woken) := by rw [keeps]
      obtain rfl : waiter = waiter' := by
        obtain ⟨_, _, found', _⟩ := mem_waiters.mp waits
        exact Option.some.inj (found.symm.trans found')
      have fewer := length_waiters_served oneSlot waits clients heap
      have woken : Clientwise (fun _ => WakesOnly) w t :=
        .of_update (fun _ client key => id) waiter.woken found rfl (wakesOnly_woken waiter) clients
          (by rw [keeps]) heap
      intro other waits'
      have waited : w.waiters other ≠ [] := fun none =>
        waits' (waiters_eq_nil_of woken (fun _ _ _ _ only => only other) none)
      by_cases isOther : other = key
      · subst isOther
        obtain none | ⟨_, _, one | single⟩ := given
        · exact absurd none waited
        · -- the only element was handed out
          have unbound : list = [] := by
            obtain ⟨bound, _⟩ | ⟨_, isEmpty, _⟩ := opens.before
            · rw [← nobody other waited, elements_of_list bound]
            · exact Value.list.inj isEmpty
          have pushed : (req.args.drop 1).length = 1 := by
            have := req.supplied
            rw [List.length_drop]
            omega
          have length := congrArg List.length elements'
          rw [unbound, List.nil_append, pushed, List.length_cons] at length
          rw [elements, stores.binding_self]
          change rest = []
          exact List.length_eq_zero_iff.mp (by omega)
        · -- the only client was served
          rw [single] at fewer
          exact absurd (List.length_eq_zero_iff.mp (by omega)) waits'
      · exact stores.elements_eq_nil covered isOther waited (nobody other waited)
  · unfold handleRpush at run
    rw [if_pos (by omega)] at run
    rw [send_run run]
    exact nobody

/-- As many clients are served as there are elements. -/
theorem length_waiters_push {key : Bytes} (oneSlot : w.OneSlot) (nobody : w.NobodyStarves)
    (serves : Serves w ptr req) (isPush : req.command = .rpush ∨ req.command = .lpush)
    (enough : 2 ≤ req.argc) (isKey : req.args[0]? = some key)
    (run : arm req ptr client w = .ok ((), t)) :
    (t.waiters key).length =
      (w.waiters key).length - ((elements w.table key).length + (req.argc - 1).toNat) := by
  have given := serves.pushes isPush enough key isKey
  have unwaited (none : w.waiters key = []) (still : Still w t) : (t.waiters key).length =
      (w.waiters key).length - ((elements w.table key).length + (req.argc - 1).toNat) := by
    rw [length_waiters_still still, none]
    simp
  obtain isRpush | isLpush := isPush
  · rw [arm, isRpush] at run
    obtain ⟨key', list, expiresAt, opened, isKey', opens, pushes⟩ := handleRpush_ok enough run
    obtain rfl : key = key' := Option.some.inj (isKey.symm.trans isKey')
    cases pushes with
    | unserved unfound keeps stores =>
      have still : Still w t := by
        rw [keeps]
        exact .of_same rfl rfl rfl rfl
      obtain none | ⟨_, hasWaited, _⟩ := given
      · exact unwaited none still
      · exact absurd unfound (hasWaited_iff.mp hasWaited)
    | served ptr' waiter first rest longest found elements' keeps stores =>
      obtain ⟨waiter', waits⟩ := longestOf_mem longest
      obtain rfl : waiter = waiter' := by
        obtain ⟨_, _, found', _⟩ := mem_waiters.mp waits
        exact Option.some.inj (found.symm.trans found')
      have fewer := length_waiters_served (t := t) oneSlot waits (by rw [keeps]) (by rw [keeps])
      have waited := List.ne_nil_of_mem waits
      rw [nobody key waited, List.length_nil]
      obtain none | ⟨_, _, one | single⟩ := given
      · exact absurd none waited
      · omega
      · omega
  · obtain none | ⟨isRpush, _⟩ := given
    · exact unwaited none (still_arm (by simp [isLpush, changesBlocking]) run)
    · simp [isLpush] at isRpush

theorem nobodyStarves_blpop (nobody : w.NobodyStarves) (serves : Serves w ptr req)
    (isBlpop : req.command = .blpop) (effect : Effect w req t.table)
    (run : handleBlpop req ptr w = .ok ((), t)) : t.NobodyStarves := by
  have notRpush : req.command ≠ .rpush := by simp [isBlpop]
  have notLpush : req.command ≠ .lpush := by simp [isBlpop]
  cases handleBlpop_ok run with
  | nothing few same => exact same ▸ nobody
  | popped key first rest expiresAt client enough isKey bound found keeps stores =>
    have still : Still w t := by
      rw [keeps]
      exact .of_same rfl rfl rfl rfl
    exact nobodyStarves_of_clientwise nobody serves notRpush notLpush effect still.toClientwise
      fun _ _ _ _ key _ _ same waits => .inl (same.wakesOnly key waits)
  | blocked key client timeoutAt blockedAt enough isKey empty found keeps =>
    -- the client starts to wait for a key without elements
    have blocks : Clientwise (fun _ client client' => client' = client ∨
        ∀ other, client'.waitsFor other → other = key) w t :=
      .of_update (fun _ client => .inl rfl) (client.blockedFor key timeoutAt blockedAt) found rfl
        (.inr fun other waits => (Option.some.inj waits.2.2).symm) (by rw [keeps]) (by rw [keeps])
        (by rw [keeps])
    refine nobodyStarves_of_clientwise nobody serves notRpush notLpush effect blocks ?_
    rintro _ _ client client' other _ _ (rfl | isKey) waits
    · exact .inl waits
    · right
      rw [isKey other waits, keeps]
      obtain unbound | ⟨expiresAt, bound⟩ := empty
      · exact elements_of_unbound unbound
      · exact elements_of_list bound

theorem nobodyStarves_wait (nobody : w.NobodyStarves) (serves : Serves w ptr req)
    (isWait : req.command = .wait) (found : w.heap ptr = some client) (effect : Effect w req t.table)
    (run : handleWait req client.fd w = .ok ((), t)) : t.NobodyStarves := by
  have notRpush : req.command ≠ .rpush := by simp [isWait]
  have notLpush : req.command ≠ .lpush := by simp [isWait]
  have same (clients : t.clients = w.clients) (activeFds : t.activeFds = w.activeFds)
      (heap : t.heap = w.heap) : t.NobodyStarves :=
    have unchanged : Clientwise (fun _ client client' => client' = client) w t :=
      .of_same (fun _ _ => rfl) clients activeFds heap
    nobodyStarves_of_clientwise nobody serves notRpush notLpush effect unchanged
      fun _ _ _ _ _ _ _ isSame waits => .inl (isSame ▸ waits)
  cases handleWait_ok run with
  | answered wanted isWanted enough keeps =>
    rw [keeps] at same ⊢
    exact same rfl rfl rfl
  | pending wanted asked isWanted few asks marks =>
    obtain ⟨rfl, _⟩ | ⟨marked, waiting, timeoutAt, marks⟩ := marks
    · rw [asks] at same ⊢
      exact same rfl rfl rfl
    · -- a client that is blocked again may still have `is_blpop` set
      have markedFound : w.heap marked = some waiting := by
        have := marks.found
        rwa [asks] at this
      have blocks : Clientwise (fun _ client client' => client' = client ∨
          client = waiting ∧ client' = waiting.waitingUntil timeoutAt) w t :=
        .of_update (fun _ client => .inl rfl) (waiting.waitingUntil timeoutAt) markedFound rfl
          (.inr ⟨rfl, rfl⟩) (by rw [marks.keeps, asks]; rfl) (by rw [marks.keeps, asks]; rfl)
          (by rw [marks.keeps, asks]; rfl)
      refine nobodyStarves_of_clientwise nobody serves notRpush notLpush effect blocks ?_
      rintro slot other _ _ key inSlot foundOther (rfl | ⟨rfl, rfl⟩) waits
      · exact .inl waits
      · have table : t.table = w.table := by
          rw [marks.keeps, asks]
          rfl
        right
        rw [table]
        exact serves.waits isWait client found slot _ (by simp [World.occupant, inSlot, foundOther])
          marks.sameFd waits.1 key waits.2.2

/-- An arm leaves nobody waiting for a list with elements. -/
theorem nobodyStarves_arm (oneSlot : w.OneSlot) (nobody : w.NobodyStarves) (serves : Serves w ptr req)
    (found : w.heap ptr = some client) (run : arm req ptr client w = .ok ((), t)) :
    t.NobodyStarves := by
  have effect := arm_effect run
  by_cases isLpush : req.command = .lpush
  · have still := still_arm (by simp [isLpush, changesBlocking]) run
    rw [arm, isLpush] at run
    exact nobodyStarves_lpush nobody serves isLpush still run
  by_cases isRpush : req.command = .rpush
  · rw [arm, isRpush] at run
    exact nobodyStarves_rpush oneSlot nobody serves isRpush run
  -- an arm that pushes nothing can only break this by a client that starts to wait
  have wakesOnly {related : ClientPtr → Client → Client → Prop} (clientwise : Clientwise related w t)
      (only : ∀ other client client', w.heap other = some client → related other client client' →
        WakesOnly client client') : t.NobodyStarves :=
    nobodyStarves_of_clientwise nobody serves isRpush isLpush effect clientwise
      fun _ other client client' key _ found holds waits =>
        .inl (only other client client' found holds key waits)
  by_cases unblocking : changesBlocking req.command = false
  · exact wakesOnly (still_arm unblocking run).toClientwise fun _ _ _ _ same => same.wakesOnly
  cases command : req.command with
  | blpop =>
    rw [arm, command] at run
    exact nobodyStarves_blpop nobody serves command effect run
  | wait =>
    rw [arm, command] at run
    exact nobodyStarves_wait nobody serves command found effect run
  | xadd =>
    rw [arm, command] at run
    obtain still | ⟨key, _, delivers⟩ := handleXadd_delivers run
    · exact wakesOnly still.toClientwise fun _ _ _ _ same => same.wakesOnly
    · exact wakesOnly delivers.toClientwise fun _ _ _ _ delivered => delivered.wakesOnly
  | xread =>
    rw [arm, command] at run
    refine wakesOnly (handleXread_readsOnly (by simpa [command] using run)).toClientwise ?_
    intro other reader reader' foundOther readBy
    unfold ReadBy at readBy
    split at readBy
    · rename_i isSender
      subst isSender
      exact readBy.wakesOnly (serves.reads command reader foundOther)
    · exact readBy.wakesOnly
  | rpush => exact absurd command isRpush
  | _ => simp [command, changesBlocking] at unblocking

end Arms

/-! ## Runs -/

section Runs

variable [Externals D] {s t : Server D} {event : Event}

omit [Externals D] in
theorem Expires.wakesOnly {w w' : World D} {now : Int} {slots : List ClientSlot}
    (expires : Expires w now slots w') : Clientwise (fun _ => WakesOnly) w w' where
  clients := by rw [expires.keeps]
  activeFds := by rw [expires.keeps]
  free := expires.free
  heap ptr client found := by
    obtain ⟨_, kept⟩ | ⟨i, slot, _, _, expired⟩ := expires.heap ptr client found
    · exact ⟨client, kept, rfl, fun _ => id⟩
    · refine ⟨_, expired, ?_, wakesOnly_expired client now _⟩
      unfold Client.expired
      split
      · rfl
      · split <;> rfl

omit [Externals D] in
theorem CompletesWait.wakesOnly {w w' : World D} {now : Int} (completes : CompletesWait w now w') :
    Clientwise (fun _ => WakesOnly) w w' := by
  cases completes with
  | idle nobody same => exact same ▸ .of_same (fun _ _ _ => id) rfl rfl rfl
  | waits few notDue same => exact same ▸ .of_same (fun _ _ _ => id) rfl rfl rfl
  | completes somebody enough keeps free heap =>
    refine ⟨by rw [keeps], by rw [keeps], free, fun ptr client found => ?_⟩
    obtain ⟨_, kept⟩ | ⟨_, ended⟩ := heap ptr client found
    · exact ⟨client, kept, rfl, fun _ => id⟩
    · exact ⟨_, ended, rfl, wakesOnly_waitEnded client _⟩

theorem nobodyStarves_step (wellFormed : WellFormed s) (nobody : s.world.NobodyStarves)
    (serves : ServesAll s event) (step : Step s event t) : t.world.NobodyStarves := by
  by_cases dispatched : ∃ sender req, Dispatches s event sender req
  · obtain ⟨sender, req, dispatches⟩ := dispatched
    obtain ⟨client, handled, found, run, table, still⟩ := arm_of_step wellFormed.outside step dispatches
    have handledNobody : handled.NobodyStarves :=
      nobodyStarves_arm (w := s.world.noted req) wellFormed.distinct nobody (serves sender req dispatches)
        found run
    refine handledNobody.of_clientwise still.toClientwise (fun _ _ _ _ key _ _ same waits =>
      .inl (same.wakesOnly key waits)) fun key _ empty => ?_
    rwa [table]
  · have undispatched (sender : ClientPtr) (req : RespRequest) : ¬ Dispatches s event sender req :=
      fun dispatches => dispatched ⟨sender, req, dispatches⟩
    have table := (data_of_step wellFormed.outside step undispatched).1
    -- the table is as it was, so it is enough that nobody starts to wait
    have wakesOnly (clientwise : Clientwise (fun _ => WakesOnly) s.world t.world) :
        t.world.NobodyStarves :=
      nobody.of_clientwise clientwise (fun _ _ _ _ key _ _ only waits => .inl (only key waits))
        fun key _ empty => by rwa [table]
    have reblocks := reblocks_of_step wellFormed.outside step
    generalize t.world = w' at *
    cases reblocks with
    | still _ still => exact wakesOnly (still.toClientwise.mono fun _ _ _ same => same.wakesOnly)
    | ran sender req client dispatches _ _ _ => exact absurd dispatches (undispatched sender req)
    | expired runs =>
      obtain ⟨expired, expires, completes⟩ := runTimers_ok wellFormed.distinct runs
      have ticked : Clientwise (fun _ => WakesOnly) s.world s.world.tick :=
        .of_same (fun _ _ _ => id) rfl rfl rfl
      have composes : ∀ (_ : ClientPtr) first second third, WakesOnly first second → WakesOnly second third →
          WakesOnly first third := fun _ _ _ _ before after key waits => before key (after key waits)
      exact wakesOnly ((ticked.trans composes expires.wakesOnly).trans composes completes.wakesOnly)
    | @connected fd ptr slot isNext free =>
      intro key waits
      obtain ⟨⟨other, client⟩, waiting⟩ := List.exists_mem_of_ne_nil _ waits
      obtain ⟨slot', inSlot, found, waitsFor⟩ := mem_waiters.mp waiting
      obtain ⟨rfl, isNew⟩ | ⟨inSlot', found'⟩ := connected_accept inSlot found
      · rw [isNew] at waitsFor
        simp [Client.waitsFor, newClient] at waitsFor
      · rw [table]
        exact nobody key (List.ne_nil_of_mem (mem_waiters.mpr ⟨slot', inSlot', found', waitsFor⟩))
    | disconnected last ptr isLast occupied =>
      intro key waits
      obtain ⟨⟨other, client⟩, waiting⟩ := List.exists_mem_of_ne_nil _ waits
      obtain ⟨slot', inSlot, found, waitsFor⟩ := mem_waiters.mp waiting
      obtain ⟨slot'', inSlot', found'⟩ := connected_drop inSlot found
      rw [table]
      exact nobody key (List.ne_nil_of_mem (mem_waiters.mpr ⟨slot'', inSlot', found', waitsFor⟩))

/-- In a run in which every push serves as many waiting clients as it can, and no other command uncovers a list,
nobody waits for a key whose list has elements, and every such push serves as many clients as there are
elements. -/
theorem no_lost_wakeup (entry : AtLoopEntry s) (run : Run Step ServesAll s t) :
    t.world.NobodyStarves ∧
      ∀ event u sender req key, ServesAll t event → Step t event u → Dispatches t event sender req →
        req.command = .rpush ∨ req.command = .lpush → 2 ≤ req.argc → req.args[0]? = some key →
        (u.world.waiters key).length = (t.world.waiters key).length -
          ((elements t.world.table key).length + (req.argc - 1).toNat) := by
  have atStart : s.world.NobodyStarves := by
    intro key waits
    obtain ⟨⟨ptr, client⟩, waiting⟩ := List.exists_mem_of_ne_nil _ waits
    obtain ⟨slot, inSlot, _⟩ := mem_waiters.mp waiting
    simp [entry.clients] at inSlot
  have nobody : (fun s : Server D => s.world.NobodyStarves) t :=
    entry.wellFormed.invariant (fun _ _ _ wellFormed nobody serves step =>
      nobodyStarves_step wellFormed nobody serves step) run atStart
  refine ⟨nobody, fun event u sender req key serves step dispatches isPush enough isKey => ?_⟩
  have wellFormed := wellFormed_run run entry.wellFormed
  obtain ⟨client, handled, _, runs, _, still⟩ := arm_of_step wellFormed.outside step dispatches
  rw [length_waiters_still still]
  exact length_waiters_push (w := t.world.noted req) wellFormed.distinct nobody
    (serves sender req dispatches) isPush enough isKey runs

/-- A server whose clock goes on by one with every reading. -/
def tickingServer : Server Int := ⟨bootWorld {} ⟨none, none⟩ Int.ofNat fun _ => [], none⟩

/-- The first client waits for a list. -/
def waitForK : Event := arrival firstSlot [lit "BLPOP", lit "k", lit "0"]

/-- An RPUSH of one element serves a client that has waited. -/
theorem no_lost_wakeup_rpush : ∃ t u : Server Int, t.world.NobodyStarves ∧
    (t.world.waiters (lit "k")).length = 1 ∧ (u.world.waiters (lit "k")).length = 0 := by
  let push := arrival secondSlot [lit "RPUSH", lit "k", lit "a"]
  obtain ⟨t, run, checked⟩ := exists_run_of_play
    (show (play ServesAll tickingServer [.connect 5 0, .connect 6 1, waitForK]).any
      (fun t => decide (ServesAll t push) && (decide ((t.world.waiters (lit "k")).length = 1) &&
        (decide (t.world.clients secondSlot = some 1) && ((t.world.heap 1).any (fun client =>
          reachesArm client (requestOf [lit "RPUSH", lit "k", lit "a"])) &&
            (next t push).isSome)))) = true by
      decide +kernel)
  simp only [Bool.and_eq_true, decide_eq_true_eq, Option.any_eq_true] at checked
  obtain ⟨serves, one, occupied, ⟨client, found, reaches⟩, isSome⟩ := checked
  obtain ⟨u, isNext⟩ := Option.isSome_iff_exists.mp isSome
  have entry : AtLoopEntry tickingServer :=
    ⟨rfl, fun _ => rfl, rfl, fun _ => rfl, fun _ => rfl, rfl⟩
  obtain ⟨nobody, served⟩ := no_lost_wakeup entry run
  have dispatches : Dispatches t push 1 (requestOf [lit "RPUSH", lit "k", lit "a"]) :=
    ⟨by simp [push, arrival, Server.calls, occupied], client, found, reaches⟩
  have left := served push u 1 _ (lit "k") serves (next_step isNext) dispatches (.inl rfl) (by decide) rfl
  refine ⟨t, u, nobody, one, ?_⟩
  rw [left, one]
  exact Nat.sub_eq_zero_of_le (Nat.le_add_left 1 _)

/-- LPUSH serves nobody. -/
theorem lpush_serves_nobody :
    ¬ ∀ t : Server Int, Runs idleServer t → t.running = none → t.world.NobodyStarves := by
  intro served
  obtain ⟨t, run, checked⟩ := exists_run_of_play
    (show (play (fun _ _ => True) idleServer [.connect 5 0, .connect 6 1, waitForK,
      arrival secondSlot [lit "LPUSH", lit "k", lit "a"]]).any
      (fun t => t.running.isNone && (decide (t.world.waiters (lit "k") ≠ []) &&
        decide (elements t.world.table (lit "k") = [lit "a"]))) = true by
      decide +kernel)
  simp only [Bool.and_eq_true, decide_eq_true_eq, Option.isNone_iff_eq_none] at checked
  obtain ⟨idle, waits, elements⟩ := checked
  have none := served t run idle (lit "k") waits
  rw [elements] at none
  simp at none

end Runs

end RedisClone
