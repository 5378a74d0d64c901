import Mathlib.Data.List.Nodup
import RedisClone.Verified.WatchScope

/-! # WATCH over whole runs

`Tracked` ties the registrations in `watchers` to the keys that a client watches; a run keeps it while the
client sends no WATCH for a bucket that holds it.  A registered client is connected, as long as no client
disconnects while it is registered (`registered_connected`).
-/

namespace RedisClone

open Exec

variable {D : Type}

/-! ## The watched keys of one client and its registrations -/

/-- WATCH registers the client in buckets that do not hold it, and in none of them twice. -/
def FreshKeys (w : World D) (ptr : ClientPtr) (keys : List Bytes) : Prop :=
  (keys.map bucketOf).Nodup ∧ ∀ key ∈ keys, ∀ bucket ∈ bucketOf key, some ptr ∉ w.watching bucket

instance (w : World D) (ptr : ClientPtr) (keys : List Bytes) : Decidable (FreshKeys w ptr keys) :=
  inferInstanceAs (Decidable ((keys.map bucketOf).Nodup ∧
    ∀ key ∈ keys, ∀ bucket ∈ bucketOf key, some ptr ∉ w.watching bucket))

/-- Every key that the client watches has it registered, at most once in a bucket. -/
structure Tracked (ptr : ClientPtr) (w : World D) : Prop where
  indexed : ∀ client, w.heap ptr = some client → ∀ key ∈ client.watchKeys,
    ∃ bucket, bucketOf key = some bucket ∧ some ptr ∈ w.watching bucket
  once : ∀ bucket, (w.watching bucket).count (some ptr) ≤ 1

/-- The client is registered and marked for keys that it watches only. -/
structure Matched (ptr : ClientPtr) (w : World D) : Prop where
  covered : ∀ client, w.heap ptr = some client → ∀ bucket, some ptr ∈ w.watching bucket →
    ∃ key ∈ client.watchKeys, bucketOf key = some bucket
  dirty : ∀ client, w.heap ptr = some client → client.isDirty = true → client.watchKeys ≠ []

/-- The WATCH of this client is one for fresh keys. -/
def WatchesFresh (ptr : ClientPtr) (s : Server D) : Event → Prop
  | .request slot call =>
    s.world.clients slot = some ptr → ∀ client ∈ s.world.heap ptr,
      call.request.command = .watch → client.isQueued = false →
      FreshKeys s.world ptr call.request.args
  | _ => True

theorem mem_watching_registers {ptr other : ClientPtr} {client : Client} {keys : List Bytes}
    {w w' : World D} (registers : Registers ptr client keys w w') {bucket : Bucket} :
    some other ∈ w'.watching bucket ↔ some other ∈ w.watching bucket ∨
      (other = ptr ∧ ∃ key ∈ keys, bucketOf key = some bucket) := by
  rw [registers.watching bucket, List.mem_append, List.mem_replicate]
  refine or_congr_right ?_
  rw [← Nat.pos_iff_ne_zero, List.countP_pos_iff]
  simp only [decide_eq_true_eq, Option.some.injEq]
  exact and_comm

theorem count_watching_registers {ptr : ClientPtr} {client : Client} {keys : List Bytes}
    {w w' : World D} (registers : Registers ptr client keys w w') (fresh : FreshKeys w ptr keys)
    {bucket : Bucket} (once : (w.watching bucket).count (some ptr) ≤ 1) :
    (w'.watching bucket).count (some ptr) ≤ 1 := by
  rw [registers.watching bucket, List.count_append, List.count_replicate_self]
  have few : keys.countP (fun key => bucketOf key = some bucket) ≤ 1 := by
    have inImage : keys.countP (fun key => bucketOf key = some bucket) =
        (keys.map bucketOf).count (some bucket) := by
      rw [List.count, List.countP_map]
      exact List.countP_congr fun key _ => by simp
    rw [inImage]
    exact List.nodup_iff_count_le_one.mp fresh.1 _
  by_cases isNew : keys.countP (fun key => bucketOf key = some bucket) = 0
  · omega
  · obtain ⟨key, member, inBucket⟩ := List.countP_pos_iff.mp (Nat.pos_of_ne_zero isNew)
    have absent : (w.watching bucket).count (some ptr) = 0 :=
      List.count_eq_zero.mpr (fresh.2 key member bucket (by simpa using inBucket))
    omega

theorem count_watching_registers_of_ne {ptr other : ClientPtr} {client : Client} {keys : List Bytes}
    {w w' : World D} (registers : Registers ptr client keys w w') (distinct : other ≠ ptr)
    (bucket : Bucket) :
    (w'.watching bucket).count (some other) = (w.watching bucket).count (some other) := by
  rw [registers.watching bucket, List.count_append, List.count_replicate]
  simp [distinct.symm]

/-! ### What the parts of a step leave of one client -/

theorem ScopeKept.heap_back {s : Server D} {event : Event} {w' : World D}
    (kept : ScopeKept s event w') {ptr : ClientPtr} {client' : Client}
    (found' : w'.heap ptr = some client') :
    ∃ client, s.world.heap ptr = some client ∧ client'.watchKeys = client.watchKeys ∧
      (client'.isDirty = true ↔ client.isDirty = true ∨ NotifiedAt s event ptr) := by
  cases found : s.world.heap ptr with
  | none => exact absurd (found'.symm.trans (kept.free ptr found)) (by simp)
  | some client =>
    obtain ⟨other, foundOther, same⟩ := kept.heap ptr client found
    obtain rfl : other = client' := by simpa [foundOther] using found'
    exact ⟨client, rfl, same⟩

theorem NotifiedAt.registered {s : Server D} {event : Event} {ptr : ClientPtr}
    (notified : NotifiedAt s event ptr) : ∃ bucket, some ptr ∈ s.world.watching bucket := by
  obtain ⟨_, _, _, _, _, bucket, _, _, registered⟩ := notified
  exact ⟨bucket, registered⟩

theorem heap_drop {w : World D} {slot last : ClientSlot} {ptr other : ClientPtr} {client : Client}
    (found : (w.drop slot last ptr).heap other = some client) :
    other ≠ ptr ∧ w.heap other = some client := by
  simp only [World.drop] at found
  by_cases same : other = ptr
  · subst same
    simp at found
  · rw [Function.update_of_ne same] at found
    exact ⟨same, found⟩

variable [Externals D]

theorem tracked_step {s t : Server D} {event : Event} {ptr : ClientPtr} (wellFormed : WellFormed s)
    (tracked : Tracked ptr s.world) (fresh : WatchesFresh ptr s event) (step : Step s event t) :
    Tracked ptr t.world := by
  have scope := scope_of_step wellFormed step
  generalize t.world = w' at scope
  cases scope with
  | kept kept =>
    refine ⟨fun client' found' key member => ?_, fun bucket => ?_⟩
    · obtain ⟨client, found, keys, _⟩ := kept.heap_back found'
      rw [kept.watching]
      exact tracked.indexed client found key (keys ▸ member)
    · rw [kept.watching]
      exact tracked.once bucket
  | watched sender client occupied found isWatch outside registers =>
    by_cases isSender : ptr = sender
    · subst isSender
      have freshKeys := fresh occupied client found isWatch outside
      refine ⟨fun client' found' key member => ?_, fun bucket => ?_⟩
      · obtain rfl : { client with watchKeys := client.watchKeys ++ _ } = client' := by
          simpa [registers.heap] using found'
        obtain inOld | isNew := List.mem_append.mp member
        · obtain ⟨bucket, inBucket, registered⟩ := tracked.indexed client found key inOld
          exact ⟨bucket, inBucket, (mem_watching_registers registers).mpr (.inl registered)⟩
        · obtain ⟨bucket, inBucket⟩ := Option.ne_none_iff_exists'.mp (registers.indexed key isNew)
          exact ⟨bucket, inBucket,
            (mem_watching_registers registers).mpr (.inr ⟨rfl, key, isNew, inBucket⟩)⟩
      -- its new keys go to buckets in which it was not
      · exact count_watching_registers registers freshKeys (tracked.once bucket)
    · refine ⟨fun client' found' key member => ?_, fun bucket => ?_⟩
      · rw [registers.heap, Function.update_of_ne isSender] at found'
        obtain ⟨bucket, inBucket, registered⟩ := tracked.indexed client' found' key member
        exact ⟨bucket, inBucket, (mem_watching_registers registers).mpr (.inl registered)⟩
      · rw [count_watching_registers_of_ne registers isSender]
        exact tracked.once bucket
  | released sender client occupied found ends releases =>
    refine ⟨fun client' found' key member => ?_, fun bucket => ?_⟩
    · obtain ⟨released, heap, empty, _⟩ := releases.heap
      by_cases isSender : ptr = sender
      · subst isSender
        obtain rfl : released = client' := by simpa [heap] using found'
        simp [empty] at member
      · rw [heap, Function.update_of_ne isSender] at found'
        obtain ⟨bucket, inBucket, registered⟩ := tracked.indexed client' found' key member
        exact ⟨bucket, inBucket,
          (releases.watching bucket ptr).mpr ⟨registered, fun same => isSender same.1⟩⟩
    · exact (releases.fewer bucket ptr).trans (tracked.once bucket)
  | connected slot isNext free =>
    rename_i fd other
    refine ⟨fun client' found' key member => ?_, tracked.once⟩
    by_cases isNew : ptr = other
    · subst isNew
      obtain rfl : newClient fd = client' := by simpa [World.accept] using found'
      simp [newClient] at member
    · exact tracked.indexed client' (by simpa [World.accept, isNew] using found') key member
  | disconnected last other isLast occupied =>
    exact ⟨fun client' found' => tracked.indexed client' (heap_drop found').2, tracked.once⟩

/-! ## Registered clients are connected -/

/-- No client disconnects while it is registered. -/
def LeavesUnregistered (s : Server D) : Event → Prop
  | .disconnect slot =>
    ∀ ptr ∈ s.world.clients slot, ∀ bucket, some ptr ∉ s.world.watching bucket
  | _ => True

/-- A registered client has a slot. -/
def RegisteredConnected (s : Server D) : Prop :=
  ∀ bucket ptr, some ptr ∈ s.world.watching bucket → ∃ slot, s.world.clients slot = some ptr

theorem registeredConnected_step {s t : Server D} {event : Event} (wellFormed : WellFormed s)
    (connected : RegisteredConnected s) (leaves : LeavesUnregistered s event)
    (step : Step s event t) : RegisteredConnected t := by
  have scope := scope_of_step wellFormed step
  unfold RegisteredConnected
  generalize t.world = w' at scope
  intro bucket ptr registered
  cases scope with
  | kept kept =>
    rw [kept.watching] at registered
    rw [kept.clients]
    exact connected bucket ptr registered
  | watched sender client occupied found isWatch outside registers =>
    rw [registers.clients]
    obtain old | ⟨rfl, _⟩ := (mem_watching_registers registers).mp registered
    · exact connected bucket ptr old
    · exact ⟨_, occupied⟩
  | released sender client occupied found ends releases =>
    rw [releases.clients]
    exact connected bucket ptr ((releases.watching bucket ptr).mp registered).1
  | connected slot isNext free =>
    obtain ⟨old, inSlot⟩ := connected bucket ptr registered
    -- the new slot was not in use
    have notNew : old ≠ slot := by
      rintro rfl
      have inUse := (wellFormed.inUse old).mp (by simp [inSlot])
      omega
    exact ⟨old, (Function.update_of_ne notNew _ _).trans inSlot⟩
  | disconnected last other isLast occupied =>
    rename_i slot
    obtain ⟨old, inSlot⟩ := connected bucket ptr registered
    have notDropped : old ≠ slot := by
      rintro rfl
      obtain rfl : other = ptr := by simpa [occupied] using inSlot
      exact leaves other occupied bucket registered
    by_cases isLastSlot : old = last
    · subst isLastSlot
      refine ⟨slot, ?_⟩
      simp only [World.drop]
      rw [Function.update_of_ne notDropped.symm, Function.update_self, inSlot]
    · refine ⟨old, ?_⟩
      simp only [World.drop]
      rw [Function.update_of_ne isLastSlot, Function.update_of_ne notDropped, inSlot]

omit [Externals D] in
/-- `notify_watchers` reaches the end of a list of clients that are allocated. -/
theorem forM_markDirty_total {clientList : ClientsWatch} {w : World D}
    (allocated : ∀ ptr, some ptr ∈ clientList → w.heap ptr ≠ none) :
    ∃ t, forM clientList markDirty w = .ok ((), t) := by
  induction clientList generalizing w with
  | nil => exact ⟨w, rfl⟩
  | cons entry clientList inductionHypothesis =>
    rw [List.forM_cons]
    cases entry with
    | none =>
      rw [bind_of_ok (show markDirty none w = .ok ((), w) from rfl)]
      exact inductionHypothesis fun ptr member => allocated ptr (List.mem_cons_of_mem _ member)
    | some ptr =>
      obtain ⟨client, found⟩ := Option.ne_none_iff_exists'.mp (allocated ptr List.mem_cons_self)
      have marks : markDirty (some ptr) w =
          .ok ((), w.setClient ptr { client with isDirty := true }) := updateClient_found found
      rw [bind_of_ok marks]
      refine inductionHypothesis fun other member => ?_
      by_cases same : other = ptr
      · subst same
        simp [World.setClient]
      · have before := allocated other (List.mem_cons_of_mem _ member)
        simpa [World.setClient, same] using before

omit [Externals D] in
theorem notifyWatchers_allocated {w : World D} {key : Bytes}
    (allocated : ∀ bucket ptr, some ptr ∈ w.watching bucket → w.heap ptr ≠ none) :
    notifyWatchers key w ≠ .error .useAfterFree := by
  intro faulty
  unfold notifyWatchers watchersOf at faulty
  rw [bind_assoc] at faulty
  cases inBucket : bucketOf key with
  | none => simp [tableIndex, inBucket, bind_run, fault] at faulty
  | some bucket =>
    obtain ⟨t, marks⟩ := forM_markDirty_total (allocated bucket)
    rw [bind_of_ok (tableIndex_of_bucket inBucket w), bind_assoc, bind_of_ok (observe_run _ w),
      pure_bind] at faulty
    exact absurd (marks.symm.trans faulty) (by simp)

/-- In a run in which no client disconnects while it is registered, every registered client is connected,
and `notify_watchers` uses no freed one. -/
theorem registered_connected {s t : Server D} (entry : AtLoopEntry s)
    (run : Run Step LeavesUnregistered s t) :
    (∀ bucket ptr, some ptr ∈ t.world.watching bucket → ∃ slot : ClientSlot,
      1 ≤ slot.val ∧ slot.val < t.world.activeFds ∧ t.world.clients slot = some ptr) ∧
      ∀ key, notifyWatchers key t.world ≠ .error .useAfterFree := by
  have wellFormed := wellFormed_run run entry.wellFormed
  have connected : RegisteredConnected t :=
    entry.wellFormed.invariant (fun _ _ _ => registeredConnected_step) run
      fun bucket ptr registered => by simp [World.watching, entry.watchers] at registered
  constructor
  · intro bucket ptr registered
    obtain ⟨slot, inSlot⟩ := connected bucket ptr registered
    have inUse := (wellFormed.inUse slot).mp (by simp [inSlot])
    exact ⟨slot, inUse.1, inUse.2, inSlot⟩
  · intro key
    refine notifyWatchers_allocated fun bucket ptr registered => ?_
    obtain ⟨slot, inSlot⟩ := connected bucket ptr registered
    exact wellFormed.allocated slot ptr inSlot

instance (s : Server D) (event : Event) : Decidable (LeavesUnregistered s event) :=
  match event with
  | .disconnect slot => inferInstanceAs (Decidable (∀ ptr ∈ s.world.clients slot,
      ∀ bucket, some ptr ∉ s.world.watching bucket))
  | .poll _ | .timers | .connect _ _ | .request _ _ | .proceed => .isTrue trivial

/-- A client disconnects after UNWATCH. -/
theorem registered_connected_unwatch : ∃ t : Server Int, t.world.activeFds = 1 ∧
    ∀ bucket ptr, some ptr ∈ t.world.watching bucket → ∃ slot : ClientSlot,
      1 ≤ slot.val ∧ slot.val < t.world.activeFds ∧ t.world.clients slot = some ptr := by
  obtain ⟨t, run, disconnected⟩ := exists_run_of_play
    (show (play LeavesUnregistered idleServer
      [.connect 5 0, arrival firstSlot [CString.lit "WATCH", CString.lit "k"],
        arrival firstSlot [CString.lit "UNWATCH"], .disconnect firstSlot]).any
      (fun t => decide (t.world.activeFds = 1)) = true by decide +kernel)
  exact ⟨t, by simpa using disconnected, (registered_connected idleServer_atLoopEntry run).1⟩

/-- A client disconnects while it watches a key. -/
theorem watcher_disconnects :
    ¬ ∀ t : Server Int, Runs idleServer t → ∀ bucket ptr,
      some ptr ∈ t.world.watching bucket → ∃ slot : ClientSlot,
        1 ≤ slot.val ∧ slot.val < t.world.activeFds ∧ t.world.clients slot = some ptr := by
  intro connected
  obtain ⟨t, run, dangling⟩ := exists_run_of_play
    (show (play (fun _ _ => True) idleServer
      [.connect 5 0, arrival firstSlot [CString.lit "WATCH", CString.lit "k"],
        .disconnect firstSlot]).any
      (fun t => decide (t.world.activeFds = 1) &&
        (bucketOf (CString.lit "k")).any fun bucket =>
          decide (some 0 ∈ t.world.watching bucket)) = true by decide +kernel)
  rw [Bool.and_eq_true, decide_eq_true_eq] at dangling
  obtain ⟨bucket, _, registered⟩ := (Option.any_eq_true _ _).mp dangling.2
  obtain ⟨slot, first, last, _⟩ := connected t run bucket 0 (by simpa using registered)
  omega

end RedisClone
