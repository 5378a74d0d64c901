import RedisClone.Verified.Watching

/-! # What `delete_watched_keys` frees

Its inner loop frees the key once for every slot of the bucket that holds the client, and clears those slots.
`freesOf` counts the frees of each key, also past the second one at which `deregister` faults.  After any sequence of
WATCH requests the client is in a bucket once for every key of the bucket that it watches (`Tallied`), so the first of
these keys is freed for all of them and the others are not freed at all.
-/

namespace RedisClone

open Exec CString

variable {D : Type}

/-! ## Counting the frees -/

/-- The inner loop of `delete_watched_keys`: the slots it leaves, and how many times it frees the key. -/
def freeLoop (ptr : ClientPtr) : ClientsWatch → ClientsWatch × Nat
  | [] => ([], 0)
  | slot :: slots =>
    let rest := freeLoop ptr slots
    if slot = some ptr then (none :: rest.1, rest.2 + 1) else (slot :: rest.1, rest.2)

/-- How many times `delete_watched_keys` frees each of these keys. -/
def freesOf (ptr : ClientPtr) : List Bytes → World D → List Nat
  | [], _ => []
  | key :: keys, w =>
    (bucketOf key).elim 0 (fun bucket => (freeLoop ptr (w.watching bucket)).2) :: freesOf ptr keys (w.clear ptr key)

theorem freeLoop_eq (ptr : ClientPtr) (clientList : ClientsWatch) :
    freeLoop ptr clientList = (clearSlots ptr clientList, clientList.count (some ptr)) := by
  induction clientList with
  | nil => rfl
  | cons slot clientList inductionHypothesis =>
    rw [freeLoop, inductionHypothesis]
    by_cases isClient : slot = some ptr
    · subst isClient
      simp [clearSlots]
    · simp [clearSlots, isClient, List.count_cons_of_ne isClient]

theorem freesOf_cons {ptr : ClientPtr} {key : Bytes} {bucket : Bucket} (inBucket : bucketOf key = some bucket)
    (keys : List Bytes) (w : World D) : freesOf ptr (key :: keys) w =
      (w.watching bucket).count (some ptr) :: freesOf ptr keys (w.clear ptr key) := by
  rw [freesOf, inBucket, Option.elim_some, freeLoop_eq]

/-- The round of one key ends exactly when it frees the key at most once. -/
theorem deregister_ok_iff {ptr : ClientPtr} {key : Bytes} {bucket : Bucket} {w t : World D}
    (inBucket : bucketOf key = some bucket) : deregister ptr key w = .ok ((), t) ↔
      (w.watching bucket).count (some ptr) ≤ 1 ∧ t = w.clear ptr key := by
  constructor
  · intro run
    refine ⟨?_, deregister_run run⟩
    by_contra twice
    unfold deregister at run
    rw [bind_of_ok (tableIndex_of_bucket inBucket w), bind_of_ok (observe_run _ w)] at run
    cases listed : w.watchers bucket with
    | none => simp [World.watching, listed] at twice
    | some clientList =>
      have many : 1 < clientList.count (some ptr) := by simpa [World.watching, listed] using twice
      simp [listed, many, fault] at run
  · rintro ⟨once, rfl⟩
    exact deregister_total inBucket once

theorem forM_deregister_ok_iff {ptr : ClientPtr} {keys : List Bytes} {w t : World D}
    (indexed : ∀ key ∈ keys, bucketOf key ≠ none) : forM keys (deregister ptr) w = .ok ((), t) ↔
      (∀ n ∈ freesOf ptr keys w, n ≤ 1) ∧ t = w.clearAll ptr keys := by
  induction keys generalizing w with
  | nil => simp [freesOf, World.clearAll, eq_comm]
  | cons key keys inductionHypothesis =>
    obtain ⟨bucket, inBucket⟩ := Option.ne_none_iff_exists'.mp (indexed key List.mem_cons_self)
    have rest {w : World D} := @inductionHypothesis w fun other member => indexed other (List.mem_cons_of_mem _ member)
    rw [List.forM_cons, bind_eq_ok, freesOf_cons inBucket, List.forall_mem_cons, and_assoc]
    constructor
    · rintro ⟨_, cleared, first, run⟩
      obtain ⟨once, rfl⟩ := (deregister_ok_iff inBucket).mp first
      exact ⟨once, rest.mp run⟩
    · rintro ⟨once, others⟩
      exact ⟨(), w.clear ptr key, (deregister_ok_iff inBucket).mpr ⟨once, rfl⟩, rest.mpr others⟩

/-! ## What a sequence of WATCH requests leaves -/

/-- WATCH requests of any clients, one after another. -/
def watchAll (requests : List (ClientPtr × RespRequest)) : M D Unit :=
  forM requests fun request => handleWatch request.2 request.1

/-- The client is in every bucket as often as it watches keys of the bucket. -/
structure Tallied (ptr : ClientPtr) (client : Client) (w : World D) : Prop where
  found : w.heap ptr = some client
  indexed : ∀ key ∈ client.watchKeys, bucketOf key ≠ none
  counted : ∀ bucket, (w.watching bucket).count (some ptr) =
    client.watchKeys.countP fun key => bucketOf key = some bucket

/-- A client that was just accepted, or released from all its keys. -/
structure WatchesNothing (ptr : ClientPtr) (w : World D) : Prop where
  found : ∃ client, w.heap ptr = some client ∧ client.watchKeys = []
  unlisted : ∀ bucket, some ptr ∉ w.watching bucket

theorem WatchesNothing.tallied {ptr : ClientPtr} {w : World D} (nothing : WatchesNothing ptr w) :
    ∃ client, Tallied ptr client w := by
  obtain ⟨client, found, empty⟩ := nothing.found
  refine ⟨client, found, by simp [empty], fun bucket => ?_⟩
  rw [empty, List.count_eq_zero.mpr (nothing.unlisted bucket)]
  rfl

theorem handleWatch_run {req : RespRequest} {sender : ClientPtr} {w t : World D}
    (run : handleWatch req sender w = .ok ((), t)) :
    t = w ∨ ∃ client, w.heap sender = some client ∧ ∃ fd text,
      (t = w.emit fd text ∨ ∃ w', Registers sender client req.args w w' ∧ t = w'.emit fd text) := by
  unfold handleWatch at run
  split at run
  · simp only [pure_run, Except.ok.injEq, Prod.mk.injEq, true_and] at run
    exact .inl run.symm
  · obtain ⟨client, loaded, load, rest⟩ := bind_eq_ok.mp run
    obtain ⟨found, rfl⟩ := loadClient_eq_ok.mp load
    refine .inr ⟨client, found, client.fd, ?_⟩
    split at rest
    · exact ⟨_, .inl (send_run rest)⟩
    · obtain ⟨_, w', registers, reply⟩ := bind_eq_ok.mp rest
      exact ⟨_, .inr ⟨w', forM_watchKey_run found registers, send_run reply⟩⟩

theorem Tallied.registers {ptr sender : ClientPtr} {client watcher : Client} {keys : List Bytes} {w w' : World D}
    (tallied : Tallied ptr client w) (watches : w.heap sender = some watcher)
    (registers : Registers sender watcher keys w w') : ∃ client', Tallied ptr client' w' := by
  by_cases isSender : sender = ptr
  -- both sides grow by the keys of the bucket
  · subst isSender
    obtain rfl : client = watcher := by simpa [tallied.found] using watches
    refine ⟨{ client with watchKeys := client.watchKeys ++ keys }, by simp [registers.heap], ?_, fun bucket => ?_⟩
    · intro key member
      obtain old | new := List.mem_append.mp member
      · exact tallied.indexed key old
      · exact registers.indexed key new
    · rw [registers.watching, List.count_append, List.count_replicate_self, tallied.counted, List.countP_append]
  · refine ⟨client, ?_, tallied.indexed, fun bucket => ?_⟩
    · rw [registers.heap, Function.update_of_ne (Ne.symm isSender)]
      exact tallied.found
    · rw [count_watching_registers_of_ne registers (Ne.symm isSender)]
      exact tallied.counted bucket

theorem Tallied.handleWatch {ptr sender : ClientPtr} {client : Client} {req : RespRequest} {w t : World D}
    (tallied : Tallied ptr client w) (run : RedisClone.handleWatch req sender w = .ok ((), t)) :
    ∃ client', Tallied ptr client' t := by
  obtain rfl | ⟨watcher, watches, fd, text, rfl | ⟨w', registers, rfl⟩⟩ := handleWatch_run run
  · exact ⟨client, tallied⟩
  · exact ⟨client, tallied.found, tallied.indexed, tallied.counted⟩
  · obtain ⟨client', after⟩ := tallied.registers watches registers
    exact ⟨client', after.found, after.indexed, after.counted⟩

theorem Tallied.watchAll {ptr : ClientPtr} {client : Client} {requests : List (ClientPtr × RespRequest)} {w t : World D}
    (tallied : Tallied ptr client w) (run : RedisClone.watchAll requests w = .ok ((), t)) :
    ∃ client', Tallied ptr client' t := by
  induction requests generalizing client w with
  | nil =>
    simp only [RedisClone.watchAll, List.forM_nil, pure_run, Except.ok.injEq, Prod.mk.injEq, true_and] at run
    exact ⟨client, run ▸ tallied⟩
  | cons request requests inductionHypothesis =>
    rw [RedisClone.watchAll, List.forM_cons] at run
    obtain ⟨_, w', first, rest⟩ := bind_eq_ok.mp run
    obtain ⟨client', after⟩ := tallied.handleWatch first
    exact inductionHypothesis after rest

/-! ## Each key once -/

/-- Every watched key is freed exactly once, and in every list the slots of the client become NULL and no others. -/
structure FreesOnce (ptr : ClientPtr) (w : World D) : Prop where
  frees : ∀ client, w.heap ptr = some client → freesOf ptr client.watchKeys w = client.watchKeys.map fun _ => 1
  clears : ∃ t, deleteWatchedKeys ptr w = .ok ((), t) ∧ ∀ bucket, t.watching bucket = clearSlots ptr (w.watching bucket)

/-- While a client is in the buckets of its keys only, each key is freed once exactly when no two keys share a
bucket. -/
theorem freesOf_once_iff {ptr : ClientPtr} {keys : List Bytes} {w : World D} (indexed : ∀ key ∈ keys, bucketOf key ≠ none)
    (counted : ∀ bucket, (w.watching bucket).count (some ptr) = keys.countP fun key => bucketOf key = some bucket) :
    freesOf ptr keys w = (keys.map fun _ => 1) ↔ (keys.map bucketOf).Nodup := by
  induction keys generalizing w with
  | nil => simp [freesOf]
  | cons key keys inductionHypothesis =>
    obtain ⟨bucket, inBucket⟩ := Option.ne_none_iff_exists'.mp (indexed key List.mem_cons_self)
    have here : (w.watching bucket).count (some ptr) = (keys.countP fun other => bucketOf other = some bucket) + 1 := by
      rw [counted bucket, List.countP_cons, if_pos (by simpa using inBucket)]
    have alone : bucketOf key ∉ keys.map bucketOf ↔ (keys.countP fun other => bucketOf other = some bucket) = 0 := by
      rw [List.countP_eq_zero, inBucket]
      simp
    rw [freesOf_cons inBucket, List.map_cons, List.map_cons, List.nodup_cons, alone, here, List.cons.injEq,
      Nat.add_eq_right]
    refine and_congr_right fun none => ?_
    -- the first key took the client out of its bucket, in which no other key is
    refine inductionHypothesis (fun other member => indexed other (List.mem_cons_of_mem _ member)) fun other => ?_
    rw [watching_clear]
    by_cases same : bucketOf key = some other
    · obtain rfl : bucket = other := by simpa [inBucket] using same
      rw [if_pos same, none, List.count_eq_zero]
      exact fun member => (mem_clearSlots.mp member).2 rfl
    · rw [if_neg same, counted other, List.countP_cons, if_neg (by simpa using same), Nat.add_zero]

theorem clearSlots_of_unlisted {ptr : ClientPtr} {clientList : ClientsWatch} (unlisted : some ptr ∉ clientList) :
    clearSlots ptr clientList = clientList := by
  refine (List.map_congr_left fun slot member => if_neg ?_).trans (List.map_id _)
  rintro rfl
  exact unlisted member

/-- Where the client is in the buckets of its keys only, the lists lose its slots and nothing else. -/
theorem watching_clearAll {ptr : ClientPtr} {keys : List Bytes} {w : World D} {bucket : Bucket}
    (covered : some ptr ∈ w.watching bucket → ∃ key ∈ keys, bucketOf key = some bucket) :
    (w.clearAll ptr keys).watching bucket = clearSlots ptr (w.watching bucket) := by
  induction keys generalizing w with
  | nil =>
    have unlisted : some ptr ∉ w.watching bucket := fun member => by simpa using covered member
    exact (clearSlots_of_unlisted unlisted).symm
  | cons key keys inductionHypothesis =>
    have cleared := @inductionHypothesis (w.clear ptr key)
    rw [watching_clear] at cleared
    rw [World.clearAll, List.foldl_cons, ← World.clearAll]
    by_cases here : bucketOf key = some bucket
    · have gone : some ptr ∉ clearSlots ptr (w.watching bucket) := fun member => (mem_clearSlots.mp member).2 rfl
      rw [if_pos here] at cleared
      rw [cleared fun member => absurd member gone, clearSlots_of_unlisted gone]
    · rw [if_neg here] at cleared
      refine cleared fun member => ?_
      obtain ⟨other, inKeys, inBucket⟩ := covered member
      obtain rfl | inRest := List.mem_cons.mp inKeys
      · exact absurd inBucket here
      · exact ⟨other, inRest, inBucket⟩

theorem Tallied.freesOnce_iff {ptr : ClientPtr} {client : Client} {w : World D} (tallied : Tallied ptr client w) :
    FreesOnce ptr w ↔ (client.watchKeys.map bucketOf).Nodup := by
  rw [← freesOf_once_iff tallied.indexed tallied.counted]
  constructor
  · exact fun once => once.frees client tallied.found
  · intro frees
    have clears : forM client.watchKeys (deregister ptr) w = .ok ((), w.clearAll ptr client.watchKeys) := by
      refine (forM_deregister_ok_iff tallied.indexed).mpr ⟨fun n member => ?_, rfl⟩
      rw [frees] at member
      obtain ⟨_, _, rfl⟩ := List.mem_map.mp member
      exact le_rfl
    refine ⟨fun other found => ?_, w.release ptr client, ?_, fun bucket => ?_⟩
    · obtain rfl : client = other := by simpa [tallied.found] using found
      exact frees
    · unfold deleteWatchedKeys
      rw [bind_of_ok (loadClient_found tallied.found), bind_of_ok clears]
      exact updateClient_found (by rw [heap_clearAll, tallied.found])
    · refine watching_clearAll fun member => ?_
      have positive := List.count_pos_iff.mpr member
      rw [tallied.counted, List.countP_pos_iff] at positive
      simpa using positive

theorem watched_freed_once_iff {ptr : ClientPtr} {requests : List (ClientPtr × RespRequest)} {w t : World D}
    (nothing : WatchesNothing ptr w) (run : watchAll requests w = .ok ((), t)) :
    FreesOnce ptr t ↔ ∀ client, t.heap ptr = some client → (client.watchKeys.map bucketOf).Nodup := by
  obtain ⟨before, start⟩ := nothing.tallied
  obtain ⟨client, tallied⟩ := start.watchAll run
  rw [tallied.freesOnce_iff]
  constructor
  · intro distinct other found
    obtain rfl : client = other := by simpa [tallied.found] using found
    exact distinct
  · exact fun distinct => distinct client tallied.found

/-! ## Two keys, and one key twice -/

/-- Two clients are connected and watch nothing. -/
def twoIdle : World Int := ((blankWorld Int).accept firstSlot 5 0).accept secondSlot 6 1

theorem twoIdle_watchesNothing : WatchesNothing 0 twoIdle :=
  ⟨⟨newClient 5, rfl, rfl⟩, fun bucket member => by simp [twoIdle, World.watching, World.accept, blankWorld, bootWorld] at member⟩

/-- WATCH of two keys of two buckets, in one of which there is another client also. -/
def watchTwoBuckets : List (ClientPtr × RespRequest) :=
  [(1, requestOf [lit "WATCH", lit "a"]), (0, requestOf [lit "WATCH", lit "a", lit "b"])]

theorem watched_freed_once_two : ∃ t, watchAll watchTwoBuckets twoIdle = .ok ((), t) ∧ FreesOnce 0 t := by
  have ends : endsIn (watchAll watchTwoBuckets) twoIdle (fun t => (t.heap 0).all fun client =>
      decide ((client.watchKeys.map bucketOf).Nodup)) = true := by decide +kernel
  obtain ⟨t, run, distinct⟩ := exists_ok_of_endsIn ends
  refine ⟨t, run, (watched_freed_once_iff twoIdle_watchesNothing run).mpr fun client found => ?_⟩
  simpa [found] using distinct

/-- After WATCH of the same key twice the key is freed twice. -/
theorem repeated_key_freed_twice : ¬ ∀ (requests : List (ClientPtr × RespRequest)) (t : World Int),
    watchAll requests twoIdle = .ok ((), t) → FreesOnce 0 t := by
  intro once
  have ends : endsIn (watchAll [(0, requestOf [lit "WATCH", lit "k", lit "k"])]) twoIdle
      (fun t => !endsIn (deleteWatchedKeys 0) t fun _ => true) = true := by decide +kernel
  obtain ⟨t, run, faults⟩ := exists_ok_of_endsIn ends
  obtain ⟨u, released, _⟩ := (once _ t run).clears
  rw [endsIn, released] at faults
  simp at faults

end RedisClone
