import RedisClone.Verified.Frames

/-! # What WATCH and the end of a watch scope do to the registrations

`watchKey` registers a client in the bucket of one key, and `delete_watched_keys` clears the client
from the buckets of all its keys.  `Registered` relates the registrations to the keys of the clients;
it makes `delete_watched_keys` end normally.
-/

namespace RedisClone

open Exec

variable {D : Type}

/-- The clients registered in a bucket. -/
def World.watching (w : World D) (bucket : Bucket) : ClientsWatch := (w.watchers bucket).getD []

/-! ## Registering -/

/-- A client registered for one more key. -/
def World.register (w : World D) (ptr : ClientPtr) (client : Client) (key : Bytes)
    (bucket : Bucket) : World D :=
  { w with
    heap := Function.update w.heap ptr (some { client with watchKeys := client.watchKeys ++ [key] })
    watchers := Function.update w.watchers bucket (some (w.watching bucket ++ [some ptr])) }

theorem watchKey_run {ptr : ClientPtr} {key : Bytes} {w t : World D}
    (run : watchKey ptr key w = .ok ((), t)) :
    ∃ client bucket, w.heap ptr = some client ∧ bucketOf key = some bucket ∧
      t = w.register ptr client key bucket := by
  unfold watchKey at run
  obtain ⟨client, loaded, load, rest⟩ := bind_eq_ok.mp run
  obtain ⟨found, rfl⟩ := loadClient_eq_ok.mp load
  split at rest
  · simp [fault] at rest
  · rw [bind_of_ok (updateClient_found found)] at rest
    unfold RedisClone.register at rest
    obtain ⟨bucket, indexed, index, afterIndex⟩ := bind_eq_ok.mp rest
    obtain ⟨inBucket, rfl⟩ := tableIndex_eq_ok.mp index
    rw [bind_of_ok (observe_run _ _)] at afterIndex
    split at afterIndex
    · simp [fault] at afterIndex
    · simp only [setWatchers, alter_run, Except.ok.injEq, Prod.mk.injEq, true_and] at afterIndex
      exact ⟨client, bucket, found, inBucket, afterIndex.symm⟩

theorem watching_register_self (w : World D) (ptr : ClientPtr) (client : Client) (key : Bytes)
    (bucket : Bucket) :
    (w.register ptr client key bucket).watching bucket = w.watching bucket ++ [some ptr] := by
  simp [World.watching, World.register]

theorem watching_register_of_ne (w : World D) (ptr : ClientPtr) (client : Client) (key : Bytes)
    {bucket other : Bucket} (distinct : other ≠ bucket) :
    (w.register ptr client key bucket).watching other = w.watching other := by
  simp [World.watching, World.register, distinct]

/-! ## Clearing -/

/-- Clear a client from a list. -/
def clearSlots (ptr : ClientPtr) (clientList : ClientsWatch) : ClientsWatch :=
  clientList.map fun slot => if slot = some ptr then none else slot

theorem mem_clearSlots {ptr other : ClientPtr} {clientList : ClientsWatch} :
    some other ∈ clearSlots ptr clientList ↔ some other ∈ clientList ∧ other ≠ ptr := by
  simp only [clearSlots, List.mem_map]
  constructor
  · rintro ⟨slot, member, same⟩
    split at same
    · simp at same
    · rename_i distinct
      subst same
      exact ⟨member, fun isPtr => distinct (by rw [isPtr])⟩
  · rintro ⟨member, distinct⟩
    exact ⟨some other, member, by simp [distinct]⟩

theorem count_clearSlots_le (ptr other : ClientPtr) (clientList : ClientsWatch) :
    (clearSlots ptr clientList).count (some other) ≤ clientList.count (some other) := by
  induction clientList with
  | nil => simp [clearSlots]
  | cons slot clientList inductionHypothesis =>
    have front : clearSlots ptr (slot :: clientList) =
        (if slot = some ptr then none else slot) :: clearSlots ptr clientList := rfl
    rw [front]
    split
    · rw [List.count_cons_of_ne (by simp)]
      exact inductionHypothesis.trans List.count_le_count_cons
    · rw [List.count_cons, List.count_cons]
      omega

def World.clear (w : World D) (ptr : ClientPtr) (key : Bytes) : World D :=
  { w with
    watchers := fun bucket =>
      if bucketOf key = some bucket then (w.watchers bucket).map (clearSlots ptr)
      else w.watchers bucket }

theorem watching_clear (w : World D) (ptr : ClientPtr) (key : Bytes) (bucket : Bucket) :
    (w.clear ptr key).watching bucket =
      if bucketOf key = some bucket then clearSlots ptr (w.watching bucket)
      else w.watching bucket := by
  unfold World.watching World.clear
  dsimp only
  split
  · cases w.watchers bucket <;> rfl
  · rfl

/-- Nothing is cleared from a bucket in which nothing was ever watched. -/
theorem clear_of_unlisted {w : World D} {ptr : ClientPtr} {key : Bytes} {bucket : Bucket}
    (inBucket : bucketOf key = some bucket) (unlisted : w.watchers bucket = none) :
    w.clear ptr key = w := by
  have same : (w.clear ptr key).watchers = w.watchers := by
    funext other
    unfold World.clear
    dsimp only
    split
    · rename_i here
      obtain rfl : bucket = other := by simpa [inBucket] using here
      rw [unlisted]
      rfl
    · rfl
  calc w.clear ptr key = { w with watchers := (w.clear ptr key).watchers } := rfl
    _ = w := by rw [same]

theorem setWatchers_clear {w : World D} {ptr : ClientPtr} {key : Bytes} {bucket : Bucket}
    {clientList : ClientsWatch} (inBucket : bucketOf key = some bucket)
    (listed : w.watchers bucket = some clientList) :
    setWatchers bucket (clearSlots ptr clientList) w = .ok ((), w.clear ptr key) := by
  unfold setWatchers World.clear
  rw [alter_run]
  congr 3
  funext other
  by_cases same : other = bucket
  · subst same; simp [inBucket, listed]
  · have elsewhere : bucketOf key ≠ some other := by
      rw [inBucket]
      simpa [eq_comm] using same
    simp [same, elsewhere]

theorem deregister_run {ptr : ClientPtr} {key : Bytes} {w t : World D}
    (run : deregister ptr key w = .ok ((), t)) : t = w.clear ptr key := by
  unfold deregister at run
  obtain ⟨bucket, indexed, index, rest⟩ := bind_eq_ok.mp run
  obtain ⟨inBucket, rfl⟩ := tableIndex_eq_ok.mp index
  rw [bind_of_ok (observe_run _ _)] at rest
  cases listed : indexed.watchers bucket with
  | none =>
    simp only [listed, pure_run, Except.ok.injEq, Prod.mk.injEq, true_and] at rest
    rw [← rest, clear_of_unlisted inBucket listed]
  | some clientList =>
    simp only [listed] at rest
    split at rest
    · simp [fault] at rest
    · rw [show (clientList.map fun slot => if slot = some ptr then none else slot) =
        clearSlots ptr clientList from rfl, setWatchers_clear inBucket listed] at rest
      simpa [eq_comm] using rest

/-- The client is freed at most once for a key in whose bucket it is registered at most once. -/
theorem deregister_total {ptr : ClientPtr} {key : Bytes} {w : World D} {bucket : Bucket}
    (inBucket : bucketOf key = some bucket)
    (once : (w.watching bucket).count (some ptr) ≤ 1) :
    deregister ptr key w = .ok ((), w.clear ptr key) := by
  unfold deregister
  rw [bind_of_ok (tableIndex_of_bucket inBucket w), bind_of_ok (observe_run _ _)]
  cases listed : w.watchers bucket with
  | none =>
    rw [clear_of_unlisted inBucket listed]
    rfl
  | some clientList =>
    have few : ¬ 1 < clientList.count (some ptr) := by
      simp only [World.watching, listed, Option.getD_some] at once
      omega
    simp only [few, if_false]
    exact setWatchers_clear inBucket listed

def World.clearAll (w : World D) (ptr : ClientPtr) (keys : List Bytes) : World D :=
  keys.foldl (fun w key => w.clear ptr key) w

theorem heap_clearAll (w : World D) (ptr : ClientPtr) (keys : List Bytes) :
    (w.clearAll ptr keys).heap = w.heap := by
  induction keys generalizing w with
  | nil => rfl
  | cons key keys inductionHypothesis => exact inductionHypothesis (w.clear ptr key)

theorem sent_clearAll (w : World D) (ptr : ClientPtr) (keys : List Bytes) :
    (w.clearAll ptr keys).sent = w.sent := by
  induction keys generalizing w with
  | nil => rfl
  | cons key keys inductionHypothesis => exact inductionHypothesis (w.clear ptr key)

theorem mem_watching_clearAll {w : World D} {ptr other : ClientPtr} {keys : List Bytes}
    {bucket : Bucket} :
    some other ∈ (w.clearAll ptr keys).watching bucket ↔
      some other ∈ w.watching bucket ∧ ¬ (other = ptr ∧ ∃ key ∈ keys, bucketOf key = some bucket) := by
  induction keys generalizing w with
  | nil => simp [World.clearAll]
  | cons key keys inductionHypothesis =>
    rw [World.clearAll, List.foldl_cons]
    refine inductionHypothesis.trans ?_
    rw [watching_clear]
    by_cases here : bucketOf key = some bucket
    · rw [if_pos here, mem_clearSlots]
      simp only [List.mem_cons, exists_eq_or_imp, here, true_or, and_true]
      tauto
    · rw [if_neg here]
      simp only [List.mem_cons, exists_eq_or_imp, here, false_or]

theorem count_watching_clearAll_le (w : World D) (ptr other : ClientPtr) (keys : List Bytes)
    (bucket : Bucket) :
    ((w.clearAll ptr keys).watching bucket).count (some other) ≤
      (w.watching bucket).count (some other) := by
  induction keys generalizing w with
  | nil => exact le_rfl
  | cons key keys inductionHypothesis =>
    refine (inductionHypothesis (w.clear ptr key)).trans ?_
    rw [watching_clear]
    split
    · exact count_clearSlots_le _ _ _
    · exact le_rfl

theorem forM_deregister_run {ptr : ClientPtr} {keys : List Bytes} {w t : World D}
    (run : forM keys (deregister ptr) w = .ok ((), t)) : t = w.clearAll ptr keys := by
  induction keys generalizing w with
  | nil =>
    simp only [List.forM_nil, pure_run, Except.ok.injEq, Prod.mk.injEq, true_and] at run
    exact run.symm
  | cons key keys inductionHypothesis =>
    rw [List.forM_cons] at run
    obtain ⟨_, cleared, first, rest⟩ := bind_eq_ok.mp run
    rw [inductionHypothesis rest, deregister_run first]
    rfl

theorem forM_deregister_total {ptr : ClientPtr} {keys : List Bytes} {w : World D}
    (indexed : ∀ key ∈ keys, bucketOf key ≠ none)
    (once : ∀ key ∈ keys, ∀ bucket, bucketOf key = some bucket → (w.watching bucket).count (some ptr) ≤ 1) :
    forM keys (deregister ptr) w = .ok ((), w.clearAll ptr keys) := by
  induction keys generalizing w with
  | nil => rfl
  | cons key keys inductionHypothesis =>
    obtain ⟨bucket, inBucket⟩ := Option.ne_none_iff_exists'.mp (indexed key List.mem_cons_self)
    rw [List.forM_cons, bind_of_ok (deregister_total inBucket (once key List.mem_cons_self bucket inBucket))]
    refine inductionHypothesis (fun other member => indexed other (List.mem_cons_of_mem _ member)) ?_
    intro other member bucket inBucket
    exact (count_watching_clearAll_le w ptr ptr [key] bucket).trans
      (once other (List.mem_cons_of_mem _ member) bucket inBucket)

/-- The client after `delete_watched_keys`. -/
def Client.unwatched (client : Client) : Client := { client with watchKeys := [], isDirty := false }

/-- The state after `delete_watched_keys`. -/
def World.release (w : World D) (ptr : ClientPtr) (client : Client) : World D :=
  (w.clearAll ptr client.watchKeys).setClient ptr client.unwatched

theorem deleteWatchedKeys_run {ptr : ClientPtr} {w t : World D}
    (run : deleteWatchedKeys ptr w = .ok ((), t)) :
    ∃ client, w.heap ptr = some client ∧ t = w.release ptr client := by
  unfold deleteWatchedKeys at run
  obtain ⟨client, loaded, load, rest⟩ := bind_eq_ok.mp run
  obtain ⟨found, rfl⟩ := loadClient_eq_ok.mp load
  obtain ⟨_, cleared, clears, update⟩ := bind_eq_ok.mp rest
  obtain rfl := forM_deregister_run clears
  obtain ⟨client', found', rfl⟩ := updateClient_eq_ok.mp update
  rw [heap_clearAll] at found'
  obtain rfl : client = client' := by simpa [found] using found'
  exact ⟨client, found, rfl⟩

/-- Each key of the client has a bucket, which holds the client at most once. -/
structure Releasable (w : World D) (ptr : ClientPtr) (client : Client) : Prop where
  indexed : ∀ key ∈ client.watchKeys, bucketOf key ≠ none
  once : ∀ key ∈ client.watchKeys, ∀ bucket, bucketOf key = some bucket → (w.watching bucket).count (some ptr) ≤ 1

theorem deleteWatchedKeys_total {ptr : ClientPtr} {client : Client} {w : World D}
    (found : w.heap ptr = some client) (releasable : Releasable w ptr client) :
    deleteWatchedKeys ptr w = .ok ((), w.release ptr client) := by
  unfold deleteWatchedKeys
  rw [bind_of_ok (loadClient_found found), bind_of_ok (forM_deregister_total releasable.indexed releasable.once)]
  exact updateClient_found (by rw [heap_clearAll, found])

/-! ## What transactions and WATCH leave alone -/

/-- Two states with the same table, append-only file and logs. -/
structure SameData (w w' : World D) : Prop where
  table : w'.table = w.table
  executed : w'.executed = w.executed
  files : w'.files = w.files
  passed : w'.passed = w.passed

theorem SameData.refl (w : World D) : SameData w w := ⟨rfl, rfl, rfl, rfl⟩

theorem SameData.trans {w w' w'' : World D} (before : SameData w w') (after : SameData w' w'') :
    SameData w w'' where
  table := after.table.trans before.table
  executed := after.executed.trans before.executed
  files := after.files.trans before.files
  passed := after.passed.trans before.passed

theorem sameData_emit (w : World D) (fd : Int) (bytes : Bytes) : SameData w (w.emit fd bytes) :=
  ⟨rfl, rfl, rfl, rfl⟩

theorem sameData_setClient (w : World D) (ptr : ClientPtr) (client : Client) :
    SameData w (w.setClient ptr client) := ⟨rfl, rfl, rfl, rfl⟩

theorem sameData_clearAll (w : World D) (ptr : ClientPtr) (keys : List Bytes) :
    SameData w (w.clearAll ptr keys) := by
  induction keys generalizing w with
  | nil => exact .refl w
  | cons key keys inductionHypothesis =>
    have cleared : SameData w (w.clear ptr key) := ⟨rfl, rfl, rfl, rfl⟩
    exact cleared.trans (inductionHypothesis (w.clear ptr key))

theorem deleteWatchedKeys_sameData {ptr : ClientPtr} {w t : World D}
    (run : deleteWatchedKeys ptr w = .ok ((), t)) : SameData w t := by
  obtain ⟨client, _, rfl⟩ := deleteWatchedKeys_run run
  exact (sameData_clearAll w ptr _).trans (sameData_setClient _ ptr _)

theorem forM_watchKey_sameData {ptr : ClientPtr} {keys : List Bytes} {w t : World D}
    (run : forM keys (watchKey ptr) w = .ok ((), t)) : SameData w t := by
  induction keys generalizing w with
  | nil =>
    simp only [List.forM_nil, pure_run, Except.ok.injEq, Prod.mk.injEq, true_and] at run
    exact run ▸ .refl w
  | cons key keys inductionHypothesis =>
    rw [List.forM_cons] at run
    obtain ⟨_, registered, first, rest⟩ := bind_eq_ok.mp run
    obtain ⟨client, bucket, _, _, rfl⟩ := watchKey_run first
    have registers : SameData w (w.register ptr client key bucket) := ⟨rfl, rfl, rfl, rfl⟩
    exact registers.trans (inductionHypothesis rest)

/-- A call of `handle` that runs no arm changes no data. -/
theorem Handled.sameData [Externals D] {req : RespRequest} {ptr : ClientPtr} {client : Client}
    {w w' : World D} (handles : Handled w req ptr client w')
    (unreached : reachesArm client req = false) : SameData w w' := by
  cases handles with
  | queued ordinary inMulti room => exact (sameData_setClient w ptr _).trans (sameData_emit _ _ _)
  | opened isMulti outside => exact (sameData_setClient w ptr _).trans (sameData_emit _ _ _)
  | refused text reason => exact sameData_emit w _ _
  | ignored isWatch noKey => exact .refl w
  | watched isWatch outside run => exact (forM_watchKey_sameData run).trans (sameData_emit _ _ _)
  | unwatched fd isUnwatch run =>
    exact (deleteWatchedKeys_sameData run).trans (sameData_emit _ _ _)
  | left reply inMulti isEnd run =>
    exact (sameData_setClient w ptr _).trans
      ((deleteWatchedKeys_sameData run).trans (sameData_emit _ _ _))
  | dispatched reaches run => simp [reaches] at unreached

end RedisClone
