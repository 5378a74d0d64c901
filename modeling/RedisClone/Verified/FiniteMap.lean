import RedisClone.Verified.Store

/-! # `store_set` as a finite map

`Write.perform` is one assignment of the abstract map, with the deadline that the call computes from the clock,
and `store_refines_map` the refinement: whatever calls come after one another, for keys that have a bucket, the
table holds the map that the assignments make.  `Represents` is the relation between the two.
-/

namespace RedisClone

open Exec

variable {D : Type}

/-- A call of `store_set`. -/
structure Write (D : Type) where
  key : Bytes
  value : Value D
  flag : TimeFlags
  seconds : Int

def Write.store (write : Write D) : M D Unit := storeSet write.key write.value write.flag write.seconds

/-! ## The abstract map -/

/-- A map from keys to entries, and the clock that the next deadline is computed from. -/
structure FiniteMap (D : Type) where
  entries : Bytes → Option (Entry D)
  clock : Nat → Int

/-- The deadline of a write: `seconds` or milliseconds from now, and 0 without a time. -/
def Write.deadline (write : Write D) (now : Int) : Int :=
  if write.seconds = -1 then 0
  else
    match write.flag with
    | .ex => now + write.seconds * 1000
    | .px => now + write.seconds
    | _ => 0

/-- The number of times that a write reads the clock. -/
def Write.readings (write : Write D) : Nat := if write.seconds = -1 then 0 else 1

/-- The key is bound to the value, with its deadline. -/
def Write.perform (write : Write D) (map : FiniteMap D) : FiniteMap D where
  entries := Function.update map.entries write.key (some ⟨write.value, write.deadline (map.clock 0)⟩)
  clock n := map.clock (n + write.readings)

/-! ## One call -/

section Write

variable {w w' : World D} {map : FiniteMap D} {write : Write D} {bucket : Bucket}

/-- The state holds the map, and its clock is the one of the map. -/
structure Holds (w : World D) (map : FiniteMap D) : Prop where
  table : Represents bucketOf w.table map.entries
  clock : w.clock = map.clock

theorem Holds.lookup_eq (holds : Holds w map) {key : Bytes} (inBucket : bucketOf key = some bucket) :
    lookup w.table key = .ok (map.entries key) :=
  (lookup_of_bucket inBucket).mpr (holds.table.find inBucket)

theorem expiryOf_run (write : Write D) (w : World D) :
    expiryOf write.flag write.seconds w =
      .ok (write.deadline (w.clock 0), { w with clock := fun n => w.clock (n + write.readings) }) := by
  unfold expiryOf Write.deadline Write.readings
  by_cases untimed : write.seconds = -1
  · simp [untimed]
  · rw [if_pos untimed, if_neg untimed, if_neg untimed,
      bind_of_ok (show getCurrentTimeMs w = .ok (w.clock 0, w.tick) from rfl)]
    cases write.flag <;> rfl

/-- A call of `store_set` makes the assignment. -/
theorem store_holds (holds : Holds w map) (inBucket : bucketOf write.key = some bucket) :
    ∃ w', write.store w = .ok ((), w') ∧ Holds w' (write.perform map) := by
  have timed := expiryOf_run write w
  unfold Write.store storeSet
  rw [bind_of_ok (tableIndex_of_bucket inBucket w), bind_run, storeGetEntry_run, holds.lookup_eq inBucket]
  dsimp only
  rw [bind_of_ok timed, holds.clock]
  cases found : map.entries write.key with
  | none =>
    refine ⟨_, changeBucket_run _ _ _, ?_, ?_⟩
    · exact holds.table.push inBucket found _
    · rfl
  | some entry =>
    refine ⟨_, changeBucket_run _ _ _, ?_, ?_⟩
    · exact holds.table.update inBucket (by simp [found]) _
    · rfl

/-- A call of `store_set` keeps the lookups of the other keys. -/
theorem Holds.frame (holds : Holds w map) (run : write.store w = .ok ((), w')) {key : Bytes}
    (other : key ≠ write.key) : lookup w'.table key = lookup w.table key := by
  obtain ⟨bucket, _, inBucket, _⟩ := storeSet_table run
  obtain ⟨stored, stores, after⟩ := store_holds holds inBucket
  obtain rfl : stored = w' := by simpa [stores] using run
  cases there : bucketOf key with
  | none => simp [lookup, there]
  | some elsewhere =>
    rw [after.lookup_eq there, holds.lookup_eq there]
    exact congrArg Except.ok (Function.update_of_ne other _ _)

end Write

/-! ## All calls -/

/-- The map after these writes. -/
def performAll (writes : List (Write D)) (map : FiniteMap D) : FiniteMap D :=
  writes.foldl (fun map write => write.perform map) map

/-- The map at the start. -/
def FiniteMap.empty (clock : Nat → Int) : FiniteMap D := ⟨fun _ => none, clock⟩

theorem storeAll_holds {writes : List (Write D)} {w : World D} {map : FiniteMap D} (holds : Holds w map)
    (inTable : ∀ write ∈ writes, bucketOf write.key ≠ none) :
    ∃ w', forM writes Write.store w = .ok ((), w') ∧ Holds w' (performAll writes map) := by
  induction writes generalizing w map with
  | nil => exact ⟨w, rfl, holds⟩
  | cons write writes inductionHypothesis =>
    obtain ⟨bucket, inBucket⟩ := Option.ne_none_iff_exists'.mp (inTable write List.mem_cons_self)
    obtain ⟨stored, stores, after⟩ := store_holds holds inBucket
    obtain ⟨w', rest, final⟩ :=
      inductionHypothesis after fun other member => inTable other (List.mem_cons_of_mem _ member)
    exact ⟨w', by rw [List.forM_cons, bind_of_ok stores, rest], final⟩

/-- A key is in the map when a write bound it. -/
theorem performAll_bound {writes : List (Write D)} {map : FiniteMap D} {key : Bytes} :
    (performAll writes map).entries key ≠ none ↔
      map.entries key ≠ none ∨ ∃ write ∈ writes, write.key = key := by
  induction writes generalizing map with
  | nil => simp [performAll]
  | cons write writes inductionHypothesis =>
    refine inductionHypothesis.trans ?_
    by_cases isKey : key = write.key
    · subst isKey
      simp [Write.perform]
    · simp [Write.perform, Function.update_of_ne isKey, Ne.symm isKey]

/-- What the map holds for a key is what the last write to the key bound, and the clock of that write. -/
theorem performAll_last {before after : List (Write D)} {write : Write D} {map : FiniteMap D}
    (isLast : ∀ later ∈ after, later.key ≠ write.key) :
    (performAll (before ++ write :: after) map).entries write.key =
      some ⟨write.value, write.deadline ((performAll before map).clock 0)⟩ := by
  have kept (started : FiniteMap D) :
      (performAll after started).entries write.key = started.entries write.key := by
    induction after generalizing started with
    | nil => rfl
    | cons later after inductionHypothesis =>
      refine (inductionHypothesis (fun other member => isLast other (List.mem_cons_of_mem _ member)) _).trans ?_
      exact Function.update_of_ne (isLast later List.mem_cons_self).symm _ _
  rw [performAll, List.foldl_append, List.foldl_cons]
  exact (kept _).trans (Function.update_self _ _ _)

theorem Holds.getEntry {w : World D} {map : FiniteMap D} (holds : Holds w map) {key : Bytes}
    (inTable : bucketOf key ≠ none) : storeGetEntry key w = .ok (map.entries key, w) := by
  obtain ⟨bucket, inBucket⟩ := Option.ne_none_iff_exists'.mp inTable
  rw [storeGetEntry_run, holds.lookup_eq inBucket]

/-- Calls of `store_set` on an empty table, for keys that have a bucket, end; then every key that was written is
in one node, of its own bucket, `store_getEntry` gives what the last call for the key stored and NULL for the
other keys, and one more call changes the lookup of its own key only. -/
theorem store_refines_map {writes : List (Write D)} {w : World D} (empty : w.table = fun _ => Chain.empty)
    (inTable : ∀ write ∈ writes, bucketOf write.key ≠ none) :
    ∃ w', forM writes Write.store w = .ok ((), w') ∧
      (∀ write ∈ writes, ∃ bucket, bucketOf write.key = some bucket ∧
        ∀ other, (w'.table other).keys.count write.key = if other = bucket then 1 else 0) ∧
      (∀ before write after, writes = before ++ write :: after →
        (∀ later ∈ after, later.key ≠ write.key) → storeGetEntry write.key w' =
          .ok (some ⟨write.value, write.deadline ((performAll before (.empty w.clock)).clock 0)⟩, w')) ∧
      (∀ key, bucketOf key ≠ none → (∀ write ∈ writes, write.key ≠ key) →
        storeGetEntry key w' = .ok (none, w')) ∧
      ∀ (write : Write D) (w'' : World D), write.store w' = .ok ((), w'') → ∀ key, key ≠ write.key →
        lookup w''.table key = lookup w'.table key := by
  -- the empty table holds the empty map, and every write keeps the two together
  have atStart : Holds w (.empty w.clock) := ⟨by rw [empty]; exact .empty, rfl⟩
  obtain ⟨w', stores, holds⟩ := storeAll_holds atStart inTable
  refine ⟨w', stores, fun write member => ?_, fun before write after split isLast => ?_,
    fun key isKey unwritten => ?_, fun write w'' run key other => holds.frame run other⟩
  · obtain ⟨bucket, inBucket⟩ := Option.ne_none_iff_exists'.mp (inTable write member)
    exact ⟨bucket, inBucket,
      holds.table.count inBucket (performAll_bound.mpr (.inr ⟨write, member, rfl⟩))⟩
  · rw [holds.getEntry (inTable write (by simp [split])), split, performAll_last isLast]
  · have absent : (performAll writes (.empty w.clock)).entries key = none := by
      by_contra bound
      obtain started | ⟨write, member, same⟩ := performAll_bound.mp bound
      · exact started rfl
      · exact unwritten write member same
    rw [holds.getEntry isKey, absent]

/-- The keys `a` and `Bc` share a bucket, and `a` is written twice. -/
theorem store_refines_map_colliding : ∃ w' : World Int,
    storeGetEntry (CString.lit "a") w' = .ok (some ⟨.string (CString.lit "3"), 0⟩, w') ∧
      storeGetEntry (CString.lit "b") w' = .ok (none, w') := by
  let set (key value : String) : Write Int := ⟨CString.lit key, .string (CString.lit value), .noTimeFlag, -1⟩
  have inTable : ∀ write ∈ [set "a" "1", set "Bc" "2", set "a" "3"], bucketOf write.key ≠ none := by
    decide +kernel
  obtain ⟨w', _, _, last, unwritten, _⟩ := store_refines_map (w := blankWorld Int) rfl inTable
  refine ⟨w', last [set "a" "1", set "Bc" "2"] (set "a" "3") [] rfl (by simp), unwritten _ ?_ ?_⟩
  · decide +kernel
  · decide +kernel

end RedisClone
