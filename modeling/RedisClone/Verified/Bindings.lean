import RedisClone.Verified.Frames

/-! # Which entry a key is bound to

`binding` is the entry of the first node with a key.  The writers bind their key in one of three ways
(`Stores`): they change the node of the key, link a node in front of the chain, or overwrite the first
node.  `binding_stores_iff` says exactly whose bindings each of them changes.
-/

namespace RedisClone

open Exec

variable {D : Type}

/-! ## Bindings -/

/-- The entry of the first node with the key. -/
def binding (table : Table D) (key : Bytes) : Option (Entry D) :=
  (bucketOf key).bind fun bucket => (table bucket).value? key

theorem binding_of_bucket {table : Table D} {key : Bytes} {bucket : Bucket}
    (inBucket : bucketOf key = some bucket) : binding table key = (table bucket).value? key := by
  simp [binding, inBucket]

theorem binding_of_lookup {table : Table D} {key : Bytes} {entry : Option (Entry D)}
    (found : lookup table key = .ok entry) : binding table key = entry := by
  cases inBucket : bucketOf key with
  | none => simp [lookup, inBucket] at found
  | some bucket =>
    rw [lookup_of_bucket inBucket] at found
    rw [binding_of_bucket inBucket]
    exact Chain.find_eq_ok found

theorem lookup_of_binding {table : Table D} {key : Bytes} {entry : Entry D}
    (bound : binding table key = some entry) : lookup table key = .ok (some entry) := by
  obtain ⟨bucket, inBucket, found⟩ := Option.bind_eq_some_iff.mp bound
  exact (lookup_of_bucket inBucket).mpr (Chain.find_of_value found)

/-- The elements of an entry; an entry of another type, or none at all, has no elements. -/
def elementsOf : Option (Entry D) → List Bytes
  | some ⟨.list values, _⟩ => values
  | _ => []

/-- The elements of the list that a key is bound to. -/
def elements (table : Table D) (key : Bytes) : List Bytes := elementsOf (binding table key)

theorem elements_of_list {table : Table D} {key : Bytes} {values : List Bytes} {expiresAt : Int}
    (bound : binding table key = some ⟨.list values, expiresAt⟩) : elements table key = values := by
  simp [elements, elementsOf, bound]

theorem elements_of_unbound {table : Table D} {key : Bytes} (unbound : binding table key = none) :
    elements table key = [] := by
  simp [elements, elementsOf, unbound]

theorem binding_update_of_ne {table : Table D} {other : Bytes} {bucket : Bucket}
    (chain : Chain Bytes (Entry D)) (elsewhere : bucketOf other ≠ some bucket) :
    binding (Function.update table bucket chain) other = binding table other := by
  unfold binding
  cases inOther : bucketOf other with
  | none => rfl
  | some found =>
    have distinct : found ≠ bucket := by
      rintro rfl
      exact elsewhere inOther
    simp [Function.update_of_ne distinct]

theorem binding_update_of_bucket {table : Table D} {other : Bytes} {bucket : Bucket}
    (chain : Chain Bytes (Entry D)) (here : bucketOf other = some bucket) :
    binding (Function.update table bucket chain) other = chain.value? other := by
  rw [binding_of_bucket here, Function.update_self]

/-! ## Writes -/

/-- A write that overwrites the first node of the key's bucket loses the entry of the other key. -/
def LosesFirst (table : Table D) (key other : Bytes) : Prop :=
  other ≠ key ∧ bucketOf other = bucketOf key ∧ ∃ bucket ∈ bucketOf key,
    (table bucket).nodes.head?.map Prod.fst = some other ∧
      (table bucket).behind.value? other ≠ (table bucket).value? other

instance [DecidableEq D] (table : Table D) (key other : Bytes) :
    Decidable (LosesFirst table key other) :=
  inferInstanceAs (Decidable (_ ∧ _ ∧ _))

/-- `table'` is `table` after the key was bound to the entry; the flag says whether the first node of the
bucket was overwritten for it. -/
inductive Stores (table : Table D) (key : Bytes) (entry : Entry D) : Bool → Table D → Prop where
  | changed {bucket : Bucket} {old : Entry D} (inBucket : bucketOf key = some bucket)
      (bound : binding table key = some old) :
      Stores table key entry false
        (Function.update table bucket ((table bucket).update key fun _ => entry))
  | pushed {bucket : Bucket} (inBucket : bucketOf key = some bucket)
      (unbound : binding table key = none) :
      Stores table key entry false (Function.update table bucket ((table bucket).push key entry))
  | replaced {bucket : Bucket} (inBucket : bucketOf key = some bucket) (wild : Bool) :
      Stores table key entry true
        (Function.update table bucket ((table bucket).replaceHead key entry wild))

section Stores

variable {table table' : Table D} {key other : Bytes} {entry : Entry D} {overwrites : Bool}

theorem Stores.binding_self (stores : Stores table key entry overwrites table') :
    binding table' key = some entry := by
  cases stores with
  | changed inBucket bound =>
    rw [binding_of_bucket inBucket] at bound
    rw [binding_update_of_bucket _ inBucket, Chain.value_update_self, bound]
    rfl
  | pushed inBucket _ => rw [binding_update_of_bucket _ inBucket, Chain.value_push_self]
  | replaced inBucket wild =>
    rw [binding_update_of_bucket _ inBucket, Chain.value_replaceHead_self]

/-- The binding of another key changes exactly where its node was the first one and got lost. -/
theorem Stores.binding_of_ne (stores : Stores table key entry overwrites table')
    (distinct : other ≠ key) :
    binding table' other ≠ binding table other ↔
      overwrites = true ∧ LosesFirst table key other := by
  have kept {bucket : Bucket} {chain : Chain Bytes (Entry D)}
      (same : chain.value? other = (table bucket).value? other) :
      binding (Function.update table bucket chain) other = binding table other := by
    by_cases here : bucketOf other = some bucket
    · rw [binding_update_of_bucket _ here, binding_of_bucket here, same]
    · exact binding_update_of_ne _ here
  cases stores with
  | changed inBucket bound =>
    rw [kept (Chain.value_update_of_ne _ distinct _)]
    simp
  | pushed inBucket unbound =>
    rw [kept (Chain.value_push_of_ne _ distinct entry)]
    simp
  | @replaced bucket inBucket wild =>
    simp only [true_and]
    by_cases here : bucketOf other = some bucket
    · rw [binding_update_of_bucket _ here, binding_of_bucket here,
        Chain.value_replaceHead_of_ne _ distinct]
      constructor
      · intro lost
        refine ⟨distinct, here.trans inBucket.symm, bucket, inBucket, ?_, lost⟩
        by_contra notFirst
        exact lost (Chain.value_behind notFirst)
      · rintro ⟨_, _, bucket', inBucket', _, lost⟩
        obtain rfl : bucket = bucket' := by simpa [inBucket] using inBucket'
        exact lost
    · rw [binding_update_of_ne _ here]
      simp only [ne_eq, not_true_eq_false, false_iff]
      rintro ⟨_, sameBucket, _⟩
      exact here (sameBucket.trans inBucket)

/-- What another key is bound to afterwards: the same entry, or the one that was behind the first node. -/
theorem Stores.binding_other (stores : Stores table key entry overwrites table')
    (distinct : other ≠ key) :
    binding table' other = binding table other ∨
      overwrites = true ∧ ∃ bucket ∈ bucketOf key, LosesFirst table key other ∧
        binding table' other = (table bucket).behind.value? other := by
  by_cases same : binding table' other = binding table other
  · exact .inl same
  · obtain ⟨overwritten, lost⟩ := (stores.binding_of_ne distinct).mp same
    subst overwritten
    cases stores with
    | @replaced bucket inBucket wild =>
      refine .inr ⟨rfl, bucket, inBucket, lost, ?_⟩
      rw [binding_update_of_bucket _ (lost.2.1.trans inBucket), Chain.value_replaceHead_of_ne _ distinct]

/-- A second write to a key makes one write of the two. -/
theorem Stores.again {entry' : Entry D} {table'' : Table D} {overwrites' : Bool}
    (stores : Stores table key entry overwrites table')
    (second : Stores table' key entry' overwrites' table'') (changes : overwrites' = false) :
    Stores table key entry' overwrites table'' := by
  have bound := stores.binding_self
  cases second with
  | replaced => simp at changes
  | pushed inBucket unbound => simp [bound] at unbound
  | @changed bucket old inBucket _ =>
    cases stores with
    | changed inBucket' bound' =>
      obtain rfl : bucket = _ := Option.some.inj (inBucket.symm.trans inBucket')
      rw [Function.update_self, Chain.update_update, Function.update_idem]
      exact .changed inBucket bound'
    | pushed inBucket' unbound =>
      obtain rfl : bucket = _ := Option.some.inj (inBucket.symm.trans inBucket')
      rw [Function.update_self, Chain.update_push, Function.update_idem]
      exact .pushed inBucket unbound
    | replaced inBucket' wild =>
      obtain rfl : bucket = _ := Option.some.inj (inBucket.symm.trans inBucket')
      rw [Function.update_self, Chain.update_replaceHead, Function.update_idem]
      exact .replaced inBucket wild

end Stores

/-! ## Runs of the readers -/

theorem storeGetEntry_ok {key : Bytes} {entry : Option (Entry D)} {w t : World D}
    (run : storeGetEntry key w = .ok (entry, t)) : binding w.table key = entry ∧ t = w := by
  rw [storeGetEntry_run] at run
  cases found : lookup w.table key with
  | error f => simp [found] at run
  | ok result =>
    simp only [found, Except.ok.injEq, Prod.mk.injEq] at run
    exact ⟨(binding_of_lookup found).trans run.1, run.2.symm⟩

/-- `cast` takes out what `wrap` makes a value of, and faults on every other value. -/
structure TakesOut {α : Type} (cast : Value D → M D α) (wrap : α → Value D) : Prop where
  out : ∀ a, cast (wrap a) = pure a
  confused : ∀ value, (∃ a, value = wrap a) ∨ cast value = fault .typeConfusion

theorem asString_takesOut : TakesOut (D := D) asString .string :=
  ⟨fun _ => rfl, fun value => by cases value <;> simp [asString]⟩

theorem asList_takesOut : TakesOut (D := D) asList .list :=
  ⟨fun _ => rfl, fun value => by cases value <;> simp [asList]⟩

theorem asStream_takesOut : TakesOut (D := D) asStream .stream :=
  ⟨fun _ => rfl, fun value => by cases value <;> simp [asStream]⟩

theorem asZSet_takesOut : TakesOut (D := D) asZSet .zset :=
  ⟨fun _ => rfl, fun value => by cases value <;> simp [asZSet]⟩

section Payload

variable {α β : Type} {cast : Value D → M D α} {wrap : α → Value D} {key : Bytes} {w t : World D}

theorem TakesOut.cast_ok (takes : TakesOut cast wrap) {value : Value D} {found : α → M D β} {b : β}
    (run : (cast value >>= found) w = .ok (b, t)) :
    ∃ a, value = wrap a ∧ found a w = .ok (b, t) := by
  obtain ⟨a, rfl⟩ | confused := takes.confused value
  · rw [takes.out, pure_bind] at run
    exact ⟨a, rfl, run⟩
  · rw [confused] at run
    simp [bind_run, fault] at run

theorem withPayload_ok (takes : TakesOut cast wrap) {missing : M D β} {found : α → M D β} {b : β}
    (run : withPayload key cast missing found w = .ok (b, t)) :
    binding w.table key = none ∧ missing w = .ok (b, t) ∨
      ∃ a expiresAt, binding w.table key = some ⟨wrap a, expiresAt⟩ ∧ found a w = .ok (b, t) := by
  rw [withPayload_run] at run
  cases bound : lookup w.table key with
  | error f => simp [bound] at run
  | ok result =>
    cases result with
    | none =>
      simp only [bound] at run
      exact .inl ⟨binding_of_lookup bound, run⟩
    | some entry =>
      simp only [bound] at run
      obtain ⟨value, expiresAt⟩ := entry
      obtain ⟨a, rfl, rest⟩ := takes.cast_ok run
      exact .inr ⟨a, expiresAt, binding_of_lookup bound, rest⟩

end Payload

/-! ## Runs of the writers -/

section Writers

variable {key : Bytes} {value : Value D} {w t : World D}

theorem updateEntry_stores {old : Value D} {expiresAt : Int}
    (bound : binding w.table key = some ⟨old, expiresAt⟩)
    (run : updateEntry key value w = .ok ((), t)) :
    t = { w with table := t.table } ∧ Stores w.table key ⟨value, expiresAt⟩ false t.table := by
  obtain ⟨bucket, inBucket, found⟩ := Option.bind_eq_some_iff.mp bound
  rw [updateEntry_run inBucket, Except.ok.injEq, Prod.mk.injEq] at run
  obtain ⟨_, rfl⟩ := run
  refine ⟨rfl, ?_⟩
  rw [Chain.update_congr found]
  exact .changed inBucket bound

theorem storeSetContainer_stores (run : storeSetContainer key value w = .ok ((), t)) :
    t = { w with table := t.table, fresh := t.fresh } ∧
      Stores w.table key ⟨value, 0⟩ true t.table := by
  unfold storeSetContainer at run
  obtain ⟨bucket, indexed, index, rest⟩ := bind_eq_ok.mp run
  obtain ⟨inBucket, rfl⟩ := tableIndex_eq_ok.mp index
  rw [bind_of_ok (observe_run _ indexed)] at rest
  obtain ⟨wild, taken, takes, writes⟩ := bind_eq_ok.mp rest
  have sameTable : taken.table = indexed.table ∧
      taken = { indexed with fresh := taken.fresh } := by
    unfold takeNode at takes
    split at takes
    · rw [map_eq_pure_bind] at takes
      obtain ⟨block, drawn, draws, final⟩ := bind_eq_ok.mp takes
      simp only [indeterminate, draw_run, Except.ok.injEq, Prod.mk.injEq] at draws
      simp only [pure_run, Except.ok.injEq, Prod.mk.injEq] at final
      rw [← final.2, ← draws.2]
      exact ⟨rfl, rfl⟩
    · simp only [pure_run, Except.ok.injEq, Prod.mk.injEq] at takes
      rw [← takes.2]
      exact ⟨rfl, rfl⟩
  rw [changeBucket_run, Except.ok.injEq, Prod.mk.injEq] at writes
  obtain ⟨_, rfl⟩ := writes
  constructor
  · rw [sameTable.2]
    rfl
  · simp only [World.setBucket, sameTable.1]
    exact .replaced inBucket wild

/-- `expires_at` of an entry that `store_set` writes at this time. -/
def expiryAt (now : Int) (flag : TimeFlags) (seconds : Int) : Int :=
  if seconds ≠ -1 then
    match flag with
    | .ex => now + seconds * 1000
    | .px => now + seconds
    | _ => 0
  else 0

theorem expiryOf_ok {flag : TimeFlags} {seconds expiresAt : Int}
    (run : expiryOf flag seconds w = .ok (expiresAt, t)) :
    expiresAt = expiryAt (w.clock 0) flag seconds ∧ t = { w with clock := t.clock } := by
  unfold expiryOf at run
  unfold expiryAt
  split at run
  · rename_i timed
    rw [bind_of_ok (show getCurrentTimeMs w = .ok (w.clock 0, w.tick) from rfl)] at run
    cases flag <;>
      (simp only [pure_run, Except.ok.injEq, Prod.mk.injEq] at run
       rw [if_pos timed, ← run.1, ← run.2]
       exact ⟨rfl, rfl⟩)
  · rename_i untimed
    simp only [pure_run, Except.ok.injEq, Prod.mk.injEq] at run
    rw [if_neg untimed, ← run.1, ← run.2]
    exact ⟨rfl, rfl⟩

theorem storeSet_stores {flag : TimeFlags} {seconds : Int}
    (run : storeSet key value flag seconds w = .ok ((), t)) :
    t = { w with table := t.table, clock := t.clock } ∧
      Stores w.table key ⟨value, expiryAt (w.clock 0) flag seconds⟩ false t.table := by
  unfold storeSet at run
  obtain ⟨bucket, indexed, index, rest⟩ := bind_eq_ok.mp run
  obtain ⟨inBucket, rfl⟩ := tableIndex_eq_ok.mp index
  obtain ⟨existing, found, walk, afterWalk⟩ := bind_eq_ok.mp rest
  obtain ⟨bound, rfl⟩ := storeGetEntry_ok walk
  obtain ⟨expiresAt, timed, expiry, writes⟩ := bind_eq_ok.mp afterWalk
  obtain ⟨rfl, same⟩ := expiryOf_ok expiry
  have sameTable : timed.table = found.table := by rw [same]
  cases existing with
  | none =>
    simp only [changeBucket_run, Except.ok.injEq, Prod.mk.injEq, true_and] at writes
    subst writes
    refine ⟨by rw [same]; rfl, ?_⟩
    simp only [World.setBucket, sameTable]
    exact .pushed inBucket bound
  | some old =>
    simp only [changeBucket_run, Except.ok.injEq, Prod.mk.injEq, true_and] at writes
    subst writes
    refine ⟨by rw [same]; rfl, ?_⟩
    simp only [World.setBucket, sameTable]
    exact .changed inBucket bound

end Writers

/-! ## Opening a container -/

/-- A container is taken from the entry of the key; an empty one is bound to the key first, where the
key has none. -/
structure Opens (w : World D) (key : Bytes) (empty payload : Value D) (expiresAt : Int)
    (t : World D) : Prop where
  keeps : t = { w with table := t.table, fresh := t.fresh }
  bound : binding t.table key = some ⟨payload, expiresAt⟩
  before : binding w.table key = some ⟨payload, expiresAt⟩ ∧ t.table = w.table ∨
    binding w.table key = none ∧ payload = empty ∧ expiresAt = 0 ∧
      Stores w.table key ⟨empty, 0⟩ true t.table

theorem opens_of_run {α : Type} {cast : Value D → M D α} {wrap : α → Value D} {key : Bytes}
    {empty a : α} {w t : World D} (takes : TakesOut cast wrap)
    (run : withPayload key cast (do storeSetContainer key (wrap empty); pure empty) pure w =
      .ok (a, t)) :
    ∃ expiresAt, Opens w key (wrap empty) (wrap a) expiresAt t := by
  obtain ⟨unbound, creates⟩ | ⟨a', expiresAt, bound, found⟩ := withPayload_ok takes run
  · obtain ⟨_, created, stores, final⟩ := bind_eq_ok.mp creates
    simp only [pure_run, Except.ok.injEq, Prod.mk.injEq] at final
    obtain ⟨rfl, rfl⟩ := final
    obtain ⟨keeps, stored⟩ := storeSetContainer_stores stores
    exact ⟨0, keeps, stored.binding_self, .inr ⟨unbound, rfl, rfl, stored⟩⟩
  · simp only [pure_run, Except.ok.injEq, Prod.mk.injEq] at found
    obtain ⟨rfl, rfl⟩ := found
    exact ⟨expiresAt, rfl, bound, .inl ⟨bound, rfl⟩⟩

/-- A write through the entry that was opened. -/
theorem Opens.stores {w t : World D} {key : Bytes} {empty payload value : Value D} {expiresAt : Int}
    {table' : Table D} (opens : Opens w key empty payload expiresAt t)
    (writes : Stores t.table key ⟨value, expiresAt⟩ false table') :
    Stores w.table key ⟨value, expiresAt⟩ (binding w.table key).isNone table' := by
  obtain ⟨bound, same⟩ | ⟨unbound, _, _, created⟩ := opens.before
  · rw [same] at writes
    rw [bound]
    exact writes
  · rw [unbound]
    exact created.again writes rfl

/-! ## The walk of KEYS -/

section Walk

variable {table : Table D} {key : Bytes} {buckets : List Bucket} {keys : List Bytes} {w t : World D}

/-- The keys of all nodes, in the order of the walk. -/
def tableKeys (table : Table D) : List Bytes := Chain.walkKeys (List.finRange tableSize) table

theorem keysOf_eq_ok : keysOf buckets w = .ok (keys, t) ↔
    (∀ bucket ∈ buckets, (w.table bucket).wild = false) ∧ keys = Chain.walkKeys buckets w.table ∧ t = w := by
  induction buckets generalizing keys t with
  | nil =>
    simp only [keysOf, pure_run, Except.ok.injEq, Prod.mk.injEq, Chain.walkKeys, List.flatMap_nil]
    rw [eq_comm, @eq_comm _ w t]
    exact (and_iff_right (List.forall_mem_nil _)).symm
  | cons bucket buckets inductionHypothesis =>
    unfold keysOf
    rw [bind_of_ok (observe_run _ w), List.forall_mem_cons, Chain.walkKeys, List.flatMap_cons]
    cases ends : (w.table bucket).wild with
    | true => simp [fault]
    | false =>
      rw [if_neg (by decide), and_iff_right rfl]
      constructor
      · intro run
        obtain ⟨others, _, walks, final⟩ := bind_eq_ok.mp run
        obtain ⟨rest, rfl, rfl⟩ := inductionHypothesis.mp walks
        obtain ⟨rfl, rfl⟩ := Prod.mk.inj (Except.ok.inj final)
        exact ⟨rest, rfl, rfl⟩
      · rintro ⟨rest, rfl, rfl⟩
        rw [bind_of_ok (inductionHypothesis.mpr ⟨rest, rfl, rfl⟩)]
        rfl

theorem keysOf_all : keysOf (List.finRange tableSize) w = .ok (keys, t) ↔
    (∀ bucket, (w.table bucket).wild = false) ∧ keys = tableKeys w.table ∧ t = w := by
  rw [keysOf_eq_ok, tableKeys]
  exact and_congr_left fun _ => forall_congr' fun bucket => imp_iff_right (List.mem_finRange bucket)

theorem mem_tableKeys : key ∈ tableKeys table ↔ ∃ bucket, key ∈ (table bucket).keys := by
  simp [tableKeys, Chain.walkKeys]

theorem mem_tableKeys_of_binding {entry : Entry D} (bound : binding table key = some entry) : key ∈ tableKeys table := by
  obtain ⟨bucket, _, found⟩ := Option.bind_eq_some_iff.mp bound
  exact mem_tableKeys.mpr ⟨bucket, List.mem_map_of_mem (Chain.mem_of_value found)⟩

/-- Where every node is in the bucket of its key, the walk passes the keys that are bound. -/
theorem Placed.mem_tableKeys_iff (placed : Placed table) : key ∈ tableKeys table ↔ (binding table key).isSome := by
  constructor
  · intro passed
    obtain ⟨bucket, inChain⟩ := mem_tableKeys.mp passed
    obtain ⟨node, inNodes, rfl⟩ := List.mem_map.mp inChain
    rw [binding_of_bucket (placed.inBucket bucket node inNodes), Option.isSome_iff_ne_none, Ne, Chain.value_eq_none]
    exact not_not.mpr inChain
  · intro bound
    obtain ⟨entry, isEntry⟩ := Option.isSome_iff_exists.mp bound
    exact mem_tableKeys_of_binding isEntry

theorem Placed.nodup_tableKeys (placed : Placed table) :
    (tableKeys table).Nodup ↔ ∀ bucket, (table bucket).keys.Nodup := by
  have inBucket (bucket : Bucket) (key : Bytes) (inChain : key ∈ (table bucket).keys) : bucketOf key = some bucket := by
    obtain ⟨node, inNodes, rfl⟩ := List.mem_map.mp inChain
    exact placed.inBucket bucket node inNodes
  rw [tableKeys, Chain.nodup_walkKeys (List.nodup_finRange tableSize) inBucket]
  exact forall_congr' fun bucket => imp_iff_right (List.mem_finRange bucket)

end Walk

end RedisClone
