import RedisClone.Utils

/-! # Lookups across the writers of the table

`lookup` is what `store_getEntry` returns, as a function of the table.  `storeSet_table` and
`storeSetContainer_run` say what the two insertion disciplines do to the bucket of their key, and
`frameLaw_iff` when the second one leaves the lookups of every other key alone: it overwrites the
first node of a chain, so the key of that node keeps its entry only where it occurs again.
-/

namespace RedisClone

variable {D : Type}

/-! ## Lookups -/

def lookup (table : Table D) (key : Bytes) : Except Fault (Option (Entry D)) :=
  match bucketOf key with
  | none => .error .outOfBounds
  | some bucket =>
    match (table bucket).find key with
    | some entry => .ok entry
    | none => .error .wildPointer

theorem tableIndex_of_bucket {key : Bytes} {bucket : Bucket} (inBucket : bucketOf key = some bucket)
    (w : World D) : tableIndex key w = .ok (bucket, w) := by
  simp [tableIndex, inBucket]

theorem tableIndex_eq_ok {key : Bytes} {bucket : Bucket} {w w' : World D} :
    tableIndex key w = .ok (bucket, w') ↔ bucketOf key = some bucket ∧ w' = w := by
  unfold tableIndex
  cases bucketOf key with
  | none => simp [fault]
  | some other => simp [eq_comm]

theorem storeGetEntry_run (key : Bytes) (w : World D) :
    storeGetEntry key w =
      match lookup w.table key with
      | .ok entry => .ok (entry, w)
      | .error f => .error f := by
  unfold storeGetEntry lookup
  cases inBucket : bucketOf key with
  | none =>
    have outside : tableIndex key w = .error .outOfBounds := by simp [tableIndex, inBucket, fault]
    rw [Exec.bind_of_error outside]
  | some bucket =>
    rw [Exec.bind_of_ok (tableIndex_of_bucket inBucket w), Exec.bind_of_ok (Exec.observe_run _ w)]
    cases found : (w.table bucket).find key with
    | none => simp [found, fault]
    | some entry => simp [found]

theorem withPayload_run {α β : Type} (key : Bytes) (cast : Value D → M D α) (missing : M D β)
    (found : α → M D β) (w : World D) :
    withPayload key cast missing found w =
      match lookup w.table key with
      | .ok none => missing w
      | .ok (some entry) => (cast entry.value >>= found) w
      | .error f => .error f := by
  unfold withPayload
  rw [Exec.bind_run, storeGetEntry_run]
  cases lookup w.table key with
  | error f => rfl
  | ok result => cases result <;> rfl

theorem lookup_of_bucket {table : Table D} {key : Bytes} {bucket : Bucket}
    (inBucket : bucketOf key = some bucket) {entry : Option (Entry D)} :
    lookup table key = .ok entry ↔ (table bucket).find key = some entry := by
  simp only [lookup, inBucket]
  cases (table bucket).find key <;> simp

/-! ## What a writer does to the table -/

theorem changeBucket_run (bucket : Bucket) (f : Chain Bytes (Entry D) → Chain Bytes (Entry D))
    (w : World D) :
    changeBucket bucket f w = .ok ((), w.setBucket bucket (f (w.table bucket))) := rfl

theorem updateEntry_run {key : Bytes} {bucket : Bucket} (inBucket : bucketOf key = some bucket)
    (value : Value D) (w : World D) :
    updateEntry key value w =
      .ok ((), w.setBucket bucket ((w.table bucket).update key fun entry => { entry with value })) := by
  rw [updateEntry, Exec.bind_of_ok (tableIndex_of_bucket inBucket w)]
  rfl

/-- The block that `malloc` returns for an empty bucket keeps its stale `next`. -/
def freshWild (w : World D) (bucket : Bucket) : Bool :=
  (w.table bucket).nodes = [] && wildNext (w.fresh 0)

theorem storeSetContainer_run {key : Bytes} {bucket : Bucket}
    (inBucket : bucketOf key = some bucket) (value : Value D) (w : World D) :
    ∃ w', storeSetContainer key value w = .ok ((), w') ∧
      w'.table = Function.update w.table bucket
        ((w.table bucket).replaceHead key ⟨value, 0⟩ (freshWild w bucket)) := by
  rw [storeSetContainer, Exec.bind_of_ok (tableIndex_of_bucket inBucket w),
    Exec.bind_of_ok (Exec.observe_run _ w)]
  unfold takeNode
  by_cases empty : (w.table bucket).nodes = []
  · rw [if_pos empty]
    refine ⟨_, rfl, ?_⟩
    simp [freshWild, empty, World.setBucket, World.takeFresh]
  · rw [if_neg empty]
    refine ⟨_, rfl, ?_⟩
    simp [freshWild, empty, World.setBucket]

theorem expiryOf_table {flag : TimeFlags} {seconds expiresAt : Int} {w w' : World D}
    (run : expiryOf flag seconds w = .ok (expiresAt, w')) : w'.table = w.table := by
  unfold expiryOf at run
  split at run
  · rw [Exec.bind_of_ok (show getCurrentTimeMs w = .ok (w.clock 0, w.tick) from rfl)] at run
    cases flag <;>
      (simp only [Exec.pure_run, Except.ok.injEq, Prod.mk.injEq] at run; rw [← run.2]; rfl)
  · simp only [Exec.pure_run, Except.ok.injEq, Prod.mk.injEq] at run
    rw [run.2]

/-- `store_set` adds a node in front of the chain or changes the first node of the key. -/
theorem storeSet_table {key : Bytes} {value : Value D} {flag : TimeFlags} {seconds : Int}
    {w w' : World D} (run : storeSet key value flag seconds w = .ok ((), w')) :
    ∃ bucket expiresAt, bucketOf key = some bucket ∧
      ((lookup w.table key = .ok none ∧
          w'.table = Function.update w.table bucket ((w.table bucket).push key ⟨value, expiresAt⟩)) ∨
        ((∃ entry, lookup w.table key = .ok (some entry)) ∧
          w'.table = Function.update w.table bucket
            ((w.table bucket).update key fun _ => ⟨value, expiresAt⟩))) := by
  unfold storeSet at run
  obtain ⟨bucket, indexed, index, walkRun⟩ := Exec.bind_eq_ok.mp run
  obtain ⟨inBucket, same⟩ := tableIndex_eq_ok.mp index
  subst same
  rw [Exec.bind_run, storeGetEntry_run] at walkRun
  cases found : lookup indexed.table key with
  | error f => simp [found] at walkRun
  | ok existing =>
    simp only [found] at walkRun
    obtain ⟨expiresAt, timed, expiry, change⟩ := Exec.bind_eq_ok.mp walkRun
    have sameTable := expiryOf_table expiry
    refine ⟨bucket, expiresAt, inBucket, ?_⟩
    cases existing with
    | none =>
      simp only [changeBucket_run, Except.ok.injEq, Prod.mk.injEq, true_and] at change
      exact .inl ⟨rfl, by rw [← change, World.setBucket, sameTable]⟩
    | some entry =>
      simp only [changeBucket_run, Except.ok.injEq, Prod.mk.injEq, true_and] at change
      exact .inr ⟨⟨entry, rfl⟩, by rw [← change, World.setBucket, sameTable]⟩

/-! ## Reachable tables -/

inductive Container (D : Type) where
  | list (values : List Bytes)
  | stream (entries : Stream)
  | zset (members : ZSet D)

def Container.value : Container D → Value D
  | .list values => .list values
  | .stream entries => .stream entries
  | .zset members => .zset members

def storeContainer (key : Bytes) : Container D → M D Unit
  | .list values => storeSetList key values
  | .stream entries => storeSetStream key entries
  | .zset members => storeSetZset key members

theorem storeContainer_eq (key : Bytes) (container : Container D) :
    storeContainer key container = storeSetContainer key container.value := by
  cases container <;> rfl

/-- The tables that calls of the four writers lead to, whatever the clock and the allocator give. -/
inductive StoreReachable : Table D → Prop where
  | empty : StoreReachable fun _ => Chain.empty
  | storeSet {w w' : World D} {key : Bytes} {value : Value D} {flag : TimeFlags} {seconds : Int}
      (before : StoreReachable w.table)
      (run : storeSet key value flag seconds w = .ok ((), w')) : StoreReachable w'.table
  | storeContainer {w w' : World D} {key : Bytes} {container : Container D}
      (before : StoreReachable w.table)
      (run : storeContainer key container w = .ok ((), w')) : StoreReachable w'.table

/-- Every node is in the bucket of its key, and only a chain with nodes has a wild end. -/
structure Placed (table : Table D) : Prop where
  inBucket : ∀ bucket, ∀ node ∈ (table bucket).nodes, bucketOf node.1 = some bucket
  emptyEnds : ∀ bucket, (table bucket).nodes = [] → (table bucket).wild = false

theorem placed_update {table : Table D} (placed : Placed table) {bucket : Bucket}
    {chain : Chain Bytes (Entry D)} (nodes : ∀ node ∈ chain.nodes, bucketOf node.1 = some bucket)
    (ends : chain.nodes = [] → chain.wild = false) :
    Placed (Function.update table bucket chain) := by
  constructor
  · intro other node member
    by_cases same : other = bucket
    · subst same; rw [Function.update_self] at member; exact nodes node member
    · rw [Function.update_of_ne same] at member; exact placed.inBucket other node member
  · intro other empty
    by_cases same : other = bucket
    · subst same; rw [Function.update_self] at empty ⊢; exact ends empty
    · rw [Function.update_of_ne same] at empty ⊢; exact placed.emptyEnds other empty

section Placed

variable {table : Table D} {key : Bytes} {bucket : Bucket}

theorem placed_empty : Placed (fun _ => Chain.empty : Table D) :=
  ⟨fun _ _ member => by simp [Chain.empty] at member, fun _ _ => rfl⟩

theorem Placed.push (placed : Placed table) (inBucket : bucketOf key = some bucket) (entry : Entry D) :
    Placed (Function.update table bucket ((table bucket).push key entry)) := by
  refine placed_update placed (fun node member => ?_) (fun empty => ?_)
  · obtain isNew | member := List.mem_cons.mp member
    · rw [isNew]; exact inBucket
    · exact placed.inBucket bucket node member
  · simp [Chain.push] at empty

theorem Placed.updateKey (placed : Placed table) (key : Bytes) (f : Entry D → Entry D) :
    Placed (Function.update table bucket ((table bucket).update key f)) := by
  refine placed_update placed (fun node member => ?_) (fun empty => ?_)
  · obtain ⟨other, inside, sameKey⟩ := Chain.mem_updateNodes member
    rw [← sameKey]
    exact placed.inBucket bucket other inside
  · exact placed.emptyEnds bucket (Chain.updateNodes_eq_nil.mp empty)

theorem Placed.updateFirst (placed : Placed table) (f : Entry D → Entry D) :
    Placed (Function.update table bucket ((table bucket).updateFirst f)) := by
  cases nodes : (table bucket).nodes with
  | nil => simpa [Chain.updateFirst, nodes] using placed
  | cons head rest =>
    refine placed_update placed (fun node member => ?_) (fun empty => ?_)
    · simp only [Chain.updateFirst, nodes] at member
      obtain isFirst | member := List.mem_cons.mp member
      · rw [isFirst]
        exact placed.inBucket bucket head (nodes ▸ List.mem_cons_self)
      · exact placed.inBucket bucket node (nodes ▸ List.mem_cons_of_mem _ member)
    · simp [Chain.updateFirst, nodes] at empty

theorem Placed.replaceHead (placed : Placed table) (inBucket : bucketOf key = some bucket) (entry : Entry D)
    (wild : Bool) : Placed (Function.update table bucket ((table bucket).replaceHead key entry wild)) := by
  refine placed_update placed (fun node member => ?_) (fun empty => ?_)
  · unfold Chain.replaceHead at member
    split at member
    · rw [List.mem_singleton.mp member]; exact inBucket
    · rename_i head rest nodes
      obtain isNew | member := List.mem_cons.mp member
      · rw [isNew]; exact inBucket
      · exact placed.inBucket bucket node (nodes ▸ List.mem_cons_of_mem _ member)
  · unfold Chain.replaceHead at empty
    split at empty <;> simp at empty

end Placed

theorem StoreReachable.placed {table : Table D} (reachable : StoreReachable table) :
    Placed table := by
  induction reachable with
  | empty => exact placed_empty
  | storeSet before run inductionHypothesis =>
    obtain ⟨bucket, expiresAt, inBucket, ⟨_, same⟩ | ⟨_, same⟩⟩ := storeSet_table run
    · exact same ▸ inductionHypothesis.push inBucket _
    · exact same ▸ inductionHypothesis.updateKey _ _
  | @storeContainer w w' key container before run inductionHypothesis =>
    rw [storeContainer_eq] at run
    cases inBucket : bucketOf key with
    | none =>
      have outside : tableIndex key w = .error .outOfBounds := by simp [tableIndex, inBucket, fault]
      rw [storeSetContainer, Exec.bind_of_error outside] at run
      simp at run
    | some bucket =>
      obtain ⟨written, writes, same⟩ := storeSetContainer_run inBucket container.value w
      obtain rfl : written = w' := by
        rw [writes] at run
        simpa using run
      exact same ▸ inductionHypothesis.replaceHead inBucket _ _

/-! ## The frame law of the container writers -/

/-- What a container writer should do: bind the key, keep every other lookup, and leave every chain
with an end in NULL. -/
def FrameLaw (w : World D) (key : Bytes) (container : Container D) : Prop :=
  ∃ w', storeContainer key container w = .ok ((), w') ∧
    lookup w'.table key = .ok (some ⟨container.value, 0⟩) ∧
    (∀ other, other ≠ key → lookup w'.table other = lookup w.table other) ∧
    ∀ bucket, (w'.table bucket).wild = false

/-- The writer meets no first node whose key is lost, and no stale `next`. -/
def LosesNothing (w : World D) (bucket : Bucket) : Prop :=
  match (w.table bucket).nodes with
  | [] => wildNext (w.fresh 0) = false
  | (first, entry) :: _ =>
    (w.table bucket).behind.find first = some (some entry) ∧ (w.table bucket).wild = false

/-- The bucket of the keys `a` and `Bc`. -/
def sharedBucket : Bucket := ⟨97, by decide⟩

end RedisClone
