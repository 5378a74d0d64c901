import Mathlib.Data.List.Nodup
import Mathlib.Logic.Function.Basic

/-! # Bucket chains of a hash table

A chain is a singly linked list of keyed nodes.  Its last `next` pointer is NULL unless a node was
taken from the allocator without setting that field; then it is whatever the block held, and a
walk that gets there follows a wild pointer.  `find` is the walk (`none` for the wild pointer,
`some none` for a walk to NULL), `push` the insertion at the head, `update` the change of the node
a walk stops at, and `replaceHead` the insertion that overwrites the first node in place.
-/

structure Chain (κ ν : Type) where
  nodes : List (κ × ν)
  wild : Bool
  deriving DecidableEq

namespace Chain

variable {κ ν : Type} [DecidableEq κ]

def empty : Chain κ ν := ⟨[], false⟩

def find (chain : Chain κ ν) (key : κ) : Option (Option ν) :=
  (chain.nodes.lookup key).elim (bif chain.wild then none else some none) fun value =>
    some (some value)

def push (chain : Chain κ ν) (key : κ) (value : ν) : Chain κ ν :=
  { chain with nodes := (key, value) :: chain.nodes }

/-- Change the value of the first node with the given key. -/
def updateNodes (key : κ) (f : ν → ν) : List (κ × ν) → List (κ × ν)
  | [] => []
  | (other, value) :: rest =>
    if key = other then (other, f value) :: rest else (other, value) :: updateNodes key f rest

def update (chain : Chain κ ν) (key : κ) (f : ν → ν) : Chain κ ν :=
  { chain with nodes := updateNodes key f chain.nodes }

/-- Overwrite the first node, or link a fresh block whose `next` field is not set. -/
def replaceHead (chain : Chain κ ν) (key : κ) (value : ν) (wildNext : Bool) : Chain κ ν :=
  match chain.nodes with
  | [] => ⟨[(key, value)], wildNext⟩
  | _ :: rest => { chain with nodes := (key, value) :: rest }

/-- Change the value of the first node of the chain, whatever its key. -/
def updateFirst (chain : Chain κ ν) (f : ν → ν) : Chain κ ν :=
  match chain.nodes with
  | [] => chain
  | (first, value) :: rest => { chain with nodes := (first, f value) :: rest }

/-- The value of the first node with the key, wherever the walk would end. -/
def value? (chain : Chain κ ν) (key : κ) : Option ν := chain.nodes.lookup key

/-- The key is in the first node, or `push` would put it there. -/
def Leads (chain : Chain κ ν) (key : κ) : Prop :=
  chain.value? key = none ∨ chain.nodes.head?.map Prod.fst = some key

/-- The chain behind the first node. -/
def behind (chain : Chain κ ν) : Chain κ ν := { chain with nodes := chain.nodes.tail }

/-! ## Lookups after a change -/

theorem lookup_cons_self (key : κ) (value : ν) (rest : List (κ × ν)) :
    ((key, value) :: rest).lookup key = some value := by
  simp

theorem lookup_cons_of_ne {key other : κ} (distinct : key ≠ other) (value : ν)
    (rest : List (κ × ν)) : ((other, value) :: rest).lookup key = rest.lookup key := by
  rw [List.lookup_cons, beq_false_of_ne distinct]

theorem lookup_updateNodes_self (key : κ) (f : ν → ν) (nodes : List (κ × ν)) :
    (updateNodes key f nodes).lookup key = (nodes.lookup key).map f := by
  induction nodes with
  | nil => rfl
  | cons node rest inductionHypothesis =>
    obtain ⟨other, value⟩ := node
    by_cases same : key = other
    · subst same; simp [updateNodes]
    · simp [updateNodes, same, lookup_cons_of_ne same, inductionHypothesis]

theorem lookup_updateNodes_of_ne {key other : κ} (distinct : other ≠ key) (f : ν → ν)
    (nodes : List (κ × ν)) : (updateNodes key f nodes).lookup other = nodes.lookup other := by
  induction nodes with
  | nil => rfl
  | cons node rest inductionHypothesis =>
    obtain ⟨third, value⟩ := node
    by_cases same : key = third
    · subst same; simp [updateNodes, lookup_cons_of_ne distinct]
    · by_cases reached : other = third
      · subst reached; simp [updateNodes, same]
      · simp [updateNodes, same, lookup_cons_of_ne reached, inductionHypothesis]

theorem find_of_lookup {chain : Chain κ ν} {key : κ} {value : ν}
    (found : chain.nodes.lookup key = some value) : chain.find key = some (some value) := by
  simp [find, found]

theorem find_eq_some_some {chain : Chain κ ν} {key : κ} {value : ν} :
    chain.find key = some (some value) ↔ chain.nodes.lookup key = some value := by
  unfold find
  cases chain.nodes.lookup key with
  | none => cases chain.wild <;> simp
  | some _ => simp

theorem find_eq_some_none {chain : Chain κ ν} {key : κ} :
    chain.find key = some none ↔ chain.nodes.lookup key = none ∧ chain.wild = false := by
  unfold find
  cases chain.nodes.lookup key with
  | none => cases chain.wild <;> simp
  | some _ => simp

@[simp] theorem find_push_self (chain : Chain κ ν) (key : κ) (value : ν) :
    (chain.push key value).find key = some (some value) :=
  find_of_lookup (lookup_cons_self key value chain.nodes)

theorem find_push_of_ne (chain : Chain κ ν) {key other : κ} (distinct : other ≠ key) (value : ν) :
    (chain.push key value).find other = chain.find other := by
  simp [find, push, lookup_cons_of_ne distinct]

theorem find_update_self {chain : Chain κ ν} {key : κ} {value : ν} (f : ν → ν)
    (found : chain.find key = some (some value)) :
    (chain.update key f).find key = some (some (f value)) := by
  rw [find_eq_some_some] at found ⊢
  rw [update, lookup_updateNodes_self, found, Option.map_some]

theorem find_update_of_ne (chain : Chain κ ν) {key other : κ} (distinct : other ≠ key)
    (f : ν → ν) : (chain.update key f).find other = chain.find other := by
  simp [find, update, lookup_updateNodes_of_ne distinct]

@[simp] theorem find_replaceHead_self (chain : Chain κ ν) (key : κ) (value : ν)
    (wildNext : Bool) : (chain.replaceHead key value wildNext).find key = some (some value) := by
  unfold replaceHead
  split <;> exact find_of_lookup (lookup_cons_self key value _)

theorem find_cons_self {chain : Chain κ ν} {first : κ} {value : ν} {rest : List (κ × ν)}
    (nodes : chain.nodes = (first, value) :: rest) : chain.find first = some (some value) :=
  find_of_lookup (by rw [nodes]; exact lookup_cons_self first value rest)

theorem find_cons_of_ne {chain : Chain κ ν} {first other : κ} {value : ν} {rest : List (κ × ν)}
    (nodes : chain.nodes = (first, value) :: rest) (distinct : other ≠ first) :
    chain.find other = chain.behind.find other := by
  simp only [find, behind, nodes, lookup_cons_of_ne distinct, List.tail_cons]

/-! ## Values after a change -/

theorem find_eq_ok {chain : Chain κ ν} {key : κ} {value : Option ν}
    (found : chain.find key = some value) : chain.value? key = value := by
  cases value with
  | none => exact (find_eq_some_none.mp found).1
  | some value => exact find_eq_some_some.mp found

theorem find_of_value {chain : Chain κ ν} {key : κ} {value : ν}
    (found : chain.value? key = some value) : chain.find key = some (some value) :=
  find_of_lookup found

theorem mem_of_value {chain : Chain κ ν} {key : κ} {value : ν} (found : chain.value? key = some value) :
    (key, value) ∈ chain.nodes := by
  unfold value? at found
  generalize chain.nodes = nodes at found
  induction nodes with
  | nil => simp at found
  | cons node rest inductionHypothesis =>
    obtain ⟨other, first⟩ := node
    by_cases same : key = other
    · subst same
      obtain rfl : first = value := by simpa using found
      exact List.mem_cons_self
    · rw [lookup_cons_of_ne same] at found
      exact List.mem_cons_of_mem _ (inductionHypothesis found)

@[simp] theorem value_push_self (chain : Chain κ ν) (key : κ) (value : ν) :
    (chain.push key value).value? key = some value :=
  lookup_cons_self key value chain.nodes

theorem value_push_of_ne (chain : Chain κ ν) {key other : κ} (distinct : other ≠ key) (value : ν) :
    (chain.push key value).value? other = chain.value? other :=
  lookup_cons_of_ne distinct value chain.nodes

@[simp] theorem value_update_self (chain : Chain κ ν) (key : κ) (f : ν → ν) :
    (chain.update key f).value? key = (chain.value? key).map f :=
  lookup_updateNodes_self key f chain.nodes

theorem value_update_of_ne (chain : Chain κ ν) {key other : κ} (distinct : other ≠ key)
    (f : ν → ν) : (chain.update key f).value? other = chain.value? other :=
  lookup_updateNodes_of_ne distinct f chain.nodes

@[simp] theorem value_replaceHead_self (chain : Chain κ ν) (key : κ) (value : ν)
    (wildNext : Bool) : (chain.replaceHead key value wildNext).value? key = some value :=
  find_eq_ok (find_replaceHead_self chain key value wildNext)

/-- Overwriting the first node loses its value, where no later node has its key and value. -/
theorem value_replaceHead_of_ne (chain : Chain κ ν) {key other : κ} (distinct : other ≠ key)
    (value : ν) (wildNext : Bool) :
    (chain.replaceHead key value wildNext).value? other = chain.behind.value? other := by
  unfold replaceHead behind value?
  cases nodes : chain.nodes with
  | nil => exact lookup_cons_of_ne distinct value []
  | cons node rest => exact lookup_cons_of_ne distinct value rest

theorem value_behind {chain : Chain κ ν} {key : κ}
    (notFirst : chain.nodes.head?.map Prod.fst ≠ some key) :
    chain.behind.value? key = chain.value? key := by
  unfold behind value?
  cases nodes : chain.nodes with
  | nil => rfl
  | cons node rest =>
    obtain ⟨first, value⟩ := node
    have distinct : key ≠ first := by
      rintro rfl
      simp [nodes] at notFirst
    exact (lookup_cons_of_ne distinct value rest).symm

/-- What a change makes of the value that it finds depends on that value only. -/
theorem update_congr {chain : Chain κ ν} {key : κ} {value : ν} (found : chain.value? key = some value)
    (f : ν → ν) : chain.update key f = chain.update key fun _ => f value := by
  suffices updateNodes key f chain.nodes = updateNodes key (fun _ => f value) chain.nodes by
    simp [update, this]
  unfold value? at found
  generalize chain.nodes = nodes at found
  induction nodes with
  | nil => rfl
  | cons node rest inductionHypothesis =>
    obtain ⟨other, old⟩ := node
    by_cases same : key = other
    · subst same
      rw [lookup_cons_self, Option.some.injEq] at found
      simp [updateNodes, found]
    · rw [lookup_cons_of_ne same] at found
      simp [updateNodes, same, inductionHypothesis found]

theorem update_update (chain : Chain κ ν) (key : κ) (f g : ν → ν) :
    (chain.update key f).update key g = chain.update key fun value => g (f value) := by
  suffices updateNodes key g (updateNodes key f chain.nodes) =
      updateNodes key (fun value => g (f value)) chain.nodes by
    simp [update, this]
  induction chain.nodes with
  | nil => rfl
  | cons node rest inductionHypothesis =>
    obtain ⟨other, value⟩ := node
    by_cases same : key = other <;> simp [updateNodes, same, inductionHypothesis]

theorem update_push (chain : Chain κ ν) (key : κ) (value : ν) (f : ν → ν) :
    (chain.push key value).update key f = chain.push key (f value) := by
  simp [update, push, updateNodes]

theorem update_replaceHead (chain : Chain κ ν) (key : κ) (value : ν) (wildNext : Bool)
    (f : ν → ν) :
    (chain.replaceHead key value wildNext).update key f =
      chain.replaceHead key (f value) wildNext := by
  unfold replaceHead
  cases chain.nodes <;> simp [update, updateNodes]

/-- Overwriting the first node leaves the walks behind it. -/
theorem find_replaceHead_of_ne {chain : Chain κ ν} (nonempty : chain.nodes ≠ []) {key other : κ}
    (distinct : other ≠ key) (value : ν) (wildNext : Bool) :
    (chain.replaceHead key value wildNext).find other = chain.behind.find other := by
  obtain ⟨head, rest, nodes⟩ := List.exists_cons_of_ne_nil nonempty
  have after : chain.replaceHead key value wildNext = ⟨(key, value) :: rest, chain.wild⟩ := by
    simp [replaceHead, nodes]
  have behindSame : chain.behind = (⟨(key, value) :: rest, chain.wild⟩ : Chain κ ν).behind := by
    simp [behind, nodes]
  rw [after, behindSame]
  exact find_cons_of_ne rfl distinct

omit [DecidableEq κ] in
@[simp] theorem updateFirst_push (chain : Chain κ ν) (key : κ) (value : ν) (f : ν → ν) :
    (chain.push key value).updateFirst f = chain.push key (f value) := rfl

/-- A change of the first node changes what a walk for its key finds. -/
theorem find_updateFirst_self {chain : Chain κ ν} {first : κ} {value : ν} {rest : List (κ × ν)}
    (nodes : chain.nodes = (first, value) :: rest) (f : ν → ν) :
    (chain.updateFirst f).find first = some (some (f value)) := by
  refine find_of_lookup ?_
  simp only [updateFirst, nodes]
  exact lookup_cons_self first (f value) rest

/-- Walks for the other keys go on as before. -/
theorem find_updateFirst_of_ne {chain : Chain κ ν} {first other : κ} {value : ν} {rest : List (κ × ν)}
    (nodes : chain.nodes = (first, value) :: rest) (distinct : other ≠ first) (f : ν → ν) :
    (chain.updateFirst f).find other = chain.find other := by
  simp only [updateFirst, find, nodes, lookup_cons_of_ne distinct]

theorem mem_updateNodes {key : κ} {f : ν → ν} {nodes : List (κ × ν)} {node : κ × ν}
    (member : node ∈ updateNodes key f nodes) : ∃ other ∈ nodes, other.1 = node.1 := by
  induction nodes with
  | nil => simp [updateNodes] at member
  | cons head rest inductionHypothesis =>
    obtain ⟨other, value⟩ := head
    unfold updateNodes at member
    split at member
    · obtain same | member := List.mem_cons.mp member
      · exact ⟨(other, value), List.mem_cons_self, by rw [same]⟩
      · exact ⟨node, List.mem_cons_of_mem _ member, rfl⟩
    · obtain same | member := List.mem_cons.mp member
      · exact ⟨(other, value), List.mem_cons_self, by rw [same]⟩
      · obtain ⟨found, inside, same⟩ := inductionHypothesis member
        exact ⟨found, List.mem_cons_of_mem _ inside, same⟩

theorem updateNodes_member {key : κ} {f : ν → ν} {nodes : List (κ × ν)} {node : κ × ν}
    (member : node ∈ updateNodes key f nodes) : node ∈ nodes ∨ ∃ value, node.2 = f value := by
  induction nodes with
  | nil => simp [updateNodes] at member
  | cons head rest inductionHypothesis =>
    obtain ⟨other, value⟩ := head
    unfold updateNodes at member
    split at member
    · obtain rfl | member := List.mem_cons.mp member
      · exact .inr ⟨value, rfl⟩
      · exact .inl (List.mem_cons_of_mem _ member)
    · obtain rfl | member := List.mem_cons.mp member
      · exact .inl List.mem_cons_self
      · exact (inductionHypothesis member).imp_left (List.mem_cons_of_mem _)

theorem updateNodes_eq_nil {key : κ} {f : ν → ν} {nodes : List (κ × ν)} :
    updateNodes key f nodes = [] ↔ nodes = [] := by
  cases nodes with
  | nil => simp [updateNodes]
  | cons head rest =>
    obtain ⟨other, value⟩ := head
    unfold updateNodes
    split <;> simp

/-! ## Keys -/

def keys (chain : Chain κ ν) : List κ := chain.nodes.map Prod.fst

omit [DecidableEq κ] in
@[simp] theorem keys_push (chain : Chain κ ν) (key : κ) (value : ν) :
    (chain.push key value).keys = key :: chain.keys := rfl

@[simp] theorem keys_update (chain : Chain κ ν) (key : κ) (f : ν → ν) :
    (chain.update key f).keys = chain.keys := by
  suffices (updateNodes key f chain.nodes).map Prod.fst = chain.nodes.map Prod.fst from this
  induction chain.nodes with
  | nil => rfl
  | cons node rest inductionHypothesis =>
    obtain ⟨other, value⟩ := node
    by_cases same : key = other <;> simp [updateNodes, same, inductionHypothesis]

theorem value_eq_none {chain : Chain κ ν} {key : κ} : chain.value? key = none ↔ key ∉ chain.keys := by
  unfold value? keys
  induction chain.nodes with
  | nil => simp
  | cons node rest inductionHypothesis =>
    obtain ⟨other, value⟩ := node
    by_cases same : key = other
    · subst same
      simp
    · simp [lookup_cons_of_ne same, inductionHypothesis, same]

/-! ## Walks over the buckets -/

section Walk

variable {β : Type} {table : β → Chain κ ν} {buckets : List β}

/-- The keys of all nodes, bucket by bucket. -/
def walkKeys (buckets : List β) (table : β → Chain κ ν) : List κ := buckets.flatMap fun bucket => (table bucket).keys

omit [DecidableEq κ] in
/-- Where every key has its bucket, a key comes twice only inside one chain. -/
theorem nodup_walkKeys {place : κ → Option β} (distinct : buckets.Nodup)
    (placed : ∀ bucket, ∀ key ∈ (table bucket).keys, place key = some bucket) :
    (walkKeys buckets table).Nodup ↔ ∀ bucket ∈ buckets, (table bucket).keys.Nodup := by
  refine List.nodup_flatMap.trans (and_iff_left (distinct.imp fun {here there} other key inHere inThere => other ?_))
  exact Option.some.inj ((placed here key inHere).symm.trans (placed there key inThere))

end Walk

end Chain

/-! # Tables of chains

`Represents place table map`: the table holds the map.  `place` is the bucket of a key, where the key has one;
every key is in the chain of its own bucket, in one node at most, and every walk ends in NULL.
-/

structure Represents {κ β ν : Type} [DecidableEq κ] (place : κ → Option β) (table : β → Chain κ ν)
    (map : κ → Option ν) : Prop where
  ends : ∀ bucket, (table bucket).wild = false
  placed : ∀ bucket, ∀ key ∈ (table bucket).keys, place key = some bucket
  distinct : ∀ bucket, (table bucket).keys.Nodup
  values : ∀ key bucket, place key = some bucket → (table bucket).nodes.lookup key = map key

namespace Represents

variable {κ β ν : Type} [DecidableEq κ] [DecidableEq β] {place : κ → Option β} {table : β → Chain κ ν}
  {map : κ → Option ν} {key : κ} {bucket : β}

omit [DecidableEq β] in
theorem empty : Represents place (fun _ => (Chain.empty : Chain κ ν)) fun _ => none :=
  ⟨fun _ => rfl, fun _ _ member => by simp [Chain.keys, Chain.empty] at member,
    fun _ => List.nodup_nil, fun _ _ _ => rfl⟩

omit [DecidableEq β] in
/-- The walk for a key that has a bucket. -/
theorem find (represents : Represents place table map) (here : place key = some bucket) :
    (table bucket).find key = some (map key) := by
  have value := represents.values key bucket here
  cases isValue : map key with
  | none => exact Chain.find_eq_some_none.mpr ⟨value.trans isValue, represents.ends bucket⟩
  | some held => exact Chain.find_eq_some_some.mpr (value.trans isValue)

/-- A key of the map is in one node, and that one is in the bucket of the key. -/
theorem count [BEq κ] [LawfulBEq κ] (represents : Represents place table map) (here : place key = some bucket)
    (bound : map key ≠ none) (other : β) :
    (table other).keys.count key = if other = bucket then 1 else 0 := by
  split
  · rename_i same
    subst same
    refine List.count_eq_one_of_mem (represents.distinct other) ?_
    by_contra absent
    exact bound ((represents.values key other here).symm.trans (Chain.value_eq_none.mpr absent))
  · rename_i elsewhere
    refine List.count_eq_zero_of_not_mem fun member => elsewhere ?_
    exact Option.some.inj ((represents.placed other key member).symm.trans here)

/-- One bucket is changed, and holds the changed map. -/
theorem of_change (represents : Represents place table map) (here : place key = some bucket)
    {chain : Chain κ ν} {value : ν} (ends : chain.wild = false)
    (placed : ∀ other ∈ chain.keys, other = key ∨ other ∈ (table bucket).keys) (distinct : chain.keys.Nodup)
    (own : chain.nodes.lookup key = some value)
    (others : ∀ other, other ≠ key → chain.nodes.lookup other = (table bucket).nodes.lookup other) :
    Represents place (Function.update table bucket chain) (Function.update map key (some value)) := by
  constructor
  · intro other
    by_cases same : other = bucket
    · rw [same, Function.update_self, ends]
    · rw [Function.update_of_ne same, represents.ends other]
  · intro other key' member
    by_cases same : other = bucket
    · rw [same, Function.update_self] at member
      rw [same]
      obtain rfl | inside := placed key' member
      · exact here
      · exact represents.placed bucket key' inside
    · rw [Function.update_of_ne same] at member
      exact represents.placed other key' member
  · intro other
    by_cases same : other = bucket
    · rwa [same, Function.update_self]
    · rw [Function.update_of_ne same]
      exact represents.distinct other
  · intro key' other there
    by_cases isKey : key' = key
    · subst isKey
      obtain rfl : other = bucket := Option.some.inj (there.symm.trans here)
      rw [Function.update_self, Function.update_self, own]
    · rw [Function.update_of_ne isKey]
      by_cases same : other = bucket
      · subst same
        rw [Function.update_self, others key' isKey]
        exact represents.values key' other there
      · rw [Function.update_of_ne same]
        exact represents.values key' other there

/-- A new key is pushed. -/
theorem push (represents : Represents place table map) (here : place key = some bucket)
    (absent : map key = none) (value : ν) :
    Represents place (Function.update table bucket ((table bucket).push key value))
      (Function.update map key (some value)) := by
  have outside : key ∉ (table bucket).keys :=
    Chain.value_eq_none.mp ((represents.values key bucket here).trans absent)
  refine represents.of_change here (represents.ends bucket) (fun other member => ?_) ?_ ?_ fun other isOther => ?_
  · simpa using member
  · exact List.nodup_cons.mpr ⟨outside, represents.distinct bucket⟩
  · exact Chain.lookup_cons_self key value _
  · exact Chain.lookup_cons_of_ne isOther value _

/-- The node of a key is changed. -/
theorem update (represents : Represents place table map) (here : place key = some bucket)
    (present : map key ≠ none) (value : ν) :
    Represents place (Function.update table bucket ((table bucket).update key fun _ => value))
      (Function.update map key (some value)) := by
  obtain ⟨old, isOld⟩ := Option.ne_none_iff_exists'.mp present
  refine represents.of_change here (represents.ends bucket) (fun other member => ?_) ?_ ?_ fun other isOther => ?_
  · rw [Chain.keys_update] at member
    exact .inr member
  · rw [Chain.keys_update]
    exact represents.distinct bucket
  · rw [Chain.update, Chain.lookup_updateNodes_self, represents.values key bucket here, isOld]
    rfl
  · exact Chain.lookup_updateNodes_of_ne isOther _ _

end Represents
