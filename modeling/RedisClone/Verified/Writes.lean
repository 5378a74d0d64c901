import RedisClone.Verified.Lists

/-! # Which bindings a command changes

`Alters` is the condition under which a command changes what its key is bound to, and `Affects` says whose
binding changes with it: that of its key, and, where a new container overwrites the first node of the bucket,
that of this node's key.  `arm_affects_iff` shows that both conditions are exact.
-/

namespace RedisClone

open Exec CString

variable {D : Type}

/-! ## Conditions of the commands -/

/-- SET of a text or an expiry that the key does not have yet. -/
def SetAlters (w : World D) (req : RespRequest) : Prop :=
  2 ≤ req.argc ∧ ∃ key ∈ req.args[0]?, ∃ value ∈ req.args[1]?,
    binding w.table key ≠
      some ⟨.string value, expiryAt (w.clock 0) (handleSetFlags req).2 (handleSetFlags req).1⟩

/-- INCR of a missing key or of a number. -/
def IncrAlters (w : World D) (req : RespRequest) : Prop :=
  ∃ key ∈ req.args[0]?,
    match binding w.table key with
    | some ⟨.string text, _⟩ => atoi text ≠ 0 ∨ text = lit "0"
    | _ => True

/-- RPUSH, unless the element that it hands to a waiting client leaves the list as it was. -/
def RpushAlters (w : World D) (req : RespRequest) : Prop :=
  2 ≤ req.argc ∧ ∃ key ∈ req.args[0]?,
    match binding w.table key with
    | some ⟨.list list, _⟩ =>
      longestOf w.clock (w.waiters key) none 0 ≠ none → (list ++ req.args.drop 1).tail ≠ list
    | _ => True

/-- LPOP of at least one element. -/
def LpopAlters (w : World D) (req : RespRequest) : Prop :=
  ∃ key ∈ req.args[0]?,
    match binding w.table key with
    | some ⟨.list values, _⟩ => 0 < popCount req values
    | _ => False

/-- BLPOP that finds an element. -/
def BlpopAlters (w : World D) (req : RespRequest) : Prop :=
  2 ≤ req.argc ∧ ∃ key ∈ req.args[0]?,
    match binding w.table key with
    | some ⟨.list (_ :: _), _⟩ => True
    | _ => False

/-- The set after the pairs of score and member were added. -/
def addPairs [Externals D] (set : ZSet D) (words : List Bytes) : ZSet D :=
  ((scorePairs words).foldl addPair (set, 0)).1

/-- Adding these pairs to the set of the key changes it. -/
def PairsAlter [Externals D] (w : World D) (key : Bytes) (words : List Bytes) : Prop :=
  match binding w.table key with
  | some ⟨.zset set, _⟩ => addPairs set words ≠ set
  | _ => True

def ZaddAlters [Externals D] (w : World D) (req : RespRequest) : Prop :=
  (3 ≤ req.argc ∧ (req.argc - 1).tmod 2 = 0) ∧
    ∃ key ∈ req.args[0]?, PairsAlter w key (req.args.drop 1)

/-- ZREM of a member of the set. -/
def ZremAlters (w : World D) (req : RespRequest) : Prop :=
  2 ≤ req.argc ∧ ∃ key ∈ req.args[0]?,
    match binding w.table key with
    | some ⟨.zset set, _⟩ => ∃ member ∈ req.args.drop 1, ∃ entry ∈ set.entries, entry.member = member
    | _ => False

/-- GEOADD of positions in range whose scores change the set. -/
def GeoaddAlters [Externals D] (w : World D) (req : RespRequest) : Prop :=
  4 ≤ req.argc ∧ ∃ key ∈ req.args[0]?,
    match geoScores (D := D) (geoTriples (req.args.drop 1)) with
    | .error _ => False
    | .ok words => PairsAlter w key words

/-- GEOSEARCH of a missing key, which is bound to an empty set. -/
def GeosearchAlters (w : World D) (req : RespRequest) : Prop :=
  7 ≤ req.argc ∧ ∃ key ∈ req.args[0]?, binding w.table key = none

/-- The stream of a key, an empty one where it has none. -/
def storedStream (table : Table D) (key : Bytes) : Stream :=
  match binding table key with
  | some ⟨.stream stream, _⟩ => stream
  | _ => ⟨[], none, 0, 0, 0⟩

/-- XADD of an ID that `validate_stream_id` accepts. -/
def XaddAlters (w : World D) (req : RespRequest) : Prop :=
  2 ≤ req.argc ∧ ∃ key ∈ req.args[0]?, ∃ id ∈ req.args[1]?,
    match checkStreamId id (storedStream w.table key).tail w with
    | .ok (none, _) => True
    | _ => False

/-- The command changes what its key is bound to. -/
def Alters [Externals D] (w : World D) (req : RespRequest) : Prop :=
  match req.command with
  | .set => SetAlters w req
  | .incr => IncrAlters w req
  | .lpush => 2 ≤ req.argc
  | .rpush => RpushAlters w req
  | .lpop => LpopAlters w req
  | .blpop => BlpopAlters w req
  | .zadd => ZaddAlters w req
  | .zrem => ZremAlters w req
  | .geoadd => GeoaddAlters w req
  | .geosearch => GeosearchAlters w req
  | .xadd => XaddAlters w req
  | _ => False

/-- The command stores a new container, over the first node of the bucket. -/
def Creates (w : World D) (req : RespRequest) : Prop :=
  ∃ key ∈ req.args[0]?,
    match req.command with
    | .lpush | .rpush | .zadd | .geoadd | .geosearch => binding w.table key = none
    | .xadd => (storedStream w.table key).entries = []
    | _ => False

instance (w : World D) (req : RespRequest) : Decidable (Creates w req) :=
  decidable_of_iff (∃ key ∈ req.args[0]?,
      req.command ∈ [.lpush, .rpush, .zadd, .geoadd, .geosearch] ∧ (binding w.table key).isNone ∨
        req.command = .xadd ∧ (storedStream w.table key).entries = [])
    (by unfold Creates; cases req.command <;> simp)

/-- The command changes what this key is bound to. -/
def Affects [Externals D] (w : World D) (req : RespRequest) (other : Bytes) : Prop :=
  Alters w req ∧ ∃ key ∈ req.args[0]?,
    other = key ∨ Creates w req ∧ LosesFirst w.table key other

/-- A command that changes a binding has a key. -/
theorem Alters.key [Externals D] {w : World D} {req : RespRequest} (alters : Alters w req) :
    ∃ key, req.args[0]? = some key := by
  unfold Alters at alters
  split at alters
  · obtain ⟨_, key, isKey, _⟩ := alters
    exact ⟨key, isKey⟩
  · obtain ⟨key, isKey, _⟩ := alters
    exact ⟨key, isKey⟩
  · exact arg_isSome (show ((0 : Nat) : Int) < req.argc by omega)
  · obtain ⟨_, key, isKey, _⟩ := alters
    exact ⟨key, isKey⟩
  · obtain ⟨key, isKey, _⟩ := alters
    exact ⟨key, isKey⟩
  iterate 6
    · obtain ⟨_, key, isKey, _⟩ := alters
      exact ⟨key, isKey⟩
  · exact alters.elim

/-! ## What a table after the command says -/

/-- A list that a command other than a push stores is an end of the list of its key. -/
def StoresRest (w : World D) (req : RespRequest) (key : Bytes) (entry : Entry D) : Prop :=
  req.command ≠ .rpush → req.command ≠ .lpush → ∀ values, entry.value = .list values →
    values <:+ elements w.table key

theorem storesRest_of_suffix {w : World D} {req : RespRequest} {key : Bytes} {values rest : List Bytes}
    {expiresAt expiresAt' : Int} (bound : binding w.table key = some ⟨.list values, expiresAt⟩)
    (isEnd : rest <:+ values) : StoresRest w req key ⟨.list rest, expiresAt'⟩ := by
  intro _ _ values' stored
  obtain rfl := Value.list.inj stored
  rwa [elements_of_list bound]

/-- The table after a command: no binding changed, or the key got another entry. -/
def Effect [Externals D] (w : World D) (req : RespRequest) (table' : Table D) : Prop :=
  ¬ Alters w req ∧ (∀ other, binding table' other = binding w.table other) ∨
    Alters w req ∧ ∃ key entry overwrites, req.args[0]? = some key ∧
      binding w.table key ≠ some entry ∧ (overwrites = true ↔ Creates w req) ∧
      StoresRest w req key entry ∧ Stores w.table key entry overwrites table'

/-- How a command ends: it leaves the table and alters nothing, or stores an entry under its key, which alters
something where the key is bound to another one. -/
inductive Written [Externals D] (w : World D) (req : RespRequest) (table' : Table D) : Prop where
  | same (same : table' = w.table) (unaltered : ¬ Alters w req)
  | stores {key : Bytes} {entry : Entry D} {overwrites : Bool} (isKey : req.args[0]? = some key)
      (stores : Stores w.table key entry overwrites table')
      (alters : Alters w req ↔ binding w.table key ≠ some entry)
      (creates : overwrites = true ↔ Creates w req)
      (fresh : overwrites = true → binding w.table key ≠ some entry)
      (rest : StoresRest w req key entry)

section Effect

variable [Externals D] {w : World D} {req : RespRequest} {table' : Table D}

/-- A write has an effect where the entry is another one, and has none where it is not. -/
theorem Written.effect (written : Written w req table') : Effect w req table' := by
  cases written with
  | same same unaltered => exact .inl ⟨unaltered, fun _ => by rw [same]⟩
  | @stores key entry overwrites isKey stores alters creates fresh rest =>
    by_cases altered : Alters w req
    · exact .inr ⟨altered, key, entry, overwrites, isKey, alters.mp altered, creates, rest, stores⟩
    · have same : binding w.table key = some entry := by
        by_contra differs
        exact altered (alters.mpr differs)
      refine .inl ⟨altered, fun other => ?_⟩
      by_cases isOther : other = key
      · rw [isOther, stores.binding_self, same]
      · by_contra changed
        exact fresh ((stores.binding_of_ne isOther).mp changed).1 same

theorem Effect.binding_iff (effect : Effect w req table') (other : Bytes) :
    binding table' other ≠ binding w.table other ↔ Affects w req other := by
  obtain ⟨unaltered, kept⟩ | ⟨altered, key, entry, overwrites, isKey, differs, creates, _, stores⟩ :=
    effect
  · rw [kept other]
    simp only [ne_eq, not_true_eq_false, false_iff]
    exact fun affected => unaltered affected.1
  · by_cases isOther : other = key
    · subst isOther
      rw [stores.binding_self]
      exact ⟨fun _ => ⟨altered, other, isKey, .inl rfl⟩, fun _ same => differs same.symm⟩
    · rw [stores.binding_of_ne isOther, creates]
      constructor
      · exact fun lost => ⟨altered, key, isKey, .inr lost⟩
      · rintro ⟨_, key', isKey', reason⟩
        obtain rfl : key = key' := Option.some.inj (isKey.symm.trans isKey')
        exact reason.resolve_left isOther

end Effect

/-! ## The commands -/

section Commands

variable [Externals D] {w t : World D} {req : RespRequest} {clientFd : Int} {ptr : ClientPtr}

theorem handleSet_written (isSet : req.command = .set)
    (run : handleSet req .string clientFd w = .ok ((), t)) : Written w req t.table := by
  have alters_iff : Alters w req ↔ SetAlters w req := by rw [Alters, isSet]
  unfold handleSet at run
  split at run
  · rename_i few
    simp only [pure_run, Except.ok.injEq, Prod.mk.injEq, true_and] at run
    refine .same (by rw [run]) fun altered => ?_
    have := (alters_iff.mp altered).1
    omega
  · rename_i enough
    obtain ⟨key, read, reads, afterKey⟩ := bind_eq_ok.mp run
    obtain ⟨isKey, rfl⟩ := arg_ok.mp reads
    obtain ⟨value, read', reads', afterValue⟩ := bind_eq_ok.mp afterKey
    obtain ⟨isValue, rfl⟩ := arg_ok.mp reads'
    obtain ⟨_, stored, storing, replies⟩ := bind_eq_ok.mp afterValue
    obtain ⟨_, stores⟩ := storeSet_stores storing
    have sameTable : t.table = stored.table :=
      (obeys_sendUnlessMaster ambient_sameTable _ _ stored).1 () t replies
    rw [sameTable]
    refine .stores isKey stores ?_ ?_ (by simp) (by simp [StoresRest])
    · rw [alters_iff]
      constructor
      · rintro ⟨_, key', isKey', value', isValue', differs⟩
        obtain rfl : key = key' := Option.some.inj (isKey.symm.trans isKey')
        obtain rfl : value = value' := Option.some.inj (isValue.symm.trans isValue')
        exact differs
      · exact fun differs => ⟨by omega, key, isKey, value, isValue, differs⟩
    · simp [Creates, isSet]

theorem handleIncr_written (isIncr : req.command = .incr)
    (run : handleIncr req clientFd w = .ok ((), t)) : Written w req t.table := by
  have alters_iff : Alters w req ↔ IncrAlters w req := by rw [Alters, isIncr]
  have creates : (false = true) ↔ Creates w req := by simp [Creates, isIncr]
  unfold handleIncr at run
  obtain ⟨key, read, reads, afterKey⟩ := bind_eq_ok.mp run
  obtain ⟨isKey, rfl⟩ := arg_ok.mp reads
  obtain ⟨entry, found, walk, afterWalk⟩ := bind_eq_ok.mp afterKey
  obtain ⟨bound, rfl⟩ := storeGetEntry_ok walk
  have incr_iff : Alters found req ↔ (match binding found.table key with
      | some ⟨.string text, _⟩ => atoi text ≠ 0 ∨ text = lit "0"
      | _ => True) := by
    rw [alters_iff, IncrAlters, isKey]
    simp
  cases entry with
  | none =>
    obtain ⟨_, stored, storing, replies⟩ := bind_eq_ok.mp afterWalk
    obtain ⟨_, stores⟩ := storeSet_stores storing
    rw [send_run replies]
    refine .stores isKey stores ?_ creates (by simp) (by simp [StoresRest])
    rw [incr_iff, bound]
    simp
  | some entry =>
    obtain ⟨value, expiresAt⟩ := entry
    dsimp only at afterWalk
    split at afterWalk
    · simp [fault] at afterWalk
    obtain ⟨text, rfl, rest⟩ := asString_takesOut.cast_ok afterWalk
    split at rest
    · rename_i notNumber
      rw [send_run rest]
      refine .same rfl ?_
      rw [incr_iff, bound]
      exact fun number => number.elim (fun nonzero => nonzero notNumber.1) notNumber.2
    · rename_i number
      split at rest
      · simp [fault] at rest
      · rename_i noOverflow
        obtain ⟨_, stored, storing, replies⟩ := bind_eq_ok.mp rest
        obtain ⟨_, stores⟩ := storeSet_stores storing
        rw [send_run replies]
        refine .stores isKey stores ?_ creates (by simp) (by simp [StoresRest])
        rw [incr_iff, bound]
        constructor
        · intro _ same
          -- the new text is a greater number than the old one
          simp only [Option.some.injEq, Entry.mk.injEq, Value.string.injEq] at same
          obtain ⟨low, high⟩ := atoi_bounds text
          have reads := atoi_decimalInt (n := atoi text + 1) (by omega) (by omega)
          rw [← same.1] at reads
          omega
        · intro _
          by_contra neither
          simp only [not_or, not_not] at neither
          exact number neither

omit [Externals D] in
/-- The entry that an arm opened, in terms of the binding before. -/
theorem Opens.value_of_bound {key : Bytes} {empty payload value : Value D} {expiresAt expiresAt' : Int}
    {opened : World D} (opens : Opens w key empty payload expiresAt opened)
    (bound : binding w.table key = some ⟨value, expiresAt'⟩) :
    payload = value ∧ expiresAt = expiresAt' := by
  obtain ⟨bound', _⟩ | ⟨unbound, _⟩ := opens.before
  · rw [bound] at bound'
    simp only [Option.some.injEq, Entry.mk.injEq] at bound'
    exact ⟨bound'.1.symm, bound'.2.symm⟩
  · simp [bound] at unbound

theorem handleLpush_written (isLpush : req.command = .lpush)
    (run : handleLpush req clientFd w = .ok ((), t)) : Written w req t.table := by
  have alters_iff : Alters w req ↔ 2 ≤ req.argc := by rw [Alters, isLpush]
  by_cases enough : 2 ≤ req.argc
  · obtain ⟨key, list, expiresAt, opened, isKey, opens, pushes⟩ := handleLpush_ok enough run
    have differs : binding w.table key ≠
        some ⟨.list ((req.args.drop 1).reverse ++ list), expiresAt⟩ := by
      intro same
      have := congrArg List.length (Value.list.inj (opens.value_of_bound same).1)
      have := req.supplied
      simp only [List.length_append, List.length_reverse, List.length_drop] at *
      omega
    refine .stores isKey pushes.stores ?_ ?_ (fun _ => differs) (by simp [StoresRest, isLpush])
    · rw [alters_iff]
      exact ⟨fun _ => differs, fun _ => enough⟩
    · rw [Option.isNone_iff_eq_none, Creates, isKey, isLpush]
      simp
  · unfold handleLpush at run
    rw [if_pos (by omega)] at run
    rw [send_run run]
    exact .same rfl fun altered => enough (alters_iff.mp altered)

theorem handleRpush_written (isRpush : req.command = .rpush)
    (run : handleRpush req clientFd w = .ok ((), t)) : Written w req t.table := by
  have alters_iff : Alters w req ↔ RpushAlters w req := by rw [Alters, isRpush]
  by_cases enough : 2 ≤ req.argc
  · obtain ⟨key, list, expiresAt, opened, isKey, opens, pushes⟩ := handleRpush_ok enough run
    have rpush_iff : Alters w req ↔ (match binding w.table key with
        | some ⟨.list list, _⟩ =>
          longestOf w.clock (w.waiters key) none 0 ≠ none → (list ++ req.args.drop 1).tail ≠ list
        | _ => True) := by
      rw [alters_iff, RpushAlters, isKey]
      simp [enough]
    have creates : (binding w.table key).isNone = true ↔ Creates w req := by
      rw [Option.isNone_iff_eq_none, Creates, isKey, isRpush]
      simp
    cases pushes with
    | unserved nobody keeps stores =>
      -- nothing is served, so the list got longer
      have differs : binding w.table key ≠ some ⟨.list (list ++ req.args.drop 1), expiresAt⟩ := by
        intro same
        have := congrArg List.length (Value.list.inj (opens.value_of_bound same).1)
        have := req.supplied
        simp only [List.length_append, List.length_drop] at *
        omega
      refine .stores isKey stores ?_ creates (fun _ => differs) (by simp [StoresRest, isRpush])
      rw [rpush_iff]
      refine ⟨fun _ => differs, fun _ => ?_⟩
      split
      · exact fun served => absurd nobody served
      · trivial
    | served ptr client first rest longest found elements keeps stores =>
      have isTail : (list ++ req.args.drop 1).tail = rest := by rw [elements, List.tail_cons]
      refine .stores isKey stores ?_ creates (fun unbound => ?_) (by simp [StoresRest, isRpush])
      · rw [rpush_iff]
        obtain ⟨bound, _⟩ | ⟨unbound, _⟩ := opens.before
        · rw [bound]
          simp only [longest, isTail]
          simp [eq_comm]
        · rw [unbound]
          simp
      · rw [Option.isNone_iff_eq_none.mp unbound]
        simp
  · unfold handleRpush at run
    rw [if_pos (by omega)] at run
    rw [send_run run]
    exact .same rfl fun altered => enough (alters_iff.mp altered).1

theorem handleLpop_written (isLpop : req.command = .lpop)
    (run : handleLpop req clientFd w = .ok ((), t)) : Written w req t.table := by
  have alters_iff : Alters w req ↔ LpopAlters w req := by rw [Alters, isLpop]
  cases handleLpop_ok run with
  | nothing noKey same =>
    refine .same (by rw [same]) fun altered => ?_
    obtain ⟨key, isKey, _⟩ := alters_iff.mp altered
    have := lt_argc isKey
    omega
  | refused key text isKey isError empty same =>
    refine .same (by rw [same]; rfl) fun altered => ?_
    obtain ⟨key', isKey', pops⟩ := alters_iff.mp altered
    obtain rfl : key = key' := Option.some.inj (isKey.symm.trans isKey')
    split at pops
    · rename_i values expiresAt bound
      exact absurd (empty values expiresAt bound) (by omega)
    · exact pops
  | popped key text values expiresAt isKey bound taken one array keeps stores =>
    have few : popCount req values ≤ values.length := by
      unfold popCount
      split <;> omega
    have differs : binding w.table key ≠
        some ⟨.list (values.drop (popCount req values)), expiresAt⟩ := by
      rw [bound]
      intro same
      simp only [Option.some.injEq, Entry.mk.injEq, Value.list.injEq, and_true] at same
      have := congrArg List.length same
      rw [List.length_drop] at this
      omega
    refine .stores isKey stores ?_ (by simp [Creates, isLpop]) (by simp)
      (storesRest_of_suffix bound (List.drop_suffix _ _))
    rw [alters_iff]
    refine ⟨fun _ => differs, fun _ => ⟨key, isKey, ?_⟩⟩
    rw [bound]
    exact taken

theorem handleBlpop_written (isBlpop : req.command = .blpop)
    (run : handleBlpop req ptr w = .ok ((), t)) : Written w req t.table := by
  have alters_iff : Alters w req ↔ BlpopAlters w req := by rw [Alters, isBlpop]
  cases handleBlpop_ok run with
  | nothing few same =>
    refine .same (by rw [same]) fun altered => ?_
    have := (alters_iff.mp altered).1
    omega
  | popped key first rest expiresAt client enough isKey bound found keeps stores =>
    refine .stores isKey stores ?_ (by simp [Creates, isBlpop]) (by simp)
      (storesRest_of_suffix bound (List.suffix_cons first rest))
    rw [alters_iff, BlpopAlters, isKey, bound]
    simp [enough, bound]
  | blocked key client timeoutAt blockedAt enough isKey empty found keeps =>
    refine .same (by rw [keeps]) fun altered => ?_
    obtain ⟨_, key', isKey', pops⟩ := alters_iff.mp altered
    obtain rfl : key = key' := Option.some.inj (isKey.symm.trans isKey')
    obtain unbound | ⟨expiresAt, bound⟩ := empty
    · simp [unbound] at pops
    · simp [bound] at pops

/-! ### Sorted sets -/

omit [Externals D] in
theorem openZSet_opens {key : Bytes} {set : ZSet D}
    (run : openZSet key w = .ok (set, t)) :
    ∃ expiresAt, Opens w key (.zset ⟨[], 0⟩) (.zset set) expiresAt t :=
  opens_of_run asZSet_takesOut run

theorem handleZadd_ok (run : handleZadd req clientFd w = .ok ((), t)) :
    (¬ (3 ≤ req.argc ∧ (req.argc - 1).tmod 2 = 0) ∧ t.table = w.table) ∨
      (3 ≤ req.argc ∧ (req.argc - 1).tmod 2 = 0) ∧
        ∃ key set expiresAt opened, req.args[0]? = some key ∧
          Opens w key (.zset ⟨[], 0⟩) (.zset set) expiresAt opened ∧
          Stores w.table key ⟨.zset (addPairs set (req.args.drop 1)), expiresAt⟩
            (binding w.table key).isNone t.table := by
  unfold handleZadd at run
  split at run
  · rename_i few
    simp only [pure_run, Except.ok.injEq, Prod.mk.injEq, true_and] at run
    exact .inl ⟨fun given => absurd given.1 (by omega), by rw [run]⟩
  · rename_i enough
    split at run
    · rename_i odd
      exact .inl ⟨fun given => odd given.2, by rw [send_run run]; rfl⟩
    · rename_i even
      obtain ⟨key, read, reads, afterKey⟩ := bind_eq_ok.mp run
      obtain ⟨isKey, rfl⟩ := arg_ok.mp reads
      obtain ⟨set, opened, openRun, afterOpen⟩ := bind_eq_ok.mp afterKey
      obtain ⟨expiresAt, opens⟩ := openZSet_opens openRun
      refine .inr ⟨⟨by omega, by simpa using even⟩, key, set, expiresAt, opened, isKey, opens, ?_⟩
      split at afterOpen
      · obtain ⟨_, changed, updates, replies⟩ := bind_eq_ok.mp afterOpen
        obtain ⟨_, stores⟩ := updateEntry_stores opens.bound updates
        rw [sendText] at replies
        rw [send_run replies]
        exact opens.stores stores
      · rename_i one
        obtain ⟨score, read', reads', afterScore⟩ := bind_eq_ok.mp afterOpen
        obtain ⟨isScore, rfl⟩ := arg_ok.mp reads'
        obtain ⟨member, read'', reads'', afterMember⟩ := bind_eq_ok.mp afterScore
        obtain ⟨isMember, rfl⟩ := arg_ok.mp reads''
        obtain ⟨_, changed, updates, replies⟩ := bind_eq_ok.mp afterMember
        obtain ⟨_, stores⟩ := updateEntry_stores opens.bound updates
        have sameTable : t.table = changed.table := by
          split at replies <;> rw [send_run replies] <;> rfl
        -- one pair, so the request has three arguments
        have words : req.args.drop 1 = [score, member] := by
          have supplied := req.supplied
          rw [Int.tdiv_eq_ediv_of_nonneg (by omega)] at one
          rw [Int.tmod_eq_emod_of_nonneg (by omega)] at even
          have : req.args.length = 3 := by omega
          obtain ⟨_, second, third, args⟩ := List.length_eq_three.mp this
          rw [args] at isScore isMember ⊢
          simp only [List.getElem?_cons_succ, List.getElem?_cons_zero, Option.some.injEq] at isScore isMember
          rw [← isScore, ← isMember]
          rfl
        rw [sameTable, words]
        exact opens.stores stores

theorem pairsAlter_iff {key : Bytes} {set : ZSet D} {expiresAt : Int} {opened : World D}
    {words : List Bytes} (opens : Opens w key (.zset ⟨[], 0⟩) (.zset set) expiresAt opened) :
    PairsAlter w key words ↔ binding w.table key ≠ some ⟨.zset (addPairs set words), expiresAt⟩ := by
  unfold PairsAlter
  obtain ⟨bound, _⟩ | ⟨unbound, _⟩ := opens.before
  · rw [bound]
    simp [eq_comm]
  · rw [unbound]
    simp

theorem handleZadd_written (isZadd : req.command = .zadd)
    (run : handleZadd req clientFd w = .ok ((), t)) : Written w req t.table := by
  have alters_iff : Alters w req ↔ ZaddAlters w req := by rw [Alters, isZadd]
  obtain ⟨notGiven, same⟩ | ⟨given, key, set, expiresAt, opened, isKey, opens, stores⟩ :=
    handleZadd_ok run
  · exact .same same fun altered => notGiven (alters_iff.mp altered).1
  · refine .stores isKey stores ?_ ?_ (fun unbound => ?_) (by simp [StoresRest])
    · rw [alters_iff, ZaddAlters, isKey, ← pairsAlter_iff opens]
      simp [given]
    · rw [Option.isNone_iff_eq_none, Creates, isKey, isZadd]
      simp
    · rw [Option.isNone_iff_eq_none.mp unbound]
      simp

theorem length_geoScores {triples : List (Bytes × Bytes × Bytes)} {words : List Bytes}
    (scores : geoScores (D := D) triples = .ok words) : words.length = 2 * triples.length := by
  induction triples generalizing words with
  | nil =>
    obtain rfl : [] = words := by simpa [geoScores] using scores
    rfl
  | cons triple triples inductionHypothesis =>
    obtain ⟨longtitude, latitude, member⟩ := triple
    simp only [geoScores] at scores
    split at scores
    · split at scores
      · simp at scores
      · rename_i rest restScores
        obtain rfl := Except.ok.inj scores
        have := inductionHypothesis restScores
        simp only [List.length_cons]
        omega
    · simp at scores

theorem handleGeoadd_written (isGeoadd : req.command = .geoadd)
    (run : handleGeoadd req clientFd w = .ok ((), t)) : Written w req t.table := by
  have alters_iff : Alters w req ↔ GeoaddAlters w req := by rw [Alters, isGeoadd]
  unfold handleGeoadd at run
  split at run
  · rename_i few
    simp only [pure_run, Except.ok.injEq, Prod.mk.injEq, true_and] at run
    refine .same (by rw [run]) fun altered => ?_
    have := (alters_iff.mp altered).1
    omega
  · rename_i enough
    obtain ⟨key, read, reads, afterKey⟩ := bind_eq_ok.mp run
    obtain ⟨isKey, rfl⟩ := arg_ok.mp reads
    have geoadd_iff : Alters read req ↔ (match geoScores (D := D) (geoTriples (req.args.drop 1)) with
        | .error _ => False
        | .ok words => PairsAlter read key words) := by
      rw [alters_iff, GeoaddAlters, isKey]
      simp only [Option.mem_some_iff, exists_eq_left']
      exact and_iff_right (by omega)
    cases scores : geoScores (D := D) (geoTriples (req.args.drop 1)) with
    | error invalid =>
      simp only [scores, sendText] at afterKey
      rw [send_run afterKey]
      refine .same rfl ?_
      rw [geoadd_iff, scores]
      exact id
    | ok words =>
      simp only [scores] at afterKey
      -- at least one position is given, so the request to `handle_zadd` has a pair
      have given : 3 ≤ (zaddRequest (key :: words)).argc ∧
          ((zaddRequest (key :: words)).argc - 1).tmod 2 = 0 := by
        have supplied := req.supplied
        have lengths := length_geoScores scores
        have triple : 1 ≤ (geoTriples (req.args.drop 1)).length := by
          have long : 3 ≤ (req.args.drop 1).length := by
            rw [List.length_drop]
            omega
          match req.args.drop 1, long with
          | _ :: _ :: _ :: _, _ => simp [geoTriples]
        simp only [zaddRequest, List.length_cons]
        rw [Int.tmod_eq_emod_of_nonneg (by omega)]
        omega
      obtain ⟨notGiven, _⟩ | ⟨_, key', set, expiresAt, opened, isKey', opens, stores⟩ :=
        handleZadd_ok afterKey
      · exact absurd given notGiven
      · obtain rfl : key = key' := by simpa [zaddRequest] using isKey'
        refine .stores isKey stores ?_ ?_ (fun unbound => ?_) (by simp [StoresRest])
        · rw [geoadd_iff, scores]
          exact pairsAlter_iff opens
        · rw [Option.isNone_iff_eq_none, Creates, isKey, isGeoadd]
          simp
        · rw [Option.isNone_iff_eq_none.mp unbound]
          simp

end Commands

/-! ### Members that are removed -/

section Removal

variable {set : ZSet D} {member : Bytes} {members : List Bytes}

theorem length_removeMember {entries : List (ZSetEntry D)}
    (present : ∃ entry ∈ entries, entry.member = member) :
    (removeMember member entries).length < entries.length := by
  induction entries with
  | nil => simp at present
  | cons first rest inductionHypothesis =>
    rw [removeMember]
    split
    · simp
    · rename_i notFirst
      obtain ⟨entry, inside, isMember⟩ := present
      obtain rfl | inRest := List.mem_cons.mp inside
      · exact absurd isMember notFirst
      · have := inductionHypothesis ⟨entry, inRest, isMember⟩
        simpa using this

theorem removeOne_absent (count : Nat) (absent : ¬ ∃ entry ∈ set.entries, entry.member = member) :
    removeOne (set, count) member = (set, count) := by
  have none : set.entries.any (fun curr => curr.member = member) = false := by
    simpa using absent
  simp [removeOne, zsetRemove, none]

theorem length_removeOne (count : Nat) (present : ∃ entry ∈ set.entries, entry.member = member) :
    (removeOne (set, count) member).1.entries.length < set.entries.length := by
  have some : set.entries.any (fun curr => curr.member = member) = true := by
    simpa using present
  simp only [removeOne, zsetRemove, some, if_true]
  exact length_removeMember present

theorem length_removeOnes (state : ZSet D × Nat) :
    (members.foldl removeOne state).1.entries.length ≤ state.1.entries.length := by
  induction members generalizing state with
  | nil => rfl
  | cons member members inductionHypothesis =>
    refine (inductionHypothesis _).trans ?_
    by_cases present : ∃ entry ∈ state.1.entries, entry.member = member
    · exact (length_removeOne state.2 present).le
    · rw [removeOne_absent state.2 present]

/-- Removing members changes the set exactly where one of them is in it. -/
theorem removeOnes_iff (count : Nat) :
    (members.foldl removeOne (set, count)).1 ≠ set ↔
      ∃ member ∈ members, ∃ entry ∈ set.entries, entry.member = member := by
  induction members generalizing count with
  | nil => simp
  | cons member members inductionHypothesis =>
    rw [List.foldl_cons]
    by_cases present : ∃ entry ∈ set.entries, entry.member = member
    · refine ⟨fun _ => ⟨member, List.mem_cons_self, present⟩, fun _ same => ?_⟩
      have shorter : (members.foldl removeOne (removeOne (set, count) member)).1.entries.length ≤
          (removeOne (set, count) member).1.entries.length := length_removeOnes _
      have := length_removeOne count present
      rw [same] at shorter
      omega
    · rw [removeOne_absent count present, inductionHypothesis]
      constructor
      · rintro ⟨other, inside, found⟩
        exact ⟨other, List.mem_cons_of_mem _ inside, found⟩
      · rintro ⟨other, inside, found⟩
        obtain rfl | inRest := List.mem_cons.mp inside
        · exact absurd found present
        · exact ⟨other, inRest, found⟩

end Removal

section Commands

variable [Externals D] {w t : World D} {req : RespRequest} {clientFd : Int} {ptr : ClientPtr}

omit [Externals D] in
theorem handleZrem_ok (run : handleZrem req clientFd w = .ok ((), t)) :
    t.table = w.table ∧ (2 ≤ req.argc → ∀ key ∈ req.args[0]?, binding w.table key = none) ∨
      2 ≤ req.argc ∧ ∃ key set expiresAt, req.args[0]? = some key ∧
        binding w.table key = some ⟨.zset set, expiresAt⟩ ∧
        Stores w.table key ⟨.zset ((req.args.drop 1).foldl removeOne (set, 0)).1, expiresAt⟩ false
          t.table := by
  unfold handleZrem at run
  split at run
  · simp only [pure_run, Except.ok.injEq, Prod.mk.injEq, true_and] at run
    exact .inl ⟨by rw [run], fun enough => by omega⟩
  · rename_i enough
    obtain ⟨key, read, reads, afterKey⟩ := bind_eq_ok.mp run
    obtain ⟨isKey, rfl⟩ := arg_ok.mp reads
    obtain ⟨unbound, replies⟩ | ⟨set, expiresAt, bound, removes⟩ :=
      withPayload_ok asZSet_takesOut afterKey
    · refine .inl ⟨by rw [send_run replies]; rfl, fun _ key' isKey' => ?_⟩
      obtain rfl : key = key' := Option.some.inj (isKey.symm.trans isKey')
      exact unbound
    · obtain ⟨_, changed, updates, replies⟩ := bind_eq_ok.mp removes
      obtain ⟨_, stores⟩ := updateEntry_stores bound updates
      rw [send_run replies]
      exact .inr ⟨by omega, key, set, expiresAt, isKey, bound, stores⟩

theorem handleZrem_written (isZrem : req.command = .zrem)
    (run : handleZrem req clientFd w = .ok ((), t)) : Written w req t.table := by
  have alters_iff : Alters w req ↔ ZremAlters w req := by rw [Alters, isZrem]
  obtain ⟨same, unbound⟩ | ⟨enough, key, set, expiresAt, isKey, bound, stores⟩ := handleZrem_ok run
  · refine .same same fun altered => ?_
    obtain ⟨enough, key, isKey, present⟩ := alters_iff.mp altered
    rw [unbound enough key isKey] at present
    exact present
  · refine .stores isKey stores ?_ (by simp [Creates, isZrem]) (by simp) (by simp [StoresRest])
    have changes : Alters w req ↔ ((req.args.drop 1).foldl removeOne (set, 0)).1 ≠ set := by
      rw [alters_iff, ZremAlters, isKey, removeOnes_iff]
      simp [enough, bound]
    rw [changes, bound]
    simp [eq_comm]

theorem handleGeosearch_written (isGeosearch : req.command = .geosearch)
    (run : handleGeosearch req clientFd w = .ok ((), t)) : Written w req t.table := by
  have alters_iff : Alters w req ↔ GeosearchAlters w req := by rw [Alters, isGeosearch]
  unfold handleGeosearch at run
  split at run
  · rename_i few
    simp only [pure_run, Except.ok.injEq, Prod.mk.injEq, true_and] at run
    refine .same (by rw [run]) fun altered => ?_
    have := (alters_iff.mp altered).1
    omega
  · rename_i enough
    obtain ⟨key, read, reads, afterKey⟩ := bind_eq_ok.mp run
    obtain ⟨isKey, rfl⟩ := arg_ok.mp reads
    obtain ⟨set, opened, openRun, afterOpen⟩ := bind_eq_ok.mp afterKey
    obtain ⟨expiresAt, opens⟩ := openZSet_opens openRun
    have geosearch_iff : Alters read req ↔ binding read.table key = none := by
      rw [alters_iff, GeosearchAlters, isKey]
      simp only [Option.mem_some_iff, exists_eq_left']
      exact and_iff_right (by omega)
    -- the search itself only reads
    have reader : ∀ i, Obeys (SameTable (D := D)) (fun _ => True) (req.arg i : M D Bytes) :=
      fun i => obeys_arg ambient_sameTable (.inl trivial)
    have sameTable : t.table = opened.table := by
      refine ((obeys_seq ambient_sameTable (reader 6) fun unit => ?_) opened).1 () t afterOpen
      refine obeys_seq ambient_sameTable (reader 5) fun range => ?_
      refine obeys_seq ambient_sameTable (reader 2) fun longtitude => ?_
      refine obeys_seq ambient_sameTable (reader 3) fun latitude => ?_
      refine obeys_seq ambient_sameTable (obeys_selectMembers ambient_sameTable _ _ _ _ _ _)
        fun selected => ?_
      exact Obeys.ite (fun _ => obeys_sendText ambient_sameTable _ _ _)
        fun _ => obeys_send ambient_sameTable _ _
    rw [sameTable]
    obtain ⟨bound, same⟩ | ⟨unbound, _, _, stores⟩ := opens.before
    · refine .same same ?_
      rw [geosearch_iff, bound]
      simp
    · refine .stores isKey stores ?_ ?_ (fun _ => ?_) (by simp [StoresRest])
      · rw [geosearch_iff, unbound]
        simp
      · rw [Creates, isKey, isGeosearch]
        simp [unbound]
      · rw [unbound]
        simp

end Commands

/-! ### Streams -/

section Commands

variable {w t : World D} {req : RespRequest} {clientFd : Int} {ptr : ClientPtr}

theorem storedStream_of_binding {table : Table D} {key : Bytes} {stream : Stream} {expiresAt : Int}
    (bound : binding table key = some ⟨.stream stream, expiresAt⟩) : storedStream table key = stream := by
  rw [storedStream, bound]

theorem storedStream_ok {key : Bytes} {stream : Stream}
    (run : withPayload key asStream (pure ⟨[], none, 0, 0, 0⟩) pure w = .ok (stream, t)) :
    stream = storedStream w.table key ∧ t = w := by
  obtain ⟨unbound, missing⟩ | ⟨stored, expiresAt, bound, found⟩ :=
    withPayload_ok asStream_takesOut run
  · simp only [pure_run, Except.ok.injEq, Prod.mk.injEq] at missing
    exact ⟨by rw [storedStream, unbound, ← missing.1], missing.2.symm⟩
  · simp only [pure_run, Except.ok.injEq, Prod.mk.injEq] at found
    exact ⟨by rw [storedStream, bound, ← found.1], found.2.symm⟩

/-- The reply with the ID leaves everything but what was sent and, behind an ID that is too long for its
array, the stale bytes. -/
theorem sendEntryId_ends (clientFd : Int) (id : Bytes) (w : World D) :
    ∃ sent fresh, sendEntryId clientFd id w = .ok ((), { w with sent := sent, fresh := fresh }) := by
  unfold sendEntryId
  rw [bind_of_ok (show config w = .ok (w.serverConfig, w) from rfl)]
  split
  · split
    · rename_i fits
      unfold Buffer.sendPrefix
      rw [if_neg (Nat.not_lt.mpr fits)]
      exact ⟨_, w.fresh, rfl⟩
    · exact ⟨_, _, rfl⟩
  · exact ⟨w.sent, w.fresh, rfl⟩

/-- The first node of its bucket is another one's, if there is any. -/
theorem storeOpened_run {key : Bytes} {bucket : Bucket} (inBucket : bucketOf key = some bucket)
    (other : (w.table bucket).nodes.head?.map Prod.fst ≠ some key) (stream : Stream) :
    storeOpened key stream w = storeSetStream key stream w := by
  unfold storeOpened
  rw [bind_of_ok (tableIndex_of_bucket inBucket w), bind_of_ok (observe_run _ w), if_neg other]

/-- The first node is its own, and the stream is freed before it is stored. -/
theorem storeOpened_freed {key : Bytes} {bucket : Bucket} (inBucket : bucketOf key = some bucket)
    (first : (w.table bucket).nodes.head?.map Prod.fst = some key) (stream : Stream) :
    storeOpened key stream w = .error .useAfterFree := by
  unfold storeOpened
  rw [bind_of_ok (tableIndex_of_bucket inBucket w), bind_of_ok (observe_run _ w), if_pos first]
  rfl

/-- The stream was stored in a node that is not the first of its bucket. -/
theorem storeOpened_ok {key : Bytes} {stream : Stream} (run : storeOpened key stream w = .ok ((), t)) :
    storeSetStream key stream w = .ok ((), t) := by
  unfold storeOpened at run
  obtain ⟨bucket, indexed, indexes, afterIndex⟩ := bind_eq_ok.mp run
  obtain ⟨table, _, observes, stores⟩ := bind_eq_ok.mp afterIndex
  obtain ⟨_, rfl⟩ := Prod.mk.inj (Except.ok.inj observes)
  split at stores
  · cases stores
  · rwa [(tableIndex_eq_ok.mp indexes).2] at stores

theorem appendEntry_stores {key : Bytes} {stream : Stream} {entry : StreamEntry} {ms seq : Int}
    (isStored : stream = storedStream w.table key)
    (run : appendEntry key stream entry ms seq w = .ok ((), t)) :
    ∃ expiresAt, Stores w.table key
      ⟨.stream ⟨stream.entries ++ [entry], some entry, ms, seq, stream.length + 1⟩, expiresAt⟩
      (decide (stream.entries = [])) t.table := by
  unfold appendEntry at run
  split at run
  · rename_i empty
    obtain ⟨_, stores⟩ := storeSetContainer_stores (storeOpened_ok run)
    rw [empty] at stores ⊢
    exact ⟨0, stores⟩
  · rename_i nonempty
    split at run
    · simp [fault] at run
    · -- a stream with entries is the one that the key is bound to
      obtain ⟨expiresAt, bound⟩ : ∃ expiresAt,
          binding w.table key = some ⟨.stream stream, expiresAt⟩ := by
        rw [storedStream] at isStored
        split at isStored
        · rename_i stored expiresAt bound
          exact ⟨expiresAt, by rw [isStored, bound]⟩
        · exact absurd (by rw [isStored]) nonempty
      obtain ⟨_, stores⟩ := updateEntry_stores bound run
      rw [decide_eq_false nonempty]
      exact ⟨expiresAt, stores⟩

/-- How an XADD ends. -/
inductive XaddEnds (w : World D) (req : RespRequest) (t : World D) : Prop where
  | short (few : req.argc < 2) (same : t = w)
  | rejected (key id errorResp : Bytes) (checked : World D) (enough : 2 ≤ req.argc)
      (isKey : req.args[0]? = some key) (isId : req.args[1]? = some id)
      (checks : checkStreamId id (storedStream w.table key).tail w = .ok (some errorResp, checked))
      (sameTable : t.table = w.table)
  | appended (key id entryId : Bytes) (ms seq expiresAt : Int) (checked chosen scanned : World D)
      (enough : 2 ≤ req.argc) (isKey : req.args[0]? = some key) (isId : req.args[1]? = some id)
      (checks : checkStreamId id (storedStream w.table key).tail w = .ok (none, checked))
      (chooses : chooseId (storedStream w.table key) id checked = .ok (entryId, chosen))
      (scans : scanId entryId chosen = .ok ((ms, seq), scanned))
      (stores : Stores w.table key
        ⟨.stream ⟨(storedStream w.table key).entries ++ [⟨entryId, req.args.drop 2⟩],
          some ⟨entryId, req.args.drop 2⟩, ms, seq, (storedStream w.table key).length + 1⟩, expiresAt⟩
        (decide ((storedStream w.table key).entries = [])) t.table)

theorem handleXadd_ok (run : handleSet req .stream clientFd w = .ok ((), t)) : XaddEnds w req t := by
  unfold handleSet at run
  split at run
  · rename_i few
    simp only [pure_run, Except.ok.injEq, Prod.mk.injEq, true_and] at run
    exact .short few run.symm
  · rename_i enough
    dsimp only at run
    unfold handleSetStream at run
    obtain ⟨key, read, reads, afterKey⟩ := bind_eq_ok.mp run
    obtain ⟨isKey, rfl⟩ := arg_ok.mp reads
    obtain ⟨stream, opened, opens, afterStream⟩ := bind_eq_ok.mp afterKey
    obtain ⟨isStored, rfl⟩ := storedStream_ok opens
    obtain ⟨id, read', reads', afterId⟩ := bind_eq_ok.mp afterStream
    obtain ⟨isId, rfl⟩ := arg_ok.mp reads'
    obtain ⟨errorMsg, checked, checks, afterCheck⟩ := bind_eq_ok.mp afterId
    -- only `appendEntry` writes to the table; the calls around it are followed for their tables
    have checkedTable : checked.table = read'.table :=
      (obeys_checkStreamId ambient_sameTable id stream.tail read').1 errorMsg checked checks
    cases errorMsg with
    | some errorResp =>
      have sameTable : t.table = checked.table :=
        (obeys_sendUnlessMaster ambient_sameTable _ _ checked).1 () t afterCheck
      exact .rejected key id errorResp checked (by omega) isKey isId (isStored ▸ checks)
        (sameTable.trans checkedTable)
    | none =>
      dsimp only at afterCheck
      obtain ⟨entryId, chosen, chooses, afterChoice⟩ := bind_eq_ok.mp afterCheck
      have chosenTable : chosen.table = checked.table :=
        (obeys_chooseId ambient_sameTable stream id checked).1 entryId chosen chooses
      obtain ⟨⟨ms, seq⟩, scanned, scans, afterScan⟩ := bind_eq_ok.mp afterChoice
      have scannedTable : scanned.table = chosen.table :=
        (obeys_scanId ambient_sameTable entryId chosen).1 _ scanned scans
      obtain ⟨_, appended, appends, replies⟩ := bind_eq_ok.mp afterScan
      have tableBefore : scanned.table = read'.table :=
        scannedTable.trans (chosenTable.trans checkedTable)
      rw [← tableBefore] at isStored
      obtain ⟨expiresAt, stores⟩ := appendEntry_stores isStored appends
      have sameTable : t.table = appended.table := by
        refine ((obeys_seq ambient_sameTable (obeys_sendEntryId ambient_sameTable entryId)
          fun _ => ?_) appended).1 () t replies
        exact obeys_forM ambient_sameTable clientSlots fun slot _ =>
          obeys_wakeStreamReader ambient_sameTable mayBlock_sameTable key slot
      rw [tableBefore] at stores isStored
      subst isStored
      rw [← sameTable] at stores
      exact .appended key id entryId ms seq expiresAt checked chosen scanned (by omega) isKey isId checks
        chooses scans stores

theorem handleXadd_written [Externals D] (isXadd : req.command = .xadd)
    (run : handleSet req .stream clientFd w = .ok ((), t)) : Written w req t.table := by
  have alters_iff : Alters w req ↔ XaddAlters w req := by rw [Alters, isXadd]
  cases handleXadd_ok run with
  | short few same =>
    refine .same (by rw [same]) fun altered => ?_
    have := (alters_iff.mp altered).1
    omega
  | rejected key id errorResp checked enough isKey isId checks sameTable =>
    refine .same sameTable ?_
    rw [alters_iff, XaddAlters, isKey, isId]
    simp [checks]
  | appended key id entryId ms seq expiresAt checked chosen scanned enough isKey isId checks chooses
      scans stores =>
    have alters : Alters w req := by
      rw [alters_iff, XaddAlters, isKey, isId]
      simp [checks, enough]
    have differs : binding w.table key ≠ some
        ⟨.stream ⟨(storedStream w.table key).entries ++ [⟨entryId, req.args.drop 2⟩],
          some ⟨entryId, req.args.drop 2⟩, ms, seq, (storedStream w.table key).length + 1⟩,
          expiresAt⟩ := by
      intro same
      have grown := congrArg (fun stream => stream.entries.length) (storedStream_of_binding same)
      simp at grown
    refine .stores isKey stores ?_ ?_ (fun _ => differs) (by simp [StoresRest])
    · simp [alters, differs]
    · rw [Creates, isKey, isXadd]
      simp

/-! ## The dispatcher -/

variable [Externals D]

/-- The handlers that write alter the table under their condition, and the others never. -/
theorem arm_written {client : Client} (run : arm req ptr client w = .ok ((), t)) :
    Written w req t.table := by
  have kept := kept_arm run
  unfold arm at run
  cases command : req.command with
  | set => rw [command] at run; exact handleSet_written command run
  | incr => rw [command] at run; exact handleIncr_written command run
  | lpush => rw [command] at run; exact handleLpush_written command run
  | rpush => rw [command] at run; exact handleRpush_written command run
  | lpop => rw [command] at run; exact handleLpop_written command run
  | blpop => rw [command] at run; exact handleBlpop_written command run
  | zadd => rw [command] at run; exact handleZadd_written command run
  | zrem => rw [command] at run; exact handleZrem_written command run
  | geoadd => rw [command] at run; exact handleGeoadd_written command run
  | geosearch => rw [command] at run; exact handleGeosearch_written command run
  | xadd => rw [command] at run; exact handleXadd_written command run
  | _ =>
    refine .same (funext fun bucket => kept.table bucket fun writes => ?_) ?_
    · have := writes.1
      rw [ArmWrites, command] at this
      exact this
    · rw [Alters, command]
      exact id

theorem arm_effect {client : Client} (run : arm req ptr client w = .ok ((), t)) : Effect w req t.table :=
  (arm_written run).effect

theorem dispatch_affects_iff (run : dispatch req ptr w = .ok ((), t)) (other : Bytes) :
    binding t.table other ≠ binding w.table other ↔ Affects (w.noted req) req other := by
  obtain ⟨_, handled, notified, _, handler, notify, write⟩ := dispatch_parts run
  rw [table_afterArm notify write]
  exact (arm_effect handler).binding_iff other

/-- A step changes a binding exactly where it runs a command that affects it. -/
theorem step_affects_iff {s u : Server D} {event : Event} (outside : OutsideMulti s)
    (step : Step s event u) (other : Bytes) :
    binding u.world.table other ≠ binding s.world.table other ↔
      ∃ ptr req, Dispatches s event ptr req ∧ Affects (s.world.noted req) req other := by
  by_cases dispatched : ∃ ptr req, Dispatches s event ptr req
  · obtain ⟨ptr, req, dispatches⟩ := dispatched
    obtain ⟨handled, run, kept⟩ := dispatch_of_step outside step dispatches
    have sameTable : u.world.table = handled.table := funext fun bucket => kept.table bucket id
    rw [sameTable, dispatch_affects_iff run other]
    constructor
    · exact fun affects => ⟨ptr, req, dispatches, affects⟩
    · rintro ⟨ptr', req', dispatches', affects⟩
      obtain ⟨rfl, rfl⟩ : ptr = ptr' ∧ req = req' := by
        have same := dispatches.1.symm.trans dispatches'.1
        simpa using same
      exact affects
  · rw [(data_of_step outside step fun ptr req dispatches => dispatched ⟨ptr, req, dispatches⟩).1]
    simp only [ne_eq, not_true_eq_false, false_iff]
    exact fun ⟨ptr, req, dispatches, _⟩ => dispatched ⟨ptr, req, dispatches⟩

end Commands

end RedisClone
