import RedisClone.Verified.Lists

/-! # Keys whose time has passed

Only `store_get` compares a deadline with the clock.  A key that it hides is still in its node, where
`store_getEntry` and the walk of KEYS find it: `hidden_key_remains` says what becomes of the commands.
-/

namespace RedisClone

open Exec CString

variable {D : Type}

/-! ## Hidden keys -/

/-- GET answers as for an absent key, because the deadline of the entry has passed. -/
structure Hidden (w : World D) (key : Bytes) (entry : Entry D) : Prop where
  found : lookup w.table key = .ok (some entry)
  timed : entry.expiresAt ≠ 0
  passed : entry.expiresAt ≤ w.clock 0

/-- The state without the nodes of a key. -/
def World.forget (w : World D) (key : Bytes) : World D :=
  { w with table := fun bucket =>
      { w.table bucket with nodes := (w.table bucket).nodes.filter fun node => node.1 ≠ key } }

/-- What GET finds of a key at this time. -/
def visible (table : Table D) (now : Int) (key : Bytes) : Option (Entry D) :=
  (binding table key).filter fun entry => entry.expiresAt = 0 ∨ now < entry.expiresAt

/-- From both states the same bytes are sent, and every key is left with the same entry, as far as GET can
tell. -/
def SameAnswer (now : Int) (x : M D Unit) (w w' : World D) : Prop :=
  match x w, x w' with
  | .ok (_, t), .ok (_, t') => t.sent = t'.sent ∧ ∀ key, visible t.table now key = visible t'.table now key
  | .error f, .error f' => f = f'
  | _, _ => False

/-- Every command treats the key as an absent one. -/
structure Gone [Externals D] (w : World D) (key : Bytes) : Prop where
  type : ∀ (req : RespRequest) fd, req.args[0]? = some key →
    handleType req fd w = .ok ((), w.emit fd (lit "+none\r\n"))
  keys : ∀ keys t, keysOf (List.finRange tableSize) w = .ok (keys, t) → key ∉ keys
  incr : ∀ (req : RespRequest) fd, req.args[0]? = some key → ∃ t, handleIncr req fd w = .ok ((), t) ∧
    t.sent = w.sent ++ [(fd, lit ":1\r\n")] ∧ binding t.table key = some ⟨.string (lit "1"), 0⟩
  others : ∀ (req : RespRequest) ptr, req.args[0]? = some key → req.command ≠ .get →
    SameAnswer (w.clock 0) (handle req ptr) w (w.forget key)

section Hidden

variable {w t : World D} {key : Bytes} {entry : Entry D} {req : RespRequest} {fd : Int}

theorem Hidden.getEntry (hidden : Hidden w key entry) : storeGetEntry key w = .ok (some entry, w) := by
  rw [storeGetEntry_run, hidden.found]

theorem Hidden.get (hidden : Hidden w key entry) : storeGet key w = .ok (none, w.tick) := by
  unfold storeGet
  rw [bind_of_ok hidden.getEntry]
  dsimp only
  rw [if_pos hidden.timed, bind_of_ok (show getCurrentTimeMs w = .ok (w.clock 0, w.tick) from rfl),
    if_pos hidden.passed]
  rfl

/-! ## TYPE and KEYS -/

theorem Hidden.type (hidden : Hidden w key entry) (isKey : req.args[0]? = some key) :
    handleType req fd w = .ok ((), w.emit fd (typeReply entry.type)) := by
  unfold handleType
  rw [bind_of_ok (arg_ok.mpr ⟨isKey, rfl⟩), bind_of_ok hidden.getEntry]
  rfl

theorem typeReply_ne_none (type : RedisType) : typeReply type ≠ lit "+none\r\n" := by
  cases type <;> decide

theorem Hidden.listed (hidden : Hidden w key entry) {keys : List Bytes}
    (run : keysOf (List.finRange tableSize) w = .ok (keys, t)) : key ∈ keys := by
  obtain ⟨_, isAll, _⟩ := keysOf_all.mp run
  rw [isAll]
  exact mem_tableKeys_of_binding (binding_of_lookup hidden.found)

/-! ## INCR -/

theorem integerReply_injective {m n : Int} (same : integerReply m = integerReply n) : m = n := by
  unfold integerReply at same
  exact decimalInt_injective (by simpa using same)

/-- INCR of a key that has an entry. -/
theorem handleIncr_run (found : lookup w.table key = .ok (some entry)) (isKey : req.args[0]? = some key) :
    handleIncr req fd w =
      (if atoi key = 2 ^ 31 - 1 then fault .overflow
      else do
        let text ← asString entry.value
        if atoi text = 0 ∧ text ≠ lit "0" then send fd (lit "-ERR value is not an integer or out of range\r\n")
        else if atoi text = 2 ^ 31 - 1 then fault .overflow
        else do
          storeSet key (.string (decimalInt (atoi text + 1))) .noTimeFlag (-1)
          send fd (integerReply (atoi text + 1)) : M D Unit) w := by
  rw [handleIncr, bind_of_ok (arg_ok.mpr ⟨isKey, rfl⟩), bind_run, storeGetEntry_run, found]

/-- What INCR sends for a key that has an entry. -/
theorem handleIncr_found (found : lookup w.table key = .ok (some entry)) (isKey : req.args[0]? = some key)
    (run : handleIncr req fd w = .ok ((), t)) : ∃ text, atoi key ≠ 2 ^ 31 - 1 ∧ entry.value = .string text ∧
      (atoi text = 0 ∧ text ≠ lit "0" ∧
          t = w.emit fd (lit "-ERR value is not an integer or out of range\r\n") ∨
        ¬ (atoi text = 0 ∧ text ≠ lit "0") ∧ t.sent = w.sent ++ [(fd, integerReply (atoi text + 1))]) := by
  rw [handleIncr_run found isKey] at run
  split at run
  · simp [fault] at run
  · rename_i printed
    obtain ⟨text, isText, rest⟩ := asString_takesOut.cast_ok run
    refine ⟨text, printed, isText, ?_⟩
    split at rest
    · rename_i notNumber
      exact .inl ⟨notNumber.1, notNumber.2, send_run rest⟩
    · rename_i isNumber
      split at rest
      · simp [fault] at rest
      · obtain ⟨_, stored, stores, replies⟩ := bind_eq_ok.mp rest
        obtain ⟨keeps, _⟩ := storeSet_stores stores
        have sent : stored.sent = w.sent := by rw [keeps]
        refine .inr ⟨isNumber, ?_⟩
        rw [send_run replies, World.emit, sent]

theorem atoi_zero : atoi (lit "0") = 0 := by decide

/-- INCR of a key with an entry answers as for an absent key exactly where the entry is the text `0` and the number that
the key starts with can be printed one higher. -/
theorem handleIncr_as_absent (found : lookup w.table key = .ok (some entry)) :
    (∀ (req : RespRequest) fd, req.args[0]? = some key → ∃ t, handleIncr req fd w = .ok ((), t) ∧
      t.sent = w.sent ++ [(fd, lit ":1\r\n")] ∧ binding t.table key = some ⟨.string (lit "1"), 0⟩) ↔
      atoi key ≠ 2 ^ 31 - 1 ∧ entry.value = .string (lit "0") := by
  constructor
  · intro asAbsent
    obtain ⟨t, run, sent, _⟩ := asAbsent ⟨.incr, [key], 1, .null, rfl⟩ 0 rfl
    obtain ⟨text, printed, isText, ⟨_, _, refused⟩ | ⟨isNumber, replied⟩⟩ := handleIncr_found found rfl run
    · -- the error is not the reply
      rw [refused] at sent
      have same := List.append_cancel_left sent
      exact absurd same (by decide)
    · rw [replied] at sent
      have same : integerReply (atoi text + 1) = integerReply 1 := by
        have isOne : lit ":1\r\n" = integerReply 1 := by decide
        rw [← isOne]
        simpa using List.append_cancel_left sent
      have isOne := integerReply_injective same
      have isZero : atoi text = 0 := by omega
      have isText0 : text = lit "0" := by
        by_contra other
        exact isNumber ⟨isZero, other⟩
      exact ⟨printed, by rw [isText, isText0]⟩
  · rintro ⟨printed, isZero⟩ req fd isKey
    obtain ⟨value, expiresAt⟩ := entry
    obtain rfl : value = .string (lit "0") := isZero
    obtain ⟨bucket, inBucket, _⟩ := Option.bind_eq_some_iff.mp (binding_of_lookup found)
    have stores : ∃ stored, storeSet key (.string (lit "1")) .noTimeFlag (-1) w = .ok ((), stored) := by
      unfold storeSet
      rw [bind_of_ok (tableIndex_of_bucket inBucket w), bind_run, storeGetEntry_run, found]
      exact ⟨_, rfl⟩
    obtain ⟨stored, stores⟩ := stores
    obtain ⟨keeps, writes⟩ := storeSet_stores stores
    refine ⟨stored.emit fd (lit ":1\r\n"), ?_, ?_, writes.binding_self⟩
    · rw [handleIncr_run found isKey, if_neg printed, asString_takesOut.out, pure_bind, atoi_zero]
      exact bind_of_ok stores
    · rw [World.emit, show stored.sent = w.sent by rw [keeps]]

end Hidden

/-! ## All commands -/

section AllCommands

variable [Externals D] {w : World D} {key : Bytes} {entry : Entry D}

theorem Hidden.not_gone (hidden : Hidden w key entry) : ¬ Gone w key := by
  intro gone
  have asAbsent := gone.type ⟨.type, [key], 1, .null, rfl⟩ 0 rfl
  rw [hidden.type rfl] at asAbsent
  have sent : w.sent ++ [(0, typeReply entry.type)] = w.sent ++ [(0, lit "+none\r\n")] :=
    congrArg (World.sent ∘ Prod.snd) (Except.ok.inj asAbsent)
  have same : typeReply entry.type = lit "+none\r\n" := by simpa using List.append_cancel_left sent
  exact typeReply_ne_none entry.type same

/-- A key that GET hides because of its deadline is gone for no other command: TYPE replies the type of the
entry, the walk of KEYS collects the key, and INCR answers as for an absent key only where the entry is the
text `0` and the key can be printed as a number. -/
theorem hidden_key_remains (hidden : Hidden w key entry) :
    storeGet key w = .ok (none, w.tick) ∧ ¬ Gone w key ∧
      (∀ (req : RespRequest) fd, req.args[0]? = some key →
        handleType req fd w = .ok ((), w.emit fd (typeReply entry.type))) ∧
      (∀ keys t, keysOf (List.finRange tableSize) w = .ok (keys, t) → key ∈ keys) ∧
      ((∀ (req : RespRequest) fd, req.args[0]? = some key → ∃ t, handleIncr req fd w = .ok ((), t) ∧
          t.sent = w.sent ++ [(fd, lit ":1\r\n")] ∧ binding t.table key = some ⟨.string (lit "1"), 0⟩) ↔
        atoi key ≠ 2 ^ 31 - 1 ∧ entry.value = .string (lit "0")) :=
  ⟨hidden.get, hidden.not_gone, fun _ _ isKey => hidden.type isKey, fun _ _ run => hidden.listed run,
    handleIncr_as_absent hidden.found⟩

end AllCommands

/-- After `SET k v PX 1` at the time 0, at the time 1. -/
theorem exists_hidden : ∃ (req : RespRequest) (w w' : World Int), w.table = (fun _ => Chain.empty) ∧
    handleSet req .string 4 w = .ok ((), w') ∧ Hidden w' (lit "k") ⟨.string (lit "v"), 1⟩ := by
  let request : RespRequest := ⟨.set, [lit "k", lit "v", lit "PX", lit "1"], 4, .null, rfl⟩
  obtain ⟨w, run, clock, found⟩ : ∃ w, handleSet request .string 4
      { blankWorld Int with clock := fun n => n } = .ok ((), w) ∧ w.clock 0 = 1 ∧
        lookup w.table (lit "k") = .ok (some ⟨.string (lit "v"), 1⟩) := ⟨_, rfl, rfl, rfl⟩
  exact ⟨request, _, w, rfl, run, found, by decide, by rw [clock]⟩

theorem hidden_key_remains_set : ∃ (w : World Int) (key : Bytes), storeGet key w = .ok (none, w.tick) ∧
    ∀ (req : RespRequest) fd, req.args[0]? = some key →
      handleType req fd w = .ok ((), w.emit fd (lit "+string\r\n")) := by
  obtain ⟨_, _, w, _, _, hidden⟩ := exists_hidden
  exact ⟨w, _, (hidden_key_remains hidden).1, (hidden_key_remains hidden).2.2.1⟩

/-- GET hides the key, and TYPE still replies `string`. -/
theorem hidden_key_not_gone : ¬ ∀ (w : World Int) (key : Bytes) (entry : Entry Int),
    Hidden w key entry → Gone w key := by
  intro always
  obtain ⟨_, _, w, _, _, hidden⟩ := exists_hidden
  exact hidden.not_gone (always w _ _ hidden)

end RedisClone
