import RedisClone.Verified.Deques
import RedisClone.Verified.Expiry
import RedisClone.Verified.Slices
import RedisClone.Verified.Snapshots

/-! # String values

GET answers with the stored text and SET and INCR store one.  GET prints into 1024 bytes (`get_whole_iff`); a deadline of
SET is lost where it is one of the values that stand for no deadline (`set_expiry_iff`), and INCR writes none at all
(`incr_keeps_deadline_iff`).  `incr_law_iff` says which texts INCR reads as the numbers that they are.
-/

namespace RedisClone

open Exec CString

variable {D : Type}

/-! ## GET -/

/-- GET of a key. -/
def getRequest (key : Bytes) : RespRequest := ⟨.get, [key], 1, .null, rfl⟩

theorem getRequest_key (key : Bytes) : (getRequest key).args[0]? = some key := rfl

section Get

variable {w t : World D} {key text : Bytes} {entry : Entry D} {fd : Int} {req : RespRequest}

theorem storeGet_live (found : lookup w.table key = .ok (some entry)) (live : Live w entry) :
    ∃ t, storeGet key w = .ok (some entry.value, t) ∧ t.sent = w.sent := by
  unfold storeGet
  rw [bind_of_ok (show storeGetEntry key w = .ok (some entry, w) by rw [storeGetEntry_run, found])]
  dsimp only
  by_cases timed : entry.expiresAt ≠ 0
  · have remaining : ¬ entry.expiresAt ≤ w.clock 0 := by
      have := live.resolve_left timed
      omega
    rw [if_pos timed, bind_of_ok (show getCurrentTimeMs w = .ok (w.clock 0, w.tick) from rfl), if_neg remaining]
    exact ⟨w.tick, rfl, rfl⟩
  · rw [if_neg timed]
    exact ⟨w, rfl, rfl⟩

variable (fd) in
/-- GET sends what fits in its buffer. -/
theorem handleGet_live (isKey : req.args[0]? = some key) (found : lookup w.table key = .ok (some entry))
    (isText : entry.value = .string text) (live : Live w entry) :
    ∃ t, handleGet req fd w = .ok ((), t) ∧ t.sent = w.sent ++ [(fd, (bulk text).take 1023)] := by
  obtain ⟨t, run, sent⟩ := storeGet_live found live
  rw [handleGet, bind_of_ok (arg_ok.mpr ⟨isKey, rfl⟩), bind_of_ok run]
  dsimp only
  rw [isText, asString_takesOut.out, pure_bind]
  exact ⟨t.emit fd ((bulk text).take 1023), rfl, by rw [World.emit, sent]⟩

variable (fd) in
theorem handleGet_hidden (isKey : req.args[0]? = some key) (hidden : Hidden w key entry) :
    ∃ t, handleGet req fd w = .ok ((), t) ∧ t.sent = w.sent ++ [(fd, nilReply)] := by
  rw [handleGet, bind_of_ok (arg_ok.mpr ⟨isKey, rfl⟩), bind_of_ok hidden.get]
  exact ⟨w.tick.emit fd nilReply, rfl, rfl⟩

/-- GET answers with the whole text. -/
def GetsWhole (req : RespRequest) (fd : Int) (w : World D) (text : Bytes) : Prop :=
  ∃ t, handleGet req fd w = .ok ((), t) ∧ t.sent = w.sent ++ [(fd, bulk text)]

theorem getsWhole_iff_of_run {reply : Bytes} (run : handleGet req fd w = .ok ((), t))
    (sent : t.sent = w.sent ++ [(fd, reply)]) : GetsWhole req fd w text ↔ reply = bulk text := by
  constructor
  · rintro ⟨u, run', whole⟩
    obtain rfl : t = u := congrArg Prod.snd (Except.ok.inj (run.symm.trans run'))
    have same : [(fd, reply)] = [(fd, bulk text)] := List.append_cancel_left (sent.symm.trans whole)
    simpa using same
  · rintro rfl
    exact ⟨t, run, sent⟩

theorem length_decimal_le_iff {n k : Nat} (positive : 0 < k) : (decimal n).length ≤ k ↔ n < 10 ^ k := by
  rw [decimal, List.length_map]
  exact Nat.length_toDigits_le_iff (by decide) positive

theorem take_bulk_iff : (bulk text).take 1023 = bulk text ↔ text.length ≤ 1014 := by
  have fits : (bulk text).take 1023 = bulk text ↔ (bulk text).length ≤ 1023 := by
    constructor
    · intro whole
      rw [← whole]
      exact List.length_take_le _ _
    · exact List.take_of_length_le
  rw [fits, length_bulk_eq]
  have four := length_decimal_le_iff (n := text.length) (k := 4) (by decide)
  have three := length_decimal_le_iff (n := text.length) (k := 3) (by decide)
  omega

theorem get_whole_iff (isKey : req.args[0]? = some key) (found : lookup w.table key = .ok (some entry))
    (isText : entry.value = .string text) (live : Live w entry) :
    GetsWhole req fd w text ↔ text.length ≤ 1014 := by
  obtain ⟨t, run, sent⟩ := handleGet_live fd isKey found isText live
  rw [getsWhole_iff_of_run run sent, take_bulk_iff]

/-- A text that fits is sent exactly as long as the entry lives. -/
theorem getsWhole_iff_live (isKey : req.args[0]? = some key) (found : lookup w.table key = .ok (some entry))
    (isText : entry.value = .string text) (short : text.length ≤ 1014) :
    GetsWhole req fd w text ↔ Live w entry := by
  by_cases live : Live w entry
  · obtain ⟨t, run, sent⟩ := handleGet_live fd isKey found isText live
    exact iff_of_true ((getsWhole_iff_of_run run sent).mpr (take_bulk_iff.mpr short)) live
  · obtain ⟨timed, passed⟩ := not_or.mp live
    obtain ⟨t, run, sent⟩ := handleGet_hidden fd isKey ⟨found, timed, by omega⟩
    refine iff_of_false (fun whole => ?_) live
    have same := (getsWhole_iff_of_run run sent).mp whole
    exact bulk_ne_nil (congrArg (· ++ []) same.symm)

end Get

/-- A snapshot with one string of 1015 bytes. -/
def longValue : Snapshot where
  header := lit "REDIS0011"
  nine := length_header
  items := [.record {
    deadline := .none
    key := ⟨.six, lit "k", by decide, by decide⟩
    value := ⟨.fourteen, List.replicate 1015 97, by rw [List.length_replicate]; decide,
      by rw [List.length_replicate]; decide⟩
    asciiKey := by decide +kernel
    nulFree := fun c member => (ascii_of_mem_replicate c member).1
    nonNegative := nonNegative_none }]
  distinct := List.nodup_singleton _
  trailer := []

theorem get_whole_iff_x :
    GetsWhole (getRequest (lit "k")) 5 (worldWith (D := Int) (lit "k") (.string (lit "x"))) (lit "x") :=
  (get_whole_iff rfl (lookup_worldWith indexed_k _) rfl (.inl rfl)).mpr (by decide)

/-- A loaded string of 1015 bytes is cut. -/
theorem long_value_cut : ∃ t : World Int, loadRdbIntoTable (some longValue.encode) (blankWorld Int) = .ok (1, t) ∧
    lookup t.table (lit "k") = .ok (some ⟨.string (List.replicate 1015 97), 0⟩) ∧
    ¬ GetsWhole (getRequest (lit "k")) 5 t (List.replicate 1015 97) := by
  have fit : ItemsFit longValue.items 0 := by
    refine ⟨fun item member => ?_, by decide⟩
    obtain rfl := List.mem_singleton.mp member
    rintro (overlong | overlong)
    · exact absurd overlong (by decide)
    · have length : (List.replicate 1015 (97 : UInt8)).length + 1 = 2 ^ 31 := overlong
      rw [List.length_replicate] at length
      omega
  obtain ⟨t, loads, entries⟩ : longValue.LoadsExactly (blankWorld Int) := Snapshot.loadsExactly rfl fit
  have found : lookup t.table (lit "k") = .ok (some ⟨.string (List.replicate 1015 97), 0⟩) := by
    have entry := entries _ List.mem_cons_self
    exact lookup_of_binding (storeGetEntry_ok entry).1
  obtain ⟨u, run, sent⟩ := handleGet_live 5 (getRequest_key (lit "k")) found rfl (.inl rfl)
  refine ⟨t, loads, found, ?_⟩
  rw [getsWhole_iff_of_run run sent, take_bulk_iff, List.length_replicate]
  decide

/-! ## SET -/

section Set

variable {w t : World D} {key value : Bytes} {set req : RespRequest} {fd : Int} {existing : Option (Entry D)}

theorem storeSet_total (found : lookup w.table key = .ok existing) (stored : Value D) (flag : TimeFlags)
    (seconds : Int) : ∃ t, storeSet key stored flag seconds w = .ok ((), t) := by
  have timed : ∃ expiresAt u, expiryOf flag seconds w = .ok (expiresAt, u) := by
    unfold expiryOf
    split
    · rw [bind_of_ok (show getCurrentTimeMs w = .ok (w.clock 0, w.tick) from rfl)]
      cases flag <;> exact ⟨_, _, rfl⟩
    · exact ⟨0, w, rfl⟩
  obtain ⟨expiresAt, u, timed⟩ := timed
  have inBucket : ∃ bucket, bucketOf key = some bucket := by
    cases inBucket : bucketOf key with
    | none => simp [lookup, inBucket] at found
    | some bucket => exact ⟨bucket, rfl⟩
  obtain ⟨bucket, inBucket⟩ := inBucket
  unfold storeSet
  rw [bind_of_ok (tableIndex_of_bucket inBucket w),
    bind_of_ok (show storeGetEntry key w = .ok (existing, w) by rw [storeGetEntry_run, found]), bind_of_ok timed]
  cases existing with
  | none => exact ⟨_, rfl⟩
  | some entry => exact ⟨_, rfl⟩

theorem storeSet_finds {stored : Value D} {flag : TimeFlags} {seconds : Int}
    (run : storeSet key stored flag seconds w = .ok ((), t)) : ∃ existing, lookup w.table key = .ok existing := by
  unfold storeSet at run
  obtain ⟨bucket, indexed, index, rest⟩ := bind_eq_ok.mp run
  obtain ⟨inBucket, rfl⟩ := tableIndex_eq_ok.mp index
  obtain ⟨existing, found, walk, _⟩ := bind_eq_ok.mp rest
  rw [storeGetEntry_run] at walk
  cases isFound : lookup indexed.table key with
  | error f => simp [isFound] at walk
  | ok existing => exact ⟨existing, rfl⟩

/-- The option of SET, with its number. -/
inductive SetOption where
  | none
  | ex (seconds : Int)
  | px (milliseconds : Int)

namespace SetOption

def words : SetOption → List Bytes
  | none => []
  | ex seconds => [lit "EX", decimalInt seconds]
  | px milliseconds => [lit "PX", decimalInt milliseconds]

/-- The number is an `int`. -/
def IsInt : SetOption → Prop
  | none => True
  | ex number | px number => -2 ^ 31 ≤ number ∧ number < 2 ^ 31

instance : (option : SetOption) → Decidable option.IsInt
  | none => inferInstanceAs (Decidable True)
  | ex number | px number => inferInstanceAs (Decidable (-2 ^ 31 ≤ number ∧ number < 2 ^ 31))

/-- When the value is gone. -/
def deadline (now : Int) : SetOption → Option Int
  | none => Option.none
  | ex seconds => some (now + 1000 * seconds)
  | px milliseconds => some (now + milliseconds)

/-- The number is the one that stands for no option, or the deadline the one that stands for none. -/
def Clashes (now : Int) : SetOption → Prop
  | none => False
  | ex seconds => seconds = -1 ∨ now + 1000 * seconds = 0
  | px milliseconds => milliseconds = -1 ∨ now + milliseconds = 0

instance (now : Int) : (option : SetOption) → Decidable (option.Clashes now)
  | none => inferInstanceAs (Decidable False)
  | ex seconds => inferInstanceAs (Decidable (seconds = -1 ∨ now + 1000 * seconds = 0))
  | px milliseconds => inferInstanceAs (Decidable (milliseconds = -1 ∨ now + milliseconds = 0))

/-- `expires_at` of the entry. -/
def stored (now : Int) : SetOption → Int
  | none => 0
  | ex seconds => if seconds ≠ -1 then now + seconds * 1000 else 0
  | px milliseconds => if milliseconds ≠ -1 then now + milliseconds else 0

/-- What `handle_set_flags` reads of the option. -/
def read : SetOption → Int × TimeFlags
  | none => (-1, .noTimeFlag)
  | ex seconds => (seconds, .ex)
  | px milliseconds => (milliseconds, .px)

theorem expiryAt_read (option : SetOption) (now : Int) :
    expiryAt now option.read.2 option.read.1 = option.stored now := by
  cases option <;> rfl

theorem setFlags (option : SetOption) (isInt : option.IsInt) (isSet : set.args = key :: value :: option.words) :
    handleSetFlags set = option.read := by
  have supplied := set.supplied
  unfold handleSetFlags
  rw [isSet] at supplied ⊢
  cases option with
  | none =>
    rw [if_pos (by simp only [words, List.length_cons, List.length_nil] at supplied; omega)]
    rfl
  | ex seconds =>
    rw [if_neg (by simp only [words, List.length_cons, List.length_nil] at supplied; omega)]
    simp only [words, List.drop_succ_cons, List.drop_zero, setFlagsFrom, if_pos, read]
    rw [atoi_decimalInt isInt.1 isInt.2]
  | px milliseconds =>
    have other : lit "PX" ≠ lit "EX" := by decide
    rw [if_neg (by simp only [words, List.length_cons, List.length_nil] at supplied; omega)]
    simp only [words, List.drop_succ_cons, List.drop_zero, setFlagsFrom, if_neg other, if_pos, read]
    rw [atoi_decimalInt isInt.1 isInt.2]

/-- In a clash the entry gets no deadline. -/
theorem deadline_of_clash (option : SetOption) {now : Int} (clashes : option.Clashes now) :
    ∃ time, time ∈ option.deadline now ∧ option.stored now = 0 := by
  cases option with
  | none => exact clashes.elim
  | ex seconds =>
    refine ⟨now + 1000 * seconds, rfl, ?_⟩
    obtain rfl | zero := clashes
    · rfl
    · simp only [stored]
      split <;> omega
  | px milliseconds =>
    refine ⟨now + milliseconds, rfl, ?_⟩
    obtain rfl | zero := clashes
    · rfl
    · simp only [stored]
      split <;> omega

end SetOption

theorem handleSet_run (fd : Int) (option : SetOption) (isInt : option.IsInt)
    (isSet : set.args = key :: value :: option.words) (w : World D) :
    handleSet set .string fd w =
      (do storeSet key (.string value) option.read.2 option.read.1; sendUnlessMaster fd okReply) w := by
  have enough : ¬ set.argc < 2 := by
    have supplied := set.supplied
    rw [isSet, List.length_cons, List.length_cons] at supplied
    omega
  have isKey : set.args[0]? = some key := by rw [isSet]; rfl
  have isValue : set.args[1]? = some value := by rw [isSet]; rfl
  unfold handleSet
  rw [if_neg enough]
  simp only [option.setFlags isInt isSet]
  rw [bind_of_ok (arg_ok.mpr ⟨isKey, rfl⟩), bind_of_ok (arg_ok.mpr ⟨isValue, rfl⟩)]

/-- SET runs where the key can be looked up, and binds the key. -/
theorem handleSet_total (fd : Int) (option : SetOption) (isInt : option.IsInt)
    (isSet : set.args = key :: value :: option.words) (found : lookup w.table key = .ok existing) :
    ∃ t, handleSet set .string fd w = .ok ((), t) := by
  obtain ⟨t, run⟩ := storeSet_total found (.string value) option.read.2 option.read.1
  rw [handleSet_run fd option isInt isSet, bind_of_ok run, sendUnlessMaster,
    bind_of_ok (show config t = .ok (t.serverConfig, t) from rfl)]
  split <;> exact ⟨_, rfl⟩

theorem handleSet_stores (option : SetOption) (isInt : option.IsInt) (isSet : set.args = key :: value :: option.words)
    (run : handleSet set .string fd w = .ok ((), t)) : (∃ existing, lookup w.table key = .ok existing) ∧
      lookup t.table key = .ok (some ⟨.string value, option.stored (w.clock 0)⟩) := by
  rw [handleSet_run fd option isInt isSet] at run
  obtain ⟨_, stored, stores, answers⟩ := bind_eq_ok.mp run
  have sameTable : t.table = stored.table := (obeys_sendUnlessMaster ambient_sameTable fd okReply stored).1 _ _ answers
  have bound := (storeSet_stores stores).2.binding_self
  rw [option.expiryAt_read] at bound
  exact ⟨storeSet_finds stores, by rw [sameTable]; exact lookup_of_binding bound⟩

/-- What came from a client is short enough for GET. -/
theorem FromParse.short_value {options : List Bytes} (fromParse : FromParse set)
    (isSet : set.args = key :: value :: options) : value.length ≤ 1014 := by
  have fits := fromParse.strings.1.short value (by rw [isSet]; simp)
  omega

/-- The value is there up to the deadline of the option, as long as nothing else is written. -/
def ExpiresOnTime (set : RespRequest) (fd : Int) (w : World D) (key value : Bytes) (option : SetOption) : Prop :=
  ∃ t, handleSet set .string fd w = .ok ((), t) ∧
    ∀ (later : World D) (get : RespRequest) (fd' : Int), later.table = t.table → w.clock 0 ≤ later.clock 0 →
      get.args[0]? = some key →
        (GetsWhole get fd' later value ↔ ∀ time ∈ option.deadline (w.clock 0), later.clock 0 < time)

/-- In a clash the value stays for ever. -/
theorem not_expiresOnTime {option : SetOption} (fromParse : FromParse set) (isInt : option.IsInt)
    (isSet : set.args = key :: value :: option.words) (clashes : option.Clashes (w.clock 0)) :
    ¬ ExpiresOnTime set fd w key value option := by
  rintro ⟨t, run, onTime⟩
  obtain ⟨_, found⟩ := handleSet_stores option isInt isSet run
  obtain ⟨time, isDeadline, forever⟩ := option.deadline_of_clash clashes
  -- a time behind the deadline, when the value is still there
  let later : World D := { t with clock := fun _ => max (w.clock 0) time }
  have live : GetsWhole (getRequest key) fd later value :=
    (getsWhole_iff_live (w := later) rfl found rfl (fromParse.short_value isSet)).mpr (.inl forever)
  have early : max (w.clock 0) time < time :=
    (onTime later (getRequest key) fd rfl (le_max_left _ _) rfl).mp live time isDeadline
  have late := le_max_right (w.clock 0) time
  omega

theorem set_expiry_iff {option : SetOption} (fromParse : FromParse set) (isInt : option.IsInt)
    (isSet : set.args = key :: value :: option.words) :
    ExpiresOnTime set fd w key value option ↔
      (∃ existing, lookup w.table key = .ok existing) ∧ ¬ option.Clashes (w.clock 0) := by
  constructor
  · intro onTime
    have ⟨t, run, _⟩ := onTime
    exact ⟨(handleSet_stores option isInt isSet run).1, fun clashes => not_expiresOnTime fromParse isInt isSet clashes onTime⟩
  · rintro ⟨⟨existing, isFound⟩, clear⟩
    obtain ⟨t, run⟩ := handleSet_total fd option isInt isSet isFound
    obtain ⟨_, found⟩ := handleSet_stores option isInt isSet run
    refine ⟨t, run, fun later get fd' sameTable _ isKey => ?_⟩
    rw [getsWhole_iff_live isKey (by rw [sameTable]; exact found) rfl (fromParse.short_value isSet), Live]
    cases option with
    | none => simp [SetOption.stored, SetOption.deadline]
    | ex seconds =>
      obtain ⟨isTime, nonzero⟩ := not_or.mp clear
      simp only [SetOption.stored, SetOption.deadline, if_pos isTime, Option.mem_some_iff, forall_eq']
      omega
    | px milliseconds =>
      obtain ⟨isTime, nonzero⟩ := not_or.mp clear
      simp only [SetOption.stored, SetOption.deadline, if_pos isTime, Option.mem_some_iff, forall_eq']
      omega

end Set

/-- `SET k v EX` with a number. -/
def setSeconds (number : Bytes) : RespRequest := requestOf [lit "SET", lit "k", lit "v", lit "EX", number]

/-- A state at some time. -/
def worldAt (now : Int) : World Int := { blankWorld Int with clock := fun _ => now }

theorem set_expiry_iff_five :
    ExpiresOnTime (setSeconds (lit "5")) 5 (worldAt 1700000000000) (lit "k") (lit "v") (.ex 5) := by
  have fromParse : FromParse (setSeconds (lit "5")) := fromParse_requestOf
    ⟨[lit "SET", lit "k", lit "v", lit "EX", lit "5"], by decide, by decide, by decide⟩ (by decide +kernel)
  exact (set_expiry_iff fromParse (by decide) rfl).mpr ⟨⟨none, by decide⟩, by decide⟩

/-- With the number -1 the value stays for ever. -/
theorem set_minus_one_stays :
    ¬ ExpiresOnTime (setSeconds (lit "-1")) 5 (worldAt 1700000000000) (lit "k") (lit "v") (.ex (-1)) := by
  have fromParse : FromParse (setSeconds (lit "-1")) := fromParse_requestOf
    ⟨[lit "SET", lit "k", lit "v", lit "EX", lit "-1"], by decide, by decide, by decide⟩ (by decide +kernel)
  exact not_expiresOnTime fromParse (by decide) rfl (by decide)

/-! ## INCR -/

section Incr

variable {w t : World D} {key text : Bytes} {expiresAt fd : Int} {req : RespRequest}

/-- The text is no number to `handle_incr`. -/
abbrev NotNumber (text : Bytes) : Prop := atoi text = 0 ∧ text ≠ lit "0"

def incrError : Bytes := lit "-ERR value is not an integer or out of range\r\n"

section Found

variable (isKey : req.args[0]? = some key) (found : lookup w.table key = .ok (some ⟨.string text, expiresAt⟩))
include isKey found

/-- The handler prints the number of the key, one higher. -/
theorem handleIncr_key_limit (limit : atoi key = 2 ^ 31 - 1) : handleIncr req fd w = .error .overflow := by
  rw [handleIncr_run found isKey, if_pos limit]
  rfl

theorem handleIncr_refused (printed : atoi key ≠ 2 ^ 31 - 1) (refused : NotNumber text) :
    handleIncr req fd w = .ok ((), w.emit fd incrError) := by
  rw [handleIncr_run found isKey, if_neg printed, asString_takesOut.out, pure_bind, if_pos refused]
  rfl

theorem handleIncr_limit (printed : atoi key ≠ 2 ^ 31 - 1) (limit : atoi text = 2 ^ 31 - 1) :
    handleIncr req fd w = .error .overflow := by
  have number : ¬ NotNumber text := fun refused => by
    have zero := refused.1
    omega
  rw [handleIncr_run found isKey, if_neg printed, asString_takesOut.out, pure_bind, if_neg number, if_pos limit]
  rfl

/-- INCR comes to its end where neither number is the last `int`. -/
theorem handleIncr_below (run : handleIncr req fd w = .ok ((), t)) :
    atoi key ≠ 2 ^ 31 - 1 ∧ atoi text ≠ 2 ^ 31 - 1 := by
  have printed : atoi key ≠ 2 ^ 31 - 1 := by
    intro limit
    rw [handleIncr_key_limit isKey found limit] at run
    cases run
  refine ⟨printed, fun limit => ?_⟩
  rw [handleIncr_limit isKey found printed limit] at run
  cases run

variable (fd) in
theorem handleIncr_increments (printed : atoi key ≠ 2 ^ 31 - 1) (number : ¬ NotNumber text)
    (below : atoi text ≠ 2 ^ 31 - 1) : ∃ t, handleIncr req fd w = .ok ((), t) ∧
      lookup t.table key = .ok (some ⟨.string (decimalInt (atoi text + 1)), 0⟩) ∧
      t.sent = w.sent ++ [(fd, integerReply (atoi text + 1))] := by
  obtain ⟨stored, stores⟩ := storeSet_total found (.string (decimalInt (atoi text + 1))) .noTimeFlag (-1)
  obtain ⟨keeps, bound⟩ := storeSet_stores stores
  have sent : stored.sent = w.sent := by rw [keeps]
  refine ⟨stored.emit fd (integerReply (atoi text + 1)), ?_, lookup_of_binding bound.binding_self, ?_⟩
  · rw [handleIncr_run found isKey, if_neg printed, asString_takesOut.out, pure_bind, if_neg number, if_neg below]
    exact bind_of_ok stores
  · rw [World.emit, sent]

end Found

/-- A number that INCR can take one higher. -/
def Incrementable (n : Int) : Prop := -2 ^ 31 ≤ n ∧ n + 1 < 2 ^ 31

/-- INCR takes exactly the texts of numbers one higher, and refuses the others. -/
def IncrLaw (req : RespRequest) (fd : Int) (w : World D) (key text : Bytes) : Prop :=
  ∃ t, handleIncr req fd w = .ok ((), t) ∧
    (∀ n, Incrementable n → text = decimalInt n → t.sent = w.sent ++ [(fd, integerReply (n + 1))] ∧
      ∃ expiresAt, lookup t.table key = .ok (some ⟨.string (decimalInt (n + 1)), expiresAt⟩)) ∧
    ((¬ ∃ n, Incrementable n ∧ text = decimalInt n) → t.sent = w.sent ++ [(fd, incrError)] ∧
      lookup t.table key = lookup w.table key)

theorem atoi_of_incrementable {n : Int} (isInt : Incrementable n) : atoi (decimalInt n) = n :=
  atoi_decimalInt isInt.1 (by have := isInt.2; omega)

theorem incrError_ne (n : Int) : integerReply n ≠ incrError := by
  intro same
  have heads := congrArg List.head? same
  cases heads

theorem incr_law_iff (isKey : req.args[0]? = some key)
    (found : lookup w.table key = .ok (some ⟨.string text, expiresAt⟩)) :
    IncrLaw req fd w key text ↔
      atoi key ≠ 2 ^ 31 - 1 ∧ (atoi text = 0 ∨ text = decimalInt (atoi text) ∧ atoi text ≠ 2 ^ 31 - 1) := by
  constructor
  · rintro ⟨t, run, _, refuses⟩
    obtain ⟨printed, below⟩ := handleIncr_below isKey found run
    refine ⟨printed, Classical.or_iff_not_imp_left.mpr fun nonzero => ?_⟩
    have number : ¬ NotNumber text := fun refused => nonzero refused.1
    refine ⟨?_, below⟩
    by_contra other
    -- what the law refuses is stored one higher
    have noNumber : ¬ ∃ n, Incrementable n ∧ text = decimalInt n := by
      rintro ⟨n, isInt, rfl⟩
      rw [atoi_of_incrementable isInt] at other
      exact other rfl
    obtain ⟨u, run', _, sent⟩ := handleIncr_increments fd isKey found printed number below
    obtain rfl : t = u := congrArg Prod.snd (Except.ok.inj (run.symm.trans run'))
    have same : [(fd, integerReply (atoi text + 1))] = [(fd, incrError)] :=
      List.append_cancel_left (sent.symm.trans (refuses noNumber).1)
    exact incrError_ne _ (by simpa using same)
  · rintro ⟨printed, isNumber⟩
    by_cases refused : NotNumber text
    · refine ⟨_, handleIncr_refused isKey found printed refused, fun n isInt isText => ?_, fun _ => ⟨rfl, rfl⟩⟩
      subst isText
      obtain ⟨zero, nonzero⟩ := refused
      rw [atoi_of_incrementable isInt] at zero
      subst zero
      exact absurd rfl nonzero
    · have isText : text = decimalInt (atoi text) ∧ Incrementable (atoi text) := by
        obtain ⟨low, high⟩ := atoi_bounds text
        by_cases zero : atoi text = 0
        · have isZero : text = lit "0" := not_not.mp fun nonzero => refused ⟨zero, nonzero⟩
          subst isZero
          exact ⟨by decide, by decide, by decide⟩
        · obtain ⟨isText, below⟩ := isNumber.resolve_left zero
          exact ⟨isText, low, by omega⟩
      obtain ⟨isText, isInt⟩ := isText
      have below : atoi text ≠ 2 ^ 31 - 1 := by
        have high := isInt.2
        omega
      obtain ⟨t, run, stored, sent⟩ := handleIncr_increments fd isKey found printed refused below
      refine ⟨t, run, fun n isInt' isText' => ?_, fun noNumber => absurd ⟨_, isInt, isText⟩ noNumber⟩
      obtain rfl : atoi text = n := decimalInt_injective (isText.symm.trans isText')
      exact ⟨sent, 0, stored⟩

theorem length_decimalInt_le {n : Int} (low : -10 ^ 10 < n) (high : n < 10 ^ 10) : (decimalInt n).length ≤ 11 := by
  cases n with
  | ofNat m =>
    have small : (m : Int) < 10 ^ 10 := high
    have digits := (length_decimal_le_iff (n := m) (k := 10) (by decide)).mpr (by omega)
    exact digits.trans (by decide)
  | negSucc m =>
    have digits := (length_decimal_le_iff (n := m + 1) (k := 10) (by decide)).mpr (by omega)
    exact Nat.succ_le_succ digits

/-- The entry keeps its deadline, and GET shows the new number up to it. -/
def KeepsDeadline (w t : World D) (key text : Bytes) (expiresAt : Int) : Prop :=
  (∃ value, lookup t.table key = .ok (some ⟨value, expiresAt⟩)) ∧
    ∀ (later : World D) (get : RespRequest) (fd : Int), later.table = t.table → w.clock 0 ≤ later.clock 0 →
      get.args[0]? = some key →
        (GetsWhole get fd later (decimalInt (atoi text + 1)) ↔ expiresAt = 0 ∨ later.clock 0 < expiresAt)

theorem incr_keeps_deadline_iff (isKey : req.args[0]? = some key)
    (found : lookup w.table key = .ok (some ⟨.string text, expiresAt⟩)) (number : ¬ NotNumber text)
    (run : handleIncr req fd w = .ok ((), t)) : KeepsDeadline w t key text expiresAt ↔ expiresAt = 0 := by
  obtain ⟨printed, below⟩ := handleIncr_below isKey found run
  obtain ⟨u, run', stored, _⟩ := handleIncr_increments fd isKey found printed number below
  obtain rfl : t = u := congrArg Prod.snd (Except.ok.inj (run.symm.trans run'))
  have short : (decimalInt (atoi text + 1)).length ≤ 1014 := by
    obtain ⟨low, high⟩ := atoi_bounds text
    exact (length_decimalInt_le (by omega) (by omega)).trans (by decide)
  constructor
  · rintro ⟨⟨value, kept⟩, _⟩
    rw [stored] at kept
    simp only [Except.ok.injEq, Option.some.injEq, Entry.mk.injEq] at kept
    exact kept.2.symm
  · rintro rfl
    refine ⟨⟨_, stored⟩, fun later get fd' sameTable _ isKey' => ?_⟩
    rw [getsWhole_iff_live isKey' (by rw [sameTable]; exact stored) rfl short]
    rfl

end Incr

/-- INCR of a key. -/
def incrRequest (key : Bytes) : RespRequest := ⟨.incr, [key], 1, .null, rfl⟩

theorem incrRequest_key (key : Bytes) : (incrRequest key).args[0]? = some key := rfl

theorem incr_law_iff_nine : IncrLaw (incrRequest (lit "k")) 5 (worldWith (D := Int) (lit "k") (.string (lit "9")))
    (lit "k") (lit "9") :=
  (incr_law_iff rfl (lookup_worldWith indexed_k _)).mpr ⟨by decide, .inr ⟨by decide, by decide⟩⟩

/-- The number in front of other characters is taken one higher. -/
theorem incr_accepts_a_front : ¬ IncrLaw (incrRequest (lit "k")) 5
    (worldWith (D := Int) (lit "k") (.string (lit "12abc"))) (lit "k") (lit "12abc") := by
  rintro ⟨t, run, _, refuses⟩
  have noNumber : ¬ ∃ n, Incrementable n ∧ lit "12abc" = decimalInt n := by
    rintro ⟨n, isInt, isText⟩
    have isTwelve : atoi (lit "12abc") = n := by rw [isText, atoi_of_incrementable isInt]
    have twelve : atoi (lit "12abc") = 12 := by decide
    obtain rfl : n = 12 := isTwelve.symm.trans twelve
    exact absurd isText (by decide)
  obtain ⟨u, run', _, sent⟩ := handleIncr_increments 5 (incrRequest_key (lit "k"))
    (lookup_worldWith (D := Int) indexed_k (.string (lit "12abc"))) (by decide) (by decide) (by decide)
  obtain rfl : t = u := congrArg Prod.snd (Except.ok.inj (run.symm.trans run'))
  have same : [((5 : Int), integerReply (atoi (lit "12abc") + 1))] = [(5, incrError)] :=
    List.append_cancel_left (sent.symm.trans (refuses noNumber).1)
  exact incrError_ne _ (by simpa using same)

theorem incr_keeps_deadline_iff_never : ∃ t : World Int,
    handleIncr (incrRequest (lit "k")) 5 (worldWith (lit "k") (.string (lit "9"))) = .ok ((), t) ∧
      KeepsDeadline (worldWith (lit "k") (.string (lit "9"))) t (lit "k") (lit "9") 0 := by
  obtain ⟨t, run, _⟩ := handleIncr_increments 5 (incrRequest_key (lit "k"))
    (lookup_worldWith (D := Int) indexed_k (.string (lit "9"))) (by decide) (by decide) (by decide)
  exact ⟨t, run, (incr_keeps_deadline_iff rfl (lookup_worldWith indexed_k _) (by decide) run).mpr rfl⟩

/-- `SET k 9 EX 5`, and INCR within the five seconds: the key stays for ever. -/
theorem incr_drops_deadline : ∃ w t : World Int,
    handleSet (requestOf [lit "SET", lit "k", lit "9", lit "EX", lit "5"]) .string 5 (worldAt 1700000000000) =
        .ok ((), w) ∧
      lookup w.table (lit "k") = .ok (some ⟨.string (lit "9"), 1700000005000⟩) ∧
      handleIncr (incrRequest (lit "k")) 5 w = .ok ((), t) ∧
      ¬ KeepsDeadline w t (lit "k") (lit "9") 1700000005000 := by
  obtain ⟨w, run⟩ : ∃ w, handleSet (requestOf [lit "SET", lit "k", lit "9", lit "EX", lit "5"]) .string 5
      (worldAt 1700000000000) = .ok ((), w) := 
    handleSet_total 5 (.ex 5) (by decide) rfl (show lookup (worldAt 1700000000000).table (lit "k") = .ok none by decide)
  have found := (handleSet_stores (.ex 5) (by decide) rfl run).2
  obtain ⟨t, run', stored, _⟩ := handleIncr_increments 5 (incrRequest_key (lit "k")) found
    (by decide) (by decide) (by decide)
  refine ⟨w, t, run, found, run', ?_⟩
  rintro ⟨⟨value, kept⟩, _⟩
  rw [stored] at kept
  simp at kept

end RedisClone
