import RedisClone.Lib.CommandLog
import RedisClone.Verified.AcceptedIds

/-! # What the write commands make of the table

`Contents` is the table without the deadlines of its entries and without the stale memory behind its chains, and
`perform` says what a write command makes of it, as a function.  `arm_performs` is the refinement: a handler that ends
leaves the contents that `perform` computes, whatever the clock and the memory gave it, where the command does not
depend on them (`Fixed`).  Those that do are an XADD of a `*`, whose ID is read off the clock, and an RPUSH that hands an
element to a client that waits for it.
-/

/-! ## Chains with other values -/

namespace Chain

variable {κ ν μ : Type}

/-- The chain with other values, and with NULL at its end. -/
def mapValues (f : ν → μ) (chain : Chain κ ν) : Chain κ μ := ⟨chain.nodes.map fun node => (node.1, f node.2), false⟩

variable [DecidableEq κ] {chain : Chain κ ν} {key : κ} {value : ν} (f : ν → μ)

theorem value_mapValues : (chain.mapValues f).value? key = (chain.value? key).map f := by
  unfold value? mapValues
  induction chain.nodes with
  | nil => rfl
  | cons node nodes inductionHypothesis =>
    obtain ⟨other, held⟩ := node
    by_cases same : key = other
    · subst same
      simp
    · rw [List.map_cons, lookup_cons_of_ne same, lookup_cons_of_ne same]
      exact inductionHypothesis

omit [DecidableEq κ] in
theorem keys_mapValues : (chain.mapValues f).nodes.map Prod.fst = chain.nodes.map Prod.fst := by
  simp [mapValues, Function.comp_def]

theorem mapValues_update {g : ν → ν} {h : μ → μ} (through : ∀ value, f (g value) = h (f value)) :
    (chain.update key g).mapValues f = (chain.mapValues f).update key h := by
  suffices (updateNodes key g chain.nodes).map (fun node => (node.1, f node.2)) =
      updateNodes key h (chain.nodes.map fun node => (node.1, f node.2)) by
    simp [mapValues, update, this]
  induction chain.nodes with
  | nil => rfl
  | cons node nodes inductionHypothesis =>
    obtain ⟨other, old⟩ := node
    by_cases same : key = other <;> simp [updateNodes, same, through, inductionHypothesis]

omit [DecidableEq κ] in
theorem mapValues_push : (chain.push key value).mapValues f = (chain.mapValues f).push key (f value) := rfl

omit [DecidableEq κ] in
theorem mapValues_replaceHead (wildNext : Bool) :
    (chain.replaceHead key value wildNext).mapValues f = (chain.mapValues f).replaceHead key (f value) false := by
  unfold replaceHead mapValues
  cases chain.nodes with
  | nil => rfl
  | cons first rest => rfl

/-- A value that is stored again changes nothing. -/
theorem update_of_value (found : chain.value? key = some value) : chain.update key (fun _ => value) = chain := by
  suffices updateNodes key (fun _ => value) chain.nodes = chain.nodes by simp [update, this]
  unfold value? at found
  generalize chain.nodes = nodes at found
  induction nodes with
  | nil => rfl
  | cons node nodes inductionHypothesis =>
    obtain ⟨other, old⟩ := node
    by_cases same : key = other
    · subst same
      obtain rfl : old = value := by simpa using found
      simp [updateNodes]
    · rw [lookup_cons_of_ne same] at found
      simp [updateNodes, same, inductionHypothesis found]

end Chain

namespace RedisClone

open Exec CString

variable {D : Type}

/-! ## Contents -/

abbrev Contents (D : Type) : Type := Bucket → Chain Bytes (Value D)

/-- The keys and values of the nodes, in the order of the chains. -/
def contents (table : Table D) : Contents D := fun bucket => (table bucket).mapValues Entry.value

/-- A value that is stored under a key, in a node of its own or over the first node of the bucket. -/
structure Put (D : Type) where
  key : Bytes
  value : Value D
  overwrites : Bool

namespace Contents

/-- The value of the first node with the key. -/
def value? (held : Contents D) (key : Bytes) : Option (Value D) :=
  (bucketOf key).bind fun bucket => (held bucket).value? key

/-- The chain of the key after its value was stored. -/
def putIn (chain : Chain Bytes (Value D)) (put : Put D) : Chain Bytes (Value D) :=
  if put.overwrites then chain.replaceHead put.key put.value false
  else if (chain.value? put.key).isSome then chain.update put.key fun _ => put.value
  else chain.push put.key put.value

def put (held : Contents D) (put : Put D) : Contents D :=
  match bucketOf put.key with
  | none => held
  | some bucket => Function.update held bucket (putIn (held bucket) put)

end Contents

section Contents

variable {table table' : Table D} {key : Bytes} {entry : Entry D} {overwrites : Bool}

/-- What a key is bound to, by the contents. -/
theorem contents_value (table : Table D) (key : Bytes) :
    (contents table).value? key = (binding table key).map Entry.value := by
  unfold Contents.value? binding
  cases bucketOf key with
  | none => rfl
  | some bucket => exact Chain.value_mapValues _

theorem contents_update (table : Table D) (bucket : Bucket) (chain : Chain Bytes (Entry D)) :
    contents (Function.update table bucket chain) =
      Function.update (contents table) bucket (chain.mapValues Entry.value) := by
  funext other
  by_cases same : other = bucket
  · subst same
    simp [contents]
  · simp [contents, Function.update_of_ne same]

theorem Contents.put_of_bucket {held : Contents D} {put : Put D} {bucket : Bucket}
    (inBucket : bucketOf put.key = some bucket) :
    held.put put = Function.update held bucket (putIn (held bucket) put) := by
  unfold Contents.put
  simp only [inBucket]

/-- A writer stores its value in the contents. -/
theorem Stores.contents (stores : Stores table key entry overwrites table') :
    contents table' = (contents table).put ⟨key, entry.value, overwrites⟩ := by
  have looked {bucket : Bucket} (inBucket : bucketOf key = some bucket) :
      (RedisClone.contents table bucket).value? key = (binding table key).map Entry.value := by
    rw [binding_of_bucket inBucket]
    exact Chain.value_mapValues _
  cases stores with
  | @changed bucket old inBucket bound =>
    rw [Contents.put_of_bucket inBucket, contents_update, Contents.putIn, if_neg (by simp),
      if_pos (by simp [looked inBucket, bound])]
    exact congrArg _ (Chain.mapValues_update _ fun _ => rfl)
  | @pushed bucket inBucket unbound =>
    rw [Contents.put_of_bucket inBucket, contents_update, Contents.putIn, if_neg (by simp),
      if_neg (by simp [looked inBucket, unbound])]
    rfl
  | @replaced bucket inBucket wild =>
    rw [Contents.put_of_bucket inBucket, contents_update, Contents.putIn, if_pos rfl]
    exact congrArg _ (Chain.mapValues_replaceHead _ _)

theorem Contents.put_again {held : Contents D} {value : Value D} (found : held.value? key = some value) :
    held.put ⟨key, value, false⟩ = held := by
  obtain ⟨bucket, inBucket, looked⟩ := Option.bind_eq_some_iff.mp found
  rw [Contents.put_of_bucket inBucket, Contents.putIn, if_neg (by simp), if_pos (by simp [looked]),
    Chain.update_of_value looked, Function.update_eq_self]

end Contents

/-! ## IDs that do not depend on the clock -/

instance (p q : Int × Int) : Decidable (IdBefore p q) := inferInstanceAs (Decidable (_ ∨ _))

instance (text : Bytes) : Decidable (Component text) :=
  decidable_of_iff (text.all isdigit = true ∧ text ≠ [] ∧ text.length ≤ 63 ∧ digitsValue text < 2 ^ 63)
    ⟨fun ⟨digits, nonempty, fits, inRange⟩ => ⟨List.all_eq_true.mp digits, nonempty, fits, inRange⟩,
      fun component => ⟨List.all_eq_true.mpr component.digits, component.nonempty, component.fits, component.inRange⟩⟩

namespace IdForm

/-- The form of an ID with a minus. -/
def ofText (id : Bytes) : Option IdForm :=
  match id.dropWhile (· ≠ 45) with
  | [] => none
  | _ :: rest =>
    let ms := id.takeWhile (· ≠ 45)
    some (if rest = lit "*" then .millisecond ms else .explicit ms rest)

/-- The numbers that are given are read whole. -/
def IsFixed : IdForm → Prop
  | automatic => False
  | millisecond ms => Component ms
  | explicit ms seq => Component ms ∧ Component seq

instance : (form : IdForm) → Decidable form.IsFixed
  | automatic => inferInstanceAs (Decidable False)
  | millisecond ms => inferInstanceAs (Decidable (Component ms))
  | explicit ms seq => inferInstanceAs (Decidable (Component ms ∧ Component seq))

/-- Whether XADD takes the ID behind the entries of the stream.  The first entry of a stream takes any. -/
def accepts (stream : Stream) (form : IdForm) : Bool :=
  stream.tail.isNone ||
    match form with
    | automatic => true
    | millisecond ms => 0 ≤ atoi ms
    | explicit ms seq =>
      ¬ ((digitsValue ms : Int) = 0 ∧ (digitsValue seq : Int) = 0) ∧
        IdBefore (stream.lastMs, stream.lastSeq) ((digitsValue ms : Int), (digitsValue seq : Int))

/-- The sequence number behind the greatest one does not exist. -/
def overflows (stream : Stream) : IdForm → Bool
  | millisecond ms => (digitsValue ms : Int) = stream.lastMs ∧ stream.lastSeq = 2 ^ 63 - 1
  | _ => false

theorem text_ofText {id : Bytes} {form : IdForm} (isForm : ofText id = some form) : form.text = id := by
  unfold ofText at isForm
  split at isForm
  · cases isForm
  · rename_i c rest cut
    obtain rfl : c = 45 := by
      have head := List.head?_dropWhile_not (fun c : UInt8 => decide (c ≠ 45)) id
      rw [cut] at head
      simpa using head
    have whole : id = id.takeWhile (· ≠ 45) ++ 45 :: rest := by
      rw [← cut, List.takeWhile_append_dropWhile]
    obtain rfl := Option.some.inj isForm
    split
    · rename_i star
      rw [star] at whole
      exact whole.symm
    · exact whole.symm

variable {stream : Stream} {form : IdForm} {now : Int}

theorem IsFixed.isDecimal (fixed : form.IsFixed) : form.IsDecimal := by
  cases form with
  | automatic => exact trivial
  | millisecond ms => exact Component.decimal fixed
  | explicit ms seq => exact ⟨fixed.1.decimal, fixed.2.decimal⟩

theorem IsFixed.id_clock (fixed : form.IsFixed) (now : Int) : form.id stream now = form.id stream 0 := by
  cases form with
  | automatic => exact fixed.elim
  | millisecond ms => rfl
  | explicit ms seq => rfl

end IdForm

/-- An ID whose numbers do not depend on the clock. -/
def FixedId (id : Bytes) : Prop := ∃ form ∈ IdForm.ofText id, form.IsFixed

instance (id : Bytes) : Decidable (FixedId id) :=
  inferInstanceAs (Decidable (∃ form, IdForm.ofText id = some form ∧ form.IsFixed))

/-- The numbers that a stream keeps are those of its last entry. -/
structure Numbered (stream : Stream) : Prop where
  last : ∀ entry ∈ stream.tail, idPair entry.id = some (stream.lastMs, stream.lastSeq)
  inRange : PairInRange (stream.lastMs, stream.lastSeq)

theorem numbered_zeroed : Numbered .zeroed :=
  ⟨by simp [Stream.zeroed], by simp [Stream.zeroed, PairInRange]⟩

section Numbered

variable {stream : Stream} {form : IdForm} {w t : World D} {errorMsg : Option Bytes} {entryId : Bytes}

/-- The numbers of an accepted ID are in 64 bits. -/
theorem Numbered.pair_inRange (numbered : Numbered stream) (fixed : form.IsFixed) (room : form.overflows stream = false) :
    PairInRange (form.pair stream 0) := by
  obtain ⟨_, low, high⟩ := numbered.inRange
  cases form with
  | automatic => exact fixed.elim
  | explicit ms seq =>
    have msRange := fixed.1.inRange
    have seqRange := fixed.2.inRange
    exact ⟨⟨by dsimp only [IdForm.pair]; omega, by dsimp only [IdForm.pair]; omega⟩,
      by dsimp only [IdForm.pair]; omega, by dsimp only [IdForm.pair]; omega⟩
  | millisecond ms =>
    have msRange := Component.inRange fixed
    simp only [IdForm.overflows, decide_eq_false_iff_not, not_and] at room
    dsimp only [IdForm.pair] at low high ⊢
    refine ⟨⟨by dsimp only; omega, by dsimp only; omega⟩, ?_⟩
    split
    · rename_i same
      have := room same
      dsimp only
      omega
    · dsimp only [firstSeq]
      split <;> omega

theorem Numbered.append (numbered : Numbered stream) (fixed : form.IsFixed) (room : form.overflows stream = false)
    (fields : List Bytes) : Numbered (stream.append ⟨form.id stream 0, fields⟩ (form.pair stream 0)) where
  last other isTail := by
    obtain rfl := Option.some.inj isTail
    exact form.idPair_id fixed.isDecimal (numbered.pair_inRange fixed room)
  inRange := numbered.pair_inRange fixed room

/-- An explicit ID is compared with the last one. -/
theorem validate_explicit {ms seq tailId : Bytes} {last : Int × Int} (isMs : Component ms) (isSeq : Component seq)
    (isLast : idPair tailId = some last) (w : World D) :
    validateStreamId (ms ++ 45 :: seq) tailId w =
      .ok (if (digitsValue ms : Int) = 0 ∧ (digitsValue seq : Int) = 0 then
          some (lit "-ERR The ID specified in XADD must be greater than 0-0\r\n")
        else if IdBefore last ((digitsValue ms : Int), (digitsValue seq : Int)) then none
        else some (lit ("-ERR The ID specified in XADD is equal or smaller than " ++
          "the target stream top item\r\n")), w) := by
  have isPair := idPair_decimals isMs.decimal isSeq.decimal
  have notStar : ms ++ 45 :: seq ≠ lit "*" := by
    intro star
    have minus : (45 : UInt8) ∈ lit "*" := star ▸ List.mem_append_right ms List.mem_cons_self
    exact absurd minus (by decide)
  have component_ne {text : Bytes} (component : Component text) : text ≠ lit "*" := by
    rintro rfl
    exact absurd (component.digits 42 (by decide)) (by decide)
  unfold validateStreamId
  rw [if_neg notStar, if_neg (by simp [strstr_minus]), scanIdTexts_components isMs isSeq]
  simp only [scannedText, pure_bind, if_neg (component_ne isMs), component_ne isSeq, false_and, if_false,
    idPair_eq_some.mp isPair]
  split
  · rfl
  · rw [bind_of_ok (isBigger_of_pairs isLast isPair w)]
    have bigger : (decide (last.1 < digitsValue ms) || ((digitsValue ms : Int) == last.1 &&
        decide (last.2 < digitsValue seq))) = decide (IdBefore last ((digitsValue ms : Int), (digitsValue seq : Int))) := by
      unfold IdBefore
      grind
    rw [bigger]
    by_cases later : IdBefore last ((digitsValue ms : Int), (digitsValue seq : Int)) <;> simp [later]

/-- The check of the ID is the one of the form. -/
theorem Numbered.check_iff (numbered : Numbered stream) (fixed : form.IsFixed)
    (run : checkStreamId form.text stream.tail w = .ok (errorMsg, t)) : errorMsg = none ↔ form.accepts stream = true := by
  unfold IdForm.accepts
  cases isTail : stream.tail with
  | none =>
    rw [isTail] at run
    obtain ⟨rfl, _⟩ := Prod.mk.inj (Except.ok.inj run)
    simp
  | some last =>
    have isLast := numbered.last last isTail
    rw [isTail, checkStreamId] at run
    cases form with
    | automatic => exact fixed.elim
    | millisecond ms =>
      rw [IdForm.text, validate_partial fixed] at run
      obtain ⟨rfl, _⟩ := Prod.mk.inj (Except.ok.inj run)
      by_cases nonnegative : 0 ≤ atoi ms <;> simp [nonnegative]
    | explicit ms seq =>
      rw [IdForm.text, validate_explicit fixed.1 fixed.2 isLast] at run
      obtain ⟨rfl, _⟩ := Prod.mk.inj (Except.ok.inj run)
      dsimp only
      rw [Option.isNone_some, Bool.false_or, decide_eq_true_iff]
      by_cases zero : (digitsValue ms : Int) = 0 ∧ (digitsValue seq : Int) = 0
      · rw [if_pos zero]
        exact iff_of_false (by simp) fun accepted => accepted.1 zero
      · rw [if_neg zero]
        by_cases later : IdBefore (stream.lastMs, stream.lastSeq) ((digitsValue ms : Int), (digitsValue seq : Int))
        · rw [if_pos later]
          exact iff_of_true rfl ⟨zero, later⟩
        · rw [if_neg later]
          exact iff_of_false (by simp) fun accepted => later accepted.2

end Numbered

/-! ## The commands as functions -/

namespace Contents

/-- The list of a key, an empty one where it has none. -/
def list (held : Contents D) (key : Bytes) : List Bytes :=
  match held.value? key with
  | some (.list values) => values
  | _ => []

/-- The stream of a key, an empty one where it has none. -/
def stream (held : Contents D) (key : Bytes) : Stream :=
  match held.value? key with
  | some (.stream stream) => stream
  | _ => .zeroed

def setPut (args : List Bytes) : Option (Put D) :=
  match args with
  | key :: value :: _ => some ⟨key, .string value, false⟩
  | _ => none

def incrPut (held : Contents D) (args : List Bytes) : Option (Put D) :=
  match args with
  | [] => none
  | key :: _ =>
    match held.value? key with
    | none => some ⟨key, .string (lit "1"), false⟩
    | some (.string text) =>
      if atoi text = 0 ∧ text ≠ lit "0" then none else some ⟨key, .string (decimalInt (atoi text + 1)), false⟩
    | some _ => none

/-- `pushed` puts the items and the list together. -/
def pushPut (pushed : List Bytes → List Bytes → List Bytes) (held : Contents D) (args : List Bytes) : Option (Put D) :=
  match args with
  | key :: item :: items => some ⟨key, .list (pushed (item :: items) (held.list key)), (held.value? key).isNone⟩
  | _ => none

def lpopPut (held : Contents D) (req : RespRequest) : Option (Put D) :=
  match req.args with
  | [] => none
  | key :: _ =>
    match held.value? key with
    | some (.list values) =>
      if 0 < popCount req values then some ⟨key, .list (values.drop (popCount req values)), false⟩ else none
    | _ => none

def xaddPut (held : Contents D) (args : List Bytes) : Option (Put D) :=
  match args with
  | key :: id :: fields =>
    match IdForm.ofText id with
    | none => none
    | some form =>
      let stream := held.stream key
      if form.accepts stream && !form.overflows stream then
        some ⟨key, .stream (stream.append ⟨form.id stream 0, fields⟩ (form.pair stream 0)), stream.entries = []⟩
      else none
  | _ => none

/-- What a command stores.  The write commands that are not here store nothing. -/
def putOf (held : Contents D) (req : RespRequest) : Option (Put D) :=
  match req.command with
  | .set => setPut req.args
  | .incr => held.incrPut req.args
  | .lpush => held.pushPut (fun items list => items.reverse ++ list) req.args
  | .rpush => held.pushPut (fun items list => list ++ items) req.args
  | .lpop => held.lpopPut req
  | .xadd => held.xaddPut req.args
  | _ => none

def perform (held : Contents D) (req : RespRequest) : Contents D := (held.putOf req).elim held held.put

end Contents

/-- What the command stores depends neither on the clock nor on a client that waits. -/
def Fixed (w : World D) (req : RespRequest) : Prop :=
  (req.command = .rpush → ∀ key ∈ req.args[0]?, w.waiters key = []) ∧
    (req.command = .xadd → ∀ id ∈ req.args[1]?, FixedId id)

instance (w : World D) (req : RespRequest) : Decidable (Fixed w req) := inferInstanceAs (Decidable (_ ∧ _))

/-! ## The handlers -/

section Handlers

variable {w t : World D} {req : RespRequest} {clientFd : Int}

theorem list_of_opens {key : Bytes} {list : List Bytes} {expiresAt : Int}
    (opens : Opens w key (.list []) (.list list) expiresAt t) : (contents w.table).list key = list := by
  rw [Contents.list, contents_value]
  obtain ⟨bound, _⟩ | ⟨unbound, isEmpty, _⟩ := opens.before
  · rw [bound]
    rfl
  · rw [unbound]
    exact (Value.list.inj isEmpty).symm

theorem stream_contents (table : Table D) (key : Bytes) : (contents table).stream key = storedStream table key := by
  rw [Contents.stream, contents_value, storedStream]
  cases binding table key with
  | none => rfl
  | some entry =>
    obtain ⟨value, expiresAt⟩ := entry
    cases value <;> rfl

theorem isNone_contents (table : Table D) (key : Bytes) :
    ((contents table).value? key).isNone = (binding table key).isNone := by
  rw [contents_value, Option.isNone_map]

theorem args_of_key {key : Bytes} (isKey : req.args[0]? = some key) : req.args = key :: req.args.drop 1 := by
  cases isArgs : req.args with
  | nil => simp [isArgs] at isKey
  | cons first rest =>
    obtain rfl : first = key := by simpa [isArgs] using isKey
    rfl

theorem args_of_two {key value : Bytes} (isKey : req.args[0]? = some key) (isValue : req.args[1]? = some value) :
    req.args = key :: value :: req.args.drop 2 := by
  rw [args_of_key isKey]
  cases isRest : req.args.drop 1 with
  | nil =>
    rw [args_of_key isKey, isRest] at isValue
    simp at isValue
  | cons second rest =>
    rw [args_of_key isKey, isRest] at isValue
    obtain rfl : second = value := by simpa using isValue
    rfl

/-- Fewer than two arguments. -/
theorem args_few (few : req.argc < 2) : req.args = [] ∨ ∃ key, req.args = [key] := by
  have supplied := req.supplied
  match isArgs : req.args with
  | [] => exact .inl rfl
  | [key] => exact .inr ⟨key, rfl⟩
  | _ :: _ :: _ =>
    simp [isArgs] at supplied
    omega

theorem handleSet_performs (run : handleSet req .string clientFd w = .ok ((), t)) :
    contents t.table = (Contents.setPut req.args).elim (contents w.table) (contents w.table).put := by
  unfold handleSet at run
  split at run
  · rename_i few
    -- too few arguments: SET returns without a reply
    obtain ⟨_, rfl⟩ := Prod.mk.inj (Except.ok.inj run)
    obtain none | ⟨key, one⟩ := args_few few
    · rw [none]
      rfl
    · rw [one]
      rfl
  · obtain ⟨key, read, reads, afterKey⟩ := bind_eq_ok.mp run
    obtain ⟨isKey, rfl⟩ := arg_ok.mp reads
    obtain ⟨value, read', reads', afterValue⟩ := bind_eq_ok.mp afterKey
    obtain ⟨isValue, rfl⟩ := arg_ok.mp reads'
    obtain ⟨_, stored, storing, replies⟩ := bind_eq_ok.mp afterValue
    obtain ⟨_, stores⟩ := storeSet_stores storing
    have sameTable : t.table = stored.table :=
      (obeys_sendUnlessMaster ambient_sameTable _ _ stored).1 () t replies
    rw [sameTable, stores.contents, args_of_two isKey isValue]
    rfl

theorem handleIncr_performs (run : handleIncr req clientFd w = .ok ((), t)) :
    contents t.table = ((contents w.table).incrPut req.args).elim (contents w.table) (contents w.table).put := by
  unfold handleIncr at run
  obtain ⟨key, read, reads, afterKey⟩ := bind_eq_ok.mp run
  obtain ⟨isKey, rfl⟩ := arg_ok.mp reads
  obtain ⟨entry, found, walk, afterWalk⟩ := bind_eq_ok.mp afterKey
  obtain ⟨bound, rfl⟩ := storeGetEntry_ok walk
  rw [args_of_key isKey, Contents.incrPut]
  simp only [contents_value, bound]
  cases entry with
  | none =>
    obtain ⟨_, stored, storing, replies⟩ := bind_eq_ok.mp afterWalk
    obtain ⟨_, stores⟩ := storeSet_stores storing
    rw [send_run replies]
    exact stores.contents
  | some entry =>
    obtain ⟨value, expiresAt⟩ := entry
    dsimp only at afterWalk
    split at afterWalk
    · cases afterWalk
    obtain ⟨text, rfl, rest⟩ := asString_takesOut.cast_ok afterWalk
    simp only [Option.map_some]
    split at rest
    · rename_i notNumber
      rw [if_pos notNumber, send_run rest]
      rfl
    · rename_i number
      rw [if_neg number]
      split at rest
      · cases rest
      · obtain ⟨_, stored, storing, replies⟩ := bind_eq_ok.mp rest
        obtain ⟨_, stores⟩ := storeSet_stores storing
        rw [send_run replies]
        exact stores.contents

theorem handleLpush_performs (run : handleLpush req clientFd w = .ok ((), t)) :
    contents t.table = ((contents w.table).pushPut (fun items list => items.reverse ++ list) req.args).elim
      (contents w.table) (contents w.table).put := by
  by_cases enough : 2 ≤ req.argc
  · obtain ⟨key, list, expiresAt, opened, isKey, opens, pushes⟩ := handleLpush_ok enough run
    obtain ⟨item, isItem⟩ : ∃ item, req.args[1]? = some item := arg_isSome (by omega)
    rw [pushes.stores.contents, args_of_two isKey isItem, Contents.pushPut]
    simp only [list_of_opens opens, isNone_contents]
    rfl
  · unfold handleLpush at run
    rw [if_pos (by omega)] at run
    rw [send_run run]
    obtain none | ⟨key, one⟩ := args_few (by omega : req.argc < 2)
    · rw [none]
      rfl
    · rw [one]
      rfl

theorem handleRpush_performs (fixed : Fixed w req) (isRpush : req.command = .rpush)
    (run : handleRpush req clientFd w = .ok ((), t)) :
    contents t.table = ((contents w.table).pushPut (fun items list => list ++ items) req.args).elim
      (contents w.table) (contents w.table).put := by
  by_cases enough : 2 ≤ req.argc
  · obtain ⟨key, list, expiresAt, opened, isKey, opens, pushes⟩ := handleRpush_ok enough run
    obtain ⟨item, isItem⟩ : ∃ item, req.args[1]? = some item := arg_isSome (by omega)
    cases pushes with
    | unserved nobody keeps stores =>
      rw [stores.contents, args_of_two isKey isItem, Contents.pushPut]
      simp only [list_of_opens opens, isNone_contents]
      rfl
    | served ptr client first rest longest found elements keeps stores =>
      -- a client that waits for the key would take the first element: the log must have none
      rw [fixed.1 isRpush key isKey] at longest
      cases longest
  · unfold handleRpush at run
    rw [if_pos (by omega)] at run
    rw [send_run run]
    obtain none | ⟨key, one⟩ := args_few (by omega : req.argc < 2)
    · rw [none]
      rfl
    · rw [one]
      rfl

theorem handleLpop_performs (run : handleLpop req clientFd w = .ok ((), t)) :
    contents t.table = ((contents w.table).lpopPut req).elim (contents w.table) (contents w.table).put := by
  cases handleLpop_ok run with
  | nothing noKey same =>
    have noArgs : req.args = [] := by
      have supplied := req.supplied
      exact List.length_eq_zero_iff.mp (by omega)
    rw [same, Contents.lpopPut, noArgs]
    rfl
  | refused key text isKey isError empty same =>
    rw [same, Contents.lpopPut, args_of_key isKey]
    simp only [contents_value]
    split
    · rename_i values isList
      obtain ⟨⟨value, expiresAt⟩, bound, isValue⟩ := Option.map_eq_some_iff.mp isList
      dsimp only at isValue
      subst isValue
      rw [if_neg (by rw [empty values expiresAt bound]; omega)]
      rfl
    · rfl
  | popped key text values expiresAt isKey bound taken one array keeps stores =>
    rw [stores.contents, Contents.lpopPut, args_of_key isKey]
    simp only [contents_value, bound, Option.map_some, if_pos taken]
    rfl

/-- An XADD of an ID that does not depend on the clock. -/
theorem handleXadd_performs (isXadd : req.command = .xadd) (fixed : Fixed w req)
    (numbered : ∀ key, Numbered (storedStream w.table key)) (run : handleSet req .stream clientFd w = .ok ((), t)) :
    contents t.table = ((contents w.table).xaddPut req.args).elim (contents w.table) (contents w.table).put := by
  -- the text of a fixed ID decides its form, so both runs read the same one
  have formOf {id : Bytes} (isId : req.args[1]? = some id) : ∃ form, IdForm.ofText id = some form ∧ form.IsFixed ∧
      form.text = id := by
    obtain ⟨form, isForm, isFixed⟩ := fixed.2 isXadd id isId
    exact ⟨form, isForm, isFixed, IdForm.text_ofText isForm⟩
  cases handleXadd_ok run with
  | short few same =>
    rw [same]
    obtain none | ⟨key, one⟩ := args_few few
    · rw [none]
      rfl
    · rw [one]
      rfl
  | rejected key id errorResp checked enough isKey isId checks sameTable =>
    obtain ⟨form, isForm, isFixed, rfl⟩ := formOf isId
    have refused : ¬ form.accepts (storedStream w.table key) = true := fun accepted => by
      cases ((numbered key).check_iff isFixed checks).mpr accepted
    rw [sameTable, args_of_two isKey isId, Contents.xaddPut]
    simp only [isForm, stream_contents]
    rw [if_neg (by simp [refused])]
    rfl
  | appended key id entryId ms seq expiresAt checked chosen scanned enough isKey isId checks chooses scans stores =>
    obtain ⟨form, isForm, isFixed, rfl⟩ := formOf isId
    have accepted := ((numbered key).check_iff isFixed checks).mp rfl
    obtain rfl := form.id_of_chosen isFixed.isDecimal chooses
    -- an ID behind the greatest one is not chosen
    have room : form.overflows (storedStream w.table key) = false := by
      cases form with
      | automatic => rfl
      | explicit ms seq => rfl
      | millisecond ms =>
        simp only [IdForm.overflows, decide_eq_false_iff_not]
        rintro ⟨same, full⟩
        rw [IdForm.text, chooseId_overflows isFixed same full] at chooses
        cases chooses
    have inRange := (numbered key).pair_inRange isFixed room
    have isPair := @IdForm.idPair_id _ form 0 isFixed.isDecimal inRange
    rw [isFixed.id_clock, scanId_of_pair isPair] at scans
    have isScanned : form.pair (storedStream w.table key) 0 = (ms, seq) := (Prod.mk.inj (Except.ok.inj scans)).1
    have isArgs := args_of_two isKey isId
    rw [isFixed.id_clock] at stores
    generalize req.args.drop 2 = fields at isArgs stores
    rw [stores.contents, isArgs, Contents.xaddPut]
    simp only [isForm, stream_contents]
    rw [if_pos (by simp [accepted, room]), isScanned]
    rfl

end Handlers

/-! ## The dispatcher -/

/-- Every stream keeps the numbers of its last entry. -/
def Contents.AllNumbered (held : Contents D) : Prop :=
  ∀ bucket, ∀ node ∈ (held bucket).nodes, ∀ stream, node.2 = .stream stream → Numbered stream

section Dispatcher

variable {held : Contents D} {w t : World D} {req : RespRequest} {ptr : ClientPtr} {client : Client}

theorem Contents.AllNumbered.stream (numbered : held.AllNumbered) (key : Bytes) : Numbered (held.stream key) := by
  unfold Contents.stream
  split
  · rename_i stream found
    obtain ⟨bucket, _, looked⟩ := Option.bind_eq_some_iff.mp found
    exact numbered bucket _ (Chain.mem_of_value looked) stream rfl
  · exact numbered_zeroed

/-- A node of the contents after a write was there, or holds what was written. -/
theorem Contents.mem_put {put : Put D} {bucket : Bucket} {node : Bytes × Value D}
    (member : node ∈ (held.put put bucket).nodes) : node ∈ (held bucket).nodes ∨ node.2 = put.value := by
  cases inBucket : bucketOf put.key with
  | none =>
    have same : held.put put = held := by
      unfold Contents.put
      simp only [inBucket]
    exact .inl (same ▸ member)
  | some home =>
    rw [put_of_bucket inBucket] at member
    by_cases here : bucket = home
    · subst here
      rw [Function.update_self] at member
      unfold putIn at member
      split at member
      · unfold Chain.replaceHead at member
        split at member
        · obtain rfl := List.mem_singleton.mp member
          exact .inr rfl
        · rename_i isNodes
          obtain rfl | old := List.mem_cons.mp member
          · exact .inr rfl
          · exact .inl (isNodes ▸ List.mem_cons_of_mem _ old)
      · split at member
        · obtain old | ⟨_, isNew⟩ := Chain.updateNodes_member member
          · exact .inl old
          · exact .inr isNew
        · obtain rfl | old := List.mem_cons.mp member
          · exact .inr rfl
          · exact .inl old
    · rw [Function.update_of_ne here] at member
      exact .inl member

/-- The numbers of a stream that a command stores are those of its last entry. -/
theorem Contents.AllNumbered.putOf (numbered : held.AllNumbered)
    (fixedId : req.command = .xadd → ∀ id ∈ req.args[1]?, FixedId id) {put : Put D} (puts : held.putOf req = some put)
    {stream : Stream} (isStream : put.value = .stream stream) : Numbered stream := by
  unfold Contents.putOf at puts
  cases command : req.command with
  | set =>
    simp only [command, setPut] at puts
    split at puts <;> cases puts
    cases isStream
  | incr =>
    simp only [command, incrPut] at puts
    split at puts
    · cases puts
    · split at puts
      · cases puts
        cases isStream
      · split at puts <;> cases puts
        cases isStream
      · cases puts
  | lpush =>
    simp only [command, pushPut] at puts
    split at puts <;> cases puts
    cases isStream
  | rpush =>
    simp only [command, pushPut] at puts
    split at puts <;> cases puts
    cases isStream
  | lpop =>
    simp only [command, lpopPut] at puts
    split at puts
    · cases puts
    · split at puts
      · split at puts <;> cases puts
        cases isStream
      · cases puts
  | xadd =>
    simp only [command, xaddPut] at puts
    split at puts
    · rename_i key id fields isArgs
      obtain ⟨form, isForm, isFixed⟩ := fixedId command id (by rw [isArgs]; rfl)
      simp only [show IdForm.ofText id = some form from isForm] at puts
      split at puts
      · rename_i accepted
        obtain rfl := Option.some.inj puts
        obtain rfl := Value.stream.inj isStream
        rw [Bool.and_eq_true, Bool.not_eq_true'] at accepted
        exact (numbered.stream key).append isFixed accepted.2 fields
      · cases puts
    · cases puts
  | _ =>
    simp only [command] at puts
    cases puts

/-- A command keeps the numbers. -/
theorem Contents.AllNumbered.perform (numbered : held.AllNumbered)
    (fixedId : req.command = .xadd → ∀ id ∈ req.args[1]?, FixedId id) : (held.perform req).AllNumbered := by
  unfold Contents.perform
  cases puts : held.putOf req with
  | none => exact numbered
  | some put =>
    intro bucket node member stream isStream
    obtain old | new := Contents.mem_put member
    · exact numbered bucket node old stream isStream
    · exact numbered.putOf fixedId puts (new.symm.trans isStream)

theorem Contents.allNumbered_empty : (contents fun _ => (Chain.empty : Chain Bytes (Entry D))).AllNumbered := by
  intro bucket node member
  simp [contents, Chain.mapValues, Chain.empty] at member

variable [Externals D]

/-- A command that alters nothing leaves the contents. -/
theorem contents_unaltered (unaltered : ¬ Alters w req) (run : arm req ptr client w = .ok ((), t)) :
    contents t.table = contents w.table := by
  cases arm_written run with
  | same same _ => rw [same]
  | @stores key entry overwrites isKey stores alters creates fresh rest =>
    have bound : binding w.table key = some entry := by
      by_contra differs
      exact unaltered (alters.mpr differs)
    have inPlace : overwrites = false := by
      cases overwrites with
      | false => rfl
      | true => exact absurd bound (fresh rfl)
    rw [stores.contents, inPlace]
    exact Contents.put_again (by rw [contents_value, bound]; rfl)

/-- A handler leaves the contents that the command makes of those before it. -/
theorem arm_performs (numbered : (contents w.table).AllNumbered) (fixed : Fixed w req)
    (listed : isWriteCmd req.command = true ∨ ¬ Alters w req) (run : arm req ptr client w = .ok ((), t)) :
    contents t.table = (contents w.table).perform req := by
  have storeNothing (nothing : (contents w.table).putOf req = none) (unaltered : ¬ Alters w req) :
      contents t.table = (contents w.table).perform req := by
    rw [contents_unaltered unaltered run, Contents.perform, nothing]
    rfl
  have streams (key : Bytes) : Numbered (storedStream w.table key) := stream_contents w.table key ▸ numbered.stream key
  rw [Contents.perform]
  cases command : req.command with
  | set =>
    unfold arm at run
    rw [command] at run
    rw [handleSet_performs run, Contents.putOf, command]
  | incr =>
    unfold arm at run
    rw [command] at run
    rw [handleIncr_performs run, Contents.putOf, command]
  | lpush =>
    unfold arm at run
    rw [command] at run
    rw [handleLpush_performs run, Contents.putOf, command]
  | rpush =>
    unfold arm at run
    rw [command] at run
    rw [handleRpush_performs fixed command run, Contents.putOf, command]
  | lpop =>
    unfold arm at run
    rw [command] at run
    rw [handleLpop_performs run, Contents.putOf, command]
  | xadd =>
    unfold arm at run
    rw [command] at run
    rw [handleXadd_performs command fixed streams run, Contents.putOf, command]
  | _ =>
    refine storeNothing (by rw [Contents.putOf, command]) fun alters => ?_
    obtain isWrite | unaltered := listed
    · simp [Alters, command, isWriteCmd] at alters isWrite
    · exact unaltered alters

/-- A dispatched command performs on the contents what it says. -/
theorem dispatch_performs (numbered : (contents w.table).AllNumbered) (fixed : Fixed w req)
    (listed : isWriteCmd req.command = true ∨ ¬ Alters (w.noted req) req) (run : dispatch req ptr w = .ok ((), t)) :
    contents t.table = (contents w.table).perform req := by
  obtain ⟨client, handled, notified, found, handler, notify, write⟩ := dispatch_parts run
  rw [table_afterArm notify write]
  exact arm_performs (w := w.noted req) numbered fixed listed handler

end Dispatcher

/-! ## The chain of a command -/

/-- The bucket of the key of a request. -/
def RespRequest.bucket (req : RespRequest) : Option Bucket := req.args[0]?.bind bucketOf

section Locality

open CommandLog

variable {held held' : Contents D} {req : RespRequest} {put : Put D} {bucket : Bucket}

/-- A command stores under its first argument. -/
theorem Contents.putOf_key (puts : held.putOf req = some put) : req.args[0]? = some put.key := by
  unfold Contents.putOf at puts
  cases command : req.command with
  | set =>
    simp only [command, setPut] at puts
    split at puts <;> cases puts
    simp [*]
  | incr =>
    simp only [command, incrPut] at puts
    split at puts
    · cases puts
    · rename_i isArgs
      rw [isArgs]
      split at puts
      · cases puts
        rfl
      · split at puts <;> cases puts
        rfl
      · cases puts
  | lpush =>
    simp only [command, pushPut] at puts
    split at puts <;> cases puts
    simp [*]
  | rpush =>
    simp only [command, pushPut] at puts
    split at puts <;> cases puts
    simp [*]
  | lpop =>
    simp only [command, lpopPut] at puts
    split at puts
    · cases puts
    · rename_i isArgs
      rw [isArgs]
      split at puts
      · split at puts <;> cases puts
        rfl
      · cases puts
  | xadd =>
    simp only [command, xaddPut] at puts
    split at puts
    · rename_i isArgs
      rw [isArgs]
      split at puts
      · cases puts
      · split at puts <;> cases puts
        rfl
    · cases puts
  | _ =>
    simp only [command] at puts
    cases puts

/-- What a command stores depends on what is under its first argument. -/
theorem Contents.putOf_congr (same : ∀ key ∈ req.args[0]?, held.value? key = held'.value? key) :
    held.putOf req = held'.putOf req := by
  unfold Contents.putOf
  cases args : req.args with
  | nil => cases req.command <;> simp [incrPut, pushPut, lpopPut, xaddPut, args]
  | cons key rest =>
    have sameValue : held.value? key = held'.value? key := same key (by rw [args]; rfl)
    have sameList : held.list key = held'.list key := by rw [Contents.list, Contents.list, sameValue]
    have sameStream : held.stream key = held'.stream key := by rw [Contents.stream, Contents.stream, sameValue]
    cases rest with
    | nil => cases req.command <;> simp [incrPut, pushPut, lpopPut, xaddPut, args, sameValue]
    | cons second rest =>
      cases req.command <;> simp [incrPut, pushPut, lpopPut, xaddPut, args, sameValue, sameList, sameStream]

/-- A command reads and changes the chain of its key alone. -/
theorem Contents.perform_local : Local (Contents.perform (D := D)) RespRequest.bucket where
  elsewhere held req bucket elsewhere := by
    unfold Contents.perform
    cases puts : Contents.putOf held req with
    | none => rfl
    | some put =>
      have isKey := Contents.putOf_key puts
      change Contents.put held put bucket = held bucket
      cases inBucket : bucketOf put.key with
      | none => simp only [Contents.put, inBucket]
      | some home =>
        rw [Contents.put_of_bucket inBucket, Function.update_of_ne]
        rintro rfl
        exact elsewhere (by rw [RespRequest.bucket, isKey, Option.bind_some, inBucket])
  here held held' req bucket home same := by
    have sameValue : ∀ key ∈ req.args[0]?, Contents.value? held key = Contents.value? held' key := by
      intro key isKey
      rw [RespRequest.bucket, show req.args[0]? = some key from isKey, Option.bind_some] at home
      rw [Contents.value?, Contents.value?, home, Option.bind_some, Option.bind_some, same]
    unfold Contents.perform
    rw [Contents.putOf_congr sameValue]
    cases puts : Contents.putOf held' req with
    | none => exact same
    | some put =>
      change Contents.put held put bucket = Contents.put held' put bucket
      rw [RespRequest.bucket, Contents.putOf_key puts, Option.bind_some] at home
      rw [Contents.put_of_bucket home, Contents.put_of_bucket home, Function.update_self, Function.update_self, same]

/-- What a command does depends on what its copy says. -/
theorem Contents.perform_factors (held : Contents D) : Function.FactorsThrough held.perform copyRequest := by
  rintro ⟨cmd, args, argc, _, _⟩ ⟨cmd', args', argc', _, _⟩ sameCopy
  obtain ⟨rfl, rfl, rfl⟩ : cmd = cmd' ∧ args = args' ∧ argc = argc' := by simpa [copyRequest] using sameCopy
  rfl

end Locality

end RedisClone
