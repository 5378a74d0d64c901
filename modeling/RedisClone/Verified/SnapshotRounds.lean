import RedisClone.Lib.Runs
import RedisClone.RdbHandler
import RedisClone.Verified.Store

/-! # One record of a snapshot

The loader binds the key of a record with `store_set`, and writes the expiry into the first node of the chain, which
is the node of the key only where the key is new or was first before (`Chain.Leads`).  `loadRound_loaded` says what a
round that loads a record does to the table, and `record_law_iff` when that is a change of the record's own key.
-/

namespace RedisClone

open Exec CString

variable {D : Type}

/-! ## Binding a key and writing into the first node -/

/-- The chain of a key after `store_set` without a time. -/
def boundChain (chain : Chain Bytes (Entry D)) (key : Bytes) (value : Value D) : Chain Bytes (Entry D) :=
  match chain.value? key with
  | none => chain.push key ⟨value, 0⟩
  | some _ => chain.update key fun _ => ⟨value, 0⟩

/-- The chain after the expiry was written, where one is. -/
def loadedChain (chain : Chain Bytes (Entry D)) (key : Bytes) (value : Value D) :
    Option Int → Chain Bytes (Entry D)
  | none => boundChain chain key value
  | some ms => (boundChain chain key value).updateFirst fun entry => { entry with expiresAt := ms }

section Binding

variable {chain : Chain Bytes (Entry D)} {key other : Bytes} {value : Value D} {bucket : Bucket} {w : World D}

theorem find_boundChain_self (chain : Chain Bytes (Entry D)) (key : Bytes) (value : Value D) :
    (boundChain chain key value).find key = some (some ⟨value, 0⟩) := by
  unfold boundChain
  cases found : chain.value? key with
  | none => exact Chain.find_push_self chain key _
  | some old => exact Chain.find_update_self _ (Chain.find_of_value found)

theorem find_boundChain_of_ne (isOther : other ≠ key) :
    (boundChain chain key value).find other = chain.find other := by
  unfold boundChain
  cases chain.value? key with
  | none => exact Chain.find_push_of_ne chain isOther _
  | some old => exact Chain.find_update_of_ne chain isOther _

/-- A key that leads its chain is in the first node afterwards. -/
theorem boundChain_of_leads (leads : chain.Leads key) (value : Value D) :
    ∃ rest, (boundChain chain key value).nodes = (key, ⟨value, 0⟩) :: rest := by
  unfold boundChain
  cases found : chain.value? key with
  | none => exact ⟨chain.nodes, rfl⟩
  | some old =>
    obtain isNew | isFirst := leads
    · simp [isNew] at found
    · cases nodes : chain.nodes with
      | nil => simp [nodes] at isFirst
      | cons node rest =>
        obtain ⟨first, entry⟩ := node
        obtain rfl : first = key := by simpa [nodes] using isFirst
        exact ⟨rest, by simp [Chain.update, nodes, Chain.updateNodes]⟩

/-- Another key keeps the first node. -/
theorem boundChain_of_not_leads (follows : ¬ chain.Leads key) (value : Value D) :
    ∃ first entry before after, first ≠ key ∧ chain.nodes = (first, entry) :: before ∧
      (boundChain chain key value).nodes = (first, entry) :: after := by
  obtain ⟨isOld, notFirst⟩ := not_or.mp follows
  obtain ⟨old, found⟩ := Option.ne_none_iff_exists'.mp isOld
  cases nodes : chain.nodes with
  | nil => simp [Chain.value?, nodes] at found
  | cons node rest =>
    obtain ⟨first, entry⟩ := node
    have distinct : first ≠ key := by simpa [nodes] using notFirst
    refine ⟨first, entry, rest, Chain.updateNodes key (fun _ => ⟨value, 0⟩) rest, distinct, rfl, ?_⟩
    simp [boundChain, found, Chain.update, nodes, Chain.updateNodes, distinct.symm]

theorem boundChain_ne_nil : (boundChain chain key value).nodes ≠ [] := by
  intro empty
  have found := find_boundChain_self chain key value
  rw [Chain.find_eq_some_some, empty] at found
  simp at found

theorem storeSet_untimed_run (inBucket : bucketOf key = some bucket) (value : Value D) {existing : Option (Entry D)}
    (found : lookup w.table key = .ok existing) :
    storeSet key value .noTimeFlag (-1) w =
      .ok ((), w.setBucket bucket (boundChain (w.table bucket) key value)) := by
  have isValue : (w.table bucket).value? key = existing :=
    Chain.find_eq_ok ((lookup_of_bucket inBucket).mp found)
  have untimed : expiryOf .noTimeFlag (-1) w = .ok (0, w) := rfl
  unfold storeSet
  rw [bind_of_ok (tableIndex_of_bucket inBucket w), bind_run, storeGetEntry_run, found]
  dsimp only
  rw [bind_of_ok untimed]
  cases existing with
  | none => simp only [changeBucket_run, boundChain, isValue]
  | some entry => simp only [changeBucket_run, boundChain, isValue]

theorem expireFirst_run (inBucket : bucketOf key = some bucket) (nonempty : (w.table bucket).nodes ≠ [])
    (ms : Int) (missing : M D Unit) :
    expireFirst key ms missing w = .ok ((), w.setBucket bucket
      ((w.table bucket).updateFirst fun entry => { entry with expiresAt := ms })) := by
  unfold expireFirst
  rw [bind_of_ok (tableIndex_of_bucket inBucket w), bind_of_ok (observe_run _ w), if_neg nonempty]
  exact changeBucket_run _ _ w

theorem setBucket_setBucket (w : World D) (bucket : Bucket) (first second : Chain Bytes (Entry D)) :
    (w.setBucket bucket first).setBucket bucket second = w.setBucket bucket second := by
  simp [World.setBucket]

@[simp] theorem setBucket_table_self (w : World D) (bucket : Bucket) (chain : Chain Bytes (Entry D)) :
    (w.setBucket bucket chain).table bucket = chain := by
  simp [World.setBucket]

/-- `store_set`, and the write of the expiry where there is one. -/
theorem store_and_expire_run {α : Type} {c : Prop} [Decidable c] {ms : Int} {missing : M D Unit} {rest : M D α}
    (inBucket : bucketOf key = some bucket) {existing : Option (Entry D)}
    (found : lookup w.table key = .ok existing) :
    (storeSet key value .noTimeFlag (-1) >>= fun _ => onlyIf c (expireFirst key ms missing) >>= fun _ => rest) w =
      rest (w.setBucket bucket (loadedChain (w.table bucket) key value (if c then some ms else none))) := by
  rw [bind_of_ok (storeSet_untimed_run inBucket value found)]
  by_cases writes : c
  · have nonempty : ((w.setBucket bucket (boundChain (w.table bucket) key value)).table bucket).nodes ≠ [] := by
      rw [setBucket_table_self]
      exact boundChain_ne_nil
    rw [onlyIf, if_pos writes, bind_of_ok (expireFirst_run inBucket nonempty ms missing), setBucket_setBucket,
      setBucket_table_self, if_pos writes]
    rfl
  · rw [onlyIf, if_neg writes, if_neg writes]
    rfl

end Binding

/-! ## What a binding leaves of the other keys -/

/-- After the change of one record the entry of its key has the time of the record, 0 without one, and every other
lookup is as it was. -/
structure RecordLaw (w w' : World D) (key : Bytes) (time : Option Int) : Prop where
  own : ∃ value, lookup w'.table key = .ok (some ⟨value, time.getD 0⟩)
  others : ∀ other, other ≠ key → lookup w'.table other = lookup w.table other

/-- The first node of the bucket, where it belongs there, has this expiry. -/
def FirstExpires (table : Table D) (bucket : Bucket) (ms : Int) : Prop :=
  ∀ first entry rest, (table bucket).nodes = (first, entry) :: rest → bucketOf first = some bucket →
    entry.expiresAt = ms

section Law

variable {key : Bytes} {value : Value D} {bucket : Bucket} {w : World D} {time written : Option Int}

theorem lookup_setBucket_of_find {chain : Chain Bytes (Entry D)} {other : Bytes}
    (same : bucketOf other = some bucket → chain.find other = (w.table bucket).find other) :
    lookup (w.setBucket bucket chain).table other = lookup w.table other := by
  unfold lookup
  cases there : bucketOf other with
  | none => rfl
  | some place =>
    by_cases here : place = bucket
    · subst here
      simp only [setBucket_table_self, same there]
    · simp only [World.setBucket, Function.update_of_ne here]

theorem lookup_setBucket_self (w : World D) (inBucket : bucketOf key = some bucket) {chain : Chain Bytes (Entry D)}
    {entry : Entry D} (found : chain.find key = some (some entry)) :
    lookup (w.setBucket bucket chain).table key = .ok (some entry) := by
  rw [lookup_of_bucket inBucket, setBucket_table_self, found]

/-- A key in the first node gets the expiry that is written. -/
theorem recordLaw_of_leads (inBucket : bucketOf key = some bucket) (leads : (w.table bucket).Leads key) :
    RecordLaw w (w.setBucket bucket (loadedChain (w.table bucket) key value written)) key time ↔
      time.getD 0 = written.getD 0 := by
  have found : (loadedChain (w.table bucket) key value written).find key =
      some (some ⟨value, written.getD 0⟩) := by
    cases written with
    | none => exact find_boundChain_self _ key value
    | some ms =>
      obtain ⟨rest, nodes⟩ := boundChain_of_leads leads value
      exact Chain.find_updateFirst_self nodes _
  have kept {other : Bytes} (isOther : other ≠ key) :
      (loadedChain (w.table bucket) key value written).find other = (w.table bucket).find other := by
    cases written with
    | none => exact find_boundChain_of_ne isOther
    | some ms =>
      obtain ⟨rest, nodes⟩ := boundChain_of_leads leads value
      exact (Chain.find_updateFirst_of_ne nodes isOther _).trans (find_boundChain_of_ne isOther)
  have own := lookup_setBucket_self w inBucket found
  constructor
  · intro law
    obtain ⟨held, isHeld⟩ := law.own
    rw [own] at isHeld
    simp only [Except.ok.injEq, Option.some.injEq, Entry.mk.injEq] at isHeld
    exact isHeld.2.symm
  · intro same
    refine ⟨⟨value, by rw [own, same]⟩, fun other isOther => ?_⟩
    exact lookup_setBucket_of_find fun _ => kept isOther

/-- A key behind the first node keeps the expiry 0, and the first node gets what is written. -/
theorem recordLaw_of_not_leads (inBucket : bucketOf key = some bucket) (follows : ¬ (w.table bucket).Leads key) :
    RecordLaw w (w.setBucket bucket (loadedChain (w.table bucket) key value written)) key time ↔
      time.getD 0 = 0 ∧ ∀ ms ∈ written, FirstExpires w.table bucket ms := by
  obtain ⟨first, entry, before, after, distinct, nodes, bound⟩ := boundChain_of_not_leads follows value
  have found : (loadedChain (w.table bucket) key value written).find key = some (some ⟨value, 0⟩) := by
    cases written with
    | none => exact find_boundChain_self _ key value
    | some ms =>
      exact (Chain.find_updateFirst_of_ne bound distinct.symm _).trans (find_boundChain_self _ key value)
  have own := lookup_setBucket_self w inBucket found
  constructor
  · intro law
    obtain ⟨held, isHeld⟩ := law.own
    rw [own] at isHeld
    simp only [Except.ok.injEq, Option.some.injEq, Entry.mk.injEq] at isHeld
    refine ⟨isHeld.2.symm, fun ms isWritten first' entry' rest same firstBucket => ?_⟩
    obtain ⟨⟨rfl, rfl⟩, rfl⟩ : (first = first' ∧ entry = entry') ∧ before = rest := by
      simpa [nodes] using same
    -- the lookup of the first key shows the write
    have firstKept := law.others first distinct
    rw [(lookup_of_bucket firstBucket).mpr (Chain.find_cons_self nodes)] at firstKept
    have shown : (loadedChain (w.table bucket) key value written).find first =
        some (some { entry with expiresAt := ms }) := by
      rw [Option.mem_def.mp isWritten]
      exact Chain.find_updateFirst_self bound _
    rw [lookup_setBucket_self w firstBucket shown] at firstKept
    simp only [Except.ok.injEq, Option.some.injEq] at firstKept
    exact (congrArg Entry.expiresAt firstKept).symm
  · rintro ⟨timeless, harmless⟩
    refine ⟨⟨value, by rw [own, timeless]⟩, fun other isOther => lookup_setBucket_of_find fun otherBucket => ?_⟩
    cases written with
    | none => exact find_boundChain_of_ne isOther
    | some ms =>
      by_cases isFirst : other = first
      · subst isFirst
        have same : entry.expiresAt = ms := harmless ms rfl other entry before nodes otherBucket
        refine (Chain.find_updateFirst_self bound _).trans ?_
        rw [Chain.find_cons_self nodes, ← same]
      · exact (Chain.find_updateFirst_of_ne bound isFirst _).trans (find_boundChain_of_ne isOther)

end Law

/-! ## The record in the file -/

/-- The types of the records that are loaded. -/
inductive RecordType where
  | string
  | stream

def RecordType.code : RecordType → UInt8
  | .string => 0
  | .stream => 19

/-- What is written into the first node for an `expiry_ms`. -/
def RecordType.written (type : RecordType) (ms : Int) : Option Int :=
  match type with
  | .string => if ms ≠ -1 then some ms else none
  | .stream => if 0 < ms then some ms else none

/-- The expiry in front of a record. -/
inductive Deadline where
  | none
  | seconds (bytes : Bytes) (width : bytes.length = 4)
  | millis (bytes : Bytes) (width : bytes.length = 8)

def Deadline.encode : Deadline → Bytes
  | .none => []
  | .seconds bytes _ => 0xFD :: bytes
  | .millis bytes _ => 0xFC :: bytes

/-- The time in milliseconds, where there is one. -/
def Deadline.time : Deadline → Option Int
  | .none => Option.none
  | .seconds bytes _ => some (littleEndian bytes * 1000)
  | .millis bytes _ => some (int64Of bytes)

section Record

variable {w w' : World D} {type : RecordType} {deadline : Deadline} {key f rest : Bytes} {s s' : LoadState}
  {ms loaded : Int}

theorem fread_append (s rest : Bytes) : fread s.length (s ++ rest) = (some s, rest) := by
  simp [fread]

/-- A round that does not begin at a section or at the end. -/
theorem loadRound_of_plain {op : UInt8} (plain : op ≠ 0xFF ∧ op ≠ 0xFA ∧ op ≠ 0xFE ∧ op ≠ 0xFB) {valueType : UInt8}
    {sticky : Int} (expires : readExpiry op f sticky = some (valueType, ms, rest)) :
    loadRound ⟨op :: f, sticky, loaded⟩ = (loadKey valueType ms rest loaded : M D (Option LoadState)) := by
  obtain ⟨notEnd, notAux, notSelect, notResize⟩ := plain
  simp only [loadRound]
  rw [if_neg notEnd, if_neg notAux, if_neg notSelect, if_neg notResize, expires]

/-- A round that begins at a record. -/
theorem loadRound_record (deadline : Deadline) (type : RecordType) (rest : Bytes) (sticky loaded : Int) :
    loadRound ⟨deadline.encode ++ type.code :: rest, sticky, loaded⟩ =
      (loadKey type.code (deadline.time.getD sticky) rest loaded : M D (Option LoadState)) := by
  cases deadline with
  | none =>
    refine loadRound_of_plain ?_ ?_
    · cases type <;> decide
    · cases type <;> rfl
  | seconds bytes width =>
    have read : fread 4 (bytes ++ type.code :: rest) = (some bytes, type.code :: rest) :=
      width ▸ fread_append bytes _
    rw [Deadline.encode, List.cons_append]
    refine loadRound_of_plain (by decide) ?_
    rw [readExpiry, if_pos rfl, read, Deadline.time, Option.getD_some]
  | millis bytes width =>
    have read : fread 8 (bytes ++ type.code :: rest) = (some bytes, type.code :: rest) :=
      width ▸ fread_append bytes _
    rw [Deadline.encode, List.cons_append]
    refine loadRound_of_plain (by decide) ?_
    rw [readExpiry, if_neg (by decide), if_pos rfl, read, Deadline.time, Option.getD_some]

/-- The end of a round that loads a record. -/
theorem loaded_of_run {value : Value D} {c : Prop} [Decidable c] {missing : M D Unit} {next : Option LoadState}
    (run : (storeSet key value .noTimeFlag (-1) >>= fun _ => onlyIf c (expireFirst key ms missing) >>= fun _ =>
      countLoaded loaded >>= fun loaded => pure (some ⟨f, -1, loaded⟩)) w = .ok (next, w')) :
    ∃ bucket, bucketOf key = some bucket ∧ next = some ⟨f, -1, loaded + 1⟩ ∧
      w' = w.setBucket bucket (loadedChain (w.table bucket) key value (if c then some ms else none)) := by
  obtain ⟨_, stored, stores, _⟩ := bind_eq_ok.mp run
  obtain ⟨bucket, _, inBucket, found⟩ := storeSet_table stores
  obtain ⟨existing, isExisting⟩ : ∃ existing, lookup w.table key = .ok existing := by
    obtain ⟨isNew, _⟩ | ⟨⟨entry, isOld⟩, _⟩ := found
    · exact ⟨none, isNew⟩
    · exact ⟨some entry, isOld⟩
  rw [store_and_expire_run inBucket isExisting] at run
  unfold countLoaded at run
  split at run
  · simp [fault, bind_run] at run
  · simp only [pure_bind, pure_run, Except.ok.injEq, Prod.mk.injEq] at run
    exact ⟨bucket, inBucket, run.1.symm, run.2.symm⟩

/-- What a round that loads a record does. -/
theorem loadKey_loaded (isKey : rdbReadString rest = .ok (some key, f))
    (run : loadKey type.code ms rest loaded w = .ok (some s', w')) (counted : s'.loaded = loaded + 1) :
    ∃ bucket value, bucketOf key = some bucket ∧
      w' = w.setBucket bucket (loadedChain (w.table bucket) key value (type.written ms)) := by
  unfold loadKey at run
  rw [isKey, bind_of_ok (lift_ok _ w)] at run
  cases type with
  | string =>
    dsimp only at run
    rw [if_pos (show RecordType.string.code = 0 from rfl)] at run
    obtain ⟨⟨val, g⟩, u, reads, stores⟩ := bind_eq_ok.mp run
    obtain rfl : w = u := by
      cases result : rdbReadString f with
      | error e => simp [result] at reads
      | ok read => rw [result, lift_ok] at reads; exact (Prod.mk.inj (Except.ok.inj reads)).2
    cases val with
    | none =>
      obtain rfl : (⟨g, -1, loaded⟩ : LoadState) = s' := by
        simpa using (Prod.mk.inj (Except.ok.inj stores)).1
      -- a value that cannot be read is skipped, and not counted
      exact absurd counted (by simp)
    | some val =>
      obtain ⟨bucket, inBucket, _, table⟩ := loaded_of_run stores
      exact ⟨bucket, _, inBucket, table⟩
  | stream =>
    dsimp only at run
    rw [if_neg (show RecordType.stream.code ≠ 0 by decide),
      if_pos (show RecordType.stream.code = 19 from rfl)] at run
    obtain ⟨⟨stream, g⟩, u, reads, stores⟩ := bind_eq_ok.mp run
    obtain rfl : w = u := by
      cases result : rdbReadStream f with
      | error e => simp [result] at reads
      | ok read => rw [result, lift_ok] at reads; exact (Prod.mk.inj (Except.ok.inj reads)).2
    cases stream with
    | none => simp at stores
    | some stream =>
      obtain ⟨bucket, inBucket, _, table⟩ := loaded_of_run stores
      exact ⟨bucket, _, inBucket, table⟩

/-- A round that loads a string. -/
theorem loadRound_string {g val : Bytes} {bucket : Bucket} {sticky : Int} {existing : Option (Entry D)}
    (isKey : rdbReadString rest = .ok (some key, f)) (isVal : rdbReadString f = .ok (some val, g))
    (inBucket : bucketOf key = some bucket) (found : lookup w.table key = .ok existing)
    (fits : loaded + 1 ≠ 2 ^ 31) :
    loadRound ⟨deadline.encode ++ RecordType.string.code :: rest, sticky, loaded⟩ w =
      .ok (some ⟨g, -1, loaded + 1⟩, w.setBucket bucket (loadedChain (w.table bucket) key (.string val)
        (RecordType.string.written (deadline.time.getD sticky)))) := by
  rw [loadRound_record, loadKey, isKey, bind_of_ok (lift_ok _ w)]
  dsimp only
  rw [if_pos (show RecordType.string.code = 0 from rfl), isVal, bind_of_ok (lift_ok _ w)]
  refine (store_and_expire_run inBucket found).trans ?_
  rw [countLoaded, if_neg fits]
  rfl

end Record

/-! ## The rounds of a run -/

section Rounds

variable {w w' : World D} {f g : Bytes} {s s' : LoadState}

theorem rdbReadLength_shorter (f : Bytes) : (rdbReadLength f).2.length ≤ f.length := by
  cases f with
  | nil => simp [rdbReadLength]
  | cons byte f =>
    have shorter (n : Nat) : (f.drop n).length ≤ (byte :: f).length := by
      rw [List.length_drop, List.length_cons]
      omega
    unfold rdbReadLength fread
    dsimp only
    split
    · exact shorter 0
    · split
      · split <;> rename_i read <;> exact (Prod.mk.inj read).2 ▸ shorter 1
      · split
        · split <;> rename_i read <;> exact (Prod.mk.inj read).2 ▸ shorter 4
        · exact shorter 0

theorem rdbReadInteger_shorter (len : Int) (f : Bytes) : (rdbReadInteger len f).2.length ≤ f.length := by
  unfold rdbReadInteger fread
  dsimp only
  split <;> rename_i read <;> exact (Prod.mk.inj read).2 ▸ by simp

theorem rdbReadString_shorter {text : Option Bytes} (read : rdbReadString f = .ok (text, g)) :
    g.length ≤ f.length := by
  have behind := rdbReadLength_shorter f
  unfold rdbReadString at read
  generalize rdbReadLength f = prefixed at read behind
  obtain ⟨⟨len, isEncoded⟩, f'⟩ := prefixed
  dsimp only at read behind
  split at read
  · obtain ⟨_, rfl⟩ := Prod.mk.inj (Except.ok.inj read)
    exact behind
  · split at read
    · have integer := rdbReadInteger_shorter len f'
      rw [Except.ok.inj read] at integer
      exact integer.trans behind
    · split at read
      · simp at read
      · have rest : (fread len.toNat f').2.length ≤ f'.length := by simp [fread]
        split at read <;> rename_i isRead <;> rw [isRead] at rest <;>
          (obtain ⟨_, rfl⟩ := Prod.mk.inj (Except.ok.inj read); exact rest.trans behind)

theorem readBlob_shorter {stream : Stream} {result : Option Stream}
    (read : readBlob f stream = .ok (result, g)) : g.length ≤ f.length := by
  have behind := rdbReadLength_shorter f
  unfold readBlob at read
  generalize rdbReadLength f = prefixed at read behind
  obtain ⟨⟨blobLen, _⟩, f'⟩ := prefixed
  dsimp only at read behind
  split at read
  · obtain ⟨_, rfl⟩ := Prod.mk.inj (Except.ok.inj read)
    exact behind
  · have rest : (fread blobLen.toNat f').2.length ≤ f'.length := by simp [fread]
    split at read <;> rename_i isRead <;> rw [isRead] at rest
    · obtain ⟨_, rfl⟩ := Prod.mk.inj (Except.ok.inj read)
      exact rest.trans behind
    · rename_i blob f''
      cases elements : readListpack blob blob.length 6 false stream with
      | error e => simp [elements, bind, Except.bind] at read
      | ok parsed =>
        obtain ⟨after, freed⟩ := parsed
        cases freed with
        | true => simp [elements, bind, Except.bind, freeBlob] at read
        | false =>
          have result : Except.ok (some after, f'') = (Except.ok (result, g) : Except Fault _) := by
            simpa [elements, bind, Except.bind, freeBlob, pure, Except.pure] using read
          obtain ⟨_, rfl⟩ := Prod.mk.inj (Except.ok.inj result)
          exact rest.trans behind

theorem readBlobs_shorter {count : Nat} {stream : Stream} {result : Option Stream}
    (read : readBlobs count f stream = .ok (result, g)) : g.length ≤ f.length := by
  induction count generalizing f stream with
  | zero =>
    obtain ⟨_, rfl⟩ := Prod.mk.inj (Except.ok.inj read)
    exact le_refl _
  | succ count inductionHypothesis =>
    cases first : readBlob f stream with
    | error e => simp [readBlobs, first, bind, Except.bind] at read
    | ok parsed =>
      obtain ⟨after, f'⟩ := parsed
      have shorter := readBlob_shorter first
      cases after with
      | none =>
        have result : Except.ok (none, f') = (Except.ok (result, g) : Except Fault _) := by
          simpa [readBlobs, first, bind, Except.bind, pure, Except.pure] using read
        obtain ⟨_, rfl⟩ := Prod.mk.inj (Except.ok.inj result)
        exact shorter
      | some after =>
        have rest : readBlobs count f' after = .ok (result, g) := by
          simpa [readBlobs, first, bind, Except.bind] using read
        exact (inductionHypothesis rest).trans shorter

theorem rdbReadStream_shorter {stream : Option Stream} (read : rdbReadStream f = .ok (stream, g)) :
    g.length ≤ f.length := by
  have behind := rdbReadLength_shorter f
  unfold rdbReadStream at read
  generalize rdbReadLength f = prefixed at read behind
  obtain ⟨⟨lpCount, _⟩, f'⟩ := prefixed
  dsimp only at read behind
  split at read
  · obtain ⟨_, rfl⟩ := Prod.mk.inj (Except.ok.inj read)
    exact behind
  · cases blobs : readBlobs lpCount.toNat f' .zeroed with
    | error e => simp [blobs, bind, Except.bind] at read
    | ok parsed =>
      obtain ⟨after, f''⟩ := parsed
      have shorter := (readBlobs_shorter blobs).trans behind
      cases after with
      | none =>
        have result : Except.ok (none, f'') = (Except.ok (stream, g) : Except Fault _) := by
          simpa [blobs, bind, Except.bind, pure, Except.pure] using read
        obtain ⟨_, rfl⟩ := Prod.mk.inj (Except.ok.inj result)
        exact shorter
      | some after =>
        have result : Except.ok (some after, (rdbReadLength (rdbReadLength (rdbReadLength f'').2).2).2) =
            (Except.ok (stream, g) : Except Fault _) := by
          simpa [blobs, bind, Except.bind, pure, Except.pure] using read
        obtain ⟨_, rfl⟩ := Prod.mk.inj (Except.ok.inj result)
        refine (rdbReadLength_shorter _).trans ((rdbReadLength_shorter _).trans ?_)
        exact (rdbReadLength_shorter _).trans shorter

theorem readExpiry_shorter {op valueType : UInt8} {before ms : Int}
    (read : readExpiry op f before = some (valueType, ms, g)) : g.length ≤ f.length := by
  have rest (n : Nat) {bytes : Option Bytes} {f' : Bytes} (isRead : fread n f = (bytes, valueType :: f')) :
      f'.length ≤ f.length := by
    have shorter : (fread n f).2.length ≤ f.length := by simp [fread]
    rw [isRead, List.length_cons] at shorter
    omega
  unfold readExpiry at read
  split at read
  · split at read
    · rename_i isRead
      obtain ⟨rfl, _, rfl⟩ : _ ∧ _ ∧ _ := by simpa using read
      exact rest 4 isRead
    · simp at read
  · split at read
    · split at read
      · rename_i isRead
        obtain ⟨rfl, _, rfl⟩ : _ ∧ _ ∧ _ := by simpa using read
        exact rest 8 isRead
      · simp at read
    · obtain ⟨_, _, rfl⟩ : _ ∧ _ ∧ _ := by simpa using read
      exact le_refl _

theorem lift_inv {α : Type} {x : Except Fault α} {a : α} (run : (lift x : M D α) w = .ok (a, w')) :
    x = .ok a ∧ w = w' := by
  cases x with
  | error e => simp at run
  | ok b =>
    obtain ⟨rfl, rfl⟩ := Prod.mk.inj (Except.ok.inj run)
    exact ⟨rfl, rfl⟩

/-- The end of a record resets the expiry. -/
theorem loadKey_next {valueType : UInt8} {ms loaded : Int}
    (run : loadKey valueType ms f loaded w = .ok (some s', w')) :
    s'.expiryMs = -1 ∧ s'.file.length ≤ f.length := by
  unfold loadKey at run
  obtain ⟨⟨key, f₁⟩, u, readsKey, run⟩ := bind_eq_ok.mp run
  obtain ⟨isKey, rfl⟩ := lift_inv readsKey
  have keyShorter := rdbReadString_shorter isKey
  cases key with
  | none => simp at run
  | some key =>
    dsimp only at run
    split at run
    · obtain ⟨⟨val, f₂⟩, u, readsVal, run⟩ := bind_eq_ok.mp run
      obtain ⟨isVal, rfl⟩ := lift_inv readsVal
      have valShorter := rdbReadString_shorter isVal
      cases val with
      | none =>
        obtain rfl : (⟨f₂, -1, loaded⟩ : LoadState) = s' := by simpa using (Prod.mk.inj (Except.ok.inj run)).1
        exact ⟨rfl, valShorter.trans keyShorter⟩
      | some val =>
        obtain ⟨bucket, _, next, _⟩ := loaded_of_run run
        obtain rfl := Option.some.inj next
        exact ⟨rfl, valShorter.trans keyShorter⟩
    · split at run
      · obtain ⟨⟨stream, f₂⟩, u, readsStream, run⟩ := bind_eq_ok.mp run
        obtain ⟨isStream, rfl⟩ := lift_inv readsStream
        have streamShorter := rdbReadStream_shorter isStream
        cases stream with
        | none => simp at run
        | some stream =>
          obtain ⟨bucket, _, next, _⟩ := loaded_of_run run
          obtain rfl := Option.some.inj next
          exact ⟨rfl, streamShorter.trans keyShorter⟩
      · simp at run

/-- Every round takes a byte, and `expiry_ms` is kept or reset. -/
theorem loadRound_next (run : loadRound s w = .ok (some s', w')) :
    s'.file.length < s.file.length ∧ (s'.expiryMs = s.expiryMs ∨ s'.expiryMs = -1) := by
  obtain ⟨file, expiryMs, loaded⟩ := s
  cases file with
  | nil => simp [loadRound] at run
  | cons op f =>
    have taken {g : Bytes} (shorter : g.length ≤ f.length) : g.length < (op :: f).length :=
      Nat.lt_succ_of_le shorter
    unfold loadRound at run
    dsimp only at run
    split at run
    · simp at run
    · split at run
      · obtain ⟨⟨_, f₁⟩, u, first, run⟩ := bind_eq_ok.mp run
        obtain ⟨isFirst, rfl⟩ := lift_inv first
        obtain ⟨⟨_, f₂⟩, u, second, run⟩ := bind_eq_ok.mp run
        obtain ⟨isSecond, rfl⟩ := lift_inv second
        obtain rfl : (⟨f₂, expiryMs, loaded⟩ : LoadState) = s' := by
          simpa using (Prod.mk.inj (Except.ok.inj run)).1
        exact ⟨taken ((rdbReadString_shorter isSecond).trans (rdbReadString_shorter isFirst)), .inl rfl⟩
      · split at run
        · obtain rfl : (⟨_, expiryMs, loaded⟩ : LoadState) = s' := by
            simpa using (Prod.mk.inj (Except.ok.inj run)).1
          exact ⟨taken (rdbReadLength_shorter f), .inl rfl⟩
        · split at run
          · obtain rfl : (⟨_, expiryMs, loaded⟩ : LoadState) = s' := by
              simpa using (Prod.mk.inj (Except.ok.inj run)).1
            exact ⟨taken ((rdbReadLength_shorter _).trans (rdbReadLength_shorter f)), .inl rfl⟩
          · cases expires : readExpiry op f expiryMs with
            | none => simp [expires] at run
            | some read =>
              obtain ⟨valueType, ms, g⟩ := read
              simp only [expires] at run
              obtain ⟨reset, shorter⟩ := loadKey_next run
              exact ⟨taken (shorter.trans (readExpiry_shorter expires)), .inr reset⟩

/-- One round that does not end the loop. -/
def loadStep (before : World D × LoadState) (_ : Unit) (after : World D × LoadState) : Prop :=
  loadRound before.2 before.1 = .ok (some after.2, after.1)

/-- Rounds lead from one state to another. -/
abbrev LoadRun : World D × LoadState → World D × LoadState → Prop := Run loadStep fun _ _ => True

theorem loadRounds_follows {fuel : Nat} {n : Int} (enough : s.file.length ≤ fuel)
    (run : loadRounds fuel s w = .ok (n, w')) :
    ∃ u t, LoadRun (w, s) (u, t) ∧ t.loaded = n ∧ loadRound t u = .ok (none, w') := by
  induction fuel generalizing s w with
  | zero =>
    obtain ⟨rfl, rfl⟩ := Prod.mk.inj (Except.ok.inj run)
    have empty : s.file = [] := List.length_eq_zero_iff.mp (Nat.le_zero.mp enough)
    exact ⟨w, s, .refl _, rfl, by simp [loadRound, empty]⟩
  | succ fuel inductionHypothesis =>
    unfold loadRounds at run
    obtain ⟨next, u, first, run⟩ := bind_eq_ok.mp run
    cases next with
    | none =>
      obtain ⟨rfl, rfl⟩ := Prod.mk.inj (Except.ok.inj run)
      exact ⟨w, s, .refl _, rfl, first⟩
    | some t =>
      have shorter := (loadRound_next first).1
      obtain ⟨v, last, rest, counted, ends⟩ := inductionHypothesis (by omega) run
      exact ⟨v, last, (Run.single trivial (show loadStep (w, s) () (u, t) from first)).trans rest, counted, ends⟩

/-- The loader makes rounds up to one that ends the loop. -/
theorem loadRdbIntoTable_follows {file : Bytes} {n : Int}
    (run : loadRdbIntoTable (some file) w = .ok (n, w')) :
    ∃ u t, LoadRun (w, .initial file) (u, t) ∧ t.loaded = n ∧ loadRound t u = .ok (none, w') :=
  loadRounds_follows (le_refl _) run

/-- Between two rounds `expiry_ms` is 0, before the first key, or -1. -/
theorem LoadRun.expiryMs {file : Bytes} (reached : LoadRun (w, .initial file) (w', s)) :
    s.expiryMs = 0 ∨ s.expiryMs = -1 := by
  let inv (state : World D × LoadState) : Prop := state.2.expiryMs = 0 ∨ state.2.expiryMs = -1
  have preserved (before : World D × LoadState) (i : Unit) (after : World D × LoadState) (holds : inv before)
      (_ : True) (step : loadStep before i after) : inv after := by
    obtain kept | reset := (loadRound_next step).2
    · exact holds.imp kept.trans kept.trans
    · exact .inr reset
  have atStart : inv (w, .initial file) := .inl rfl
  have kept : inv (w', s) := Run.invariant preserved reached atStart
  exact kept

end Rounds

/-! ## When a record is a change of its own key -/

/-- What the key, the type and the expiry of the record have to be, for a table before the round and the value that
`expiry_ms` has there. -/
def RecordHarmless (table : Table D) (key : Bytes) (type : RecordType) (time : Option Int) (expiryMs : Int) : Prop :=
  ∀ bucket, bucketOf key = some bucket →
    match type, time with
    | .string, some ms =>
      ((table bucket).Leads key → ms ≠ -1) ∧
        (¬ (table bucket).Leads key → ms = 0 ∧ FirstExpires table bucket 0)
    | .string, none => (table bucket).Leads key ∨ expiryMs = -1 ∨ FirstExpires table bucket 0
    | .stream, some ms =>
      ((table bucket).Leads key → 0 ≤ ms) ∧ (¬ (table bucket).Leads key → ms = 0)
    | .stream, none => True

/-- The round of a record that is loaded, in any run over any table. -/
theorem record_law_iff {file rest f key : Bytes} {w₀ w w' : World D} {s s' : LoadState} {deadline : Deadline}
    {type : RecordType} (reached : LoadRun (w₀, .initial file) (w, s))
    (atRecord : s.file = deadline.encode ++ type.code :: rest) (isKey : rdbReadString rest = .ok (some key, f))
    (run : loadRound s w = .ok (some s', w')) (counted : s'.loaded = s.loaded + 1) :
    RecordLaw w w' key deadline.time ↔ RecordHarmless w.table key type deadline.time s.expiryMs := by
  -- between records the expiry is 0 at first, and -1 behind a record
  have sticky := reached.expiryMs
  obtain ⟨_, expiryMs, loaded⟩ := s
  obtain rfl : _ = deadline.encode ++ type.code :: rest := atRecord
  rw [loadRound_record] at run
  obtain ⟨bucket, value, inBucket, rfl⟩ := loadKey_loaded isKey run counted
  -- the key has one bucket
  have harmless_iff : RecordHarmless w.table key type deadline.time expiryMs ↔ _ :=
    ⟨fun harmless => harmless bucket inBucket, fun here other inOther => by
      obtain rfl : bucket = other := Option.some.inj (inBucket.symm.trans inOther)
      exact here⟩
  rw [harmless_iff]
  generalize deadline.time = time
  -- the loader sets the expiry of the first entry of the bucket
  by_cases leads : (w.table bucket).Leads key
  · rw [recordLaw_of_leads inBucket leads]
    cases type with
    | string =>
      cases time with
      | none =>
        refine iff_of_true ?_ (.inl leads)
        obtain rfl | rfl := sticky <;> rfl
      | some ms =>
        by_cases isReset : ms = -1
        · simp [RecordType.written, leads, isReset]
        · simp [RecordType.written, leads, isReset]
    | stream =>
      cases time with
      | none =>
        refine iff_of_true ?_ trivial
        obtain rfl | rfl := sticky <;> rfl
      | some ms =>
        by_cases positive : 0 < ms
        · simp [RecordType.written, leads, positive, positive.le]
        · simp [RecordType.written, leads, positive]
          omega
  · rw [recordLaw_of_not_leads inBucket leads]
    cases type with
    | string =>
      cases time with
      | none =>
        obtain rfl | rfl := sticky
        · simp [RecordType.written, leads]
        · simp [RecordType.written]
      | some ms =>
        by_cases isZero : ms = 0
        · simp [RecordType.written, leads, isZero]
        · simp [leads, isZero]
    | stream =>
      cases time with
      | none =>
        obtain rfl | rfl := sticky <;> simp [RecordType.written]
      | some ms =>
        by_cases isZero : ms = 0
        · simp [RecordType.written, leads, isZero]
        · simp [leads, isZero]

/-- A snapshot with the string `3` for the key `a`, which expires 100 milliseconds after the epoch. -/
def snapshotOfA : Bytes :=
  lit "REDIS0011" ++ [0xFC, 100, 0, 0, 0, 0, 0, 0, 0, 0, 1, 97, 1, 51, 0xFF]

def deadlineOfA : Deadline := .millis [100, 0, 0, 0, 0, 0, 0, 0] rfl

theorem rdbReadString_snapshotOfA :
    rdbReadString [1, 97, 1, 51, 0xFF] = .ok (some (lit "a"), [1, 51, 0xFF]) ∧
      rdbReadString [1, 51, 0xFF] = .ok (some (lit "3"), [0xFF]) :=
  ⟨rfl, rfl⟩

/-- The round of `snapshotOfA`, over any table. -/
theorem loadRound_snapshotOfA {w : World Int} {existing : Option (Entry Int)}
    (found : lookup w.table (lit "a") = .ok existing) :
    loadRound (.initial snapshotOfA) w = .ok (some ⟨[0xFF], -1, 1⟩, w.setBucket sharedBucket
      (loadedChain (w.table sharedBucket) (lit "a") (.string (lit "3")) (some 100))) := by
  obtain ⟨isKey, isVal⟩ := rdbReadString_snapshotOfA
  have inBucket : bucketOf (lit "a") = some sharedBucket := by decide +kernel
  have time : deadlineOfA.time = some 100 := by decide +kernel
  have atRecord : LoadState.initial snapshotOfA =
      ⟨deadlineOfA.encode ++ RecordType.string.code :: [1, 97, 1, 51, 0xFF], 0, 0⟩ := by decide +kernel
  rw [atRecord, loadRound_string isKey isVal inBucket found (by decide), time]
  rfl

/-- The table has `SET Bc 2` and then `SET a 1`, and the keys share a bucket: the snapshot changes `a`, which is first in
the chain, and leaves `Bc` alone. -/
theorem record_law_iff_leading : ∃ (w w' : World Int) (s' : LoadState), StoreReachable w.table ∧
    lookup w.table (lit "a") = .ok (some ⟨.string (lit "1"), 0⟩) ∧
    lookup w.table (lit "Bc") = .ok (some ⟨.string (lit "2"), 0⟩) ∧
    loadRound (.initial snapshotOfA) w = .ok (some s', w') ∧ s'.loaded = 1 ∧ RecordLaw w w' (lit "a") (some 100) := by
  have ends : endsIn (storeSet (lit "Bc") (.string (lit "2")) .noTimeFlag (-1)) (blankWorld Int) (fun w =>
      endsIn (storeSet (lit "a") (.string (lit "1")) .noTimeFlag (-1)) w fun w => decide (w.table sharedBucket =
        ⟨[(lit "a", ⟨.string (lit "1"), 0⟩), (lit "Bc", ⟨.string (lit "2"), 0⟩)], false⟩)) = true := by decide +kernel
  obtain ⟨w₁, setBc, ends⟩ := exists_ok_of_endsIn ends
  obtain ⟨w, setA, checked⟩ := exists_ok_of_endsIn ends
  have chain := of_decide_eq_true checked
  have bucketA : bucketOf (lit "a") = some sharedBucket := by decide +kernel
  have bucketBc : bucketOf (lit "Bc") = some sharedBucket := by decide +kernel
  have beforeA : lookup w.table (lit "a") = .ok (some ⟨.string (lit "1"), 0⟩) := by
    rw [lookup_of_bucket bucketA, chain]
    decide +kernel
  have beforeBc : lookup w.table (lit "Bc") = .ok (some ⟨.string (lit "2"), 0⟩) := by
    rw [lookup_of_bucket bucketBc, chain]
    decide +kernel
  have run := loadRound_snapshotOfA beforeA
  have time : deadlineOfA.time = some 100 := by decide +kernel
  have atRecord : (LoadState.initial snapshotOfA).file =
      deadlineOfA.encode ++ RecordType.string.code :: [1, 97, 1, 51, 0xFF] := by decide +kernel
  have law := record_law_iff (.refl _) atRecord rdbReadString_snapshotOfA.1 run rfl
  rw [time] at law
  have leads : (w.table sharedBucket).Leads (lit "a") := by
    rw [chain]
    exact .inr rfl
  have harmless : RecordHarmless w.table (lit "a") .string (some 100) 0 := by
    intro bucket inBucket
    obtain rfl : sharedBucket = bucket := Option.some.inj (bucketA.symm.trans inBucket)
    exact ⟨fun _ => by decide, fun follows => absurd leads follows⟩
  exact ⟨w, _, _, .storeSet (.storeSet .empty setBc) setA, beforeA, beforeBc, run, rfl, law.mpr harmless⟩

/-- The table has `SET a 1` and then `SET Bc 2`, and the keys share a bucket: the snapshot gives the expiry of `a` to
`Bc`. -/
theorem record_expires_another_key :
    ∃ (w w' : World Int) (s' : LoadState), StoreReachable w.table ∧
      lookup w.table (lit "a") = .ok (some ⟨.string (lit "1"), 0⟩) ∧
      lookup w.table (lit "Bc") = .ok (some ⟨.string (lit "2"), 0⟩) ∧
      loadRound (.initial snapshotOfA) w = .ok (some s', w') ∧ s'.loaded = 1 ∧
      lookup w'.table (lit "a") = .ok (some ⟨.string (lit "3"), 0⟩) ∧
      lookup w'.table (lit "Bc") = .ok (some ⟨.string (lit "2"), 100⟩) ∧
      ¬ RecordLaw w w' (lit "a") (some 100) := by
  have bucketA : bucketOf (lit "a") = some sharedBucket := by decide +kernel
  have bucketBc : bucketOf (lit "Bc") = some sharedBucket := by decide +kernel
  have first := storeSet_untimed_run bucketA (.string (lit "1"))
    (show lookup (blankWorld Int).table (lit "a") = .ok none from rfl)
  have absent : lookup ((blankWorld Int).setBucket sharedBucket
      (boundChain Chain.empty (lit "a") (.string (lit "1")))).table (lit "Bc") = .ok none := by
    rw [lookup_of_bucket bucketBc, setBucket_table_self]
    decide +kernel
  have second := storeSet_untimed_run bucketBc (.string (lit "2")) absent
  rw [setBucket_setBucket, setBucket_table_self] at second
  generalize filled : (blankWorld Int).setBucket sharedBucket (boundChain (boundChain _ _ _) _ _) = w at second
  have chain : w.table sharedBucket =
      ⟨[(lit "Bc", ⟨.string (lit "2"), 0⟩), (lit "a", ⟨.string (lit "1"), 0⟩)], false⟩ := by
    rw [← filled, setBucket_table_self]
    decide +kernel
  have beforeA : lookup w.table (lit "a") = .ok (some ⟨.string (lit "1"), 0⟩) := by
    rw [lookup_of_bucket bucketA, chain]
    decide +kernel
  have beforeBc : lookup w.table (lit "Bc") = .ok (some ⟨.string (lit "2"), 0⟩) := by
    rw [lookup_of_bucket bucketBc, chain]
    decide +kernel
  have run := loadRound_snapshotOfA beforeA
  have shownA : (loadedChain (w.table sharedBucket) (lit "a") (.string (lit "3")) (some 100)).find (lit "a") =
      some (some ⟨.string (lit "3"), 0⟩) := by
    rw [chain]
    decide +kernel
  have shownBc : (loadedChain (w.table sharedBucket) (lit "a") (.string (lit "3")) (some 100)).find (lit "Bc") =
      some (some ⟨.string (lit "2"), 100⟩) := by
    rw [chain]
    decide +kernel
  have afterA := lookup_setBucket_self w bucketA shownA
  have afterBc := lookup_setBucket_self w bucketBc shownBc
  refine ⟨w, _, _, .storeSet (.storeSet .empty first) second, beforeA, beforeBc, run, rfl, afterA, afterBc, ?_⟩
  intro law
  have kept := law.others (lit "Bc") (by decide)
  rw [afterBc, beforeBc] at kept
  exact absurd kept (by decide)

end RedisClone
