import RedisClone.Verified.Silence
import RedisClone.Verified.Slices
import RedisClone.Verified.SnapshotRounds
import RedisClone.Verified.StreamIds

/-! # Streams that were loaded

The loader frees the blob behind every element that it reads, and once more behind their loop, so that reading a blob
with an element is a fault (`readBlob_of_element`).  The streams that it returns are therefore empty
(`rdbReadStream_ok`), and an empty stream is not what XADD and XRANGE expect of a key that is bound:
`loaded_stream_law_iff` says when the whole is harmless.
-/

namespace RedisClone

open Exec CString

variable {D : Type}

/-! ## The elements of a blob -/

/-- The encodings that the parser of listpacks knows. -/
def IsKnown (enc : UInt8) : Prop :=
  enc &&& 0x80 = 0 ∨ enc &&& 0xC0 = 0x80 ∨ enc = 0xF1 ∨ enc = 0xF2 ∨ enc = 0xF3 ∨ enc = 0xF4

instance (enc : UInt8) : Decidable (IsKnown enc) := inferInstanceAs (Decidable (_ ∨ _))

/-- Behind the header of the blob and before its last byte there is an element. -/
def HoldsElement (blob : Bytes) : Prop := 7 < blob.length ∧ ∀ enc ∈ blob[6]?, IsKnown enc

instance (blob : Bytes) : Decidable (HoldsElement blob) := inferInstanceAs (Decidable (_ ∧ _))

section Blob

variable {blob : Bytes} {p fuel : Nat} {enc : UInt8} {stream : Stream}

/-- Reading the bytes of an element and making an ID of them gives an element, or reads too far. -/
theorem element_of_bytes {α : Type} {x : Except Fault α} {f : α → Bytes × Nat} :
    (x >>= fun a => pure (some (f a))) ≠ (.ok none : Except Fault (Option (Bytes × Nat))) := by
  cases x with
  | error e => simp [bind, Except.bind]
  | ok a => simp [bind, Except.bind, pure, Except.pure]

/-- Every known encoding is taken by one of the branches. -/
theorem listpackElement_of_known (known : IsKnown enc) : listpackElement blob p enc ≠ .ok none := by
  unfold listpackElement
  dsimp only
  by_cases isSmall : enc &&& 0x80 = 0
  · rw [if_pos isSmall]
    simp [pure, Except.pure]
  rw [if_neg isSmall]
  split
  · exact element_of_bytes
  split
  · exact element_of_bytes
  split
  · exact element_of_bytes
  split
  · exact element_of_bytes
  split
  · exact element_of_bytes
  split
  · exact element_of_bytes
  -- none of the encodings is left
  rename_i notText not16 not24 not32 not64
  rcases known with known | known | known | known | known | known <;> contradiction

theorem listpackElement_of_unknown (unknown : ¬ IsKnown enc) : listpackElement blob p enc = .ok none := by
  simp only [IsKnown, not_or] at unknown
  obtain ⟨notSmall, notText, not16, not24, not32, not64⟩ := unknown
  -- the mask of the 13-bit integers has the bit of the 7-bit ones
  have not13 : enc &&& 0xE0 ≠ 0x60 := by
    intro is13
    refine notSmall ?_
    calc enc &&& 0x80 = (enc &&& 0xE0) &&& 0x80 := by rw [UInt8.and_assoc]; rfl
      _ = 0 := by rw [is13]; rfl
  unfold listpackElement
  rw [if_neg notSmall, if_neg not13, if_neg notText, if_neg not16, if_neg not24, if_neg not32, if_neg not64]
  rfl

/-- Once the blob is freed, no further element is read. -/
theorem readListpack_freed :
    readListpack blob fuel p true stream = .ok (stream, true) ∨
      readListpack blob fuel p true stream = .error .useAfterFree := by
  cases fuel with
  | zero => exact .inl rfl
  | succ fuel =>
    unfold readListpack
    split
    · exact .inr rfl
    · exact .inl rfl

theorem readListpack_of_element (stream : Stream) (holds : HoldsElement blob) :
    (∃ after, readListpack blob blob.length 6 false stream = .ok (after, true)) ∨
      ∃ e, readListpack blob blob.length 6 false stream = .error e := by
  obtain ⟨long, known⟩ := holds
  obtain ⟨fuel, isFuel⟩ : ∃ fuel, blob.length = fuel + 1 := ⟨blob.length - 1, by omega⟩
  obtain ⟨enc, isEnc⟩ : ∃ enc, blob[6]? = some enc := ⟨_, List.getElem?_eq_getElem (by omega)⟩
  have isKnown : IsKnown enc := known enc isEnc
  have notEnd : enc ≠ 0xFF := by
    rintro rfl
    exact absurd isKnown (by decide)
  have read : derefBlob blob 6 false = .ok enc := by simp [derefBlob, isEnc]
  rw [isFuel, readListpack, if_pos (by omega), read]
  show (∃ after, (if enc = 0xFF then _ else _) = Except.ok (after, true)) ∨
    ∃ e, (if enc = 0xFF then _ else _) = Except.error e
  rw [if_neg notEnd]
  cases element : listpackElement blob 6 enc with
  | error e => exact .inr ⟨e, rfl⟩
  | ok result =>
    cases result with
    | none => exact absurd element (listpackElement_of_known isKnown)
    | some result =>
      obtain ⟨id, p'⟩ := result
      exact readListpack_freed.imp (fun ends => ⟨_, ends⟩) fun faults => ⟨_, faults⟩

theorem readListpack_of_no_element (empty : ¬ HoldsElement blob) :
    readListpack blob blob.length 6 false stream = .ok (stream, false) := by
  cases isFuel : blob.length with
  | zero => rfl
  | succ fuel =>
    rw [readListpack]
    by_cases long : 6 + 1 < blob.length
    · obtain ⟨enc, isEnc⟩ : ∃ enc, blob[6]? = some enc := ⟨_, List.getElem?_eq_getElem (by omega)⟩
      have unknown : ¬ IsKnown enc := fun known =>
        empty ⟨long, fun other isOther => Option.some.inj (isEnc.symm.trans isOther) ▸ known⟩
      have read : derefBlob blob 6 false = .ok enc := by simp [derefBlob, isEnc]
      rw [if_pos long, read]
      show (if enc = 0xFF then _ else _) = Except.ok (stream, false)
      split
      · rfl
      · rw [listpackElement_of_unknown unknown]
        rfl
    · rw [if_neg long]

end Blob

/-! ## The blobs of a file -/

/-- The next blob and the rest of the file, where its length and its bytes can be read. -/
def nextBlob (f : Bytes) : Option (Bytes × Bytes) :=
  match rdbReadLength f with
  | (⟨blobLen, _⟩, f) =>
    if blobLen < 0 then none
    else
      match fread blobLen.toNat f with
      | (some blob, f) => some (blob, f)
      | (none, _) => none

/-- The blobs that can be read, and whether there are as many of them as the file says. -/
structure Blobs where
  blobs : List Bytes
  whole : Bool

def blobsFrom : (count : Nat) → Bytes → Blobs
  | 0, _ => ⟨[], true⟩
  | count + 1, f =>
    match nextBlob f with
    | none => ⟨[], false⟩
    | some (blob, f) => { blobsFrom count f with blobs := blob :: (blobsFrom count f).blobs }

/-- The blobs of a stream in a file. -/
def streamBlobs (f : Bytes) : Blobs :=
  match rdbReadLength f with
  | (⟨lpCount, _⟩, f) => if lpCount < 0 then ⟨[], false⟩ else blobsFrom lpCount.toNat f

section File

variable {f g : Bytes} {blob : Bytes} {stream : Stream} {count : Nat}

theorem readBlob_of_none (stream : Stream) (missing : nextBlob f = none) : ∃ g, readBlob f stream = .ok (none, g) := by
  unfold nextBlob at missing
  unfold readBlob
  generalize rdbReadLength f = prefixed at missing
  obtain ⟨⟨blobLen, _⟩, f'⟩ := prefixed
  dsimp only at missing ⊢
  split
  · exact ⟨_, rfl⟩
  · rename_i given
    rw [if_neg given] at missing
    cases read : fread blobLen.toNat f' with
    | mk bytes g =>
      cases bytes with
      | none => exact ⟨g, rfl⟩
      | some blob => simp [read] at missing

/-- Reading a blob is reading its elements, with one more `free` behind. -/
theorem readBlob_of_some (next : nextBlob f = some (blob, g)) :
    readBlob f stream = (do
      let (stream, freed) ← readListpack blob blob.length 6 false stream
      let _ ← freeBlob freed
      pure (some stream, g)) := by
  unfold nextBlob at next
  unfold readBlob
  generalize rdbReadLength f = prefixed at next
  obtain ⟨⟨blobLen, _⟩, f'⟩ := prefixed
  dsimp only at next ⊢
  split at next
  · simp at next
  · rename_i given
    rw [if_neg given]
    cases read : fread blobLen.toNat f' with
    | mk bytes rest =>
      cases bytes with
      | none => simp [read] at next
      | some bytes =>
        obtain ⟨rfl, rfl⟩ : bytes = blob ∧ rest = g := by simpa [read] using next
        rfl

theorem readBlob_of_no_element (next : nextBlob f = some (blob, g)) (empty : ¬ HoldsElement blob) :
    readBlob f stream = .ok (some stream, g) := by
  rw [readBlob_of_some next, readListpack_of_no_element empty]
  rfl

theorem readBlob_of_element (stream : Stream) (next : nextBlob f = some (blob, g)) (holds : HoldsElement blob) :
    ∃ e, readBlob f stream = .error e := by
  rw [readBlob_of_some next]
  obtain ⟨after, ends⟩ | ⟨e, faults⟩ := readListpack_of_element stream holds
  · exact ⟨.doubleFree, by rw [ends]; rfl⟩
  · exact ⟨e, by rw [faults]; rfl⟩

/-- By induction on the count: no blob adds anything to the stream. -/
theorem readBlobs_of_no_element (stream : Stream) (empty : ∀ blob ∈ (blobsFrom count f).blobs, ¬ HoldsElement blob) :
    ∃ g, readBlobs count f stream = .ok (bif (blobsFrom count f).whole then some stream else none, g) := by
  induction count generalizing f with
  | zero => exact ⟨f, rfl⟩
  | succ count inductionHypothesis =>
    unfold blobsFrom at empty ⊢
    cases next : nextBlob f with
    | none =>
      obtain ⟨g, read⟩ := readBlob_of_none stream next
      exact ⟨g, by rw [readBlobs, read]; rfl⟩
    | some read =>
      obtain ⟨blob, g⟩ := read
      simp only [next, List.forall_mem_cons] at empty ⊢
      obtain ⟨rest, others⟩ := inductionHypothesis empty.2
      refine ⟨rest, ?_⟩
      rw [readBlobs, readBlob_of_no_element next empty.1]
      exact others

theorem readBlobs_of_element (stream : Stream) (holds : ∃ blob ∈ (blobsFrom count f).blobs, HoldsElement blob) :
    ∃ e, readBlobs count f stream = .error e := by
  induction count generalizing f with
  | zero => simp [blobsFrom] at holds
  | succ count inductionHypothesis =>
    unfold blobsFrom at holds
    cases next : nextBlob f with
    | none => simp [next] at holds
    | some read =>
      obtain ⟨blob, g⟩ := read
      simp only [next, List.exists_mem_cons_iff] at holds
      by_cases first : HoldsElement blob
      · obtain ⟨e, faults⟩ := readBlob_of_element stream next first
        exact ⟨e, by rw [readBlobs, faults]; rfl⟩
      · obtain ⟨e, faults⟩ := inductionHypothesis (holds.resolve_left first)
        refine ⟨e, ?_⟩
        rw [readBlobs, readBlob_of_no_element next first]
        exact faults

/-- Without elements the loader returns an empty stream, or none where a blob cannot be read. -/
theorem rdbReadStream_of_no_element (empty : ∀ blob ∈ (streamBlobs f).blobs, ¬ HoldsElement blob) :
    ∃ g, rdbReadStream f = .ok (bif (streamBlobs f).whole then some .zeroed else none, g) := by
  unfold streamBlobs at empty ⊢
  unfold rdbReadStream
  generalize rdbReadLength f = prefixed at empty ⊢
  obtain ⟨⟨lpCount, _⟩, f'⟩ := prefixed
  dsimp only at empty ⊢
  by_cases negative : lpCount < 0
  · rw [if_pos negative, if_pos negative]
    exact ⟨f', rfl⟩
  · rw [if_neg negative] at empty ⊢
    obtain ⟨g, read⟩ := readBlobs_of_no_element .zeroed empty
    rw [if_neg negative, read]
    cases (blobsFrom lpCount.toNat f').whole with
    | true => exact ⟨_, rfl⟩
    | false => exact ⟨_, rfl⟩

/-- A blob with an element is freed twice, read after it was freed, or read past its end. -/
theorem rdbReadStream_of_element (holds : ∃ blob ∈ (streamBlobs f).blobs, HoldsElement blob) :
    ∃ e, rdbReadStream f = .error e := by
  unfold streamBlobs at holds
  unfold rdbReadStream
  generalize rdbReadLength f = prefixed at holds ⊢
  obtain ⟨⟨lpCount, _⟩, f'⟩ := prefixed
  dsimp only at holds ⊢
  by_cases negative : lpCount < 0
  · simp [if_pos negative] at holds
  · rw [if_neg negative] at holds ⊢
    obtain ⟨e, faults⟩ := readBlobs_of_element .zeroed holds
    exact ⟨e, by rw [faults]; rfl⟩

end File

/-! ## Well-formed streams -/

/-- The IDs of the elements of a blob, in the order of the file. -/
def elementIds (blob : Bytes) : (fuel p : Nat) → List Bytes
  | 0, _ => []
  | fuel + 1, p =>
    if p + 1 < blob.length then
      match blob[p]? with
      | none => []
      | some enc =>
        if enc = 0xFF then []
        else
          match listpackElement blob p enc with
          | .ok (some (id, p')) => id :: elementIds blob fuel p'
          | _ => []
    else []

/-- The IDs of the elements of all blobs. -/
def Blobs.ids (blobs : Blobs) : List Bytes := blobs.blobs.flatMap fun blob => elementIds blob blob.length 6

theorem elementIds_of_no_element {blob : Bytes} (empty : ¬ HoldsElement blob) :
    elementIds blob blob.length 6 = [] := by
  cases isFuel : blob.length with
  | zero => rfl
  | succ fuel =>
    rw [elementIds]
    split
    · rename_i long
      obtain ⟨enc, isEnc⟩ : ∃ enc, blob[6]? = some enc := ⟨_, List.getElem?_eq_getElem (by omega)⟩
      have unknown : ¬ IsKnown enc := fun known =>
        empty ⟨long, fun other isOther => Option.some.inj (isEnc.symm.trans isOther) ▸ known⟩
      simp only [isEnc, listpackElement_of_unknown unknown]
      split <;> rfl
    · rfl

/-- What the commands rely on, for a stream that was made of elements with these IDs. -/
structure Stream.WellFormed (stream : Stream) (ids : List Bytes) : Prop where
  counted : stream.length = stream.entries.length
  ordered : stream.entries.map StreamEntry.id = ids
  tail : stream.tail = stream.entries.getLast?
  last : ∀ entry ∈ stream.tail, scanPair entry.id = (some stream.lastMs, some stream.lastSeq)

theorem zeroed_wellFormed : Stream.zeroed.WellFormed [] :=
  ⟨rfl, rfl, rfl, fun entry isTail => by simp [Stream.zeroed] at isTail⟩

/-! ## XRANGE on an empty stream -/

/-- The faults of a command that follows a pointer which is NULL or was freed. -/
def Fault.IsMemory (e : Fault) : Prop := e = .nullDeref ∨ e = .missingArg ∨ e = .useAfterFree ∨ e = .doubleFree

/-- The key of the command is bound to an empty stream. -/
def BindsEmpty (table : Table D) (req : RespRequest) : Prop :=
  ∃ key expiresAt, req.args[0]? = some key ∧ lookup table key = .ok (some ⟨.stream .zeroed, expiresAt⟩)

/-- Both bounds of the range are there, and neither is the ID of an end of the stream. -/
def NamesBounds (req : RespRequest) : Prop :=
  ∃ start stop, req.args[1]? = some start ∧ req.args[2]? = some stop ∧ start ≠ lit "-" ∧ stop ≠ lit "+"

section Xrange

variable {w t : World D} {req : RespRequest} {clientFd : Int} {ptr : ClientPtr}

theorem scanBound_total (text wildcard : Bytes) {ending : Option StreamEntry}
    (given : text = wildcard → ending ≠ none) (w : World D) :
    ∃ pair t, scanBound text wildcard ending w = .ok (pair, t) := by
  unfold scanBound
  split
  · rename_i isWildcard
    obtain ⟨entry, rfl⟩ := Option.ne_none_iff_exists'.mp (given isWildcard)
    obtain ⟨pair, t, scans, _⟩ := scanId_total entry.id w
    exact ⟨pair, t, scans⟩
  · obtain ⟨pair, t, scans, _⟩ := scanId_total text w
    exact ⟨pair, t, scans⟩

theorem sendStreamResponse_ends (response : Option Bytes) (w : World D) (e : Fault) :
    sendStreamResponse clientFd response w ≠ .error e := by
  cases response with
  | none => exact nofun
  | some response => exact nofun

/-- XRANGE follows `head` and `tail` for the bounds `-` and `+`, and reads a bound that is not there. -/
theorem xrange_zeroed (ptr : ClientPtr) (clientFd : Int) (binds : BindsEmpty w.table req) :
    (∃ e, handleStreamPrint req ptr clientFd .xrange w = .error e ∧ e.IsMemory) ↔ ¬ NamesBounds req := by
  obtain ⟨key, expiresAt, isKey, found⟩ := binds
  have prints : (req.printArg 0 : M D Unit) w = .ok ((), w) := by simp [RespRequest.printArg, isKey]
  have reads : storeGetEntry key w = .ok (some ⟨.stream .zeroed, expiresAt⟩, w) := by rw [storeGetEntry_run, found]
  unfold handleStreamPrint streamEntryToString
  rw [bind_of_ok prints, if_pos rfl, bind_of_ok (arg_ok.mpr ⟨isKey, rfl⟩), bind_assoc, bind_of_ok reads]
  dsimp only
  cases isStart : req.args[1]? with
  | none =>
    have missing : (req.arg 1 : M D Bytes) w = .error .missingArg := by simp [RespRequest.arg, isStart, fault]
    rw [bind_assoc, bind_of_error missing]
    simp [NamesBounds, isStart, Fault.IsMemory]
  | some start =>
    rw [bind_assoc, bind_of_ok (arg_ok.mpr ⟨isStart, rfl⟩)]
    cases isStop : req.args[2]? with
    | none =>
      have missing : (req.arg 2 : M D Bytes) w = .error .missingArg := by simp [RespRequest.arg, isStop, fault]
      rw [bind_assoc, bind_of_error missing]
      simp [NamesBounds, isStop, Fault.IsMemory]
    | some stop =>
      rw [bind_assoc, bind_of_ok (arg_ok.mpr ⟨isStop, rfl⟩)]
      have wildcard_iff : ¬ NamesBounds req ↔ start = lit "-" ∨ stop = lit "+" := by
        simp [NamesBounds, isStart, isStop, imp_iff_not_or]
      have nullDeref {text wildcard : Bytes} (isWildcard : text = wildcard) (w : World D) :
          scanBound text wildcard none w = .error .nullDeref := by
        simp [scanBound, isWildcard, idOf, fault, bind_run]
      rw [wildcard_iff, bind_assoc]
      by_cases wildStart : start = lit "-"
      · have noHead : scanBound start (lit "-") Stream.zeroed.entries.head? w = .error .nullDeref :=
          nullDeref wildStart w
        rw [bind_of_error noHead]
        exact iff_of_true ⟨_, rfl, .inl rfl⟩ (.inl wildStart)
      obtain ⟨low, t, scansStart⟩ : ∃ low t, scanBound start (lit "-") Stream.zeroed.entries.head? w = .ok (low, t) :=
        scanBound_total _ _ (fun same => absurd same wildStart) w
      rw [bind_of_ok scansStart, bind_assoc]
      by_cases wildStop : stop = lit "+"
      · have noTail : scanBound stop (lit "+") Stream.zeroed.tail t = .error .nullDeref := nullDeref wildStop t
        rw [bind_of_error noTail]
        exact iff_of_true ⟨_, rfl, .inl rfl⟩ (.inr wildStop)
      obtain ⟨high, u, scansStop⟩ : ∃ high u, scanBound stop (lit "+") Stream.zeroed.tail t = .ok (high, u) :=
        scanBound_total _ _ (fun same => absurd same wildStop) t
      -- without a wildcard the text of an empty range is sent
      have sizes : rangeSize Stream.zeroed.length u = .ok (64 + Stream.zeroed.length * 256, u) :=
        rangeSize_run (by decide) u
      have selects : selectEntries (64 + Stream.zeroed.length * 256) low high false Stream.zeroed.length
          Stream.zeroed.entries {} 0 u = .ok (({}, 0), u) := rfl
      obtain ⟨content, v, printed⟩ : ∃ content v,
          entriesPrinted (64 + Stream.zeroed.length * 256) {} 0 u = .ok (content, v) := ⟨_, _, rfl⟩
      rw [bind_of_ok scansStop, bind_assoc, bind_of_ok sizes, bind_assoc, bind_of_ok selects, bind_assoc, bind_of_ok printed]
      refine iff_of_false ?_ (not_or.mpr ⟨wildStart, wildStop⟩)
      rintro ⟨e, run, _⟩
      rw [pure_bind] at run
      exact sendStreamResponse_ends _ v e run

end Xrange

/-! ## XADD on an empty stream -/

/-- XADD gives a stream without a `head` to `store_set_stream`, which frees the payload of the first node of the
bucket before it stores the stream there: where that node is the one of the key, it is the stream that was freed. -/
def StoresFreed (table : Table D) (req : RespRequest) : Prop :=
  2 ≤ req.argc ∧ ∃ key bucket stream expiresAt rest, req.args[0]? = some key ∧ bucketOf key = some bucket ∧
    (table bucket).nodes = (key, ⟨.stream stream, expiresAt⟩) :: rest ∧ stream.entries = []

/-- A key holds a stream with one entry, and every slot of `clients` a block. -/
structure ReadableAt (key : Bytes) (w : World D) : Prop where
  bound : ∃ entry ms seq expiresAt,
    lookup w.table key = .ok (some ⟨.stream ⟨[entry], some entry, ms, seq, 1⟩, expiresAt⟩)
  allocated : ∀ slot ptr, w.clients slot = some ptr → w.heap ptr ≠ none

section Xadd

variable {w t : World D} {key : Bytes} {req : RespRequest} {clientFd : Int} {ptr : ClientPtr} {e : Fault}

theorem append_fault {size : Nat} {texts : List Bytes} {buffer : Buffer}
    (run : buffer.appendAll size texts w = .error e) : e = .outOfBounds := by
  induction texts generalizing buffer w with
  | nil => simp [Buffer.appendAll] at run
  | cons text texts inductionHypothesis =>
    unfold Buffer.appendAll at run
    obtain first | ⟨appended, t, _, rest⟩ := bind_eq_error.mp run
    · unfold Buffer.append Buffer.print at first
      split at first
      · simpa [fault, bind_run, eq_comm] using first
      · simp at first
    · exact inductionHypothesis rest

/-- Printing one entry only fails where the text is longer than the array. -/
theorem selectOne_fault {size count : Nat} {start stop : Int × Int} {isXrange : Bool} {entry : StreamEntry}
    {buffer : Buffer} (run : selectEntries size start stop isXrange 1 [entry] buffer count w = .error e) :
    e = .outOfBounds := by
  unfold selectEntries at run
  obtain ⟨pair, t, scans, _⟩ := scanId_total entry.id w
  rw [bind_of_ok scans] at run
  split at run
  · obtain prints | ⟨appended, u, _, rest⟩ := bind_eq_error.mp run
    · exact append_fault prints
    · simp [selectEntries] at rest
  · simp [selectEntries] at run

theorem xreadBounds_total (stream : Stream) (startText idEnd : Bytes) (nonempty : stream.entries.head? ≠ none)
    (isTail : stream.tail ≠ none) (w : World D) :
    ∃ bounds t, xreadBounds startText idEnd stream w = .ok (bounds, t) := by
  unfold xreadBounds
  split
  · obtain ⟨start, t, scansStart, _⟩ := scanId_total [] w
    obtain ⟨stop, u, scansStop, _⟩ := scanId_total [] t
    exact ⟨_, u, by rw [bind_of_ok scansStart, bind_of_ok scansStop]; rfl⟩
  · obtain ⟨start, t, scansStart⟩ := scanBound_total startText (lit "-") (fun _ => nonempty) w
    obtain ⟨stop, u, scansStop⟩ := scanBound_total idEnd (lit "+") (fun _ => isTail) t
    exact ⟨_, u, by rw [bind_of_ok scansStart, bind_of_ok scansStop]; rfl⟩

theorem streamEntryXreadToString_fault {minId idEnd : Bytes} (readable : ReadableAt key w)
    (run : streamEntryXreadToString (pure minId) idEnd key w = .error e) : e = .outOfBounds := by
  obtain ⟨entry, ms, seq, expiresAt, found⟩ := readable.bound
  obtain ⟨block, taken, takes, sameTable⟩ : ∃ block taken,
      (indeterminate : M D Bytes) w = .ok (block, taken) ∧ taken.table = w.table := ⟨_, _, rfl, rfl⟩
  have reads : storeGetEntry key taken =
      .ok (some ⟨.stream ⟨[entry], some entry, ms, seq, 1⟩, expiresAt⟩, taken) := by
    rw [storeGetEntry_run, sameTable, found]
  unfold streamEntryXreadToString at run
  rw [bind_of_ok takes, bind_of_ok reads] at run
  simp only [pure_bind] at run
  obtain ⟨bounds, t, scans⟩ :=
    xreadBounds_total ⟨[entry], some entry, ms, seq, 1⟩ minId idEnd (by simp) (by simp) taken
  have head : idOf [entry].head? t = .ok (entry.id, t) := rfl
  rw [bind_of_ok scans, bind_of_ok head] at run
  obtain selects | ⟨selected, u, _, rest⟩ := bind_eq_error.mp run
  · exact selectOne_fault selects
  · split at rest
    · simp at rest
    · simp at rest

theorem clientAt_of_allocated (allocated : ∀ slot ptr, w.clients slot = some ptr → w.heap ptr ≠ none)
    (slot : ClientSlot) : ∃ occupant, clientAt slot w = .ok (occupant, w) := by
  unfold clientAt
  rw [bind_of_ok (observe_run _ w)]
  cases inSlot : w.clients slot with
  | none => exact ⟨none, rfl⟩
  | some ptr =>
    obtain ⟨client, found⟩ := Option.ne_none_iff_exists'.mp (allocated slot ptr inSlot)
    exact ⟨some (ptr, client), (bind_of_ok (loadClient_found found)).trans rfl⟩

theorem tryDeliverStreamData_fault {client : Client} (readable : ReadableAt key w)
    (found : w.heap ptr = some client) (waits : client.waitingForKey = some key)
    (run : tryDeliverStreamData ptr w = .error e) : e = .outOfBounds := by
  unfold tryDeliverStreamData at run
  rw [bind_of_ok (loadClient_found found)] at run
  dsimp only at run
  cases blocked : client.isBlocked with
  | false => simp [blocked] at run
  | true =>
    cases first : client.minId with
    | none => simp [blocked, waits, first] at run
    | some minId =>
      simp only [blocked, waits, first] at run
      obtain reading | ⟨delivery, read, reading, afterRead⟩ := bind_eq_error.mp run
      · exact streamEntryXreadToString_fault readable reading
      · have still : Still w read := (obeysAt_streamEntryXreadToString ambient_still
          fun _ _ => obeys_pure ambient_still _).1 _ _ reading
        obtain ⟨other, foundOther, _⟩ := still.heap ptr client found
        obtain ⟨messages, count⟩ := delivery
        cases messages with
        | none => simp at afterRead
        | some messages =>
          dsimp only at afterRead
          split at afterRead
          · -- the block of the client is still there
            obtain sends | ⟨_, sent, sends, wakes⟩ := bind_eq_error.mp afterRead
            · cases sends
            · have foundSent : sent.heap ptr = some other := by
                rw [send_run sends]
                exact foundOther
              rw [updateClient_found foundSent] at wakes
              cases wakes
          · simp at afterRead

/-- Waking one reader of the key. -/
theorem wakeStreamReader_fault {slot : ClientSlot} (readable : ReadableAt key w)
    (run : wakeStreamReader key slot w = .error e) : e = .outOfBounds := by
  unfold wakeStreamReader at run
  obtain ⟨occupant, looks⟩ := clientAt_of_allocated readable.allocated slot
  rw [bind_of_ok looks] at run
  cases occupant with
  | none => simp at run
  | some occupant =>
    obtain ⟨ptr, client⟩ := occupant
    dsimp only at run
    split at run
    · rename_i waits
      exact tryDeliverStreamData_fault readable ((clientAt_run looks).2.2 ptr client rfl) waits.2 run
    · simp at run

theorem ReadableAt.woken {slot : ClientSlot} (readable : ReadableAt key w)
    (run : wakeStreamReader key slot w = .ok ((), t)) : ReadableAt key t := by
  have sameTable : t.table = w.table :=
    (obeys_wakeStreamReader ambient_sameTable mayBlock_sameTable key slot w).1 _ _ run
  have single : forM [slot] (wakeStreamReader key) w = .ok ((), t) := by simpa using run
  have delivers := forM_wakeStreamReader_delivers single
  constructor
  · rw [sameTable]
    exact readable.bound
  · intro other ptr inSlot
    rw [delivers.clients] at inSlot
    obtain ⟨client, found⟩ := Option.ne_none_iff_exists'.mp (readable.allocated other ptr inSlot)
    obtain ⟨client', found', _⟩ := delivers.heap ptr client found
    simp [found']

theorem forM_wakeStreamReader_fault {slots : List ClientSlot} (readable : ReadableAt key w)
    (run : forM slots (wakeStreamReader key) w = .error e) : e = .outOfBounds := by
  induction slots generalizing w with
  | nil => simp at run
  | cons slot slots inductionHypothesis =>
    rw [List.forM_cons] at run
    obtain first | ⟨_, woken, first, rest⟩ := bind_eq_error.mp run
    · exact wakeStreamReader_fault readable first
    · exact inductionHypothesis (readable.woken first) rest

theorem chooseId_zeroed (id : Bytes) (w : World D) : ∃ entryId t, chooseId .zeroed id w = .ok (entryId, t) := by
  unfold chooseId
  split
  · have clock : (getCurrentTimeMs : M D Int) w = .ok (w.clock 0, w.tick) := rfl
    suffices ∃ pair t, generatedPair .zeroed id (w.clock 0) w.tick = .ok (pair, t) by
      obtain ⟨pair, t, generates⟩ := this
      exact ⟨_, t, by rw [generateId, bind_of_ok clock, bind_of_ok generates]; rfl⟩
    unfold generatedPair
    split
    · obtain ⟨finalMs, t, scans, _⟩ := scanned_total ((scanInteger id).map Prod.fst) w.tick
      rw [bind_of_ok scans]
      split
      · exact ⟨(finalMs, 1), t, rfl⟩
      · exact ⟨_, t, rfl⟩
    · exact ⟨_, w.tick, rfl⟩
  · exact ⟨id, w, rfl⟩

/-- XADD on an empty stream comes to storing it once more, with the entry as its only one. -/
theorem xadd_zeroed_stores {expiresAt : Int} (enough : 2 ≤ req.argc) (isKey : req.args[0]? = some key)
    (found : lookup w.table key = .ok (some ⟨.stream .zeroed, expiresAt⟩)) (clientFd : Int) :
    ∃ entryId ms seq, ∃ scanned : World D, SameServer w scanned ∧ scanned.table = w.table ∧
      handleSet req .stream clientFd w = (do
        storeOpened key ⟨[⟨entryId, req.args.drop 2⟩], some ⟨entryId, req.args.drop 2⟩, ms, seq, 1⟩
        sendEntryId clientFd entryId
        forM clientSlots (wakeStreamReader key)) scanned := by
  obtain ⟨id, isId⟩ : ∃ id, req.args[1]? = some id :=
    ⟨_, List.getElem?_eq_getElem (by have := req.supplied; omega)⟩
  have opens : withPayload key asStream (pure ⟨[], none, 0, 0, 0⟩) pure w = .ok (Stream.zeroed, w) := by
    rw [withPayload_run, found]
    rfl
  have checks : checkStreamId id Stream.zeroed.tail w = .ok (none, w) := rfl
  obtain ⟨entryId, chosen, chooses⟩ := chooseId_zeroed id w
  obtain ⟨⟨ms, seq⟩, scanned, scans, stale⟩ := scanId_total entryId chosen
  have same : SameServer w scanned :=
    storing_sameServer.composes.trans (Preserves.run _ _ _ chooses) (Preserves.run _ _ _ scans)
  have sameTable : scanned.table = w.table := by
    have kept : chosen.table = w.table := (obeys_chooseId ambient_sameTable _ _ w).1 _ _ chooses
    rw [stale]
    exact kept
  refine ⟨entryId, ms, seq, scanned, same, sameTable, ?_⟩
  unfold handleSet
  rw [if_neg (by omega)]
  dsimp only
  unfold handleSetStream
  rw [bind_of_ok (arg_ok.mpr ⟨isKey, rfl⟩), bind_of_ok opens, bind_of_ok (arg_ok.mpr ⟨isId, rfl⟩),
    bind_of_ok checks]
  dsimp only
  rw [bind_of_ok chooses, bind_of_ok scans]
  rfl

/-- The stream of the first node of its bucket is freed when XADD stores it. -/
theorem xadd_zeroed_freed (freed : StoresFreed w.table req) (binds : BindsEmpty w.table req) (clientFd : Int) :
    handleSet req .stream clientFd w = .error .useAfterFree := by
  obtain ⟨enough, key, bucket, stream, expiresAt', rest, isKey, inBucket, isNodes, _⟩ := freed
  obtain ⟨key', expiresAt, isKey', found⟩ := binds
  obtain rfl := Option.some.inj (isKey.symm.trans isKey')
  obtain ⟨entryId, ms, seq, scanned, _, sameTable, run⟩ := xadd_zeroed_stores enough isKey found clientFd
  have first : (scanned.table bucket).nodes.head?.map Prod.fst = some key := by
    rw [sameTable, isNodes]
    rfl
  rw [run]
  exact bind_of_error (storeOpened_freed inBucket first _)

/-- Where it is not, XADD follows no pointer of an empty stream that is NULL. -/
theorem xadd_zeroed_fault (binds : BindsEmpty w.table req) (kept : ¬ StoresFreed w.table req)
    (allocated : ∀ slot ptr, w.clients slot = some ptr → w.heap ptr ≠ none)
    (run : handleSet req .stream clientFd w = .error e) : e = .outOfBounds := by
  obtain ⟨key, expiresAt, isKey, found⟩ := binds
  by_cases enough : 2 ≤ req.argc
  swap
  · unfold handleSet at run
    rw [if_pos (by omega)] at run
    cases run
  obtain ⟨bucket, inBucket, isFound⟩ : ∃ bucket, bucketOf key = some bucket ∧
      (w.table bucket).find key = some (some ⟨.stream .zeroed, expiresAt⟩) := by
    cases inBucket : bucketOf key with
    | none => simp [lookup, inBucket] at found
    | some bucket => exact ⟨bucket, rfl, (lookup_of_bucket inBucket).mp found⟩
  obtain ⟨entryId, ms, seq, scanned, same, sameTable, same_run⟩ := xadd_zeroed_stores enough isKey found clientFd
  rw [same_run] at run
  have other : (scanned.table bucket).nodes.head?.map Prod.fst ≠ some key := by
    intro first
    rw [sameTable] at first
    obtain ⟨⟨key', entry⟩, isFirst, rfl⟩ := Option.map_eq_some_iff.mp first
    obtain ⟨rest, isNodes⟩ := List.head?_eq_some_iff.mp isFirst
    have isEntry : entry = ⟨.stream .zeroed, expiresAt⟩ := by
      have first : (w.table bucket).find key' = some (some entry) := by simp [Chain.find, isNodes]
      exact Option.some.inj (Option.some.inj (first.symm.trans isFound))
    exact kept ⟨enough, key', bucket, .zeroed, expiresAt, rest, isKey, inBucket, by rw [isNodes, isEntry], rfl⟩
  obtain ⟨stored, stores, table⟩ := storeSetContainer_run inBucket
    (.stream ⟨[⟨entryId, req.args.drop 2⟩], some ⟨entryId, req.args.drop 2⟩, ms, seq, 1⟩) scanned
  rw [bind_of_ok ((storeOpened_run inBucket other _).trans stores)] at run
  obtain ⟨sent, fresh, replies⟩ := sendEntryId_ends clientFd entryId stored
  rw [bind_of_ok replies] at run
  refine forM_wakeStreamReader_fault ⟨?_, ?_⟩ run
  · refine ⟨⟨entryId, req.args.drop 2⟩, ms, seq, 0, (lookup_of_bucket inBucket).mpr ?_⟩
    show (stored.table bucket).find key = _
    rw [table, Function.update_self]
    exact Chain.find_replaceHead_self _ _ _ _
  · have sameStored : SameServer w stored := storing_sameServer.composes.trans same (Preserves.run _ _ _ stores)
    intro slot ptr inSlot
    have before := allocated slot ptr (sameStored.clients ▸ inSlot)
    rwa [← sameStored.heap] at before

end Xadd

/-! ## What follows a loaded stream -/

/-- The commands that follow. -/
inductive StreamCommand where
  | xadd
  | xrange

def StreamCommand.run (command : StreamCommand) (req : RespRequest) (ptr : ClientPtr) (clientFd : Int) : M D Unit :=
  match command with
  | .xadd => handleSet req .stream clientFd
  | .xrange => handleStreamPrint req ptr clientFd .xrange

/-- The command follows no pointer that is NULL or was freed. -/
def StreamCommand.IsSafe (command : StreamCommand) (req : RespRequest) (ptr : ClientPtr) (clientFd : Int)
    (w : World D) : Prop :=
  ∀ e, command.run req ptr clientFd w = .error e → ¬ e.IsMemory

/-- The command asks nothing of an empty stream that it does not have. -/
def StreamCommand.Spares (command : StreamCommand) (req : RespRequest) (table : Table D) : Prop :=
  match command with
  | .xadd => ¬ StoresFreed table req
  | .xrange => NamesBounds req

/-- Loading a stream from the file ends, and what it returns is well formed and safe for the command, where the
command's key is bound to it. -/
def LoadedStreamLaw (f : Bytes) (command : StreamCommand) (req : RespRequest) (ptr : ClientPtr) (clientFd : Int)
    (w : World D) : Prop :=
  ∃ result rest, rdbReadStream f = .ok (result, rest) ∧ ∀ stream ∈ result,
    stream.WellFormed (streamBlobs f).ids ∧
      ((∃ key expiresAt, req.args[0]? = some key ∧ lookup w.table key = .ok (some ⟨.stream stream, expiresAt⟩)) →
        command.IsSafe req ptr clientFd w)

section Law

variable {f : Bytes} {command : StreamCommand} {req : RespRequest} {ptr : ClientPtr} {clientFd : Int} {w : World D}

theorem isSafe_iff_spares (binds : BindsEmpty w.table req)
    (allocated : ∀ slot ptr, w.clients slot = some ptr → w.heap ptr ≠ none) :
    command.IsSafe req ptr clientFd w ↔ command.Spares req w.table := by
  cases command with
  | xadd =>
    constructor
    · intro safe freed
      exact safe .useAfterFree (xadd_zeroed_freed freed binds clientFd) (.inr (.inr (.inl rfl)))
    · intro kept e run isMemory
      obtain rfl := xadd_zeroed_fault binds kept allocated run
      exact absurd isMemory (by simp [Fault.IsMemory])
  | xrange =>
    have follows_iff := xrange_zeroed ptr clientFd binds
    constructor
    · intro safe
      by_contra unnamed
      obtain ⟨e, run, isMemory⟩ := follows_iff.mpr unnamed
      exact safe e run isMemory
    · exact fun named e run isMemory => follows_iff.mp ⟨e, run, isMemory⟩ named

theorem Blobs.ids_of_no_element {blobs : Blobs} (empty : ∀ blob ∈ blobs.blobs, ¬ HoldsElement blob) :
    blobs.ids = [] := by
  rw [Blobs.ids, List.flatMap_eq_nil_iff]
  exact fun blob member => elementIds_of_no_element (empty blob member)

/-- Loading is harmless exactly where no blob has an element, and the command does not meet the empty stream that is
loaded from a whole file with a `-`, a `+` or a bound that is not there, or with the first node of its bucket. -/
theorem loaded_stream_law_iff (allocated : ∀ slot ptr, w.clients slot = some ptr → w.heap ptr ≠ none) :
    LoadedStreamLaw f command req ptr clientFd w ↔
      (∀ blob ∈ (streamBlobs f).blobs, ¬ HoldsElement blob) ∧
        ((streamBlobs f).whole = true → BindsEmpty w.table req → command.Spares req w.table) := by
  constructor
  · rintro ⟨result, rest, read, follows⟩
    have empty : ∀ blob ∈ (streamBlobs f).blobs, ¬ HoldsElement blob := by
      intro blob member holds
      obtain ⟨e, faults⟩ := rdbReadStream_of_element ⟨blob, member, holds⟩
      simp [faults] at read
    refine ⟨empty, fun whole binds => ?_⟩
    obtain ⟨g, returns⟩ := rdbReadStream_of_no_element empty
    rw [whole, cond_true, read] at returns
    obtain ⟨rfl, rfl⟩ := Prod.mk.inj (Except.ok.inj returns)
    exact (isSafe_iff_spares binds allocated).mp ((follows _ rfl).2 binds)
  · rintro ⟨empty, spares⟩
    obtain ⟨g, returns⟩ := rdbReadStream_of_no_element empty
    refine ⟨_, g, returns, fun stream isStream => ?_⟩
    cases whole : (streamBlobs f).whole with
    | false => simp [whole] at isStream
    | true =>
      obtain rfl : Stream.zeroed = stream := by simpa [whole] using isStream
      rw [Blobs.ids_of_no_element empty]
      exact ⟨zeroed_wellFormed, fun binds => (isSafe_iff_spares binds allocated).mpr (spares whole binds)⟩

end Law

/-- A stream of one blob, which is its header and an end. -/
def blobWithoutElements : Bytes := [1, 7, 0, 0, 0, 0, 0, 0, 0xFF, 0, 0, 0]

/-- A stream of one blob with the integer 5. -/
def blobWithElement : Bytes := [1, 9, 0, 0, 0, 0, 0, 0, 5, 1, 0xFF, 0, 0, 0]

def xrangeOf (start stop : String) : RespRequest := requestOf [lit "XRANGE", lit "k", lit start, lit stop]

theorem nobody_allocated {key : Bytes} {value : Value Int} (slot : ClientSlot) (ptr : ClientPtr)
    (inSlot : (worldWith key value).clients slot = some ptr) : (worldWith key value).heap ptr ≠ none := by
  simp [worldWith, blankWorld, bootWorld] at inSlot

/-- The stream is loaded, and XRANGE with two IDs is safe. -/
theorem loaded_stream_law_iff_range :
    LoadedStreamLaw blobWithoutElements .xrange (xrangeOf "1-1" "2-0") 0 4
      (worldWith (lit "k") (.stream .zeroed) : World Int) := by
  refine (loaded_stream_law_iff nobody_allocated).mpr ⟨by decide +kernel, fun _ _ => ?_⟩
  exact ⟨lit "1-1", lit "2-0", by decide +kernel, by decide +kernel, by decide, by decide⟩

/-- One element is enough for the second `free`; and an empty stream makes `XRANGE k - +` follow NULL. -/
theorem loaded_stream_fails :
    rdbReadStream blobWithElement = .error .doubleFree ∧
      ¬ LoadedStreamLaw blobWithElement .xrange (xrangeOf "1-1" "2-0") 0 4
        (worldWith (lit "k") (.stream .zeroed) : World Int) ∧
      rdbReadStream blobWithoutElements = .ok (some .zeroed, []) ∧
      ¬ LoadedStreamLaw blobWithoutElements .xrange (xrangeOf "-" "+") 0 4
        (worldWith (lit "k") (.stream .zeroed) : World Int) := by
  have twice : rdbReadStream blobWithElement = .error .doubleFree := by rfl
  have returns : rdbReadStream blobWithoutElements = .ok (some .zeroed, []) := by rfl
  refine ⟨twice, ?_, returns, ?_⟩
  · rintro ⟨result, rest, read, _⟩
    rw [twice] at read
    simp at read
  · rintro ⟨result, rest, read, follows⟩
    rw [returns] at read
    obtain ⟨rfl, rfl⟩ := Prod.mk.inj (Except.ok.inj read)
    have isKey : (xrangeOf "-" "+").args[0]? = some (lit "k") := by decide +kernel
    have binds : BindsEmpty (worldWith (lit "k") (.stream .zeroed) : World Int).table (xrangeOf "-" "+") :=
      ⟨lit "k", 0, isKey, lookup_worldWith indexed_k _⟩
    have wild : ¬ NamesBounds (xrangeOf "-" "+") := by
      rintro ⟨start, stop, isStart, _, other, _⟩
      have minus : (xrangeOf "-" "+").args[1]? = some (lit "-") := by decide +kernel
      exact other (Option.some.inj (isStart.symm.trans minus))
    obtain ⟨e, run, isMemory⟩ := (xrange_zeroed 0 4 binds).mpr wild
    exact (follows _ rfl).2 binds e run isMemory

end RedisClone
