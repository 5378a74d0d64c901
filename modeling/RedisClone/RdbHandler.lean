import RedisClone.Lib.ByteOrder
import RedisClone.Utils

/-! # `rdb_handler.c`: loading a snapshot into the table

A `FILE` is the list of the bytes that are left of it.  `malloc`, `calloc` and `strdup` give a block.
-/

namespace RedisClone

open CString

variable {D : Type}

/-! ## Lengths and strings -/

/-- `fread(buf, 1, n, f) == n`: the bytes, and the rest of the file.  A short read takes what is left. -/
def fread (n : Nat) (f : Bytes) : Option Bytes × Bytes :=
  (if n ≤ f.length then some (f.take n) else none, f.drop n)

/-- The result of `rdb_read_length`: the length, or -1, and `*is_encoded`. -/
structure RdbLength where
  len : Int
  isEncoded : Bool
  deriving DecidableEq

def rdbReadLength : Bytes → RdbLength × Bytes
  | [] => (⟨-1, false⟩, [])
  | byte :: f =>
    let low := byte &&& 0x3F
    if byte &&& 0xC0 = 0 then (⟨low.toNat, false⟩, f)
    else if byte &&& 0xC0 = 0x40 then
      match fread 1 f with
      | (some next, f) => (⟨bigEndian (low :: next), false⟩, f)
      | (none, f) => (⟨-1, false⟩, f)
    else if byte &&& 0xC0 = 0x80 then
      match fread 4 f with
      -- the four shifted bytes are an `int`
      | (some buf, f) => (⟨toInt32 (bigEndian buf), false⟩, f)
      | (none, f) => (⟨-1, false⟩, f)
    else (⟨low.toNat, true⟩, f)

/-- The integer that an encoded string holds, as text; `len` is the number of its encoding. -/
def rdbReadInteger (len : Int) (f : Bytes) : Option Bytes × Bytes :=
  let nbytes := if len = 0 then 1 else if len = 1 then 2 else 4
  match fread nbytes f with
  -- the bytes are read over an `int32_t` 0
  | (some val, f) => (some (decimalInt (toInt32 (littleEndian val))), f)
  | (none, f) => (none, f)

/-- The C string that is read, or NULL. -/
def rdbReadString (f : Bytes) : Except Fault (Option Bytes × Bytes) :=
  match rdbReadLength f with
  | (⟨len, isEncoded⟩, f) =>
    if len < 0 then .ok (none, f)
    else if isEncoded then .ok (rdbReadInteger len f)
    -- `len + 1` is computed in `int`
    else if len + 1 = 2 ^ 31 then .error .overflow
    else
      match fread len.toNat f with
      | (some s, f) => .ok (some (untilNul s), f)
      | (none, f) => .ok (none, f)

/-! ## Streams -/

/-- `p[0] .. p[n - 1]` of a blob. -/
def blobBytes (blob : Bytes) (p n : Nat) : Except Fault Bytes :=
  if p + n ≤ blob.length then .ok ((blob.drop p).take n) else .error .overread

/-- `"%.*s"` of the bytes at `p`: `slen` bytes at most, up to a NUL. -/
def blobText (blob : Bytes) (p slen : Nat) : Except Fault Bytes :=
  let window := (blob.drop p).take slen
  if window.length < slen ∧ 0 ∉ window then .error .overread else .ok (untilNul window)

/-- The element of a listpack at `p`: the text that becomes an ID, and how far `p` moves.  `none` for an
unknown encoding. -/
def listpackElement (blob : Bytes) (p : Nat) (enc : UInt8) : Except Fault (Option (Bytes × Nat)) :=
  let integer (width : Nat) (ival : Bytes → Int) (p' : Nat) : Except Fault (Option (Bytes × Nat)) := do
    let bytes ← blobBytes blob (p + 1) width
    pure (some (decimalInt (ival bytes), p'))
  if enc &&& 0x80 = 0 then pure (some (decimalInt (enc &&& 0x7F).toNat, p + 2))
  else if enc &&& 0xE0 = 0x60 then integer 1 (fun next => bigEndian ((enc &&& 0x1F) :: next)) (p + 3)
  else if enc &&& 0xC0 = 0x80 then do
    let slen := (enc &&& 0x3F).toNat
    let text ← blobText blob (p + 1) slen
    pure (some (text, p + 1 + slen + 1))
  else if enc = 0xF1 then
    integer 2 (fun bytes => (littleEndian bytes + 2 ^ 15 : Int) % 2 ^ 16 - 2 ^ 15) (p + 4)
  else if enc = 0xF2 then integer 3 (fun bytes => littleEndian bytes) (p + 5)
  else if enc = 0xF3 then integer 4 (fun bytes => toInt32 (littleEndian bytes)) (p + 6)
  else if enc = 0xF4 then integer 8 int64Of (p + 10)
  else pure none

/-- `*p` -/
def derefBlob (blob : Bytes) (p : Nat) (freed : Bool) : Except Fault UInt8 :=
  if freed then .error .useAfterFree
  else
    match blob[p]? with
    | some enc => .ok enc
    | none => .error .overread

/-- `free(blob)`, where the flag says whether it was freed before. -/
def freeBlob (freed : Bool) : Except Fault Bool := if freed then .error .doubleFree else .ok true

def Stream.prepend (stream : Stream) (id : Bytes) : Stream :=
  { stream with entries := ⟨id, []⟩ :: stream.entries, length := stream.length + 1 }

/-- The loop over the elements of a blob.  Every step of `p` is at least 2, so `blob.length` is enough
fuel. -/
def readListpack (blob : Bytes) : (fuel p : Nat) → (freed : Bool) → Stream → Except Fault (Stream × Bool)
  | 0, _, freed, stream => .ok (stream, freed)
  | fuel + 1, p, freed, stream =>
    if p + 1 < blob.length then do
      let enc ← derefBlob blob p freed
      if enc = 0xFF then pure (stream, freed)
      else
        match ← listpackElement blob p enc with
        | none => pure (stream, freed)
        | some (id, p') => do
          let freed ← freeBlob freed
          readListpack blob fuel p' freed (stream.prepend id)
    else .ok (stream, freed)

/-- One item: a blob, its elements, and the `free` behind their loop.  `none` for `goto fail`. -/
def readBlob (f : Bytes) (stream : Stream) : Except Fault (Option Stream × Bytes) :=
  match rdbReadLength f with
  | (⟨blobLen, _⟩, f) =>
    if blobLen < 0 then .ok (none, f)
    else
      match fread blobLen.toNat f with
      | (none, f) => .ok (none, f)
      | (some blob, f) => do
        let (stream, freed) ← readListpack blob blob.length 6 false stream
        let _ ← freeBlob freed
        pure (some stream, f)

def readBlobs : (count : Nat) → Bytes → Stream → Except Fault (Option Stream × Bytes)
  | 0, f, stream => .ok (some stream, f)
  | count + 1, f, stream => do
    match ← readBlob f stream with
    | (none, f) => pure (none, f)
    | (some stream, f) => readBlobs count f stream

/-- `calloc(1, sizeof(Stream))` -/
def Stream.zeroed : Stream := ⟨[], none, 0, 0, 0⟩

def rdbReadStream (f : Bytes) : Except Fault (Option Stream × Bytes) :=
  match rdbReadLength f with
  | (⟨lpCount, _⟩, f) =>
    if lpCount < 0 then .ok (none, f)
    else do
      match ← readBlobs lpCount.toNat f .zeroed with
      | (none, f) => pure (none, f)
      | (some stream, f) =>
        pure (some stream, (rdbReadLength (rdbReadLength (rdbReadLength f).2).2).2)

/-! ## The loader -/

/-- The variables of the loop of `load_rdb_into_table`. -/
structure LoadState where
  file : Bytes
  expiryMs : Int
  loaded : Int
  deriving DecidableEq

/-- The expiry before a record: the value type, `expiry_ms` and the rest of the file, `none` where the file
ends before the type. -/
def readExpiry (op : UInt8) (f : Bytes) (expiryMs : Int) : Option (UInt8 × Int × Bytes) :=
  if op = 0xFD then
    match fread 4 f with
    | (some secs, valueType :: f) => some (valueType, littleEndian secs * 1000, f)
    | _ => none
  else if op = 0xFC then
    match fread 8 f with
    | (some millis, valueType :: f) => some (valueType, int64Of millis, f)
    | _ => none
  else some (op, expiryMs, f)

/-- `table[hash(key)]->expires_at = expiry_ms`; `missing` is for a NULL `table[hash(key)]`. -/
def expireFirst (key : Bytes) (expiryMs : Int) (missing : M D Unit) : M D Unit := do
  let bucket ← tableIndex key
  let table ← Exec.observe World.table
  if (table bucket).nodes = [] then missing
  else changeBucket bucket fun chain => chain.updateFirst fun entry => { entry with expiresAt := expiryMs }

/-- `loaded++` on an `int` -/
def countLoaded (loaded : Int) : M D Int :=
  if loaded + 1 = 2 ^ 31 then fault .overflow else pure (loaded + 1)

/-- The part of a round from the key on. -/
def loadKey (valueType : UInt8) (expiryMs : Int) (f : Bytes) (loaded : Int) : M D (Option LoadState) := do
  match ← Exec.lift (rdbReadString f) with
  | (none, _) => pure none
  | (some key, f) =>
    if valueType = 0 then do
      match ← Exec.lift (rdbReadString f) with
      | (none, f) => pure (some ⟨f, -1, loaded⟩)
      | (some val, f) => do
        storeSet key (.string val) .noTimeFlag (-1)
        Exec.onlyIf (expiryMs ≠ -1) (expireFirst key expiryMs (pure ()))
        let loaded ← countLoaded loaded
        pure (some ⟨f, -1, loaded⟩)
    else if valueType = 19 then do
      match ← Exec.lift (rdbReadStream f) with
      | (none, _) => pure none
      | (some stream, f) => do
        storeSet key (.stream stream) .noTimeFlag (-1)
        Exec.onlyIf (0 < expiryMs) (expireFirst key expiryMs (fault .nullDeref))
        let loaded ← countLoaded loaded
        pure (some ⟨f, -1, loaded⟩)
    else pure none

/-- One round of the loop; `none` where it ends. -/
def loadRound (s : LoadState) : M D (Option LoadState) :=
  match s.file with
  | [] => pure none
  | op :: f =>
    if op = 0xFF then pure none
    else if op = 0xFA then do
      let (_, f) ← Exec.lift (rdbReadString f)
      let (_, f) ← Exec.lift (rdbReadString f)
      pure (some { s with file := f })
    else if op = 0xFE then pure (some { s with file := (rdbReadLength f).2 })
    else if op = 0xFB then pure (some { s with file := (rdbReadLength (rdbReadLength f).2).2 })
    else
      match readExpiry op f s.expiryMs with
      | none => pure none
      | some (valueType, expiryMs, f) => loadKey valueType expiryMs f s.loaded

/-- Every round takes a byte of the file, so its length is enough fuel. -/
def loadRounds : (fuel : Nat) → LoadState → M D Int
  | 0, s => pure s.loaded
  | fuel + 1, s => do
    match ← loadRound s with
    | none => pure s.loaded
    | some s' => loadRounds fuel s'

/-- Behind `fseek(f, 9, SEEK_SET)`. -/
def LoadState.initial (file : Bytes) : LoadState := ⟨file.drop 9, 0, 0⟩

/-- `rdb` is what `fopen` opens, `none` where it fails. -/
def loadRdbIntoTable (rdb : Option Bytes) : M D Int :=
  match rdb with
  | none => pure (-1)
  | some file => loadRounds (file.drop 9).length (.initial file)

end RedisClone
