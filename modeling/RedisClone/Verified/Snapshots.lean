import Mathlib.Data.List.TakeWhile
import RedisClone.Verified.FiniteMap
import RedisClone.Verified.HashRange
import RedisClone.Verified.SnapshotRounds

/-! # Loading a snapshot of strings

`Snapshot` is a file of the format with string records only, sections between them, and every length in any of its
forms.  Reading what was encoded gives it back (`rdbReadLength_encode`, `rdbReadString_encode`), unless a string is so
long that the size of its block overflows; `loadRound_item` is the round of one item, and `snapshot_loads_iff` the
whole file.
-/

namespace RedisClone

open Exec CString

variable {D : Type}

/-! ## The format -/

/-- The forms of a length.  The low bits of the byte in front of a 32-bit length are not used. -/
inductive LengthForm where
  | six
  | fourteen
  | thirtyTwo (unused : Fin 64)

def LengthForm.bound : LengthForm → Nat
  | .six => 2 ^ 6
  | .fourteen => 2 ^ 14
  | .thirtyTwo _ => 2 ^ 32

def LengthForm.encode (n : Nat) : LengthForm → Bytes
  | .six => [UInt8.ofNat n]
  | .fourteen => [UInt8.ofNat (64 + n / 256), UInt8.ofNat n]
  | .thirtyTwo unused => UInt8.ofNat (128 + unused) :: beBytes 4 n

/-- A length of a section. -/
structure RdbCount where
  form : LengthForm
  value : Nat
  fits : value < form.bound

def RdbCount.encode (count : RdbCount) : Bytes := count.form.encode count.value

structure RdbString where
  form : LengthForm
  text : Bytes
  fits : text.length < form.bound
  isInt : text.length < 2 ^ 31

def RdbString.encode (s : RdbString) : Bytes := s.form.encode s.text.length ++ s.text

/-- The size of the block for the string and its NUL is no `int`. -/
def RdbString.Overlong (s : RdbString) : Prop := s.text.length + 1 = 2 ^ 31

instance (s : RdbString) : Decidable s.Overlong := inferInstanceAs (Decidable (_ = _))

/-- A string of an auxiliary field, which may be stored as an integer of 1, 2 or 4 bytes. -/
inductive AuxString where
  | text (s : RdbString)
  | integer (width : Fin 3) (bytes : Bytes) (fits : bytes.length = 2 ^ width.val)

def AuxString.encode : AuxString → Bytes
  | .text s => s.encode
  | .integer width bytes _ => UInt8.ofNat (192 + width) :: bytes

def AuxString.Overlong : AuxString → Prop
  | .text s => s.Overlong
  | .integer .. => False

inductive RdbSection where
  | aux (name value : AuxString)
  | selectDb (index : RdbCount)
  | resizeDb (size expires : RdbCount)

def RdbSection.encode : RdbSection → Bytes
  | .aux name value => 0xFA :: (name.encode ++ value.encode)
  | .selectDb index => 0xFE :: index.encode
  | .resizeDb size expires => 0xFB :: (size.encode ++ expires.encode)

def RdbSection.Overlong : RdbSection → Prop
  | .aux name value => name.Overlong ∨ value.Overlong
  | _ => False

structure StringRecord where
  deadline : Deadline
  key : RdbString
  value : RdbString
  asciiKey : ∀ c ∈ key.text, c ≠ 0 ∧ c < 128
  nulFree : ∀ c ∈ value.text, c ≠ 0
  nonNegative : ∀ ms ∈ deadline.time, 0 ≤ ms

def StringRecord.encode (record : StringRecord) : Bytes :=
  record.deadline.encode ++ RecordType.string.code :: (record.key.encode ++ record.value.encode)

/-- The entry of the record, which expires never where there is no expiry. -/
def StringRecord.entry (record : StringRecord) : Entry D :=
  ⟨.string record.value.text, record.deadline.time.getD 0⟩

inductive RdbItem where
  | side (part : RdbSection)
  | record (r : StringRecord)

def RdbItem.encode : RdbItem → Bytes
  | .side part => part.encode
  | .record r => r.encode

def RdbItem.records : RdbItem → List StringRecord
  | .side _ => []
  | .record r => [r]

def RdbItem.Overlong : RdbItem → Prop
  | .side part => part.Overlong
  | .record r => r.key.Overlong ∨ r.value.Overlong

/-- A file: 9 bytes, sections and records in any order, 0xFF, and what may follow. -/
structure Snapshot where
  header : Bytes
  nine : header.length = 9
  items : List RdbItem
  distinct : ((items.flatMap RdbItem.records).map fun record => record.key.text).Nodup
  trailer : Bytes

def Snapshot.records (snapshot : Snapshot) : List StringRecord := snapshot.items.flatMap RdbItem.records

def encodeItems (items : List RdbItem) (trailer : Bytes) : Bytes :=
  items.flatMap RdbItem.encode ++ 0xFF :: trailer

def Snapshot.encode (snapshot : Snapshot) : Bytes :=
  snapshot.header ++ encodeItems snapshot.items snapshot.trailer

/-! ## Reading what was encoded -/

theorem tag_bits : ∀ (tag : Fin 4) (low : Fin 64),
    UInt8.ofNat (64 * tag + low) &&& 0xC0 = UInt8.ofNat (64 * tag) ∧
      (UInt8.ofNat (64 * tag + low) &&& 0x3F).toNat = low := by
  decide +kernel

theorem rdbReadLength_encode (count : RdbCount) (rest : Bytes) :
    rdbReadLength (count.encode ++ rest) = (⟨toInt32 count.value, false⟩, rest) := by
  obtain ⟨form, n, fits⟩ := count
  -- the two high bits of the first byte say how many bytes follow
  cases form with
  | six =>
    have small : n < 64 := fits
    obtain ⟨tag, low⟩ := tag_bits 0 ⟨n, small⟩
    have isInt : toInt32 n = n := by
      rw [toInt32]
      omega
    simp only [Fin.val_zero, Nat.mul_zero, Nat.zero_add] at tag low
    have isTag : UInt8.ofNat n &&& 0xC0 = 0 := tag
    show rdbReadLength (UInt8.ofNat n :: rest) = (⟨toInt32 n, false⟩, rest)
    rw [rdbReadLength, if_pos isTag, low, isInt]
  | fourteen =>
    have small : n < 16384 := fits
    obtain ⟨tag, low⟩ := tag_bits 1 ⟨n / 256, by omega⟩
    have isInt : toInt32 n = n := by
      rw [toInt32]
      omega
    simp only [Fin.val_one, Nat.mul_one] at tag low
    have next : fread 1 (UInt8.ofNat n :: rest) = (some [UInt8.ofNat n], rest) := fread_append [UInt8.ofNat n] rest
    have isTag : UInt8.ofNat (64 + n / 256) &&& 0xC0 = 0x40 := tag
    have value : (bigEndian [UInt8.ofNat (64 + n / 256) &&& 0x3F, UInt8.ofNat n] : Int) = n := by
      have lowByte : (UInt8.ofNat n).toNat = n % 256 := UInt8.toNat_ofNat'
      simp only [bigEndian, List.foldl_cons, List.foldl_nil, low, lowByte]
      omega
    show rdbReadLength (UInt8.ofNat (64 + n / 256) :: UInt8.ofNat n :: rest) = (⟨toInt32 n, false⟩, rest)
    rw [rdbReadLength, if_neg (by rw [isTag]; decide), if_pos isTag, next]
    simp only [value, isInt]
  | thirtyTwo unused =>
    have small : n < 256 ^ 4 := fits
    obtain ⟨tag, _⟩ := tag_bits 2 unused
    have isTag : UInt8.ofNat (128 + unused) &&& 0xC0 = 0x80 := tag
    have read : fread 4 (beBytes 4 n ++ rest) = (some (beBytes 4 n), rest) := by
      have := fread_append (beBytes 4 n) rest
      rwa [length_beBytes] at this
    show rdbReadLength (UInt8.ofNat (128 + unused) :: (beBytes 4 n ++ rest)) = (⟨toInt32 n, false⟩, rest)
    rw [rdbReadLength, if_neg (by rw [isTag]; decide), if_neg (by rw [isTag]; decide), if_pos isTag, read]
    simp only [bigEndian_beBytes small]

theorem untilNul_of_nulFree {text : Bytes} (nulFree : ∀ c ∈ text, c ≠ 0) : untilNul text = text := by
  have passes : ∀ c ∈ text, (c != 0) = true := fun c member => by simpa using nulFree c member
  exact List.takeWhile_eq_self_iff.mpr passes

/-- A string reads back up to its first NUL, unless the size of its block overflows. -/
theorem rdbReadString_encode (s : RdbString) (rest : Bytes) :
    rdbReadString (s.encode ++ rest) =
      if s.text.length + 1 = 2 ^ 31 then .error .overflow else .ok (some (untilNul s.text), rest) := by
  obtain ⟨form, text, fits, isInt⟩ := s
  dsimp only at isInt ⊢
  have prefixed : rdbReadLength (form.encode text.length ++ (text ++ rest)) =
      (⟨toInt32 text.length, false⟩, text ++ rest) := rdbReadLength_encode ⟨form, text.length, fits⟩ _
  have len : toInt32 text.length = text.length := by
    rw [toInt32]
    omega
  rw [RdbString.encode, List.append_assoc, rdbReadString, prefixed, len]
  dsimp only
  rw [if_neg (by omega), if_neg (by simp)]
  by_cases overlong : text.length + 1 = 2 ^ 31
  · rw [if_pos overlong, if_pos (by omega)]
  · rw [if_neg overlong, if_neg (by omega), Int.toNat_natCast, fread_append]

theorem RdbString.read_faults {s : RdbString} (overlong : s.Overlong) (rest : Bytes) :
    rdbReadString (s.encode ++ rest) = .error .overflow :=
  (rdbReadString_encode s rest).trans (if_pos overlong)

/-- An integer of 1, 2 or 4 bytes reads as the number that the bytes are over the zero bytes behind them. -/
theorem rdbReadString_integer (width : Fin 3) {bytes : Bytes} (fits : bytes.length = 2 ^ width.val) (rest : Bytes) :
    rdbReadString (UInt8.ofNat (192 + width) :: (bytes ++ rest)) =
      .ok (some (decimalInt (toInt32 (littleEndian bytes))), rest) := by
  have bits : ∀ width : Fin 3, UInt8.ofNat (192 + width) &&& 0xC0 = 0xC0 ∧
      (UInt8.ofNat (192 + width) &&& 0x3F).toNat = width := by decide +kernel
  obtain ⟨tag, low⟩ := bits width
  have prefixed : rdbReadLength (UInt8.ofNat (192 + width) :: (bytes ++ rest)) =
      (⟨width.val, true⟩, bytes ++ rest) := by
    rw [rdbReadLength, if_neg (by rw [tag]; decide), if_neg (by rw [tag]; decide), if_neg (by rw [tag]; decide), low]
  have nbytes : (if (width.val : Int) = 0 then 1 else if (width.val : Int) = 1 then 2 else 4) = bytes.length := by
    have widths : ∀ width : Fin 3,
        (if (width.val : Int) = 0 then 1 else if (width.val : Int) = 1 then 2 else 4) = 2 ^ width.val := by
      decide
    rw [fits, widths]
  rw [rdbReadString, prefixed]
  dsimp only
  rw [if_neg (by omega), if_pos rfl, rdbReadInteger, nbytes, fread_append]

/-- A string that is stored as an integer always reads. -/
theorem AuxString.read {aux : AuxString} (short : ¬ aux.Overlong) (rest : Bytes) :
    ∃ text, rdbReadString (aux.encode ++ rest) = .ok (some text, rest) := by
  cases aux with
  | text s => exact ⟨untilNul s.text, (rdbReadString_encode s rest).trans (if_neg short)⟩
  | integer width bytes fits => exact ⟨_, rdbReadString_integer width fits rest⟩

theorem AuxString.read_faults {aux : AuxString} (overlong : aux.Overlong) (rest : Bytes) :
    rdbReadString (aux.encode ++ rest) = .error .overflow := by
  cases aux with
  | text s => exact s.read_faults overlong rest
  | integer width bytes fits => exact overlong.elim

/-! ## Signed integers -/

/-- The bytes of a shorter number than an `int` are not extended by its sign. -/
theorem reads_signed_iff (width : Fin 3) {v : Int} (low : -2 ^ (8 * 2 ^ width.val - 1) ≤ v)
    (high : v < 2 ^ (8 * 2 ^ width.val - 1)) (rest : Bytes) :
    rdbReadString (UInt8.ofNat (192 + width) :: (twosComplement (2 ^ width.val) v ++ rest)) =
        .ok (some (decimalInt v), rest) ↔ width = 2 ∨ 0 ≤ v := by
  have reads : rdbReadString (UInt8.ofNat (192 + width) :: (twosComplement (2 ^ width.val) v ++ rest)) =
      .ok (some (decimalInt (toInt32 (v % 256 ^ 2 ^ width.val))), rest) := by
    rw [rdbReadString_integer width (by rw [twosComplement, length_leBytes]), littleEndian_twosComplement]
  have same_iff : rdbReadString (UInt8.ofNat (192 + width) :: (twosComplement (2 ^ width.val) v ++ rest)) =
      .ok (some (decimalInt v), rest) ↔ toInt32 (v % 256 ^ 2 ^ width.val) = v := by
    rw [reads]
    constructor
    · intro same
      exact decimalInt_injective (by simpa using same)
    · intro same
      rw [same]
  rw [same_iff, toInt32]
  obtain rfl | rfl | rfl : width = 0 ∨ width = 1 ∨ width = 2 := by omega
  · simp at low high ⊢
    omega
  · simp at low high ⊢
    omega
  · simp at low high ⊢
    omega

theorem reads_signed_iff_int32 :
    rdbReadString (UInt8.ofNat (192 + 2) :: (twosComplement 4 (-2) ++ [0xFF])) = .ok (some (lit "-2"), [0xFF]) :=
  (reads_signed_iff 2 (by decide) (by decide) [0xFF]).mpr (.inl rfl)

/-- The byte of -2 reads as 254. -/
theorem negative_int8_reads_positive :
    ¬ rdbReadString (UInt8.ofNat (192 + 0) :: (twosComplement 1 (-2) ++ [0xFF])) = .ok (some (lit "-2"), [0xFF]) := by
  decide

/-! ## The round of one item -/

/-- The map after these records. -/
def bindAll (records : List StringRecord) (entries : Bytes → Option (Entry D)) : Bytes → Option (Entry D) :=
  records.foldl (fun entries record => Function.update entries record.key.text (some record.entry)) entries

section Round

variable {w : World D} {entries : Bytes → Option (Entry D)} {sticky loaded : Int} {rest : Bytes}

/-- The item neither overflows the size of a block nor the count of the loaded keys. -/
def RdbItem.Fits (item : RdbItem) (loaded : Int) : Prop :=
  ¬ item.Overlong ∧ loaded + item.records.length < 2 ^ 31

theorem loadRound_side {part : RdbSection} (short : ¬ part.Overlong) :
    loadRound ⟨part.encode ++ rest, sticky, loaded⟩ w = .ok (some ⟨rest, sticky, loaded⟩, w) := by
  cases part with
  | aux name value =>
    obtain ⟨shortName, shortValue⟩ := not_or.mp short
    obtain ⟨_, readsName⟩ := name.read shortName (value.encode ++ rest)
    obtain ⟨_, readsValue⟩ := value.read shortValue rest
    rw [RdbSection.encode, List.cons_append, List.append_assoc]
    simp only [loadRound]
    rw [if_neg (by decide), if_pos trivial, readsName, bind_of_ok (lift_ok _ w)]
    dsimp only
    rw [readsValue, bind_of_ok (lift_ok _ w)]
    rfl
  | selectDb index =>
    rw [RdbSection.encode, List.cons_append]
    simp only [loadRound]
    rw [if_neg (by decide), if_neg (by decide), if_pos trivial, rdbReadLength_encode]
    rfl
  | resizeDb size expires =>
    rw [RdbSection.encode, List.cons_append, List.append_assoc]
    simp only [loadRound]
    rw [if_neg (by decide), if_neg (by decide), if_neg (by decide), if_pos trivial, rdbReadLength_encode,
      rdbReadLength_encode]
    rfl

theorem loadRound_side_faults {part : RdbSection} (overlong : part.Overlong) :
    loadRound ⟨part.encode ++ rest, sticky, loaded⟩ w = .error .overflow := by
  cases part with
  | aux name value =>
    rw [RdbSection.encode, List.cons_append, List.append_assoc]
    simp only [loadRound]
    rw [if_neg (by decide), if_pos trivial]
    by_cases overlongName : name.Overlong
    · rw [name.read_faults overlongName]
      exact bind_of_error (lift_error _ w)
    · obtain ⟨_, readsName⟩ := name.read overlongName (value.encode ++ rest)
      rw [readsName, bind_of_ok (lift_ok _ w)]
      dsimp only
      rw [value.read_faults (overlong.resolve_left overlongName)]
      exact bind_of_error (lift_error _ w)
  | selectDb index => exact overlong.elim
  | resizeDb size expires => exact overlong.elim

/-- The key of a record has a bucket. -/
theorem StringRecord.inBucket (record : StringRecord) : ∃ bucket, bucketOf record.key.text = some bucket :=
  Option.ne_none_iff_exists'.mp (bucketOf_of_ascii fun c member => (record.asciiKey c member).2)

theorem StringRecord.readKey (record : StringRecord) (short : ¬ record.key.Overlong) (rest : Bytes) :
    rdbReadString (record.key.encode ++ rest) = .ok (some record.key.text, rest) := by
  have read := (rdbReadString_encode record.key rest).trans (if_neg short)
  rwa [untilNul_of_nulFree fun c member => (record.asciiKey c member).1] at read

theorem StringRecord.readValue (record : StringRecord) (short : ¬ record.value.Overlong) (rest : Bytes) :
    rdbReadString (record.value.encode ++ rest) = .ok (some record.value.text, rest) := by
  have read := (rdbReadString_encode record.value rest).trans (if_neg short)
  rwa [untilNul_of_nulFree record.nulFree] at read

theorem StringRecord.encode_append (record : StringRecord) (rest : Bytes) :
    record.encode ++ rest = record.deadline.encode ++ RecordType.string.code ::
      (record.key.encode ++ (record.value.encode ++ rest)) := by
  simp [StringRecord.encode]

/-- A record with a new key, which gets a node in front of its chain. -/
theorem loadRound_new_record {record : StringRecord} (rest : Bytes) (represents : Represents bucketOf w.table entries)
    (isNew : entries record.key.text = none) (reset : sticky = 0 ∨ sticky = -1)
    (short : ¬ (RdbItem.record record).Overlong) (fits : loaded + 1 ≠ 2 ^ 31) :
    ∃ w', loadRound ⟨record.encode ++ rest, sticky, loaded⟩ w = .ok (some ⟨rest, -1, loaded + 1⟩, w') ∧
      Represents bucketOf w'.table (Function.update entries record.key.text (some record.entry)) := by
  obtain ⟨shortKey, shortValue⟩ := not_or.mp short
  obtain ⟨bucket, inBucket⟩ := record.inBucket
  have found : lookup w.table record.key.text = .ok none := by
    rw [lookup_of_bucket inBucket, represents.find inBucket, isNew]
  have run : loadRound ⟨record.deadline.encode ++ RecordType.string.code :: (record.key.encode ++
      (record.value.encode ++ rest)), sticky, loaded⟩ w = _ :=
    loadRound_string (record.readKey shortKey _) (record.readValue shortValue rest) inBucket found fits
  refine ⟨_, record.encode_append rest ▸ run, ?_⟩
  -- the expiry is written into the node that was pushed
  have absent : (w.table bucket).value? record.key.text = none :=
    Chain.find_eq_ok ((lookup_of_bucket inBucket).mp found)
  have chain : loadedChain (w.table bucket) record.key.text (.string record.value.text)
      (RecordType.string.written (record.deadline.time.getD sticky)) =
        (w.table bucket).push record.key.text record.entry := by
    cases isTime : record.deadline.time with
    | none =>
      obtain rfl | rfl := reset <;>
        simp [loadedChain, boundChain, absent, RecordType.written, StringRecord.entry, isTime]
    | some ms =>
      have notReset : ms ≠ -1 := by
        have := record.nonNegative ms isTime
        omega
      simp [loadedChain, boundChain, absent, RecordType.written, StringRecord.entry, isTime, notReset]
  rw [chain]
  exact represents.push inBucket isNew record.entry

theorem loadRound_record_faults {record : StringRecord}
    (fails : (RdbItem.record record).Overlong ∨ loaded + 1 = 2 ^ 31)
    (represents : Represents bucketOf w.table entries) :
    loadRound ⟨record.encode ++ rest, sticky, loaded⟩ w = .error .overflow := by
  rw [record.encode_append, loadRound_record, loadKey]
  by_cases overlongKey : record.key.Overlong
  · rw [record.key.read_faults overlongKey]
    exact bind_of_error (lift_error _ w)
  · rw [record.readKey overlongKey, bind_of_ok (lift_ok _ w)]
    dsimp only
    rw [if_pos (show RecordType.string.code = 0 from rfl)]
    by_cases overlongValue : record.value.Overlong
    · rw [record.value.read_faults overlongValue]
      exact bind_of_error (lift_error _ w)
    · -- the strings are read and the key is bound, and then the count overflows
      have counted : loaded + 1 = 2 ^ 31 := fails.resolve_left (not_or.mpr ⟨overlongKey, overlongValue⟩)
      obtain ⟨bucket, inBucket⟩ := record.inBucket
      have found : lookup w.table record.key.text = .ok (entries record.key.text) := by
        rw [lookup_of_bucket inBucket, represents.find inBucket]
      rw [record.readValue overlongValue, bind_of_ok (lift_ok _ w)]
      refine (store_and_expire_run inBucket found).trans ?_
      rw [countLoaded, if_pos counted]
      rfl

/-- The records are new, and their keys distinct. -/
structure NewRecords (records : List StringRecord) (entries : Bytes → Option (Entry D)) : Prop where
  distinct : (records.map fun record => record.key.text).Nodup
  absent : ∀ record ∈ records, entries record.key.text = none

theorem NewRecords.behind {first later : List StringRecord} (new : NewRecords (first ++ later) entries)
    (alone : first.length ≤ 1) : NewRecords later (bindAll first entries) := by
  obtain ⟨distinct, absent⟩ := new
  rw [List.map_append, List.nodup_append] at distinct
  refine ⟨distinct.2.1, fun record member => ?_⟩
  have absentLater := absent record (List.mem_append_right _ member)
  cases first with
  | nil => exact absentLater
  | cons bound others =>
    obtain rfl : others = [] := List.length_eq_zero_iff.mp (by simpa using alone)
    have isOther : record.key.text ≠ bound.key.text := fun same =>
      distinct.2.2 bound.key.text (by simp) record.key.text (List.mem_map.mpr ⟨record, member, rfl⟩) same.symm
    exact (Function.update_of_ne isOther _ _).trans absentLater

/-- One item that fits is one round. -/
theorem loadRound_item {item : RdbItem} (rest : Bytes) (represents : Represents bucketOf w.table entries)
    (new : NewRecords item.records entries) (reset : sticky = 0 ∨ sticky = -1) (fits : item.Fits loaded) :
    ∃ w' sticky', loadRound ⟨item.encode ++ rest, sticky, loaded⟩ w =
        .ok (some ⟨rest, sticky', loaded + item.records.length⟩, w') ∧ (sticky' = 0 ∨ sticky' = -1) ∧
      Represents bucketOf w'.table (bindAll item.records entries) := by
  obtain ⟨short, counts⟩ := fits
  cases item with
  | side part =>
    have run : loadRound ⟨part.encode ++ rest, sticky, loaded⟩ w = .ok (some ⟨rest, sticky, loaded⟩, w) :=
      loadRound_side short
    exact ⟨w, sticky, by simpa [RdbItem.records, RdbItem.encode] using run, reset, represents⟩
  | record r =>
    have fits : loaded + 1 ≠ 2 ^ 31 := by
      simp only [RdbItem.records, List.length_singleton] at counts
      omega
    obtain ⟨w', run, after⟩ :=
      loadRound_new_record rest represents (new.absent r List.mem_cons_self) reset short fits
    exact ⟨w', -1, by simpa [RdbItem.records, RdbItem.encode] using run, .inr rfl, after⟩

theorem loadRound_item_faults {item : RdbItem} (represents : Represents bucketOf w.table entries)
    (isInt : loaded < 2 ^ 31) (fails : ¬ item.Fits loaded) :
    loadRound ⟨item.encode ++ rest, sticky, loaded⟩ w = .error .overflow := by
  cases item with
  | side part =>
    refine loadRound_side_faults ?_
    by_contra short
    exact fails ⟨short, by simpa [RdbItem.records] using isInt⟩
  | record r =>
    refine loadRound_record_faults ?_ represents
    by_cases overlong : (RdbItem.record r).Overlong
    · exact .inl overlong
    · have : ¬ loaded + 1 < 2 ^ 31 := fun counts => fails ⟨overlong, by simpa [RdbItem.records] using counts⟩
      exact .inr (by omega)

end Round

/-! ## All rounds -/

section Rounds

variable {w : World D} {entries : Bytes → Option (Entry D)} {sticky loaded : Int} {trailer : Bytes}

/-- Every item fits, with the records before it. -/
def ItemsFit (items : List RdbItem) (loaded : Int) : Prop :=
  (∀ item ∈ items, ¬ item.Overlong) ∧ loaded + (items.flatMap RdbItem.records).length < 2 ^ 31

theorem itemsFit_cons {item : RdbItem} {items : List RdbItem} :
    ItemsFit (item :: items) loaded ↔ item.Fits loaded ∧ ItemsFit items (loaded + item.records.length) := by
  have total : ((item :: items).flatMap RdbItem.records).length =
      item.records.length + (items.flatMap RdbItem.records).length := by
    rw [List.flatMap_cons, List.length_append]
  unfold ItemsFit RdbItem.Fits
  rw [List.forall_mem_cons, total]
  constructor
  · rintro ⟨⟨short, others⟩, counts⟩
    exact ⟨⟨short, by omega⟩, others, by omega⟩
  · rintro ⟨⟨short, _⟩, others, counts⟩
    exact ⟨⟨short, others⟩, by omega⟩

theorem loadRounds_end {fuel : Nat} :
    loadRounds fuel ⟨0xFF :: trailer, sticky, loaded⟩ w = .ok (loaded, w) := by
  cases fuel with
  | zero => rfl
  | succ fuel =>
    rw [loadRounds, bind_of_ok (show loadRound ⟨0xFF :: trailer, sticky, loaded⟩ w = .ok (none, w) from rfl)]
    rfl

theorem encodeItems_cons (item : RdbItem) (items : List RdbItem) (trailer : Bytes) :
    encodeItems (item :: items) trailer = item.encode ++ encodeItems items trailer := by
  simp [encodeItems]

theorem RdbItem.records_alone (item : RdbItem) : item.records.length ≤ 1 := by
  cases item with
  | side part => exact Nat.zero_le 1
  | record r => exact le_refl 1

/-- The records of the first item are bound, and then the others. -/
theorem bindAll_cons (item : RdbItem) (items : List RdbItem) (entries : Bytes → Option (Entry D)) :
    bindAll ((item :: items).flatMap RdbItem.records) entries =
      bindAll (items.flatMap RdbItem.records) (bindAll item.records entries) := by
  rw [List.flatMap_cons, bindAll, List.foldl_append]
  rfl

/-- The rounds over items that fit: by induction on the items, with the map of the records before. -/
theorem loadRounds_items {items : List RdbItem} (trailer : Bytes) {fuel : Nat} (enough : items.length ≤ fuel)
    (represents : Represents bucketOf w.table entries) (new : NewRecords (items.flatMap RdbItem.records) entries)
    (reset : sticky = 0 ∨ sticky = -1) (fit : ItemsFit items loaded) :
    ∃ w', loadRounds fuel ⟨encodeItems items trailer, sticky, loaded⟩ w =
        .ok (loaded + (items.flatMap RdbItem.records).length, w') ∧
      Represents bucketOf w'.table (bindAll (items.flatMap RdbItem.records) entries) := by
  induction items generalizing w entries sticky loaded fuel with
  | nil => exact ⟨w, by simpa [encodeItems] using loadRounds_end, represents⟩
  | cons item items inductionHypothesis =>
    obtain ⟨fits, others⟩ := itemsFit_cons.mp fit
    rw [List.flatMap_cons] at new
    obtain ⟨w₁, sticky₁, round, reset₁, represents₁⟩ := loadRound_item (encodeItems items trailer)
      represents ⟨(List.nodup_append.mp (List.map_append ▸ new.distinct)).1,
        fun record member => new.absent record (List.mem_append_left _ member)⟩ reset fits
    cases fuel with
    | zero => simp at enough
    | succ fuel =>
      obtain ⟨w', rounds, after⟩ := inductionHypothesis (Nat.le_of_succ_le_succ enough) represents₁
        (new.behind item.records_alone) reset₁ others
      refine ⟨w', ?_, by rw [bindAll_cons]; exact after⟩
      rw [encodeItems_cons, loadRounds, bind_of_ok round]
      refine rounds.trans ?_
      rw [List.flatMap_cons, List.length_append, Int.natCast_add, Int.add_assoc]

/-- Where some item does not fit, the rounds end there. -/
theorem loadRounds_items_faults {items : List RdbItem} (trailer : Bytes) {fuel : Nat} (enough : items.length ≤ fuel)
    (represents : Represents bucketOf w.table entries) (new : NewRecords (items.flatMap RdbItem.records) entries)
    (reset : sticky = 0 ∨ sticky = -1) (isInt : loaded < 2 ^ 31) (fails : ¬ ItemsFit items loaded) :
    loadRounds fuel ⟨encodeItems items trailer, sticky, loaded⟩ w = .error .overflow := by
  induction items generalizing w entries sticky loaded fuel with
  | nil => exact absurd ⟨by simp, by simpa using isInt⟩ fails
  | cons item items inductionHypothesis =>
    cases fuel with
    | zero => simp at enough
    | succ fuel =>
      rw [encodeItems_cons, loadRounds]
      by_cases fits : item.Fits loaded
      · rw [List.flatMap_cons] at new
        obtain ⟨w₁, sticky₁, round, reset₁, represents₁⟩ := loadRound_item (encodeItems items trailer)
          represents ⟨(List.nodup_append.mp (List.map_append ▸ new.distinct)).1,
            fun record member => new.absent record (List.mem_append_left _ member)⟩ reset fits
        rw [bind_of_ok round]
        exact inductionHypothesis (Nat.le_of_succ_le_succ enough) represents₁ (new.behind item.records_alone) reset₁
          fits.2 fun others => fails (itemsFit_cons.mpr ⟨fits, others⟩)
      · exact bind_of_error (loadRound_item_faults represents isInt fits)

end Rounds

/-! ## The whole file -/

/-- The loader counts the records, and then every key has its value and its expiry. -/
def Snapshot.LoadsExactly (snapshot : Snapshot) (w : World D) : Prop :=
  ∃ w', loadRdbIntoTable (some snapshot.encode) w = .ok ((snapshot.records.length : Int), w') ∧
    ∀ record ∈ snapshot.records, storeGetEntry record.key.text w' = .ok (some record.entry, w')

theorem bindAll_of_not_mem {records : List StringRecord} {entries : Bytes → Option (Entry D)} {key : Bytes}
    (absent : key ∉ records.map fun record => record.key.text) : bindAll records entries key = entries key := by
  induction records generalizing entries with
  | nil => rfl
  | cons first later inductionHypothesis =>
    obtain ⟨isOther, others⟩ := not_or.mp (mt List.mem_cons.mpr absent)
    exact (inductionHypothesis others).trans (Function.update_of_ne isOther _ _)

theorem bindAll_of_distinct {records : List StringRecord} {entries : Bytes → Option (Entry D)}
    (distinct : (records.map fun record => record.key.text).Nodup) {record : StringRecord} (member : record ∈ records) :
    bindAll records entries record.key.text = some record.entry := by
  induction records generalizing entries with
  | nil => simp at member
  | cons first later inductionHypothesis =>
    obtain ⟨notLater, distinctLater⟩ := List.nodup_cons.mp distinct
    obtain rfl | inside := List.mem_cons.mp member
    · exact (bindAll_of_not_mem notLater).trans (Function.update_self _ _ _)
    · exact inductionHypothesis distinctLater inside

/-- The rounds of the loader are those over the items. -/
theorem loadRdbIntoTable_encode (snapshot : Snapshot) (w : World D) :
    ∃ fuel, snapshot.items.length ≤ fuel ∧ loadRdbIntoTable (some snapshot.encode) w =
      loadRounds fuel ⟨encodeItems snapshot.items snapshot.trailer, 0, 0⟩ w := by
  have behind : snapshot.encode.drop 9 = encodeItems snapshot.items snapshot.trailer := by
    rw [Snapshot.encode, ← snapshot.nine, List.drop_left]
  refine ⟨_, ?_, by rw [loadRdbIntoTable, LoadState.initial, behind]⟩
  -- every item has a byte at least
  have bytes (item : RdbItem) : 1 ≤ item.encode.length := by
    cases item with
    | side part => cases part <;> simp [RdbItem.encode, RdbSection.encode]
    | record r =>
      simp only [RdbItem.encode, StringRecord.encode, List.length_append, List.length_cons]
      omega
  have all (items : List RdbItem) : items.length ≤ (items.flatMap RdbItem.encode).length := by
    induction items with
    | nil => simp
    | cons item items inductionHypothesis =>
      have := bytes item
      rw [List.flatMap_cons, List.length_append, List.length_cons]
      omega
  rw [encodeItems, List.length_append]
  exact (all snapshot.items).trans (Nat.le_add_right _ _)

section Whole

variable {snapshot : Snapshot} {w : World D}

theorem Snapshot.loadsExactly (empty : w.table = fun _ => Chain.empty) (fit : ItemsFit snapshot.items 0) :
    snapshot.LoadsExactly w := by
  obtain ⟨fuel, enough, same⟩ := loadRdbIntoTable_encode snapshot w
  have atStart : Represents bucketOf w.table fun _ => none := by
    rw [empty]
    exact .empty
  obtain ⟨w', run, represents⟩ := loadRounds_items snapshot.trailer enough atStart
    ⟨snapshot.distinct, fun _ _ => rfl⟩ (.inl rfl) fit
  refine ⟨w', by rw [same, run, Int.zero_add]; rfl, fun record member => ?_⟩
  obtain ⟨bucket, inBucket⟩ := record.inBucket
  rw [storeGetEntry_run, (lookup_of_bucket inBucket).mpr (represents.find inBucket),
    bindAll_of_distinct snapshot.distinct member]

theorem Snapshot.not_loadsExactly (empty : w.table = fun _ => Chain.empty) (fails : ¬ ItemsFit snapshot.items 0) :
    ¬ snapshot.LoadsExactly w := by
  obtain ⟨fuel, enough, same⟩ := loadRdbIntoTable_encode snapshot w
  have atStart : Represents bucketOf w.table fun _ => none := by
    rw [empty]
    exact .empty
  have faults := loadRounds_items_faults snapshot.trailer enough atStart
    ⟨snapshot.distinct, fun _ _ => rfl⟩ (.inl rfl) (by decide) fails
  rintro ⟨w', run, _⟩
  rw [same, faults] at run
  simp at run

/-- A snapshot of strings is loaded exactly where no string has 2³¹ - 1 bytes and the records can be counted. -/
theorem snapshot_loads_iff (snapshot : Snapshot) (empty : w.table = fun _ => Chain.empty) :
    snapshot.LoadsExactly w ↔ (∀ item ∈ snapshot.items, ¬ item.Overlong) ∧ snapshot.records.length < 2 ^ 31 := by
  have fit_iff : ItemsFit snapshot.items 0 ↔
      (∀ item ∈ snapshot.items, ¬ item.Overlong) ∧ snapshot.records.length < 2 ^ 31 := by
    rw [ItemsFit, Snapshot.records]
    exact and_congr_right fun _ => by omega
  rw [← fit_iff]
  constructor
  · intro loads
    by_contra fails
    exact Snapshot.not_loadsExactly empty fails loads
  · exact Snapshot.loadsExactly empty

end Whole

theorem length_header : (lit "REDIS0011").length = 9 := rfl

theorem nonNegative_none : ∀ ms ∈ Deadline.none.time, 0 ≤ ms := by simp [Deadline.time]

/-- The string `x` for the key `a`, with an expiry of 5 seconds. -/
def expiringA : StringRecord where
  deadline := .seconds [5, 0, 0, 0] rfl
  key := ⟨.six, lit "a", by decide, by decide⟩
  value := ⟨.fourteen, lit "x", by decide, by decide⟩
  asciiKey := by decide +kernel
  nulFree := by decide +kernel
  nonNegative := by decide

def twoItems : Snapshot where
  header := lit "REDIS0011"
  nine := length_header
  items := [.side (.selectDb ⟨.six, 0, by decide⟩), .record expiringA]
  distinct := by decide
  trailer := []

example : twoItems.encode =
    lit "REDIS0011" ++ [0xFE, 0, 0xFD, 5, 0, 0, 0, 0, 1, 97, 64, 1, 120, 0xFF] := by decide

theorem snapshot_loads_iff_two : twoItems.LoadsExactly (blankWorld Int) := by
  refine (snapshot_loads_iff twoItems rfl).mpr ⟨fun item member => ?_, by decide⟩
  obtain rfl | rfl : item = .side (.selectDb ⟨.six, 0, by decide⟩) ∨ item = .record expiringA := by
    simpa [twoItems] using member
  · exact fun overlong => overlong
  · rintro (overlong | overlong)
    · exact absurd overlong (by decide)
    · exact absurd overlong (by decide)

/-- One record with a key of 2³¹ - 1 characters. -/
def longKeyRecord (key : Bytes) (isLong : key.length = 2 ^ 31 - 1) (ascii : ∀ c ∈ key, c ≠ 0 ∧ c < 128) :
    StringRecord where
  deadline := .none
  key := ⟨.thirtyTwo 0, key, by rw [isLong]; decide, by rw [isLong]; decide⟩
  value := ⟨.six, lit "x", by decide, by decide⟩
  asciiKey := ascii
  nulFree := by decide +kernel
  nonNegative := nonNegative_none

def longKeySnapshot (key : Bytes) (isLong : key.length = 2 ^ 31 - 1) (ascii : ∀ c ∈ key, c ≠ 0 ∧ c < 128) :
    Snapshot where
  header := lit "REDIS0011"
  nine := length_header
  items := [.record (longKeyRecord key isLong ascii)]
  distinct := List.nodup_singleton _
  trailer := []

theorem longKeySnapshot_faults {key : Bytes} (isLong : key.length = 2 ^ 31 - 1)
    (ascii : ∀ c ∈ key, c ≠ 0 ∧ c < 128) :
    ¬ (longKeySnapshot key isLong ascii).LoadsExactly (blankWorld Int) := by
  refine Snapshot.not_loadsExactly rfl fun fit => fit.1 _ List.mem_cons_self (.inl ?_)
  show key.length + 1 = 2 ^ 31
  omega

/-- The characters `a`. -/
theorem ascii_of_mem_replicate {n : Nat} (c : UInt8) (member : c ∈ List.replicate n 97) : c ≠ 0 ∧ c < 128 := by
  obtain rfl : c = 97 := List.eq_of_mem_replicate member
  decide

/-- The size of the block for the key overflows, and the record is not loaded. -/
theorem huge_key_is_not_loaded :
    ¬ (longKeySnapshot (List.replicate (2 ^ 31 - 1) 97) List.length_replicate ascii_of_mem_replicate).LoadsExactly
      (blankWorld Int) :=
  longKeySnapshot_faults List.length_replicate ascii_of_mem_replicate

end RedisClone
