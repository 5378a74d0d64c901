import RedisClone.Verified.Placement
import RedisClone.Verified.Scores
import RedisClone.Verified.Snapshots
import RedisClone.Verified.StreamRanges

/-! # What KEYS lists

KEYS walks over every chain, keeps the first 256 keys that it passes, and prints them into 8192 bytes.  In a state that
a run reaches it passes the keys that are bound, and `keys_enumerate_iff` says when its reply lists them, each once.
-/

namespace RedisClone

open Exec CString

variable {D : Type}

/-! ## The reply -/

section Reply

variable {w : World D} {fd : Int} {size : Nat} {texts keys : List Bytes} {text : Bytes}

/-- Texts are sent as they are where there is room for a NUL behind them: without that room a NUL is sent in place of the
last byte. -/
theorem appendAll_sends_iff (positive : 0 < size) (noNul : text.getLast? ≠ some 0) :
    (Buffer.appendAll size texts {} >>= fun printed => printed.sendPrefix size fd) w = .ok ((), w.emit fd text) ↔
      text = texts.flatten ∧ texts.flatten.length < size := by
  have sends (room : texts.flatten.length < size) :
      (Buffer.appendAll size texts {} >>= fun printed => printed.sendPrefix size fd) w =
        .ok ((), w.emit fd texts.flatten) := by
    have prints : Buffer.appendAll size texts {} w = .ok (⟨texts.flatten, texts.flatten.length⟩, w) :=
      appendAll_fits texts (show ([] ++ texts.flatten).length < size from room) w
    rw [bind_of_ok prints, Buffer.sendPrefix, if_neg (not_lt.mpr room.le), List.take_length, Nat.sub_self, List.replicate_zero,
      List.append_nil]
    rfl
  constructor
  · intro run
    have room : texts.flatten.length < size := by
      by_contra full
      obtain ⟨printed, u, prints, ending⟩ := bind_eq_ok.mp run
      obtain rfl := appendAll_run prints
      have written := appendAll_written prints
      have offset : printed.offset = texts.flatten.length := by rw [written]
      have inside : printed.content.length < size := by
        rw [written, List.length_take]
        omega
      unfold Buffer.sendPrefix at ending
      split at ending
      · simp [fault] at ending
      · have sent := emit_injective u fd (Prod.mk.inj (Except.ok.inj ending)).2
        rw [show printed.offset - printed.content.length = printed.offset - printed.content.length - 1 + 1 by omega,
          List.replicate_succ'] at sent
        rw [← sent, ← List.append_assoc] at noNul
        exact noNul List.getLast?_concat
    have same := run.symm.trans (sends room)
    exact ⟨emit_injective w fd (Prod.mk.inj (Except.ok.inj same)).2, room⟩
  · rintro ⟨rfl, room⟩
    exact sends room

theorem arrayText_noNul (keys : List Bytes) : (arrayText keys).getLast? ≠ some 0 := by
  obtain ⟨front, isText⟩ : crlf <:+ arrayText keys := encode_ends keys
  have last : crlf = [13] ++ [10] := rfl
  rw [← isText, last, ← List.append_assoc, List.getLast?_concat]
  decide

theorem handleKey_lists_iff : handleKey fd w = .ok ((), w.emit fd (arrayText keys)) ↔
    (∀ bucket, (w.table bucket).wild = false) ∧ keys = (tableKeys w.table).take 256 ∧
      (arrayText keys).length < 8192 := by
  have sends (kept : List Bytes) : (Buffer.appendAll 8192 (arrayHeader kept.length :: kept.map bulk) {} >>=
      fun resp => resp.sendPrefix 8192 fd) w = .ok ((), w.emit fd (arrayText keys)) ↔
        keys = kept ∧ (arrayText kept).length < 8192 :=
    (appendAll_sends_iff (by decide) (arrayText_noNul keys)).trans
      (and_congr_left' (arrayText_injective.eq_iff (b := kept)))
  unfold handleKey
  constructor
  · intro run
    obtain ⟨all, _, reads, rest⟩ := bind_eq_ok.mp run
    obtain ⟨ends, isAll, rfl⟩ := keysOf_all.mp reads
    obtain ⟨isKept, room⟩ := (sends _).mp rest
    rw [isAll] at isKept room
    exact ⟨ends, isKept, isKept ▸ room⟩
  · rintro ⟨ends, isKept, room⟩
    rw [bind_of_ok (keysOf_all.mpr ⟨ends, rfl, rfl⟩)]
    exact (sends _).mpr ⟨isKept, isKept ▸ room⟩

end Reply

/-! ## The keys that are bound -/

section Enumeration

variable {w : World D} {fd : Int} {table : Table D}

/-- KEYS sends an array of the keys that are bound, each of them once. -/
def Enumerates (w : World D) (fd : Int) : Prop :=
  ∃ keys : List Bytes, keys.Nodup ∧ (∀ key, key ∈ keys ↔ (binding w.table key).isSome) ∧
    handleKey fd w = .ok ((), w.emit fd (arrayText keys))

/-- Every chain ends, no two of the first 256 nodes have one key, no later node has another key than they, and the array
has room for their keys and a NUL. -/
structure Listable (table : Table D) : Prop where
  ends : ∀ bucket, (table bucket).wild = false
  once : ((tableKeys table).take 256).Nodup
  all : ∀ key ∈ tableKeys table, key ∈ (tableKeys table).take 256
  room : (arrayText ((tableKeys table).take 256)).length < 8192

theorem enumerates_iff (placed : Placed w.table) : Enumerates w fd ↔ Listable w.table := by
  constructor
  · rintro ⟨keys, once, all, run⟩
    obtain ⟨ends, isKept, room⟩ := handleKey_lists_iff.mp run
    rw [isKept] at once all room
    exact ⟨ends, once, fun key passed => (all key).mpr (placed.mem_tableKeys_iff.mp passed), room⟩
  · intro listable
    refine ⟨_, listable.once, fun key => ?_, handleKey_lists_iff.mpr ⟨listable.ends, rfl, listable.room⟩⟩
    rw [← placed.mem_tableKeys_iff]
    exact ⟨List.mem_of_mem_take, listable.all key⟩

/-- Where no chain has two nodes of one key, the condition is on the ends, the number of the keys and their lengths. -/
theorem listable_iff (placed : Placed table) (distinct : ∀ bucket, (table bucket).keys.Nodup) :
    Listable table ↔ (∀ bucket, (table bucket).wild = false) ∧ (tableKeys table).length ≤ 256 ∧
      (arrayText (tableKeys table)).length < 8192 := by
  have once : (tableKeys table).Nodup := placed.nodup_tableKeys.mpr distinct
  constructor
  · intro listable
    have few : (tableKeys table).length ≤ 256 :=
      (once.subperm listable.all).length_le.trans (List.length_take_le _ _)
    exact ⟨listable.ends, few, List.take_of_length_le few ▸ listable.room⟩
  · rintro ⟨ends, few, room⟩
    have whole : (tableKeys table).take 256 = tableKeys table := List.take_of_length_le few
    constructor
    · exact ends
    · rwa [whole]
    · rw [whole]
      exact fun key passed => passed
    · rwa [whole]

variable [Externals D]

theorem keys_enumerate_iff {w₀ : World D} {s : Server D} (boots : Boots w₀) (reached : Runs ⟨w₀, none⟩ s) (fd : Int) :
    Enumerates s.world fd ↔ Listable s.world.table :=
  enumerates_iff (placed_of_run boots reached)

end Enumeration

/-- A start without an append-only file. -/
theorem loads_alone {rdb : Option Bytes} {keysLoaded : Int} {loaded : World Int}
    (loads : loadRdbIntoTable rdb (blankWorld Int) = .ok (keysLoaded, loaded)) :
    Loads { loaded with heap := Function.update loaded.heap 0 none } := by
  have configures : rdbConfigHandler .creatable 0 (blankWorld Int) = .ok ((), blankWorld Int) := rfl
  exact .intro configures loads

theorem idleServer_boots : Boots idleServer.world := by
  have loads : loadRdbIntoTable none (blankWorld Int) = .ok (-1, blankWorld Int) := rfl
  have heap : Function.update (blankWorld Int).heap 0 none = (blankWorld Int).heap := Function.update_eq_self 0 _
  refine .alone (loads_alone loads) ?_
  rw [heap]
  rfl

/-- KEYS behind two calls of SET. -/
theorem keys_enumerate_iff_two : ∃ s : Server Int, tableKeys s.world.table = [lit "a", lit "b"] ∧
    Enumerates s.world 5 := by
  obtain ⟨s, run, checked⟩ := exists_run_of_play
    (show (play (fun _ _ => True) idleServer [.connect 5 0, arrival firstSlot [lit "SET", lit "b", lit "y"],
      arrival firstSlot [lit "SET", lit "a", lit "x"]]).any
      (fun s => decide (tableKeys s.world.table = [lit "a", lit "b"]) &&
        decide (∀ bucket, (s.world.table bucket).wild = false)) = true by
      decide +kernel)
  simp only [Bool.and_eq_true, decide_eq_true_eq] at checked
  obtain ⟨keys, ends⟩ := checked
  refine ⟨s, keys, (keys_enumerate_iff idleServer_boots run 5).mpr ⟨ends, ?_, ?_, ?_⟩⟩
  · rw [keys]
    decide
  · rw [keys]
    decide
  · rw [keys]
    decide

/-! ## A snapshot of 257 keys -/

def numberText (n : Fin 257) : RdbString :=
  ⟨.six, decimal n, (length_decimal_le (by omega)).trans_lt (by decide),
    (length_decimal_le (by omega)).trans_lt (by decide)⟩

theorem numberText_ascii (n : Fin 257) : ∀ c ∈ (numberText n).text, c ≠ 0 ∧ c < 128 := by
  intro c member
  have digit := isdigit_of_mem_decimal member
  simp only [isdigit, Bool.and_eq_true, decide_eq_true_eq] at digit
  exact ⟨fun isNul => absurd (isNul ▸ digit.1) (by decide), UInt8.lt_of_le_of_lt digit.2 (by decide)⟩

/-- A number is bound to itself. -/
def numberedRecord (n : Fin 257) : StringRecord where
  deadline := .none
  key := numberText n
  value := numberText n
  asciiKey := numberText_ascii n
  nulFree c member := (numberText_ascii n c member).1
  nonNegative := nonNegative_none

theorem numberedRecord_key_injective : Function.Injective fun n => (numberedRecord n).key.text :=
  fun _ _ same => Fin.ext (decimal_injective same)

def numberedItems : List RdbItem := (List.finRange 257).map fun n => .record (numberedRecord n)

theorem records_numberedItems : numberedItems.flatMap RdbItem.records = (List.finRange 257).map numberedRecord := by
  rw [numberedItems, List.flatMap_map]
  exact List.flatMap_pure_eq_map numberedRecord _

def manyKeys : Snapshot where
  header := lit "REDIS0011"
  nine := length_header
  items := numberedItems
  distinct := by
    rw [records_numberedItems, List.map_map]
    exact (List.nodup_finRange 257).map numberedRecord_key_injective
  trailer := []

theorem manyKeys_boots : ∃ w₀ : World Int, Boots w₀ ∧
    ∀ n : Fin 257, (binding w₀.table (numberedRecord n).key.text).isSome := by
  have fit : ItemsFit manyKeys.items 0 := by
    refine ⟨fun item member => ?_, ?_⟩
    · obtain ⟨n, _, rfl⟩ := List.mem_map.mp member
      have short : ¬ (numberText n).Overlong := by
        have digits := length_decimal_le (show n.val < 10 ^ 9 by omega)
        intro overlong
        have length : (decimal n.val).length + 1 = 2 ^ 31 := overlong
        omega
      exact fun overlong => overlong.elim short short
    · show (0 : Int) + (numberedItems.flatMap RdbItem.records).length < 2 ^ 31
      rw [records_numberedItems, List.length_map, List.length_finRange]
      decide
  obtain ⟨loaded, loads, entries⟩ : manyKeys.LoadsExactly (blankWorld Int) := Snapshot.loadsExactly rfl fit
  refine ⟨_, .alone (loads_alone loads) rfl, fun n => ?_⟩
  have isRecord : numberedRecord n ∈ manyKeys.records := by
    rw [Snapshot.records, manyKeys, records_numberedItems]
    exact List.mem_map_of_mem (List.mem_finRange n)
  have bound : binding loaded.table (numberedRecord n).key.text = some (numberedRecord n).entry :=
    (storeGetEntry_ok (entries _ isRecord)).1
  exact Option.isSome_iff_exists.mpr ⟨_, bound⟩

/-- KEYS leaves out one of 257 keys. -/
theorem keys_beyond_256_are_left_out : ∃ (w₀ : World Int) (s : Server Int), Boots w₀ ∧ Runs ⟨w₀, none⟩ s ∧
    (∀ n : Fin 257, (binding s.world.table (numberedRecord n).key.text).isSome) ∧ ¬ Enumerates s.world 5 := by
  obtain ⟨w₀, boots, bound⟩ := manyKeys_boots
  refine ⟨w₀, _, boots, .refl _, bound, ?_⟩
  rintro ⟨keys, _, all, run⟩
  obtain ⟨_, isKept, _⟩ := handleKey_lists_iff.mp run
  have few : keys.length ≤ 256 := by
    rw [isKept]
    exact List.length_take_le _ _
  have many : ((List.finRange 257).map fun n => (numberedRecord n).key.text).length ≤ keys.length := by
    refine (((List.nodup_finRange 257).map numberedRecord_key_injective).subperm fun key member => ?_).length_le
    obtain ⟨n, _, rfl⟩ := List.mem_map.mp member
    exact (all _).mpr (bound n)
  rw [List.length_map, List.length_finRange] at many
  omega

end RedisClone
