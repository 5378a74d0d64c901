import RedisClone.Verified.ListReplies

/-! # What LRANGE, ZRANGE and GEOSEARCH send

The three commands print their elements one after another into an array of fixed size, and stop at the first one without
room.  LRANGE then sends everything that is in the array, ZRANGE what was printed whole, and GEOSEARCH counts what was
printed whole and sends everything.  Here is each of the three replies as a function of the stored value and the
arguments; that the reply is what the command is for holds where it fits.
-/

namespace RedisClone

open Exec CString

variable {D : Type} {fd : Int} {w t : World D} {req : RespRequest}

/-! ## Elements without room -/

/-- The texts that are printed whole into an array, behind `offset` bytes. -/
def fitting (size : Nat) : (offset : Nat) → List Bytes → List Bytes
  | _, [] => []
  | offset, text :: texts =>
    if offset + text.length < size then text :: fitting size (offset + text.length) texts else []

section Fitting

variable {size offset : Nat} {texts : List Bytes}

theorem fitting_initial (size offset : Nat) (texts : List Bytes) : fitting size offset texts <+: texts := by
  induction texts generalizing offset with
  | nil => simp [fitting]
  | cons text texts inductionHypothesis =>
    rw [fitting]
    split
    · exact List.cons_prefix_cons.mpr ⟨rfl, inductionHypothesis _⟩
    · exact List.nil_prefix

/-- What is printed whole stays below the size of the array. -/
theorem fitting_length (texts : List Bytes) (inside : offset < size) : offset + (fitting size offset texts).flatten.length < size := by
  induction texts generalizing offset with
  | nil => simpa [fitting] using inside
  | cons text texts inductionHypothesis =>
    rw [fitting]
    split
    · rename_i fits
      have := inductionHypothesis fits
      rw [List.flatten_cons, List.length_append]
      omega
    · simpa using inside

theorem fitting_eq_self (inside : offset < size) :
    fitting size offset texts = texts ↔ offset + texts.flatten.length < size := by
  constructor
  · intro all
    have short := fitting_length texts inside
    rwa [all] at short
  · intro short
    induction texts generalizing offset with
    | nil => rfl
    | cons text texts inductionHypothesis =>
      rw [List.flatten_cons, List.length_append] at short
      have fits : offset + text.length < size := by omega
      rw [fitting, if_pos fits, inductionHypothesis fits (by omega)]

end Fitting

/-- What is printed whole of some strings are strings. -/
theorem fitting_bulks (size offset : Nat) (elements : List Bytes) :
    ∃ whole : List Bytes, fitting size offset (elements.map bulk) = whole.map bulk := by
  have isTake := List.prefix_iff_eq_take.mp (fitting_initial size offset (elements.map bulk))
  rw [← List.map_take] at isTake
  exact ⟨_, isTake⟩

theorem arrayHeader_length (n : Nat) (small : n < 10 ^ 9) : (arrayHeader n).length ≤ 12 := by
  have digits := length_decimal_le small
  have starLength : (lit "*").length = 1 := by decide
  have crlfLength : crlf.length = 2 := by decide
  simp only [arrayHeader, decimalInt, List.length_append, starLength, crlfLength]
  omega

/-- A text that is cut where the array ends. -/
theorem print_cut {size : Nat} {content text : Bytes} (inside : content.length < size)
    (long : ¬ content.length + text.length < size) (texts : List Bytes) (w : World D) :
    Buffer.print size ⟨content, content.length⟩ text w =
      .ok (⟨(content ++ (text :: texts).flatten).take (size - 1), content.length⟩, w) := by
  have within : ¬ size < content.length := by omega
  have cut : (content ++ (text :: texts).flatten).take (size - 1) = content ++ text.take (size - content.length - 1) := by
    rw [List.take_append, List.take_of_length_le (by omega), List.flatten_cons, List.take_append,
      show size - 1 - content.length - text.length = 0 by omega, List.take_zero, List.append_nil]
    congr 2
    omega
  rw [cut]
  simp only [Buffer.print, within, if_false, pure_run, List.take_length]

/-- The array holds as much as there is room for, and `offset` counts what is whole. -/
theorem appendGuarded_run {size : Nat} (texts : List Bytes) {content : Bytes} (inside : content.length < size) (w : World D) :
    Buffer.appendGuarded size texts ⟨content, content.length⟩ w =
      .ok (⟨(content ++ texts.flatten).take (size - 1),
        (content ++ (fitting size content.length texts).flatten).length⟩, w) := by
  induction texts generalizing content with
  | nil =>
    simp only [Buffer.appendGuarded, pure_run, fitting, List.flatten_nil, List.append_nil]
    rw [List.take_of_length_le (by omega)]
  | cons text texts inductionHypothesis =>
    rw [Buffer.appendGuarded, fitting]
    by_cases fits : content.length + text.length < size
    · rw [bind_of_ok (print_fits fits w), if_pos fits, if_pos fits]
      have later := @inductionHypothesis (content ++ text) (by simpa using fits)
      rw [List.length_append] at later
      simp only [List.flatten_cons, ← List.append_assoc]
      exact later
    · rw [bind_of_ok (print_cut inside fits texts w), if_neg fits, if_neg fits]
      simp only [pure_run, List.flatten_nil, List.append_nil]

/-! ## Arrays that are cut -/

/-- What is sent of an array of strings from an array of the given size: the header, and the elements as far as there is
room. -/
structure CutReply (size : Nat) (elements : List Bytes) (sent : Bytes) : Prop where
  header : arrayHeader elements.length <+: sent
  isPrefix : sent <+: arrayText elements
  whole : sent = arrayText elements ↔ (arrayText elements).length < size

section CutReply

variable {size : Nat} {elements others : List Bytes} {sent : Bytes}

/-- The reply is an array of complete strings where all elements fit. -/
theorem CutReply.isArray_iff (cut : CutReply size elements sent) :
    (∃ others, sent = arrayText others) ↔ (arrayText elements).length < size := by
  rw [← cut.whole]
  constructor
  · rintro ⟨others, rfl⟩
    obtain ⟨rest, joined⟩ := cut.isPrefix
    -- a complete array is not the beginning of another one
    exact (IsResp.bulks others).prefix_free (IsResp.bulks elements) (joined.trans (List.append_nil _).symm)
  · intro whole
    exact ⟨elements, whole⟩

theorem CutReply.count_eq (cut : CutReply size elements (arrayText others)) : others.length = elements.length := by
  obtain ⟨rest, joined⟩ := cut.header
  exact (cut_header joined.symm).1

theorem cutReply_empty (room : 4 < size) : CutReply size [] emptyArray where
  header := List.prefix_rfl
  isPrefix := List.prefix_rfl
  whole := by
    have length : (arrayText []).length = 4 := by decide
    rw [length]
    exact ⟨fun _ => room, fun _ => rfl⟩

/-- A text that is cut at the end of the array. -/
theorem cutReply_take (room : (arrayHeader elements.length).length < size) :
    CutReply size elements ((arrayText elements).take (size - 1)) where
  header := by
    rw [arrayText, List.take_append, List.take_of_length_le (by omega)]
    exact List.prefix_append _ _
  isPrefix := List.take_prefix _ _
  whole := by
    rw [List.take_eq_self_iff]
    omega

/-- The elements that are printed whole. -/
theorem cutReply_fitting (room : (arrayHeader elements.length).length < size) :
    CutReply size elements
      (arrayHeader elements.length ++ (fitting size (arrayHeader elements.length).length (elements.map bulk)).flatten) where
  header := List.prefix_append _ _
  isPrefix := by
    obtain ⟨rest, split⟩ := fitting_initial size (arrayHeader elements.length).length (elements.map bulk)
    refine ⟨rest.flatten, ?_⟩
    rw [List.append_assoc, ← List.flatten_append, split, arrayText]
  whole := by
    rw [arrayText, List.length_append, ← fitting_eq_self room]
    constructor
    · intro same
      -- what is left out would have bytes
      obtain ⟨rest, split⟩ := fitting_initial size (arrayHeader elements.length).length (elements.map bulk)
      have isNil : rest.flatten = [] := by
        have joined := congrArg List.flatten split
        rw [List.flatten_append, ← List.append_cancel_left same] at joined
        exact List.append_right_eq_self.mp joined
      have nothing : rest = [] := by
        cases rest with
        | nil => rfl
        | cons text rest =>
          obtain ⟨element, _, rfl⟩ := List.mem_map.mp (split ▸ List.mem_append_right _ List.mem_cons_self)
          rw [List.flatten_cons, List.append_eq_nil_iff] at isNil
          have := bulk_length_pos element
          rw [isNil.1] at this
          simp at this
      rw [nothing, List.append_nil] at split
      exact split
    · intro all
      rw [all]

/-- No room for the header. -/
theorem cutReply_header (nonempty : elements ≠ []) (full : size ≤ (arrayHeader elements.length).length) :
    CutReply size elements (arrayHeader elements.length) where
  header := List.prefix_rfl
  isPrefix := List.prefix_append _ _
  whole := by
    obtain ⟨element, rest, rfl⟩ := List.exists_cons_of_ne_nil nonempty
    have positive := bulk_length_pos element
    rw [arrayText, List.map_cons, List.flatten_cons]
    constructor
    · intro same
      have lengths := congrArg List.length same
      simp only [List.length_append] at lengths
      omega
    · intro short
      simp only [List.length_append] at short
      omega

end CutReply

/-- The loop of a guarded printer behind the header. -/
theorem appendGuarded_ok {size : Nat} {elements : List Bytes} {printed : Buffer} (nonempty : elements ≠ [])
    (run : Buffer.appendGuarded size (elements.map bulk)
      ⟨arrayHeader elements.length, (arrayHeader elements.length).length⟩ w = .ok (printed, t)) :
    t = w ∧ CutReply size elements printed.content ∧ CutReply size elements (printed.content.take printed.offset) ∧
      printed.offset ≤ printed.content.length := by
  by_cases room : (arrayHeader elements.length).length < size
  · rw [appendGuarded_run _ room] at run
    obtain ⟨rfl, rfl⟩ := Prod.mk.inj (Except.ok.inj run)
    have short := fitting_length (elements.map bulk) room
    obtain ⟨rest, split⟩ := (cutReply_fitting room).isPrefix
    rw [arrayText] at split
    have inside : (arrayHeader elements.length ++
        (fitting size (arrayHeader elements.length).length (elements.map bulk)).flatten).length ≤ size - 1 := by
      rw [List.length_append]
      omega
    refine ⟨rfl, cutReply_take room, ?_, ?_⟩
    · dsimp only
      rw [List.take_take, min_eq_left inside, ← split, List.take_left]
      exact cutReply_fitting room
    · dsimp only
      rw [List.length_take, ← split]
      refine le_min inside ?_
      simp
  · obtain ⟨element, elements, rfl⟩ := List.exists_cons_of_ne_nil nonempty
    rw [List.map_cons, Buffer.appendGuarded] at run
    obtain ⟨first, u, prints, rest⟩ := bind_eq_ok.mp run
    unfold Buffer.print at prints
    split at prints
    · simp [fault] at prints
    · -- the header fills the array, so that nothing is printed behind it
      obtain ⟨rfl, rfl⟩ := Prod.mk.inj (Except.ok.inj prints)
      have positive := bulk_length_pos element
      rw [if_neg (by dsimp only; omega)] at rest
      obtain ⟨rfl, rfl⟩ := Prod.mk.inj (Except.ok.inj rest)
      have nothing : (bulk element).take (size - (arrayHeader (element :: elements).length).length - 1) = [] := by
        rw [show size - (arrayHeader (element :: elements).length).length - 1 = 0 by omega, List.take_zero]
      refine ⟨rfl, ?_⟩
      simp only [nothing, List.append_nil, List.take_length]
      exact ⟨cutReply_header nonempty (by omega), cutReply_header nonempty (by omega), le_rfl⟩

/-! ## LRANGE -/

theorem slice_empty {values : List Bytes} {startIndex endIndex : Int}
    (isEmpty : (values.length : Int) ≤ startIndex ∨ endIndex < startIndex) : slice values startIndex endIndex = [] := by
  unfold slice
  cases isEmpty with
  | inl behind => rw [List.drop_of_length_le (by omega), List.take_nil]
  | inr crossed => rw [show (endIndex - startIndex + 1).toNat = 0 by omega, List.take_zero]

theorem length_slice {values : List Bytes} {startIndex endIndex : Int} (nonneg : 0 ≤ startIndex)
    (ascends : startIndex ≤ endIndex) (stops : endIndex < values.length) :
    ((slice values startIndex endIndex).length : Int) = endIndex - startIndex + 1 := by
  rw [slice, List.length_take, List.length_drop]
  omega

/-- An index behind the last element stands for the last element. -/
theorem slice_clamped {values : List Bytes} {startIndex endIndex : Int} (behind : (values.length : Int) ≤ endIndex) :
    slice values startIndex endIndex = slice values startIndex (values.length - 1) := by
  rw [slice, slice, List.take_of_length_le (by rw [List.length_drop]; omega),
    List.take_of_length_le (by rw [List.length_drop]; omega)]

/-- The last element ends the slice. -/
theorem slice_stop {values : List Bytes} {startIndex endIndex : Int} (nonneg : 0 ≤ startIndex)
    (inside : ¬ ((values.length : Int) ≤ startIndex ∨ endIndex < startIndex)) :
    slice values startIndex endIndex =
        slice values startIndex (if (values.length : Int) ≤ endIndex then (values.length : Int) - 1 else endIndex) ∧
      ((slice values startIndex (if (values.length : Int) ≤ endIndex then (values.length : Int) - 1 else endIndex)).length :
        Int) = (if (values.length : Int) ≤ endIndex then (values.length : Int) - 1 else endIndex) - startIndex + 1 := by
  by_cases behind : (values.length : Int) ≤ endIndex
  · rw [if_pos behind]
    exact ⟨slice_clamped behind, length_slice nonneg (by omega) (by omega)⟩
  · rw [if_neg behind]
    exact ⟨rfl, length_slice nonneg (by omega) (by omega)⟩

theorem slice_ne_nil {values : List Bytes} {startIndex endIndex : Int} (nonneg : 0 ≤ startIndex)
    (inside : ¬ ((values.length : Int) ≤ startIndex ∨ endIndex < startIndex)) : slice values startIndex endIndex ≠ [] := by
  intro isNil
  obtain ⟨same, counts⟩ := slice_stop nonneg inside
  rw [← same, isNil, List.length_nil] at counts
  split at counts <;> omega

theorem slice_one {values : List Bytes} {index : Int} {value : Bytes} (found : values[index.toNat]? = some value) :
    slice values index index = [value] := by
  obtain ⟨inside, isValue⟩ := List.getElem?_eq_some_iff.mp found
  rw [slice, List.drop_eq_getElem_cons inside, isValue, show (index - index + 1).toNat = 1 by omega, List.take_succ_cons,
    List.take_zero]

theorem arrayText_one (value : Bytes) : arrayText [value] = lit "*1\r\n" ++ bulk value := by
  have front : arrayHeader 1 = lit "*1\r\n" := by decide
  simp [arrayText, front]

section Lrange

variable {key first last : Bytes} {values : List Bytes} {expiresAt startIndex endIndex : Int}

/-- The size of the array that LRANGE prints the elements between two indices to. -/
def lrangeRoom (startIndex endIndex : Int) : Nat := if startIndex = endIndex then 1024 else 2048

/-- What LRANGE sends of a list. -/
theorem handleLrange_ok (enough : 3 ≤ req.argc) (isKey : req.args[0]? = some key) (isFirst : req.args[1]? = some first)
    (isLast : req.args[2]? = some last) (found : lookup w.table key = .ok (some ⟨.list values, expiresAt⟩))
    (bounds : lrangeBounds values.length (atoi first) (atoi last) w = .ok ((startIndex, endIndex), w))
    (run : handleLrange req fd w = .ok ((), t)) :
    ∃ sent, t = w.emit fd sent ∧ CutReply (lrangeRoom startIndex endIndex) (slice values startIndex endIndex) sent := by
  obtain ⟨nonneg, _⟩ := lrangeBounds_nonneg bounds
  unfold handleLrange at run
  rw [if_neg (by omega), bind_of_ok (arg_ok.mpr ⟨isKey, rfl⟩), withPayload_run, found] at run
  simp only [asList, pure_bind] at run
  rw [bind_of_ok (arg_ok.mpr ⟨isFirst, rfl⟩), bind_of_ok (arg_ok.mpr ⟨isLast, rfl⟩), bind_of_ok bounds] at run
  dsimp only at run
  have someRoom : 4 < lrangeRoom startIndex endIndex := by
    unfold lrangeRoom
    split <;> decide
  split at run
  · rename_i isEmpty
    rw [slice_empty isEmpty]
    exact ⟨_, send_run run, cutReply_empty someRoom⟩
  · rename_i inside
    split at run
    · rename_i one
      subst one
      cases isValue : values[startIndex.toNat]? with
      | none => simp [isValue, fault] at run
      | some value =>
        rw [slice_one isValue, lrangeRoom, if_pos rfl]
        simp only [isValue, sendText, ← arrayText_one] at run
        exact ⟨_, send_run run, cutReply_take (show (arrayHeader 1).length < 1024 by decide)⟩
    · rename_i several
      rw [lrangeRoom, if_neg several]
      obtain ⟨same, counts⟩ := slice_stop nonneg inside
      generalize (if (values.length : Int) ≤ endIndex then (values.length : Int) - 1 else endIndex) = stop at same counts run
      have nonempty : slice values startIndex stop ≠ [] := by
        rw [← same]
        exact slice_ne_nil nonneg inside
      obtain ⟨printed, u, prints, sends⟩ := bind_eq_ok.mp run
      change Buffer.appendGuarded 2048 ((slice values startIndex stop).map bulk)
        ⟨arrayHeader (stop - startIndex + 1), (arrayHeader (stop - startIndex + 1)).length⟩ w = .ok (printed, u) at prints
      rw [← counts] at prints
      obtain ⟨rfl, cut, _⟩ := appendGuarded_ok nonempty prints
      exact ⟨_, send_run sends, same ▸ cut⟩

/-- Where the elements fit, LRANGE sends them. -/
theorem handleLrange_fits (enough : 3 ≤ req.argc) (isKey : req.args[0]? = some key) (isFirst : req.args[1]? = some first)
    (isLast : req.args[2]? = some last) (found : lookup w.table key = .ok (some ⟨.list values, expiresAt⟩))
    (bounds : lrangeBounds values.length (atoi first) (atoi last) w = .ok ((startIndex, endIndex), w))
    (fits : (arrayText (slice values startIndex endIndex)).length < lrangeRoom startIndex endIndex) :
    handleLrange req fd w = .ok ((), w.emit fd (arrayText (slice values startIndex endIndex))) := by
  -- what is sent is known, so that a normal end is all that is left to show
  suffices ends : ∃ t, handleLrange req fd w = .ok ((), t) by
    obtain ⟨t, run⟩ := ends
    obtain ⟨sent, rfl, cut⟩ := handleLrange_ok enough isKey isFirst isLast found bounds run
    rw [run, cut.whole.mpr fits]
  obtain ⟨nonneg, _⟩ := lrangeBounds_nonneg bounds
  unfold handleLrange
  rw [if_neg (by omega), bind_of_ok (arg_ok.mpr ⟨isKey, rfl⟩), withPayload_run, found]
  simp only [asList, pure_bind]
  rw [bind_of_ok (arg_ok.mpr ⟨isFirst, rfl⟩), bind_of_ok (arg_ok.mpr ⟨isLast, rfl⟩), bind_of_ok bounds]
  dsimp only
  split
  · exact ⟨_, rfl⟩
  · rename_i inside
    split
    · have inRange : startIndex.toNat < values.length := by omega
      rw [List.getElem?_eq_getElem inRange]
      exact ⟨_, rfl⟩
    · rename_i several
      rw [lrangeRoom, if_neg several] at fits
      obtain ⟨same, counts⟩ := slice_stop nonneg inside
      rw [same, arrayText, counts] at fits
      exact ⟨_, (bind_of_ok (appendGuarded_fits _ fits w)).trans rfl⟩

end Lrange

/-! ## ZRANGE -/

section SortedSets

variable {key : Bytes} {set : ZSet D} {expiresAt : Int}

/-- The loop of ZRANGE is that of a guarded printer, as long as there are nodes. -/
theorem appendMembers_eq {size remaining : Nat} {entries : List (ZSetEntry D)} {buffer : Buffer}
    (enough : remaining ≤ entries.length) :
    appendMembers size remaining entries buffer =
      Buffer.appendGuarded size ((entries.take remaining).map fun entry => bulk entry.member) buffer := by
  induction remaining generalizing entries buffer with
  | zero => rfl
  | succ remaining inductionHypothesis =>
    cases entries with
    | nil => simp at enough
    | cons entry entries =>
      rw [List.take_succ_cons, List.map_cons, Buffer.appendGuarded, appendMembers]
      congr 1
      funext printed
      rw [inductionHypothesis (by simpa using enough)]

/-- The members of a sorted set, in the order of its nodes. -/
def ZSet.members (set : ZSet D) : List Bytes := set.entries.map (·.member)

theorem memberSlice_eq (startIndex endIndex : Int) :
    memberSlice set (startIndex, endIndex) = slice set.members startIndex endIndex := by
  simp only [memberSlice, slice, ZSet.members, List.map_take, List.map_drop]

/-- What the loop of ZRANGE prints. -/
theorem map_bulk_members (startIndex endIndex : Int) :
    ((set.entries.drop startIndex.toNat).take (endIndex - startIndex + 1).toNat).map (fun entry => bulk entry.member) =
      (slice set.members startIndex endIndex).map bulk := by
  rw [← memberSlice_eq, memberSlice, List.map_map]
  rfl

theorem length_members (set : ZSet D) : set.members.length = set.entries.length := List.length_map _

theorem zrangeBounds_inside {setLen first last : Int} (bounds : Int × Int) (isBounds : zrangeBounds setLen first last = bounds) :
    0 ≤ bounds.1 ∧ bounds.2 < setLen := by
  subst isBounds
  unfold zrangeBounds
  dsimp only
  constructor <;> split_ifs <;> omega

/-- What ZRANGE sends of a sorted set. -/
theorem handleZrange_ok {first last : Bytes} (enough : 3 ≤ req.argc) (isKey : req.args[0]? = some key)
    (isFirst : req.args[1]? = some first) (isLast : req.args[2]? = some last)
    (found : lookup w.table key = .ok (some ⟨.zset set, expiresAt⟩)) (counted : set.length = set.entries.length)
    (run : handleZrange req fd w = .ok ((), t)) :
    ∃ sent, t = w.emit fd sent ∧
      CutReply 4096 (memberSlice set (zrangeBounds set.length (atoi first) (atoi last))) sent := by
  unfold handleZrange at run
  rw [if_neg (by omega), bind_of_ok (arg_ok.mpr ⟨isKey, rfl⟩), withPayload_run, found] at run
  simp only [asZSet, pure_bind] at run
  rw [bind_of_ok (arg_ok.mpr ⟨isFirst, rfl⟩), bind_of_ok (arg_ok.mpr ⟨isLast, rfl⟩)] at run
  have inside := zrangeBounds_inside _ (rfl : zrangeBounds set.length (atoi first) (atoi last) = _)
  generalize zrangeBounds set.length (atoi first) (atoi last) = bounds at run inside ⊢
  obtain ⟨startIndex, endIndex⟩ := bounds
  obtain ⟨nonneg, stops⟩ := inside
  dsimp only at run nonneg stops
  rw [memberSlice_eq]
  have length := length_members set
  split at run
  · rename_i isEmpty
    rw [slice_empty (by omega)]
    exact ⟨_, send_run run, cutReply_empty (by decide)⟩
  · rename_i nonempty
    rw [if_neg (by omega)] at run
    obtain ⟨printed, u, prints, sends⟩ := bind_eq_ok.mp run
    have counts : ((slice set.members startIndex endIndex).length : Int) = endIndex - startIndex + 1 :=
      length_slice nonneg (by omega) (by omega)
    rw [appendMembers_eq (by rw [List.length_drop]; omega), map_bulk_members, ← counts] at prints
    obtain ⟨rfl, _, cut, inside⟩ := appendGuarded_ok (slice_ne_nil nonneg (by omega)) prints
    unfold Buffer.sendPrefix at sends
    split at sends
    · simp [fault] at sends
    · refine ⟨_, send_run sends, ?_⟩
      rw [show printed.offset - printed.content.length = 0 by omega, List.replicate_zero, List.append_nil]
      exact cut

/-- Where the members fit, ZRANGE sends them. -/
theorem handleZrange_fits {first last : Bytes} (enough : 3 ≤ req.argc) (isKey : req.args[0]? = some key)
    (isFirst : req.args[1]? = some first) (isLast : req.args[2]? = some last)
    (found : lookup w.table key = .ok (some ⟨.zset set, expiresAt⟩)) (counted : set.length = set.entries.length)
    (fits : (arrayText (memberSlice set (zrangeBounds set.length (atoi first) (atoi last)))).length < 4096) :
    handleZrange req fd w =
      .ok ((), w.emit fd (arrayText (memberSlice set (zrangeBounds set.length (atoi first) (atoi last))))) := by
  suffices ends : ∃ t, handleZrange req fd w = .ok ((), t) by
    obtain ⟨t, run⟩ := ends
    obtain ⟨sent, rfl, cut⟩ := handleZrange_ok enough isKey isFirst isLast found counted run
    rw [run, cut.whole.mpr fits]
  unfold handleZrange
  rw [if_neg (by omega), bind_of_ok (arg_ok.mpr ⟨isKey, rfl⟩), withPayload_run, found]
  simp only [asZSet, pure_bind]
  rw [bind_of_ok (arg_ok.mpr ⟨isFirst, rfl⟩), bind_of_ok (arg_ok.mpr ⟨isLast, rfl⟩)]
  have inside := zrangeBounds_inside _ (rfl : zrangeBounds set.length (atoi first) (atoi last) = _)
  generalize zrangeBounds set.length (atoi first) (atoi last) = bounds at fits inside ⊢
  obtain ⟨startIndex, endIndex⟩ := bounds
  obtain ⟨nonneg, stops⟩ := inside
  dsimp only at nonneg stops ⊢
  rw [memberSlice_eq] at fits
  have length := length_members set
  split
  · exact ⟨_, rfl⟩
  · rename_i nonempty
    have counts : ((slice set.members startIndex endIndex).length : Int) = endIndex - startIndex + 1 :=
      length_slice nonneg (by omega) (by omega)
    rw [arrayText] at fits
    have printed := appendGuarded_fits _ fits w
    rw [if_neg (by omega), appendMembers_eq (by rw [List.length_drop]; omega), map_bulk_members, ← counts, bind_of_ok printed,
      Buffer.sendPrefix, if_neg (by dsimp only; omega)]
    exact ⟨_, rfl⟩

/-! ## GEOSEARCH -/

variable [Externals D]

/-- The loop of GEOSEARCH: what is in the array, and how many members are whole. -/
theorem selectMembers_run {score wantedRange : D} {remaining count : Nat} {entries : List (ZSetEntry D)} {content : Bytes}
    {texts : List Bytes} (enough : remaining ≤ entries.length) (inside : content.length < 1024)
    (isTexts : ((entries.take remaining).filter (inRange score wantedRange)).map (fun entry => bulk entry.member) = texts) :
    selectMembers score wantedRange remaining entries ⟨content, content.length⟩ count w =
      .ok ((⟨(content ++ texts.flatten).take 1023, (content ++ (fitting 1024 content.length texts).flatten).length⟩,
        count + (fitting 1024 content.length texts).length), w) := by
  induction remaining generalizing entries content count texts with
  | zero =>
    rw [List.take_zero] at isTexts
    subst isTexts
    simp only [selectMembers, pure_run, List.filter_nil, List.map_nil, fitting, List.flatten_nil, List.append_nil,
      List.length_nil, Nat.add_zero]
    rw [List.take_of_length_le (by omega)]
  | succ remaining inductionHypothesis =>
    cases entries with
    | nil => simp at enough
    | cons entry entries =>
      replace enough : remaining ≤ entries.length := by simpa using enough
      rw [selectMembers, ← inRange]
      rw [List.take_succ_cons] at isTexts
      cases selected : inRange score wantedRange entry with
      | false =>
        rw [List.filter_cons_of_neg (by simp [selected])] at isTexts
        rw [if_neg (by simp)]
        exact inductionHypothesis enough inside isTexts
      | true =>
        rw [List.filter_cons_of_pos selected, List.map_cons] at isTexts
        subst isTexts
        rw [if_pos rfl, fitting]
        by_cases fits : content.length + (bulk entry.member).length < 1024
        · rw [bind_of_ok (print_fits fits w), if_pos fits, if_pos fits]
          have later := @inductionHypothesis (count + 1) entries (content ++ bulk entry.member) _ enough
            (by simpa using fits) rfl
          rw [List.length_append] at later
          rw [List.length_cons, ← Nat.add_assoc, Nat.add_right_comm]
          simp only [List.flatten_cons, ← List.append_assoc]
          exact later
        · rw [bind_of_ok (print_cut inside fits _ w), if_neg fits, if_neg fits]
          simp only [pure_run, List.flatten_nil, List.append_nil, List.length_nil, Nat.add_zero, Nat.reduceSub]
          rfl

/-- The members that GEOSEARCH selects, in the order of the nodes. -/
def ZSet.within (set : ZSet D) (longtitude latitude radius unit : Bytes) : List Bytes :=
  (set.entries.filter (withinRange longtitude latitude radius unit)).map (·.member)

/-- The reply of GEOSEARCH for the members that it selects. -/
def geosearchText (selected : List Bytes) : Bytes :=
  let whole := fitting 1024 0 (selected.map bulk)
  if whole.length ≠ 0 then arrayHeader whole.length ++ (selected.map bulk).flatten.take 1023 else emptyArray

/-- What GEOSEARCH sends of a sorted set. -/
theorem handleGeosearch_run {longtitude latitude radius unit : Bytes} (enough : 7 ≤ req.argc)
    (isKey : req.args[0]? = some key) (isLongtitude : req.args[2]? = some longtitude)
    (isLatitude : req.args[3]? = some latitude) (isRadius : req.args[5]? = some radius) (isUnit : req.args[6]? = some unit)
    (found : lookup w.table key = .ok (some ⟨.zset set, expiresAt⟩)) (counted : set.length = set.entries.length) :
    handleGeosearch req fd w = .ok ((), w.emit fd (geosearchText (set.within longtitude latitude radius unit))) := by
  have opens : openZSet key w = .ok (set, w) := by
    unfold openZSet
    rw [withPayload_run, found]
    rfl
  have texts : ((set.entries.take set.length).filter (withinRange longtitude latitude radius unit)).map
      (fun entry => bulk entry.member) = (set.within longtitude latitude radius unit).map bulk := by
    rw [counted, List.take_length, ZSet.within, List.map_map]
    rfl
  unfold handleGeosearch
  rw [if_neg (by omega), bind_of_ok (arg_ok.mpr ⟨isKey, rfl⟩), bind_of_ok opens, bind_of_ok (arg_ok.mpr ⟨isUnit, rfl⟩),
    bind_of_ok (arg_ok.mpr ⟨isRadius, rfl⟩), bind_of_ok (arg_ok.mpr ⟨isLongtitude, rfl⟩),
    bind_of_ok (arg_ok.mpr ⟨isLatitude, rfl⟩)]
  dsimp only
  have selects : selectMembers (Externals.ofWord (geoEncode (Externals.atof longtitude : D) (Externals.atof latitude)))
      (scaleRange ((unit.head?).getD 0) (Externals.atof radius)) set.length set.entries {} 0 w = _ :=
    @selectMembers_run D w _ _ _ _ _ _ [] _ (by omega) (by decide) texts
  rw [bind_of_ok selects]
  generalize set.within longtitude latitude radius unit = selected
  dsimp only
  rw [List.nil_append, Nat.zero_add, geosearchText]
  dsimp only [List.length_nil]
  split
  · -- the header and the members fit the second array
    obtain ⟨whole, isWhole⟩ := fitting_bulks 1024 0 selected
    have few := length_le_bulks whole
    have short := fitting_length (selected.map bulk) (show 0 < 1024 by decide)
    have header := arrayHeader_length whole.length (by rw [isWhole] at short; omega)
    rw [isWhole, List.length_map, sendText, List.take_of_length_le]
    · rfl
    · rw [List.length_append, List.length_take]
      omega
  · rfl

end SortedSets

end RedisClone
