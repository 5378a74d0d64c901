import RedisClone.Verified.Grammar

/-! # Where `parse` writes

`getLine` copies a line of any length into 256 bytes, and `parse` stores any number of arguments into `args[16]`.
`stores_in_bounds_iff`: no write of a call of `parse` is out of range exactly when, up to the first element that it
refuses, every line that it copies has room and every string that it stores has a place.
-/

namespace RedisClone

open CString

/-! ## What fits -/

/-- The line and its NUL have room in 256 bytes, or the memory ends before they are full. -/
def CopyFits (s : Bytes) : Prop := (lineOf s).length < 256 ∨ s.length ≤ 256

/-- Up to the first element that is refused, every line has room and every string has a place. -/
def ElementsFit : (remaining : Nat) → (read : List Bytes) → Bytes → Prop
  | 0, _, _ => True
  | remaining + 1, read, s =>
    CopyFits s ∧ (Readable s → getPrefix (lineOf s) ≠ none →
      CopyFits (behind s) ∧ (Readable (behind s) → ¬ Refused s →
        (requestOf (read ++ [lineOf (behind s)])).args.length ≤ maxArgs ∧
          ElementsFit remaining (read ++ [lineOf (behind s)]) (behind (behind s))))

/-- The count has room, and so has what is read of the elements. -/
def MessageFits (s : Bytes) : Prop :=
  CopyFits s ∧ (Readable s → getPrefix (lineOf s) = some 42 →
    ElementsFit (atoi (lineOf s).tail).toNat [] (behind s))

/-- These strings are more than a request has places for, or one is longer than a line. -/
def Oversize (elements : List Bytes) : Prop :=
  maxArgs < (requestOf elements).args.length ∨ ∃ element ∈ elements, 256 ≤ element.length

/-- A call of `parse` on a received buffer writes nothing out of range, and returns 1 for a message of too many or
too long strings. -/
structure StoresInBounds (bytes stale : Bytes) (ptr : Nat) : Prop where
  writes : parse (bytes ++ 0 :: stale) ptr ≠ .error .outOfBounds
  rejects : ∀ elements rest, bytes.drop ptr = encode elements ++ rest → Oversize elements →
    parse (bytes ++ 0 :: stale) ptr = .ok none

/-! ## Lines -/

theorem getLine_unended {memory s : Bytes} {ptr : Nat} (here : memory.drop ptr = s) (unreadable : ¬ Readable s)
    (fits : CopyFits s) : getLine memory ptr = .error .overread := by
  obtain whole | ⟨c, rest, split, terminator⟩ := line_cases s
  · have plain : Plain s := whole ▸ plain_takeWhile _
    have short : s.length ≤ 256 := by
      obtain short | short := fits
      · rw [← whole] at short
        omega
      · exact short
    rw [getLine, here, getLineFrom_unended plain, if_pos short]
  · have total := congrArg List.length split
    simp only [List.length_append, List.length_cons] at total
    exact absurd ⟨by obtain short | short := fits <;> omega, by omega⟩ unreadable

theorem getLine_overrun {memory s : Bytes} {ptr : Nat} (here : memory.drop ptr = s) (unfit : ¬ CopyFits s) :
    getLine memory ptr = .error .outOfBounds := by
  obtain ⟨long, more⟩ := not_or.mp unfit
  obtain whole | ⟨c, rest, split, terminator⟩ := line_cases s
  · have plain : Plain s := whole ▸ plain_takeWhile _
    rw [getLine, here, getLineFrom_unended plain, if_neg more]
  · have plain : Plain (lineOf s) := plain_takeWhile _
    rw [getLine, here, split, getLineFrom_line plain terminator, if_neg long]

/-! ## The loop over the elements -/

theorem parseElements_writes_iff {memory : Bytes} {ptr remaining : Nat} {read : List Bytes}
    (within : (filledBy read).args.length ≤ maxArgs) :
    parseElements memory remaining read.length (filledBy read) ptr ≠ .error .outOfBounds ↔
      ElementsFit remaining read (memory.drop ptr) := by
  induction remaining generalizing read ptr with
  | zero => simp [parseElements, ElementsFit]
  | succ remaining inductionHypothesis =>
    obtain ⟨s, here⟩ : ∃ s, memory.drop ptr = s := ⟨_, rfl⟩
    rw [here, ElementsFit]
    -- the first copy that does not fit, or does not end, decides; the tests of `parse` stand between the two copies
    by_cases fits : CopyFits s
    swap
    · simp [parseElements, getLine_overrun here fits, fits]
    by_cases readable : Readable s
    swap
    · simp [parseElements, getLine_unended here readable fits, readable, fits]
    by_cases unprefixed : getPrefix (lineOf s) = none
    · rw [parseElements_refused here readable (.inl unprefixed)]
      simp [fits, unprefixed]
    have announced := getLine_readable (here ▸ readable)
    rw [here] at announced
    by_cases valueFits : CopyFits (behind s)
    swap
    · have overrun := getLine_overrun (drop_behind here) valueFits
      simp [parseElements, announced, overrun, readable, unprefixed, valueFits]
    by_cases valueReadable : Readable (behind s)
    swap
    · have unended := getLine_unended (drop_behind here) valueReadable valueFits
      simp [parseElements, announced, unended, unprefixed, fits, valueFits, valueReadable]
    by_cases refused : Refused s
    · rw [parseElements_refused here readable (.inr ⟨valueReadable, refused⟩)]
      simp [fits, valueFits, refused]
    rw [parseElements_passes within here readable valueReadable refused, args_requestOf]
    by_cases room : (filledBy (read ++ [lineOf (behind s)])).args.length ≤ maxArgs
    · rw [if_pos room, inductionHypothesis room, drop_behind (drop_behind here)]
      simp [fits, readable, unprefixed, valueFits, valueReadable, refused, room]
    · rw [if_neg room]
      simp [readable, unprefixed, valueReadable, refused, room]

theorem parse_writes_iff {memory s : Bytes} {ptr : Nat} (here : memory.drop ptr = s) :
    parse memory ptr ≠ .error .outOfBounds ↔ MessageFits s := by
  rw [MessageFits]
  by_cases fits : CopyFits s
  swap
  · simp [parse, getLine_overrun here fits, fits]
  by_cases readable : Readable s
  swap
  · simp [parse, getLine_unended here readable fits, readable, fits]
  by_cases star : getPrefix (lineOf s) = some 42
  swap
  · simp [parse_starless (here ▸ readable) (here ▸ star), fits, star]
  by_cases empty : atoi (lineOf s).tail ≤ 0
  · rw [parse_uncounted here readable star empty, Int.toNat_of_nonpos empty]
    split <;> simp [fits, ElementsFit]
  have announced := getLine_readable (here ▸ readable)
  rw [here] at announced
  have elements := @parseElements_writes_iff memory (ptr + (lineOf s).length + 2) (atoi (lineOf s).tail).toNat []
    (Nat.zero_le _)
  rw [drop_behind here, List.length_nil, show filledBy [] = {} from rfl] at elements
  simp only [fits, readable, star, true_and, true_implies, ← elements]
  simp only [parse, announced, star, ne_eq, not_true_eq_false, if_false, dif_neg empty]
  cases parsed : parseElements memory (atoi (lineOf s).tail).toNat 0 {} (ptr + (lineOf s).length + 2) with
  | error f => simp
  | ok found =>
    cases found with
    | none => simp
    | some found => simp

/-! ## Messages of too many or too long strings -/

/-- A string that is no line reads as a shorter one. -/
theorem lineOf_cut {element : Bytes} (cut : ¬ Plain element) (rest : Bytes) :
    (lineOf (element ++ crlf ++ rest)).length < element.length := by
  have stops : (element.takeWhile isText).length ≠ element.length := by
    intro whole
    have same : element.takeWhile isText = element := (List.takeWhile_sublist isText).eq_of_length whole
    exact cut (same ▸ plain_takeWhile element)
  rw [lineOf, List.append_assoc, List.takeWhile_append, if_neg stops]
  exact lt_of_le_of_ne (List.takeWhile_sublist isText).length_le stops

/-- Where nothing is written out of range, strings on the wire are given up at one of them, or all of them are short and
have a place. -/
theorem encoded_walk {elements read : List Bytes} {rest : Bytes} (small : ∀ element ∈ elements, element.length < 10 ^ 9)
    (within : (requestOf read).args.length ≤ maxArgs)
    (fit : ElementsFit elements.length read ((elements.map bulk).flatten ++ rest)) :
    Fits elements.length read ((elements.map bulk).flatten ++ rest) ∧
      (SomeRefused elements.length ((elements.map bulk).flatten ++ rest) ∨
        (∀ element ∈ elements, element.length < 256) ∧ (requestOf (read ++ elements)).args.length ≤ maxArgs) := by
  induction elements generalizing read with
  | nil => exact ⟨trivial, .inr ⟨by simp, by simpa using within⟩⟩
  | cons element elements inductionHypothesis =>
    obtain ⟨others, isOthers⟩ : ∃ others, (elements.map bulk).flatten ++ rest = others := ⟨_, rfl⟩
    have short : element.length < 10 ^ 9 := small element List.mem_cons_self
    have split : ((element :: elements).map bulk).flatten ++ rest =
        lenLine element.length ++ crlf ++ (element ++ crlf ++ others) := by
      rw [List.map_cons, List.flatten_cons, bulk_eq, ← isOthers]
      simp only [List.append_assoc]
    obtain ⟨line, behindLine, _⟩ := @line_of_crlf _ (element ++ crlf ++ others) (plain_lenLine element.length)
    rw [split, List.length_cons] at fit ⊢
    rw [ElementsFit, line, behindLine] at fit
    rw [Fits, SomeRefused, Refused, line, behindLine, atoi_lenLine short]
    rw [Refused, line, behindLine, atoi_lenLine short] at fit
    have readable : Readable (lenLine element.length ++ crlf ++ (element ++ crlf ++ others)) := by
      rw [Readable, line]
      refine ⟨length_lenLine_lt short, ?_⟩
      simp only [List.length_append, crlf, List.length_cons]
      omega
    have prefixed : getPrefix (lenLine element.length) ≠ none := by simp [getPrefix_lenLine]
    obtain ⟨valueFits, stores⟩ := fit.2 readable prefixed
    -- the string is followed by a CR, so its line ends inside the memory
    have ended : (lineOf (element ++ crlf ++ others)).length ≤ element.length := by
      by_cases plain : Plain element
      · rw [(line_of_crlf plain).1]
      · exact (lineOf_cut plain others).le
    have valueReadable : Readable (element ++ crlf ++ others) := by
      have length : (element ++ crlf ++ others).length = element.length + 2 + others.length := by
        simp only [List.length_append, show crlf.length = 2 from rfl]
      obtain fits | fits := valueFits
      · exact ⟨fits, by omega⟩
      · exact ⟨by omega, by omega⟩
    by_cases plain : Plain element
    · obtain ⟨value, behindValue, _⟩ := @line_of_crlf _ others plain
      rw [value, behindValue] at stores ⊢
      obtain ⟨place, fitRest⟩ := stores valueReadable (by simp [prefixed])
      have walk := inductionHypothesis (fun other member => small other (List.mem_cons_of_mem _ member)) place
        (isOthers.symm ▸ fitRest)
      rw [isOthers] at walk
      obtain ⟨fits, refused | ⟨allShort, places⟩⟩ := walk
      · exact ⟨⟨readable, .inr ⟨valueReadable, .inr ⟨place, fits⟩⟩⟩, .inl (.inr refused)⟩
      · refine ⟨⟨readable, .inr ⟨valueReadable, .inr ⟨place, fits⟩⟩⟩, .inr ⟨?_, by simpa using places⟩⟩
        exact List.forall_mem_cons.mpr ⟨value ▸ valueReadable.1, allShort⟩
    · -- a CR or a NUL in the string cuts the line short of the announced length
      have mismatch : ((lineOf (element ++ crlf ++ others)).length : Int) ≠ element.length := by
        have shorter := lineOf_cut plain others
        omega
      exact ⟨⟨readable, .inr ⟨valueReadable, .inl (.inr mismatch)⟩⟩, .inl (.inl (.inr mismatch))⟩

/-- Where nothing is written out of range, a message of too many or too long strings is given up. -/
theorem parse_oversize {memory rest : Bytes} {elements : List Bytes} {ptr : Nat}
    (here : memory.drop ptr = encode elements ++ rest) (small : (encode elements).length < 10 ^ 9)
    (oversize : Oversize elements) (fits : MessageFits (memory.drop ptr)) : parse memory ptr = .ok none := by
  have header := drop_header here
  obtain ⟨s, isBytes⟩ : ∃ s, memory.drop ptr = s := ⟨_, rfl⟩
  rw [isBytes] at header fits
  obtain ⟨line, behindLine, _⟩ := @line_of_crlf _ ((elements.map bulk).flatten ++ rest) (plain_countLine elements.length)
  rw [← header] at line behindLine
  rw [encode, List.length_append] at small
  have few : elements.length < 10 ^ 9 := by
    have := length_le_bulks elements
    omega
  have short (element : Bytes) (member : element ∈ elements) : element.length < 10 ^ 9 := by
    have part : (bulk element).length ≤ (elements.map bulk).flatten.length :=
      (List.sublist_flatten_of_mem (List.mem_map_of_mem member)).length_le
    have whole := length_bulk_eq element
    omega
  have count : atoi (lineOf s).tail = elements.length := by
    rw [line]
    exact atoi_lenLine few
  have positive : 0 < elements.length := by
    rw [List.length_pos_iff]
    rintro rfl
    obtain many | ⟨element, member, _⟩ := oversize
    · exact absurd many (by decide)
    · simp at member
  have readable : Readable s := by
    obtain fits | fits := fits.1
    · exact ⟨fits, by rw [line, header]; simp [crlf]⟩
    · have inside : (lineOf s).length < s.length := by rw [line, header]; simp [crlf]
      exact ⟨by omega, inside⟩
  have star : getPrefix (lineOf s) = some 42 := by rw [line]; rfl
  have fit := fits.2 readable star
  have parsed := (@parse_counted_iff memory s ptr isBytes readable star (by omega) none)
  rw [count, Int.toNat_natCast, behindLine] at fit parsed
  obtain ⟨fitsAll, refused | ⟨allShort, places⟩⟩ := encoded_walk short (Nat.zero_le _) fit
  · exact parsed.mpr ⟨fitsAll, .inl ⟨refused, rfl⟩⟩
  · obtain many | ⟨element, member, long⟩ := oversize
    · exact absurd many (Nat.not_lt.mpr places)
    · exact absurd long (Nat.not_le.mpr (allShort element member))

theorem stores_in_bounds_iff {bytes : Bytes} (received : bytes.length ≤ 4095) (stale : Bytes) (ptr : Nat) :
    StoresInBounds bytes stale ptr ↔ MessageFits ((bytes ++ 0 :: stale).drop ptr) := by
  have writes := @parse_writes_iff (bytes ++ 0 :: stale) _ ptr rfl
  constructor
  · exact fun within => writes.mp within.writes
  · intro fits
    refine ⟨writes.mpr fits, fun elements rest here oversize => ?_⟩
    have length := congrArg List.length here
    rw [List.length_append, List.length_drop] at length
    obtain ⟨tail, head⟩ := encode_head elements
    have some : 0 < (encode elements).length := by rw [head]; simp
    have behindNul : (bytes ++ 0 :: stale).drop ptr = encode elements ++ (rest ++ 0 :: stale) := by
      rw [List.drop_append_of_le_length (by omega), here, List.append_assoc]
    exact parse_oversize behindNul (by omega) oversize fits

instance (s : Bytes) : Decidable (CopyFits s) :=
  inferInstanceAs (Decidable ((lineOf s).length < 256 ∨ s.length ≤ 256))

instance (s : Bytes) : Decidable (Readable s) :=
  inferInstanceAs (Decidable ((lineOf s).length < 256 ∧ (lineOf s).length < s.length))

instance (s : Bytes) : Decidable (Refused s) :=
  inferInstanceAs (Decidable (getPrefix (lineOf s) = none ∨
    ((lineOf (behind s)).length : Int) ≠ atoi (lineOf s).tail))

instance decidableElementsFit : (remaining : Nat) → (read : List Bytes) → (s : Bytes) →
    Decidable (ElementsFit remaining read s)
  | 0, _, _ => .isTrue trivial
  | remaining + 1, read, s =>
    have := decidableElementsFit remaining (read ++ [lineOf (behind s)]) (behind (behind s))
    inferInstanceAs (Decidable (CopyFits s ∧ (Readable s → getPrefix (lineOf s) ≠ none →
      CopyFits (behind s) ∧ (Readable (behind s) → ¬ Refused s →
        (requestOf (read ++ [lineOf (behind s)])).args.length ≤ maxArgs ∧
          ElementsFit remaining (read ++ [lineOf (behind s)]) (behind (behind s))))))

instance (s : Bytes) : Decidable (MessageFits s) :=
  inferInstanceAs (Decidable (CopyFits s ∧ (Readable s → getPrefix (lineOf s) = some 42 →
    ElementsFit (atoi (lineOf s).tail).toNat [] (behind s))))

/-- RPUSH of fifteen values behind a PING: with the key they are sixteen arguments, and fill `args`. -/
theorem stores_in_bounds_fifteen :
    StoresInBounds (encode [lit "PING"] ++ encode (lit "RPUSH" :: lit "k" :: List.replicate 15 (lit "v"))) [97, 98]
      (encode [lit "PING"]).length :=
  (stores_in_bounds_iff (by decide +kernel) [97, 98] (encode [lit "PING"]).length).mpr (by decide +kernel)

/-- RPUSH of sixteen values, which are seventeen arguments. -/
def pushSixteen : Bytes := encode (lit "RPUSH" :: lit "k" :: List.replicate 16 (lit "v"))

/-- The last value is written to `args[16]`. -/
theorem args_overrun : ¬ ∀ (bytes stale : Bytes) (ptr : Nat), bytes.length ≤ 4095 → StoresInBounds bytes stale ptr := by
  intro within
  have writes := (within pushSixteen [] 0 (by decide +kernel)).writes
  exact absurd (show parse (pushSixteen ++ [0]) 0 = .error .outOfBounds by decide +kernel) writes

end RedisClone
