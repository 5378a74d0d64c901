import RedisClone.Verified.Received

/-! # What `parse` accepts

`IsArray` is the grammar of a request: the count, then for each string its length and its bytes,
every line ended by CR and LF.  `parse` asks of an element only that its line begins with one of the
five marks and that its string has the announced length; it skips two bytes behind every line without
a look at them.  `parseElements_ok_iff` and `parse_counted_iff` describe its results by the lines at the
pointer, and `parse_sound_iff` says for which bytes it takes exactly an array of the grammar or returns 1.
-/

namespace RedisClone

open CString

/-! ## Arrays of bulk strings -/

/-- Digits that stand for a number. -/
def IsNumber (text : Bytes) (n : Nat) : Prop :=
  text ≠ [] ∧ (∀ c ∈ text, isdigit c = true) ∧ digitsValue text = n

instance (text : Bytes) (n : Nat) : Decidable (IsNumber text n) :=
  inferInstanceAs (Decidable (text ≠ [] ∧ (∀ c ∈ text, isdigit c = true) ∧ digitsValue text = n))

/-- The bytes of these strings, each after its length. -/
def IsBulks : List Bytes → Bytes → Prop
  | [], bytes => bytes = []
  | payload :: payloads, bytes =>
    ∃ digits rest, IsNumber digits payload.length ∧
      bytes = (36 :: digits) ++ crlf ++ (payload ++ crlf ++ rest) ∧ IsBulks payloads rest

/-- The bytes of an array of these strings. -/
def IsArray (elements : List Bytes) (bytes : Bytes) : Prop :=
  elements ≠ [] ∧ ∃ digits rest, IsNumber digits elements.length ∧
    bytes = (42 :: digits) ++ crlf ++ rest ∧ IsBulks elements rest

/-- `parse` returns 1, or it takes exactly the bytes of an array and the request holds its strings. -/
def ParsesSoundly (memory : Bytes) (ptr : Nat) : Prop :=
  parse memory ptr = .ok none ∨
    ∃ elements message rest, IsArray elements message ∧ memory.drop ptr = message ++ rest ∧
      parse memory ptr = .ok (some (requestOf elements, ptr + message.length))

/-! ## The lines at the pointer -/

/-- The line at the head of the bytes has an end, and fits where `getLine` copies it. -/
def Readable (s : Bytes) : Prop := (lineOf s).length < 256 ∧ (lineOf s).length < s.length

/-- What follows the line and the two bytes that are skipped for its end. -/
def behind (s : Bytes) : Bytes := s.drop ((lineOf s).length + 2)

def EndsInCrlf (s : Bytes) : Prop := (s.drop (lineOf s).length).take 2 = crlf

/-- The line is a mark and a number, and ends as the protocol has it. -/
def Announces (s : Bytes) (mark : UInt8) (n : Nat) : Prop :=
  (lineOf s).head? = some mark ∧ IsNumber (lineOf s).tail n ∧ EndsInCrlf s

/-- The element at the head of the bytes has no prefix or not the announced length. -/
def Refused (s : Bytes) : Prop :=
  getPrefix (lineOf s) = none ∨ ((lineOf (behind s)).length : Int) ≠ atoi (lineOf s).tail

def SomeRefused : (remaining : Nat) → Bytes → Prop
  | 0, _ => False
  | remaining + 1, s => Refused s ∨ SomeRefused remaining (behind (behind s))

/-- Up to the first element that is refused, every line can be read and every string has a place. -/
def Fits : (remaining : Nat) → (read : List Bytes) → Bytes → Prop
  | 0, _, _ => True
  | remaining + 1, read, s =>
    Readable s ∧ (getPrefix (lineOf s) = none ∨
      Readable (behind s) ∧ (Refused s ∨
        (requestOf (read ++ [lineOf (behind s)])).args.length ≤ maxArgs ∧
          Fits remaining (read ++ [lineOf (behind s)]) (behind (behind s))))

/-- Every element is a bulk string of the grammar. -/
def InForm : (remaining : Nat) → Bytes → Prop
  | 0, _ => True
  | remaining + 1, s =>
    Announces s 36 (lineOf (behind s)).length ∧ EndsInCrlf (behind s) ∧
      InForm remaining (behind (behind s))

/-- The first line can be read, and it has no star, or it has a positive count and the elements are
given up at one that is refused or are all in form, behind a count in form. -/
def MessageInForm (s : Bytes) : Prop :=
  Readable s ∧ (getPrefix (lineOf s) ≠ some 42 ∨
    0 < atoi (lineOf s).tail ∧ Fits (atoi (lineOf s).tail).toNat [] (behind s) ∧
      (SomeRefused (atoi (lineOf s).tail).toNat (behind s) ∨
        Announces s 42 (atoi (lineOf s).tail).toNat ∧
          InForm (atoi (lineOf s).tail).toNat (behind s)))

/-- The strings that the loop stores. -/
def stringsOf : (remaining : Nat) → Bytes → List Bytes
  | 0, _ => []
  | remaining + 1, s => lineOf (behind s) :: stringsOf remaining (behind (behind s))

/-- The bytes that the loop passes. -/
def spanOf : (remaining : Nat) → Bytes → Nat
  | 0, _ => 0
  | remaining + 1, s =>
    (lineOf s).length + 2 + ((lineOf (behind s)).length + 2) + spanOf remaining (behind (behind s))

/-! ## Reading a line -/

theorem lineOf_append {line : Bytes} (plain : Plain line) {c : UInt8} (terminator : isText c = false)
    (rest : Bytes) : lineOf (line ++ c :: rest) = line := by
  rw [lineOf, List.takeWhile_append_of_pos plain]
  simp [terminator]

theorem line_split (s : Bytes) : lineOf s ++ s.drop (lineOf s).length = s := by
  rw [lineOf, drop_takeWhile_length]
  exact List.takeWhile_append_dropWhile

/-- A line ends at a terminator or with the bytes. -/
theorem line_cases (s : Bytes) :
    s = lineOf s ∨ ∃ c rest, s = lineOf s ++ c :: rest ∧ isText c = false := by
  cases after : s.drop (lineOf s).length with
  | nil => exact .inl (by simpa [after] using (line_split s).symm)
  | cons c rest =>
    have head := List.head?_dropWhile_not isText s
    rw [← drop_takeWhile_length, ← lineOf, after] at head
    exact .inr ⟨c, rest, by rw [← after, line_split], by simpa using head⟩

/-- A line without an end is read to the end of the memory, unless it fills the array before. -/
theorem getLineFrom_unended {line : Bytes} (plain : Plain line) (room : Nat) :
    getLineFrom room line = .error (if line.length ≤ room then .overread else .outOfBounds) := by
  induction line generalizing room with
  | nil => cases room <;> rfl
  | cons c line inductionHypothesis =>
    have text : isText c = true := plain c List.mem_cons_self
    have goes : ¬ (c = 13 ∨ c = 0) := fun stop => by simp [isText_eq_false.mpr stop] at text
    cases room with
    | zero => simp [getLineFrom, goes]
    | succ room =>
      have rest := inductionHypothesis (fun d member => plain d (List.mem_cons_of_mem _ member)) room
      simp [getLineFrom, goes, rest]

theorem getLine_readable {memory : Bytes} {ptr : Nat} (readable : Readable (memory.drop ptr)) :
    getLine memory ptr = .ok (lineOf (memory.drop ptr)) := by
  obtain whole | ⟨c, rest, split, terminator⟩ := line_cases (memory.drop ptr)
  · have := readable.2
    rw [← whole] at this
    omega
  · exact getLine_line (plain_takeWhile _) terminator readable.1 split

theorem getLine_unreadable {memory : Bytes} {ptr : Nat} (unreadable : ¬ Readable (memory.drop ptr)) :
    ∃ f, getLine memory ptr = .error f := by
  have plain : Plain (lineOf (memory.drop ptr)) := plain_takeWhile _
  obtain whole | ⟨c, rest, split, terminator⟩ := line_cases (memory.drop ptr)
  · rw [getLine, whole]
    exact ⟨_, getLineFrom_unended plain 256⟩
  · have long : ¬ (lineOf (memory.drop ptr)).length < 256 := by
      intro short
      have total := congrArg List.length split
      simp only [List.length_append, List.length_cons] at total
      exact unreadable ⟨short, by omega⟩
    rw [getLine, split, getLineFrom_line plain terminator, if_neg long]
    exact ⟨_, rfl⟩

theorem drop_behind {memory s : Bytes} {ptr : Nat} (here : memory.drop ptr = s) :
    memory.drop (ptr + (lineOf s).length + 2) = behind s := by
  rw [behind, ← here, List.drop_drop, Nat.add_assoc]

/-- A line, its end, and what follows. -/
theorem line_behind {s : Bytes} (ends : EndsInCrlf s) : s = lineOf s ++ crlf ++ behind s := by
  calc s = lineOf s ++ s.drop (lineOf s).length := (line_split s).symm
    _ = lineOf s ++ ((s.drop (lineOf s).length).take 2 ++ (s.drop (lineOf s).length).drop 2) := by
        rw [List.take_append_drop]
    _ = lineOf s ++ crlf ++ behind s := by rw [ends, List.drop_drop, List.append_assoc, behind]

/-- A line that ends in CR and LF is found again. -/
theorem line_of_crlf {line rest : Bytes} (plain : Plain line) :
    lineOf (line ++ crlf ++ rest) = line ∧ behind (line ++ crlf ++ rest) = rest ∧
      EndsInCrlf (line ++ crlf ++ rest) := by
  have same : lineOf (line ++ crlf ++ rest) = line := by
    rw [List.append_assoc]
    exact lineOf_append plain (show isText 13 = false from rfl) (10 :: rest)
  unfold behind EndsInCrlf
  rw [same]
  refine ⟨rfl, ?_, ?_⟩
  · have lengths : line.length + 2 = (line ++ crlf).length := by simp [crlf]
    rw [lengths, List.drop_left]
  · rw [List.append_assoc, List.drop_left]
    rfl

/-! ## Storing the strings -/

theorem storeAll_append (i : Nat) (partialReq : PartialRequest) (front back : List Bytes) :
    partialReq.storeAll i (front ++ back) =
      match partialReq.storeAll i front with
      | .ok stored => stored.storeAll (i + front.length) back
      | .error f => .error f := by
  induction front generalizing i partialReq with
  | nil => rfl
  | cons element front inductionHypothesis =>
    rw [List.cons_append, PartialRequest.storeAll, PartialRequest.storeAll]
    cases partialReq.store i element with
    | error f => rfl
    | ok stored =>
      simp only
      rw [inductionHypothesis, List.length_cons, show i + 1 + front.length = i + (front.length + 1) by omega]

/-- Storing one more string. -/
theorem store_after {partialReq : PartialRequest} {read : List Bytes}
    (holds : PartialRequest.storeAll 0 {} read = .ok partialReq) (line : Bytes) :
    partialReq.store read.length line = PartialRequest.storeAll 0 {} (read ++ [line]) := by
  rw [storeAll_append, holds, Nat.zero_add]
  simp only [PartialRequest.storeAll]
  cases partialReq.store read.length line <;> rfl

/-- Strings after the ones that name the command have places as long as there are arguments left. -/
theorem storeAll_args_eq {i : Nat} (afterName : i ≠ 0) (partialReq : PartialRequest)
    (afterSubCmd : ¬ (i = 1 ∧ partialReq.isConfig)) (within : partialReq.args.length ≤ maxArgs)
    (args : List Bytes) :
    partialReq.storeAll i args =
      if partialReq.args.length + args.length ≤ maxArgs then
        .ok { partialReq with args := partialReq.args ++ args }
      else .error .outOfBounds := by
  split
  · exact storeAll_args afterName partialReq afterSubCmd ‹_›
  · rename_i full
    induction args generalizing i partialReq with
    | nil => simp only [List.length_nil] at full; omega
    | cons arg args inductionHypothesis =>
      rw [List.length_cons] at full
      rw [PartialRequest.storeAll, PartialRequest.store, if_neg afterName, if_neg afterSubCmd]
      by_cases room : partialReq.args.length < maxArgs
      · rw [if_pos room]
        simp only
        exact inductionHypothesis (by omega) _ (by omega) (by simp; omega) (by simp; omega)
      · rw [if_neg room]

/-- What the loop has filled after these strings. -/
def filledBy : List Bytes → PartialRequest
  | [] => {}
  | name :: rest =>
    if upper name = lit "CONFIG" then
      match rest with
      | [] => ⟨.unknown, true, []⟩
      | subCmd :: args => ⟨findConfigCmd subCmd, true, args⟩
    else ⟨findRedisCmd name, false, rest⟩

theorem filledBy_finish {elements : List Bytes} (nonempty : elements ≠ []) :
    (filledBy elements).finish = requestOf elements := by
  obtain ⟨name, rest, rfl⟩ := List.exists_cons_of_ne_nil nonempty
  by_cases isConfig : upper name = lit "CONFIG"
  · cases rest with
    | nil => simp only [filledBy, requestOf, if_pos isConfig, PartialRequest.finish]
    | cons subCmd args => simp only [filledBy, requestOf, if_pos isConfig]
  · simp only [filledBy, requestOf, if_neg isConfig]

theorem length_filledBy (elements : List Bytes) :
    elements.length ≤ (filledBy elements).args.length + 2 := by
  cases elements with
  | nil => exact Nat.zero_le _
  | cons name rest =>
    by_cases isConfig : upper name = lit "CONFIG"
    · cases rest with
      | nil => simp [filledBy, isConfig]
      | cons subCmd args => simp [filledBy, isConfig]
    · simp [filledBy, isConfig]

/-- The loop stores strings while the request has a place for each. -/
theorem storeAll_eq (elements : List Bytes) :
    PartialRequest.storeAll 0 {} elements =
      if (filledBy elements).args.length ≤ maxArgs then .ok (filledBy elements)
      else .error .outOfBounds := by
  cases elements with
  | nil => rfl
  | cons name rest =>
    rw [PartialRequest.storeAll, PartialRequest.store, if_pos rfl]
    by_cases isConfig : upper name = lit "CONFIG"
    · rw [if_pos isConfig]
      cases rest with
      | nil => simp [filledBy, isConfig, PartialRequest.storeAll]
      | cons subCmd args =>
        have named : PartialRequest.store ⟨.unknown, true, []⟩ 1 subCmd =
            .ok ⟨findConfigCmd subCmd, true, []⟩ := by
          rw [PartialRequest.store, if_neg (by decide), if_pos ⟨rfl, rfl⟩]
        simp only [PartialRequest.storeAll, named, filledBy, if_pos isConfig]
        rw [storeAll_args_eq (by decide) _ (by simp) (Nat.zero_le _)]
        simp
    · rw [if_neg isConfig]
      simp only [filledBy, if_neg isConfig]
      rw [storeAll_args_eq (by decide) _ (by simp) (Nat.zero_le _)]
      simp

theorem storeAll_within {elements : List Bytes} (within : (filledBy elements).args.length ≤ maxArgs) :
    PartialRequest.storeAll 0 {} elements = .ok (filledBy elements) := by
  rw [storeAll_eq, if_pos within]

/-! ## What `parse` returns -/

/-- The loop returns 1 at an element that is refused. -/
theorem parseElements_refused {memory s : Bytes} {ptr remaining i : Nat} {partialReq : PartialRequest}
    (here : memory.drop ptr = s) (readable : Readable s)
    (refused : getPrefix (lineOf s) = none ∨ Readable (behind s) ∧ Refused s) :
    parseElements memory (remaining + 1) i partialReq ptr = .ok none := by
  have announced := getLine_readable (here ▸ readable)
  rw [here] at announced
  simp only [parseElements, announced]
  by_cases unprefixed : getPrefix (lineOf s) = none
  · rw [if_pos unprefixed]
  · obtain ⟨valueReadable, none | mismatch⟩ := refused.resolve_left unprefixed
    · exact absurd none unprefixed
    · have value := getLine_readable ((drop_behind here).symm ▸ valueReadable)
      rw [drop_behind here] at value
      rw [if_neg unprefixed, value]
      simp only [if_pos mismatch]

/-- An element that passes is stored where the request has a place for it. -/
theorem parseElements_passes {memory s : Bytes} {ptr remaining : Nat} {read : List Bytes}
    (within : (filledBy read).args.length ≤ maxArgs) (here : memory.drop ptr = s) (readable : Readable s)
    (valueReadable : Readable (behind s)) (passes : ¬ Refused s) :
    parseElements memory (remaining + 1) read.length (filledBy read) ptr =
      if (filledBy (read ++ [lineOf (behind s)])).args.length ≤ maxArgs then
        parseElements memory remaining (read ++ [lineOf (behind s)]).length (filledBy (read ++ [lineOf (behind s)]))
          (ptr + (lineOf s).length + 2 + (lineOf (behind s)).length + 2)
      else .error .outOfBounds := by
  obtain ⟨prefixed, same⟩ := not_or.mp passes
  have announced := getLine_readable (here ▸ readable)
  have value := getLine_readable ((drop_behind here).symm ▸ valueReadable)
  rw [here] at announced
  rw [drop_behind here] at value
  have stores := store_after (storeAll_within within) (lineOf (behind s))
  rw [storeAll_eq] at stores
  simp only [parseElements, announced, if_neg prefixed, value, if_neg same, stores]
  by_cases room : (filledBy (read ++ [lineOf (behind s)])).args.length ≤ maxArgs
  · simp only [if_pos room, List.length_append, List.length_singleton]
  · simp only [if_neg room]

theorem args_requestOf (read : List Bytes) (line : Bytes) :
    (requestOf (read ++ [line])).args = (filledBy (read ++ [line])).args := by
  rw [← filledBy_finish (by simp)]
  rfl

/-- The loop returns 1 at the first element that is refused, or stores all strings and passes all bytes. -/
theorem parseElements_ok_iff {memory : Bytes} {ptr remaining : Nat} {read : List Bytes}
    (within : (filledBy read).args.length ≤ maxArgs) {result : Option (PartialRequest × Nat)} :
    parseElements memory remaining read.length (filledBy read) ptr = .ok result ↔
      Fits remaining read (memory.drop ptr) ∧
        ((SomeRefused remaining (memory.drop ptr) ∧ result = none) ∨
          (¬ SomeRefused remaining (memory.drop ptr) ∧
            result = some (filledBy (read ++ stringsOf remaining (memory.drop ptr)),
              ptr + spanOf remaining (memory.drop ptr)))) := by
  induction remaining generalizing read ptr with
  | zero => simp [parseElements, Fits, SomeRefused, stringsOf, spanOf, eq_comm]
  | succ remaining inductionHypothesis =>
    obtain ⟨s, here⟩ : ∃ s, memory.drop ptr = s := ⟨_, rfl⟩
    rw [here, Fits, SomeRefused, stringsOf, spanOf]
    by_cases readable : Readable s
    swap
    · obtain ⟨f, failed⟩ := getLine_unreadable (here ▸ readable)
      simp [parseElements, failed, readable]
    by_cases unprefixed : getPrefix (lineOf s) = none
    · have refused : Refused s := .inl unprefixed
      rw [parseElements_refused here readable (.inl unprefixed)]
      simp [readable, unprefixed, refused, eq_comm]
    by_cases valueReadable : Readable (behind s)
    swap
    · have announced := getLine_readable (here ▸ readable)
      obtain ⟨f, failed⟩ := getLine_unreadable ((drop_behind here).symm ▸ valueReadable)
      rw [here] at announced
      simp [parseElements, announced, failed, unprefixed, valueReadable]
    by_cases refused : Refused s
    · rw [parseElements_refused here readable (.inr ⟨valueReadable, refused⟩)]
      simp [readable, valueReadable, refused, eq_comm]
    rw [parseElements_passes within here readable valueReadable refused, args_requestOf]
    by_cases room : (filledBy (read ++ [lineOf (behind s)])).args.length ≤ maxArgs
    · have afterwards := @inductionHypothesis (ptr + (lineOf s).length + 2 + (lineOf (behind s)).length + 2) _ room
      rw [drop_behind (drop_behind here)] at afterwards
      rw [if_pos room]
      simp only [afterwards, readable, valueReadable, unprefixed, refused, room, true_and, false_or,
        List.append_assoc, List.singleton_append]
      simp only [Nat.add_assoc]
    · rw [if_neg room]
      simp [room, refused, unprefixed]

theorem readable_of_parse {memory : Bytes} {ptr : Nat} {result : Option (RespRequest × Nat)}
    (parsed : parse memory ptr = .ok result) : Readable (memory.drop ptr) := by
  by_contra unreadable
  obtain ⟨f, failed⟩ := getLine_unreadable unreadable
  rw [parse, failed] at parsed
  simp at parsed

theorem parse_starless {memory : Bytes} {ptr : Nat} (readable : Readable (memory.drop ptr))
    (starless : getPrefix (lineOf (memory.drop ptr)) ≠ some 42) : parse memory ptr = .ok none := by
  rw [parse, getLine_readable readable]
  simp only [if_pos starless]

theorem parse_uncounted {memory s : Bytes} {ptr : Nat} (here : memory.drop ptr = s) (readable : Readable s)
    (star : getPrefix (lineOf s) = some 42) (empty : atoi (lineOf s).tail ≤ 0) :
    parse memory ptr =
      if atoi (lineOf s).tail = -2 ^ 31 then .error .overflow
      else .ok (some (emptyRequest _ empty, ptr + (lineOf s).length + 2)) := by
  have announced := getLine_readable (here ▸ readable)
  rw [here] at announced
  rw [parse, announced]
  simp only [star, ne_eq, not_true_eq_false, if_false, dif_pos empty]

/-- A message with a positive count is given up at its first refused element, or taken whole. -/
theorem parse_counted_iff {memory s : Bytes} {ptr : Nat} (here : memory.drop ptr = s) (readable : Readable s)
    (star : getPrefix (lineOf s) = some 42) (positive : 0 < atoi (lineOf s).tail)
    {result : Option (RespRequest × Nat)} :
    parse memory ptr = .ok result ↔
      Fits (atoi (lineOf s).tail).toNat [] (behind s) ∧
        ((SomeRefused (atoi (lineOf s).tail).toNat (behind s) ∧ result = none) ∨
          (¬ SomeRefused (atoi (lineOf s).tail).toNat (behind s) ∧
            result = some (requestOf (stringsOf (atoi (lineOf s).tail).toNat (behind s)),
              ptr + (lineOf s).length + 2 + spanOf (atoi (lineOf s).tail).toNat (behind s)))) := by
  have announced := getLine_readable (here ▸ readable)
  rw [here] at announced
  obtain ⟨count, isCount⟩ : ∃ count, (atoi (lineOf s).tail).toNat = count + 1 :=
    Nat.exists_eq_succ_of_ne_zero (by omega)
  have elements (found : Option (PartialRequest × Nat)) :=
    @parseElements_ok_iff memory (ptr + (lineOf s).length + 2) (count + 1) [] (Nat.zero_le _) found
  rw [drop_behind here] at elements
  have filled : (filledBy (stringsOf (count + 1) (behind s))).finish =
      requestOf (stringsOf (count + 1) (behind s)) :=
    filledBy_finish (by rw [stringsOf]; exact List.cons_ne_nil _ _)
  simp only [List.length_nil, show filledBy [] = {} from rfl, List.nil_append] at elements
  rw [parse, announced]
  simp only [star, ne_eq, not_true_eq_false, if_false, dif_neg (Int.not_le.mpr positive), isCount]
  cases parsed : parseElements memory (count + 1) 0 {} (ptr + (lineOf s).length + 2) with
  | error f =>
    simp only [parsed, reduceCtorEq, false_iff] at elements ⊢
    rintro ⟨fits, ⟨refused, _⟩ | ⟨passes, _⟩⟩
    · exact elements none ⟨fits, .inl ⟨refused, rfl⟩⟩
    · exact elements _ ⟨fits, .inr ⟨passes, rfl⟩⟩
  | ok found =>
    obtain ⟨fits, ⟨refused, same⟩ | ⟨passes, same⟩⟩ := (elements found).mp parsed
    · subst same
      simp [fits, refused, eq_comm]
    · subst same
      simp [fits, passes, filled, eq_comm]

/-! ## The grammar and the lines -/

theorem atoi_number {text : Bytes} {n : Nat} (number : IsNumber text n) (small : n < 2 ^ 31) :
    atoi text = n := by
  obtain ⟨nonempty, isDigits, value⟩ := number
  have scanned := @scanInteger_digits text [] isDigits nonempty (by simp)
  rw [List.append_nil, value, saturate64_of_range (by omega) (by omega)] at scanned
  simp only [atoi, atoll, scanned, Option.elim_some, toInt32]
  omega

theorem plain_number {text : Bytes} {n : Nat} (number : IsNumber text n) {mark : UInt8}
    (printed : isText mark = true) : Plain (mark :: text) := by
  intro c member
  obtain same | member := List.mem_cons.mp member
  · exact same ▸ printed
  · have digit := number.2.1 c member
    by_contra stop
    obtain same | same := isText_eq_false.mp (by simpa using stop)
    · exact absurd (same ▸ digit) (by decide)
    · exact absurd (same ▸ digit) (by decide)

theorem length_stringsOf (remaining : Nat) (s : Bytes) : (stringsOf remaining s).length = remaining := by
  induction remaining generalizing s with
  | zero => rfl
  | succ remaining inductionHypothesis => rw [stringsOf, List.length_cons, inductionHypothesis]

/-- Lines in form are the bulk strings of what they hold. -/
theorem bulks_of_inForm {remaining : Nat} {s : Bytes} (inForm : InForm remaining s) :
    ∃ bytes rest, s = bytes ++ rest ∧ bytes.length = spanOf remaining s ∧
      IsBulks (stringsOf remaining s) bytes := by
  induction remaining generalizing s with
  | zero => exact ⟨[], s, rfl, rfl, rfl⟩
  | succ remaining inductionHypothesis =>
    obtain ⟨⟨mark, number, ends⟩, valueEnds, others⟩ := inForm
    obtain ⟨bytes, rest, split, length, bulks⟩ := inductionHypothesis others
    obtain ⟨digits, line⟩ : ∃ digits, lineOf s = 36 :: digits := List.head?_eq_some_iff.mp mark
    have announced := line_behind ends
    have value := line_behind valueEnds
    rw [line, List.tail_cons] at number
    refine ⟨(36 :: digits) ++ crlf ++ (lineOf (behind s) ++ crlf ++ bytes), rest, ?_, ?_, ?_⟩
    · rw [← line]
      conv_lhs => rw [announced, value, split]
      simp only [List.append_assoc]
    · simp only [spanOf, line, List.length_append, crlf, List.length_cons, List.length_nil, length]
      omega
    · exact ⟨digits, bytes, number, rfl, bulks⟩

/-- Bulk strings that the loop does not refuse are lines in form. -/
theorem inForm_of_bulks {elements : List Bytes} {bytes rest : Bytes} (bulks : IsBulks elements bytes)
    (small : bytes.length < 2 ^ 31) (passes : ¬ SomeRefused elements.length (bytes ++ rest)) :
    InForm elements.length (bytes ++ rest) := by
  induction elements generalizing bytes with
  | nil => trivial
  | cons payload payloads inductionHypothesis =>
    obtain ⟨digits, others, number, same, otherBulks⟩ := bulks
    obtain ⟨s, isS⟩ : ∃ s, bytes ++ rest = s := ⟨_, rfl⟩
    have whole : s = (36 :: digits) ++ crlf ++ (payload ++ crlf ++ (others ++ rest)) := by
      rw [← isS, same]
      simp only [List.append_assoc]
    obtain ⟨line, behindLine, ends⟩ := @line_of_crlf _ (payload ++ crlf ++ (others ++ rest))
      (plain_number number (show isText 36 = true from rfl))
    rw [← whole] at line behindLine ends
    have lengths := congrArg List.length same
    simp only [List.length_append, crlf, List.length_cons, List.length_nil] at lengths
    rw [isS, List.length_cons, SomeRefused, not_or] at passes
    have announcedLength : ((lineOf (behind s)).length : Int) = atoi (lineOf s).tail := by
      by_contra mismatch
      exact passes.1 (.inr mismatch)
    rw [line, List.tail_cons, atoi_number number (by omega)] at announcedLength
    -- the loop read the whole payload, so no byte of it ends the line
    have payloadLine : lineOf (behind s) = payload := by
      have front := line_split (behind s)
      conv_rhs at front => rw [behindLine, List.append_assoc]
      exact (List.append_inj front (by omega)).1
    have plain : Plain payload := payloadLine ▸ plain_takeWhile (behind s)
    obtain ⟨_, behindValue, valueEnds⟩ := @line_of_crlf _ (others ++ rest) plain
    rw [← behindLine] at behindValue valueEnds
    rw [isS]
    refine ⟨⟨by rw [line]; rfl, ?_, ends⟩, valueEnds, ?_⟩
    · rw [line, payloadLine]
      exact number
    · rw [behindValue] at passes ⊢
      exact inductionHypothesis otherBulks (by omega) passes.2

/-! ## Soundness -/

/-- The loop passes few bytes, because the strings that it stores have places. -/
theorem span_le {remaining : Nat} {read : List Bytes} {s : Bytes} (fits : Fits remaining read s)
    (passes : ¬ SomeRefused remaining s) :
    spanOf remaining s ≤ 514 * remaining ∧
      (remaining = 0 ∨ (requestOf (read ++ stringsOf remaining s)).args.length ≤ maxArgs) := by
  induction remaining generalizing read s with
  | zero => exact ⟨Nat.zero_le _, .inl rfl⟩
  | succ remaining inductionHypothesis =>
    rw [SomeRefused, not_or] at passes
    obtain ⟨readable, unprefixed | ⟨valueReadable, refused | ⟨room, others⟩⟩⟩ := fits
    · exact absurd (.inl unprefixed) passes.1
    · exact absurd refused passes.1
    · obtain ⟨short, places⟩ := inductionHypothesis others passes.2
      have := readable.1
      have := valueReadable.1
      refine ⟨by rw [spanOf]; omega, .inr ?_⟩
      rw [stringsOf]
      cases remaining with
      | zero => exact room
      | succ remaining =>
        rw [List.append_assoc, List.singleton_append] at places
        exact places.resolve_left (Nat.succ_ne_zero _)

theorem length_le_of_args (elements : List Bytes) : elements.length ≤ (requestOf elements).args.length + 2 := by
  cases elements with
  | nil => exact Nat.zero_le _
  | cons name rest =>
    rw [← filledBy_finish (List.cons_ne_nil name rest)]
    exact length_filledBy (name :: rest)

theorem length_le_of_bulks {elements : List Bytes} {bytes : Bytes} (bulks : IsBulks elements bytes) :
    elements.length ≤ bytes.length := by
  induction elements generalizing bytes with
  | nil => exact Nat.zero_le _
  | cons payload payloads inductionHypothesis =>
    obtain ⟨digits, others, _, same, otherBulks⟩ := bulks
    have := inductionHypothesis otherBulks
    rw [same]
    simp only [List.length_append, List.length_cons]
    omega

/-- What `parse` accepts of bytes in form is an array. -/
theorem parsesSoundly_of_inForm {memory : Bytes} {ptr : Nat} (inForm : MessageInForm (memory.drop ptr)) :
    ParsesSoundly memory ptr := by
  obtain ⟨s, here⟩ : ∃ s, memory.drop ptr = s := ⟨_, rfl⟩
  rw [here] at inForm
  obtain ⟨readable, starless | ⟨positive, fits, formed⟩⟩ := inForm
  · exact .inl (parse_starless (here ▸ readable) (here ▸ starless))
  by_cases star : getPrefix (lineOf s) = some 42
  swap
  · exact .inl (parse_starless (here ▸ readable) (here ▸ star))
  have parsed (result : Option (RespRequest × Nat)) :=
    @parse_counted_iff memory s ptr here readable star positive result
  by_cases refused : SomeRefused (atoi (lineOf s).tail).toNat (behind s)
  · exact .inl ((parsed none).mpr ⟨fits, .inl ⟨refused, rfl⟩⟩)
  obtain ⟨announced, elements⟩ := formed.resolve_left refused
  obtain ⟨digits, line⟩ : ∃ digits, lineOf s = 42 :: digits := List.head?_eq_some_iff.mp announced.1
  obtain ⟨bytes, rest, split, length, bulks⟩ := bulks_of_inForm elements
  have strings := length_stringsOf (atoi (lineOf s).tail).toNat (behind s)
  refine .inr ⟨stringsOf (atoi (lineOf s).tail).toNat (behind s), lineOf s ++ crlf ++ bytes, rest, ?_, ?_, ?_⟩
  · refine ⟨fun none => ?_, digits, bytes, ?_, by rw [line], bulks⟩
    · rw [none, List.length_nil] at strings
      omega
    · rw [strings]
      have number := announced.2.1
      rwa [line] at number ⊢
  · rw [here]
    conv_lhs => rw [line_behind announced.2.2, split]
    simp only [List.append_assoc]
  · rw [(parsed _).mpr ⟨fits, .inr ⟨refused, rfl⟩⟩]
    have taken : (lineOf s ++ crlf ++ bytes).length =
        (lineOf s).length + 2 + spanOf (atoi (lineOf s).tail).toNat (behind s) := by
      simp only [List.length_append, crlf, List.length_cons, List.length_nil, length]
    rw [taken, Nat.add_assoc, Nat.add_assoc, Nat.add_assoc]

/-- Bytes that `parse` treats soundly are in form. -/
theorem inForm_of_parsesSoundly {memory : Bytes} {ptr : Nat} (sound : ParsesSoundly memory ptr) :
    MessageInForm (memory.drop ptr) := by
  obtain ⟨s, here⟩ : ∃ s, memory.drop ptr = s := ⟨_, rfl⟩
  rw [here]
  have readable : Readable s := by
    obtain rejected | ⟨_, _, _, _, _, accepted⟩ := sound
    · exact here ▸ readable_of_parse rejected
    · exact here ▸ readable_of_parse accepted
  refine ⟨readable, ?_⟩
  by_cases star : getPrefix (lineOf s) = some 42
  swap
  · exact .inl star
  right
  obtain rejected | ⟨elements, message, rest, isArray, split, accepted⟩ := sound
  · have positive : 0 < atoi (lineOf s).tail := by
      by_contra empty
      rw [parse_uncounted here readable star (Int.not_lt.mp empty)] at rejected
      split at rejected <;> simp at rejected
    obtain ⟨fits, ⟨refused, _⟩ | ⟨_, impossible⟩⟩ := (parse_counted_iff here readable star positive).mp rejected
    · exact ⟨positive, fits, .inl refused⟩
    · simp at impossible
  obtain ⟨nonempty, digits, others, number, same, bulks⟩ := isArray
  obtain ⟨line, behindLine, ends⟩ := @line_of_crlf _ (others ++ rest)
    (plain_number number (show isText 42 = true from rfl))
  have whole : s = (42 :: digits) ++ crlf ++ (others ++ rest) := by
    rw [← here, split, same]
    simp only [List.append_assoc]
  rw [← whole] at line behindLine ends
  have lengths : message.length = (lineOf s).length + 2 + others.length := by
    rw [same, line]
    simp only [List.length_append, crlf, List.length_cons, List.length_nil]
  have few := length_le_of_bulks bulks
  have some_element := List.length_pos_iff.mpr nonempty
  have positive : 0 < atoi (lineOf s).tail := by
    -- a count that is not positive takes the first line alone
    by_contra empty
    rw [parse_uncounted here readable star (Int.not_lt.mp empty)] at accepted
    split at accepted
    · simp at accepted
    · simp only [Except.ok.injEq, Option.some.injEq, Prod.mk.injEq] at accepted
      omega
  obtain ⟨fits, ⟨_, impossible⟩ | ⟨passes, taken⟩⟩ := (parse_counted_iff here readable star positive).mp accepted
  · simp at impossible
  refine ⟨positive, fits, .inr ?_⟩
  obtain ⟨passed, places⟩ := span_le fits passes
  have count := length_le_of_args (stringsOf (atoi (lineOf s).tail).toNat (behind s))
  rw [length_stringsOf] at count
  simp only [List.nil_append, maxArgs] at places
  simp only [Option.some.injEq, Prod.mk.injEq] at taken
  have := readable.1
  have counted : atoi (lineOf s).tail = elements.length := by
    rw [line, List.tail_cons]
    exact atoi_number number (by omega)
  rw [counted, Int.toNat_natCast, behindLine] at passes ⊢
  refine ⟨⟨by rw [line]; rfl, ?_, ends⟩, inForm_of_bulks bulks (by omega) passes⟩
  rw [line]
  exact number

/-- `parse` returns 1 or takes exactly an array of bulk strings, if and only if the bytes at the pointer
are in form. -/
theorem parse_sound_iff (memory : Bytes) (ptr : Nat) :
    ParsesSoundly memory ptr ↔ MessageInForm (memory.drop ptr) :=
  ⟨inForm_of_parsesSoundly, parsesSoundly_of_inForm⟩

/-- An element that is marked as a simple string. -/
def plusMessage : Bytes := lit "*1\r\n+4\r\nPING\r\n"

/-- `parse` takes a message that is no array of bulk strings. -/
theorem parse_accepts_plus : ¬ ∀ bytes stale : Bytes, ParsesSoundly (bytes ++ 0 :: stale) 0 := by
  intro sound
  have star : getPrefix (lineOf (plusMessage ++ [0])) = some 42 := by decide
  have count : (atoi (lineOf (plusMessage ++ [0])).tail).toNat = 1 := by decide +kernel
  have marked : (lineOf (behind (plusMessage ++ [0]))).head? ≠ some 36 := by decide +kernel
  obtain ⟨_, starless | ⟨_, _, formed⟩⟩ := inForm_of_parsesSoundly (sound plusMessage [])
  · exact starless star
  rw [List.drop_zero, count] at formed
  obtain (refused | ended) | ⟨_, ⟨mark, _⟩, _⟩ := formed
  · obtain unprefixed | mismatch := refused
    · exact absurd unprefixed (by decide +kernel)
    · exact mismatch (by decide +kernel)
  · exact ended
  · exact marked mark

end RedisClone
