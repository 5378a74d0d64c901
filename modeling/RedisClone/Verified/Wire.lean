import RedisClone.Parser

/-! # Reading back encoded requests

`encode` is the RESP array of a request.  Where the bytes at the pointer are such an array, `parse`
returns exactly the request and moves the pointer behind the array, unless a payload holds a CR or a
NUL: `getLine` stops inside that payload, the length test fails, and `parse` rejects the message.
`parseElements_stored` and `parseElements_split` are the two inductions over the elements.
-/

namespace RedisClone

open CString

/-! ## Lines -/

/-- A byte that `getLine` copies. -/
def isText (c : UInt8) : Bool := c ≠ 13 && c ≠ 0

/-- Bytes that one line can hold. -/
def Plain (s : Bytes) : Prop := ∀ c ∈ s, isText c = true

instance (s : Bytes) : Decidable (Plain s) := inferInstanceAs (Decidable (∀ c ∈ s, isText c = true))

theorem isText_eq_false {c : UInt8} : isText c = false ↔ c = 13 ∨ c = 0 := by
  by_cases cr : c = 13
  · simp [isText, cr]
  · by_cases nul : c = 0 <;> simp [isText, cr, nul]

theorem plain_append {s t : Bytes} : Plain (s ++ t) ↔ Plain s ∧ Plain t := by
  simp only [Plain, List.mem_append]
  exact ⟨fun h => ⟨fun c member => h c (.inl member), fun c member => h c (.inr member)⟩,
    fun h c member => member.elim (h.1 c) (h.2 c)⟩

theorem plain_decimal (n : Nat) : Plain (decimal n) := by
  intro c member
  have := decimal_no_terminator member
  simp [isText, this.1, this.2]

theorem plain_takeWhile (s : Bytes) : Plain (s.takeWhile isText) :=
  List.all_eq_true.mp List.all_takeWhile

/-- Bytes that are not one line split at their first terminator. -/
theorem split_at_terminator {s : Bytes} (broken : ¬ Plain s) :
    ∃ line c rest, s = line ++ c :: rest ∧ Plain line ∧ isText c = false := by
  have split : s.takeWhile isText ++ s.dropWhile isText = s := List.takeWhile_append_dropWhile
  cases after : s.dropWhile isText with
  | nil =>
    rw [after, List.append_nil] at split
    exact absurd (split ▸ plain_takeWhile s) broken
  | cons c rest =>
    have head := List.head?_dropWhile_not isText s
    rw [after] at head
    refine ⟨s.takeWhile isText, c, rest, by rw [← after, split], plain_takeWhile s, ?_⟩
    simpa using head

/-- Text up to a terminator is one line, if it fits. -/
theorem getLineFrom_line {line : Bytes} (plain : Plain line) {c : UInt8}
    (terminator : isText c = false) (rest : Bytes) (room : Nat) :
    getLineFrom room (line ++ c :: rest) =
      if line.length < room then .ok line else .error .outOfBounds := by
  induction line generalizing room with
  | nil =>
    have stop : c = 13 ∨ c = 0 := isText_eq_false.mp terminator
    cases room with
    | zero => simp [getLineFrom, stop]
    | succ room => simp [getLineFrom, stop]
  | cons d line inductionHypothesis =>
    have text : isText d = true := plain d List.mem_cons_self
    have goes : ¬ (d = 13 ∨ d = 0) := fun stop => by simp [isText_eq_false.mpr stop] at text
    have tail : Plain line := fun e member => plain e (List.mem_cons_of_mem _ member)
    cases room with
    | zero => simp [getLineFrom, goes]
    | succ room =>
      rw [List.cons_append, getLineFrom, if_neg goes, inductionHypothesis tail]
      simp only [List.length_cons, Nat.add_lt_add_iff_right]
      by_cases fits : line.length < room <;> simp [fits]

theorem getLine_line {memory line rest : Bytes} {ptr : Nat} {c : UInt8} (plain : Plain line)
    (terminator : isText c = false) (short : line.length < 256)
    (here : memory.drop ptr = line ++ c :: rest) : getLine memory ptr = .ok line := by
  rw [getLine, here, getLineFrom_line plain terminator, if_pos short]

theorem drop_add_of_drop {memory front rest : Bytes} {ptr : Nat}
    (here : memory.drop ptr = front ++ rest) : memory.drop (ptr + front.length) = rest := by
  rw [← List.drop_drop, here, List.drop_left]

/-! ## Bulk strings -/

/-- The line that announces a string of length `n`. -/
def lenLine (n : Nat) : Bytes := 36 :: decimal n

theorem bulk_eq (s : Bytes) : bulk s = lenLine s.length ++ crlf ++ (s ++ crlf) := by
  simp [bulk, lenLine, show lit "$" = [36] from rfl]

theorem plain_lenLine (n : Nat) : Plain (lenLine n) := by
  intro c member
  obtain same | member := List.mem_cons.mp member
  · subst same; rfl
  · exact plain_decimal n c member

theorem getPrefix_lenLine (n : Nat) : getPrefix (lenLine n) = some 36 := rfl

theorem length_decimal_le {n : Nat} (small : n < 10 ^ 9) : (decimal n).length ≤ 9 := by
  rw [decimal, List.length_map]
  exact (Nat.length_toDigits_le_iff (by decide) (by decide)).mpr small

theorem length_lenLine_lt {n : Nat} (small : n < 10 ^ 9) : (lenLine n).length < 256 := by
  have := length_decimal_le small
  simp only [lenLine, List.length_cons]
  omega

theorem atoi_lenLine {n : Nat} (small : n < 10 ^ 9) : atoi (lenLine n).tail = n := by
  have value : atoi (decimal n ++ []) = n := atoi_decimal (by omega) (by simp)
  rwa [List.append_nil] at value

/-! ## Elements -/

/-- The strings of the elements `i, i + 1, …`, stored one after another. -/
def PartialRequest.storeAll (i : Nat) (partialReq : PartialRequest) :
    List Bytes → Except Fault PartialRequest
  | [] => .ok partialReq
  | element :: elements =>
    match partialReq.store i element with
    | .ok stored => storeAll (i + 1) stored elements
    | .error f => .error f

/-- One element that `getLine` reads whole; only the first byte of its end is looked at. -/
theorem parseElements_ended {memory element rest : Bytes} {ptr : Nat} {c : UInt8} (plain : Plain element)
    (short : element.length < 256) (terminator : isText c = false)
    (here : memory.drop ptr = lenLine element.length ++ crlf ++ (element ++ c :: rest))
    (remaining i : Nat) (partialReq : PartialRequest) :
    parseElements memory (remaining + 1) i partialReq ptr =
      match partialReq.store i element with
      | .ok stored => parseElements memory remaining (i + 1) stored (ptr + (bulk element).length)
      | .error f => .error f := by
  have small : element.length < 10 ^ 9 := by omega
  rw [List.append_assoc] at here
  have announced : getLine memory ptr = .ok (lenLine element.length) :=
    getLine_line (plain_lenLine _) rfl (length_lenLine_lt small) here
  have value := drop_add_of_drop (drop_add_of_drop here)
  have read : getLine memory (ptr + (lenLine element.length).length + 2) = .ok element :=
    getLine_line plain terminator short value
  rw [parseElements, announced]
  simp only [getPrefix_lenLine, reduceCtorEq, if_false, read, atoi_lenLine small, ne_eq,
    not_true_eq_false]
  have next : ptr + (lenLine element.length).length + 2 + element.length + 2 =
      ptr + (bulk element).length := by
    rw [bulk_eq]
    simp only [List.length_append, crlf, List.length_cons, List.length_nil]
    omega
  rw [next]
  cases partialReq.store i element <;> rfl

theorem parseElements_plain {memory element rest : Bytes} {ptr : Nat} (plain : Plain element)
    (short : element.length < 256) (here : memory.drop ptr = bulk element ++ rest)
    (remaining i : Nat) (partialReq : PartialRequest) :
    parseElements memory (remaining + 1) i partialReq ptr =
      match partialReq.store i element with
      | .ok stored => parseElements memory remaining (i + 1) stored (ptr + (bulk element).length)
      | .error f => .error f := by
  rw [bulk_eq, List.append_assoc, List.append_assoc element] at here
  exact parseElements_ended plain short rfl here remaining i partialReq

/-- One element that `getLine` reads only in part. -/
theorem parseElements_broken {memory element rest : Bytes} {ptr : Nat} (broken : ¬ Plain element)
    (short : element.length < 256) (here : memory.drop ptr = bulk element ++ rest)
    (remaining i : Nat) (partialReq : PartialRequest) :
    parseElements memory (remaining + 1) i partialReq ptr = .ok none := by
  have small : element.length < 10 ^ 9 := by omega
  rw [bulk_eq, List.append_assoc, List.append_assoc] at here
  have announced : getLine memory ptr = .ok (lenLine element.length) :=
    getLine_line (plain_lenLine _) rfl (length_lenLine_lt small) here
  have value := drop_add_of_drop (drop_add_of_drop here)
  obtain ⟨line, c, tail, split, plainLine, terminator⟩ := split_at_terminator broken
  have shorter : line.length < element.length := by
    rw [split]
    simp only [List.length_append, List.length_cons]
    omega
  have cut : memory.drop (ptr + (lenLine element.length).length + 2) =
      line ++ c :: (tail ++ crlf ++ rest) := by
    refine value.trans ?_
    rw [split]
    simp
  have read : getLine memory (ptr + (lenLine element.length).length + 2) = .ok line :=
    getLine_line plainLine terminator (by omega) cut
  rw [parseElements, announced]
  simp only [getPrefix_lenLine, reduceCtorEq, if_false, read, atoi_lenLine small]
  rw [if_pos (by omega)]

theorem parseElements_stored {memory : Bytes} {elements : List Bytes} {rest : Bytes} {ptr : Nat}
    (plain : ∀ element ∈ elements, Plain element)
    (short : ∀ element ∈ elements, element.length < 256)
    (here : memory.drop ptr = (elements.map bulk).flatten ++ rest) (i : Nat)
    (partialReq : PartialRequest) :
    parseElements memory elements.length i partialReq ptr =
      match partialReq.storeAll i elements with
      | .ok stored => .ok (some (stored, ptr + (elements.map bulk).flatten.length))
      | .error f => .error f := by
  induction elements generalizing ptr i partialReq with
  | nil => simp [parseElements, PartialRequest.storeAll]
  | cons element elements inductionHypothesis =>
    rw [List.map_cons, List.flatten_cons, List.append_assoc] at here
    rw [List.length_cons,
      parseElements_plain (plain element List.mem_cons_self) (short element List.mem_cons_self) here,
      PartialRequest.storeAll]
    cases stored : partialReq.store i element with
    | error f => rfl
    | ok stored =>
      simp only
      rw [inductionHypothesis (fun other member => plain other (List.mem_cons_of_mem _ member))
        (fun other member => short other (List.mem_cons_of_mem _ member))
        (drop_add_of_drop here)]
      simp [Nat.add_assoc]

/-! ## Requests -/

/-- The request that a message of these strings stands for. -/
def requestOf : List Bytes → RespRequest
  | [] => emptyRequest 0 (by decide)
  | name :: rest =>
    if upper name = lit "CONFIG" then
      match rest with
      | [] => PartialRequest.finish {}
      | subCmd :: args => PartialRequest.finish ⟨findConfigCmd subCmd, true, args⟩
    else PartialRequest.finish ⟨findRedisCmd name, false, rest⟩

/-- Strings after the ones that name the command are all stored, while there is room. -/
theorem storeAll_args {i : Nat} (afterName : i ≠ 0) (partialReq : PartialRequest)
    (afterSubCmd : ¬ (i = 1 ∧ partialReq.isConfig)) {args : List Bytes}
    (room : partialReq.args.length + args.length ≤ maxArgs) :
    partialReq.storeAll i args = .ok { partialReq with args := partialReq.args ++ args } := by
  induction args generalizing i partialReq with
  | nil => simp [PartialRequest.storeAll]
  | cons arg args inductionHypothesis =>
    rw [List.length_cons] at room
    have fits : partialReq.args.length < maxArgs := by omega
    have stored : partialReq.store i arg =
        .ok { partialReq with args := partialReq.args ++ [arg] } := by
      rw [PartialRequest.store, if_neg afterName, if_neg afterSubCmd, if_pos fits]
    rw [PartialRequest.storeAll, stored]
    simp only
    rw [inductionHypothesis (by omega) _ (by omega) (by simp; omega)]
    simp

/-- At most 17 strings: the command and 16 arguments. -/
theorem storeAll_requestOf {elements : List Bytes} (nonempty : elements ≠ [])
    (few : elements.length ≤ maxArgs + 1) :
    ∃ stored, PartialRequest.storeAll 0 {} elements = .ok stored ∧
      stored.finish = requestOf elements := by
  obtain ⟨name, rest, rfl⟩ := List.exists_cons_of_ne_nil nonempty
  rw [List.length_cons] at few
  rw [PartialRequest.storeAll, PartialRequest.store, if_pos rfl]
  by_cases isConfig : upper name = lit "CONFIG"
  · rw [if_pos isConfig]
    cases rest with
    | nil => exact ⟨_, rfl, by rw [requestOf, if_pos isConfig]; rfl⟩
    | cons subCmd args =>
      rw [List.length_cons] at few
      have named : PartialRequest.store ⟨.unknown, true, []⟩ 1 subCmd =
          .ok ⟨findConfigCmd subCmd, true, []⟩ := by
        rw [PartialRequest.store, if_neg (by decide), if_pos ⟨rfl, rfl⟩]
      refine ⟨⟨findConfigCmd subCmd, true, args⟩, ?_, by rw [requestOf, if_pos isConfig]⟩
      simp only [PartialRequest.storeAll, named]
      rw [storeAll_args (by decide) _ (by simp) (by simp only [List.length_nil]; omega)]
      simp
  · rw [if_neg isConfig]
    refine ⟨⟨findRedisCmd name, false, rest⟩, ?_, by simp only [requestOf, if_neg isConfig]⟩
    simp only
    rw [storeAll_args (by decide) _ (by simp) (by simp only [List.length_nil]; omega)]
    simp

/-! ## Messages -/

/-- The bytes of a request: an array of bulk strings. -/
def encode (elements : List Bytes) : Bytes :=
  arrayHeader elements.length ++ (elements.map bulk).flatten

theorem length_bulk_eq (text : Bytes) : (bulk text).length = text.length + (decimal text.length).length + 5 := by
  have dollar : (lit "$").length = 1 := by decide
  have ends : crlf.length = 2 := by decide
  simp only [bulk, List.length_append]
  omega

theorem length_le_bulks (values : List Bytes) : values.length ≤ (values.map bulk).flatten.length := by
  induction values with
  | nil => simp
  | cons value values inductionHypothesis =>
    have nonempty : 1 ≤ (bulk value).length := Nat.one_le_iff_ne_zero.mpr (by simp [bulk, lit])
    rw [List.map_cons, List.flatten_cons, List.length_append, List.length_cons]
    omega

/-- The line that announces `n` strings. -/
def countLine (n : Nat) : Bytes := 42 :: decimal n

theorem encode_eq (elements : List Bytes) :
    encode elements = countLine elements.length ++ crlf ++ (elements.map bulk).flatten := by
  simp [encode, arrayHeader, countLine, show lit "*" = [42] from rfl, decimalInt]

theorem encode_ends (elements : List Bytes) : crlf <:+ encode elements := by
  obtain rfl | ⟨front, last, rfl⟩ := elements.eq_nil_or_concat'
  · exact ⟨lit "*0", by decide⟩
  · rw [encode, List.map_append, List.flatten_append, List.map_singleton, List.flatten_singleton, bulk]
    simp only [← List.append_assoc]
    exact List.suffix_append _ _

theorem plain_countLine (n : Nat) : Plain (countLine n) := by
  intro c member
  obtain same | member := List.mem_cons.mp member
  · subst same; rfl
  · exact plain_decimal n c member

theorem parse_of_elements {memory : Bytes} {elements : List Bytes} {rest : Bytes} {ptr : Nat}
    (nonempty : elements ≠ []) (few : elements.length ≤ maxArgs + 1)
    (here : memory.drop ptr = countLine elements.length ++ crlf ++ rest) :
    parse memory ptr =
      match parseElements memory elements.length 0 {} (ptr + (countLine elements.length).length + 2)
      with
      | .error f => .error f
      | .ok none => .ok none
      | .ok (some (partialReq, next)) => .ok (some (partialReq.finish, next)) := by
  have small : elements.length < 10 ^ 9 := by simp only [maxArgs] at few; omega
  have positive : ¬ ((elements.length : Int) ≤ 0) := by
    have := List.length_pos_iff.mpr nonempty
    omega
  rw [List.append_assoc] at here
  have lengthLine : (countLine elements.length).length < 256 := length_lenLine_lt small
  have announced : getLine memory ptr = .ok (countLine elements.length) :=
    getLine_line (plain_countLine _) rfl lengthLine here
  have count : atoi (countLine elements.length).tail = elements.length := atoi_lenLine small
  have star : getPrefix (countLine elements.length) = some 42 := rfl
  rcases parsed : parseElements memory elements.length 0 {} (ptr + (countLine elements.length).length + 2) with
    f | _ | ⟨partialReq, next⟩ <;>
  simp only [parse, announced, star, ne_eq, not_true_eq_false, if_false, count, positive, dite_false,
    Int.toNat_natCast, parsed]

theorem drop_header {memory : Bytes} {elements : List Bytes} {rest : Bytes} {ptr : Nat}
    (here : memory.drop ptr = encode elements ++ rest) :
    memory.drop ptr = countLine elements.length ++ crlf ++ ((elements.map bulk).flatten ++ rest) := by
  rw [here, encode_eq, List.append_assoc]

theorem drop_elements {memory : Bytes} {elements : List Bytes} {rest : Bytes} {ptr : Nat}
    (here : memory.drop ptr = encode elements ++ rest) :
    memory.drop (ptr + (countLine elements.length).length + 2) =
      (elements.map bulk).flatten ++ rest := by
  have header := drop_header here
  rw [List.append_assoc] at header
  exact drop_add_of_drop (drop_add_of_drop header)

/-- A request as a client sends it: a command with at most 16 arguments, strings of at most 255
bytes. -/
structure Message where
  elements : List Bytes
  nonempty : elements ≠ []
  few : elements.length ≤ maxArgs + 1
  short : ∀ element ∈ elements, element.length < 256

/-- `parse` reads back a message whose strings are lines. -/
theorem parse_encode (message : Message) {memory rest : Bytes} {ptr : Nat}
    (plain : ∀ element ∈ message.elements, Plain element)
    (here : memory.drop ptr = encode message.elements ++ rest) :
    parse memory ptr =
      .ok (some (requestOf message.elements, ptr + (encode message.elements).length)) := by
  obtain ⟨stored, allStored, same⟩ := storeAll_requestOf message.nonempty message.few
  rw [parse_of_elements message.nonempty message.few (drop_header here),
    parseElements_stored plain message.short (drop_elements here), allStored]
  have next : ptr + (countLine message.elements.length).length + 2 +
      (message.elements.map bulk).flatten.length = ptr + (encode message.elements).length := by
    rw [encode_eq]
    simp only [List.length_append, crlf, List.length_cons, List.length_nil]
    omega
  simp only [same, next]

/-- The elements before the first broken one are read, and there the message is rejected. -/
theorem parseElements_split {memory : Bytes} {elements : List Bytes} {rest : Bytes} {ptr : Nat}
    (broken : ¬ ∀ element ∈ elements, Plain element)
    (short : ∀ element ∈ elements, element.length < 256)
    (here : memory.drop ptr = (elements.map bulk).flatten ++ rest) (i : Nat)
    (partialReq : PartialRequest)
    (allStored : ∃ stored, partialReq.storeAll i elements = .ok stored) :
    parseElements memory elements.length i partialReq ptr = .ok none := by
  induction elements generalizing ptr i partialReq with
  | nil => simp at broken
  | cons element elements inductionHypothesis =>
    rw [List.map_cons, List.flatten_cons, List.append_assoc] at here
    rw [List.length_cons]
    by_cases plain : Plain element
    · obtain ⟨final, stores⟩ := allStored
      rw [PartialRequest.storeAll] at stores
      rw [parseElements_plain plain (short element List.mem_cons_self) here]
      cases stored : partialReq.store i element with
      | error f => simp [stored] at stores
      | ok stored' =>
        simp only [stored] at stores
        refine inductionHypothesis (fun all => broken ?_)
          (fun other member => short other (List.mem_cons_of_mem _ member))
          (drop_add_of_drop here) _ _ ⟨final, stores⟩
        intro other member
        obtain same | member := List.mem_cons.mp member
        · exact same ▸ plain
        · exact all other member
    · exact parseElements_broken plain (short element List.mem_cons_self) here _ _ _

/-- `parse` rejects a message with a CR or a NUL in one of its strings. -/
theorem parse_broken (message : Message) {memory rest : Bytes} {ptr : Nat}
    (broken : ¬ ∀ element ∈ message.elements, Plain element)
    (here : memory.drop ptr = encode message.elements ++ rest) :
    parse memory ptr = .ok none := by
  obtain ⟨stored, allStored, _⟩ := storeAll_requestOf message.nonempty message.few
  rw [parse_of_elements message.nonempty message.few (drop_header here),
    parseElements_split broken message.short (drop_elements here) _ _ ⟨stored, allStored⟩]

/-! ## Buffers of messages -/

/-- The bytes of messages sent one after another. -/
def encodeAll (messages : List Message) : Bytes :=
  (messages.map fun message => encode message.elements).flatten

/-- One call of `handle` for every message, with its place in the buffer. -/
def callsOf (start : Nat) : List Message → List Call
  | [] => []
  | message :: messages =>
    ⟨start, requestOf message.elements, (encode message.elements).length⟩ ::
      callsOf (start + (encode message.elements).length) messages

theorem encode_head (elements : List Bytes) : ∃ rest, encode elements = 42 :: rest :=
  ⟨_, by rw [encode_eq, countLine]; rfl⟩

theorem skipToStar_at {memory rest : Bytes} {n ptr : Nat} (inside : ptr < n)
    (here : memory.drop ptr = 42 :: rest) : skipToStar memory n ptr = ptr := by
  obtain ⟨k, split⟩ := Nat.exists_eq_add_of_lt inside
  rw [skipToStar, List.drop_take, here, split, show ptr + k + 1 - ptr = k + 1 by omega]
  simp

/-- Where every string is a line, the loop makes exactly the calls that were sent. -/
theorem handleCallsFrom_encodeAll {memory rest : Bytes} (messages : List Message)
    (plain : ∀ message ∈ messages, ∀ element ∈ message.elements, Plain element) {n ptr : Nat}
    (here : memory.drop ptr = encodeAll messages ++ rest)
    (stop : ptr + (encodeAll messages).length = n) {fuel : Nat} (enough : n ≤ ptr + fuel) :
    handleCallsFrom memory n fuel ptr = (callsOf ptr messages, none) := by
  induction messages generalizing ptr fuel with
  | nil =>
    have ended : n ≤ skipToStar memory n ptr := by
      simp only [encodeAll, List.map_nil, List.flatten_nil, List.length_nil] at stop
      rw [skipToStar]
      omega
    cases fuel with
    | zero => simp [handleCallsFrom, callsOf]
    | succ fuel => simp [handleCallsFrom, callsOf, ended]
  | cons message messages inductionHypothesis =>
    obtain ⟨tail, head⟩ := encode_head message.elements
    simp only [encodeAll, List.map_cons, List.flatten_cons, List.append_assoc,
      List.length_append] at here stop
    have positive : 0 < (encode message.elements).length := by rw [head]; simp
    have atStar : skipToStar memory n ptr = ptr :=
      skipToStar_at (by omega) (by rw [here, head, List.cons_append])
    have read := parse_encode message (plain message List.mem_cons_self) here
    cases fuel with
    | zero => omega
    | succ fuel =>
      have afterwards := inductionHypothesis
        (fun other member => plain other (List.mem_cons_of_mem _ member))
        (drop_add_of_drop here) (by simp only [encodeAll]; omega)
        (show n ≤ ptr + (encode message.elements).length + fuel by omega)
      rw [handleCallsFrom]
      simp only [atStar, read, afterwards]
      rw [if_neg (by omega), callsOf, Nat.add_sub_cancel_left]

theorem parseElements_next {memory : Bytes} {remaining i : Nat} {partialReq stored : PartialRequest}
    {ptr next : Nat} (parsed : parseElements memory remaining i partialReq ptr =
      .ok (some (stored, next))) : ptr ≤ next := by
  induction remaining generalizing i partialReq ptr with
  | zero =>
    simp only [parseElements, Except.ok.injEq, Option.some.injEq, Prod.mk.injEq] at parsed
    omega
  | succ remaining inductionHypothesis =>
    rw [parseElements] at parsed
    split at parsed
    · simp at parsed
    · split at parsed
      · simp at parsed
      · simp only at parsed
        split at parsed
        · simp at parsed
        · split at parsed
          · simp at parsed
          · split at parsed
            · simp at parsed
            · have := inductionHypothesis parsed
              omega

/-- A message takes bytes. -/
theorem parse_next {memory : Bytes} {ptr next : Nat} {request : RespRequest}
    (parsed : parse memory ptr = .ok (some (request, next))) : ptr + 2 ≤ next := by
  rw [parse] at parsed
  split at parsed
  · simp at parsed
  · split at parsed
    · simp at parsed
    · simp only at parsed
      split at parsed
      · split at parsed
        · simp at parsed
        · simp only [Except.ok.injEq, Option.some.injEq, Prod.mk.injEq] at parsed
          omega
      · split at parsed
        · simp at parsed
        · simp at parsed
        · rename_i elements
          simp only [Except.ok.injEq, Option.some.injEq, Prod.mk.injEq] at parsed
          have := parseElements_next elements
          omega

/-- Every call is what `parse` reads at its place. -/
theorem parse_of_mem_calls {memory : Bytes} {n fuel ptr : Nat} {call : Call}
    (member : call ∈ (handleCallsFrom memory n fuel ptr).1) :
    parse memory call.start = .ok (some (call.request, call.start + call.length)) := by
  induction fuel generalizing ptr with
  | zero => simp [handleCallsFrom] at member
  | succ fuel inductionHypothesis =>
    rw [handleCallsFrom] at member
    simp only at member
    split at member
    · simp at member
    · split at member
      · simp at member
      · exact inductionHypothesis member
      · rename_i request next parsed
        obtain same | member := List.mem_cons.mp member
        · subst same
          have := parse_next parsed
          simp only [parsed, show skipToStar memory n ptr + (next - skipToStar memory n ptr) = next
            by omega]
        · exact inductionHypothesis member

/-- Every message has its call, at the place where its bytes are. -/
theorem exists_call_of_mem {messages : List Message} {message : Message}
    (member : message ∈ messages) (start : Nat) :
    ∃ front back, encodeAll messages = front ++ encode message.elements ++ back ∧
      ⟨start + front.length, requestOf message.elements, (encode message.elements).length⟩ ∈
        callsOf start messages := by
  induction messages generalizing start with
  | nil => simp at member
  | cons first messages inductionHypothesis =>
    obtain same | member := List.mem_cons.mp member
    · subst same
      exact ⟨[], encodeAll messages, by simp [encodeAll], by simp [callsOf]⟩
    · obtain ⟨front, back, split, found⟩ :=
        inductionHypothesis member (start + (encode first.elements).length)
      refine ⟨encode first.elements ++ front, back, ?_, ?_⟩
      · rw [encodeAll, List.map_cons, List.flatten_cons]
        rw [encodeAll] at split
        rw [split]
        simp
      · rw [callsOf, List.length_append, ← Nat.add_assoc]
        exact List.mem_cons_of_mem _ found

/-- The calls of a received buffer are the messages that were sent in it exactly when no string of
a message holds a CR or a NUL. -/
theorem handleCalls_exact_iff (messages : List Message) (stale : Bytes) :
    handleCalls (encodeAll messages ++ 0 :: stale) (encodeAll messages).length =
        (callsOf 0 messages, none) ↔
      ∀ message ∈ messages, ∀ element ∈ message.elements, 13 ∉ element ∧ 0 ∉ element := by
  have plain_iff : ∀ element : Bytes, Plain element ↔ 13 ∉ element ∧ 0 ∉ element := by
    intro element
    constructor
    · intro plain
      exact ⟨fun cr => absurd (plain 13 cr) (by decide), fun nul => absurd (plain 0 nul) (by decide)⟩
    · intro absent c member
      by_contra terminator
      obtain cr | nul := isText_eq_false.mp (by simpa using terminator)
      · exact absent.1 (cr ▸ member)
      · exact absent.2 (nul ▸ member)
  simp only [← plain_iff]
  constructor
  · intro same message member
    by_contra broken
    obtain ⟨front, back, split, found⟩ := exists_call_of_mem member 0
    have calls : (handleCalls (encodeAll messages ++ 0 :: stale)
        (encodeAll messages).length).1 = callsOf 0 messages := congrArg Prod.fst same
    rw [← calls] at found
    have parsed := parse_of_mem_calls found
    have here : (encodeAll messages ++ 0 :: stale).drop (0 + front.length) =
        encode message.elements ++ (back ++ 0 :: stale) := by
      rw [split, Nat.zero_add, List.append_assoc, List.append_assoc, List.drop_left]
    rw [parse_broken message broken here] at parsed
    simp at parsed
  · intro plain
    exact handleCallsFrom_encodeAll messages plain List.drop_zero (by omega) (by omega)

/-- ECHO of a string that holds a whole INCR request behind a CR. -/
def echoOfRequest : Message :=
  ⟨[lit "ECHO", lit "\r*2\r\n$4\r\nINCR\r\n$1\r\nx"], by decide, by decide, by decide⟩

/-- The loop runs the INCR inside the string, and not the ECHO that was sent. -/
theorem handleCalls_echoOfRequest :
    handleCalls (encodeAll [echoOfRequest] ++ [0]) (encodeAll [echoOfRequest]).length =
        ([⟨20, requestOf [lit "INCR", lit "x"], 21⟩], none) ∧
      handleCalls (encodeAll [echoOfRequest] ++ [0]) (encodeAll [echoOfRequest]).length ≠
        (callsOf 0 [echoOfRequest], none) := by
  decide +kernel

end RedisClone
