import RedisClone.Verified.Grammar

/-! # Requests cut by the network

`parse` keeps nothing between two results of `recv`.  A result that ends inside a request therefore
loses it: the loop gives it up, faults on what it reads behind the NUL, or takes other bytes of it
for a request.  The two bytes behind the last string are never looked at, so only there a request
may be cut.  `shifted` carries the argument for the other cuts: once the loop is behind the start of
a request that is still to come, it stays behind, since a request that is found inside another one
has too few strings left there and needs the next one's.
-/

namespace RedisClone

open CString

/-! ## The requests of the results of `recv` -/

/-- The requests that the loop hands to `handle` for one result of `recv`, and the fault that ends it. -/
def requestsOfRecv (bytes stale : Bytes) : List RespRequest × Option Fault :=
  ((handleCalls (bytes ++ 0 :: stale) bytes.length).1.map Call.request,
    (handleCalls (bytes ++ 0 :: stale) bytes.length).2)

/-- The requests of successive results of `recv`, each with what the buffer holds behind it. -/
def requestsHandled : List (Bytes × Bytes) → List RespRequest × Option Fault
  | [] => ([], none)
  | (bytes, stale) :: later =>
    match requestsOfRecv bytes stale with
    | (requests, some f) => (requests, some f)
    | (requests, none) => (requests ++ (requestsHandled later).1, (requestsHandled later).2)

/-- A request that the loop reads when it arrives whole: no string of it holds a CR or a NUL. -/
structure PlainMessage extends Message where
  plain : ∀ element ∈ elements, Plain element

/-- The bytes of requests sent one after another. -/
def streamOf (messages : List PlainMessage) : Bytes := encodeAll (messages.map PlainMessage.toMessage)

/-- However the buffer was filled before, the loop hands the same requests to `handle` for these
results of `recv` as when every request arrives whole. -/
def SplitInvariant (messages : List PlainMessage) (chunks : List Bytes) : Prop :=
  ∀ received whole : List (Bytes × Bytes), received.map Prod.fst = chunks →
    whole.map Prod.fst = (messages.map fun message => encode message.elements) →
      requestsHandled received = requestsHandled whole

/-- Every result of `recv` that begins a request holds all of it but, at most, its last two bytes. -/
def CutsAtEnds (messages : List PlainMessage) (chunks : List Bytes) : Prop :=
  ∀ front back, chunks = front ++ back → ∀ before message after, messages = before ++ message :: after →
    (streamOf before).length < front.flatten.length →
      (streamOf before).length + (encode message.elements).length ≤ front.flatten.length + 2

/-! ## A buffer from a place on -/

theorem parseElements_shift (memory : Bytes) (ptr remaining i : Nat) (partialReq : PartialRequest) (k : Nat) :
    parseElements memory remaining i partialReq (ptr + k) =
      match parseElements (memory.drop ptr) remaining i partialReq k with
      | .error f => .error f
      | .ok none => .ok none
      | .ok (some (stored, next)) => .ok (some (stored, ptr + next)) := by
  induction remaining generalizing i partialReq k with
  | zero => rfl
  | succ remaining inductionHypothesis =>
    have same (place : Nat) : getLine memory (ptr + place) = getLine (memory.drop ptr) place := by
      rw [getLine, getLine, List.drop_drop]
    rw [parseElements, parseElements, same]
    cases getLine (memory.drop ptr) k with
    | error f => rfl
    | ok line =>
      by_cases unprefixed : getPrefix line = none
      · simp only [if_pos unprefixed]
      · simp only [if_neg unprefixed, Nat.add_assoc, same]
        cases getLine (memory.drop ptr) (k + (line.length + 2)) with
        | error f => rfl
        | ok value =>
          by_cases mismatch : (value.length : Int) ≠ atoi line.tail
          · simp only [if_pos mismatch]
          · simp only [if_neg mismatch]
            cases partialReq.store i value with
            | error f => rfl
            | ok stored => exact inductionHypothesis _ _ _

/-- What `parse` reads does not depend on the bytes before the pointer. -/
theorem parse_shift (memory : Bytes) (ptr : Nat) :
    parse memory ptr =
      match parse (memory.drop ptr) 0 with
      | .error f => .error f
      | .ok none => .ok none
      | .ok (some (request, next)) => .ok (some (request, ptr + next)) := by
  have same : getLine memory ptr = getLine (memory.drop ptr) 0 := by
    rw [getLine, getLine, List.drop_zero]
  rw [parse, parse, same]
  cases getLine (memory.drop ptr) 0 with
  | error f => rfl
  | ok line =>
    by_cases starless : getPrefix line ≠ some 42
    · simp only [if_pos starless]
    · simp only [if_neg starless]
      by_cases empty : atoi line.tail ≤ 0
      · simp only [dif_pos empty, Nat.zero_add, Nat.add_assoc]
        by_cases least : atoi line.tail = -2 ^ 31
        · rw [if_pos least, if_pos least]
        · rw [if_neg least, if_neg least]
      · have shifted := parseElements_shift memory ptr (atoi line.tail).toNat 0 {} (line.length + 2)
        simp only [dif_neg empty, Nat.zero_add, Nat.add_assoc] at shifted ⊢
        rw [shifted]
        cases parseElements (memory.drop ptr) (atoi line.tail).toNat 0 {} (line.length + 2) with
        | error f => rfl
        | ok found => cases found <;> rfl

/-- The loop on the bytes from its pointer on. -/
def requestsOn (stale : Bytes) : (fuel : Nat) → Bytes → List RespRequest × Option Fault
  | 0, _ => ([], none)
  | fuel + 1, s =>
    match s.dropWhile (· ≠ 42) with
    | [] => ([], none)
    | c :: rest =>
      match parse (c :: rest ++ 0 :: stale) 0 with
      | .error f => ([], some f)
      | .ok none => requestsOn stale fuel rest
      | .ok (some (request, next)) =>
        (request :: (requestsOn stale fuel ((c :: rest).drop next)).1,
          (requestsOn stale fuel ((c :: rest).drop next)).2)

theorem handleCallsFrom_requests (bytes stale : Bytes) (fuel ptr : Nat) :
    ((handleCallsFrom (bytes ++ 0 :: stale) bytes.length fuel ptr).1.map Call.request,
      (handleCallsFrom (bytes ++ 0 :: stale) bytes.length fuel ptr).2) =
        requestsOn stale fuel (bytes.drop ptr) := by
  induction fuel generalizing ptr with
  | zero => rfl
  | succ fuel inductionHypothesis =>
    obtain ⟨before, place⟩ :
        ∃ before, ptr + ((bytes.drop ptr).takeWhile (· ≠ 42)).length = before := ⟨_, rfl⟩
    have skipped := (skipToStar_eq stale ptr).trans place
    have here : bytes.drop before = (bytes.drop ptr).dropWhile (· ≠ 42) := by
      rw [← place, ← List.drop_drop, drop_takeWhile_length]
    simp only [handleCallsFrom, skipped, requestsOn]
    rw [← here]
    cases suffix : bytes.drop before with
    | nil => simp [List.drop_eq_nil_iff.mp suffix]
    | cons c rest =>
      have inside : before < bytes.length := by
        by_contra ended
        rw [List.drop_of_length_le (by omega)] at suffix
        simp at suffix
      have memory : (bytes ++ 0 :: stale).drop before = c :: rest ++ 0 :: stale := by
        rw [List.drop_append_of_le_length (by omega), suffix]
      -- `parse` reads forward only, so it does not matter where in the memory the message lies
      have shifted := parse_shift (bytes ++ 0 :: stale) before
      rw [memory] at shifted
      rw [if_neg (by omega), shifted]
      cases parsed : parse (c :: rest ++ 0 :: stale) 0 with
      | error f => simp only [parsed, List.map_nil]
      | ok found =>
        cases found with
        | none =>
          have after : bytes.drop (before + 1) = rest := by
            rw [← List.drop_drop, suffix, List.drop_one, List.tail_cons]
          simp only [parsed]
          rw [inductionHypothesis, after]
        | some taken =>
          obtain ⟨request, next⟩ := taken
          have after : bytes.drop (before + next) = (c :: rest).drop next := by
            rw [← List.drop_drop, suffix]
          simp only [parsed, List.map_cons]
          rw [← after, ← inductionHypothesis]

theorem parse_zero_next {memory : Bytes} {next : Nat} {request : RespRequest}
    (parsed : parse memory 0 = .ok (some (request, next))) : 2 ≤ next := by
  have := parse_next parsed
  omega

/-- More fuel than bytes changes nothing. -/
theorem requestsOn_enough (stale : Bytes) {fuel : Nat} {s : Bytes} (enough : s.length ≤ fuel) :
    requestsOn stale fuel s = requestsOn stale s.length s := by
  induction fuel using Nat.strong_induction_on generalizing s with
  | _ fuel inductionHypothesis =>
    cases fuel with
    | zero =>
      rw [List.eq_nil_of_length_eq_zero (Nat.le_zero.mp enough)]
      rfl
    | succ fuel =>
      cases s with
      | nil => rfl
      | cons c s =>
        rw [List.length_cons] at enough
        -- both rounds go on with the same rest, which is shorter
        have fewer {t : Bytes} (shorter : t.length ≤ s.length) :
            requestsOn stale fuel t = requestsOn stale s.length t := by
          rw [inductionHypothesis fuel (by omega) (by omega)]
          by_cases same : s.length = fuel
          · rw [same, inductionHypothesis fuel (by omega) (by omega)]
          · exact (inductionHypothesis s.length (by omega) shorter).symm
        rw [List.length_cons, requestsOn, requestsOn]
        cases found : (c :: s).dropWhile (· ≠ 42) with
        | nil => rfl
        | cons d rest =>
          have remaining : (d :: rest).length ≤ (c :: s).length := by
            rw [← found]
            exact (List.dropWhile_suffix _).length_le
          simp only [List.length_cons] at remaining
          cases parsed : parse (d :: rest ++ 0 :: stale) 0 with
          | error f => simp only [parsed]
          | ok result =>
            cases result with
            | none =>
              simp only [parsed]
              exact fewer (by omega)
            | some taken =>
              obtain ⟨request, next⟩ := taken
              have := parse_zero_next parsed
              have tail := @fewer ((d :: rest).drop next) (by rw [List.length_drop, List.length_cons]; omega)
              simp only [parsed, tail]

theorem requestsOn_star (stale : Bytes) (fuel : Nat) (rest : Bytes) :
    requestsOn stale (fuel + 1) (42 :: rest) =
      match parse (42 :: rest ++ 0 :: stale) 0 with
      | .error f => ([], some f)
      | .ok none => requestsOn stale fuel rest
      | .ok (some (request, next)) =>
        (request :: (requestsOn stale fuel ((42 :: rest).drop next)).1,
          (requestsOn stale fuel ((42 :: rest).drop next)).2) := by
  rw [requestsOn, List.dropWhile_cons_of_neg (by simp)]

theorem requestsOfRecv_eq (bytes stale : Bytes) :
    requestsOfRecv bytes stale = requestsOn stale bytes.length bytes := by
  rw [requestsOfRecv, handleCalls, handleCallsFrom_requests, List.drop_zero]

/-! ## One result of `recv` after another -/

variable {u stale : Bytes} {later : List (Bytes × Bytes)}

theorem requestsHandled_starless (starless : u.dropWhile (· ≠ 42) = []) :
    requestsHandled ((u, stale) :: later) = requestsHandled later := by
  have none_of_it : requestsOfRecv u stale = ([], none) := by
    rw [requestsOfRecv_eq]
    cases u with
    | nil => rfl
    | cons c u => rw [List.length_cons, requestsOn, starless]
  rw [requestsHandled, none_of_it]
  rfl

/-- Bytes before the first star are skipped. -/
theorem requestsHandled_skip {front : Bytes} (starless : ∀ c ∈ front, c ≠ 42) :
    requestsHandled ((front ++ u, stale) :: later) = requestsHandled ((u, stale) :: later) := by
  have skipped : (front ++ u).dropWhile (· ≠ 42) = u.dropWhile (· ≠ 42) :=
    List.dropWhile_append_of_pos fun c member => by simpa using starless c member
  have same : requestsOfRecv (front ++ u) stale = requestsOfRecv u stale := by
    rw [requestsOfRecv_eq, requestsOfRecv_eq,
      ← requestsOn_enough stale (show u.length ≤ (front ++ u).length by simp)]
    cases isLength : (front ++ u).length with
    | zero => rfl
    | succ fuel => rw [requestsOn, requestsOn, skipped]
  rw [requestsHandled, requestsHandled, same]

theorem requestsHandled_error {rest : Bytes} {f : Fault}
    (failed : parse (42 :: rest ++ 0 :: stale) 0 = .error f) :
    requestsHandled ((42 :: rest, stale) :: later) = ([], some f) := by
  have stopped : requestsOfRecv (42 :: rest) stale = ([], some f) := by
    rw [requestsOfRecv_eq, List.length_cons, requestsOn_star]
    simp only [failed]
  rw [requestsHandled, stopped]

theorem requestsHandled_rejected {rest : Bytes}
    (rejected : parse (42 :: rest ++ 0 :: stale) 0 = .ok none) :
    requestsHandled ((42 :: rest, stale) :: later) = requestsHandled ((rest, stale) :: later) := by
  have same : requestsOfRecv (42 :: rest) stale = requestsOfRecv rest stale := by
    rw [requestsOfRecv_eq, requestsOfRecv_eq, List.length_cons, requestsOn_star]
    simp only [rejected]
  rw [requestsHandled, requestsHandled, same]

theorem requestsHandled_taken {rest : Bytes} {request : RespRequest} {next : Nat}
    (taken : parse (42 :: rest ++ 0 :: stale) 0 = .ok (some (request, next))) :
    requestsHandled ((42 :: rest, stale) :: later) =
      (request :: (requestsHandled (((42 :: rest).drop next, stale) :: later)).1,
        (requestsHandled (((42 :: rest).drop next, stale) :: later)).2) := by
  have next_positive := parse_zero_next taken
  have same : requestsOfRecv (42 :: rest) stale =
      (request :: (requestsOfRecv ((42 :: rest).drop next) stale).1,
        (requestsOfRecv ((42 :: rest).drop next) stale).2) := by
    rw [requestsOfRecv_eq, requestsOfRecv_eq, List.length_cons, requestsOn_star]
    simp only [taken]
    rw [requestsOn_enough stale (by rw [List.length_drop, List.length_cons]; omega)]
  rw [requestsHandled, requestsHandled, same]
  cases requestsOfRecv ((42 :: rest).drop next) stale with
  | mk requests fault => cases fault <;> rfl

/-! ## Requests that arrive but for their last bytes -/

theorem length_bulk_ge (element : Bytes) : 6 ≤ (bulk element).length := by
  have digits := List.length_pos_iff.mpr (decimal_ne_nil element.length)
  rw [bulk_eq]
  simp only [lenLine, List.length_append, crlf, List.length_cons, List.length_nil]
  omega

/-- Strings that lack at most the last CR and LF are read. -/
theorem parseElements_cut {memory u missing : Bytes} {elements : List Bytes} {ptr : Nat}
    (plain : ∀ element ∈ elements, Plain element) (short : ∀ element ∈ elements, element.length < 256)
    (split : (elements.map bulk).flatten = u ++ missing) (few : missing.length ≤ 2)
    (here : memory.drop ptr = u ++ 0 :: stale) (i : Nat) (partialReq : PartialRequest) :
    parseElements memory elements.length i partialReq ptr =
      match partialReq.storeAll i elements with
      | .ok stored => .ok (some (stored, ptr + (elements.map bulk).flatten.length))
      | .error f => .error f := by
  induction elements generalizing u ptr i partialReq with
  | nil => rfl
  | cons element elements inductionHypothesis =>
    have plainHead := plain element List.mem_cons_self
    have shortHead := short element List.mem_cons_self
    rw [List.map_cons, List.flatten_cons] at split ⊢
    cases elements with
    | nil =>
      simp only [List.map_nil, List.flatten_nil, List.append_nil] at split ⊢
      -- the bytes go to the end of the string at least, and a CR or the NUL follows it
      have reaches : ∃ c rest, u ++ 0 :: stale = lenLine element.length ++ crlf ++ (element ++ c :: rest) ∧
          isText c = false := by
        have whole : lenLine element.length ++ crlf ++ element ++ crlf = u ++ missing := by
          rw [← split, bulk_eq]
          simp only [List.append_assoc]
        obtain ⟨front, isU, isCrlf⟩ | ⟨front, isFront, _⟩ := List.append_eq_append_iff.mp whole
        · rw [isU]
          cases front with
          | nil => exact ⟨0, stale, by simp, rfl⟩
          | cons c front =>
            rw [List.cons_append, crlf, List.cons.injEq] at isCrlf
            exact ⟨c, front ++ 0 :: stale, by simp, by rw [← isCrlf.1]; rfl⟩
        · have : front = [] := by
            rename_i isMissing
            have lengths := congrArg List.length isMissing
            rw [List.length_append, crlf] at lengths
            exact List.eq_nil_of_length_eq_zero (by simp at lengths; omega)
          subst this
          rw [List.append_nil] at isFront
          exact ⟨0, stale, by rw [← isFront]; simp, rfl⟩
      obtain ⟨c, rest, same, terminator⟩ := reaches
      rw [List.length_singleton, parseElements_ended plainHead shortHead terminator (here.trans same),
        PartialRequest.storeAll]
      cases partialReq.store i element <;> rfl
    | cons next elements =>
      obtain ⟨v, isU, rest⟩ : ∃ v, u = bulk element ++ v ∧
          (((next :: elements).map bulk).flatten = v ++ missing) := by
        obtain ⟨v, isU, rest⟩ | ⟨v, _, isMissing⟩ := List.append_eq_append_iff.mp split
        · exact ⟨v, isU, rest⟩
        · have lengths := congrArg List.length isMissing
          have := length_bulk_ge next
          simp only [List.map_cons, List.flatten_cons, List.length_append] at lengths
          omega
      rw [isU, List.append_assoc] at here
      rw [List.length_cons, parseElements_plain plainHead shortHead here, PartialRequest.storeAll]
      cases partialReq.store i element with
      | error f => rfl
      | ok stored =>
        simp only
        rw [inductionHypothesis (fun other member => plain other (List.mem_cons_of_mem _ member))
          (fun other member => short other (List.mem_cons_of_mem _ member)) rest (drop_add_of_drop here)]
        simp only [List.length_append, Nat.add_assoc]

/-- A request that lacks at most its last CR and LF is read, and the pointer goes behind it. -/
theorem parse_cut (message : PlainMessage) {r missing : Bytes}
    (split : encode message.elements = r ++ missing) (few : missing.length ≤ 2) :
    parse (r ++ 0 :: stale) 0 =
      .ok (some (requestOf message.elements, (encode message.elements).length)) := by
  obtain ⟨stored, allStored, same⟩ := storeAll_requestOf message.nonempty message.few
  -- the first line is not what is cut, it is followed by an element of more than two bytes
  obtain ⟨u, isR, rest⟩ : ∃ u, r = countLine message.elements.length ++ crlf ++ u ∧
      (message.elements.map bulk).flatten = u ++ missing := by
    have whole := split
    rw [encode_eq] at whole
    obtain ⟨u, isR, rest⟩ | ⟨v, _, isMissing⟩ := List.append_eq_append_iff.mp whole
    · exact ⟨u, isR, rest⟩
    · have lengths := congrArg List.length isMissing
      obtain ⟨element, elements, isElements⟩ := List.exists_cons_of_ne_nil message.nonempty
      have := length_bulk_ge element
      rw [isElements] at lengths
      simp only [List.map_cons, List.flatten_cons, List.length_append] at lengths
      omega
  have here : (r ++ 0 :: stale).drop 0 = countLine message.elements.length ++ crlf ++ (u ++ 0 :: stale) := by
    rw [List.drop_zero, isR, List.append_assoc]
  have elementsHere : (r ++ 0 :: stale).drop (0 + (countLine message.elements.length).length + 2) =
      u ++ 0 :: stale := by
    rw [List.append_assoc] at here
    exact drop_add_of_drop (drop_add_of_drop here)
  rw [parse_of_elements message.nonempty message.few here,
    parseElements_cut message.plain message.short rest few elementsHere, allStored]
  have length : 0 + (countLine message.elements.length).length + 2 +
      (message.elements.map bulk).flatten.length = (encode message.elements).length := by
    rw [encode_eq]
    simp only [List.length_append, crlf, List.length_cons, List.length_nil]
    omega
  simp only [same, length]

theorem requestsHandled_message (message : PlainMessage) :
    requestsHandled ((encode message.elements ++ u, stale) :: later) =
      (requestOf message.elements :: (requestsHandled ((u, stale) :: later)).1,
        (requestsHandled ((u, stale) :: later)).2) := by
  obtain ⟨tail, head⟩ := encode_head message.elements
  have read : parse (encode message.elements ++ u ++ 0 :: stale) 0 =
      .ok (some (requestOf message.elements, (encode message.elements).length)) := by
    have parsed := @parse_encode message.toMessage (encode message.elements ++ u ++ 0 :: stale) (u ++ 0 :: stale) 0
      message.plain (by rw [List.drop_zero, List.append_assoc])
    rw [parsed, Nat.zero_add]
  have front : encode message.elements ++ u = 42 :: (tail ++ u) := by rw [head, List.cons_append]
  rw [front] at read ⊢
  rw [requestsHandled_taken read, ← front, List.drop_left]

theorem requestsHandled_cut (message : PlainMessage) {missing : Bytes}
    (split : encode message.elements = u ++ missing) (nonempty : u ≠ []) (few : missing.length ≤ 2) :
    requestsHandled ((u, stale) :: later) =
      (requestOf message.elements :: (requestsHandled later).1, (requestsHandled later).2) := by
  obtain ⟨tail, head⟩ := encode_head message.elements
  obtain ⟨c, rest, rfl⟩ := List.exists_cons_of_ne_nil nonempty
  obtain rfl : c = 42 := by
    rw [head, List.cons_append, List.cons.injEq] at split
    exact split.1.symm
  have behindAll : (42 :: rest).length ≤ (encode message.elements).length := by
    rw [split, List.length_append]
    omega
  rw [requestsHandled_taken (parse_cut message split few), List.drop_of_length_le behindAll,
    requestsHandled_starless rfl]

/-! ## What a request in a cut buffer must find there -/

theorem plain_append_left {s t : Bytes} (plain : Plain (s ++ t)) : Plain s := (plain_append.mp plain).1

/-- A line that is read and followed by another one in the buffer is there with its end. -/
theorem line_whole {line rest : Bytes} (plain : Plain line) (front : u <+: line ++ crlf ++ rest)
    (goesOn : Readable (behind (u ++ [0]))) :
    lineOf (u ++ [0]) = line ∧ ∃ v, u = line ++ crlf ++ v ∧ behind (u ++ [0]) = v ++ [0] ∧ v <+: rest := by
  obtain ⟨more, whole⟩ := front
  have inside : (lineOf (u ++ [0])).length + 2 ≤ u.length := by
    have := goesOn.2
    rw [behind, List.length_drop, List.length_append, List.length_singleton] at this
    omega
  rw [List.append_assoc] at whole
  obtain ⟨v, isLine, _⟩ | ⟨v, isU, isRest⟩ := List.append_eq_append_iff.mp whole
  · -- the buffer ends in the line, and the NUL is its end
    rw [isLine] at plain
    rw [lineOf_append (plain_append_left plain) (show isText 0 = false from rfl)] at inside
    omega
  · cases v with
    | nil =>
      rw [List.append_nil] at isU
      rw [isU, lineOf_append plain (show isText 0 = false from rfl)] at inside
      omega
    | cons c v =>
      rw [List.cons_append, crlf, List.cons_append, List.cons.injEq] at isRest
      obtain ⟨rfl, isRest⟩ := isRest
      have same : lineOf (u ++ [0]) = line := by
        rw [isU, List.append_assoc, List.cons_append]
        exact lineOf_append plain (show isText 13 = false from rfl) _
      cases v with
      | nil =>
        rw [same, isU, List.length_append, List.length_singleton] at inside
        omega
      | cons d v =>
        simp only [List.cons_append, List.nil_append, List.cons.injEq] at isRest
        obtain ⟨rfl, isRest⟩ := isRest
        have isWhole : u = line ++ crlf ++ v := by
          rw [isU, List.append_assoc]
          rfl
        refine ⟨same, v, isWhole, ?_, ⟨more, isRest.symm⟩⟩
        rw [isWhole, List.append_assoc (line ++ crlf)]
        exact (line_of_crlf plain).2.1

theorem length_lineOf_le {s : Bytes} (readable : Readable (s ++ [0])) :
    (lineOf (s ++ [0])).length ≤ s.length := by
  have := readable.2
  rw [List.length_append, List.length_singleton] at this
  omega

/-- As many strings as the bytes hold, or more, are read only where the bytes are there: all but the
last CR and LF, and the first byte behind them for one more string. -/
theorem passes_all {elements : List Bytes} {rest : Bytes} {count : Nat} {read : List Bytes}
    (plain : ∀ element ∈ elements, Plain element) (short : ∀ element ∈ elements, element.length < 256)
    (front : u <+: (elements.map bulk).flatten ++ rest) (fits : Fits count read (u ++ [0]))
    (passes : ¬ SomeRefused count (u ++ [0])) (enough : elements.length ≤ count) :
    (elements.map bulk).flatten.length ≤ u.length + 2 ∧
      (elements.length < count → (elements.map bulk).flatten.length < u.length ∧
        (elements.map bulk).flatten.length < spanOf count (u ++ [0])) := by
  induction elements generalizing u count read with
  | nil =>
    refine ⟨Nat.zero_le _, fun more => ?_⟩
    obtain ⟨count, rfl⟩ := Nat.exists_eq_succ_of_ne_zero (Nat.ne_of_gt more)
    rw [SomeRefused, not_or] at passes
    refine ⟨?_, by simp only [List.map_nil, List.flatten_nil, List.length_nil, spanOf]; omega⟩
    apply List.length_pos_iff.mpr
    rintro rfl
    exact passes.1 (.inl rfl)
  | cons element elements inductionHypothesis =>
    obtain ⟨count, rfl⟩ := Nat.exists_eq_succ_of_ne_zero (Nat.ne_of_gt (Nat.lt_of_lt_of_le (Nat.succ_pos _) enough))
    have shortHead := short element List.mem_cons_self
    rw [SomeRefused, not_or] at passes
    obtain ⟨readable, unprefixed | ⟨valueReadable, refused | ⟨room, others⟩⟩⟩ := fits
    · exact absurd (.inl unprefixed) passes.1
    · exact absurd refused passes.1
    rw [List.map_cons, List.flatten_cons, List.append_assoc, bulk_eq, List.append_assoc] at front
    obtain ⟨line, v, isU, behindLine, valueFront⟩ := line_whole (plain_lenLine _) front valueReadable
    have announced : (lineOf (v ++ [0])).length = element.length := by
      by_contra mismatch
      refine passes.1 (.inr ?_)
      rw [behindLine, line, atoi_lenLine (by omega)]
      omega
    rw [behindLine] at valueReadable others passes
    have lengths : u.length = (lenLine element.length).length + 2 + v.length := by
      rw [isU]
      simp only [List.length_append, crlf, List.length_cons, List.length_nil]
    have bulkLength : (bulk element).length = (lenLine element.length).length + 2 + (element.length + 2) := by
      rw [bulk_eq]
      simp only [List.length_append, crlf, List.length_cons, List.length_nil]
    rw [List.map_cons, List.flatten_cons, List.length_append, bulkLength, spanOf, line, behindLine, announced]
    rw [List.length_cons] at enough ⊢
    cases count with
    | zero =>
      -- the last string that is read: its end may be missing
      obtain rfl : elements = [] := List.eq_nil_of_length_eq_zero (by omega)
      have := length_lineOf_le valueReadable
      simp only [List.map_nil, List.flatten_nil, List.length_nil]
      exact ⟨by omega, by omega⟩
    | succ count =>
      obtain ⟨value, w, isV, behindValue, restFront⟩ :=
        line_whole (plain element List.mem_cons_self) valueFront others.1
      rw [behindValue] at others passes ⊢
      obtain ⟨there, more⟩ := inductionHypothesis (fun other member => plain other (List.mem_cons_of_mem _ member))
        (fun other member => short other (List.mem_cons_of_mem _ member)) restFront others passes.2 (by omega)
      have valueLengths : v.length = element.length + 2 + w.length := by
        rw [isV]
        simp only [List.length_append, crlf, List.length_cons, List.length_nil]
      refine ⟨by omega, fun enoughMore => ?_⟩
      obtain ⟨further, span⟩ := more (by omega)
      exact ⟨by omega, by omega⟩

theorem length_args_requestOf (name : Bytes) (rest : List Bytes) :
    (requestOf (name :: rest)).args.length =
      if upper name = lit "CONFIG" then rest.length - 1 else rest.length := by
  by_cases isConfig : upper name = lit "CONFIG"
  · cases rest with
    | nil => simp [requestOf, isConfig, PartialRequest.finish]
    | cons subCmd args => simp [requestOf, isConfig, PartialRequest.finish]
  · simp [requestOf, isConfig, PartialRequest.finish]

/-- Strings that stand for the same request are as many, but for the name of CONFIG. -/
theorem length_le_of_requestOf_eq {found elements : List Bytes} (nonempty : found ≠ [])
    (same : requestOf found = requestOf elements) :
    elements.length ≤ found.length + 1 ∧
      ((∀ name ∈ elements.head?, upper name ≠ lit "CONFIG") → elements.length ≤ found.length) := by
  obtain ⟨name, rest, rfl⟩ := List.exists_cons_of_ne_nil nonempty
  cases elements with
  | nil => exact ⟨Nat.zero_le _, fun _ => Nat.zero_le _⟩
  | cons name' rest' =>
    have lengths := congrArg (fun request => request.args.length) same
    simp only [length_args_requestOf] at lengths
    simp only [List.length_cons, List.head?_cons, Option.mem_some_iff, forall_eq']
    by_cases isConfig : upper name' = lit "CONFIG"
    · refine ⟨?_, fun notConfig => absurd isConfig notConfig⟩
      rw [if_pos isConfig] at lengths
      split at lengths <;> omega
    · rw [if_neg isConfig] at lengths
      constructor
      · split at lengths <;> omega
      · intro _
        split at lengths <;> omega

theorem argc_requestOf {elements : List Bytes} (nonempty : elements ≠ []) : 0 ≤ (requestOf elements).argc := by
  rw [← filledBy_finish nonempty]
  exact Int.natCast_nonneg _

/-- A request that is read in a cut buffer has its whole first line there. -/
theorem taken_parts {line rest : Bytes} {elements : List Bytes} {next : Nat} (plain : Plain (42 :: line))
    (front : u <+: (42 :: line) ++ crlf ++ rest) (nonempty : elements ≠ [])
    (taken : parse (u ++ [0]) 0 = .ok (some (requestOf elements, next))) :
    ∃ v, u = (42 :: line) ++ crlf ++ v ∧ v <+: rest ∧ 0 < atoi line ∧
      Fits (atoi line).toNat [] (v ++ [0]) ∧ ¬ SomeRefused (atoi line).toNat (v ++ [0]) ∧
      requestOf elements = requestOf (stringsOf (atoi line).toNat (v ++ [0])) ∧
      next = (42 :: line).length + 2 + spanOf (atoi line).toNat (v ++ [0]) := by
  have readable := readable_of_parse taken
  have here : (u ++ [0]).drop 0 = u ++ [0] := List.drop_zero
  have star : getPrefix (lineOf (u ++ [0])) = some 42 := by
    by_contra starless
    rw [parse_starless readable (by rw [here]; exact starless)] at taken
    simp at taken
  rw [here] at readable
  have positive : 0 < atoi (lineOf (u ++ [0])).tail := by
    by_contra empty
    rw [parse_uncounted here readable star (Int.not_lt.mp empty)] at taken
    split at taken
    · simp at taken
    simp only [Except.ok.injEq, Option.some.injEq, Prod.mk.injEq] at taken
    -- the request of an array without strings has a negative count of arguments
    have counts := congrArg RespRequest.argc taken.1
    have := argc_requestOf nonempty
    simp only [emptyRequest] at counts
    omega
  obtain ⟨fits, ⟨_, impossible⟩ | ⟨passes, same⟩⟩ := (parse_counted_iff here readable star positive).mp taken
  · simp at impossible
  obtain ⟨count, isCount⟩ := Nat.exists_eq_succ_of_ne_zero
    (show (atoi (lineOf (u ++ [0])).tail).toNat ≠ 0 by omega)
  have goesOn : Readable (behind (u ++ [0])) := by
    rw [isCount] at fits
    exact fits.1
  obtain ⟨isLine, v, isU, behindLine, rests⟩ := line_whole plain front goesOn
  rw [isLine, behindLine, List.tail_cons] at fits passes same
  rw [isLine, List.tail_cons] at positive
  simp only [Option.some.injEq, Prod.mk.injEq, Nat.zero_add] at same
  exact ⟨v, isU, rests, positive, fits, passes, same.1, same.2⟩

/-- A request that is read at its own start is there but for its last two bytes. -/
theorem message_reaches (message : PlainMessage) {next : Nat} (front : u <+: encode message.elements)
    (taken : parse (u ++ [0]) 0 = .ok (some (requestOf message.elements, next))) :
    (encode message.elements).length ≤ u.length + 2 := by
  have few := message.few
  have count : atoi (decimal message.elements.length) = message.elements.length :=
    atoi_lenLine (n := message.elements.length) (by simp only [maxArgs] at few; omega)
  rw [encode_eq] at front ⊢
  obtain ⟨v, isU, rests, _, fits, passes, _, _⟩ := taken_parts (plain_countLine _) front message.nonempty taken
  rw [count, Int.toNat_natCast] at fits passes
  have reaches := (@passes_all v message.elements [] _ _ message.plain message.short (by rwa [List.append_nil]) fits
    passes (Nat.le_refl _)).1
  rw [isU]
  simp only [countLine, List.length_append] at reaches ⊢
  omega

/-- A request that is read inside another one, and has as many strings, takes bytes of the next. -/
theorem inner_reaches (message : PlainMessage) {line rest : Bytes} {elements : List Bytes} {next : Nat}
    (plain : Plain (42 :: line)) (inside : ∀ element ∈ elements, element ∈ message.elements)
    (fewer : elements.length < message.elements.length)
    (config : (∃ name ∈ message.elements.head?, upper name = lit "CONFIG") →
      elements.length + 1 < message.elements.length)
    (front : u <+: (42 :: line) ++ crlf ++ ((elements.map bulk).flatten ++ rest))
    (taken : parse (u ++ [0]) 0 = .ok (some (requestOf message.elements, next))) :
    ((42 :: line) ++ crlf ++ (elements.map bulk).flatten).length < u.length ∧
      ((42 :: line) ++ crlf ++ (elements.map bulk).flatten).length < next := by
  obtain ⟨v, isU, rests, positive, fits, passes, same, isNext⟩ := taken_parts plain front message.nonempty taken
  have length := length_stringsOf (atoi line).toNat (v ++ [0])
  have found : stringsOf (atoi line).toNat (v ++ [0]) ≠ [] := by
    intro none
    rw [none, List.length_nil] at length
    omega
  obtain ⟨almost, asMany⟩ := length_le_of_requestOf_eq found same.symm
  rw [length] at almost asMany
  have more : elements.length < (atoi line).toNat := by
    by_cases isConfig : ∃ name ∈ message.elements.head?, upper name = lit "CONFIG"
    · have := config isConfig
      omega
    · have := asMany fun name isName same => isConfig ⟨name, isName, same⟩
      omega
  obtain ⟨_, further⟩ := passes_all (fun element member => message.plain element (inside element member))
    (fun element member => message.short element (inside element member)) rests fits passes (Nat.le_of_lt more)
  obtain ⟨there, span⟩ := further more
  rw [isU, isNext]
  simp only [List.length_append, List.length_cons, crlf, List.length_nil] at there span ⊢
  exact ⟨by omega, by omega⟩

/-! ## Behind the start of a request -/

theorem suffix_append {v a b : Bytes} (suffix : v <:+ a ++ b) :
    v <:+ b ∨ ∃ w, w ≠ [] ∧ w <:+ a ∧ v = w ++ b := by
  obtain ⟨t, whole⟩ := suffix
  obtain ⟨w, isA, isV⟩ | ⟨w, _, isB⟩ := List.append_eq_append_iff.mp whole
  · cases w with
    | nil => exact .inl ⟨[], by simpa using isV⟩
    | cons c w => exact .inr ⟨c :: w, List.cons_ne_nil _ _, ⟨t, isA.symm⟩, isV⟩
  · exact .inl ⟨w, isB.symm⟩

/-- No star stands in the numbers and line ends of a request. -/
theorem not_star_of_decimal {n : Nat} {c : UInt8} (member : c ∈ decimal n ++ crlf) : c ≠ 42 := by
  rintro rfl
  obtain member | member := List.mem_append.mp member
  · exact absurd (isdigit_of_mem_decimal member) (by decide)
  · exact absurd member (by decide)

theorem head_of_suffix {w a b : Bytes} (nonempty : w ≠ []) (suffix : w <:+ a) (star : (w ++ b).head? = some 42) :
    42 ∈ a := by
  obtain ⟨c, w, rfl⟩ := List.exists_cons_of_ne_nil nonempty
  simp only [List.cons_append, List.head?_cons, Option.some.injEq] at star
  exact suffix.mem (star ▸ List.mem_cons_self)

/-- A star among the strings begins in one of them, and the later strings follow its line. -/
theorem star_in_bulks {elements : List Bytes} {v : Bytes} (suffix : v <:+ (elements.map bulk).flatten)
    (star : v.head? = some 42) :
    ∃ front element rest line, elements = front ++ element :: rest ∧ 42 ∈ element ∧
      (42 :: line) <:+ element ∧ v = (42 :: line) ++ crlf ++ (rest.map bulk).flatten := by
  induction elements with
  | nil =>
    rw [List.suffix_nil.mp suffix] at star
    simp at star
  | cons element elements inductionHypothesis =>
    rw [List.map_cons, List.flatten_cons] at suffix
    obtain later | ⟨w, nonempty, inBulk, isV⟩ := suffix_append suffix
    · obtain ⟨front, other, rest, line, isElements, found, inOther, isV⟩ := inductionHypothesis later
      exact ⟨element :: front, other, rest, line, by rw [isElements, List.cons_append], found, inOther, isV⟩
    · rw [isV] at star
      rw [bulk_eq, lenLine, List.cons_append] at inBulk
      -- the bytes before the string: a dollar, its length and the end of the line
      obtain inPayload | ⟨x, notNil, inLine, isW⟩ :=
        suffix_append (show w <:+ (36 :: (decimal element.length ++ crlf)) ++ (element ++ crlf) from inBulk)
      · obtain inEnd | ⟨x, notNil, inElement, isW⟩ := suffix_append inPayload
        · exact absurd (head_of_suffix nonempty inEnd star) (by decide)
        · rw [isW, List.append_assoc] at star
          have found := head_of_suffix notNil inElement star
          obtain ⟨c, line, rfl⟩ := List.exists_cons_of_ne_nil notNil
          simp only [List.cons_append, List.head?_cons, Option.some.injEq] at star
          subst star
          exact ⟨[], element, elements, line, rfl, found, inElement, by rw [isV, isW]⟩
      · rw [isW, List.append_assoc] at star
        obtain dollar | digit := List.mem_cons.mp (head_of_suffix notNil inLine star)
        · exact absurd dollar (by decide)
        · exact absurd rfl (not_star_of_decimal digit)

/-- A star inside a request, not at its start, begins in one of its strings. -/
theorem star_inside (message : PlainMessage) {v : Bytes} (suffix : v <:+ encode message.elements)
    (proper : v.length < (encode message.elements).length) (star : v.head? = some 42) :
    ∃ (line : Bytes) (rest : List Bytes), Plain (42 :: line) ∧ (∀ element ∈ rest, element ∈ message.elements) ∧
      rest.length < message.elements.length ∧
      ((∃ name ∈ message.elements.head?, upper name = lit "CONFIG") →
        rest.length + 1 < message.elements.length) ∧
      v = (42 :: line) ++ crlf ++ (rest.map bulk).flatten := by
  rw [encode_eq] at suffix
  have inBulks : v <:+ (message.elements.map bulk).flatten := by
    obtain later | ⟨w, nonempty, inHeader, isV⟩ := suffix_append suffix
    · exact later
    · rw [isV] at star proper
      rw [countLine, List.cons_append] at inHeader
      obtain whole | inDigits := List.suffix_cons_iff.mp inHeader
      · rw [encode_eq, whole, countLine, List.cons_append] at proper
        exact absurd proper (Nat.lt_irrefl _)
      · exact absurd rfl (not_star_of_decimal (head_of_suffix nonempty inDigits star))
  obtain ⟨front, element, rest, line, isElements, found, inElement, isV⟩ := star_in_bulks inBulks star
  have plain : Plain element := message.plain element (by rw [isElements]; simp)
  have length : message.elements.length = front.length + (rest.length + 1) := by
    rw [isElements, List.length_append, List.length_cons]
  refine ⟨line, rest, fun c member => plain c (inElement.mem member), ?_, by omega, ?_, isV⟩
  · intro other member
    rw [isElements]
    simp [member]
  · rintro ⟨name, isName, isConfig⟩
    cases front with
    | nil =>
      -- the name of CONFIG holds no star
      rw [isElements] at isName
      simp only [List.nil_append, List.head?_cons, Option.mem_some_iff] at isName
      subst isName
      have inName : toupper 42 ∈ upper element := List.mem_map_of_mem found
      rw [isConfig] at inName
      exact absurd inName (by decide)
    | cons first front =>
      rw [List.length_cons] at length
      omega

theorem streamOf_cons (message : PlainMessage) (messages : List PlainMessage) :
    streamOf (message :: messages) = encode message.elements ++ streamOf messages := rfl

/-- The requests that the messages stand for. -/
def requestsOf (messages : List PlainMessage) : List RespRequest :=
  messages.map fun message => requestOf message.elements

/-- The results of `recv` where the buffer held nothing before. -/
def fresh (chunks : List Bytes) : List (Bytes × Bytes) := chunks.map fun chunk => (chunk, [])

theorem map_fst_fresh (chunks : List Bytes) : (fresh chunks).map Prod.fst = chunks := by
  rw [fresh, List.map_map]
  exact List.map_id chunks

/-- A request that is taken while the loop is behind the start of the next one leaves it behind the start of
the one after. -/
theorem still_behind {rest : Bytes} {chunks : List Bytes} {message : PlainMessage} {messages : List PlainMessage}
    {next : Nat} (suffix : (42 :: rest) ++ chunks.flatten <:+ streamOf (message :: messages))
    (shorter : ((42 :: rest) ++ chunks.flatten).length < (streamOf (message :: messages)).length)
    (taken : parse (42 :: rest ++ [0]) 0 = .ok (some (requestOf message.elements, next))) :
    ((42 :: rest).drop next ++ chunks.flatten).length < (streamOf messages).length := by
  have next_positive := parse_zero_next taken
  rw [streamOf_cons] at suffix shorter
  simp only [List.length_append, List.length_drop] at shorter ⊢
  obtain later | ⟨w, nonempty, inMessage, isWhole⟩ := suffix_append suffix
  · have := later.length_le
    rw [List.length_append] at this
    simp only [List.length_cons] at this ⊢
    omega
  · have lengths := congrArg List.length isWhole
    simp only [List.length_append] at lengths
    have star : w.head? = some 42 := by
      obtain ⟨c, w, rfl⟩ := List.exists_cons_of_ne_nil nonempty
      rw [List.cons_append, List.cons_append, List.cons.injEq] at isWhole
      rw [← isWhole.1, List.head?_cons]
    obtain ⟨line, elements, plain, inside, fewer, config, isW⟩ := star_inside message inMessage (by omega) star
    have front : (42 :: rest) <+: (42 :: line) ++ crlf ++ ((elements.map bulk).flatten ++ streamOf messages) := by
      refine ⟨chunks.flatten, ?_⟩
      rw [isWhole, isW]
      simp only [List.append_assoc]
    obtain ⟨there, further⟩ := inner_reaches message plain inside fewer config front taken
    rw [← isW] at there further
    omega

/-- Once the loop is behind the start of a request, it does not hand over the requests from there on. -/
theorem shifted {chunks : List Bytes} {messages : List PlainMessage}
    (suffix : u ++ chunks.flatten <:+ streamOf messages)
    (shorter : (u ++ chunks.flatten).length < (streamOf messages).length) :
    requestsHandled ((u, []) :: fresh chunks) ≠ (requestsOf messages, none) := by
  induction size : (u ++ chunks.flatten).length + chunks.length using Nat.strong_induction_on
    generalizing u chunks messages with
  | _ size inductionHypothesis =>
    -- the induction is on the bytes and the chunks that are left
    cases messages with
    | nil => exact absurd shorter (Nat.not_lt_zero _)
    | cons message messages =>
      cases found : u.dropWhile (· ≠ 42) with
      | nil =>
        rw [requestsHandled_starless found]
        cases chunks with
        | nil => simp [fresh, requestsHandled, requestsOf]
        | cons chunk chunks =>
          rw [List.flatten_cons] at suffix shorter size
          refine inductionHypothesis _ ?_ ((List.suffix_append u _).trans suffix) ?_ rfl
          · simp only [List.length_append, List.length_cons] at size ⊢
            omega
          · simp only [List.length_append] at shorter ⊢
            omega
      | cons c rest =>
        have isU : u.takeWhile (· ≠ 42) ++ c :: rest = u := by
          rw [← found]
          exact List.takeWhile_append_dropWhile
        obtain rfl : c = 42 := by
          have head := List.head?_dropWhile_not (· ≠ 42) u
          rw [found] at head
          simpa using head
        have skipped : ∀ c ∈ u.takeWhile (· ≠ 42), c ≠ 42 := fun c member => by
          simpa using List.all_eq_true.mp List.all_takeWhile c member
        rw [← isU, requestsHandled_skip skipped]
        rw [← isU, List.append_assoc] at suffix
        rw [← isU] at shorter size
        simp only [List.length_append, List.length_cons] at shorter size
        -- the loop skips to a `*` that is not the first byte of a request, and goes on from there
        have fromStar := (List.suffix_append _ _).trans suffix
        cases parsed : parse (42 :: rest ++ [0]) 0 with
        | error f =>
          rw [requestsHandled_error parsed]
          simp
        | ok result =>
          cases result with
          | none =>
            rw [requestsHandled_rejected parsed]
            refine inductionHypothesis _ ?_ ((List.suffix_cons 42 _).trans fromStar) ?_ rfl
            · simp only [List.length_append]
              omega
            · simp only [List.length_append]
              omega
          | some taken =>
            obtain ⟨request, next⟩ := taken
            rw [requestsHandled_taken parsed, requestsOf, List.map_cons]
            intro same
            simp only [Prod.mk.injEq, List.cons.injEq] at same
            obtain ⟨⟨rfl, others⟩, unfaulted⟩ := same
            -- what it takes for a request ends behind the start of the next one
            have behindNext := still_behind fromStar
              (by simp only [List.length_append, List.length_cons]; omega) parsed
            have inStream : (42 :: rest).drop next ++ chunks.flatten <:+ streamOf messages := by
              have tail : (42 :: rest).drop next ++ chunks.flatten <:+ (42 :: rest) ++ chunks.flatten :=
                ⟨(42 :: rest).take next, by rw [← List.append_assoc, List.take_append_drop]⟩
              have ofMessages : streamOf messages <:+ streamOf (message :: messages) := List.suffix_append _ _
              exact List.suffix_of_suffix_length_le (tail.trans fromStar) ofMessages (Nat.le_of_lt behindNext)
            have next_positive := parse_zero_next parsed
            refine inductionHypothesis _ ?_ inStream behindNext rfl (Prod.ext others unfaulted)
            simp only [List.length_append, List.length_drop, List.length_cons]
            omega

/-! ## Every cut -/

/-- `CutsAtEnds` for requests whose bytes begin behind `lead` bytes of the results of `recv`. -/
def CutsFrom (lead : Nat) (messages : List PlainMessage) (chunks : List Bytes) : Prop :=
  ∀ front back, chunks = front ++ back → ∀ before message after, messages = before ++ message :: after →
    lead + (streamOf before).length < front.flatten.length →
      lead + (streamOf before).length + (encode message.elements).length ≤ front.flatten.length + 2

theorem cutsFrom_zero {messages : List PlainMessage} {chunks : List Bytes} :
    CutsFrom 0 messages chunks ↔ CutsAtEnds messages chunks := by
  simp only [CutsFrom, CutsAtEnds, Nat.zero_add]

theorem cutsFrom_nil (lead : Nat) (chunks : List Bytes) : CutsFrom lead [] chunks := by
  intro front back _ before message after impossible
  simp at impossible

variable {message : PlainMessage} {messages : List PlainMessage} {chunks : List Bytes} {lead : Nat}

/-- The first result of `recv` is there whenever a request has begun. -/
theorem cutsFrom_cons : CutsFrom lead messages (u :: chunks) ↔
    ∀ front back, chunks = front ++ back → ∀ before message after, messages = before ++ message :: after →
      lead + (streamOf before).length < u.length + front.flatten.length →
        lead + (streamOf before).length + (encode message.elements).length ≤ u.length + front.flatten.length + 2 := by
  constructor
  · intro cuts front back isChunks before message after isMessages begun
    have ends := cuts (u :: front) back (by rw [isChunks, List.cons_append]) before message after isMessages
    rw [List.flatten_cons, List.length_append] at ends
    exact ends begun
  · intro cuts front back isChunks before message after isMessages begun
    cases front with
    | nil => simp at begun
    | cons first front =>
      obtain ⟨rfl, rest⟩ := List.cons.inj isChunks
      rw [List.flatten_cons, List.length_append] at begun ⊢
      exact cuts front back rest before message after isMessages begun

/-- A request of a list that is not empty is the first one, or one of the others. -/
theorem forall_split_cons {P : List PlainMessage → PlainMessage → Prop} :
    (∀ before other after, message :: messages = before ++ other :: after → P before other) ↔
      P [] message ∧ ∀ before other after, messages = before ++ other :: after → P (message :: before) other := by
  constructor
  · intro holds
    refine ⟨holds [] message messages rfl, fun before other after isMessages => ?_⟩
    exact holds (message :: before) other after (by rw [isMessages, List.cons_append])
  · rintro ⟨first, others⟩ before other after isMessages
    cases before with
    | nil =>
      obtain ⟨rfl, _⟩ := List.cons.inj isMessages
      exact first
    | cons head before =>
      obtain ⟨rfl, rest⟩ := List.cons.inj isMessages
      exact others before other after rest

/-- A result of `recv` that holds only bytes of the requests before. -/
theorem cutsFrom_skip (inside : u.length ≤ lead) :
    CutsFrom lead messages (u :: chunks) ↔ CutsFrom (lead - u.length) messages chunks := by
  rw [cutsFrom_cons]
  constructor
  · intro cuts front back isChunks before message after isMessages begun
    have := cuts front back isChunks before message after isMessages (by omega)
    omega
  · intro cuts front back isChunks before message after isMessages begun
    have := cuts front back isChunks before message after isMessages (by omega)
    omega

/-- A request that a result of `recv` holds whole. -/
theorem cutsFrom_whole (inside : lead + (encode message.elements).length + u.length = stale.length) :
    CutsFrom lead (message :: messages) (stale :: chunks) ↔ CutsFrom 0 messages (u :: chunks) := by
  have none : (streamOf []).length = 0 := rfl
  simp only [cutsFrom_cons, forall_split_cons, streamOf_cons, List.length_append]
  constructor
  · intro cuts front back isChunks before other after isMessages begun
    have := (cuts front back isChunks).2 before other after isMessages (by omega)
    omega
  · intro cuts front back isChunks
    refine ⟨fun _ => by omega, fun before other after isMessages begun => ?_⟩
    have := cuts front back isChunks before other after isMessages (by omega)
    omega

/-- A request that a result of `recv` holds but for its last bytes. -/
theorem cutsFrom_cut (enough : lead + (encode message.elements).length ≤ u.length + 2)
    (cut : u.length ≤ lead + (encode message.elements).length) :
    CutsFrom lead (message :: messages) (u :: chunks) ↔
      CutsFrom (lead + (encode message.elements).length - u.length) messages chunks := by
  have none : (streamOf []).length = 0 := rfl
  simp only [cutsFrom_cons, forall_split_cons, streamOf_cons, List.length_append]
  constructor
  · intro cuts front back isChunks before other after isMessages begun
    have := (cuts front back isChunks).2 before other after isMessages (by omega)
    omega
  · intro cuts front back isChunks
    refine ⟨fun _ => by omega, fun before other after isMessages begun => ?_⟩
    have := cuts front back isChunks before other after isMessages (by omega)
    omega

/-- The last two bytes of a request are no star. -/
theorem starless_missing {missing : Bytes} (split : encode message.elements = u ++ missing)
    (few : missing.length ≤ 2) : ∀ c ∈ missing, c ≠ 42 := by
  have inEnd : missing <:+ crlf :=
    List.suffix_of_suffix_length_le ⟨u, split.symm⟩ (encode_ends message.elements) few
  intro c member isStar
  exact absurd (isStar ▸ inEnd.mem member) (by decide)

theorem starless_drop {front : Bytes} (starless : ∀ c ∈ front, c ≠ 42) : front.dropWhile (· ≠ 42) = [] := by
  rw [← List.append_nil front, List.dropWhile_append_of_pos fun c member => by simpa using starless c member]
  rfl

/-- Where a result of `recv` goes on with a request: it holds the request whole, or but for its last bytes,
or it ends inside. -/
theorem message_split {w rest : Bytes} (whole : w ++ rest = streamOf (message :: messages)) :
    (∃ v, w = encode message.elements ++ v ∧ v ++ rest = streamOf messages) ∨
      ∃ missing, missing ≠ [] ∧ encode message.elements = w ++ missing ∧ rest = missing ++ streamOf messages := by
  rw [streamOf_cons] at whole
  obtain ⟨v, isMessage, isRest⟩ | ⟨v, isW, isMessages⟩ := List.append_eq_append_iff.mp whole
  · cases v with
    | nil => exact .inl ⟨[], by simpa using isMessage.symm, by simpa using isRest⟩
    | cons c v => exact .inr ⟨c :: v, List.cons_ne_nil _ _, isMessage, isRest⟩
  · exact .inl ⟨v, isW, isMessages.symm⟩

theorem encode_positive (message : PlainMessage) : 0 < (encode message.elements).length := by
  obtain ⟨tail, head⟩ := encode_head message.elements
  rw [head, List.length_cons]
  exact Nat.succ_pos _

theorem starless_nil : ∀ c ∈ ([] : Bytes), c ≠ 42 := by simp

/-- A result of `recv` ends with the bytes of the requests before, or goes on with a request. -/
theorem leftover_split {leftover rest stream : Bytes} (whole : u ++ rest = leftover ++ stream) :
    (∃ front, leftover = u ++ front ∧ rest = front ++ stream) ∨
      ∃ w, w ≠ [] ∧ u = leftover ++ w ∧ w ++ rest = stream := by
  obtain ⟨front, isLeftover, isRest⟩ | ⟨w, isU, isStream⟩ := List.append_eq_append_iff.mp whole
  · exact .inl ⟨front, isLeftover, isRest⟩
  · cases w with
    | nil => exact .inl ⟨[], by simpa using isU.symm, by simpa using isStream.symm⟩
    | cons c w => exact .inr ⟨c :: w, List.cons_ne_nil _ _, isU, isStream.symm⟩

/-- Cuts at the ends of the requests lose none of them. -/
theorem handled_of_cuts {leftover : Bytes} (starless : ∀ c ∈ leftover, c ≠ 42)
    (whole : u ++ (later.map Prod.fst).flatten = leftover ++ streamOf messages)
    (cuts : CutsFrom leftover.length messages (u :: later.map Prod.fst)) :
    requestsHandled ((u, stale) :: later) = (requestsOf messages, none) := by
  induction size : (u ++ (later.map Prod.fst).flatten).length + later.length using Nat.strong_induction_on
    generalizing u stale later leftover messages with
  | _ size inductionHypothesis =>
    obtain ⟨front, rfl, isRest⟩ | ⟨w, nonempty, rfl, isStream⟩ := leftover_split whole
    · -- only bytes of the requests before
      have starlessU : ∀ c ∈ u, c ≠ 42 := fun c member => starless c (List.mem_append_left _ member)
      rw [requestsHandled_starless (starless_drop starlessU)]
      cases later with
      | nil =>
        cases messages with
        | nil => rfl
        | cons message messages =>
          have lengths := congrArg List.length isRest
          have := encode_positive message
          simp only [List.map_nil, List.flatten_nil, List.length_nil, streamOf_cons, List.length_append] at lengths
          omega
      | cons chunk later =>
        rw [cutsFrom_skip (by simp), List.length_append, Nat.add_sub_cancel_left] at cuts
        have starlessFront : ∀ c ∈ front, c ≠ 42 := fun c member => starless c (List.mem_append_right _ member)
        refine inductionHypothesis _ ?_ starlessFront isRest cuts rfl
        simp only [List.map_cons, List.flatten_cons, List.length_append, List.length_cons] at size ⊢
        omega
    · rw [requestsHandled_skip starless]
      cases messages with
      | nil =>
        have : w ++ (later.map Prod.fst).flatten = [] := isStream
        simp [nonempty] at this
      | cons message messages =>
        have started := List.length_pos_iff.mpr nonempty
        have positive := encode_positive message
        obtain ⟨v, rfl, isRest⟩ | ⟨missing, lacks, split, isRest⟩ := message_split isStream
        · rw [requestsHandled_message]
          rw [cutsFrom_whole (u := v) (by simp only [List.length_append]; omega)] at cuts
          rw [inductionHypothesis _ (by simp only [List.length_append] at size ⊢; omega) starless_nil isRest cuts rfl]
          rfl
        · have lengths := congrArg List.length split
          have enough := cuts [leftover ++ w] (later.map Prod.fst) rfl [] message messages rfl
          have before : (streamOf []).length = 0 := rfl
          simp only [List.flatten_singleton, List.length_append, before] at lengths enough
          have few : missing.length ≤ 2 := by
            have := enough (by omega)
            omega
          rw [requestsHandled_cut message split nonempty few]
          rw [cutsFrom_cut (by rw [List.length_append]; omega) (by rw [List.length_append]; omega),
            show leftover.length + (encode message.elements).length - (leftover ++ w).length = missing.length by
              rw [List.length_append]; omega] at cuts
          cases later with
          | nil => simp [lacks] at isRest
          | cons chunk later =>
            rw [inductionHypothesis _ (by
              simp only [List.map_cons, List.flatten_cons, List.length_append, List.length_cons] at size ⊢
              omega) (starless_missing split few) isRest cuts rfl]
            rfl

/-- A request that is cut and still handed over lacks its last two bytes at most: one that is given up, or taken
for another one, is lost. -/
theorem few_of_handled {w missing : Bytes} (nonempty : w ≠ []) (split : encode message.elements = w ++ missing)
    (isRest : chunks.flatten = missing ++ streamOf messages)
    (handled : requestsHandled ((w, []) :: fresh chunks) = (requestsOf (message :: messages), none)) :
    missing.length ≤ 2 := by
  obtain ⟨tail, head⟩ := encode_head message.elements
  obtain ⟨c, rest, rfl⟩ := List.exists_cons_of_ne_nil nonempty
  obtain rfl : c = 42 := by
    rw [head, List.cons_append, List.cons.injEq] at split
    exact split.1.symm
  have stream : (42 :: rest) ++ chunks.flatten = streamOf (message :: messages) := by
    rw [streamOf_cons, split, isRest, List.append_assoc]
  cases parsed : parse (42 :: rest ++ [0]) 0 with
  | error f =>
    rw [requestsHandled_error parsed] at handled
    simp at handled
  | ok result =>
    cases result with
    | none =>
      rw [requestsHandled_rejected parsed] at handled
      -- given up: the loop is behind the `*`, and never at the start of this request again
      refine absurd handled (shifted ⟨[42], by rw [← stream]; rfl⟩ ?_)
      rw [← stream, List.cons_append, List.length_cons]
      exact Nat.lt_succ_self _
    | some taken =>
      obtain ⟨request, next⟩ := taken
      rw [requestsHandled_taken parsed] at handled
      simp only [requestsOf, List.map_cons, Prod.mk.injEq, List.cons.injEq] at handled
      obtain ⟨⟨rfl, _⟩, _⟩ := handled
      -- taken: `parse` went over all of the request but its last CR LF
      have reaches := message_reaches message ⟨missing, split.symm⟩ parsed
      rw [split, List.length_append] at reaches
      omega

/-- Where every request is handed over, none is cut before its last two bytes. -/
theorem cuts_of_handled {leftover : Bytes} (starless : ∀ c ∈ leftover, c ≠ 42)
    (whole : u ++ chunks.flatten = leftover ++ streamOf messages)
    (handled : requestsHandled ((u, []) :: fresh chunks) = (requestsOf messages, none)) :
    CutsFrom leftover.length messages (u :: chunks) := by
  induction size : (u ++ chunks.flatten).length + chunks.length using Nat.strong_induction_on
    generalizing u chunks leftover messages with
  | _ size inductionHypothesis =>
    obtain ⟨front, rfl, isRest⟩ | ⟨w, nonempty, rfl, isStream⟩ := leftover_split whole
    · have starlessU : ∀ c ∈ u, c ≠ 42 := fun c member => starless c (List.mem_append_left _ member)
      rw [requestsHandled_starless (starless_drop starlessU)] at handled
      cases messages with
      | nil => exact cutsFrom_nil _ _
      | cons message messages =>
        cases chunks with
        | nil => simp [fresh, requestsHandled, requestsOf] at handled
        | cons chunk chunks =>
          rw [cutsFrom_skip (by simp), List.length_append, Nat.add_sub_cancel_left]
          have starlessFront : ∀ c ∈ front, c ≠ 42 := fun c member => starless c (List.mem_append_right _ member)
          refine inductionHypothesis _ ?_ starlessFront isRest handled rfl
          simp only [List.flatten_cons, List.length_append, List.length_cons] at size ⊢
          omega
    · rw [requestsHandled_skip starless] at handled
      cases messages with
      | nil => exact cutsFrom_nil _ _
      | cons message messages =>
        have positive := encode_positive message
        obtain ⟨v, rfl, isRest⟩ | ⟨missing, lacks, split, isRest⟩ := message_split isStream
        · rw [requestsHandled_message] at handled
          simp only [requestsOf, List.map_cons, Prod.mk.injEq, List.cons.injEq, true_and] at handled
          rw [cutsFrom_whole (u := v) (by simp only [List.length_append]; omega)]
          exact inductionHypothesis _ (by simp only [List.length_append] at size ⊢; omega) starless_nil isRest
            (Prod.ext handled.1 handled.2) rfl
        -- the request is cut, and it was taken: only its CR LF can be missing
        · have few := few_of_handled nonempty split isRest handled
          have lengths := congrArg List.length split
          rw [List.length_append] at lengths
          rw [requestsHandled_cut message split nonempty few] at handled
          simp only [requestsOf, List.map_cons, Prod.mk.injEq, List.cons.injEq, true_and] at handled
          rw [cutsFrom_cut (by rw [List.length_append]; omega) (by rw [List.length_append]; omega),
            show leftover.length + (encode message.elements).length - (leftover ++ w).length = missing.length by
              rw [List.length_append]; omega]
          cases chunks with
          | nil => simp [lacks] at isRest
          | cons chunk chunks =>
            refine inductionHypothesis _ ?_ (starless_missing split few) isRest (Prod.ext handled.1 handled.2) rfl
            simp only [List.flatten_cons, List.length_append, List.length_cons] at size ⊢
            omega

theorem requestsHandled_whole {messages : List PlainMessage} {whole : List (Bytes × Bytes)}
    (arrives : whole.map Prod.fst = messages.map fun message => encode message.elements) :
    requestsHandled whole = (requestsOf messages, none) := by
  induction messages generalizing whole with
  | nil =>
    obtain rfl := List.map_eq_nil_iff.mp arrives
    rfl
  | cons message messages inductionHypothesis =>
    obtain ⟨⟨bytes, stale⟩, later, rfl, isBytes, rest⟩ := List.map_eq_cons_iff.mp arrives
    simp only at isBytes
    subst isBytes
    have alone := @requestsHandled_message [] stale later message
    rw [List.append_nil] at alone
    rw [alone, requestsHandled_starless rfl, inductionHypothesis rest]
    rfl

/-- The loop hands over the same requests as when every request arrives whole exactly when every result of
`recv` that begins a request holds all of it but, at most, its last CR and LF. -/
theorem split_invariant_iff (messages : List PlainMessage) (chunks : List Bytes)
    (arrives : chunks.flatten = streamOf messages) :
    SplitInvariant messages chunks ↔ CutsAtEnds messages chunks := by
  constructor
  · intro invariant
    -- one chunk for every message is one of the ways to receive it whole
    have wholly := map_fst_fresh (messages.map fun message => encode message.elements)
    have handled := invariant (fresh chunks) _ (map_fst_fresh chunks) wholly
    rw [requestsHandled_whole wholly] at handled
    rw [← cutsFrom_zero]
    cases chunks with
    | nil =>
      intro front back isNil before message after isMessages begun
      obtain ⟨rfl, _⟩ := List.append_eq_nil_iff.mp isNil.symm
      simp at begun
    | cons chunk chunks => exact cuts_of_handled starless_nil arrives handled
  · intro cuts received whole isChunks isWhole
    rw [requestsHandled_whole isWhole]
    cases received with
    | nil =>
      subst isChunks
      cases messages with
      | nil => rfl
      | cons message messages =>
        have := congrArg List.length arrives
        have := encode_positive message
        simp only [List.map_nil, List.flatten_nil, List.length_nil, streamOf_cons, List.length_append] at *
        omega
    | cons first later =>
      obtain ⟨bytes, stale⟩ := first
      subst isChunks
      exact handled_of_cuts starless_nil arrives (cutsFrom_zero.mpr cuts)

def pingMessage : PlainMessage := ⟨⟨[lit "PING"], by decide, by decide, by decide +kernel⟩, by decide +kernel⟩

/-- Two requests, the first without its last CR and LF. -/
theorem split_invariant_iff_pings :
    SplitInvariant [pingMessage, pingMessage] [lit "*1\r\n$4\r\nPING", lit "\r\n*1\r\n$4\r\nPING\r\n"] := by
  refine (split_invariant_iff [pingMessage, pingMessage] _ (by decide +kernel)).mpr (cutsFrom_zero.mp ?_)
  rw [cutsFrom_cut (by decide +kernel) (by decide +kernel), cutsFrom_whole (u := []) (by decide +kernel)]
  exact cutsFrom_nil _ _

/-- A request that is cut in its string is lost. -/
theorem split_ping_is_lost :
    ¬ ∀ (messages : List PlainMessage) (chunks : List Bytes), chunks.flatten = streamOf messages →
      (∀ chunk ∈ chunks, 0 < chunk.length ∧ chunk.length < 4096) → SplitInvariant messages chunks := by
  intro invariant
  have same := invariant [pingMessage] [lit "*1\r\n$4\r\nPI", lit "NG\r\n"] (by decide +kernel) (by decide +kernel)
    [(lit "*1\r\n$4\r\nPI", []), (lit "NG\r\n", [])] [(encode pingMessage.elements, [])] rfl rfl
  exact absurd same (by decide +kernel)

end RedisClone
