import RedisClone.Verified.Wire

/-! # What the parse loop reads of a received buffer

`getLine` stops at a CR or a NUL, and the pointer then moves on by two bytes whatever they are.  A
line that ends less than two bytes before the end of the received bytes therefore takes the
pointer past the NUL behind them.  `messageFate` says what becomes of a message, given the received
bytes from its start; `parse_fate` shows that this is what `parse` does with them, and that only a
message that is cut short makes `parse` read further.
-/

namespace RedisClone

open CString

/-! ## Messages within the received bytes -/

def lineOf (s : Bytes) : Bytes := s.takeWhile isText

/-- What follows a line and the two bytes of its end, if the bytes go that far. -/
def afterLine (s : Bytes) : Option Bytes :=
  if (lineOf s).length + 2 ≤ s.length then some (s.drop ((lineOf s).length + 2)) else none

inductive Fate (α : Type) where
  /-- The message is read, and these bytes follow. -/
  | taken (result : α) (rest : Bytes)
  | rejected
  /-- A line must be read that begins after the last byte. -/
  | cut
  /-- A line, the list of arguments or their number does not fit where it is stored. -/
  | tooLong

/-- The elements `i, …, i + remaining - 1` of a message, from the bytes where they begin. -/
def elementsFate : (remaining i : Nat) → PartialRequest → Bytes → Fate PartialRequest
  | 0, _, partialReq, s => .taken partialReq s
  | remaining + 1, i, partialReq, s =>
    if 256 ≤ (lineOf s).length then .tooLong
    else if getPrefix (lineOf s) = none then .rejected
    else
      match afterLine s with
      | none => .cut
      | some value =>
        if 256 ≤ (lineOf value).length then .tooLong
        else if ((lineOf value).length : Int) ≠ atoi (lineOf s).tail then .rejected
        else
          match partialReq.store i (lineOf value) with
          | .error _ => .tooLong
          | .ok stored =>
            if remaining ≠ 0 ∧ afterLine value = none then .cut
            else elementsFate remaining (i + 1) stored (value.drop ((lineOf value).length + 2))

/-- A message, from its first byte. -/
def messageFate (s : Bytes) : Fate Unit :=
  if 256 ≤ (lineOf s).length then .tooLong
  else if getPrefix (lineOf s) ≠ some 42 then .rejected
  else if atoi (lineOf s).tail = -2 ^ 31 then .tooLong
  else if atoi (lineOf s).tail ≤ 0 then .taken () (s.drop ((lineOf s).length + 2))
  else
    match afterLine s with
    | none => .cut
    | some elements =>
      match elementsFate (atoi (lineOf s).tail).toNat 0 {} elements with
      | .taken _ rest => .taken () rest
      | .rejected => .rejected
      | .cut => .cut
      | .tooLong => .tooLong

/-- No message that the loop starts to read is cut short by the end of the bytes. -/
def uncutFrom : (fuel : Nat) → Bytes → Prop
  | 0, _ => True
  | fuel + 1, s =>
    match s.dropWhile (· ≠ 42) with
    | [] => True
    | c :: rest =>
      match messageFate (c :: rest) with
      | .taken _ after => uncutFrom fuel after
      | .rejected => uncutFrom fuel rest
      | .cut => False
      | .tooLong => True

def Uncut (bytes : Bytes) : Prop := uncutFrom bytes.length bytes

/-! ## Lines of a buffer -/

/-- The line at a place among the received bytes is the same whatever follows them. -/
theorem getLine_received {bytes : Bytes} {ptr : Nat} (inside : ptr ≤ bytes.length)
    (stale : Bytes) :
    getLine (bytes ++ 0 :: stale) ptr =
      if (lineOf (bytes.drop ptr)).length < 256 then .ok (lineOf (bytes.drop ptr))
      else .error .outOfBounds := by
  have here : (bytes ++ 0 :: stale).drop ptr = bytes.drop ptr ++ 0 :: stale :=
    List.drop_append_of_le_length inside
  have split : lineOf (bytes.drop ptr) ++ (bytes.drop ptr).dropWhile isText = bytes.drop ptr :=
    List.takeWhile_append_dropWhile
  have plain : Plain (lineOf (bytes.drop ptr)) := plain_takeWhile _
  rw [getLine, here]
  cases after : (bytes.drop ptr).dropWhile isText with
  | nil =>
    rw [after, List.append_nil] at split
    have whole : bytes.drop ptr ++ 0 :: stale = lineOf (bytes.drop ptr) ++ 0 :: stale := by
      rw [split]
    rw [whole]
    exact getLineFrom_line plain (show isText 0 = false from rfl) stale 256
  | cons c rest =>
    have head := List.head?_dropWhile_not isText (bytes.drop ptr)
    rw [after] at head split
    have whole : bytes.drop ptr ++ 0 :: stale =
        lineOf (bytes.drop ptr) ++ c :: (rest ++ 0 :: stale) := by
      conv_lhs => rw [← split]
      simp
    rw [whole]
    exact getLineFrom_line plain (by simpa using head) _ 256

theorem getLine_past {bytes : Bytes} {ptr : Nat} (past : bytes.length < ptr) :
    getLine (bytes ++ [0]) ptr = .error .overread := by
  have gone : (bytes ++ [0]).drop ptr = [] := List.drop_of_length_le (by simp; omega)
  rw [getLine, gone]
  rfl

theorem afterLine_eq_some {bytes rest : Bytes} {ptr : Nat}
    (found : afterLine (bytes.drop ptr) = some rest) :
    rest = bytes.drop (ptr + (lineOf (bytes.drop ptr)).length + 2) ∧
      ptr + (lineOf (bytes.drop ptr)).length + 2 ≤ bytes.length := by
  unfold afterLine at found
  split at found
  · rename_i fits
    rw [List.length_drop] at fits
    rw [List.drop_drop, Option.some.injEq] at found
    exact ⟨by rw [← found, Nat.add_assoc], by omega⟩
  · simp at found

theorem afterLine_eq_none {bytes : Bytes} {ptr : Nat} (missing : afterLine (bytes.drop ptr) = none) :
    bytes.length < ptr + (lineOf (bytes.drop ptr)).length + 2 := by
  unfold afterLine at missing
  split at missing
  · simp at missing
  · rename_i short
    rw [List.length_drop] at short
    omega

theorem store_error {partialReq : PartialRequest} {i : Nat} {line : Bytes} {f : Fault}
    (failed : partialReq.store i line = .error f) : f = .outOfBounds := by
  unfold PartialRequest.store at failed
  split at failed
  · split at failed <;> simp at failed
  · split at failed
    · simp at failed
    · split at failed
      · simp at failed
      · simpa using failed.symm

/-! ## `parse` does what the fate says -/

/-- The outcome of a reader on every memory that begins with the received bytes and a NUL.  `read`
gives the outcome for the bytes behind the NUL. -/
def Follows {α : Type} (bytes : Bytes) (ptr : Nat)
    (read : Bytes → Except Fault (Option (α × Nat))) : Fate α → Prop
  | .taken result rest =>
    ∃ next, ptr ≤ next ∧ bytes.drop next = rest ∧ ∀ stale, read stale = .ok (some (result, next))
  | .rejected => ∀ stale, read stale = .ok none
  | .cut => read [] = .error .overread
  | .tooLong => ∃ f, f ≠ .overread ∧ ∀ stale, read stale = .error f

theorem Follows.mono {α : Type} {bytes : Bytes} {ptr ptr' : Nat} (later : ptr ≤ ptr')
    {read : Bytes → Except Fault (Option (α × Nat))} {fate : Fate α}
    (follows : Follows bytes ptr' read fate) : Follows bytes ptr read fate := by
  cases fate with
  | taken result rest =>
    obtain ⟨next, order, same, reads⟩ := follows
    exact ⟨next, Nat.le_trans later order, same, reads⟩
  | rejected => exact follows
  | cut => exact follows
  | tooLong => exact follows

theorem parseElements_fate {bytes : Bytes} (remaining i : Nat) (partialReq : PartialRequest)
    {ptr : Nat} (inside : remaining = 0 ∨ ptr ≤ bytes.length) :
    Follows bytes ptr
      (fun stale => parseElements (bytes ++ 0 :: stale) remaining i partialReq ptr)
      (elementsFate remaining i partialReq (bytes.drop ptr)) := by
  induction remaining generalizing i partialReq ptr with
  | zero => exact ⟨ptr, Nat.le_refl _, rfl, fun _ => rfl⟩
  | succ remaining inductionHypothesis =>
    have within : ptr ≤ bytes.length := inside.resolve_left (by omega)
    -- the line with the announced length is inside the buffer, so its fate is read off the received bytes
    have announced := getLine_received within
    unfold elementsFate
    by_cases longLine : 256 ≤ (lineOf (bytes.drop ptr)).length
    · rw [if_pos longLine]
      refine ⟨.outOfBounds, by decide, fun stale => ?_⟩
      simp only [parseElements, announced, if_neg (Nat.not_lt.mpr longLine)]
    rw [if_neg longLine]
    simp only [if_pos (Nat.lt_of_not_le longLine)] at announced
    by_cases unprefixed : getPrefix (lineOf (bytes.drop ptr)) = none
    · rw [if_pos unprefixed]
      intro stale
      simp only [parseElements, announced, if_pos unprefixed]
    rw [if_neg unprefixed]
    -- the value may begin behind the NUL; then what `parse` reads is left over from an earlier `recv`
    cases value : afterLine (bytes.drop ptr) with
    | none =>
      have past := getLine_past (afterLine_eq_none value)
      simp only [Follows, parseElements, announced, if_neg unprefixed, past]
    | some valueBytes =>
      obtain ⟨found, valueInside⟩ := afterLine_eq_some value
      obtain ⟨valuePtr, same⟩ : ∃ valuePtr, ptr + (lineOf (bytes.drop ptr)).length + 2 = valuePtr :=
        ⟨_, rfl⟩
      rw [same] at found valueInside
      subst found
      have read := getLine_received valueInside
      simp only
      by_cases longValue : 256 ≤ (lineOf (bytes.drop valuePtr)).length
      · rw [if_pos longValue]
        refine ⟨.outOfBounds, by decide, fun stale => ?_⟩
        simp only [parseElements, announced, if_neg unprefixed, same, read,
          if_neg (Nat.not_lt.mpr longValue)]
      rw [if_neg longValue]
      simp only [if_pos (Nat.lt_of_not_le longValue)] at read
      by_cases mismatch : ((lineOf (bytes.drop valuePtr)).length : Int) ≠
          atoi (lineOf (bytes.drop ptr)).tail
      · rw [if_pos mismatch]
        intro stale
        simp only [parseElements, announced, if_neg unprefixed, same, read, if_pos mismatch]
      rw [if_neg mismatch]
      cases stores : partialReq.store i (lineOf (bytes.drop valuePtr)) with
      | error f =>
        refine ⟨.outOfBounds, by decide, fun stale => ?_⟩
        simp only [parseElements, announced, if_neg unprefixed, same, read, if_neg mismatch, stores,
          store_error stores]
      | ok stored =>
        have step : ∀ stale, parseElements (bytes ++ 0 :: stale) (remaining + 1) i partialReq ptr =
            parseElements (bytes ++ 0 :: stale) remaining (i + 1) stored
              (valuePtr + (lineOf (bytes.drop valuePtr)).length + 2) := by
          intro stale
          simp only [parseElements, announced, if_neg unprefixed, same, read, if_neg mismatch,
            stores]
        simp only [step]
        -- only an element that is still to come makes the end of the bytes matter
        by_cases isCut : remaining ≠ 0 ∧ afterLine (bytes.drop valuePtr) = none
        · rw [if_pos isCut]
          obtain ⟨more, rfl⟩ := Nat.exists_eq_succ_of_ne_zero isCut.1
          have past := getLine_past (afterLine_eq_none isCut.2)
          simp only [Follows, parseElements, past]
        · rw [if_neg isCut, List.drop_drop, ← Nat.add_assoc]
          refine Follows.mono (by omega) (inductionHypothesis (i + 1) stored ?_)
          by_cases last : remaining = 0
          · exact .inl last
          · cases next : afterLine (bytes.drop valuePtr) with
            | none => exact absurd ⟨last, next⟩ isCut
            | some rest => exact .inr (afterLine_eq_some next).2

theorem parse_fate {bytes : Bytes} {ptr : Nat} (inside : ptr ≤ bytes.length) :
    ∃ fate : Fate RespRequest,
      Follows bytes (ptr + 1) (fun stale => parse (bytes ++ 0 :: stale) ptr) fate ∧
        messageFate (bytes.drop ptr) =
          match fate with
          | .taken _ rest => .taken () rest
          | .rejected => .rejected
          | .cut => .cut
          | .tooLong => .tooLong := by
  have announced := getLine_received inside
  unfold messageFate
  by_cases longLine : 256 ≤ (lineOf (bytes.drop ptr)).length
  · rw [if_pos longLine]
    refine ⟨.tooLong, ⟨.outOfBounds, by decide, fun stale => ?_⟩, rfl⟩
    simp only [parse, announced, if_neg (Nat.not_lt.mpr longLine)]
  rw [if_neg longLine]
  simp only [if_pos (Nat.lt_of_not_le longLine)] at announced
  by_cases starless : getPrefix (lineOf (bytes.drop ptr)) ≠ some 42
  · rw [if_pos starless]
    refine ⟨.rejected, fun stale => ?_, rfl⟩
    simp only [parse, announced, if_pos starless]
  rw [if_neg starless]
  by_cases least : atoi (lineOf (bytes.drop ptr)).tail = -2 ^ 31
  · rw [if_pos least]
    have empty : atoi (lineOf (bytes.drop ptr)).tail ≤ 0 := by omega
    refine ⟨.tooLong, ⟨.overflow, by decide, fun stale => ?_⟩, rfl⟩
    simp only [parse, announced, if_neg starless, dif_pos empty, if_pos least]
  rw [if_neg least]
  -- without an element nothing behind the first line is read
  by_cases empty : atoi (lineOf (bytes.drop ptr)).tail ≤ 0
  · rw [if_pos empty]
    refine ⟨.taken (emptyRequest _ empty) _, ⟨ptr + (lineOf (bytes.drop ptr)).length + 2, by omega,
      by rw [List.drop_drop, Nat.add_assoc], fun stale => ?_⟩, rfl⟩
    simp only [parse, announced, if_neg starless, dif_pos empty, if_neg least]
  rw [if_neg empty]
  cases elements : afterLine (bytes.drop ptr) with
  | none =>
    refine ⟨.cut, ?_, rfl⟩
    -- the first element already lies behind the NUL
    have past := getLine_past (afterLine_eq_none elements)
    obtain ⟨more, count⟩ : ∃ more, (atoi (lineOf (bytes.drop ptr)).tail).toNat = more + 1 :=
      Nat.exists_eq_succ_of_ne_zero (by omega)
    simp only [Follows, parse, announced, if_neg starless, dif_neg empty, count, parseElements,
      past]
  | some elementBytes =>
    obtain ⟨same, elementsInside⟩ := afterLine_eq_some elements
    subst same
    have follows := parseElements_fate (atoi (lineOf (bytes.drop ptr)).tail).toNat 0 {}
      (.inr elementsInside)
    simp only
    cases fate : elementsFate (atoi (lineOf (bytes.drop ptr)).tail).toNat 0 {}
        (bytes.drop (ptr + (lineOf (bytes.drop ptr)).length + 2)) with
    | taken partialReq rest =>
      rw [fate] at follows
      obtain ⟨next, order, rest_eq, reads⟩ := follows
      refine ⟨.taken partialReq.finish rest, ⟨next, by omega, rest_eq, fun stale => ?_⟩, rfl⟩
      simp only [parse, announced, if_neg starless, dif_neg empty, reads stale]
    | rejected =>
      rw [fate] at follows
      refine ⟨.rejected, fun stale => ?_, rfl⟩
      simp only [parse, announced, if_neg starless, dif_neg empty, follows stale]
    | cut =>
      rw [fate] at follows
      refine ⟨.cut, ?_, rfl⟩
      simp only [Follows] at follows ⊢
      simp only [parse, announced, if_neg starless, dif_neg empty, follows]
    | tooLong =>
      rw [fate] at follows
      obtain ⟨f, notOverread, fails⟩ := follows
      refine ⟨.tooLong, ⟨f, notOverread, fun stale => ?_⟩, rfl⟩
      simp only [parse, announced, if_neg starless, dif_neg empty, fails stale]

/-! ## The whole buffer -/

/-- The parse loop makes the same calls whatever is behind the received bytes and their NUL, and
reads no byte behind the NUL. -/
def ReadsOnlyReceived (bytes : Bytes) : Prop :=
  (∀ stale stale', handleCalls (bytes ++ 0 :: stale) bytes.length =
    handleCalls (bytes ++ 0 :: stale') bytes.length) ∧
  (handleCalls (bytes ++ [0]) bytes.length).2 ≠ some .overread

theorem skipToStar_eq {bytes : Bytes} (stale : Bytes) (ptr : Nat) :
    skipToStar (bytes ++ 0 :: stale) bytes.length ptr =
      ptr + ((bytes.drop ptr).takeWhile (· ≠ 42)).length := by
  rw [skipToStar, List.take_left]

theorem drop_takeWhile_length {α : Type} (p : α → Bool) (l : List α) :
    l.drop (l.takeWhile p).length = l.dropWhile p := by
  have split : l.takeWhile p ++ l.dropWhile p = l := List.takeWhile_append_dropWhile
  calc l.drop (l.takeWhile p).length
      = (l.takeWhile p ++ l.dropWhile p).drop (l.takeWhile p).length := by rw [split]
    _ = l.dropWhile p := List.drop_left

theorem handleCallsFrom_uncut {bytes : Bytes} (fuel ptr : Nat) :
    ((∀ stale, handleCallsFrom (bytes ++ 0 :: stale) bytes.length fuel ptr =
        handleCallsFrom (bytes ++ [0]) bytes.length fuel ptr) ∧
      (handleCallsFrom (bytes ++ [0]) bytes.length fuel ptr).2 ≠ some .overread) ↔
      uncutFrom fuel (bytes.drop ptr) := by
  induction fuel generalizing ptr with
  | zero => simp [handleCallsFrom, uncutFrom]
  | succ fuel inductionHypothesis =>
    obtain ⟨before, place⟩ :
        ∃ before, ptr + ((bytes.drop ptr).takeWhile (· ≠ 42)).length = before := ⟨_, rfl⟩
    have skipped : ∀ stale, skipToStar (bytes ++ 0 :: stale) bytes.length ptr = before :=
      fun stale => (skipToStar_eq stale ptr).trans place
    have here : bytes.drop before = (bytes.drop ptr).dropWhile (· ≠ 42) := by
      rw [← place, ← List.drop_drop, drop_takeWhile_length]
    simp only [handleCallsFrom, skipped, uncutFrom]
    rw [← here]
    cases suffix : bytes.drop before with
    | nil =>
      have ended : bytes.length ≤ before := List.drop_eq_nil_iff.mp suffix
      simp [ended]
    | cons c rest =>
      have inside : before < bytes.length := by
        by_contra ended
        rw [List.drop_of_length_le (by omega)] at suffix
        simp at suffix
      have after : bytes.drop (before + 1) = rest := by
        rw [← List.drop_drop, suffix, List.drop_one, List.tail_cons]
      simp only [if_neg (Nat.not_le.mpr inside)]
      -- the two loops go on at the same place, whatever the fate of this message is
      obtain ⟨fate, follows, same⟩ := parse_fate (Nat.le_of_lt inside)
      rw [suffix] at same
      rw [same]
      cases fate with
      | taken request rest =>
        obtain ⟨next, _, nextRest, reads⟩ := follows
        simp only [reads, List.cons.injEq, true_and, ← nextRest,
          ← inductionHypothesis next, Prod.ext_iff]
      | rejected =>
        simp only [Follows] at follows
        simp only [follows, ← after, ← inductionHypothesis (before + 1)]
      | cut =>
        simp only [Follows] at follows
        simp [follows]
      | tooLong =>
        obtain ⟨f, notOverread, fails⟩ := follows
        simp [fails, notOverread]

/-- The parse loop stays within the received bytes exactly when no message that it starts to read
is cut short by their end. -/
theorem readsOnlyReceived_iff (bytes : Bytes) : ReadsOnlyReceived bytes ↔ Uncut bytes := by
  have whole := @handleCallsFrom_uncut bytes bytes.length 0
  rw [List.drop_zero] at whole
  rw [Uncut, ← whole, ReadsOnlyReceived]
  refine and_congr_left fun _ => ⟨fun same stale => same stale [], fun same stale stale' => ?_⟩
  exact (same stale).trans (same stale').symm

/-- A message that ends after the length of its only string. -/
def cutMessage : Bytes := lit "*1\r\n$4"

/-- The command is read from what is behind the received bytes. -/
theorem handleCalls_cutMessage :
    handleCalls (cutMessage ++ 0 :: lit "?PING\r\n") cutMessage.length =
        ([⟨0, requestOf [lit "PING"], 14⟩], none) ∧
      handleCalls (cutMessage ++ 0 :: lit "?PONG\r\n") cutMessage.length ≠
        handleCalls (cutMessage ++ 0 :: lit "?PING\r\n") cutMessage.length ∧
      ¬ ReadsOnlyReceived cutMessage := by
  have runs : handleCalls (cutMessage ++ 0 :: lit "?PING\r\n") cutMessage.length =
      ([⟨0, requestOf [lit "PING"], 14⟩], none) := by decide +kernel
  have differs : handleCalls (cutMessage ++ 0 :: lit "?PONG\r\n") cutMessage.length ≠
      handleCalls (cutMessage ++ 0 :: lit "?PING\r\n") cutMessage.length := by decide +kernel
  exact ⟨runs, differs, fun reads => differs (reads.1 _ _)⟩

end RedisClone
