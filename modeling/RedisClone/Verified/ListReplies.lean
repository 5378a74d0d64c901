import RedisClone.Verified.Conservation
import RedisClone.Verified.SingleReplies

/-! # Arms of lists and sorted sets that send one complete value

LRANGE, ZRANGE and GEOSEARCH stop printing where an element does not fit, so that what they send is a value where all
elements fit.  RPUSH sends the pushed element to a waiting client, which is another one than the sender where the sender
does not wait for the key itself.
-/

namespace RedisClone

open Exec CString

variable {D : Type} {fd : Int} {w t : World D} {req : RespRequest} {ptr : ClientPtr} {client : Client}

/-! ## Elements that fit -/

/-- Texts that fit are in the array whole. -/
theorem appendGuarded_fits {size : Nat} (texts : List Bytes) {content : Bytes}
    (room : (content ++ texts.flatten).length < size) (w : World D) :
    Buffer.appendGuarded size texts ⟨content, content.length⟩ w =
      .ok (⟨content ++ texts.flatten, (content ++ texts.flatten).length⟩, w) := by
  induction texts generalizing content with
  | nil => simp [Buffer.appendGuarded]
  | cons text texts inductionHypothesis =>
    rw [List.flatten_cons, ← List.append_assoc] at room
    have lengths : content.length + text.length < size := by
      simp only [List.length_append] at room
      omega
    have printed := print_fits lengths w
    rw [Buffer.appendGuarded, bind_of_ok printed, if_pos lengths]
    have later := inductionHypothesis room
    rw [List.length_append] at later
    rw [later, List.flatten_cons, List.append_assoc]

/-! ## Lists -/

/-- The number of elements that a push leaves is a number that a C `int` counts. -/
def PushCounted (w : World D) (req : RespRequest) : Prop :=
  ∀ key ∈ req.args[0]?, (elements w.table key).length + req.args.length < 2 ^ 31

theorem replies_handleLpush (counted : PushCounted w req) : Replies fd (handleLpush req fd) w := by
  unfold handleLpush
  refine .ite (fun _ => replies_line (by decide)) fun _ => replies_arg fun key isKey => .after fun list opened opens => ?_
  obtain ⟨expiresAt, opens⟩ := openList_opens opens
  refine .after fun _ t _ => replies_count (by decide) ?_
  have counts := counted key isKey
  rw [opens.elements_eq] at counts
  rw [prependReversed_eq, List.length_append, List.length_reverse, List.length_drop]
  omega

/-- Nobody with the descriptor waits for the key. -/
theorem elsewhere_of_longest {key : Bytes} {waiter : ClientPtr} (only : w.OnlyFd ptr) (found : w.heap ptr = some client)
    (notWaiting : ¬ client.waitsFor key) (isLongest : longestOf w.clock (w.waiters key) none 0 = some waiter)
    {other : Client} (found' : w.heap waiter = some other) : other.fd ≠ client.fd := by
  intro same
  obtain ⟨client', member⟩ := longestOf_mem isLongest
  obtain ⟨slot, _, waits⟩ := List.mem_filterMap.mp member
  obtain ⟨inSlot, found'', waitsFor⟩ := waiterAt_eq_some.mp waits
  obtain rfl : other = client' := Option.some.inj (found'.symm.trans found'')
  obtain rfl : waiter = ptr := only slot waiter other client inSlot found' found same
  obtain rfl : client = other := Option.some.inj (found.symm.trans found')
  exact notWaiting waitsFor

theorem replies_handleRpush (counted : PushCounted w req) (only : w.OnlyFd ptr) (found : w.heap ptr = some client)
    (notWaiting : ∀ key ∈ req.args[0]?, ¬ client.waitsFor key) :
    Replies client.fd (handleRpush req client.fd) w := by
  by_cases few : req.argc < 2
  · unfold handleRpush
    rw [if_pos few]
    exact replies_line (by decide)
  · intro _ t run
    obtain ⟨key, list, expiresAt, opened, isKey, opens, pushes⟩ := handleRpush_ok (by omega) run
    have counts := counted key isKey
    rw [opens.elements_eq] at counts
    have counts : (list ++ req.args.drop 1).length < 2 ^ 31 := by
      rw [List.length_append, List.length_drop]
      omega
    have short := length_integerReply_le (Int.natCast_nonneg _) (by exact_mod_cast counts)
    have whole : (integerReply (list ++ req.args.drop 1).length).take 1023 =
        integerReply (list ++ req.args.drop 1).length := List.take_of_length_le (by omega)
    refine ⟨integerReply (list ++ req.args.drop 1).length, ?_, .integer _⟩
    cases pushes with
    | unserved nobody keeps stores =>
      rw [keeps, whole]
      exact bytesTo_emit w _
    | served waiter other first rest isLongest found' isFirst keeps stores =>
      have elsewhere := elsewhere_of_longest only found (notWaiting key isKey) isLongest found'
      rw [keeps, whole]
      have silent := SilentTo.emit (w.emit client.fd (integerReply (list ++ req.args.drop 1).length))
        ((popReply key first).take 1023) elsewhere
      exact Eq.trans silent (bytesTo_emit w _)

/-- The number of elements of the list is a number that a C `int` counts. -/
theorem replies_handleLlen (enough : 1 ≤ req.argc)
    (counted : ∀ key ∈ req.args[0]?, (elements w.table key).length < 2 ^ 31) : Replies fd (handleLlen req fd) w := by
  unfold handleLlen
  rw [if_neg (by omega)]
  refine replies_arg fun key isKey => replies_withList (fun _ => replies_line (by decide)) fun values expiresAt bound => ?_
  have counts := counted key isKey
  rw [elements_of_list (binding_of_lookup bound)] at counts
  exact replies_count (by decide) counts

/-- What LPOP sends fits its array, and there is room for the NUL. -/
def LpopFits (w : World D) (req : RespRequest) : Prop :=
  ∀ key ∈ req.args[0]?,
    (req.argc = 2 → ∀ count ∈ req.args[1]?,
      (arrayText ((elements w.table key).take (atoi count).toNat)).length < 2048) ∧
    (req.argc ≠ 2 → ∀ first ∈ (elements w.table key).head?, (bulk first).length < 2048)

theorem replies_sendPopped {popped : List Bytes} (fits : (arrayText popped).length < 2048) :
    Replies fd (sendPopped fd popped) w :=
  replies_appendAll (IsResp.bulks popped) fits

theorem replies_handleLpop (enough : 1 ≤ req.argc) (fits : LpopFits w req) : Replies fd (handleLpop req fd) w := by
  unfold handleLpop
  rw [if_neg (by omega)]
  refine replies_arg fun key isKey => replies_withList (fun _ => replies_send .nilBulk) fun values expiresAt bound => ?_
  obtain ⟨fitsCount, fitsOne⟩ := fits key isKey
  rw [elements_of_list (binding_of_lookup bound)] at fitsCount fitsOne
  cases values with
  | nil => exact replies_send (IsResp.bulks [])
  | cons first rest =>
    dsimp only [List.head?_cons]
    refine .ite (fun isCount => replies_arg fun count isArg => ?_) fun notCount => ?_
    · refine .ite (fun _ => replies_line (by decide)) fun _ => .ite (fun _ => replies_send (IsResp.bulks [])) fun _ => ?_
      have short := fitsCount isCount count isArg
      rw [List.take_eq_take_min] at short
      exact .before (replies_sendPopped short) fun _ => inferInstance
    · exact .before (replies_sendText (.bulk first) (fitsOne notCount first rfl)) fun _ => inferInstance

/-! ### LRANGE -/

theorem lrangeBounds_nonneg {size first last startIndex endIndex : Int}
    (run : (lrangeBounds size first last : M D (Int × Int)) w = .ok ((startIndex, endIndex), t)) :
    0 ≤ startIndex ∧ t = w := by
  unfold lrangeBounds at run
  split at run
  · simp [fault] at run
  · simp only [pure_run, Except.ok.injEq, Prod.mk.injEq] at run
    obtain ⟨⟨rfl, _⟩, rfl⟩ := run
    refine ⟨?_, rfl⟩
    split_ifs <;> omega

/-- The elements from the one at an index to the one at another. -/
def slice (values : List Bytes) (startIndex endIndex : Int) : List Bytes :=
  (values.drop startIndex.toNat).take (endIndex - startIndex + 1).toNat

/-- What LRANGE sends fits its array, and there is room for the NUL. -/
def LrangeFits (w : World D) (req : RespRequest) : Prop :=
  ∀ key first last startIndex endIndex, req.args[0]? = some key → req.args[1]? = some first → req.args[2]? = some last →
    lrangeBounds (elements w.table key).length (atoi first) (atoi last) w = .ok ((startIndex, endIndex), w) →
      (arrayText (slice (elements w.table key) startIndex endIndex)).length <
        if startIndex = endIndex then 1024 else 2048

/-- What LRANGE sends once it knows the bounds. -/
theorem between_run {values : List Bytes} {startIndex endIndex : Int} (nonneg : 0 ≤ startIndex)
    (short : (arrayText (slice values startIndex endIndex)).length < if startIndex = endIndex then 1024 else 2048) :
    ∃ text, IsResp text ∧ (do
      if (values.length : Int) ≤ startIndex ∨ endIndex < startIndex then send fd emptyArray
      else if startIndex = endIndex then
        match values[startIndex.toNat]? with
        | none => fault .outOfBounds
        | some value => sendText 1024 fd (lit "*1\r\n" ++ bulk value)
      else
        let endIndex := if (values.length : Int) ≤ endIndex then (values.length : Int) - 1 else endIndex
        let count := endIndex - startIndex + 1
        let header := arrayHeader count
        let selected := (values.drop startIndex.toNat).take count.toNat
        let listValue ← Buffer.appendGuarded 2048 (selected.map bulk) ⟨header, header.length⟩
        send fd listValue.content : M D Unit) t = .ok ((), t.emit fd text) := by
  by_cases outside : (values.length : Int) ≤ startIndex ∨ endIndex < startIndex
  · rw [if_pos outside]
    exact ⟨_, IsResp.bulks [], rfl⟩
  rw [if_neg outside]
  by_cases one : startIndex = endIndex
  · -- a single element
    rw [if_pos one, slice] at short
    rw [if_pos one]
    cases found : values[startIndex.toNat]? with
    | none => exact absurd (List.getElem?_eq_none_iff.mp found) (by omega)
    | some value =>
      have isOne : arrayText [value] = lit "*1\r\n" ++ bulk value := by
        have front : arrayHeader 1 = lit "*1\r\n" := by decide
        simp [arrayText, front]
      obtain ⟨inRange, isValue⟩ := List.getElem?_eq_some_iff.mp found
      rw [List.drop_eq_getElem_cons inRange, isValue, show (endIndex - startIndex + 1).toNat = 1 by omega,
        List.take_succ_cons, List.take_zero, isOne] at short
      have whole : (lit "*1\r\n" ++ bulk value).take 1023 = lit "*1\r\n" ++ bulk value :=
        List.take_of_length_le (by omega)
      exact ⟨_, isOne ▸ IsResp.bulks [value], congrArg (fun text => (send fd text : M D Unit) t) whole⟩
  · rw [if_neg one] at short
    rw [if_neg one]
    -- the last element ends the slice
    let stop := if (values.length : Int) ≤ endIndex then (values.length : Int) - 1 else endIndex
    have counts : (slice values startIndex stop).length = stop - startIndex + 1 := by
      rw [slice, List.length_take, List.length_drop]
      dsimp only [stop]
      split_ifs <;> omega
    have same : slice values startIndex endIndex = slice values startIndex stop := by
      by_cases beyond : (values.length : Int) ≤ endIndex
      · have isStop : stop = values.length - 1 := if_pos beyond
        rw [slice, slice, List.take_of_length_le (by rw [List.length_drop]; omega),
          List.take_of_length_le (by rw [List.length_drop]; omega)]
      · rw [show stop = endIndex from if_neg beyond]
    rw [same, arrayText, counts] at short
    have isResp := IsResp.bulks (slice values startIndex stop)
    rw [arrayText, counts] at isResp
    exact ⟨_, isResp, (bind_of_ok (appendGuarded_fits _ short t)).trans rfl⟩

theorem replies_handleLrange (enough : 3 ≤ req.argc) (fits : LrangeFits w req) :
    Replies fd (handleLrange req fd) w := by
  unfold handleLrange
  rw [if_neg (by omega)]
  refine replies_arg fun key isKey => replies_withList (fun _ => replies_send (IsResp.bulks [])) ?_
  intro values expiresAt bound
  refine replies_arg fun first isFirst => replies_arg fun last isLast => ?_
  intro _ u run
  obtain ⟨⟨startIndex, endIndex⟩, t, bounds, rest⟩ := bind_eq_ok.mp run
  obtain ⟨nonneg, rfl⟩ := lrangeBounds_nonneg bounds
  have short := fits key first last startIndex endIndex isKey isFirst isLast
  rw [elements_of_list (binding_of_lookup bound)] at short
  obtain ⟨text, isResp, run⟩ := between_run nonneg (short bounds)
  exact (show Replies fd _ _ from .of_ok run (bytesTo_emit _ text) isResp) _ u rest

/-! ### BLPOP -/

/-- What a client of BLPOP is sent at once fits the array. -/
def BlpopFits (w : World D) (req : RespRequest) : Prop :=
  ∀ key ∈ req.args[0]?, ∀ first ∈ (elements w.table key).head?, (popReply key first).length < 1024

theorem isResp_popReply (key value : Bytes) : IsResp (popReply key value) := by
  have isTwo : popReply key value = arrayText [key, value] := by
    have front : arrayHeader 2 = lit "*2\r\n" := by decide
    simp [arrayText, popReply, front]
  exact isTwo ▸ .bulks _

/-- The client is blocked, and was sent nothing. -/
def BlockedSilently (ptr : ClientPtr) (fd : Int) (w t : World D) : Prop :=
  SilentAt fd w t ∧ ∃ client, t.heap ptr = some client ∧ client.isBlocked = true

/-- One complete value was sent. -/
def SentOne (fd : Int) (w t : World D) : Prop := ∃ value, t.bytesTo fd = w.bytesTo fd ++ value ∧ IsResp value

theorem handleBlpop_answers [Externals D] (enough : 2 ≤ req.argc) (fits : BlpopFits w req)
    (found : w.heap ptr = some client) (run : handleBlpop req ptr w = .ok ((), t)) :
    ((∀ key ∈ req.args[0]?, elements w.table key = []) ∧ BlockedSilently ptr client.fd w t) ∨ SentOne client.fd w t := by
  cases handleBlpop_ok run with
  | nothing few => omega
  | popped key first rest expiresAt other _ isKey bound found' keeps =>
    obtain rfl : client = other := Option.some.inj (found.symm.trans found')
    have short := fits key isKey
    rw [elements_of_list bound] at short
    refine .inr ⟨popReply key first, ?_, isResp_popReply key first⟩
    rw [keeps, List.take_of_length_le (by have := short first rfl; omega)]
    exact bytesTo_emit w _
  | blocked key other timeoutAt blockedAt _ isKey empty found' keeps =>
    refine .inl ⟨fun key' isKey' => ?_, ?_⟩
    · obtain rfl : key = key' := Option.some.inj (isKey.symm.trans isKey')
      obtain unbound | ⟨_, bound⟩ := empty
      · exact elements_of_unbound unbound
      · exact elements_of_list bound
    · rw [keeps]
      exact ⟨rfl, _, Function.update_self _ _ _, rfl⟩

/-! ## Sorted sets -/

section SortedSets

theorem replies_handleZrank (enough : 2 ≤ req.argc) : Replies fd (handleZrank (D := D) req fd) w := by
  unfold handleZrank
  rw [if_neg (by omega)]
  refine replies_arg fun key _ => replies_withZSet (fun _ => replies_send .nilBulk) fun set _ _ => ?_
  refine replies_arg fun member _ => ?_
  split
  · exact replies_send (.integer _)
  · exact replies_send .nilBulk

theorem replies_handleZcard (enough : 1 ≤ req.argc)
    (counted : ∀ key ∈ req.args[0]?, ∀ set expiresAt, binding w.table key = some ⟨.zset set, expiresAt⟩ →
      set.length < 2 ^ 31) : Replies fd (handleZcard (D := D) req fd) w := by
  unfold handleZcard
  rw [if_neg (by omega)]
  refine replies_arg fun key isKey => replies_withZSet (fun _ => replies_line (by decide)) fun set expiresAt bound => ?_
  exact replies_count (by decide) (counted key isKey set expiresAt (binding_of_lookup bound))

theorem replies_handleZrem (enough : 2 ≤ req.argc) : Replies fd (handleZrem (D := D) req fd) w := by
  unfold handleZrem
  rw [if_neg (by omega)]
  refine replies_arg fun key _ => replies_withZSet (fun _ => replies_line (by decide)) fun set _ _ => ?_
  dsimp only
  exact .after fun _ _ _ => replies_send (.integer _)

/-! ### ZRANGE -/

/-- Where the members fit, a normal end has printed all of them. -/
theorem appendMembers_fits {size remaining : Nat} {entries : List (ZSetEntry D)} {content : Bytes} {printed : Buffer}
    (room : (content ++ ((entries.take remaining).map fun entry => bulk entry.member).flatten).length < size)
    (run : appendMembers size remaining entries ⟨content, content.length⟩ w = .ok (printed, t)) :
    remaining ≤ entries.length ∧ t = w ∧
      printed.content = content ++ ((entries.take remaining).map fun entry => bulk entry.member).flatten ∧
      printed.offset = printed.content.length := by
  induction remaining generalizing entries content with
  | zero =>
    simp only [appendMembers, pure_run, Except.ok.injEq, Prod.mk.injEq] at run
    obtain ⟨rfl, rfl⟩ := run
    simp
  | succ remaining inductionHypothesis =>
    cases entries with
    | nil => simp [appendMembers, fault] at run
    | cons entry entries =>
      rw [List.take_succ_cons, List.map_cons, List.flatten_cons, ← List.append_assoc] at room
      have fits : content.length + (bulk entry.member).length < size := by
        simp only [List.length_append] at room ⊢
        omega
      rw [appendMembers, bind_of_ok (print_fits fits w), if_pos fits, ← List.length_append] at run
      obtain ⟨enough, rfl, whole, offset⟩ := inductionHypothesis room run
      refine ⟨by simpa using enough, rfl, ?_, offset⟩
      rw [whole, List.take_succ_cons, List.map_cons, List.flatten_cons, List.append_assoc]

/-- The members from the one at an index to the one at another. -/
def memberSlice (set : ZSet D) (bounds : Int × Int) : List Bytes :=
  ((set.entries.drop bounds.1.toNat).take (bounds.2 - bounds.1 + 1).toNat).map (·.member)

/-- What ZRANGE sends fits its array, and there is room for the NUL. -/
def ZrangeFits (w : World D) (req : RespRequest) : Prop :=
  ∀ key first last set expiresAt, req.args[0]? = some key → req.args[1]? = some first → req.args[2]? = some last →
    binding w.table key = some ⟨.zset set, expiresAt⟩ →
      let bounds := zrangeBounds set.length (atoi first) (atoi last)
      (arrayHeader (bounds.2 - bounds.1 + 1) ++ ((memberSlice set bounds).map bulk).flatten).length < 4096

theorem replies_handleZrange (enough : 3 ≤ req.argc) (fits : ZrangeFits w req) :
    Replies fd (handleZrange (D := D) req fd) w := by
  unfold handleZrange
  rw [if_neg (by omega)]
  refine replies_arg fun key isKey => replies_withZSet (fun _ => replies_send (IsResp.bulks [])) ?_
  intro set expiresAt bound
  refine replies_arg fun first isFirst => replies_arg fun last isLast => ?_
  have short := fits key first last set expiresAt isKey isFirst isLast (binding_of_lookup bound)
  dsimp only
  refine .ite (fun _ => replies_send (IsResp.bulks [])) fun inside => .ite (fun _ => .of_error rfl) fun _ => ?_
  generalize zrangeBounds set.length (atoi first) (atoi last) = bounds at short inside ⊢
  obtain ⟨startIndex, endIndex⟩ := bounds
  dsimp only at inside ⊢
  intro _ u run
  obtain ⟨⟨content, offset⟩, t, prints, sends⟩ := bind_eq_ok.mp run
  dsimp only at short
  rw [memberSlice, List.map_map] at short
  obtain ⟨enough, rfl, whole, isOffset⟩ := appendMembers_fits short prints
  dsimp only at enough whole isOffset
  subst whole isOffset
  have counts : (memberSlice set (startIndex, endIndex)).length = endIndex - startIndex + 1 := by
    rw [memberSlice, List.length_map, List.length_take]
    dsimp only
    omega
  have isResp := IsResp.bulks (memberSlice set (startIndex, endIndex))
  rw [arrayText, counts, memberSlice, List.map_map] at isResp
  exact replies_sendPrefix isResp short _ u sends

/-! ### Scores -/

variable [Externals D]

theorem created_le (pairs : List (Bytes × Bytes)) (state : ZSet D × Nat) :
    (pairs.foldl addPair state).2 ≤ state.2 + pairs.length := by
  induction pairs generalizing state with
  | nil => simp
  | cons pair pairs inductionHypothesis =>
    have later := inductionHypothesis (addPair state pair)
    have one : (addPair state pair).2 ≤ state.2 + 1 := by
      unfold addPair
      dsimp only
      split <;> omega
    rw [List.foldl_cons, List.length_cons]
    omega

theorem length_scorePairs_le (words : List Bytes) : (scorePairs words).length ≤ words.length := by
  induction words using scorePairs.induct with
  | case1 score member rest inductionHypothesis =>
    simp only [scorePairs, List.length_cons]
    omega
  | case2 words _ =>
    rw [scorePairs]
    · simp
    · assumption

/-- `argc` is an `int`. -/
theorem replies_handleZadd (enough : 3 ≤ req.argc) (counted : req.args.length < 2 ^ 31) :
    Replies fd (handleZadd (D := D) req fd) w := by
  unfold handleZadd
  rw [if_neg (by omega)]
  refine .ite (fun _ => replies_line (by decide)) fun _ => replies_arg fun key _ => ?_
  refine .after fun set t _ => .ite (fun _ => ?_) fun _ => ?_
  · have created := created_le (scorePairs (req.args.drop 1)) (set, 0)
    have pairs := length_scorePairs_le (req.args.drop 1)
    rw [List.length_drop] at pairs
    dsimp only at created
    exact .after fun _ _ _ => replies_count (by decide) (by omega)
  · refine replies_arg fun score _ => replies_arg fun member _ => ?_
    dsimp only
    exact .after fun _ _ _ => .ite (fun _ => replies_line (by decide)) fun _ => replies_line (by decide)

theorem replies_handleZscore (enough : 2 ≤ req.argc) : Replies fd (handleZscore (D := D) req fd) w := by
  unfold handleZscore
  rw [if_neg (by omega)]
  refine replies_arg fun key _ => replies_withZSet (fun _ => replies_send .nilBulk) fun set _ _ => ?_
  refine replies_arg fun member _ => ?_
  split
  · rename_i entry _
    have short := length_doubleBulk entry.score
    exact replies_sendText (.bulk _) (by omega)
  · exact .ite (fun _ => .of_error rfl) fun _ => replies_send .nilBulk

/-! ### Geo commands -/

/-- `printf` writes a number on one line. -/
def PrintsNumbers (D : Type) [Externals D] : Prop :=
  ∀ value : D, ∀ c ∈ Externals.printG17 value, c ≠ 13 ∧ c ≠ 10

theorem isResp_invalidPair (prints : PrintsNumbers D) (longtitude latitude : D) :
    IsResp (invalidPair longtitude latitude) := by
  have front : lit "-ERR invalid longitude,latitude pair " = 45 :: lit "ERR invalid longitude,latitude pair " := by decide +kernel
  have plain : ∀ c ∈ lit "ERR invalid longitude,latitude pair ", c ≠ 13 ∧ c ≠ 10 := by decide +kernel
  have comma : ∀ c ∈ lit ",", c ≠ 13 ∧ c ≠ 10 := by decide +kernel
  unfold invalidPair
  rw [front]
  refine .line 45 (lit "ERR invalid longitude,latitude pair " ++ Externals.printG17 longtitude ++ lit "," ++
    Externals.printG17 latitude) (by simp) fun c member => ?_
  simp only [List.mem_append] at member
  obtain ((inText | inLongtitude) | inComma) | inLatitude := member
  · exact plain c inText
  · exact prints longtitude c inLongtitude
  · exact comma c inComma
  · exact prints latitude c inLatitude

theorem geoScores_error {triples : List (Bytes × Bytes × Bytes)} {invalidGeoMsg : Bytes}
    (refused : geoScores (D := D) triples = .error invalidGeoMsg) :
    ∃ longtitude latitude : D, invalidGeoMsg = invalidPair longtitude latitude := by
  induction triples with
  | nil => simp [geoScores] at refused
  | cons triple triples inductionHypothesis =>
    obtain ⟨longtitude, latitude, member⟩ := triple
    rw [geoScores] at refused
    dsimp only at refused
    split at refused
    · cases later : geoScores (D := D) triples with
      | error msg =>
        simp only [later, Except.error.injEq] at refused
        exact inductionHypothesis (refused ▸ later)
      | ok args => simp [later] at refused
    · exact ⟨_, _, (Except.error.inj refused).symm⟩

theorem geoScores_length {triples : List (Bytes × Bytes × Bytes)} {args : List Bytes}
    (scored : geoScores (D := D) triples = .ok args) : args.length = 2 * triples.length := by
  induction triples generalizing args with
  | nil =>
    obtain rfl : [] = args := Except.ok.inj scored
    rfl
  | cons triple triples inductionHypothesis =>
    obtain ⟨longtitude, latitude, member⟩ := triple
    rw [geoScores] at scored
    dsimp only at scored
    split at scored
    · cases later : geoScores (D := D) triples with
      | error msg => simp [later] at scored
      | ok others =>
        simp only [later, Except.ok.injEq] at scored
        rw [← scored, List.length_cons, List.length_cons, inductionHypothesis later, List.length_cons]
        omega
    · simp at scored

theorem length_geoTriples (words : List Bytes) : (geoTriples words).length = words.length / 3 := by
  induction words using geoTriples.induct with
  | case1 longtitude latitude member rest inductionHypothesis =>
    simp only [geoTriples, List.length_cons, inductionHypothesis]
    omega
  | case2 words short =>
    rw [geoTriples]
    · have few : words.length < 3 := by
        by_contra enough
        obtain _ | ⟨a, _ | ⟨b, _ | ⟨c, rest⟩⟩⟩ := words
        · simp at enough
        · simp at enough
        · simp at enough
        · exact short a b c rest rfl
      simp only [List.length_nil]
      omega
    · exact short

/-- What GEOADD sends about a pair outside the range fits the array. -/
def GeoaddFits (D : Type) [Externals D] (req : RespRequest) : Prop :=
  ∀ invalidGeoMsg, geoScores (D := D) (geoTriples (req.args.drop 1)) = .error invalidGeoMsg → invalidGeoMsg.length < 1024

theorem replies_handleGeoadd (prints : PrintsNumbers D) (enough : 4 ≤ req.argc) (counted : req.args.length < 2 ^ 31)
    (fits : GeoaddFits D req) : Replies fd (handleGeoadd (D := D) req fd) w := by
  unfold handleGeoadd
  rw [if_neg (by omega)]
  refine replies_arg fun key _ => ?_
  have supplied := req.supplied
  cases scored : geoScores (D := D) (geoTriples (req.args.drop 1)) with
  | error invalidGeoMsg =>
    obtain ⟨longtitude, latitude, rfl⟩ := geoScores_error scored
    exact replies_sendText (isResp_invalidPair prints longtitude latitude) (fits _ scored)
  | ok args =>
    have length := geoScores_length scored
    rw [length_geoTriples, List.length_drop] at length
    have some : 2 ≤ args.length := by omega
    refine replies_handleZadd ?_ ?_
    · change 3 ≤ (((key :: args).length : Nat) : Int)
      rw [List.length_cons]
      omega
    · change (key :: args).length < 2 ^ 31
      rw [List.length_cons]
      omega

theorem isResp_geoposText (entries : List (ZSetEntry D)) (member : Bytes) : IsResp (geoposText entries member) := by
  unfold geoposText
  split
  · exact .nilArray
  · rename_i entry _
    have front : arrayHeader 2 = lit "*2\r\n" := by decide
    have isTwo := IsResp.bulks [(Externals.printG17 (geoDecode (D := D) (scoreHash entry.score)).1).take 63,
      (Externals.printG17 (geoDecode (D := D) (scoreHash entry.score)).2).take 63]
    simpa [arrayText, front, doubleBulk] using isTwo

/-- What GEOPOS sends for the members. -/
def positionsText (req : RespRequest) (text : Bytes → Bytes) : Bytes :=
  arrayHeader (req.argc - 1) ++ ((req.args.drop 1).map text).flatten

omit [Externals D] in
theorem replies_sendPositions {size : Nat} {text : Bytes → Bytes} (enough : 2 ≤ req.argc)
    (isResp : ∀ member, IsResp (text member)) (fits : (positionsText req text).length < size) :
    Replies fd (sendPositions size req fd text) w := by
  have counts : req.argc - 1 = ((req.args.drop 1).map text).length := by
    have supplied := req.supplied
    rw [List.length_map, List.length_drop]
    omega
  have array := IsResp.array ((req.args.drop 1).map text) fun value member => by
    obtain ⟨word, _, rfl⟩ := List.mem_map.mp member
    exact isResp word
  rw [← counts] at array
  exact replies_appendAll array fits

/-- What GEOPOS sends fits the array, and there is room for the NUL. -/
def GeoposFits (w : World D) (req : RespRequest) : Prop :=
  (positionsText req fun _ => nilArray).length < 4096 ∧
    ∀ key ∈ req.args[0]?, ∀ set expiresAt, binding w.table key = some ⟨.zset set, expiresAt⟩ →
      (positionsText req (geoposText set.entries)).length < 8192

theorem replies_handleGeopos (enough : 2 ≤ req.argc) (fits : GeoposFits w req) : Replies fd (handleGeopos req fd) w := by
  unfold handleGeopos
  rw [if_neg (by omega)]
  refine replies_arg fun key isKey => replies_withZSet (fun _ => ?_) fun set expiresAt bound => ?_
  · exact replies_sendPositions enough (fun _ => .nilArray) fits.1
  · exact replies_sendPositions enough (isResp_geoposText set.entries)
      (fits.2 key isKey set expiresAt (binding_of_lookup bound))

theorem replies_handleGeodist (enough : 3 ≤ req.argc) : Replies fd (handleGeodist (D := D) req fd) w := by
  unfold handleGeodist
  rw [if_neg (by omega)]
  refine replies_arg fun key _ => replies_withZSet (fun _ => replies_send .nilBulk) fun set _ _ => ?_
  refine replies_arg fun first _ => replies_arg fun second _ => ?_
  dsimp only
  split
  · rename_i entry1 entry2 _ _
    have short := List.length_take_le 2047 (Externals.printG17 (haversineDistance entry1.score entry2.score))
    generalize (Externals.printG17 (haversineDistance entry1.score entry2.score)).take 2047 = distance at short ⊢
    have digits := length_decimal_le (show distance.length < 10 ^ 9 by omega)
    have dollarLength : (lit "$").length = 1 := by decide
    have crlfLength : crlf.length = 2 := by decide
    refine replies_sendText (.bulk distance) ?_
    simp only [bulk, List.length_append, dollarLength, crlfLength]
    omega
  · exact replies_line (by decide)

/-! ### GEOSEARCH -/

/-- The test of GEOSEARCH. -/
def inRange (score wantedRange : D) (entry : ZSetEntry D) : Bool :=
  Externals.le (haversineDistance score entry.score) wantedRange

/-- The test of GEOSEARCH, for the arguments it reads. -/
def withinRange (longtitude latitude radius unit : Bytes) : ZSetEntry D → Bool :=
  inRange (Externals.ofWord (geoEncode (Externals.atof longtitude : D) (Externals.atof latitude)))
    (scaleRange ((unit.head?).getD 0) (Externals.atof radius))

/-- Where the members fit, a normal end has printed all of them. -/
theorem selectMembers_fits {score wantedRange : D} {remaining count : Nat} {entries : List (ZSetEntry D)}
    {content : Bytes} {printed : Buffer} {membersCount : Nat}
    (room : (content ++ (((entries.take remaining).filter (inRange score wantedRange)).map
      fun entry => bulk entry.member).flatten).length < 1024)
    (run : selectMembers score wantedRange remaining entries ⟨content, content.length⟩ count w =
      .ok ((printed, membersCount), t)) :
    t = w ∧ printed.content = content ++ (((entries.take remaining).filter (inRange score wantedRange)).map
      fun entry => bulk entry.member).flatten ∧
      membersCount = count + ((entries.take remaining).filter (inRange score wantedRange)).length := by
  induction remaining generalizing entries content count with
  | zero =>
    simp only [selectMembers, pure_run, Except.ok.injEq, Prod.mk.injEq] at run
    obtain ⟨⟨rfl, rfl⟩, rfl⟩ := run
    simp
  | succ remaining inductionHypothesis =>
    cases entries with
    | nil => simp [selectMembers, fault] at run
    | cons entry entries =>
      rw [selectMembers, ← inRange] at run
      cases selected : inRange score wantedRange entry with
      | true =>
        rw [List.take_succ_cons, List.filter_cons_of_pos selected, List.map_cons, List.flatten_cons,
          ← List.append_assoc] at room
        have fits : content.length + (bulk entry.member).length < 1024 := by
          simp only [List.length_append] at room ⊢
          omega
        rw [if_pos selected] at run
        rw [bind_of_ok (print_fits fits w), if_pos fits, ← List.length_append] at run
        obtain ⟨rfl, whole, counts⟩ := inductionHypothesis room run
        rw [List.take_succ_cons, List.filter_cons_of_pos selected, List.map_cons, List.flatten_cons, whole, counts,
          List.append_assoc, List.length_cons]
        exact ⟨rfl, rfl, by omega⟩
      | false =>
        have passed : ¬ inRange score wantedRange entry = true := by simp [selected]
        rw [List.take_succ_cons, List.filter_cons_of_neg passed] at room ⊢
        rw [if_neg passed] at run
        exact inductionHypothesis room run

/-- The members that GEOSEARCH selects fit the array, and there is room for the NUL. -/
def GeosearchFits (w : World D) (req : RespRequest) : Prop :=
  ∀ key longtitude latitude radius unit set expiresAt, req.args[0]? = some key → req.args[2]? = some longtitude →
    req.args[3]? = some latitude → req.args[5]? = some radius → req.args[6]? = some unit →
      binding w.table key = some ⟨.zset set, expiresAt⟩ →
        (((set.entries.take set.length).filter (withinRange longtitude latitude radius unit)).map
          fun entry => bulk entry.member).flatten.length < 1024

theorem bulk_length_pos (s : Bytes) : 0 < (bulk s).length := by
  have dollarLength : (lit "$").length = 1 := by decide
  simp only [bulk, List.length_append, dollarLength]
  omega

theorem replies_handleGeosearch (enough : 7 ≤ req.argc) (fits : GeosearchFits w req) :
    Replies fd (handleGeosearch req fd) w := by
  unfold handleGeosearch
  rw [if_neg (by omega)]
  refine replies_arg fun key isKey => .after fun set opened opens => ?_
  refine replies_arg fun unit isUnit => replies_arg fun radius isRadius => ?_
  refine replies_arg fun longtitude isLongtitude => replies_arg fun latitude isLatitude => ?_
  obtain ⟨expiresAt, opens⟩ := openZSet_opens opens
  -- a set that GEOSEARCH creates has no members
  have short : (((set.entries.take set.length).filter (withinRange longtitude latitude radius unit)).map
      fun entry => bulk entry.member).flatten.length < 1024 := by
    obtain ⟨bound, _⟩ | ⟨_, isEmpty, _⟩ := opens.before
    · exact fits key longtitude latitude radius unit set expiresAt isKey isLongtitude isLatitude isRadius isUnit bound
    · rw [Value.zset.inj isEmpty]
      simp
  intro _ u run
  obtain ⟨⟨members, membersCount⟩, t, selects, sends⟩ := bind_eq_ok.mp run
  obtain ⟨rfl, whole, counts⟩ := @selectMembers_fits D _ _ _ _ _ _ _ _ [] _ _ short selects
  revert sends
  suffices replies : Replies fd (if membersCount ≠ 0 then sendText 2048 fd (arrayHeader membersCount ++ members.content)
      else send fd emptyArray) t from replies _ u
  refine .ite (fun _ => ?_) fun _ => replies_send (IsResp.bulks [])
  let selected := ((set.entries.take set.length).filter (withinRange longtitude latitude radius unit)).map (·.member)
  have isText : arrayHeader membersCount ++ members.content = arrayText selected := by
    rw [whole, counts, arrayText, List.map_map, List.length_map, Nat.zero_add]
    rfl
  rw [isText]
  refine replies_sendText (.bulks selected) ?_
  have short : (selected.map bulk).flatten.length < 1024 := by
    rw [List.map_map]
    exact short
  have few := length_le_bulks selected
  have digits := length_decimal_le (show selected.length < 10 ^ 9 by omega)
  have starLength : (lit "*").length = 1 := by decide
  have crlfLength : crlf.length = 2 := by decide
  have header : (arrayHeader selected.length).length ≤ 12 := by
    simp only [arrayHeader, decimalInt, List.length_append, starLength, crlfLength]
    omega
  rw [arrayText, List.length_append]
  omega

end SortedSets

end RedisClone
