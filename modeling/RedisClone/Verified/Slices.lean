import RedisClone.Verified.Ranges

/-! # Slices by signed indices

A negative index counts from the end, and a slice takes what there is between two positions.  ZRANGE computes just this.
LRANGE takes the first element for the start of the slice whenever the absolute value of one of the two indices is above
the length, also where the slice would then be empty or start behind it.  Either sends a complete array only where the
array fits; GEOSEARCH, which counts what it has printed, sends more than it counts where the members do not fit.
-/

namespace RedisClone

open Exec CString

variable {D : Type} {fd : Int} {w : World D} {req : RespRequest}

/-- The position that an index stands for among `size` elements. -/
def position (size index : Int) : Int := if index < 0 then size + index else index

/-- The elements between two indices, as far as there are any. -/
def indexSlice (values : List Bytes) (first last : Int) : List Bytes :=
  slice values (max 0 (position values.length first)) (min ((values.length : Int) - 1) (position values.length last))

section IndexSlice

variable {values : List Bytes} {first last : Int}

/-- The slice holds the elements from the one position to the other, and no more. -/
theorem getElem?_indexSlice (i : Nat) :
    (indexSlice values first last)[i]? =
      if max 0 (position values.length first) + i ≤ position values.length last then
        values[(max 0 (position values.length first)).toNat + i]?
      else none := by
  rw [indexSlice, slice, List.getElem?_take, List.getElem?_drop]
  by_cases inside : max 0 (position values.length first) + i ≤ position values.length last
  · rw [if_pos inside]
    by_cases exists_ : (max 0 (position values.length first)).toNat + i < values.length
    · rw [if_pos (by omega)]
    · rw [List.getElem?_eq_none (by omega)]
      simp
  · rw [if_neg inside, if_neg (by omega)]

theorem length_indexSlice :
    (indexSlice values first last).length =
      (min ((values.length : Int) - 1) (position values.length last) - max 0 (position values.length first) + 1).toNat := by
  rw [indexSlice, slice, List.length_take, List.length_drop]
  omega

theorem indexSlice_eq_nil_iff :
    indexSlice values first last = [] ↔
      min ((values.length : Int) - 1) (position values.length last) < max 0 (position values.length first) := by
  rw [← List.length_eq_zero_iff, length_indexSlice]
  omega

end IndexSlice

/-- A state in which one key is bound, and nobody is connected. -/
def worldWith (key : Bytes) (value : Value D) : World D :=
  { blankWorld D with table := fun bucket => if bucketOf key = some bucket then ⟨[(key, ⟨value, 0⟩)], false⟩ else .empty }

theorem lookup_worldWith {key : Bytes} (indexed : bucketOf key ≠ none) (value : Value D) :
    lookup (worldWith key value).table key = .ok (some ⟨value, 0⟩) := by
  obtain ⟨bucket, inBucket⟩ := Option.ne_none_iff_exists'.mp indexed
  simp [lookup, inBucket, worldWith, Chain.find]

/-! ## ZRANGE -/

theorem zrangeBounds_eq (size : Nat) (first last : Int) :
    zrangeBounds size first last = (max 0 (position size first), min ((size : Int) - 1) (position size last)) := by
  simp only [zrangeBounds, position, Prod.mk.injEq]
  constructor <;> split_ifs <;> omega

theorem memberSlice_bounds {set : ZSet D} (counted : set.length = set.entries.length) (first last : Int) :
    memberSlice set (zrangeBounds set.length first last) = indexSlice set.members first last := by
  rw [zrangeBounds_eq, memberSlice_eq, indexSlice, length_members, counted]

section Zrange

variable {key first last : Bytes} {set : ZSet D} {expiresAt : Int}

/-- ZRANGE of a sorted set whose `length` counts its nodes comes to an end, for any two indices, and sends the members
between them where these fit: no step goes behind the last node. -/
theorem handleZrange_indexSlice (enough : 3 ≤ req.argc) (isKey : req.args[0]? = some key)
    (isFirst : req.args[1]? = some first) (isLast : req.args[2]? = some last)
    (found : lookup w.table key = .ok (some ⟨.zset set, expiresAt⟩)) (counted : set.length = set.entries.length)
    (fits : (arrayText (indexSlice set.members (atoi first) (atoi last))).length < 4096) :
    handleZrange req fd w = .ok ((), w.emit fd (arrayText (indexSlice set.members (atoi first) (atoi last)))) := by
  rw [← memberSlice_bounds counted] at fits ⊢
  exact handleZrange_fits enough isKey isFirst isLast found counted fits

/-- Three members with their scores. -/
def threeMembers : ZSet Int := ⟨[⟨lit "a", 1⟩, ⟨lit "b", 2⟩, ⟨lit "c", 3⟩], 3⟩

theorem indexed_k : bucketOf (lit "k") ≠ none := by decide +kernel

/-- ZRANGE k -2 9 of three members. -/
theorem handleZrange_indexSlice_last :
    handleZrange (requestOf [lit "ZRANGE", lit "k", lit "-2", lit "9"]) 5 (worldWith (lit "k") (.zset threeMembers)) =
      .ok ((), (worldWith (lit "k") (.zset threeMembers)).emit 5 (arrayText [lit "b", lit "c"])) := by
  have selected : indexSlice threeMembers.members (atoi (lit "-2")) (atoi (lit "9")) = [lit "b", lit "c"] := by
    decide +kernel
  have fits : (arrayText (indexSlice threeMembers.members (atoi (lit "-2")) (atoi (lit "9")))).length < 4096 := by
    rw [selected]
    decide
  have run := @handleZrange_indexSlice Int 5 _ _ _ _ _ _ _ (show 3 ≤ (requestOf [lit "ZRANGE", lit "k", lit "-2", lit "9"]).argc
    by decide) rfl rfl rfl (lookup_worldWith indexed_k (.zset threeMembers)) rfl fits
  rwa [selected] at run

end Zrange

/-! ## LRANGE -/

/-- Where LRANGE starts. -/
def lrangeStart (size first last : Int) : Int :=
  if size < first.natAbs ∨ size < last.natAbs then 0 else position size first

/-- The elements that LRANGE sends. -/
def lrangeSlice (values : List Bytes) (first last : Int) : List Bytes :=
  slice values (lrangeStart values.length first last) (position values.length last)

theorem lrangeBounds_run {size first last : Int} (notLeast : first ≠ -2 ^ 31) (notLeast' : last ≠ -2 ^ 31) (w : World D) :
    lrangeBounds size first last w = .ok ((lrangeStart size first last, position size last), w) := by
  unfold lrangeBounds
  rw [if_neg (not_or.mpr ⟨notLeast, notLeast'⟩), pure_run]
  refine congrArg (fun bounds => Except.ok (bounds, w)) (Prod.ext ?_ ?_)
  · simp only [lrangeStart, position]
    split_ifs <;> omega
  · simp only [position]
    split_ifs <;> omega

theorem lrangeStart_nonneg (size : Nat) (first last : Int) : 0 ≤ lrangeStart size first last := by
  unfold lrangeStart position
  split_ifs <;> omega

theorem length_lrangeSlice (values : List Bytes) (first last : Int) :
    (lrangeSlice values first last).length =
      (min ((values.length : Int) - 1) (position values.length last) - lrangeStart values.length first last + 1).toNat := by
  have nonneg := lrangeStart_nonneg values.length first last
  rw [lrangeSlice, slice, List.length_take, List.length_drop]
  omega

/-- Two slices with one end are equal where they are of one length. -/
theorem lrangeSlice_eq_of_length {values : List Bytes} {first last : Int}
    (lengths : (lrangeSlice values first last).length = (indexSlice values first last).length) :
    lrangeSlice values first last = indexSlice values first last := by
  cases isNil : indexSlice values first last with
  | nil =>
    rw [isNil, List.length_nil] at lengths
    exact List.eq_nil_of_length_eq_zero lengths
  | cons value rest =>
    rw [← isNil]
    -- both have an element, so that the distance of the two starts from the end is the same
    have positive : 0 < (indexSlice values first last).length := by simp [isNil]
    rw [lrangeSlice, indexSlice]
    rw [length_lrangeSlice, length_indexSlice] at lengths
    rw [length_indexSlice] at positive
    rw [show lrangeStart values.length first last = max 0 (position values.length first) by omega]
    by_cases behind : (values.length : Int) ≤ position values.length last
    · rw [slice_clamped behind, min_eq_left (by omega)]
    · rw [min_eq_right (by omega)]

/-- What LRANGE sends is what is asked for, except where it takes 0 for a start behind the list, or for the start of a
slice whose end is behind the list. -/
theorem lrangeSlice_eq_iff {values : List Bytes} {first last : Int} :
    lrangeSlice values first last = indexSlice values first last ↔
      values = [] ∨ ((values.length : Int) < first → last < -values.length) ∧
        ((values.length : Int) < last → position values.length first ≤ 0) := by
  have byLength : lrangeSlice values first last = indexSlice values first last ↔
      (lrangeSlice values first last).length = (indexSlice values first last).length :=
    ⟨congrArg List.length, lrangeSlice_eq_of_length⟩
  rw [byLength, length_lrangeSlice, length_indexSlice, ← List.length_eq_zero_iff]
  unfold lrangeStart position
  split_ifs <;> omega

theorem emit_injective (w : World D) (fd : Int) : Function.Injective (w.emit fd) := by
  intro bytes bytes' same
  have sent := congrArg World.sent same
  simpa [World.emit] using sent

section Lrange

variable {key first last : Bytes} {values : List Bytes} {expiresAt : Int}

/-- The slice that is asked for fits the array that LRANGE prints it to. -/
def SliceFits (values : List Bytes) (first last : Int) : Prop :=
  (arrayText (indexSlice values first last)).length <
    lrangeRoom (max 0 (position values.length first)) (position values.length last)

theorem lrangeSlice_fits {first last : Int} (same : lrangeSlice values first last = indexSlice values first last)
    (fits : SliceFits values first last) :
    (arrayText (lrangeSlice values first last)).length <
      lrangeRoom (lrangeStart values.length first last) (position values.length last) := by
  rw [same]
  by_cases starts : lrangeStart values.length first last = max 0 (position values.length first)
  · rwa [starts]
  · -- the starts differ only where both slices are empty
    have isNil : indexSlice values first last = [] := by
      have lengths := congrArg List.length same
      rw [length_lrangeSlice, length_indexSlice] at lengths
      rw [indexSlice_eq_nil_iff]
      omega
    rw [isNil, lrangeRoom]
    have short : (arrayText []).length = 4 := by decide
    split_ifs <;> omega

/-- LRANGE sends the elements between two indices, where they fit, if and only if the list is empty, or neither does the
first index lie behind the list, and the slice not end before it, nor the last one, and the slice start behind the first
element. -/
theorem handleLrange_indexSlice_iff (enough : 3 ≤ req.argc) (isKey : req.args[0]? = some key)
    (isFirst : req.args[1]? = some first) (isLast : req.args[2]? = some last)
    (found : lookup w.table key = .ok (some ⟨.list values, expiresAt⟩)) (notLeast : atoi first ≠ -2 ^ 31)
    (notLeast' : atoi last ≠ -2 ^ 31) (fits : SliceFits values (atoi first) (atoi last)) :
    handleLrange req fd w = .ok ((), w.emit fd (arrayText (indexSlice values (atoi first) (atoi last)))) ↔
      values = [] ∨ ((values.length : Int) < atoi first → atoi last < -values.length) ∧
        ((values.length : Int) < atoi last → position values.length (atoi first) ≤ 0) := by
  have bounds := @lrangeBounds_run D (values.length : Int) _ _ notLeast notLeast' w
  rw [← lrangeSlice_eq_iff]
  constructor
  · intro run
    obtain ⟨sent, same, cut⟩ := handleLrange_ok enough isKey isFirst isLast found bounds run
    -- the header that is sent is that of another number of elements where the slices differ
    obtain rfl := emit_injective w fd same
    exact lrangeSlice_eq_of_length cut.count_eq.symm
  · intro same
    have run : handleLrange req fd w = _ :=
      handleLrange_fits enough isKey isFirst isLast found bounds (lrangeSlice_fits same fits)
    rw [run, ← same]
    rfl

/-- A request of LRANGE for the elements between two indices of the list k. -/
def lrangeOf (first last : Bytes) : RespRequest := requestOf [lit "LRANGE", lit "k", first, last]

def threeElements : List Bytes := [lit "a", lit "b", lit "c"]

/-- LRANGE k 1 -1 of three elements. -/
theorem handleLrange_indexSlice_iff_tail :
    handleLrange (lrangeOf (lit "1") (lit "-1")) 5 (worldWith (D := Int) (lit "k") (.list threeElements)) =
      .ok ((), (worldWith (lit "k") (.list threeElements)).emit 5 (arrayText [lit "b", lit "c"])) := by
  have selected : indexSlice threeElements (atoi (lit "1")) (atoi (lit "-1")) = [lit "b", lit "c"] := by decide +kernel
  have run := (@handleLrange_indexSlice_iff Int 5 _ (lrangeOf (lit "1") (lit "-1")) _ _ _ _ _ (by decide) rfl rfl rfl
    (lookup_worldWith indexed_k (.list threeElements)) (by decide) (by decide) (by unfold SliceFits; decide +kernel)).mpr
    (.inr ⟨by decide, by decide⟩)
  rwa [selected] at run

/-- LRANGE k 1 5 of three elements sends the first one too. -/
theorem lrange_behind_end_starts_at_zero :
    handleLrange (lrangeOf (lit "1") (lit "5")) 5 (worldWith (D := Int) (lit "k") (.list threeElements)) =
        .ok ((), (worldWith (lit "k") (.list threeElements)).emit 5 (arrayText threeElements)) ∧
      handleLrange (lrangeOf (lit "1") (lit "5")) 5 (worldWith (D := Int) (lit "k") (.list threeElements)) ≠
        .ok ((), (worldWith (lit "k") (.list threeElements)).emit 5 (arrayText (indexSlice threeElements 1 5))) := by
  have bounds := @lrangeBounds_run Int (threeElements.length : Int) (atoi (lit "1")) (atoi (lit "5")) (by decide) (by decide)
    (worldWith (lit "k") (.list threeElements))
  have run := @handleLrange_fits Int 5 _ (lrangeOf (lit "1") (lit "5")) _ _ _ _ _ _ _ (by decide) rfl rfl rfl
    (lookup_worldWith indexed_k (.list threeElements)) bounds (by decide +kernel)
  have sends : slice threeElements (lrangeStart threeElements.length (atoi (lit "1")) (atoi (lit "5")))
      (position threeElements.length (atoi (lit "5"))) = threeElements := by decide +kernel
  rw [sends] at run
  refine ⟨run, fun same => ?_⟩
  have texts := emit_injective _ 5 (congrArg Prod.snd (Except.ok.inj (run.symm.trans same)))
  exact absurd texts (by decide +kernel)

end Lrange

/-! ## Complete arrays -/

/-- What is sent is the header of an array, and as many complete strings as it says. -/
def SendsArray (fd : Int) (handle : M D Unit) (w : World D) : Prop :=
  ∃ elements : List Bytes, handle w = .ok ((), w.emit fd (arrayText elements))

section Framing

variable {key first last : Bytes} {expiresAt : Int}

theorem sendsArray_iff {handle : M D Unit} {sent : Bytes} (run : handle w = .ok ((), w.emit fd sent)) :
    SendsArray fd handle w ↔ ∃ elements, sent = arrayText elements := by
  unfold SendsArray
  rw [run]
  simp [(emit_injective w fd).eq_iff]

theorem sendsArray_handleLrange_iff {values : List Bytes} (enough : 3 ≤ req.argc) (isKey : req.args[0]? = some key)
    (isFirst : req.args[1]? = some first) (isLast : req.args[2]? = some last)
    (found : lookup w.table key = .ok (some ⟨.list values, expiresAt⟩)) :
    SendsArray fd (handleLrange req fd) w ↔
      (atoi first ≠ -2 ^ 31 ∧ atoi last ≠ -2 ^ 31) ∧
        (arrayText (lrangeSlice values (atoi first) (atoi last))).length <
          lrangeRoom (lrangeStart values.length (atoi first) (atoi last)) (position values.length (atoi last)) := by
  by_cases least : atoi first = -2 ^ 31 ∨ atoi last = -2 ^ 31
  · -- `abs` overflows
    have faults : handleLrange req fd w = .error .overflow := by
      unfold handleLrange
      rw [if_neg (by omega), bind_of_ok (arg_ok.mpr ⟨isKey, rfl⟩), withPayload_run, found]
      simp only [asList, pure_bind]
      rw [bind_of_ok (arg_ok.mpr ⟨isFirst, rfl⟩), bind_of_ok (arg_ok.mpr ⟨isLast, rfl⟩), lrangeBounds, if_pos least]
      rfl
    constructor
    · rintro ⟨elements, run⟩
      rw [faults] at run
      cases run
    · rintro ⟨⟨notLeast, notLeast'⟩, _⟩
      exact absurd least (not_or.mpr ⟨notLeast, notLeast'⟩)
  · obtain ⟨notLeast, notLeast'⟩ := not_or.mp least
    have bounds := @lrangeBounds_run D (values.length : Int) _ _ notLeast notLeast' w
    rw [and_iff_right ⟨notLeast, notLeast'⟩]
    constructor
    · rintro ⟨elements, run⟩
      obtain ⟨sent, same, cut⟩ := handleLrange_ok enough isKey isFirst isLast found bounds run
      exact cut.isArray_iff.mp ⟨elements, (emit_injective w fd same).symm⟩
    · intro fits
      exact ⟨_, handleLrange_fits enough isKey isFirst isLast found bounds fits⟩

theorem sendsArray_handleZrange_iff {set : ZSet D} (enough : 3 ≤ req.argc) (isKey : req.args[0]? = some key)
    (isFirst : req.args[1]? = some first) (isLast : req.args[2]? = some last)
    (found : lookup w.table key = .ok (some ⟨.zset set, expiresAt⟩)) (counted : set.length = set.entries.length) :
    SendsArray fd (handleZrange req fd) w ↔
      (arrayText (indexSlice set.members (atoi first) (atoi last))).length < 4096 := by
  rw [← memberSlice_bounds counted]
  constructor
  · rintro ⟨elements, run⟩
    obtain ⟨sent, same, cut⟩ := handleZrange_ok enough isKey isFirst isLast found counted run
    exact cut.isArray_iff.mp ⟨elements, (emit_injective w fd same).symm⟩
  · intro fits
    exact ⟨_, handleZrange_fits enough isKey isFirst isLast found counted fits⟩

/-- Behind the header of the strings that are whole stands a complete array where nothing else is printed. -/
theorem isArray_cut_iff {whole : List Bytes} {rest : Bytes} :
    (∃ elements, arrayHeader whole.length ++ ((whole.map bulk).flatten ++ rest) = arrayText elements) ↔ rest = [] := by
  constructor
  · rintro ⟨elements, sent⟩
    have joined : arrayText whole ++ rest = arrayText elements ++ [] := by
      rw [List.append_nil, ← sent, arrayText, List.append_assoc]
    have same := (IsResp.bulks whole).prefix_free (IsResp.bulks elements) joined
    rw [← same] at joined
    exact List.append_cancel_left joined
  · rintro rfl
    exact ⟨whole, by rw [List.append_nil, arrayText]⟩

/-- The members fit, or not even the first one does, or those that do fill the array. -/
def GeosearchFrames (selected : List Bytes) : Prop :=
  (selected.map bulk).flatten.length < 1024 ∨ fitting 1024 0 (selected.map bulk) = [] ∨
    (fitting 1024 0 (selected.map bulk)).flatten.length = 1023

theorem isArray_geosearchText_iff (selected : List Bytes) :
    (∃ elements, geosearchText selected = arrayText elements) ↔ GeosearchFrames selected := by
  obtain ⟨whole, isWhole⟩ := fitting_bulks 1024 0 selected
  have short := fitting_length (selected.map bulk) (show 0 < 1024 by decide)
  have all := @fitting_eq_self 1024 0 (selected.map bulk) (by decide)
  obtain ⟨rest, split⟩ := fitting_initial 1024 0 (selected.map bulk)
  rw [isWhole] at short all split
  have joined : (selected.map bulk).flatten = (whole.map bulk).flatten ++ rest.flatten := by
    rw [← split, List.flatten_append]
  unfold geosearchText GeosearchFrames
  rw [isWhole]
  cases whole with
  | nil => exact ⟨fun _ => .inr (.inl rfl), fun _ => ⟨[], rfl⟩⟩
  | cons member members =>
    have cut : (selected.map bulk).flatten.take 1023 = ((member :: members).map bulk).flatten ++
        rest.flatten.take (1023 - ((member :: members).map bulk).flatten.length) := by
      rw [joined, List.take_append, List.take_of_length_le (by omega)]
    dsimp only
    rw [List.length_map, if_pos (by simp), cut, isArray_cut_iff, List.take_eq_nil_iff]
    constructor
    · rintro (full | nothing)
      · exact .inr (.inr (by omega))
      · rw [joined, nothing, List.append_nil]
        exact .inl (by omega)
    · rintro (fits | none_ | full)
      · -- nothing is left out
        rw [all.mpr (by omega)] at joined
        exact .inr (List.append_right_eq_self.mp joined.symm)
      · simp at none_
      · exact .inl (by omega)

theorem sendsArray_handleGeosearch_iff [Externals D] {set : ZSet D} {longtitude latitude radius unit : Bytes}
    (enough : 7 ≤ req.argc) (isKey : req.args[0]? = some key) (isLongtitude : req.args[2]? = some longtitude)
    (isLatitude : req.args[3]? = some latitude) (isRadius : req.args[5]? = some radius) (isUnit : req.args[6]? = some unit)
    (found : lookup w.table key = .ok (some ⟨.zset set, expiresAt⟩)) (counted : set.length = set.entries.length) :
    SendsArray fd (handleGeosearch req fd) w ↔ GeosearchFrames (set.within longtitude latitude radius unit) := by
  rw [← isArray_geosearchText_iff]
  exact sendsArray_iff (handleGeosearch_run enough isKey isLongtitude isLatitude isRadius isUnit found counted)

/-- The three commands send a complete array of strings if and only if all selected elements fit the array of the command;
for GEOSEARCH, also where not one of them fits, or where those that are whole fill it. -/
theorem array_replies_framed_iff [Externals D] (isKey : req.args[0]? = some key) :
    (∀ values expiresAt first last, 3 ≤ req.argc → req.args[1]? = some first → req.args[2]? = some last →
      lookup w.table key = .ok (some ⟨.list values, expiresAt⟩) →
        (SendsArray fd (handleLrange req fd) w ↔
          (atoi first ≠ -2 ^ 31 ∧ atoi last ≠ -2 ^ 31) ∧
            (arrayText (lrangeSlice values (atoi first) (atoi last))).length <
              lrangeRoom (lrangeStart values.length (atoi first) (atoi last)) (position values.length (atoi last)))) ∧
    (∀ set expiresAt first last, 3 ≤ req.argc → req.args[1]? = some first → req.args[2]? = some last →
      lookup w.table key = .ok (some ⟨.zset set, expiresAt⟩) → set.length = set.entries.length →
        (SendsArray fd (handleZrange req fd) w ↔
          (arrayText (indexSlice set.members (atoi first) (atoi last))).length < 4096)) ∧
    ∀ set expiresAt longtitude latitude radius unit, 7 ≤ req.argc → req.args[2]? = some longtitude →
      req.args[3]? = some latitude → req.args[5]? = some radius → req.args[6]? = some unit →
        lookup w.table key = .ok (some ⟨.zset set, expiresAt⟩) → set.length = set.entries.length →
          (SendsArray fd (handleGeosearch req fd) w ↔ GeosearchFrames (set.within longtitude latitude radius unit)) := by
  refine ⟨?_, ?_, ?_⟩
  · intro values expiresAt first last enough isFirst isLast found
    exact sendsArray_handleLrange_iff enough isKey isFirst isLast found
  · intro set expiresAt first last enough isFirst isLast found counted
    exact sendsArray_handleZrange_iff enough isKey isFirst isLast found counted
  · intro set expiresAt longtitude latitude radius unit enough isLongtitude isLatitude isRadius isUnit found counted
    exact sendsArray_handleGeosearch_iff enough isKey isLongtitude isLatitude isRadius isUnit found counted

/-- LRANGE of a list, and ZRANGE and GEOSEARCH of a sorted set, of three short elements. -/
theorem array_replies_framed_iff_short :
    SendsArray 5 (handleLrange (lrangeOf (lit "0") (lit "-1")) 5) (worldWith (D := Int) (lit "k") (.list threeElements)) ∧
      SendsArray 5 (handleZrange (requestOf [lit "ZRANGE", lit "k", lit "0", lit "-1"]) 5)
        (worldWith (lit "k") (.zset threeMembers)) ∧
      SendsArray 5 (handleGeosearch (requestOf ([lit "GEOSEARCH", lit "k", lit "FROMLONLAT", lit "1", lit "1",
        lit "BYRADIUS", lit "5", lit "m"])) 5) (worldWith (lit "k") (.zset threeMembers)) := by
  refine ⟨?_, ?_, ?_⟩
  · refine ((@array_replies_framed_iff Int _ _ _ _ _ rfl).1 threeElements 0 (lit "0") (lit "-1") (by decide) rfl rfl
      (lookup_worldWith indexed_k _)).mpr ⟨by decide, by decide +kernel⟩
  · refine ((@array_replies_framed_iff Int _ _ _ _ _ rfl).2.1 threeMembers 0 (lit "0") (lit "-1") (by decide) rfl rfl
      (lookup_worldWith indexed_k _) rfl).mpr (by decide +kernel)
  · refine ((@array_replies_framed_iff Int _ _ _ _ _ rfl).2.2 threeMembers 0 (lit "1") (lit "1") (lit "5") (lit "m") (by decide)
      rfl rfl rfl rfl (lookup_worldWith indexed_k _) rfl).mpr (.inl (by decide +kernel))

/-- RPUSH of nine elements of 250 bytes. -/
def ninePush : RespRequest := requestOf (lit "RPUSH" :: lit "k" :: List.replicate 9 (List.replicate 250 97))

/-- LRANGE of the nine elements announces nine strings, and sends seven whole ones and a part of the eighth. -/
theorem lrange_long_elements_cut : ∃ t : World Int, FromParse ninePush ∧
    handleRpush ninePush 5 (blankWorld Int) = .ok ((), t) ∧
      ¬ SendsArray 5 (handleLrange (lrangeOf (lit "0") (lit "-1")) 5) t := by
  have ends : endsIn (handleRpush ninePush 5) (blankWorld Int) (fun t => decide ((lookup t.table (lit "k")) =
      .ok (some ⟨.list (List.replicate 9 (List.replicate 250 97)), 0⟩))) = true := by decide +kernel
  obtain ⟨t, pushes, checked⟩ := exists_ok_of_endsIn ends
  have received : FromParse ninePush := fromParse_requestOf
    ⟨lit "RPUSH" :: lit "k" :: List.replicate 9 (List.replicate 250 97), by decide, by decide, by decide +kernel⟩
    (by decide +kernel)
  refine ⟨t, received, pushes, ?_⟩
  rw [sendsArray_handleLrange_iff (by decide) rfl rfl rfl (of_decide_eq_true checked)]
  decide +kernel

end Framing

end RedisClone
