import RedisClone.Verified.Deques

/-! # Complete RESP values

`IsResp text`: the text is one complete value of the protocol, a simple string, an error, an integer, a bulk string, a
null or an array of complete values.  No value is the beginning of another one (`IsResp.prefix_free`), so that a text is a
sequence of values in at most one way (`values_unique`).
-/

namespace RedisClone

open CString

/-- One complete value. -/
inductive IsResp : Bytes → Prop where
  | line (kind : UInt8) (text : Bytes) (isKind : kind = 43 ∨ kind = 45 ∨ kind = 58)
      (oneLine : ∀ c ∈ text, c ≠ 13 ∧ c ≠ 10) : IsResp (kind :: text ++ crlf)
  | bulk (s : Bytes) : IsResp (bulk s)
  | nilBulk : IsResp nilReply
  | nilArray : IsResp nilArray
  | array (values : List Bytes) (each : ∀ value ∈ values, IsResp value) :
      IsResp (arrayHeader values.length ++ values.flatten)

/-! ## Texts that are values -/

/-- The text is a simple string, an error or an integer. -/
def isLine (text : Bytes) : Bool :=
  text.head?.any (fun kind => kind = 43 || kind = 45 || kind = 58) &&
    (text.drop (text.length - 2) = crlf && 3 ≤ text.length) &&
      (text.tail.take (text.length - 3)).all fun c => c ≠ 13 && c ≠ 10

theorem IsResp.of_isLine {text : Bytes} (isLine : isLine text = true) : IsResp text := by
  simp only [RedisClone.isLine, Bool.and_eq_true, decide_eq_true_eq, List.all_eq_true, Option.any_eq_true] at isLine
  obtain ⟨⟨⟨kind, isHead, isKind⟩, ends, long⟩, oneLine⟩ := isLine
  cases text with
  | nil => simp at isHead
  | cons first rest =>
    obtain rfl : first = kind := by simpa using isHead
    have split : first :: rest = first :: rest.take (rest.length - 2) ++ crlf := by
      rw [List.length_cons, show rest.length + 1 - 2 = rest.length - 2 + 1 by simp at long; omega, List.drop_succ_cons] at ends
      rw [← ends, List.cons_append, List.take_append_drop]
    rw [split]
    refine .line first _ (by simpa [or_assoc] using isKind) fun c member => ?_
    have := oneLine c (by simpa using member)
    simpa using this

theorem decimalInt_oneLine (n : Int) : ∀ c ∈ decimalInt n, c ≠ 13 ∧ c ≠ 10 := by
  have digits (n : Nat) : ∀ c ∈ decimal n, c ≠ 13 ∧ c ≠ 10 := by
    intro c member
    have isDigit := isdigit_of_mem_decimal member
    constructor <;> (rintro rfl; simp [isdigit] at isDigit)
  cases n with
  | ofNat n => exact digits n
  | negSucc n =>
    intro c member
    cases member with
    | head => decide
    | tail _ member => exact digits (n + 1) c member

theorem IsResp.integer (n : Int) : IsResp (integerReply n) :=
  .line 58 (decimalInt n) (by simp) (decimalInt_oneLine n)

theorem IsResp.bulks (values : List Bytes) : IsResp (arrayText values) := by
  have array : IsResp (arrayHeader (values.map RedisClone.bulk).length ++ (values.map RedisClone.bulk).flatten) :=
    .array _ fun value member => by
      obtain ⟨s, _, rfl⟩ := List.mem_map.mp member
      exact .bulk s
  rwa [List.length_map] at array

/-! ## Where a value ends -/

theorem isResp_head {text : Bytes} (isResp : IsResp text) :
    ∃ kind ∈ text.head?, kind = 43 ∨ kind = 45 ∨ kind = 58 ∨ kind = 36 ∨ kind = 42 := by
  cases isResp with
  | line kind text isKind => exact ⟨kind, rfl, by tauto⟩
  | bulk s => exact ⟨36, rfl, by simp⟩
  | nilBulk => exact ⟨36, rfl, by simp⟩
  | nilArray => exact ⟨42, rfl, by simp⟩
  | array values => exact ⟨42, rfl, by simp⟩

theorem IsResp.ne_nil {text : Bytes} (isResp : IsResp text) : text ≠ [] := by
  rintro rfl
  obtain ⟨kind, isHead, _⟩ := isResp_head isResp
  simp at isHead

theorem cut_oneLine {text text' rest rest' : Bytes} (oneLine : ∀ c ∈ text, c ≠ 13 ∧ c ≠ 10)
    (oneLine' : ∀ c ∈ text', c ≠ 13 ∧ c ≠ 10) (same : text ++ crlf ++ rest = text' ++ crlf ++ rest') :
    text = text' := by
  have upTo {text rest : Bytes} (oneLine : ∀ c ∈ text, c ≠ 13 ∧ c ≠ 10) :
      (text ++ crlf ++ rest).takeWhile (· ≠ 13) = text := by
    rw [List.append_assoc, List.takeWhile_append_of_pos fun c member => by simpa using (oneLine c member).1]
    simp [crlf]
  rw [← upTo oneLine, same, upTo oneLine']

/-- The number in a header ends where its digits end. -/
theorem digits_of_header (n : Nat) (rest : Bytes) : (decimal n ++ crlf ++ rest).takeWhile isdigit = decimal n := by
  have stop : ∀ c ∈ (crlf ++ rest).head?, isdigit c = false := by
    intro c isHead
    obtain rfl : 13 = c := by simpa [crlf] using isHead
    decide
  rw [List.append_assoc]
  exact (takeWhile_isdigit_decimal n stop).1

theorem cut_header {n n' : Nat} {rest rest' : Bytes} (same : arrayHeader n ++ rest = arrayHeader n' ++ rest') :
    n = n' ∧ rest = rest' := by
  have sameDigits : decimal n ++ crlf ++ rest = decimal n' ++ crlf ++ rest' := by
    have behindStar : lit "*" ++ (decimal n ++ crlf ++ rest) = lit "*" ++ (decimal n' ++ crlf ++ rest') := by
      simpa [arrayHeader, decimalInt] using same
    exact List.append_cancel_left behindStar
  have sameNumber : decimal n = decimal n' := by rw [← digits_of_header n rest, sameDigits, digits_of_header]
  have sameCount : n = n' := decimal_injective sameNumber
  subst sameCount
  exact ⟨rfl, List.append_cancel_left sameDigits⟩

theorem cut_values {values values' : List Bytes} {rest rest' : Bytes}
    (free : ∀ value ∈ values, ∀ value' rest rest', IsResp value' → value ++ rest = value' ++ rest' → value = value')
    (each : ∀ value ∈ values', IsResp value) (sameLength : values.length = values'.length)
    (same : values.flatten ++ rest = values'.flatten ++ rest') : values = values' := by
  induction values generalizing values' with
  | nil => exact (List.length_eq_zero_iff.mp sameLength.symm).symm
  | cons value values inductionHypothesis =>
    cases values' with
    | nil => simp at sameLength
    | cons value' values' =>
      rw [List.flatten_cons, List.flatten_cons, List.append_assoc, List.append_assoc] at same
      obtain rfl := free value List.mem_cons_self value' _ _ (each value' List.mem_cons_self) same
      rw [inductionHypothesis (fun other member => free other (List.mem_cons_of_mem _ member))
        (fun other member => each other (List.mem_cons_of_mem _ member)) (by simpa using sameLength)
        (List.append_cancel_left same)]

theorem bulk_ne_nil {s rest rest' : Bytes} : bulk s ++ rest ≠ nilReply ++ rest' := by
  intro same
  have behind : decimal s.length ++ (crlf ++ s ++ crlf ++ rest) = 45 :: (lit "1\r\n" ++ rest') := by
    have tails := congrArg List.tail same
    simpa [bulk, nilReply, lit] using tails
  exact decimal_ne_minus behind

theorem arrayHeader_ne_nil {n : Nat} {rest rest' : Bytes} : arrayHeader n ++ rest ≠ nilArray ++ rest' := by
  intro same
  have behind : decimal n ++ (crlf ++ rest) = 45 :: (lit "1\r\n" ++ rest') := by
    have tails := congrArg List.tail same
    simpa [arrayHeader, decimalInt, nilArray, lit] using tails
  exact decimal_ne_minus behind

/-- A value is not the beginning of another one. -/
theorem IsResp.prefix_free {text text' rest rest' : Bytes} (isResp : IsResp text) (isResp' : IsResp text')
    (same : text ++ rest = text' ++ rest') : text = text' := by
  -- the kinds are told apart by their first byte, and the nulls by the minus sign behind it
  have heads := congrArg List.head? same
  induction isResp generalizing text' rest rest' with
  | line kind text isKind oneLine =>
    have head : (kind :: text ++ crlf ++ rest).head? = some kind := rfl
    rw [head] at heads
    cases isResp' with
    | line kind' text' isKind' oneLine' =>
      obtain ⟨rfl, sameRest⟩ := List.cons.inj same
      rw [cut_oneLine oneLine oneLine' sameRest]
    | bulk | nilBulk =>
      obtain rfl : kind = 36 := Option.some.inj heads
      simp at isKind
    | nilArray | array =>
      obtain rfl : kind = 42 := Option.some.inj heads
      simp at isKind
  | bulk s =>
    have head : (RedisClone.bulk s ++ rest).head? = some 36 := rfl
    rw [head] at heads
    cases isResp' with
    | bulk s' =>
      have both := takeBulk_bulk s rest
      rw [same, takeBulk_bulk] at both
      rw [(Prod.mk.inj (Option.some.inj both)).1]
    | nilBulk => exact absurd same bulk_ne_nil
    | line kind' text' isKind' =>
      obtain rfl : 36 = kind' := Option.some.inj heads
      simp at isKind'
    | nilArray | array => exact absurd (Option.some.inj heads) (by decide)
  | nilBulk =>
    have head : (nilReply ++ rest).head? = some 36 := rfl
    rw [head] at heads
    cases isResp' with
    | nilBulk => rfl
    | bulk s' => exact absurd same.symm bulk_ne_nil
    | line kind' text' isKind' =>
      obtain rfl : 36 = kind' := Option.some.inj heads
      simp at isKind'
    | nilArray | array => exact absurd (Option.some.inj heads) (by decide)
  | nilArray =>
    have head : (RedisClone.nilArray ++ rest).head? = some 42 := rfl
    rw [head] at heads
    cases isResp' with
    | nilArray => rfl
    | array values' each' =>
      rw [List.append_assoc] at same
      exact absurd same.symm arrayHeader_ne_nil
    | line kind' text' isKind' =>
      obtain rfl : 42 = kind' := Option.some.inj heads
      simp at isKind'
    | bulk | nilBulk => exact absurd (Option.some.inj heads) (by decide)
  | array values each inductionHypothesis =>
    have head : (arrayHeader values.length ++ values.flatten ++ rest).head? = some 42 := rfl
    rw [head] at heads
    cases isResp' with
    | array values' each' =>
      rw [List.append_assoc, List.append_assoc] at same
      obtain ⟨sameLength, sameRest⟩ := cut_header same
      have free (value : Bytes) (member : value ∈ values) (value' rest rest' : Bytes) (isResp' : IsResp value')
          (same : value ++ rest = value' ++ rest') : value = value' :=
        inductionHypothesis value member isResp' same (congrArg List.head? same)
      rw [cut_values free each' sameLength sameRest]
    | nilArray =>
      rw [List.append_assoc] at same
      exact absurd same arrayHeader_ne_nil
    | line kind' text' isKind' =>
      obtain rfl : 42 = kind' := Option.some.inj heads
      simp at isKind'
    | bulk | nilBulk => exact absurd (Option.some.inj heads) (by decide)

/-- A text is a sequence of values in one way only. -/
theorem values_unique {values values' : List Bytes} (each : ∀ value ∈ values, IsResp value)
    (each' : ∀ value ∈ values', IsResp value) (same : values.flatten = values'.flatten) : values = values' := by
  induction values generalizing values' with
  | nil =>
    cases values' with
    | nil => rfl
    | cons value' values' =>
      have isNil : value' = [] := by
        rw [List.flatten_nil, List.flatten_cons, eq_comm, List.append_eq_nil_iff] at same
        exact same.1
      exact absurd isNil (each' value' List.mem_cons_self).ne_nil
  | cons value values inductionHypothesis =>
    have isResp := each value List.mem_cons_self
    cases values' with
    | nil =>
      rw [List.flatten_nil, List.flatten_cons, List.append_eq_nil_iff] at same
      exact absurd same.1 isResp.ne_nil
    | cons value' values' =>
      rw [List.flatten_cons, List.flatten_cons] at same
      obtain rfl := isResp.prefix_free (each' value' List.mem_cons_self) same
      rw [inductionHypothesis (fun other member => each other (List.mem_cons_of_mem _ member))
        (fun other member => each' other (List.mem_cons_of_mem _ member)) (List.append_cancel_left same)]

end RedisClone
