import Mathlib.Data.Set.Card
import RedisClone.Verified.Deques
import RedisClone.Verified.Expiry
import RedisClone.Verified.Slices
import RedisClone.Verified.SortedSets

/-! # Sorted sets as scores of members

What a sorted set is for is a function: the score of every member, and the order of the members by score and name.  Here
ZADD, GEOADD and ZREM are changes of that function, and the list of a sorted set that they have written holds it
(`ZSet.Scores`).  What ZRANK, ZRANGE, ZSCORE and ZCARD reply is then said of the function alone.

Scores are compared by the number that they stand for, so that two zeros with different signs are equal.
-/

namespace RedisClone

open Exec CString

/-- The values that are numbers, and the order that comparing them with `<` and `==` is. -/
class Numbers (D : Type) [Externals D] (L : outParam Type) [outParam (LinearOrder L)] where
  isNumber : D → Prop
  number : D → L
  lt_iff {a b : D} : isNumber a → isNumber b → (Externals.lt a b = true ↔ number a < number b)
  eq_iff {a b : D} : isNumber a → isNumber b → (Externals.eq a b = true ↔ number a = number b)

section Place

variable {D L : Type} [Externals D] [LinearOrder L] [Numbers D L] {set : ZSet D} {entries : List (ZSetEntry D)}
  {entry : ZSetEntry D} {score : D} {member : Bytes} {scores : Bytes → Option D}

/-- The number and the bytes of the member, in their lexicographic order. -/
def place (entry : ZSetEntry D) : L ×ₗ List Nat := toLex (Numbers.number entry.score, entry.member.map UInt8.toNat)

/-- A member with a score comes before another one by the score, and among equal scores by its name. -/
def ComesBefore (score : D) (member : Bytes) (score' : D) (member' : Bytes) : Prop :=
  Numbers.number score < Numbers.number score' ∨
    Numbers.number score = Numbers.number score' ∧ strcmpLt member member' = true

theorem comesBefore_iff {score' : D} {member' : Bytes} :
    ComesBefore score member score' member' ↔ place ⟨member, score⟩ < place ⟨member', score'⟩ := by
  rw [ComesBefore, strcmpLt_iff, place, place, Prod.Lex.toLex_lt_toLex]

theorem place_member {a b : ZSetEntry D} (same : place a = place b) : a.member = b.member := by
  obtain ⟨_, sameMember⟩ := Prod.mk.inj (toLex.injective same)
  exact List.map_injective_iff.mpr (fun _ _ => UInt8.toNat_inj.mp) sameMember

theorem isBefore_iff_place (isNumber : Numbers.isNumber entry.score) (isNumber' : Numbers.isNumber score) :
    isBefore entry score member = true ↔ place entry < place ⟨member, score⟩ := by
  rw [← comesBefore_iff, ComesBefore, isBefore, Bool.or_eq_true, Bool.and_eq_true, Numbers.lt_iff isNumber isNumber',
    Numbers.eq_iff isNumber isNumber']

/-! ## Insertion and removal -/

omit [LinearOrder L] [Numbers D L] in
theorem mem_insertMember {other : ZSetEntry D} :
    other ∈ insertMember score member entries ↔ other = ⟨member, score⟩ ∨ other ∈ entries := by
  induction entries with
  | nil => simp [insertMember]
  | cons curr rest inductionHypothesis =>
    rw [insertMember]
    split
    · rw [List.mem_cons, inductionHypothesis, List.mem_cons]
      exact or_left_comm
    · rw [List.mem_cons]

omit [LinearOrder L] [Numbers D L] in
theorem length_insertMember : (insertMember score member entries).length = entries.length + 1 := by
  induction entries with
  | nil => rfl
  | cons curr rest inductionHypothesis =>
    rw [insertMember]
    split
    · rw [List.length_cons, inductionHypothesis, List.length_cons]
    · rfl

/-- The loop of `zset_add` finds the place of a new member. -/
theorem insertMember_ascending (numbers : ∀ entry ∈ entries, Numbers.isNumber entry.score)
    (isNumber : Numbers.isNumber score) (ascending : entries.Pairwise fun a b => place a < place b)
    (absent : member ∉ entries.map (·.member)) :
    (insertMember score member entries).Pairwise fun a b => place a < place b := by
  induction entries with
  | nil => simp [insertMember]
  | cons curr rest inductionHypothesis =>
    obtain ⟨isLeast, later⟩ := List.pairwise_cons.mp ascending
    have before_iff : isBefore curr score member = true ↔ place curr < place ⟨member, score⟩ :=
      isBefore_iff_place (numbers curr List.mem_cons_self) isNumber
    rw [insertMember]
    split
    · rename_i before
      refine List.pairwise_cons.mpr ⟨fun other inside => ?_, ?_⟩
      · obtain rfl | inRest := mem_insertMember.mp inside
        · exact before_iff.mp before
        · exact isLeast other inRest
      · exact inductionHypothesis (fun entry inside => numbers entry (List.mem_cons_of_mem _ inside)) later
          fun inside => absent (List.mem_cons_of_mem _ inside)
    · rename_i notBefore
      -- the names differ, so that one of the two nodes comes first
      have differs : place ⟨member, score⟩ ≠ place curr := fun same =>
        absent (List.mem_map.mpr ⟨curr, List.mem_cons_self, (place_member same).symm⟩)
      have first : place ⟨member, score⟩ < place curr :=
        lt_of_le_of_ne (not_lt.mp fun less => notBefore (before_iff.mpr less)) differs
      refine List.pairwise_cons.mpr ⟨fun other inside => ?_, ascending⟩
      obtain rfl | inRest := List.mem_cons.mp inside
      · exact first
      · exact first.trans (isLeast other inRest)

omit [Externals D] [LinearOrder L] [Numbers D L] in
/-- `zset_remove` takes out a member that is in the list once. -/
theorem mem_removeMember (unique : (entries.map (·.member)).Nodup) {other : ZSetEntry D} :
    other ∈ removeMember member entries ↔ other ∈ entries ∧ other.member ≠ member := by
  induction entries with
  | nil => simp [removeMember]
  | cons curr rest inductionHypothesis =>
    rw [List.map_cons, List.nodup_cons] at unique
    obtain ⟨notAgain, unique⟩ := unique
    rw [removeMember]
    split
    · rename_i isMember
      subst isMember
      constructor
      · intro inRest
        exact ⟨List.mem_cons_of_mem _ inRest, fun same => notAgain (same ▸ List.mem_map_of_mem inRest)⟩
      · rintro ⟨inside, differs⟩
        obtain rfl | inRest := List.mem_cons.mp inside
        · exact absurd rfl differs
        · exact inRest
    · rename_i notMember
      rw [List.mem_cons, inductionHypothesis unique, List.mem_cons]
      constructor
      · rintro (rfl | ⟨inRest, differs⟩)
        · exact ⟨.inl rfl, notMember⟩
        · exact ⟨.inr inRest, differs⟩
      · rintro ⟨rfl | inRest, differs⟩
        · exact .inl rfl
        · exact .inr ⟨inRest, differs⟩

/-! ## The scores that a list holds -/

/-- The nodes are the members with their scores, in order, each once, and `length` counts them. -/
structure ZSet.Scores (set : ZSet D) (scores : Bytes → Option D) : Prop where
  numbers : ∀ entry ∈ set.entries, Numbers.isNumber entry.score
  ascending : set.entries.Pairwise fun a b => place a < place b
  counted : set.length = set.entries.length
  agrees : ∀ member score, scores member = some score ↔ ⟨member, score⟩ ∈ set.entries

theorem scores_empty : (⟨[], 0⟩ : ZSet D).Scores fun _ => none where
  numbers _ inside := by simp at inside
  ascending := .nil
  counted := rfl
  agrees _ _ := by simp

theorem ZSet.Scores.unique (holds : set.Scores scores) : (set.entries.map (·.member)).Nodup := by
  rw [List.Nodup, List.pairwise_map]
  refine holds.ascending.imp_of_mem fun {a b} insideA insideB before same => ?_
  obtain ⟨name, score⟩ := a
  obtain ⟨_, score'⟩ := b
  subst same
  -- one member has one score
  have one := (holds.agrees _ _).mpr insideA
  rw [(holds.agrees _ _).mpr insideB] at one
  obtain rfl := Option.some.inj one
  exact lt_irrefl _ before

theorem zsetRemove_scores (holds : set.Scores scores) (member : Bytes) :
    (zsetRemove set member).1.Scores (Function.update scores member none) := by
  have agrees (name : Bytes) (score : D) : Function.update scores member none name = some score ↔
      ⟨name, score⟩ ∈ set.entries ∧ name ≠ member := by
    by_cases same : name = member
    · subst same
      simp
    · rw [Function.update_of_ne same, holds.agrees, and_iff_left same]
  unfold zsetRemove
  split
  · rename_i present
    obtain ⟨entry, inside, isMember⟩ := List.any_eq_true.mp present
    have shorter : (removeMember member set.entries).Sublist set.entries := by
      rw [removeMember_eq_eraseP]
      exact List.eraseP_sublist
    refine ⟨fun entry inside => holds.numbers entry (shorter.subset inside), holds.ascending.sublist shorter, ?_, ?_⟩
    · simp only [removeMember_eq_eraseP, holds.counted]
      exact (List.length_eraseP_of_mem inside isMember).symm
    · intro name score
      rw [agrees, mem_removeMember holds.unique]
  · rename_i absent
    refine ⟨holds.numbers, holds.ascending, holds.counted, fun name score => ?_⟩
    rw [agrees, and_iff_left_iff_imp]
    rintro inside rfl
    exact absent (List.any_eq_true.mpr ⟨_, inside, decide_eq_true rfl⟩)

theorem zsetAdd_scores (holds : set.Scores scores) (absent : scores member = none) (isNumber : Numbers.isNumber score) :
    (zsetAdd set score member).Scores (Function.update scores member (some score)) := by
  have notInside : member ∉ set.entries.map (·.member) := by
    intro inside
    obtain ⟨⟨name, score'⟩, inEntries, rfl⟩ := List.mem_map.mp inside
    rw [(holds.agrees _ _).mpr inEntries] at absent
    cases absent
  refine ⟨fun entry inside => ?_, ?_, ?_, fun name score' => ?_⟩
  · obtain rfl | inside := mem_insertMember.mp inside
    · exact isNumber
    · exact holds.numbers entry inside
  · exact insertMember_ascending holds.numbers isNumber holds.ascending notInside
  · simp only [zsetAdd, length_insertMember, holds.counted]
  · rw [zsetAdd, mem_insertMember, ZSetEntry.mk.injEq]
    by_cases same : name = member
    · subst same
      rw [Function.update_self, Option.some.injEq]
      constructor
      · rintro rfl
        exact .inl ⟨rfl, rfl⟩
      · rintro (⟨_, rfl⟩ | inside)
        · rfl
        · exact absurd (List.mem_map_of_mem inside) notInside
    · rw [Function.update_of_ne same, holds.agrees]
      simp [same]

/-! ## Ranks -/

/-- So many members come before the member. -/
def HasRank (scores : Bytes → Option D) (member : Bytes) (rank : Nat) : Prop :=
  ∃ score, scores member = some score ∧
    {other | ∃ score', scores other = some score' ∧ ComesBefore score' other score member}.ncard = rank

theorem ncard_mem {names : List Bytes} (unique : names.Nodup) : {name | name ∈ names}.ncard = names.length := by
  have same : {name | name ∈ names} = (names.toFinset : Set Bytes) := by
    ext name
    simp
  rw [same, Set.ncard_coe_finset, List.toFinset_card_of_nodup unique]

/-- The nodes that come before a node are those in front of it. -/
theorem before_iff_mem_take {i : Nat} (ascending : entries.Pairwise fun a b => place a < place b)
    (isNode : entries[i]? = some entry) {other : ZSetEntry D} (inside : other ∈ entries) :
    place other < place entry ↔ other ∈ entries.take i := by
  obtain ⟨inRange, isEntry⟩ := List.getElem?_eq_some_iff.mp isNode
  have split : entries.take i ++ entry :: entries.drop (i + 1) = entries := by
    rw [← isEntry, ← List.drop_eq_getElem_cons inRange, List.take_append_drop]
  rw [← split, List.pairwise_append, List.pairwise_cons] at ascending
  obtain ⟨_, ⟨isLeast, _⟩, front⟩ := ascending
  constructor
  · intro before
    rw [← split, List.mem_append, List.mem_cons] at inside
    obtain inFront | rfl | behind := inside
    · exact inFront
    · exact absurd before (lt_irrefl _)
    · exact absurd (isLeast other behind) before.asymm
  · intro inFront
    exact front other inFront entry List.mem_cons_self

theorem ZSet.Scores.mem_members (holds : set.Scores scores) : member ∈ set.members ↔ scores member ≠ none := by
  rw [ZSet.members, List.mem_map, Option.ne_none_iff_exists']
  constructor
  · rintro ⟨⟨name, score⟩, inside, rfl⟩
    exact ⟨score, (holds.agrees _ _).mpr inside⟩
  · rintro ⟨score, isScore⟩
    exact ⟨_, (holds.agrees _ _).mp isScore, rfl⟩

/-- The index of a member is the number of members that come before it. -/
theorem ZSet.Scores.ncard_before (holds : set.Scores scores) {i : Nat} (isNode : set.entries[i]? = some ⟨member, score⟩) :
    {other | ∃ score', scores other = some score' ∧ ComesBefore score' other score member}.ncard = i := by
  have same : {other | ∃ score', scores other = some score' ∧ ComesBefore score' other score member} =
      {other | other ∈ (set.entries.take i).map (·.member)} := by
    ext other
    simp only [Set.mem_ofPred_eq, List.mem_map, comesBefore_iff]
    constructor
    · rintro ⟨score', isScore, before⟩
      have inside := (holds.agrees _ _).mp isScore
      exact ⟨_, (before_iff_mem_take holds.ascending isNode inside).mp before, rfl⟩
    · rintro ⟨⟨name, score'⟩, inFront, rfl⟩
      have inside := List.mem_of_mem_take inFront
      exact ⟨score', (holds.agrees _ _).mpr inside, (before_iff_mem_take holds.ascending isNode inside).mpr inFront⟩
  obtain ⟨inRange, _⟩ := List.getElem?_eq_some_iff.mp isNode
  rw [same, ncard_mem (holds.unique.sublist ((List.take_sublist _ _).map _)), List.length_map, List.length_take]
  omega

theorem ZSet.Scores.member_at_iff (holds : set.Scores scores) {rank : Nat} :
    set.members[rank]? = some member ↔ HasRank scores member rank := by
  rw [ZSet.members, List.getElem?_map, Option.map_eq_some_iff]
  constructor
  · rintro ⟨⟨name, score⟩, isNode, rfl⟩
    exact ⟨score, (holds.agrees _ _).mpr (List.mem_of_getElem? isNode), holds.ncard_before isNode⟩
  · rintro ⟨score, isScore, counts⟩
    obtain ⟨i, isNode⟩ := List.mem_iff_getElem?.mp ((holds.agrees _ _).mp isScore)
    rw [holds.ncard_before isNode] at counts
    subst counts
    exact ⟨_, isNode, rfl⟩

/-- The number of nodes is the number of members. -/
theorem ZSet.Scores.ncard_members (holds : set.Scores scores) : {member | scores member ≠ none}.ncard = set.length := by
  have same : {member | scores member ≠ none} = {member | member ∈ set.members} := by
    ext member
    exact holds.mem_members.symm
  rw [same, ncard_mem (show set.members.Nodup from holds.unique), length_members, holds.counted]

/-! ## Readers -/

section Readers

variable {key : Bytes} {expiresAt fd : Int} {u : World D} {req : RespRequest}

omit [Externals D] in
theorem emit_eq_iff {handle : M D Unit} {sent other : Bytes} (run : handle u = .ok ((), u.emit fd sent)) :
    handle u = .ok ((), u.emit fd other) ↔ sent = other := by
  rw [run]
  simp [(emit_injective u fd).eq_iff]

theorem integerReply_ne_nil (n : Nat) : integerReply n ≠ nilReply := by
  intro same
  have heads := congrArg List.head? same
  cases heads

omit [Externals D] in
theorem findIdx?_member (unique : set.members.Nodup) {rank : Nat} :
    (set.members.findIdx? fun name => name = member) = some rank ↔ set.members[rank]? = some member := by
  constructor
  · intro found
    obtain ⟨inRange, isMember, _⟩ := List.findIdx?_eq_some_iff_getElem.mp found
    rw [List.getElem?_eq_getElem inRange, of_decide_eq_true isMember]
  · intro isMember
    cases found : set.members.findIdx? fun name => name = member with
    | none =>
      have absent := List.findIdx?_eq_none_iff.mp found member (List.mem_of_getElem? isMember)
      simp at absent
    | some i =>
      obtain ⟨inRange, isMember', _⟩ := List.findIdx?_eq_some_iff_getElem.mp found
      obtain ⟨inRange', isMember⟩ := List.getElem?_eq_some_iff.mp isMember
      rw [(unique.getElem_inj_iff).mp ((of_decide_eq_true isMember').trans isMember.symm)]

omit [Externals D] in
theorem handleZrank_run (isKey : req.args[0]? = some key) (isMember : req.args[1]? = some member)
    (found : lookup u.table key = .ok (some ⟨.zset set, expiresAt⟩)) (counted : set.length = set.entries.length) :
    handleZrank req fd u = .ok ((), u.emit fd
      (((set.members.findIdx? fun name => name = member).map fun i : Nat => integerReply i).getD nilReply)) := by
  have enough := lt_argc isMember
  have same : (set.members.findIdx? fun name => name = member) =
      set.entries.findIdx? fun entry => entry.member = member := List.findIdx?_map
  unfold handleZrank
  rw [if_neg (by omega), bind_of_ok (arg_ok.mpr ⟨isKey, rfl⟩), withPayload_run, found]
  simp only [asZSet, pure_bind]
  rw [bind_of_ok (arg_ok.mpr ⟨isMember, rfl⟩), counted, List.take_length, same]
  cases set.entries.findIdx? fun entry => entry.member = member with
  | none => rfl
  | some i => rfl

theorem handleZscore_run (isKey : req.args[0]? = some key) (isMember : req.args[1]? = some member)
    (found : lookup u.table key = .ok (some ⟨.zset set, expiresAt⟩)) (counted : set.length = set.entries.length) :
    handleZscore req fd u = .ok ((), u.emit fd
      (((set.entries.find? fun entry => entry.member = member).map fun entry => doubleBulk entry.score).getD nilReply)) := by
  have enough := lt_argc isMember
  unfold handleZscore
  rw [if_neg (by omega), bind_of_ok (arg_ok.mpr ⟨isKey, rfl⟩), withPayload_run, found]
  simp only [asZSet, pure_bind]
  rw [bind_of_ok (arg_ok.mpr ⟨isMember, rfl⟩), counted, List.take_length]
  cases set.entries.find? fun entry => entry.member = member with
  | none =>
    dsimp only
    rw [if_neg (by omega)]
    rfl
  | some entry =>
    have short := length_doubleBulk entry.score
    dsimp only
    exact sendText_run (by omega)

theorem ZSet.Scores.find_member (holds : set.Scores scores) :
    (set.entries.find? fun entry => entry.member = member).map (·.score) = scores member := by
  cases isScore : scores member with
  | none =>
    have absent : (set.entries.find? fun entry => entry.member = member) = none := by
      refine List.find?_eq_none.mpr fun entry inside isMember => ?_
      have present := holds.mem_members.mp (List.mem_map_of_mem (f := ZSetEntry.member) inside)
      rw [of_decide_eq_true isMember] at present
      exact present isScore
    rw [absent]
    rfl
  | some score =>
    cases found : set.entries.find? fun entry => entry.member = member with
    | none =>
      have absent := List.find?_eq_none.mp found _ ((holds.agrees _ _).mp isScore)
      simp at absent
    | some entry =>
      have isMember : entry.member = member := by simpa using List.find?_some found
      have isScore' := (holds.agrees entry.member entry.score).mpr (List.mem_of_find?_eq_some found)
      rw [isMember, isScore] at isScore'
      exact isScore'.symm

/-- A member by its index. -/
theorem indexSlice_one (values : List Bytes) (i : Nat) : indexSlice values i i = values[i]?.toList := by
  cases isValue : values[i]? with
  | none =>
    have behind : values.length ≤ i := List.getElem?_eq_none_iff.mp isValue
    rw [Option.toList_none, indexSlice_eq_nil_iff, position]
    split_ifs <;> omega
  | some value =>
    obtain ⟨inside, _⟩ := List.getElem?_eq_some_iff.mp isValue
    have isPosition : position values.length i = i := by
      rw [position, if_neg (by omega)]
    rw [indexSlice, isPosition, max_eq_right (by omega), min_eq_right (by omega)]
    exact slice_one isValue

theorem arrayText_injective : Function.Injective arrayText := by
  intro elements others same
  have flat : (elements.map bulk).flatten = (others.map bulk).flatten := (cut_header same).2
  have bulks (values : List Bytes) (value : Bytes) (inside : value ∈ values.map bulk) : IsResp value := by
    obtain ⟨s, _, rfl⟩ := List.mem_map.mp inside
    exact .bulk s
  refine List.map_injective_iff.mpr (fun s s' sameBulk => ?_) (values_unique (bulks elements) (bulks others) flat)
  exact bulk_prefix_injective ⟨[], by rw [List.append_nil, List.append_nil, sameBulk]⟩

end Readers

end Place

/-! ## Requests as changes of the scores -/

section Calls

variable {D : Type} [Externals D] {key : Bytes} {call : ZSetCall} {scores : Bytes → Option D}

/-- The score of a position, as GEOADD hands it to ZADD. -/
def geoScore (longtitude latitude : Bytes) : D :=
  Externals.atof ((Externals.printG17
    (Externals.ofWord (geoEncode (Externals.atof longtitude : D) (Externals.atof latitude)) : D)).take 63)

def isPosition (triple : Bytes × Bytes × Bytes) : Bool :=
  validateGeoadd (Externals.atof triple.1 : D) (Externals.atof triple.2.1)

/-- The members that a request gives scores to, one after another. -/
def ZSetCall.updates (call : ZSetCall) : List (D × Bytes) :=
  let words := call.req.args.drop 1
  match call.command with
  | .zadd => if words.length % 2 = 0 then (scorePairs words).map fun pair => (Externals.atof pair.1, pair.2) else []
  | .geoadd =>
    if (geoTriples words).all (isPosition (D := D)) then
      (geoTriples words).map fun triple => (geoScore triple.1 triple.2.1, triple.2.2)
    else []
  | .zrem => []

/-- A member gets a score. -/
def giveScore (scores : Bytes → Option D) (update : D × Bytes) : Bytes → Option D :=
  Function.update scores update.2 (some update.1)

/-- A member loses its score. -/
def dropScore (scores : Bytes → Option D) (member : Bytes) : Bytes → Option D := Function.update scores member none

/-- The scores after a request. -/
def ZSetCall.perform (call : ZSetCall) (scores : Bytes → Option D) : Bytes → Option D :=
  match call.command with
  | .zrem => (call.req.args.drop 1).foldl dropScore scores
  | _ => call.updates.foldl giveScore scores

/-- The loop of GEOADD ends with the scores of all positions, where all of them are on the map. -/
theorem geoScores_valid {triples : List (Bytes × Bytes × Bytes)} {words : List Bytes}
    (valid : geoScores (D := D) triples = .ok words) :
    triples.all (isPosition (D := D)) = true ∧
      (scorePairs words).map (fun pair => ((Externals.atof pair.1 : D), pair.2)) =
        triples.map fun triple => (geoScore triple.1 triple.2.1, triple.2.2) := by
  induction triples generalizing words with
  | nil =>
    obtain rfl : [] = words := by simpa [geoScores] using valid
    exact ⟨rfl, rfl⟩
  | cons triple triples inductionHypothesis =>
    obtain ⟨longtitude, latitude, member⟩ := triple
    rw [geoScores] at valid
    dsimp only at valid
    split at valid
    · rename_i isValid
      cases rest : geoScores (D := D) triples with
      | error invalid => simp [rest] at valid
      | ok others =>
        obtain ⟨allValid, same⟩ := inductionHypothesis rest
        rw [rest] at valid
        obtain rfl := Except.ok.inj valid
        refine ⟨by rw [List.all_cons, allValid, isPosition, isValid, Bool.and_self], ?_⟩
        rw [scorePairs, List.map_cons, List.map_cons, same]
        rfl
    · simp at valid

theorem geoScores_invalid {triples : List (Bytes × Bytes × Bytes)} {text : Bytes}
    (invalid : geoScores (D := D) triples = .error text) : triples.all (isPosition (D := D)) = false := by
  induction triples with
  | nil => simp [geoScores] at invalid
  | cons triple triples inductionHypothesis =>
    obtain ⟨longtitude, latitude, member⟩ := triple
    rw [geoScores] at invalid
    dsimp only at invalid
    split at invalid
    · cases rest : geoScores (D := D) triples with
      | error text' => rw [List.all_cons, inductionHypothesis (by rw [rest] at invalid ⊢; exact invalid), Bool.and_false]
      | ok others => simp [rest] at invalid
    · rename_i isInvalid
      rw [List.all_cons, isPosition, Bool.and_eq_false_iff]
      exact .inl (by simpa using isInvalid)

/-- The names that a request gives scores to are arguments of it. -/
theorem mem_scorePairs {words : List Bytes} {pair : Bytes × Bytes} (inside : pair ∈ scorePairs words) : pair.2 ∈ words := by
  induction words using scorePairs.induct with
  | case1 score member rest inductionHypothesis =>
    rw [scorePairs, List.mem_cons] at inside
    obtain rfl | inRest := inside
    · simp
    · simp [inductionHypothesis inRest]
  | case2 words notPairs =>
    rw [scorePairs.eq_2 _ notPairs] at inside
    simp at inside

theorem mem_geoTriples {words : List Bytes} {triple : Bytes × Bytes × Bytes} (inside : triple ∈ geoTriples words) :
    triple.2.2 ∈ words := by
  induction words using geoTriples.induct with
  | case1 longtitude latitude member rest inductionHypothesis =>
    rw [geoTriples, List.mem_cons] at inside
    obtain rfl | inRest := inside
    · simp
    · simp [inductionHypothesis inRest]
  | case2 words notTriples =>
    rw [geoTriples.eq_2 _ notTriples] at inside
    simp at inside

theorem updates_named {update : D × Bytes} (inside : update ∈ call.updates) : update.2 ∈ call.req.args := by
  unfold ZSetCall.updates at inside
  refine List.mem_of_mem_drop (i := 1) ?_
  cases isCommand : call.command with
  | zadd =>
    simp only [isCommand] at inside
    split at inside
    · obtain ⟨pair, isPair, rfl⟩ := List.mem_map.mp inside
      exact mem_scorePairs isPair
    · simp at inside
  | geoadd =>
    simp only [isCommand] at inside
    split at inside
    · obtain ⟨triple, isTriple, rfl⟩ := List.mem_map.mp inside
      exact mem_geoTriples isTriple
    · simp at inside
  | zrem => simp [isCommand] at inside

omit [Externals D] in
theorem named_of_giveScores {updates : List (D × Bytes)} {names : Bytes → Prop}
    (named : ∀ update ∈ updates, names update.2) (known : ∀ member, scores member ≠ none → names member) :
    ∀ member, updates.foldl giveScore scores member ≠ none → names member := by
  induction updates generalizing scores with
  | nil => exact known
  | cons update updates inductionHypothesis =>
    refine inductionHypothesis (fun other inside => named other (List.mem_cons_of_mem _ inside)) fun member present => ?_
    by_cases same : member = update.2
    · rw [same]
      exact named update List.mem_cons_self
    · rw [giveScore, Function.update_of_ne same] at present
      exact known member present

omit [Externals D] in
theorem dropScores_none {members : List Bytes} {member : Bytes} (absent : scores member = none) :
    members.foldl dropScore scores member = none := by
  induction members generalizing scores with
  | nil => exact absent
  | cons other members inductionHypothesis =>
    refine inductionHypothesis ?_
    by_cases same : member = other
    · rw [dropScore, same, Function.update_self]
    · rwa [dropScore, Function.update_of_ne same]

/-- Members come from requests. -/
theorem perform_named {names : Bytes → Prop} (named : ∀ word ∈ call.req.args, names word)
    (known : ∀ member, scores member ≠ none → names member) : ∀ member, call.perform scores member ≠ none → names member := by
  have updated (update : D × Bytes) (inside : update ∈ call.updates) : names update.2 := named _ (updates_named inside)
  have given := named_of_giveScores updated known
  intro member present
  unfold ZSetCall.perform at present
  cases isCommand : call.command with
  | zadd | geoadd =>
    rw [isCommand] at present
    exact given member present
  | zrem =>
    rw [isCommand] at present
    exact known member fun absent => present (dropScores_none absent)

end Calls

/-! ## The loops of the handlers -/

section Loops

variable {D L : Type} [Externals D] [LinearOrder L] [Numbers D L] {key : Bytes} {call : ZSetCall} {set : ZSet D}
  {scores : Bytes → Option D} {w t : World D} {req : RespRequest} {clientFd : Int}

/-- One round of the loop of ZADD: the member is taken out, and put in its new place. -/
theorem addPair_scores {pair : Bytes × Bytes} {count : Nat} (holds : set.Scores scores)
    (isNumber : Numbers.isNumber (Externals.atof pair.1 : D)) :
    (addPair (set, count) pair).1.Scores (giveScore scores (Externals.atof pair.1, pair.2)) := by
  have removed := zsetRemove_scores holds pair.2
  have added := zsetAdd_scores removed (Function.update_self _ _ _) isNumber
  rwa [Function.update_idem] at added

theorem addPairs_scores {words : List Bytes} (holds : set.Scores scores)
    (numbers : ∀ pair ∈ scorePairs words, Numbers.isNumber (Externals.atof pair.1 : D)) :
    (addPairs set words).Scores
      (((scorePairs words).map fun pair => ((Externals.atof pair.1 : D), pair.2)).foldl giveScore scores) := by
  have each (pairs : List (Bytes × Bytes)) (state : ZSet D × Nat) (scores : Bytes → Option D) (holds : state.1.Scores scores)
      (numbers : ∀ pair ∈ pairs, Numbers.isNumber (Externals.atof pair.1 : D)) :
      (pairs.foldl addPair state).1.Scores ((pairs.map fun pair => ((Externals.atof pair.1 : D), pair.2)).foldl giveScore scores) := by
    induction pairs generalizing state scores with
    | nil => exact holds
    | cons pair pairs inductionHypothesis =>
      exact inductionHypothesis _ _ (addPair_scores holds (numbers pair List.mem_cons_self))
        fun other inside => numbers other (List.mem_cons_of_mem _ inside)
  exact each _ _ _ holds numbers

omit [Externals D] in
theorem removeOnes_scores [Externals D] [Numbers D L] {members : List Bytes} {count : Nat} (holds : set.Scores scores) :
    (members.foldl removeOne (set, count)).1.Scores (members.foldl dropScore scores) := by
  induction members generalizing set count scores with
  | nil => exact holds
  | cons member members inductionHypothesis => exact inductionHypothesis (zsetRemove_scores holds member)

/-- The key is free and nothing has a score, or it has a sorted set of the scores. -/
def HeldAt (key : Bytes) (table : Table D) (scores : Bytes → Option D) : Prop :=
  (binding table key = none ∧ scores = fun _ => none) ∨
    ∃ set expiresAt, binding table key = some ⟨.zset set, expiresAt⟩ ∧ set.Scores scores

theorem length_words (isKey : req.args[0]? = some key) : ((req.args.drop 1).length : Int) = req.argc - 1 := by
  have nonempty := lt_argc isKey
  have supplied := req.supplied
  rw [List.length_drop]
  omega

theorem zadd_scores (held : HeldAt key w.table scores) (isKey : req.args[0]? = some key)
    (numbers : ∀ update ∈ ZSetCall.updates (D := D) ⟨.zadd, req, clientFd⟩, Numbers.isNumber update.1)
    (run : handleZadd req clientFd w = .ok ((), t)) :
    HeldAt key t.table (ZSetCall.perform ⟨.zadd, req, clientFd⟩ scores) := by
  have length := length_words isKey
  simp only [ZSetCall.updates] at numbers
  simp only [ZSetCall.perform, ZSetCall.updates]
  obtain ⟨refused, same⟩ | ⟨⟨_, even⟩, key', set, expiresAt, opened, isKey', opens, stores⟩ := handleZadd_ok run
  · -- an odd number of words, or none at all
    rw [same]
    split
    · rename_i even
      have nothing : req.args.drop 1 = [] := by
        rw [← List.length_eq_zero_iff]
        rw [Int.tmod_eq_emod_of_nonneg (by omega)] at refused
        omega
      rw [nothing]
      exact held
    · exact held
  · obtain rfl : key = key' := Option.some.inj (isKey.symm.trans isKey')
    rw [Int.tmod_eq_emod_of_nonneg (by omega)] at even
    rw [if_pos (by omega)] at numbers ⊢
    have numbers' : ∀ pair ∈ scorePairs (req.args.drop 1), Numbers.isNumber (Externals.atof pair.1 : D) :=
      fun pair inside => numbers _ (List.mem_map_of_mem inside)
    refine .inr ⟨_, _, stores.binding_self, addPairs_scores ?_ numbers'⟩
    obtain ⟨bound, _⟩ | ⟨unbound, isNew, _⟩ := opens.before
    · obtain ⟨unbound, _⟩ | ⟨stored, deadline, bound', holds⟩ := held
      · simp [unbound] at bound
      · obtain rfl : stored = set := by
          rw [bound] at bound'
          simpa using (congrArg Entry.value (Option.some.inj bound')).symm
        exact holds
    · obtain ⟨_, rfl⟩ | ⟨stored, deadline, bound, _⟩ := held
      · obtain rfl : set = ⟨[], 0⟩ := by simpa using isNew
        exact scores_empty
      · simp [unbound] at bound

theorem geoadd_scores (held : HeldAt key w.table scores) (isKey : req.args[0]? = some key)
    (numbers : ∀ update ∈ ZSetCall.updates (D := D) ⟨.geoadd, req, clientFd⟩, Numbers.isNumber update.1)
    (run : handleGeoadd req clientFd w = .ok ((), t)) :
    HeldAt key t.table (ZSetCall.perform ⟨.geoadd, req, clientFd⟩ scores) := by
  unfold handleGeoadd at run
  split at run
  · rename_i few
    obtain rfl : w = t := by simpa using run
    have noTriples : geoTriples (req.args.drop 1) = [] := by
      have length := length_words isKey
      rw [← List.length_eq_zero_iff, length_geoTriples]
      omega
    simp only [ZSetCall.perform, ZSetCall.updates, noTriples, List.map_nil, ite_self, List.foldl_nil]
    exact held
  · rw [bind_of_ok (arg_ok.mpr ⟨isKey, rfl⟩)] at run
    cases scored : geoScores (D := D) (geoTriples (req.args.drop 1)) with
    | error invalid =>
      simp only [scored, sendText] at run
      rw [send_run run]
      have refused := geoScores_invalid scored
      simp only [ZSetCall.perform, ZSetCall.updates, refused, Bool.false_eq_true, if_false, List.foldl_nil]
      exact held
    | ok words =>
      simp only [scored] at run
      obtain ⟨valid, same⟩ := geoScores_valid scored
      -- the request of ZADD gives the scores of the positions
      have updates : ZSetCall.updates (D := D) ⟨.zadd, zaddRequest (key :: words), clientFd⟩ =
          ZSetCall.updates ⟨.geoadd, req, clientFd⟩ := by
        simp only [ZSetCall.updates, zaddRequest, List.drop_succ_cons, List.drop_zero, valid, if_true]
        rw [if_pos (by rw [geoScores_length scored]; omega), same]
      have added : HeldAt key t.table (ZSetCall.perform ⟨.zadd, zaddRequest (key :: words), clientFd⟩ scores) :=
        zadd_scores held (by simp [zaddRequest]) (updates ▸ numbers) run
      simpa only [ZSetCall.perform, updates] using added

theorem zrem_scores (held : HeldAt key w.table scores) (isKey : req.args[0]? = some key)
    (run : handleZrem req clientFd w = .ok ((), t)) :
    HeldAt key t.table (ZSetCall.perform ⟨.zrem, req, clientFd⟩ scores) := by
  simp only [ZSetCall.perform]
  obtain ⟨same, unbound⟩ | ⟨_, key', set, expiresAt, isKey', bound, stores⟩ := handleZrem_ok run
  · rw [same]
    by_cases enough : 2 ≤ req.argc
    · obtain ⟨isFree, rfl⟩ | ⟨stored, deadline, bound, _⟩ := held
      · refine .inl ⟨isFree, ?_⟩
        funext member
        exact dropScores_none rfl
      · simp [unbound enough key isKey] at bound
    · have nothing : req.args.drop 1 = [] := by
        have length := length_words isKey
        rw [← List.length_eq_zero_iff]
        omega
      rw [nothing]
      exact held
  · obtain rfl : key = key' := Option.some.inj (isKey.symm.trans isKey')
    obtain ⟨unbound, _⟩ | ⟨stored, deadline, bound', holds⟩ := held
    · simp [unbound] at bound
    · obtain rfl : stored = set := by
        rw [bound] at bound'
        simpa using (congrArg Entry.value (Option.some.inj bound')).symm
      exact .inr ⟨_, _, stores.binding_self, removeOnes_scores holds⟩

end Loops

/-! ## Runs of requests -/

/-- A state, and the scores that the requests have given so far. -/
structure Scored (D : Type) where
  world : World D
  scores : Bytes → Option D

section Runs

variable {D L : Type} [Externals D] [LinearOrder L] [Numbers D L] {key : Bytes} {s t : Scored D} {call : ZSetCall}

/-- A request to the key ends, whatever was done to other keys since the request before. -/
def ScoreStep (key : Bytes) (s : Scored D) (call : ZSetCall) (t : Scored D) : Prop :=
  ∃ start : World D, binding start.table key = binding s.world.table key ∧ call.req.args[0]? = some key ∧
    FromParse call.req ∧ call.handle start = .ok ((), t.world) ∧ t.scores = call.perform s.scores

/-- No score of the request is NaN. -/
def GivesNumbers (_ : Scored D) (call : ZSetCall) : Prop :=
  ∀ update ∈ call.updates (D := D), Numbers.isNumber update.1

/-- The key has the scores, and their members are no longer than an argument of a request. -/
structure Scored.Held (key : Bytes) (s : Scored D) : Prop where
  held : HeldAt key s.world.table s.scores
  short : ∀ member, s.scores member ≠ none → member.length < 256

theorem call_scores {start after : World D} {scores : Bytes → Option D} (held : HeldAt key start.table scores)
    (isKey : call.req.args[0]? = some key) (numbers : ∀ update ∈ call.updates (D := D), Numbers.isNumber update.1)
    (run : call.handle start = .ok ((), after)) : HeldAt key after.table (call.perform scores) := by
  obtain ⟨command, req, clientFd⟩ := call
  cases command with
  | zadd => exact zadd_scores held isKey numbers run
  | geoadd => exact geoadd_scores held isKey numbers run
  | zrem => exact zrem_scores held isKey run

theorem step_held (before : s.Held key) (numbers : GivesNumbers s call) (step : ScoreStep key s call t) : t.Held key := by
  obtain ⟨start, same, isKey, fromParse, run, performed⟩ := step
  have heldStart : HeldAt key start.table s.scores := by
    have held := before.held
    rwa [HeldAt, ← same] at held
  refine ⟨performed ▸ call_scores heldStart isKey numbers run, ?_⟩
  rw [performed]
  exact perform_named fromParse.strings.1.short before.short

/-- What the readers reply of a key with these scores. -/
structure ReadersAgree (key : Bytes) (scores : Bytes → Option D) (u : World D) : Prop where
  zrank : ∀ req fd member, ∀ rank : Nat, req.args[0]? = some key → req.args[1]? = some member →
    (handleZrank req fd u = .ok ((), u.emit fd (integerReply rank)) ↔ HasRank scores member rank)
  zrange : ∀ req fd member index, ∀ rank : Nat, req.args[0]? = some key → req.args[1]? = some index →
    req.args[2]? = some index → atoi index = rank →
      (handleZrange req fd u = .ok ((), u.emit fd (arrayText [member])) ↔ HasRank scores member rank)
  zrank_nil : ∀ req fd member, req.args[0]? = some key → req.args[1]? = some member →
    (handleZrank req fd u = .ok ((), u.emit fd nilReply) ↔ scores member = none)
  zscore : ∀ req fd member score, req.args[0]? = some key → req.args[1]? = some member → scores member = some score →
    handleZscore req fd u = .ok ((), u.emit fd (doubleBulk score))
  zscore_nil : ∀ req fd member, req.args[0]? = some key → req.args[1]? = some member →
    (handleZscore req fd u = .ok ((), u.emit fd nilReply) ↔ scores member = none)
  zcard : ∀ req fd, req.args[0]? = some key → {member | scores member ≠ none}.ncard < 2 ^ 64 →
    handleZcard req fd u = .ok ((), u.emit fd (integerReply {member | scores member ≠ none}.ncard))

theorem length_arrayText_one {name : Bytes} (short : name.length < 256) : (arrayText [name]).length < 4096 := by
  have headerLength : (lit "*1\r\n").length = 4 := by decide
  have bulkLength := length_bulk short
  rw [arrayText_one, List.length_append]
  omega

theorem readersAgree {u : World D} {set : ZSet D} {scores : Bytes → Option D} {expiresAt : Int}
    (found : lookup u.table key = .ok (some ⟨.zset set, expiresAt⟩)) (holds : set.Scores scores)
    (short : ∀ member, scores member ≠ none → member.length < 256) : ReadersAgree key scores u where
  zrank req fd member rank isKey isMember := by
    rw [emit_eq_iff (handleZrank_run isKey isMember found holds.counted), ← holds.member_at_iff,
      ← findIdx?_member holds.unique]
    cases set.members.findIdx? fun name => name = member with
    | none => simpa using (integerReply_ne_nil rank).symm
    | some i =>
      simp only [Option.map_some, Option.getD_some, Option.some.injEq]
      exact ⟨fun same => Int.natCast_inj.mp (integerReply_injective same), fun same => by rw [same]⟩
  zrange req fd member index rank isKey isFirst isLast isRank := by
    -- a range of one rank is the member at it, so the reply fits the 4096 bytes
    have selected : indexSlice set.members (atoi index) (atoi index) = set.members[rank]?.toList := by
      rw [isRank, indexSlice_one]
    have fits : (arrayText (indexSlice set.members (atoi index) (atoi index))).length < 4096 := by
      rw [selected]
      cases isName : set.members[rank]? with
      | none => decide
      | some name =>
        have present := holds.mem_members.mp (List.mem_of_getElem? isName)
        exact length_arrayText_one (short name present)
    have enough := lt_argc isLast
    have run : handleZrange req fd u = _ :=
      handleZrange_indexSlice (by omega) isKey isFirst isLast found holds.counted fits
    rw [emit_eq_iff run, arrayText_injective.eq_iff, selected, ← holds.member_at_iff]
    cases set.members[rank]? <;> simp
  zrank_nil req fd member isKey isMember := by
    rw [emit_eq_iff (handleZrank_run isKey isMember found holds.counted)]
    cases isIndex : set.members.findIdx? fun name => name = member with
    | none =>
      have absent : member ∉ set.members := fun inside => by
        simpa using List.findIdx?_eq_none_iff.mp isIndex member inside
      exact ⟨fun _ => by simpa using mt holds.mem_members.mpr absent, fun _ => rfl⟩
    | some i =>
      have present := List.mem_of_getElem? ((findIdx?_member holds.unique).mp isIndex)
      constructor
      · intro same
        exact absurd same (integerReply_ne_nil i)
      · intro absent
        exact absurd absent (holds.mem_members.mp present)
  zscore req fd member score isKey isMember isScore := by
    rw [handleZscore_run isKey isMember found holds.counted]
    rw [← holds.find_member] at isScore
    obtain ⟨entry, isEntry, rfl⟩ := Option.map_eq_some_iff.mp isScore
    rw [isEntry]
    rfl
  zscore_nil req fd member isKey isMember := by
    rw [emit_eq_iff (handleZscore_run isKey isMember found holds.counted), ← holds.find_member]
    cases set.entries.find? fun entry => entry.member = member with
    | none => simp
    | some entry =>
      have isBulk : doubleBulk entry.score ≠ nilReply := fun same =>
        @bulk_ne_nil _ [] [] (by rw [List.append_nil, List.append_nil]; exact same)
      simpa using isBulk
  zcard req fd isKey few := by
    have enough := lt_argc isKey
    rw [holds.ncard_members] at few ⊢
    have digits := length_integerReply few
    unfold handleZcard
    rw [if_neg (by omega), bind_of_ok (arg_ok.mpr ⟨isKey, rfl⟩), withPayload_run, found]
    simp only [asZSet, pure_bind]
    exact sendText_run (by omega)

/-- In every run of ZADD, GEOADD and ZREM requests to a key that is free at the start, no score of which is NaN, the
readers reply of the key what its scores say: ZRANK and a ZRANGE of one element give a member by the number of members that
come before it, ZRANK and ZSCORE reply nil for what is no member, ZSCORE the last score, and ZCARD the number of members. -/
theorem sorted_set_readers {u : World D} {entry : Entry D} (unbound : binding s.world.table key = none)
    (noScores : s.scores = fun _ => none) (run : Run (ScoreStep key) GivesNumbers s t)
    (here : binding u.table key = binding t.world.table key) (found : lookup u.table key = .ok (some entry)) :
    ReadersAgree key t.scores u := by
  have held : t.Held key := by
    refine run.invariant (fun before call after held numbers step => step_held held numbers step) ⟨.inl ⟨unbound, noScores⟩, ?_⟩
    intro member present
    simp [noScores] at present
  obtain ⟨isFree, _⟩ | ⟨set, expiresAt, bound, holds⟩ := held.held
  · rw [binding_of_lookup found] at here
    simp [isFree] at here
  · rw [← here, binding_of_lookup found] at bound
    obtain rfl := Option.some.inj bound
    exact readersAgree found holds held.short

instance numbers_int : Numbers Int Int where
  isNumber _ := True
  number := id
  lt_iff _ _ := decide_eq_true_iff
  eq_iff _ _ := by simp [Externals.eq]

/-- ZADD of three members, two of them with one score, and then of one of them with another score. -/
theorem sorted_set_readers_moved : ∃ t : Scored Int, ReadersAgree (lit "k") t.scores t.world ∧
    t.scores (lit "a") = some 2 ∧ t.scores (lit "b") = some 7 ∧ t.scores (lit "d") = none := by
  let words : List Bytes := [lit "ZADD", lit "k", lit "2", lit "b", lit "1", lit "c", lit "2", lit "a"]
  let words' : List Bytes := [lit "ZADD", lit "k", lit "7", lit "b"]
  let first : ZSetCall := ⟨.zadd, requestOf words, 5⟩
  let second : ZSetCall := ⟨.zadd, requestOf words', 5⟩
  have ends : endsIn (handleZadd first.req 5) (blankWorld Int) (fun t =>
      endsIn (handleZadd second.req 5) t fun u => (lookup u.table (lit "k")).toBool &&
        (binding u.table (lit "k")).isSome) = true := by
    decide +kernel
  obtain ⟨t, runs, checked⟩ := exists_ok_of_endsIn ends
  obtain ⟨u, runsAgain, isBound⟩ := exists_ok_of_endsIn checked
  have fromParse : FromParse first.req := fromParse_requestOf ⟨words, by decide, by decide, by decide⟩ (by decide +kernel)
  have fromParse' : FromParse second.req := fromParse_requestOf ⟨words', by decide, by decide, by decide⟩ (by decide +kernel)
  let scores : Bytes → Option Int := fun _ => none
  have step : ScoreStep (lit "k") ⟨blankWorld Int, scores⟩ first ⟨t, first.perform scores⟩ :=
    ⟨blankWorld Int, rfl, rfl, fromParse, runs, rfl⟩
  have step' : ScoreStep (lit "k") ⟨t, first.perform scores⟩ second ⟨u, second.perform (first.perform scores)⟩ :=
    ⟨t, rfl, rfl, fromParse', runsAgain, rfl⟩
  have one : Run (ScoreStep (lit "k")) GivesNumbers _ _ := .single (fun _ _ => trivial) step
  have run := one.tail (fun _ _ => trivial) step'
  obtain ⟨entry, found⟩ : ∃ entry, lookup u.table (lit "k") = .ok (some entry) := by
    rw [Bool.and_eq_true] at isBound
    cases found : lookup u.table (lit "k") with
    | error fault => simp [found, Except.toBool] at isBound
    | ok entry =>
      rw [binding_of_lookup found] at isBound
      obtain ⟨entry, rfl⟩ := Option.isSome_iff_exists.mp isBound.2
      exact ⟨entry, rfl⟩
  have ofA : second.perform (first.perform scores) (lit "a") = some 2 := by decide +kernel
  have ofB : second.perform (first.perform scores) (lit "b") = some 7 := by decide +kernel
  have ofD : second.perform (first.perform scores) (lit "d") = none := by decide +kernel
  exact ⟨_, sorted_set_readers (by decide +kernel) rfl run rfl found, ofA, ofB, ofD⟩

end Runs

end RedisClone
