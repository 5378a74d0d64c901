import RedisClone.Verified.Scores

/-! # ZADD as an update of the scores

A list that holds scores is determined by them (`ZSet.Scores.ext`), so that what ZADD does with its pairs, one after the
other, can be said of the scores alone: `addPairs_created` counts the members that had none, and pairs of different
members may come in any order (`foldl_addPair_perm`).  A request with one pair takes a path of its own, which does what
the loop does with one pair (`handleZadd_loop`).
-/

namespace RedisClone

open Exec CString

section Updates

variable {D L : Type} [Externals D] [LinearOrder L] [Numbers D L] {set set' : ZSet D} {scores : Bytes → Option D}
  {pairs pairs' : List (Bytes × Bytes)}

/-! ## The list of some scores -/

omit [Externals D] in
/-- The nodes of a list ascend, so that only one list has them. -/
theorem ZSet.Scores.ext [Externals D] [Numbers D L] (holds : set.Scores scores) (holds' : set'.Scores scores) :
    set = set' := by
  have same (entry : ZSetEntry D) : entry ∈ set.entries ↔ entry ∈ set'.entries := by
    obtain ⟨member, score⟩ := entry
    rw [← holds.agrees, ← holds'.agrees]
  have permuted : set.entries.Perm set'.entries :=
    (List.perm_ext_iff_of_nodup holds.unique.of_map holds'.unique.of_map).mpr same
  have entries : set.entries = set'.entries := by
    refine permuted.eq_of_pairwise (fun a b _ _ before after => ?_) holds.ascending holds'.ascending
    exact absurd (before.trans after) (lt_irrefl _)
  have lengths : set.length = set'.length := by rw [holds.counted, holds'.counted, entries]
  cases set
  cases set'
  obtain rfl := entries
  obtain rfl := lengths
  rfl

/-! ## The loop -/

/-- The scores that the pairs of a request give. -/
def scored (pairs : List (Bytes × Bytes)) : List (D × Bytes) := pairs.map fun pair => (Externals.atof pair.1, pair.2)

/-- The members of the pairs that have no score yet. -/
def created (pairs : List (Bytes × Bytes)) (scores : Bytes → Option D) : Set Bytes :=
  {member | member ∈ pairs.map Prod.snd ∧ scores member = none}

omit [Externals D] in
theorem created_finite (pairs : List (Bytes × Bytes)) (scores : Bytes → Option D) : (created pairs scores).Finite :=
  (List.finite_toSet (pairs.map Prod.snd)).subset fun _ isCreated => isCreated.1

theorem zsetRemove_existed (holds : set.Scores scores) (member : Bytes) :
    (zsetRemove set member).2 = (scores member).isSome := by
  unfold zsetRemove
  split
  · rename_i present
    obtain ⟨⟨name, score⟩, inside, isMember⟩ := List.any_eq_true.mp present
    obtain rfl : name = member := of_decide_eq_true isMember
    rw [(holds.agrees _ _).mpr inside]
    rfl
  · rename_i absent
    cases found : scores member with
    | none => rfl
    | some score =>
      exact absurd (List.any_eq_true.mpr ⟨_, (holds.agrees _ _).mp found, decide_eq_true rfl⟩) absent

omit [Externals D] in
/-- A member that has got a score is not created again. -/
theorem created_giveScore (update : D × Bytes) :
    created pairs (giveScore scores update) = created pairs scores \ {update.2} := by
  ext member
  by_cases same : member = update.2
  · simp [created, giveScore, same]
  · simp [created, giveScore, same]

omit [Externals D] in
theorem ncard_created_cons (pair : Bytes × Bytes) (score : D) :
    (created (pair :: pairs) scores).ncard =
      (if (scores pair.2).isSome then 0 else 1) + (created pairs (giveScore scores (score, pair.2))).ncard := by
  rw [created_giveScore]
  cases found : scores pair.2 with
  | none =>
    have first : created (pair :: pairs) scores = insert pair.2 (created pairs scores \ {pair.2}) := by
      ext member
      by_cases same : member = pair.2
      · simp [created, same, found]
      · simp [created, same]
    have finite := (created_finite pairs scores).subset (Set.sdiff_subset (t := {pair.2}))
    rw [first, Set.ncard_insert_of_notMem (by simp) finite]
    exact Nat.add_comm _ _
  | some score =>
    have first : created (pair :: pairs) scores = created pairs scores \ {pair.2} := by
      ext member
      by_cases same : member = pair.2
      · simp [created, same, found]
      · simp [created, same]
    rw [first]
    exact (Nat.zero_add _).symm

/-- By induction on the pairs: a pair counts where its member has no score, and the next pairs find it with one. -/
theorem foldl_addPair (holds : set.Scores scores) (numbers : ∀ pair ∈ pairs, Numbers.isNumber (Externals.atof pair.1 : D))
    (count : Nat) :
    (pairs.foldl addPair (set, count)).1.Scores ((scored pairs).foldl giveScore scores) ∧
      (pairs.foldl addPair (set, count)).2 = count + (created pairs scores).ncard := by
  induction pairs generalizing set scores count with
  | nil =>
    have nothing : created [] scores = ∅ := by simp [created]
    exact ⟨holds, by rw [nothing, Set.ncard_empty]; rfl⟩
  | cons pair pairs inductionHypothesis =>
    have added : (addPair (set, count) pair).1.Scores (giveScore scores (Externals.atof pair.1, pair.2)) :=
      addPair_scores holds (numbers pair List.mem_cons_self)
    obtain ⟨isScored, counted⟩ := inductionHypothesis added (fun other inside => numbers other (List.mem_cons_of_mem _ inside))
      (if (zsetRemove set pair.2).2 then count else count + 1)
    refine ⟨isScored, counted.trans ?_⟩
    rw [ncard_created_cons pair (Externals.atof pair.1), zsetRemove_existed holds]
    split <;> omega

omit [LinearOrder L] [Numbers D L] in
/-- Scores for different members may be given in any order. -/
theorem giveScore_perm (permuted : pairs.Perm pairs') (distinct : (pairs.map Prod.snd).Nodup) (scores : Bytes → Option D) :
    (scored pairs).foldl giveScore scores = (scored pairs').foldl giveScore scores := by
  have distinct' : ((scored (D := D) pairs).map Prod.snd).Nodup := by rwa [scored, List.map_map]
  refine (permuted.map _).foldl_eq' (fun update inside other inside' scores => ?_) scores
  by_cases same : update.2 = other.2
  · rw [List.inj_on_of_nodup_map distinct' inside inside' same]
  · exact Function.update_comm same _ _ scores

/-- Pairs of different members may come in any order. -/
theorem foldl_addPair_perm (holds : set.Scores scores) (permuted : pairs.Perm pairs') (distinct : (pairs.map Prod.snd).Nodup)
    (numbers : ∀ pair ∈ pairs, Numbers.isNumber (Externals.atof pair.1 : D)) (count : Nat) :
    pairs.foldl addPair (set, count) = pairs'.foldl addPair (set, count) := by
  obtain ⟨isScored, counted⟩ := foldl_addPair holds numbers count
  obtain ⟨isScored', counted'⟩ :=
    foldl_addPair holds (fun pair inside => numbers pair (permuted.mem_iff.mpr inside)) count
  rw [← giveScore_perm permuted distinct] at isScored'
  have sameMembers : created pairs' scores = created pairs scores := by
    ext member
    simp only [created, Set.mem_ofPred_eq, (permuted.map _).mem_iff]
  rw [sameMembers] at counted'
  exact Prod.ext (isScored.ext isScored') (counted.trans counted'.symm)

end Updates

/-! ## The handler -/

section Handler

variable {D : Type} [Externals D] {key : Bytes} {set : ZSet D} {w : World D} {req req' : RespRequest}

/-- The key is free and the set empty, or the key is bound to the set. -/
def HoldsZSet (key : Bytes) (table : Table D) (set : ZSet D) : Prop :=
  lookup table key = .ok none ∧ set = ⟨[], 0⟩ ∨ ∃ expiresAt, lookup table key = .ok (some ⟨.zset set, expiresAt⟩)

/-- The pairs of scores and members of a request. -/
def RespRequest.pairs (req : RespRequest) : List (Bytes × Bytes) := scorePairs (req.args.drop 1)

/-- The arguments behind the key pair up, and there is a pair. -/
structure Paired (key : Bytes) (req : RespRequest) : Prop where
  isKey : req.args[0]? = some key
  enough : 3 ≤ req.argc
  even : (req.argc - 1) % 2 = 0
  /-- `argc` is an `int`. -/
  counted : req.args.length < 2 ^ 31

/-- The loop of `handle_zadd`, for any number of pairs. -/
def zaddLoop (key : Bytes) (pairs : List (Bytes × Bytes)) (clientFd : Int) : M D Unit := do
  let sortedSet ← openZSet key
  let (changed, created) := pairs.foldl addPair (sortedSet, 0)
  updateEntry key (.zset changed)
  sendText 128 clientFd (integerReply created)

omit [Externals D] in
theorem openZSet_total (holds : HoldsZSet key w.table set) :
    ∃ opened expiresAt, openZSet key w = .ok (set, opened) ∧
      Opens w key (.zset ⟨[], 0⟩) (.zset set) expiresAt opened := by
  have run : ∃ opened, openZSet key w = .ok (set, opened) := by
    unfold openZSet
    rw [withPayload_run]
    obtain ⟨found, rfl⟩ | ⟨expiresAt, found⟩ := holds
    · cases inBucket : bucketOf key with
      | none => simp [lookup, inBucket] at found
      | some bucket =>
        obtain ⟨opened, stores, _⟩ := storeSetContainer_run inBucket (.zset ⟨[], 0⟩) w
        rw [found]
        exact ⟨opened, bind_of_ok stores⟩
    · rw [found]
      exact ⟨w, rfl⟩
  obtain ⟨opened, opens⟩ := run
  obtain ⟨expiresAt, isOpen⟩ := openZSet_opens opens
  exact ⟨opened, expiresAt, opens, isOpen⟩

/-- The path for one pair does what the loop does with one pair. -/
theorem handleZadd_loop (paired : Paired key req) (clientFd : Int) (w : World D) :
    handleZadd req clientFd w = zaddLoop key req.pairs clientFd w := by
  have enough := paired.enough
  have even := paired.even
  unfold handleZadd
  rw [if_neg (by omega), if_neg (by rw [Int.tmod_eq_emod_of_nonneg (by omega)]; omega),
    bind_of_ok (arg_ok.mpr ⟨paired.isKey, rfl⟩), Int.tdiv_eq_ediv_of_nonneg (by omega)]
  by_cases several : 1 < (req.argc - 1) / 2
  · simp only [if_pos several]
    rfl
  · simp only [if_neg several]
    -- the only pair
    have three : req.args.length = 3 := by
      have supplied := req.supplied
      omega
    obtain ⟨first, score, member, args⟩ := List.length_eq_three.mp three
    have isScore : (req.arg 1 : M D Bytes) = pure score := by simp [RespRequest.arg, args]
    have isMember : (req.arg 2 : M D Bytes) = pure member := by simp [RespRequest.arg, args]
    have isPair : req.pairs = [(score, member)] := by simp [RespRequest.pairs, args, scorePairs]
    simp only [isScore, isMember, pure_bind, isPair, zaddLoop, List.foldl_cons, List.foldl_nil, addPair]
    refine congrFun (congrArg (openZSet key >>= ·) (funext fun sortedSet => ?_)) w
    cases (zsetRemove sortedSet member).2 with
    | true => rfl
    | false => rfl

/-- The loop ends with the set and the count that its pairs give. -/
theorem zaddLoop_run (holds : HoldsZSet key w.table set) (pairs : List (Bytes × Bytes)) (clientFd : Int)
    (few : (pairs.foldl addPair (set, 0)).2 < 2 ^ 64) :
    ∃ t, zaddLoop key pairs clientFd w = .ok ((), t) ∧ HoldsZSet key t.table (pairs.foldl addPair (set, 0)).1 ∧
      t.sent = w.sent ++ [(clientFd, integerReply (pairs.foldl addPair (set, 0)).2)] := by
  obtain ⟨opened, expiresAt, opens, isOpen⟩ := openZSet_total holds
  obtain ⟨bucket, inBucket, _⟩ := Option.bind_eq_some_iff.mp isOpen.bound
  obtain ⟨t, updates, keeps, stores⟩ : ∃ t, updateEntry key (.zset (pairs.foldl addPair (set, 0)).1) opened = .ok ((), t) ∧
      t = { opened with table := t.table } ∧
        Stores opened.table key ⟨.zset (pairs.foldl addPair (set, 0)).1, expiresAt⟩ false t.table := by
    have run := updateEntry_run inBucket (.zset (pairs.foldl addPair (set, 0)).1) opened
    exact ⟨_, run, updateEntry_stores isOpen.bound run⟩
  have replies : sendText 128 clientFd (integerReply (pairs.foldl addPair (set, 0)).2) t =
      .ok ((), t.emit clientFd (integerReply (pairs.foldl addPair (set, 0)).2)) := by
    have short := length_integerReply few
    exact sendText_run (by omega)
  refine ⟨t.emit clientFd (integerReply (pairs.foldl addPair (set, 0)).2), ?_, .inr ⟨expiresAt, lookup_of_binding stores.binding_self⟩, ?_⟩
  · rw [zaddLoop, bind_of_ok opens]
    dsimp only
    rw [bind_of_ok updates]
    exact replies
  · have sent : t.sent = w.sent := by rw [keeps, isOpen.keeps]
    rw [← sent]
    rfl

/-- Pairs that give the same set and the same count are written and answered alike. -/
theorem zaddLoop_congr (holds : HoldsZSet key w.table set) {pairs pairs' : List (Bytes × Bytes)}
    (same : pairs.foldl addPair (set, 0) = pairs'.foldl addPair (set, 0)) (clientFd : Int) :
    zaddLoop key pairs clientFd w = zaddLoop key pairs' clientFd w := by
  obtain ⟨opened, _, opens, _⟩ := openZSet_total holds
  rw [zaddLoop, zaddLoop, bind_of_ok opens, bind_of_ok opens]
  dsimp only
  rw [same]

/-- A request that is refused. -/
theorem handleZadd_unpaired (unpaired : ¬ (3 ≤ req.argc ∧ (req.argc - 1) % 2 = 0)) (clientFd : Int) (w : World D) :
    ∃ t, handleZadd req clientFd w = .ok ((), t) ∧ t.table = w.table := by
  unfold handleZadd
  split
  · exact ⟨w, rfl, rfl⟩
  · rename_i enough
    have odd : ¬ (req.argc - 1) % 2 = 0 := fun even => unpaired ⟨by omega, even⟩
    rw [if_pos (by rw [Int.tmod_eq_emod_of_nonneg (by omega)]; exact odd)]
    exact ⟨_, rfl, rfl⟩

end Handler

/-! ## The law -/

section Law

variable {D L : Type} [Externals D] [LinearOrder L] [Numbers D L] {key : Bytes} {set : ZSet D} {scores : Bytes → Option D}
  {w : World D}

/-- No score of the request is NaN. -/
def RespRequest.GivesNumbers (D : Type) {L : Type} [Externals D] [LinearOrder L] [Numbers D L] (req : RespRequest) : Prop :=
  ∀ pair ∈ req.pairs, Numbers.isNumber (Externals.atof pair.1 : D)

/-- What ZADD does to a key that has a sorted set with these scores. -/
structure ZaddLaw (key : Bytes) (set : ZSet D) (scores : Bytes → Option D) (w : World D) : Prop where
  updates : ∀ req fd, Paired key req → req.GivesNumbers D → ∃ changed t, handleZadd req fd w = .ok ((), t) ∧
    HoldsZSet key t.table changed ∧ changed.Scores ((scored req.pairs).foldl giveScore scores) ∧
    t.sent = w.sent ++ [(fd, integerReply (created req.pairs scores).ncard)]
  single : ∀ req fd, Paired key req → req.argc = 3 → handleZadd req fd w = zaddLoop key req.pairs fd w
  permuted : ∀ req req' fd, Paired key req → Paired key req' → req.GivesNumbers D → req.pairs.Perm req'.pairs →
    (req.pairs.map Prod.snd).Nodup → handleZadd req fd w = handleZadd req' fd w
  unpaired : ∀ req fd, ¬ (3 ≤ req.argc ∧ (req.argc - 1) % 2 = 0) →
    ∃ t, handleZadd req fd w = .ok ((), t) ∧ t.table = w.table

theorem ncard_created_le (pairs : List (Bytes × Bytes)) (scores : Bytes → Option D) :
    (created pairs scores).ncard ≤ pairs.length := by
  induction pairs generalizing scores with
  | nil => simp [created]
  | cons pair pairs inductionHypothesis =>
    have rest := inductionHypothesis (giveScore scores (Externals.atof pair.1, pair.2))
    rw [ncard_created_cons pair (Externals.atof pair.1), List.length_cons]
    split <;> omega

/-- For every sorted set, ZADD gives the members of its pairs their scores from left to right, and replies how many of
them had none.  A single pair is treated as the loop would, the order of pairs of different members does not matter, and
arguments that do not pair up change nothing. -/
theorem zadd_updates_scores (holds : HoldsZSet key w.table set) (isScored : set.Scores scores) :
    ZaddLaw key set scores w where
  updates req fd paired numbers := by
    obtain ⟨changed, counted⟩ := foldl_addPair isScored numbers 0
    rw [Nat.zero_add] at counted
    have few : (req.pairs.foldl addPair (set, 0)).2 < 2 ^ 64 := by
      have pairs := length_scorePairs_le (req.args.drop 1)
      have isCounted := paired.counted
      have created := ncard_created_le req.pairs scores
      rw [List.length_drop] at pairs
      rw [counted]
      unfold RespRequest.pairs at created ⊢
      omega
    obtain ⟨t, run, bound, replies⟩ := zaddLoop_run holds req.pairs fd few
    refine ⟨_, t, (handleZadd_loop paired fd w).trans run, bound, changed, ?_⟩
    rw [replies, counted]
  single req fd paired _ := handleZadd_loop paired fd w
  permuted req req' fd paired paired' numbers permuted distinct := by
    rw [handleZadd_loop paired, handleZadd_loop paired']
    exact zaddLoop_congr holds (foldl_addPair_perm isScored permuted distinct numbers 0) fd
  unpaired req fd unpaired := handleZadd_unpaired unpaired fd w

/-- A sorted set of two members. -/
def twoMembers : ZSet Int := ⟨[⟨lit "a", 1⟩, ⟨lit "b", 2⟩], 2⟩

/-- ZADD k 7 b 3 c 5 b to a sorted set that has `a` and `b`. -/
theorem zadd_updates_scores_two : ∃ changed t,
    handleZadd (requestOf [lit "ZADD", lit "k", lit "7", lit "b", lit "3", lit "c", lit "5", lit "b"]) 5
      (worldWith (lit "k") (.zset twoMembers)) = .ok ((), t) ∧
    HoldsZSet (lit "k") t.table changed ∧
    changed.Scores ([(1, lit "a"), (2, lit "b"), (7, lit "b"), (3, lit "c"), (5, lit "b")].foldl giveScore fun _ => none) ∧
    t.sent = [(5, lit ":1\r\n")] := by
  let req := requestOf [lit "ZADD", lit "k", lit "7", lit "b", lit "3", lit "c", lit "5", lit "b"]
  let scores : Bytes → Option Int := [(1, lit "a"), (2, lit "b")].foldl giveScore fun _ => none
  have built : [(lit "1", lit "a"), (lit "2", lit "b")].foldl addPair ((⟨[], 0⟩ : ZSet Int), 0) = (twoMembers, 2) := by
    decide +kernel
  have gives : (scored [(lit "1", lit "a"), (lit "2", lit "b")] : List (Int × Bytes)) = [(1, lit "a"), (2, lit "b")] := by
    decide +kernel
  have isScored : twoMembers.Scores scores := by
    have added := (foldl_addPair (scores_empty (D := Int))
      (fun pair (_ : pair ∈ [(lit "1", lit "a"), (lit "2", lit "b")]) => trivial) 0).1
    rwa [built, gives] at added
  have paired : Paired (lit "k") req := ⟨by decide +kernel, by decide +kernel, by decide +kernel, by decide +kernel⟩
  obtain ⟨changed, t, run, bound, isUpdated, replies⟩ :=
    (zadd_updates_scores (.inr ⟨0, lookup_worldWith indexed_k _⟩) isScored).updates req 5 paired fun _ _ => trivial
  have one : created req.pairs scores = {lit "c"} := by
    have pairs : req.pairs.map Prod.snd = [lit "b", lit "c", lit "b"] := by decide +kernel
    ext member
    rw [created, Set.mem_ofPred_eq, Set.mem_singleton_iff, pairs]
    constructor
    · rintro ⟨inside, absent⟩
      obtain rfl | rfl | rfl : member = lit "b" ∨ member = lit "c" ∨ member = lit "b" := by simpa using inside
      · exact absurd absent (by decide +kernel)
      · rfl
      · exact absurd absent (by decide +kernel)
    · intro same
      have absent : scores (lit "c") = none := by decide +kernel
      rw [same]
      exact ⟨by simp, absent⟩
  rw [one, Set.ncard_singleton] at replies
  have all : (scored req.pairs : List (Int × Bytes)) = [(7, lit "b"), (3, lit "c"), (5, lit "b")] := by decide +kernel
  rw [all] at isUpdated
  exact ⟨changed, t, run, bound, isUpdated, replies⟩

end Law

end RedisClone
