import Mathlib.Data.List.Lex
import Mathlib.Data.List.Sort
import Mathlib.Data.Prod.Lex
import RedisClone.Lib.Runs
import RedisClone.Verified.Writes

/-! # The order of sorted sets

`zset_add` looks for its place by score and member, and does not ask whether the member is in the list already;
every caller removes the member first.  `ZSet.Ordered` is what this keeps: the nodes ascend, no member occurs
twice, and `length` counts them.  The place is that of `List.orderedInsert` for the rank of a node, so that what is
known of sorted lists carries the order.
-/

namespace RedisClone

open Exec CString

variable {D : Type}

/-! ## Ranks -/

/-- The comparisons of scores are those of a linear order; there is no NaN. -/
class OrderedScores (D : Type) [Externals D] [LinearOrder D] : Prop where
  lt_iff : ∀ a b : D, Externals.lt a b = true ↔ a < b
  eq_iff : ∀ a b : D, Externals.eq a b = true ↔ a = b

theorem strcmpLt_iff {s t : Bytes} : strcmpLt s t = true ↔ s.map UInt8.toNat < t.map UInt8.toNat := by
  induction s generalizing t with
  | nil =>
    cases t with
    | nil => simp [strcmpLt]
    | cons b t => simp [strcmpLt]
  | cons a s inductionHypothesis =>
    cases t with
    | nil => simp [strcmpLt]
    | cons b t =>
      simp only [strcmpLt, List.map_cons, List.cons_lt_cons_iff, Bool.or_eq_true, Bool.and_eq_true,
        decide_eq_true_eq, beq_iff_eq, inductionHypothesis, UInt8.lt_iff_toNat_lt, UInt8.toNat_inj]

/-- A node comes before another one by its score, and among equal scores by its member. -/
def Precedes [LinearOrder D] (a b : ZSetEntry D) : Prop :=
  a.score < b.score ∨ a.score = b.score ∧ strcmpLt a.member b.member = true

/-- The score and the bytes of the member, in their lexicographic order. -/
def rank (entry : ZSetEntry D) : D ×ₗ List Nat := toLex (entry.score, entry.member.map UInt8.toNat)

theorem precedes_iff [LinearOrder D] {a b : ZSetEntry D} : Precedes a b ↔ rank a < rank b := by
  rw [Precedes, strcmpLt_iff, rank, rank, Prod.Lex.toLex_lt_toLex]

theorem rank_injective : Function.Injective (rank : ZSetEntry D → _) := by
  intro a b same
  obtain ⟨sameScore, sameMember⟩ := Prod.mk.inj (toLex.injective same)
  cases a
  cases b
  obtain rfl := List.map_injective_iff.mpr (fun _ _ => UInt8.toNat_inj.mp) sameMember
  obtain rfl := sameScore
  rfl

section Order

instance rank_total [LinearOrder D] : Std.Total fun a b : ZSetEntry D => rank a ≤ rank b :=
  ⟨fun _ _ => le_total _ _⟩

instance rank_trans [LinearOrder D] : IsTrans (ZSetEntry D) fun a b => rank a ≤ rank b :=
  ⟨fun _ _ _ => le_trans⟩

variable [LinearOrder D] {set : ZSet D} {entries : List (ZSetEntry D)} {curr : ZSetEntry D} {score : D}
  {member : Bytes}

theorem isBefore_iff [Externals D] [OrderedScores D] : isBefore curr score member = true ↔ rank curr < rank ⟨member, score⟩ := by
  rw [← precedes_iff, Precedes, isBefore, Bool.or_eq_true, Bool.and_eq_true, OrderedScores.lt_iff,
    OrderedScores.eq_iff]

/-- The place that the loop of `zset_add` finds. -/
theorem insertMember_eq_orderedInsert [Externals D] [OrderedScores D] :
    insertMember score member entries =
      entries.orderedInsert (fun a b => rank a ≤ rank b) ⟨member, score⟩ := by
  induction entries with
  | nil => rfl
  | cons curr rest inductionHypothesis =>
    rw [insertMember, List.orderedInsert_cons]
    by_cases before : isBefore curr score member = true
    · rw [if_pos before, if_neg (isBefore_iff.mp before).not_ge, inductionHypothesis]
    · rw [if_neg before, if_pos (not_lt.mp fun less => before (isBefore_iff.mpr less))]

omit [LinearOrder D] in
/-- `zset_remove` unlinks the first node of the member. -/
theorem removeMember_eq_eraseP :
    removeMember member entries = entries.eraseP fun curr => curr.member = member := by
  induction entries with
  | nil => rfl
  | cons curr rest inductionHypothesis =>
    by_cases isMember : curr.member = member
    · simp [removeMember, isMember]
    · simp [removeMember, isMember, inductionHypothesis]

/-! ## The invariant -/

/-- What ZADD, GEOADD and ZREM keep of a sorted set. -/
structure ZSet.Ordered (set : ZSet D) : Prop where
  ascending : set.entries.Pairwise Precedes
  unique : (set.entries.map (·.member)).Nodup
  counted : set.length = set.entries.length

theorem ordered_empty : (⟨[], 0⟩ : ZSet D).Ordered :=
  ⟨.nil, List.nodup_nil, rfl⟩

theorem zsetRemove_ordered (ordered : set.Ordered) (member : Bytes) : (zsetRemove set member).1.Ordered := by
  unfold zsetRemove
  split
  · rename_i present
    obtain ⟨entry, inside, isMember⟩ := List.any_eq_true.mp present
    have shorter : (removeMember member set.entries).Sublist set.entries := by
      rw [removeMember_eq_eraseP]
      exact List.eraseP_sublist
    refine ⟨ordered.ascending.sublist shorter, ordered.unique.sublist (shorter.map _), ?_⟩
    simp only [removeMember_eq_eraseP, ordered.counted]
    exact (List.length_eraseP_of_mem inside isMember).symm
  · exact ordered

/-- A removed member is in the list no more: it was there only once. -/
theorem zsetRemove_absent (ordered : set.Ordered) (member : Bytes) :
    member ∉ (zsetRemove set member).1.entries.map (·.member) := by
  unfold zsetRemove
  split
  · rename_i present
    obtain ⟨entry, inside, isMember⟩ := List.any_eq_true.mp present
    obtain ⟨first, before, after, _, isFirst, split, erased⟩ := 
      List.exists_of_eraseP (p := fun curr : ZSetEntry D => decide (curr.member = member)) inside isMember
    have unique := ordered.unique
    have firstMember : first.member = member := of_decide_eq_true isFirst
    simp only [removeMember_eq_eraseP, erased]
    rw [split, List.map_append, List.map_cons, firstMember] at unique
    rw [List.map_append]
    exact (List.nodup_middle.mp unique).notMem
  · rename_i absent
    simpa using absent

theorem zsetAdd_ordered [Externals D] [OrderedScores D] (ordered : set.Ordered) (absent : member ∉ set.entries.map (·.member)) :
    (zsetAdd set score member).Ordered := by
  have permuted := List.perm_orderedInsert (fun a b => rank a ≤ rank b) (⟨member, score⟩ : ZSetEntry D) set.entries
  simp only [zsetAdd, insertMember_eq_orderedInsert]
  refine ⟨?_, ?_, ?_⟩
  · -- the list with the new node is sorted, and no two nodes of it are equal
    have sorted : set.entries.Pairwise fun a b => rank a ≤ rank b :=
      ordered.ascending.imp fun precedes => (precedes_iff.mp precedes).le
    have unique : (set.entries.orderedInsert (fun a b => rank a ≤ rank b) ⟨member, score⟩).Pairwise (· ≠ ·) := by
      rw [← List.Nodup, permuted.nodup_iff, List.nodup_cons]
      exact ⟨fun inside => absent (List.mem_map_of_mem inside), ordered.unique.of_map⟩
    refine ((sorted.orderedInsert ⟨member, score⟩).and unique).imp fun ⟨least, differs⟩ => ?_
    exact precedes_iff.mpr (lt_of_le_of_ne least (rank_injective.ne differs))
  · rw [(permuted.map _).nodup_iff, List.map_cons, List.nodup_cons]
    exact ⟨absent, ordered.unique⟩
  · rw [List.orderedInsert_length, ordered.counted]

/-! ## The loops -/

theorem addPair_ordered [Externals D] [OrderedScores D] (pair : Bytes × Bytes) {state : ZSet D × Nat}
    (ordered : state.1.Ordered) : (addPair state pair).1.Ordered :=
  zsetAdd_ordered (zsetRemove_ordered ordered pair.2) (zsetRemove_absent ordered pair.2)

theorem addPairs_ordered [Externals D] [OrderedScores D] (ordered : set.Ordered) (words : List Bytes) :
    (addPairs set words).Ordered := by
  have kept (pairs : List (Bytes × Bytes)) (state : ZSet D × Nat) (ordered : state.1.Ordered) :
      (pairs.foldl addPair state).1.Ordered := by
    induction pairs generalizing state with
    | nil => exact ordered
    | cons pair pairs inductionHypothesis => exact inductionHypothesis _ (addPair_ordered pair ordered)
  exact kept _ _ ordered

theorem removeOnes_ordered (members : List Bytes) (state : ZSet D × Nat) (ordered : state.1.Ordered) :
    (members.foldl removeOne state).1.Ordered := by
  induction members generalizing state with
  | nil => exact ordered
  | cons member members inductionHypothesis =>
    exact inductionHypothesis _ (zsetRemove_ordered ordered member)

end Order

/-! ## Runs of requests -/

/-- A request that writes to a sorted set. -/
inductive ZSetCommand where
  | zadd | geoadd | zrem
  deriving DecidableEq, Repr

structure ZSetCall where
  command : ZSetCommand
  req : RespRequest
  clientFd : Int

def ZSetCall.handle [Externals D] (call : ZSetCall) : M D Unit :=
  match call.command with
  | .zadd => handleZadd call.req call.clientFd
  | .geoadd => handleGeoadd call.req call.clientFd
  | .zrem => handleZrem call.req call.clientFd

/-- A request to the key ends, whatever the rest of the state is when it comes. -/
def ZSetStep [Externals D] (key : Bytes) (w : World D) (call : ZSetCall) (t : World D) : Prop :=
  ∃ start : World D, start.table = w.table ∧ call.req.args[0]? = some key ∧ call.handle start = .ok ((), t)

/-- The key is free, or it has a sorted set that is ordered. -/
def OrderedAt [LinearOrder D] (key : Bytes) (w : World D) : Prop :=
  binding w.table key = none ∨
    ∃ set expiresAt, binding w.table key = some ⟨.zset set, expiresAt⟩ ∧ set.Ordered

section Runs

variable [Externals D] [LinearOrder D] {key : Bytes} {w t : World D} {req : RespRequest} {clientFd : Int}

omit [Externals D] in
theorem OrderedAt.of_stores {table : Table D} {set : ZSet D} {expiresAt : Int} {overwrites : Bool}
    (ordered : set.Ordered) (stores : Stores table key ⟨.zset set, expiresAt⟩ overwrites t.table) :
    OrderedAt key t :=
  .inr ⟨set, expiresAt, stores.binding_self, ordered⟩

theorem zadd_ordered [OrderedScores D] (ordered : OrderedAt key w) (isKey : req.args[0]? = some key)
    (run : handleZadd req clientFd w = .ok ((), t)) : OrderedAt key t := by
  obtain ⟨_, same⟩ | ⟨_, key', set, expiresAt, opened, isKey', opens, stores⟩ := handleZadd_ok run
  · rwa [OrderedAt, same]
  · obtain rfl : key = key' := Option.some.inj (isKey.symm.trans isKey')
    refine .of_stores (addPairs_ordered ?_ _) stores
    obtain unbound | ⟨stored, deadline, bound, isOrdered⟩ := ordered
    · obtain ⟨bound, _⟩ | ⟨_, isNew, _⟩ := opens.before
      · simp [unbound] at bound
      · obtain rfl : set = ⟨[], 0⟩ := by simpa using isNew
        exact ordered_empty
    · obtain ⟨bound', _⟩ | ⟨unbound, _⟩ := opens.before
      · obtain rfl : stored = set := by
          rw [bound] at bound'
          simpa using (congrArg Entry.value (Option.some.inj bound'))
        exact isOrdered
      · simp [unbound] at bound

theorem geoadd_ordered [OrderedScores D] (ordered : OrderedAt key w) (isKey : req.args[0]? = some key)
    (run : handleGeoadd req clientFd w = .ok ((), t)) : OrderedAt key t := by
  unfold handleGeoadd at run
  split at run
  · obtain rfl : w = t := by simpa using run
    exact ordered
  · rw [bind_of_ok (arg_ok.mpr ⟨isKey, rfl⟩)] at run
    cases scores : geoScores (D := D) (geoTriples (req.args.drop 1)) with
    | error invalid =>
      simp only [scores, sendText] at run
      rw [send_run run]
      exact ordered
    | ok words =>
      simp only [scores] at run
      -- the set is written by the handler of ZADD
      exact zadd_ordered ordered (by simp [zaddRequest]) run

omit [Externals D] in
theorem zrem_ordered (ordered : OrderedAt key w) (isKey : req.args[0]? = some key)
    (run : handleZrem req clientFd w = .ok ((), t)) : OrderedAt key t := by
  obtain ⟨same, _⟩ | ⟨_, key', set, expiresAt, isKey', bound, stores⟩ := handleZrem_ok run
  · rwa [OrderedAt, same]
  · obtain rfl : key = key' := Option.some.inj (isKey.symm.trans isKey')
    obtain unbound | ⟨stored, deadline, bound', isOrdered⟩ := ordered
    · simp [unbound] at bound
    · obtain rfl : stored = set := by
        rw [bound] at bound'
        simpa using (congrArg Entry.value (Option.some.inj bound')).symm
      exact .of_stores (removeOnes_ordered _ _ isOrdered) stores

/-- In every run of ZADD, GEOADD and ZREM requests to a key that is free at the start, whenever the key has a
value it is a sorted set whose list ascends by score and member, in which no member occurs twice, and whose
`length` is the number of its nodes. -/
theorem sorted_sets_ordered [OrderedScores D] (absent : binding w.table key = none)
    (run : Run (ZSetStep key) (fun _ _ => True) w t) : OrderedAt key t := by
  refine run.invariant (fun before call after ordered _ step => ?_) (.inl absent)
  obtain ⟨start, same, isKey, runs⟩ := step
  have orderedStart : OrderedAt key start := by rwa [OrderedAt, same]
  unfold ZSetCall.handle at runs
  cases isCommand : call.command with
  | zadd =>
    rw [isCommand] at runs
    exact zadd_ordered orderedStart isKey runs
  | geoadd =>
    rw [isCommand] at runs
    exact geoadd_ordered orderedStart isKey runs
  | zrem =>
    rw [isCommand] at runs
    exact zrem_ordered orderedStart isKey runs

instance orderedScores_int : OrderedScores Int where
  lt_iff _ _ := decide_eq_true_iff
  eq_iff _ _ := by simp [Externals.eq]

/-- ZADD of three members, two of them with one score, and then of one of them with another score. -/
theorem sorted_sets_ordered_readded : ∃ t : World Int, OrderedAt (lit "k") t ∧
    binding t.table (lit "k") = some ⟨.zset ⟨[⟨lit "c", 1⟩, ⟨lit "a", 2⟩, ⟨lit "b", 7⟩], 3⟩, 0⟩ := by
  let first := requestOf [lit "ZADD", lit "k", lit "2", lit "b", lit "1", lit "c", lit "2", lit "a"]
  let second := requestOf [lit "ZADD", lit "k", lit "7", lit "b"]
  have ends : endsIn (handleZadd first 5) (blankWorld Int) (fun t =>
      endsIn (handleZadd second 5) t fun u => decide (binding u.table (lit "k") =
        some ⟨.zset ⟨[⟨lit "c", 1⟩, ⟨lit "a", 2⟩, ⟨lit "b", 7⟩], 3⟩, 0⟩)) = true := by
    decide +kernel
  obtain ⟨t, runs, checked⟩ := exists_ok_of_endsIn ends
  obtain ⟨u, runsAgain, isBound⟩ := exists_ok_of_endsIn checked
  have run : Run (ZSetStep (lit "k")) (fun _ _ => True) (blankWorld Int) u :=
    .tail (.single (i := ⟨.zadd, first, 5⟩) trivial ⟨blankWorld Int, rfl, rfl, runs⟩) trivial
      (i := ⟨.zadd, second, 5⟩) ⟨t, rfl, rfl, runsAgain⟩
  exact ⟨u, sorted_sets_ordered (by decide +kernel) run, of_decide_eq_true isBound⟩

end Runs

end RedisClone
