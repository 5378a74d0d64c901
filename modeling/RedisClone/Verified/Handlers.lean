import RedisClone.Verified.Effects

/-! # What each arm of the dispatcher may do

One lemma for each handler: its faults and the bucket it writes, each under the condition on the
request and the state that makes the handler get that far.
-/

namespace RedisClone

open Exec

variable {D : Type} {R : World D → World D → Prop} {F : Fault → Prop}

/-- The key of the request is bound to a value of this type, or not bound. -/
def KeyHolds (w : World D) (req : RespRequest) (type : RedisType) : Prop :=
  ∀ key, req.args[0]? = some key → HoldsType w.table key type

/-- The bucket of the request's key may change. -/
def WritesKey (R : World D → World D → Prop) (req : RespRequest) : Prop :=
  ∀ key, req.args[0]? = some key → MayWrite R key

variable (ambient : Ambient R F) {req : RespRequest} {clientFd : Int} {ptr : ClientPtr}
  {w : World D}
include ambient

/-! ## Lists -/

theorem obeysAt_openList {key : Bytes} (typed : F .typeConfusion ∨ HoldsType w.table key .list)
    (mayWrite : MayWrite R key) : ObeysAt R F (openList key) w := by
  refine obeysAt_withPayload ambient asList_casts typed ?_ fun values => obeys_pure ambient values
  refine obeys_seq ambient (obeys_storeSetContainer ambient mayWrite _) fun _ => ?_
  exact obeys_pure ambient []

theorem obeys_longestWaiter (key : Bytes) (slots : List ClientSlot) (longest : Option ClientPtr)
    (biggest : Int) :
    Obeys R F (longestWaiter key slots longest biggest : M D (Option ClientPtr)) := by
  induction slots generalizing longest biggest with
  | nil => exact obeys_pure ambient longest
  | cons slot slots inductionHypothesis =>
    refine obeys_seq ambient (obeys_clientAt ambient slot) fun occupant => ?_
    cases occupant with
    | none => exact inductionHypothesis longest biggest
    | some occupant =>
      refine Obeys.ite (fun _ => ?_) fun _ => inductionHypothesis longest biggest
      refine obeys_seq ambient (obeys_getCurrentTimeMs ambient) fun now => ?_
      exact Obeys.ite (fun _ => inductionHypothesis _ _) fun _ => inductionHypothesis _ _

theorem obeys_serveWaiter {key : Bytes} (mayBlock : MayBlock R) (mayWrite : MayWrite R key) (values : List Bytes)
    (ptr : ClientPtr) : Obeys R F (serveWaiter key values ptr : M D Unit) := by
  unfold serveWaiter
  cases values.head? with
  | none => exact obeys_fault ambient (by decide) (by decide)
  | some first =>
    refine obeys_seq ambient (obeys_loadClient ambient ptr) fun client => ?_
    refine obeys_seq ambient (obeys_sendText ambient _ _ _) fun _ => ?_
    refine obeys_seq ambient (obeys_updateEntry ambient mayWrite _) fun _ => ?_
    refine obeys_blockClient ambient mayBlock ?_ ptr
    exact fun _ => rfl

theorem obeysAt_handleRpush (mayBlock : MayBlock R)
    (typed : F .typeConfusion ∨ (2 ≤ req.argc → KeyHolds w req .list))
    (writes : 2 ≤ req.argc → WritesKey R req) :
    ObeysAt R F (handleRpush req clientFd) w := by
  unfold handleRpush
  split
  · exact obeys_send ambient _ _ w
  · refine obeysAt_arg ambient (.inr (by omega)) fun key isKey => ?_
    have mayWrite := writes (by omega) key isKey
    have holds := typed.imp_right fun holds => holds (by omega) key isKey
    refine obeysAt_seq ambient (obeysAt_openList ambient holds mayWrite) fun list => ?_
    refine obeys_seq ambient (obeys_updateEntry ambient mayWrite _) fun _ => ?_
    refine obeys_seq ambient (obeys_sendText ambient _ _ _) fun _ => ?_
    refine obeys_seq ambient (obeys_longestWaiter ambient key _ _ _) fun waiter => ?_
    cases waiter with
    | none => exact obeys_pure ambient ()
    | some ptr => exact obeys_serveWaiter ambient mayBlock mayWrite _ ptr

theorem obeysAt_handleLpush (typed : F .typeConfusion ∨ (2 ≤ req.argc → KeyHolds w req .list))
    (writes : 2 ≤ req.argc → WritesKey R req) :
    ObeysAt R F (handleLpush req clientFd) w := by
  unfold handleLpush
  split
  · exact obeys_send ambient _ _ w
  · refine obeysAt_arg ambient (.inr (by omega)) fun key isKey => ?_
    have mayWrite := writes (by omega) key isKey
    have holds := typed.imp_right fun holds => holds (by omega) key isKey
    refine obeysAt_seq ambient (obeysAt_openList ambient holds mayWrite) fun list => ?_
    refine obeys_seq ambient (obeys_updateEntry ambient mayWrite _) fun _ => ?_
    exact obeys_sendText ambient _ _ _

theorem obeys_lrangeBounds (size startIndex endIndex : Int) :
    Obeys R F (lrangeBounds size startIndex endIndex : M D (Int × Int)) :=
  Obeys.ite (fun _ => obeys_fault ambient (by decide) (by decide)) fun _ => obeys_pure ambient _

theorem obeysAt_handleLrange (typed : F .typeConfusion ∨ (3 ≤ req.argc → KeyHolds w req .list)) :
    ObeysAt R F (handleLrange req clientFd) w := by
  unfold handleLrange
  split
  · exact obeys_pure ambient () w
  · refine obeysAt_arg ambient (.inr (by omega)) fun key isKey => ?_
    have holds := typed.imp_right fun holds => holds (by omega) key isKey
    refine obeysAt_withPayload ambient asList_casts holds (obeys_send ambient _ _) fun values => ?_
    refine obeys_seq ambient (obeys_arg ambient (.inr (by omega))) fun first => ?_
    refine obeys_seq ambient (obeys_arg ambient (.inr (by omega))) fun last => ?_
    refine obeys_seq ambient (obeys_lrangeBounds ambient _ _ _) fun bounds => ?_
    refine Obeys.ite (fun _ => obeys_send ambient _ _) fun _ => ?_
    refine Obeys.ite (fun _ => ?_) fun _ => ?_
    · split
      · exact obeys_fault ambient (by decide) (by decide)
      · exact obeys_sendText ambient _ _ _
    · exact obeys_seq ambient (obeys_appendGuarded ambient _ _ _) fun _ => obeys_send ambient _ _

theorem obeysAt_handleLlen (typed : F .typeConfusion ∨ KeyHolds w req .list) :
    ObeysAt R F (handleLlen req clientFd) w := by
  unfold handleLlen
  split
  · exact obeys_pure ambient () w
  · refine obeysAt_arg ambient (.inr (by omega)) fun key isKey => ?_
    have holds := typed.imp_right fun holds => holds key isKey
    exact obeysAt_withPayload ambient asList_casts holds (obeys_send ambient _ _)
      fun values => obeys_sendText ambient _ _ _

theorem obeys_sendPopped (popped : List Bytes) :
    Obeys R F (sendPopped clientFd popped : M D Unit) :=
  obeys_seq ambient (obeys_appendAll ambient _ _ _) fun _ => obeys_sendPrefix ambient _ _ _

theorem obeysAt_handleLpop (typed : F .typeConfusion ∨ KeyHolds w req .list)
    (writes : WritesKey R req) : ObeysAt R F (handleLpop req clientFd) w := by
  unfold handleLpop
  split
  · exact obeys_pure ambient () w
  · refine obeysAt_arg ambient (.inr (by omega)) fun key isKey => ?_
    have mayWrite := writes key isKey
    have holds := typed.imp_right fun holds => holds key isKey
    refine obeysAt_withPayload ambient asList_casts holds (obeys_send ambient _ _) fun values => ?_
    split
    · exact obeys_send ambient _ _
    · refine Obeys.ite (fun isCount => ?_) fun _ => ?_
      · refine obeys_seq ambient (obeys_arg ambient (.inr (by omega))) fun text => ?_
        refine Obeys.ite (fun _ => obeys_send ambient _ _) fun _ => ?_
        refine Obeys.ite (fun _ => obeys_send ambient _ _) fun _ => ?_
        refine obeys_seq ambient (obeys_sendPopped ambient _) fun _ => ?_
        exact obeys_updateEntry ambient mayWrite _
      · refine obeys_seq ambient (obeys_sendText ambient _ _ _) fun _ => ?_
        exact obeys_updateEntry ambient mayWrite _

/-- BLPOP finds an element at once. -/
def PopsNow (w : World D) (req : RespRequest) : Prop :=
  2 ≤ req.argc ∧ ∃ key first rest expiresAt, req.args[0]? = some key ∧
    lookup w.table key = .ok (some ⟨.list (first :: rest), expiresAt⟩)

omit ambient in
theorem withPayload_asList {key : Bytes} {values : List Bytes} {w t : World D}
    (run : withPayload key asList (pure []) pure w = .ok (values, t)) :
    t = w ∧ (values = [] ∨
      ∃ expiresAt, lookup w.table key = .ok (some ⟨.list values, expiresAt⟩)) := by
  rw [withPayload_run] at run
  cases bound : lookup w.table key with
  | error f => simp [bound] at run
  | ok result =>
    cases result with
    | none =>
      simp only [bound, pure_run, Except.ok.injEq, Prod.mk.injEq] at run
      exact ⟨run.2.symm, .inl run.1.symm⟩
    | some entry =>
      obtain ⟨value, expiresAt⟩ := entry
      cases value with
      | list stored =>
        simp only [bound, asList, pure_bind, pure_run, Except.ok.injEq, Prod.mk.injEq] at run
        exact ⟨run.2.symm, .inr ⟨expiresAt, by rw [run.1]⟩⟩
      | _ => simp [bound, asList, bind_run, fault] at run

theorem obeys_blpopDeadline [Externals D] (sec : D) :
    Obeys R F (blpopDeadline sec : M D Int) := by
  refine Obeys.ite (fun _ => obeys_pure ambient 0) fun _ => ?_
  exact obeys_seq ambient (obeys_getCurrentTimeMs ambient) fun now => obeys_pure ambient _

theorem obeysAt_handleBlpop [Externals D] (mayBlock : MayBlock R)
    (typed : F .typeConfusion ∨ (2 ≤ req.argc → KeyHolds w req .list))
    (writes : PopsNow w req → WritesKey R req) : ObeysAt R F (handleBlpop req ptr) w := by
  unfold handleBlpop
  split
  · exact obeys_pure ambient () w
  · refine obeysAt_arg ambient (.inr (by omega)) fun key isKey => ?_
    have holds := typed.imp_right fun holds => holds (by omega) key isKey
    refine ObeysAt.bind ambient.composes (obeysAt_withPayload ambient asList_casts holds
      (obeys_pure ambient []) fun values => obeys_pure ambient values) fun values t run => ?_
    obtain ⟨rfl, source⟩ := withPayload_asList run
    cases values with
    | cons first rest =>
      obtain isNil | ⟨expiresAt, bound⟩ := source
      · simp at isNil
      · have mayWrite := writes ⟨by omega, key, first, rest, expiresAt, isKey, bound⟩ key isKey
        refine obeys_seq ambient (obeys_loadClient ambient ptr) (fun client => ?_) t
        refine obeys_seq ambient (obeys_sendText ambient _ _ _) fun _ => ?_
        exact obeys_updateEntry ambient mayWrite _
    | nil =>
      refine obeys_seq ambient (obeys_arg ambient (.inr (by omega))) (fun sec => ?_) t
      refine obeys_seq ambient (obeys_blpopDeadline ambient _) fun timeoutAt => ?_
      refine obeys_seq ambient (obeys_getCurrentTimeMs ambient) fun blockedAt => ?_
      refine obeys_blockClient ambient mayBlock ?_ ptr
      exact fun _ => rfl

/-! ## Sorted sets -/

theorem obeysAt_openZSet {key : Bytes} (typed : F .typeConfusion ∨ HoldsType w.table key .zset)
    (mayWrite : lookup w.table key = .ok none → MayWrite R key) :
    ObeysAt R F (openZSet key) w := by
  refine obeysAt_withPayload_of_lookup ambient asZSet_casts typed (fun absent => ?_)
    fun sortedSet => obeys_pure ambient sortedSet
  refine obeys_seq ambient (obeys_storeSetContainer ambient (mayWrite absent) _) (fun _ => ?_) w
  exact obeys_pure ambient _

/-- The number of arguments with which ZADD goes on to its key. -/
def PairsGiven (req : RespRequest) : Prop := 3 ≤ req.argc ∧ (req.argc - 1).tmod 2 = 0

theorem obeysAt_handleZadd [Externals D]
    (typed : F .typeConfusion ∨ (PairsGiven req → KeyHolds w req .zset))
    (writes : PairsGiven req → WritesKey R req) : ObeysAt R F (handleZadd req clientFd) w := by
  unfold handleZadd
  split
  · exact obeys_pure ambient () w
  · split
    · exact obeys_send ambient _ _ w
    · rename_i enough even
      have given : PairsGiven req := ⟨by omega, not_not.mp even⟩
      refine obeysAt_arg ambient (.inr (by omega)) fun key isKey => ?_
      have mayWrite := writes given key isKey
      have holds := typed.imp_right fun holds => holds given key isKey
      refine obeysAt_seq ambient (obeysAt_openZSet ambient holds fun _ => mayWrite)
        fun sortedSet => ?_
      refine Obeys.ite (fun _ => ?_) fun _ => ?_
      · refine obeys_seq ambient (obeys_updateEntry ambient mayWrite _) fun _ => ?_
        exact obeys_sendText ambient _ _ _
      · refine obeys_seq ambient (obeys_arg ambient (.inr (by omega))) fun score => ?_
        refine obeys_seq ambient (obeys_arg ambient (.inr (by omega))) fun member => ?_
        refine obeys_seq ambient (obeys_updateEntry ambient mayWrite _) fun _ => ?_
        exact Obeys.ite (fun _ => obeys_send ambient _ _) fun _ => obeys_send ambient _ _

theorem obeysAt_handleZrank (typed : F .typeConfusion ∨ (2 ≤ req.argc → KeyHolds w req .zset)) :
    ObeysAt R F (handleZrank req clientFd) w := by
  unfold handleZrank
  split
  · exact obeys_pure ambient () w
  · refine obeysAt_arg ambient (.inr (by omega)) fun key isKey => ?_
    have holds := typed.imp_right fun holds => holds (by omega) key isKey
    refine obeysAt_withPayload ambient asZSet_casts holds (obeys_send ambient _ _)
      fun sortedSet => ?_
    refine obeys_seq ambient (obeys_arg ambient (.inr (by omega))) fun member => ?_
    split <;> exact obeys_send ambient _ _

theorem obeys_appendMembers (size remaining : Nat) (entries : List (ZSetEntry D))
    (buffer : Buffer) : Obeys R F (appendMembers size remaining entries buffer : M D Buffer) := by
  induction remaining generalizing entries buffer with
  | zero => exact obeys_pure ambient buffer
  | succ remaining inductionHypothesis =>
    cases entries with
    | nil => exact obeys_fault ambient (by decide) (by decide)
    | cons entry entries =>
      refine obeys_seq ambient (obeys_print ambient _ _ _) fun printed => ?_
      exact Obeys.ite (fun _ => inductionHypothesis _ _) fun _ => obeys_pure ambient printed

theorem obeysAt_handleZrange (typed : F .typeConfusion ∨ (3 ≤ req.argc → KeyHolds w req .zset)) :
    ObeysAt R F (handleZrange req clientFd) w := by
  unfold handleZrange
  split
  · exact obeys_pure ambient () w
  · refine obeysAt_arg ambient (.inr (by omega)) fun key isKey => ?_
    have holds := typed.imp_right fun holds => holds (by omega) key isKey
    refine obeysAt_withPayload ambient asZSet_casts holds (obeys_send ambient _ _)
      fun sortedSet => ?_
    refine obeys_seq ambient (obeys_arg ambient (.inr (by omega))) fun first => ?_
    refine obeys_seq ambient (obeys_arg ambient (.inr (by omega))) fun last => ?_
    refine Obeys.ite (fun _ => obeys_send ambient _ _) fun _ => ?_
    refine Obeys.ite (fun _ => obeys_fault ambient (by decide) (by decide)) fun _ => ?_
    exact obeys_seq ambient (obeys_appendMembers ambient _ _ _ _) fun members =>
      obeys_sendPrefix ambient _ _ _

theorem obeysAt_handleZcard (typed : F .typeConfusion ∨ KeyHolds w req .zset) :
    ObeysAt R F (handleZcard req clientFd) w := by
  unfold handleZcard
  split
  · exact obeys_pure ambient () w
  · refine obeysAt_arg ambient (.inr (by omega)) fun key isKey => ?_
    have holds := typed.imp_right fun holds => holds key isKey
    exact obeysAt_withPayload ambient asZSet_casts holds (obeys_send ambient _ _)
      fun sortedSet => obeys_sendText ambient _ _ _

theorem obeysAt_handleZscore [Externals D]
    (typed : F .typeConfusion ∨ (2 ≤ req.argc → KeyHolds w req .zset)) :
    ObeysAt R F (handleZscore req clientFd) w := by
  unfold handleZscore
  split
  · exact obeys_pure ambient () w
  · refine obeysAt_arg ambient (.inr (by omega)) fun key isKey => ?_
    have holds := typed.imp_right fun holds => holds (by omega) key isKey
    refine obeysAt_withPayload ambient asZSet_casts holds (obeys_send ambient _ _)
      fun sortedSet => ?_
    refine obeys_seq ambient (obeys_arg ambient (.inr (by omega))) fun member => ?_
    split
    · exact obeys_sendText ambient _ _ _
    · exact Obeys.ite (fun _ => obeys_fault ambient (by decide) (by decide))
        fun _ => obeys_send ambient _ _

theorem obeysAt_handleZrem (typed : F .typeConfusion ∨ (2 ≤ req.argc → KeyHolds w req .zset))
    (writes : 2 ≤ req.argc → WritesKey R req) : ObeysAt R F (handleZrem req clientFd) w := by
  unfold handleZrem
  split
  · exact obeys_pure ambient () w
  · refine obeysAt_arg ambient (.inr (by omega)) fun key isKey => ?_
    have mayWrite := writes (by omega) key isKey
    have holds := typed.imp_right fun holds => holds (by omega) key isKey
    refine obeysAt_withPayload ambient asZSet_casts holds (obeys_send ambient _ _)
      fun sortedSet => ?_
    refine obeys_seq ambient (obeys_updateEntry ambient mayWrite _) fun _ => ?_
    exact obeys_send ambient _ _

/-! ## Geo commands -/

/-- GEOADD goes on to its key: every position is in the range. -/
def PositionsValid [Externals D] (req : RespRequest) : Prop :=
  4 ≤ req.argc ∧ ∃ args, geoScores (D := D) (geoTriples (req.args.drop 1)) = .ok args

theorem obeysAt_handleGeoadd [Externals D]
    (typed : F .typeConfusion ∨ (PositionsValid (D := D) req → KeyHolds w req .zset))
    (writes : PositionsValid (D := D) req → WritesKey R req) :
    ObeysAt R F (handleGeoadd req clientFd) w := by
  unfold handleGeoadd
  split
  · exact obeys_pure ambient () w
  · refine obeysAt_arg ambient (.inr (by omega)) fun key isKey => ?_
    cases scores : geoScores (D := D) (geoTriples (req.args.drop 1)) with
    | error invalidGeoMsg => exact obeys_sendText ambient _ _ _ w
    | ok args =>
      have valid : PositionsValid (D := D) req := ⟨by omega, args, scores⟩
      -- the ZADD request has the same key
      have sameKey : ∀ key', (zaddRequest (key :: args)).args[0]? = some key' →
          req.args[0]? = some key' := by
        intro key' isFirst
        simp only [zaddRequest, List.getElem?_cons_zero, Option.some.injEq] at isFirst
        exact isFirst ▸ isKey
      refine obeysAt_handleZadd ambient ?_ fun _ key' isFirst => writes valid key' (sameKey _ isFirst)
      exact typed.imp_right fun holds _ key' isFirst => holds valid key' (sameKey _ isFirst)

theorem obeys_sendPositions (size : Nat) (text : Bytes → Bytes) :
    Obeys R F (sendPositions size req clientFd text : M D Unit) :=
  obeys_seq ambient (obeys_appendAll ambient _ _ _) fun _ => obeys_sendPrefix ambient _ _ _

theorem obeysAt_handleGeopos [Externals D]
    (typed : F .typeConfusion ∨ (2 ≤ req.argc → KeyHolds w req .zset)) :
    ObeysAt R F (handleGeopos req clientFd) w := by
  unfold handleGeopos
  split
  · exact obeys_pure ambient () w
  · refine obeysAt_arg ambient (.inr (by omega)) fun key isKey => ?_
    have holds := typed.imp_right fun holds => holds (by omega) key isKey
    exact obeysAt_withPayload ambient asZSet_casts holds (obeys_sendPositions ambient _ _)
      fun sortedSet => obeys_sendPositions ambient _ _

theorem obeysAt_handleGeodist [Externals D]
    (typed : F .typeConfusion ∨ (3 ≤ req.argc → KeyHolds w req .zset)) :
    ObeysAt R F (handleGeodist req clientFd) w := by
  unfold handleGeodist
  split
  · exact obeys_pure ambient () w
  · refine obeysAt_arg ambient (.inr (by omega)) fun key isKey => ?_
    have holds := typed.imp_right fun holds => holds (by omega) key isKey
    refine obeysAt_withPayload ambient asZSet_casts holds (obeys_send ambient _ _)
      fun sortedSet => ?_
    refine obeys_seq ambient (obeys_arg ambient (.inr (by omega))) fun first => ?_
    refine obeys_seq ambient (obeys_arg ambient (.inr (by omega))) fun second => ?_
    dsimp only
    split
    · exact obeys_sendText ambient _ _ _
    · exact obeys_send ambient _ _

theorem obeys_selectMembers [Externals D] (score wantedRange : D) (remaining : Nat)
    (entries : List (ZSetEntry D)) (buffer : Buffer) (membersCount : Nat) :
    Obeys R F (selectMembers score wantedRange remaining entries buffer membersCount :
      M D (Buffer × Nat)) := by
  induction remaining generalizing entries buffer membersCount with
  | zero => exact obeys_pure ambient _
  | succ remaining inductionHypothesis =>
    cases entries with
    | nil => exact obeys_fault ambient (by decide) (by decide)
    | cons entry entries =>
      refine Obeys.ite (fun _ => ?_) fun _ => inductionHypothesis _ _ _
      refine obeys_seq ambient (obeys_print ambient _ _ _) fun printed => ?_
      exact Obeys.ite (fun _ => inductionHypothesis _ _ _) fun _ => obeys_pure ambient _

/-- GEOSEARCH creates its key. -/
def CreatesSet (w : World D) (req : RespRequest) : Prop :=
  7 ≤ req.argc ∧ ∃ key, req.args[0]? = some key ∧ lookup w.table key = .ok none

theorem obeysAt_handleGeosearch [Externals D]
    (typed : F .typeConfusion ∨ (7 ≤ req.argc → KeyHolds w req .zset))
    (writes : CreatesSet w req → WritesKey R req) :
    ObeysAt R F (handleGeosearch req clientFd) w := by
  unfold handleGeosearch
  split
  · exact obeys_pure ambient () w
  · refine obeysAt_arg ambient (.inr (by omega)) fun key isKey => ?_
    have holds := typed.imp_right fun holds => holds (by omega) key isKey
    have mayWrite (absent : lookup w.table key = .ok none) : MayWrite R key :=
      writes ⟨by omega, key, isKey, absent⟩ key isKey
    refine obeysAt_seq ambient (obeysAt_openZSet ambient holds mayWrite) fun sortedSet => ?_
    refine obeys_seq ambient (obeys_arg ambient (.inr (by omega))) fun unit => ?_
    refine obeys_seq ambient (obeys_arg ambient (.inr (by omega))) fun range => ?_
    refine obeys_seq ambient (obeys_arg ambient (.inr (by omega))) fun longtitude => ?_
    refine obeys_seq ambient (obeys_arg ambient (.inr (by omega))) fun latitude => ?_
    refine obeys_seq ambient (obeys_selectMembers ambient _ _ _ _ _ _) fun selected => ?_
    exact Obeys.ite (fun _ => obeys_sendText ambient _ _ _) fun _ => obeys_send ambient _ _

/-! ## Channels -/

theorem obeys_alreadySubed (channel : Bytes) (subed : List (Option Bytes)) :
    Obeys R F (alreadySubed channel subed : M D Bool) := by
  induction subed with
  | nil => exact obeys_pure ambient false
  | cons slot rest inductionHypothesis =>
    cases slot with
    | none => exact obeys_fault ambient (by decide) (by decide)
    | some other => exact Obeys.ite (fun _ => obeys_pure ambient true) fun _ => inductionHypothesis

theorem obeys_subscribeAll (channels : List Bytes) (msg : Buffer) :
    Obeys R F (subscribeAll ptr channels msg : M D Buffer) := by
  induction channels generalizing msg with
  | nil => exact obeys_pure ambient msg
  | cons channel channels inductionHypothesis =>
    refine obeys_seq ambient (obeys_loadClient ambient ptr) fun client => ?_
    refine Obeys.ite (fun _ => obeys_pure ambient msg) fun _ => ?_
    refine obeys_seq ambient (obeys_alreadySubed ambient _ _) fun already => ?_
    refine obeys_seq ambient (Obeys.onlyIf ambient.composes fun _ => ?_) fun _ => ?_
    · refine obeys_updateClient ambient ?_ ptr
      exact fun _ => ⟨rfl, rfl⟩
    · refine obeys_seq ambient (obeys_print ambient _ _ _) fun printed => ?_
      exact Obeys.ite (fun _ => inductionHypothesis _) fun _ => obeys_pure ambient printed

theorem obeys_handleSubscribe : Obeys R F (handleSubscribe req ptr : M D Unit) := by
  refine obeys_seq ambient (obeys_updateClient ambient ?_ ptr) fun _ => ?_
  · exact fun _ => ⟨rfl, rfl⟩
  · refine obeys_seq ambient (obeys_subscribeAll ambient _ _) fun msg => ?_
    refine obeys_seq ambient (obeys_loadClient ambient ptr) fun client => ?_
    exact obeys_sendPrefix ambient _ _ _

theorem obeys_publishTo (fd : Int) (channel message : Bytes) (subed : List (Option Bytes)) :
    Obeys R F (publishTo fd channel message subed : M D Nat) := by
  induction subed with
  | nil => exact obeys_pure ambient 0
  | cons slot rest inductionHypothesis =>
    cases slot with
    | none => exact obeys_fault ambient (by decide) (by decide)
    | some other =>
      refine Obeys.ite (fun _ => ?_) fun _ => inductionHypothesis
      refine obeys_seq ambient (obeys_sendText ambient _ _ _) fun _ => ?_
      exact obeys_seq ambient inductionHypothesis fun others => obeys_pure ambient _

theorem obeys_publishAll (channel message : Bytes) (slots : List ClientSlot) (clientsSubed : Nat) :
    Obeys R F (publishAll channel message slots clientsSubed : M D Nat) := by
  induction slots generalizing clientsSubed with
  | nil => exact obeys_pure ambient clientsSubed
  | cons slot slots inductionHypothesis =>
    refine obeys_seq ambient (obeys_clientAt ambient slot) fun occupant => ?_
    cases occupant with
    | none => exact inductionHypothesis _
    | some occupant =>
      exact obeys_seq ambient (obeys_publishTo ambient _ _ _ _) fun _ => inductionHypothesis _

theorem obeys_handlePublish : Obeys R F (handlePublish req clientFd : M D Unit) := by
  refine Obeys.ite (fun _ => obeys_pure ambient ()) fun _ => ?_
  refine obeys_seq ambient (obeys_arg ambient (.inr (by omega))) fun channel => ?_
  refine obeys_seq ambient (obeys_arg ambient (.inr (by omega))) fun message => ?_
  exact obeys_seq ambient (obeys_publishAll ambient _ _ _ _) fun _ => obeys_sendText ambient _ _ _

theorem obeys_unsubscribeFrom (channel : Bytes) (fuel i : Nat) :
    Obeys R F (unsubscribeFrom ptr channel fuel i : M D Unit) := by
  induction fuel generalizing i with
  | zero => exact obeys_pure ambient ()
  | succ fuel inductionHypothesis =>
    refine obeys_seq ambient (obeys_loadClient ambient ptr) fun client => ?_
    refine Obeys.ite (fun _ => ?_) fun _ => obeys_pure ambient ()
    split
    · refine obeys_seq ambient (Obeys.onlyIf ambient.composes fun _ => ?_)
        fun _ => inductionHypothesis _
      refine obeys_updateClient ambient ?_ ptr
      exact fun _ => ⟨rfl, rfl⟩
    · exact obeys_fault ambient (by decide) (by decide)

theorem obeys_handleUnsubscribe : Obeys R F (handleUnsubscribe req ptr : M D Unit) := by
  refine Obeys.ite (fun _ => obeys_pure ambient ()) fun _ => ?_
  refine obeys_seq ambient (obeys_arg ambient (.inr (by omega))) fun channel => ?_
  refine obeys_seq ambient (obeys_unsubscribeFrom ambient _ _ _) fun _ => ?_
  exact obeys_seq ambient (obeys_loadClient ambient ptr) fun client => obeys_sendText ambient _ _ _

/-! ## Users -/

theorem obeys_handleGetuser (enough : F .missingArg ∨ 2 ≤ req.argc) :
    Obeys R F (handleGetuser req ptr : M D Unit) := by
  refine obeys_seq ambient (obeys_arg ambient (enough.imp_right fun _ => by omega)) fun user => ?_
  refine obeys_seq ambient (obeys_loadClient ambient ptr) fun client => ?_
  refine Obeys.ite (fun _ => ?_) fun _ => obeys_send ambient _ _
  refine obeys_seq ambient (obeys_observe ambient _) fun nopass => ?_
  refine Obeys.ite (fun _ => obeys_send ambient _ _) fun _ => ?_
  exact obeys_seq ambient (obeys_observe ambient _) fun password => obeys_sendText ambient _ _ _

theorem obeys_handleSetuser [Externals D] : Obeys R F (handleSetuser req ptr : M D Unit) := by
  refine obeys_seq ambient (obeys_loadClient ambient ptr) fun client => ?_
  refine Obeys.ite (fun _ => obeys_send ambient _ _) fun _ => ?_
  refine obeys_seq ambient (obeys_arg ambient (.inr (by omega))) fun rule => ?_
  refine Obeys.ite (fun _ => obeys_send ambient _ _) fun _ => ?_
  refine obeys_seq ambient (Obeys.alter fun w => ambient.authorize w _ _) fun _ => ?_
  refine obeys_seq ambient (obeys_arg ambient (.inr (by omega))) fun user => ?_
  refine Obeys.ite (fun _ => ?_) fun _ => obeys_pure ambient ()
  refine obeys_seq ambient (Obeys.alter fun w => ambient.authorize w _ _) fun _ => ?_
  exact obeys_send ambient _ _

/-- The arguments that ACL reads. -/
def AclSupplied (req : RespRequest) : Prop :=
  1 ≤ req.argc ∧
    ((req.args.head?.map CString.upper) = some (CString.lit "GETUSER") → 2 ≤ req.argc)

theorem obeysAt_handleAcl [Externals D] (enough : F .missingArg ∨ AclSupplied req) :
    ObeysAt R F (handleAcl req ptr) w := by
  unfold handleAcl
  refine obeysAt_arg ambient (enough.imp_right fun supplied => by have := supplied.1; omega)
    fun subCmd isSubCmd => ?_
  refine obeys_seq ambient (obeys_loadClient ambient ptr) (fun client => ?_) w
  refine Obeys.ite (fun _ => ?_) fun _ => Obeys.ite (fun isGetuser => ?_) fun _ =>
    Obeys.ite (fun _ => ?_) fun _ => obeys_pure ambient ()
  · refine obeys_seq ambient (obeys_observe ambient _) fun nopass => ?_
    exact Obeys.ite (fun _ => obeys_send ambient _ _) fun _ => obeys_send ambient _ _
  · refine obeys_handleGetuser ambient (enough.imp_right fun supplied => supplied.2 ?_)
    rw [List.head?_eq_getElem?, isSubCmd, Option.map_some, isGetuser]
  · refine obeys_seq ambient (obeys_handleSetuser ambient) fun _ => ?_
    refine obeys_updateClient ambient ?_ ptr
    exact fun _ => ⟨rfl, rfl⟩

theorem obeys_handleAuth [Externals D] : Obeys R F (handleAuth req ptr : M D Unit) := by
  refine Obeys.ite (fun _ => obeys_pure ambient ()) fun _ => ?_
  refine obeys_seq ambient (obeys_arg ambient (.inr (by omega))) fun input => ?_
  refine obeys_seq ambient (obeys_observe ambient _) fun password => ?_
  refine obeys_seq ambient (obeys_loadClient ambient ptr) fun client => ?_
  refine Obeys.ite (fun _ => ?_) fun _ => obeys_send ambient _ _
  refine obeys_seq ambient (obeys_updateClient ambient ?_ ptr) fun _ => obeys_send ambient _ _
  exact fun _ => ⟨rfl, rfl⟩

/-! ## Information and replication -/

theorem obeys_handlePing (client : Client) : Obeys R F (handlePing client : M D Unit) := by
  refine Obeys.ite (fun _ => obeys_send ambient _ _) fun _ => ?_
  exact Obeys.ite (fun _ => obeys_send ambient _ _) fun _ => obeys_pure ambient ()

theorem obeys_handleInfo : Obeys R F (handleInfo req clientFd : M D Unit) := by
  refine Obeys.ite (fun _ => obeys_pure ambient ()) fun _ => ?_
  refine obeys_seq ambient (obeys_arg ambient (.inr (by omega))) fun part => ?_
  refine Obeys.ite (fun _ => ?_) fun _ => obeys_pure ambient ()
  exact obeys_seq ambient (obeys_config ambient) fun server => obeys_sendText ambient _ _ _

theorem obeys_replconfHandleAck : Obeys R F (replconfHandleAck req ptr : M D Unit) := by
  refine Obeys.ite (fun _ => obeys_pure ambient ()) fun _ => ?_
  refine obeys_seq ambient (obeys_arg ambient (.inr (by omega))) fun offset => ?_
  refine obeys_updateClient ambient ?_ ptr
  exact fun _ => ⟨rfl, rfl⟩

theorem obeys_handleReplconfRequest (client : Client)
    (enough : F .missingArg ∨ req.unused = .null ∨ 1 ≤ req.argc) :
    Obeys R F (handleReplconfRequest req ptr client : M D Unit) := by
  refine obeys_seq ambient (obeys_printArg ambient ?_) fun _ => ?_
  · exact enough.imp_right fun supplied => supplied.imp_right fun _ => by omega
  · refine Obeys.ite (fun _ => obeys_send ambient _ _) fun _ => ?_
    refine obeys_seq ambient (obeys_arg ambient (.inr (by omega))) fun subCmd => ?_
    refine Obeys.ite (fun _ => ?_) fun _ => Obeys.ite (fun _ => obeys_replconfHandleAck ambient)
      fun _ => obeys_send ambient _ _
    exact obeys_seq ambient (obeys_config ambient) fun server => obeys_send ambient _ _

theorem obeys_countReplicas (slots : List ClientSlot) (count : Nat) :
    Obeys R F (countReplicas slots count : M D Nat) := by
  induction slots generalizing count with
  | nil => exact obeys_pure ambient count
  | cons slot slots inductionHypothesis =>
    refine obeys_seq ambient (obeys_clientAt ambient slot) fun occupant => ?_
    cases occupant with
    | none => exact inductionHypothesis count
    | some occupant =>
      refine obeys_seq ambient (obeys_config ambient) fun server => ?_
      exact Obeys.ite (fun _ => inductionHypothesis _) fun _ => inductionHypothesis _

theorem obeys_askReplica (slot : ClientSlot) : Obeys R F (askReplica slot : M D Unit) := by
  refine obeys_seq ambient (obeys_clientAt ambient slot) fun occupant => ?_
  cases occupant with
  | none => exact obeys_pure ambient ()
  | some occupant => exact Obeys.ite (fun _ => obeys_send ambient _ _) fun _ => obeys_pure ambient ()

theorem obeys_timeoutAfter (ms : Int) : Obeys R F (timeoutAfter ms : M D Int) := by
  refine Obeys.ite (fun _ => obeys_pure ambient 0) fun _ => ?_
  refine obeys_seq ambient (obeys_getCurrentTimeMs ambient) fun now => ?_
  exact Obeys.ite (fun _ => obeys_fault ambient (by decide) (by decide)) fun _ => obeys_pure ambient _

theorem obeys_markWaiting (mayBlock : MayBlock R) (ms : Int) (slots : List ClientSlot) :
    Obeys R F (markWaiting clientFd ms slots : M D Unit) := by
  induction slots with
  | nil => exact obeys_pure ambient ()
  | cons slot slots inductionHypothesis =>
    refine obeys_seq ambient (obeys_clientAt ambient slot) fun occupant => ?_
    cases occupant with
    | none => exact inductionHypothesis
    | some occupant =>
      refine Obeys.ite (fun _ => ?_) fun _ => inductionHypothesis
      refine obeys_seq ambient (obeys_timeoutAfter ambient ms) fun timeoutAt => ?_
      refine obeys_blockClient ambient mayBlock ?_ occupant.1
      exact fun _ => rfl

theorem obeys_handleWait (mayBlock : MayBlock R) (enough : F .missingArg ∨ 2 ≤ req.argc) :
    Obeys R F (handleWait req clientFd : M D Unit) := by
  refine obeys_seq ambient (obeys_setConfig mayBlock fun _ => rfl) fun _ => ?_
  refine obeys_seq ambient (obeys_arg ambient (enough.imp_right fun _ => by omega)) fun wanted => ?_
  refine obeys_seq ambient (obeys_arg ambient (enough.imp_right fun _ => by omega)) fun ms => ?_
  refine obeys_seq ambient (obeys_setConfig mayBlock fun _ => rfl) fun _ => ?_
  refine obeys_seq ambient (obeys_countReplicas ambient _ _) fun count => ?_
  refine Obeys.ite (fun _ => obeys_send ambient _ _) fun _ => ?_
  refine obeys_seq ambient (obeys_setConfig mayBlock fun _ => rfl) fun _ => ?_
  refine obeys_seq ambient (obeys_forM ambient _ fun slot _ => obeys_askReplica ambient slot)
    fun _ => ?_
  exact obeys_markWaiting ambient mayBlock _ _

theorem obeys_handlePsyncRequest : Obeys R F (handlePsyncRequest ptr clientFd : M D Unit) := by
  refine obeys_seq ambient (obeys_config ambient) fun server => ?_
  refine obeys_seq ambient (obeys_sendText ambient _ _ _) fun _ => ?_
  refine obeys_seq ambient (obeys_send ambient _ _) fun _ => ?_
  refine obeys_seq ambient (obeys_send ambient _ _) fun _ => ?_
  refine obeys_updateClient ambient ?_ ptr
  exact fun _ => ⟨rfl, rfl⟩

theorem obeys_handleConfig (enough : F .missingArg ∨ (req.argc ≤ 2 → 1 ≤ req.argc)) :
    Obeys R F (handleConfig req clientFd : M D Unit) := by
  refine Obeys.ite (fun _ => obeys_pure ambient ()) fun notTooMany => ?_
  refine obeys_seq ambient (obeys_arg ambient (enough.imp_right fun _ => by omega))
    fun parameter => ?_
  refine obeys_seq ambient (obeys_config ambient) fun server => ?_
  split
  · exact obeys_pure ambient ()
  · exact obeys_sendText ambient _ _ _

theorem obeys_keysOf (buckets : List Bucket) : Obeys R F (keysOf buckets : M D (List Bytes)) := by
  induction buckets with
  | nil => exact obeys_pure ambient []
  | cons bucket buckets inductionHypothesis =>
    refine obeys_seq ambient (obeys_observe ambient _) fun table => ?_
    refine Obeys.ite (fun _ => obeys_fault ambient (by decide) (by decide)) fun _ => ?_
    exact obeys_seq ambient inductionHypothesis fun keys => obeys_pure ambient _

theorem obeys_handleKey : Obeys R F (handleKey clientFd : M D Unit) := by
  refine obeys_seq ambient (obeys_keysOf ambient _) fun keys => ?_
  exact obeys_seq ambient (obeys_appendAll ambient _ _ _) fun _ => obeys_sendPrefix ambient _ _ _

end RedisClone
