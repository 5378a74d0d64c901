import RedisClone.Verified.Elsewhere

/-! # What was sent is not observed

`SameButSent`: two states that differ only in what was sent before and in the log of executed commands.  No handler
reads either, so that every arm of `handle` ends alike from two such states: `lockstep_arm`.  The instances are in the
order of the definitions that they are about; a handler needs a proof only where it takes cases on a result.
-/

namespace RedisClone

open Exec

variable {D : Type}

/-- The states differ only in what was sent before, and in the log of the executed commands. -/
structure SameButSent (before before' : List (Int × Bytes)) (w w' : World D) : Prop where
  keeps : w' = { w with sent := w'.sent, executed := w'.executed }
  sent : ∃ replies, w.sent = before ++ replies ∧ w'.sent = before' ++ replies

variable {before before' : List (Int × Bytes)}

theorem SameButSent.exists {w w' : World D} (same : SameButSent before before' w w') : ∃ replies executed,
    w.sent = before ++ replies ∧ w' = { w with sent := before' ++ replies, executed } := by
  obtain ⟨replies, sent, sent'⟩ := same.sent
  exact ⟨replies, w'.executed, sent, by rw [same.keeps, sent']⟩

/-! ## The parts of the state -/

/-- What is read of a state besides these two. -/
theorem sameView_of {α : Type} {f : World D → α} (ignores : ∀ w sent executed, f { w with sent, executed } = f w) :
    SameView (SameButSent before before') f where
  same w w' same := by
    obtain ⟨replies, executed, _, rfl⟩ := same.exists
    exact (ignores w _ _).symm

/-- A change to a state besides these two. -/
theorem parallel_of {g : World D → World D} (sent : ∀ w, (g w).sent = w.sent)
    (ignores : ∀ w sent executed, g { w with sent, executed } = { g w with sent, executed }) :
    Parallel (SameButSent before before') g where
  keeps w w' same := by
    obtain ⟨replies, executed, isSent, rfl⟩ := same.exists
    rw [ignores w (before' ++ replies) executed]
    exact ⟨rfl, replies, (sent w).trans isSent, rfl⟩

instance sameElsewhere_sent : SameElsewhere (SameButSent (D := D) before before') where
  keeps w w' same := by
    obtain ⟨replies, executed, _, rfl⟩ := same.exists
    rfl
  changes g leaves ignores := by
    refine (parallel_of (fun w => (leaves w).2.1) fun w sent executed => ?_).keeps
    exact (ignores w w.table sent executed).trans (by simp only [(leaves w).1])
  emits fd bytes w w' same := by
    obtain ⟨replies, executed, sent, rfl⟩ := same.exists
    exact ⟨rfl, replies ++ [(fd, bytes)], by simp [World.emit, sent], by simp [World.emit]⟩

instance sameView_table : SameView (SameButSent before before') (@World.table D) :=
  sameView_of fun _ _ _ => rfl

/-! ## The table -/

section Table

instance lockstep_storeGetEntry (key : Bytes) :
    Lockstep (SameButSent before before') (storeGetEntry key : M D (Option (Entry D))) := by
  unfold storeGetEntry
  refine .bind inferInstance fun bucket => .bind inferInstance fun table => ?_
  split
  · infer_instance
  · exact lockstep_fault _

instance lockstep_changeBucket (bucket : Bucket) (f : Chain Bytes (Entry D) → Chain Bytes (Entry D)) :
    Lockstep (SameButSent before before') (changeBucket bucket f) := by
  have : Parallel (SameButSent before before') fun w : World D => w.setBucket bucket (f (w.table bucket)) :=
    parallel_of (fun _ => rfl) fun _ _ _ => rfl
  unfold changeBucket
  infer_instance

instance lockstep_updateEntry (key : Bytes) (value : Value D) :
    Lockstep (SameButSent before before') (updateEntry key value) := by
  unfold updateEntry
  infer_instance

instance lockstep_takeNode (chain : Chain Bytes (Entry D)) :
    Lockstep (SameButSent before before') (takeNode chain : M D Bool) := by
  unfold takeNode
  infer_instance

instance lockstep_storeSetContainer (key : Bytes) (value : Value D) :
    Lockstep (SameButSent before before') (storeSetContainer key value) := by
  unfold storeSetContainer
  infer_instance

instance lockstep_expiryOf (flag : TimeFlags) (seconds : Int) :
    Lockstep (SameButSent before before') (expiryOf flag seconds : M D Int) := by
  cases flag <;> (unfold expiryOf; infer_instance)

instance lockstep_storeSet (key : Bytes) (value : Value D) (flag : TimeFlags) (seconds : Int) :
    Lockstep (SameButSent before before') (storeSet key value flag seconds) := by
  unfold storeSet
  refine .bind inferInstance fun bucket => .bind inferInstance fun existing => ?_
  cases existing with
  | none => exact lockstep_bind
  | some entry => exact lockstep_bind

instance lockstep_storeGet (key : Bytes) :
    Lockstep (SameButSent before before') (storeGet key : M D (Option (Value D))) := by
  unfold storeGet
  refine .bind inferInstance fun entry => ?_
  cases entry with
  | none => exact lockstep_pure none
  | some entry => exact lockstep_ite

instance lockstep_asString (value : Value D) :
    Lockstep (SameButSent before before') (asString value : M D Bytes) := by
  cases value <;> first | exact lockstep_pure _ | exact lockstep_fault _

instance lockstep_asList (value : Value D) :
    Lockstep (SameButSent before before') (asList value : M D (List Bytes)) := by
  cases value <;> first | exact lockstep_pure _ | exact lockstep_fault _

instance lockstep_asStream (value : Value D) :
    Lockstep (SameButSent before before') (asStream value : M D Stream) := by
  cases value <;> first | exact lockstep_pure _ | exact lockstep_fault _

instance lockstep_asZSet (value : Value D) :
    Lockstep (SameButSent before before') (asZSet value : M D (ZSet D)) := by
  cases value <;> first | exact lockstep_pure _ | exact lockstep_fault _

instance lockstep_withPayload {α β : Type} (key : Bytes) (cast : Value D → M D α) (missing : M D β)
    (found : α → M D β) [casts : ∀ value, Lockstep (SameButSent before before') (cast value)]
    [whenMissing : Lockstep (SameButSent before before') missing]
    [whenFound : ∀ payload, Lockstep (SameButSent before before') (found payload)] :
    Lockstep (SameButSent before before') (withPayload key cast missing found) := by
  unfold withPayload
  refine .bind inferInstance fun entry => ?_
  cases entry with
  | none => exact whenMissing
  | some entry => exact lockstep_bind

/-- A reader of a payload that takes cases on it. -/
theorem lockstep_payload {α β : Type} {key : Bytes} {cast : Value D → M D α} {missing : M D β}
    {found : α → M D β} (casts : ∀ value, Lockstep (SameButSent before before') (cast value))
    (whenMissing : Lockstep (SameButSent before before') missing)
    (whenFound : ∀ payload, Lockstep (SameButSent before before') (found payload)) :
    Lockstep (SameButSent before before') (withPayload key cast missing found) :=
  lockstep_withPayload key cast missing found

end Table

/-! ## The stream readers -/

section Streams

instance lockstep_lastStreamEntry (key : Bytes) :
    Lockstep (SameButSent before before') (lastStreamEntry key : M D (Option StreamEntry)) := by
  unfold lastStreamEntry
  refine .bind inferInstance fun entry => ?_
  split
  · infer_instance
  · exact lockstep_pure none

instance lockstep_scanned (value : Option Int) :
    Lockstep (SameButSent before before') (scanned value : M D Int) := by
  cases value with
  | none => exact lockstep_indeterminateInt
  | some value => exact lockstep_pure value

instance lockstep_scanId (id : Bytes) :
    Lockstep (SameButSent before before') (scanId id : M D (Int × Int)) := by
  unfold scanId
  infer_instance

instance lockstep_isBigger (srcId checkId : Bytes) :
    Lockstep (SameButSent before before') (isBigger srcId checkId : M D Bool) := by
  unfold isBigger
  infer_instance

instance lockstep_selectEntries (size : Nat) (start stop : Int × Int) (isXrange : Bool) (remaining : Nat)
    (entries : List StreamEntry) (buffer : Buffer) (count : Nat) : Lockstep (SameButSent before before')
      (selectEntries size start stop isXrange remaining entries buffer count : M D (Buffer × Nat)) := by
  induction remaining generalizing entries buffer count with
  | zero => exact lockstep_pure _
  | succ remaining inductionHypothesis =>
    cases entries with
    | nil => exact lockstep_fault _
    | cons entry entries =>
      unfold selectEntries
      infer_instance

instance lockstep_idOf (entry : Option StreamEntry) :
    Lockstep (SameButSent before before') (idOf entry : M D Bytes) := by
  cases entry with
  | none => exact lockstep_fault _
  | some entry => exact lockstep_pure entry.id

instance lockstep_scanBound (text wildcard : Bytes) (ending : Option StreamEntry) :
    Lockstep (SameButSent before before') (scanBound text wildcard ending : M D (Int × Int)) := by
  unfold scanBound
  infer_instance

instance lockstep_entriesPrinted (bufSize : Nat) (entriesToPrint : Buffer) (count : Nat) :
    Lockstep (SameButSent before before') (entriesPrinted bufSize entriesToPrint count : M D Bytes) := by
  unfold entriesPrinted
  infer_instance

instance lockstep_rangeSize (length : Nat) : Lockstep (SameButSent before before') (rangeSize length : M D Nat) := by
  unfold rangeSize fault
  infer_instance

instance lockstep_streamEntryToString (idStart idEnd : M D Bytes) (key : Bytes)
    [Lockstep (SameButSent before before') idStart] [Lockstep (SameButSent before before') idEnd] :
    Lockstep (SameButSent before before') (streamEntryToString idStart idEnd key) := by
  unfold streamEntryToString
  refine .bind inferInstance fun entry => ?_
  split
  · exact lockstep_bind
  · exact lockstep_pure _

instance lockstep_xreadBounds (startText idEnd : Bytes) (stream : Stream) : Lockstep (SameButSent before before')
    (xreadBounds startText idEnd stream : M D ((Int × Int) × Int × Int)) := by
  unfold xreadBounds
  infer_instance

instance lockstep_streamEntryXreadToString (idStart : M D Bytes) (idEnd : Bytes) (key : Bytes)
    [Lockstep (SameButSent before before') idStart] :
    Lockstep (SameButSent before before') (streamEntryXreadToString idStart idEnd key) := by
  unfold streamEntryXreadToString
  refine .bind inferInstance fun block => .bind inferInstance fun entry => ?_
  split
  · exact lockstep_bind
  · exact lockstep_pure _

instance lockstep_xreadBlobs (pairs : List (Bytes × Bytes)) :
    Lockstep (SameButSent before before') (xreadBlobs pairs : M D (Option (List (Bytes × Bytes × Nat)))) := by
  induction pairs with
  | nil => exact lockstep_pure _
  | cons pair pairs inductionHypothesis =>
    unfold xreadBlobs
    refine .bind inferInstance fun delivery => ?_
    split
    · exact lockstep_pure none
    · refine .bind inductionHypothesis fun blobs => ?_
      cases blobs with
      | none => exact lockstep_pure none
      | some blobs => exact lockstep_pure _

instance lockstep_streamEntryXreadMulToString (pairs : List (Bytes × Bytes)) :
    Lockstep (SameButSent before before') (streamEntryXreadMulToString pairs : M D (Option Bytes)) := by
  unfold streamEntryXreadMulToString
  refine .bind inferInstance fun blobs => ?_
  cases blobs with
  | none => exact lockstep_pure none
  | some blobs => exact lockstep_bind

end Streams

/-! ## Lists -/

section Lists

variable {req : RespRequest}

instance lockstep_openList (key : Bytes) :
    Lockstep (SameButSent before before') (openList key : M D (List Bytes)) := by
  unfold openList storeSetList
  infer_instance

instance lockstep_longestWaiter (key : Bytes) (slots : List ClientSlot) (longest : Option ClientPtr) (time : Int) :
    Lockstep (SameButSent before before') (longestWaiter key slots longest time : M D (Option ClientPtr)) := by
  induction slots generalizing longest time with
  | nil => exact lockstep_pure longest
  | cons slot slots inductionHypothesis =>
    unfold longestWaiter
    refine .bind inferInstance fun occupant => ?_
    cases occupant with
    | none => exact inductionHypothesis _ _
    | some occupant => exact lockstep_ite

instance lockstep_serveWaiter (key : Bytes) (values : List Bytes) (ptr : ClientPtr) :
    Lockstep (SameButSent before before') (serveWaiter key values ptr : M D Unit) := by
  unfold serveWaiter
  split
  · exact lockstep_fault _
  · infer_instance

instance lockstep_handleRpush (fd : Int) :
    Lockstep (SameButSent before before') (handleRpush req fd : M D Unit) := by
  have serves (key : Bytes) (values : List Bytes) : Lockstep (SameButSent before before') (do
      match ← longestWaiter key clientSlots none 0 with
      | none => pure ()
      | some ptr => serveWaiter key values ptr : M D Unit) := by
    refine .bind inferInstance fun longest => ?_
    cases longest with
    | none => exact lockstep_pure ()
    | some ptr => exact lockstep_serveWaiter key values ptr
  unfold handleRpush
  infer_instance

instance lockstep_handleLpush (fd : Int) :
    Lockstep (SameButSent before before') (handleLpush req fd : M D Unit) := by
  unfold handleLpush
  infer_instance

instance lockstep_lrangeBounds (size first last : Int) :
    Lockstep (SameButSent before before') (lrangeBounds size first last : M D (Int × Int)) := by
  unfold lrangeBounds fault
  infer_instance

instance lockstep_handleLrange (fd : Int) :
    Lockstep (SameButSent before before') (handleLrange req fd : M D Unit) := by
  unfold handleLrange
  split
  · infer_instance
  · refine .bind inferInstance fun key => lockstep_payload inferInstance inferInstance fun values => ?_
    refine .bind inferInstance fun first => .bind inferInstance fun last => .bind inferInstance fun bounds => ?_
    dsimp only
    split
    · infer_instance
    · split
      · split
        · exact lockstep_fault _
        · infer_instance
      · infer_instance

instance lockstep_handleLlen (fd : Int) :
    Lockstep (SameButSent before before') (handleLlen req fd : M D Unit) := by
  unfold handleLlen
  infer_instance

instance lockstep_sendPopped (fd : Int) (popped : List Bytes) :
    Lockstep (SameButSent before before') (sendPopped fd popped : M D Unit) := by
  unfold sendPopped
  infer_instance

instance lockstep_handleLpop (fd : Int) :
    Lockstep (SameButSent before before') (handleLpop req fd : M D Unit) := by
  unfold handleLpop
  split
  · infer_instance
  · refine .bind inferInstance fun key => lockstep_payload inferInstance inferInstance fun values => ?_
    cases values.head? with
    | none => exact lockstep_send fd emptyArray
    | some first => exact lockstep_ite

instance lockstep_blpopDeadline [Externals D] (sec : D) :
    Lockstep (SameButSent before before') (blpopDeadline sec : M D Int) := by
  unfold blpopDeadline
  infer_instance

instance lockstep_handleBlpop [Externals D] (ptr : ClientPtr) :
    Lockstep (SameButSent before before') (handleBlpop req ptr : M D Unit) := by
  unfold handleBlpop
  split
  · infer_instance
  · refine .bind inferInstance fun key => .bind inferInstance fun values => ?_
    cases values.head? with
    | none => exact lockstep_bind
    | some first => exact lockstep_bind

end Lists

/-! ## Sorted sets -/

section SortedSets

variable {req : RespRequest} [Externals D]

omit [Externals D] in
instance lockstep_openZSet (key : Bytes) :
    Lockstep (SameButSent before before') (openZSet key : M D (ZSet D)) := by
  unfold openZSet storeSetZset
  infer_instance

instance lockstep_handleZadd (fd : Int) :
    Lockstep (SameButSent before before') (handleZadd req fd : M D Unit) := by
  unfold handleZadd
  infer_instance

instance lockstep_handleZrank (fd : Int) :
    Lockstep (SameButSent before before') (handleZrank req fd : M D Unit) := by
  unfold handleZrank
  split
  · infer_instance
  · refine .bind inferInstance fun key => lockstep_payload inferInstance inferInstance fun sortedSet => ?_
    refine .bind inferInstance fun member => ?_
    split
    · infer_instance
    · exact lockstep_send fd nilReply

omit [Externals D] in
instance lockstep_appendMembers (size remaining : Nat) (entries : List (ZSetEntry D)) (buffer : Buffer) :
    Lockstep (SameButSent before before') (appendMembers size remaining entries buffer : M D Buffer) := by
  induction remaining generalizing entries buffer with
  | zero => exact lockstep_pure buffer
  | succ remaining inductionHypothesis =>
    cases entries with
    | nil => exact lockstep_fault _
    | cons entry entries =>
      unfold appendMembers
      infer_instance

instance lockstep_handleZrange (fd : Int) :
    Lockstep (SameButSent before before') (handleZrange req fd : M D Unit) := by
  unfold handleZrange fault
  infer_instance

instance lockstep_handleZcard (fd : Int) :
    Lockstep (SameButSent before before') (handleZcard req fd : M D Unit) := by
  unfold handleZcard
  infer_instance

instance lockstep_handleZscore (fd : Int) :
    Lockstep (SameButSent before before') (handleZscore req fd : M D Unit) := by
  unfold handleZscore fault
  split
  · infer_instance
  · refine .bind inferInstance fun key => lockstep_payload inferInstance inferInstance fun sortedSet => ?_
    refine .bind inferInstance fun member => ?_
    split
    · infer_instance
    · exact lockstep_ite

instance lockstep_handleZrem (fd : Int) :
    Lockstep (SameButSent before before') (handleZrem req fd : M D Unit) := by
  unfold handleZrem
  infer_instance

instance lockstep_handleGeoadd (fd : Int) :
    Lockstep (SameButSent before before') (handleGeoadd req fd : M D Unit) := by
  unfold handleGeoadd
  split
  · infer_instance
  · refine .bind inferInstance fun key => ?_
    split
    · exact lockstep_sendText 1024 fd _
    · exact lockstep_handleZadd fd

omit [Externals D] in
instance lockstep_sendPositions (size : Nat) (fd : Int) (text : Bytes → Bytes) :
    Lockstep (SameButSent before before') (sendPositions size req fd text : M D Unit) := by
  unfold sendPositions
  infer_instance

instance lockstep_handleGeopos (fd : Int) :
    Lockstep (SameButSent before before') (handleGeopos req fd : M D Unit) := by
  unfold handleGeopos
  infer_instance

instance lockstep_handleGeodist (fd : Int) :
    Lockstep (SameButSent before before') (handleGeodist req fd : M D Unit) := by
  unfold handleGeodist
  split
  · infer_instance
  · refine .bind inferInstance fun key => lockstep_payload inferInstance inferInstance fun sortedSet => ?_
    refine .bind inferInstance fun first => .bind inferInstance fun second => ?_
    dsimp only
    split
    · infer_instance
    · exact lockstep_send fd _

instance lockstep_selectMembers (score wanted : D) (remaining : Nat) (entries : List (ZSetEntry D)) (buffer : Buffer)
    (count : Nat) : Lockstep (SameButSent before before')
      (selectMembers score wanted remaining entries buffer count : M D (Buffer × Nat)) := by
  induction remaining generalizing entries buffer count with
  | zero => exact lockstep_pure _
  | succ remaining inductionHypothesis =>
    cases entries with
    | nil => exact lockstep_fault _
    | cons entry entries =>
      unfold selectMembers
      infer_instance

instance lockstep_handleGeosearch (fd : Int) :
    Lockstep (SameButSent before before') (handleGeosearch req fd : M D Unit) := by
  unfold handleGeosearch
  infer_instance

end SortedSets

/-! ## Channels and credentials -/

section Channels

variable {req : RespRequest}

variable [Externals D]

end Channels

/-! ## Replication and configuration -/

section Utility

variable {req : RespRequest}

instance lockstep_keysOf (buckets : List Bucket) :
    Lockstep (SameButSent before before') (keysOf buckets : M D (List Bytes)) := by
  induction buckets with
  | nil => exact lockstep_pure []
  | cons bucket buckets inductionHypothesis =>
    unfold keysOf fault
    infer_instance

instance lockstep_handleKey (fd : Int) : Lockstep (SameButSent before before') (handleKey fd : M D Unit) := by
  unfold handleKey
  infer_instance

end Utility

/-! ## Strings -/

section Strings

variable {req : RespRequest}

instance lockstep_handleGet (fd : Int) : Lockstep (SameButSent before before') (handleGet req fd : M D Unit) := by
  unfold handleGet
  refine .bind inferInstance fun key => .bind inferInstance fun value => ?_
  cases value with
  | none => exact lockstep_send fd nilReply
  | some value => exact lockstep_bind

instance lockstep_handleType (fd : Int) :
    Lockstep (SameButSent before before') (handleType req fd : M D Unit) := by
  unfold handleType
  refine .bind inferInstance fun key => .bind inferInstance fun entry => ?_
  cases entry with
  | none => exact lockstep_send fd _
  | some entry => exact lockstep_send fd _

instance lockstep_handleIncr (fd : Int) :
    Lockstep (SameButSent before before') (handleIncr req fd : M D Unit) := by
  unfold handleIncr fault
  refine .bind inferInstance fun key => .bind inferInstance fun entry => ?_
  cases entry with
  | none => exact lockstep_bind
  | some entry =>
    dsimp only
    infer_instance

/-! ### XADD -/

instance lockstep_scannedText (text : Option Bytes) :
    Lockstep (SameButSent before before') (scannedText text : M D Bytes) := by
  cases text with
  | none => exact lockstep_bind
  | some text => exact lockstep_pure text

instance lockstep_validateStreamId (id tailId : Bytes) :
    Lockstep (SameButSent before before') (validateStreamId id tailId : M D (Option Bytes)) := by
  unfold validateStreamId
  split
  · infer_instance
  · split
    · infer_instance
    · refine .bind inferInstance fun ms => .bind inferInstance fun seq => ?_
      split
      · infer_instance
      · split
        · infer_instance
        · split
          · infer_instance
          · exact lockstep_pure _

instance lockstep_nextSeq (stream : Stream) :
    Lockstep (SameButSent before before') (nextSeq stream : M D Int) := by
  unfold nextSeq fault
  infer_instance

instance lockstep_generateId (stream : Stream) (id : Bytes) :
    Lockstep (SameButSent before before') (generateId stream id : M D Bytes) := by
  unfold generateId generatedPair
  infer_instance

instance lockstep_tryDeliverStreamData (ptr : ClientPtr) :
    Lockstep (SameButSent before before') (tryDeliverStreamData ptr : M D Unit) := by
  unfold tryDeliverStreamData
  refine .bind inferInstance fun client => ?_
  split
  · refine .bind inferInstance fun delivery => ?_
    dsimp only
    split
    · infer_instance
    · exact lockstep_ite
  · exact lockstep_pure ()

instance lockstep_wakeStreamReader (key : Bytes) (slot : ClientSlot) :
    Lockstep (SameButSent before before') (wakeStreamReader key slot : M D Unit) := by
  unfold wakeStreamReader
  refine .bind inferInstance fun occupant => ?_
  cases occupant with
  | none => exact lockstep_pure ()
  | some occupant => exact lockstep_ite

instance lockstep_appendEntry (key : Bytes) (stream : Stream) (entry : StreamEntry) (ms seq : Int) :
    Lockstep (SameButSent before before') (appendEntry key stream entry ms seq : M D Unit) := by
  unfold appendEntry storeOpened storeSetStream fault
  infer_instance

instance lockstep_sendEntryId (fd : Int) (id : Bytes) :
    Lockstep (SameButSent before before') (sendEntryId fd id : M D Unit) := by
  unfold sendEntryId
  infer_instance

instance lockstep_checkStreamId (id : Bytes) (tail : Option StreamEntry) :
    Lockstep (SameButSent before before') (checkStreamId id tail : M D (Option Bytes)) := by
  cases tail with
  | none => exact lockstep_pure none
  | some tail => exact lockstep_validateStreamId id tail.id

instance lockstep_chooseId (stream : Stream) (id : Bytes) :
    Lockstep (SameButSent before before') (chooseId stream id : M D Bytes) := by
  unfold chooseId
  infer_instance

instance lockstep_handleSetStream (fd : Int) :
    Lockstep (SameButSent before before') (handleSetStream req fd : M D Unit) := by
  unfold handleSetStream
  refine .bind inferInstance fun key => .bind inferInstance fun stream => .bind inferInstance fun id => ?_
  refine .bind inferInstance fun refused => ?_
  cases refused with
  | none => exact lockstep_bind
  | some errorResp => exact lockstep_sendUnlessMaster fd errorResp

instance lockstep_handleSet (type : RedisType) (fd : Int) :
    Lockstep (SameButSent before before') (handleSet req type fd : M D Unit) := by
  unfold handleSet
  split
  · infer_instance
  · cases type <;> infer_instance

/-! ### XREAD -/

instance lockstep_findStreams (index : Nat) (words : List Bytes) :
    Lockstep (SameButSent before before') (findStreams index words : M D Nat) := by
  induction words generalizing index with
  | nil => exact lockstep_fault _
  | cons word words inductionHypothesis =>
    unfold findStreams
    infer_instance

instance lockstep_hasBlockFrom (i : Nat) (words : List Bytes) :
    Lockstep (SameButSent before before') (hasBlockFrom i words : M D (Option Nat)) := by
  induction words generalizing i with
  | nil => exact lockstep_pure none
  | cons word words inductionHypothesis =>
    unfold hasBlockFrom
    infer_instance

instance lockstep_handleBlockDollar :
    Lockstep (SameButSent before before') (handleBlockDollar req : M D (Option Bytes × Nat × Bytes)) := by
  unfold handleBlockDollar
  split
  · refine .bind inferInstance fun key => .bind inferInstance fun entry => ?_
    cases entry with
    | none => exact lockstep_bind
    | some entry => exact lockstep_bind
  · infer_instance

instance lockstep_handleMultipleXread (streamIndex streamsLength : Nat) :
    Lockstep (SameButSent before before') (handleMultipleXread req streamIndex streamsLength : M D (Option Bytes)) := by
  unfold handleMultipleXread copyToArrays fault
  infer_instance

instance lockstep_handleSingleXread (ptr : ClientPtr) :
    Lockstep (SameButSent before before') (handleSingleXread req ptr : M D (Option Bytes)) := by
  unfold handleSingleXread hasBlock
  refine .bind inferInstance fun block => ?_
  cases block with
  | some blockIndex =>
    refine .bind inferInstance fun _ => .bind inferInstance fun _ => .bind inferInstance fun ms => ?_
    refine .bind inferInstance fun timeoutAt => .bind inferInstance fun _ => .bind inferInstance fun delivery => ?_
    exact lockstep_bind
  | none =>
    refine .bind inferInstance fun _ => .bind inferInstance fun client => .bind inferInstance fun key => ?_
    refine .bind inferInstance fun entry => ?_
    cases entry with
    | none => exact lockstep_bind
    | some entry =>
      refine .bind inferInstance fun delivery => ?_
      dsimp only
      split
      · infer_instance
      · exact lockstep_ite

instance lockstep_buildClient (ptr : ClientPtr) :
    Lockstep (SameButSent before before') (buildClient req ptr : M D Bool) := by
  unfold buildClient hasBlock fault
  refine .bind inferInstance fun block => ?_
  cases block with
  | none => exact lockstep_pure false
  | some blockIndex => exact lockstep_bind

instance lockstep_handleXread (ptr : ClientPtr) :
    Lockstep (SameButSent before before') (handleXread req ptr : M D (Option (Option Bytes))) := by
  unfold handleXread isMultipleKey
  refine .bind inferInstance fun keys => ?_
  split
  · refine .bind inferInstance fun response => ?_
    cases response with
    | none => exact lockstep_bind
    | some response => exact lockstep_pure _
  · refine .bind inferInstance fun response => ?_
    cases response with
    | none => exact lockstep_pure none
    | some response => exact lockstep_pure _

instance lockstep_sendStreamResponse (fd : Int) (response : Option Bytes) :
    Lockstep (SameButSent before before') (sendStreamResponse fd response : M D Unit) := by
  cases response with
  | none => exact lockstep_bind
  | some response => exact lockstep_send fd response

instance lockstep_handleStreamPrint (ptr : ClientPtr) (fd : Int) (cmd : RedisCmds) :
    Lockstep (SameButSent before before') (handleStreamPrint req ptr fd cmd : M D Unit) := by
  unfold handleStreamPrint
  refine .bind inferInstance fun _ => ?_
  split
  · infer_instance
  · refine .bind inferInstance fun response => ?_
    cases response with
    | none => exact lockstep_pure ()
    | some response => exact lockstep_sendStreamResponse fd response

end Strings

/-! ## The dispatcher -/

section Dispatch

variable {req : RespRequest}

instance lockstep_arm [Externals D] (ptr : ClientPtr) (client : Client) :
    Lockstep (SameButSent before before') (arm req ptr client : M D Unit) := by
  unfold arm
  split <;> infer_instance

end Dispatch

end RedisClone
