import RedisClone.Lib.Preserves
import RedisClone.Verified.Dispatch

/-! # The code behind the handlers

`Storing R`: `R` allows what the table functions and the readers of streams do, which is to change a bucket, read the
clock and use stale memory.  A relation that speaks of clients, of the configuration or of what is sent has an instance
of it at once, and then an instance of `Preserves R` for each of these functions.
-/

namespace RedisClone

open Exec

variable {D : Type}

/-- The relation says nothing of the table, the clock and stale memory. -/
class Storing (R : World D → World D → Prop) : Prop extends Cumulative R where
  setBucket : ∀ w bucket chain, R w (World.setBucket w bucket chain)
  tick : ∀ w, R w (World.tick w)
  takeFresh : ∀ w, R w (World.takeFresh w)

variable {R : World D → World D → Prop} [storing : Storing R]

instance allows_tick : Allows R World.tick := ⟨storing.tick⟩

instance allows_takeFresh : Allows R World.takeFresh := ⟨storing.takeFresh⟩

/-! ## Memory -/

section Memory

variable {req : RespRequest}

instance preserves_getCurrentTimeMs : Preserves R (getCurrentTimeMs : M D Int) := by
  unfold getCurrentTimeMs
  infer_instance

instance preserves_indeterminate : Preserves R (indeterminate : M D Bytes) := by
  unfold indeterminate
  infer_instance

instance preserves_indeterminateInt : Preserves R (indeterminateInt : M D Int) := by
  unfold indeterminateInt
  infer_instance

instance preserves_staleBytes (n : Nat) : Preserves R (staleBytes n : M D Bytes) := by
  unfold staleBytes
  infer_instance

instance preserves_config : Preserves R (config : M D RedisConfig) := by
  unfold config
  infer_instance

instance preserves_loadClient (ptr : ClientPtr) : Preserves R (loadClient ptr : M D Client) where
  run w client w' run := by
    obtain ⟨_, rfl⟩ := loadClient_eq_ok.mp run
    exact storing.composes.refl w'

instance preserves_arg (i : Nat) : Preserves R (req.arg i : M D Bytes) := by
  unfold RespRequest.arg
  split
  · infer_instance
  · exact preserves_fault _

instance preserves_printArg (i : Nat) : Preserves R (req.printArg i : M D Unit) := by
  unfold RespRequest.printArg
  split
  · infer_instance
  · infer_instance
  · exact preserves_fault _

instance preserves_print (size : Nat) (buffer : Buffer) (text : Bytes) :
    Preserves R (buffer.print size text : M D Buffer) := by
  unfold Buffer.print fault
  infer_instance

instance preserves_appendAll (size : Nat) (texts : List Bytes) (buffer : Buffer) :
    Preserves R (Buffer.appendAll size texts buffer : M D Buffer) := by
  induction texts generalizing buffer with
  | nil => exact preserves_pure buffer
  | cons text texts inductionHypothesis =>
    unfold Buffer.appendAll Buffer.append
    infer_instance

end Memory

/-! ## The table -/

section Table

instance preserves_tableIndex (key : Bytes) : Preserves R (tableIndex key : M D Bucket) := by
  unfold tableIndex
  split
  · infer_instance
  · exact preserves_fault _

instance preserves_storeGetEntry (key : Bytes) : Preserves R (storeGetEntry key : M D (Option (Entry D))) := by
  unfold storeGetEntry
  refine .bind inferInstance fun bucket => .bind inferInstance fun table => ?_
  split
  · infer_instance
  · exact preserves_fault _

instance preserves_changeBucket (bucket : Bucket) (f : Chain Bytes (Entry D) → Chain Bytes (Entry D)) :
    Preserves R (changeBucket bucket f) := by
  have : Allows R fun w : World D => w.setBucket bucket (f (w.table bucket)) :=
    ⟨fun w => storing.setBucket w bucket _⟩
  unfold changeBucket
  infer_instance

instance preserves_updateEntry (key : Bytes) (value : Value D) : Preserves R (updateEntry key value) := by
  unfold updateEntry
  infer_instance

instance preserves_takeNode (chain : Chain Bytes (Entry D)) : Preserves R (takeNode chain : M D Bool) := by
  unfold takeNode
  infer_instance

instance preserves_storeSetContainer (key : Bytes) (value : Value D) :
    Preserves R (storeSetContainer key value) := by
  unfold storeSetContainer
  infer_instance

instance preserves_expiryOf (flag : TimeFlags) (seconds : Int) : Preserves R (expiryOf flag seconds : M D Int) := by
  cases flag <;> (unfold expiryOf; infer_instance)

instance preserves_storeSet (key : Bytes) (value : Value D) (flag : TimeFlags) (seconds : Int) :
    Preserves R (storeSet key value flag seconds) := by
  unfold storeSet
  refine .bind inferInstance fun bucket => .bind inferInstance fun existing => ?_
  cases existing with
  | none => exact preserves_bind
  | some entry => exact preserves_bind

instance preserves_storeGet (key : Bytes) : Preserves R (storeGet key : M D (Option (Value D))) := by
  unfold storeGet
  refine .bind inferInstance fun entry => ?_
  cases entry with
  | none => exact preserves_pure none
  | some entry => exact preserves_ite

instance preserves_asString (value : Value D) : Preserves R (asString value : M D Bytes) := by
  cases value <;> first | exact preserves_pure _ | exact preserves_fault _

instance preserves_asList (value : Value D) : Preserves R (asList value : M D (List Bytes)) := by
  cases value <;> first | exact preserves_pure _ | exact preserves_fault _

instance preserves_asStream (value : Value D) : Preserves R (asStream value : M D Stream) := by
  cases value <;> first | exact preserves_pure _ | exact preserves_fault _

instance preserves_asZSet (value : Value D) : Preserves R (asZSet value : M D (ZSet D)) := by
  cases value <;> first | exact preserves_pure _ | exact preserves_fault _

/-- A reader of a payload. -/
theorem preserves_payload {α β : Type} {key : Bytes} {cast : Value D → M D α} {missing : M D β}
    {found : α → M D β} (casts : ∀ value, Preserves R (cast value)) (whenMissing : Preserves R missing)
    (whenFound : ∀ payload, Preserves R (found payload)) : Preserves R (withPayload key cast missing found) := by
  unfold withPayload
  refine .bind inferInstance fun entry => ?_
  cases entry with
  | none => exact whenMissing
  | some entry => exact preserves_bind

instance preserves_openList (key : Bytes) : Preserves R (openList key : M D (List Bytes)) := by
  have creates : Preserves R (storeSetList key [] : M D Unit) := preserves_storeSetContainer _ _
  exact preserves_payload inferInstance preserves_bind inferInstance

instance preserves_openZSet (key : Bytes) : Preserves R (openZSet key : M D (ZSet D)) := by
  have creates : Preserves R (storeSetZset key ⟨[], 0⟩ : M D Unit) := preserves_storeSetContainer _ _
  exact preserves_payload inferInstance preserves_bind inferInstance

end Table

/-! ## Streams -/

section Streams

instance preserves_toUpperCopy (text : Bytes) : Preserves R (toUpperCopy text : M D Bytes) := by
  unfold toUpperCopy
  infer_instance

instance preserves_lastStreamEntry (key : Bytes) : Preserves R (lastStreamEntry key : M D (Option StreamEntry)) := by
  unfold lastStreamEntry
  refine .bind inferInstance fun entry => ?_
  split
  · infer_instance
  · exact preserves_pure none

instance preserves_scanned (value : Option Int) : Preserves R (scanned value : M D Int) := by
  cases value with
  | none => exact preserves_indeterminateInt
  | some value => exact preserves_pure value

instance preserves_scanId (id : Bytes) : Preserves R (scanId id : M D (Int × Int)) := by
  unfold scanId
  infer_instance

instance preserves_isBigger (srcId checkId : Bytes) : Preserves R (isBigger srcId checkId : M D Bool) := by
  unfold isBigger
  infer_instance

instance preserves_selectEntries (size : Nat) (start stop : Int × Int) (isXrange : Bool) (remaining : Nat)
    (entries : List StreamEntry) (buffer : Buffer) (count : Nat) :
    Preserves R (selectEntries size start stop isXrange remaining entries buffer count : M D (Buffer × Nat)) := by
  induction remaining generalizing entries buffer count with
  | zero => exact preserves_pure _
  | succ remaining inductionHypothesis =>
    cases entries with
    | nil => exact preserves_fault _
    | cons entry entries =>
      unfold selectEntries
      infer_instance

instance preserves_idOf (entry : Option StreamEntry) : Preserves R (idOf entry : M D Bytes) := by
  cases entry with
  | none => exact preserves_fault _
  | some entry => exact preserves_pure entry.id

instance preserves_scanBound (text wildcard : Bytes) (ending : Option StreamEntry) :
    Preserves R (scanBound text wildcard ending : M D (Int × Int)) := by
  unfold scanBound
  infer_instance

instance preserves_entriesPrinted (bufSize : Nat) (entriesToPrint : Buffer) (count : Nat) :
    Preserves R (entriesPrinted bufSize entriesToPrint count : M D Bytes) := by
  unfold entriesPrinted
  infer_instance

instance preserves_rangeSize (length : Nat) : Preserves R (rangeSize length : M D Nat) := by
  unfold rangeSize fault
  infer_instance

instance preserves_streamEntryToString (idStart idEnd : M D Bytes) (key : Bytes)
    [Preserves R idStart] [Preserves R idEnd] : Preserves R (streamEntryToString idStart idEnd key) := by
  unfold streamEntryToString
  refine .bind inferInstance fun entry => ?_
  split
  · refine .bind inferInstance fun startText => .bind inferInstance fun endText => ?_
    exact preserves_bind
  · exact preserves_pure _

instance preserves_xreadBounds (startText idEnd : Bytes) (stream : Stream) :
    Preserves R (xreadBounds startText idEnd stream : M D ((Int × Int) × Int × Int)) := by
  unfold xreadBounds
  infer_instance

instance preserves_streamEntryXreadToString (idStart : M D Bytes) (idEnd : Bytes) (key : Bytes)
    [Preserves R idStart] : Preserves R (streamEntryXreadToString idStart idEnd key) := by
  unfold streamEntryXreadToString
  refine .bind inferInstance fun block => .bind inferInstance fun entry => ?_
  split
  · exact preserves_bind
  · exact preserves_pure _

instance preserves_scannedText (text : Option Bytes) : Preserves R (scannedText text : M D Bytes) := by
  cases text with
  | none => exact preserves_bind
  | some text => exact preserves_pure text

instance preserves_validateStreamId (id tailId : Bytes) :
    Preserves R (validateStreamId id tailId : M D (Option Bytes)) := by
  unfold validateStreamId
  split
  · infer_instance
  · split
    · infer_instance
    · refine .bind inferInstance fun ms => .bind inferInstance fun seq => ?_
      split
      · infer_instance
      · split
        · infer_instance
        · split
          · infer_instance
          · exact preserves_pure _

instance preserves_checkStreamId (id : Bytes) (tail : Option StreamEntry) :
    Preserves R (checkStreamId id tail : M D (Option Bytes)) := by
  cases tail with
  | none => exact preserves_pure none
  | some tail => exact preserves_validateStreamId id tail.id

instance preserves_nextSeq (stream : Stream) : Preserves R (nextSeq stream : M D Int) := by
  unfold nextSeq fault
  infer_instance

instance preserves_chooseId (stream : Stream) (id : Bytes) : Preserves R (chooseId stream id : M D Bytes) := by
  unfold chooseId generateId generatedPair
  infer_instance

instance preserves_appendEntry (key : Bytes) (stream : Stream) (entry : StreamEntry) (ms seq : Int) :
    Preserves R (appendEntry key stream entry ms seq : M D Unit) := by
  unfold appendEntry storeOpened storeSetStream fault
  infer_instance

instance preserves_findStreams (index : Nat) (words : List Bytes) :
    Preserves R (findStreams index words : M D Nat) := by
  induction words generalizing index with
  | nil => exact preserves_fault _
  | cons word words inductionHypothesis =>
    unfold findStreams
    infer_instance

instance preserves_hasBlockFrom (i : Nat) (words : List Bytes) :
    Preserves R (hasBlockFrom i words : M D (Option Nat)) := by
  induction words generalizing i with
  | nil => exact preserves_pure none
  | cons word words inductionHypothesis =>
    unfold hasBlockFrom
    infer_instance

instance preserves_hasBlock (req : RespRequest) : Preserves R (hasBlock req : M D (Option Nat)) :=
  preserves_hasBlockFrom 0 req.args

instance preserves_isMultipleKey (req : RespRequest) :
    Preserves R (isMultipleKey req : M D (Option (Nat × Nat))) := by
  unfold isMultipleKey
  infer_instance

instance preserves_handleBlockDollar (req : RespRequest) :
    Preserves R (handleBlockDollar req : M D (Option Bytes × Nat × Bytes)) := by
  unfold handleBlockDollar
  split
  · refine .bind inferInstance fun key => .bind inferInstance fun last => ?_
    cases last with
    | none => exact preserves_bind
    | some entry => exact preserves_bind
  · infer_instance

instance preserves_timeoutAfter (ms : Int) : Preserves R (timeoutAfter ms : M D Int) := by
  unfold timeoutAfter fault
  infer_instance

end Streams

end RedisClone
