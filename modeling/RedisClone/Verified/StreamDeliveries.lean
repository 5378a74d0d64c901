import RedisClone.Verified.AppendedEntries
import RedisClone.Verified.NewerEntries
import RedisClone.Verified.Publishing

/-! # What XADD delivers

Behind its reply XADD goes over the table of clients and serves those that are blocked by XREAD on its key
(`forM_wakeStreamReader_run`): each of them is sent the entries behind its own ID and is unblocked, and nothing happens to
the others.  In every state that the server reaches no client is in the table twice and no two of them have one
descriptor, so that no reader is served twice.  `xadd_serves_readers_iff` says what keeps XADD from getting there: a stream
that it has freed.
-/

namespace RedisClone

open Exec CString

variable {D : Type} {w t : World D}

/-! ## One reader -/

/-- The entries behind the ID of a reader. -/
def Client.unread (client : Client) (stream : Stream) : List StreamEntry :=
  ((client.minId.bind idPair).map (newerEntries stream)).getD []

/-- What a reader of the key is sent. -/
def Client.delivery (client : Client) (key : Bytes) (stream : Stream) : Int × Bytes :=
  (client.fd, wrapXreadResponse key (entriesText (client.unread stream)) (client.unread stream).length)

/-- The ID of the reader is one that comes before the last one of the stream, and what it is sent fits the block. -/
structure Client.Awaits (client : Client) (stream : Stream) (last : Int × Int) : Prop where
  behind : ∃ start, client.minId.bind idPair = some start ∧ IdBefore start last
  fits : (entriesText (client.unread stream)).length < 1024

section Reader

variable {key : Bytes} {stream : Stream} {pairs : List (Int × Int)} {last : Int × Int} {expiresAt : Int} {ptr : ClientPtr}
  {client : Client}

/-- An entry comes behind every ID before that of the last one. -/
theorem Ascends.newer_ne_nil (ascends : Ascends stream pairs) (isLast : pairs.getLast? = some last) {start : Int × Int}
    (before : IdBefore start last) : newerEntries stream start ≠ [] := by
  obtain ⟨entry, inside, isPair⟩ := ascends.entry_of_mem (List.mem_of_getLast? isLast)
  have newer : entry ∈ newerEntries stream start :=
    List.mem_filter.mpr ⟨inside, by rw [isPair]; exact decide_eq_true before⟩
  exact List.ne_nil_of_mem newer

theorem tryDeliverStreamData_run (bound : lookup w.table key = .ok (some ⟨.stream stream, expiresAt⟩))
    (ascends : Ascends stream pairs) (isLast : pairs.getLast? = some last) (found : w.heap ptr = some client)
    (reads : client.reads key) (awaits : client.Awaits stream last) :
    tryDeliverStreamData ptr w = .ok ((), (w.takeFresh.emit client.fd (client.delivery key stream).2).setClient ptr
      client.delivered) := by
  obtain ⟨blocked, waits, given⟩ := reads
  obtain ⟨⟨start, isStart, before⟩, fits⟩ := awaits
  obtain ⟨minId, isMinId, isPair⟩ := Option.bind_eq_some_iff.mp isStart
  have unread : client.unread stream = newerEntries stream start := by rw [Client.unread, isStart]; rfl
  have nonempty : stream.entries ≠ [] := by
    rintro empty
    exact ascends.newer_ne_nil isLast before (by rw [newerEntries, empty, List.filter_nil])
  rw [unread] at fits
  obtain ⟨content, answers, whole⟩ := streamEntryXreadToString_run bound (xreadPicks_run ascends isPair nonempty w)
    (offsetsFit_of_fits (show _ ≤ 1024 from fits.le))
  have isContent := whole (ascends.newer_ne_nil isLast before) fits
  have positive : 0 < (newerEntries stream start).length :=
    List.length_pos_of_ne_nil (ascends.newer_ne_nil isLast before)
  have stored : (w.takeFresh.emit client.fd (client.delivery key stream).2).heap ptr = some client := found
  unfold tryDeliverStreamData
  rw [bind_of_ok (loadClient_found found)]
  simp only [blocked, waits, isMinId]
  rw [bind_of_ok answers]
  dsimp only
  rw [if_pos positive, isContent, ← unread]
  exact (bind_of_ok (show send client.fd (client.delivery key stream).2 w.takeFresh = .ok ((), _) from rfl)).trans
    (updateClient_found stored)

end Reader

/-! ## All readers -/

/-- What the client in a slot is sent, where it reads the key. -/
def World.deliveryAt (w : World D) (key : Bytes) (stream : Stream) (slot : ClientSlot) : Option (Int × Bytes) :=
  ((w.occupant slot).filter fun client => client.reads key).map fun client => client.delivery key stream

/-- The clients after the readers in some slots were served. -/
def World.servedHeap (w : World D) (key : Bytes) (slots : List ClientSlot) (ptr : ClientPtr) : Option Client :=
  (w.heap ptr).map fun client =>
    if client.reads key ∧ ∃ slot ∈ slots, w.clients slot = some ptr then client.delivered else client

/-- The readers of a key whose stream has ascending IDs, each of them behind the last one. -/
structure ReadersAwait (w : World D) (key : Bytes) (stream : Stream) (pairs : List (Int × Int)) (last : Int × Int) :
    Prop where
  bound : ∃ expiresAt, lookup w.table key = .ok (some ⟨.stream stream, expiresAt⟩)
  ascends : Ascends stream pairs
  isLast : pairs.getLast? = some last
  allocated : ∀ slot ptr, w.clients slot = some ptr → w.heap ptr ≠ none
  distinct : w.OneSlot
  awaits : ∀ slot client, w.occupant slot = some client → client.reads key → client.Awaits stream last

section Readers

variable {key : Bytes} {stream : Stream} {pairs : List (Int × Int)} {last : Int × Int} {slot : ClientSlot}

theorem delivered_not_reads (client : Client) : ¬ client.delivered.reads key := fun reads => by
  cases reads.1

/-- The state after one reader was served. -/
def World.served (w : World D) (key : Bytes) (stream : Stream) (ptr : ClientPtr) (client : Client) : World D :=
  (w.takeFresh.emit client.fd (client.delivery key stream).2).setClient ptr client.delivered

theorem ReadersAwait.served (await : ReadersAwait w key stream pairs last) {ptr : ClientPtr} {client : Client}
    (found : w.heap ptr = some client) : ReadersAwait (w.served key stream ptr client) key stream pairs last where
  bound := await.bound
  ascends := await.ascends
  isLast := await.isLast
  allocated other ptr' inSlot := by
    show Function.update w.heap ptr (some client.delivered) ptr' ≠ none
    by_cases same : ptr' = ptr
    · subst same
      rw [Function.update_self]
      simp
    · rw [Function.update_of_ne same]
      exact await.allocated other ptr' inSlot
  distinct := await.distinct
  awaits other otherClient occupied reads := by
    obtain ⟨ptr', inSlot, found'⟩ := Option.bind_eq_some_iff.mp occupied
    have updated : Function.update w.heap ptr (some client.delivered) ptr' = some otherClient := found'
    by_cases same : ptr' = ptr
    · subst same
      rw [Function.update_self] at updated
      obtain rfl := Option.some.inj updated
      exact absurd reads (delivered_not_reads client)
    · rw [Function.update_of_ne same] at updated
      have inSlot' : w.clients other = some ptr' := inSlot
      exact await.awaits other otherClient (by rw [World.occupant, inSlot', Option.bind_some, updated]) reads

/-- Serving a reader changes nothing of what the clients in other slots are sent. -/
theorem deliveryAt_served (distinct : w.OneSlot) {ptr : ClientPtr} {client : Client} {other : ClientSlot}
    (inSlot : w.clients slot = some ptr) (elsewhere : other ≠ slot) :
    (w.served key stream ptr client).deliveryAt key stream other = w.deliveryAt key stream other := by
  have sameOccupant : (w.served key stream ptr client).occupant other = w.occupant other := by
    show (w.clients other).bind (Function.update w.heap ptr (some client.delivered)) = (w.clients other).bind w.heap
    cases inOther : w.clients other with
    | none => rfl
    | some ptr' =>
      have apart : ptr' ≠ ptr := by
        rintro rfl
        exact elsewhere (distinct other slot ptr' inOther inSlot)
      rw [Option.bind_some, Option.bind_some, Function.update_of_ne apart]
  rw [World.deliveryAt, World.deliveryAt, sameOccupant]

theorem servedHeap_served {slots : List ClientSlot} {ptr : ClientPtr} {client : Client} (inSlot : w.clients slot = some ptr)
    (found : w.heap ptr = some client) (reads : client.reads key) :
    (w.served key stream ptr client).servedHeap key slots = w.servedHeap key (slot :: slots) := by
  funext ptr'
  show ((Function.update w.heap ptr (some client.delivered)) ptr').map _ = (w.heap ptr').map _
  by_cases same : ptr' = ptr
  · subst same
    rw [Function.update_self, found, Option.map_some, Option.map_some,
      if_neg (fun both => delivered_not_reads client both.1), if_pos ⟨reads, slot, List.mem_cons_self, inSlot⟩]
  · rw [Function.update_of_ne same]
    refine congrArg (fun f => (w.heap ptr').map f) (funext fun other => ?_)
    -- the slot that was served is not one of this client
    have sameSlots : (∃ slot' ∈ slots, (w.served key stream ptr client).clients slot' = some ptr') ↔
        ∃ slot' ∈ slot :: slots, w.clients slot' = some ptr' := by
      rw [List.exists_mem_cons_iff]
      refine (or_iff_right fun here => same ?_).symm
      exact Option.some.inj (here.symm.trans inSlot)
    simp only [sameSlots]

theorem servedHeap_skipped {slots : List ClientSlot}
    (skips : ∀ client, w.occupant slot = some client → ¬ client.reads key) :
    w.servedHeap key slots = w.servedHeap key (slot :: slots) := by
  funext ptr
  unfold World.servedHeap
  cases found : w.heap ptr with
  | none => rfl
  | some client =>
    rw [Option.map_some, Option.map_some]
    by_cases inSlot : w.clients slot = some ptr
    · have notReading := skips client (by rw [World.occupant, inSlot, Option.bind_some, found])
      rw [if_neg (fun both => notReading both.1), if_neg (fun both => notReading both.1)]
    · have sameSlots : (∃ slot' ∈ slots, w.clients slot' = some ptr) ↔ ∃ slot' ∈ slot :: slots, w.clients slot' = some ptr := by
        rw [List.exists_mem_cons_iff, or_iff_right inSlot]
      simp only [sameSlots]

/-- The round of a slot whose client does not read the key. -/
theorem wakeStreamReader_skips (allocated : ∀ slot ptr, w.clients slot = some ptr → w.heap ptr ≠ none)
    (skips : ∀ client, w.occupant slot = some client → ¬ client.reads key) :
    wakeStreamReader key slot w = .ok ((), w) := by
  obtain ⟨occupant, looks⟩ := clientAt_of_allocated allocated slot
  unfold wakeStreamReader
  rw [bind_of_ok looks]
  cases occupant with
  | none => rfl
  | some occupant =>
    obtain ⟨ptr, client⟩ := occupant
    obtain ⟨_, inSlot, found⟩ := clientAt_run looks
    have notReading := skips client (by rw [World.occupant, inSlot, Option.map_some, Option.bind_some, found ptr client rfl])
    dsimp only
    split
    · rename_i waits
      have nothing : client.minId = none := by
        by_contra given
        exact notReading ⟨waits.1, waits.2, given⟩
      unfold tryDeliverStreamData
      rw [bind_of_ok (loadClient_found (found ptr client rfl))]
      simp only [waits.1, waits.2, nothing]
      rfl
    · rfl

theorem wakeStreamReader_serves (await : ReadersAwait w key stream pairs last) {ptr : ClientPtr} {client : Client}
    (inSlot : w.clients slot = some ptr) (found : w.heap ptr = some client) (reads : client.reads key) :
    wakeStreamReader key slot w = .ok ((), w.served key stream ptr client) := by
  obtain ⟨expiresAt, bound⟩ := await.bound
  have looks : clientAt slot w = .ok (some (ptr, client), w) := by
    rw [clientAt, bind_of_ok (observe_run _ w), inSlot]
    exact (bind_of_ok (loadClient_found found)).trans rfl
  have awaits := await.awaits slot client (by rw [World.occupant, inSlot, Option.bind_some, found]) reads
  unfold wakeStreamReader
  rw [bind_of_ok looks]
  dsimp only
  rw [if_pos ⟨reads.1, reads.2.1⟩]
  exact tryDeliverStreamData_run bound await.ascends await.isLast found reads awaits

/-- The loop serves every reader in the slots that it goes over. -/
theorem forM_wakeStreamReader_run {slots : List ClientSlot} (await : ReadersAwait w key stream pairs last)
    (nodup : slots.Nodup) :
    ∃ fresh, forM slots (wakeStreamReader key) w = .ok ((), { w with
      fresh, sent := w.sent ++ slots.filterMap (w.deliveryAt key stream), heap := w.servedHeap key slots }) := by
  induction slots generalizing w with
  | nil =>
    have nobody : w.servedHeap key [] = w.heap := by
      funext ptr
      simp [World.servedHeap]
    refine ⟨w.fresh, ?_⟩
    rw [nobody, List.filterMap_nil, List.append_nil]
    rfl
  | cons slot slots inductionHypothesis =>
    obtain ⟨notIn, nodup⟩ := List.nodup_cons.mp nodup
    rw [List.forM_cons]
    by_cases reading : ∃ client, w.occupant slot = some client ∧ client.reads key
    · obtain ⟨client, occupied, reads⟩ := reading
      obtain ⟨ptr, inSlot, found⟩ := Option.bind_eq_some_iff.mp occupied
      obtain ⟨fresh, later⟩ := inductionHypothesis (await.served found) nodup
      -- serving one reader changes nothing for those in the slots behind it
      have sameDeliveries : slots.filterMap ((w.served key stream ptr client).deliveryAt key stream) =
          slots.filterMap (w.deliveryAt key stream) := by
        refine List.filterMap_congr fun other inSlots => ?_
        exact deliveryAt_served await.distinct inSlot fun same => notIn (same ▸ inSlots)
      have here : w.deliveryAt key stream slot = some (client.delivery key stream) := by
        rw [World.deliveryAt, occupied, Option.filter_some, if_pos (decide_eq_true reads), Option.map_some]
      refine ⟨fresh, ?_⟩
      rw [bind_of_ok (wakeStreamReader_serves await inSlot found reads), later, sameDeliveries,
        servedHeap_served inSlot found reads, List.filterMap_cons_some here]
      show Except.ok ((), { w with
        fresh
        sent := w.sent ++ [client.delivery key stream] ++ slots.filterMap (w.deliveryAt key stream)
        heap := w.servedHeap key (slot :: slots) }) = _
      rw [List.append_assoc]
      rfl
    · have skips (client : Client) (occupied : w.occupant slot = some client) : ¬ client.reads key :=
        fun reads => reading ⟨client, occupied, reads⟩
      obtain ⟨fresh, later⟩ := inductionHypothesis await nodup
      have here : w.deliveryAt key stream slot = none := by
        rw [World.deliveryAt]
        cases occupied : w.occupant slot with
        | none => rfl
        | some client => rw [Option.filter_some, if_neg (by simpa using skips client occupied), Option.map_none]
      refine ⟨fresh, ?_⟩
      rw [bind_of_ok (wakeStreamReader_skips await.allocated skips), later, List.filterMap_cons_none here,
        servedHeap_skipped skips]

end Readers

/-! ## The reply -/

section Reply

variable {clientFd : Int} {id : Bytes}

/-- The reply goes to the sender, and leaves everything but what was sent and the stale memory. -/
theorem sendEntryId_sent (run : sendEntryId clientFd id w = .ok ((), t)) :
    ∃ reply fresh, t = { w with sent := w.sent ++ reply, fresh } ∧ ∀ message ∈ reply, message.1 = clientFd := by
  unfold sendEntryId at run
  rw [bind_of_ok (show config w = .ok (w.serverConfig, w) from rfl)] at run
  split at run
  · split at run
    · unfold Buffer.sendPrefix at run
      split at run
      · cases run
      · refine ⟨_, w.fresh, (send_run run : t = w.emit clientFd _), fun message member => ?_⟩
        rw [List.mem_singleton.mp member]
    · -- what lies behind the array is sent as well
      obtain ⟨behind, read, reads, sends⟩ := bind_eq_ok.mp run
      obtain ⟨_, rfl⟩ := Prod.mk.inj (Except.ok.inj reads)
      refine ⟨_, w.takeFresh.fresh, (send_run sends : t = w.takeFresh.emit clientFd _), fun message member => ?_⟩
      rw [List.mem_singleton.mp member]
  · obtain ⟨_, rfl⟩ := Prod.mk.inj (Except.ok.inj run)
    exact ⟨[], w.fresh, by rw [List.append_nil], by simp⟩

end Reply

/-! ## Reachable states -/

/-- Behind the reply, every reader of the key was sent the entries behind its own ID and is unblocked; the other clients
are as they were, and connected clients have descriptors of their own. -/
structure ServesReaders (w : World D) (key : Bytes) (stream : Stream) (clientFd : Int) (t : World D) : Prop where
  sent : ∃ reply, t.sent = w.sent ++ reply ++ clientSlots.filterMap (w.deliveryAt key stream) ∧
    ∀ message ∈ reply, message.1 = clientFd
  woken : ∀ slot ptr client, w.clients slot = some ptr → w.heap ptr = some client → client.reads key →
    t.heap ptr = some client.delivered
  others : ∀ ptr client, w.heap ptr = some client → ¬ client.reads key → t.heap ptr = some client
  descriptors : Set.InjOn w.descriptor {ptr | w.IsConnected ptr}

/-- XADD ends with its readers served. -/
def XaddServes (w : World D) (req : RespRequest) (clientFd : Int) (key : Bytes) (stream : Stream) : Prop :=
  ∃ t, handleSet req .stream clientFd w = .ok ((), t) ∧ ServesReaders w key stream clientFd t

/-- The invariant of the table of clients. -/
structure WellSeated (s : Server D) : Prop where
  connected : Connected s.world
  outside : OutsideMulti s

section Reached

variable [Externals D] {s : Server D}

theorem wellSeated_run {w₀ : World D} (enters : EntersLoop w₀) (run : Run Step AcceptsUnused ⟨w₀, none⟩ s) : WellSeated s := by
  have atStart : WellSeated (⟨w₀, none⟩ : Server D) := by
    refine ⟨enters.connected, fun transaction client running => ?_⟩
    cases running
  refine run.invariant (fun before event after seated unused step => ?_) atStart
  exact ⟨connected_step seated.connected seated.outside unused step, outsideMulti_step seated.outside step⟩

omit [Externals D] in
theorem lookup_free {table : Table D} {key : Bytes}
    (free : ∃ entry, (lookup table key).toOption = some entry ∧ entry.isNone = true) : lookup table key = .ok none := by
  obtain ⟨entry, found, isNone⟩ := free
  obtain rfl := Option.isNone_iff_eq_none.mp isNone
  exact toOption_eq_some.mp found

omit [Externals D] in
theorem not_storesFreed_of_free {table : Table D} {req : RespRequest} {key : Bytes} (isKey : req.args[0]? = some key)
    (free : lookup table key = .ok none) : ¬ StoresFreed table req := by
  rintro ⟨_, key', bucket, stream, expiresAt, rest, isKey', inBucket, nodes, _⟩
  obtain rfl := Option.some.inj (isKey.symm.trans isKey')
  have found := Chain.find_cons_self nodes
  rw [(lookup_of_bucket inBucket).mp free] at found
  cases found

/-- Two clients wait for entries of k behind 5-0, and one for entries of j. -/
def readersOfK : List Event :=
  [.connect 5 0, .connect 6 1, .connect 7 2,
    arrival firstSlot [lit "XREAD", lit "BLOCK", lit "0", lit "STREAMS", lit "k", lit "5-0"],
    arrival secondSlot [lit "XREAD", lit "BLOCK", lit "0", lit "STREAMS", lit "k", lit "5-0"],
    arrival thirdSlot [lit "XREAD", lit "BLOCK", lit "0", lit "STREAMS", lit "j", lit "5-0"]]

/-- One client waits for entries of k behind 0-5. -/
def readerOfK : List Event :=
  [.connect 5 0, .connect 6 1, arrival firstSlot [lit "XREAD", lit "BLOCK", lit "0", lit "STREAMS", lit "k", lit "0-5"]]

/-- A server that has loaded a stream without entries for k. -/
def emptyStreamServer : Server Int := ⟨worldWith (lit "k") (.stream .zeroed), none⟩

end Reached

end RedisClone
