import RedisClone.Verified.Pipelines
import RedisClone.Verified.StreamIds

/-! # The fields of the blocking commands

BLPOP, XREAD and WAIT share `is_blocked`, `is_blpop`, `is_waiting`, `waiting_for_key` and `min_id`, and every
way out of the blocked state resets some of them.  `Resets` is the condition under which a step leaves nothing
over, and `blocked_state` the invariant of the runs whose steps meet it.
-/

namespace RedisClone

open Exec CString

variable {D : Type}

/-! ## The invariant -/

/-- Nothing of an earlier command is left in the fields of a client, and one that BLPOP blocks has no
`min_id`. -/
structure Client.Settled (client : Client) : Prop where
  unblocked : client.isBlocked = false → client.isBlpop = false ∧ client.isWaiting = false ∧
    client.waitingForKey = none ∧ client.minId = none
  blpop : client.isBlocked = true → client.isBlpop = true → client.minId = none

def World.Settled (w : World D) : Prop :=
  ∀ slot client, w.occupant slot = some client → client.Settled

section Clients

variable {client client' : Client}

theorem SameBlocking.settled (same : SameBlocking client client') (settled : client.Settled) :
    client'.Settled := by
  simp only [SameBlocking, Client.blocking, Blocking.mk.injEq] at same
  obtain ⟨isBlocked, isBlpop, isWaiting, _, _, waitingForKey, minId⟩ := same
  constructor
  · rw [isBlocked, isBlpop, isWaiting, waitingForKey, minId]
    exact settled.unblocked
  · rw [isBlocked, isBlpop, minId]
    exact settled.blpop

theorem settled_newClient (fd : Int) : (newClient fd).Settled :=
  ⟨fun _ => ⟨rfl, rfl, rfl, rfl⟩, fun _ _ => rfl⟩

/-- Only a client that is blocked by BLPOP has `is_blpop`. -/
theorem Client.Settled.noMinId (settled : client.Settled) (isBlpop : client.isBlpop = true) :
    client.minId = none := by
  cases blocked : client.isBlocked with
  | false => simp [(settled.unblocked blocked).1] at isBlpop
  | true => exact settled.blpop blocked isBlpop

theorem Client.Settled.woken (settled : client.Settled) (isBlpop : client.isBlpop = true)
    (notWaiting : client.isWaiting = false) : client.woken.Settled where
  unblocked _ := ⟨rfl, notWaiting, rfl, settled.noMinId isBlpop⟩
  blpop blocked := by simp [Client.woken] at blocked

theorem Client.Settled.delivered {key : Bytes} (settled : client.Settled) (reads : client.reads key)
    (notWaiting : client.isWaiting = false) : client.delivered.Settled where
  unblocked _ := by
    refine ⟨?_, notWaiting, rfl, rfl⟩
    -- a client that BLPOP blocks has no `min_id` and is no reader
    by_contra isBlpop
    exact reads.2.2 (settled.noMinId (by simpa [Client.delivered] using isBlpop))
  blpop blocked := by simp [Client.delivered] at blocked

theorem Client.Settled.blockedFor (noMinId : client.minId = none) (key : Bytes) (timeoutAt blockedAt : Int) :
    (client.blockedFor key timeoutAt blockedAt).Settled where
  unblocked unblocked := by simp [Client.blockedFor] at unblocked
  blpop _ _ := noMinId

theorem Client.Settled.waitingUntil (settled : client.Settled) (timeoutAt : Int) :
    (client.waitingUntil timeoutAt).Settled where
  unblocked unblocked := by simp [Client.waitingUntil] at unblocked
  blpop _ isBlpop := settled.noMinId isBlpop

theorem Client.Settled.waitEnded {fd : Int} (settled : client.Settled)
    (alone : client.fd = fd → client.isBlpop = false ∧ client.waitingForKey = none ∧ client.minId = none) :
    (client.waitEnded fd).Settled := by
  by_cases isOwn : client.fd = fd
  · obtain ⟨notBlpop, noKey, noMinId⟩ := alone isOwn
    exact ⟨fun _ => ⟨notBlpop, rfl, noKey, noMinId⟩, fun _ _ => noMinId⟩
  · constructor
    · intro unblocked
      obtain ⟨notBlpop, _, noKey, noMinId⟩ := settled.unblocked (by
        simpa [Client.waitEnded, isOwn] using unblocked)
      exact ⟨notBlpop, rfl, noKey, noMinId⟩
    · exact fun _ isBlpop => settled.noMinId isBlpop

end Clients

/-! ## The condition -/

/-- The two numbers of the last ID decide that nothing lies behind it. -/
def World.answersLater (w : World D) (req : RespRequest) : Bool :=
  !hasDollarSign req || req.args[3]?.all fun key =>
    match binding w.table key with
    | some ⟨.stream stream, _⟩ => stream.tail.any fun last => (idPair last.id).isSome
    | _ => true

/-- What a command that blocks, or wakes a client, has to find. -/
def CommandResets (w : World D) (ptr : ClientPtr) (req : RespRequest) : Prop :=
  (req.command = .rpush → ∀ key ∈ req.args[0]?, ∀ slot, ∀ client ∈ w.occupant slot, client.waitsFor key →
    client.isWaiting = false) ∧
  (req.command = .xadd → ∀ key ∈ req.args[0]?, ∀ slot, ∀ client ∈ w.occupant slot, client.reads key →
    client.isWaiting = false) ∧
  (req.command = .blpop → Blocks w req → ∀ client ∈ w.heap ptr, client.minId = none) ∧
  (req.command = .xread → w.seesBlock req = true → ∀ client ∈ w.heap ptr, client.isBlpop = false ∧
    (client.isBlocked = false → w.answersLater req = true))

instance (w : World D) (ptr : ClientPtr) (req : RespRequest) : Decidable (CommandResets w ptr req) :=
  inferInstanceAs (Decidable (_ ∧ _ ∧ _ ∧ _))

/-- What the timers have to find: no XREAD is over, a BLPOP that is over is the only command that blocks its
client, and so is a WAIT that is over. -/
def TimersReset (w : World D) : Prop :=
  ∀ slot, ∀ client ∈ w.occupant slot,
    (client.dueXread (w.clock 0) → client.waitingForKey = none ∧ client.minId = none) ∧
    (client.dueBlpop (w.clock slot.val) → client.isWaiting = false) ∧
    (w.completions (w.clock 0) ≠ [] → client.fd = w.serverConfig.waitClientFd →
      ¬ client.dueBlpop (w.clock slot.val) →
        client.isBlpop = false ∧ client.waitingForKey = none ∧ client.minId = none)

instance (w : World D) : Decidable (TimersReset w) :=
  inferInstanceAs (Decidable (∀ _, ∀ _ ∈ _, _ ∧ _ ∧ _))

/-- Every way into and out of the blocked state that the step takes leaves nothing over. -/
def Resets (s : Server D) (event : Event) : Prop :=
  match event with
  | .timers => TimersReset s.world
  | event => ∀ ptr req, Dispatches s event ptr req → CommandResets s.world ptr req

instance (s : Server D) (event : Event) : Decidable (Resets s event) :=
  match event with
  | .timers => inferInstanceAs (Decidable (TimersReset _))
  | .poll _ | .connect _ _ | .disconnect _ | .request _ _ | .proceed =>
    inferInstanceAs (Decidable (∀ _ _, _ → _))

/-! ## XREAD -/

section Xread

variable {w t : World D} {req : RespRequest} {ptr : ClientPtr}

/-- No ID lies behind a pair and up to it. -/
theorem addToString_self (pair current : Int × Int) : addToString pair pair current true = false := by
  unfold addToString
  rw [if_pos rfl, Bool.eq_false_iff]
  simp only [ne_eq, Bool.and_eq_true, Bool.or_eq_true, decide_eq_true_eq, beq_iff_eq]
  omega

theorem selectEntries_self {size remaining count result : Nat} {pair : Int × Int} {entries : List StreamEntry}
    {buffer text : Buffer}
    (run : selectEntries size pair pair true remaining entries buffer count w = .ok ((text, result), t)) :
    result = count := by
  induction remaining generalizing entries buffer w with
  | zero =>
    simp only [selectEntries, pure_run, Except.ok.injEq, Prod.mk.injEq] at run
    exact run.1.2.symm
  | succ remaining inductionHypothesis =>
    cases entries with
    | nil => simp [selectEntries, fault] at run
    | cons entry entries =>
      unfold selectEntries at run
      obtain ⟨current, scanned, _, rest⟩ := bind_eq_ok.mp run
      rw [addToString_self, if_neg (by decide)] at rest
      exact inductionHypothesis rest

theorem idPair_dash : idPair (lit "-") = none := by decide

/-- Between the last ID of a stream and its end there is no entry. -/
theorem readBehindLast {key : Bytes} {stream : Stream} {expiresAt : Int} {last : StreamEntry} {pair : Int × Int}
    {messages : Option Bytes} {count : Nat}
    (bound : binding w.table key = some ⟨.stream stream, expiresAt⟩) (isLast : stream.tail = some last)
    (isPair : idPair last.id = some pair)
    (run : streamEntryXreadToString (pure last.id) (lit "+") key w = .ok ((messages, count), t)) :
    count = 0 := by
  unfold streamEntryXreadToString at run
  obtain ⟨block, drawn, draws, afterBlock⟩ := bind_eq_ok.mp run
  have sameTable : drawn.table = w.table := by
    simp only [indeterminate, draw_run, Except.ok.injEq, Prod.mk.injEq] at draws
    rw [← draws.2]
    rfl
  obtain ⟨entry, found, walk, afterWalk⟩ := bind_eq_ok.mp afterBlock
  obtain ⟨isEntry, rfl⟩ := storeGetEntry_ok walk
  obtain rfl : some (⟨.stream stream, expiresAt⟩ : Entry D) = entry := by
    rw [← isEntry, sameTable, bound]
  dsimp only at afterWalk
  rw [pure_bind] at afterWalk
  obtain ⟨bounds, bounded, bounding, afterBounds⟩ := bind_eq_ok.mp afterWalk
  have notDash : last.id ≠ lit "-" := by
    intro isDash
    simp [isDash, idPair_dash] at isPair
  have same : bounds = (pair, pair) := by
    rw [xreadBounds, if_neg (fun both => notDash both.1), scanBound, if_neg notDash,
      bind_of_ok (scanId_of_pair isPair found), scanBound, if_pos rfl, isLast, idOf, bind_assoc, pure_bind,
      bind_of_ok (scanId_of_pair isPair found)] at bounding
    simp only [pure_run, Except.ok.injEq, Prod.mk.injEq] at bounding
    exact bounding.1.symm
  subst same
  dsimp only at afterBounds
  obtain ⟨_, headed, _, afterHead⟩ := bind_eq_ok.mp afterBounds
  obtain ⟨⟨text, selected⟩, chosen, selects, final⟩ := bind_eq_ok.mp afterHead
  have none := selectEntries_self selects
  rw [none] at final
  simp only [if_true, pure_run, Except.ok.injEq, Prod.mk.injEq] at final
  exact final.1.2.symm

theorem readUnbound {key : Bytes} {idStart : M D Bytes} {idEnd : Bytes} {messages : Option Bytes} {count : Nat}
    (notStream : ∀ stream expiresAt, binding w.table key ≠ some ⟨.stream stream, expiresAt⟩)
    (run : streamEntryXreadToString idStart idEnd key w = .ok ((messages, count), t)) : count = 0 := by
  unfold streamEntryXreadToString at run
  obtain ⟨block, drawn, draws, afterBlock⟩ := bind_eq_ok.mp run
  have sameTable : drawn.table = w.table := by
    simp only [indeterminate, draw_run, Except.ok.injEq, Prod.mk.injEq] at draws
    rw [← draws.2]
    rfl
  obtain ⟨entry, found, walk, afterWalk⟩ := bind_eq_ok.mp afterBlock
  obtain ⟨isEntry, rfl⟩ := storeGetEntry_ok walk
  split at afterWalk
  · rename_i stream expiresAt
    exact absurd (sameTable ▸ isEntry) (notStream stream expiresAt)
  · simp only [pure_run, Except.ok.injEq, Prod.mk.injEq] at afterWalk
    exact afterWalk.1.2.symm

/-- `handle_block_dollar` finds nothing. -/
theorem handleBlockDollar_waits {messages : Option Bytes} {count : Nat} {minId : Bytes}
    (later : w.answersLater req = true)
    (run : handleBlockDollar req w = .ok ((messages, count, minId), t)) :
    ¬ (messages.getD [] ≠ [] ∧ 0 < count) := by
  suffices nothing : messages = none ∨ count = 0 by
    rintro ⟨nonempty, positive⟩
    obtain rfl | rfl := nothing
    · exact nonempty rfl
    · omega
  unfold handleBlockDollar at run
  split at run
  · rename_i dollar
    obtain ⟨key, read, reads, afterKey⟩ := bind_eq_ok.mp run
    obtain ⟨isKey, rfl⟩ := arg_ok.mp reads
    unfold World.answersLater at later
    rw [dollar, isKey, Bool.not_true, Bool.false_or, Option.all_some] at later
    obtain ⟨last, looked, looks, afterLook⟩ := bind_eq_ok.mp afterKey
    unfold lastStreamEntry at looks
    obtain ⟨entry, found, walk, isLast⟩ := bind_eq_ok.mp looks
    obtain ⟨isEntry, rfl⟩ := storeGetEntry_ok walk
    rw [isEntry] at later
    split at isLast
    · rename_i stream expiresAt
      obtain ⟨last', isTail, isPair⟩ := (Option.any_eq_true _ _).mp later
      obtain ⟨pair, isPair⟩ := Option.isSome_iff_exists.mp isPair
      simp only [pure_run, Except.ok.injEq, Prod.mk.injEq] at isLast
      obtain ⟨rfl, rfl⟩ := isLast
      simp only [isTail] at afterLook
      obtain ⟨⟨messages', count'⟩, answered, answers, final⟩ := bind_eq_ok.mp afterLook
      simp only [pure_run, Except.ok.injEq, Prod.mk.injEq] at final
      obtain ⟨⟨rfl, rfl, _⟩, _⟩ := final
      exact .inr (readBehindLast isEntry isTail isPair answers)
    · rename_i notStream
      simp only [pure_run, Except.ok.injEq, Prod.mk.injEq] at isLast
      obtain ⟨rfl, rfl⟩ := isLast
      obtain ⟨⟨messages', count'⟩, answered, answers, afterAnswer⟩ := bind_eq_ok.mp afterLook
      obtain ⟨_, read', _, final⟩ := bind_eq_ok.mp afterAnswer
      simp only [pure_run, Except.ok.injEq, Prod.mk.injEq] at final
      obtain ⟨⟨rfl, rfl, _⟩, _⟩ := final
      refine .inr (readUnbound (fun stream expiresAt isStream => ?_) answers)
      rw [isEntry] at isStream
      exact notStream stream expiresAt isStream
  · obtain ⟨_, read, _, final⟩ := bind_eq_ok.mp run
    simp only [pure_run, Except.ok.injEq, Prod.mk.injEq] at final
    exact .inl final.1.1.symm

theorem answersLater_congr (sameTable : t.table = w.table) (req : RespRequest) :
    t.answersLater req = w.answersLater req := by
  unfold World.answersLater
  rw [sameTable]

/-- An XREAD that finds BLOCK, and nothing to answer, leaves its client blocked. -/
theorem handleSingleXread_blocks {response : Option Bytes}
    (sees : (blockIndex w.fresh req.args).isSome = true) (later : w.answersLater req = true)
    (run : handleSingleXread req ptr w = .ok (response, t)) :
    response = none ∧ ∃ client', t.heap ptr = some client' ∧ client'.isBlocked = true := by
  obtain ⟨index, isIndex⟩ := Option.isSome_iff_exists.mp sees
  unfold handleSingleXread at run
  obtain ⟨block, looked, looks, afterLook⟩ := bind_eq_ok.mp run
  have keptLook := (obeys_hasBlock (ambient_kept {}) _).1 _ _ looks
  obtain ⟨_, looks'⟩ := hasBlock_run req w
  rw [looks, isIndex] at looks'
  simp only [Except.ok.injEq, Prod.mk.injEq] at looks'
  obtain ⟨rfl, rfl⟩ := looks'
  dsimp only at afterLook
  obtain ⟨_, printed, prints, afterPrint⟩ := bind_eq_ok.mp afterLook
  obtain rfl := printArg_same prints
  obtain ⟨_, printed', prints', afterPrint'⟩ := bind_eq_ok.mp afterPrint
  obtain rfl := printArg_same prints'
  obtain ⟨_, ticked, ticks, afterTick⟩ := bind_eq_ok.mp afterPrint'
  have tickTable : ticked.table = printed'.table := by
    obtain ⟨_, rfl⟩ := Prod.mk.inj (Except.ok.inj ticks)
    rfl
  obtain ⟨ms, read, reads, afterMs⟩ := bind_eq_ok.mp afterTick
  obtain ⟨_, rfl⟩ := arg_ok.mp reads
  obtain ⟨timeoutAt, timed, times, afterTime⟩ := bind_eq_ok.mp afterMs
  obtain ⟨clock, rfl⟩ : ∃ clock, timed = { read with clock } := ⟨_, timeoutAfter_ok times⟩
  obtain ⟨_, set, sets, afterSet⟩ := bind_eq_ok.mp afterTime
  obtain ⟨client, found, rfl⟩ := updateClient_eq_ok.mp sets
  obtain ⟨⟨messages, count, minId⟩, asked, asks, afterAsk⟩ := bind_eq_ok.mp afterSet
  have sameTable : read.table = w.table := tickTable.trans (funext fun bucket => keptLook.table bucket id)
  have waits := handleBlockDollar_waits (w := World.setClient { read with clock } ptr _)
    ((answersLater_congr (t := World.setClient { read with clock } ptr _) sameTable req).trans later) asks
  obtain ⟨_, noted, notes, afterNote⟩ := bind_eq_ok.mp afterAsk
  obtain ⟨client', found', rfl⟩ := updateClient_eq_ok.mp notes
  obtain ⟨key, read', reads', afterKey⟩ := bind_eq_ok.mp afterNote
  obtain ⟨_, rfl⟩ := arg_ok.mp reads'
  rw [if_neg waits] at afterKey
  obtain ⟨_, blocked, blocks, final⟩ := bind_eq_ok.mp afterKey
  obtain ⟨client'', found'', rfl⟩ := updateClient_eq_ok.mp blocks
  simp only [pure_run, Except.ok.injEq, Prod.mk.injEq] at final
  obtain ⟨rfl, rfl⟩ := final
  exact ⟨rfl, _, Function.update_self _ _ _, rfl⟩

/-- Such an XREAD is one for a single key, and sends no reply. -/
theorem xread_single {clientFd : Int} (sees : w.seesBlock req = true) (later : w.answersLater req = true)
    (run : handleStreamPrint req ptr clientFd .xread w = .ok ((), t)) :
    ∃ fresh, (blockIndex fresh req.args).isSome = true ∧
      handleSingleXread req ptr { w with fresh } = .ok (none, t) := by
  unfold handleStreamPrint at run
  obtain ⟨_, printed, prints, afterPrint⟩ := bind_eq_ok.mp run
  obtain rfl := printArg_same prints
  rw [if_neg (by decide)] at afterPrint
  obtain ⟨response, read, reads, sends⟩ := bind_eq_ok.mp afterPrint
  unfold handleXread at reads
  obtain ⟨keys, scanned, scans, afterScan⟩ := bind_eq_ok.mp reads
  obtain ⟨index, isIndex, rfl, ⟨_, streamsLength, several, rfl⟩ | ⟨_, rfl⟩⟩ := isMultipleKey_run scans
  · simp only [bind_of_error (handleMultipleXread_faults index several _)] at afterScan
    simp at afterScan
  · obtain ⟨single, answered, answers, afterAnswer⟩ := bind_eq_ok.mp afterScan
    rw [takeFresh_iterate] at answers
    have seesHere : (blockIndex (fun n => printed.fresh (n + (index + 1))) req.args).isSome = true := by
      simpa [World.seesBlock, isIndex] using sees
    obtain ⟨rfl, _⟩ := handleSingleXread_blocks
      (w := { printed with fresh := fun n => printed.fresh (n + (index + 1)) }) seesHere later answers
    simp only [pure_run, Except.ok.injEq, Prod.mk.injEq] at afterAnswer
    obtain ⟨rfl, rfl⟩ := afterAnswer
    obtain rfl : answered = t := by simpa using sends
    exact ⟨_, seesHere, answers⟩

theorem xread_blocks {clientFd : Int} (sees : w.seesBlock req = true) (later : w.answersLater req = true)
    (run : handleStreamPrint req ptr clientFd .xread w = .ok ((), t)) :
    ∃ client', t.heap ptr = some client' ∧ client'.isBlocked = true := by
  obtain ⟨fresh, seesHere, single⟩ := xread_single sees later run
  exact (handleSingleXread_blocks (w := { w with fresh }) seesHere later single).2

end Xread

/-! ## A step -/

section Step

variable {w t : World D} {req : RespRequest} {ptr : ClientPtr} {client : Client}

theorem Clientwise.occupant {related : ClientPtr → Client → Client → Prop}
    (clientwise : Clientwise related w t) {slot : ClientSlot} {client' : Client}
    (isClient' : t.occupant slot = some client') :
    ∃ ptr client, w.clients slot = some ptr ∧ w.heap ptr = some client ∧ w.occupant slot = some client ∧
      related ptr client client' := by
  obtain ⟨ptr, inSlot, found'⟩ := Option.bind_eq_some_iff.mp isClient'
  obtain ⟨client, found, _, holds⟩ := clientwise.back found'
  rw [clientwise.clients] at inSlot
  exact ⟨ptr, client, inSlot, found, by simp [World.occupant, inSlot, found], holds⟩

theorem World.Settled.of_still (settled : w.Settled) (still : Still w t) : t.Settled := by
  intro slot client' isClient'
  obtain ⟨_, client, _, _, isClient, same⟩ := still.toClientwise.occupant isClient'
  exact same.settled (settled slot client isClient)

/-- One client is changed. -/
theorem World.Settled.of_update (settled : w.Settled) {client' : Client} (found : w.heap ptr = some client)
    (settled' : (∃ slot, w.occupant slot = some client) → client'.Settled) (clients : t.clients = w.clients)
    (heap : t.heap = Function.update w.heap ptr (some client')) : t.Settled := by
  intro slot other isOther
  obtain ⟨there, inSlot, found'⟩ := Option.bind_eq_some_iff.mp isOther
  rw [clients] at inSlot
  rw [heap] at found'
  by_cases same : there = ptr
  · subst same
    obtain rfl : client' = other := by simpa using found'
    exact settled' ⟨slot, by simp [World.occupant, inSlot, found]⟩
  · rw [Function.update_of_ne same] at found'
    exact settled slot other (by simp [World.occupant, inSlot, found'])

theorem settled_rpush {clientFd : Int} (settled : w.Settled)
    (alone : ∀ key ∈ req.args[0]?, ∀ slot, ∀ client ∈ w.occupant slot, client.waitsFor key →
      client.isWaiting = false)
    (run : handleRpush req clientFd w = .ok ((), t)) : t.Settled := by
  by_cases enough : 2 ≤ req.argc
  · obtain ⟨key, list, expiresAt, opened, isKey, opens, pushes⟩ := handleRpush_ok enough run
    cases pushes with
    | unserved nobody keeps stores =>
      rw [keeps]
      exact settled
    | served ptr client first rest longest found elements keeps stores =>
      obtain ⟨waiter, member⟩ := longestOf_mem longest
      obtain ⟨slot, inSlot, foundWaiter, waits⟩ := mem_waiters.mp member
      obtain rfl : client = waiter := Option.some.inj (found.symm.trans foundWaiter)
      have isOccupant : w.occupant slot = some client := by simp [World.occupant, inSlot, found]
      have woken := (settled slot client isOccupant).woken waits.1
        (alone key isKey slot client isOccupant waits)
      exact settled.of_update found (fun _ => woken) (by rw [keeps]) (by rw [keeps])
  · unfold handleRpush at run
    rw [if_pos (by omega)] at run
    rw [send_run run]
    exact settled

theorem settled_blpop [Externals D] (settled : w.Settled) (command : req.command = .blpop)
    (fresh : Blocks w req → ∀ client ∈ w.heap ptr, client.minId = none)
    (run : handleBlpop req ptr w = .ok ((), t)) : t.Settled := by
  cases handleBlpop_ok run with
  | nothing few same => exact same ▸ settled
  | popped key first rest expiresAt client enough isKey bound found keeps stores =>
    rw [keeps]
    exact settled
  | blocked key client timeoutAt blockedAt enough isKey empty found keeps =>
    have blocks : Blocks w req := by
      refine .inl ⟨command, enough, fun key' isKey' => ?_⟩
      obtain rfl : key = key' := Option.some.inj (isKey.symm.trans isKey')
      obtain unbound | ⟨expiresAt, bound⟩ := empty
      · exact elements_of_unbound unbound
      · exact elements_of_list bound
    have blocked : (client.blockedFor key timeoutAt blockedAt).Settled :=
      .blockedFor (fresh blocks client found) key timeoutAt blockedAt
    exact settled.of_update found (fun _ => blocked) (by rw [keeps]) (by rw [keeps])

theorem settled_wait {clientFd : Int} (settled : w.Settled) (run : handleWait req clientFd w = .ok ((), t)) :
    t.Settled := by
  cases handleWait_ok run with
  | answered wanted isWanted enough keeps =>
    rw [keeps]
    exact settled
  | pending wanted asked isWanted few asks marks =>
    have asking : asked.Settled := by
      rw [asks]
      exact settled
    obtain ⟨rfl, _⟩ | ⟨marked, waiting, timeoutAt, marks⟩ := marks
    · exact asking
    · refine asking.of_update marks.found (fun ⟨slot, isOccupant⟩ => ?_) (by rw [marks.keeps])
        (by rw [marks.keeps])
      exact (asking slot waiting isOccupant).waitingUntil timeoutAt

theorem settled_xadd {clientFd : Int} (settled : w.Settled)
    (alone : ∀ key ∈ req.args[0]?, ∀ slot, ∀ client ∈ w.occupant slot, client.reads key →
      client.isWaiting = false)
    (run : handleSet req .stream clientFd w = .ok ((), t)) : t.Settled := by
  obtain still | ⟨key, isKey, delivers⟩ := handleXadd_delivers run
  · exact settled.of_still still
  · intro slot client' isClient'
    obtain ⟨_, client, _, _, isClient, same | ⟨reads, woken⟩⟩ := delivers.toClientwise.occupant isClient'
    · exact same.settled (settled slot client isClient)
    · exact SameBlocking.settled woken
        ((settled slot client isClient).delivered reads (alone key isKey slot client isClient reads))

theorem settled_xread {clientFd : Int} (settled : w.Settled)
    (unblocked : w.seesBlock req = true → ∀ client ∈ w.heap ptr, client.isBlpop = false ∧
      (client.isBlocked = false → w.answersLater req = true))
    (run : handleStreamPrint req ptr clientFd .xread w = .ok ((), t)) : t.Settled := by
  cases sees : w.seesBlock req with
  | false => exact settled.of_still (still_xread sees run)
  | true =>
    intro slot client' isClient'
    have reads := handleXread_readsOnly run
    obtain ⟨other, client, inSlot, found, isClient, readBy⟩ := reads.toClientwise.occupant isClient'
    unfold ReadBy at readBy
    by_cases isSender : other = ptr
    · subst isSender
      rw [if_pos rfl] at readBy
      obtain ⟨notBlpop, later⟩ := unblocked sees client found
      have found' : t.heap other = some client' := by
        have inSlot' : t.clients slot = some other := reads.clients ▸ inSlot
        simpa [World.occupant, inSlot'] using isClient'
      -- the sender is blocked afterwards, and not by BLPOP
      have blocked' : client'.isBlocked = true := by
        cases blocked : client.isBlocked with
        | true => exact readBy.2 blocked
        | false =>
          obtain ⟨client'', found'', blocked''⟩ := xread_blocks sees (later blocked) run
          obtain rfl : client' = client'' := Option.some.inj (found'.symm.trans found'')
          exact blocked''
      have notBlpop' : client'.isBlpop = false := (congrArg Blocking.isBlpop readBy.1).trans notBlpop
      exact ⟨fun unblocked' => by simp [blocked'] at unblocked', fun _ isBlpop' => by simp [notBlpop'] at isBlpop'⟩
    · rw [if_neg isSender] at readBy
      exact readBy.settled (settled slot client isClient)

theorem settled_arm [Externals D] (settled : w.Settled) (resets : CommandResets w ptr req)
    (run : arm req ptr client w = .ok ((), t)) : t.Settled := by
  obtain ⟨rpush, xadd, blpop, xread⟩ := resets
  by_cases unblocking : changesBlocking req.command = false
  · exact settled.of_still (still_arm unblocking run)
  unfold arm at run
  cases command : req.command with
  | rpush => exact settled_rpush settled (rpush command) (by simpa [command] using run)
  | blpop => exact settled_blpop settled command (blpop command) (by simpa [command] using run)
  | wait => exact settled_wait settled (by simpa [command] using run)
  | xadd => exact settled_xadd settled (xadd command) (by simpa [command] using run)
  | xread => exact settled_xread settled (xread command) (by simpa [command] using run)
  | _ => simp [command, changesBlocking] at unblocking

end Step

/-! ## The timers -/

section Timers

variable {w t : World D} {client : Client}

/-- A client after its round of the timers. -/
theorem Client.Settled.expired {now later : Int} (settled : client.Settled)
    (xread : client.dueXread now → client.waitingForKey = none ∧ client.minId = none)
    (blpop : client.dueBlpop later → client.isWaiting = false) : (client.expired now later).Settled := by
  unfold Client.expired
  split
  · rename_i due
    obtain ⟨noKey, noMinId⟩ := xread due
    obtain ⟨_, _, _, _, notWaiting, notBlpop⟩ := due
    exact ⟨fun _ => ⟨by simpa [Client.unblocked] using notBlpop, by simpa [Client.unblocked] using notWaiting, noKey, noMinId⟩,
      fun _ _ => noMinId⟩
  · split
    · rename_i due
      exact settled.woken due.1 (blpop due)
    · exact settled

/-- The fields of a client whose time is over, where a WAIT on its descriptor ends in the same pass. -/
theorem expired_alone {now later : Int} (settled : client.Settled)
    (xread : client.dueXread now → client.waitingForKey = none ∧ client.minId = none)
    (wait : ¬ client.dueBlpop later →
      client.isBlpop = false ∧ client.waitingForKey = none ∧ client.minId = none) :
    (client.expired now later).isBlpop = false ∧ (client.expired now later).waitingForKey = none ∧
      (client.expired now later).minId = none := by
  unfold Client.expired
  split
  · rename_i due
    obtain ⟨noKey, noMinId⟩ := xread due
    exact ⟨by simpa [Client.unblocked] using due.2.2.2.2.2, noKey, noMinId⟩
  · split
    · rename_i due
      exact ⟨rfl, rfl, settled.noMinId due.1⟩
    · rename_i notDue
      exact wait notDue

/-- The client of a slot after the rounds of all slots. -/
theorem Expires.occupant {slot : ClientSlot} {client' : Client} (inUse : slot ∈ w.active)
    (oneSlot : w.OneSlot) (expires : Expires w.tick (w.clock 0) w.active t)
    (isClient' : t.occupant slot = some client') :
    ∃ client, w.occupant slot = some client ∧ client' = client.expired (w.clock 0) (w.clock slot.val) := by
  have sameClients : t.clients = w.clients := by rw [expires.keeps]; rfl
  obtain ⟨ptr, inSlot, found'⟩ := Option.bind_eq_some_iff.mp isClient'
  rw [sameClients] at inSlot
  cases found : w.heap ptr with
  | none => simp [expires.free ptr found] at found'
  | some client =>
    refine ⟨client, by simp [World.occupant, inSlot, found], ?_⟩
    obtain ⟨nowhere, _⟩ | ⟨i, other, isSlot, inOther, expired⟩ := expires.heap ptr client found
    · exact absurd inSlot (nowhere slot inUse)
    · obtain rfl := oneSlot _ _ _ inOther inSlot
      rw [active_getElem isSlot]
      exact Option.some.inj (found'.symm.trans expired)

theorem settled_timers (settled : w.Settled) (oneSlot : w.OneSlot)
    (inUse : ∀ slot, w.clients slot ≠ none → slot ∈ w.active) (resets : TimersReset w)
    (run : runTimers w = .ok ((), t)) : t.Settled := by
  obtain ⟨expired, expires, completes⟩ := runTimers_ok oneSlot run
  have sameClients : expired.clients = w.clients := by rw [expires.keeps]; rfl
  -- first the reads and pops that are due, then the WAIT
  have expiredOccupant {slot : ClientSlot} {client' : Client}
      (isClient' : expired.occupant slot = some client') : ∃ client, w.occupant slot = some client ∧
        client' = client.expired (w.clock 0) (w.clock slot.val) := by
    refine expires.occupant (inUse slot fun empty => ?_) oneSlot isClient'
    simp [World.occupant, sameClients, empty] at isClient'
  have expiredSettled : expired.Settled := by
    intro slot client' isClient'
    obtain ⟨client, isClient, rfl⟩ := expiredOccupant isClient'
    obtain ⟨xread, blpop, _⟩ := resets slot client isClient
    exact (settled slot client isClient).expired xread blpop
  cases completes with
  | idle nobody same => exact same ▸ expiredSettled
  | waits few notDue same => exact same ▸ expiredSettled
  | completes somebody enough keeps free heap =>
    -- a deadline that ran out for a pop or a read completes no WAIT
    have ends : w.completions (w.clock 0) ≠ [] := by
      have sameAnswer : expired.completions (w.clock 0) = w.completions (w.clock 0) :=
        expires.completions_eq (w.clock 0)
      rw [← sameAnswer, World.completions, if_pos ⟨somebody, enough⟩]
      simp
    have sameFd : expired.serverConfig.waitClientFd = w.serverConfig.waitClientFd := by
      rw [expires.keeps]
      rfl
    intro slot client'' isClient''
    obtain ⟨ptr, inSlot, found''⟩ := Option.bind_eq_some_iff.mp isClient''
    have inSlot' : expired.clients slot = some ptr := by
      rw [keeps] at inSlot
      exact inSlot
    cases found' : expired.heap ptr with
    | none => simp [free ptr found'] at found''
    | some client' =>
      have isClient' : expired.occupant slot = some client' := by simp [World.occupant, inSlot', found']
      obtain ⟨_, kept⟩ | ⟨_, ended⟩ := heap ptr client' found'
      · obtain rfl : client' = client'' := Option.some.inj (kept.symm.trans found'')
        exact expiredSettled slot client' isClient'
      · obtain rfl : client'.waitEnded expired.serverConfig.waitClientFd = client'' :=
          Option.some.inj (ended.symm.trans found'')
        refine (expiredSettled slot client' isClient').waitEnded fun isOwn => ?_
        obtain ⟨client, isClient, rfl⟩ := expiredOccupant isClient'
        obtain ⟨xread, _, wait⟩ := resets slot client isClient
        refine expired_alone (settled slot client isClient) xread (wait ends ?_)
        rw [← sameFd, ← isOwn]
        exact (expired_fields client _ _).1.symm

end Timers

/-! ## The runs -/

section Runs

variable [Externals D] {s t u : Server D} {event : Event}

theorem settled_step (wellFormed : WellFormed s) (settled : s.world.Settled) (resets : Resets s event)
    (step : Step s event t) : t.world.Settled := by
  have reblocks := reblocks_of_step wellFormed.outside step
  generalize t.world = w' at reblocks
  cases reblocks with
  | still undispatched still => exact settled.of_still still
  | ran ptr req client dispatches found runs after =>
    have commandResets : CommandResets s.world ptr req := by
      cases event with
      | timers => simp [Dispatches, Server.calls] at dispatches
      | _ => exact resets ptr req dispatches
    have noted : (s.world.noted req).Settled := settled
    exact (settled_arm noted commandResets runs).of_still after
  | expired runs =>
    refine settled_timers settled wellFormed.distinct (fun slot occupied => ?_) resets runs
    exact mem_active.mpr ((wellFormed.inUse slot).mp occupied)
  | connected slot isNext free =>
    intro slot' client' isClient'
    obtain ⟨ptr, inSlot, found⟩ := Option.bind_eq_some_iff.mp isClient'
    obtain ⟨_, rfl⟩ | ⟨inSlot', found'⟩ := connected_accept inSlot found
    · exact settled_newClient _
    · exact settled slot' client' (by simp [World.occupant, inSlot', found'])
  | disconnected last ptr isLast occupied =>
    intro slot' client' isClient'
    obtain ⟨other, inSlot, found⟩ := Option.bind_eq_some_iff.mp isClient'
    obtain ⟨slot'', inSlot', found'⟩ := connected_drop inSlot found
    exact settled slot'' client' (by simp [World.occupant, inSlot', found'])

/-- An XADD leaves a client blocked that BLPOP blocks. -/
theorem xadd_keeps_blpop (wellFormed : WellFormed s) (settled : s.world.Settled) (step : Step s event t)
    {ptr other : ClientPtr} {req : RespRequest} {slot : ClientSlot} {client client' : Client}
    (dispatches : Dispatches s event ptr req) (isXadd : req.command = .xadd)
    (inSlot : s.world.clients slot = some other) (found : s.world.heap other = some client)
    (blocked : client.isBlocked = true) (isBlpop : client.isBlpop = true)
    (found' : t.world.heap other = some client') : client'.isBlocked = true := by
  have isClient : s.world.occupant slot = some client := by simp [World.occupant, inSlot, found]
  obtain ⟨sender, handled, _, arms, _, after⟩ := arm_of_step wellFormed.outside step dispatches
  unfold arm at arms
  rw [isXadd] at arms
  obtain still | ⟨key, _, delivers⟩ := handleXadd_delivers arms
  · obtain ⟨between, foundBetween, _, same⟩ := (still.trans after).heap other client found
    obtain rfl : between = client' := Option.some.inj (foundBetween.symm.trans found')
    exact (congrArg Blocking.isBlocked same).trans blocked
  · obtain ⟨between, foundBetween, _, delivered⟩ := delivers.heap other client found
    obtain ⟨final, foundFinal, _, same⟩ := after.heap other between foundBetween
    obtain rfl : final = client' := Option.some.inj (foundFinal.symm.trans found')
    obtain kept | ⟨reads, _⟩ := delivered
    · exact (congrArg Blocking.isBlocked (same.trans kept)).trans blocked
    · exact absurd ((settled slot client isClient).noMinId isBlpop) reads.2.2

/-- In the runs whose steps leave nothing over, no field of a blocking command outlives the command, and no
XADD wakes a client that BLPOP blocks. -/
theorem blocked_state (entry : AtLoopEntry s) (run : Run Step Resets s t) :
    t.world.Settled ∧
      ∀ event u ptr req slot other client client', Step t event u → Dispatches t event ptr req →
        req.command = .xadd → t.world.clients slot = some other → t.world.heap other = some client →
        client.isBlocked = true → client.isBlpop = true → u.world.heap other = some client' →
        client'.isBlocked = true := by
  have atEntry : s.world.Settled := fun slot client isClient => by
    simp [World.occupant, entry.clients] at isClient
  have settled : t.world.Settled :=
    entry.wellFormed.invariant (fun _ _ _ wellFormed settled resets step =>
      settled_step wellFormed settled resets step) run atEntry
  exact ⟨settled, fun event u ptr req slot other client client' step dispatches isXadd inSlot found blocked
    isBlpop found' => xadd_keeps_blpop (wellFormed_run run entry.wellFormed) settled step dispatches isXadd
      inSlot found blocked isBlpop found'⟩

/-- The first client waits for a list, and the second one appends to a stream of the same key. -/
theorem blocked_state_blpop : ∃ (t u : Server Int) (client client' : Client),
    t.world.heap 0 = some client ∧ client.isBlpop = true ∧ client.minId = none ∧
      u.world.heap 0 = some client' ∧ client'.isBlocked = true := by
  let append := arrival secondSlot [lit "XADD", lit "k", lit "5-1", lit "f", lit "v"]
  obtain ⟨t, run, checked⟩ := exists_run_of_play
    (show (play Resets tickingServer [.connect 5 0, .connect 6 1, waitForK, .timers]).any
      (fun t => decide (t.world.clients firstSlot = some 0) && (decide (t.world.clients secondSlot = some 1) &&
        ((t.world.heap 1).any (fun client => reachesArm client
          (requestOf [lit "XADD", lit "k", lit "5-1", lit "f", lit "v"])) &&
        ((t.world.heap 0).any (fun client => client.isBlocked && client.isBlpop) &&
          (next t append).any fun u => (u.world.heap 0).isSome)))) = true by
      decide +kernel)
  simp only [Bool.and_eq_true, decide_eq_true_eq, Option.any_eq_true] at checked
  obtain ⟨inFirst, inSecond, ⟨sender, foundSender, reaches⟩, ⟨client, found, blocked, isBlpop⟩, u, isNext,
    isSome⟩ := checked
  obtain ⟨client', found'⟩ := Option.isSome_iff_exists.mp isSome
  have entry : AtLoopEntry tickingServer :=
    ⟨rfl, fun _ => rfl, rfl, fun _ => rfl, fun _ => rfl, rfl⟩
  obtain ⟨settled, stays⟩ := blocked_state entry run
  have dispatches : Dispatches t append 1 (requestOf [lit "XADD", lit "k", lit "5-1", lit "f", lit "v"]) :=
    ⟨by simp [append, arrival, Server.calls, inSecond], sender, foundSender, reaches⟩
  have isClient : t.world.occupant firstSlot = some client := by simp [World.occupant, inFirst, found]
  exact ⟨t, u, client, client', found, isBlpop, (settled firstSlot client isClient).noMinId isBlpop, found',
    stays append u 1 _ firstSlot 0 client client' (next_step isNext) dispatches rfl inFirst found blocked
      isBlpop found'⟩

/-- An XREAD that is over leaves its `min_id`, and the XADD of another client then wakes the BLPOP that
follows. -/
theorem stale_min_id_wakes : ∃ (s t : Server Int) (event : Event) (stale blocked woken : Client),
    Runs tickingServer s ∧ s.world.occupant firstSlot = some stale ∧
      stale.isBlocked = false ∧ stale.waitingForKey ≠ none ∧ stale.minId ≠ none ∧
    ∃ u, Runs s t ∧ t.world.occupant firstSlot = some blocked ∧ blocked.isBlpop = true ∧
      blocked.isBlocked = true ∧ blocked.minId ≠ none ∧ Step t event u ∧
      u.world.occupant firstSlot = some woken ∧ woken.isBlocked = false ∧ woken.isBlpop = true := by
  let append := arrival secondSlot [lit "XADD", lit "k", lit "5-1", lit "f", lit "v"]
  obtain ⟨s, run, checked⟩ := exists_run_of_play
    (show (play (fun _ _ => True) tickingServer [.connect 5 0, .connect 6 1,
        arrival firstSlot [lit "XREAD", lit "BLOCK", lit "1", lit "STREAMS", lit "k", lit "0-1"], .timers]).any
      (fun s => (s.world.occupant firstSlot).any (fun stale => !stale.isBlocked && (decide
          (stale.waitingForKey ≠ none) && decide (stale.minId ≠ none))) &&
        (play (fun _ _ => True) s [waitForK]).any fun t => (t.world.occupant firstSlot).any (fun blocked =>
          blocked.isBlpop && (blocked.isBlocked && decide (blocked.minId ≠ none))) &&
        (next t append).any fun u => (u.world.occupant firstSlot).any fun woken =>
          !woken.isBlocked && woken.isBlpop) = true by
      decide +kernel)
  simp only [Bool.and_eq_true, decide_eq_true_eq, Option.any_eq_true, Bool.not_eq_true'] at checked
  obtain ⟨⟨stale, isStale, unblocked, key, minId⟩, t, plays, ⟨blocked, isBlocked, blpop, blocks, minId'⟩, u,
    isNext, woken, isWoken, wakes, stays⟩ := checked
  exact ⟨s, t, append, stale, blocked, woken, run, isStale, unblocked, key, minId, u, play_run plays, isBlocked,
    blpop, blocks, minId', next_step isNext, isWoken, wakes, stays⟩

end Runs

end RedisClone
