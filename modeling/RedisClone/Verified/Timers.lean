import Mathlib.Data.List.Intervals
import RedisClone.Verified.Blocking

/-! # What the timers do

Every pass ends the XREADs and BLPOPs whose time is over, slot by slot, and then a WAIT that can be answered.
`Expires` says what becomes of every client, `World.expiries` what is sent.
-/

namespace RedisClone

open Exec CString

variable {D : Type}

/-! ## The clients that are due -/

/-- The time of a client that is blocked by XREAD is over. -/
def Client.dueXread (client : Client) (now : Int) : Prop :=
  client.isBlocked ∧ client.timeoutAt ≠ 0 ∧ client.timeoutAt ≤ now ∧ ¬ client.isReplica ∧
    ¬ client.isWaiting ∧ ¬ client.isBlpop

instance (client : Client) (now : Int) : Decidable (client.dueXread now) :=
  inferInstanceAs (Decidable (_ ∧ _))

/-- The time of a client that is blocked by BLPOP is over. -/
def Client.dueBlpop (client : Client) (now : Int) : Prop :=
  client.isBlpop ∧ client.timeoutAt ≠ 0 ∧ client.timeoutAt ≤ now

instance (client : Client) (now : Int) : Decidable (client.dueBlpop now) :=
  inferInstanceAs (Decidable (_ ∧ _))

/-- The client after its XREAD ended. -/
def Client.unblocked (client : Client) : Client := { client with isBlocked := false }

/-- A client after its round of the timers; `handle_endblpop` reads the clock again. -/
def Client.expired (client : Client) (now later : Int) : Client :=
  if client.dueXread now then client.unblocked
  else if client.dueBlpop later then client.woken
  else client

/-- What a BLPOP whose time is over is answered: the first element, where there is one. -/
def expiryReply (table : Table D) (key : Bytes) : Bytes :=
  match binding table key with
  | some ⟨.list (first :: _), _⟩ => (popReply key first).take 1023
  | _ => nilArray

/-- What is sent in the round of a slot. -/
def World.expiryAt (w : World D) (now later : Int) (slot : ClientSlot) : List (Int × Bytes) :=
  match w.occupant slot with
  | none => []
  | some client =>
    if client.dueXread now then [((w.watchList slot).fd, nilArray)]
    else if client.dueBlpop later then
      client.waitingForKey.toList.map fun key => (client.fd, expiryReply w.table key)
    else []

/-- What is sent in the rounds of some slots, with a reading of the clock for each. -/
def World.expiries (w : World D) (now : Int) : (clock : Nat → Int) → List ClientSlot →
    List (Int × Bytes)
  | _, [] => []
  | clock, slot :: slots =>
    w.expiryAt now (clock 0) slot ++ w.expiries now (fun n => clock (n + 1)) slots

theorem endblpopReply_ok {key reply : Bytes} {w t : World D}
    (run : endblpopReply key w = .ok (reply, t)) : t = w ∧ reply = expiryReply w.table key := by
  unfold endblpopReply hasListValue at run
  obtain ⟨hasValue, asked, asks, rest⟩ := bind_eq_ok.mp run
  obtain ⟨unbound, missing⟩ | ⟨values, expiresAt, bound, found⟩ :=
    withPayload_ok asList_takesOut asks
  · simp only [pure_run, Except.ok.injEq, Prod.mk.injEq] at missing
    obtain ⟨rfl, rfl⟩ := missing
    simp only [Bool.false_eq_true, if_false, pure_run, Except.ok.injEq, Prod.mk.injEq] at rest
    refine ⟨rest.2.symm, ?_⟩
    rw [← rest.1, expiryReply, unbound]
  · simp only [pure_run, Except.ok.injEq, Prod.mk.injEq] at found
    obtain ⟨rfl, rfl⟩ := found
    cases values with
    | nil =>
      simp only [List.isEmpty_nil, Bool.not_true, Bool.false_eq_true, if_false, pure_run,
        Except.ok.injEq, Prod.mk.injEq] at rest
      refine ⟨rest.2.symm, ?_⟩
      rw [← rest.1, expiryReply, bound]
    | cons first values =>
      simp only [List.isEmpty_cons, Bool.not_false, if_true] at rest
      obtain ⟨unbound, _⟩ | ⟨values', expiresAt', bound', takes⟩ :=
        withPayload_ok asList_takesOut rest
      · simp [bound] at unbound
      · obtain ⟨⟨rfl⟩, rfl⟩ : Value.list (D := D) (first :: values) = .list values' ∧
            expiresAt = expiresAt' := by simpa [bound] using bound'
        simp only [List.head?_cons, pure_run, Except.ok.injEq, Prod.mk.injEq] at takes
        refine ⟨takes.2.symm, ?_⟩
        rw [← takes.1, expiryReply, bound]

/-! ## The round of a slot -/

/-- The round of a slot changes its client only. -/
structure ExpiresAt (w : World D) (now : Int) (slot : ClientSlot) (w' : World D) : Prop where
  keeps : w' = { w with
    clock := fun n => w.clock (n + 1)
    sent := w.sent ++ w.expiryAt now (w.clock 0) slot
    heap := w'.heap }
  heap : ∀ ptr, w'.heap ptr =
    if w.clients slot = some ptr then (w.heap ptr).map fun client => client.expired now (w.clock 0)
    else w.heap ptr

theorem expireXread_ok {now : Int} {slot : ClientSlot} {w w' : World D}
    (run : expireXread now slot w = .ok ((), w')) :
    w' = w ∧ (∀ client, w.occupant slot = some client → ¬ client.dueXread now) ∨
      ∃ ptr client, w.clients slot = some ptr ∧ w.heap ptr = some client ∧ client.dueXread now ∧
        w' = (w.emit (w.watchList slot).fd nilArray).setClient ptr client.unblocked := by
  obtain ⟨occupant, looked, look, expires⟩ := bind_eq_ok.mp run
  obtain ⟨rfl, inSlot, found⟩ := clientAt_run look
  have here := (occupant_of_clientAt look).2
  cases occupant with
  | none =>
    obtain rfl : looked = w' := by simpa using expires
    exact .inl ⟨rfl, by simp [here]⟩
  | some occupant =>
    obtain ⟨ptr, client⟩ := occupant
    have inHeap := found ptr client rfl
    dsimp only at expires
    split at expires
    · rename_i due
      rw [bind_of_ok (observe_run _ looked)] at expires
      obtain ⟨_, sent, sends, unblocks⟩ := bind_eq_ok.mp expires
      obtain rfl := send_run sends
      obtain ⟨client', found', rfl⟩ := updateClient_eq_ok.mp unblocks
      obtain rfl : client = client' := Option.some.inj (inHeap.symm.trans found')
      exact .inr ⟨ptr, client, inSlot, inHeap, due, rfl⟩
    · rename_i notDue
      obtain rfl : looked = w' := by simpa using expires
      refine .inl ⟨rfl, fun client' isClient => ?_⟩
      obtain rfl : client = client' := by simpa [here] using isClient
      exact notDue

theorem handleEndblpop_ok {clientPtr : Option ClientPtr} {w w' : World D}
    (run : handleEndblpop clientPtr w = .ok ((), w')) :
    w' = w.tick ∧ (∀ client, clientPtr.bind w.heap = some client → ¬ client.dueBlpop (w.clock 0)) ∨
      ∃ ptr client key, clientPtr = some ptr ∧ w.heap ptr = some client ∧
        client.dueBlpop (w.clock 0) ∧ client.waitingForKey = some key ∧
        w' = (w.tick.emit client.fd (expiryReply w.table key)).setClient ptr client.woken := by
  unfold handleEndblpop at run
  rw [bind_of_ok (show getCurrentTimeMs w = .ok (w.clock 0, w.tick) from rfl)] at run
  cases clientPtr with
  | none =>
    obtain rfl : w.tick = w' := by simpa using run
    exact .inl ⟨rfl, by simp⟩
  | some ptr =>
    obtain ⟨client, loaded, load, rest⟩ := bind_eq_ok.mp run
    obtain ⟨found, rfl⟩ := loadClient_eq_ok.mp load
    split at rest
    · rename_i due
      cases waits : client.waitingForKey with
      | none => simp [waits, fault] at rest
      | some key =>
        simp only [waits] at rest
        obtain ⟨reply, replied, replies, afterReply⟩ := bind_eq_ok.mp rest
        obtain ⟨rfl, rfl⟩ := endblpopReply_ok replies
        obtain ⟨_, sent, sends, wakes⟩ := bind_eq_ok.mp afterReply
        obtain rfl := send_run sends
        obtain ⟨client', found', rfl⟩ := updateClient_eq_ok.mp wakes
        obtain rfl : client = client' := Option.some.inj (found.symm.trans found')
        exact .inr ⟨ptr, client, key, rfl, found, due, waits, rfl⟩
    · rename_i notDue
      obtain rfl : w.tick = w' := by simpa using rest
      refine .inl ⟨rfl, fun client' isClient => ?_⟩
      obtain rfl : client = client' := Option.some.inj (found.symm.trans isClient)
      exact notDue

theorem heap_setClient_eq {w : World D} {ptr : ClientPtr} {client client' : Client}
    (found : w.heap ptr = some client) {f : Client → Client} (isImage : f client = client')
    (other : ClientPtr) :
    (w.setClient ptr client').heap other =
      if some ptr = some other then (w.heap other).map f else w.heap other := by
  by_cases same : other = ptr
  · subst same
    simp [World.setClient, found, isImage]
  · simp [World.setClient, same, Ne.symm same]

theorem expireClient_ok {now : Int} {slot : ClientSlot} {w w' : World D}
    (run : expireClient now slot w = .ok ((), w')) : ExpiresAt w now slot w' := by
  unfold expireClient at run
  obtain ⟨_, after, xread, rest⟩ := bind_eq_ok.mp run
  rw [bind_of_ok (observe_run _ after)] at rest
  obtain ⟨rfl, notXread⟩ | ⟨ptr, client, inSlot, found, due, rfl⟩ := expireXread_ok xread
  · obtain ⟨rfl, notBlpop⟩ | ⟨ptr, client, key, inSlot, found, due, waits, rfl⟩ :=
      handleEndblpop_ok rest
    · -- nobody's time is over
      cases here : after.occupant slot with
      | none =>
        have nobody (ptr : ClientPtr) (inSlot : after.clients slot = some ptr) :
            after.heap ptr = none := by simpa [World.occupant, inSlot] using here
        refine ⟨by simp [World.expiryAt, here, World.tick], fun ptr => ?_⟩
        split
        · rename_i inSlot
          simp [World.tick, nobody ptr inSlot]
        · rfl
      | some client =>
        have still : client.expired now (after.clock 0) = client := by
          rw [Client.expired, if_neg (notXread client here), if_neg (notBlpop client here)]
        have silent : after.expiryAt now (after.clock 0) slot = [] := by
          simp only [World.expiryAt, here]
          rw [if_neg (notXread client here), if_neg (notBlpop client here)]
        refine ⟨by simp [silent, World.tick], fun ptr => ?_⟩
        split
        · rename_i inSlot
          have found : after.heap ptr = some client := by
            simpa [World.occupant, inSlot] using here
          simp [World.tick, found, still]
        · rfl
    · have here : after.occupant slot = some client := by simp [World.occupant, inSlot, found]
      have woken : client.expired now (after.clock 0) = client.woken := by
        rw [Client.expired, if_neg (notXread client here), if_pos due]
      have text : after.expiryAt now (after.clock 0) slot =
          [(client.fd, expiryReply after.table key)] := by
        simp only [World.expiryAt, here, waits, Option.toList_some, List.map_cons, List.map_nil]
        rw [if_neg (notXread client here), if_pos due]
      refine ⟨by rw [text]; rfl, fun other => ?_⟩
      rw [inSlot]
      exact heap_setClient_eq (w := after.tick.emit client.fd _) found woken other
  · -- a client whose XREAD ended is not blocked by BLPOP
    have here : w.occupant slot = some client := by simp [World.occupant, inSlot, found]
    have unblocked : client.expired now (w.clock 0) = client.unblocked := if_pos due
    have text : w.expiryAt now (w.clock 0) slot = [((w.watchList slot).fd, nilArray)] := by
      simp only [World.expiryAt, here]
      exact if_pos due
    have foundAfter : ((w.emit (w.watchList slot).fd nilArray).setClient ptr client.unblocked).heap
        ptr = some client.unblocked := Function.update_self _ _ _
    obtain ⟨rfl, _⟩ | ⟨ptr', client', key, inSlot', found', due', _⟩ := handleEndblpop_ok rest
    · refine ⟨by rw [text]; rfl, fun other => ?_⟩
      rw [inSlot]
      exact heap_setClient_eq (w := w.emit _ _) found unblocked other
    · obtain rfl : ptr = ptr' := Option.some.inj (inSlot.symm.trans inSlot')
      obtain rfl : client.unblocked = client' := Option.some.inj (foundAfter.symm.trans found')
      exact absurd due'.1 due.2.2.2.2.2

/-! ## The rounds of all slots -/

/-- No client is in two slots. -/
def World.OneSlot (w : World D) : Prop :=
  ∀ slot slot' ptr, w.clients slot = some ptr → w.clients slot' = some ptr → slot = slot'

/-- The rounds of some slots, with one reading of the clock for each. -/
structure Expires (w : World D) (now : Int) (slots : List ClientSlot) (w' : World D) : Prop where
  keeps : w' = { w with
    clock := fun n => w.clock (n + slots.length)
    sent := w.sent ++ w.expiries now w.clock slots
    heap := w'.heap }
  free : ∀ ptr, w.heap ptr = none → w'.heap ptr = none
  heap : ∀ ptr client, w.heap ptr = some client →
    (∀ slot ∈ slots, w.clients slot ≠ some ptr) ∧ w'.heap ptr = some client ∨
      ∃ i slot, slots[i]? = some slot ∧ w.clients slot = some ptr ∧
        w'.heap ptr = some (client.expired now (w.clock i))

/-- The round of one slot changes nothing for another. -/
theorem ExpiresAt.expiries_eq {w w' : World D} {now : Int} {slot : ClientSlot}
    (first : ExpiresAt w now slot w') (oneSlot : w.OneSlot) {slots : List ClientSlot}
    (absent : slot ∉ slots) (clock : Nat → Int) :
    w'.expiries now clock slots = w.expiries now clock slots := by
  induction slots generalizing clock with
  | nil => rfl
  | cons other slots inductionHypothesis =>
    have isOther : slot ≠ other := fun same => absent (same ▸ List.mem_cons_self)
    have sameOccupant : w'.occupant other = w.occupant other := by
      have sameClients : w'.clients = w.clients := by rw [first.keeps]
      unfold World.occupant
      rw [sameClients]
      cases inSlot : w.clients other with
      | none => rfl
      | some ptr =>
        have elsewhere : w.clients slot ≠ some ptr := fun here => isOther (oneSlot _ _ _ here inSlot)
        simp [first.heap ptr, elsewhere]
    have here : w'.expiryAt now (clock 0) other = w.expiryAt now (clock 0) other := by
      have sameFds : w'.watchList = w.watchList := by rw [first.keeps]
      have sameTable : w'.table = w.table := by rw [first.keeps]
      simp only [World.expiryAt, sameOccupant, sameFds, sameTable]
    simp only [World.expiries, here]
    rw [inductionHypothesis (fun member => absent (List.mem_cons_of_mem _ member))]

theorem forM_expireClient_ok {now : Int} {slots : List ClientSlot} {w w' : World D}
    (oneSlot : w.OneSlot) (nodup : slots.Nodup)
    (run : forM slots (expireClient now) w = .ok ((), w')) : Expires w now slots w' := by
  induction slots generalizing w with
  | nil =>
    obtain rfl : w = w' := by simpa using run
    exact ⟨by simp [World.expiries], fun _ missing => missing, fun _ _ found => .inl ⟨by simp, found⟩⟩
  | cons slot slots inductionHypothesis =>
    rw [List.forM_cons] at run
    obtain ⟨_, after, firstRun, rest⟩ := bind_eq_ok.mp run
    have first := expireClient_ok firstRun
    obtain ⟨absent, nodupRest⟩ := List.nodup_cons.mp nodup
    have sameClients : after.clients = w.clients := by rw [first.keeps]
    have later := inductionHypothesis (by unfold World.OneSlot; rwa [sameClients]) nodupRest rest
    have clockAfter (n : Nat) : after.clock n = w.clock (n + 1) := by rw [first.keeps]
    constructor
    · rw [later.keeps, first.expiries_eq oneSlot absent]
      conv_lhs => rw [first.keeps]
      simp only [World.expiries, List.append_assoc, List.length_cons]
      rfl
    · intro ptr missing
      refine later.free ptr ?_
      rw [first.heap ptr, missing]
      simp
    · intro ptr client found
      by_cases here : w.clients slot = some ptr
      · -- its round was the first one
        have foundAfter : after.heap ptr = some (client.expired now (w.clock 0)) := by
          rw [first.heap ptr, if_pos here, found]
          rfl
        obtain ⟨_, kept⟩ | ⟨i, slot', isSlot, inSlot, _⟩ := later.heap ptr _ foundAfter
        · exact .inr ⟨0, slot, rfl, here, kept⟩
        · rw [sameClients] at inSlot
          obtain rfl := oneSlot _ _ _ here inSlot
          exact absurd (List.mem_of_getElem? isSlot) absent
      · have foundAfter : after.heap ptr = some client := by rw [first.heap ptr, if_neg here, found]
        obtain ⟨nowhere, kept⟩ | ⟨i, slot', isSlot, inSlot, expired⟩ := later.heap ptr _ foundAfter
        · refine .inl ⟨fun slot' member => ?_, kept⟩
          obtain rfl | inRest := List.mem_cons.mp member
          · exact here
          · exact sameClients ▸ nowhere slot' inRest
        · refine .inr ⟨i + 1, slot', isSlot, sameClients ▸ inSlot, ?_⟩
          rw [expired, clockAfter]

/-! ## The slots in use -/

/-- The slots in use, in the order of the loops over them. -/
def World.active (w : World D) : List ClientSlot :=
  clientSlots.filter fun slot => 1 ≤ slot.val ∧ slot.val < w.activeFds

theorem activeSlots_run (w : World D) : activeSlots w = .ok (w.active, w) := rfl

theorem nodup_active (w : World D) : w.active.Nodup := (List.nodup_finRange _).filter _

theorem mem_active {w : World D} {slot : ClientSlot} :
    slot ∈ w.active ↔ 1 ≤ slot.val ∧ slot.val < w.activeFds := by
  simp [World.active, clientSlots]

/-- The slots in use are numbered from one. -/
theorem active_getElem {w : World D} {i : Nat} {slot : ClientSlot}
    (isSlot : w.active[i]? = some slot) : slot.val = i + 1 := by
  have values : w.active.map Fin.val = List.Ico 1 (min maxClients w.activeFds) := by
    have range : (List.range maxClients).filter (fun v => decide (1 ≤ v ∧ v < w.activeFds)) =
        List.Ico 1 (min maxClients w.activeFds) := by
      have both : (List.range maxClients).filter (fun v => decide (1 ≤ v ∧ v < w.activeFds)) =
          ((List.Ico 0 maxClients).filter fun v => v < w.activeFds).filter fun v => 1 ≤ v := by
        rw [List.filter_filter, List.Ico.zero_bot]
        simp
      rw [both, List.Ico.filter_lt, List.Ico.filter_le]
      rfl
    rw [← range, ← List.map_coe_finRange_eq_range, List.filter_map]
    rfl
  have isValue : (w.active.map Fin.val)[i]? = some slot.val := by simp [isSlot]
  rw [values, List.Ico] at isValue
  obtain ⟨_, same⟩ := List.getElem?_eq_some_iff.mp isValue
  rw [List.getElem_range'] at same
  omega

/-! ## The end of a WAIT -/

/-- The time of a client that is behind `wait_client_fd` is over. -/
def World.waitDue (w : World D) (now : Int) (slot : ClientSlot) : Bool :=
  (w.occupant slot).any fun client => decide (client.fd = w.serverConfig.waitClientFd ∧
    client.timeoutAt ≠ 0 ∧ client.timeoutAt ≤ now)

theorem waitTimedOut_ok {now : Int} {slots : List ClientSlot} {timedOut result : Bool} {w t : World D}
    (run : waitTimedOut now slots timedOut w = .ok (result, t)) :
    t = w ∧ result = (timedOut || slots.any (w.waitDue now)) := by
  induction slots generalizing timedOut w with
  | nil =>
    simp only [waitTimedOut, pure_run, Except.ok.injEq, Prod.mk.injEq] at run
    exact ⟨run.2.symm, by simp [run.1]⟩
  | cons slot slots inductionHypothesis =>
    unfold waitTimedOut at run
    obtain ⟨occupant, looked, look, rest⟩ := bind_eq_ok.mp run
    obtain ⟨rfl, here⟩ := occupant_of_clientAt look
    rw [List.any_cons]
    cases occupant with
    | none =>
      obtain ⟨same, isResult⟩ := inductionHypothesis rest
      exact ⟨same, by simp [isResult, World.waitDue, here]⟩
    | some occupant =>
      simp only at rest
      rw [bind_of_ok (show config looked = .ok (looked.serverConfig, looked) from rfl)] at rest
      obtain ⟨same, isResult⟩ := inductionHypothesis rest
      refine ⟨same, ?_⟩
      rw [isResult, show looked.waitDue now slot = decide (occupant.2.fd =
        looked.serverConfig.waitClientFd ∧ occupant.2.timeoutAt ≠ 0 ∧ occupant.2.timeoutAt ≤ now) by
        simp [World.waitDue, here], Bool.or_assoc]

/-- A client after the loop that ends a WAIT on this descriptor. -/
def Client.waitEnded (client : Client) (fd : Int) : Client :=
  { client with
    isBlocked := if client.fd = fd then false else client.isBlocked, isWaiting := false }

theorem endWait_ok {slot : ClientSlot} {w w' : World D} (run : endWait slot w = .ok ((), w')) :
    ∃ ptr client, w.clients slot = some ptr ∧ w.heap ptr = some client ∧
      w' = w.setClient ptr (client.waitEnded w.serverConfig.waitClientFd) := by
  obtain ⟨occupant, looked, look, rest⟩ := bind_eq_ok.mp run
  obtain ⟨rfl, inSlot, found⟩ := clientAt_run look
  cases occupant with
  | none => simp [fault] at rest
  | some occupant =>
    have inHeap := found occupant.1 occupant.2 rfl
    simp only at rest
    rw [bind_of_ok (show config looked = .ok (looked.serverConfig, looked) from rfl)] at rest
    obtain ⟨client', found', rfl⟩ := updateClient_eq_ok.mp rest
    exact ⟨occupant.1, client', inSlot, found', rfl⟩

theorem forM_endWait_ok {slots : List ClientSlot} {w w' : World D} (oneSlot : w.OneSlot)
    (nodup : slots.Nodup) (run : forM slots endWait w = .ok ((), w')) :
    w' = { w with heap := w'.heap } ∧ (∀ ptr, w.heap ptr = none → w'.heap ptr = none) ∧
      ∀ ptr client, w.heap ptr = some client →
        (∀ slot ∈ slots, w.clients slot ≠ some ptr) ∧ w'.heap ptr = some client ∨
          (∃ slot ∈ slots, w.clients slot = some ptr) ∧
            w'.heap ptr = some (client.waitEnded w.serverConfig.waitClientFd) := by
  induction slots generalizing w with
  | nil =>
    obtain rfl : w = w' := by simpa using run
    exact ⟨rfl, fun _ missing => missing, fun _ _ found => .inl ⟨by simp, found⟩⟩
  | cons slot slots inductionHypothesis =>
    rw [List.forM_cons] at run
    obtain ⟨_, after, firstRun, rest⟩ := bind_eq_ok.mp run
    obtain ⟨ptr, client, inSlot, inHeap, rfl⟩ := endWait_ok firstRun
    obtain ⟨absent, nodupRest⟩ := List.nodup_cons.mp nodup
    obtain ⟨keeps, free, heap⟩ := inductionHypothesis (by exact oneSlot) nodupRest rest
    refine ⟨keeps, fun other missing => free other ?_, fun other client' found => ?_⟩
    · have distinct : other ≠ ptr := by
        rintro rfl
        simp [inHeap] at missing
      exact (Function.update_of_ne distinct _ _).trans missing
    · by_cases same : other = ptr
      · subst same
        obtain rfl : client = client' := Option.some.inj (inHeap.symm.trans found)
        obtain ⟨_, kept⟩ | ⟨⟨slot', member, inSlot'⟩, _⟩ :=
          heap other _ (Function.update_self _ _ _)
        · exact .inr ⟨⟨slot, List.mem_cons_self, inSlot⟩, kept⟩
        · exact absurd (oneSlot _ _ _ inSlot inSlot' ▸ member) absent
      · obtain ⟨nowhere, kept⟩ | ⟨⟨slot', member, inSlot'⟩, ended⟩ :=
          heap other client' ((Function.update_of_ne same _ _).trans found)
        · refine .inl ⟨fun slot' member => ?_, kept⟩
          obtain rfl | inRest := List.mem_cons.mp member
          · rintro here
            exact same (Option.some.inj (here.symm.trans inSlot))
          · exact nowhere slot' inRest
        · exact .inr ⟨⟨slot', List.mem_cons_of_mem _ member, inSlot'⟩, ended⟩

/-- What the end of the timers does to a WAIT. -/
inductive CompletesWait (w : World D) (now : Int) (w' : World D) : Prop where
  | idle (nobody : w.serverConfig.waitClientFd = -1) (same : w' = w)
  | waits (few : (w.acknowledged w.serverConfig.capturedMasterOffset : Int) <
      w.serverConfig.wantedReplicas) (notDue : w.active.any (w.waitDue now) = false) (same : w' = w)
  | completes (somebody : w.serverConfig.waitClientFd ≠ -1)
      (enough : w.serverConfig.wantedReplicas ≤
        w.acknowledged w.serverConfig.capturedMasterOffset ∨
          w.active.any (w.waitDue now) = true)
      (keeps : w' = { w with
        sent := w.sent ++ [(w.serverConfig.waitClientFd,
          integerReply (w.acknowledged w.serverConfig.capturedMasterOffset))]
        serverConfig := { w.serverConfig with waitClientFd := -1 }
        heap := w'.heap })
      (free : ∀ ptr, w.heap ptr = none → w'.heap ptr = none)
      (heap : ∀ ptr client, w.heap ptr = some client →
        (∀ slot ∈ w.active, w.clients slot ≠ some ptr) ∧ w'.heap ptr = some client ∨
          (∃ slot ∈ w.active, w.clients slot = some ptr) ∧
            w'.heap ptr = some (client.waitEnded w.serverConfig.waitClientFd))

theorem completeWait_ok {now : Int} {w w' : World D} (oneSlot : w.OneSlot)
    (run : completeWait now w = .ok ((), w')) : CompletesWait w now w' := by
  unfold completeWait at run
  rw [bind_of_ok (show config w = .ok (w.serverConfig, w) from rfl)] at run
  split at run
  · rename_i nobody
    obtain rfl : w = w' := by simpa using run
    exact .idle nobody rfl
  · rename_i somebody
    obtain ⟨count, counted, counts, afterCount⟩ := bind_eq_ok.mp run
    obtain ⟨rfl, isCount⟩ := countReplicas_ok counts
    rw [Nat.zero_add] at isCount
    replace isCount : count = counted.acknowledged counted.serverConfig.capturedMasterOffset := isCount
    rw [bind_of_ok (activeSlots_run counted)] at afterCount
    obtain ⟨timedOut, timed, times, rest⟩ := bind_eq_ok.mp afterCount
    obtain ⟨rfl, isTimedOut⟩ := waitTimedOut_ok times
    rw [Bool.false_or] at isTimedOut
    split at rest
    · rename_i enough
      obtain ⟨_, sent, sends, afterSend⟩ := bind_eq_ok.mp rest
      obtain rfl := send_run sends
      obtain ⟨_, ended, ends, resets⟩ := bind_eq_ok.mp afterSend
      obtain ⟨keeps, free, heap⟩ := forM_endWait_ok (by exact oneSlot) (nodup_active timed) ends
      obtain rfl : _ = w' := by simpa [setConfig_run] using resets
      refine .completes somebody ?_ ?_ free heap
      · rw [← isCount, ← isTimedOut]
        exact enough
      · rw [keeps, isCount]
        rfl
    · rename_i notEnough
      obtain rfl : timed = w' := by simpa using rest
      rw [not_or] at notEnough
      refine .waits ?_ ?_ rfl
      · rw [← isCount]
        omega
      · rw [← isTimedOut]
        simpa using notEnough.2

/-- The timers of one pass. -/
theorem runTimers_ok {w w' : World D} (oneSlot : w.OneSlot) (run : runTimers w = .ok ((), w')) :
    ∃ expired, Expires w.tick (w.clock 0) w.active expired ∧
      CompletesWait expired (w.clock 0) w' := by
  unfold runTimers at run
  rw [bind_of_ok (show getCurrentTimeMs w = .ok (w.clock 0, w.tick) from rfl),
    bind_of_ok (activeSlots_run w.tick)] at run
  obtain ⟨_, expired, expires, completes⟩ := bind_eq_ok.mp run
  have rounds := forM_expireClient_ok (by exact oneSlot) (nodup_active w.tick) expires
  refine ⟨expired, rounds, completeWait_ok ?_ completes⟩
  have sameClients : expired.clients = w.clients := by rw [rounds.keeps]; rfl
  unfold World.OneSlot
  rwa [sameClients]

/-! ## What the timers send -/

/-- The answer to a WAIT, where the end of the timers sends one. -/
def World.completions (w : World D) (now : Int) : List (Int × Bytes) :=
  let server := w.serverConfig
  if server.waitClientFd ≠ -1 ∧ (server.wantedReplicas ≤ w.acknowledged server.capturedMasterOffset ∨
      w.active.any (w.waitDue now) = true) then
    [(server.waitClientFd, integerReply (w.acknowledged server.capturedMasterOffset))]
  else []

theorem CompletesWait.sent {w w' : World D} {now : Int} (completes : CompletesWait w now w') :
    w'.sent = w.sent ++ w.completions now ∧ w'.passed = w.passed := by
  unfold World.completions
  cases completes with
  | idle nobody same => simp [nobody, same]
  | waits few notDue same =>
    rw [if_neg]
    · simp [same]
    · rintro ⟨_, enough | due⟩
      · omega
      · simp [notDue] at due
  | completes somebody enough keeps free heap =>
    rw [if_pos ⟨somebody, enough⟩, keeps]
    exact ⟨rfl, rfl⟩

section Expires

variable {w w' : World D} {now : Int} {slots : List ClientSlot}

/-- What the expiry of a command does not change of a client, it changes of none. -/
theorem Expires.any_occupant (expires : Expires w now slots w') {p : Client → Bool}
    (same : ∀ client later, p (client.expired now later) = p client) (slot : ClientSlot) :
    (w'.occupant slot).any p = (w.occupant slot).any p := by
  have sameClients : w'.clients = w.clients := by rw [expires.keeps]
  unfold World.occupant
  rw [sameClients]
  cases w.clients slot with
  | none => rfl
  | some ptr =>
    simp only [Option.bind_some]
    cases found : w.heap ptr with
    | none => rw [expires.free ptr found]
    | some client =>
      obtain ⟨_, kept⟩ | ⟨i, _, _, _, expired⟩ := expires.heap ptr client found
      · rw [kept]
      · simp [expired, same]

theorem expired_fields (client : Client) (now later : Int) :
    (client.expired now later).fd = client.fd ∧
      (client.expired now later).timeoutAt = client.timeoutAt ∧
      (client.expired now later).isReplica = client.isReplica ∧
      (client.expired now later).replOffset = client.replOffset ∧
      (client.expired now later).isWaiting = client.isWaiting := by
  unfold Client.expired
  split
  · exact ⟨rfl, rfl, rfl, rfl, rfl⟩
  · split <;> exact ⟨rfl, rfl, rfl, rfl, rfl⟩

theorem Expires.acknowledged_eq (expires : Expires w now slots w') (offset : Int) :
    w'.acknowledged offset = w.acknowledged offset := by
  unfold World.acknowledged
  congr 1
  funext slot
  refine expires.any_occupant (fun client later => ?_) slot
  obtain ⟨_, _, isReplica, replOffset, _⟩ := expired_fields client now later
  rw [isReplica, replOffset]

/-- The expiry of other commands changes nothing about the answer to a WAIT. -/
theorem Expires.completions_eq (expires : Expires w now slots w') (later : Int) :
    w'.completions later = w.completions later := by
  have server : w'.serverConfig = w.serverConfig := by rw [expires.keeps]
  have active : w'.active = w.active := by
    unfold World.active
    rw [expires.keeps]
  have due : w'.waitDue later = w.waitDue later := by
    funext slot
    unfold World.waitDue
    rw [server]
    refine expires.any_occupant (fun client reading => ?_) slot
    obtain ⟨fd, timeoutAt, _⟩ := expired_fields client now reading
    rw [fd, timeoutAt]
  simp only [World.completions, server, active, due, expires.acknowledged_eq]

end Expires

end RedisClone
