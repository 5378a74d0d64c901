import RedisClone.Verified.Everywhere
import RedisClone.Verified.Strangers
import RedisClone.Verified.Timers
import RedisClone.Verified.Wakeups

/-! # The time of a blocked client

The timers answer a client whose XREAD or BLPOP has waited long enough once, and release it; they send nothing to the
others and keep them blocked (`deadlines_met`).  That each client is in one slot, that its descriptor is its own, and that
the loop over the slots reaches it are invariants of the runs; the client behind a pending WAIT is answered by the code
that ends the WAIT too, and is left out.
-/

namespace RedisClone

open Exec CString

variable {D : Type}

/-! ## What a slot is sent -/

section Rounds

variable {w w' : World D} {now later : Int} {slot : ClientSlot} {slots : List ClientSlot} {client : Client} {ptr : ClientPtr}

/-- The client in a slot has the descriptor that is polled there. -/
theorem Connected.occupant_fd (connected : Connected w) (here : w.occupant slot = some client) :
    w.clients slot ≠ none ∧ client.fd = (w.watchList slot).fd := by
  obtain ⟨ptr, inSlot, found⟩ := Option.bind_eq_some_iff.mp here
  obtain ⟨client', found', isFd⟩ := connected.polled slot ptr inSlot
  obtain rfl : client = client' := Option.some.inj (found.symm.trans found')
  exact ⟨by simp [inSlot], isFd⟩

/-- What is sent in the round of a slot is sent to the client that is in it. -/
theorem expiryAt_fd (connected : Connected w) {message : Int × Bytes} (member : message ∈ w.expiryAt now later slot) :
    ∃ client ∈ w.occupant slot, message.1 = client.fd := by
  unfold World.expiryAt at member
  cases here : w.occupant slot with
  | none => simp [here] at member
  | some client =>
    refine ⟨client, rfl, ?_⟩
    simp only [here] at member
    split at member
    · rw [List.mem_singleton.mp member, (connected.occupant_fd here).2]
    · split at member
      · obtain ⟨key, _, rfl⟩ := List.mem_map.mp member
        rfl
      · simp at member

/-- What the rounds of some slots send to the client in one of them is sent in its round. -/
theorem expiries_filter (now : Int) (connected : Connected w) (here : w.occupant slot = some client) (nodup : slots.Nodup)
    (clock : Nat → Int) :
    (slot ∉ slots ∧ (w.expiries now clock slots).filter (fun message => message.1 = client.fd) = []) ∨
      ∃ i, slots[i]? = some slot ∧
        (w.expiries now clock slots).filter (fun message => message.1 = client.fd) = w.expiryAt now (clock i) slot := by
  have own (later : Int) : (w.expiryAt now later slot).filter (fun message => message.1 = client.fd) =
      w.expiryAt now later slot := by
    refine List.filter_eq_self.mpr fun message member => ?_
    obtain ⟨client', here', isFd⟩ := expiryAt_fd connected member
    obtain rfl : client = client' := Option.some.inj (here.symm.trans here')
    simpa using isFd
  have others {other : ClientSlot} (isOther : other ≠ slot) (later : Int) :
      (w.expiryAt now later other).filter (fun message => message.1 = client.fd) = [] := by
    refine List.filter_eq_nil_iff.mpr fun message member => ?_
    obtain ⟨client', here', isFd⟩ := expiryAt_fd connected member
    obtain ⟨occupied, polled⟩ := connected.occupant_fd here
    obtain ⟨occupied', polled'⟩ := connected.occupant_fd here'
    simp only [decide_eq_true_eq, isFd, polled, polled']
    exact fun same => isOther (connected.apart other slot occupied' occupied same)
  induction slots generalizing clock with
  | nil => exact .inl ⟨by simp, rfl⟩
  | cons other slots inductionHypothesis =>
    obtain ⟨absent, nodupRest⟩ := List.nodup_cons.mp nodup
    rw [World.expiries, List.filter_append]
    by_cases isHere : other = slot
    · subst isHere
      obtain ⟨_, rest⟩ | ⟨i, isSlot, _⟩ := inductionHypothesis nodupRest fun n => clock (n + 1)
      · exact .inr ⟨0, rfl, by rw [own, rest, List.append_nil]⟩
      · exact absurd (List.mem_of_getElem? isSlot) absent
    · rw [others isHere, List.nil_append]
      obtain ⟨notIn, rest⟩ | ⟨i, isSlot, rest⟩ := inductionHypothesis nodupRest fun n => clock (n + 1)
      · exact .inl ⟨by simp [Ne.symm isHere, notIn], rest⟩
      · exact .inr ⟨i + 1, isSlot, rest⟩

theorem ExpiresAt.occupant_eq (round : ExpiresAt w now slot w') (oneSlot : w.OneSlot) {other : ClientSlot}
    (isOther : other ≠ slot) : w'.occupant other = w.occupant other := by
  have sameClients : w'.clients = w.clients := by rw [round.keeps]
  unfold World.occupant
  rw [sameClients]
  cases inSlot : w.clients other with
  | none => rfl
  | some ptr =>
    have elsewhere : w.clients slot ≠ some ptr := fun here => isOther (oneSlot _ _ _ inSlot here)
    simp [round.heap ptr, elsewhere]

/-- The loop that answers a BLPOP reads the key that the client waits for. -/
theorem waits_of_rounds (oneSlot : w.OneSlot) (nodup : slots.Nodup) (run : forM slots (expireClient now) w = .ok ((), w'))
    {i : Nat} (isSlot : slots[i]? = some slot) (here : w.occupant slot = some client)
    (due : client.dueBlpop (w.clock i)) : client.waitingForKey ≠ none := by
  induction slots generalizing w i with
  | nil => simp at isSlot
  | cons other slots inductionHypothesis =>
    rw [List.forM_cons] at run
    obtain ⟨_, after, firstRun, rest⟩ := bind_eq_ok.mp run
    have first := expireClient_ok firstRun
    obtain ⟨absent, nodupRest⟩ := List.nodup_cons.mp nodup
    cases i with
    | zero =>
      obtain rfl : other = slot := by simpa using isSlot
      unfold expireClient at firstRun
      obtain ⟨_, looked, xread, endblpop⟩ := bind_eq_ok.mp firstRun
      rw [bind_of_ok (observe_run _ looked)] at endblpop
      obtain ⟨rfl, _⟩ | ⟨ptr, client', inSlot, found, dueXread, _⟩ := expireXread_ok xread
      · obtain ⟨_, notDue⟩ | ⟨ptr, client', key, inSlot, found, _, waits, _⟩ := handleEndblpop_ok endblpop
        · exact absurd due (notDue client here)
        · have same : client = client' := by simpa [World.occupant, inSlot, found] using here.symm
          simp [same, waits]
      · have same : client = client' := by simpa [World.occupant, inSlot, found] using here.symm
        exact absurd due.1 (same ▸ dueXread.2.2.2.2.2)
    | succ i =>
      have inRest : slots[i]? = some slot := by simpa using isSlot
      have isOther : slot ≠ other := fun same => absent (same ▸ List.mem_of_getElem? inRest)
      have sameClients : after.clients = w.clients := by rw [first.keeps]
      refine inductionHypothesis (by unfold World.OneSlot; rwa [sameClients]) nodupRest rest inRest ?_ ?_
      · rw [first.occupant_eq oneSlot isOther, here]
      · rw [first.keeps]
        exact due

end Rounds

/-! ## The timers -/

/-- The time of the client is over, and it is not the end of a WAIT that releases it. -/
def Client.Overdue (client : Client) (now : Int) : Prop := client.dueXread now ∨ client.dueBlpop now

instance (client : Client) (now : Int) : Decidable (client.Overdue now) := inferInstanceAs (Decidable (_ ∨ _))

/-- What a client is answered whose time is over. -/
def Client.lateReply (client : Client) (table : Table D) : Bytes :=
  if client.isBlpop then client.waitingForKey.elim [] (expiryReply table) else nilArray

section Timers

variable {w w' : World D} {client : Client} {ptr : ClientPtr}

/-- What the timers do to one client that is not behind a pending WAIT: with the reading of the clock in its round. -/
theorem runTimers_client (connected : Connected w) (housed : w.Housed) (found : w.heap ptr = some client)
    (notWaited : client.fd ≠ w.serverConfig.waitClientFd) (run : runTimers w = .ok ((), w')) :
    ∃ slot i, w.occupant slot = some client ∧
      (client.dueBlpop (w.clock (i + 1)) → client.waitingForKey ≠ none) ∧
      w'.bytesTo client.fd = w.bytesTo client.fd ++ (w.expiryAt (w.clock 0) (w.clock (i + 1)) slot).flatMap Prod.snd ∧
      ∃ isWaiting, w'.heap ptr = some { client.expired (w.clock 0) (w.clock (i + 1)) with isWaiting } := by
  unfold runTimers at run
  rw [bind_of_ok (show getCurrentTimeMs w = .ok (w.clock 0, w.tick) from rfl),
    bind_of_ok (activeSlots_run w.tick)] at run
  obtain ⟨_, expired, expires, completes⟩ := bind_eq_ok.mp run
  have ticked : Connected w.tick :=
    ⟨connected.started, connected.bounded, connected.inUse, connected.polled, connected.distinct, connected.apart⟩
  have nodup := nodup_active w.tick
  have rounds := forM_expireClient_ok ticked.distinct nodup expires
  have sameClients : expired.clients = w.clients := by rw [rounds.keeps]; rfl
  have completes := completeWait_ok (by unfold World.OneSlot; rw [sameClients]; exact connected.distinct) completes
  obtain ⟨slot, inSlot⟩ := housed ptr client found
  have here : w.tick.occupant slot = some client := Option.bind_eq_some_iff.mpr ⟨ptr, inSlot, found⟩
  have isActive : slot ∈ w.tick.active := mem_active.mpr ((connected.inUse slot).mp (by simp [inSlot]))
  obtain ⟨absent, _⟩ | ⟨i, isSlot, answered⟩ := expiries_filter (w.clock 0) ticked here nodup w.tick.clock
  · exact absurd isActive absent
  obtain ⟨elsewhere, _⟩ | ⟨j, slot', isSlot', inSlot', foundExpired⟩ := rounds.heap ptr client found
  · exact absurd inSlot (elsewhere slot isActive)
  obtain rfl := connected.distinct slot slot' ptr inSlot inSlot'
  -- what the slot was sent, and what became of its client, happened in one round
  obtain rfl : i = j := by
    have first := active_getElem isSlot
    have second := active_getElem isSlot'
    omega
  refine ⟨slot, i, here, waits_of_rounds ticked.distinct nodup expires isSlot here, ?_, ?_⟩
  · -- the end of a WAIT answers somebody else
    have unanswered : (expired.completions (w.clock 0)).filter (fun message => message.1 = client.fd) = [] := by
      have sameServer : expired.serverConfig = w.serverConfig := by rw [rounds.keeps]; rfl
      refine List.filter_eq_nil_iff.mpr fun message member => ?_
      unfold World.completions at member
      dsimp only at member
      split at member
      · rw [List.mem_singleton.mp member, sameServer]
        simpa using Ne.symm notWaited
      · simp at member
    have sentExpired : expired.sent = w.sent ++ w.tick.expiries (w.clock 0) w.tick.clock w.tick.active := by
      rw [rounds.keeps]
      rfl
    unfold World.bytesTo
    rw [completes.sent.1, sentExpired, List.filter_append, List.filter_append, answered, unanswered, List.append_nil,
      List.flatMap_append]
    rfl
  · cases completes with
    | idle nobody same => exact ⟨_, same ▸ foundExpired⟩
    | waits few notDue same => exact ⟨_, same ▸ foundExpired⟩
    | completes somebody enough keeps free heap =>
      -- it takes the flag from every client, and releases another one
      obtain ⟨_, kept⟩ | ⟨_, ended⟩ := heap ptr _ foundExpired
      · exact ⟨_, kept⟩
      · refine ⟨false, ended.trans ?_⟩
        have sameServer : expired.serverConfig = w.serverConfig := by rw [rounds.keeps]; rfl
        have notFd : (client.expired (w.clock 0) (w.tick.clock i)).fd ≠ expired.serverConfig.waitClientFd := by
          rwa [(expired_fields client _ _).1, sameServer]
        rw [Client.waitEnded, if_neg notFd]
        rfl

end Timers

section Runs

variable [Externals D] {w₀ : World D} {s t : Server D} {client : Client} {ptr : ClientPtr}

/-- In every run in which the clock does not go back, for every client that is not behind the pending WAIT: if its time is
over when the timers start, they release it and send it one answer; if its time is not over at any reading of the clock,
they send it nothing and leave it as it is, but for the flag that it waits for replicas. -/
theorem deadlines_met (enters : EntersLoop w₀) (forward : Forward w₀.clock)
    (run : Run Step AcceptsUnused (⟨w₀, none⟩ : Server D) s) (step : Step s .timers t)
    (found : s.world.heap ptr = some client) (notWaited : client.fd ≠ s.world.serverConfig.waitClientFd) :
    (client.Overdue (s.world.clock 0) →
      (∃ client', t.world.heap ptr = some client' ∧ client'.isBlocked = false ∧ client'.isBlpop = false) ∧
        t.world.bytesTo client.fd = s.world.bytesTo client.fd ++ client.lateReply s.world.table) ∧
      ((∀ n, ¬ client.Overdue (s.world.clock n)) →
        (∃ isWaiting, t.world.heap ptr = some { client with isWaiting }) ∧ SilentTo client.fd s.world t.world) := by
  obtain ⟨seated, housed⟩ := housed_run enters run
  have entered : OutsideMulti (⟨w₀, none⟩ : Server D) := by rintro transaction client ⟨⟩
  have forwardHere : Forward s.world.clock := (everywhere_later.run entered run).forward forward
  obtain ⟨idle, acts⟩ := step
  rw [show s.running = none from idle] at acts
  obtain ⟨slot, i, here, waits, sent, isWaiting, foundAfter⟩ :=
    runTimers_client seated.connected housed found notWaited (act_unit acts).1
  constructor
  · intro overdue
    by_cases isXread : client.dueXread (s.world.clock 0)
    · have notBlpop : client.isBlpop = false := by simpa using isXread.2.2.2.2.2
      rw [Client.expired, if_pos isXread] at foundAfter
      refine ⟨⟨_, foundAfter, rfl, notBlpop⟩, ?_⟩
      rw [sent, World.expiryAt, here]
      simp [isXread, Client.lateReply, notBlpop]
    · -- the clock is read again for a BLPOP
      obtain ⟨isBlpop, finite, past⟩ := overdue.resolve_left isXread
      have due : client.dueBlpop (s.world.clock (i + 1)) := ⟨isBlpop, finite, past.trans (forwardHere 0 _ (Nat.zero_le _))⟩
      rw [Client.expired, if_neg isXread, if_pos due] at foundAfter
      refine ⟨⟨_, foundAfter, rfl, rfl⟩, ?_⟩
      obtain ⟨key, isKey⟩ := Option.ne_none_iff_exists'.mp (waits due)
      rw [sent, World.expiryAt, here]
      simp [isXread, due, Client.lateReply, isBlpop, isKey]
  · intro inTime
    have notXread : ¬ client.dueXread (s.world.clock 0) := fun due => inTime 0 (.inl due)
    have notBlpop : ¬ client.dueBlpop (s.world.clock (i + 1)) := fun due => inTime (i + 1) (.inr due)
    rw [Client.expired, if_neg notXread, if_neg notBlpop] at foundAfter
    refine ⟨⟨_, foundAfter⟩, ?_⟩
    rw [SilentTo, sent, World.expiryAt, here]
    simp [notXread, notBlpop]

/-- One client waits for a stream for a millisecond, and another one for a list without an end. -/
theorem deadlines_met_two : ∃ s t : Server Int, Step s .timers t ∧
    t.world.bytesTo 5 = s.world.bytesTo 5 ++ nilArray ∧ SilentTo 6 s.world t.world := by
  let events := [.connect 5 0, .connect 6 1,
    arrival firstSlot [lit "XREAD", lit "BLOCK", lit "1", lit "STREAMS", lit "s", lit "0-0"],
    arrival secondSlot [lit "BLPOP", lit "l", lit "0"]]
  obtain ⟨s, run, checked⟩ := exists_run_of_play
    (show (play AcceptsUnused tickingServer events).any (fun s =>
        ((s.world.heap 0).any fun client =>
          decide (client.fd = 5 ∧ client.Overdue (s.world.clock 0) ∧ client.isBlpop = false)) &&
        ((s.world.heap 1).any fun client => decide (client.fd = 6 ∧ client.timeoutAt = 0)) &&
        decide (s.world.serverConfig.waitClientFd = -1) && decide (next s .timers ≠ none)) = true by
      decide +kernel)
  simp only [Bool.and_eq_true, decide_eq_true_eq, Option.any_eq_true] at checked
  obtain ⟨⟨⟨⟨reader, foundReader, isFive, overdue, notBlpop⟩, waiter, foundWaiter, isSix, endless⟩, nobody⟩, ticks⟩ := checked
  obtain ⟨t, isNext⟩ := Option.ne_none_iff_exists'.mp ticks
  have enters : EntersLoop tickingServer.world := .alone ⟨fun _ => rfl, rfl, fun _ => rfl⟩
  have forward : Forward tickingServer.world.clock := fun _ _ before => Int.ofNat_le.mpr before
  have ofReader := deadlines_met enters forward run (next_step isNext) foundReader (by rw [isFive, nobody]; decide)
  have ofWaiter := deadlines_met enters forward run (next_step isNext) foundWaiter (by rw [isSix, nobody]; decide)
  have answered := (ofReader.1 overdue).2
  have silent := (ofWaiter.2 fun n => by simp [Client.Overdue, Client.dueXread, Client.dueBlpop, endless]).2
  rw [isFive, Client.lateReply, notBlpop] at answered
  exact ⟨s, t, next_step isNext, answered, isSix ▸ silent⟩

end Runs

end RedisClone
