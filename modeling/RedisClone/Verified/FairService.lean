import Mathlib.Data.List.MinMax
import Mathlib.Data.List.TakeDrop
import RedisClone.Verified.Conservation

/-! # Who is served first

RPUSH serves the client that has waited longest, and measures the waiting times with one reading of the clock for
each client.  `fair_service_iff` says when that is the client that began to wait first.
-/

namespace RedisClone

open Exec CString

variable {D : Type}

/-! ## The oldest client -/

/-- The client began to wait for the key before all others, or with them. -/
def World.IsOldest (w : World D) (key : Bytes) (client : Client) : Prop :=
  ∀ other ∈ w.waiters key, client.blockedAt ≤ other.2.blockedAt

instance (w : World D) (key : Bytes) (client : Client) : Decidable (w.IsOldest key client) :=
  inferInstanceAs (Decidable (∀ other ∈ w.waiters key, _))

/-- The push takes the client out of BLPOP. -/
def World.Wakes (w : World D) (key : Bytes) (ptr : ClientPtr) (client : Client) (t : World D) : Prop :=
  (ptr, client) ∈ w.waiters key ∧ ∃ client', t.heap ptr = some client' ∧ ¬ client'.waitsFor key

/-- The client began to wait first, was sent the first element of the list, and nothing else changed but the list,
which has lost that element. -/
structure ServesInTurn (w : World D) (key : Bytes) (pushed : List Bytes) (ptr : ClientPtr) (client : Client)
    (t : World D) : Prop where
  oldest : w.IsOldest key client
  delivers : ∃ first rest answer, elements w.table key ++ pushed = first :: rest ∧
    elements t.table key = rest ∧ t.sent = w.sent ++ [answer, (client.fd, popReply key first)]
  slots : t.clients = w.clients
  others : ∀ other, other ≠ ptr → t.heap other = w.heap other

/-- Every client that has waited when RPUSH reads the clock for it, and did not begin first, is beaten by one that
did: this one has waited longer, or as long and has an earlier slot. -/
def OldestWaitsLongest (w : World D) (key : Bytes) : Prop :=
  ∀ (j : Nat) (waiter : ClientPtr × Client), (w.waiters key)[j]? = some waiter →
    w.clock j ≠ waiter.2.blockedAt → ¬ w.IsOldest key waiter.2 →
      ∃ (i : Nat) (oldest : ClientPtr × Client), (w.waiters key)[i]? = some oldest ∧
        w.IsOldest key oldest.2 ∧ (waitingTime w.clock j waiter < waitingTime w.clock i oldest ∨
          waitingTime w.clock j waiter = waitingTime w.clock i oldest ∧ i < j)

/-- What a client is sent with the first element fits the array. -/
def DeliveryFits (w : World D) (key : Bytes) (pushed : List Bytes) : Prop :=
  ∀ first ∈ (elements w.table key ++ pushed).head?, (popReply key first).length < 1024

instance (w : World D) (key : Bytes) (pushed : List Bytes) : Decidable (DeliveryFits w key pushed) :=
  inferInstanceAs (Decidable (∀ first ∈ (elements w.table key ++ pushed).head?, _))

/-- The scan finds the oldest, if and only if the oldest have waited longest. -/
theorem oldestWaitsLongest_iff {w : World D} {key : Bytes} :
    OldestWaitsLongest w key ↔
      ∀ waiter, Scan.firstLargest (waitingTime w.clock) (w.waiters key) none 0 = some waiter →
        w.IsOldest key waiter.2 := by
  unfold World.IsOldest
  rw [Scan.firstLargest_least_iff fun waiter : ClientPtr × Client => waiter.2.blockedAt]
  unfold OldestWaitsLongest World.IsOldest
  simp only [waitingTime_pos_iff, not_forall, not_le, exists_prop]

theorem exists_oldest {w : World D} {key : Bytes} (waiting : w.waiters key ≠ []) :
    ∃ (i : Nat) (oldest : ClientPtr × Client),
      (w.waiters key)[i]? = some oldest ∧ w.IsOldest key oldest.2 := by
  cases isLeast : (w.waiters key).argmin fun waiter => waiter.2.blockedAt with
  | none => exact absurd (List.argmin_eq_none.mp isLeast) waiting
  | some oldest =>
    obtain ⟨i, isAt⟩ := List.getElem?_of_mem (List.argmin_mem isLeast)
    refine ⟨i, oldest, isAt, fun other member => ?_⟩
    exact List.le_of_mem_argmin (f := fun waiter : ClientPtr × Client => waiter.2.blockedAt) member isLeast

/-- The readings of the clock in the scan for a key do not go back. -/
def World.ScansForward (w : World D) (key : Bytes) : Prop :=
  ∀ j < (w.waiters key).length, ∀ i ≤ j, w.clock i ≤ w.clock j

instance (w : World D) (key : Bytes) : Decidable (w.ScansForward key) :=
  inferInstanceAs (Decidable (∀ j < (w.waiters key).length, ∀ i ≤ j, _))

/-- Where the clock does not go back and nobody began to wait after the reading for it, a client is beaten by an
oldest one of a later slot, or of an earlier one, if in between the clock has not advanced by more than the client
began to wait later. -/
theorem oldestWaitsLongest_iff_advance {w : World D} {key : Bytes} (forward : w.ScansForward key)
    (past : ∀ (j : Nat) (waiter : ClientPtr × Client), (w.waiters key)[j]? = some waiter →
      waiter.2.blockedAt ≤ w.clock j) :
    OldestWaitsLongest w key ↔
      ∀ (j : Nat) (waiter : ClientPtr × Client), (w.waiters key)[j]? = some waiter →
        ¬ w.IsOldest key waiter.2 → ∃ (i : Nat) (oldest : ClientPtr × Client),
          (w.waiters key)[i]? = some oldest ∧ w.IsOldest key oldest.2 ∧
            (j < i ∨ w.clock j - w.clock i ≤ waiter.2.blockedAt - oldest.2.blockedAt) := by
  have measured {i : Nat} {waiter : ClientPtr × Client} (isWaiter : (w.waiters key)[i]? = some waiter) :
      waitingTime w.clock i waiter = w.clock i - waiter.2.blockedAt := by
    have := past i waiter isWaiter
    simp only [waitingTime]
    omega
  constructor
  · intro longest j waiter isWaiter notOldest
    -- a client that began to wait when the clock was read for it has not waited, and any oldest one will do
    by_cases late : w.clock j = waiter.2.blockedAt
    · obtain ⟨i, oldest, isAt, isOldest⟩ := exists_oldest (List.ne_nil_of_mem (List.mem_of_getElem? isWaiter))
      have := past i oldest isAt
      exact ⟨i, oldest, isAt, isOldest, .inr (by omega)⟩
    · obtain ⟨i, oldest, isAt, isOldest, beats⟩ := longest j waiter isWaiter late notOldest
      rw [measured isWaiter, measured isAt] at beats
      exact ⟨i, oldest, isAt, isOldest, .inr (by omega)⟩
  · intro advance j waiter isWaiter _ notOldest
    obtain ⟨i, oldest, isAt, isOldest, beats⟩ := advance j waiter isWaiter notOldest
    -- of two that wait, the one that is not an oldest began later
    have younger : oldest.2.blockedAt < waiter.2.blockedAt := by
      by_contra notYounger
      exact notOldest fun other member => (not_lt.mp notYounger).trans (isOldest other member)
    refine ⟨i, oldest, isAt, isOldest, ?_⟩
    rw [measured isWaiter, measured isAt]
    obtain later | few := beats
    · have := forward i (List.getElem?_eq_some_iff.mp isAt).1 j later.le
      exact .inl (by omega)
    · by_cases before : i < j
      · omega
      · obtain rfl | later : i = j ∨ j < i := by omega
        · obtain rfl : oldest = waiter := Option.some.inj (isAt.symm.trans isWaiter)
          exact absurd younger (lt_irrefl _)
        · have := forward i (List.getElem?_eq_some_iff.mp isAt).1 j later.le
          exact .inl (by omega)

/-! ## The push -/

section Push

variable {req : RespRequest} {clientFd : Int} {key : Bytes} {w t : World D}

theorem wakes_iff_of_served {ptr other : ClientPtr} {client otherClient : Client}
    (waits : (ptr, client) ∈ w.waiters key)
    (heap : t.heap = Function.update w.heap ptr (some client.woken)) :
    w.Wakes key other otherClient t ↔ other = ptr ∧ otherClient = client := by
  constructor
  · rintro ⟨member, client', found', awake⟩
    obtain ⟨_, _, found, waitsFor⟩ := mem_waiters.mp member
    by_cases same : other = ptr
    · obtain ⟨_, _, found'', _⟩ := mem_waiters.mp waits
      rw [same] at found ⊢
      exact ⟨rfl, Option.some.inj (found.symm.trans found'')⟩
    · rw [heap, Function.update_of_ne same, found] at found'
      obtain rfl := Option.some.inj found'
      exact absurd waitsFor awake
  · rintro ⟨rfl, rfl⟩
    refine ⟨waits, otherClient.woken, ?_, ?_⟩
    · rw [heap, Function.update_self]
    · simp [Client.waitsFor, Client.woken]

theorem not_wakes_of_same {ptr : ClientPtr} {client : Client} (heap : t.heap = w.heap) :
    ¬ w.Wakes key ptr client t := by
  rintro ⟨member, client', found', awake⟩
  obtain ⟨_, _, found, waitsFor⟩ := mem_waiters.mp member
  rw [heap, found] at found'
  obtain rfl := Option.some.inj found'
  exact awake waitsFor

/-- The client that RPUSH serves began to wait first and receives the first element, if and only if the oldest have
waited longest and the message fits. -/
theorem fair_service_iff (isKey : req.args[0]? = some key) (run : handleRpush req clientFd w = .ok ((), t)) :
    (∀ ptr client, w.Wakes key ptr client t → ServesInTurn w key (req.args.drop 1) ptr client t) ↔
      (2 ≤ req.argc → HasWaited w key →
        OldestWaitsLongest w key ∧ DeliveryFits w key (req.args.drop 1)) := by
  by_cases enough : 2 ≤ req.argc
  · obtain ⟨key', list, expiresAt, opened, isKey', opens, pushes⟩ := handleRpush_ok enough run
    obtain rfl : key = key' := Option.some.inj (isKey.symm.trans isKey')
    have before := opens.elements_eq
    cases pushes with
    | unserved nobody keeps stores =>
      have heap : t.heap = w.heap := by rw [keeps]
      constructor
      · exact fun _ _ late => absurd nobody (hasWaited_iff.mp late)
      · exact fun _ ptr client wakes => absurd wakes (not_wakes_of_same heap)
    | served ptr client first rest longest found elements' keeps stores =>
      have hasWaited : HasWaited w key := hasWaited_iff.mpr (by simp [longest])
      rw [longestOf_none, Option.map_eq_some_iff] at longest
      obtain ⟨⟨ptr', client'⟩, finds, isPtr⟩ := longest
      obtain rfl : ptr' = ptr := isPtr
      -- the client that is woken is the one `longestWaiter` found
      have waits := Scan.firstLargest_mem finds
      obtain rfl : client = client' := by
        obtain ⟨_, _, found', _⟩ := mem_waiters.mp waits
        exact Option.some.inj (found.symm.trans found')
      have heap : t.heap = Function.update w.heap ptr' (some client.woken) := by rw [keeps]
      have isOldest : OldestWaitsLongest w key ↔ w.IsOldest key client := by
        rw [oldestWaitsLongest_iff, finds]
        simp
      -- the element is sent whole when its reply fits into the 1024 bytes
      have fits : DeliveryFits w key (req.args.drop 1) ↔
          (popReply key first).take 1023 = popReply key first := by
        simp only [DeliveryFits, before, elements', List.head?_cons, Option.mem_some_iff, forall_eq',
          List.take_eq_self_iff]
        omega
      have sent : t.sent = w.sent ++ [(clientFd, (integerReply (list ++ req.args.drop 1).length).take 1023),
          (client.fd, (popReply key first).take 1023)] := by
        rw [keeps]
        simp
      constructor
      · intro inTurn _ _
        have serves := inTurn ptr' client ((wakes_iff_of_served waits heap).mpr ⟨rfl, rfl⟩)
        obtain ⟨first', rest', answer, isFirst, _, isSent⟩ := serves.delivers
        rw [before, elements'] at isFirst
        obtain ⟨rfl, rfl⟩ := List.cons.inj isFirst
        rw [sent, List.append_cancel_left_eq] at isSent
        simp only [List.cons.injEq, Prod.mk.injEq, and_true, true_and] at isSent
        exact ⟨isOldest.mpr serves.oldest, fits.mpr isSent.2⟩
      · intro fair other otherClient wakes
        obtain ⟨oldest, whole⟩ := fair enough hasWaited
        obtain ⟨rfl, rfl⟩ := (wakes_iff_of_served waits heap).mp wakes
        rw [fits.mp whole] at sent
        refine ⟨isOldest.mp oldest, ⟨first, rest, _, ?_, stores.elements_self, sent⟩, ?_, ?_⟩
        · rw [before, elements']
        · rw [keeps]
        · intro other distinct
          rw [heap, Function.update_of_ne distinct]
  · unfold handleRpush at run
    rw [if_pos (by omega)] at run
    have heap : t.heap = w.heap := by
      rw [send_run run]
      rfl
    exact ⟨fun _ many => absurd many enough, fun _ ptr client wakes => absurd wakes (not_wakes_of_same heap)⟩

end Push

/-! ### A race with the clock -/

section Race

/-- The first two clients wait for a list, one after the other, and a third is there to push. -/
def twoWait : List Event :=
  [.connect 5 0, .connect 6 1, .connect 7 2, waitForK, arrival secondSlot [lit "BLPOP", lit "k", lit "0"]]

def pushToK : RespRequest := requestOf [lit "RPUSH", lit "k", lit "a"]

/-- The client in memory waits for the key, whether it is an oldest one is known, and it does not wait after the
push. -/
def wakesOne (t u : World Int) (ptr : ClientPtr) (isOldest : Bool) : Bool :=
  (t.waiters (lit "k")).any fun waiter => decide (waiter.1 = ptr) &&
    (decide (t.IsOldest (lit "k") waiter.2) == isOldest &&
      (u.heap ptr).any fun client => !decide (client.waitsFor (lit "k")))

theorem wakes_of_wakesOne {t u : World Int} {ptr : ClientPtr} {isOldest : Bool}
    (wakes : wakesOne t u ptr isOldest = true) : ∃ client, t.Wakes (lit "k") ptr client u ∧
      decide (t.IsOldest (lit "k") client) = isOldest := by
  obtain ⟨⟨ptr', client⟩, member, checked⟩ := List.any_eq_true.mp wakes
  simp only [Bool.and_eq_true, decide_eq_true_eq, beq_iff_eq, Option.any_eq_true, Bool.not_eq_true',
    decide_eq_false_iff_not] at checked
  obtain ⟨rfl, known, client', found, awake⟩ := checked
  exact ⟨client, ⟨member, client', found, awake⟩, known⟩

/-- The oldest is served where the clock goes on by one with every reading. -/
theorem fair_service_iff_ticking : ∃ (t : Server Int) (u : World Int) (client : Client),
    Runs tickingServer t ∧ (t.world.waiters (lit "k")).length = 2 ∧
      ServesInTurn t.world (lit "k") [lit "a"] 0 client u := by
  obtain ⟨t, run, checked⟩ := exists_run_of_play
    (show (play (fun _ _ => True) tickingServer twoWait).any (fun t =>
      decide ((t.world.waiters (lit "k")).length = 2) &&
        ((Scan.firstLargest (waitingTime t.world.clock) (t.world.waiters (lit "k")) none 0).all
          (fun waiter => decide (t.world.IsOldest (lit "k") waiter.2)) &&
            (decide (DeliveryFits t.world (lit "k") [lit "a"]) &&
              (handleRpush pushToK 7 t.world).toOption.any fun r => wakesOne t.world r.2 0 true))) = true by
      decide +kernel)
  simp only [Bool.and_eq_true, decide_eq_true_eq, Option.all_eq_true, Option.any_eq_true] at checked
  obtain ⟨two, oldest, fits, ⟨_, u⟩, ends, wakesFirst⟩ := checked
  obtain ⟨client, wakes, _⟩ := wakes_of_wakesOne wakesFirst
  refine ⟨t, u, client, run, two, ?_⟩
  exact (fair_service_iff (show pushToK.args[0]? = some (lit "k") by decide) (toOption_eq_some.mp ends)).mpr
    (fun _ _ => ⟨oldestWaitsLongest_iff.mpr oldest, fits⟩) 0 client wakes

/-- A server whose clock goes on faster and faster. -/
def racingServer : Server Int := ⟨bootWorld {} ⟨none, none⟩ (fun n => 2 ^ n) fun _ => [], none⟩

/-- The clock goes on between the two readings of the scan, and the client that began to wait later is served. -/
theorem younger_served_first :
    ¬ ∀ (t : Server Int) (u : World Int), Runs racingServer t → t.world.ScansForward (lit "k") →
      handleRpush pushToK 7 t.world = .ok ((), u) → ∀ ptr client, t.world.Wakes (lit "k") ptr client u →
        ServesInTurn t.world (lit "k") [lit "a"] ptr client u := by
  intro inTurn
  obtain ⟨t, run, checked⟩ := exists_run_of_play
    (show (play (fun _ _ => True) racingServer twoWait).any (fun t =>
      decide (t.world.ScansForward (lit "k")) &&
        (handleRpush pushToK 7 t.world).toOption.any fun r => wakesOne t.world r.2 1 false) = true by
      decide +kernel)
  simp only [Bool.and_eq_true, decide_eq_true_eq, Option.any_eq_true] at checked
  obtain ⟨forward, ⟨_, u⟩, ends, wakesSecond⟩ := checked
  obtain ⟨client, wakes, notOldest⟩ := wakes_of_wakesOne wakesSecond
  have served := inTurn t u run forward (toOption_eq_some.mp ends) 1 client wakes
  exact absurd served.oldest (of_decide_eq_false notOldest)

end Race

end RedisClone
