import RedisClone.Verified.Contents
import RedisClone.Verified.WaitSoundness

/-! # Replicas converge to their master

In the runs of a master and its replicas (`Net`) the contents of every table are the outcome of a log: at the master of
the write commands that it passed on, at a replica of those that it executed.  The second log is the part of the first
that has been delivered.  So a replica holds what the master held earlier in the run, and what it holds now as soon as
nothing is on its way (`replicas_converge`).  This needs write commands that are executed where they are passed on and
that store the same at both sides (`Net.Repeats`).
-/

namespace RedisClone

open Exec CString CommandLog

variable {D : Type}

/-! ## What changes the contents -/

section Contents

variable [Externals D] {w t : World D} {slot : ClientSlot} {ptr : ClientPtr} {client : Client} {call : Call}
  {req : RespRequest} {stale message : Bytes}

omit [Externals D] in
/-- What follows the handler leaves the table. -/
theorem propagate_table (run : propagate ptr call w = .ok ((), t)) : t.table = w.table :=
  funext fun bucket => (kept_propagate run).table bucket id

/-- A request that alters nothing, or that waits in a queue. -/
theorem serveRequest_unaltered (inSlot : w.clients slot = some ptr) (found : w.heap ptr = some client)
    (starts : startsTransaction client call.request = false) (unaltered : ∀ w : World D, ¬ Alters w call.request)
    (run : serveRequest slot call w = .ok ((), t)) : contents t.table = contents w.table := by
  obtain ⟨handled, handles, propagates⟩ := serveRequest_run inSlot run
  rw [propagate_table propagates]
  cases reaches : reachesArm client call.request with
  | false => rw [((handle_cases found starts handles).sameData reaches).table]
  | true =>
    obtain ⟨_, armed, notified, _, arms, notify, write⟩ := dispatch_parts (handle_reached reaches found handles)
    rw [table_afterArm notify write]
    exact contents_unaltered (w := w.noted call.request) (unaltered _) arms

theorem serveRequest_passed (inSlot : w.clients slot = some ptr) (found : w.heap ptr = some client)
    (starts : startsTransaction client call.request = false) (readOnly : isWriteCmd call.request.command = false)
    (run : serveRequest slot call w = .ok ((), t)) : t.passed = w.passed := by
  obtain ⟨handled, handles, propagates⟩ := serveRequest_run inSlot run
  rw [(kept_propagate propagates).passed (by simp [readOnly])]
  cases reaches : reachesArm client call.request with
  | false => exact ((handle_cases found starts handles).sameData reaches).passed
  | true => exact (kept_dispatch (handle_reached reaches found handles)).passed id

/-- A write command that is executed at once. -/
theorem serveRequest_performs (inSlot : w.clients slot = some ptr) (found : w.heap ptr = some client)
    (reaches : reachesArm client call.request = true) (isWrite : isWriteCmd call.request.command = true)
    (numbered : (contents w.table).AllNumbered) (fixed : Fixed w call.request)
    (run : serveRequest slot call w = .ok ((), t)) : contents t.table = (contents w.table).perform call.request := by
  obtain ⟨handled, dispatches, propagates⟩ := serveRequest_parts inSlot found reaches run
  rw [propagate_table propagates]
  exact dispatch_performs numbered fixed (.inl isWrite) dispatches

/-- A replica performs the write command that a message carries. -/
theorem serveBuffer_performs (following : Following w slot ptr client) (ofMaster : OfMaster message)
    (numbered : (contents w.table).AllNumbered) (fixed : ∀ req ∈ carriedWrite message, Fixed w req)
    (run : serveBuffer slot message stale w = .ok ((), t)) :
    contents t.table = outcome Contents.perform (contents w.table) ([message].filterMap carriedWrite) := by
  cases ofMaster with
  | inl isGetack =>
    subst isGetack
    rw [replica_answers following run, List.filterMap_cons_none carriedWrite_getack]
    rfl
  | inr isWrite =>
    obtain ⟨req, sendable, rfl⟩ := isWrite
    have carries := carriedWrite_text sendable
    rw [List.filterMap_cons_some carries]
    rw [sendable.text, serveBuffer_encode _ (plain_recordOf sendable.storable), sendable.readsBack] at run
    have ordinary : isTransactionCmd req.command = false := by
      have isWrite := sendable.isWrite
      revert isWrite
      cases req.command <;> simp [isWriteCmd, isTransactionCmd]
    exact serveRequest_performs following.inSlot following.found (following.reaches ordinary) sendable.isWrite numbered
      (fixed req carries) run

end Contents

/-! ## Steps -/

namespace Net

variable {ι : Type} [Externals D]

/-- A write command of a client is executed at once, and what it stores depends neither on the clock nor on a client
that waits, at the master and at a replica that takes it. -/
def Repeats (s : Net ι D) : NetEvent ι → Prop
  | .request sender call => isWriteCmd call.request.command = true →
      (∃ client ∈ s.master.occupant sender, reachesArm client call.request = true) ∧ Fixed s.master call.request
  | .deliver i _ => ∀ message ∈ (s.down i).head?, ∀ req ∈ carriedWrite message, Fixed (s.replicas i) req
  | .timers | .acknowledge _ _ => True

instance (s : Net ι D) (event : NetEvent ι) : Decidable (s.Repeats event) :=
  match event with
  | .request sender call =>
    inferInstanceAs (Decidable (isWriteCmd call.request.command = true →
      (∃ client, s.master.occupant sender = some client ∧ reachesArm client call.request = true) ∧
        Fixed s.master call.request))
  | .deliver i _ =>
    inferInstanceAs (Decidable (∀ message ∈ (s.down i).head?, ∀ req ∈ carriedWrite message, Fixed (s.replicas i) req))
  | .timers | .acknowledge _ _ => .isTrue trivial

end Net

section Steps

variable {ι : Type} [Externals D] [DecidableEq ι] {links : ι → Link} {s t : Net ι D} {event : NetEvent ι} {i : ι}

omit [Externals D] in
theorem Contents.AllNumbered.fixed {held : Contents D} {w : World D} {req : RespRequest} (numbered : held.AllNumbered)
    (fixed : Fixed w req) : (held.perform req).AllNumbered :=
  numbered.perform fixed.2

/-- What an event does at the master: it performs the commands that it passes on, at most one of them. -/
structure MasterPerforms (links : ι → Link) (s t : Net ι D) (commands : List RespRequest) : Prop where
  few : commands.length ≤ 1
  passed : ∀ i, passedTo (links i).ptr t.master = passedTo (links i).ptr s.master ++ commands
  performed : contents t.master.table = outcome Contents.perform (contents s.master.table) commands
  numbered : (contents t.master.table).AllNumbered

omit [Externals D] [DecidableEq ι] in
theorem masterPerforms_nothing (numbered : (contents s.master.table).AllNumbered)
    (passed : t.master.passed = s.master.passed) (same : contents t.master.table = contents s.master.table) :
    MasterPerforms links s t [] where
  few := Nat.zero_le 1
  passed i := by rw [passedTo, passedTo, passed, List.append_nil]
  performed := same
  numbered := same ▸ numbered

/-- The effect of every event on the master. -/
theorem Net.Sound.masterPerforms (sound : s.Sound links) (serves : s.Serves event) (transmits : s.Transmits event)
    (repeats : s.Repeats event) (numbered : (contents s.master.table).AllNumbered) (step : NetStep links s event t) :
    ∃ commands, MasterPerforms links s t commands := by
  cases event with
  | timers =>
    obtain ⟨⟨_, w⟩, isResult, rfl⟩ := Option.map_eq_some_iff.mp step
    have run := toOption_eq_some.mp isResult
    have kept : Kept {} s.master w := (obeys_runTimers (ambient_kept {}) (mayBlock_kept {}) trivial s.master).1 () w run
    exact ⟨[], masterPerforms_nothing numbered (kept.passed id) (congrArg contents (funext fun bucket => kept.table bucket id))⟩
  | deliver i stale =>
    cases onTheWay : s.down i with
    | nil => simp [NetStep, Net.next, onTheWay] at step
    | cons message rest =>
      simp only [NetStep, Net.next, onTheWay] at step
      obtain ⟨⟨_, w⟩, isResult, rfl⟩ := Option.map_eq_some_iff.mp step
      exact ⟨[], masterPerforms_nothing numbered rfl rfl⟩
  | acknowledge i stale =>
    cases onTheWay : s.up i with
    | nil => simp [NetStep, Net.next, onTheWay] at step
    | cons answer rest =>
      simp only [NetStep, Net.next, onTheWay] at step
      obtain ⟨⟨_, w⟩, isResult, rfl⟩ := Option.map_eq_some_iff.mp step
      have run := toOption_eq_some.mp isResult
      refine ⟨[], ?_⟩
      cases carries : carriedWrite answer.1 with
      | some req =>
        -- what a replica answers to a write command has no star, so that the master reads no request in it
        have starless : 42 ∉ answer.2 := transmits answer (by simp [onTheWay]) (by simp [carries])
        rw [serveBuffer_starless starless] at run
        obtain ⟨_, rfl⟩ := Prod.mk.inj (Except.ok.inj run)
        exact masterPerforms_nothing numbered rfl rfl
      | none =>
        obtain ⟨acknowledged, _, isText, _⟩ := (sound.inStep i).answers answer (by simp [onTheWay]) carries
        obtain ⟨offset, attached, _⟩ := (sound.inStep i).attached
        obtain ⟨client, found, follower⟩ := attached.client
        rw [isText] at run
        obtain rfl := master_reads attached.inSlot found (follower.isFd ▸ attached.notMaster) follower.outside
          follower.unsubscribed run
        exact masterPerforms_nothing numbered rfl rfl
  | request sender call =>
    obtain ⟨⟨_, w⟩, isResult, rfl⟩ := Option.map_eq_some_iff.mp step
    have run := toOption_eq_some.mp isResult
    obtain ⟨isKind, client, occupied, notReplica, notMaster⟩ := serves
    obtain ⟨ptr, inSlot, found⟩ := Option.bind_eq_some_iff.mp occupied
    cases isKind with
    | inl isWrite =>
      -- executed here and passed to every replica
      obtain ⟨⟨client', occupied', reaches⟩, fixed⟩ := repeats isWrite
      obtain rfl : client = client' := Option.some.inj (Eq.trans (Eq.symm occupied) occupied')
      have performs := serveRequest_performs inSlot found reaches isWrite numbered fixed run
      refine ⟨[call.request], Nat.le_refl 1, fun i => ?_, performs, ?_⟩
      · obtain ⟨offset, attached, _⟩ := (sound.inStep i).attached
        exact (attached_write attached sound.connected inSlot found notReplica notMaster isWrite run).2.2.1
      · exact performs ▸ numbered.fixed fixed
    | inr isWait =>
      -- a WAIT stores nothing and is passed to nobody
      have starts : startsTransaction client call.request = false := by simp [startsTransaction, isWait]
      refine ⟨[], masterPerforms_nothing numbered ?_ ?_⟩
      · exact serveRequest_passed inSlot found starts (by rw [isWait]; rfl) run
      · exact serveRequest_unaltered inSlot found starts (fun w => by simp [Alters, isWait]) run

/-- The effect of every event on a replica: it performs the commands that it executes. -/
theorem Net.Sound.replicaPerforms (sound : s.Sound links) (repeats : s.Repeats event)
    (numbered : (contents (s.replicas i).table).AllNumbered) (step : NetStep links s event t) :
    ∃ commands, (t.replicas i).executed = (s.replicas i).executed ++ commands ∧
      contents (t.replicas i).table = outcome Contents.perform (contents (s.replicas i).table) commands ∧
      (contents (t.replicas i).table).AllNumbered := by
  have nothing (same : t.replicas i = s.replicas i) : ∃ commands,
      (t.replicas i).executed = (s.replicas i).executed ++ commands ∧
        contents (t.replicas i).table = outcome Contents.perform (contents (s.replicas i).table) commands ∧
        (contents (t.replicas i).table).AllNumbered :=
    ⟨[], by rw [same, List.append_nil], by rw [same]; rfl, same ▸ numbered⟩
  cases event with
  | timers =>
    obtain ⟨⟨_, w⟩, isResult, rfl⟩ := Option.map_eq_some_iff.mp step
    exact nothing rfl
  | request sender call =>
    obtain ⟨⟨_, w⟩, isResult, rfl⟩ := Option.map_eq_some_iff.mp step
    exact nothing rfl
  | acknowledge j stale =>
    cases onTheWay : s.up j with
    | nil => simp [NetStep, Net.next, onTheWay] at step
    | cons answer rest =>
      simp only [NetStep, Net.next, onTheWay] at step
      obtain ⟨⟨_, w⟩, isResult, rfl⟩ := Option.map_eq_some_iff.mp step
      exact nothing rfl
  | deliver j stale =>
    cases onTheWay : s.down j with
    | nil => simp [NetStep, Net.next, onTheWay] at step
    | cons message rest =>
      simp only [NetStep, Net.next, onTheWay] at step
      obtain ⟨⟨_, w⟩, isResult, rfl⟩ := Option.map_eq_some_iff.mp step
      by_cases here : i = j
      · subst here
        -- the replica that takes the message; the others are not touched
        have replicas : (s.took i message rest w).replicas i = w := Function.update_self _ _ _
        have run := toOption_eq_some.mp isResult
        obtain ⟨client, following⟩ := (sound.inStep i).following
        have ofMaster := (sound.inStep i).messages message (by simp [Net.sentTo, onTheWay])
        have fixed : ∀ req ∈ carriedWrite message, Fixed (s.replicas i) req := repeats message (by simp [onTheWay])
        have performs := serveBuffer_performs following ofMaster numbered fixed run
        rw [replicas]
        refine ⟨_, (serveBuffer_ofMaster following ofMaster run).2.1, performs, ?_⟩
        rw [performs]
        cases carries : carriedWrite message with
        | none =>
          rw [List.filterMap_cons_none carries]
          exact numbered
        | some req =>
          rw [List.filterMap_cons_some carries]
          exact numbered.fixed (fixed req carries)
      · exact nothing (Function.update_of_ne here _ _)

end Steps

/-! ## Runs -/

section Runs

variable {ι : Type} [Externals D] [DecidableEq ι] {links : ι → Link} {s t : Net ι D} {event : NetEvent ι} {i : ι}

/-- The steps that a convergent run takes. -/
def Net.Converging (s : Net ι D) (event : NetEvent ι) : Prop := s.Serves event ∧ s.Transmits event ∧ s.Repeats event

instance (s : Net ι D) (event : NetEvent ι) : Decidable (s.Converging event) :=
  inferInstanceAs (Decidable (_ ∧ _ ∧ _))

/-- The invariant: the tables hold what their logs make of the contents at the start. -/
structure Net.Copied (links : ι → Link) (held : Contents D) (heldAt : ι → Contents D) (s : Net ι D) : Prop where
  sound : s.Sound links
  numbered : (contents s.master.table).AllNumbered
  numberedAt : ∀ i, (contents (s.replicas i).table).AllNumbered
  master : ∀ i, CommandLog.Follows Contents.perform held (fun s : Net ι D => contents s.master.table)
    (fun s => passedTo (links i).ptr s.master) s
  replica : ∀ i, CommandLog.Follows Contents.perform (heldAt i) (fun s : Net ι D => contents (s.replicas i).table)
    (fun s => (s.replicas i).executed) s

theorem Net.Copied.step {held : Contents D} {heldAt : ι → Contents D} (copied : s.Copied links held heldAt)
    (converging : s.Converging event) (step : NetStep links s event t) : t.Copied links held heldAt := by
  obtain ⟨serves, transmits, repeats⟩ := converging
  obtain ⟨commands, performs⟩ := copied.sound.masterPerforms serves transmits repeats copied.numbered step
  constructor
  · exact copied.sound.step serves transmits step
  · exact performs.numbered
  · intro i
    obtain ⟨_, _, _, numbered⟩ := copied.sound.replicaPerforms repeats (copied.numberedAt i) step
    exact numbered
  · exact fun i => (copied.master i).step (performs.passed i) performs.performed
  · intro i
    obtain ⟨_, executed, performed, _⟩ := copied.sound.replicaPerforms repeats (copied.numberedAt i) step
    exact (copied.replica i).step executed performed

omit [Externals D] [DecidableEq ι] in
/-- The commands that a replica has executed are the first of those that were passed to it, and all of them where
nothing is on its way. -/
theorem Net.Sound.executed_prefix (sound : s.Sound links) (i : ι) :
    (s.replicas i).executed <+: passedTo (links i).ptr s.master ∧
      (s.down i = [] → (s.replicas i).executed = passedTo (links i).ptr s.master) := by
  rw [(sound.inStep i).executed, (sound.inStep i).passed, Net.sentTo, List.filterMap_append]
  exact ⟨List.prefix_append _ _, fun nothing => by simp [nothing]⟩

section Starts

variable (starts : s.AllAttached links) (numbered : (contents s.master.table).AllNumbered)
  (numberedAt : ∀ i, (contents (s.replicas i).table).AllNumbered)
include starts numbered numberedAt

omit [Externals D] [DecidableEq ι] in
theorem Net.AllAttached.copied : s.Copied links (contents s.master.table) fun i => contents (s.replicas i).table where
  sound := starts.sound
  numbered := numbered
  numberedAt := numberedAt
  master i := by
    rw [CommandLog.Follows, starts.passed i]
    rfl
  replica i := by
    rw [CommandLog.Follows, starts.executed i]
    rfl

/-- Every state that is reached holds what its logs make of the contents at the start. -/
theorem Net.AllAttached.copied_of_run (run : Run (NetStep links) Net.Converging s t) :
    t.Copied links (contents s.master.table) fun i => contents (s.replicas i).table :=
  run.invariant (fun _ _ _ copied converging step => copied.step converging step)
    (starts.copied numbered numberedAt)

/-- The replica has performed, from its own start, what the master had passed on in an earlier state. -/
theorem Net.AllAttached.passes_replica (run : Run (NetStep links) Net.Converging s t) (i : ι) :
    ∃ u, Run (NetStep links) Net.Converging s u ∧ Run (NetStep links) Net.Converging u t ∧
      contents u.master.table = outcome Contents.perform (contents s.master.table) (t.replicas i).executed := by
  have grows : CommandLog.Grows (NetStep links) Net.Converging
      (Net.Copied links (contents s.master.table) fun i => contents (s.replicas i).table)
      fun s : Net ι D => passedTo (links i).ptr s.master := by
    rintro u event v copied ⟨serves, transmits, repeats⟩ step
    obtain ⟨commands, performs⟩ := copied.sound.masterPerforms serves transmits repeats copied.numbered step
    dsimp only
    rw [performs.passed i]
    have few := performs.few
    cases commands with
    | nil => exact .inl (List.append_nil _)
    | cons command more =>
      obtain rfl : more = [] := List.eq_nil_of_length_eq_zero (by simpa using few)
      exact .inr ⟨command, rfl⟩
  have follows (u : Net ι D) (reached : Run (NetStep links) Net.Converging s u) :=
    (starts.copied_of_run numbered numberedAt reached).master i
  have behind : passedTo (links i).ptr s.master <+: (t.replicas i).executed := by
    rw [starts.passed i]
    exact List.nil_prefix
  have isPart := ((starts.copied_of_run numbered numberedAt run).sound.executed_prefix i).1
  exact passes_outcome grows (fun _ _ _ copied converging step => copied.step converging step)
    (starts.copied numbered numberedAt) follows run behind isPart

/-- What was alike at the start is at the replica what it was at the master in an earlier state. -/
theorem Net.AllAttached.holds_earlier (run : Run (NetStep links) Net.Converging s t) (i : ι) :
    ∃ u, Run (NetStep links) Net.Converging s u ∧ Run (NetStep links) Net.Converging u t ∧
      ∀ bucket, contents (s.replicas i).table bucket = contents s.master.table bucket →
        contents (t.replicas i).table bucket = contents u.master.table bucket := by
  obtain ⟨u, here, rest, isOutcome⟩ := starts.passes_replica numbered numberedAt run i
  refine ⟨u, here, rest, fun bucket alike => ?_⟩
  calc contents (t.replicas i).table bucket
      = outcome Contents.perform (contents (s.replicas i).table) (t.replicas i).executed bucket :=
        congrFun ((starts.copied_of_run numbered numberedAt run).replica i) bucket
    _ = outcome Contents.perform (contents s.master.table) (t.replicas i).executed bucket :=
        outcome_alike Contents.perform_local alike
    _ = contents u.master.table bucket := (congrFun isOutcome bucket).symm

/-- What was alike at the start is alike where nothing is on its way. -/
theorem Net.AllAttached.holds_now (run : Run (NetStep links) Net.Converging s t) (i : ι) (nothing : t.down i = [])
    {bucket : Bucket} (alike : contents (s.replicas i).table bucket = contents s.master.table bucket) :
    contents (t.replicas i).table bucket = contents t.master.table bucket := by
  have copied := starts.copied_of_run numbered numberedAt run
  calc contents (t.replicas i).table bucket
      = outcome Contents.perform (contents (s.replicas i).table) (t.replicas i).executed bucket :=
        congrFun (copied.replica i) bucket
    _ = outcome Contents.perform (contents s.master.table) (passedTo (links i).ptr t.master) bucket := by
        rw [(copied.sound.executed_prefix i).2 nothing]
        exact outcome_alike Contents.perform_local alike
    _ = contents t.master.table bucket := (congrFun (copied.master i) bucket).symm

end Starts

/-- In every run of a master and its replicas whose write commands store the same at both sides, a replica holds in the
buckets that were alike at the start what the master held there at some earlier state of the run, the same for all of
them, and what the master holds there now whenever nothing is on its way to the replica. -/
theorem replicas_converge (starts : s.AllAttached links) (numbered : (contents s.master.table).AllNumbered)
    (numberedAt : ∀ i, (contents (s.replicas i).table).AllNumbered)
    (run : Run (NetStep links) Net.Converging s t) (i : ι) :
    (∃ u, Run (NetStep links) Net.Converging s u ∧ Run (NetStep links) Net.Converging u t ∧
        ∀ bucket, contents (s.replicas i).table bucket = contents s.master.table bucket →
          contents (t.replicas i).table bucket = contents u.master.table bucket) ∧
      (t.down i = [] → ∀ bucket, contents (s.replicas i).table bucket = contents s.master.table bucket →
        contents (t.replicas i).table bucket = contents t.master.table bucket) :=
  ⟨starts.holds_earlier numbered numberedAt run i,
    fun nothing _ alike => starts.holds_now numbered numberedAt run i nothing alike⟩

/-- A list, a number and a stream are written, and the replica takes two of the commands. -/
theorem replicas_converge_one : ∃ t : Net Unit Int,
    (contents t.master.table).value? (lit "l") = some (.list [lit "b", lit "a"]) ∧
    (contents t.master.table).value? (lit "n") = some (.string (lit "1")) ∧
    (contents (t.replicas ()).table).value? (lit "n") = none ∧
    ∃ u, Run (NetStep onlyLink) Net.Converging netOfOne u ∧ Run (NetStep onlyLink) Net.Converging u t ∧
      contents (t.replicas ()).table = contents u.master.table := by
  let events := [clientSends [lit "LPUSH", lit "l", lit "a"], clientSends [lit "XADD", lit "s", lit "5-*", lit "f", lit "v"],
    clientSends [lit "LPUSH", lit "l", lit "b"], .deliver () [], clientSends [lit "INCR", lit "n"], .deliver () []]
  have evaluates : (Run.follow (fun u event => u.next onlyLink event) Net.Converging netOfOne events).any
      (fun t => decide ((contents t.master.table).value? (lit "l") = some (.list [lit "b", lit "a"]) ∧
        (contents t.master.table).value? (lit "n") = some (.string (lit "1")) ∧
        (contents (t.replicas ()).table).value? (lit "n") = none)) = true := by
    decide +kernel
  obtain ⟨t, follows, checked⟩ := (Option.any_eq_true _ _).mp evaluates
  obtain ⟨list, number, missing⟩ := of_decide_eq_true checked
  have run : Run (NetStep onlyLink) Net.Converging netOfOne t := Run.of_follow (fun _ _ _ isNext => isNext) follows
  obtain ⟨u, here, rest, alike⟩ := (replicas_converge netOfOne_allAttached Contents.allNumbered_empty
    (fun _ => Contents.allNumbered_empty) run ()).1
  exact ⟨t, list, number, missing, u, here, rest, funext fun bucket => alike bucket rfl⟩

/-! ## What PSYNC does not transfer -/

/-- What the master holds when a replica is attached stays where it is: in every run behind the handshake, a bucket for
which no write command was passed on holds at either side what it held at the start, so that a replica lacks for ever
what it lacked then. -/
theorem psync_transfers_nothing (starts : s.AllAttached links) (numbered : (contents s.master.table).AllNumbered)
    (numberedAt : ∀ i, (contents (s.replicas i).table).AllNumbered)
    (run : Run (NetStep links) Net.Converging s t) (i : ι) {bucket : Bucket}
    (unwritten : ∀ req ∈ passedTo (links i).ptr t.master, req.bucket ≠ some bucket) :
    contents (t.replicas i).table bucket = contents (s.replicas i).table bucket ∧
      contents t.master.table bucket = contents s.master.table bucket := by
  have copied := starts.copied_of_run numbered numberedAt run
  have unexecuted : ∀ req ∈ (t.replicas i).executed, req.bucket ≠ some bucket := fun req member =>
    unwritten req ((copied.sound.executed_prefix i).1.subset member)
  constructor
  · exact (congrFun (copied.replica i) bucket).trans (outcome_unreached Contents.perform_local unexecuted)
  · exact (congrFun (copied.master i) bucket).trans (outcome_unreached Contents.perform_local unwritten)

/-- One string. -/
def earlyTable : Table Int := fun bucket =>
  if bucketOf (lit "k") = some bucket then ⟨[(lit "k", ⟨.string (lit "v"), 0⟩)], false⟩ else .empty

/-- A master that holds a key when its replica is attached. -/
def netOfLate : Net Unit Int := { netOfOne with master := { masterOfOne with table := earlyTable } }

theorem netOfLate_allAttached : netOfLate.AllAttached onlyLink := by
  obtain ⟨connected, accepted, apart, attached, passed, following, executed, counted, taken, down, up, awaited⟩ :=
    netOfOne_allAttached
  obtain ⟨started, bounded, inUse, polled, distinct, unlike⟩ := connected
  obtain ⟨inSlot, client, notMaster, notWaiter⟩ := attached ()
  exact ⟨⟨started, bounded, inUse, polled, distinct, unlike⟩, accepted, apart, fun _ => ⟨inSlot, client, notMaster, notWaiter⟩,
    passed, following, executed, counted, taken, down, up, awaited⟩

theorem earlyTable_allNumbered : (contents earlyTable).AllNumbered := by
  intro bucket node member
  unfold contents earlyTable Chain.mapValues at member
  split at member <;> simp_all [Chain.empty]

/-- A list that is written later is copied, and the key is not. -/
theorem psync_transfers_nothing_late : ∃ t : Net Unit Int,
    (contents (t.replicas ()).table).value? (lit "l") = some (.list [lit "a"]) ∧
    (contents t.master.table).value? (lit "k") = some (.string (lit "v")) ∧
    ∀ bucket ∈ bucketOf (lit "k"), contents (t.replicas ()).table bucket = contents onlyReplica.table bucket := by
  let events := [clientSends [lit "RPUSH", lit "l", lit "a"], .deliver () []]
  have evaluates : (Run.follow (fun u event => u.next onlyLink event) Net.Converging netOfLate events).any (fun t => decide (
      (contents (t.replicas ()).table).value? (lit "l") = some (.list [lit "a"]) ∧
      (contents t.master.table).value? (lit "k") = some (.string (lit "v")) ∧
      ∀ req ∈ passedTo (onlyLink ()).ptr t.master, req.bucket ≠ bucketOf (lit "k"))) = true := by
    decide +kernel
  obtain ⟨t, follows, checked⟩ := (Option.any_eq_true _ _).mp evaluates
  obtain ⟨list, early, unwritten⟩ := of_decide_eq_true checked
  have run : Run (NetStep onlyLink) Net.Converging netOfLate t := Run.of_follow (fun _ _ _ isNext => isNext) follows
  refine ⟨t, list, early, fun bucket isBucket => ?_⟩
  exact (psync_transfers_nothing netOfLate_allAttached earlyTable_allNumbered (fun _ => Contents.allNumbered_empty) run ()
    fun req member same => unwritten req member (same.trans isBucket.symm)).1

end Runs

end RedisClone
