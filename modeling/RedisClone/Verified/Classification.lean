import RedisClone.Verified.Reachable
import RedisClone.Verified.Writes

/-! # The write commands and the commands that write

`isWriteCmd` decides which requests reach the replicas and are counted in `master_repl_offset`.
`write_classification_iff` says in which steps it misses a change of the table: the commands that write and
are not in its list, and every write inside EXEC, since the event loop sees the EXEC only.
-/

namespace RedisClone

open Exec

variable {D : Type}

/-- The request of the event loop that the step is part of. -/
def Server.serving (s : Server D) : Event → Option RespRequest
  | .request _ call => some call.request
  | .proceed => s.running.map fun transaction => transaction.call.request
  | _ => none

/-- The commands that can write the table and are not in the list of `isWriteCmd`. -/
def isUnlistedWrite : RedisCmds → Bool
  | .zadd | .zrem | .geoadd | .geosearch | .blpop => true
  | _ => false

variable [Externals D]

/-- The step runs a command that changes what its key is bound to, inside EXEC or as one of the commands
that `isWriteCmd` does not list. -/
def WritesUnlisted (s : Server D) (event : Event) : Prop :=
  ∃ ptr req, Dispatches s event ptr req ∧ Alters (s.world.noted req) req ∧
    (event = .proceed ∨ isUnlistedWrite req.command = true)

/-! ## What is counted -/

/-- Both states have the same `master_repl_offset`. -/
def SameOffset (w w' : World D) : Prop :=
  w'.serverConfig.masterReplOffset = w.serverConfig.masterReplOffset

omit [Externals D] in
theorem ambient_sameOffset : Ambient (SameOffset (D := D)) fun _ => True where
  composes := ⟨fun _ => rfl, fun first second => second.trans first⟩
  emit _ _ _ := rfl
  tick _ := rfl
  takeFresh _ := rfl
  change _ _ _ _ _ _ _ := rfl
  authorize _ _ _ := rfl
  faults _ _ _ := trivial

omit [Externals D] in
theorem mayBlock_sameOffset : MayBlock (SameOffset (D := D)) where
  change _ _ _ _ _ _ := rfl
  configure w f same := by
    change (f w.serverConfig).masterReplOffset = _
    rw [same w.serverConfig]

theorem dispatch_sameOffset {req : RespRequest} {ptr : ClientPtr} {w w' : World D}
    (run : dispatch req ptr w = .ok ((), w')) : SameOffset w w' :=
  (obeysAt_dispatch ambient_sameOffset (.inl trivial) (.inl trivial) (fun _ _ _ _ _ _ _ => rfl)
    (fun _ => mayBlock_sameOffset) (fun _ _ _ => rfl) (fun _ _ _ _ _ => rfl)
    (fun _ => ⟨fun _ _ => rfl, fun _ _ => rfl⟩)).1 () w' run

omit [Externals D] in
/-- A write command is counted and sent to every replica. -/
theorem propagate_counts {ptr : ClientPtr} {call : Call} {client : Client} {w w' : World D}
    (found : w.heap ptr = some client) (notMaster : client.fd ≠ w.serverConfig.masterFd)
    (isWrite : isWriteCmd call.request.command = true) (run : propagate ptr call w = .ok ((), w')) :
    w'.serverConfig.masterReplOffset = w.serverConfig.masterReplOffset + call.length ∧
      w'.passed = w.passed ++ w'.replicas.map fun ptr => (ptr, call.request) := by
  have passes := propagate_run found notMaster run
  constructor
  · unfold propagate at run
    rw [bind_of_ok (loadClient_found found),
      bind_of_ok (show config w = .ok (w.serverConfig, w) from rfl), if_neg notMaster, isWrite, onlyIf,
      if_pos rfl, bind_of_ok (show setConfig _ w = .ok ((), _) from rfl), passDataToReplica, isWrite,
      if_pos rfl] at run
    rw [forM_passTo_run run]
    rfl
  · have sameReplicas : w'.replicas = w.replicas := by
      rw [passes]
      rfl
    rw [sameReplicas, passes, isWrite, if_pos rfl]

/-- A write command that changes a binding is counted and sent to every replica. -/
theorem counted_of_write {s t : Server D} {slot : ClientSlot} {call : Call}
    (wellFormed : WellFormed s) (step : Step s (.request slot call) t)
    (isWrite : isWriteCmd call.request.command = true) {key : Bytes}
    (changed : binding t.world.table key ≠ binding s.world.table key) :
    t.world.serverConfig.masterReplOffset = s.world.serverConfig.masterReplOffset + call.length ∧
      t.world.passed = s.world.passed ++ t.world.replicas.map fun ptr => (ptr, call.request) := by
  obtain ⟨ptr, req, ⟨calls, client, found, reaches⟩, affects⟩ :=
    (step_affects_iff wellFormed.outside step key).mp changed
  cases step_cases wellFormed.outside step with
  | quiet idle noRequest kept => exact absurd rfl (noRequest slot call)
  | started ptr' client' idle occupied found' starts =>
    have isExec := (startsTransaction_eq_true.mp starts).1
    simp [isExec, isWriteCmd] at isWrite
  | served ptr' client' idle occupied found' starts handles propagates =>
    simp only [Server.calls, occupied, Option.map_some, Option.some.injEq, Prod.mk.injEq] at calls
    obtain ⟨rfl, rfl⟩ := calls
    obtain rfl : client' = client := Option.some.inj (found'.symm.trans found)
    have run := handles.dispatch_of_reaches reaches
    have kept := kept_dispatch run
    obtain ⟨after, foundAfter, session⟩ := kept.heap ptr' client' found'
    -- requests of the master are not counted, and the sender is not the master
    have notMaster := wellFormed.notMaster found'
    rw [← kept.masterFd, ← session.fd] at notMaster
    obtain ⟨counted, passed⟩ := propagate_counts foundAfter notMaster isWrite propagates
    have sameOffset : SameOffset s.world _ := dispatch_sameOffset run
    exact ⟨by rw [counted, sameOffset], by rw [passed, kept.passed id]⟩

/-! ## What is missed -/

theorem alters_command {w : World D} {req : RespRequest} (alters : Alters w req) :
    isWriteCmd req.command = true ∨ isUnlistedWrite req.command = true := by
  unfold Alters at alters
  cases command : req.command <;> simp_all [isWriteCmd, isUnlistedWrite]

omit [Externals D] in
theorem not_unlisted_of_write {cmd : RedisCmds} (isWrite : isWriteCmd cmd = true) :
    isUnlistedWrite cmd = false := by
  cases cmd <;> simp_all [isWriteCmd, isUnlistedWrite]

/-- In every reachable state of a master, a request that changes the table is a write command exactly where
the step does not write unlisted, and then it is counted and sent to every replica. -/
theorem write_classification_iff {s t u : Server D} {event : Event} (entry : AtLoopEntry s)
    (run : Runs s t) (step : Step t event u) :
    ((∃ key, binding u.world.table key ≠ binding t.world.table key) →
        ∃ req, t.serving event = some req ∧ isWriteCmd req.command = true ∧
          ∃ slot call, event = .request slot call ∧ call.request = req ∧
            u.world.serverConfig.masterReplOffset =
              t.world.serverConfig.masterReplOffset + call.length ∧
            u.world.passed = t.world.passed ++ u.world.replicas.map fun ptr => (ptr, req)) ↔
      ¬ WritesUnlisted t event := by
  have wellFormed := wellFormed_run run entry.wellFormed
  constructor
  · rintro classified ⟨ptr, req, dispatches, alters, missed⟩
    obtain ⟨key, isKey⟩ := alters.key
    have changed := (step_affects_iff wellFormed.outside step key).mpr
      ⟨ptr, req, dispatches, alters, key, isKey, .inl rfl⟩
    obtain ⟨served, serving, isWrite, slot, call, rfl, rfl, _⟩ := classified ⟨key, changed⟩
    obtain isProceed | unlisted := missed
    · simp at isProceed
    · obtain ⟨ptr', occupied, same⟩ := Option.map_eq_some_iff.mp dispatches.1
      obtain ⟨rfl, rfl⟩ := Prod.mk.inj same
      simp [not_unlisted_of_write isWrite] at unlisted
  · rintro listed ⟨key, changed⟩
    obtain ⟨ptr, req, dispatches, alters, _⟩ :=
      (step_affects_iff wellFormed.outside step key).mp changed
    -- what alters the table is a write command, or one that the list of write commands lacks
    have isListed := (alters_command alters).resolve_right fun unlisted =>
      listed ⟨ptr, req, dispatches, alters, .inr unlisted⟩
    cases event with
    | request slot call =>
      obtain ⟨ptr', occupied, same⟩ := Option.map_eq_some_iff.mp dispatches.1
      obtain ⟨rfl, rfl⟩ := Prod.mk.inj same
      exact ⟨call.request, rfl, isListed, slot, call, rfl, rfl,
        counted_of_write wellFormed step isListed changed⟩
    | proceed => exact absurd ⟨ptr, req, dispatches, alters, .inl rfl⟩ listed
    | poll _ | timers | connect _ _ | disconnect _ =>
      have := dispatches.1
      simp [Server.calls] at this

/-- A client sets a key. -/
def setKey : Event := arrival firstSlot [CString.lit "SET", CString.lit "k", CString.lit "v"]

/-- A client adds a member to a sorted set. -/
def addMember : Event :=
  arrival firstSlot [CString.lit "ZADD", CString.lit "z", CString.lit "1", CString.lit "a"]

/-- SET is counted. -/
theorem write_classification_set : ∃ t u : Server Int, Step t setKey u ∧
    ∃ req, t.serving setKey = some req ∧ isWriteCmd req.command = true := by
  obtain ⟨t, run, checked⟩ := exists_run_of_play
    (show (play (fun _ _ => True) idleServer [.connect 5 0]).any
      (fun t => (next t setKey).any fun u => decide
        (binding u.world.table (CString.lit "k") ≠ binding t.world.table (CString.lit "k"))) = true by
      decide +kernel)
  obtain ⟨u, isNext, changed⟩ := (Option.any_eq_true _ _).mp checked
  have listed : ¬ WritesUnlisted t setKey := by
    rintro ⟨ptr, req, dispatches, _, missed⟩
    obtain ⟨_, rfl⟩ := dispatches_arrival dispatches
    obtain isProceed | unlisted := missed
    · simp [setKey, arrival] at isProceed
    · exact absurd unlisted (by decide)
  obtain ⟨req, serving, isWrite, _⟩ := (write_classification_iff idleServer_atLoopEntry run
    (next_step isNext)).mpr listed ⟨CString.lit "k", of_decide_eq_true changed⟩
  exact ⟨t, u, next_step isNext, req, serving, isWrite⟩

/-- ZADD creates a sorted set and is not a write command. -/
theorem zadd_is_unlisted :
    ¬ ∀ (t u : Server Int) (event : Event), Runs idleServer t → Step t event u →
      (∃ key, binding u.world.table key ≠ binding t.world.table key) →
        ∃ req, t.serving event = some req ∧ isWriteCmd req.command = true := by
  intro classified
  obtain ⟨t, run, checked⟩ := exists_run_of_play
    (show (play (fun _ _ => True) idleServer [.connect 5 0]).any
      (fun t => (next t addMember).any fun u => decide
        (binding u.world.table (CString.lit "z") ≠ binding t.world.table (CString.lit "z"))) = true by
      decide +kernel)
  obtain ⟨u, isNext, changed⟩ := (Option.any_eq_true _ _).mp checked
  obtain ⟨req, serving, isWrite⟩ := classified t u addMember run (next_step isNext)
    ⟨CString.lit "z", of_decide_eq_true changed⟩
  obtain rfl : requestOf [CString.lit "ZADD", CString.lit "z", CString.lit "1", CString.lit "a"] = req :=
    Option.some.inj serving
  exact absurd isWrite (by decide)

end RedisClone
