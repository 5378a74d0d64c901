import RedisClone.Verified.Durability

/-! # Requests for different keys can be served in any order

A write command reads and changes the chain of its key alone, so that a chain is the outcome of its own commands.  Two
runs that execute the same commands for every chain in the same order end with the same contents, in whatever order the
commands of different chains come, from whichever clients and inside or outside of transactions
(`interleavings_agree`).
-/

namespace RedisClone

open Exec CString CommandLog

variable {D : Type}

/-! ## Runs -/

section Runs

variable [Externals D] {s t s' t' : Server D} {event : Event} {held : Contents D}

/-- The arm that the event runs is one of a write command that depends neither on the clock nor on a client that waits,
or it alters nothing. -/
def Server.Steady (s : Server D) (event : Event) : Prop :=
  ∀ ptr req, Dispatches s event ptr req →
    (isWriteCmd req.command = true ∧ Fixed s.world req) ∨ (isWriteCmd req.command = false ∧ ¬ Alters (s.world.noted req) req)

/-- The invariant: the contents are the outcome of what was executed behind some log. -/
structure Server.Follows (before : List RespRequest) (held : Contents D) (s : Server D) : Prop where
  outside : OutsideMulti s
  numbered : (contents s.world.table).AllNumbered
  follows : ∃ log, s.world.executed = before ++ log ∧ contents s.world.table = outcome Contents.perform held log

theorem Server.Follows.step {before : List RespRequest} (follows : s.Follows before held) (steady : s.Steady event)
    (step : Step s event t) : t.Follows before held := by
  obtain ⟨outside, numbered, log, executed, isOutcome⟩ := follows
  have outside' := outsideMulti_step outside step
  by_cases dispatched : ∃ ptr req, Dispatches s event ptr req
  · obtain ⟨ptr, req, dispatches⟩ := dispatched
    obtain ⟨handled, run, kept⟩ := dispatch_of_step outside step dispatches
    have sameTable : contents t.world.table = contents handled.table :=
      congrArg contents (funext fun bucket => kept.table bucket id)
    have sameLog : t.world.executed = (s.world.noted req).executed := (kept.executed id).trans (dispatch_executed run)
    cases steady ptr req dispatches with
    | inl isWrite =>
      obtain ⟨isWrite, fixed⟩ := isWrite
      have performs := sameTable.trans (dispatch_performs numbered fixed (.inl isWrite) run)
      refine ⟨outside', ?_, log ++ [req], ?_, ?_⟩
      · rw [performs]
        exact numbered.perform fixed.2
      · rw [sameLog, World.noted, if_pos isWrite, executed, List.append_assoc]
      · rw [performs, isOutcome, outcome_append, outcome_singleton]
    | inr isQuiet =>
      obtain ⟨readOnly, unaltered⟩ := isQuiet
      obtain ⟨client, armed, notified, _, arms, notify, write⟩ := dispatch_parts run
      have sameContents : contents t.world.table = contents s.world.table := by
        rw [sameTable, table_afterArm notify write]
        exact contents_unaltered (w := s.world.noted req) unaltered arms
      refine ⟨outside', sameContents ▸ numbered, log, ?_, sameContents.trans isOutcome⟩
      rw [sameLog, World.noted, if_neg (by simp [readOnly]), executed]
  · have undispatched (ptr : ClientPtr) (req : RespRequest) : ¬ Dispatches s event ptr req :=
      fun dispatches => dispatched ⟨ptr, req, dispatches⟩
    obtain ⟨sameTable, sameLog⟩ := data_of_step outside step undispatched
    have sameContents : contents t.world.table = contents s.world.table := congrArg contents sameTable
    exact ⟨outside', sameContents ▸ numbered, log, sameLog.trans executed, sameContents.trans isOutcome⟩

/-- The contents after a run are what the executed commands make of those before it. -/
theorem contents_of_run (outside : OutsideMulti s) (numbered : (contents s.world.table).AllNumbered)
    (run : Run Step Server.Steady s t) {log : List RespRequest} (executed : t.world.executed = s.world.executed ++ log) :
    contents t.world.table = outcome Contents.perform (contents s.world.table) log := by
  have atStart : s.Follows s.world.executed (contents s.world.table) :=
    ⟨outside, numbered, [], (List.append_nil _).symm, rfl⟩
  obtain ⟨_, _, log', executed', isOutcome⟩ :=
    run.invariant (fun _ _ _ follows steady step => follows.step steady step) atStart
  obtain rfl : log = log' := List.append_cancel_left (executed.symm.trans executed')
  exact isOutcome

/-- Two runs from the same contents that execute the same commands for every bucket, in the same order, end with the
same contents. -/
theorem interleavings_agree (outside : OutsideMulti s) (outside' : OutsideMulti s')
    (numbered : (contents s.world.table).AllNumbered) (sameStart : contents s'.world.table = contents s.world.table)
    (run : Run Step Server.Steady s t) (run' : Run Step Server.Steady s' t') {log log' : List RespRequest}
    (executed : t.world.executed = s.world.executed ++ log) (executed' : t'.world.executed = s'.world.executed ++ log')
    (sameOrder : ∀ bucket, (ofPart RespRequest.bucket bucket log).map copyRequest =
      (ofPart RespRequest.bucket bucket log').map copyRequest) :
    contents t.world.table = contents t'.world.table := by
  rw [contents_of_run outside numbered run executed, contents_of_run outside' (sameStart ▸ numbered) run' executed',
    sameStart]
  exact outcome_agree Contents.perform_local Contents.perform_factors sameOrder

/-- A transaction of one client against two commands that two clients send the other way round. -/
theorem interleavings_agree_two : ∃ t t' : Server Int,
    t.world.executed ≠ t'.world.executed ∧
    (contents t.world.table).value? (lit "l") = some (.list [lit "a"]) ∧
    contents t.world.table = contents t'.world.table := by
  let push := [lit "RPUSH", lit "l", lit "a"]
  let incr := [lit "INCR", lit "n"]
  let allowed (s : Server Int) (event : Event) : Prop := ∀ call ∈ s.calls event,
    isWriteCmd call.2.command = true ∧ Fixed s.world call.2 ∨ isTransactionCmd call.2.command = true
  have steady (s : Server Int) (event : Event) (permitted : allowed s event) : s.Steady event := by
    intro ptr req dispatches
    obtain ⟨calls, client, found, reaches⟩ := dispatches
    cases permitted (ptr, req) calls with
    | inl isWrite => exact .inl isWrite
    | inr isTransaction => simp_all [reachesArm_eq_true]
  obtain ⟨t, run, checked⟩ := exists_run_of_play
    (show (play allowed idleServer [.connect 5 0, arrival firstSlot [lit "MULTI"], arrival firstSlot push,
        arrival firstSlot incr, arrival firstSlot [lit "EXEC"], .proceed, .proceed, .proceed]).any (fun t =>
          decide (t.world.executed = [copyRequest (requestOf push), copyRequest (requestOf incr)]) &&
            decide ((contents t.world.table).value? (lit "l") = some (.list [lit "a"]))) = true by
      decide +kernel)
  obtain ⟨t', run', executed'⟩ := exists_run_of_play
    (show (play allowed idleServer [.connect 5 0, .connect 6 1, arrival secondSlot incr, arrival firstSlot push]).any
        (fun t => decide (t.world.executed = [requestOf incr, requestOf push])) = true by
      decide +kernel)
  simp only [Bool.and_eq_true, decide_eq_true_eq] at checked executed'
  obtain ⟨executed, list⟩ := checked
  refine ⟨t, t', ?_, list, interleavings_agree ?_ ?_ Contents.allNumbered_empty rfl (run.mono steady)
    (run'.mono steady) executed executed' ?_⟩
  · rw [executed, executed']
    decide +kernel
  · rintro transaction client ⟨⟩
  · rintro transaction client ⟨⟩
  · intro bucket
    have apart : (requestOf push).bucket ≠ (requestOf incr).bucket := by decide +kernel
    have ofCopy (req : RespRequest) : (copyRequest req).bucket = req.bucket := rfl
    have copyOfCopy (req : RespRequest) : copyRequest (copyRequest req) = copyRequest req := rfl
    by_cases isPush : (requestOf push).bucket = some bucket
    · have notIncr : (requestOf incr).bucket ≠ some bucket := fun same => apart (isPush.trans same.symm)
      simp [ofPart, ofCopy, copyOfCopy, isPush, notIncr]
    · by_cases isIncr : (requestOf incr).bucket = some bucket <;> simp [ofPart, ofCopy, copyOfCopy, isPush, isIncr]

end Runs

end RedisClone
