import RedisClone.Verified.Classification
import RedisClone.Verified.Subscriptions

/-! # The commands that read

A command that only reads should leave the table as it was.  `reads_pure_iff`: of the commands here this is so for
every one but GEOSEARCH, which was written after ZADD and creates the key that it does not find, over the first node of
the bucket.
-/

namespace RedisClone

open Exec CString

variable {D : Type}

/-- The commands that read keys. -/
def isReadCmd : RedisCmds → Bool
  | .get | .type | .keys | .lrange | .llen | .zrank | .zrange | .zcard | .zscore | .geopos | .geodist | .geosearch
  | .xrange | .xread => true
  | _ => false

variable [Externals D] {w t : World D} {req : RespRequest} {ptr : ClientPtr} {client : Client}

/-- Of these commands only GEOSEARCH writes. -/
theorem armWrites_of_isReadCmd (isRead : isReadCmd req.command = true) (writes : ArmWrites w req) :
    req.command = .geosearch ∧ CreatesSet w req := by
  unfold ArmWrites at writes
  cases command : req.command with
  | geosearch => exact ⟨rfl, by simpa only [command] using writes⟩
  | set | incr | lpush | rpush | lpop | blpop | zadd | zrem | geoadd | xadd => simp [isReadCmd, command] at isRead
  | _ => simp [command] at writes

/-- What GEOSEARCH finds missing is bound to a set afterwards. -/
theorem table_ne_of_creates (isGeosearch : req.command = .geosearch) (creates : GeosearchAlters w req)
    (run : dispatch req ptr w = .ok ((), t)) : t.table ≠ w.table := by
  have alters : Alters (w.noted req) req := by
    unfold Alters
    rw [isGeosearch]
    exact creates
  obtain ⟨key, isKey⟩ := alters.key
  have changed := (dispatch_affects_iff run key).mpr ⟨alters, key, isKey, .inl rfl⟩
  exact fun same => changed (by rw [same])

/-- A read command leaves the table as it was, unless it is a GEOSEARCH that `handle` executes and that does not find
its key. -/
theorem reads_pure_iff (isRead : isReadCmd req.command = true) (found : w.heap ptr = some client)
    (run : handle req ptr w = .ok ((), t)) :
    t.table = w.table ↔
      ¬ (reachesArm client req = true ∧ req.command = .geosearch ∧ GeosearchAlters w req) := by
  have starts : startsTransaction client req = false := by
    cases command : req.command <;> simp_all [startsTransaction, isReadCmd]
  have handles := handle_cases found starts run
  cases reaches : reachesArm client req with
  | false => simp [(handles.sameData reaches).table]
  | true =>
    have dispatches := handles.dispatch_of_reaches reaches
    constructor
    · rintro same ⟨_, isGeosearch, creates⟩
      exact table_ne_of_creates isGeosearch creates dispatches same
    · intro createsNothing
      funext bucket
      apply (kept_dispatch dispatches).table bucket
      rintro ⟨writes, _⟩
      obtain ⟨isGeosearch, enough, key, isKey, absent⟩ := armWrites_of_isReadCmd isRead writes
      exact createsNothing ⟨rfl, isGeosearch, enough, key, isKey, binding_of_lookup absent⟩

/-- A client asks for the length of a list. -/
def lengthOfK : RespRequest := requestOf [lit "LLEN", lit "k"]

/-- LLEN of a missing key creates nothing. -/
theorem reads_pure_llen : ∃ t : World Int,
    handle lengthOfK 0 oneClient = .ok ((), t) ∧ t.sent ≠ [] ∧ t.table = oneClient.table := by
  obtain ⟨t, run, answered⟩ := exists_ok_of_endsIn
    (show endsIn (handle lengthOfK 0) oneClient (fun t => !t.sent.isEmpty) = true by decide +kernel)
  have found : oneClient.heap 0 = some (newClient 5) := by decide +kernel
  have unchanged := (reads_pure_iff (by decide +kernel) found run).mpr fun creates =>
    absurd creates.2.1 (by decide +kernel)
  exact ⟨t, run, by simpa using answered, unchanged⟩

/-- A client asks for the members near a place. -/
def searchNear : Event :=
  arrival firstSlot [lit "GEOSEARCH", lit "g", lit "FROMLONLAT", lit "1", lit "2", lit "BYRADIUS", lit "3", lit "km"]

/-- GEOSEARCH of a missing key binds it. -/
theorem geosearch_creates :
    ¬ ∀ (t u : Server Int) (slot : ClientSlot) (call : Call), Runs idleServer t →
      isReadCmd call.request.command = true → Step t (.request slot call) u → u.world.table = t.world.table := by
  intro unchanged
  obtain ⟨t, run, checked⟩ := exists_run_of_play
    (show (play (fun _ _ => True) idleServer [.connect 5 0]).any
      (fun t => (next t searchNear).any fun u => decide
        (binding u.world.table (lit "g") ≠ binding t.world.table (lit "g"))) = true by
      decide +kernel)
  obtain ⟨u, isNext, changed⟩ := (Option.any_eq_true _ _).mp checked
  have same := unchanged t u _ _ run (by decide +kernel) (next_step isNext)
  exact of_decide_eq_true changed (by rw [same])

end RedisClone
