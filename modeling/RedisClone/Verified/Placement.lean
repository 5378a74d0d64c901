import RedisClone.Lib.Preserves
import RedisClone.Verified.Connections
import RedisClone.Verified.SnapshotRounds
import RedisClone.Verified.Writes

/-! # Every node is in the bucket of its key

`Placed` holds of the empty table, and every write keeps it: those of the handlers (`arm_written`), the loader and the
replay of the append-only file.  So it holds in every state that a run of the server reaches (`placed_of_run`).
-/

namespace RedisClone

open Exec

variable {D : Type}

theorem Stores.placed {table table' : Table D} {key : Bytes} {entry : Entry D} {overwrites : Bool}
    (stores : Stores table key entry overwrites table') (placed : Placed table) : Placed table' := by
  cases stores with
  | changed inBucket bound => exact placed.updateKey key _
  | pushed inBucket unbound => exact placed.push inBucket entry
  | replaced inBucket wild => exact placed.replaceHead inBucket entry wild

def KeepsPlaced (w t : World D) : Prop := Placed w.table → Placed t.table

theorem KeepsPlaced.of_same {w t : World D} (same : t.table = w.table) : KeepsPlaced w t :=
  fun placed => same ▸ placed

instance cumulative_keepsPlaced : Cumulative (KeepsPlaced (D := D)) where
  composes := ⟨fun _ => id, fun first second placed => second (first placed)⟩

/-! ## The loader -/

section Loader

variable {key : Bytes}

instance placed_storeSet (value : Value D) (flag : TimeFlags) (seconds : Int) :
    Preserves KeepsPlaced (storeSet key value flag seconds) where
  run _ _ _ run := (storeSet_stores run).2.placed

instance placed_expireFirst (ms : Int) (missing : M D Unit) [preserves : Preserves KeepsPlaced missing] :
    Preserves KeepsPlaced (expireFirst key ms missing) where
  run w a t run := by
    unfold expireFirst at run
    obtain ⟨bucket, indexed, index, rest⟩ := bind_eq_ok.mp run
    obtain ⟨inBucket, rfl⟩ := tableIndex_eq_ok.mp index
    rw [bind_of_ok (observe_run _ _)] at rest
    split at rest
    · exact preserves.run indexed a t rest
    · rw [changeBucket_run] at rest
      obtain rfl : indexed.setBucket bucket _ = t := (Prod.mk.inj (Except.ok.inj rest)).2
      exact fun placed => placed.updateFirst _

instance placed_countLoaded (loaded : Int) : Preserves KeepsPlaced (countLoaded loaded : M D Int) := by
  unfold countLoaded fault
  infer_instance

instance placed_loadKey (valueType : UInt8) (expiryMs : Int) (f : Bytes) (loaded : Int) :
    Preserves KeepsPlaced (loadKey valueType expiryMs f loaded : M D (Option LoadState)) := by
  unfold loadKey fault
  refine .bind inferInstance fun readKey => ?_
  split
  · exact preserves_pure none
  · split
    · refine .bind inferInstance fun readValue => ?_
      split
      · exact preserves_pure _
      · infer_instance
    · split
      · refine .bind inferInstance fun readValue => ?_
        split
        · exact preserves_pure none
        · infer_instance
      · exact preserves_pure none

instance placed_loadRound (s : LoadState) : Preserves KeepsPlaced (loadRound s : M D (Option LoadState)) := by
  unfold loadRound
  split
  · exact preserves_pure none
  · split
    · exact preserves_pure none
    · split
      · infer_instance
      · split
        · exact preserves_pure _
        · split
          · exact preserves_pure _
          · split
            · exact preserves_pure none
            · infer_instance

instance placed_loadRounds (fuel : Nat) (s : LoadState) : Preserves KeepsPlaced (loadRounds fuel s : M D Int) := by
  induction fuel generalizing s with
  | zero => exact preserves_pure s.loaded
  | succ fuel inductionHypothesis =>
    unfold loadRounds
    refine .bind inferInstance fun next => ?_
    cases next with
    | none => exact preserves_pure s.loaded
    | some s' => exact inductionHypothesis s'

instance placed_loadRdbIntoTable (rdb : Option Bytes) :
    Preserves KeepsPlaced (loadRdbIntoTable rdb : M D Int) := by
  cases rdb with
  | none => exact preserves_pure (-1)
  | some file => exact placed_loadRounds _ _

end Loader

/-! ## Requests -/

section Requests

variable [Externals D] {w t : World D} {req : RespRequest} {ptr : ClientPtr} {client : Client}

theorem placed_arm (run : arm req ptr client w = .ok ((), t)) : KeepsPlaced w t := by
  cases arm_written run with
  | same same unaltered => exact .of_same same
  | stores isKey stores => exact stores.placed

theorem Handled.placed (handles : Handled w req ptr client t) : KeepsPlaced w t := by
  cases reaches : reachesArm client req with
  | false => exact .of_same (handles.sameData reaches).table
  | true =>
    obtain ⟨client', handled, notified, _, arms, notify, write⟩ := dispatch_parts (handles.dispatch_of_reaches reaches)
    intro placed
    rw [table_afterArm notify write]
    exact placed_arm (w := w.noted req) arms placed

theorem placed_handle (run : handle req ptr w = .ok ((), t)) : KeepsPlaced w t := by
  intro placed
  refine handle_induction (P := fun u => Placed u.table) ?_ ?_ ?_ placed run
  · exact fun u u' req client before found handles => handles.placed before
  · exact fun u fd bytes before => before
  · exact fun u client requests isQueued before found => before

theorem placed_step {s t : Server D} {event : Event} (outside : OutsideMulti s) (step : Step s event t) :
    KeepsPlaced s.world t.world := by
  by_cases dispatched : ∃ sender req, Dispatches s event sender req
  · obtain ⟨sender, req, dispatches⟩ := dispatched
    obtain ⟨client, handled, found, arms, table, _⟩ := arm_of_step outside step dispatches
    intro placed
    rw [table]
    exact placed_arm (w := s.world.noted req) arms placed
  · exact .of_same (data_of_step outside step fun sender req dispatches =>
      dispatched ⟨sender, req, dispatches⟩).1

end Requests

/-! ## From the start on -/

section Start

variable [Externals D]

/-- `main` behind `load_rdb_into_table`: the append-only file was replayed, the snapshot was loaded, and the stack of
`rdb_config_handler` is gone. -/
inductive Loads : World D → Prop where
  | intro {serverConfig : RedisConfig} {files : Files} {clock : Nat → Int} {fresh : Nat → Bytes}
      {directory : DataDirectory} {fakeClient : ClientPtr} {rdb : Option Bytes} {keysLoaded : Int}
      {configured loaded : World D}
      (configures : rdbConfigHandler directory fakeClient (bootWorld serverConfig files clock fresh) =
        .ok ((), configured))
      (loads : loadRdbIntoTable rdb configured = .ok (keysLoaded, loaded)) :
      Loads { loaded with heap := Function.update loaded.heap fakeClient none }

/-- `main` at its loop, on a replica behind the handshake. -/
inductive Boots : World D → Prop where
  | alone {w t : World D} (loads : Loads w) (resets : resetForLoop w = .ok ((), t)) : Boots t
  | joined {w t : World D} {ptr : ClientPtr} {bytes stale : Bytes} {afterRdb : Nat} (loads : Loads w)
      (joins : (do joinMaster ptr bytes stale afterRdb; resetForLoop : M D Unit) w = .ok ((), t)) : Boots t

theorem placed_replayRequest {fakeClient : ClientPtr} {call : Call} {w t : World D}
    (run : replayRequest fakeClient call w = .ok ((), t)) : KeepsPlaced w t := by
  unfold replayRequest at run
  rw [bind_of_ok (alter_run _ w)] at run
  exact fun placed => placed_handle (w := w.setClient fakeClient replayClient) run placed

theorem Loads.placed {w : World D} (loads : Loads w) : Placed w.table := by
  cases loads with
  | intro configures loads =>
    have configuring := ((obeys_rdbConfigHandler cumulative_keepsPlaced.composes (fun _ => .of_same rfl)
      (fun _ _ => .of_same rfl) (fun _ _ => .of_same rfl) (fun _ _ _ run => placed_replayRequest run) _) _).1 () _
      configures
    have loading := (placed_loadRdbIntoTable _).run _ _ _ loads
    exact loading (configuring placed_empty)

theorem Boots.placed {w : World D} (boots : Boots w) : Placed w.table := by
  have reset {w t : World D} (resets : resetForLoop w = .ok ((), t)) : KeepsPlaced w t := by
    obtain rfl : _ = t := by simpa [resetForLoop] using resets
    exact .of_same rfl
  cases boots with
  | alone loads resets => exact reset resets loads.placed
  | joined loads joins =>
    obtain ⟨_, joined, joining, resets⟩ := bind_eq_ok.mp joins
    refine reset resets (joinMaster_invariant (P := fun u => Placed u.table) ?_ ?_ joining)
    · exact fun slot isNext => loads.placed
    · intro u u' slot sender call placed inSlot handles
      have after : Placed u'.table := placed_handle handles placed
      exact after

/-- In every state that a run reaches, every node is in the bucket of its key. -/
theorem placed_of_run {w₀ : World D} {s : Server D} (boots : Boots w₀) (reached : Runs ⟨w₀, none⟩ s) :
    Placed s.world.table := by
  have both : Placed s.world.table ∧ OutsideMulti s := by
    apply reached.invariant ?_ (⟨boots.placed, fun _ _ running => nomatch running⟩ :
      Placed w₀.table ∧ OutsideMulti ⟨w₀, none⟩)
    intro s event s' both _ step
    exact ⟨placed_step both.2 step both.1, outsideMulti_step both.2 step⟩
  exact both.1

end Start

end RedisClone
