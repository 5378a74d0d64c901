import RedisClone.Verified.Durability

/-! # Relations that every step keeps to

A relation between worlds that every kind of change keeps to holds between the ends of every run (`Everywhere.run`).
`Everywhere` lists the kinds of change that the code makes; that the clock only goes on is the first such relation.
-/

namespace RedisClone

open Exec CString

variable {D : Type}

/-- The relation allows every change that the code makes. -/
structure Everywhere (R : World D → World D → Prop) : Prop where
  composes : Composes R
  tick : ∀ w, R w w.tick
  takeFresh : ∀ w, R w w.takeFresh
  setBucket : ∀ w bucket chain, R w (w.setBucket bucket chain)
  authorize : ∀ w nopass password, R w { w with defaultHasNopass := nopass, defaultPassword := password }
  execute : ∀ w executed, R w { w with executed := executed }
  store : ∀ w files, R w { w with files := files }
  rename : ∀ w name, R w (w.configure fun server => { server with appendfilename := name })
  wait : ∀ w f, (∀ server, SameButWait server (f server)) → R w (w.configure f)
  count : ∀ w master slave, R w (w.configure fun server =>
    { server with masterReplOffset := master, slaveReplOffset := slave })
  connect : ∀ w heap clients watchList activeFds watchers sent passed,
    R w { w with heap, clients, watchList, activeFds, watchers, sent, passed }

namespace Everywhere

variable {R : World D → World D → Prop} (everywhere : Everywhere R)
include everywhere

/-- What only the memory for the clients and the messages differ in. -/
theorem clients (w : World D) (heap : ClientPtr → Option Client) (sent : List (Int × Bytes)) :
    R w { w with heap, sent } :=
  everywhere.connect w heap w.clients w.watchList w.activeFds w.watchers sent w.passed

theorem ambient : Ambient R fun _ => True where
  composes := everywhere.composes
  emit w _ _ := everywhere.clients w w.heap _
  tick := everywhere.tick
  takeFresh := everywhere.takeFresh
  change w _ _ _ _ _ _ := everywhere.clients w _ w.sent
  authorize := everywhere.authorize
  faults _ _ _ := trivial

theorem mayBlock : MayBlock R where
  change w _ _ _ _ _ := everywhere.clients w _ w.sent
  configure := everywhere.wait

theorem mayLog : MayLog R where
  rename := everywhere.rename
  append w _ := everywhere.store w _

theorem bookkept {w w' : World D} (same : Bookkept w w') : R w w' := by
  rw [same]
  exact everywhere.connect w w'.heap w.clients w.watchList w.activeFds w'.watchers w'.sent w.passed

theorem propagate {ptr : ClientPtr} {call : Call} {w w' : World D} (run : propagate ptr call w = .ok ((), w')) : R w w' := by
  obtain ⟨client, loaded, load, rest⟩ := bind_eq_ok.mp (show (loadClient ptr >>= _) w = .ok ((), w') from run)
  obtain ⟨found, rfl⟩ := loadClient_eq_ok.mp load
  by_cases isMaster : client.fd = loaded.serverConfig.masterFd
  · rw [bind_of_ok (show config loaded = .ok (loaded.serverConfig, loaded) from rfl), if_pos isMaster] at rest
    obtain ⟨_, rfl⟩ := Prod.mk.inj (Except.ok.inj rest)
    exact everywhere.count loaded loaded.serverConfig.masterReplOffset _
  · rw [propagate_run found isMaster run]
    refine everywhere.composes.trans
      (everywhere.count loaded w'.serverConfig.masterReplOffset loaded.serverConfig.slaveReplOffset) ?_
    exact everywhere.connect (loaded.configure _) loaded.heap loaded.clients loaded.watchList loaded.activeFds
      loaded.watchers w'.sent _

variable [Externals D] {req : RespRequest} {ptr : ClientPtr} {client : Client} {w w' : World D}

theorem dispatch (run : dispatch req ptr w = .ok ((), w')) : R w w' := by
  refine (obeysAt_dispatch everywhere.ambient (.inl trivial) (.inl trivial) ?_ (fun _ => everywhere.mayBlock)
    ?_ ?_ ?_).1 () w' run
  · exact fun _ _ _ w bucket chain _ => everywhere.setBucket w bucket chain
  · exact fun w executed _ => everywhere.execute w executed
  · exact fun _ w _ _ _ => everywhere.clients w _ w.sent
  · exact fun _ => everywhere.mayLog

theorem handled (handles : Handled w req ptr client w') : R w w' := by
  have keeps {heap : ClientPtr → Option Client} {fd : Int} {bytes : Bytes} (isEnd : w' = { w with heap }.emit fd bytes) :
      R w w' := by
    rw [isEnd]
    exact everywhere.clients w heap _
  cases handles with
  | queued ordinary inMulti room => exact keeps rfl
  | opened isMulti outside => exact keeps rfl
  | refused text reason => exact keeps rfl
  | ignored isWatch noKey => exact everywhere.composes.refl w
  | watched isWatch outside run => exact everywhere.bookkept ((bookkept_watchKeys run).emit _ _)
  | unwatched fd isUnwatch run => exact everywhere.bookkept ((bookkept_deleteWatchedKeys run).emit _ _)
  | left reply inMulti isEnd run =>
    have left : Bookkept w (w.setClient ptr client.leaveMulti) := rfl
    exact everywhere.bookkept ((left.trans (bookkept_deleteWatchedKeys run)).emit _ _)
  | dispatched reaches run => exact everywhere.dispatch run

/-- A call of `handle`, with the calls that its EXEC makes. -/
theorem handle (run : handle req ptr w = .ok ((), w')) : R w w' :=
  handle_induction (P := R w) (fun _ _ _ _ before _ handles => everywhere.composes.trans before (everywhere.handled handles))
    (fun u _ _ before => everywhere.composes.trans before (everywhere.clients u u.heap _))
    (fun u _ _ _ before _ => everywhere.composes.trans before (everywhere.clients u _ u.sent)) (everywhere.composes.refl w) run

theorem step {s t : Server D} {event : Event} (outside : OutsideMulti s) (step : Step s event t) : R s.world t.world := by
  cases step_cases outside step with
  | quiet idle noRequest kept =>
    obtain ⟨enabled, acts⟩ := id step
    rw [idle] at acts
    cases event with
    | poll ready =>
      obtain ⟨first, _⟩ := act_unit acts
      obtain ⟨_, rfl⟩ := Prod.mk.inj (Except.ok.inj first)
      exact everywhere.connect s.world s.world.heap s.world.clients _ s.world.activeFds s.world.watchers s.world.sent
        s.world.passed
    | timers => exact (obeys_runTimers everywhere.ambient everywhere.mayBlock trivial s.world).1 () _ (act_unit acts).1
    | connect fd ptr =>
      obtain rfl | ⟨slot, _, rfl⟩ := connect_run (act_unit acts).1
      · exact everywhere.composes.refl _
      · exact everywhere.connect s.world _ _ _ _ s.world.watchers s.world.sent s.world.passed
    | disconnect slot =>
      obtain ⟨ptr, inSlot⟩ := Option.ne_none_iff_exists'.mp enabled.2
      obtain ⟨last, _, rfl⟩ := disconnect_run inSlot (act_unit acts).1
      exact everywhere.connect s.world _ _ _ _ s.world.watchers s.world.sent s.world.passed
    | request slot call => exact absurd rfl (noRequest slot call)
    | proceed => exact absurd idle enabled
  | connected slot idle isNext valid free =>
    exact everywhere.connect s.world _ _ _ _ s.world.watchers s.world.sent s.world.passed
  | disconnected last ptr idle isLast occupied =>
    exact everywhere.connect s.world _ _ _ _ s.world.watchers s.world.sent s.world.passed
  | started ptr client idle occupied found starts => exact everywhere.clients s.world _ _
  | served ptr client idle occupied found starts handles propagates =>
    exact everywhere.composes.trans (everywhere.handled handles) (everywhere.propagate propagates)
  | @ran handled ptr req remaining call client after running found handles foundAfter =>
    exact everywhere.composes.trans (everywhere.handled handles) (everywhere.clients handled _ handled.sent)
  | ended ptr call running propagates => exact everywhere.propagate propagates

/-- The relation holds between the ends of a run. -/
theorem run {s t : Server D} {allowed : Server D → Event → Prop} (outside : OutsideMulti s)
    (run : Run Step allowed s t) : R s.world t.world := by
  have preserved (u : Server D) (event : Event) (v : Server D) (before : OutsideMulti u ∧ R s.world u.world)
      (_ : allowed u event) (step : Step u event v) : OutsideMulti v ∧ R s.world v.world :=
    ⟨outsideMulti_step before.1 step, everywhere.composes.trans before.2 (everywhere.step before.1 step)⟩
  exact (run.invariant preserved ⟨outside, everywhere.composes.refl _⟩).2

end Everywhere

/-! ## The clock -/

/-- The clock has gone on. -/
def Later (w w' : World D) : Prop := ∃ k, w'.clock = fun n => w.clock (n + k)

theorem everywhere_later : Everywhere (Later (D := D)) where
  composes := ⟨fun _ => ⟨0, rfl⟩, fun ⟨k, first⟩ ⟨l, second⟩ => ⟨l + k, by simp [first, second, Nat.add_assoc]⟩⟩
  tick _ := ⟨1, rfl⟩
  takeFresh _ := ⟨0, rfl⟩
  setBucket _ _ _ := ⟨0, rfl⟩
  authorize _ _ _ := ⟨0, rfl⟩
  execute _ _ := ⟨0, rfl⟩
  store _ _ := ⟨0, rfl⟩
  rename _ _ := ⟨0, rfl⟩
  wait _ _ _ := ⟨0, rfl⟩
  count _ _ _ := ⟨0, rfl⟩
  connect _ _ _ _ _ _ _ _ := ⟨0, rfl⟩

/-- A clock that does not go back. -/
def Forward (clock : Nat → Int) : Prop := ∀ m n, m ≤ n → clock m ≤ clock n

theorem Later.forward {w w' : World D} (later : Later w w') (forward : Forward w.clock) : Forward w'.clock := by
  obtain ⟨k, isClock⟩ := later
  intro m n before
  rw [isClock]
  exact forward (m + k) (n + k) (Nat.add_le_add_right before k)

end RedisClone
