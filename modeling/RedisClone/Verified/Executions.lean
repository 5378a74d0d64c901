import RedisClone.Lib.Imitation
import RedisClone.Verified.Handshakes
import RedisClone.Verified.Strangers

/-! # `main` runs the steps of the server

The passes of the event loop are runs of the steps of `Server`, with the descriptors that `accept` can return, and
`main` comes to its loop in a state in which those runs begin.  So what holds of every run of the steps holds of every
execution of `main` (`main_refines`); `clients_in_slots` is one such law of the memory for the clients.
-/

namespace RedisClone

open Exec CString

variable {D : Type}

/-! ## A pass of the loop -/

/-- The steps lead from one state to another, with no transaction at both ends. -/
abbrev Takes [Externals D] (w w' : World D) : Prop := Run Step AcceptsUnused (⟨w, none⟩ : Server D) ⟨w', none⟩

section Passes

variable [Externals D] {w w' : World D} {slot : ClientSlot} {arrivals : Arrivals}

/-- An event that needs no new descriptor. -/
theorem takes_event (event : Event) {x : M D Unit} (acts : act none event = (do x; pure none : M D (Option Transaction)))
    (enabled : Enabled (⟨w, none⟩ : Server D) event) (unused : AcceptsUnused (⟨w, none⟩ : Server D) event)
    (run : x w = .ok ((), w')) : Takes w w' := by
  refine .single unused ⟨enabled, ?_⟩
  rw [acts, bind_of_ok run]
  rfl

theorem takes_complete {ptr : ClientPtr} {call : Call} {requests : List RespRequest}
    (run : complete ptr call requests w = .ok ((), w')) :
    Run Step AcceptsUnused (⟨w, some ⟨ptr, requests, call⟩⟩ : Server D) ⟨w', none⟩ := by
  induction requests generalizing w with
  | nil =>
    refine .single (i := .proceed) trivial ⟨by simp [Enabled], ?_⟩
    exact bind_of_ok (f := fun _ => pure none) run
  | cons req requests inductionHypothesis =>
    obtain ⟨_, handled, handles, afterHandle⟩ := bind_eq_ok.mp run
    obtain ⟨_, cleared, clears, rest⟩ := bind_eq_ok.mp afterHandle
    refine (Run.single (i := .proceed) trivial ⟨by simp [Enabled], ?_⟩).trans (inductionHypothesis rest)
    simp only [act, resume]
    rw [bind_of_ok handles, bind_of_ok clears]
    rfl

theorem takes_serveRequest {call : Call} (run : serveRequest slot call w = .ok ((), w')) : Takes w w' := by
  rw [serveRequest_eq] at run
  obtain ⟨transaction, served, serves, ends⟩ := bind_eq_ok.mp run
  have first : Run Step AcceptsUnused (⟨w, none⟩ : Server D) ⟨served, transaction⟩ :=
    .single (i := .request slot call) trivial ⟨rfl, serves⟩
  cases transaction with
  | none =>
    obtain rfl : served = w' := by simpa using ends
    exact first
  | some transaction => exact first.trans (takes_complete ends)

theorem takes_serveBuffer {bytes stale : Bytes} (run : serveBuffer slot bytes stale w = .ok ((), w')) : Takes w w' := by
  have serving {calls : List Call} {w w' : World D} (run : forM calls (serveRequest slot) w = .ok ((), w')) :
      Takes w w' := by
    induction calls generalizing w with
    | nil =>
      obtain rfl : w = w' := by simpa using run
      exact .refl _
    | cons call calls inductionHypothesis =>
      rw [List.forM_cons] at run
      obtain ⟨_, served, serves, rest⟩ := bind_eq_ok.mp run
      exact (takes_serveRequest serves).trans (inductionHypothesis rest)
  unfold serveBuffer at run
  rw [parseLoop_eq_calls] at run
  obtain ⟨_, served, serves, ends⟩ := bind_eq_ok.mp run
  obtain rfl : served = w' := by
    cases broken : (handleCallsFrom (bytes ++ 0 :: stale) bytes.length bytes.length 0).2 with
    | none => simpa [broken] using ends
    | some f => simp [broken] at ends
  exact serving serves

/-- What `accept` and `calloc` return: a descriptor of no client, and a block that is free. -/
def Offered (w : World D) (arrivals : Arrivals) : Prop :=
  ∀ arrival ∈ arrivals.accepted, 0 ≤ arrival.1 ∧ w.heap arrival.2 = none ∧
    ∀ slot, ∀ client ∈ w.occupant slot, client.fd ≠ arrival.1

theorem takes_serveSlots {fuel i : Nat} (offered : i = 0 → Offered w arrivals)
    (run : serveSlots arrivals fuel i w = .ok ((), w')) : Takes w w' := by
  induction fuel generalizing i w with
  | zero =>
    obtain rfl : w = w' := by simpa [serveSlots] using run
    exact .refl _
  | succ fuel inductionHypothesis =>
    -- every branch but the end of a connection goes on with the next slot
    have next {u : World D} (rest : serveSlots arrivals fuel (i + 1) u = .ok ((), w')) : Takes u w' :=
      inductionHypothesis (fun isZero => by omega) rest
    unfold serveSlots at run
    rw [bind_of_ok (observe_run _ w)] at run
    split at run
    · obtain rfl : w = w' := by simpa using run
      exact .refl _
    split at run
    · rename_i inRange
      rw [bind_of_ok (observe_run _ w)] at run
      split at run
      · exact next run
      split at run
      · rename_i isZero
        -- slot 0 listens
        obtain ⟨_, accepted, accepts, rest⟩ := bind_eq_ok.mp run
        refine Run.trans ?_ (next rest)
        cases arrival : arrivals.accepted with
        | none =>
          obtain rfl : w = accepted := by simpa [arrival, acceptArrival] using accepts
          exact .refl _
        | some new =>
          obtain ⟨fd, ptr⟩ := new
          obtain ⟨valid, free, unused⟩ := offered isZero (fd, ptr) arrival
          rw [arrival] at accepts
          exact takes_event (.connect fd ptr) rfl ⟨rfl, valid, free⟩ unused accepts
      · rename_i notZero
        obtain ⟨occupant, looked, looks, afterLook⟩ := bind_eq_ok.mp run
        obtain ⟨rfl, inSlot, _⟩ := clientAt_run looks
        cases occupant with
        | none => simp [fault] at afterLook
        | some occupant =>
          dsimp only at afterLook
          split at afterLook
          · exact next afterLook
          cases received : arrivals.received fuel with
          | closed =>
            rw [received] at afterLook
            obtain ⟨_, ended, ends, rest⟩ := bind_eq_ok.mp afterLook
            -- the last client moved into the slot, which is looked at again
            refine Run.trans ?_ (inductionHypothesis (fun isZero => absurd isZero notZero) rest)
            exact takes_event (.disconnect ⟨i, inRange⟩) rfl ⟨rfl, by simp [inSlot]⟩ trivial ends
          | data bytes stale =>
            rw [received] at afterLook
            obtain ⟨_, served, serves, rest⟩ := bind_eq_ok.mp afterLook
            exact (takes_serveBuffer serves).trans (next rest)
    · simp [fault] at run

omit [Externals D] in
/-- The timers leave the connections as they are. -/
theorem Offered.timed (connected : Connected w) (offered : Offered w arrivals) (run : runTimers w = .ok ((), w')) :
    Offered w' arrivals := by
  obtain ⟨notBlocked, _⟩ := runTimers_notBlocked connected.distinct run
  intro arrival member
  obtain ⟨valid, free, unused⟩ := offered arrival member
  refine ⟨valid, notBlocked.free _ free, fun slot client occupied => ?_⟩
  obtain ⟨ptr, inSlot, found⟩ := Option.bind_eq_some_iff.mp occupied
  obtain ⟨before, foundBefore, sameFd, _⟩ := notBlocked.back found
  rw [sameFd]
  exact unused slot before (Option.bind_eq_some_iff.mpr ⟨ptr, notBlocked.clients ▸ inSlot, foundBefore⟩)

/-- What `poll`, `accept` and `recv` can give to a pass. -/
def Possible (w : World D) (arrivals : Option Arrivals) : Prop := ∀ arrivals' ∈ arrivals, Offered w arrivals'

theorem takes_pollPass {arrivals : Option Arrivals} (connected : Connected w) (possible : Possible w arrivals)
    (run : pollPass arrivals w = .ok ((), w')) : Takes w w' := by
  unfold pollPass at run
  cases arrivals with
  | none => exact takes_event (.timers) rfl rfl trivial run
  | some arrivals =>
    obtain ⟨_, polled, polls, afterPoll⟩ := bind_eq_ok.mp run
    obtain ⟨_, timed, times, rest⟩ := bind_eq_ok.mp afterPoll
    have first : Takes w polled := takes_event (.poll arrivals.ready) rfl rfl trivial polls
    -- the timers run before the slots are served
    have second : Takes polled timed := takes_event (.timers) rfl rfl trivial times
    refine (first.trans second).trans (takes_serveSlots (fun _ => ?_) rest)
    obtain ⟨connectedPolled, clients, heap, _⟩ := connected.polls arrivals.ready polls
    have offered : Offered polled arrivals := by
      intro arrival member
      obtain ⟨valid, free, unused⟩ := possible arrivals rfl arrival member
      refine ⟨valid, heap ▸ free, fun slot => ?_⟩
      rw [World.occupant, clients, heap]
      exact unused slot
    exact offered.timed connectedPolled times

omit [Externals D] in
theorem Possible.admissible {arrivals : Option Arrivals} (connected : Connected w) (possible : Possible w arrivals) :
    Admissible w arrivals := by
  cases arrivals with
  | none => trivial
  | some arrivals =>
    cases arrived : arrivals.accepted with
    | none => simp [Admissible, arrived]
    | some arrival =>
      obtain ⟨_, free, unused⟩ := possible arrivals rfl arrival arrived
      simp only [Admissible, arrived]
      refine ⟨free, fun slot occupied => ?_⟩
      obtain ⟨ptr, inSlot⟩ := Option.ne_none_iff_exists'.mp occupied
      obtain ⟨client, found, isFd⟩ := connected.polled slot ptr inSlot
      rw [← isFd]
      exact unused slot client (Option.bind_eq_some_iff.mpr ⟨ptr, inSlot, found⟩)

/-- A pass of the loop over a sound table of connections. -/
theorem pass_simulates : Simulates (fun (w : World D) (s : Server D) => Connected w ∧ s = ⟨w, none⟩)
    (fun w arrivals w' => pollPass arrivals w = .ok ((), w')) Possible Step AcceptsUnused := by
  rintro w arrivals w' s ⟨connected, rfl⟩ possible run
  exact ⟨⟨w', none⟩, takes_pollPass connected possible run, connected.pass (possible.admissible connected) run, rfl⟩

end Passes

/-! ## The snapshot -/

section Loader

variable {R : World D → World D → Prop} [storing : Storing R] {key : Bytes}

instance storing_expireFirst (ms : Int) (missing : M D Unit) [Preserves R missing] :
    Preserves R (expireFirst key ms missing) := by
  unfold expireFirst
  infer_instance

instance storing_loadKey (valueType : UInt8) (expiryMs : Int) (f : Bytes) (loaded : Int) :
    Preserves R (loadKey valueType expiryMs f loaded : M D (Option LoadState)) := by
  unfold loadKey countLoaded fault
  refine .bind inferInstance fun readKey => ?_
  split
  · exact preserves_pure none
  · split
    · refine .bind inferInstance fun readValue => ?_
      split
      · exact preserves_pure _
      · infer_instance
    · split
      · refine .bind inferInstance fun readValue => ?_
        split
        · exact preserves_pure none
        · infer_instance
      · exact preserves_pure none

instance storing_loadRound (s : LoadState) : Preserves R (loadRound s : M D (Option LoadState)) := by
  unfold loadRound
  split
  · exact preserves_pure none
  · split
    · exact preserves_pure none
    · split
      · infer_instance
      · split
        · exact preserves_pure _
        · split
          · exact preserves_pure _
          · split
            · exact preserves_pure none
            · infer_instance

instance storing_loadRounds (fuel : Nat) (s : LoadState) : Preserves R (loadRounds fuel s : M D Int) := by
  induction fuel generalizing s with
  | zero => exact preserves_pure s.loaded
  | succ fuel inductionHypothesis =>
    unfold loadRounds
    refine .bind inferInstance fun next => ?_
    cases next with
    | none => exact preserves_pure s.loaded
    | some s' => exact inductionHypothesis s'

instance storing_loadRdbIntoTable (rdb : Option Bytes) : Preserves R (loadRdbIntoTable rdb : M D Int) := by
  cases rdb with
  | none => exact preserves_pure (-1)
  | some file => exact storing_loadRounds _ _

end Loader

/-! ## From the arguments to the loop -/

/-- The same clients are connected. -/
structure SameClients (w w' : World D) : Prop where
  clients : w'.clients = w.clients
  activeFds : w'.activeFds = w.activeFds
  heap : w'.heap = w.heap

instance storing_sameClients : Storing (SameClients (D := D)) where
  composes := ⟨fun _ => ⟨rfl, rfl, rfl⟩, fun before after =>
    ⟨after.clients.trans before.clients, after.activeFds.trans before.activeFds, after.heap.trans before.heap⟩⟩
  setBucket _ _ _ := ⟨rfl, rfl, rfl⟩
  tick _ := ⟨rfl, rfl, rfl⟩
  takeFresh _ := ⟨rfl, rfl, rfl⟩

/-- Nobody is connected, and the only client is the one on the stack of the replay. -/
structure OnlyFake (fakeClient : ClientPtr) (w : World D) : Prop where
  clients : ∀ slot, w.clients slot = none
  activeFds : w.activeFds = 1
  heap : ∀ ptr, ptr ≠ fakeClient → w.heap ptr = none

section Start

variable {fakeClient ptr : ClientPtr} {w w' : World D}

theorem NoConnections.of_same (nobody : NoConnections w) (same : SameClients w w') : NoConnections w' :=
  ⟨fun slot => same.clients ▸ nobody.clients slot, same.activeFds.trans nobody.activeFds,
    fun ptr => same.heap ▸ nobody.heap ptr⟩

theorem OnlyFake.of_same (onlyFake : OnlyFake fakeClient w) (same : SameClients w w') : OnlyFake fakeClient w' :=
  ⟨fun slot => same.clients ▸ onlyFake.clients slot, same.activeFds.trans onlyFake.activeFds,
    fun ptr other => same.heap ▸ onlyFake.heap ptr other⟩

instance sameClients_setConfig (f : RedisConfig → RedisConfig) : Preserves SameClients (setConfig f : M D Unit) where
  run w _ t run := by
    obtain rfl : w.configure f = t := by simpa [setConfig_run] using run
    exact ⟨rfl, rfl, rfl⟩

instance sameClients_send (fd : Int) (bytes : Bytes) : Preserves SameClients (send fd bytes : M D Unit) where
  run w _ t run := by
    rw [send_run run]
    exact ⟨rfl, rfl, rfl⟩

instance sameClients_replicaofHandler (connectToMaster : Bytes → Int → Int) (argv : List Bytes) :
    Preserves SameClients (replicaofHandler connectToMaster argv : M D Unit) := by
  unfold replicaofHandler
  refine .bind inferInstance fun _ => ?_
  cases findFlag (lit "--replicaof") argv 0 with
  | none => exact preserves_pure ()
  | some i =>
    refine .bind inferInstance fun _ => ?_
    cases masterAddress argv i with
    | none => exact preserves_pure ()
    | some address => infer_instance

instance sameClients_readFlags (argv : List Bytes) : Preserves SameClients (readFlags argv : M D Unit) := by
  have sets (name value : Bytes) : Preserves SameClients (setFlag name value : M D Unit) := by
    unfold setFlag fault
    cases configFlags.lookup name with
    | none => exact preserves_pure ()
    | some flag => infer_instance
  induction argv with
  | nil => exact preserves_pure ()
  | cons name rest inductionHypothesis =>
    cases rest with
    | nil => exact preserves_pure ()
    | cons value rest => exact .bind (sets name value) fun _ => inductionHypothesis

variable [Externals D]

theorem onlyFake_replayRequest {call : Call} (onlyFake : OnlyFake fakeClient w)
    (run : replayRequest fakeClient call w = .ok ((), w')) : OnlyFake fakeClient w' := by
  unfold replayRequest at run
  rw [bind_of_ok (alter_run _ w)] at run
  have found : (w.setClient fakeClient replayClient).heap fakeClient = some replayClient := Function.update_self _ _ _
  have starts : startsTransaction replayClient call.request = false := by simp [startsTransaction, replayClient]
  have held : Held Ordinary (w.setClient fakeClient replayClient) w' :=
    (handle_cases found starts run).held found fun ordinary _ => ordinary
  constructor
  · exact fun slot => held.clients ▸ onlyFake.clients slot
  · exact held.activeFds.trans onlyFake.activeFds
  · exact fun ptr other => held.free ptr ((Function.update_of_ne other _ _).trans (onlyFake.heap ptr other))

theorem onlyFake_rdbConfigHandler {directory : DataDirectory} (onlyFake : OnlyFake fakeClient w)
    (run : rdbConfigHandler directory fakeClient w = .ok ((), w')) : OnlyFake fakeClient w' := by
  let keeps (w w' : World D) : Prop := OnlyFake fakeClient w → OnlyFake fakeClient w'
  have composes : Composes keeps := ⟨fun _ => id, fun first second before => second (first before)⟩
  have obeys : Obeys keeps (fun _ => True) (rdbConfigHandler directory fakeClient : M D Unit) :=
    obeys_rdbConfigHandler composes (fun _ before => before.of_same ⟨rfl, rfl, rfl⟩)
      (fun _ _ before => before.of_same ⟨rfl, rfl, rfl⟩) (fun _ _ before => before.of_same ⟨rfl, rfl, rfl⟩)
      (fun _ _ _ run before => onlyFake_replayRequest before run) directory
  exact (obeys w).1 () w' run onlyFake

/-- The replay and the snapshot leave nobody behind. -/
theorem boot_nobody {outside : Surroundings} {argv : List Bytes} (nobody : NoConnections w)
    (run : boot outside argv fakeClient w = .ok ((), w')) : NoConnections w' := by
  unfold boot at run
  obtain ⟨_, ported, ports, afterPort⟩ := bind_eq_ok.mp run
  obtain ⟨_, followed, follows, afterReplicaof⟩ := bind_eq_ok.mp afterPort
  obtain ⟨_, flagged, flags, afterFlags⟩ := bind_eq_ok.mp afterReplicaof
  rw [bind_of_ok (show config flagged = .ok (flagged.serverConfig, flagged) from rfl)] at afterFlags
  obtain ⟨_, replayed, replays, afterReplay⟩ := bind_eq_ok.mp afterFlags
  rw [bind_of_ok (alter_run _ replayed)] at afterReplay
  obtain ⟨_, loaded, loads, ends⟩ := bind_eq_ok.mp afterReplay
  obtain rfl : loaded = w' := by simpa using ends
  have atFlags : NoConnections flagged := ((nobody.of_same ((sameClients_setConfig _).run _ _ _ ports)).of_same
    ((sameClients_replicaofHandler _ argv).run _ _ _ follows)).of_same ((sameClients_readFlags argv).run _ _ _ flags)
  have onlyFake : OnlyFake fakeClient replayed :=
    onlyFake_rdbConfigHandler ⟨atFlags.clients, atFlags.activeFds, fun ptr _ => atFlags.heap ptr⟩ replays
  -- the client of the replay is gone when the snapshot is loaded
  have cleared : NoConnections { replayed with heap := Function.update replayed.heap fakeClient none } := by
    refine ⟨onlyFake.clients, onlyFake.activeFds, fun ptr => ?_⟩
    by_cases isFake : ptr = fakeClient
    · rw [isFake]
      exact Function.update_self _ _ _
    · exact (Function.update_of_ne isFake _ _).trans (onlyFake.heap ptr isFake)
  exact cleared.of_same ((storing_loadRdbIntoTable _).run _ _ _ loads)

theorem enters_alone {looping : World D} (nobody : NoConnections w) (resets : resetForLoop w = .ok ((), looping)) :
    EntersLoop looping := by
  obtain rfl : _ = looping := by simpa [resetForLoop] using resets
  exact .alone ⟨nobody.clients, nobody.activeFds, nobody.heap⟩

/-- The handshake ends as it began, or with the connection to the master. -/
theorem doSlaveHandshake_enters {segments : List Bytes} {shaken : Joining D} {looping : World D} (nobody : NoConnections w)
    (run : doSlaveHandshake ptr ⟨w, segments⟩ = .ok ((), shaken))
    (resets : resetForLoop shaken.world = .ok ((), looping)) : EntersLoop looping := by
  by_cases answers : Answers segments
  · obtain ⟨bytes, stale, afterRdb, joins⟩ := joins_of_answers answers run
    have asked : NoConnections w.asked := ⟨nobody.clients, nobody.activeFds, nobody.heap⟩
    exact .joined asked (by rw [bind_of_ok joins]; exact resets)
  · obtain ⟨rest, same | same⟩ := doSlaveHandshake_refused w ptr answers
    all_goals
      rw [same] at run
      obtain ⟨_, rfl⟩ := Prod.mk.inj (Except.ok.inj run)
    · exact enters_alone nobody resets
    · exact enters_alone (w := w.configured) ⟨nobody.clients, nobody.activeFds, nobody.heap⟩ resets

/-- `main` comes to its loop without a connection, or with the one to its master. -/
theorem launch_enters {outside : Surroundings} {argv : List Bytes} {segments : List Bytes} {t : Joining D}
    (nobody : NoConnections w) (run : launch outside argv fakeClient ptr ⟨w, segments⟩ = .ok ((), t)) :
    EntersLoop t.world := by
  unfold launch at run
  obtain ⟨_, booted, boots, afterBoot⟩ := bind_eq_ok.mp run
  obtain ⟨boots, _⟩ := locally_run boots
  obtain ⟨server, configured, reads, afterConfig⟩ := bind_eq_ok.mp afterBoot
  obtain ⟨_, shaken, shakes, resets⟩ := bind_eq_ok.mp afterConfig
  obtain ⟨resets, _⟩ := locally_run resets
  obtain rfl : configured = booted := by
    obtain ⟨_, rfl⟩ := Prod.mk.inj (Except.ok.inj reads)
    rfl
  have nobody' := boot_nobody nobody boots
  by_cases isSlave : server.role = lit "slave"
  · rw [onlyIf, if_pos isSlave] at shakes
    exact doSlaveHandshake_enters nobody' shakes resets
  · rw [onlyIf, if_neg isSlave] at shakes
    obtain ⟨_, rfl⟩ := Prod.mk.inj (Except.ok.inj shakes)
    exact enters_alone nobody' resets

end Start

/-! ## Executions -/

section Executions

variable [Externals D] {w₀ w : World D} {outside : Surroundings} {argv segments : List Bytes} {fakeClient ptr : ClientPtr}
  {t : Joining D}

/-- Every execution of `main`, whatever its arguments, its files, its master and its clients do, is a run of the steps
of the server from a state in which the loop is entered. -/
theorem main_refines (nobody : NoConnections w₀) (launches : launch outside argv fakeClient ptr ⟨w₀, segments⟩ = .ok ((), t))
    (passes : Run (fun w arrivals w' => pollPass arrivals w = .ok ((), w')) Possible t.world w) :
    EntersLoop t.world ∧ Run Step AcceptsUnused (⟨t.world, none⟩ : Server D) ⟨w, none⟩ := by
  have enters := launch_enters nobody launches
  obtain ⟨_, run, _, rfl⟩ := pass_simulates.run ⟨enters.connected, rfl⟩ passes
  exact ⟨enters, run⟩

/-- No client is leaked or lost: between two passes of `main` the allocated clients are those in the slots below
`active_fds`, each in one slot, and each with the descriptor that is polled there. -/
theorem clients_in_slots (nobody : NoConnections w₀)
    (launches : launch outside argv fakeClient ptr ⟨w₀, segments⟩ = .ok ((), t))
    (passes : Run (fun w arrivals w' => pollPass arrivals w = .ok ((), w')) Possible t.world w) :
    (∀ ptr, w.heap ptr ≠ none ↔ ∃! slot, w.clients slot = some ptr) ∧
      (∀ slot, w.clients slot ≠ none ↔ 1 ≤ slot.val ∧ slot.val < w.activeFds) ∧
      ∀ slot, ∀ client ∈ w.occupant slot, client.fd = (w.watchList slot).fd := by
  have enters := launch_enters nobody launches
  obtain ⟨_, run, connected, rfl⟩ := pass_simulates.run ⟨enters.connected, rfl⟩ passes
  have housed : w.Housed := (housed_run enters run).2
  refine ⟨fun ptr => ⟨fun allocated => ?_, ?_⟩, connected.inUse, fun slot client occupied => ?_⟩
  · obtain ⟨client, found⟩ := Option.ne_none_iff_exists'.mp allocated
    obtain ⟨slot, inSlot⟩ := housed ptr client found
    exact ⟨slot, inSlot, fun other inOther => connected.distinct other slot ptr inOther inSlot⟩
  · rintro ⟨slot, inSlot, _⟩
    obtain ⟨client, found, _⟩ := connected.polled slot ptr inSlot
    simp [found]
  · obtain ⟨ptr, inSlot, found⟩ := Option.bind_eq_some_iff.mp occupied
    obtain ⟨client', found', isFd⟩ := connected.polled slot ptr inSlot
    obtain rfl : client = client' := Option.some.inj (found.symm.trans found')
    exact isFd

end Executions

/-! ## One execution -/

instance (w : World D) (arrivals : Arrivals) : Decidable (Offered w arrivals) :=
  inferInstanceAs (Decidable (∀ arrival ∈ arrivals.accepted, _ ∧ _ ∧ ∀ slot, ∀ client ∈ w.occupant slot, _))

instance (w : World D) (arrivals : Option Arrivals) : Decidable (Possible w arrivals) :=
  inferInstanceAs (Decidable (∀ arrivals' ∈ arrivals, Offered w arrivals'))

/-- The master answers on descriptor 4, there is no directory for the append-only file, and no snapshot. -/
def masterAnswers : Surroundings := ⟨fun _ _ => 4, fun _ => .creatable, none⟩

def replicaArguments : List Bytes := [lit "redis", lit "--port", lit "6380", lit "--replicaof", lit "localhost 6379"]

/-- Every descriptor is ready, and every client sends a PING. -/
def pingsOfAll : Option Arrivals := some ⟨fun _ => true, some (6, 2), fun _ => .data (encode [lit "PING"]) []⟩

/-- A replica joins its master and accepts two clients. -/
def launchesReplica (ready : Joining Int) : Bool :=
  (Run.follow nextPass Possible ready.world [acceptsOne 5 1, pingsOfAll, none]).any fun w =>
    w.activeFds = 4 ∧ w.bytesTo 4 ≠ [] ∧ w.bytesTo 5 = pongReply

theorem main_refines_replica : ∃ (t : Joining Int) (w : World Int), w.activeFds = 4 ∧ w.bytesTo 5 = pongReply ∧
    EntersLoop t.world ∧ Run Step AcceptsUnused (⟨t.world, none⟩ : Server Int) ⟨w, none⟩ := by
  obtain ⟨t, launches, checked⟩ := exists_ok_of_endsIn
    (show endsIn (launch masterAnswers replicaArguments 9 3)
      (⟨blankWorld Int, [pongReply, okReply, okReply, firstSegment]⟩ : Joining Int) launchesReplica = true by decide +kernel)
  obtain ⟨w, follows, checked⟩ := (Option.any_eq_true _ _).mp checked
  obtain ⟨four, _, ponged⟩ := of_decide_eq_true checked
  exact ⟨t, w, four, ponged, main_refines idleServer_atLoopEntry.noConnections launches (Run.of_follow nextPass_sound follows)⟩

/-- The third client takes the place of the first one. -/
theorem clients_in_slots_moved : ∃ w : World Int, w.activeFds = 3 ∧ w.clients firstSlot = some 3 ∧
    ∃! slot, w.clients slot = some 3 := by
  obtain ⟨t, launches, checked⟩ := exists_ok_of_endsIn
    (show endsIn (launch masterAnswers [lit "redis"] 9 0) (⟨blankWorld Int, []⟩ : Joining Int) (fun ready =>
      (Run.follow nextPass Possible ready.world [acceptsOne 5 1, acceptsOne 6 2, acceptsOne 7 3, some firstLeaves]).any
        fun w => w.activeFds = 3 ∧ w.clients firstSlot = some 3 ∧ w.heap 3 ≠ none) = true by decide +kernel)
  obtain ⟨w, follows, checked⟩ := (Option.any_eq_true _ _).mp checked
  obtain ⟨three, inFirst, allocated⟩ := of_decide_eq_true checked
  have seated := clients_in_slots idleServer_atLoopEntry.noConnections launches (Run.of_follow nextPass_sound follows)
  exact ⟨w, three, inFirst, (seated.1 3).mp allocated⟩

end RedisClone
