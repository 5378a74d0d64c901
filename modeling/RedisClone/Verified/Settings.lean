import RedisClone.Verified.Everywhere
import RedisClone.Verified.Executions

/-! # The settings are those of the arguments

The loop over the arguments copies what is behind a flag into its array, and nothing after it changes the settings again
but for the name of the append-only file: no step of the server, no replayed command, and nothing of the handshake.  So
CONFIG GET answers in every state of every execution with the last argument behind the flag, and with all of it
(`config_get_answers`).
-/

namespace RedisClone

open Exec CString

variable {D : Type}

/-! ## The loop over the arguments -/

/-- The argument behind the last occurrence of a flag. -/
def argumentOf (flag : Bytes) : List Bytes → Option Bytes
  | name :: value :: rest => (argumentOf flag (value :: rest)).or (if name = flag then some value else none)
  | _ => none

/-- The configuration where what is behind a flag is looked up. -/
def RedisConfig.overridden (server : RedisConfig) (behind : Bytes → Option Bytes) : RedisConfig :=
  { server with
    rdbDirectory := (behind (lit "--dir")).getD server.rdbDirectory
    rdbName := (behind (lit "--dbfilename")).getD server.rdbName
    appendOnly := (behind (lit "--appendonly")).getD server.appendOnly
    appenddirname := (behind (lit "--appenddirname")).getD server.appenddirname
    appendfilename := (behind (lit "--appendfilename")).getD server.appendfilename
    appendfsync := (behind (lit "--appendfsync")).getD server.appendfsync }

/-- Every setting and its NUL are in their array. -/
structure RedisConfig.Fits (server : RedisConfig) : Prop where
  rdbDirectory : server.rdbDirectory.length < 1024
  rdbName : server.rdbName.length < 256
  appendOnly : server.appendOnly.length < 4
  appenddirname : server.appenddirname.length < 1024
  appendfilename : server.appendfilename.length < 256
  appendfsync : server.appendfsync.length < 256

section Arguments

variable {name value : Bytes} {argv : List Bytes} {w t : World D}

theorem RedisConfig.overridden_or (server : RedisConfig) (later first : Bytes → Option Bytes) :
    (server.overridden first).overridden later = server.overridden fun flag => (later flag).or (first flag) := by
  have composed (later first : Option Bytes) (text : Bytes) : later.getD (first.getD text) = (later.or first).getD text := by
    cases later <;> rfl
  simp only [overridden, composed]

theorem configFlags_override {flag : Bytes × Nat × (Bytes → RedisConfig → RedisConfig)} (isFlag : flag ∈ configFlags)
    (value : Bytes) (server : RedisConfig) :
    flag.2.2 value server = (server.overridden fun other => if flag.1 = other then some value else none) ∧
      (value.length < flag.2.1 → server.Fits → (flag.2.2 value server).Fits) := by
  simp only [configFlags, List.mem_cons, List.not_mem_nil, or_false] at isFlag
  obtain rfl | rfl | rfl | rfl | rfl | rfl := isFlag
  · exact ⟨rfl, fun fits before => ⟨fits, before.2, before.3, before.4, before.5, before.6⟩⟩
  · exact ⟨rfl, fun fits before => ⟨before.1, fits, before.3, before.4, before.5, before.6⟩⟩
  · exact ⟨rfl, fun fits before => ⟨before.1, before.2, fits, before.4, before.5, before.6⟩⟩
  · exact ⟨rfl, fun fits before => ⟨before.1, before.2, before.3, fits, before.5, before.6⟩⟩
  · exact ⟨rfl, fun fits before => ⟨before.1, before.2, before.3, before.4, fits, before.6⟩⟩
  · exact ⟨rfl, fun fits before => ⟨before.1, before.2, before.3, before.4, before.5, fits⟩⟩

theorem setFlag_run (run : setFlag name value w = .ok ((), t)) :
    t = (w.configure fun server => server.overridden fun flag => if name = flag then some value else none) ∧
      (w.serverConfig.Fits → t.serverConfig.Fits) := by
  unfold setFlag at run
  cases isKnown : configFlags.lookup name with
  | none =>
    simp only [isKnown] at run
    obtain rfl : w = t := by simpa using run
    have unknown (flag : Bytes) (isFlag : flag ∈ configFlags.map Prod.fst) : name ≠ flag := by
      rintro rfl
      obtain ⟨entry, member, isName⟩ := List.mem_map.mp isFlag
      simpa [isName] using List.lookup_eq_none_iff.mp isKnown entry member
    have same : (w.configure fun server => server.overridden fun flag => if name = flag then some value else none) = w := by
      simp only [World.configure, RedisConfig.overridden]
      rw [if_neg (unknown _ (by decide)), if_neg (unknown _ (by decide)), if_neg (unknown _ (by decide)),
        if_neg (unknown _ (by decide)), if_neg (unknown _ (by decide)), if_neg (unknown _ (by decide))]
      rfl
    exact ⟨same.symm, id⟩
  | some known =>
    obtain ⟨size, copy⟩ := known
    have isFlag : (name, size, copy) ∈ configFlags := by
      obtain ⟨before, after, isSplit, _⟩ := List.lookup_eq_some_iff.mp isKnown
      simp [isSplit]
    simp only [isKnown] at run
    split at run
    · rename_i fits
      obtain rfl : _ = t := by simpa [setConfig_run] using run
      obtain ⟨overrides, keepsFit⟩ := configFlags_override isFlag value w.serverConfig
      exact ⟨congrArg (fun server => { w with serverConfig := server }) overrides, keepsFit fits⟩
    · simp [fault] at run

theorem readFlags_run (run : readFlags argv w = .ok ((), t)) :
    t = (w.configure fun server => server.overridden (argumentOf · argv)) ∧ (w.serverConfig.Fits → t.serverConfig.Fits) := by
  induction argv generalizing w with
  | nil =>
    obtain rfl : w = t := by simpa [readFlags] using run
    exact ⟨rfl, id⟩
  | cons name rest inductionHypothesis =>
    cases rest with
    | nil =>
      obtain rfl : w = t := by simpa [readFlags] using run
      exact ⟨rfl, id⟩
    | cons value rest =>
      obtain ⟨_, first, sets, reads⟩ := bind_eq_ok.mp run
      obtain ⟨rfl, fitsFirst⟩ := setFlag_run sets
      obtain ⟨rfl, fitsRest⟩ := inductionHypothesis reads
      refine ⟨?_, fun fits => fitsRest (fitsFirst fits)⟩
      simp only [World.configure, RedisConfig.overridden_or]
      rfl

end Arguments

/-! ## What changes no setting -/

/-- The configuration without the offsets, what WAIT records, and the name of the append-only file. -/
def RedisConfig.settings (server : RedisConfig) : RedisConfig :=
  { server with
    masterReplOffset := 0
    slaveReplOffset := 0
    capturedMasterOffset := 0
    wantedReplicas := 0
    waitClientFd := 0
    appendfilename := [] }

def SameSettings (w w' : World D) : Prop := w'.serverConfig.settings = w.serverConfig.settings

theorem SameSettings.trans {w w' w'' : World D} (before : SameSettings w w') (after : SameSettings w' w'') :
    SameSettings w w'' :=
  Eq.trans after before

/-- No step and no replayed command changes a setting. -/
theorem everywhere_sameSettings : Everywhere (SameSettings (D := D)) where
  composes := ⟨fun _ => rfl, SameSettings.trans⟩
  tick _ := rfl
  takeFresh _ := rfl
  setBucket _ _ _ := rfl
  authorize _ _ _ := rfl
  execute _ _ := rfl
  store _ _ := rfl
  rename _ _ := rfl
  wait w f sameButWait := by
    change (f w.serverConfig).settings = _
    rw [sameButWait w.serverConfig]
    rfl
  count _ _ _ := rfl
  connect _ _ _ _ _ _ _ _ := rfl

instance storing_sameSettings : Storing (SameSettings (D := D)) where
  composes := everywhere_sameSettings.composes
  setBucket _ _ _ := rfl
  tick _ := rfl
  takeFresh _ := rfl

/-! ## From the arguments to the loop -/

/-- `role` in `replicaofHandler`. -/
def roleOf (argv : List Bytes) : Bytes :=
  if findFlag (lit "--replicaof") argv 0 = none then lit "master" else lit "slave"

/-- The configuration that the arguments set. -/
def RedisConfig.ofArguments (argv : List Bytes) (masterFd : Int) : RedisConfig :=
  ({ port := portOf argv, role := roleOf argv, masterFd } : RedisConfig).overridden (argumentOf · argv)

/-- The settings are those of the arguments. -/
structure Configured (argv : List Bytes) (w : World D) : Prop where
  settings : ∃ masterFd, w.serverConfig.settings = (RedisConfig.ofArguments argv masterFd).settings
  fits : ∀ masterFd, (RedisConfig.ofArguments argv masterFd).Fits

section Start

variable {outside : Surroundings} {argv segments : List Bytes} {fakeClient ptr : ClientPtr} {w w' : World D}

theorem Configured.of_same (configured : Configured argv w) (same : SameSettings w w') : Configured argv w' := by
  obtain ⟨⟨masterFd, isConfig⟩, fits⟩ := configured
  exact ⟨⟨masterFd, Eq.trans same isConfig⟩, fits⟩

theorem replicaofHandler_run {connectToMaster : Bytes → Int → Int}
    (run : replicaofHandler connectToMaster argv w = .ok ((), w')) :
    w'.serverConfig = { w.serverConfig with role := roleOf argv, masterFd := w'.serverConfig.masterFd } := by
  unfold replicaofHandler at run
  rw [bind_of_ok (setConfig_run _ _)] at run
  cases flag : findFlag (lit "--replicaof") argv 0 with
  | none =>
    simp only [flag] at run
    obtain ⟨_, rfl⟩ := Prod.mk.inj (Except.ok.inj run)
    simp [roleOf, flag, World.configure]
  | some i =>
    have isSlave : roleOf argv = lit "slave" := by simp [roleOf, flag]
    simp only [flag] at run
    rw [bind_of_ok (setConfig_run _ _)] at run
    cases address : masterAddress argv i with
    | none =>
      simp only [address] at run
      obtain ⟨_, rfl⟩ := Prod.mk.inj (Except.ok.inj run)
      simp [isSlave, World.configure]
    | some address' =>
      simp only [address] at run
      rw [bind_of_ok (setConfig_run _ _)] at run
      rw [isSlave]
      split at run
      · obtain ⟨_, rfl⟩ := Prod.mk.inj (Except.ok.inj run)
        rfl
      · rw [send_run run]
        rfl

variable [Externals D]

theorem sameSettings_rdbConfigHandler {directory : DataDirectory}
    (run : rdbConfigHandler directory fakeClient w = .ok ((), w')) : SameSettings w w' := by
  have replays (call : Call) (w w' : World D) (run : replayRequest fakeClient call w = .ok ((), w')) : SameSettings w w' := by
    unfold replayRequest at run
    rw [bind_of_ok (alter_run _ w)] at run
    have seated : SameSettings w (w.setClient fakeClient replayClient) := rfl
    exact seated.trans (everywhere_sameSettings.handle run)
  exact (obeys_rdbConfigHandler everywhere_sameSettings.composes (fun _ => rfl) (fun _ _ => rfl) (fun _ _ => rfl) replays _ w).1 () w' run

theorem boot_configured (initial : w.serverConfig = {}) (run : boot outside argv fakeClient w = .ok ((), w')) :
    Configured argv w' := by
  unfold boot at run
  rw [bind_of_ok (setConfig_run _ _)] at run
  obtain ⟨_, followed, follows, afterReplicaof⟩ := bind_eq_ok.mp run
  obtain ⟨_, flagged, flags, afterFlags⟩ := bind_eq_ok.mp afterReplicaof
  rw [bind_of_ok (show config flagged = .ok (flagged.serverConfig, flagged) from rfl)] at afterFlags
  obtain ⟨_, replayed, replays, afterReplay⟩ := bind_eq_ok.mp afterFlags
  rw [bind_of_ok (alter_run _ replayed)] at afterReplay
  obtain ⟨_, loaded, loads, ends⟩ := bind_eq_ok.mp afterReplay
  obtain rfl : loaded = w' := by simpa using ends
  have atFollow : followed.serverConfig =
      { port := portOf argv, role := roleOf argv, masterFd := followed.serverConfig.masterFd } := by
    rw [replicaofHandler_run follows, World.configure, initial]
  obtain ⟨rfl, fits⟩ := readFlags_run flags
  have atFlags : Configured argv (followed.configure fun server => server.overridden (argumentOf · argv)) := by
    have isConfig : (followed.configure fun server => server.overridden (argumentOf · argv)).serverConfig =
        RedisConfig.ofArguments argv followed.serverConfig.masterFd := by
      rw [World.configure, atFollow]
      rfl
    have initialFits : followed.serverConfig.Fits := by
      have defaults : ({} : RedisConfig).Fits := by constructor <;> decide
      rw [atFollow]
      exact ⟨defaults.1, defaults.2, defaults.3, defaults.4, defaults.5, defaults.6⟩
    refine ⟨⟨_, congrArg RedisConfig.settings isConfig⟩, fun masterFd => ?_⟩
    have fitsHere := isConfig ▸ fits initialFits
    exact ⟨fitsHere.1, fitsHere.2, fitsHere.3, fitsHere.4, fitsHere.5, fitsHere.6⟩
  have replaysSame : SameSettings (followed.configure fun server => server.overridden (argumentOf · argv)) replayed :=
    sameSettings_rdbConfigHandler replays
  have cleared : SameSettings replayed { replayed with heap := Function.update replayed.heap fakeClient none } := rfl
  exact atFlags.of_same ((replaysSame.trans cleared).trans ((storing_loadRdbIntoTable _).run _ _ _ loads))

/-- The handshake sets the offset alone. -/
theorem sameSettings_handshake {segments : List Bytes} {shaken : Joining D}
    (run : doSlaveHandshake ptr ⟨w, segments⟩ = .ok ((), shaken)) : SameSettings w shaken.world := by
  by_cases answers : Answers segments
  · obtain ⟨bytes, stale, afterRdb, joins⟩ := joins_of_answers answers run
    have asked : SameSettings w w.asked := rfl
    refine asked.trans (joinMaster_invariant (P := SameSettings w.asked) (w := w.asked) (fun _ _ => rfl) ?_ joins)
    intro u u' slot sender call before inSlot handles
    have counted : SameSettings u' (u'.counted call) := rfl
    exact (before.trans (everywhere_sameSettings.handle handles)).trans counted
  · obtain ⟨rest, same | same⟩ := doSlaveHandshake_refused w ptr answers
    all_goals
      rw [same] at run
      obtain ⟨_, rfl⟩ := Prod.mk.inj (Except.ok.inj run)
      rfl

theorem launch_configured {t : Joining D} (initial : w.serverConfig = {})
    (run : launch outside argv fakeClient ptr ⟨w, segments⟩ = .ok ((), t)) : Configured argv t.world := by
  unfold launch at run
  obtain ⟨_, booted, boots, afterBoot⟩ := bind_eq_ok.mp run
  obtain ⟨boots, _⟩ := locally_run boots
  obtain ⟨server, configured, reads, afterConfig⟩ := bind_eq_ok.mp afterBoot
  obtain ⟨_, shaken, shakes, resets⟩ := bind_eq_ok.mp afterConfig
  obtain ⟨resets, _⟩ := locally_run resets
  obtain ⟨_, rfl⟩ := Prod.mk.inj (Except.ok.inj reads)
  have reset : SameSettings shaken.world t.world := by
    obtain ⟨_, isReset⟩ := Prod.mk.inj (Except.ok.inj resets)
    rw [SameSettings, ← isReset]
    rfl
  have shakesSame : SameSettings booted.world shaken.world := by
    by_cases isSlave : server.role = lit "slave"
    · rw [onlyIf, if_pos isSlave] at shakes
      exact sameSettings_handshake shakes
    · rw [onlyIf, if_neg isSlave] at shakes
      obtain ⟨_, rfl⟩ := Prod.mk.inj (Except.ok.inj shakes)
      rfl
  exact (boot_configured initial boots).of_same (shakesSame.trans reset)

end Start

/-! ## The answers -/

/-- What CONFIG GET calls a setting, its flag, its name in the answer, and what it is without the flag.  The answer about
the name of the snapshot names the directory. -/
def reported : List (Bytes × Bytes × Bytes × Bytes) :=
  [(lit "DIR", lit "--dir", lit "dir", lit "/app"),
   (lit "DBFILENAME", lit "--dbfilename", lit "dir", []),
   (lit "APPENDONLY", lit "--appendonly", lit "appendonly", lit "no"),
   (lit "APPENDDIRNAME", lit "--appenddirname", lit "appenddirname", lit "appendonlydir"),
   (lit "APPENDFSYNC", lit "--appendfsync", lit "appendfsync", lit "everysec")]

section Answers

variable {argv segments : List Bytes} {w w' : World D} {req : RespRequest} {ptr : ClientPtr} {client : Client}
  {parameter flag name default : Bytes}

theorem length_arrayText_pair (name value : Bytes) (short : name.length ≤ 13) (small : value.length < 1024) :
    (arrayText [name, value]).length ≤ value.length + 45 := by
  have nameDigits := length_decimal_le (show name.length < 10 ^ 9 by omega)
  have valueDigits := length_decimal_le (show value.length < 10 ^ 9 by omega)
  have front : (arrayHeader ([name, value].length : Nat)).length = 4 := show (arrayHeader 2).length = 4 by decide
  simp only [arrayText, List.length_append, List.map_cons, List.map_nil, List.flatten_cons, List.flatten_nil,
    List.length_nil, length_bulk_eq, front]
  omega

/-- The answer about a setting has it whole. -/
theorem Configured.answers (configured : Configured argv w) (isReported : (parameter, flag, name, default) ∈ reported) :
    ∃ size, (configParameters w.serverConfig).lookup parameter = some (size, name, (argumentOf flag argv).getD default) ∧
      (arrayText [name, (argumentOf flag argv).getD default]).length < size := by
  obtain ⟨⟨masterFd, isConfig⟩, fits⟩ := configured
  have fits := fits masterFd
  simp only [RedisConfig.settings, RedisConfig.mk.injEq] at isConfig
  obtain ⟨_, _, _, _, _, _, _, _, _, rdbDirectory, rdbName, appendOnly, appenddirname, _, appendfsync⟩ := isConfig
  simp only [reported, List.mem_cons, Prod.mk.injEq, List.not_mem_nil, or_false] at isReported
  obtain ⟨rfl, rfl, rfl, rfl⟩ | ⟨rfl, rfl, rfl, rfl⟩ | ⟨rfl, rfl, rfl, rfl⟩ | ⟨rfl, rfl, rfl, rfl⟩ | ⟨rfl, rfl, rfl, rfl⟩ :=
    isReported
  · refine ⟨2048, by rw [configParameters, rdbDirectory]; rfl, ?_⟩
    have short : ((argumentOf (lit "--dir") argv).getD (lit "/app")).length < 1024 := fits.rdbDirectory
    have text := length_arrayText_pair (lit "dir") _ (by decide) short
    omega
  · refine ⟨2048, by rw [configParameters, rdbName]; rfl, ?_⟩
    have short : ((argumentOf (lit "--dbfilename") argv).getD []).length < 256 := fits.rdbName
    have text := length_arrayText_pair (lit "dir") ((argumentOf (lit "--dbfilename") argv).getD []) (by decide) (by omega)
    omega
  · refine ⟨1024, by rw [configParameters, appendOnly]; rfl, ?_⟩
    have short : ((argumentOf (lit "--appendonly") argv).getD (lit "no")).length < 4 := fits.appendOnly
    have text := length_arrayText_pair (lit "appendonly") ((argumentOf (lit "--appendonly") argv).getD (lit "no")) (by decide)
      (by omega)
    omega
  · refine ⟨2048, by rw [configParameters, appenddirname]; rfl, ?_⟩
    have short : ((argumentOf (lit "--appenddirname") argv).getD (lit "appendonlydir")).length < 1024 := fits.appenddirname
    have text := length_arrayText_pair (lit "appenddirname") _ (by decide) short
    omega
  · refine ⟨1024, by rw [configParameters, appendfsync]; rfl, ?_⟩
    have short : ((argumentOf (lit "--appendfsync") argv).getD (lit "everysec")).length < 256 := fits.appendfsync
    have text := length_arrayText_pair (lit "appendfsync") ((argumentOf (lit "--appendfsync") argv).getD (lit "everysec"))
      (by decide) (by omega)
    omega

theorem handleConfig_sends {size : Nat} {value : Bytes} {fd : Int} (few : req.argc ≤ 2)
    (asked : ∀ text ∈ req.args[0]?, (configParameters w.serverConfig).lookup (upper text) = some (size, name, value))
    (short : (arrayText [name, value]).length < size) (run : handleConfig req fd w = .ok ((), w')) :
    w' = w.emit fd (arrayText [name, value]) := by
  unfold handleConfig at run
  rw [if_neg (by omega)] at run
  obtain ⟨text, asking, isText, rest⟩ := bind_eq_ok.mp run
  cases isArg : req.args[0]? with
  | none => simp [RespRequest.arg, isArg, fault] at isText
  | some text' =>
    obtain ⟨rfl, rfl⟩ : text' = text ∧ w = asking := by simpa [RespRequest.arg, isArg] using isText
    rw [bind_of_ok (show config w = .ok (w.serverConfig, w) from rfl)] at rest
    simp only [asked text' isArg] at rest
    have isArray : lit "*2\r\n" ++ bulk name ++ bulk value = arrayText [name, value] := by
      have front : arrayHeader 2 = lit "*2\r\n" := by decide
      simp [arrayText, front]
    rw [isArray, sendText_run short] at rest
    exact (Prod.mk.inj (Except.ok.inj rest)).2.symm

variable [Externals D]

/-- In every state of every execution of `main`, whatever was requested, replayed, loaded and received from the master
before, CONFIG GET answers with the last argument behind the flag, all of it, or with the default. -/
theorem config_get_answers {w₀ : World D} {outside : Surroundings} {fakeClient master : ClientPtr} {t : Joining D}
    {s s' : Server D} {allowed : Server D → Event → Prop} {event : Event} {text : Bytes}
    (initial : w₀.serverConfig = {}) (launches : launch outside argv fakeClient master ⟨w₀, segments⟩ = .ok ((), t))
    (run : Run Step allowed (⟨t.world, none⟩ : Server D) s) (step : Step s event s')
    (dispatches : Dispatches s event ptr req) (isConfig : req.command = .configGet) (few : req.argc ≤ 2)
    (asks : req.args[0]? = some text) (isReported : (upper text, flag, name, default) ∈ reported)
    (found : s.world.heap ptr = some client) :
    s'.world.sent = s.world.sent ++ [(client.fd, arrayText [name, (argumentOf flag argv).getD default])] := by
  have entered : OutsideMulti (⟨t.world, none⟩ : Server D) := by rintro transaction client ⟨⟩
  have outsideMulti : OutsideMulti s :=
    run.invariant (fun _ _ _ before _ step => outsideMulti_step before step) entered
  have configured : Configured argv s.world := (launch_configured initial launches).of_same (everywhere_sameSettings.run entered run)
  obtain ⟨size, isKnown, short⟩ := configured.answers isReported
  have readOnly : isWriteCmd req.command = false := by simp [isConfig, isWriteCmd]
  obtain ⟨handled, dispatched, kept⟩ := dispatch_of_step outsideMulti step dispatches
  obtain ⟨client', armed, _, found', arms, _, _⟩ := dispatch_parts dispatched
  obtain rfl : client = client' := Option.some.inj (found.symm.trans found')
  obtain ⟨copies, sent, passed⟩ := sent_of_step outsideMulti step dispatches found arms
  -- a command that is not a write has no copies
  obtain rfl : copies = [] := by
    have samePassed : s'.world.passed = s.world.passed :=
      (kept.passed (by simp [readOnly])).trans ((kept_dispatch dispatched).passed id)
    rw [samePassed] at passed
    exact List.length_eq_zero_iff.mp (by omega)
  have isHandler : handleConfig req client.fd s.world = .ok ((), armed) := by
    have unnoted : s.world.noted req = s.world := by simp [World.noted, readOnly]
    simpa only [arm, isConfig, unnoted] using arms
  have isAsked (text' : Bytes) (isText : text' ∈ req.args[0]?) : (configParameters s.world.serverConfig).lookup (upper text') =
      some (size, name, (argumentOf flag argv).getD default) := by
    obtain rfl : text = text' := Option.some.inj (asks.symm.trans isText)
    exact isKnown
  rw [sent, handleConfig_sends few isAsked short isHandler, List.append_nil]
  rfl

end Answers

/-- The state is about to run CONFIG GET for the client on descriptor 5. -/
def aboutToReport (s : Server Int) : Bool :=
  (s.calls .proceed).any fun call => (s.world.heap call.1).any fun client =>
    reachesArm client call.2 && decide (client.fd = 5 ∧ call.2.command = .configGet ∧ call.2.argc ≤ 2 ∧
      call.2.args[0]? = some (lit "dir") ∧ next s .proceed ≠ none)

/-- The flag is given twice, and the client asks in a transaction, behind a write command. -/
theorem config_get_answers_last : ∃ s s' : Server Int, s.running ≠ none ∧ Step s .proceed s' ∧
    s'.world.sent = s.world.sent ++ [(5, arrayText [lit "dir", lit "/b"])] := by
  let argv := [lit "redis", lit "--dir", lit "/a", lit "--dbfilename", lit "x.rdb", lit "--dir", lit "/b"]
  let events := [.connect 5 0, arrival firstSlot [lit "MULTI"], arrival firstSlot [lit "SET", lit "k", lit "v"],
    arrival firstSlot [lit "CONFIG", lit "GET", lit "dir"], arrival firstSlot [lit "EXEC"], .proceed]
  obtain ⟨t, launches, checked⟩ := exists_ok_of_endsIn
    (show endsIn (launch masterAnswers argv 9 0) (⟨blankWorld Int, []⟩ : Joining Int) (fun ready =>
      (play (fun _ _ => True) ⟨ready.world, none⟩ events).any aboutToReport) = true by decide +kernel)
  obtain ⟨s, run, reports⟩ := exists_run_of_play checked
  obtain ⟨⟨ptr, req⟩, calls, asking⟩ := (Option.any_eq_true _ _).mp reports
  obtain ⟨client, found, asked⟩ := (Option.any_eq_true _ _).mp asking
  obtain ⟨reaches, decided⟩ := Bool.and_eq_true_iff.mp asked
  obtain ⟨isFd, isConfig, few, asks, proceeds⟩ := of_decide_eq_true decided
  obtain ⟨s', isNext⟩ := Option.ne_none_iff_exists'.mp proceeds
  have step : Step s .proceed s' := next_step isNext
  have answers := config_get_answers rfl launches run step ⟨calls, client, found, reaches⟩ isConfig few asks
    (show (upper (lit "dir"), lit "--dir", lit "dir", lit "/app") ∈ reported by decide) found
  exact ⟨s, s', step.1, step, isFd ▸ answers⟩

end RedisClone
