import RedisClone.Verified.Authentication

/-! # The mode of a subscribed client

`handle` decides by `is_subscribed` whether it refuses a command, and the channels are counted in `channel_count`.
SUBSCRIBE sets the flag also where it has no argument, nothing clears it, and the guard stands behind the transaction
commands.  `subscribed_mode`: where a client sends neither a SUBSCRIBE without an argument as its first one nor an
UNSUBSCRIBE from its last channel, the flag is set exactly while it is subscribed to something, and `handle` refuses
every other command exactly then.
-/

namespace RedisClone

open Exec CString

variable {D : Type}

/-- The flag and the number of channels agree. -/
def Client.ModeAgrees (client : Client) : Prop := client.isSubscribed = true ↔ 0 < client.channelCount

/-- The command does not part the flag and the channels of its sender. -/
def Client.KeepsMode (client : Client) (req : RespRequest) : Prop :=
  (req.command = .subscribe → req.args ≠ [] ∨ 0 < client.channelCount) ∧
    (req.command = .unsubscribe → client.channelCount = 1 →
      ¬ ∃ channel ∈ req.args[0]?, client.channelSubed[0]? = some (some channel))

instance (client : Client) (req : RespRequest) : Decidable (client.KeepsMode req) :=
  inferInstanceAs (Decidable ((_ → _ ∨ _) ∧ (_ → _ → ¬ ∃ channel ∈ req.args[0]?, _)))

/-- The event does not part the flag and the channels of the client. -/
def ModeKept (ptr : ClientPtr) (s : Server D) (event : Event) : Prop :=
  ∀ sender req, Dispatches s event sender req → sender = ptr → ∀ client ∈ s.world.heap ptr, client.KeepsMode req

instance (ptr : ClientPtr) (s : Server D) (event : Event) : Decidable (ModeKept ptr s event) :=
  inferInstanceAs (Decidable (∀ sender req, Dispatches s event sender req → sender = ptr →
    ∀ client ∈ s.world.heap ptr, client.KeepsMode req))

/-- `handle` without its guard of subscribed clients. -/
def handleUnguarded [Externals D] (req : RespRequest) (ptr : ClientPtr) : M D Unit :=
  match req.command with
  | .multi => handleMulti ptr
  | .exec => handleExec (handleWith execWithoutMulti) ptr
  | .discard => handleDiscard ptr
  | .watch => handleWatch req ptr
  | .unwatch => handleUnwatch ptr
  | _ => dispatch req ptr

section Modes

variable [Externals D] {w w' t : World D} {req : RespRequest} {ptr sender : ClientPtr} {client client' : Client}

omit [Externals D] in
theorem Client.ModeAgrees.of_account (agrees : client.ModeAgrees) (same : client'.account = client.account) :
    client'.ModeAgrees := by
  obtain ⟨_, isSubscribed, _, channelCount⟩ := Account.mk.inj same
  unfold Client.ModeAgrees
  rw [isSubscribed, channelCount]
  exact agrees

/-! ## The arms -/

/-- The mode of the client behind `ptr`, where there is one. -/
def World.ModeAgrees (w : World D) (ptr : ClientPtr) : Prop := ∀ client ∈ w.heap ptr, client.ModeAgrees

omit [Externals D] in
theorem World.ModeAgrees.of_sameAccounts (agrees : w.ModeAgrees ptr) (same : SameAccounts w t) : t.ModeAgrees ptr := by
  intro client' found'
  obtain ⟨client, found, _, sameAccount⟩ := same.back found'
  exact (agrees client found).of_account sameAccount

omit [Externals D] in
/-- The sender has another account, and nobody else. -/
theorem World.ModeAgrees.of_update (agrees : w.ModeAgrees ptr)
    (heap : t.heap = Function.update w.heap sender (some client'))
    (own : sender = ptr → client'.ModeAgrees) : t.ModeAgrees ptr := by
  intro other found
  rw [heap] at found
  by_cases isSender : ptr = sender
  · subst isSender
    obtain rfl : client' = other := by simpa using found
    exact own rfl
  · rw [Function.update_of_ne isSender] at found
    exact agrees other found

omit [Externals D] in
theorem modeAgrees_subscribe (found : w.heap sender = some client) (agrees : w.ModeAgrees ptr)
    (keeps : sender = ptr → req.args ≠ [] ∨ 0 < client.channelCount)
    (run : handleSubscribe req sender w = .ok ((), t)) : t.ModeAgrees ptr := by
  obtain ⟨channelSubed, channelCount, text, rfl, grows, positive⟩ := handleSubscribe_changes found run
  refine agrees.of_update rfl fun isSender => ?_
  have isPositive : 0 < channelCount := by
    obtain hasArg | already := keeps isSender
    · exact positive hasArg
    · omega
  exact ⟨fun _ => isPositive, fun _ => rfl⟩

omit [Externals D] in
theorem modeAgrees_unsubscribe (found : w.heap sender = some client) (agrees : w.ModeAgrees ptr)
    (keeps : sender = ptr → client.channelCount = 1 →
      ¬ ∃ channel ∈ req.args[0]?, client.channelSubed[0]? = some (some channel))
    (run : handleUnsubscribe req sender w = .ok ((), t)) : t.ModeAgrees ptr := by
  obtain ⟨channelSubed, channelCount, heap, _, _, _, _, empty, positive⟩ := handleUnsubscribe_changes found run
  refine agrees.of_update heap fun isSender => ?_
  have agreed : client.ModeAgrees := agrees client (isSender ▸ found)
  have same : 0 < channelCount ↔ 0 < client.channelCount := by
    constructor
    · intro isPositive
      by_contra none
      have := empty (by omega)
      omega
    · intro isPositive
      exact positive isPositive fun isLast => keeps isSender isLast.1 isLast.2
  exact agreed.trans same.symm

theorem modeAgrees_of_arm (found : w.heap sender = some client) (agrees : w.ModeAgrees ptr)
    (keeps : sender = ptr → client.KeepsMode req) (isAccount : isAccountCmd req.command = true)
    (run : arm req sender client w = .ok ((), t)) : t.ModeAgrees ptr := by
  -- an authenticated client is in the mode that it was in
  have authenticated : sender = ptr → client.authenticated.ModeAgrees := fun isSender =>
    agrees client (isSender ▸ found)
  cases command : req.command with
  | auth =>
    have runsAuth : handleAuth req sender w = .ok ((), t) := by simpa [arm, command] using run
    cases handleAuth_effect found runsAuth with
    | nothing few => exact agrees
    | refused password isPassword differs => exact agrees
    | accepted password isPassword hashes => exact agrees.of_update rfl authenticated
  | acl =>
    have runsAcl : handleAcl req sender w = .ok ((), t) := by simpa [arm, command] using run
    obtain ⟨_, same⟩ | ⟨_, sets, effect, rfl⟩ := handleAcl_effect command found runsAcl
    · exact agrees.of_sameAccounts same
    · exact agrees.of_update (by rw [World.setClient, effect.sameClients.1]) authenticated
  | subscribe =>
    have runsSubscribe : handleSubscribe req sender w = .ok ((), t) := by simpa [arm, command] using run
    exact modeAgrees_subscribe found agrees (fun isSender => (keeps isSender).1 command) runsSubscribe
  | unsubscribe =>
    have runsUnsubscribe : handleUnsubscribe req sender w = .ok ((), t) := by simpa [arm, command] using run
    exact modeAgrees_unsubscribe found agrees (fun isSender => (keeps isSender).2 command) runsUnsubscribe
  | _ => simp [command, isAccountCmd] at isAccount

/-! ## Runs -/

variable {s u : Server D} {event : Event}

theorem modeAgrees_step (outside : OutsideMulti s) (agrees : s.world.ModeAgrees ptr) (kept : ModeKept ptr s event)
    (step : Step s event u) : u.world.ModeAgrees ptr := by
  have change := reaccounts_of_step outside step
  generalize u.world = w' at change ⊢
  cases change with
  | kept isOther same => exact agrees.of_sameAccounts same
  | ran sender req client dispatches isAccount found runs after =>
    have noted : (s.world.noted req).ModeAgrees ptr := agrees
    refine (modeAgrees_of_arm (show (s.world.noted req).heap sender = some client from found) noted ?_ isAccount
      runs).of_sameAccounts after
    intro isSender
    exact kept sender req dispatches isSender client (isSender ▸ found)
  | connected slot isNext free =>
    intro client found
    rename_i fd new
    simp only [World.accept] at found
    by_cases isNew : ptr = new
    · obtain rfl : newClient fd = client := by simpa [isNew] using found
      simp [Client.ModeAgrees, newClient]
    · rw [Function.update_of_ne isNew] at found
      exact agrees client found
  | disconnected last gone isLast occupied =>
    intro client found
    simp only [World.drop] at found
    have isOther : ptr ≠ gone := by
      rintro rfl
      simp at found
    rw [Function.update_of_ne isOther] at found
    exact agrees client found

/-- The text of the error fits its buffer. -/
theorem subscribedError_length (cmd : RedisCmds) : (subscribedError cmd).length ≤ 127 := by
  have start : (lit "-ERR Can't execute '").length = 20 := by decide +kernel
  have rest : (lit ("' only (P|S)SUBSCRIBE / (P|S)UNSUBSCRIBE / PING / QUIT / RESET " ++
      "are allowed in this context\r\n")).length = 92 := by
    rw [lit_append, List.length_append]
    decide +kernel
  have name := length_cmdToString cmd
  unfold subscribedError
  rw [List.length_append, List.length_append, start, rest]
  omega

/-- What `handle` does for a client that is not in MULTI. -/
theorem handle_eq (found : w.heap ptr = some client) (outside : client.isQueued = false)
    (isOther : isChannelCmd req.command = false) :
    handle req ptr w =
      if client.isSubscribed = true ∧ isTransactionCmd req.command = false then
        .ok ((), w.emit client.fd (subscribedError req.command))
      else handleUnguarded req ptr w := by
  cases ordinary : isTransactionCmd req.command with
  | false =>
    rw [handle_command found outside ordinary, handleCommand, bind_of_ok (loadClient_found found)]
    have unguarded : handleUnguarded req ptr = dispatch (D := D) req ptr := by
      revert ordinary
      unfold handleUnguarded
      cases req.command <;> simp [isTransactionCmd]
    cases subscribed : client.isSubscribed with
    | true =>
      simp [isOther, sendText, send, List.take_of_length_le (subscribedError_length req.command)]
    | false => simp [unguarded]
  | true =>
    have unguarded : handle req ptr w = handleUnguarded req ptr w := by
      rw [handle, handleWith, bind_of_ok (loadClient_found found), if_neg (by simp [outside])]
      unfold handleUnguarded
      cases command : req.command with
      | multi | exec | discard | watch | unwatch => rfl
      | _ => simp [command, isTransactionCmd] at ordinary
    simp [unguarded]

/-- A client outside MULTI is refused a command exactly while it is subscribed to a channel, and any other command is
served as if there were no guard. -/
theorem subscribed_mode (idle : s.running = none) (nobody : s.world.heap ptr = none)
    (run : Run Step (ModeKept ptr) s u) (found : u.world.heap ptr = some client) (outside : client.isQueued = false)
    (isOther : isChannelCmd req.command = false)
    (ordinary : 0 < client.channelCount → isTransactionCmd req.command = false) :
    handle req ptr u.world =
      if 0 < client.channelCount then .ok ((), u.world.emit client.fd (subscribedError req.command))
      else handleUnguarded req ptr u.world := by
  have outsideAtStart : OutsideMulti s := by
    intro transaction client running
    simp [idle] at running
  have atStart : s.world.ModeAgrees ptr := fun client found => by simp [nobody] at found
  have preserved (before : Server D) (event : Event) (after : Server D)
      (books : OutsideMulti before ∧ before.world.ModeAgrees ptr) (kept : ModeKept ptr before event)
      (step : Step before event after) : OutsideMulti after ∧ after.world.ModeAgrees ptr :=
    ⟨outsideMulti_step books.1 step, modeAgrees_step books.1 books.2 kept step⟩
  obtain ⟨_, modes⟩ := run.invariant preserved ⟨outsideAtStart, atStart⟩
  have agrees : client.isSubscribed = true ↔ 0 < client.channelCount := modes client found
  rw [handle_eq found outside isOther]
  by_cases subscribed : 0 < client.channelCount
  · rw [if_pos ⟨agrees.mpr subscribed, ordinary subscribed⟩, if_pos subscribed]
  · rw [if_neg fun guarded => subscribed (agrees.mp guarded.1), if_neg subscribed]

end Modes

def getK : RespRequest := requestOf [lit "GET", lit "k"]

/-- A client that is subscribed to two channels and leaves the second one is refused GET. -/
theorem subscribed_mode_get : ∃ (t : Server Int) (client : Client), t.world.heap 0 = some client ∧
    client.channelCount = 1 ∧ handle getK 0 t.world = .ok ((), t.world.emit client.fd (subscribedError .get)) := by
  obtain ⟨t, run, checked⟩ := exists_run_of_play
    (show (play (ModeKept 0) idleServer [.connect 5 0, arrival firstSlot [lit "SUBSCRIBE", lit "a", lit "b"],
        arrival firstSlot [lit "UNSUBSCRIBE", lit "b"]]).any
      (fun t => (t.world.heap 0).any fun client => !client.isQueued && decide (client.channelCount = 1)) = true by
      decide +kernel)
  simp only [Bool.and_eq_true, Bool.not_eq_true', decide_eq_true_eq, Option.any_eq_true] at checked
  obtain ⟨client, found, outside, isOne⟩ := checked
  have isOther : isChannelCmd getK.command = false := by decide +kernel
  have ordinary : isTransactionCmd getK.command = false := by decide +kernel
  have refused := subscribed_mode rfl rfl run found outside isOther fun _ => ordinary
  rw [if_pos (by omega)] at refused
  exact ⟨t, client, found, isOne, refused⟩

/-- A client that has left its only channel is refused GET. -/
theorem unsubscribed_still_refused :
    ¬ ∀ (t : Server Int) (ptr : ClientPtr) (client : Client) (req : RespRequest), Runs idleServer t →
      t.world.heap ptr = some client → client.isQueued = false → isChannelCmd req.command = false →
      (handle req ptr t.world = .ok ((), t.world.emit client.fd (subscribedError req.command)) ↔
        0 < client.channelCount) := by
  intro law
  obtain ⟨t, run, checked⟩ := exists_run_of_play
    (show (play (fun _ _ => True) idleServer [.connect 5 0, arrival firstSlot [lit "SUBSCRIBE", lit "a"],
        arrival firstSlot [lit "UNSUBSCRIBE", lit "a"]]).any
      (fun t => (t.world.heap 0).any fun client => !client.isQueued && client.isSubscribed &&
        decide (client.channelCount = 0)) = true by
      decide +kernel)
  simp only [Bool.and_eq_true, Bool.not_eq_true', decide_eq_true_eq, Option.any_eq_true] at checked
  obtain ⟨client, found, ⟨outside, isSubscribed⟩, none⟩ := checked
  have isOther : isChannelCmd getK.command = false := by decide +kernel
  have ordinary : isTransactionCmd getK.command = false := by decide +kernel
  have refused := handle_eq found outside isOther
  rw [if_pos ⟨isSubscribed, ordinary⟩] at refused
  have subscribed := (law t 0 client getK run found outside isOther).mp refused
  omega

end RedisClone
