import RedisClone.Verified.Accounts
import RedisClone.Verified.Subscriptions

/-! # Authentication

ACL SETUSER writes the global credentials, and its caller sets `is_auth` whatever became of the request.  `Audits` runs
the server beside the last password that was accepted.  `authentication_kept`: in a run in which no SETUSER that is
rejected or names another user comes from a client that is not authenticated, or clears `nopass`, the credentials are
those of the last password and nobody becomes authenticated in any other way than with AUTH or with an accepted SETUSER.
-/

namespace RedisClone

open Exec CString

variable {D : Type}

/-! ## The requests -/

/-- ACL SETUSER. -/
def RespRequest.IsSetuser (req : RespRequest) : Prop :=
  req.command = .acl ∧ ∃ subCmd ∈ req.args[0]?, upper subCmd = lit "SETUSER"

instance (req : RespRequest) : Decidable req.IsSetuser := inferInstanceAs (Decidable (_ ∧ _))

/-- The rule of a SETUSER is a password. -/
def RespRequest.HasPasswordRule (req : RespRequest) : Prop := ∃ rule ∈ req.args[2]?, rule.head? = some 62

instance (req : RespRequest) : Decidable req.HasPasswordRule :=
  inferInstanceAs (Decidable (∃ rule ∈ req.args[2]?, _))

/-- The password that a SETUSER of the default user gives. -/
def RespRequest.newPassword (req : RespRequest) : Option Bytes :=
  if req.IsSetuser ∧ req.HasPasswordRule ∧ ∃ user ∈ req.args[1]?, upper user = lit "DEFAULT" then
    req.args[2]?.map List.tail
  else none

/-- AUTH with a password that hashes to the one in force. -/
def World.Authenticates [Externals D] (w : World D) (req : RespRequest) : Prop :=
  req.command = .auth ∧ ∃ password ∈ req.args[1]?, w.defaultPassword = Externals.sha256Hex D password

/-- The client is authenticated. -/
def Client.authenticated (client : Client) : Client := { client with isAuth := true }

section Handlers

variable [Externals D] {w w' t : World D} {req : RespRequest} {ptr : ClientPtr} {client : Client}

/-! ## What the handlers write -/

/-- What AUTH does. -/
inductive AuthEffect (w : World D) (req : RespRequest) (ptr : ClientPtr) (client : Client) : World D → Prop where
  | nothing (few : req.argc < 2) : AuthEffect w req ptr client w
  | accepted (password : Bytes) (isPassword : req.args[1]? = some password)
      (hashes : w.defaultPassword = Externals.sha256Hex D password) :
      AuthEffect w req ptr client ((w.setClient ptr client.authenticated).emit client.fd okReply)
  | refused (password : Bytes) (isPassword : req.args[1]? = some password)
      (differs : w.defaultPassword ≠ Externals.sha256Hex D password) :
      AuthEffect w req ptr client
        (w.emit client.fd (lit "-WRONGPASS invalid username-password pair or user is disabled\r\n"))

theorem handleAuth_effect (found : w.heap ptr = some client) (run : handleAuth req ptr w = .ok ((), t)) :
    AuthEffect w req ptr client t := by
  unfold handleAuth at run
  split at run
  · rename_i few
    obtain rfl : w = t := by simpa using run
    exact .nothing few
  · obtain ⟨password, _, isArg, afterArg⟩ := bind_eq_ok.mp run
    obtain ⟨isPassword, rfl⟩ := arg_ok.mp isArg
    rw [bind_of_ok (observe_run _ _), bind_of_ok (loadClient_found found)] at afterArg
    split at afterArg
    · rename_i hashes
      rw [bind_of_ok (updateClient_found found)] at afterArg
      rw [send_run afterArg]
      exact .accepted password isPassword hashes
    · rename_i differs
      rw [send_run afterArg]
      exact .refused password isPassword differs

/-- What ACL SETUSER does before its sender is authenticated. -/
inductive SetuserEffect (w : World D) (req : RespRequest) (client : Client) : World D → Prop where
  | rejected (malformed : ¬ req.HasPasswordRule) :
      SetuserEffect w req client (w.emit client.fd (lit "-ERR bad request sonion\r\n"))
  | otherUser (wellFormed : req.HasPasswordRule) (isOther : ¬ ∃ user ∈ req.args[1]?, upper user = lit "DEFAULT") :
      SetuserEffect w req client { w with defaultHasNopass := false }
  | accepted (rule : Bytes) (isRule : req.args[2]? = some rule) (wellFormed : req.HasPasswordRule)
      (isDefault : ∃ user ∈ req.args[1]?, upper user = lit "DEFAULT") :
      SetuserEffect w req client
        (World.emit { w with defaultHasNopass := false, defaultPassword := Externals.sha256Hex D rule.tail }
          client.fd okReply)

theorem handleSetuser_effect (found : w.heap ptr = some client) (run : handleSetuser req ptr w = .ok ((), t)) :
    SetuserEffect w req client t := by
  unfold handleSetuser at run
  rw [bind_of_ok (loadClient_found found)] at run
  split at run
  · rename_i few
    rw [send_run run]
    refine .rejected ?_
    rintro ⟨rule, isRule, _⟩
    have := lt_argc isRule
    omega
  · obtain ⟨rule, _, isArg, afterArg⟩ := bind_eq_ok.mp run
    obtain ⟨isRule, rfl⟩ := arg_ok.mp isArg
    split at afterArg
    · rename_i isNoPassword
      rw [send_run afterArg]
      refine .rejected ?_
      rintro ⟨other, isOther, isPassword⟩
      obtain rfl : rule = other := by simpa [isRule] using isOther
      exact isNoPassword isPassword
    · rename_i isPassword
      have wellFormed : req.HasPasswordRule := ⟨rule, isRule, by simpa using isPassword⟩
      obtain ⟨_, _, alters, afterAlter⟩ := bind_eq_ok.mp afterArg
      obtain rfl : _ = _ := by simpa only [alter_run, Except.ok.injEq, Prod.mk.injEq, true_and] using alters
      obtain ⟨user, _, readsUser, afterUser⟩ := bind_eq_ok.mp afterAlter
      obtain ⟨isUser, rfl⟩ := arg_ok.mp readsUser
      split at afterUser
      · rename_i isDefault
        rw [bind_of_ok (alter_run _ _)] at afterUser
        rw [send_run afterUser]
        exact .accepted rule isRule wellFormed ⟨user, isUser, isDefault⟩
      · rename_i differs
        obtain rfl : _ = t := by simpa using afterUser
        refine .otherUser wellFormed ?_
        rintro ⟨other, isOther, isDefault⟩
        obtain rfl : user = other := by simpa [isUser] using isOther
        exact differs isDefault

omit [Externals D] in
instance accounts_handleGetuser : Preserves SameAccounts (handleGetuser req ptr : M D Unit) := by
  unfold handleGetuser
  infer_instance

/-- What ACL does: SETUSER authenticates its sender whatever became of it. -/
theorem handleAcl_effect (isAcl : req.command = .acl) (found : w.heap ptr = some client)
    (run : handleAcl req ptr w = .ok ((), t)) :
    ¬ req.IsSetuser ∧ SameAccounts w t ∨
      req.IsSetuser ∧ ∃ w', SetuserEffect w req client w' ∧ t = w'.setClient ptr client.authenticated := by
  unfold handleAcl at run
  obtain ⟨subCmd, _, isArg, afterArg⟩ := bind_eq_ok.mp run
  obtain ⟨isSubCmd, rfl⟩ := arg_ok.mp isArg
  rw [bind_of_ok (loadClient_found found)] at afterArg
  have isSetuser_iff : req.IsSetuser ↔ upper subCmd = lit "SETUSER" := by
    simp [RespRequest.IsSetuser, isAcl, isSubCmd]
  split at afterArg
  · rename_i isWhoami
    have differs : ¬ req.IsSetuser := by
      rw [isSetuser_iff, isWhoami]
      decide
    rw [bind_of_ok (observe_run _ _)] at afterArg
    split at afterArg <;> rw [send_run afterArg] <;> exact .inl ⟨differs, .emit _ _ _⟩
  · split at afterArg
    · rename_i isGetuser
      have differs : ¬ req.IsSetuser := by
        rw [isSetuser_iff, isGetuser]
        decide
      exact .inl ⟨differs, accounts_handleGetuser.run _ _ _ afterArg⟩
    · split at afterArg
      · rename_i isSetuser
        obtain ⟨_, w', sets, updates⟩ := bind_eq_ok.mp afterArg
        have effect := handleSetuser_effect found sets
        -- no branch of SETUSER changes a client
        have found' : w'.heap ptr = some client := by
          cases effect with
          | rejected => exact found
          | otherUser => exact found
          | accepted => exact found
        rw [updateClient_found found'] at updates
        simp only [Except.ok.injEq, Prod.mk.injEq, true_and] at updates
        exact .inr ⟨isSetuser_iff.mpr isSetuser, w', effect, updates.symm⟩
      · rename_i isOther
        obtain rfl : _ = t := by simpa using afterArg
        exact .inl ⟨fun isSetuser => isOther (isSetuser_iff.mp isSetuser), .refl _⟩

/-- The credentials after a SETUSER. -/
def World.credentialsAfter (w : World D) (req : RespRequest) : Credentials where
  defaultHasNopass := if req.HasPasswordRule then false else w.defaultHasNopass
  defaultPassword := (req.newPassword.map (Externals.sha256Hex D)).getD w.defaultPassword

theorem newPassword_of_rejected (malformed : ¬ req.HasPasswordRule) : req.newPassword = none := by
  simp [RespRequest.newPassword, malformed]

theorem SetuserEffect.credentials (isSetuser : req.IsSetuser) (effect : SetuserEffect w req client t) :
    t.credentials = w.credentialsAfter req := by
  cases effect with
  | rejected malformed =>
    simp [World.credentialsAfter, newPassword_of_rejected malformed, malformed, World.credentials, World.emit]
  | otherUser wellFormed isOther =>
    have noPassword : req.newPassword = none := if_neg fun accepted => isOther accepted.2.2
    simp [World.credentialsAfter, noPassword, wellFormed, World.credentials]
  | accepted rule isRule wellFormed isDefault =>
    have isPassword : req.newPassword = some rule.tail := by
      rw [RespRequest.newPassword, if_pos ⟨isSetuser, wellFormed, isDefault⟩, isRule]
      rfl
    simp [World.credentialsAfter, isPassword, wellFormed, World.credentials, World.emit]

theorem SetuserEffect.heap (effect : SetuserEffect w req client t) : t.heap = w.heap := by
  cases effect <;> rfl

theorem SetuserEffect.sameClients (effect : SetuserEffect w req client t) :
    t.heap = w.heap ∧ t.clients = w.clients ∧ t.activeFds = w.activeFds := by
  cases effect <;> exact ⟨rfl, rfl, rfl⟩

/-! ## What a step does -/

/-- Nobody was authenticated. -/
abbrev SameAuth (w w' : World D) : Prop := Clientwise (fun _ client client' => client'.isAuth = client.isAuth) w w'

/-- The sender was authenticated, and nobody else. -/
abbrev Admits (sender : ClientPtr) (w w' : World D) : Prop :=
  Clientwise (fun ptr client client' => client'.isAuth = if ptr = sender then true else client.isAuth) w w'

omit [Externals D] in
theorem SameAccounts.sameAuth (same : SameAccounts w w') : SameAuth w w' :=
  same.toClientwise.mono fun _ _ _ sameAccount => congrArg Account.isAuth sameAccount

omit [Externals D] in
theorem Admits.of_setClient (found : w.heap ptr = some client) (clients : t.clients = w.clients)
    (activeFds : t.activeFds = w.activeFds)
    (heap : t.heap = Function.update w.heap ptr (some client.authenticated)) : Admits ptr w t where
  clients := clients
  activeFds := activeFds
  free other missing := by
    have distinct : other ≠ ptr := by
      rintro rfl
      simp [found] at missing
    rw [heap, Function.update_of_ne distinct, missing]
  heap other old oldFound := by
    by_cases same : other = ptr
    · subst same
      obtain rfl : client = old := Option.some.inj (found.symm.trans oldFound)
      exact ⟨client.authenticated, by rw [heap, Function.update_self], rfl, by simp [Client.authenticated]⟩
    · exact ⟨old, by rw [heap, Function.update_of_ne same, oldFound], rfl, by simp [same]⟩

omit [Externals D] in
theorem Admits.trans_accounts (admits : Admits ptr w w') (after : SameAccounts w' t) : Admits ptr w t where
  clients := after.clients.trans admits.clients
  activeFds := after.activeFds.trans admits.activeFds
  free other missing := after.free other (admits.free other missing)
  heap other client found := by
    obtain ⟨client', found', sameFd, isAuth⟩ := admits.heap other client found
    obtain ⟨client'', found'', sameFd', same⟩ := after.heap other client' found'
    exact ⟨client'', found'', sameFd'.trans sameFd, (congrArg Account.isAuth same).trans isAuth⟩

/-- Everybody who is authenticated was authenticated before. -/
def NobodyNew (w w' : World D) : Prop :=
  ∀ ptr client', w'.heap ptr = some client' → client'.isAuth = true →
    ∃ client, w.heap ptr = some client ∧ client.isAuth = true

omit [Externals D] in
theorem nobodyNew_of_sameAuth (same : SameAuth w w') : NobodyNew w w' := by
  intro ptr client' found' isAuth
  obtain ⟨client, found, _, sameAuth⟩ := same.back found'
  exact ⟨client, found, sameAuth ▸ isAuth⟩

omit [Externals D] in
/-- SUBSCRIBE and UNSUBSCRIBE authenticate nobody. -/
theorem sameAuth_subscribe (found : w.heap ptr = some client) (run : handleSubscribe req ptr w = .ok ((), t)) :
    SameAuth w t ∧ t.credentials = w.credentials := by
  obtain ⟨channelSubed, channelCount, text, rfl, _⟩ := handleSubscribe_changes found run
  exact ⟨.of_update (fun _ _ => rfl) { client.withChannels channelSubed channelCount with isSubscribed := true }
    found rfl rfl rfl rfl rfl, rfl⟩

omit [Externals D] in
theorem sameAuth_unsubscribe (found : w.heap ptr = some client)
    (run : handleUnsubscribe req ptr w = .ok ((), t)) : SameAuth w t ∧ t.credentials = w.credentials := by
  obtain ⟨channelSubed, channelCount, heap, clients, activeFds, nopass, password, _⟩ :=
    handleUnsubscribe_changes found run
  refine ⟨.of_update (fun _ _ => rfl) (client.withChannels channelSubed channelCount) found rfl rfl clients
    activeFds heap, ?_⟩
  simp [World.credentials, nopass, password]

/-- What an event does to authentication. -/
inductive AuthChange (s : Server D) (event : Event) (w' : World D) : Prop where
  | kept (noSetuser : ∀ ptr req, Dispatches s event ptr req → ¬ req.IsSetuser)
      (credentials : w'.credentials = s.world.credentials) (nobodyNew : NobodyNew s.world w')
  | auth (ptr : ClientPtr) (req : RespRequest) (dispatches : Dispatches s event ptr req)
      (authenticates : s.world.Authenticates req) (credentials : w'.credentials = s.world.credentials)
      (admits : Admits ptr s.world w')
  | setuser (ptr : ClientPtr) (req : RespRequest) (dispatches : Dispatches s event ptr req)
      (isSetuser : req.IsSetuser) (credentials : w'.credentials = s.world.credentialsAfter req)
      (admits : Admits ptr s.world w')

theorem authChange_of_arm {s : Server D} {event : Event} {handled : World D}
    (dispatches : Dispatches s event ptr req) (isAccount : isAccountCmd req.command = true)
    (found : s.world.heap ptr = some client)
    (runs : arm req ptr client (s.world.noted req) = .ok ((), handled)) (after : SameAccounts handled t) :
    AuthChange s event t := by
  have foundNoted : (s.world.noted req).heap ptr = some client := found
  -- an arm that is no SETUSER and authenticates nobody
  have kept (notSetuser : ¬ req.IsSetuser) (same : SameAuth (s.world.noted req) handled)
      (credentials : handled.credentials = s.world.credentials) : AuthChange s event t := by
    refine .kept ?_ (after.credentials.trans credentials) ?_
    · intro ptr' req' dispatches'
      rw [← (dispatches_unique dispatches dispatches').2]
      exact notSetuser
    · have unchanged : SameAuth (s.world.noted req) t :=
        same.trans (fun _ _ _ _ first second => second.trans first) after.sameAuth
      have sameAtStart : SameAuth s.world (s.world.noted req) := .of_same (fun _ _ => rfl) rfl rfl rfl
      exact nobodyNew_of_sameAuth (sameAtStart.trans (fun _ _ _ _ first second => second.trans first) unchanged)
  cases command : req.command with
  | auth =>
    have notSetuser : ¬ req.IsSetuser := fun isSetuser => by simp [isSetuser.1] at command
    have runsAuth : handleAuth req ptr (s.world.noted req) = .ok ((), handled) := by
      simpa [arm, command] using runs
    cases handleAuth_effect foundNoted runsAuth with
    | nothing few => exact kept notSetuser (.of_same (fun _ _ => rfl) rfl rfl rfl) rfl
    | refused password isPassword differs => exact kept notSetuser (.of_same (fun _ _ => rfl) rfl rfl rfl) rfl
    | accepted password isPassword hashes =>
      refine .auth ptr req dispatches ⟨command, password, isPassword, hashes⟩ after.credentials
        (Admits.trans_accounts ?_ after)
      exact .of_setClient found rfl rfl rfl
  | acl =>
    have runsAcl : handleAcl req ptr (s.world.noted req) = .ok ((), handled) := by
      simpa [arm, command] using runs
    obtain ⟨notSetuser, same⟩ | ⟨isSetuser, sets, effect, rfl⟩ := handleAcl_effect command foundNoted runsAcl
    · exact kept notSetuser same.sameAuth same.credentials
    · obtain ⟨heap, clients, activeFds⟩ := effect.sameClients
      have credentials : sets.credentials = (s.world.noted req).credentialsAfter req := effect.credentials isSetuser
      have admits : Admits ptr s.world (sets.setClient ptr client.authenticated) :=
        .of_setClient found clients activeFds (by rw [World.setClient, heap]; rfl)
      exact .setuser ptr req dispatches isSetuser (after.credentials.trans credentials) (admits.trans_accounts after)
  | subscribe =>
    have notSetuser : ¬ req.IsSetuser := fun isSetuser => by simp [isSetuser.1] at command
    have runsSubscribe : handleSubscribe req ptr (s.world.noted req) = .ok ((), handled) := by
      simpa [arm, command] using runs
    obtain ⟨same, credentials⟩ := sameAuth_subscribe foundNoted runsSubscribe
    exact kept notSetuser same credentials
  | unsubscribe =>
    have notSetuser : ¬ req.IsSetuser := fun isSetuser => by simp [isSetuser.1] at command
    have runsUnsubscribe : handleUnsubscribe req ptr (s.world.noted req) = .ok ((), handled) := by
      simpa [arm, command] using runs
    obtain ⟨same, credentials⟩ := sameAuth_unsubscribe foundNoted runsUnsubscribe
    exact kept notSetuser same credentials
  | _ => simp [command, isAccountCmd] at isAccount

theorem authChange_of_step {s t : Server D} {event : Event} (outside : OutsideMulti s) (step : Step s event t) :
    AuthChange s event t.world := by
  have change := reaccounts_of_step outside step
  generalize t.world = w' at change ⊢
  cases change with
  | kept isOther same =>
    refine .kept (fun ptr req dispatches isSetuser => ?_) same.credentials (nobodyNew_of_sameAuth same.sameAuth)
    simpa [isSetuser.1, isAccountCmd] using isOther ptr req dispatches
  | ran ptr req client dispatches isAccount found runs after =>
    exact authChange_of_arm dispatches isAccount found runs after
  | connected slot isNext free =>
    refine .kept (fun ptr req dispatches => absurd dispatches.1 (by simp [Server.calls])) rfl ?_
    intro other client' found' isAuth
    simp only [World.accept] at found'
    rename_i fd ptr
    by_cases isNew : other = ptr
    · rw [isNew, Function.update_self, Option.some.injEq] at found'
      rw [← found'] at isAuth
      simp [newClient] at isAuth
    · rw [Function.update_of_ne isNew] at found'
      exact ⟨client', found', isAuth⟩
  | disconnected last ptr isLast occupied =>
    refine .kept (fun ptr req dispatches => absurd dispatches.1 (by simp [Server.calls])) rfl ?_
    intro other client' found' isAuth
    simp only [World.drop] at found'
    have isOther : other ≠ ptr := by
      rintro rfl
      simp at found'
    rw [Function.update_of_ne isOther] at found'
    exact ⟨client', found', isAuth⟩

end Handlers

/-! ## Runs -/

/-- The password that the event makes the server accept. -/
def Server.givenPassword (s : Server D) (event : Event) : Option Bytes :=
  (s.calls event).bind fun call => (s.world.heap call.1).bind fun client =>
    if reachesArm client call.2 = true then call.2.newPassword else none

/-- A step of the server beside the last password that it accepted. -/
def Audits [Externals D] (before : Server D × Option Bytes) (event : Event) (after : Server D × Option Bytes) : Prop :=
  Step before.1 event after.1 ∧ after.2 = (before.1.givenPassword event).or before.2

/-- A SETUSER that gives the default user no password comes from a client that is authenticated, and it is malformed
or there is a password already. -/
def KeepsAuthentication (s : Server D) (event : Event) : Prop :=
  ∀ ptr req, Dispatches s event ptr req → req.IsSetuser → req.newPassword = none →
    (∃ client ∈ s.world.heap ptr, client.isAuth = true) ∧ (req.HasPasswordRule → s.world.defaultHasNopass = false)

instance (s : Server D) (event : Event) : Decidable (KeepsAuthentication s event) :=
  inferInstanceAs (Decidable (∀ ptr req, Dispatches s event ptr req → _ → _ → (∃ client ∈ s.world.heap ptr, _) ∧ _))

section Runs

variable [Externals D] {s t u : Server D} {event : Event} {ptr : ClientPtr} {req : RespRequest}
  {last : Option Bytes}

omit [Externals D] in
theorem givenPassword_of_dispatches (dispatches : Dispatches s event ptr req) :
    s.givenPassword event = req.newPassword := by
  obtain ⟨calls, client, found, reaches⟩ := dispatches
  simp [Server.givenPassword, calls, found, reaches]

omit [Externals D] in
theorem givenPassword_of_noSetuser (noSetuser : ∀ ptr req, Dispatches s event ptr req → ¬ req.IsSetuser) :
    s.givenPassword event = none := by
  by_contra given
  obtain ⟨password, isGiven⟩ := Option.ne_none_iff_exists'.mp given
  obtain ⟨⟨ptr, req⟩, calls, rest⟩ := Option.bind_eq_some_iff.mp isGiven
  obtain ⟨client, found, isPassword⟩ := Option.bind_eq_some_iff.mp rest
  split at isPassword
  · rename_i reaches
    refine noSetuser ptr req ⟨calls, client, found, reaches⟩ ?_
    by_contra isOther
    simp [RespRequest.newPassword, isOther] at isPassword
  · simp at isPassword

/-- The credentials are those of the last password. -/
def CredentialsOf (w : World D) (last : Option Bytes) : Prop :=
  w.defaultHasNopass = false → ∃ password, last = some password ∧ w.defaultPassword = Externals.sha256Hex D password

theorem credentialsOf_step (outside : OutsideMulti s) (holds : CredentialsOf s.world last)
    (keeps : KeepsAuthentication s event) (step : Step s event t) :
    CredentialsOf t.world ((s.givenPassword event).or last) := by
  have unchanged (given : s.givenPassword event = none) (same : t.world.credentials = s.world.credentials) :
      CredentialsOf t.world ((s.givenPassword event).or last) := by
    obtain ⟨sameNopass, samePassword⟩ := Credentials.mk.inj same
    rw [given, Option.none_or]
    intro isOff
    rw [samePassword]
    exact holds (sameNopass ▸ isOff)
  cases authChange_of_step outside step with
  | kept noSetuser credentials nobodyNew => exact unchanged (givenPassword_of_noSetuser noSetuser) credentials
  | auth ptr req dispatches authenticates credentials admits =>
    refine unchanged ?_ credentials
    rw [givenPassword_of_dispatches dispatches]
    simp [RespRequest.newPassword, RespRequest.IsSetuser, authenticates.1]
  | setuser ptr req dispatches isSetuser credentials admits =>
    cases given : req.newPassword with
    | none =>
      obtain ⟨_, alreadyOff⟩ := keeps ptr req dispatches isSetuser given
      refine unchanged ((givenPassword_of_dispatches dispatches).trans given) (credentials.trans ?_)
      -- `nopass` was off where this clears it
      by_cases wellFormed : req.HasPasswordRule
      · simp [World.credentialsAfter, given, wellFormed, World.credentials, alreadyOff wellFormed]
      · simp [World.credentialsAfter, given, wellFormed, World.credentials]
    | some password =>
      obtain ⟨_, isHash⟩ := Credentials.mk.inj credentials
      intro isOff
      refine ⟨password, by simp [givenPassword_of_dispatches dispatches, given], ?_⟩
      rw [isHash, given]
      rfl

/-- The invariant of the runs. -/
structure Audited (state : Server D × Option Bytes) : Prop where
  outside : OutsideMulti state.1
  credentials : CredentialsOf state.1.world state.2

theorem audited_step {before after : Server D × Option Bytes} (audited : Audited before)
    (keeps : KeepsAuthentication before.1 event) (audits : Audits before event after) : Audited after where
  outside := outsideMulti_step audited.outside audits.1
  credentials := audits.2 ▸ credentialsOf_step audited.outside audited.credentials keeps audits.1

/-- Where `nopass` is off the default password is the hash of the last one that was accepted.  Nobody becomes
authenticated but by AUTH with this password or by a SETUSER that was accepted, and any other SETUSER changes neither
the credentials nor who is authenticated. -/
theorem authentication_kept (idle : s.running = none) (initial : s.world.defaultHasNopass = true)
    (run : Run Audits (fun state event => KeepsAuthentication state.1 event) (s, none) (t, last)) :
    (t.world.defaultHasNopass = false →
      ∃ password, last = some password ∧ t.world.defaultPassword = Externals.sha256Hex D password) ∧
    ∀ event u, KeepsAuthentication t event → Step t event u →
      (∀ ptr client', u.world.heap ptr = some client' → client'.isAuth = true →
        (∃ client, t.world.heap ptr = some client ∧ client.isAuth = true) ∨
          ∃ req, Dispatches t event ptr req ∧ (t.world.Authenticates req ∨ req.newPassword ≠ none)) ∧
      ∀ ptr req, Dispatches t event ptr req → req.IsSetuser → req.newPassword = none →
        u.world.credentials = t.world.credentials ∧
          ∀ other client, t.world.heap other = some client →
            ∃ client', u.world.heap other = some client' ∧ client'.isAuth = client.isAuth := by
  have outsideAtStart : OutsideMulti s := by
    intro transaction client running
    simp [idle] at running
  have offAtStart : CredentialsOf s.world none := fun isOff => by simp [initial] at isOff
  obtain ⟨outside, holds⟩ : Audited (t, last) :=
    run.invariant (fun _ _ _ audited keeps audits => audited_step audited keeps audits) ⟨outsideAtStart, offAtStart⟩
  refine ⟨holds, fun event u keeps step => ⟨?_, ?_⟩⟩
  · intro ptr client' found' isAuth
    cases authChange_of_step outside step with
    | kept noSetuser credentials nobodyNew => exact .inl (nobodyNew ptr client' found' isAuth)
    | auth sender req dispatches authenticates credentials admits =>
      obtain ⟨client, found, _, becomes⟩ := admits.back found'
      by_cases isSender : ptr = sender
      · exact .inr ⟨req, isSender ▸ dispatches, .inl authenticates⟩
      · rw [if_neg isSender] at becomes
        exact .inl ⟨client, found, becomes ▸ isAuth⟩
    | setuser sender req dispatches isSetuser credentials admits =>
      obtain ⟨client, found, _, becomes⟩ := admits.back found'
      by_cases isSender : ptr = sender
      · cases given : req.newPassword with
        | some password => exact .inr ⟨req, isSender ▸ dispatches, .inr (by simp [given])⟩
        | none =>
          -- the sender of a SETUSER that was not accepted was authenticated before
          obtain ⟨⟨client'', found'', wasAuth⟩, _⟩ := keeps sender req dispatches isSetuser given
          exact .inl ⟨client'', isSender ▸ found'', wasAuth⟩
      · -- everybody else is as before
        rw [if_neg isSender] at becomes
        exact .inl ⟨client, found, becomes ▸ isAuth⟩
  · intro ptr req dispatches isSetuser noPassword
    obtain ⟨⟨sender, foundSender, wasAuth⟩, alreadyOff⟩ := keeps ptr req dispatches isSetuser noPassword
    cases authChange_of_step outside step with
    | kept noSetuser credentials nobodyNew => exact absurd isSetuser (noSetuser ptr req dispatches)
    | auth ptr' req' dispatches' authenticates credentials admits =>
      obtain ⟨_, rfl⟩ := dispatches_unique dispatches dispatches'
      exact absurd authenticates.1 (by simp [isSetuser.1])
    | setuser ptr' req' dispatches' _ credentials admits =>
      obtain ⟨rfl, rfl⟩ := dispatches_unique dispatches dispatches'
      refine ⟨credentials.trans ?_, fun other client found => ?_⟩
      · by_cases wellFormed : req.HasPasswordRule
        · simp [World.credentialsAfter, noPassword, wellFormed, World.credentials, alreadyOff wellFormed]
        · simp [World.credentialsAfter, noPassword, wellFormed, World.credentials]
      · obtain ⟨client', found', _, becomes⟩ := admits.heap other client found
        refine ⟨client', found', ?_⟩
        by_cases isSender : other = ptr
        · obtain rfl : sender = client := Option.some.inj (foundSender.symm.trans (isSender ▸ found))
          rw [becomes, if_pos isSender, wasAuth]
        · rw [becomes, if_neg isSender]

end Runs

/-- Numbers without a fraction, with the digest of one password. -/
def Digests : Type := Int

instance digests : Externals Digests :=
  { (wholeNumbers : Externals Int) with
    sha256Hex := fun password =>
      if password = lit "pw" then lit "30c952fab122c3f9759f02a6d95c3758b246b4fee239957b2d4fee46e26170c4" else [] }

def quietServer : Server Digests := ⟨blankWorld Digests, none⟩

def authenticate : Event := arrival secondSlot [lit "AUTH", lit "default", lit "pw"]

/-- A second client gives the password that the first one has set. -/
theorem authentication_kept_auth : ∃ (t u : Server Digests) (client client' : Client),
    Step t authenticate u ∧ t.world.heap 1 = some client ∧ u.world.heap 1 = some client' ∧
      client.isAuth = false ∧ client'.isAuth = true ∧ t.world.defaultHasNopass = false ∧
      t.world.defaultPassword = Externals.sha256Hex Digests (lit "pw") ∧
      ∃ req, Dispatches t authenticate 1 req ∧ (t.world.Authenticates req ∨ req.newPassword ≠ none) := by
  have played : (Run.follow (fun (state : Server Digests × Option Bytes) event =>
      (next state.1 event).map fun t => (t, (state.1.givenPassword event).or state.2))
      (fun state event => KeepsAuthentication state.1 event) (quietServer, none)
      [.connect 5 0, .connect 6 1, arrival firstSlot [lit "ACL", lit "SETUSER", lit "default", lit ">pw"]]).any
      (fun (t, last) => decide (last = some (lit "pw")) && !t.world.defaultHasNopass &&
        (t.world.heap 1).any (fun client => !client.isAuth) && decide (KeepsAuthentication t authenticate) &&
        (next t authenticate).any fun u => (u.world.heap 1).any fun client => client.isAuth) = true := by
    decide +kernel
  obtain ⟨⟨t, last⟩, follows, checked⟩ := (Option.any_eq_true _ _).mp played
  simp only [Bool.and_eq_true, Bool.not_eq_true', decide_eq_true_eq, Option.any_eq_true] at checked
  obtain ⟨⟨⟨⟨isLast, isOff⟩, client, found, isOut⟩, keeps⟩, u, isNext, client', found', isIn⟩ := checked
  have run : Run Audits (fun state event => KeepsAuthentication state.1 event) (quietServer, none) (t, last) := by
    refine Run.of_follow (fun before event after isNext => ?_) follows
    obtain ⟨u, isNext', rfl⟩ := Option.map_eq_some_iff.mp isNext
    exact ⟨next_step isNext', rfl⟩
  obtain ⟨hashed, steps⟩ := authentication_kept rfl rfl run
  obtain ⟨password, isPassword, isHash⟩ := hashed isOff
  obtain rfl : lit "pw" = password := Option.some.inj (isLast.symm.trans isPassword)
  obtain ⟨wasIn, found'', isAuth⟩ | given := (steps authenticate u keeps (next_step isNext)).1 1 client' found' isIn
  · obtain rfl : client = wasIn := Option.some.inj (found.symm.trans found'')
    simp [isOut] at isAuth
  · exact ⟨t, u, client, client', next_step isNext, found, found', isOut, isIn, isOff, isHash, given⟩

/-- The rule of this SETUSER is no password. -/
def badSetuser : Event := arrival firstSlot [lit "ACL", lit "SETUSER", lit "default", lit "pw"]

/-- A SETUSER that is rejected authenticates its sender. -/
theorem rejected_setuser_authenticates :
    ¬ ∀ (t u : Server Int) (event : Event) (ptr : ClientPtr) (client client' : Client),
      Runs idleServer t → Step t event u → t.world.heap ptr = some client → u.world.heap ptr = some client' →
        client.isAuth = false → client'.isAuth = true →
        ∃ req, Dispatches t event ptr req ∧ (t.world.Authenticates req ∨ req.newPassword ≠ none) := by
  intro authenticated
  obtain ⟨t, run, checked⟩ := exists_run_of_play
    (show (play (fun _ _ => True) idleServer [.connect 5 0]).any
      (fun t => (t.world.heap 0).any (fun client => !client.isAuth) &&
        (next t badSetuser).any fun u => (u.world.heap 0).any fun client => client.isAuth) = true by
      decide +kernel)
  simp only [Bool.and_eq_true, Bool.not_eq_true', Option.any_eq_true] at checked
  obtain ⟨⟨client, found, isOut⟩, u, isNext, client', found', isIn⟩ := checked
  obtain ⟨req, dispatches, given⟩ := authenticated t u badSetuser 0 client client' run (next_step isNext) found found'
    isOut isIn
  obtain ⟨_, rfl⟩ := dispatches_arrival dispatches
  obtain isAuthRequest | isAccepted := given
  · exact absurd isAuthRequest.1 (by decide +kernel)
  · exact isAccepted (by decide +kernel)

end RedisClone
