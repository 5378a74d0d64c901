import RedisClone.Verified.Deques
import RedisClone.Verified.Silence
import RedisClone.Verified.SubscribedMode

/-! # PUBLISH

`Listening` is the abstract state of publish and subscribe: for each client the set of the channels that it asked for.
A step of the server other than an UNSUBSCRIBE keeps the slots of every client at its set (`listens_step`), where the
confirmations of a SUBSCRIBE before its last one fit into their array, and the table at one slot and one descriptor for
each connection (`connected_step`).  PUBLISH goes over the slots of the table and of each client (`publishAll_run`), so
that `publish_delivers_once` has one message for each client whose set has the channel, and none for another one.
-/

namespace RedisClone

open Exec CString

variable {D : Type}

/-! ## The table -/

section Table

variable {s t : Server D} {event : Event}

theorem watchList_propagate {ptr : ClientPtr} {call : Call} {w w' : World D}
    (run : propagate ptr call w = .ok ((), w')) : w'.watchList = w.watchList := by
  obtain ⟨_, _, same⟩ := propagate_same run
  rw [same]

variable [Externals D]

/-- What a request or the command of a transaction leaves of the descriptors. -/
theorem watchList_step (outside : OutsideMulti s) (step : Step s event t)
    (called : (∃ slot call, event = .request slot call) ∨ event = .proceed) :
    t.world.watchList = s.world.watchList ∧ Clientwise (fun _ _ _ => True) s.world t.world := by
  constructor
  · cases step_cases outside step with
    | quiet idle noRequest kept =>
      obtain ⟨slot, call, isRequest⟩ | rfl := called
      · exact absurd isRequest (noRequest slot call)
      · exact absurd idle step.1
    | connected slot idle isNext valid free => simp at called
    | disconnected last ptr idle isLast occupied => simp at called
    | started ptr client idle occupied found starts => rfl
    | served ptr client idle occupied found starts handles propagates =>
      exact (watchList_propagate propagates).trans handles.watchList
    | ran ptr req remaining call client after running found handles foundAfter => exact handles.watchList
    | ended ptr call running propagates => exact watchList_propagate propagates
  · have reconnects := reconnects_of_step outside step
    generalize t.world = w' at reconnects
    cases reconnects with
    | kept clientwise => exact clientwise
    | connected slot isNext => simp at called
    | disconnected last ptr occupied => simp at called

theorem connected_step (connected : Connected s.world) (outside : OutsideMulti s) (unused : AcceptsUnused s event)
    (step : Step s event t) : Connected t.world := by
  obtain ⟨enabled, acts⟩ := id step
  cases event with
  | poll ready =>
    rw [show s.running = none from enabled] at acts
    exact (connected.polls ready (act_unit acts).1).1
  | timers =>
    rw [show s.running = none from enabled] at acts
    obtain ⟨clientwise, watchList⟩ := runTimers_notBlocked connected.distinct (act_unit acts).1
    exact connected.of_clientwise (clientwise.mono fun _ _ _ _ => trivial) watchList
  | connect fd ptr =>
    rw [show s.running = none from enabled.1] at acts
    obtain same | ⟨slot, isNext, same⟩ := connect_run (act_unit acts).1
    · rw [same]
      exact connected
    -- a new descriptor is none of those in use
    · have isUnused (other : ClientSlot) (occupied : s.world.clients other ≠ none) :
          (s.world.watchList other).fd ≠ (newClient fd).fd := by
        obtain ⟨ptr', inSlot⟩ := Option.ne_none_iff_exists'.mp occupied
        obtain ⟨client, found, isFd⟩ := connected.polled other ptr' inSlot
        rw [← isFd]
        exact unused other client (by simp [World.occupant, inSlot, found])
      rw [same]
      exact connected.seat isNext enabled.2.2 isUnused
  | disconnect slot =>
    rw [show s.running = none from enabled.1] at acts
    obtain ⟨ptr, inSlot⟩ := Option.ne_none_iff_exists'.mp enabled.2
    obtain ⟨last, isLast, same⟩ := disconnect_run inSlot (act_unit acts).1
    rw [same]
    exact connected.drop isLast inSlot
  | request slot call =>
    obtain ⟨watchList, clientwise⟩ := watchList_step outside step (.inl ⟨slot, call, rfl⟩)
    exact connected.of_clientwise clientwise watchList
  | proceed =>
    obtain ⟨watchList, clientwise⟩ := watchList_step outside step (.inr rfl)
    exact connected.of_clientwise clientwise watchList

end Table

/-! ## The channels -/

/-- The slots of every client hold the channels of its set. -/
def World.Listens (w : World D) (subscribed : ClientPtr → Finset Bytes) : Prop :=
  ∀ ptr client, w.heap ptr = some client → client.SubscribedTo (subscribed ptr)

/-- The server, and the channels that each client is subscribed to. -/
structure Listening (D : Type) where
  server : Server D
  subscribed : ClientPtr → Finset Bytes

/-- The SUBSCRIBE that the event runs. -/
def Listening.subscribes (s : Listening D) (event : Event) : Option (ClientPtr × List Bytes) :=
  (s.server.calls event).bind fun (ptr, req) =>
    if (s.server.world.heap ptr).any (reachesArm · req) && req.command = .subscribe then some (ptr, req.args) else none

/-- The channels of the clients after an event.  A client that connects has none; SUBSCRIBE adds all that it names. -/
def Listening.after (s : Listening D) (event : Event) : ClientPtr → Finset Bytes :=
  match event with
  | .connect _ ptr => Function.update s.subscribed ptr ∅
  | _ =>
    match s.subscribes event with
    | none => s.subscribed
    | some (ptr, channels) =>
      Function.update s.subscribed ptr (s.subscribed ptr ∪ channels.toFinset)

/-- The event is no UNSUBSCRIBE, and leaves every client with at most 64 channels; `accept` returns a descriptor that
is not in use. -/
def Attentive (s : Listening D) (event : Event) : Prop :=
  AcceptsUnused s.server event ∧
    (∀ ptr req, Dispatches s.server event ptr req → req.command ≠ .unsubscribe) ∧
      ∀ call ∈ s.subscribes event, (s.after event call.1).card ≤ maxChannels

instance (s : Listening D) (event : Event) : Decidable (Attentive s event) :=
  inferInstanceAs (Decidable (_ ∧ _ ∧ _))

/-- The confirmations of a SUBSCRIBE before its last one fit into the array of `handle_subscribe`, whose loop ends behind
the first one that does not. -/
def Confirmed (s : Listening D) (event : Event) : Prop :=
  ∀ call ∈ s.subscribes event, (confirmations (s.subscribed call.1) call.2.dropLast).length < 1024

instance (s : Listening D) (event : Event) : Decidable (Confirmed s event) :=
  inferInstanceAs (Decidable (∀ call ∈ s.subscribes event, _))

section Channels

variable {w w' t : World D} {subscribed : ClientPtr → Finset Bytes} {ptr : ClientPtr} {client : Client}
  {req : RespRequest}

theorem Client.SubscribedTo.of_account {client' : Client} {channels : Finset Bytes}
    (holds : client.SubscribedTo channels) (same : client'.account = client.account) :
    client'.SubscribedTo channels := by
  obtain ⟨_, _, channelSubed, channelCount⟩ := Account.mk.inj same
  rw [Client.SubscribedTo, channelSubed, channelCount]
  exact holds

theorem World.Listens.of_sameAccounts (listens : w.Listens subscribed) (same : SameAccounts w w') :
    w'.Listens subscribed := by
  intro ptr client' found'
  obtain ⟨client, found, _, sameAccount⟩ := same.back found'
  exact (listens ptr client found).of_account sameAccount

/-- One client has another account. -/
theorem World.Listens.of_update {client' : Client} {channels : Finset Bytes} (listens : w.Listens subscribed)
    (heap : w'.heap = Function.update w.heap ptr (some client')) (holds : client'.SubscribedTo channels) :
    w'.Listens (Function.update subscribed ptr channels) := by
  intro other client found
  rw [heap] at found
  by_cases same : other = ptr
  · subst same
    obtain rfl : client' = client := by simpa using found
    rwa [Function.update_self]
  · rw [Function.update_of_ne same] at found ⊢
    exact listens other client found

theorem World.Listens.subscribe (listens : w.Listens subscribed) (found : w.heap ptr = some client)
    (few : (subscribed ptr ∪ req.args.toFinset).card ≤ maxChannels)
    (fits : (confirmations (subscribed ptr) req.args.dropLast).length < 1024)
    (run : handleSubscribe req ptr w = .ok ((), t)) :
    t.Listens (Function.update subscribed ptr (subscribed ptr ∪ req.args.toFinset)) := by
  obtain ⟨client', found', holds⟩ := handleSubscribe_ok found (listens ptr client found) few fits run
  obtain ⟨channelSubed, channelCount, text, rfl, _⟩ := handleSubscribe_changes found run
  have heap : Function.update w.heap ptr
      (some { client.withChannels channelSubed channelCount with isSubscribed := true }) ptr = some client' := found'
  rw [Function.update_self] at heap
  exact listens.of_update (show _ = Function.update w.heap ptr (some client') by rw [← heap]; rfl) holds

/-- AUTH and ACL leave the channels alone. -/
theorem World.Listens.authenticate (listens : w.Listens subscribed) (found : w.heap ptr = some client)
    (heap : w'.heap = Function.update w.heap ptr (some client.authenticated)) : w'.Listens subscribed := by
  have holds : client.authenticated.SubscribedTo (subscribed ptr) := listens ptr client found
  have updated := listens.of_update heap holds
  rwa [Function.update_eq_self] at updated

variable [Externals D] {s u : Listening D} {event : Event}

omit [Externals D] in
theorem Listening.subscribes_of_dispatches (dispatches : Dispatches s.server event ptr req) :
    s.subscribes event = if req.command = .subscribe then some (ptr, req.args) else none := by
  obtain ⟨calls, client, found, reaches⟩ := dispatches
  simp [Listening.subscribes, calls, found, reaches]

omit [Externals D] in
theorem Listening.dispatches_of_subscribes {channels : List Bytes} (asks : s.subscribes event = some (ptr, channels)) :
    ∃ req, Dispatches s.server event ptr req ∧ req.command = .subscribe ∧ req.args = channels := by
  obtain ⟨⟨ptr', req⟩, calls, isSubscribe⟩ := Option.bind_eq_some_iff.mp asks
  obtain ⟨reaches, same⟩ := Option.ite_none_right_eq_some.mp isSubscribe
  simp only [Bool.and_eq_true, decide_eq_true_eq, Option.any_eq_true] at reaches
  obtain ⟨⟨client, found, reaches⟩, command⟩ := reaches
  obtain ⟨rfl, rfl⟩ := Prod.mk.inj (Option.some.inj same)
  exact ⟨req, ⟨calls, client, found, reaches⟩, command, rfl⟩

omit [Externals D] in
/-- An event that runs a command is no connection. -/
theorem Listening.after_of_dispatches (dispatches : Dispatches s.server event ptr req) :
    s.after event = if req.command = .subscribe then
      Function.update s.subscribed ptr (s.subscribed ptr ∪ req.args.toFinset)
      else s.subscribed := by
  have asks := subscribes_of_dispatches dispatches
  unfold Listening.after
  cases event with
  | connect fd new => simp [Dispatches, Server.calls] at dispatches
  | _ =>
    dsimp only
    rw [asks]
    by_cases isSubscribe : req.command = .subscribe
    · rw [if_pos isSubscribe, if_pos isSubscribe]
    · rw [if_neg isSubscribe, if_neg isSubscribe]

omit [Externals D] in
/-- An event that runs no SUBSCRIBE changes the set of no client that is there. -/
theorem Listening.after_of_quiet (quiet : ∀ ptr req, Dispatches s.server event ptr req → req.command ≠ .subscribe)
    (enabled : Enabled s.server event) (allocated : s.server.world.heap ptr ≠ none) :
    s.after event ptr = s.subscribed ptr := by
  have nothing : s.subscribes event = none := by
    cases asks : s.subscribes event with
    | none => rfl
    | some call =>
      obtain ⟨req, dispatches, isSubscribe, _⟩ := dispatches_of_subscribes asks
      exact absurd isSubscribe (quiet call.1 req dispatches)
  unfold Listening.after
  cases event with
  | connect fd new =>
    have isOther : ptr ≠ new := fun same => allocated (same ▸ enabled.2.2)
    exact Function.update_of_ne isOther _ _
  | _ => simp only [nothing]

/-- The arms of the four commands that change accounts, without the one of UNSUBSCRIBE. -/
theorem World.Listens.arm (listens : w.Listens subscribed) (found : w.heap ptr = some client)
    (isAccount : isAccountCmd req.command = true) (notUnsubscribe : req.command ≠ .unsubscribe)
    (few : req.command = .subscribe → (subscribed ptr ∪ req.args.toFinset).card ≤ maxChannels)
    (fits : req.command = .subscribe → (confirmations (subscribed ptr) req.args.dropLast).length < 1024)
    (run : RedisClone.arm req ptr client w = .ok ((), t)) :
    t.Listens (if req.command = .subscribe then
      Function.update subscribed ptr (subscribed ptr ∪ req.args.toFinset)
      else subscribed) := by
  unfold RedisClone.arm at run
  cases command : req.command with
  | auth =>
    simp only [command] at run
    rw [if_neg (by simp)]
    cases handleAuth_effect found run with
    | nothing few => exact listens
    | refused password isPassword differs => exact listens
    | accepted password isPassword hashes => exact listens.authenticate found rfl
  | acl =>
    simp only [command] at run
    rw [if_neg (by simp)]
    obtain ⟨_, same⟩ | ⟨_, sets, effect, rfl⟩ := handleAcl_effect command found run
    · exact listens.of_sameAccounts same
    · exact listens.authenticate found (by rw [World.setClient, effect.sameClients.1])
  | subscribe =>
    simp only [command] at run
    rw [if_pos rfl]
    exact listens.subscribe found (few command) (fits command) run
  | unsubscribe => exact absurd command notUnsubscribe
  | _ => simp [command, isAccountCmd] at isAccount

theorem listens_step (outside : OutsideMulti s.server) (listens : s.server.world.Listens s.subscribed)
    (attentive : Attentive s event) (confirmed : Confirmed s event) (step : Step s.server event u.server) :
    u.server.world.Listens (s.after event) := by
  obtain ⟨_, notUnsubscribe, few⟩ := attentive
  have change := reaccounts_of_step outside step
  have enabled := step.1
  generalize u.server.world = w' at change ⊢
  cases change with
  | kept isOther same =>
    apply World.Listens.of_sameAccounts ?_ same
    intro ptr client found
    -- no command of this step is a SUBSCRIBE, so the channels are as they were
    have quiet (sender : ClientPtr) (req : RespRequest) (dispatches : Dispatches s.server event sender req) :
        req.command ≠ .subscribe := by
      intro isSubscribe
      have := isOther sender req dispatches
      simp [isSubscribe, isAccountCmd] at this
    rw [Listening.after_of_quiet quiet enabled (by simp [found])]
    exact listens ptr client found
  | ran ptr req client dispatches isAccount found runs after =>
    rw [Listening.after_of_dispatches dispatches]
    have noted : (s.server.world.noted req).Listens s.subscribed := listens
    apply World.Listens.of_sameAccounts ?_ after
    have asks (isSubscribe : req.command = .subscribe) : s.subscribes event = some (ptr, req.args) := by
      rw [Listening.subscribes_of_dispatches dispatches, if_pos isSubscribe]
    refine noted.arm found isAccount (notUnsubscribe ptr req dispatches) (fun isSubscribe => ?_) (fun isSubscribe => ?_) runs
    · have room := few (ptr, req.args) (asks isSubscribe)
      rwa [Listening.after_of_dispatches dispatches, if_pos isSubscribe, Function.update_self] at room
    · exact confirmed (ptr, req.args) (asks isSubscribe)
  | connected slot isNext free =>
    rename_i fd new
    exact listens.of_update rfl (subscribedTo_empty rfl rfl)
  | disconnected last gone isLast occupied =>
    intro ptr client found
    exact listens ptr client (heap_drop found).2

end Channels

/-! ## The messages -/

/-- The message that `handle_publish` sends. -/
def publishText (channel message : Bytes) : Bytes :=
  lit "*3\r\n$7\r\nmessage\r\n" ++ bulk channel ++ bulk message

/-- The descriptor of a client. -/
def World.descriptor (w : World D) (ptr : ClientPtr) : Int := ((w.heap ptr).map Client.fd).getD (-1)

def World.IsConnected (w : World D) (ptr : ClientPtr) : Prop := ∃ slot, w.clients slot = some ptr

/-- The client in the slot, where it is subscribed to the channel. -/
def World.listenerAt (w : World D) (subscribed : ClientPtr → Finset Bytes) (channel : Bytes) (slot : ClientSlot) :
    Option ClientPtr :=
  (w.clients slot).filter fun ptr => channel ∈ subscribed ptr

/-- One message for each of these clients. -/
def World.pushes (w : World D) (text : Bytes) (listeners : List ClientPtr) : List (Int × Bytes) :=
  listeners.map fun ptr => (w.descriptor ptr, text)

section Messages

variable {w : World D} {subscribed : ClientPtr → Finset Bytes} {channel message : Bytes}

/-- Among other channels nothing is sent. -/
theorem publishTo_absent {fd : Int} {channels : List Bytes} (absent : channel ∉ channels) :
    publishTo fd channel message (channels.map some) w = .ok (0, w) := by
  induction channels with
  | nil => rfl
  | cons subed channels inductionHypothesis =>
    obtain ⟨isOther, absent⟩ := not_or.mp (mt List.mem_cons.mpr absent)
    rw [List.map_cons, publishTo, if_neg (Ne.symm isOther)]
    exact inductionHypothesis absent

/-- A channel that is there once is sent one message. -/
theorem publishTo_once {fd : Int} {channels : List Bytes} (fits : (publishText channel message).length < 1024)
    (nodup : channels.Nodup) (member : channel ∈ channels) :
    publishTo fd channel message (channels.map some) w = .ok (1, w.emit fd (publishText channel message)) := by
  induction channels with
  | nil => cases member
  | cons subed channels inductionHypothesis =>
    obtain ⟨fresh, nodup⟩ := List.nodup_cons.mp nodup
    rw [List.map_cons, publishTo]
    by_cases same : subed = channel
    · subst same
      have first : sendText 1024 fd (lit "*3\r\n$7\r\nmessage\r\n" ++ bulk subed ++ bulk message) w =
          .ok ((), w.emit fd (publishText subed message)) := sendText_run fits
      rw [if_pos rfl, bind_of_ok first, bind_of_ok (publishTo_absent fresh)]
      rfl
    · rw [if_neg same]
      exact inductionHypothesis nodup ((List.mem_cons.mp member).resolve_left (Ne.symm same))

/-- A client is sent one message where it is subscribed to the channel. -/
theorem Client.SubscribedTo.publish {client : Client} {channels : Finset Bytes} (holds : client.SubscribedTo channels)
    (fits : (publishText channel message).length < 1024) :
    publishTo client.fd channel message (client.channelSubed.take client.channelCount) w =
      if channel ∈ channels then .ok (1, w.emit client.fd (publishText channel message)) else .ok (0, w) := by
  obtain ⟨_, slots, fills, nodup, rfl⟩ := holds
  rw [fills.filled]
  by_cases member : channel ∈ slots
  · rw [if_pos (List.mem_toFinset.mpr member)]
    exact publishTo_once fits nodup member
  · rw [if_neg (mt List.mem_toFinset.mp member)]
    exact publishTo_absent member

/-- The loop over some slots of the table, with what was sent before it. -/
theorem publishAll_run (listens : w.Listens subscribed)
    (allocated : ∀ slot ptr, w.clients slot = some ptr → ∃ client, w.heap ptr = some client)
    (fits : (publishText channel message).length < 1024) (slots : List ClientSlot) (before : Nat)
    (sent : List (Int × Bytes)) :
    publishAll channel message slots before { w with sent } =
      .ok (before + (slots.filterMap (w.listenerAt subscribed channel)).length,
        { w with
          sent := sent ++ w.pushes (publishText channel message)
            (slots.filterMap (w.listenerAt subscribed channel)) }) := by
  induction slots generalizing before sent with
  | nil => simp [publishAll, World.pushes]
  | cons slot slots inductionHypothesis =>
    unfold publishAll
    -- the loop goes on over a NULL slot
    cases inSlot : w.clients slot with
    | none =>
      have empty : w.listenerAt subscribed channel slot = none := by simp [World.listenerAt, inSlot]
      have look : clientAt slot { w with sent } = .ok (none, { w with sent }) := by
        rw [clientAt, bind_of_ok (observe_run _ _), inSlot]
        rfl
      rw [bind_of_ok look, List.filterMap_cons_none empty]
      exact inductionHypothesis before sent
    | some ptr =>
      obtain ⟨client, found⟩ := allocated slot ptr inSlot
      have look : clientAt slot { w with sent } = .ok (some (ptr, client), { w with sent }) := by
        have stored : ({ w with sent } : World D).heap ptr = some client := found
        rw [clientAt, bind_of_ok (observe_run _ _), inSlot]
        exact (bind_of_ok (loadClient_found stored)).trans rfl
      rw [bind_of_ok look]
      dsimp only
      have publishes := (listens ptr client found).publish (w := { w with sent }) fits
      by_cases member : channel ∈ subscribed ptr
      · have here : w.listenerAt subscribed channel slot = some ptr := by simp [World.listenerAt, inSlot, member]
        have isFd : w.descriptor ptr = client.fd := by simp [World.descriptor, found]
        rw [if_pos member] at publishes
        rw [bind_of_ok publishes, List.filterMap_cons_some here]
        have later := inductionHypothesis (before + 1) (sent ++ [(client.fd, publishText channel message)])
        rw [show ({ w with sent } : World D).emit client.fd (publishText channel message) =
          { w with sent := sent ++ [(client.fd, publishText channel message)] } from rfl, later]
        simp [World.pushes, isFd, Nat.add_assoc, Nat.add_comm 1]
      · have absent : w.listenerAt subscribed channel slot = none := by simp [World.listenerAt, inSlot, member]
        rw [if_neg member] at publishes
        rw [bind_of_ok publishes, List.filterMap_cons_none absent]
        exact inductionHypothesis before sent

theorem handlePublish_run {req : RespRequest} {clientFd : Int} (isChannel : req.args[0]? = some channel)
    (isMessage : req.args[1]? = some message) (listens : w.Listens subscribed)
    (allocated : ∀ slot ptr, w.clients slot = some ptr → ∃ client, w.heap ptr = some client)
    (fits : (publishText channel message).length < 1024) :
    handlePublish req clientFd w =
      .ok ((), { w with
        sent := w.sent ++ w.pushes (publishText channel message)
            (clientSlots.filterMap (w.listenerAt subscribed channel)) ++
          [(clientFd, integerReply (clientSlots.filterMap (w.listenerAt subscribed channel)).length)] }) := by
  have few : (clientSlots.filterMap (w.listenerAt subscribed channel)).length ≤ maxClients := by
    have := List.length_filterMap_le (w.listenerAt subscribed channel) clientSlots
    simpa [clientSlots] using this
  have small : (integerReply (clientSlots.filterMap (w.listenerAt subscribed channel)).length).length < 64 := by
    have := length_integerReply (show (clientSlots.filterMap (w.listenerAt subscribed channel)).length < 2 ^ 64 by
      unfold maxClients at few
      omega)
    omega
  have enough := lt_argc isMessage
  have sends := publishAll_run listens allocated fits clientSlots 0 w.sent
  rw [Nat.zero_add] at sends
  unfold handlePublish
  rw [if_neg (by omega), bind_of_ok (arg_ok.mpr ⟨isChannel, rfl⟩), bind_of_ok (arg_ok.mpr ⟨isMessage, rfl⟩),
    bind_of_ok sends]
  exact sendText_run small

end Messages

/-! ## Runs -/

section Runs

variable [Externals D] {s u : Listening D}

/-- The server takes a step, and SUBSCRIBE adds to the channels of its client. -/
def ListeningStep (s : Listening D) (event : Event) (u : Listening D) : Prop :=
  Step s.server event u.server ∧ u.subscribed = s.after event

omit [Externals D] in
/-- No two connected clients have one descriptor. -/
theorem Connected.descriptors_injective {w : World D} (connected : Connected w) :
    Set.InjOn w.descriptor {ptr | w.IsConnected ptr} := by
  rintro ptr ⟨slot, inSlot⟩ ptr' ⟨slot', inSlot'⟩ same
  obtain ⟨client, found, isFd⟩ := connected.polled slot ptr inSlot
  obtain ⟨client', found', isFd'⟩ := connected.polled slot' ptr' inSlot'
  simp only [World.descriptor, found, found', Option.map_some, Option.getD_some] at same
  have sameSlot : slot = slot' := by
    apply connected.apart
    · simp [inSlot]
    · simp [inSlot']
    · rw [← isFd, ← isFd', same]
  subst sameSlot
  exact Option.some.inj (inSlot.symm.trans inSlot')

/-- The invariant of the runs. -/
structure Serving (s : Listening D) : Prop where
  connected : Connected s.server.world
  outside : OutsideMulti s.server
  listens : s.server.world.Listens s.subscribed

theorem serving_step {event : Event} (serving : Serving s) (attentive : Attentive s event) (confirmed : Confirmed s event)
    (step : ListeningStep s event u) : Serving u where
  connected := connected_step serving.connected serving.outside attentive.1 step.1
  outside := outsideMulti_step serving.outside step.1
  listens := step.2 ▸ listens_step serving.outside serving.listens attentive confirmed step.1

/-- In every state that a run without UNSUBSCRIBE reaches, from one in which nobody is subscribed, and in which the
confirmations of every SUBSCRIBE before its last one fit, PUBLISH of a message that fits its array sends one message to
each client that is subscribed to the channel, all of which have descriptors of their own, none to another client, and
the number of these clients to its sender; it changes nothing else. -/
theorem publish_delivers_once {w₀ : World D} {req : RespRequest} {channel message : Bytes}
    (connected : Connected w₀)
    (nobody : ∀ ptr client, w₀.heap ptr = some client →
      client.channelSubed.length = maxChannels ∧ client.channelCount = 0)
    (run : Run ListeningStep (fun s event => Attentive s event ∧ Confirmed s event) ⟨⟨w₀, none⟩, fun _ => ∅⟩ s)
    (isChannel : req.args[0]? = some channel) (isMessage : req.args[1]? = some message)
    (fits : (publishText channel message).length < 1024) :
    ∃ listeners : List ClientPtr, listeners.Nodup ∧
      (∀ ptr, ptr ∈ listeners ↔ s.server.world.IsConnected ptr ∧ channel ∈ s.subscribed ptr) ∧
      Set.InjOn s.server.world.descriptor {ptr | s.server.world.IsConnected ptr} ∧
      ∀ clientFd, handlePublish req clientFd s.server.world =
        .ok ((), { s.server.world with
          sent := s.server.world.sent ++ s.server.world.pushes (publishText channel message) listeners ++
            [(clientFd, integerReply listeners.length)] }) := by
  have atStart : Serving (⟨⟨w₀, none⟩, fun _ => ∅⟩ : Listening D) :=
    { connected
      outside := fun _ _ running => nomatch running
      listens := fun ptr client found =>
        subscribedTo_empty (nobody ptr client found).1 (nobody ptr client found).2 }
  obtain ⟨connected, _, listens⟩ :=
    run.invariant (fun _ _ _ serving allowed step => serving_step serving allowed.1 allowed.2 step) atStart
  have listener {ptr : ClientPtr} {slot : ClientSlot}
      (here : ptr ∈ s.server.world.listenerAt s.subscribed channel slot) : s.server.world.clients slot = some ptr :=
    (Option.filter_eq_some_iff.mp here).1
  refine ⟨clientSlots.filterMap (s.server.world.listenerAt s.subscribed channel), ?_, ?_, ?_, ?_⟩
  · -- no client is in two slots
    apply (List.nodup_finRange maxClients).filterMap
    intro slot slot' ptr here here'
    exact connected.distinct slot slot' ptr (listener here) (listener here')
  · intro ptr
    simp only [List.mem_filterMap, World.listenerAt, Option.filter_eq_some_iff, decide_eq_true_eq]
    constructor
    · rintro ⟨slot, _, inSlot, member⟩
      exact ⟨⟨slot, inSlot⟩, member⟩
    · rintro ⟨⟨slot, inSlot⟩, member⟩
      exact ⟨slot, List.mem_finRange slot, inSlot, member⟩
  · exact connected.descriptors_injective
  · intro clientFd
    apply handlePublish_run isChannel isMessage listens ?_ fits
    intro slot ptr inSlot
    obtain ⟨client, found, _⟩ := connected.polled slot ptr inSlot
    exact ⟨client, found⟩

/-- The state after an event, where it can come and ends normally. -/
def Listening.next (s : Listening D) (event : Event) : Option (Listening D) :=
  (RedisClone.next s.server event).map fun t => ⟨t, s.after event⟩

theorem Listening.next_sound (s : Listening D) (event : Event) (u : Listening D) (isNext : s.next event = some u) :
    ListeningStep s event u := by
  obtain ⟨t, steps, rfl⟩ := Option.map_eq_some_iff.mp isNext
  exact ⟨next_step steps, rfl⟩

/-- Three clients connect.  The first one subscribes to two channels, to one of them twice, and so does the third one,
which takes the slot of the second one when that leaves. -/
def publishEvents : List Event :=
  [.connect 5 0, .connect 6 1, .connect 7 2, arrival firstSlot [lit "SUBSCRIBE", lit "a", lit "b", lit "a"],
    arrival thirdSlot [lit "SUBSCRIBE", lit "a"], .disconnect secondSlot,
    arrival secondSlot [lit "SUBSCRIBE", lit "c", lit "a"], .connect 8 1]

def publishHi : RespRequest := requestOf [lit "PUBLISH", lit "a", lit "hi"]

theorem publish_delivers_once_three : ∃ (s : Listening Int) (listeners : List ClientPtr),
    s.server.world.clients secondSlot = some 2 ∧ 0 ∈ listeners ∧ 2 ∈ listeners ∧ 1 ∉ listeners ∧
      handlePublish publishHi 8 s.server.world =
        .ok ((), { s.server.world with
          sent := s.server.world.sent ++ s.server.world.pushes (publishText (lit "a") (lit "hi")) listeners ++
            [(8, integerReply listeners.length)] }) := by
  have plays : ((Run.follow Listening.next (fun s event => Attentive s event ∧ Confirmed s event)
      ⟨idleServer, fun _ => ∅⟩ publishEvents).any fun s =>
      s.server.world.clients firstSlot = some 0 ∧ s.server.world.clients secondSlot = some 2 ∧
        lit "a" ∈ s.subscribed 0 ∧ lit "a" ∈ s.subscribed 2 ∧ lit "a" ∉ s.subscribed 1) = true := by
    decide +kernel
  obtain ⟨s, follows, checked⟩ := (Option.any_eq_true _ _).mp plays
  obtain ⟨inFirst, inSecond, first, third, other⟩ := of_decide_eq_true checked
  have nobody := idleServer_atLoopEntry.noConnections
  have isChannel : publishHi.args[0]? = some (lit "a") := by decide +kernel
  have isMessage : publishHi.args[1]? = some (lit "hi") := by decide +kernel
  have fits : (publishText (lit "a") (lit "hi")).length < 1024 := by decide +kernel
  have run : Run ListeningStep (fun s event => Attentive s event ∧ Confirmed s event) ⟨idleServer, fun _ => ∅⟩ s :=
    Run.of_follow Listening.next_sound follows
  obtain ⟨listeners, _, listens, _, publishes⟩ := publish_delivers_once nobody.connected
    (fun ptr client found => absurd found (by simp [nobody.heap])) run isChannel isMessage fits
  refine ⟨s, listeners, inSecond, ?_, ?_, ?_, publishes 8⟩
  · exact (listens 0).mpr ⟨⟨firstSlot, inFirst⟩, first⟩
  · exact (listens 2).mpr ⟨⟨secondSlot, inSecond⟩, third⟩
  · exact fun isListener => other ((listens 1).mp isListener).2

/-- A channel of 250 bytes. -/
def longChannel (c : UInt8) : Bytes := List.replicate 250 c

/-- A client subscribes to five channels whose confirmations are longer than their array. -/
def subscribeFive : List Event :=
  [.connect 5 0, arrival firstSlot (lit "SUBSCRIBE" :: [97, 98, 99, 100, 101].map longChannel)]

def publishFifth : RespRequest := requestOf [lit "PUBLISH", longChannel 101, lit "hi"]

/-- The loop of `handle_subscribe` ends behind the fourth channel, and a message to the fifth one is sent to nobody. -/
theorem publish_misses_fifth : ¬ ∀ (w₀ : World Int) (s : Listening Int) (req : RespRequest) (channel message : Bytes),
    Connected w₀ → (∀ ptr client, w₀.heap ptr = some client →
      client.channelSubed.length = maxChannels ∧ client.channelCount = 0) →
    Run ListeningStep Attentive ⟨⟨w₀, none⟩, fun _ => ∅⟩ s → req.args[0]? = some channel → req.args[1]? = some message →
    (publishText channel message).length < 1024 →
      ∃ listeners : List ClientPtr, listeners.Nodup ∧
        (∀ ptr, ptr ∈ listeners ↔ s.server.world.IsConnected ptr ∧ channel ∈ s.subscribed ptr) ∧
        Set.InjOn s.server.world.descriptor {ptr | s.server.world.IsConnected ptr} ∧
        ∀ clientFd, handlePublish req clientFd s.server.world =
          .ok ((), { s.server.world with
            sent := s.server.world.sent ++ s.server.world.pushes (publishText channel message) listeners ++
              [(clientFd, integerReply listeners.length)] }) := by
  intro delivers
  have plays : ((Run.follow Listening.next Attentive ⟨idleServer, fun _ => ∅⟩ subscribeFive).any fun s =>
      decide (s.server.world.clients firstSlot = some 0 ∧ longChannel 101 ∈ s.subscribed 0) &&
        endsIn (handlePublish publishFifth 9) s.server.world fun t =>
          decide (t.sent = s.server.world.sent ++ [(9, integerReply 0)])) = true := by
    decide +kernel
  obtain ⟨s, follows, checked⟩ := (Option.any_eq_true _ _).mp plays
  obtain ⟨subscribed, ends⟩ := (Bool.and_eq_true _ _).mp checked
  obtain ⟨inFirst, member⟩ := of_decide_eq_true subscribed
  obtain ⟨t, publishes, sent⟩ := exists_ok_of_endsIn ends
  have run : Run ListeningStep Attentive ⟨idleServer, fun _ => ∅⟩ s := Run.of_follow Listening.next_sound follows
  have nobody := idleServer_atLoopEntry.noConnections
  obtain ⟨listeners, _, listens, _, delivered⟩ := delivers _ s publishFifth (longChannel 101) (lit "hi") nobody.connected
    (fun ptr client found => absurd found (by simp [nobody.heap])) run (by decide +kernel) (by decide +kernel)
    (by decide +kernel)
  -- the client is a listener, but the number that is sent is 0
  have isListener : 0 ∈ listeners := (listens 0).mpr ⟨⟨firstSlot, inFirst⟩, member⟩
  have same := (Prod.mk.inj (Except.ok.inj ((delivered 9).symm.trans publishes))).2
  have sentBoth := (congrArg World.sent same).trans (of_decide_eq_true sent)
  dsimp only at sentBoth
  rw [List.append_assoc, List.append_cancel_left_eq] at sentBoth
  have lengths := congrArg List.length sentBoth
  simp only [World.pushes, List.length_append, List.length_map, List.length_cons, List.length_nil] at lengths
  have positive := List.length_pos_of_mem isListener
  omega

end Runs

end RedisClone
