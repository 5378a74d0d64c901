import RedisClone.Verified.Deques
import RedisClone.Verified.Wakeups

/-! # Where the elements of a list go

A `Ledger` is a run together with the elements that were pushed to a key and the ones that clients were handed,
as they read them in the replies.  `elements_conserved`: what was in the list and what was pushed is what is
in the list and what was handed out, as long as no BLPOP on the key expires while its list has elements, and no
LPOP takes more than its reply has room for.
-/

namespace RedisClone

open Exec CString

variable {D : Type}

/-! ## Ledgers -/

/-- The command that a step runs. -/
def Server.command (s : Server D) (event : Event) : Option RespRequest :=
  (s.calls event).bind fun call =>
    if (s.world.heap call.1).any fun client => reachesArm client call.2 then some call.2 else none

/-- The request is a command on the list of the key. -/
def ListCommand (key : Bytes) (req : RespRequest) : Prop :=
  req.args[0]? = some key ∧ req.command ∈ [.rpush, .lpush, .lpop, .blpop]

instance (key : Bytes) (req : RespRequest) : Decidable (ListCommand key req) :=
  inferInstanceAs (Decidable (_ ∧ _))

/-- The elements that a step pushes to the key. -/
def pushedAt (key : Bytes) (s : Server D) (event : Event) : List Bytes :=
  match s.command event with
  | some req =>
    if req.args[0]? = some key ∧ (req.command = .rpush ∨ req.command = .lpush) then req.args.drop 1
    else []
  | none => []

/-- The elements of the key's list that clients read in the answers to a command on it. -/
def readIn (key : Bytes) (req : RespRequest) (replies : List (Int × Bytes)) : List Bytes :=
  if req.command = .lpop then replies.flatMap fun reply => replyElements reply.2
  else replies.filterMap fun reply => poppedElement key reply.2

/-- The elements of the key's list that clients are handed by a step. -/
def deliveredAt (key : Bytes) (s : Server D) (event : Event) (t : Server D) : List Bytes :=
  match s.command event with
  | some req => if ListCommand key req then readIn key req (answers s.world t.world) else []
  | none =>
    match event with
    | .timers => (answers s.world t.world).filterMap fun reply => poppedElement key reply.2
    | _ => []

/-- A run of allowed steps with the elements that it pushed to the key and the ones that it handed out. -/
inductive Ledger [Externals D] (key : Bytes) (allowed : Server D → Event → Prop) :
    Server D → Server D → List Bytes → List Bytes → Prop where
  | refl (s : Server D) : Ledger key allowed s s [] []
  | tail {s t u : Server D} {event : Event} {pushed delivered : List Bytes}
      (before : Ledger key allowed s t pushed delivered) (permitted : allowed t event)
      (last : Step t event u) :
      Ledger key allowed s u (pushed ++ pushedAt key t event)
        (delivered ++ deliveredAt key t event u)

/-- The command of the step came from `parse`; it is one on the key's list, or leaves the key alone. -/
def OnList [Externals D] (key : Bytes) (s : Server D) (event : Event) : Prop :=
  ∀ ptr req, Dispatches s event ptr req →
    FromParse req ∧ (ListCommand key req ∨ ¬ Affects (s.world.noted req) req key)

/-- No BLPOP on the key expires while its list has elements. -/
def ExpiresEmpty (key : Bytes) (s : Server D) : Event → Prop
  | .timers => ∀ slot, ∀ client ∈ s.world.occupant slot, client.dueBlpop (s.world.clock slot.val) →
    client.waitingForKey = some key → elements s.world.table key = []
  | _ => True

/-- An LPOP with a count takes no more elements from the key's list than its reply has room for. -/
def PopsFit (key : Bytes) (s : Server D) (event : Event) : Prop :=
  ∀ ptr req, Dispatches s event ptr req → ListCommand key req → req.command = .lpop → req.argc = 2 →
    (arrayText ((elements s.world.table key).take (popCount req (elements s.world.table key)))).length ≤ 2048

theorem command_eq_some {s : Server D} {event : Event} {req : RespRequest} :
    s.command event = some req ↔ ∃ ptr, Dispatches s event ptr req := by
  unfold Server.command Dispatches
  constructor
  · intro runs
    obtain ⟨⟨ptr, req'⟩, calls, reaches⟩ := Option.bind_eq_some_iff.mp runs
    split at reaches
    · rename_i reached
      obtain rfl := Option.some.inj reaches
      exact ⟨ptr, calls, (Option.any_eq_true _ _).mp reached⟩
    · simp at reaches
  · rintro ⟨ptr, calls, client, found, reaches⟩
    simp [calls, found, reaches]

theorem command_eq_none {s : Server D} {event : Event}
    (undispatched : ∀ ptr req, ¬ Dispatches s event ptr req) : s.command event = none := by
  refine Option.eq_none_iff_forall_ne_some.mpr fun req runs => ?_
  obtain ⟨ptr, dispatches⟩ := command_eq_some.mp runs
  exact undispatched ptr req dispatches

/-! ## Replies without an element -/

theorem poppedElement_of_head {key text : Bytes} (notArray : text.head? ≠ some 42) :
    poppedElement key text = none := by
  refine poppedElement_other fun front => notArray ?_
  cases text with
  | nil => simp [lit] at front
  | cons c rest =>
    have same := congrArg List.head? front
    simpa [lit] using same

theorem poppedElement_integerReply (key : Bytes) (n : Int) (count : Nat) :
    poppedElement key ((integerReply n).take count) = none := by
  refine poppedElement_of_head ?_
  cases count with
  | zero => simp
  | succ count => simp [integerReply, lit]

theorem poppedElement_nilArray (key : Bytes) : poppedElement key nilArray = none :=
  poppedElement_other (by decide)

/-- A key and an element that `parse` read fit into the reply. -/
theorem take_popReply {key value : Bytes} (shortKey : key.length < 256) (short : value.length < 256) :
    (popReply key value).take 1023 = popReply key value := by
  have lengths (s : Bytes) (few : s.length < 256) : (bulk s).length ≤ 280 := by
    have := length_decimal_le (n := s.length) (by omega)
    have : (lit "$").length = 1 := by decide
    have : crlf.length = 2 := by decide
    simp only [bulk, List.length_append] at this ⊢
    omega
  have := lengths key shortKey
  have := lengths value short
  have : (lit "*2\r\n").length = 4 := by decide
  refine List.take_of_length_le ?_
  rw [popReply_eq, List.length_append, List.length_append]
  omega

/-! ## The arms -/

/-- What an arm on the key's list takes from the list, or of what it pushes, is in its replies. -/
def Conserves (key : Bytes) (req : RespRequest) (pushed : List Bytes) (w t : World D) : Prop :=
  ∃ replies, t.sent = w.sent ++ replies ∧
    (elements w.table key ++ pushed).Perm (elements t.table key ++ readIn key req replies)

section Arms

variable {w t : World D} {req : RespRequest} {key : Bytes}

/-- A reply that carries no element, from an arm that changes nothing. -/
theorem conserves_of_same {replies : List (Int × Bytes)} (table : t.table = w.table)
    (sent : t.sent = w.sent ++ replies) (none : readIn key req replies = []) :
    Conserves key req [] w t :=
  ⟨replies, sent, by rw [none, table]⟩

/-- An error is no array. -/
theorem conserves_of_error {clientFd : Int} {text : Bytes} (notLpop : req.command ≠ .lpop)
    (notArray : text.head? ≠ some 42) (run : send clientFd text w = .ok ((), t)) :
    Conserves key req [] w t := by
  rw [send_run run]
  refine conserves_of_same rfl rfl ?_
  rw [readIn, if_neg notLpop, List.filterMap_cons, poppedElement_of_head notArray]
  rfl

theorem Opens.elements_eq {list : List Bytes} {expiresAt : Int} {opened : World D}
    (opens : Opens w key (.list []) (.list list) expiresAt opened) : elements w.table key = list := by
  obtain ⟨bound, _⟩ | ⟨unbound, isEmpty, _⟩ := opens.before
  · exact elements_of_list bound
  · rw [elements_of_unbound unbound, Value.list.inj isEmpty]

theorem Stores.elements_self {table table' : Table D} {values : List Bytes} {expiresAt : Int}
    {overwrites : Bool} (stores : Stores table key ⟨.list values, expiresAt⟩ overwrites table') :
    elements table' key = values := elements_of_list stores.binding_self

theorem drop_args_of_few (few : req.argc < 2) : req.args.drop 1 = [] := by
  have := req.supplied
  exact List.drop_eq_nil_of_le (by omega)

theorem conserves_rpush {clientFd : Int} (isRpush : req.command = .rpush)
    (isKey : req.args[0]? = some key) (received : FromParse req)
    (short : ∀ value ∈ elements w.table key, value.length < 256)
    (run : handleRpush req clientFd w = .ok ((), t)) : Conserves key req (req.args.drop 1) w t := by
  have reads (replies : List (Int × Bytes)) : readIn key req replies =
      replies.filterMap fun reply => poppedElement key reply.2 := by simp [readIn, isRpush]
  by_cases enough : 2 ≤ req.argc
  · obtain ⟨key', list, expiresAt, opened, isKey', opens, pushes⟩ := handleRpush_ok enough run
    obtain rfl : key = key' := Option.some.inj (isKey.symm.trans isKey')
    cases pushes with
    | unserved nobody keeps stores =>
      refine ⟨_, by rw [keeps], ?_⟩
      rw [reads, opens.elements_eq, stores.elements_self]
      simp [poppedElement_integerReply]
    | served ptr client first rest longest found elements' keeps stores =>
      have strings := received.strings.1
      -- the element handed over comes from the list or from the request, and the reply holds either
      have shortFirst : first.length < 256 := by
        have member : first ∈ list ++ req.args.drop 1 := by
          rw [elements']
          exact List.mem_cons_self
        obtain inList | inArgs := List.mem_append.mp member
        · exact short first (opens.elements_eq ▸ inList)
        · exact strings.short first (List.mem_of_mem_drop inArgs)
      have shortKey := strings.short key (List.mem_of_getElem? isKey)
      refine ⟨_, by rw [keeps, List.append_assoc], ?_⟩
      rw [reads, opens.elements_eq, stores.elements_self, elements', take_popReply shortKey shortFirst]
      simp only [List.filterMap_append, List.filterMap_cons, List.filterMap_nil,
        poppedElement_integerReply, poppedElement_popReply, List.nil_append]
      exact (List.perm_append_singleton first rest).symm
  · rw [drop_args_of_few (by omega)]
    unfold handleRpush at run
    rw [if_pos (by omega)] at run
    exact conserves_of_error (by simp [isRpush]) (by decide) run

theorem conserves_lpush {clientFd : Int} (isLpush : req.command = .lpush)
    (isKey : req.args[0]? = some key) (run : handleLpush req clientFd w = .ok ((), t)) :
    Conserves key req (req.args.drop 1) w t := by
  have reads (replies : List (Int × Bytes)) : readIn key req replies =
      replies.filterMap fun reply => poppedElement key reply.2 := by simp [readIn, isLpush]
  by_cases enough : 2 ≤ req.argc
  · obtain ⟨key', list, expiresAt, opened, isKey', opens, pushes⟩ := handleLpush_ok enough run
    obtain rfl : key = key' := Option.some.inj (isKey.symm.trans isKey')
    refine ⟨_, by rw [pushes.keeps], ?_⟩
    rw [reads, opens.elements_eq, pushes.stores.elements_self]
    simp only [List.filterMap_cons, List.filterMap_nil, poppedElement_integerReply, List.append_nil]
    exact List.perm_append_comm.trans ((List.reverse_perm _).symm.append_right list)
  · rw [drop_args_of_few (by omega)]
    unfold handleLpush at run
    rw [if_pos (by omega)] at run
    exact conserves_of_error (by simp [isLpush]) (by decide) run

/-- The errors of LPOP carry no element. -/
theorem replyElements_error {text : Bytes}
    (isError : text = nilReply ∨ text = emptyArray ∨ text = outOfRange) : replyElements text = [] := by
  obtain rfl | rfl | rfl := isError <;> decide +kernel

theorem conserves_lpop {clientFd : Int} (isLpop : req.command = .lpop)
    (isKey : req.args[0]? = some key) (short : ∀ value ∈ elements w.table key, value.length < 256)
    (run : handleLpop req clientFd w = .ok ((), t)) : Conserves key req [] w t := by
  have reads (text : Bytes) : readIn key req [(clientFd, text)] = replyElements text := by
    simp [readIn, isLpop]
  cases handleLpop_ok run with
  | nothing noKey same =>
    have := lt_argc isKey
    omega
  | refused key' text isKey' isError empty same =>
    refine conserves_of_same (by rw [same]; rfl) (by rw [same]; rfl) ?_
    rw [reads]
    exact replyElements_error isError
  | popped key' text values expiresAt isKey' bound taken one array keeps stores =>
    obtain rfl : key = key' := Option.some.inj (isKey.symm.trans isKey')
    have isText : replyElements text = values.take (popCount req values) := by
      by_cases isCount : req.argc = 2
      · refine sendPopped_elements (fun none => ?_) (array isCount)
        obtain zero | empty := List.take_eq_nil_iff.mp none
        · omega
        · simp [popCount, empty] at taken
      · obtain ⟨first, isFirst, rfl⟩ := one isCount
        obtain ⟨rest, rfl⟩ : ∃ rest, values = first :: rest := by
          cases values with
          | nil => simp at isFirst
          | cons first' rest => exact ⟨rest, by simpa using isFirst⟩
        have shortFirst := short first (by rw [elements_of_list bound]; exact List.mem_cons_self)
        have fits : (bulk first).take 2047 = bulk first := by
          have := length_decimal_le (n := first.length) (by omega)
          have : (lit "$").length = 1 := by decide
          have : crlf.length = 2 := by decide
          refine List.take_of_length_le ?_
          simp only [bulk, List.length_append] at this ⊢
          omega
        have counts : popCount req (first :: rest) = 1 := by simp [popCount, isCount]
        rw [fits, replyElements_bulk, counts]
        rfl
    refine ⟨_, by rw [keeps], ?_⟩
    rw [reads, isText, stores.elements_self, elements_of_list bound, List.append_nil]
    conv_lhs => rw [← List.take_append_drop (popCount req values) values]
    exact List.perm_append_comm

theorem conserves_blpop [Externals D] {ptr : ClientPtr} (isBlpop : req.command = .blpop)
    (isKey : req.args[0]? = some key) (received : FromParse req)
    (short : ∀ value ∈ elements w.table key, value.length < 256)
    (run : handleBlpop req ptr w = .ok ((), t)) : Conserves key req [] w t := by
  have reads (replies : List (Int × Bytes)) : readIn key req replies =
      replies.filterMap fun reply => poppedElement key reply.2 := by simp [readIn, isBlpop]
  have silent (table : t.table = w.table) (sent : t.sent = w.sent) : Conserves key req [] w t :=
    conserves_of_same table (show t.sent = w.sent ++ [] by rw [sent, List.append_nil]) (by simp [reads])
  cases handleBlpop_ok run with
  | nothing few same => exact silent (by rw [same]) (by rw [same])
  | blocked key' client timeoutAt blockedAt enough isKey' empty found keeps =>
    exact silent (by rw [keeps]) (by rw [keeps])
  | popped key' first rest expiresAt client enough isKey' bound found keeps stores =>
    obtain rfl : key = key' := Option.some.inj (isKey.symm.trans isKey')
    have shortKey := received.strings.1.short key (List.mem_of_getElem? isKey)
    have shortFirst := short first (by rw [elements_of_list bound]; exact List.mem_cons_self)
    refine ⟨_, by rw [keeps], ?_⟩
    rw [reads, stores.elements_self, elements_of_list bound, take_popReply shortKey shortFirst]
    simp only [List.filterMap_cons, List.filterMap_nil, poppedElement_popReply, List.append_nil]
    exact (List.perm_append_singleton first rest).symm

end Arms

/-! ## The timers -/

section Timers

variable {w : World D} {key : Bytes}

/-- A client whose BLPOP on the key expires is handed nothing while the list is empty. -/
theorem expiryAt_elements {now later : Int} {slot : ClientSlot}
    (empty : ∀ client ∈ w.occupant slot, client.dueBlpop later → client.waitingForKey = some key →
      elements w.table key = []) :
    ((w.expiryAt now later slot).filterMap fun reply => poppedElement key reply.2) = [] := by
  unfold World.expiryAt
  cases occupant : w.occupant slot with
  | none => rfl
  | some client =>
    dsimp only
    split
    · simp [poppedElement_nilArray]
    · split
      · rename_i due
        cases waits : client.waitingForKey with
        | none => rfl
        | some key' =>
          have silent : poppedElement key (expiryReply w.table key') = none := by
            unfold expiryReply
            split
            · rename_i first rest expiresAt bound
              refine poppedElement_of_ne (fun isKey => ?_) _
              subst isKey
              have none := empty client (by simp [occupant]) due waits
              simp [elements_of_list bound] at none
            · exact poppedElement_nilArray key
          simp [silent]
      · rfl

theorem expiries_elements {now : Int} {clock : Nat → Int} {slots : List ClientSlot}
    (empty : ∀ i slot, slots[i]? = some slot → ∀ client ∈ w.occupant slot, client.dueBlpop (clock i) →
      client.waitingForKey = some key → elements w.table key = []) :
    ((w.expiries now clock slots).filterMap fun reply => poppedElement key reply.2) = [] := by
  induction slots generalizing clock with
  | nil => rfl
  | cons slot slots inductionHypothesis =>
    rw [World.expiries, List.filterMap_append, expiryAt_elements (empty 0 slot rfl),
      inductionHypothesis fun i slot' isSlot => empty (i + 1) slot' isSlot]
    rfl

end Timers

/-! ## Runs -/

section Runs

variable [Externals D] {s t u : Server D} {event : Event} {key : Bytes}

/-- The timers send what expires and at most the answer to a WAIT. -/
theorem timers_elements (wellFormed : WellFormed s) (expires : ExpiresEmpty key s .timers)
    (step : Step s .timers t) :
    ((answers s.world t.world).filterMap fun reply => poppedElement key reply.2) = [] := by
  have expiries : ((s.world.tick.expiries (s.world.clock 0) s.world.tick.clock
      s.world.active).filterMap fun reply => poppedElement key reply.2) = [] := by
    refine expiries_elements fun i slot isSlot client occupant due waits => ?_
    have reading : s.world.tick.clock i = s.world.clock slot.val := by
      rw [active_getElem isSlot]
      rfl
    rw [reading] at due
    exact expires slot client occupant due waits
  rw [answers_timers wellFormed step, List.filterMap_append, expiries, List.nil_append]
  simp only [World.completions]
  split
  · rw [List.filterMap_cons, poppedElement_of_head (by simp [integerReply, lit])]
    rfl
  · rfl

/-- What a step takes from the list of the key, or of what it pushes, clients are handed. -/
theorem conserves_step (wellFormed : WellFormed s) (onList : OnList key s event)
    (expires : ExpiresEmpty key s event)
    (short : ∀ value ∈ elements s.world.table key, value.length < 256) (step : Step s event t) :
    (elements s.world.table key ++ pushedAt key s event).Perm
      (elements t.world.table key ++ deliveredAt key s event t) := by
  by_cases dispatched : ∃ ptr req, Dispatches s event ptr req
  · obtain ⟨ptr, req, dispatches⟩ := dispatched
    have command : s.command event = some req := command_eq_some.mpr ⟨ptr, dispatches⟩
    obtain ⟨client, handled, found, run, table, still⟩ := arm_of_step wellFormed.outside step dispatches
    obtain ⟨copies, sent, passed⟩ := sent_of_step wellFormed.outside step dispatches found run
    obtain ⟨received, onKey⟩ := onList ptr req dispatches
    by_cases listCommand : ListCommand key req
    -- the books of one call, carried over to the step that makes it
    · have ledger {pushed : List Bytes} (isPushed : pushedAt key s event = pushed)
          (conserves : Conserves key req pushed (s.world.noted req) handled) :
          (elements s.world.table key ++ pushedAt key s event).Perm
            (elements t.world.table key ++ deliveredAt key s event t) := by
        obtain ⟨replies, replied, balanced⟩ := conserves
        have isAnswers : answers s.world t.world = replies :=
          answers_eq (by rw [sent, replied]; rfl) passed
        have isDelivered : deliveredAt key s event t = readIn key req replies := by
          simp only [deliveredAt, command, if_pos listCommand, isAnswers]
        rw [isDelivered, isPushed, table]
        exact balanced
      obtain ⟨isKey, isMember⟩ := listCommand
      have pushed : pushedAt key s event = if req.args[0]? = some key ∧
          (req.command = .rpush ∨ req.command = .lpush) then req.args.drop 1 else [] := by
        simp only [pushedAt, command]
      simp only [List.mem_cons, List.not_mem_nil, or_false] at isMember
      unfold arm at run
      -- one lemma for each of the four commands
      obtain isCommand | isCommand | isCommand | isCommand := isMember <;> rw [isCommand] at run
      · exact ledger (pushed.trans (if_pos ⟨isKey, .inl isCommand⟩))
          (conserves_rpush isCommand isKey received short run)
      · exact ledger (pushed.trans (if_pos ⟨isKey, .inr isCommand⟩))
          (conserves_lpush isCommand isKey run)
      · exact ledger (pushed.trans (if_neg (by simp [isCommand])))
          (conserves_lpop isCommand isKey short run)
      · exact ledger (pushed.trans (if_neg (by simp [isCommand])))
          (conserves_blpop isCommand isKey received short run)
    -- any other command on the key leaves its binding
    · have same : binding t.world.table key = binding s.world.table key := by
        by_contra changed
        obtain ⟨ptr', req', dispatches', affects⟩ :=
          (step_affects_iff wellFormed.outside step key).mp changed
        obtain ⟨rfl, rfl⟩ := dispatches_unique dispatches dispatches'
        exact onKey.resolve_left listCommand affects
      have unpushed : ¬ (req.args[0]? = some key ∧ (req.command = .rpush ∨ req.command = .lpush)) := by
        rintro ⟨isKey, isPush⟩
        refine listCommand ⟨isKey, ?_⟩
        obtain isRpush | isLpush := isPush
        · simp [isRpush]
        · simp [isLpush]
      simp only [pushedAt, deliveredAt, command, if_neg listCommand, if_neg unpushed, elements, same,
        List.append_nil]
      exact .refl _
  · have undispatched (ptr : ClientPtr) (req : RespRequest) : ¬ Dispatches s event ptr req :=
      fun dispatches => dispatched ⟨ptr, req, dispatches⟩
    -- no command runs, and of what does run only the timers send elements
    have none := command_eq_none undispatched
    have table := (data_of_step wellFormed.outside step undispatched).1
    have undelivered : deliveredAt key s event t = [] := by
      cases event with
      | timers =>
        simp only [deliveredAt, none]
        exact timers_elements wellFormed expires step
      | _ => simp only [deliveredAt, none]
    simp only [pushedAt, none, undelivered, table, List.append_nil]
    exact .refl _

/-- A run of commands on the list of a key, in which no BLPOP expires while the list has elements, and no LPOP
overruns its reply. -/
def KeepsElements (key : Bytes) (s : Server D) (event : Event) : Prop :=
  OnList key s event ∧ ExpiresEmpty key s event ∧ PopsFit key s event

/-- The buffers of `parse` hold 255 bytes. -/
theorem short_pushedAt (onList : OnList key s event) :
    ∀ value ∈ pushedAt key s event, value.length < 256 := by
  intro value member
  unfold pushedAt at member
  cases command : s.command event with
  | none => simp [command] at member
  | some req =>
    obtain ⟨ptr, dispatches⟩ := command_eq_some.mp command
    simp only [command] at member
    split at member
    · exact (onList ptr req dispatches).1.strings.1.short value (List.mem_of_mem_drop member)
    · simp at member

/-- From any reachable state on, what the key's list held and what was pushed to it is what it holds and what
clients were handed, whatever RPUSH, LPUSH, LPOP and BLPOP any clients send, as long as no BLPOP on the key
expires while the list has elements, and the reply to every LPOP with a count fits its array. -/
theorem elements_conserved {pushed delivered : List Bytes} (entry : AtLoopEntry s) (run : Runs s t)
    (short : ∀ value ∈ elements t.world.table key, value.length < 256)
    (ledger : Ledger key (KeepsElements key) t u pushed delivered) :
    (elements t.world.table key ++ pushed).Perm (elements u.world.table key ++ delivered) := by
  have atStart : WellFormed t := wellFormed_run run entry.wellFormed
  -- the elements stay short, since they are elements of before or were pushed
  have balanced : WellFormed u ∧ (∀ value ∈ elements t.world.table key ++ pushed, value.length < 256) ∧
      (elements t.world.table key ++ pushed).Perm (elements u.world.table key ++ delivered) := by
    clear run
    induction ledger with
    | refl => exact ⟨atStart, by simpa using short, .refl _⟩
    | @tail u v event pushed delivered before permitted last inductionHypothesis =>
      obtain ⟨wellFormed, shorts, balanced⟩ := inductionHypothesis
      have shortNow : ∀ value ∈ elements u.world.table key, value.length < 256 := fun value member =>
        shorts value (balanced.mem_iff.mpr (List.mem_append_left delivered member))
      have step := conserves_step wellFormed permitted.1 permitted.2.1 shortNow last
      refine ⟨wellFormed_step wellFormed last, ?_, ?_⟩
      · intro value member
        rw [← List.append_assoc] at member
        obtain old | new := List.mem_append.mp member
        · exact shorts value old
        · exact short_pushedAt permitted.1 value new
      · calc elements t.world.table key ++ (pushed ++ pushedAt key u event)
          _ = (elements t.world.table key ++ pushed) ++ pushedAt key u event :=
            (List.append_assoc ..).symm
          List.Perm _ ((elements u.world.table key ++ delivered) ++ pushedAt key u event) :=
            balanced.append_right _
          List.Perm _ ((elements u.world.table key ++ pushedAt key u event) ++ delivered) := by
            rw [List.append_assoc, List.append_assoc]
            exact List.perm_append_comm.append_left _
          List.Perm _ ((elements v.world.table key ++ deliveredAt key u event v) ++ delivered) :=
            step.append_right _
          List.Perm _ (elements v.world.table key ++ (delivered ++ deliveredAt key u event v)) := by
            rw [List.append_assoc]
            exact List.perm_append_comm.append_left _
  exact balanced.2.2

/-- Whatever the state is, the request of a message with these strings is a command on the key's list. -/
theorem onList_arrival {slot : ClientSlot} {strings : List Bytes}
    (parsed : parse (encode strings ++ [0]) 0 = .ok (some (requestOf strings, (encode strings).length)))
    (isList : ListCommand key (requestOf strings)) : OnList key s (arrival slot strings) := by
  intro ptr req dispatches
  obtain ⟨_, rfl⟩ := dispatches_arrival dispatches
  exact ⟨⟨_, 0, _, _, parsed, .inl rfl⟩, .inl isList⟩

omit [Externals D] in
/-- A request that is no LPOP with a count. -/
theorem popsFit_arrival {slot : ClientSlot} {strings : List Bytes}
    (uncounted : (requestOf strings).command ≠ .lpop ∨ (requestOf strings).argc ≠ 2) :
    PopsFit key s (arrival slot strings) := by
  intro ptr req dispatches _ isLpop counted
  obtain ⟨_, rfl⟩ := dispatches_arrival dispatches
  obtain other | uncounted := uncounted
  · exact absurd isLpop other
  · exact absurd counted uncounted

omit [Externals D] in
theorem popsFit_of_no_call (none : s.calls event = none) : PopsFit key s event := by
  intro ptr req dispatches
  have := dispatches.1
  simp [none] at this

theorem onList_of_no_call (none : s.calls event = none) : OnList key s event := by
  intro ptr req dispatches
  have := dispatches.1
  simp [none] at this

/-- The books of a ledger after these events. -/
def bookkeep (key : Bytes) : Server D × List Bytes × List Bytes → List Event →
    Option (Server D × List Bytes × List Bytes)
  | books, [] => some books
  | (t, pushed, delivered), event :: events =>
    (next t event).bind fun u => bookkeep key
      (u, pushed ++ pushedAt key t event, delivered ++ deliveredAt key t event u) events

theorem bookkeep_ledger {allowed : Server D → Event → Prop} {events : List Event}
    {pushed delivered : List Bytes} {books : Server D × List Bytes × List Bytes}
    (permitted : ∀ event ∈ events, ∀ t, allowed t event) (before : Ledger key allowed s t pushed delivered)
    (keeps : bookkeep key (t, pushed, delivered) events = some books) :
    Ledger key allowed s books.1 books.2.1 books.2.2 := by
  induction events generalizing t pushed delivered with
  | nil =>
    obtain rfl : (t, pushed, delivered) = books := Option.some.inj keeps
    exact before
  | cons event events inductionHypothesis =>
    obtain ⟨u, isNext, keeps⟩ := Option.bind_eq_some_iff.mp keeps
    exact inductionHypothesis (fun event' member => permitted event' (List.mem_cons_of_mem _ member))
      (.tail before (permitted event List.mem_cons_self t) (next_step isNext)) keeps

/-- Of two elements that were pushed one is popped. -/
theorem elements_conserved_lpop : ∃ (u : Server Int) (pushed delivered : List Bytes),
    delivered = [lit "a"] ∧ pushed = [lit "a", lit "b"] ∧
      pushed.Perm (elements u.world.table (lit "k") ++ delivered) := by
  let events : List Event := [.connect 5 0, .connect 6 1,
    arrival firstSlot [lit "RPUSH", lit "k", lit "a", lit "b"], arrival secondSlot [lit "LPOP", lit "k"]]
  obtain ⟨books, keeps, checked⟩ := (Option.any_eq_true _ _).mp
    (show (bookkeep (lit "k") (idleServer, [], []) events).any
      (fun books => decide (books.2.1 = [lit "a", lit "b"]) && decide (books.2.2 = [lit "a"])) = true by
      decide +kernel)
  simp only [Bool.and_eq_true, decide_eq_true_eq] at checked
  have permitted : ∀ event ∈ events, ∀ t : Server Int, KeepsElements (lit "k") t event := by
    intro event member t
    simp only [events, List.mem_cons, List.not_mem_nil, or_false] at member
    obtain rfl | rfl | rfl | rfl := member
    · exact ⟨onList_of_no_call rfl, trivial, popsFit_of_no_call rfl⟩
    · exact ⟨onList_of_no_call rfl, trivial, popsFit_of_no_call rfl⟩
    · exact ⟨onList_arrival (by decide +kernel) (by decide +kernel), trivial, popsFit_arrival (.inl (by decide +kernel))⟩
    · exact ⟨onList_arrival (by decide +kernel) (by decide +kernel), trivial, popsFit_arrival (.inr (by decide +kernel))⟩
  have ledger := bookkeep_ledger permitted (.refl idleServer) keeps
  have none : elements idleServer.world.table (lit "k") = [] := by decide +kernel
  have balanced := elements_conserved idleServer_atLoopEntry (.refl idleServer) (by simp [none]) ledger
  rw [none, List.nil_append] at balanced
  exact ⟨books.1, books.2.1, books.2.2, checked.2, checked.1, balanced⟩

/-- A server whose clock goes on by a second with every reading. -/
def slowServer : Server Int :=
  ⟨bootWorld {} ⟨none, none⟩ (fun n => 1000 * (n : Int)) fun _ => [], none⟩

/-- A BLPOP that expires is handed the first element, which stays in the list. -/
theorem expired_blpop_copies :
    ¬ ∀ (u : Server Int) (pushed delivered : List Bytes),
      Ledger (lit "k") (OnList (lit "k")) slowServer u pushed delivered →
        pushed.Perm (elements u.world.table (lit "k") ++ delivered) := by
  intro conserved
  let events : List Event := [.connect 5 0, .connect 6 1,
    arrival firstSlot [lit "BLPOP", lit "k", lit "1"], arrival secondSlot [lit "LPUSH", lit "k", lit "a"],
    .timers]
  obtain ⟨books, keeps, checked⟩ := (Option.any_eq_true _ _).mp
    (show (bookkeep (lit "k") (slowServer, [], []) events).any
      (fun books => decide (books.2.1 = [lit "a"]) && (decide (books.2.2 = [lit "a"]) &&
        decide (elements books.1.world.table (lit "k") = [lit "a"]))) = true by
      decide +kernel)
  simp only [Bool.and_eq_true, decide_eq_true_eq] at checked
  obtain ⟨pushed, delivered, left⟩ := checked
  have permitted : ∀ event ∈ events, ∀ t : Server Int, OnList (lit "k") t event := by
    intro event member t
    simp only [events, List.mem_cons, List.not_mem_nil, or_false] at member
    obtain rfl | rfl | rfl | rfl | rfl := member
    · exact onList_of_no_call rfl
    · exact onList_of_no_call rfl
    · exact onList_arrival (by decide +kernel) (by decide +kernel)
    · exact onList_arrival (by decide +kernel) (by decide +kernel)
    · exact onList_of_no_call rfl
  have ledger := bookkeep_ledger permitted (.refl slowServer) keeps
  have same := (conserved books.1 books.2.1 books.2.2 ledger).length_eq
  rw [pushed, delivered, left] at same
  simp at same

end Runs

end RedisClone
