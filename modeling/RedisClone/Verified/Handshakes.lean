import RedisClone.Startup
import RedisClone.Verified.Received
import RedisClone.Verified.ReplicaOffsets

/-! # How a replica joins its master

`do_slave_handshake` reads with `recv`, so that what it sees depends on where the bytes of its master are cut.  It
connects the replica if and only if its first answer is PONG and its third one OK, each in one piece
(`handshake_joins_iff`).  The answer to PSYNC may be cut anywhere, and the commands behind it where a command ends: the
replica handles them in their order, each once, and counts their bytes (`handshake_any_cut`).
-/

namespace RedisClone

open Exec CString

variable {D : Type}

/-! ## Computations of a replica before its loop -/

section Locally

variable {α : Type} {s t : Joining D} {w : World D}

theorem locally_ok {x : M D α} {a : α} (run : x s.world = .ok (a, w)) :
    locally x s = .ok (a, { s with world := w }) := by
  simp only [locally, run]

theorem locally_run {x : M D α} {a : α} (run : locally x s = .ok (a, t)) :
    x s.world = .ok (a, t.world) ∧ t.segments = s.segments := by
  unfold locally at run
  cases first : x s.world with
  | error f => simp [first] at run
  | ok ended =>
    obtain ⟨b, w⟩ := ended
    simp only [first, Except.ok.injEq, Prod.mk.injEq] at run
    obtain ⟨rfl, rfl⟩ := run
    exact ⟨rfl, rfl⟩

theorem recvMaster_run (size : Nat) (s : Joining D) : recvMaster size s =
    .ok ((Segments.recv size s.segments).1, { s with segments := (Segments.recv size s.segments).2 }) := rfl

end Locally

/-! ## The line of the snapshot -/

/-- The line before a snapshot of this length. -/
def rdbHeader (n : Nat) : Bytes := 36 :: (decimal n ++ crlf)

section Drain

variable {line rest stale bytes : Bytes} {n : Nat} {s : Joining D}

/-- The line that answers PSYNC: of text without the sign of a length. -/
structure IsLine (line : Bytes) : Prop where
  nulFree : ∀ c ∈ line, c ≠ 0
  noLength : 36 ∉ line
  starless : 42 ∉ line

instance (line : Bytes) : Decidable (IsLine line) :=
  decidable_of_iff (0 ∉ line ∧ 36 ∉ line ∧ 42 ∉ line)
    ⟨fun ⟨nulFree, noLength, starless⟩ => ⟨fun _ member isNul => nulFree (isNul ▸ member), noLength, starless⟩,
      fun isLine => ⟨fun member => isLine.nulFree 0 member rfl, isLine.noLength, isLine.starless⟩⟩

theorem untilNul_append {text : Bytes} (nulFree : ∀ c ∈ text, c ≠ 0) (rest : Bytes) :
    untilNul (text ++ rest) = text ++ untilNul rest := by
  unfold untilNul
  exact List.takeWhile_append_of_pos fun c member => by simpa using nulFree c member

theorem digit_nulFree {c : UInt8} (member : c ∈ decimal n) : c ≠ 0 ∧ c ≠ 13 ∧ c ≠ 36 ∧ c ≠ 42 := by
  have digit := isdigit_of_mem_decimal member
  simp only [isdigit, Bool.and_eq_true, decide_eq_true_eq, UInt8.le_iff_toNat_le] at digit
  have low : 48 ≤ c.toNat := digit.1
  refine ⟨?_, ?_, ?_, ?_⟩ <;> rintro rfl <;> exact absurd low (by decide)

theorem crlf_nulFree {c : UInt8} (member : c ∈ crlf) : c ≠ 0 := by
  obtain rfl | rfl : c = 13 ∨ c = 10 := by simpa [crlf] using member
  · decide
  · decide

theorem rdbHeader_nulFree (n : Nat) : ∀ c ∈ rdbHeader n, c ≠ 0 := by
  intro c member
  simp only [rdbHeader, List.mem_cons, List.mem_append] at member
  obtain rfl | digit | inCrlf := member
  · decide
  · exact (digit_nulFree digit).1
  · exact crlf_nulFree inCrlf

theorem rdbHeader_starless (n : Nat) : 42 ∉ rdbHeader n := by
  intro member
  simp only [rdbHeader, List.mem_cons, List.mem_append] at member
  obtain isSign | digit | inCrlf := member
  · exact absurd isSign (by decide)
  · exact (digit_nulFree digit).2.2.2 rfl
  · exact absurd inCrlf (by decide)

theorem strstrIndex_cons {c : UInt8} {text needle : Bytes} (differs : needle.isPrefixOf (c :: text) = false) :
    strstrIndex (c :: text) needle = (strstrIndex text needle).map (· + 1) := by
  simp [strstrIndex, List.findIdx?_cons, differs]

/-- The end of a line is where its text ends. -/
theorem strstrIndex_crlf {text : Bytes} (noReturn : 13 ∉ text) (rest : Bytes) :
    strstrIndex (text ++ crlf ++ rest) crlf = some text.length := by
  induction text with
  | nil => rfl
  | cons c text inductionHypothesis =>
    have differs : crlf.isPrefixOf (c :: (text ++ crlf ++ rest)) = false := by
      have isOther : c ≠ 13 := fun same => noReturn (same ▸ List.mem_cons_self)
      simp [crlf, List.isPrefixOf, Ne.symm isOther]
    rw [List.cons_append, List.cons_append, strstrIndex_cons differs,
      inductionHypothesis fun member => noReturn (List.mem_cons_of_mem _ member)]
    rfl

/-- A text that is cut before the end of its line has none. -/
theorem strstrIndex_none {text : Bytes} (noFeed : 10 ∉ text) : strstrIndex text crlf = none := by
  induction text with
  | nil => rfl
  | cons c text inductionHypothesis =>
    have noFeed' : 10 ∉ text := fun member => noFeed (List.mem_cons_of_mem _ member)
    have differs : crlf.isPrefixOf (c :: text) = false := by
      cases text with
      | nil => simp [crlf, List.isPrefixOf]
      | cons d text =>
        have isOther : d ≠ 10 := fun same => noFeed' (same ▸ List.mem_cons_self)
        simp [crlf, List.isPrefixOf, Ne.symm isOther]
    rw [strstrIndex_cons differs, inductionHypothesis noFeed']
    rfl

theorem idxOf?_append {text : Bytes} (absent : 36 ∉ text) (rest : Bytes) :
    (text ++ 36 :: rest).idxOf? 36 = some text.length := by
  induction text with
  | nil => simp [List.idxOf?_cons]
  | cons c text inductionHypothesis =>
    have isOther : c ≠ 36 := fun same => absent (same ▸ List.mem_cons_self)
    rw [List.cons_append, List.idxOf?_cons, if_neg (by simpa using isOther),
      inductionHypothesis fun member => absent (List.mem_cons_of_mem _ member)]
    rfl

/-- The first buffer has the line of the snapshot: what is missing of the snapshot is discarded. -/
theorem drainRdb_header (isLine : IsLine line) (small : n < 2 ^ 31) (isBytes : bytes = line ++ rdbHeader n ++ rest)
    (stale : Bytes) : drainRdb (bytes ++ 0 :: stale) bytes.length s =
      .ok (((line ++ rdbHeader n).length + n : Nat),
        { s with segments := Segments.discard 1024 (n - rest.length) (n - rest.length) s.segments }) := by
  have memory : bytes ++ 0 :: stale = line ++ 36 :: (decimal n ++ (crlf ++ (rest ++ 0 :: stale))) := by
    simp [isBytes, rdbHeader]
  have atSign : (bytes ++ 0 :: stale).drop line.length = 36 :: (decimal n ++ (crlf ++ (rest ++ 0 :: stale))) := by
    rw [memory, List.drop_left]
  have digits : ∀ c ∈ decimal n, c ≠ 0 := fun c member => (digit_nulFree member).1
  have feeds : ∀ c ∈ crlf, c ≠ 0 := fun _ => crlf_nulFree
  have sign : (untilNul (bytes ++ 0 :: stale)).idxOf? 36 = some line.length := by
    rw [memory, untilNul_append isLine.nulFree]
    exact idxOf?_append isLine.noLength _
  have length : atoi (untilNul ((bytes ++ 0 :: stale).drop (line.length + 1))) = n := by
    rw [← List.drop_drop, atSign, List.drop_succ_cons, List.drop_zero, untilNul_append digits, untilNul_append feeds]
    refine atoi_decimal small fun c isNext => ?_
    obtain rfl : 13 = c := by simpa [crlf] using isNext
    decide
  have lineEnd : strstrIndex (untilNul ((bytes ++ 0 :: stale).drop line.length)) crlf = some (36 :: decimal n).length := by
    have signed : ∀ c ∈ 36 :: decimal n, c ≠ 0 := by
      intro c member
      obtain rfl | digit := List.mem_cons.mp member
      · decide
      · exact digits c digit
    have noReturn : 13 ∉ 36 :: decimal n := by
      intro member
      obtain isSign | digit := List.mem_cons.mp member
      · exact absurd isSign (by decide)
      · exact (digit_nulFree digit).2.1 rfl
    rw [atSign, ← List.cons_append, untilNul_append signed, untilNul_append feeds, ← List.append_assoc]
    exact strstrIndex_crlf noReturn _
  have header : (line ++ rdbHeader n).length = line.length + (36 :: decimal n).length + 2 := by
    simp [rdbHeader, crlf]
    omega
  have missing : ((n : Int) - ((bytes.length : Int) - ((line ++ rdbHeader n).length : Nat))).toNat = n - rest.length := by
    have length : bytes.length = (line ++ rdbHeader n).length + rest.length := by rw [isBytes, ← List.length_append]
    omega
  unfold drainRdb
  simp only [sign, length, lineEnd]
  rw [← header, bind_of_ok (alter_run _ s), missing]
  rfl

/-- The first buffer ends before the line of the snapshot does. -/
theorem drainRdb_cut (isLine : IsLine line) (isCut : bytes <+: line ++ rdbHeader n) (whole : bytes ≠ line ++ rdbHeader n)
    (stale : Bytes) : drainRdb (bytes ++ 0 :: stale) bytes.length s = .ok (bytes.length, s) := by
  have nulFree : ∀ c ∈ bytes, c ≠ 0 := by
    intro c member
    obtain inLine | inHeader := List.mem_append.mp (isCut.subset member)
    · exact isLine.nulFree c inLine
    · exact rdbHeader_nulFree n c inHeader
  have isText (stale : Bytes) : untilNul (bytes ++ 0 :: stale) = bytes := by
    rw [untilNul_append nulFree]
    exact List.append_nil _
  unfold drainRdb
  rw [isText]
  obtain inLine | ⟨text, isBytes, inHeader⟩ : bytes <+: line ∨ ∃ text, bytes = line ++ 36 :: text ∧ text <+: decimal n ++ crlf := by
    obtain inLine | ⟨behind, rfl⟩ := List.prefix_or_prefix_of_prefix isCut (List.prefix_append line _)
    · exact .inl inLine
    · obtain rfl | ⟨text, rfl, inHeader⟩ := List.prefix_cons_iff.mp ((List.prefix_append_right_inj line).mp isCut)
      · exact .inl (by rw [List.append_nil])
      · exact .inr ⟨text, rfl, inHeader⟩
  · have absent : bytes.idxOf? 36 = none := List.idxOf?_eq_none_iff.mpr fun member => isLine.noLength (inLine.subset member)
    simp only [absent]
    rfl
  · have sign : bytes.idxOf? 36 = some line.length := by
      rw [isBytes]
      exact idxOf?_append isLine.noLength _
    -- the feed is the last character of the line
    have noFeed : 10 ∉ 36 :: text := by
      rw [show decimal n ++ crlf = (decimal n ++ [13]) ++ [10] by simp [crlf]] at inHeader
      obtain all | inside := List.prefix_concat_iff.mp inHeader
      · exact absurd (by rw [isBytes, all, rdbHeader]; simp [crlf]) whole
      · intro member
        obtain isSign | inText := List.mem_cons.mp member
        · exact absurd isSign (by decide)
        · obtain digit | isReturn := List.mem_append.mp (inside.subset inText)
          · exact absurd (isdigit_of_mem_decimal digit) (by decide)
          · exact absurd isReturn (by decide)
    have lineEnd : strstrIndex (untilNul ((bytes ++ 0 :: stale).drop line.length)) crlf = none := by
      have behind : (bytes ++ 0 :: stale).drop line.length = (36 :: text) ++ 0 :: stale := by
        rw [isBytes, List.append_assoc, List.drop_left]
      have textNulFree : ∀ c ∈ 36 :: text, c ≠ 0 := fun c member => nulFree c (isBytes ▸ List.mem_append_right _ member)
      rw [behind, untilNul_append textNulFree, show untilNul (0 :: stale) = [] from rfl, List.append_nil]
      exact strstrIndex_none noFeed
    simp only [sign, lineEnd]
    rfl

end Drain

/-! ## The answers -/

def pongReply : Bytes := lit "+PONG\r\n"

/-- What the replica has asked its master behind the PING. -/
def World.asked (w : World D) : World D :=
  ((w.emit w.serverConfig.masterFd (replconfPort w.serverConfig.port)).emit w.serverConfig.masterFd replconfCapa).emit
    w.serverConfig.masterFd (psyncText (lit "?") (-1))

/-- The answers that the handshake looks at: to the PING and to the second REPLCONF. -/
structure Answers (segments : List Bytes) : Prop where
  pong : untilNul (Segments.recv 4095 segments).1 = pongReply
  ok : untilNul (Segments.recv 4095 (Segments.recv 4095 (Segments.recv 4095 segments).2).2).1 = okReply

/-- What is left of the segments behind the three answers. -/
def behindAnswers (segments : List Bytes) : List Bytes :=
  (Segments.recv 4095 (Segments.recv 4095 (Segments.recv 4095 segments).2).2).2

section Answers

variable [Externals D] {w : World D} {segments : List Bytes} {ptr : ClientPtr} {t : Joining D}

omit [Externals D] in
theorem untilNul_zeroed (bytes : Bytes) (n : Nat) : untilNul (bytes ++ List.replicate n 0) = untilNul bytes := by
  induction bytes with
  | nil => cases n <;> rfl
  | cons c bytes inductionHypothesis =>
    by_cases isNul : c = 0
    · simp [untilNul, isNul]
    · simp only [untilNul, List.cons_append, List.takeWhile_cons] at inductionHypothesis ⊢
      rw [inductionHypothesis]

omit [Externals D] in
theorem recvZeroed_run (bufSize : Nat) (s : Joining D) : recvZeroed bufSize s =
    .ok ((Segments.recv (bufSize - 1) s.segments).1 ++
        List.replicate (bufSize - (Segments.recv (bufSize - 1) s.segments).1.length) 0,
      { s with segments := (Segments.recv (bufSize - 1) s.segments).2 }) := rfl

/-- What the replica has asked up to the capabilities. -/
def World.configured (w : World D) : World D :=
  (w.emit w.serverConfig.masterFd (replconfPort w.serverConfig.port)).emit w.serverConfig.masterFd replconfCapa

omit [Externals D] in
theorem handleReplconf_run (segments : List Bytes) : ∃ buf, handleReplconf 4096 (⟨w, segments⟩ : Joining D) =
    .ok (buf, ⟨w.configured, (Segments.recv 4095 (Segments.recv 4095 segments).2).2⟩) ∧
      untilNul buf = untilNul (Segments.recv 4095 (Segments.recv 4095 segments).2).1 := by
  refine ⟨_, rfl, ?_⟩
  exact untilNul_zeroed _ _

/-- A handshake that is not answered as it should be ends before the PSYNC. -/
theorem doSlaveHandshake_refused (w : World D) (ptr : ClientPtr) (refused : ¬ Answers segments) : ∃ rest,
    doSlaveHandshake ptr ⟨w, segments⟩ = .ok ((), ⟨w, rest⟩) ∨
      doSlaveHandshake ptr ⟨w, segments⟩ = .ok ((), ⟨w.configured, rest⟩) := by
  obtain ⟨buf, replconf, isAnswer⟩ := handleReplconf_run (w := w) (Segments.recv 4095 segments).2
  unfold doSlaveHandshake recvAndValidate
  simp only [bind_assoc, pure_bind]
  rw [bind_of_ok (recvZeroed_run 4096 _), untilNul_zeroed]
  by_cases pong : untilNul (Segments.recv 4095 segments).1 = pongReply
  · have notOk : untilNul buf ≠ okReply := fun ok => refused ⟨pong, isAnswer.symm.trans ok⟩
    refine ⟨behindAnswers segments, .inr ?_⟩
    rw [pong, if_neg (by decide), bind_of_ok replconf, if_pos (by simp [validateServerResponse, notOk])]
    rfl
  · refine ⟨(Segments.recv 4095 segments).2, .inl ?_⟩
    rw [if_pos (by simp [validateServerResponse, ← show pongReply = lit "+PONG\r\n" from rfl, pong])]
    rfl

/-- Behind the answers the replica asks for the snapshot, whose answer is not looked at. -/
theorem doSlaveHandshake_accepted (w : World D) (ptr : ClientPtr) (answers : Answers segments) : ∃ stale,
    doSlaveHandshake ptr ⟨w, segments⟩ = (do
      let afterRdb ← drainRdb ((Segments.recv 4095 (behindAnswers segments)).1 ++ 0 :: stale)
        (Segments.recv 4095 (behindAnswers segments)).1.length
      if afterRdb < 0 then Exec.fault .outOfBounds
      else locally (joinMaster ptr (Segments.recv 4095 (behindAnswers segments)).1 stale afterRdb.toNat))
        ⟨w.asked, (Segments.recv 4095 (behindAnswers segments)).2⟩ := by
  obtain ⟨buf, replconf, isAnswer⟩ := handleReplconf_run (w := w) (Segments.recv 4095 segments).2
  refine ⟨buf.drop ((Segments.recv 4095 (behindAnswers segments)).1.length + 1), ?_⟩
  have psync : handlePsync (lit "?") (-1) w.configured = .ok ((), w.asked) := by
    have short : (psyncText (lit "?") (-1)).take (1024 - 1) = psyncText (lit "?") (-1) := by decide +kernel
    unfold handlePsync sendText
    rw [bind_of_ok (show config w.configured = .ok (w.configured.serverConfig, w.configured) from rfl), short]
    rfl
  unfold doSlaveHandshake recvAndValidate
  simp only [bind_assoc, pure_bind]
  rw [bind_of_ok (recvZeroed_run 4096 _), untilNul_zeroed, answers.pong, if_neg (by decide), bind_of_ok replconf,
    isAnswer, answers.ok, if_neg (by decide), bind_of_ok (locally_ok psync)]
  exact bind_of_ok (recvMaster_run 4095 _)

omit [Externals D] in
theorem drainRdb_world {buf : Bytes} {bytesRead : Nat} {s : Joining D} {afterRdb : Int}
    (run : drainRdb buf bytesRead s = .ok (afterRdb, t)) : t.world = s.world := by
  unfold drainRdb at run
  cases sign : (untilNul buf).idxOf? 36 with
  | none =>
    simp only [sign] at run
    obtain ⟨_, rfl⟩ := Prod.mk.inj (Except.ok.inj run)
    rfl
  | some rdbStart =>
    simp only [sign] at run
    cases lineEnd : strstrIndex (untilNul (buf.drop rdbStart)) crlf with
    | none =>
      simp only [lineEnd] at run
      obtain ⟨_, rfl⟩ := Prod.mk.inj (Except.ok.inj run)
      rfl
    | some lineLen =>
      simp only [lineEnd] at run
      rw [bind_of_ok (alter_run _ s)] at run
      obtain ⟨_, rfl⟩ := Prod.mk.inj (Except.ok.inj run)
      rfl

/-- What an accepted handshake ends with. -/
theorem joins_of_answers (answers : Answers segments) (run : doSlaveHandshake ptr ⟨w, segments⟩ = .ok ((), t)) :
    ∃ bytes stale afterRdb, joinMaster ptr bytes stale afterRdb w.asked = .ok ((), t.world) := by
  obtain ⟨stale, same⟩ := doSlaveHandshake_accepted w ptr answers
  rw [same] at run
  obtain ⟨afterRdb, drained, drains, joins⟩ := bind_eq_ok.mp run
  have sameWorld := drainRdb_world drains
  split at joins
  · simp at joins
  · exact ⟨_, stale, _, sameWorld ▸ (locally_run joins).1⟩

/-- The replica is connected to its master behind the handshake if and only if the PING was answered with nothing but
PONG and the second REPLCONF with nothing but OK; the other two answers do not matter. -/
theorem handshake_joins_iff (nobody : NoConnections w) (run : doSlaveHandshake ptr ⟨w, segments⟩ = .ok ((), t)) :
    (∃ slot, t.world.clients slot ≠ none) ↔ Answers segments := by
  constructor
  · rintro ⟨slot, occupied⟩
    by_contra refused
    obtain ⟨rest, same | same⟩ := doSlaveHandshake_refused w ptr refused
    all_goals
      rw [same] at run
      obtain ⟨_, rfl⟩ := Prod.mk.inj (Except.ok.inj run)
      exact occupied (nobody.clients slot)
  · intro answers
    obtain ⟨bytes, stale, afterRdb, joins⟩ := joins_of_answers answers run
    have asked : NoConnections w.asked := ⟨nobody.clients, nobody.activeFds, nobody.heap⟩
    have both : Connected t.world ∧ t.world.activeFds = 2 := by
      refine joinMaster_invariant (P := fun w => Connected w ∧ w.activeFds = 2) ?_ ?_ joins
      · intro slot isNext
        refine ⟨asked.connected.seat isNext (asked.heap ptr) fun other occupied => absurd (asked.clients other) occupied, ?_⟩
        change slot.val + 1 = 2
        rw [isNext, asked.activeFds]
      · intro w handled slot sender call ⟨connected, two⟩ inSlot handles
        have handling := handle_undisturbed (connected.onlyFd inSlot) handles
        have counting : Undisturbed sender handled (handled.counted call) := .of_still (.of_same rfl rfl rfl rfl) rfl
        have both := handling.trans counting
        exact ⟨connected.of_undisturbed both, both.activeFds.trans two⟩
    exact ⟨firstSlot, (both.1.inUse firstSlot).mpr ⟨Nat.le_refl 1, by rw [both.2]; decide⟩⟩

omit [Externals D] in
/-- The PONG comes in two segments. -/
theorem handshake_joins_iff_cut : ∃ t : Joining Int,
    doSlaveHandshake 1 ⟨aloneReplica, [lit "+PO", lit "NG\r\n", okReply, okReply]⟩ = .ok ((), t) ∧
      ¬ ∃ slot, t.world.clients slot ≠ none := by
  obtain ⟨t, run, _⟩ := exists_ok_of_endsIn
    (show endsIn (doSlaveHandshake 1) (⟨aloneReplica, [lit "+PO", lit "NG\r\n", okReply, okReply]⟩ : Joining Int)
      (fun _ => true) = true by decide +kernel)
  refine ⟨t, run, fun connected => ?_⟩
  have answers := (handshake_joins_iff aloneReplica_noConnections run).mp connected
  exact absurd answers.pong (by decide +kernel)

end Answers

/-! ## Serving the commands of the master -/

section Serving

variable [Externals D] {w t u : World D} {ptr : ClientPtr} {commands others : List MasterCommand}
  {bytes stale noise : Bytes}

/-- The commands of the master are handled one after another, and each is counted when it has been; in between the rest
of the server goes on. -/
inductive InTurn (ptr : ClientPtr) : World D → List MasterCommand → World D → Prop where
  | done (w : World D) : InTurn ptr w [] w
  | between {slot : ClientSlot} {w start t : World D} {commands : List MasterCommand}
      (between : BetweenBuffers slot ptr w start) (rest : InTurn ptr start commands t) : InTurn ptr w commands t
  | serve {w handled t : World D} {command : MasterCommand} {commands : List MasterCommand} (start : Nat)
      (handles : handle (requestOf command.message.elements) ptr w = .ok ((), handled))
      (rest : InTurn ptr (handled.counted ⟨start, requestOf command.message.elements, command.text.length⟩) commands t) :
      InTurn ptr w (command :: commands) t

theorem InTurn.append (first : InTurn ptr w commands u) (second : InTurn ptr u others t) :
    InTurn ptr w (commands ++ others) t := by
  induction first with
  | done w => exact second
  | between between _ inductionHypothesis => exact .between between (inductionHypothesis second)
  | serve start handles _ inductionHypothesis => exact .serve start handles (inductionHypothesis second)

/-- The connection to the master stays, and every command is counted. -/
theorem InTurn.counts (serves : InTurn ptr w commands t) {slot : ClientSlot} (following : ∃ client, Following w slot ptr client) :
    (∃ slot client, Following t slot ptr client) ∧
      t.serverConfig.slaveReplOffset = w.serverConfig.slaveReplOffset + (texts commands).length := by
  induction serves generalizing slot with
  | done w => exact ⟨⟨slot, following⟩, by simp⟩
  | between between _ inductionHypothesis =>
    obtain ⟨stays, offset⟩ := inductionHypothesis between.following
    exact ⟨stays, by rw [offset, between.offset]⟩
  | @serve w handled t command commands start handles _ inductionHypothesis =>
    obtain ⟨client, following⟩ := following
    obtain ⟨⟨client', stays⟩, _, counters, answer⟩ := following.handles handles
    have counted : Counts command w (handled.counted ⟨start, requestOf command.message.elements, command.text.length⟩) :=
      .of_handled counters answer
    obtain ⟨stays', offset⟩ := inductionHypothesis ⟨client', stays.of_same rfl rfl rfl⟩
    refine ⟨stays', ?_⟩
    rw [offset, counted.offset, texts_cons, List.length_append]
    omega

/-- A loop that serves every call by `handle`, and counts it. -/
theorem serves_forM {P : World D → Prop} {serve : Call → M D Unit}
    (step : ∀ (w t : World D) (command : MasterCommand) (start : Nat), P w →
      serve ⟨start, requestOf command.message.elements, command.text.length⟩ w = .ok ((), t) →
        P t ∧ ∃ handled, handle (requestOf command.message.elements) ptr w = .ok ((), handled) ∧
          t = handled.counted ⟨start, requestOf command.message.elements, command.text.length⟩)
    {start : Nat} (holds : P w) (run : forM (callsOf start (commands.map MasterCommand.message)) serve w = .ok ((), t)) :
    P t ∧ InTurn ptr w commands t := by
  induction commands generalizing w start with
  | nil =>
    obtain rfl : w = t := by simpa [callsOf] using run
    exact ⟨holds, .done w⟩
  | cons command commands inductionHypothesis =>
    rw [List.map_cons, callsOf, List.forM_cons, command.encode_message] at run
    obtain ⟨_, served, first, rest⟩ := bind_eq_ok.mp run
    obtain ⟨holds', handled, handles, rfl⟩ := step w served command start holds first
    obtain ⟨atEnd, serves⟩ := inductionHypothesis holds' rest
    exact ⟨atEnd, .serve start handles serves⟩

/-- The event loop. -/
theorem serveRequest_handles {slot : ClientSlot} {command : MasterCommand} {start : Nat}
    (following : ∃ client, Following w slot ptr client)
    (run : serveRequest slot ⟨start, requestOf command.message.elements, command.text.length⟩ w = .ok ((), t)) :
    (∃ client, Following t slot ptr client) ∧
      ∃ handled, handle (requestOf command.message.elements) ptr w = .ok ((), handled) ∧
        t = handled.counted ⟨start, requestOf command.message.elements, command.text.length⟩ := by
  obtain ⟨client, following⟩ := following
  obtain ⟨handled, handles, propagates⟩ := serveRequest_run following.inSlot run
  obtain ⟨⟨client', stays⟩, _, _, _⟩ := following.handles handles
  have isCounted := propagate_following stays propagates
  rw [isCounted]
  exact ⟨⟨client', stays.of_same rfl rfl rfl⟩, handled, handles, rfl⟩

/-- The loop of the handshake. -/
theorem serveHandshake_handles {command : MasterCommand} {start : Nat} (joined : JoinedLast ptr w)
    (run : serveHandshake ⟨start, requestOf command.message.elements, command.text.length⟩ w = .ok ((), t)) :
    JoinedLast ptr t ∧
      ∃ handled, handle (requestOf command.message.elements) ptr w = .ok ((), handled) ∧
        t = handled.counted ⟨start, requestOf command.message.elements, command.text.length⟩ := by
  obtain ⟨slot, client, following, isLast⟩ := id joined
  obtain ⟨slot', sender, handled, isActive, inSlot, handles, isCounted⟩ := serveHandshake_ok run
  obtain rfl : slot' = slot := Fin.ext (by omega)
  obtain rfl : ptr = sender := Option.some.inj (following.inSlot.symm.trans inSlot)
  exact ⟨(serveHandshake_counts joined run).1, handled, handles, isCounted⟩

omit [Externals D] in
theorem plain_messages (commands : List MasterCommand) :
    ∀ message ∈ commands.map MasterCommand.message, ∀ element ∈ message.elements, Plain element := by
  intro message member
  obtain ⟨command, _, rfl⟩ := List.mem_map.mp member
  exact command.plain_message

omit [Externals D] in
/-- The loop looks at a buffer from the next star on. -/
theorem handleCallsFrom_skip {memory : Bytes} {n ptr ptr' : Nat} (same : skipToStar memory n ptr = skipToStar memory n ptr')
    (fuel : Nat) : handleCallsFrom memory n fuel ptr = handleCallsFrom memory n fuel ptr' := by
  cases fuel with
  | zero => rfl
  | succ fuel =>
    unfold handleCallsFrom
    rw [same]

/-- A buffer with whole commands behind bytes without a star. -/
theorem serveBuffer_commands {slot : ClientSlot} (starless : 42 ∉ noise) (isBytes : bytes = noise ++ texts commands)
    (following : ∃ client, Following w slot ptr client) (run : serveBuffer slot bytes stale w = .ok ((), t)) :
    (∃ client, Following t slot ptr client) ∧ InTurn ptr w commands t := by
  have calls : handleCallsFrom (bytes ++ 0 :: stale) bytes.length bytes.length 0 =
      (callsOf noise.length (commands.map MasterCommand.message), none) := by
    have length : noise.length + (texts commands).length = bytes.length := by rw [isBytes, List.length_append]
    -- the loop skips the bytes in front of the commands
    have skips : skipToStar (bytes ++ 0 :: stale) bytes.length 0 = skipToStar (bytes ++ 0 :: stale) bytes.length noise.length := by
      have front : (noise ++ texts commands).takeWhile (· ≠ 42) = noise ++ (texts commands).takeWhile (· ≠ 42) :=
        List.takeWhile_append_of_pos fun c member => decide_eq_true fun isStar => starless (isStar ▸ member)
      rw [skipToStar_eq, skipToStar_eq, isBytes, List.drop_zero, List.drop_left, front, List.length_append, Nat.zero_add]
    have here : (bytes ++ 0 :: stale).drop noise.length = encodeAll (commands.map MasterCommand.message) ++ 0 :: stale := by
      rw [encodeAll_messages, isBytes, List.append_assoc, List.drop_left]
    rw [handleCallsFrom_skip skips]
    exact handleCallsFrom_encodeAll _ (plain_messages commands) here (by rw [encodeAll_messages, length]) (by omega)
  unfold serveBuffer at run
  rw [parseLoop_eq_calls, calls] at run
  obtain ⟨_, served, serves, ends⟩ := bind_eq_ok.mp run
  obtain rfl : served = t := by simpa using ends
  exact serves_forM (fun _ _ _ _ following run => serveRequest_handles following run) following serves

/-- The client that stands for the master. -/
def masterClient (w : World D) : Client := { newClient w.serverConfig.masterFd with isMaster := true }

omit [Externals D] in
theorem joinedLast_seat {slot : ClientSlot} : JoinedLast ptr (w.seat slot ptr (masterClient w)) :=
  ⟨slot, masterClient w, ⟨⟨Function.update_self _ _ _, Function.update_self _ _ _, rfl, rfl⟩, rfl, rfl, rfl⟩, rfl⟩

/-- The commands that came in one buffer with the end of the snapshot. -/
theorem joinMaster_commands {afterRdb : Nat} (behind : bytes.drop afterRdb = texts commands)
    (run : joinMaster ptr bytes stale afterRdb w = .ok ((), t)) :
    ∃ slot : ClientSlot, slot.val = w.activeFds ∧ (∃ slot client, Following t slot ptr client) ∧
      InTurn ptr (w.seat slot ptr (masterClient w)) commands t := by
  rw [joinMaster_eq_logged] at run
  obtain ⟨log, joined, joins, ends⟩ := bind_eq_ok.mp run
  obtain ⟨_, rfl⟩ := Prod.mk.inj (Except.ok.inj ends)
  obtain ⟨_, seated, adds, loops⟩ := bind_eq_ok.mp joins
  obtain ⟨slot, isNext, rfl⟩ := addMasterToWatchlist_ok adds
  have serves : forM (callsOf afterRdb (commands.map MasterCommand.message)) serveHandshake
      (w.seat slot ptr (masterClient w)) = .ok ((), joined) := by
    have logs : logged serveHandshake (callsOf afterRdb (commands.map MasterCommand.message))
        (w.seat slot ptr (masterClient w)) = .ok (log, joined) := loggedLoop_texts behind loops
    rw [forM_eq_logged, bind_of_ok logs]
    rfl
  obtain ⟨⟨slot', client, following, _⟩, inTurn⟩ :=
    serves_forM (fun _ _ _ _ joined run => serveHandshake_handles joined run) joinedLast_seat serves
  exact ⟨slot, isNext, ⟨slot', client, following⟩, inTurn⟩

end Serving

/-! ## The cuts of what the master sends -/

/-- Every segment fits into the array that it is received in. -/
def Receivable (segments : List Bytes) : Prop := ∀ segment ∈ segments, segment ≠ [] ∧ segment.length ≤ 4095

/-- The answer to PSYNC, in front of the commands: a line, and the snapshot with the line of its length. -/
def psyncAnswer (line snapshot : Bytes) : Bytes := line ++ rdbHeader snapshot.length ++ snapshot

/-- The segments of the answer and of groups of commands behind it.  A segment may end anywhere in the answer, and
behind it only where a command ends.  The snapshot has no star, or the first segment has the line of its length. -/
structure CutsAnswer (line snapshot : Bytes) (segments : List Bytes) (groups : List (List MasterCommand)) : Prop where
  isLine : IsLine line
  small : snapshot.length < 2 ^ 31
  receivable : Receivable segments
  cut : Segments.Cut (psyncAnswer line snapshot) segments (groups.map texts)
  starless : 42 ∉ snapshot ∨ ∀ first ∈ segments.head?, line ++ rdbHeader snapshot.length <+: first

/-- The next bytes from the master are received and served; in between the rest of the server goes on. -/
def Hears [Externals D] (ptr : ClientPtr) (s : Joining D) (stale : Bytes) (t : Joining D) : Prop :=
  s.segments ≠ [] ∧ ∃ slot start, BetweenBuffers slot ptr s.world start ∧
    (do
      let bytes ← recvMaster 4095
      locally (serveBuffer slot bytes stale)) (⟨start, s.segments⟩ : Joining D) = .ok ((), t)

/-- The invariant: some of the groups of commands have been handled, and the others are behind bytes without a star. -/
structure Hearing [Externals D] (ptr : ClientPtr) (start : World D) (groups : List (List MasterCommand)) (s : Joining D) :
    Prop where
  following : ∃ slot client, Following s.world slot ptr client
  receivable : Receivable s.segments
  served : ∃ served waiting noise, groups = served ++ waiting ∧ 42 ∉ noise ∧
    Segments.Cut noise s.segments (waiting.map texts) ∧ InTurn ptr start served.flatten s.world

section Cuts

variable [Externals D] {w start looping : World D} {s t joined : Joining D} {ptr : ClientPtr} {stale line snapshot : Bytes}
  {groups : List (List MasterCommand)} {segments : List Bytes}

omit [Externals D] in
theorem Receivable.nonempty (receivable : Receivable segments) : Segments.Nonempty segments :=
  fun segment member => (receivable segment member).1

omit [Externals D] in
theorem Receivable.tail {segment : Bytes} (receivable : Receivable (segment :: segments)) : Receivable segments :=
  fun other member => receivable other (List.mem_cons_of_mem _ member)

omit [Externals D] in
theorem Receivable.behind {front : Bytes} {behind : List Bytes} (receivable : Receivable segments)
    (cut : Segments.Cut front segments behind) : Receivable behind := by
  induction cut with
  | none behind => exact receivable
  | within front other behind notEmpty =>
    intro segment member
    obtain rfl | inBehind := List.mem_cons.mp member
    · have fits := (receivable _ List.mem_cons_self).2
      rw [List.length_append] at fits
      exact ⟨notEmpty, by omega⟩
    · exact receivable.tail segment inBehind
  | piece segment cut inductionHypothesis => exact inductionHypothesis receivable.tail

omit [Externals D] in
/-- The first of the groups that wait. -/
theorem groups_cons {segment : Bytes} (isGroups : groups.map texts = segment :: segments) :
    ∃ group others, groups = group :: others ∧ texts group = segment ∧ others.map texts = segments := by
  cases groups with
  | nil => simp at isGroups
  | cons group others =>
    obtain ⟨isFirst, areOthers⟩ := List.cons.inj isGroups
    exact ⟨group, others, rfl, isFirst, areOthers⟩

theorem hearing_step (hearing : Hearing ptr start groups s) (hears : Hears ptr s stale t) : Hearing ptr start groups t := by
  obtain ⟨_, receivable, served, waiting, noise, areGroups, starless, cut, inTurn⟩ := hearing
  obtain ⟨remains, slot, between, goesOn, run⟩ := hears
  obtain ⟨segment, segments, isSegments⟩ := List.exists_cons_of_ne_nil remains
  obtain ⟨bytes, received, receives, serves⟩ := bind_eq_ok.mp run
  rw [isSegments] at receivable cut receives
  rw [recvMaster_run, Segments.recv_whole (receivable segment List.mem_cons_self).2] at receives
  obtain ⟨rfl, rfl⟩ := Prod.mk.inj (Except.ok.inj receives)
  obtain ⟨serves, sameSegments⟩ := locally_run serves
  replace sameSegments : t.segments = segments := sameSegments
  -- what the buffer holds behind bytes without a star
  have handles {front : Bytes} {group : List MasterCommand} (noStar : 42 ∉ front) (isBuffer : segment = front ++ texts group) :
      (∃ slot client, Following t.world slot ptr client) ∧ InTurn ptr start (served.flatten ++ group) t.world := by
    obtain ⟨⟨client, following⟩, handled⟩ := serveBuffer_commands noStar isBuffer goesOn.following serves
    exact ⟨⟨slot, client, following⟩, inTurn.append (.between goesOn handled)⟩
  have afterGroup {front : Bytes} {group : List MasterCommand} {others : List (List MasterCommand)} (noStar : 42 ∉ front)
      (isBuffer : segment = front ++ texts group) (areWaiting : waiting = group :: others)
      (areOthers : others.map texts = segments) : Hearing ptr start groups t := by
    obtain ⟨following, handled⟩ := handles noStar isBuffer
    refine ⟨following, sameSegments ▸ receivable.tail, served ++ [group], others, [], ?_, by simp, ?_, ?_⟩
    · rw [areGroups, areWaiting, List.append_assoc, List.singleton_append]
    · rw [sameSegments, areOthers]
      exact .none segments
    · rwa [List.flatten_append, List.flatten_singleton]
  generalize isBehind : waiting.map texts = behind at cut
  cases cut with
  | none =>
    obtain ⟨group, others, areWaiting, isFirst, areOthers⟩ := groups_cons isBehind
    exact afterGroup starless (show segment = [] ++ texts group from isFirst.symm) areWaiting areOthers
  | within _ other =>
    obtain ⟨group, others, areWaiting, isFirst, areOthers⟩ := groups_cons isBehind
    exact afterGroup starless (by rw [isFirst]) areWaiting areOthers
  | @piece front _ _ _ cut =>
    have noStar : 42 ∉ segment := fun member => starless (List.mem_append_left _ member)
    obtain ⟨following, handled⟩ := handles noStar (show segment = segment ++ texts [] from (List.append_nil segment).symm)
    refine ⟨following, sameSegments ▸ receivable.tail, served, waiting, front, areGroups,
      fun member => starless (List.mem_append_right _ member), ?_, by rwa [List.append_nil] at handled⟩
    rw [sameSegments, isBehind]
    exact cut

/-- The handshake behind a buffer whose commands begin at an index. -/
theorem joins_drained {bytes : Bytes} {rest rest' : List Bytes} {after : Nat} {commands : List MasterCommand}
    (drains : drainRdb (bytes ++ 0 :: stale) bytes.length ⟨w, rest⟩ = .ok ((after : Nat), ⟨w, rest'⟩))
    (behind : bytes.drop after = texts commands)
    (run : (do
      let afterRdb ← drainRdb (bytes ++ 0 :: stale) bytes.length
      if afterRdb < 0 then Exec.fault .outOfBounds
      else locally (joinMaster ptr bytes stale afterRdb.toNat)) (⟨w, rest⟩ : Joining D) = .ok ((), joined)) :
    joined.segments = rest' ∧ ∃ slot : ClientSlot, slot.val = w.activeFds ∧
      (∃ slot client, Following joined.world slot ptr client) ∧
      InTurn ptr (w.seat slot ptr (masterClient w)) commands joined.world := by
  rw [bind_of_ok drains, if_neg (by omega), Int.toNat_natCast] at run
  obtain ⟨joins, sameSegments⟩ := locally_run run
  exact ⟨sameSegments, joinMaster_commands behind joins⟩

omit [Externals D] in
/-- The two answers that are looked at, each in a segment of its own. -/
theorem answers_pong {second : Bytes} (fits : second.length ≤ 4095) (segments : List Bytes) :
    Answers (pongReply :: second :: okReply :: segments) ∧
      behindAnswers (pongReply :: second :: okReply :: segments) = segments := by
  have first : Segments.recv 4095 (pongReply :: second :: okReply :: segments) = (pongReply, second :: okReply :: segments) :=
    Segments.recv_whole (by decide)
  have next : Segments.recv 4095 (second :: okReply :: segments) = (second, okReply :: segments) :=
    Segments.recv_whole fits
  have third : Segments.recv 4095 (okReply :: segments) = (okReply, segments) := Segments.recv_whole (by decide)
  refine ⟨⟨?_, ?_⟩, ?_⟩
  · rw [first]
    rfl
  · rw [first, next, third]
    rfl
  · rw [behindAnswers, first, next, third]

omit [Externals D] in
theorem length_psyncAnswer (line snapshot : Bytes) :
    (psyncAnswer line snapshot).length = (line ++ rdbHeader snapshot.length).length + snapshot.length :=
  List.length_append

omit [Externals D] in
/-- Where the whole answer is in the buffer, nothing is discarded. -/
theorem drainRdb_whole (isLine : IsLine line) (small : snapshot.length < 2 ^ 31) (other : Bytes) (s : Joining D)
    (stale : Bytes) :
    drainRdb ((psyncAnswer line snapshot ++ other) ++ 0 :: stale) (psyncAnswer line snapshot ++ other).length s =
      .ok (((psyncAnswer line snapshot).length : Nat), s) := by
  have isBytes : psyncAnswer line snapshot ++ other = line ++ rdbHeader snapshot.length ++ (snapshot ++ other) := by
    rw [psyncAnswer, List.append_assoc _ snapshot]
  have nothing : snapshot.length - (snapshot ++ other).length = 0 := by
    rw [List.length_append]
    omega
  rw [drainRdb_header isLine small isBytes, length_psyncAnswer, nothing]
  rfl

omit [Externals D] in
/-- What is missing of the snapshot is discarded. -/
theorem drainRdb_part {bytes part front : Bytes} {behind : List Bytes} (isLine : IsLine line)
    (small : snapshot.length < 2 ^ 31) (isBytes : line ++ rdbHeader snapshot.length ++ part = bytes)
    (isAnswer : psyncAnswer line snapshot = bytes ++ front) (nonempty : Segments.Nonempty segments)
    (cut : Segments.Cut front segments behind) :
    drainRdb (bytes ++ 0 :: stale) bytes.length ⟨w, segments⟩ = .ok (((psyncAnswer line snapshot).length : Nat), ⟨w, behind⟩) := by
  have isSnapshot : snapshot = part ++ front := by
    rw [psyncAnswer, ← isBytes, List.append_assoc _ part front] at isAnswer
    exact List.append_cancel_left isAnswer
  have missing : snapshot.length - part.length = front.length := by
    rw [isSnapshot, List.length_append, Nat.add_sub_cancel_left]
  rw [drainRdb_header isLine small isBytes.symm, length_psyncAnswer, missing]
  exact congrArg (fun segments => Except.ok (_, (⟨w, segments⟩ : Joining D)))
    (Segments.discard_cut cut nonempty (by decide) (Nat.le_refl _))

/-- The handshake handles the commands that came in one segment with the end of the snapshot. -/
theorem hearing_joins (cuts : CutsAnswer line snapshot segments groups) {second : Bytes} (fits : second.length ≤ 4095)
    (shakes : doSlaveHandshake ptr ⟨w, pongReply :: second :: okReply :: segments⟩ = .ok ((), joined)) :
    ∃ slot : ClientSlot, slot.val = w.activeFds ∧
      Hearing ptr (w.asked.seat slot ptr (masterClient w)) groups joined := by
  obtain ⟨answers, behind⟩ := answers_pong fits segments
  obtain ⟨stale, same⟩ := doSlaveHandshake_accepted w ptr answers
  rw [same, behind] at shakes
  obtain ⟨isLine, small, receivable, cut, starless⟩ := cuts
  obtain ⟨bytes, rest, rfl⟩ : ∃ bytes rest, segments = bytes :: rest := by
    refine List.exists_cons_of_ne_nil fun nothing => ?_
    have flatten := cut.flatten
    rw [nothing] at flatten
    simp [psyncAnswer, rdbHeader] at flatten
  have receives : Segments.recv 4095 (bytes :: rest) = (bytes, rest) :=
    Segments.recv_whole (receivable bytes List.mem_cons_self).2
  rw [receives] at shakes
  generalize isAnswer : psyncAnswer line snapshot = answer at cut
  generalize isBehind : groups.map texts = waiting at cut
  -- where the first segment ends: behind the answer, or in it
  cases cut with
  | none => simp [psyncAnswer, rdbHeader] at isAnswer
  | within _ other =>
    obtain ⟨group, others, areGroups, isFirst, areOthers⟩ := groups_cons isBehind
    have drains := drainRdb_whole isLine small other ⟨w.asked, rest⟩ stale
    rw [isAnswer] at drains
    obtain ⟨sameSegments, slot, isNext, following, inTurn⟩ :=
      joins_drained drains (by rw [List.drop_left, ← isFirst]) shakes
    refine ⟨slot, isNext, following, sameSegments ▸ receivable.tail, [group], others, [], areGroups, by simp, ?_, ?_⟩
    · rw [sameSegments, areOthers]
      exact .none rest
    · rwa [List.flatten_singleton]
  | @piece front _ _ _ cut =>
    by_cases withHeader : line ++ rdbHeader snapshot.length <+: bytes
    · obtain ⟨part, isBytes⟩ := withHeader
      have pastEnd : bytes.drop (psyncAnswer line snapshot).length = texts [] := by
        rw [isAnswer]
        exact List.drop_of_length_le (by rw [List.length_append]; omega)
      obtain ⟨sameSegments, slot, isNext, following, inTurn⟩ :=
        joins_drained (drainRdb_part isLine small isBytes isAnswer receivable.tail.nonempty cut) pastEnd shakes
      refine ⟨slot, isNext, following, sameSegments ▸ receivable.tail.behind cut, [], groups, [], rfl, by simp, ?_, inTurn⟩
      rw [sameSegments, isBehind]
      exact .none waiting
    · -- the line of the snapshot is cut, and everything behind the buffer is skipped up to the first star
      have inAnswer : bytes <+: line ++ rdbHeader snapshot.length ++ snapshot := ⟨front, isAnswer.symm⟩
      have isCut : bytes <+: line ++ rdbHeader snapshot.length :=
        (List.prefix_or_prefix_of_prefix inAnswer (List.prefix_append _ snapshot)).resolve_right withHeader
      have drains := drainRdb_cut (s := ⟨w.asked, rest⟩) isLine isCut (fun whole => withHeader (whole ▸ List.prefix_rfl)) stale
      obtain ⟨sameSegments, slot, isNext, following, inTurn⟩ :=
        joins_drained drains (show bytes.drop bytes.length = texts [] from List.drop_length) shakes
      refine ⟨slot, isNext, following, sameSegments ▸ receivable.tail, [], groups, front, rfl, ?_, ?_, inTurn⟩
      · have noStar : 42 ∉ snapshot := starless.resolve_right fun complete => withHeader (complete bytes rfl)
        have answerStarless : 42 ∉ bytes ++ front := by
          rw [← isAnswer, psyncAnswer]
          simp only [List.mem_append, not_or]
          exact ⟨⟨isLine.starless, rdbHeader_starless _⟩, noStar⟩
        exact fun member => answerStarless (List.mem_append_right _ member)
      · rw [sameSegments, isBehind]
        exact cut

omit [Externals D] in
/-- What `main` resets between the handshake and its loop does not concern the connection to the master. -/
theorem between_resets {slot : ClientSlot} {w looping : World D} (following : ∃ client, Following w slot ptr client)
    (resets : resetForLoop w = .ok ((), looping)) : BetweenBuffers slot ptr w looping := by
  obtain rfl : _ = looping := by simpa [resetForLoop] using resets
  obtain ⟨client, following⟩ := following
  exact ⟨⟨client, following.of_same rfl rfl rfl⟩, rfl, rfl⟩

/-- However the answer to PSYNC and the commands behind it are cut: in every state that the replica comes to, it has
handled the first groups of the commands, each once and in their order, and counted their bytes; and it has handled all
of them when it has received every segment. -/
theorem handshake_any_cut (uncounted : w.serverConfig.slaveReplOffset = 0) (cuts : CutsAnswer line snapshot segments groups)
    {second : Bytes} (fits : second.length ≤ 4095)
    (shakes : doSlaveHandshake ptr ⟨w, pongReply :: second :: okReply :: segments⟩ = .ok ((), joined))
    (resets : resetForLoop joined.world = .ok ((), looping))
    (run : Run (Hears ptr) (fun _ _ => True) ⟨looping, joined.segments⟩ s) :
    ∃ served waiting, groups = served ++ waiting ∧ (s.segments = [] → waiting = []) ∧
      (∃ slot : ClientSlot, InTurn ptr (w.asked.seat slot ptr (masterClient w)) served.flatten s.world) ∧
      s.world.serverConfig.slaveReplOffset = (texts served.flatten).length := by
  obtain ⟨slot, _, hearing⟩ := hearing_joins cuts fits shakes
  have atStart : Hearing ptr (w.asked.seat slot ptr (masterClient w)) groups ⟨looping, joined.segments⟩ := by
    obtain ⟨⟨own, following⟩, receivable, served, waiting, noise, areGroups, starless, cut, inTurn⟩ := hearing
    have between := between_resets following resets
    refine ⟨⟨own, between.following⟩, receivable, served, waiting, noise, areGroups, starless, cut, ?_⟩
    have both := inTurn.append (.between between (.done looping))
    rwa [List.append_nil] at both
  have atEnd := run.invariant (fun _ _ _ hearing _ hears => hearing_step hearing hears) atStart
  obtain ⟨_, _, served, waiting, noise, areGroups, _, cut, inTurn⟩ := atEnd
  refine ⟨served, waiting, areGroups, fun nothing => ?_, ⟨slot, inTurn⟩, ?_⟩
  · generalize isBehind : waiting.map texts = behind at cut
    rw [nothing] at cut
    cases cut
    exact List.map_eq_nil_iff.mp isBehind
  · obtain ⟨own, client, following, _⟩ : JoinedLast ptr (w.asked.seat slot ptr (masterClient w)) := joinedLast_seat
    rw [(inTurn.counts ⟨client, following⟩).2]
    exact (congrArg (· + ((texts served.flatten).length : Int)) uncounted).trans (Int.zero_add _)

end Cuts

/-! ## One replica -/

/-- The line of FULLRESYNC comes with the first digit of the length of the snapshot. -/
def firstSegment : Bytes := lit "+FULLRESYNC 8371b4fb1155b71f4a04d3e1bc3e18c4a990aeeb 0\r\n$1"

/-- The end of the snapshot, and two commands. -/
def secondSegment : Bytes := lit "8\r\n" ++ emptyRdb ++ texts [.copy setKV sendable_setKV, .getack]

theorem cutsAnswer_segments : CutsAnswer (lit "+FULLRESYNC 8371b4fb1155b71f4a04d3e1bc3e18c4a990aeeb 0\r\n") emptyRdb
    [firstSegment, secondSegment] [[.copy setKV sendable_setKV, .getack]] where
  isLine := by decide +kernel
  small := by decide
  receivable := by
    intro segment member
    simp only [List.mem_cons, List.not_mem_nil, or_false] at member
    obtain rfl | rfl := member <;> exact ⟨by decide +kernel, by decide +kernel⟩
  cut := by
    have isAnswer : psyncAnswer (lit "+FULLRESYNC 8371b4fb1155b71f4a04d3e1bc3e18c4a990aeeb 0\r\n") emptyRdb =
        firstSegment ++ (lit "8\r\n" ++ emptyRdb) := by decide +kernel
    rw [isAnswer]
    exact .piece firstSegment (.within _ _ [] (by decide +kernel))
  starless := .inl (by decide)

/-- The replica has set the key and answered the request for its offset. -/
theorem handshake_any_cut_two : ∃ s : Joining Int, s.segments = [] ∧ s.world.executed = [setKV] ∧
    s.world.serverConfig.slaveReplOffset = 64 := by
  obtain ⟨ready, shakes, checked⟩ := exists_ok_of_endsIn
    (show endsIn (do doSlaveHandshake 1; locally resetForLoop)
      (⟨aloneReplica, [pongReply, okReply, okReply, firstSegment, secondSegment]⟩ : Joining Int) (fun s =>
        decide (s.segments ≠ [] ∧ s.world.clients firstSlot = some 1) && (s.world.heap 1).any (fun client =>
          decide (client.isMaster = true ∧ client.fd = s.world.serverConfig.masterFd ∧ client.isQueued = false ∧
            client.isSubscribed = false ∧ client.isBlocked = false)) &&
        endsIn (do let bytes ← recvMaster 4095; locally (serveBuffer firstSlot bytes [])) s fun t =>
          decide (t.segments = [] ∧ t.world.executed = [setKV])) = true by decide +kernel)
  simp only [Bool.and_eq_true, decide_eq_true_eq, Option.any_eq_true] at checked
  obtain ⟨⟨⟨remains, inSlot⟩, client, found, isMaster, isFd, outside, unsubscribed, unblocked⟩, ends⟩ := checked
  obtain ⟨s, hears, atEnd⟩ := exists_ok_of_endsIn ends
  obtain ⟨nothing, executed⟩ := of_decide_eq_true atEnd
  obtain ⟨_, joined, shakes, resets⟩ := bind_eq_ok.mp shakes
  obtain ⟨resets, sameSegments⟩ := locally_run resets
  have following : Following ready.world firstSlot 1 client := ⟨⟨inSlot, found, isMaster, isFd⟩, outside, unsubscribed, unblocked⟩
  have step : Hears 1 ⟨ready.world, joined.segments⟩ [] s :=
    ⟨sameSegments ▸ remains, firstSlot, ready.world, .refl following, sameSegments ▸ hears⟩
  obtain ⟨served, waiting, areGroups, all, _, offset⟩ := handshake_any_cut rfl cutsAnswer_segments (by decide) shakes resets
    (Run.single trivial step)
  rw [all nothing, List.append_nil] at areGroups
  exact ⟨s, nothing, executed, by rw [offset, ← areGroups]; decide +kernel⟩

end RedisClone
