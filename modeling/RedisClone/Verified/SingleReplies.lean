import RedisClone.Lib.Output
import RedisClone.Verified.Records
import RedisClone.Verified.RespValues
import RedisClone.Verified.Silence
import RedisClone.Verified.ReplyBuffers
import RedisClone.Verified.SubscribedMode

/-! # Arms that send one complete value

`Replies fd x w`: where `x` ends normally from `w`, it has sent the descriptor one complete value.  Every handler has a
theorem that says so, under the condition that it takes no branch without a reply and that its reply fits the array that
it is printed to.
-/

namespace RedisClone

open Exec CString

variable {D : Type}

/-- One complete value is sent to the descriptor. -/
abbrev Replies {α : Type} (fd : Int) (x : M D α) (w : World D) : Prop := Writes (fun w => w.bytesTo fd) IsResp x w

/-- Nothing is sent to the descriptor. -/
abbrev SilentAt (fd : Int) : World D → World D → Prop := SameOutput fun w => w.bytesTo fd

/-! ## Sending -/

section Sending

variable {fd : Int} {w : World D} {req : RespRequest}

instance storing_silentAt : Storing (SilentAt (D := D) fd) where
  composes := composes_sameOutput
  setBucket _ _ _ := rfl
  tick _ := rfl
  takeFresh _ := rfl

instance silentAt_updateClient (ptr : ClientPtr) (f : Client → Client) :
    Preserves (SilentAt fd) (updateClient ptr f : M D Unit) where
  run w _ w' run := by
    obtain ⟨client, found, rfl⟩ := updateClient_eq_ok.mp run
    rfl

theorem bytesTo_emit (w : World D) (bytes : Bytes) : (w.emit fd bytes).bytesTo fd = w.bytesTo fd ++ bytes := by
  simp [World.bytesTo, World.emit]

theorem replies_send {text : Bytes} (isResp : IsResp text) : Replies fd (send fd text : M D Unit) w :=
  .of_ok rfl (bytesTo_emit w text) isResp

/-- A line that the source has as a text. -/
theorem replies_line {text : Bytes} (line : isLine text = true) : Replies fd (send fd text : M D Unit) w :=
  replies_send (.of_isLine line)

theorem replies_sendText {size : Nat} {text : Bytes} (isResp : IsResp text) (fits : text.length < size) :
    Replies fd (sendText size fd text : M D Unit) w := by
  unfold sendText
  rw [List.take_of_length_le (by omega)]
  exact replies_send isResp

theorem replies_sendUnlessMaster {text : Bytes} (ordinary : fd ≠ w.serverConfig.masterFd) (isResp : IsResp text) :
    Replies fd (sendUnlessMaster fd text : M D Unit) w := by
  unfold sendUnlessMaster
  refine .of_bind (show config w = .ok (w.serverConfig, w) from rfl) rfl ?_
  rw [if_pos ordinary]
  exact replies_send isResp

/-- An argument, where the request has one. -/
theorem replies_arg {α : Type} {i : Nat} {f : Bytes → M D α}
    (rest : ∀ value, req.args[i]? = some value → Replies fd (f value) w) : Replies fd (req.arg i >>= f) w := by
  refine .after fun value t run => ?_
  obtain ⟨isArg, rfl⟩ := arg_ok.mp run
  exact rest value isArg

theorem replies_loadClient {α : Type} {ptr : ClientPtr} {f : Client → M D α}
    (rest : ∀ client, w.heap ptr = some client → Replies fd (f client) w) : Replies fd (loadClient ptr >>= f) w := by
  refine .after fun client t run => ?_
  obtain ⟨found, rfl⟩ := loadClient_eq_ok.mp run
  exact rest client found

theorem replies_observe {α β : Type} {view : World D → β} {f : β → M D α} (rest : Replies fd (f (view w)) w) :
    Replies fd (Exec.observe view >>= f) w :=
  .of_bind (observe_run view w) rfl rest

theorem replies_storeGetEntry {α : Type} {key : Bytes} {f : Option (Entry D) → M D α}
    (rest : ∀ entry, lookup w.table key = .ok entry → Replies fd (f entry) w) :
    Replies fd (storeGetEntry key >>= f) w := by
  refine .after fun entry t run => ?_
  rw [storeGetEntry_run] at run
  cases bound : lookup w.table key with
  | error f => simp [bound] at run
  | ok found =>
    rw [bound] at run
    obtain ⟨rfl, rfl⟩ := Prod.mk.inj (Except.ok.inj run)
    exact rest _ bound

theorem replies_withPayload {α β : Type} {key : Bytes} {cast : Value D → M D α} {missing : M D β} {found : α → M D β}
    (whenMissing : lookup w.table key = .ok none → Replies fd missing w)
    (whenFound : ∀ entry payload t, lookup w.table key = .ok (some entry) → cast entry.value w = .ok (payload, t) →
      t = w ∧ Replies fd (found payload) w) : Replies fd (withPayload key cast missing found) w := by
  unfold withPayload
  refine replies_storeGetEntry fun entry bound => ?_
  cases entry with
  | none => exact whenMissing bound
  | some entry =>
    dsimp only
    intro result u run
    obtain ⟨payload, t, casts, rest⟩ := bind_eq_ok.mp run
    obtain ⟨rfl, replies⟩ := whenFound entry payload t bound casts
    exact replies result u rest

theorem replies_withList {α : Type} {key : Bytes} {missing : M D α} {found : List Bytes → M D α}
    (whenMissing : lookup w.table key = .ok none → Replies fd missing w)
    (whenFound : ∀ values expiresAt, lookup w.table key = .ok (some ⟨.list values, expiresAt⟩) →
      Replies fd (found values) w) : Replies fd (withPayload key asList missing found) w := by
  refine replies_withPayload whenMissing fun entry payload t bound casts => ?_
  obtain ⟨value, expiresAt⟩ := entry
  cases value with
  | list values =>
    obtain ⟨rfl, rfl⟩ := Prod.mk.inj (Except.ok.inj casts)
    exact ⟨rfl, whenFound _ expiresAt bound⟩
  | _ => simp [asList, fault] at casts

theorem replies_withZSet {α : Type} {key : Bytes} {missing : M D α} {found : ZSet D → M D α}
    (whenMissing : lookup w.table key = .ok none → Replies fd missing w)
    (whenFound : ∀ set expiresAt, lookup w.table key = .ok (some ⟨.zset set, expiresAt⟩) → Replies fd (found set) w) :
    Replies fd (withPayload key asZSet missing found) w := by
  refine replies_withPayload whenMissing fun entry payload t bound casts => ?_
  obtain ⟨value, expiresAt⟩ := entry
  cases value with
  | zset set =>
    obtain ⟨rfl, rfl⟩ := Prod.mk.inj (Except.ok.inj casts)
    exact ⟨rfl, whenFound _ expiresAt bound⟩
  | _ => simp [asZSet, fault] at casts

theorem length_integerReply_le {n : Int} (small : 0 ≤ n) (fits : n < 2 ^ 31) : (integerReply n).length ≤ 13 := by
  obtain ⟨count, rfl⟩ := Int.eq_ofNat_of_zero_le small
  have digits : (decimal count).length ≤ 10 := by
    rw [decimal, List.length_map]
    exact (Nat.length_toDigits_le_iff (by decide) (by decide)).mpr (by omega)
  have colon : (lit ":").length = 1 := by decide
  have ends : crlf.length = 2 := by decide
  change (lit ":" ++ decimal count ++ crlf).length ≤ 13
  simp only [List.length_append]
  omega

/-- The number of something that a C `int` counts. -/
theorem replies_count {size n : Nat} (room : 13 < size) (counted : n < 2 ^ 31) :
    Replies fd (sendText size fd (integerReply n) : M D Unit) w := by
  have short := length_integerReply_le (Int.natCast_nonneg n) (by exact_mod_cast counted)
  exact replies_sendText (.integer n) (by omega)

/-- A text that lies in an array up to its offset. -/
theorem replies_sendPrefix {size : Nat} {text : Bytes} (isResp : IsResp text) (fits : text.length < size) :
    Replies fd (Buffer.sendPrefix size ⟨text, text.length⟩ fd : M D Unit) w := by
  unfold Buffer.sendPrefix
  rw [if_neg (by simp; omega)]
  simp only [List.take_length, Nat.sub_self, List.replicate_zero, List.append_nil]
  exact replies_send isResp

/-- Texts behind one another, in an array with room for all of them and a NUL. -/
theorem replies_appendAll {size : Nat} {content : Bytes} {texts : List Bytes} (isResp : IsResp (content ++ texts.flatten))
    (fits : (content ++ texts.flatten).length < size) :
    Replies fd (Buffer.appendAll size texts ⟨content, content.length⟩ >>= fun printed => printed.sendPrefix size fd :
      M D Unit) w :=
  .of_bind (appendAll_fits texts fits w) rfl (replies_sendPrefix isResp fits)

end Sending

/-! ## Simple arms -/

section Simple

variable {fd : Int} {w : World D} {req : RespRequest} {ptr : ClientPtr} {client : Client}

theorem replies_handleEcho (fits : ∀ word ∈ req.args[0]?, (bulk word).length < 1024) :
    Replies fd (handleEcho req fd) w := by
  unfold handleEcho
  exact replies_arg fun word isWord => replies_sendText (.bulk word) (fits word isWord)

theorem replies_handlePing (notMaster : client.isMaster = false) : Replies client.fd (handlePing client) w := by
  unfold handlePing
  refine .ite (fun _ => replies_line (by decide)) fun isSubscribed => ?_
  rw [if_pos (by simpa [notMaster] using isSubscribed)]
  exact replies_send (show IsResp (arrayText [lit "pong", []]) from .bulks _)

/-- What INFO replies between the length and the end. -/
def infoContent (server : RedisConfig) : Bytes :=
  lit "role:" ++ server.role ++ lit "\r\nmaster_replid:" ++ server.masterReplid ++ lit "\r\nmaster_repl_offset:" ++
    decimalInt server.masterReplOffset ++ crlf

theorem replies_handleInfo (enough : 1 ≤ req.argc) (isPart : ∀ part ∈ req.args[0]?, upper part = lit "REPLICATION")
    (fits : (infoContent w.serverConfig).length < 1024) : Replies fd (handleInfo req fd) w := by
  unfold handleInfo
  rw [if_neg (by omega)]
  refine replies_arg fun part isArg => ?_
  rw [if_pos (isPart part isArg)]
  refine .of_bind (show config w = .ok (w.serverConfig, w) from rfl) rfl ?_
  have whole : (infoContent w.serverConfig).take 1023 = infoContent w.serverConfig := List.take_of_length_le (by omega)
  change Replies fd (sendText 1200 fd (lit "$" ++ decimal (infoContent w.serverConfig).length ++ crlf ++
    (infoContent w.serverConfig).take 1023 ++ crlf)) w
  rw [whole]
  refine replies_sendText (.bulk (infoContent w.serverConfig)) ?_
  have digits := length_decimal_le (show (infoContent w.serverConfig).length < 10 ^ 9 by omega)
  have dollar : (lit "$").length = 1 := by decide
  have ends : crlf.length = 2 := by decide
  simp only [List.length_append]
  omega

theorem replies_handleReplconf (notAck : ∀ subCmd ∈ req.args[0]?, upper subCmd ≠ lit "ACK")
    (notMaster : client.isMaster = false) : Replies client.fd (handleReplconfRequest req ptr client) w := by
  unfold handleReplconfRequest
  refine .after fun _ t run => ?_
  refine .ite (fun _ => replies_line (by decide)) fun _ => ?_
  refine replies_arg fun subCmd isArg => ?_
  rw [if_neg (by simp [notMaster]), if_neg (notAck subCmd isArg)]
  exact replies_line (by decide)

theorem replies_handleKey
    (fits : ∀ keys, keysOf (List.finRange tableSize) w = .ok (keys, w) → (arrayText (keys.take 256)).length < 8192) :
    Replies fd (handleKey fd) w := by
  unfold handleKey
  intro a u run
  obtain ⟨keys, t, reads, rest⟩ := bind_eq_ok.mp run
  obtain ⟨_, _, rfl⟩ := keysOf_all.mp reads
  have isResp : IsResp ([] ++ (arrayHeader (keys.take 256).length :: (keys.take 256).map bulk).flatten) :=
    IsResp.bulks (keys.take 256)
  exact replies_appendAll isResp (show ([] ++ _ : Bytes).length < 8192 from fits keys reads) a u rest

theorem replies_handleGetuser (found : w.heap ptr = some client)
    (fits : w.defaultHasNopass = false → (bulk w.defaultPassword).length < 988) :
    Replies client.fd (handleGetuser req ptr) w := by
  -- two names, and the flags and the passwords as arrays of bulk strings
  have profile (flags passwords : List Bytes) : IsResp (arrayHeader 4 ++
      [bulk (lit "flags"), arrayText flags, bulk (lit "passwords"), arrayText passwords].flatten) := by
    refine .array [_, _, _, _] fun value member => ?_
    simp only [List.mem_cons, List.not_mem_nil, or_false] at member
    obtain rfl | rfl | rfl | rfl := member
    · exact .bulk _
    · exact .bulks flags
    · exact .bulk _
    · exact .bulks passwords
  unfold handleGetuser
  refine replies_arg fun user _ => replies_loadClient fun client' found' => ?_
  obtain rfl : client = client' := Option.some.inj (found.symm.trans found')
  refine .ite (fun _ => replies_observe ?_) fun _ => ?_
  · cases nopass : w.defaultHasNopass with
    | true => exact replies_send (profile [lit "nopass"] [])
    | false =>
      simp only [Bool.false_eq_true, if_false]
      refine replies_observe (replies_sendText ?_ ?_)
      · have front : lit "*4\r\n$5\r\nflags\r\n*0\r\n$9\r\npasswords\r\n*1\r\n" =
            arrayHeader 4 ++ bulk (lit "flags") ++ arrayHeader 0 ++ bulk (lit "passwords") ++ arrayHeader 1 := by decide
        have isResp := profile [] [w.defaultPassword]
        rw [front]
        simpa [arrayText] using isResp
      · have fits := fits nopass
        have front : (lit "*4\r\n$5\r\nflags\r\n*0\r\n$9\r\npasswords\r\n*1\r\n").length = 38 := by decide
        rw [List.length_append]
        omega
  · have isResp : IsResp (arrayHeader 2 ++ [bulk (lit "flags"), arrayText []].flatten) := by
      refine .array [_, _] fun value member => ?_
      simp only [List.mem_cons, List.not_mem_nil, or_false] at member
      obtain rfl | rfl := member
      · exact .bulk _
      · exact .bulks []
    exact replies_send isResp

variable [Externals D]

theorem replies_handleAuth (enough : 2 ≤ req.argc) (found : w.heap ptr = some client) :
    Replies client.fd (handleAuth req ptr) w := by
  unfold handleAuth
  rw [if_neg (by omega)]
  refine replies_arg fun input _ => replies_observe (replies_loadClient fun client' found' => ?_)
  obtain rfl : client = client' := Option.some.inj (found.symm.trans found')
  refine .ite (fun _ => .after fun _ t _ => replies_line (by decide)) fun _ => ?_
  exact replies_line (by decide)

theorem replies_handleSetuser (found : w.heap ptr = some client)
    (accepts : 3 ≤ req.argc → (∀ rule ∈ req.args[2]?, rule.head? = some 62) →
      ∀ user ∈ req.args[1]?, upper user = lit "DEFAULT") : Replies client.fd (handleSetuser req ptr) w := by
  unfold handleSetuser
  refine replies_loadClient fun client' found' => ?_
  obtain rfl : client = client' := Option.some.inj (found.symm.trans found')
  refine .ite (fun _ => replies_line (by decide)) fun enough => ?_
  refine replies_arg fun rule isRule => ?_
  refine .ite (fun _ => replies_line (by decide)) fun isPassword => ?_
  refine .of_bind (alter_run _ _) rfl (replies_arg fun user isUser => ?_)
  have isDefault := accepts (by omega) (fun rule' isRule' => by
    obtain rfl : rule = rule' := Option.some.inj (isRule.symm.trans isRule')
    simpa using isPassword) user isUser
  rw [if_pos isDefault]
  exact .of_bind (alter_run _ _) rfl (replies_line (by decide))

/-- The subcommands of ACL that are answered; of SETUSER not the one that sets a password for another user. -/
def AclAnswers (req : RespRequest) (subCmd : Bytes) : Prop :=
  upper subCmd = lit "WHOAMI" ∨ upper subCmd = lit "GETUSER" ∨
    upper subCmd = lit "SETUSER" ∧ (3 ≤ req.argc → (∀ rule ∈ req.args[2]?, rule.head? = some 62) →
      ∀ user ∈ req.args[1]?, upper user = lit "DEFAULT")

theorem replies_handleAcl (found : w.heap ptr = some client) (answers : ∀ subCmd ∈ req.args[0]?, AclAnswers req subCmd)
    (fits : w.defaultHasNopass = false → (bulk w.defaultPassword).length < 988) :
    Replies client.fd (handleAcl req ptr) w := by
  unfold handleAcl
  refine replies_arg fun subCmd isSubCmd => replies_loadClient fun client' found' => ?_
  obtain rfl : client = client' := Option.some.inj (found.symm.trans found')
  refine .ite (fun _ => replies_observe ?_) fun notWhoami => ?_
  · exact .ite (fun _ => replies_send (show IsResp (bulk (lit "default")) from .bulk _)) fun _ => replies_line (by decide)
  refine .ite (fun _ => replies_handleGetuser found fits) fun notGetuser => ?_
  obtain isWhoami | isGetuser | ⟨isSetuser, accepts⟩ := answers subCmd isSubCmd
  · exact absurd isWhoami notWhoami
  · exact absurd isGetuser notGetuser
  · rw [if_pos isSetuser]
    exact .before (replies_handleSetuser found accepts) fun _ => inferInstance

omit [Externals D]

theorem replies_handleConfig (few : req.argc ≤ 2)
    (fits : ∀ parameter ∈ req.args[0]?, ∃ size name value,
      (configParameters w.serverConfig).lookup (upper parameter) = some (size, name, value) ∧
        (arrayText [name, value]).length < size) : Replies fd (handleConfig req fd) w := by
  unfold handleConfig
  rw [if_neg (by omega)]
  refine replies_arg fun parameter isParameter => ?_
  obtain ⟨size, name, value, isKnown, short⟩ := fits parameter isParameter
  have text : arrayText [name, value] = lit "*2\r\n" ++ bulk name ++ bulk value := by
    have front : arrayHeader 2 = lit "*2\r\n" := by decide
    simp [arrayText, front]
  refine .of_bind (show config w = .ok (w.serverConfig, w) from rfl) rfl ?_
  simp only [isKnown]
  rw [text] at short
  exact replies_sendText (text ▸ .bulks _) short

/-! ## Strings -/

theorem replies_handleGet
    (fits : ∀ key ∈ req.args[0]?, ∀ text expiresAt, lookup w.table key = .ok (some ⟨.string text, expiresAt⟩) →
      Live w ⟨.string text, expiresAt⟩ → (bulk text).length < 1024) : Replies fd (handleGet req fd) w := by
  unfold handleGet
  refine replies_arg fun key isKey => .after fun value t run => ?_
  cases value with
  | none => exact replies_send .nilBulk
  | some value =>
    obtain ⟨⟨stored, expiresAt⟩, bound, live, rfl⟩ := storeGet_value run
    dsimp only
    cases stored with
    | string text => exact .of_bind rfl rfl (replies_sendText (.bulk text) (fits key isKey text expiresAt bound live))
    | _ => exact .of_error rfl

theorem replies_handleType : Replies fd (handleType req fd) w := by
  unfold handleType
  refine replies_arg fun key _ => replies_storeGetEntry fun entry _ => ?_
  cases entry with
  | none => exact replies_line (by decide)
  | some entry =>
    dsimp only
    cases entry.type <;> exact replies_line (by decide)

theorem replies_handleIncr : Replies fd (handleIncr req fd) w := by
  unfold handleIncr
  refine replies_arg fun key _ => replies_storeGetEntry fun entry _ => ?_
  cases entry with
  | none => exact .after fun _ _ _ => replies_line (by decide)
  | some entry =>
    dsimp only
    refine .ite (fun _ => .of_error rfl) fun _ => .after fun text t _ => ?_
    refine .ite (fun _ => replies_line (by decide)) fun _ => .ite (fun _ => .of_error rfl) fun _ => ?_
    exact .after fun _ _ _ => replies_send (.integer _)

theorem replies_handleSet (enough : 2 ≤ req.argc) (ordinary : fd ≠ w.serverConfig.masterFd) :
    Replies fd (handleSet req .string fd) w := by
  unfold handleSet
  rw [if_neg (by omega)]
  refine replies_arg fun key _ => replies_arg fun value _ => .after fun _ t run => ?_
  have same : SameServer w t := Preserves.run _ _ _ run
  exact replies_sendUnlessMaster (by rw [same.serverConfig]; exact ordinary) (.of_isLine (by decide))

end Simple

end RedisClone
