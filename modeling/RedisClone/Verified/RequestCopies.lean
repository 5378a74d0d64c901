import RedisClone.Verified.KeyListing

/-! # The array of `copy_request_toBuffer`

`pass_data_toReplica` gives 1024 bytes to `copy_request_toBuffer`, which sums up what `snprintf` would have written.
`copy_within_iff`: the offset stays inside the array and counts what was written, and the replica is sent the request as
it is, exactly where the text of the request leaves room for the NUL.
-/

namespace RedisClone

open Exec CString

/-- What `copy_request_toBuffer` prints, call by call. -/
def requestTexts (req : RespRequest) : List Bytes :=
  arrayHeader (req.argc + 1) :: bulk (cmdToString req.command) :: req.args.map bulk

/-- The length of a message with these strings, by their number and their lengths. -/
def wireLength (strings : List Bytes) : Nat :=
  3 + (decimal strings.length).length + (strings.map fun s => 5 + (decimal s.length).length + s.length).sum

/-- The copy of a request stays inside the 1024 bytes, and is sent as it is. -/
structure CopiesWithin (req : RespRequest) : Prop where
  offsets : ∀ {D : Type} (w : World D) (k : Nat), ∃ buffer : Buffer,
    Buffer.appendAll 1024 ((requestTexts req).take k) {} w = .ok (buffer, w) ∧ buffer.offset ≤ 1024 ∧
      buffer.offset = buffer.content.length
  returned : ∀ {D : Type} (w : World D), ∃ buffer : Buffer,
    copyRequestToBuffer req 1024 w = .ok (buffer, w) ∧ buffer.offset = buffer.content.length
  sent : ∀ {D : Type} {w : World D} {slot : ClientSlot} {ptr : ClientPtr} {client : Client},
    w.clients slot = some ptr → w.heap ptr = some client → client.isReplica = true →
      passTo req slot w = .ok ((), { w.emit client.fd (encode (cmdToString req.command :: req.args)) with
        passed := w.passed ++ [(ptr, req)] })

theorem length_encode (strings : List Bytes) : (encode strings).length = wireLength strings := by
  have header : (arrayHeader strings.length).length = 3 + (decimal strings.length).length := by
    have star : (lit "*").length = 1 := by decide
    have ends : crlf.length = 2 := by decide
    simp only [arrayHeader, decimalInt, List.length_append]
    omega
  have bulks : (strings.map bulk).flatten.length =
      (strings.map fun s => 5 + (decimal s.length).length + s.length).sum := by
    rw [List.length_flatten, List.map_map]
    congr 2
    funext s
    simp only [Function.comp_apply, length_bulk_eq]
    omega
  rw [encode, List.length_append, header, bulks, wireLength]

theorem requestTexts_flatten {req : RespRequest} (counted : req.argc = req.args.length) :
    (requestTexts req).flatten = encode (cmdToString req.command :: req.args) := by
  simp [requestTexts, encode, counted]

theorem copiesWithin_iff {req : RespRequest} (counted : req.argc = req.args.length) :
    CopiesWithin req ↔ (encode (cmdToString req.command :: req.args)).length < 1024 := by
  constructor
  · intro within
    -- the array keeps a byte for the NUL, so an offset of 1024 is no longer what was written
    obtain ⟨buffer, copies, same⟩ := within.returned (blankWorld Int)
    have written : buffer = ⟨(requestTexts req).flatten.take (1024 - 1), (requestTexts req).flatten.length⟩ :=
      appendAll_written copies
    have inside : buffer.content.length < 1024 := by
      rw [written, List.length_take]
      omega
    have offset : buffer.offset = (requestTexts req).flatten.length := by rw [written]
    rw [requestTexts_flatten counted] at offset
    omega
  · intro room
    have prints {D : Type} (w : World D) (k : Nat) :
        Buffer.appendAll 1024 ((requestTexts req).take k) {} w =
          .ok (⟨((requestTexts req).take k).flatten, ((requestTexts req).take k).flatten.length⟩, w) ∧
          ((requestTexts req).take k).flatten.length < 1024 := by
      have part : ((requestTexts req).take k).flatten.length ≤ (requestTexts req).flatten.length :=
        (List.take_sublist k _).flatten.length_le
      rw [requestTexts_flatten counted] at part
      have fits : ([] ++ ((requestTexts req).take k).flatten).length < 1024 := part.trans_lt room
      exact ⟨appendAll_fits _ fits w, fits⟩
    refine ⟨fun w k => ?_, fun w => ?_, ?_⟩
    · obtain ⟨run, fits⟩ := prints w k
      exact ⟨_, run, fits.le, rfl⟩
    · exact ⟨_, copyRequestToBuffer_run counted room w, rfl⟩
    · intro D w slot ptr client inSlot found isReplica
      have look : clientAt slot w = .ok (some (ptr, client), w) := by
        unfold clientAt
        rw [bind_of_ok (observe_run _ w), inSlot]
        dsimp only
        rw [bind_of_ok (loadClient_found found)]
        rfl
      unfold passTo
      rw [bind_of_ok look]
      dsimp only
      rw [if_pos isReplica, bind_of_ok (copyRequestToBuffer_run counted room w), Buffer.sendPrefix,
        if_neg (not_lt.mpr room.le), List.take_length, Nat.sub_self, List.replicate_zero, List.append_nil]
      rfl

theorem copy_within_iff {req : RespRequest} (fromParse : FromParse req) (isWrite : isWriteCmd req.command = true) :
    CopiesWithin req ↔ wireLength (cmdToString req.command :: req.args) < 1024 := by
  rw [copiesWithin_iff (fromParse.strings.2 (known_of_isWriteCmd isWrite)), length_encode]

/-- `SET k v` takes 27 bytes. -/
theorem copy_within_set : CopiesWithin (requestOf [lit "SET", lit "k", lit "v"]) := by
  have fromParse : FromParse (requestOf [lit "SET", lit "k", lit "v"]) := fromParse_requestOf
    ⟨[lit "SET", lit "k", lit "v"], by decide, by decide, by decide +kernel⟩ (by decide +kernel)
  exact (copy_within_iff fromParse (by decide +kernel)).mpr (by decide +kernel)

/-- RPUSH of four elements of 250 bytes. -/
def pushLong : Message where
  elements := lit "RPUSH" :: lit "k" :: List.replicate 4 (List.replicate 250 97)
  nonempty := by decide
  few := by decide
  short := by decide +kernel

/-- The request arrives in 1062 bytes, and its copy does not fit into 1024. -/
theorem copy_overruns : ¬ ∀ (bytes stale : Bytes) (ptr next : Nat) (req : RespRequest), bytes.length ≤ 4095 →
    parse (bytes ++ 0 :: stale) ptr = .ok (some (req, next)) → isWriteCmd req.command = true → CopiesWithin req := by
  intro within
  have plain : ∀ element ∈ pushLong.elements, Plain element := by decide +kernel
  have parsed : parse (encode pushLong.elements ++ 0 :: []) 0 =
      .ok (some (requestOf pushLong.elements, 0 + (encode pushLong.elements).length)) :=
    parse_encode pushLong plain List.drop_zero
  have copies := within _ [] 0 _ _ (by decide +kernel) parsed (by decide +kernel)
  have room := (copiesWithin_iff (by decide +kernel)).mp copies
  exact absurd room (by decide +kernel)

end RedisClone
