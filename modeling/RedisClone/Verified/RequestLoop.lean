import RedisClone.Lib.Laps
import RedisClone.Verified.Wire

/-! # The loop that drains a buffer ends

`loopRound` is one round of `while (ptr < end)`, without the fuel of `parseLoop`.  Every round leaves the loop or moves
`ptr` forward: past the message where `parse` returns 0, and past the `*` it started at where `parse` returns 1, wherever
that call of `parse` had moved `ptr`.
-/

namespace RedisClone

open CString

/-! ## Rounds -/

inductive LoopState where
  | running (ptr : Nat)
  | broken
  | faulted (f : Fault)

/-- How far the loop is; behind the buffer once it is left. -/
def LoopState.position (n : Nat) : LoopState → Nat
  | .running ptr => ptr
  | .broken | .faulted _ => n

def LoopState.fault : LoopState → Option Fault
  | .faulted f => some f
  | .running _ | .broken => none

/-- A round of the loop, with the call of `handle` it makes; `none` where the loop is over. -/
def loopRound (memory : Bytes) (n : Nat) : LoopState → Option (Option Call × LoopState)
  | .running ptr =>
    if ptr < n then
      let before := skipToStar memory n ptr
      if n ≤ before then some (none, .broken)
      else
        match parse memory before with
        | .error f => some (none, .faulted f)
        | .ok none => some (none, .running (before + 1))
        | .ok (some (request, next)) => some (some ⟨before, request, next - before⟩, .running next)
    else none
  | .broken | .faulted _ => none

/-- The ways a round can go. -/
theorem loopRound_cases {memory : Bytes} {n : Nat} {s t : LoopState} {out : Option Call}
    (goes : loopRound memory n s = some (out, t)) : ∃ ptr, s = .running ptr ∧ ptr < n ∧
      (out = none ∧ t = .broken ∨ (∃ f, out = none ∧ t = .faulted f) ∨
        skipToStar memory n ptr < n ∧
          (out = none ∧ t = .running (skipToStar memory n ptr + 1) ∨
            ∃ request next, parse memory (skipToStar memory n ptr) = .ok (some (request, next)) ∧
              out = some ⟨skipToStar memory n ptr, request, next - skipToStar memory n ptr⟩ ∧ t = .running next)) := by
  cases s with
  | broken => cases goes
  | faulted f => cases goes
  | running ptr =>
    simp only [loopRound] at goes
    split at goes
    · rename_i inside
      refine ⟨ptr, rfl, inside, ?_⟩
      split at goes
      · cases goes
        exact .inl ⟨rfl, rfl⟩
      · rename_i found
        split at goes
        · cases goes
          exact .inr (.inl ⟨_, rfl, rfl⟩)
        · cases goes
          exact .inr (.inr ⟨by omega, .inl ⟨rfl, rfl⟩⟩)
        · rename_i request next parsed
          cases goes
          exact .inr (.inr ⟨by omega, .inr ⟨request, next, parsed, rfl, rfl⟩⟩)
    · cases goes

theorem le_skipToStar (memory : Bytes) (n ptr : Nat) : ptr ≤ skipToStar memory n ptr :=
  Nat.le_add_right _ _

theorem getLineFrom_head {room : Nat} {memory line : Bytes} {c : UInt8}
    (reads : getLineFrom room memory = .ok (c :: line)) : memory.head? = some c := by
  cases memory with
  | nil => simp [getLineFrom] at reads
  | cons d rest =>
    unfold getLineFrom at reads
    split at reads
    · split at reads <;> cases reads
    · split at reads
      · cases reads
      · split at reads
        · cases reads
          rfl
        · cases reads

/-- A message that `parse` takes starts with a `*`. -/
theorem parse_star {memory : Bytes} {ptr next : Nat} {request : RespRequest}
    (parsed : parse memory ptr = .ok (some (request, next))) : memory[ptr]? = some 42 := by
  rw [parse] at parsed
  split at parsed
  · cases parsed
  · rename_i firstLine line
    split at parsed
    · cases parsed
    · rename_i star
      rw [not_ne_iff, getPrefix] at star
      split at star
      · rename_i c isHead
        split at star
        · obtain rfl : c = 42 := Option.some.inj star
          obtain ⟨tail, rfl⟩ := List.head?_eq_some_iff.mp isHead
          rw [← List.head?_drop]
          exact getLineFrom_head line
        · cases star
      · cases star

theorem loopRound_advances (memory : Bytes) (n : Nat) :
    Advances (loopRound memory n) (LoopState.position n) Call.start n where
  below s out t goes := by
    obtain ⟨ptr, rfl, inside, _⟩ := loopRound_cases goes
    exact inside
  forward s out t goes := by
    obtain ⟨ptr, rfl, inside, ⟨_, rfl⟩ | ⟨f, _, rfl⟩ | ⟨_, ⟨_, rfl⟩ | ⟨request, next, parsed, _, rfl⟩⟩⟩ :=
      loopRound_cases goes
    · exact inside
    · exact inside
    · exact Nat.lt_succ_of_le (le_skipToStar memory n ptr)
    · have moved := parse_next parsed
      have skipped := le_skipToStar memory n ptr
      simp only [LoopState.position]
      omega
  between s call t goes := by
    obtain ⟨ptr, rfl, inside, ⟨isNone, _⟩ | ⟨f, isNone, _⟩ | ⟨_, ⟨isNone, _⟩ | ⟨request, next, parsed, same, rfl⟩⟩⟩ :=
      loopRound_cases goes
    · cases isNone
    · cases isNone
    · cases isNone
    · cases same
      have moved := parse_next parsed
      exact ⟨le_skipToStar memory n ptr, by simp only [LoopState.position]; omega⟩

/-! ## The whole loop -/

/-- The loop on these received bytes ends, within so many rounds as there are bytes, and calls `handle` at
most once for each `*`, in their order. -/
structure LoopEnds (bytes stale : Bytes) : Prop where
  forward : ∀ ptr out t, loopRound (bytes ++ 0 :: stale) bytes.length (.running ptr) = some (out, t) →
    t = .broken ∨ (∃ f, t = .faulted f) ∨ ∃ ptr', t = .running ptr' ∧ ptr < ptr'
  rounds : ∀ k calls t, Laps (loopRound (bytes ++ 0 :: stale) bytes.length) k (.running 0) calls t →
    k ≤ bytes.length ∧ calls.Pairwise (fun a b => a.start < b.start) ∧
      ∀ call ∈ calls, bytes[call.start]? = some 42
  ends : ∃ k t, Laps (loopRound (bytes ++ 0 :: stale) bytes.length) k (.running 0)
      (handleCalls (bytes ++ 0 :: stale) bytes.length).1 t ∧
    loopRound (bytes ++ 0 :: stale) bytes.length t = none ∧
    t.fault = (handleCalls (bytes ++ 0 :: stale) bytes.length).2

/-- A call is made at a `*` of the received bytes. -/
theorem loopRound_star {bytes stale : Bytes} {s t : LoopState} {call : Call}
    (goes : loopRound (bytes ++ 0 :: stale) bytes.length s = some (some call, t)) :
    bytes[call.start]? = some 42 := by
  obtain ⟨ptr, rfl, inside, ⟨isNone, _⟩ | ⟨f, isNone, _⟩ |
    ⟨found, ⟨isNone, _⟩ | ⟨request, next, parsed, same, rfl⟩⟩⟩ := loopRound_cases goes
  · cases isNone
  · cases isNone
  · cases isNone
  · cases same
    have star := parse_star parsed
    rwa [List.getElem?_append_left found] at star

/-- With a round for every byte left, `handleCallsFrom` goes through the rounds to the end. -/
theorem laps_handleCallsFrom {memory : Bytes} {n fuel ptr : Nat} (enough : n ≤ ptr + fuel) :
    ∃ k t, Laps (loopRound memory n) k (.running ptr) (handleCallsFrom memory n fuel ptr).1 t ∧
      loopRound memory n t = none ∧ t.fault = (handleCallsFrom memory n fuel ptr).2 := by
  induction fuel generalizing ptr with
  | zero => exact ⟨0, .running ptr, .refl _, if_neg (by omega), rfl⟩
  | succ fuel inductionHypothesis =>
    by_cases inside : ptr < n
    swap
    · have ended : n ≤ skipToStar memory n ptr := (Nat.not_lt.mp inside).trans (le_skipToStar memory n ptr)
      rw [handleCallsFrom]
      simp only [if_pos ended]
      exact ⟨0, .running ptr, .refl _, if_neg inside, rfl⟩
    have skipped := le_skipToStar memory n ptr
    rw [handleCallsFrom]
    by_cases ended : n ≤ skipToStar memory n ptr
    · -- no `*` is left
      have breaks : loopRound memory n (.running ptr) = some (none, .broken) := by simp [loopRound, inside, ended]
      simp only [if_pos ended]
      exact ⟨1, .broken, .head breaks (.refl _), rfl, rfl⟩
    simp only [if_neg ended]
    cases parsed : parse memory (skipToStar memory n ptr) with
    | error f =>
      -- `parse` leaves the memory, and the run ends there
      have faults : loopRound memory n (.running ptr) = some (none, .faulted f) := by
        simp [loopRound, inside, ended, parsed]
      exact ⟨1, .faulted f, .head faults (.refl _), rfl, rfl⟩
    | ok result =>
      cases result with
      | none =>
        -- `ptr = before + 1`
        have resyncs : loopRound memory n (.running ptr) = some (none, .running (skipToStar memory n ptr + 1)) := by
          simp [loopRound, inside, ended, parsed]
        obtain ⟨k, t, laps, isEnd, sameFault⟩ := @inductionHypothesis (skipToStar memory n ptr + 1) (by omega)
        exact ⟨k + 1, t, .head resyncs laps, isEnd, sameFault⟩
      | some found =>
        obtain ⟨request, next⟩ := found
        have moved := parse_next parsed
        have calls : loopRound memory n (.running ptr) =
            some (some ⟨skipToStar memory n ptr, request, next - skipToStar memory n ptr⟩, .running next) := by
          simp [loopRound, inside, ended, parsed]
        obtain ⟨k, t, laps, isEnd, sameFault⟩ := @inductionHypothesis next (by omega)
        exact ⟨k + 1, t, .head calls laps, isEnd, sameFault⟩

theorem request_loop_ends (bytes stale : Bytes) : LoopEnds bytes stale := by
  have advances := loopRound_advances (bytes ++ 0 :: stale) bytes.length
  constructor
  · intro ptr out t goes
    have moved := advances.forward _ _ _ goes
    cases t with
    | running ptr' => exact .inr (.inr ⟨ptr', rfl, moved⟩)
    | broken => exact .inl rfl
    | faulted f => exact .inr (.inl ⟨f, rfl⟩)
  · intro k calls t laps
    exact ⟨laps.rounds_le advances, laps.sorted advances, laps.forall_values fun _ _ _ goes => loopRound_star goes⟩
  · exact laps_handleCallsFrom (by omega)

end RedisClone
