import Mathlib.Data.List.Infix
import Mathlib.Logic.Function.Basic
import RedisClone.Lib.Runs

/-! # Logs of commands

A machine whose state is what its commands make of it is copied by sending the commands.  `outcome` is what a log makes
of a state, and a system `Follows` its log where a view of it is always the outcome of the log.  Since a log only grows
(`Grows`), whatever part of it another machine has performed was once the whole log: the state that the other one is in
is one that the first one passed (`passes_outcome`).  Where every command works on one part of the state (`Local`), a
part is the outcome of its own commands, and the order of commands of different parts does not matter
(`outcome_agree`).
-/

namespace CommandLog

variable {σ κ μ S ι : Type} {perform : σ → κ → σ} {start : σ} {view : S → σ} {log : S → List κ} {s t : S}

/-- What the commands of a log make of a state, one after another. -/
def outcome (perform : σ → κ → σ) (start : σ) (log : List κ) : σ := log.foldl perform start

@[simp] theorem outcome_nil : outcome perform start [] = start := rfl

@[simp] theorem outcome_singleton (command : κ) : outcome perform start [command] = perform start command := rfl

theorem outcome_append (log more : List κ) :
    outcome perform start (log ++ more) = outcome perform (outcome perform start log) more :=
  List.foldl_append

/-- Logs that say the same have the same outcome. -/
theorem outcome_congr {said : κ → μ} (factors : ∀ state, Function.FactorsThrough (perform state) said) {log log' : List κ}
    (alike : log.map said = log'.map said) : outcome perform start log = outcome perform start log' := by
  induction log generalizing log' start with
  | nil =>
    obtain rfl : log' = [] := List.map_eq_nil_iff.mp alike.symm
    rfl
  | cons command log inductionHypothesis =>
    cases log' with
    | nil => cases alike
    | cons command' log' =>
      obtain ⟨first, rest⟩ := List.cons.inj alike
      change outcome perform (perform start command) log = outcome perform (perform start command') log'
      rw [factors start first]
      exact inductionHypothesis rest

/-- What every command preserves holds after any log. -/
theorem outcome_invariant {inv : σ → Prop} {ok : κ → Prop} (preserved : ∀ state command, ok command → inv state →
    inv (perform state command)) {log : List κ} (all : ∀ command ∈ log, ok command) (atStart : inv start) :
    inv (outcome perform start log) := by
  induction log generalizing start with
  | nil => exact atStart
  | cons command log inductionHypothesis =>
    exact inductionHypothesis (fun other member => all other (List.mem_cons_of_mem _ member))
      (preserved start command (all command List.mem_cons_self) atStart)

/-- The view is what the log makes of the start. -/
def Follows (perform : σ → κ → σ) (start : σ) (view : S → σ) (log : S → List κ) (s : S) : Prop :=
  view s = outcome perform start (log s)

/-- Commands are logged as they are performed. -/
theorem Follows.step (follows : Follows perform start view log s) {commands : List κ}
    (logged : log t = log s ++ commands) (performed : view t = outcome perform (view s) commands) :
    Follows perform start view log t := by
  rw [Follows, logged, outcome_append, performed, follows]

/-! ## Runs -/

variable {step : S → ι → S → Prop} {allowed : S → ι → Prop} {inv : S → Prop}

/-- An allowed step logs at most one command. -/
def Grows (step : S → ι → S → Prop) (allowed : S → ι → Prop) (inv : S → Prop) (log : S → List κ) : Prop :=
  ∀ s i t, inv s → allowed s i → step s i t → log t = log s ∨ ∃ command, log t = log s ++ [command]

/-- Every part of the log was once the whole log. -/
theorem passes_prefix (grows : Grows step allowed inv log)
    (preserved : ∀ s i t, inv s → allowed s i → step s i t → inv t) (atStart : inv s) (run : Run step allowed s t)
    {part : List κ} (behind : log s <+: part) (isPart : part <+: log t) :
    ∃ u, Run step allowed s u ∧ Run step allowed u t ∧ log u = part := by
  induction run with
  | refl =>
    have sameLength := Nat.le_antisymm behind.length_le isPart.length_le
    exact ⟨s, .refl s, .refl s, behind.eq_of_length sameLength⟩
  | @tail t v i before permitted last inductionHypothesis =>
    have holds : inv t := before.invariant preserved atStart
    have whole (isWhole : part = log v) : ∃ u, Run step allowed s u ∧ Run step allowed u v ∧ log u = part :=
      ⟨v, .tail before permitted last, .refl v, isWhole.symm⟩
    have earlier (inEarlier : part <+: log t) : ∃ u, Run step allowed s u ∧ Run step allowed u v ∧ log u = part := by
      obtain ⟨u, here, rest, isLog⟩ := inductionHypothesis inEarlier
      exact ⟨u, here, .tail rest permitted last, isLog⟩
    cases grows t i v holds permitted last with
    | inl same => exact earlier (same ▸ isPart)
    | inr more =>
      obtain ⟨command, isLog⟩ := more
      rw [isLog] at isPart
      -- a part of the longer log is all of it, or was a part before
      cases List.prefix_concat_iff.mp isPart with
      | inl all => exact whole (all.trans isLog.symm)
      | inr inEarlier => exact earlier inEarlier

/-- A machine that has performed a part of the log is in a state that the machine with the log was in. -/
theorem passes_outcome (grows : Grows step allowed inv log)
    (preserved : ∀ s i t, inv s → allowed s i → step s i t → inv t) (atStart : inv s)
    (follows : ∀ u, Run step allowed s u → Follows perform start view log u) (run : Run step allowed s t)
    {part : List κ} (behind : log s <+: part) (isPart : part <+: log t) :
    ∃ u, Run step allowed s u ∧ Run step allowed u t ∧ view u = outcome perform start part := by
  obtain ⟨u, here, rest, isLog⟩ := passes_prefix grows preserved atStart run behind isPart
  exact ⟨u, here, rest, isLog ▸ follows u here⟩

/-! ## Parts -/

section Parts

variable {π ν : Type} {perform : (π → ν) → κ → π → ν} {home : κ → Option π}

/-- A command reads and changes only the part where it is at home. -/
structure Local (perform : (π → ν) → κ → π → ν) (home : κ → Option π) : Prop where
  elsewhere : ∀ state command part, home command ≠ some part → perform state command part = state part
  here : ∀ state state' command part, home command = some part → state part = state' part →
    perform state command part = perform state' command part

variable [DecidableEq π] {log log' : List κ}

/-- The commands of a log that are at home in a part. -/
def ofPart (home : κ → Option π) (part : π) (log : List κ) : List κ := log.filter fun command => home command = some part

/-- A part is what its own commands make of it. -/
theorem outcome_at (isLocal : Local perform home) {start start' : π → ν} {part : π} (same : start part = start' part) :
    outcome perform start log part = outcome perform start' (ofPart home part log) part := by
  induction log generalizing start start' with
  | nil => exact same
  | cons command log inductionHypothesis =>
    by_cases isHere : home command = some part
    · rw [ofPart, List.filter_cons_of_pos (by simpa using isHere)]
      exact inductionHypothesis (isLocal.here _ _ command part isHere same)
    · rw [ofPart, List.filter_cons_of_neg (by simpa using isHere)]
      exact inductionHypothesis ((isLocal.elsewhere _ command part isHere).trans same)

/-- A part that is alike in two states stays alike. -/
theorem outcome_alike (isLocal : Local perform home) {start start' : π → ν} {part : π} (same : start part = start' part) :
    outcome perform start log part = outcome perform start' log part :=
  (outcome_at isLocal same).trans (outcome_at isLocal rfl).symm

/-- A part where no command of the log is at home. -/
theorem outcome_unreached (isLocal : Local perform home) {start : π → ν} {part : π}
    (unreached : ∀ command ∈ log, home command ≠ some part) : outcome perform start log part = start part := by
  have nothing : ofPart home part log = [] := List.filter_eq_nil_iff.mpr fun command member => by
    simpa using unreached command member
  rw [outcome_at isLocal rfl, nothing, outcome_nil]

/-- Two logs with the same commands of every part, in the same order, have the same outcome, where the commands are the
same up to what they do not say. -/
theorem outcome_agree {said : κ → μ} (isLocal : Local perform home)
    (factors : ∀ state, Function.FactorsThrough (perform state) said) {start : π → ν}
    (sameOrder : ∀ part, (ofPart home part log).map said = (ofPart home part log').map said) :
    outcome perform start log = outcome perform start log' := by
  funext part
  calc outcome perform start log part
      = outcome perform start (ofPart home part log) part := outcome_at isLocal rfl
    _ = outcome perform start (ofPart home part log') part := by rw [outcome_congr factors (sameOrder part)]
    _ = outcome perform start log' part := (outcome_at isLocal rfl).symm

end Parts

end CommandLog
