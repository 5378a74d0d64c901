/-! # Runs of a labelled transition system

`Run step allowed s t`: some steps lead from `s` to `t`, and every one of them is taken in a state
and with a label that `allowed` holds of.  Since the runs are closed under taking a part, what is
shown of the last state of every run is shown of every state that a run passes.
-/

inductive Run {σ ι : Type} (step : σ → ι → σ → Prop) (allowed : σ → ι → Prop) : σ → σ → Prop where
  | refl (s : σ) : Run step allowed s s
  | tail {s t u : σ} {i : ι} (before : Run step allowed s t) (permitted : allowed t i)
      (last : step t i u) : Run step allowed s u

namespace Run

variable {σ ι : Type} {step : σ → ι → σ → Prop} {allowed : σ → ι → Prop} {s t u : σ} {i : ι}

theorem single (permitted : allowed s i) (only : step s i t) : Run step allowed s t :=
  .tail (.refl s) permitted only

theorem trans (first : Run step allowed s t) (second : Run step allowed t u) :
    Run step allowed s u := by
  induction second with
  | refl => exact first
  | tail _ permitted last inductionHypothesis => exact .tail inductionHypothesis permitted last

theorem mono {permissive : σ → ι → Prop} (weaker : ∀ s i, allowed s i → permissive s i)
    (run : Run step allowed s t) : Run step permissive s t := by
  induction run with
  | refl => exact .refl s
  | tail _ permitted last inductionHypothesis =>
    exact .tail inductionHypothesis (weaker _ _ permitted) last

/-- What every allowed step preserves holds at the end of a run. -/
theorem invariant {inv : σ → Prop}
    (preserved : ∀ s i t, inv s → allowed s i → step s i t → inv t) (run : Run step allowed s t)
    (atStart : inv s) : inv t := by
  induction run with
  | refl => exact atStart
  | tail _ permitted last inductionHypothesis =>
    exact preserved _ _ _ inductionHypothesis permitted last

/-- The run with these labels, by a function that computes the steps. -/
def follow (next : σ → ι → Option σ) (allowed : σ → ι → Prop) [∀ s i, Decidable (allowed s i)] (s : σ) :
    List ι → Option σ
  | [] => some s
  | i :: labels => if allowed s i then (next s i).bind fun t => follow next allowed t labels else none

theorem of_follow {next : σ → ι → Option σ} [∀ s i, Decidable (allowed s i)] {labels : List ι}
    (sound : ∀ s i t, next s i = some t → step s i t)
    (follows : follow next allowed s labels = some t) : Run step allowed s t := by
  induction labels generalizing s with
  | nil =>
    obtain rfl : s = t := by simpa [follow] using follows
    exact .refl s
  | cons i labels inductionHypothesis =>
    rw [follow] at follows
    split at follows
    · rename_i permitted
      obtain ⟨u, isNext, rest⟩ := Option.bind_eq_some_iff.mp follows
      exact (single permitted (sound s i u isNext)).trans (inductionHypothesis rest)
    · simp at follows

end Run
