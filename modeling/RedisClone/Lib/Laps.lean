import Mathlib.Data.Option.Basic

/-! # Loops that advance

A loop is a partial function on its states; each round may hand out a value.  Where every round moves a position forward
and starts below a bound, the rounds are no more than the bound, and the values come in the order of their places.
-/

/-- So many rounds lead from one state to the other and hand out these values. -/
inductive Laps {σ ι : Type*} (round : σ → Option (Option ι × σ)) : Nat → σ → List ι → σ → Prop where
  | refl (s : σ) : Laps round 0 s [] s
  | head {s t u : σ} {out : Option ι} {k : Nat} {values : List ι} (first : round s = some (out, t))
      (rest : Laps round k t values u) : Laps round (k + 1) s (out.toList ++ values) u

/-- Every round starts below the bound and moves the position forward, and what it hands out has a place on the way. -/
structure Advances {σ ι : Type*} (round : σ → Option (Option ι × σ)) (position : σ → Nat) (place : ι → Nat)
    (bound : Nat) : Prop where
  below : ∀ s out t, round s = some (out, t) → position s < bound
  forward : ∀ s out t, round s = some (out, t) → position s < position t
  between : ∀ s value t, round s = some (some value, t) → position s ≤ place value ∧ place value < position t

namespace Laps

variable {σ ι : Type*} {round : σ → Option (Option ι × σ)} {s t : σ} {k : Nat} {values : List ι}
variable {position : σ → Nat} {place : ι → Nat} {bound : Nat}

/-- There are no more rounds than positions below the bound. -/
theorem rounds_le (advances : Advances round position place bound) (laps : Laps round k s values t) :
    k ≤ bound - position s := by
  induction laps with
  | refl => exact Nat.zero_le _
  | head first _ inductionHypothesis =>
    have moved := advances.forward _ _ _ first
    have inside := advances.below _ _ _ first
    omega

theorem place_le (advances : Advances round position place bound) (laps : Laps round k s values t) :
    ∀ value ∈ values, position s ≤ place value := by
  induction laps with
  | refl => simp
  | @head s t u out k values first rest inductionHypothesis =>
    intro value member
    have moved := advances.forward _ _ _ first
    obtain now | later := List.mem_append.mp member
    · rw [Option.mem_toList] at now
      cases now
      exact (advances.between _ _ _ first).1
    · have place := inductionHypothesis value later
      omega

/-- The values come in the order of their places. -/
theorem sorted (advances : Advances round position place bound) (laps : Laps round k s values t) :
    values.Pairwise fun a b => place a < place b := by
  induction laps with
  | refl => exact .nil
  | @head s t u out k values first rest inductionHypothesis =>
    cases out with
    | none => exact inductionHypothesis
    | some value =>
      refine .cons (fun other later => ?_) inductionHypothesis
      have before := (advances.between _ _ _ first).2
      have behind := rest.place_le advances other later
      omega

/-- What holds of the value of every round holds of all values. -/
theorem forall_values {p : ι → Prop} (each : ∀ s value t, round s = some (some value, t) → p value)
    (laps : Laps round k s values t) : ∀ value ∈ values, p value := by
  induction laps with
  | refl => simp
  | head first _ inductionHypothesis =>
    intro value member
    obtain now | later := List.mem_append.mp member
    · rw [Option.mem_toList] at now
      cases now
      exact each _ _ _ first
    · exact inductionHypothesis value later

end Laps
