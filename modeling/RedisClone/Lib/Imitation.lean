import RedisClone.Lib.Exec
import RedisClone.Lib.Runs

/-! # Computations that imitate others

`Imitates R x y`: wherever `x` ends normally, `y` ends with the same result from every related state, and leaves a
related state.  Nothing is said of where `x` faults, and the two may be different computations over different states.
It is a class, with an instance for every way a computation is put together, so that a computation without a case
distinction on a result is imitated by instance search.  `Simulates` is the same for the steps of two systems, where a
step of the one is a run of the other.
-/

namespace Exec

variable {σ τ ε ε' α β : Type} {R : σ → τ → Prop}

/-- Every normal end of `x` is one of `y` too. -/
class Imitates (R : σ → τ → Prop) (x : Exec σ ε α) (y : Exec τ ε' α) : Prop where
  run : ∀ s t a s', R s t → x s = .ok (a, s') → ∃ t', y t = .ok (a, t') ∧ R s' t'

instance imitates_pure (a : α) : Imitates R (pure a : Exec σ ε α) (pure a : Exec τ ε' α) where
  run s t b s' related run := by
    obtain ⟨rfl, rfl⟩ := Prod.mk.inj (Except.ok.inj run)
    exact ⟨t, rfl, related⟩

/-- A fault is no normal end. -/
instance imitates_fault (e : ε) (y : Exec τ ε' α) : Imitates R (fault e : Exec σ ε α) y where
  run _ _ _ _ _ run := by simp at run

instance imitates_bind {x : Exec σ ε α} {y : Exec τ ε' α} {f : α → Exec σ ε β} {g : α → Exec τ ε' β}
    [first : Imitates R x y] [rest : ∀ a, Imitates R (f a) (g a)] : Imitates R (x >>= f) (y >>= g) where
  run s t b s' related run := by
    obtain ⟨a, u, runsFirst, runsRest⟩ := bind_eq_ok.mp run
    obtain ⟨u', endsFirst, related'⟩ := first.run s t a u related runsFirst
    obtain ⟨t', endsRest, related''⟩ := (rest a).run u u' b s' related' runsRest
    exact ⟨t', by rw [bind_of_ok endsFirst, endsRest], related''⟩

/-- Sequencing, for a second part that takes cases on the result of the first. -/
theorem Imitates.bind {x : Exec σ ε α} {y : Exec τ ε' α} {f : α → Exec σ ε β} {g : α → Exec τ ε' β}
    (first : Imitates R x y) (rest : ∀ a, Imitates R (f a) (g a)) : Imitates R (x >>= f) (y >>= g) :=
  imitates_bind

instance imitates_map {x : Exec σ ε α} {y : Exec τ ε' α} (f : α → β) [Imitates R x y] :
    Imitates R (f <$> x) (f <$> y) := by
  rw [← bind_pure_comp, ← bind_pure_comp]
  infer_instance

instance imitates_ite {c : Prop} [Decidable c] {x x' : Exec σ ε α} {y y' : Exec τ ε' α} [Imitates R x y]
    [Imitates R x' y'] : Imitates R (if c then x else x') (if c then y else y') := by
  split
  · infer_instance
  · infer_instance

/-- The changes keep states related. -/
theorem Imitates.alter {f : σ → σ} {g : τ → τ} (keeps : ∀ s t, R s t → R (f s) (g t)) :
    Imitates R (alter f : Exec σ ε Unit) (alter g : Exec τ ε' Unit) where
  run s t a s' related run := by
    obtain ⟨_, rfl⟩ := Prod.mk.inj (Except.ok.inj run)
    exact ⟨g t, rfl, keeps s t related⟩

/-! ## Ends -/

variable {P : τ → Prop}

/-- `y` ends wherever `x` does, in a state with `P`. -/
def Outlasts (R : σ → τ → Prop) (P : τ → Prop) (x : Exec σ ε α) (y : Exec τ ε' β) : Prop :=
  ∀ s t a s', R s t → x s = .ok (a, s') → ∃ b t', y t = .ok (b, t') ∧ P t'

theorem Imitates.outlasts {x : Exec σ ε α} {y : Exec τ ε' α} (imitates : Imitates R x y) (holds : ∀ s t, R s t → P t) :
    Outlasts R P x y := by
  intro s t a s' related run
  obtain ⟨t', ends, related'⟩ := imitates.run s t a s' related run
  exact ⟨a, t', ends, holds s' t' related'⟩

theorem Imitates.bind_outlasts {x : Exec σ ε α} {y : Exec τ ε' α} {f : α → Exec σ ε β} {g : α → Exec τ ε' β}
    (first : Imitates R x y) (rest : ∀ a, Outlasts R P (f a) (g a)) : Outlasts R P (x >>= f) (y >>= g) := by
  intro s t b s' related run
  obtain ⟨a, u, runsFirst, runsRest⟩ := bind_eq_ok.mp run
  obtain ⟨u', endsFirst, related'⟩ := first.run s t a u related runsFirst
  obtain ⟨b', t', endsRest, holds⟩ := rest a u u' b s' related' runsRest
  exact ⟨b', t', by rw [bind_of_ok endsFirst, endsRest], holds⟩

end Exec

/-! ## Runs -/

/-- Every step of the first system is a run of the second one, from every related state. -/
def Simulates {σ τ ι κ : Type} (R : σ → τ → Prop) (step : σ → ι → σ → Prop) (allowed : σ → ι → Prop)
    (step' : τ → κ → τ → Prop) (allowed' : τ → κ → Prop) : Prop :=
  ∀ s i s' t, R s t → allowed s i → step s i s' → ∃ t', Run step' allowed' t t' ∧ R s' t'

theorem Simulates.run {σ τ ι κ : Type} {R : σ → τ → Prop} {step : σ → ι → σ → Prop} {allowed : σ → ι → Prop}
    {step' : τ → κ → τ → Prop} {allowed' : τ → κ → Prop} (simulates : Simulates R step allowed step' allowed') {s s' : σ}
    {t : τ} (related : R s t) (run : Run step allowed s s') : ∃ t', Run step' allowed' t t' ∧ R s' t' := by
  induction run with
  | refl => exact ⟨t, .refl t, related⟩
  | tail _ permitted last inductionHypothesis =>
    obtain ⟨u, before, between⟩ := inductionHypothesis
    obtain ⟨t', behind, atEnd⟩ := simulates _ _ _ u between permitted last
    exact ⟨t', before.trans behind, atEnd⟩
