import RedisClone.Lib.Exec

/-! # Computations that agree

`Agrees R x y`: where `x` and `y` both end normally from related states, they end with the same result, in related states.
Each of the two may fault where the other does not, so that it says less than that one imitates the other, and needs less
of the states.  It is a class, with an instance for every way a computation is put together.
-/

namespace Exec

variable {σ τ ε ε' α β : Type} {R : σ → τ → Prop}

/-- Two normal ends from related states have the same result. -/
class Agrees (R : σ → τ → Prop) (x : Exec σ ε α) (y : Exec τ ε' α) : Prop where
  run : ∀ s t a b s' t', R s t → x s = .ok (a, s') → y t = .ok (b, t') → a = b ∧ R s' t'

instance agrees_pure (a : α) : Agrees R (pure a : Exec σ ε α) (pure a : Exec τ ε' α) where
  run s t b c s' t' related run run' := by
    obtain ⟨rfl, rfl⟩ := Prod.mk.inj (Except.ok.inj run)
    obtain ⟨rfl, rfl⟩ := Prod.mk.inj (Except.ok.inj run')
    exact ⟨rfl, related⟩

instance agrees_fault (e : ε) (y : Exec τ ε' α) : Agrees R (fault e : Exec σ ε α) y where
  run _ _ _ _ _ _ _ run := by simp at run

instance agrees_faults (x : Exec σ ε α) (e : ε') : Agrees R x (fault e : Exec τ ε' α) where
  run _ _ _ _ _ _ _ _ run := by simp at run

instance agrees_bind {x : Exec σ ε α} {y : Exec τ ε' α} {f : α → Exec σ ε β} {g : α → Exec τ ε' β}
    [first : Agrees R x y] [rest : ∀ a, Agrees R (f a) (g a)] : Agrees R (x >>= f) (y >>= g) where
  run s t b b' s' t' related run run' := by
    obtain ⟨a, u, runsFirst, runsRest⟩ := bind_eq_ok.mp run
    obtain ⟨a', u', runsFirst', runsRest'⟩ := bind_eq_ok.mp run'
    obtain ⟨rfl, related'⟩ := first.run s t a a' u u' related runsFirst runsFirst'
    exact (rest a).run u u' b b' s' t' related' runsRest runsRest'

/-- Sequencing, for a second part that takes cases on the result of the first. -/
theorem Agrees.bind {x : Exec σ ε α} {y : Exec τ ε' α} {f : α → Exec σ ε β} {g : α → Exec τ ε' β}
    (first : Agrees R x y) (rest : ∀ a, Agrees R (f a) (g a)) : Agrees R (x >>= f) (y >>= g) :=
  agrees_bind

instance agrees_ite {c : Prop} [Decidable c] {x x' : Exec σ ε α} {y y' : Exec τ ε' α} [Agrees R x y] [Agrees R x' y'] :
    Agrees R (if c then x else x') (if c then y else y') := by
  split
  · infer_instance
  · infer_instance

/-- A choice whose branches are no instances. -/
theorem Agrees.ite {c : Prop} [Decidable c] {x x' : Exec σ ε α} {y y' : Exec τ ε' α} (whenTrue : Agrees R x y)
    (whenFalse : Agrees R x' y') : Agrees R (if c then x else x') (if c then y else y') :=
  agrees_ite

/-- Each of the two may fault for a reason of its own. -/
theorem Agrees.orFault {c c' : Prop} [Decidable c] [Decidable c'] {e : ε} {e' : ε'} {x : Exec σ ε α} {y : Exec τ ε' α}
    (agrees : Agrees R x y) : Agrees R (if c then fault e else x) (if c' then fault e' else y) := by
  split
  · exact agrees_fault e _
  · split
    · exact agrees_faults x e'
    · exact agrees

/-- The changes keep states related. -/
theorem Agrees.alter {f : σ → σ} {g : τ → τ} (keeps : ∀ s t, R s t → R (f s) (g t)) :
    Agrees R (alter f : Exec σ ε Unit) (alter g : Exec τ ε' Unit) where
  run s t _ _ s' t' related run run' := by
    obtain ⟨_, rfl⟩ := Prod.mk.inj (Except.ok.inj run)
    obtain ⟨_, rfl⟩ := Prod.mk.inj (Except.ok.inj run')
    exact ⟨rfl, keeps s t related⟩

end Exec
